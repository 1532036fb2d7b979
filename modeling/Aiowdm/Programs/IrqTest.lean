import Aiowdm.Driver.WaitQueue
import Aiowdm.Lib.CommandLine
import Aiowdm.Library.Cards

/-!
# The program that tests interrupts

`pcie-adio16-16fds-irq.cpp`: a thread toggles an output that is wired to an interrupt
input and then aborts the request, while the main thread waits for an interrupt.  Both
use card 0 through the library.
-/

namespace Aiowdm.Programs.IrqTest

open Aiowdm.Lib Aiowdm.Driver Aiowdm.Driver.RegisterIo
open Aiowdm.Lib.CommandLine (hex)
open Aiowdm.Driver.Probe (Ending)
open Aiowdm.Library Aiowdm.Library.Cards Aiowdm.Library.Registers

/-! ## What the program calls -/

/-- The calls that are not the library's.  The thread that `spawn` starts runs `GenIrq`. -/
inductive HostCall where
  | printf (text : String)
  | sleep
  | spawn
  | join
deriving DecidableEq, Repr

def HostCall.Reply : HostCall → Type := fun _ => Unit

def host : Interface := ⟨HostCall, HostCall.Reply⟩

abbrev test : Interface := cardIoctls.sum host

def printf (text : String) : Prog test Unit := .perform (I := test) (.inr (.printf text))
def sleep : Prog test Unit := .perform (I := test) (.inr .sleep)
def spawn : Prog test Unit := .perform (I := test) (.inr .spawn)
def join : Prog test Unit := .perform (I := test) (.inr .join)

/-! ## The two threads -/

section

-- `cards` is the file descriptor of each entry of the array of that name.
variable (cards : Nat → Int)

def readAndPrint (text : String) (register : BitVec 32) : Prog test Unit := do
  let value ← (relInPortL cards 0 register).inl.inl
  printf (text ++ hex value.toNat ++ "\n")

def genIrqTurn (set : Bool) : Prog test Unit := do
  printf (if set then "Setting DIO 0 to 1\n" else "Setting DIO 0 to 0\n")
  let _ ← (relOutPortL cards 0 0x44 (if set then 0x1 else 0)).inl.inl
  readAndPrint cards "Reading 0x40: 0x" 0x40
  readAndPrint cards "Reading 0x44: 0x" 0x44
  readAndPrint cards "Reading 0x48: 0x" 0x48
  sleep

def genIrqTurns : Nat → Bool → Prog test Unit
  | 0, _ => pure ()
  | n + 1, set => do
      genIrqTurn cards set
      genIrqTurns n !set

def abort : Prog test Unit := do
  let _ ← (abortRequest cards 0).inr.inl
  return ()

def genIrq : Prog test Unit := do
  genIrqTurns cards 3 true
  abort cards

def statusText (status : Int) : String := "Status of WaitForIRQ = " ++ toString status ++ "\n"

def joinAndReturn : Prog test (Ending Int) := do
  join
  return .returned 0

def report (status : Int) : Prog test (Ending Int) := do
  printf (statusText status)
  joinAndReturn

def waitAndReport : Prog test (Ending Int) := do
  let status ← (waitForIRQ cards 0).inr.inl
  report status

def started : Prog test (Ending Int) := do
  spawn
  waitAndReport cards

def setUp : Prog test (Ending Int) := do
  let status ← (relOutPortB cards 0 0 1).inl.inl
  if status ≠ 0 then
    printf "Failed to reset card\n"
    return .returned (-1)
  let status ← (relOutPortL cards 0 0x48 0x400001).inl.inl
  if status ≠ 0 then
    printf "Failed to enable external IRQ\n"
    return .returned (-1)
  let status ← (relOutPortL cards 0 0x40 0x0080).inl.inl
  if status ≠ 0 then
    printf "Failed to enable external IRQ\n"
    return .returned (-1)
  started cards

end

/-- `deviceId` is what the variable `DeviceId` holds before it is set. -/
def checkDevice (lib : Statics) (deviceId : BitVec 64) : Prog test (Ending Int) := do
  match queryCardInfo lib 0 true false none false with
  | .undefined => return .undefined
  | .returned (_, info) =>
      if info.deviceId.getD deviceId ≠ 0xc2ef then
        printf "Development test only to be used with 0xc2ef device id\n"
        return .returned (-1)
      setUp fun i => (lib.cards i).fd

def main (lib : Statics) (deviceId : BitVec 64) : Prog test (Ending Int) := do
  let numCards : BitVec 32 := (getNumCards lib).setWidth 32
  if numCards = 0 then
    printf "No cards detected\n"
  checkDevice lib deviceId

/-! ## Running the two threads -/

inductive Thread where
  | main
  | genIrq
deriving DecidableEq, Repr

/-- What is left of the threads, `none` before `GenIrq` is started, and the card. -/
structure State where
  main : Prog test (Ending Int)
  genIrq : Option (Prog test Unit)
  card : WaitQueue.State Thread

/-- `answer` is what a register ioctl answers.  The others are not the threads': an isr
notifies, an isr wakes the queue, and a sleeper looks at its condition once more. -/
inductive Action where
  | step (t : Thread) (answer : Int × RegisterIoContext)
  | interrupt
  | isrWake
  | rouse (t : Thread)

inductive Event where
  | registerIo (t : Thread)
  | queue (e : WaitQueue.Event Thread)
  | printed (text : String)
  | slept
  | spawned
  | joined
deriving DecidableEq, Repr

/-- What the ioctl that a step on the card ends returns.  CANCEL that has emptied the slot
returns once it has woken the queue. -/
def result : WaitQueue.Event Thread → Option Int
  | .slot (.refused _ ret) | .slot (.returned _ ret) | .slot (.cancel _ ret false) => some ret
  | .woke _ => some 0
  | _ => none

def waitAction (card : WaitQueue.State Thread) (t : Thread) : WaitQueue.Action Thread :=
  match card.slot.pc t with
  | .idle => .slot (.wait t)
  | .waitEvent => .slot (.recheck t)
  | .readCancelled _ => .slot (.finish t)

def cancelAction (card : WaitQueue.State Thread) (t : Thread) : WaitQueue.Action Thread :=
  if card.waking t then .wake t else .slot (.cancel t)

/-- A step of an ioctl on the card, with the status where the ioctl returns. -/
def queueStep (card : WaitQueue.State Thread) (a : WaitQueue.Action Thread) :
    Option (Event × WaitQueue.State Thread × Option Int) :=
  (WaitQueue.step card a).map fun (e, card) => (.queue e, card, (result e).map ioctlStatus)

/-- A step of a call, with the reply where the call returns.  `ended` tells whether the
thread to join is at its end. -/
def callStep (card : WaitQueue.State Thread) (t : Thread) (answer : Int × RegisterIoContext)
    (ended : Bool) :
    (c : test.Call) → Option (Event × WaitQueue.State Thread × Option (test.Reply c))
  | .inl (.inl (.registerIo _ _)) => some (.registerIo t, card, some answer)
  | .inl (.inr (.irqWait _)) => queueStep card (waitAction card t)
  | .inl (.inr (.irqWaitCancel _)) => queueStep card (cancelAction card t)
  | .inr (.printf text) => some (.printed text, card, some ())
  | .inr .sleep => some (.slept, card, some ())
  | .inr .spawn => some (.spawned, card, some ())
  | .inr .join => if ended then some (.joined, card, some ()) else none

def after {α : Type} (c : test.Call) (k : test.Reply c → Prog test α) :
    Option (test.Reply c) → Prog test α
  | none => .call c k
  | some r => k r

def hasEnded : Option (Prog test Unit) → Bool
  | some (.ret _) => true
  | some (.call _ _) | none => false

def cardStep (s : State) (a : WaitQueue.Action Thread) : Option (Event × State) :=
  (WaitQueue.step s.card a).map fun (e, card) => (.queue e, { s with card })

/-- An isr may notify at any time. -/
def step (cards : Nat → Int) (s : State) : Action → Option (Event × State)
  | .step .main answer =>
      match s.main with
      | .ret _ => none
      | .call c k =>
          (callStep s.card .main answer (hasEnded s.genIrq) c).map fun (e, card, r) =>
            (e, { s with
              main := after c k r
              genIrq := if e = .spawned then some (genIrq cards) else s.genIrq
              card })
  | .step .genIrq answer =>
      match s.genIrq with
      | some (.call c k) =>
          (callStep s.card .genIrq answer false c).map fun (e, card, r) =>
            (e, { s with genIrq := some (after c k r), card })
      | some (.ret _) | none => none
  | .interrupt => cardStep s (.slot .notify)
  | .isrWake => cardStep s .isrWake
  | .rouse t => cardStep s (.rouse t)

/-- The program on a library that is loaded and has card 0 open.  Nobody waits for the
card; what earlier waits have left in `irq_cancelled` is any value. -/
def system (lib : Statics) (deviceId : BitVec 64) (irqCancelled : Int) :
    System State Action Event where
  init := ⟨main lib deviceId, none, .calm ⟨⟨0, irqCancelled⟩, fun _ => .idle⟩⟩
  step := step fun i => (lib.cards i).fd

end Aiowdm.Programs.IrqTest
