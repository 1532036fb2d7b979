import Aiowdm.Driver.Ioctls
import Aiowdm.Lib.System
import Mathlib.Logic.Function.Basic

/-!
# Threads and the isr of one card

Any number of threads in ioctls on one card, and runs of its isr, one load, store or
access a step.  `irq_lock` is a lock that is free or has a holder; a register reads as
whatever the card has in it, and a copy brings whatever the program has in its memory.
-/

namespace Aiowdm.Driver.CardThreads

open Aiowdm.Lib Aiowdm.Driver.Bus Aiowdm.Driver.DeviceContext Aiowdm.Driver.InterruptStyles
open Aiowdm.Driver.Ioctls Aiowdm.Driver.RegisterIo
open Aiowdm.Driver.IrqWait (ERESTARTSYS WaitFlags wakeCondition)
open Aiowdm.Driver.Probe (Ending)

inductive Agent (τ : Type) where
  | thread (t : τ)
  | isr
deriving DecidableEq, Repr

structure Ioctl where
  cmd : BitVec 32
  program : Prog ioctls (Ending Int)

structure State (τ : Type) where
  flags : WaitFlags
  lock : Option (Agent τ)
  ioctls : τ → Option Ioctl
  isr : Option (Prog isr IrqReturn)

/-- What the hardware and the memory of a program answer. -/
structure Answers where
  reading : BitVec 32
  request : Option RegisterIoContext
  copied : Bool
deriving DecidableEq, Repr

inductive Action (τ : Type) where
  | ioctl (t : τ) (cmd : BitVec 32)
  | step (t : τ) (answers : Answers)
  | signal (t : τ)
  | finish (t : τ)
  | interrupt
  | isr (reading : BitVec 32)

/-- What a step is seen to do: `slot` and `context` are calls with what they return. -/
inductive Event (τ : Type) where
  | called (t : τ) (cmd : BitVec 32)
  | slot (t : τ) (cmd : BitVec 32) (c : SlotCall) (value : Int)
  | returned (t : τ) (cmd : BitVec 32) (status : Int)
  | interrupted
  | context (c : ContextCall) (value : Int)
  | handled (r : IrqReturn)
  | quiet
deriving DecidableEq

variable {τ : Type} [DecidableEq τ]

def State.setIoctl (s : State τ) (t : τ) (x : Option Ioctl) : State τ :=
  { s with ioctls := Function.update s.ioctls t x }

/-! ## Calls -/

def slotValue : (c : SlotCall) → c.Reply → Int
  | .loadWaitingForIrq, v | .loadIrqCancelled, v | .waitEventInterruptible, v => v
  | .spinLockIrqsave, _ | .spinUnlockIrqrestore, _ | .storeWaitingForIrq _, _
  | .storeIrqCancelled _, _ | .wakeUpInterruptible, _ => 0

/-- A thread waits where the lock is held, and where its wake condition is false.  It goes
on without being woken, and `wakeUpInterruptible` does nothing; see `WaitQueue`.  That
`spinLockIrqsave` keeps interrupts from its processor is left out. -/
def slotCall (s : State τ) (t : τ) : (c : SlotCall) → Option (c.Reply × State τ)
  | .spinLockIrqsave =>
      if s.lock = none then some ((), { s with lock := some (.thread t) }) else none
  | .spinUnlockIrqrestore => some ((), { s with lock := none })
  | .loadWaitingForIrq => some (s.flags.waitingForIrq, s)
  | .storeWaitingForIrq value =>
      some ((), { s with flags := { s.flags with waitingForIrq := value } })
  | .loadIrqCancelled => some (s.flags.irqCancelled, s)
  | .storeIrqCancelled value =>
      some ((), { s with flags := { s.flags with irqCancelled := value } })
  | .waitEventInterruptible => if wakeCondition s.flags then some ((0 : Int), s) else none
  | .wakeUpInterruptible => some ((), s)

def ioctlCall (s : State τ) (t : τ) (cmd : BitVec 32) (answers : Answers) :
    (c : ioctls.Call) → Option (ioctls.Reply c × Event τ × State τ)
  | .inl (.inl (.ioread w _)) => some (answers.reading.setWidth w.bits, .quiet, s)
  | .inl (.inl (.iowrite _ _ _)) => some ((), .quiet, s)
  | .inl (.inr .copyFromUser) => some (answers.request, .quiet, s)
  | .inl (.inr (.copyToUser _)) => some (answers.copied, .quiet, s)
  | .inr (.inl (.copyToUser _)) => some (answers.copied, .quiet, s)
  | .inr (.inr c) => (slotCall s t c).map fun x => (x.1, .slot t cmd c (slotValue c x.1), x.2)

def contextValue : (c : ContextCall) → c.Reply → Int
  | .loadWaitingForIrq, v => v
  | .spinLock, _ | .spinUnlock, _ | .storeWaitingForIrq _, _ | .wakeUpInterruptible, _ => 0

def contextCall (s : State τ) : (c : ContextCall) → Option (c.Reply × State τ)
  | .spinLock => if s.lock = none then some ((), { s with lock := some .isr }) else none
  | .spinUnlock => some ((), { s with lock := none })
  | .loadWaitingForIrq => some (s.flags.waitingForIrq, s)
  | .storeWaitingForIrq value =>
      some ((), { s with flags := { s.flags with waitingForIrq := value } })
  | .wakeUpInterruptible => some ((), s)

def isrCall (s : State τ) (reading : BitVec 32) :
    (c : InterruptStyles.isr.Call) → Option (InterruptStyles.isr.Reply c × Event τ × State τ)
  | .inl (.ioread w _) => some (reading.setWidth w.bits, .quiet, s)
  | .inl (.iowrite _ _ _) => some ((), .quiet, s)
  | .inr c => (contextCall s c).map fun x => (x.1, .context c (contextValue c x.1), x.2)

/-! ## The system -/

section

-- `starts` is `pci_resource_start`, and `context` that of the card.
variable (pci : PciDev → PciResources) (starts : PciDev → Fin PCI_STD_NUM_BARS → BitVec 64)
variable (context : Context)

/-- An ioctl that did what C leaves undefined goes no further, and runs of the isr do
not overlap. -/
def step (s : State τ) : Action τ → Option (Event τ × State τ)
  | .ioctl t cmd =>
      match s.ioctls t with
      | none => some (.called t cmd,
          s.setIoctl t (some ⟨cmd, accesioCharDriverUnlockedIoctl pci starts context cmd⟩))
      | some _ => none
  | .step t answers =>
      match s.ioctls t with
      | some ⟨cmd, .call c k⟩ =>
          (ioctlCall s t cmd answers c).map fun x =>
            (x.2.1, x.2.2.setIoctl t (some ⟨cmd, k x.1⟩))
      | _ => none
  | .signal t =>
      match s.ioctls t with
      | some ⟨cmd, .call (.inr (.inr .waitEventInterruptible)) k⟩ =>
          if wakeCondition s.flags = false then
            some (.slot t cmd .waitEventInterruptible (-ERESTARTSYS),
              s.setIoctl t (some ⟨cmd, k (-ERESTARTSYS : Int)⟩))
          else none
      | _ => none
  | .finish t =>
      match s.ioctls t with
      | some ⟨cmd, .ret (.returned status)⟩ =>
          some (.returned t cmd status, s.setIoctl t none)
      | _ => none
  | .interrupt =>
      match s.isr, context.descriptor.bind (·.isr) with
      | none, some style => some (.interrupted, { s with isr := some style.interrupt })
      | _, _ => none
  | .isr reading =>
      match s.isr with
      | some (.call c k) =>
          (isrCall s reading c).map fun x => (x.2.1, { x.2.2 with isr := some (k x.1) })
      | some (.ret r) => some (.handled r, { s with isr := none })
      | none => none

def system (τ : Type) [DecidableEq τ] : System (State τ) (Action τ) (Event τ) where
  init := ⟨.zeroed, none, fun _ => none, none⟩
  step := step pci starts context

end

end Aiowdm.Driver.CardThreads
