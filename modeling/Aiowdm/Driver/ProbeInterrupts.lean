import Aiowdm.Driver.ModuleRuns

/-!
# Interrupts while cards are probed

Probes of any number of cards, one kernel call a step, and the interrupt functions
they have registered, one call a step too.  The line of a card may be shared, so its
interrupt function can start at any time from its registration on, whether the card
raised the interrupt or another one did.  A register reads as whatever the card has in
it at that time.
-/

namespace Aiowdm.Driver.ProbeInterrupts

open Aiowdm.Lib Aiowdm.Driver.Bus Aiowdm.Driver.DeviceContext Aiowdm.Driver.InterruptStyles
open Aiowdm.Driver.IrqWait (WaitFlags ioctlAccesioPciIrqWaitCancel ioctlAccesioPciIrqWaitEnter)
open Aiowdm.Driver.Kernel Aiowdm.Driver.Probe
open Aiowdm.Driver.ModuleRuns (Machine)

structure Irqaction where
  irq : Nat
  handler : Style
  devId : Ptr
deriving DecidableEq, Repr

/-- `isrs` is what is left of the run of the interrupt function on each context, and
`locked` tells whether its `irq_lock` is held. -/
structure State where
  world : World
  probes : PciDev → Option (Prog kernel (Ending Int))
  irqactions : List Irqaction
  isrs : Ptr → Option (Prog isr IrqReturn)
  locked : Ptr → Bool

inductive Action where
  | probe (dev : PciDev) (device : Nat)
  | run (dev : PciDev) (o : Outcomes)
  | interrupt (a : Irqaction)
  | isr (context : Ptr) (reading : BitVec 32)
  | wait (context : Ptr)
  | cancel (context : Ptr)

/-- What a step does to the lock and the queue of a context; the last three are of an
interrupt function. -/
inductive Event where
  | quiet
  | spinLockInit (context : Ptr)
  | initWaitqueueHead (context : Ptr)
  | spinLock (context : Ptr)
  | spinUnlock (context : Ptr)
  | wakeUpInterruptible (context : Ptr)
deriving DecidableEq, Repr

def Event.ofCall : KernelCall → Event
  | .store context .irqLock => .spinLockInit context
  | .store context .waitQueue => .initWaitqueueHead context
  | _ => .quiet

def State.setProbe (s : State) (dev : PciDev) (p : Option (Prog kernel (Ending Int))) : State :=
  { s with probes := Function.update s.probes dev p }

def State.setIsr (s : State) (context : Ptr) (p : Option (Prog isr IrqReturn)) : State :=
  { s with isrs := Function.update s.isrs context p }

def State.setLocked (s : State) (context : Ptr) (held : Bool) : State :=
  { s with locked := Function.update s.locked context held }

/-! ## Steps of a probe -/

def registered : (c : KernelCall) → KernelCall.Reply c → List Irqaction
  | .requestIrq irq (some handler) context, status =>
      if (show Int from status) = 0 then [⟨irq, handler, context⟩] else []
  | _, _ => []

/-- `spin_lock_init` leaves a lock free, whoever held it. -/
def unlocks : KernelCall → Ptr → Bool
  | .store context .irqLock, p => context = p
  | _, _ => false

/-- A probe that did what C leaves undefined goes no further. -/
def runProbe (m : Machine) (s : State) (dev : PciDev) (o : Outcomes) : Option (Event × State) :=
  match s.probes dev with
  | none | some (.ret .undefined) => none
  | some (.ret (.returned _)) => some (.quiet, s.setProbe dev none)
  | some (.call c k) =>
      let (reply, world) := handler m.pci o c s.world
      some (.ofCall c, { s.setProbe dev (some (k reply)) with
        world
        irqactions := registered c reply ++ s.irqactions
        locked := fun p => s.locked p && !unlocks c p })

/-! ## Steps of an interrupt function -/

/-- A call on the context, if the lock is free where it takes it. -/
def contextCall (s : State) (context : Ptr) :
    (c : ContextCall) → Option (c.Reply × Event × State)
  | .spinLock =>
      if s.locked context then none
      else some ((), .spinLock context, s.setLocked context true)
  | .spinUnlock => some ((), .spinUnlock context, s.setLocked context false)
  | .loadWaitingForIrq => some ((s.world.load context).flags.waitingForIrq, .quiet, s)
  | .storeWaitingForIrq value =>
      some ((), .quiet, { s with
        world := s.world.store context
          (.flags { (s.world.load context).flags with waitingForIrq := value }) })
  | .wakeUpInterruptible => some ((), .wakeUpInterruptible context, s)

/-- `reading` is what a register reads as. -/
def isrCall (s : State) (context : Ptr) (reading : BitVec 32) :
    (c : isr.Call) → Option (isr.Reply c × Event × State)
  | .inl (.ioread w _) => some (reading.setWidth w.bits, .quiet, s)
  | .inl (.iowrite _ _ _) => some ((), .quiet, s)
  | .inr c => contextCall s context c

def runIsr (s : State) (context : Ptr) (reading : BitVec 32) : Option (Event × State) :=
  match s.isrs context with
  | none => none
  | some (.ret _) => some (.quiet, s.setIsr context none)
  | some (.call c k) =>
      (isrCall s context reading c).map fun (reply, e, s) =>
        (e, s.setIsr context (some (k reply)))

/-! ## The system -/

/-- A section of an ioctl under `irq_lock`, of a program that has the card open. -/
def runSection (s : State) (context : Ptr) (f : WaitFlags → WaitFlags) : Option (Event × State) :=
  if some context ∈ s.world.ledger.held.map Resource.cdevContext ∧ s.locked context = false then
    some (.quiet, { s with
      world := s.world.store context (.flags (f (s.world.load context).flags)) })
  else none

def step (m : Machine) (s : State) : Action → Option (Event × State)
  | .probe dev device =>
      if (s.probes dev).isNone then
        some (.quiet, s.setProbe dev (some (accesioPciDriverProbe m.table dev device)))
      else none
  | .run dev o => runProbe m s dev o
  | .interrupt a =>
      if a ∈ s.irqactions ∧ (s.isrs a.devId).isNone then
        some (.quiet, s.setIsr a.devId (some a.handler.interrupt))
      else none
  | .isr context reading => runIsr s context reading
  | .wait context =>
      runSection s context fun flags => (ioctlAccesioPciIrqWaitEnter flags).toOption.getD flags
  | .cancel context => runSection s context fun flags => (ioctlAccesioPciIrqWaitCancel flags).2

def system (m : Machine) (o : Outcomes) : System State Action Event where
  init :=
    { world := ((accesioPciInit m.table m.ids).exec (handler m.pci o) .fresh).2
      probes := fun _ => none
      irqactions := []
      isrs := fun _ => none
      locked := fun _ => false }
  step := step m

end Aiowdm.Driver.ProbeInterrupts
