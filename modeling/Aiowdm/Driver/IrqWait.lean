import Aiowdm.Lib.System
import Mathlib.Logic.Function.Basic

/-!
# Waiting for an interrupt

`ioctl_ACCESIO_PCI_IRQ_WAIT`, `ioctl_ACCESIO_PCI_IRQ_WAIT_CANCEL` and the
`accesio_notify_user` section of an isr share two flags of a card's context.
Each section under `irq_lock` is one step; so are each evaluation of the wake
condition and the last read of `irq_cancelled`, which WAIT makes without it.
`wake_up_interruptible` is no step, and a sleeper may evaluate its condition at
any time; the module `WaitQueue` adds who is woken when, and `WakeUps` shows that
the runs of the flags are the same.  `spin_lock_irqsave` is `spin_lock`: that it
keeps interrupts from one processor only takes away orders of the steps.
-/

namespace Aiowdm.Driver.IrqWait

open Aiowdm.Lib

def EALREADY : Int := 114
def ECANCELED : Int := 125
def ERESTARTSYS : Int := 512

/-- The fields of `accesio_pci_device_context` that `irq_lock` guards. -/
structure WaitFlags where
  waitingForIrq : Int
  irqCancelled : Int
deriving DecidableEq, Repr

def WaitFlags.zeroed : WaitFlags := ⟨0, 0⟩

/-! ## The sections of the three functions -/

/-- WAIT under the lock: a refusal, or the flags it goes to sleep with. -/
def ioctlAccesioPciIrqWaitEnter (context : WaitFlags) : Except Int WaitFlags :=
  if context.waitingForIrq = 1 then .error (-EALREADY)
  else .ok { context with waitingForIrq := 1, irqCancelled := 0 }

/-- The condition WAIT hands to `wait_event_interruptible`. -/
def wakeCondition (context : WaitFlags) : Bool := context.waitingForIrq = 0

/-- WAIT after `wait_event_interruptible`, whose value it does not look at. -/
def ioctlAccesioPciIrqWaitFinish (context : WaitFlags) : Int :=
  if context.irqCancelled = 1 then -ECANCELED else 0

def ioctlAccesioPciIrqWaitCancel (context : WaitFlags) : Int × WaitFlags :=
  if context.waitingForIrq = 0 then (-EALREADY, context)
  else (0, { context with irqCancelled := 1, waitingForIrq := 0 })

def accesioNotifyUser (context : WaitFlags) : WaitFlags :=
  if context.waitingForIrq ≠ 0 then { context with waitingForIrq := 0 } else context

/-- The step from `before` to `after` emptied the wait slot. -/
def released (before after : WaitFlags) : Bool :=
  before.waitingForIrq ≠ 0 ∧ after.waitingForIrq = 0

/-! ## Threads -/

/-- Where a thread is in WAIT; `readCancelled r` once `wait_event_interruptible`
has returned `r`. -/
inductive Pc where
  | idle
  | waitEvent
  | readCancelled (ret : Int)
deriving DecidableEq, Repr

inductive Action (τ : Type) where
  | wait (t : τ)
  | recheck (t : τ)
  | signal (t : τ)
  | finish (t : τ)
  | cancel (t : τ)
  | notify
deriving DecidableEq, Repr

/-- What a step is seen to do; `released` tells whether it emptied the slot. -/
inductive Event (τ : Type) where
  | refused (t : τ) (ret : Int)
  | accepted (t : τ)
  | asleep (t : τ)
  | awake (t : τ) (ret : Int)
  | returned (t : τ) (ret : Int)
  | cancel (t : τ) (ret : Int) (released : Bool)
  | notify (released : Bool)
deriving DecidableEq, Repr

structure State (τ : Type) where
  flags : WaitFlags
  pc : τ → Pc

variable {τ : Type} [DecidableEq τ]

def State.setPc (s : State τ) (t : τ) (p : Pc) : State τ :=
  { s with pc := Function.update s.pc t p }

@[simp] theorem setPc_flags (s : State τ) (t : τ) (p : Pc) : (s.setPc t p).flags = s.flags := rfl

@[simp] theorem setPc_pc (s : State τ) (t u : τ) (p : Pc) :
    (s.setPc t p).pc u = if u = t then p else s.pc u :=
  Function.update_apply s.pc t p u

/-- A signal ends the sleep only where the condition was read false first, as
`wait_event_interruptible` evaluates it before it looks for signals. -/
def step (s : State τ) : Action τ → Option (Event τ × State τ)
  | .wait t =>
      if s.pc t = .idle then
        match ioctlAccesioPciIrqWaitEnter s.flags with
        | .error ret => some (.refused t ret, s)
        | .ok flags => some (.accepted t, { s.setPc t .waitEvent with flags })
      else none
  | .recheck t =>
      if s.pc t = .waitEvent then
        if wakeCondition s.flags then some (.awake t 0, s.setPc t (.readCancelled 0))
        else some (.asleep t, s)
      else none
  | .signal t =>
      if s.pc t = .waitEvent ∧ wakeCondition s.flags = false then
        some (.awake t (-ERESTARTSYS), s.setPc t (.readCancelled (-ERESTARTSYS)))
      else none
  | .finish t =>
      match s.pc t with
      | .readCancelled _ =>
          some (.returned t (ioctlAccesioPciIrqWaitFinish s.flags), s.setPc t .idle)
      | _ => none
  | .cancel t =>
      if s.pc t = .idle then
        let (ret, flags) := ioctlAccesioPciIrqWaitCancel s.flags
        some (.cancel t ret (released s.flags flags), { s with flags })
      else none
  | .notify =>
      let flags := accesioNotifyUser s.flags
      some (.notify (released s.flags flags), { s with flags })

def system (τ : Type) [DecidableEq τ] : System (State τ) (Action τ) (Event τ) where
  init := ⟨.zeroed, fun _ => .idle⟩
  step := step

/-! ## What a log says about each wait -/

inductive Releaser where
  | isr
  | cancel (ret : Int)
deriving DecidableEq, Repr

inductive WaitStatus where
  | none
  | pending
  | releasedBy (r : Releaser)
deriving DecidableEq, Repr

def WaitStatus.release (r : Releaser) : WaitStatus → WaitStatus
  | .pending => .releasedBy r
  | w => w

/-- The wait of `t` that is in progress after the log, newest event first: it
starts at its acceptance, is released by the first release after that, and ends
with its return. -/
def waitStatus (t : τ) : List (Event τ) → WaitStatus
  | [] => .none
  | .accepted u :: log => if u = t then .pending else waitStatus t log
  | .returned u _ :: log => if u = t then .none else waitStatus t log
  | .cancel _ ret true :: log => (waitStatus t log).release (.cancel ret)
  | .notify true :: log => (waitStatus t log).release .isr
  | _ :: log => waitStatus t log

def wakeValue (t : τ) : List (Event τ) → Option Int
  | [] => none
  | .awake u ret :: log => if u = t then some ret else wakeValue t log
  | _ :: log => wakeValue t log

/-! ## The slot's own history -/

inductive SlotEvent where
  | accept
  | release (r : Releaser)
deriving DecidableEq, Repr

def Event.slotEvent : Event τ → Option SlotEvent
  | .accepted _ => some .accept
  | .cancel _ ret true => some (.release (.cancel ret))
  | .notify true => some (.release .isr)
  | _ => none

def slotEvents (log : List (Event τ)) : List SlotEvent :=
  log.filterMap Event.slotEvent

/-- Newest first: each release answers an accept, and an accept comes first or
answers a release. -/
def Alternates : List SlotEvent → Prop
  | [] => True
  | .accept :: older => older.head? ≠ some .accept ∧ Alternates older
  | .release _ :: older => older.head? = some .accept ∧ Alternates older

end Aiowdm.Driver.IrqWait
