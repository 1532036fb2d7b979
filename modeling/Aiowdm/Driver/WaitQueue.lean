import Aiowdm.Driver.IrqWait

/-!
# The wait queue of a card

A thread that finds the condition of `wait_event_interruptible` false sleeps until it is
woken, and only then looks at it again.  CANCEL and the section of an isr call
`wake_up_interruptible` after they have emptied the slot and given the lock up, so
anything may come in between.
-/

namespace Aiowdm.Driver.WaitQueue

open Aiowdm.Lib

/-- `waking` are the threads in CANCEL that have emptied the slot and are still to wake
the queue, `isrs` is the number of such isrs. -/
structure State (τ : Type) where
  slot : IrqWait.State τ
  asleep : τ → Bool
  waking : τ → Bool
  isrs : Nat

/-- A step on the slot; `wake_up_interruptible` of a thread or of an isr; and a sleeper
that looks at its condition once more for any other reason. -/
inductive Action (τ : Type) where
  | slot (a : IrqWait.Action τ)
  | wake (t : τ)
  | isrWake
  | rouse (t : τ)
deriving DecidableEq, Repr

inductive Event (τ : Type) where
  | slot (e : IrqWait.Event τ)
  | woke (t : τ)
  | isrWoke
  | roused (t : τ)
deriving DecidableEq, Repr

variable {τ : Type} [DecidableEq τ]

/-- A sleeper does not look at its condition, and a thread in CANCEL starts no ioctl. -/
def mayStep (s : State τ) : IrqWait.Action τ → Bool
  | .wait t | .cancel t => !s.waking t
  | .recheck t => !s.asleep t
  | .signal _ | .finish _ | .notify => true

def State.after (s : State τ) (slot : IrqWait.State τ) : IrqWait.Event τ → State τ
  | .asleep t => { s with slot, asleep := Function.update s.asleep t true }
  | .awake t _ => { s with slot, asleep := Function.update s.asleep t false }
  | .cancel t _ true => { s with slot, waking := Function.update s.waking t true }
  | .notify true => { s with slot, isrs := s.isrs + 1 }
  | _ => { s with slot }

@[simp] theorem slot_after (s : State τ) (slot : IrqWait.State τ) (e : IrqWait.Event τ) :
    (s.after slot e).slot = slot := by
  unfold State.after
  split <;> rfl

/-- No waiter of a card is exclusive, so all of them are woken. -/
def State.wakeUpInterruptible (s : State τ) : State τ := { s with asleep := fun _ => false }

def step (s : State τ) : Action τ → Option (Event τ × State τ)
  | .slot a =>
      if mayStep s a then
        (IrqWait.step s.slot a).map fun (e, slot) => (.slot e, s.after slot e)
      else none
  | .wake t =>
      if s.waking t then
        some (.woke t,
          { s.wakeUpInterruptible with waking := Function.update s.waking t false })
      else none
  | .isrWake =>
      if 0 < s.isrs then
        some (.isrWoke, { s.wakeUpInterruptible with isrs := s.isrs - 1 })
      else none
  | .rouse t =>
      if s.asleep t then some (.roused t, { s with asleep := Function.update s.asleep t false })
      else none

def State.calm (slot : IrqWait.State τ) : State τ := ⟨slot, fun _ => false, fun _ => false, 0⟩

def system (τ : Type) [DecidableEq τ] : System (State τ) (Action τ) (Event τ) where
  init := .calm (IrqWait.system τ).init
  step := step

/-- Somebody has emptied the slot and is still to wake the queue. -/
def State.Waking (s : State τ) : Prop := (∃ t, s.waking t = true) ∨ 0 < s.isrs

def Event.slot? : Event τ → Option (IrqWait.Event τ)
  | .slot e => some e
  | .woke _ | .isrWoke | .roused _ => none

def slotLog (log : List (Event τ)) : List (IrqWait.Event τ) := log.filterMap Event.slot?

end Aiowdm.Driver.WaitQueue
