import Aiowdm.Driver.WaitQueue
import Aiowdm.Lib.Simulation
import Aiowdm.Proofs.IrqSlot

/-!
# No wake-up is lost

What is proved of the wait slot alone leaves out who is woken when.  With the wait queue
the slot has the same runs, and whoever sleeps while the slot is empty is about to be
woken.
-/

namespace Aiowdm.Proofs.WakeUps

open Aiowdm.Lib Aiowdm.Driver Aiowdm.Driver.WaitQueue
open Aiowdm.Driver.IrqWait (Pc wakeCondition)

variable {τ : Type} [DecidableEq τ]

/-! ## What a step can do -/

inductive Step (s : State τ) : Action τ → Event τ → State τ → Prop
  | slot {a : IrqWait.Action τ} {e : IrqWait.Event τ} {slot : IrqWait.State τ} :
      mayStep s a = true → IrqSlot.Step s.slot a e slot →
      Step s (.slot a) (.slot e) (s.after slot e)
  | woke {t : τ} : s.waking t = true →
      Step s (.wake t) (.woke t)
        { s.wakeUpInterruptible with waking := Function.update s.waking t false }
  | isrWoke : 0 < s.isrs →
      Step s .isrWake .isrWoke { s.wakeUpInterruptible with isrs := s.isrs - 1 }
  | roused {t : τ} : s.asleep t = true →
      Step s (.rouse t) (.roused t) { s with asleep := Function.update s.asleep t false }

theorem step_iff {s s' : State τ} {a : Action τ} {e : Event τ} :
    (system τ).step s a = some (e, s') ↔ Step s a e s' := by
  constructor
  · intro h
    cases a with
    | slot a =>
        obtain ⟨hmay, h⟩ := Option.ite_none_right_eq_some.mp h
        obtain ⟨⟨e, slot⟩, hslot, h⟩ := Option.map_eq_some_iff.mp h
        cases h
        exact .slot hmay (IrqSlot.step_of_step hslot)
    | wake t =>
        obtain ⟨hwaking, h⟩ := Option.ite_none_right_eq_some.mp h
        cases h
        exact .woke hwaking
    | isrWake =>
        obtain ⟨hisrs, h⟩ := Option.ite_none_right_eq_some.mp h
        cases h
        exact .isrWoke hisrs
    | rouse t =>
        obtain ⟨hasleep, h⟩ := Option.ite_none_right_eq_some.mp h
        cases h
        exact .roused hasleep
  · intro h
    cases h with
    | slot hmay hslot =>
        have hslot : IrqWait.step s.slot _ = some _ := IrqSlot.step_iff.mpr hslot
        simp [system, step, hmay, hslot]
    | woke hwaking => simp [system, step, hwaking]
    | isrWoke hisrs => simp [system, step, hisrs]
    | roused hasleep => simp [system, step, hasleep]

theorem step_of_step {s s' : State τ} {a : Action τ} {e : Event τ}
    (h : step s a = some (e, s')) : Step s a e s' :=
  step_iff.mp h

/-! ## The slot has the same runs -/

theorem run_slot {log : List (Event τ)} {s : State τ} (h : Run (system τ) log s) :
    Run (IrqWait.system τ) (slotLog log) s.slot := by
  induction h with
  | init => exact .init
  | step _ _ hs ih =>
      cases step_iff.mp hs with
      | slot _ hslot =>
          rw [slot_after]
          exact ih.step (IrqSlot.step_iff.mpr hslot)
      | woke | isrWoke | roused => exact ih

/-- Where a step on the slot is not allowed yet, a wake-up comes first. -/
theorem steps_of_slot {s : State τ} {a : IrqWait.Action τ} {e : IrqWait.Event τ}
    {slot : IrqWait.State τ} (h : IrqSlot.Step s.slot a e slot) :
    ∃ new s', Steps (system τ) s new s' ∧ slotLog new = [e] ∧ s'.slot = slot := by
  cases hmay : mayStep s a with
  | true =>
      exact ⟨_, _, .single (step_iff.mpr (.slot hmay h)), rfl, slot_after ..⟩
  | false =>
      cases a with
      | wait t | cancel t =>
          have hwaking : s.waking t = true := by simpa [mayStep] using hmay
          have hwoke := step_iff.mpr (Step.woke hwaking)
          refine ⟨_, _, .two hwoke (step_iff.mpr (.slot ?_ h)), rfl, slot_after ..⟩
          simp [mayStep]
      | recheck t =>
          have hasleep : s.asleep t = true := by simpa [mayStep] using hmay
          have hroused := step_iff.mpr (Step.roused hasleep)
          refine ⟨_, _, .two hroused (step_iff.mpr (.slot ?_ h)), rfl, slot_after ..⟩
          simp [mayStep]
      | signal t | finish t | notify => cases hmay

theorem simulation (τ : Type) [DecidableEq τ] :
    Simulation (IrqWait.system τ) (fun _ _ _ => True) (system τ) some Event.slot?
      fun slot s => s.slot = slot where
  init := rfl
  step _ _ hslot _ hs := by
    subst hslot
    obtain ⟨new, s', hsteps, hnew, hslot'⟩ := steps_of_slot (IrqSlot.step_iff.mp hs)
    exact ⟨new, s', hsteps, hnew, hslot'⟩

private theorem run_slot_iff {log : List (IrqWait.Event τ)} {slot : IrqWait.State τ} :
    Run (IrqWait.system τ) log slot ↔
      ∃ log' s, Run (system τ) log' s ∧ slotLog log' = log ∧ s.slot = slot := by
  constructor
  · intro h
    obtain ⟨log', s, hrun, hlog, hslot⟩ := (simulation τ).run h
    exact ⟨log', s, hrun, hlog.trans List.filterMap_some, hslot⟩
  · rintro ⟨log', s, hrun, rfl, rfl⟩
    exact run_slot hrun

/-! ## Who sleeps -/

/-- Whoever sleeps is in `wait_event_interruptible`, and is to be woken where the slot is
empty. -/
def NoneForgotten (s : State τ) : Prop :=
  ∀ t, s.asleep t = true →
    s.slot.pc t = .waitEvent ∧ (wakeCondition s.slot.flags = true → s.Waking)

theorem NoneForgotten.slot {s : State τ} {a : IrqWait.Action τ} {e : IrqWait.Event τ}
    {slot : IrqWait.State τ} (hinv : NoneForgotten s) (h : IrqSlot.Step s.slot a e slot) :
    NoneForgotten (s.after slot e) := by
  intro u hu
  cases h with
  | refused | cancelRefused | notifyIdle => exact hinv u hu
  | @accepted t hpc =>
      refine ⟨?_, fun hwake => by simp [State.after, wakeCondition] at hwake⟩
      by_cases hut : u = t
      · simp [State.after, hut]
      · simpa [State.after, hut] using (hinv u hu).1
  | @asleep t hpc hwaiting =>
      refine ⟨?_, fun hwake => absurd (of_decide_eq_true hwake) hwaiting⟩
      by_cases hut : u = t
      · simpa [State.after, hut] using hpc
      · exact (hinv u (by simpa [State.after, hut] using hu)).1
  | @awake t | @signalled t =>
      by_cases hut : u = t
      · simp [State.after, hut] at hu
      · obtain ⟨hpc, hwake⟩ := hinv u (by simpa [State.after, hut] using hu)
        exact ⟨by simpa [State.after, hut] using hpc, hwake⟩
  | @returned t ret hpc =>
      obtain ⟨hpcu, hwake⟩ := hinv u hu
      have hut : u ≠ t := by
        rintro rfl
        cases hpc.symm.trans hpcu
      exact ⟨by simpa [State.after, hut] using hpcu, hwake⟩
  | @cancelled t =>
      exact ⟨(hinv u hu).1, fun _ => .inl ⟨t, by simp [State.after]⟩⟩
  | notified =>
      exact ⟨(hinv u hu).1, fun _ => .inr (Nat.succ_pos _)⟩

theorem NoneForgotten.step {s s' : State τ} {a : Action τ} {e : Event τ}
    (hinv : NoneForgotten s) (h : Step s a e s') : NoneForgotten s' := by
  cases h with
  | slot _ hslot => exact hinv.slot hslot
  | woke | isrWoke => exact fun u hu => nomatch hu
  | @roused t =>
      intro u hu
      by_cases hut : u = t
      · simp [hut] at hu
      · exact hinv u (by simpa [hut] using hu)

theorem noneForgotten_of_run {log : List (Event τ)} {s : State τ} (h : Run (system τ) log s) :
    NoneForgotten s := by
  induction h with
  | init => exact fun u hu => nomatch hu
  | step _ _ hs ih => exact ih.step (step_iff.mp hs)

/-! ## Who is released returns -/

def Event.isWakeUp : Event τ → Bool
  | .woke _ | .isrWoke => true
  | .slot _ | .roused _ => false

/-- A wake-up at most, and then `t` looks at its condition and ends its WAIT. -/
def Returns (s : State τ) (t : τ) : Prop :=
  ∃ wakeUps ret s', wakeUps.length ≤ 1 ∧ wakeUps.all Event.isWakeUp ∧
    Steps (system τ) s ([.slot (.returned t ret), .slot (.awake t 0)] ++ wakeUps) s' ∧
      s'.slot.pc t = .idle

theorem State.Waking.steps {s : State τ} (h : s.Waking) :
    ∃ e s', Event.isWakeUp e = true ∧ Steps (system τ) s [e] s' ∧ s'.slot = s.slot ∧
      ∀ t, s'.asleep t = false := by
  rcases h with ⟨t, hwaking⟩ | hisrs
  · exact ⟨_, _, rfl, .single (step_iff.mpr (.woke hwaking)), rfl, fun _ => rfl⟩
  · exact ⟨_, _, rfl, .single (step_iff.mpr (.isrWoke hisrs)), rfl, fun _ => rfl⟩

theorem steps_of_awake {s : State τ} {t : τ} (hasleep : s.asleep t = false)
    (hpc : s.slot.pc t = .waitEvent) (hwake : wakeCondition s.slot.flags = true) :
    ∃ ret s', Steps (system τ) s [.slot (.returned t ret), .slot (.awake t 0)] s' ∧
      s'.slot.pc t = .idle := by
  have hzero : s.slot.flags.waitingForIrq = 0 := by simpa [wakeCondition] using hwake
  have hmay : mayStep s (.recheck t) = true := by simp [mayStep, hasleep]
  have hrecheck := step_iff.mpr (Step.slot hmay (.awake hpc hzero))
  have hret : (s.after (s.slot.setPc t (.readCancelled 0)) (.awake t 0)).slot.pc t =
      .readCancelled 0 := by simp
  have hfinish := step_iff.mpr (Step.slot rfl (IrqSlot.Step.returned hret))
  exact ⟨_, _, .two hrecheck hfinish, by simp⟩

theorem returns_of_noneForgotten {s : State τ} (hinv : NoneForgotten s) {t : τ}
    (hpc : s.slot.pc t = .waitEvent) (hwake : wakeCondition s.slot.flags = true) :
    Returns s t := by
  cases hasleep : s.asleep t with
  | false =>
      obtain ⟨ret, s', hsteps, hidle⟩ := steps_of_awake hasleep hpc hwake
      exact ⟨[], ret, s', Nat.zero_le 1, rfl, hsteps, hidle⟩
  | true =>
      obtain ⟨e, s₁, he, hwoke, hslot, hnone⟩ := State.Waking.steps ((hinv t hasleep).2 hwake)
      rw [← hslot] at hpc hwake
      obtain ⟨ret, s', hsteps, hidle⟩ := steps_of_awake (hnone t) hpc hwake
      exact ⟨[e], ret, s', le_rfl, by simp [he], hwoke.trans hsteps, hidle⟩

/-- The slot has the runs that it has without the queue; whoever sleeps while the slot is
empty is about to be woken; and a waiter whose slot is empty is at most one wake-up and
two steps of its own from the end of WAIT. -/
theorem no_wake_up_lost (τ : Type) [DecidableEq τ] :
    (∀ (log : List (IrqWait.Event τ)) (slot : IrqWait.State τ),
      Run (IrqWait.system τ) log slot ↔
        ∃ log' s, Run (system τ) log' s ∧ slotLog log' = log ∧ s.slot = slot) ∧
    ∀ (log : List (Event τ)) (s : State τ), Run (system τ) log s →
      NoneForgotten s ∧
      ∀ t, s.slot.pc t = .waitEvent → wakeCondition s.slot.flags = true → Returns s t := by
  refine ⟨fun log slot => run_slot_iff, fun log s hrun => ?_⟩
  have hinv := noneForgotten_of_run hrun
  exact ⟨hinv, fun t hpc hwake => returns_of_noneForgotten hinv hpc hwake⟩

/-- An isr empties the slot of a sleeper and has not woken it yet. -/
theorem no_wake_up_lost_asleep :
    ∃ (log : List (Event Bool)) (s : State Bool), Run (system Bool) log s ∧
      slotLog log = [.notify true, .asleep true, .accepted true] ∧
      s.asleep true = true ∧ s.Waking ∧ Returns s true := by
  have hexec : ((system Bool).exec [.slot (.wait true), .slot (.recheck true), .slot .notify]
      ([], (system Bool).init)).map (fun c => (slotLog c.1, c.2.asleep true,
        decide (c.2.slot.pc true = .waitEvent), wakeCondition c.2.slot.flags)) =
      some ([.notify true, .asleep true, .accepted true], true, true, true) := by decide
  obtain ⟨log, s, hrun, heq⟩ :=
    (system Bool).exists_runWhere_map_of_exec _ _ (fun _ _ _ _ => trivial) hexec
  simp only [Prod.mk.injEq, decide_eq_true_eq] at heq
  obtain ⟨hlog, hasleep, hpc, hwake⟩ := heq
  obtain ⟨hinv, hreturn⟩ := (no_wake_up_lost Bool).2 log s hrun
  exact ⟨log, s, hrun, hlog, hasleep, (hinv true hasleep).2 hwake, hreturn true hpc hwake⟩

end Aiowdm.Proofs.WakeUps
