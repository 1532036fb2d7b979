import Aiowdm.Driver.IrqWait
import Mathlib.Tactic.Common

/-!
# The wait slot over whole runs

Everything a step can do is said once, by `Step`.  From it come the two facts
that every later argument about waiting rests on, over all runs and with signals
allowed: the flags are determined by the last accept or release, and the log's
account of each thread agrees with where the thread is.
-/

namespace Aiowdm.Proofs.IrqSlot

open Aiowdm.Lib Aiowdm.Driver.IrqWait

variable {τ : Type} [DecidableEq τ]

/-! ## What a step can do -/

inductive Step (s : State τ) : Action τ → Event τ → State τ → Prop
  | refused {t : τ} : s.pc t = .idle → s.flags.waitingForIrq = 1 →
      Step s (.wait t) (.refused t (-EALREADY)) s
  | accepted {t : τ} : s.pc t = .idle → s.flags.waitingForIrq ≠ 1 →
      Step s (.wait t) (.accepted t) { s.setPc t .waitEvent with flags := ⟨1, 0⟩ }
  | awake {t : τ} : s.pc t = .waitEvent → s.flags.waitingForIrq = 0 →
      Step s (.recheck t) (.awake t 0) (s.setPc t (.readCancelled 0))
  | asleep {t : τ} : s.pc t = .waitEvent → s.flags.waitingForIrq ≠ 0 →
      Step s (.recheck t) (.asleep t) s
  | signalled {t : τ} : s.pc t = .waitEvent → s.flags.waitingForIrq ≠ 0 →
      Step s (.signal t) (.awake t (-ERESTARTSYS)) (s.setPc t (.readCancelled (-ERESTARTSYS)))
  | returned {t : τ} {ret : Int} : s.pc t = .readCancelled ret →
      Step s (.finish t) (.returned t (ioctlAccesioPciIrqWaitFinish s.flags)) (s.setPc t .idle)
  | cancelRefused {t : τ} : s.pc t = .idle → s.flags.waitingForIrq = 0 →
      Step s (.cancel t) (.cancel t (-EALREADY) false) s
  | cancelled {t : τ} : s.pc t = .idle → s.flags.waitingForIrq ≠ 0 →
      Step s (.cancel t) (.cancel t 0 true) { s with flags := ⟨0, 1⟩ }
  | notifyIdle : s.flags.waitingForIrq = 0 →
      Step s .notify (.notify false) s
  | notified : s.flags.waitingForIrq ≠ 0 →
      Step s .notify (.notify true) { s with flags := ⟨0, s.flags.irqCancelled⟩ }

theorem step_of_step {s s' : State τ} {a : Action τ} {e : Event τ}
    (h : step s a = some (e, s')) : Step s a e s' := by
  cases a with
  | wait t =>
      simp only [step, ioctlAccesioPciIrqWaitEnter] at h
      by_cases hpc : s.pc t = .idle
      · by_cases hw : s.flags.waitingForIrq = 1
        · simp only [hpc, hw, if_true, Option.some.injEq, Prod.mk.injEq] at h
          obtain ⟨rfl, rfl⟩ := h
          exact .refused hpc hw
        · simp only [hpc, hw, if_true, if_false, Option.some.injEq, Prod.mk.injEq] at h
          obtain ⟨rfl, rfl⟩ := h
          exact .accepted hpc hw
      · simp [hpc] at h
  | recheck t =>
      simp only [step, wakeCondition, decide_eq_true_eq] at h
      by_cases hpc : s.pc t = .waitEvent
      · by_cases hw : s.flags.waitingForIrq = 0
        · simp only [hpc, hw, if_true, Option.some.injEq, Prod.mk.injEq] at h
          obtain ⟨rfl, rfl⟩ := h
          exact .awake hpc hw
        · simp only [hpc, hw, if_true, if_false, Option.some.injEq, Prod.mk.injEq] at h
          obtain ⟨rfl, rfl⟩ := h
          exact .asleep hpc hw
      · simp [hpc] at h
  | signal t =>
      simp only [step, wakeCondition, decide_eq_false_iff_not] at h
      split at h
      · next hc =>
          simp only [Option.some.injEq, Prod.mk.injEq] at h
          obtain ⟨rfl, rfl⟩ := h
          exact .signalled hc.1 hc.2
      · cases h
  | finish t =>
      simp only [step] at h
      split at h
      · next ret hpc =>
          simp only [Option.some.injEq, Prod.mk.injEq] at h
          obtain ⟨rfl, rfl⟩ := h
          exact .returned hpc
      · cases h
  | cancel t =>
      simp only [step, ioctlAccesioPciIrqWaitCancel, released] at h
      by_cases hpc : s.pc t = .idle
      · by_cases hw : s.flags.waitingForIrq = 0
        · simp [hpc, hw] at h
          obtain ⟨rfl, rfl⟩ := h
          exact .cancelRefused hpc hw
        · simp [hpc, hw] at h
          obtain ⟨rfl, rfl⟩ := h
          exact .cancelled hpc hw
      · simp [hpc] at h
  | notify =>
      simp only [step, accesioNotifyUser, released] at h
      by_cases hw : s.flags.waitingForIrq = 0
      · simp [hw] at h
        obtain ⟨rfl, rfl⟩ := h
        exact .notifyIdle hw
      · simp [hw] at h
        obtain ⟨rfl, rfl⟩ := h
        exact .notified hw

theorem step_iff {s s' : State τ} {a : Action τ} {e : Event τ} :
    (system τ).step s a = some (e, s') ↔ Step s a e s' := by
  constructor
  · exact step_of_step
  · intro h
    cases h <;>
      simp_all [system, step, ioctlAccesioPciIrqWaitEnter, ioctlAccesioPciIrqWaitCancel,
        accesioNotifyUser, released, wakeCondition]

theorem Step.inProgress {s s' : State τ} {a : Action τ} {e : Event τ} (h : Step s a e s')
    (he : ∀ t, e ≠ .accepted t) {u : τ} (hu : s'.pc u ≠ .idle) : s.pc u ≠ .idle := by
  cases h with
  | accepted => exact absurd rfl (he _)
  | @awake t hpc hw | @signalled t hpc hw =>
      by_cases hut : u = t
      · simp [hut, hpc]
      · simpa [hut] using hu
  | @returned t ret hpc =>
      by_cases hut : u = t
      · simp [hut] at hu
      · simpa [hut] using hu
  | refused | asleep | cancelRefused | cancelled | notifyIdle | notified => exact hu

/-! ## The flags and the history of the slot -/

/-- The flags that the latest accept or release leaves. -/
def slotFlags : Option SlotEvent → WaitFlags
  | none => ⟨0, 0⟩
  | some .accept => ⟨1, 0⟩
  | some (.release .isr) => ⟨0, 0⟩
  | some (.release (.cancel _)) => ⟨0, 1⟩

theorem slotFlags_waiting_ne_one {latest : Option SlotEvent} :
    (slotFlags latest).waitingForIrq ≠ 1 ↔ latest ≠ some .accept := by
  rcases latest with _ | (_ | (_ | _)) <;> simp [slotFlags]

theorem slotFlags_waiting_ne_zero {latest : Option SlotEvent} :
    (slotFlags latest).waitingForIrq ≠ 0 ↔ latest = some .accept := by
  rcases latest with _ | (_ | (_ | _)) <;> simp [slotFlags]

theorem slotFlags_cancelled {latest : Option SlotEvent} :
    (slotFlags latest).irqCancelled = 1 ↔ ∃ ret, latest = some (.release (.cancel ret)) := by
  rcases latest with _ | (_ | (_ | _)) <;> simp [slotFlags]

def latestSlotEvent (log : List (Event τ)) : Option SlotEvent :=
  (slotEvents log).head?

omit [DecidableEq τ] in
theorem latestSlotEvent_cons (e : Event τ) (log : List (Event τ)) :
    latestSlotEvent (e :: log) = e.slotEvent.or (latestSlotEvent log) := by
  cases he : e.slotEvent <;> simp [latestSlotEvent, slotEvents, he]

theorem flags_and_history {log : List (Event τ)} {s : State τ} (h : Run (system τ) log s) :
    s.flags = slotFlags (latestSlotEvent log) ∧ Alternates (slotEvents log) := by
  induction h with
  | init => exact ⟨rfl, trivial⟩
  | step _ _ hs ih =>
      obtain ⟨hflags, halt⟩ := ih
      cases step_iff.mp hs with
      | accepted hpc hw =>
          rw [hflags, slotFlags_waiting_ne_one] at hw
          exact ⟨rfl, hw, halt⟩
      | cancelled hpc hw =>
          rw [hflags, slotFlags_waiting_ne_zero] at hw
          exact ⟨rfl, hw, halt⟩
      | notified hw =>
          rw [hflags, slotFlags_waiting_ne_zero] at hw
          refine ⟨?_, hw, halt⟩
          rw [hflags, hw]
          rfl
      | refused | awake | asleep | signalled | returned | cancelRefused | notifyIdle =>
          exact ⟨hflags, halt⟩

theorem flags_of_waiting {log : List (Event τ)} {s : State τ} (h : Run (system τ) log s)
    (hw : s.flags.waitingForIrq ≠ 0) : s.flags = ⟨1, 0⟩ := by
  have hflags := (flags_and_history h).1
  rw [hflags, slotFlags_waiting_ne_zero] at hw
  rw [hflags, hw]
  rfl

/-! ## Each thread and its wait -/

@[simp] theorem release_eq_none {w : WaitStatus} {r : Releaser} :
    w.release r = .none ↔ w = .none := by
  cases w <;> simp [WaitStatus.release]

@[simp] theorem release_ne_pending (w : WaitStatus) (r : Releaser) :
    w.release r ≠ .pending := by
  cases w <;> simp [WaitStatus.release]

theorem idle_iff {log : List (Event τ)} {s : State τ} (h : Run (system τ) log s) (t : τ) :
    s.pc t = .idle ↔ waitStatus t log = .none := by
  induction h with
  | init => exact ⟨fun _ => rfl, fun _ => rfl⟩
  | step _ _ hs ih =>
      cases step_iff.mp hs with
      | @accepted u hpc hw | @returned u ret hpc =>
          by_cases hut : u = t
          · subst u
            simp [waitStatus]
          · simpa [waitStatus, hut, Ne.symm hut] using ih
      | @awake u hpc hw | @signalled u hpc hw =>
          by_cases hut : u = t
          · subst u
            simpa [waitStatus, hpc] using ih
          · simpa [waitStatus, Ne.symm hut] using ih
      | cancelled hpc hw | notified hw => simpa [waitStatus] using ih
      | refused | asleep | cancelRefused | notifyIdle => simpa [waitStatus] using ih

theorem waiting_of_pending {log : List (Event τ)} {s : State τ} (h : Run (system τ) log s)
    {t : τ} (ht : waitStatus t log = .pending) : s.flags.waitingForIrq = 1 := by
  induction h with
  | init => simp [waitStatus] at ht
  | step _ _ hs ih =>
      cases step_iff.mp hs with
      | accepted hpc hw => rfl
      | @returned u ret hpc =>
          by_cases hut : u = t
          · simp [waitStatus, hut] at ht
          · exact ih (by simpa [waitStatus, hut] using ht)
      | cancelled hpc hw | notified hw => simp [waitStatus] at ht
      | awake | signalled => exact ih (by simpa [waitStatus] using ht)
      | refused | asleep | cancelRefused | notifyIdle =>
          exact ih (by simpa [waitStatus] using ht)

/-! ## Accepts and releases alternate -/

/-- CANCEL returns 0 exactly when it empties the slot, and otherwise refuses and
leaves both flags alone. -/
def CancelAnswers (s : State τ) : Prop :=
  ∀ t e s', (system τ).step s (.cancel t) = some (e, s') →
    ∃ ret rel, e = .cancel t ret rel ∧ (ret = 0 ↔ rel = true) ∧
      (rel = false → ret = -EALREADY ∧ s'.flags = s.flags)

/-- WAIT refuses exactly while the latest accept has not been released, and then
leaves both flags alone. -/
def WaitAnswers (log : List (Event τ)) (s : State τ) : Prop :=
  ∀ t e s', (system τ).step s (.wait t) = some (e, s') →
    (e = .accepted t ∨ e = .refused t (-EALREADY)) ∧
      (e = .refused t (-EALREADY) ↔ latestSlotEvent log = some .accept) ∧
      (e = .refused t (-EALREADY) → s'.flags = s.flags)

/-- A WAIT that was accepted never returns the refusal, and leaves both flags alone. -/
def ReturnAnswers (s : State τ) : Prop :=
  ∀ t e s', (system τ).step s (.finish t) = some (e, s') →
    (e = .returned t 0 ∨ e = .returned t (-ECANCELED)) ∧ s'.flags = s.flags

private theorem finish_eq (flags : WaitFlags) :
    ioctlAccesioPciIrqWaitFinish flags = 0 ∨ ioctlAccesioPciIrqWaitFinish flags = -ECANCELED := by
  unfold ioctlAccesioPciIrqWaitFinish
  split
  · exact .inr rfl
  · exact .inl rfl

private theorem returnAnswers (s : State τ) : ReturnAnswers s := by
  intro t e s' hs
  cases step_iff.mp hs with
  | returned =>
      have hret := finish_eq s.flags
      exact ⟨hret.imp (congrArg (Event.returned t)) (congrArg (Event.returned t)), rfl⟩

private theorem cancelAnswers (s : State τ) : CancelAnswers s := by
  intro t e s' hs
  cases step_iff.mp hs with
  | cancelRefused => exact ⟨_, _, rfl, by decide, fun _ => ⟨rfl, rfl⟩⟩
  | cancelled => exact ⟨_, _, rfl, by decide, fun h => by cases h⟩

private theorem waitAnswers {log : List (Event τ)} {s : State τ} (h : Run (system τ) log s) :
    WaitAnswers log s := by
  intro t e s' hs
  have hflags := (flags_and_history h).1
  cases step_iff.mp hs with
  | refused hpc hw =>
      have hlatest : latestSlotEvent log = some .accept := by
        by_contra hne
        exact slotFlags_waiting_ne_one.mpr hne (hflags ▸ hw)
      exact ⟨.inr rfl, by simp [hlatest], fun _ => rfl⟩
  | accepted hpc hw =>
      rw [hflags, slotFlags_waiting_ne_one] at hw
      exact ⟨.inl rfl, by simp [hw], fun he => by cases he⟩

private theorem accept_mem_of_release {events : List SlotEvent} {r : Releaser}
    (halt : Alternates events) (h : events.head? = some (.release r)) :
    SlotEvent.accept ∈ events := by
  obtain ⟨older, rfl⟩ := List.head?_eq_some_iff.mp h
  exact List.mem_cons_of_mem _ (List.mem_of_head? halt.1)

/-- Over every run, signals included, accepts and releases of the slot
alternate, and the flags are what the latest of them left. -/
theorem accepts_and_releases_alternate {log : List (Event τ)} {s : State τ}
    (h : Run (system τ) log s) :
    Alternates (slotEvents log) ∧ CancelAnswers s ∧ WaitAnswers log s ∧ ReturnAnswers s ∧
      (s.flags.irqCancelled = 1 ↔ SlotEvent.accept ∈ slotEvents log ∧
        ∃ ret, latestSlotEvent log = some (.release (.cancel ret))) ∧
      ¬(s.flags.waitingForIrq = 1 ∧ s.flags.irqCancelled = 1) := by
  obtain ⟨hflags, halt⟩ := flags_and_history h
  refine ⟨halt, cancelAnswers s, waitAnswers h, returnAnswers s, ?_, ?_⟩
  · rw [hflags, slotFlags_cancelled]
    constructor
    · rintro ⟨ret, hret⟩
      exact ⟨accept_mem_of_release halt hret, ret, hret⟩
    · rintro ⟨-, hret⟩
      exact hret
  · rintro ⟨hw, hc⟩
    rw [hflags] at hw hc
    obtain ⟨ret, hret⟩ := slotFlags_cancelled.mp hc
    simp [slotFlags, hret] at hw

/-- Thread 3 is refused, and thread 0 is on its way out. -/
theorem accepts_and_releases_alternate_refusal :
    let log : List (Event Nat) :=
      [.refused 3 (-EALREADY), .accepted 2, .awake 0 0, .cancel 1 0 true, .accepted 0]
    ∃ s, Run (system Nat) log s ∧ Alternates (slotEvents log) ∧ WaitAnswers log s ∧
      ReturnAnswers s ∧ s.pc 0 = .readCancelled 0 ∧
      ¬(s.flags.waitingForIrq = 1 ∧ s.flags.irqCancelled = 1) := by
  intro log
  obtain ⟨log', s, hrun, heq⟩ := (system Nat).exists_runWhere_map_of_exec
    (G := fun _ _ _ => True) (fun c => (c.1, c.2.pc 0))
    [.wait 0, .cancel 1, .recheck 0, .wait 2, .wait 3] (fun _ _ _ _ => trivial)
    (show _ = some (log, .readCancelled 0) by decide)
  obtain ⟨rfl, hpc⟩ := Prod.mk.inj heq
  obtain ⟨halt, -, hwait, hreturn, -, hflags⟩ := accepts_and_releases_alternate hrun
  exact ⟨s, hrun, halt, hwait, hreturn, hpc, hflags⟩

end Aiowdm.Proofs.IrqSlot
