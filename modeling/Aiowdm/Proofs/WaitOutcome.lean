import Aiowdm.Proofs.IrqSlot

/-!
# What a WAIT reports, and whether it wakes

WAIT gives the slot up when it is released, not when it returns, so the next
WAIT can be accepted while the released one is still on its way out.  Each of
the three properties below holds of the runs that avoid one kind of step, and
that step is shown to be what breaks it.
-/

namespace Aiowdm.Proofs.WaitOutcome

open Aiowdm.Lib Aiowdm.Driver.IrqWait Aiowdm.Proofs.IrqSlot

variable {τ : Type} [DecidableEq τ]

def NoSignal : Action τ → Prop
  | .signal _ => False
  | _ => True

/-! ## Runs without signals -/

/-- Without signals a thread leaves its sleep only after its wait was released. -/
theorem releasedBy_of_readCancelled {log : List (Event τ)} {s : State τ}
    (h : RunWhere (system τ) (fun _ _ a => NoSignal a) log s) {t : τ} {r : Int}
    (ht : s.pc t = .readCancelled r) : ∃ by', waitStatus t log = .releasedBy by' := by
  induction h with
  | init => cases ht
  | step hr hg hs ih =>
      cases step_iff.mp hs with
      | @accepted u hpc hw =>
          by_cases htu : t = u
          · simp [htu] at ht
          · have hut : ¬u = t := Ne.symm htu
            simp only [setPc_pc, htu, if_false] at ht
            simpa [waitStatus, hut] using ih ht
      | @returned u ret hpc =>
          by_cases htu : t = u
          · simp [htu] at ht
          · have hut : ¬u = t := Ne.symm htu
            simp only [setPc_pc, htu, if_false] at ht
            simpa [waitStatus, hut] using ih ht
      | @awake u hpc hw =>
          by_cases htu : t = u
          · subst u
            simp only [waitStatus]
            cases hst : waitStatus t _ with
            | none => simp [(idle_iff hr.run t).mpr hst] at hpc
            | pending => simp [waiting_of_pending hr.run hst] at hw
            | releasedBy by' => exact ⟨by', rfl⟩
          · simp only [setPc_pc, htu, if_false] at ht
            simpa [waitStatus] using ih ht
      | signalled => exact hg.elim
      | cancelled | notified =>
          obtain ⟨by', hby⟩ := ih ht
          simp [waitStatus, hby, WaitStatus.release]
      | refused | asleep | cancelRefused | notifyIdle => simpa [waitStatus] using ih ht

theorem exists_pending {log : List (Event τ)} {s : State τ}
    (h : RunWhere (system τ) (fun _ _ a => NoSignal a) log s)
    (hw : s.flags.waitingForIrq ≠ 0) : ∃ t, waitStatus t log = .pending := by
  induction h with
  | init => exact absurd rfl hw
  | step hr hg hs ih =>
      cases step_iff.mp hs with
      | @accepted t hpc hfree => exact ⟨t, by simp [waitStatus]⟩
      | @returned u ret hpc =>
          obtain ⟨t, ht⟩ := ih hw
          obtain ⟨r, hr'⟩ := releasedBy_of_readCancelled hr hpc
          have hut : ¬u = t := by
            rintro rfl
            simp [hr'] at ht
          exact ⟨t, by simpa [waitStatus, hut] using ht⟩
      | signalled => exact hg.elim
      | cancelled | notified => exact absurd rfl hw
      | awake | refused | asleep | cancelRefused | notifyIdle =>
          simpa [waitStatus] using ih hw

def LetsReturn (G : List (Event τ) → State τ → Action τ → Prop) : Prop :=
  ∀ log s t, G log s (.recheck t) ∧ G log s (.finish t)

private theorem exists_return {G : List (Event τ) → State τ → Action τ → Prop} (hG : LetsReturn G)
    {log : List (Event τ)} {s : State τ} (h : RunWhere (system τ) G log s)
    (hw : s.flags.waitingForIrq = 0) {u : τ} {r : Releaser}
    (hu : waitStatus u log = .releasedBy r) :
    ∃ older s', log <:+ older ∧ waitStatus u older = .releasedBy r ∧
      RunWhere (system τ) G
        (.returned u (ioctlAccesioPciIrqWaitFinish s.flags) :: older) s' := by
  cases hpc : s.pc u with
  | idle =>
      rw [(idle_iff h.run u).mp hpc] at hu
      cases hu
  | readCancelled ret =>
      exact ⟨log, _, List.suffix_refl _, hu,
        h.step (hG _ _ _).2 (step_iff.mpr (.returned hpc))⟩
  | waitEvent =>
      have hawake := h.step (hG _ _ _).1 (step_iff.mpr (.awake hpc hw))
      have hpc' : (s.setPc u (.readCancelled 0)).pc u = .readCancelled 0 := by simp
      exact ⟨.awake u 0 :: log, _, List.suffix_cons _ _, by simpa [waitStatus],
        hawake.step (hG _ _ _).2 (step_iff.mpr (.returned hpc'))⟩

/-! ## The value WAIT returns -/

/-- A return tells who released that very wait. -/
def TellsReleaser (e : Event τ) (older : List (Event τ)) : Prop :=
  ∀ t ret, e = .returned t ret →
    (ret = 0 → waitStatus t older = .releasedBy .isr) ∧
      (ret = -ECANCELED → waitStatus t older = .releasedBy (.cancel 0))

/-- No WAIT is accepted while one released by CANCEL has still to return, and
no CANCEL empties the slot while one released by an isr has still to return. -/
def LeavesOutcomes (log : List (Event τ)) (s : State τ) : Action τ → Prop
  | .wait _ => s.flags.waitingForIrq ≠ 1 → ∀ u ret, waitStatus u log ≠ .releasedBy (.cancel ret)
  | .cancel _ => s.flags.waitingForIrq ≠ 0 → ∀ u, waitStatus u log ≠ .releasedBy .isr
  | _ => True

/-- `irq_cancelled` is what the release of the waits still to return left. -/
theorem irqCancelled_of_releasedBy {log : List (Event τ)} {s : State τ}
    (h : RunWhere (system τ) (fun log s a => NoSignal a ∧ LeavesOutcomes log s a) log s)
    {t : τ} {r : Releaser} (ht : waitStatus t log = .releasedBy r) :
    r = .isr ∧ s.flags.irqCancelled = 0 ∨ r = .cancel 0 ∧ s.flags.irqCancelled = 1 := by
  induction h with
  | init => cases ht
  | @step log s _ _ _ hr hg hs ih =>
      cases step_iff.mp hs with
      | @accepted u hpc hw =>
          by_cases hut : u = t
          · simp [waitStatus, hut] at ht
          · have hold : waitStatus t log = .releasedBy r := by simpa [waitStatus, hut] using ht
            cases r with
            | isr => exact .inl ⟨rfl, rfl⟩
            | cancel ret => exact absurd hold (hg.2 hw t ret)
      | @cancelled u hpc hw =>
          cases hold : waitStatus t log with
          | none => simp [waitStatus, hold, WaitStatus.release] at ht
          | pending =>
              simp only [waitStatus, hold, WaitStatus.release, WaitStatus.releasedBy.injEq] at ht
              exact .inr ⟨ht.symm, rfl⟩
          | releasedBy r' =>
              simp only [waitStatus, hold, WaitStatus.release, WaitStatus.releasedBy.injEq] at ht
              subst r'
              rcases ih hold with ⟨rfl, -⟩ | ⟨rfl, -⟩
              · exact absurd hold (hg.2 hw t)
              · exact .inr ⟨rfl, rfl⟩
      | notified hw =>
          have hflags := flags_of_waiting hr.run hw
          cases hold : waitStatus t log with
          | none => simp [waitStatus, hold, WaitStatus.release] at ht
          | pending =>
              simp only [waitStatus, hold, WaitStatus.release, WaitStatus.releasedBy.injEq] at ht
              exact .inl ⟨ht.symm, by simp [hflags]⟩
          | releasedBy r' =>
              simp only [waitStatus, hold, WaitStatus.release, WaitStatus.releasedBy.injEq] at ht
              exact ih (ht ▸ hold)
      | @returned u ret hpc =>
          by_cases hut : u = t
          · simp [waitStatus, hut] at ht
          · exact ih (by simpa [waitStatus, hut] using ht)
      | signalled => exact hg.1.elim
      | awake | refused | asleep | cancelRefused | notifyIdle =>
          exact ih (by simpa [waitStatus] using ht)

private theorem tellsReleaser_of_leavesOutcomes {log : List (Event τ)} {s : State τ}
    (h : RunWhere (system τ) (fun log s a => NoSignal a ∧ LeavesOutcomes log s a) log s) :
    AtEvery TellsReleaser log := by
  induction h with
  | init => simp
  | @step log s _ _ _ hr hg hs ih =>
      refine atEvery_cons.mpr ⟨?_, ih⟩
      intro t ret he
      subst he
      cases step_iff.mp hs with
      | returned hpc =>
          obtain ⟨r, hr'⟩ := releasedBy_of_readCancelled (hr.mono fun _ _ _ h => h.1) hpc
          rcases irqCancelled_of_releasedBy hr hr' with ⟨rfl, hc⟩ | ⟨rfl, hc⟩
          · simp [ioctlAccesioPciIrqWaitFinish, hc, hr', ECANCELED]
          · simp [ioctlAccesioPciIrqWaitFinish, hc, hr', ECANCELED]

/-- Two waits on their way out with one flag between them: the one whose
release the flag does not tell of can return the wrong value. -/
theorem exists_wrong_return {G : List (Event τ) → State τ → Action τ → Prop} (hG : LetsReturn G)
    {log : List (Event τ)} {s : State τ} (h : RunWhere (system τ) G log s)
    (hw : s.flags.waitingForIrq = 0) {u : τ} {r : Releaser}
    (hu : waitStatus u log = .releasedBy r)
    (hbad : r ≠ .isr ∧ s.flags.irqCancelled = 0 ∨ r = .isr ∧ s.flags.irqCancelled = 1) :
    ∃ log' s', log <:+ log' ∧ RunWhere (system τ) G log' s' ∧ ¬AtEvery TellsReleaser log' := by
  obtain ⟨older, s', hsuf, hst, hrun⟩ := exists_return hG h hw hu
  refine ⟨_, s', hsuf.trans (List.suffix_cons _ _), hrun, ?_⟩
  intro hall
  have htells := (atEvery_cons.mp hall).1 u _ rfl
  rw [hst] at htells
  rcases hbad with ⟨hr, hc⟩ | ⟨rfl, hc⟩
  · have hisr := htells.1 (by simp [ioctlAccesioPciIrqWaitFinish, hc])
    simp [hr] at hisr
  · have hcancel := htells.2 (by simp [ioctlAccesioPciIrqWaitFinish, hc])
    cases hcancel

/-- The condition of every run below, met by all steps but the one after `log`. -/
def LeavesOutcomesBut (log older : List (Event τ)) (s : State τ) (a : Action τ) : Prop :=
  NoSignal a ∧ ButOnce log LeavesOutcomes older s a

private theorem letsReturn_leavesOutcomesBut (log : List (Event τ)) :
    LetsReturn (LeavesOutcomesBut log) :=
  fun _ _ _ => ⟨⟨trivial, fun _ => trivial⟩, ⟨trivial, fun _ => trivial⟩⟩

/-- A step that does not leave the outcomes alone is followed by a wrong return, by steps
that all do. -/
theorem exists_wrong_return_of_step {log : List (Event τ)} {s s' : State τ} {a : Action τ}
    {e : Event τ}
    (h : RunWhere (system τ) (fun log s a => NoSignal a ∧ LeavesOutcomes log s a) log s)
    (hs : (system τ).step s a = some (e, s')) (ha : NoSignal a)
    (hbad : ¬LeavesOutcomes log s a) :
    ∃ log' s'', e :: log <:+ log' ∧ RunWhere (system τ) (LeavesOutcomesBut log) log' s'' ∧
      ¬AtEvery TellsReleaser log' := by
  have hbut : RunWhere (system τ) (LeavesOutcomesBut log) log s :=
    h.mono fun _ _ _ hg => ⟨hg.1, fun _ => hg.2⟩
  have hstep := hbut.step ⟨ha, fun hne => absurd rfl hne⟩ hs
  have hlets := letsReturn_leavesOutcomesBut log
  cases step_iff.mp hs with
  | @accepted t hpc hw =>
      simp only [LeavesOutcomes, not_forall, not_not] at hbad
      obtain ⟨-, u, ret, hu⟩ := hbad
      have hut : ¬t = u := by
        rintro rfl
        rw [(idle_iff h.run t).mp hpc] at hu
        cases hu
      -- the isr releases the new wait, and the cancelled one finds the flag cleared
      have hnotify := hstep.step ⟨by exact trivial, fun _ => by exact trivial⟩
        (step_iff.mpr (.notified (by simp : (1 : Int) ≠ 0)))
      obtain ⟨log', s'', hsuf, hrun, hwrong⟩ := exists_wrong_return hlets hnotify rfl
        (u := u) (r := .cancel ret) (by simp [waitStatus, hut, hu, WaitStatus.release])
        (.inl ⟨by simp, rfl⟩)
      exact ⟨log', s'', (List.suffix_cons _ _).trans hsuf, hrun, hwrong⟩
  | @cancelled t hpc hw =>
      simp only [LeavesOutcomes, not_forall, not_not] at hbad
      obtain ⟨-, u, hu⟩ := hbad
      exact exists_wrong_return hlets hstep rfl
        (u := u) (r := .isr) (by simp [waitStatus, hu, WaitStatus.release]) (.inr ⟨rfl, rfl⟩)
  | refused hpc hw => exact absurd (fun h => absurd hw h) hbad
  | cancelRefused hpc hw => exact absurd (fun h => absurd hw h) hbad
  | awake | asleep | signalled | returned | notifyIdle | notified => exact absurd trivial hbad

/-- Without signals: while the outcomes are left alone every return is right, and after
the first step that does not leave them alone a wrong return follows, although every
step from then on does. -/
theorem outcome_tells_releaser {log : List (Event τ)} {s : State τ}
    (h : RunWhere (system τ) (fun log s a => NoSignal a ∧ LeavesOutcomes log s a) log s) :
    AtEvery TellsReleaser log ∧
      ∀ a e s', NoSignal a → (system τ).step s a = some (e, s') → ¬LeavesOutcomes log s a →
        ∃ log' s'', e :: log <:+ log' ∧ RunWhere (system τ) (LeavesOutcomesBut log) log' s'' ∧
          ¬AtEvery TellsReleaser log' :=
  ⟨tellsReleaser_of_leavesOutcomes h, fun _ _ _ ha hs hbad =>
    exists_wrong_return_of_step h hs ha hbad⟩

theorem outcome_tells_releaser_isr :
    ∃ s, RunWhere (system Nat) (fun log s a => NoSignal a ∧ LeavesOutcomes log s a)
        [.returned 0 0, .awake 0 0, .notify true, .accepted 0] s ∧
      AtEvery TellsReleaser [.returned 0 0, .awake 0 0, .notify true, .accepted (0 : Nat)] := by
  have haccept := RunWhere.init.step (G := fun log s a => NoSignal a ∧ LeavesOutcomes log s a)
    (M := system Nat) (a := .wait 0) ⟨trivial, fun _ _ _ h => by cases h⟩ rfl
  have hnotify := haccept.step (a := .notify) (by exact ⟨trivial, trivial⟩) rfl
  have hawake := hnotify.step (a := .recheck 0) (by exact ⟨trivial, trivial⟩) rfl
  have hreturn := hawake.step (a := .finish 0) (by exact ⟨trivial, trivial⟩) rfl
  exact ⟨_, hreturn, (outcome_tells_releaser hreturn).1⟩

/-- Thread 0 is cancelled, thread 1 takes the slot again before thread 0 has
read `irq_cancelled`, and thread 0 reports an interrupt. -/
theorem outcome_not_always_told :
    ¬∀ log s, RunWhere (system Nat) (fun _ _ a => NoSignal a) log s →
      AtEvery TellsReleaser log := by
  intro hall
  obtain ⟨s, hs⟩ := System.exists_runWhere_of_exec (M := system Nat)
    (G := fun _ _ a => NoSignal a)
    [.wait 0, .cancel 2, .wait 1, .notify, .recheck 0, .finish 0]
    (by simp [NoSignal])
    (show _ = some [.returned 0 0, .awake 0 0, .notify true, .accepted 1, .cancel 2 0 true,
      .accepted 0] by decide)
  have htells := (atEvery_cons.mp (hall _ s hs)).1 0 0 rfl
  exact absurd (htells.1 rfl) (by decide)

/-! ## Staying awake until the return -/

def Blocked (s : State τ) (t : τ) : Prop :=
  s.pc t = .waitEvent ∧ wakeCondition s.flags = false

/-- The wake condition of a released wait holds, and at most one thread is blocked. -/
def NoWaiterLost (log : List (Event τ)) (s : State τ) : Prop :=
  (∀ t r, waitStatus t log = .releasedBy r → wakeCondition s.flags = true) ∧
    ∀ t u, Blocked s t → Blocked s u → t = u

/-- A WAIT is accepted only while no accepted WAIT has still to return. -/
def AcceptsAlone (s : State τ) : Action τ → Prop
  | .wait _ => s.flags.waitingForIrq ≠ 1 → ∀ u, s.pc u = .idle
  | _ => True

theorem inProgress_unique {log : List (Event τ)} {s : State τ}
    (h : RunWhere (system τ) (fun _ s a => NoSignal a ∧ AcceptsAlone s a) log s) {t u : τ}
    (ht : s.pc t ≠ .idle) (hu : s.pc u ≠ .idle) : t = u := by
  induction h with
  | init => exact absurd rfl ht
  | @step _ s _ _ e hr hg hs ih =>
      have hstep := step_iff.mp hs
      by_cases he : ∃ v, e = .accepted v
      · obtain ⟨v, rfl⟩ := he
        cases hstep with
        | accepted hpc hw =>
            have hidle := hg.2 hw
            have only : ∀ x, (if x = v then Pc.waitEvent else s.pc x) ≠ .idle → x = v := by
              intro x hx
              by_contra hxv
              exact hx (by simp [hxv, hidle])
            exact (only t (by simpa using ht)).trans (only u (by simpa using hu)).symm
      · have hne : ∀ v, e ≠ .accepted v := fun v hv => he ⟨v, hv⟩
        exact ih (hstep.inProgress hne ht) (hstep.inProgress hne hu)

theorem noWaiterLost_of_acceptsAlone {log : List (Event τ)} {s : State τ}
    (h : RunWhere (system τ) (fun _ s a => NoSignal a ∧ AcceptsAlone s a) log s) :
    NoWaiterLost log s := by
  have hlive : ∀ {t}, waitStatus t log ≠ .none → s.pc t ≠ .idle :=
    fun ht hpc => ht ((idle_iff h.run _).mp hpc)
  constructor
  · intro t r ht
    by_contra hasleep
    have hw : s.flags.waitingForIrq ≠ 0 := by simpa [wakeCondition] using hasleep
    obtain ⟨u, hu⟩ := exists_pending (h.mono fun _ _ _ h => h.1) hw
    have htu : t = u := inProgress_unique h (hlive (by simp [ht])) (hlive (by simp [hu]))
    subst u
    simp [ht] at hu
  · intro t u ht hu
    exact inProgress_unique h (by simp [ht.1]) (by simp [hu.1])

/-- Without signals: while WAITs are accepted one at a time no released waiter
is lost, and the first one accepted out of turn loses one at once. -/
theorem noWaiterLost_iff {log : List (Event τ)} {s : State τ}
    (h : RunWhere (system τ) (fun _ s a => NoSignal a ∧ AcceptsAlone s a) log s) :
    NoWaiterLost log s ∧
      ∀ a e s', NoSignal a → (system τ).step s a = some (e, s') →
        (NoWaiterLost (e :: log) s' ↔ AcceptsAlone s a) := by
  refine ⟨noWaiterLost_of_acceptsAlone h, fun a e s' ha hs => ⟨?_, ?_⟩⟩
  · intro hkept
    cases step_iff.mp hs with
    | @accepted t hpc hw =>
        intro _ u
        by_contra hu
        have hut : ¬t = u := by
          rintro rfl
          exact hu hpc
        -- `u` is still on its way out, and the new wait has made its condition false
        cases hst : waitStatus u log with
        | none => exact hu ((idle_iff h.run u).mpr hst)
        | pending => exact hw (waiting_of_pending h.run hst)
        | releasedBy r =>
            have hawake := hkept.1 u r (by simpa [waitStatus, hut] using hst)
            simp [wakeCondition] at hawake
    | refused hpc hw => exact fun hne => absurd hw hne
    | awake | asleep | signalled | returned | cancelRefused | cancelled | notifyIdle
    | notified => exact trivial
  · intro halone
    exact noWaiterLost_of_acceptsAlone (h.step ⟨ha, halone⟩ hs)

theorem noWaiterLost_iff_released :
    ∃ s, RunWhere (system Nat) (fun _ s a => NoSignal a ∧ AcceptsAlone s a)
        [.notify true, .accepted 0] s ∧
      NoWaiterLost [.notify true, .accepted (0 : Nat)] s := by
  have haccept := RunWhere.init.step (G := fun _ s a => NoSignal a ∧ AcceptsAlone s a)
    (M := system Nat) (a := .wait 0) ⟨trivial, fun _ _ => rfl⟩ rfl
  have hnotify := haccept.step (a := .notify) (by exact ⟨trivial, trivial⟩) rfl
  exact ⟨_, hnotify, (noWaiterLost_iff hnotify).1⟩

/-- Thread 1 takes the slot before thread 0 has looked at its condition again. -/
theorem waiter_can_be_lost :
    ¬∀ log s, RunWhere (system Nat) (fun _ _ a => NoSignal a) log s → NoWaiterLost log s := by
  intro hall
  have haccept := RunWhere.init.step (G := fun _ _ a => NoSignal a)
    (M := system Nat) (a := .wait 0) (by exact trivial) rfl
  have hnotify := haccept.step (a := .notify) (by exact trivial) rfl
  have hagain := hnotify.step (a := .wait 1) (by exact trivial) rfl
  have hawake := (hall _ _ hagain).1 0 .isr rfl
  exact absurd hawake (by decide)

/-! ## Signals -/

/-- A WAIT whose sleep a signal ended does not return 0. -/
def TellsSignal (e : Event τ) (older : List (Event τ)) : Prop :=
  ∀ t ret, e = .returned t ret → ∀ value, wakeValue t older = some value → value ≠ 0 → ret ≠ 0

/-- The slot is taken exactly while an accepted WAIT is unreleased, and no
return hides a signal. -/
def SlotOwned (log : List (Event τ)) (s : State τ) : Prop :=
  (s.flags.waitingForIrq = 1 ↔ ∃ t, waitStatus t log = .pending) ∧ AtEvery TellsSignal log

private theorem wakeValue_of_noSignal {log : List (Event τ)} {s : State τ}
    (h : RunWhere (system τ) (fun _ _ a => NoSignal a) log s) {t : τ} {value : Int}
    (ht : wakeValue t log = some value) : value = 0 := by
  induction h with
  | init => cases ht
  | step hr hg hs ih =>
      cases step_iff.mp hs with
      | @awake u hpc hw =>
          by_cases hut : u = t
          · simpa [wakeValue, hut, eq_comm] using ht
          · exact ih (by simpa [wakeValue, hut] using ht)
      | signalled => exact hg.elim
      | refused | accepted | asleep | returned | cancelRefused | cancelled | notifyIdle
      | notified => exact ih ht

private theorem slotOwned_of_noSignal {log : List (Event τ)} {s : State τ}
    (h : RunWhere (system τ) (fun _ _ a => NoSignal a) log s) : SlotOwned log s := by
  constructor
  · constructor
    · intro hw
      exact exists_pending h (by simp [hw])
    · rintro ⟨t, ht⟩
      exact waiting_of_pending h.run ht
  · induction h with
    | init => simp
    | step hr _ _ ih =>
        refine atEvery_cons.mpr ⟨?_, ih⟩
        intro t ret _ value hvalue hne
        exact absurd (wakeValue_of_noSignal hr hvalue) hne

/-- Without signals the slot is owned; a signal and the return right behind it leave it
taken by nobody and report an interrupt. -/
theorem slotOwned_until_signal {log : List (Event τ)} {s : State τ}
    (h : RunWhere (system τ) (fun _ _ a => NoSignal a) log s) :
    SlotOwned log s ∧
      ∀ t e s', (system τ).step s (.signal t) = some (e, s') →
        ∃ s'', (system τ).step s' (.finish t) = some (.returned t 0, s'') ∧
          ¬SlotOwned (.returned t 0 :: e :: log) s'' := by
  refine ⟨slotOwned_of_noSignal h, fun t e s' hs => ?_⟩
  cases step_iff.mp hs with
  | signalled hpc hw =>
      have hflags := flags_of_waiting h.run hw
      have hpc' : (s.setPc t (.readCancelled (-ERESTARTSYS))).pc t =
          .readCancelled (-ERESTARTSYS) := by simp
      have hzero : ioctlAccesioPciIrqWaitFinish
          (s.setPc t (.readCancelled (-ERESTARTSYS))).flags = 0 := by
        simp [hflags, ioctlAccesioPciIrqWaitFinish]
      have hreturn := step_iff.mpr (Step.returned hpc')
      rw [hzero] at hreturn
      refine ⟨_, hreturn, fun howned => ?_⟩
      have htells := (atEvery_cons.mp howned.2).1 t 0 rfl (-ERESTARTSYS)
      exact htells (by simp [wakeValue]) (by decide) rfl

theorem slotOwned_until_signal_accepted :
    ∃ s, RunWhere (system Nat) (fun _ _ a => NoSignal a) [.asleep 0, .accepted 0] s ∧
      SlotOwned [.asleep 0, .accepted (0 : Nat)] s := by
  obtain ⟨s, hs⟩ := System.exists_runWhere_of_exec (M := system Nat)
    (G := fun _ _ a => NoSignal a) [.wait 0, .recheck 0] (by simp [NoSignal])
    (show _ = some [.asleep 0, .accepted 0] by decide)
  exact ⟨s, hs, (slotOwned_until_signal hs).1⟩

/-- A signal ends the sleep of thread 0, which reports an interrupt and leaves
the slot taken. -/
theorem slot_can_be_orphaned : ¬∀ log s, Run (system Nat) log s → SlotOwned log s := by
  intro hall
  have haccept := Run.init (M := system Nat) |>.step (a := .wait 0) rfl
  have hsignal := haccept.step (a := .signal 0) rfl
  have hreturn := hsignal.step (a := .finish 0) rfl
  obtain ⟨t, ht⟩ := (hall _ _ hreturn).1.mp rfl
  by_cases h0 : 0 = t
  · simp [waitStatus, h0] at ht
  · simp [waitStatus, h0] at ht

end Aiowdm.Proofs.WaitOutcome
