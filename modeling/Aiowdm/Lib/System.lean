import Mathlib.Data.List.Infix

/-!
# Systems and their runs

A system reacts to the actions a scheduler picks.  What a step is seen to do is
an event, and a run keeps the events in a log, newest first, so that a property
of the whole history is a property of a list.  `RunWhere` is a run whose every
step meets a condition on the history and state before it.
-/

namespace Aiowdm.Lib

universe u v w

/-- `step s a` is what action `a` is seen to do in state `s` and the state it
leaves; `none` where the action is not possible. -/
structure System (σ : Type u) (α : Type v) (ε : Type w) where
  init : σ
  step : σ → α → Option (ε × σ)

variable {σ : Type u} {α : Type v} {ε : Type w}

/-- `M` reaches `s`, having logged `log`, by steps that all meet `G`. -/
inductive RunWhere (M : System σ α ε) (G : List ε → σ → α → Prop) : List ε → σ → Prop
  | init : RunWhere M G [] M.init
  | step {log : List ε} {s s' : σ} {a : α} {e : ε} :
      RunWhere M G log s → G log s a → M.step s a = some (e, s') →
      RunWhere M G (e :: log) s'

abbrev Run (M : System σ α ε) : List ε → σ → Prop :=
  RunWhere M fun _ _ _ => True

namespace RunWhere

variable {M : System σ α ε} {G H : List ε → σ → α → Prop} {log : List ε} {s : σ}

theorem mono (hGH : ∀ log s a, G log s a → H log s a) (h : RunWhere M G log s) :
    RunWhere M H log s := by
  induction h with
  | init => exact .init
  | step _ hg hs ih => exact .step ih (hGH _ _ _ hg) hs

theorem run (h : RunWhere M G log s) : Run M log s :=
  h.mono fun _ _ _ _ => trivial

end RunWhere

namespace Run

variable {M : System σ α ε} {log : List ε} {s s' : σ}

theorem init : Run M [] M.init := RunWhere.init

theorem step {a : α} {e : ε} (h : Run M log s) (hs : M.step s a = some (e, s')) :
    Run M (e :: log) s' :=
  RunWhere.step h trivial hs

end Run

/-! ## A condition met by all steps but one -/

/-- `G`, of every step but the one that is made after `log`. -/
def ButOnce (log : List ε) (G : List ε → σ → α → Prop) : List ε → σ → α → Prop :=
  fun older s a => older ≠ log → G older s a

namespace RunWhere

variable {M : System σ α ε} {G : List ε → σ → α → Prop} {log log' : List ε} {s s' : σ}

theorem butOnce (log : List ε) (h : RunWhere M G log' s) : RunWhere M (ButOnce log G) log' s :=
  h.mono fun _ _ _ hg _ => hg

theorem offend (h : RunWhere M G log s) {a : α} {e : ε} (hs : M.step s a = some (e, s')) :
    RunWhere M (ButOnce log G) (e :: log) s' :=
  (h.butOnce log).step (fun hne => absurd rfl hne) hs

end RunWhere

/-! ## Running a given schedule -/

def System.exec (M : System σ α ε) : List α → List ε × σ → Option (List ε × σ)
  | [], c => some c
  | a :: as, c =>
      match M.step c.2 a with
      | none => none
      | some (e, s') => M.exec as (e :: c.1, s')

theorem RunWhere.exec {M : System σ α ε} {G : List ε → σ → α → Prop} {as : List α}
    {c d : List ε × σ} (hG : ∀ a ∈ as, ∀ log s, G log s a) (hrun : RunWhere M G c.1 c.2)
    (h : M.exec as c = some d) : RunWhere M G d.1 d.2 := by
  induction as generalizing c with
  | nil =>
      cases h
      exact hrun
  | cons a as ih =>
      simp only [System.exec] at h
      cases hs : M.step c.2 a with
      | none => simp [hs] at h
      | some r =>
          rw [hs] at h
          exact ih (fun b hb => hG b (List.mem_cons_of_mem a hb))
            (hrun.step (hG a List.mem_cons_self _ _) hs) h

/-- A schedule that runs to the end shows that there is a run, and what is read
off its end. -/
theorem System.exists_runWhere_map_of_exec {M : System σ α ε} {G : List ε → σ → α → Prop}
    {β : Type*} (f : List ε × σ → β) (as : List α) {b : β}
    (hG : ∀ a ∈ as, ∀ log s, G log s a) (h : (M.exec as ([], M.init)).map f = some b) :
    ∃ log s, RunWhere M G log s ∧ f (log, s) = b := by
  obtain ⟨d, hd, rfl⟩ := Option.map_eq_some_iff.mp h
  exact ⟨d.1, d.2, RunWhere.init.exec hG hd, rfl⟩

theorem System.exists_runWhere_of_exec {M : System σ α ε} {G : List ε → σ → α → Prop}
    (as : List α) {log : List ε} (hG : ∀ a ∈ as, ∀ log s, G log s a)
    (h : (M.exec as ([], M.init)).map Prod.fst = some log) : ∃ s, RunWhere M G log s := by
  obtain ⟨_, s, hrun, rfl⟩ := M.exists_runWhere_map_of_exec Prod.fst as hG h
  exact ⟨s, hrun⟩

theorem System.exists_run_of_exec {M : System σ α ε} (as : List α) {log : List ε}
    (h : (M.exec as ([], M.init)).map Prod.fst = some log) : ∃ s, Run M log s :=
  M.exists_runWhere_of_exec as (fun _ _ _ _ => trivial) h

def System.execWhere (M : System σ α ε) (G : List ε → σ → α → Prop)
    [∀ log s a, Decidable (G log s a)] : List α → List ε × σ → Option (List ε × σ)
  | [], c => some c
  | a :: as, c =>
      if G c.1 c.2 a then
        match M.step c.2 a with
        | none => none
        | some (e, s') => M.execWhere G as (e :: c.1, s')
      else none

theorem RunWhere.execWhere {M : System σ α ε} {G : List ε → σ → α → Prop}
    [∀ log s a, Decidable (G log s a)] {as : List α} {c d : List ε × σ}
    (hrun : RunWhere M G c.1 c.2) (h : M.execWhere G as c = some d) : RunWhere M G d.1 d.2 := by
  induction as generalizing c with
  | nil =>
      cases h
      exact hrun
  | cons a as ih =>
      simp only [System.execWhere] at h
      split at h
      · next hG =>
          cases hs : M.step c.2 a with
          | none => simp [hs] at h
          | some r =>
              rw [hs] at h
              exact ih (hrun.step hG hs) h
      · cases h

theorem System.exists_runWhere_map_of_execWhere {M : System σ α ε} {G : List ε → σ → α → Prop}
    [∀ log s a, Decidable (G log s a)] {β : Type*} (f : List ε × σ → β) (as : List α) {b : β}
    (h : (M.execWhere G as ([], M.init)).map f = some b) :
    ∃ log s, RunWhere M G log s ∧ f (log, s) = b := by
  obtain ⟨d, hd, rfl⟩ := Option.map_eq_some_iff.mp h
  exact ⟨d.1, d.2, RunWhere.init.execWhere hd, rfl⟩

/-! ## Properties of a log -/

/-- Every event of the log stands in the relation `P` to the events before it. -/
def AtEvery (P : ε → List ε → Prop) (log : List ε) : Prop :=
  ∀ ⦃e older⦄, e :: older <:+ log → P e older

@[simp] theorem atEvery_nil (P : ε → List ε → Prop) : AtEvery P [] := by
  intro e older h
  simp at h

@[simp] theorem atEvery_cons {P : ε → List ε → Prop} {e : ε} {log : List ε} :
    AtEvery P (e :: log) ↔ P e log ∧ AtEvery P log := by
  constructor
  · intro h
    exact ⟨h (List.suffix_refl _), fun d older hd => h (hd.trans (List.suffix_cons e log))⟩
  · rintro ⟨he, hlog⟩ d older hd
    rcases List.suffix_cons_iff.mp hd with heq | hd
    · cases heq
      exact he
    · exact hlog hd

theorem AtEvery.mono {P Q : ε → List ε → Prop} (hPQ : ∀ e older, P e older → Q e older)
    {log : List ε} (h : AtEvery P log) : AtEvery Q log :=
  fun _ _ hsuf => hPQ _ _ (h hsuf)

end Aiowdm.Lib
