import Aiowdm.Lib.System

/-!
# Simulations

Steps from any state, and a relation between the states of two systems that the steps
of the first one keep: the second answers each of them with steps of its own, any number
of them, that look the same from outside.
-/

namespace Aiowdm.Lib

universe u v w u' v' w' x

variable {σ : Type u} {α : Type v} {ε : Type w} {τ : Type u'} {β : Type v'} {δ : Type w'}

/-- `M` goes from `s` to `s'` by any number of steps, logging `log` on the way. -/
inductive Steps (M : System σ α ε) (s : σ) : List ε → σ → Prop
  | refl : Steps M s [] s
  | step {log : List ε} {s' s'' : σ} {a : α} {e : ε} :
      Steps M s log s' → M.step s' a = some (e, s'') → Steps M s (e :: log) s''

theorem Steps.single {M : System σ α ε} {s s' : σ} {a : α} {e : ε}
    (h : M.step s a = some (e, s')) : Steps M s [e] s' :=
  .step .refl h

theorem Steps.two {M : System σ α ε} {s s' s'' : σ} {a b : α} {e f : ε}
    (h : M.step s a = some (e, s')) (h' : M.step s' b = some (f, s'')) : Steps M s [f, e] s'' :=
  .step (.single h) h'

theorem Steps.trans {M : System σ α ε} {s s' s'' : σ} {log new : List ε} (h : Steps M s log s')
    (hs : Steps M s' new s'') : Steps M s (new ++ log) s'' := by
  induction hs with
  | refl => exact h
  | step _ hstep ih => exact .step ih hstep

theorem Run.steps {M : System σ α ε} {log new : List ε} {s s' : σ} (h : Run M log s)
    (hs : Steps M s new s') : Run M (new ++ log) s' := by
  induction hs with
  | refl => exact h
  | step _ hstep ih => exact ih.step hstep

/-- Actions that meet `P` can take `M` to a state that meets `Q`. -/
inductive CanReach (M : System σ α ε) (P : α → Prop) (Q : σ → Prop) : σ → Prop
  | here {s : σ} : Q s → CanReach M P Q s
  | step {s s' : σ} {a : α} {e : ε} :
      M.step s a = some (e, s') → P a → CanReach M P Q s' → CanReach M P Q s

theorem CanReach.trans {M : System σ α ε} {P P' : α → Prop} {Q Q' : σ → Prop} {s : σ}
    (h : CanReach M P Q s) (hP : ∀ a, P a → P' a)
    (hQ : ∀ s', Q s' → CanReach M P' Q' s') : CanReach M P' Q' s := by
  induction h with
  | here hs => exact hQ _ hs
  | step hs ha _ ih => exact .step hs (hP _ ha) ih

theorem CanReach.mono {M : System σ α ε} {P P' : α → Prop} {Q : σ → Prop} {s : σ}
    (h : CanReach M P Q s) (hP : ∀ a, P a → P' a) : CanReach M P' Q s :=
  h.trans hP fun _ hs => .here hs

theorem filterMap_cons_eq {ν : Type x} (f : ε → Option ν) (e : ε) (log : List ε) :
    (e :: log).filterMap f = (f e).toList ++ log.filterMap f := by
  cases he : f e with
  | none => rw [List.filterMap_cons_none he]; rfl
  | some v => rw [List.filterMap_cons_some he]; rfl

/-- `N` can follow `M` as long as the steps of `M` meet `G`.  What is seen of an event
is the same on both sides. -/
structure Simulation {ν : Type x} (M : System σ α ε) (G : List ε → σ → α → Prop)
    (N : System τ β δ) (seen : ε → Option ν) (seen' : δ → Option ν) (R : σ → τ → Prop) :
    Prop where
  init : R M.init N.init
  step : ∀ {log : List ε} {s s' : σ} {a : α} {e : ε} {log' : List δ} {t : τ},
    RunWhere M G log s → Run N log' t → R s t → G log s a → M.step s a = some (e, s') →
      ∃ new t', Steps N t new t' ∧ new.filterMap seen' = (seen e).toList ∧ R s' t'

theorem Simulation.run {ν : Type x} {M : System σ α ε} {G : List ε → σ → α → Prop}
    {N : System τ β δ} {seen : ε → Option ν} {seen' : δ → Option ν} {R : σ → τ → Prop}
    (h : Simulation M G N seen seen' R) {log : List ε} {s : σ} (hrun : RunWhere M G log s) :
    ∃ log' t, Run N log' t ∧ log'.filterMap seen' = log.filterMap seen ∧ R s t := by
  induction hrun with
  | init => exact ⟨[], N.init, .init, rfl, h.init⟩
  | @step log s s' a e hrun hG hs ih =>
      obtain ⟨log', t, hrun', hseen, hR⟩ := ih
      obtain ⟨new, t', hsteps, hnew, hR'⟩ := h.step hrun hrun' hR hG hs
      refine ⟨new ++ log', t', hrun'.steps hsteps, ?_, hR'⟩
      rw [List.filterMap_append, hnew, hseen, filterMap_cons_eq]

end Aiowdm.Lib
