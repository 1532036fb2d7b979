import Aiowdm.Lib.Prog
import Aiowdm.Lib.Simulation
import Mathlib.Logic.Function.Basic

/-!
# Operations that take effect at once

Threads carry out operations, each a program that makes calls on what all of them
share and on memory of its own.  Where no operation makes more than one call on what
is shared, the threads cannot tell their interleaved calls from operations that each
take effect in one step, between the invocation and the return.
-/

namespace Aiowdm.Lib

namespace Prog

variable {I J : Interface} {α β σ τ : Type}

/-- At most `n` calls on each path of the program satisfy `P`. -/
def AtMost (P : I.Call → Bool) : Prog I α → Nat → Prop
  | ret _, _ => True
  | call c k, n =>
      if P c then 0 < n ∧ ∀ r, AtMost P (k r) (n - 1) else ∀ r, AtMost P (k r) n

theorem AtMost.call_of_not {P : I.Call → Bool} {c : I.Call} {k : I.Reply c → Prog I α} {n : Nat}
    (hc : P c = false) (hk : ∀ r, AtMost P (k r) n) : AtMost P (call c k) n := by
  simpa only [AtMost, hc, Bool.false_eq_true, if_false] using hk

theorem AtMost.call_succ {P : I.Call → Bool} {c : I.Call} {k : I.Reply c → Prog I α} {n : Nat}
    (hk : ∀ r, AtMost P (k r) n) (hmono : ∀ r, AtMost P (k r) (n + 1)) :
    AtMost P (call c k) (n + 1) := by
  simp only [AtMost]
  split
  · exact ⟨Nat.succ_pos n, hk⟩
  · exact hmono

theorem AtMost.mono {P : I.Call → Bool} {p : Prog I α} {n m : Nat} (hp : AtMost P p n)
    (hnm : n ≤ m) : AtMost P p m := by
  induction p generalizing n m with
  | ret a => trivial
  | call c k ih =>
      simp only [AtMost] at hp ⊢
      split at hp
      · next hc =>
          rw [if_pos hc]
          exact ⟨by omega, fun r => ih r (hp.2 r) (by omega)⟩
      · next hc =>
          rw [if_neg hc]
          exact fun r => ih r (hp r) hnm

theorem AtMost.call {P : I.Call → Bool} {c : I.Call} {k : I.Reply c → Prog I α} {n : Nat}
    (hk : ∀ r, AtMost P (k r) n) : AtMost P (call c k) (n + 1) :=
  .call_succ hk fun r => (hk r).mono (Nat.le_succ n)

theorem AtMost.bind {P : I.Call → Bool} {p : Prog I α} {f : α → Prog I β} {n m : Nat}
    (hp : AtMost P p n) (hf : ∀ a, AtMost P (f a) m) : AtMost P (p >>= f) (n + m) := by
  induction p generalizing n with
  | ret a => exact (hf a).mono (Nat.le_add_left m n)
  | call c k ih =>
      simp only [AtMost] at hp
      simp only [call_bind, AtMost]
      split at hp
      · next hc =>
          rw [if_pos hc]
          refine ⟨by omega, fun r => ?_⟩
          have hr := ih r (hp.2 r)
          rwa [show n - 1 + m = n + m - 1 by omega] at hr
      · next hc =>
          rw [if_neg hc]
          exact fun r => ih r (hp r)

theorem AtMost.inl {p : Prog I α} {n : Nat} (hp : AtMost (fun _ => true) p n) :
    AtMost Sum.isLeft (p.inl (J := J)) n := by
  induction p generalizing n with
  | ret a => trivial
  | call c k ih => exact ⟨hp.1, fun r => ih r (hp.2 r)⟩

/-! ## Renaming calls -/

structure Renaming (I J : Interface) where
  call : I.Call → J.Call
  reply : (c : I.Call) → J.Reply (call c) → I.Reply c

/-- The calls on the left renamed, those on the right kept. -/
def Renaming.left (f : Renaming I J) (K : Interface) : Renaming (I.sum K) (J.sum K) where
  call := Sum.map f.call id
  reply
    | .inl c, r => f.reply c r
    | .inr _, r => r

/-- What serves the calls of `I`, once they are renamed. -/
def Renaming.serve (f : Renaming I J) (h : Handler J σ) : Handler I σ :=
  fun c s => (f.reply c (h (f.call c) s).1, (h (f.call c) s).2)

def rename (f : Renaming I J) : Prog I α → Prog J α
  | ret a => ret a
  | .call c k => .call (f.call c) fun r => (k (f.reply c r)).rename f

theorem exec_rename (f : Renaming I J) (h : Handler J σ) (p : Prog I α) (s : σ) :
    (p.rename f).exec h s = p.exec (f.serve h) s := by
  induction p generalizing s with
  | ret a => rfl
  | call c k ih => exact ih _ _

theorem AtMost.rename {f : Renaming I J} {P : I.Call → Bool} {Q : J.Call → Bool}
    (hPQ : ∀ c, Q (f.call c) = P c) {p : Prog I α} {n : Nat} (hp : AtMost P p n) :
    AtMost Q (p.rename f) n := by
  induction p generalizing n with
  | ret a => trivial
  | call c k ih =>
      simp only [AtMost] at hp
      simp only [Prog.rename, AtMost, hPQ]
      split at hp
      · next hc =>
          rw [if_pos hc]
          exact ⟨hp.1, fun r => ih _ (hp.2 _)⟩
      · next hc =>
          rw [if_neg hc]
          exact fun r => ih _ (hp _)

/-! ## Calls on one side only -/

theorem exec_of_atMost_zero (h : Handler I σ) (g : Handler J τ) {p : Prog (I.sum J) α}
    (hp : AtMost Sum.isLeft p 0) (t : τ) :
    ∃ a t', ∀ s, p.exec (h.sum g) (s, t) = (a, (s, t')) := by
  induction p generalizing t with
  | ret a => exact ⟨a, t, fun _ => rfl⟩
  | call c k ih =>
      rcases c with c | c
      · simp [AtMost] at hp
      · exact ih (g c t).1 (hp (g c t).1) (g c t).2

end Prog

/-! ## Threads -/

/-- A thread invokes an operation, goes on with it and returns from it; meanwhile the
surroundings may change what is shared. -/
inductive CallAction (τ ω ν : Type) where
  | invoke (t : τ) (op : ω)
  | step (t : τ)
  | finish (t : τ)
  | environment (n : ν)

inductive CallEvent (τ ω ρ ν : Type) where
  | invoked (t : τ) (op : ω)
  | stepped
  | returned (t : τ) (r : ρ)
  | environment (n : ν)
deriving DecidableEq

/-- A thread does not see when its operation goes on. -/
def CallEvent.seen {τ ω ρ ν : Type} : CallEvent τ ω ρ ν → Option (CallEvent τ ω ρ ν)
  | .stepped => none
  | e => some e

/-- Operations on what `shared` serves, each with memory of its own. -/
structure Object (I J : Interface) (σ π ω β ρ : Type) where
  shared : Handler I σ
  own : Handler J π
  program : ω → Prog (I.sum J) β
  enter : ω → π
  result : ω → β → π → ρ

structure Running (I J : Interface) (π ω β : Type) where
  op : ω
  program : Prog (I.sum J) β
  memory : π

structure ThreadState (I J : Interface) (τ σ π ω β : Type) where
  shared : σ
  running : τ → Option (Running I J π ω β)

/-- Where a thread is with an operation that takes effect at once. -/
inductive Phase (ω ρ : Type) where
  | idle
  | invoked (op : ω)
  | done (r : ρ)

structure AtomicState (τ σ ω ρ : Type) where
  shared : σ
  phase : τ → Phase ω ρ

variable {I J : Interface} {τ σ π ω β ρ ν : Type} [DecidableEq τ]

def Object.outcome (O : Object I J σ π ω β ρ) (op : ω) (x : β × (σ × π)) : ρ × σ :=
  (O.result op x.1 x.2.2, x.2.1)

/-- The operation run alone, from its start to its end. -/
def Object.effect (O : Object I J σ π ω β ρ) (op : ω) (s : σ) : ρ × σ :=
  O.outcome op ((O.program op).exec (O.shared.sum O.own) (s, O.enter op))

/-- The threads that carry out the operations of `O`, one call a step. -/
def Object.threads (O : Object I J σ π ω β ρ) (s : σ) (env : ν → σ → σ) :
    System (ThreadState I J τ σ π ω β) (CallAction τ ω ν) (CallEvent τ ω ρ ν) where
  init := ⟨s, fun _ => none⟩
  step s
    | .invoke t op =>
        match s.running t with
        | none => some (.invoked t op, { s with
            running := Function.update s.running t (some ⟨op, O.program op, O.enter op⟩) })
        | some _ => none
    | .step t =>
        match s.running t with
        | some ⟨op, .call c k, memory⟩ =>
            let r := (O.shared.sum O.own) c (s.shared, memory)
            some (.stepped,
              ⟨r.2.1, Function.update s.running t (some ⟨op, k r.1, r.2.2⟩)⟩)
        | _ => none
    | .finish t =>
        match s.running t with
        | some ⟨op, .ret b, memory⟩ => some (.returned t (O.result op b memory), { s with
            running := Function.update s.running t none })
        | _ => none
    | .environment n => some (.environment n, { s with shared := env n s.shared })

/-- Operations that each take effect in one step. -/
def atomic (effect : ω → σ → ρ × σ) (s : σ) (env : ν → σ → σ) :
    System (AtomicState τ σ ω ρ) (CallAction τ ω ν) (CallEvent τ ω ρ ν) where
  init := ⟨s, fun _ => .idle⟩
  step s
    | .invoke t op =>
        match s.phase t with
        | .idle => some (.invoked t op, { s with
            phase := Function.update s.phase t (.invoked op) })
        | _ => none
    | .step t =>
        match s.phase t with
        | .invoked op =>
            let r := effect op s.shared
            some (.stepped, ⟨r.2, Function.update s.phase t (.done r.1)⟩)
        | _ => none
    | .finish t =>
        match s.phase t with
        | .done r => some (.returned t r, { s with
            phase := Function.update s.phase t .idle })
        | _ => none
    | .environment n => some (.environment n, { s with shared := env n s.shared })

section Steps

variable {effect : ω → σ → ρ × σ} {s₀ : σ} {env : ν → σ → σ} {s : AtomicState τ σ ω ρ} {t : τ}

theorem atomic_invoke (h : s.phase t = .idle) (op : ω) :
    (atomic effect s₀ env).step s (.invoke t op) = some (.invoked t op, { s with
      phase := Function.update s.phase t (.invoked op) }) := by
  simp only [atomic, h]

theorem atomic_step {op : ω} (h : s.phase t = .invoked op) :
    (atomic effect s₀ env).step s (.step t) = some (.stepped, ⟨(effect op s.shared).2,
      Function.update s.phase t (.done (effect op s.shared).1)⟩) := by
  simp only [atomic, h]

theorem atomic_finish {r : ρ} (h : s.phase t = .done r) :
    (atomic effect s₀ env).step s (.finish t) = some (.returned t r, { s with
      phase := Function.update s.phase t .idle }) := by
  simp only [atomic, h]

theorem atomic_environment (n : ν) :
    (atomic effect s₀ env).step s (.environment n) =
      some (.environment n, { s with shared := env n s.shared }) := rfl

end Steps

/-! ## Operations with one call on what is shared -/

/-- What is left of an operation, and where the atomic one is: not in effect as long as
the call on what is shared may still come, done once it has been made. -/
inductive Agrees (O : Object I J σ π ω β ρ) : Option (Running I J π ω β) → Phase ω ρ → Prop
  | idle : Agrees O none .idle
  | before {op : ω} {p : Prog (I.sum J) β} {memory : π} : p.AtMost Sum.isLeft 1 →
      (∀ s, O.outcome op (p.exec (O.shared.sum O.own) (s, memory)) = O.effect op s) →
      Agrees O (some ⟨op, p, memory⟩) (.invoked op)
  | after {op : ω} {p : Prog (I.sum J) β} {memory : π} {r : ρ} : p.AtMost Sum.isLeft 0 →
      (∀ s, O.outcome op (p.exec (O.shared.sum O.own) (s, memory)) = (r, s)) →
      Agrees O (some ⟨op, p, memory⟩) (.done r)

/-- The threads and the atomic operations, thread by thread. -/
def AgreesWith (O : Object I J σ π ω β ρ) (s : ThreadState I J τ σ π ω β)
    (t : AtomicState τ σ ω ρ) : Prop :=
  s.shared = t.shared ∧ ∀ u, Agrees O (s.running u) (t.phase u)

theorem agrees_update {O : Object I J σ π ω β ρ} {running : τ → Option (Running I J π ω β)}
    {phase : τ → Phase ω ρ} (h : ∀ u, Agrees O (running u) (phase u)) {t : τ}
    {x : Option (Running I J π ω β)} {y : Phase ω ρ} (hxy : Agrees O x y) (u : τ) :
    Agrees O (Function.update running t x u) (Function.update phase t y u) := by
  by_cases hu : u = t
  · subst hu
    rw [Function.update_self, Function.update_self]
    exact hxy
  · rw [Function.update_of_ne hu, Function.update_of_ne hu]
    exact h u

/-- A call on what is shared is where the operation takes effect. -/
theorem agrees_shared_call {O : Object I J σ π ω β ρ} {op : ω} {c : I.Call}
    {k : I.Reply c → Prog (I.sum J) β} {memory : π} {s : σ}
    (hone : (Prog.call (I := I.sum J) (.inl c) k).AtMost Sum.isLeft 1)
    (hout : O.outcome op ((Prog.call (I := I.sum J) (.inl c) k).exec (O.shared.sum O.own)
      (s, memory)) = O.effect op s) :
    (O.effect op s).2 = (O.shared c s).2 ∧
      Agrees O (some ⟨op, k (O.shared c s).1, memory⟩) (.done (O.effect op s).1) := by
  have hrest : (k (O.shared c s).1).AtMost Sum.isLeft 0 := hone.2 _
  obtain ⟨b, memory', hexec⟩ := Prog.exec_of_atMost_zero O.shared O.own hrest memory
  have hcall : (Prog.call (I := I.sum J) (.inl c) k).exec (O.shared.sum O.own) (s, memory) =
      (b, ((O.shared c s).2, memory')) := hexec _
  rw [hcall] at hout
  rw [← hout]
  refine ⟨rfl, .after hrest fun s' => ?_⟩
  rw [hexec s']
  rfl

theorem Agrees.own_call {O : Object I J σ π ω β ρ} {op : ω} {c : J.Call}
    {k : J.Reply c → Prog (I.sum J) β} {memory : π} {phase : Phase ω ρ}
    (h : Agrees O (some ⟨op, Prog.call (I := I.sum J) (.inr c) k, memory⟩) phase) :
    Agrees O (some ⟨op, k (O.own c memory).1, (O.own c memory).2⟩) phase := by
  cases h with
  | before hp hout => exact .before (hp (O.own c memory).1) hout
  | after hp hout => exact .after (hp (O.own c memory).1) hout

/-- What the threads see of operations with one call on what is shared each, they may
see of atomic ones. -/
theorem Object.simulation (O : Object I J σ π ω β ρ) (s₀ : σ) (env : ν → σ → σ)
    (hone : ∀ op, (O.program op).AtMost Sum.isLeft 1) :
    Simulation (O.threads (τ := τ) s₀ env) (fun _ _ _ => True) (atomic O.effect s₀ env)
      CallEvent.seen CallEvent.seen (AgreesWith O) where
  init := ⟨rfl, fun _ => .idle⟩
  step {log s s' a e log' t} _ _ hR _ hs := by
    obtain ⟨hshared, hphase⟩ := hR
    cases a with
    | invoke u op =>
        simp only [Object.threads] at hs
        have hu := hphase u
        split at hs
        · next hnone =>
            cases hs
            rw [hnone] at hu
            cases hidle : t.phase u with
            | idle =>
                refine ⟨_, _, .single (atomic_invoke hidle op), rfl, hshared,
                  agrees_update hphase (.before (hone op) fun _ => rfl)⟩
            | invoked | done => rw [hidle] at hu; cases hu
        · cases hs
    | step u =>
        simp only [Object.threads] at hs
        have hu := hphase u
        split at hs
        · next op c k memory hrun =>
            cases hs
            rw [hrun] at hu
            rcases c with c | c
            · generalize ht : t.phase u = y at hu
              cases hu with
              | before hp hout =>
                  obtain ⟨heffect, hagrees⟩ := agrees_shared_call hp (hout s.shared)
                  rw [hshared] at heffect hagrees
                  refine ⟨_, _, .single (atomic_step ht), rfl, ?_, ?_⟩
                  · rw [hshared]
                    exact heffect.symm
                  · rw [hshared]
                    exact agrees_update hphase hagrees
              | after hp hout => exact absurd hp.1 (Nat.lt_irrefl 0)
            · refine ⟨[], t, .refl, rfl, hshared, ?_⟩
              have hagrees := agrees_update hphase (t := u) hu.own_call
              rwa [Function.update_eq_self] at hagrees
        · cases hs
    | finish u =>
        simp only [Object.threads] at hs
        have hu := hphase u
        split at hs
        · next op b memory hrun =>
            cases hs
            rw [hrun] at hu
            generalize ht : t.phase u = y at hu
            cases hu with
            | before hp hout =>
                have heffect : O.effect op t.shared = (O.result op b memory, t.shared) :=
                  (hout t.shared).symm
                have hstep : (atomic O.effect s₀ env).step t (.step u) =
                    some (.stepped, ⟨(O.effect op t.shared).2,
                      Function.update t.phase u (.done (O.effect op t.shared).1)⟩) :=
                  atomic_step ht
                rw [heffect] at hstep
                have hdone : Function.update t.phase u (.done (O.result op b memory)) u =
                    .done (O.result op b memory) := Function.update_self u _ _
                refine ⟨_, _, .two hstep (atomic_finish hdone), rfl, hshared, ?_⟩
                rw [Function.update_idem]
                exact agrees_update hphase .idle
            | after hp hout =>
                have hresult : O.result op b memory = _ := congrArg Prod.fst (hout s.shared)
                rw [hresult]
                exact ⟨_, _, .single (atomic_finish ht), rfl, hshared,
                  agrees_update hphase .idle⟩
        · cases hs
    | environment n =>
        cases hs
        exact ⟨_, _, .single (atomic_environment n), rfl, congrArg (env n) hshared, hphase⟩

/-! ## Operations that refine others -/

/-- Only operations that satisfy `valid` are under way and not in effect yet. -/
def PendingValid (valid : ω → Prop) (phase : τ → Phase ω ρ) : Prop :=
  ∀ t op, phase t = .invoked op → valid op

theorem PendingValid.update {valid : ω → Prop} {phase : τ → Phase ω ρ}
    (h : PendingValid valid phase) {t : τ} {x : Phase ω ρ}
    (hx : ∀ op, x = .invoked op → valid op) :
    PendingValid valid (Function.update phase t x) := by
  intro u op hu
  by_cases hut : u = t
  · subst hut
    rw [Function.update_self] at hu
    exact hx op hu
  · rw [Function.update_of_ne hut] at hu
    exact h u op hu

/-- Only operations that satisfy `valid` are invoked. -/
def InvokesValid {ε σ' : Type} (valid : ω → Prop) (_ : List ε) (_ : σ') :
    CallAction τ ω ν → Prop
  | .invoke _ op => valid op
  | _ => True

omit [DecidableEq τ] in
theorem invoked_mem_seen {log : List (CallEvent τ ω ρ ν)} {t : τ} {op : ω} :
    CallEvent.invoked t op ∈ log.filterMap CallEvent.seen ↔ CallEvent.invoked t op ∈ log := by
  rw [List.mem_filterMap]
  constructor
  · rintro ⟨e, he, hseen⟩
    cases e <;> cases hseen
    exact he
  · exact fun h => ⟨_, h, rfl⟩

theorem valid_of_invoked {O : Object I J σ π ω β ρ} {s₀ : σ} {env : ν → σ → σ} {valid : ω → Prop}
    {log : List (CallEvent τ ω ρ ν)} {s : ThreadState I J τ σ π ω β}
    (h : RunWhere (O.threads s₀ env) (InvokesValid valid) log s) {t : τ} {op : ω}
    (hop : CallEvent.invoked t op ∈ log) : valid op := by
  induction h with
  | init => cases hop
  | @step log s s' a e _ hG hs ih =>
      rcases List.mem_cons.mp hop with rfl | hop
      · cases a with
        | invoke u op' =>
            simp only [Object.threads] at hs
            split at hs <;> cases hs
            exact hG
        | step u | finish u =>
            simp only [Object.threads] at hs
            split at hs <;> cases hs
        | environment n => cases hs
      · exact ih hop

theorem runWhere_of_invoked {effect : ω → σ → ρ × σ} {s₀ : σ} {env : ν → σ → σ} {valid : ω → Prop}
    {log : List (CallEvent τ ω ρ ν)} {s : AtomicState τ σ ω ρ}
    (h : Run (atomic effect s₀ env) log s) (hvalid : ∀ t op, .invoked t op ∈ log → valid op) :
    RunWhere (atomic effect s₀ env) (InvokesValid valid) log s := by
  induction h with
  | init => exact .init
  | @step log s s' a e _ _ hs ih =>
      refine (ih fun t op hop => hvalid t op (List.mem_cons_of_mem _ hop)).step ?_ hs
      cases a with
      | invoke u op =>
          simp only [atomic] at hs
          split at hs <;> cases hs
          exact hvalid u op List.mem_cons_self
      | step | finish | environment => trivial

instance {ε σ' : Type} (valid : ω → Prop) [DecidablePred valid] (log : List ε) (s : σ') :
    DecidablePred (InvokesValid (τ := τ) (ν := ν) valid log s)
  | .invoke _ op => inferInstanceAs (Decidable (valid op))
  | .step _ | .finish _ | .environment _ => isTrue trivial

/-- Atomic operations whose effects agree, on states in the relation `S`, look alike. -/
theorem simulation_atomic {σ' : Type} {effect : ω → σ → ρ × σ} {effect' : ω → σ' → ρ × σ'}
    {s₀ : σ} {s₀' : σ'} {env : ν → σ → σ} {env' : ν → σ' → σ'} {valid : ω → Prop}
    {S : σ → σ' → Prop} (hinit : S s₀ s₀') (henv : ∀ n s s', S s s' → S (env n s) (env' n s'))
    (heffect : ∀ op s s', valid op → S s s' →
      (effect op s).1 = (effect' op s').1 ∧ S (effect op s).2 (effect' op s').2) :
    Simulation (atomic (τ := τ) effect s₀ env) (InvokesValid valid) (atomic effect' s₀' env')
      CallEvent.seen CallEvent.seen fun s s' =>
        S s.shared s'.shared ∧ s.phase = s'.phase ∧ PendingValid valid s.phase where
  init := ⟨hinit, rfl, fun _ _ h => by cases h⟩
  step {log s s' a e log' t} _ _ hR hG hs := by
    obtain ⟨hS, hphase, hvalid⟩ := hR
    cases a with
    | invoke u op =>
        simp only [atomic] at hs
        split at hs
        · next hidle =>
            cases hs
            refine ⟨_, _, .single (atomic_invoke (hphase ▸ hidle) op), rfl, hS, by rw [hphase],
              hvalid.update fun op' h => ?_⟩
            cases h
            exact hG
        · cases hs
    | step u =>
        simp only [atomic] at hs
        split at hs
        · next op hop =>
            cases hs
            obtain ⟨hresult, hS'⟩ := heffect op s.shared t.shared (hvalid u op hop) hS
            refine ⟨_, _, .single (atomic_step (hphase ▸ hop)), rfl, hS', ?_,
              hvalid.update fun _ h => by cases h⟩
            rw [hphase, hresult]
        · cases hs
    | finish u =>
        simp only [atomic] at hs
        split at hs
        · next r hdone =>
            cases hs
            exact ⟨_, _, .single (atomic_finish (hphase ▸ hdone)), rfl, hS, by rw [hphase],
              hvalid.update fun _ h => by cases h⟩
        · cases hs
    | environment n =>
        cases hs
        exact ⟨_, _, .single (atomic_environment n), rfl, henv n _ _ hS, hphase, hvalid⟩

end Aiowdm.Lib
