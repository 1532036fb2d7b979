import Mathlib.Logic.Basic
import Mathlib.Tactic.Common

/-!
# Programs over an interface

Code that does nothing but call an interface and branch on the replies is a
tree: `Prog I α`.  A handler gives the calls a meaning over some state, so one
program text can be run against a register file, replayed against a recorder,
or inspected for the calls it can make at all.
-/

namespace Aiowdm.Lib

/-- The calls a program may make, with the type of each reply. -/
structure Interface where
  Call : Type
  Reply : Call → Type

/-- A program that makes calls of `I` and ends with a value of type `α`. -/
inductive Prog (I : Interface) (α : Type) where
  | ret (a : α)
  | call (c : I.Call) (k : I.Reply c → Prog I α)

/-- What every call does to a state `σ`, and the reply it gets there. -/
def Handler (I : Interface) (σ : Type) : Type :=
  (c : I.Call) → σ → I.Reply c × σ

def Handler.record {I : Interface} {σ : Type} (h : Handler I σ) : Handler I (σ × List I.Call) :=
  fun c s => ((h c s.1).1, ((h c s.1).2, s.2 ++ [c]))

/-- `h`, keeping each call with the answer it got. -/
def Handler.trace {I : Interface} {σ : Type} (h : Handler I σ) :
    Handler I (σ × List ((c : I.Call) × I.Reply c)) :=
  fun c s => ((h c s.1).1, ((h c s.1).2, s.2 ++ [⟨c, (h c s.1).1⟩]))

theorem Handler.trace_of_eq {I : Interface} {σ : Type} {h : Handler I σ} {c : I.Call} {s s' : σ}
    {r : I.Reply c} (hc : h c s = (r, s')) (log : List ((c : I.Call) × I.Reply c)) :
    h.trace c (s, log) = (r, (s', log ++ [⟨c, r⟩])) := by
  simp only [Handler.trace, hc]

namespace Prog

variable {I J : Interface} {α β γ σ τ : Type}

def bind : Prog I α → (α → Prog I β) → Prog I β
  | ret a, f => f a
  | call c k, f => call c fun r => (k r).bind f

instance : Monad (Prog I) where
  pure := ret
  bind := bind

def perform (c : I.Call) : Prog I (I.Reply c) := call c ret

@[simp] theorem pure_eq_ret (a : α) : (pure a : Prog I α) = ret a := rfl

@[simp] theorem ret_bind (a : α) (f : α → Prog I β) : (ret a >>= f) = f a := rfl

@[simp] theorem call_bind (c : I.Call) (k : I.Reply c → Prog I α) (f : α → Prog I β) :
    (call c k >>= f) = call c fun r => k r >>= f := rfl

@[simp] theorem perform_bind (c : I.Call) (f : I.Reply c → Prog I β) :
    (perform c >>= f) = call c f := rfl

theorem bind_ret (p : Prog I α) : (p >>= ret) = p := by
  induction p with
  | ret a => rfl
  | call c k ih => simp only [call_bind, ih]

theorem bind_assoc (p : Prog I α) (f : α → Prog I β) (g : β → Prog I γ) :
    (p >>= f >>= g) = p >>= fun a => f a >>= g := by
  induction p with
  | ret a => rfl
  | call c k ih => simp only [call_bind, ih]

def guarded (c : Bool) (p : Prog I Unit) : Prog I Unit :=
  bif c then p else ret ()

/-! ## Running a program -/

def exec (h : Handler I σ) : Prog I α → σ → α × σ
  | ret a, s => (a, s)
  | call c k, s => exec h (k (h c s).1) (h c s).2

@[simp] theorem exec_ret (h : Handler I σ) (a : α) (s : σ) :
    exec h (ret a) s = (a, s) := rfl

@[simp] theorem exec_call (h : Handler I σ) (c : I.Call) (k : I.Reply c → Prog I α) (s : σ) :
    exec h (call c k) s = exec h (k (h c s).1) (h c s).2 := rfl

@[simp] theorem exec_perform (h : Handler I σ) (c : I.Call) (s : σ) :
    exec h (perform c) s = h c s := rfl

@[simp] theorem exec_bind (h : Handler I σ) (p : Prog I α) (f : α → Prog I β) (s : σ) :
    exec h (p >>= f) s = exec h (f (exec h p s).1) (exec h p s).2 := by
  induction p generalizing s with
  | ret a => rfl
  | call c k ih => exact ih _ _

@[simp] theorem exec_ite (h : Handler I σ) (c : Prop) {_ : Decidable c} (p q : Prog I α) (s : σ) :
    exec h (if c then p else q) s = if c then exec h p s else exec h q s :=
  apply_ite (exec h · s) c p q

@[simp] theorem exec_guarded (h : Handler I σ) (c : Bool) (p : Prog I Unit) (s : σ) :
    exec h (guarded c p) s = bif c then exec h p s else ((), s) := by
  cases c <;> rfl

def calls (h : Handler I σ) : Prog I α → σ → List I.Call
  | ret _, _ => []
  | call c k, s => c :: calls h (k (h c s).1) (h c s).2

@[simp] theorem calls_ret (h : Handler I σ) (a : α) (s : σ) :
    calls h (ret a) s = [] := rfl

@[simp] theorem calls_call (h : Handler I σ) (c : I.Call) (k : I.Reply c → Prog I α) (s : σ) :
    calls h (call c k) s = c :: calls h (k (h c s).1) (h c s).2 := rfl

@[simp] theorem calls_perform (h : Handler I σ) (c : I.Call) (s : σ) :
    calls h (perform c) s = [c] := rfl

@[simp] theorem calls_bind (h : Handler I σ) (p : Prog I α) (f : α → Prog I β) (s : σ) :
    calls h (p >>= f) s = calls h p s ++ calls h (f (exec h p s).1) (exec h p s).2 := by
  induction p generalizing s with
  | ret a => rfl
  | call c k ih =>
      simp only [call_bind, calls_call, exec_call, List.cons_append]
      rw [ih]

@[simp] theorem exec_record (h : Handler I σ) (p : Prog I α) (s : σ × List I.Call) :
    exec h.record p s = ((exec h p s.1).1, ((exec h p s.1).2, s.2 ++ calls h p s.1)) := by
  induction p generalizing s with
  | ret a => simp
  | call c k ih =>
      rw [exec_call, ih]
      simp [Handler.record]

/-! ## What every path of a program does -/

/-- Every call on every path of the program satisfies `P`, whatever the replies. -/
def Every (P : I.Call → Prop) : Prog I α → Prop
  | ret _ => True
  | call c k => P c ∧ ∀ r, Every P (k r)

@[simp] theorem every_ret (P : I.Call → Prop) (a : α) :
    Every P (ret a : Prog I α) := trivial

@[simp] theorem every_call {P : I.Call → Prop} {c : I.Call} {k : I.Reply c → Prog I α} :
    Every P (call c k) ↔ P c ∧ ∀ r, Every P (k r) := Iff.rfl

@[simp] theorem every_perform {P : I.Call → Prop} {c : I.Call} :
    Every P (perform c) ↔ P c := by
  simp [perform]

theorem Every.bind {P : I.Call → Prop} {p : Prog I α} {f : α → Prog I β}
    (hp : Every P p) (hf : ∀ a, Every P (f a)) : Every P (p >>= f) := by
  induction p with
  | ret a => exact hf a
  | call c k ih => exact ⟨hp.1, fun r => ih r (hp.2 r)⟩

theorem Every.of_bind {P : I.Call → Prop} {p : Prog I α} {f : α → Prog I β}
    (h : Every P (p >>= f)) : Every P p := by
  induction p with
  | ret a => trivial
  | call c k ih => exact ⟨h.1, fun r => ih r (h.2 r)⟩

theorem every_seq_iff [∀ c, Nonempty (I.Reply c)] {P : I.Call → Prop} {p : Prog I α}
    {q : Prog I β} : Every P (p >>= fun _ => q) ↔ Every P p ∧ Every P q := by
  induction p with
  | ret a => exact (and_iff_right trivial).symm
  | call c k ih =>
      rw [call_bind, every_call, every_call, and_assoc, and_congr_right_iff]
      intro _
      rw [forall_congr' ih, forall_and, forall_const]

theorem Every.perform {P : I.Call → Prop} {c : I.Call} (hc : P c) : Every P (perform c) :=
  every_perform.mpr hc

theorem Every.perform_bind {P : I.Call → Prop} {c : I.Call} {f : I.Reply c → Prog I α}
    (hc : P c) (hf : ∀ r, Every P (f r)) : Every P (Prog.perform c >>= f) :=
  ⟨hc, hf⟩

theorem Every.guarded {P : I.Call → Prop} {c : Bool} {p : Prog I Unit} (hp : Every P p) :
    Every P (guarded c p) := by
  cases c with
  | false => trivial
  | true => exact hp

theorem Every.mono {P Q : I.Call → Prop} (hPQ : ∀ c, P c → Q c) {p : Prog I α}
    (hp : Every P p) : Every Q p := by
  induction p with
  | ret a => trivial
  | call c k ih => exact ⟨hPQ c hp.1, fun r => ih r (hp.2 r)⟩

theorem Every.of_forall {P : I.Call → Prop} (h : ∀ c, P c) (p : Prog I α) : Every P p := by
  induction p with
  | ret a => trivial
  | call c k ih => exact ⟨h c, ih⟩

/-- The frame rule: what no call of the program changes, the program keeps. -/
theorem Every.exec_invariant {P : I.Call → Prop} {h : Handler I σ} {Q : σ → Prop}
    {p : Prog I α} (hp : Every P p)
    (hstep : ∀ c s, P c → Q s → Q (h c s).2) {s : σ} (hs : Q s) :
    Q (exec h p s).2 := by
  induction p generalizing s with
  | ret a => exact hs
  | call c k ih => exact ih _ (hp.2 _) (hstep c s hp.1 hs)

theorem Every.exec_related {P : I.Call → Prop} {h : Handler I σ} {g : Handler I τ}
    {R : σ → τ → Prop} {p : Prog I α} (hp : Every P p)
    (hstep : ∀ c s t, P c → R s t → (h c s).1 = (g c t).1 ∧ R (h c s).2 (g c t).2)
    {s : σ} {t : τ} (hR : R s t) :
    (exec h p s).1 = (exec g p t).1 ∧ R (exec h p s).2 (exec g p t).2 := by
  induction p generalizing s t with
  | ret a => exact ⟨rfl, hR⟩
  | call c k ih =>
      obtain ⟨hreply, hnext⟩ := hstep c s t hp.1 hR
      rw [exec_call, exec_call, ← hreply]
      exact ih _ (hp.2 _) hnext

/-- Every path of the program makes a call that satisfies `P`. -/
def Makes (P : I.Call → Prop) : Prog I α → Prop
  | ret _ => False
  | call c k => P c ∨ ∀ r, Makes P (k r)

theorem Makes.bind_left {P : I.Call → Prop} {p : Prog I α} (hp : Makes P p) (f : α → Prog I β) :
    Makes P (p >>= f) := by
  induction p with
  | ret a => exact hp.elim
  | call c k ih => exact hp.imp id fun hk r => ih r (hk r)

theorem Makes.bind_right {P : I.Call → Prop} (p : Prog I α) {f : α → Prog I β}
    (hf : ∀ a, Makes P (f a)) : Makes P (p >>= f) := by
  induction p with
  | ret a => exact hf a
  | call c k ih => exact .inr fun r => ih r

theorem Makes.exists_mem_calls {P : I.Call → Prop} {p : Prog I α} (hp : Makes P p)
    (h : Handler I σ) (s : σ) : ∃ c ∈ calls h p s, P c := by
  induction p generalizing s with
  | ret a => exact hp.elim
  | call c k ih =>
      rw [calls_call]
      rcases hp with hc | hk
      · exact ⟨c, List.mem_cons_self, hc⟩
      · obtain ⟨d, hd, hPd⟩ := ih _ (hk _) (h c s).2
        exact ⟨d, List.mem_cons_of_mem c hd, hPd⟩

theorem Every.of_mem_calls {P : I.Call → Prop} {p : Prog I α} (hp : Every P p)
    (h : Handler I σ) {s : σ} {c : I.Call} (hc : c ∈ calls h p s) : P c := by
  induction p generalizing s with
  | ret a => cases hc
  | call d k ih =>
      rcases List.mem_cons.mp hc with rfl | hc
      · exact hp.1
      · exact ih _ (hp.2 _) hc

end Prog

/-! ## Protocols -/

/-- Which calls are permitted where, and where each reply leads. -/
structure Protocol (I : Interface) (S : Type) where
  Permits : S → I.Call → Prop
  next : S → (c : I.Call) → I.Reply c → S

namespace Prog

variable {I : Interface} {α β S : Type} {P : Protocol I S}

/-- From `s` on, every path makes only permitted calls and ends where `Q` holds. -/
def Follows (P : Protocol I S) (Q : α → S → Prop) : S → Prog I α → Prop
  | s, ret a => Q a s
  | s, call c k => P.Permits s c ∧ ∀ r, Follows P Q (P.next s c r) (k r)

theorem Follows.bind {Q : β → S → Prop} {s : S} {p : Prog I α} {f : α → Prog I β}
    (hp : Follows P (fun a t => Follows P Q t (f a)) s p) : Follows P Q s (p >>= f) := by
  induction p generalizing s with
  | ret a => exact hp
  | call c k ih => exact ⟨hp.1, fun r => ih r (hp.2 r)⟩

theorem Follows.perform_bind {Q : β → S → Prop} {s : S} {c : I.Call} {f : I.Reply c → Prog I β}
    (hc : P.Permits s c) (hf : ∀ r, Follows P Q (P.next s c r) (f r)) :
    Follows P Q s (Prog.perform c >>= f) :=
  ⟨hc, hf⟩

theorem Follows.guarded {Q : Unit → S → Prop} {s : S} {c : Bool} {p : Prog I Unit}
    (hp : Follows P Q s p) (hQ : Q () s) : Follows P Q s (guarded c p) := by
  cases c with
  | false => exact hQ
  | true => exact hp

theorem Follows.of_every {Q : α → S → Prop} {s : S} {p : Prog I α}
    (hp : Every (fun c => P.Permits s c ∧ ∀ r, P.next s c r = s) p) (hQ : ∀ a, Q a s) :
    Follows P Q s p := by
  induction p with
  | ret a => exact hQ a
  | call c k ih =>
      refine ⟨hp.1.1, fun r => ?_⟩
      rw [hp.1.2 r]
      exact ih r (hp.2 r)

end Prog

/-! ## Two interfaces side by side -/

namespace Interface

/-- The calls of `I` together with those of `J`. -/
def sum (I J : Interface) : Interface where
  Call := I.Call ⊕ J.Call
  Reply := Sum.elim I.Reply J.Reply

end Interface

/-- Each half of a state is served by its own handler. -/
def Handler.sum {I J : Interface} {σ τ : Type} (h : Handler I σ) (g : Handler J τ) :
    Handler (I.sum J) (σ × τ)
  | .inl c, s => ((h c s.1).1, ((h c s.1).2, s.2))
  | .inr c, s => ((g c s.2).1, (s.1, (g c s.2).2))

namespace Prog

variable {I J : Interface} {α σ τ : Type}

def inl : Prog I α → Prog (I.sum J) α
  | ret a => ret a
  | call c k => call (I := I.sum J) (.inl c) fun r => (k r).inl

def inr : Prog J α → Prog (I.sum J) α
  | ret a => ret a
  | call c k => call (I := I.sum J) (.inr c) fun r => (k r).inr

theorem inl_bind {β : Type} (p : Prog I α) (f : α → Prog I β) :
    (p >>= f).inl (J := J) = p.inl >>= fun a => (f a).inl := by
  induction p with
  | ret a => rfl
  | call c k ih => exact congrArg (call (I := I.sum J) (.inl c)) (funext fun r => ih r)

theorem every_inl_iff {P : (I.sum J).Call → Prop} {p : Prog I α} :
    Every P (p.inl (J := J)) ↔ Every (fun c => P (.inl c)) p := by
  induction p with
  | ret a => exact Iff.rfl
  | call c k ih => exact and_congr_right fun _ => forall_congr' fun r => ih r

theorem Every.inr {P : (I.sum J).Call → Prop} {p : Prog J α}
    (hp : Every (fun c => P (.inr c)) p) : Every P p.inr := by
  induction p with
  | ret a => trivial
  | call c k ih => exact ⟨hp.1, fun r => ih r (hp.2 r)⟩

@[simp] theorem exec_inl (h : Handler I σ) (g : Handler J τ) (p : Prog I α) (s : σ × τ) :
    exec (h.sum g) p.inl s = ((exec h p s.1).1, ((exec h p s.1).2, s.2)) := by
  induction p generalizing s with
  | ret a => rfl
  | call c k ih => exact ih _ _

@[simp] theorem exec_inr (h : Handler I σ) (g : Handler J τ) (p : Prog J α) (s : σ × τ) :
    exec (h.sum g) p.inr s = ((exec g p s.2).1, (s.1, (exec g p s.2).2)) := by
  induction p generalizing s with
  | ret a => rfl
  | call c k ih => exact ih _ _

@[simp] theorem calls_inl (h : Handler I σ) (g : Handler J τ) (p : Prog I α) (s : σ × τ) :
    calls (h.sum g) p.inl s = (calls h p s.1).map .inl := by
  induction p generalizing s with
  | ret a => rfl
  | call c k ih => exact congrArg (_ :: ·) (ih _ _)

@[simp] theorem calls_inr (h : Handler I σ) (g : Handler J τ) (p : Prog J α) (s : σ × τ) :
    calls (h.sum g) p.inr s = (calls g p s.2).map .inr := by
  induction p generalizing s with
  | ret a => rfl
  | call c k ih => exact congrArg (_ :: ·) (ih _ _)

end Prog

end Aiowdm.Lib
