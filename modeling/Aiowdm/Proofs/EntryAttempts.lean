import Aiowdm.Library.Cards

/-!
# What the scan is answered

`AiowdmInit` asks the system about one directory entry after another.  Apart from
the bound of the array, an entry is these calls followed by a store that depends
on the answers only.
-/

namespace Aiowdm.Proofs.EntryAttempts

open Aiowdm.Lib Aiowdm.Driver.Probe Aiowdm.Library.Cards
open Aiowdm.Driver.DescriptorGet (CardDescriptor)

inductive Attempt where
  | notOpened (name : String) (fd : Int)
  | opened (name : String) (fd : Int) (allocated : Bool) (status : Int) (contents : CardDescriptor)

namespace Attempt

def name : Attempt → String
  | .notOpened name _ | .opened name _ _ _ _ => name

def IsOpened : Attempt → Prop
  | .notOpened _ _ => False
  | .opened _ _ _ _ _ => True

def Succeeded : Attempt → Prop
  | .notOpened _ _ => False
  | .opened _ _ _ status _ => status = 0

theorem Succeeded.isOpened {a : Attempt} (h : a.Succeeded) : a.IsOpened := by
  cases a with
  | notOpened name fd => exact h.elim
  | opened name fd allocated status contents => trivial

instance : DecidablePred IsOpened
  | .notOpened _ _ => isFalse id
  | .opened _ _ _ _ _ => isTrue trivial

instance : DecidablePred Succeeded
  | .notOpened _ _ => isFalse id
  | .opened _ _ _ status _ => inferInstanceAs (Decidable (status = 0))

def calls : Attempt → List ((c : sys.Call) × sys.Reply c)
  | .notOpened name fd => [⟨.openNode (devPath name), fd⟩]
  | .opened name fd allocated status contents =>
      [⟨.openNode (devPath name), fd⟩, ⟨.malloc, allocated⟩,
        ⟨.cardDescriptorGet fd allocated, (status, contents)⟩]

def apply (lib : Statics) : Attempt → Statics
  | .notOpened _ fd => lib.setCard { lib.cards lib.numCards.toNat with fd }
  | .opened _ fd allocated status contents =>
      let lib := lib.setCard ⟨fd, if allocated then some contents else none⟩
      if status ≠ 0 then lib else { lib with numCards := lib.numCards + 1 }

end Attempt

def attempt (name : String) : Prog sys Attempt := do
  let fd ← openNode (devPath name)
  if fd < 0 then
    return .notOpened name fd
  let allocated ← malloc
  let (status, contents) ← cardDescriptorGet fd allocated
  return .opened name fd allocated status contents

def attempts : List String → Prog sys (List Attempt)
  | [] => return []
  | name :: names => do
      if hasPci name = false then
        attempts names
      else
        let first ← attempt name
        let rest ← attempts names
        return first :: rest

private theorem aiowdmInitEntry_eq {lib : Statics} {name : String} (hpci : hasPci name)
    (hroom : lib.numCards.toNat < 32) :
    aiowdmInitEntry lib name = (attempt name >>= fun a => return .returned (a.apply lib)) := by
  have hnot : ¬32 ≤ lib.numCards.toNat := by omega
  simp only [aiowdmInitEntry, attempt, hpci, Bool.true_eq_false, if_false, hnot, Prog.bind_assoc]
  refine congrArg (openNode (devPath name) >>= ·) (funext fun fd => ?_)
  by_cases hneg : fd < 0
  · simp only [hneg, if_true]
    rfl
  · simp only [hneg, if_false]
    refine congrArg (malloc >>= ·) (funext fun allocated => ?_)
    refine congrArg (cardDescriptorGet fd allocated >>= ·) (funext fun answer => ?_)
    by_cases hstatus : answer.1 = 0 <;> simp [hstatus, Attempt.apply]

private theorem aiowdmInitEntry_full {lib : Statics} {name : String} (hpci : hasPci name)
    (hfull : 32 ≤ lib.numCards.toNat) :
    aiowdmInitEntry lib name = (openNode (devPath name) >>= fun _ => return .undefined) := by
  simp only [aiowdmInitEntry, hpci, Bool.true_eq_false, if_false, hfull, if_true]

private theorem aiowdmInitEntry_skipped {lib : Statics} {name : String}
    (hpci : hasPci name = false) :
    aiowdmInitEntry lib name = pure (.returned lib) := by
  simp [aiowdmInitEntry, hpci]

theorem attempts_skipped {name : String} (names : List String) (hpci : hasPci name = false) :
    attempts (name :: names) = attempts names := by
  simp only [attempts, hpci, if_true]

/-! ## The answers of a system -/

variable {τ : Type} (h : Handler sys τ) (t : τ) {lib : Statics}

theorem exec_attempts_cons {name : String} (names : List String) (hpci : hasPci name) :
    (attempts (name :: names)).exec h t =
      (((attempt name).exec h t).1 :: ((attempts names).exec h ((attempt name).exec h t).2).1,
        ((attempts names).exec h ((attempt name).exec h t).2).2) := by
  simp only [attempts, hpci, Bool.true_eq_false, if_false, Prog.exec_bind, Prog.pure_eq_ret,
    Prog.exec_ret]

section

variable {h t} {name : String} {fd status : Int} {allocated : Bool} {contents : CardDescriptor}
variable {t₁ t₂ t₃ : τ}

theorem exec_attempt_notOpened (hopen : h (.openNode (devPath name)) t = (fd, t₁))
    (hneg : fd < 0) : (attempt name).exec h t = (.notOpened name fd, t₁) := by
  simp only [attempt, Prog.exec_bind, exec_openNode, hopen, hneg, if_true, Prog.pure_eq_ret,
    Prog.exec_ret]

theorem exec_attempt_opened (hopen : h (.openNode (devPath name)) t = (fd, t₁))
    (hneg : ¬fd < 0) (hmalloc : h .malloc t₁ = (allocated, t₂))
    (hget : h (.cardDescriptorGet fd allocated) t₂ = ((status, contents), t₃)) :
    (attempt name).exec h t = (.opened name fd allocated status contents, t₃) := by
  simp only [attempt, Prog.exec_bind, exec_openNode, hopen, hneg, if_false, exec_malloc, hmalloc,
    exec_cardDescriptorGet, hget, Prog.pure_eq_ret, Prog.exec_ret]

end

theorem exec_attempt_cases (name : String) :
    (∃ (fd : Int) (t₁ : τ), h (.openNode (devPath name)) t = (fd, t₁) ∧ fd < 0) ∨
      ∃ (fd status : Int) (allocated : Bool) (contents : CardDescriptor) (t₁ t₂ t₃ : τ),
        h (.openNode (devPath name)) t = (fd, t₁) ∧ ¬fd < 0 ∧ h .malloc t₁ = (allocated, t₂) ∧
          h (.cardDescriptorGet fd allocated) t₂ = ((status, contents), t₃) := by
  obtain ⟨fd, t₁, hopen⟩ : ∃ (fd : Int) (t₁ : τ), h (.openNode (devPath name)) t = (fd, t₁) :=
    ⟨_, _, rfl⟩
  by_cases hneg : fd < 0
  · exact .inl ⟨fd, t₁, hopen, hneg⟩
  · exact .inr ⟨fd, _, _, _, t₁, _, _, hopen, hneg, rfl, rfl⟩

theorem attempt_outcome {P : Attempt → Prop} {name : String}
    (hnot : ∀ fd : Int, fd < 0 → P (.notOpened name fd))
    (hopened : ∀ (fd status : Int) (allocated : Bool) (contents : CardDescriptor) (t₂ t₃ : τ),
      ¬fd < 0 → h (.cardDescriptorGet fd allocated) t₂ = ((status, contents), t₃) →
        P (.opened name fd allocated status contents)) : P ((attempt name).exec h t).1 := by
  rcases exec_attempt_cases h t name with ⟨fd, t₁, hopen, hneg⟩ |
    ⟨fd, status, allocated, contents, t₁, t₂, t₃, hopen, hneg, hmalloc, hget⟩
  · rw [exec_attempt_notOpened hopen hneg]
    exact hnot fd hneg
  · rw [exec_attempt_opened hopen hneg hmalloc hget]
    exact hopened fd status allocated contents t₂ t₃ hneg hget

theorem forall_mem_attempts {P : Attempt → Prop}
    (hP : ∀ name t, P ((attempt name).exec h t).1) (names : List String) :
    ∀ a ∈ ((attempts names).exec h t).1, P a := by
  induction names generalizing t with
  | nil => simp [attempts]
  | cons name names ih =>
      cases hpci : hasPci name with
      | false => simpa [attempts, hpci] using ih t
      | true => simpa [attempts, hpci] using ⟨hP name t, ih _⟩

theorem exec_attempt_trace (name : String) (log : List ((c : sys.Call) × sys.Reply c)) :
    (attempt name).exec h.trace (t, log) =
      (((attempt name).exec h t).1,
        (((attempt name).exec h t).2, log ++ ((attempt name).exec h t).1.calls)) := by
  rcases exec_attempt_cases h t name with ⟨fd, t₁, hopen, hneg⟩ |
    ⟨fd, status, allocated, contents, t₁, t₂, t₃, hopen, hneg, hmalloc, hget⟩
  · rw [exec_attempt_notOpened hopen hneg]
    exact exec_attempt_notOpened (Handler.trace_of_eq hopen log) hneg
  · rw [exec_attempt_opened hopen hneg hmalloc hget]
    rw [exec_attempt_opened (Handler.trace_of_eq hopen log) hneg (Handler.trace_of_eq hmalloc _)
      (Handler.trace_of_eq hget _)]
    simp [Attempt.calls]

theorem map_name_attempts (names : List String) :
    ((attempts names).exec h t).1.map (·.name) = names.filter hasPci := by
  induction names generalizing t with
  | nil => rfl
  | cons name names ih =>
      cases hpci : hasPci name with
      | false => simpa [attempts, hpci] using ih t
      | true =>
          have hname : ((attempt name).exec h t).1.name = name :=
            attempt_outcome h t (P := fun a => a.name = name) (fun _ _ => rfl)
              fun _ _ _ _ _ _ _ _ => rfl
          simp [attempts, hpci, hname, ih]

theorem exec_attempts_trace (names : List String) (log : List ((c : sys.Call) × sys.Reply c)) :
    (attempts names).exec h.trace (t, log) =
      (((attempts names).exec h t).1,
        (((attempts names).exec h t).2,
          log ++ ((attempts names).exec h t).1.flatMap Attempt.calls)) := by
  induction names generalizing t log with
  | nil => simp [attempts]
  | cons name names ih =>
      cases hpci : hasPci name with
      | false => simpa [attempts, hpci] using ih t log
      | true => simp [attempts, hpci, exec_attempt_trace, ih]

/-! ## The scan -/

/-- An attempt is made only while fewer than 32 cards are counted, `n` of them before. -/
def Fits : Nat → List Attempt → Prop
  | _, [] => True
  | n, a :: rest => n < 32 ∧ Fits (if a.Succeeded then n + 1 else n) rest

def applyAll (lib : Statics) (as : List Attempt) : Statics := as.foldl Attempt.apply lib

theorem toNat_succ {n : BitVec 32} (h : n.toNat < 32) : (n + 1).toNat = n.toNat + 1 := by
  rw [BitVec.toNat_add_of_lt]
  · rfl
  · change n.toNat + 1 < 2 ^ 32
    omega

theorem toNat_numCards_apply (hroom : lib.numCards.toNat < 32) (a : Attempt) :
    (a.apply lib).numCards.toNat =
      if a.Succeeded then lib.numCards.toNat + 1 else lib.numCards.toNat := by
  cases a with
  | notOpened name fd => rfl
  | opened name fd allocated status contents =>
      by_cases hstatus : status = 0
      · have hdone : (Attempt.opened name fd allocated status contents).Succeeded := hstatus
        rw [if_pos hdone, ← toNat_succ hroom]
        simp [Attempt.apply, hstatus]
      · simp [Attempt.apply, Attempt.Succeeded, hstatus]

theorem exec_entry (hroom : lib.numCards.toNat < 32) {name : String} (hpci : hasPci name) :
    (aiowdmInitEntry lib name).exec h t =
      (.returned (((attempt name).exec h t).1.apply lib), ((attempt name).exec h t).2) := by
  rw [aiowdmInitEntry_eq hpci hroom]
  simp

theorem exec_entries_cons (name : String) (names : List String) :
    (aiowdmInitEntries lib (name :: names)).exec h t =
      match (aiowdmInitEntry lib name).exec h t with
      | (.undefined, t₁) => (.undefined, t₁)
      | (.returned lib, t₁) => (aiowdmInitEntries lib names).exec h t₁ := by
  rw [aiowdmInitEntries, Prog.exec_bind]
  rcases (aiowdmInitEntry lib name).exec h t with ⟨lib | _, t₁⟩ <;> rfl

theorem exec_entries_skipped {name : String} (names : List String) (hpci : hasPci name = false) :
    (aiowdmInitEntries lib (name :: names)).exec h t = (aiowdmInitEntries lib names).exec h t := by
  rw [exec_entries_cons, aiowdmInitEntry_skipped hpci]
  rfl

theorem exec_entries_of_fits {names : List String}
    (hfits : Fits lib.numCards.toNat ((attempts names).exec h t).1) :
    (aiowdmInitEntries lib names).exec h t =
      (.returned (applyAll lib ((attempts names).exec h t).1), ((attempts names).exec h t).2) := by
  induction names generalizing lib t with
  | nil => rfl
  | cons name names ih =>
      cases hpci : hasPci name with
      | false =>
          rw [attempts_skipped names hpci] at hfits ⊢
          rw [exec_entries_skipped h t names hpci]
          exact ih t hfits
      | true =>
          rw [exec_attempts_cons h t names hpci] at hfits ⊢
          obtain ⟨hroom, hrest⟩ := hfits
          rw [← toNat_numCards_apply hroom] at hrest
          rw [exec_entries_cons, exec_entry h t hroom hpci]
          exact ih _ hrest

theorem exec_entries_of_not_fits {names : List String}
    (hfits : ¬Fits lib.numCards.toNat ((attempts names).exec h t).1) :
    ((aiowdmInitEntries lib names).exec h t).1 = .undefined := by
  induction names generalizing lib t with
  | nil => exact absurd trivial hfits
  | cons name names ih =>
      cases hpci : hasPci name with
      | false =>
          rw [attempts_skipped names hpci] at hfits
          rw [exec_entries_skipped h t names hpci]
          exact ih t hfits
      | true =>
          rw [exec_attempts_cons h t names hpci] at hfits
          by_cases hroom : lib.numCards.toNat < 32
          · rw [exec_entries_cons, exec_entry h t hroom hpci]
            refine ih _ fun hrest => hfits ⟨hroom, ?_⟩
            rwa [← toNat_numCards_apply hroom]
          · rw [exec_entries_cons, aiowdmInitEntry_full hpci (not_lt.mp hroom)]
            rfl

end Aiowdm.Proofs.EntryAttempts
