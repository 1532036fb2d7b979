import Aiowdm.Proofs.EntryAttempts

/-!
# Card numbers

What `AiowdmInit` leaves in the array: the counted slots hold files that were
opened and queried, the others whatever was left there.  The functions that
issue an ioctl use any slot they are told to.
-/

namespace Aiowdm.Proofs.CardNumbers

open Aiowdm.Lib Aiowdm.Driver.DeviceContext Aiowdm.Driver.Probe
open Aiowdm.Driver.DescriptorGet (CardDescriptor)
open Aiowdm.Library.Registers Aiowdm.Library.Cards Aiowdm.Proofs.EntryAttempts

/-! ## What AiowdmInit leaves -/

abbrev Trace := List ((c : sys.Call) × sys.Reply c)

/-- The file of an entry that was opened and whose descriptor could be read. -/
def CardFile (log : Trace) (fd : Int) : Prop :=
  0 ≤ fd ∧ (∃ name, hasPci name ∧ ⟨.openNode (devPath name), fd⟩ ∈ log) ∧
    ∃ allocated contents, ⟨.cardDescriptorGet fd allocated, (0, contents)⟩ ∈ log

theorem CardFile.append {log : Trace} {fd : Int} (h : CardFile log fd) (more : Trace) :
    CardFile (log ++ more) fd := by
  obtain ⟨hfd, ⟨name, hname, hopen⟩, allocated, contents, hget⟩ := h
  exact ⟨hfd, ⟨name, hname, List.mem_append_left _ hopen⟩, allocated, contents,
    List.mem_append_left _ hget⟩

def EachCounted (P : Card → Prop) (lib : Statics) : Prop :=
  ∀ i < lib.numCards.toNat, P (lib.cards i)

section EachCounted

variable {P Q : Card → Prop} {lib : Statics}

theorem EachCounted.mono (h : EachCounted P lib) (himp : ∀ card, P card → Q card) :
    EachCounted Q lib :=
  fun i hi => himp _ (h i hi)

theorem EachCounted.setCard (h : EachCounted P lib) (card : Card) :
    EachCounted P (lib.setCard card) := by
  intro i hi
  rw [numCards_setCard] at hi
  rw [cards_setCard_of_lt hi]
  exact h i hi

theorem EachCounted.count (h : EachCounted P lib) (hroom : lib.numCards.toNat < 32)
    (hcard : P (lib.cards lib.numCards.toNat)) :
    EachCounted P { lib with numCards := lib.numCards + 1 } := by
  intro i hi
  change i < (lib.numCards + 1).toNat at hi
  rw [toNat_succ hroom] at hi
  rcases Nat.lt_succ_iff_lt_or_eq.mp hi with hlt | rfl
  · exact h i hlt
  · exact hcard

theorem eachCounted_zeroed (P : Card → Prop) (memory : Nat → Card) :
    EachCounted P (.zeroed memory) :=
  fun i hi => absurd hi (Nat.not_lt_zero i)

end EachCounted

def Counted (log : Trace) (lib : Statics) : Prop :=
  EachCounted (fun card => CardFile log card.fd) lib

theorem Counted.setCard {log : Trace} {lib : Statics} (h : Counted log lib) (more : Trace)
    (card : Card) : Counted (log ++ more) (lib.setCard card) :=
  EachCounted.setCard (EachCounted.mono h fun _ hfile => hfile.append more) card

def candidates (names : List String) : Nat := (names.filter hasPci).length

variable {τ : Type} {h : Handler sys τ} {lib : Statics} {t : τ} {log : Trace}

private theorem counted_attempt (hcounted : Counted log lib) {name : String} (hpci : hasPci name)
    (hroom : lib.numCards.toNat < 32) :
    let a := ((attempt name).exec h t).1
    Counted (log ++ a.calls) (a.apply lib) := by
  rcases exec_attempt_cases h t name with ⟨fd, t₁, hopen, hneg⟩ |
    ⟨fd, status, allocated, contents, t₁, t₂, t₃, hopen, hneg, hmalloc, hget⟩
  · rw [exec_attempt_notOpened hopen hneg]
    exact hcounted.setCard _ _
  · rw [exec_attempt_opened hopen hneg hmalloc hget]
    let a : Attempt := .opened name fd allocated status contents
    have hmore : Counted (log ++ a.calls)
        (lib.setCard ⟨fd, if allocated then some contents else none⟩) := hcounted.setCard _ _
    change Counted (log ++ a.calls) (if status ≠ 0 then _ else _)
    by_cases hstatus : status ≠ 0
    · rw [if_pos hstatus]
      exact hmore
    · rw [if_neg hstatus]
      have hcard : CardFile (log ++ a.calls) fd := by
        refine ⟨not_lt.mp hneg, ⟨name, hpci, ?_⟩, allocated, contents, ?_⟩
        · simp [a, Attempt.calls]
        · simp [a, Attempt.calls, not_not.mp hstatus]
      have hslot : CardFile (log ++ a.calls)
          ((lib.setCard ⟨fd, if allocated then some contents else none⟩).cards
            lib.numCards.toNat).fd := by
        rw [cards_setCard]
        exact hcard
      exact EachCounted.count hmore hroom hslot

private theorem exec_candidate (hcounted : Counted log lib) {name : String} (hpci : hasPci name)
    (hroom : lib.numCards.toNat < 32) :
    ∃ lib' t' log', (aiowdmInitEntry lib name).exec h.trace (t, log) =
        (.returned lib', (t', log')) ∧ Counted log' lib' ∧
      lib'.numCards.toNat ≤ lib.numCards.toNat + 1 := by
  refine ⟨_, ((attempt name).exec h t).2, _, ?_, counted_attempt (h := h) (t := t) hcounted hpci
    hroom, ?_⟩
  · rw [exec_entry h.trace (t, log) hroom hpci, exec_attempt_trace]
  · rw [toNat_numCards_apply hroom]
    split <;> omega

private theorem candidates_cons (name : String) (names : List String) :
    candidates (name :: names) = (if hasPci name then 1 else 0) + candidates names := by
  unfold candidates
  cases hpci : hasPci name <;> simp [hpci, Nat.add_comm]

private theorem exec_aiowdmInitEntries {names : List String} (hcounted : Counted log lib)
    (hroom : lib.numCards.toNat + candidates names ≤ 32) :
    ∃ lib' t' log', (aiowdmInitEntries lib names).exec h.trace (t, log) =
        (.returned lib', (t', log')) ∧ Counted log' lib' := by
  induction names generalizing lib t log with
  | nil => exact ⟨lib, t, log, rfl, hcounted⟩
  | cons name names ih =>
      rw [candidates_cons] at hroom
      cases hpci : hasPci name with
      | false =>
          obtain ⟨lib', t', log', hexec, hcounted'⟩ := ih (t := t) hcounted (by omega)
          refine ⟨lib', t', log', ?_, hcounted'⟩
          rw [← hexec]
          simp [aiowdmInitEntries, aiowdmInitEntry, hpci]
      | true =>
          rw [hpci, if_pos rfl] at hroom
          obtain ⟨lib₁, t₁, log₁, hfirst, hcounted₁, hle⟩ :=
            exec_candidate (h := h) (t := t) hcounted hpci (by omega)
          obtain ⟨lib', t', log', hexec, hcounted'⟩ := ih (t := t₁) hcounted₁ (by omega)
          refine ⟨lib', t', log', ?_, hcounted'⟩
          rw [← hexec]
          simp [aiowdmInitEntries, hfirst]

theorem counted_zeroed (log : Trace) (memory : Nat → Card) : Counted log (.zeroed memory) :=
  eachCounted_zeroed _ memory

/-- Where the directory has at most 32 candidates, `AiowdmInit` stays inside the
array, and what it counts are the cards it could open and query. -/
theorem exec_aiowdmInit {dir : Option (List String)} (memory : Nat → Card)
    (hdir : ∀ names ∈ dir, candidates names ≤ 32) :
    ∃ lib' t' log', (aiowdmInit dir (.zeroed memory)).exec h.trace (t, []) =
        (.returned lib', (t', log')) ∧ Counted log' lib' := by
  cases dir with
  | none => exact ⟨_, _, _, rfl, counted_zeroed [] memory⟩
  | some names =>
      have hroom : (Statics.zeroed memory).numCards.toNat + candidates names ≤ 32 := by
        have hle := hdir names rfl
        simpa [Statics.zeroed] using hle
      obtain ⟨lib', t', log', hexec, hcounted⟩ :=
        exec_aiowdmInitEntries (h := h) (t := t) (counted_zeroed [] memory) hroom
      refine ⟨{ lib' with initComplete := true }, t', log', ?_, hcounted⟩
      simp only [aiowdmInit]
      rw [Prog.exec_bind, hexec]
      rfl

/-! ## Using a card number -/

def fdOf : cardIoctls.Call → Int
  | .inl (.registerIo fd _) => fd
  | .inr (.irqWait fd) | .inr (.irqWaitCancel fd) => fd

/-- The function issues an ioctl only for a counted card and on its file, and
where it returns a status, reports an error for any other number. -/
def ChecksNumber (log : Trace) (lib : Statics) (cardNum : BitVec 32) (request : Request) : Prop :=
  ∀ (σ : Type) (g : Handler cardIoctls σ) (u : σ),
    (∀ c ∈ (request.run lib cardNum).calls g u, cardNum < lib.numCards ∧
      CardFile log (fdOf c) ∧ fdOf c = (lib.cards cardNum.toNat).fd) ∧
    (¬cardNum < lib.numCards → ∀ status,
      ((request.run lib cardNum).exec g u).1 = .status status → status ≠ 0)

/-- Every one of the functions issues one ioctl, whatever the number. -/
theorem calls_run {σ : Type} (g : Handler cardIoctls σ) (u : σ) (lib : Statics)
    (cardNum : BitVec 32) (request : Request) :
    ∃ c, (request.run lib cardNum).calls g u = [c] ∧ fdOf c = (lib.cards cardNum.toNat).fd := by
  cases request <;> exact ⟨_, rfl, rfl⟩

theorem checksNumber_iff (hcounted : Counted log lib) (cardNum : BitVec 32) (request : Request) :
    ChecksNumber log lib cardNum request ↔ cardNum < lib.numCards := by
  constructor
  · intro hchecks
    let silent : Handler cardIoctls Unit := fun
      | .inl (.registerIo _ context), u => ((0, context), u)
      | .inr (.irqWait _), u => ((0 : Int), u)
      | .inr (.irqWaitCancel _), u => ((0 : Int), u)
    obtain ⟨c, hcalls, -⟩ := calls_run silent () lib cardNum request
    have hc : c ∈ (request.run lib cardNum).calls silent () := by simp [hcalls]
    exact ((hchecks Unit silent ()).1 c hc).1
  · intro hlt σ g u
    obtain ⟨c, hcalls, hfd⟩ := calls_run g u lib cardNum request
    refine ⟨?_, fun hnot => absurd hlt hnot⟩
    rw [hcalls]
    intro c' hc'
    rw [List.mem_singleton.mp hc', hfd]
    exact ⟨hlt, hcounted cardNum.toNat hlt, rfl⟩

/-- After `AiowdmInit` on any directory with at most 32 candidates, each of the
eight functions behaves as `QueryCardInfo` does exactly for the counted cards. -/
theorem checksNumber_iff_counted {τ : Type} (h : Handler sys τ) (t : τ)
    (dir : Option (List String)) (memory : Nat → Card)
    (hdir : ∀ names ∈ dir, candidates names ≤ 32) :
    ∃ lib t' log, (aiowdmInit dir (.zeroed memory)).exec h.trace (t, []) =
        (.returned lib, (t', log)) ∧
      ∀ cardNum request, ChecksNumber log lib cardNum request ↔ cardNum < lib.numCards := by
  obtain ⟨lib, t', log, hexec, hcounted⟩ := exec_aiowdmInit (h := h) (t := t) memory hdir
  exact ⟨lib, t', log, hexec, fun cardNum request => checksNumber_iff hcounted cardNum request⟩

def noDescriptor : Handler sys Unit
  | .openNode _, t => ((3 : Int), t)
  | .malloc, t => (true, t)
  | .cardDescriptorGet _ _, t => ((-1, ⟨0, 0, 0, 0, "", fun _ => 0⟩), t)

theorem checksNumber_iff_counted_failed_ioctl :
    ∃ lib t' log, (aiowdmInit (some ["pcie-dio-24"]) (.zeroed fun _ => ⟨0, none⟩)).exec
        noDescriptor.trace ((), []) = (.returned lib, (t', log)) ∧
      ∀ cardNum request, ChecksNumber log lib cardNum request ↔ cardNum < lib.numCards :=
  checksNumber_iff_counted noDescriptor () (some ["pcie-dio-24"]) (fun _ => ⟨0, none⟩) (by
    rintro names ⟨⟩
    decide)

/-- With no card at all, `WaitForIRQ(0)` issues an ioctl on the standard input. -/
theorem number_not_checked :
    ¬∀ (τ : Type) (h : Handler sys τ) (t : τ) (dir : Option (List String)) (memory : Nat → Card)
      (lib : Statics) (t' : τ) (log : Trace), (∀ names ∈ dir, candidates names ≤ 32) →
      (aiowdmInit dir (.zeroed memory)).exec h.trace (t, []) = (.returned lib, (t', log)) →
        ∀ cardNum request, ChecksNumber log lib cardNum request := by
  intro hall
  have hchecks := hall Unit noDescriptor () none (fun _ => ⟨0, none⟩) _ _ _
    (by rintro names ⟨⟩) rfl 0 .waitForIRQ
  have hlt := (checksNumber_iff (counted_zeroed [] fun _ => ⟨0, none⟩) 0 .waitForIRQ).mp hchecks
  exact absurd hlt (by decide)

end Aiowdm.Proofs.CardNumbers
