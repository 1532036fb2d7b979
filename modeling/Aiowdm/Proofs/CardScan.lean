import Aiowdm.Proofs.CardNumbers

/-!
# What the scan leaves

An entry that fails leaves what it stored in the slot that the next one takes, so
the counted slots are the entries that succeeded.  The same entries keep their file
and their buffer, whether a slot holds them or not, and nothing but the array ends
the scan.
-/

namespace Aiowdm.Proofs.CardScan

open Aiowdm.Lib Aiowdm.Driver.Probe Aiowdm.Library.Cards
open Aiowdm.Driver.DescriptorGet (CardDescriptor)
open Aiowdm.Proofs.CardNumbers Aiowdm.Proofs.EntryAttempts

/-! ## The counted slots -/

def counted (lib : Statics) : List Card := (List.range lib.numCards.toNat).map lib.cards

def slot : Attempt → Option Card
  | .notOpened _ _ => none
  | .opened _ fd allocated status contents =>
      if status = 0 then some ⟨fd, if allocated then some contents else none⟩ else none

/-- The card of an entry that succeeded: its file, and what the ioctl on that file
filled in. -/
def cardOf : Attempt → Option Card
  | .notOpened _ _ => none
  | .opened _ fd _ status contents => if status = 0 then some ⟨fd, some contents⟩ else none

variable {τ : Type} {lib : Statics}

theorem counted_setCard (card : Card) : counted (lib.setCard card) = counted lib := by
  refine List.map_congr_left fun i hi => ?_
  rw [numCards_setCard] at hi
  exact cards_setCard_of_lt (List.mem_range.mp hi) card

private theorem counted_succ (hroom : lib.numCards.toNat < 32) :
    counted { lib with numCards := lib.numCards + 1 } =
      counted lib ++ [lib.cards lib.numCards.toNat] := by
  change (List.range (lib.numCards + 1).toNat).map lib.cards = _
  rw [toNat_succ hroom, List.range_succ, List.map_append]
  rfl

private theorem counted_apply (hroom : lib.numCards.toNat < 32) (a : Attempt) :
    counted (a.apply lib) = counted lib ++ (slot a).toList := by
  cases a with
  | notOpened name fd =>
      change counted (lib.setCard _) = _
      rw [counted_setCard]
      simp [slot]
  | opened name fd allocated status contents =>
      change counted (if status ≠ 0 then _ else _) = _
      by_cases hstatus : status ≠ 0
      · rw [if_pos hstatus, counted_setCard]
        simp [slot, hstatus]
      · rw [if_neg hstatus, counted_succ (by rwa [numCards_setCard]), counted_setCard,
          numCards_setCard, cards_setCard]
        simp [slot, not_not.mp hstatus]

private theorem counted_applyAll {as : List Attempt} (hfits : Fits lib.numCards.toNat as) :
    counted (applyAll lib as) = counted lib ++ as.filterMap slot := by
  induction as generalizing lib with
  | nil => simp [applyAll]
  | cons a as ih =>
      obtain ⟨hroom, hfits⟩ := hfits
      rw [← toNat_numCards_apply hroom] at hfits
      have hrest : counted (applyAll lib (a :: as)) = _ := ih hfits
      rw [hrest, counted_apply hroom, List.append_assoc]
      cases hslot : slot a <;> simp [hslot]

/-! ## Fitting the array -/

theorem fits_of_length {n : Nat} {as : List Attempt} (h : n + as.length ≤ 32) : Fits n as := by
  induction as generalizing n with
  | nil => trivial
  | cons a as ih =>
      rw [List.length_cons] at h
      refine ⟨by omega, ih ?_⟩
      split <;> omega

private theorem fits_cons_iff {n : Nat} {as : List Attempt} (a : Attempt) :
    Fits n (a :: as) ↔ n + ((a :: as).dropLast.filter (·.Succeeded)).length < 32 := by
  induction as generalizing n a with
  | nil => simp [Fits]
  | cons b as ih =>
      rw [Fits, ih, List.dropLast_cons_of_ne_nil (List.cons_ne_nil b as)]
      by_cases ha : a.Succeeded
      · rw [if_pos ha, List.filter_cons_of_pos (by simpa using ha), List.length_cons]
        omega
      · rw [if_neg ha, List.filter_cons_of_neg (by simpa using ha)]
        omega

theorem fits_zero_iff (as : List Attempt) :
    Fits 0 as ↔ (as.dropLast.filter (·.Succeeded)).length < 32 := by
  cases as with
  | nil => exact iff_of_true trivial (by decide)
  | cons a as => rw [fits_cons_iff, Nat.zero_add]

private theorem toNat_numCards_applyAll {as : List Attempt} (hfits : Fits lib.numCards.toNat as)
    (hle : lib.numCards.toNat ≤ 32) : (applyAll lib as).numCards.toNat ≤ 32 := by
  induction as generalizing lib with
  | nil => exact hle
  | cons a as ih =>
      obtain ⟨hroom, hfits⟩ := hfits
      have hnext := toNat_numCards_apply hroom a
      rw [← hnext] at hfits
      have hnext_le : (a.apply lib).numCards.toNat ≤ 32 := by
        rw [hnext]
        split <;> omega
      exact ih hfits hnext_le

variable (h : Handler sys τ) (t : τ) {names : List String}

theorem length_attempts (names : List String) :
    ((attempts names).exec h t).1.length = candidates names := by
  rw [candidates, ← map_name_attempts h t, List.length_map]

theorem fits_of_candidates (hmax : candidates names ≤ 32) :
    Fits 0 ((attempts names).exec h t).1 := by
  apply fits_of_length
  rw [length_attempts]
  omega

def scanned (memory : Nat → Card) (as : List Attempt) : Statics :=
  { applyAll (.zeroed memory) as with initComplete := true }

theorem counted_scanned (memory : Nat → Card) {as : List Attempt} (hfits : Fits 0 as) :
    counted (scanned memory as) = as.filterMap slot := by
  have hroom : Fits (Statics.zeroed memory).numCards.toNat as := hfits
  exact counted_applyAll hroom

theorem exec_aiowdmInit_of_fits (memory : Nat → Card)
    (hfits : Fits 0 ((attempts names).exec h t).1) :
    (aiowdmInit (some names) (.zeroed memory)).exec h t =
      (.returned (scanned memory ((attempts names).exec h t).1),
        ((attempts names).exec h t).2) := by
  have hroom : Fits (Statics.zeroed memory).numCards.toNat ((attempts names).exec h t).1 := hfits
  simp only [aiowdmInit]
  rw [Prog.exec_bind, exec_entries_of_fits h t hroom]
  rfl

private theorem exec_aiowdmInit_of_not_fits (memory : Nat → Card)
    (hfits : ¬Fits 0 ((attempts names).exec h t).1) :
    ((aiowdmInit (some names) (.zeroed memory)).exec h t).1 = .undefined := by
  have hroom : ¬Fits (Statics.zeroed memory).numCards.toNat ((attempts names).exec h t).1 := hfits
  simp only [aiowdmInit]
  rw [Prog.exec_bind, exec_entries_of_not_fits h t hroom]
  rfl

theorem exec_aiowdmInit_trace (memory : Nat → Card) (hmax : candidates names ≤ 32) :
    (aiowdmInit (some names) (.zeroed memory)).exec h.trace (t, []) =
      (.returned (scanned memory ((attempts names).exec h t).1),
        (((attempts names).exec h t).2,
          ((attempts names).exec h t).1.flatMap Attempt.calls)) := by
  have htrace := exec_attempts_trace h t names []
  have hfits : Fits 0 ((attempts names).exec h.trace (t, [])).1 := by
    rw [htrace]
    exact fits_of_candidates h t hmax
  rw [exec_aiowdmInit_of_fits h.trace (t, []) memory hfits, htrace, List.nil_append]

/-! ## The scan is the filter -/

/-- An ioctl that has no memory to fill fails. -/
def RefusesNull (h : Handler sys τ) : Prop :=
  ∀ (fd : Int) (t : τ) (status : Int) (contents : CardDescriptor) (t' : τ),
    h (.cardDescriptorGet fd false) t = ((status, contents), t') → status ≠ 0

def Filled : Attempt → Prop
  | .notOpened _ _ => True
  | .opened _ _ allocated status _ => status = 0 → allocated

private theorem slot_eq_cardOf {a : Attempt} (ha : Filled a) : slot a = cardOf a := by
  cases a with
  | notOpened name fd => rfl
  | opened name fd allocated status contents =>
      by_cases hstatus : status = 0
      · simp [slot, cardOf, hstatus, show allocated = true from ha hstatus]
      · simp [slot, cardOf, hstatus]

private theorem filled_attempts (hnull : RefusesNull h) (names : List String) :
    ∀ a ∈ ((attempts names).exec h t).1, Filled a := by
  refine forall_mem_attempts h t (fun name t => attempt_outcome h t (fun _ _ => trivial) ?_) names
  intro fd status allocated contents t₂ t₃ _ hget hstatus
  cases allocated with
  | false => exact absurd hstatus (hnull fd t₂ status contents t₃ hget)
  | true => rfl

/-- For every listing with at most 32 candidates and whatever the system answers, the
counted slots are the entries that were opened and queried, in their order, each
with its own file and what the ioctl on that file filled in. -/
theorem counted_eq_filterMap (h : Handler sys τ) (hnull : RefusesNull h) (t : τ)
    (names : List String) (hmax : candidates names ≤ 32) (memory : Nat → Card) :
    ∃ lib t', (aiowdmInit (some names) (.zeroed memory)).exec h.trace (t, []) =
        (.returned lib, (t', ((attempts names).exec h t).1.flatMap Attempt.calls)) ∧
      lib.initComplete = true ∧
      ((attempts names).exec h t).1.map (·.name) = names.filter hasPci ∧
      counted lib = ((attempts names).exec h t).1.filterMap cardOf := by
  refine ⟨_, _, exec_aiowdmInit_trace h t memory hmax, rfl, map_name_attempts h t names, ?_⟩
  rw [counted_scanned memory (fits_of_candidates h t hmax)]
  exact List.filterMap_congr fun a ha => slot_eq_cardOf (filled_attempts h t hnull names a ha)

def secondMissing : Handler sys Nat
  | .openNode fname, next =>
      if fname = devPath "pci-b" then ((-1 : Int), next) else ((next : Int), next + 1)
  | .malloc, next => (true, next)
  | .cardDescriptorGet _ allocated, next =>
      ((if allocated then 0 else -1, ⟨0, 0, 0, 0, "", fun _ => 0⟩), next)

theorem counted_eq_filterMap_second_missing :
    ∃ lib t', (aiowdmInit (some ["pci-a", ".", "pci-b", "pci-c"]) (.zeroed fun _ => ⟨0, none⟩)).exec
        secondMissing.trace (3, []) = (.returned lib,
          (t', ((attempts ["pci-a", ".", "pci-b", "pci-c"]).exec secondMissing 3).1.flatMap
            Attempt.calls)) ∧
      lib.initComplete = true ∧
      ((attempts ["pci-a", ".", "pci-b", "pci-c"]).exec secondMissing 3).1.map (·.name) =
        ["pci-a", ".", "pci-b", "pci-c"].filter hasPci ∧
      counted lib =
        ((attempts ["pci-a", ".", "pci-b", "pci-c"]).exec secondMissing 3).1.filterMap cardOf := by
  have hnull : RefusesNull secondMissing := by
    intro fd t status contents t' hget hstatus
    cases hget
    cases hstatus
  exact counted_eq_filterMap secondMissing hnull 3 ["pci-a", ".", "pci-b", "pci-c"] (by decide)
    fun _ => ⟨0, none⟩

/-! ## Staying in the array -/

/-- No slot behind the array was stored to, and at most 32 are counted. -/
def StaysInArray : Ending Statics → Prop
  | .returned lib => lib.numCards.toNat ≤ 32
  | .undefined => False

theorem staysInArray_iff_fits (memory : Nat → Card) :
    StaysInArray ((aiowdmInit (some names) (.zeroed memory)).exec h t).1 ↔
      Fits 0 ((attempts names).exec h t).1 := by
  by_cases hfits : Fits 0 ((attempts names).exec h t).1
  · rw [exec_aiowdmInit_of_fits h t memory hfits]
    have hroom : Fits (Statics.zeroed memory).numCards.toNat _ := hfits
    exact iff_of_true (toNat_numCards_applyAll hroom (Nat.zero_le 32)) hfits
  · rw [exec_aiowdmInit_of_not_fits h t memory hfits]
    exact iff_of_false id hfits

/-- For every listing and whatever the system answers, the scan stays in the array
exactly where fewer than 32 of the candidates before the last one succeed. -/
theorem staysInArray_iff (h : Handler sys τ) (t : τ) (names : List String)
    (memory : Nat → Card) :
    StaysInArray ((aiowdmInit (some names) (.zeroed memory)).exec h t).1 ↔
      (((attempts names).exec h t).1.dropLast.filter (·.Succeeded)).length < 32 := by
  rw [staysInArray_iff_fits, fits_zero_iff]

def allThere : Handler sys Nat
  | .openNode _, next => ((next : Int), next + 1)
  | .malloc, next => (true, next)
  | .cardDescriptorGet _ _, next => ((0, ⟨0, 0, 0, 0, "", fun _ => 0⟩), next)

private theorem succeeded_allThere (name : String) (next : Nat) :
    ((attempt name).exec allThere next).1.Succeeded := by
  have hpos : ¬(next : Int) < 0 := by omega
  rw [exec_attempt_opened (h := allThere) rfl hpos rfl rfl]
  rfl

def crowded : List String :=
  (List.range 33).map fun i => String.ofList ['p', 'c', 'i', Char.ofNat (65 + i)]

/-- The 33rd card is stored behind the array. -/
theorem card_behind_array :
    ¬∀ (h : Handler sys Nat) (t : Nat) (names : List String) (memory : Nat → Card),
      StaysInArray ((aiowdmInit (some names) (.zeroed memory)).exec h t).1 := by
  intro hall
  have hfits := (staysInArray_iff_fits allThere 3 _).mp (hall allThere 3 crowded fun _ => ⟨0, none⟩)
  have hsucceeded := forall_mem_attempts allThere 3 succeeded_allThere crowded
  have hlength : ((attempts crowded).exec allThere 3).1.length = 33 := by
    rw [length_attempts]
    decide
  rw [fits_zero_iff, List.filter_eq_self.mpr, List.length_dropLast, hlength] at hfits
  · exact absurd hfits (by decide)
  · intro a ha
    exact decide_eq_true (hsucceeded a (List.mem_of_mem_dropLast ha))

/-! ## Files and buffers -/

def openedFile (fd : Int) : Option Int := if fd < 0 then none else some fd

def fileOf : ((c : sys.Call) × sys.Reply c) → Option Int
  | ⟨.openNode _, fd⟩ => openedFile fd
  | _ => none

def isBuffer : ((c : sys.Call) × sys.Reply c) → Bool
  | ⟨.malloc, allocated⟩ => allocated
  | _ => false

/-- What is open and allocated is what the counted slots hold.  Nothing is ever
closed or freed, and buffers are counted. -/
structure HeldByCards (log : Trace) (lib : Statics) : Prop where
  files : (log.filterMap fileOf).Perm ((counted lib).map (·.fd))
  buffers : log.countP isBuffer = (counted lib).countP (·.descriptor.isSome)

def attemptFile : Attempt → Option Int
  | .notOpened _ _ => none
  | .opened _ fd _ _ _ => some fd

def attemptBuffer : Attempt → Bool
  | .notOpened _ _ => false
  | .opened _ _ allocated _ _ => allocated

/-- The file descriptor says whether the entry was opened. -/
def SignTells : Attempt → Prop
  | .notOpened _ fd => fd < 0
  | .opened _ fd _ _ _ => ¬fd < 0

theorem signTells_attempts (names : List String) :
    ∀ a ∈ ((attempts names).exec h t).1, SignTells a :=
  forall_mem_attempts h t
    (fun _ t => attempt_outcome h t (fun _ hneg => hneg) fun _ _ _ _ _ _ hneg _ => hneg) names

private theorem filterMap_fileOf_calls {a : Attempt} (ha : SignTells a) :
    a.calls.filterMap fileOf = (attemptFile a).toList := by
  cases a with
  | notOpened name fd =>
      have hneg : openedFile fd = none := if_pos ha
      simp [Attempt.calls, fileOf, attemptFile, hneg]
  | opened name fd allocated status contents =>
      have hpos : openedFile fd = some fd := if_neg ha
      simp [Attempt.calls, fileOf, attemptFile, hpos]

private theorem countP_isBuffer_calls (a : Attempt) :
    a.calls.countP isBuffer = if attemptBuffer a then 1 else 0 := by
  cases a with
  | notOpened name fd => rfl
  | opened name fd allocated status contents => cases allocated <;> rfl

theorem filterMap_fileOf_flatMap {as : List Attempt} (has : ∀ a ∈ as, SignTells a) :
    (as.flatMap Attempt.calls).filterMap fileOf = as.filterMap attemptFile := by
  induction as with
  | nil => rfl
  | cons a as ih =>
      obtain ⟨ha, has⟩ := List.forall_mem_cons.mp has
      rw [List.flatMap_cons, List.filterMap_append, filterMap_fileOf_calls ha, ih has]
      cases hfile : attemptFile a <;> simp [hfile]

private theorem countP_isBuffer_flatMap (as : List Attempt) :
    (as.flatMap Attempt.calls).countP isBuffer = as.countP attemptBuffer := by
  induction as with
  | nil => rfl
  | cons a as ih =>
      rw [List.flatMap_cons, List.countP_append, countP_isBuffer_calls, ih, List.countP_cons,
        Nat.add_comm]

def NoneHalfway (as : List Attempt) : Prop := ∀ a ∈ as, a.IsOpened → a.Succeeded

private theorem noneHalfway_of_length {as : List Attempt}
    (h : (as.filter (·.Succeeded)).length = (as.filter (·.IsOpened)).length) : NoneHalfway as := by
  have hsub : (as.filter (·.Succeeded)).Sublist (as.filter (·.IsOpened)) :=
    List.monotone_filter_right as fun a ha => decide_eq_true (of_decide_eq_true ha).isOpened
  have heq := hsub.eq_of_length h
  intro a ha hopened
  have hmem : a ∈ as.filter (·.IsOpened) := List.mem_filter.mpr ⟨ha, decide_eq_true hopened⟩
  rw [← heq] at hmem
  exact of_decide_eq_true (List.mem_filter.mp hmem).2

private theorem length_filterMap_slot (as : List Attempt) :
    (as.filterMap slot).length = (as.filter (·.Succeeded)).length := by
  rw [List.length_filterMap_eq_countP, ← List.countP_eq_length_filter]
  refine List.countP_congr fun a _ => ?_
  rw [decide_eq_true_iff]
  cases a with
  | notOpened name fd => simp [slot, Attempt.Succeeded]
  | opened name fd allocated status contents =>
      by_cases hstatus : status = 0 <;> simp [slot, Attempt.Succeeded, hstatus]

private theorem length_filterMap_attemptFile (as : List Attempt) :
    (as.filterMap attemptFile).length = (as.filter (·.IsOpened)).length := by
  rw [List.length_filterMap_eq_countP, ← List.countP_eq_length_filter]
  refine List.countP_congr fun a _ => ?_
  rw [decide_eq_true_iff]
  cases a <;> simp [attemptFile, Attempt.IsOpened]

theorem heldByCards_scanned_iff (memory : Nat → Card) {as : List Attempt}
    (has : ∀ a ∈ as, SignTells a) (hfits : Fits 0 as) :
    HeldByCards (as.flatMap Attempt.calls) (scanned memory as) ↔ NoneHalfway as := by
  constructor
  · rintro ⟨hfiles, -⟩
    apply noneHalfway_of_length
    have hlen := hfiles.length_eq
    rw [filterMap_fileOf_flatMap has, counted_scanned memory hfits, List.length_map,
      length_filterMap_attemptFile, length_filterMap_slot] at hlen
    exact hlen.symm
  · intro hall
    constructor
    · rw [filterMap_fileOf_flatMap has, counted_scanned memory hfits, List.map_filterMap]
      refine List.Perm.of_eq (List.filterMap_congr fun a ha => ?_)
      cases a with
      | notOpened name fd => rfl
      | opened name fd allocated status contents =>
          have hstatus : status = 0 := hall _ ha trivial
          simp [attemptFile, slot, hstatus]
    · rw [countP_isBuffer_flatMap, counted_scanned memory hfits, List.countP_filterMap]
      refine List.countP_congr fun a ha => ?_
      cases a with
      | notOpened name fd => simp [attemptBuffer, slot]
      | opened name fd allocated status contents =>
          have hstatus : status = 0 := hall _ ha trivial
          cases allocated <;> simp [attemptBuffer, slot, hstatus]

/-- For every listing with at most 32 candidates and whatever the system answers, what
is held at the end is what the counted slots hold exactly where no entry was opened
that could not be queried. -/
theorem heldByCards_iff (h : Handler sys τ) (t : τ) (names : List String)
    (hmax : candidates names ≤ 32) (memory : Nat → Card) :
    ∃ lib t' log, (aiowdmInit (some names) (.zeroed memory)).exec h.trace (t, []) =
        (.returned lib, (t', log)) ∧
      (HeldByCards log lib ↔
        ∀ a ∈ ((attempts names).exec h t).1, a.IsOpened → a.Succeeded) :=
  ⟨_, _, _, exec_aiowdmInit_trace h t memory hmax,
    heldByCards_scanned_iff memory (signTells_attempts h t names) (fits_of_candidates h t hmax)⟩

theorem heldByCards_iff_second_missing :
    ∃ lib t' log, (aiowdmInit (some ["pci-a", ".", "pci-b", "pci-c"])
        (.zeroed fun _ => ⟨0, none⟩)).exec secondMissing.trace (3, []) =
          (.returned lib, (t', log)) ∧
      (HeldByCards log lib ↔
        ∀ a ∈ ((attempts ["pci-a", ".", "pci-b", "pci-c"]).exec secondMissing 3).1,
          a.IsOpened → a.Succeeded) :=
  heldByCards_iff secondMissing 3 ["pci-a", ".", "pci-b", "pci-c"] (by decide) fun _ => ⟨0, none⟩

/-- A card whose descriptor cannot be read leaves its file open and its buffer allocated. -/
theorem failed_entry_leaks :
    ¬∀ (h : Handler sys Unit) (t : Unit) (names : List String) (memory : Nat → Card)
      (lib : Statics) (t' : Unit) (log : Trace), candidates names ≤ 32 →
      (aiowdmInit (some names) (.zeroed memory)).exec h.trace (t, []) =
        (.returned lib, (t', log)) → HeldByCards log lib := by
  intro hall
  have hmax : candidates ["pcie-dio-24"] ≤ 32 := by decide
  have hheld := hall noDescriptor () ["pcie-dio-24"] (fun _ => ⟨0, none⟩) _ _ _ hmax
    (exec_aiowdmInit_trace noDescriptor () _ hmax)
  have hnone := (heldByCards_scanned_iff _ (signTells_attempts noDescriptor () ["pcie-dio-24"])
    (fits_of_candidates noDescriptor () hmax)).mp hheld
  have hstatus : (-1 : Int) = 0 := hnone (.opened "pcie-dio-24" 3 true (-1)
    ⟨0, 0, 0, 0, "", fun _ => 0⟩) List.mem_cons_self trivial
  exact absurd hstatus (by decide)

end Aiowdm.Proofs.CardScan
