import Aiowdm.Proofs.CardScan
import Mathlib.Data.List.Nodup
import Mathlib.Data.List.Perm.Subperm
import Mathlib.Data.List.TakeWhile

/-!
# Finding the cards

The driver puts a node under the model's name, the library looks for names with
"pci" in them and takes each entry of the directory for a node.  The two agree
on a name with "pci" and no slash.
-/

namespace Aiowdm.Proofs.CardDiscovery

open Aiowdm.Lib Aiowdm.Driver.DeviceTable Aiowdm.Driver.Probe
open Aiowdm.Driver.DescriptorGet (CardDescriptor)
open Aiowdm.Library.Cards Aiowdm.Proofs.CardNumbers Aiowdm.Proofs.CardScan
open Aiowdm.Proofs.EntryAttempts

/-! ## The directory of the nodes -/

/-- The entry of the directory that a node's name begins with: the node itself,
or the directory it lies in. -/
def topComponent (name : String) : String :=
  String.ofList (name.toList.takeWhile (· ≠ '/'))

/-- `entries` is a listing, in any order, of the directory of these cards' nodes. -/
structure Listing (cards : List DeviceDescriptor) (entries : List String) : Prop where
  nodup : entries.Nodup
  mem : ∀ e, e ∈ entries ↔ e = "." ∨ e = ".." ∨ ∃ d ∈ cards, e = topComponent d.name

/-- A kernel in which the nodes of the cards open and answer, and nothing else
opens.  Its state is the paths opened so far; the first one is file 3. -/
def devDir (contents : String → CardDescriptor) (cards : List DeviceDescriptor) :
    Handler sys (List String)
  | .openNode fname, opened =>
      if fname ∈ cards.map (fun d => devPath d.name) then
        ((3 + opened.length : Int), opened ++ [fname])
      else ((-1 : Int), opened)
  | .malloc, opened => (true, opened)
  | .cardDescriptorGet fd _, opened => ((0, contents (opened.getD (fd - 3).toNat "")), opened)

def pathOf (opened : List String) (fd : Int) : Option String :=
  if fd < 3 then none else opened[(fd - 3).toNat]?

/-- The library counts the cards, and each has one slot. -/
structure FindsAll (cards : List DeviceDescriptor) (lib : Statics) (opened : List String) :
    Prop where
  count : (getNumCards lib).toNat = cards.length
  slot : ∀ d ∈ cards, ∃! i, i < lib.numCards.toNat ∧
    pathOf opened (lib.cards i).fd = some (devPath d.name)

/-- The name has "pci" in it and no slash. -/
def Seen (d : DeviceDescriptor) : Prop := hasPci d.name ∧ '/' ∉ d.name.toList

instance (d : DeviceDescriptor) : Decidable (Seen d) :=
  inferInstanceAs (Decidable (_ ∧ _))

def unseenIds : List Nat :=
  [0x010c, 0x010d, 0x010e, 0x010f, 0x0c53, 0x0c62, 0x0c69, 0x0e62, 0x25c0, 0x2fc0, 0x2fc1]

private theorem seen_rows : ∀ d ∈ accesioPciDeviceDescriptors, Seen d ↔ d.pid ∉ unseenIds := by
  decide +kernel

/-! ## Names and paths -/

theorem devPath_inj {a b : String} : devPath a = devPath b ↔ a = b := by
  unfold devPath
  rw [← String.toList_inj, String.toList_append, String.toList_append, List.append_right_inj,
    String.toList_inj]

private theorem slash_notMem_topComponent (name : String) : '/' ∉ (topComponent name).toList := by
  unfold topComponent
  rw [String.toList_ofList]
  intro hmem
  have hne := List.mem_takeWhile_imp hmem
  simp at hne

theorem topComponent_of_notMem {name : String} (h : '/' ∉ name.toList) :
    topComponent name = name := by
  unfold topComponent
  rw [List.takeWhile_eq_self_iff.mpr, String.ofList_toList]
  intro c hc
  have hne : c ≠ '/' := by
    rintro rfl
    exact h hc
  simpa using hne

variable {cards : List DeviceDescriptor} {entries : List String}

theorem Listing.slash_notMem (h : Listing cards entries) {e : String} (he : e ∈ entries) :
    '/' ∉ e.toList := by
  rcases (h.mem e).mp he with rfl | rfl | ⟨d, -, rfl⟩
  · decide
  · decide
  · exact slash_notMem_topComponent d.name

theorem Listing.candidates_le (h : Listing cards entries) : candidates entries ≤ cards.length := by
  have hsub : entries.filter hasPci ⊆ cards.map fun d => topComponent d.name := by
    intro e he
    obtain ⟨hmem, hpci⟩ := List.mem_filter.mp he
    rcases (h.mem e).mp hmem with rfl | rfl | ⟨d, hd, rfl⟩
    · exact absurd hpci (by decide)
    · exact absurd hpci (by decide)
    · exact List.mem_map.mpr ⟨d, hd, rfl⟩
  have hle := ((h.nodup.filter _).subperm hsub).length_le
  simpa [candidates] using hle

/-! ## The scan -/

variable {lib : Statics} {opened : List String}

/-- Slot `i` holds the `i`th file opened, and nothing was opened for nothing. -/
structure InOrder (lib : Statics) (opened : List String) : Prop where
  count : lib.numCards.toNat = opened.length
  slot : ∀ i < opened.length, (lib.cards i).fd = 3 + i

def openedOf (cards : List DeviceDescriptor) (entries : List String) : List String :=
  entries.filter fun e => hasPci e && decide (devPath e ∈ cards.map fun d => devPath d.name)

def files (as : List Attempt) : List Int := (as.filterMap slot).map (·.fd)

def nextFiles (start n : Nat) : List Int := (List.range' start n).map fun i => 3 + Int.ofNat i

private theorem exec_attempt_node (contents : String → CardDescriptor) (opened : List String)
    {e : String}
    (hnode : devPath e ∈ cards.map fun d => devPath d.name) :
    ∃ answer, (attempt e).exec (devDir contents cards) opened =
      (.opened e (3 + opened.length) true 0 answer, opened ++ [devPath e]) := by
  have hopen : devDir contents cards (.openNode (devPath e)) opened =
      ((3 + opened.length : Int), opened ++ [devPath e]) := if_pos hnode
  have hpos : ¬(3 + opened.length : Int) < 0 := by omega
  exact ⟨_, exec_attempt_opened hopen hpos rfl rfl⟩

private theorem exec_attempt_not_node (contents : String → CardDescriptor) {e : String}
    (hnode : devPath e ∉ cards.map fun d => devPath d.name) :
    (attempt e).exec (devDir contents cards) opened = (.notOpened e (-1), opened) := by
  have hopen : devDir contents cards (.openNode (devPath e)) opened = ((-1 : Int), opened) :=
    if_neg hnode
  exact exec_attempt_notOpened hopen (by decide)

private theorem exec_attempts_devDir (contents : String → CardDescriptor)
    (cards : List DeviceDescriptor)
    (opened entries : List String) :
    ((attempts entries).exec (devDir contents cards) opened).2 =
        opened ++ (openedOf cards entries).map devPath ∧
      files ((attempts entries).exec (devDir contents cards) opened).1 =
        nextFiles opened.length (openedOf cards entries).length := by
  induction entries generalizing opened with
  | nil => simp [attempts, openedOf, files, nextFiles]
  | cons e entries ih =>
      cases hpci : hasPci e with
      | false =>
          have hof : openedOf cards (e :: entries) = openedOf cards entries := by
            simp [openedOf, hpci]
          rw [attempts_skipped entries hpci, hof]
          exact ih opened
      | true =>
          rw [exec_attempts_cons _ opened entries hpci]
          by_cases hnode : devPath e ∈ cards.map fun d => devPath d.name
          · have hof : openedOf cards (e :: entries) = e :: openedOf cards entries := by
              unfold openedOf
              rw [List.filter_cons_of_pos]
              simp only [hpci, hnode, decide_true, Bool.and_self]
            obtain ⟨answer, hfirst⟩ := exec_attempt_node contents opened hnode
            obtain ⟨hpaths, hfiles⟩ := ih (opened ++ [devPath e])
            rw [hfirst, hof]
            refine ⟨?_, ?_⟩
            · rw [hpaths, List.map_cons, ← List.append_cons]
            · rw [List.length_append, List.length_singleton] at hfiles
              rw [List.length_cons, nextFiles, List.range'_succ, List.map_cons]
              exact congrArg (_ :: ·) hfiles
          · have hof : openedOf cards (e :: entries) = openedOf cards entries := by
              unfold openedOf
              rw [List.filter_cons_of_neg]
              simp only [hpci, hnode, decide_false, Bool.and_false, Bool.false_eq_true,
                not_false_eq_true]
            rw [exec_attempt_not_node contents hnode, hof]
            exact ih opened

private theorem inOrder_of_counted
    (h : (counted lib).map (·.fd) = nextFiles 0 opened.length) : InOrder lib opened where
  count := by simpa [counted, nextFiles] using congrArg List.length h
  slot i hi := by
    have hcount : lib.numCards.toNat = opened.length := by
      simpa [counted, nextFiles] using congrArg List.length h
    have hget := congrArg (·[i]?) h
    simpa [counted, nextFiles, hcount, hi] using hget

/-! ## Finding all of them -/

theorem mem_openedOf {e : String} :
    e ∈ openedOf cards entries ↔ e ∈ entries ∧ hasPci e ∧ ∃ d ∈ cards, d.name = e := by
  unfold openedOf
  rw [List.mem_filter, Bool.and_eq_true, decide_eq_true_iff, List.mem_map]
  simp only [devPath_inj]

theorem name_mem_openedOf (h : Listing cards entries) {d : DeviceDescriptor} (hd : d ∈ cards) :
    d.name ∈ openedOf cards entries ↔ Seen d := by
  rw [mem_openedOf]
  constructor
  · rintro ⟨hmem, hpci, -⟩
    exact ⟨hpci, h.slash_notMem hmem⟩
  · rintro ⟨hpci, hslash⟩
    refine ⟨(h.mem _).mpr (.inr (.inr ⟨d, hd, ?_⟩)), hpci, d, hd, rfl⟩
    exact (topComponent_of_notMem hslash).symm

theorem pathOf_slot (horder : InOrder lib opened) {i : Nat} (hi : i < opened.length) :
    pathOf opened (lib.cards i).fd = some opened[i] := by
  have hfile : ((3 : Int) + i - 3).toNat = i := by omega
  have hpos : ¬(3 + i : Int) < 3 := by omega
  rw [pathOf, horder.slot i hi, if_neg hpos, hfile, List.getElem?_eq_getElem hi]

private theorem slot_iff (horder : InOrder lib opened) (hnodup : opened.Nodup) (path : String) :
    (∃! i, i < lib.numCards.toNat ∧ pathOf opened (lib.cards i).fd = some path) ↔
      path ∈ opened := by
  rw [horder.count]
  constructor
  · rintro ⟨i, ⟨hi, hpath⟩, -⟩
    rw [pathOf_slot horder hi] at hpath
    rw [← Option.some.inj hpath]
    exact List.getElem_mem hi
  · intro hmem
    obtain ⟨i, hi, rfl⟩ := List.getElem_of_mem hmem
    refine ⟨i, ⟨hi, pathOf_slot horder hi⟩, ?_⟩
    rintro j ⟨hj, hpath⟩
    rw [pathOf_slot horder hj] at hpath
    exact (hnodup.getElem_inj_iff).mp (Option.some.inj hpath)

private theorem nodup_opened (h : Listing cards entries) :
    ((openedOf cards entries).map devPath).Nodup :=
  (h.nodup.filter _).map fun _ _ heq => devPath_inj.mp heq

theorem exec_aiowdmInit (contents : String → CardDescriptor) (hlist : Listing cards entries)
    (hmax : cards.length ≤ 32) (memory : Nat → Card) :
    ∃ lib, (aiowdmInit (some entries) (.zeroed memory)).exec (devDir contents cards) [] =
        (.returned lib, (openedOf cards entries).map devPath) ∧
      InOrder lib ((openedOf cards entries).map devPath) := by
  have hfits := fits_of_candidates (devDir contents cards) [] (hlist.candidates_le.trans hmax)
  obtain ⟨hpaths, hfiles⟩ := exec_attempts_devDir contents cards [] entries
  rw [List.nil_append] at hpaths
  refine ⟨_, (exec_aiowdmInit_of_fits _ [] memory hfits).trans (by rw [hpaths]), ?_⟩
  apply inOrder_of_counted
  rw [counted_scanned memory hfits, List.length_map]
  exact hfiles

theorem findsAll_iff (hlist : Listing cards entries) (hnames : (cards.map (·.name)).Nodup)
    (hmax : cards.length ≤ 32) (horder : InOrder lib ((openedOf cards entries).map devPath)) :
    FindsAll cards lib ((openedOf cards entries).map devPath) ↔ ∀ d ∈ cards, Seen d := by
  have hslot : ∀ d ∈ cards, (∃! i, i < lib.numCards.toNat ∧
      pathOf ((openedOf cards entries).map devPath) (lib.cards i).fd = some (devPath d.name)) ↔
        Seen d := by
    intro d hd
    rw [slot_iff horder (nodup_opened hlist), ← name_mem_openedOf hlist hd, List.mem_map]
    simp only [devPath_inj, exists_eq_right]
  constructor
  · intro hall d hd
    exact (hslot d hd).mp (hall.slot d hd)
  · intro hseen
    have hnodup : (openedOf cards entries).Nodup := hlist.nodup.filter _
    have hperm : (openedOf cards entries).Perm (cards.map (·.name)) := by
      refine (List.perm_ext_iff_of_nodup hnodup hnames).mpr fun e => ?_
      rw [List.mem_map]
      constructor
      · intro he
        exact (mem_openedOf.mp he).2.2
      · rintro ⟨d, hd, rfl⟩
        exact (name_mem_openedOf hlist hd).mpr (hseen d hd)
    have hlen : ((openedOf cards entries).map devPath).length = cards.length := by
      rw [List.length_map, hperm.length_eq, List.length_map]
    refine ⟨?_, fun d hd => (hslot d hd).mpr (hseen d hd)⟩
    rw [getNumCards, BitVec.toNat_setWidth, horder.count, hlen]
    exact Nat.mod_eq_of_lt (by omega)

/-- After `AiowdmInit` on any listing of the directory of at most 32 cards with
different names, the library has found all of them exactly when every name has
"pci" in it and no slash, as have all in the table but those of eleven ids. -/
theorem findsAll_iff_seen (contents : String → CardDescriptor) (cards : List DeviceDescriptor)
    (hnames : (cards.map (·.name)).Nodup) (hmax : cards.length ≤ 32) (entries : List String)
    (hlist : Listing cards entries) (memory : Nat → Card) :
    (∃ lib opened, (aiowdmInit (some entries) (.zeroed memory)).exec (devDir contents cards) [] =
        (.returned lib, opened) ∧ (FindsAll cards lib opened ↔ ∀ d ∈ cards, Seen d)) ∧
      ∀ d ∈ accesioPciDeviceDescriptors, Seen d ↔ d.pid ∉ unseenIds := by
  obtain ⟨lib, hexec, horder⟩ := exec_aiowdmInit contents hlist hmax memory
  exact ⟨⟨lib, _, hexec, findsAll_iff hlist hnames hmax horder⟩, seen_rows⟩

theorem listing_of_names {cards : List DeviceDescriptor} {entries : List String}
    (hslash : ∀ d ∈ cards, '/' ∉ d.name.toList) (hnodup : entries.Nodup)
    (hmem : ∀ e, e ∈ entries ↔ e = "." ∨ e = ".." ∨ e ∈ cards.map (·.name)) :
    Listing cards entries := by
  refine ⟨hnodup, fun e => (hmem e).trans (or_congr_right (or_congr_right ?_))⟩
  rw [List.mem_map]
  refine exists_congr fun d => and_congr_right fun hd => ?_
  rw [topComponent_of_notMem (hslash d hd), eq_comm]

def blank : String → CardDescriptor := fun _ => ⟨0, 0, 0, 0, "", fun _ => 0⟩

theorem findsAll_iff_seen_two_cards :
    let cards := [withStyle 0x0c52 "pcie-dio-24" .pcie7, withStyle 0x0100 "mpcie-dio-24s" .pcie2]
    ∃ lib opened, (aiowdmInit (some ["mpcie-dio-24s", "..", "pcie-dio-24", "."])
        (.zeroed fun _ => ⟨0, none⟩)).exec (devDir blank cards) [] = (.returned lib, opened) ∧
      FindsAll cards lib opened := by
  intro cards
  have hlist : Listing cards ["mpcie-dio-24s", "..", "pcie-dio-24", "."] :=
    listing_of_names (by decide) (by decide) fun e => by
      simp only [cards, List.mem_cons, List.map_cons, List.map_nil, List.not_mem_nil, or_false,
        withStyle]
      tauto
  obtain ⟨⟨lib, opened, hexec, hfinds⟩, -⟩ := findsAll_iff_seen blank cards (by decide)
    (by decide) _ hlist fun _ => ⟨0, none⟩
  exact ⟨lib, opened, hexec, hfinds.mpr (by decide)⟩

/-- The name "p104-wdg-e" has no "pci" in it. -/
theorem card_not_found :
    ¬∀ (contents : String → CardDescriptor) (cards : List DeviceDescriptor)
      (entries : List String) (memory : Nat → Card) (lib : Statics) (opened : List String),
      cards ⊆ accesioPciDeviceDescriptors → (cards.map (·.name)).Nodup → cards.length ≤ 32 →
      Listing cards entries →
      (aiowdmInit (some entries) (.zeroed memory)).exec (devDir contents cards) [] =
        (.returned lib, opened) → FindsAll cards lib opened := by
  intro hall
  let card := withStyle 0x25c0 "p104-wdg-e" .pci6
  have hlist : Listing [card] [".", "..", card.name] :=
    listing_of_names (by decide) (by decide) fun e => by
      simp [card, withStyle]
  obtain ⟨lib, hexec, horder⟩ := exec_aiowdmInit blank hlist (by decide) fun _ => ⟨0, none⟩
  have hsub : [card] ⊆ accesioPciDeviceDescriptors := by decide +kernel
  have hfound := hall blank [card] _ _ lib _ hsub (by decide) (by decide) hlist hexec
  have hseen := (findsAll_iff hlist (by decide) (by decide) horder).mp hfound
  exact absurd (hseen card (List.mem_singleton_self card)) (by decide)

end Aiowdm.Proofs.CardDiscovery
