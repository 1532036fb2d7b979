import Aiowdm.Proofs.NameBuffer

/-!
# What QueryCardInfo stores

Pointers to objects apart from one another get what `Cards.queryCardInfo` says.  The
check of the name comes after the first two members are stored, so a call that it ends
has changed them.
-/

namespace Aiowdm.Proofs.QueryOutputs

open Aiowdm.Lib Aiowdm.Driver.Probe Aiowdm.Library.CardInfo
open Aiowdm.Driver.DescriptorGet (CardDescriptor)
open Aiowdm.Library.Cards (Card Statics EINVAL CardInfo)
open Aiowdm.Library Aiowdm.Proofs.NameBuffer

variable {lib : Statics} {cardNum : BitVec 32} {ptrs : Pointers} {d : CardDescriptor}

/-! ## A card without a descriptor -/

section

variable {α : Type} (m : Bytes)

theorem snd_exec_storeMember {p : Option Nat} {q r : Prog mem α} (hq : (q.exec memory m).2 = m)
    (hr : (r.exec memory m).2 = m) :
    ((storeMember p none >>= fun ok => if ok = false then q else r).exec memory m).2 = m := by
  cases p with
  | none => exact hr
  | some p => exact hq

private theorem exec_queryCardInfo_noDescriptor (hcard : cardNum < lib.numCards)
    (hd : (lib.cards cardNum.toNat).descriptor = none) :
    ((queryCardInfo lib cardNum ptrs).exec memory m).2 = m := by
  have hle : ¬lib.numCards ≤ cardNum := BitVec.not_le.mpr hcard
  simp only [queryCardInfo, if_neg hle, hd, Option.map_none]
  apply snd_exec_storeMember m rfl
  apply snd_exec_storeMember m rfl
  cases ptrs.pNameSize with
  | none => rfl
  | some pNameSize =>
      apply snd_exec_storeMember m rfl
      cases ptrs.pName <;> rfl

end

/-! ## The outputs -/

/-- The objects of the pointers are apart from one another, with `n` bytes for the name. -/
structure Distinct (ptrs : Pointers) (n : Nat) : Prop where
  deviceBase : ∀ q ∈ ptrs.pBase, Apart ptrs.pDeviceID q
  deviceSize : ∀ q ∈ ptrs.pNameSize, Apart ptrs.pDeviceID q
  baseSize : ∀ q ∈ ptrs.pNameSize, Apart ptrs.pBase q
  deviceName : ∀ q ∈ ptrs.pDeviceID, ∀ p ∈ ptrs.pName, p + n ≤ q ∨ q + 8 ≤ p
  baseName : ∀ q ∈ ptrs.pBase, ∀ p ∈ ptrs.pName, p + n ≤ q ∨ q + 8 ≤ p
  sizeName : ∀ q ∈ ptrs.pNameSize, ∀ p ∈ ptrs.pName, p + n ≤ q ∨ q + 8 ≤ p

section

variable (m : Bytes)

private theorem longAt_idsStored_device {n p : Nat} (h : Distinct ptrs n)
    (hp : ptrs.pDeviceID = some p) :
    longAt (idsStored d ptrs m) p = d.deviceId.setWidth 64 := by
  have hapart : Apart ptrs.pBase p := fun q hq => (h.deviceBase q hq p hp).symm
  rw [idsStored, longAt_memberStored _ hapart, hp]
  exact longAt_store m p _

private theorem longAt_idsStored_base {p : Nat} (hp : ptrs.pBase = some p) :
    longAt (idsStored d ptrs m) p = d.portBase := by
  rw [idsStored, hp]
  exact longAt_store _ p d.portBase

theorem longAt_sizeStored_of_apart {p q : Nat} (h : p + 8 ≤ q ∨ q + 8 ≤ p) :
    longAt (sizeStored d q m) p = longAt m p := by
  rw [sizeStored]
  split
  · exact Bytes.load_store_of_disjoint m h.symm d.nameSize
  · rfl

private theorem longAt_strncpy {p q : Nat} {s : List (BitVec 8)} {n : Nat}
    (h : p + n ≤ q ∨ q + 8 ≤ p) :
    longAt (m.strncpy p s n) q = longAt m q := by
  apply Bytes.load_congr
  intro x hle hlt
  refine Bytes.write_of_not_mem ?_
  rw [Bytes.length_strncpy]
  omega

def nameStored (pName : Option Nat) (s : List (BitVec 8)) (n : Nat) (m : Bytes) : Bytes :=
  pName.elim m fun pName => m.strncpy pName s n

theorem longAt_nameStored {pName : Option Nat} {q n : Nat} {s : List (BitVec 8)}
    (h : ∀ p ∈ pName, p + n ≤ q ∨ q + 8 ≤ p) : longAt (nameStored pName s n m) q = longAt m q := by
  cases pName with
  | none => rfl
  | some p => exact longAt_strncpy m (h p rfl)

end

structure Stored (ptrs : Pointers) (info : CardInfo) (m : Bytes) : Prop where
  deviceId : ∀ p ∈ ptrs.pDeviceID, ∀ v ∈ info.deviceId, longAt m p = v
  base : ∀ p ∈ ptrs.pBase, ∀ v ∈ info.base, longAt m p = v
  nameSize : ∀ p ∈ ptrs.pNameSize, ∀ v ∈ info.nameSize, longAt m p = v

private theorem stored_nothing (ptrs : Pointers) (m : Bytes) : Stored ptrs .nothing m where
  deviceId p _ v hv := by cases hv
  base p _ v hv := by cases hv
  nameSize p _ v hv := by cases hv

theorem eq_of_mem_ite {c : Bool} {v w : BitVec 64} (h : v ∈ if c then some w else none) :
    w = v := by
  split at h
  · exact Option.some.inj h
  · cases h

theorem stored_of_ids (m : Bytes) {m' : Bytes} {n : Nat} {nameSize : Option (BitVec 64)}
    {name : Option String} (h : Distinct ptrs n)
    (hkeep : ∀ p, p ∈ ptrs.pDeviceID ∨ p ∈ ptrs.pBase →
      longAt m' p = longAt (idsStored d ptrs m) p)
    (hsize : ∀ p ∈ ptrs.pNameSize, ∀ v ∈ nameSize, longAt m' p = v) :
    Stored ptrs
      ⟨if ptrs.pDeviceID.isSome then some (d.deviceId.setWidth 64) else none,
        if ptrs.pBase.isSome then some d.portBase else none, nameSize, name⟩ m' where
  deviceId p hp v hv := by
    rw [hkeep p (.inl hp), longAt_idsStored_device m h hp]
    exact eq_of_mem_ite hv
  base p hp v hv := by
    rw [hkeep p (.inr hp), longAt_idsStored_base m hp]
    exact eq_of_mem_ite hv
  nameSize := hsize

private theorem stored_of_size (m : Bytes) {q : Nat} {name : Option String}
    (hq : ptrs.pNameSize = some q)
    (h : Distinct ptrs (sizeUsed d q m).toNat) :
    Stored ptrs
      ⟨if ptrs.pDeviceID.isSome then some (d.deviceId.setWidth 64) else none,
        if ptrs.pBase.isSome then some d.portBase else none, some (sizeUsed d q m), name⟩
      (nameStored ptrs.pName (cBytes d.name) (sizeUsed d q m).toNat
        (sizeStored d q (idsStored d ptrs m))) := by
  refine stored_of_ids m h ?_ ?_
  · rintro p (hp | hp)
    · rw [longAt_nameStored _ (h.deviceName p hp)]
      exact longAt_sizeStored_of_apart _ (h.deviceSize q hq p hp)
    · rw [longAt_nameStored _ (h.baseName p hp)]
      exact longAt_sizeStored_of_apart _ (h.baseSize q hq p hp)
  · intro p hp v hv
    obtain rfl : q = p := Option.some.inj (hq.symm.trans hp)
    rw [longAt_nameStored _ (h.sizeName q hq), longAt_sizeStored,
      longAt_idsStored d m (h.deviceSize q hq) (h.baseSize q hq)]
    exact Option.some.inj hv

/-- Access by access, the call does what `Cards.queryCardInfo` says it does. -/
theorem queryCardInfo_agrees (m : Bytes) {status : BitVec 32} {info : CardInfo}
    (hinfo : Cards.queryCardInfo lib cardNum ptrs.pDeviceID.isSome ptrs.pBase.isSome
      (ptrs.pNameSize.map (longAt m)) ptrs.pName.isSome = .returned (status, info))
    (hdistinct : Distinct ptrs (info.nameSize.getD 0).toNat) :
    ((queryCardInfo lib cardNum ptrs).exec memory m).1 = .returned status ∧
      Stored ptrs info ((queryCardInfo lib cardNum ptrs).exec memory m).2 := by
  by_cases hcard : cardNum < lib.numCards
  · rw [Cards.queryCardInfo, if_neg (BitVec.not_le.mpr hcard)] at hinfo
    cases hd : (lib.cards cardNum.toNat).descriptor with
    | none =>
        rw [hd] at hinfo
        cases hinfo
    | some d =>
        rw [hd] at hinfo
        cases hsize : ptrs.pNameSize with
        | none =>
            have hnone : ∀ p ∈ ptrs.pNameSize, ∀ v ∈ (none : Option (BitVec 64)),
                longAt (idsStored d ptrs m) p = v := by
              intro p _ v hv
              cases hv
            rw [exec_queryCardInfo_noSize ptrs m hcard hd hsize]
            simp only [hsize, Option.map_none, true_and] at hinfo
            split at hinfo
            · rename_i hname
              cases hinfo
              exact ⟨congrArg _ (if_pos hname), stored_of_ids m hdistinct (fun _ _ => rfl) hnone⟩
            · rename_i hname
              cases hinfo
              exact ⟨congrArg _ (if_neg hname), stored_of_ids m hdistinct (fun _ _ => rfl) hnone⟩
        | some q =>
            simp only [hsize, Option.map_some, reduceCtorEq, false_and, if_false] at hinfo
            cases hinfo
            have hused : longAt (sizeStored d q (idsStored d ptrs m)) q = sizeUsed d q m := by
              rw [longAt_sizeStored, longAt_idsStored d m (hdistinct.deviceSize q hsize)
                (hdistinct.baseSize q hsize), sizeUsed]
            rw [exec_queryCardInfo_size ptrs m hcard hd hsize]
            refine ⟨rfl, ?_⟩
            change Stored ptrs _ (nameStored ptrs.pName (cBytes d.name)
              (longAt (sizeStored d q (idsStored d ptrs m)) q).toNat
              (sizeStored d q (idsStored d ptrs m)))
            rw [hused]
            exact stored_of_size m hsize hdistinct
  · rw [Cards.queryCardInfo, if_pos (BitVec.not_lt.mp hcard)] at hinfo
    cases hinfo
    rw [exec_queryCardInfo_missing ptrs m (BitVec.not_lt.mp hcard)]
    exact ⟨rfl, stored_nothing ptrs m⟩

/-! ## Errors -/

/-- A call that returns `-EINVAL` leaves the memory of the caller, whatever it held. -/
def AtomicOnError (lib : Statics) (cardNum : BitVec 32) (ptrs : Pointers) : Prop :=
  ∀ m : Bytes, ((queryCardInfo lib cardNum ptrs).exec memory m).1 =
      .returned (BitVec.ofInt 32 (-EINVAL)) →
    ((queryCardInfo lib cardNum ptrs).exec memory m).2 = m

theorem exists_store_ne (F : Bytes → Bytes) (p : Nat) (v : BitVec 64) :
    ∃ m : Bytes, Bytes.store (F m) p 8 v ≠ m := by
  refine ⟨fun _ => v.extractLsb' 0 8 + 1, fun heq => ?_⟩
  have hbyte := congrFun heq p
  rw [Bytes.store_of_mem (by omega), Nat.sub_self] at hbyte
  have hne : ∀ b : BitVec 8, b ≠ b + 1 := by decide
  exact hne _ hbyte

private theorem idsStored_eq_iff :
    (∀ m, idsStored d ptrs m = m) ↔ ptrs.pDeviceID = none ∧ ptrs.pBase = none := by
  constructor
  · intro hall
    cases hbase : ptrs.pBase with
    | some p =>
        obtain ⟨m, hne⟩ := exists_store_ne
          (memberStored ptrs.pDeviceID (d.deviceId.setWidth 64)) p d.portBase
        have heq := hall m
        rw [idsStored, hbase] at heq
        exact absurd heq hne
    | none =>
        cases hid : ptrs.pDeviceID with
        | some p =>
            obtain ⟨m, hne⟩ := exists_store_ne id p (d.deviceId.setWidth 64)
            have heq := hall m
            rw [idsStored, hbase, hid] at heq
            exact absurd heq hne
        | none => exact ⟨rfl, rfl⟩
  · rintro ⟨hid, hbase⟩ m
    rw [idsStored, hid, hbase]
    rfl

theorem returned_zero_ne_einval :
    (Ending.returned 0 : Ending (BitVec 32)) ≠ .returned (BitVec.ofInt 32 (-EINVAL)) := by
  intro h
  cases h

private theorem atomicOnError_iff_of_descriptor (hcard : cardNum < lib.numCards)
    (hd : (lib.cards cardNum.toNat).descriptor = some d) :
    AtomicOnError lib cardNum ptrs ↔
      ¬(ptrs.pNameSize = none ∧ ptrs.pName.isSome ∧
        (ptrs.pDeviceID.isSome ∨ ptrs.pBase.isSome)) := by
  cases hsize : ptrs.pNameSize with
  | some pNameSize =>
      refine iff_of_true (fun m hret => ?_) nofun
      rw [exec_queryCardInfo_size ptrs m hcard hd hsize] at hret
      exact absurd hret returned_zero_ne_einval
  | none =>
      have hexec := fun m => exec_queryCardInfo_noSize ptrs m hcard hd hsize
      cases hname : ptrs.pName with
      | none =>
          refine iff_of_true (fun m hret => ?_) nofun
          rw [hexec, hname] at hret
          exact absurd hret returned_zero_ne_einval
      | some pName =>
          have hatomic : AtomicOnError lib cardNum ptrs ↔ ∀ m, idsStored d ptrs m = m := by
            refine forall_congr' fun m => ?_
            rw [hexec, hname]
            exact imp_iff_right rfl
          rw [hatomic, idsStored_eq_iff]
          simp [Option.isSome_iff_ne_none]

/-- For every library, card number and choice of pointers, and whatever they point to: an
error leaves the caller's memory exactly where there is no card to describe, or no name
without a size, or no pointer before them. -/
theorem atomicOnError_iff (lib : Statics) (cardNum : BitVec 32) (ptrs : Pointers) :
    AtomicOnError lib cardNum ptrs ↔
      ¬(cardNum < lib.numCards ∧ (lib.cards cardNum.toNat).descriptor.isSome ∧
        ptrs.pNameSize = none ∧ ptrs.pName.isSome ∧
          (ptrs.pDeviceID.isSome ∨ ptrs.pBase.isSome)) := by
  by_cases hcard : cardNum < lib.numCards
  · cases hd : (lib.cards cardNum.toNat).descriptor with
    | none =>
        exact iff_of_true (fun m _ => exec_queryCardInfo_noDescriptor m hcard hd) nofun
    | some d =>
        have hsome : (some d).isSome = true := rfl
        rw [atomicOnError_iff_of_descriptor hcard hd, and_iff_right hcard, and_iff_right hsome]
  · refine iff_of_true (fun m _ => ?_) fun h => hcard h.1
    rw [exec_queryCardInfo_missing ptrs m (BitVec.not_lt.mp hcard)]

/-- A call with a device id to store and a name without a size fails after it has stored
the device id. -/
theorem failed_call_stores :
    ¬∀ (lib : Statics) (cardNum : BitVec 32) (ptrs : Pointers),
      AtomicOnError lib cardNum ptrs := by
  intro hall
  have hmemory := hall oneCard 0 ⟨some 0, none, none, some 8⟩ (fun _ => 0) rfl
  exact absurd (congrFun hmemory 0) (by decide)

end Aiowdm.Proofs.QueryOutputs
