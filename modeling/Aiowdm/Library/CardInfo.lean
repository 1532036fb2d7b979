import Aiowdm.Lib.CString
import Aiowdm.Library.Cards

/-!
# Asking about a card

`QueryCardInfo` of `aiowdm.cpp`, access by access to the memory of its caller.
-/

namespace Aiowdm.Library.CardInfo

open Aiowdm.Lib Aiowdm.Library.Cards
open Aiowdm.Driver.DescriptorGet (CardDescriptor)
open Aiowdm.Driver.Probe (Ending)

/-! ## The memory of the caller -/

/-- Loads and stores of an `unsigned long`, and `strncpy` from the descriptor of a
card, whose bytes before the terminator are `src`. -/
inductive MemCall where
  | load (p : Nat)
  | store (p : Nat) (v : BitVec 64)
  | strncpy (dst : Nat) (src : List (BitVec 8)) (n : BitVec 64)
deriving DecidableEq, Repr

def MemCall.Reply : MemCall → Type
  | .load _ => BitVec 64
  | .store _ _ | .strncpy _ _ _ => Unit

def mem : Interface := ⟨MemCall, MemCall.Reply⟩

def load (p : Nat) : Prog mem (BitVec 64) := .perform (I := mem) (.load p)

def store (p : Nat) (v : BitVec 64) : Prog mem Unit := .perform (I := mem) (.store p v)

def strncpy (dst : Nat) (src : List (BitVec 8)) (n : BitVec 64) : Prog mem Unit :=
  .perform (I := mem) (.strncpy dst src n)

def longAt (m : Bytes) (p : Nat) : BitVec 64 := m.load p 8

def memory : Handler mem Bytes
  | .load p, m => (longAt m p, m)
  | .store p v, m => ((), m.store p 8 v)
  | .strncpy dst src n, m => ((), m.strncpy dst src n.toNat)

section Running

variable {α : Type} (m : Bytes) (p : Nat)

theorem exec_load (k : BitVec 64 → Prog mem α) :
    (load p >>= k).exec memory m = (k (longAt m p)).exec memory m := rfl

theorem strncpy_mem_calls_load {dst : Nat} {src : List (BitVec 8)} {n : BitVec 64}
    (k : BitVec 64 → Prog mem α) :
    MemCall.strncpy dst src n ∈ (load p >>= k).calls memory m ↔
      MemCall.strncpy dst src n ∈ (k (longAt m p)).calls memory m :=
  ⟨fun h => (List.mem_cons.mp h).resolve_left nofun, List.mem_cons_of_mem _⟩

end Running

/-! ## QueryCardInfo -/

/-- The pointers that the caller gives; `none` is NULL. -/
structure Pointers where
  pDeviceID : Option Nat
  pBase : Option Nat
  pNameSize : Option Nat
  pName : Option Nat
deriving DecidableEq, Repr

/-- `if (p) *p = v`, with `v` a member of the descriptor.  It answers `false` where
there is a pointer and no descriptor. -/
def storeMember : (p : Option Nat) → (v : Option (BitVec 64)) → Prog mem Bool
  | none, _ => pure true
  | some p, some v => do
      store p v
      return true
  | some _, none => pure false

/-- The status is unsigned. -/
def queryCardInfo (lib : Statics) (cardNum : BitVec 32) (ptrs : Pointers) :
    Prog mem (Ending (BitVec 32)) := do
  if lib.numCards ≤ cardNum then
    return .returned (BitVec.ofInt 32 (-EINVAL))
  let descriptor := (lib.cards cardNum.toNat).descriptor
  if (← storeMember ptrs.pDeviceID (descriptor.map (·.deviceId.setWidth 64))) = false then
    return .undefined
  if (← storeMember ptrs.pBase (descriptor.map (·.portBase))) = false then
    return .undefined
  match ptrs.pNameSize with
  | none => return .returned (if ptrs.pName.isSome then BitVec.ofInt 32 (-EINVAL) else 0)
  | some pNameSize =>
      let size ← load pNameSize
      let learn := if size = 0 then some pNameSize else none
      if (← storeMember learn (descriptor.map (·.nameSize))) = false then
        return .undefined
      match ptrs.pName, descriptor with
      | none, _ => return .returned 0
      | some _, none => return .undefined
      | some pName, some d =>
          let n ← load pNameSize
          strncpy pName (cBytes d.name) n
          return .returned 0

section

variable {α : Type} (m : Bytes)

def memberStored (p : Option Nat) (v : BitVec 64) (m : Bytes) : Bytes :=
  p.elim m fun p => m.store p 8 v

theorem exec_storeMember (p : Option Nat) (v : BitVec 64) (q r : Prog mem α) :
    (storeMember p (some v) >>= fun ok => if ok = false then q else r).exec memory m =
      r.exec memory (memberStored p v m) := by
  cases p <;> rfl

theorem strncpy_mem_calls_storeMember {dst : Nat} {src : List (BitVec 8)} {n : BitVec 64}
    (p : Option Nat) (v : BitVec 64) (q r : Prog mem α) :
    MemCall.strncpy dst src n ∈
        (storeMember p (some v) >>= fun ok => if ok = false then q else r).calls memory m ↔
      MemCall.strncpy dst src n ∈ r.calls memory (memberStored p v m) := by
  cases p with
  | none => exact Iff.rfl
  | some p => exact ⟨fun h => (List.mem_cons.mp h).resolve_left nofun, List.mem_cons_of_mem _⟩

end

/-! ## A card with a descriptor -/

section

variable {lib : Statics} {cardNum : BitVec 32} {d : CardDescriptor} (ptrs : Pointers) (m : Bytes)

theorem exec_queryCardInfo_missing (h : lib.numCards ≤ cardNum) :
    (queryCardInfo lib cardNum ptrs).exec memory m =
      (.returned (BitVec.ofInt 32 (-EINVAL)), m) := by
  simp only [queryCardInfo, if_pos h]
  rfl

def idsStored (d : CardDescriptor) (ptrs : Pointers) (m : Bytes) : Bytes :=
  memberStored ptrs.pBase d.portBase (memberStored ptrs.pDeviceID (d.deviceId.setWidth 64) m)

def sizeStored (d : CardDescriptor) (pNameSize : Nat) (m : Bytes) : Bytes :=
  if longAt m pNameSize = 0 then m.store pNameSize 8 d.nameSize else m

theorem exec_queryCardInfo_noSize (hcard : cardNum < lib.numCards)
    (hd : (lib.cards cardNum.toNat).descriptor = some d) (hsize : ptrs.pNameSize = none) :
    (queryCardInfo lib cardNum ptrs).exec memory m =
      (.returned (if ptrs.pName.isSome then BitVec.ofInt 32 (-EINVAL) else 0),
        idsStored d ptrs m) := by
  have hle : ¬lib.numCards ≤ cardNum := BitVec.not_le.mpr hcard
  simp only [queryCardInfo, if_neg hle, hd, Option.map_some, exec_storeMember, hsize]
  rfl

theorem memberStored_learn (pNameSize : Nat) (m : Bytes) :
    memberStored (if longAt m pNameSize = 0 then some pNameSize else none) d.nameSize m =
      sizeStored d pNameSize m := by
  rw [sizeStored]
  split <;> rfl

theorem exec_queryCardInfo_size (hcard : cardNum < lib.numCards)
    (hd : (lib.cards cardNum.toNat).descriptor = some d) {pNameSize : Nat}
    (hsize : ptrs.pNameSize = some pNameSize) :
    (queryCardInfo lib cardNum ptrs).exec memory m =
      (.returned 0,
        let m := sizeStored d pNameSize (idsStored d ptrs m)
        ptrs.pName.elim m fun pName =>
          m.strncpy pName (cBytes d.name) (longAt m pNameSize).toNat) := by
  have hle : ¬lib.numCards ≤ cardNum := BitVec.not_le.mpr hcard
  simp only [queryCardInfo, if_neg hle, hd, Option.map_some, exec_storeMember, hsize, exec_load,
    memberStored_learn]
  cases ptrs.pName <;> rfl

theorem strncpy_mem_calls (hcard : cardNum < lib.numCards)
    (hd : (lib.cards cardNum.toNat).descriptor = some d) {pNameSize : Nat}
    (hsize : ptrs.pNameSize = some pNameSize) {dst : Nat} {src : List (BitVec 8)}
    {n : BitVec 64} :
    MemCall.strncpy dst src n ∈ (queryCardInfo lib cardNum ptrs).calls memory m ↔
      ptrs.pName = some dst ∧ src = cBytes d.name ∧
        n = longAt (sizeStored d pNameSize (idsStored d ptrs m)) pNameSize := by
  have hle : ¬lib.numCards ≤ cardNum := BitVec.not_le.mpr hcard
  simp only [queryCardInfo, if_neg hle, hd, Option.map_some, strncpy_mem_calls_storeMember, hsize,
    strncpy_mem_calls_load, memberStored_learn]
  cases ptrs.pName with
  | none => exact iff_of_false (by nofun) (by nofun)
  | some pName =>
      change _ ∈ [MemCall.load pNameSize, MemCall.strncpy pName (cBytes d.name)
        (longAt (sizeStored d pNameSize (idsStored d ptrs m)) pNameSize)] ↔ _
      simp [eq_comm]

end

end Aiowdm.Library.CardInfo
