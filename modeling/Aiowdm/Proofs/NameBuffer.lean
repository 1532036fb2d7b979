import Aiowdm.Library.CardInfo
import Aiowdm.Proofs.DescriptorLeak

/-!
# The buffer for the name

`QueryCardInfo` hands the size it was given, or else the length of the name, to
`strncpy`.  That writes no terminator unless the name is shorter, and the length does
not count it.
-/

namespace Aiowdm.Proofs.NameBuffer

open Aiowdm.Lib Aiowdm.Driver.DeviceContext Aiowdm.Driver.DeviceTable
open Aiowdm.Driver.DescriptorGet (CardDescriptor describe)
open Aiowdm.Library.CardInfo
open Aiowdm.Library.Cards (Card Statics)
open Aiowdm.Proofs.DescriptorLeak (dioContext)
open Aiowdm.Proofs.RegisterBounds (ioBar)

/-! ## What the stores leave -/

def Apart (p : Option Nat) (q : Nat) : Prop := ∀ x ∈ p, x + 8 ≤ q ∨ q + 8 ≤ x

theorem apart_none (q : Nat) : Apart none q := by
  intro x hx
  cases hx

section

variable {p : Option Nat} {q : Nat} (d : CardDescriptor) (m : Bytes)

theorem longAt_store (p : Nat) (v : BitVec 64) : longAt (m.store p 8 v) p = v :=
  Bytes.load_store m p 8 v

theorem longAt_memberStored (h : Apart p q) (v : BitVec 64) :
    longAt (memberStored p v m) q = longAt m q := by
  cases p with
  | none => rfl
  | some p => exact Bytes.load_store_of_disjoint m (h p rfl) v

theorem longAt_idsStored {ptrs : Pointers} (hid : Apart ptrs.pDeviceID q)
    (hbase : Apart ptrs.pBase q) : longAt (idsStored d ptrs m) q = longAt m q := by
  rw [idsStored, longAt_memberStored _ hbase, longAt_memberStored _ hid]

theorem longAt_sizeStored (pNameSize : Nat) :
    longAt (sizeStored d pNameSize m) pNameSize =
      if longAt m pNameSize = 0 then d.nameSize else longAt m pNameSize := by
  rw [sizeStored]
  split
  · exact longAt_store m pNameSize d.nameSize
  · rfl

end

/-! ## The call with a buffer -/

def withBuffer (pDeviceID pBase : Option Nat) (pNameSize pName : Nat) : Pointers :=
  ⟨pDeviceID, pBase, some pNameSize, some pName⟩

/-- At most as many bytes as the caller said are written to the buffer, and where the
call succeeds it holds the longest beginning of the name that fits. -/
structure RespectsBuffer (lib : Statics) (cardNum : BitVec 32) (ptrs : Pointers)
    (pNameSize pName : Nat) (name : String) (m : Bytes) : Prop where
  bounded : ∀ dst src n, MemCall.strncpy dst src n ∈
    (queryCardInfo lib cardNum ptrs).calls memory m → n.toNat ≤ (longAt m pNameSize).toNat
  terminated : ((queryCardInfo lib cardNum ptrs).exec memory m).1 = .returned 0 →
    0 < (longAt m pNameSize).toNat →
      ((queryCardInfo lib cardNum ptrs).exec memory m).2.stringAt pName
        (longAt m pNameSize).toNat =
          some ((cBytes name).take ((longAt m pNameSize).toNat - 1))

section

variable {lib : Statics} {cardNum : BitVec 32} {d : CardDescriptor}
variable {pDeviceID pBase : Option Nat} {pNameSize pName : Nat} (m : Bytes)

def sizeUsed (d : CardDescriptor) (pNameSize : Nat) (m : Bytes) : BitVec 64 :=
  if longAt m pNameSize = 0 then d.nameSize else longAt m pNameSize

theorem longAt_stored (hid : Apart pDeviceID pNameSize) (hbase : Apart pBase pNameSize) :
    longAt (sizeStored d pNameSize
      (idsStored d (withBuffer pDeviceID pBase pNameSize pName) m)) pNameSize =
        sizeUsed d pNameSize m := by
  rw [longAt_sizeStored, longAt_idsStored d m hid hbase, sizeUsed]

theorem exec_withBuffer (pName : Nat) (hcard : cardNum < lib.numCards)
    (hd : (lib.cards cardNum.toNat).descriptor = some d) (hid : Apart pDeviceID pNameSize)
    (hbase : Apart pBase pNameSize) :
    ∃ m₁ : Bytes,
      (queryCardInfo lib cardNum (withBuffer pDeviceID pBase pNameSize pName)).exec memory m =
        (.returned 0, m₁.strncpy pName (cBytes d.name) (sizeUsed d pNameSize m).toNat) := by
  refine ⟨sizeStored d pNameSize (idsStored d (withBuffer pDeviceID pBase pNameSize pName) m), ?_⟩
  rw [exec_queryCardInfo_size _ m hcard hd rfl, ← longAt_stored m hid hbase]
  rfl

theorem strncpy_mem_calls_withBuffer (hcard : cardNum < lib.numCards)
    (hd : (lib.cards cardNum.toNat).descriptor = some d) (hid : Apart pDeviceID pNameSize)
    (hbase : Apart pBase pNameSize) {dst : Nat} {src : List (BitVec 8)} {n : BitVec 64} :
    MemCall.strncpy dst src n ∈
      (queryCardInfo lib cardNum (withBuffer pDeviceID pBase pNameSize pName)).calls memory m ↔
        some pName = some dst ∧ src = cBytes d.name ∧ n = sizeUsed d pNameSize m := by
  rw [← longAt_stored m hid hbase]
  exact strncpy_mem_calls _ m hcard hd rfl

theorem respectsBuffer_iff_of_nameSize (hcard : cardNum < lib.numCards)
    (hd : (lib.cards cardNum.toNat).descriptor = some d) (hid : Apart pDeviceID pNameSize)
    (hbase : Apart pBase pNameSize) (hsize : d.nameSize.toNat = (cBytes d.name).length) :
    RespectsBuffer lib cardNum (withBuffer pDeviceID pBase pNameSize pName) pNameSize pName
        d.name m ↔
      (cBytes d.name).length < (longAt m pNameSize).toNat ∨
        (longAt m pNameSize).toNat = 0 ∧ (cBytes d.name).length = 0 := by
  obtain ⟨m₁, hexec⟩ := exec_withBuffer m pName hcard hd hid hbase
  have hzero : longAt m pNameSize = 0 ↔ (longAt m pNameSize).toNat = 0 := BitVec.toNat_eq
  constructor
  · rintro ⟨hbounded, hterminated⟩
    have hle := hbounded pName _ _ ((strncpy_mem_calls_withBuffer m hcard hd hid hbase).mpr
      ⟨rfl, rfl, rfl⟩)
    by_cases hn : longAt m pNameSize = 0
    · have hn0 := hzero.mp hn
      rw [sizeUsed, if_pos hn, hsize] at hle
      omega
    · have hn0 := mt hzero.mpr hn
      left
      by_contra hlen
      have hstring := hterminated (by rw [hexec]) (by omega)
      rw [hexec, sizeUsed, if_neg hn] at hstring
      rw [Bytes.stringAt_strncpy (not_mem_cBytes d.name), if_neg hlen] at hstring
      cases hstring
  · intro hlen
    constructor
    · intro dst src n hmem
      obtain ⟨-, -, rfl⟩ := (strncpy_mem_calls_withBuffer m hcard hd hid hbase).mp hmem
      rw [sizeUsed]
      split
      · rename_i hn
        have hn0 := hzero.mp hn
        omega
      · exact Nat.le_refl _
    · intro _ hpos
      have hlt : (cBytes d.name).length < (longAt m pNameSize).toNat := by omega
      have hn : ¬longAt m pNameSize = 0 := mt hzero.mp (by omega)
      rw [hexec, sizeUsed, if_neg hn]
      rw [Bytes.stringAt_strncpy (not_mem_cBytes d.name), if_pos hlt,
        List.take_of_length_le (by omega)]

end

/-! ## The two calls -/

def forSize (pDeviceID pBase : Option Nat) (pNameSize : Nat) : Pointers :=
  ⟨pDeviceID, pBase, some pNameSize, none⟩

section

variable (lib : Statics) (cardNum : BitVec 32) (pDeviceID pBase : Option Nat)
variable (pNameSize pName : Nat) (m : Bytes)

def sizeLearned : Bytes :=
  ((queryCardInfo lib cardNum (forSize pDeviceID pBase pNameSize)).exec memory
    (m.store pNameSize 8 (0 : BitVec 64))).2

def nameLearned : Option (List (BitVec 8)) :=
  let m := sizeLearned lib cardNum pDeviceID pBase pNameSize m
  ((queryCardInfo lib cardNum (withBuffer pDeviceID pBase pNameSize pName)).exec memory
    m).2.stringAt pName (longAt m pNameSize).toNat

end

section

variable {lib : Statics} {cardNum : BitVec 32} {d : CardDescriptor}
variable {pDeviceID pBase : Option Nat} {pNameSize pName : Nat} (m : Bytes)

private theorem longAt_sizeLearned (hcard : cardNum < lib.numCards)
    (hd : (lib.cards cardNum.toNat).descriptor = some d) (hid : Apart pDeviceID pNameSize)
    (hbase : Apart pBase pNameSize) :
    longAt (sizeLearned lib cardNum pDeviceID pBase pNameSize m) pNameSize = d.nameSize := by
  have hexec := exec_queryCardInfo_size (forSize pDeviceID pBase pNameSize)
    (m.store pNameSize 8 (0 : BitVec 64)) hcard hd rfl
  have hzero : longAt (idsStored d (forSize pDeviceID pBase pNameSize)
      (m.store pNameSize 8 (0 : BitVec 64))) pNameSize = 0 := by
    rw [longAt_idsStored d _ hid hbase]
    exact longAt_store m pNameSize 0
  rw [sizeLearned, hexec]
  refine (longAt_sizeStored d _ pNameSize).trans ?_
  rw [if_pos hzero]

/-- A buffer of the length of the name has no room for the terminator. -/
theorem nameLearned_eq_none (hcard : cardNum < lib.numCards)
    (hd : (lib.cards cardNum.toNat).descriptor = some d) (hid : Apart pDeviceID pNameSize)
    (hbase : Apart pBase pNameSize) (hsize : d.nameSize.toNat = (cBytes d.name).length) :
    nameLearned lib cardNum pDeviceID pBase pNameSize pName m = none := by
  have hlearned := longAt_sizeLearned m hcard hd hid hbase
  obtain ⟨m₁, hexec⟩ := exec_withBuffer (sizeLearned lib cardNum pDeviceID pBase pNameSize m) pName
    hcard hd hid hbase
  have hused : sizeUsed d pNameSize (sizeLearned lib cardNum pDeviceID pBase pNameSize m) =
      d.nameSize := by
    rw [sizeUsed, hlearned]
    split <;> rfl
  rw [hused] at hexec
  simp only [nameLearned, hexec, hlearned]
  rw [Bytes.stringAt_strncpy (not_mem_cBytes d.name), if_neg (by omega)]

end

private theorem toNat_nameSize_describe (pci : PciDev → PciResources)
    (starts : PciDev → Fin PCI_STD_NUM_BARS → BitVec 64) (context : Context)
    {model : DeviceDescriptor} (dev : PciDev) (hname : model.name.utf8ByteSize < 64)
    (hstring : IsCString model.name) :
    (describe pci starts context model dev).nameSize.toNat = (cBytes model.name).length := by
  rw [length_cBytes hstring]
  change (BitVec.ofNat 64 model.name.utf8ByteSize).toNat = _
  rw [BitVec.toNat_ofNat, Nat.mod_eq_of_lt (by omega)]

/-- For every card that the driver describes, every name that fits the descriptor and
every size the caller gives: the call respects the buffer exactly where the name is
shorter than the size, or both are 0.  The two calls never give the name. -/
theorem respectsBuffer_iff (pci : PciDev → PciResources)
    (starts : PciDev → Fin PCI_STD_NUM_BARS → BitVec 64) (context : Context)
    (model : DeviceDescriptor) (dev : PciDev) (lib : Statics) (cardNum : BitVec 32)
    (hcard : cardNum < lib.numCards)
    (hd : (lib.cards cardNum.toNat).descriptor = some (describe pci starts context model dev))
    (hname : model.name.utf8ByteSize < 64) (hstring : IsCString model.name)
    (pDeviceID pBase : Option Nat) (pNameSize pName : Nat) (hid : Apart pDeviceID pNameSize)
    (hbase : Apart pBase pNameSize) (m : Bytes) :
    (RespectsBuffer lib cardNum (withBuffer pDeviceID pBase pNameSize pName) pNameSize pName
        model.name m ↔
      model.name.utf8ByteSize < (longAt m pNameSize).toNat ∨
        (longAt m pNameSize).toNat = 0 ∧ model.name.utf8ByteSize = 0) ∧
      nameLearned lib cardNum pDeviceID pBase pNameSize pName m ≠ some (cBytes model.name) := by
  have hsize := toNat_nameSize_describe pci starts context dev hname hstring
  constructor
  · rw [← length_cBytes hstring]
    exact respectsBuffer_iff_of_nameSize m hcard hd hid hbase hsize
  · rw [nameLearned_eq_none m hcard hd hid hbase hsize]
    exact nofun

/-! ## One card -/

def oneCard : Statics where
  cards := fun _ =>
    ⟨3, some (describe ioBar (fun _ _ => 0xd000) dioContext
      (withStyle 0x0c52 "pcie-dio-24" .pcie7) 1)⟩
  numCards := 1
  initComplete := true

def passing (n : BitVec 64) : Bytes := Bytes.store (fun _ => 0) 16 8 n

theorem respectsBuffer_iff_pcieDio24 :
    (RespectsBuffer oneCard 0 (withBuffer (some 0) (some 8) 16 24) 16 24 "pcie-dio-24"
        (passing 512) ↔
      "pcie-dio-24".utf8ByteSize <
          (longAt (passing 512) 16).toNat ∨
        (longAt (passing 512) 16).toNat = 0 ∧
          "pcie-dio-24".utf8ByteSize = 0) ∧
      nameLearned oneCard 0 (some 0) (some 8) 16 24
        (passing 512) ≠ some (cBytes "pcie-dio-24") :=
  respectsBuffer_iff ioBar (fun _ _ => 0xd000) dioContext
    (withStyle 0x0c52 "pcie-dio-24" .pcie7) 1 oneCard 0 (by decide) rfl (by decide) (by decide)
    (some 0) (some 8) 16 24 (by rintro x ⟨⟩; decide) (by rintro x ⟨⟩; decide) _

/-- A buffer of eleven bytes for "pcie-dio-24" is filled without a terminator. -/
theorem name_not_terminated :
    ¬∀ (pci : PciDev → PciResources) (starts : PciDev → Fin PCI_STD_NUM_BARS → BitVec 64)
      (context : Context) (model : DeviceDescriptor) (dev : PciDev) (lib : Statics)
      (cardNum : BitVec 32), cardNum < lib.numCards →
        (lib.cards cardNum.toNat).descriptor = some (describe pci starts context model dev) →
        model.name.utf8ByteSize < 64 → IsCString model.name →
          ∀ (pNameSize pName : Nat) (m : Bytes),
            RespectsBuffer lib cardNum (withBuffer none none pNameSize pName) pNameSize pName
              model.name m := by
  intro hall
  have hrespects := hall ioBar (fun _ _ => 0xd000) dioContext
    (withStyle 0x0c52 "pcie-dio-24" .pcie7) 1 oneCard 0 (by decide) rfl (by decide) (by decide)
    16 24 (passing 11)
  have hcard : (0 : BitVec 32) < oneCard.numCards := by decide
  have hlen := (respectsBuffer_iff_of_nameSize _ hcard rfl (apart_none 16) (apart_none 16)
    (by decide)).mp hrespects
  exact absurd hlen (by decide)

end Aiowdm.Proofs.NameBuffer
