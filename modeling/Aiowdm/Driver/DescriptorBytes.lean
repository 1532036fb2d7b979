import Aiowdm.Driver.DescriptorGet
import Aiowdm.Driver.RequestBytes
import Aiowdm.Lib.CString

/-!
# Descriptors as bytes

`struct accesio_pci_card_descriptor` in memory.  The ioctl fills it member by member
in a local variable, and copies it to the program whole.
-/

namespace Aiowdm.Driver.DescriptorBytes

open Aiowdm.Lib Aiowdm.Driver.DeviceContext Aiowdm.Driver.DescriptorGet
open Aiowdm.Driver.RequestBytes (Memories)

/-- `sizeof (struct accesio_pci_card_descriptor)`. -/
def DESCRIPTOR_SIZE : Nat := 144

def NAME_OFFSET : Nat := 32
def BARS_OFFSET : Nat := 96

def storeBar (v : BitVec 64) (m : Bytes) (a : Nat) (i : Fin PCI_STD_NUM_BARS) : Bytes :=
  m.store (a + (BARS_OFFSET + 8 * i)) 8 v

def storeBars (bars : Fin PCI_STD_NUM_BARS → BitVec 64) (m : Bytes) (a : Nat) : Bytes :=
  (List.finRange PCI_STD_NUM_BARS).foldl (fun m i => storeBar (bars i) m a i) m

/-- The assignments of the ioctl, in their order.  Six bytes of padding follow the
member `device_id`. -/
def fillDescriptor (d : CardDescriptor) (m : Bytes) (a : Nat) : Bytes :=
  let m := m.store a 2 d.deviceId
  let m := m.store (a + 8) 8 d.portBase
  let m := m.store (a + 16) 8 d.portSize
  let m := m.store (a + 24) 8 d.nameSize
  let m := m.strcpy (a + NAME_OFFSET) (cBytes d.name)
  storeBars d.bars m a

/-- The copy succeeds, to the buffer of the program at `a`. -/
def copies (a : Nat) : Handler user Memories
  | .copyToUser d, m =>
      let frame := fillDescriptor d m.frame 0
      (true, ⟨Bytes.copy frame 0 m.user a DESCRIPTOR_SIZE, frame⟩)

/-! ## The bytes that are set -/

theorem sets_storeBars (bars : Fin PCI_STD_NUM_BARS → BitVec 64) (a : Nat) :
    Bytes.Sets (storeBars bars · a) fun x =>
      a + BARS_OFFSET ≤ x ∧ x < a + BARS_OFFSET + 8 * PCI_STD_NUM_BARS := by
  have hbar : ∀ i : Fin PCI_STD_NUM_BARS, Bytes.Sets (fun m => storeBar (bars i) m a i) _ :=
    fun i => Bytes.sets_store (a + (BARS_OFFSET + 8 * i)) 8 (bars i)
  refine (Bytes.Sets.foldl (List.finRange PCI_STD_NUM_BARS) hbar).congr fun x => ?_
  constructor
  · rintro ⟨i, -, hx⟩
    have hi := i.isLt
    omega
  · intro hx
    refine ⟨⟨(x - (a + BARS_OFFSET)) / 8, by omega⟩, List.mem_finRange _, ?_⟩
    dsimp only
    omega

/-- The bytes of a descriptor with the name `name` that are set: the members, and of
the name what `strcpy` writes. -/
def IsSet (name : String) (a x : Nat) : Prop :=
  (a ≤ x ∧ x < a + 2) ∨ (a + 8 ≤ x ∧ x < a + NAME_OFFSET + ((cBytes name).length + 1)) ∨
    (a + BARS_OFFSET ≤ x ∧ x < a + DESCRIPTOR_SIZE)

instance (name : String) (a x : Nat) : Decidable (IsSet name a x) :=
  inferInstanceAs (Decidable (_ ∨ _))

theorem sets_fillDescriptor (d : CardDescriptor) (a : Nat) :
    Bytes.Sets (fillDescriptor d · a) (IsSet d.name a) := by
  have hmembers := (Bytes.sets_store (a + 24) 8 d.nameSize).comp
    ((Bytes.sets_store (a + 16) 8 d.portSize).comp
      ((Bytes.sets_store (a + 8) 8 d.portBase).comp (Bytes.sets_store a 2 d.deviceId)))
  have hname := (Bytes.sets_write (a + NAME_OFFSET) (cBytes d.name ++ [0])).comp hmembers
  refine ((sets_storeBars d.bars a).comp hname).congr fun x => ?_
  simp only [IsSet, NAME_OFFSET, BARS_OFFSET, DESCRIPTOR_SIZE, PCI_STD_NUM_BARS,
    List.length_append, List.length_singleton]
  omega

/-! ## The descriptor in the bytes -/

/-- The 144 bytes from `a` on read as the descriptor `d`. -/
structure HoldsDescriptor (m : Bytes) (a : Nat) (d : CardDescriptor) : Prop where
  deviceId : m.load a 2 = d.deviceId
  portBase : m.load (a + 8) 8 = d.portBase
  portSize : m.load (a + 16) 8 = d.portSize
  nameSize : m.load (a + 24) 8 = d.nameSize
  name : m.stringAt (a + NAME_OFFSET) 64 = some (cBytes d.name)
  bars : ∀ i : Fin PCI_STD_NUM_BARS, m.load (a + (BARS_OFFSET + 8 * i)) 8 = d.bars i

section

variable (bars : Fin PCI_STD_NUM_BARS → BitVec 64) (m : Bytes) (a : Nat)

theorem load_foldl_of_not_mem {i : Fin PCI_STD_NUM_BARS} (is : List (Fin PCI_STD_NUM_BARS))
    (hi : i ∉ is) :
    (is.foldl (fun m j => storeBar (bars j) m a j) m).load (a + (BARS_OFFSET + 8 * i)) 8 =
      m.load (a + (BARS_OFFSET + 8 * i)) 8 := by
  induction is generalizing m with
  | nil => rfl
  | cons j is ih =>
      rw [List.mem_cons, not_or] at hi
      have hne : (i : Nat) ≠ j := fun h => hi.1 (Fin.ext h)
      have hdisjoint : a + (BARS_OFFSET + 8 * j) + 8 ≤ a + (BARS_OFFSET + 8 * i) ∨
          a + (BARS_OFFSET + 8 * i) + 8 ≤ a + (BARS_OFFSET + 8 * j) := by omega
      rw [List.foldl_cons, ih _ hi.2]
      exact Bytes.load_store_of_disjoint m hdisjoint (bars j)

theorem load_foldl_of_mem {i : Fin PCI_STD_NUM_BARS} (is : List (Fin PCI_STD_NUM_BARS))
    (hi : i ∈ is) :
    (is.foldl (fun m j => storeBar (bars j) m a j) m).load (a + (BARS_OFFSET + 8 * i)) 8 =
      bars i := by
  induction is generalizing m with
  | nil => cases hi
  | cons j is ih =>
      rw [List.foldl_cons]
      by_cases hrest : i ∈ is
      · exact ih _ hrest
      · obtain rfl : i = j := (List.mem_cons.mp hi).resolve_right hrest
        rw [load_foldl_of_not_mem bars _ a is hrest]
        exact Bytes.load_store m _ 8 (bars i)

theorem storeBars_of_lt {x : Nat} (hx : x < a + BARS_OFFSET) : storeBars bars m a x = m x :=
  (sets_storeBars bars a).frame m fun hin => absurd hin.1 (Nat.not_le.mpr hx)

end

theorem load_fillDescriptor (d : CardDescriptor) (m : Bytes) (a : Nat) {b n : Nat}
    (h : b + n ≤ a + NAME_OFFSET) :
    (fillDescriptor d m a).load b n =
      ((((m.store a 2 d.deviceId).store (a + 8) 8 d.portBase).store (a + 16) 8 d.portSize).store
        (a + 24) 8 d.nameSize).load b n := by
  apply Bytes.load_congr
  intro x _ hx
  have hbars : x < a + BARS_OFFSET := by
    simp only [NAME_OFFSET, BARS_OFFSET] at *
    omega
  rw [fillDescriptor, storeBars_of_lt d.bars _ a hbars]
  exact Bytes.write_of_not_mem (by omega)

theorem holdsDescriptor_fillDescriptor {d : CardDescriptor} (hname : (cBytes d.name).length < 64)
    (m : Bytes) (a : Nat) : HoldsDescriptor (fillDescriptor d m a) a d where
  deviceId := by
    rw [load_fillDescriptor d m a (by simp only [NAME_OFFSET]; omega),
      Bytes.load_store_of_disjoint _ (by omega), Bytes.load_store_of_disjoint _ (by omega),
      Bytes.load_store_of_disjoint _ (by omega)]
    exact Bytes.load_store m a 2 d.deviceId
  portBase := by
    rw [load_fillDescriptor d m a (by simp only [NAME_OFFSET]; omega),
      Bytes.load_store_of_disjoint _ (by omega), Bytes.load_store_of_disjoint _ (by omega)]
    exact Bytes.load_store _ (a + 8) 8 d.portBase
  portSize := by
    rw [load_fillDescriptor d m a (by simp only [NAME_OFFSET]; omega),
      Bytes.load_store_of_disjoint _ (by omega)]
    exact Bytes.load_store _ (a + 16) 8 d.portSize
  nameSize := by
    rw [load_fillDescriptor d m a (by simp only [NAME_OFFSET]; omega)]
    exact Bytes.load_store _ (a + 24) 8 d.nameSize
  name := by
    rw [← Bytes.stringAt_strcpy (p := a + NAME_OFFSET) (not_mem_cBytes d.name) hname]
    apply Bytes.stringAt_congr
    intro x _ hx
    refine storeBars_of_lt d.bars _ a ?_
    simp only [NAME_OFFSET, BARS_OFFSET] at *
    omega
  bars i := load_foldl_of_mem d.bars _ a _ (List.mem_finRange i)

theorem HoldsDescriptor.of_sameBytes {f g : Bytes} {a b : Nat} {d : CardDescriptor}
    (hg : HoldsDescriptor g a d) (h : Bytes.SameBytes f b g a DESCRIPTOR_SIZE) :
    HoldsDescriptor f b d where
  deviceId := (h.load (i := 0) (by decide)).trans hg.deviceId
  portBase := (h.load (by decide)).trans hg.portBase
  portSize := (h.load (by decide)).trans hg.portSize
  nameSize := (h.load (by decide)).trans hg.nameSize
  name := (h.stringAt (by decide)).trans hg.name
  bars i := by
    have hi : (i : Nat) < 6 := i.isLt
    have hin : BARS_OFFSET + 8 * i + 8 ≤ DESCRIPTOR_SIZE := by
      simp only [BARS_OFFSET, DESCRIPTOR_SIZE]
      omega
    exact (h.load hin).trans (hg.bars i)

end Aiowdm.Driver.DescriptorBytes
