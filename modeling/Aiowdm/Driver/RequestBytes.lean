import Aiowdm.Driver.RegisterIo
import Aiowdm.Lib.Bytes

/-!
# Requests as bytes

`struct accesio_pci_register_io_context` in memory: that of the program that asks,
and the local variable of `ioctl_ACCESIO_PCI_REGISTER_IO`.
-/

namespace Aiowdm.Driver.RequestBytes

open Aiowdm.Lib Aiowdm.Driver.Bus Aiowdm.Driver.RegisterIo

/-- `sizeof (struct accesio_pci_register_io_context)`. -/
def REQUEST_SIZE : Nat := 16

/-- Where the union `data` starts. -/
def DATA_OFFSET : Nat := 12

/-- The request at `a`.  Three bytes of padding follow the member `read`. -/
def loadRequest (m : Bytes) (a : Nat) : RegisterIoContext where
  read := m.load a 1
  offset := m.load (a + 4) 4
  size := m.load (a + 8) 4
  data := m.load (a + DATA_OFFSET) 4

/-- The members are stored and the padding is left. -/
def storeRequest (request : RegisterIoContext) (m : Bytes) (a : Nat) : Bytes :=
  let m := m.store a 1 request.read
  let m := m.store (a + 4) 4 request.offset
  let m := m.store (a + 8) 4 request.size
  m.store (a + DATA_OFFSET) 4 request.data

/-- The memory of the program, and the local variable of the ioctl. -/
structure Memories where
  user : Bytes
  frame : Bytes

/-- Both copies succeed, with the structure of the program at `a`. -/
def copies (a : Nat) : Handler user Memories
  | .copyFromUser, m =>
      let frame := Bytes.copy m.user a m.frame 0 REQUEST_SIZE
      (some (loadRequest frame 0), { m with frame })
  | .copyToUser request, m =>
      let frame := storeRequest request m.frame 0
      (true, ⟨Bytes.copy frame 0 m.user a REQUEST_SIZE, frame⟩)

/-! ## There and back -/

section

variable (m : Bytes) (a : Nat) (request : RegisterIoContext)

theorem loadRequest_of_sameBytes {f g : Bytes} {a b : Nat}
    (h : Bytes.SameBytes f b g a REQUEST_SIZE) : loadRequest f b = loadRequest g a := by
  have hread : f.load b 1 = g.load a 1 := h.load (i := 0) (by decide)
  have hoffset : f.load (b + 4) 4 = g.load (a + 4) 4 := h.load (by decide)
  have hsize : f.load (b + 8) 4 = g.load (a + 8) 4 := h.load (by decide)
  have hdata : f.load (b + DATA_OFFSET) 4 = g.load (a + DATA_OFFSET) 4 := h.load (by decide)
  simp only [loadRequest, hread, hoffset, hsize, hdata]

theorem storeRequest_of_sameBytes {f g : Bytes} {a b : Nat}
    (h : Bytes.SameBytes f b g a REQUEST_SIZE) :
    Bytes.SameBytes (storeRequest request f b) b (storeRequest request g a) a REQUEST_SIZE :=
  (((h.store 0 1 request.read).store 4 4 request.offset).store 8 4 request.size).store
    DATA_OFFSET 4 request.data

theorem storeRequest_outside {x : Nat} (hx : ¬(a ≤ x ∧ x < a + REQUEST_SIZE)) :
    storeRequest request m a x = m x := by
  simp only [REQUEST_SIZE] at hx
  simp only [storeRequest, DATA_OFFSET]
  rw [Bytes.store_of_not_mem (by omega), Bytes.store_of_not_mem (by omega),
    Bytes.store_of_not_mem (by omega), Bytes.store_of_not_mem (by omega)]

end

theorem copies_copyFromUser (a : Nat) (m : Memories) :
    copies a .copyFromUser m =
      (some (loadRequest m.user a),
        { m with frame := Bytes.copy m.user a m.frame 0 REQUEST_SIZE }) := by
  have hload := loadRequest_of_sameBytes (Bytes.sameBytes_copy m.user a m.frame 0 REQUEST_SIZE)
  exact congrArg (fun request => (some request, _)) hload

/-- The copy back is the stores of the members: the bytes of the padding come from
the program, and return to it. -/
theorem copies_copyToUser (a : Nat) (request : RegisterIoContext) {m : Memories}
    (h : Bytes.SameBytes m.frame 0 m.user a REQUEST_SIZE) :
    (copies a (.copyToUser request) m).1 = true ∧
      (copies a (.copyToUser request) m).2.user = storeRequest request m.user a := by
  refine ⟨rfl, (storeRequest_of_sameBytes request h).copy_eq fun x hx => ?_⟩
  exact (storeRequest_outside m.user a request hx).symm

/-! ## The union -/

theorem extractLsb'_setDataMember (w : Width) (v : BitVec w.bits) (data : BitVec 32) (i : Nat) :
    (setDataMember w v data).extractLsb' (8 * i) 8 =
      if i < w.bytes then v.extractLsb' (8 * i) 8 else data.extractLsb' (8 * i) 8 := by
  have hw : w.bits ≤ 32 := by cases w <;> decide
  have hbits : w.bits = 8 * w.bytes := rfl
  split
  · rename_i hi
    ext j hj
    have hlt : 8 * i + j < w.bits := by omega
    simp [setDataMember, hlt, show 8 * i + j < 32 by omega]
  · rename_i hi
    ext j hj
    have hle : w.bits ≤ 8 * i + j := by omega
    have hv : v.getLsbD (8 * i + j) = false := BitVec.getLsbD_of_ge v _ hle
    by_cases hlt : 8 * i + j < 32
    · simp [setDataMember, not_lt.mpr hle, Nat.add_sub_cancel' hle, hlt, hv]
    · simp [setDataMember, hlt, BitVec.getLsbD_of_ge data _ (not_lt.mp hlt)]

/-- A request that comes back with a value read is written in the bytes of the value
only. -/
theorem storeRequest_setDataMember (w : Width) (v : BitVec w.bits) (m : Bytes) (a : Nat) :
    storeRequest { loadRequest m a with data := setDataMember w v (loadRequest m a).data } m a =
      m.store (a + DATA_OFFSET) w.bytes v := by
  have hw : w.bytes ≤ 4 := by cases w <;> decide
  simp only [storeRequest, loadRequest, Bytes.store_load]
  funext x
  by_cases hx : a + DATA_OFFSET ≤ x ∧ x < a + DATA_OFFSET + 4
  · have hbyte := extractLsb'_setDataMember w v (m.load (a + DATA_OFFSET) 4)
      (x - (a + DATA_OFFSET))
    rw [Bytes.store_of_mem hx, hbyte]
    by_cases hlow : x < a + DATA_OFFSET + w.bytes
    · rw [if_pos (by omega)]
      exact (Bytes.store_of_mem ⟨hx.1, hlow⟩).symm
    · rw [if_neg (by omega), Bytes.extractLsb'_load m (by omega), Nat.add_sub_cancel' hx.1]
      exact (Bytes.store_of_not_mem (by omega)).symm
  · rw [Bytes.store_of_not_mem hx]
    exact (Bytes.store_of_not_mem (by omega)).symm

end Aiowdm.Driver.RequestBytes
