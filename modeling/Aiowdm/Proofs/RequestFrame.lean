import Aiowdm.Driver.RequestBytes
import Aiowdm.Proofs.RegisterBounds

/-!
# What a request changes

A request of 1, 2 or 4 bytes is done, and a read changes the bytes of its value
only.  A request of another size is not done, changes nothing and succeeds.
-/

namespace Aiowdm.Proofs.RequestFrame

open Aiowdm.Lib Aiowdm.Driver Aiowdm.Driver.Bus Aiowdm.Driver.DeviceContext
open Aiowdm.Driver.RegisterIo Aiowdm.Driver.RequestBytes
open Aiowdm.Proofs.RegisterBounds

variable {σ : Type} (h : Handler bus σ) (s : σ) (context : Context) (a : Nat) (m : Memories)

/-- The ioctl on the request at `a`: its status, its accesses and the program's
memory after it. -/
def run : Int × List BusCall × Bytes :=
  let r := (ioctlAccesioPciRegisterIo context).exec (h.record.sum (copies a)) ((s, []), m)
  (r.1, r.2.1.2, r.2.2.user)

def valueRead (request : RegisterIoContext) (w : Width) : BitVec w.bits :=
  (h (.ioread w (registerAddr context request)) s).1

/-- A request succeeds where it is done, one of another size is refused, and a read
leaves its value and nothing else. -/
structure SuccessMeansDone : Prop where
  done : (run h s context a m).1 = 0 ↔
    ∃ c, (run h s context a m).2.1 = [c] ∧ (c.isRead ↔ (loadRequest m.user a).read ≠ 0) ∧
      (c.width.bytes : Int) = (loadRequest m.user a).size.toInt
  refused : (loadRequest m.user a).size ≠ 1 → (loadRequest m.user a).size ≠ 2 →
    (loadRequest m.user a).size ≠ 4 →
      (run h s context a m).1 < 0 ∧ (run h s context a m).2 = ([], m.user)
  read : (run h s context a m).1 = 0 → (loadRequest m.user a).read ≠ 0 →
    ∃ w : Width, (w.bytes : Int) = (loadRequest m.user a).size.toInt ∧
      (run h s context a m).2.2.load (a + DATA_OFFSET) w.bytes =
        valueRead h s context (loadRequest m.user a) w ∧
      ∀ x, ¬(a + DATA_OFFSET ≤ x ∧ x < a + DATA_OFFSET + w.bytes) →
        (run h s context a m).2.2 x = m.user x

/-! ## The run of a request -/

theorem not_copyFails : ¬CopyFails h (copies a) s m context :=
  fun hfails => (nomatch hfails.2)

theorem status_run : (run h s context a m).1 = 0 :=
  (status_ioctl h.record (copies a) (s, []) m context).2
    (not_copyFails h.record (s, []) context a m)

private theorem accesses_run :
    (run h s context a m).2.1 = (access context (loadRequest m.user a)).toList := by
  have hacc := accesses_ioctl h (copies a) s m context
  rw [copies_copyFromUser] at hacc
  exact hacc

theorem exec_readRegister (request : RegisterIoContext) :
    ((readRegister context request).exec h s).1 =
      match widthOfSize request.size with
      | none => request
      | some w =>
          { request with
            data := setDataMember w (valueRead h s context request w) request.data } :=
  readRegister_eq_answered h s context request

private theorem memory_run_read (hr : (loadRequest m.user a).read ≠ 0) :
    (run h s context a m).2.2 =
      storeRequest ((readRegister context (loadRequest m.user a)).exec h s).1 m.user a := by
  have hsame := Bytes.sameBytes_copy m.user a m.frame 0 REQUEST_SIZE
  simp only [run, ioctlAccesioPciRegisterIo, Prog.exec_bind, Prog.exec_inr, exec_copyFromUser,
    copies_copyFromUser, Prog.exec_ite, if_pos hr, Prog.exec_inl, exec_copyToUser,
    Prog.exec_record]
  exact (copies_copyToUser a _ hsame).2

private theorem memory_run_of_width (hr : (loadRequest m.user a).read ≠ 0) {w : Width}
    (hw : widthOfSize (loadRequest m.user a).size = some w) :
    (run h s context a m).2.2 = m.user.store (a + DATA_OFFSET) w.bytes
      (valueRead h s context (loadRequest m.user a) w) := by
  rw [memory_run_read h s context a m hr, exec_readRegister, hw]
  exact storeRequest_setDataMember w _ m.user a

/-! ## Sizes -/

theorem widthOfSize_eq_none_iff {size : BitVec 32} :
    widthOfSize size = none ↔ size ≠ 1 ∧ size ≠ 2 ∧ size ≠ 4 := by
  unfold widthOfSize
  split_ifs with h1 h2 h4
  · exact iff_of_false (by simp) fun hne => hne.1 h1
  · exact iff_of_false (by simp) fun hne => hne.2.1 h2
  · exact iff_of_false (by simp) fun hne => hne.2.2 h4
  · exact iff_of_true rfl ⟨h1, h2, h4⟩

private theorem exists_widthOfSize {size : BitVec 32} (h : size = 1 ∨ size = 2 ∨ size = 4) :
    ∃ w, widthOfSize size = some w := by
  apply Option.ne_none_iff_exists'.mp
  rw [Ne, widthOfSize_eq_none_iff]
  rintro ⟨h1, h2, h4⟩
  rcases h with h | h | h
  · exact h1 h
  · exact h2 h
  · exact h4 h

private theorem exists_access_of_width {request : RegisterIoContext} {w : Width}
    (hw : widthOfSize request.size = some w) :
    ∃ c, access context request = some c ∧ (c.isRead ↔ request.read ≠ 0) ∧ c.width = w := by
  refine ⟨_, congrArg _ hw, ?_⟩
  split
  · rename_i hr
    exact ⟨iff_of_true rfl hr, rfl⟩
  · rename_i hr
    exact ⟨iff_of_false Bool.false_ne_true hr, rfl⟩

/-! ## Success means done -/

theorem successMeansDone_of_width {w : Width}
    (hw : widthOfSize (loadRequest m.user a).size = some w) :
    SuccessMeansDone h s context a m := by
  have hsize := toInt_of_widthOfSize hw
  constructor
  · obtain ⟨c, hc, hdirection, hwidth⟩ := exists_access_of_width context hw
    refine iff_of_true (status_run h s context a m) ⟨c, ?_, hdirection, ?_⟩
    · rw [accesses_run, hc]
      rfl
    · rw [hwidth, hsize]
  · intro h1 h2 h4
    have hnone := widthOfSize_eq_none_iff.mpr ⟨h1, h2, h4⟩
    rw [hw] at hnone
    cases hnone
  · intro _ hr
    have hmemory := memory_run_of_width h s context a m hr hw
    refine ⟨w, hsize.symm, ?_, fun x hx => ?_⟩
    · rw [hmemory]
      exact Bytes.load_store m.user (a + DATA_OFFSET) w.bytes _
    · rw [hmemory]
      exact Bytes.store_of_not_mem hx

/-- For every card, every request and whatever the bus answers, a request whose copies
succeed is done and framed as it should exactly where its size is 1, 2 or 4. -/
theorem successMeansDone_iff (h : Handler bus σ) (s : σ) (context : Context) (a : Nat)
    (m : Memories) :
    SuccessMeansDone h s context a m ↔
      (loadRequest m.user a).size = 1 ∨ (loadRequest m.user a).size = 2 ∨
        (loadRequest m.user a).size = 4 := by
  constructor
  · intro hdone
    by_contra hsize
    simp only [not_or] at hsize
    have hneg := (hdone.refused hsize.1 hsize.2.1 hsize.2.2).1
    rw [status_run] at hneg
    exact absurd hneg (by decide)
  · intro hsize
    obtain ⟨w, hw⟩ := exists_widthOfSize hsize
    exact successMeansDone_of_width h s context a m hw

/-! ## A request for three bytes -/

/-- A read of three bytes from the BAR of a card that was probed succeeds and reads
nothing. -/
theorem size_three_succeeds :
    ¬∀ (machine : ModuleRuns.Machine) (log : List ModuleRuns.Event) (t : ModuleRuns.State)
      (dev : PciDev) (b : ModuleRuns.Binding),
      Run (ModuleRuns.system machine .fresh) log t → ModuleRuns.bindingOf t.world dev = some b →
        ∀ (h : Handler bus Unit) (a : Nat) (m : Memories),
          (b.contents.barBases b.contents.defaultBar).isSome →
          0 ≤ (loadRequest m.user a).offset.toInt →
          (loadRequest m.user a).offset.toInt + (loadRequest m.user a).size.toInt ≤
            ((machine.pci dev).bars b.contents.defaultBar).len →
          SuccessMeansDone h () b.contents a m := by
  intro hall
  obtain ⟨log, s, b, hrun, hb, hmapped, hlen⟩ := exists_probed
  have hrange : (0 : Int) + 3 ≤ ((ioCard.pci 1).bars b.contents.defaultBar).len := by omega
  have hdone := hall ioCard log s 1 b hrun hb zeros 0
    ⟨storeRequest ⟨1, 0, 3, 0⟩ (fun _ => 0) 0, fun _ => 0⟩ hmapped (by decide) hrange
  have hneg := (hdone.refused (by decide) (by decide) (by decide)).1
  rw [status_run] at hneg
  exact absurd hneg (by decide)

end Aiowdm.Proofs.RequestFrame
