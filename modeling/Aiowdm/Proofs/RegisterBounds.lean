import Aiowdm.Driver.ModuleRuns
import Aiowdm.Library.Registers
import Aiowdm.Proofs.ProbeStatus

/-!
# Where register accesses go

The driver makes the one access a request asks for, at the offset it asks for:
nothing compares the offset with the BAR, and nothing looks whether the BAR is
mapped.
-/

namespace Aiowdm.Proofs.RegisterBounds

open Aiowdm.Lib Aiowdm.Driver.Bus Aiowdm.Driver.DeviceContext Aiowdm.Driver.DeviceTable
open Aiowdm.Driver.RegisterIo Aiowdm.Library.Registers
open Aiowdm.Driver Aiowdm.Driver.Kernel
open Aiowdm.Driver.ModuleRuns (Machine bindingOf)
open Aiowdm.Proofs.ProbeStatus (allSucceed)

/-! ## The access of a request -/

def widthOfSize (size : BitVec 32) : Option Width :=
  if size = 1 then some .byte
  else if size = 2 then some .word
  else if size = 4 then some .dword
  else none

def access (context : Context) (request : RegisterIoContext) : Option BusCall :=
  (widthOfSize request.size).map fun w =>
    if request.read ≠ 0 then .ioread w (registerAddr context request)
    else .iowrite w (dataMember w request.data) (registerAddr context request)

theorem exists_access (context : Context) (request : RegisterIoContext) {w : Width}
    (hw : widthOfSize request.size = some w) :
    ∃ c, access context request = some c ∧ c.addr = registerAddr context request ∧
      c.width = w := by
  refine ⟨_, congrArg _ hw, ?_⟩
  split <;> exact ⟨rfl, rfl⟩

section Ioctl

variable {σ τ : Type} (h : Handler bus σ) (u : Handler user τ) (s : σ) (t : τ)
variable (context : Context) (request : RegisterIoContext)

private theorem calls_readRegister (hr : request.read ≠ 0) :
    (readRegister context request).calls h s = (access context request).toList := by
  simp only [readRegister, access, widthOfSize, if_pos hr]
  split_ifs <;> rfl

private theorem calls_writeRegister (hr : request.read = 0) :
    (writeRegister context request).calls h s = (access context request).toList := by
  simp only [writeRegister, access, widthOfSize, if_neg (not_not.mpr hr)]
  split_ifs <;> rfl

theorem accesses_ioctl :
    ((ioctlAccesioPciRegisterIo context).exec (h.record.sum u) ((s, []), t)).2.1.2 =
      ((u UserCall.copyFromUser t).1.bind (access context)).toList := by
  simp only [ioctlAccesioPciRegisterIo, Prog.exec_bind, Prog.exec_inr, exec_copyFromUser]
  cases hu : (u UserCall.copyFromUser t).1 with
  | none => rfl
  | some request =>
      simp only [Option.bind_some, Prog.exec_ite]
      split_ifs with hr
      · simp only [Prog.exec_bind, Prog.exec_inl, Prog.exec_inr, Prog.exec_record, Prog.exec_ite,
          calls_readRegister _ _ _ _ hr]
        split_ifs <;> rfl
      · simp only [Prog.exec_bind, Prog.exec_inl, Prog.exec_record,
          calls_writeRegister _ _ _ _ (not_not.mp hr)]
        rfl

def answered : RegisterIoContext :=
  match widthOfSize request.size with
  | none => request
  | some w =>
      { request with
        data := setDataMember w (h (.ioread w (registerAddr context request)) s).1 request.data }

theorem readRegister_eq_answered :
    ((readRegister context request).exec h s).1 = answered h s context request := by
  simp only [readRegister, answered, widthOfSize]
  split_ifs <;> rfl

/-- A copy that is made leaves bytes over: that of the request or, for a read, that of
the answer. -/
def CopyFails : Prop :=
  match u UserCall.copyFromUser t with
  | (none, _) => True
  | (some request, t') =>
      request.read ≠ 0 ∧ (u (UserCall.copyToUser (answered h s context request)) t').1 = false

/-- The copies alone make the status. -/
theorem status_ioctl :
    (CopyFails h u s t context →
        ((ioctlAccesioPciRegisterIo context).exec (h.sum u) (s, t)).1 = -eio) ∧
      (¬CopyFails h u s t context →
        ((ioctlAccesioPciRegisterIo context).exec (h.sum u) (s, t)).1 = 0) := by
  simp only [ioctlAccesioPciRegisterIo, Prog.exec_bind, Prog.exec_inr, exec_copyFromUser,
    CopyFails]
  rcases u UserCall.copyFromUser t with ⟨_ | request, t'⟩
  · exact ⟨fun _ => rfl, fun hnot => absurd trivial hnot⟩
  · dsimp only
    by_cases hr : request.read = 0
    · rw [if_neg (not_not.mpr hr)]
      refine ⟨fun hfails => absurd hr hfails.1, fun _ => ?_⟩
      rw [Prog.exec_bind]
      rfl
    · rw [if_pos hr, Prog.exec_bind, Prog.exec_inl, readRegister_eq_answered, Prog.exec_bind,
        Prog.exec_inr, exec_copyToUser, Prog.exec_ite]
      cases hto : (u (UserCall.copyToUser (answered h s context request)) t').1 with
      | false => exact ⟨fun _ => rfl, fun hnot => absurd ⟨hr, rfl⟩ hnot⟩
      | true => exact ⟨fun hfails => (nomatch hfails.2), fun _ => rfl⟩

end Ioctl

/-! ## The library -/

section Library

variable {σ : Type} (h : Handler bus σ) (s : σ) (contexts : Int → Context) (cards : Nat → Int)
variable (cardNum register : BitVec 32) (w : Width)

private theorem access_inRequest (context : Context) :
    access context (inRequest register w) =
      some (.ioread w (bar context.defaultBar register.toInt)) := by
  cases w <;> rfl

private theorem access_outRequest (context : Context) (value : BitVec w.bits) :
    access context (outRequest register w value) =
      some (.iowrite w value (bar context.defaultBar register.toInt)) := by
  cases w <;> simp [access, outRequest, widthOfSize, registerAddr, Width.bytes]

private theorem accesses_relIn :
    ((relIn cards cardNum register w).exec (driver h.record contexts) (s, [])).2.2 =
      [.ioread w (bar (contexts (cards cardNum.toNat)).defaultBar register.toInt)] := by
  have hacc := accesses_ioctl h buffer s (inRequest register w) (contexts (cards cardNum.toNat))
  rwa [show (buffer UserCall.copyFromUser (inRequest register w)).1 =
    some (inRequest register w) from rfl, Option.bind_some, access_inRequest] at hacc

theorem exec_relOut (value : BitVec w.bits) :
    let r := (relOut cards cardNum register w value).exec (driver h.record contexts) (s, [])
    r.1 = 0 ∧ r.2.2 =
      [.iowrite w value (bar (contexts (cards cardNum.toNat)).defaultBar register.toInt)] := by
  have hacc := accesses_ioctl h buffer s (outRequest register w value)
    (contexts (cards cardNum.toNat))
  rw [show (buffer UserCall.copyFromUser (outRequest register w value)).1 =
    some (outRequest register w value) from rfl, Option.bind_some, access_outRequest] at hacc
  refine ⟨?_, hacc⟩
  have hstatus := (status_ioctl h.record buffer (s, []) (outRequest register w value)
    (contexts (cards cardNum.toNat))).2 fun hfails => (nomatch hfails.2)
  exact congrArg ioctlStatus hstatus

end Library

/-! ## Inside the BAR -/

section Bounds

variable (context : Context) (bars : Fin PCI_STD_NUM_BARS → BarResource)

/-- An access of `w` at `addr` lies in the default BAR, and that is mapped. -/
def Inside (addr : Addr) (w : Width) : Prop :=
  addr.base = .bar context.defaultBar ∧ (context.barBases context.defaultBar).isSome ∧
    0 ≤ addr.offset ∧ addr.offset + w.bytes ≤ (bars context.defaultBar).len

theorem inside_bar_iff (offset : Int) (w : Width) :
    Inside context bars (bar context.defaultBar offset) w ↔
      (context.barBases context.defaultBar).isSome ∧
        0 ≤ offset ∧ offset + w.bytes ≤ (bars context.defaultBar).len :=
  and_iff_right rfl

theorem toInt_of_widthOfSize {size : BitVec 32} {w : Width} (h : widthOfSize size = some w) :
    size.toInt = w.bytes := by
  unfold widthOfSize at h
  split_ifs at h with h1 h2 h4 <;> cases h
  · rw [h1]; rfl
  · rw [h2]; rfl
  · rw [h4]; rfl

private theorem inside_access_iff (request : RegisterIoContext) :
    (∀ c ∈ access context request, Inside context bars c.addr c.width) ↔
      widthOfSize request.size = none ∨
        (context.barBases context.defaultBar).isSome ∧ 0 ≤ request.offset.toInt ∧
          request.offset.toInt + request.size.toInt ≤ (bars context.defaultBar).len := by
  cases hw : widthOfSize request.size with
  | none => simp [access, hw]
  | some w =>
      obtain ⟨c, hc, haddr, hwidth⟩ := exists_access context request hw
      rw [toInt_of_widthOfSize hw, ← inside_bar_iff]
      simp [hc, haddr, hwidth, registerAddr]

/-- A register number of 2^31 or above is a negative offset. -/
theorem inside_register_iff (register : BitVec 32) (w : Width) :
    Inside context bars (bar context.defaultBar register.toInt) w ↔
      (context.barBases context.defaultBar).isSome ∧
        register.toNat < 2 ^ 31 ∧ register.toNat + w.bytes ≤ (bars context.defaultBar).len := by
  have hlt := register.isLt
  rw [inside_bar_iff, BitVec.toInt_eq_toNat_cond]
  refine and_congr_right fun _ => ?_
  split <;> omega

end Bounds

/-- The driver makes exactly the access a request asks for, and refuses none for
where it goes. -/
theorem access_unchecked :
    (∀ {σ τ : Type} (h : Handler bus σ) (u : Handler user τ) (s : σ) (t : τ) (context : Context),
      ((ioctlAccesioPciRegisterIo context).exec (h.record.sum u) ((s, []), t)).2.1.2 =
          ((u UserCall.copyFromUser t).1.bind (access context)).toList ∧
        (CopyFails h u s t context →
          ((ioctlAccesioPciRegisterIo context).exec (h.sum u) (s, t)).1 = -eio) ∧
        (¬CopyFails h u s t context →
          ((ioctlAccesioPciRegisterIo context).exec (h.sum u) (s, t)).1 = 0)) ∧
      (∀ (context : Context) (bars : Fin PCI_STD_NUM_BARS → BarResource)
          (request : RegisterIoContext),
        (∀ c ∈ access context request, Inside context bars c.addr c.width) ↔
          widthOfSize request.size = none ∨
            (context.barBases context.defaultBar).isSome ∧ 0 ≤ request.offset.toInt ∧
              request.offset.toInt + request.size.toInt ≤ (bars context.defaultBar).len) ∧
      ∀ {σ : Type} (h : Handler bus σ) (s : σ) (contexts : Int → Context) (cards : Nat → Int)
          (cardNum register : BitVec 32) (w : Width) (value : BitVec w.bits)
          (bars : Fin PCI_STD_NUM_BARS → BarResource),
        let context := contexts (cards cardNum.toNat)
        let addr := bar context.defaultBar register.toInt
        ((relIn cards cardNum register w).exec (driver h.record contexts) (s, [])).2.2 =
            [.ioread w addr] ∧
          ((relOut cards cardNum register w value).exec (driver h.record contexts) (s, [])).2.2 =
            [.iowrite w value addr] ∧
          ((relOut cards cardNum register w value).exec (driver h.record contexts) (s, [])).1 =
            0 ∧
          (Inside context bars addr w ↔
            (context.barBases context.defaultBar).isSome ∧ register.toNat < 2 ^ 31 ∧
              register.toNat + w.bytes ≤ (bars context.defaultBar).len) := by
  refine ⟨fun h u s t context => ⟨accesses_ioctl h u s t context, status_ioctl h u s t context⟩,
    inside_access_iff, ?_⟩
  intro σ h s contexts cards cardNum register w value bars
  obtain ⟨hstatus, hout⟩ := exec_relOut h s contexts cards cardNum register w value
  exact ⟨accesses_relIn h s contexts cards cardNum register w, hout, hstatus,
    inside_register_iff _ bars register w⟩

/-! ## A card with one I/O BAR -/

def ioBar : PciDev → PciResources :=
  fun _ => ⟨16, fun bar => if bar = 1 then .io 0x80 else .unimplemented⟩

def ioCard : Machine := ⟨ioBar, accesioPciDeviceDescriptors, accesPciIdTable⟩

theorem exists_probed :
    ∃ log s b, Run (ModuleRuns.system ioCard .fresh) log s ∧ bindingOf s.world 1 = some b ∧
      (b.contents.barBases b.contents.defaultBar).isSome ∧
      3 ≤ ((ioCard.pci 1).bars b.contents.defaultBar).len := by
  obtain ⟨log, s, hrun, hbound⟩ := (ModuleRuns.system ioCard .fresh).exists_runWhere_map_of_exec
    (fun c => (bindingOf c.2.world 1).any fun b =>
      (b.contents.barBases b.contents.defaultBar).isSome &&
        decide (3 ≤ ((ioCard.pci 1).bars b.contents.defaultBar).len))
    [.load allSucceed, .probe 1 0x0100 allSucceed] (fun _ _ _ _ => trivial) rfl
  obtain ⟨b, hb, hfacts⟩ := (Option.any_eq_true _ _).mp hbound
  obtain ⟨hmapped, hlen⟩ := (Bool.and_eq_true _ _).mp hfacts
  exact ⟨log, s, b, hrun, hb, hmapped, of_decide_eq_true hlen⟩

def zeros : Handler bus Unit
  | .ioread w _, s => ((0 : BitVec w.bits), s)
  | .iowrite _ _ _, s => ((), s)

/-- The byte before the BAR of a card that was probed is read like any other. -/
theorem access_not_always_inside :
    ¬∀ (m : Machine) (log : List ModuleRuns.Event) (s : ModuleRuns.State) (dev : PciDev)
      (b : ModuleRuns.Binding), Run (ModuleRuns.system m .fresh) log s →
        bindingOf s.world dev = some b →
          ∀ (σ : Type) (h : Handler bus σ) (t : σ) (request : RegisterIoContext),
            ∀ c ∈ ((ioctlAccesioPciRegisterIo b.contents).exec (h.record.sum buffer)
              ((t, []), request)).2.1.2,
              Inside b.contents (m.pci dev).bars c.addr c.width := by
  intro hall
  obtain ⟨log, s, b, hrun, hb, -⟩ := exists_probed
  have hinside := hall ioCard log s 1 b hrun hb Unit zeros () ⟨1, -1, 1, 0⟩
  rw [accesses_ioctl] at hinside
  have hmem : BusCall.ioread .byte (bar b.contents.defaultBar (-1)) ∈
      [BusCall.ioread .byte (bar b.contents.defaultBar (-1))] := List.mem_singleton.mpr rfl
  have hoffset : (0 : Int) ≤ -1 := (hinside _ hmem).2.2.1
  exact absurd hoffset (by decide)

end Aiowdm.Proofs.RegisterBounds
