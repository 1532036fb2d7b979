import Aiowdm.Driver.DeviceTable
import Aiowdm.Driver.RegisterActions

/-!
# The interrupt styles against the older table

Each style of `module_old` was written again as three functions.  Most of them make
the accesses of the old operations, whatever the registers answer; the others
make an access that the old style does not, or leave one out.
-/

namespace Aiowdm.Proofs.Transcription

open Aiowdm.Lib Aiowdm.Driver.Bus Aiowdm.Driver.InterruptStyles Aiowdm.Driver.DeviceTable
open Aiowdm.Driver.RegisterActions

/-! ## Operations on a card -/

def newOp (d : DeviceDescriptor) (op : Op) : Prog isr Unit := do
  let _ ← d.call op

def act (op : RegisterOperation) : Prog bus Unit := do
  let _ ← aioDriverRegisterAction op

/-- How an old style acknowledges an interrupt.  One with no `Clear` is disabled and
enabled again. -/
def oldAcknowledge (style : AioIrqDescriptor) : Prog bus Unit :=
  if style.clear.action ≠ .none then act style.clear
  else do
    act style.disable
    act style.enable

def oldOp (style : AioIrqDescriptor) : Op → Prog bus Unit
  | .enable => act style.enable
  | .disable => act style.disable
  | .interrupt => do
      let (_, latched) ← aioDriverRegisterAction style.testLatched
      if latched = 0 then return ()
      oldAcknowledge style

def runOps {I : Interface} (f : Op → Prog I Unit) : List Op → Prog I Unit
  | [] => pure ()
  | op :: ops => do
      f op
      runOps f ops

section Accesses

variable {σ τ : Type} (h : Handler bus σ) (g : Handler context τ) (s : σ) (t : τ)

def newAccesses (d : DeviceDescriptor) (ops : List Op) : List BusCall :=
  ((runOps (newOp d) ops).calls (h.sum g) (s, t)).filterMap Sum.getLeft?

def oldAccesses (style : AioIrqDescriptor) (ops : List Op) : List BusCall :=
  (runOps (oldOp style) ops).calls h s

end Accesses

/-! ## What was transcribed faithfully -/

/-- The operations that make the accesses of the old style.  The PCI styles look for
the latch in the wrong BAR, four operations have slips of their own. -/
def transcribed : Style → Op → Bool
  | .pci2, .enable => false
  | .pci8, .disable => false
  | .pci9, .disable => false
  | .pcie3, .disable => false
  | .pci1, .interrupt | .pci2, .interrupt | .pci3, .interrupt | .pci4, .interrupt
  | .pci5, .interrupt | .pci6, .interrupt | .pci7, .interrupt | .pci8, .interrupt
  | .pci9, .interrupt | .pci10, .interrupt | .pci12, .interrupt | .pci13, .interrupt => false
  | _, _ => true

def oldStyle : Style → Option AioIrqDescriptor
  | .pci1 => PCI_1_STYLE
  | .pci2 => PCI_2_STYLE
  | .pci3 => PCI_3_STYLE
  | .pci4 => PCI_4_STYLE
  | .pci5 => PCI_5_STYLE
  | .pci6 => PCI_6_STYLE
  | .pci7 => PCI_7_STYLE
  | .pci8 => PCI_8_STYLE
  | .pci9 => PCI_9_STYLE
  | .pci10 => PCI_10_STYLE
  | .pci12 => PCI_12_STYLE
  | .pci13 => PCI_13_STYLE
  | .pcie1 => PCIE_1_STYLE
  | .pcie2 => PCIE_2_STYLE
  | .pcie3 => PCIE_3_STYLE
  | .pcie4 => PCIE_4_STYLE
  | .pcie5 => PCIE_5_STYLE
  | .pcie6 => PCIE_6_STYLE
  | .pcie7 => PCIE_7_STYLE
  | .pcie8 => PCIE_8_STYLE
  | .adio16f => none

private theorem rows_agree : ∀ d ∈ accesioPciDeviceDescriptors, ∀ c ∈ aioPciDevTable,
    c.pciDevId = d.pid → ∀ style ∈ d.isr, oldStyle style = some c.irq ∧
      d.enable = some style ∧ d.disable = some style := by
  decide +kernel

/-! ## The faithful operations -/

/-- An operation of a row all of whose functions are of one style. -/
def styleOp (style : Style) (op : Op) : Prog isr Unit := do
  let _ ← operation style op

private theorem newOp_eq {d : DeviceDescriptor} {style : Style} (hisr : d.isr = some style)
    (henable : d.enable = some style) (hdisable : d.disable = some style) :
    newOp d = styleOp style := by
  have hfunction : ∀ op, d.function op = some style := by
    intro op
    cases op with
    | enable => exact henable
    | disable => exact hdisable
    | interrupt => exact hisr
  funext op
  unfold newOp DeviceDescriptor.call
  rw [hfunction op]
  rfl

theorem styleOp_interrupt (style : Style) :
    styleOp style .interrupt = (do let _ ← style.interrupt) :=
  Prog.bind_assoc _ _ _

/-- The old test and the new one tell the same bytes apart. -/
theorem testBits_isLatched_PCIe (byte : BitVec 8) :
    testBits isLatched_PCIe (byte.setWidth 32) = 0 ↔ byte &&& pcieLatch.mask = 0 := by
  revert byte
  decide

private theorem interrupt_pcie {style : AioIrqDescriptor}
    (hlatch : style.testLatched = isLatched_PCIe) :
    (do let _ ← accesioLeaveIfNotLatchedPcie (oldAcknowledge style)) =
      (oldOp style .interrupt).inl := by
  let latch : isr.Call := .inl (.ioread .byte pcieLatch.addr)
  have hnew : (do let _ ← accesioLeaveIfNotLatchedPcie (oldAcknowledge style)) =
      Prog.call latch fun byte : BitVec 8 =>
        (if byte &&& pcieLatch.mask = 0 then Prog.ret IrqReturn.none
          else (oldAcknowledge style).inl >>= fun _ => .ret .handled) >>= fun _ => .ret () := rfl
  have hold : (oldOp style .interrupt).inl = Prog.call latch fun byte : BitVec 8 =>
      Prog.inl (if testBits isLatched_PCIe (byte.setWidth 32) = 0 then .ret ()
        else oldAcknowledge style) := by
    unfold oldOp
    rw [hlatch]
    rfl
  rw [hnew, hold]
  congr 1
  funext byte
  by_cases hbyte : byte &&& pcieLatch.mask = 0
  · rw [if_pos hbyte, if_pos ((testBits_isLatched_PCIe byte).mpr hbyte)]
    rfl
  · rw [if_neg hbyte, if_neg (mt (testBits_isLatched_PCIe byte).mp hbyte), Prog.bind_assoc]
    exact Prog.bind_ret _

private theorem styleOp_eq {style : Style} {old : AioIrqDescriptor}
    (hold : oldStyle style = some old)
    {op : Op} (hop : transcribed style op = true) : styleOp style op = (oldOp old op).inl := by
  cases op with
  | enable => cases style <;> cases hold <;> first | rfl | exact absurd hop (by decide)
  | disable => cases style <;> cases hold <;> first | rfl | exact absurd hop (by decide)
  | interrupt =>
      rw [styleOp_interrupt]
      cases style <;> cases hold <;>
        first | exact absurd hop (by decide) | (refine (?_ : _ = _).trans (interrupt_pcie rfl); rfl)

/-! ## The other operations -/

def OnBus (P : BusCall → Prop) : isr.Call → Prop := Sum.elim P fun _ => False

def OffBus (P : BusCall → Prop) : isr.Call → Prop := Sum.elim (fun c => ¬P c) fun _ => True

theorem every_action {P : Addr → Prop} {o : RegisterOperation}
    (h : o.action = .none ∨ P (bar o.bar 0) ∧ P (bar o.bar o.offset.toNat)) :
    Prog.Every (fun c : bus.Call => P c.addr) (aioDriverRegisterAction o) := by
  unfold aioDriverRegisterAction
  rcases h with hnone | ⟨hstart, haddr⟩
  · rw [hnone]
    trivial
  · cases o.action with
    | none | write48 => trivial
    | writebits8 | writebits16 | writebits32 | togglebits8 | togglebits16 | togglebits32 =>
        exact ⟨haddr, fun _ => ⟨hstart, fun _ => trivial⟩⟩
    | _ => exact ⟨haddr, fun _ => trivial⟩

theorem every_act {P : Addr → Prop} {o : RegisterOperation}
    (h : o.action = .none ∨ P (bar o.bar 0) ∧ P (bar o.bar o.offset.toNat)) :
    Prog.Every (fun c : bus.Call => P c.addr) (act o) :=
  (every_action h).bind fun _ => trivial

def Within (P : Addr → Prop) (style : AioIrqDescriptor) : Prop :=
  ∀ o ∈ [style.testLatched, style.disable, style.clear, style.enable],
    o.action = .none ∨ P (bar o.bar 0) ∧ P (bar o.bar o.offset.toNat)

instance (P : Addr → Prop) [DecidablePred P] (style : AioIrqDescriptor) :
    Decidable (Within P style) :=
  inferInstanceAs (Decidable (∀ _ ∈ _, _))

theorem every_oldOp {P : Addr → Prop} {style : AioIrqDescriptor} (h : Within P style) (op : Op) :
    Prog.Every (fun c : bus.Call => P c.addr) (oldOp style op) := by
  simp only [Within, List.forall_mem_cons] at h
  obtain ⟨htest, hdisable, hclear, henable, -⟩ := h
  have hack : Prog.Every (fun c : bus.Call => P c.addr) (oldAcknowledge style) := by
    unfold oldAcknowledge
    split
    · exact every_act hclear
    · exact (every_act hdisable).bind fun _ => every_act henable
  cases op with
  | enable => exact every_act henable
  | disable => exact every_act hdisable
  | interrupt =>
      refine (every_action htest).bind fun (_, latched) => ?_
      by_cases hlatched : latched = 0
      · simp only [if_pos hlatched]
        trivial
      · simp only [if_neg hlatched]
        exact hack

/-- One of two lists of operations makes an access that the other never makes. -/
def ToldApart (style : Style) (old : AioIrqDescriptor) (op : Op) : Prop :=
  ∃ P : BusCall → Prop,
    (Prog.Makes (OnBus P) (styleOp style op) ∧
        ∀ o, Prog.Every (fun c : bus.Call => ¬P c) (oldOp old o)) ∨
      (Prog.Makes (fun c : bus.Call => P c) (oldOp old op) ∧
        ∀ o, Prog.Every (OffBus P) (styleOp style o))

/-- Only the new function looks for the latch in BAR 0. -/
theorem toldApart_interrupt {style : Style} {old : AioIrqDescriptor}
    (hlatch : style.latch = some pciLatch) (hold : oldStyle style = some old) :
    ToldApart style old .interrupt := by
  refine ⟨fun c => c.addr.base = .bar 0, .inl ⟨?_, every_oldOp (P := fun a => a.base ≠ .bar 0) ?_⟩⟩
  · cases style <;> first | exact Or.inl rfl | cases hlatch
  · cases style <;> cases hold <;> decide

/-- The new disable function of style 8 is empty. -/
theorem every_pci8 (o : Op) :
    Prog.Every (OffBus (· = .iowrite .byte 0xff (bar 2 0x0b))) (styleOp .pci8 o) := by
  cases o with
  | enable =>
      have henable :
          ¬BusCall.iowrite .byte 0x00 (bar 2 0x0b) = .iowrite .byte 0xff (bar 2 0x0b) := by
        decide
      exact ⟨henable, fun _ => trivial⟩
  | disable => trivial
  | interrupt =>
      have hread : ¬BusCall.ioread .byte pciLatch.addr = .iowrite .byte 0xff (bar 2 0x0b) := by
        decide
      have hwrite :
          ¬BusCall.iowrite .byte 0x00 (bar 2 0x0f) = .iowrite .byte 0xff (bar 2 0x0b) := by
        decide
      have hack : Prog.Every (OffBus (· = .iowrite .byte 0xff (bar 2 0x0b)))
          (iowrite8 0x00 (bar 2 0x0f)).inl := ⟨hwrite, fun _ => trivial⟩
      have hleave : Prog.Every (OffBus (· = .iowrite .byte 0xff (bar 2 0x0b)))
          interruptPciStyle8 := every_leaveIfNotLatched hread hack
      rw [styleOp_interrupt]
      exact hleave.bind fun _ => trivial

private theorem toldApart_of_not_transcribed {style : Style} {old : AioIrqDescriptor}
    (hold : oldStyle style = some old) {op : Op} (hop : transcribed style op = false) :
    ToldApart style old op := by
  cases op with
  | interrupt =>
      refine toldApart_interrupt ?_ hold
      cases style <;> first | rfl | cases hop
  | enable =>
      obtain rfl : style = .pci2 := by cases style <;> first | rfl | cases hop
      cases hold
      refine ⟨fun c => c.addr.offset < 0, .inl ⟨Or.inl (by decide : (-0x1f : Int) < 0),
        every_oldOp (P := fun a => ¬a.offset < 0) (by decide)⟩⟩
  | disable =>
      have hslip : style = .pci8 ∨ style = .pci9 ∨ style = .pcie3 := by
        cases style <;> first | decide | cases hop
      rcases hslip with rfl | rfl | rfl
      · cases hold
        exact ⟨(· = .iowrite .byte 0xff (bar 2 0x0b)), .inr ⟨Or.inl rfl, every_pci8⟩⟩
      · cases hold
        exact ⟨fun c => c.addr.offset = 0x0d, .inl ⟨Or.inl rfl,
          every_oldOp (P := fun a => ¬a.offset = 0x0d) (by decide)⟩⟩
      · cases hold
        exact ⟨fun c => c.addr.base = .barBases, .inl ⟨Or.inl rfl,
          every_oldOp (P := fun a => ¬a.base = .barBases) (by decide)⟩⟩

/-! ## Runs -/

section Runs

variable {I J : Interface} {σ τ : Type}

private theorem runOps_inl {f : Op → Prog (I.sum J) Unit} {k : Op → Prog I Unit} {ops : List Op}
    (h : ∀ op ∈ ops, f op = (k op).inl) : runOps f ops = (runOps k ops).inl := by
  induction ops with
  | nil => rfl
  | cons op ops ih =>
      rw [runOps, runOps, Prog.inl_bind, h op List.mem_cons_self,
        ih fun o ho => h o (List.mem_cons_of_mem op ho)]

theorem makes_runOps {P : I.Call → Prop} {f : Op → Prog I Unit} {op : Op}
    (h : Prog.Makes P (f op)) {ops : List Op} (hop : op ∈ ops) : Prog.Makes P (runOps f ops) := by
  induction ops with
  | nil => cases hop
  | cons o ops ih =>
      rcases List.mem_cons.mp hop with rfl | hop
      · exact h.bind_left _
      · exact Prog.Makes.bind_right _ fun _ => ih hop

theorem every_runOps {P : I.Call → Prop} {f : Op → Prog I Unit}
    (h : ∀ op, Prog.Every P (f op)) (ops : List Op) : Prog.Every P (runOps f ops) := by
  induction ops with
  | nil => trivial
  | cons op ops ih => exact (h op).bind fun _ => ih

variable (h : Handler bus σ) (g : Handler context τ) (s : σ) (t : τ)

private theorem newAccesses_ne_oldAccesses {d : DeviceDescriptor} {style : Style}
    {old : AioIrqDescriptor}
    (hnew : newOp d = styleOp style) {op : Op} {ops : List Op} (hop : op ∈ ops)
    (hapart : ToldApart style old op) : newAccesses h g s t d ops ≠ oldAccesses h s old ops := by
  intro heq
  unfold newAccesses oldAccesses at heq
  rw [hnew] at heq
  obtain ⟨P, ⟨hmakes, hnever⟩ | ⟨hmakes, hnever⟩⟩ := hapart
  · obtain ⟨c, hc, hP⟩ := (makes_runOps hmakes hop).exists_mem_calls (h.sum g) (s, t)
    cases c with
    | inr c => exact hP
    | inl c =>
        have hmem : c ∈ (runOps (oldOp old) ops).calls h s := by
          rw [← heq]
          exact List.mem_filterMap.mpr ⟨.inl c, hc, rfl⟩
        exact (every_runOps hnever ops).of_mem_calls h hmem hP
  · obtain ⟨c, hc, hP⟩ := (makes_runOps hmakes hop).exists_mem_calls h s
    rw [← heq] at hc
    obtain ⟨d, hd, hdc⟩ := List.mem_filterMap.mp hc
    have hoff := (every_runOps hnever ops).of_mem_calls (h.sum g) hd
    cases d with
    | inr d => cases hdc
    | inl d =>
        cases hdc
        exact hoff hP

end Runs

/-- For a card in both tables whose row has an interrupt style, the new functions
make the accesses of the old style exactly for the lists of operations that were
all transcribed. -/
theorem sameAccesses_iff_transcribed (d : DeviceDescriptor)
    (hd : d ∈ accesioPciDeviceDescriptors) (c : AioPciDevCfg) (hc : c ∈ aioPciDevTable)
    (hid : c.pciDevId = d.pid) (style : Style) (hstyle : d.isr = some style) {σ τ : Type}
    (h : Handler bus σ) (g : Handler context τ) (s : σ) (t : τ) (ops : List Op) :
    newAccesses h g s t d ops = oldAccesses h s c.irq ops ↔
      ∀ op ∈ ops, transcribed style op = true := by
  obtain ⟨hold, henable, hdisable⟩ := rows_agree d hd c hc hid style hstyle
  have hnew := newOp_eq hstyle henable hdisable
  constructor
  · intro heq op hop
    by_contra hnot
    have hapart := toldApart_of_not_transcribed hold (eq_false_of_ne_true hnot)
    exact newAccesses_ne_oldAccesses h g s t hnew hop hapart heq
  · intro hall
    have hrun : runOps (newOp d) ops = (runOps (oldOp c.irq) ops).inl := by
      rw [hnew]
      exact runOps_inl fun op hop => styleOp_eq hold (hall op hop)
    unfold newAccesses oldAccesses
    rw [hrun, Prog.calls_inl]
    exact List.filterMap_map.trans List.filterMap_some

def ones : Handler bus Unit
  | .ioread w _, u => (BitVec.allOnes w.bits, u)
  | .iowrite _ _ _, u => ((), u)

def nobody : Handler context Unit
  | .loadWaitingForIrq, u => ((0 : Int), u)
  | .spinLock, u | .spinUnlock, u | .storeWaitingForIrq _, u | .wakeUpInterruptible, u => ((), u)

theorem sameAccesses_iff_transcribed_pcieDio24 :
    newAccesses ones nobody () () (withStyle 0x0c52 "pcie-dio-24" .pcie7)
          [.enable, .interrupt, .disable] =
        oldAccesses ones () PCIE_7_STYLE [.enable, .interrupt, .disable] ↔
      ∀ op ∈ [Op.enable, .interrupt, .disable], transcribed .pcie7 op = true :=
  sameAccesses_iff_transcribed (withStyle 0x0c52 "pcie-dio-24" .pcie7) (by decide +kernel)
    ⟨0x0c52, PCIE_7_STYLE⟩ (by decide +kernel) rfl .pcie7 rfl ones nobody () ()
    [.enable, .interrupt, .disable]

/-- Enabling a card of style 2 writes below its BAR. -/
theorem pci2_not_transcribed :
    ¬∀ d ∈ accesioPciDeviceDescriptors, ∀ c ∈ aioPciDevTable, c.pciDevId = d.pid →
      d.isr.isSome → ∀ (σ τ : Type) (h : Handler bus σ) (g : Handler context τ) (s : σ) (t : τ)
        (ops : List Op), newAccesses h g s t d ops = oldAccesses h s c.irq ops := by
  intro hall
  have hd : withStyle 0x0c68 "pci-dio-72" .pci2 ∈ accesioPciDeviceDescriptors := by
    decide +kernel
  have hc : (⟨0x0c68, PCI_2_STYLE⟩ : AioPciDevCfg) ∈ aioPciDevTable := by decide +kernel
  have hsame := hall _ hd _ hc rfl rfl Unit Unit ones nobody () () [.enable]
  exact absurd hsame (by decide)

end Aiowdm.Proofs.Transcription
