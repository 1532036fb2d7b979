import Aiowdm.Proofs.Teardown

/-!
# The BARs of a bound card

Probe maps what it can and goes on whatever came of it.  The default BAR is 2 for
some device ids, else 1 for a card with an I/O BAR anywhere and 0 for a card with
none, and the isr has its BARs written into it.
-/

namespace Aiowdm.Proofs.DefaultBar

open Aiowdm.Lib Aiowdm.Driver Aiowdm.Driver.Bus Aiowdm.Driver.DeviceContext
open Aiowdm.Driver.DeviceTable Aiowdm.Driver.InterruptStyles Aiowdm.Driver.Kernel
open Aiowdm.Driver.Probe Aiowdm.Driver.ModuleRuns Aiowdm.Proofs.ProbeStatus
open Aiowdm.Proofs.ProbeEffect Aiowdm.Proofs.Teardown

/-! ## The BARs an isr uses -/

def OnMappedBar (c : Context) : isr.Call → Prop
  | .inl access => ∀ bar, access.addr.base = .bar bar → (c.barBases bar).isSome
  | .inr _ => True

/-- The BARs that the interrupt function of a style dereferences. -/
def isrBars : Style → List (Fin PCI_STD_NUM_BARS)
  | .pci1 => [0]
  | .pci2 | .pci3 | .pci4 | .pci5 | .pci6 | .pci7 | .pci8 | .pci9 | .pci10 | .pci12
  | .pci13 => [0, 2]
  | .pcie1 | .pcie2 | .pcie3 | .pcie4 | .pcie5 | .pcie6 | .pcie7 | .pcie8 => [1, 2]
  | .adio16f => [2]

section

variable {P : isr.Call → Prop}

theorem every_leaveIfNotLatched_iff {latch : Latch} (hmask : latch.mask ≠ 0)
    {acknowledge : Prog bus Unit} :
    (leaveIfNotLatched latch acknowledge).Every P ↔
      P (.inl (.ioread .byte latch.addr)) ∧ acknowledge.Every fun access => P (.inl access) := by
  rw [← Prog.every_inl_iff]
  constructor
  · intro h
    refine ⟨h.1, ?_⟩
    -- The byte that is the mask itself tells of an interrupt.
    have hlatched : ¬latch.mask &&& latch.mask = 0 := by simpa using hmask
    have hrest := h.2 latch.mask
    change Prog.Every P (if latch.mask &&& latch.mask = 0 then pure IrqReturn.none else
      acknowledge.inl >>= fun _ => pure IrqReturn.handled) at hrest
    rw [if_neg hlatched] at hrest
    exact hrest.of_bind
  · rintro ⟨hread, hack⟩
    exact every_leaveIfNotLatched hread hack

variable {c : Context}

@[simp] theorem onMappedBar_ioread (w : Width) (i : Fin PCI_STD_NUM_BARS) (offset : Int) :
    OnMappedBar c (.inl (.ioread w (bar i offset))) ↔ (c.barBases i).isSome := by
  simp [OnMappedBar, bar, BusCall.addr]

@[simp] theorem onMappedBar_iowrite (w : Width) (v : BitVec w.bits) (i : Fin PCI_STD_NUM_BARS)
    (offset : Int) :
    OnMappedBar c (.inl (.iowrite w v (bar i offset))) ↔ (c.barBases i).isSome := by
  simp [OnMappedBar, bar, BusCall.addr]

private theorem every_interruptAdio16fStyle_iff :
    interruptAdio16fStyle.Every (OnMappedBar c) ↔ (c.barBases 2).isSome := by
  constructor
  · intro h
    exact (onMappedBar_ioread .dword 2 0x40).mp h.1
  · intro hbar
    refine every_interruptAdio16fStyle ?_ (fun v => ?_) fun _ => trivial
    · exact (onMappedBar_ioread .dword 2 0x40).mpr hbar
    · exact (onMappedBar_iowrite .dword v 2 0x40).mpr hbar

theorem every_pci_iff {acknowledge : Prog bus Unit} :
    (accesioLeaveIfNotLatchedPci acknowledge).Every (OnMappedBar c) ↔
      (c.barBases 0).isSome ∧ acknowledge.Every fun access => OnMappedBar c (.inl access) :=
  (every_leaveIfNotLatched_iff (by decide)).trans
    (and_congr_left' (onMappedBar_ioread .byte 0 0x4c))

private theorem every_pcie_iff {acknowledge : Prog bus Unit} :
    (accesioLeaveIfNotLatchedPcie acknowledge).Every (OnMappedBar c) ↔
      (c.barBases 1).isSome ∧ acknowledge.Every fun access => OnMappedBar c (.inl access) :=
  (every_leaveIfNotLatched_iff (by decide)).trans
    (and_congr_left' (onMappedBar_ioread .byte 1 0x69))

theorem every_touch8_iff (i : Fin PCI_STD_NUM_BARS) (offset : Int) :
    (touch8 (bar i offset)).Every (fun access => OnMappedBar c (.inl access)) ↔
      (c.barBases i).isSome :=
  (and_iff_left fun _ => trivial).trans (onMappedBar_ioread .byte i offset)

theorem every_iowrite8_iff (v : BitVec 8) (i : Fin PCI_STD_NUM_BARS) (offset : Int) :
    (iowrite8 v (bar i offset)).Every (fun access => OnMappedBar c (.inl access)) ↔
      (c.barBases i).isSome :=
  Prog.every_perform.trans (onMappedBar_iowrite .byte v i offset)

private theorem every_iowrite32_iff (v : BitVec 32) (i : Fin PCI_STD_NUM_BARS) (offset : Int) :
    (iowrite32 v (bar i offset)).Every (fun access => OnMappedBar c (.inl access)) ↔
      (c.barBases i).isSome :=
  Prog.every_perform.trans (onMappedBar_iowrite .dword v i offset)

/-- Where an acknowledgement goes to BAR 2, that and the latch's are the BARs of the isr. -/
theorem every_interrupt_iff (style : Style) :
    style.interrupt.Every (OnMappedBar c) ↔ ∀ bar ∈ isrBars style, (c.barBases bar).isSome := by
  cases style
  case adio16f =>
    rw [Style.interrupt, every_interruptAdio16fStyle_iff]
    simp [isrBars]
  case pci1 =>
    simp [isrBars, Style.interrupt, interruptPciStyle1, every_pci_iff]
  case pci2 | pci3 | pci4 | pci5 | pci6 | pci7 | pci8 | pci9 | pci10 | pci12 | pci13 =>
    refine every_pci_iff.trans ?_
    simp [isrBars, Prog.every_seq_iff, every_touch8_iff, every_iowrite8_iff, enablePciStyle2,
      disablePciStyle2, enablePciStyle3, disablePciStyle3, enablePciStyle6, disablePciStyle6,
      enablePciStyle7, disablePciStyle7]
  all_goals
    refine every_pcie_iff.trans ?_
    simp [isrBars, Prog.every_seq_iff, every_touch8_iff, every_iowrite8_iff, every_iowrite32_iff,
      enablePcieStyle1, disablePcieStyle1]

end

/-! ## The BARs of a context -/

/-- A program can use the default BAR of the context, and the isr all of its own. -/
structure BarsUsable (card : PciResources) (d : DeviceDescriptor) (c : Context) : Prop where
  implemented : (card.bars c.defaultBar).implemented
  mapped : (c.barBases c.defaultBar).isSome
  io : (∃ bar, (card.bars bar).isIo) → d.pid ∉ defaultBarOverrides →
    (card.bars c.defaultBar).isIo
  isr : ∀ style ∈ d.isr, style.interrupt.Every (OnMappedBar c)

def Maps (card : PciResources) (o : Outcomes) (bar : Fin PCI_STD_NUM_BARS) : Prop :=
  (card.bars bar).implemented ∧ (o.pciIomap bar).isSome

/-- The card has its BARs where the driver takes them to be, and all these are mapped. -/
structure LayoutSuits (card : PciResources) (o : Outcomes) (d : DeviceDescriptor) : Prop where
  overridden : d.pid ∈ defaultBarOverrides → Maps card o 2
  io : d.pid ∉ defaultBarOverrides → (∃ bar, (card.bars bar).isIo) →
    (card.bars 1).isIo ∧ Maps card o 1
  memory : d.pid ∉ defaultBarOverrides → (¬∃ bar, (card.bars bar).isIo) → Maps card o 0
  isr : ∀ style ∈ d.isr, ∀ bar ∈ isrBars style, Maps card o bar

private theorem isSome_mappedBase (card : PciResources) (o : Outcomes)
    (bar : Fin PCI_STD_NUM_BARS) :
    (mappedBase card o bar).isSome ↔ Maps card o bar := by
  unfold mappedBase Maps
  split_ifs with himpl
  · exact (and_iff_right himpl).symm
  · exact iff_of_false (by simp) fun h => himpl h.1

theorem defaultBar_boundContext (card : PciResources) (o : Outcomes) (dev : PciDev)
    (d : DeviceDescriptor) (w : World) :
    (boundContext card o dev d w).defaultBar =
      if d.pid ∈ defaultBarOverrides then 2
      else if ∃ bar, (card.bars bar).isIo then 1 else 0 := rfl

theorem barsUsable_boundContext (card : PciResources) (o : Outcomes) (dev : PciDev)
    (d : DeviceDescriptor) (w : World) :
    BarsUsable card d (boundContext card o dev d w) ↔ LayoutSuits card o d := by
  have hbases : ∀ bar, ((boundContext card o dev d w).barBases bar).isSome ↔ Maps card o bar :=
    isSome_mappedBase card o
  have hisr : (∀ style ∈ d.isr, style.interrupt.Every (OnMappedBar (boundContext card o dev d w))) ↔
      ∀ style ∈ d.isr, ∀ bar ∈ isrBars style, Maps card o bar := by
    simp only [every_interrupt_iff, hbases]
  have hdefault := defaultBar_boundContext card o dev d w
  constructor
  · rintro ⟨himpl, hmapped, hio, hall⟩
    rw [hbases] at hmapped
    refine ⟨fun hover => ?_, fun hover hany => ?_, fun hover hnone => ?_, hisr.mp hall⟩
    · rwa [hdefault, if_pos hover] at hmapped
    · have hone := hio hany hover
      rw [hdefault, if_neg hover, if_pos hany] at hone hmapped
      exact ⟨hone, hmapped⟩
    · rwa [hdefault, if_neg hover, if_neg hnone] at hmapped
  · rintro ⟨hover, hio, hmem, hall⟩
    have hmaps : Maps card o (boundContext card o dev d w).defaultBar := by
      rw [hdefault]
      split_ifs with hpid hany
      · exact hover hpid
      · exact (hio hpid hany).2
      · exact hmem hpid hany
    refine ⟨hmaps.1, (hbases _).mpr hmaps, fun hany hpid => ?_, hisr.mpr hall⟩
    rw [hdefault, if_neg hpid, if_pos hany]
    exact (hio hpid hany).1

theorem bindingOf_of_returned {pci : PciDev → PciResources} {o : Outcomes}
    {table : List DeviceDescriptor} {dev : PciDev} {device : Nat} {d : DeviceDescriptor}
    (hd : lookupDescriptor table device = some d) {w : World}
    (hret : ((accesioPciDriverProbe table dev device).exec (handler pci o) w).1 = .returned 0) :
    bindingOf ((accesioPciDriverProbe table dev device).exec (handler pci o) w).2 dev =
      some ⟨w.nextPtr, boundContext (pci dev) o dev d w⟩ := by
  rw [ending_accesioPciDriverProbe, hd, probeEnding_eq_zero_iff] at hret
  obtain ⟨hadmits, hirq, hdma⟩ := hret
  rw [exec_accesioPciDriverProbe pci o dev hd hadmits hirq hdma]
  exact bindingOf_boundWorld (pci dev) o dev d w

theorem returned_allSucceed (pci : PciDev → PciResources) {d : DeviceDescriptor}
    (hd : lookupDescriptor accesioPciDeviceDescriptors d.pid = some d) {style : Style}
    (hisr : d.isr = some style) (dev : PciDev) (w : World) :
    ((accesioPciDriverProbe accesioPciDeviceDescriptors dev d.pid).exec (handler pci allSucceed)
      w).1 = .returned 0 := by
  rw [ending_accesioPciDriverProbe, hd, probeEnding_eq_zero_iff]
  refine ⟨⟨rfl, rfl, rfl⟩, ?_, fun _ => rfl⟩
  rw [hisr]
  rfl

/-- Of whatever layout the card is and whatever `pci_iomap` answers, the BARs of the
context that a probe returning 0 leaves are usable exactly where the layout is the
one the driver is written for. -/
theorem barsUsable_iff_layoutSuits (pci : PciDev → PciResources) (o : Outcomes)
    {table : List DeviceDescriptor} (dev : PciDev) {device : Nat} {d : DeviceDescriptor}
    (hd : lookupDescriptor table device = some d) (w : World)
    (hret : ((accesioPciDriverProbe table dev device).exec (handler pci o) w).1 = .returned 0) :
    ∃ b, bindingOf ((accesioPciDriverProbe table dev device).exec (handler pci o) w).2 dev =
        some b ∧ (BarsUsable (pci dev) d b.contents ↔ LayoutSuits (pci dev) o d) :=
  ⟨_, bindingOf_of_returned hd hret, barsUsable_boundContext (pci dev) o dev d w⟩

theorem barsUsable_iff_layoutSuits_mpcieDio24s :
    ∃ b, bindingOf ((accesioPciDriverProbe accesioPciDeviceDescriptors 1 0x0100).exec
        (handler oneBar allSucceed) .fresh).2 1 = some b ∧
      (BarsUsable (oneBar 1) (withStyle 0x0100 "mpcie-dio-24s" .pcie2) b.contents ↔
        LayoutSuits (oneBar 1) allSucceed (withStyle 0x0100 "mpcie-dio-24s" .pcie2)) := by
  have hrow : withStyle 0x0100 "mpcie-dio-24s" .pcie2 ∈ accesioPciDeviceDescriptors := by decide
  have hfound := lookupDescriptor_of_mem pids_nodup hrow
  refine barsUsable_iff_layoutSuits oneBar allSucceed 1 hfound .fresh ?_
  rw [ending_accesioPciDriverProbe]
  decide

def bridged : PciDev → PciResources :=
  fun _ => ⟨16, fun bar => if bar = 1 then .mem 0x80 else if bar = 2 then .io 0x100 else
    .unimplemented⟩

/-- The default BAR of an mPCIe-DIO-24S whose only I/O BAR is 2 is the memory BAR 1. -/
theorem default_bar_not_io :
    ¬∀ d ∈ accesioPciDeviceDescriptors, ∀ (pci : PciDev → PciResources) (o : Outcomes)
      (dev : PciDev) (w : World) (b : Binding), (∃ bar, ((pci dev).bars bar).implemented) →
        ((accesioPciDriverProbe accesioPciDeviceDescriptors dev d.pid).exec (handler pci o) w).1 =
          .returned 0 →
        bindingOf ((accesioPciDriverProbe accesioPciDeviceDescriptors dev d.pid).exec
          (handler pci o) w).2 dev = some b → BarsUsable (pci dev) d b.contents := by
  intro hall
  have hrow : withStyle 0x0100 "mpcie-dio-24s" .pcie2 ∈ accesioPciDeviceDescriptors := by decide
  generalize hcard : withStyle 0x0100 "mpcie-dio-24s" .pcie2 = card at hrow
  have hpid : card.pid ∉ defaultBarOverrides := by
    rw [← hcard]
    decide
  have hisr : card.isr = some .pcie2 := by
    rw [← hcard]
    rfl
  have hd := lookupDescriptor_of_mem pids_nodup hrow
  have hret := returned_allSucceed bridged hd hisr 1 .fresh
  have husable := hall card hrow bridged allSucceed 1 .fresh _ ⟨1, by decide⟩ hret
    (bindingOf_of_returned hd hret)
  have hsuits := (barsUsable_boundContext (bridged 1) allSucceed 1 card .fresh).mp husable
  have hone : ((bridged 1).bars 1).isIo = true := (hsuits.io hpid ⟨2, by decide⟩).1
  exact absurd hone (by decide)

end Aiowdm.Proofs.DefaultBar
