import Aiowdm.Driver.Probe

/-!
# What probe returns

The status of a probe is a function of the outcomes of four calls, the lookup
and the DMA allocation.  The results of `pci_iomap`, `cdev_add` and
`device_create` play no part in it, and a descriptor without an isr is refused
by `request_irq`.
-/

namespace Aiowdm.Proofs.ProbeStatus

open Aiowdm.Lib Aiowdm.Driver.DeviceContext Aiowdm.Driver.DeviceTable Aiowdm.Driver.Kernel
open Aiowdm.Driver.InterruptStyles Aiowdm.Driver.Probe

/-! ## The ending of each part -/

def dmaEnding (o : Outcomes) (d : DeviceDescriptor) (status : Int) : Ending Int :=
  if d.hasDma ∧ ¬o.kmalloc then .undefined else .returned status

def irqEnding (o : Outcomes) (d : DeviceDescriptor) : Ending Int :=
  if o.requestIrq d.isr ≠ 0 then .returned (o.requestIrq d.isr) else dmaEnding o d 0

def contextEnding (o : Outcomes) : Option DeviceDescriptor → Ending Int
  | none => .returned (-EPERM)
  | some d => irqEnding o d

def regionsEnding (o : Outcomes) (found : Option DeviceDescriptor) : Ending Int :=
  if o.pciRequestRegions ≠ 0 then .returned o.pciRequestRegions
  else if o.kzalloc then contextEnding o found
  else .returned (-ENOMEM)

def probeEnding (o : Outcomes) (found : Option DeviceDescriptor) : Ending Int :=
  if o.pciEnableDevice ≠ 0 then .returned o.pciEnableDevice else regionsEnding o found

variable (pci : PciDev → PciResources) (o : Outcomes) (table : List DeviceDescriptor)
variable (dev : PciDev) (device : Nat) (context : Ptr) (d : DeviceDescriptor) (w : World)

theorem ending_probeCharDevice (status : Int) :
    ((probeCharDevice context d status).exec (handler pci o) w).1 = .returned status := by
  simp only [probeCharDevice, Prog.exec_bind, Prog.exec_ite]
  split <;> simp

private theorem ending_probeDma (status : Int) :
    ((probeDma context d status).exec (handler pci o) w).1 = dmaEnding o d status := by
  by_cases hdma : d.hasDma
  · by_cases hk : o.kmalloc <;>
      simp [probeDma, dmaEnding, hdma, hk, ending_probeCharDevice]
  · simp [probeDma, dmaEnding, hdma, ending_probeCharDevice]

private theorem ending_probeIrq :
    ((probeIrq dev context d).exec (handler pci o) w).1 = irqEnding o d := by
  by_cases hs : o.requestIrq d.isr = 0
  · simp [probeIrq, irqEnding, hs, ending_probeDma]
  · simp [probeIrq, irqEnding, hs]

private theorem ending_probeContext :
    ((probeContext table dev device context).exec (handler pci o) w).1 =
      contextEnding o (lookupDescriptor table device) := by
  cases hl : lookupDescriptor table device with
  | none => simp [probeContext, hl, contextEnding]
  | some d => simp [probeContext, hl, contextEnding, ending_probeIrq]

theorem ending_probeRegions :
    ((probeRegions table dev device).exec (handler pci o) w).1 =
      regionsEnding o (lookupDescriptor table device) := by
  by_cases hr : o.pciRequestRegions = 0
  · by_cases hk : o.kzalloc <;>
      simp [probeRegions, regionsEnding, hr, hk, ending_probeContext]
  · simp [probeRegions, regionsEnding, hr]

theorem ending_accesioPciDriverProbe :
    ((accesioPciDriverProbe table dev device).exec (handler pci o) w).1 =
      probeEnding o (lookupDescriptor table device) := by
  by_cases he : o.pciEnableDevice = 0
  · simp [accesioPciDriverProbe, probeEnding, he, ending_probeRegions]
  · simp [accesioPciDriverProbe, probeEnding, he]

/-! ## The lookup -/

theorem pids_nodup : (accesioPciDeviceDescriptors.map (·.pid)).Nodup := by
  decide

theorem lookupDescriptor_of_mem {table : List DeviceDescriptor} {d : DeviceDescriptor}
    (hnodup : (table.map (·.pid)).Nodup) (hd : d ∈ table) :
    lookupDescriptor table d.pid = some d := by
  induction table with
  | nil => cases hd
  | cons e table ih =>
      obtain ⟨hfresh, hnodup⟩ := List.nodup_cons.mp hnodup
      rcases List.mem_cons.mp hd with rfl | hd
      · simp [lookupDescriptor]
      · have hne : d.pid ≠ e.pid := by
          intro heq
          exact hfresh (List.mem_map.mpr ⟨d, hd, heq⟩)
        simpa [lookupDescriptor, hne] using ih hnodup hd

/-! ## Returning 0 -/

/-- The steps before the descriptor is known. -/
def Outcomes.Admits (o : Outcomes) : Prop :=
  o.pciEnableDevice = 0 ∧ o.pciRequestRegions = 0 ∧ o.kzalloc

def DmaAllocated (o : Outcomes) (d : DeviceDescriptor) : Prop :=
  d.hasDma → o.kmalloc

variable {pci o table dev device d w}

private theorem irqEnding_eq_zero_iff :
    irqEnding o d = .returned 0 ↔ o.requestIrq d.isr = 0 ∧ DmaAllocated o d := by
  by_cases hs : o.requestIrq d.isr = 0
  · by_cases hdma : d.hasDma <;> by_cases hk : o.kmalloc <;>
      simp [irqEnding, dmaEnding, DmaAllocated, hs, hdma, hk]
  · simp [irqEnding, hs]

theorem probeEnding_eq_zero_iff :
    probeEnding o (some d) = .returned 0 ↔
      Outcomes.Admits o ∧ o.requestIrq d.isr = 0 ∧ DmaAllocated o d := by
  rw [← irqEnding_eq_zero_iff]
  unfold probeEnding regionsEnding contextEnding Outcomes.Admits
  split_ifs <;> simp_all [ENOMEM]

def BarsMap (pci : PciDev → PciResources) (o : Outcomes) (dev : PciDev) : Prop :=
  ∀ bar, ((pci dev).bars bar).implemented → (o.pciIomap bar).isSome

def NodeAppears (o : Outcomes) : Prop :=
  o.cdevAdd = 0 ∧ o.deviceCreate.isOk

def NeededStepsSucceed (pci : PciDev → PciResources) (o : Outcomes) (dev : PciDev)
    (d : DeviceDescriptor) : Prop :=
  Outcomes.Admits o ∧ BarsMap pci o dev ∧ (d.isr ≠ none → o.requestIrq d.isr = 0) ∧
    DmaAllocated o d ∧ NodeAppears o

/-- Probe returns 0 exactly when the card gets all it needs. -/
def TellsBound (pci : PciDev → PciResources) (o : Outcomes) (table : List DeviceDescriptor)
    (dev : PciDev) (device : Nat) (d : DeviceDescriptor) (w : World) : Prop :=
  ((accesioPciDriverProbe table dev device).exec (handler pci o) w).1 = .returned 0 ↔
    NeededStepsSucceed pci o dev d

/-- With an isr the results nobody looks at must be good whenever the others
are; without one the card is refused, so some other step must fail. -/
theorem tellsBound_iff (hd : lookupDescriptor table device = some d)
    (hnull : o.requestIrq none ≠ 0) :
    TellsBound pci o table dev device d w ↔
      ¬Outcomes.Admits o ∨
      d.isr ≠ none ∧ (o.requestIrq d.isr ≠ 0 ∨ ¬DmaAllocated o d ∨
        BarsMap pci o dev ∧ NodeAppears o) ∨
      d.isr = none ∧ ¬(BarsMap pci o dev ∧ DmaAllocated o d ∧ NodeAppears o) := by
  unfold TellsBound NeededStepsSucceed
  rw [ending_accesioPciDriverProbe, hd, probeEnding_eq_zero_iff]
  by_cases hisr : d.isr = none
  · rw [hisr]
    tauto
  · tauto

/-! ## Two cards -/

def oneBar : PciDev → PciResources :=
  fun _ => ⟨16, fun bar => if bar = 2 then .mem 0x100 else .unimplemented⟩

def allSucceed : Outcomes where
  pciEnableDevice := 0
  pciRequestRegions := 0
  pciIomap := fun bar => some (0x1000 * (bar + 1))
  kzalloc := true
  kmalloc := true
  requestIrq := fun isr => if isr = none then -22 else 0
  cdevAdd := 0
  deviceCreate := .ok 0x9000
  allocChrdevRegion := (0, 240)
  classCreate := .ok 0x9100
  pciRegisterDriver := 0

theorem tellsBound_iff_mpcieDio24s :
    TellsBound oneBar allSucceed accesioPciDeviceDescriptors 1 0x0100
      (withStyle 0x0100 "mpcie-dio-24s" .pcie2) .fresh := by
  have hrow : withStyle 0x0100 "mpcie-dio-24s" .pcie2 ∈ accesioPciDeviceDescriptors := by decide
  have hfound := lookupDescriptor_of_mem pids_nodup hrow
  refine (tellsBound_iff hfound (by decide)).mpr (.inr (.inl ⟨by decide, ?_⟩))
  exact .inr (.inr ⟨fun bar _ => rfl, rfl, rfl⟩)

/-- An mPCIe-DIO-24S is reported as bound although `cdev_add` failed. -/
theorem bound_without_char_device :
    ¬∀ d ∈ accesioPciDeviceDescriptors, ∀ (pci : PciDev → PciResources) (o : Outcomes)
      (dev : PciDev) (w : World), o.requestIrq none ≠ 0 →
        TellsBound pci o accesioPciDeviceDescriptors dev d.pid d w := by
  intro hall
  have htells := hall (withStyle 0x0100 "mpcie-dio-24s" .pcie2) (by decide) oneBar
    { allSucceed with cdevAdd := -12 } 1 .fresh (by decide)
  have hadd : ((-12 : Int)) = 0 := (htells.mp (by
    rw [ending_accesioPciDriverProbe]
    decide)).2.2.2.2.1
  exact absurd hadd (by decide)

end Aiowdm.Proofs.ProbeStatus
