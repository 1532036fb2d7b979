import Aiowdm.Driver.Probe

/-!
# The calls of probe, remove and init

Once probe has a context, every call it makes is about that card and that
context, and none releases anything.  Remove makes its calls about the context
that `drvdata` gave it, and frees it last.
-/

namespace Aiowdm.Proofs.SetupCalls

open Aiowdm.Lib Aiowdm.Driver.DeviceContext Aiowdm.Driver.DeviceTable Aiowdm.Driver.Kernel
open Aiowdm.Driver.Probe

variable (dev : PciDev) (context : Ptr) (d : DeviceDescriptor)

/-! ## Probe -/

/-- The calls of a probe that has a context. -/
def ProbeCall : KernelCall → Prop
  | .pciSetDrvdata pci p => pci = dev ∧ p = some context
  | .pciResourceFlags pci _ | .pciIomap pci _ | .pciDevIrq pci => pci = dev
  | .store p _ | .requestIrq _ _ p | .cdevAdd p _ | .deviceCreate _ _ p _ => p = context
  | .kmalloc | .dmaLockInit _ | .loadCharClass | .loadCharMajor | .loadCharNextMinor
  | .storeCharNextMinor _ => True
  | _ => False

def PlainProbeCall : KernelCall → Prop
  | .store _ .irqLock | .store _ .waitQueue => False
  | c => ProbeCall dev context c

theorem PlainProbeCall.probeCall {dev : PciDev} {context : Ptr} {c : KernelCall}
    (h : PlainProbeCall dev context c) : ProbeCall dev context c := by
  unfold PlainProbeCall at h
  split at h
  · exact h.elim
  · exact h.elim
  · exact h

theorem every_probeBars_of {P : KernelCall → Prop} (hflags : ∀ bar, P (.pciResourceFlags dev bar))
    (hmap : ∀ bar, P (.pciIomap dev bar))
    (hbase : ∀ bar base, P (.store context (.barBase bar base)))
    (hdefault : ∀ bar, P (.store context (.defaultBar bar)))
    (bars : List (Fin PCI_STD_NUM_BARS)) : (probeBars dev context bars).Every P := by
  induction bars with
  | nil => trivial
  | cons bar bars ih =>
      refine .bind ?_ fun _ => ih
      refine .perform_bind (hflags bar) fun flags => .bind (.guarded ?_) fun _ => ?_
      · exact .perform_bind (hmap bar) fun base => .perform (hbase bar base)
      · exact .perform_bind (hflags bar) fun flags => .guarded (.perform (hdefault 1))

theorem every_plain_probeBars (bars : List (Fin PCI_STD_NUM_BARS)) :
    (probeBars dev context bars).Every (PlainProbeCall dev context) :=
  every_probeBars_of dev context (fun _ => rfl) (fun _ => rfl) (fun _ _ => rfl) (fun _ => rfl) bars

private theorem every_probeBars (bars : List (Fin PCI_STD_NUM_BARS)) :
    (probeBars dev context bars).Every (ProbeCall dev context) :=
  (every_plain_probeBars dev context bars).mono fun _ => PlainProbeCall.probeCall

theorem every_plain_probeCharDevice (status : Int) :
    (probeCharDevice context d status).Every (PlainProbeCall dev context) := by
  refine .perform_bind trivial fun major => .perform_bind trivial fun minor => ?_
  refine .perform_bind rfl fun _ => .perform_bind rfl fun _ => ?_
  refine .perform_bind rfl fun added => .perform_bind trivial fun charClass => ?_
  refine .perform_bind rfl fun device => .perform_bind rfl fun _ => ?_
  split
  · trivial
  · exact .perform_bind trivial fun next => .perform_bind trivial fun _ => trivial

theorem every_plain_probeDma (status : Int) :
    (probeDma context d status).Every (PlainProbeCall dev context) := by
  unfold probeDma
  split
  · refine .perform_bind trivial fun isrContext => .perform_bind rfl fun _ => ?_
    cases isrContext with
    | none => trivial
    | some p =>
        exact .perform_bind trivial fun _ => every_plain_probeCharDevice dev context d status
  · exact every_plain_probeCharDevice dev context d status

private theorem every_probeDma (status : Int) :
    (probeDma context d status).Every (ProbeCall dev context) :=
  (every_plain_probeDma dev context d status).mono fun _ => PlainProbeCall.probeCall

private theorem every_probeIrq : (probeIrq dev context d).Every (ProbeCall dev context) := by
  refine .perform_bind rfl fun irq => .perform_bind rfl fun status => ?_
  refine .perform_bind rfl fun _ => .perform_bind rfl fun _ => ?_
  split
  · trivial
  · exact every_probeDma dev context d _

theorem every_probeContext (table : List DeviceDescriptor) (device : Nat) :
    (probeContext table dev device context).Every (ProbeCall dev context) := by
  refine .perform_bind ⟨rfl, rfl⟩ fun _ => .perform_bind rfl fun _ => ?_
  split
  · trivial
  · next d _ =>
      refine .perform_bind rfl fun _ => .bind (every_probeBars dev context _) fun _ => ?_
      exact .bind (.guarded (.perform rfl)) fun _ => every_probeIrq dev context d

/-! ## Remove -/

def RemoveCall : KernelCall → Prop
  | .pciIounmap pci _ | .pciReleaseRegions pci => pci = dev
  | .load p | .freeIrq _ p => p = context
  | .pciDevIrq _ | .loadCharClass | .deviceDestroy _ _ => True
  | _ => False

theorem every_removeBars (bars : List (Fin PCI_STD_NUM_BARS)) :
    (removeBars dev context bars).Every (RemoveCall dev context) := by
  induction bars with
  | nil => trivial
  | cons bar bars ih =>
      refine .bind (.perform_bind rfl fun c => ?_) fun _ => ih
      split
      · exact .perform rfl
      · trivial

/-! ## Init -/

def InitCall : KernelCall → Prop
  | .allocChrdevRegion _ _ | .storeCharMajor _ | .classCreate | .storeCharClass _
  | .pciRegisterDriver => True
  | _ => False

theorem every_initClass (number : DevT) : (initClass number).Every InitCall := by
  refine .perform_bind trivial fun _ => .perform_bind trivial fun charClass => ?_
  refine .perform_bind trivial fun _ => ?_
  split
  · trivial
  · refine .perform_bind trivial fun status => ?_
    split <;> trivial

theorem every_accesioPciInit (table : List DeviceDescriptor) (ids : List Nat) :
    (accesioPciInit table ids).Every InitCall := by
  unfold accesioPciInit
  split
  · trivial
  · trivial
  · refine .perform_bind trivial fun region => ?_
    obtain ⟨status, number⟩ := region
    dsimp only
    split
    · trivial
    · exact every_initClass number

end Aiowdm.Proofs.SetupCalls
