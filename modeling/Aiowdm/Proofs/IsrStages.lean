import Aiowdm.Driver.Handles
import Aiowdm.Proofs.Ownership

/-!
# Where probe and remove are with the line of a card

Probe registers the isr after it has mapped the BARs, and remove frees the line before
it unmaps any of them.  The stages of the two, what each may call, and that the functions
of the driver go through them.
-/

namespace Aiowdm.Proofs.IsrStages

open Aiowdm.Lib Aiowdm.Driver Aiowdm.Driver.DeviceContext Aiowdm.Driver.DeviceTable
open Aiowdm.Driver.Handles Aiowdm.Driver.Kernel Aiowdm.Driver.Probe
open Aiowdm.Proofs.Ownership (Own)

/-! ## How far probe and remove are -/

/-- What the function that runs for a card has, up to the line of the card and back. -/
inductive Stage where
  | idle (bound : Bool)
  | allocated (context : Ptr)
  | entered (context : Ptr)
  | building (context : Ptr)
  | mapped (context : Ptr) (bar : Fin PCI_STD_NUM_BARS) (base : Option Ptr)
  | numbered (context : Ptr) (irq : Nat)
  | serving (context : Ptr)
  | refused (context : Ptr)
  | gone
  | found (context : Ptr)
  | loaded (context : Ptr) (pci : Option PciDev)
  | leaving (context : Ptr) (irq : Nat)
  | silent (context : Ptr)
  | freed

def Stage.own : Stage → Own
  | .idle _ | .gone => .nothing
  | .allocated p | .entered p | .building p | .mapped p _ _ | .numbered p _ | .serving p
  | .refused p | .found p | .loaded p _ | .leaving p _ | .silent p => .owns p
  | .freed => .freed

/-- The context with which the isr of the card may be registered. -/
def Stage.served : Stage → Option Ptr → Option Ptr
  | .idle true, drvdata => drvdata
  | .serving p, _ | .found p, _ | .loaded p _, _ | .leaving p _, _ => some p
  | _, _ => none

def Neutral : KernelCall → Prop
  | .pciEnableDevice _ | .pciRequestRegions _ | .pciReleaseRegions _ | .pciResourceFlags _ _
  | .kmalloc | .dmaLockInit _ | .deviceCreate _ _ _ _ | .deviceDestroy _ _ | .loadCharClass
  | .loadCharMajor | .loadCharNextMinor | .storeCharNextMinor _ | .allocChrdevRegion _ _
  | .storeCharMajor _ | .classCreate | .storeCharClass _ | .pciRegisterDriver => True
  | _ => False

def Plain : Store → Prop
  | .pciDev _ | .barBase _ _ => False
  | _ => True

/-- What a card may call at each stage: remove frees the line before it unmaps anything. -/
inductive Permitted (dev : PciDev) : Stage → KernelCall → Prop
  | neutral {stage : Stage} {c : KernelCall} : Neutral c → Permitted dev stage c
  | kzalloc : Permitted dev (.idle false) .kzalloc
  | enter {p : Ptr} : Permitted dev (.allocated p) (.pciSetDrvdata dev (some p))
  | name {p : Ptr} : Permitted dev (.entered p) (.store p (.pciDev dev))
  | build {p : Ptr} {field : Store} : Plain field → Permitted dev (.building p) (.store p field)
  | map {p : Ptr} {bar : Fin PCI_STD_NUM_BARS} : Permitted dev (.building p) (.pciIomap dev bar)
  | base {p : Ptr} {bar : Fin PCI_STD_NUM_BARS} {base : Option Ptr} :
      Permitted dev (.mapped p bar base) (.store p (.barBase bar base))
  | number {p : Ptr} : Permitted dev (.building p) (.pciDevIrq dev)
  | request {p : Ptr} {irq : Nat} {isr : Option InterruptStyles.Style} :
      Permitted dev (.numbered p irq) (.requestIrq irq isr p)
  | serve {p : Ptr} {field : Store} : Plain field → Permitted dev (.serving p) (.store p field)
  | cdevAdd {p : Ptr} {number : DevT} : Permitted dev (.serving p) (.cdevAdd p number)
  | refuse {p : Ptr} {field : Store} : Plain field → Permitted dev (.refused p) (.store p field)
  | find : Permitted dev (.idle true) (.pciGetDrvdata dev)
  | load {p : Ptr} : Permitted dev (.found p) (.load p)
  | line {p : Ptr} {pci : PciDev} : Permitted dev (.loaded p (some pci)) (.pciDevIrq pci)
  | free {p : Ptr} {irq : Nat} : Permitted dev (.leaving p irq) (.freeIrq irq p)
  | look {p : Ptr} : Permitted dev (.silent p) (.load p)
  | unmap {p base : Ptr} : Permitted dev (.silent p) (.pciIounmap dev base)
  | kfree {p : Ptr} : Permitted dev (.silent p) (.kfree p)
  | forget : Permitted dev .freed (.pciSetDrvdata dev none)

def Stage.ofStatus (p : Ptr) (status : Int) : Stage :=
  if status = 0 then .serving p else .refused p

def next : Stage → (c : KernelCall) → KernelCall.Reply c → Stage
  | .idle _, .kzalloc, some p => .allocated p
  | .idle _, .pciGetDrvdata _, some p => .found p
  | .idle _, .pciGetDrvdata _, none => .gone
  | .allocated p, .pciSetDrvdata _ _, _ => .entered p
  | .entered p, .store _ _, _ => .building p
  | .building p, .pciIomap _ bar, base => .mapped p bar base
  | .building p, .pciDevIrq _, irq => .numbered p irq
  | .mapped p _ _, .store _ _, _ => .building p
  | .numbered p _, .requestIrq _ _ _, status => .ofStatus p status
  | .found p, .load _, c => .loaded p (Context.pciDev c)
  | .loaded p _, .pciDevIrq _, irq => .leaving p irq
  | .leaving p _, .freeIrq _ _, _ => .silent p
  | .silent _, .kfree _, _ => .freed
  | .freed, .pciSetDrvdata _ _, _ => .gone
  | stage, _, _ => stage

abbrev stages (dev : PciDev) : Protocol kernel Stage where
  Permits := Permitted dev
  next := next

/-- A function that ends tells whether it left the isr registered. -/
def EndsTrue : Ending Bool → Stage → Prop
  | .returned true, stage => ∃ p, stage = .serving p
  | .returned false, stage => stage = .idle false ∨ stage = .gone ∨
      ∃ p, stage = .building p ∨ stage = .refused p
  | .undefined, _ => True

def ProbeEnds (ending : Ending Int) : Stage → Prop :=
  EndsTrue (Ending.bound (fun status => status = 0) ending)

theorem probeEnds_of_ne {status : Int} {stage : Stage} (hstatus : status ≠ 0)
    (hstage : stage = .idle false ∨ ∃ p, stage = .building p ∨ stage = .refused p) :
    ProbeEnds (.returned status) stage := by
  simp only [ProbeEnds, Ending.bound, hstatus, decide_false, EndsTrue]
  exact hstage.imp_right .inr

theorem probeEnds_serving (p : Ptr) : ProbeEnds (.returned 0) (.serving p) := ⟨p, rfl⟩

section Probe

variable (dev : PciDev) (p : Ptr)

private theorem follows_probeBar {Q : Unit → Stage → Prop} (hQ : Q () (.building p))
    (bar : Fin PCI_STD_NUM_BARS) :
    (probeBar dev p bar).Follows (stages dev) Q (.building p) := by
  have hio (flags : BitVec 64) : (Prog.guarded (flags &&& IORESOURCE_IO != 0)
      (store p (.defaultBar 1))).Follows (stages dev) Q (.building p) :=
    .guarded ⟨.build trivial, fun _ => hQ⟩ hQ
  refine .perform_bind (.neutral trivial) fun flags => .bind (.guarded ?_ ?_)
  · refine .perform_bind .map fun base => ⟨.base, fun _ => ?_⟩
    exact .perform_bind (.neutral trivial) hio
  · exact .perform_bind (.neutral trivial) hio

private theorem follows_probeBars {Q : Unit → Stage → Prop} (hQ : Q () (.building p))
    (bars : List (Fin PCI_STD_NUM_BARS)) :
    (probeBars dev p bars).Follows (stages dev) Q (.building p) := by
  induction bars with
  | nil => exact hQ
  | cons bar bars ih => exact .bind (follows_probeBar dev p ih bar)

theorem follows_probeCharDevice (d : DeviceDescriptor) :
    (probeCharDevice p d 0).Follows (stages dev) ProbeEnds (.serving p) := by
  refine .perform_bind (.neutral trivial) fun major => ?_
  refine .perform_bind (.neutral trivial) fun minor => ?_
  refine .perform_bind (.serve trivial) fun _ => .perform_bind (.serve trivial) fun _ => ?_
  refine .perform_bind .cdevAdd fun added => .perform_bind (.neutral trivial) fun charClass => ?_
  refine .perform_bind (.neutral trivial) fun device => .perform_bind (.serve trivial) fun _ => ?_
  split
  · exact probeEnds_serving p
  · refine .perform_bind (.neutral trivial) fun minor => ?_
    exact .perform_bind (.neutral trivial) fun _ => probeEnds_serving p

private theorem follows_probeDma (d : DeviceDescriptor) :
    (probeDma p d 0).Follows (stages dev) ProbeEnds (.serving p) := by
  unfold probeDma
  split
  · refine .perform_bind (.neutral trivial) fun isrContext => ?_
    refine .perform_bind (.serve trivial) fun _ => ?_
    cases isrContext with
    | none => trivial
    | some q => exact .perform_bind (.neutral trivial) fun _ => follows_probeCharDevice dev p d
  · exact follows_probeCharDevice dev p d

theorem follows_probeIrq (d : DeviceDescriptor) :
    (probeIrq dev p d).Follows (stages dev) ProbeEnds (.building p) := by
  refine .perform_bind .number fun irq => .perform_bind .request fun (status : Int) => ?_
  change Prog.Follows _ _ (Stage.ofStatus p status) _
  by_cases hstatus : status = 0
  · subst hstatus
    refine .perform_bind (.serve trivial) fun _ => .perform_bind (.serve trivial) fun _ => ?_
    exact follows_probeDma dev p d
  · rw [Stage.ofStatus, if_neg hstatus]
    refine .perform_bind (.refuse trivial) fun _ => .perform_bind (.refuse trivial) fun _ => ?_
    rw [if_pos hstatus]
    exact probeEnds_of_ne hstatus (.inr ⟨p, .inr rfl⟩)

theorem follows_probeContext (table : List DeviceDescriptor) (device : Nat) :
    (probeContext table dev device p).Follows (stages dev) ProbeEnds (.allocated p) := by
  refine .perform_bind .enter fun _ => .perform_bind .name fun _ => ?_
  split
  · exact probeEnds_of_ne (by decide) (.inr ⟨p, .inl rfl⟩)
  · next d _ =>
      refine .perform_bind (.build trivial) fun _ => .bind (follows_probeBars dev p ?_ _)
      have hirq := follows_probeIrq dev p d
      exact .bind (.guarded ⟨.build trivial, fun _ => hirq⟩ hirq)

theorem follows_accesioPciDriverProbe (table : List DeviceDescriptor) (device : Nat) :
    (accesioPciDriverProbe table dev device).Follows (stages dev) ProbeEnds (.idle false) := by
  refine .perform_bind (.neutral trivial) fun status => ?_
  split
  · next hstatus => exact probeEnds_of_ne hstatus (.inl rfl)
  · refine .perform_bind (.neutral trivial) fun status => ?_
    split
    · next hstatus => exact probeEnds_of_ne hstatus (.inl rfl)
    · refine .perform_bind .kzalloc fun context => ?_
      cases context with
      | none => exact probeEnds_of_ne (by decide) (.inl rfl)
      | some p => exact follows_probeContext dev p table device

end Probe

section Remove

variable (dev : PciDev) (p : Ptr)

private theorem follows_removeBars {Q : Unit → Stage → Prop} (hQ : Q () (.silent p))
    (bars : List (Fin PCI_STD_NUM_BARS)) :
    (removeBars dev p bars).Follows (stages dev) Q (.silent p) := by
  induction bars with
  | nil => exact hQ
  | cons bar bars ih =>
      refine .bind (.perform_bind .look fun c => ?_)
      split
      · exact ⟨.unmap, fun _ => ih⟩
      · exact ih

def RemoveEnds (ending : Ending Unit) : Stage → Prop :=
  EndsTrue (Ending.bound (fun _ => false) ending)

theorem removeEnds_gone : RemoveEnds (.returned ()) .gone := .inr (.inl rfl)

theorem follows_accesioPciDriverRemove :
    (accesioPciDriverRemove (some dev)).Follows (stages dev) RemoveEnds (.idle true) := by
  refine .perform_bind .find fun context => ?_
  cases context with
  | none => exact removeEnds_gone
  | some p =>
      refine .perform_bind .load fun (c : Context) => ?_
      change Prog.Follows _ _ (Stage.loaded p c.pciDev) _
      split
      · trivial
      · next pci hpci =>
          rw [hpci]
          refine .perform_bind .line fun irq => .perform_bind .free fun _ => .bind ?_
          refine follows_removeBars dev p ?_ _
          refine .perform_bind (.neutral trivial) fun _ => ?_
          refine .perform_bind (.neutral trivial) fun charClass => ?_
          refine .perform_bind .look fun c => .perform_bind (.neutral trivial) fun _ => ?_
          exact .perform_bind .kfree fun _ => .perform_bind .forget fun _ => removeEnds_gone

end Remove

end Aiowdm.Proofs.IsrStages
