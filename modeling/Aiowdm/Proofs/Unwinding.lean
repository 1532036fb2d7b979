import Aiowdm.Proofs.ProbeStatus
import Aiowdm.Proofs.SetupCalls

/-!
# What a failed setup leaves behind

Neither probe nor init makes a single call that releases anything, on any path.
So each restores the kernel exactly where nothing had been acquired before it
failed, or where it does not fail.
-/

namespace Aiowdm.Proofs.Unwinding

open Aiowdm.Lib Aiowdm.Driver.DeviceContext Aiowdm.Driver.DeviceTable Aiowdm.Driver.Kernel
open Aiowdm.Driver.Probe Aiowdm.Proofs.ProbeStatus Aiowdm.Proofs.SetupCalls

/-! ## Setup only acquires -/

def Acquires : KernelCall → Prop
  | .pciReleaseRegions _ | .pciIounmap _ _ | .kfree _ | .freeIrq _ _ | .deviceDestroy _ _
  | .unregisterChrdevRegion _ _ | .classDestroy _ | .pciUnregisterDriver => False
  | _ => True

private theorem acquires_of_probeCall {dev : PciDev} {context : Ptr} {c : KernelCall}
    (h : ProbeCall dev context c) : Acquires c := by
  cases c <;> trivial

private theorem every_probeRegions (table : List DeviceDescriptor) (dev : PciDev) (device : Nat) :
    (probeRegions table dev device).Every Acquires := by
  refine .perform_bind trivial fun status => ?_
  split
  · trivial
  · refine .perform_bind trivial fun context => ?_
    cases context with
    | none => trivial
    | some context =>
        exact (every_probeContext dev context table device).mono fun _ => acquires_of_probeCall

private theorem acquires_of_initCall {c : KernelCall} (h : InitCall c) : Acquires c := by
  cases c <;> trivial

/-! ## What was acquired stays -/

variable (pci : PciDev → PciResources) (o : Outcomes)

private theorem held_le_acquireIf (ok : Prop) [Decidable ok] (r : Resource) (w : World) :
    w.ledger.held ≤ (w.acquireIf ok r).ledger.held := by
  unfold World.acquireIf
  split
  · exact Multiset.le_cons_self _ _
  · exact le_rfl

private theorem held_le_handler {c : KernelCall} (hc : Acquires c) (w : World) :
    w.ledger.held ≤ (handler pci o c w).2.ledger.held := by
  cases c <;> first | exact hc.elim | exact held_le_acquireIf _ _ w | skip
  case pciIomap dev bar =>
    change _ ≤ (w.mapBar dev (o.pciIomap bar)).ledger.held
    cases o.pciIomap bar with
    | none => exact le_rfl
    | some base => exact Multiset.le_cons_self _ _
  case kzalloc | kmalloc =>
    simp only [handler]
    split
    · exact Multiset.le_cons_self _ _
    · exact le_rfl
  all_goals exact le_rfl

variable {pci o}

private theorem held_le_of_every {α : Type} {p : Prog kernel α} (hp : p.Every Acquires)
    (w : World) :
    w.ledger.held ≤ (p.exec (handler pci o) w).2.ledger.held := by
  refine hp.exec_invariant (Q := fun v : World => w.ledger.held ≤ v.ledger.held) ?_ le_rfl
  intro c v hc hle
  exact hle.trans (held_le_handler pci o hc v)

private theorem ledger_ne_of_acquire {α : Type} {p : Prog kernel α} (hp : p.Every Acquires)
    (r : Resource) (w : World) : (p.exec (handler pci o) (w.acquire r)).2.ledger ≠ w.ledger := by
  intro heq
  have hle : (w.acquire r).ledger.held ≤ (p.exec (handler pci o) (w.acquire r)).2.ledger.held :=
    held_le_of_every hp (w.acquire r)
  rw [heq] at hle
  have hcard := Multiset.card_le_card hle
  simp only [World.acquire, Ledger.held_acquire, Multiset.card_cons] at hcard
  omega

/-! ## Restoring the kernel -/

/-- Where the program returns anything but 0, it leaves the ledger and the
`drvdata` of every card as they were. -/
def Restores (pci : PciDev → PciResources) (o : Outcomes) (p : Prog kernel (Ending Int))
    (w : World) : Prop :=
  ∀ status, (p.exec (handler pci o) w).1 = .returned status → status ≠ 0 →
    (p.exec (handler pci o) w).2.ledger = w.ledger ∧
      (p.exec (handler pci o) w).2.drvdata = w.drvdata

def Fails (ending : Ending Int) : Prop :=
  ∃ status, ending = .returned status ∧ status ≠ 0

/-- A program that has acquired something and releases nothing restores the
kernel only where it does not fail. -/
theorem restores_iff_of_acquire {p q : Prog kernel (Ending Int)} {r : Resource} {w : World}
    (hexec : p.exec (handler pci o) w = q.exec (handler pci o) (w.acquire r))
    (hq : q.Every Acquires) :
    Restores pci o p w ↔ ¬Fails (q.exec (handler pci o) (w.acquire r)).1 := by
  unfold Restores
  rw [hexec]
  constructor
  · rintro hrest ⟨status, hend, hne⟩
    exact ledger_ne_of_acquire hq r w (hrest status hend hne).1
  · intro hfails status hend hne
    exact absurd ⟨status, hend, hne⟩ hfails

/-- What makes probe return 0, once the card is enabled, or never return. -/
def Granted (o : Outcomes) (found : Option DeviceDescriptor) : Prop :=
  o.pciRequestRegions = 0 ∧ o.kzalloc ∧ ∃ d, found = some d ∧ o.requestIrq d.isr = 0

private theorem not_fails_dmaEnding (d : DeviceDescriptor) : ¬Fails (dmaEnding o d 0) := by
  rintro ⟨status, hend, hne⟩
  unfold dmaEnding at hend
  split at hend <;> simp_all

private theorem fails_regionsEnding_iff (found : Option DeviceDescriptor) :
    Fails (regionsEnding o found) ↔ ¬Granted o found := by
  unfold regionsEnding Granted
  by_cases hr : o.pciRequestRegions = 0
  · by_cases hk : o.kzalloc
    · cases found with
      | none => simp [hr, hk, Fails, contextEnding, EPERM]
      | some d =>
          by_cases hs : o.requestIrq d.isr = 0
          · simp [hr, hk, contextEnding, irqEnding, hs, not_fails_dmaEnding]
          · simp [hr, hk, Fails, contextEnding, irqEnding, hs]
    · simp [hr, hk, Fails, ENOMEM]
  · simp [hr, Fails]

theorem restores_probe_iff (table : List DeviceDescriptor) (dev : PciDev) (device : Nat)
    (w : World) :
    Restores pci o (accesioPciDriverProbe table dev device) w ↔
      o.pciEnableDevice ≠ 0 ∨ Granted o (lookupDescriptor table device) := by
  by_cases he : o.pciEnableDevice = 0
  · have hexec : (accesioPciDriverProbe table dev device).exec (handler pci o) w =
        (probeRegions table dev device).exec (handler pci o) (w.acquire (.enabled dev)) := by
      simp [accesioPciDriverProbe, he, World.acquireIf]
    rw [restores_iff_of_acquire hexec (every_probeRegions table dev device),
      ending_probeRegions, fails_regionsEnding_iff]
    simp [he]
  · refine iff_of_true ?_ (.inl he)
    intro status _ _
    simp [accesioPciDriverProbe, he, World.acquireIf]

/-! ## Loading the module -/

/-- What makes init return 0 once it holds a region of device numbers. -/
def Registered (o : Outcomes) : Prop :=
  o.classCreate.isOk ∧ o.pciRegisterDriver = 0

private theorem fails_initClass_iff (dev : DevT) (w : World) :
    Fails ((initClass dev).exec (handler pci o) w).1 ↔ ¬Registered o := by
  unfold Fails Registered
  by_cases hc : o.classCreate.isOk
  · by_cases hs : o.pciRegisterDriver = 0 <;> simp [initClass, hc, hs]
  · simp [initClass, hc]

private theorem restores_init_iff (table : List DeviceDescriptor) (ids : List Nat) (w : World) :
    Restores pci o (accesioPciInit table ids) w ↔
      tablesMatch table ids ≠ some true ∨ o.allocChrdevRegion.1 ≠ 0 ∨ Registered o := by
  cases hm : tablesMatch table ids with
  | none => simp [Restores, accesioPciInit, hm]
  | some ok =>
      cases ok with
      | false => simp [Restores, accesioPciInit, hm]
      | true =>
          by_cases ha : o.allocChrdevRegion.1 = 0
          · let dev := MKDEV (o.allocChrdevRegion.2.setWidth 32) 0
            have hexec : (accesioPciInit table ids).exec (handler pci o) w =
                (initClass dev).exec (handler pci o)
                  (w.acquire (.chrdevRegion dev MAX_CHAR_DEVICES)) := by
              simp [accesioPciInit, hm, ha, World.acquireIf, dev]
            have hacquires : (initClass dev).Every Acquires :=
              (every_initClass dev).mono fun _ => acquires_of_initCall
            rw [restores_iff_of_acquire hexec hacquires, fails_initClass_iff]
            simp [ha]
          · simp [Restores, accesioPciInit, hm, ha, World.acquireIf]

/-- Setup restores the kernel on failure exactly where nothing is acquired
before the call that fails, or where it does not fail. -/
theorem setup_restores_iff (pci : PciDev → PciResources) (o : Outcomes)
    (table : List DeviceDescriptor) (ids : List Nat) (dev : PciDev) (device : Nat) (w : World) :
    (Restores pci o (accesioPciDriverProbe table dev device) w ↔
      o.pciEnableDevice ≠ 0 ∨ Granted o (lookupDescriptor table device)) ∧
    (Restores pci o (accesioPciInit table ids) w ↔
      tablesMatch table ids ≠ some true ∨ o.allocChrdevRegion.1 ≠ 0 ∨ Registered o) :=
  ⟨restores_probe_iff table dev device w, restores_init_iff table ids w⟩

/-- `pci_request_regions` fails on an mPCIe-DIO-24S, which stays enabled. -/
theorem failed_probe_leaves_device_enabled :
    ¬∀ d ∈ accesioPciDeviceDescriptors, ∀ (pci : PciDev → PciResources) (o : Outcomes)
      (dev : PciDev) (w : World),
        Restores pci o (accesioPciDriverProbe accesioPciDeviceDescriptors dev d.pid) w := by
  intro hall
  have hrest := hall (withStyle 0x0100 "mpcie-dio-24s" .pcie2) (by decide) oneBar
    { allSucceed with pciRequestRegions := -16 } 1 .fresh
  rcases (restores_probe_iff _ _ _ _).mp hrest with he | ⟨hr, -⟩
  · exact he rfl
  · exact absurd hr (by decide)

end Aiowdm.Proofs.Unwinding
