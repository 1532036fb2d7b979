import Aiowdm.Driver.DescriptorBytes
import Aiowdm.Proofs.RegisterBounds

/-!
# What a descriptor reveals

The ioctl copies the local variable whole.  Its members are set, but neither the
padding nor the bytes of the name after the terminator, so these are what was on the
stack.
-/

namespace Aiowdm.Proofs.DescriptorLeak

open Aiowdm.Lib Aiowdm.Driver.DeviceContext Aiowdm.Driver.DeviceTable
open Aiowdm.Driver.DescriptorGet Aiowdm.Driver.DescriptorBytes
open Aiowdm.Driver.RequestBytes (Memories)
open Aiowdm.Proofs.RegisterBounds (ioBar)

variable (pci : PciDev → PciResources) (starts : PciDev → Fin PCI_STD_NUM_BARS → BitVec 64)
variable (context : Context) (a : Nat) (m : Memories)

/-- The program's memory after the ioctl, from the address it gave on. -/
def copied : Bytes := fun i =>
  ((ioctlAccesioPciCardDescriptorGet pci starts context).exec (copies a) m).2.user (a + i)

/-- Two contents of the stack are copied as the same bytes. -/
def SameCopy (user frame frame' : Bytes) : Prop :=
  ∀ i < DESCRIPTOR_SIZE, copied pci starts context a ⟨user, frame⟩ i =
    copied pci starts context a ⟨user, frame'⟩ i

variable {context} {d : DeviceDescriptor} {dev : PciDev}

private theorem exec_ioctl (hd : context.descriptor = some d) (hdev : context.pciDev = some dev)
    (hname : d.name.utf8ByteSize < 64) :
    (ioctlAccesioPciCardDescriptorGet pci starts context).exec (copies a) m =
      (.returned 0, (copies a (.copyToUser (describe pci starts context d dev)) m).2) := by
  simp only [ioctlAccesioPciCardDescriptorGet, hd, hdev, if_neg (Nat.not_le.mpr hname)]
  rfl

theorem copied_eq (hd : context.descriptor = some d) (hdev : context.pciDev = some dev)
    (hname : d.name.utf8ByteSize < 64) {i : Nat} (hi : i < DESCRIPTOR_SIZE) :
    copied pci starts context a m i =
      fillDescriptor (describe pci starts context d dev) m.frame 0 i := by
  have hcopy := Bytes.sameBytes_copy (fillDescriptor (describe pci starts context d dev) m.frame 0)
    0 m.user a DESCRIPTOR_SIZE i hi
  rw [copied, exec_ioctl pci starts a m hd hdev hname]
  rwa [Nat.zero_add] at hcopy

private theorem holdsDescriptor_ioctl (hd : context.descriptor = some d)
    (hdev : context.pciDev = some dev) (hname : d.name.utf8ByteSize < 64) :
    HoldsDescriptor (copied pci starts context a m) 0 (describe pci starts context d dev) := by
  have hlen : (cBytes d.name).length < 64 := (length_cBytes_le d.name).trans_lt hname
  refine (holdsDescriptor_fillDescriptor hlen m.frame 0).of_sameBytes fun i hi => ?_
  rw [Nat.zero_add]
  exact copied_eq pci starts a m hd hdev hname hi

theorem sameCopy_iff (hd : context.descriptor = some d) (hdev : context.pciDev = some dev)
    (hname : d.name.utf8ByteSize < 64) (user frame frame' : Bytes) :
    SameCopy pci starts context a user frame frame' ↔
      ∀ i < DESCRIPTOR_SIZE, ¬IsSet d.name 0 i → frame i = frame' i := by
  refine forall₂_congr fun i hi => ?_
  rw [copied_eq pci starts a _ hd hdev hname hi, copied_eq pci starts a _ hd hdev hname hi]
  exact (sets_fillDescriptor (describe pci starts context d dev) 0).agree_iff frame frame' i

/-- For every card with a name that fits: the program gets the descriptor, and two
contents of the stack give the same bytes exactly where they agree in the padding and in
the name behind its terminator, so never whatever they are. -/
theorem stack_revealed (pci : PciDev → PciResources)
    (starts : PciDev → Fin PCI_STD_NUM_BARS → BitVec 64) (context : Context)
    (d : DeviceDescriptor) (dev : PciDev) (hd : context.descriptor = some d)
    (hdev : context.pciDev = some dev) (hname : d.name.utf8ByteSize < 64) (a : Nat)
    (user : Bytes) :
    (∀ frame, HoldsDescriptor (copied pci starts context a ⟨user, frame⟩) 0
      (describe pci starts context d dev)) ∧
    (∀ frame frame', SameCopy pci starts context a user frame frame' ↔
      ∀ i < DESCRIPTOR_SIZE, ¬IsSet d.name 0 i → frame i = frame' i) ∧
    ¬∀ frame frame', SameCopy pci starts context a user frame frame' := by
  refine ⟨fun frame => holdsDescriptor_ioctl pci starts a ⟨user, frame⟩ hd hdev hname,
    sameCopy_iff pci starts a hd hdev hname user, fun hall => ?_⟩
  have hpadding : ¬IsSet d.name 0 2 := by
    simp only [IsSet, BARS_OFFSET]
    omega
  have hsame := (sameCopy_iff pci starts a hd hdev hname user _ _).mp
    (hall (fun _ => 0) fun _ => 1) 2 (by decide) hpadding
  exact absurd hsame (by decide)

/-! ## One card -/

def dioContext : Context :=
  { Context.zeroed with
    descriptor := some (withStyle 0x0c52 "pcie-dio-24" .pcie7)
    pciDev := some 1
    defaultBar := 1 }

theorem stack_revealed_pcieDio24 :
    (∀ frame, HoldsDescriptor
      (copied ioBar (fun _ _ => 0xd000) dioContext 0 ⟨fun _ => 0, frame⟩) 0
        (describe ioBar (fun _ _ => 0xd000) dioContext
          (withStyle 0x0c52 "pcie-dio-24" .pcie7) 1)) ∧
    (∀ frame frame',
      SameCopy ioBar (fun _ _ => 0xd000) dioContext 0 (fun _ => 0) frame frame' ↔
        ∀ i < DESCRIPTOR_SIZE, ¬IsSet "pcie-dio-24" 0 i → frame i = frame' i) ∧
    ¬∀ frame frame',
      SameCopy ioBar (fun _ _ => 0xd000) dioContext 0 (fun _ => 0) frame frame' :=
  stack_revealed ioBar (fun _ _ => 0xd000) dioContext (withStyle 0x0c52 "pcie-dio-24" .pcie7) 1
    rfl rfl (by decide) 0 fun _ => 0

/-- The last byte of the name of a "pcie-dio-24" is what was on the stack. -/
theorem name_tail_revealed :
    ¬∀ (pci : PciDev → PciResources) (starts : PciDev → Fin PCI_STD_NUM_BARS → BitVec 64)
      (context : Context) (d : DeviceDescriptor) (dev : PciDev),
      context.descriptor = some d → context.pciDev = some dev → d.name.utf8ByteSize < 64 →
        ∀ (a : Nat) (user frame frame' : Bytes),
          SameCopy pci starts context a user frame frame' := by
  intro hall
  have hname : (withStyle 0x0c52 "pcie-dio-24" .pcie7).name.utf8ByteSize < 64 := by decide
  have hsame := hall ioBar (fun _ _ => 0xd000) dioContext _ 1 rfl rfl hname 0 (fun _ => 0)
    (fun _ => 0) (fun _ => 1)
  have htail := (sameCopy_iff ioBar _ 0 rfl rfl hname _ _ _).mp hsame 95 (by decide) (by decide)
  exact absurd htail (by decide)

end Aiowdm.Proofs.DescriptorLeak
