import Aiowdm.Driver.Probe
import Aiowdm.Driver.RegisterIo

/-!
# Describing a card to a program

`ioctl_ACCESIO_PCI_CARD_DESCRIPTOR_GET`: it fills a descriptor from the context
and the resources of the card, and copies it to the program.
-/

namespace Aiowdm.Driver.DescriptorGet

open Aiowdm.Lib Aiowdm.Driver.DeviceContext Aiowdm.Driver.DeviceTable
open Aiowdm.Driver.Probe (Ending)
open Aiowdm.Driver.RegisterIo (eio)

/-- `struct accesio_pci_card_descriptor`. -/
structure CardDescriptor where
  deviceId : BitVec 16
  portBase : BitVec 64
  portSize : BitVec 64
  nameSize : BitVec 64
  name : String
  bars : Fin PCI_STD_NUM_BARS → BitVec 64

inductive UserCall where
  | copyToUser (descriptor : CardDescriptor)

/-- A copy that leaves bytes over answers `false`. -/
def UserCall.Reply : UserCall → Type
  | .copyToUser _ => Bool

def user : Interface := ⟨UserCall, UserCall.Reply⟩

def copyToUser (descriptor : CardDescriptor) : Prog user Bool :=
  .perform (I := user) (.copyToUser descriptor)

section

-- `starts` is `pci_resource_start`.
variable (pci : PciDev → PciResources) (starts : PciDev → Fin PCI_STD_NUM_BARS → BitVec 64)

/-- The descriptor of a card of the model `d`. -/
def describe (context : Context) (d : DeviceDescriptor) (dev : PciDev) : CardDescriptor where
  deviceId := BitVec.ofNat 16 d.pid
  portBase := starts dev context.defaultBar
  portSize := BitVec.ofNat 64 ((pci dev).bars context.defaultBar).len
  nameSize := BitVec.ofNat 64 d.name.utf8ByteSize
  name := d.name
  bars := starts dev

/-- The member `name` has 64 bytes, one of them for the end of the string. -/
def ioctlAccesioPciCardDescriptorGet (context : Context) : Prog user (Ending Int) := do
  match context.descriptor, context.pciDev with
  | some d, some dev =>
      if 64 ≤ d.name.utf8ByteSize then
        return .undefined
      if ← copyToUser (describe pci starts context d dev) then
        return .returned 0
      else
        return .returned (-eio)
  | _, _ => return .undefined

end

end Aiowdm.Driver.DescriptorGet
