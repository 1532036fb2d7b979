import Aiowdm.Driver.DeviceTable
import Aiowdm.Driver.IrqWait

/-!
# Device contexts

`struct accesio_pci_device_context`, the memory it lives in, and what the
kernel knows of a card before any driver is bound to it.
-/

namespace Aiowdm.Driver.DeviceContext

open Aiowdm.Driver.DeviceTable Aiowdm.Driver.IrqWait

/-- A card, as the PCI core names it. -/
abbrev PciDev := Nat

/-- A pointer that is not NULL; where NULL is possible the type is `Option Ptr`. -/
abbrev Ptr := Nat

/-- A pointer as the functions that return `ERR_PTR` leave it. -/
inductive ErrPtr where
  | null
  | error (e : Int)
  | ptr (p : Ptr)
deriving DecidableEq, Repr

def ErrPtr.IsErr : ErrPtr → Prop
  | .error _ => True
  | _ => False

instance : DecidablePred ErrPtr.IsErr
  | .error _ => isTrue trivial
  | .null | .ptr _ => isFalse id

abbrev DevT := BitVec 32

def MKDEV (major minor : BitVec 32) : DevT := major <<< 20 ||| minor
def MAJOR (dev : DevT) : BitVec 32 := dev >>> 20
def MINOR (dev : DevT) : BitVec 32 := dev &&& 0xfffff

abbrev PCI_STD_NUM_BARS : Nat := 6

instance : @NeZero Nat Zero.ofOfNat0 PCI_STD_NUM_BARS := ⟨Nat.succ_ne_zero 5⟩

def IORESOURCE_IO : BitVec 64 := 0x100
def IORESOURCE_MEM : BitVec 64 := 0x200

/-- One base address register: `pci_resource_flags` and `pci_resource_len`. -/
structure BarResource where
  flags : BitVec 64
  len : Nat
deriving DecidableEq, Repr

def BarResource.unimplemented : BarResource := ⟨0, 0⟩
def BarResource.io (len : Nat) : BarResource := ⟨ IORESOURCE_IO, len⟩
def BarResource.mem (len : Nat) : BarResource := ⟨IORESOURCE_MEM, len⟩

/-- The test the mapping loop of probe makes. -/
def BarResource.implemented (r : BarResource) : Bool :=
  r.flags &&& ( IORESOURCE_IO ||| IORESOURCE_MEM) != 0

/-- The test for an I/O BAR. -/
def BarResource.isIo (r : BarResource) : Bool := r.flags &&& IORESOURCE_IO != 0

/-- What `struct pci_dev` holds of a card. -/
structure PciResources where
  irq : Nat
  bars : Fin PCI_STD_NUM_BARS → BarResource

/-- `union accesio_pci_isr_context` is only ever allocated, and the pointer
`accesio_pci_isr_context` never used. -/
structure Context where
  descriptor : Option DeviceDescriptor
  isrContext : Option Ptr
  pciDev : Option PciDev
  cdevInitialized : Bool
  device : ErrPtr
  dev : DevT
  defaultBar : Fin PCI_STD_NUM_BARS
  barBases : Fin PCI_STD_NUM_BARS → Option Ptr
  irqLockInitialized : Bool
  waitQueueInitialized : Bool
  flags : WaitFlags

def Context.zeroed : Context where
  descriptor := none
  isrContext := none
  pciDev := none
  cdevInitialized := false
  device := .null
  dev := 0
  defaultBar := 0
  barBases := fun _ => none
  irqLockInitialized := false
  waitQueueInitialized := false
  flags := .zeroed

inductive Store where
  | pciDev (dev : PciDev)
  | descriptor (d : DeviceDescriptor)
  | barBase (bar : Fin PCI_STD_NUM_BARS) (base : Option Ptr)
  | defaultBar (bar : Fin PCI_STD_NUM_BARS)
  | irqLock
  | waitQueue
  | isrContext (isrContext : Option Ptr)
  | dev (dev : DevT)
  | cdev
  | device (device : ErrPtr)
  | flags (flags : WaitFlags)

def Context.set (c : Context) : Store → Context
  | .pciDev pci => { c with pciDev := some pci }
  | .descriptor d => { c with descriptor := some d }
  | .barBase bar base => { c with barBases := Function.update c.barBases bar base }
  | .defaultBar bar => { c with defaultBar := bar }
  | .irqLock => { c with irqLockInitialized := true }
  | .waitQueue => { c with waitQueueInitialized := true }
  | .isrContext ptr => { c with isrContext := ptr }
  | .dev number => { c with dev := number }
  | .cdev => { c with cdevInitialized := true }
  | .device result => { c with device := result }
  | .flags flags => { c with flags }

end Aiowdm.Driver.DeviceContext
