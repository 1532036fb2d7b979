import Aiowdm.Library.Cards

/-!
# The library on several cards

The driver serves the library's calls on the file of each card, with the context
behind that file.  Its accesses are followed to the address they go to: a
pointer of the context and an offset, which the kernel's mapping takes to a card.
-/

namespace Aiowdm.Library.OnDriver

open Aiowdm.Lib Aiowdm.Driver.Bus Aiowdm.Driver.DeviceContext Aiowdm.Driver.RegisterIo
open Aiowdm.Driver
open Aiowdm.Driver.DescriptorGet (CardDescriptor ioctlAccesioPciCardDescriptorGet)
open Aiowdm.Library.Registers Aiowdm.Library.Cards

/-! ## Accesses by address -/

inductive IoCall where
  | ioread (w : Width) (address : Int)
  | iowrite (w : Width) (value : BitVec w.bits) (address : Int)
deriving DecidableEq, Repr

def IoCall.Reply : IoCall → Type
  | .ioread w _ => BitVec w.bits
  | .iowrite _ _ _ => Unit

def IoCall.address : IoCall → Int
  | .ioread _ address => address
  | .iowrite _ _ address => address

def io : Interface := ⟨IoCall, IoCall.Reply⟩

/-- What the cards are, and what the kernel keeps of them. -/
structure Host where
  pci : PciDev → PciResources
  /-- `pci_resource_start`. -/
  starts : PciDev → Fin PCI_STD_NUM_BARS → BitVec 64
  /-- The `private_data` of an open file. -/
  contexts : Int → Context
  /-- Where the array `bar_bases` of that context lies. -/
  contextAt : Int → Ptr
  /-- The card and the bus address behind an address that `pci_iomap` returned. -/
  ioremap : Int → Option (PciDev × Nat)

namespace Host

variable (host : Host) {σ τ : Type}

def addressOf (fd : Int) (addr : Addr) : Int :=
  match addr.base with
  | .bar i => (((host.contexts fd).barBases i).getD 0 : Nat) + addr.offset
  | .barBases => host.contextAt fd + addr.offset

def busOf (h : Handler io σ) (fd : Int) : Handler bus σ
  | .ioread w addr, s => h (.ioread w (host.addressOf fd addr)) s
  | .iowrite w value addr, s => h (.iowrite w value (host.addressOf fd addr)) s

/-- The driver, serving the register ioctl of every open file. -/
def registerFiles (h : Handler io σ) : Handler ioctls σ
  | .registerIo fd c, s => driver (host.busOf h fd) host.contexts (.registerIo fd c) s

/-- The memory of the program that a descriptor is copied to. -/
def descriptorBuffer (allocated : Bool) : Handler DescriptorGet.user CardDescriptor
  | .copyToUser d, old => if allocated then (true, d) else (false, old)

/-- The system `k`, with the driver serving the descriptor ioctl.  What `k` answers
there is what the allocated memory held before. -/
def descriptorFiles (k : Handler sys τ) : Handler sys τ
  | .openNode fname, t => k (.openNode fname) t
  | .malloc, t => k .malloc t
  | .cardDescriptorGet fd allocated, t =>
      let before := k (.cardDescriptorGet fd allocated) t
      let after := (ioctlAccesioPciCardDescriptorGet host.pci host.starts
        (host.contexts fd)).exec (descriptorBuffer allocated) before.1.2
      match after.1 with
      | .returned ret => ((ioctlStatus ret, after.2), before.2)
      | .undefined => ((-1, after.2), before.2)

end Host

end Aiowdm.Library.OnDriver
