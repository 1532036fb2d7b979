import Aiowdm.Driver.DeviceContext
import Aiowdm.Lib.Ledger
import Mathlib.Logic.Function.Basic

/-!
# The kernel the driver calls

The calls of probe, remove, init and exit, and what each does to the state of
the kernel: the ledger of held resources, `drvdata` of each card, the contexts
in memory and the module's own variables.  A call that can fail does so as an
`Outcomes` record says, and acquires its resource only when it succeeds.
-/

namespace Aiowdm.Driver.Kernel

open Aiowdm.Lib Aiowdm.Driver.DeviceContext Aiowdm.Driver.DeviceTable
open Aiowdm.Driver.InterruptStyles

/-! ## Calls -/

inductive KernelCall where
  | pciEnableDevice (dev : PciDev)
  | pciRequestRegions (dev : PciDev)
  | pciReleaseRegions (dev : PciDev)
  | pciSetDrvdata (dev : PciDev) (context : Option Ptr)
  | pciGetDrvdata (dev : PciDev)
  | pciResourceFlags (dev : PciDev) (bar : Fin PCI_STD_NUM_BARS)
  | pciDevIrq (dev : PciDev)
  | pciIomap (dev : PciDev) (bar : Fin PCI_STD_NUM_BARS)
  | pciIounmap (dev : PciDev) (base : Ptr)
  | kzalloc
  | kmalloc
  | kfree (context : Ptr)
  | load (context : Ptr)
  | store (context : Ptr) (field : Store)
  | dmaLockInit (isrContext : Ptr)
  | requestIrq (irq : Nat) (isr : Option Style) (context : Ptr)
  | freeIrq (irq : Nat) (context : Ptr)
  | cdevAdd (context : Ptr) (dev : DevT)
  | deviceCreate (charClass : ErrPtr) (dev : DevT) (context : Ptr) (name : String)
  | deviceDestroy (charClass : ErrPtr) (dev : DevT)
  | allocChrdevRegion (baseminor count : BitVec 32)
  | unregisterChrdevRegion (dev : DevT) (count : BitVec 32)
  | classCreate
  | classDestroy (charClass : ErrPtr)
  | pciRegisterDriver
  | pciUnregisterDriver
  | loadCharClass
  | storeCharClass (value : ErrPtr)
  | loadCharMajor
  | storeCharMajor (value : BitVec 32)
  | loadCharNextMinor
  | storeCharNextMinor (value : BitVec 32)

def KernelCall.Reply : KernelCall → Type
  | .pciEnableDevice _ | .pciRequestRegions _ | .requestIrq _ _ _ | .cdevAdd _ _
  | .pciRegisterDriver => Int
  | .pciGetDrvdata _ | .pciIomap _ _ | .kzalloc | .kmalloc => Option Ptr
  | .pciResourceFlags _ _ => BitVec 64
  | .pciDevIrq _ => Nat
  | .load _ => Context
  | .deviceCreate _ _ _ _ | .classCreate | .loadCharClass => ErrPtr
  | .allocChrdevRegion _ _ => Int × DevT
  | .loadCharMajor | .loadCharNextMinor => BitVec 32
  | _ => Unit

def kernel : Interface := ⟨KernelCall, KernelCall.Reply⟩

/-! ## What the calls do -/

inductive Resource where
  | enabled (dev : PciDev)
  | regions (dev : PciDev)
  | context (p : Ptr)
  | mapping (dev : PciDev) (base : Ptr)
  | irq (irq : Nat) (context : Ptr)
  | dmaContext (p : Ptr)
  | cdev (context : Ptr) (dev : DevT)
  | deviceNode (dev : DevT)
  | chrdevRegion (dev : DevT) (count : BitVec 32)
  | charClass (p : ErrPtr)
  | driver
deriving DecidableEq, Repr

def Resource.irqContext : Resource → Option Ptr
  | .irq _ p => some p
  | _ => none

def Resource.cdevContext : Resource → Option Ptr
  | .cdev p _ => some p
  | _ => none

structure World where
  ledger : Ledger Resource
  drvdata : PciDev → Option Ptr
  contexts : Ptr → Option Context
  nextPtr : Ptr
  charClass : ErrPtr
  charMajor : BitVec 32
  charNextMinor : BitVec 32

def World.fresh : World where
  ledger := .empty
  drvdata := fun _ => none
  contexts := fun _ => none
  nextPtr := 1
  charClass := .null
  charMajor := 0
  charNextMinor := 0

def World.acquire (r : Resource) (w : World) : World :=
  { w with ledger := w.ledger.acquire r }

def World.release (r : Resource) (w : World) : World :=
  { w with ledger := w.ledger.release r }

/-- What each call that can fail answers.  Majors are twelve bits wide. -/
structure Outcomes where
  pciEnableDevice : Int
  pciRequestRegions : Int
  pciIomap : Fin PCI_STD_NUM_BARS → Option Ptr
  kzalloc : Bool
  kmalloc : Bool
  requestIrq : Option Style → Int
  cdevAdd : Int
  deviceCreate : Except Int Ptr
  allocChrdevRegion : Int × BitVec 12
  classCreate : Except Int Ptr
  pciRegisterDriver : Int

def errPtr : Except Int Ptr → ErrPtr
  | .error e => .error e
  | .ok p => .ptr p

@[simp] theorem isErr_errPtr (r : Except Int Ptr) : (errPtr r).IsErr ↔ r.isOk = false := by
  cases r <;> simp [errPtr, ErrPtr.IsErr, Except.isOk, Except.toBool]

/-- Hold `r` if the call that acquires it succeeded. -/
def World.acquireIf (ok : Prop) [Decidable ok] (r : Resource) (w : World) : World :=
  if ok then w.acquire r else w

def World.mapBar (dev : PciDev) (base : Option Ptr) (w : World) : World :=
  match base with
  | some base => w.acquire (.mapping dev base)
  | none => w

/-- An allocation takes the next address, so no two objects share one. -/
def World.alloc (r : Ptr → Resource) (w : World) : World :=
  { w.acquire (r w.nextPtr) with nextPtr := w.nextPtr + 1 }

def World.kzalloc (w : World) : World :=
  { w.alloc .context with contexts := Function.update w.contexts w.nextPtr (some .zeroed) }

def World.kfree (context : Ptr) (w : World) : World :=
  { w.release (.context context) with contexts := Function.update w.contexts context none }

def World.setDrvdata (dev : PciDev) (context : Option Ptr) (w : World) : World :=
  { w with drvdata := Function.update w.drvdata dev context }

/-- What a load from freed memory returns is not specified; it plays no part in
any result. -/
def World.load (context : Ptr) (w : World) : Context :=
  (w.contexts context).getD .zeroed

def World.live (w : World) (context : Ptr) : Bool := (w.contexts context).isSome

def World.store (context : Ptr) (field : Store) (w : World) : World :=
  { w with
    contexts := Function.update w.contexts context ((w.contexts context).map (·.set field)) }

def World.setCharClass (value : ErrPtr) (w : World) : World := { w with charClass := value }
def World.setCharMajor (value : BitVec 32) (w : World) : World := { w with charMajor := value }

def World.setCharNextMinor (value : BitVec 32) (w : World) : World :=
  { w with charNextMinor := value }

/-- The kernel of a machine whose cards are `pci`. -/
def handler (pci : PciDev → PciResources) (o : Outcomes) : Handler kernel World
  | .pciEnableDevice dev, w =>
      (o.pciEnableDevice, w.acquireIf (o.pciEnableDevice = 0) (.enabled dev))
  | .pciRequestRegions dev, w =>
      (o.pciRequestRegions, w.acquireIf (o.pciRequestRegions = 0) (.regions dev))
  | .pciReleaseRegions dev, w => ((), w.release (.regions dev))
  | .pciSetDrvdata dev context, w => ((), w.setDrvdata dev context)
  | .pciGetDrvdata dev, w => (w.drvdata dev, w)
  | .pciResourceFlags dev bar, w => (((pci dev).bars bar).flags, w)
  | .pciDevIrq dev, w => ((pci dev).irq, w)
  | .pciIomap dev bar, w => (o.pciIomap bar, w.mapBar dev (o.pciIomap bar))
  | .pciIounmap dev base, w => ((), w.release (.mapping dev base))
  | .kzalloc, w => if o.kzalloc then (some w.nextPtr, w.kzalloc) else (none, w)
  | .kmalloc, w => if o.kmalloc then (some w.nextPtr, w.alloc .dmaContext) else (none, w)
  | .kfree context, w => ((), w.kfree context)
  | .load context, w => (w.load context, w)
  | .store context field, w => ((), w.store context field)
  | .dmaLockInit _, w => ((), w)
  | .requestIrq irq isr context, w =>
      (o.requestIrq isr, w.acquireIf (o.requestIrq isr = 0) (.irq irq context))
  | .freeIrq irq context, w => ((), w.release (.irq irq context))
  | .cdevAdd context dev, w => (o.cdevAdd, w.acquireIf (o.cdevAdd = 0) (.cdev context dev))
  | .deviceCreate _ dev _ _, w =>
      (errPtr o.deviceCreate, w.acquireIf o.deviceCreate.isOk (.deviceNode dev))
  | .deviceDestroy _ dev, w => ((), w.release (.deviceNode dev))
  | .allocChrdevRegion baseminor count, w =>
      let dev := MKDEV (o.allocChrdevRegion.2.setWidth 32) baseminor
      ((o.allocChrdevRegion.1, dev),
        w.acquireIf (o.allocChrdevRegion.1 = 0) (.chrdevRegion dev count))
  | .unregisterChrdevRegion dev count, w => ((), w.release (.chrdevRegion dev count))
  | .classCreate, w =>
      (errPtr o.classCreate,
        w.acquireIf o.classCreate.isOk (.charClass (errPtr o.classCreate)))
  | .classDestroy charClass, w => ((), w.release (.charClass charClass))
  | .pciRegisterDriver, w =>
      (o.pciRegisterDriver, w.acquireIf (o.pciRegisterDriver = 0) .driver)
  | .pciUnregisterDriver, w => ((), w.release .driver)
  | .loadCharClass, w => (w.charClass, w)
  | .storeCharClass value, w => ((), w.setCharClass value)
  | .loadCharMajor, w => (w.charMajor, w)
  | .storeCharMajor value, w => ((), w.setCharMajor value)
  | .loadCharNextMinor, w => (w.charNextMinor, w)
  | .storeCharNextMinor value, w => ((), w.setCharNextMinor value)

/-! ## The calls as programs -/

def pciEnableDevice (dev : PciDev) : Prog kernel Int :=
  .perform (I := kernel) (.pciEnableDevice dev)

def pciRequestRegions (dev : PciDev) : Prog kernel Int :=
  .perform (I := kernel) (.pciRequestRegions dev)

def pciReleaseRegions (dev : PciDev) : Prog kernel Unit :=
  .perform (I := kernel) (.pciReleaseRegions dev)

def pciSetDrvdata (dev : PciDev) (context : Option Ptr) : Prog kernel Unit :=
  .perform (I := kernel) (.pciSetDrvdata dev context)

def pciGetDrvdata (dev : PciDev) : Prog kernel (Option Ptr) :=
  .perform (I := kernel) (.pciGetDrvdata dev)

def pciResourceFlags (dev : PciDev) (bar : Fin PCI_STD_NUM_BARS) : Prog kernel (BitVec 64) :=
  .perform (I := kernel) (.pciResourceFlags dev bar)

def pciDevIrq (dev : PciDev) : Prog kernel Nat := .perform (I := kernel) (.pciDevIrq dev)

def pciIomap (dev : PciDev) (bar : Fin PCI_STD_NUM_BARS) : Prog kernel (Option Ptr) :=
  .perform (I := kernel) (.pciIomap dev bar)

def pciIounmap (dev : PciDev) (base : Ptr) : Prog kernel Unit :=
  .perform (I := kernel) (.pciIounmap dev base)

def kzalloc : Prog kernel (Option Ptr) := .perform (I := kernel) .kzalloc
def kmalloc : Prog kernel (Option Ptr) := .perform (I := kernel) .kmalloc
def kfree (context : Ptr) : Prog kernel Unit := .perform (I := kernel) (.kfree context)
def load (context : Ptr) : Prog kernel Context := .perform (I := kernel) (.load context)

def store (context : Ptr) (field : Store) : Prog kernel Unit :=
  .perform (I := kernel) (.store context field)

def dmaLockInit (isrContext : Ptr) : Prog kernel Unit :=
  .perform (I := kernel) (.dmaLockInit isrContext)

def requestIrq (irq : Nat) (isr : Option Style) (context : Ptr) : Prog kernel Int :=
  .perform (I := kernel) (.requestIrq irq isr context)

def freeIrq (irq : Nat) (context : Ptr) : Prog kernel Unit :=
  .perform (I := kernel) (.freeIrq irq context)

def cdevAdd (context : Ptr) (dev : DevT) : Prog kernel Int :=
  .perform (I := kernel) (.cdevAdd context dev)

def deviceCreate (charClass : ErrPtr) (dev : DevT) (context : Ptr) (name : String) :
    Prog kernel ErrPtr :=
  .perform (I := kernel) (.deviceCreate charClass dev context name)

def deviceDestroy (charClass : ErrPtr) (dev : DevT) : Prog kernel Unit :=
  .perform (I := kernel) (.deviceDestroy charClass dev)

def allocChrdevRegion (baseminor count : BitVec 32) : Prog kernel (Int × DevT) :=
  .perform (I := kernel) (.allocChrdevRegion baseminor count)

def unregisterChrdevRegion (dev : DevT) (count : BitVec 32) : Prog kernel Unit :=
  .perform (I := kernel) (.unregisterChrdevRegion dev count)

def classCreate : Prog kernel ErrPtr := .perform (I := kernel) .classCreate

def classDestroy (charClass : ErrPtr) : Prog kernel Unit :=
  .perform (I := kernel) (.classDestroy charClass)

def pciRegisterDriver : Prog kernel Int := .perform (I := kernel) .pciRegisterDriver
def pciUnregisterDriver : Prog kernel Unit := .perform (I := kernel) .pciUnregisterDriver
def loadCharClass : Prog kernel ErrPtr := .perform (I := kernel) .loadCharClass

def storeCharClass (value : ErrPtr) : Prog kernel Unit :=
  .perform (I := kernel) (.storeCharClass value)

def loadCharMajor : Prog kernel (BitVec 32) := .perform (I := kernel) .loadCharMajor

def storeCharMajor (value : BitVec 32) : Prog kernel Unit :=
  .perform (I := kernel) (.storeCharMajor value)

def loadCharNextMinor : Prog kernel (BitVec 32) := .perform (I := kernel) .loadCharNextMinor

def storeCharNextMinor (value : BitVec 32) : Prog kernel Unit :=
  .perform (I := kernel) (.storeCharNextMinor value)

section Running

variable (pci : PciDev → PciResources) (o : Outcomes) (w : World)

@[simp] theorem exec_pciEnableDevice (dev : PciDev) :
    (pciEnableDevice dev).exec (handler pci o) w =
      (o.pciEnableDevice, w.acquireIf (o.pciEnableDevice = 0) (.enabled dev)) := rfl

@[simp] theorem exec_pciRequestRegions (dev : PciDev) :
    (pciRequestRegions dev).exec (handler pci o) w =
      (o.pciRequestRegions, w.acquireIf (o.pciRequestRegions = 0) (.regions dev)) := rfl

@[simp] theorem exec_pciReleaseRegions (dev : PciDev) :
    (pciReleaseRegions dev).exec (handler pci o) w = ((), w.release (.regions dev)) := rfl

@[simp] theorem exec_pciSetDrvdata (dev : PciDev) (context : Option Ptr) :
    (pciSetDrvdata dev context).exec (handler pci o) w = ((), w.setDrvdata dev context) := rfl

@[simp] theorem exec_pciGetDrvdata (dev : PciDev) :
    (pciGetDrvdata dev).exec (handler pci o) w = (w.drvdata dev, w) := rfl

@[simp] theorem exec_pciResourceFlags (dev : PciDev) (bar : Fin PCI_STD_NUM_BARS) :
    (pciResourceFlags dev bar).exec (handler pci o) w = (((pci dev).bars bar).flags, w) := rfl

@[simp] theorem exec_pciDevIrq (dev : PciDev) :
    (pciDevIrq dev).exec (handler pci o) w = ((pci dev).irq, w) := rfl

@[simp] theorem exec_pciIomap (dev : PciDev) (bar : Fin PCI_STD_NUM_BARS) :
    (pciIomap dev bar).exec (handler pci o) w =
      (o.pciIomap bar, w.mapBar dev (o.pciIomap bar)) := rfl

@[simp] theorem exec_pciIounmap (dev : PciDev) (base : Ptr) :
    (pciIounmap dev base).exec (handler pci o) w = ((), w.release (.mapping dev base)) := rfl

@[simp] theorem exec_kzalloc :
    kzalloc.exec (handler pci o) w =
      if o.kzalloc then (some w.nextPtr, w.kzalloc) else (none, w) := rfl

@[simp] theorem exec_kmalloc :
    kmalloc.exec (handler pci o) w =
      if o.kmalloc then (some w.nextPtr, w.alloc .dmaContext) else (none, w) := rfl

@[simp] theorem exec_kfree (context : Ptr) :
    (kfree context).exec (handler pci o) w = ((), w.kfree context) := rfl

@[simp] theorem exec_load (context : Ptr) :
    (load context).exec (handler pci o) w = (w.load context, w) := rfl

@[simp] theorem exec_store (context : Ptr) (field : Store) :
    (store context field).exec (handler pci o) w = ((), w.store context field) := rfl

@[simp] theorem exec_dmaLockInit (isrContext : Ptr) :
    (dmaLockInit isrContext).exec (handler pci o) w = ((), w) := rfl

@[simp] theorem exec_requestIrq (irq : Nat) (isr : Option Style) (context : Ptr) :
    (requestIrq irq isr context).exec (handler pci o) w =
      (o.requestIrq isr, w.acquireIf (o.requestIrq isr = 0) (.irq irq context)) := rfl

@[simp] theorem exec_freeIrq (irq : Nat) (context : Ptr) :
    (freeIrq irq context).exec (handler pci o) w = ((), w.release (.irq irq context)) := rfl

@[simp] theorem exec_cdevAdd (context : Ptr) (dev : DevT) :
    (cdevAdd context dev).exec (handler pci o) w =
      (o.cdevAdd, w.acquireIf (o.cdevAdd = 0) (.cdev context dev)) := rfl

@[simp] theorem exec_deviceCreate (charClass : ErrPtr) (dev : DevT) (context : Ptr)
    (name : String) :
    (deviceCreate charClass dev context name).exec (handler pci o) w =
      (errPtr o.deviceCreate, w.acquireIf o.deviceCreate.isOk (.deviceNode dev)) := rfl

@[simp] theorem exec_deviceDestroy (charClass : ErrPtr) (dev : DevT) :
    (deviceDestroy charClass dev).exec (handler pci o) w = ((), w.release (.deviceNode dev)) := rfl

@[simp] theorem exec_allocChrdevRegion (baseminor count : BitVec 32) :
    (allocChrdevRegion baseminor count).exec (handler pci o) w =
      ((o.allocChrdevRegion.1, MKDEV (o.allocChrdevRegion.2.setWidth 32) baseminor),
        w.acquireIf (o.allocChrdevRegion.1 = 0)
          (.chrdevRegion (MKDEV (o.allocChrdevRegion.2.setWidth 32) baseminor) count)) := rfl

@[simp] theorem exec_unregisterChrdevRegion (dev : DevT) (count : BitVec 32) :
    (unregisterChrdevRegion dev count).exec (handler pci o) w =
      ((), w.release (.chrdevRegion dev count)) := rfl

@[simp] theorem exec_classCreate :
    classCreate.exec (handler pci o) w =
      (errPtr o.classCreate,
        w.acquireIf o.classCreate.isOk (.charClass (errPtr o.classCreate))) := rfl

@[simp] theorem exec_classDestroy (charClass : ErrPtr) :
    (classDestroy charClass).exec (handler pci o) w = ((), w.release (.charClass charClass)) := rfl

@[simp] theorem exec_pciRegisterDriver :
    pciRegisterDriver.exec (handler pci o) w =
      (o.pciRegisterDriver, w.acquireIf (o.pciRegisterDriver = 0) .driver) := rfl

@[simp] theorem exec_pciUnregisterDriver :
    pciUnregisterDriver.exec (handler pci o) w = ((), w.release .driver) := rfl

@[simp] theorem exec_loadCharClass : loadCharClass.exec (handler pci o) w = (w.charClass, w) := rfl

@[simp] theorem exec_storeCharClass (value : ErrPtr) :
    (storeCharClass value).exec (handler pci o) w = ((), w.setCharClass value) := rfl

@[simp] theorem exec_loadCharMajor : loadCharMajor.exec (handler pci o) w = (w.charMajor, w) := rfl

@[simp] theorem exec_storeCharMajor (value : BitVec 32) :
    (storeCharMajor value).exec (handler pci o) w = ((), w.setCharMajor value) := rfl

@[simp] theorem exec_loadCharNextMinor :
    loadCharNextMinor.exec (handler pci o) w = (w.charNextMinor, w) := rfl

@[simp] theorem exec_storeCharNextMinor (value : BitVec 32) :
    (storeCharNextMinor value).exec (handler pci o) w =
      ((), w.setCharNextMinor value) := rfl

end Running

end Aiowdm.Driver.Kernel
