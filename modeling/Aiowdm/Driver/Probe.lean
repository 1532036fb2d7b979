import Aiowdm.Driver.Kernel

/-!
# Loading, probing, removing and unloading

The four functions of `accesio_pci.c` that the kernel calls to load the module,
bind a card, unbind it and unload the module.  A long function is cut where its
resources change; each part is named after the function it belongs to.
-/

namespace Aiowdm.Driver.Probe

open Aiowdm.Lib Aiowdm.Driver.DeviceContext Aiowdm.Driver.DeviceTable Aiowdm.Driver.Kernel

def EPERM : Int := 1
def ENOMEM : Int := 12

def MAX_CHAR_DEVICES : BitVec 32 := 32

/-- How a function ends: it returns, or it does what C leaves undefined, as when
it uses a NULL pointer. -/
inductive Ending (α : Type) where
  | returned (a : α)
  | undefined
deriving DecidableEq, Repr

/-! ## Probe -/

/-- The loop that looks for the descriptor of a device id. -/
def lookupDescriptor (table : List DeviceDescriptor) (device : Nat) : Option DeviceDescriptor :=
  table.find? fun d => decide (device = d.pid)

/-- One turn of the loop over the BARs. -/
def probeBar (dev : PciDev) (context : Ptr) (bar : Fin PCI_STD_NUM_BARS) : Prog kernel Unit := do
  let flags ← pciResourceFlags dev bar
  .guarded (flags &&& ( IORESOURCE_IO ||| IORESOURCE_MEM) != 0) do
    let base ← pciIomap dev bar
    store context (.barBase bar base)
  let flags ← pciResourceFlags dev bar
  .guarded (flags &&& IORESOURCE_IO != 0) (store context (.defaultBar 1))

def probeBars (dev : PciDev) (context : Ptr) : List (Fin PCI_STD_NUM_BARS) → Prog kernel Unit
  | [] => pure ()
  | bar :: bars => do
      probeBar dev context bar
      probeBars dev context bars

/-- The device ids whose default BAR is 2 whatever their BARs are. -/
def defaultBarOverrides : List Nat :=
  [0xc2e8, 0xc2e9, 0xc2ea, 0x82e8, 0x82e9, 0x82ea, 0xc258, 0xc259, 0xc25a, 0x8258, 0x8259,
    0x825a, 0x1100, 0xc2ef]

/-- From the device number on.  The result of `cdev_add` is dropped, and when
`device_create` fails the status is still the one `request_irq` left. -/
def probeCharDevice (context : Ptr) (d : DeviceDescriptor) (status : Int) :
    Prog kernel (Ending Int) := do
  let major ← loadCharMajor
  let minor ← loadCharNextMinor
  store context (.dev (MKDEV major minor))
  store context .cdev
  let _ ← cdevAdd context (MKDEV major minor)
  let charClass ← loadCharClass
  let device ← deviceCreate charClass (MKDEV major minor) context ("accesio_pci/" ++ d.name)
  store context (.device device)
  if device.IsErr then
    return .returned status
  let next ← loadCharNextMinor
  storeCharNextMinor (next + 1)
  return .returned status

/-- The DMA context, whose pointer is used without a look at it. -/
def probeDma (context : Ptr) (d : DeviceDescriptor) (status : Int) :
    Prog kernel (Ending Int) := do
  if d.hasDma then
    let isrContext ← kmalloc
    store context (.isrContext isrContext)
    match isrContext with
    | none => return .undefined
    | some isrContext =>
        dmaLockInit isrContext
        probeCharDevice context d status
  else
    probeCharDevice context d status

def probeIrq (dev : PciDev) (context : Ptr) (d : DeviceDescriptor) :
    Prog kernel (Ending Int) := do
  let irq ← pciDevIrq dev
  let status ← requestIrq irq d.isr context
  store context .irqLock
  store context .waitQueue
  if status ≠ 0 then
    return .returned status
  probeDma context d status

def probeContext (table : List DeviceDescriptor) (dev : PciDev) (device : Nat) (context : Ptr) :
    Prog kernel (Ending Int) := do
  pciSetDrvdata dev (some context)
  store context (.pciDev dev)
  match lookupDescriptor table device with
  | none => return .returned (-EPERM)
  | some d =>
      store context (.descriptor d)
      probeBars dev context (List.finRange PCI_STD_NUM_BARS)
      .guarded (defaultBarOverrides.contains d.pid) (store context (.defaultBar 2))
      probeIrq dev context d

def probeRegions (table : List DeviceDescriptor) (dev : PciDev) (device : Nat) :
    Prog kernel (Ending Int) := do
  let status ← pciRequestRegions dev
  if status ≠ 0 then
    return .returned status
  match ← kzalloc with
  | none => return .returned (-ENOMEM)
  | some context => probeContext table dev device context

/-- All the labels the source jumps to on an error only return the status. -/
def accesioPciDriverProbe (table : List DeviceDescriptor) (dev : PciDev) (device : Nat) :
    Prog kernel (Ending Int) := do
  let status ← pciEnableDevice dev
  if status ≠ 0 then
    return .returned status
  probeRegions table dev device

/-! ## Remove -/

/-- One turn of the loop that unmaps what the context says is mapped. -/
def removeBar (dev : PciDev) (context : Ptr) (bar : Fin PCI_STD_NUM_BARS) : Prog kernel Unit := do
  let c ← load context
  match c.barBases bar with
  | some base => pciIounmap dev base
  | none => pure ()

def removeBars (dev : PciDev) (context : Ptr) : List (Fin PCI_STD_NUM_BARS) → Prog kernel Unit
  | [] => pure ()
  | bar :: bars => do
      removeBar dev context bar
      removeBars dev context bars

def removeContext (dev : PciDev) (context : Ptr) : Prog kernel (Ending Unit) := do
  let c ← load context
  match c.pciDev with
  | none => return .undefined
  | some pci =>
      let irq ← pciDevIrq pci
      freeIrq irq context
      removeBars dev context (List.finRange PCI_STD_NUM_BARS)
      pciReleaseRegions dev
      let charClass ← loadCharClass
      let c ← load context
      deviceDestroy charClass c.dev
      kfree context
      pciSetDrvdata dev none
      return .returned ()

def accesioPciDriverRemove (dev : Option PciDev) : Prog kernel (Ending Unit) := do
  match dev with
  | none => return .returned ()
  | some dev =>
      match ← pciGetDrvdata dev with
      | none => return .returned ()
      | some context => removeContext dev context

/-! ## Loading and unloading the module -/

/-- Whether the id table is the pids of the descriptors and a zero; `none` where
the check looks past the end of the id table. -/
def tablesMatch : List DeviceDescriptor → List Nat → Option Bool
  | [], [] => none
  | [], id :: _ => some (id = 0)
  | _ :: _, [] => none
  | d :: ds, id :: ids => if d.pid ≠ id then some false else tablesMatch ds ids

def initClass (dev : DevT) : Prog kernel (Ending Int) := do
  storeCharMajor (MAJOR dev)
  let charClass ← classCreate
  storeCharClass charClass
  if charClass.IsErr then
    return .returned (-1)
  let status ← pciRegisterDriver
  if status ≠ 0 then
    return .returned (-1)
  return .returned 0

def accesioPciInit (table : List DeviceDescriptor) (ids : List Nat) :
    Prog kernel (Ending Int) := do
  match tablesMatch table ids with
  | none => return .undefined
  | some false => return .returned (-1)
  | some true =>
      let (status, dev) ← allocChrdevRegion 0 MAX_CHAR_DEVICES
      if status ≠ 0 then
        return .returned (-1)
      initClass dev

def accesioPciExit : Prog kernel Unit := do
  pciUnregisterDriver
  let major ← loadCharMajor
  unregisterChrdevRegion (MKDEV major 0) MAX_CHAR_DEVICES
  let charClass ← loadCharClass
  classDestroy charClass
  storeCharClass .null

end Aiowdm.Driver.Probe
