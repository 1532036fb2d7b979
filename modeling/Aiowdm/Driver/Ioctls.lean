import Aiowdm.Driver.DescriptorGet
import Aiowdm.Driver.InterruptStyles
import Aiowdm.Driver.RegisterIo

/-!
# The ioctls of a card

`accesio_char_driver_unlocked_ioctl` and the functions it dispatches to, load by load
and store by store.  The sections under `irq_lock` are not one step here, and
`wake_up_interruptible` is a call of its own.
-/

namespace Aiowdm.Driver.Ioctls

open Aiowdm.Lib Aiowdm.Driver.Bus Aiowdm.Driver.DeviceContext Aiowdm.Driver.RegisterIo
open Aiowdm.Driver.DescriptorGet (ioctlAccesioPciCardDescriptorGet)
open Aiowdm.Driver.IrqWait (EALREADY ECANCELED)
open Aiowdm.Driver.Probe (Ending)

/-! ## Command numbers -/

def ACCESIO_PCI_MAGIC : BitVec 8 := 0x0E

/-- `_IOC`: two bits of direction, fourteen of size, and eight each of type and number. -/
def ioc (dir : BitVec 2) (type nr : BitVec 8) (size : BitVec 14) : BitVec 32 :=
  dir ++ size ++ type ++ nr

def IOC_NONE : BitVec 2 := 0
def IOC_WRITE : BitVec 2 := 1
def IOC_READ : BitVec 2 := 2

/-- The size is that of a pointer, as the source gives the type of one. -/
def ACCESIO_PCI_CARD_DESCRIPTOR_GET : BitVec 32 := ioc IOC_READ ACCESIO_PCI_MAGIC 1 8

def ACCESIO_PCI_IRQ_ENABLE : BitVec 32 := ioc IOC_NONE ACCESIO_PCI_MAGIC 2 0
def ACCESIO_PCI_IRQ_DISABLE : BitVec 32 := ioc IOC_NONE ACCESIO_PCI_MAGIC 3 0
def ACCESIO_PCI_IRQ_WAIT : BitVec 32 := ioc IOC_NONE ACCESIO_PCI_MAGIC 4 0
def ACCESIO_PCI_IRQ_WAIT_CANCEL : BitVec 32 := ioc IOC_NONE ACCESIO_PCI_MAGIC 5 0
def ACCESIO_PCI_REGISTER_IO : BitVec 32 := ioc (IOC_READ ||| IOC_WRITE) ACCESIO_PCI_MAGIC 6 8

/-! ## Calls on the wait slot -/

/-- What WAIT and CANCEL do to the device context and to the scheduler. -/
inductive SlotCall where
  | spinLockIrqsave
  | spinUnlockIrqrestore
  | loadWaitingForIrq
  | storeWaitingForIrq (value : Int)
  | loadIrqCancelled
  | storeIrqCancelled (value : Int)
  | waitEventInterruptible
  | wakeUpInterruptible
deriving DecidableEq, Repr

def SlotCall.Reply : SlotCall → Type
  | .loadWaitingForIrq | .loadIrqCancelled | .waitEventInterruptible => Int
  | _ => Unit

def slot : Interface := ⟨SlotCall, SlotCall.Reply⟩

def spinLockIrqsave : Prog slot Unit := .perform (I := slot) .spinLockIrqsave
def spinUnlockIrqrestore : Prog slot Unit := .perform (I := slot) .spinUnlockIrqrestore
def loadWaitingForIrq : Prog slot Int := .perform (I := slot) .loadWaitingForIrq
def loadIrqCancelled : Prog slot Int := .perform (I := slot) .loadIrqCancelled
def waitEventInterruptible : Prog slot Int := .perform (I := slot) .waitEventInterruptible
def wakeUpInterruptible : Prog slot Unit := .perform (I := slot) .wakeUpInterruptible

def storeWaitingForIrq (value : Int) : Prog slot Unit :=
  .perform (I := slot) (.storeWaitingForIrq value)

def storeIrqCancelled (value : Int) : Prog slot Unit :=
  .perform (I := slot) (.storeIrqCancelled value)

/-! ## Waiting and cancelling -/

def ioctlAccesioPciIrqWait : Prog slot Int := do
  spinLockIrqsave
  if (← loadWaitingForIrq) = 1 then
    spinUnlockIrqrestore
    return -EALREADY
  storeWaitingForIrq 1
  storeIrqCancelled 0
  spinUnlockIrqrestore
  let _ ← waitEventInterruptible
  if (← loadIrqCancelled) = 1 then
    return -ECANCELED
  return 0

def ioctlAccesioPciIrqWaitCancel : Prog slot Int := do
  spinLockIrqsave
  if (← loadWaitingForIrq) = 0 then
    spinUnlockIrqrestore
    return -EALREADY
  storeIrqCancelled 1
  storeWaitingForIrq 0
  spinUnlockIrqrestore
  wakeUpInterruptible
  return 0

/-! ## The dispatch -/

/-- Accesses, copies of requests, copies of descriptors, and the wait slot. -/
abbrev ioctls : Interface := registerIo.sum (DescriptorGet.user.sum slot)

-- `starts` is `pci_resource_start`.
variable (pci : PciDev → PciResources) (starts : PciDev → Fin PCI_STD_NUM_BARS → BitVec 64)

/-- The functions for ENABLE and DISABLE are there, but not called. -/
def accesioCharDriverUnlockedIoctl (context : Context) (cmd : BitVec 32) :
    Prog ioctls (Ending Int) :=
  if cmd = ACCESIO_PCI_CARD_DESCRIPTOR_GET then
    (ioctlAccesioPciCardDescriptorGet pci starts context).inl.inr
  else if cmd = ACCESIO_PCI_IRQ_ENABLE then
    return .returned (-1)
  else if cmd = ACCESIO_PCI_IRQ_DISABLE then
    return .returned (-1)
  else if cmd = ACCESIO_PCI_IRQ_WAIT then do
    return .returned (← ioctlAccesioPciIrqWait.inr.inr)
  else if cmd = ACCESIO_PCI_IRQ_WAIT_CANCEL then do
    return .returned (← ioctlAccesioPciIrqWaitCancel.inr.inr)
  else if cmd = ACCESIO_PCI_REGISTER_IO then do
    return .returned (← (ioctlAccesioPciRegisterIo context).inl)
  else
    return .returned (-1)

end Aiowdm.Driver.Ioctls
