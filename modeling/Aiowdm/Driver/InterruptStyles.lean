import Aiowdm.Driver.Bus
import Aiowdm.Driver.IrqWait

/-!
# Interrupt styles

The enable, disable and interrupt functions of `accesio_pci.c`.  Enable and
disable only access registers; an interrupt function may also enter the section
under `irq_lock` that notifies a waiter.
-/

namespace Aiowdm.Driver.InterruptStyles

open Aiowdm.Lib Aiowdm.Driver.Bus

inductive IrqReturn where
  | none
  | handled
deriving DecidableEq, Repr

/-! ## Notifying a waiter -/

/-- What the `accesio_notify_user` section does to the device context. -/
inductive ContextCall where
  | spinLock
  | spinUnlock
  | loadWaitingForIrq
  | storeWaitingForIrq (value : Int)
  | wakeUpInterruptible
deriving DecidableEq, Repr

def ContextCall.Reply : ContextCall → Type
  | .loadWaitingForIrq => Int
  | _ => Unit

def context : Interface := ⟨ContextCall, ContextCall.Reply⟩

def spinLock : Prog context Unit := .perform (I := context) .spinLock
def spinUnlock : Prog context Unit := .perform (I := context) .spinUnlock
def loadWaitingForIrq : Prog context Int := .perform (I := context) .loadWaitingForIrq
def wakeUpInterruptible : Prog context Unit := .perform (I := context) .wakeUpInterruptible

def storeWaitingForIrq (value : Int) : Prog context Unit :=
  .perform (I := context) (.storeWaitingForIrq value)

section Running

variable {σ : Type} (h : Handler context σ) (s : σ)

@[simp] theorem exec_spinLock : spinLock.exec h s = h ContextCall.spinLock s := rfl
@[simp] theorem exec_spinUnlock : spinUnlock.exec h s = h ContextCall.spinUnlock s := rfl

@[simp] theorem exec_loadWaitingForIrq :
    loadWaitingForIrq.exec h s = h ContextCall.loadWaitingForIrq s := rfl

@[simp] theorem exec_storeWaitingForIrq (value : Int) :
    (storeWaitingForIrq value).exec h s = h (ContextCall.storeWaitingForIrq value) s := rfl

@[simp] theorem exec_wakeUpInterruptible :
    wakeUpInterruptible.exec h s = h ContextCall.wakeUpInterruptible s := rfl

end Running

def accesioNotifyUser : Prog context Unit := do
  spinLock
  let waiting ← loadWaitingForIrq
  if waiting ≠ 0 then
    storeWaitingForIrq 0
    spinUnlock
    wakeUpInterruptible
  else
    spinUnlock

/-- The calls of an interrupt function. -/
abbrev isr : Interface := bus.sum context

/-! ## Leaving when the card has no interrupt latched -/

/-- A status register and the bit of it that tells of a latched interrupt. -/
structure Latch where
  addr : Addr
  mask : BitVec 8
deriving DecidableEq, Repr

/-- Read the latch, leave when its bit is clear, else acknowledge. -/
def leaveIfNotLatched (latch : Latch) (acknowledge : Prog bus Unit) : Prog isr IrqReturn := do
  let byte ← (ioread8 latch.addr).inl
  if byte &&& latch.mask = 0 then
    return .none
  acknowledge.inl
  return .handled

theorem every_leaveIfNotLatched {P : isr.Call → Prop} {latch : Latch} {acknowledge : Prog bus Unit}
    (hread : P (.inl (.ioread .byte latch.addr))) (hack : Prog.Every P acknowledge.inl) :
    Prog.Every P (leaveIfNotLatched latch acknowledge) := by
  refine ⟨hread, fun byte : BitVec 8 => ?_⟩
  change Prog.Every P (if byte &&& latch.mask = 0 then pure IrqReturn.none else _)
  by_cases hbyte : byte &&& latch.mask = 0
  · rw [if_pos hbyte]
    trivial
  · rw [if_neg hbyte]
    exact hack.bind fun _ => trivial

def pciLatch : Latch := ⟨bar 0 0x4c, 0x04⟩
def pcieLatch : Latch := ⟨bar 1 0x69, 0x80⟩

def accesioLeaveIfNotLatchedPci : Prog bus Unit → Prog isr IrqReturn :=
  leaveIfNotLatched pciLatch

def accesioLeaveIfNotLatchedPcie : Prog bus Unit → Prog isr IrqReturn :=
  leaveIfNotLatched pcieLatch

/-! ## PCI styles -/

def enablePciStyle1 : Prog bus Unit := iowrite8 0x02 (bar 2 0x13)
def disablePciStyle1 : Prog bus Unit := iowrite8 0x00 (bar 2 0x13)
def interruptPciStyle1 : Prog isr IrqReturn := accesioLeaveIfNotLatchedPci (pure ())

def enablePciStyle2 : Prog bus Unit := iowrite8 0 (bar 2 (-0x1f))
def disablePciStyle2 : Prog bus Unit := iowrite8 0 (bar 2 0x1e)

def interruptPciStyle2 : Prog isr IrqReturn := accesioLeaveIfNotLatchedPci do
  disablePciStyle2
  enablePciStyle2

/-- A read for its side effect, the value dropped. -/
def touch8 (addr : Addr) : Prog bus Unit := do
  let _ ← ioread8 addr

def enablePciStyle3 : Prog bus Unit := touch8 (bar 2 0x01)
def disablePciStyle3 : Prog bus Unit := iowrite8 0 (bar 2 0x02)

def interruptPciStyle3 : Prog isr IrqReturn := accesioLeaveIfNotLatchedPci do
  disablePciStyle3
  enablePciStyle3

def enablePciStyle4 : Prog bus Unit := touch8 (bar 2 0x03)
def disablePciStyle4 : Prog bus Unit := touch8 (bar 2 0x04)

def interruptPciStyle4 : Prog isr IrqReturn :=
  accesioLeaveIfNotLatchedPci (touch8 (bar 2 0x0c))

def enablePciStyle5 : Prog bus Unit := iowrite8 0x80 (bar 2 0x07)
def disablePciStyle5 : Prog bus Unit := iowrite8 0x00 (bar 2 0x07)

def interruptPciStyle5 : Prog isr IrqReturn :=
  accesioLeaveIfNotLatchedPci (touch8 (bar 2 0x07))

def enablePciStyle6 : Prog bus Unit := iowrite8 0x81 (bar 2 0x04)
def disablePciStyle6 : Prog bus Unit := touch8 (bar 2 0x09)

def interruptPciStyle6 : Prog isr IrqReturn := accesioLeaveIfNotLatchedPci do
  disablePciStyle6
  enablePciStyle6

def enablePciStyle7 : Prog bus Unit := touch8 (bar 2 0x04)
def disablePciStyle7 : Prog bus Unit := disablePciStyle6

def interruptPciStyle7 : Prog isr IrqReturn := accesioLeaveIfNotLatchedPci do
  disablePciStyle7
  enablePciStyle7

def enablePciStyle8 : Prog bus Unit := iowrite8 0x00 (bar 2 0x0b)
def disablePciStyle8 : Prog bus Unit := pure ()

def interruptPciStyle8 : Prog isr IrqReturn :=
  accesioLeaveIfNotLatchedPci (iowrite8 0x0 (bar 2 0x0f))

def enablePciStyle9 : Prog bus Unit := iowrite8 0x10 (bar 2 0x0c)
def disablePciStyle9 : Prog bus Unit := iowrite8 0x00 (bar 2 0x0d)

def interruptPciStyle9 : Prog isr IrqReturn :=
  accesioLeaveIfNotLatchedPci (iowrite8 0x00 (bar 2 0x0f))

def enablePciStyle10 : Prog bus Unit := iowrite8 0x00 (bar 2 0x0e)
def disablePciStyle10 : Prog bus Unit := iowrite8 0x00 (bar 2 0x0d)

def interruptPciStyle10 : Prog isr IrqReturn :=
  accesioLeaveIfNotLatchedPci (iowrite8 0x00 (bar 2 0x0f))

def enablePciStyle12 : Prog bus Unit := pure ()
def disablePciStyle12 : Prog bus Unit := pure ()

def interruptPciStyle12 : Prog isr IrqReturn :=
  accesioLeaveIfNotLatchedPci (touch8 (bar 2 0x04))

def enablePciStyle13 : Prog bus Unit := pure ()
def disablePciStyle13 : Prog bus Unit := pure ()

def interruptPciStyle13 : Prog isr IrqReturn :=
  accesioLeaveIfNotLatchedPci (iowrite8 0x00 (bar 2 0x7f))

/-! ## PCI Express styles -/

def enablePcieStyle1 : Prog bus Unit := iowrite8 0x00 (bar 2 0x1f)
def disablePcieStyle1 : Prog bus Unit := iowrite8 0x00 (bar 2 0x1e)

def interruptPcieStyle1 : Prog isr IrqReturn := accesioLeaveIfNotLatchedPcie do
  disablePcieStyle1
  enablePcieStyle1

def enablePcieStyle2 : Prog bus Unit := iowrite8 0xff (bar 2 0x28)
def disablePcieStyle2 : Prog bus Unit := iowrite8 0x00 (bar 2 0x28)

def interruptPcieStyle2 : Prog isr IrqReturn :=
  accesioLeaveIfNotLatchedPcie (iowrite8 0xff (bar 2 0x29))

def enablePcieStyle3 : Prog bus Unit := touch8 (bar 2 0x02)

/-- The source adds the offset to the array and not to its entry 2. -/
def disablePcieStyle3 : Prog bus Unit := iowrite8 0x00 (barBases 0x02)

def interruptPcieStyle3 : Prog isr IrqReturn :=
  accesioLeaveIfNotLatchedPcie (iowrite8 0x0 (bar 2 0x01))

def enablePcieStyle4 : Prog bus Unit := iowrite8 0x0 (bar 2 0x0b)
def disablePcieStyle4 : Prog bus Unit := iowrite8 0xff (bar 2 0x0b)

def interruptPcieStyle4 : Prog isr IrqReturn :=
  accesioLeaveIfNotLatchedPcie (iowrite8 0x00 (bar 2 0x0f))

def enablePcieStyle5 : Prog bus Unit := enablePcieStyle4
def disablePcieStyle5 : Prog bus Unit := touch8 (bar 2 0x0b)
def interruptPcieStyle5 : Prog isr IrqReturn := interruptPcieStyle4

def enablePcieStyle6 : Prog bus Unit := iowrite8 0xff (bar 2 0x0e)
def disablePcieStyle6 : Prog bus Unit := iowrite8 0x00 (bar 2 0x0e)

def interruptPcieStyle6 : Prog isr IrqReturn :=
  accesioLeaveIfNotLatchedPcie (iowrite32 0xffffffff (bar 2 0x08))

def enablePcieStyle7 : Prog bus Unit := iowrite8 0x03 (bar 2 0x0e)
def disablePcieStyle7 : Prog bus Unit := disablePcieStyle6

def interruptPcieStyle7 : Prog isr IrqReturn :=
  accesioLeaveIfNotLatchedPcie (iowrite8 0x00 (bar 2 0x0f))

def enablePcieStyle8 : Prog bus Unit := touch8 (bar 2 0x03)
def disablePcieStyle8 : Prog bus Unit := touch8 (bar 2 0x04)

def interruptPcieStyle8 : Prog isr IrqReturn :=
  accesioLeaveIfNotLatchedPcie (touch8 (bar 2 0x0c))

/-! ## The ADIO16F style -/

def enableAdio16fStyle : Prog bus Unit := pure ()
def disableAdio16fStyle : Prog bus Unit := pure ()

/-- All the bits that can indicate an irq occurred. -/
def ADIO16F_INTERRUPT_MASK : BitVec 32 := 0x81FF0000

def interruptAdio16fStyle : Prog isr IrqReturn := do
  let irqStatus ← (ioread32 (bar 2 0x40)).inl
  if irqStatus &&& ADIO16F_INTERRUPT_MASK = 0 then
    return .none
  (iowrite32 (irqStatus &&& ADIO16F_INTERRUPT_MASK) (bar 2 0x40)).inl
  accesioNotifyUser.inr
  return .handled

theorem every_interruptAdio16fStyle {P : isr.Call → Prop}
    (hread : P (.inl (.ioread .dword (bar 2 0x40))))
    (hwrite : ∀ v, P (.inl (.iowrite .dword v (bar 2 0x40)))) (hcontext : ∀ call, P (.inr call)) :
    interruptAdio16fStyle.Every P := by
  refine ⟨hread, fun irqStatus : BitVec 32 => ?_⟩
  change Prog.Every P (if irqStatus &&& ADIO16F_INTERRUPT_MASK = 0 then pure IrqReturn.none else _)
  by_cases hstatus : irqStatus &&& ADIO16F_INTERRUPT_MASK = 0
  · rw [if_pos hstatus]
    trivial
  · rw [if_neg hstatus]
    refine ⟨hwrite _, fun _ => ?_⟩
    exact (Prog.Every.inr (Prog.Every.of_forall hcontext _)).bind fun _ => trivial

/-! ## The functions a descriptor can point to -/

/-- The suffix of an enable, disable or interrupt function's name. -/
inductive Style where
  | pci1 | pci2 | pci3 | pci4 | pci5 | pci6 | pci7 | pci8 | pci9 | pci10 | pci12 | pci13
  | pcie1 | pcie2 | pcie3 | pcie4 | pcie5 | pcie6 | pcie7 | pcie8
  | adio16f
deriving DecidableEq, Repr

def Style.enable : Style → Prog bus Unit
  | .pci1 => enablePciStyle1
  | .pci2 => enablePciStyle2
  | .pci3 => enablePciStyle3
  | .pci4 => enablePciStyle4
  | .pci5 => enablePciStyle5
  | .pci6 => enablePciStyle6
  | .pci7 => enablePciStyle7
  | .pci8 => enablePciStyle8
  | .pci9 => enablePciStyle9
  | .pci10 => enablePciStyle10
  | .pci12 => enablePciStyle12
  | .pci13 => enablePciStyle13
  | .pcie1 => enablePcieStyle1
  | .pcie2 => enablePcieStyle2
  | .pcie3 => enablePcieStyle3
  | .pcie4 => enablePcieStyle4
  | .pcie5 => enablePcieStyle5
  | .pcie6 => enablePcieStyle6
  | .pcie7 => enablePcieStyle7
  | .pcie8 => enablePcieStyle8
  | .adio16f => enableAdio16fStyle

def Style.disable : Style → Prog bus Unit
  | .pci1 => disablePciStyle1
  | .pci2 => disablePciStyle2
  | .pci3 => disablePciStyle3
  | .pci4 => disablePciStyle4
  | .pci5 => disablePciStyle5
  | .pci6 => disablePciStyle6
  | .pci7 => disablePciStyle7
  | .pci8 => disablePciStyle8
  | .pci9 => disablePciStyle9
  | .pci10 => disablePciStyle10
  | .pci12 => disablePciStyle12
  | .pci13 => disablePciStyle13
  | .pcie1 => disablePcieStyle1
  | .pcie2 => disablePcieStyle2
  | .pcie3 => disablePcieStyle3
  | .pcie4 => disablePcieStyle4
  | .pcie5 => disablePcieStyle5
  | .pcie6 => disablePcieStyle6
  | .pcie7 => disablePcieStyle7
  | .pcie8 => disablePcieStyle8
  | .adio16f => disableAdio16fStyle

def Style.interrupt : Style → Prog isr IrqReturn
  | .pci1 => interruptPciStyle1
  | .pci2 => interruptPciStyle2
  | .pci3 => interruptPciStyle3
  | .pci4 => interruptPciStyle4
  | .pci5 => interruptPciStyle5
  | .pci6 => interruptPciStyle6
  | .pci7 => interruptPciStyle7
  | .pci8 => interruptPciStyle8
  | .pci9 => interruptPciStyle9
  | .pci10 => interruptPciStyle10
  | .pci12 => interruptPciStyle12
  | .pci13 => interruptPciStyle13
  | .pcie1 => interruptPcieStyle1
  | .pcie2 => interruptPcieStyle2
  | .pcie3 => interruptPcieStyle3
  | .pcie4 => interruptPcieStyle4
  | .pcie5 => interruptPcieStyle5
  | .pcie6 => interruptPcieStyle6
  | .pcie7 => interruptPcieStyle7
  | .pcie8 => interruptPcieStyle8
  | .adio16f => interruptAdio16fStyle

/-- The latch a style's interrupt function leaves on, if it has one. -/
def Style.latch : Style → Option Latch
  | .pci1 | .pci2 | .pci3 | .pci4 | .pci5 | .pci6 | .pci7 | .pci8 | .pci9 | .pci10 | .pci12
  | .pci13 => some pciLatch
  | .pcie1 | .pcie2 | .pcie3 | .pcie4 | .pcie5 | .pcie6 | .pcie7 | .pcie8 => some pcieLatch
  | .adio16f => none

end Aiowdm.Driver.InterruptStyles
