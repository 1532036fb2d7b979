import Aiowdm.Driver.InterruptStyles
import Aiowdm.Driver.IrqWait
import Aiowdm.Driver.RegisterIo

/-!
# The status register of an ADIO16F card

The register at offset 0x40 of BAR 2 has two kinds of bits.  The card sets those of
`ADIO16F_INTERRUPT_MASK`, and a write clears the ones it writes as one; the others
keep what is written to them.  The isr reads the register, writes it back and
notifies a waiter, and everything else may come between these steps.
-/

namespace Aiowdm.Driver.StatusRegister

open Aiowdm.Lib Aiowdm.Driver.Bus Aiowdm.Driver.DeviceContext Aiowdm.Driver.InterruptStyles
open Aiowdm.Driver.RegisterIo
open Aiowdm.Driver.IrqWait (Pc)

/-! ## Accesses to the register -/

/-- Bits of an access at `offset`, moved to where they lie in the register. -/
def place (offset : Int) (bits : BitVec 32) : BitVec 32 :=
  if 0x40 ≤ offset then bits <<< (8 * (offset - 0x40).toNat)
  else bits >>> (8 * (0x40 - offset).toNat)

/-- Bits of the register, moved to where an access at `offset` has them. -/
def pick (offset : Int) (bits : BitVec 32) : BitVec 32 :=
  if 0x40 ≤ offset then bits >>> (8 * (offset - 0x40).toNat)
  else bits <<< (8 * (0x40 - offset).toNat)

/-- The bits of the register that a write covers, and what it writes to them. -/
structure Lanes where
  covered : BitVec 32
  data : BitVec 32
deriving DecidableEq

def lanesOf (w : Width) (value : BitVec w.bits) (addr : Addr) : Lanes :=
  if addr.base = .bar 2 then
    ⟨place addr.offset ((BitVec.allOnes w.bits).setWidth 32), place addr.offset (value.setWidth 32)⟩
  else ⟨0, 0⟩

def Lanes.keep (l : Lanes) (old : BitVec 32) : BitVec 32 :=
  old &&& ~~~l.covered ||| l.data &&& l.covered

def Lanes.write (l : Lanes) (status : BitVec 32) : BitVec 32 :=
  status &&& ADIO16F_INTERRUPT_MASK &&& ~~~(l.data &&& l.covered) |||
    l.keep status &&& ~~~ADIO16F_INTERRUPT_MASK

def readBits (w : Width) (addr : Addr) (status : BitVec 32) : BitVec w.bits :=
  if addr.base = .bar 2 then (pick addr.offset status).setWidth w.bits else 0

/-- The card: a read of the register has no effect on it. -/
def card : Handler bus (BitVec 32)
  | .ioread w addr, status => (readBits w addr status, status)
  | .iowrite w value addr, status => ((), (lanesOf w value addr).write status)

def writes : Handler bus (BitVec 32)
  | .ioread w addr, last => (readBits w addr last, last)
  | .iowrite w value addr, last => ((), (lanesOf w value addr).keep last)

/-! ## The isr, step by step -/

def isrRead : Prog bus (BitVec 32) := ioread32 (bar 2 0x40)

def isrAcknowledge (irqStatus : BitVec 32) : Prog bus Unit :=
  iowrite32 (irqStatus &&& ADIO16F_INTERRUPT_MASK) (bar 2 0x40)

/-- The isr is these steps one after another. -/
theorem interruptAdio16fStyle_eq : interruptAdio16fStyle = (do
    let irqStatus ← isrRead.inl
    if irqStatus &&& ADIO16F_INTERRUPT_MASK = 0 then
      return .none
    (isrAcknowledge irqStatus).inl
    accesioNotifyUser.inr
    return .handled) := rfl

inductive IsrPc where
  | idle
  | acknowledge (irqStatus : BitVec 32)
  | notify
deriving DecidableEq, Repr

inductive Action (τ : Type) where
  | raise (bits : BitVec 32)
  | isr
  | thread (a : IrqWait.Action τ)
  | write (request : RegisterIoContext)
deriving DecidableEq, Repr

/-- What a step is seen to do; `ignored` is an isr run that finds no bit set. -/
inductive Event (τ : Type) where
  | raised (bits : BitVec 32)
  | ignored
  | read (irqStatus : BitVec 32)
  | acknowledged (irqStatus : BitVec 32)
  | thread (e : IrqWait.Event τ)
  | written (request : RegisterIoContext)
deriving DecidableEq, Repr

structure State (τ : Type) where
  status : BitVec 32
  /-- What the program last wrote to each bit of the register. -/
  lastWritten : BitVec 32
  isr : IsrPc
  threads : IrqWait.State τ

variable {τ : Type} [DecidableEq τ]

/-- `context` is that of the card: a program writes at its default BAR.  The section
that notifies a waiter is a step of the isr and no thread's. -/
def step (context : Context) (s : State τ) : Action τ → Option (Event τ × State τ)
  | .raise bits =>
      some (.raised bits, { s with status := s.status ||| bits &&& ADIO16F_INTERRUPT_MASK })
  | .isr =>
      match s.isr with
      | .idle =>
          let irqStatus := (isrRead.exec card s.status).1
          if irqStatus &&& ADIO16F_INTERRUPT_MASK = 0 then some (.ignored, s)
          else some (.read irqStatus, { s with isr := .acknowledge irqStatus })
      | .acknowledge irqStatus =>
          some (.acknowledged irqStatus,
            { s with status := ((isrAcknowledge irqStatus).exec card s.status).2, isr := .notify })
      | .notify =>
          (IrqWait.step s.threads .notify).map fun (e, threads) =>
            (.thread e, { s with threads, isr := .idle })
  | .thread a =>
      if a = .notify then none
      else (IrqWait.step s.threads a).map fun (e, threads) => (.thread e, { s with threads })
  | .write request =>
      let access := writeRegister context request
      some (.written request, { s with
        status := (access.exec card s.status).2
        lastWritten := (access.exec writes s.lastWritten).2 })

def system (τ : Type) [DecidableEq τ] (context : Context) (status : BitVec 32) :
    System (State τ) (Action τ) (Event τ) where
  init := ⟨status, status, .idle, (IrqWait.system τ).init⟩
  step := step context

end Aiowdm.Driver.StatusRegister
