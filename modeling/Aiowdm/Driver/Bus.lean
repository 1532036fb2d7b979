import Aiowdm.Lib.Prog

/-!
# Register accesses

`ioread8` to `iowrite32` of the driver, with addresses kept as the source
writes them: an entry of `bar_bases` and a byte offset, which may be negative.
-/

namespace Aiowdm.Driver.Bus

open Aiowdm.Lib

inductive Width where
  | byte
  | word
  | dword
deriving DecidableEq, Repr

def Width.bytes : Width → Nat
  | .byte => 1
  | .word => 2
  | .dword => 4

def Width.bits (w : Width) : Nat := 8 * w.bytes

/-- Where an address starts: at the pointer in `bar_bases[i]`, or at the array
`bar_bases` of the device context itself. -/
inductive Base where
  | bar (i : Fin 6)
  | barBases
deriving DecidableEq, Repr

structure Addr where
  base : Base
  offset : Int
deriving DecidableEq, Repr

/-- `ddata->bar_bases[i] + offset`. -/
def bar (i : Fin 6) (offset : Int) : Addr := ⟨.bar i, offset⟩

/-- `ddata->bar_bases + n`, a sum of a `void **` and a number of pointers. -/
def barBases (n : Int) : Addr := ⟨.barBases, 8 * n⟩

inductive BusCall where
  | ioread (w : Width) (addr : Addr)
  | iowrite (w : Width) (value : BitVec w.bits) (addr : Addr)
deriving DecidableEq, Repr

def BusCall.Reply : BusCall → Type
  | .ioread w _ => BitVec w.bits
  | .iowrite _ _ _ => Unit

def BusCall.addr : BusCall → Addr
  | .ioread _ addr => addr
  | .iowrite _ _ addr => addr

def BusCall.width : BusCall → Width
  | .ioread w _ => w
  | .iowrite w _ _ => w

def BusCall.isRead : BusCall → Bool
  | .ioread _ _ => true
  | .iowrite _ _ _ => false

def bus : Interface := ⟨BusCall, BusCall.Reply⟩

instance : (c : bus.Call) → Nonempty (bus.Reply c)
  | .ioread w _ => ⟨(0 : BitVec w.bits)⟩
  | .iowrite _ _ _ => ⟨()⟩

def ioread8 (addr : Addr) : Prog bus (BitVec 8) := .perform (I := bus) (.ioread .byte addr)
def ioread16 (addr : Addr) : Prog bus (BitVec 16) := .perform (I := bus) (.ioread .word addr)
def ioread32 (addr : Addr) : Prog bus (BitVec 32) := .perform (I := bus) (.ioread .dword addr)

def iowrite8 (value : BitVec 8) (addr : Addr) : Prog bus Unit :=
  .perform (I := bus) (.iowrite .byte value addr)

def iowrite16 (value : BitVec 16) (addr : Addr) : Prog bus Unit :=
  .perform (I := bus) (.iowrite .word value addr)

def iowrite32 (value : BitVec 32) (addr : Addr) : Prog bus Unit :=
  .perform (I := bus) (.iowrite .dword value addr)

section Running

variable {σ : Type} (h : Handler bus σ) (s : σ) (addr : Addr)

@[simp] theorem exec_ioread8 : (ioread8 addr).exec h s = h (BusCall.ioread .byte addr) s := rfl
@[simp] theorem exec_ioread16 : (ioread16 addr).exec h s = h (BusCall.ioread .word addr) s := rfl
@[simp] theorem exec_ioread32 : (ioread32 addr).exec h s = h (BusCall.ioread .dword addr) s := rfl

@[simp] theorem exec_iowrite8 (v : BitVec 8) :
    (iowrite8 v addr).exec h s = h (BusCall.iowrite .byte v addr) s := rfl

@[simp] theorem exec_iowrite16 (v : BitVec 16) :
    (iowrite16 v addr).exec h s = h (BusCall.iowrite .word v addr) s := rfl

@[simp] theorem exec_iowrite32 (v : BitVec 32) :
    (iowrite32 v addr).exec h s = h (BusCall.iowrite .dword v addr) s := rfl

@[simp] theorem calls_ioread8 : (ioread8 addr).calls h s = [BusCall.ioread .byte addr] := rfl
@[simp] theorem calls_ioread16 : (ioread16 addr).calls h s = [BusCall.ioread .word addr] := rfl
@[simp] theorem calls_ioread32 : (ioread32 addr).calls h s = [BusCall.ioread .dword addr] := rfl

@[simp] theorem calls_iowrite8 (v : BitVec 8) :
    (iowrite8 v addr).calls h s = [BusCall.iowrite .byte v addr] := rfl

@[simp] theorem calls_iowrite16 (v : BitVec 16) :
    (iowrite16 v addr).calls h s = [BusCall.iowrite .word v addr] := rfl

@[simp] theorem calls_iowrite32 (v : BitVec 32) :
    (iowrite32 v addr).calls h s = [BusCall.iowrite .dword v addr] := rfl

end Running

end Aiowdm.Driver.Bus
