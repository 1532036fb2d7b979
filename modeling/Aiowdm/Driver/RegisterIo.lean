import Aiowdm.Driver.Bus
import Aiowdm.Driver.DeviceContext

/-!
# Register accesses for a program

`ioctl_ACCESIO_PCI_REGISTER_IO`: it copies a request from the program, makes the
access the request asks for at the default BAR, and copies what it read back.
-/

namespace Aiowdm.Driver.RegisterIo

open Aiowdm.Lib Aiowdm.Driver.Bus Aiowdm.Driver.DeviceContext

def eio : Int := 5

/-- `struct accesio_pci_register_io_context`.  `offset` and `size` are `int`s, and
`data` is the union as its longest member. -/
structure RegisterIoContext where
  read : BitVec 8
  offset : BitVec 32
  size : BitVec 32
  data : BitVec 32
deriving DecidableEq, Repr

/-- The members `byte`, `word` and `dword` of the union share its low bytes. -/
def dataMember (w : Width) (data : BitVec 32) : BitVec w.bits := data.setWidth w.bits

def setDataMember (w : Width) (v : BitVec w.bits) (data : BitVec 32) : BitVec 32 :=
  data >>> w.bits <<< w.bits ||| v.setWidth 32

@[simp] theorem dataMember_setDataMember (w : Width) (v : BitVec w.bits) (data : BitVec 32) :
    dataMember w (setDataMember w v data) = v := by
  have hw : w.bits ≤ 32 := by cases w <;> decide
  ext i hi
  have hlt : i < 32 := by omega
  simp [dataMember, setDataMember, hi, hlt]

/-! ## Copies to and from the program -/

inductive UserCall where
  | copyFromUser
  | copyToUser (c : RegisterIoContext)
deriving DecidableEq, Repr

/-- A copy that leaves bytes over answers `none` or `false`. -/
def UserCall.Reply : UserCall → Type
  | .copyFromUser => Option RegisterIoContext
  | .copyToUser _ => Bool

def user : Interface := ⟨UserCall, UserCall.Reply⟩

abbrev registerIo : Interface := bus.sum user

def copyFromUser : Prog user (Option RegisterIoContext) := .perform (I := user) .copyFromUser

def copyToUser (c : RegisterIoContext) : Prog user Bool := .perform (I := user) (.copyToUser c)

section Running

variable {σ : Type} (h : Handler user σ) (s : σ)

@[simp] theorem exec_copyFromUser : copyFromUser.exec h s = h UserCall.copyFromUser s := rfl

@[simp] theorem exec_copyToUser (c : RegisterIoContext) :
    (copyToUser c).exec h s = h (UserCall.copyToUser c) s := rfl

end Running

/-! ## The ioctl -/

/-- `context->bar_bases[context->default_bar] + register_io_context.offset`. -/
def registerAddr (context : Context) (request : RegisterIoContext) : Addr :=
  bar context.defaultBar request.offset.toInt

/-- The `switch` for a read.  It has no default, as the one for a write. -/
def readRegister (context : Context) (request : RegisterIoContext) :
    Prog bus RegisterIoContext := do
  let addr := registerAddr context request
  if request.size = 1 then
    let value ← ioread8 addr
    return { request with data := setDataMember .byte value request.data }
  else if request.size = 2 then
    let value ← ioread16 addr
    return { request with data := setDataMember .word value request.data }
  else if request.size = 4 then
    let value ← ioread32 addr
    return { request with data := setDataMember .dword value request.data }
  else
    return request

def writeRegister (context : Context) (request : RegisterIoContext) : Prog bus Unit :=
  let addr := registerAddr context request
  if request.size = 1 then iowrite8 (dataMember .byte request.data) addr
  else if request.size = 2 then iowrite16 (dataMember .word request.data) addr
  else if request.size = 4 then iowrite32 (dataMember .dword request.data) addr
  else pure ()

def ioctlAccesioPciRegisterIo (context : Context) : Prog registerIo Int := do
  match ← copyFromUser.inr with
  | none => return -eio
  | some request =>
      if request.read ≠ 0 then
        let request ← (readRegister context request).inl
        if ← (copyToUser request).inr then
          return 0
        else
          return -eio
      else
        (writeRegister context request).inl
        return 0

end Aiowdm.Driver.RegisterIo
