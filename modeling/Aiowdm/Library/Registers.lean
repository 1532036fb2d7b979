import Aiowdm.Driver.RegisterIo

/-!
# The register functions of the library

`RelInPortB` to `RelOutPortL` of `aiowdm.cpp`.  Each builds one request, its
other bytes zero, and hands it to the driver with one ioctl.
-/

namespace Aiowdm.Library.Registers

open Aiowdm.Lib Aiowdm.Driver.Bus Aiowdm.Driver.DeviceContext Aiowdm.Driver.RegisterIo

/-- `ioctl (fd, ACCESIO_PCI_REGISTER_IO, &context)`. -/
inductive IoctlCall where
  | registerIo (fd : Int) (context : RegisterIoContext)
deriving DecidableEq, Repr

def IoctlCall.Reply : IoctlCall → Type
  | .registerIo _ _ => Int × RegisterIoContext

def ioctls : Interface := ⟨IoctlCall, IoctlCall.Reply⟩

def ioctl (fd : Int) (context : RegisterIoContext) : Prog ioctls (Int × RegisterIoContext) :=
  .perform (I := ioctls) (.registerIo fd context)

section

-- `cards` is the file descriptor of each entry of the array of that name.
variable (cards : Nat → Int) (cardNum register : BitVec 32)

/-- The request of a read.  `register` becomes an `int` bit by bit. -/
def inRequest (w : Width) : RegisterIoContext :=
  { read := 1, offset := register, size := BitVec.ofNat 32 w.bytes, data := 0 }

def outRequest (w : Width) (value : BitVec w.bits) : RegisterIoContext :=
  { read := 0, offset := register, size := BitVec.ofNat 32 w.bytes,
    data := setDataMember w value 0 }

/-- The functions that read: the status is only printed. -/
def relIn (w : Width) : Prog ioctls (BitVec w.bits) := do
  let (_, context) ← ioctl (cards cardNum.toNat) (inRequest register w)
  return dataMember w context.data

def relOut (w : Width) (value : BitVec w.bits) : Prog ioctls Int := do
  let (status, _) ← ioctl (cards cardNum.toNat) (outRequest register w value)
  return status

def relInPortB : Prog ioctls (BitVec 8) := relIn cards cardNum register .byte
def relInPort : Prog ioctls (BitVec 16) := relIn cards cardNum register .word
def relInPortL : Prog ioctls (BitVec 32) := relIn cards cardNum register .dword

def relOutPortB (value : BitVec 8) : Prog ioctls Int :=
  relOut cards cardNum register .byte value

def relOutPort (value : BitVec 16) : Prog ioctls Int :=
  relOut cards cardNum register .word value

def relOutPortL (value : BitVec 32) : Prog ioctls Int :=
  relOut cards cardNum register .dword value

end

/-! ## The library on the driver -/

/-- How a system call's result reaches the program. -/
def ioctlStatus (ret : Int) : Int := if ret < 0 then -1 else ret

/-- A buffer of the program, which is always there to copy. -/
def buffer : Handler user RegisterIoContext
  | .copyFromUser, c => (some c, c)
  | .copyToUser c, _ => (true, c)

/-- The driver serves each ioctl with the context of the card that `fd` is open
on. -/
def driver {σ : Type} (h : Handler bus σ) (contexts : Int → Context) : Handler ioctls σ
  | .registerIo fd c, s =>
      let (ret, s, c) := (ioctlAccesioPciRegisterIo (contexts fd)).exec (h.sum buffer) (s, c)
      ((ioctlStatus ret, c), s)

end Aiowdm.Library.Registers
