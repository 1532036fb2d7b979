import Aiowdm.Driver.DescriptorGet
import Aiowdm.Library.Registers
import Mathlib.Data.List.Infix

/-!
# The cards the library knows

`AiowdmInit` of `aiowdm.cpp` opens what it takes for the driver's nodes and
keeps them in the array `cards`, which every other function looks into.
-/

namespace Aiowdm.Library.Cards

open Aiowdm.Lib Aiowdm.Driver.Bus Aiowdm.Driver.DeviceContext Aiowdm.Driver.RegisterIo
open Aiowdm.Driver.DescriptorGet (CardDescriptor)
open Aiowdm.Driver.Probe (Ending)
open Aiowdm.Library.Registers

def EINVAL : Int := 22

/-- `struct card`, with what `descriptor` points to where it is not NULL. -/
structure Card where
  fd : Int
  descriptor : Option CardDescriptor

/-- The static variables of the library.  The array `cards` has 32 entries; the
entries from 32 on are the memory after it. -/
structure Statics where
  cards : Nat → Card
  numCards : BitVec 32
  initComplete : Bool

def Statics.zeroed (memory : Nat → Card) : Statics where
  cards := fun i => if i < 32 then ⟨0, none⟩ else memory i
  numCards := 0
  initComplete := false

def Statics.setCard (lib : Statics) (card : Card) : Statics :=
  { lib with cards := Function.update lib.cards lib.numCards.toNat card }

@[simp] theorem numCards_setCard (lib : Statics) (card : Card) :
    (lib.setCard card).numCards = lib.numCards := rfl

@[simp] theorem cards_setCard (lib : Statics) (card : Card) :
    (lib.setCard card).cards lib.numCards.toNat = card :=
  Function.update_self _ _ _

theorem cards_setCard_of_lt {lib : Statics} {i : Nat} (hi : i < lib.numCards.toNat)
    (card : Card) : (lib.setCard card).cards i = lib.cards i :=
  Function.update_of_ne hi.ne _ _

/-! ## AiowdmInit -/

/-- The system calls of `AiowdmInit` on a directory entry. -/
inductive SysCall where
  | openNode (fname : String)
  | malloc
  | cardDescriptorGet (fd : Int) (allocated : Bool)
deriving DecidableEq, Repr

/-- An ioctl answers with its status and what it leaves in the descriptor. -/
def SysCall.Reply : SysCall → Type
  | .openNode _ => Int
  | .malloc => Bool
  | .cardDescriptorGet _ _ => Int × CardDescriptor

def sys : Interface := ⟨SysCall, SysCall.Reply⟩

def openNode (fname : String) : Prog sys Int := .perform (I := sys) (.openNode fname)
def malloc : Prog sys Bool := .perform (I := sys) .malloc

def cardDescriptorGet (fd : Int) (allocated : Bool) : Prog sys (Int × CardDescriptor) :=
  .perform (I := sys) (.cardDescriptorGet fd allocated)

section Running

variable {σ : Type} (h : Handler sys σ) (s : σ)

@[simp] theorem exec_openNode (fname : String) :
    (openNode fname).exec h s = h (SysCall.openNode fname) s := rfl

@[simp] theorem exec_malloc : malloc.exec h s = h SysCall.malloc s := rfl

@[simp] theorem exec_cardDescriptorGet (fd : Int) (allocated : Bool) :
    (cardDescriptorGet fd allocated).exec h s = h (SysCall.cardDescriptorGet fd allocated) s := rfl

end Running

def devPath (name : String) : String := "/dev/accesio_pci/" ++ name

/-- `strstr(entry->d_name, "pci")` is not NULL. -/
def hasPci (name : String) : Bool := "pci".toList <:+: name.toList

/-- One turn of the loop over the directory.  An entry that cannot be opened or
queried leaves its traces in the slot that the next one takes. -/
def aiowdmInitEntry (lib : Statics) (name : String) : Prog sys (Ending Statics) := do
  if hasPci name = false then
    return .returned lib
  let fd ← openNode (devPath name)
  if 32 ≤ lib.numCards.toNat then
    return .undefined
  let old := lib.cards lib.numCards.toNat
  if fd < 0 then
    return .returned (lib.setCard { old with fd })
  let allocated ← malloc
  let (status, contents) ← cardDescriptorGet fd allocated
  let lib := lib.setCard ⟨fd, if allocated then some contents else none⟩
  if status ≠ 0 then
    return .returned lib
  return .returned { lib with numCards := lib.numCards + 1 }

def aiowdmInitEntries : Statics → List String → Prog sys (Ending Statics)
  | lib, [] => pure (.returned lib)
  | lib, name :: names => do
      match ← aiowdmInitEntry lib name with
      | .undefined => return .undefined
      | .returned lib => aiowdmInitEntries lib names

/-- `dir` is what `readdir` lists, where `opendir` succeeds. -/
def aiowdmInit (dir : Option (List String)) (lib : Statics) : Prog sys (Ending Statics) := do
  match dir with
  | none => return .returned lib
  | some names =>
      match ← aiowdmInitEntries lib names with
      | .undefined => return .undefined
      | .returned lib => return .returned { lib with initComplete := true }

/-! ## Looking up a card -/

def getNumCards (lib : Statics) : BitVec 64 := lib.numCards.setWidth 64

/-- What `QueryCardInfo` stores through its pointers. -/
structure CardInfo where
  deviceId : Option (BitVec 64)
  base : Option (BitVec 64)
  nameSize : Option (BitVec 64)
  name : Option String

def CardInfo.nothing : CardInfo := ⟨none, none, none, none⟩

/-- The name size goes in and out; `none` is a NULL pointer, as `false` is for the
others.  The status is unsigned. -/
def queryCardInfo (lib : Statics) (cardNum : BitVec 32) (pDeviceID pBase : Bool)
    (pNameSize : Option (BitVec 64)) (pName : Bool) : Ending (BitVec 32 × CardInfo) :=
  if lib.numCards ≤ cardNum then .returned (BitVec.ofInt 32 (-EINVAL), .nothing)
  else
    match (lib.cards cardNum.toNat).descriptor with
    | none => .undefined
    | some d =>
        let ids : CardInfo :=
          { CardInfo.nothing with
            deviceId := if pDeviceID then some (d.deviceId.setWidth 64) else none
            base := if pBase then some d.portBase else none }
        if pNameSize = none ∧ pName then .returned (BitVec.ofInt 32 (-EINVAL), ids)
        else
          let nameSize := pNameSize.map fun n => if n = 0 then d.nameSize else n
          let name := nameSize.map fun n => String.ofList (d.name.toList.take n.toNat)
          .returned (0, { ids with nameSize, name := if pName then name else none })

/-! ## The functions that issue an ioctl -/

/-- `ioctl (fd, ACCESIO_PCI_IRQ_WAIT)` and `ioctl (fd, ACCESIO_PCI_IRQ_WAIT_CANCEL)`. -/
inductive WaitCall where
  | irqWait (fd : Int)
  | irqWaitCancel (fd : Int)
deriving DecidableEq, Repr

def WaitCall.Reply : WaitCall → Type
  | .irqWait _ | .irqWaitCancel _ => Int

def waits : Interface := ⟨WaitCall, WaitCall.Reply⟩

def waitForIRQ (cards : Nat → Int) (cardNum : BitVec 32) : Prog waits Int :=
  .perform (I := waits) (.irqWait (cards cardNum.toNat))

def abortRequest (cards : Nat → Int) (cardNum : BitVec 32) : Prog waits Int :=
  .perform (I := waits) (.irqWaitCancel (cards cardNum.toNat))

/-- A call of one of these functions, the card number apart. -/
inductive Request where
  | relInPortB (register : BitVec 32)
  | relInPort (register : BitVec 32)
  | relInPortL (register : BitVec 32)
  | relOutPortB (register : BitVec 32) (value : BitVec 8)
  | relOutPort (register : BitVec 32) (value : BitVec 16)
  | relOutPortL (register : BitVec 32) (value : BitVec 32)
  | waitForIRQ
  | abortRequest
deriving DecidableEq, Repr

abbrev cardIoctls : Interface := ioctls.sum waits

/-- What a function returns: data of its width, or a status. -/
inductive Result where
  | data (w : Width) (value : BitVec w.bits)
  | status (status : Int)
deriving DecidableEq, Repr

def Request.run (lib : Statics) (cardNum : BitVec 32) : Request → Prog cardIoctls Result
  | .relInPortB register => do
      return .data .byte (← (Registers.relInPortB cards cardNum register).inl)
  | .relInPort register => do
      return .data .word (← (Registers.relInPort cards cardNum register).inl)
  | .relInPortL register => do
      return .data .dword (← (Registers.relInPortL cards cardNum register).inl)
  | .relOutPortB register value => do
      return .status (← (Registers.relOutPortB cards cardNum register value).inl)
  | .relOutPort register value => do
      return .status (← (Registers.relOutPort cards cardNum register value).inl)
  | .relOutPortL register value => do
      return .status (← (Registers.relOutPortL cards cardNum register value).inl)
  | .waitForIRQ => do
      return .status (← (Cards.waitForIRQ cards cardNum).inr)
  | .abortRequest => do
      return .status (← (Cards.abortRequest cards cardNum).inr)
where
  cards (i : Nat) : Int := (lib.cards i).fd

end Aiowdm.Library.Cards
