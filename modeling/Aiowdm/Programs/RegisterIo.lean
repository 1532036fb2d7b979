import Aiowdm.Lib.CommandLine
import Aiowdm.Library.Cards

/-!
# The program that reads and writes registers

`RegisterIo.cpp` makes the access to a register that its command line asks for, on a card
of the library.
-/

namespace Aiowdm.Programs.RegisterIo

open Aiowdm.Lib Aiowdm.Lib.CommandLine
open Aiowdm.Library.Cards Aiowdm.Library.Registers

/-! ## What the program calls -/

inductive OutputCall where
  | printf (text : String)
deriving DecidableEq, Repr

def OutputCall.Reply : OutputCall → Type := fun _ => Unit

def output : Interface := ⟨OutputCall, OutputCall.Reply⟩

abbrev command : Interface := ioctls.sum output

def printf (text : String) : Prog command Unit := .perform (I := command) (.inr (.printf text))

/-- How `main` ends.  Nobody catches what `std::stoi` throws. -/
inductive Exit where
  | returned (status : Int)
  | terminated (e : StoiError)
  | undefined
deriving DecidableEq, Repr

/-! ## The command line -/

structure Arguments where
  cardNum : Int
  size : Int
  offset : Int
  value : Int
  write : Bool
deriving DecidableEq, Repr

/-- `"c:s:"`. -/
def takesArgument : Char → Option Bool
  | 'c' | 's' => some true
  | _ => none

def readOption (cardNumAndSize : Int × Int) : Opt → Except StoiError (Int × Int)
  | .option 'c' (some optarg) => do return (← stoi 16 optarg, cardNumAndSize.2)
  | .option 's' (some optarg) => do return (cardNumAndSize.1, ← stoi 16 optarg)
  | _ => return cardNumAndSize

/-- `args` is `argv` without the name of the program; `none` where `main` calls `usage`. -/
def readArguments (args : List String) : Except StoiError (Option Arguments) := do
  let (opts, operands) := getopt takesArgument args
  let (cardNum, size) ← opts.foldlM readOption (0, 4)
  match operands with
  | [offset] => return some ⟨cardNum, size, ← stoi 16 offset, 0, false⟩
  | [offset, value] => return some ⟨cardNum, size, ← stoi 16 offset, ← stoi 16 value, true⟩
  | _ => return none

/-! ## main -/

def usage : Prog command Unit := do
  printf "Usage: RegisterIo [-c <card_num>][-s <size>] offset [<value>]\n"
  printf "offset and value are both always treated as hex.\n"
  printf "If value is provided it becomes a write. default is read\n"

def hexInt (v : Int) : String := hex (BitVec.ofInt 32 v).toNat

def argumentsText (a : Arguments) : String :=
  "card_num=" ++ toString a.cardNum ++ "\nsize=" ++ toString a.size ++
    "\noffset=0x" ++ hexInt a.offset ++ "\nvalue=0x" ++ hexInt a.value ++
    "\nwrite=" ++ (if a.write then "true" else "false") ++ "\n"

def valueText (value : BitVec 32) : String := "value = 0x" ++ hex value.toNat ++ "\n"

section

-- `cards` is the file descriptor of each entry of the array of that name.
variable (cards : Nat → Int) (cardNum offset : BitVec 32)

def writeRegister (size : Int) (value : BitVec 32) : Prog command Unit :=
  if size = 1 then do
    let _ ← (relOutPortB cards cardNum offset ((value &&& 0xff).setWidth 8)).inl
    return ()
  else if size = 2 then do
    let _ ← (relOutPort cards cardNum offset ((value &&& 0xffff).setWidth 16)).inl
    return ()
  else if size = 4 then do
    let _ ← (relOutPortL cards cardNum offset (value &&& 0xffffffff)).inl
    return ()
  else printf "Invalid size\n"

/-- A byte is read with `RelInPort` as well.  `value` is what the variable holds before. -/
def readRegister (size : Int) (value : BitVec 32) : Prog command (BitVec 32) :=
  if size = 1 then do
    return (← (relInPort cards cardNum offset).inl).setWidth 32
  else if size = 2 then do
    return (← (relInPort cards cardNum offset).inl).setWidth 32
  else if size = 4 then (relInPortL cards cardNum offset).inl
  else do
    printf "Invalid size\n"
    return value

end

def access (lib : Statics) (a : Arguments) : Prog command Exit := do
  let cards : Nat → Int := fun i => (lib.cards i).fd
  let cardNum := BitVec.ofInt 32 a.cardNum
  match queryCardInfo lib cardNum true true (some 512) true with
  | .undefined => return .undefined
  | .returned (status, _) =>
      if status ≠ 0 then
        printf ("status = " ++ toString status.toInt ++ "\n")
        return .returned 0
      if a.write then
        writeRegister cards cardNum (BitVec.ofInt 32 a.offset) a.size (BitVec.ofInt 32 a.value)
      else
        let value ← readRegister cards cardNum (BitVec.ofInt 32 a.offset) a.size
          (BitVec.ofInt 32 a.value)
        printf (valueText value)
      return .returned 0

def interpret (lib : Statics) (args : List String) : Prog command Exit := do
  match readArguments args with
  | .error e => return .terminated e
  | .ok none =>
      usage
      return .returned (-1)
  | .ok (some a) =>
      printf (argumentsText a)
      access lib a

def main (lib : Statics) (args : List String) : Prog command Exit := do
  let numCards : BitVec 32 := (getNumCards lib).setWidth 32
  if numCards = 0 then
    printf "No cards detected\n"
  interpret lib args

end Aiowdm.Programs.RegisterIo
