import Aiowdm.Lib.Atomic
import Aiowdm.Programs.RegisterIo
import Aiowdm.Proofs.ByteMemories

/-!
# What the command lines of RegisterIo do

Which access a command line asks for, however its options and operands are mixed and its
numbers are written; what happens where a line is given what another has printed; and what
a sequence of command lines does to the cards.
-/

namespace Aiowdm.Proofs.RegisterCommands

open Aiowdm.Lib Aiowdm.Lib.CommandLine
open Aiowdm.Driver.Bus
open Aiowdm.Driver.DeviceContext (PciDev PCI_STD_NUM_BARS)
open Aiowdm.Driver.Probe (Ending)
open Aiowdm.Driver.RegisterIo (RegisterIoContext)
open Aiowdm.Library.Cards Aiowdm.Library.OnDriver Aiowdm.Library.Registers
open Aiowdm.Programs.RegisterIo
open Aiowdm.Proofs.ByteMemories Aiowdm.Proofs.CardNumbers

/-! ## Command lines -/

def InInt (v : Int) : Prop := -0x80000000 ≤ v ∧ v < 0x80000000

instance (v : Int) : Decidable (InInt v) := instDecidableAnd

/-- A part of a command line, with the number that its text spells. -/
inductive Part where
  | card (attached : Bool) (text : String) (n : Int)
  | size (attached : Bool) (text : String) (n : Int)
  | number (text : String) (n : Int)
deriving DecidableEq, Repr

namespace Part

def text : Part → String
  | card _ text _ | size _ text _ | number text _ => text

def value : Part → Int
  | card _ _ n | size _ _ n | number _ n => n

def word : Part → Word
  | card attached text _ => .option 'c' attached text
  | size attached text _ => .option 's' attached text
  | number text _ => .operand text

def card? : Part → Option Int
  | card _ _ n => some n
  | _ => none

def size? : Part → Option Int
  | size _ _ n => some n
  | _ => none

def number? : Part → Option Int
  | number _ n => some n
  | _ => none

/-- The text spells the number; a number with a minus sign is none of the operands. -/
def IsWritten (part : Part) : Prop :=
  Spells 16 part.text.toList part.value ∧
    (part.number?.isSome → part.text.toList.head? ≠ some '-')

end Part

/-- A command line: its parts in any order, and what follows `--`, if that is there. -/
structure Line where
  parts : List Part
  rest : Option (List (String × Int))

namespace Line

def args (line : Line) : List String :=
  line.parts.flatMap (fun part => part.word.args) ++
    line.rest.elim [] fun numbers => "--" :: numbers.map Prod.fst

def numbers (line : Line) : List Int :=
  line.parts.filterMap Part.number? ++ (line.rest.getD []).map Prod.snd

structure IsWritten (line : Line) : Prop where
  parts : ∀ part ∈ line.parts, part.IsWritten
  rest : ∀ number ∈ line.rest.getD [], Spells 16 number.1.toList number.2

/-- What the line asks for: the last of each option counts, and one or two operands make
a read or a write. -/
def asks (line : Line) : Except StoiError (Option Arguments) :=
  let cardNum := (line.parts.filterMap Part.card?).getLast?.getD 0
  let size := (line.parts.filterMap Part.size?).getLast?.getD 4
  if ∀ part ∈ line.parts, part.number? = none → InInt part.value then
    match line.numbers with
    | [offset] =>
        if InInt offset then .ok (some ⟨cardNum, size, offset, 0, false⟩)
        else .error .outOfRange
    | [offset, value] =>
        if InInt offset ∧ InInt value then .ok (some ⟨cardNum, size, offset, value, true⟩)
        else .error .outOfRange
    | _ => .ok none
  else .error .outOfRange

end Line

/-! ## Reading a line -/

theorem asInt_eq (v : Int) : asInt v = if InInt v then .ok v else .error .outOfRange := rfl

private theorem isPlain_word {part : Part} (h : part.IsWritten) :
    part.word.IsPlain takesArgument := by
  have hne : part.text ≠ "" := by
    intro hnil
    have hlist := ne_nil_of_spells h.1
    rw [hnil] at hlist
    exact hlist rfl
  cases part with
  | card | size => exact ⟨rfl, by decide, fun _ => hne⟩
  | number => exact .inl (h.2 rfl)

private theorem getopt_line {line : Line} (h : line.IsWritten) :
    getopt takesArgument line.args =
      (line.parts.filterMap fun part => part.word.opt,
        line.parts.filterMap (fun part => part.word.operand?) ++
          (line.rest.getD []).map Prod.fst) := by
  have hplain : ∀ word ∈ line.parts.map Part.word, word.IsPlain takesArgument := by
    intro word hword
    obtain ⟨part, hpart, rfl⟩ := List.mem_map.mp hword
    exact isPlain_word (h.parts part hpart)
  have hwords := getopt_words hplain (line.rest.elim [] fun numbers => "--" :: numbers.map Prod.fst)
  rw [List.flatMap_map, List.filterMap_map, List.filterMap_map] at hwords
  refine hwords.trans ?_
  cases line.rest with
  | none => simp [getopt]
  | some numbers => simp [getopt]

theorem getLast?_filterMap_cons {α β : Type} (f : α → Option β) (a : α) (l : List α) (b : β) :
    ((a :: l).filterMap f).getLast?.getD b = (l.filterMap f).getLast?.getD ((f a).getD b) := by
  cases h : f a with
  | none => rw [List.filterMap_cons_none h, Option.getD_none]
  | some c =>
      rw [List.filterMap_cons_some h, List.getLast?_cons, Option.getD_some, Option.getD_some]

private theorem readOption_part {part : Part} (h : part.IsWritten) (hoption : part.number? = none) :
    ∃ opt, part.word.opt = some opt ∧ ∀ acc, readOption acc opt =
      if InInt part.value then .ok (part.card?.getD acc.1, part.size?.getD acc.2)
      else .error .outOfRange := by
  have hstoi := stoi_spells h.1
  rw [asInt_eq] at hstoi
  cases part with
  | number => cases hoption
  | card attached text n | size attached text n =>
      refine ⟨_, rfl, fun acc => ?_⟩
      by_cases hn : InInt n
      · have hread : stoi 16 text = .ok n := hstoi.trans (if_pos hn)
        simp only [readOption, hread]
        exact (if_pos hn).symm
      · have hread : stoi 16 text = .error .outOfRange := hstoi.trans (if_neg hn)
        simp only [readOption, hread]
        exact (if_neg hn).symm

private theorem foldlM_readOption {parts : List Part} (h : ∀ part ∈ parts, part.IsWritten)
    (acc : Int × Int) :
    (parts.filterMap fun part => part.word.opt).foldlM readOption acc =
      if ∀ part ∈ parts, part.number? = none → InInt part.value then
        .ok ((parts.filterMap Part.card?).getLast?.getD acc.1,
          (parts.filterMap Part.size?).getLast?.getD acc.2)
      else .error .outOfRange := by
  induction parts generalizing acc with
  | nil => rfl
  | cons part parts ih =>
      have hrest := ih fun p hp => h p (List.mem_cons_of_mem part hp)
      rw [getLast?_filterMap_cons, getLast?_filterMap_cons]
      simp only [List.forall_mem_cons]
      by_cases hoption : part.number? = none
      · obtain ⟨opt, hopt, hread⟩ := readOption_part (h part List.mem_cons_self) hoption
        rw [List.filterMap_cons_some (f := fun part : Part => part.word.opt) hopt,
          List.foldlM_cons, hread]
        by_cases hn : InInt part.value
        · rw [if_pos hn]
          refine (hrest _).trans ?_
          simp only [hn, imp_true_iff, true_and]
        · rw [if_neg hn, if_neg fun hall => hn (hall.1 hoption)]
          rfl
      · cases part with
        | number text n =>
            refine (hrest acc).trans ?_
            simp only [Part.number?, reduceCtorEq, false_imp_iff, true_and]
            rfl
        | card | size => exact absurd rfl hoption

def operands (line : Line) : List (String × Int) :=
  line.parts.filterMap (fun part => part.number?.map fun n => (part.text, n)) ++ line.rest.getD []

private theorem map_operands_fst (line : Line) :
    line.parts.filterMap (fun part => part.word.operand?) ++ (line.rest.getD []).map Prod.fst =
      (operands line).map Prod.fst := by
  rw [operands, List.map_append, List.map_filterMap]
  congr 2
  funext part
  cases part <;> rfl

private theorem map_operands_snd (line : Line) : line.numbers = (operands line).map Prod.snd := by
  rw [operands, List.map_append, List.map_filterMap]
  refine congrArg (· ++ (line.rest.getD []).map Prod.snd) ?_
  congr 1
  funext part
  cases part <;> rfl

private theorem stoi_operand {line : Line} (h : line.IsWritten) {operand : String × Int}
    (hmem : operand ∈ operands line) :
    stoi 16 operand.1 = if InInt operand.2 then .ok operand.2 else .error .outOfRange := by
  rw [← asInt_eq]
  refine stoi_spells ?_
  rcases List.mem_append.mp hmem with hparts | hrest
  · obtain ⟨part, hpart, hsome⟩ := List.mem_filterMap.mp hparts
    obtain ⟨n, hn, rfl⟩ := Option.map_eq_some_iff.mp hsome
    have hvalue : part.value = n := by
      cases part with
      | card | size => cases hn
      | number text m => exact Option.some.inj hn
    exact hvalue ▸ (h.parts part hpart).1
  · exact h.rest operand hrest

theorem readArguments_line {line : Line} (h : line.IsWritten) :
    readArguments line.args = line.asks := by
  have hoperand : ∀ operand ∈ operands line, stoi 16 operand.1 =
      if InInt operand.2 then .ok operand.2 else .error .outOfRange := fun _ => stoi_operand h
  simp only [readArguments, getopt_line h, foldlM_readOption h.parts, map_operands_fst,
    Line.asks, map_operands_snd]
  by_cases hoptions : ∀ part ∈ line.parts, part.number? = none → InInt part.value
  · rw [if_pos hoptions, if_pos hoptions]
    generalize operands line = numbers at hoperand
    rcases numbers with _ | ⟨offset, _ | ⟨value, _ | ⟨third, numbers⟩⟩⟩
    · rfl
    · have hoffset := hoperand offset List.mem_cons_self
      simp only [List.map_cons, List.map_nil, hoffset]
      by_cases hn : InInt offset.2
      · rw [if_pos hn, if_pos hn]
        rfl
      · rw [if_neg hn, if_neg hn]
        rfl
    · have hoffset := hoperand offset List.mem_cons_self
      have hvalue := hoperand value (List.mem_cons_of_mem _ List.mem_cons_self)
      simp only [List.map_cons, List.map_nil, hoffset, hvalue]
      by_cases hn : InInt offset.2
      · by_cases hv : InInt value.2
        · rw [if_pos hn, if_pos hv, if_pos ⟨hn, hv⟩]
          rfl
        · rw [if_pos hn, if_neg hv, if_neg fun hand => hv hand.2]
          rfl
      · have hboth : ¬(InInt offset.2 ∧ InInt value.2) := fun hand => hn hand.1
        rw [if_neg hn, if_neg hboth]
        rfl
    · rfl
  · rw [if_neg hoptions, if_neg hoptions]
    rfl

/-! ## main on a command line -/

def screen : Handler output (List String)
  | .printf text, shown => ((), shown ++ [text])

def noCardsText (lib : Statics) : List String :=
  if (getNumCards lib).setWidth 32 = (0 : BitVec 32) then ["No cards detected\n"] else []

def usageText : List String :=
  ["Usage: RegisterIo [-c <card_num>][-s <size>] offset [<value>]\n",
    "offset and value are both always treated as hex.\n",
    "If value is provided it becomes a write. default is read\n"]

private theorem exec_usage {τ : Type} (g : Handler ioctls τ) (t : τ) (texts : List String) :
    usage.exec (g.sum screen) (t, texts) = ((), (t, texts ++ usageText)) := by
  change ((), (t, texts ++ [_] ++ [_] ++ [_])) = _
  rw [List.append_assoc, List.append_assoc]
  rfl

theorem exec_main {τ : Type} (g : Handler ioctls τ) (lib : Statics) (args : List String) (t : τ)
    (texts : List String) :
    (main lib args).exec (g.sum screen) (t, texts) =
      match readArguments args with
      | .error e => (.terminated e, (t, texts ++ noCardsText lib))
      | .ok none => (.returned (-1), (t, texts ++ noCardsText lib ++ usageText))
      | .ok (some a) =>
          (access lib a).exec (g.sum screen)
            (t, texts ++ noCardsText lib ++ [argumentsText a]) := by
  have hinterpret : ∀ texts', (interpret lib args).exec (g.sum screen) (t, texts') =
      match readArguments args with
      | .error e => (.terminated e, (t, texts'))
      | .ok none => (.returned (-1), (t, texts' ++ usageText))
      | .ok (some a) => (access lib a).exec (g.sum screen) (t, texts' ++ [argumentsText a]) := by
    intro texts'
    rcases hread : readArguments args with e | _ | a
    · rw [interpret, hread]
      rfl
    · rw [interpret, hread, Prog.exec_bind, exec_usage]
      rfl
    · rw [interpret, hread]
      rfl
  unfold main noCardsText
  dsimp only
  split
  · exact hinterpret (texts ++ ["No cards detected\n"])
  · rw [List.append_nil]
    exact hinterpret texts

/-- A command line is read as what it asks for, wherever its options stand, however its
numbers are written, and whatever is left out or too large; and `main` ends, prints and
goes on to the access accordingly. -/
theorem command_line_read {τ : Type} (g : Handler ioctls τ) (lib : Statics) (line : Line)
    (h : line.IsWritten) (t : τ) :
    readArguments line.args = line.asks ∧
      (main lib line.args).exec (g.sum screen) (t, []) =
        match line.asks with
        | .error e => (.terminated e, (t, noCardsText lib))
        | .ok none => (.returned (-1), (t, noCardsText lib ++ usageText))
        | .ok (some a) =>
            (access lib a).exec (g.sum screen) (t, noCardsText lib ++ [argumentsText a]) := by
  refine ⟨readArguments_line h, ?_⟩
  rw [exec_main, readArguments_line h]
  rfl

theorem spells_digit {n : Nat} (hn : n < 16) : Spells 16 [Nat.digitChar n] n :=
  .unsigned (.plain ⟨[n], by simp, congrArg ([·]) (digit_digitChar hn), by simp [value]⟩)

/-- `RegisterIo 8 -c1 -- -5` writes to card 1. -/
def negativeValue : Line :=
  ⟨[.number "8" 8, .card true "1" 1], some [("-5", -5)]⟩

private theorem isWritten_negativeValue : negativeValue.IsWritten := by
  refine ⟨fun part hpart => ?_, fun number hnumber => ?_⟩
  · simp only [negativeValue, List.mem_cons, List.not_mem_nil, or_false] at hpart
    rcases hpart with rfl | rfl
    · exact ⟨spells_digit (n := 8) (by decide), fun _ => by decide⟩
    · exact ⟨spells_digit (n := 1) (by decide), fun hnone => by cases hnone⟩
  · simp only [negativeValue, Option.getD_some, List.mem_cons, List.not_mem_nil, or_false]
      at hnumber
    subst hnumber
    exact .minus (.plain ⟨[5], by simp, by decide +kernel, by decide⟩)

def noFile : Handler ioctls Unit
  | .registerIo _ context, () => ((-1, context), ())

theorem command_line_read_negative :
    readArguments ["8", "-c1", "--", "-5"] = .ok (some ⟨1, 4, 8, -5, true⟩) ∧
      (main (.zeroed fun _ => ⟨0, none⟩) ["8", "-c1", "--", "-5"]).exec (noFile.sum screen)
          ((), []) =
        (.returned 0, ((), ["No cards detected\n", argumentsText ⟨1, 4, 8, -5, true⟩,
          "status = -22\n"])) := by
  obtain ⟨hread, hmain⟩ := command_line_read noFile (.zeroed fun _ => ⟨0, none⟩) negativeValue
    isWritten_negativeValue ()
  have hstatus : "status = " ++ toString (BitVec.ofInt 32 (-EINVAL)).toInt ++ "\n" =
      "status = -22\n" := by decide +kernel
  refine ⟨hread, hmain.trans ?_⟩
  rw [← hstatus]
  rfl

/-! ## At most one access -/

/-- One register ioctl, on the file of a counted card and of a size that the driver knows.
The state tells whether it has been made. -/
def oneIoctl (lib : Statics) : Protocol command Bool where
  Permits
    | made, .inl (.registerIo fd request) =>
        made = false ∧ (∃ i < lib.numCards.toNat, fd = (lib.cards i).fd) ∧
          ∃ w : Width, request.size = BitVec.ofNat 32 w.bytes
    | _, .inr _ => True
  next
    | _, .inl _, _ => true
    | made, .inr _, _ => made

section Calls

variable {lib : Statics} {cardNum : BitVec 32} {made : Bool} {α : Type}

abbrev KeepsToOne (lib : Statics) (made : Bool) (p : Prog command α) : Prop :=
  p.Follows (oneIoctl lib) (fun _ _ => True) made

theorem keepsToOne_printf (text : String) {p : Prog command α} (hp : KeepsToOne lib made p) :
    KeepsToOne lib made (printf text >>= fun _ => p) :=
  ⟨trivial, fun _ => hp⟩

private theorem keepsToOne_writeRegister (hlt : cardNum.toNat < lib.numCards.toNat)
    (offset : BitVec 32) (size : Int) (value : BitVec 32) (e : α) :
    KeepsToOne lib false
      (writeRegister (fun i => (lib.cards i).fd) cardNum offset size value >>= fun _ =>
        pure e) := by
  unfold writeRegister
  split
  · exact ⟨⟨rfl, ⟨_, hlt, rfl⟩, .byte, rfl⟩, fun _ => trivial⟩
  split
  · exact ⟨⟨rfl, ⟨_, hlt, rfl⟩, .word, rfl⟩, fun _ => trivial⟩
  split
  · exact ⟨⟨rfl, ⟨_, hlt, rfl⟩, .dword, rfl⟩, fun _ => trivial⟩
  · exact keepsToOne_printf _ trivial

private theorem keepsToOne_readRegister (hlt : cardNum.toNat < lib.numCards.toNat)
    (offset : BitVec 32) (size : Int) (value : BitVec 32) (e : α) :
    KeepsToOne lib false
      (readRegister (fun i => (lib.cards i).fd) cardNum offset size value >>= fun value =>
        printf (valueText value) >>= fun _ => pure e) := by
  unfold readRegister
  split
  · exact ⟨⟨rfl, ⟨_, hlt, rfl⟩, .word, rfl⟩, fun _ => ⟨trivial, fun _ => trivial⟩⟩
  split
  · exact ⟨⟨rfl, ⟨_, hlt, rfl⟩, .word, rfl⟩, fun _ => ⟨trivial, fun _ => trivial⟩⟩
  split
  · exact ⟨⟨rfl, ⟨_, hlt, rfl⟩, .dword, rfl⟩, fun _ => ⟨trivial, fun _ => trivial⟩⟩
  · exact keepsToOne_printf _ (keepsToOne_printf _ trivial)

private theorem lt_of_queryCardInfo {pDeviceID pBase : Bool} {nameSize : Option (BitVec 64)}
    {pName : Bool}
    {info : CardInfo}
    (h : queryCardInfo lib cardNum pDeviceID pBase nameSize pName = .returned (0, info)) :
    cardNum.toNat < lib.numCards.toNat := by
  by_contra hge
  rw [queryCardInfo, if_pos (BitVec.le_def.mpr (not_lt.mp hge))] at h
  injection h with h
  have hstatus : BitVec.ofInt 32 (-EINVAL) = 0 := congrArg Prod.fst h
  exact absurd hstatus (by decide)

private theorem keepsToOne_access (lib : Statics) (a : Arguments) :
    KeepsToOne lib false (access lib a) := by
  unfold access
  dsimp only
  split
  · trivial
  · next status info hquery =>
      split
      · exact keepsToOne_printf _ trivial
      · next hzero =>
          have hstatus : status = 0 := not_not.mp hzero
          have hlt := lt_of_queryCardInfo (hstatus ▸ hquery)
          split
          · exact keepsToOne_writeRegister hlt _ _ _ _
          · exact keepsToOne_readRegister hlt _ _ _ _

end Calls

/-- Whatever the command line: the program makes one register ioctl at most, on the file of
a card that the library has counted. -/
theorem any_command_line (lib : Statics) (args : List String) :
    (main lib args).Follows (oneIoctl lib) (fun _ _ => True) false := by
  have hinterpret : KeepsToOne lib false (interpret lib args) := by
    unfold interpret
    split
    · trivial
    · exact ⟨trivial, fun _ => ⟨trivial, fun _ => ⟨trivial, fun _ => trivial⟩⟩⟩
    · exact keepsToOne_printf _ (keepsToOne_access lib _)
  unfold main
  dsimp only
  split
  · exact keepsToOne_printf _ hinterpret
  · exact hinterpret

/-! ## What the commands do to the cards -/

def widthOf (size : Int) : Option Width :=
  if size = 1 then some .byte
  else if size = 2 then some .word
  else if size = 4 then some .dword
  else none

/-- The width that `RelInPort` reads where a byte is asked for. -/
def readWidth : Width → Width
  | .byte | .word => .word
  | .dword => .dword

def callOf (a : Arguments) : Option (BitVec 32 × RegisterCall) :=
  (widthOf a.size).map fun w =>
    (BitVec.ofInt 32 a.cardNum, callOfWidth w)
where
  callOfWidth (w : Width) : RegisterCall :=
    if a.write then
      .relOut w (BitVec.ofInt 32 a.offset) ((BitVec.ofInt 32 a.value).setWidth w.bits)
    else .relIn (readWidth w) (BitVec.ofInt 32 a.offset)

def resultText : Result → List String
  | .data _ value => [valueText (value.setWidth 32)]
  | .status _ => []

def shown : List Arguments → List Result → List String
  | a :: as, result :: results => argumentsText a :: resultText result ++ shown as results
  | _, _ => []

def runCommands (lib : Statics) : List (List String) → Prog command (List Exit)
  | [] => pure []
  | args :: lines => do
      let exit ← main lib args
      let exits ← runCommands lib lines
      return exit :: exits

section Running

variable {τ : Type} (g : Handler ioctls τ) {lib : Statics} {a : Arguments}
variable {c : BitVec 32 × RegisterCall}

private theorem eq_bytes_of_widthOf {size : Int} {w : Width} (h : widthOf size = some w) :
    size = w.bytes := by
  unfold widthOf at h
  split at h
  · cases h
    assumption
  split at h
  · cases h
    assumption
  split at h
  · cases h
    assumption
  · cases h

theorem setWidth_and_mask (w : Width) (value mask : BitVec 32)
    (hmask : mask.setWidth w.bits = BitVec.allOnes w.bits) :
    (value &&& mask).setWidth w.bits = value.setWidth w.bits := by
  rw [BitVec.setWidth_and, hmask, BitVec.and_allOnes]

theorem exec_writeRegister (cards : Nat → Int) (cardNum offset value : BitVec 32) (w : Width)
    (t : τ) (texts : List String) :
    (writeRegister cards cardNum offset w.bytes value).exec (g.sum screen) (t, texts) =
      ((), (((relOut cards cardNum offset w (value.setWidth w.bits)).exec g t).2, texts)) := by
  cases w with
  | byte =>
      rw [← setWidth_and_mask .byte value 0xff rfl]
      rfl
  | word =>
      rw [← setWidth_and_mask .word value 0xffff rfl]
      rfl
  | dword =>
      rw [← setWidth_and_mask .dword value 0xffffffff rfl]
      have hself : ∀ x : BitVec 32, x.setWidth Width.dword.bits = x := BitVec.setWidth_eq
      rw [hself]
      rfl

theorem exec_readRegister (cards : Nat → Int) (cardNum offset value : BitVec 32) (w : Width)
    (t : τ) (texts : List String) :
    (readRegister cards cardNum offset w.bytes value).exec (g.sum screen) (t, texts) =
      (((relIn cards cardNum offset (readWidth w)).exec g t).1.setWidth 32,
        (((relIn cards cardNum offset (readWidth w)).exec g t).2, texts)) := by
  cases w with
  | byte | word => rfl
  | dword =>
      have hself : ((relIn cards cardNum offset .dword).exec g t).1.setWidth 32 =
          ((relIn cards cardNum offset .dword).exec g t).1 := BitVec.setWidth_eq _
      simp only [readWidth, hself]
      rfl

private theorem exec_access (hcall : callOf a = some c) {info : CardInfo}
    (hquery : queryCardInfo lib c.1 true true (some 512) true = .returned (0, info)) (t : τ)
    (texts : List String) :
    (access lib a).exec (g.sum screen) (t, texts) =
      (.returned 0, (((c.2.run lib c.1).exec g t).2,
        texts ++ resultText ((c.2.run lib c.1).exec g t).1)) := by
  obtain ⟨w, hw, rfl⟩ := Option.map_eq_some_iff.mp hcall
  have hsize := eq_bytes_of_widthOf hw
  unfold access
  dsimp only at hquery ⊢
  rw [hquery, hsize, callOf.callOfWidth]
  dsimp only
  rw [if_neg (not_not.mpr rfl)]
  cases a.write with
  | true =>
      rw [if_pos rfl, if_pos rfl, Prog.exec_bind, exec_writeRegister, RegisterCall.run,
        Prog.exec_bind]
      exact congrArg (fun l => (_, (_, l))) (List.append_nil texts).symm
  | false =>
      rw [if_neg Bool.false_ne_true, if_neg Bool.false_ne_true, Prog.exec_bind,
        exec_readRegister, RegisterCall.run, Prog.exec_bind]
      rfl

theorem noCardsText_of_lt {cardNum : BitVec 32} (hlt : cardNum < lib.numCards) :
    noCardsText lib = [] := by
  refine if_neg fun hzero => ?_
  have hnat : ((getNumCards lib).setWidth 32).toNat = 0 := congrArg BitVec.toNat hzero
  simp only [getNumCards, BitVec.toNat_setWidth] at hnat
  have hpos : cardNum.toNat < lib.numCards.toNat := hlt
  have hfits : lib.numCards.toNat < 2 ^ 32 := lib.numCards.isLt
  omega

theorem exec_main_call {args : List String} (hargs : readArguments args = .ok (some a))
    (hcall : callOf a = some c) (hlt : c.1 < lib.numCards) {info : CardInfo}
    (hquery : queryCardInfo lib c.1 true true (some 512) true = .returned (0, info)) (t : τ)
    (texts : List String) :
    (main lib args).exec (g.sum screen) (t, texts) =
      (.returned 0, (((c.2.run lib c.1).exec g t).2,
        texts ++ argumentsText a :: resultText ((c.2.run lib c.1).exec g t).1)) := by
  rw [exec_main, hargs, noCardsText_of_lt hlt, List.append_nil]
  refine (exec_access g hcall hquery t (texts ++ [argumentsText a])).trans ?_
  rw [List.append_assoc]
  rfl

end Running

/-! ## Giving back what was printed -/

def Line.append (line : Line) (text : String) (n : Int) : Line :=
  match line.rest with
  | none => ⟨line.parts ++ [.number text n], none⟩
  | some numbers => ⟨line.parts, some (numbers ++ [(text, n)])⟩

section Append

variable {line : Line} {text : String} {n : Int}

private theorem args_append (line : Line) (text : String) (n : Int) :
    (line.append text n).args = line.args ++ [text] := by
  obtain ⟨parts, _ | numbers⟩ := line
  · simp [Line.append, Line.args, Part.word, Word.args]
  · simp [Line.append, Line.args]

private theorem numbers_append (line : Line) (text : String) (n : Int) :
    (line.append text n).numbers = line.numbers ++ [n] := by
  obtain ⟨parts, _ | numbers⟩ := line
  · simp [Line.append, Line.numbers, Part.number?]
  · simp [Line.append, Line.numbers]

private theorem isWritten_append (h : line.IsWritten) (hspells : Spells 16 text.toList n)
    (hsign : text.toList.head? ≠ some '-') : (line.append text n).IsWritten := by
  obtain ⟨parts, _ | numbers⟩ := line
  · refine ⟨fun part hpart => ?_, h.rest⟩
    rcases List.mem_append.mp hpart with hpart | hlast
    · exact h.parts part hpart
    · obtain rfl := List.mem_singleton.mp hlast
      exact ⟨hspells, fun _ => hsign⟩
  · refine ⟨h.parts, fun number hnumber => ?_⟩
    rcases List.mem_append.mp hnumber with hnumber | hlast
    · exact h.rest number hnumber
    · obtain rfl := List.mem_singleton.mp hlast
      exact hspells

private theorem options_append (line : Line) (text : String) (n : Int) :
    (line.append text n).parts.filterMap Part.card? = line.parts.filterMap Part.card? ∧
      (line.append text n).parts.filterMap Part.size? = line.parts.filterMap Part.size? ∧
      ((∀ part ∈ (line.append text n).parts, part.number? = none → InInt part.value) ↔
        ∀ part ∈ line.parts, part.number? = none → InInt part.value) := by
  obtain ⟨parts, _ | numbers⟩ := line
  · simp [Line.append, Part.card?, Part.size?, Part.number?, or_imp, forall_and]
  · exact ⟨rfl, rfl, Iff.rfl⟩

private theorem asks_append {a : Arguments} (hasks : line.asks = .ok (some a))
    (hread : a.write = false)
    (text : String) (n : Int) :
    (line.append text n).asks =
      if InInt n then .ok (some { a with value := n, write := true }) else .error .outOfRange := by
  obtain ⟨hcard, hsize, hoptions⟩ := options_append line text n
  rw [Line.asks] at hasks ⊢
  rw [hcard, hsize, if_congr hoptions rfl rfl, numbers_append]
  split at hasks
  · next hall =>
      rw [if_pos hall]
      split at hasks
      · next offset hnumbers =>
          split at hasks
          · next hoffset =>
              cases hasks
              rw [hnumbers]
              by_cases hn : InInt n
              · simp [hn, hoffset]
              · simp [hn]
          · cases hasks
      · split at hasks <;> cases hasks
        cases hread
      · cases hasks
  · cases hasks

end Append

private theorem toList_printed (n : Nat) :
    ("0x" ++ hex n).toList = '0' :: 'x' :: Nat.toDigits 16 n := by
  rw [String.toList_append, hex, String.toList_ofList, String.toList_ofList]
  rfl

private theorem spells_printed (n : Nat) : Spells 16 ("0x" ++ hex n).toList n := by
  rw [toList_printed]
  exact .unsigned (.prefixed (.inl rfl) (numeral_toDigits n))

private theorem inInt_iff (value : BitVec 32) : InInt value.toNat ↔ value.toNat < 2 ^ 31 := by
  unfold InInt
  omega

theorem queryCardInfo_described {lib : Statics} {cardNum : BitVec 32}
    (hlt : cardNum < lib.numCards) {d : Driver.DescriptorGet.CardDescriptor}
    (hd : (lib.cards cardNum.toNat).descriptor = some d) :
    ∃ info, queryCardInfo lib cardNum true true (some 512) true = .returned (0, info) := by
  rw [queryCardInfo, if_neg (BitVec.not_le.mpr hlt), hd]
  exact ⟨_, rfl⟩

/-- What a read prints, given back as one more operand of the same line, is written to
where it was read; where its top bit is set, the program ends before it prints or does
anything. -/
theorem printed_value_read_back {τ : Type} (g : Handler ioctls τ) (lib : Statics) (line : Line)
    (h : line.IsWritten) (a : Arguments) (hasks : line.asks = .ok (some a))
    (hread : a.write = false) (w : Width) (hsize : widthOf a.size = some w)
    (hlt : BitVec.ofInt 32 a.cardNum < lib.numCards)
    (hcard : (lib.cards (BitVec.ofInt 32 a.cardNum).toNat).descriptor.isSome) (t : τ) :
    let cards := fun i => (lib.cards i).fd
    let cardNum := BitVec.ofInt 32 a.cardNum
    let offset := BitVec.ofInt 32 a.offset
    let result := (relIn cards cardNum offset (readWidth w)).exec g t
    let value : BitVec 32 := result.1.setWidth 32
    ∃ text, (main lib line.args).exec (g.sum screen) (t, []) =
        (.returned 0, (result.2, [argumentsText a, "value = " ++ text ++ "\n"])) ∧
      ∀ u, (main lib (line.args ++ [text])).exec (g.sum screen) (u, []) =
        if value.toNat < 2 ^ 31 then
          (.returned 0,
            (((relOut cards cardNum offset w (value.setWidth w.bits)).exec g u).2,
              [argumentsText { a with value := value.toNat, write := true }]))
        else (.terminated .outOfRange, (u, [])) := by
  intro cards cardNum offset result value
  obtain ⟨d, hd⟩ := Option.isSome_iff_exists.mp hcard
  obtain ⟨info, hquery⟩ := queryCardInfo_described hlt hd
  refine ⟨"0x" ++ hex value.toNat, ?_, fun u => ?_⟩
  · have hcall : callOf a = some (cardNum, .relIn (readWidth w) offset) := by
      simp [callOf, callOf.callOfWidth, hsize, hread, cardNum, offset]
    have hargs := (readArguments_line h).trans hasks
    have hsplit : "value = 0x" = "value = " ++ "0x" := by decide
    have htext : valueText value = "value = " ++ ("0x" ++ hex value.toNat) ++ "\n" := by
      simp only [valueText, hsplit, String.append_assoc]
    rw [exec_main_call g hargs hcall hlt hquery t [], RegisterCall.run, Prog.exec_bind, ← htext]
    rfl
  · have hwritten := isWritten_append h (spells_printed value.toNat) (by simp)
    have hargs := (readArguments_line hwritten).trans (asks_append hasks hread _ _)
    rw [args_append, if_congr (inInt_iff value) rfl rfl] at hargs
    split
    · next hsmall =>
        rw [if_pos hsmall] at hargs
        have hcall : callOf { a with value := value.toNat, write := true } =
            some (cardNum, .relOut w offset (value.setWidth w.bits)) := by
          simp [callOf, callOf.callOfWidth, hsize, cardNum, offset]
        rw [exec_main_call g hargs hcall hlt hquery u [], RegisterCall.run, Prog.exec_bind]
        rfl
    · next hlarge =>
        rw [if_neg hlarge] at hargs
        rw [exec_main, hargs, noCardsText_of_lt hlt]
        rfl

def Asks (line : Line) (x : Arguments × (BitVec 32 × RegisterCall)) : Prop :=
  line.asks = .ok (some x.1) ∧ callOf x.1 = some x.2

/-- Commands make the calls that their lines lead to. -/
theorem exec_runCommands {τ : Type} (g : Handler ioctls τ) {lib : Statics} {lines : List Line}
    {asked : List (Arguments × (BitVec 32 × RegisterCall))}
    (hwritten : ∀ line ∈ lines, line.IsWritten) (hasks : lines.Forall₂ Asks asked)
    (hcounted : ∀ x ∈ asked, x.2.1 < lib.numCards ∧ ∃ info,
      queryCardInfo lib x.2.1 true true (some 512) true = .returned (0, info))
    (t : τ) (texts : List String) :
    (runCommands lib (lines.map Line.args)).exec (g.sum screen) (t, texts) =
      (List.replicate lines.length (.returned 0),
        (((runCalls lib (asked.map Prod.snd)).exec g t).2,
          texts ++ shown (asked.map Prod.fst)
            ((runCalls lib (asked.map Prod.snd)).exec g t).1)) := by
  induction hasks generalizing t texts with
  | nil => exact congrArg (fun l => (_, (_, l))) (List.append_nil texts).symm
  | @cons line x lines asked hline hasks ih =>
      obtain ⟨hlt, info, hquery⟩ := hcounted x List.mem_cons_self
      have hargs := (readArguments_line (hwritten line List.mem_cons_self)).trans hline.1
      have hmain := exec_main_call g hargs hline.2 hlt hquery t texts
      have hrest := ih (fun l hl => hwritten l (List.mem_cons_of_mem line hl))
        (fun y hy => hcounted y (List.mem_cons_of_mem x hy))
      rw [List.map_cons, runCommands, Prog.exec_bind, hmain]
      dsimp only
      rw [Prog.exec_bind, hrest, List.map_cons, List.map_cons, runCalls, Prog.exec_bind,
        Prog.exec_bind]
      exact Prod.ext rfl (Prod.ext rfl (List.append_assoc _ _ _))

def answering (data : BitVec 32) : Handler ioctls (List RegisterIoContext)
  | .registerIo _ context, requests => ((0, { context with data }), requests ++ [context])

def oneCard : Statics where
  cards := fun _ => ⟨3, some ⟨0xc2ef, 0xe000, 0x100, 24, "pcie_adio16_16fds", fun _ => 0⟩⟩
  numCards := 1
  initComplete := true

def wordBelow : Line := ⟨[.size true "2" 2], some [("-4", -4)]⟩
def dwordAt : Line := ⟨[.number "4" 4], none⟩

private theorem isWritten_wordBelow : wordBelow.IsWritten := by
  refine ⟨fun part hpart => ?_, fun number hnumber => ?_⟩
  · obtain rfl := List.mem_singleton.mp hpart
    exact ⟨spells_digit (n := 2) (by decide), fun hnone => by cases hnone⟩
  · obtain rfl := List.mem_singleton.mp hnumber
    exact .minus (.plain ⟨[4], by simp, by decide +kernel, by decide⟩)

private theorem isWritten_dwordAt : dwordAt.IsWritten := by
  refine ⟨fun part hpart => ?_, fun _ hnone => by cases hnone⟩
  obtain rfl := List.mem_singleton.mp hpart
  exact ⟨spells_digit (n := 4) (by decide), fun _ => by decide⟩

/-- A word at a minus offset is written back; a double word with its top bit set is not. -/
theorem printed_value_read_back_twice :
    (∃ text, (main oneCard ["-s2", "--", "-4"]).exec ((answering 0xcafe).sum screen) ([], []) =
        (.returned 0, ([inRequest (-4) .word],
          [argumentsText ⟨0, 2, -4, 0, false⟩, "value = " ++ text ++ "\n"])) ∧
      (main oneCard ["-s2", "--", "-4", text]).exec ((answering 0xcafe).sum screen) ([], []) =
        (.returned 0, ([outRequest (-4) .word 0xcafe],
          [argumentsText ⟨0, 2, -4, 0xcafe, true⟩]))) ∧
    ∃ text, (main oneCard ["4"]).exec ((answering 0x80000000).sum screen) ([], []) =
        (.returned 0, ([inRequest 4 .dword],
          [argumentsText ⟨0, 4, 4, 0, false⟩, "value = " ++ text ++ "\n"])) ∧
      (main oneCard ["4", text]).exec ((answering 0x80000000).sum screen) ([], []) =
        (.terminated .outOfRange, ([], [])) := by
  constructor
  · obtain ⟨text, hprinted, hback⟩ := printed_value_read_back (answering 0xcafe) oneCard wordBelow
      isWritten_wordBelow ⟨0, 2, -4, 0, false⟩ rfl rfl .word rfl (by decide) rfl []
    exact ⟨text, hprinted, (hback []).trans (if_pos (by decide))⟩
  · obtain ⟨text, hprinted, hback⟩ := printed_value_read_back (answering 0x80000000) oneCard dwordAt
      isWritten_dwordAt ⟨0, 4, 4, 0, false⟩ rfl rfl .dword rfl (by decide) rfl []
    exact ⟨text, hprinted, (hback []).trans (if_neg (by decide))⟩

/-! ## Through the whole stack -/

/-- However its lines are written, a sequence of commands does to the cards what its reads
and writes do to an array with a row for each card, one access for each command, and
prints what they return. -/
theorem commands_refine_array {σ τ : Type} (host : Host) (k : Handler sys τ) (t t' : τ)
    (dir : Option (List String)) (memory : Nat → Card) (lib : Statics)
    (hinit : (aiowdmInit dir (.zeroed memory)).exec (host.descriptorFiles k) t =
      (.returned lib, t'))
    (bar : PciDev → Fin PCI_STD_NUM_BARS) (dev : Nat → PciDev) (hown : OwnCards host bar lib dev)
    (h : Handler io σ) (mem : σ → PciDev → Bytes) (hmem : ActsAsMemory host bar h mem) (s : σ)
    (lines : List Line) (hwritten : ∀ line ∈ lines, line.IsWritten)
    (asked : List (Arguments × (BitVec 32 × RegisterCall))) (hasks : lines.Forall₂ Asks asked)
    (hvalid : ∀ x ∈ asked, ValidCall host bar lib dev x.2) :
    ∃ s' accesses, (runCommands lib (lines.map Line.args)).exec
        ((host.registerFiles h.record).sum screen) ((s, []), []) =
          (List.replicate lines.length (.returned 0), ((s', accesses),
            shown (asked.map Prod.fst)
              (arrayCalls (fun i => mem s (dev i)) (asked.map Prod.snd)).1)) ∧
      Holds host bar lib dev (mem s')
        (arrayCalls (fun i => mem s (dev i)) (asked.map Prod.snd)).2 ∧
      (asked.map Prod.snd).Forall₂ (OneAccess host lib dev) accesses := by
  have hdesc := described_aiowdmInit hinit
  have hcalls : ∀ c ∈ asked.map Prod.snd, ValidCall host bar lib dev c := by
    intro c hc
    obtain ⟨x, hx, rfl⟩ := List.mem_map.mp hc
    exact hvalid x hx
  obtain ⟨s', accesses, hexec, hholds, hall⟩ :=
    exec_runCalls (s := s) hdesc hown hmem hcalls (fun _ _ _ _ => rfl) []
  have hcounted : ∀ x ∈ asked, x.2.1 < lib.numCards ∧ ∃ info,
      queryCardInfo lib x.2.1 true true (some 512) true = .returned (0, info) := by
    intro x hx
    obtain ⟨d, dev', -, hdescriptor⟩ := hdesc x.2.1.toNat (hvalid x hx).1
    exact ⟨(hvalid x hx).1, queryCardInfo_described (hvalid x hx).1 hdescriptor⟩
  refine ⟨s', accesses, ?_, hholds, hall⟩
  have hrun := exec_runCommands (host.registerFiles h.record) hwritten hasks hcounted (s, []) []
  exact hrun.trans (congrArg (fun r : List Result × (σ × List IoCall) =>
    (List.replicate lines.length (Exit.returned 0), (r.2, shown (asked.map Prod.fst) r.1))) hexec)

def wordAndByte : List Line :=
  [⟨[.size false "2" 2, .number "4" 4, .number "0x1234" 0x1234], none⟩,
    ⟨[.number "4" 4, .size true "1" 1], none⟩]

private theorem isWritten_wordAndByte : ∀ line ∈ wordAndByte, line.IsWritten := by
  have hword : Spells 16 "0x1234".toList 0x1234 :=
    .unsigned (.prefixed (.inl rfl) ⟨[1, 2, 3, 4], by decide, by decide +kernel, by decide⟩)
  intro line hline
  simp only [wordAndByte, List.mem_cons, List.not_mem_nil, or_false] at hline
  rcases hline with rfl | rfl
  · refine ⟨fun part hpart => ?_, fun _ hnone => by cases hnone⟩
    simp only [List.mem_cons, List.not_mem_nil, or_false] at hpart
    rcases hpart with rfl | rfl | rfl
    · exact ⟨spells_digit (n := 2) (by decide), fun hnone => by cases hnone⟩
    · exact ⟨spells_digit (n := 4) (by decide), fun _ => by decide⟩
    · exact ⟨hword, fun _ => by decide⟩
  · refine ⟨fun part hpart => ?_, fun _ hnone => by cases hnone⟩
    simp only [List.mem_cons, List.not_mem_nil, or_false] at hpart
    rcases hpart with rfl | rfl
    · exact ⟨spells_digit (n := 4) (by decide), fun _ => by decide⟩
    · exact ⟨spells_digit (n := 1) (by decide), fun hnone => by cases hnone⟩

theorem commands_refine_array_wordAndByte :
    ∃ lib, (aiowdmInit (some ["pcie-dio-24", "mpcie-dio-24s"]) (.zeroed fun _ => ⟨0, none⟩)).exec
        (twoCards.descriptorFiles openInTurn) 0 = (.returned lib, 2) ∧
      ∃ m accesses, (runCommands lib
          [["-s", "2", "4", "0x1234"], ["4", "-s1"]]).exec
          ((twoCards.registerFiles (ram twoCards fun _ => 1).record).sum screen)
            ((fun _ _ => 0, []), []) =
        ([.returned 0, .returned 0], ((m, accesses),
          [argumentsText ⟨0, 2, 4, 0x1234, true⟩, argumentsText ⟨0, 1, 4, 0, false⟩,
            "value = 0x1234\n"])) := by
  obtain ⟨lib, hinit, hcount, hfst, hsnd⟩ := aiowdmInit_twoCards
  have hown := ownCards_twoCards hcount hfst hsnd
  obtain ⟨m, accesses, hexec, -⟩ := commands_refine_array twoCards openInTurn 0 2
    (some ["pcie-dio-24", "mpcie-dio-24s"]) (fun _ => ⟨0, none⟩) lib hinit (fun _ => 1) id hown
    (ram twoCards fun _ => 1) id (actsAsMemory_ram twoCards fun _ => 1) (fun _ _ => 0)
    wordAndByte isWritten_wordAndByte
    [(⟨0, 2, 4, 0x1234, true⟩, (0, .relOut .word 4 0x1234)),
      (⟨0, 1, 4, 0, false⟩, (0, .relIn .word 4))] (.cons ⟨rfl, rfl⟩ (.cons ⟨rfl, rfl⟩ .nil)) (by
        simp only [List.forall_mem_cons, ValidCall, hcount]
        decide)
  have hshown : valueText ((0x1234 : BitVec 16).setWidth 32) = "value = 0x1234\n" := by
    decide +kernel
  refine ⟨lib, hinit, m, accesses, hexec.trans ?_⟩
  rw [← hshown]
  rfl

end Aiowdm.Proofs.RegisterCommands
