import Mathlib.Logic.Basic
import Mathlib.Tactic.Common

/-!
# Reading a command line

What a C or C++ program reads its arguments with: `getopt`, which may find the options
anywhere among the other arguments, and `std::stoi`, which reads a number at the front of
a string.
-/

namespace Aiowdm.Lib.CommandLine

/-! ## Numbers -/

def isSpace (c : Char) : Bool := c == ' ' || (9 ≤ c.toNat && c.toNat ≤ 13)

/-- Letters count on from ten. -/
def digitValue (c : Char) : Option Nat :=
  if c.isDigit then some (c.toNat - '0'.toNat)
  else if c.isLower then some (c.toNat - 'a'.toNat + 10)
  else if c.isUpper then some (c.toNat - 'A'.toNat + 10)
  else none

def digit (base : Nat) (c : Char) : Option Nat := (digitValue c).filter (· < base)

def digits (base : Nat) : List Char → List Nat
  | [] => []
  | c :: s =>
      match digit base c with
      | none => []
      | some d => d :: digits base s

def value (base : Nat) (ds : List Nat) : Nat := ds.foldl (fun n d => base * n + d) 0

/-- In base 16 a digit may have `0x` before it. -/
def skipPrefix (base : Nat) : List Char → List Char
  | '0' :: x :: c :: s =>
      if base = 16 ∧ (x = 'x' ∨ x = 'X') ∧ (digit 16 c).isSome then c :: s
      else '0' :: x :: c :: s
  | s => s

def splitSign : List Char → Bool × List Char
  | '-' :: s => (true, s)
  | '+' :: s => (false, s)
  | s => (false, s)

/-- What `std::stoi` throws. -/
inductive StoiError where
  | invalidArgument
  | outOfRange
deriving DecidableEq, Repr

def asInt (v : Int) : Except StoiError Int :=
  if -0x80000000 ≤ v ∧ v < 0x80000000 then .ok v else .error .outOfRange

/-- `std::stoi (str, nullptr, base)`.  What follows the number is not looked at. -/
def stoi (base : Nat) (str : String) : Except StoiError Int :=
  let (negative, s) := splitSign (str.toList.dropWhile isSpace)
  match digits base (skipPrefix base s) with
  | [] => .error .invalidArgument
  | ds => asInt (if negative then -(value base ds : Int) else value base ds)

/-- `%x` of `printf`. -/
def hex (n : Nat) : String := String.ofList (Nat.toDigits 16 n)

/-! ## How a number may be written -/

def Numeral (base : Nat) (s : List Char) (n : Nat) : Prop :=
  ∃ ds, ds ≠ [] ∧ s.map (digit base) = ds.map some ∧ value base ds = n

inductive Unsigned : Nat → List Char → Nat → Prop
  | plain {base : Nat} {s : List Char} {n : Nat} : Numeral base s n → Unsigned base s n
  | prefixed {x : Char} {s : List Char} {n : Nat} :
      x = 'x' ∨ x = 'X' → Numeral 16 s n → Unsigned 16 ('0' :: x :: s) n

inductive Spells : Nat → List Char → Int → Prop
  | unsigned {base : Nat} {s : List Char} {n : Nat} : Unsigned base s n → Spells base s n
  | plus {base : Nat} {s : List Char} {n : Nat} : Unsigned base s n → Spells base ('+' :: s) n
  | minus {base : Nat} {s : List Char} {n : Nat} : Unsigned base s n → Spells base ('-' :: s) (-n)

section Reading

variable {base n d : Nat} {c : Char} {s : List Char}

theorem toNat_of_digitValue (h : digitValue c = some d) : '0'.toNat ≤ c.toNat := by
  have hle : ∀ x : Char, '0' ≤ x → '0'.toNat ≤ x.toNat := fun _ hx => hx
  have htrans : ∀ x : Char, '0' ≤ x → x ≤ c → '0'.toNat ≤ c.toNat :=
    fun x hx hc => Nat.le_trans (hle x hx) hc
  unfold digitValue at h
  split at h
  · next hdigit =>
      exact of_decide_eq_true (Bool.and_eq_true_iff.mp hdigit).1
  · split at h
    · next hlower =>
        exact htrans 'a' (by decide) (of_decide_eq_true (Bool.and_eq_true_iff.mp hlower).1)
    · split at h
      · next hupper =>
          exact htrans 'A' (by decide) (of_decide_eq_true hupper).1
      · cases h

theorem plain_of_digit (h : digit base c = some d) : isSpace c = false ∧ c ≠ '-' ∧ c ≠ '+' := by
  have hle := toNat_of_digitValue (Option.filter_eq_some_iff.mp h).1
  change 48 ≤ c.toNat at hle
  refine ⟨?_, ?_, ?_⟩
  · unfold isSpace
    have hne : c ≠ ' ' := by
      rintro rfl
      exact absurd hle (by decide)
    have hlarge : ¬c.toNat ≤ 13 := by omega
    simp [hne, hlarge]
  · rintro rfl
    exact absurd hle (by decide)
  · rintro rfl
    exact absurd hle (by decide)

theorem ne_x_of_digit (h : digit 16 c = some d) : ¬(c = 'x' ∨ c = 'X') := by
  rintro (rfl | rfl) <;> cases h

theorem digits_of_map {ds : List Nat} (h : s.map (digit base) = ds.map some) :
    digits base s = ds := by
  induction s generalizing ds with
  | nil =>
      rw [List.map_nil] at h
      exact (List.map_eq_nil_iff.mp h.symm).symm
  | cons c s ih =>
      cases ds with
      | nil => cases h
      | cons d ds =>
          obtain ⟨hc, hs⟩ := List.cons.inj h
          rw [digits, hc]
          exact congrArg (d :: ·) (ih hs)

theorem skipPrefix_of_map {ds : List Nat} (h : s.map (digit base) = ds.map some) :
    skipPrefix base s = s := by
  unfold skipPrefix
  split
  · next x c s =>
      rw [if_neg]
      rintro ⟨rfl, hx, -⟩
      cases ds with
      | nil => cases h
      | cons d ds =>
        cases ds with
        | nil => cases h
        | cons e ds =>
            obtain ⟨-, htail⟩ := List.cons.inj h
            obtain ⟨hdigit, -⟩ := List.cons.inj htail
            exact ne_x_of_digit hdigit hx
  · rfl

theorem digits_unsigned (h : Unsigned base s n) :
    ∃ ds, ds ≠ [] ∧ digits base (skipPrefix base s) = ds ∧ value base ds = n := by
  cases h with
  | plain hnumeral =>
      obtain ⟨ds, hne, hmap, hvalue⟩ := hnumeral
      exact ⟨ds, hne, by rw [skipPrefix_of_map hmap, digits_of_map hmap], hvalue⟩
  | @prefixed x s n hx hnumeral =>
      obtain ⟨ds, hne, hmap, hvalue⟩ := hnumeral
      refine ⟨ds, hne, ?_, hvalue⟩
      cases ds with
      | nil => exact absurd rfl hne
      | cons d ds =>
        cases s with
        | nil => cases hmap
        | cons c s =>
            have hc : (digit 16 c).isSome := by
              rw [(List.cons.inj hmap).1]
              rfl
            have hskip : skipPrefix 16 ('0' :: x :: c :: s) = c :: s := if_pos ⟨rfl, hx, hc⟩
            rw [hskip, digits_of_map hmap]

theorem unsigned_cons (h : Unsigned base s n) :
    ∃ c s', s = c :: s' ∧ isSpace c = false ∧ c ≠ '-' ∧ c ≠ '+' := by
  cases h with
  | prefixed => exact ⟨'0', _, rfl, by decide, by decide, by decide⟩
  | plain hnumeral =>
      obtain ⟨ds, hne, hmap, -⟩ := hnumeral
      cases s with
      | nil => exact absurd (List.map_eq_nil_iff.mp hmap.symm) hne
      | cons c s =>
        cases ds with
        | nil => exact absurd rfl hne
        | cons d ds => exact ⟨c, s, rfl, plain_of_digit (List.cons.inj hmap).1⟩

theorem splitSign_unsigned (h : Unsigned base s n) :
    splitSign s = (false, s) ∧ s.dropWhile isSpace = s := by
  obtain ⟨c, s', rfl, hspace, hminus, hplus⟩ := unsigned_cons h
  refine ⟨?_, List.dropWhile_cons_of_neg (by simp [hspace])⟩
  unfold splitSign
  split
  · next heq => exact absurd (List.cons.inj heq).1 hminus
  · next heq => exact absurd (List.cons.inj heq).1 hplus
  · rfl

theorem stoi_of_splitSign {str : String} {negative : Bool}
    (hsign : splitSign (str.toList.dropWhile isSpace) = (negative, s)) (h : Unsigned base s n) :
    stoi base str = asInt (if negative then -(n : Int) else n) := by
  obtain ⟨ds, hne, hdigits, hvalue⟩ := digits_unsigned h
  simp only [stoi, hsign, hdigits]
  cases ds with
  | nil => exact absurd rfl hne
  | cons d ds => simp only [hvalue]

/-- However a number is written, `std::stoi` reads it, or finds it out of range. -/
theorem stoi_spells {str : String} {v : Int} (h : Spells base str.toList v) :
    stoi base str = asInt v := by
  generalize hs : str.toList = s at h
  cases h with
  | unsigned hunsigned =>
      obtain ⟨hsign, hspace⟩ := splitSign_unsigned hunsigned
      have hsplit : splitSign (str.toList.dropWhile isSpace) = (false, s) := by
        rw [hs, hspace, hsign]
      simpa using stoi_of_splitSign hsplit hunsigned
  | @plus s n hunsigned =>
      have hsplit : splitSign (str.toList.dropWhile isSpace) = (false, s) := by
        rw [hs, List.dropWhile_cons_of_neg (by decide), splitSign]
      simpa using stoi_of_splitSign hsplit hunsigned
  | @minus s n hunsigned =>
      have hsplit : splitSign (str.toList.dropWhile isSpace) = (true, s) := by
        rw [hs, List.dropWhile_cons_of_neg (by decide), splitSign]
      simpa using stoi_of_splitSign hsplit hunsigned

theorem ne_nil_of_spells {v : Int} (h : Spells base s v) : s ≠ [] := by
  cases h with
  | unsigned hunsigned =>
      obtain ⟨c, s', rfl, -⟩ := unsigned_cons hunsigned
      exact List.cons_ne_nil c s'
  | plus | minus => exact List.cons_ne_nil _ _

end Reading

theorem digit_digitChar {n : Nat} (hn : n < 16) : digit 16 n.digitChar = some n := by
  have hall : ∀ n < 16, digit 16 (Nat.digitChar n) = some n := by decide +kernel
  exact hall n hn

theorem numeral_toDigits (n : Nat) : Numeral 16 (Nat.toDigits 16 n) n := by
  induction n using Nat.base_induction 16 (by decide) with
  | single m hm =>
      refine ⟨[m], List.cons_ne_nil _ _, ?_, by simp [value]⟩
      rw [Nat.toDigits_of_lt_base hm]
      exact congrArg ([·]) (digit_digitChar hm)
  | digit m k hk hm ih =>
      obtain ⟨ds, hne, hmap, hvalue⟩ := ih
      refine ⟨ds ++ [k], by simp, ?_, ?_⟩
      · rw [← Nat.toDigits_append_toDigits (by decide) hm hk, Nat.toDigits_of_lt_base hk,
          List.map_append, List.map_append, hmap]
        exact congrArg (ds.map some ++ [·]) (digit_digitChar hk)
      · rw [value, List.foldl_append]
        exact congrArg (16 * · + k) hvalue

/-! ## Options -/

/-- What one call of `getopt` returns, with `optarg` where the option takes an argument. -/
inductive Opt where
  | option (c : Char) (optarg : Option String)
  | unknown (c : Char)
  | missing (c : Char)
deriving DecidableEq, Repr

/-- The options of one argument; an option that is still to get its own argument comes
last. -/
def cluster (takesArgument : Char → Option Bool) : List Char → List Opt × Option Char
  | [] => ([], none)
  | c :: cs =>
      match takesArgument c with
      | none =>
          let (opts, last) := cluster takesArgument cs
          (.unknown c :: opts, last)
      | some false =>
          let (opts, last) := cluster takesArgument cs
          (.option c none :: opts, last)
      | some true =>
          match cs with
          | [] => ([], some c)
          | cs => ([.option c (some (String.ofList cs))], none)

/-- What all calls of `getopt` return, and the arguments that are then behind `optind`.
`takesArgument` is `none` for what is no option. -/
def getopt (takesArgument : Char → Option Bool) : List String → List Opt × List String
  | [] => ([], [])
  | arg :: args =>
      if arg = "--" then ([], args)
      else
        match arg.toList with
        | '-' :: c :: cs =>
            match cluster takesArgument (c :: cs) with
            | (opts, none) =>
                let (opts', operands) := getopt takesArgument args
                (opts ++ opts', operands)
            | (opts, some c) =>
                match args with
                | [] => (opts ++ [.missing c], [])
                | optarg :: args =>
                    let (opts', operands) := getopt takesArgument args
                    (opts ++ .option c (some optarg) :: opts', operands)
        | _ =>
            let (opts, operands) := getopt takesArgument args
            (opts, arg :: operands)

/-- An option with its argument, in one word or in two, or an operand. -/
inductive Word where
  | option (c : Char) (attached : Bool) (optarg : String)
  | operand (arg : String)
deriving DecidableEq, Repr

namespace Word

def args : Word → List String
  | option c true optarg => [String.ofList ('-' :: c :: optarg.toList)]
  | option c false optarg => [String.ofList ['-', c], optarg]
  | operand arg => [arg]

def opt : Word → Option Opt
  | option c _ optarg => some (.option c (some optarg))
  | operand _ => none

def operand? : Word → Option String
  | option _ _ _ => none
  | operand arg => some arg

/-- A word that `getopt` takes for what it is. -/
def IsPlain (takesArgument : Char → Option Bool) : Word → Prop
  | option c attached optarg =>
      takesArgument c = some true ∧ c ≠ '-' ∧ (attached = true → optarg ≠ "")
  | operand arg => arg.toList.head? ≠ some '-' ∨ arg = "-"

end Word

section Getopt

variable {takesArgument : Char → Option Bool}

theorem getopt_operand {arg : String} (h : arg.toList.head? ≠ some '-' ∨ arg = "-")
    (rest : List String) :
    getopt takesArgument (arg :: rest) =
      ((getopt takesArgument rest).1, arg :: (getopt takesArgument rest).2) := by
  have hne : arg ≠ "--" := by
    rintro rfl
    rcases h with hhead | heq
    · exact hhead rfl
    · exact absurd heq (by decide)
  rw [getopt, if_neg hne]
  split
  · next c cs harg =>
      rcases h with hhead | rfl
      · exact absurd (by rw [harg]; rfl) hhead
      · cases harg
  · rfl

theorem getopt_option {c : Char} {cs : List Char} (hne : ¬(c = '-' ∧ cs = []))
    (rest : List String) :
    getopt takesArgument (String.ofList ('-' :: c :: cs) :: rest) =
      match cluster takesArgument (c :: cs) with
      | (opts, none) =>
          (opts ++ (getopt takesArgument rest).1, (getopt takesArgument rest).2)
      | (opts, some c) =>
          match rest with
          | [] => (opts ++ [.missing c], [])
          | optarg :: rest =>
              (opts ++ .option c (some optarg) :: (getopt takesArgument rest).1,
                (getopt takesArgument rest).2) := by
  have hword : String.ofList ('-' :: c :: cs) ≠ "--" := by
    intro heq
    have hlist := congrArg String.toList heq
    rw [String.toList_ofList] at hlist
    obtain ⟨hc, hcs⟩ := List.cons.inj (List.cons.inj hlist).2
    exact hne ⟨hc, hcs⟩
  rw [getopt, if_neg hword, String.toList_ofList]
  rfl

theorem getopt_word {word : Word} (h : word.IsPlain takesArgument) (rest : List String) :
    getopt takesArgument (word.args ++ rest) =
      (word.opt.toList ++ (getopt takesArgument rest).1,
        word.operand?.toList ++ (getopt takesArgument rest).2) := by
  cases word with
  | operand arg => exact getopt_operand h rest
  | option c attached optarg =>
      obtain ⟨htakes, hc, hattached⟩ := h
      have hne : ∀ cs : List Char, ¬(c = '-' ∧ cs = []) := fun _ hand => hc hand.1
      cases attached with
      | false =>
          refine (getopt_option (hne []) (optarg :: rest)).trans ?_
          rw [cluster, htakes]
          rfl
      | true =>
          refine (getopt_option (hne optarg.toList) rest).trans ?_
          have hchars : optarg.toList ≠ [] := fun hnil =>
            hattached rfl (String.toList_inj.mp hnil)
          cases hlist : optarg.toList with
          | nil => exact absurd hlist hchars
          | cons d ds =>
              have hback : String.ofList (d :: ds) = optarg := by rw [← hlist, String.ofList_toList]
              simp only [cluster, htakes, hback]
              rfl

/-- The options come out in their order, and so do the operands, however they are mixed. -/
theorem getopt_words {words : List Word} (h : ∀ word ∈ words, word.IsPlain takesArgument)
    (rest : List String) :
    getopt takesArgument (words.flatMap Word.args ++ rest) =
      (words.filterMap Word.opt ++ (getopt takesArgument rest).1,
        words.filterMap Word.operand? ++ (getopt takesArgument rest).2) := by
  induction words with
  | nil => rfl
  | cons word words ih =>
      have hrest := ih fun w hw => h w (List.mem_cons_of_mem word hw)
      rw [List.flatMap_cons, List.append_assoc, getopt_word (h word List.mem_cons_self), hrest]
      cases word <;> rfl

end Getopt

end Aiowdm.Lib.CommandLine
