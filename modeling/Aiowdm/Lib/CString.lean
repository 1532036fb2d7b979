import Aiowdm.Lib.Bytes
import Mathlib.Data.List.GetD
import Mathlib.Data.List.TakeWhile

/-!
# Strings in byte memories

`strcpy` and `strncpy`, and the string that a buffer holds.
-/

namespace Aiowdm.Lib

def literalBytes (s : String) : List (BitVec 8) := s.toUTF8.data.toList.map UInt8.toBitVec

/-- The bytes that C sees of a literal: those before the first 0. -/
def cBytes (s : String) : List (BitVec 8) := (literalBytes s).takeWhile (· ≠ 0)

/-- No 0 but the terminator. -/
def IsCString (s : String) : Prop := 0 ∉ literalBytes s

instance (s : String) : Decidable (IsCString s) := inferInstanceAs (Decidable (_ ∉ _))

theorem not_mem_cBytes (s : String) : 0 ∉ cBytes s := by
  intro hmem
  have hne := List.mem_takeWhile_imp hmem
  exact absurd rfl (of_decide_eq_true hne)

theorem length_literalBytes (s : String) : (literalBytes s).length = s.utf8ByteSize := by
  rw [literalBytes, List.length_map]
  rfl

theorem length_cBytes_le (s : String) : (cBytes s).length ≤ s.utf8ByteSize := by
  rw [← length_literalBytes]
  exact (List.takeWhile_prefix _).length_le

theorem length_cBytes {s : String} (hs : IsCString s) : (cBytes s).length = s.utf8ByteSize := by
  have hall : ∀ b ∈ literalBytes s, decide (b ≠ 0) = true := by
    intro b hb
    refine decide_eq_true fun hzero => hs ?_
    rwa [← hzero]
  rw [cBytes, List.takeWhile_eq_self_iff.mpr hall, length_literalBytes]

theorem length_toList_le (s : String) : s.toList.length ≤ s.utf8ByteSize := by
  obtain ⟨cs, rfl⟩ : ∃ cs, s = String.ofList cs := ⟨s.toList, String.ofList_toList.symm⟩
  rw [String.toList_ofList]
  induction cs with
  | nil => exact Nat.zero_le _
  | cons c cs ih =>
      have hsplit : String.ofList (c :: cs) = String.singleton c ++ String.ofList cs := by
        rw [← String.toList_inj]
        simp
      have hpos := c.utf8Size_pos
      rw [hsplit, String.utf8ByteSize_append, String.utf8ByteSize_singleton, List.length_cons]
      omega

namespace Bytes

variable (m : Bytes) (p n : Nat) (s : List (BitVec 8))

/-! ## Writing bytes -/

def write : Bytes := fun x => if p ≤ x then s.getD (x - p) (m x) else m x

variable {m p n s}

theorem write_of_lt {i : Nat} (hi : i < s.length) : write m p s (p + i) = s[i] := by
  rw [write, if_pos (Nat.le_add_right p i), Nat.add_sub_cancel_left]
  exact List.getD_eq_getElem s (m (p + i)) hi

theorem write_of_not_mem {x : Nat} (hx : ¬(p ≤ x ∧ x < p + s.length)) : write m p s x = m x := by
  rw [write]
  split
  · exact List.getD_eq_default s (m x) (by omega)
  · rfl

theorem sets_write (p : Nat) (s : List (BitVec 8)) :
    Sets (write · p s) fun x => p ≤ x ∧ x < p + s.length where
  set m m' x hx := by
    obtain ⟨i, rfl⟩ := Nat.exists_eq_add_of_le hx.1
    have hi : i < s.length := by omega
    exact (write_of_lt hi).trans (write_of_lt hi).symm
  frame _ _ hx := write_of_not_mem hx

/-- `strcpy (p, s)`. -/
def strcpy (m : Bytes) (p : Nat) (s : List (BitVec 8)) : Bytes := write m p (s ++ [0])

/-- `strncpy (p, s, n)`: `n` bytes in all, with zeros after a shorter string and no
terminator after another. -/
def strncpy (m : Bytes) (p : Nat) (s : List (BitVec 8)) (n : Nat) : Bytes :=
  write m p (s.take n ++ List.replicate (n - s.length) 0)

/-! ## The string in a buffer -/

/-- The string in the `n` bytes from `p` on, if one of them is 0. -/
def stringAt (m : Bytes) : (p n : Nat) → Option (List (BitVec 8))
  | _, 0 => none
  | p, n + 1 => if m p = 0 then some [] else (stringAt m (p + 1) n).map (m p :: ·)

theorem stringAt_eq_some (hs : 0 ∉ s) (hn : s.length < n)
    (hm : ∀ (i : Nat) (hi : i < s.length), m (p + i) = s[i]) (hend : m (p + s.length) = 0) :
    stringAt m p n = some s := by
  induction s generalizing p n with
  | nil =>
      obtain ⟨n, rfl⟩ := Nat.exists_eq_succ_of_ne_zero (Nat.ne_of_gt hn)
      exact if_pos hend
  | cons b s ih =>
      rw [List.length_cons] at hn hend
      obtain ⟨n, rfl⟩ := Nat.exists_eq_succ_of_ne_zero (Nat.ne_of_gt (Nat.zero_lt_of_lt hn))
      have hfirst : m p = b := hm 0 (Nat.succ_pos _)
      have hne : m p ≠ 0 := by
        rw [hfirst]
        exact fun hb => hs (hb ▸ List.mem_cons_self)
      have hrest : stringAt m (p + 1) n = some s := by
        refine ih (fun hmem => hs (List.mem_cons_of_mem b hmem)) (by omega) (fun i hi => ?_) ?_
        · rw [Nat.add_assoc, Nat.add_comm 1 i]
          exact hm (i + 1) (Nat.succ_lt_succ hi)
        · rwa [Nat.add_assoc, Nat.add_comm 1]
      rw [stringAt, if_neg hne, hrest, Option.map_some, hfirst]

theorem stringAt_eq_none (hm : ∀ i < n, m (p + i) ≠ 0) : stringAt m p n = none := by
  induction n generalizing p with
  | zero => rfl
  | succ n ih =>
      have hrest : stringAt m (p + 1) n = none := by
        apply ih
        intro i hi
        rw [Nat.add_assoc, Nat.add_comm 1 i]
        exact hm (i + 1) (Nat.succ_lt_succ hi)
      have hne : m p ≠ 0 := hm 0 (Nat.succ_pos n)
      rw [stringAt, if_neg hne, hrest]
      rfl

theorem SameBytes.stringAt {f g : Bytes} {a b n : Nat} (h : SameBytes f b g a n) {i k : Nat}
    (hi : i + k ≤ n) : stringAt f (b + i) k = stringAt g (a + i) k := by
  induction k generalizing i with
  | zero => rfl
  | succ k ih =>
      have hfirst : f (b + i) = g (a + i) := h i (by omega)
      have hrest : Bytes.stringAt f (b + i + 1) k = Bytes.stringAt g (a + i + 1) k := by
        rw [Nat.add_assoc, Nat.add_assoc]
        exact ih (by omega)
      rw [Bytes.stringAt, Bytes.stringAt, hfirst, hrest]

theorem stringAt_congr {m m' : Bytes} {p n : Nat} (h : ∀ x, p ≤ x → x < p + n → m x = m' x) :
    stringAt m p n = stringAt m' p n := by
  have hsame : SameBytes m p m' p n := fun i hi => h (p + i) (by omega) (by omega)
  exact hsame.stringAt (i := 0) (by omega)

theorem stringAt_strcpy (hs : 0 ∉ s) (hn : s.length < n) :
    stringAt (strcpy m p s) p n = some s := by
  refine stringAt_eq_some hs hn (fun i hi => ?_) ?_
  · rw [strcpy, write_of_lt (by rw [List.length_append]; omega), List.getElem_append_left hi]
  · rw [strcpy, write_of_lt (by rw [List.length_append]; exact Nat.lt_succ_self _)]
    simp

theorem length_strncpy (s : List (BitVec 8)) (n : Nat) :
    (s.take n ++ List.replicate (n - s.length) 0).length = n := by
  rw [List.length_append, List.length_take, List.length_replicate]
  omega

/-- What `strncpy` fills is a string exactly where the string was shorter. -/
theorem stringAt_strncpy (hs : 0 ∉ s) :
    stringAt (strncpy m p s n) p n = if s.length < n then some s else none := by
  split
  · rename_i hn
    have hbyte : ∀ (i : Nat) (hi : i < n), strncpy m p s n (p + i) = _ :=
      fun i hi => write_of_lt ((length_strncpy s n).symm ▸ hi)
    refine stringAt_eq_some hs hn (fun i hi => ?_) ?_
    · rw [hbyte i (Nat.lt_trans hi hn), List.getElem_append_left (by rw [List.length_take]; omega),
        List.getElem_take]
    · rw [hbyte s.length hn, List.getElem_append_right (by rw [List.length_take]; omega),
        List.getElem_replicate]
  · rename_i hn
    apply stringAt_eq_none
    intro i hi
    rw [strncpy, write_of_lt (by rwa [length_strncpy]),
      List.getElem_append_left (by rw [List.length_take]; omega), List.getElem_take]
    exact fun hb => hs (hb ▸ List.getElem_mem _)

end Bytes

end Aiowdm.Lib
