import Mathlib.Logic.Basic
import Mathlib.Tactic.Common

/-!
# Byte memories

Memories of bytes, and little-endian accesses of any number of bytes to them.
-/

namespace Aiowdm.Lib

abbrev Bytes := Nat → BitVec 8

namespace Bytes

def load (m : Bytes) : (a n : Nat) → BitVec (8 * n)
  | _, 0 => 0#0
  | a, n + 1 => load m (a + 1) n ++ m a

def store (m : Bytes) (a n : Nat) (v : BitVec (8 * n)) : Bytes := fun x =>
  if a ≤ x ∧ x < a + n then v.extractLsb' (8 * (x - a)) 8 else m x

theorem load_eq_load {m m' : Bytes} {a b n : Nat} (h : ∀ i < n, m (a + i) = m' (b + i)) :
    load m a n = load m' b n := by
  induction n generalizing a b with
  | zero => rfl
  | succ n ih =>
      have hrest : load m (a + 1) n = load m' (b + 1) n := by
        apply ih
        intro i hi
        have hbyte := h (i + 1) (by omega)
        rwa [Nat.add_comm i 1, ← Nat.add_assoc, ← Nat.add_assoc] at hbyte
      have hfirst : m a = m' b := h 0 (by omega)
      rw [load, load, hrest, hfirst]

theorem load_congr {m m' : Bytes} {a n : Nat} (h : ∀ x, a ≤ x → x < a + n → m x = m' x) :
    load m a n = load m' a n := by
  apply load_eq_load
  intro i hi
  exact h (a + i) (by omega) (by omega)

theorem store_of_mem {m : Bytes} {a n x : Nat} {v : BitVec (8 * n)} (hx : a ≤ x ∧ x < a + n) :
    store m a n v x = v.extractLsb' (8 * (x - a)) 8 := if_pos hx

theorem store_of_not_mem {m : Bytes} {a n x : Nat} {v : BitVec (8 * n)}
    (hx : ¬(a ≤ x ∧ x < a + n)) : store m a n v x = m x := if_neg hx

theorem store_congr {m m' : Bytes} {x : Nat} (h : m x = m' x) (a n : Nat) (v : BitVec (8 * n)) :
    store m a n v x = store m' a n v x := by
  unfold store
  rw [h]

example :
    (store (fun _ => 0) 4 4 0x12345678#32 5, load (store (fun _ => 0) 4 4 0x12345678#32) 5 2) =
      (0x56#8, 0x3456#16) := by decide

/-! ## The bytes of a value -/

theorem extractLsb'_load (m : Bytes) {a n i : Nat} (hi : i < n) :
    (load m a n).extractLsb' (8 * i) 8 = m (a + i) := by
  induction n generalizing a i with
  | zero => omega
  | succ n ih =>
      change (load m (a + 1) n ++ m a).extractLsb' (8 * i) 8 = m (a + i)
      cases i with
      | zero => exact BitVec.extractLsb'_append_eq_right
      | succ i =>
          rw [BitVec.extractLsb'_append_eq_of_le (by omega), Nat.mul_succ, Nat.add_sub_cancel,
            ih (by omega), Nat.add_right_comm, Nat.add_assoc]

theorem eq_of_extractLsb' {n : Nat} {v w : BitVec (8 * n)}
    (h : ∀ i < n, v.extractLsb' (8 * i) 8 = w.extractLsb' (8 * i) 8) : v = w := by
  ext j hj
  have hbyte := congrArg (·.getLsbD (j % 8)) (h (j / 8) (by omega))
  have hlt : j % 8 < 8 := Nat.mod_lt j (by decide)
  simpa [hlt, Nat.div_add_mod, hj] using hbyte

theorem load_store (m : Bytes) (a n : Nat) (v : BitVec (8 * n)) :
    load (store m a n v) a n = v := by
  apply eq_of_extractLsb'
  intro i hi
  rw [extractLsb'_load _ hi, store_of_mem (by omega), Nat.add_sub_cancel_left]

theorem store_load (m : Bytes) (a n : Nat) : store m a n (load m a n) = m := by
  funext x
  by_cases hx : a ≤ x ∧ x < a + n
  · rw [store_of_mem hx, extractLsb'_load m (by omega), Nat.add_sub_cancel' hx.1]
  · exact store_of_not_mem hx

theorem load_store_of_disjoint (m : Bytes) {a n b k : Nat} (h : a + n ≤ b ∨ b + k ≤ a)
    (v : BitVec (8 * n)) : load (store m a n v) b k = load m b k := by
  apply load_congr
  intro x hle hlt
  exact store_of_not_mem (by omega)

/-! ## Copies -/

def copy (src : Bytes) (a : Nat) (dst : Bytes) (b n : Nat) : Bytes := fun x =>
  if b ≤ x ∧ x < b + n then src (a + (x - b)) else dst x

/-- The `n` bytes of `f` from `b` on are those of `g` from `a` on. -/
def SameBytes (f : Bytes) (b : Nat) (g : Bytes) (a n : Nat) : Prop :=
  ∀ i < n, f (b + i) = g (a + i)

theorem sameBytes_copy (src : Bytes) (a : Nat) (dst : Bytes) (b n : Nat) :
    SameBytes (copy src a dst b n) b src a n := by
  intro i hi
  rw [copy, if_pos (by omega), Nat.add_sub_cancel_left]

variable {f g : Bytes} {a b n : Nat}

theorem SameBytes.load (h : SameBytes f b g a n) {i k : Nat} (hi : i + k ≤ n) :
    load f (b + i) k = load g (a + i) k := by
  apply load_eq_load
  intro j hj
  rw [Nat.add_assoc, Nat.add_assoc]
  exact h (i + j) (by omega)

theorem SameBytes.store (h : SameBytes f b g a n) (i k : Nat) (v : BitVec (8 * k)) :
    SameBytes (store f (b + i) k v) b (store g (a + i) k v) a n := by
  intro j hj
  rw [Bytes.store, Bytes.store, h j hj]
  have hin : b + i ≤ b + j ∧ b + j < b + i + k ↔ a + i ≤ a + j ∧ a + j < a + i + k := by omega
  have hsub : b + j - (b + i) = a + j - (a + i) := by omega
  simp only [hin, hsub]

theorem SameBytes.copy_eq (h : SameBytes f b g a n) {m : Bytes}
    (hm : ∀ x, ¬(a ≤ x ∧ x < a + n) → m x = g x) : copy f b m a n = g := by
  funext x
  rw [copy]
  split
  · rename_i hx
    have hbyte := h (x - a) (by omega)
    rwa [Nat.add_sub_cancel' hx.1] at hbyte
  · rename_i hx
    exact hm x hx

/-! ## Stores that do not look -/

/-- `F` sets the bytes of `W`, whatever they were, and leaves the others. -/
structure Sets (F : Bytes → Bytes) (W : Nat → Prop) : Prop where
  set : ∀ (m m' : Bytes) {x : Nat}, W x → F m x = F m' x
  frame : ∀ (m : Bytes) {x : Nat}, ¬W x → F m x = m x

theorem sets_store (a n : Nat) (v : BitVec (8 * n)) :
    Sets (store · a n v) fun x => a ≤ x ∧ x < a + n where
  set _ _ _ hx := (store_of_mem hx).trans (store_of_mem hx).symm
  frame _ _ hx := store_of_not_mem hx

theorem Sets.comp {F G : Bytes → Bytes} {V W : Nat → Prop} (hG : Sets G W) (hF : Sets F V) :
    Sets (fun m => G (F m)) fun x => V x ∨ W x where
  set m m' x hx := by
    by_cases hW : W x
    · exact hG.set (F m) (F m') hW
    · rw [hG.frame (F m) hW, hG.frame (F m') hW]
      exact hF.set m m' (hx.resolve_right hW)
  frame m x hx := by
    rw [not_or] at hx
    rw [hG.frame (F m) hx.2, hF.frame m hx.1]

theorem Sets.congr {F : Bytes → Bytes} {V W : Nat → Prop} (hF : Sets F V)
    (h : ∀ x, V x ↔ W x) : Sets F W where
  set m m' x hx := hF.set m m' ((h x).mpr hx)
  frame m x hx := hF.frame m fun hV => hx ((h x).mp hV)

theorem Sets.foldl {ι : Type} {F : Bytes → ι → Bytes} {W : ι → Nat → Prop} (is : List ι)
    (hF : ∀ i, Sets (F · i) (W i)) : Sets (is.foldl F ·) fun x => ∃ i ∈ is, W i x := by
  induction is with
  | nil => exact ⟨fun _ _ _ hx => absurd hx (by simp), fun _ _ _ => rfl⟩
  | cons i is ih =>
      refine (ih.comp (hF i)).congr fun x => ?_
      simp only [List.mem_cons, exists_eq_or_imp]

theorem Sets.agree_iff {F : Bytes → Bytes} {W : Nat → Prop} (hF : Sets F W) (m m' : Bytes)
    (x : Nat) : F m x = F m' x ↔ ¬W x → m x = m' x := by
  by_cases hx : W x
  · exact iff_of_true (hF.set m m' hx) (absurd hx)
  · rw [hF.frame m hx, hF.frame m' hx]
    exact (imp_iff_right hx).symm

end Bytes

end Aiowdm.Lib
