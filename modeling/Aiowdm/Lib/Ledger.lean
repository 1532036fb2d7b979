import Mathlib.Algebra.Order.Group.Multiset

/-!
# Ledgers of held resources

A ledger is the multiset of what is held now.  Releasing something that is not
held is recorded, so "released at most as often as acquired" is a property of
the ledger and not of the code that keeps it.
-/

namespace Aiowdm.Lib

universe u

/-- What is held, and what was released without being held. -/
@[ext] structure Ledger (ρ : Type u) where
  held : Multiset ρ
  overReleased : Multiset ρ
deriving DecidableEq

namespace Ledger

variable {ρ : Type u}

def empty : Ledger ρ := ⟨0, 0⟩

def acquire (r : ρ) (L : Ledger ρ) : Ledger ρ :=
  { L with held := r ::ₘ L.held }

@[simp] theorem held_acquire (r : ρ) (L : Ledger ρ) :
    (L.acquire r).held = r ::ₘ L.held := rfl

@[simp] theorem overReleased_acquire (r : ρ) (L : Ledger ρ) :
    (L.acquire r).overReleased = L.overReleased := rfl

variable [DecidableEq ρ]

def release (r : ρ) (L : Ledger ρ) : Ledger ρ :=
  if r ∈ L.held then { L with held := L.held.erase r }
  else { L with overReleased := r ::ₘ L.overReleased }

def releaseAll (rs : List ρ) (L : Ledger ρ) : Ledger ρ :=
  rs.foldl (fun L r => L.release r) L

theorem release_of_mem {r : ρ} {L : Ledger ρ} (h : r ∈ L.held) :
    L.release r = { L with held := L.held.erase r } :=
  if_pos h

@[simp] theorem release_acquire (r : ρ) (L : Ledger ρ) :
    (L.acquire r).release r = L := by
  rw [release_of_mem (by simp)]
  simp [acquire]

theorem releaseAll_cons (r : ρ) (rs : List ρ) (L : Ledger ρ) :
    L.releaseAll (r :: rs) = (L.release r).releaseAll rs := rfl

theorem mem_held_release_of_ne {r t : ρ} (h : t ≠ r) (L : Ledger ρ) :
    t ∈ (L.release r).held ↔ t ∈ L.held := by
  unfold release
  split
  · exact Multiset.mem_erase_of_ne h
  · rfl

theorem mem_held_releaseAll_of_notMem {rs : List ρ} {t : ρ} (h : t ∉ rs) (L : Ledger ρ) :
    t ∈ (L.releaseAll rs).held ↔ t ∈ L.held := by
  induction rs generalizing L with
  | nil => rfl
  | cons r rs ih =>
      obtain ⟨hne, hrest⟩ := List.ne_and_not_mem_of_not_mem_cons h
      rw [releaseAll_cons, ih hrest, mem_held_release_of_ne hne]

/-- Releasing only what is held takes exactly that away, in any order. -/
theorem releaseAll_of_le {rs : List ρ} {L : Ledger ρ} (h : (rs : Multiset ρ) ≤ L.held) :
    L.releaseAll rs = { L with held := L.held - rs } := by
  induction rs generalizing L with
  | nil => simp [releaseAll]
  | cons r rs ih =>
      have hmem : r ∈ L.held := Multiset.mem_of_le h (by simp)
      have hle : (rs : Multiset ρ) ≤ L.held.erase r := by
        have := Multiset.erase_le_erase r h
        simpa using this
      rw [releaseAll_cons, release_of_mem hmem, ih hle]
      simp only [Ledger.mk.injEq, and_true]
      rw [← Multiset.cons_coe, Multiset.sub_cons]

theorem releaseAll_of_held_eq {rs : List ρ} {L : Ledger ρ} {rest : Multiset ρ}
    (h : L.held = rs + rest) : L.releaseAll rs = { L with held := rest } := by
  rw [releaseAll_of_le (by rw [h]; exact Multiset.le_add_right _ _), h, add_tsub_cancel_left]

end Ledger

end Aiowdm.Lib
