import Mathlib.Tactic
import Mathlib.Data.List.Basic

/-!
# Slices of an address space

A memory is a function from addresses to cells. `slice m a b` is the list of the cells at the
addresses `a, …, b - 1`; it is empty when `b ≤ a`. The two bulk updates are

* `blit m p s`: the list `s` written at the addresses `p, p + 1, …`;
* `move m dst src n`: the `n` cells at `src` copied to `dst`, all of them read before the first
  one is written, so that the two ranges may overlap.
-/

namespace Libgpsfile2

variable {α : Type*}

/-- The cells at the addresses `a, …, b - 1`. -/
def slice (m : ℤ → α) (a b : ℤ) : List α :=
  (List.range (b - a).toNat).map fun i : ℕ => m (a + i)

/-- The memory with the list `s` written at `p`. -/
def blit (m : ℤ → α) (p : ℤ) (s : List α) : ℤ → α := fun a =>
  if p ≤ a then s.getD (a - p).toNat (m a) else m a

/-- The memory with the `n` cells at `src` copied to `dst`. -/
def move (m : ℤ → α) (dst src n : ℤ) : ℤ → α := fun a =>
  if dst ≤ a ∧ a < dst + n then m (src + (a - dst)) else m a

variable {m m' : ℤ → α} {a b c p : ℤ}

@[simp] theorem length_slice (m : ℤ → α) (a b : ℤ) : (slice m a b).length = (b - a).toNat := by
  simp [slice]

@[simp] theorem slice_self (m : ℤ → α) (a : ℤ) : slice m a a = [] := by simp [slice]

theorem slice_eq_nil_iff : slice m a b = [] ↔ b ≤ a := by
  rw [← List.length_eq_zero_iff, length_slice]; omega

@[simp] theorem getElem_slice (m : ℤ → α) (a b : ℤ) (i : ℕ) (hi : i < (slice m a b).length) :
    (slice m a b)[i] = m (a + i) := by
  simp only [slice, List.getElem_map, List.getElem_range]

/-- A slice is determined by the cells in its range. -/
theorem slice_congr (h : ∀ x, a ≤ x → x < b → m x = m' x) : slice m a b = slice m' a b := by
  refine List.ext_getElem (by simp) fun i hi hi' => ?_
  simp only [length_slice] at hi
  rw [getElem_slice, getElem_slice]
  exact h _ (by omega) (by omega)

theorem slice_append (hab : a ≤ b) (hbc : b ≤ c) :
    slice m a b ++ slice m b c = slice m a c := by
  refine List.ext_getElem (by simp; omega) fun i hi hi' => ?_
  simp only [List.length_append, length_slice] at hi
  rw [List.getElem_append]
  split_ifs with h
  · rw [getElem_slice, getElem_slice]
  · rw [getElem_slice, getElem_slice]
    simp only [length_slice] at h ⊢
    congr 1
    omega

theorem slice_cons (h : a < b) : slice m a b = m a :: slice m (a + 1) b := by
  have h1 : slice m a (a + 1) = [m a] := by simp [slice]
  rw [← slice_append (b := a + 1) (by omega) (by omega), h1, List.singleton_append]

theorem slice_concat (h : a ≤ b) : slice m a (b + 1) = slice m a b ++ [m b] := by
  have h1 : slice m b (b + 1) = [m b] := by simp [slice]
  rw [← slice_append h (by omega), h1]

theorem take_slice (m : ℤ → α) (a b : ℤ) (k : ℕ) :
    (slice m a b).take k = slice m a (min (a + k) b) := by
  refine List.ext_getElem (by simp; omega) fun i hi hi' => ?_
  rw [List.getElem_take, getElem_slice, getElem_slice]

theorem drop_slice (m : ℤ → α) (a b : ℤ) (k : ℕ) :
    (slice m a b).drop k = slice m (a + k) b := by
  refine List.ext_getElem (by simp; omega) fun i hi hi' => ?_
  rw [List.getElem_drop, getElem_slice, getElem_slice]
  congr 1
  push_cast
  ring

theorem slice_update_of_le (v : α) (h : b ≤ p) :
    slice (Function.update m p v) a b = slice m a b :=
  slice_congr fun _ _ hx => Function.update_of_ne (by omega) _ _

theorem slice_update_of_lt (v : α) (h : p < a) :
    slice (Function.update m p v) a b = slice m a b :=
  slice_congr fun _ hx _ => Function.update_of_ne (by omega) _ _

/-- A cell written right behind a slice extends it. -/
theorem slice_update_concat (v : α) (h : a ≤ p) :
    slice (Function.update m p v) a (p + 1) = slice m a p ++ [v] := by
  rw [slice_concat h, slice_update_of_le v le_rfl, Function.update_self]

/-- What was written is read back. -/
theorem slice_blit (m : ℤ → α) (p : ℤ) (s : List α) :
    slice (blit m p s) p (p + s.length) = s := by
  refine List.ext_getElem (by simp) fun i hi hi' => ?_
  rw [getElem_slice]
  simp [blit, hi']

/-- Cells below the written range are kept. -/
theorem slice_blit_of_le (s : List α) (h : b ≤ p) : slice (blit m p s) a b = slice m a b :=
  slice_congr fun _ _ hx => if_neg (by omega)

/-- Every part of the destination of a copy holds what the same part of the source held. -/
theorem slice_move (m : ℤ → α) (dst src : ℤ) {i j n : ℤ} (hi : 0 ≤ i) (hj : j ≤ n) :
    slice (move m dst src n) (dst + i) (dst + j) = slice m (src + i) (src + j) := by
  refine List.ext_getElem (by simp) fun k hk hk' => ?_
  simp only [length_slice] at hk
  rw [getElem_slice, getElem_slice, move, if_pos (by omega)]
  congr 1
  ring

end Libgpsfile2
