import Libluksde.Lib.Bytes

/-!
# Lists as blocks of one size

A list of a whole number of blocks is its windows one after the other, and what is put together
from blocks has them as its windows.
-/

namespace Lib.Blocks

open Lib.Bytes

variable {α : Type*}

/-- The first `n` blocks of a family, one after the other. -/
def concat (n : ℕ) (block : ℕ → List α) : List α := (List.range n).flatMap block

@[simp] theorem concat_zero (block : ℕ → List α) : concat 0 block = [] := rfl

theorem concat_succ (n : ℕ) (block : ℕ → List α) :
    concat (n + 1) block = concat n block ++ block n := by
  rw [concat, List.range_succ, List.flatMap_append, List.flatMap_singleton, concat]

theorem concat_congr {n : ℕ} {block block' : ℕ → List α} (h : ∀ i < n, block i = block' i) :
    concat n block = concat n block' := by
  induction n with
  | zero => rfl
  | succ n ih =>
    rw [concat_succ, concat_succ, ih fun i hi => h i (Nat.lt_succ_of_lt hi), h n (Nat.lt_succ_self n)]

section

variable {b n : ℕ}

theorem length_concat {block : ℕ → List α} (hblock : ∀ i < n, (block i).length = b) :
    (concat n block).length = b * n := by
  induction n with
  | zero => simp
  | succ n ih =>
    rw [concat_succ, List.length_append, ih fun i hi => hblock i (Nat.lt_succ_of_lt hi),
      hblock n (Nat.lt_succ_self n), Nat.mul_succ]

/-- The windows of what was put together are the blocks. -/
theorem slice_concat {block : ℕ → List α} (hblock : ∀ i < n, (block i).length = b) {i : ℕ}
    (hi : i < n) : slice (b * i) b (concat n block) = block i := by
  induction n with
  | zero => exact absurd hi (Nat.not_lt_zero i)
  | succ n ih =>
    have hbefore : ∀ j < n, (block j).length = b := fun j hj => hblock j (Nat.lt_succ_of_lt hj)
    have hlength := length_concat hbefore
    rw [concat_succ]
    rcases Nat.lt_succ_iff_lt_or_eq.1 hi with hlt | rfl
    · have hend : b * i + b ≤ b * n := by
        rw [← Nat.mul_succ]
        exact Nat.mul_le_mul_left b hlt
      rw [slice_append_left (by omega), ih hbefore hlt]
    · rw [slice_append_right (by omega), hlength, Nat.sub_self, slice, List.drop_zero,
        List.take_of_length_le (by rw [hblock i hi])]

/-- A list of whole blocks is its windows one after the other. -/
theorem concat_slice {l : List α} (hl : l.length = b * n) :
    (concat n fun i => slice (b * i) b l) = l := by
  have hfirst : ∀ k ≤ n, (concat k fun i => slice (b * i) b l) = slice 0 (b * k) l := by
    intro k hk
    induction k with
    | zero => simp [slice]
    | succ k ih =>
      rw [concat_succ, ih (Nat.le_of_succ_le hk), Nat.mul_succ, ← slice_append_slice, Nat.zero_add]
  rw [hfirst n le_rfl, ← hl, slice_zero_length]

/-- Blocks that are cut at a size, as many of them as reach it or fewer. -/
theorem length_concat_cut {block : ℕ → List α} {size : ℕ}
    (hblock : ∀ i < n, (block i).length = min b (size - b * i)) :
    (concat n block).length = min (b * n) size := by
  induction n with
  | zero => simp
  | succ n ih =>
    rw [concat_succ, List.length_append, ih fun i hi => hblock i (Nat.lt_succ_of_lt hi),
      hblock n (Nat.lt_succ_self n), Nat.mul_succ]
    omega

end

end Lib.Blocks
