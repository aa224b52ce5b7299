import Libluksde.Lib.Blocks

/-!
# The key derivation of RFC 2898

PBKDF2 over any pseudorandom function: the iterates `U_1, U_2, …` of a block, the block `T_i` that
is their exclusive or, and the derived key, which is a prefix of the blocks one after the other.
-/

namespace Lib.Pbkdf2

open Lib.Bytes

variable (prf : (key message : List UInt8) → List UInt8) (password salt : List UInt8)

/-- The iterates of block `i`: `U_1` at index 0 is the function on the salt and the block number
in four bytes, and each of the others is the function on the one before. -/
def iterate (i : ℕ) : ℕ → List UInt8
  | 0 => prf password (salt ++ toBigEndian 4 i)
  | j + 1 => prf password (iterate i j)

/-- The exclusive or of the iterates of block `i` up to index `j`. -/
def sum (i : ℕ) : ℕ → List UInt8
  | 0 => iterate prf password salt i 0
  | j + 1 => xor (sum i j) (iterate prf password salt i (j + 1))

/-- The block `T_i` for a number of iterations. -/
def block (iterations i : ℕ) : List UInt8 := sum prf password salt i (iterations - 1)

/-- The first `i` blocks, one after the other. -/
def firstBlocks (iterations i : ℕ) : List UInt8 :=
  (List.range i).flatMap fun k => block prf password salt iterations (k + 1)

/-- The number of blocks of `n` bytes that a key of `size` bytes takes. -/
def numberOfBlocks (n size : ℕ) : ℕ := (size + n - 1) / n

/-- The derived key of `size` bytes, for a function whose values have `n` bytes. -/
def derivedKey (n iterations size : ℕ) : List UInt8 :=
  (firstBlocks prf password salt iterations (numberOfBlocks n size)).take size

/-- A key takes more than `i` blocks when it is longer than these. -/
theorem lt_numberOfBlocks_iff {n size i : ℕ} (hn : 0 < n) :
    i < numberOfBlocks n size ↔ i * n < size := by
  rw [numberOfBlocks, Nat.lt_div_iff_mul_lt hn]
  omega

theorem numberOfBlocks_le {n : ℕ} (hn : 0 < n) (size : ℕ) : numberOfBlocks n size ≤ size := by
  by_contra hlt
  have hlarge := (lt_numberOfBlocks_iff hn).1 (Nat.not_le.1 hlt)
  have hle : size ≤ size * n := Nat.le_mul_of_pos_right size hn
  omega

variable {prf password salt}

section

variable {n : ℕ} (hlength : ∀ key message, (prf key message).length = n)

include hlength

theorem length_iterate (i j : ℕ) : (iterate prf password salt i j).length = n := by
  cases j with
  | zero => exact hlength _ _
  | succ j => exact hlength _ _

theorem length_sum (i j : ℕ) : (sum prf password salt i j).length = n := by
  induction j with
  | zero => exact length_iterate hlength i 0
  | succ j ih => rw [sum, length_xor, ih, length_iterate hlength, Nat.min_self]

theorem length_firstBlocks (iterations i : ℕ) :
    (firstBlocks prf password salt iterations i).length = i * n := by
  induction i with
  | zero => simp [firstBlocks]
  | succ i ih =>
    rw [firstBlocks, List.range_succ, List.flatMap_append, List.length_append]
    rw [firstBlocks] at ih
    rw [ih, List.flatMap_singleton, block, length_sum hlength, Nat.succ_mul]

/-- A byte of the blocks one after the other is one of the block in which its place lies. -/
theorem getElem?_firstBlocks (iterations : ℕ) {i p : ℕ} (hp : p < i * n) :
    (firstBlocks prf password salt iterations i)[p]? =
      (block prf password salt iterations (p / n + 1))[p % n]? := by
  have hpos : 0 < n := Nat.pos_of_mul_pos_left (Nat.zero_lt_of_lt hp)
  have hblock : ∀ k < i, (block prf password salt iterations (k + 1)).length = n :=
    fun k _ => length_sum hlength _ _
  have hslice := Blocks.slice_concat hblock ((Nat.div_lt_iff_lt_mul hpos).2 hp)
  rw [← hslice, getElem?_slice, if_pos (Nat.mod_lt p hpos), Nat.div_add_mod]
  rfl

/-- One block more of a key: what is left of the key decides how much of the block is used. -/
theorem take_firstBlocks_succ (iterations i size : ℕ) :
    (firstBlocks prf password salt iterations (i + 1)).take size =
      (firstBlocks prf password salt iterations i).take size ++
        (block prf password salt iterations (i + 1)).take (min n (size - i * n)) := by
  have hblock : (block prf password salt iterations (i + 1)).length = n := length_sum hlength _ _
  have hsucc : firstBlocks prf password salt iterations (i + 1) =
      firstBlocks prf password salt iterations i ++ block prf password salt iterations (i + 1) := by
    rw [firstBlocks, List.range_succ, List.flatMap_append, List.flatMap_singleton, firstBlocks]
  rw [hsucc, List.take_append, length_firstBlocks hlength]
  congr 1
  rcases Nat.le_total n (size - i * n) with hle | hle
  · rw [Nat.min_eq_left hle, List.take_of_length_le (by omega), List.take_of_length_le (by omega)]
  · rw [Nat.min_eq_right hle]

end

end Lib.Pbkdf2
