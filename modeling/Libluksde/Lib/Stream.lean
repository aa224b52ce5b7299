import Mathlib.Data.List.Basic

/-!
# Streams in blocks

A stream gives the entry at each place, where it is defined.  Storage that is read in blocks
of `n` entries is such a stream; a reader that appends block after block to its output has
written a prefix of the stream.
-/

namespace Lib.Stream

variable {α : Type*}

/-- The stream of the blocks of `n` entries, each of which may be undefined. -/
def blocks (n : ℕ) (block : ℕ → Option (List α)) (i : ℕ) : Option α :=
  (block (i / n)).bind fun b => b[i % n]?

/-- The entries of a block. -/
theorem blocks_of_some {n k i : ℕ} {block : ℕ → Option (List α)} {b : List α}
    (hb : block k = some b) (hi : i < n) : blocks n block (n * k + i) = b[i]? := by
  have hdiv : (n * k + i) / n = k := by
    rw [Nat.mul_add_div (by omega), Nat.div_eq_of_lt hi, Nat.add_zero]
  have hmod : (n * k + i) % n = i := by rw [Nat.mul_add_mod, Nat.mod_eq_of_lt hi]
  rw [blocks, hdiv, hmod, hb, Option.bind_some]

/-- A stream that is defined at a place is defined in the block of the place. -/
theorem isSome_of_blocks {n i : ℕ} {block : ℕ → Option (List α)}
    (h : (blocks n block i).isSome) : ∃ b, block (i / n) = some b := by
  obtain ⟨a, ha⟩ := Option.isSome_iff_exists.1 h
  obtain ⟨b, hb, -⟩ := Option.bind_eq_some_iff.1 ha
  exact ⟨b, hb⟩

/-- The stream from a block on is the stream of the blocks from there. -/
theorem blocks_add {n q i : ℕ} (hn : 0 < n) (block : ℕ → Option (List α)) :
    blocks n (fun k => block (q + k)) i = blocks n block (n * q + i) := by
  rw [blocks, blocks, Nat.mul_add_div hn, Nat.mul_add_mod]

/-- A list that holds the first entries of a stream. -/
def IsPrefix (stream : ℕ → Option α) (l : List α) : Prop :=
  ∀ i < l.length, l[i]? = stream i

theorem IsPrefix.nil (stream : ℕ → Option α) : IsPrefix stream [] := by
  intro i hi
  exact absurd hi (by simp)

/-- Appending the next entries. -/
theorem IsPrefix.append {stream : ℕ → Option α} {l m : List α} (h : IsPrefix stream l)
    (hm : ∀ i < m.length, m[i]? = stream (l.length + i)) : IsPrefix stream (l ++ m) := by
  intro i hi
  rw [List.length_append] at hi
  by_cases hl : i < l.length
  · rw [List.getElem?_append_left hl]
    exact h i hl
  · rw [List.getElem?_append_right (by omega), hm _ (by omega)]
    congr 1
    omega

/-- A stream is defined at the places of a prefix. -/
theorem IsPrefix.isSome {stream : ℕ → Option α} {l : List α} (h : IsPrefix stream l) {i : ℕ}
    (hi : i < l.length) : (stream i).isSome := by
  rw [← h i hi, List.getElem?_eq_getElem hi]
  rfl

end Lib.Stream
