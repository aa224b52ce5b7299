import Mathlib.Algebra.Ring.Nat
import Mathlib.Data.List.Basic

/-!
# Stream ciphers

A stream cipher adds a keystream to its input, and continues behind it with the next call.  What it
gives at a place of the keystream is then determined by the number of bytes before it, so that calls
that do not depend on what was asked before have a keystream of one byte only.
-/

namespace Lib.Keystream

variable {σ : Type*}

/-- The keystream of a cipher with state: a call adds the first bytes of it to the input, and leaves
the state whose keystream is the rest. -/
structure IsKeystream (crypt : σ → List UInt8 → List UInt8 × σ) (keystream : σ → ℕ → UInt8) :
    Prop where
  output : ∀ s input, (crypt s input).1 = input.mapIdx fun i b => b ^^^ keystream s i
  rest : ∀ s input i, keystream (crypt s input).2 i = keystream s (input.length + i)

variable {crypt : σ → List UInt8 → List UInt8 × σ} {keystream : σ → ℕ → UInt8}

/-- Zero bytes give the keystream. -/
theorem IsKeystream.getElem?_zeros (h : IsKeystream crypt keystream) (s : σ) {n i : ℕ}
    (hi : i < n) : (crypt s (List.replicate n 0)).1[i]? = some (keystream s i) := by
  rw [h.output, List.getElem?_mapIdx, List.getElem?_replicate, if_pos hi]
  simp

/-- The state after calls on zero bytes of given lengths. -/
def afterZeros (crypt : σ → List UInt8 → List UInt8 × σ) (s : σ) (lengths : List ℕ) : σ :=
  lengths.foldl (fun s n => (crypt s (List.replicate n 0)).2) s

/-- The keystream after calls is the rest behind their bytes. -/
theorem IsKeystream.afterZeros (h : IsKeystream crypt keystream) (s : σ) (lengths : List ℕ) (i : ℕ) :
    keystream (afterZeros crypt s lengths) i = keystream s (lengths.sum + i) := by
  induction lengths generalizing s with
  | nil => rw [List.sum_nil, Nat.zero_add]; rfl
  | cons n lengths ih =>
    rw [Keystream.afterZeros, List.foldl_cons, ← Keystream.afterZeros, ih, h.rest,
      List.length_replicate, List.sum_cons, Nat.add_assoc]

/-- Every number of bytes from 16 on is that of calls of 16 to 31 bytes. -/
theorem exists_lengths {n : ℕ} (hn : 16 ≤ n) :
    ∃ lengths : List ℕ, lengths.sum = n ∧ ∀ m ∈ lengths, 16 ≤ m ∧ m < 32 := by
  refine ⟨(16 + n % 16) :: List.replicate (n / 16 - 1) 16, ?_, ?_⟩
  · rw [List.sum_cons, List.sum_replicate_nat]
    omega
  · intro m hm
    obtain rfl | hm := List.mem_cons.1 hm
    · omega
    · obtain rfl := List.eq_of_mem_replicate hm
      omega

/-- A keystream whose beginning is found again behind all such calls has one byte only. -/
theorem eq_first_of_repeats {f : ℕ → UInt8}
    (h : ∀ lengths : List ℕ, (∀ m ∈ lengths, 16 ≤ m ∧ m < 32) →
      ∀ i < 16, f (lengths.sum + i) = f i) (j : ℕ) : f j = f 0 := by
  have hlarge : ∀ n, 16 ≤ n → f n = f 0 := by
    intro n hn
    obtain ⟨lengths, rfl, hlengths⟩ := exists_lengths hn
    exact h lengths hlengths 0 (by omega)
  by_cases hj : j < 16
  · -- the byte is found again behind one call
    have hagain := h [16] (by simp) j hj
    rw [List.sum_singleton, hlarge (16 + j) (by omega)] at hagain
    exact hagain.symm
  · exact hlarge j (by omega)

/-! ## A cipher that generates its keystream -/

variable (next : σ → UInt8 × σ)

/-- The keystream that a generator gives from a state on. -/
def generated : σ → ℕ → UInt8
  | s, 0 => (next s).1
  | s, i + 1 => generated (next s).2 i

/-- The cipher that adds one generated byte to each byte of the input. -/
def cryptWith : σ → List UInt8 → List UInt8 × σ
  | s, [] => ([], s)
  | s, b :: input =>
    ((b ^^^ (next s).1) :: (cryptWith (next s).2 input).1, (cryptWith (next s).2 input).2)

theorem length_cryptWith (s : σ) (input : List UInt8) :
    (cryptWith next s input).1.length = input.length := by
  induction input generalizing s with
  | nil => rfl
  | cons b input ih => simp only [cryptWith, List.length_cons, ih]

/-- A generator gives a keystream. -/
theorem isKeystream_cryptWith : IsKeystream (cryptWith next) (generated next) where
  output s input := by
    induction input generalizing s with
    | nil => rfl
    | cons b input ih =>
      rw [cryptWith, List.mapIdx_cons, ih]
      rfl
  rest s input i := by
    induction input generalizing s with
    | nil => rw [List.length_nil, Nat.zero_add]; rfl
    | cons b input ih =>
      rw [cryptWith, ih, List.length_cons, Nat.add_right_comm]
      rfl

end Lib.Keystream
