import Mathlib.Data.Nat.Digits.Lemmas
import Mathlib.Data.List.Induction

/-!
# Decimal numerals

The numerals of numbers as strings of ASCII digits, the most significant one first and without
leading zeros, and the values of strings of digits.
-/

namespace Lib.Decimal

/-- The character of a digit. -/
def digit (d : ℕ) : UInt8 := UInt8.ofNat (48 + d)

/-- The characters of the ten digits. -/
def IsDigit (c : UInt8) : Prop := 48 ≤ c.toNat ∧ c.toNat ≤ 57

instance (c : UInt8) : Decidable (IsDigit c) := inferInstanceAs (Decidable (_ ∧ _))

/-- The numeral of a number that is not zero; that of zero would be empty. -/
def numeral (n : ℕ) : List UInt8 := ((Nat.digits 10 n).map digit).reverse

/-- The value of a string of digits. -/
def value (s : List UInt8) : ℕ := s.foldl (fun v c => v * 10 + (c.toNat - 48)) 0

theorem toNat_digit {d : ℕ} (hd : d < 10) : (digit d).toNat = 48 + d := by
  rw [digit, UInt8.toNat_ofNat', Nat.mod_eq_of_lt (by omega)]

theorem isDigit_digit {d : ℕ} (hd : d < 10) : IsDigit (digit d) := by
  rw [IsDigit, toNat_digit hd]
  omega

/-- A digit is the character of its value. -/
theorem IsDigit.eq_digit {c : UInt8} (h : IsDigit c) : digit (c.toNat - 48) = c := by
  obtain ⟨hl, hu⟩ := h
  apply UInt8.toNat_inj.1
  rw [toNat_digit (by omega)]
  omega

@[simp] theorem numeral_zero : numeral 0 = [] := by simp [numeral]

/-- The last digit of a numeral, and the digits before it. -/
theorem numeral_pos {n : ℕ} (hn : 0 < n) : numeral n = numeral (n / 10) ++ [digit (n % 10)] := by
  rw [numeral, Nat.digits_def' (by norm_num) hn, List.map_cons, List.reverse_cons, numeral]

theorem numeral_ne_nil {n : ℕ} (hn : 0 < n) : numeral n ≠ [] := by
  rw [numeral_pos hn]
  exact List.append_ne_nil_of_right_ne_nil _ (List.cons_ne_nil _ _)

/-- A numeral has at most `k` digits exactly for the numbers below `10 ^ k`. -/
theorem length_numeral_le_iff {n k : ℕ} : (numeral n).length ≤ k ↔ n < 10 ^ k := by
  rw [numeral, List.length_reverse, List.length_map, Nat.digits_length_le_iff (by norm_num)]

theorem isDigit_of_mem_numeral {n : ℕ} {c : UInt8} (hc : c ∈ numeral n) : IsDigit c := by
  rw [numeral, List.mem_reverse, List.mem_map] at hc
  obtain ⟨d, hd, rfl⟩ := hc
  exact isDigit_digit (Nat.digits_lt_base (by norm_num) hd)

@[simp] theorem value_nil : value [] = 0 := rfl

theorem value_append_singleton (s : List UInt8) (c : UInt8) :
    value (s ++ [c]) = value s * 10 + (c.toNat - 48) := by
  rw [value, List.foldl_append]
  rfl

/-- A numeral has the value of its number. -/
theorem value_numeral (n : ℕ) : value (numeral n) = n := by
  induction n using Nat.strongRecOn with
  | ind n ih =>
    rcases Nat.eq_zero_or_pos n with rfl | hn
    · simp
    · have hmod := Nat.mod_lt n (show 0 < 10 by norm_num)
      rw [numeral_pos hn, value_append_singleton, ih _ (Nat.div_lt_self hn (by norm_num)),
        toNat_digit hmod]
      omega

theorem numeral_injective : Function.Injective numeral :=
  Function.LeftInverse.injective value_numeral

/-- No numeral begins with a zero. -/
theorem head?_numeral (n : ℕ) : (numeral n).head? ≠ some 48 := by
  induction n using Nat.strongRecOn with
  | ind n ih =>
    rcases Nat.eq_zero_or_pos n with rfl | hn
    · simp
    · have hmod := Nat.mod_lt n (show 0 < 10 by norm_num)
      rw [numeral_pos hn]
      rcases Nat.eq_zero_or_pos (n / 10) with hzero | hpos
      · -- the only digit is that of the number itself
        rw [hzero, numeral_zero, List.nil_append, List.head?_cons]
        intro heq
        have hdigit := congrArg UInt8.toNat (Option.some.inj heq)
        rw [toNat_digit hmod] at hdigit
        have h48 : (48 : UInt8).toNat = 48 := rfl
        omega
      · rw [List.head?_append_of_ne_nil _ (numeral_ne_nil hpos)]
        exact ih _ (Nat.div_lt_self hn (by norm_num))

/-- A string of digits that does not begin with a zero is the numeral of its value. -/
theorem numeral_value {s : List UInt8} (hs : ∀ c ∈ s, IsDigit c) (hhead : s.head? ≠ some 48) :
    numeral (value s) = s := by
  induction s using List.reverseRecOn with
  | nil => simp
  | append_singleton s c ih =>
    have hc : IsDigit c := hs c (by simp)
    have hlast : c.toNat - 48 < 10 := by
      have := hc.2
      omega
    rw [value_append_singleton]
    by_cases hnil : s = []
    · subst hnil
      have hne : c.toNat ≠ 48 := by
        intro heq
        exact hhead (congrArg some (UInt8.toNat_inj.1 heq))
      have hpos : 0 < c.toNat - 48 := by
        have := hc.1
        omega
      rw [value_nil, Nat.zero_mul, Nat.zero_add, numeral_pos hpos, Nat.div_eq_of_lt hlast,
        Nat.mod_eq_of_lt hlast, hc.eq_digit, numeral_zero]
    · rw [List.head?_append_of_ne_nil _ hnil] at hhead
      have hbefore := ih (fun c' hc' => hs c' (List.mem_append_left [c] hc')) hhead
      have hpos : 0 < value s := by
        rcases Nat.eq_zero_or_pos (value s) with hzero | hpos
        · rw [hzero, numeral_zero] at hbefore
          exact absurd hbefore.symm hnil
        · exact hpos
      have hdiv : (value s * 10 + (c.toNat - 48)) / 10 = value s := by omega
      have hmod : (value s * 10 + (c.toNat - 48)) % 10 = c.toNat - 48 := by omega
      rw [numeral_pos (by omega), hdiv, hmod, hbefore, hc.eq_digit]

/-! ## Signs -/

/-- The character of a minus sign. -/
def minus : UInt8 := 0x2d

/-- The character of a plus sign. -/
def plus : UInt8 := 0x2b

/-- The integer that a string of digits with an optional sign stands for. -/
inductive Denotes : List UInt8 → ℤ → Prop
  | unsigned {s : List UInt8} (hne : s ≠ []) (hs : ∀ c ∈ s, IsDigit c) : Denotes s (value s)
  | plus {s : List UInt8} (hne : s ≠ []) (hs : ∀ c ∈ s, IsDigit c) :
    Denotes (plus :: s) (value s)
  | minus {s : List UInt8} (hne : s ≠ []) (hs : ∀ c ∈ s, IsDigit c) :
    Denotes (minus :: s) (-value s)

/-- What follows the sign of a string, if it has one. -/
def afterSign (s : List UInt8) : List UInt8 :=
  if s.head? = some minus ∨ s.head? = some plus then s.tail else s

/-- The value of what follows the sign of a string, with the sign. -/
def signedValue (s : List UInt8) : ℤ :=
  if s.head? = some minus then -value (afterSign s) else value (afterSign s)

theorem afterSign_minus (s : List UInt8) : afterSign (minus :: s) = s :=
  if_pos (Or.inl List.head?_cons)

theorem afterSign_plus (s : List UInt8) : afterSign (plus :: s) = s :=
  if_pos (Or.inr List.head?_cons)

theorem signedValue_minus (s : List UInt8) : signedValue (minus :: s) = -value s := by
  rw [signedValue, if_pos List.head?_cons, afterSign_minus]

theorem signedValue_plus (s : List UInt8) : signedValue (plus :: s) = value s := by
  rw [signedValue, if_neg (by rw [List.head?_cons]; decide), afterSign_plus]

/-- A string begins with a minus sign, with a plus sign, or with neither. -/
theorem sign_cases (s : List UInt8) :
    (∃ d, s = minus :: d) ∨ (∃ d, s = plus :: d) ∨
      (s.head? ≠ some minus ∧ s.head? ≠ some plus) := by
  cases s with
  | nil => exact Or.inr (Or.inr ⟨by simp, by simp⟩)
  | cons c d =>
    by_cases hminus : c = minus
    · exact Or.inl ⟨d, by rw [hminus]⟩
    · by_cases hplus : c = plus
      · exact Or.inr (Or.inl ⟨d, by rw [hplus]⟩)
      · exact Or.inr (Or.inr ⟨by simpa using hminus, by simpa using hplus⟩)

theorem afterSign_of_unsigned {s : List UInt8} (h : s.head? ≠ some minus ∧ s.head? ≠ some plus) :
    afterSign s = s := if_neg (not_or.2 h)

theorem signedValue_of_unsigned {s : List UInt8}
    (h : s.head? ≠ some minus ∧ s.head? ≠ some plus) : signedValue s = value s := by
  rw [signedValue, if_neg h.1, afterSign_of_unsigned h]

/-- A string of digits has no sign. -/
theorem head?_ne_of_digits {s : List UInt8} (hs : ∀ c ∈ s, IsDigit c) {c : UInt8}
    (hc : ¬ IsDigit c) : s.head? ≠ some c := by
  intro hhead
  exact hc (hs c (List.mem_of_mem_head? hhead))

/-- A string stands for an integer exactly when there are digits behind its sign and no other
characters, and then for its signed value. -/
theorem denotes_iff {s : List UInt8} {v : ℤ} :
    Denotes s v ↔ afterSign s ≠ [] ∧ (∀ c ∈ afterSign s, IsDigit c) ∧ v = signedValue s := by
  constructor
  · intro h
    cases h with
    | unsigned hne hs =>
      have hunsigned : s.head? ≠ some minus ∧ s.head? ≠ some plus :=
        ⟨head?_ne_of_digits hs (by decide), head?_ne_of_digits hs (by decide)⟩
      rw [afterSign_of_unsigned hunsigned, signedValue_of_unsigned hunsigned]
      exact ⟨hne, hs, rfl⟩
    | plus hne hs =>
      rw [afterSign_plus, signedValue_plus]
      exact ⟨hne, hs, rfl⟩
    | minus hne hs =>
      rw [afterSign_minus, signedValue_minus]
      exact ⟨hne, hs, rfl⟩
  · rintro ⟨hne, hs, rfl⟩
    rcases sign_cases s with ⟨d, rfl⟩ | ⟨d, rfl⟩ | hunsigned
    · rw [afterSign_minus] at hne hs
      rw [signedValue_minus]
      exact .minus hne hs
    · rw [afterSign_plus] at hne hs
      rw [signedValue_plus]
      exact .plus hne hs
    · rw [afterSign_of_unsigned hunsigned] at hne hs
      rw [signedValue_of_unsigned hunsigned]
      exact .unsigned hne hs

end Lib.Decimal
