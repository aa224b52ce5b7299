import Libluksde.MountHandle
import Libluksde.MountPaths

/-!
# Decimal offsets

The conversion of a string of decimal digits to 64 bits, of which `luksdetools/mount_handle.c` and
`luksdetools/info_handle.c` have a copy each, and the two handles that store its value as a signed
offset.  The index is the only bound on the value: 21 digits are converted modulo `2 ^ 64`, and a
string without digits is converted to zero.
-/

namespace Libluksde

open Lib.Decimal

/-! ## The conversion on a memory -/

/-- The loop of the conversion, with the characters that are left of the size. -/
def copyDecimalCharacters (maximumStringIndex : ℕ) (string : List UInt8) :
    (left stringIndex : ℕ) → UInt64 → Option UInt64
  | 0, _, value64bit => some value64bit
  | left + 1, stringIndex, value64bit =>
    let character := string.getD stringIndex 0
    if character = 0 then some value64bit
    else if stringIndex > maximumStringIndex then none
    else if 0x30 ≤ character ∧ character ≤ 0x39 then
      copyDecimalCharacters maximumStringIndex string left (stringIndex + 1)
        (value64bit * 10 + (character - 0x30).toUInt64)
    else none

/-- The text of both copies, on the memory that `string` points to: the value, or `none` when it
returns -1. -/
def systemStringCopyFrom64BitInDecimal (string : List UInt8) (stringSize : ℕ) : Option UInt64 :=
  if stringSize > ssizeMax then none
  else if string.getD 0 0 = 0x2d then
    (copyDecimalCharacters 21 string (stringSize - 1) 1 0).map (· * 0xffffffffffffffff)
  else if string.getD 0 0 = 0x2b then copyDecimalCharacters 21 string (stringSize - 1) 1 0
  else copyDecimalCharacters 20 string stringSize 0 0

/-- `luksdetools_system_string_copy_from_64_bit_in_decimal` -/
def luksdetoolsSystemStringCopyFrom64BitInDecimal (string : List UInt8) (stringSize : ℕ) :
    Option UInt64 :=
  systemStringCopyFrom64BitInDecimal string stringSize

/-- The field of `info_handle_t` that is set here. -/
structure InfoHandle where
  volumeOffset : ℤ
deriving DecidableEq, Repr

/-- `info_handle_set_volume_offset` -/
def infoHandleSetVolumeOffset (infoHandle : InfoHandle) (string : List UInt8) : InfoHandle × ℤ :=
  match luksdetoolsSystemStringCopyFrom64BitInDecimal string
      ((systemString string).length + 1) with
  | none => (infoHandle, -1)
  | some value64bit => ({ infoHandle with volumeOffset := off64 value64bit.toNat }, 1)

/-- The loop looks at the characters up to the NUL or the end of the size. -/
theorem copyDecimalCharacters_eq (maximumStringIndex : ℕ) (string : List UInt8)
    (left stringIndex : ℕ) (value64bit : UInt64) :
    copyDecimalCharacters maximumStringIndex string left stringIndex value64bit =
      copyDecimalDigits maximumStringIndex (systemString ((string.drop stringIndex).take left))
        stringIndex value64bit := by
  induction left generalizing stringIndex value64bit with
  | zero => rfl
  | succ left ih =>
    rw [copyDecimalCharacters]
    rcases Nat.lt_or_ge stringIndex string.length with hlt | hge
    · have hdrop := List.drop_eq_getElem_cons hlt
      have hcharacter : string.getD stringIndex 0 = string[stringIndex] :=
        (List.getElem_eq_getD 0).symm
      rw [hdrop, List.take_succ_cons, hcharacter]
      by_cases hzero : string[stringIndex] = 0
      · rw [if_pos hzero, systemString, List.takeWhile_cons_of_neg (by simpa using hzero)]
        rfl
      · rw [if_neg hzero, systemString, List.takeWhile_cons_of_pos (by simpa using hzero),
          copyDecimalDigits, ih]
        rfl
    · -- a string that ends without NUL
      rw [List.drop_eq_nil_of_le hge, List.take_nil, List.getD_eq_default _ _ hge, if_pos rfl]
      rfl

theorem copyFrom64BitInDecimal_minus (s : List UInt8) :
    mountHandleSystemStringCopyFrom64BitInDecimal (minus :: s) =
      (copyDecimalDigits 21 s 1 0).map (· * 0xffffffffffffffff) := rfl

theorem copyFrom64BitInDecimal_plus (s : List UInt8) :
    mountHandleSystemStringCopyFrom64BitInDecimal (plus :: s) = copyDecimalDigits 21 s 1 0 := rfl

theorem copyFrom64BitInDecimal_unsigned {s : List UInt8}
    (h : s.head? ≠ some minus ∧ s.head? ≠ some plus) :
    mountHandleSystemStringCopyFrom64BitInDecimal s = copyDecimalDigits 20 s 0 0 := by
  rw [mountHandleSystemStringCopyFrom64BitInDecimal]
  · rintro d rfl
    exact h.1 List.head?_cons
  · rintro d rfl
    exact h.2 List.head?_cons

theorem systemString_cons {c : UInt8} (hc : c ≠ 0) (s : List UInt8) :
    systemString (c :: s) = c :: systemString s :=
  List.takeWhile_cons_of_pos (by simpa using hc)

/-- The first character of a memory, which is not the NUL. -/
theorem getD_zero_eq_iff {c : UInt8} (hc : c ≠ 0) (s : List UInt8) :
    s.getD 0 0 = c ↔ s.head? = some c := by
  cases s with
  | nil => simpa using hc.symm
  | cons a s => simp

/-- The string in a memory begins with a character only if the memory does. -/
theorem head?_systemString_take {c : UInt8} {string : List UInt8} (h : string.head? ≠ some c)
    (size : ℕ) : (systemString (string.take size)).head? ≠ some c := by
  rintro hhead
  apply h
  have hfirst := List.singleton_prefix_iff_head?_eq_some.2 hhead
  exact List.singleton_prefix_iff_head?_eq_some.1
    (hfirst.trans ((List.takeWhile_prefix _).trans (List.take_prefix size string)))

/-- Both copies are the conversion of the string that the memory holds. -/
theorem systemStringCopyFrom64BitInDecimal_eq (string : List UInt8) {stringSize : ℕ}
    (hsize : stringSize ≤ ssizeMax) :
    systemStringCopyFrom64BitInDecimal string stringSize =
      mountHandleSystemStringCopyFrom64BitInDecimal (systemString (string.take stringSize)) := by
  have hminus : string.getD 0 0 = 0x2d ↔ string.head? = some minus :=
    getD_zero_eq_iff (by decide) string
  have hplus : string.getD 0 0 = 0x2b ↔ string.head? = some plus :=
    getD_zero_eq_iff (by decide) string
  rw [systemStringCopyFrom64BitInDecimal, if_neg (Nat.not_lt.2 hsize)]
  simp only [copyDecimalCharacters_eq, hminus, hplus]
  rcases sign_cases string with ⟨d, rfl⟩ | ⟨d, rfl⟩ | ⟨hnotMinus, hnotPlus⟩
  · rw [if_pos (by rfl)]
    cases stringSize with
    | zero => rfl
    | succ stringSize =>
      rw [List.take_succ_cons, systemString_cons (by decide)]
      rfl
  · rw [if_neg (by simp [plus, minus]), if_pos (by rfl)]
    cases stringSize with
    | zero => rfl
    | succ stringSize =>
      rw [List.take_succ_cons, systemString_cons (by decide)]
      rfl
  · rw [if_neg hnotMinus, if_neg hnotPlus, List.drop_zero,
      copyFrom64BitInDecimal_unsigned ⟨head?_systemString_take hnotMinus stringSize,
        head?_systemString_take hnotPlus stringSize⟩]

/-! ## What is converted -/

/-- The test of the loop. -/
theorem is_digit_iff (c : UInt8) : (0x30 ≤ c ∧ c ≤ 0x39) ↔ IsDigit c := by
  simp only [IsDigit, UInt8.le_iff_toNat_le, UInt8.reduceToNat]

/-- One digit, modulo `2 ^ 64`. -/
theorem ofNat_mul_ten_add {c : UInt8} (hc : IsDigit c) (n : ℕ) :
    UInt64.ofNat n * 10 + (c - 0x30).toUInt64 = UInt64.ofNat (n * 10 + (c.toNat - 48)) := by
  have hle : (0x30 : UInt8) ≤ c := UInt8.le_iff_toNat_le.2 hc.1
  have hvalue : (c - 0x30).toUInt64 = UInt64.ofNat (c.toNat - 48) := by
    apply UInt64.toNat_inj.1
    rw [UInt8.toNat_toUInt64, UInt8.toNat_sub_of_le _ _ hle, UInt64.toNat_ofNat']
    have hc := hc.2
    rw [Nat.mod_eq_of_lt (by omega)]
    rfl
  rw [hvalue, UInt64.ofNat_add, UInt64.ofNat_mul]
  rfl

/-- The loop converts as many digits as the index allows. -/
theorem copyDecimalDigits_digits {maximumStringIndex : ℕ} {s : List UInt8}
    (hs : ∀ c ∈ s, IsDigit c) {stringIndex : ℕ}
    (hindex : stringIndex + s.length ≤ maximumStringIndex + 1) (n : ℕ) :
    copyDecimalDigits maximumStringIndex s stringIndex (UInt64.ofNat n) =
      some (UInt64.ofNat (s.foldl (fun v c => v * 10 + (c.toNat - 48)) n)) := by
  induction s generalizing stringIndex n with
  | nil => rfl
  | cons c s ih =>
    rcases List.forall_mem_cons.1 hs with ⟨hc, hs⟩
    rw [List.length_cons] at hindex
    rw [copyDecimalDigits, if_neg (by omega), if_pos ((is_digit_iff c).2 hc), ofNat_mul_ten_add hc,
      ih hs (by omega), List.foldl_cons]

/-- It rejects more digits, and every other character. -/
theorem copyDecimalDigits_rejected {maximumStringIndex : ℕ} {s : List UInt8} {stringIndex : ℕ}
    (hindex : stringIndex ≤ maximumStringIndex + 1)
    (hs : maximumStringIndex + 1 < stringIndex + s.length ∨ ∃ c ∈ s, ¬ IsDigit c)
    (value64bit : UInt64) :
    copyDecimalDigits maximumStringIndex s stringIndex value64bit = none := by
  induction s generalizing stringIndex value64bit with
  | nil =>
    rcases hs with hlong | ⟨c, hc, -⟩
    · rw [List.length_nil] at hlong
      omega
    · cases hc
  | cons c s ih =>
    rw [copyDecimalDigits]
    split_ifs with hlarge hdigit
    · rfl
    · -- what is wrong with the string is behind a digit at a valid index
      apply ih (by omega)
      rcases hs with hlong | ⟨c', hc', hnot⟩
      · rw [List.length_cons] at hlong
        exact Or.inl (by omega)
      · rcases List.mem_cons.1 hc' with rfl | hc'
        · exact absurd ((is_digit_iff c').1 hdigit) hnot
        · exact Or.inr ⟨c', hc', hnot⟩
    · rfl

/-- The strings that are rejected: those with more than 21 characters behind the sign, or one that
is not a digit. -/
def IsRejected (s : List UInt8) : Prop :=
  21 < (afterSign s).length ∨ ∃ c ∈ afterSign s, ¬ IsDigit c

/-- Nothing is converted of a rejected string. -/
theorem IsRejected.eq_none {s : List UInt8} (h : IsRejected s) :
    mountHandleSystemStringCopyFrom64BitInDecimal s = none := by
  rcases sign_cases s with ⟨d, rfl⟩ | ⟨d, rfl⟩ | hunsigned
  · rw [IsRejected, afterSign_minus] at h
    rw [copyFrom64BitInDecimal_minus, copyDecimalDigits_rejected (by decide)
      (h.imp_left fun hlong => by omega)]
    rfl
  · rw [IsRejected, afterSign_plus] at h
    rw [copyFrom64BitInDecimal_plus, copyDecimalDigits_rejected (by decide)
      (h.imp_left fun hlong => by omega)]
  · rw [IsRejected, afterSign_of_unsigned hunsigned] at h
    rw [copyFrom64BitInDecimal_unsigned hunsigned, copyDecimalDigits_rejected (by decide)
      (h.imp_left fun hlong => by omega)]

/-- The negated value, modulo `2 ^ 64`. -/
theorem toNat_ofNat_mul_neg_one (n : ℕ) :
    ((UInt64.ofNat n * 0xffffffffffffffff).toNat : ℤ) = -(n : ℤ) % 2 ^ 64 := by
  rw [UInt64.toNat_mul, UInt64.toNat_ofNat', show (0xffffffffffffffff : UInt64).toNat = 2 ^ 64 - 1
    from rfl]
  omega

/-- Every other string is converted to its signed value, modulo `2 ^ 64`. -/
theorem exists_value_of_not_isRejected {s : List UInt8} (h : ¬ IsRejected s) :
    ∃ value64bit, mountHandleSystemStringCopyFrom64BitInDecimal s = some value64bit ∧
      (value64bit.toNat : ℤ) = signedValue s % 2 ^ 64 := by
  rw [IsRejected] at h
  push Not at h
  rcases h with ⟨hlength, hdigits⟩
  rcases sign_cases s with ⟨d, rfl⟩ | ⟨d, rfl⟩ | hunsigned
  · rw [afterSign_minus] at hlength hdigits
    rw [copyFrom64BitInDecimal_minus, signedValue_minus]
    refine ⟨_, congrArg _ (copyDecimalDigits_digits hdigits (by omega) 0), ?_⟩
    exact toNat_ofNat_mul_neg_one _
  · rw [afterSign_plus] at hlength hdigits
    rw [copyFrom64BitInDecimal_plus, signedValue_plus]
    refine ⟨_, copyDecimalDigits_digits hdigits (by omega) 0, ?_⟩
    rw [UInt64.toNat_ofNat']
    rfl
  · rw [afterSign_of_unsigned hunsigned] at hlength hdigits
    rw [copyFrom64BitInDecimal_unsigned hunsigned, signedValue_of_unsigned hunsigned]
    refine ⟨_, copyDecimalDigits_digits hdigits (by omega) 0, ?_⟩
    rw [UInt64.toNat_ofNat']
    rfl

/-! ## Exact offsets -/

/-- The conversion is exact: where it has a value, the string stands for an integer that 64 bits
represent, and the value is that integer modulo `2 ^ 64`. -/
def ConvertsExactly (s : List UInt8) (result : Option UInt64) : Prop :=
  ∀ value64bit, result = some value64bit →
    ∃ v : ℤ, Denotes s v ∧ -2 ^ 63 ≤ v ∧ v < 2 ^ 64 ∧ (value64bit.toNat : ℤ) = v % 2 ^ 64

/-- The offset of a handle is exact: where setting it has the result 1, it is the integer that the
string stands for. -/
def StoresExactly (s : List UInt8) (volumeOffset result : ℤ) : Prop :=
  result = 1 → ∃ v : ℤ, Denotes s v ∧ volumeOffset = v

/-- There are characters behind the sign, and their value with the sign is in range. -/
def HasValueBelow (bound : ℤ) (s : List UInt8) : Prop :=
  afterSign s ≠ [] ∧ -2 ^ 63 ≤ signedValue s ∧ signedValue s < bound

/-- A string that is not rejected stands for its signed value, if it has digits. -/
theorem denotes_iff_of_not_isRejected {s : List UInt8} (h : ¬ IsRejected s) {v : ℤ} :
    Denotes s v ↔ afterSign s ≠ [] ∧ v = signedValue s := by
  rw [IsRejected] at h
  push Not at h
  rw [denotes_iff]
  constructor
  · rintro ⟨hne, -, hv⟩
    exact ⟨hne, hv⟩
  · rintro ⟨hne, hv⟩
    exact ⟨hne, h.2, hv⟩

theorem convertsExactly_iff (s : List UInt8) :
    ConvertsExactly s (mountHandleSystemStringCopyFrom64BitInDecimal s) ↔
      IsRejected s ∨ HasValueBelow (2 ^ 64) s := by
  by_cases h : IsRejected s
  · rw [h.eq_none]
    constructor
    · rintro -
      exact Or.inl h
    · rintro - value64bit hnone
      cases hnone
  · rcases exists_value_of_not_isRejected h with ⟨value64bit, heq, hvalue⟩
    rw [heq]
    constructor
    · intro hexact
      rcases hexact value64bit rfl with ⟨v, hv, hl, hu, -⟩
      rcases (denotes_iff_of_not_isRejected h).1 hv with ⟨hne, rfl⟩
      exact Or.inr ⟨hne, hl, hu⟩
    · -- the value is that of the digits, as the string is in range
      rintro (hrejected | ⟨hne, hl, hu⟩) value heq
      · exact absurd hrejected h
      · cases heq
        exact ⟨signedValue s, (denotes_iff_of_not_isRejected h).2 ⟨hne, rfl⟩, hl, hu, hvalue⟩

/-- The signed offset of a 64-bit value is that of every integer it is the value of. -/
theorem off64_toNat_eq {value64bit : UInt64} {v : ℤ}
    (h : (value64bit.toNat : ℤ) = v % 2 ^ 64) : off64 value64bit.toNat = off64 v := by
  rw [h, off64, off64]
  exact @Int.emod_bmod v (2 ^ 64)

/-- The offset that is stored is exact where the value is in the range of its type. -/
theorem storesExactly_iff {s : List UInt8} {volumeOffset result : ℤ}
    (hrejected : IsRejected s → result = -1)
    (hstored : ¬ IsRejected s → volumeOffset = off64 (signedValue s) ∧ result = 1) :
    StoresExactly s volumeOffset result ↔ IsRejected s ∨ HasValueBelow (2 ^ 63) s := by
  by_cases h : IsRejected s
  · constructor
    · rintro -
      exact Or.inl h
    · rintro - hone
      rw [hrejected h] at hone
      cases hone
  · rcases hstored h with ⟨rfl, rfl⟩
    have hrange := off64_range (signedValue s)
    constructor
    · intro hexact
      rcases hexact rfl with ⟨v, hv, heq⟩
      rcases (denotes_iff_of_not_isRejected h).1 hv with ⟨hne, rfl⟩
      rw [heq] at hrange
      exact Or.inr ⟨hne, hrange⟩
    · rintro (hrejected | ⟨hne, hl, hu⟩) -
      · exact absurd hrejected h
      · exact ⟨signedValue s, (denotes_iff_of_not_isRejected h).2 ⟨hne, rfl⟩, off64_eq_self hl hu⟩

theorem mountHandleSetOffset_storesExactly_iff (mountHandle : MountHandle) (s : List UInt8) :
    StoresExactly s (mountHandleSetOffset mountHandle s).1.volumeOffset
      (mountHandleSetOffset mountHandle s).2 ↔ IsRejected s ∨ HasValueBelow (2 ^ 63) s := by
  apply storesExactly_iff
  · intro h
    rw [mountHandleSetOffset, h.eq_none]
  · intro h
    rcases exists_value_of_not_isRejected h with ⟨value64bit, heq, hvalue⟩
    rw [mountHandleSetOffset, heq]
    dsimp only
    exact ⟨off64_toNat_eq hvalue, rfl⟩

/-- The string up to its NUL, and the NUL, hold the same string. -/
theorem systemString_take_length (string : List UInt8) :
    systemString (string.take ((systemString string).length + 1)) = systemString string := by
  induction string with
  | nil => rfl
  | cons c string ih =>
    by_cases hc : c = 0
    · subst hc
      rfl
    · rw [systemString_cons hc, List.length_cons, List.take_succ_cons, systemString_cons hc, ih]

/-- A string that is too large for the size check has too many characters. -/
theorem isRejected_of_large {s : List UInt8} (h : ssizeMax < s.length + 1) : IsRejected s := by
  left
  have hmax : ssizeMax = 2 ^ 63 - 1 := rfl
  rw [afterSign]
  split
  · rw [List.length_tail]
    omega
  · omega

/-- The conversion on the string of the info handle. -/
theorem luksdetoolsSystemString_length (string : List UInt8) :
    luksdetoolsSystemStringCopyFrom64BitInDecimal string ((systemString string).length + 1) =
      mountHandleSystemStringCopyFrom64BitInDecimal (systemString string) := by
  rw [luksdetoolsSystemStringCopyFrom64BitInDecimal]
  rcases Nat.lt_or_ge ssizeMax ((systemString string).length + 1) with hlarge | hsize
  · rw [systemStringCopyFrom64BitInDecimal, if_pos hlarge, (isRejected_of_large hlarge).eq_none]
  · rw [systemStringCopyFrom64BitInDecimal_eq string hsize, systemString_take_length]

theorem infoHandleSetVolumeOffset_storesExactly_iff (infoHandle : InfoHandle)
    (string : List UInt8) :
    StoresExactly (systemString string) (infoHandleSetVolumeOffset infoHandle string).1.volumeOffset
        (infoHandleSetVolumeOffset infoHandle string).2 ↔
      IsRejected (systemString string) ∨ HasValueBelow (2 ^ 63) (systemString string) := by
  apply storesExactly_iff
  · intro h
    rw [infoHandleSetVolumeOffset, luksdetoolsSystemString_length, h.eq_none]
  · intro h
    rcases exists_value_of_not_isRejected h with ⟨value64bit, heq, hvalue⟩
    rw [infoHandleSetVolumeOffset, luksdetoolsSystemString_length, heq]
    dsimp only
    exact ⟨off64_toNat_eq hvalue, rfl⟩

/-- Both conversions are exact for the strings that they reject and for those whose value 64 bits
represent; both offsets are exact for those that are rejected and for those whose value is in the
range of an offset. -/
theorem decimalOffset_exact_iff (string : List UInt8) (stringSize : ℕ) (mountHandle : MountHandle)
    (infoHandle : InfoHandle) :
    (ConvertsExactly (systemString (string.take stringSize))
        (luksdetoolsSystemStringCopyFrom64BitInDecimal string stringSize) ↔
      ssizeMax < stringSize ∨ IsRejected (systemString (string.take stringSize)) ∨
        HasValueBelow (2 ^ 64) (systemString (string.take stringSize))) ∧
    (ConvertsExactly (systemString string)
        (mountHandleSystemStringCopyFrom64BitInDecimal (systemString string)) ↔
      IsRejected (systemString string) ∨ HasValueBelow (2 ^ 64) (systemString string)) ∧
    (StoresExactly (systemString string)
        (mountHandleSetOffset mountHandle (systemString string)).1.volumeOffset
        (mountHandleSetOffset mountHandle (systemString string)).2 ↔
      IsRejected (systemString string) ∨ HasValueBelow (2 ^ 63) (systemString string)) ∧
    (StoresExactly (systemString string)
        (infoHandleSetVolumeOffset infoHandle string).1.volumeOffset
        (infoHandleSetVolumeOffset infoHandle string).2 ↔
      IsRejected (systemString string) ∨ HasValueBelow (2 ^ 63) (systemString string)) := by
  refine ⟨?_, convertsExactly_iff _, mountHandleSetOffset_storesExactly_iff mountHandle _,
    infoHandleSetVolumeOffset_storesExactly_iff infoHandle string⟩
  rw [luksdetoolsSystemStringCopyFrom64BitInDecimal]
  rcases Nat.lt_or_ge ssizeMax stringSize with hlarge | hsize
  · rw [systemStringCopyFrom64BitInDecimal, if_pos hlarge]
    constructor
    · rintro -
      exact Or.inl hlarge
    · rintro - value64bit hnone
      cases hnone
  · rw [systemStringCopyFrom64BitInDecimal_eq string hsize, convertsExactly_iff]
    exact (or_iff_right (Nat.not_lt.2 hsize)).symm

/-- The numeral of `2 ^ 64`. -/
def tooLarge : List UInt8 :=
  [1, 8, 4, 4, 6, 7, 4, 4, 0, 7, 3, 7, 0, 9, 5, 5, 1, 6, 1, 6].map digit

/-- The numeral of `2 ^ 63`. -/
def tooLargeOffset : List UInt8 :=
  [9, 2, 2, 3, 3, 7, 2, 0, 3, 6, 8, 5, 4, 7, 7, 5, 8, 0, 8].map digit

/-- The empty string and a sign alone are converted to zero, so is the numeral of `2 ^ 64`, and the
offset `2 ^ 63` is stored as a negative one. -/
theorem decimalOffset_not_exact :
    ¬ ConvertsExactly [] (mountHandleSystemStringCopyFrom64BitInDecimal []) ∧
      ¬ ConvertsExactly [minus] (luksdetoolsSystemStringCopyFrom64BitInDecimal [minus, 0] 2) ∧
      ¬ ConvertsExactly tooLarge (mountHandleSystemStringCopyFrom64BitInDecimal tooLarge) ∧
      mountHandleSystemStringCopyFrom64BitInDecimal tooLarge = some 0 ∧
      ¬ StoresExactly tooLargeOffset
        (mountHandleSetOffset (mountHandleInitialize 0) tooLargeOffset).1.volumeOffset
        (mountHandleSetOffset (mountHandleInitialize 0) tooLargeOffset).2 ∧
      mountHandleSetOffset (mountHandleInitialize 0) tooLargeOffset =
        ({ mountHandleInitialize 0 with volumeOffset := -2 ^ 63 }, 1) := by
  have hwrapped : mountHandleSystemStringCopyFrom64BitInDecimal tooLarge = some 0 := by decide
  have hnegative : mountHandleSetOffset (mountHandleInitialize 0) tooLargeOffset =
      ({ mountHandleInitialize 0 with volumeOffset := -2 ^ 63 }, 1) := by decide
  refine ⟨?_, ?_, ?_, hwrapped, ?_, hnegative⟩
  · intro hexact
    rcases hexact 0 (by decide) with ⟨v, hv, -⟩
    exact (denotes_iff.1 hv).1 rfl
  · intro hexact
    rcases hexact 0 (by decide) with ⟨v, hv, -⟩
    exact (denotes_iff.1 hv).1 rfl
  · intro hexact
    rcases hexact 0 hwrapped with ⟨v, hv, -, hu, -⟩
    have hvalue : v = 2 ^ 64 := (denotes_iff.1 hv).2.2
    exact absurd hu (by rw [hvalue]; decide)
  · intro hexact
    rw [hnegative] at hexact
    rcases hexact rfl with ⟨v, hv, heq⟩
    have hvalue : v = 2 ^ 63 := (denotes_iff.1 hv).2.2
    rw [hvalue] at heq
    exact absurd heq (by decide)

end Libluksde
