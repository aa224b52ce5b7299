import Libluksde.Lib.Bytes

/-!
# Definitions

The enumerations and constants of `libluksde_definitions.h`, `common/memory.h` and
`common/types.h`, and the byte stream macros of `common/byte_stream.h`.

A `size_t`, `size64_t` or `off64_t` is a number (`ℕ` or `ℤ`) with the wrap-around written
out where the code can reach it; the fixed-width fields of the on-disk format are `UInt16`
and `UInt32`, and a sector number is a `UInt64`.
-/

namespace Libluksde

open Lib.Bytes

/-- `LIBLUKSDE_ENCRYPTION_METHODS` -/
inductive EncryptionMethod
  | unknown | aes | anubis | arc4 | blowfish | cast5 | cast6 | serpent | twofish
deriving DecidableEq, Repr

/-- `LIBLUKSDE_ENCRYPTION_CHAINING_MODES` -/
inductive EncryptionChainingMode
  | unknown | cbc | ecb | xts
deriving DecidableEq, Repr

/-- `LIBLUKSDE_INITIALIZATION_VECTOR_MODES` -/
inductive InitializationVectorMode
  | unknown | benbi | essiv | lmk | none | null | plain32 | plain64
deriving DecidableEq, Repr

/-- `LIBLUKSDE_HASHING_METHODS` -/
inductive HashingMethod
  | unknown | ripemd160 | sha1 | sha224 | sha256 | sha512
deriving DecidableEq, Repr

/-- `LIBLUKSDE_ENCRYPTION_MODES`: the combinations of a method and a chaining mode. -/
inductive EncryptionMode
  | unknown | aesCbc | aesEcb | aesXts | blowfishCbc | blowfishEcb | rc4Cbc | rc4Ecb
  | serpentCbc | serpentEcb
deriving DecidableEq, Repr

/-- `LIBLUKSDE_ENCRYPTION_CRYPT_MODES` -/
inductive CryptMode
  | decrypt | encrypt
deriving DecidableEq, Repr

/-- `SSIZE_MAX` on a 64-bit platform. -/
def ssizeMax : ℕ := 2 ^ 63 - 1

/-- `MEMORY_MAXIMUM_ALLOCATION_SIZE` -/
def memoryMaximumAllocationSize : ℕ := 128 * 1024 * 1024

/-- `LIBLUKSDE_ACCESS_FLAG_READ` -/
def accessFlagRead : ℕ := 1

/-- `LIBLUKSDE_ACCESS_FLAG_WRITE` -/
def accessFlagWrite : ℕ := 2

/-- The value of a 64-bit signed integer (`off64_t`) after an operation whose exact result
is `x`: two's complement wrap-around. -/
def off64 (x : ℤ) : ℤ := Int.bmod x (2 ^ 64)

theorem off64_eq_self {x : ℤ} (hl : -2 ^ 63 ≤ x) (hu : x < 2 ^ 63) : off64 x = x := by
  unfold off64
  rw [Int.bmod_def]
  split <;> omega

/-- A value of the type `off64_t`. -/
def Off64 : Type := { x : ℤ // -2 ^ 63 ≤ x ∧ x < 2 ^ 63 }

theorem off64_range (x : ℤ) : -2 ^ 63 ≤ off64 x ∧ off64 x < 2 ^ 63 := by
  unfold off64
  rw [Int.bmod_def]
  split <;> omega

/-- The value of a 64-bit unsigned integer (`uint64_t`, `size64_t`) after a cast or an
operation whose exact result is `x`. -/
def size64 (x : ℤ) : ℕ := (x % 2 ^ 64).toNat

/-! ## The byte stream macros -/

/-- The byte at an index of a byte string. -/
def byteAt (bs : List UInt8) (i : ℕ) : UInt8 := bs.getD i 0

/-- `byte_stream_copy_to_uint16_big_endian` -/
def byteStreamCopyToUInt16BigEndian (bs : List UInt8) : UInt16 :=
  (byteAt bs 0).toUInt16 <<< 8 ||| (byteAt bs 1).toUInt16

/-- `byte_stream_copy_to_uint32_big_endian` -/
def byteStreamCopyToUInt32BigEndian (bs : List UInt8) : UInt32 :=
  (((byteAt bs 0).toUInt32 <<< 8 ||| (byteAt bs 1).toUInt32) <<< 8 |||
    (byteAt bs 2).toUInt32) <<< 8 ||| (byteAt bs 3).toUInt32

/-- `byte_stream_copy_from_uint16_big_endian` -/
def byteStreamCopyFromUInt16BigEndian (value : UInt16) : List UInt8 :=
  [(value >>> 8 &&& 0xff).toUInt8, (value &&& 0xff).toUInt8]

/-- `byte_stream_copy_from_uint32_big_endian` -/
def byteStreamCopyFromUInt32BigEndian (value : UInt32) : List UInt8 :=
  [(value >>> 24 &&& 0xff).toUInt8, (value >>> 16 &&& 0xff).toUInt8,
    (value >>> 8 &&& 0xff).toUInt8, (value &&& 0xff).toUInt8]

/-- `byte_stream_copy_from_uint32_little_endian` -/
def byteStreamCopyFromUInt32LittleEndian (value : UInt32) : List UInt8 :=
  [(value &&& 0xff).toUInt8, (value >>> 8 &&& 0xff).toUInt8,
    (value >>> 16 &&& 0xff).toUInt8, (value >>> 24 &&& 0xff).toUInt8]

/-- `byte_stream_copy_from_uint64_little_endian` -/
def byteStreamCopyFromUInt64LittleEndian (value : UInt64) : List UInt8 :=
  [(value &&& 0xff).toUInt8, (value >>> 8 &&& 0xff).toUInt8,
    (value >>> 16 &&& 0xff).toUInt8, (value >>> 24 &&& 0xff).toUInt8,
    (value >>> 32 &&& 0xff).toUInt8, (value >>> 40 &&& 0xff).toUInt8,
    (value >>> 48 &&& 0xff).toUInt8, (value >>> 56 &&& 0xff).toUInt8]

/-- `byte_stream_copy_from_uint64_big_endian` -/
def byteStreamCopyFromUInt64BigEndian (value : UInt64) : List UInt8 :=
  [(value >>> 56 &&& 0xff).toUInt8, (value >>> 48 &&& 0xff).toUInt8,
    (value >>> 40 &&& 0xff).toUInt8, (value >>> 32 &&& 0xff).toUInt8,
    (value >>> 24 &&& 0xff).toUInt8, (value >>> 16 &&& 0xff).toUInt8,
    (value >>> 8 &&& 0xff).toUInt8, (value &&& 0xff).toUInt8]

/-! ### The macros read and write the positional representations -/

/-- A byte cut out of a number by a shift and a mask is a digit to base 256. -/
theorem uint32_byte (value : UInt32) (k : ℕ) (hk : k < 32) :
    (value >>> UInt32.ofNat k &&& 0xff).toUInt8 = UInt8.ofNat (value.toNat / 2 ^ k) := by
  apply UInt8.toNat_inj.1
  have hk' : k % 2 ^ 32 % 32 = k := by omega
  simp only [UInt32.toNat_toUInt8, UInt32.toNat_and, UInt32.toNat_shiftRight,
    UInt32.toNat_ofNat', UInt32.reduceToNat, UInt8.toNat_ofNat', hk',
    Nat.shiftRight_eq_div_pow]
  rw [show (255 : ℕ) = 2 ^ 8 - 1 by rfl, Nat.and_two_pow_sub_one_eq_mod, Nat.mod_mod]

theorem uint64_byte (value : UInt64) (k : ℕ) (hk : k < 64) :
    (value >>> UInt64.ofNat k &&& 0xff).toUInt8 = UInt8.ofNat (value.toNat / 2 ^ k) := by
  apply UInt8.toNat_inj.1
  have hk' : k % 2 ^ 64 % 64 = k := by omega
  simp only [UInt64.toNat_toUInt8, UInt64.toNat_and, UInt64.toNat_shiftRight,
    UInt64.toNat_ofNat', UInt64.reduceToNat, UInt8.toNat_ofNat', hk',
    Nat.shiftRight_eq_div_pow]
  rw [show (255 : ℕ) = 2 ^ 8 - 1 by rfl, Nat.and_two_pow_sub_one_eq_mod, Nat.mod_mod]

theorem byteStreamCopyFromUInt32LittleEndian_eq (value : UInt32) :
    byteStreamCopyFromUInt32LittleEndian value = toLittleEndian 4 value.toNat := by
  have h0 := uint32_byte value 0 (by norm_num)
  have h1 := uint32_byte value 8 (by norm_num)
  have h2 := uint32_byte value 16 (by norm_num)
  have h3 := uint32_byte value 24 (by norm_num)
  simp only [pow_zero, Nat.div_one, UInt32.reduceOfNat, UInt32.shiftRight_zero] at h0 h1 h2 h3
  simp only [byteStreamCopyFromUInt32LittleEndian, toLittleEndian, h0, h1, h2, h3,
    Nat.div_div_eq_div_mul]
  norm_num

theorem byteStreamCopyFromUInt32BigEndian_eq (value : UInt32) :
    byteStreamCopyFromUInt32BigEndian value = toBigEndian 4 value.toNat := by
  rw [toBigEndian, ← byteStreamCopyFromUInt32LittleEndian_eq]
  rfl

/-- A number of 32 bits that has not wrapped around. -/
theorem byteStreamCopyFromUInt32BigEndian_ofNat {i : ℕ} (hi : i < 2 ^ 32) :
    byteStreamCopyFromUInt32BigEndian (UInt32.ofNat i) = toBigEndian 4 i := by
  rw [byteStreamCopyFromUInt32BigEndian_eq, UInt32.toNat_ofNat', Nat.mod_eq_of_lt hi]

theorem byteStreamCopyFromUInt64LittleEndian_eq (value : UInt64) :
    byteStreamCopyFromUInt64LittleEndian value = toLittleEndian 8 value.toNat := by
  have h0 := uint64_byte value 0 (by norm_num)
  have h1 := uint64_byte value 8 (by norm_num)
  have h2 := uint64_byte value 16 (by norm_num)
  have h3 := uint64_byte value 24 (by norm_num)
  have h4 := uint64_byte value 32 (by norm_num)
  have h5 := uint64_byte value 40 (by norm_num)
  have h6 := uint64_byte value 48 (by norm_num)
  have h7 := uint64_byte value 56 (by norm_num)
  simp only [pow_zero, Nat.div_one, UInt64.reduceOfNat, UInt64.shiftRight_zero]
    at h0 h1 h2 h3 h4 h5 h6 h7
  simp only [byteStreamCopyFromUInt64LittleEndian, toLittleEndian, h0, h1, h2, h3, h4, h5, h6,
    h7, Nat.div_div_eq_div_mul]
  norm_num

theorem byteStreamCopyFromUInt64BigEndian_eq (value : UInt64) :
    byteStreamCopyFromUInt64BigEndian value = toBigEndian 8 value.toNat := by
  rw [toBigEndian, ← byteStreamCopyFromUInt64LittleEndian_eq]
  rfl

/-- One `value <<= 8; value |= byte` of the reading macros. -/
theorem uint32_shift_or (a : UInt32) (b : UInt8) (h : a.toNat < 2 ^ 24) :
    (a <<< 8 ||| b.toUInt32).toNat = a.toNat * 256 + b.toNat := by
  have hb : b.toNat < 2 ^ 8 := b.toNat_lt
  have hshift : (a <<< 8).toNat = a.toNat <<< 8 := by
    rw [UInt32.toNat_shiftLeft, show (8 : UInt32).toNat % 32 = 8 from rfl,
      Nat.mod_eq_of_lt (by rw [Nat.shiftLeft_eq]; omega)]
  rw [UInt32.toNat_or, hshift, UInt8.toNat_toUInt32,
    ← Nat.shiftLeft_add_eq_or_of_lt hb, Nat.shiftLeft_eq]

theorem byteStreamCopyToUInt32BigEndian_toNat (b₀ b₁ b₂ b₃ : UInt8) (bs : List UInt8) :
    (byteStreamCopyToUInt32BigEndian (b₀ :: b₁ :: b₂ :: b₃ :: bs)).toNat =
      ofBigEndian [b₀, b₁, b₂, b₃] := by
  have h₀ := b₀.toNat_lt
  have h₁ := b₁.toNat_lt
  have h₂ := b₂.toNat_lt
  have e₀ : b₀.toUInt32.toNat = b₀.toNat := by simp
  have e₁ := uint32_shift_or b₀.toUInt32 b₁ (by omega)
  have e₂ := uint32_shift_or (b₀.toUInt32 <<< 8 ||| b₁.toUInt32) b₂ (by omega)
  have e₃ := uint32_shift_or ((b₀.toUInt32 <<< 8 ||| b₁.toUInt32) <<< 8 ||| b₂.toUInt32) b₃
    (by omega)
  simp only [byteStreamCopyToUInt32BigEndian, byteAt, List.getD_cons_zero, List.getD_cons_succ,
    e₃, e₂, e₁, e₀, ofBigEndian, List.foldl_cons, List.foldl_nil]
  omega

/-- Reading back a number that was written big-endian. -/
theorem byteStreamCopyToUInt32BigEndian_from (value : UInt32) (bs : List UInt8) :
    byteStreamCopyToUInt32BigEndian (byteStreamCopyFromUInt32BigEndian value ++ bs) = value := by
  apply UInt32.toNat_inj.1
  have hv := value.toNat_lt
  have hread := byteStreamCopyToUInt32BigEndian_toNat (value >>> 24 &&& 0xff).toUInt8
    (value >>> 16 &&& 0xff).toUInt8 (value >>> 8 &&& 0xff).toUInt8 (value &&& 0xff).toUInt8 bs
  have hbytes : [(value >>> 24 &&& 0xff).toUInt8, (value >>> 16 &&& 0xff).toUInt8,
      (value >>> 8 &&& 0xff).toUInt8, (value &&& 0xff).toUInt8]
      = toBigEndian 4 value.toNat := byteStreamCopyFromUInt32BigEndian_eq value
  rw [hbytes, ofBigEndian_toBigEndian] at hread
  rw [byteStreamCopyFromUInt32BigEndian, List.cons_append, List.cons_append, List.cons_append,
    List.cons_append, List.nil_append, hread]
  omega

/-- Writing back a number that was read big-endian from four bytes. -/
theorem byteStreamCopyFromUInt32BigEndian_to {bs : List UInt8} (h : bs.length = 4) :
    byteStreamCopyFromUInt32BigEndian (byteStreamCopyToUInt32BigEndian bs) = bs := by
  match bs, h with
  | [b₀, b₁, b₂, b₃], _ =>
    rw [byteStreamCopyFromUInt32BigEndian_eq, byteStreamCopyToUInt32BigEndian_toNat]
    exact toBigEndian_ofBigEndian [b₀, b₁, b₂, b₃]

/-- Writing back a number that was read big-endian from two bytes. -/
theorem byteStreamCopyFromUInt16BigEndian_to {bs : List UInt8} (h : bs.length = 2) :
    byteStreamCopyFromUInt16BigEndian (byteStreamCopyToUInt16BigEndian bs) = bs := by
  match bs, h with
  | [b₀, b₁], _ =>
    have h₀ := b₀.toNat_lt
    have h₁ := b₁.toNat_lt
    have hvalue : (b₀.toUInt16 <<< 8 ||| b₁.toUInt16).toNat = b₀.toNat * 2 ^ 8 + b₁.toNat := by
      have hshift : (b₀.toUInt16 <<< 8).toNat = b₀.toNat <<< 8 := by
        rw [UInt16.toNat_shiftLeft, show (8 : UInt16).toNat % 16 = 8 from rfl,
          UInt8.toNat_toUInt16, Nat.mod_eq_of_lt (by rw [Nat.shiftLeft_eq]; omega)]
      rw [UInt16.toNat_or, hshift, UInt8.toNat_toUInt16, ← Nat.shiftLeft_add_eq_or_of_lt h₁,
        Nat.shiftLeft_eq]
    have hhigh : ((b₀.toUInt16 <<< 8 ||| b₁.toUInt16) >>> 8 &&& 0xff).toUInt8 = b₀ := by
      apply UInt8.toNat_inj.1
      rw [UInt16.toNat_toUInt8, UInt16.toNat_and, UInt16.toNat_shiftRight, hvalue,
        show (8 : UInt16).toNat % 16 = 8 from rfl, show (0xff : UInt16).toNat = 2 ^ 8 - 1 from rfl,
        Nat.and_two_pow_sub_one_eq_mod, Nat.shiftRight_eq_div_pow]
      omega
    have hlow : ((b₀.toUInt16 <<< 8 ||| b₁.toUInt16) &&& 0xff).toUInt8 = b₁ := by
      apply UInt8.toNat_inj.1
      rw [UInt16.toNat_toUInt8, UInt16.toNat_and, hvalue,
        show (0xff : UInt16).toNat = 2 ^ 8 - 1 from rfl, Nat.and_two_pow_sub_one_eq_mod]
      omega
    rw [byteStreamCopyToUInt16BigEndian, byteStreamCopyFromUInt16BigEndian]
    simp only [byteAt, List.getD_cons_zero, List.getD_cons_succ, hhigh, hlow]

end Libluksde
