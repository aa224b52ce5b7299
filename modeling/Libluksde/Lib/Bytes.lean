import Mathlib.Data.List.Basic
import Mathlib.Data.Nat.Bitwise
import Mathlib.Tactic.Ring
import Mathlib.Tactic.NormNum

/-!
# Byte strings

Byte strings are lists of `UInt8`.  This file collects what any program that reads and
writes binary formats needs of them: the big- and little-endian readings of a byte string
as a number and their round trips, the fixed-size window `slice` of a byte string, writing
a byte string into a buffer, and exclusive or.
-/

namespace Lib.Bytes

/-! ## Numbers -/

/-- The number whose big-endian representation is the given byte string. -/
def ofBigEndian (bs : List UInt8) : ℕ := bs.foldl (fun acc b => acc * 256 + b.toNat) 0

/-- The number whose little-endian representation is the given byte string. -/
def ofLittleEndian : List UInt8 → ℕ
  | [] => 0
  | b :: bs => b.toNat + 256 * ofLittleEndian bs

/-- The `w` low bytes of a number, the least significant first. -/
def toLittleEndian : ℕ → ℕ → List UInt8
  | 0, _ => []
  | w + 1, n => UInt8.ofNat n :: toLittleEndian w (n / 256)

/-- The `w` low bytes of a number, the most significant first. -/
def toBigEndian (w n : ℕ) : List UInt8 := (toLittleEndian w n).reverse

@[simp] theorem length_toLittleEndian (w n : ℕ) : (toLittleEndian w n).length = w := by
  induction w generalizing n with
  | zero => rfl
  | succ w ih => simp [toLittleEndian, ih]

@[simp] theorem length_toBigEndian (w n : ℕ) : (toBigEndian w n).length = w := by
  simp [toBigEndian]

theorem ofBigEndian_reverse (bs : List UInt8) : ofBigEndian bs.reverse = ofLittleEndian bs := by
  rw [ofBigEndian, List.foldl_reverse]
  induction bs with
  | nil => rfl
  | cons b bs ih =>
    rw [List.foldr_cons, ih, ofLittleEndian]
    ring

theorem ofLittleEndian_toLittleEndian (w n : ℕ) :
    ofLittleEndian (toLittleEndian w n) = n % 256 ^ w := by
  induction w generalizing n with
  | zero => simp [toLittleEndian, ofLittleEndian, Nat.mod_one]
  | succ w ih =>
    have hsplit : n % 256 ^ (w + 1) = n % 256 + 256 * (n / 256 % 256 ^ w) := by
      rw [pow_succ', Nat.mod_mul]
    rw [toLittleEndian, ofLittleEndian, ih, UInt8.toNat_ofNat', hsplit]

theorem ofBigEndian_toBigEndian (w n : ℕ) : ofBigEndian (toBigEndian w n) = n % 256 ^ w := by
  rw [toBigEndian, ofBigEndian_reverse, ofLittleEndian_toLittleEndian]

theorem toLittleEndian_ofLittleEndian (bs : List UInt8) :
    toLittleEndian bs.length (ofLittleEndian bs) = bs := by
  induction bs with
  | nil => rfl
  | cons b bs ih =>
    have hb : b.toNat < 2 ^ 8 := b.toNat_lt
    have hlow : UInt8.ofNat (b.toNat + 256 * ofLittleEndian bs) = b := by
      apply UInt8.toNat_inj.1
      rw [UInt8.toNat_ofNat']
      omega
    have hhigh : (b.toNat + 256 * ofLittleEndian bs) / 256 = ofLittleEndian bs := by omega
    rw [List.length_cons, ofLittleEndian, toLittleEndian, hlow, hhigh, ih]

theorem toBigEndian_ofBigEndian (bs : List UInt8) :
    toBigEndian bs.length (ofBigEndian bs) = bs := by
  have h := toLittleEndian_ofLittleEndian bs.reverse
  rw [List.length_reverse] at h
  rw [toBigEndian, ← List.reverse_reverse bs, ofBigEndian_reverse, List.reverse_reverse, h,
    List.reverse_reverse]

/-- A number that is not zero modulo `256 ^ w` has a non-zero byte among its `w` low bytes. -/
theorem toBigEndian_ne_replicate_zero {w n : ℕ} (h : n % 256 ^ w ≠ 0) :
    toBigEndian w n ≠ List.replicate w 0 := by
  intro heq
  apply h
  rw [← ofBigEndian_toBigEndian w n, heq]
  have hzero : ∀ k, ofLittleEndian (List.replicate k 0) = 0 := by
    intro k
    induction k with
    | zero => rfl
    | succ k ih => simp [List.replicate_succ, ofLittleEndian, ih]
  rw [← List.reverse_replicate, ofBigEndian_reverse, hzero]

/-! ## Windows of a byte string -/

section Slice

variable {α : Type*}

/-- The `n` entries of a list from position `i` on (fewer where the list ends before). -/
def slice (i n : ℕ) (l : List α) : List α := (l.drop i).take n

theorem length_slice (i n : ℕ) (l : List α) : (slice i n l).length = min n (l.length - i) := by
  simp [slice]

theorem length_slice_of_le {i n : ℕ} {l : List α} (h : i + n ≤ l.length) :
    (slice i n l).length = n := by
  rw [length_slice]
  omega

theorem getElem?_slice (i n j : ℕ) (l : List α) :
    (slice i n l)[j]? = if j < n then l[i + j]? else none := by
  rw [slice, List.getElem?_take]
  split <;> simp [List.getElem?_drop]

/-- A window that begins behind a prefix is a window of what follows the prefix. -/
theorem slice_append_right {i n : ℕ} {l₁ l₂ : List α} (h : l₁.length ≤ i) :
    slice i n (l₁ ++ l₂) = slice (i - l₁.length) n l₂ := by
  rw [slice, slice, List.drop_append, List.drop_eq_nil_of_le h, List.nil_append]

/-- A window that ends inside a prefix is a window of the prefix. -/
theorem slice_append_left {i n : ℕ} {l₁ l₂ : List α} (h : i + n ≤ l₁.length) :
    slice i n (l₁ ++ l₂) = slice i n l₁ := by
  apply List.ext_getElem?
  intro j
  rw [getElem?_slice, getElem?_slice]
  split
  · rw [List.getElem?_append_left (by omega)]
  · rfl

/-- Lists with a common prefix have the same windows inside it. -/
theorem slice_of_take_eq {i n k : ℕ} {l l' : List α} (h : l.take k = l'.take k) (hk : i + n ≤ k) :
    slice i n l = slice i n l' := by
  have hcut : ∀ l : List α, slice i n (l.take k) = slice i n l := by
    intro l
    rw [slice, slice, List.drop_take, List.take_take, Nat.min_eq_left (by omega)]
  rw [← hcut l, h, hcut l']

/-- The window over the first of two lists. -/
theorem slice_zero_append {n : ℕ} {l₁ l₂ : List α} (h : l₁.length = n) :
    slice 0 n (l₁ ++ l₂) = l₁ := by
  rw [slice, List.drop_zero, ← h, List.take_left]

@[simp] theorem slice_zero_length (l : List α) : slice 0 l.length l = l := by simp [slice]

/-- A window of a window. -/
theorem slice_slice {i n j m : ℕ} {l : List α} (h : j + m ≤ n) :
    slice j m (slice i n l) = slice (i + j) m l := by
  apply List.ext_getElem?
  intro k
  rw [getElem?_slice, getElem?_slice, getElem?_slice]
  by_cases hk : k < m
  · rw [if_pos hk, if_pos hk, if_pos (by omega), Nat.add_assoc]
  · rw [if_neg hk, if_neg hk]

/-- Two neighbouring windows make one. -/
theorem slice_append_slice (i n m : ℕ) (l : List α) :
    slice i n l ++ slice (i + n) m l = slice i (n + m) l := by
  rw [slice, slice, slice, List.take_add, List.drop_drop]

/-- A list with the entries from position `i` on replaced by `src`; entries of `src` that
would lie behind the end of the list are dropped. -/
def write (i : ℕ) (src l : List α) : List α :=
  l.take i ++ src.take (l.length - i) ++ l.drop (i + src.length)

@[simp] theorem length_write (i : ℕ) (src l : List α) : (write i src l).length = l.length := by
  simp only [write, List.length_append, List.length_take, List.length_drop]
  omega

/-- What is before the end of what was written. -/
theorem take_write_end {i : ℕ} {l : List α} (src : List α) (h : i + src.length ≤ l.length) :
    (write i src l).take (i + src.length) = l.take i ++ src := by
  have hlength : (l.take i ++ src).length = i + src.length := by
    rw [List.length_append, List.length_take, Nat.min_eq_left (by omega)]
  rw [write, List.take_of_length_le (by omega : src.length ≤ l.length - i), ← hlength,
    List.take_left]

theorem getElem?_write (i : ℕ) (src l : List α) (j : ℕ) :
    (write i src l)[j]? =
      if i ≤ j ∧ j < i + src.length ∧ j < l.length then src[j - i]? else l[j]? := by
  have hlen : (l.take i ++ src.take (l.length - i)).length
      = min i l.length + min (l.length - i) src.length := by simp
  rcases Nat.lt_or_ge j (l.take i ++ src.take (l.length - i)).length with hj | hj
  · rw [write, List.getElem?_append_left hj]
    rcases Nat.lt_or_ge j (min i l.length) with hj' | hj'
    · rw [List.getElem?_append_left (by simpa using hj'), List.getElem?_take,
        if_pos (by omega), if_neg (by omega)]
    · rw [List.getElem?_append_right (by simpa using hj'), List.length_take, List.getElem?_take,
        if_pos (by omega), if_pos (by omega)]
      congr 1
      omega
  · rw [write, List.getElem?_append_right hj, List.getElem?_drop, hlen]
    rw [hlen] at hj
    rcases Nat.lt_or_ge j l.length with hj' | hj'
    · rw [if_neg (by omega)]
      congr 1
      omega
    · rw [if_neg (by omega), List.getElem?_eq_none (by omega), List.getElem?_eq_none hj']

/-- Writing as many entries as a part in the middle has replaces this part. -/
theorem write_append {before part src behind : List α} (h : src.length = part.length) :
    write before.length src (before ++ (part ++ behind)) = before ++ (src ++ behind) := by
  have hfits : src.length ≤ (before ++ (part ++ behind)).length - before.length := by
    rw [List.length_append, List.length_append]
    omega
  rw [write, List.take_left, List.take_of_length_le hfits, List.append_assoc, h,
    ← List.drop_drop, List.drop_left, List.drop_left]

/-- What is behind what was written at the beginning. -/
theorem drop_write_zero {n : ℕ} {src : List α} (l : List α) (h : src.length ≤ n) :
    (write 0 src l).drop n = l.drop n := by
  apply List.ext_getElem?
  intro j
  rw [List.getElem?_drop, List.getElem?_drop, getElem?_write, if_neg (by omega)]

end Slice

/-! ## Buffers of a fixed size -/

/-- A byte string of `n` bytes. -/
@[ext]
structure Buffer (n : ℕ) where
  bytes : List UInt8
  length_eq : bytes.length = n
deriving DecidableEq, Repr

namespace Buffer

attribute [simp] length_eq

/-- A buffer of zero bytes. -/
def zero (n : ℕ) : Buffer n := ⟨List.replicate n 0, List.length_replicate⟩

/-- The bytes of a buffer with those from position `i` on replaced by `src`. -/
def write {n : ℕ} (b : Buffer n) (i : ℕ) (src : List UInt8) : Buffer n :=
  ⟨Bytes.write i src b.bytes, by simp⟩

/-- The first `n` bytes of a byte string, with zero bytes behind it where it is shorter. -/
def ofBytes (n : ℕ) (bs : List UInt8) : Buffer n := (zero n).write 0 bs

@[simp] theorem bytes_zero (n : ℕ) : (zero n).bytes = List.replicate n 0 := rfl

@[simp] theorem bytes_write {n : ℕ} (b : Buffer n) (i : ℕ) (src : List UInt8) :
    (b.write i src).bytes = Bytes.write i src b.bytes := rfl

theorem bytes_ofBytes {n : ℕ} {bs : List UInt8} (h : bs.length = n) :
    (ofBytes n bs).bytes = bs := by
  subst h
  simp [ofBytes, Bytes.write]

@[simp] theorem ofBytes_bytes {n : ℕ} (b : Buffer n) : ofBytes n b.bytes = b :=
  Buffer.ext (bytes_ofBytes b.length_eq)

/-- What was written at the beginning of a buffer. -/
theorem take_write {n : ℕ} (b : Buffer n) {src : List UInt8} (h : src.length ≤ n) :
    (b.write 0 src).bytes.take src.length = src := by
  simp only [bytes_write, Bytes.write, List.take_zero, List.nil_append, Nat.sub_zero,
    length_eq, List.take_of_length_le h, Nat.zero_add]
  exact List.take_left

/-- Writing as many bytes as the first `m` places of a buffer hold fills these places. -/
theorem take_write_of_length {n m : ℕ} (b : Buffer n) {src : List UInt8}
    (h : src.length = min m n) : (b.write 0 src).bytes.take m = src := by
  rcases Nat.le_total m n with hle | hle
  · rw [Nat.min_eq_left hle] at h
    rw [← h]
    exact b.take_write (by omega)
  · rw [Nat.min_eq_right hle] at h
    have hwhole : (b.write 0 src).bytes.take src.length = src := b.take_write (by omega)
    rw [List.take_of_length_le (by rw [length_eq]; omega)] at hwhole
    rw [List.take_of_length_le (by rw [length_eq]; omega), hwhole]

/-- The bytes from position `k` on are zero. -/
def ZeroFrom {n : ℕ} (b : Buffer n) (k : ℕ) : Prop := b.bytes.drop k = List.replicate (n - k) 0

instance {n : ℕ} (b : Buffer n) (k : ℕ) : Decidable (b.ZeroFrom k) :=
  inferInstanceAs (Decidable (_ = _))

theorem zeroFrom_zero (n k : ℕ) : (zero n).ZeroFrom k := by
  rw [ZeroFrom, bytes_zero, List.drop_replicate]

/-- Writing at the beginning leaves zero bytes behind it. -/
theorem ZeroFrom.write {n k : ℕ} {b : Buffer n} (h : b.ZeroFrom k) {src : List UInt8}
    (hsrc : src.length ≤ k) : (b.write 0 src).ZeroFrom k := by
  rw [ZeroFrom, bytes_write, drop_write_zero _ hsrc]
  exact h

theorem zeroFrom_iff {n k : ℕ} {b : Buffer n} :
    b.ZeroFrom k ↔ ∀ byte ∈ b.bytes.drop k, byte = 0 := by
  rw [ZeroFrom, List.eq_replicate_iff, List.length_drop, length_eq]
  exact and_iff_right rfl

/-- A byte string that is zero from position `k` on leaves zero bytes in a cleared buffer. -/
theorem zeroFrom_ofBytes {n k : ℕ} {bs : List UInt8} (h : ∀ byte ∈ bs.drop k, byte = 0) :
    (ofBytes n bs).ZeroFrom k := by
  rw [zeroFrom_iff]
  intro byte hbyte
  simp only [ofBytes, bytes_write, Bytes.write, bytes_zero, List.take_zero, List.nil_append,
    List.drop_append, List.drop_replicate, List.mem_append] at hbyte
  rcases hbyte with hsrc | hzero
  · -- written from `bs`
    rw [List.drop_take] at hsrc
    exact h byte (List.mem_of_mem_take hsrc)
  · exact List.eq_of_mem_replicate hzero

/-- Clearing the first `k` bytes clears a buffer exactly when the others are zero. -/
theorem write_zeros_eq_zero_iff {n k : ℕ} (b : Buffer n) (hk : k ≤ n) :
    b.write 0 (List.replicate k 0) = zero n ↔ b.ZeroFrom k := by
  have hbehind : (b.write 0 (List.replicate k 0)).bytes.drop k = b.bytes.drop k := by
    rw [bytes_write, drop_write_zero _ (by rw [List.length_replicate])]
  have hbegin : (b.write 0 (List.replicate k 0)).bytes.take k = List.replicate k 0 :=
    b.take_write_of_length (by rw [List.length_replicate]; omega)
  constructor
  · intro h
    rw [ZeroFrom, ← hbehind, h]
    exact zeroFrom_zero n k
  · intro h
    apply Buffer.ext
    rw [← List.take_append_drop k (b.write 0 (List.replicate k 0)).bytes, hbegin, hbehind, h,
      List.replicate_append_replicate, bytes_zero]
    congr 1
    omega

end Buffer

/-! ## Exclusive or -/

/-- The bytewise exclusive or of two byte strings, as long as the shorter one. -/
def xor (a b : List UInt8) : List UInt8 := List.zipWith (· ^^^ ·) a b

@[simp] theorem length_xor (a b : List UInt8) : (xor a b).length = min a.length b.length := by
  simp [xor]

/-- Exclusive or with the same byte string twice gives the first one back. -/
theorem xor_xor_cancel {a b : List UInt8} (h : a.length ≤ b.length) : xor (xor a b) b = a := by
  induction a generalizing b with
  | nil => simp [xor]
  | cons x a ih =>
    cases b with
    | nil => simp at h
    | cons y b =>
      simp only [List.length_cons, Nat.add_le_add_iff_right] at h
      have hxy : x ^^^ y ^^^ y = x := by rw [UInt8.xor_assoc, UInt8.xor_self, UInt8.xor_zero]
      simp only [xor, List.zipWith_cons_cons, hxy]
      congr 1
      exact ih h

theorem xor_comm (a b : List UInt8) : xor a b = xor b a := by
  rw [xor, xor, List.zipWith_comm]
  congr 1
  funext x y
  exact UInt8.xor_comm y x

end Lib.Bytes
