import Libluksde.Password
import Libluksde.Lib.Pbkdf2

/-!
# The key derivation is that of RFC 2898

The loops of `libluksde_password_pbkdf2` compute the blocks of RFC 2898 one after the other and
put them in the output; the last block is cut to what is left of the output.
-/

namespace Libluksde

open Lib.Bytes Lib.Pbkdf2

variable {L : Libraries} {h : HashingMethod} {n : ℕ}

/-! ## One block -/

/-- From the iterate and the sum of the iterates at an index, the iterations go on to later
ones. -/
theorem pbkdf2Iterations_eq (hn : hashSize h = some n) (password salt : List UInt8) (i j k : ℕ) :
    pbkdf2Iterations L h password n k (iterate (L.hmac h) password salt i j)
      (sum (L.hmac h) password salt i j) = some (sum (L.hmac h) password salt i (j + k)) := by
  induction k generalizing j with
  | zero => rfl
  | succ k ih =>
    have hlength : (iterate (L.hmac h) password salt i j).length = n :=
      length_iterate (L.hmac_length hn) i j
    rw [pbkdf2Iterations, List.take_of_length_le (by omega), libhmacCalculateHmac_of_hashSize hn,
      Option.bind_some]
    change pbkdf2Iterations L h password n k (iterate (L.hmac h) password salt i (j + 1))
      (sum (L.hmac h) password salt i (j + 1)) = _
    rw [ih (j + 1), Nat.add_right_comm, Nat.add_assoc]

/-- The block buffer of a round holds the block of RFC 2898. -/
theorem pbkdf2Block_eq (hn : hashSize h = some n) (password salt : List UInt8) (iterations : ℕ)
    {i : ℕ} (hi : i < 2 ^ 32) :
    pbkdf2Block L h password salt iterations n i =
      some (block (L.hmac h) password salt iterations i) := by
  rw [pbkdf2Block, libhmacCalculateHmac_of_hashSize hn, Option.bind_some,
    byteStreamCopyFromUInt32BigEndian_ofNat hi]
  have hiterations := pbkdf2Iterations_eq (L := L) hn password salt i 0 (iterations - 1)
  rw [Nat.zero_add] at hiterations
  exact hiterations

/-! ## The block loop -/

/-- The number of blocks is cut to 32 bits. -/
theorem pbkdf2NumberOfBlocks_mod (hpos : 0 < n) (size : ℕ) :
    pbkdf2NumberOfBlocks size n = numberOfBlocks n size % 2 ^ 32 := by
  have hsplit := Nat.div_add_mod size n
  have hmod := Nat.mod_lt size hpos
  have hcount : numberOfBlocks n size = if size % n ≠ 0 then size / n + 1 else size / n := by
    rw [numberOfBlocks]
    split
    · have heq : size + n - 1 = (size % n - 1) + n * (size / n + 1) := by
        rw [Nat.mul_add]
        omega
      rw [heq, Nat.add_mul_div_left _ _ hpos, Nat.div_eq_of_lt (by omega), Nat.zero_add]
    · have heq : size + n - 1 = (n - 1) + n * (size / n) := by omega
      rw [heq, Nat.add_mul_div_left _ _ hpos, Nat.div_eq_of_lt (by omega), Nat.zero_add]
  rw [hcount]
  simp only [pbkdf2NumberOfBlocks]
  split
  · exact Nat.mod_add_mod (size / n) (2 ^ 32) 1
  · rfl

/-- Where the key takes less than `2 ^ 32` blocks, their number is not cut. -/
theorem pbkdf2NumberOfBlocks_eq (hpos : 0 < n) {size : ℕ}
    (hsize : numberOfBlocks n size < 2 ^ 32) :
    pbkdf2NumberOfBlocks size n = numberOfBlocks n size := by
  rw [pbkdf2NumberOfBlocks_mod hpos, Nat.mod_eq_of_lt hsize]

/-- The variables of the block loop before the block `blockIndex`: as much of the output is done
as the blocks before it have, and the hash size has not shrunk while blocks are left. -/
structure Pbkdf2Invariant (L : Libraries) (h : HashingMethod) (password salt : List UInt8)
    (iterations n size : ℕ) (s : Pbkdf2State) : Prop where
  blockIndex : 1 ≤ s.blockIndex ∧ s.blockIndex ≤ numberOfBlocks n size + 1
  hashSize : s.blockIndex ≤ numberOfBlocks n size → s.hashSize = n
  outputDataSize : s.outputDataSize = size - (s.blockIndex - 1) * n
  outputDataOffset : s.outputDataOffset = min ((s.blockIndex - 1) * n) size
  length : s.outputData.length = size
  outputData : s.outputData.take s.outputDataOffset =
    (firstBlocks (L.hmac h) password salt iterations (s.blockIndex - 1)).take size

section

variable {password salt : List UInt8} {iterations size : ℕ} {s : Pbkdf2State}

/-- The variables before the first block. -/
theorem Pbkdf2Invariant.start :
    Pbkdf2Invariant L h password salt iterations n size ⟨1, n, 0, size, List.replicate size 0⟩ where
  blockIndex := ⟨le_rfl, Nat.succ_le_succ (Nat.zero_le _)⟩
  hashSize := fun _ => rfl
  outputDataSize := by simp
  outputDataOffset := by simp
  length := List.length_replicate
  outputData := by simp [firstBlocks]

/-- A round stores one more block, if its number does not wrap around. -/
theorem Pbkdf2Invariant.store (hn : Libluksde.hashSize h = some n)
    (hs : Pbkdf2Invariant L h password salt iterations n size s)
    (hmore : s.blockIndex ≤ numberOfBlocks n size) (hwrap : s.blockIndex < 2 ^ 32 - 1) :
    Pbkdf2Invariant L h password salt iterations n size
      (s.store (block (L.hmac h) password salt iterations s.blockIndex)) := by
  have hpos := hashSize_pos hn
  obtain ⟨i, hi⟩ : ∃ i, s.blockIndex = i + 1 := ⟨s.blockIndex - 1, by have := hs.blockIndex; omega⟩
  have hbefore : i * n < size := (lt_numberOfBlocks_iff hpos).1 (by omega)
  have hindex : (s.blockIndex + 1) % 2 ^ 32 = i + 2 := by omega
  have hoffset : s.outputDataOffset = i * n := by
    rw [hs.outputDataOffset, hi, Nat.add_sub_cancel, Nat.min_eq_left hbefore.le]
  have hleft : s.outputDataSize = size - i * n := by rw [hs.outputDataSize, hi, Nat.add_sub_cancel]
  -- the hash size shrinks where less than a block is left
  have hhash : (if s.hashSize > s.outputDataSize then s.outputDataSize else s.hashSize) =
      min n (size - i * n) := by
    rw [hs.hashSize hmore, hleft]
    split <;> omega
  have hblock : ((block (L.hmac h) password salt iterations s.blockIndex).take
      (min n (size - i * n))).length = min n (size - i * n) := by
    have hlength : (block (L.hmac h) password salt iterations s.blockIndex).length = n :=
      length_sum (L.hmac_length hn) _ _
    rw [List.length_take, hlength]
    omega
  have hnext : (i + 1) * n = i * n + n := Nat.succ_mul i n
  constructor
  · simp only [Pbkdf2State.store, hindex]
    omega
  · simp only [Pbkdf2State.store, hindex, hhash]
    intro hle
    have hlt := (lt_numberOfBlocks_iff (i := i + 1) hpos).1 hle
    omega
  · simp only [Pbkdf2State.store, hindex, hhash]
    rw [hleft, show i + 2 - 1 = i + 1 from rfl]
    omega
  · simp only [Pbkdf2State.store, hindex, hhash, hoffset]
    rw [show i + 2 - 1 = i + 1 from rfl]
    omega
  · rw [Pbkdf2State.length_store, hs.length]
  · simp only [Pbkdf2State.store, hindex, hhash, hoffset]
    have hdone := hs.outputData
    rw [hoffset, hi, Nat.add_sub_cancel] at hdone
    have hwritten := take_write_end (i := i * n) (l := s.outputData)
      ((block (L.hmac h) password salt iterations s.blockIndex).take (min n (size - i * n)))
      (by rw [hblock, hs.length]; omega)
    rw [hblock] at hwritten
    rw [show i + 2 - 1 = i + 1 from rfl, take_firstBlocks_succ (L.hmac_length hn), ← hdone, ← hi]
    exact hwritten

/-- Behind the last block the output is the derived key. -/
theorem Pbkdf2Invariant.outputData_eq (hn : Libluksde.hashSize h = some n)
    (hs : Pbkdf2Invariant L h password salt iterations n size s)
    (hno : ¬ s.blockIndex ≤ numberOfBlocks n size) :
    s.outputData = derivedKey (L.hmac h) password salt n iterations size := by
  have hindex : s.blockIndex - 1 = numberOfBlocks n size := by
    have := hs.blockIndex
    omega
  have hall : size ≤ numberOfBlocks n size * n := by
    by_contra hlt
    exact absurd ((lt_numberOfBlocks_iff (hashSize_pos hn)).2 (Nat.not_le.1 hlt)) (lt_irrefl _)
  have hdone := hs.outputData
  rw [hs.outputDataOffset, hindex, Nat.min_eq_right hall, ← hs.length, List.take_length,
    hs.length] at hdone
  exact hdone

/-- The block loop ends with the derived key in the output. -/
theorem Pbkdf2Invariant.loop (hn : Libluksde.hashSize h = some n)
    (hsize : numberOfBlocks n size < 2 ^ 32 - 1) {fuel : ℕ}
    (hs : Pbkdf2Invariant L h password salt iterations n size s)
    (hfuel : numberOfBlocks n size + 1 ≤ s.blockIndex + fuel) :
    pbkdf2Loop L h password salt iterations (numberOfBlocks n size) fuel s =
      .done (derivedKey (L.hmac h) password salt n iterations size) := by
  induction fuel generalizing s with
  | zero =>
    rw [pbkdf2Loop, if_neg (by omega), hs.outputData_eq hn (by omega)]
  | succ fuel ih =>
    rw [pbkdf2Loop]
    split
    · rename_i hmore
      rw [hs.hashSize hmore, pbkdf2Block_eq hn password salt iterations (by omega)]
      have hnext : (s.blockIndex + 1) % 2 ^ 32 = s.blockIndex + 1 := by omega
      refine ih (hs.store hn hmore (by omega)) ?_
      simp only [Pbkdf2State.store, hnext]
      omega
    · rename_i hno
      rw [hs.outputData_eq hn hno]

end

/-! ## The key derivation -/

section

variable (hn : hashSize h = some n) {password salt : List UInt8} {iterations size : ℕ}
  (hpassword : password.length ≤ ssizeMax - 1)
  (hsalt : salt.length + 4 ≤ memoryMaximumAllocationSize) (hiterations : 1 ≤ iterations)
  (hsize : numberOfBlocks n size < 2 ^ 32 - 1)

include hn hpassword hsalt hiterations hsize

/-- For arguments that pass the checks, and an output that the block numbers reach. -/
theorem passwordPbkdf2_eq :
    passwordPbkdf2 L false (some password) h salt iterations size =
      some (derivedKey (L.hmac h) password salt n iterations size) := by
  have hpos := hashSize_pos hn
  have hbound : n ≤ 64 := by
    cases h <;> simp [hashSize] at hn <;> omega
  have hsalt' : salt.length ≤ ssizeMax := by
    unfold memoryMaximumAllocationSize at hsalt
    unfold ssizeMax
    omega
  have hsize' : size ≤ ssizeMax := by
    have hlarge : ¬ 2 ^ 32 - 1 < numberOfBlocks n size := by omega
    rw [lt_numberOfBlocks_iff hpos] at hlarge
    have hmul : (2 ^ 32 - 1) * n ≤ (2 ^ 32 - 1) * 64 := Nat.mul_le_mul_left _ hbound
    unfold ssizeMax
    omega
  have hblocks := numberOfBlocks_le hpos size
  have hstart : Pbkdf2Invariant L h password salt iterations n size
      ⟨1, n, 0, size, List.replicate size 0⟩ := .start
  have hloop := hstart.loop hn hsize (show numberOfBlocks n size + 1 ≤ 1 + (size + 1) by omega)
  have hrun : passwordPbkdf2Run L (size + 1) (some password) h salt iterations size =
      .done (derivedKey (L.hmac h) password salt n iterations size) := by
    simp only [passwordPbkdf2Run, hn]
    rw [if_neg (by omega), if_neg (by omega), if_neg (by omega), if_neg (by omega),
      if_neg (by omega), pbkdf2NumberOfBlocks_eq hpos (by omega)]
    exact hloop
  rw [passwordPbkdf2, if_neg Bool.false_ne_true, hrun]

/-- **The key derivation is that of RFC 2898.**  For every supported hashing method, arguments that
pass the checks and an output whose blocks have numbers below `2 ^ 32 - 1`, the output is the
beginning of the blocks `T_1, T_2, …` one after the other. -/
theorem passwordPbkdf2_rfc2898 :
    passwordPbkdf2 L false (some password) h salt iterations size =
      some (((List.range (numberOfBlocks n size)).flatMap fun i =>
        block (L.hmac h) password salt iterations (i + 1)).take size) := by
  rw [passwordPbkdf2_eq hn hpassword hsalt hiterations hsize, derivedKey, firstBlocks]

end

/-- The HMACs of a key that are calculated one after the other, from a first message on. -/
def chainedHmacs (key : List UInt8) :
    List UInt8 → List ℕ → List ((HashingMethod × List UInt8 × List UInt8) × List UInt8)
  | _, [] => []
  | message, hmac :: hmacs =>
    ((.sha1, key, message), toBigEndian 20 hmac) :: chainedHmacs key (toBigEndian 20 hmac) hmacs

/-- HMAC-SHA1 on two blocks of three iterations. -/
def thirtyLibraries : Libraries :=
  .ofTables [] []
    (chainedHmacs [1] [2, 0, 0, 0, 1] [0xf12d2f7e566e5490f9bc511caff379a2b7595794,
        0xfcb89504cb4346117cbec21b9b20998368f2acc8, 0xdec05fa9547dbeecefb62694697080e602ec750c] ++
      chainedHmacs [1] [2, 0, 0, 0, 2] [0x92e3c83d6c70fa752f6faf27b586d136087149d0,
        0x4241dc1896ddf1df9872f9cdadfd90470ea23295, 0x363a6ff30b0e53cb4bfedfab14bc6ba5baa68e19])

/-- A key of one and a half blocks of SHA-1. -/
theorem passwordPbkdf2_rfc2898_thirty :
    passwordPbkdf2 thirtyLibraries false (some [1]) .sha1 [2] 3 30 =
        some (((List.range (numberOfBlocks 20 30)).flatMap fun i =>
          block (thirtyLibraries.hmac .sha1) [1] [2] 3 (i + 1)).take 30) ∧
      passwordPbkdf2 thirtyLibraries false (some [1]) .sha1 [2] 3 30 =
        some (toBigEndian 30 0xd355e5d3c950ac6d6ab4b5935da360c7dd478e50e6987bd6f1a35861fce3) :=
  ⟨passwordPbkdf2_rfc2898 rfl (by decide) (by decide) (by decide) (by decide), by decide +kernel⟩

end Libluksde
