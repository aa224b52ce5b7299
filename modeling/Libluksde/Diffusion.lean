import Libluksde.Diffuser
import Libluksde.Lib.Blocks
import Libluksde.Lib.Pbkdf2

/-!
# What diffusing computes

The data are cut in blocks of the digest size, and each block is replaced by the beginning of the
digest of its number and its contents.  The loop does this in place: behind the blocks that it has
replaced, the others are still as they were.
-/

namespace Libluksde

open Lib.Bytes Lib.Blocks Lib.Pbkdf2

variable {L : Libraries} {h : HashingMethod} {n : ℕ} {data : List UInt8}

/-- What replaces block `i` of the data: the digest of the block number and the block, as much of it
as the block is long. -/
def diffusedBlockAt (L : Libraries) (h : HashingMethod) (n : ℕ) (data : List UInt8) (i : ℕ) :
    List UInt8 :=
  (L.digest h (toBigEndian 4 i ++ slice (n * i) n data)).take (slice (n * i) n data).length

/-- The diffused data: all blocks, one after the other. -/
def diffusedData (L : Libraries) (h : HashingMethod) (n : ℕ) (data : List UInt8) : List UInt8 :=
  concat (numberOfBlocks n data.length) (diffusedBlockAt L h n data)

/-- A block is replaced by as many bytes as it has. -/
theorem length_diffusedBlockAt (hn : hashSize h = some n) (i : ℕ) :
    (diffusedBlockAt L h n data i).length = min n (data.length - n * i) := by
  rw [diffusedBlockAt, List.length_take, L.digest_length hn, length_slice]
  omega

/-- The data in the loop before block `k`: the blocks before it are replaced, the others are as
they were. -/
def diffusedUpTo (L : Libraries) (h : HashingMethod) (n : ℕ) (data : List UInt8) (k : ℕ) :
    List UInt8 :=
  concat k (diffusedBlockAt L h n data) ++ data.drop (n * k)

theorem diffusedUpTo_numberOfBlocks (hn : hashSize h = some n) :
    diffusedUpTo L h n data (numberOfBlocks n data.length) = diffusedData L h n data := by
  have hall : data.length ≤ n * numberOfBlocks n data.length := by
    by_contra hlt
    rw [Nat.not_le, Nat.mul_comm] at hlt
    exact absurd ((lt_numberOfBlocks_iff (hashSize_pos hn)).2 hlt) (lt_irrefl _)
  rw [diffusedUpTo, List.drop_eq_nil_of_le hall, List.append_nil, diffusedData]

section

variable (hn : hashSize h = some n) {k : ℕ} (hk : n * k < data.length)

include hn hk

/-- Where block `k` begins. -/
theorem length_diffused_before : (concat k (diffusedBlockAt L h n data)).length = n * k := by
  rw [length_concat_cut fun i _ => length_diffusedBlockAt hn i]
  exact Nat.min_eq_left hk.le

/-- The window over block `k` still has its original contents. -/
theorem slice_diffusedUpTo (before behind : List UInt8) :
    slice (before.length + n * k) (min n (data.length - n * k))
      (before ++ (diffusedUpTo L h n data k ++ behind)) = slice (n * k) n data := by
  have hlength := length_diffused_before (L := L) hn hk
  have hblock : (slice (n * k) n data).length = min n (data.length - n * k) := length_slice _ _ _
  rw [slice_append_right (Nat.le_add_right _ _), Nat.add_sub_cancel_left, diffusedUpTo,
    List.append_assoc, slice_append_right (by omega), hlength, Nat.sub_self,
    slice_append_left (by rw [List.length_drop]; omega), slice, slice, List.drop_drop, Nat.add_zero]
  rcases Nat.le_total n (data.length - n * k) with hle | hle
  · rw [Nat.min_eq_left hle]
  · rw [Nat.min_eq_right hle, List.take_of_length_le (by rw [List.length_drop]),
      List.take_of_length_le (by rw [List.length_drop]; exact hle)]

/-- Replacing block `k` leaves the data as they are before the next one. -/
theorem write_diffusedUpTo (before behind : List UInt8) :
    write (before.length + n * k) (diffusedBlockAt L h n data k)
        (before ++ (diffusedUpTo L h n data k ++ behind)) =
      before ++ (diffusedUpTo L h n data (k + 1) ++ behind) := by
  have hlength := length_diffused_before (L := L) hn hk
  have hpart : (diffusedBlockAt L h n data k).length = (slice (n * k) n data).length := by
    rw [length_diffusedBlockAt hn, length_slice]
  have hsplit : data.drop (n * k) = slice (n * k) n data ++ data.drop (n * (k + 1)) := by
    rw [slice, Nat.mul_succ, ← List.drop_drop, List.take_append_drop]
  have hwrite := @write_append _ (before ++ concat k (diffusedBlockAt L h n data)) _ _
    (data.drop (n * (k + 1)) ++ behind) hpart
  rw [List.length_append, hlength] at hwrite
  simp only [diffusedUpTo, hsplit, concat_succ, List.append_assoc] at hwrite ⊢
  exact hwrite

end

/-- The loop from block `k` on, with any memory before and behind the data. -/
theorem diffuseLoop_eq (hn : hashSize h = some n)
    (hblocks : numberOfBlocks n data.length ≤ 2 ^ 32) (before behind : List UInt8) {fuel k : ℕ}
    (hk : k ≤ numberOfBlocks n data.length) (hfuel : numberOfBlocks n data.length ≤ k + fuel) :
    diffuseLoop L h n fuel (before ++ (diffusedUpTo L h n data k ++ behind))
        (before.length + min (n * k) data.length) (data.length - n * k) k =
      before ++ (diffusedData L h n data ++ behind) := by
  have hpos := hashSize_pos hn
  induction fuel generalizing k with
  | zero =>
    obtain rfl : k = numberOfBlocks n data.length := by omega
    rw [diffuseLoop, diffusedUpTo_numberOfBlocks hn]
  | succ fuel ih =>
    rw [diffuseLoop]
    by_cases hmore : n * k < data.length
    · have hlt : k < numberOfBlocks n data.length := by
        rw [lt_numberOfBlocks_iff hpos, Nat.mul_comm]
        exact hmore
      have hread : (if data.length - n * k < n then data.length - n * k else n) =
          min n (data.length - n * k) := by
        split <;> omega
      have hblock : (slice (n * k) n data).length = min n (data.length - n * k) := length_slice _ _ _
      have hnext : min (n * k) data.length + min n (data.length - n * k) =
          min (n * (k + 1)) data.length := by
        rw [Nat.mul_succ]
        omega
      have hleft : data.length - n * k - min n (data.length - n * k) =
          data.length - n * (k + 1) := by
        rw [Nat.mul_succ]
        omega
      rw [if_pos (by omega)]
      simp only [hread]
      rw [Nat.add_assoc, hnext, hleft, Nat.min_eq_left hmore.le, slice_diffusedUpTo hn hmore,
        byteStreamCopyFromUInt32BigEndian_ofNat (by omega), ← hblock]
      have hwrite := write_diffusedUpTo (L := L) hn hmore before behind
      rw [diffusedBlockAt] at hwrite
      rw [hwrite]
      exact ih hlt (by omega)
    · -- no byte is left, so that all blocks are done
      have hend : k = numberOfBlocks n data.length := by
        by_contra hne
        have hlt := (lt_numberOfBlocks_iff hpos).1 (show k < numberOfBlocks n data.length by omega)
        rw [Nat.mul_comm] at hlt
        exact hmore hlt
      rw [if_neg (by omega), hend, diffusedUpTo_numberOfBlocks hn]

/-- Diffusing data of at most `2 ^ 32 - 1` bytes succeeds and replaces each block by the beginning of
the digest of its number and its original contents; the loop ends after as many rounds as there are
blocks, whose numbers do not wrap around, and leaves the memory around the data as it is. -/
theorem diffuserDiffuse_diffusedData (L : Libraries) (hn : hashSize h = some n)
    (hdata : data.length ≤ 2 ^ 32 - 1) :
    diffuserDiffuse L false data h = (diffusedData L h n data, true) ∧
      numberOfBlocks n data.length < 2 ^ 32 ∧
      ∀ fuel before behind, numberOfBlocks n data.length ≤ fuel →
        diffuseLoop L h n fuel (before ++ (data ++ behind)) before.length data.length 0 =
          before ++ (diffusedData L h n data ++ behind) := by
  have hcount := numberOfBlocks_le (hashSize_pos hn) data.length
  have hloop : ∀ fuel before behind, numberOfBlocks n data.length ≤ fuel →
      diffuseLoop L h n fuel (before ++ (data ++ behind)) before.length data.length 0 =
        before ++ (diffusedData L h n data ++ behind) := by
    intro fuel before behind hfuel
    have hstart := diffuseLoop_eq (L := L) hn (by omega) before behind (Nat.zero_le _)
      (show numberOfBlocks n data.length ≤ 0 + fuel by omega)
    simpa [diffusedUpTo] using hstart
  refine ⟨?_, by omega, hloop⟩
  have hwhole := hloop data.length [] [] hcount
  simp only [List.nil_append, List.append_nil, List.length_nil] at hwhole
  rw [diffuserDiffuse, if_neg (by omega), hn]
  simp only [Bool.false_eq_true, if_false, hwhole]

/-- SHA-1 of the two blocks of 21 equal bytes, each behind its index. -/
def sevenDigests : List ((HashingMethod × List UInt8) × List UInt8) :=
  [((.sha1, [0, 0, 0, 0] ++ List.replicate 20 7),
      toBigEndian 20 0x0b4e1e5a91ff6e0bfaf9d9857af080c31d155647),
    ((.sha1, [0, 0, 0, 1, 7]), toBigEndian 20 0xd8c6661c094acd1d24157ce29619fd2f9ea08a32)]

/-- A block of SHA-1 and one byte more. -/
theorem diffuserDiffuse_diffusedData_two :
    let L := Libraries.ofTables [] sevenDigests []
    let data : List UInt8 := List.replicate 21 7
    diffuserDiffuse L false data .sha1 = (diffusedData L .sha1 20 data, true) ∧
      numberOfBlocks 20 data.length < 2 ^ 32 ∧
      ∀ fuel before behind, numberOfBlocks 20 data.length ≤ fuel →
        diffuseLoop L .sha1 20 fuel (before ++ (data ++ behind)) before.length data.length 0 =
          before ++ (diffusedData L .sha1 20 data ++ behind) :=
  diffuserDiffuse_diffusedData _ rfl (by decide)

end Libluksde
