import Libluksde.Libraries

/-!
# The anti-forensic diffuser

`libluksde_diffuser.c`: diffusing a buffer in place, and merging the stripes of a split key.
-/

namespace Libluksde

open Lib.Bytes

variable (L : Libraries)

/-- The loop of `libluksde_diffuser_diffuse` over the blocks of the buffer, in place.  Each
round takes at least one byte, so the size of the data bounds the number of rounds. -/
def diffuseLoop (h : HashingMethod) (size : ℕ) :
    ℕ → (data : List UInt8) → (dataOffset dataSize blockIndex : ℕ) → List UInt8
  | 0, data, _, _, _ => data
  | fuel + 1, data, dataOffset, dataSize, blockIndex =>
    if dataSize > 0 then
      let readSize := if dataSize < size then dataSize else size
      let hashBuffer := L.digest h
        (byteStreamCopyFromUInt32BigEndian (UInt32.ofNat blockIndex) ++
          slice dataOffset readSize data)
      diffuseLoop h size fuel (write dataOffset (hashBuffer.take readSize) data)
        (dataOffset + readSize) (dataSize - readSize) (blockIndex + 1)
    else data

/-- `libluksde_diffuser_diffuse`: the data, and whether the call succeeds; `fails` says
whether an allocation in it fails. -/
def diffuserDiffuse (fails : Bool) (data : List UInt8) (h : HashingMethod) :
    List UInt8 × Bool :=
  if data.length > 2 ^ 32 - 1 then (data, false)
  else
    match hashSize h with
    | none => (data, false)
    | some size =>
      if fails then (data, false)
      else (diffuseLoop L h size data.length data 0 data.length 0, true)

/-- The two loops of `libluksde_diffuser_merge`: the stripes but the last are added by
exclusive or and diffused, the last one is only added. -/
def mergeStripes (fails : ℕ → Bool) (splitData : List UInt8) (h : HashingMethod) :
    ℕ → (splitDataOffset : ℕ) → (data : List UInt8) → List UInt8 × Bool
  | 0, splitDataOffset, data =>
    (xor data (slice splitDataOffset data.length splitData), true)
  | n + 1, splitDataOffset, data =>
    match diffuserDiffuse L (fails n) (xor data (slice splitDataOffset data.length splitData)) h with
    | (diffused, false) => (diffused, false)
    | (diffused, true) =>
      mergeStripes fails splitData h n (splitDataOffset + data.length) diffused

/-- `libluksde_diffuser_merge`: the data, and whether the call succeeds. -/
def diffuserMerge (fails : ℕ → Bool) (splitData data : List UInt8) (numberOfStripes : ℕ)
    (h : HashingMethod) : List UInt8 × Bool :=
  if splitData.length = 0 ∨ splitData.length > ssizeMax then (data, false)
  else if data.length = 0 ∨ data.length > splitData.length then (data, false)
  else if numberOfStripes < 1 ∨ numberOfStripes > splitData.length / data.length then
    (data, false)
  else
    mergeStripes L fails splitData h (numberOfStripes - 1) 0 (List.replicate data.length 0)

/-! ## Sizes -/

variable {L}

@[simp] theorem length_diffuseLoop (h : HashingMethod) (size fuel : ℕ) (data : List UInt8)
    (dataOffset dataSize blockIndex : ℕ) :
    (diffuseLoop L h size fuel data dataOffset dataSize blockIndex).length = data.length := by
  induction fuel generalizing data dataOffset dataSize blockIndex with
  | zero => rfl
  | succ fuel ih =>
    rw [diffuseLoop]
    split
    · rw [ih, length_write]
    · rfl

@[simp] theorem length_diffuserDiffuse (fails : Bool) (data : List UInt8) (h : HashingMethod) :
    (diffuserDiffuse L fails data h).1.length = data.length := by
  rw [diffuserDiffuse]
  split
  · rfl
  · split
    · rfl
    · split
      · rfl
      · simp

/-- Diffusing succeeds for a supported hashing method, data of at most `2 ^ 32 - 1` bytes
and allocations that succeed. -/
theorem diffuserDiffuse_ok {h : HashingMethod} {n : ℕ} (hn : hashSize h = some n)
    {data : List UInt8} (hdata : data.length ≤ 2 ^ 32 - 1) :
    (diffuserDiffuse L false data h).2 = true := by
  rw [diffuserDiffuse, if_neg (Nat.not_lt.2 hdata), hn]
  rfl

end Libluksde
