import Libluksde.Libraries

/-!
# Key derivation

`libluksde_password.c`: the PBKDF2 key derivation with the HMACs of libhmac.

The block number and the number of blocks are 32-bit values, while the size of the output
is a `size_t`; the loop is therefore run with an explicit bound on the number of rounds
(`fuel`), and a bounded run that has not ended is `running`.
-/

namespace Libluksde

open Lib.Bytes

/-- The outcome of a loop that was run for a bounded number of rounds. -/
inductive LoopResult (α : Type)
  | done (a : α) | failed | running
deriving DecidableEq, Repr

variable (L : Libraries)

/-- The `password_iterator` loop: `n` more HMACs, each of the one before, added to the block
by exclusive or. -/
def pbkdf2Iterations (h : HashingMethod) (password : List UInt8) (size : ℕ) :
    ℕ → (hashBuffer blockBuffer : List UInt8) → Option (List UInt8)
  | 0, _, blockBuffer => some blockBuffer
  | n + 1, hashBuffer, blockBuffer =>
    (libhmacCalculateHmac L h password (hashBuffer.take size) size).bind fun hashBuffer =>
      pbkdf2Iterations h password size n hashBuffer (xor blockBuffer hashBuffer)

/-- The block buffer for a block number. -/
def pbkdf2Block (h : HashingMethod) (password salt : List UInt8) (numberOfIterations : ℕ)
    (size blockIndex : ℕ) : Option (List UInt8) :=
  (libhmacCalculateHmac L h password
    (salt ++ byteStreamCopyFromUInt32BigEndian (UInt32.ofNat blockIndex)) size).bind fun hashBuffer =>
      pbkdf2Iterations L h password size (numberOfIterations - 1) hashBuffer hashBuffer

/-- The variables of the block loop of `libluksde_password_pbkdf2`. -/
structure Pbkdf2State where
  blockIndex : ℕ
  hashSize : ℕ
  outputDataOffset : ℕ
  /-- The size of what is left of the output. -/
  outputDataSize : ℕ
  outputData : List UInt8
deriving DecidableEq, Repr

/-- The end of a round of the block loop: the block goes to the output, and the hash size
shrinks where less output is left. -/
def Pbkdf2State.store (s : Pbkdf2State) (block : List UInt8) : Pbkdf2State :=
  let hashSize := if s.hashSize > s.outputDataSize then s.outputDataSize else s.hashSize
  { blockIndex := (s.blockIndex + 1) % 2 ^ 32
    hashSize := hashSize
    outputDataOffset := s.outputDataOffset + hashSize
    outputDataSize := s.outputDataSize - hashSize
    outputData := write s.outputDataOffset (block.take hashSize) s.outputData }

/-- The block loop of `libluksde_password_pbkdf2`. -/
def pbkdf2Loop (h : HashingMethod) (password salt : List UInt8) (numberOfIterations : ℕ)
    (numberOfBlocks : ℕ) : ℕ → Pbkdf2State → LoopResult (List UInt8)
  | fuel, s =>
    if s.blockIndex ≤ numberOfBlocks then
      match fuel with
      | 0 => .running
      | fuel + 1 =>
        match pbkdf2Block L h password salt numberOfIterations s.hashSize s.blockIndex with
        | none => .failed
        | some block =>
          pbkdf2Loop h password salt numberOfIterations numberOfBlocks fuel (s.store block)
    else .done s.outputData

/-- `number_of_blocks`: the number of full blocks, cut to 32 bits, and one more for a rest. -/
def pbkdf2NumberOfBlocks (outputDataSize size : ℕ) : ℕ :=
  let n := (outputDataSize / size) % 2 ^ 32
  if outputDataSize % size ≠ 0 then (n + 1) % 2 ^ 32 else n

/-- `libluksde_password_pbkdf2`, with its block loop bounded by `fuel` rounds. -/
def passwordPbkdf2Run (fuel : ℕ) (password : Option (List UInt8)) (h : HashingMethod)
    (salt : List UInt8) (numberOfIterations outputDataSize : ℕ) : LoopResult (List UInt8) :=
  match password, hashSize h with
  | none, _ | _, none => .failed
  | some password, some size =>
    if password.length > ssizeMax - 1 then .failed
    else if salt.length > ssizeMax then .failed
    else if numberOfIterations = 0 then .failed
    else if outputDataSize > ssizeMax then .failed
    else if salt.length + 4 > memoryMaximumAllocationSize then .failed
    else
      pbkdf2Loop L h password salt numberOfIterations (pbkdf2NumberOfBlocks outputDataSize size)
        fuel ⟨1, size, 0, outputDataSize, List.replicate outputDataSize 0⟩

/-- `libluksde_password_pbkdf2`: the output, or `none` for -1; `fails` says whether an
allocation in it fails.  There are at most as many blocks as bytes of output. -/
def passwordPbkdf2 (fails : Bool) (password : Option (List UInt8)) (h : HashingMethod)
    (salt : List UInt8) (numberOfIterations outputDataSize : ℕ) : Option (List UInt8) :=
  if fails then none
  else
    match passwordPbkdf2Run L (outputDataSize + 1) password h salt numberOfIterations
      outputDataSize with
    | .done output => some output
    | .failed | .running => none

/-! ## What the key derivation returns -/

variable {L}

@[simp] theorem Pbkdf2State.length_store (s : Pbkdf2State) (block : List UInt8) :
    (s.store block).outputData.length = s.outputData.length := by
  simp [Pbkdf2State.store]

theorem pbkdf2Loop_length {h : HashingMethod} {password salt : List UInt8}
    {iterations blocks fuel : ℕ} {s : Pbkdf2State} {output : List UInt8}
    (hrun : pbkdf2Loop L h password salt iterations blocks fuel s = .done output) :
    output.length = s.outputData.length := by
  induction fuel generalizing s with
  | zero =>
    rw [pbkdf2Loop] at hrun
    split at hrun
    · cases hrun
    · cases hrun
      rfl
  | succ fuel ih =>
    rw [pbkdf2Loop] at hrun
    split at hrun
    · cases hblock : pbkdf2Block L h password salt iterations s.hashSize s.blockIndex with
      | none => simp [hblock] at hrun
      | some block =>
        simp only [hblock] at hrun
        rw [ih hrun, Pbkdf2State.length_store]
    · cases hrun
      rfl

/-- A run that ends well is a run of the block loop. -/
theorem passwordPbkdf2Run_done {fuel : ℕ} {password : Option (List UInt8)} {h : HashingMethod}
    {salt output : List UInt8} {iterations size : ℕ}
    (hrun : passwordPbkdf2Run L fuel password h salt iterations size = .done output) :
    ∃ p n fuel blocks, pbkdf2Loop L h p salt iterations blocks fuel
      ⟨1, n, 0, size, List.replicate size 0⟩ = .done output := by
  cases password with
  | none => cases hrun
  | some p =>
    cases hn : hashSize h with
    | none => simp [passwordPbkdf2Run, hn] at hrun
    | some n =>
      simp only [passwordPbkdf2Run, hn] at hrun
      split_ifs at hrun
      exact ⟨p, n, _, _, hrun⟩

/-- A derived key has the size that was asked for. -/
theorem passwordPbkdf2_length {fails : Bool} {password : Option (List UInt8)}
    {h : HashingMethod} {salt output : List UInt8} {iterations size : ℕ}
    (hrun : passwordPbkdf2 L fails password h salt iterations size = some output) :
    output.length = size := by
  rw [passwordPbkdf2] at hrun
  split at hrun
  · cases hrun
  · split at hrun
    · rename_i out hloop
      cases hrun
      obtain ⟨p, n, fuel, blocks, hloop⟩ := passwordPbkdf2Run_done hloop
      rw [pbkdf2Loop_length hloop]
      simp
    · cases hrun
    · cases hrun

theorem libhmacCalculateHmac_of_hashSize {h : HashingMethod} {n : ℕ} (hn : hashSize h = some n)
    (key message : List UInt8) :
    libhmacCalculateHmac L h key message n = some (L.hmac h key message) := by
  rw [libhmacCalculateHmac, if_pos hn]

/-- Without a supported hashing method no key is derived. -/
theorem passwordPbkdf2_eq_none_of_hashSize {fails : Bool} {password : Option (List UInt8)}
    {h : HashingMethod} (hh : hashSize h = none) (salt : List UInt8) (iterations size : ℕ) :
    passwordPbkdf2 L fails password h salt iterations size = none := by
  cases fails <;> cases password <;> simp [passwordPbkdf2, passwordPbkdf2Run, hh]

end Libluksde
