import Libluksde.EncryptionContextSpec

/-!
# Keyed encryption contexts

A context that was initialized and keyed is determined by its modes and the key: there is one for
every encryption mode, initialization vector mode and key.  What a crypt call does is then read off
the context of the mode.
-/

namespace Libluksde

open Lib.Bytes

variable {L : Libraries}

/-- The context for an encryption mode, an initialization vector mode with its hashing method, and a
key. -/
def keyedContext (L : Libraries) (mode : EncryptionMode) (ivMode : InitializationVectorMode)
    (h : HashingMethod) (key : List UInt8) : EncryptionContext :=
  let context := { EncryptionContext.cleared with
    encryptionMode := mode
    initializationVectorMode := ivMode
    essivHashingMethod := h }
  match mode with
  | .aesCbc | .aesEcb =>
    { context with
      aesDecryptionContext := some (some ⟨.decrypt, key⟩)
      aesEncryptionContext := some (some ⟨.encrypt, key⟩)
      essivEncryptionContext :=
        if ivMode = .essiv then some (some ⟨.encrypt, (essivKey L h key).take key.length⟩)
        else none }
  | .aesXts =>
    let half := key.length / 2
    { context with
      aesXtsDecryptionContext := some (some ⟨.decrypt, key.take half, slice half half key⟩)
      aesXtsEncryptionContext := some (some ⟨.encrypt, key.take half, slice half half key⟩) }
  | .blowfishCbc | .blowfishEcb =>
    { context with
      blowfishDecryptionContext := some (some key)
      blowfishEncryptionContext := some (some key) }
  | .rc4Cbc | .rc4Ecb =>
    { context with
      rc4DecryptionContext := some (some (L.rc4SetKey key))
      rc4EncryptionContext := some (some (L.rc4SetKey key)) }
  | .serpentCbc | .serpentEcb =>
    { context with
      serpentDecryptionContext := some (some key)
      serpentEncryptionContext := some (some key) }
  | .unknown => context

/-- The whole key is taken. -/
theorem take_keyBitSize (key : List UInt8) : key.take (key.length * 8 / 8) = key := by
  rw [Nat.mul_div_cancel _ (by norm_num), List.take_length]

/-- Half of the bits of a key are the bits of half of its bytes. -/
theorem half_keyBitSize (n : ℕ) : n * 8 / 2 / 8 = n / 2 := by omega

/-- The key sizes that the ciphers of an encryption mode accept.  The number of bits is not cut to a
`size_t`, which it exceeds from `2 ^ 61` bytes on. -/
def keySizeAccepted (L : Libraries) (n : ℕ) : EncryptionMode → Bool
  | .aesCbc | .aesEcb => L.aesKeyBitSize (n * 8)
  | .aesXts => L.aesTweakedKeyBitSize (n * 8 / 2)
  | .blowfishCbc | .blowfishEcb => L.blowfishKeyBitSize (n * 8)
  | .rc4Cbc | .rc4Ecb => L.rc4KeyBitSize (n * 8)
  | .serpentCbc | .serpentEcb => L.serpentKeyBitSize (n * 8)
  | .unknown => false

/-- Keying a new context gives the context for its modes and the key, if the size of the key is
accepted. -/
theorem encryptionContextSetKey_eq {fails : Bool} {method : EncryptionMethod}
    {chainingMode : EncryptionChainingMode} {ivMode : InitializationVectorMode} {h : HashingMethod}
    {created : EncryptionContext}
    (hcreated : encryptionContextInitialize fails method chainingMode ivMode h = some created)
    (key : List UInt8) :
    encryptionContextSetKey L created key =
      if key.length ≤ ssizeMax ∧ keySizeAccepted L key.length
        (selectEncryptionMode method chainingMode) = true then
        some (keyedContext L (selectEncryptionMode method chainingMode) ivMode h key)
      else none := by
  unfold encryptionContextInitialize at hcreated
  generalize selectEncryptionMode method chainingMode = mode at hcreated ⊢
  by_cases hsize : key.length ≤ ssizeMax
  · have hsize' : ¬ key.length > ssizeMax := Nat.not_lt.2 hsize
    -- the contexts that the keying looks for are those that the mode creates
    by_cases hessiv : ivMode = .essiv
    all_goals
      cases mode
      all_goals
        simp only [hessiv, reduceCtorEq, if_false, if_true, ite_self, initializeCipherContexts]
          at hcreated
      all_goals
        split_ifs at hcreated
      all_goals
        cases hcreated
      all_goals
        simp only [encryptionContextSetKey, if_neg hsize', setDecryptionKey, setEncryptionKey,
          libcaesContextSetKey, libcaesTweakedContextSetKeys, libfcryptoBlowfishContextSetKey,
          libfcryptoRc4ContextSetKey, libfcryptoSerpentContextSetKey, EncryptionContext.cleared,
          take_keyBitSize, half_keyBitSize, keySizeAccepted, hsize, true_and, Option.bind_some]
        split
        · rename_i hkey
          simp [setEssivKey, libcaesContextSetKey, keyedContext, EncryptionContext.cleared, slice,
            hessiv, hkey]
        · rfl
  · rw [encryptionContextSetKey, if_pos (by omega), if_neg fun hno => hsize hno.1]

section

variable (mode : EncryptionMode) (ivMode : InitializationVectorMode) (h : HashingMethod)
  (key : List UInt8)

@[simp] theorem keyedContext_encryptionMode :
    (keyedContext L mode ivMode h key).encryptionMode = mode := by
  cases mode <;> rfl

@[simp] theorem keyedContext_initializationVectorMode :
    (keyedContext L mode ivMode h key).initializationVectorMode = ivMode := by
  cases mode <;> rfl

@[simp] theorem keyedContext_essivHashingMethod :
    (keyedContext L mode ivMode h key).essivHashingMethod = h := by
  cases mode <;> rfl

/-- A keyed context builds an initialization vector for every sector, in a mode that is supported;
for ESSIV the context of AES-CBC and AES-ECB has a key. -/
theorem initializationVector_keyedContext (hsupported : ivMode ≠ .unknown ∧ ivMode ≠ .lmk)
    (hessiv : ivMode = .essiv → mode = .aesCbc ∨ mode = .aesEcb) (sectorNumber : UInt64) :
    ∃ iv, initializationVector L (keyedContext L mode ivMode h key) sectorNumber = some iv := by
  rw [initializationVector, keyedContext_initializationVectorMode]
  cases ivMode with
  | unknown => exact absurd rfl hsupported.1
  | lmk => exact absurd rfl hsupported.2
  | essiv =>
    obtain rfl | rfl := hessiv rfl
    · exact ⟨_, rfl⟩
    · exact ⟨_, rfl⟩
  | benbi | none | null | plain32 | plain64 => exact ⟨_, rfl⟩

/-- The library call with which a keyed context de- or encrypts. -/
def keyedCall (L : Libraries) (key : List UInt8) (crypt : CryptMode) (iv input : List UInt8) :
    EncryptionMode → Option CipherCall
  | .aesCbc => some (.aesCbc (some ⟨crypt, key⟩) crypt iv input)
  | .aesEcb => some (.aesEcb (some ⟨crypt, key⟩) crypt input)
  | .aesXts =>
    let half := key.length / 2
    some (.aesXts (some ⟨crypt, key.take half, slice half half key⟩) crypt iv input)
  | .blowfishCbc => some (.blowfishCbc (some key) crypt (iv.take 8) input)
  | .blowfishEcb => some (.blowfishEcb (some key) crypt input)
  | .rc4Cbc | .rc4Ecb => some (.rc4 (some (L.rc4SetKey key)) crypt input)
  | .serpentCbc => some (.serpentCbc (some key) crypt iv input)
  | .serpentEcb => some (.serpentEcb (some key) crypt input)
  | .unknown => none

/-- The dispatch tables agree on a keyed context but for the direction. -/
theorem cipherCall_keyedContext (crypt : CryptMode) (iv input : List UInt8) :
    cipherCall (keyedContext L mode ivMode h key) crypt iv input =
      keyedCall L key crypt iv input mode := by
  cases crypt <;> cases mode <;> rfl

end

/-- A crypt call on data of a size that passes the checks. -/
theorem encryptionContextCrypt_of_iv {context : EncryptionContext} {data : List UInt8} {size : ℕ}
    {sectorNumber : UInt64} {iv : List UInt8} (crypt : CryptMode) (hdata : 16 ≤ data.length)
    (hsize : data.length ≤ size ∧ size ≤ ssizeMax)
    (hiv : initializationVector L context sectorNumber = some iv) :
    encryptionContextCrypt L context crypt data size sectorNumber =
      (cipherCall context crypt iv data).bind fun call =>
        (call.run L).map fun r => (r.1, context.withRc4State crypt r.2) := by
  rw [encryptionContextCrypt, encryptionContextCipherCall, if_neg (by omega), if_neg (by omega),
    hiv, Option.bind_some]

end Libluksde
