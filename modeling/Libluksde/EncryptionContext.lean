import Libluksde.Libraries

/-!
# The encryption context

`libluksde_encryption_context.c`: creating a context for an encryption method and chaining
mode, setting its key, and de- or encrypting a block of data for a sector number.

A crypt call is split in two: `encryptionContextCipherCall` checks the arguments, derives
the initialization vector and decides which library function is called with which
arguments (a `CipherCall`), and `CipherCall.run` is that library call.
-/

namespace Libluksde

open Lib.Bytes

/-- `libluksde_encryption_context_t`; a context pointer that is `NULL` is `none`. -/
structure EncryptionContext where
  encryptionMode : EncryptionMode
  initializationVectorMode : InitializationVectorMode
  essivHashingMethod : HashingMethod
  aesDecryptionContext : Option (LibraryContext KeySchedule)
  aesEncryptionContext : Option (LibraryContext KeySchedule)
  aesXtsDecryptionContext : Option (LibraryContext TweakedKeySchedule)
  aesXtsEncryptionContext : Option (LibraryContext TweakedKeySchedule)
  blowfishDecryptionContext : Option (LibraryContext (List UInt8))
  blowfishEncryptionContext : Option (LibraryContext (List UInt8))
  rc4DecryptionContext : Option (LibraryContext Rc4State)
  rc4EncryptionContext : Option (LibraryContext Rc4State)
  serpentDecryptionContext : Option (LibraryContext (List UInt8))
  serpentEncryptionContext : Option (LibraryContext (List UInt8))
  essivEncryptionContext : Option (LibraryContext KeySchedule)
deriving DecidableEq, Repr

/-- The context after `memory_set` to zero. -/
def EncryptionContext.cleared : EncryptionContext :=
  ⟨.unknown, .unknown, .unknown, none, none, none, none, none, none, none, none, none, none,
    none⟩

/-- The choice of the encryption mode in `libluksde_encryption_context_initialize`; it is
`unknown` (0) where the combination of method and chaining mode is unsupported. -/
def selectEncryptionMode (method : EncryptionMethod) (chainingMode : EncryptionChainingMode) :
    EncryptionMode :=
  match method with
  | .aes =>
    match chainingMode with
    | .cbc => .aesCbc
    | .ecb => .aesEcb
    | .xts => .aesXts
    | .unknown => .unknown
  | .arc4 =>
    match chainingMode with
    | .cbc => .rc4Cbc
    | .ecb => .rc4Ecb
    | _ => .unknown
  | .blowfish =>
    match chainingMode with
    | .cbc => .blowfishCbc
    | .ecb => .blowfishEcb
    | _ => .unknown
  | .serpent =>
    match chainingMode with
    | .cbc => .serpentCbc
    | .ecb => .serpentEcb
    | _ => .unknown
  | _ => .unknown

/-- The two switches of `libluksde_encryption_context_initialize` that create the
decryption and the encryption context of the mode. -/
def initializeCipherContexts (context : EncryptionContext) (mode : EncryptionMode) :
    EncryptionContext :=
  match mode with
  | .aesCbc | .aesEcb =>
    { context with aesDecryptionContext := some none, aesEncryptionContext := some none }
  | .aesXts =>
    { context with aesXtsDecryptionContext := some none, aesXtsEncryptionContext := some none }
  | .blowfishCbc | .blowfishEcb =>
    { context with
      blowfishDecryptionContext := some none, blowfishEncryptionContext := some none }
  | .rc4Cbc | .rc4Ecb =>
    { context with rc4DecryptionContext := some none, rc4EncryptionContext := some none }
  | .serpentCbc | .serpentEcb =>
    { context with
      serpentDecryptionContext := some none, serpentEncryptionContext := some none }
  | .unknown => context

/-- `libluksde_encryption_context_initialize`; `fails` says whether an allocation in it
fails.  On an error the context stays `NULL`. -/
def encryptionContextInitialize (fails : Bool) (method : EncryptionMethod)
    (chainingMode : EncryptionChainingMode) (ivMode : InitializationVectorMode)
    (essivHashingMethod : HashingMethod) : Option EncryptionContext :=
  let mode := selectEncryptionMode method chainingMode
  if mode = .unknown then none
  else if fails then none
  else
    let context := initializeCipherContexts .cleared mode
    let finish := fun context : EncryptionContext =>
      { context with
        encryptionMode := mode
        initializationVectorMode := ivMode
        essivHashingMethod := essivHashingMethod }
    if ivMode = .essiv then
      match mode with
      | .aesCbc | .aesEcb => some (finish { context with essivEncryptionContext := some none })
      | _ => none
    else some (finish context)

variable (L : Libraries)

/-- The first switch of `libluksde_encryption_context_set_key`. -/
def setDecryptionKey (context : EncryptionContext) (key : List UInt8) :
    Option EncryptionContext :=
  let keyBitSize := key.length * 8
  match context.encryptionMode with
  | .aesCbc | .aesEcb =>
    context.aesDecryptionContext.bind fun _ =>
      (libcaesContextSetKey L .decrypt key keyBitSize).map fun k =>
        { context with aesDecryptionContext := some (some k) }
  | .aesXts =>
    context.aesXtsDecryptionContext.bind fun _ =>
      (libcaesTweakedContextSetKeys L .decrypt key (key.drop (key.length / 2))
        (keyBitSize / 2)).map fun k =>
          { context with aesXtsDecryptionContext := some (some k) }
  | .blowfishCbc | .blowfishEcb =>
    context.blowfishDecryptionContext.bind fun _ =>
      (libfcryptoBlowfishContextSetKey L key keyBitSize).map fun k =>
        { context with blowfishDecryptionContext := some (some k) }
  | .rc4Cbc | .rc4Ecb =>
    context.rc4DecryptionContext.bind fun _ =>
      (libfcryptoRc4ContextSetKey L key keyBitSize).map fun k =>
        { context with rc4DecryptionContext := some (some k) }
  | .serpentCbc | .serpentEcb =>
    context.serpentDecryptionContext.bind fun _ =>
      (libfcryptoSerpentContextSetKey L key keyBitSize).map fun k =>
        { context with serpentDecryptionContext := some (some k) }
  | .unknown => none

/-- The second switch of `libluksde_encryption_context_set_key`. -/
def setEncryptionKey (context : EncryptionContext) (key : List UInt8) :
    Option EncryptionContext :=
  let keyBitSize := key.length * 8
  match context.encryptionMode with
  | .aesCbc | .aesEcb =>
    context.aesEncryptionContext.bind fun _ =>
      (libcaesContextSetKey L .encrypt key keyBitSize).map fun k =>
        { context with aesEncryptionContext := some (some k) }
  | .aesXts =>
    context.aesXtsEncryptionContext.bind fun _ =>
      (libcaesTweakedContextSetKeys L .encrypt key (key.drop (key.length / 2))
        (keyBitSize / 2)).map fun k =>
          { context with aesXtsEncryptionContext := some (some k) }
  | .blowfishCbc | .blowfishEcb =>
    context.blowfishEncryptionContext.bind fun _ =>
      (libfcryptoBlowfishContextSetKey L key keyBitSize).map fun k =>
        { context with blowfishEncryptionContext := some (some k) }
  | .rc4Cbc | .rc4Ecb =>
    context.rc4EncryptionContext.bind fun _ =>
      (libfcryptoRc4ContextSetKey L key keyBitSize).map fun k =>
        { context with rc4EncryptionContext := some (some k) }
  | .serpentCbc | .serpentEcb =>
    context.serpentEncryptionContext.bind fun _ =>
      (libfcryptoSerpentContextSetKey L key keyBitSize).map fun k =>
        { context with serpentEncryptionContext := some (some k) }
  | .unknown => none

/-- The ESSIV key buffer of `libluksde_encryption_context_set_key`: the digest of the key in
32 zeroed bytes.  For a hashing method without a case the buffer stays zero, and the result
variable keeps the 1 of the step before. -/
def essivKey (h : HashingMethod) (key : List UInt8) : List UInt8 :=
  match h with
  | .sha1 => write 0 (L.digest .sha1 key) (List.replicate 32 0)
  | .sha256 => write 0 (L.digest .sha256 key) (List.replicate 32 0)
  | _ => List.replicate 32 0

/-- The ESSIV part of `libluksde_encryption_context_set_key`: the ESSIV context is keyed
with as many bits as the data key has. -/
def setEssivKey (context : EncryptionContext) (key : List UInt8) : Option EncryptionContext :=
  match context.encryptionMode with
  | .aesCbc | .aesEcb =>
    context.essivEncryptionContext.bind fun _ =>
      (libcaesContextSetKey L .encrypt (essivKey L context.essivHashingMethod key)
        (key.length * 8)).map fun k =>
          { context with essivEncryptionContext := some (some k) }
  | _ => some context

/-- `libluksde_encryption_context_set_key`; `none` is -1.  The number of bits of the key is not cut
to a `size_t`, which it exceeds for keys of `2 ^ 61` bytes and more. -/
def encryptionContextSetKey (context : EncryptionContext) (key : List UInt8) :
    Option EncryptionContext :=
  if key.length > ssizeMax then none
  else
    (setDecryptionKey L context key).bind fun context =>
      (setEncryptionKey L context key).bind fun context =>
        if context.initializationVectorMode = .essiv then setEssivKey L context key
        else some context

/-! ## Crypt -/

/-- The initialization vector that `libluksde_encryption_context_crypt` builds for a sector;
`none` is the -1 for an unsupported mode or a failed ESSIV encryption. -/
def initializationVector (context : EncryptionContext) (sectorNumber : UInt64) :
    Option (List UInt8) :=
  match context.initializationVectorMode with
  | .benbi =>
    let blockKey := (sectorNumber <<< 5) + 1
    some (List.replicate 8 0 ++ byteStreamCopyFromUInt64BigEndian blockKey)
  | .essiv =>
    libcaesCryptEcb L context.essivEncryptionContext.join .encrypt
      (byteStreamCopyFromUInt64LittleEndian sectorNumber ++ List.replicate 8 0)
  | .none | .null => some (List.replicate 16 0)
  | .plain32 =>
    some (byteStreamCopyFromUInt32LittleEndian sectorNumber.toUInt32 ++ List.replicate 12 0)
  | .plain64 =>
    some (byteStreamCopyFromUInt64LittleEndian sectorNumber ++ List.replicate 8 0)
  | .unknown | .lmk => none

/-- A call of a cipher function of libcaes or libfcrypto, with the key schedule of the
context it is made on (`none` where that is not keyed). -/
inductive CipherCall
  | aesCbc (context : Option KeySchedule) (mode : CryptMode) (iv input : List UInt8)
  | aesEcb (context : Option KeySchedule) (mode : CryptMode) (input : List UInt8)
  | aesXts (context : Option TweakedKeySchedule) (mode : CryptMode) (iv input : List UInt8)
  | blowfishCbc (context : Option (List UInt8)) (mode : CryptMode) (iv input : List UInt8)
  | blowfishEcb (context : Option (List UInt8)) (mode : CryptMode) (input : List UInt8)
  | rc4 (context : Option Rc4State) (mode : CryptMode) (input : List UInt8)
  | serpentCbc (context : Option (List UInt8)) (mode : CryptMode) (iv input : List UInt8)
  | serpentEcb (context : Option (List UInt8)) (mode : CryptMode) (input : List UInt8)
deriving DecidableEq, Repr

/-- The initialization vector that is handed to the cipher. -/
def CipherCall.iv? : CipherCall → Option (List UInt8)
  | .aesCbc _ _ iv _ | .aesXts _ _ iv _ | .blowfishCbc _ _ iv _ | .serpentCbc _ _ iv _ => some iv
  | _ => none

/-- The two dispatch tables of `libluksde_encryption_context_crypt`. -/
def cipherCall (context : EncryptionContext) (mode : CryptMode) (iv input : List UInt8) :
    Option CipherCall :=
  match mode with
  | .encrypt =>
    match context.encryptionMode with
    | .aesCbc => some (.aesCbc context.aesEncryptionContext.join .encrypt iv input)
    | .aesEcb => some (.aesEcb context.aesEncryptionContext.join .encrypt input)
    | .aesXts => some (.aesXts context.aesXtsEncryptionContext.join .encrypt iv input)
    | .blowfishCbc =>
      some (.blowfishCbc context.blowfishEncryptionContext.join .encrypt (iv.take 8) input)
    | .blowfishEcb =>
      some (.blowfishEcb context.blowfishEncryptionContext.join .encrypt input)
    | .rc4Cbc | .rc4Ecb => some (.rc4 context.rc4EncryptionContext.join .encrypt input)
    | .serpentCbc =>
      some (.serpentCbc context.serpentEncryptionContext.join .encrypt iv input)
    | .serpentEcb => some (.serpentEcb context.serpentEncryptionContext.join .encrypt input)
    | .unknown => none
  | .decrypt =>
    match context.encryptionMode with
    | .aesCbc => some (.aesCbc context.aesDecryptionContext.join .decrypt iv input)
    | .aesEcb => some (.aesEcb context.aesDecryptionContext.join .decrypt input)
    | .aesXts => some (.aesXts context.aesXtsDecryptionContext.join .decrypt iv input)
    | .blowfishCbc =>
      some (.blowfishCbc context.blowfishDecryptionContext.join .decrypt (iv.take 8) input)
    | .blowfishEcb =>
      some (.blowfishEcb context.blowfishDecryptionContext.join .decrypt input)
    | .rc4Cbc | .rc4Ecb => some (.rc4 context.rc4DecryptionContext.join .decrypt input)
    | .serpentCbc =>
      some (.serpentCbc context.serpentDecryptionContext.join .decrypt iv input)
    | .serpentEcb => some (.serpentEcb context.serpentDecryptionContext.join .decrypt input)
    | .unknown => none

/-- The AES-ECB loop: `libcaes_crypt_ecb` transforms 16 bytes at a time.  `fuel` bounds the
number of rounds; each takes 16 bytes, so the length of the input is enough. -/
def aesEcbLoop (context : Option KeySchedule) (mode : CryptMode) (input : List UInt8) :
    ℕ → ℕ → List UInt8 → Option (List UInt8)
  | 0, _, output => some output
  | fuel + 1, dataOffset, output =>
    if dataOffset < input.length then
      match libcaesCryptEcb L context mode (input.drop dataOffset) with
      | none => none
      | some block => aesEcbLoop context mode input fuel (dataOffset + 16) (output ++ block)
    else some output

/-- The library call: its output and, for RC4, the state it leaves in the context. -/
def CipherCall.run : CipherCall → Option (List UInt8 × Option Rc4State)
  | .aesCbc context mode iv input =>
    context.bind fun k => (L.aesCbc.crypt k mode iv input).map (·, none)
  | .aesEcb context mode input =>
    (aesEcbLoop L context mode input input.length 0 []).map (·, none)
  | .aesXts context mode iv input =>
    context.bind fun k => (L.aesXts.crypt k mode iv input).map (·, none)
  | .blowfishCbc context mode iv input =>
    context.bind fun k => (L.blowfishCbc.crypt k mode iv input).map (·, none)
  | .blowfishEcb context mode input =>
    context.bind fun k => (L.blowfishEcb.crypt k mode input).map (·, none)
  | .rc4 context _ input =>
    context.map fun s => ((L.rc4Crypt s input).1, some (L.rc4Crypt s input).2)
  | .serpentCbc context mode iv input =>
    context.bind fun k => (L.serpentCbc.crypt k mode iv input).map (·, none)
  | .serpentEcb context mode input =>
    context.bind fun k => (L.serpentEcb.crypt k mode input).map (·, none)

/-- The part of `libluksde_encryption_context_crypt` before the library call. -/
def encryptionContextCipherCall (context : EncryptionContext) (mode : CryptMode)
    (input : List UInt8) (outputDataSize : ℕ) (sectorNumber : UInt64) : Option CipherCall :=
  if input.length < 16 ∨ input.length > ssizeMax then none
  else if outputDataSize < input.length ∨ outputDataSize > ssizeMax then none
  else
    (initializationVector L context sectorNumber).bind fun iv => cipherCall context mode iv input

/-- The context after a library call left `state` in its RC4 context. -/
def EncryptionContext.withRc4State (context : EncryptionContext) (mode : CryptMode)
    (state : Option Rc4State) : EncryptionContext :=
  match state, mode with
  | none, _ => context
  | some s, .encrypt => { context with rc4EncryptionContext := some (some s) }
  | some s, .decrypt => { context with rc4DecryptionContext := some (some s) }

/-- `libluksde_encryption_context_crypt`: the output, of the input's size, and the context;
`none` is -1. -/
def encryptionContextCrypt (context : EncryptionContext) (mode : CryptMode)
    (input : List UInt8) (outputDataSize : ℕ) (sectorNumber : UInt64) :
    Option (List UInt8 × EncryptionContext) :=
  (encryptionContextCipherCall L context mode input outputDataSize sectorNumber).bind fun call =>
    (call.run L).map fun r => (r.1, context.withRc4State mode r.2)

end Libluksde
