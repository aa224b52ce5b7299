import Libluksde.Definitions

/-!
# The libraries the program is linked with

The ciphers of libcaes and libfcrypto, the digests of libhmac, the identifiers of libfguid
and the text conversions of libuna are not part of the repository.  `Libraries` has what
the program calls of them as functions, together with what it relies on: the sizes of what
they return.

A keyed context of a block cipher never changes, so it is represented by the key it was
given.  The context of RC4 does change, and is an opaque state that each call replaces.
-/

namespace Libluksde

/-- A keyed AES context (`libcaes_context_t`): the direction the key schedule was made for,
and the key. -/
structure KeySchedule where
  mode : CryptMode
  key : List UInt8
deriving DecidableEq, Repr

/-- A keyed AES-XTS context (`libcaes_tweaked_context_t`). -/
structure TweakedKeySchedule where
  mode : CryptMode
  key : List UInt8
  tweakKey : List UInt8
deriving DecidableEq, Repr

/-- The permutation and the indexes in an RC4 context (`libfcrypto_rc4_context_t`). -/
structure Rc4State where
  bytes : List UInt8
deriving DecidableEq, Repr

/-- An allocated context of a library, which has a key schedule once its key is set. -/
abbrev LibraryContext (κ : Type) := Option κ

/-- A block cipher in a mode that uses an initialization vector, over keys of type `κ`. -/
structure IvCipher (κ : Type) where
  crypt : κ → CryptMode → (iv input : List UInt8) → Option (List UInt8)
  length_eq : ∀ {k m iv input output}, crypt k m iv input = some output →
    output.length = input.length

/-- A block cipher in a mode without initialization vector, over keys of type `κ`. -/
structure EcbCipher (κ : Type) where
  crypt : κ → CryptMode → (input : List UInt8) → Option (List UInt8)
  length_eq : ∀ {k m input output}, crypt k m input = some output →
    output.length = input.length

/-- `LIBHMAC_SHA1_HASH_SIZE` and the other digest sizes of the hashing methods that the
key derivation and the diffuser support. -/
def hashSize : HashingMethod → Option ℕ
  | .sha1 => some 20
  | .sha224 => some 28
  | .sha256 => some 32
  | .sha512 => some 64
  | _ => none

theorem hashSize_pos {h : HashingMethod} {n : ℕ} (hn : hashSize h = some n) : 0 < n := by
  cases h <;> simp [hashSize] at hn <;> omega

/-- The functions of the linked libraries. -/
structure Libraries where
  /-- The key sizes in bits that `libcaes_context_set_key` accepts. -/
  aesKeyBitSize : ℕ → Bool
  /-- The key sizes in bits that `libcaes_tweaked_context_set_keys` accepts. -/
  aesTweakedKeyBitSize : ℕ → Bool
  /-- The key sizes in bits that `libfcrypto_blowfish_context_set_key` accepts. -/
  blowfishKeyBitSize : ℕ → Bool
  /-- The key sizes in bits that `libfcrypto_rc4_context_set_key` accepts. -/
  rc4KeyBitSize : ℕ → Bool
  /-- The key sizes in bits that `libfcrypto_serpent_context_set_key` accepts. -/
  serpentKeyBitSize : ℕ → Bool
  /-- AES on one block of 16 bytes. -/
  aesBlock : KeySchedule → CryptMode → List UInt8 → List UInt8
  aesBlock_length : ∀ k m block, (aesBlock k m block).length = 16
  aesCbc : IvCipher KeySchedule
  aesXts : IvCipher TweakedKeySchedule
  blowfishCbc : IvCipher (List UInt8)
  blowfishEcb : EcbCipher (List UInt8)
  serpentCbc : IvCipher (List UInt8)
  serpentEcb : EcbCipher (List UInt8)
  /-- The state of an RC4 context whose key was just set. -/
  rc4SetKey : List UInt8 → Rc4State
  rc4Crypt : Rc4State → List UInt8 → List UInt8 × Rc4State
  rc4Crypt_length : ∀ s input, (rc4Crypt s input).1.length = input.length
  /-- The digest of a message. -/
  digest : HashingMethod → List UInt8 → List UInt8
  digest_length : ∀ {h n}, hashSize h = some n → ∀ m, (digest h m).length = n
  /-- The HMAC of a message under a key. -/
  hmac : HashingMethod → (key message : List UInt8) → List UInt8
  hmac_length : ∀ {h n}, hashSize h = some n → ∀ k m, (hmac h k m).length = n
  /-- What `libhmac_<hash>_calculate_hmac` does with an output buffer that is not of the
  digest's size. -/
  hmacOtherSize : HashingMethod → (key message : List UInt8) → ℕ → Option (List UInt8)
  /-- `libfguid_identifier_copy_from_utf8_string`, then
  `libfguid_identifier_copy_to_byte_stream` in big-endian. -/
  identifierFromUtf8String : List UInt8 → Option (Lib.Bytes.Buffer 16)
  /-- `libuna_byte_stream_copy_from_utf8` for the codepage US-ASCII. -/
  byteStreamFromUtf8 : List UInt8 → Option (List UInt8)
  /-- `libuna_byte_stream_copy_from_utf16` for the codepage US-ASCII. -/
  byteStreamFromUtf16 : List UInt16 → Option (List UInt8)

/-! ### Libraries that answer from tables

The ciphers and digests on finitely many inputs, given as tables, are enough to run the
program on a concrete image.  Inputs outside the tables get zero bytes of the right number.
-/

/-- The entry of a table for an argument, cut or padded with zero bytes to `n` bytes. -/
def tableEntry {α : Type} [DecidableEq α] (n : ℕ) (table : List (α × List UInt8)) (a : α) :
    List UInt8 :=
  let entry := ((table.find? fun p => p.1 = a).map Prod.snd).getD []
  Lib.Bytes.write 0 entry (List.replicate n 0)

@[simp] theorem length_tableEntry {α : Type} [DecidableEq α] (n : ℕ)
    (table : List (α × List UInt8)) (a : α) : (tableEntry n table a).length = n := by
  simp [tableEntry]

/-- A digest or HMAC from a table. -/
def tableDigest {α : Type} [DecidableEq α] (h : HashingMethod)
    (table : List (α × List UInt8)) (a : α) : List UInt8 :=
  tableEntry ((hashSize h).getD 0) table a

theorem length_tableDigest {α : Type} [DecidableEq α] {h : HashingMethod} {n : ℕ}
    (hn : hashSize h = some n) (table : List (α × List UInt8)) (a : α) :
    (tableDigest h table a).length = n := by
  simp [tableDigest, hn]

/-- A block cipher mode with initialization vector that is not used. -/
def IvCipher.unused (κ : Type) : IvCipher κ where
  crypt := fun _ _ _ input => some input
  length_eq := by simp

/-- A block cipher mode without initialization vector that is not used. -/
def EcbCipher.unused (κ : Type) : EcbCipher κ where
  crypt := fun _ _ input => some input
  length_eq := by simp

/-- Decryption in CBC mode with a block cipher of 16 bytes: the decrypted block at each place,
combined with the byte 16 places before it, where the initialization vector stands before the
input. -/
def cbcDecrypt (block : List UInt8 → List UInt8) (iv input : List UInt8) : List UInt8 :=
  (List.range input.length).map fun i =>
    byteAt (block (Lib.Bytes.slice (i / 16 * 16) 16 input)) (i % 16) ^^^
      byteAt (iv ++ input) i

/-- Decryption in CBC mode over the blocks of a table. -/
def IvCipher.cbcOfBlock {κ : Type} (block : κ → CryptMode → List UInt8 → List UInt8) :
    IvCipher κ where
  crypt := fun k m iv input =>
    if m = .decrypt ∧ input.length % 16 = 0 ∧ iv.length = 16 then
      some (cbcDecrypt (block k m) iv input)
    else none
  length_eq := by
    intro k m iv input output h
    split_ifs at h
    cases h
    simp [cbcDecrypt]

/-- Libraries with AES on single blocks, the digests and the HMACs taken from tables; of the
other ciphers only AES in CBC mode decrypts. -/
def Libraries.ofTables
    (aes : List ((KeySchedule × CryptMode × List UInt8) × List UInt8))
    (digests : List ((HashingMethod × List UInt8) × List UInt8))
    (hmacs : List ((HashingMethod × List UInt8 × List UInt8) × List UInt8)) : Libraries where
  aesKeyBitSize := fun n => n = 128 ∨ n = 192 ∨ n = 256
  aesTweakedKeyBitSize := fun n => n = 128 ∨ n = 192 ∨ n = 256
  blowfishKeyBitSize := fun n => n = 128 ∨ n = 192 ∨ n = 256
  rc4KeyBitSize := fun n => n = 128 ∨ n = 192 ∨ n = 256
  serpentKeyBitSize := fun n => n = 128 ∨ n = 192 ∨ n = 256
  aesBlock := fun k m block => tableEntry 16 aes (k, m, block)
  aesBlock_length := fun _ _ _ => length_tableEntry _ _ _
  aesCbc := IvCipher.cbcOfBlock fun k m block => tableEntry 16 aes (k, m, block)
  aesXts := IvCipher.unused _
  blowfishCbc := IvCipher.unused _
  blowfishEcb := EcbCipher.unused _
  serpentCbc := IvCipher.unused _
  serpentEcb := EcbCipher.unused _
  rc4SetKey := Rc4State.mk
  rc4Crypt := fun s input => (input, s)
  rc4Crypt_length := fun _ _ => rfl
  digest := fun h m => tableDigest h digests (h, m)
  digest_length := fun hn _ => length_tableDigest hn _ _
  hmac := fun h k m => tableDigest h hmacs (h, k, m)
  hmac_length := fun hn _ _ => length_tableDigest hn _ _
  hmacOtherSize := fun _ _ _ _ => none
  identifierFromUtf8String := fun _ => some (.zero 16)
  byteStreamFromUtf8 := some
  byteStreamFromUtf16 := fun s => some (s.map UInt16.toUInt8)

variable (L : Libraries)

/-- `libcaes_context_set_key` -/
def libcaesContextSetKey (mode : CryptMode) (key : List UInt8) (keyBitSize : ℕ) :
    Option KeySchedule :=
  if L.aesKeyBitSize keyBitSize then some ⟨mode, key.take (keyBitSize / 8)⟩ else none

/-- `libcaes_tweaked_context_set_keys`, with both keys of the same size. -/
def libcaesTweakedContextSetKeys (mode : CryptMode) (key tweakKey : List UInt8)
    (keyBitSize : ℕ) : Option TweakedKeySchedule :=
  if L.aesTweakedKeyBitSize keyBitSize then
    some ⟨mode, key.take (keyBitSize / 8), tweakKey.take (keyBitSize / 8)⟩
  else none

/-- `libfcrypto_blowfish_context_set_key` -/
def libfcryptoBlowfishContextSetKey (key : List UInt8) (keyBitSize : ℕ) :
    Option (List UInt8) :=
  if L.blowfishKeyBitSize keyBitSize then some (key.take (keyBitSize / 8)) else none

/-- `libfcrypto_rc4_context_set_key` -/
def libfcryptoRc4ContextSetKey (key : List UInt8) (keyBitSize : ℕ) : Option Rc4State :=
  if L.rc4KeyBitSize keyBitSize then some (L.rc4SetKey (key.take (keyBitSize / 8))) else none

/-- `libfcrypto_serpent_context_set_key` -/
def libfcryptoSerpentContextSetKey (key : List UInt8) (keyBitSize : ℕ) :
    Option (List UInt8) :=
  if L.serpentKeyBitSize keyBitSize then some (key.take (keyBitSize / 8)) else none

/-- `libcaes_crypt_ecb`: transforms the first 16 bytes of the input, and fails on a shorter
input or without a keyed context. -/
def libcaesCryptEcb (context : Option KeySchedule) (mode : CryptMode) (input : List UInt8) :
    Option (List UInt8) :=
  match context with
  | none => none
  | some k => if input.length < 16 then none else some (L.aesBlock k mode (input.take 16))

/-- `libhmac_sha1_calculate_hmac` and its siblings, for an output buffer of `size` bytes. -/
def libhmacCalculateHmac (h : HashingMethod) (key message : List UInt8) (size : ℕ) :
    Option (List UInt8) :=
  if hashSize h = some size then some (L.hmac h key message)
  else L.hmacOtherSize h key message size

/-- An open or closed Basic File IO handle (`libbfio_handle_t`) on a file. -/
structure FileIoHandle where
  /-- The bytes of the file. -/
  image : List UInt8
  isOpen : Bool
  /-- The offsets in a file are values of `off64_t`. -/
  length_lt : image.length < 2 ^ 63
deriving DecidableEq

/-- `libbfio_handle_read_buffer_at_offset`: the bytes read, fewer than `size` at the end of
the file, or `none` when the call returns -1. -/
def FileIoHandle.readBufferAtOffset (file : FileIoHandle) (size : ℕ) (offset : ℤ) :
    Option (List UInt8) :=
  if file.isOpen ∧ 0 ≤ offset then some (Lib.Bytes.slice offset.toNat size file.image)
  else none

end Libluksde
