import Libluksde.KeyedContext

/-!
# The key of ESSIV

The cipher that encrypts sector numbers should be keyed with the whole digest of the data key.  The
code puts the digest in 32 zeroed bytes and keys the cipher with as many bits as the data key has,
so that a data key shorter than the digest cuts it; for a hashing method without a digest the bytes
stay zero and the cipher is keyed with them.
-/

namespace Libluksde

open Lib.Bytes

variable {L : Libraries} {h : HashingMethod} {key : List UInt8} {context : EncryptionContext}

/-- The digest of the data key, for the hashing methods of which the keying computes one. -/
def essivDigest (L : Libraries) (h : HashingMethod) (key : List UInt8) : Option (List UInt8) :=
  match h with
  | .sha1 | .sha256 => some (L.digest h key)
  | _ => none

/-- What is asked of a context that was keyed: its hashing method has a digest, and the ESSIV cipher
is keyed with all bytes of it, behind which only zero bytes may follow; for SHA-256 with exactly the
digest. -/
def EssivKeyed (L : Libraries) (h : HashingMethod) (key : List UInt8) (context : EncryptionContext) :
    Prop :=
  ∃ digest essiv, essivDigest L h key = some digest ∧
    context.essivEncryptionContext = some (some ⟨.encrypt, essiv⟩) ∧
    (∃ n, essiv = digest ++ List.replicate n 0) ∧ (h = .sha256 → essiv = digest)

/-- The sizes in bits of the keys that libcaes accepts. -/
def Libraries.AesKeySizes (L : Libraries) : Prop :=
  ∀ n, L.aesKeyBitSize n = true → n = 128 ∨ n = 192 ∨ n = 256

/-- The bytes that the ESSIV cipher is keyed with. -/
theorem essivEncryptionContext_of_setKey {fails : Bool} {method : EncryptionMethod}
    {chainingMode : EncryptionChainingMode} {created : EncryptionContext}
    (hcreated : encryptionContextInitialize fails method chainingMode .essiv h = some created)
    (hkeyed : encryptionContextSetKey L created key = some context) :
    L.aesKeyBitSize (key.length * 8) = true ∧ context.essivEncryptionContext =
      some (some ⟨.encrypt, (essivKey L h key).take key.length⟩) := by
  obtain ⟨-, -, hmode, -, -, hessiv⟩ := encryptionContextInitialize_spec hcreated
  have haes := hessiv rfl
  rw [hmode] at haes
  rw [encryptionContextSetKey_eq hcreated] at hkeyed
  split_ifs at hkeyed with hsize
  obtain rfl := Option.some.inj hkeyed
  obtain hcbc | hecb := haes
  · rw [hcbc] at hsize ⊢
    exact ⟨hsize.2, rfl⟩
  · rw [hecb] at hsize ⊢
    exact ⟨hsize.2, rfl⟩

/-- The digest of SHA-1 is followed by zero bytes. -/
theorem essivKey_sha1 (L : Libraries) (key : List UInt8) :
    essivKey L .sha1 key = L.digest .sha1 key ++ List.replicate 12 0 := by
  have hlength : (L.digest .sha1 key).length = 20 := L.digest_length rfl key
  simp only [essivKey, write, List.take_zero, List.nil_append, List.length_replicate, Nat.sub_zero,
    Nat.zero_add, hlength, List.drop_replicate]
  rw [List.take_of_length_le (by omega)]

/-- The digest of SHA-256 fills the buffer. -/
theorem essivKey_sha256 (L : Libraries) (key : List UInt8) :
    essivKey L .sha256 key = L.digest .sha256 key := by
  have hlength : (L.digest .sha256 key).length = 32 := L.digest_length rfl key
  simp only [essivKey, write, List.take_zero, List.nil_append, List.length_replicate, Nat.sub_zero,
    Nat.zero_add, hlength, List.drop_replicate, Nat.sub_self, List.replicate_zero, List.append_nil]
  rw [List.take_of_length_le (by omega)]

/-- **The key of ESSIV.**  For every context of ESSIV and every data key that is accepted, the ESSIV
cipher is keyed with the whole digest exactly when the hashing method is SHA-1 and the data key has
at least 20 bytes, or the hashing method is SHA-256 and the data key has 32 bytes. -/
theorem essivKeyed_iff (haes : L.AesKeySizes) {fails : Bool} {method : EncryptionMethod}
    {chainingMode : EncryptionChainingMode} {created : EncryptionContext}
    (hcreated : encryptionContextInitialize fails method chainingMode .essiv h = some created)
    (hkeyed : encryptionContextSetKey L created key = some context) :
    EssivKeyed L h key context ↔
      (h = .sha1 ∧ 20 ≤ key.length) ∨ (h = .sha256 ∧ key.length = 32) := by
  obtain ⟨haccepted, hessiv⟩ := essivEncryptionContext_of_setKey hcreated hkeyed
  have hsize : key.length ≤ 32 := by
    obtain hn | hn | hn := haes _ haccepted <;> omega
  have hsha1 : (L.digest .sha1 key).length = 20 := L.digest_length rfl key
  have hsha256 : (L.digest .sha256 key).length = 32 := L.digest_length rfl key
  constructor
  · rintro ⟨digest, essiv, hdigest, heq, ⟨n, hpadded⟩, hexact⟩
    rw [hessiv, Option.some.injEq, Option.some.injEq, KeySchedule.mk.injEq] at heq
    -- the key that is taken is at least as long as the digest
    have hlength := congrArg List.length (heq.2.trans hpadded)
    rw [List.length_take, List.length_append] at hlength
    cases h with
    | sha1 =>
      cases hdigest
      exact Or.inl ⟨rfl, by omega⟩
    | sha256 =>
      cases hdigest
      exact Or.inr ⟨rfl, by omega⟩
    | unknown | ripemd160 | sha224 | sha512 => cases hdigest
  · rintro (⟨rfl, hlarge⟩ | ⟨rfl, hlarge⟩)
    · refine ⟨_, _, rfl, hessiv, ⟨key.length - 20, ?_⟩, fun hno => (by cases hno)⟩
      rw [essivKey_sha1, List.take_append, hsha1, List.take_of_length_le (by omega),
        List.take_replicate, Nat.min_eq_left (by omega)]
    · have hwhole : (essivKey L .sha256 key).take key.length = L.digest .sha256 key := by
        rw [essivKey_sha256, List.take_of_length_le (by omega)]
      exact ⟨_, _, rfl, hessiv, ⟨0, by rw [hwhole, List.replicate_zero, List.append_nil]⟩,
        fun _ => hwhole⟩

/-- SHA-256 of 16 zero bytes. -/
def zeroKeyDigest : List UInt8 :=
  toBigEndian 32 0x374708fff7719dd5979ec875d56cd2286f6d3cf7ec317a3b25632aab28ec37bb

/-- The SHA-256 digest of the key of 32 bytes of 1. -/
def longKeyDigest : List UInt8 :=
  toBigEndian 32 0x72cd6e8422c407fb6d098690f1130b7ded7ec2f7f5e1d30bd9d521f015363793

/-- Libraries with these digests. -/
def zeroKeyLibraries : Libraries :=
  .ofTables [] [((.sha256, List.replicate 16 0), zeroKeyDigest),
    ((.sha256, List.replicate 32 1), longKeyDigest)] []

theorem zeroKeyLibraries_aesKeySizes : zeroKeyLibraries.AesKeySizes := by
  intro n hn
  simpa [zeroKeyLibraries, Libraries.ofTables] using hn

/-- The context of AES-CBC with ESSIV and SHA-256 is keyed with every key that libcaes accepts. -/
theorem zeroKeyLibraries_setKey {key : List UInt8}
    (hsize : zeroKeyLibraries.aesKeyBitSize (key.length * 8) = true) :
    ∃ created, encryptionContextInitialize false .aes .cbc .essiv .sha256 = some created ∧
      encryptionContextSetKey zeroKeyLibraries created key =
        some (keyedContext zeroKeyLibraries .aesCbc .essiv .sha256 key) := by
  obtain ⟨created, hcreated⟩ : ∃ created,
      encryptionContextInitialize false .aes .cbc .essiv .sha256 = some created := ⟨_, rfl⟩
  have hlength : key.length ≤ ssizeMax := by
    have hmax : ssizeMax = 2 ^ 63 - 1 := rfl
    have haes := zeroKeyLibraries_aesKeySizes _ hsize
    omega
  refine ⟨created, hcreated, ?_⟩
  rw [encryptionContextSetKey_eq hcreated]
  exact if_pos ⟨hlength, hsize⟩

/-- A data key of 32 bytes and SHA-256. -/
theorem essivKeyed_iff_sha256 :
    let L := zeroKeyLibraries
    let key : List UInt8 := List.replicate 32 1
    EssivKeyed L .sha256 key (keyedContext L .aesCbc .essiv .sha256 key) ↔
      (HashingMethod.sha256 = .sha1 ∧ 20 ≤ key.length) ∨
        (HashingMethod.sha256 = .sha256 ∧ key.length = 32) := by
  intro L key
  have hsize : L.aesKeyBitSize (key.length * 8) = true := rfl
  rcases zeroKeyLibraries_setKey hsize with ⟨created, hcreated, hkeyed⟩
  exact essivKeyed_iff zeroKeyLibraries_aesKeySizes hcreated hkeyed

/-- The key of 16 zero bytes in AES-CBC with ESSIV and SHA-256: the keying succeeds, and half of
the digest is dropped. -/
theorem essivKeyed_sha256_half :
    let L := zeroKeyLibraries
    let key : List UInt8 := List.replicate 16 0
    ∃ created context,
      encryptionContextInitialize false .aes .cbc .essiv .sha256 = some created ∧
      encryptionContextSetKey L created key = some context ∧
      context.essivEncryptionContext = some (some ⟨.encrypt, zeroKeyDigest.take 16⟩) ∧
      ¬ EssivKeyed L .sha256 key context := by
  intro L key
  have hsize : L.aesKeyBitSize (key.length * 8) = true := rfl
  rcases zeroKeyLibraries_setKey hsize with ⟨created, hcreated, hkeyed⟩
  have hessiv : (keyedContext L .aesCbc .essiv .sha256 key).essivEncryptionContext =
      some (some ⟨.encrypt, zeroKeyDigest.take 16⟩) := by decide +kernel
  refine ⟨created, _, hcreated, hkeyed, hessiv, ?_⟩
  rintro ⟨digest, essiv, hdigest, heq, -, hexact⟩
  rw [hessiv, Option.some.injEq, Option.some.injEq, KeySchedule.mk.injEq] at heq
  cases hdigest
  have hwhole := congrArg List.length (heq.2.trans (hexact rfl))
  revert hwhole
  decide +kernel

end Libluksde
