import Libluksde.CryptRoundTrip
import Libluksde.KeyMaterial
import Libluksde.ContextHistory

/-!
# The contexts of a volume decrypt

A context that was created for a header and a master key decrypts sectors as long as it lives, if
its initialization vector mode is supported: the ciphers of the libraries decrypt whole sectors, and
a context of RC4 keeps a state.
-/

namespace Libluksde

open Lib.Bytes Relation

variable {L : Libraries}

/-- The ciphers of the libraries decrypt sectors of 512 bytes, with the keys that they accept. -/
structure Libraries.DecryptsSectors (L : Libraries) : Prop where
  aesCbc : ∀ key iv input, L.aesKeyBitSize (key.length * 8) = true → iv.length = 16 →
    input.length = 512 → ∃ output, L.aesCbc.crypt ⟨.decrypt, key⟩ .decrypt iv input = some output
  aesXts : ∀ n key tweakKey iv input, L.aesTweakedKeyBitSize n = true → key.length = n / 8 →
    tweakKey.length = n / 8 → iv.length = 16 → input.length = 512 →
    ∃ output, L.aesXts.crypt ⟨.decrypt, key, tweakKey⟩ .decrypt iv input = some output
  blowfishCbc : ∀ key iv input, L.blowfishKeyBitSize (key.length * 8) = true → iv.length = 8 →
    input.length = 512 → ∃ output, L.blowfishCbc.crypt key .decrypt iv input = some output
  blowfishEcb : ∀ key input, L.blowfishKeyBitSize (key.length * 8) = true → input.length = 512 →
    ∃ output, L.blowfishEcb.crypt key .decrypt input = some output
  serpentCbc : ∀ key iv input, L.serpentKeyBitSize (key.length * 8) = true → iv.length = 16 →
    input.length = 512 → ∃ output, L.serpentCbc.crypt key .decrypt iv input = some output
  serpentEcb : ∀ key input, L.serpentKeyBitSize (key.length * 8) = true → input.length = 512 →
    ∃ output, L.serpentEcb.crypt key .decrypt input = some output

/-- The modes in which an initialization vector is built. -/
def InitializationVectorMode.IsSupported (ivMode : InitializationVectorMode) : Prop :=
  ivMode ≠ .unknown ∧ ivMode ≠ .lmk

/-- A crypt call that succeeds has built an initialization vector. -/
theorem isSupported_of_crypt {c c' : EncryptionContext} {m : CryptMode} {input output : List UInt8}
    {size : ℕ} {sectorNumber : UInt64}
    (h : encryptionContextCrypt L c m input size sectorNumber = some (output, c')) :
    c.initializationVectorMode.IsSupported := by
  simp only [encryptionContextCrypt, encryptionContextCipherCall, Option.bind_eq_some_iff] at h
  obtain ⟨call, hcall, -⟩ := h
  split_ifs at hcall
  obtain ⟨iv, hiv, -⟩ := Option.bind_eq_some_iff.1 hcall
  constructor
  · intro hunknown
    rw [initializationVector, hunknown] at hiv
    cases hiv
  · intro hlmk
    rw [initializationVector, hlmk] at hiv
    cases hiv

/-- The library call of a keyed context decrypts a sector. -/
theorem keyedCall_run (hL : L.DecryptsSectors) {mode : EncryptionMode} {key iv input : List UInt8}
    (hkey : keySizeAccepted L key.length mode = true) (hiv : iv.length = 16)
    (hinput : input.length = 512) :
    ∃ call output state, keyedCall L key .decrypt iv input mode = some call ∧
      call.run L = some (output, state) := by
  cases mode with
  | unknown => cases hkey
  | aesCbc =>
    obtain ⟨output, hcrypt⟩ := hL.aesCbc key iv input hkey hiv hinput
    exact ⟨_, output, none, rfl, by simp [CipherCall.run, hcrypt]⟩
  | aesEcb =>
    have hwhole : WholeBlocks input := ⟨by omega, by omega⟩
    exact ⟨_, _, none, rfl, by rw [CipherCall.run, aesEcbLoop_wholeBlocks _ _ hwhole]; rfl⟩
  | aesXts =>
    obtain ⟨output, hcrypt⟩ := hL.aesXts (key.length * 8 / 2) (key.take (key.length / 2))
      (slice (key.length / 2) (key.length / 2) key) iv input hkey
      (by rw [half_keyBitSize, List.length_take]; omega)
      (by rw [half_keyBitSize, length_slice_of_le (by omega)]) hiv hinput
    exact ⟨_, output, none, rfl, by simp [CipherCall.run, hcrypt]⟩
  | blowfishCbc =>
    obtain ⟨output, hcrypt⟩ := hL.blowfishCbc key (iv.take 8) input hkey
      (by rw [List.length_take, hiv]; rfl) hinput
    exact ⟨_, output, none, rfl, by simp [CipherCall.run, hcrypt]⟩
  | blowfishEcb =>
    obtain ⟨output, hcrypt⟩ := hL.blowfishEcb key input hkey hinput
    exact ⟨_, output, none, rfl, by simp [CipherCall.run, hcrypt]⟩
  | rc4Cbc | rc4Ecb => exact ⟨_, _, _, rfl, rfl⟩
  | serpentCbc =>
    obtain ⟨output, hcrypt⟩ := hL.serpentCbc key iv input hkey hiv hinput
    exact ⟨_, output, none, rfl, by simp [CipherCall.run, hcrypt]⟩
  | serpentEcb =>
    obtain ⟨output, hcrypt⟩ := hL.serpentEcb key input hkey hinput
    exact ⟨_, output, none, rfl, by simp [CipherCall.run, hcrypt]⟩

/-- A context that was created and keyed, and has decrypted since: only the state of the RC4
decryption may have changed, and there is one. -/
structure Keyed (L : Libraries) (mode : EncryptionMode) (ivMode : InitializationVectorMode)
    (h : HashingMethod) (key : List UInt8) (c : EncryptionContext) : Prop where
  eq : c = { keyedContext L mode ivMode h key with rc4DecryptionContext := c.rc4DecryptionContext }
  state : c.IsRc4 → ∃ s, c.rc4DecryptionContext = some (some s)

section

variable {mode : EncryptionMode} {ivMode : InitializationVectorMode} {h : HashingMethod}
  {key : List UInt8} {c c' : EncryptionContext}

theorem Keyed.of_keyedContext : Keyed L mode ivMode h key (keyedContext L mode ivMode h key) := by
  refine ⟨rfl, fun hrc4 => ?_⟩
  rw [EncryptionContext.IsRc4, keyedContext_encryptionMode] at hrc4
  obtain rfl | rfl := hrc4
  · exact ⟨_, rfl⟩
  · exact ⟨_, rfl⟩

theorem Keyed.encryptionMode (hc : Keyed L mode ivMode h key c) : c.encryptionMode = mode := by
  rw [hc.eq]
  exact keyedContext_encryptionMode mode ivMode h key

theorem Keyed.initializationVectorMode (hc : Keyed L mode ivMode h key c) :
    c.initializationVectorMode = ivMode := by
  rw [hc.eq]
  exact keyedContext_initializationVectorMode mode ivMode h key

/-- A decryption of RC4 leaves a state. -/
theorem Keyed.decrypts (hc : Keyed L mode ivMode h key c) (hd : Decrypts L c c') :
    Keyed L mode ivMode h key c' := by
  obtain ⟨input, size, sectorNumber, output, hcrypt⟩ := hd
  have hsame := encryptionContextCrypt_sameKeys hcrypt
  refine ⟨?_, fun hrc4 => ?_⟩
  · rw [hsame, hc.eq]
  · rw [hsame.isRc4] at hrc4
    obtain ⟨s, hs⟩ := hc.state hrc4
    simp only [encryptionContextCrypt, Option.bind_eq_some_iff, Option.map_eq_some_iff,
      Prod.mk.injEq] at hcrypt
    obtain ⟨call, -, ⟨o, state⟩, -, -, rfl⟩ := hcrypt
    cases state with
    | none => exact ⟨s, hs⟩
    | some s' => exact ⟨s', rfl⟩

/-- A keyed context in a supported initialization vector mode decrypts every sector. -/
theorem Keyed.crypt (hL : L.DecryptsSectors) (hc : Keyed L mode ivMode h key c)
    (hkey : keySizeAccepted L key.length mode = true) (hsupported : ivMode.IsSupported)
    (hessiv : ivMode = .essiv → mode = .aesCbc ∨ mode = .aesEcb) {input : List UInt8}
    (hinput : input.length = 512) (sectorNumber : UInt64) :
    ∃ output c', encryptionContextCrypt L c .decrypt input 512 sectorNumber = some (output, c') := by
  obtain ⟨iv, hiv⟩ := initializationVector_keyedContext (L := L) mode ivMode h key hsupported hessiv
    sectorNumber
  have hvector : initializationVector L c sectorNumber = some iv := by
    rw [hc.eq]
    exact hiv
  rw [encryptionContextCrypt_of_iv .decrypt (by omega) (by rw [hinput]; decide) hvector]
  by_cases hrc4 : c.IsRc4
  · obtain ⟨s, hs⟩ := hc.state hrc4
    have hcall : cipherCall c .decrypt iv input = some (.rc4 (some s) .decrypt input) := by
      obtain hmode | hmode := hrc4
      · simp only [cipherCall, hmode, hs, Option.join_some]
      · simp only [cipherCall, hmode, hs, Option.join_some]
    rw [hcall]
    exact ⟨_, _, rfl⟩
  · obtain ⟨call, output, state, hcall, hrun⟩ := keyedCall_run hL hkey
      (length_initializationVector hiv) hinput
    have hsame : cipherCall c .decrypt iv input = some call := by
      rw [← hcall, ← cipherCall_keyedContext mode ivMode h]
      rw [EncryptionContext.IsRc4, hc.encryptionMode] at hrc4
      rw [hc.eq]
      simp only [cipherCall, keyedContext_encryptionMode]
      cases mode <;> first | rfl | exact absurd (Or.inl rfl) hrc4 | exact absurd (Or.inr rfl) hrc4
    rw [hsame, Option.bind_some, hrun]
    exact ⟨_, _, rfl⟩

end

/-- A context of a header is keyed with a key that its mode accepts. -/
theorem ContextOf.keyed {header : VolumeHeader} {c : EncryptionContext} (h : ContextOf L header c) :
    ∃ key mode, mode = selectEncryptionMode header.encryptionMethod header.encryptionChainingMode ∧
      keySizeAccepted L key.length mode = true ∧
      (header.initializationVectorMode = .essiv → mode = .aesCbc ∨ mode = .aesEcb) ∧
      Keyed L mode header.initializationVectorMode header.essivHashingMethod key c := by
  obtain ⟨key, created, -, hcreated, hhistory⟩ := h
  have hsome : (createContext L false false header key).isSome = true := by rw [hcreated]; rfl
  obtain ⟨hinitialized, -, hkey⟩ := (createContext_isSome header key).1 hsome
  obtain ⟨initialized, hinitialized⟩ := Option.isSome_iff_exists.1 hinitialized
  obtain ⟨-, -, hmode, -, -, hessiv⟩ := encryptionContextInitialize_spec hinitialized
  rw [hmode] at hessiv
  refine ⟨key, _, rfl, hkey, hessiv, ?_⟩
  -- the context is keyed when it is created, and every decryption keeps it so
  induction hhistory with
  | refl =>
    rw [createContext_eq hcreated]
    exact .of_keyedContext
  | tail _ hd ih => exact ih.decrypts hd

/-- A context of a header decrypts every sector. -/
theorem ContextOf.crypt (hL : L.DecryptsSectors) {header : VolumeHeader} {c : EncryptionContext}
    (h : ContextOf L header c) (hsupported : c.initializationVectorMode.IsSupported)
    {input : List UInt8} (hinput : input.length = 512) (sectorNumber : UInt64) :
    ∃ output c', encryptionContextCrypt L c .decrypt input 512 sectorNumber = some (output, c') := by
  obtain ⟨key, mode, -, hkey, hessiv, hkeyed⟩ := h.keyed
  rw [hkeyed.initializationVectorMode] at hsupported
  exact hkeyed.crypt hL hkey hsupported hessiv hinput sectorNumber

end Libluksde
