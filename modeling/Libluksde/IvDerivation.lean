import Libluksde.EncryptionContextSpec

/-!
# The initialization vectors

The documentation gives each initialization vector for the block size of the cipher: 16
bytes for AES and Serpent, 8 bytes for Blowfish.  The program builds one vector of 16 bytes
for all ciphers and hands Blowfish the first half of it.  This file compares the vector that
reaches the cipher with the documented one; they differ for Blowfish with `benbi`, where
both the shift and the place of the counter depend on the block size.
-/

namespace Libluksde

open Lib.Bytes

variable {L : Libraries}

/-- The size of the initialization vector of an encryption mode that uses one. -/
def ivSize : EncryptionMode → Option ℕ
  | .aesCbc | .aesXts | .serpentCbc => some 16
  | .blowfishCbc => some 8
  | _ => none

/-- The documented initialization vector for a cipher with vectors of `b` bytes; `essiv` is
the key schedule of the ESSIV key. -/
def documentedIv (L : Libraries) (b : ℕ) (essiv : Option KeySchedule)
    (mode : InitializationVectorMode) (sector : ℕ) : Option (List UInt8) :=
  match mode with
  | .null => some (List.replicate b 0)
  | .plain32 => some (toLittleEndian 4 (sector % 2 ^ 32) ++ List.replicate (b - 4) 0)
  | .plain64 => some (toLittleEndian 8 sector ++ List.replicate (b - 8) 0)
  | .benbi =>
    some (List.replicate (b - 8) 0 ++ toBigEndian 8 ((sector <<< (9 - Nat.log2 b)) + 1))
  | .essiv =>
    essiv.map fun k => L.aesBlock k .encrypt (toLittleEndian 8 sector ++ List.replicate 8 0)
  | .unknown | .lmk | .none => none

/-- The initialization vector that a crypt call hands to the cipher. -/
def handedIv (L : Libraries) (context : EncryptionContext) (mode : CryptMode)
    (input : List UInt8) (size : ℕ) (sectorNumber : UInt64) : Option (List UInt8) :=
  (encryptionContextCipherCall L context mode input size sectorNumber).bind CipherCall.iv?

/-- The modes of the documentation. -/
def IsDocumentedIvMode (mode : InitializationVectorMode) : Prop :=
  mode = .null ∨ mode = .plain32 ∨ mode = .plain64 ∨ mode = .benbi ∨ mode = .essiv

/-- The dispatch tables hand over the first `b` bytes of the vector that was built. -/
theorem cipherCall_iv {context : EncryptionContext} {b : ℕ}
    (hb : ivSize context.encryptionMode = some b) (mode : CryptMode) {iv : List UInt8}
    (hiv : iv.length = 16) (input : List UInt8) :
    (cipherCall context mode iv input).bind CipherCall.iv? = some (iv.take b) := by
  have htake : iv.take 16 = iv := List.take_of_length_le hiv.le
  cases hm : context.encryptionMode <;> simp only [hm, ivSize, Option.some.injEq,
    reduceCtorEq] at hb
  all_goals
    subst hb
    cases mode <;> simp [cipherCall, hm, CipherCall.iv?, htake]

theorem length_libcaesCryptEcb {k : Option KeySchedule} {mode : CryptMode}
    {input output : List UInt8} (h : libcaesCryptEcb L k mode input = some output) :
    output.length = 16 := by
  cases k with
  | none => simp [libcaesCryptEcb] at h
  | some k =>
    simp only [libcaesCryptEcb] at h
    split at h
    · cases h
    · cases h
      exact L.aesBlock_length _ _ _

theorem length_initializationVector {context : EncryptionContext} {s : UInt64} {iv : List UInt8}
    (h : initializationVector L context s = some iv) : iv.length = 16 := by
  cases hmode : context.initializationVectorMode <;>
    simp only [initializationVector, hmode, reduceCtorEq, Option.some.injEq] at h
  case benbi => subst h; simp [byteStreamCopyFromUInt64BigEndian]
  case essiv => exact length_libcaesCryptEcb h
  case none => subst h; simp
  case null => subst h; simp
  case plain32 => subst h; simp [byteStreamCopyFromUInt32LittleEndian]
  case plain64 => subst h; simp [byteStreamCopyFromUInt64LittleEndian]

theorem uint64_shiftLeft_add_one {s : UInt64} (hs : s.toNat < 2 ^ 55) :
    ((s <<< 5) + 1).toNat = (s.toNat <<< 5) + 1 := by
  rw [UInt64.toNat_add, UInt64.toNat_shiftLeft]
  have h5 : (5 : UInt64).toNat % 64 = 5 := rfl
  have h1 : (1 : UInt64).toNat = 1 := rfl
  rw [h5, h1, Nat.shiftLeft_eq]
  omega

/-- The vector that is built is the documented one for 16 bytes. -/
theorem initializationVector_eq {context : EncryptionContext} {s : UInt64}
    (hs : s.toNat < 2 ^ 55) (hdoc : IsDocumentedIvMode context.initializationVectorMode)
    (hessiv : context.initializationVectorMode = .essiv →
      ∃ k, context.essivEncryptionContext = some (some k)) :
    initializationVector L context s =
      documentedIv L 16 context.essivEncryptionContext.join context.initializationVectorMode
        s.toNat := by
  rcases hdoc with h | h | h | h | h
  · simp [initializationVector, documentedIv, h]
  · simp [initializationVector, documentedIv, h, byteStreamCopyFromUInt32LittleEndian_eq]
  · simp [initializationVector, documentedIv, h, byteStreamCopyFromUInt64LittleEndian_eq]
  · have hlog : 9 - Nat.log2 16 = 5 := by decide
    simp [initializationVector, documentedIv, h, byteStreamCopyFromUInt64BigEndian_eq,
      uint64_shiftLeft_add_one hs, hlog]
  · obtain ⟨k, hk⟩ := hessiv h
    have hlen : (toLittleEndian 8 s.toNat ++ List.replicate 8 (0 : UInt8)).length = 16 := by simp
    simp only [initializationVector, documentedIv, h, hk, Option.join_some, libcaesCryptEcb,
      byteStreamCopyFromUInt64LittleEndian_eq, hlen, lt_irrefl, if_false, Option.map_some]
    rw [List.take_of_length_le hlen.le]

/-- The first 8 bytes of the 16-byte vectors are the 8-byte vectors, except for `benbi`. -/
theorem documentedIv_take (essiv : Option KeySchedule) {mode : InitializationVectorMode}
    (hdoc : IsDocumentedIvMode mode) (hessiv : mode ≠ .essiv) (sector : ℕ) :
    (documentedIv L 16 essiv mode sector).map (List.take 8) = documentedIv L 8 essiv mode sector ↔
      mode ≠ .benbi := by
  rcases hdoc with rfl | rfl | rfl | rfl | rfl
  · simp [documentedIv]
  · simp [documentedIv, List.take_append, List.take_of_length_le]
  · simp [documentedIv]
  · have hlog : 9 - Nat.log2 8 = 6 := by decide
    simp only [documentedIv, hlog, ne_eq, not_true_eq_false, iff_false, Option.map_some,
      Option.some.injEq, Nat.sub_self, List.replicate_zero, List.nil_append]
    have hzero : (List.replicate (16 - 8) 0 ++ toBigEndian 8 (sector <<< (9 - Nat.log2 16) + 1)).take 8
        = List.replicate 8 (0 : UInt8) := by
      rw [List.take_append_of_le_length (by simp)]
      rfl
    rw [hzero]
    refine (toBigEndian_ne_replicate_zero ?_).symm
    rw [Nat.shiftLeft_eq]
    omega
  · exact absurd rfl hessiv

theorem documentedIv_isSome (b : ℕ) {essiv : Option KeySchedule}
    {mode : InitializationVectorMode} (hdoc : IsDocumentedIvMode mode)
    (hessiv : mode = .essiv → ∃ k, essiv = some k) (sector : ℕ) :
    ∃ iv, documentedIv L b essiv mode sector = some iv := by
  rcases hdoc with rfl | rfl | rfl | rfl | rfl
  case inr.inr.inr.inr =>
    obtain ⟨k, rfl⟩ := hessiv rfl
    exact ⟨_, rfl⟩
  all_goals exact ⟨_, rfl⟩

/-- **The initialization vectors.**  In every context that was created and keyed, for every
documented mode, both directions and every sector number below `2 ^ 55`, the vector handed to
the cipher is the documented one, unless the cipher is Blowfish and the mode `benbi`. -/
theorem handedIv_eq_documentedIv_iff {fails : Bool} {method : EncryptionMethod}
    {chainingMode : EncryptionChainingMode} {ivMode : InitializationVectorMode}
    {h : HashingMethod} {created context : EncryptionContext} {key : List UInt8}
    (hcreated : encryptionContextInitialize fails method chainingMode ivMode h = some created)
    (hkeyed : encryptionContextSetKey L created key = some context)
    {b : ℕ} (hb : ivSize (selectEncryptionMode method chainingMode) = some b)
    (hdoc : IsDocumentedIvMode ivMode) (mode : CryptMode) {input : List UInt8} {size : ℕ}
    (hinput : 16 ≤ input.length ∧ input.length ≤ ssizeMax)
    (hsize : input.length ≤ size ∧ size ≤ ssizeMax)
    {s : UInt64} (hs : s.toNat < 2 ^ 55) :
    (∃ iv, handedIv L context mode input size s = some iv ∧
        documentedIv L b context.essivEncryptionContext.join ivMode s.toNat = some iv) ↔
      ¬ (method = .blowfish ∧ ivMode = .benbi) := by
  obtain ⟨-, -, hem, hiv, -, haes⟩ := encryptionContextInitialize_spec hcreated
  obtain ⟨⟨hem', hiv', -⟩, hessiv⟩ := encryptionContextSetKey_spec hkeyed
  rw [hiv] at hiv' hessiv
  have hessivKey : ivMode = .essiv → ∃ k, context.essivEncryptionContext = some (some k) :=
    fun h => hessiv h (haes h)
  obtain ⟨iv, hvec⟩ := documentedIv_isSome (L := L) 16 hdoc
    (fun h => (hessivKey h).imp fun k (hk : context.essivEncryptionContext = some (some k)) =>
      show context.essivEncryptionContext.join = some k by rw [hk]; rfl) s.toNat
  have hbuilt : initializationVector L context s = some iv := by
    rw [← hvec, ← hiv']
    exact initializationVector_eq hs (by rwa [hiv']) (by rwa [hiv'])
  have hlen := length_initializationVector hbuilt
  have hhanded : handedIv L context mode input size s = some (iv.take b) := by
    rw [handedIv, encryptionContextCipherCall, if_neg (by omega), if_neg (by omega), hbuilt,
      Option.bind_some]
    exact cipherCall_iv (by rw [hem', hem, hb]) mode hlen input
  rw [hhanded]
  by_cases hm : method = .blowfish
  · -- Blowfish gets the first half of the vector
    subst hm
    cases chainingMode <;> simp only [selectEncryptionMode, ivSize, reduceCtorEq,
      Option.some.injEq] at hb
    subst hb
    have hnoessiv : ivMode ≠ .essiv := by
      intro h
      rcases haes h with h | h <;> simp [hem, selectEncryptionMode] at h
    have htake := documentedIv_take (L := L) context.essivEncryptionContext.join
      hdoc hnoessiv s.toNat
    rw [hvec, Option.map_some] at htake
    simp only [true_and, Option.some.injEq, exists_eq_left']
    exact eq_comm.trans htake
  · -- the other ciphers get the whole vector
    have hb16 : b = 16 := by
      cases method <;> cases chainingMode <;>
        simp only [selectEncryptionMode, ivSize, reduceCtorEq, Option.some.injEq] at hb
      all_goals first | exact hb.symm | exact absurd rfl hm
    subst hb16
    rw [List.take_of_length_le hlen.le]
    simp only [hm, false_and, not_false_iff, iff_true]
    exact ⟨iv, rfl, hvec⟩

/-- AES-CBC with `plain64` and a key of 128 bits. -/
theorem handedIv_eq_documentedIv_iff_aes_cbc_plain64 :
    ∃ created context,
      encryptionContextInitialize false .aes .cbc .plain64 .unknown = some created ∧
      encryptionContextSetKey (.ofTables [] [] []) created (List.replicate 16 0)
        = some context ∧
      ((∃ iv, handedIv (.ofTables [] [] []) context .decrypt (List.replicate 16 0) 16 7
          = some iv ∧
        documentedIv (.ofTables [] [] []) 16 context.essivEncryptionContext.join .plain64 7
          = some iv) ↔
        ¬ (EncryptionMethod.aes = .blowfish ∧ InitializationVectorMode.plain64 = .benbi)) :=
  ⟨_, _, rfl, rfl, handedIv_eq_documentedIv_iff
    (show encryptionContextInitialize false .aes .cbc .plain64 .unknown = some _ from rfl)
    (show encryptionContextSetKey _ _ (List.replicate 16 0) = some _ from rfl) rfl
    (Or.inr (Or.inr (Or.inl rfl))) .decrypt (by decide) (by decide) (by decide)⟩

/-- Blowfish-CBC with `benbi`: sector 1 begins with the cipher block 65, but the vector handed
to the cipher is zero. -/
theorem handedIv_blowfish_benbi_ne_documentedIv :
    ((encryptionContextInitialize false .blowfish .cbc .benbi .unknown).bind fun created =>
      (encryptionContextSetKey (.ofTables [] [] []) created (List.replicate 16 0)).map
        fun context =>
          (handedIv (.ofTables [] [] []) context .decrypt (List.replicate 16 0) 16 1,
            documentedIv (.ofTables [] [] []) 8 context.essivEncryptionContext.join .benbi 1)) =
      some (some [0, 0, 0, 0, 0, 0, 0, 0], some [0, 0, 0, 0, 0, 0, 0, 65]) := by
  decide +kernel

end Libluksde
