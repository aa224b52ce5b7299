import Libluksde.SectorData
import Libluksde.Lib.Machine
import Libluksde.Lib.Memo

/-!
# The cache is transparent

A request for a sector answers from the cache or by reading and decrypting.  As long as the
cipher mode keeps no state, whatever the cache serves is what the file holds: the cache is a
faithful store of the function that reads and decrypts a sector.
-/

namespace Libluksde

open Lib.Bytes Lib.Machine Lib.Memo

variable {L : Libraries}

/-- The plain path: `n` bytes of the file at an offset of the data, decrypted with the number
of the sector they begin in. -/
def uncachedSector (L : Libraries) (n : ℕ) (dataOffset : ℤ) (file : FileIoHandle)
    (context : EncryptionContext) (offset : ℤ) : Option (List UInt8) :=
  match file.readBufferAtOffset n (dataOffset + offset) with
  | none => none
  | some encryptedData =>
    if encryptedData.length = n then
      (encryptionContextCrypt L context .decrypt encryptedData n
        (UInt64.ofNat (offset.toNat / n))).map Prod.fst
    else none

/-- A vector on data at `dataOffset` whose cache holds sectors of the file only. -/
structure FaithfulVector (L : Libraries) (n : ℕ) (dataOffset : ℤ) (file : FileIoHandle)
    (context : EncryptionContext) (vector : SectorDataVector) : Prop where
  bytesPerSector : vector.bytesPerSector = n
  dataOffset_eq : vector.dataOffset = dataOffset
  cache : Faithful (uncachedSector L n dataOffset file context) vector.cache

/-- A new vector has an empty cache. -/
theorem FaithfulVector.of_new {fails : Bool} {n : ℕ} {dataOffset : ℤ} {file : FileIoHandle}
    {context : EncryptionContext} {vector : SectorDataVector}
    (h : sectorDataVectorInitialize fails n dataOffset = some vector) :
    FaithfulVector L n dataOffset file context vector := by
  unfold sectorDataVectorInitialize at h
  split_ifs at h
  cases h
  exact ⟨rfl, rfl, Faithful.nil _⟩

/-- What the cache serves is a sector of the file. -/
theorem FaithfulVector.cached {n : ℕ} {dataOffset : ℤ} {file : FileIoHandle}
    {context : EncryptionContext} {vector : SectorDataVector}
    (h : FaithfulVector L n dataOffset file context vector) {entry : Option ℕ} {offset : ℤ}
    {data : List UInt8} (hdata : vector.cached entry offset = some data) :
    uncachedSector L n dataOffset file context offset = some data := by
  unfold SectorDataVector.cached at hdata
  split at hdata
  · rename_i o value hentry
    obtain ⟨i, -, hi⟩ := Option.bind_eq_some_iff.1 hentry
    split_ifs at hdata with ho
    cases hdata
    subst ho
    exact h.cache.getElem? hi
  · cases hdata

/-- What a read of a sector gives is what the plain path gives. -/
theorem sectorDataReadFileIoHandle_spec {readFails : Bool} {n : ℕ} {dataOffset offset : ℤ}
    {file : FileIoHandle} {context context' : EncryptionContext} {data : List UInt8}
    (hdataOffset : 0 ≤ dataOffset ∧ dataOffset < 2 ^ 63) (hoffset : 0 ≤ offset ∧ offset < 2 ^ 63)
    (h : sectorDataReadFileIoHandle L readFails n (some file) (off64 (dataOffset + offset))
      (some context) (UInt64.ofNat (size64 offset / n)) = some (data, context')) :
    uncachedSector L n dataOffset file context offset = some data ∧
      (¬ context.IsRc4 → context' = context) := by
  unfold sectorDataReadFileIoHandle readBufferAtOffset at h
  cases readFails with
  | true => simp at h
  | false =>
    simp only [Bool.false_eq_true, if_false, Option.bind_some] at h
    cases hread : file.readBufferAtOffset n (off64 (dataOffset + offset)) with
    | none => simp [hread] at h
    | some encryptedData =>
      simp only [hread] at h
      split_ifs at h with hlen
      -- the sum has not wrapped, since a negative offset cannot be read
      have hwrap : off64 (dataOffset + offset) = dataOffset + offset := by
        by_contra hne
        have hneg : off64 (dataOffset + offset) < 0 := by
          unfold off64 at hne ⊢
          rw [Int.bmod_def] at hne ⊢
          split_ifs at hne ⊢ <;> omega
        rw [FileIoHandle.readBufferAtOffset, if_neg (by omega)] at hread
        cases hread
      have hsector : size64 offset / n = offset.toNat / n := by
        congr 1
        unfold size64
        omega
      rw [hwrap] at hread
      rw [hsector] at h
      refine ⟨?_, (encryptionContextCrypt_spec h).2⟩
      rw [uncachedSector, hread]
      simp only
      rw [if_pos (not_not.1 hlen), h]
      rfl

/-- What one request does: data that is returned is the sector of the file, the vector stays
faithful, the context stays as it is, and a request that fails changes nothing. -/
structure TransparentResult (L : Libraries) (n : ℕ) (dataOffset : ℤ) (file : FileIoHandle)
    (context : EncryptionContext) (vector : SectorDataVector) (offset : ℤ)
    (result : Option (List UInt8) × SectorDataVector × Option EncryptionContext) : Prop where
  data : ∀ data, result.1 = some data →
    uncachedSector L n dataOffset file context offset = some data
  faithful : FaithfulVector L n dataOffset file context result.2.1
  context_eq : result.2.2 = some context
  unchanged : result.1 = none → result.2.1 = vector

/-- What one request does in every mode: the vector stays faithful to the context, which stays as it
is unless it keeps a state. -/
structure FaithfulResult (L : Libraries) (n : ℕ) (dataOffset : ℤ) (file : FileIoHandle)
    (context : EncryptionContext) (vector : SectorDataVector) (offset : ℤ)
    (result : Option (List UInt8) × SectorDataVector × Option EncryptionContext) : Prop where
  data : ∀ data, result.1 = some data →
    uncachedSector L n dataOffset file context offset = some data
  faithful : FaithfulVector L n dataOffset file context result.2.1
  context_eq : ¬ context.IsRc4 → result.2.2 = some context
  unchanged : result.1 = none → result.2.1 = vector

/-- A request that fails leaves the vector and the context as they are. -/
theorem FaithfulResult.failed {n : ℕ} {dataOffset offset : ℤ} {file : FileIoHandle}
    {context : EncryptionContext} {vector : SectorDataVector}
    (h : FaithfulVector L n dataOffset file context vector) :
    FaithfulResult L n dataOffset file context vector offset (none, vector, some context) :=
  ⟨fun _ h => (by cases h), h, fun _ => rfl, fun _ => rfl⟩

theorem sectorDataVectorGetSectorDataAtOffset_faithful (env : SectorEnvironment) {n : ℕ}
    {dataOffset offset : ℤ} {file : FileIoHandle} {context : EncryptionContext}
    {vector : SectorDataVector} (hvector : FaithfulVector L n dataOffset file context vector)
    (hdataOffset : 0 ≤ dataOffset ∧ dataOffset < 2 ^ 63)
    (hoffset : 0 ≤ offset ∧ offset < 2 ^ 63) :
    FaithfulResult L n dataOffset file context vector offset
      (sectorDataVectorGetSectorDataAtOffset L env vector (some file) (some context) offset) := by
  have hfailed : FaithfulResult L n dataOffset file context vector offset
      (none, vector, some context) := .failed hvector
  rw [sectorDataVectorGetSectorDataAtOffset]
  by_cases hfails : env.cacheFails = true
  · rw [if_pos hfails]
    exact hfailed
  rw [if_neg hfails]
  cases hcached : vector.cached env.cacheEntry offset with
  | some data =>
    simp only
    split_ifs
    · exact hfailed
    · refine ⟨fun data' h => ?_, hvector, fun _ => rfl, fun h => (by cases h)⟩
      cases h
      exact hvector.cached hcached
  | none =>
    simp only
    split
    · exact hfailed
    · rw [hvector.bytesPerSector, hvector.dataOffset_eq]
      cases hread : sectorDataReadFileIoHandle L env.readFails n (some file)
        (off64 (dataOffset + offset)) (some context) (UInt64.ofNat (size64 offset / n)) with
      | none => exact hfailed
      | some r =>
        obtain ⟨data, context'⟩ := r
        obtain ⟨hdata, hcontext⟩ := sectorDataReadFileIoHandle_spec hdataOffset hoffset hread
        have hsame : ¬ context.IsRc4 → some context' = some context := fun hstateless =>
          congrArg some (hcontext hstateless)
        simp only
        split_ifs
        · exact ⟨fun _ h => (by cases h), hvector, hsame, fun _ => rfl⟩
        · refine ⟨fun data' h => ?_, ⟨rfl, rfl, hvector.cache.cons hdata⟩, hsame,
            fun h => (by cases h)⟩
          cases h
          exact hdata

theorem sectorDataVectorGetSectorDataAtOffset_spec (env : SectorEnvironment) {n : ℕ}
    {dataOffset offset : ℤ} {file : FileIoHandle} {context : EncryptionContext}
    {vector : SectorDataVector} (hvector : FaithfulVector L n dataOffset file context vector)
    (hstateless : ¬ context.IsRc4) (hdataOffset : 0 ≤ dataOffset ∧ dataOffset < 2 ^ 63)
    (hoffset : 0 ≤ offset ∧ offset < 2 ^ 63) :
    TransparentResult L n dataOffset file context vector offset
      (sectorDataVectorGetSectorDataAtOffset L env vector (some file) (some context) offset) := by
  have hresult := sectorDataVectorGetSectorDataAtOffset_faithful env hvector hdataOffset hoffset
  exact ⟨hresult.data, hresult.faithful, hresult.context_eq hstateless, hresult.unchanged⟩

/-! ## Sequences of requests -/

/-- A request: the surroundings and the offset. -/
structure SectorRequest where
  env : SectorEnvironment
  offset : ℤ

/-- A request to a vector on a file, with an encryption context. -/
def sectorStep (L : Libraries) (file : FileIoHandle) (request : SectorRequest)
    (state : SectorDataVector × Option EncryptionContext) :
    (SectorDataVector × Option EncryptionContext) × Option (List UInt8) :=
  let result := sectorDataVectorGetSectorDataAtOffset L request.env state.1 (some file) state.2
    request.offset
  (result.2, result.1)

/-- The offset of a request is a non-negative `off64_t`. -/
def SectorRequest.InRange (request : SectorRequest) : Prop :=
  0 ≤ request.offset ∧ request.offset < 2 ^ 63

/-- The invariant of a sequence of requests. -/
def SectorInvariant (L : Libraries) (n : ℕ) (dataOffset : ℤ) (file : FileIoHandle)
    (context : EncryptionContext) (state : SectorDataVector × Option EncryptionContext) : Prop :=
  FaithfulVector L n dataOffset file context state.1 ∧ state.2 = some context

/-- What one request of a sequence does. -/
theorem sectorStep_spec {n : ℕ} {dataOffset : ℤ} {file : FileIoHandle}
    {context : EncryptionContext} (hstateless : ¬ context.IsRc4)
    (hdataOffset : 0 ≤ dataOffset ∧ dataOffset < 2 ^ 63) {request : SectorRequest}
    (hrequest : request.InRange) {state : SectorDataVector × Option EncryptionContext}
    (h : SectorInvariant L n dataOffset file context state) :
    SectorInvariant L n dataOffset file context (sectorStep L file request state).1 ∧
      (∀ data, (sectorStep L file request state).2 = some data →
        uncachedSector L n dataOffset file context request.offset = some data) ∧
      ((sectorStep L file request state).2 = none →
        (sectorStep L file request state).1 = state) := by
  obtain ⟨vector, context'⟩ := state
  obtain ⟨hvector, rfl⟩ := h
  have hresult := sectorDataVectorGetSectorDataAtOffset_spec request.env hvector
    hstateless hdataOffset hrequest
  exact ⟨⟨hresult.faithful, hresult.context_eq⟩, hresult.data,
    fun hnone => Prod.ext (hresult.unchanged hnone) hresult.context_eq⟩

/-- **The cache is transparent.**  In every sequence of requests to one vector, with any
failures and any behaviour of the cache, a request that succeeds gives the sector that reading
and decrypting gives, and a request that fails changes the result of no later request. -/
theorem sectorData_cache_transparent {fails : Bool} {dataOffset : ℤ} {file : FileIoHandle}
    {context : EncryptionContext} {vector : SectorDataVector}
    (hcreated : sectorDataVectorInitialize fails 512 dataOffset = some vector)
    (hdataOffset : dataOffset < 2 ^ 63) (hstateless : ¬ context.IsRc4)
    {before after : List SectorRequest} {request : SectorRequest}
    (hbefore : ∀ r ∈ before, r.InRange) (hrequest : request.InRange) :
    let state := stateAfter (sectorStep L file) (vector, some context) before
    (∀ data, (sectorStep L file request state).2 = some data →
      uncachedSector L 512 dataOffset file context request.offset = some data) ∧
    ((sectorStep L file request state).2 = none →
      answers (sectorStep L file) (sectorStep L file request state).1 after =
        answers (sectorStep L file) state after) := by
  have hrange : 0 ≤ dataOffset ∧ dataOffset < 2 ^ 63 := by
    unfold sectorDataVectorInitialize at hcreated
    split_ifs at hcreated
    omega
  have hadmitted : Admitted (sectorStep L file) (fun r _ => SectorRequest.InRange r)
      (vector, some context) before := admitted_of_forall hbefore
  have hinit : SectorInvariant L 512 dataOffset file context (vector, some context) :=
    ⟨FaithfulVector.of_new hcreated, rfl⟩
  have hinv : SectorInvariant L 512 dataOffset file context
      (stateAfter (sectorStep L file) (vector, some context) before) :=
    stateAfter_invariant (P := SectorInvariant L 512 dataOffset file context)
      (fun r s hr hs => (sectorStep_spec hstateless hrange hr hs).1) hinit hadmitted
  obtain ⟨-, hdata, hfail⟩ := sectorStep_spec hstateless hrange hrequest hinv
  exact ⟨hdata, fun hnone => by rw [hfail hnone]⟩

/-! ### A vector in AES-ECB -/

/-- AES decrypts a block of zero bytes under the key of zero bytes. -/
def zeroBlockAes : List ((KeySchedule × CryptMode × List UInt8) × List UInt8) :=
  [((⟨.decrypt, List.replicate 16 0⟩, .decrypt, List.replicate 16 0),
    toBigEndian 16 0x140f0f1011b5223d79587717ffd9ec3a)]

/-- A context for the key of zero bytes. -/
def zeroKeyContext : EncryptionContext :=
  { EncryptionContext.cleared with
    encryptionMode := .aesEcb
    initializationVectorMode := .none
    aesDecryptionContext := some (some ⟨.decrypt, List.replicate 16 0⟩) }

/-- Two sectors of zero bytes. -/
def zeroFile : FileIoHandle :=
  ⟨List.replicate 1024 0, true, by rw [List.length_replicate]; decide⟩

/-- The vector whose cache has the first sector behind the data offset. -/
def zeroState : SectorDataVector × Option EncryptionContext :=
  stateAfter (sectorStep (.ofTables zeroBlockAes [] []) zeroFile)
    (⟨512, 512, []⟩, some zeroKeyContext) [⟨{}, 0⟩]

/-- The first sector is asked for again while no read succeeds: the cache answers with the
plaintext, which is what reading and decrypting gives.  A request that the cache does not answer
fails, and is not noticed by the next one. -/
theorem sectorData_cache_transparent_aes_ecb :
    let L := Libraries.ofTables zeroBlockAes [] []
    let cached : SectorRequest := ⟨{ cacheEntry := some 0, readFails := true }, 0⟩
    let failed : SectorRequest := ⟨{ readFails := true }, 0⟩
    let plaintext := (List.replicate 32 (toBigEndian 16 0x140f0f1011b5223d79587717ffd9ec3a)).flatten
    ((sectorStep L zeroFile cached zeroState).2 = some plaintext ∧
      uncachedSector L 512 512 zeroFile zeroKeyContext 0 = some plaintext) ∧
    (sectorStep L zeroFile failed zeroState).2 = none ∧
      answers (sectorStep L zeroFile) (sectorStep L zeroFile failed zeroState).1 [cached] =
        answers (sectorStep L zeroFile) zeroState [cached] := by
  intro L cached failed plaintext
  have hcreated : sectorDataVectorInitialize false 512 512 = some ⟨512, 512, []⟩ := rfl
  have hbefore : ∀ r ∈ [(⟨{}, 0⟩ : SectorRequest)], r.InRange := by simp [SectorRequest.InRange]
  have hhit : (sectorStep L zeroFile cached zeroState).2 = some plaintext := by decide +kernel
  have hmiss : (sectorStep L zeroFile failed zeroState).2 = none := by decide +kernel
  have htransparent : ∀ request : SectorRequest, request.InRange →
      (∀ data, (sectorStep L zeroFile request zeroState).2 = some data →
        uncachedSector L 512 512 zeroFile zeroKeyContext request.offset = some data) ∧
      ((sectorStep L zeroFile request zeroState).2 = none →
        answers (sectorStep L zeroFile) (sectorStep L zeroFile request zeroState).1 [cached] =
          answers (sectorStep L zeroFile) zeroState [cached]) := fun request hrequest =>
    sectorData_cache_transparent hcreated (by norm_num) (by decide) hbefore hrequest
  obtain ⟨hdata, -⟩ := htransparent cached (by simp [cached, SectorRequest.InRange])
  obtain ⟨-, hfail⟩ := htransparent failed (by simp [failed, SectorRequest.InRange])
  exact ⟨⟨hhit, hdata _ hhit⟩, hmiss, hfail hmiss⟩

end Libluksde
