import Libluksde.ReadSpec
import Libluksde.CacheTransparency
import Libluksde.Lib.Stream

/-!
# What the read loop writes

The read loop asks for one sector after the other.  This file says, for any history of the
cache and any failures, what it has written when it ends: a prefix of a stream that is
determined by the file, the encryption context and the place where the loop begins.
-/

namespace Libluksde

open Lib.Bytes Lib.Stream Lib.Memo

variable {L : Libraries}

/-! ## Requests for sectors -/

/-- The sector at an offset, decrypted with the encryption context of the volume, if it has
one. -/
def plainSector (L : Libraries) (dataOffset : ℤ) (file : FileIoHandle)
    (context : Option EncryptionContext) (offset : ℤ) : Option (List UInt8) :=
  context.bind fun context => uncachedSector L 512 dataOffset file context offset

/-- The context is not one of RC4: a decryption does not depend on those before it. -/
def Stateless (context : Option EncryptionContext) : Prop := ∀ c, context = some c → ¬ c.IsRc4

/-- A vector whose cache holds sectors of the file only: none without an encryption context,
and where the context is one of RC4 only their size is known. -/
structure Serves (L : Libraries) (dataOffset : ℤ) (file : FileIoHandle)
    (vector : SectorDataVector) (context : Option EncryptionContext) : Prop where
  bytesPerSector : vector.bytesPerSector = 512
  dataOffset_eq : vector.dataOffset = dataOffset
  empty : context = none → vector.cache = []
  length : ∀ entry ∈ vector.cache, entry.2.length = 512
  cache : Stateless context → Faithful (plainSector L dataOffset file context) vector.cache

/-- A new vector serves any context. -/
theorem Serves.of_new {fails : Bool} {dataOffset : ℤ} {file : FileIoHandle}
    {context : Option EncryptionContext} {vector : SectorDataVector}
    (h : sectorDataVectorInitialize fails 512 dataOffset = some vector) :
    Serves L dataOffset file vector context := by
  unfold sectorDataVectorInitialize at h
  split_ifs at h
  cases h
  exact ⟨rfl, rfl, fun _ => rfl, by simp, fun _ => Faithful.nil _⟩

/-- Creating the encryption context: nothing was cached without one. -/
theorem Serves.of_none {dataOffset : ℤ} {file : FileIoHandle} {vector : SectorDataVector}
    (h : Serves L dataOffset file vector none) (context : Option EncryptionContext) :
    Serves L dataOffset file vector context := by
  refine ⟨h.bytesPerSector, h.dataOffset_eq, fun _ => h.empty rfl, h.length, fun _ => ?_⟩
  rw [h.empty rfl]
  exact Faithful.nil _

/-- What a request for a sector does to a vector that serves a context. -/
structure RequestServed (L : Libraries) (dataOffset : ℤ) (file : FileIoHandle)
    (context : Option EncryptionContext) (offset : ℤ)
    (result : Option (List UInt8) × SectorDataVector × Option EncryptionContext) : Prop where
  serves : Serves L dataOffset file result.2.1 result.2.2
  context_eq : Stateless context → result.2.2 = context
  length : ∀ data, result.1 = some data → data.length = 512
  data : Stateless context → ∀ data, result.1 = some data →
    plainSector L dataOffset file context offset = some data

/-- Without an encryption context every request fails. -/
theorem sectorDataVectorGetSectorDataAtOffset_none (env : SectorEnvironment)
    {vector : SectorDataVector} (file : Option FileIoHandle) (offset : ℤ)
    (hcache : vector.cache = []) :
    (sectorDataVectorGetSectorDataAtOffset L env vector file none offset).1 = none := by
  have hcached : vector.cached env.cacheEntry offset = none := by
    rw [SectorDataVector.cached, hcache]
    cases env.cacheEntry <;> rfl
  rw [sectorDataVectorGetSectorDataAtOffset, hcached]
  have hread : ∀ size o number,
      sectorDataReadFileIoHandle L env.readFails size file o none number = none := by
    intro size o number
    unfold sectorDataReadFileIoHandle
    split
    · rfl
    · split <;> rfl
  simp only [hread]
  split_ifs <;> rfl

/-- A read of a sector gives as many bytes as the sector has. -/
theorem sectorDataReadFileIoHandle_length {readFails : Bool} {size : ℕ}
    {file : Option FileIoHandle} {offset : ℤ} {c : Option EncryptionContext} {number : UInt64}
    {data : List UInt8} {c' : EncryptionContext}
    (h : sectorDataReadFileIoHandle L readFails size file offset c number = some (data, c')) :
    data.length = size := by
  unfold sectorDataReadFileIoHandle at h
  split at h
  · cases h
  · split_ifs at h with hlength
    obtain ⟨c₀, rfl, hcrypt⟩ := Option.bind_eq_some_iff.1 h
    rw [(encryptionContextCrypt_spec hcrypt).1, not_not.1 hlength]

/-- All data that is served and stored has the size of a sector. -/
theorem sectorDataVectorGetSectorDataAtOffset_length (env : SectorEnvironment)
    {vector : SectorDataVector} (file : Option FileIoHandle) (context : Option EncryptionContext)
    (offset : ℤ) (hsize : vector.bytesPerSector = 512)
    (hlength : ∀ entry ∈ vector.cache, entry.2.length = 512) :
    let result := sectorDataVectorGetSectorDataAtOffset L env vector file context offset
    (∀ data, result.1 = some data → data.length = 512) ∧
      ∀ entry ∈ result.2.1.cache, entry.2.length = 512 := by
  have hnone : (∀ data : List UInt8, none = some data → data.length = 512) ∧
      ∀ entry ∈ vector.cache, entry.2.length = 512 := ⟨fun data h => (by cases h), hlength⟩
  intro result
  simp only [result, sectorDataVectorGetSectorDataAtOffset]
  split
  · exact hnone
  · split
    · rename_i data hcached
      split
      · exact hnone
      · refine ⟨fun data' h => ?_, hlength⟩
        cases h
        unfold SectorDataVector.cached at hcached
        split at hcached
        · rename_i hentry
          obtain ⟨i, -, hi⟩ := Option.bind_eq_some_iff.1 hentry
          split_ifs at hcached
          cases hcached
          exact hlength _ (List.mem_of_getElem? hi)
        · cases hcached
    · split
      · exact hnone
      · split
        · exact hnone
        · rename_i data c' hread
          have hdata := sectorDataReadFileIoHandle_length hread
          rw [hsize] at hdata
          split
          · exact ⟨fun data h => (by cases h), hlength⟩
          · refine ⟨fun data' h => ?_, fun entry hentry => ?_⟩
            · cases h
              exact hdata
            · rcases List.mem_cons.1 hentry with rfl | hentry
              · exact hdata
              · exact hlength entry hentry

theorem Serves.request (env : SectorEnvironment) {dataOffset offset : ℤ} {file : FileIoHandle}
    {vector : SectorDataVector} {context : Option EncryptionContext}
    (h : Serves L dataOffset file vector context)
    (hdataOffset : 0 ≤ dataOffset ∧ dataOffset < 2 ^ 63) (hoffset : 0 ≤ offset ∧ offset < 2 ^ 63) :
    RequestServed L dataOffset file context offset
      (sectorDataVectorGetSectorDataAtOffset L env vector (some file) context offset) := by
  have hframe := sectorDataVectorGetSectorDataAtOffset_frame (L := L) env vector (some file)
    context offset
  obtain ⟨hlength, hlengths⟩ := sectorDataVectorGetSectorDataAtOffset_length (L := L) env
    (some file) context offset h.bytesPerSector h.length
  have hsize := hframe.bytesPerSector.trans h.bytesPerSector
  have hdata := hframe.dataOffset.trans h.dataOffset_eq
  cases context with
  | none =>
    have hfails := sectorDataVectorGetSectorDataAtOffset_none (L := L) env (some file) offset
      (h.empty rfl)
    have hcache := (hframe.cache rfl).trans (h.empty rfl)
    refine ⟨⟨hsize, hdata, fun _ => hcache, hlengths, fun _ => ?_⟩,
      fun _ => hframe.context.eq_none_iff.2 rfl, hlength, fun _ data hsome => ?_⟩
    · rw [hcache]
      exact Faithful.nil _
    · rw [hfails] at hsome
      cases hsome
  | some c =>
    have hempty : ∀ {c' : Option EncryptionContext}, ContextAfterReads (some c) c' →
        c' = none → False := fun hc hnone => absurd (hc.eq_none_iff.1 hnone) (by simp)
    by_cases hrc4 : c.IsRc4
    · -- of what is in the cache only the size is known
      have hnot : ¬ Stateless (some c) := fun hs => hs c rfl hrc4
      have hnot' : ∀ c', ContextAfterReads (some c) c' → ¬ Stateless c' := by
        intro c' hc hs
        cases c' with
        | none => exact hc.elim
        | some c' => exact hs c' rfl (hc.1.isRc4.2 hrc4)
      exact ⟨⟨hsize, hdata, fun hc => (hempty hframe.context hc).elim, hlengths,
        fun hs => (hnot' _ hframe.context hs).elim⟩, fun hs => (hnot hs).elim, hlength,
        fun hs => (hnot hs).elim⟩
    · have hstateless : Stateless (some c) := fun c' hc' => by
        cases hc'
        exact hrc4
      have hvector : FaithfulVector L 512 dataOffset file c vector :=
        ⟨h.bytesPerSector, h.dataOffset_eq, h.cache hstateless⟩
      have hresult := sectorDataVectorGetSectorDataAtOffset_spec env hvector hrc4 hdataOffset
        hoffset
      refine ⟨⟨hsize, hdata, fun hc => (hempty hframe.context hc).elim, hlengths,
        fun _ => ?_⟩, fun _ => hresult.context_eq, hlength, fun _ => hresult.data⟩
      rw [hresult.context_eq]
      exact hresult.faithful.cache

/-- A sector that is there has 512 bytes, and ends inside the file. -/
theorem plainSector_some {dataOffset offset : ℤ} {file : FileIoHandle}
    {context : Option EncryptionContext} {data : List UInt8}
    (h : plainSector L dataOffset file context offset = some data) :
    data.length = 512 ∧ 0 ≤ dataOffset + offset ∧
      dataOffset + offset + 512 ≤ file.image.length := by
  obtain ⟨c, -, hc⟩ := Option.bind_eq_some_iff.1 h
  unfold uncachedSector at hc
  split at hc
  · cases hc
  · rename_i encryptedData hread
    split at hc
    · rename_i hlength
      obtain ⟨⟨output, c'⟩, hcrypt, rfl⟩ := Option.map_eq_some_iff.1 hc
      refine ⟨by rw [(encryptionContextCrypt_spec hcrypt).1, hlength], ?_⟩
      unfold FileIoHandle.readBufferAtOffset at hread
      split_ifs at hread with hopen
      cases hread
      rw [length_slice] at hlength
      omega
    · cases hc

/-- Where nothing fails, a request gives every sector that is there. -/
theorem Serves.request_succeeds {dataOffset offset : ℤ} {file : FileIoHandle}
    {vector : SectorDataVector} {context : Option EncryptionContext}
    (h : Serves L dataOffset file vector context) (hoffset : 0 ≤ offset ∧ offset < 2 ^ 63)
    {data : List UInt8} (hdata : plainSector L dataOffset file context offset = some data) :
    (sectorDataVectorGetSectorDataAtOffset L {} vector (some file) context offset).1
      = some data := by
  obtain ⟨-, hl, hu⟩ := plainSector_some hdata
  have hfile := file.length_lt
  obtain ⟨c, rfl, hc⟩ := Option.bind_eq_some_iff.1 hdata
  have hwrap : off64 (dataOffset + offset) = dataOffset + offset :=
    off64_eq_self (by omega) (by omega)
  have hsector : size64 offset / 512 = offset.toNat / 512 := by
    congr 1
    unfold size64
    omega
  have hsize : ¬ (512 > memoryMaximumAllocationSize ∨ false = true) := by decide
  have hread : ∃ c', sectorDataReadFileIoHandle L false 512 (some file) (dataOffset + offset)
      (some c) (UInt64.ofNat (offset.toNat / 512)) = some (data, c') := by
    unfold uncachedSector at hc
    unfold sectorDataReadFileIoHandle readBufferAtOffset
    simp only [Bool.false_eq_true, if_false, Option.bind_some]
    cases hencrypted : file.readBufferAtOffset 512 (dataOffset + offset) with
    | none =>
      rw [hencrypted] at hc
      cases hc
    | some encryptedData =>
      rw [hencrypted] at hc
      simp only at hc ⊢
      split_ifs at hc with hlength
      obtain ⟨⟨output, c'⟩, hcrypt, rfl⟩ := Option.map_eq_some_iff.1 hc
      rw [if_neg (not_not.2 hlength), hcrypt]
      exact ⟨c', rfl⟩
  obtain ⟨c', hread⟩ := hread
  have hcached : vector.cached none offset = none := rfl
  unfold sectorDataVectorGetSectorDataAtOffset
  simp only [hcached, h.bytesPerSector, h.dataOffset_eq, hwrap, hsector, hread]
  rw [if_neg (by simp), if_neg hsize]
  rfl

/-! ## The loop -/

/-- The stream that the read loop copies from, beginning at the place `start` of a sector at
the offset `offset`: what is left of that sector, and then the units of 512 bytes at the
offsets behind what was read of it. -/
def readStream (sector : ℤ → Option (List UInt8)) (offset : ℤ) (start : ℕ) (i : ℕ) :
    Option UInt8 :=
  if i < 512 - start then (sector offset).bind fun data => data[start + i]?
  else blocks 512 (fun k => sector (offset + ((512 - start) + 512 * k : ℕ))) (i - (512 - start))

/-- The offset of the unit that is requested once `n` bytes are written. -/
theorem readStream_sector {sector : ℤ → Option (List UInt8)} {offset : ℤ} {start n k i : ℕ}
    {data : List UInt8} (hstart : start < 512) (hn : n + start = 512 * (k + 1))
    (hdata : sector (offset + n) = some data) (hi : i < 512) :
    readStream sector offset start (n + i) = data[i]? := by
  have hplace : n + i - (512 - start) = 512 * k + i := by omega
  have hunit : (512 - start) + 512 * k = n := by omega
  rw [readStream, if_neg (by omega), hplace]
  exact blocks_of_some (by rw [hunit]; exact hdata) hi

/-- A stream that is defined at the beginning of a unit is defined because the unit is. -/
theorem readStream_isSome {sector : ℤ → Option (List UInt8)} {offset : ℤ} {start n k : ℕ}
    (hstart : start < 512) (hn : n + start = 512 * (k + 1))
    (h : (readStream sector offset start n).isSome) : ∃ data, sector (offset + n) = some data := by
  rw [readStream, if_neg (by omega)] at h
  obtain ⟨data, hdata⟩ := isSome_of_blocks h
  have hunit : (512 - start) + 512 * ((n - (512 - start)) / 512) = n := by omega
  rw [hunit] at hdata
  exact ⟨data, hdata⟩

/-- What does not change during a read of `total` bytes from the place `start` of the sector at
`offset` on. -/
structure ReadPlace where
  dataOffset : ℤ
  file : FileIoHandle
  context : Option EncryptionContext
  offset : ℤ
  start : ℕ
  total : ℕ

/-- The offsets are in the range of their types. -/
structure ReadPlace.InRange (p : ReadPlace) : Prop where
  dataOffset : 0 ≤ p.dataOffset ∧ p.dataOffset < 2 ^ 63
  offset : 0 ≤ p.offset ∧ p.offset + p.total < 2 ^ 63
  start : p.start < 512

/-- The stream that is copied from. -/
def ReadPlace.stream (L : Libraries) (p : ReadPlace) : ℕ → Option UInt8 :=
  readStream (plainSector L p.dataOffset p.file p.context) p.offset p.start

/-- The variables of the read loop before round `k`. -/
structure LoopInvariant (L : Libraries) (p : ReadPlace) (k : ℕ) (s : ReadLoop) : Prop where
  serves : Serves L p.dataOffset p.file s.vector s.context
  context : Stateless p.context → s.context = p.context
  size : s.output.length + s.remainingBufferSize = p.total
  written : Stateless p.context → IsPrefix (p.stream L) s.output
  first : k = 0 → s.output = [] ∧ s.sectorFileOffset = p.offset ∧ s.sectorDataOffset = p.start
  later : k ≠ 0 → s.sectorFileOffset = p.offset + s.output.length ∧ s.sectorDataOffset = 0 ∧
    (s.remainingBufferSize = 0 ∨ s.output.length + p.start = 512 * k)

variable {p : ReadPlace} {k : ℕ} {s : ReadLoop}

/-- What is read in a round that is not the last. -/
theorem LoopInvariant.round (hp : p.InRange) (h : LoopInvariant L p k s)
    (hremaining : s.remainingBufferSize ≠ 0) :
    s.sectorFileOffset = p.offset + s.output.length ∧ s.sectorDataOffset < 512 ∧
      s.output.length + p.start = 512 * k + s.sectorDataOffset := by
  have hstart := hp.start
  by_cases hk : k = 0
  · obtain ⟨hout, hoff, hdata⟩ := h.first hk
    rw [hout, hoff, hdata]
    simp [hk, hstart]
  · obtain ⟨hoff, hdata, hplace⟩ := h.later hk
    have hplace := hplace.resolve_left hremaining
    rw [hoff, hdata]
    exact ⟨rfl, by omega, by omega⟩

/-- The data that is requested in a round is what the stream has next. -/
theorem LoopInvariant.stream_next (hp : p.InRange) (h : LoopInvariant L p k s)
    (hremaining : s.remainingBufferSize ≠ 0) {data : List UInt8}
    (hdata : plainSector L p.dataOffset p.file p.context s.sectorFileOffset = some data) {i : ℕ}
    (hi : s.sectorDataOffset + i < 512) :
    p.stream L (s.output.length + i) = data[s.sectorDataOffset + i]? := by
  obtain ⟨hoff, -, hplace⟩ := h.round hp hremaining
  by_cases hk : k = 0
  · obtain ⟨hout, hoff, hstart⟩ := h.first hk
    rw [hoff] at hdata
    rw [hstart] at hi ⊢
    rw [hout, List.length_nil, Nat.zero_add, ReadPlace.stream, readStream, if_pos (by omega), hdata,
      Option.bind_some]
  · obtain ⟨-, hzero, -⟩ := h.later hk
    rw [hoff] at hdata
    rw [hzero] at hi hplace ⊢
    rw [Nat.zero_add] at hi ⊢
    exact readStream_sector (k := k - 1) hp.start (by omega) hdata hi

/-- A round that gets the data of a sector. -/
theorem LoopInvariant.fill (hp : p.InRange) (h : LoopInvariant L p k s)
    (hremaining : s.remainingBufferSize ≠ 0) {data : List UInt8} {vector : SectorDataVector}
    {context : Option EncryptionContext} {abort : Bool}
    (hserves : Serves L p.dataOffset p.file vector context)
    (hcontext : Stateless p.context → context = p.context) (hlength : data.length = 512)
    (hdata : Stateless p.context →
      plainSector L p.dataOffset p.file p.context s.sectorFileOffset = some data) :
    LoopInvariant L p (k + 1) (s.fill (s.readSize 512) data vector context abort) := by
  obtain ⟨hoff, hlt, hplace⟩ := h.round hp hremaining
  have hsize := h.size
  have hoffset := hp.offset
  have hread : s.readSize 512 = min (512 - s.sectorDataOffset) s.remainingBufferSize := by
    simp only [ReadLoop.readSize]
    split <;> omega
  have hslice : (slice s.sectorDataOffset (s.readSize 512) data).length = s.readSize 512 :=
    length_slice_of_le (by omega)
  have hwrap : off64 (s.sectorFileOffset + s.readSize 512)
      = s.sectorFileOffset + s.readSize 512 := off64_eq_self (by omega) (by omega)
  refine ⟨hserves, hcontext, ?_, fun hstateless => ?_, fun hk => absurd hk (by omega), fun _ => ?_⟩
  · simp only [ReadLoop.fill, List.length_append, hslice]
    omega
  · refine (h.written hstateless).append fun i hi => ?_
    rw [hslice] at hi
    rw [h.stream_next hp hremaining (hdata hstateless) (by omega), getElem?_slice, if_pos hi]
  · simp only [ReadLoop.fill, List.length_append, hslice, hwrap]
    refine ⟨?_, trivial, ?_⟩
    · omega
    · omega

/-- What the read loop leaves when it ends, with an error or without. -/
theorem readLoop_spec {env : ReadEnvironment} {fuel : ℕ} {s' : ReadLoop} {ok : Bool}
    (hp : p.InRange) (h : LoopInvariant L p k s) (hfuel : s.remainingBufferSize ≤ fuel)
    (hend : readLoop L env (some p.file) 512 fuel k s = (s', ok)) :
    (∃ k', LoopInvariant L p k' s') ∧
      (ok = true → s.abort = false → s'.abort = false → s'.remainingBufferSize = 0) := by
  induction fuel generalizing k s with
  | zero =>
    cases hend
    exact ⟨⟨k, h⟩, fun _ _ _ => by omega⟩
  | succ fuel ih =>
    rw [readLoop] at hend
    by_cases hremaining : s.remainingBufferSize = 0
    · rw [if_pos (Or.inl hremaining)] at hend
      cases hend
      exact ⟨⟨k, h⟩, fun _ _ _ => hremaining⟩
    obtain ⟨hoff, hlt, hplace⟩ := h.round hp hremaining
    have hsize := h.size
    have hoffset := hp.offset
    have hread : 0 < s.readSize 512 := by
      simp only [ReadLoop.readSize]
      split <;> omega
    rw [if_neg (by omega)] at hend
    have hrange : 0 ≤ s.sectorFileOffset ∧ s.sectorFileOffset < 2 ^ 63 := by omega
    have hrequest := h.serves.request (env.sector k) hp.dataOffset hrange
    generalize sectorDataVectorGetSectorDataAtOffset L (env.sector k) s.vector (some p.file)
      s.context s.sectorFileOffset = r at hend hrequest
    obtain ⟨data, vector, context⟩ := r
    have hcontext : Stateless p.context → context = p.context := fun hs =>
      (hrequest.context_eq (by rwa [h.context hs])).trans (h.context hs)
    cases data with
    | none =>
      cases hend
      exact ⟨⟨k, hrequest.serves, hcontext, h.size, h.written, h.first, h.later⟩,
        fun hok => (by cases hok)⟩
    | some data =>
      have hfilled : LoopInvariant L p (k + 1)
          (s.fill (s.readSize 512) data vector context (env.abort k)) :=
        h.fill hp hremaining hrequest.serves hcontext (hrequest.length data rfl) fun hs => by
          have hdata := hrequest.data (by rwa [h.context hs]) data rfl
          rwa [h.context hs] at hdata
      simp only at hend
      by_cases habort : env.abort k = true
      · rw [if_pos (by exact habort)] at hend
        cases hend
        exact ⟨⟨k + 1, hfilled⟩, fun _ _ hno => absurd (hno.symm.trans habort) (by simp)⟩
      · rw [if_neg (by exact habort)] at hend
        obtain ⟨hinv, hdone⟩ := ih hfilled
          (show s.remainingBufferSize - s.readSize 512 ≤ fuel by omega) hend
        exact ⟨hinv, fun hok _ => hdone hok (by simpa [ReadLoop.fill] using habort)⟩

/-- Where nothing fails and the abort comes in round `last`, the loop gets beyond the place
`i` of the buffer in that round, if the stream is defined up to there. -/
theorem readLoop_reaches {fuel i last : ℕ} (hp : p.InRange) (hstateless : Stateless p.context)
    (h : LoopInvariant L p k s) (hfuel : s.remainingBufferSize ≤ fuel) (hi : i < p.total)
    (hlast : last = (i + p.start) / 512) (hk : k ≤ last)
    (hdefined : ∀ j ≤ i, (p.stream L j).isSome) :
    ∃ s', readLoop L ⟨fun _ => {}, fun k => k = last⟩ (some p.file) 512 fuel k s = (s', true) ∧
      i < s'.output.length := by
  induction fuel generalizing k s with
  | zero => exact ⟨s, rfl, by have := h.size; omega⟩
  | succ fuel ih =>
    have hsize := h.size
    rw [readLoop]
    by_cases hremaining : s.remainingBufferSize = 0
    · rw [if_pos (Or.inl hremaining)]
      exact ⟨s, rfl, by omega⟩
    obtain ⟨hoff, hlt, hplace⟩ := h.round hp hremaining
    have hoffset := hp.offset
    have hread : 0 < s.readSize 512 := by
      simp only [ReadLoop.readSize]
      split <;> omega
    rw [if_neg (by omega)]
    -- the next unit is defined, since the stream is
    have hnext : ∃ data, plainSector L p.dataOffset p.file p.context s.sectorFileOffset
        = some data := by
      have hstart := hp.start
      by_cases hzero : k = 0
      · obtain ⟨hout, hoff, -⟩ := h.first hzero
        have hsome := hdefined 0 (by omega)
        rw [ReadPlace.stream, readStream, if_pos (by omega)] at hsome
        obtain ⟨a, ha⟩ := Option.isSome_iff_exists.1 hsome
        obtain ⟨data, hdata, -⟩ := Option.bind_eq_some_iff.1 ha
        exact ⟨data, by rw [hoff]; exact hdata⟩
      · obtain ⟨-, hdata, -⟩ := h.later hzero
        rw [hoff]
        exact readStream_isSome (k := k - 1) hstart (by omega) (hdefined _ (by omega))
    obtain ⟨data, hdata⟩ := hnext
    have hrange : 0 ≤ s.sectorFileOffset ∧ s.sectorFileOffset < 2 ^ 63 := by omega
    have hrequest := h.serves.request {} hp.dataOffset hrange
    have hgot := h.serves.request_succeeds hrange (by rw [h.context hstateless]; exact hdata)
    generalize sectorDataVectorGetSectorDataAtOffset L {} s.vector (some p.file) s.context
      s.sectorFileOffset = r at hrequest hgot
    obtain ⟨data', vector, context⟩ := r
    cases hgot
    have hcontext : context = p.context :=
      (hrequest.context_eq (by rwa [h.context hstateless])).trans (h.context hstateless)
    have hfilled : LoopInvariant L p (k + 1)
        (s.fill (s.readSize 512) data vector context (decide (k = last))) :=
      h.fill hp hremaining hrequest.serves (fun _ => hcontext) (hrequest.length data rfl)
        fun _ => hdata
    simp only
    by_cases habort : k = last
    · refine ⟨_, if_pos (by simpa [ReadLoop.fill] using habort), ?_⟩
      obtain ⟨-, -, hdone⟩ := hfilled.later (by omega)
      have hsize' := hfilled.size
      omega
    · rw [if_neg (by simpa [ReadLoop.fill] using habort)]
      exact ih hfilled (show s.remainingBufferSize - s.readSize 512 ≤ fuel by omega) (by omega)

/-! ## A read -/

/-- What a read relies on: the place of the data, and a vector that serves the encryption
context. -/
structure Readable (L : Libraries) (v : Volume) (file : FileIoHandle) : Prop where
  bytesPerSector : v.ioHandle.bytesPerSector = 512
  currentOffset : 0 ≤ v.currentOffset ∧ v.currentOffset < 2 ^ 63
  dataOffset : 0 ≤ v.ioHandle.encryptedVolumeOffset ∧ v.ioHandle.encryptedVolumeOffset < 2 ^ 63
  size : v.ioHandle.encryptedVolumeSize < 2 ^ 63
  vector : ∃ vector, v.sectorDataVector = some vector ∧
    Serves L v.ioHandle.encryptedVolumeOffset file vector v.encryptionContext

/-- The bytes that are left of the volume for a read of `size` bytes at an offset. -/
def Volume.available (v : Volume) (offset : ℤ) (size : ℕ) : ℕ :=
  min size (v.ioHandle.encryptedVolumeSize - offset.toNat)

/-- The place of a read. -/
def Volume.readPlace (v : Volume) (file : FileIoHandle) (offset : ℤ) (size : ℕ) : ReadPlace where
  dataOffset := v.ioHandle.encryptedVolumeOffset
  file := file
  context := v.encryptionContext
  offset := offset / 512 * 512
  start := (offset % 512).toNat
  total := v.available offset size

/-- The outcomes of a read: -1 and the offset as before, or a count of bytes by which the offset
advances, which are a prefix of the stream at the offset. -/
inductive ReadOutcome (L : Libraries) (v : Volume) (file : FileIoHandle) (size : ℕ)
    (v' : Volume) : ReadResult → Prop
  | failed (hoffset : v'.currentOffset = v.currentOffset) : ReadOutcome L v file size v' .failed
  | read {data : List UInt8} (hoffset : v'.currentOffset = v.currentOffset + data.length)
      (hle : data.length ≤ v.available v.currentOffset size)
      (hall : v'.ioHandle.abort = false → data.length = v.available v.currentOffset size)
      (hdata : Stateless v.encryptionContext →
        IsPrefix ((v.readPlace file v.currentOffset size).stream L) data) :
      ReadOutcome L v file size v' ⟨data.length, data⟩

/-- A read that does not fail counts the bytes it returns. -/
theorem ReadOutcome.count_eq {v v' : Volume} {file : FileIoHandle} {size : ℕ} {result : ReadResult}
    (h : ReadOutcome L v file size v' result) (hcount : 0 ≤ result.count) :
    result.count = result.data.length := by
  cases h with
  | failed => exact absurd hcount (by decide)
  | read => rfl

theorem Volume.size64_currentOffset {v : Volume}
    (h : 0 ≤ v.currentOffset ∧ v.currentOffset < 2 ^ 63) :
    size64 v.currentOffset = v.currentOffset.toNat := by
  unfold size64
  omega

/-- The place of a read that is not at the end. -/
theorem Readable.readPlace_inRange {v : Volume} {file : FileIoHandle} (h : Readable L v file)
    (size : ℕ) (hend : v.currentOffset.toNat < v.ioHandle.encryptedVolumeSize) :
    (v.readPlace file v.currentOffset size).InRange := by
  have hoffset := h.currentOffset
  have hsize := h.size
  refine ⟨h.dataOffset, ⟨?_, ?_⟩, ?_⟩
  · simp only [Volume.readPlace]
    omega
  · simp only [Volume.readPlace, Volume.available]
    omega
  · simp only [Volume.readPlace]
    omega

/-- The variables at the beginning of the loop satisfy its invariant. -/
theorem Readable.loopInvariant {v : Volume} {file : FileIoHandle} (h : Readable L v file)
    {vector : SectorDataVector} (hvector : v.sectorDataVector = some vector) (size : ℕ) :
    LoopInvariant L (v.readPlace file v.currentOffset size) 0
      (readLoopStart v vector (v.available v.currentOffset size)) := by
  obtain ⟨vector', hvector', hserves⟩ := h.vector
  rw [hvector] at hvector'
  cases hvector'
  refine ⟨hserves, fun _ => rfl, by simp [readLoopStart, Volume.readPlace],
    fun _ => IsPrefix.nil _, fun _ => ⟨rfl, ?_, ?_⟩, fun h => absurd rfl h⟩
  · simp only [readLoopStart, Volume.readPlace, h.bytesPerSector]
    rfl
  · simp only [readLoopStart, Volume.readPlace, h.bytesPerSector]
    have hoffset := h.currentOffset
    omega

theorem Readable.clampedSize_eq {v : Volume} {file : FileIoHandle} (h : Readable L v file)
    (size : ℕ) : v.clampedSize size = v.available v.currentOffset size := by
  simp only [Volume.clampedSize, Volume.available, v.size64_currentOffset h.currentOffset]
  split <;> omega

/-- What a read behind the checks does to a volume that is ready for it. -/
theorem Readable.readFromVector {v : Volume} {file : FileIoHandle} (h : Readable L v file)
    (env : ReadEnvironment) {vector : SectorDataVector}
    (hvector : v.sectorDataVector = some vector) (size : ℕ) :
    ReadOutcome L v file size (readFromVector L env v vector (some file) size).1
        (readFromVector L env v vector (some file) size).2 ∧
      Readable L (readFromVector L env v vector (some file) size).1 file := by
  have hoffset := h.currentOffset
  have hsize := h.size
  have hsize64 := v.size64_currentOffset hoffset
  rw [Libluksde.readFromVector]
  by_cases hend : size64 v.currentOffset ≥ v.ioHandle.encryptedVolumeSize
  · rw [if_pos hend]
    have hnone : v.available v.currentOffset size = 0 := by
      unfold Volume.available
      omega
    exact ⟨show ReadOutcome L v file size v ⟨([] : List UInt8).length, []⟩ from
      .read (by simp) (by simp) (fun _ => by rw [hnone]; rfl) (fun _ => IsPrefix.nil _), h⟩
  rw [if_neg hend]
  simp only [h.bytesPerSector, h.clampedSize_eq]
  have hp := h.readPlace_inRange size (by omega)
  have hstart := h.loopInvariant hvector size
  cases hloop : readLoop L env (some file) 512 (v.available v.currentOffset size) 0
    (readLoopStart v vector (v.available v.currentOffset size)) with
  | mk s ok =>
    obtain ⟨⟨k, hinv⟩, hdone⟩ := readLoop_spec hp hstart (Nat.le_refl _) hloop
    have hlength : s.output.length + s.remainingBufferSize = v.available v.currentOffset size :=
      hinv.size
    have hle : v.available v.currentOffset size
        ≤ v.ioHandle.encryptedVolumeSize - v.currentOffset.toNat := Nat.min_le_right _ _
    cases ok with
    | false => exact ⟨.failed rfl, ⟨h.1, h.2, h.3, h.4, s.vector, rfl, hinv.serves⟩⟩
    | true =>
      have hwrap : off64 (v.currentOffset + s.output.length) = v.currentOffset + s.output.length :=
        off64_eq_self (by omega) (by omega)
      refine ⟨.read (by exact hwrap) (by omega) (fun habort => ?_) (fun hs => hinv.written hs),
        ⟨h.1, ?_, h.3, h.4, s.vector, rfl, hinv.serves⟩⟩
      · have hzero := hdone rfl rfl habort
        omega
      · simp only [hwrap]
        omega

/-- What a read does to a volume that is ready for it. -/
theorem Readable.read {v : Volume} {file : FileIoHandle} (h : Readable L v file)
    (env : ReadEnvironment) (size : ℕ) :
    ReadOutcome L v file size
        (internalVolumeReadBufferFromFileIoHandle L env v (some file) size).1
        (internalVolumeReadBufferFromFileIoHandle L env v (some file) size).2 ∧
      Readable L (internalVolumeReadBufferFromFileIoHandle L env v (some file) size).1 file := by
  unfold internalVolumeReadBufferFromFileIoHandle
  split
  · exact ⟨.failed rfl, h⟩
  split
  · exact ⟨.failed rfl, h⟩
  rename_i vector hvector
  split
  · exact ⟨.failed rfl, h⟩
  split
  · exact ⟨.failed rfl, h⟩
  have hreadable : Readable L { v with ioHandle := { v.ioHandle with abort := false } } file :=
    ⟨h.1, h.2, h.3, h.4, h.5⟩
  obtain ⟨houtcome, hafter⟩ := hreadable.readFromVector env hvector size
  refine ⟨?_, hafter⟩
  -- the abort flag is no part of the place
  generalize Libluksde.readFromVector L env _ vector (some file) size = r at houtcome
  obtain ⟨v', result⟩ := r
  cases houtcome with
  | failed hoffset => exact .failed hoffset
  | read hoffset hle hall hdata => exact .read hoffset hle hall hdata

end Libluksde
