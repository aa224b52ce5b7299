import Libluksde.SectorDecryption
import Libluksde.ReadContent

/-!
# How much a read returns

A read on which nothing fails returns all that was asked for, up to the end of the volume, when the
units that it requests end inside the file.  The last of these units is the one that decides: it
ends behind the data that is asked for, and can end behind the file.
-/

namespace Libluksde

open Lib.Bytes Lib.Stream

variable {L : Libraries}

/-! ## Surroundings in which nothing fails -/

/-- No call on the way of a request fails; the cache may hold any entry. -/
structure SectorEnvironment.Reliable (env : SectorEnvironment) : Prop where
  cacheFails : env.cacheFails = false
  valueFails : env.valueFails = false
  allocationFails : env.allocationFails = false
  readFails : env.readFails = false
  storeFails : env.storeFails = false

/-- No call on the way of a read fails, and no other thread signals an abort. -/
structure ReadEnvironment.Reliable (env : ReadEnvironment) : Prop where
  sector : ∀ k, (env.sector k).Reliable
  abort : ∀ k, env.abort k = false

theorem ReadEnvironment.reliable_default : ({} : ReadEnvironment).Reliable :=
  ⟨fun _ => ⟨rfl, rfl, rfl, rfl, rfl⟩, fun _ => rfl⟩

/-! ## Requests -/

/-- A request for a sector inside the file succeeds, with a context that decrypts it. -/
theorem Serves.request_reliable {dataOffset offset : ℤ} {file : FileIoHandle}
    {vector : SectorDataVector} {c : EncryptionContext}
    (h : Serves L dataOffset file vector (some c)) {env : SectorEnvironment} (henv : env.Reliable)
    (hopen : file.isOpen = true) (hoffset : 0 ≤ dataOffset ∧ 0 ≤ offset)
    (hfits : dataOffset + offset + 512 ≤ file.image.length)
    (hcrypt : ∀ input sectorNumber, input.length = 512 → ∃ output c',
      encryptionContextCrypt L c .decrypt input 512 sectorNumber = some (output, c')) :
    ∃ data vector' c',
      sectorDataVectorGetSectorDataAtOffset L env vector (some file) (some c) offset =
        (some data, vector', some c') ∧ (c' = c ∨ Decrypts L c c') := by
  have hfile := file.length_lt
  have hwrap : off64 (dataOffset + offset) = dataOffset + offset :=
    off64_eq_self (by omega) (by omega)
  have hsize : ¬ (512 > memoryMaximumAllocationSize ∨ env.allocationFails = true) := by
    rw [henv.allocationFails]
    decide
  have hread : readBufferAtOffset env.readFails (some file) 512 (dataOffset + offset) =
      some (slice (dataOffset + offset).toNat 512 file.image) := by
    rw [readBufferAtOffset, henv.readFails, if_neg Bool.false_ne_true, Option.bind_some,
      FileIoHandle.readBufferAtOffset, if_pos ⟨hopen, by omega⟩]
  have hlength : (slice (dataOffset + offset).toNat 512 file.image).length = 512 :=
    length_slice_of_le (by omega)
  obtain ⟨output, c', houtput⟩ := hcrypt _
    (UInt64.ofNat (size64 offset / vector.bytesPerSector)) hlength
  rw [sectorDataVectorGetSectorDataAtOffset, if_neg (by simp [henv.cacheFails])]
  cases vector.cached env.cacheEntry offset with
  | some data =>
    simp only [henv.valueFails]
    exact ⟨data, vector, c, rfl, Or.inl rfl⟩
  | none =>
    simp only
    rw [h.bytesPerSector, h.dataOffset_eq, hwrap, if_neg hsize]
    rw [h.bytesPerSector] at houtput
    simp only [sectorDataReadFileIoHandle, hread, hlength, Option.bind_some, houtput,
      henv.storeFails]
    exact ⟨output, _, c', rfl, Or.inr ⟨_, _, _, _, houtput⟩⟩

/-- A request that succeeds without the cache was for a sector inside the file, with a context in a
supported initialization vector mode. -/
theorem Serves.request_inside {dataOffset offset : ℤ} {file : FileIoHandle}
    {vector : SectorDataVector} {context : Option EncryptionContext}
    (h : Serves L dataOffset file vector context)
    (hdataOffset : 0 ≤ dataOffset ∧ dataOffset < 2 ^ 63) (hoffset : 0 ≤ offset ∧ offset < 2 ^ 63)
    (data : List UInt8)
    (hdata : (sectorDataVectorGetSectorDataAtOffset L {} vector (some file) context offset).1
      = some data) :
    dataOffset + offset + 512 ≤ file.image.length ∧
      ∃ c, context = some c ∧ c.initializationVectorMode.IsSupported := by
  have hsize : ¬ (512 > memoryMaximumAllocationSize ∨ false = true) := by decide
  have hcached : vector.cached none offset = none := rfl
  rw [sectorDataVectorGetSectorDataAtOffset, if_neg Bool.false_ne_true, hcached] at hdata
  simp only at hdata
  rw [h.bytesPerSector, h.dataOffset_eq, if_neg hsize] at hdata
  cases hread : sectorDataReadFileIoHandle L false 512 (some file) (off64 (dataOffset + offset))
      context (UInt64.ofNat (size64 offset / 512)) with
  | none =>
    rw [hread] at hdata
    cases hdata
  | some r =>
    rw [sectorDataReadFileIoHandle, readBufferAtOffset, if_neg Bool.false_ne_true, Option.bind_some,
      FileIoHandle.readBufferAtOffset] at hread
    split at hread
    · cases hread
    · rename_i encryptedData hencrypted
      split_ifs at hread hencrypted with hlength hplace
      obtain ⟨c, rfl, hcrypt⟩ := Option.bind_eq_some_iff.1 hread
      -- an offset that wraps around is negative
      have hwrap : off64 (dataOffset + offset) = dataOffset + offset := by
        have hpositive := hplace.2
        unfold off64 at hpositive ⊢
        rw [Int.bmod_def] at hpositive ⊢
        split at hpositive <;> omega
      rw [hwrap, Option.some.injEq] at hencrypted
      rw [← hencrypted, not_not, length_slice] at hlength
      exact ⟨by omega, c, rfl, isSupported_of_crypt hcrypt⟩

/-! ## The read loop -/

/-- The offset of the last unit that a read requests. -/
def ReadPlace.lastUnit (p : ReadPlace) : ℤ :=
  if p.start + p.total ≤ 512 then p.offset
  else p.offset + ((512 * ((p.start + p.total - 1) / 512) : ℕ) : ℤ) - p.start

/-- The units of a read end inside the file. -/
def ReadPlace.Fits (p : ReadPlace) : Prop :=
  p.dataOffset + p.lastUnit + 512 ≤ p.file.image.length

variable {p : ReadPlace} {k : ℕ} {s : ReadLoop}

/-- The units come one behind the other up to the last one. -/
theorem LoopInvariant.offset_le (hp : p.InRange) (h : LoopInvariant L p k s)
    (hremaining : s.remainingBufferSize ≠ 0) :
    s.sectorFileOffset ≤ p.lastUnit ∧
      (s.remainingBufferSize ≤ 512 - s.sectorDataOffset → s.sectorFileOffset = p.lastUnit) := by
  obtain ⟨hoff, hlt, hplace⟩ := h.round hp hremaining
  have hsize := h.size
  have hstart := hp.start
  rw [ReadPlace.lastUnit, hoff]
  by_cases hk : k = 0
  · obtain ⟨hout, -, hdata⟩ := h.first hk
    rw [hout, List.length_nil] at hsize ⊢
    rw [hdata]
    split <;> omega
  · obtain ⟨-, hzero, -⟩ := h.later hk
    rw [hzero] at hplace ⊢
    split <;> omega

/-- Where nothing fails the loop fills the buffer, if the units end inside the file. -/
theorem readLoop_complete (hp : p.InRange) (hopen : p.file.isOpen = true) (hfits : p.Fits)
    {env : ReadEnvironment} (henv : env.Reliable) {P : EncryptionContext → Prop}
    (hcrypt : ∀ c, P c → ∀ input sectorNumber, input.length = 512 → ∃ output c',
      encryptionContextCrypt L c .decrypt input 512 sectorNumber = some (output, c'))
    (hclosed : ∀ c c', P c → Decrypts L c c' → P c') (fuel : ℕ) (h : LoopInvariant L p k s)
    (hcontext : ∃ c, s.context = some c ∧ P c) (habort : s.abort = false) :
    ∃ s', readLoop L env (some p.file) 512 fuel k s = (s', true) ∧ s'.abort = false := by
  induction fuel generalizing k s with
  | zero => exact ⟨s, rfl, habort⟩
  | succ fuel ih =>
    rw [readLoop]
    by_cases hdone : s.remainingBufferSize = 0 ∨ s.readSize 512 = 0
    · exact ⟨s, if_pos hdone, habort⟩
    rw [if_neg hdone]
    have hremaining : s.remainingBufferSize ≠ 0 := fun hzero => hdone (Or.inl hzero)
    obtain ⟨hoff, hlt, hplace⟩ := h.round hp hremaining
    have hle := (h.offset_le hp hremaining).1
    have hoffset := hp.offset
    have hdataOffset := hp.dataOffset
    have hsize := h.size
    unfold ReadPlace.Fits at hfits
    obtain ⟨c, hc, hPc⟩ := hcontext
    have hserves := h.serves
    rw [hc] at hserves
    obtain ⟨data, vector, c', hget, hc'⟩ := hserves.request_reliable (henv.sector k) hopen
      ⟨hdataOffset.1, (by omega : 0 ≤ s.sectorFileOffset)⟩ (by omega) (hcrypt c hPc)
    have hrequest := h.serves.request (env.sector k) hdataOffset
      (show 0 ≤ s.sectorFileOffset ∧ s.sectorFileOffset < 2 ^ 63 by omega)
    rw [hc, hget] at hrequest
    rw [hc, hget]
    have hfilled : LoopInvariant L p (k + 1)
        (s.fill (s.readSize 512) data vector (some c') (env.abort k)) := by
      have hs : Stateless p.context → s.context = p.context := h.context
      refine h.fill hp hremaining hrequest.serves (fun hstateless => ?_)
        (hrequest.length data rfl) fun hstateless => ?_
      · have heq := hs hstateless
        rw [hc] at heq
        exact (hrequest.context_eq (by rwa [heq])).trans heq
      · have heq := hs hstateless
        rw [hc] at heq
        have hdata := hrequest.data (by rwa [heq]) data rfl
        rwa [heq] at hdata
    have hnext : (s.fill (s.readSize 512) data vector (some c') (env.abort k)).abort = false :=
      henv.abort k
    simp only [hnext]
    rw [if_neg Bool.false_ne_true]
    refine ih hfilled ⟨c', rfl, ?_⟩ hnext
    obtain rfl | hd := hc'
    · exact hPc
    · exact hclosed c c' hPc hd

/-- A loop that ends well without the cache has requested units inside the file, with a context in a
supported initialization vector mode. -/
theorem readLoop_inside (hp : p.InRange) {fuel : ℕ} {s' : ReadLoop} (h : LoopInvariant L p k s)
    (hremaining : s.remainingBufferSize ≠ 0) (hfuel : s.remainingBufferSize ≤ fuel)
    (hend : readLoop L {} (some p.file) 512 fuel k s = (s', true)) :
    p.Fits ∧ ∃ c, s.context = some c ∧ c.initializationVectorMode.IsSupported := by
  induction fuel generalizing k s with
  | zero => omega
  | succ fuel ih =>
    obtain ⟨hoff, hlt, hplace⟩ := h.round hp hremaining
    have hoffset := hp.offset
    have hsize := h.size
    have hread : s.readSize 512 = min (512 - s.sectorDataOffset) s.remainingBufferSize := by
      simp only [ReadLoop.readSize]
      split <;> omega
    rw [readLoop, if_neg (by omega)] at hend
    have hrange : 0 ≤ s.sectorFileOffset ∧ s.sectorFileOffset < 2 ^ 63 := by omega
    have hrequest := h.serves.request {} hp.dataOffset hrange
    have hinside := h.serves.request_inside hp.dataOffset hrange
    generalize sectorDataVectorGetSectorDataAtOffset L {} s.vector (some p.file) s.context
      s.sectorFileOffset = r at hend hrequest hinside
    obtain ⟨data, vector, context⟩ := r
    cases data with
    | none => cases hend
    | some data =>
      obtain ⟨hunit, hsupported⟩ := hinside data rfl
      refine ⟨?_, hsupported⟩
      by_cases hlast : s.remainingBufferSize ≤ 512 - s.sectorDataOffset
      · -- this unit is the last one
        unfold ReadPlace.Fits
        rw [← (h.offset_le hp hremaining).2 hlast]
        exact hunit
      · have hcontext : Stateless p.context → context = p.context := fun hs =>
          (hrequest.context_eq (by rwa [h.context hs])).trans (h.context hs)
        have hfilled : LoopInvariant L p (k + 1)
            (s.fill (s.readSize 512) data vector context false) :=
          h.fill hp hremaining hrequest.serves hcontext (hrequest.length data rfl) fun hs => by
            have hplain := hrequest.data (by rwa [h.context hs]) data rfl
            rwa [h.context hs] at hplain
        have hmore : (s.fill (s.readSize 512) data vector context false).remainingBufferSize
            = s.remainingBufferSize - s.readSize 512 := rfl
        simp only at hend
        rw [if_neg (by exact Bool.false_ne_true)] at hend
        exact (ih hfilled (by omega) (by omega) hend).1

/-! ## A read of a volume -/

/-- The units of a read of a volume of whole sectors fit. -/
theorem ReadPlace.fits_of_dvd (size : ℕ) (hplace : p.dataOffset + size = p.file.image.length)
    (hwhole : 512 ∣ size) (haligned : 512 ∣ p.offset) (hoffset : p.offset < size)
    (hend : p.offset + p.start + p.total ≤ size) : p.Fits := by
  unfold ReadPlace.Fits ReadPlace.lastUnit
  by_cases hfirst : p.start + p.total ≤ 512
  · rw [if_pos hfirst]
    omega
  · rw [if_neg hfirst]
    omega

/-- What a read of `n` bytes at `o` needs to return all that it is asked for: the number is one
that can be returned, the sectors can be decrypted, and the units end inside the file. -/
structure Volume.ReadsAll (v : Volume) (file : FileIoHandle) (o n : ℕ) : Prop where
  size : n ≤ ssizeMax
  context : ∃ c, v.encryptionContext = some c ∧ c.initializationVectorMode.IsSupported
  fits : (v.readPlace file o n).Fits

/-- A read fills the buffer when its loop does. -/
theorem Readable.readFromVector_count_iff {v : Volume} {file : FileIoHandle}
    (h : Readable L v file) {vector : SectorDataVector}
    (hend : v.currentOffset.toNat < v.ioHandle.encryptedVolumeSize) (size : ℕ)
    (env : ReadEnvironment) :
    (Libluksde.readFromVector L env v vector (some file) size).2.count =
        (v.available v.currentOffset size : ℕ) ↔
      ∃ s, readLoop L env (some file) 512 (v.available v.currentOffset size) 0
          (readLoopStart v vector (v.available v.currentOffset size)) = (s, true) ∧
        s.output.length = v.available v.currentOffset size := by
  have hnotEnd : ¬ size64 v.currentOffset ≥ v.ioHandle.encryptedVolumeSize := by
    rw [v.size64_currentOffset h.currentOffset]
    exact Nat.not_le.2 hend
  rw [Libluksde.readFromVector, if_neg hnotEnd]
  simp only [h.bytesPerSector, h.clampedSize_eq]
  rcases readLoop L env (some file) 512 (v.available v.currentOffset size) 0
    (readLoopStart v vector (v.available v.currentOffset size)) with ⟨s, ok⟩
  cases ok with
  | false =>
    constructor
    · intro hcount
      simp only [ReadResult.failed] at hcount
      omega
    · rintro ⟨s', hs', -⟩
      cases hs'
  | true =>
    constructor
    · intro hcount
      exact ⟨s, rfl, Int.ofNat_inj.1 hcount⟩
    · rintro ⟨s', hs', hlength⟩
      cases hs'
      exact congrArg Nat.cast hlength

theorem Readable.read_count_iff {v : Volume} {file : FileIoHandle} (h : Readable L v file)
    (hlocked : v.isLocked = false) {vector : SectorDataVector}
    (hvector : v.sectorDataVector = some vector)
    (hend : v.currentOffset.toNat < v.ioHandle.encryptedVolumeSize) {size : ℕ}
    (hsize : size ≤ ssizeMax) (env : ReadEnvironment) :
    (internalVolumeReadBufferFromFileIoHandle L env v (some file) size).2.count =
        (v.available v.currentOffset size : ℕ) ↔
      ∃ s, readLoop L env (some file) 512 (v.available v.currentOffset size) 0
          (readLoopStart v vector (v.available v.currentOffset size)) = (s, true) ∧
        s.output.length = v.available v.currentOffset size := by
  have h₀ : Readable L { v with ioHandle := { v.ioHandle with abort := false } } file :=
    ⟨h.1, h.2, h.3, h.4, h.5⟩
  rw [internalVolumeReadBufferFromFileIoHandle_eq env hlocked hvector h.currentOffset.1 hsize]
  exact h₀.readFromVector_count_iff hend size env

/-- A read of an unlocked volume returns all that it is asked for whenever nothing fails, exactly
when it can. -/
theorem Readable.read_complete_iff {v : Volume} {file : FileIoHandle} (h : Readable L v file)
    (hopen : file.isOpen = true) (hlocked : v.isLocked = false) {P : EncryptionContext → Prop}
    (hcontext : ∀ c, v.encryptionContext = some c → c.initializationVectorMode.IsSupported → P c)
    (hcrypt : ∀ c, P c → ∀ input sectorNumber, input.length = 512 → ∃ output c',
      encryptionContextCrypt L c .decrypt input 512 sectorNumber = some (output, c'))
    (hclosed : ∀ c c', P c → Decrypts L c c' → P c') {o n : ℕ} (ho : v.currentOffset = o)
    (hend : o < v.ioHandle.encryptedVolumeSize) (hn : 0 < n) :
    (∀ env : ReadEnvironment, env.Reliable →
        (internalVolumeReadBufferFromFileIoHandle L env v (some file) n).2.count =
          (min n (v.ioHandle.encryptedVolumeSize - o) : ℕ)) ↔ v.ReadsAll file o n := by
  obtain ⟨vector, hvector, -⟩ := h.vector
  have hbegin : v.currentOffset.toNat < v.ioHandle.encryptedVolumeSize := by omega
  have havailable : v.available v.currentOffset n = min n (v.ioHandle.encryptedVolumeSize - o) := by
    rw [Volume.available, ho, Int.toNat_natCast]
  have hp := h.readPlace_inRange n hbegin
  have hstart := h.loopInvariant hvector n
  have hplace : v.readPlace file v.currentOffset n = v.readPlace file o n := by rw [ho]
  rw [← havailable]
  constructor
  · intro hall
    have hsize : n ≤ ssizeMax := by
      by_contra hlarge
      have hcount := hall {} ReadEnvironment.reliable_default
      rw [internalVolumeReadBufferFromFileIoHandle_large _ _ _ (by omega)] at hcount
      simp only [ReadResult.failed] at hcount
      omega
    obtain ⟨s, hloop, -⟩ := (h.read_count_iff hlocked hvector hbegin hsize {}).1
      (hall {} ReadEnvironment.reliable_default)
    have hpositive : v.available v.currentOffset n ≠ 0 := by omega
    obtain ⟨hfits, hsupported⟩ := readLoop_inside hp hstart hpositive (Nat.le_refl _) hloop
    exact ⟨hsize, hsupported, hplace ▸ hfits⟩
  · rintro ⟨hsize, ⟨c, hc, hsupported⟩, hfits⟩ env henv
    rw [← hplace] at hfits
    obtain ⟨s, hloop, habort⟩ := readLoop_complete hp hopen hfits henv hcrypt hclosed
      (v.available v.currentOffset n) hstart ⟨c, hc, hcontext c hc hsupported⟩ rfl
    obtain ⟨⟨k, hinv⟩, hdone⟩ := readLoop_spec hp hstart (Nat.le_refl _) hloop
    have hfull := hinv.size
    rw [hdone rfl rfl habort, Nat.add_zero] at hfull
    exact (h.read_count_iff hlocked hvector hbegin hsize env).2 ⟨s, hloop, hfull⟩

/-- On a volume of whole sectors the units of every read fit. -/
theorem Opened.readPlace_fits {v : Volume} {file : FileIoHandle} (h : Opened L v file)
    (hwhole : 512 ∣ v.ioHandle.encryptedVolumeSize) {o : ℕ}
    (hend : o < v.ioHandle.encryptedVolumeSize) (n : ℕ) : (v.readPlace file o n).Fits := by
  obtain ⟨env, header₀, header, hheader, hs, hsome⟩ := h.header
  obtain ⟨hoffset, hsize⟩ := h.dataOffset header hsome
  have hplace := hheader.place hs
  have hle : v.available o n ≤ v.ioHandle.encryptedVolumeSize - (o : ℤ).toNat := Nat.min_le_right _ _
  refine ReadPlace.fits_of_dvd v.ioHandle.encryptedVolumeSize ?_ hwhole ?_ ?_ ?_
  · simp only [Volume.readPlace]
    omega
  · exact Dvd.intro_left _ rfl
  · simp only [Volume.readPlace]
    omega
  · simp only [Volume.readPlace]
    omega

/-- A read at an offset that does not fail counts the bytes it returns. -/
theorem volumeReadBufferAtOffset_count_eq {v : Volume} (hv : Wellformed L v) {file : FileIoHandle}
    (hfile : v.fileIoHandle = some file) (hlocked : v.isLocked = false) (env : ReadEnvironment)
    (n : ℕ) {o : ℕ} (ho : o < 2 ^ 63) (hcount : 0 ≤ (volumeReadBufferAtOffset L env v n o).2.count) :
    (volumeReadBufferAtOffset L env v n o).2.count =
      (volumeReadBufferAtOffset L env v n o).2.data.length := by
  have hreadable := hv.readable hfile
  have hmoved : Readable L { v with currentOffset := (o : ℤ) } file :=
    ⟨hreadable.1, ⟨Int.natCast_nonneg o, by simp only; omega⟩, hreadable.3, hreadable.4,
      hreadable.5⟩
  have hnonneg : ¬ (o : ℤ) < 0 := by omega
  have heq := volumeReadBufferAtOffset_eq (L := L) env hlocked hfile n hnonneg
  rw [heq] at hcount ⊢
  exact (hmoved.read env n).1.count_eq hcount

/-- A read at an offset of an open and unlocked volume. -/
theorem volumeReadBufferAtOffset_count_iff (hL : L.DecryptsSectors) (session : List Operation)
    {file : FileIoHandle} (hfile : (volumeAfter L session).fileIoHandle = some file)
    (hlocked : (volumeAfter L session).isLocked = false) {o n : ℕ}
    (hend : o < (volumeAfter L session).ioHandle.encryptedVolumeSize) (hn : 0 < n) :
    (∀ env : ReadEnvironment, env.Reliable →
        (volumeReadBufferAtOffset L env (volumeAfter L session) n o).2.count =
          (min n ((volumeAfter L session).ioHandle.encryptedVolumeSize - o) : ℕ)) ↔
      (volumeAfter L session).ReadsAll file o n := by
  have hv : Wellformed L (volumeAfter L session) := volumeAfter_wellformed session
  have hopened := hv.opened file hfile
  have hreadable := hv.readable hfile
  obtain ⟨env₀, header₀, header, hheader, hs, hsome⟩ := hopened.header
  have hsize := hreadable.size
  generalize hafter : volumeAfter L session = v at *
  have hmoved : Readable L { v with currentOffset := (o : ℤ) } file :=
    ⟨hreadable.1, ⟨Int.natCast_nonneg o, by simp only; omega⟩, hreadable.3, hreadable.4,
      hreadable.5⟩
  have hread : ∀ env, volumeReadBufferAtOffset L env v n o =
      internalVolumeReadBufferFromFileIoHandle L env { v with currentOffset := (o : ℤ) }
        (some file) n := fun env =>
    volumeReadBufferAtOffset_eq env hlocked hfile n (by omega)
  simp only [hread]
  -- the contexts are those of the header, in a mode that stays supported
  let P := fun c => ContextOf L header c ∧ c.initializationVectorMode.IsSupported
  have hcontexts := volumeAfter_contextsOfHeader (L := L) session
  rw [hafter] at hcontexts
  have hiff := hmoved.read_complete_iff hopened.isOpen hlocked (P := P)
    (fun c hc hsupported => ⟨hcontexts header c hsome hc, hsupported⟩)
    (fun c hP input sectorNumber hinput => hP.1.crypt hL hP.2 hinput sectorNumber)
    (fun c c' hP hd => by
      have hafter : AfterDecryptions L (some c) (some c') := Relation.ReflTransGen.single hd
      refine ⟨hP.1.after hafter c' rfl, ?_⟩
      obtain ⟨input, size, sectorNumber, output, hcrypt⟩ := hd
      rw [encryptionContextCrypt_sameKeys hcrypt]
      exact hP.2) rfl hend hn
  exact ⟨fun h => ⟨(hiff.1 h).1, (hiff.1 h).2, (hiff.1 h).3⟩, fun h => hiff.2 ⟨h.1, h.2, h.3⟩⟩

/-- **Every byte counted is readable**, but for the bytes behind the last whole sector.  In every
state that a session reaches, a start sector behind the last whole sector is rejected and the size
of the data is what the file has from its start on; and a read from an unlocked volume on which
nothing fails returns all that it is asked for exactly when the units that it requests, which it
aligns to its own rounds, end inside the file. -/
theorem volumeReadBufferAtOffset_complete_iff (hL : L.DecryptsSectors) (session : List Operation) :
    let v := volumeAfter L session
    (∀ env file accessFlags header,
      volumeHeaderReadFileIoHandle L env.header .cleared file.opened 0 = (header, true) →
      file.image.length / 512 ≤ header.encryptedVolumeStartSector →
      (volumeOpenFileIoHandle L env v file accessFlags).2.2 = -1) ∧
    ∀ file, v.fileIoHandle = some file →
      (0 ≤ v.ioHandle.encryptedVolumeOffset ∧ v.ioHandle.encryptedVolumeOffset +
        v.ioHandle.encryptedVolumeSize = file.image.length) ∧
      (v.isLocked = false → ∀ o n : ℕ, o < v.ioHandle.encryptedVolumeSize → 0 < n →
        ((∀ env : ReadEnvironment, env.Reliable →
            (volumeReadBufferAtOffset L env v n o).2.count =
              (min n (v.ioHandle.encryptedVolumeSize - o) : ℕ)) ↔
          v.ReadsAll file o n)) := by
  intro v
  have hv : Wellformed L v := volumeAfter_wellformed session
  constructor
  · intro env file accessFlags header hread hstart
    have houtcome := volumeOpenFileIoHandle_outcome (L := L) env hv.closed hv.bytesPerSector file
      accessFlags
    generalize (volumeOpenFileIoHandle L env v file accessFlags).1 = v' at houtcome
    generalize (volumeOpenFileIoHandle L env v file accessFlags).2.2 = result at houtcome ⊢
    cases houtcome with
    | refused => rfl
    | failed => rfl
    | opened hreach hunlock hresult hvector =>
      -- the header that was accepted is the one that was read
      rename_i header' _ _
      have hsame : header' = header :=
        congrArg Prod.fst (hreach.headerOf.read.symm.trans hread)
      have hinside : header'.encryptedVolumeStartSector < file.image.length / 512 :=
        hreach.headerOf.startSector
      rw [hsame] at hinside
      omega
  · intro file hfile
    have hopened := hv.opened file hfile
    obtain ⟨env₀, header₀, header, hheader, hs, hsome⟩ := hopened.header
    obtain ⟨hoffset, hsize⟩ := hopened.dataOffset header hsome
    have hplace := hheader.place hs
    exact ⟨⟨by omega, by omega⟩, fun hlocked o n hend hn =>
      volumeReadBufferAtOffset_count_iff hL session hfile hlocked hend hn⟩

/-! ## The small volume -/

/-- The ciphers from tables decrypt sectors. -/
theorem Libraries.ofTables_decryptsSectors
    (aes : List ((KeySchedule × CryptMode × List UInt8) × List UInt8))
    (digests : List ((HashingMethod × List UInt8) × List UInt8))
    (hmacs : List ((HashingMethod × List UInt8 × List UInt8) × List UInt8)) :
    (Libraries.ofTables aes digests hmacs).DecryptsSectors where
  aesCbc := fun _ _ _ _ hiv hinput => ⟨_, if_pos ⟨rfl, by rw [hinput], hiv⟩⟩
  aesXts := fun _ _ _ _ input _ _ _ _ _ => ⟨input, rfl⟩
  blowfishCbc := fun _ _ input _ _ _ => ⟨input, rfl⟩
  blowfishEcb := fun _ input _ _ => ⟨input, rfl⟩
  serpentCbc := fun _ _ input _ _ _ => ⟨input, rfl⟩
  serpentEcb := fun _ input _ _ => ⟨input, rfl⟩

/-- Reads of the small volume, which has whole sectors. -/
theorem volumeReadBufferAtOffset_complete_iff_small :
    let v := volumeAfter smallLibraries smallSession
    (∀ env : ReadEnvironment, env.Reliable →
        (volumeReadBufferAtOffset smallLibraries env v 2000 (100 : ℕ)).2.count =
          (min 2000 (v.ioHandle.encryptedVolumeSize - 100) : ℕ)) ↔
      v.ReadsAll smallFile 100 2000 :=
  ((volumeReadBufferAtOffset_complete_iff (L := smallLibraries)
      (Libraries.ofTables_decryptsSectors _ _ _) smallSession).2 smallFile
    smallSession_fileIoHandle).2 (by decide +kernel) 100 2000 (by decide +kernel) (by decide)

theorem length_shortData : (List.replicate 700 (0xaa : UInt8)).length < 2 ^ 62 := by decide +kernel

/-- The small volume with 700 bytes of data. -/
def shortFile : FileIoHandle := volumeFile smallRecord (List.replicate 700 0xaa) length_shortData

/-- The bytes behind the last whole sector are counted, but a read of one of them fails although
nothing else does. -/
theorem shortFile_unreadable :
    let v := volumeAfter smallLibraries [.setKey smallKey, .openFileIoHandle {} shortFile 1]
    (v.fileIoHandle = some shortFile ∧ v.isLocked = false ∧
      v.ioHandle.encryptedVolumeSize = 700) ∧
    ¬ ∀ env : ReadEnvironment, env.Reliable →
      (volumeReadBufferAtOffset smallLibraries env v 1 600).2.count =
        (min 1 (v.ioHandle.encryptedVolumeSize - 600) : ℕ) := by
  intro v
  have hopened : v.fileIoHandle = some shortFile :=
    volumeAfter_fileIoHandle [.setKey smallKey] (by decide +kernel)
  have hrun : v.isLocked = false ∧ v.ioHandle.encryptedVolumeSize = 700 ∧
      (volumeReadBufferAtOffset smallLibraries {} v 1 600).2.count = -1 := by decide +kernel
  obtain ⟨hlocked, hsize, hfails⟩ := hrun
  refine ⟨⟨hopened, hlocked, hsize⟩, fun hall => ?_⟩
  have hcount := hall {} ReadEnvironment.reliable_default
  rw [hfails, hsize] at hcount
  exact absurd hcount (by decide)

end Libluksde
