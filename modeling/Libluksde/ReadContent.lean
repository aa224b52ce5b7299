import Libluksde.SessionInvariant

/-!
# The content of a read

A read returns the plaintext of the volume at the current offset as long as it stays in step
with the sectors.  The read loop advances its file offset by what it copied of a sector, so
that behind a sector that was read in part every further unit is taken from, and decrypted at,
a place between two sectors.
-/

namespace Libluksde

open Lib.Bytes Lib.Stream Lib.Machine

variable {L : Libraries}

/-! ## The plaintext -/

/-- Sector `k` of the plaintext: the 512 bytes of the file at 512 · `k` of the data, decrypted
with sector number `k`. -/
def Volume.plaintextSector (L : Libraries) (v : Volume) (file : FileIoHandle) (k : ℕ) :
    Option (List UInt8) :=
  v.encryptionContext.bind fun context =>
    (file.readBufferAtOffset 512 (v.ioHandle.encryptedVolumeOffset + 512 * k)).bind fun data =>
      if data.length = 512 then
        (encryptionContextCrypt L context .decrypt data 512 (UInt64.ofNat k)).map Prod.fst
      else none

/-- Byte `i` of the plaintext. -/
def Volume.plaintext (L : Libraries) (v : Volume) (file : FileIoHandle) (i : ℕ) : Option UInt8 :=
  blocks 512 (v.plaintextSector L file) i

theorem Volume.plaintextSector_eq (v : Volume) (file : FileIoHandle) (k : ℕ) :
    v.plaintextSector L file k =
      plainSector L v.ioHandle.encryptedVolumeOffset file v.encryptionContext (512 * k : ℕ) := by
  rw [plaintextSector, plainSector]
  congr 1
  funext context
  have hnumber : (((512 * k : ℕ) : ℤ).toNat / 512) = k := by omega
  have hplace : v.ioHandle.encryptedVolumeOffset + ((512 * k : ℕ) : ℤ)
      = v.ioHandle.encryptedVolumeOffset + 512 * k := by push_cast; rfl
  rw [uncachedSector, hnumber, hplace]
  cases file.readBufferAtOffset 512 (v.ioHandle.encryptedVolumeOffset + 512 * k) <;> rfl

/-- What the property of reads asks of the result of a read of `size` bytes at the offset `o`
of a volume. -/
structure ReturnsPlaintext (L : Libraries) (v : Volume) (file : FileIoHandle) (o : ℤ) (size : ℕ)
    (r : Volume × ReadResult) : Prop where
  content : 0 ≤ r.2.count → r.2.count = r.2.data.length ∧
    ∀ i < r.2.data.length, r.2.data[i]? = v.plaintext L file (o.toNat + i)
  currentOffset : 0 ≤ r.2.count → r.1.currentOffset = o + r.2.count
  isPrefix : 0 ≤ r.2.count → r.2.count ≤ v.available o size
  complete : 0 ≤ r.2.count → r.1.ioHandle.abort = false → r.2.count = v.available o size

theorem ReturnsPlaintext.of_failed (v : Volume) (file : FileIoHandle) (o : ℤ) (size : ℕ)
    {r : Volume × ReadResult} (h : r.2 = .failed) : ReturnsPlaintext L v file o size r := by
  have hneg : ¬ 0 ≤ r.2.count := by
    rw [h]
    decide
  exact ⟨fun hc => absurd hc hneg, fun hc => absurd hc hneg, fun hc => absurd hc hneg,
    fun hc => absurd hc hneg⟩

/-! ## Staying in step -/

/-- Byte `i` of a read at `o` as it is found in units of 512 bytes that begin where the first
sector of the read ends in the buffer, each decrypted at the offset it is taken from; up to
there it is a byte of that sector. -/
def Volume.shifted (L : Libraries) (v : Volume) (file : FileIoHandle) (o : ℤ) : ℕ → Option UInt8 :=
  readStream (plainSector L v.ioHandle.encryptedVolumeOffset file v.encryptionContext)
    (o / 512 * 512) (o % 512).toNat

/-- A read of `size` bytes at `o` stays in step with the sectors: nothing is read, the offset is
that of a sector, or the read ends in the sector it begins in.  Otherwise the units between
two sectors decrypt to the plaintext by coincidence, up to the first that cannot be decrypted. -/
def Volume.InStep (L : Libraries) (v : Volume) (file : FileIoHandle) (o : ℤ) (size : ℕ) : Prop :=
  o < 0 ∨ size > ssizeMax ∨ 512 ∣ o ∨ (o % 512).toNat + v.available o size ≤ 512 ∨
    ∀ i < v.available o size, (∀ j ≤ i, (v.shifted L file o j).isSome) →
      v.shifted L file o i = v.plaintext L file (o.toNat + i)

/-- In the sector where a read begins it is in step. -/
theorem Volume.shifted_first (v : Volume) (file : FileIoHandle) {o : ℤ} (ho : 0 ≤ o) {i : ℕ}
    (hi : (o % 512).toNat + i < 512) :
    v.shifted L file o i = v.plaintext L file (o.toNat + i) := by
  have hsector : o / 512 * 512 = ((512 * (o.toNat / 512) : ℕ) : ℤ) := by omega
  have hdiv : (o.toNat + i) / 512 = o.toNat / 512 := by omega
  have hmod : (o.toNat + i) % 512 = (o % 512).toNat + i := by omega
  rw [shifted, readStream, if_pos (by omega), plaintext, blocks, hdiv, hmod, plaintextSector_eq,
    hsector]

/-- A read that begins at a sector is in step. -/
theorem Volume.shifted_aligned (v : Volume) (file : FileIoHandle) {o : ℤ} (ho : 0 ≤ o)
    (haligned : 512 ∣ o) (i : ℕ) :
    v.shifted L file o i = v.plaintext L file (o.toNat + i) := by
  have hzero : (o % 512).toNat = 0 := by omega
  by_cases hi : i < 512
  · exact v.shifted_first file ho (by omega)
  · have hunits : (fun k : ℕ => plainSector L v.ioHandle.encryptedVolumeOffset file
        v.encryptionContext (o / 512 * 512 + ((512 - 0) + 512 * k : ℕ))) =
        fun k => v.plaintextSector L file ((o.toNat / 512 + 1) + k) := by
      funext k
      rw [plaintextSector_eq]
      congr 1
      omega
    have hplace : 512 * (o.toNat / 512 + 1) + (i - (512 - 0)) = o.toNat + i := by omega
    rw [shifted, readStream, hzero, if_neg (by omega), hunits, blocks_add (by norm_num), hplace,
      plaintext]

/-- What a read that stays in step copies is the plaintext. -/
theorem Volume.InStep.shifted_eq {v : Volume} {file : FileIoHandle} {o : ℤ} {size : ℕ}
    (h : v.InStep L file o size) (ho : 0 ≤ o) (hsize : size ≤ ssizeMax) {i : ℕ}
    (hi : i < v.available o size) (hdefined : ∀ j ≤ i, (v.shifted L file o j).isSome) :
    v.shifted L file o i = v.plaintext L file (o.toNat + i) := by
  rcases h with hneg | hlarge | haligned | hwithin | hagree
  · omega
  · omega
  · exact v.shifted_aligned file ho haligned i
  · exact v.shifted_first file ho (by omega)
  · exact hagree i hi hdefined

/-! ## The content -/

/-- A read of too many bytes fails. -/
theorem internalVolumeReadBufferFromFileIoHandle_large (env : ReadEnvironment) (v : Volume)
    (file : Option FileIoHandle) {size : ℕ} (hsize : size > ssizeMax) :
    (internalVolumeReadBufferFromFileIoHandle L env v file size).2 = .failed := by
  unfold internalVolumeReadBufferFromFileIoHandle
  split
  · rfl
  · split
    · rfl
    · split
      · rfl
      · rfl

/-- Where nothing fails, a read gets as far as the units can be decrypted. -/
theorem Readable.read_reaches {v : Volume} {file : FileIoHandle} (h : Readable L v file)
    (hlocked : v.isLocked = false) (hstateless : Stateless v.encryptionContext) {size : ℕ}
    (hsize : size ≤ ssizeMax) {i : ℕ} (hi : i < v.available v.currentOffset size)
    (hdefined : ∀ j ≤ i, (v.shifted L file v.currentOffset j).isSome) :
    ∃ env data, (internalVolumeReadBufferFromFileIoHandle L env v (some file) size).2
      = ⟨data.length, data⟩ ∧ i < data.length := by
  obtain ⟨vector, hvector, -⟩ := h.vector
  have hoffset := h.currentOffset
  have hend : v.currentOffset.toNat < v.ioHandle.encryptedVolumeSize := by
    unfold Volume.available at hi
    omega
  -- the abort comes in the round that copies the byte
  let last := (i + (v.currentOffset % 512).toNat) / 512
  let v₀ := { v with ioHandle := { v.ioHandle with abort := false } }
  have h₀ : Readable L v₀ file := ⟨h.1, h.2, h.3, h.4, h.5⟩
  obtain ⟨s, hloop, hlength⟩ := readLoop_reaches (h₀.readPlace_inRange size hend)
    hstateless (h₀.loopInvariant hvector size) (Nat.le_refl _) hi (show last = _ from rfl)
    (Nat.zero_le _) hdefined
  refine ⟨⟨fun _ => {}, fun k => k = last⟩, s.output, ?_, hlength⟩
  have hnotEnd : ¬ size64 v₀.currentOffset ≥ v₀.ioHandle.encryptedVolumeSize := by
    rw [v₀.size64_currentOffset h₀.currentOffset]
    exact Nat.not_le.2 hend
  have hread : (Libluksde.readFromVector L ⟨fun _ => {}, fun k => k = last⟩ v₀ vector (some file)
      size).2 = ⟨s.output.length, s.output⟩ := by
    rw [Libluksde.readFromVector, if_neg hnotEnd]
    simp only [h₀.bytesPerSector, h₀.clampedSize_eq]
    have hloop' : readLoop L ⟨fun _ => {}, fun k => k = last⟩ (some file) 512
        (v₀.available v₀.currentOffset size) 0
        (readLoopStart v₀ vector (v₀.available v₀.currentOffset size)) = (s, true) := hloop
    rw [hloop']
  rw [internalVolumeReadBufferFromFileIoHandle_eq _ hlocked hvector hoffset.1 hsize]
  exact hread

/-- A read returns the plaintext whatever happens on the way, exactly when it stays in step. -/
theorem Readable.returnsPlaintext_iff {v : Volume} {file : FileIoHandle} (h : Readable L v file)
    (hlocked : v.isLocked = false) (hstateless : Stateless v.encryptionContext) (size : ℕ) :
    (∀ env, ReturnsPlaintext L v file v.currentOffset size
      (internalVolumeReadBufferFromFileIoHandle L env v (some file) size)) ↔
      v.InStep L file v.currentOffset size := by
  have hoffset := h.currentOffset
  constructor
  · intro hall
    by_contra hout
    simp only [Volume.InStep, not_or, not_forall] at hout
    obtain ⟨-, hsize, -, -, i, hi, hdefined, hne⟩ := hout
    obtain ⟨env, data, hresult, hlength⟩ :=
      h.read_reaches hlocked hstateless (by omega) hi hdefined
    have hcontent := (hall env).content
    have houtcome := (h.read env size).1
    generalize internalVolumeReadBufferFromFileIoHandle L env v (some file) size = r
      at hresult hcontent houtcome
    obtain ⟨v', result⟩ := r
    simp only at hresult hcontent houtcome
    cases houtcome with
    | failed => exact absurd (congrArg ReadResult.count hresult) (by simp [ReadResult.failed])
    | read _ _ _ hdata =>
      obtain rfl := congrArg ReadResult.data hresult
      have hplain := (hcontent (Int.natCast_nonneg _)).2 i hlength
      have hshifted := hdata hstateless i hlength
      exact hne (hshifted.symm.trans hplain)
  · intro hstep env
    by_cases hsize : size > ssizeMax
    · exact .of_failed v file _ size
        (internalVolumeReadBufferFromFileIoHandle_large env v (some file) hsize)
    have houtcome := (h.read env size).1
    generalize internalVolumeReadBufferFromFileIoHandle L env v (some file) size = r at houtcome ⊢
    obtain ⟨v', result⟩ := r
    cases houtcome with
    | failed => exact .of_failed v file _ size rfl
    | read hadvance hle hcomplete hdata =>
      refine ⟨fun _ => ⟨rfl, fun i hi => ?_⟩, fun _ => hadvance, fun _ => ?_, fun _ habort => ?_⟩
      · have hwritten := hdata hstateless
        rw [hwritten i hi]
        exact hstep.shifted_eq hoffset.1 (by omega) (Nat.lt_of_lt_of_le hi hle)
          fun j hj => hwritten.isSome (Nat.lt_of_le_of_lt hj hi)
      · exact Int.ofNat_le.2 hle
      · exact congrArg Nat.cast (hcomplete habort)

/-- **The content of a read.**  In every state that a session reaches, for every open and
unlocked volume in a mode that keeps no state: reads at the current offset and at any offset
return the plaintext there, whatever fails or aborts them, exactly when they stay in step with
the sectors, and a read that fails leaves the offset as it is.  There is no lock that could fail. -/
theorem volumeReadBuffer_returnsPlaintext_iff (session : List Operation) {file : FileIoHandle}
    (hopen : (volumeAfter L session).fileIoHandle = some file)
    (hunlocked : (volumeAfter L session).isLocked = false)
    (hstateless : Stateless (volumeAfter L session).encryptionContext) (size : ℕ) :
    let v := volumeAfter L session
    ((∀ env, ReturnsPlaintext L v file v.currentOffset size (volumeReadBuffer L env v size) ∧
        ((volumeReadBuffer L env v size).2.count = -1 →
          (volumeReadBuffer L env v size).1.currentOffset = v.currentOffset)) ↔
      v.InStep L file v.currentOffset size) ∧
    ∀ offset : Off64, ((∀ env, ReturnsPlaintext L v file offset.1 size
        (volumeReadBufferAtOffset L env v size offset.1)) ↔
      v.InStep L file offset.1 size) := by
  intro v
  have hv : Wellformed L v := volumeAfter_wellformed session
  have hreadable := hv.readable hopen
  constructor
  · have hread : ∀ env, volumeReadBuffer L env v size =
        internalVolumeReadBufferFromFileIoHandle L env v (some file) size := by
      intro env
      rw [volumeReadBuffer, show v.fileIoHandle = some file from hopen]
    simp only [hread]
    rw [← hreadable.returnsPlaintext_iff hunlocked hstateless size]
    refine ⟨fun h env => (h env).1, fun h env => ⟨h env, fun hfailed => ?_⟩⟩
    have houtcome := (hreadable.read env size).1
    generalize internalVolumeReadBufferFromFileIoHandle L env v (some file) size = r
      at houtcome hfailed ⊢
    obtain ⟨v', result⟩ := r
    cases houtcome with
    | failed hoffset => exact hoffset
    | read => exact absurd hfailed (by simp only; omega)
  · intro offset
    by_cases hneg : offset.1 < 0
    · refine ⟨fun _ => Or.inl hneg, fun _ env => .of_failed v file _ size ?_⟩
      have hfails : internalVolumeSeekOffset v offset.1 seekSet = (v, -1) := by
        rw [internalVolumeSeekOffset, if_neg (by simp [show v.isLocked = false from hunlocked]),
          if_neg (by decide)]
        exact if_pos hneg
      rw [volumeReadBufferAtOffset, show v.fileIoHandle = some file from hopen]
      simp only [hfails]
      rfl
    · have hread : ∀ env, volumeReadBufferAtOffset L env v size offset.1 =
          internalVolumeReadBufferFromFileIoHandle L env { v with currentOffset := offset.1 }
            (some file) size := fun env =>
        volumeReadBufferAtOffset_eq env hunlocked hopen size hneg
      simp only [hread]
      have hmoved : Readable L { v with currentOffset := offset.1 } file :=
        ⟨hreadable.1, ⟨by simp only; omega, offset.2.2⟩, hreadable.3, hreadable.4, hreadable.5⟩
      -- the offset of the volume is no part of what is asked of the result
      have hiff := hmoved.returnsPlaintext_iff hunlocked hstateless size
      exact ⟨fun h => hiff.1 fun env => ⟨(h env).1, (h env).2, (h env).3, (h env).4⟩,
        fun h env => ⟨(hiff.2 h env).1, (hiff.2 h env).2, (hiff.2 h env).3, (hiff.2 h env).4⟩⟩

/-- Without a mode of RC4 a context keeps no state. -/
theorem stateless_of_all {context : Option EncryptionContext}
    (h : (context.all fun c => ¬ c.IsRc4) = true) : Stateless context := by
  intro c hc
  subst hc
  simpa using h

/-- The small volume, read at its current offset and at other offsets. -/
theorem volumeReadBuffer_returnsPlaintext_iff_small :
    let v := volumeAfter smallLibraries smallSession
    ((∀ env, ReturnsPlaintext smallLibraries v smallFile v.currentOffset 1024
          (volumeReadBuffer smallLibraries env v 1024) ∧
        ((volumeReadBuffer smallLibraries env v 1024).2.count = -1 →
          (volumeReadBuffer smallLibraries env v 1024).1.currentOffset = v.currentOffset)) ↔
      v.InStep smallLibraries smallFile v.currentOffset 1024) ∧
    ∀ offset : Off64, ((∀ env, ReturnsPlaintext smallLibraries v smallFile offset.1 1024
        (volumeReadBufferAtOffset smallLibraries env v 1024 offset.1)) ↔
      v.InStep smallLibraries smallFile offset.1 1024) :=
  volumeReadBuffer_returnsPlaintext_iff smallSession smallSession_fileIoHandle
    (by decide +kernel) (stateless_of_all (by decide +kernel)) 1024

/-- A read of 512 bytes at offset 256 of the small volume: the second half of what it returns
is not the beginning of the second sector. -/
theorem volumeReadBufferAtOffset_shifted :
    let v := volumeAfter smallLibraries smallSession
    (v.fileIoHandle = some smallFile ∧ v.isLocked = false ∧
      v.ioHandle.encryptedVolumeSize = 1024 ∧ Stateless v.encryptionContext) ∧
    ¬ ReturnsPlaintext smallLibraries v smallFile 256 512
      (volumeReadBufferAtOffset smallLibraries {} v 512 256) := by
  intro v
  have hopened : v.isLocked = false ∧ v.ioHandle.encryptedVolumeSize = 1024 ∧
      (v.encryptionContext.all fun c => ¬ c.IsRc4) = true := by decide +kernel
  refine ⟨⟨smallSession_fileIoHandle, hopened.1, hopened.2.1,
    stateless_of_all hopened.2.2⟩, fun h => ?_⟩
  have hresult : let r := (volumeReadBufferAtOffset smallLibraries {} v 512 256).2
      0 ≤ r.count ∧ 256 < r.data.length ∧
        r.data[256]? ≠ v.plaintext smallLibraries smallFile ((256 : ℤ).toNat + 256) := by
    decide +kernel
  exact hresult.2.2 ((h.content hresult.1).2 256 hresult.2.1)

end Libluksde
