import Libluksde.VolumeOpen
import Libluksde.UnlockSpec

/-!
# What an open does

All that `libluksde_volume_open_file_io_handle` can do to a volume without an open file, once
and for all: later files split on `OpenOutcome` and never look into the functions.
-/

namespace Libluksde

open Lib.Bytes

variable {L : Libraries}

/-- A volume on which nothing is left of an open file. -/
structure Closed (v : Volume) : Prop where
  fileIoHandle : v.fileIoHandle = none
  volumeHeader : v.volumeHeader = none
  sectorDataVector : v.sectorDataVector = none
  encryptionContext : v.encryptionContext = none

/-- The clean-up changes nothing where nothing was created. -/
theorem Closed.openReadOnError_eq {v : Volume} (h : Closed v) : v.openReadOnError = v := by
  cases v
  obtain ⟨-, hheader, hvector, hcontext⟩ := h
  simp only at hheader hvector hcontext
  subst hheader hvector hcontext
  rfl

/-- A header that was read from the beginning of a file and accepted. -/
structure HeaderOf (L : Libraries) (env : HeaderEnvironment) (file : FileIoHandle)
    (header : VolumeHeader) : Prop where
  read : volumeHeaderReadFileIoHandle L env .cleared file 0 = (header, true)
  masterKeySize : header.masterKeySize.toNat ≠ 0 ∧ header.masterKeySize.toNat ≤ 64
  startSector : header.encryptedVolumeStartSector < file.image.length / 512

/-- A volume that knows the size of its file. -/
def Volume.withVolumeSize (v : Volume) (volumeSize : ℕ) : Volume :=
  { v with ioHandle := { v.ioHandle with volumeSize := volumeSize } }

/-- An open that fails before the unlocking changes sizes only. -/
def Volume.refused (v : Volume) (masterKeySize volumeSize : ℕ) : Volume :=
  { v.withVolumeSize volumeSize with masterKeySize := masterKeySize }

/-- A volume whose header has just been read. -/
def Volume.beforeUnlock (v : Volume) (file : FileIoHandle) (header : VolumeHeader) : Volume :=
  (v.withVolumeSize file.image.length).withHeader header

/-- The checks on the size of the master key, as comparisons of numbers. -/
theorem masterKeySize_gt_iff (a : UInt32) : a > 64 ↔ ¬ a.toNat ≤ 64 := by
  simp [UInt32.lt_iff_toNat_lt]

theorem masterKeySize_eq_zero_iff (a : UInt32) : a = 0 ↔ a.toNat = 0 := UInt32.toNat_inj.symm

/-- The header of the file is accepted where no call fails. -/
theorem HeaderOf.openReadHeader {env : OpenEnvironment} {file : FileIoHandle}
    {header : VolumeHeader} (h : HeaderOf L env.header file header)
    (hsizeFails : env.sizeFails = false) (hinitFails : env.headerInitializeFails = false)
    {v : Volume} (hv : Closed v) (hbytes : v.ioHandle.bytesPerSector = 512) :
    openReadHeader L env v file = (v.beforeUnlock file header, true) := by
  have hsize : ¬ (header.masterKeySize = 0 ∨ header.masterKeySize > 64) := by
    rw [masterKeySize_gt_iff, masterKeySize_eq_zero_iff]
    have := h.masterKeySize
    tauto
  have hstart := h.startSector
  unfold Libluksde.openReadHeader
  rw [if_neg (by omega), if_neg (by simp [hv.volumeHeader]),
    if_neg (by simp [hv.sectorDataVector]), if_neg (by simp [hsizeFails])]
  simp only
  rw [if_neg (by simp [hinitFails]), h.read]
  simp only
  rw [if_neg hsize, if_neg (by rw [hbytes]; omega)]
  rfl

/-- The reading of the header, on any volume on which nothing is left of an open file: it fails
and changes sizes only, or it accepts the header of the file. -/
theorem openReadHeader_spec (env : OpenEnvironment) (file : FileIoHandle) :
    (∀ v : Volume, Closed v → v.ioHandle.bytesPerSector = 512 → ∃ masterKeySize volumeSize,
      openReadHeader L env v file = (v.refused masterKeySize volumeSize, false)) ∨
    ∃ header, HeaderOf L env.header file header ∧
      ∀ v : Volume, Closed v → v.ioHandle.bytesPerSector = 512 →
        openReadHeader L env v file = (v.beforeUnlock file header, true) := by
  by_cases haccepted : ∃ header, HeaderOf L env.header file header ∧ env.sizeFails = false ∧
      env.headerInitializeFails = false
  · obtain ⟨header, hheader, hsizeFails, hinitFails⟩ := haccepted
    exact Or.inr ⟨header, hheader, fun v hv hbytes =>
      hheader.openReadHeader hsizeFails hinitFails hv hbytes⟩
  · refine Or.inl fun v hv hbytes => ?_
    have hsized : Closed (v.withVolumeSize file.image.length) := ⟨hv.1, hv.2, hv.3, hv.4⟩
    have hrefused : ∀ masterKeySize, Closed (v.refused masterKeySize file.image.length) :=
      fun _ => ⟨hv.1, hv.2, hv.3, hv.4⟩
    unfold openReadHeader
    rw [if_neg (by omega), if_neg (by simp [hv.volumeHeader]),
      if_neg (by simp [hv.sectorDataVector])]
    split
    · refine ⟨v.masterKeySize, v.ioHandle.volumeSize, ?_⟩
      rw [hv.openReadOnError_eq]
      rfl
    rename_i hsizeFails
    simp only
    split
    · refine ⟨v.masterKeySize, file.image.length, ?_⟩
      exact congrArg (·, false) hsized.openReadOnError_eq
    rename_i hinitFails
    split
    · refine ⟨v.masterKeySize, file.image.length, ?_⟩
      exact congrArg (·, false) hsized.openReadOnError_eq
    rename_i header hread
    split
    · refine ⟨v.masterKeySize, file.image.length, ?_⟩
      exact congrArg (·, false) hsized.openReadOnError_eq
    rename_i hsize
    split
    · refine ⟨header.masterKeySize.toNat, file.image.length, ?_⟩
      exact congrArg (·, false) (hrefused _).openReadOnError_eq
    · rename_i hstart
      rw [masterKeySize_gt_iff, masterKeySize_eq_zero_iff] at hsize
      rw [hbytes] at hstart
      exact absurd ⟨header, ⟨hread, by tauto, by omega⟩, by simpa using hsizeFails,
        by simpa using hinitFails⟩ haccepted

/-- The vector that an open creates. -/
def newSectorDataVector (header : VolumeHeader) : SectorDataVector :=
  ⟨512, header.encryptedVolumeStartSector * 512, []⟩

/-- The volume after an open that succeeds. -/
def Volume.afterOpen (v : Volume) (file : FileIoHandle) (header : VolumeHeader) : Volume :=
  { v with
    sectorDataVector := some (newSectorDataVector header)
    fileIoHandle := some file.opened
    fileIoHandleOpenedInLibrary := !file.isOpen }

/-- An open that comes to the unlocking, with the header it has read. -/
structure ReachesUnlock (L : Libraries) (env : OpenEnvironment) (v : Volume) (file : FileIoHandle)
    (accessFlags : ℕ) (header : VolumeHeader) : Prop where
  fileIoHandle : v.fileIoHandle = none
  accessFlags : AccessFlagsSupported accessFlags
  handleFails : env.handleFails file = false
  headerOf : HeaderOf L env.header file.opened header
  read : openReadHeader L env v file.opened = (v.beforeUnlock file header, true)

/-- The outcomes of an open. -/
inductive OpenOutcome (L : Libraries) (env : OpenEnvironment) (v : Volume) (file : FileIoHandle)
    (accessFlags : ℕ) : Volume → ℤ → Prop
  /-- It fails before the unlocking. -/
  | refused (masterKeySize volumeSize : ℕ) :
      OpenOutcome L env v file accessFlags (v.refused masterKeySize volumeSize) (-1)
  /-- It fails in the unlocking or behind it. -/
  | failed {header : VolumeHeader} (hreach : ReachesUnlock L env v file accessFlags header)
      {v' : Volume} {result : ℤ} (hunlock : internalVolumeUnlock L env.keys
        (v.beforeUnlock file header) (some file.opened) = (v', result))
      (hfails : result = -1 ∨ env.vectorFails = true) :
      OpenOutcome L env v file accessFlags v'.openReadOnError (-1)
  /-- It succeeds. -/
  | opened {header : VolumeHeader} (hreach : ReachesUnlock L env v file accessFlags header)
      {v' : Volume} {result : ℤ} (hunlock : internalVolumeUnlock L env.keys
        (v.beforeUnlock file header) (some file.opened) = (v', result))
      (hresult : result ≠ -1) (hvector : env.vectorFails = false) :
      OpenOutcome L env v file accessFlags (v'.afterOpen file header) 1

/-- The part of an open behind the reading of the header. -/
theorem openReadUnlock_spec (env : OpenEnvironment) {v : Volume} (file : FileIoHandle)
    (hcontext : v.encryptionContext = none) (hbytes : v.ioHandle.bytesPerSector = 512)
    (hoffset : 0 ≤ v.ioHandle.encryptedVolumeOffset) :
    ∃ v' result, internalVolumeUnlock L env.keys v (some file) = (v', result) ∧
      (((result = -1 ∨ env.vectorFails = true) ∧
          openReadUnlock L env v file = (v'.openReadOnError, -1)) ∨
        (result ≠ -1 ∧ env.vectorFails = false ∧ openReadUnlock L env v file =
          ({ v' with sectorDataVector := some ⟨512, v.ioHandle.encryptedVolumeOffset, []⟩ }, 1))) := by
  rw [openReadUnlock]
  cases hunlock : internalVolumeUnlock L env.keys v (some file) with
  | mk v' result =>
    have hio : v'.ioHandle = v.ioHandle := by
      rw [(internalVolumeUnlock_step env.keys (some file) hcontext hunlock).frame]
    have hvector : sectorDataVectorInitialize env.vectorFails v'.ioHandle.bytesPerSector
        v'.ioHandle.encryptedVolumeOffset = if env.vectorFails then none
          else some ⟨512, v.ioHandle.encryptedVolumeOffset, []⟩ := by
      rw [sectorDataVectorInitialize, hio, hbytes, if_neg (by omega), if_neg (by omega)]
    refine ⟨v', result, rfl, ?_⟩
    simp only [hvector]
    by_cases hresult : result = -1
    · exact Or.inl ⟨Or.inl hresult, if_pos hresult⟩
    · by_cases hfails : env.vectorFails = true
      · refine Or.inl ⟨Or.inr hfails, ?_⟩
        rw [if_neg hresult, if_pos hfails]
      · refine Or.inr ⟨hresult, by simpa using hfails, ?_⟩
        rw [if_neg hresult, if_neg hfails]

/-- On a volume that is open, an open changes nothing. -/
theorem volumeOpenFileIoHandle_of_open (env : OpenEnvironment) {v : Volume}
    (hopen : v.fileIoHandle ≠ none) (file : FileIoHandle) (accessFlags : ℕ) :
    volumeOpenFileIoHandle L env v file accessFlags = (v, file, -1) := by
  rw [volumeOpenFileIoHandle]
  exact if_pos hopen

theorem volumeOpenFileIoHandle_outcome (env : OpenEnvironment) {v : Volume}
    (hclosed : v.fileIoHandle = none → Closed v) (hbytes : v.ioHandle.bytesPerSector = 512)
    (file : FileIoHandle) (accessFlags : ℕ) :
    OpenOutcome L env v file accessFlags (volumeOpenFileIoHandle L env v file accessFlags).1
      (volumeOpenFileIoHandle L env v file accessFlags).2.2 := by
  have hsame : OpenOutcome L env v file accessFlags v (-1) :=
    .refused v.masterKeySize v.ioHandle.volumeSize
  unfold volumeOpenFileIoHandle
  simp only
  split
  · exact hsame
  rename_i hnone
  have hv := hclosed (not_not.1 hnone)
  split
  · exact hsame
  rename_i hflags
  split
  · exact hsame
  rename_i hhandle
  rw [internalVolumeOpenRead]
  obtain hrefused | ⟨header, hheader, hread⟩ := openReadHeader_spec (L := L) env file.opened
  · obtain ⟨masterKeySize, volumeSize, hread⟩ := hrefused v hv hbytes
    rw [hread]
    exact .refused masterKeySize volumeSize
  have hreach : ReachesUnlock L env v file accessFlags header :=
    ⟨not_not.1 hnone, not_not.1 hflags, by simpa using hhandle, hheader, hread v hv hbytes⟩
  have hoffset : 0 ≤ (v.beforeUnlock file header).ioHandle.encryptedVolumeOffset :=
    Int.mul_nonneg (Int.natCast_nonneg _) (Int.natCast_nonneg _)
  obtain ⟨v', result, hunlock, hcase⟩ := openReadUnlock_spec (L := L) env
    (v := v.beforeUnlock file header) file.opened hv.encryptionContext hbytes hoffset
  rw [hreach.read]
  simp only
  obtain ⟨hfails, heq⟩ | ⟨hresult, hvector, heq⟩ := hcase
  · rw [heq]
    exact .failed hreach hunlock hfails
  · have hplace : (v.beforeUnlock file header).ioHandle.encryptedVolumeOffset
        = header.encryptedVolumeStartSector * 512 := by
      show (header.encryptedVolumeStartSector : ℤ) * v.ioHandle.bytesPerSector = _
      rw [hbytes]
      rfl
    rw [heq, hplace]
    exact (.opened hreach hunlock hresult hvector :
      OpenOutcome L env v file accessFlags (v'.afterOpen file header) 1)

/-- An open that comes to the unlocking and does not fail behind it. -/
theorem ReachesUnlock.opened {env : OpenEnvironment} {v : Volume} {file : FileIoHandle}
    {accessFlags : ℕ} {header : VolumeHeader} (hreach : ReachesUnlock L env v file accessFlags header)
    (hcontext : v.encryptionContext = none) (hbytes : v.ioHandle.bytesPerSector = 512)
    (hvector : env.vectorFails = false) {v' : Volume} {result : ℤ} (hresult : result ≠ -1)
    (hunlock : internalVolumeUnlock L env.keys (v.beforeUnlock file header) (some file.opened)
      = (v', result)) :
    volumeOpenFileIoHandle L env v file accessFlags =
      (v'.afterOpen file header, file.opened, 1) := by
  have hoffset : 0 ≤ (v.beforeUnlock file header).ioHandle.encryptedVolumeOffset :=
    Int.mul_nonneg (Int.natCast_nonneg _) (Int.natCast_nonneg _)
  obtain ⟨v'', result', hunlock', hcase⟩ := openReadUnlock_spec (L := L) env
    (v := v.beforeUnlock file header) file.opened hcontext hbytes hoffset
  obtain ⟨rfl, rfl⟩ := Prod.mk.inj (hunlock.symm.trans hunlock')
  have hplace : (v.beforeUnlock file header).ioHandle.encryptedVolumeOffset
      = header.encryptedVolumeStartSector * 512 := by
    show (header.encryptedVolumeStartSector : ℤ) * v.ioHandle.bytesPerSector = _
    rw [hbytes]
    rfl
  have hopen : internalVolumeOpenRead L env v file.opened =
      ({ v' with sectorDataVector := some (newSectorDataVector header) }, 1) := by
    rw [internalVolumeOpenRead, hreach.read]
    obtain ⟨hfails | hfails, -⟩ | ⟨-, -, heq⟩ := hcase
    · exact absurd hfails hresult
    · rw [hvector] at hfails
      cases hfails
    · rw [newSectorDataVector, ← hplace]
      exact heq
  simp only [volumeOpenFileIoHandle, hopen, hreach.handleFails]
  rw [if_neg (not_not.2 hreach.fileIoHandle), if_neg (not_not.2 hreach.accessFlags)]
  rfl

/-- After an open that succeeds the volume has the file handle. -/
theorem volumeOpenFileIoHandle_fileIoHandle {env : OpenEnvironment} {v : Volume}
    {file : FileIoHandle} {accessFlags : ℕ}
    (h : (volumeOpenFileIoHandle L env v file accessFlags).2.2 = 1) :
    (volumeOpenFileIoHandle L env v file accessFlags).1.fileIoHandle = some file.opened := by
  unfold volumeOpenFileIoHandle at h ⊢
  simp only at h ⊢
  split_ifs at h ⊢
  all_goals
    first
    | rfl
    | simp at h

/-! ## What unlocking and reading leave alone -/

/-- The fields that a caller sets by calls of their own: the file handle, with whether it is closed
along with the volume, and the password. -/
def Volume.callerFields (v : Volume) :
    (Option FileIoHandle × Bool) × Option (List UInt8) × ℕ × Bool :=
  ((v.fileIoHandle, v.fileIoHandleOpenedInLibrary), v.userPassword, v.userPasswordSize,
    v.userPasswordIsSet)

theorem internalVolumeUnlock_callerFields (env : KeysEnvironment) (v : Volume)
    (file : Option FileIoHandle) :
    (internalVolumeUnlock L env v file).1.callerFields = v.callerFields := by
  rw [internalVolumeUnlock_frame]
  rfl

theorem openReadHeader_callerFields (env : OpenEnvironment) (v : Volume) (file : FileIoHandle) :
    (openReadHeader L env v file).1.callerFields = v.callerFields := by
  unfold openReadHeader
  split_ifs
  · rfl
  · rfl
  · rfl
  · rfl
  · rfl
  · simp only
    split
    · rfl
    · split_ifs
      · rfl
      · rfl
      · rfl

/-- The reading of a volume leaves the file handle and the password as they are. -/
theorem internalVolumeOpenRead_callerFields (env : OpenEnvironment) (v : Volume)
    (file : FileIoHandle) :
    (internalVolumeOpenRead L env v file).1.callerFields = v.callerFields := by
  have hheader := openReadHeader_callerFields (L := L) env v file
  rw [internalVolumeOpenRead]
  cases hread : openReadHeader L env v file with
  | mk v₁ accepted =>
    rw [hread] at hheader
    cases accepted with
    | false => exact hheader
    | true =>
      have hunlock := internalVolumeUnlock_callerFields (L := L) env.keys v₁ (some file)
      simp only [openReadUnlock]
      generalize internalVolumeUnlock L env.keys v₁ (some file) = r at hunlock ⊢
      rw [← hheader, ← hunlock]
      split
      · rfl
      · split
        · rfl
        · rfl

end Libluksde
