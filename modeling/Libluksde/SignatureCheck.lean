import Libluksde.HandleOwnership

/-!
# The check of the signature

`libluksde_check_volume_signature_file_io_handle` looks for the signature at the beginning of a
file.  The reader of the header accepts a second signature there, that of a backup header, of which
the check knows nothing.
-/

namespace Libluksde

open Lib.Bytes Lib.Machine

/-- What the surroundings decide during a check: `errorCloseFails` is for the closing behind
`on_error`. -/
structure SignatureEnvironment where
  isOpenFails : Bool := false
  handleOpenFails : Bool := false
  readFails : Bool := false
  handleCloseFails : Bool := false
  errorCloseFails : Bool := false

/-- `libluksde_check_volume_signature_file_io_handle`: the file handle, and the result. -/
def checkVolumeSignatureFileIoHandle (env : SignatureEnvironment) (file : FileIoHandle) :
    FileIoHandle × ℤ :=
  let onError := fun handle : FileIoHandle =>
    (if file.isOpen then handle else handle.close env.errorCloseFails, (-1 : ℤ))
  if env.isOpenFails then (file, -1)
  else if !file.isOpen && env.handleOpenFails then onError file
  else
    match readBufferAtOffset env.readFails (some file.opened) 6 0 with
    | none => onError file.opened
    | some signature =>
      if signature.length ≠ 6 then onError file.opened
      else
        let handle := if file.isOpen then file.opened else file.opened.close env.handleCloseFails
        if !file.isOpen && env.handleCloseFails then onError handle
        else (handle, if luksdeSignature = signature then 1 else 0)

/-- A volume object, in some state that a session leaves, can be opened with the file. -/
def OpensAsVolume (L : Libraries) (file : FileIoHandle) : Prop :=
  ∃ session env accessFlags,
    (volumeOpenFileIoHandle L env (volumeAfter L session) file accessFlags).2.2 = 1

/-- The check and the open agree on a file: where the file opens, a check in which nothing fails
finds the signature, and where a check finds none, the file does not open; and the check leaves the
file handle open exactly when it was. -/
structure SignatureAgrees (L : Libraries) (env : SignatureEnvironment) (file : FileIoHandle) :
    Prop where
  found : OpensAsVolume L file → (checkVolumeSignatureFileIoHandle {} file).2 = 1
  missing : (checkVolumeSignatureFileIoHandle env file).2 = 0 → ¬ OpensAsVolume L file
  isOpen : (checkVolumeSignatureFileIoHandle env file).1.isOpen = file.isOpen

/-- A file handle that the check opened cannot be closed behind `on_error`. -/
def LosesHandle (env : SignatureEnvironment) (file : FileIoHandle) : Prop :=
  file.isOpen = false ∧ env.isOpenFails = false ∧ env.handleOpenFails = false ∧
    (env.readFails = true ∨ file.image.length < 6 ∨ env.handleCloseFails = true) ∧
    env.errorCloseFails = true

variable {L : Libraries} {file : FileIoHandle}

/-! ## Which files open -/

/-- A header that is accepted begins with one of the two signatures. -/
theorem HeaderOf.signature {env : HeaderEnvironment} {header : VolumeHeader}
    (h : HeaderOf L env file header) :
    slice 0 6 file.image = luksdeSignature ∨
      slice 0 6 file.image = luksdeBackupVolumeHeaderSignature := by
  have hread := h.read
  rw [volumeHeaderReadFileIoHandle] at hread
  cases hdata : (if env.readFails then none else file.readBufferAtOffset 4096 0) with
  | none =>
    rw [hdata] at hread
    cases hread
  | some data =>
    rw [hdata] at hread
    simp only at hread
    split at hread
    · cases hread
    · have hslice : slice 0 4096 file.image = data := by
        rw [FileIoHandle.readBufferAtOffset] at hdata
        split_ifs at hdata
        exact Option.some.inj hdata
      rw [← slice_slice (show 0 + 6 ≤ 4096 by decide), hslice]
      exact (volumeHeaderReadData_inv hread).1.2.2

/-- A new volume without key and password is opened, but not unlocked. -/
theorem internalVolumeUnlock_new (env : KeysEnvironment) (file : FileIoHandle)
    (header : VolumeHeader) :
    internalVolumeUnlock L env (volumeInitialize.beforeUnlock file header) (some file.opened) =
      (volumeInitialize.beforeUnlock file header, 0) := rfl

/-- The files that open are those with a header that is accepted. -/
theorem opensAsVolume_iff :
    OpensAsVolume L file ↔ ∃ env header, HeaderOf L env file.opened header := by
  constructor
  · rintro ⟨session, env, accessFlags, hopens⟩
    have hwellformed := volumeAfter_wellformed (L := L) session
    have houtcome := volumeOpenFileIoHandle_outcome (L := L) env hwellformed.closed
      hwellformed.bytesPerSector file accessFlags
    rw [hopens] at houtcome
    generalize (volumeOpenFileIoHandle L env (volumeAfter L session) file accessFlags).1 = v'
      at houtcome
    cases houtcome with
    | opened hreach => exact ⟨env.header, _, hreach.headerOf⟩
  · rintro ⟨env, header, hheader⟩
    let openEnv : OpenEnvironment := { header := env }
    have hclosed : Closed volumeInitialize := ⟨rfl, rfl, rfl, rfl⟩
    have hreach : ReachesUnlock L openEnv volumeInitialize file accessFlagRead header := by
      refine ⟨rfl, by decide, ?_, hheader, ?_⟩
      · show (false || (!file.isOpen && false)) = false
        rw [Bool.and_false, Bool.or_false]
      · exact hheader.openReadHeader rfl rfl hclosed rfl
    refine ⟨[], openEnv, accessFlagRead, ?_⟩
    show (volumeOpenFileIoHandle L openEnv volumeInitialize file accessFlagRead).2.2 = 1
    rw [hreach.opened rfl rfl rfl (by decide) (internalVolumeUnlock_new {} file header)]

/-! ## What the check finds -/

/-- What a check reads. -/
theorem signature_read (readFails : Bool) :
    readBufferAtOffset readFails (some file.opened) 6 0 =
      if readFails then none else some (slice 0 6 file.image) := rfl

/-- A file of at least 6 bytes has a signature to compare. -/
theorem length_signature : (slice 0 6 file.image).length = 6 ↔ 6 ≤ file.image.length := by
  rw [length_slice]
  omega

/-- The check fails, or it compares the signature. -/
theorem checkVolumeSignature_result (env : SignatureEnvironment) (file : FileIoHandle) :
    (checkVolumeSignatureFileIoHandle env file).2 = -1 ∨
      (checkVolumeSignatureFileIoHandle env file).2 =
        if luksdeSignature = slice 0 6 file.image then 1 else 0 := by
  rw [checkVolumeSignatureFileIoHandle, signature_read]
  simp only
  split
  · exact Or.inl rfl
  · split
    · exact Or.inl rfl
    · cases env.readFails with
      | true => exact Or.inl rfl
      | false =>
        simp only [Bool.false_eq_true, if_false]
        split
        · exact Or.inl rfl
        · split
          · exact Or.inl rfl
          · exact Or.inr rfl

/-- A check in which nothing fails finds the signature where it is. -/
theorem checkVolumeSignature_found (hsignature : slice 0 6 file.image = luksdeSignature) :
    (checkVolumeSignatureFileIoHandle {} file).2 = 1 := by
  rw [checkVolumeSignatureFileIoHandle, signature_read, hsignature]
  simp only [Bool.and_false, Bool.false_eq_true, if_false]
  rfl

/-- A check leaves the file handle open that was not, exactly when it loses it. -/
theorem checkVolumeSignature_isOpen (env : SignatureEnvironment) (file : FileIoHandle) :
    (checkVolumeSignatureFileIoHandle env file).1.isOpen = file.isOpen ↔
      ¬ LosesHandle env file := by
  have hopened : ∀ fails, (file.opened.close fails).isOpen = fails := fun fails => Bool.true_and fails
  have hlength := @length_signature file
  rw [checkVolumeSignatureFileIoHandle, signature_read, LosesHandle]
  simp only
  cases hopen : file.isOpen with
  | true =>
    refine iff_of_true ?_ (fun hloses => absurd hloses.1 (by decide))
    -- no path closes it
    simp only [Bool.not_true, Bool.false_and, Bool.false_eq_true, if_false, if_true]
    split
    · exact hopen
    · cases env.readFails with
      | true => rfl
      | false =>
        simp only [Bool.false_eq_true, if_false]
        split
        · rfl
        · rfl
  | false =>
    simp only [Bool.not_false, Bool.true_and, Bool.false_eq_true, if_false, true_and]
    cases env.isOpenFails with
    | true => simp [hopen]
    | false =>
      cases env.handleOpenFails with
      | true => simp [FileIoHandle.close, hopen]
      | false =>
        cases env.readFails with
        | true => simp [hopened]
        | false =>
          by_cases hshort : file.image.length < 6
          · have hne : (slice 0 6 file.image).length ≠ 6 := by omega
            simp [hne, hopened, hshort]
          · have heq : (slice 0 6 file.image).length = 6 := by omega
            cases hclose : env.handleCloseFails with
            | true => simp [heq, hshort, FileIoHandle.close, FileIoHandle.opened]
            | false => simp [heq, hshort, hopened]

/-! ## Where the check and the open agree -/

theorem luksdeSignature_ne : luksdeSignature ≠ luksdeBackupVolumeHeaderSignature := by decide

/-- The check agrees with the open exactly where the file does not begin with the signature of a
backup header that is accepted otherwise, and the check does not lose the file handle. -/
theorem signatureAgrees_iff (L : Libraries) (env : SignatureEnvironment) (file : FileIoHandle) :
    SignatureAgrees L env file ↔
      ¬ (slice 0 6 file.image = luksdeBackupVolumeHeaderSignature ∧
          ∃ env header, HeaderOf L env file.opened header) ∧ ¬ LosesHandle env file := by
  constructor
  · rintro ⟨hfound, -, hopen⟩
    refine ⟨?_, (checkVolumeSignature_isOpen env file).1 hopen⟩
    rintro ⟨hbackup, hheader⟩
    have hone := hfound (opensAsVolume_iff.2 hheader)
    rcases checkVolumeSignature_result {} file with hfails | hcompares
    · rw [hfails] at hone
      exact absurd hone (by decide)
    · rw [hcompares, hbackup, if_neg luksdeSignature_ne] at hone
      exact absurd hone (by decide)
  · rintro ⟨hbackup, hloses⟩
    have hsignature : OpensAsVolume L file → slice 0 6 file.image = luksdeSignature := by
      intro hopens
      obtain ⟨headerEnv, header, hheader⟩ := opensAsVolume_iff.1 hopens
      rcases hheader.signature with hfirst | hsecond
      · exact hfirst
      · exact absurd ⟨hsecond, headerEnv, header, hheader⟩ hbackup
    refine ⟨fun hopens => checkVolumeSignature_found (hsignature hopens), fun hzero hopens => ?_,
      (checkVolumeSignature_isOpen env file).2 hloses⟩
    rcases checkVolumeSignature_result env file with hfails | hcompares
    · rw [hfails] at hzero
      exact absurd hzero (by decide)
    · rw [hcompares, hsignature hopens, if_pos rfl] at hzero
      exact absurd hzero (by decide)

/-- The small volume with the signature of a backup header. -/
def backupFile : FileIoHandle where
  image := luksdeBackupVolumeHeaderSignature ++ smallFile.image.drop 6
  isOpen := true
  length_lt := by
    have hlength := smallFile.length_lt
    rw [List.length_append, List.length_drop, show luksdeBackupVolumeHeaderSignature.length = 6 from rfl]
    omega

/-- It opens, but the check does not find the signature. -/
theorem backupFile_not_found :
    ¬ SignatureAgrees smallLibraries {} backupFile ∧
      (checkVolumeSignatureFileIoHandle {} backupFile).2 = 0 ∧
      (volumeOpenFileIoHandle smallLibraries {} (volumeAfter smallLibraries [.setKey smallKey])
        backupFile 1).2.2 = 1 := by
  have hzero : (checkVolumeSignatureFileIoHandle {} backupFile).2 = 0 := by decide +kernel
  have hopens : (volumeOpenFileIoHandle smallLibraries {}
      (volumeAfter smallLibraries [.setKey smallKey]) backupFile 1).2.2 = 1 := by decide +kernel
  refine ⟨fun hagrees => ?_, hzero, hopens⟩
  exact hagrees.missing hzero ⟨[.setKey smallKey], {}, 1, hopens⟩

end Libluksde
