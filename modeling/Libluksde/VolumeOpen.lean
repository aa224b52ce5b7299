import Libluksde.OpenReadKeys

/-!
# Opening and closing

`libluksde_internal_volume_open_read`, `libluksde_volume_open_file_io_handle` and
`libluksde_volume_close`.
-/

namespace Libluksde

open Lib.Bytes

/-- What the surroundings decide during an open. -/
structure OpenEnvironment where
  isOpenFails : Bool := false
  handleOpenFails : Bool := false
  sizeFails : Bool := false
  headerInitializeFails : Bool := false
  header : HeaderEnvironment := {}
  keys : KeysEnvironment := {}
  vectorFails : Bool := false

/-- What the surroundings decide during a close. -/
structure CloseEnvironment where
  handleCloseFails : Bool := false
  headerFreeFails : Bool := false
  vectorFreeFails : Bool := false
  contextFreeFails : Bool := false

variable (L : Libraries)

/-- The clean-up behind `on_error` of `libluksde_internal_volume_open_read`. -/
def Volume.openReadOnError (volume : Volume) : Volume :=
  { volume with sectorDataVector := none, encryptionContext := none, volumeHeader := none }

/-- The volume once its header is read: the header, the master key size and the place of the
encrypted data. -/
def Volume.withHeader (volume : Volume) (header : VolumeHeader) : Volume :=
  let encryptedVolumeOffset := header.encryptedVolumeStartSector * volume.ioHandle.bytesPerSector
  { volume with
    volumeHeader := some header
    masterKeySize := header.masterKeySize.toNat
    ioHandle := { volume.ioHandle with
      encryptedVolumeOffset := encryptedVolumeOffset
      encryptedVolumeSize := volume.ioHandle.volumeSize - encryptedVolumeOffset } }

/-- The part of `libluksde_internal_volume_open_read` before the unlocking: the volume, and
whether no error was met. -/
def openReadHeader (env : OpenEnvironment) (volume : Volume) (file : FileIoHandle) :
    Volume × Bool :=
  if volume.ioHandle.bytesPerSector = 0 then (volume, false)
  else if volume.volumeHeader ≠ none then (volume, false)
  else if volume.sectorDataVector ≠ none then (volume, false)
  else if env.sizeFails then (volume.openReadOnError, false)
  else
    let volume := { volume with ioHandle := { volume.ioHandle with
      volumeSize := file.image.length } }
    if env.headerInitializeFails then (volume.openReadOnError, false)
    else
      match volumeHeaderReadFileIoHandle L env.header .cleared file 0 with
      | (_, false) => (volume.openReadOnError, false)
      | (header, true) =>
        if header.masterKeySize = 0 ∨ header.masterKeySize > 64 then
          (volume.openReadOnError, false)
        else if header.encryptedVolumeStartSector ≥
            volume.ioHandle.volumeSize / volume.ioHandle.bytesPerSector then
          ({ volume with masterKeySize := header.masterKeySize.toNat }.openReadOnError, false)
        else (volume.withHeader header, true)

/-- The part of `libluksde_internal_volume_open_read` behind the reading of the header:
unlocking and the creation of the sector data vector. -/
def openReadUnlock (env : OpenEnvironment) (volume : Volume) (file : FileIoHandle) : Volume × ℤ :=
  match internalVolumeUnlock L env.keys volume (some file) with
  | (volume, result) =>
    if result = -1 then (volume.openReadOnError, -1)
    else
      match sectorDataVectorInitialize env.vectorFails volume.ioHandle.bytesPerSector
        volume.ioHandle.encryptedVolumeOffset with
      | none => (volume.openReadOnError, -1)
      | some vector => ({ volume with sectorDataVector := some vector }, 1)

/-- `libluksde_internal_volume_open_read` -/
def internalVolumeOpenRead (env : OpenEnvironment) (volume : Volume) (file : FileIoHandle) :
    Volume × ℤ :=
  match openReadHeader L env volume file with
  | (volume, false) => (volume, -1)
  | (volume, true) => openReadUnlock L env volume file

/-- The checks of `libluksde_volume_open_file_io_handle` on the access flags. -/
def AccessFlagsSupported (accessFlags : ℕ) : Prop :=
  ¬ (accessFlags &&& accessFlagRead = 0 ∧ accessFlags &&& accessFlagWrite = 0) ∧
    accessFlags &&& accessFlagWrite = 0

instance (accessFlags : ℕ) : Decidable (AccessFlagsSupported accessFlags) :=
  inferInstanceAs (Decidable (_ ∧ _))

/-- Making sure that the file handle is open fails. -/
def OpenEnvironment.handleFails (env : OpenEnvironment) (file : FileIoHandle) : Bool :=
  env.isOpenFails || (!file.isOpen && env.handleOpenFails)

/-- A file handle once it is open. -/
def FileIoHandle.opened (file : FileIoHandle) : FileIoHandle := { file with isOpen := true }

/-- `libluksde_volume_open_file_io_handle`: the volume, the file handle of the caller, and the
result. -/
def volumeOpenFileIoHandle (env : OpenEnvironment) (volume : Volume) (file : FileIoHandle)
    (accessFlags : ℕ) : Volume × FileIoHandle × ℤ :=
  let closed := { file with isOpen := false }
  if volume.fileIoHandle ≠ none then (volume, file, -1)
  else if ¬ AccessFlagsSupported accessFlags then (volume, file, -1)
  else if env.handleFails file then (volume, closed, -1)
  else
    match internalVolumeOpenRead L env volume file.opened with
    | (volume, result) =>
      if result ≠ 1 then
        -- a handle that was open is closed, and one that was opened here stays open
        (volume, if file.isOpen then closed else file.opened, -1)
      else
        ({ volume with
            fileIoHandle := some file.opened
            fileIoHandleOpenedInLibrary := !file.isOpen }, file.opened, 1)

/-- `libluksde_volume_close` -/
def volumeClose (env : CloseEnvironment) (volume : Volume) : Volume × ℤ :=
  match volume.fileIoHandle with
  | none => (volume, -1)
  | some _ =>
    let result :=
      if (volume.fileIoHandleOpenedInLibrary ∧ env.handleCloseFails) ∨
          (volume.volumeHeader ≠ none ∧ env.headerFreeFails) ∨
          (volume.sectorDataVector ≠ none ∧ env.vectorFreeFails) ∨
          (volume.encryptionContext ≠ none ∧ env.contextFreeFails) then -1
      else 0
    ({ volume with
        fileIoHandleOpenedInLibrary := false
        fileIoHandle := none
        currentOffset := 0
        isLocked := true
        ioHandle := ioHandleClear volume.ioHandle
        volumeHeader := none
        masterKey := volume.masterKey.write 0 (List.replicate 32 0)
        sectorDataVector := none
        encryptionContext := none }, result)

/-- The volume behind a close, for all branches of `volumeClose` at once; `volumeClose_cases` says
where it is left. -/
def Volume.afterClose (volume : Volume) : Volume :=
  { volume with
    fileIoHandleOpenedInLibrary := false
    fileIoHandle := none
    currentOffset := 0
    isLocked := true
    ioHandle := ioHandleClear volume.ioHandle
    volumeHeader := none
    masterKey := volume.masterKey.write 0 (List.replicate 32 0)
    sectorDataVector := none
    encryptionContext := none }

/-- A close of a volume that is not open is an error; every other one leaves the same, also where it
fails. -/
theorem volumeClose_cases (env : CloseEnvironment) (volume : Volume) :
    (volume.fileIoHandle = none ∧ volumeClose env volume = (volume, -1)) ∨
    (volume.fileIoHandle ≠ none ∧ ∃ result, (result = 0 ∨ result = -1) ∧
      volumeClose env volume = (volume.afterClose, result)) := by
  rw [volumeClose]
  cases volume.fileIoHandle with
  | none => exact Or.inl ⟨rfl, rfl⟩
  | some file =>
    refine Or.inr ⟨Option.some_ne_none file, _, ?_, rfl⟩
    split
    · exact Or.inr rfl
    · exact Or.inl rfl

end Libluksde
