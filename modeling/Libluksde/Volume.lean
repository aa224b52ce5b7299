import Libluksde.VolumeHeader
import Libluksde.SectorData
import Libluksde.Password
import Libluksde.Diffuser

/-!
# The volume

The volume object of `libluksde_volume.c`, its creation, and the functions that set a key or a
password, signal an abort or seek.  The model is that of a build without multi-thread support: there
is no lock, and so no call that fails to take or to release it.  Those failures are modelled for the
ownership of the handles only.

Every call gets an environment that says which of the calls to the system and to the linked
libraries fail; a default environment is one in which all succeed.
-/

namespace Libluksde

open Lib.Bytes

/-- `libluksde_io_handle_t` -/
structure IoHandle where
  bytesPerSector : ℕ
  volumeSize : ℕ
  encryptedVolumeOffset : ℤ
  encryptedVolumeSize : ℕ
  abort : Bool
deriving DecidableEq, Repr

/-- `libluksde_internal_volume_t` without its lock; pointers are `none` where they are `NULL`. -/
structure Volume where
  volumeHeader : Option VolumeHeader
  masterKey : Buffer 64
  masterKeySize : ℕ
  volumeMasterKeyIsSet : Bool
  userPassword : Option (List UInt8)
  userPasswordSize : ℕ
  userPasswordIsSet : Bool
  encryptionContext : Option EncryptionContext
  currentOffset : ℤ
  sectorDataVector : Option SectorDataVector
  fileIoHandle : Option FileIoHandle
  ioHandle : IoHandle
  fileIoHandleOpenedInLibrary : Bool
  isLocked : Bool
deriving DecidableEq

/-- `libluksde_io_handle_initialize` -/
def ioHandleInitialize : IoHandle := ⟨512, 0, 0, 0, false⟩

/-- `libluksde_io_handle_clear` -/
def ioHandleClear (ioHandle : IoHandle) : IoHandle := { ioHandle with bytesPerSector := 512 }

/-- `libluksde_volume_initialize` -/
def volumeInitialize : Volume where
  volumeHeader := none
  masterKey := .zero 64
  masterKeySize := 0
  volumeMasterKeyIsSet := false
  userPassword := none
  userPasswordSize := 0
  userPasswordIsSet := false
  encryptionContext := none
  currentOffset := 0
  sectorDataVector := none
  fileIoHandle := none
  ioHandle := ioHandleInitialize
  fileIoHandleOpenedInLibrary := false
  isLocked := true

/-- `libluksde_volume_signal_abort` -/
def volumeSignalAbort (volume : Volume) : Volume × ℤ :=
  ({ volume with ioHandle := { volume.ioHandle with abort := true } }, 1)

/-- `libluksde_volume_is_locked` -/
def volumeIsLocked (volume : Volume) : ℤ := if volume.isLocked then 1 else 0

/-! ## Keys -/

/-- `libluksde_volume_set_key` -/
def volumeSetKey (volume : Volume) (masterKey : List UInt8) : Volume × ℤ :=
  if masterKey.length ≠ 16 ∧ masterKey.length ≠ 32 ∧ masterKey.length ≠ 64 then (volume, -1)
  else
    ({ volume with
        masterKey := (Buffer.zero 64).write 0 masterKey
        masterKeySize := masterKey.length
        volumeMasterKeyIsSet := true }, 1)

/-- `libluksde_volume_set_key` leaves the key with zero bytes behind it. -/
theorem volumeSetKey_eq (v : Volume) {key : List UInt8}
    (h : key.length = 16 ∨ key.length = 32 ∨ key.length = 64) :
    volumeSetKey v key =
      ({ v with
          masterKey := (Buffer.zero 64).write 0 key
          masterKeySize := key.length
          volumeMasterKeyIsSet := true }, 1) := by
  rw [volumeSetKey]
  exact if_neg (by omega)

/-- A key of another size is rejected. -/
theorem volumeSetKey_rejected (v : Volume) {key : List UInt8}
    (h : ¬ (key.length = 16 ∨ key.length = 32 ∨ key.length = 64)) :
    volumeSetKey v key = (v, -1) := by
  rw [volumeSetKey]
  exact if_pos (by omega)

/-- `libluksde_volume_set_keys`: unlike `libluksde_volume_set_key` it clears half of the
buffer, and only for a key of 16 bytes. -/
def volumeSetKeys (volume : Volume) (masterKey : List UInt8) : Volume × ℤ :=
  if masterKey.length ≠ 16 ∧ masterKey.length ≠ 32 then (volume, -1)
  else
    let buffer :=
      if masterKey.length < 32 then volume.masterKey.write 0 (List.replicate 32 0)
      else volume.masterKey
    ({ volume with
        masterKey := buffer.write 0 masterKey
        masterKeySize := masterKey.length
        volumeMasterKeyIsSet := true }, 1)

theorem volumeSetKeys_rejected (v : Volume) {key : List UInt8}
    (h : ¬ (key.length = 16 ∨ key.length = 32)) : volumeSetKeys v key = (v, -1) := by
  rw [volumeSetKeys]
  exact if_pos (by omega)

/-! ## Passwords -/

/-- What fails during the setting of a password. -/
structure PasswordEnvironment where
  allocationFails : Bool := false
  copyFails : Bool := false

/-- The common body of `libluksde_volume_set_utf8_password` and
`libluksde_volume_set_utf16_password`, for the password as a byte stream, if the string can be
converted.  The old password is gone in any case, but the flag stays as it is on an error. -/
def setPassword (env : PasswordEnvironment) (volume : Volume) (stream : Option (List UInt8)) :
    Volume × ℤ :=
  let failed := ({ volume with userPassword := none, userPasswordSize := 0 }, -1)
  match stream with
  | none => failed
  | some stream =>
    let userPasswordSize := stream.length + 1
    if userPasswordSize > memoryMaximumAllocationSize then failed
    else if env.allocationFails then failed
    else if env.copyFails then failed
    else
      ({ volume with
          userPassword := some (stream ++ [0])
          userPasswordSize := userPasswordSize
          userPasswordIsSet := true }, 1)

variable (L : Libraries)

/-- `libluksde_volume_set_utf8_password` -/
def volumeSetUtf8Password (env : PasswordEnvironment) (volume : Volume) (string : List UInt8) :
    Volume × ℤ :=
  setPassword env volume (L.byteStreamFromUtf8 string)

/-- `libluksde_volume_set_utf16_password` -/
def volumeSetUtf16Password (env : PasswordEnvironment) (volume : Volume)
    (string : List UInt16) : Volume × ℤ :=
  setPassword env volume (L.byteStreamFromUtf16 string)

/-! ## Seeking -/

/-- `SEEK_SET`, `SEEK_CUR` and `SEEK_END` -/
def seekSet : ℕ := 0
@[inherit_doc seekSet] def seekCur : ℕ := 1
@[inherit_doc seekSet] def seekEnd : ℕ := 2

/-- `libluksde_internal_volume_seek_offset` -/
def internalVolumeSeekOffset (volume : Volume) (offset : ℤ) (whence : ℕ) : Volume × ℤ :=
  if volume.isLocked then (volume, -1)
  else if whence ≠ seekCur ∧ whence ≠ seekEnd ∧ whence ≠ seekSet then (volume, -1)
  else
    let offset :=
      if whence = seekCur then off64 (offset + volume.currentOffset)
      else if whence = seekEnd then off64 (offset + off64 volume.ioHandle.encryptedVolumeSize)
      else offset
    if offset < 0 then (volume, -1) else ({ volume with currentOffset := offset }, offset)

/-- `libluksde_volume_seek_offset` -/
def volumeSeekOffset (volume : Volume) (offset : ℤ) (whence : ℕ) : Volume × ℤ :=
  match volume.fileIoHandle with
  | none => (volume, -1)
  | some _ => internalVolumeSeekOffset volume offset whence

end Libluksde
