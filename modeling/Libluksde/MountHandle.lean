import Libluksde.MountFileSystem
import Libluksde.Lib.Machine

/-!
# The mount handle

The mount handle of `luksdetools/mount_handle.c` in a build with narrow strings, as a machine
whose inputs are the calls that set, open and close it.  A string is given without its NUL.
-/

namespace Libluksde

open Lib.Bytes Lib.Machine

/-- `libuna_base16_stream_copy_to_byte_stream`: the bytes that a string of base16 digits stands
for, or `none` when the call returns -1. -/
structure Base16 where
  decode : List UInt8 → Option (List UInt8)
  /-- Two digits make a byte. -/
  length_decode : ∀ {string bytes : List UInt8}, decode string = some bytes →
    bytes.length = string.length / 2

/-- `mount_handle_t` -/
structure MountHandle where
  fileSystem : MountFileSystem
  keyData : Buffer 64
  keyDataSize : ℕ
  volumeOffset : ℤ
  password : Option (List UInt8)
  fileIoHandle : Option FileIoHandle
  unattendedMode : ℤ
deriving DecidableEq

/-- `mount_handle_initialize` -/
def mountHandleInitialize (unattendedMode : ℤ) : MountHandle where
  fileSystem := mountFileSystemInitialize
  keyData := .zero 64
  keyDataSize := 0
  volumeOffset := 0
  password := none
  fileIoHandle := none
  unattendedMode := unattendedMode

/-! ## Setting -/

/-- The loop of `mount_handle_system_string_copy_from_64_bit_in_decimal` on the characters from
`stringIndex` on. -/
def copyDecimalDigits (maximumStringIndex : ℕ) : List UInt8 → ℕ → UInt64 → Option UInt64
  | [], _, value64bit => some value64bit
  | character :: string, stringIndex, value64bit =>
    if stringIndex > maximumStringIndex then none
    else if 0x30 ≤ character ∧ character ≤ 0x39 then
      copyDecimalDigits maximumStringIndex string (stringIndex + 1)
        (value64bit * 10 + (character - 0x30).toUInt64)
    else none

/-- `mount_handle_system_string_copy_from_64_bit_in_decimal`: the value, or `none` when it
returns -1. -/
def mountHandleSystemStringCopyFrom64BitInDecimal : List UInt8 → Option UInt64
  | 0x2d :: string => (copyDecimalDigits 21 string 1 0).map (· * 0xffffffffffffffff)
  | 0x2b :: string => copyDecimalDigits 21 string 1 0
  | string => copyDecimalDigits 20 string 0 0

/-- `mount_handle_set_offset` -/
def mountHandleSetOffset (mountHandle : MountHandle) (string : List UInt8) : MountHandle × ℤ :=
  match mountHandleSystemStringCopyFrom64BitInDecimal string with
  | none => (mountHandle, -1)
  | some value64bit => ({ mountHandle with volumeOffset := off64 value64bit.toNat }, 1)

/-- `mount_handle_set_key` -/
def mountHandleSetKey (B : Base16) (mountHandle : MountHandle) (string : List UInt8) :
    MountHandle × ℤ :=
  let failed := ({ mountHandle with keyData := .zero 64, keyDataSize := 0 }, -1)
  if string.length ≠ 32 ∧ string.length ≠ 64 ∧ string.length ≠ 128 then failed
  else
    match B.decode string with
    | none => failed
    | some bytes =>
      ({ mountHandle with
          keyData := (Buffer.zero 64).write 0 bytes
          keyDataSize := string.length / 2 }, 1)

/-- `mount_handle_set_password` -/
def mountHandleSetPassword (mountHandle : MountHandle) (string : List UInt8) : MountHandle × ℤ :=
  ({ mountHandle with password := some string }, 1)

/-- `mount_handle_set_path_prefix` -/
def mountHandleSetPathPrefix (allocationFails : Bool) (mountHandle : MountHandle)
    (pathPrefix : List UInt8) (pathPrefixSize : ℕ) : MountHandle × ℤ :=
  let (fileSystem, result) := mountFileSystemSetPathPrefix allocationFails
    mountHandle.fileSystem pathPrefix pathPrefixSize
  ({ mountHandle with fileSystem := fileSystem }, result)

/-! ## Opening -/

/-- What the surroundings decide during `mount_handle_open`. -/
structure MountOpenEnvironment where
  /-- The file range of the named file from an offset on, not opened yet; `none` where one of the
  calls that set it up fails. -/
  fileRange : ℤ → Option FileIoHandle
  volumeInitializeFails : Bool := false
  setPassword : PasswordEnvironment := {}
  openVolume : OpenEnvironment := {}
  /-- The password that the user enters, fewer than 64 bytes, or `none` when the prompt fails. -/
  prompt : Option (List UInt8) := some []
  setPromptedPassword : PasswordEnvironment := {}
  unlock : KeysEnvironment := {}
  appendFails : Bool := false

variable (L : Libraries)

/-- The part of `mount_handle_open` that creates the volume and sets its key and its password. -/
def mountVolumeWithKeys (env : MountOpenEnvironment) (mountHandle : MountHandle) :
    Option Volume :=
  if env.volumeInitializeFails then none
  else
    let (volume, result) :=
      if mountHandle.keyDataSize > 0 then
        volumeSetKey volumeInitialize (mountHandle.keyData.bytes.take mountHandle.keyDataSize)
      else (volumeInitialize, 1)
    if result ≠ 1 then none
    else
      match mountHandle.password with
      | none => some volume
      | some password =>
        let (volume, result) := volumeSetUtf8Password L env.setPassword volume password
        if result ≠ 1 then none else some volume

/-- The part of `mount_handle_open` that asks for a password and unlocks the volume; it is reached
with a locked volume, and left with `none` on an error and when the volume stays locked. -/
def mountPromptAndUnlock (env : MountOpenEnvironment) (volume : Volume) : Option Volume :=
  match env.prompt with
  | none => none
  | some password =>
    let (volume, result) :=
      if password.length > 0 then
        volumeSetUtf8Password L env.setPromptedPassword volume password
      else (volume, 1)
    if result ≠ 1 then none
    else
      let (volume, result) := volumeUnlock L env.unlock volume
      if result = -1 ∨ result = 0 then none else some volume

/-- The part of `mount_handle_open` from the opening of the volume on. -/
def mountOpenVolume (env : MountOpenEnvironment) (mountHandle : MountHandle) (volume : Volume)
    (file : FileIoHandle) : Option (Volume × FileIoHandle) :=
  let (volume, file, result) := volumeOpenFileIoHandle L env.openVolume volume file 1
  if result ≠ 1 then none
  else if volumeIsLocked volume = 0 then some (volume, file)
  else if mountHandle.unattendedMode ≠ 0 then none
  else (mountPromptAndUnlock L env volume).map fun volume => (volume, file)

/-- `mount_handle_open`.  Behind `on_error` the new volume and its file are released, and the
handle is as it was. -/
def mountHandleOpen (env : MountOpenEnvironment) (mountHandle : MountHandle) : MountHandle × ℤ :=
  match env.fileRange mountHandle.volumeOffset with
  | none => (mountHandle, -1)
  | some file =>
    match mountVolumeWithKeys L env mountHandle with
    | none => (mountHandle, -1)
    | some volume =>
      match mountOpenVolume L env mountHandle volume file with
      | none => (mountHandle, -1)
      | some (volume, file) =>
        let (fileSystem, result) :=
          mountFileSystemAppendVolume env.appendFails mountHandle.fileSystem volume
        if result ≠ 1 then (mountHandle, -1)
        else ({ mountHandle with fileSystem := fileSystem, fileIoHandle := some file }, 1)

/-! ## Closing -/

/-- What the surroundings decide during `mount_handle_close`: for each volume what happens when it
is closed and whether it cannot be freed, and whether the file is not closed or not freed. -/
structure MountCloseEnvironment where
  volumeClose : ℕ → CloseEnvironment := fun _ => {}
  volumeFreeFails : ℕ → Bool := fun _ => false
  handleCloseFails : Bool := false
  handleFreeFails : Bool := false

/-- The loop of `mount_handle_close` from a volume index down; it ends before the index 0.  A
volume that is not closed without error is freed as well. -/
def mountCloseFrom (env : MountCloseEnvironment) :
    ℕ → List (Option Volume) → Option (List (Option Volume) × ℤ)
  | 0, volumes => some (volumes, 0)
  | volumeIndex + 1, volumes =>
    match volumes[volumeIndex + 1]? with
    | none => some (volumes, -1)
    | some none => none
    | some (some volume) =>
      let volumes := volumes.set (volumeIndex + 1) none
      if (volumeClose (env.volumeClose (volumeIndex + 1)) volume).2 ≠ 0 then some (volumes, -1)
      else if env.volumeFreeFails (volumeIndex + 1) then some (volumes, -1)
      else mountCloseFrom env volumeIndex volumes

/-- `mount_handle_close` -/
def mountHandleClose (env : MountCloseEnvironment) (mountHandle : MountHandle) :
    Option (MountHandle × ℤ) :=
  (mountCloseFrom env (mountHandle.fileSystem.volumes.length - 1)
    mountHandle.fileSystem.volumes).map fun (volumes, result) =>
      let mountHandle := { mountHandle with
        fileSystem := { mountHandle.fileSystem with volumes := volumes } }
      if result ≠ 0 then (mountHandle, -1)
      else if mountHandle.fileIoHandle = none ∨ env.handleCloseFails then (mountHandle, -1)
      else ({ mountHandle with fileIoHandle := none }, if env.handleFreeFails then -1 else 0)

/-- `mount_handle_signal_abort` -/
def mountHandleSignalAbort (mountHandle : MountHandle) : Option (MountHandle × ℤ) :=
  (mountFileSystemSignalAbort mountHandle.fileSystem).map fun (fileSystem, result) =>
    ({ mountHandle with fileSystem := fileSystem }, if result ≠ 1 then -1 else 1)

/-- `mount_handle_free`: the handle as it is when its memory is released, and the return value.
The array of volumes is released without the volumes. -/
def mountHandleFree (env : MountCloseEnvironment) (arrayFreeFails : Bool)
    (mountHandle : MountHandle) : Option (MountHandle × ℤ) :=
  let closed :=
    if mountHandle.fileIoHandle ≠ none then mountHandleClose env mountHandle
    else some (mountHandle, 0)
  closed.map fun (mountHandle, result) =>
    ({ mountHandle with keyData := mountHandle.keyData.write 0 (List.replicate 16 0) },
      if result ≠ 0 ∨ arrayFreeFails then -1 else 1)

/-! ## Histories -/

/-- A call to a mount handle. -/
inductive MountOperation
  | setKey (string : List UInt8)
  | setOffset (string : List UInt8)
  | setPassword (string : List UInt8)
  | setPathPrefix (allocationFails : Bool) (pathPrefix : List UInt8) (pathPrefixSize : ℕ)
  | openFile (env : MountOpenEnvironment)
  | signalAbort
  | close (env : MountCloseEnvironment)

/-- One call, with the state of the handle and the return value; `none` where the behaviour is
not defined. -/
def mountCall (B : Base16) : MountOperation → MountHandle → Option (MountHandle × ℤ)
  | .setKey string, mountHandle => some (mountHandleSetKey B mountHandle string)
  | .setOffset string, mountHandle => some (mountHandleSetOffset mountHandle string)
  | .setPassword string, mountHandle => some (mountHandleSetPassword mountHandle string)
  | .setPathPrefix allocationFails pathPrefix pathPrefixSize, mountHandle =>
    some (mountHandleSetPathPrefix allocationFails mountHandle pathPrefix pathPrefixSize)
  | .openFile env, mountHandle => some (mountHandleOpen L env mountHandle)
  | .signalAbort, mountHandle => mountHandleSignalAbort mountHandle
  | .close env, mountHandle => mountHandleClose env mountHandle

/-- One call on a handle whose state is known, or on one whose behaviour is not defined any more. -/
def mountStep (B : Base16) (operation : MountOperation) (mountHandle : Option MountHandle) :
    Option MountHandle × Option ℤ :=
  let result := mountHandle.bind (mountCall L B operation)
  (result.map Prod.fst, result.map Prod.snd)

/-- The handle after a history of calls on a new one. -/
def mountHandleAfter (B : Base16) (unattendedMode : ℤ) (history : List MountOperation) :
    Option MountHandle :=
  stateAfter (mountStep L B) (some (mountHandleInitialize unattendedMode)) history

end Libluksde
