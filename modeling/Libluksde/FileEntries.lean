import Libluksde.MountEntries
import Libluksde.MountHandle
import Libluksde.VolumeRead
import Libluksde.Lib.Heap

/-!
# The file entries of a mounted image

The functions of `luksdetools/mount_file_entry.c`.  The callbacks make file entries and release
them, so that file entries are cells of a heap; a function that follows a pointer to released
memory has no defined behaviour, and the result `none`.
-/

namespace Libluksde

open Lib (Heap)
open Lib.Bytes Lib.Stores

/-- `mount_file_entry_t` in memory.  Its file system is always the one of the mount handle, and
its volume is given by the index in the array, or `none` for `NULL`. -/
structure FileEntry where
  name : List UInt8
  nameSize : ℕ
  volumeIndex : Option ℕ
deriving DecidableEq

/-- The cell of a file entry that the lookup of a path has made. -/
def MountFileEntry.cell (fileEntry : MountFileEntry) : FileEntry :=
  ⟨fileEntry.name, fileEntry.nameSize, fileEntry.volumeIndex⟩

/-- What the callbacks work on: the mount handle, the time at which its file system was made, the
user of the process, and the file entries in memory. -/
structure Mount where
  mountHandle : MountHandle
  mountedTimestamp : UInt64
  effectiveUserId : ℕ
  effectiveGroupId : ℕ
  fileEntries : Heap FileEntry

def Mount.fileSystem (mount : Mount) : MountFileSystem := mount.mountHandle.fileSystem

/-- The volume at an index of the array, or `none` when its memory is released. -/
def Mount.volume? (mount : Mount) (volumeIndex : ℕ) : Option Volume :=
  mount.fileSystem.volumes[volumeIndex]?.join

/-- The state with other volumes in the array. -/
def Mount.withVolumes (mount : Mount) (volumes : List (Option Volume)) : Mount :=
  { mount with
    mountHandle := { mount.mountHandle with
      fileSystem := { mount.fileSystem with volumes := volumes } } }

/-- The state after a call to the volume at an index. -/
def Mount.setVolume (mount : Mount) (volumeIndex : ℕ) (volume : Volume) : Mount :=
  mount.withVolumes (mount.fileSystem.volumes.set volumeIndex (some volume))

/-- The state with a new file entry, and the pointer to it. -/
def Mount.allocate (mount : Mount) (fileEntry : FileEntry) : Mount × ℕ :=
  let (fileEntries, pointer) := mount.fileEntries.allocate fileEntry
  ({ mount with fileEntries := fileEntries }, pointer)

/-- `mount_file_entry_free`, with a pointer that is not `NULL`. -/
def mountFileEntryFree (mount : Mount) (pointer : ℕ) : Option Mount :=
  (mount.fileEntries.get? pointer).map fun _ =>
    { mount with fileEntries := mount.fileEntries.release pointer }

/-! ## The file system -/

/-- `mount_file_system_get_mounted_timestamp` -/
def mountFileSystemGetMountedTimestamp (mount : Mount) : UInt64 := mount.mountedTimestamp

/-- `mount_file_system_get_number_of_volumes` -/
def mountFileSystemGetNumberOfVolumes (fileSystem : MountFileSystem) : ℤ :=
  fileSystem.volumes.length

/-- `mount_file_system_get_volume_by_index`: the index of the volume, or `none` when it
returns -1. -/
def mountFileSystemGetVolumeByIndex (fileSystem : MountFileSystem) (volumeIndex : ℤ) : Option ℕ :=
  libcdataArrayGetEntryByIndex fileSystem.volumes volumeIndex

/-! ## One file entry -/

/-- `mount_file_entry_get_access_time` -/
def mountFileEntryGetAccessTime (mount : Mount) : UInt64 := mountFileSystemGetMountedTimestamp mount

/-- `mount_file_entry_get_modification_time` -/
def mountFileEntryGetModificationTime (mount : Mount) : UInt64 :=
  mountFileSystemGetMountedTimestamp mount

/-- `mount_file_entry_get_inode_change_time` -/
def mountFileEntryGetInodeChangeTime (mount : Mount) : UInt64 :=
  mountFileSystemGetMountedTimestamp mount

/-- `mount_file_entry_get_file_mode` -/
def mountFileEntryGetFileMode (fileEntry : FileEntry) : ℕ :=
  if fileEntry.volumeIndex = none then 0x4000 ||| 0o555 else 0x8000 ||| 0o444

/-- `mount_file_entry_get_size`, which returns 1 where it has a behaviour. -/
def mountFileEntryGetSize (mount : Mount) (fileEntry : FileEntry) : Option ℕ :=
  match fileEntry.volumeIndex with
  | none => some 0
  | some volumeIndex =>
    -- `libluksde_volume_get_size`
    (mount.volume? volumeIndex).map fun volume => volume.ioHandle.encryptedVolumeSize

/-- `mount_file_entry_get_name_size` -/
def mountFileEntryGetNameSize (fileEntry : FileEntry) : ℕ := fileEntry.nameSize

/-- `mount_file_entry_get_name`: the string, or `none` when it returns -1. -/
def mountFileEntryGetName (fileEntry : FileEntry) (stringSize : ℕ) : Option (List UInt8) :=
  if stringSize > ssizeMax then none
  else if stringSize < fileEntry.nameSize then none
  else some ((fileEntry.name.take fileEntry.nameSize).set (fileEntry.nameSize - 1) 0)

/-- `mount_file_entry_get_parent_file_entry` -/
def mountFileEntryGetParentFileEntry (allocationFails : Bool) (mount : Mount)
    (fileEntry : FileEntry) : Option FileEntry × ℤ :=
  match fileEntry.volumeIndex with
  | none => (none, 0)
  | some _ =>
    -- the name is the empty string
    match (mountFileEntryInitialize allocationFails none mount.fileSystem 0 0 none).run
      (fun _ => 0) with
    | (some parent, 1) => (some parent.cell, 1)
    | _ => (none, -1)

/-- `mount_file_entry_get_number_of_sub_file_entries`, or `none` when it returns -1. -/
def mountFileEntryGetNumberOfSubFileEntries (mount : Mount) (fileEntry : FileEntry) : Option ℤ :=
  match fileEntry.volumeIndex with
  | none =>
    let numberOfVolumes := mountFileSystemGetNumberOfVolumes mount.fileSystem
    if numberOfVolumes < 0 ∨ numberOfVolumes > 999 then none else some numberOfVolumes
  | some _ => some 0

/-- `mount_file_entry_get_sub_file_entry_by_index`, with the contents of `path` before it is
written, or `none` when it returns -1. -/
def mountFileEntryGetSubFileEntryByIndex (allocationFails : Bool) (path : Buffer 32)
    (mount : Mount) (fileEntry : FileEntry) (subFileEntryIndex : ℤ) : Option FileEntry :=
  match mountFileEntryGetNumberOfSubFileEntries mount fileEntry with
  | none => none
  | some numberOfSubFileEntries =>
    if subFileEntryIndex < 0 ∨ subFileEntryIndex ≥ numberOfSubFileEntries then none
    else
      match mountFileSystemGetPathFromVolumeIndex mount.fileSystem subFileEntryIndex 32 with
      | none => none
      | some stores =>
        match mountFileSystemGetVolumeByIndex mount.fileSystem subFileEntryIndex with
        | none => none
        | some volumeIndex =>
          let path := store path.bytes stores
          let pathLength := (systemString path).length
          match (mountFileEntryInitialize allocationFails none mount.fileSystem 1
            (size64 (pathLength - 1)) (some volumeIndex)).run (fun i => path.getD i 0) with
          | (some subFileEntry, 1) => some subFileEntry.cell
          | _ => none

variable (L : Libraries)

/-- `mount_file_entry_read_buffer_at_offset`.  Without a volume the read is an error of the
library. -/
def mountFileEntryReadBufferAtOffset (env : ReadEnvironment) (mount : Mount)
    (fileEntry : FileEntry) (bufferSize : ℕ) (offset : ℤ) : Option (Mount × ReadResult) :=
  match fileEntry.volumeIndex with
  | none => some (mount, .failed)
  | some volumeIndex =>
    (mount.volume? volumeIndex).map fun volume =>
      let (volume, result) := volumeReadBufferAtOffset L env volume bufferSize offset
      (mount.setVolume volumeIndex volume, if result.count < 0 then .failed else result)

end Libluksde
