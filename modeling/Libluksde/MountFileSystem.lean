import Libluksde.VolumeOpen

/-!
# The mount file system

The volumes that a mounted image shows, of `luksdetools/mount_file_system.c`.  The array holds
pointers: an entry stays where it is when the memory of its volume is released, and a function
that follows it afterwards has no defined behaviour.  Such a call has the result `none`.
-/

namespace Libluksde

/-- `mount_file_system_t`.  The path prefix is the buffer with its last byte, a NUL; an entry of
the array of volumes is `none` once the memory of the volume is released. -/
structure MountFileSystem where
  pathPrefix : Option (List UInt8)
  pathPrefixSize : ℕ
  volumes : List (Option Volume)
deriving DecidableEq

/-- `mount_file_system_initialize` -/
def mountFileSystemInitialize : MountFileSystem := ⟨none, 0, []⟩

/-- `mount_file_system_set_path_prefix`, with the bytes that `pathPrefix` points to up to its
NUL. -/
def mountFileSystemSetPathPrefix (allocationFails : Bool) (fileSystem : MountFileSystem)
    (pathPrefix : List UInt8) (pathPrefixSize : ℕ) : MountFileSystem × ℤ :=
  if fileSystem.pathPrefix ≠ none then (fileSystem, -1)
  else if pathPrefixSize = 0 ∨ pathPrefixSize > 2 ^ 63 - 1 ∨ allocationFails then
    ({ fileSystem with pathPrefixSize := 0 }, -1)
  else
    ({ fileSystem with
        -- the rest of the buffer is filled with NUL bytes
        pathPrefix := some (pathPrefix.takeD (pathPrefixSize - 1) 0 ++ [0])
        pathPrefixSize := pathPrefixSize }, 1)

/-- `mount_file_system_append_volume` -/
def mountFileSystemAppendVolume (appendFails : Bool) (fileSystem : MountFileSystem)
    (volume : Volume) : MountFileSystem × ℤ :=
  if appendFails then (fileSystem, -1)
  else ({ fileSystem with volumes := fileSystem.volumes ++ [some volume] }, 1)

/-- The loop of `mount_file_system_signal_abort` from a volume index down; it ends before the
index 0. -/
def signalAbortFrom : ℕ → List (Option Volume) → Option (List (Option Volume) × ℤ)
  | 0, volumes => some (volumes, 1)
  | volumeIndex + 1, volumes =>
    match volumes[volumeIndex + 1]? with
    | none => some (volumes, -1)
    | some none => none
    | some (some volume) =>
      match volumeSignalAbort volume with
      | (volume, result) =>
        let volumes := volumes.set (volumeIndex + 1) (some volume)
        if result ≠ 1 then some (volumes, -1) else signalAbortFrom volumeIndex volumes

/-- `mount_file_system_signal_abort` -/
def mountFileSystemSignalAbort (fileSystem : MountFileSystem) : Option (MountFileSystem × ℤ) :=
  (signalAbortFrom (fileSystem.volumes.length - 1) fileSystem.volumes).map fun result =>
    ({ fileSystem with volumes := result.1 }, result.2)

end Libluksde
