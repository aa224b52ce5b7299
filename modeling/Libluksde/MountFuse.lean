import Libluksde.FileEntries
import Libluksde.Lib.FileServer

/-!
# The callbacks of the mount tool

The functions of `luksdetools/mount_fuse.c`, and the loop of `luksdemount` in which they are called,
one after the other.  The loop keeps the file information of each file and directory that is open,
hands it to the callbacks, and drops it when the file or directory is released; it answers by itself
where nothing is open under a handle.
-/

namespace Libluksde

open Lib (Heap)
open Lib.Bytes Lib.Machine
open Lib.FileServer (Kind)

/-! ## Error numbers -/

def enoent : ℤ := 2
def eio : ℤ := 5
def eacces : ℤ := 13
def einval : ℤ := 22

/-- `INT_MAX` -/
def intMax : ℕ := 2 ^ 31 - 1

/-! ## Stat info -/

/-- What the callbacks set in `struct stat`. -/
structure StatInfo where
  size : ℕ
  mode : ℕ
  nlink : ℕ
  uid : ℕ
  gid : ℕ
  atime : ℤ
  ctime : ℤ
  mtime : ℤ
deriving DecidableEq

/-- `mount_fuse_set_stat_info`, or `none` when it returns -1. -/
def mountFuseSetStatInfo (mount : Mount) (size fileMode : ℕ)
    (accessTime inodeChangeTime modificationTime : ℤ) : Option StatInfo :=
  if size > 2 ^ 63 - 1 then none
  else
    some
      { size := size
        mode := fileMode
        nlink := if fileMode &&& 0x4000 ≠ 0 then 2 else 1
        uid := mount.effectiveUserId
        gid := mount.effectiveGroupId
        -- a division of C, towards zero
        atime := accessTime.tdiv 1000000000
        ctime := inodeChangeTime.tdiv 1000000000
        mtime := modificationTime.tdiv 1000000000 }

/-- The part of `mount_fuse_filldir` and of `mount_fuse_getattr` that tells about a file entry. -/
def statOfFileEntry (mount : Mount) (fileEntry : FileEntry) : Option (Option StatInfo) :=
  (mountFileEntryGetSize mount fileEntry).map fun fileSize =>
    mountFuseSetStatInfo mount fileSize (mountFileEntryGetFileMode fileEntry)
      (off64 (mountFileEntryGetAccessTime mount).toNat)
      (off64 (mountFileEntryGetInodeChangeTime mount).toNat)
      (off64 (mountFileEntryGetModificationTime mount).toNat)

/-! ## Reading a directory -/

/-- A name that is filled in, with its stat info. -/
structure DirectoryEntry where
  name : List UInt8
  statInfo : StatInfo
deriving DecidableEq

/-- `mount_fuse_filldir`, on the directory entries that were filled in before. -/
def mountFuseFilldir (fillerFails : Bool) (mount : Mount) (buffer : List DirectoryEntry)
    (name : List UInt8) (fileEntry : Option FileEntry) : Option (List DirectoryEntry × ℤ) :=
  let statInfo :=
    match fileEntry with
    | none => some (mountFuseSetStatInfo mount 0 0 0 0 0)
    | some fileEntry => statOfFileEntry mount fileEntry
  statInfo.map fun statInfo =>
    match statInfo with
    | none => (buffer, -1)
    | some statInfo =>
      if fillerFails then (buffer, -1) else (buffer ++ [⟨systemString name, statInfo⟩], 1)

/-- What the surroundings decide while a directory is read: which memory there is not, with the
error number, the calls to the filler that fail, and what is on the stack before the paths of the
volumes are written there. -/
structure ReaddirEnvironment where
  statInfoFails : Bool := false
  errno : ℤ := 12
  parentFails : Bool := false
  subFileEntryFails : ℕ → Bool := fun _ => false
  nameFails : ℕ → Bool := fun _ => false
  fillerFails : ℕ → Bool := fun _ => false
  path : ℕ → Buffer 32 := fun _ => .zero 32

/-- The part of `mount_fuse_readdir` for the parent, with the return value of the last call. -/
def readdirParent (env : ReaddirEnvironment) (mount : Mount) (pointer : ℕ)
    (buffer : List DirectoryEntry) : Option (Mount × List DirectoryEntry × ℤ) := do
  let fileEntry ← mount.fileEntries.get? pointer
  let (parentFileEntry, result) :=
    mountFileEntryGetParentFileEntry env.parentFails mount fileEntry
  if result = -1 then pure (mount, buffer, -1)
  else
    match parentFileEntry with
    | none => do
      let (buffer, result) ← mountFuseFilldir (env.fillerFails 1) mount buffer [0x2e, 0x2e, 0] none
      pure (mount, buffer, result)
    | some parent => do
      let (mount, parentFileEntry) := mount.allocate parent
      let (buffer, result) ←
        mountFuseFilldir (env.fillerFails 1) mount buffer [0x2e, 0x2e, 0] (some parent)
      let mount ← mountFileEntryFree mount parentFileEntry
      pure (mount, buffer, result)

/-- The part of the loop of `mount_fuse_readdir` that fills in the name of a sub file entry. -/
def readdirName (env : ReaddirEnvironment) (mount : Mount) (subFileEntryIndex : ℕ)
    (buffer : List DirectoryEntry) (subFileEntry : FileEntry) :
    Option (List DirectoryEntry × ℤ) :=
  let name :=
    if env.nameFails subFileEntryIndex then none
    else mountFileEntryGetName subFileEntry (mountFileEntryGetNameSize subFileEntry)
  match name with
  | none => some (buffer, -1)
  | some name =>
    mountFuseFilldir (env.fillerFails (subFileEntryIndex + 2)) mount buffer name
      (some subFileEntry)

/-- One round of the loop of `mount_fuse_readdir`.  The sub file entry is released when the name
was filled in and behind `on_error`. -/
def readdirSubFileEntry (env : ReaddirEnvironment) (mount : Mount) (pointer subFileEntryIndex : ℕ)
    (buffer : List DirectoryEntry) : Option (Mount × List DirectoryEntry × ℤ) := do
  let fileEntry ← mount.fileEntries.get? pointer
  match mountFileEntryGetSubFileEntryByIndex (env.subFileEntryFails subFileEntryIndex)
    (env.path subFileEntryIndex) mount fileEntry subFileEntryIndex with
  | none => pure (mount, buffer, -1)
  | some sub => do
    let (mount, subFileEntry) := mount.allocate sub
    let (buffer, result) ← readdirName env mount subFileEntryIndex buffer sub
    let mount ← mountFileEntryFree mount subFileEntry
    pure (mount, buffer, result)

/-- The loop of `mount_fuse_readdir`, with so many sub file entries left. -/
def readdirLoop (env : ReaddirEnvironment) (pointer : ℕ) :
    (left subFileEntryIndex : ℕ) → Mount → List DirectoryEntry →
      Option (Mount × List DirectoryEntry × ℤ)
  | 0, _, mount, buffer => some (mount, buffer, 0)
  | left + 1, subFileEntryIndex, mount, buffer => do
    let (mount, buffer, result) ← readdirSubFileEntry env mount pointer subFileEntryIndex buffer
    if result ≠ 1 then pure (mount, buffer, -eio)
    else readdirLoop env pointer left (subFileEntryIndex + 1) mount buffer

/-- The part of `mount_fuse_readdir` behind its checks. -/
def readdirFileEntry (env : ReaddirEnvironment) (mount : Mount) (pointer : ℕ) :
    Option (Mount × List DirectoryEntry × ℤ) := do
  let fileEntry ← mount.fileEntries.get? pointer
  let (buffer, result) ←
    mountFuseFilldir (env.fillerFails 0) mount [] [0x2e, 0] (some fileEntry)
  if result ≠ 1 then pure (mount, buffer, -eio)
  else
    let (mount, buffer, result) ← readdirParent env mount pointer buffer
    if result ≠ 1 then pure (mount, buffer, -eio)
    else
      match mountFileEntryGetNumberOfSubFileEntries mount fileEntry with
      | none => pure (mount, buffer, -eio)
      | some numberOfSubFileEntries =>
        readdirLoop env pointer numberOfSubFileEntries.toNat 0 mount buffer

/-- `struct fuse_file_info`, with the pointer to the file entry. -/
structure FileInfo where
  fh : Option ℕ
  flags : ℕ

/-- `mount_fuse_readdir`: the directory entries that were filled in, and the return value. -/
def mountFuseReaddir (env : ReaddirEnvironment) (mount : Mount) (fileInfo : FileInfo) :
    Option (Mount × List DirectoryEntry × ℤ) :=
  match fileInfo.fh with
  | none => some (mount, [], -einval)
  | some pointer =>
    if env.statInfoFails then some (mount, [], env.errno)
    else readdirFileEntry env mount pointer

/-! ## Opening -/

/-- A string of narrow characters, without its NUL. -/
def NarrowString : Type := { s : List UInt8 // (0 : UInt8) ∉ s }

variable (C : Libcpath)

/-- `mount_handle_get_file_entry_by_path` for a string in memory, with the new pointer. -/
def Mount.fileEntryByPath (allocationFails : Bool) (mount : Mount) (path : NarrowString) :
    Mount × Option ℕ × ℤ :=
  match (mountHandleGetFileEntryByPath C (path.1.length + 1) allocationFails mount.fileSystem
    none).run (fun i => (path.1 ++ [0]).getD i 0) with
  | (none, result) => (mount, none, result)
  | (some fileEntry, result) =>
    let (mount, pointer) := mount.allocate fileEntry.cell
    (mount, some pointer, result)

/-- `mount_fuse_open` -/
def mountFuseOpen (allocationFails : Bool) (mount : Mount) (path : NarrowString)
    (fileInfo : FileInfo) : Mount × FileInfo × ℤ :=
  if fileInfo.fh ≠ none then (mount, fileInfo, -einval)
  else if fileInfo.flags &&& 3 ≠ 0 then (mount, fileInfo, -eacces)
  else
    let (mount, fh, result) := mount.fileEntryByPath C allocationFails path
    (mount, { fileInfo with fh := fh }, if result ≠ 1 then -enoent else 0)

/-- `mount_fuse_opendir` -/
def mountFuseOpendir (allocationFails : Bool) (mount : Mount) (path : NarrowString)
    (fileInfo : FileInfo) : Mount × FileInfo × ℤ :=
  if fileInfo.fh ≠ none then (mount, fileInfo, -einval)
  else
    let (mount, fh, result) := mount.fileEntryByPath C allocationFails path
    (mount, { fileInfo with fh := fh }, if result ≠ 1 then -enoent else 0)

/-- `mount_fuse_release` -/
def mountFuseRelease (mount : Mount) (fileInfo : FileInfo) : Option (Mount × FileInfo × ℤ) :=
  match fileInfo.fh with
  | none => some (mount, fileInfo, 0)
  | some pointer =>
    (mountFileEntryFree mount pointer).map fun mount => (mount, { fileInfo with fh := none }, 0)

/-- `mount_fuse_releasedir`, which does not release the file entry. -/
def mountFuseReleasedir (mount : Mount) (fileInfo : FileInfo) : Mount × FileInfo × ℤ :=
  (mount, { fileInfo with fh := none }, 0)

/-- `mount_fuse_getattr`: the stat info, and the return value. -/
def mountFuseGetattr (allocationFails : Bool) (mount : Mount) (path : NarrowString) :
    Option (Mount × Option StatInfo × ℤ) :=
  match mount.fileEntryByPath C allocationFails path with
  | (mount, fh, result) =>
    if result = -1 ∨ result = 0 then some (mount, none, -enoent)
    else
      match fh with
      | none => some (mount, none, -eio)
      | some pointer => do
        let fileEntry ← mount.fileEntries.get? pointer
        let statInfo ← statOfFileEntry mount fileEntry
        let mount ← mountFileEntryFree mount pointer
        pure (mount, statInfo, if statInfo = none then -eio else 0)

variable (L : Libraries)

/-- `mount_fuse_read` -/
def mountFuseRead (env : ReadEnvironment) (mount : Mount) (size : ℕ) (offset : ℤ)
    (fileInfo : FileInfo) : Option (Mount × List UInt8 × ℤ) :=
  if size > intMax then some (mount, [], -einval)
  else
    match fileInfo.fh with
    | none => some (mount, [], -einval)
    | some pointer => do
      let fileEntry ← mount.fileEntries.get? pointer
      let (mount, result) ← mountFileEntryReadBufferAtOffset L env mount fileEntry size offset
      if result.count < 0 then pure (mount, [], -eio) else pure (mount, result.data, result.count)

/-! ## The loop -/

/-- A file or a directory that is open. -/
structure OpenFile where
  kind : Kind
  fileInfo : FileInfo

/-- The state of the loop. -/
structure Served where
  mount : Mount
  openFiles : Heap OpenFile

/-- The state before the first request. -/
def Mount.served (mount : Mount) : Served := ⟨mount, .empty⟩

/-- What the loop is asked for, and the signal that may come between two requests. -/
inductive FuseRequest
  | openFile (allocationFails : Bool) (path : NarrowString) (flags : ℕ)
  | opendir (allocationFails : Bool) (path : NarrowString)
  | read (env : ReadEnvironment) (handle size : ℕ) (offset : Off64)
  | readdir (env : ReaddirEnvironment) (handle : ℕ)
  | getattr (allocationFails : Bool) (path : NarrowString)
  | release (handle : ℕ)
  | releasedir (handle : ℕ)
  | signalAbort

/-- What the loop answers: the error of a callback, or what it returned. -/
inductive FuseAnswer
  | error (result : ℤ)
  | badHandle
  | opened (handle : ℕ)
  | data (data : List UInt8)
  | directory (entries : List DirectoryEntry)
  | attributes (statInfo : StatInfo)
  | released (kind : Kind)
  | signalled (result : ℤ)
deriving DecidableEq

/-- The file information under a handle, as that of a file or of a directory. -/
def Served.fileInfo? (served : Served) (kind : Kind) (handle : ℕ) : Option FileInfo :=
  (served.openFiles.get? handle).bind fun openFile =>
    if openFile.kind = kind then some openFile.fileInfo else none

/-- What the loop does with the result of an open. -/
def Served.opened (served : Served) (kind : Kind) (result : Mount × FileInfo × ℤ) :
    Served × FuseAnswer :=
  let (mount, fileInfo, result) := result
  if result ≠ 0 then ({ served with mount := mount }, .error result)
  else
    let (openFiles, handle) := served.openFiles.allocate ⟨kind, fileInfo⟩
    (⟨mount, openFiles⟩, .opened handle)

/-- What the loop does with the result of a release. -/
def Served.released (served : Served) (kind : Kind) (handle : ℕ)
    (result : Mount × FileInfo × ℤ) : Served × FuseAnswer :=
  let (mount, _, result) := result
  (⟨mount, served.openFiles.release handle⟩, if result ≠ 0 then .error result else .released kind)

/-- One request, or `none` where the behaviour is not defined. -/
def fuseCall : FuseRequest → Served → Option (Served × FuseAnswer)
  | .openFile allocationFails path flags, served =>
    some (served.opened .file (mountFuseOpen C allocationFails served.mount path ⟨none, flags⟩))
  | .opendir allocationFails path, served =>
    some (served.opened .directory (mountFuseOpendir C allocationFails served.mount path ⟨none, 0⟩))
  | .read env handle size offset, served =>
    match served.fileInfo? .file handle with
    | none => some (served, .badHandle)
    | some fileInfo =>
      (mountFuseRead L env served.mount size offset.1 fileInfo).map fun (mount, data, result) =>
        ({ served with mount := mount }, if result < 0 then .error result else .data data)
  | .readdir env handle, served =>
    match served.fileInfo? .directory handle with
    | none => some (served, .badHandle)
    | some fileInfo =>
      (mountFuseReaddir env served.mount fileInfo).map fun (mount, entries, result) =>
        ({ served with mount := mount }, if result ≠ 0 then .error result else .directory entries)
  | .getattr allocationFails path, served =>
    (mountFuseGetattr C allocationFails served.mount path).map fun (mount, statInfo, result) =>
      ({ served with mount := mount },
        match statInfo with
        | none => .error result
        | some statInfo => .attributes statInfo)
  | .release handle, served =>
    match served.fileInfo? .file handle with
    | none => some (served, .badHandle)
    | some fileInfo =>
      (mountFuseRelease served.mount fileInfo).map (served.released .file handle)
  | .releasedir handle, served =>
    match served.fileInfo? .directory handle with
    | none => some (served, .badHandle)
    | some fileInfo =>
      some (served.released .directory handle (mountFuseReleasedir served.mount fileInfo))
  | .signalAbort, served =>
    (mountHandleSignalAbort served.mount.mountHandle).map fun (mountHandle, result) =>
      ({ served with mount := { served.mount with mountHandle := mountHandle } },
        .signalled result)

/-- One request to the loop whose state is known, or whose behaviour is not defined any more. -/
def fuseStep (request : FuseRequest) (served : Option Served) :
    Option Served × Option FuseAnswer :=
  let result := served.bind (fuseCall C L request)
  (result.map Prod.fst, result.map Prod.snd)

end Libluksde
