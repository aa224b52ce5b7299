import Libluksde.MountFuse
import Libluksde.MountCollections
import Libluksde.Session

/-!
# The file entries that the callbacks make

Each open makes a file entry, which a release of the file releases; a release of a directory does
not.  All other file entries are released by the call that made them, whatever fails in it.  So
whatever is asked, no callback follows a pointer to released memory, and the file entries in memory
are those of the open files and directories, and one for each directory that was released.
-/

namespace Libluksde

open Lib (Heap Reading)
open Lib.Bytes Lib.Machine Lib.Stores
open Lib.FileServer (Kind)

variable {C : Libcpath} {L : Libraries} {mount mount' : Mount} {p : List UInt8}

/-! ## File entries and volumes -/

/-- The volume of a file entry, if it has one, is in the array. -/
def FileEntry.IsIn (fileEntry : FileEntry) (fileSystem : MountFileSystem) : Prop :=
  ∀ volumeIndex, fileEntry.volumeIndex = some volumeIndex → volumeIndex < fileSystem.volumes.length

theorem FileEntry.isIn_of_none {fileEntry : FileEntry} (h : fileEntry.volumeIndex = none)
    (fileSystem : MountFileSystem) : fileEntry.IsIn fileSystem := by
  intro volumeIndex hsome
  rw [h] at hsome
  cases hsome

/-- A volume in the array of a mounted file system is there. -/
theorem Mount.exists_volume (hmounted : mount.fileSystem.IsMounted) {volumeIndex : ℕ}
    (hindex : volumeIndex < mount.fileSystem.volumes.length) :
    ∃ volume, mount.volume? volumeIndex = some volume := by
  have hentry := List.getElem?_eq_getElem hindex
  rcases hvolume : mount.fileSystem.volumes[volumeIndex] with - | volume
  · exact absurd (hvolume ▸ List.getElem_mem hindex) hmounted
  · exact ⟨volume, by rw [Mount.volume?, hentry, hvolume]; rfl⟩

/-- What is told about a file entry has a behaviour. -/
theorem exists_statOfFileEntry (hmounted : mount.fileSystem.IsMounted) {fileEntry : FileEntry}
    (hentry : fileEntry.IsIn mount.fileSystem) :
    ∃ statInfo, statOfFileEntry mount fileEntry = some statInfo := by
  rw [statOfFileEntry, mountFileEntryGetSize]
  cases hindex : fileEntry.volumeIndex with
  | none => exact ⟨_, rfl⟩
  | some volumeIndex =>
    obtain ⟨volume, hvolume⟩ := Mount.exists_volume hmounted (hentry volumeIndex hindex)
    simp only [hvolume]
    exact ⟨_, rfl⟩

theorem exists_mountFuseFilldir (hmounted : mount.fileSystem.IsMounted) (fillerFails : Bool)
    (buffer : List DirectoryEntry) (name : List UInt8) (fileEntry : Option FileEntry)
    (hentry : ∀ e ∈ fileEntry, e.IsIn mount.fileSystem) :
    ∃ filled, mountFuseFilldir fillerFails mount buffer name fileEntry = some filled := by
  cases fileEntry with
  | none => exact ⟨_, rfl⟩
  | some fileEntry =>
    obtain ⟨statInfo, hstat⟩ := exists_statOfFileEntry hmounted (hentry fileEntry rfl)
    simp only [mountFuseFilldir, hstat]
    exact ⟨_, rfl⟩

/-! ## Calls that leave the file entries as they are -/

/-- The same state, with a heap in which the same file entries are live. -/
structure Mount.Same (mount mount' : Mount) : Prop where
  mountHandle : mount'.mountHandle = mount.mountHandle
  mountedTimestamp : mount'.mountedTimestamp = mount.mountedTimestamp
  effectiveUserId : mount'.effectiveUserId = mount.effectiveUserId
  effectiveGroupId : mount'.effectiveGroupId = mount.effectiveGroupId
  get? : ∀ pointer, mount'.fileEntries.get? pointer = mount.fileEntries.get? pointer
  live : mount'.fileEntries.live.Perm mount.fileEntries.live

theorem Mount.Same.refl (mount : Mount) : mount.Same mount :=
  ⟨rfl, rfl, rfl, rfl, fun _ => rfl, List.Perm.refl _⟩

theorem Mount.Same.trans {mount'' : Mount} (h : mount.Same mount') (h' : mount'.Same mount'') :
    mount.Same mount'' where
  mountHandle := h'.mountHandle.trans h.mountHandle
  mountedTimestamp := h'.mountedTimestamp.trans h.mountedTimestamp
  effectiveUserId := h'.effectiveUserId.trans h.effectiveUserId
  effectiveGroupId := h'.effectiveGroupId.trans h.effectiveGroupId
  get? := fun pointer => (h'.get? pointer).trans (h.get? pointer)
  live := h'.live.trans h.live

theorem Mount.Same.fileSystem (h : mount.Same mount') : mount'.fileSystem = mount.fileSystem :=
  congrArg MountHandle.fileSystem h.mountHandle

/-- A file entry that is made is released again. -/
theorem mountFileEntryFree_allocate (mount : Mount) (fileEntry : FileEntry) :
    ∃ mount', mountFileEntryFree (mount.allocate fileEntry).1 (mount.allocate fileEntry).2 =
      some mount' ∧ mount.Same mount' := by
  refine ⟨{ mount with
    fileEntries := (mount.fileEntries.allocate fileEntry).1.release
      (mount.fileEntries.allocate fileEntry).2 }, ?_, ?_⟩
  · rw [mountFileEntryFree]
    simp only [Mount.allocate]
    rw [Heap.get?_allocate_self]
    rfl
  · exact ⟨rfl, rfl, rfl, rfl, fun pointer => Heap.get?_release_allocate _ _ _,
      Heap.live_release_allocate _ _⟩

/-- A new file entry, where there is none yet. -/
theorem run_mountFileEntryInitialize_none (memory : ℕ → UInt8) (allocationFails : Bool)
    (fileSystem : MountFileSystem) (nameIndex nameLength : ℕ) (volumeIndex : Option ℕ) :
    (mountFileEntryInitialize allocationFails none fileSystem nameIndex nameLength
        volumeIndex).run memory =
      if ssizeMax - 1 < nameLength ∨ allocationFails then (none, -1)
      else
        (some ⟨fileSystem, (List.range' nameIndex nameLength).map memory ++ [0], nameLength + 1,
          volumeIndex⟩, 1) := by
  rw [mountFileEntryInitialize, if_neg (not_not.2 rfl)]
  by_cases hlarge : ssizeMax - 1 < nameLength
  · rw [if_pos hlarge, if_pos (Or.inl hlarge)]
    rfl
  · by_cases hfails : allocationFails
    · rw [if_neg hlarge, if_pos hfails, if_pos (Or.inr hfails)]
      rfl
    · rw [if_neg hlarge, if_neg hfails, if_neg (not_or.2 ⟨hlarge, hfails⟩), Reading.run_bind,
        Reading.run_window, Reading.run_pure]

theorem mountFileEntryGetParentFileEntry_isIn {allocationFails : Bool} {fileEntry parent : FileEntry}
    {result : ℤ}
    (h : mountFileEntryGetParentFileEntry allocationFails mount fileEntry = (some parent, result)) :
    parent.IsIn mount.fileSystem := by
  refine FileEntry.isIn_of_none ?_ _
  rw [mountFileEntryGetParentFileEntry] at h
  split at h
  · cases h
  · split at h
    · rename_i entry hmade
      cases h
      rw [run_mountFileEntryInitialize_none] at hmade
      split_ifs at hmade
      · cases hmade
      · cases hmade
        rfl
    · cases h

theorem mountFileEntryGetSubFileEntryByIndex_isIn {allocationFails : Bool} {path : Buffer 32}
    {fileEntry sub : FileEntry} {subFileEntryIndex : ℤ}
    (h : mountFileEntryGetSubFileEntryByIndex allocationFails path mount fileEntry
      subFileEntryIndex = some sub) : sub.IsIn mount.fileSystem := by
  rw [mountFileEntryGetSubFileEntryByIndex] at h
  split at h
  · cases h
  · split_ifs at h
    split at h
    · cases h
    · split at h
      · cases h
      · rename_i volumeIndex hvolume
        dsimp only at h
        split at h
        · rename_i entry hmade
          cases h
          rw [mountFileSystemGetVolumeByIndex, libcdataArrayGetEntryByIndex] at hvolume
          split_ifs at hvolume with hrange
          cases hvolume
          rw [run_mountFileEntryInitialize_none] at hmade
          split_ifs at hmade
          · cases hmade
          · cases hmade
            intro volumeIndex hindex
            cases hindex
            show subFileEntryIndex.toNat < _
            omega
        · cases h

section

variable {pointer : ℕ} {fileEntry : FileEntry} (hmounted : mount.fileSystem.IsMounted)
  (env : ReaddirEnvironment)

include hmounted

theorem exists_readdirParent (hpointer : mount.fileEntries.get? pointer = some fileEntry)
    (buffer : List DirectoryEntry) :
    ∃ mount' filled, readdirParent env mount pointer buffer = some (mount', filled) ∧
      mount.Same mount' := by
  rw [readdirParent, hpointer]
  simp only [Option.bind_eq_bind, Option.bind_some, Option.pure_def]
  rcases hparent : mountFileEntryGetParentFileEntry env.parentFails mount fileEntry with
    ⟨parent, result⟩
  by_cases hresult : result = -1
  · exact ⟨mount, (buffer, -1), if_pos hresult, .refl mount⟩
  · simp only [if_neg hresult]
    cases parent with
    | none =>
      obtain ⟨⟨buffer', result'⟩, hfilled⟩ := exists_mountFuseFilldir hmounted (env.fillerFails 1)
        buffer [0x2e, 0x2e, 0] none (by rintro e ⟨⟩)
      refine ⟨mount, (buffer', result'), ?_, .refl mount⟩
      simp only [hfilled, Option.bind_some]
    | some parent =>
      have hin := mountFileEntryGetParentFileEntry_isIn hparent
      have hmounted' : (mount.allocate parent).1.fileSystem.IsMounted := hmounted
      obtain ⟨⟨buffer', result'⟩, hfilled⟩ := exists_mountFuseFilldir hmounted'
        (env.fillerFails 1) buffer [0x2e, 0x2e, 0] (some parent)
        (by rintro e ⟨⟩; exact hin)
      obtain ⟨mount', hfree, hsame⟩ := mountFileEntryFree_allocate mount parent
      refine ⟨mount', (buffer', result'), ?_, hsame⟩
      simp only [hfilled, hfree, Option.bind_some]

theorem exists_readdirName (subFileEntryIndex : ℕ) (buffer : List DirectoryEntry)
    {sub : FileEntry} (hsub : sub.IsIn mount.fileSystem) :
    ∃ filled, readdirName env mount subFileEntryIndex buffer sub = some filled := by
  rw [readdirName]
  split
  · exact ⟨_, rfl⟩
  · exact exists_mountFuseFilldir hmounted _ _ _ _ (by rintro e ⟨⟩; exact hsub)

theorem exists_readdirSubFileEntry (hpointer : mount.fileEntries.get? pointer = some fileEntry)
    (subFileEntryIndex : ℕ) (buffer : List DirectoryEntry) :
    ∃ mount' filled, readdirSubFileEntry env mount pointer subFileEntryIndex buffer =
      some (mount', filled) ∧ mount.Same mount' := by
  rw [readdirSubFileEntry, hpointer]
  simp only [Option.bind_eq_bind, Option.bind_some, Option.pure_def]
  rcases hsub : mountFileEntryGetSubFileEntryByIndex (env.subFileEntryFails subFileEntryIndex)
    (env.path subFileEntryIndex) mount fileEntry subFileEntryIndex with - | sub
  · exact ⟨mount, _, rfl, .refl mount⟩
  · have hin := mountFileEntryGetSubFileEntryByIndex_isIn hsub
    have hmounted' : (mount.allocate sub).1.fileSystem.IsMounted := hmounted
    obtain ⟨⟨buffer', result'⟩, hfilled⟩ := exists_readdirName hmounted' env
      subFileEntryIndex buffer hin
    obtain ⟨mount', hfree, hsame⟩ := mountFileEntryFree_allocate mount sub
    refine ⟨mount', (buffer', result'), ?_, hsame⟩
    simp only [hfilled, hfree, Option.bind_some]

/-- The loop, by induction on the number of sub file entries that are left. -/
theorem exists_readdirLoop (hpointer : mount.fileEntries.get? pointer = some fileEntry)
    (left subFileEntryIndex : ℕ) (buffer : List DirectoryEntry) :
    ∃ mount' filled, readdirLoop env pointer left subFileEntryIndex mount buffer =
      some (mount', filled) ∧ mount.Same mount' := by
  induction left generalizing mount subFileEntryIndex buffer with
  | zero => exact ⟨mount, _, rfl, .refl mount⟩
  | succ left ih =>
    obtain ⟨mount₁, ⟨buffer₁, result⟩, hround, hsame⟩ :=
      exists_readdirSubFileEntry hmounted env hpointer subFileEntryIndex buffer
    rw [readdirLoop, hround]
    simp only [Option.bind_eq_bind, Option.bind_some, Option.pure_def]
    by_cases hresult : result ≠ 1
    · exact ⟨mount₁, _, if_pos hresult, hsame⟩
    · obtain ⟨mount₂, filled, hloop, hsame'⟩ := ih (by rw [hsame.fileSystem]; exact hmounted)
        ((hsame.get? pointer).trans hpointer) (subFileEntryIndex + 1) buffer₁
      exact ⟨mount₂, filled, by rw [if_neg hresult]; exact hloop, hsame.trans hsame'⟩

/-- A directory is read without following a pointer to released memory, and leaves no file
entries behind. -/
theorem exists_mountFuseReaddir {fileInfo : FileInfo} (hfh : fileInfo.fh = some pointer)
    (hpointer : mount.fileEntries.get? pointer = some fileEntry)
    (hentry : fileEntry.IsIn mount.fileSystem) :
    ∃ mount' filled, mountFuseReaddir env mount fileInfo = some (mount', filled) ∧
      mount.Same mount' := by
  rw [mountFuseReaddir, hfh]
  dsimp only
  by_cases hfails : env.statInfoFails
  · exact ⟨mount, _, if_pos hfails, .refl mount⟩
  · rw [if_neg hfails, readdirFileEntry, hpointer]
    simp only [Option.bind_eq_bind, Option.bind_some, Option.pure_def]
    obtain ⟨⟨buffer, result⟩, hfilled⟩ := exists_mountFuseFilldir hmounted (env.fillerFails 0)
      [] [0x2e, 0] (some fileEntry) (by rintro e ⟨⟩; exact hentry)
    simp only [hfilled, Option.bind_some]
    by_cases hresult : result ≠ 1
    · exact ⟨mount, _, if_pos hresult, .refl mount⟩
    · obtain ⟨mount₁, ⟨buffer₁, result₁⟩, hparent, hsame⟩ :=
        exists_readdirParent hmounted env hpointer buffer
      simp only [if_neg hresult, hparent, Option.bind_some]
      by_cases hresult₁ : result₁ ≠ 1
      · exact ⟨mount₁, _, if_pos hresult₁, hsame⟩
      · simp only [if_neg hresult₁]
        rcases mountFileEntryGetNumberOfSubFileEntries mount₁ fileEntry with - | number
        · exact ⟨mount₁, _, rfl, hsame⟩
        · have hmounted₁ : mount₁.fileSystem.IsMounted := by
            rw [hsame.fileSystem]
            exact hmounted
          obtain ⟨mount₂, filled, hloop, hsame'⟩ := exists_readdirLoop hmounted₁ env
            ((hsame.get? pointer).trans hpointer) number.toNat 0 buffer₁
          exact ⟨mount₂, filled, hloop, hsame.trans hsame'⟩

end

/-! ## The file entry of a path -/

/-- Where the lookup of a path fails, it leaves no file entry. -/
theorem fileEntry_eq_none (memorySize : ℕ) (allocationFails : Bool) (fileSystem : MountFileSystem)
    (memory : ℕ → UInt8)
    (hfails : ((mountHandleGetFileEntryByPath C memorySize allocationFails fileSystem none).run
      memory).2 = -1) :
    ((mountHandleGetFileEntryByPath C memorySize allocationFails fileSystem none).run
      memory).1 = none := by
  rw [mountHandleGetFileEntryByPath, Reading.run_bind] at hfails ⊢
  rcases hbounds : (pathBounds C memorySize).run memory with - | ⟨pathLength, pathIndex⟩
  · rfl
  · rw [hbounds] at hfails
    dsimp only at hfails ⊢
    rw [Reading.run_bind, Reading.run_ite, Reading.run_ite, Reading.run_bind] at hfails ⊢
    generalize (getVolumeByPathReading memorySize fileSystem pathLength).run memory = lookup
      at hfails ⊢
    by_cases herror : lookup.result = -1
    · rw [if_pos herror]
      rfl
    · rw [if_neg herror] at hfails ⊢
      by_cases hfound : lookup.result ≠ 0
      · rw [if_pos hfound] at hfails ⊢
        rw [run_mountFileEntryInitialize_none, Reading.run_pure] at hfails ⊢
        by_cases hmade : ssizeMax - 1 < filenameLength pathLength pathIndex ∨ allocationFails
        · rw [if_pos hmade]
        · rw [if_neg hmade] at hfails
          exact absurd hfails herror
      · rw [if_neg hfound]
        rfl

theorem getVolumeByPath_volumeIndex_lt {fileSystem : MountFileSystem} {path : List UInt8}
    {pathLength volumeIndex : ℕ}
    (h : (mountFileSystemGetVolumeByPath fileSystem path pathLength).volumeIndex =
      some volumeIndex) : volumeIndex < fileSystem.volumes.length := by
  rw [mountFileSystemGetVolumeByPath] at h
  split at h
  · cases h
  · dsimp only at h
    split_ifs at h
    split at h
    · cases h
    · split at h
      · cases h
      · rename_i index hindex
        cases h
        rw [libcdataArrayGetEntryByIndex] at hindex
        split_ifs at hindex with hrange
        cases hindex
        omega

/-- The file entry of a path is that of the volume that the lookup finds. -/
theorem fileEntryByPath_found (hp : mount.fileSystem.HasPathPrefix p) (allocationFails : Bool)
    (path : NarrowString) :
    (∃ result, (result = -1 ∨ result = 0) ∧
      mount.fileEntryByPath C allocationFails path = (mount, none, result)) ∨
    ∃ fileEntry : FileEntry,
      mountFileSystemGetVolumeByPath mount.fileSystem (path.1 ++ [0])
        (lengthWithoutSeparator C path.1) = ⟨1, fileEntry.volumeIndex⟩ ∧
      mount.fileEntryByPath C allocationFails path =
        ((mount.allocate fileEntry).1, some (mount.allocate fileEntry).2, 1) := by
  have hs := holdsString_getD path.2 []
  have hnone := fileEntry_eq_none (C := C) (path.1.length + 1) allocationFails mount.fileSystem
    (fun i => (path.1 ++ [0]).getD i 0)
  rw [Mount.fileEntryByPath]
  by_cases hempty : path.1 = []
  · have hbounds := hs.pathBounds_nil C (Nat.lt_succ_self _) hempty
    refine Or.inl ⟨-1, Or.inl rfl, ?_⟩
    rw [mountHandleGetFileEntryByPath, Reading.run_bind, hbounds]
    rfl
  · rcases hs.entryAnswer C (Nat.lt_succ_self _) hp allocationFails none hempty with
      ⟨pathIndex, -, hanswer⟩
    generalize (mountHandleGetFileEntryByPath C (path.1.length + 1) allocationFails
      mount.fileSystem none).run (fun i => (path.1 ++ [0]).getD i 0) = answer at hanswer hnone ⊢
    cases hanswer with
    | error => exact Or.inl ⟨-1, Or.inl rfl, rfl⟩
    | missing => exact Or.inl ⟨0, Or.inr rfl, rfl⟩
    | failed =>
      obtain rfl : _ = none := hnone rfl
      exact Or.inl ⟨-1, Or.inl rfl, rfl⟩
    | found hone => exact Or.inr ⟨_, by rw [← hone]; rfl, rfl⟩

/-- The lookup of a path makes no file entry, or one whose volume is in the array. -/
theorem fileEntryByPath_cases (hp : mount.fileSystem.HasPathPrefix p) (allocationFails : Bool)
    (path : NarrowString) :
    (∃ result, (result = -1 ∨ result = 0) ∧
      mount.fileEntryByPath C allocationFails path = (mount, none, result)) ∨
    ∃ fileEntry : FileEntry, fileEntry.IsIn mount.fileSystem ∧
      mount.fileEntryByPath C allocationFails path =
        ((mount.allocate fileEntry).1, some (mount.allocate fileEntry).2, 1) := by
  rcases fileEntryByPath_found hp allocationFails path with hnone | ⟨fileEntry, hlookup, hpath⟩
  · exact Or.inl hnone
  · refine Or.inr ⟨fileEntry, fun volumeIndex hindex => ?_, hpath⟩
    have hfound := congrArg Lookup.volumeIndex hlookup
    exact getVolumeByPath_volumeIndex_lt (hfound.trans hindex)

/-- The attributes of a path are told without following a pointer to released memory, and no file
entry is left behind. -/
theorem exists_mountFuseGetattr (hmounted : mount.fileSystem.IsMounted)
    (hp : mount.fileSystem.HasPathPrefix p) (allocationFails : Bool) (path : NarrowString) :
    ∃ mount' statInfo result,
      mountFuseGetattr C allocationFails mount path = some (mount', statInfo, result) ∧
        mount.Same mount' := by
  rw [mountFuseGetattr]
  rcases fileEntryByPath_cases (C := C) hp allocationFails path with
    ⟨result, hresult, hpath⟩ | ⟨fileEntry, hin, hpath⟩
  · rw [hpath]
    exact ⟨mount, none, -enoent, if_pos hresult, .refl _⟩
  · have hmounted' : (mount.allocate fileEntry).1.fileSystem.IsMounted := hmounted
    have hget : (mount.allocate fileEntry).1.fileEntries.get? (mount.allocate fileEntry).2 =
        some fileEntry := Heap.get?_allocate_self _ _
    obtain ⟨statInfo, hstat⟩ := exists_statOfFileEntry hmounted' hin
    obtain ⟨mount', hfree, hsame⟩ := mountFileEntryFree_allocate mount fileEntry
    rw [hpath]
    dsimp only
    rw [if_neg (by decide)]
    simp only [hget, hstat, hfree, Option.bind_eq_bind, Option.bind_some, Option.pure_def]
    exact ⟨mount', statInfo, _, rfl, hsame⟩

/-! ## The volumes -/

theorem setVolume_isMounted (hmounted : mount.fileSystem.IsMounted) (volumeIndex : ℕ)
    (volume : Volume) : (mount.setVolume volumeIndex volume).fileSystem.IsMounted := by
  intro hmem
  rcases List.mem_or_eq_of_mem_set hmem with hold | hnew
  · exact hmounted hold
  · cases hnew

/-- A signal reaches volumes that are there, and leaves of each what every signal leaves. -/
theorem exists_signalAbortFrom {P : ℕ → Volume → Prop}
    (hP : ∀ i volume, P i volume → P i (volumeSignalAbort volume).1) (lastIndex : ℕ)
    {volumes : List (Option Volume)} (hlast : lastIndex < volumes.length ∨ lastIndex = 0)
    (hvolumes : ∀ i < volumes.length, ∃ volume, volumes[i]? = some (some volume) ∧ P i volume) :
    ∃ volumes', signalAbortFrom lastIndex volumes = some (volumes', 1) ∧
      volumes'.length = volumes.length ∧
      ∀ i < volumes.length, ∃ volume, volumes'[i]? = some (some volume) ∧ P i volume := by
  induction lastIndex generalizing volumes with
  | zero => exact ⟨volumes, rfl, rfl, hvolumes⟩
  | succ lastIndex ih =>
    have hlt : lastIndex + 1 < volumes.length := hlast.resolve_right (Nat.succ_ne_zero _)
    obtain ⟨volume, hvolume, hholds⟩ := hvolumes (lastIndex + 1) hlt
    have hset : ∀ i < (volumes.set (lastIndex + 1) (some (volumeSignalAbort volume).1)).length,
        ∃ volume', (volumes.set (lastIndex + 1) (some (volumeSignalAbort volume).1))[i]? =
          some (some volume') ∧ P i volume' := by
      intro i hi
      rw [List.length_set] at hi
      by_cases heq : lastIndex + 1 = i
      · subst heq
        exact ⟨_, List.getElem?_set_self hi, hP _ _ hholds⟩
      · rw [List.getElem?_set_ne heq]
        exact hvolumes i hi
    obtain ⟨volumes', hloop, hlength, hrest⟩ := ih (by rw [List.length_set]; omega) hset
    rw [List.length_set] at hlength hrest
    refine ⟨volumes', ?_, hlength, hrest⟩
    rw [signalAbortFrom, hvolume]
    exact hloop

/-! ## The ledger -/

/-- The pointer of an open file or directory. -/
def OpenFile.pointer (openFile : OpenFile) : ℕ := openFile.fileInfo.fh.getD 0

/-- The pointers that the loop keeps. -/
def Served.held (served : Served) : List ℕ :=
  served.openFiles.live.map fun openFile => openFile.2.pointer

/-- The pointers to the file entries in memory. -/
def Served.pointers (served : Served) : List ℕ := served.mount.fileEntries.live.map Prod.fst

/-- The file entries in memory are those that the loop keeps a pointer to, each for one file or
directory, and those of the directories that were released. -/
structure Served.Sound (p : List UInt8) (served : Served) (left : List ℕ) : Prop where
  mounted : served.mount.fileSystem.IsMounted
  pathPrefix : served.mount.fileSystem.HasPathPrefix p
  isIn : ∀ pointer fileEntry, served.mount.fileEntries.get? pointer = some fileEntry →
    fileEntry.IsIn served.mount.fileSystem
  opened : ∀ handle openFile, served.openFiles.get? handle = some openFile →
    openFile.fileInfo.fh ≠ none
  owned : served.pointers.Perm (served.held ++ left)

section

variable {served : Served} {left : List ℕ} {handle : ℕ} {openFile : OpenFile}

/-- What is open has a file entry in memory. -/
theorem Served.Sound.fileEntry (h : served.Sound p left)
    (hopen : served.openFiles.get? handle = some openFile) :
    ∃ pointer fileEntry, openFile.fileInfo.fh = some pointer ∧
      served.mount.fileEntries.get? pointer = some fileEntry := by
  obtain ⟨pointer, hpointer⟩ := Option.ne_none_iff_exists'.1 (h.opened handle openFile hopen)
  have hheld : pointer ∈ served.held :=
    List.mem_map.2 ⟨(handle, openFile), Heap.mem_live.2 hopen, by rw [OpenFile.pointer, hpointer]; rfl⟩
  have hlive := h.owned.symm.subset (List.mem_append_left left hheld)
  obtain ⟨⟨q, fileEntry⟩, hmem, rfl⟩ := List.mem_map.1 hlive
  exact ⟨q, fileEntry, hpointer, Heap.mem_live.1 hmem⟩

/-- No two files or directories have the same file entry. -/
theorem Served.Sound.handle_unique (h : served.Sound p left) {handle' : ℕ} {openFile' : OpenFile}
    (hopen : served.openFiles.get? handle = some openFile)
    (hopen' : served.openFiles.get? handle' = some openFile')
    (hsame : openFile.fileInfo.fh = openFile'.fileInfo.fh) : handle = handle' := by
  have hnodup : (served.held ++ left).Nodup :=
    h.owned.nodup_iff.1 (Heap.nodup_addresses served.mount.fileEntries)
  have hheld : served.held.Nodup := (List.nodup_append.1 hnodup).1
  have hpair := List.inj_on_of_nodup_map hheld (Heap.mem_live.2 hopen) (Heap.mem_live.2 hopen')
    (by show openFile.pointer = openFile'.pointer
        rw [OpenFile.pointer, hsame, OpenFile.pointer])
  exact congrArg Prod.fst hpair

/-- A call that leaves the file entries as they are. -/
theorem Served.Sound.of_same (h : served.Sound p left) {mount' : Mount}
    (hfileSystem : mount'.fileSystem.IsMounted ∧ mount'.fileSystem.HasPathPrefix p ∧
      mount'.fileSystem.volumes.length = served.mount.fileSystem.volumes.length)
    (hget : ∀ pointer, mount'.fileEntries.get? pointer = served.mount.fileEntries.get? pointer)
    (hlive : mount'.fileEntries.live.Perm served.mount.fileEntries.live) :
    Served.Sound p { served with mount := mount' } left where
  mounted := hfileSystem.1
  pathPrefix := hfileSystem.2.1
  isIn := by
    intro pointer fileEntry hpointer volumeIndex hindex
    rw [hget] at hpointer
    show volumeIndex < mount'.fileSystem.volumes.length
    rw [hfileSystem.2.2]
    exact h.isIn pointer fileEntry hpointer volumeIndex hindex
  opened := h.opened
  owned := (hlive.map Prod.fst).trans h.owned

/-- A call that changes volumes. -/
theorem Served.Sound.withVolumes (h : served.Sound p left) {volumes : List (Option Volume)}
    (hmounted : none ∉ volumes)
    (hlength : volumes.length = served.mount.fileSystem.volumes.length) :
    Served.Sound p { served with mount := served.mount.withVolumes volumes } left :=
  h.of_same ⟨hmounted, ⟨h.pathPrefix.1, h.pathPrefix.2, h.pathPrefix.3⟩, hlength⟩ (fun _ => rfl)
    (List.Perm.refl _)

theorem Served.Sound.of_sameMount (h : served.Sound p left) {mount' : Mount}
    (hsame : served.mount.Same mount') : Served.Sound p { served with mount := mount' } left := by
  refine h.of_same ?_ hsame.get? hsame.live
  rw [hsame.fileSystem]
  exact ⟨h.mounted, h.pathPrefix, rfl⟩

/-- An open that succeeds adds a file entry and a pointer to it. -/
theorem Served.Sound.opened_some (h : served.Sound p left) {fileEntry : FileEntry}
    (hin : fileEntry.IsIn served.mount.fileSystem) (kind : Kind) (flags : ℕ) :
    Served.Sound p (served.opened kind ((served.mount.allocate fileEntry).1,
      ⟨some (served.mount.allocate fileEntry).2, flags⟩, 0)).1 left where
  mounted := h.mounted
  pathPrefix := h.pathPrefix
  isIn := by
    intro pointer fileEntry' hpointer
    change (served.mount.fileEntries.allocate fileEntry).1.get? pointer = some fileEntry' at hpointer
    rw [Heap.get?_allocate] at hpointer
    split_ifs at hpointer
    · cases hpointer
      exact hin
    · exact h.isIn pointer fileEntry' hpointer
  opened := by
    intro handle openFile hopen
    change (served.openFiles.allocate _).1.get? handle = some openFile at hopen
    rw [Heap.get?_allocate] at hopen
    split_ifs at hopen
    · cases hopen
      exact Option.some_ne_none _
    · exact h.opened handle openFile hopen
  owned := by
    show ((served.mount.fileEntries.allocate fileEntry).1.live.map Prod.fst).Perm
      ((served.openFiles.allocate _).1.live.map (fun openFile => openFile.2.pointer) ++ left)
    rw [Heap.live_allocate, Heap.live_allocate, List.map_append, List.map_append, List.append_assoc]
    refine (List.perm_append_comm).trans ?_
    refine ((h.owned.append_left _).trans ?_)
    exact List.perm_append_comm_assoc _ _ _

/-- The open file that is released, and the others. -/
theorem Served.held_perm (hopen : served.openFiles.get? handle = some openFile) {pointer : ℕ}
    (hpointer : openFile.fileInfo.fh = some pointer) :
    served.held.Perm (pointer ::
      (served.openFiles.release handle).live.map fun openFile => openFile.2.pointer) := by
  have hperm := (Heap.live_release hopen).map fun openFile => openFile.2.pointer
  rw [List.map_cons, OpenFile.pointer, hpointer] at hperm
  exact hperm

theorem Served.openFiles_release {handle' : ℕ} {openFile' : OpenFile}
    (hopen : (served.openFiles.release handle).get? handle' = some openFile') :
    served.openFiles.get? handle' = some openFile' := by
  rw [Heap.get?_release] at hopen
  split_ifs at hopen
  exact hopen

/-- A release of a file takes its file entry and the pointer to it away. -/
theorem Served.Sound.release (h : served.Sound p left)
    (hopen : served.openFiles.get? handle = some openFile) {pointer : ℕ} {fileEntry : FileEntry}
    (hpointer : openFile.fileInfo.fh = some pointer)
    (hentry : served.mount.fileEntries.get? pointer = some fileEntry) :
    Served.Sound p ⟨{ served.mount with fileEntries := served.mount.fileEntries.release pointer },
      served.openFiles.release handle⟩ left where
  mounted := h.mounted
  pathPrefix := h.pathPrefix
  isIn := by
    intro pointer' fileEntry' hpointer'
    rw [Heap.get?_release] at hpointer'
    split_ifs at hpointer'
    exact h.isIn pointer' fileEntry' hpointer'
  opened := by
    intro handle' openFile' hopen'
    exact h.opened handle' openFile' (Served.openFiles_release hopen')
  owned := by
    have hbefore := ((Heap.live_release hentry).map Prod.fst).symm.trans h.owned
    have hheld := (Served.held_perm hopen hpointer).append_right left
    exact (List.perm_cons pointer).1 (hbefore.trans hheld)

/-- A release of a directory leaves its file entry behind. -/
theorem Served.Sound.releasedir (h : served.Sound p left)
    (hopen : served.openFiles.get? handle = some openFile) {pointer : ℕ}
    (hpointer : openFile.fileInfo.fh = some pointer) :
    Served.Sound p ⟨served.mount, served.openFiles.release handle⟩ (pointer :: left) where
  mounted := h.mounted
  pathPrefix := h.pathPrefix
  isIn := h.isIn
  opened := by
    intro handle' openFile' hopen'
    exact h.opened handle' openFile' (Served.openFiles_release hopen')
  owned := by
    have hheld := (Served.held_perm hopen hpointer).append_right left
    exact (h.owned.trans hheld).trans List.perm_middle.symm

/-! ## One request -/

theorem Served.fileInfo?_eq_some {kind : Kind} {fileInfo : FileInfo} :
    served.fileInfo? kind handle = some fileInfo ↔
      served.openFiles.get? handle = some ⟨kind, fileInfo⟩ := by
  rw [Served.fileInfo?]
  rcases served.openFiles.get? handle with - | ⟨kind', fileInfo'⟩
  · simp
  · by_cases hkind : kind' = kind
    · simp [hkind]
    · simp [hkind]

/-- The number of file entries that a request leaves behind. -/
def FuseAnswer.leaves (answer : FuseAnswer) : ℕ :=
  if answer = .released .directory then 1 else 0

/-- A request is answered, and keeps the ledger. -/
def FuseAnswered (C : Libcpath) (L : Libraries) (p : List UInt8) (request : FuseRequest)
    (served : Served) (left : List ℕ) : Prop :=
  ∃ served' answer left', fuseCall C L request served = some (served', answer) ∧
    served'.Sound p left' ∧ left'.length = left.length + answer.leaves

/-- An answer other than that of a released directory leaves the same file entries behind. -/
theorem fuseAnswered_of_sound {request : FuseRequest} {served' : Served} (answer : FuseAnswer)
    (hcall : fuseCall C L request served = some (served', answer)) (h : served'.Sound p left)
    (hanswer : answer ≠ .released .directory) : FuseAnswered C L p request served left :=
  ⟨served', answer, left, hcall, h, by rw [FuseAnswer.leaves, if_neg hanswer, Nat.add_zero]⟩

theorem FuseAnswered.badHandle {request : FuseRequest} (h : served.Sound p left)
    (hcall : fuseCall C L request served = some (served, .badHandle)) :
    FuseAnswered C L p request served left :=
  fuseAnswered_of_sound _ hcall h (by rintro ⟨⟩)

/-- An open, of a file or a directory. -/
theorem FuseAnswered.opened (h : served.Sound p left) {request : FuseRequest}
    (allocationFails : Bool) (path : NarrowString) (kind : Kind) (flags : ℕ)
    (hcall : ∀ mount fh result,
      served.mount.fileEntryByPath C allocationFails path = (mount, fh, result) →
      fuseCall C L request served = some (served.opened kind
        (mount, ⟨fh, flags⟩, if result ≠ 1 then -enoent else 0))) :
    FuseAnswered C L p request served left := by
  rcases fileEntryByPath_cases (C := C) h.pathPrefix allocationFails path with
    ⟨result, hresult, hpath⟩ | ⟨fileEntry, hin, hpath⟩
  · have hne : result ≠ 1 := by
      rcases hresult with rfl | rfl
      · decide
      · decide
    have hopened := hcall _ _ _ hpath
    rw [if_pos hne] at hopened
    exact fuseAnswered_of_sound _ hopened h (by rintro ⟨⟩)
  · have hopened := hcall _ _ _ hpath
    rw [if_neg (not_not.2 rfl)] at hopened
    exact fuseAnswered_of_sound _ hopened (h.opened_some hin kind flags) (by rintro ⟨⟩)

theorem FuseAnswered.read (h : served.Sound p left) (env : ReadEnvironment) (handle size : ℕ)
    (offset : Off64) : FuseAnswered C L p (.read env handle size offset) served left := by
  rcases hinfo : served.fileInfo? .file handle with - | fileInfo
  · exact .badHandle h (by rw [fuseCall, hinfo])
  · have hopen := Served.fileInfo?_eq_some.1 hinfo
    obtain ⟨pointer, fileEntry, hpointer, hentry⟩ := h.fileEntry hopen
    have hread : ∃ mount' data result,
        mountFuseRead L env served.mount size offset.1 fileInfo = some (mount', data, result) ∧
          Served.Sound p { served with mount := mount' } left := by
      rw [mountFuseRead]
      by_cases hlarge : size > intMax
      · exact ⟨served.mount, _, _, if_pos hlarge, h⟩
      · dsimp only at hpointer
        rw [if_neg hlarge, hpointer]
        simp only [hentry, Option.bind_eq_bind, Option.bind_some, Option.pure_def]
        rw [mountFileEntryReadBufferAtOffset]
        rcases hindex : fileEntry.volumeIndex with - | volumeIndex
        · exact ⟨served.mount, _, _, rfl, h⟩
        · obtain ⟨volume, hvolume⟩ :=
            Mount.exists_volume h.mounted (h.isIn pointer fileEntry hentry volumeIndex hindex)
          simp only [hvolume, Option.map_some, Option.bind_some]
          have hsound : ∀ volume', Served.Sound p
              { served with mount := served.mount.setVolume volumeIndex volume' } left := by
            intro volume'
            exact h.withVolumes (setVolume_isMounted h.mounted _ _) List.length_set
          split
          · exact ⟨_, _, _, rfl, hsound _⟩
          · exact ⟨_, _, _, rfl, hsound _⟩
    obtain ⟨mount', data, result, hread, hsound⟩ := hread
    refine fuseAnswered_of_sound (if result < 0 then .error result else .data data)
      (by rw [fuseCall, hinfo]; simp only [hread]; rfl) hsound ?_
    split
    · rintro ⟨⟩
    · rintro ⟨⟩

theorem FuseAnswered.readdir (h : served.Sound p left) (env : ReaddirEnvironment) (handle : ℕ) :
    FuseAnswered C L p (.readdir env handle) served left := by
  rcases hinfo : served.fileInfo? .directory handle with - | fileInfo
  · exact .badHandle h (by rw [fuseCall, hinfo])
  · have hopen := Served.fileInfo?_eq_some.1 hinfo
    obtain ⟨pointer, fileEntry, hpointer, hentry⟩ := h.fileEntry hopen
    obtain ⟨mount', ⟨entries, result⟩, hread, hsame⟩ := exists_mountFuseReaddir
      h.mounted env hpointer hentry (h.isIn pointer fileEntry hentry)
    refine fuseAnswered_of_sound (if result ≠ 0 then .error result else .directory entries)
      (by rw [fuseCall, hinfo]; simp only [hread]; rfl) (h.of_sameMount hsame) ?_
    split
    · rintro ⟨⟩
    · rintro ⟨⟩

theorem FuseAnswered.getattr (h : served.Sound p left) (allocationFails : Bool)
    (path : NarrowString) : FuseAnswered C L p (.getattr allocationFails path) served left := by
  obtain ⟨mount', statInfo, result, hcall, hsame⟩ :=
    exists_mountFuseGetattr (C := C) h.mounted h.pathPrefix allocationFails path
  cases statInfo with
  | none =>
    exact fuseAnswered_of_sound (.error result) (by rw [fuseCall, hcall]; rfl)
      (h.of_sameMount hsame) (by rintro ⟨⟩)
  | some statInfo =>
    exact fuseAnswered_of_sound (.attributes statInfo) (by rw [fuseCall, hcall]; rfl)
      (h.of_sameMount hsame) (by rintro ⟨⟩)

theorem FuseAnswered.release (h : served.Sound p left) (handle : ℕ) :
    FuseAnswered C L p (.release handle) served left := by
  rcases hinfo : served.fileInfo? .file handle with - | fileInfo
  · exact .badHandle h (by rw [fuseCall, hinfo])
  · have hopen := Served.fileInfo?_eq_some.1 hinfo
    obtain ⟨pointer, fileEntry, hpointer, hentry⟩ := h.fileEntry hopen
    refine fuseAnswered_of_sound (.released .file) ?_
      (h.release hopen hpointer hentry) (by rintro ⟨⟩)
    dsimp only at hpointer
    rw [fuseCall, hinfo]
    dsimp only
    rw [mountFuseRelease, hpointer]
    simp only [mountFileEntryFree, hentry]
    rfl

theorem FuseAnswered.releasedir (h : served.Sound p left) (handle : ℕ) :
    FuseAnswered C L p (.releasedir handle) served left := by
  rcases hinfo : served.fileInfo? .directory handle with - | fileInfo
  · exact .badHandle h (by rw [fuseCall, hinfo])
  · have hopen := Served.fileInfo?_eq_some.1 hinfo
    obtain ⟨pointer, fileEntry, hpointer, hentry⟩ := h.fileEntry hopen
    refine ⟨_, .released .directory, pointer :: left, ?_, h.releasedir hopen hpointer, rfl⟩
    rw [fuseCall, hinfo]
    rfl

theorem FuseAnswered.signalAbort (h : served.Sound p left) :
    FuseAnswered C L p .signalAbort served left := by
  have hvolumes : ∀ i < served.mount.fileSystem.volumes.length, ∃ volume,
      served.mount.fileSystem.volumes[i]? = some (some volume) ∧ True := by
    intro i hi
    obtain ⟨volume, hvolume⟩ := Mount.exists_volume h.mounted hi
    exact ⟨volume, Option.join_eq_some_iff.1 hvolume, trivial⟩
  obtain ⟨volumes', hloop, hlength, hrest⟩ := exists_signalAbortFrom
    (P := fun _ _ => True) (fun _ _ _ => trivial)
    (served.mount.fileSystem.volumes.length - 1) (by omega) hvolumes
  have hmounted : none ∉ volumes' := by
    intro hmem
    obtain ⟨i, hi, hnone⟩ := List.getElem_of_mem hmem
    obtain ⟨volume, hvolume, -⟩ := hrest i (by omega)
    rw [List.getElem?_eq_getElem hi, hnone] at hvolume
    cases hvolume
  have hsignal : mountFileSystemSignalAbort served.mount.fileSystem =
      some ({ served.mount.fileSystem with volumes := volumes' }, 1) := by
    rw [mountFileSystemSignalAbort, hloop]
    rfl
  have hcall : fuseCall C L .signalAbort served =
      some ({ served with mount := served.mount.withVolumes volumes' }, .signalled 1) := by
    rw [fuseCall, mountHandleSignalAbort,
      show served.mount.mountHandle.fileSystem = served.mount.fileSystem from rfl, hsignal]
    rfl
  exact fuseAnswered_of_sound _ hcall (h.withVolumes hmounted hlength) (by rintro ⟨⟩)

/-- Every request is answered, whatever fails, and keeps the ledger. -/
theorem Served.Sound.answered (h : served.Sound p left) (request : FuseRequest) :
    FuseAnswered C L p request served left := by
  cases request with
  | openFile allocationFails path flags =>
    by_cases hwrite : flags &&& 3 ≠ 0
    · refine fuseAnswered_of_sound (.error (-eacces)) ?_ h (by rintro ⟨⟩)
      rw [fuseCall, mountFuseOpen, if_neg (not_not.2 rfl), if_pos hwrite]
      rfl
    · refine .opened h allocationFails path .file flags ?_
      intro mount fh result hpath
      rw [fuseCall, mountFuseOpen, if_neg (not_not.2 rfl), if_neg hwrite, hpath]
  | opendir allocationFails path =>
    refine .opened h allocationFails path .directory 0 ?_
    intro mount fh result hpath
    rw [fuseCall, mountFuseOpendir, if_neg (not_not.2 rfl), hpath]
  | read env handle size offset => exact .read h env handle size offset
  | readdir env handle => exact .readdir h env handle
  | getattr allocationFails path => exact .getattr h allocationFails path
  | release handle => exact .release h handle
  | releasedir handle => exact .releasedir h handle
  | signalAbort => exact .signalAbort h

end

/-! ## The whole run -/

/-- How many of the answers are those of a released directory. -/
def releasedDirectories (answers : List (Option FuseAnswer)) : ℕ :=
  answers.count (some (.released .directory))

/-- Requests one after the other, by induction on them. -/
theorem Served.Sound.run {served : Served} {left : List ℕ} (h : served.Sound p left)
    (requests : List FuseRequest) :
    ∃ served' left', stateAfter (fuseStep C L) (some served) requests = some served' ∧
      none ∉ answers (fuseStep C L) (some served) requests ∧ served'.Sound p left' ∧
      left'.length =
        left.length + releasedDirectories (answers (fuseStep C L) (some served) requests) := by
  induction requests generalizing served left with
  | nil => exact ⟨served, left, rfl, List.not_mem_nil, h, rfl⟩
  | cons request requests ih =>
    obtain ⟨served₁, answer, left₁, hcall, hsound, hlength⟩ :=
      h.answered (C := C) (L := L) request
    obtain ⟨served₂, left₂, hstate, hdefined, hsound₂, hlength₂⟩ := ih hsound
    have hstep : fuseStep C L request (some served) = (some served₁, some answer) := by
      simp only [fuseStep, Option.bind_some, hcall, Option.map_some]
    rw [stateAfter_cons, answers_cons, hstep]
    refine ⟨served₂, left₂, hstate, ?_, hsound₂, ?_⟩
    · intro hmem
      rcases List.mem_cons.1 hmem with hnone | hmem
      · cases hnone
      · exact hdefined hmem
    · rw [hlength₂, hlength, releasedDirectories, releasedDirectories, List.count_cons,
        FuseAnswer.leaves]
      simp only [beq_iff_eq, Option.some.injEq]
      omega

/-- A new mount has no file entries. -/
theorem Mount.served_sound (hmounted : mount.fileSystem.IsMounted)
    (hp : mount.fileSystem.HasPathPrefix p) (hnew : mount.fileEntries = .empty) :
    mount.served.Sound p [] := by
  refine ⟨hmounted, hp, ?_, ?_, ?_⟩
  · intro pointer fileEntry hpointer
    change mount.fileEntries.get? pointer = some fileEntry at hpointer
    rw [hnew] at hpointer
    cases hpointer
  · intro handle openFile hopen
    cases hopen
  · show (mount.fileEntries.live.map Prod.fst).Perm _
    rw [hnew]
    exact List.Perm.refl _

/-- **The ledger of the mount.**  Whatever is asked of a new mount of volumes that are there, in any
order and whatever fails, no callback follows a pointer to released memory; each file and directory
that is open has a file entry of its own in memory; and there are as many file entries in memory as
files and directories are open and directories were released. -/
theorem fuse_ledger (C : Libcpath) (L : Libraries) {mount : Mount} {p : List UInt8}
    (hmounted : mount.fileSystem.IsMounted) (hp : mount.fileSystem.HasPathPrefix p)
    (hnew : mount.fileEntries = .empty) (requests : List FuseRequest) :
    let answered := answers (fuseStep C L) (some mount.served) requests
    none ∉ answered ∧
      ∃ served, stateAfter (fuseStep C L) (some mount.served) requests = some served ∧
        (∀ handle openFile, served.openFiles.get? handle = some openFile →
          ∃ pointer fileEntry, openFile.fileInfo.fh = some pointer ∧
            served.mount.fileEntries.get? pointer = some fileEntry) ∧
        (∀ handle handle' openFile openFile',
          served.openFiles.get? handle = some openFile →
          served.openFiles.get? handle' = some openFile' →
          openFile.fileInfo.fh = openFile'.fileInfo.fh → handle = handle') ∧
        served.mount.fileEntries.live.length =
          served.openFiles.live.length + releasedDirectories answered := by
  intro answered
  obtain ⟨served, left, hstate, hdefined, hsound, hlength⟩ :=
    (Mount.served_sound hmounted hp hnew).run (C := C) (L := L) requests
  refine ⟨hdefined, served, hstate, fun _ _ hopen => hsound.fileEntry hopen,
    fun _ _ _ _ hopen hopen' hsame => hsound.handle_unique hopen hopen' hsame, ?_⟩
  have hcount := hsound.owned.length_eq
  rw [Served.pointers, Served.held, List.length_append, List.length_map, List.length_map,
    hlength, List.length_nil, Nat.zero_add] at hcount
  exact hcount

theorem zero_not_mem_rootPath : (0 : UInt8) ∉ [0x2f] := by decide

/-- The path of the root. -/
def rootPath : NarrowString := ⟨[0x2f], zero_not_mem_rootPath⟩

/-- A new mount of one volume. -/
def luksdeMount : Mount :=
  ⟨{ mountHandleInitialize 0 with fileSystem := luksdeFileSystem }, 0, 0, 0, .empty⟩

theorem luksdeMount_isMounted : luksdeMount.fileSystem.IsMounted := by
  intro hmem
  cases List.mem_singleton.1 hmem

/-- A directory is opened, read and released. -/
def directoryRequests : List FuseRequest :=
  [.opendir false rootPath, .readdir {} 0, .releasedir 0]

theorem fuse_ledger_rootPath :
    none ∉ answers (fuseStep slash smallLibraries) (some luksdeMount.served) directoryRequests ∧
      ∃ served, stateAfter (fuseStep slash smallLibraries) (some luksdeMount.served)
          directoryRequests = some served ∧
        (∀ handle openFile, served.openFiles.get? handle = some openFile →
          ∃ pointer fileEntry, openFile.fileInfo.fh = some pointer ∧
            served.mount.fileEntries.get? pointer = some fileEntry) ∧
        (∀ handle handle' openFile openFile',
          served.openFiles.get? handle = some openFile →
          served.openFiles.get? handle' = some openFile' →
          openFile.fileInfo.fh = openFile'.fileInfo.fh → handle = handle') ∧
        served.mount.fileEntries.live.length =
          served.openFiles.live.length + releasedDirectories
            (answers (fuseStep slash smallLibraries) (some luksdeMount.served) directoryRequests) :=
  fuse_ledger slash smallLibraries luksdeMount_isMounted luksdeFileSystem_hasPathPrefix rfl
    directoryRequests

end Libluksde
