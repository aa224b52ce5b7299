import Libluksde.FuseOwnership
import Libluksde.VolumeContent

/-!
# The tree of a mount

A mount shows its volumes as the files of one directory.  This is what the callbacks answer where
nothing fails: the path of a volume leads to it, its file has the content of the volume, and reading
the directory fills in the names under which the volumes are found.
-/

namespace Libluksde

open Lib (Heap Reading)
open Lib.Bytes Lib.Machine Lib.Stores Lib.Decimal
open Lib.FileServer (Kind Tree)

variable {C : Libcpath} {L : Libraries} {mount mount' : Mount} {p : List UInt8}

/-! ## Paths -/

/-- The node that a path leads to: the root, or the volume at an index. -/
def mountNode (p : List UInt8) (numberOfVolumes : ℕ) (path : List UInt8) : Option (Option ℕ) :=
  let digits := path.drop p.length
  if path.length = 1 ∧ path.head? = p.head? then some none
  else if path = p ++ digits ∧ digits.all (fun c => decide (IsDigit c)) = true ∧
      1 ≤ digits.length ∧ digits.length ≤ 4 ∧ 1 ≤ value digits ∧ value digits ≤ numberOfVolumes then
    some (some (value digits - 1))
  else none

theorem isRootPath_iff {path : List UInt8} :
    IsRootPath p path ↔ path.length = 1 ∧ path.head? = p.head? := by
  constructor
  · rintro ⟨c, hc, rfl⟩
    exact ⟨rfl, hc.symm⟩
  · rintro ⟨hlength, hhead⟩
    obtain ⟨c, rfl⟩ := List.length_eq_one_iff.1 hlength
    exact ⟨c, hhead.symm, rfl⟩

theorem mountNode_root {path : List UInt8} (n : ℕ) (h : IsRootPath p path) :
    mountNode p n path = some none := if_pos (isRootPath_iff.1 h)

theorem mountNode_numbered {path d : List UInt8} (n : ℕ) (h : IsNumberedPath p path d) :
    mountNode p n path =
      if 1 ≤ value d ∧ value d ≤ n then some (some (value d - 1)) else none := by
  have hroot := mt isRootPath_iff.2 h.not_isRootPath
  obtain ⟨rfl, hdigits, hone, hfour⟩ := h
  have hall : d.all (fun c => decide (IsDigit c)) = true :=
    List.all_eq_true.2 fun c hc => decide_eq_true (hdigits c hc)
  rw [mountNode, if_neg hroot, List.drop_left]
  by_cases hvalue : 1 ≤ value d ∧ value d ≤ n
  · rw [if_pos hvalue, if_pos ⟨rfl, hall, hone, hfour, hvalue⟩]
  · rw [if_neg hvalue, if_neg]
    rintro ⟨-, -, -, -, hrange⟩
    exact hvalue hrange

theorem mountNode_other {path : List UInt8} (n : ℕ) (hroot : ¬ IsRootPath p path)
    (hnumbered : ∀ d, ¬ IsNumberedPath p path d) : mountNode p n path = none := by
  rw [mountNode, if_neg (mt isRootPath_iff.2 hroot), if_neg]
  rintro ⟨hsplit, hall, hone, hfour, -⟩
  refine hnumbered _ ⟨hsplit, fun c hc => ?_, hone, hfour⟩
  exact of_decide_eq_true (List.all_eq_true.1 hall c hc)

/-- The lookup finds the node that the path leads to, and nothing else. -/
theorem getVolumeByPath_eq_one_iff (hp : mount.fileSystem.HasPathPrefix p) (path : NarrowString)
    {pathLength : ℕ} (hlength : pathLength ≤ ssizeMax - 1) (node : Option ℕ) :
    mountFileSystemGetVolumeByPath mount.fileSystem (path.1 ++ [0]) pathLength = ⟨1, node⟩ ↔
      mountNode p mount.fileSystem.volumes.length path.1 = some node := by
  by_cases hroot : IsRootPath p path.1
  · rw [getVolumeByPath_root hp path.2 [] hlength hroot, mountNode_root _ hroot]
    simp
  · by_cases hnumbered : ∃ d, IsNumberedPath p path.1 d
    · obtain ⟨d, hd⟩ := hnumbered
      rw [getVolumeByPath_numbered hp path.2 [] hlength hd, mountNode_numbered _ hd]
      split
      · simp
      · simp
    · rw [getVolumeByPath_other hp path.2 [] hlength hroot (not_exists.1 hnumbered),
        mountNode_other _ hroot (not_exists.1 hnumbered)]
      simp

/-- A path that leads nowhere has no file entry. -/
theorem fileEntryByPath_of_none (hp : mount.fileSystem.HasPathPrefix p) {path : NarrowString}
    (hnode : mountNode p mount.fileSystem.volumes.length path.1 = none) (allocationFails : Bool) :
    ∃ result, (result = -1 ∨ result = 0) ∧
      mount.fileEntryByPath C allocationFails path = (mount, none, result) := by
  rcases fileEntryByPath_found (C := C) hp allocationFails path with hnone | ⟨e, hlookup, -⟩
  · exact hnone
  · exfalso
    rcases Nat.lt_or_ge (ssizeMax - 1) (lengthWithoutSeparator C path.1) with hlarge | hsmall
    · rw [getVolumeByPath_large hp _ hlarge] at hlookup
      cases hlookup
    · rw [(getVolumeByPath_eq_one_iff hp path hsmall _).1 hlookup] at hnode
      cases hnode

/-- The path of a node does not end with a separator. -/
theorem not_hasTrailingSeparator {path : NarrowString} {node : Option ℕ}
    (hp : mount.fileSystem.HasPathPrefix p)
    (hnode : mountNode p mount.fileSystem.volumes.length path.1 = some node) :
    ¬ HasTrailingSeparator C path.1 := by
  intro htrailing
  have hlookup := htrailing.lookup (holdsString_getD path.2 []) hp (Nat.zero_le _)
  rw [(getVolumeByPath_eq_one_iff hp path (Nat.zero_le _) node).2 hnode] at hlookup
  cases hlookup

/-- The path of a node is short. -/
theorem length_le_of_mountNode {path : List UInt8} {n : ℕ} {node : Option ℕ}
    (hnode : mountNode p n path = some node) : path.length ≤ p.length + 4 := by
  rw [mountNode] at hnode
  split_ifs at hnode with hroot hnumbered
  · omega
  · have hsplit := congrArg List.length hnumbered.1
    rw [List.length_append] at hsplit
    omega

/-- A path that leads to a node has a file entry of it, if there is memory. -/
theorem fileEntryByPath_of_node (hp : mount.fileSystem.HasPathPrefix p)
    (hsmall : p.length + 4 ≤ ssizeMax - 1) {path : NarrowString} {node : Option ℕ}
    (hnode : mountNode p mount.fileSystem.volumes.length path.1 = some node) :
    ∃ fileEntry : FileEntry, fileEntry.volumeIndex = node ∧
      mount.fileEntryByPath C false path =
        ((mount.allocate fileEntry).1, some (mount.allocate fileEntry).2, 1) := by
  have hs := holdsString_getD path.2 []
  have hlast : ¬ HasTrailingSeparator C path.1 := not_hasTrailingSeparator hp hnode
  have hlength : lengthWithoutSeparator C path.1 = path.1.length := if_neg hlast
  have hshort := length_le_of_mountNode hnode
  have hfound := (getVolumeByPath_eq_one_iff hp path
    (hshort.trans hsmall) node).2 hnode
  have hne : path.1 ≠ [] := by
    intro hempty
    rw [hempty] at hnode
    simp [mountNode] at hnode
  rcases hs.pathBounds C (Nat.lt_succ_self _) hne with ⟨pathIndex, hindex, hbounds⟩
  have hlt := (hs.pathIndex_lt_iff C hne hindex).2 hlast
  rw [hlength] at hbounds hlt
  have hlookup := (hs.getVolumeByPathReading (Nat.lt_succ_self _) hp path.1.length).1
  -- the length of the name is that of a part of the path
  have hname : ¬ (ssizeMax - 1 < filenameLength path.1.length pathIndex ∨ false = true) := by
    have hmax : ssizeMax = 2 ^ 63 - 1 := rfl
    rw [filenameLength, if_neg (by omega), size64]
    simp only [Bool.false_eq_true, or_false]
    omega
  have herror : ¬ (⟨1, node⟩ : Lookup).result = -1 := by
    show ¬ (1 : ℤ) = -1
    decide
  refine ⟨⟨(List.range' (pathIndex + 1) (filenameLength path.1.length pathIndex)).map
    (fun i => (path.1 ++ [0]).getD i 0) ++ [0], filenameLength path.1.length pathIndex + 1, node⟩,
    rfl, ?_⟩
  rw [Mount.fileEntryByPath, mountHandleGetFileEntryByPath, Reading.run_bind, hbounds]
  dsimp only
  rw [Reading.run_bind, hlookup, hfound, Reading.run_ite, if_neg herror, Reading.run_ite,
    if_pos (Int.one_ne_zero), Reading.run_bind, run_mountFileEntryInitialize_none, if_neg hname]
  rfl

/-! ## The tree -/

/-- What is told about a node of a mount whose volumes have these contents. -/
def nodeStat (mount : Mount) (contents : List (List UInt8)) (node : Option ℕ) : StatInfo where
  size := ((node.bind fun i => contents[i]?).getD []).length
  mode := if node = none then 0x416d else 0x8124
  nlink := if node = none then 2 else 1
  uid := mount.effectiveUserId
  gid := mount.effectiveGroupId
  atime := (off64 mount.mountedTimestamp.toNat).tdiv 1000000000
  ctime := (off64 mount.mountedTimestamp.toNat).tdiv 1000000000
  mtime := (off64 mount.mountedTimestamp.toNat).tdiv 1000000000

/-- What is told about the parent of the root, which is not part of the mount. -/
def outsideStat (mount : Mount) : StatInfo :=
  ⟨0, 0, 1, mount.effectiveUserId, mount.effectiveGroupId, 0, 0, 0⟩

/-- What is told about the parent of a node. -/
def parentStat (mount : Mount) (contents : List (List UInt8)) (node : Option ℕ) : StatInfo :=
  if node = none then outsideStat mount else nodeStat mount contents none

/-- The name of a volume in the root: its path without the separator. -/
def volumeName (p : List UInt8) (volumeIndex : ℕ) : List UInt8 :=
  p.drop 1 ++ numeral (volumeIndex + 1)

/-- The names in a node: itself, its parent, and in the root those of the volumes. -/
def nodeEntries (mount : Mount) (p : List UInt8) (contents : List (List UInt8))
    (node : Option ℕ) : List (List UInt8 × StatInfo) :=
  ([0x2e], nodeStat mount contents node) :: ([0x2e, 0x2e], parentStat mount contents node) ::
    (List.range (if node = none then contents.length else 0)).map fun i =>
      (volumeName p i, nodeStat mount contents (some i))

/-- The tree that a mount shows.  As the code does it, a volume is found by every path that begins
with the prefix and goes on with its number, with zeros before it or not. -/
def mountTree (mount : Mount) (p : List UInt8) (contents : List (List UInt8)) :
    Tree (Option ℕ) UInt8 StatInfo where
  find := mountNode p contents.length
  content := fun node => node.bind fun i => contents[i]?
  status := nodeStat mount contents
  entries := nodeEntries mount p contents

/-- An entry of the tree as the callbacks fill it in. -/
def directoryEntry (entry : List UInt8 × StatInfo) : DirectoryEntry := ⟨entry.1, entry.2⟩

/-- A node that is there. -/
def NodeIn (contents : List (List UInt8)) (node : Option ℕ) : Prop :=
  ∀ i, node = some i → i < contents.length

theorem nodeIn_of_mountNode {path : List UInt8} {contents : List (List UInt8)} {node : Option ℕ}
    (h : mountNode p contents.length path = some node) : NodeIn contents node := by
  rw [mountNode] at h
  rintro i rfl
  split_ifs at h with hroot hnumbered
  · cases h
  · have hindex := Option.some.inj (Option.some.inj h)
    omega

/-- The volumes of a mount show these contents, and the mount was made as another one.  The volumes
are of whole sectors, in a block cipher with a supported initialization vector. -/
structure MountShows (L : Libraries) (p : List UInt8) (made : Mount)
    (contents : List (List UInt8)) (mount : Mount) : Prop where
  pathPrefix : mount.fileSystem.HasPathPrefix p
  mountedTimestamp : mount.mountedTimestamp = made.mountedTimestamp
  effectiveUserId : mount.effectiveUserId = made.effectiveUserId
  effectiveGroupId : mount.effectiveGroupId = made.effectiveGroupId
  length : mount.fileSystem.volumes.length = contents.length
  shows : ∀ i (hi : i < contents.length), ∃ volume file, mount.volume? i = some volume ∧
    Shows L volume file contents[i]

section

variable {made : Mount} {contents : List (List UInt8)} (h : MountShows L p made contents mount)

include h

theorem MountShows.isMounted : mount.fileSystem.IsMounted := by
  intro hmem
  obtain ⟨i, hi, hnone⟩ := List.getElem_of_mem hmem
  obtain ⟨volume, file, hvolume, -⟩ := h.shows i (h.length ▸ hi)
  rw [Mount.volume?, List.getElem?_eq_getElem hi, hnone] at hvolume
  cases hvolume

theorem MountShows.of_same (hsame : mount.Same mount') : MountShows L p made contents mount' where
  pathPrefix := hsame.fileSystem ▸ h.pathPrefix
  mountedTimestamp := hsame.mountedTimestamp.trans h.mountedTimestamp
  effectiveUserId := hsame.effectiveUserId.trans h.effectiveUserId
  effectiveGroupId := hsame.effectiveGroupId.trans h.effectiveGroupId
  length := hsame.fileSystem ▸ h.length
  shows := by
    rw [show mount'.volume? = mount.volume? by
      funext i
      rw [Mount.volume?, hsame.fileSystem, Mount.volume?]]
    exact h.shows

/-- The heap of the file entries does not matter. -/
theorem MountShows.withFileEntries (fileEntries : Heap FileEntry) :
    MountShows L p made contents { mount with fileEntries := fileEntries } :=
  ⟨h.pathPrefix, h.mountedTimestamp, h.effectiveUserId, h.effectiveGroupId, h.length, h.shows⟩

/-- A volume that shows its content still. -/
theorem MountShows.setVolume {i : ℕ} (hi : i < contents.length) {volume : Volume}
    {file : FileIoHandle} (hvolume : Shows L volume file contents[i]) :
    MountShows L p made contents (mount.setVolume i volume) where
  pathPrefix := ⟨h.pathPrefix.1, h.pathPrefix.2, h.pathPrefix.3⟩
  mountedTimestamp := h.mountedTimestamp
  effectiveUserId := h.effectiveUserId
  effectiveGroupId := h.effectiveGroupId
  length := List.length_set.trans h.length
  shows := by
    intro j hj
    have hget : (mount.setVolume i volume).volume? j =
        (mount.fileSystem.volumes.set i (some volume))[j]?.join := rfl
    rw [hget]
    by_cases hsame : i = j
    · subst hsame
      exact ⟨volume, file, by rw [List.getElem?_set_self (h.length ▸ hi)]; rfl, hvolume⟩
    · rw [List.getElem?_set_ne hsame]
      exact h.shows j hj

/-- What is told about the file entry of a node is what is told about the node. -/
theorem MountShows.statOfFileEntry {fileEntry : FileEntry}
    (hnode : NodeIn contents fileEntry.volumeIndex) :
    statOfFileEntry mount fileEntry =
      some (some (nodeStat made contents fileEntry.volumeIndex)) := by
  rw [Libluksde.statOfFileEntry, mountFileEntryGetSize, mountFileEntryGetFileMode]
  cases hindex : fileEntry.volumeIndex with
  | none =>
    simp only [Option.map_some, mountFuseSetStatInfo, mountFileEntryGetAccessTime,
      mountFileEntryGetInodeChangeTime, mountFileEntryGetModificationTime,
      mountFileSystemGetMountedTimestamp, h.mountedTimestamp, h.effectiveUserId,
      h.effectiveGroupId]
    rfl
  | some i =>
    have hi := hnode i hindex
    obtain ⟨volume, file, hvolume, hshows⟩ := h.shows i hi
    have hsize := (hshows.wellformed.readable hshows.fileIoHandle).size
    have hcontent : contents[i]? = some contents[i] := List.getElem?_eq_getElem hi
    simp only [hvolume, Option.map_some, mountFuseSetStatInfo, mountFileEntryGetAccessTime,
      mountFileEntryGetInodeChangeTime, mountFileEntryGetModificationTime,
      mountFileSystemGetMountedTimestamp, h.mountedTimestamp, h.effectiveUserId,
      h.effectiveGroupId]
    rw [if_neg (by omega)]
    simp only [nodeStat, hcontent, hshows.size, Option.bind_some, Option.getD_some, reduceCtorEq,
      if_false]
    rfl

/-- A file entry is filled in with what is told about its node, if the filler takes it. -/
theorem MountShows.filldir {fileEntry : FileEntry}
    (hnode : NodeIn contents fileEntry.volumeIndex) (fillerFails : Bool)
    (buffer : List DirectoryEntry) {name : List UInt8} (hname : (0 : UInt8) ∉ name) :
    mountFuseFilldir fillerFails mount buffer (name ++ [0]) (some fileEntry) =
      some (if fillerFails then (buffer, -1)
        else (buffer ++ [directoryEntry (name, nodeStat made contents fileEntry.volumeIndex)], 1)) := by
  rw [mountFuseFilldir.eq_def]
  simp only [h.statOfFileEntry hnode, systemString_append hname [], Option.map_some]
  rfl

end

/-! ## Reading a directory -/

/-- There is memory for everything, and the filler takes all names. -/
structure ReaddirEnvironment.Reliable (env : ReaddirEnvironment) : Prop where
  statInfo : env.statInfoFails = false
  parent : env.parentFails = false
  subFileEntry : ∀ i, env.subFileEntryFails i = false
  name : ∀ i, env.nameFails i = false
  filler : ∀ i, env.fillerFails i = false

theorem ReaddirEnvironment.reliable_default : ({} : ReaddirEnvironment).Reliable :=
  ⟨rfl, rfl, fun _ => rfl, fun _ => rfl, fun _ => rfl⟩

/-- A part of `mount_fuse_readdir` that returns `success` fills in these directory entries, and it
does so where nothing fails; the file entries in memory stay as they are in any case. -/
inductive FillsIn (env : ReaddirEnvironment) (mount : Mount) (success : ℤ)
    (entries : List DirectoryEntry) : Option (Mount × List DirectoryEntry × ℤ) → Prop
  | done {returned : Option (Mount × List DirectoryEntry × ℤ)} {mount' : Mount}
      (hreturned : returned = some (mount', entries, success)) (hsame : mount.Same mount') :
      FillsIn env mount success entries returned
  | failed {returned : Option (Mount × List DirectoryEntry × ℤ)} {mount' : Mount}
      {buffer : List DirectoryEntry} {result : ℤ}
      (hreturned : returned = some (mount', buffer, result)) (hsame : mount.Same mount')
      (hresult : result ≠ success) (hunreliable : ¬ env.Reliable) :
      FillsIn env mount success entries returned

theorem FillsIn.of_same {env : ReaddirEnvironment} {success : ℤ} {entries : List DirectoryEntry}
    {returned : Option (Mount × List DirectoryEntry × ℤ)}
    (h : FillsIn env mount' success entries returned) (hsame : mount.Same mount') :
    FillsIn env mount success entries returned := by
  cases h with
  | done hreturned hsame' => exact .done hreturned (hsame.trans hsame')
  | failed hreturned hsame' hresult hunreliable =>
    exact .failed hreturned (hsame.trans hsame') hresult hunreliable

/-- The name of a file entry is returned as it was given. -/
theorem mountFileEntryGetName_eq (name : List UInt8) (volumeIndex : Option ℕ)
    (hsize : name.length + 1 ≤ ssizeMax) :
    mountFileEntryGetName ⟨name ++ [0], name.length + 1, volumeIndex⟩ (name.length + 1) =
      some (name ++ [0]) := by
  have hset := set_append_cons name [] 0 0
  have htake : (name ++ [0]).take (name.length + 1) = name ++ [0] :=
    List.take_of_length_le (by rw [List.length_append, List.length_singleton])
  rw [mountFileEntryGetName, if_neg (Nat.not_lt.2 hsize), if_neg (Nat.lt_irrefl _)]
  dsimp only
  rw [htake, Nat.add_sub_cancel, hset]

section

variable {made : Mount} {contents : List (List UInt8)} (h : MountShows L p made contents mount)

include h

theorem MountShows.getNumberOfSubFileEntries (hnumber : contents.length ≤ 999)
    {fileEntry : FileEntry} :
    mountFileEntryGetNumberOfSubFileEntries mount fileEntry =
      some ((if fileEntry.volumeIndex = none then contents.length else 0 : ℕ) : ℤ) := by
  rw [mountFileEntryGetNumberOfSubFileEntries]
  cases fileEntry.volumeIndex with
  | none =>
    dsimp only
    rw [mountFileSystemGetNumberOfVolumes, h.length, if_neg (by omega), if_pos rfl]
  | some i => rfl

/-- The path of a volume is written, if it is short enough. -/
theorem MountShows.exists_path (hshort : p.length ≤ 27) (hnumber : contents.length ≤ 999) {i : ℕ}
    (hi : i < contents.length) (path : Buffer 32) :
    ∃ stores behind,
      mountFileSystemGetPathFromVolumeIndex mount.fileSystem i 32 = some stores ∧
        store path.bytes stores = p ++ numeral (i + 1) ++ 0 :: behind := by
  have hdigits : (numeral (i + 1)).length ≤ 3 := length_numeral_le_iff.2 (by omega)
  have hwritten : ∃ stores,
      mountFileSystemGetPathFromVolumeIndex mount.fileSystem i 32 = some stores := by
    have hvolume : ((i : ℤ) + 1).toNat = i + 1 := by omega
    rw [mountFileSystemGetPathFromVolumeIndex, h.pathPrefix.pathPrefix]
    dsimp only
    rw [if_neg (by decide), hvolume, countDigits_eq le_rfl, h.pathPrefix.pathPrefixSize,
      if_neg (by omega)]
    exact ⟨_, rfl⟩
  obtain ⟨stores, hstores⟩ := hwritten
  obtain ⟨behind, hbehind⟩ := (mountFileSystemGetPathFromVolumeIndex_path h.pathPrefix hstores).2
    path.bytes path.length_eq.ge
  exact ⟨stores, behind, hstores, hbehind⟩

/-- The file entry of a volume in the root. -/
theorem MountShows.getSubFileEntryByIndex (hp : p ≠ []) (hshort : p.length ≤ 27)
    (hnumber : contents.length ≤ 999) {fileEntry : FileEntry}
    (hroot : fileEntry.volumeIndex = none) {i : ℕ} (hi : i < contents.length)
    (allocationFails : Bool) (path : Buffer 32) :
    mountFileEntryGetSubFileEntryByIndex allocationFails path mount fileEntry i =
      if allocationFails then none
      else some ⟨volumeName p i ++ [0], (volumeName p i).length + 1, some i⟩ := by
  obtain ⟨stores, behind, hstores, hpath⟩ := h.exists_path hshort hnumber hi path
  have hdigits : (numeral (i + 1)).length ≤ 3 := length_numeral_le_iff.2 (by omega)
  have hpositive := List.length_pos_iff.2 hp
  have hzero : (0 : UInt8) ∉ p ++ numeral (i + 1) := by
    intro hmem
    rcases List.mem_append.1 hmem with hmem | hmem
    · exact h.pathPrefix.zero_not_mem hmem
    · exact zero_not_mem_numeral _ hmem
  have hs := holdsString_getD hzero behind
  have hlength : (p ++ numeral (i + 1)).length = p.length + (numeral (i + 1)).length :=
    List.length_append
  have hdrop : (p ++ numeral (i + 1)).drop 1 = volumeName p i :=
    List.drop_append_of_le_length hpositive
  have hname : (volumeName p i).length = p.length + (numeral (i + 1)).length - 1 := by
    rw [← hdrop, List.length_drop, hlength]
  -- the name is the path behind its first character
  have hsize : size64 (((p ++ numeral (i + 1)).length : ℤ) - 1) = (volumeName p i).length := by
    rw [hname, hlength, size64]
    omega
  have hmap : (List.range' 1 (volumeName p i).length).map
      (fun k => (p ++ numeral (i + 1) ++ 0 :: behind).getD k 0) = volumeName p i := by
    rw [hs.map_range' (by rw [hname, hlength]; omega), hdrop, List.take_length]
  have hvolume : mountFileSystemGetVolumeByIndex mount.fileSystem i = some i := by
    rw [mountFileSystemGetVolumeByIndex, libcdataArrayGetEntryByIndex, h.length, if_pos (by omega),
      Int.toNat_natCast]
  have hfits : ¬ ssizeMax - 1 < (volumeName p i).length := by
    have hmax : ssizeMax = 2 ^ 63 - 1 := rfl
    omega
  rw [mountFileEntryGetSubFileEntryByIndex, h.getNumberOfSubFileEntries hnumber, if_pos hroot]
  dsimp only
  rw [if_neg (by omega), hstores]
  dsimp only
  rw [hvolume]
  dsimp only
  rw [hpath, systemString_append hzero, hsize, run_mountFileEntryInitialize_none, hmap]
  cases allocationFails with
  | false =>
    rw [if_neg (not_or.2 ⟨hfits, Bool.false_ne_true⟩)]
    rfl
  | true =>
    rw [if_pos (Or.inr rfl)]
    rfl

/-- The parent is filled in. -/
theorem MountShows.readdirParent (env : ReaddirEnvironment) {pointer : ℕ}
    {fileEntry : FileEntry} (hpointer : mount.fileEntries.get? pointer = some fileEntry)
    (buffer : List DirectoryEntry) :
    FillsIn env mount 1 (buffer ++
        [directoryEntry ([0x2e, 0x2e], parentStat made contents fileEntry.volumeIndex)])
      (readdirParent env mount pointer buffer) := by
  have hname : (0 : UInt8) ∉ [0x2e, 0x2e] := by decide
  have hne : (-1 : ℤ) ≠ 1 := by decide
  rw [Libluksde.readdirParent, hpointer]
  simp only [Option.bind_eq_bind, Option.bind_some, Option.pure_def]
  cases hindex : fileEntry.volumeIndex with
  | none =>
    simp only [mountFileEntryGetParentFileEntry, hindex]
    rw [if_neg (by decide), mountFuseFilldir.eq_def, parentStat, if_pos rfl, outsideStat,
      ← h.effectiveUserId, ← h.effectiveGroupId]
    cases hfiller : env.fillerFails 1 with
    | false => exact .done rfl (.refl mount)
    | true =>
      exact .failed rfl (.refl mount) hne fun henv =>
        Bool.false_ne_true ((henv.filler 1).symm.trans hfiller)
  | some i =>
    have hparent : mountFileEntryGetParentFileEntry env.parentFails mount fileEntry =
        if env.parentFails then (none, -1) else (some ⟨[0], 1, none⟩, 1) := by
      simp only [mountFileEntryGetParentFileEntry, hindex]
      cases env.parentFails with
      | false =>
        rw [run_mountFileEntryInitialize_none, if_neg (by decide)]
        rfl
      | true =>
        rw [run_mountFileEntryInitialize_none, if_pos (Or.inr rfl)]
        rfl
    cases hfails : env.parentFails with
    | true =>
      rw [hfails, if_pos rfl] at hparent
      rw [hparent]
      exact .failed rfl (.refl mount) hne fun henv =>
        Bool.false_ne_true (henv.parent.symm.trans hfails)
    | false =>
      rw [hfails, if_neg Bool.false_ne_true] at hparent
      obtain ⟨mount', hfree, hsame⟩ := mountFileEntryFree_allocate mount ⟨[0], 1, none⟩
      have hroot : NodeIn contents (⟨[0], 1, none⟩ : FileEntry).volumeIndex := by
        intro j hj
        cases hj
      have hfilled := (h.withFileEntries (mount.allocate ⟨[0], 1, none⟩).1.fileEntries).filldir
        hroot (env.fillerFails 1) buffer hname
      rw [hparent]
      dsimp only
      rw [if_neg (by decide), parentStat, if_neg (Option.some_ne_none i)]
      cases hfiller : env.fillerFails 1 with
      | false =>
        rw [hfiller] at hfilled
        exact .done ((congrArg (Option.bind · _) hfilled).trans
          ((congrArg (Option.bind · _) hfree).trans rfl)) hsame
      | true =>
        rw [hfiller] at hfilled
        exact .failed ((congrArg (Option.bind · _) hfilled).trans
          ((congrArg (Option.bind · _) hfree).trans rfl)) hsame hne fun henv =>
            Bool.false_ne_true ((henv.filler 1).symm.trans hfiller)

/-- One round of the loop fills in the name of a volume. -/
theorem MountShows.readdirSubFileEntry (hp : p ≠ []) (hshort : p.length ≤ 27)
    (hnumber : contents.length ≤ 999) (env : ReaddirEnvironment)
    {pointer : ℕ} {fileEntry : FileEntry}
    (hpointer : mount.fileEntries.get? pointer = some fileEntry)
    (hroot : fileEntry.volumeIndex = none) {i : ℕ} (hi : i < contents.length)
    (buffer : List DirectoryEntry) :
    FillsIn env mount 1
      (buffer ++ [directoryEntry (volumeName p i, nodeStat made contents (some i))])
      (readdirSubFileEntry env mount pointer i buffer) := by
  have hne : (-1 : ℤ) ≠ 1 := by decide
  have hdigits : (numeral (i + 1)).length ≤ 3 := length_numeral_le_iff.2 (by omega)
  have hzero : (0 : UInt8) ∉ volumeName p i := by
    intro hmem
    rcases List.mem_append.1 hmem with hmem | hmem
    · exact h.pathPrefix.zero_not_mem (List.mem_of_mem_drop hmem)
    · exact zero_not_mem_numeral _ hmem
  have hsize : (volumeName p i).length + 1 ≤ ssizeMax := by
    have hmax : ssizeMax = 2 ^ 63 - 1 := rfl
    rw [volumeName, List.length_append, List.length_drop]
    omega
  have hvolume : NodeIn contents
      (⟨volumeName p i ++ [0], (volumeName p i).length + 1, some i⟩ : FileEntry).volumeIndex := by
    intro j hj
    cases hj
    exact hi
  obtain ⟨mount', hfree, hsame⟩ := mountFileEntryFree_allocate mount
    ⟨volumeName p i ++ [0], (volumeName p i).length + 1, some i⟩
  have hfilled := (h.withFileEntries (mount.allocate
    ⟨volumeName p i ++ [0], (volumeName p i).length + 1, some i⟩).1.fileEntries).filldir hvolume
    (env.fillerFails (i + 2)) buffer hzero
  rw [Libluksde.readdirSubFileEntry, hpointer]
  simp only [Option.bind_eq_bind, Option.bind_some, Option.pure_def,
    h.getSubFileEntryByIndex hp hshort hnumber hroot hi (env.subFileEntryFails i) (env.path i)]
  cases hfails : env.subFileEntryFails i with
  | true =>
    exact .failed rfl (.refl mount) hne fun henv =>
      Bool.false_ne_true ((henv.subFileEntry i).symm.trans hfails)
  | false =>
    simp only [Bool.false_eq_true, if_false, readdirName, mountFileEntryGetNameSize,
      mountFileEntryGetName_eq _ _ hsize]
    cases hname : env.nameFails i with
    | true =>
      exact .failed ((congrArg (Option.bind · _) hfree).trans rfl) hsame hne fun henv =>
        Bool.false_ne_true ((henv.name i).symm.trans hname)
    | false =>
      cases hfiller : env.fillerFails (i + 2) with
      | false =>
        rw [hfiller] at hfilled
        exact .done ((congrArg (Option.bind · _) hfilled).trans
          ((congrArg (Option.bind · _) hfree).trans rfl)) hsame
      | true =>
        rw [hfiller] at hfilled
        exact .failed ((congrArg (Option.bind · _) hfilled).trans
          ((congrArg (Option.bind · _) hfree).trans rfl)) hsame hne fun henv =>
            Bool.false_ne_true ((henv.filler (i + 2)).symm.trans hfiller)

/-- The loop fills in the names of the volumes that are left, by induction on their number. -/
theorem MountShows.readdirLoop (hp : p ≠ []) (hshort : p.length ≤ 27)
    (hnumber : contents.length ≤ 999) (env : ReaddirEnvironment)
    {pointer : ℕ} {fileEntry : FileEntry}
    (hpointer : mount.fileEntries.get? pointer = some fileEntry)
    (hroot : fileEntry.volumeIndex = none) {left i : ℕ} (hleft : i + left = contents.length)
    (buffer : List DirectoryEntry) :
    FillsIn env mount 0
      (buffer ++ (List.range' i left).map fun k =>
        directoryEntry (volumeName p k, nodeStat made contents (some k)))
      (readdirLoop env pointer left i mount buffer) := by
  induction left generalizing mount i buffer with
  | zero =>
    rw [Libluksde.readdirLoop, List.range'_zero, List.map_nil, List.append_nil]
    exact .done rfl (.refl mount)
  | succ left ih =>
    rw [Libluksde.readdirLoop, List.range'_succ, List.map_cons, List.append_cons]
    rcases h.readdirSubFileEntry hp hshort hnumber env hpointer hroot
      (show i < contents.length by omega) buffer with
      ⟨hround, hsame⟩ | ⟨hround, hsame, hresult, hunreliable⟩
    · rw [hround]
      exact (ih (h.of_same hsame) ((hsame.get? pointer).trans hpointer)
        (show i + 1 + left = contents.length by omega) _).of_same hsame
    · rw [hround]
      simp only [Option.bind_eq_bind, Option.bind_some, Option.pure_def, if_pos hresult]
      exact .failed rfl hsame (by decide) hunreliable

/-- Reading a directory fills in the entries of its node. -/
theorem MountShows.readdir (hp : p ≠ []) (hshort : p.length ≤ 27)
    (hnumber : contents.length ≤ 999) {env : ReaddirEnvironment}
    (herrno : env.statInfoFails = true → env.errno ≠ 0)
    {pointer : ℕ} {fileEntry : FileEntry} {fileInfo : FileInfo}
    (hfh : fileInfo.fh = some pointer)
    (hpointer : mount.fileEntries.get? pointer = some fileEntry)
    (hnode : NodeIn contents fileEntry.volumeIndex) :
    FillsIn env mount 0 ((nodeEntries made p contents fileEntry.volumeIndex).map directoryEntry)
      (mountFuseReaddir env mount fileInfo) := by
  have hname : (0 : UInt8) ∉ [0x2e] := by decide
  have hself := h.filldir hnode (env.fillerFails 0) [] hname
  rw [mountFuseReaddir, hfh]
  dsimp only
  cases hfails : env.statInfoFails with
  | true =>
    exact .failed rfl (.refl mount) (herrno hfails) fun henv =>
      Bool.false_ne_true (henv.statInfo.symm.trans hfails)
  | false =>
    rw [if_neg Bool.false_ne_true, readdirFileEntry, hpointer]
    simp only [Option.bind_eq_bind, Option.bind_some, Option.pure_def]
    rw [show ([0x2e, 0] : List UInt8) = [0x2e] ++ [0] from rfl, hself]
    cases hfiller : env.fillerFails 0 with
    | true =>
      exact .failed rfl (.refl mount) (by decide) fun henv =>
        Bool.false_ne_true ((henv.filler 0).symm.trans hfiller)
    | false =>
      simp only [Option.bind_some, List.nil_append, Bool.false_eq_true, if_false]
      rw [if_neg (not_not.2 rfl)]
      rcases h.readdirParent env hpointer
        [directoryEntry ([0x2e], nodeStat made contents fileEntry.volumeIndex)] with
        ⟨hparent, hsame⟩ | ⟨hparent, hsame, hresult, hunreliable⟩
      · rw [hparent]
        simp only [Option.bind_some, List.singleton_append]
        have hshows := h.of_same hsame
        have hpointer₁ := (hsame.get? pointer).trans hpointer
        rw [if_neg (not_not.2 rfl), hshows.getNumberOfSubFileEntries hnumber]
        refine FillsIn.of_same ?_ hsame
        by_cases hroot : fileEntry.volumeIndex = none
        · have hloop := hshows.readdirLoop hp hshort hnumber env hpointer₁ hroot
            (Nat.zero_add contents.length)
            [directoryEntry ([0x2e], nodeStat made contents fileEntry.volumeIndex),
              directoryEntry ([0x2e, 0x2e], parentStat made contents fileEntry.volumeIndex)]
          rw [nodeEntries, if_pos hroot, List.range_eq_range', List.map_cons, List.map_cons,
            List.map_map]
          exact hloop
        · rw [nodeEntries, if_neg hroot]
          exact .done rfl (.refl _)
      · rw [hparent]
        simp only [Option.bind_some, if_pos hresult]
        exact .failed rfl hsame (by decide) hunreliable

end

end Libluksde
