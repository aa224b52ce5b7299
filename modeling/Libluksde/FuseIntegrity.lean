import Libluksde.FuseServer

/-!
# What a mount never answers

Whatever fails while requests are answered, nothing wrong is told: the data of a read are those of
the volume that the path led to when its handle was told, from the offset on; a directory that is
read without an error has all its entries; and the attributes of a path are those of its node.
-/

namespace Libluksde

open Lib (Heap)
open Lib.Bytes Lib.Machine
open Lib.FileServer (Kind Tree HandleTable HandleStep Told told_empty nodeOf nodeOf_eq_some serve)

variable {C : Libcpath} {L : Libraries} {p : List UInt8} {made : Mount}
  {contents : List (List UInt8)}

/-! ## Reading a volume -/

/-- A read at an offset, whatever fails, leaves the content as it is, and what it returns is the
beginning of what is there. -/
theorem Shows.readAt_prefix {v : Volume} {file : FileIoHandle} {content : List UInt8}
    (h : Shows L v file content) (env : ReadEnvironment) {size : ℕ} {offset : Off64}
    (hstep : v.InStep L file offset.1 size) :
    let r := volumeReadBufferAtOffset L env v size offset.1
    0 ≤ r.2.count → r.2.data.length ≤ size ∧ r.2.data <+: content.drop offset.1.toNat := by
  intro r hcount
  have hrange := offset.2.2
  have hneg : ¬ offset.1 < 0 := by
    intro hneg
    have hfails : r = (v, .failed) := h.readAt_negative env size hneg
    rw [hfails] at hcount
    cases hcount
  have hread : r = internalVolumeReadBufferFromFileIoHandle L env
      { v with currentOffset := offset.1 } (some file) size :=
    volumeReadBufferAtOffset_eq env h.isLocked h.fileIoHandle size hneg
  have hmoved : Shows L { v with currentOffset := offset.1 } file content := h.moved (by omega)
  have hreadable := hmoved.wellformed.readable hmoved.fileIoHandle
  have hreturns := (hreadable.returnsPlaintext_iff hmoved.isLocked hmoved.stateless size).2 hstep
    env
  rw [← hread] at hreturns
  obtain ⟨heq, hbytes⟩ := hreturns.content hcount
  have hle := hreturns.isPrefix hcount
  rw [heq, Volume.available, hmoved.size] at hle
  have hle : r.2.data.length ≤ min size (content.length - offset.1.toNat) := Int.ofNat_le.1 hle
  refine ⟨hle.trans (Nat.min_le_left _ _), List.prefix_iff_eq_take.2 ?_⟩
  apply List.ext_getElem?
  intro i
  by_cases hi : i < r.2.data.length
  · rw [hbytes i hi, hmoved.plaintext (by omega), List.getElem?_take_of_lt hi, List.getElem?_drop]
  · rw [List.getElem?_eq_none (by omega), List.getElem?_take_eq_none (by omega)]

/-! ## Openings -/

/-- What a request opens. -/
def FuseRequest.target : FuseRequest → Option (Kind × List UInt8)
  | .openFile _ path _ => some (.file, path.1)
  | .opendir _ path => some (.directory, path.1)
  | _ => none

/-- What was opened, with the handle that was told for it. -/
def opening (request : FuseRequest) : Option FuseAnswer → Option (Kind × List UInt8 × ℕ)
  | some (.opened handle) => request.target.map fun (kind, path) => (kind, path, handle)
  | _ => none

theorem opening_eq_none (request : FuseRequest) {answer : FuseAnswer}
    (h : ∀ handle, answer ≠ .opened handle) : opening request (some answer) = none := by
  cases answer with
  | opened handle => exact absurd rfl (h handle)
  | _ => rfl

theorem exists_of_opening {request : FuseRequest} {answer : Option FuseAnswer} {kind : Kind}
    {path : List UInt8} {handle : ℕ} (h : opening request answer = some (kind, path, handle)) :
    request.target = some (kind, path) ∧ answer = some (.opened handle) := by
  rcases answer with - | answer
  · cases h
  · cases answer with
    | opened handle' =>
      obtain ⟨target, htarget, heq⟩ := Option.map_eq_some_iff.1 h
      cases heq
      exact ⟨htarget, rfl⟩
    | _ => cases h

/-- The openings among the answers to requests. -/
def openings (requests : List FuseRequest) (answers : List (Option FuseAnswer)) :
    List (Option (Kind × List UInt8 × ℕ)) :=
  (requests.zip answers).map fun answered => opening answered.1 answered.2

/-! ## One request -/

section

variable {served : Served} {handles : HandleTable (Option ℕ)}

/-- A request, whatever fails in it, leaves the volumes with their contents, and the handles with
nodes that were found for them. -/
def FuseKeeps (C : Libcpath) (L : Libraries) (p : List UInt8) (made : Mount)
    (contents : List (List UInt8)) (request : FuseRequest) (served : Served)
    (handles : HandleTable (Option ℕ)) : Prop :=
  ∃ served' answer handles', fuseCall C L request served = some (served', answer) ∧
    served'.Shown L p made contents handles' ∧
    HandleStep (mountTree made p contents) handles (opening request (some answer)) handles'

/-- An answer that tells no handle. -/
theorem fuseKeeps_of_shown {request : FuseRequest} {served' : Served} (answer : FuseAnswer)
    (hcall : fuseCall C L request served = some (served', answer))
    (hshown : served'.Shown L p made contents handles) (hanswer : ∀ handle, answer ≠ .opened handle) :
    FuseKeeps C L p made contents request served handles :=
  ⟨served', answer, handles, hcall, hshown, by rw [opening_eq_none request hanswer]; exact .kept⟩

theorem FuseKeeps.badHandle (h : served.Mirrors L p made contents handles) {request : FuseRequest}
    (hcall : fuseCall C L request served = some (served, .badHandle)) :
    FuseKeeps C L p made contents request served handles :=
  fuseKeeps_of_shown _ hcall h.toShown (by rintro handle ⟨⟩)

/-- The node of a file entry is the one that the path leads to. -/
theorem mountNode_of_lookup {mount : Mount} (hp : mount.fileSystem.HasPathPrefix p)
    {path : NarrowString} {node : Option ℕ}
    (hlookup : mountFileSystemGetVolumeByPath mount.fileSystem (path.1 ++ [0])
      (lengthWithoutSeparator C path.1) = ⟨1, node⟩) :
    mountNode p mount.fileSystem.volumes.length path.1 = some node := by
  rcases Nat.lt_or_ge (ssizeMax - 1) (lengthWithoutSeparator C path.1) with hlarge | hsmall
  · rw [getVolumeByPath_large hp _ hlarge] at hlookup
    cases hlookup
  · exact (getVolumeByPath_eq_one_iff hp path hsmall node).1 hlookup

/-- An open, of a file or a directory. -/
theorem FuseKeeps.opened (h : served.Mirrors L p made contents handles) {request : FuseRequest}
    (allocationFails : Bool) {path : NarrowString} {kind : Kind}
    (htarget : request.target = some (kind, path.1)) (flags : ℕ)
    (hcall : ∀ mount fh result,
      served.mount.fileEntryByPath C allocationFails path = (mount, fh, result) →
      fuseCall C L request served = some (served.opened kind
        (mount, ⟨fh, flags⟩, if result ≠ 1 then -enoent else 0))) :
    FuseKeeps C L p made contents request served handles := by
  rcases fileEntryByPath_found (C := C) h.shows.pathPrefix allocationFails path with
    ⟨result, hresult, hpath⟩ | ⟨fileEntry, hlookup, hpath⟩
  · have hne : result ≠ 1 := by
      rcases hresult with rfl | rfl
      · decide
      · decide
    have hopened := hcall _ _ _ hpath
    rw [if_pos hne] at hopened
    exact fuseKeeps_of_shown _ hopened h.toShown (by rintro handle ⟨⟩)
  · have hfind : (mountTree made p contents).find path.1 = some fileEntry.volumeIndex := by
      have hnode := mountNode_of_lookup h.shows.pathPrefix hlookup
      rw [h.shows.length] at hnode
      exact hnode
    have hopened := hcall _ _ _ hpath
    rw [if_neg (not_not.2 rfl)] at hopened
    obtain ⟨hanswer, hshown⟩ := h.opened kind fileEntry flags
    refine ⟨_, .opened (handles.allocate (kind, fileEntry.volumeIndex)).2, _, ?_, hshown, ?_⟩
    · rw [hopened]
      exact congrArg some (Prod.ext rfl hanswer)
    · rw [opening, htarget]
      exact .opened hfind

theorem FuseKeeps.read (h : served.Mirrors L p made contents handles) (env : ReadEnvironment)
    (handle size : ℕ) (offset : Off64) :
    FuseKeeps C L p made contents (.read env handle size offset) served handles := by
  rcases hinfo : served.fileInfo? .file handle with - | fileInfo
  · exact .badHandle h (by rw [fuseCall, hinfo])
  · obtain ⟨pointer, fileEntry, hpointer, hentry, hin, -⟩ := h.nodeOf hinfo
    have hread : ∃ mount' data result,
        mountFuseRead L env served.mount size offset.1 fileInfo = some (mount', data, result) ∧
          Served.Shown L p made contents { served with mount := mount' } handles := by
      rw [mountFuseRead]
      by_cases hlarge : size > intMax
      · exact ⟨served.mount, _, _, if_pos hlarge, h.toShown⟩
      · rw [if_neg hlarge, hpointer]
        simp only [hentry, Option.bind_eq_bind, Option.bind_some, Option.pure_def]
        rw [mountFileEntryReadBufferAtOffset]
        rcases hindex : fileEntry.volumeIndex with - | i
        · exact ⟨served.mount, _, _, rfl, h.toShown⟩
        · have hi := hin i hindex
          obtain ⟨volume, file, hvolume, hshows⟩ := h.shows.shows i hi
          have hafter : Shows L (step L (.readBufferAtOffset env size offset) volume).1 file
              contents[i] := hshows.step (by rintro env ⟨⟩)
          have hshown : Served.Shown L p made contents
              ⟨served.mount.setVolume i (volumeReadBufferAtOffset L env volume size offset.1).1,
                served.openFiles⟩ handles :=
            h.toShown.of_mount (h.shows.setVolume hi hafter) (fun _ => rfl)
          simp only [hvolume, Option.map_some, Option.bind_some]
          split
          · exact ⟨_, _, _, rfl, hshown⟩
          · exact ⟨_, _, _, rfl, hshown⟩
    obtain ⟨mount', data, result, hread, hshown⟩ := hread
    refine fuseKeeps_of_shown (if result < 0 then .error result else .data data)
      (by rw [fuseCall, hinfo]; simp only [hread]; rfl) hshown ?_
    intro handle
    split
    · rintro ⟨⟩
    · rintro ⟨⟩

theorem FuseKeeps.readdir (h : served.Mirrors L p made contents handles) (env : ReaddirEnvironment)
    (handle : ℕ) : FuseKeeps C L p made contents (.readdir env handle) served handles := by
  rcases hinfo : served.fileInfo? .directory handle with - | fileInfo
  · exact .badHandle h (by rw [fuseCall, hinfo])
  · obtain ⟨pointer, fileEntry, hpointer, hentry, hin, -⟩ := h.nodeOf hinfo
    obtain ⟨mount', ⟨entries, result⟩, hread, hsame⟩ := exists_mountFuseReaddir
      h.shows.isMounted env hpointer hentry (by
        intro volumeIndex hindex
        rw [h.shows.length]
        exact hin volumeIndex hindex)
    refine fuseKeeps_of_shown (if result ≠ 0 then .error result else .directory entries)
      (by rw [fuseCall, hinfo]; simp only [hread]; rfl)
      (h.toShown.of_mount (h.shows.of_same hsame) hsame.get?) ?_
    intro handle
    split
    · rintro ⟨⟩
    · rintro ⟨⟩

theorem FuseKeeps.getattr (h : served.Mirrors L p made contents handles) (allocationFails : Bool)
    (path : NarrowString) :
    FuseKeeps C L p made contents (.getattr allocationFails path) served handles := by
  obtain ⟨mount', statInfo, result, hcall, hsame⟩ :=
    exists_mountFuseGetattr (C := C) h.shows.isMounted h.shows.pathPrefix allocationFails path
  have hshown := h.toShown.of_mount (h.shows.of_same hsame) hsame.get?
  cases statInfo with
  | none =>
    exact fuseKeeps_of_shown (.error result) (by rw [fuseCall, hcall]; rfl) hshown
      (by rintro handle ⟨⟩)
  | some statInfo =>
    exact fuseKeeps_of_shown (.attributes statInfo) (by rw [fuseCall, hcall]; rfl) hshown
      (by rintro handle ⟨⟩)

/-- A release, of a file or a directory. -/
theorem FuseKeeps.closed {request : FuseRequest} {kind : Kind} {handle : ℕ} {served' : Served}
    (hcall : fuseCall C L request served = some (served',
      fuseAnswer (serve intMax (mountTree made p contents) (.close kind handle) handles).2))
    (hshown : served'.Shown L p made contents
      (serve intMax (mountTree made p contents) (.close kind handle) handles).1) :
    FuseKeeps C L p made contents request served handles := by
  rw [serve] at hcall hshown
  cases hnode : nodeOf handles kind handle with
  | none =>
    rw [hnode] at hcall hshown
    exact fuseKeeps_of_shown _ hcall hshown (by rintro handle ⟨⟩)
  | some node =>
    rw [hnode] at hcall hshown
    exact ⟨served', _, _, hcall, hshown, .closed handle⟩

/-- Every request keeps what is shown. -/
theorem Served.Mirrors.keeps (h : served.Mirrors L p made contents handles)
    (request : FuseRequest) : FuseKeeps C L p made contents request served handles := by
  cases request with
  | openFile allocationFails path flags =>
    by_cases hwrite : flags &&& 3 ≠ 0
    · refine fuseKeeps_of_shown (.error (-eacces)) ?_ h.toShown (by rintro handle ⟨⟩)
      rw [fuseCall, mountFuseOpen, if_neg (not_not.2 rfl), if_pos hwrite]
      rfl
    · refine .opened h allocationFails rfl flags ?_
      intro mount fh result hpath
      rw [fuseCall, mountFuseOpen, if_neg (not_not.2 rfl), if_neg hwrite, hpath]
  | opendir allocationFails path =>
    refine .opened h allocationFails rfl 0 ?_
    intro mount fh result hpath
    rw [fuseCall, mountFuseOpendir, if_neg (not_not.2 rfl), hpath]
  | read env handle size offset => exact .read h env handle size offset
  | readdir env handle => exact .readdir h env handle
  | getattr allocationFails path => exact .getattr h allocationFails path
  | release handle =>
    obtain ⟨served', hcall, hshown⟩ := FuseServes.release (C := C) h handle
    exact .closed hcall hshown
  | releasedir handle =>
    obtain ⟨served', hcall, hshown⟩ := FuseServes.releasedir (C := C) h handle
    exact .closed hcall hshown
  | signalAbort =>
    obtain ⟨served', result, hcall, hshown⟩ := h.signalAbort (C := C)
    exact fuseKeeps_of_shown _ hcall hshown (by rintro handle ⟨⟩)

/-! ## The whole run -/

/-- Requests one after the other, by induction on them. -/
theorem Served.Mirrors.run {served : Served} {handles : HandleTable (Option ℕ)}
    (h : served.Mirrors L p made contents handles)
    {told : List (Option (Kind × List UInt8 × ℕ))}
    (htold : Told (mountTree made p contents) told handles) (requests : List FuseRequest) :
    ∃ served' handles', stateAfter (fuseStep C L) (some served) requests = some served' ∧
      served'.Mirrors L p made contents handles' ∧
      Told (mountTree made p contents)
        (told ++ openings requests (answers (fuseStep C L) (some served) requests)) handles' := by
  induction requests generalizing served handles told with
  | nil =>
    refine ⟨served, handles, rfl, h, ?_⟩
    rw [openings, List.zip_nil_left, List.map_nil, List.append_nil]
    exact htold
  | cons request requests ih =>
    obtain ⟨served₁, answer, handles₁, hcall, hshown, hstep⟩ :=
      h.keeps (C := C) request
    have hfuse : fuseStep C L request (some served) = (some served₁, some answer) := by
      simp only [fuseStep, Option.bind_some, hcall, Option.map_some]
    obtain ⟨served₂, handles₂, hstate, hmirrors, htold₂⟩ := ih (h.of_shown hcall hshown)
      (htold.step hstep)
    rw [stateAfter_cons, answers_cons, hfuse]
    refine ⟨served₂, handles₂, hstate, hmirrors, ?_⟩
    rw [openings, List.zip_cons_cons, List.map_cons, List.append_cons]
    exact htold₂

/-! ## Answers -/

/-- The data of a read are those of the volume that is open. -/
theorem Served.Mirrors.data {served served' : Served} {handles : HandleTable (Option ℕ)}
    (h : served.Mirrors L p made contents handles) {env : ReadEnvironment} {handle size : ℕ}
    {offset : Off64} (hsectors : InSectors size offset.1) {data : List UInt8}
    (hcall : fuseCall C L (.read env handle size offset) served = some (served', .data data)) :
    ∃ i content, Lib.FileServer.nodeOf handles .file handle = some (some i) ∧ contents[i]? = some content ∧
      data.length ≤ size ∧ data <+: content.drop offset.1.toNat := by
  rw [fuseCall] at hcall
  rcases hinfo : served.fileInfo? .file handle with - | fileInfo
  · rw [hinfo] at hcall
    cases hcall
  · obtain ⟨pointer, fileEntry, hpointer, hentry, hin, hnode⟩ := h.nodeOf hinfo
    rw [hinfo] at hcall
    dsimp only at hcall
    rw [mountFuseRead] at hcall
    by_cases hlarge : size > intMax
    · rw [if_pos hlarge] at hcall
      cases hcall
    · rw [if_neg hlarge, hpointer] at hcall
      simp only [hentry, Option.bind_eq_bind, Option.bind_some, Option.pure_def,
        mountFileEntryReadBufferAtOffset] at hcall
      rcases hindex : fileEntry.volumeIndex with - | i
      · rw [hindex] at hcall
        cases hcall
      · have hi := hin i hindex
        obtain ⟨volume, file, hvolume, hshows⟩ := h.shows.shows i hi
        have hprefix := hshows.readAt_prefix env (hsectors.inStep volume file)
        rw [hindex] at hcall
        simp only [hvolume, Option.map_some, Option.bind_some] at hcall
        generalize volumeReadBufferAtOffset L env volume size offset.1 = r at hcall hprefix
        by_cases hneg : r.2.count < 0
        · rw [if_pos hneg] at hcall
          cases hcall
        · simp only [if_neg hneg, Option.map_some, Option.some.injEq, Prod.mk.injEq,
            FuseAnswer.data.injEq] at hcall
          obtain ⟨-, rfl⟩ := hcall
          obtain ⟨hle, hdata⟩ := hprefix (by omega)
          exact ⟨i, contents[i], hindex ▸ hnode, List.getElem?_eq_getElem hi, hle, hdata⟩

/-- The names that are filled in are those of the directory that is open. -/
theorem Served.Mirrors.directory {served served' : Served} {handles : HandleTable (Option ℕ)}
    (h : served.Mirrors L p made contents handles) (hp : p ≠ []) (hshort : p.length ≤ 27)
    (hnumber : contents.length ≤ 999) {env : ReaddirEnvironment} (herrno : env.errno ≠ 0)
    {handle : ℕ} {entries : List DirectoryEntry}
    (hcall : fuseCall C L (.readdir env handle) served = some (served', .directory entries)) :
    ∃ node, Lib.FileServer.nodeOf handles .directory handle = some node ∧
      entries = (nodeEntries made p contents node).map directoryEntry := by
  rw [fuseCall] at hcall
  rcases hinfo : served.fileInfo? .directory handle with - | fileInfo
  · rw [hinfo] at hcall
    cases hcall
  · obtain ⟨pointer, fileEntry, hpointer, hentry, hin, hnode⟩ := h.nodeOf hinfo
    rw [hinfo] at hcall
    dsimp only at hcall
    rcases h.shows.readdir hp hshort hnumber (fun _ => herrno) hpointer hentry hin with
      ⟨hread, -⟩ | ⟨hread, -, hresult, -⟩
    · rw [hread] at hcall
      cases hcall
      exact ⟨fileEntry.volumeIndex, hnode, rfl⟩
    · rw [hread] at hcall
      simp only [Option.map_some, if_pos hresult] at hcall
      cases hcall

/-- The attributes of a path are those of its node. -/
theorem Served.Mirrors.attributes {served served' : Served} {handles : HandleTable (Option ℕ)}
    (h : served.Mirrors L p made contents handles) {allocationFails : Bool} {path : NarrowString}
    {statInfo : StatInfo} (hcall : fuseCall C L (.getattr allocationFails path) served =
      some (served', .attributes statInfo)) :
    ∃ node, mountNode p contents.length path.1 = some node ∧
      statInfo = nodeStat made contents node := by
  rw [fuseCall, mountFuseGetattr] at hcall
  rcases fileEntryByPath_found (C := C) h.shows.pathPrefix allocationFails path with
    ⟨result, hresult, hpath⟩ | ⟨fileEntry, hlookup, hpath⟩
  · rw [hpath] at hcall
    dsimp only at hcall
    rw [if_pos hresult] at hcall
    cases hcall
  · have hnode := mountNode_of_lookup h.shows.pathPrefix hlookup
    rw [h.shows.length] at hnode
    have hget : (served.mount.allocate fileEntry).1.fileEntries.get?
        (served.mount.allocate fileEntry).2 = some fileEntry := Heap.get?_allocate_self _ _
    have hstat : statOfFileEntry (served.mount.allocate fileEntry).1 fileEntry =
        some (some (nodeStat made contents fileEntry.volumeIndex)) :=
      (h.shows.withFileEntries (served.mount.allocate fileEntry).1.fileEntries).statOfFileEntry
        (nodeIn_of_mountNode hnode)
    obtain ⟨mount', hfree, -⟩ := mountFileEntryFree_allocate served.mount fileEntry
    rw [hpath] at hcall
    dsimp only at hcall
    rw [if_neg (by decide)] at hcall
    simp only [hget, hstat, hfree, Option.bind_eq_bind, Option.bind_some, Option.pure_def] at hcall
    cases hcall
    exact ⟨_, hnode, rfl⟩

end

/-- In a state that was reached with these requests and answers, a success is never wrong. -/
structure TellsNothingWrong (C : Libcpath) (L : Libraries) (p : List UInt8) (made : Mount)
    (contents : List (List UInt8)) (state : Option Served)
    (answered : List (FuseRequest × Option FuseAnswer)) : Prop where
  /-- The data of a read that begins at a sector or stays in one are the beginning of what is in
  the volume for whose path the handle was told, at the offset. -/
  data : ∀ env handle size offset data, InSectors size offset.1 →
    (fuseStep C L (.read env handle size offset) state).2 = some (.data data) →
    ∃ allocationFails path flags i content,
      (.openFile allocationFails path flags, some (.opened handle)) ∈ answered ∧
      mountNode p contents.length path.1 = some (some i) ∧ contents[i]? = some content ∧
      data.length ≤ size ∧ data <+: content.drop offset.1.toNat
  /-- The names in a directory are all those of the node for whose path the handle was told. -/
  directory : ∀ env handle entries, env.errno ≠ 0 →
    (fuseStep C L (.readdir env handle) state).2 = some (.directory entries) →
    ∃ allocationFails path node,
      (.opendir allocationFails path, some (.opened handle)) ∈ answered ∧
      mountNode p contents.length path.1 = some node ∧
      entries = (nodeEntries made p contents node).map directoryEntry
  /-- The attributes of a path are those of its node. -/
  attributes : ∀ allocationFails path statInfo,
    (fuseStep C L (.getattr allocationFails path) state).2 = some (.attributes statInfo) →
    ∃ node, mountNode p contents.length path.1 = some node ∧
      statInfo = nodeStat made contents node

/-- **Nothing wrong is told.**  Whatever was asked of a new mount of at most 999 volumes that show
contents, behind a prefix of 1 to 27 bytes, in any order and whatever failed: the data of a read are
those of the volume that the path led to when the handle was told, a directory that is read without
an error has all its names, if no failure leaves 0 in `errno`, and the attributes of a path are
those of its node. -/
theorem fuse_tellsNothingWrong (C : Libcpath) (L : Libraries) {mount : Mount}
    (h : MountShows L p mount contents mount) (hnew : mount.fileEntries = .empty) (hp : p ≠ [])
    (hshort : p.length ≤ 27) (hnumber : contents.length ≤ 999) (before : List FuseRequest) :
    TellsNothingWrong C L p mount contents
      (stateAfter (fuseStep C L) (some mount.served) before)
      (before.zip (answers (fuseStep C L) (some mount.served) before)) := by
  obtain ⟨served₀, hserved₀, hstart⟩ := h.mirrors hnew
  cases hserved₀
  obtain ⟨served, handles, hstate, hmirrors, htold⟩ :=
    hstart.run (C := C) (told_empty []) before
  rw [List.nil_append, openings] at htold
  rw [hstate]
  generalize before.zip (answers (fuseStep C L) (some mount.served) before) = answered at htold ⊢
  have hcalled : ∀ request answer, (fuseStep C L request (some served)).2 = some answer →
      ∃ served', fuseCall C L request served = some (served', answer) := by
    intro request answer hanswer
    simp only [fuseStep, Option.bind_some] at hanswer
    obtain ⟨⟨served', answer'⟩, hcall, rfl⟩ := Option.map_eq_some_iff.1 hanswer
    exact ⟨served', hcall⟩
  -- a node that is open was found for a path
  have hopened : ∀ kind handle node, nodeOf handles kind handle = some node →
      ∃ request path, request.target = some (kind, path) ∧
        (request, some (.opened handle)) ∈ answered ∧
        mountNode p contents.length path = some node := by
    intro kind handle node hnode
    obtain ⟨path, hmem, hfind⟩ := htold handle kind node (nodeOf_eq_some.1 hnode)
    obtain ⟨⟨request, answer⟩, hanswered, hopening⟩ := List.mem_map.1 hmem
    obtain ⟨htarget, rfl⟩ := exists_of_opening hopening
    exact ⟨request, path, htarget, hanswered, hfind⟩
  refine ⟨?_, ?_, ?_⟩
  · intro env handle size offset data hsectors hanswer
    obtain ⟨served', hcall⟩ := hcalled _ _ hanswer
    obtain ⟨i, content, hnode, hcontent, hle, hdata⟩ := hmirrors.data hsectors hcall
    obtain ⟨request, path, htarget, hanswered, hfind⟩ := hopened _ _ _ hnode
    cases request with
    | openFile allocationFails path' flags =>
      cases htarget
      exact ⟨allocationFails, path', flags, i, content, hanswered, hfind, hcontent, hle, hdata⟩
    | _ => cases htarget
  · intro env handle entries herrno hanswer
    obtain ⟨served', hcall⟩ := hcalled _ _ hanswer
    obtain ⟨node, hnode, hentries⟩ := hmirrors.directory hp hshort hnumber herrno hcall
    obtain ⟨request, path, htarget, hanswered, hfind⟩ := hopened _ _ _ hnode
    cases request with
    | opendir allocationFails path' =>
      cases htarget
      exact ⟨allocationFails, path', node, hanswered, hfind, hentries⟩
    | _ => cases htarget
  · intro allocationFails path statInfo hanswer
    obtain ⟨served', hcall⟩ := hcalled _ _ hanswer
    exact hmirrors.attributes hcall

/-- The mount of the small volume, after an open that failed and one that did not. -/
theorem fuse_tellsNothingWrong_small :
    ∃ content, TellsNothingWrong slash smallLibraries luksdePathPrefix smallMount [content]
      (stateAfter (fuseStep slash smallLibraries) (some smallMount.served)
        [.openFile true smallPath 0, .openFile false smallPath 0])
      ([.openFile true smallPath 0, .openFile false smallPath 0].zip
        (answers (fuseStep slash smallLibraries) (some smallMount.served)
          [.openFile true smallPath 0, .openFile false smallPath 0])) := by
  obtain ⟨content, hshows⟩ := smallMount_shows
  exact ⟨content, fuse_tellsNothingWrong slash smallLibraries hshows rfl (by decide) (by decide)
    (show 1 ≤ 999 by decide) _⟩

end Libluksde
