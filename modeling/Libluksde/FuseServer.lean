import Libluksde.FuseTree

/-!
# A mount as a server of its tree

Where nothing fails, the loop is a server of the read-only tree of the volumes: whatever is asked,
in any order, each request is answered as the server of the tree answers it, through the cache of
the volumes, the position that their reads leave behind, and the file entries in memory.
-/

namespace Libluksde

open Lib (Heap)
open Lib.Bytes Lib.Decimal Lib.Machine Lib.Refinement
open Lib.FileServer (Kind Tree HandleTable Request Reply Failure nodeOf nodeOf_eq_some dataOf serve)

variable {C : Libcpath} {L : Libraries} {p : List UInt8} {made : Mount}
  {contents : List (List UInt8)}

/-! ## The view -/

/-- What a request asks of the server of a tree. -/
def FuseRequest.request : FuseRequest → Option (Request UInt8)
  | .openFile _ path flags => some (.openAs .file (flags &&& 3 ≠ 0) path.1)
  | .opendir _ path => some (.openAs .directory false path.1)
  | .read _ handle size offset => some (.read handle size offset.1)
  | .readdir _ handle => some (.list handle)
  | .getattr _ path => some (.status path.1)
  | .release handle => some (.close .file handle)
  | .releasedir handle => some (.close .directory handle)
  | .signalAbort => none

/-- How the failure of a server is shown. -/
def failureAnswer : Failure → FuseAnswer
  | .badHandle => .badHandle
  | .invalid => .error (-einval)
  | .readOnly => .error (-eacces)
  | .missing => .error (-enoent)
  | .unreadable => .error (-eio)

/-- How the reply of a server is shown. -/
def fuseAnswer : Reply UInt8 StatInfo → FuseAnswer
  | .failed failure => failureAnswer failure
  | .opened handle => .opened handle
  | .data data => .data data
  | .entries entries => .directory (entries.map directoryEntry)
  | .status statInfo => .attributes statInfo
  | .closed kind => .released kind

/-- The view of the loop as a server. -/
def fuseView : View FuseRequest (Request UInt8) (Option FuseAnswer) (Reply UInt8 StatInfo) :=
  ⟨FuseRequest.request, fun reply => some (fuseAnswer reply)⟩

/-- A read that begins at a sector or stays in one. -/
def InSectors (size : ℕ) (offset : ℤ) : Prop := 512 ∣ offset ∨ offset % 512 + size ≤ 512

/-- Nothing fails while a request is answered, and reads begin at a sector or stay in one. -/
def FuseRequest.Undisturbed : FuseRequest → Prop
  | .openFile allocationFails _ _ => allocationFails = false
  | .opendir allocationFails _ => allocationFails = false
  | .read env _ size offset => env.Reliable ∧ InSectors size offset.1
  | .readdir env _ => env.Reliable
  | .getattr allocationFails _ => allocationFails = false
  | _ => True

/-! ## Reading a volume -/

theorem InSectors.inStep {size : ℕ} {offset : ℤ} (h : InSectors size offset) (v : Volume)
    (file : FileIoHandle) : v.InStep L file offset size := by
  rcases h with haligned | hinside
  · exact Or.inr (Or.inr (Or.inl haligned))
  · have hle : v.available offset size ≤ size := Nat.min_le_left _ _
    refine Or.inr (Or.inr (Or.inr (Or.inl ?_)))
    omega

/-- Before the beginning nothing is read. -/
theorem Shows.readAt_negative {v : Volume} {file : FileIoHandle} {content : List UInt8}
    (h : Shows L v file content) (env : ReadEnvironment) (size : ℕ) {offset : ℤ}
    (hneg : offset < 0) : volumeReadBufferAtOffset L env v size offset = (v, .failed) := by
  have hseek : internalVolumeSeekOffset v offset seekSet = (v, -1) := by
    rw [internalVolumeSeekOffset, if_neg (by simp [h.isLocked]), if_neg (by decide)]
    exact if_pos hneg
  simp only [volumeReadBufferAtOffset, h.fileIoHandle, hseek]
  rfl

/-- A read at an offset returns the content from there on, and fails before the beginning. -/
theorem Shows.readAt {v : Volume} {file : FileIoHandle} {content : List UInt8}
    (h : Shows L v file content) {env : ReadEnvironment} (henv : env.Reliable) {size : ℕ}
    (hsize : size ≤ ssizeMax) {offset : Off64} (hstep : v.InStep L file offset.1 size) :
    let r := volumeReadBufferAtOffset L env v size offset.1
    let data := (content.drop offset.1.toNat).take size
    Shows L r.1 file content ∧
      r.2 = if offset.1 < 0 then .failed else ⟨data.length, data⟩ := by
  intro r data
  have hrange := offset.2.2
  by_cases hneg : offset.1 < 0
  · have hfails : r = (v, .failed) := h.readAt_negative env size hneg
    rw [hfails, if_pos hneg]
    exact ⟨h, rfl⟩
  · have hread : r = internalVolumeReadBufferFromFileIoHandle L env
        { v with currentOffset := offset.1 } (some file) size :=
      volumeReadBufferAtOffset_eq env h.isLocked h.fileIoHandle size hneg
    have hmoved : Shows L { v with currentOffset := offset.1 } file content :=
      h.moved (by omega)
    obtain ⟨hresult, -, hshows⟩ := hmoved.read henv hsize hstep
    rw [hread, if_neg hneg]
    exact ⟨hshows, hresult⟩

/-! ## The states -/

/-- The node of the file or directory that is open under a handle. -/
def Served.node? (served : Served) (handle : ℕ) : Option (Kind × Option ℕ) :=
  (served.openFiles.get? handle).bind fun openFile =>
    openFile.fileInfo.fh.bind fun pointer =>
      (served.mount.fileEntries.get? pointer).map fun fileEntry =>
        (openFile.kind, fileEntry.volumeIndex)

/-- A loop that has the handles of a server, on volumes that show the contents of its tree. -/
structure Served.Shown (L : Libraries) (p : List UInt8) (made : Mount)
    (contents : List (List UInt8)) (served : Served) (handles : HandleTable (Option ℕ)) : Prop where
  shows : MountShows L p made contents served.mount
  cells : handles.cells.length = served.openFiles.cells.length
  nodes : ∀ handle, handles.get? handle = served.node? handle

/-- The same, with the file entries that belong to it. -/
structure Served.Mirrors (L : Libraries) (p : List UInt8) (made : Mount)
    (contents : List (List UInt8)) (served : Served) (handles : HandleTable (Option ℕ)) : Prop extends
    served.Shown L p made contents handles where
  sound : ∃ left, served.Sound p left

section

variable {served : Served} {handles : HandleTable (Option ℕ)}

/-- What is open in the loop is open in the server, under the same handle. -/
theorem Served.Mirrors.nodeOf (h : served.Mirrors L p made contents handles) {kind : Kind}
    {handle : ℕ} {fileInfo : FileInfo} (hinfo : served.fileInfo? kind handle = some fileInfo) :
    ∃ pointer fileEntry, fileInfo.fh = some pointer ∧
      served.mount.fileEntries.get? pointer = some fileEntry ∧
      NodeIn contents fileEntry.volumeIndex ∧
      nodeOf handles kind handle = some fileEntry.volumeIndex := by
  obtain ⟨left, hsound⟩ := h.sound
  have hopen := Served.fileInfo?_eq_some.1 hinfo
  obtain ⟨pointer, fileEntry, hpointer, hentry⟩ := hsound.fileEntry hopen
  refine ⟨pointer, fileEntry, hpointer, hentry, ?_, ?_⟩
  · rw [NodeIn, ← h.shows.length]
    exact hsound.isIn pointer fileEntry hentry
  · rw [nodeOf_eq_some, h.nodes, Served.node?, hopen]
    dsimp only at hpointer
    simp only [Option.bind_some, hpointer, hentry, Option.map_some]

/-- What is not open in the loop is not open in the server. -/
theorem Served.Mirrors.nodeOf_none (h : served.Mirrors L p made contents handles) {kind : Kind}
    {handle : ℕ} (hinfo : served.fileInfo? kind handle = none) :
    Lib.FileServer.nodeOf handles kind handle = none := by
  rw [Lib.FileServer.nodeOf, h.nodes, Served.node?]
  rw [Served.fileInfo?] at hinfo
  rcases hopen : served.openFiles.get? handle with - | openFile
  · rfl
  · rw [hopen] at hinfo
    rw [Option.bind_some] at hinfo ⊢
    split_ifs at hinfo with hkind
    rcases openFile.fileInfo.fh with - | pointer
    · rfl
    · rw [Option.bind_some]
      rcases served.mount.fileEntries.get? pointer with - | fileEntry
      · rfl
      · exact if_neg hkind

/-- A call that leaves the files and directories open as they are. -/
theorem Served.Shown.of_mount (h : served.Shown L p made contents handles) {mount' : Mount}
    (hshows : MountShows L p made contents mount')
    (hget : ∀ pointer, mount'.fileEntries.get? pointer = served.mount.fileEntries.get? pointer) :
    Served.Shown L p made contents { served with mount := mount' } handles where
  shows := hshows
  cells := h.cells
  nodes := by
    intro handle
    rw [h.nodes, Served.node?, Served.node?]
    simp only [hget]

/-- An open that succeeds gives both the same new handle. -/
theorem Served.Mirrors.opened (h : served.Mirrors L p made contents handles) (kind : Kind)
    (fileEntry : FileEntry) (flags : ℕ) :
    let result := served.opened kind ((served.mount.allocate fileEntry).1,
      ⟨some (served.mount.allocate fileEntry).2, flags⟩, 0)
    result.2 = .opened (handles.allocate (kind, fileEntry.volumeIndex)).2 ∧
      result.1.Shown L p made contents (handles.allocate (kind, fileEntry.volumeIndex)).1 := by
  obtain ⟨left, hsound⟩ := h.sound
  constructor
  · show FuseAnswer.opened served.openFiles.cells.length = .opened handles.cells.length
    rw [h.cells]
  · refine ⟨h.shows.withFileEntries _, ?_, ?_⟩
    · show (handles.cells ++ [_]).length = (served.openFiles.cells ++ [_]).length
      rw [List.length_append, List.length_append, h.cells]
      rfl
    · intro handle
      have hlast : (handles.allocate (kind, fileEntry.volumeIndex)).2 =
          (served.openFiles.allocate ⟨kind, ⟨some (served.mount.allocate fileEntry).2, flags⟩⟩).2 :=
        h.cells
      show (handles.allocate (kind, fileEntry.volumeIndex)).1.get? handle =
        ((served.openFiles.allocate ⟨kind, ⟨some (served.mount.allocate fileEntry).2,
          flags⟩⟩).1.get? handle).bind fun openFile =>
            openFile.fileInfo.fh.bind fun pointer =>
              ((served.mount.fileEntries.allocate fileEntry).1.get? pointer).map fun fileEntry =>
                (openFile.kind, fileEntry.volumeIndex)
      rw [Heap.get?_allocate, Heap.get?_allocate, hlast]
      by_cases hnew : handle = (served.openFiles.allocate
          ⟨kind, ⟨some (served.mount.allocate fileEntry).2, flags⟩⟩).2
      · rw [if_pos hnew, if_pos hnew, Option.bind_some, Option.bind_some,
          show (served.mount.allocate fileEntry).2 =
            (served.mount.fileEntries.allocate fileEntry).2 from rfl, Heap.get?_allocate_self,
          Option.map_some]
      · rw [if_neg hnew, if_neg hnew, h.nodes, Served.node?]
        -- the file entries of the others stay where they are
        cases hopen : served.openFiles.get? handle with
        | none => rfl
        | some openFile =>
          obtain ⟨pointer, other, hpointer, hother⟩ := hsound.fileEntry hopen
          rw [Option.bind_some, Option.bind_some, hpointer, Option.bind_some, Option.bind_some,
            hother, Heap.get?_allocate_of_some hother]

/-- A release takes away the same handle from both. -/
theorem Served.Mirrors.released (h : served.Mirrors L p made contents handles) {handle : ℕ}
    {openFile : OpenFile} (hopen : served.openFiles.get? handle = some openFile)
    (fileEntries : Heap FileEntry)
    (hget : ∀ pointer, openFile.fileInfo.fh ≠ some pointer →
      fileEntries.get? pointer = served.mount.fileEntries.get? pointer) :
    Served.Shown L p made contents
      ⟨{ served.mount with fileEntries := fileEntries }, served.openFiles.release handle⟩
      (handles.release handle) := by
  obtain ⟨left, hsound⟩ := h.sound
  refine ⟨h.shows.withFileEntries _, ?_, ?_⟩
  · show (handles.cells.set handle none).length = (served.openFiles.cells.set handle none).length
    rw [List.length_set, List.length_set, h.cells]
  · intro handle'
    show (handles.release handle).get? handle' =
      ((served.openFiles.release handle).get? handle').bind fun openFile =>
        openFile.fileInfo.fh.bind fun pointer => (fileEntries.get? pointer).map fun fileEntry =>
          (openFile.kind, fileEntry.volumeIndex)
    rw [Heap.get?_release, Heap.get?_release]
    by_cases hsame : handle' = handle
    · rw [if_pos hsame, if_pos hsame]
      rfl
    · rw [if_neg hsame, if_neg hsame, h.nodes, Served.node?]
      cases hopen' : served.openFiles.get? handle' with
      | none => rfl
      | some openFile' =>
        obtain ⟨pointer, other, hpointer, hother⟩ := hsound.fileEntry hopen'
        have hne : openFile.fileInfo.fh ≠ some pointer := by
          intro hshared
          exact hsame (hsound.handle_unique hopen' hopen (hpointer.trans hshared.symm))
        rw [Option.bind_some, Option.bind_some, hpointer, Option.bind_some, Option.bind_some,
          hget pointer hne]

/-! ## One request -/

/-- A request is answered as the server answers it, and leaves both in step. -/
def FuseServes (C : Libcpath) (L : Libraries) (p : List UInt8) (made : Mount)
    (contents : List (List UInt8)) (request : FuseRequest) (served : Served)
    (asked : Request UInt8) (handles : HandleTable (Option ℕ)) : Prop :=
  ∃ served', fuseCall C L request served =
      some (served', fuseAnswer (serve intMax (mountTree made p contents) asked handles).2) ∧
    served'.Shown L p made contents (serve intMax (mountTree made p contents) asked handles).1

theorem FuseServes.badHandle (h : served.Mirrors L p made contents handles)
    {request : FuseRequest} {asked : Request UInt8}
    (hcall : fuseCall C L request served = some (served, .badHandle))
    (hserve : serve intMax (mountTree made p contents) asked handles =
      (handles, .failed .badHandle)) :
    FuseServes C L p made contents request served asked handles := by
  refine ⟨served, ?_, ?_⟩
  · rw [hserve]
    exact hcall
  · rw [hserve]
    exact h.toShown

/-- An open, of a file or a directory. -/
theorem FuseServes.opened (hsmall : p.length + 4 ≤ ssizeMax - 1)
    (h : served.Mirrors L p made contents handles) {request : FuseRequest} (path : NarrowString)
    (kind : Kind) (flags : ℕ)
    (hcall : ∀ mount fh result, served.mount.fileEntryByPath C false path = (mount, fh, result) →
      fuseCall C L request served = some (served.opened kind
        (mount, ⟨fh, flags⟩, if result ≠ 1 then -enoent else 0))) :
    FuseServes C L p made contents request served (.openAs kind false path.1) handles := by
  rw [FuseServes, serve, if_neg Bool.false_ne_true]
  cases hnode : (mountTree made p contents).find path.1 with
  | none =>
    have hfind : mountNode p served.mount.fileSystem.volumes.length path.1 = none :=
      h.shows.length ▸ hnode
    obtain ⟨result, hresult, hpath⟩ :=
      fileEntryByPath_of_none (C := C) h.shows.pathPrefix hfind false
    have hne : result ≠ 1 := by
      rcases hresult with rfl | rfl
      · decide
      · decide
    have hopened := hcall _ _ _ hpath
    rw [if_pos hne] at hopened
    exact ⟨served, hopened, h.toShown⟩
  | some node =>
    have hfind : mountNode p served.mount.fileSystem.volumes.length path.1 = some node :=
      h.shows.length ▸ hnode
    obtain ⟨fileEntry, rfl, hpath⟩ :=
      fileEntryByPath_of_node (C := C) h.shows.pathPrefix hsmall hfind
    have hopened := hcall _ _ _ hpath
    rw [if_neg (not_not.2 rfl)] at hopened
    obtain ⟨hanswer, hshown⟩ := h.opened kind fileEntry flags
    refine ⟨_, ?_, hshown⟩
    rw [hopened]
    exact congrArg some (Prod.ext rfl hanswer)

theorem FuseServes.read (h : served.Mirrors L p made contents handles) {env : ReadEnvironment}
    (henv : env.Reliable) (handle : ℕ) {size : ℕ} {offset : Off64}
    (hsectors : InSectors size offset.1) :
    FuseServes C L p made contents (.read env handle size offset) served
      (.read handle size offset.1) handles := by
  rcases hinfo : served.fileInfo? .file handle with - | fileInfo
  · exact .badHandle h (by rw [fuseCall, hinfo]) (by rw [serve, h.nodeOf_none hinfo])
  · obtain ⟨pointer, fileEntry, hpointer, hentry, hin, hnode⟩ := h.nodeOf hinfo
    rw [FuseServes, serve, hnode]
    dsimp only
    rw [fuseCall, hinfo]
    dsimp only
    rw [mountFuseRead, dataOf]
    by_cases hlarge : intMax < size
    · refine ⟨served, ?_, h.toShown⟩
      rw [if_pos hlarge, if_pos hlarge]
      rfl
    · rw [if_neg hlarge, if_neg hlarge, hpointer]
      simp only [hentry, Option.bind_eq_bind, Option.bind_some, Option.pure_def,
        mountFileEntryReadBufferAtOffset]
      cases hindex : fileEntry.volumeIndex with
      | none => exact ⟨served, rfl, h.toShown⟩
      | some i =>
        have hi := hin i hindex
        obtain ⟨volume, file, hvolume, hshows⟩ := h.shows.shows i hi
        have hsize : size ≤ ssizeMax := by
          have hmax : intMax ≤ ssizeMax := by decide
          omega
        obtain ⟨hafter, hresult⟩ := hshows.readAt henv hsize (hsectors.inStep volume file)
        have hcontent : (mountTree made p contents).content (some i) = some contents[i] :=
          List.getElem?_eq_getElem hi
        have hshown : Served.Shown L p made contents
            ⟨served.mount.setVolume i (volumeReadBufferAtOffset L env volume size offset.1).1,
              served.openFiles⟩ handles := by
          refine h.toShown.of_mount ?_ (fun _ => rfl)
          exact h.shows.setVolume hi hafter
        refine ⟨_, ?_, hshown⟩
        simp only [hvolume, Option.map_some, Option.bind_some, hcontent, hresult]
        by_cases hneg : offset.1 < 0
        · simp only [if_pos hneg]
          rfl
        · have hcount : ¬ ((((contents[i].drop offset.1.toNat).take size).length : ℤ) < 0) :=
            Int.not_lt.2 (Int.natCast_nonneg _)
          simp only [if_neg hneg, if_neg hcount]
          rfl

theorem FuseServes.readdir (hp : p ≠ []) (hshort : p.length ≤ 27)
    (hnumber : contents.length ≤ 999) (h : served.Mirrors L p made contents handles)
    {env : ReaddirEnvironment} (henv : env.Reliable) (handle : ℕ) :
    FuseServes C L p made contents (.readdir env handle) served (.list handle) handles := by
  rcases hinfo : served.fileInfo? .directory handle with - | fileInfo
  · exact .badHandle h (by rw [fuseCall, hinfo]) (by rw [serve, h.nodeOf_none hinfo])
  · obtain ⟨pointer, fileEntry, hpointer, hentry, hin, hnode⟩ := h.nodeOf hinfo
    rw [FuseServes, serve, hnode]
    have herrno : env.statInfoFails = true → env.errno ≠ 0 := by
      intro hfails
      rw [henv.statInfo] at hfails
      cases hfails
    rcases h.shows.readdir hp hshort hnumber herrno hpointer hentry hin with
      ⟨hread, hsame⟩ | ⟨-, -, -, hunreliable⟩
    · refine ⟨_, ?_, h.toShown.of_mount (h.shows.of_same hsame) hsame.get?⟩
      rw [fuseCall, hinfo]
      simp only [hread]
      rfl
    · exact absurd henv hunreliable

theorem FuseServes.getattr (hsmall : p.length + 4 ≤ ssizeMax - 1)
    (h : served.Mirrors L p made contents handles) (path : NarrowString) :
    FuseServes C L p made contents (.getattr false path) served (.status path.1) handles := by
  rw [FuseServes, serve, fuseCall, mountFuseGetattr]
  cases hnode : (mountTree made p contents).find path.1 with
  | none =>
    have hfind : mountNode p served.mount.fileSystem.volumes.length path.1 = none :=
      h.shows.length ▸ hnode
    obtain ⟨result, hresult, hpath⟩ :=
      fileEntryByPath_of_none (C := C) h.shows.pathPrefix hfind false
    refine ⟨served, ?_, h.toShown⟩
    rw [hpath]
    dsimp only
    rw [if_pos hresult]
    rfl
  | some node =>
    have hfind : mountNode p served.mount.fileSystem.volumes.length path.1 = some node :=
      h.shows.length ▸ hnode
    obtain ⟨fileEntry, rfl, hpath⟩ :=
      fileEntryByPath_of_node (C := C) h.shows.pathPrefix hsmall hfind
    have hget : (served.mount.allocate fileEntry).1.fileEntries.get?
        (served.mount.allocate fileEntry).2 = some fileEntry := Heap.get?_allocate_self _ _
    have hstat := (h.shows.withFileEntries
      (served.mount.allocate fileEntry).1.fileEntries).statOfFileEntry (nodeIn_of_mountNode hnode)
    obtain ⟨mount', hfree, hsame⟩ := mountFileEntryFree_allocate served.mount fileEntry
    refine ⟨{ served with mount := mount' }, ?_,
      h.toShown.of_mount (h.shows.of_same hsame) hsame.get?⟩
    rw [hpath]
    dsimp only
    rw [if_neg (by decide)]
    simp only [hget, Option.bind_eq_bind, Option.bind_some, Option.pure_def]
    rw [show statOfFileEntry (served.mount.allocate fileEntry).1 fileEntry = _ from hstat]
    simp only [Option.bind_some, hfree]
    rfl

theorem FuseServes.release (h : served.Mirrors L p made contents handles) (handle : ℕ) :
    FuseServes C L p made contents (.release handle) served (.close .file handle) handles := by
  rcases hinfo : served.fileInfo? .file handle with - | fileInfo
  · exact .badHandle h (by rw [fuseCall, hinfo]) (by rw [serve, h.nodeOf_none hinfo])
  · obtain ⟨pointer, fileEntry, hpointer, hentry, hin, hnode⟩ := h.nodeOf hinfo
    rw [FuseServes, serve, hnode]
    refine ⟨_, ?_, h.released (Served.fileInfo?_eq_some.1 hinfo)
      (served.mount.fileEntries.release pointer) ?_⟩
    · rw [fuseCall, hinfo]
      dsimp only
      rw [mountFuseRelease, hpointer]
      simp only [mountFileEntryFree, hentry]
      rfl
    · intro pointer' hne
      dsimp only at hne
      rw [hpointer] at hne
      rw [Heap.get?_release, if_neg]
      rintro rfl
      exact hne rfl

theorem FuseServes.releasedir (h : served.Mirrors L p made contents handles) (handle : ℕ) :
    FuseServes C L p made contents (.releasedir handle) served (.close .directory handle)
      handles := by
  rcases hinfo : served.fileInfo? .directory handle with - | fileInfo
  · exact .badHandle h (by rw [fuseCall, hinfo]) (by rw [serve, h.nodeOf_none hinfo])
  · obtain ⟨pointer, fileEntry, hpointer, hentry, hin, hnode⟩ := h.nodeOf hinfo
    rw [FuseServes, serve, hnode]
    refine ⟨_, ?_, h.released (Served.fileInfo?_eq_some.1 hinfo)
      served.mount.fileEntries (fun _ _ => rfl)⟩
    rw [fuseCall, hinfo]
    rfl

/-- A signal between two requests changes nothing that is shown. -/
theorem Served.Mirrors.signalAbort (h : served.Mirrors L p made contents handles) :
    ∃ served' result, fuseCall C L .signalAbort served = some (served', .signalled result) ∧
      served'.Shown L p made contents handles := by
  have hlength := h.shows.length
  have hstays : ∀ (i : ℕ) (volume : Volume),
      (∃ file content, contents[i]? = some content ∧ Shows L volume file content) →
      ∃ file content, contents[i]? = some content ∧
        Shows L (volumeSignalAbort volume).1 file content := by
    rintro i volume ⟨file, content, hcontent, hshows⟩
    have hafter : Shows L (step L .signalAbort volume).1 file content :=
      hshows.step (by rintro env ⟨⟩)
    exact ⟨file, content, hcontent, hafter⟩
  have hvolumes : ∀ i < served.mount.fileSystem.volumes.length, ∃ volume,
      served.mount.fileSystem.volumes[i]? = some (some volume) ∧
        ∃ file content, contents[i]? = some content ∧ Shows L volume file content := by
    intro i hi
    have hi' : i < contents.length := hlength ▸ hi
    obtain ⟨volume, file, hvolume, hshows⟩ := h.shows.shows i hi'
    exact ⟨volume, Option.join_eq_some_iff.1 hvolume, file, contents[i],
      List.getElem?_eq_getElem hi', hshows⟩
  obtain ⟨volumes', hloop, hlength', hrest⟩ := exists_signalAbortFrom hstays
    (served.mount.fileSystem.volumes.length - 1) (by omega) hvolumes
  have hsignal : mountFileSystemSignalAbort served.mount.fileSystem =
      some ({ served.mount.fileSystem with volumes := volumes' }, 1) := by
    rw [mountFileSystemSignalAbort, hloop]
    rfl
  refine ⟨⟨served.mount.withVolumes volumes', served.openFiles⟩, 1, ?_, ?_⟩
  · rw [fuseCall, mountHandleSignalAbort,
      show served.mount.mountHandle.fileSystem = served.mount.fileSystem from rfl, hsignal]
    rfl
  · refine h.toShown.of_mount ⟨⟨h.shows.pathPrefix.1, h.shows.pathPrefix.2, h.shows.pathPrefix.3⟩,
      h.shows.mountedTimestamp, h.shows.effectiveUserId, h.shows.effectiveGroupId,
      hlength'.trans hlength, ?_⟩ (fun _ => rfl)
    intro i hi
    obtain ⟨volume, hvolume, file, content, hcontent, hshows⟩ := hrest i (hlength ▸ hi)
    rw [List.getElem?_eq_getElem hi] at hcontent
    cases hcontent
    refine ⟨volume, file, ?_, hshows⟩
    show volumes'[i]?.join = some volume
    rw [hvolume]
    rfl

/-- What is shown stays with the file entries that belong to it. -/
theorem Served.Mirrors.of_shown (h : served.Mirrors L p made contents handles)
    {request : FuseRequest} {served' : Served} {answer : FuseAnswer}
    {handles' : HandleTable (Option ℕ)} (hcall : fuseCall C L request served = some (served', answer))
    (hshown : served'.Shown L p made contents handles') :
    served'.Mirrors L p made contents handles' := by
  obtain ⟨left, hsound⟩ := h.sound
  obtain ⟨served'', answer', left', hcall', hsound', -⟩ :=
    hsound.answered (C := C) (L := L) request
  rw [hcall] at hcall'
  cases hcall'
  exact ⟨hshown, left', hsound'⟩

/-- Every request that is seen is served. -/
theorem Served.Mirrors.serves (hp : p ≠ []) (hshort : p.length ≤ 27)
    (hnumber : contents.length ≤ 999) (h : served.Mirrors L p made contents handles)
    {request : FuseRequest} (hundisturbed : request.Undisturbed) {asked : Request UInt8}
    (hasked : request.request = some asked) :
    FuseServes C L p made contents request served asked handles := by
  have hsmall : p.length + 4 ≤ ssizeMax - 1 := by
    have hmax : ssizeMax = 2 ^ 63 - 1 := rfl
    omega
  cases request with
  | openFile allocationFails path flags =>
    cases hasked
    obtain rfl : allocationFails = false := hundisturbed
    by_cases hwrite : flags &&& 3 ≠ 0
    · refine ⟨served, ?_, ?_⟩
      · rw [fuseCall, mountFuseOpen, if_neg (not_not.2 rfl), if_pos hwrite, serve,
          if_pos (decide_eq_true hwrite)]
        rfl
      · rw [serve, if_pos (decide_eq_true hwrite)]
        exact h.toShown
    · rw [decide_eq_false hwrite]
      refine .opened hsmall h path .file flags ?_
      intro mount fh result hpath
      rw [fuseCall, mountFuseOpen, if_neg (not_not.2 rfl), if_neg hwrite, hpath]
  | opendir allocationFails path =>
    cases hasked
    obtain rfl : allocationFails = false := hundisturbed
    refine .opened hsmall h path .directory 0 ?_
    intro mount fh result hpath
    rw [fuseCall, mountFuseOpendir, if_neg (not_not.2 rfl), hpath]
  | read env handle size offset =>
    cases hasked
    exact .read h hundisturbed.1 handle hundisturbed.2
  | readdir env handle =>
    cases hasked
    exact .readdir hp hshort hnumber h hundisturbed handle
  | getattr allocationFails path =>
    cases hasked
    obtain rfl : allocationFails = false := hundisturbed
    exact .getattr hsmall h path
  | release handle =>
    cases hasked
    exact .release h handle
  | releasedir handle =>
    cases hasked
    exact .releasedir h handle
  | signalAbort => cases hasked

end

/-! ## The whole run -/

/-- A loop whose state is known, and that mirrors a server. -/
def FuseMirrors (L : Libraries) (p : List UInt8) (made : Mount) (contents : List (List UInt8))
    (served : Option Served) (handles : HandleTable (Option ℕ)) : Prop :=
  ∃ s, served = some s ∧ s.Mirrors L p made contents handles

/-- **One request**: a loop that mirrors the server of its tree answers as the server does. -/
theorem fuse_refines (C : Libcpath) (L : Libraries) (made : Mount) (hp : p ≠ [])
    (hshort : p.length ≤ 27) (hnumber : contents.length ≤ 999) :
    Refines (fuseStep C L) (serve intMax (mountTree made p contents)) fuseView
      (fun request _ => request.Undisturbed) (FuseMirrors L p made contents) := by
  rintro request _ handles hundisturbed ⟨served, rfl, h⟩
  constructor
  · intro hunseen
    cases request with
    | signalAbort =>
      obtain ⟨served', result, hcall, hshown⟩ := h.signalAbort (C := C)
      refine ⟨served', ?_, h.of_shown hcall hshown⟩
      simp only [fuseStep, Option.bind_some, hcall, Option.map_some]
    | _ => cases hunseen
  · intro asked hasked
    obtain ⟨served', hcall, hshown⟩ := h.serves (C := C) hp hshort hnumber hundisturbed hasked
    simp only [fuseStep, Option.bind_some, hcall, Option.map_some]
    exact ⟨rfl, served', rfl, h.of_shown hcall hshown⟩

/-- A new mount of volumes that show contents mirrors the server without handles. -/
theorem MountShows.mirrors {mount : Mount} (h : MountShows L p made contents mount)
    (hnew : mount.fileEntries = .empty) :
    FuseMirrors L p made contents (some mount.served) .empty :=
  ⟨mount.served, rfl, ⟨h, rfl, fun _ => rfl⟩, [],
    Mount.served_sound h.isMounted h.pathPrefix hnew⟩

/-- **A mount is its tree.**  A new mount of at most 999 volumes that show contents, behind a prefix
of 1 to 27 bytes, answers every sequence of requests on which nothing fails, and whose reads begin
at a sector or stay in one, as the server of the read-only tree of these contents does, whatever
signals come in between. -/
theorem fuse_servesTree (C : Libcpath) (L : Libraries) {mount : Mount}
    (h : MountShows L p mount contents mount) (hnew : mount.fileEntries = .empty) (hp : p ≠ [])
    (hshort : p.length ≤ 27) (hnumber : contents.length ≤ 999) {requests : List FuseRequest}
    (hundisturbed : ∀ request ∈ requests, request.Undisturbed) :
    seen (fuseStep C L) fuseView (some mount.served) requests =
      (answers (serve intMax (mountTree mount p contents)) .empty
        (requests.filterMap FuseRequest.request)).map fun reply => some (fuseAnswer reply) :=
  ((fuse_refines C L mount hp hshort hnumber).run (h.mirrors hnew)
    (admitted_of_forall hundisturbed)).1

/-- A mount of the small volume. -/
def smallMount : Mount :=
  ⟨{ mountHandleInitialize 0 with
      fileSystem := ⟨some (luksdePathPrefix ++ [0]), 8,
        [some (volumeAfter smallLibraries smallSession)]⟩ }, 0, 0, 0, .empty⟩

theorem smallMount_shows :
    ∃ content, MountShows smallLibraries luksdePathPrefix smallMount [content] smallMount := by
  obtain ⟨content, hshows⟩ := exists_shows (L := smallLibraries)
    (Libraries.ofTables_decryptsSectors _ _ _) smallSession smallSession_fileIoHandle
    (by decide +kernel) (exists_of_any (by decide +kernel)) (by decide +kernel)
  refine ⟨content, ⟨rfl, rfl, luksdeFileSystem_hasPathPrefix.3⟩, rfl, rfl, rfl, rfl, ?_⟩
  intro i hi
  obtain rfl : i = 0 := Nat.lt_one_iff.1 hi
  exact ⟨_, _, rfl, hshows⟩

theorem zero_not_mem_smallPath :
    (0 : UInt8) ∉ [0x2f, 0x6c, 0x75, 0x6b, 0x73, 0x64, 0x65, 0x31] := by decide

/-- The path of the first volume. -/
def smallPath : NarrowString :=
  ⟨[0x2f, 0x6c, 0x75, 0x6b, 0x73, 0x64, 0x65, 0x31], zero_not_mem_smallPath⟩

theorem secondSector_mem : -2 ^ 63 ≤ (512 : ℤ) ∧ (512 : ℤ) < 2 ^ 63 := by decide

/-- The volume is opened and its second sector is read, with a signal in between. -/
def smallRequests : List FuseRequest :=
  [.getattr false smallPath, .openFile false smallPath 0, .signalAbort,
    .read {} 0 512 ⟨512, secondSector_mem⟩, .release 0]

/-- The mount of the small volume is a tree of one file. -/
theorem fuse_servesTree_small :
    ∃ content,
      seen (fuseStep slash smallLibraries) fuseView (some smallMount.served) smallRequests =
        (answers (serve intMax (mountTree smallMount luksdePathPrefix [content])) .empty
          (smallRequests.filterMap FuseRequest.request)).map fun reply =>
            some (fuseAnswer reply) := by
  obtain ⟨content, hshows⟩ := smallMount_shows
  refine ⟨content, fuse_servesTree slash smallLibraries hshows rfl (by decide) (by decide)
    (show 1 ≤ 999 by decide) ?_⟩
  rw [smallRequests]
  simp only [List.forall_mem_cons]
  exact ⟨rfl, rfl, trivial, ⟨ReadEnvironment.reliable_default, Or.inl (by decide)⟩, trivial,
    fun _ hmem => absurd hmem List.not_mem_nil⟩

/-! ## What is listed is there -/

/-- A name in a node, other than those of itself and its parent, leads from the root to a node
about which the same is told, and whose content has the size that is told. -/
theorem mountTree_coherent (made : Mount) (hnumber : contents.length ≤ 999) {node : Option ℕ}
    {entry : List UInt8 × StatInfo} (hentry : entry ∈ (nodeEntries made p contents node).drop 2) :
    ∃ child content, (mountTree made p contents).find (p.take 1 ++ entry.1) = some child ∧
      (mountTree made p contents).status child = entry.2 ∧
      (mountTree made p contents).content child = some content ∧
      content.length = entry.2.size := by
  rw [nodeEntries, List.drop_succ_cons, List.drop_succ_cons, List.drop_zero] at hentry
  obtain ⟨i, hi, rfl⟩ := List.mem_map.1 hentry
  have hlt : i < contents.length := by
    have hrange := List.mem_range.1 hi
    split_ifs at hrange
    · exact hrange
    · exact absurd hrange (Nat.not_lt_zero i)
  have hcontent : contents[i]? = some contents[i] := List.getElem?_eq_getElem hlt
  refine ⟨some i, contents[i], ?_, rfl, hcontent, ?_⟩
  · have hpath : p.take 1 ++ volumeName p i = p ++ numeral (i + 1) := by
      rw [volumeName, ← List.append_assoc, List.take_append_drop]
    show mountNode p contents.length _ = _
    rw [hpath, mountNode_numbered _ (isNumberedPath_numeral p (Nat.succ_pos i) (by omega)),
      value_numeral, if_pos (by omega)]
    rfl
  · rw [nodeStat, Option.bind_some, hcontent, Option.getD_some]

/-- A request to a loop that mirrors a server is answered as the server answers it. -/
theorem FuseMirrors.answer {served : Option Served} {handles : HandleTable (Option ℕ)} (hp : p ≠ [])
    (hshort : p.length ≤ 27) (hnumber : contents.length ≤ 999)
    (h : FuseMirrors L p made contents served handles) (request : FuseRequest)
    (hundisturbed : request.Undisturbed) {asked : Request UInt8}
    (hasked : request.request = some asked) :
    (fuseStep C L request served).2 =
        some (fuseAnswer (serve intMax (mountTree made p contents) asked handles).2) ∧
      FuseMirrors L p made contents (fuseStep C L request served).1
        (serve intMax (mountTree made p contents) asked handles).1 :=
  (fuse_refines C L made hp hshort hnumber request served handles hundisturbed h).2 asked hasked

/-- **What is listed is there.**  In a new mount of at most 999 volumes that show contents, behind a
prefix of 1 to 27 bytes, a name that was filled in for a directory, other than those of the
directory and its parent, is found at any later time, if nothing failed on the requests: the same is
told about it as when it was listed, it can be opened, and a read of it on which nothing fails
returns as many bytes as the listed size allows. -/
theorem fuse_listed (C : Libcpath) (L : Libraries) {mount : Mount}
    (h : MountShows L p mount contents mount) (hnew : mount.fileEntries = .empty) (hp : p ≠ [])
    (hshort : p.length ≤ 27) (hnumber : contents.length ≤ 999) {before after : List FuseRequest}
    (hbefore : ∀ request ∈ before, request.Undisturbed)
    (hafter : ∀ request ∈ after, request.Undisturbed) {env : ReaddirEnvironment}
    (henv : env.Reliable) {handle : ℕ} {entries : List DirectoryEntry}
    (hlisted : (fuseStep C L (.readdir env handle)
      (stateAfter (fuseStep C L) (some mount.served) before)).2 = some (.directory entries))
    {entry : DirectoryEntry} (hentry : entry ∈ entries.drop 2) {path : NarrowString}
    (hpath : path.1 = p.take 1 ++ entry.name) :
    let later := stateAfter (fuseStep C L) (some mount.served)
      (before ++ .readdir env handle :: after)
    (fuseStep C L (.getattr false path) later).2 = some (.attributes entry.statInfo) ∧
      ∃ file, (fuseStep C L (.openFile false path 0) later).2 = some (.opened file) ∧
        ∀ (readEnv : ReadEnvironment) (size : ℕ) (start : Off64), readEnv.Reliable →
          size ≤ intMax → start.1 = 0 →
          ∃ data, (fuseStep C L (.read readEnv file size start)
              (fuseStep C L (.openFile false path 0) later).1).2 = some (.data data) ∧
            data.length = min size entry.statInfo.size := by
  intro later
  have hrefines : Refines (fuseStep C L) (serve intMax (mountTree mount p contents)) fuseView
      (fun request _ => request.Undisturbed) (FuseMirrors L p mount contents) :=
    fuse_refines C L mount hp hshort hnumber
  obtain ⟨-, hmirrors⟩ := hrefines.run (h.mirrors hnew) (admitted_of_forall hbefore)
  -- the names that were filled in are those of the tree
  obtain ⟨hanswer, hmirrors'⟩ := hmirrors.answer (C := C) hp hshort hnumber
    (.readdir env handle) henv rfl
  rw [hlisted, serve] at hanswer
  rw [serve] at hmirrors'
  rcases hnode : nodeOf (stateAfter (serve intMax (mountTree mount p contents)) Heap.empty
    (before.filterMap fuseView.input)) .directory handle with - | node
  · rw [hnode] at hanswer
    cases hanswer
  · rw [hnode] at hanswer hmirrors'
    cases hanswer
    rw [← List.map_drop] at hentry
    obtain ⟨listed, hmem, rfl⟩ := List.mem_map.1 hentry
    obtain ⟨child, content, hfind, hstatus, hcontent, hsize⟩ :=
      mountTree_coherent mount hnumber hmem
    change path.1 = p.take 1 ++ listed.1 at hpath
    rw [← hpath] at hfind
    -- later requests leave the tree as it is
    obtain ⟨-, hlater⟩ := hrefines.run hmirrors' (admitted_of_forall hafter)
    rw [← stateAfter_cons, ← stateAfter_append] at hlater
    change FuseMirrors L p mount contents later _ at hlater
    obtain ⟨hattributes, -⟩ := hlater.answer (C := C) hp hshort hnumber
      (.getattr false path) rfl rfl
    obtain ⟨hopened, hopen⟩ := hlater.answer (C := C) hp hshort hnumber
      (.openFile false path 0) rfl rfl
    rw [serve, hfind] at hattributes
    rw [serve, if_neg (by decide), hfind] at hopened hopen
    have htold := congrArg (fun statInfo => some (FuseAnswer.attributes statInfo)) hstatus
    refine ⟨hattributes.trans htold, _, hopened, ?_⟩
    intro readEnv size start hreadEnv hle hzero
    obtain ⟨hread, -⟩ := hopen.answer (C := C) hp hshort hnumber
      (.read readEnv _ size start)
      ⟨hreadEnv, Or.inl (by rw [hzero]; exact dvd_zero _)⟩ rfl
    refine ⟨(content.drop start.1.toNat).take size, ?_, ?_⟩
    · rw [hread, serve, nodeOf_eq_some.2 (Heap.get?_allocate_self _ _)]
      dsimp only
      rw [dataOf, if_neg (by omega), hcontent]
      dsimp only
      rw [if_neg (by omega)]
      rfl
    · rw [hzero, List.length_take, Int.toNat_zero, List.drop_zero, hsize]
      rfl

/-- What is listed for the root of the mount of the small volume. -/
def smallListing : List DirectoryEntry :=
  [⟨[0x2e], ⟨0, 0x416d, 2, 0, 0, 0, 0, 0⟩⟩, ⟨[0x2e, 0x2e], ⟨0, 0, 1, 0, 0, 0, 0, 0⟩⟩,
    ⟨[0x6c, 0x75, 0x6b, 0x73, 0x64, 0x65, 0x31], ⟨1024, 0x8124, 1, 0, 0, 0, 0, 0⟩⟩]

theorem smallMount_listed :
    (fuseStep slash smallLibraries (.readdir {} 0)
      (stateAfter (fuseStep slash smallLibraries) (some smallMount.served)
        [.opendir false rootPath])).2 = some (.directory smallListing) := by
  decide +kernel

/-- The name of the small volume is listed, and is there after the directory is released. -/
theorem fuse_listed_small :
    let statInfo : StatInfo := ⟨1024, 0x8124, 1, 0, 0, 0, 0, 0⟩
    let later := stateAfter (fuseStep slash smallLibraries) (some smallMount.served)
      ([.opendir false rootPath] ++ .readdir {} 0 :: [.releasedir 0])
    (fuseStep slash smallLibraries (.getattr false smallPath) later).2 =
        some (.attributes statInfo) ∧
      ∃ file, (fuseStep slash smallLibraries (.openFile false smallPath 0) later).2 =
          some (.opened file) ∧
        ∀ (readEnv : ReadEnvironment) (size : ℕ) (start : Off64), readEnv.Reliable →
          size ≤ intMax → start.1 = 0 →
          ∃ data, (fuseStep slash smallLibraries (.read readEnv file size start)
              (fuseStep slash smallLibraries (.openFile false smallPath 0) later).1).2 =
                some (.data data) ∧
            data.length = min size 1024 := by
  obtain ⟨content, hshows⟩ := smallMount_shows
  refine fuse_listed slash smallLibraries hshows rfl (by decide) (by decide)
    (show 1 ≤ 999 by decide) ?_ ?_ ReaddirEnvironment.reliable_default smallMount_listed
    (List.mem_singleton.2 rfl) rfl
  · exact List.forall_mem_singleton.2 rfl
  · exact List.forall_mem_singleton.2 trivial

end Libluksde
