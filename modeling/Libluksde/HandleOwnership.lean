import Libluksde.UnlockRetry

/-!
# The file handle of the caller

An open gets a file handle that the caller has opened or not, opens it where necessary, and leaves
a reference to it in the volume.  Here the file handles are objects of their own, so that it can be
said what becomes of them, and the calls on the read/write lock of a build with multi-thread
support are among those that can fail.
-/

namespace Libluksde

open Lib.Bytes Lib.Machine

/-- What fails around the reading: the closing of the file handle behind `on_error`, and the calls
on the read/write lock. -/
structure HandleEnvironment where
  handleCloseFails : Bool := false
  lockGrabFails : Bool := false
  lockReleaseFails : Bool := false

/-- A file handle after `libbfio_handle_close`. -/
def FileIoHandle.close (fails : Bool) (file : FileIoHandle) : FileIoHandle :=
  { file with isOpen := file.isOpen && fails }

/-- The clean-up behind `on_error` of `libluksde_volume_open_file_io_handle`: the file handle is
closed where the function had *not* opened it. -/
def FileIoHandle.onError (fails openedInLibrary : Bool) (file : FileIoHandle) : FileIoHandle :=
  if openedInLibrary = false then file.close fails else file

/-- Where the function could not tell whether the file handle is open, or could not open it. -/
theorem FileIoHandle.onError_isOpen {fails : Bool} (file : FileIoHandle) :
    (file.onError fails false).isOpen = file.isOpen ↔ (file.isOpen = true → fails = true) := by
  show (file.isOpen && fails) = file.isOpen ↔ _
  cases file.isOpen with
  | true => simp
  | false => simp

/-- Where the file handle was open or has been opened. -/
theorem FileIoHandle.opened_onError_isOpen {fails : Bool} (file : FileIoHandle) :
    (file.opened.onError fails (!file.isOpen)).isOpen = file.isOpen ↔
      file.isOpen = true ∧ fails = true := by
  cases hopen : file.isOpen with
  | true =>
    show (true && fails) = true ↔ _
    simp
  | false =>
    show true = false ↔ _
    simp

variable (L : Libraries)

/-- `libluksde_volume_open_file_io_handle` in a build with multi-thread support. -/
def volumeOpenFileIoHandleLocked (handles : HandleEnvironment) (env : OpenEnvironment)
    (volume : Volume) (file : FileIoHandle) (accessFlags : ℕ) : Volume × FileIoHandle × ℤ :=
  if volume.fileIoHandle ≠ none then (volume, file, -1)
  else if ¬ AccessFlagsSupported accessFlags then (volume, file, -1)
  else if env.handleFails file then (volume, file.onError handles.handleCloseFails false, -1)
  else
    let fileIoHandleOpenedInLibrary := !file.isOpen
    if handles.lockGrabFails then (volume, file.opened, -1)
    else
      match internalVolumeOpenRead L env volume file.opened with
      | (volume, result) =>
        if result ≠ 1 then
          if handles.lockReleaseFails then (volume, file.opened, -1)
          else
            (volume, file.opened.onError handles.handleCloseFails fileIoHandleOpenedInLibrary, -1)
        else
          let volume := { volume with
            fileIoHandle := some file.opened
            fileIoHandleOpenedInLibrary := fileIoHandleOpenedInLibrary }
          (volume, file.opened, if handles.lockReleaseFails then -1 else 1)

/-- Without failures of the lock and of the clean-up it is the open of the other files. -/
theorem volumeOpenFileIoHandleLocked_eq (env : OpenEnvironment) (volume : Volume)
    (file : FileIoHandle) (accessFlags : ℕ) :
    volumeOpenFileIoHandleLocked L {} env volume file accessFlags =
      volumeOpenFileIoHandle L env volume file accessFlags := by
  have hclose : file.close false = { file with isOpen := false } := by
    rw [FileIoHandle.close, Bool.and_false]
  have herror : file.opened.onError false (!file.isOpen) =
      if file.isOpen then { file with isOpen := false } else file.opened := by
    cases hopen : file.isOpen with
    | true => rfl
    | false => rfl
  simp only [volumeOpenFileIoHandleLocked, volumeOpenFileIoHandle]
  rw [herror]
  simp only [FileIoHandle.onError, hclose, if_true, Bool.false_eq_true, if_false]

/-! ## The reference of the volume -/

variable {L}

/-- The reference to the file handle, and whether the volume closes it. -/
def Volume.handleReference (v : Volume) : Option FileIoHandle × Bool := v.callerFields.1

/-- An open leaves the reference of the volume as it is, or it is the first one and refers to the
file handle that it leaves open. -/
theorem volumeOpenFileIoHandleLocked_reference (handles : HandleEnvironment)
    (env : OpenEnvironment) (v : Volume) (file : FileIoHandle) (accessFlags : ℕ) :
    let r := volumeOpenFileIoHandleLocked L handles env v file accessFlags
    r.1.handleReference = v.handleReference ∨
      v.fileIoHandle = none ∧ r.1.handleReference = (some r.2.1, !file.isOpen) := by
  intro r
  simp only [r, volumeOpenFileIoHandleLocked]
  have hread : (internalVolumeOpenRead L env v file.opened).1.handleReference = v.handleReference :=
    congrArg Prod.fst (internalVolumeOpenRead_callerFields env v file.opened)
  generalize internalVolumeOpenRead L env v file.opened = read at hread ⊢
  split
  · exact Or.inl rfl
  · rename_i hnone
    split
    · exact Or.inl rfl
    · split
      · exact Or.inl rfl
      · split
        · exact Or.inl rfl
        · split
          · split
            · exact Or.inl hread
            · exact Or.inl hread
          · exact Or.inr ⟨not_not.1 hnone, rfl⟩

/-- A close takes the reference away. -/
theorem volumeClose_fileIoHandle (env : CloseEnvironment) (v : Volume) :
    (volumeClose env v).1.fileIoHandle = none := by
  rcases volumeClose_cases env v with ⟨hnone, hclose⟩ | ⟨-, result, -, hclose⟩
  · rw [hclose]
    exact hnone
  · rw [hclose]
    rfl

/-- The calls that neither open nor close the volume. -/
def Operation.KeepsHandle : Operation → Prop
  | .openFileIoHandle _ _ _ | .close _ => False
  | _ => True

theorem setPassword_handleReference (env : PasswordEnvironment) (v : Volume)
    (stream : Option (List UInt8)) :
    (setPassword env v stream).1.handleReference = v.handleReference := by
  obtain ⟨password, size, isSet, result, heq⟩ := setPassword_eq env stream
  rw [heq]
  rfl

theorem internalVolumeSeekOffset_callerFields (v : Volume) {offset : ℤ} (whence : ℕ)
    (hoffset : -2 ^ 63 ≤ offset ∧ offset < 2 ^ 63) :
    (internalVolumeSeekOffset v offset whence).1.callerFields = v.callerFields := by
  rcases internalVolumeSeekOffset_cases v whence hoffset with heq | ⟨-, o, -, -, heq⟩
  · rw [heq]
  · rw [heq]
    rfl

theorem internalVolumeReadBuffer_callerFields (env : ReadEnvironment) (v : Volume)
    (file : Option FileIoHandle) (size : ℕ) :
    (internalVolumeReadBufferFromFileIoHandle L env v file size).1.callerFields =
      v.callerFields := by
  have hframe := (internalVolumeReadBufferFromFileIoHandle_frame (L := L) env v file size).frame
  generalize (internalVolumeReadBufferFromFileIoHandle L env v file size).1 = v' at hframe ⊢
  rw [hframe]
  rfl

theorem volumeOpenFileIoHandle_password (env : OpenEnvironment) (v : Volume) (file : FileIoHandle)
    (accessFlags : ℕ) :
    (volumeOpenFileIoHandle L env v file accessFlags).1.callerFields.2 = v.callerFields.2 := by
  have hread := congrArg Prod.snd (internalVolumeOpenRead_callerFields (L := L) env v file.opened)
  unfold volumeOpenFileIoHandle
  generalize internalVolumeOpenRead L env v file.opened = read at hread ⊢
  simp only
  split
  · rfl
  · split
    · rfl
    · split
      · rfl
      · split
        · exact hread
        · exact hread

theorem volumeClose_password (env : CloseEnvironment) (v : Volume) :
    (volumeClose env v).1.callerFields.2 = v.callerFields.2 := by
  rcases volumeClose_cases env v with ⟨-, hclose⟩ | ⟨-, result, -, hclose⟩
  · rw [hclose]
  · rw [hclose]
    rfl

/-- What a call leaves alone that is not meant for it: the file handle, all but the opens and
closes; the password, all but those that set one. -/
structure KeepsFields (operation : Operation) (v v' : Volume) : Prop where
  handle : operation.KeepsHandle → v'.handleReference = v.handleReference
  password : ¬ operation.SetsPassword → v'.callerFields.2 = v.callerFields.2

theorem KeepsFields.of_eq {operation : Operation} {v v' : Volume}
    (h : v'.callerFields = v.callerFields) : KeepsFields operation v v' :=
  ⟨fun _ => congrArg Prod.fst h, fun _ => congrArg Prod.snd h⟩

theorem step_keepsFields (operation : Operation) (v : Volume) :
    KeepsFields operation v (step L operation v).1 := by
  cases operation with
  | openFileIoHandle env file accessFlags =>
    exact ⟨fun h => h.elim, fun _ => volumeOpenFileIoHandle_password env v file accessFlags⟩
  | close env => exact ⟨fun h => h.elim, fun _ => volumeClose_password env v⟩
  | setUtf8Password env string =>
    exact ⟨fun _ => setPassword_handleReference env v _, fun h => (h trivial).elim⟩
  | setUtf16Password env string =>
    exact ⟨fun _ => setPassword_handleReference env v _, fun h => (h trivial).elim⟩
  | setKey masterKey =>
    refine .of_eq ?_
    simp only [step, volumeSetKey]
    split
    · rfl
    · rfl
  | setKeys masterKey =>
    refine .of_eq ?_
    simp only [step, volumeSetKeys]
    split
    · rfl
    · rfl
  | unlock env =>
    refine .of_eq ?_
    simp only [step, volumeUnlock]
    split
    · exact internalVolumeUnlock_callerFields env v v.fileIoHandle
    · rfl
  | isLocked => exact .of_eq rfl
  | signalAbort => exact .of_eq rfl
  | seekOffset offset whence =>
    refine .of_eq ?_
    simp only [step, volumeSeekOffset]
    split
    · rfl
    · exact internalVolumeSeekOffset_callerFields v whence offset.2
  | readBuffer env bufferSize =>
    refine .of_eq ?_
    simp only [step, volumeReadBuffer]
    split
    · rfl
    · exact internalVolumeReadBuffer_callerFields env v _ bufferSize
  | readBufferAtOffset env bufferSize offset =>
    refine .of_eq ?_
    simp only [step, volumeReadBufferAtOffset]
    split
    · rfl
    · have hseek := internalVolumeSeekOffset_callerFields v seekSet offset.2
      generalize internalVolumeSeekOffset v offset.1 seekSet = sought at hseek ⊢
      split
      · exact hseek
      · exact (internalVolumeReadBuffer_callerFields env _ _ bufferSize).trans hseek

/-! ## A volume among the file handles of its caller -/

/-- A volume and the file handles of the caller, with the one to which the volume refers. -/
structure Handles where
  volume : Volume
  reference : Option ℕ
  files : ℕ → FileIoHandle
  fileIoHandle_eq : volume.fileIoHandle = reference.map files

namespace Handles

/-- The volume has no reference exactly when it has no file handle. -/
theorem fileIoHandle_eq_none {s : Handles} : s.volume.fileIoHandle = none ↔ s.reference = none := by
  rw [s.fileIoHandle_eq, Option.map_eq_none_iff]

/-- After an open with file handle `i` the volume has the file handle to which it refers. -/
theorem openFileIoHandle_eq (handles : HandleEnvironment) (env : OpenEnvironment)
    (i accessFlags : ℕ) (s : Handles) :
    let r := volumeOpenFileIoHandleLocked L handles env s.volume (s.files i) accessFlags
    r.1.fileIoHandle = (s.reference.or (r.1.fileIoHandle.map fun _ => i)).map
      (Function.update s.files i r.2.1) := by
  intro r
  have hreference := volumeOpenFileIoHandleLocked_reference (L := L) handles env s.volume
    (s.files i) accessFlags
  rcases hsome : s.reference with - | j
  · have hnone := fileIoHandle_eq_none.2 hsome
    rcases hreference with hkeeps | ⟨-, hfirst⟩
    · have hr : r.1.fileIoHandle = none := (congrArg Prod.fst hkeeps).trans hnone
      rw [hr]
      rfl
    · have hr : r.1.fileIoHandle = some r.2.1 := congrArg Prod.fst hfirst
      rw [hr]
      exact congrArg some (Function.update_self i r.2.1 s.files).symm
  · have hne : s.volume.fileIoHandle ≠ none := by
      rw [Ne, fileIoHandle_eq_none, hsome]
      exact Option.some_ne_none j
    have hr : r = (s.volume, s.files i, -1) := if_pos hne
    rw [hr, Function.update_eq_self, s.fileIoHandle_eq, hsome]
    rfl

variable (L)

/-- An open with file handle `i`. -/
def openFileIoHandle (handles : HandleEnvironment) (env : OpenEnvironment) (i accessFlags : ℕ)
    (s : Handles) : Handles × ℤ :=
  let r := volumeOpenFileIoHandleLocked L handles env s.volume (s.files i) accessFlags
  ({ volume := r.1
     reference := s.reference.or (r.1.fileIoHandle.map fun _ => i)
     files := Function.update s.files i r.2.1
     fileIoHandle_eq := openFileIoHandle_eq handles env i accessFlags s }, r.2.2)

/-- A close. -/
def close (env : CloseEnvironment) (s : Handles) : Handles × ℤ :=
  ({ volume := (volumeClose env s.volume).1
     reference := none
     files := match s.reference with
      | none => s.files
      | some i =>
        if s.volume.fileIoHandleOpenedInLibrary then
          Function.update s.files i ((s.files i).close env.handleCloseFails)
        else s.files
     fileIoHandle_eq := volumeClose_fileIoHandle env s.volume }, (volumeClose env s.volume).2)

/-- A call that neither opens nor closes the volume. -/
def call (operation : Operation) (hkeeps : operation.KeepsHandle) (s : Handles) :
    Handles × Answer :=
  ({ volume := (step L operation s.volume).1
     reference := s.reference
     files := s.files
     fileIoHandle_eq :=
      (congrArg Prod.fst ((step_keepsFields operation s.volume).handle hkeeps)).trans
        s.fileIoHandle_eq },
    (step L operation s.volume).2)

/-- The calls that come between an open and the next close. -/
inductive Call
  | openFileIoHandle (handles : HandleEnvironment) (env : OpenEnvironment) (i accessFlags : ℕ)
  | other (operation : Operation) (hkeeps : operation.KeepsHandle)

/-- One call. -/
def next : Call → Handles → Handles × Answer
  | .openFileIoHandle handles env i accessFlags, s =>
    (s.openFileIoHandle L handles env i accessFlags).map id .of
  | .other operation hkeeps, s => s.call L operation hkeeps

/-- An open leaves the file handle `i` of the caller in good hands: where it fails, the file handle
is open exactly when it was before and the volume does not refer to it; where it succeeds, it is
open, and whatever calls follow, the next close closes it (if that is not what fails) exactly when
the open had opened it. -/
def OpenKeepsOwnership (handles : HandleEnvironment) (env : OpenEnvironment) (i accessFlags : ℕ)
    (s : Handles) : Prop :=
  let r := s.openFileIoHandle L handles env i accessFlags
  (r.2 = -1 → (r.1.files i).isOpen = (s.files i).isOpen ∧ r.1.reference ≠ some i) ∧
    (r.2 = 1 → (r.1.files i).isOpen = true ∧ ∀ calls closeEnv,
      (((stateAfter (next L) r.1 calls).close closeEnv).1.files i).isOpen =
        ((s.files i).isOpen || closeEnv.handleCloseFails))

/-- The open takes none of the branches that go wrong.  These are: the refusal of file handle `i`
itself, to which the volume goes on referring; a clean-up that closes a file handle of the caller;
a failure that leaves open what the open has opened; and a failing release of the lock behind a
successful reading, with the reference already set. -/
def HandsBack (handles : HandleEnvironment) (env : OpenEnvironment) (i accessFlags : ℕ)
    (s : Handles) : Prop :=
  s.reference ≠ some i ∧ (s.reference = none → AccessFlagsSupported accessFlags →
    if env.handleFails (s.files i) then (s.files i).isOpen = true → handles.handleCloseFails = true
    else if handles.lockGrabFails then (s.files i).isOpen = true
    else if (internalVolumeOpenRead L env s.volume (s.files i).opened).2 = 1 then
      handles.lockReleaseFails = false
    else (s.files i).isOpen = true ∧
      (handles.lockReleaseFails = true ∨ handles.handleCloseFails = true))

/-! ## Between an open and the next close -/

variable {L}

/-- The volume refers to file handle `i`, which is open, and knows whether to close it. -/
structure Owns (i : ℕ) (openedInLibrary : Bool) (s : Handles) : Prop where
  reference : s.reference = some i
  isOpen : (s.files i).isOpen = true
  openedInLibrary : s.volume.fileIoHandleOpenedInLibrary = openedInLibrary

/-- A volume with a reference refuses every open. -/
theorem openFileIoHandle_of_reference (handles : HandleEnvironment) (env : OpenEnvironment)
    (i accessFlags : ℕ) {s : Handles} {j : ℕ} (hs : s.reference = some j) :
    volumeOpenFileIoHandleLocked L handles env s.volume (s.files i) accessFlags =
      (s.volume, s.files i, -1) := by
  have hne : s.volume.fileIoHandle ≠ none := by
    rw [Ne, fileIoHandle_eq_none, hs]
    exact Option.some_ne_none j
  exact if_pos hne

theorem next_owns {i : ℕ} {openedInLibrary : Bool} (call : Call) (s : Handles)
    (h : s.Owns i openedInLibrary) : (next L call s).1.Owns i openedInLibrary := by
  cases call with
  | openFileIoHandle handles env j accessFlags =>
    have hrefused := openFileIoHandle_of_reference (L := L) handles env j accessFlags h.reference
    refine ⟨?_, ?_, ?_⟩
    · show s.reference.or _ = some i
      rw [h.reference]
      rfl
    · show (Function.update s.files j _ i).isOpen = true
      rw [hrefused, Function.update_eq_self]
      exact h.isOpen
    · show Volume.fileIoHandleOpenedInLibrary (Prod.fst _) = openedInLibrary
      rw [hrefused]
      exact h.openedInLibrary
  | other operation hkeeps =>
    exact ⟨h.reference, h.isOpen,
      (congrArg Prod.snd ((step_keepsFields operation s.volume).handle hkeeps)).trans
        h.openedInLibrary⟩

/-- Whatever calls follow, the next close closes the file handle exactly when it should. -/
theorem Owns.close {i : ℕ} {openedInLibrary : Bool} {s : Handles} (h : s.Owns i openedInLibrary)
    (calls : List Call) (env : CloseEnvironment) :
    (((stateAfter (next L) s calls).close env).1.files i).isOpen =
      (!openedInLibrary || env.handleCloseFails) := by
  have hafter : (stateAfter (next L) s calls).Owns i openedInLibrary :=
    stateAfter_invariant_of_all (P := Owns i openedInLibrary) next_owns h calls
  generalize stateAfter (next L) s calls = t at hafter ⊢
  obtain ⟨hreference, hopen, hflag⟩ := hafter
  simp only [Handles.close, hreference, hflag]
  cases openedInLibrary with
  | false => exact hopen
  | true =>
    rw [if_pos rfl, Function.update_self, FileIoHandle.close, hopen]
    rfl

/-! ## When the file handle is in good hands -/

variable {handles : HandleEnvironment} {env : OpenEnvironment} {i accessFlags : ℕ} {s : Handles}

/-- What is asked of an open that fails. -/
theorem openKeepsOwnership_of_fails {v : Volume} {file : FileIoHandle}
    (hopen : volumeOpenFileIoHandleLocked L handles env s.volume (s.files i) accessFlags =
      (v, file, -1)) :
    s.OpenKeepsOwnership L handles env i accessFlags ↔
      file.isOpen = (s.files i).isOpen ∧ s.reference.or (v.fileIoHandle.map fun _ => i) ≠ some i := by
  simp only [OpenKeepsOwnership, openFileIoHandle, hopen, Function.update_self]
  constructor
  · rintro ⟨hfails, -⟩
    exact hfails trivial
  · intro h
    exact ⟨fun _ => h, fun hone => absurd hone (by decide)⟩

/-- An open that fails on a volume without a reference. -/
theorem openKeepsOwnership_of_unset {v : Volume} {file : FileIoHandle} (hs : s.reference = none)
    (hopen : volumeOpenFileIoHandleLocked L handles env s.volume (s.files i) accessFlags =
      (v, file, -1)) (hv : v.fileIoHandle = none) :
    s.OpenKeepsOwnership L handles env i accessFlags ↔ file.isOpen = (s.files i).isOpen := by
  rw [openKeepsOwnership_of_fails hopen, hs, hv]
  simp

/-- An open that succeeds leaves nothing to be desired. -/
theorem openKeepsOwnership_of_succeeds {v : Volume} (hs : s.reference = none)
    (hopen : volumeOpenFileIoHandleLocked L handles env s.volume (s.files i) accessFlags =
      ({ v with
          fileIoHandle := some (s.files i).opened
          fileIoHandleOpenedInLibrary := !(s.files i).isOpen }, (s.files i).opened, 1)) :
    s.OpenKeepsOwnership L handles env i accessFlags := by
  have howns : (s.openFileIoHandle L handles env i accessFlags).1.Owns i (!(s.files i).isOpen) := by
    refine ⟨?_, ?_, ?_⟩
    · simp only [openFileIoHandle, hopen, hs]
      rfl
    · simp only [openFileIoHandle, hopen, Function.update_self]
      rfl
    · simp only [openFileIoHandle, hopen]
  constructor
  · intro hfails
    simp only [openFileIoHandle, hopen] at hfails
    exact absurd hfails (by decide)
  · intro _
    refine ⟨howns.isOpen, fun calls closeEnv => ?_⟩
    rw [howns.close calls closeEnv, Bool.not_not]

/-- The open of a volume leaves the file handle of the caller in good hands exactly when it does
not come to a step that goes wrong. -/
theorem openKeepsOwnership_iff (handles : HandleEnvironment) (env : OpenEnvironment)
    (i accessFlags : ℕ) (s : Handles) :
    s.OpenKeepsOwnership L handles env i accessFlags ↔
      s.HandsBack L handles env i accessFlags := by
  rcases hs : s.reference with - | j
  swap
  · rw [openKeepsOwnership_of_fails (openFileIoHandle_of_reference handles env i accessFlags hs),
      HandsBack, hs]
    simp
  have hnone := fileIoHandle_eq_none.2 hs
  have hopen : volumeOpenFileIoHandleLocked L handles env s.volume (s.files i) accessFlags =
      volumeOpenFileIoHandleLocked L handles env s.volume (s.files i) accessFlags := rfl
  conv_rhs at hopen => rw [volumeOpenFileIoHandleLocked, if_neg (not_not.2 hnone)]
  rw [HandsBack, hs]
  simp only [ne_eq, reduceCtorEq, not_false_eq_true, true_and, true_implies]
  by_cases hflags : AccessFlagsSupported accessFlags
  swap
  · rw [if_pos hflags] at hopen
    rw [openKeepsOwnership_of_unset hs hopen hnone]
    tauto
  rw [if_neg (not_not.2 hflags)] at hopen
  simp only [hflags, true_implies]
  by_cases hhandle : env.handleFails (s.files i) = true
  · rw [if_pos hhandle] at hopen ⊢
    rw [openKeepsOwnership_of_unset hs hopen hnone]
    exact FileIoHandle.onError_isOpen (s.files i)
  rw [if_neg hhandle] at hopen ⊢
  simp only at hopen
  by_cases hgrab : handles.lockGrabFails = true
  · rw [if_pos hgrab] at hopen ⊢
    rw [openKeepsOwnership_of_unset hs hopen hnone]
    exact eq_comm
  rw [if_neg hgrab] at hopen ⊢
  have hread : (internalVolumeOpenRead L env s.volume (s.files i).opened).1.fileIoHandle = none :=
    (congrArg (fun fields => fields.1.1)
      (internalVolumeOpenRead_callerFields env s.volume (s.files i).opened)).trans hnone
  generalize internalVolumeOpenRead L env s.volume (s.files i).opened = read at hread hopen ⊢
  by_cases hresult : read.2 = 1
  · rw [if_neg (not_not.2 hresult)] at hopen
    rw [if_pos hresult]
    cases hrelease : handles.lockReleaseFails with
    | true =>
      rw [hrelease] at hopen
      rw [openKeepsOwnership_of_fails hopen, hs]
      simp
    | false =>
      rw [hrelease] at hopen
      simp only [iff_true]
      exact openKeepsOwnership_of_succeeds hs hopen
  · rw [if_pos hresult] at hopen
    rw [if_neg hresult]
    by_cases hrelease : handles.lockReleaseFails = true
    · rw [if_pos hrelease] at hopen
      rw [openKeepsOwnership_of_unset hs hopen hread]
      simp only [hrelease, true_or, and_true]
      exact eq_comm
    · rw [if_neg hrelease] at hopen
      rw [openKeepsOwnership_of_unset hs hopen hread, FileIoHandle.opened_onError_isOpen]
      simp only [hrelease, Bool.false_eq_true, false_or]

/-- The file handle of an empty file. -/
def emptyFile (isOpen : Bool) : FileIoHandle := ⟨[], isOpen, by decide⟩

/-- A new volume, and a caller whose file handles are all of empty files. -/
def ofEmptyFiles (isOpen : Bool) : Handles := ⟨volumeInitialize, none, fun _ => emptyFile isOpen, rfl⟩

/-- An empty file is not a volume: the open fails and closes a file handle that the caller had
opened, and leaves one open that it has opened itself. -/
theorem emptyFile_notHandedBack :
    ¬ (ofEmptyFiles true).OpenKeepsOwnership smallLibraries {} {} 0 1 ∧
      ¬ (ofEmptyFiles false).OpenKeepsOwnership smallLibraries {} {} 0 1 := by
  have hopen : ∀ isOpen, ((ofEmptyFiles isOpen).openFileIoHandle smallLibraries {} {} 0 1).2 = -1 ∧
      (((ofEmptyFiles isOpen).openFileIoHandle smallLibraries {} {} 0 1).1.files 0).isOpen =
        !isOpen := by
    decide +kernel
  constructor
  · intro h
    have hsame := (h.1 (hopen true).1).1
    rw [(hopen true).2] at hsame
    exact absurd hsame (by decide)
  · intro h
    have hsame := (h.1 (hopen false).1).1
    rw [(hopen false).2] at hsame
    exact absurd hsame (by decide)

end Handles

end Libluksde
