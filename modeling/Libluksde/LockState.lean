import Libluksde.SessionInvariant

/-!
# The lock and the encryption context

A volume should be unlocked exactly when it has an encryption context, and then be open.  One
path breaks this: where the creation of the sector data vector fails behind a successful
unlocking, the open frees the encryption context and the header but leaves the lock cleared.
In all sessions that do not take that path the relation holds in every state.
-/

namespace Libluksde

open Lib.Bytes Lib.Machine

variable {L : Libraries}

/-! ## The calls that leave the lock alone -/

/-- The calls that neither open, unlock nor close the volume. -/
def Operation.IsQuiet : Operation → Prop
  | .openFileIoHandle _ _ _ | .unlock _ | .close _ => False
  | _ => True

/-- The calls that set a key. -/
def Operation.SetsKey : Operation → Prop
  | .setKey _ | .setKeys _ => True
  | _ => False

/-- What a quiet call leaves as it is. -/
structure QuietFrame (operation : Operation) (v v' : Volume) : Prop where
  fileIoHandle : v'.fileIoHandle = v.fileIoHandle
  volumeHeader : v'.volumeHeader = v.volumeHeader
  isLocked : v'.isLocked = v.isLocked
  context : ContextAfterReads v.encryptionContext v'.encryptionContext
  masterKey : ¬ operation.SetsKey → v'.masterKey = v.masterKey ∧
    v'.masterKeySize = v.masterKeySize ∧ v'.volumeMasterKeyIsSet = v.volumeMasterKeyIsSet

theorem QuietFrame.refl (operation : Operation) (v : Volume) : QuietFrame operation v v :=
  ⟨rfl, rfl, rfl, .refl _, fun _ => ⟨rfl, rfl, rfl⟩⟩

/-- A call that changes keys, passwords, the offset or the abort flag. -/
theorem QuietFrame.of_eq {operation : Operation} {v v' : Volume}
    (h : v' = { v with
      masterKey := v'.masterKey
      masterKeySize := v'.masterKeySize
      volumeMasterKeyIsSet := v'.volumeMasterKeyIsSet
      userPassword := v'.userPassword
      userPasswordSize := v'.userPasswordSize
      userPasswordIsSet := v'.userPasswordIsSet
      currentOffset := v'.currentOffset
      ioHandle := v'.ioHandle })
    (hkey : ¬ operation.SetsKey → v'.masterKey = v.masterKey ∧
      v'.masterKeySize = v.masterKeySize ∧ v'.volumeMasterKeyIsSet = v.volumeMasterKeyIsSet) :
    QuietFrame operation v v' := by
  refine ⟨?_, ?_, ?_, ?_, hkey⟩
  · rw [h]
  · rw [h]
  · rw [h]
  · rw [h]
    exact .refl _

theorem setPassword_quiet (operation : Operation) (env : PasswordEnvironment) (v : Volume)
    (stream : Option (List UInt8)) : QuietFrame operation v (setPassword env v stream).1 := by
  obtain ⟨password, size, isSet, result, heq⟩ := setPassword_eq env stream
  rw [heq]
  exact .of_eq rfl fun _ => ⟨rfl, rfl, rfl⟩

theorem internalVolumeReadBufferFromFileIoHandle_quiet (operation : Operation)
    (env : ReadEnvironment) (v : Volume) (file : Option FileIoHandle) (size : ℕ) :
    QuietFrame operation v (internalVolumeReadBufferFromFileIoHandle L env v file size).1 := by
  have hframe := internalVolumeReadBufferFromFileIoHandle_frame (L := L) env v file size
  generalize (internalVolumeReadBufferFromFileIoHandle L env v file size).1 = v' at hframe
  have heq := hframe.frame
  refine ⟨?_, ?_, ?_, ?_, fun _ => ⟨?_, ?_, ?_⟩⟩
  · rw [heq]
  · rw [heq]
  · rw [heq]
  · obtain ⟨w, w', -, -, hrequest⟩ | ⟨-, hcontext⟩ := hframe.vector
    · exact hrequest.context
    · rw [hcontext]
      exact .refl _
  · rw [heq]
  · rw [heq]
  · rw [heq]

theorem internalVolumeSeekOffset_quiet (operation : Operation) (v : Volume) {offset : ℤ}
    (whence : ℕ) (hoffset : -2 ^ 63 ≤ offset ∧ offset < 2 ^ 63) :
    QuietFrame operation v (internalVolumeSeekOffset v offset whence).1 := by
  obtain heq | ⟨-, o, -, -, heq⟩ := internalVolumeSeekOffset_cases v whence hoffset
  · rw [heq]
    exact .refl operation v
  · rw [heq]
    exact .of_eq rfl fun _ => ⟨rfl, rfl, rfl⟩

/-- The frame of the quiet calls. -/
theorem step_quiet {operation : Operation} (hquiet : operation.IsQuiet) (v : Volume) :
    QuietFrame operation v (step L operation v).1 := by
  cases operation with
  | openFileIoHandle | unlock | close => exact hquiet.elim
  | setKey masterKey =>
    simp only [step, volumeSetKey]
    split
    · exact .refl _ v
    · exact .of_eq rfl fun hno => (hno trivial).elim
  | setKeys masterKey =>
    simp only [step, volumeSetKeys]
    split
    · exact .refl _ v
    · exact .of_eq rfl fun hno => (hno trivial).elim
  | setUtf8Password env string => exact setPassword_quiet _ env v _
  | setUtf16Password env string => exact setPassword_quiet _ env v _
  | isLocked => exact .refl _ v
  | signalAbort => exact .of_eq rfl fun _ => ⟨rfl, rfl, rfl⟩
  | seekOffset offset whence =>
    simp only [step, volumeSeekOffset]
    split
    · exact .refl _ v
    · exact internalVolumeSeekOffset_quiet _ v whence offset.2
  | readBuffer env bufferSize =>
    simp only [step, volumeReadBuffer]
    split
    · exact .refl _ v
    · exact internalVolumeReadBufferFromFileIoHandle_quiet _ env v _ bufferSize
  | readBufferAtOffset env bufferSize offset =>
    simp only [step, volumeReadBufferAtOffset]
    split
    · exact .refl _ v
    · rename_i file hfile
      obtain heq | ⟨-, o, hl, -, heq⟩ := internalVolumeSeekOffset_cases v seekSet offset.2
      · rw [heq]
        exact .refl _ v
      · rw [heq]
        have hnot : ¬ o = -1 := by omega
        simp only [if_neg hnot]
        have hread := internalVolumeReadBufferFromFileIoHandle_quiet (L := L)
          (.readBufferAtOffset env bufferSize offset) env { v with currentOffset := o }
          (some file) bufferSize
        exact ⟨hread.1, hread.2, hread.3, hread.4, hread.5⟩

/-! ## The path that breaks the relation -/

/-- An open that comes past a successful unlocking and then fails to create the sector data
vector. -/
def FailsUnlocked (L : Libraries) (env : OpenEnvironment) (v : Volume) (file : FileIoHandle)
    (accessFlags : ℕ) : Prop :=
  v.fileIoHandle = none ∧ AccessFlagsSupported accessFlags ∧ env.handleFails file = false ∧
    (openReadHeader L env v file.opened).2 = true ∧
    (internalVolumeUnlock L env.keys (openReadHeader L env v file.opened).1
      (some file.opened)).2 = 1 ∧ env.vectorFails = true

/-- The condition on a call: it does not take that path. -/
def KeepsLock (L : Libraries) : Operation → Volume → Prop
  | .openFileIoHandle env file accessFlags, v => ¬ FailsUnlocked L env v file accessFlags
  | _, _ => True

/-- An unlocked volume has an encryption context. -/
def HasContext (v : Volume) : Prop := v.isLocked = false → v.encryptionContext ≠ none

/-- A volume on which nothing is left of an open file is locked. -/
theorem HasContext.isLocked {v : Volume} (h : HasContext v) (hclosed : Closed v) :
    v.isLocked = true := by
  by_contra hno
  exact h (by simpa using hno) hclosed.encryptionContext

/-- What the condition says of an open that fails in the unlocking or behind it. -/
theorem not_failsUnlocked {env : OpenEnvironment} {v v' : Volume} {file : FileIoHandle}
    {accessFlags : ℕ} {header : VolumeHeader} {result : ℤ}
    (hreach : ReachesUnlock L env v file accessFlags header)
    (hunlock : internalVolumeUnlock L env.keys (v.beforeUnlock file header) (some file.opened)
      = (v', result)) (hfails : result = -1 ∨ env.vectorFails = true)
    (hkeeps : ¬ FailsUnlocked L env v file accessFlags) : result ≠ 1 := by
  intro hone
  subst hone
  refine hkeeps ⟨hreach.fileIoHandle, hreach.accessFlags, hreach.handleFails, ?_, ?_,
    hfails.resolve_left (by decide)⟩
  · rw [hreach.read]
  · rw [hreach.read]
    simp only
    rw [hunlock]

theorem volumeOpenFileIoHandle_hasContext {env : OpenEnvironment} {v : Volume}
    (hv : Wellformed L v) (h : HasContext v) {file : FileIoHandle} {accessFlags : ℕ}
    (hkeeps : ¬ FailsUnlocked L env v file accessFlags) :
    HasContext (volumeOpenFileIoHandle L env v file accessFlags).1 := by
  have houtcome := volumeOpenFileIoHandle_outcome (L := L) env hv.closed hv.bytesPerSector file
    accessFlags
  generalize (volumeOpenFileIoHandle L env v file accessFlags).1 = v' at houtcome ⊢
  generalize (volumeOpenFileIoHandle L env v file accessFlags).2.2 = result at houtcome
  cases houtcome with
  | refused masterKeySize volumeSize => exact h
  | failed hreach hunlock hfails =>
    rename_i header v' result
    have hclosed := hv.closed hreach.fileIoHandle
    have hstep := internalVolumeUnlock_step (v := v.beforeUnlock file header) env.keys
      (some file.opened) hclosed.encryptionContext hunlock
    have hlocked : v'.isLocked = v.isLocked :=
      (hstep.locked (not_failsUnlocked hreach hunlock hfails hkeeps)).2
    intro hunlocked
    exact absurd (hlocked.symm.trans hunlocked) (by simp [h.isLocked hclosed])
  | opened hreach hunlock hresult hvector =>
    rename_i header v' result
    have hclosed := hv.closed hreach.fileIoHandle
    have hstep := internalVolumeUnlock_step (v := v.beforeUnlock file header) env.keys
      (some file.opened) hclosed.encryptionContext hunlock
    intro hunlocked hnone
    have hunlocked' : v'.isLocked = false := hunlocked
    by_cases hone : result = 1
    · obtain ⟨⟨-, context, -, hsome, -⟩, -⟩ := hstep.unlocked hone
      exact absurd (hsome.symm.trans hnone) (by simp)
    · have hlocked : v'.isLocked = v.isLocked := (hstep.locked hone).2
      exact absurd (hlocked.symm.trans hunlocked') (by simp [h.isLocked hclosed])

theorem volumeUnlock_hasContext {v : Volume} (hv : Wellformed L v) (h : HasContext v)
    (env : KeysEnvironment) : HasContext (volumeUnlock L env v).1 := by
  rcases volumeUnlock_cases hv env with ⟨-, hunlock⟩ | ⟨hlocked, -, v', result, hunlock, hstep⟩
  · rw [hunlock]
    exact h
  · rw [hunlock]
    intro hunlocked hnone
    by_cases hone : result = 1
    · obtain ⟨⟨-, context, -, hsome, -⟩, -⟩ := hstep.unlocked hone
      exact absurd (hsome.symm.trans hnone) (by simp)
    · have hsame : v'.isLocked = v.isLocked := (hstep.locked hone).2
      exact absurd (hsame.symm.trans hunlocked) (by simp [hlocked])

/-- A call that does not take the path keeps the relation. -/
theorem step_hasContext {operation : Operation} {v : Volume} (hkeeps : KeepsLock L operation v)
    (hv : Wellformed L v) (h : HasContext v) : HasContext (step L operation v).1 := by
  by_cases hquiet : operation.IsQuiet
  · have hframe := step_quiet (L := L) hquiet v
    intro hunlocked hnone
    rw [hframe.isLocked] at hunlocked
    exact h hunlocked (hframe.context.eq_none_iff.1 hnone)
  · cases operation with
    | openFileIoHandle env file accessFlags =>
      exact volumeOpenFileIoHandle_hasContext hv h hkeeps
    | unlock env => exact volumeUnlock_hasContext hv h env
    | close env =>
      simp only [step]
      rcases volumeClose_cases env v with ⟨-, hclose⟩ | ⟨-, result, -, hclose⟩
      · rw [hclose]
        exact h
      · rw [hclose]
        intro hunlocked
        cases hunlocked
    | _ => exact (hquiet trivial).elim

/-- The relation after every session that does not take the path. -/
theorem volumeAfter_hasContext {session : List Operation}
    (h : Admitted (step L) (KeepsLock L) volumeInitialize session) :
    HasContext (volumeAfter L session) := by
  have hboth : Wellformed L (volumeAfter L session) ∧ HasContext (volumeAfter L session) :=
    stateAfter_invariant (P := fun v => Wellformed L v ∧ HasContext v)
      (fun operation v hkeeps hv => ⟨step_wellformed operation v hv.1,
        step_hasContext hkeeps hv.1 hv.2⟩)
      ⟨volumeInitialize_wellformed, fun hunlocked => (by cases hunlocked)⟩ h
  exact hboth.2

/-- The path does break the relation: the volume is left without an open file and unlocked. -/
theorem FailsUnlocked.isLocked {env : OpenEnvironment} {v : Volume} (hv : Wellformed L v)
    {file : FileIoHandle} {accessFlags : ℕ} (h : FailsUnlocked L env v file accessFlags) :
    let r := volumeOpenFileIoHandle L env v file accessFlags
    r.2.2 = -1 ∧ r.1.fileIoHandle = none ∧ r.1.isLocked = false := by
  obtain ⟨hnone, hflags, hhandle, hread, hunlock, hfails⟩ := h
  have hclosed := hv.closed hnone
  obtain hrefused | ⟨header, hheader, hspec⟩ := openReadHeader_spec (L := L) env file.opened
  · obtain ⟨masterKeySize, volumeSize, heq⟩ := hrefused v hclosed hv.bytesPerSector
    rw [heq] at hread
    cases hread
  · have hoffset : 0 ≤ (v.beforeUnlock file header).ioHandle.encryptedVolumeOffset :=
      Int.mul_nonneg (Int.natCast_nonneg _) (Int.natCast_nonneg _)
    obtain ⟨v', result, hunlock', hcase⟩ := openReadUnlock_spec (L := L) env
      (v := v.beforeUnlock file header) file.opened hclosed.encryptionContext hv.bytesPerSector
      hoffset
    have heq : openReadHeader L env v file.opened = (v.beforeUnlock file header, true) :=
      hspec v hclosed hv.bytesPerSector
    have hone : result = 1 := by
      rw [heq] at hunlock
      simp only [hunlock'] at hunlock
      exact hunlock
    have hstep := internalVolumeUnlock_step (v := v.beforeUnlock file header) env.keys
      (some file.opened) hclosed.encryptionContext hunlock'
    have hopen : internalVolumeOpenRead L env v file.opened = (v'.openReadOnError, -1) := by
      rw [internalVolumeOpenRead, heq]
      obtain ⟨-, hresult⟩ | ⟨-, hno, -⟩ := hcase
      · exact hresult
      · rw [hfails] at hno
        cases hno
    simp only [volumeOpenFileIoHandle, hopen, hhandle]
    rw [if_neg (not_not.2 hnone), if_neg (not_not.2 hflags)]
    refine ⟨rfl, ?_, (hstep.unlocked hone).2⟩
    show v'.fileIoHandle = none
    rw [hstep.frame]
    exact hnone

/-! ## The lock state -/

/-- The relation between the lock and what an open creates. -/
structure LockState (v : Volume) : Prop where
  unlocked_iff : v.isLocked = false ↔ v.encryptionContext ≠ none
  present : v.isLocked = false →
    v.fileIoHandle ≠ none ∧ v.volumeHeader ≠ none ∧ v.sectorDataVector ≠ none
  closed : v.fileIoHandle = none → v.isLocked = true ∧ v.volumeHeader = none ∧
    v.sectorDataVector = none ∧ v.encryptionContext = none

theorem HasContext.lockState {v : Volume} (h : HasContext v) (hv : Wellformed L v) :
    LockState v := by
  refine ⟨⟨h, hv.unlocked⟩, fun hunlocked => ?_, fun hnone => ?_⟩
  · have hopen : v.fileIoHandle ≠ none := fun hnone =>
      h hunlocked (hv.closed hnone).encryptionContext
    obtain ⟨file, hfile⟩ := Option.ne_none_iff_exists'.1 hopen
    obtain ⟨-, -, header, -, -, hheader⟩ := (hv.opened file hfile).header
    obtain ⟨vector, hvector, -⟩ := (hv.opened file hfile).vector
    exact ⟨hopen, by simp [hheader], by simp [hvector]⟩
  · have hclosed := hv.closed hnone
    exact ⟨h.isLocked hclosed, hclosed.volumeHeader, hclosed.sectorDataVector,
      hclosed.encryptionContext⟩

/-- A read that does not fail is one of an unlocked volume. -/
theorem internalVolumeReadBufferFromFileIoHandle_unlocked {env : ReadEnvironment} {v : Volume}
    {file : Option FileIoHandle} {size : ℕ}
    (h : (internalVolumeReadBufferFromFileIoHandle L env v file size).2.count ≠ -1) :
    v.isLocked = false := by
  by_contra hlocked
  apply h
  rw [internalVolumeReadBufferFromFileIoHandle, if_pos (by simpa using hlocked)]
  rfl

/-- A seek that does not fail is one of an unlocked volume. -/
theorem internalVolumeSeekOffset_unlocked {v : Volume} {offset : ℤ} {whence : ℕ}
    (h : (internalVolumeSeekOffset v offset whence).2 ≠ -1) : v.isLocked = false := by
  by_contra hlocked
  apply h
  rw [internalVolumeSeekOffset, if_pos (by simpa using hlocked)]

/-- An open that fails leaves a volume without an open file as one. -/
theorem volumeOpenFileIoHandle_failed {env : OpenEnvironment} {v : Volume} (hv : Wellformed L v)
    {file : FileIoHandle} {accessFlags : ℕ} (hnone : v.fileIoHandle = none)
    (h : (volumeOpenFileIoHandle L env v file accessFlags).2.2 = -1) :
    (volumeOpenFileIoHandle L env v file accessFlags).1.fileIoHandle = none := by
  have houtcome := volumeOpenFileIoHandle_outcome (L := L) env hv.closed hv.bytesPerSector file
    accessFlags
  generalize (volumeOpenFileIoHandle L env v file accessFlags).1 = v' at houtcome ⊢
  generalize (volumeOpenFileIoHandle L env v file accessFlags).2.2 = result at houtcome h
  cases houtcome with
  | refused masterKeySize volumeSize => exact hnone
  | failed hreach hunlock hfails =>
    rename_i header v' result
    have hstep := internalVolumeUnlock_step (v := v.beforeUnlock file header) env.keys
      (some file.opened) (hv.closed hnone).encryptionContext hunlock
    show v'.fileIoHandle = none
    rw [hstep.frame]
    exact hnone
  | opened => cases h

/-- **The lock state.**  After every session in which no open fails behind a successful
unlocking, a volume is unlocked exactly when it has an encryption context, and then everything
that an open creates is there; a volume without an open file is locked and nothing is left on
it; reads and seeks succeed on open and unlocked volumes only; and an open that fails leaves
the volume closed and locked.  Among what may fail there is no lock between threads. -/
theorem lockState_of_keepsLock {session : List Operation}
    (h : Admitted (step L) (KeepsLock L) volumeInitialize session) :
    let v := volumeAfter L session
    LockState v ∧
    (∀ env size, (volumeReadBuffer L env v size).2.count ≠ -1 →
      v.fileIoHandle ≠ none ∧ v.isLocked = false) ∧
    (∀ env size offset, (volumeReadBufferAtOffset L env v size offset).2.count ≠ -1 →
      v.fileIoHandle ≠ none ∧ v.isLocked = false) ∧
    (∀ offset whence, (volumeSeekOffset v offset whence).2 ≠ -1 →
      v.fileIoHandle ≠ none ∧ v.isLocked = false) ∧
    (∀ env file accessFlags, v.fileIoHandle = none →
      KeepsLock L (.openFileIoHandle env file accessFlags) v →
      (volumeOpenFileIoHandle L env v file accessFlags).2.2 = -1 →
      (volumeOpenFileIoHandle L env v file accessFlags).1.fileIoHandle = none ∧
        (volumeOpenFileIoHandle L env v file accessFlags).1.isLocked = true) := by
  intro v
  have hv : Wellformed L v := volumeAfter_wellformed session
  have hcontext : HasContext v := volumeAfter_hasContext h
  refine ⟨hcontext.lockState hv, fun env size hne => ?_, fun env size offset hne => ?_,
    fun offset whence hne => ?_, fun env file accessFlags hnone hkeeps hfailed => ?_⟩
  · rw [volumeReadBuffer] at hne
    split at hne
    · exact absurd rfl hne
    · rename_i file hfile
      exact ⟨by simp [hfile], internalVolumeReadBufferFromFileIoHandle_unlocked hne⟩
  · rw [volumeReadBufferAtOffset] at hne
    split at hne
    · exact absurd rfl hne
    · rename_i file hfile
      simp only at hne
      split at hne
      · exact absurd rfl hne
      · rename_i hseek
        exact ⟨by simp [hfile], internalVolumeSeekOffset_unlocked hseek⟩
  · rw [volumeSeekOffset] at hne
    split at hne
    · exact absurd rfl hne
    · rename_i file hfile
      exact ⟨by simp [hfile], internalVolumeSeekOffset_unlocked hne⟩
  · have hnone' := volumeOpenFileIoHandle_failed hv hnone hfailed
    have hafter := step_wellformed (L := L) (.openFileIoHandle env file accessFlags) v hv
    have hcontext' := step_hasContext (L := L) hkeeps hv hcontext
    exact ⟨hnone', hcontext'.isLocked (hafter.closed hnone')⟩

/-- The small volume is opened with its key. -/
theorem lockState_of_keepsLock_small :
    let v := volumeAfter smallLibraries smallSession
    LockState v ∧
    (∀ env size, (volumeReadBuffer smallLibraries env v size).2.count ≠ -1 →
      v.fileIoHandle ≠ none ∧ v.isLocked = false) ∧
    (∀ env size offset, (volumeReadBufferAtOffset smallLibraries env v size offset).2.count ≠ -1 →
      v.fileIoHandle ≠ none ∧ v.isLocked = false) ∧
    (∀ offset whence, (volumeSeekOffset v offset whence).2 ≠ -1 →
      v.fileIoHandle ≠ none ∧ v.isLocked = false) ∧
    (∀ env file accessFlags, v.fileIoHandle = none →
      KeepsLock smallLibraries (.openFileIoHandle env file accessFlags) v →
      (volumeOpenFileIoHandle smallLibraries env v file accessFlags).2.2 = -1 →
      (volumeOpenFileIoHandle smallLibraries env v file accessFlags).1.fileIoHandle = none ∧
        (volumeOpenFileIoHandle smallLibraries env v file accessFlags).1.isLocked = true) :=
  lockState_of_keepsLock ⟨trivial, fun h => absurd h.2.2.2.2.2 (by decide), trivial⟩

/-- The key is set and the creation of the sector data vector fails. -/
def smallFailingSession : List Operation :=
  [.setKey smallKey, .openFileIoHandle { vectorFails := true } smallFile 1]

/-- The open fails, and leaves the volume without file, header, vector and encryption context,
but unlocked. -/
theorem smallFailingSession_unlocked :
    answers (step smallLibraries) volumeInitialize smallFailingSession = [.of 1, .of (-1)] ∧
    let v := volumeAfter smallLibraries smallFailingSession
    v.isLocked = false ∧ v.fileIoHandle.isNone ∧ v.volumeHeader = none ∧
      v.sectorDataVector = none ∧ v.encryptionContext = none := by
  decide +kernel

end Libluksde
