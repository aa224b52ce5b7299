import Mathlib.Logic.Relation
import Libluksde.LockState

/-!
# The history of an encryption context

In every session the encryption context of a volume is one that was created for its header and for
a master key that was validated, and then went through decryptions only.  Properties of the
contexts of volumes are proved from this, by induction on the decryptions.
-/

namespace Libluksde

open Lib.Bytes Lib.Machine Relation

variable {L : Libraries}

/-- A decryption with the context `c` leaves the context `c'`. -/
def Decrypts (L : Libraries) (c c' : EncryptionContext) : Prop :=
  ∃ input size sectorNumber output,
    encryptionContextCrypt L c .decrypt input size sectorNumber = some (output, c')

/-- The contexts before and after decryptions: both `NULL`, or one comes from the other. -/
def AfterDecryptions (L : Libraries) : Option EncryptionContext → Option EncryptionContext → Prop
  | none, none => True
  | some c, some c' => ReflTransGen (Decrypts L) c c'
  | _, _ => False

theorem AfterDecryptions.refl (c : Option EncryptionContext) : AfterDecryptions L c c := by
  cases c with
  | none => trivial
  | some c => exact ReflTransGen.refl

theorem AfterDecryptions.trans {c c' c'' : Option EncryptionContext} (h : AfterDecryptions L c c')
    (h' : AfterDecryptions L c' c'') : AfterDecryptions L c c'' := by
  cases c <;> cases c' <;> cases c'' <;> try exact h.elim
  · trivial
  · exact h'.elim
  · exact h'.elim
  · exact ReflTransGen.trans h h'

/-- A context was created for a header and a master key that was validated, and has only decrypted
since. -/
def ContextOf (L : Libraries) (header : VolumeHeader) (c : EncryptionContext) : Prop :=
  ∃ key created, masterKeyIsValid L false header key = some true ∧
    createContext L false false header key = some created ∧ ReflTransGen (Decrypts L) created c

theorem ContextOf.after {header : VolumeHeader} {c : EncryptionContext}
    {c' : Option EncryptionContext} (h : ContextOf L header c)
    (hafter : AfterDecryptions L (some c) c') : ∀ d, c' = some d → ContextOf L header d := by
  rintro d rfl
  obtain ⟨key, created, hvalid, hcreated, hdecrypts⟩ := h
  exact ⟨key, created, hvalid, hcreated, hdecrypts.trans hafter⟩

/-! ## Reads only decrypt -/

theorem sectorDataVectorGetSectorDataAtOffset_decrypts (env : SectorEnvironment)
    (v : SectorDataVector) (file : Option FileIoHandle) (c : Option EncryptionContext)
    (offset : ℤ) :
    AfterDecryptions L c
      (sectorDataVectorGetSectorDataAtOffset L env v file c offset).2.2 := by
  unfold sectorDataVectorGetSectorDataAtOffset
  split
  · exact .refl c
  · split
    · split <;> exact .refl c
    · split
      · exact .refl c
      · simp only
        split
        · exact .refl c
        · rename_i data c' hread
          have hc : AfterDecryptions L c (some c') := by
            unfold sectorDataReadFileIoHandle at hread
            split at hread
            · cases hread
            · split_ifs at hread
              obtain ⟨c₀, rfl, hcrypt⟩ := Option.bind_eq_some_iff.1 hread
              exact ReflTransGen.single ⟨_, _, _, _, hcrypt⟩
          split
          · exact hc
          · exact hc

theorem readLoop_decrypts {env : ReadEnvironment} {file : Option FileIoHandle}
    {bytesPerSector fuel k : ℕ} {s s' : ReadLoop} {ok : Bool}
    (h : readLoop L env file bytesPerSector fuel k s = (s', ok)) :
    AfterDecryptions L s.context s'.context := by
  induction fuel generalizing k s with
  | zero =>
    cases h
    exact .refl _
  | succ fuel ih =>
    have hrequest := sectorDataVectorGetSectorDataAtOffset_decrypts (L := L) (env.sector k) s.vector
      file s.context s.sectorFileOffset
    rw [readLoop] at h
    split at h
    · cases h
      exact .refl _
    · split at h
      · rename_i hget
        rw [hget] at hrequest
        cases h
        exact hrequest
      · rename_i hget
        rw [hget] at hrequest
        simp only at h
        split at h
        · cases h
          exact hrequest
        · exact .trans hrequest (ih h)

theorem internalVolumeReadBufferFromFileIoHandle_decrypts (env : ReadEnvironment) (v : Volume)
    (file : Option FileIoHandle) (size : ℕ) :
    AfterDecryptions L v.encryptionContext
      (internalVolumeReadBufferFromFileIoHandle L env v file size).1.encryptionContext := by
  unfold internalVolumeReadBufferFromFileIoHandle
  split
  · exact .refl _
  · split
    · exact .refl _
    · split
      · exact .refl _
      · split
        · exact .refl _
        · unfold readFromVector
          split
          · exact .refl _
          · simp only
            split
            all_goals
              rename_i s hloop
              exact readLoop_decrypts hloop

theorem setPassword_encryptionContext (env : PasswordEnvironment) (v : Volume)
    (stream : Option (List UInt8)) :
    (setPassword env v stream).1.encryptionContext = v.encryptionContext := by
  obtain ⟨password, size, isSet, result, heq⟩ := setPassword_eq env stream
  rw [heq]

/-- A quiet call leaves the context or only decrypts with it. -/
theorem step_decrypts {operation : Operation} (hquiet : operation.IsQuiet) (v : Volume) :
    AfterDecryptions L v.encryptionContext (step L operation v).1.encryptionContext := by
  cases operation with
  | openFileIoHandle | unlock | close => exact hquiet.elim
  | readBuffer env bufferSize =>
    simp only [step, volumeReadBuffer]
    split
    · exact .refl _
    · exact internalVolumeReadBufferFromFileIoHandle_decrypts env v _ bufferSize
  | readBufferAtOffset env bufferSize offset =>
    simp only [step, volumeReadBufferAtOffset]
    split
    · exact .refl _
    · obtain heq | ⟨-, o, -, -, heq⟩ := internalVolumeSeekOffset_cases v seekSet offset.2
      · rw [heq]
        exact .refl _
      · rw [heq]
        simp only
        split
        · exact .refl _
        · exact internalVolumeReadBufferFromFileIoHandle_decrypts env
            { v with currentOffset := o } _ bufferSize
  | seekOffset offset whence =>
    simp only [step, volumeSeekOffset]
    split
    · exact .refl _
    · obtain heq | ⟨-, o, -, -, heq⟩ := internalVolumeSeekOffset_cases v whence offset.2
      · rw [heq]
        exact .refl _
      · rw [heq]
        exact .refl _
  | setKey masterKey =>
    simp only [step, volumeSetKey]
    split <;> exact .refl _
  | setKeys masterKey =>
    simp only [step, volumeSetKeys]
    split <;> exact .refl _
  | setUtf8Password env string =>
    simp only [step, Prod.map_fst, id_eq, volumeSetUtf8Password, setPassword_encryptionContext]
    exact .refl _
  | setUtf16Password env string =>
    simp only [step, Prod.map_fst, id_eq, volumeSetUtf16Password, setPassword_encryptionContext]
    exact .refl _
  | isLocked => exact .refl _
  | signalAbort => exact .refl _

/-! ## The context of a volume -/

/-- Every context of a volume with a header is one of the header. -/
def ContextsOfHeader (L : Libraries) (v : Volume) : Prop :=
  ∀ header context, v.volumeHeader = some header → v.encryptionContext = some context →
    ContextOf L header context

theorem Validated.contextsOfHeader {v : Volume} (h : Validated L v) : ContextsOfHeader L v := by
  obtain ⟨header', context', hheader', hcontext', hvalid, hcreated⟩ := h
  intro header context hheader hcontext
  rw [hheader'] at hheader
  rw [hcontext'] at hcontext
  cases hheader
  cases hcontext
  exact ⟨_, _, hvalid, hcreated, ReflTransGen.refl⟩

theorem UnlockStep.contextsOfHeader {v v' : Volume} {result : ℤ} (h : UnlockStep L v v' result) :
    ContextsOfHeader L v' := by
  by_cases hone : result = 1
  · exact (h.unlocked hone).1.contextsOfHeader
  · intro header context _ hcontext
    exact absurd ((h.locked hone).1.symm.trans hcontext) (by simp)

theorem volumeOpenFileIoHandle_contextsOfHeader {v : Volume} (hv : Wellformed L v)
    (h : ContextsOfHeader L v) (env : OpenEnvironment) (file : FileIoHandle) (accessFlags : ℕ) :
    ContextsOfHeader L (volumeOpenFileIoHandle L env v file accessFlags).1 := by
  by_cases hfile : v.fileIoHandle = none
  · have hclosed := hv.closed hfile
    have houtcome := volumeOpenFileIoHandle_outcome (L := L) env hv.closed hv.bytesPerSector file
      accessFlags
    generalize (volumeOpenFileIoHandle L env v file accessFlags).1 = v' at houtcome ⊢
    generalize (volumeOpenFileIoHandle L env v file accessFlags).2.2 = result at houtcome
    cases houtcome with
    | refused =>
      intro header context _ hcontext
      exact absurd (hclosed.encryptionContext.symm.trans hcontext) (by simp)
    | failed => exact fun _ _ _ hcontext => (by cases hcontext)
    | opened hreach hunlock =>
      rename_i header v' result hresult hvector
      have hstep := internalVolumeUnlock_step (v := v.beforeUnlock file header) env.keys
        (some file.opened) hclosed.encryptionContext hunlock
      exact hstep.contextsOfHeader
  · rw [volumeOpenFileIoHandle_of_open env hfile]
    exact h

theorem step_contextsOfHeader (operation : Operation) {v : Volume} (hv : Wellformed L v)
    (h : ContextsOfHeader L v) : ContextsOfHeader L (step L operation v).1 := by
  by_cases hquiet : operation.IsQuiet
  · have hframe := step_quiet (L := L) hquiet v
    have hdecrypts := step_decrypts (L := L) hquiet v
    intro header context hheader hcontext
    rw [hframe.volumeHeader] at hheader
    cases hbefore : v.encryptionContext with
    | none =>
      rw [hbefore, hcontext] at hdecrypts
      exact hdecrypts.elim
    | some c =>
      rw [hbefore] at hdecrypts
      exact (h header c hheader hbefore).after hdecrypts context hcontext
  · cases operation with
    | openFileIoHandle env file accessFlags =>
      exact volumeOpenFileIoHandle_contextsOfHeader hv h env file accessFlags
    | unlock env =>
      simp only [step]
      rcases volumeUnlock_cases hv env with ⟨-, hunlock⟩ | ⟨-, -, v', result, hunlock, hstep⟩
      · rw [hunlock]
        exact h
      · rw [hunlock]
        exact hstep.contextsOfHeader
    | close env =>
      simp only [step]
      rcases volumeClose_cases env v with ⟨-, hclose⟩ | ⟨-, result, -, hclose⟩
      · rw [hclose]
        exact h
      · rw [hclose]
        intro header context hheader
        cases hheader
    | _ => exact (hquiet trivial).elim

/-- After every session, the context of a volume is one of its header. -/
theorem volumeAfter_contextsOfHeader (session : List Operation) :
    ContextsOfHeader L (volumeAfter L session) :=
  (stateAfter_invariant_of_all (P := fun v => Wellformed L v ∧ ContextsOfHeader L v)
    (fun operation v h => ⟨step_wellformed operation v h.1, step_contextsOfHeader operation h.1 h.2⟩)
    ⟨volumeInitialize_wellformed, fun _ _ hheader => (by cases hheader)⟩ session).2

/-- A context of a header has a supported encryption mode and hashing method. -/
theorem ContextOf.supported {header : VolumeHeader} {c : EncryptionContext}
    (h : ContextOf L header c) :
    selectEncryptionMode header.encryptionMethod header.encryptionChainingMode ≠ .unknown ∧
      hashSize header.hashingMethod ≠ none := by
  obtain ⟨key, created, hvalid, hcreated, -⟩ := h
  obtain ⟨initialized, hinitialized, -⟩ := Option.bind_eq_some_iff.1 hcreated
  refine ⟨(encryptionContextInitialize_spec hinitialized).1, fun hnone => ?_⟩
  rw [masterKeyIsValid, passwordPbkdf2_eq_none_of_hashSize hnone] at hvalid
  cases hvalid

end Libluksde
