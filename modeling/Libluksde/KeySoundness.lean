import Libluksde.LockState

/-!
# Unlocked volumes have a validated key

Where keys are set on closed volumes only and no open fails behind a successful unlocking, an
unlocked volume has an encryption context that was keyed with a master key whose digest is the
one of the header.
-/

namespace Libluksde

open Lib.Bytes Lib.Machine

variable {L : Libraries}

/-- The bytes of the master key that the header asks for. -/
def Volume.headerKey (v : Volume) (header : VolumeHeader) : List UInt8 :=
  v.masterKey.bytes.take header.masterKeySize.toNat

/-- A context that was keyed with some bytes; only the state of RC4 has changed since. -/
def KeyedWith (L : Libraries) (header : VolumeHeader) (key : List UInt8)
    (context : EncryptionContext) : Prop :=
  ∃ created keyed, encryptionContextInitialize false header.encryptionMethod
      header.encryptionChainingMode header.initializationVectorMode header.essivHashingMethod
        = some created ∧
    encryptionContextSetKey L created key = some keyed ∧ SameKeys keyed context

theorem KeyedWith.of_createContext {header : VolumeHeader} {key : List UInt8}
    {context : EncryptionContext} (h : createContext L false false header key = some context) :
    KeyedWith L header key context := by
  obtain ⟨created, hcreated, hkeyed⟩ := Option.bind_eq_some_iff.1 h
  exact ⟨created, context, hcreated, hkeyed, .refl context⟩

/-- The digest of a key that was validated. -/
theorem passwordPbkdf2_of_valid {header : VolumeHeader} {key : List UInt8}
    (h : masterKeyIsValid L false header key = some true) :
    passwordPbkdf2 L false (some key) header.hashingMethod header.masterKeySalt.bytes
      header.masterKeyNumberOfIterations.toNat 20 = some header.masterKeyValidationHash.bytes := by
  obtain ⟨digest, hdigest, heq⟩ := Option.map_eq_some_iff.1 h
  rw [hdigest, beq_iff_eq.1 heq]

/-- The master key of an open volume: its size is that of the header, and an encryption context
was keyed with it after it was validated. -/
structure KeySound (L : Libraries) (v : Volume) (header : VolumeHeader) : Prop where
  masterKeySize : v.masterKeySize = header.masterKeySize.toNat
  context : ∀ context, v.encryptionContext = some context →
    masterKeyIsValid L false header (v.headerKey header) = some true ∧
      KeyedWith L header (v.headerKey header) context

/-- The master key of a volume is sound where the volume has a header. -/
def KeysSound (L : Libraries) (v : Volume) : Prop :=
  ∀ header, v.volumeHeader = some header → KeySound L v header

/-- The condition on a call: keys are set on closed volumes only, and the call does not fail
behind a successful unlocking. -/
def KeepsKeys (L : Libraries) (operation : Operation) (v : Volume) : Prop :=
  (operation.SetsKey → v.fileIoHandle = none) ∧ KeepsLock L operation v

/-! ## One call -/

/-- A volume whose encryption context was just created for a validated key. -/
theorem Validated.keySound {v : Volume} (h : Validated L v) {header : VolumeHeader}
    (hheader : v.volumeHeader = some header)
    (hsize : v.masterKeySize = header.masterKeySize.toNat) : KeySound L v header := by
  obtain ⟨header', context, hheader', hcontext, hvalid, hcreated⟩ := h
  rw [hheader] at hheader'
  cases hheader'
  rw [hsize] at hvalid hcreated
  refine ⟨hsize, fun context' hcontext' => ?_⟩
  rw [hcontext] at hcontext'
  cases hcontext'
  exact ⟨hvalid, .of_createContext hcreated⟩

/-- An attempt to unlock a volume whose master key has the size that the header gives. -/
theorem UnlockStep.keysSound {v v' : Volume} {result : ℤ} (h : UnlockStep L v v' result)
    (hsize : ∀ header, v.volumeHeader = some header →
      v.masterKeySize = header.masterKeySize.toNat) : KeysSound L v' := by
  have hkept : v'.masterKeySize = v.masterKeySize := by rw [h.frame]
  intro header' hheader'
  cases hheader : v.volumeHeader with
  | none => exact absurd ((h.noHeader hheader).symm.trans hheader') (by simp)
  | some header =>
    obtain ⟨header'', hsome, hs⟩ := h.header header hheader
    rw [hheader'] at hsome
    cases hsome
    have hsize' : v'.masterKeySize = header'.masterKeySize.toNat := by
      rw [hkept, hsize header hheader, hs]
    by_cases hone : result = 1
    · exact (h.unlocked hone).1.keySound hheader' hsize'
    · refine ⟨hsize', fun context hcontext => ?_⟩
      exact absurd ((h.locked hone).1.symm.trans hcontext) (by simp)

theorem volumeUnlock_keysSound {v : Volume} (hv : Wellformed L v) (h : KeysSound L v)
    (env : KeysEnvironment) : KeysSound L (volumeUnlock L env v).1 := by
  rcases volumeUnlock_cases hv env with ⟨-, hunlock⟩ | ⟨-, -, v', result, hunlock, hstep⟩
  · rw [hunlock]
    exact h
  · rw [hunlock]
    exact hstep.keysSound fun header hheader => (h header hheader).masterKeySize

theorem volumeOpenFileIoHandle_keysSound {env : OpenEnvironment} {v : Volume}
    (hv : Wellformed L v) (h : KeysSound L v) {file : FileIoHandle} {accessFlags : ℕ} :
    KeysSound L (volumeOpenFileIoHandle L env v file accessFlags).1 := by
  by_cases hfile : v.fileIoHandle = none
  · have hclosed := hv.closed hfile
    have houtcome := volumeOpenFileIoHandle_outcome (L := L) env hv.closed hv.bytesPerSector file
      accessFlags
    generalize (volumeOpenFileIoHandle L env v file accessFlags).1 = v' at houtcome ⊢
    generalize (volumeOpenFileIoHandle L env v file accessFlags).2.2 = result at houtcome
    cases houtcome with
    | refused masterKeySize volumeSize =>
      intro header hheader
      exact absurd (hclosed.volumeHeader.symm.trans hheader) (by simp)
    | failed => exact fun header hheader => (by cases hheader)
    | opened hreach hunlock hresult hvector =>
      rename_i header v' result
      have hstep := internalVolumeUnlock_step (v := v.beforeUnlock file header) env.keys
        (some file.opened) hclosed.encryptionContext hunlock
      have hsound : KeysSound L v' := hstep.keysSound fun header' hheader' => by
        cases hheader'
        rfl
      intro header' hheader'
      exact ⟨(hsound header' hheader').1, (hsound header' hheader').2⟩
  · rw [volumeOpenFileIoHandle_of_open env hfile]
    exact h

/-- A call that meets the condition keeps the master key sound. -/
theorem step_keysSound {operation : Operation} {v : Volume} (hkeeps : KeepsKeys L operation v)
    (hv : Wellformed L v) (h : KeysSound L v) : KeysSound L (step L operation v).1 := by
  by_cases hquiet : operation.IsQuiet
  · have hframe := step_quiet (L := L) hquiet v
    intro header hheader
    rw [hframe.volumeHeader] at hheader
    have hkey : ¬ operation.SetsKey := fun hsets => by
      have hclosed := hv.closed (hkeeps.1 hsets)
      exact absurd (hclosed.volumeHeader.symm.trans hheader) (by simp)
    obtain ⟨hsameKey, hsameSize, -⟩ := hframe.masterKey hkey
    have hsound := h header hheader
    refine ⟨hsameSize.trans hsound.masterKeySize, fun context' hcontext' => ?_⟩
    have hafter := hframe.context
    rw [hcontext'] at hafter
    cases hcontext : v.encryptionContext with
    | none =>
      rw [hcontext] at hafter
      exact hafter.elim
    | some context =>
      rw [hcontext] at hafter
      obtain ⟨hvalid, created, keyed, hcreated, hkeyed, hsame⟩ := hsound.context context hcontext
      rw [Volume.headerKey, hsameKey]
      exact ⟨hvalid, created, keyed, hcreated, hkeyed, hsame.trans hafter.1⟩
  · cases operation with
    | openFileIoHandle env file accessFlags => exact volumeOpenFileIoHandle_keysSound hv h
    | unlock env => exact volumeUnlock_keysSound hv h env
    | close env =>
      simp only [step]
      rcases volumeClose_cases env v with ⟨-, hclose⟩ | ⟨-, result, -, hclose⟩
      · rw [hclose]
        exact h
      · rw [hclose]
        intro header hheader
        cases hheader
    | _ => exact (hquiet trivial).elim

/-! ## Sessions -/

theorem volumeAfter_keysSound {session : List Operation}
    (h : Admitted (step L) (KeepsKeys L) volumeInitialize session) :
    KeysSound L (volumeAfter L session) := by
  have hboth : Wellformed L (volumeAfter L session) ∧ KeysSound L (volumeAfter L session) :=
    stateAfter_invariant (P := fun v => Wellformed L v ∧ KeysSound L v)
      (fun operation v hkeeps hv => ⟨step_wellformed operation v hv.1,
        step_keysSound hkeeps hv.1 hv.2⟩)
      ⟨volumeInitialize_wellformed, fun header hheader => (by cases hheader)⟩ h
  exact hboth.2

/-- **Unlocking is sound.**  After every session in which keys are set on closed volumes only
and no open fails behind a successful unlocking: if the volume is unlocked, then it has a
header, the digest of the master key is the one of the header, and the encryption context was
keyed with these bytes of the master key. -/
theorem unlocked_of_keepsKeys {session : List Operation}
    (h : Admitted (step L) (KeepsKeys L) volumeInitialize session)
    (hunlocked : (volumeAfter L session).isLocked = false) :
    let v := volumeAfter L session
    ∃ header context, v.volumeHeader = some header ∧ v.encryptionContext = some context ∧
      passwordPbkdf2 L false (some (v.masterKey.bytes.take header.masterKeySize.toNat))
        header.hashingMethod header.masterKeySalt.bytes
        header.masterKeyNumberOfIterations.toNat 20
          = some header.masterKeyValidationHash.bytes ∧
      KeyedWith L header (v.masterKey.bytes.take header.masterKeySize.toNat) context := by
  intro v
  have hv : Wellformed L v := volumeAfter_wellformed session
  have hcontext : HasContext v := volumeAfter_hasContext (h.mono (step L) fun _ _ h => h.2)
  have hlock := hcontext.lockState hv
  obtain ⟨context, hsome⟩ := Option.ne_none_iff_exists'.1 (hlock.unlocked_iff.1 hunlocked)
  obtain ⟨header, hheader⟩ := Option.ne_none_iff_exists'.1 (hlock.present hunlocked).2.1
  obtain ⟨hvalid, hkeyed⟩ := (volumeAfter_keysSound h header hheader).context context hsome
  exact ⟨header, context, hheader, hsome, passwordPbkdf2_of_valid hvalid, hkeyed⟩

/-- The small volume is opened with its key. -/
theorem unlocked_of_keepsKeys_small :
    let v := volumeAfter smallLibraries smallSession
    ∃ header context, v.volumeHeader = some header ∧ v.encryptionContext = some context ∧
      passwordPbkdf2 smallLibraries false
        (some (v.masterKey.bytes.take header.masterKeySize.toNat)) header.hashingMethod
        header.masterKeySalt.bytes header.masterKeyNumberOfIterations.toNat 20
          = some header.masterKeyValidationHash.bytes ∧
      KeyedWith smallLibraries header (v.masterKey.bytes.take header.masterKeySize.toNat)
        context :=
  unlocked_of_keepsKeys
    (show Admitted (step smallLibraries) (KeepsKeys smallLibraries) volumeInitialize smallSession
      from ⟨⟨fun _ => rfl, trivial⟩, ⟨fun h => h.elim, fun h => absurd h.2.2.2.2.2 (by decide)⟩,
        trivial⟩) (by decide +kernel)

/-- A second image on which the key of the small volume does not validate. -/
def otherFile : FileIoHandle :=
  volumeFile { smallRecord with masterKeyValidationHash := .zero 20 } smallData length_smallData

/-- Behind an open that failed to create the sector data vector, the second image is opened with
a key that does not validate. -/
theorem smallFailingSession_otherFile :
    let session := smallFailingSession ++ [.openFileIoHandle {} otherFile 1, .isLocked]
    answers (step smallLibraries) volumeInitialize session
      = [.of 1, .of (-1), .of 1, .of 0] ∧
    let v := volumeAfter smallLibraries session
    v.isLocked = false ∧ v.encryptionContext = none ∧
      v.volumeHeader.map (fun header =>
        masterKeyIsValid smallLibraries false header (v.headerKey header)) = some (some false) := by
  decide +kernel

end Libluksde
