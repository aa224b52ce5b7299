import Libluksde.Session
import Libluksde.OpenSpec
import Libluksde.ReadStream

/-!
# The invariant of sessions

What holds of a volume object after every session, whatever calls it is made of and whatever
fails on the way: nothing of an open file is left on a closed volume, and on an open volume the
header is that of the file, the place of the data is the one that the header gives and the
cache holds sectors of the file only.

What does *not* hold after every session is that a volume without an open file is locked; the
sessions in which it does are the subject of a later file.
-/

namespace Libluksde

open Lib.Bytes Lib.Machine

variable {L : Libraries}

/-- What holds of an open volume. -/
structure Opened (L : Libraries) (v : Volume) (file : FileIoHandle) : Prop where
  isOpen : file.isOpen = true
  header : ∃ env header₀ header, HeaderOf L env file header₀ ∧ SameButSlots header₀ header ∧
    v.volumeHeader = some header
  dataOffset : ∀ header, v.volumeHeader = some header →
    v.ioHandle.encryptedVolumeOffset = header.encryptedVolumeStartSector * 512 ∧
      v.ioHandle.encryptedVolumeSize =
        file.image.length - header.encryptedVolumeStartSector * 512
  vector : ∃ vector, v.sectorDataVector = some vector ∧
    Serves L v.ioHandle.encryptedVolumeOffset file vector v.encryptionContext

/-- What holds of every volume. -/
structure Wellformed (L : Libraries) (v : Volume) : Prop where
  bytesPerSector : v.ioHandle.bytesPerSector = 512
  currentOffset : 0 ≤ v.currentOffset ∧ v.currentOffset < 2 ^ 63
  closed : v.fileIoHandle = none → Closed v
  opened : ∀ file, v.fileIoHandle = some file → Opened L v file
  unlocked : v.encryptionContext ≠ none → v.isLocked = false

/-- The start of the data lies inside the file. -/
theorem HeaderOf.place {env : HeaderEnvironment} {file : FileIoHandle}
    {header₀ header : VolumeHeader} (h : HeaderOf L env file header₀)
    (hs : SameButSlots header₀ header) :
    header.encryptedVolumeStartSector * 512 < file.image.length := by
  have hstart := h.startSector
  rw [hs]
  simp only
  omega

/-- An open volume can be read from. -/
theorem Wellformed.readable {v : Volume} {file : FileIoHandle} (h : Wellformed L v)
    (hfile : v.fileIoHandle = some file) : Readable L v file := by
  have hopened := h.opened file hfile
  obtain ⟨env, header₀, header, hheader, hs, hv⟩ := hopened.header
  obtain ⟨hoffset, hsize⟩ := hopened.dataOffset header hv
  have hplace := hheader.place hs
  have hfile := file.length_lt
  refine ⟨h.bytesPerSector, h.currentOffset, ?_, ?_, hopened.vector⟩
  · rw [hoffset]
    omega
  · rw [hsize]
    omega

/-! ## One call -/

/-- A change of keys and passwords. -/
theorem Wellformed.of_keys {v v' : Volume} (h : Wellformed L v)
    (hframe : v' = { v with
      masterKey := v'.masterKey
      masterKeySize := v'.masterKeySize
      volumeMasterKeyIsSet := v'.volumeMasterKeyIsSet
      userPassword := v'.userPassword
      userPasswordSize := v'.userPasswordSize
      userPasswordIsSet := v'.userPasswordIsSet }) : Wellformed L v' := by
  rw [hframe]
  refine ⟨h.bytesPerSector, h.currentOffset, fun hnone => ?_, fun file hfile => ?_, h.unlocked⟩
  · exact ⟨hnone, (h.closed hnone).2, (h.closed hnone).3, (h.closed hnone).4⟩
  · exact ⟨(h.opened file hfile).1, (h.opened file hfile).2, (h.opened file hfile).3,
      (h.opened file hfile).4⟩

theorem volumeSetKey_wellformed {v : Volume} (h : Wellformed L v) (key : List UInt8) :
    Wellformed L (volumeSetKey v key).1 := by
  unfold volumeSetKey
  split
  · exact h
  · exact h.of_keys rfl

theorem volumeSetKeys_wellformed {v : Volume} (h : Wellformed L v) (key : List UInt8) :
    Wellformed L (volumeSetKeys v key).1 := by
  unfold volumeSetKeys
  split
  · exact h
  · exact h.of_keys rfl

/-- The setting of a password, whatever the volume. -/
theorem setPassword_eq (env : PasswordEnvironment) (stream : Option (List UInt8)) :
    ∃ password size isSet result, ∀ v : Volume, setPassword env v stream =
      ({ v with
          userPassword := password
          userPasswordSize := size
          userPasswordIsSet := isSet || v.userPasswordIsSet }, result) := by
  have hfailed : ∃ password size isSet result, ∀ v : Volume,
      (({ v with userPassword := none, userPasswordSize := 0 }, -1) : Volume × ℤ) =
      ({ v with
          userPassword := password
          userPasswordSize := size
          userPasswordIsSet := isSet || v.userPasswordIsSet }, result) :=
    ⟨none, 0, false, -1, fun _ => rfl⟩
  unfold setPassword
  simp only
  cases stream with
  | none => exact hfailed
  | some stream =>
    simp only
    split
    · exact hfailed
    · split
      · exact hfailed
      · split
        · exact hfailed
        · exact ⟨_, _, true, 1, fun _ => rfl⟩

theorem setPassword_wellformed {v : Volume} (h : Wellformed L v) (env : PasswordEnvironment)
    (stream : Option (List UInt8)) : Wellformed L (setPassword env v stream).1 := by
  obtain ⟨password, size, isSet, result, heq⟩ := setPassword_eq env stream
  rw [heq]
  exact h.of_keys rfl

/-- A change of the offset or the abort flag. -/
theorem Wellformed.of_offset {v v' : Volume} (h : Wellformed L v)
    (hframe : v' = { v with
      currentOffset := v'.currentOffset
      ioHandle := { v.ioHandle with abort := v'.ioHandle.abort } })
    (hoffset : 0 ≤ v'.currentOffset ∧ v'.currentOffset < 2 ^ 63) : Wellformed L v' := by
  generalize v'.currentOffset = offset at hframe hoffset
  rw [hframe]
  refine ⟨h.bytesPerSector, hoffset, fun hnone => ?_, fun file hfile => ?_, h.unlocked⟩
  · exact ⟨hnone, (h.closed hnone).2, (h.closed hnone).3, (h.closed hnone).4⟩
  · exact ⟨(h.opened file hfile).1, (h.opened file hfile).2, (h.opened file hfile).3,
      (h.opened file hfile).4⟩

/-- What a seek does: it fails and changes nothing, or it sets the offset to what it returns. -/
theorem internalVolumeSeekOffset_cases (v : Volume) {offset : ℤ} (whence : ℕ)
    (hoffset : -2 ^ 63 ≤ offset ∧ offset < 2 ^ 63) :
    internalVolumeSeekOffset v offset whence = (v, -1) ∨
      v.isLocked = false ∧ ∃ o, 0 ≤ o ∧ o < 2 ^ 63 ∧
        internalVolumeSeekOffset v offset whence = ({ v with currentOffset := o }, o) := by
  unfold internalVolumeSeekOffset
  split
  · exact Or.inl rfl
  · rename_i hlocked
    split
    · exact Or.inl rfl
    · have hrange : ∀ o : ℤ, o < 2 ^ 63 →
          (if o < 0 then (v, (-1 : ℤ)) else ({ v with currentOffset := o }, o)) = (v, -1) ∨
          v.isLocked = false ∧ ∃ o', 0 ≤ o' ∧ o' < 2 ^ 63 ∧
            (if o < 0 then (v, (-1 : ℤ)) else ({ v with currentOffset := o }, o)) =
              ({ v with currentOffset := o' }, o') := by
        intro o ho
        by_cases hneg : o < 0
        · exact Or.inl (if_pos hneg)
        · exact Or.inr ⟨by simpa using hlocked, o, by omega, ho, if_neg hneg⟩
      apply hrange
      split
      · exact (off64_range _).2
      · split
        · exact (off64_range _).2
        · exact hoffset.2

theorem internalVolumeSeekOffset_wellformed {v : Volume} (h : Wellformed L v) {offset : ℤ}
    (whence : ℕ) (hoffset : -2 ^ 63 ≤ offset ∧ offset < 2 ^ 63) :
    Wellformed L (internalVolumeSeekOffset v offset whence).1 := by
  obtain heq | ⟨-, o, hl, hu, heq⟩ := internalVolumeSeekOffset_cases v whence hoffset
  · rw [heq]
    exact h
  · rw [heq]
    exact h.of_offset rfl ⟨hl, hu⟩

theorem internalVolumeReadBufferFromFileIoHandle_wellformed {v : Volume} (h : Wellformed L v)
    {file : FileIoHandle} (hfile : v.fileIoHandle = some file) (env : ReadEnvironment)
    (size : ℕ) :
    Wellformed L (internalVolumeReadBufferFromFileIoHandle L env v (some file) size).1 := by
  obtain ⟨-, hread⟩ := (h.readable hfile).read env size
  have hframe := internalVolumeReadBufferFromFileIoHandle_frame (L := L) env v (some file) size
  generalize (internalVolumeReadBufferFromFileIoHandle L env v (some file) size).1 = v'
    at hread hframe
  have hopened := h.opened file hfile
  have hsame : v'.encryptionContext ≠ none → v.encryptionContext ≠ none := by
    intro hne hnone
    obtain ⟨w, w', -, -, hrequest⟩ | ⟨-, hcontext⟩ := hframe.vector
    · exact hne (hrequest.context.eq_none_iff.2 hnone)
    · exact hne (hcontext.trans hnone)
  have hfile' : v'.fileIoHandle = some file := by rw [hframe.frame, hfile]
  have hheader : v'.volumeHeader = v.volumeHeader := by rw [hframe.frame]
  have hplace : v'.ioHandle.encryptedVolumeOffset = v.ioHandle.encryptedVolumeOffset ∧
      v'.ioHandle.encryptedVolumeSize = v.ioHandle.encryptedVolumeSize := by
    rw [hframe.frame]
    exact ⟨rfl, rfl⟩
  have hlocked : v'.isLocked = v.isLocked := by rw [hframe.frame]
  refine ⟨hread.bytesPerSector, hread.currentOffset, fun hnone => ?_, fun file' hf => ?_,
    fun hne => hlocked.trans (h.unlocked (hsame hne))⟩
  · rw [hfile'] at hnone
    cases hnone
  · rw [hfile'] at hf
    cases hf
    refine ⟨hopened.isOpen, ?_, ?_, hread.vector⟩
    · rw [hheader]
      exact hopened.header
    · rw [hheader, hplace.1, hplace.2]
      exact hopened.dataOffset

theorem volumeClose_wellformed {v : Volume} (h : Wellformed L v) (env : CloseEnvironment) :
    Wellformed L (volumeClose env v).1 := by
  rcases volumeClose_cases env v with ⟨-, hclose⟩ | ⟨-, result, -, hclose⟩
  · rw [hclose]
    exact h
  · rw [hclose]
    have hoffset : (0 : ℤ) < 2 ^ 63 := by norm_num
    exact ⟨rfl, ⟨le_refl 0, hoffset⟩, fun _ => ⟨rfl, rfl, rfl, rfl⟩,
      fun file hf => (by cases hf), fun hne => absurd rfl hne⟩

/-- An unlock makes an attempt on a volume that is locked, and leaves one that is not as it is. -/
theorem volumeUnlock_cases {v : Volume} (h : Wellformed L v) (env : KeysEnvironment) :
    (v.isLocked = false ∧ volumeUnlock L env v = (v, 1)) ∨
    (v.isLocked = true ∧ v.encryptionContext = none ∧
      ∃ v' result, volumeUnlock L env v = (v', result) ∧ UnlockStep L v v' result) := by
  rw [volumeUnlock]
  cases hlocked : v.isLocked with
  | false => exact Or.inl ⟨rfl, rfl⟩
  | true =>
    have hcontext : v.encryptionContext = none := by
      by_contra hne
      rw [h.unlocked hne] at hlocked
      cases hlocked
    rw [if_pos rfl]
    exact Or.inr ⟨rfl, hcontext, _, _, rfl, internalVolumeUnlock_step env _ hcontext rfl⟩

theorem volumeUnlock_wellformed {v : Volume} (h : Wellformed L v) (env : KeysEnvironment) :
    Wellformed L (volumeUnlock L env v).1 := by
  rcases volumeUnlock_cases h env with
    ⟨-, hunlock⟩ | ⟨hlocked, hcontext, v', result, hunlock, hstep⟩
  · rw [hunlock]
    exact h
  · rw [hunlock]
    have hframe := hstep.frame
    have hfile : v'.fileIoHandle = v.fileIoHandle := by rw [hframe]
    have hio : v'.ioHandle = v.ioHandle := by rw [hframe]
    have hvector : v'.sectorDataVector = v.sectorDataVector := by rw [hframe]
    have hoffset : v'.currentOffset = v.currentOffset := by rw [hframe]
    refine ⟨by rw [hio]; exact h.bytesPerSector, by rw [hoffset]; exact h.currentOffset,
      fun hnone => ?_, fun file hf => ?_, fun hne => (hstep.isLocked hne).2⟩
    · have hclosed := h.closed (hfile.symm.trans hnone)
      exact ⟨hnone, hstep.noHeader hclosed.volumeHeader,
        hvector.trans hclosed.sectorDataVector, hstep.context_none hclosed.volumeHeader⟩
    · have hopened := h.opened file (hfile.symm.trans hf)
      obtain ⟨env', header₀, header, hheader, hs, hv⟩ := hopened.header
      obtain ⟨header', hv', hs'⟩ := hstep.header header hv
      obtain ⟨vector, hvec, hserves⟩ := hopened.vector
      refine ⟨hopened.isOpen, ⟨env', header₀, header', hheader, hs.trans hs', hv'⟩,
        fun header'' hv'' => ?_, ⟨vector, hvector.trans hvec, ?_⟩⟩
      · rw [hv'] at hv''
        cases hv''
        rw [hio, hs']
        exact hopened.dataOffset header hv
      · -- nothing was cached while there was no encryption context
        rw [hcontext] at hserves
        rw [hio]
        exact hserves.of_none _

/-- The place of the data that the header gives. -/
theorem Volume.beforeUnlock_ioHandle {v : Volume} (file : FileIoHandle) (header : VolumeHeader)
    (hbytes : v.ioHandle.bytesPerSector = 512) :
    (v.beforeUnlock file header).ioHandle = ⟨512, file.image.length,
      header.encryptedVolumeStartSector * 512,
      file.image.length - header.encryptedVolumeStartSector * 512, v.ioHandle.abort⟩ := by
  simp only [Volume.beforeUnlock, Volume.withHeader, Volume.withVolumeSize, hbytes]
  rfl

theorem volumeOpenFileIoHandle_wellformed {v : Volume} (h : Wellformed L v)
    (env : OpenEnvironment) (file : FileIoHandle) (accessFlags : ℕ) :
    Wellformed L (volumeOpenFileIoHandle L env v file accessFlags).1 := by
  by_cases hfile : v.fileIoHandle = none
  · have hclosed := h.closed hfile
    have houtcome := volumeOpenFileIoHandle_outcome (L := L) env h.closed h.bytesPerSector file
      accessFlags
    generalize (volumeOpenFileIoHandle L env v file accessFlags).1 = v' at houtcome ⊢
    generalize (volumeOpenFileIoHandle L env v file accessFlags).2.2 = result at houtcome
    cases houtcome with
    | refused masterKeySize volumeSize =>
      exact ⟨h.bytesPerSector, h.currentOffset, fun _ => ⟨hfile, hclosed.2, hclosed.3, hclosed.4⟩,
        fun file' hf => absurd (hfile.symm.trans hf) (by simp), h.unlocked⟩
    | failed hreach hunlock hfails =>
      rename_i header v' result
      have hstep := internalVolumeUnlock_step (v := v.beforeUnlock file header) env.keys
        (some file.opened) hclosed.encryptionContext hunlock
      have hnone : v'.fileIoHandle = none := by
        rw [hstep.frame]
        exact hfile
      refine ⟨?_, ?_, fun _ => ⟨hnone, rfl, rfl, rfl⟩,
        fun file' hf => absurd (hnone.symm.trans hf) (by simp), fun hne => absurd rfl hne⟩
      · show v'.ioHandle.bytesPerSector = 512
        rw [hstep.frame]
        exact h.bytesPerSector
      · show 0 ≤ v'.currentOffset ∧ v'.currentOffset < 2 ^ 63
        rw [hstep.frame]
        exact h.currentOffset
    | opened hreach hunlock hresult hvector =>
      rename_i header v' result
      have hstep := internalVolumeUnlock_step (v := v.beforeUnlock file header) env.keys
        (some file.opened) hclosed.encryptionContext hunlock
      have hio : v'.ioHandle = (v.beforeUnlock file header).ioHandle := by rw [hstep.frame]
      rw [v.beforeUnlock_ioHandle file header h.bytesPerSector] at hio
      obtain ⟨header', hv', hs⟩ := hstep.header header rfl
      refine ⟨?_, ?_, fun hnone => (by cases hnone), fun file' hf => ?_,
        fun hne => (hstep.isLocked hne).2⟩
      · show v'.ioHandle.bytesPerSector = 512
        rw [hio]
      · show 0 ≤ v'.currentOffset ∧ v'.currentOffset < 2 ^ 63
        rw [hstep.frame]
        exact h.currentOffset
      · cases hf
        have hplace : v'.ioHandle.encryptedVolumeOffset = header.encryptedVolumeStartSector * 512 ∧
            v'.ioHandle.encryptedVolumeSize =
              file.image.length - header.encryptedVolumeStartSector * 512 := by
          rw [hio]
          exact ⟨rfl, rfl⟩
        refine ⟨rfl, ⟨env.header, header, header', hreach.headerOf, hs, hv'⟩, fun header'' hv'' => ?_,
          ⟨_, rfl, ?_⟩⟩
        · have hsome : v'.volumeHeader = some header'' := hv''
          rw [hv'] at hsome
          cases hsome
          rw [hs]
          exact hplace
        · refine ⟨rfl, hplace.1.symm, fun _ => rfl, ?_, fun _ => Lib.Memo.Faithful.nil _⟩
          intro entry hentry
          cases hentry
  · rw [volumeOpenFileIoHandle_of_open env hfile]
    exact h

/-! ## Sessions -/

theorem volumeInitialize_wellformed : Wellformed L volumeInitialize :=
  ⟨rfl, ⟨le_refl 0, by norm_num [volumeInitialize]⟩, fun _ => ⟨rfl, rfl, rfl, rfl⟩,
    fun file hf => (by cases hf), fun hne => absurd rfl hne⟩

theorem step_wellformed (operation : Operation) (v : Volume) (h : Wellformed L v) :
    Wellformed L (step L operation v).1 := by
  cases operation with
  | setKey masterKey => exact volumeSetKey_wellformed h masterKey
  | setKeys masterKey => exact volumeSetKeys_wellformed h masterKey
  | setUtf8Password env string => exact setPassword_wellformed h env _
  | setUtf16Password env string => exact setPassword_wellformed h env _
  | openFileIoHandle env file accessFlags =>
    exact volumeOpenFileIoHandle_wellformed h env file accessFlags
  | unlock env => exact volumeUnlock_wellformed h env
  | isLocked => exact h
  | seekOffset offset whence =>
    simp only [step, volumeSeekOffset]
    split
    · exact h
    · exact internalVolumeSeekOffset_wellformed h whence offset.2
  | readBuffer env bufferSize =>
    simp only [step, volumeReadBuffer]
    split
    · exact h
    · rename_i file hfile
      exact internalVolumeReadBufferFromFileIoHandle_wellformed h hfile env bufferSize
  | readBufferAtOffset env bufferSize offset =>
    simp only [step, volumeReadBufferAtOffset]
    split
    · exact h
    · rename_i file hfile
      obtain heq | ⟨-, o, hl, hu, heq⟩ := internalVolumeSeekOffset_cases v seekSet offset.2
      · rw [heq]
        exact h
      · rw [heq]
        have hnot : ¬ o = -1 := by omega
        simp only [if_neg hnot]
        have hv : Wellformed L { v with currentOffset := o } := h.of_offset rfl ⟨hl, hu⟩
        exact internalVolumeReadBufferFromFileIoHandle_wellformed hv hfile env bufferSize
  | signalAbort => exact h.of_offset rfl h.currentOffset
  | close env => exact volumeClose_wellformed h env

/-- What holds of the volume after every session. -/
theorem volumeAfter_wellformed (session : List Operation) : Wellformed L (volumeAfter L session) :=
  stateAfter_invariant_of_all (fun operation v h => step_wellformed operation v h)
    volumeInitialize_wellformed session

/-- After a session that ends with an open that succeeds, the volume has the file handle. -/
theorem volumeAfter_fileIoHandle (session : List Operation) {env : OpenEnvironment}
    {file : FileIoHandle} {accessFlags : ℕ}
    (h : (volumeOpenFileIoHandle L env (volumeAfter L session) file accessFlags).2.2 = 1) :
    (volumeAfter L (session ++ [.openFileIoHandle env file accessFlags])).fileIoHandle
      = some file.opened := by
  rw [volumeAfter, stateAfter_append, stateAfter_cons, stateAfter_nil]
  exact volumeOpenFileIoHandle_fileIoHandle h

/-- The small volume is open after its session. -/
theorem smallSession_fileIoHandle :
    (volumeAfter smallLibraries smallSession).fileIoHandle = some smallFile :=
  volumeAfter_fileIoHandle [.setKey smallKey] (by decide +kernel)

/-- The header that is read from a file with an encoded record. -/
theorem headerOf_volumeFile {r : HeaderRecord} {rest : List UInt8} (h : rest.length < 2 ^ 62)
    {identifier : Buffer 16}
    (hidentifier : L.identifierFromUtf8String r.volumeIdentifier.bytes = some identifier)
    (hmks : r.masterKeySize.toNat ≠ 0 ∧ r.masterKeySize.toNat ≤ 64)
    (hstart : r.encryptedVolumeStartSector.toNat < (volumeFile r rest h).image.length / 512) :
    HeaderOf L {} (volumeFile r rest h) (r.volumeHeader identifier) := by
  have hlength : (encodeHeader r ++ List.replicate 3504 0).length = 4096 := by
    rw [List.length_append, length_encodeHeader, List.length_replicate]
  have hread : (volumeFile r rest h).readBufferAtOffset 4096 0 =
      some (encodeHeader r ++ List.replicate 3504 0) := by
    rw [FileIoHandle.readBufferAtOffset, if_pos ⟨rfl, le_rfl⟩, volumeFile, Int.toNat_zero,
      slice_zero_append hlength]
  refine ⟨?_, hmks, hstart⟩
  rw [volumeHeaderReadFileIoHandle, if_neg (by decide), hread]
  simp only
  rw [if_neg (by rw [hlength, not_not])]
  exact volumeHeaderReadData_encode L r hidentifier ⟨by decide, by decide⟩

end Libluksde
