import Libluksde.AlikeVolumes

/-!
# Unlocking once more

The key slot loop replaces the start sector of a key slot in the volume header by an offset in
bytes, so that the next attempt on the same volume reads the key material from another place.
A failed attempt is harmless where it does not come to that: where it derives no user key for a
key slot in use that does not start at sector zero.  After harmless attempts the volume cannot
be told from one on which the file was just opened.
-/

namespace Libluksde

open Lib.Bytes Lib.Machine

variable {L : Libraries}

/-! ## Rounds that leave the key slots as they are -/

/-- A round that derives the user key of a key slot in use. -/
def DerivesUserKey (L : Libraries) (env : SlotEnvironment) (header : VolumeHeader)
    (masterKeySize : ℕ) (password : Option (List UInt8)) (keySlot : KeySlot) : Prop :=
  env.entryFails = false ∧ keySlot.state = keySlotActive ∧
    passwordPbkdf2 L env.passwordFails password header.hashingMethod keySlot.salt.bytes
      keySlot.numberOfIterations.toNat masterKeySize ≠ none

/-- Sector zero is at offset zero. -/
theorem KeySlot.inBytes_eq {keySlot : KeySlot} (h : keySlot.keyMaterialOffset = 0)
    (bytesPerSector : ℕ) : keySlot.inBytes bytesPerSector = keySlot := by
  unfold KeySlot.inBytes
  rw [h, zero_mul, off64_eq_self (by norm_num) (by norm_num), ← h]

/-- A round leaves the key slots as they are unless it derives the user key of one that does not
start at sector zero. -/
theorem tryKeySlot_keySlots {env : SlotEnvironment} {header : VolumeHeader}
    {bytesPerSector masterKeySize i : ℕ} {password : Option (List UInt8)}
    {file : Option FileIoHandle} {s : SlotLoop}
    (h : ∀ keySlot, s.keySlots[i]? = some keySlot → keySlot.keyMaterialOffset ≠ 0 →
      ¬ DerivesUserKey L env header masterKeySize password keySlot) :
    (tryKeySlot L env header bytesPerSector masterKeySize password file i s).1.keySlots
      = s.keySlots := by
  rcases tryKeySlot_keySlots_cases (L := L) env header bytesPerSector masterKeySize password file i
    s with hsame | ⟨keySlot, userKey, hentry, hslot, hactive, hkey, hset⟩
  · exact hsame
  · have hzero : keySlot.keyMaterialOffset = 0 := by
      by_contra hne
      exact h keySlot hslot hne ⟨hentry, hactive, by rw [hkey]; simp⟩
    obtain ⟨hlt, rfl⟩ := List.getElem?_eq_some_iff.1 hslot
    rw [hset, KeySlot.inBytes_eq hzero]
    exact List.set_getElem_self hlt

/-- A round that does derive the user key of such a key slot changes it. -/
theorem tryKeySlot_changes {env : SlotEnvironment} {header : VolumeHeader} {masterKeySize i : ℕ}
    {password : Option (List UInt8)} {file : Option FileIoHandle} {s : SlotLoop}
    {keySlot : KeySlot} (hslot : s.keySlots[i]? = some keySlot)
    (hoffset : 0 < keySlot.keyMaterialOffset ∧ keySlot.keyMaterialOffset < 2 ^ 32)
    (h : DerivesUserKey L env header masterKeySize password keySlot) :
    (tryKeySlot L env header 512 masterKeySize password file i s).1.keySlots ≠ s.keySlots := by
  obtain ⟨hentry, hactive, hkey⟩ := h
  obtain ⟨userKey, hkey⟩ := Option.ne_none_iff_exists'.1 hkey
  have hset : (tryKeySlot L env header 512 masterKeySize password file i s).1.keySlots =
      s.keySlots.set i (keySlot.inBytes 512) := by
    unfold tryKeySlot
    simp only [hentry, Bool.false_eq_true, if_false, hslot, hactive, ne_eq, not_true_eq_false,
      hkey]
    split
    · rfl
    · rw [mergeSplitMasterKey_keySlots]
  intro hsame
  have hi := (List.getElem?_eq_some_iff.1 hslot).1
  have hinBytes : some (keySlot.inBytes 512) = some keySlot := by
    rw [← hslot, ← hsame, hset, List.getElem?_set_self hi]
  have heq := congrArg KeySlot.keyMaterialOffset (Option.some.inj hinBytes)
  simp only [KeySlot.inBytes] at heq
  rw [off64_eq_self (by omega) (by omega)] at heq
  omega

/-- The rounds of a loop leave the key slots as they are. -/
theorem tryKeySlots_keySlots {env : KeysEnvironment} {header : VolumeHeader}
    {bytesPerSector masterKeySize n i : ℕ} {password : Option (List UInt8)}
    {file : Option FileIoHandle} {s : SlotLoop}
    (h : ∀ m < n,
      (tryKeySlots L env header bytesPerSector masterKeySize password file m i s).2 = .next →
      ∀ keySlot, s.keySlots[i + m]? = some keySlot → keySlot.keyMaterialOffset ≠ 0 →
      ¬ DerivesUserKey L (env.slot (i + m)) header masterKeySize password keySlot) :
    (tryKeySlots L env header bytesPerSector masterKeySize password file n i s).1.keySlots
      = s.keySlots := by
  induction n generalizing i s with
  | zero => rfl
  | succ n ih =>
    have hround : (tryKeySlot L (env.slot i) header bytesPerSector masterKeySize password file i
        s).1.keySlots = s.keySlots := tryKeySlot_keySlots (h 0 (by omega) rfl)
    rw [tryKeySlots]
    split
    · rename_i s' hnext
      rw [hnext] at hround
      simp only at hround
      rw [ih fun m hm hreached => ?_, hround]
      have hm' := h (m + 1) (by omega)
      rw [tryKeySlots, hnext] at hm'
      rw [hround, show i + 1 + m = i + (m + 1) by omega]
      exact hm' hreached
    · rename_i s' result hne hend
      rw [hend] at hround
      exact hround

/-! ## Harmless attempts -/

/-- The first rounds of the loop of an attempt. -/
def firstKeySlots (L : Libraries) (env : KeysEnvironment) (volume : Volume) (header : VolumeHeader)
    (file : Option FileIoHandle) (n : ℕ) : SlotLoop × SlotResult :=
  tryKeySlots L env header volume.ioHandle.bytesPerSector volume.masterKeySize volume.password
    file n 0 ⟨header.keySlotsArray, volume.masterKey, 0⟩

/-- The condition on an attempt with a password: no round it comes to derives the user key of a
key slot in use that does not start at sector zero, and the master key is not found. -/
structure Harmless (L : Libraries) (env : KeysEnvironment) (volume : Volume)
    (header : VolumeHeader) (file : Option FileIoHandle) : Prop where
  keySlots : ∀ i < 8, (firstKeySlots L env volume header file i).2 = .next →
    ∀ keySlot, header.keySlotsArray[i]? = some keySlot → keySlot.keyMaterialOffset ≠ 0 →
      ¬ DerivesUserKey L (env.slot i) header volume.masterKeySize volume.password keySlot
  notFound : (firstKeySlots L env volume header file 8).2 ≠ .found

/-- What a harmless loop leaves of the key slots. -/
theorem Harmless.tryAllKeySlots {env : KeysEnvironment} {v : Volume} {header : VolumeHeader}
    {file : Option FileIoHandle} (h : Harmless L env v header file) :
    (tryAllKeySlots L env v header file).1.keySlots = header.keySlotsArray ∧
      (tryAllKeySlots L env v header file).2 ≠ .found := by
  refine ⟨tryKeySlots_keySlots fun m hm hreached => ?_, h.notFound⟩
  rw [Nat.zero_add]
  exact h.keySlots m hm hreached

/-- What a harmless attempt without a key leaves of the header and of the flag of the master
key. -/
theorem readKeysFromSlots_harmless {env : KeysEnvironment} {v : Volume} {header : VolumeHeader}
    {file : Option FileIoHandle} (hheader : v.volumeHeader = some header)
    (hset : v.volumeMasterKeyIsSet = false)
    (hharmless : v.userPasswordIsSet = true → Harmless L env v header file) :
    (readKeysFromSlots L env v header file).1.volumeHeader = some header ∧
      (readKeysFromSlots L env v header file).1.volumeMasterKeyIsSet = false := by
  unfold readKeysFromSlots
  split
  · rename_i htry
    obtain ⟨hslots, hnotFound⟩ := (hharmless htry.2).tryAllKeySlots
    have hafter : ∀ s result, tryAllKeySlots L env v header file = (s, result) →
        (v.afterSlots header s result).volumeHeader = some header ∧
          (v.afterSlots header s result).volumeMasterKeyIsSet = false := by
      intro s result heq
      rw [heq] at hslots hnotFound
      simp only at hslots hnotFound
      refine ⟨?_, by simpa [Volume.afterSlots] using hnotFound⟩
      simp only [Volume.afterSlots, hslots]
    split
    · rename_i s heq
      exact hafter s .error heq
    · rename_i heq
      rw [createVolumeContext_frame]
      exact hafter _ _ heq
  · rw [createVolumeContext_frame]
    exact ⟨hheader, hset⟩

/-- A harmless attempt that fails leaves the header as it is and no key set.  (One with a key
that was set is only looked at when it returns 0.) -/
theorem internalVolumeUnlock_harmless {env : KeysEnvironment} {v v' : Volume}
    {header : VolumeHeader} {file : Option FileIoHandle} {result : ℤ}
    (hbytes : v.ioHandle.bytesPerSector ≠ 0) (hheader : v.volumeHeader = some header)
    (hcontext : v.encryptionContext = none)
    (hharmless : v.userPasswordIsSet = true → Harmless L env v header file)
    (h : internalVolumeUnlock L env v file = (v', result))
    (hset : v.volumeMasterKeyIsSet = false ∨ result = 0) :
    v'.volumeHeader = some header ∧ v'.volumeMasterKeyIsSet = false := by
  rw [internalVolumeUnlock_eq hcontext, internalVolumeOpenReadKeys_eq env file hbytes hheader] at h
  simp only [Prod.mk.injEq] at h
  obtain ⟨rfl, hresult⟩ := h
  show (_ : Volume).volumeHeader = _ ∧ (_ : Volume).volumeMasterKeyIsSet = _
  cases hpreset : presetKeyIsValid L env v header with
  | none =>
    rw [hpreset] at hresult
    obtain hno | hzero := hset
    · exact ⟨hheader, hno⟩
    · rw [← hresult] at hzero
      cases hzero
  | some isSet =>
    cases isSet with
    | false =>
      exact readKeysFromSlots_harmless (v := { v with volumeMasterKeyIsSet := false }) hheader rfl
        fun hset => ⟨(hharmless hset).1, (hharmless hset).2⟩
    | true =>
      -- a key that validates does not lead to the result 0
      obtain ⟨hyes, -⟩ := presetKeyIsValid_true hpreset
      have hzero : result = 0 := hset.resolve_left (by simp [hyes])
      rw [hpreset] at hresult
      have hne := createVolumeContext_ne_zero (L := L) env header
        (v := { v with volumeMasterKeyIsSet := true }) rfl hcontext
      refine absurd ?_ hne
      rw [← hzero, ← hresult]
      rfl

/-! ## Failed attempts -/

/-- The calls that set a password. -/
def Operation.SetsPassword : Operation → Prop
  | .setUtf8Password _ _ | .setUtf16Password _ _ => True
  | _ => False

/-- The condition on a call: an attempt to unlock in it is harmless. -/
def KeepsSlots (L : Libraries) : Operation → Volume → Prop
  | .openFileIoHandle env file accessFlags, v =>
    ∀ header, ReachesUnlock L env v file accessFlags header → v.userPasswordIsSet = true →
      Harmless L env.keys (v.beforeUnlock file header) header (some file.opened)
  | .unlock env, v =>
    ∀ header, v.volumeHeader = some header → v.userPasswordIsSet = true →
      Harmless L env v header v.fileIoHandle
  | _, _ => True

/-- The calls of a sequence of failed attempts: passwords are set, and unlocking fails. -/
def FailedAttempt (L : Libraries) : Operation → Volume → Prop
  | .setUtf8Password _ _, _ | .setUtf16Password _ _, _ => True
  | .unlock env, v => (step L (.unlock env) v).2 ≠ .of 1
  | _, _ => False

/-- A locked volume on which a file was opened, with the header as it was decoded. -/
structure AsOpened (file : FileIoHandle) (header : VolumeHeader) (v : Volume) : Prop where
  fileIoHandle : v.fileIoHandle = some file
  volumeHeader : v.volumeHeader = some header
  masterKeySize : v.masterKeySize = header.masterKeySize.toNat
  isSet : v.volumeMasterKeyIsSet = false
  encryptionContext : v.encryptionContext = none
  bytesPerSector : v.ioHandle.bytesPerSector = 512
  isLocked : v.isLocked = true

/-- A change of the password. -/
theorem AsOpened.setPassword {file : FileIoHandle} {header : VolumeHeader} {v : Volume}
    (h : AsOpened file header v) (env : PasswordEnvironment) (stream : Option (List UInt8)) :
    AsOpened file header (setPassword env v stream).1 := by
  obtain ⟨password, size, isSet, result, heq⟩ := setPassword_eq env stream
  rw [heq]
  exact ⟨h.1, h.2, h.3, h.4, h.5, h.6, h.7⟩

theorem AsOpened.unlock {file : FileIoHandle} {header : VolumeHeader} {v : Volume}
    (h : AsOpened file header v) {env : KeysEnvironment}
    (hharmless : KeepsSlots L (.unlock env) v) (hfails : (volumeUnlock L env v).2 ≠ 1) :
    AsOpened file header (volumeUnlock L env v).1 := by
  unfold volumeUnlock at hfails ⊢
  rw [if_pos h.isLocked] at hfails ⊢
  cases hunlock : internalVolumeUnlock L env v v.fileIoHandle with
  | mk v' result =>
    rw [hunlock] at hfails
    have hstep := internalVolumeUnlock_step env v.fileIoHandle h.encryptionContext hunlock
    have hframe := hstep.frame
    have hbytes : v.ioHandle.bytesPerSector ≠ 0 := by
      rw [h.bytesPerSector]
      decide
    obtain ⟨hheader, hset⟩ := internalVolumeUnlock_harmless hbytes h.volumeHeader
      h.encryptionContext (hharmless header h.volumeHeader) hunlock (Or.inl h.isSet)
    obtain ⟨hcontext, hlocked⟩ := hstep.locked hfails
    refine ⟨?_, hheader, ?_, hset, hcontext, ?_, hlocked.trans h.isLocked⟩
    · simp only
      rw [hframe]
      exact h.fileIoHandle
    · simp only
      rw [hframe]
      exact h.masterKeySize
    · simp only
      rw [hframe]
      exact h.bytesPerSector

/-- A failed and harmless attempt leaves the volume as it was opened. -/
theorem step_asOpened {file : FileIoHandle} {header : VolumeHeader} {operation : Operation}
    {v : Volume} (h : FailedAttempt L operation v ∧ KeepsSlots L operation v)
    (hv : AsOpened file header v) : AsOpened file header (step L operation v).1 := by
  obtain ⟨hfailed, hharmless⟩ := h
  cases operation with
  | setUtf8Password env string => exact hv.setPassword env _
  | setUtf16Password env string => exact hv.setPassword env _
  | unlock env => exact hv.unlock hharmless fun hone => hfailed (congrArg Answer.of hone)
  | _ => exact hfailed.elim

/-- A file that is opened but not unlocked, in a harmless attempt. -/
theorem volumeOpenFileIoHandle_asOpened {env : OpenEnvironment} {v : Volume}
    (hv : Wellformed L v) {file : FileIoHandle} {accessFlags : ℕ}
    (hharmless : KeepsSlots L (.openFileIoHandle env file accessFlags) v)
    (hopen : (volumeOpenFileIoHandle L env v file accessFlags).2.2 = 1)
    (hlocked : (volumeOpenFileIoHandle L env v file accessFlags).1.isLocked = true) :
    ∃ header, ReachesUnlock L env v file accessFlags header ∧
      AsOpened file.opened header (volumeOpenFileIoHandle L env v file accessFlags).1 := by
  have houtcome := volumeOpenFileIoHandle_outcome (L := L) env hv.closed hv.bytesPerSector file
    accessFlags
  generalize (volumeOpenFileIoHandle L env v file accessFlags).1 = v' at houtcome hlocked ⊢
  rw [hopen] at houtcome
  cases houtcome with
  | opened hreach hunlock hresult hvector =>
    rename_i header w result
    have hcontext : (v.beforeUnlock file header).encryptionContext = none :=
      (hv.closed hreach.fileIoHandle).encryptionContext
    have hstep := internalVolumeUnlock_step env.keys (some file.opened) hcontext hunlock
    have hframe := hstep.frame
    have hlocked' : w.isLocked = true := hlocked
    have hzero : result = 0 := by
      rcases hstep.range with hno | hzero | hone
      · exact absurd hno hresult
      · exact hzero
      · rw [(hstep.unlocked hone).2] at hlocked'
        cases hlocked'
    have hbytes : (v.beforeUnlock file header).ioHandle.bytesPerSector = 512 := hv.bytesPerSector
    obtain ⟨hheader, hset⟩ := internalVolumeUnlock_harmless (by rw [hbytes]; decide) rfl hcontext
      (hharmless header hreach) hunlock (Or.inr hzero)
    refine ⟨header, hreach, rfl, hheader, ?_, hset, (hstep.locked (by omega)).1, ?_, hlocked⟩
    · show w.masterKeySize = header.masterKeySize.toNat
      rw [hframe]
      rfl
    · show w.ioHandle.bytesPerSector = 512
      rw [hframe]
      exact hbytes

/-! ## The next attempt -/

/-- A password that is set with success is the same on every volume. -/
theorem setPassword_one {env : PasswordEnvironment} {stream : Option (List UInt8)} (v₀ : Volume)
    (h : (setPassword env v₀ stream).2 = 1) :
    ∃ password size, ∀ v : Volume, setPassword env v stream =
      ({ v with
          userPassword := password
          userPasswordSize := size
          userPasswordIsSet := true }, 1) := by
  cases stream with
  | none => cases h
  | some stream =>
    simp only [setPassword] at h ⊢
    split_ifs at h with hsize hallocation hcopy
    · cases h
    · cases h
    · cases h
    · refine ⟨some (stream ++ [0]), stream.length + 1, fun v => ?_⟩
      rw [if_neg hsize, if_neg hallocation, if_neg hcopy]

theorem step_setsPassword {operation : Operation} (hsets : operation.SetsPassword) {v₀ : Volume}
    (h : (step L operation v₀).2 = .of 1) :
    ∃ password size, ∀ v : Volume, (step L operation v).1 =
      { v with
        userPassword := password
        userPasswordSize := size
        userPasswordIsSet := true } := by
  cases operation with
  | setUtf8Password env string =>
    obtain ⟨password, size, heq⟩ := setPassword_one v₀ (congrArg Answer.value h)
    exact ⟨password, size, fun v => congrArg Prod.fst (heq v)⟩
  | setUtf16Password env string =>
    obtain ⟨password, size, heq⟩ := setPassword_one v₀ (congrArg Answer.value h)
    exact ⟨password, size, fun v => congrArg Prod.fst (heq v)⟩
  | _ => exact hsets.elim

/-- An attempt to unlock and an open come to the same: both fail, both leave the volume locked, or
both unlock it with the same master key. -/
def SameUnlock (r r' : Volume × Answer) : Prop :=
  (r.2 = .of (-1) ∧ r'.2 = .of (-1)) ∨
  (r.2 = .of 0 ∧ r'.2 = .of 1 ∧ r'.1.isLocked = true) ∨
  (r.2 = .of 1 ∧ r'.2 = .of 1 ∧ r'.1.isLocked = false ∧
    r'.1.masterKeySize = r.1.masterKeySize ∧
    r'.1.masterKey.bytes.take r.1.masterKeySize = r.1.masterKey.bytes.take r.1.masterKeySize)

/-- Where the volume is unlocked, the master key is flagged as set. -/
theorem internalVolumeUnlock_isSet (env : KeysEnvironment) {v : Volume} {header : VolumeHeader}
    (file : Option FileIoHandle) (hbytes : v.ioHandle.bytesPerSector ≠ 0)
    (hheader : v.volumeHeader = some header) (hcontext : v.encryptionContext = none)
    (hone : (internalVolumeUnlock L env v file).2 = 1) :
    (internalVolumeUnlock L env v file).1.volumeMasterKeyIsSet = true := by
  rw [internalVolumeUnlock_eq hcontext, internalVolumeOpenReadKeys_eq env file hbytes hheader]
    at hone ⊢
  simp only at hone ⊢
  have hcreate : ∀ w : Volume, w.encryptionContext = none →
      (createVolumeContext L env w header).2 = 1 →
      (createVolumeContext L env w header).1.volumeMasterKeyIsSet = true := by
    intro w hw hyes
    have hset := createVolumeContext_one hw hyes
    rw [createVolumeContext_frame]
    exact hset
  cases hpreset : presetKeyIsValid L env v header with
  | none =>
    rw [hpreset] at hone
    cases hone
  | some isSet =>
    rw [hpreset] at hone
    simp only [readKeysFromSlots] at hone ⊢
    split at hone
    · rename_i htry
      rw [if_pos htry]
      split at hone
      · cases hone
      · exact hcreate _ hcontext hone
    · rename_i htry
      rw [if_neg htry]
      exact hcreate _ hcontext hone

/-- The header that an open reads does not depend on the closed volume. -/
theorem ReachesUnlock.read_other {env : OpenEnvironment} {v w : Volume} {file : FileIoHandle}
    {accessFlags : ℕ} {header : VolumeHeader} (h : ReachesUnlock L env v file accessFlags header)
    (hv : Wellformed L v) (hw : Wellformed L w) (hclosed : w.fileIoHandle = none) :
    openReadHeader L env w file.opened = (w.beforeUnlock file header, true) := by
  have hvclosed := hv.closed h.fileIoHandle
  obtain hrefused | ⟨header', -, hspec⟩ := openReadHeader_spec (L := L) env file.opened
  · obtain ⟨n, m, hread⟩ := hrefused v hvclosed hv.bytesPerSector
    rw [h.read] at hread
    exact absurd (congrArg Prod.snd hread) (by simp)
  · have hread := hspec v hvclosed hv.bytesPerSector
    rw [h.read] at hread
    have hheader : some header = some header' :=
      congrArg (fun r : Volume × Bool => r.1.volumeHeader) hread
    rw [Option.some.inj hheader]
    exact hspec w (hw.closed hclosed) hw.bytesPerSector

/-- An attempt on a volume as it was opened comes to the same as an open of a closed volume that
finds the same header. -/
theorem sameUnlock_of_asOpened {file : FileIoHandle} {header : VolumeHeader} {v w : Volume}
    (hv : AsOpened file.opened header v) (hw : Wellformed L w)
    (hwset : w.volumeMasterKeyIsSet = false) (hwlocked : w.isLocked = true)
    (hpassword : w.password = v.password) (hisSet : w.userPasswordIsSet = v.userPasswordIsSet)
    (env : OpenEnvironment) (hvector : env.vectorFails = false) {accessFlags : ℕ}
    (hreach : ReachesUnlock L env w file accessFlags header) :
    SameUnlock (step L (.unlock env.keys) v) (step L (.openFileIoHandle env file accessFlags) w) := by
  have hclosed := hw.closed hreach.fileIoHandle
  have hbytes : (w.beforeUnlock file header).ioHandle.bytesPerSector = 512 := hw.bytesPerSector
  have hinputs : SameInputs v (w.beforeUnlock file header) := by
    refine ⟨hbytes.trans hv.bytesPerSector.symm, hv.volumeHeader.symm, hv.masterKeySize.symm,
      hwset.trans hv.isSet.symm, fun hyes => ?_, hisSet, hpassword,
      hclosed.encryptionContext.trans hv.encryptionContext.symm⟩
    rw [hv.isSet] at hyes
    cases hyes
  obtain ⟨hresult, hsame⟩ := internalVolumeUnlock_same (L := L) env.keys (some file.opened) hinputs
  have hunlock : volumeUnlock L env.keys v = internalVolumeUnlock L env.keys v (some file.opened) := by
    rw [volumeUnlock, if_pos hv.isLocked, hv.fileIoHandle]
  have hset := internalVolumeUnlock_isSet (L := L) env.keys (v := v) (some file.opened)
    (by rw [hv.bytesPerSector]; decide) hv.volumeHeader hv.encryptionContext
  have hoffset : 0 ≤ (w.beforeUnlock file header).ioHandle.encryptedVolumeOffset :=
    Int.mul_nonneg (Int.natCast_nonneg _) (Int.natCast_nonneg _)
  obtain ⟨w', result, hunlock', hcase⟩ := openReadUnlock_spec (L := L) env
    (v := w.beforeUnlock file header) file.opened hclosed.encryptionContext hbytes hoffset
  have hstep := internalVolumeUnlock_step (v := w.beforeUnlock file header) env.keys
    (some file.opened) hclosed.encryptionContext hunlock'
  rw [hunlock'] at hresult hsame
  simp only [step, hunlock, volumeOpenFileIoHandle, internalVolumeOpenRead, hreach.read,
    hreach.handleFails]
  rw [if_neg (not_not.2 hreach.fileIoHandle), if_neg (not_not.2 hreach.accessFlags)]
  generalize internalVolumeUnlock L env.keys v (some file.opened) = r at hresult hsame hset ⊢
  obtain ⟨v', result'⟩ := r
  simp only at hresult hsame hset ⊢
  subst hresult
  obtain ⟨hfails, heq⟩ | ⟨hno, -, heq⟩ := hcase
  · have hone : result = -1 := hfails.resolve_right (by simp [hvector])
    subst hone
    rw [heq]
    exact Or.inl ⟨rfl, rfl⟩
  · rw [heq]
    rcases hstep.range with hminus | rfl | rfl
    · exact absurd hminus hno
    · exact Or.inr (Or.inl ⟨rfl, rfl, (hstep.locked (by decide)).2.trans hwlocked⟩)
    · exact Or.inr (Or.inr ⟨rfl, rfl, (hstep.unlocked rfl).2, hsame.masterKeySize,
        hsame.masterKey (hset rfl)⟩)

/-- **Retrying is harmless where the attempts are.**  After any session that opens a file and
leaves it locked, and any failed attempts with passwords, none of which derives a user key for a
key slot in use that does not start at sector zero: the volume has the header as it was decoded,
and setting a password and unlocking comes to the same as opening the file with that password on
a new volume.  Both attempts have the same surroundings, which decide what fails and what newly
allocated memory holds; there is no lock that could fail. -/
theorem unlock_after_failedAttempts {history attempts : List Operation} {openEnv : OpenEnvironment}
    {file : FileIoHandle} {accessFlags : ℕ}
    (hopen : (step L (.openFileIoHandle openEnv file accessFlags) (volumeAfter L history)).2
      = .of 1)
    (hlocked : (volumeAfter L (history ++ [.openFileIoHandle openEnv file accessFlags])).isLocked
      = true)
    (hkeeps : KeepsSlots L (.openFileIoHandle openEnv file accessFlags) (volumeAfter L history))
    (hattempts : Admitted (step L)
      (fun operation v => FailedAttempt L operation v ∧ KeepsSlots L operation v)
      (volumeAfter L (history ++ [.openFileIoHandle openEnv file accessFlags])) attempts)
    {password : Operation} (hpassword : password.SetsPassword)
    (hset : (step L password volumeInitialize).2 = .of 1) (env : KeysEnvironment) :
    let v := volumeAfter L (history ++ [.openFileIoHandle openEnv file accessFlags] ++ attempts)
    (∃ header, HeaderOf L openEnv.header file.opened header ∧ v.volumeHeader = some header) ∧
      SameUnlock (step L (.unlock env) (step L password v).1)
        (step L (.openFileIoHandle { openEnv with keys := env, vectorFails := false } file
          accessFlags) (step L password volumeInitialize).1) := by
  intro v
  have hafter : volumeAfter L (history ++ [.openFileIoHandle openEnv file accessFlags]) =
      (volumeOpenFileIoHandle L openEnv (volumeAfter L history) file accessFlags).1 := by
    rw [volumeAfter, stateAfter_append, stateAfter_cons, stateAfter_nil]
    rfl
  rw [hafter] at hlocked hattempts
  obtain ⟨header, hreach, hopened⟩ := volumeOpenFileIoHandle_asOpened
    (volumeAfter_wellformed history) hkeeps (congrArg Answer.value hopen) hlocked
  have hv : AsOpened file.opened header v := by
    have heq : v = stateAfter (step L)
        (volumeOpenFileIoHandle L openEnv (volumeAfter L history) file accessFlags).1 attempts := by
      rw [← hafter]
      exact stateAfter_append _ _ _ _
    rw [heq]
    exact stateAfter_invariant (fun _ _ => step_asOpened) hopened hattempts
  refine ⟨⟨header, hreach.headerOf, hv.volumeHeader⟩, ?_⟩
  obtain ⟨p, size, heq⟩ := step_setsPassword hpassword hset
  have hw : Wellformed L (step L password volumeInitialize).1 :=
    step_wellformed password _ volumeInitialize_wellformed
  rw [heq] at hw ⊢
  rw [heq]
  have hv' : AsOpened file.opened header
      { v with userPassword := p, userPasswordSize := size, userPasswordIsSet := true } :=
    ⟨hv.1, hv.2, hv.3, hv.4, hv.5, hv.6, hv.7⟩
  have hread := hreach.read_other (volumeAfter_wellformed history) hw rfl
  exact sameUnlock_of_asOpened hv' hw rfl rfl rfl rfl
    { openEnv with keys := env, vectorFails := false } rfl
    ⟨rfl, hreach.accessFlags, hreach.handleFails, hreach.headerOf, hread⟩

/-! ## A wrong password and then the right one -/

/-- The small volume with its password in the first key slot. -/
def smallSlotFile : FileIoHandle :=
  volumeFile { smallRecord with
    encryptedVolumeStartSector := 9
    keySlots := passwordSlot 8 :: List.replicate 7 inactiveSlot
    length_keySlots := rfl } (smallKeyMaterial ++ smallData) (by decide +kernel)

/-- Another password. -/
def otherPassword : List UInt8 := ascii ['b']

/-- An attempt in which the derivation of every user key fails. -/
def underivedKeys : KeysEnvironment := { slot := fun _ => { passwordFails := true } }

/-- The file is opened without a password, unlocking with another password fails in the key
derivation, and then the file is unlocked with its password. -/
theorem unlock_after_failedAttempts_small :
    let v := volumeAfter smallLibraries ([] ++ [.openFileIoHandle {} smallSlotFile 1] ++
      [.setUtf8Password {} otherPassword, .unlock underivedKeys])
    ((∃ header, HeaderOf smallLibraries {} smallSlotFile.opened header ∧
      v.volumeHeader = some header) ∧
      SameUnlock
        (step smallLibraries (.unlock {})
          (step smallLibraries (.setUtf8Password {} smallPassword) v).1)
        (step smallLibraries (.openFileIoHandle
            { ({} : OpenEnvironment) with keys := {}, vectorFails := false } smallSlotFile 1)
          (step smallLibraries (.setUtf8Password {} smallPassword) volumeInitialize).1)) ∧
      (step smallLibraries (.unlock {})
        (step smallLibraries (.setUtf8Password {} smallPassword) v).1).2 = .of 1 := by
  let w := volumeAfter smallLibraries ([] ++ [.openFileIoHandle {} smallSlotFile 1])
  let u := (step smallLibraries (.setUtf8Password {} otherPassword) w).1
  have hfails : (step smallLibraries (.unlock underivedKeys) u).2 ≠ .of 1 := by decide +kernel
  have hkeeps : KeepsSlots smallLibraries (.unlock underivedKeys) u := by
    intro header hheader _
    have hnotFound : ∀ header', u.volumeHeader = some header' → (firstKeySlots smallLibraries
        underivedKeys u header' u.fileIoHandle 8).2 ≠ .found := by
      have hsome : u.volumeHeader.map (fun header' => (firstKeySlots smallLibraries underivedKeys u
          header' u.fileIoHandle 8).2) = some .error := by decide +kernel
      intro header' hheader'
      rw [hheader', Option.map_some] at hsome
      rw [Option.some.inj hsome]
      decide
    refine ⟨fun i _ _ keySlot _ _ hderives => ?_, hnotFound header hheader⟩
    obtain ⟨-, -, hderived⟩ := hderives
    exact hderived rfl
  have hopen : KeepsSlots smallLibraries (.openFileIoHandle {} smallSlotFile 1)
      (volumeAfter smallLibraries []) := by
    intro _ _ hset
    cases hset
  have hattempts : Admitted (step smallLibraries)
      (fun operation v => FailedAttempt smallLibraries operation v ∧
        KeepsSlots smallLibraries operation v) w
      [.setUtf8Password {} otherPassword, .unlock underivedKeys] :=
    ⟨⟨trivial, trivial⟩, ⟨hfails, hkeeps⟩, trivial⟩
  have hpassword : Operation.SetsPassword (.setUtf8Password {} smallPassword) := trivial
  exact ⟨unlock_after_failedAttempts (by decide +kernel) (by decide +kernel) hopen hattempts
    hpassword (by decide) {}, by decide +kernel⟩

/-- The digest from which the user key for the other password is taken. -/
def otherUserDigest : List UInt8 := toBigEndian 20 0x251edc56bf3ba126d6bdf47d9e7bacc616f136f7

/-- The blocks of the key material, decrypted with the user key for the other password. -/
def otherBlocks : List UInt8 × List UInt8 × List UInt8 :=
  (toBigEndian 16 0x53ca788dab887e76ec70665867aa9d0a,
    toBigEndian 16 0x52c8da7cb18088f0d8e2999b4993c040,
    toBigEndian 16 0x3f4b21dc1ebbf98d522c8e80fe12af2f)

/-- The digests of the merge with the other password. -/
def otherDigests : List ℕ :=
  [0x635792df19abb7d4f3a5656ed405cb9ad55053f1,
    0xaa9c367ee0f7d65ba4180a41bfc6335bedf8e3c9,
    0x9d2278f8c41b3102e1adc64b4fea64b27498185a,
    0x529522ada0b2d8025812a9e175922dd6705a0790,
    0x67f6671c7d1e2a4bb9d0b03004397dc40125bcd4,
    0xa67ca1887694447a87ad7ac3a2d4a1d0ed0c432f,
    0x38b121a80f9152d6aa3543c4d9602b3837d4668e,
    0x83d24efbe62ed5b9f78a18487d30ba7a0396beee,
    0x004b93e40536daa4bb7d1ba0b672eedfb2f1362d,
    0x7d204946798a6797a1f8a28243031ea4f93b8445,
    0xdb4d4fc8c4c3df7a1858076f2bc3ef243bd170e7,
    0x6d160a3467037238ac6c282e06c1886abe53b142,
    0x28da1be91550f238d272a06a6cf7b9d0e0cc9448,
    0x86681193f4faa9968ad7fb9cff7c81ff67e6d1b7,
    0x7de30b595be5ffc077cc8c1c8e81e174a6fdc596,
    0xf7ec2085d805878abc6c159b9be61fa85e1ac8d0,
    0xd25e0989af43fe131cd61d836b6c9e3c310ad3c1,
    0x3e4c00883bcf377895a326569a8eaed2bb7ec82d,
    0x6dc22fb5aae2110a8cb581eb8ee5b6bcb3dbd996,
    0xb62b146a28fa97580dd1ef1865ea203338b371d2,
    0x3efdb352cb1f874c529aec7cbfc9c72b14092d8b,
    0x05dfa3000915e749d55446a0d1e7f439524e9eea,
    0x3bfccd1408a0cde61b206bd6c23f2d9a6002e788,
    0x0f79179b5b394c39a3f4f53e1f3e92107e47407c,
    0xb9bf612c7432927e351b806386c490853615dfd1,
    0xc5cd8bd098ef650dd07c08ae11e7e35a3f13e02f,
    0x43330c50e5d5b952a773eb2f03bc15aa5c35ab09,
    0xf2ce8a5ae47b0e5737b706864afc9230f255f821,
    0x7bede47862fe531ad37e57a6510e081c002164ff,
    0x704ef30e6d2ec2533a49e5cad0ba0d8568fbb6c7,
    0x72c2627a3667405c64e76fc8a6d1db43191c06dd]

/-- AES, SHA-1 and HMAC on the small volume, also with the other password. -/
def retryLibraries : Libraries := .ofTables
  (smallAes ++
    [((⟨.decrypt, otherUserDigest.take 16⟩, .decrypt, cipherBlocks.1), otherBlocks.1),
      ((⟨.decrypt, otherUserDigest.take 16⟩, .decrypt, cipherBlocks.2.1), otherBlocks.2.1),
      ((⟨.decrypt, otherUserDigest.take 16⟩, .decrypt, cipherBlocks.2.2), otherBlocks.2.2)])
  (smallDigests ++
    -- the first stripe is another block, which changes the block that goes into its digest
    diffusedDigests otherBlocks.2.1 (xor otherBlocks.1 otherBlocks.2.1) otherDigests)
  (smallHmacs ++
    [((.sha1, otherPassword, slotSalt.bytes ++ [0, 0, 0, 1]), otherUserDigest),
      ((.sha1, toBigEndian 16 0x4d8943a628dcb9d136cbe14858c3746c,
          smallSalt.bytes ++ [0, 0, 0, 1]),
        toBigEndian 20 0x1cb9ab4f29e25a670af9f3d21a3e46acabfd1663)])

/-- After an attempt with a wrong password the right one is of no use: the attempt fails, while a
new volume is unlocked with it. -/
theorem unlock_after_otherPassword :
    answers (step retryLibraries) volumeInitialize
        [.openFileIoHandle {} smallSlotFile 1, .setUtf8Password {} otherPassword, .unlock {},
          .setUtf8Password {} smallPassword, .unlock {}]
        = [.of 1, .of 1, .of 0, .of 1, .of (-1)] ∧
      answers (step retryLibraries) volumeInitialize
        [.setUtf8Password {} smallPassword, .openFileIoHandle {} smallSlotFile 1, .isLocked]
        = [.of 1, .of 1, .of 0] := by
  decide +kernel

end Libluksde
