import Libluksde.OpenReadKeys

/-!
# What an attempt to unlock does

The frame of an attempt (which fields of the volume it can change), what is known of the
master key and the encryption context when it succeeds, and that it leaves no encryption
context behind when it does not.
-/

namespace Libluksde

open Lib.Bytes

variable {L : Libraries}

/-- Two headers that differ in their key slots only. -/
def SameButSlots (h h' : VolumeHeader) : Prop :=
  h' = { h with keySlotsArray := h'.keySlotsArray }

theorem SameButSlots.refl (h : VolumeHeader) : SameButSlots h h := rfl

theorem SameButSlots.trans {h h' h'' : VolumeHeader} (h₁ : SameButSlots h h')
    (h₂ : SameButSlots h' h'') : SameButSlots h h'' := by
  unfold SameButSlots at *
  rw [h₂, h₁]

/-- The validation of a master key does not look at the key slots. -/
theorem SameButSlots.masterKeyIsValid {h h' : VolumeHeader} (hs : SameButSlots h h')
    (fails : Bool) (key : List UInt8) :
    masterKeyIsValid L fails h' key = masterKeyIsValid L fails h key := by
  rw [hs]
  rfl

/-- The creation of a context does not look at the key slots. -/
theorem SameButSlots.createContext {h h' : VolumeHeader} (hs : SameButSlots h h')
    (contextFails setKeyFails : Bool) (key : List UInt8) :
    createContext L contextFails setKeyFails h' key =
      createContext L contextFails setKeyFails h key := by
  rw [hs]
  rfl

/-- A validation that comes to a result would come to the same result without failures. -/
theorem masterKeyIsValid_of_some {fails valid : Bool} {header : VolumeHeader}
    {key : List UInt8} (h : masterKeyIsValid L fails header key = some valid) :
    masterKeyIsValid L false header key = some valid := by
  cases fails with
  | false => exact h
  | true => simp [masterKeyIsValid, passwordPbkdf2] at h

/-- A context that is created would be created without failures. -/
theorem createContext_of_some {contextFails setKeyFails : Bool} {header : VolumeHeader}
    {key : List UInt8} {context : EncryptionContext}
    (h : createContext L contextFails setKeyFails header key = some context) :
    createContext L false false header key = some context := by
  obtain ⟨created, hcreated, hkeyed⟩ := Option.bind_eq_some_iff.1 h
  obtain ⟨-, hfails, -⟩ := encryptionContextInitialize_spec hcreated
  subst hfails
  split_ifs at hkeyed
  rw [createContext, hcreated]
  exact hkeyed

/-! ## The key slot loop -/

theorem mergeSplitMasterKey_found {env : SlotEnvironment} {header : VolumeHeader}
    {masterKeySize stripes : ℕ} {splitMasterKey : List UInt8} {s s' : SlotLoop}
    (h : mergeSplitMasterKey L env header masterKeySize stripes splitMasterKey s = (s', .found)) :
    masterKeyIsValid L false header (s'.masterKey.bytes.take masterKeySize) = some true := by
  unfold mergeSplitMasterKey at h
  simp only at h
  split at h
  · cases h
  · split at h
    · cases h
    · rename_i hvalid
      cases h
      exact masterKeyIsValid_of_some hvalid
    · cases h

/-- A round that finds the master key has validated it. -/
theorem tryKeySlot_found {env : SlotEnvironment} {header : VolumeHeader}
    {bytesPerSector masterKeySize i : ℕ} {password : Option (List UInt8)}
    {file : Option FileIoHandle} {s s' : SlotLoop}
    (h : tryKeySlot L env header bytesPerSector masterKeySize password file i s = (s', .found)) :
    masterKeyIsValid L false header (s'.masterKey.bytes.take masterKeySize) = some true := by
  rcases tryKeySlot_cases (L := L) env header bytesPerSector masterKeySize password file i s with
    hround | hround | ⟨keySlot, userKey, -, -, -, -, hround | ⟨splitMasterKey, offset, -, hround⟩⟩
  · rw [hround] at h
    cases h
  · rw [hround] at h
    cases h
  · rw [hround] at h
    cases h
  · rw [hround] at h
    exact mergeSplitMasterKey_found h

/-- A loop that finds the master key has validated it. -/
theorem tryKeySlots_found {env : KeysEnvironment} {header : VolumeHeader}
    {bytesPerSector masterKeySize n i : ℕ} {password : Option (List UInt8)}
    {file : Option FileIoHandle} {s s' : SlotLoop}
    (h : tryKeySlots L env header bytesPerSector masterKeySize password file n i s =
      (s', .found)) :
    masterKeyIsValid L false header (s'.masterKey.bytes.take masterKeySize) = some true := by
  induction n generalizing i s with
  | zero => cases h
  | succ n ih =>
    rw [tryKeySlots] at h
    split at h
    · exact ih h
    · rename_i s₁ r hr hstep
      cases h
      exact tryKeySlot_found hstep

/-! ## An attempt -/

/-- The fields that an attempt leaves as they are. -/
def UnlockFrame (v v' : Volume) : Prop :=
  v' = { v with
    volumeHeader := v'.volumeHeader
    masterKey := v'.masterKey
    volumeMasterKeyIsSet := v'.volumeMasterKeyIsSet
    encryptionContext := v'.encryptionContext }

theorem UnlockFrame.isLocked {v v' : Volume} (h : UnlockFrame v v') :
    v'.isLocked = v.isLocked := by
  rw [h]

/-- The last part of an attempt changes no field but the encryption context. -/
theorem createVolumeContext_frame (env : KeysEnvironment) (v : Volume) (header : VolumeHeader) :
    (createVolumeContext L env v header).1 =
      { v with encryptionContext := (createVolumeContext L env v header).1.encryptionContext } := by
  rw [createVolumeContext]
  split
  · split
    · rfl
    · rfl
  · split
    · rfl
    · rfl

theorem readKeysFromSlots_frame (env : KeysEnvironment) (v : Volume) (header : VolumeHeader)
    (file : Option FileIoHandle) : UnlockFrame v (readKeysFromSlots L env v header file).1 := by
  rw [readKeysFromSlots]
  split
  · split
    · rfl
    · rw [createVolumeContext_frame]
      rfl
  · rw [createVolumeContext_frame]
    rfl

theorem internalVolumeOpenReadKeys_frame (env : KeysEnvironment) (v : Volume)
    (file : Option FileIoHandle) : UnlockFrame v (internalVolumeOpenReadKeys L env v file).1 := by
  rw [internalVolumeOpenReadKeys]
  split
  · rfl
  · split
    · rfl
    · rename_i header hheader
      split
      · rfl
      · rename_i isSet hpreset
        exact readKeysFromSlots_frame env { v with volumeMasterKeyIsSet := isSet } header file

/-- A volume whose encryption context was created for a master key that was validated. -/
def Validated (L : Libraries) (v : Volume) : Prop :=
  ∃ header context, v.volumeHeader = some header ∧ v.encryptionContext = some context ∧
    masterKeyIsValid L false header (v.masterKey.bytes.take v.masterKeySize) = some true ∧
    createContext L false false header (v.masterKey.bytes.take v.masterKeySize) = some context

/-- What an attempt does to a volume without encryption context. -/
structure UnlockOutcome (L : Libraries) (v v' : Volume) (result : ℤ) : Prop where
  frame : UnlockFrame v v'
  header : ∀ h, v.volumeHeader = some h →
    ∃ h', v'.volumeHeader = some h' ∧ SameButSlots h h'
  noHeader : v.volumeHeader = none → v'.volumeHeader = none
  range : result = -1 ∨ result = 0 ∨ result = 1
  unlocked : result = 1 → Validated L v'
  locked : result ≠ 1 → v'.encryptionContext = none

/-- The last part of an attempt, for a master key that was validated if it is set. -/
theorem createVolumeContext_outcome (env : KeysEnvironment) {v : Volume} (header : VolumeHeader)
    (hcontext : v.encryptionContext = none) (hheader : ∃ h, v.volumeHeader = some h ∧
      SameButSlots header h)
    (hvalid : v.volumeMasterKeyIsSet = true →
      masterKeyIsValid L false header (v.masterKey.bytes.take v.masterKeySize) = some true) :
    let r := createVolumeContext L env v header
    (r.2 = -1 ∨ r.2 = 0 ∨ r.2 = 1) ∧ (r.2 = 1 → Validated L r.1) ∧
      (r.2 ≠ 1 → r.1.encryptionContext = none) := by
  intro r
  simp only [r, createVolumeContext, hcontext, and_true, not_true_eq_false, ne_eq, if_false]
  split
  · rename_i hset
    split
    · exact ⟨by simp, by simp, fun _ => hcontext⟩
    · rename_i context hcreated
      refine ⟨by simp, fun _ => ?_, by simp⟩
      obtain ⟨h, hh, hs⟩ := hheader
      refine ⟨h, context, hh, rfl, ?_, ?_⟩
      · rw [hs.masterKeyIsValid]
        exact hvalid hset
      · rw [hs.createContext]
        exact createContext_of_some hcreated
  · exact ⟨by simp, by simp, fun _ => hcontext⟩

/-- With a key that is set, the encryption context is created or there is an error. -/
theorem createVolumeContext_ne_zero (env : KeysEnvironment) (header : VolumeHeader) {v : Volume}
    (hset : v.volumeMasterKeyIsSet = true) (hcontext : v.encryptionContext = none) :
    (createVolumeContext L env v header).2 ≠ 0 := by
  unfold createVolumeContext
  rw [if_pos ⟨hset, hcontext⟩]
  split
  · simp
  · simp

/-- The encryption context is created for a key that is set. -/
theorem createVolumeContext_one {env : KeysEnvironment} {v : Volume} {header : VolumeHeader}
    (hcontext : v.encryptionContext = none) (hone : (createVolumeContext L env v header).2 = 1) :
    v.volumeMasterKeyIsSet = true := by
  by_contra hno
  unfold createVolumeContext at hone
  rw [if_neg (fun hyes => hno hyes.1), if_neg (not_not.2 hcontext)] at hone
  cases hone

/-- The key slots and the encryption context, for a master key that was validated if it is
set. -/
theorem readKeysFromSlots_outcome (env : KeysEnvironment) {v : Volume} {header : VolumeHeader}
    (file : Option FileIoHandle) (hcontext : v.encryptionContext = none)
    (hheader : v.volumeHeader = some header)
    (hvalid : v.volumeMasterKeyIsSet = true →
      masterKeyIsValid L false header (v.masterKey.bytes.take v.masterKeySize) = some true) :
    UnlockOutcome L v (readKeysFromSlots L env v header file).1
      (readKeysFromSlots L env v header file).2 := by
  have hnone : v.volumeHeader = none → False := by simp [hheader]
  unfold readKeysFromSlots
  split
  · split
    · -- an error in the loop
      rename_i s hs
      refine ⟨rfl, fun h hh => ?_, fun hh => (hnone hh).elim, by simp, by simp, fun _ => hcontext⟩
      rw [hheader] at hh
      cases hh
      exact ⟨_, rfl, rfl⟩
    · -- the loop ended with a master key or without
      rename_i s result hne hs
      have hfound : result = .found →
          masterKeyIsValid L false header (s.masterKey.bytes.take v.masterKeySize)
            = some true := by
        intro hfound
        subst hfound
        exact tryKeySlots_found hs
      obtain ⟨hrange, hyes, hno⟩ := createVolumeContext_outcome env
        (v := v.afterSlots header s result) header hcontext ⟨_, rfl, rfl⟩
        (by simpa [Volume.afterSlots] using hfound)
      have hcreated := createVolumeContext_frame (L := L) env (v.afterSlots header s result) header
      refine ⟨by rw [hcreated]; rfl, fun h hh => ?_, fun hh => (hnone hh).elim, hrange, hyes, hno⟩
      rw [hheader] at hh
      cases hh
      exact ⟨{ header with keySlotsArray := s.keySlots }, by rw [hcreated]; rfl, rfl⟩
  · -- the loop is not entered
    obtain ⟨hrange, hyes, hno⟩ := createVolumeContext_outcome env header hcontext
      ⟨_, hheader, .refl _⟩ hvalid
    have hcreated := createVolumeContext_frame (L := L) env v header
    refine ⟨by rw [hcreated]; rfl, fun h hh => ⟨h, ?_, .refl h⟩, fun hh => (hnone hh).elim,
      hrange, hyes, hno⟩
    rw [hcreated]
    exact hh

/-- A key that was set and holds. -/
theorem presetKeyIsValid_true {env : KeysEnvironment} {header : VolumeHeader} {v : Volume}
    (h : presetKeyIsValid L env v header = some true) : v.volumeMasterKeyIsSet = true ∧
      masterKeyIsValid L false header (v.masterKey.bytes.take v.masterKeySize) = some true := by
  unfold presetKeyIsValid at h
  split_ifs at h with hset
  · exact ⟨hset, masterKeyIsValid_of_some h⟩
  · cases h

/-- An attempt on a volume with a header. -/
theorem internalVolumeOpenReadKeys_eq (env : KeysEnvironment) {v : Volume} {header : VolumeHeader}
    (file : Option FileIoHandle) (hbytes : v.ioHandle.bytesPerSector ≠ 0)
    (hheader : v.volumeHeader = some header) :
    internalVolumeOpenReadKeys L env v file =
      match presetKeyIsValid L env v header with
      | none => (v, -1)
      | some isSet =>
        readKeysFromSlots L env { v with volumeMasterKeyIsSet := isSet } header file := by
  unfold internalVolumeOpenReadKeys
  rw [if_neg hbytes]
  split
  · rename_i hnone
    rw [hheader] at hnone
    cases hnone
  · rename_i header' hheader'
    rw [hheader] at hheader'
    cases hheader'
    rfl

/-- An attempt on a volume without header fails. -/
theorem internalVolumeOpenReadKeys_noHeader (env : KeysEnvironment) {v : Volume}
    (file : Option FileIoHandle) (h : v.ioHandle.bytesPerSector = 0 ∨ v.volumeHeader = none) :
    internalVolumeOpenReadKeys L env v file = (v, -1) := by
  unfold internalVolumeOpenReadKeys
  split
  · rfl
  · rename_i hbytes
    split
    · rfl
    · rename_i hheader
      rw [hheader] at h
      exact absurd h (by simp [hbytes])

/-- An attempt fails before the key slots, or it is one that goes on with them. -/
theorem internalVolumeOpenReadKeys_cases (env : KeysEnvironment) (v : Volume)
    (file : Option FileIoHandle) :
    internalVolumeOpenReadKeys L env v file = (v, -1) ∨
      ∃ header isSet, v.volumeHeader = some header ∧
        presetKeyIsValid L env v header = some isSet ∧
        internalVolumeOpenReadKeys L env v file =
          readKeysFromSlots L env { v with volumeMasterKeyIsSet := isSet } header file := by
  by_cases hnone : v.ioHandle.bytesPerSector = 0 ∨ v.volumeHeader = none
  · exact Or.inl (internalVolumeOpenReadKeys_noHeader env file hnone)
  · rcases not_or.1 hnone with ⟨hbytes, hsome⟩
    rcases Option.ne_none_iff_exists'.1 hsome with ⟨header, hheader⟩
    rw [internalVolumeOpenReadKeys_eq env file hbytes hheader]
    cases hpreset : presetKeyIsValid L env v header with
    | none => exact Or.inl rfl
    | some isSet => exact Or.inr ⟨header, isSet, hheader, hpreset, rfl⟩

theorem internalVolumeOpenReadKeys_outcome (env : KeysEnvironment) {v : Volume}
    (file : Option FileIoHandle) (hcontext : v.encryptionContext = none) :
    UnlockOutcome L v (internalVolumeOpenReadKeys L env v file).1
      (internalVolumeOpenReadKeys L env v file).2 := by
  rcases internalVolumeOpenReadKeys_cases (L := L) env v file with
    hfailed | ⟨header, isSet, hheader, hpreset, hread⟩
  · rw [hfailed]
    exact ⟨rfl, fun h hh => ⟨h, hh, .refl h⟩, id, by simp, by simp, fun _ => hcontext⟩
  · rw [hread]
    have houtcome := readKeysFromSlots_outcome (L := L) env
      (v := { v with volumeMasterKeyIsSet := isSet }) file hcontext hheader
      fun hset => (presetKeyIsValid_true (hpreset.trans (congrArg some hset))).2
    exact ⟨houtcome.frame, houtcome.header, houtcome.noHeader, houtcome.range,
      houtcome.unlocked, houtcome.locked⟩

/-- `libluksde_internal_volume_unlock` changes no other field but the lock. -/
theorem internalVolumeUnlock_frame (env : KeysEnvironment) (v : Volume)
    (file : Option FileIoHandle) :
    (internalVolumeUnlock L env v file).1 = { v with
      volumeHeader := (internalVolumeUnlock L env v file).1.volumeHeader
      masterKey := (internalVolumeUnlock L env v file).1.masterKey
      volumeMasterKeyIsSet := (internalVolumeUnlock L env v file).1.volumeMasterKeyIsSet
      encryptionContext := (internalVolumeUnlock L env v file).1.encryptionContext
      isLocked := (internalVolumeUnlock L env v file).1.isLocked } := by
  have hframe := internalVolumeOpenReadKeys_frame (L := L) env v file
  rw [internalVolumeUnlock]
  generalize internalVolumeOpenReadKeys L env v file = r at hframe ⊢
  obtain ⟨v', result⟩ := r
  dsimp only at hframe ⊢
  rw [hframe]
  split
  · rfl
  · split
    · rfl
    · rfl

/-- `libluksde_internal_volume_unlock` clears the lock when the attempt succeeds. -/
theorem internalVolumeUnlock_eq {env : KeysEnvironment} {v : Volume}
    {file : Option FileIoHandle} (hcontext : v.encryptionContext = none) :
    internalVolumeUnlock L env v file =
      let r := internalVolumeOpenReadKeys L env v file
      ({ r.1 with isLocked := decide (r.2 ≠ 1) && v.isLocked }, r.2) := by
  have h := internalVolumeOpenReadKeys_outcome (L := L) env file hcontext
  unfold internalVolumeUnlock
  generalize internalVolumeOpenReadKeys L env v file = r at h ⊢
  obtain ⟨v', result⟩ := r
  have hlocked : v'.isLocked = v.isLocked := h.frame.isLocked
  rcases h.range with rfl | rfl | rfl
  · simp [← hlocked]
  · simp [← hlocked]
  · simp

/-- What `libluksde_internal_volume_unlock` does to a volume without encryption context. -/
structure UnlockStep (L : Libraries) (v v' : Volume) (result : ℤ) : Prop where
  frame : v' = { v with
    volumeHeader := v'.volumeHeader
    masterKey := v'.masterKey
    volumeMasterKeyIsSet := v'.volumeMasterKeyIsSet
    encryptionContext := v'.encryptionContext
    isLocked := v'.isLocked }
  header : ∀ h, v.volumeHeader = some h →
    ∃ h', v'.volumeHeader = some h' ∧ SameButSlots h h'
  noHeader : v.volumeHeader = none → v'.volumeHeader = none
  range : result = -1 ∨ result = 0 ∨ result = 1
  unlocked : result = 1 → Validated L v' ∧ v'.isLocked = false
  locked : result ≠ 1 → v'.encryptionContext = none ∧ v'.isLocked = v.isLocked

theorem internalVolumeUnlock_step (env : KeysEnvironment) {v v' : Volume}
    (file : Option FileIoHandle) (hcontext : v.encryptionContext = none) {result : ℤ}
    (h : internalVolumeUnlock L env v file = (v', result)) : UnlockStep L v v' result := by
  have houtcome := internalVolumeOpenReadKeys_outcome (L := L) env file hcontext
  have hframe := internalVolumeUnlock_frame (L := L) env v file
  rw [h] at hframe
  rw [internalVolumeUnlock_eq hcontext] at h
  generalize internalVolumeOpenReadKeys L env v file = r at houtcome h
  obtain ⟨w, result'⟩ := r
  simp only [Prod.mk.injEq] at h houtcome
  obtain ⟨rfl, rfl⟩ := h
  refine ⟨hframe, houtcome.header, houtcome.noHeader, houtcome.range, fun hone => ?_,
    fun hno => ?_⟩
  · exact ⟨houtcome.unlocked hone, by simp [hone]⟩
  · exact ⟨houtcome.locked hno, by simp [hno]⟩

/-- An attempt that does not unlock leaves no header where there was none. -/
theorem UnlockStep.context_none {v v' : Volume} {result : ℤ} (h : UnlockStep L v v' result)
    (hheader : v.volumeHeader = none) : v'.encryptionContext = none := by
  by_contra hne
  have hone : result = 1 := by
    by_contra hno
    exact hne (h.locked hno).1
  obtain ⟨⟨header, -, hsome, -⟩, -⟩ := h.unlocked hone
  rw [h.noHeader hheader] at hsome
  cases hsome

/-- Where there is an encryption context, the lock is cleared. -/
theorem UnlockStep.isLocked {v v' : Volume} {result : ℤ} (h : UnlockStep L v v' result)
    (hne : v'.encryptionContext ≠ none) : result = 1 ∧ v'.isLocked = false := by
  have hone : result = 1 := by
    by_contra hno
    exact hne (h.locked hno).1
  exact ⟨hone, (h.unlocked hone).2⟩

end Libluksde
