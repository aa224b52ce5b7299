import Libluksde.Session
import Libluksde.Lib.Secret

/-!
# User keys

`libluksde_internal_volume_open_read_keys` derives a user key from the password for each key slot
that is in use, in a buffer of 32 bytes.  This file has the accesses to that buffer on every path,
next to the functions that follow the same paths, and says when the buffer contains the keys.
-/

namespace Libluksde

open Lib.Bytes Lib.Secret

/-- `sizeof( user_key )` -/
def userKeySize : ℕ := 32

section Accesses

variable (L : Libraries)

/-- The accesses for a key slot in use.  The key derivation fills as many bytes as the master key
has, and on an error it may have filled them in part. -/
def keySlotAccesses (env : SlotEnvironment) (header : VolumeHeader) (bytesPerSector : ℕ)
    (masterKeySize : ℕ) (password : Option (List UInt8)) (file : Option FileIoHandle)
    (keySlot : KeySlot) : List Access :=
  .fill masterKeySize ::
    match passwordPbkdf2 L env.passwordFails password header.hashingMethod keySlot.salt.bytes
      keySlot.numberOfIterations.toNat masterKeySize with
    | none => []
    | some userKey =>
      if readKeyMaterial env file masterKeySize (keySlot.inBytes bytesPerSector) = none then []
      else if env.splitAllocationFails then []
      else
        match encryptionContextInitialize env.contextFails header.encryptionMethod
          header.encryptionChainingMode header.initializationVectorMode
          header.essivHashingMethod with
        | none => []
        | some context =>
          .use masterKeySize ::
            if env.setKeyFails ∨ encryptionContextSetKey L context userKey = none then []
            else [.wipe 32]

/-- The accesses of one round of the key slot loop. -/
def tryKeySlotAccesses (env : SlotEnvironment) (header : VolumeHeader) (bytesPerSector : ℕ)
    (masterKeySize : ℕ) (password : Option (List UInt8)) (file : Option FileIoHandle) (i : ℕ)
    (s : SlotLoop) : List Access :=
  match if env.entryFails then none else s.keySlots[i]? with
  | none => []
  | some keySlot =>
    if keySlot.state ≠ keySlotActive then []
    else keySlotAccesses L env header bytesPerSector masterKeySize password file keySlot

/-- The accesses of the key slot loop over `n` key slots from index `i` on. -/
def tryKeySlotsAccesses (env : KeysEnvironment) (header : VolumeHeader) (bytesPerSector : ℕ)
    (masterKeySize : ℕ) (password : Option (List UInt8)) (file : Option FileIoHandle) :
    ℕ → (i : ℕ) → SlotLoop → List Access
  | 0, _, _ => []
  | n + 1, i, s =>
    tryKeySlotAccesses L (env.slot i) header bytesPerSector masterKeySize password file i s ++
      match tryKeySlot L (env.slot i) header bytesPerSector masterKeySize password file i s with
      | (s, .next) =>
        tryKeySlotsAccesses env header bytesPerSector masterKeySize password file n (i + 1) s
      | _ => []

/-- The accesses of `libluksde_internal_volume_open_read_keys`: those of the key slot loop, and
the wipe behind `on_error`. -/
def openReadKeysAccesses (env : KeysEnvironment) (volume : Volume) (file : Option FileIoHandle) :
    List Access :=
  if volume.ioHandle.bytesPerSector = 0 then []
  else
    match volume.volumeHeader with
    | none => []
    | some header =>
      match presetKeyIsValid L env volume header with
      | none => [.wipe 32]
      | some isSet =>
        (if isSet = false ∧ volume.userPasswordIsSet then
          tryKeySlotsAccesses L env header volume.ioHandle.bytesPerSector volume.masterKeySize
            volume.password file 8 0 ⟨header.keySlotsArray, volume.masterKey, 0⟩
        else []) ++
          if (internalVolumeOpenReadKeys L env volume file).2 = -1 then [.wipe 32] else []

end Accesses

variable {L : Libraries}

/-! ## A master key that fits -/

theorem keySlotAccesses_size {env : SlotEnvironment} {header : VolumeHeader}
    {bytesPerSector masterKeySize : ℕ} {password : Option (List UInt8)}
    {file : Option FileIoHandle} {keySlot : KeySlot} (hsize : masterKeySize ≤ 32) :
    ∀ access ∈ keySlotAccesses L env header bytesPerSector masterKeySize password file keySlot,
      access.size ≤ 32 := by
  rw [keySlotAccesses, List.forall_mem_cons]
  refine ⟨hsize, ?_⟩
  split
  · simp
  · split
    · simp
    · split
      · simp
      · split
        · simp
        · rw [List.forall_mem_cons]
          refine ⟨hsize, ?_⟩
          split
          · simp
          · simp [Access.size]

/-- A key slot whose split master key is read is filled, used and wiped. -/
theorem keySlotAccesses_read {env : SlotEnvironment} {header : VolumeHeader}
    {bytesPerSector masterKeySize offset : ℕ} {password : Option (List UInt8)}
    {file : Option FileIoHandle} {keySlot : KeySlot} {userKey : List UInt8}
    {split : List UInt8 × ℕ}
    (hkey : passwordPbkdf2 L env.passwordFails password header.hashingMethod keySlot.salt.bytes
      keySlot.numberOfIterations.toNat masterKeySize = some userKey)
    (hread : readSplitMasterKey L env header bytesPerSector masterKeySize file
      (keySlot.inBytes bytesPerSector) userKey offset = some split) :
    keySlotAccesses L env header bytesPerSector masterKeySize password file keySlot =
      [.fill masterKeySize, .use masterKeySize, .wipe 32] := by
  rw [readSplitMasterKey] at hread
  obtain ⟨keyMaterial, hmaterial, hread⟩ := Option.bind_eq_some_iff.mp hread
  split at hread
  · cases hread
  · rename_i hsplit
    obtain ⟨keyed, hcreate, -⟩ := Option.bind_eq_some_iff.mp hread
    rw [createContext] at hcreate
    obtain ⟨context, hcontext, hcreate⟩ := Option.bind_eq_some_iff.mp hcreate
    split at hcreate
    · cases hcreate
    · rename_i hsetKey
      rw [keySlotAccesses, hkey]
      simp only
      rw [if_neg (by simp [hmaterial]), if_neg hsplit, hcontext]
      simp only
      rw [if_neg (by simp [hsetKey, hcreate])]

theorem tryKeySlotAccesses_size (env : SlotEnvironment) (header : VolumeHeader)
    (bytesPerSector : ℕ) {masterKeySize : ℕ} (password : Option (List UInt8))
    (file : Option FileIoHandle) (i : ℕ) (s : SlotLoop) (hsize : masterKeySize ≤ 32) :
    ∀ access ∈ tryKeySlotAccesses L env header bytesPerSector masterKeySize password file i s,
      access.size ≤ 32 := by
  rw [tryKeySlotAccesses]
  split
  · simp
  · split
    · simp
    · exact keySlotAccesses_size hsize

/-- A round that meets no error leaves nothing of the user key. -/
theorem tryKeySlotAccesses_contained (env : SlotEnvironment) (header : VolumeHeader)
    (bytesPerSector : ℕ) {masterKeySize : ℕ} (password : Option (List UInt8))
    (file : Option FileIoHandle) (i : ℕ) (s : SlotLoop) (hsize : masterKeySize ≤ 32)
    (hround : (tryKeySlot L env header bytesPerSector masterKeySize password file i s).2 ≠ .error) :
    Contained 32
      (tryKeySlotAccesses L env header bytesPerSector masterKeySize password file i s) := by
  refine ⟨tryKeySlotAccesses_size env header bytesPerSector password file i s hsize, ?_⟩
  rw [tryKeySlotAccesses]
  rw [tryKeySlot] at hround
  cases hslot : (if env.entryFails then none else s.keySlots[i]?) with
  | none =>
    rw [hslot] at hround
    exact absurd rfl hround
  | some keySlot =>
    rw [hslot] at hround
    simp only at hround ⊢
    by_cases hactive : keySlot.state ≠ keySlotActive
    · rw [if_pos hactive]
      rfl
    · rw [if_neg hactive] at hround ⊢
      split at hround
      · exact absurd rfl hround
      · rename_i userKey hkey
        split at hround
        · exact absurd rfl hround
        · rename_i splitMasterKey offset hread
          rw [keySlotAccesses_read hkey hread]
          -- the wipe covers what the key derivation fills
          exact residue_append_wipe [.fill masterKeySize, .use masterKeySize]
            (by simp [Access.size, hsize])

/-- The key slot loop stays within the buffer, and leaves nothing unless it ends with an error. -/
theorem tryKeySlotsAccesses_contained (env : KeysEnvironment) (header : VolumeHeader)
    (bytesPerSector : ℕ) {masterKeySize : ℕ} (password : Option (List UInt8))
    (file : Option FileIoHandle) (n i : ℕ) (s : SlotLoop) (hsize : masterKeySize ≤ 32) :
    (∀ access ∈ tryKeySlotsAccesses L env header bytesPerSector masterKeySize password file n i s,
      access.size ≤ 32) ∧
    ((tryKeySlots L env header bytesPerSector masterKeySize password file n i s).2 ≠ .error →
      Contained 32
        (tryKeySlotsAccesses L env header bytesPerSector masterKeySize password file n i s)) := by
  induction n generalizing i s with
  | zero => exact ⟨by simp [tryKeySlotsAccesses], fun _ => contained_nil 32⟩
  | succ n ih =>
    have hround := tryKeySlotAccesses_contained (L := L) (env.slot i) header bytesPerSector
      password file i s hsize
    have hrange := tryKeySlotAccesses_size (L := L) (env.slot i) header bytesPerSector password
      file i s hsize
    rw [tryKeySlotsAccesses, tryKeySlots]
    generalize tryKeySlot L (env.slot i) header bytesPerSector masterKeySize password file i s = r
      at hround
    obtain ⟨s', result⟩ := r
    cases result with
    | next =>
      obtain ⟨hloop, hclean⟩ := ih (i + 1) s'
      refine ⟨?_, fun hne => (hround (by simp)).append (hclean hne)⟩
      intro access hmem
      rcases List.mem_append.mp hmem with hleft | hright
      · exact hrange access hleft
      · exact hloop access hright
    | error =>
      rw [List.append_nil]
      exact ⟨hrange, fun hne => absurd rfl hne⟩
    | found =>
      rw [List.append_nil]
      exact ⟨hrange, fun _ => hround (by simp)⟩

/-- An end without error is not one behind an error in the key slot loop. -/
theorem internalVolumeOpenReadKeys_slots {env : KeysEnvironment} {v : Volume}
    {file : Option FileIoHandle} {header : VolumeHeader}
    (hbytes : v.ioHandle.bytesPerSector ≠ 0) (hheader : v.volumeHeader = some header)
    (hpreset : presetKeyIsValid L env v header = some false) (hset : v.userPasswordIsSet = true)
    (hresult : (internalVolumeOpenReadKeys L env v file).2 ≠ -1) :
    (tryKeySlots L env header v.ioHandle.bytesPerSector v.masterKeySize v.password file 8 0
      ⟨header.keySlotsArray, v.masterKey, 0⟩).2 ≠ .error := by
  intro herror
  apply hresult
  have hopen : internalVolumeOpenReadKeys L env v file =
      readKeysFromSlots L env { v with volumeMasterKeyIsSet := false } header file := by
    rw [internalVolumeOpenReadKeys, if_neg hbytes, hheader]
    simp only [hpreset]
  have hslots : (tryAllKeySlots L env { v with volumeMasterKeyIsSet := false } header file).2 =
      .error := herror
  rw [hopen, readKeysFromSlots, if_pos ⟨rfl, hset⟩]
  generalize tryAllKeySlots L env { v with volumeMasterKeyIsSet := false } header file = r
    at hslots ⊢
  obtain ⟨s, result⟩ := r
  cases hslots
  rfl

/-- With a master key that fits, the buffer contains all user keys. -/
theorem openReadKeysAccesses_contained {env : KeysEnvironment} {v : Volume}
    {file : Option FileIoHandle} (hsize : v.masterKeySize ≤ 32) :
    Contained 32 (openReadKeysAccesses L env v file) := by
  rw [openReadKeysAccesses]
  split
  · exact contained_nil 32
  · rename_i hbytes
    split
    · exact contained_nil 32
    · rename_i header hheader
      split
      · -- the check of the key that was set fails
        exact contained_append_wipe [] (by simp)
      · rename_i isSet hpreset
        by_cases htries : isSet = false ∧ v.userPasswordIsSet = true
        · obtain ⟨hrange, hclean⟩ := tryKeySlotsAccesses_contained (L := L) env header
            v.ioHandle.bytesPerSector v.password file 8 0 ⟨header.keySlotsArray, v.masterKey, 0⟩
            hsize
          rw [if_pos htries]
          split
          · exact contained_append_wipe _ hrange
          · rename_i hresult
            rw [List.append_nil]
            rw [htries.1] at hpreset
            exact hclean (internalVolumeOpenReadKeys_slots hbytes hheader hpreset htries.2 hresult)
        · rw [if_neg htries]
          split
          · exact contained_append_wipe [] (by simp)
          · exact contained_nil 32

/-! ## A master key that does not fit -/

/-- Among the key slots from index `i` on there is one in use that is reached: no entry up to it
fails to be read. -/
def ReachesKeySlot (env : KeysEnvironment) (keySlots : List KeySlot) (n i : ℕ) : Prop :=
  ∃ k, i ≤ k ∧ k < i + n ∧ (∃ keySlot, keySlots[k]? = some keySlot ∧
    keySlot.state = keySlotActive) ∧ ∀ j, i ≤ j → j ≤ k → (env.slot j).entryFails = false

/-- The user key of a key slot is derived: the key slots are tried, as no valid key was set and a
password was, and one of them that is in use is reached. -/
def TriesKeySlot (L : Libraries) (env : KeysEnvironment) (v : Volume) : Prop :=
  v.ioHandle.bytesPerSector ≠ 0 ∧ ∃ header, v.volumeHeader = some header ∧
    presetKeyIsValid L env v header = some false ∧ v.userPasswordIsSet = true ∧
    ReachesKeySlot env header.keySlotsArray 8 0

/-- A key slot in use is reached at index `i` or behind it. -/
theorem reachesKeySlot_succ {env : KeysEnvironment} {keySlots : List KeySlot} {n i : ℕ}
    {keySlot : KeySlot} (hslot : keySlots[i]? = some keySlot)
    (hentry : (env.slot i).entryFails = false) :
    ReachesKeySlot env keySlots (n + 1) i ↔
      keySlot.state = keySlotActive ∨ ReachesKeySlot env keySlots n (i + 1) := by
  constructor
  · rintro ⟨k, hle, hlt, ⟨keySlot', hslot', hactive⟩, hentries⟩
    rcases Nat.eq_or_lt_of_le hle with rfl | hlt'
    · cases hslot.symm.trans hslot'
      exact Or.inl hactive
    · exact Or.inr ⟨k, hlt', by omega, ⟨keySlot', hslot', hactive⟩,
        fun j hij hjk => hentries j (by omega) hjk⟩
  · rintro (hactive | ⟨k, hle, hlt, hactive, hentries⟩)
    · refine ⟨i, le_refl i, by omega, ⟨keySlot, hslot, hactive⟩, fun j hij hji => ?_⟩
      rw [show j = i by omega]
      exact hentry
    · refine ⟨k, by omega, by omega, hactive, fun j hij hjk => ?_⟩
      rcases Nat.eq_or_lt_of_le hij with rfl | hlt'
      · exact hentry
      · exact hentries j hlt' hjk

/-- No key slot is reached behind an entry that cannot be read. -/
theorem not_reachesKeySlot {env : KeysEnvironment} {keySlots : List KeySlot} {n i : ℕ}
    (h : (if (env.slot i).entryFails then none else keySlots[i]?) = none) :
    ¬ ReachesKeySlot env keySlots n i := by
  rintro ⟨k, hle, -, ⟨keySlot, hslot, -⟩, hentries⟩
  rw [hentries i (le_refl i) hle] at h
  have hlength : i < keySlots.length := lt_of_le_of_lt hle (List.getElem?_eq_some_iff.mp hslot).1
  simp [List.getElem?_eq_getElem hlength] at h

/-- The key slot loop fills the buffer when it reaches a key slot in use, and else leaves it
alone. -/
theorem tryKeySlotsAccesses_fill {env : KeysEnvironment} {header : VolumeHeader}
    {bytesPerSector masterKeySize n i : ℕ} {password : Option (List UInt8)}
    {file : Option FileIoHandle} {s : SlotLoop} :
    (ReachesKeySlot env s.keySlots n i → .fill masterKeySize ∈
      tryKeySlotsAccesses L env header bytesPerSector masterKeySize password file n i s) ∧
    (¬ ReachesKeySlot env s.keySlots n i →
      tryKeySlotsAccesses L env header bytesPerSector masterKeySize password file n i s = []) := by
  induction n generalizing i s with
  | zero =>
    constructor
    · rintro ⟨k, hle, hlt, -⟩
      omega
    · intro _
      rfl
  | succ n ih =>
    rw [tryKeySlotsAccesses]
    cases hentry : if (env.slot i).entryFails then none else s.keySlots[i]? with
    | none =>
      have hround : tryKeySlot L (env.slot i) header bytesPerSector masterKeySize password file i s
          = (s, .error) := by rw [tryKeySlot, hentry]
      rw [tryKeySlotAccesses, hentry, hround]
      exact ⟨fun h => absurd h (not_reachesKeySlot hentry), fun _ => rfl⟩
    | some keySlot =>
      have hfails : (env.slot i).entryFails = false := by
        cases hf : (env.slot i).entryFails with
        | false => rfl
        | true =>
          rw [hf] at hentry
          cases hentry
      have hslot : s.keySlots[i]? = some keySlot := by
        rw [hfails] at hentry
        exact hentry
      rw [reachesKeySlot_succ hslot hfails, tryKeySlotAccesses, hentry]
      simp only
      by_cases hactive : keySlot.state = keySlotActive
      · rw [if_neg (by simp [hactive])]
        refine ⟨fun _ => List.mem_append_left _ List.mem_cons_self, fun h => ?_⟩
        exact absurd (Or.inl hactive) h
      · have hround : tryKeySlot L (env.slot i) header bytesPerSector masterKeySize password file i
            s = (s, .next) := by
          rw [tryKeySlot, hentry]
          exact if_pos hactive
        rw [if_pos hactive, hround, List.nil_append, or_iff_right hactive]
        exact ih

/-- An attempt that derives no user key leaves the buffer alone, or only wipes it. -/
theorem openReadKeysAccesses_of_not_tries {env : KeysEnvironment} {v : Volume}
    {file : Option FileIoHandle} (h : ¬ TriesKeySlot L env v) :
    Contained 32 (openReadKeysAccesses L env v file) := by
  have hwipe : Contained 32 [.wipe 32] := contained_append_wipe [] (by simp)
  rw [openReadKeysAccesses]
  split
  · exact contained_nil 32
  · rename_i hbytes
    split
    · exact contained_nil 32
    · rename_i header hheader
      split
      · exact hwipe
      · rename_i isSet hpreset
        refine Contained.append ?_ ?_
        · split
          · rename_i htries
            rw [htries.1] at hpreset
            have hreaches : ¬ ReachesKeySlot env header.keySlotsArray 8 0 := fun hreaches =>
              h ⟨hbytes, header, hheader, hpreset, htries.2, hreaches⟩
            rw [tryKeySlotsAccesses_fill.2 hreaches]
            exact contained_nil 32
          · exact contained_nil 32
        · split
          · exact hwipe
          · exact contained_nil 32

theorem openReadKeysAccesses_fill {env : KeysEnvironment} {v : Volume}
    {file : Option FileIoHandle} (h : TriesKeySlot L env v) :
    .fill v.masterKeySize ∈ openReadKeysAccesses L env v file := by
  obtain ⟨hbytes, header, hheader, hpreset, hset, hreaches⟩ := h
  rw [openReadKeysAccesses, if_neg hbytes, hheader]
  simp only [hpreset, hset, and_self, if_true]
  exact List.mem_append_left _ (tryKeySlotsAccesses_fill.1 hreaches)

/-! ## The bound -/

/-- The buffer of 32 bytes contains the user keys of an attempt to unlock, with every byte of them
wiped at its end, exactly when the master key has at most 32 bytes or no user key is derived. -/
theorem userKeys_contained_iff (L : Libraries) (env : KeysEnvironment) (v : Volume)
    (file : Option FileIoHandle) :
    Contained userKeySize (openReadKeysAccesses L env v file) ↔
      v.masterKeySize ≤ 32 ∨ ¬ TriesKeySlot L env v := by
  constructor
  · intro hcontained
    by_contra hno
    rw [not_or, not_not] at hno
    exact hno.1 (hcontained.1 _ (openReadKeysAccesses_fill hno.2))
  · rintro (hsize | htries)
    · exact openReadKeysAccesses_contained hsize
    · exact openReadKeysAccesses_of_not_tries htries

theorem length_oneKeySlot : (passwordSlot 8 :: List.replicate 7 inactiveSlot).length = 8 := rfl

/-- The small volume with a master key of 64 bytes, and a password in the first key slot. -/
def longMasterKeyFile : FileIoHandle :=
  volumeFile { smallRecord with
    masterKeySize := 64
    keySlots := passwordSlot 8 :: List.replicate 7 inactiveSlot
    length_keySlots := length_oneKeySlot } smallData length_smallData

/-- The header is accepted, and a user key of 64 bytes is derived in the buffer of 32 bytes. -/
theorem longMasterKey_not_contained :
    let v := openReadHeader smallLibraries {}
      (volumeAfter smallLibraries [.setUtf8Password {} smallPassword]) longMasterKeyFile
    v.2 = true ∧ v.1.masterKeySize = 64 ∧
    .fill 64 ∈ openReadKeysAccesses smallLibraries {} v.1 (some longMasterKeyFile) ∧
    ¬ Contained userKeySize
      (openReadKeysAccesses smallLibraries {} v.1 (some longMasterKeyFile)) := by
  intro v
  have hfill : v.2 = true ∧ v.1.masterKeySize = 64 ∧
      .fill 64 ∈ openReadKeysAccesses smallLibraries {} v.1 (some longMasterKeyFile) := by
    decide +kernel
  refine ⟨hfill.1, hfill.2.1, hfill.2.2, fun hcontained => ?_⟩
  exact absurd (hcontained.1 _ hfill.2.2) (by decide)

end Libluksde
