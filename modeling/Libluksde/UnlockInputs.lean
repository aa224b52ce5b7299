import Libluksde.UnlockSpec

/-!
# What an attempt to unlock depends on

Of the volume an attempt reads the header, the sizes, the password and, where it is flagged as
set, the master key.  What else is in the buffer of the master key has no influence, although
every key slot is merged into it.
-/

namespace Libluksde

open Lib.Bytes

variable {L : Libraries}

/-! ## Merging -/

@[simp] theorem length_mergeStripes (fails : ℕ → Bool) (splitData : List UInt8)
    (h : HashingMethod) (n offset : ℕ) (data : List UInt8)
    (hlength : offset + (n + 1) * data.length ≤ splitData.length) :
    (mergeStripes L fails splitData h n offset data).1.length = data.length := by
  induction n generalizing offset data with
  | zero =>
    rw [mergeStripes, length_xor, length_slice_of_le (by omega), Nat.min_self]
  | succ n ih =>
    have hstep : offset + data.length ≤ splitData.length := by
      rw [Nat.add_mul, Nat.one_mul] at hlength
      omega
    have hlen : (diffuserDiffuse L (fails n) (xor data (slice offset data.length splitData))
        h).1.length = data.length := by
      rw [length_diffuserDiffuse, length_xor, length_slice_of_le hstep, Nat.min_self]
    rw [mergeStripes]
    split
    · rename_i diffused hdiffuse
      rw [hdiffuse] at hlen
      exact hlen
    · rename_i diffused hdiffuse
      rw [hdiffuse] at hlen
      simp only at hlen
      have hrest : offset + data.length + (n + 1) * diffused.length ≤ splitData.length := by
        rw [hlen]
        rw [Nat.add_mul (n + 1) 1, Nat.one_mul] at hlength
        omega
      rw [ih _ _ hrest, hlen]

/-- The merge keeps the size of the buffer, whether it succeeds or not. -/
@[simp] theorem length_diffuserMerge (fails : ℕ → Bool) (splitData data : List UInt8) (n : ℕ)
    (h : HashingMethod) : (diffuserMerge L fails splitData data n h).1.length = data.length := by
  unfold diffuserMerge
  split_ifs with hsplit hdata hstripes
  · rfl
  · rfl
  · rfl
  · have hpos : 0 < data.length := by omega
    have hfits : n * data.length ≤ splitData.length :=
      (Nat.le_div_iff_mul_le hpos).1 (by omega)
    have hcount : n - 1 + 1 = n := by omega
    rw [length_mergeStripes]
    · rw [List.length_replicate]
    · rw [List.length_replicate, hcount]
      omega

/-- The merge only looks at the size of the buffer, and where it succeeds it fills it. -/
theorem diffuserMerge_congr (fails : ℕ → Bool) (splitData : List UInt8) {data data' : List UInt8}
    (hlength : data'.length = data.length) (n : ℕ) (h : HashingMethod) :
    (diffuserMerge L fails splitData data' n h).2 = (diffuserMerge L fails splitData data n h).2 ∧
      ((diffuserMerge L fails splitData data n h).2 = true →
        (diffuserMerge L fails splitData data' n h).1 =
            (diffuserMerge L fails splitData data n h).1 ∧
          (diffuserMerge L fails splitData data n h).1.length = data.length) := by
  unfold diffuserMerge
  rw [hlength]
  split
  · exact ⟨rfl, fun hno => (by cases hno)⟩
  · split
    · exact ⟨rfl, fun hno => (by cases hno)⟩
    · rename_i hsplit hdata
      split
      · exact ⟨rfl, fun hno => (by cases hno)⟩
      · rename_i hstripes
        refine ⟨rfl, fun _ => ⟨rfl, ?_⟩⟩
        have hlength := length_diffuserMerge (L := L) fails splitData data n h
        rw [diffuserMerge, if_neg hsplit, if_neg hdata, if_neg hstripes] at hlength
        exact hlength

/-! ## The key slot loop -/

/-- The variables of the key slot loop agree but for the buffer of the master key. -/
structure SameSlots (s t : SlotLoop) : Prop where
  keySlots : t.keySlots = s.keySlots
  keyMaterialDataOffset : t.keyMaterialDataOffset = s.keyMaterialDataOffset

/-- Rounds, or loops, that end in the same way; where the master key is found, it is the same. -/
structure SameRound (n : ℕ) (r r' : SlotLoop × SlotResult) : Prop where
  slots : SameSlots r.1 r'.1
  result : r'.2 = r.2
  masterKey : r.2 = .found → r'.1.masterKey.bytes.take n = r.1.masterKey.bytes.take n

theorem SameRound.error {n : ℕ} {s t : SlotLoop} (h : SameSlots s t) :
    SameRound n (s, .error) (t, .error) := ⟨h, rfl, fun hno => (by cases hno)⟩

theorem SameRound.next {n : ℕ} {s t : SlotLoop} (h : SameSlots s t) :
    SameRound n (s, .next) (t, .next) := ⟨h, rfl, fun hno => (by cases hno)⟩

theorem mergeSplitMasterKey_same (env : SlotEnvironment) (header : VolumeHeader) (n : ℕ)
    (stripes : ℕ) (split : List UInt8) {s t : SlotLoop} (h : SameSlots s t) :
    SameRound n (mergeSplitMasterKey L env header n stripes split s)
      (mergeSplitMasterKey L env header n stripes split t) := by
  have hlength : (t.masterKey.bytes.take n).length = (s.masterKey.bytes.take n).length := by simp
  obtain ⟨hsame, hmerged⟩ := diffuserMerge_congr (L := L) env.mergeFails split hlength
    stripes header.hashingMethod
  unfold mergeSplitMasterKey
  generalize diffuserMerge L env.mergeFails split (s.masterKey.bytes.take n) stripes
    header.hashingMethod = r at hsame hmerged ⊢
  generalize diffuserMerge L env.mergeFails split (t.masterKey.bytes.take n) stripes
    header.hashingMethod = r' at hsame hmerged ⊢
  obtain ⟨data, merged⟩ := r
  obtain ⟨data', merged'⟩ := r'
  simp only at hsame hmerged ⊢
  subst hsame
  cases merged' with
  | false => exact .error ⟨h.1, h.2⟩
  | true =>
    obtain ⟨rfl, hdata⟩ := hmerged rfl
    -- both buffers begin with the merged data, which fills the places of the master key
    have htake : ∀ buffer : Buffer 64, (buffer.write 0 data').bytes.take n = data' :=
      fun buffer => buffer.take_write_of_length (by rw [hdata, List.length_take, Buffer.length_eq])
    simp only [Bool.true_eq_false, if_false, htake]
    cases masterKeyIsValid L env.validationFails header data' with
    | none => exact .error ⟨h.1, h.2⟩
    | some valid =>
      cases valid with
      | false => exact .next ⟨h.1, h.2⟩
      | true => exact ⟨⟨h.1, h.2⟩, rfl, fun _ => by rw [htake, htake]⟩

theorem tryKeySlot_same (env : SlotEnvironment) (header : VolumeHeader) (bytesPerSector n : ℕ)
    (password : Option (List UInt8)) (file : Option FileIoHandle) (i : ℕ)
    {s t : SlotLoop} (h : SameSlots s t) :
    SameRound n (tryKeySlot L env header bytesPerSector n password file i s)
      (tryKeySlot L env header bytesPerSector n password file i t) := by
  unfold tryKeySlot
  rw [h.keySlots, h.keyMaterialDataOffset]
  split
  · exact .error h
  · split
    · exact .next h
    · split
      · exact .error h
      · simp only
        split
        · exact .error ⟨rfl, rfl⟩
        · exact mergeSplitMasterKey_same env header n _ _ ⟨rfl, rfl⟩

theorem tryKeySlots_same (env : KeysEnvironment) (header : VolumeHeader) (bytesPerSector n : ℕ)
    (password : Option (List UInt8)) (file : Option FileIoHandle)
    (m i : ℕ) {s t : SlotLoop} (h : SameSlots s t) :
    SameRound n (tryKeySlots L env header bytesPerSector n password file m i s)
      (tryKeySlots L env header bytesPerSector n password file m i t) := by
  induction m generalizing i s t with
  | zero => exact .next h
  | succ m ih =>
    have hround := tryKeySlot_same (L := L) (env.slot i) header bytesPerSector n password file i h
    rw [tryKeySlots, tryKeySlots]
    generalize tryKeySlot L (env.slot i) header bytesPerSector n password file i s = r
      at hround ⊢
    generalize tryKeySlot L (env.slot i) header bytesPerSector n password file i t = r'
      at hround ⊢
    obtain ⟨s', result⟩ := r
    obtain ⟨t', result'⟩ := r'
    obtain ⟨hslots, hresult, hkey⟩ := hround
    simp only at hslots hresult hkey ⊢
    subst hresult
    cases result' with
    | next => exact ih (i + 1) hslots
    | error => exact .error hslots
    | found => exact ⟨hslots, rfl, hkey⟩

/-! ## An attempt -/

/-- Two volumes that agree on what an attempt reads. -/
structure SameInputs (s t : Volume) : Prop where
  bytesPerSector : t.ioHandle.bytesPerSector = s.ioHandle.bytesPerSector
  volumeHeader : t.volumeHeader = s.volumeHeader
  masterKeySize : t.masterKeySize = s.masterKeySize
  isSet : t.volumeMasterKeyIsSet = s.volumeMasterKeyIsSet
  masterKey : s.volumeMasterKeyIsSet = true →
    t.masterKey.bytes.take s.masterKeySize = s.masterKey.bytes.take s.masterKeySize
  userPasswordIsSet : t.userPasswordIsSet = s.userPasswordIsSet
  password : t.password = s.password
  encryptionContext : t.encryptionContext = s.encryptionContext

theorem createVolumeContext_same (env : KeysEnvironment) (header : VolumeHeader) {s t : Volume}
    (h : SameInputs s t) :
    (createVolumeContext L env t header).2 = (createVolumeContext L env s header).2 ∧
      SameInputs (createVolumeContext L env s header).1
        (createVolumeContext L env t header).1 := by
  unfold createVolumeContext
  by_cases hcreate : s.volumeMasterKeyIsSet = true ∧ s.encryptionContext = none
  · have hkey : t.masterKey.bytes.take t.masterKeySize = s.masterKey.bytes.take s.masterKeySize := by
      rw [h.masterKeySize, h.masterKey hcreate.1]
    rw [if_pos hcreate, if_pos (by rwa [h.isSet, h.encryptionContext]), hkey]
    cases createContext L env.contextFails env.setKeyFails header
      (s.masterKey.bytes.take s.masterKeySize) with
    | none => exact ⟨rfl, h⟩
    | some context => exact ⟨rfl, h.1, h.2, h.3, h.4, h.5, h.6, h.7, rfl⟩
  · rw [if_neg hcreate, if_neg (by rwa [h.isSet, h.encryptionContext]), h.encryptionContext]
    split
    · exact ⟨rfl, h⟩
    · exact ⟨rfl, h⟩

theorem presetKeyIsValid_same (env : KeysEnvironment) (header : VolumeHeader) {s t : Volume}
    (h : SameInputs s t) : presetKeyIsValid L env t header = presetKeyIsValid L env s header := by
  unfold presetKeyIsValid
  rw [h.isSet]
  by_cases hset : s.volumeMasterKeyIsSet = true
  · rw [if_pos hset, if_pos hset, h.masterKeySize, h.masterKey hset]
  · rw [if_neg hset, if_neg hset]

theorem tryAllKeySlots_same (env : KeysEnvironment) (header : VolumeHeader)
    (file : Option FileIoHandle) {s t : Volume} (h : SameInputs s t) :
    SameRound s.masterKeySize (tryAllKeySlots L env s header file)
      (tryAllKeySlots L env t header file) := by
  unfold tryAllKeySlots
  rw [h.bytesPerSector, h.masterKeySize, h.password]
  exact tryKeySlots_same env header _ _ _ file 8 0 ⟨rfl, rfl⟩

theorem readKeysFromSlots_same (env : KeysEnvironment) (header : VolumeHeader)
    (file : Option FileIoHandle) {s t : Volume} (h : SameInputs s t) :
    (readKeysFromSlots L env t header file).2 = (readKeysFromSlots L env s header file).2 ∧
      SameInputs (readKeysFromSlots L env s header file).1
        (readKeysFromSlots L env t header file).1 := by
  unfold readKeysFromSlots
  by_cases htry : s.volumeMasterKeyIsSet = false ∧ s.userPasswordIsSet = true
  · rw [if_pos htry, if_pos (by rwa [h.isSet, h.userPasswordIsSet])]
    have hloop := tryAllKeySlots_same (L := L) env header file h
    generalize tryAllKeySlots L env s header file = r at hloop ⊢
    generalize tryAllKeySlots L env t header file = r' at hloop ⊢
    obtain ⟨s', result⟩ := r
    obtain ⟨t', result'⟩ := r'
    obtain ⟨hslots, hresult, hkey⟩ := hloop
    simp only at hslots hresult hkey
    subst hresult
    have hafter : SameInputs (s.afterSlots header s' result') (t.afterSlots header t' result') := by
      refine ⟨h.1, ?_, h.3, rfl, fun hfound => hkey (by simpa [Volume.afterSlots] using hfound),
        h.6, h.7, h.8⟩
      simp only [Volume.afterSlots, hslots.keySlots]
    cases result' with
    | error => exact ⟨rfl, hafter⟩
    | next => exact createVolumeContext_same env header hafter
    | found => exact createVolumeContext_same env header hafter
  · rw [if_neg htry, if_neg (by rwa [h.isSet, h.userPasswordIsSet])]
    exact createVolumeContext_same env header h

/-- Volumes that agree on what an attempt reads come to the same result, and still agree. -/
theorem internalVolumeOpenReadKeys_same (env : KeysEnvironment) (file : Option FileIoHandle)
    {s t : Volume} (h : SameInputs s t) :
    (internalVolumeOpenReadKeys L env t file).2 = (internalVolumeOpenReadKeys L env s file).2 ∧
      SameInputs (internalVolumeOpenReadKeys L env s file).1
        (internalVolumeOpenReadKeys L env t file).1 := by
  by_cases hnone : s.ioHandle.bytesPerSector = 0 ∨ s.volumeHeader = none
  · rw [internalVolumeOpenReadKeys_noHeader env file hnone, internalVolumeOpenReadKeys_noHeader env
      file (by rwa [h.bytesPerSector, h.volumeHeader])]
    exact ⟨rfl, h⟩
  · obtain ⟨hbytes, hsome⟩ := not_or.1 hnone
    obtain ⟨header, hheader⟩ := Option.ne_none_iff_exists'.1 hsome
    rw [internalVolumeOpenReadKeys_eq env file hbytes hheader, internalVolumeOpenReadKeys_eq env
      file (by rwa [h.bytesPerSector]) (h.volumeHeader.trans hheader),
      presetKeyIsValid_same env header h]
    cases hpreset : presetKeyIsValid L env s header with
    | none => exact ⟨rfl, h⟩
    | some isSet =>
      have hset : SameInputs { s with volumeMasterKeyIsSet := isSet }
          { t with volumeMasterKeyIsSet := isSet } :=
        ⟨h.1, h.2, h.3, rfl, fun hyes =>
          h.masterKey (presetKeyIsValid_true (hpreset.trans (congrArg some hyes))).1, h.6, h.7,
          h.8⟩
      exact readKeysFromSlots_same env header file hset

/-- The same for `libluksde_internal_volume_unlock`. -/
theorem internalVolumeUnlock_same (env : KeysEnvironment) (file : Option FileIoHandle)
    {s t : Volume} (h : SameInputs s t) :
    (internalVolumeUnlock L env t file).2 = (internalVolumeUnlock L env s file).2 ∧
      SameInputs (internalVolumeUnlock L env s file).1 (internalVolumeUnlock L env t file).1 := by
  obtain ⟨hresult, hsame⟩ := internalVolumeOpenReadKeys_same (L := L) env file h
  unfold internalVolumeUnlock
  generalize internalVolumeOpenReadKeys L env s file = r at hresult hsame ⊢
  generalize internalVolumeOpenReadKeys L env t file = r' at hresult hsame ⊢
  obtain ⟨s', result⟩ := r
  obtain ⟨t', result'⟩ := r'
  simp only at hresult hsame ⊢
  subst hresult
  split
  · exact ⟨rfl, hsame⟩
  · split
    · exact ⟨rfl, hsame.1, hsame.2, hsame.3, hsame.4, hsame.5, hsame.6, hsame.7, hsame.8⟩
    · exact ⟨rfl, hsame⟩

end Libluksde
