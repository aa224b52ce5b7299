import Libluksde.Volume

/-!
# Unlocking

`libluksde_internal_volume_open_read_keys` and its callers: the key that was set is checked,
the key slots are tried with the password, and the encryption context of the volume is
created for the master key.

The variables that live across the rounds of the key slot loop are the fields of `SlotLoop`.
The key slots are shared with the volume header, which the loop changes in place.
-/

namespace Libluksde

open Lib.Bytes

/-- What the surroundings decide in one round of the key slot loop. -/
structure SlotEnvironment where
  entryFails : Bool := false
  passwordFails : Bool := false
  materialAllocationFails : Bool := false
  readFails : Bool := false
  splitAllocationFails : Bool := false
  contextFails : Bool := false
  setKeyFails : Bool := false
  contextFreeFails : Bool := false
  mergeFails : ℕ → Bool := fun _ => false
  validationFails : Bool := false
  /-- The contents of the newly allocated buffer for the split master key. -/
  memory : ℕ → UInt8 := fun _ => 0
  /-- What is in the memory behind the buffer of the key material. -/
  beyond : ℕ → UInt8 := fun _ => 0

/-- What the surroundings decide during an attempt to unlock. -/
structure KeysEnvironment where
  presetFails : Bool := false
  slot : ℕ → SlotEnvironment := fun _ => {}
  contextFails : Bool := false
  setKeyFails : Bool := false

/-- The state `0x00ac71f3` of a key slot in use. -/
def keySlotActive : UInt32 := 0x00ac71f3

/-- The variables of the key slot loop. -/
structure SlotLoop where
  keySlots : List KeySlot
  masterKey : Buffer 64
  keyMaterialDataOffset : ℕ
deriving DecidableEq

/-- How a round of the key slot loop ends: with an error, with the next key slot, or with the
master key found. -/
inductive SlotResult
  | error | next | found
deriving DecidableEq, Repr

variable (L : Libraries)

/-- Whether a master key has the digest that the header gives, or `none` when the key
derivation fails. -/
def masterKeyIsValid (fails : Bool) (header : VolumeHeader) (masterKey : List UInt8) :
    Option Bool :=
  (passwordPbkdf2 L fails (some masterKey) header.hashingMethod header.masterKeySalt.bytes
    header.masterKeyNumberOfIterations.toNat 20).map
      fun digest => digest == header.masterKeyValidationHash.bytes

/-- The encryption context for a key, created and keyed as the header says. -/
def createContext (contextFails setKeyFails : Bool) (header : VolumeHeader)
    (key : List UInt8) : Option EncryptionContext :=
  (encryptionContextInitialize contextFails header.encryptionMethod
    header.encryptionChainingMode header.initializationVectorMode
    header.essivHashingMethod).bind fun context =>
      if setKeyFails then none else encryptionContextSetKey L context key

/-- The `n` bytes of memory from an index of a buffer on. -/
def memoryAt (buffer : List UInt8) (beyond : ℕ → UInt8) (i n : ℕ) : List UInt8 :=
  slice i n buffer ++ ((List.range n).drop (buffer.length - i)).map fun j => beyond (i + j)

/-- The loop that decrypts the key material, sector by sector: the split master key data and
`key_material_data_offset`.  Each round advances the offset by a sector, so that the size of the
key material bounds the number of rounds. -/
def decryptKeyMaterial (beyond : ℕ → UInt8) (bytesPerSector : ℕ) (keyMaterial : List UInt8) :
    ℕ → (context : EncryptionContext) → (splitMasterKey : List UInt8) → (offset : ℕ) →
      (blockKey : UInt64) → Option (List UInt8 × ℕ)
  | 0, _, splitMasterKey, offset, _ => some (splitMasterKey, offset)
  | fuel + 1, context, splitMasterKey, offset, blockKey =>
    if offset < keyMaterial.length then
      match encryptionContextCrypt L context .decrypt
        (memoryAt keyMaterial beyond offset bytesPerSector) bytesPerSector blockKey with
      | none => none
      | some (data, context) =>
        decryptKeyMaterial beyond bytesPerSector keyMaterial fuel context
          (write offset data splitMasterKey) (offset + bytesPerSector) (blockKey + 1)
    else some (splitMasterKey, offset)

/-- The key material of a key slot, with a size that passes the checks. -/
def readKeyMaterial (env : SlotEnvironment) (file : Option FileIoHandle) (masterKeySize : ℕ)
    (keySlot : KeySlot) : Option (List UInt8) :=
  let stripes := keySlot.numberOfStripes.toNat
  if stripes = 0 then none
  else if masterKeySize = 0 ∨ masterKeySize > memoryMaximumAllocationSize / stripes then none
  else if env.materialAllocationFails then none
  else
    match readBufferAtOffset env.readFails file (masterKeySize * stripes)
      keySlot.keyMaterialOffset with
    | none => none
    | some keyMaterial =>
      if keyMaterial.length ≠ masterKeySize * stripes then none else some keyMaterial

/-- The split master key of a key slot: the key material, decrypted with the user key, and
`key_material_data_offset` after the decryption. -/
def readSplitMasterKey (env : SlotEnvironment) (header : VolumeHeader) (bytesPerSector : ℕ)
    (masterKeySize : ℕ) (file : Option FileIoHandle) (keySlot : KeySlot) (userKey : List UInt8)
    (keyMaterialDataOffset : ℕ) : Option (List UInt8 × ℕ) :=
  (readKeyMaterial env file masterKeySize keySlot).bind fun keyMaterial =>
    if env.splitAllocationFails then none
    else
      (createContext L env.contextFails env.setKeyFails header userKey).bind fun context =>
        (decryptKeyMaterial L env.beyond bytesPerSector keyMaterial keyMaterial.length context
          ((List.range keyMaterial.length).map env.memory) keyMaterialDataOffset 0).bind
            fun split => if env.contextFreeFails then none else some split

/-- The end of a round: the split master key is merged into the master key, which is then
validated. -/
def mergeSplitMasterKey (env : SlotEnvironment) (header : VolumeHeader) (masterKeySize : ℕ)
    (numberOfStripes : ℕ) (splitMasterKey : List UInt8) (s : SlotLoop) : SlotLoop × SlotResult :=
  match diffuserMerge L env.mergeFails splitMasterKey (s.masterKey.bytes.take masterKeySize)
    numberOfStripes header.hashingMethod with
  | (data, merged) =>
    let s := { s with masterKey := s.masterKey.write 0 data }
    if merged = false then (s, .error)
    else
      match masterKeyIsValid L env.validationFails header
        (s.masterKey.bytes.take masterKeySize) with
      | none => (s, .error)
      | some true => (s, .found)
      | some false => (s, .next)

/-- However a round ends, the merged data are in the buffer of the master key. -/
theorem mergeSplitMasterKey_fst {L : Libraries} (env : SlotEnvironment)
    (header : VolumeHeader) (masterKeySize numberOfStripes : ℕ) (splitMasterKey : List UInt8)
    (s : SlotLoop) :
    (mergeSplitMasterKey L env header masterKeySize numberOfStripes splitMasterKey s).1 =
      { s with
        masterKey := s.masterKey.write 0 (diffuserMerge L env.mergeFails splitMasterKey
          (s.masterKey.bytes.take masterKeySize) numberOfStripes header.hashingMethod).1 } := by
  rw [mergeSplitMasterKey]
  dsimp only
  split
  · rfl
  · split
    · rfl
    · rfl
    · rfl

@[simp] theorem mergeSplitMasterKey_keySlots {L : Libraries} (env : SlotEnvironment)
    (header : VolumeHeader) (masterKeySize numberOfStripes : ℕ) (splitMasterKey : List UInt8)
    (s : SlotLoop) :
    (mergeSplitMasterKey L env header masterKeySize numberOfStripes splitMasterKey s).1.keySlots =
      s.keySlots := by
  rw [mergeSplitMasterKey_fst]

/-- The key slot with its key material offset in bytes. -/
def KeySlot.inBytes (keySlot : KeySlot) (bytesPerSector : ℕ) : KeySlot :=
  { keySlot with keyMaterialOffset := off64 (keySlot.keyMaterialOffset * bytesPerSector) }

/-- One round of the key slot loop for the key slot at index `i`. -/
def tryKeySlot (env : SlotEnvironment) (header : VolumeHeader) (bytesPerSector : ℕ)
    (masterKeySize : ℕ) (password : Option (List UInt8)) (file : Option FileIoHandle) (i : ℕ)
    (s : SlotLoop) : SlotLoop × SlotResult :=
  match if env.entryFails then none else s.keySlots[i]? with
  | none => (s, .error)
  | some keySlot =>
    if keySlot.state ≠ keySlotActive then (s, .next)
    else
      match passwordPbkdf2 L env.passwordFails password header.hashingMethod keySlot.salt.bytes
        keySlot.numberOfIterations.toNat masterKeySize with
      | none => (s, .error)
      | some userKey =>
        -- the key slot of the header is changed in place
        let keySlot := keySlot.inBytes bytesPerSector
        let s := { s with keySlots := s.keySlots.set i keySlot }
        match readSplitMasterKey L env header bytesPerSector masterKeySize file keySlot userKey
          s.keyMaterialDataOffset with
        | none => (s, .error)
        | some (splitMasterKey, offset) =>
          mergeSplitMasterKey L env header masterKeySize keySlot.numberOfStripes.toNat
            splitMasterKey { s with keyMaterialDataOffset := offset }

/-- What a round does.  It ends where there is no key slot to try or no user key for it, and goes on
behind one that is not in use; in both cases all variables stay.  Behind the derivation of the user
key the key slot is changed, whether or not the split master key can be read. -/
theorem tryKeySlot_cases {L : Libraries} (env : SlotEnvironment) (header : VolumeHeader)
    (bytesPerSector masterKeySize : ℕ) (password : Option (List UInt8))
    (file : Option FileIoHandle) (i : ℕ) (s : SlotLoop) :
    tryKeySlot L env header bytesPerSector masterKeySize password file i s = (s, .error) ∨
    tryKeySlot L env header bytesPerSector masterKeySize password file i s = (s, .next) ∨
    ∃ keySlot userKey, env.entryFails = false ∧ s.keySlots[i]? = some keySlot ∧
      keySlot.state = keySlotActive ∧
      passwordPbkdf2 L env.passwordFails password header.hashingMethod keySlot.salt.bytes
        keySlot.numberOfIterations.toNat masterKeySize = some userKey ∧
      (tryKeySlot L env header bytesPerSector masterKeySize password file i s =
          ({ s with keySlots := s.keySlots.set i (keySlot.inBytes bytesPerSector) }, .error) ∨
        ∃ splitMasterKey offset,
          readSplitMasterKey L env header bytesPerSector masterKeySize file
            (keySlot.inBytes bytesPerSector) userKey s.keyMaterialDataOffset =
              some (splitMasterKey, offset) ∧
          tryKeySlot L env header bytesPerSector masterKeySize password file i s =
            mergeSplitMasterKey L env header masterKeySize
              (keySlot.inBytes bytesPerSector).numberOfStripes.toNat splitMasterKey
              { s with
                keySlots := s.keySlots.set i (keySlot.inBytes bytesPerSector)
                keyMaterialDataOffset := offset }) := by
  rw [tryKeySlot]
  cases hentry : env.entryFails with
  | true => exact Or.inl rfl
  | false =>
    rw [if_neg Bool.false_ne_true]
    cases hslot : s.keySlots[i]? with
    | none => exact Or.inl rfl
    | some keySlot =>
      dsimp only
      by_cases hactive : keySlot.state = keySlotActive
      · rw [if_neg (not_not.2 hactive)]
        cases hkey : passwordPbkdf2 L env.passwordFails password header.hashingMethod
            keySlot.salt.bytes keySlot.numberOfIterations.toNat masterKeySize with
        | none => exact Or.inl rfl
        | some userKey =>
          refine Or.inr (Or.inr ⟨keySlot, userKey, rfl, rfl, hactive, hkey, ?_⟩)
          dsimp only
          cases hread : readSplitMasterKey L env header bytesPerSector masterKeySize file
              (keySlot.inBytes bytesPerSector) userKey s.keyMaterialDataOffset with
          | none => exact Or.inl rfl
          | some split => exact Or.inr ⟨split.1, split.2, rfl, rfl⟩
      · exact Or.inr (Or.inl (if_pos hactive))

/-- What a round does to the key slots. -/
theorem tryKeySlot_keySlots_cases {L : Libraries} (env : SlotEnvironment) (header : VolumeHeader)
    (bytesPerSector masterKeySize : ℕ) (password : Option (List UInt8))
    (file : Option FileIoHandle) (i : ℕ) (s : SlotLoop) :
    (tryKeySlot L env header bytesPerSector masterKeySize password file i s).1.keySlots =
        s.keySlots ∨
    ∃ keySlot userKey, env.entryFails = false ∧ s.keySlots[i]? = some keySlot ∧
      keySlot.state = keySlotActive ∧
      passwordPbkdf2 L env.passwordFails password header.hashingMethod keySlot.salt.bytes
        keySlot.numberOfIterations.toNat masterKeySize = some userKey ∧
      (tryKeySlot L env header bytesPerSector masterKeySize password file i s).1.keySlots =
        s.keySlots.set i (keySlot.inBytes bytesPerSector) := by
  rcases tryKeySlot_cases (L := L) env header bytesPerSector masterKeySize password file i s with
    h | h | ⟨keySlot, userKey, hentry, hslot, hactive, hkey, h | ⟨splitMasterKey, offset, -, h⟩⟩
  · exact Or.inl (by rw [h])
  · exact Or.inl (by rw [h])
  · exact Or.inr ⟨keySlot, userKey, hentry, hslot, hactive, hkey, by rw [h]⟩
  · exact Or.inr ⟨keySlot, userKey, hentry, hslot, hactive, hkey, by
      rw [h, mergeSplitMasterKey_keySlots]⟩

/-- The key slot loop over `n` key slots from index `i` on. -/
def tryKeySlots (env : KeysEnvironment) (header : VolumeHeader) (bytesPerSector : ℕ)
    (masterKeySize : ℕ) (password : Option (List UInt8)) (file : Option FileIoHandle) :
    ℕ → (i : ℕ) → SlotLoop → SlotLoop × SlotResult
  | 0, _, s => (s, .next)
  | n + 1, i, s =>
    match tryKeySlot L (env.slot i) header bytesPerSector masterKeySize password file i s with
    | (s, .next) => tryKeySlots env header bytesPerSector masterKeySize password file n (i + 1) s
    | (s, result) => (s, result)

/-- The last part of `libluksde_internal_volume_open_read_keys`: the encryption context of the
volume. -/
def createVolumeContext (env : KeysEnvironment) (volume : Volume) (header : VolumeHeader) :
    Volume × ℤ :=
  if volume.volumeMasterKeyIsSet ∧ volume.encryptionContext = none then
    match createContext L env.contextFails env.setKeyFails header
      (volume.masterKey.bytes.take volume.masterKeySize) with
    | none => (volume, -1)
    | some context => ({ volume with encryptionContext := some context }, 1)
  else if volume.encryptionContext ≠ none then (volume, 1)
  else (volume, 0)

/-- The validation of the key that was set: whether it holds, or `none` when the key
derivation fails. -/
def presetKeyIsValid (env : KeysEnvironment) (volume : Volume) (header : VolumeHeader) :
    Option Bool :=
  if volume.volumeMasterKeyIsSet then
    masterKeyIsValid L env.presetFails header (volume.masterKey.bytes.take volume.masterKeySize)
  else some false

/-- The bytes of the password that are used, without the end of string. -/
def Volume.password (volume : Volume) : Option (List UInt8) :=
  volume.userPassword.map fun password => password.take (volume.userPasswordSize - 1)

/-- The key slot loop of `libluksde_internal_volume_open_read_keys`, from its initial
variables. -/
def tryAllKeySlots (env : KeysEnvironment) (volume : Volume) (header : VolumeHeader)
    (file : Option FileIoHandle) : SlotLoop × SlotResult :=
  tryKeySlots L env header volume.ioHandle.bytesPerSector volume.masterKeySize volume.password
    file 8 0 ⟨header.keySlotsArray, volume.masterKey, 0⟩

/-- The volume after the key slot loop. -/
def Volume.afterSlots (volume : Volume) (header : VolumeHeader) (s : SlotLoop)
    (result : SlotResult) : Volume :=
  { volume with
    volumeHeader := some { header with keySlotsArray := s.keySlots }
    masterKey := s.masterKey
    volumeMasterKeyIsSet := result = .found }

/-- `libluksde_internal_volume_open_read_keys` behind the validation of the key that was set:
the key slots are tried unless the key holds, and the encryption context is created. -/
def readKeysFromSlots (env : KeysEnvironment) (volume : Volume) (header : VolumeHeader)
    (file : Option FileIoHandle) : Volume × ℤ :=
  if volume.volumeMasterKeyIsSet = false ∧ volume.userPasswordIsSet then
    match tryAllKeySlots L env volume header file with
    | (s, .error) => (volume.afterSlots header s .error, -1)
    | (s, result) => createVolumeContext L env (volume.afterSlots header s result) header
  else createVolumeContext L env volume header

/-- `libluksde_internal_volume_open_read_keys` -/
def internalVolumeOpenReadKeys (env : KeysEnvironment) (volume : Volume)
    (file : Option FileIoHandle) : Volume × ℤ :=
  if volume.ioHandle.bytesPerSector = 0 then (volume, -1)
  else
    match volume.volumeHeader with
    | none => (volume, -1)
    | some header =>
      match presetKeyIsValid L env volume header with
      | none => (volume, -1)
      | some isSet =>
        readKeysFromSlots L env { volume with volumeMasterKeyIsSet := isSet } header file

/-- `libluksde_internal_volume_unlock` -/
def internalVolumeUnlock (env : KeysEnvironment) (volume : Volume)
    (file : Option FileIoHandle) : Volume × ℤ :=
  match internalVolumeOpenReadKeys L env volume file with
  | (volume, result) =>
    if result = -1 then (volume, -1)
    else if result ≠ 0 then ({ volume with isLocked := false }, result)
    else (volume, result)

/-- `libluksde_volume_unlock` -/
def volumeUnlock (env : KeysEnvironment) (volume : Volume) : Volume × ℤ :=
  if volume.isLocked then internalVolumeUnlock L env volume volume.fileIoHandle else (volume, 1)

end Libluksde
