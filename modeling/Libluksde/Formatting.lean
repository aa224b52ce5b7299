import Libluksde.UnlockCompleteness
import Libluksde.CryptRoundTrip
import Libluksde.VolumeContent

/-!
# Formatted images

A volume from the side of the program that formats it: a header, key material from which a password
gets the master key, and a content that is encrypted with it.  What the library opens and reads is
that content.
-/

namespace Libluksde

open Lib.Bytes Lib.Blocks Lib.Machine Lib.FileReader Lib.Refinement

variable {L : Libraries}

/-! ## Encrypted data -/

/-- Data and what is on disk of it: every sector is encrypted with its number. -/
structure EncryptsTo (L : Libraries) (context : EncryptionContext) (data region : List UInt8) :
    Prop where
  length : region.length = data.length
  wholeSectors : 512 ∣ data.length
  sector : ∀ k, 512 * k < data.length → ∃ context',
    encryptionContextCrypt L context .encrypt (slice (512 * k) 512 data) 512 (UInt64.ofNat k) =
      some (slice (512 * k) 512 region, context')

/-- The modes of a header with a block cipher and an initialization vector. -/
structure VolumeHeader.HasBlockCipher (header : VolumeHeader) : Prop where
  cipher : (selectEncryptionMode header.encryptionMethod
    header.encryptionChainingMode).IsBlockCipher
  vector : header.initializationVectorMode.IsSupported

section

variable {header : VolumeHeader} {key : List UInt8} {context : EncryptionContext}

/-- What the creation of a context says about the key and the modes. -/
theorem createContext_keyed (hcreated : createContext L false false header key = some context) :
    keySizeAccepted L key.length
        (selectEncryptionMode header.encryptionMethod header.encryptionChainingMode) = true ∧
      (header.initializationVectorMode = .essiv →
        selectEncryptionMode header.encryptionMethod header.encryptionChainingMode = .aesCbc ∨
        selectEncryptionMode header.encryptionMethod header.encryptionChainingMode = .aesEcb) ∧
      context = keyedContext L
        (selectEncryptionMode header.encryptionMethod header.encryptionChainingMode)
        header.initializationVectorMode header.essivHashingMethod key := by
  have hsome : (createContext L false false header key).isSome = true := by
    rw [hcreated]
    rfl
  obtain ⟨hinitialized, -, hkey⟩ := (createContext_isSome header key).1 hsome
  obtain ⟨initialized, hinitialized⟩ := Option.isSome_iff_exists.1 hinitialized
  obtain ⟨-, -, hmode, -, -, hessiv⟩ := encryptionContextInitialize_spec hinitialized
  rw [hmode] at hessiv
  exact ⟨hkey, hessiv, createContext_eq hcreated⟩

/-- A sector that was encrypted is decrypted, and the context stays as it is. -/
theorem crypt_encrypted (hL : L.RoundTrip) (hheader : header.HasBlockCipher)
    (hcreated : createContext L false false header key = some context) {data : List UInt8}
    (hdata : data.length = 512) (sectorNumber : UInt64) :
    ∃ region, encryptionContextCrypt L context .encrypt data 512 sectorNumber =
        some (region, context) ∧
      encryptionContextCrypt L context .decrypt region 512 sectorNumber = some (data, context) := by
  obtain ⟨hkey, hessiv, rfl⟩ := createContext_keyed hcreated
  obtain ⟨iv, hiv⟩ := initializationVector_keyedContext (L := L) _ _ header.essivHashingMethod key
    hheader.vector hessiv sectorNumber
  have hlimit : 512 ≤ 512 ∧ 512 ≤ ssizeMax := by decide
  exact keyedContext_roundTrip hL hheader.cipher hkey hiv .encrypt
    ⟨by omega, by rw [hdata]; decide⟩ (by rw [hdata]; exact hlimit) (by rw [hdata]; exact hlimit)

/-- The context of a block cipher decrypts every sector, and keeps no state. -/
theorem crypt_decrypts (hL : L.RoundTrip) (hheader : header.HasBlockCipher)
    (hcreated : createContext L false false header key = some context) :
    ¬ context.IsRc4 ∧ ∀ input sectorNumber, input.length = 512 → ∃ output context',
      encryptionContextCrypt L context .decrypt input 512 sectorNumber =
        some (output, context') := by
  obtain ⟨hkey, hessiv, rfl⟩ := createContext_keyed hcreated
  constructor
  · rw [EncryptionContext.IsRc4, keyedContext_encryptionMode]
    rintro (hrc4 | hrc4)
    · exact hheader.cipher.2.1 hrc4
    · exact hheader.cipher.2.2 hrc4
  · intro input sectorNumber hinput
    obtain ⟨iv, hiv⟩ := initializationVector_keyedContext (L := L) _ _ header.essivHashingMethod
      key hheader.vector hessiv sectorNumber
    have hlimit : input.length ≤ 512 ∧ 512 ≤ ssizeMax := ⟨hinput.le, by decide⟩
    have hwhole : WholeBlocks input := ⟨by omega, by rw [hinput]; decide⟩
    obtain ⟨output, hcrypt, -⟩ := keyedContext_roundTrip hL hheader.cipher hkey hiv .decrypt hwhole
      hlimit hlimit
    exact ⟨output, _, hcrypt⟩

/-- The sectors of encrypted data decrypt to those of the data. -/
theorem EncryptsTo.decrypted (hL : L.RoundTrip) (hheader : header.HasBlockCipher)
    (hcreated : createContext L false false header key = some context) {data region : List UInt8}
    (h : EncryptsTo L context data region) {k : ℕ} (hk : 512 * k < data.length) :
    encryptionContextCrypt L context .decrypt (slice (512 * k) 512 region) 512 (UInt64.ofNat k) =
      some (slice (512 * k) 512 data, context) := by
  have hwhole := h.wholeSectors
  obtain ⟨context', hsector⟩ := h.sector k hk
  have hlength : (slice (512 * k) 512 data).length = 512 := length_slice_of_le (by omega)
  obtain ⟨encrypted, hforth, hback⟩ := crypt_encrypted hL hheader hcreated hlength (UInt64.ofNat k)
  rw [hforth, Option.some.injEq, Prod.mk.injEq] at hsector
  rw [← hsector.1]
  exact hback

/-- Encrypted data is decrypted sector by sector. -/
theorem EncryptsTo.decryptSectors (hL : L.RoundTrip) (hheader : header.HasBlockCipher)
    (hcreated : createContext L false false header key = some context) {data region : List UInt8}
    (h : EncryptsTo L context data region) {n i : ℕ} (hn : data.length = 512 * (i + n)) :
    Libluksde.decryptSectors L n context (UInt64.ofNat i) (region.drop (512 * i)) =
      some (data.drop (512 * i)) := by
  induction n generalizing i with
  | zero =>
    rw [Libluksde.decryptSectors, List.drop_eq_nil_of_le (by omega)]
  | succ n ih =>
    have hsector := h.decrypted hL hheader hcreated (k := i) (by omega)
    have hnumber : UInt64.ofNat i + 1 = UInt64.ofNat (i + 1) := (UInt64.ofNat_add i 1).symm
    have hrest := ih (i := i + 1) (by omega)
    rw [Nat.mul_succ] at hrest
    have hfirst : (region.drop (512 * i)).take 512 = slice (512 * i) 512 region := rfl
    rw [Libluksde.decryptSectors, hfirst, hsector, Option.bind_some, hnumber, List.drop_drop, hrest,
      Option.map_some, slice, ← List.drop_drop, List.take_append_drop]

end

/-! ## Key slots and images -/

/-- A key slot that was filled for a password: the master key is split in stripes, and they are
encrypted with the user key that is derived from the password. -/
structure FilledFor (L : Libraries) (header : VolumeHeader) (masterKey image password : List UInt8)
    (keySlot : KeySlot) : Prop where
  active : keySlot.state = keySlotActive
  allocation : masterKey.length ≤ memoryMaximumAllocationSize / keySlot.numberOfStripes.toNat
  material : ∃ (stripes : List (Buffer masterKey.length)) (userKey : List UInt8)
      (context : EncryptionContext),
    stripes.length + 1 = keySlot.numberOfStripes.toNat ∧
    passwordPbkdf2 L false (some password) header.hashingMethod keySlot.salt.bytes
      keySlot.numberOfIterations.toNat masterKey.length = some userKey ∧
    createContext L false false header userKey = some context ∧
    EncryptsTo L context (splitKey L header.hashingMethod stripes ⟨masterKey, rfl⟩)
      (slice (keySlot.keyMaterialOffset.toNat * 512) (keySlot.keyMaterialSize masterKey.length)
        image)

/-- The image of a volume that was formatted with a header, a master key and a content: the header
is at its beginning, with the digest of the master key, and the content is encrypted with the
master key from the start sector on. -/
structure Formatted (L : Libraries) (record : HeaderRecord) (identifier : Buffer 16)
    (masterKey content image : List UInt8) : Prop where
  header : image.take 592 = encodeHeader record
  length : 4096 ≤ image.length
  identified : L.identifierFromUtf8String record.volumeIdentifier.bytes = some identifier
  blockCipher : (record.volumeHeader identifier).HasBlockCipher
  masterKeySize : masterKey.length = record.masterKeySize.toNat ∧ 0 < masterKey.length ∧
    masterKey.length ≤ 64
  digest : passwordPbkdf2 L false (some masterKey) (record.volumeHeader identifier).hashingMethod
    record.masterKeySalt.bytes record.masterKeyNumberOfIterations.toNat 20 =
      some record.masterKeyValidationHash.bytes
  nonempty : 0 < content.length
  data : ∃ context,
    createContext L false false (record.volumeHeader identifier) masterKey = some context ∧
    EncryptsTo L context content (image.drop (record.encryptedVolumeStartSector.toNat * 512))

section

variable {record : HeaderRecord} {identifier : Buffer 16}
  {masterKey content image password : List UInt8} {keySlot : KeySlot}

/-- The digest of the header validates the master key. -/
theorem Formatted.valid (h : Formatted L record identifier masterKey content image) :
    masterKeyIsValid L false (record.volumeHeader identifier) masterKey = some true := by
  have hdigest : passwordPbkdf2 L false (some masterKey)
      (record.volumeHeader identifier).hashingMethod
      (record.volumeHeader identifier).masterKeySalt.bytes
      (record.volumeHeader identifier).masterKeyNumberOfIterations.toNat 20 =
        some (record.volumeHeader identifier).masterKeyValidationHash.bytes := h.digest
  rw [masterKeyIsValid, hdigest]
  simp

/-- The hashing method of a formatted volume is supported. -/
theorem Formatted.hashSize (h : Formatted L record identifier masterKey content image) :
    Libluksde.hashSize (record.volumeHeader identifier).hashingMethod ≠ none := by
  obtain ⟨n, hn⟩ := hashSize_of_masterKeyIsValid h.valid
  rw [hn]
  exact Option.some_ne_none n

/-- The place of the content. -/
theorem Formatted.place (h : Formatted L record identifier masterKey content image) :
    record.encryptedVolumeStartSector.toNat * 512 + content.length = image.length ∧
      512 ∣ content.length := by
  obtain ⟨context, -, hdata⟩ := h.data
  have hlength := hdata.length
  have hcontent := h.nonempty
  rw [List.length_drop] at hlength
  exact ⟨by omega, hdata.wholeSectors⟩

/-- The header of a formatted image is accepted. -/
theorem Formatted.headerOf {file : FileIoHandle}
    (h : Formatted L record identifier masterKey content file.image) (hopen : file.isOpen = true) :
    HeaderOf L {} file (record.volumeHeader identifier) := by
  have hlarge := h.length
  have hplace := h.place
  have hcontent := h.nonempty
  obtain ⟨hsize, hpositive, hmax⟩ := h.masterKeySize
  have htake : file.image.take 4096 = encodeHeader record ++ (file.image.drop 592).take 3504 := by
    rw [← h.header, ← List.take_add]
  have hread : file.readBufferAtOffset 4096 0 =
      some (encodeHeader record ++ (file.image.drop 592).take 3504) := by
    rw [FileIoHandle.readBufferAtOffset, if_pos ⟨hopen, le_rfl⟩, Int.toNat_zero, slice,
      List.drop_zero, htake]
  refine ⟨?_, ⟨?_, ?_⟩, ?_⟩
  · rw [volumeHeaderReadFileIoHandle, if_neg (by decide), hread]
    simp only
    rw [if_neg]
    · exact volumeHeaderReadData_encode L record h.identified ⟨by decide, by decide⟩
    · rw [← htake, List.length_take]
      omega
  · show record.masterKeySize.toNat ≠ 0
    omega
  · show record.masterKeySize.toNat ≤ 64
    omega
  · show record.encryptedVolumeStartSector.toNat < file.image.length / 512
    omega

/-- The key material of a filled key slot is inside of the image. -/
theorem FilledFor.fits {header : VolumeHeader} {file : FileIoHandle}
    (h : FilledFor L header masterKey file.image password keySlot)
    (hpositive : 0 < masterKey.length) : KeySlotFits masterKey.length file keySlot := by
  obtain ⟨stripes, userKey, context, hstripes, -, -, hmaterial⟩ := h.material
  have hsplit : (splitKey L header.hashingMethod stripes ⟨masterKey, rfl⟩).length =
      keySlot.keyMaterialSize masterKey.length := by
    rw [splitKey, List.length_append, length_stripesBytes, Buffer.length_eq,
      KeySlot.keyMaterialSize, ← hstripes, Nat.mul_succ, Nat.mul_comm]
  have hlength := hmaterial.length
  have hwhole := hmaterial.wholeSectors
  have hsize : 0 < keySlot.keyMaterialSize masterKey.length := by
    rw [KeySlot.keyMaterialSize, ← hstripes]
    exact Nat.mul_pos hpositive (Nat.succ_pos _)
  rw [hsplit] at hlength hwhole
  rw [length_slice] at hlength
  exact ⟨by omega, Nat.mod_eq_zero_of_dvd hwhole, h.allocation, by omega⟩

/-- The password of a filled key slot opens it, and gets the master key. -/
theorem FilledFor.opensWith (hL : L.RoundTrip) {file : FileIoHandle}
    (hformatted : Formatted L record identifier masterKey content file.image)
    (h : FilledFor L (record.volumeHeader identifier) masterKey file.image password keySlot) :
    OpensWith L (record.volumeHeader identifier) password file keySlot masterKey := by
  obtain ⟨hsize, hpositive, hmax⟩ := hformatted.masterKeySize
  have hfits := h.fits hpositive
  obtain ⟨stripes, userKey, context, hstripes, huser, hcreated, hmaterial⟩ := h.material
  have hsplit : (splitKey L (record.volumeHeader identifier).hashingMethod stripes
      ⟨masterKey, rfl⟩).length = keySlot.keyMaterialSize masterKey.length := by
    rw [splitKey, List.length_append, length_stripesBytes, Buffer.length_eq,
      KeySlot.keyMaterialSize, ← hstripes, Nat.mul_succ, Nat.mul_comm]
  have hsectors := hfits.sectors
  have hdecrypted := hmaterial.decryptSectors hL hformatted.blockCipher hcreated (i := 0)
    (n := keySlot.keyMaterialSize masterKey.length / 512) (by omega)
  rw [Nat.mul_zero, List.drop_zero, List.drop_zero] at hdecrypted
  have hmks : (record.volumeHeader identifier).masterKeySize.toNat = masterKey.length := hsize.symm
  refine ⟨h.active, by rw [hmks]; exact hfits.inside, ?_, hformatted.valid⟩
  rw [hmks, slotKey, slotKeyFrom, splitMasterKeyFrom, huser, Option.bind_some, hcreated,
    Option.bind_some, Nat.sub_zero, List.drop_zero]
  have hzero : UInt64.ofNat 0 = 0 := rfl
  rw [hzero] at hdecrypted
  rw [hdecrypted, Option.map_some, List.take_zero, List.nil_append, Option.bind_some, mergedKey]
  -- merging inverts splitting
  have hle := hfits.le_ssizeMax
  have hzeros : (List.replicate masterKey.length (0 : UInt8)).length = masterKey.length :=
    List.length_replicate
  have hmerge := diffuserMerge_split (L := L) hformatted.hashSize ⟨hpositive, by omega⟩ stripes
    ⟨masterKey, rfl⟩ [] hzeros (by
      rw [hstripes, List.length_nil, Nat.add_zero, Nat.mul_comm]
      exact hle)
  rw [List.append_nil, hstripes] at hmerge
  rw [hmerge]

end

/-! ## Opening -/

/-- The loop passes the key slots that are not in use, and finds the master key in the first one
that is, if the password opens it. -/
theorem tryKeySlots_firstActive {header : VolumeHeader} {password key : List UInt8}
    {file : FileIoHandle} {keySlot : KeySlot} {i : ℕ}
    (hopens : OpensWith L header password file keySlot key)
    (hi : header.keySlotsArray[i]? = some keySlot)
    (hbefore : ∀ j < i, ∀ other : KeySlot, header.keySlotsArray[j]? = some other →
      other.state ≠ keySlotActive)
    (hmks : 0 < header.masterKeySize.toNat ∧ header.masterKeySize.toNat ≤ 64)
    (hopen : file.isOpen = true) (hfits : KeySlotFits header.masterKeySize.toNat file keySlot)
    (hoffset : 0 ≤ keySlot.keyMaterialOffset ∧ keySlot.keyMaterialOffset < 2 ^ 32)
    (memory beyond : ℕ → ℕ → UInt8) {n j : ℕ} (hj : j ≤ i) (hn : i < j + n)
    (masterKey : Buffer 64) :
    ∃ s, tryKeySlots L (reliable memory beyond) header 512 header.masterKeySize.toNat
        (some password) (some file) n j ⟨header.keySlotsArray, masterKey, 0⟩ = (s, .found) ∧
      s.masterKey = masterKey.write 0 key := by
  induction n generalizing j with
  | zero => omega
  | succ n ih =>
    rw [tryKeySlots, show (reliable memory beyond).slot j = surroundings (memory j) (beyond j)
      from rfl]
    rcases Nat.eq_or_lt_of_le hj with rfl | hlt
    · -- the key slot in use
      have hround := (tryKeySlot_active (L := L) header password hmks hopen
        (s := ⟨header.keySlotsArray, masterKey, 0⟩) hi hopens.active hfits hoffset rfl (memory j)
        (beyond j)).2 key hopens.derived
      rw [hround, hopens.valid]
      exact ⟨_, rfl, rfl⟩
    · obtain ⟨other, ho⟩ : ∃ other, header.keySlotsArray[j]? = some other :=
        ⟨_, List.getElem?_eq_getElem (by
          have := (List.getElem?_eq_some_iff.1 hi).1
          omega)⟩
      rw [tryKeySlot_inactive (s := ⟨header.keySlotsArray, masterKey, 0⟩) ho
        (hbefore j hlt other ho)]
      exact ih hlt (by omega)

/-- How a volume gets the master key of an image when it is opened: the key was set, or no key was
set and the password is that of the first key slot in use. -/
inductive GetsKey (L : Libraries) (header : VolumeHeader) (masterKey image : List UInt8)
    (v : Volume) : Prop
  | key (hset : v.volumeMasterKeyIsSet = true)
      (hkey : v.masterKey.bytes.take masterKey.length = masterKey) :
      GetsKey L header masterKey image v
  | password {password : List UInt8} {i : ℕ} {keySlot : KeySlot}
      (hunset : v.volumeMasterKeyIsSet = false) (hset : v.userPasswordIsSet = true)
      (hpassword : v.password = some password)
      (hslot : header.keySlotsArray[i]? = some keySlot)
      (hfilled : FilledFor L header masterKey image password keySlot)
      (hbefore : ∀ j < i, ∀ other : KeySlot, header.keySlotsArray[j]? = some other →
        other.state ≠ keySlotActive) : GetsKey L header masterKey image v

section

variable {record : HeaderRecord} {identifier : Buffer 16} {masterKey content : List UInt8}
  {file : FileIoHandle} {v : Volume}

/-- The attempt to unlock a volume whose header has just been read. -/
theorem GetsKey.unlocks (hL : L.RoundTrip) (hopen : file.isOpen = true)
    (hformatted : Formatted L record identifier masterKey content file.image)
    (h : GetsKey L (record.volumeHeader identifier) masterKey file.image v)
    (hbytes : v.ioHandle.bytesPerSector = 512)
    (hheader : v.volumeHeader = some (record.volumeHeader identifier))
    (hsize : v.masterKeySize = masterKey.length) (hcontext : v.encryptionContext = none)
    (memory beyond : ℕ → ℕ → UInt8) :
    let r := internalVolumeOpenReadKeys L (reliable memory beyond) v (some file)
    r.2 = 1 ∧ r.1.masterKey.bytes.take masterKey.length = masterKey := by
  obtain ⟨context, hcreated, -⟩ := hformatted.data
  obtain ⟨hmks, hpositive, hmax⟩ := hformatted.masterKeySize
  have hmks' : (record.volumeHeader identifier).masterKeySize.toNat = masterKey.length := hmks.symm
  cases h with
  | key hset hkey =>
    have hpreset : presetKeyIsValid L (reliable memory beyond) v (record.volumeHeader identifier) =
        some true := by
      rw [presetKeyIsValid, if_pos hset, hsize, hkey]
      exact hformatted.valid
    have hready : v.volumeMasterKeyIsSet = true ∧ v.encryptionContext = none := ⟨hset, hcontext⟩
    have hcreated' : createContext L (reliable memory beyond).contextFails
        (reliable memory beyond).setKeyFails (record.volumeHeader identifier)
        (v.masterKey.bytes.take v.masterKeySize) = some context := by
      rw [hsize, hkey]
      exact hcreated
    rw [internalVolumeOpenReadKeys_eq _ _ (by rw [hbytes]; decide) hheader, hpreset]
    simp only [readKeysFromSlots, Bool.true_eq_false, false_and, if_false, createVolumeContext,
      hcontext, and_self, if_true, hcreated']
    exact ⟨trivial, hkey⟩
  | @password password i keySlot hunset hset hpassword hslot hfilled hbefore =>
    have hready : ReadyToUnlock L (record.volumeHeader identifier) password v :=
      ⟨hbytes, hheader, hsize.trans hmks, by rw [presetKeyIsValid, if_neg (by simp [hunset])], hset,
        hpassword, hcontext⟩
    have hoffset := (hformatted.headerOf hopen).keySlots.2 keySlot (List.mem_of_getElem? hslot)
    have hfits := hfilled.fits hpositive
    rw [← hmks'] at hfits
    obtain ⟨s, hloop, hkey⟩ := tryKeySlots_firstActive (hfilled.opensWith hL hformatted) hslot
      hbefore (by omega) hopen hfits hoffset memory beyond (Nat.zero_le i)
      (by
        have hlt := (List.getElem?_eq_some_iff.1 hslot).1
        rw [(hformatted.headerOf hopen).keySlots.1] at hlt
        omega : i < 0 + 8) v.masterKey
    have htake : (v.masterKey.write 0 masterKey).bytes.take masterKey.length = masterKey :=
      v.masterKey.take_write_of_length (by omega)
    obtain ⟨hone, hmasterKey⟩ := internalVolumeOpenReadKeys_found hready hloop
      ⟨context, by rw [hmks', hkey, htake]; exact hcreated⟩
    refine ⟨hone, ?_⟩
    rw [hmasterKey, hkey, htake]

/-- The attempt leaves the volume unlocked, with the context of the master key. -/
theorem GetsKey.unlocked (hL : L.RoundTrip) (hopen : file.isOpen = true)
    (hformatted : Formatted L record identifier masterKey content file.image)
    (h : GetsKey L (record.volumeHeader identifier) masterKey file.image v)
    (hbytes : v.ioHandle.bytesPerSector = 512)
    (hheader : v.volumeHeader = some (record.volumeHeader identifier))
    (hsize : v.masterKeySize = masterKey.length) (hcontext : v.encryptionContext = none)
    (memory beyond : ℕ → ℕ → UInt8) :
    ∃ v' context, internalVolumeUnlock L (reliable memory beyond) v (some file) = (v', 1) ∧
      UnlockStep L v v' 1 ∧ v'.encryptionContext = some context ∧
      createContext L false false (record.volumeHeader identifier) masterKey = some context := by
  obtain ⟨hone, htake⟩ := h.unlocks hL hopen hformatted hbytes hheader hsize hcontext memory beyond
  obtain ⟨v', hunlock, hkey⟩ : ∃ v', internalVolumeUnlock L (reliable memory beyond) v
      (some file) = (v', 1) ∧ v'.masterKey.bytes.take masterKey.length = masterKey := by
    rw [internalVolumeUnlock]
    generalize internalVolumeOpenReadKeys L (reliable memory beyond) v (some file) = r
      at hone htake
    obtain ⟨w, result⟩ := r
    simp only at hone htake
    subst hone
    exact ⟨{ w with isLocked := false }, rfl, htake⟩
  have hstep := internalVolumeUnlock_step (L := L) (reliable memory beyond) (some file) hcontext
    hunlock
  -- the context is that of the master key
  obtain ⟨header', hheader', hsame⟩ := hstep.header _ hheader
  obtain ⟨⟨header'', context, hsome, hcontext', -, hcreated⟩, -⟩ := hstep.unlocked rfl
  obtain rfl : header'' = header' := Option.some.inj (hsome.symm.trans hheader')
  have hsize' : v'.masterKeySize = masterKey.length := by
    rw [hstep.frame]
    exact hsize
  rw [hsize', hkey, hsame.createContext] at hcreated
  exact ⟨v', context, hunlock, hstep, hcontext', hcreated⟩

/-- An unlocked volume with the context of the master key of a formatted image. -/
theorem Formatted.shows (hL : L.RoundTrip)
    (h : Formatted L record identifier masterKey content file.image) (hopen : file.isOpen = true)
    (hv : Wellformed L v) (hfile : v.fileIoHandle = some file) (hlocked : v.isLocked = false)
    {header : VolumeHeader} (hheader : v.volumeHeader = some header)
    (hsame : SameButSlots (record.volumeHeader identifier) header) {context : EncryptionContext}
    (hcontext : v.encryptionContext = some context)
    (hcreated : createContext L false false (record.volumeHeader identifier) masterKey =
      some context) : Shows L v file content := by
  obtain ⟨context', hcreated', hdata⟩ := h.data
  obtain rfl : context' = context := Option.some.inj (hcreated'.symm.trans hcreated)
  obtain ⟨hrc4, hcrypt⟩ := crypt_decrypts hL h.blockCipher hcreated
  -- the place of the content is that of the header
  obtain ⟨hplace, hwhole⟩ := h.place
  obtain ⟨hdataOffset, hdataSize⟩ := (hv.opened file hfile).dataOffset header hheader
  have hstart : header.encryptedVolumeStartSector = record.encryptedVolumeStartSector.toNat := by
    rw [hsame]
    rfl
  rw [hstart] at hdataOffset hdataSize
  have hoffset : v.ioHandle.encryptedVolumeOffset =
      (record.encryptedVolumeStartSector.toNat * 512 : ℕ) := by
    rw [hdataOffset, Nat.cast_mul]
    rfl
  have hsize : v.ioHandle.encryptedVolumeSize = content.length := by omega
  refine ⟨hv, hfile, hlocked, hsize, hwhole, ⟨context', hcontext, hrc4, hcrypt⟩, fun k hk => ?_⟩
  have hk : 512 * k < content.length := hk
  have hread : file.readBufferAtOffset 512
      ((record.encryptedVolumeStartSector.toNat * 512 : ℕ) + 512 * k) =
      some (slice (512 * k) 512
        (file.image.drop (record.encryptedVolumeStartSector.toNat * 512))) := by
    have hnat : (((record.encryptedVolumeStartSector.toNat * 512 : ℕ) : ℤ) + 512 * k).toNat =
        record.encryptedVolumeStartSector.toNat * 512 + 512 * k := by omega
    rw [FileIoHandle.readBufferAtOffset, if_pos ⟨hopen, by omega⟩, hnat, slice, slice,
      List.drop_drop]
  have hlength : (slice (512 * k) 512
      (file.image.drop (record.encryptedVolumeStartSector.toNat * 512))).length = 512 :=
    length_slice_of_le (by
      rw [hdata.length]
      omega)
  rw [Volume.plaintextSector, hoffset, hcontext, Option.bind_some, hread, Option.bind_some,
    if_pos hlength, hdata.decrypted hL h.blockCipher hcreated hk]
  rfl

/-- What an open finds of a formatted image. -/
theorem Formatted.reachesUnlock
    (h : Formatted L record identifier masterKey content file.image) (hv : Wellformed L v)
    (hclosed : v.fileIoHandle = none) {accessFlags : ℕ}
    (hflags : AccessFlagsSupported accessFlags) (keys : KeysEnvironment) :
    ReachesUnlock L { keys := keys } v file accessFlags (record.volumeHeader identifier) :=
  have hopened : Formatted L record identifier masterKey content file.opened.image := h
  have hheader : HeaderOf L {} file.opened (record.volumeHeader identifier) :=
    Formatted.headerOf hopened rfl
  ⟨hclosed, hflags, by simp [OpenEnvironment.handleFails], hheader,
    HeaderOf.openReadHeader hheader rfl rfl (hv.closed hclosed) hv.bytesPerSector⟩

/-- An open of a formatted image. -/
theorem Formatted.opens (hL : L.RoundTrip)
    (h : Formatted L record identifier masterKey content file.image) (hv : Wellformed L v)
    (hclosed : v.fileIoHandle = none)
    (hkey : GetsKey L (record.volumeHeader identifier) masterKey file.image v) {accessFlags : ℕ}
    (hflags : AccessFlagsSupported accessFlags) (memory beyond : ℕ → ℕ → UInt8) :
    let r := volumeOpenFileIoHandle L { keys := reliable memory beyond } v file accessFlags
    r.2 = (file.opened, 1) ∧ StandsFor L file.opened r.1 ⟨content, v.currentOffset.toNat⟩ := by
  have hnothing := hv.closed hclosed
  have hbytes := hv.bytesPerSector
  have hopened : Formatted L record identifier masterKey content file.opened.image := h
  have hreach := h.reachesUnlock hv hclosed hflags (reliable memory beyond)
  have hgets : GetsKey L (record.volumeHeader identifier) masterKey file.opened.image
      (v.beforeUnlock file (record.volumeHeader identifier)) := by
    cases hkey with
    | key hset hkey => exact .key hset hkey
    | password hunset hset hpassword hslot hfilled hbefore =>
      exact .password hunset hset hpassword hslot hfilled hbefore
  obtain ⟨v', context, hunlock, hstep, hcontext, hcreated⟩ := hgets.unlocked hL rfl hopened hbytes
    rfl h.masterKeySize.1.symm hnothing.encryptionContext memory beyond
  have hopen := hreach.opened hnothing.encryptionContext hbytes rfl (by decide) hunlock
  have hwellformed := volumeOpenFileIoHandle_wellformed (L := L) hv
    { keys := reliable memory beyond } file accessFlags
  obtain ⟨-, hlocked⟩ := hstep.unlocked rfl
  obtain ⟨header, hheader, hsame⟩ := hstep.header _ rfl
  intro r
  have hr : r = (v'.afterOpen file (record.volumeHeader identifier), file.opened, 1) := hopen
  rw [hr]
  rw [hopen] at hwellformed
  refine ⟨rfl, hopened.shows hL rfl hwellformed rfl hlocked hheader hsame hcontext hcreated, ?_⟩
  show v'.currentOffset = _
  rw [hstep.frame]
  exact (Int.toNat_of_nonneg hv.currentOffset.1).symm

/-- A volume without key and password that is opened on a formatted image stays locked. -/
theorem Formatted.opensLocked (h : Formatted L record identifier masterKey content file.image)
    (hv : Wellformed L v) (hclosed : v.fileIoHandle = none)
    (hkey : v.volumeMasterKeyIsSet = false) (hpassword : v.userPasswordIsSet = false)
    {accessFlags : ℕ} (hflags : AccessFlagsSupported accessFlags) (keys : KeysEnvironment) :
    volumeOpenFileIoHandle L { keys := keys } v file accessFlags =
      ((v.beforeUnlock file (record.volumeHeader identifier)).afterOpen file
        (record.volumeHeader identifier), file.opened, 1) := by
  have hcontext := (hv.closed hclosed).encryptionContext
  have hbytes := hv.bytesPerSector
  set header := record.volumeHeader identifier with hheader
  set w := v.beforeUnlock file header with hw
  have hunset : w.volumeMasterKeyIsSet = false := hkey
  have hsame : { w with volumeMasterKeyIsSet := false } = w := by
    rw [← hunset]
  have hpreset : presetKeyIsValid L keys w header = some false := by
    rw [presetKeyIsValid, if_neg (by simp [hunset])]
  have hread : internalVolumeOpenReadKeys L keys w (some file.opened) = (w, 0) := by
    have hwbytes : w.ioHandle.bytesPerSector = 512 := hbytes
    have hwpassword : ¬ (w.volumeMasterKeyIsSet = false ∧ w.userPasswordIsSet = true) := by
      rintro ⟨-, hset⟩
      rw [show w.userPasswordIsSet = v.userPasswordIsSet from rfl, hpassword] at hset
      cases hset
    have hwcontext : w.encryptionContext = none := hcontext
    rw [internalVolumeOpenReadKeys_eq _ _ (by rw [hwbytes]; decide) rfl, hpreset]
    dsimp only
    rw [hsame, readKeysFromSlots, if_neg hwpassword, createVolumeContext,
      if_neg (by rw [hunset]; simp), if_neg (not_not.2 hwcontext)]
  have hunlock : internalVolumeUnlock L keys w (some file.opened) = (w, 0) := by
    rw [internalVolumeUnlock, hread]
    rfl
  exact (h.reachesUnlock hv hclosed hflags keys).opened hcontext hbytes rfl (by decide) hunlock

/-- A locked volume that is open on a formatted image is unlocked once it gets the master key. -/
theorem Formatted.unlocks (hL : L.RoundTrip)
    (h : Formatted L record identifier masterKey content file.image) (hopen : file.isOpen = true)
    (hv : Wellformed L v) (hfile : v.fileIoHandle = some file) (hlocked : v.isLocked = true)
    (hheader : v.volumeHeader = some (record.volumeHeader identifier))
    (hsize : v.masterKeySize = masterKey.length) (hcontext : v.encryptionContext = none)
    (hkey : GetsKey L (record.volumeHeader identifier) masterKey file.image v)
    (memory beyond : ℕ → ℕ → UInt8) :
    let r := volumeUnlock L (reliable memory beyond) v
    r.2 = 1 ∧ Shows L r.1 file content := by
  obtain ⟨v', context, hunlock, hstep, hcontext', hcreated⟩ := hkey.unlocked hL hopen h
    hv.bytesPerSector hheader hsize hcontext memory beyond
  obtain ⟨-, hunlocked⟩ := hstep.unlocked rfl
  have hr : volumeUnlock L (reliable memory beyond) v = (v', 1) := by
    rw [volumeUnlock, if_pos hlocked, hfile, hunlock]
  have hwellformed := volumeUnlock_wellformed hv (reliable memory beyond)
  intro r
  rw [show r = (v', 1) from hr]
  rw [hr] at hwellformed
  obtain ⟨header', hheader', hsame⟩ := hstep.header _ hheader
  have hfile' : v'.fileIoHandle = some file := by
    rw [hstep.frame]
    exact hfile
  exact ⟨rfl, h.shows hL hopen hwellformed hfile' hunlocked hheader' hsame hcontext' hcreated⟩

end

end Libluksde
