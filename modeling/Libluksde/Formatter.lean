import Libluksde.Formatting

/-!
# A formatter

An image for a password and a content, put together as a formatting program does it: the header,
the key material of one key slot, and the encrypted content, with zero bytes between them.  The
round trip through the library gives the content back.
-/

namespace Libluksde

open Lib.Bytes Lib.Blocks Lib.Machine Lib.FileReader Lib.Refinement

variable {L : Libraries}

/-! ## Encrypting -/

/-- Data encrypted sector by sector. -/
def encryptSectors (L : Libraries) (context : EncryptionContext) (data : List UInt8) :
    List UInt8 :=
  concat (data.length / 512) fun k =>
    ((encryptionContextCrypt L context .encrypt (slice (512 * k) 512 data) 512
      (UInt64.ofNat k)).map Prod.fst).getD []

theorem encryptSectors_encryptsTo (hL : L.RoundTrip) {header : VolumeHeader}
    (hheader : header.HasBlockCipher) {key : List UInt8} {context : EncryptionContext}
    (hcreated : createContext L false false header key = some context) {data : List UInt8}
    (hdata : 512 ∣ data.length) : EncryptsTo L context data (encryptSectors L context data) := by
  obtain ⟨n, hn⟩ := hdata
  have hdiv : data.length / 512 = n := by omega
  have hsector : ∀ k < n, ∃ region, encryptionContextCrypt L context .encrypt
      (slice (512 * k) 512 data) 512 (UInt64.ofNat k) = some (region, context) ∧
      region.length = 512 := by
    intro k hk
    have hlength : (slice (512 * k) 512 data).length = 512 := length_slice_of_le (by omega)
    obtain ⟨region, hcrypt, -⟩ := crypt_encrypted hL hheader hcreated hlength (UInt64.ofNat k)
    exact ⟨region, hcrypt, (encryptionContextCrypt_spec hcrypt).1.trans hlength⟩
  have hblock : ∀ k < n, (((encryptionContextCrypt L context .encrypt (slice (512 * k) 512 data) 512
      (UInt64.ofNat k)).map Prod.fst).getD []).length = 512 := by
    intro k hk
    obtain ⟨region, hcrypt, hlength⟩ := hsector k hk
    rw [hcrypt]
    exact hlength
  refine ⟨?_, ⟨n, hn⟩, fun k hk => ?_⟩
  · rw [encryptSectors, hdiv, length_concat hblock, hn]
  · have hlt : k < n := by omega
    obtain ⟨region, hcrypt, -⟩ := hsector k hlt
    refine ⟨context, ?_⟩
    rw [encryptSectors, hdiv, slice_concat hblock hlt, hcrypt]
    rfl

/-- Data encrypted with a key in the modes of a header. -/
def encryptedWith (L : Libraries) (header : VolumeHeader) (key data : List UInt8) : List UInt8 :=
  ((createContext L false false header key).map fun context =>
    encryptSectors L context data).getD []

/-! ## Formatting -/

/-- What a volume is formatted with: the names and numbers of its header, a master key and its
digest, one key slot with a password, and a content.  The stripes of the split master key but for
the last one are arbitrary. -/
structure FormatInput where
  encryptionMethod : Buffer 32
  encryptionMode : Buffer 32
  hashingMethod : Buffer 32
  volumeIdentifier : Buffer 40
  identifier : Buffer 16
  masterKey : List UInt8
  masterKeySalt : Buffer 32
  masterKeyNumberOfIterations : UInt32
  digest : Buffer 20
  index : Fin 8
  password : List UInt8
  userKey : List UInt8
  slotSalt : Buffer 32
  slotNumberOfIterations : UInt32
  stripes : List (Buffer masterKey.length)
  keyMaterialSector : UInt32
  startSector : UInt32
  content : List UInt8

namespace FormatInput

/-- The key slot in use. -/
def keySlot (F : FormatInput) : KeySlotRecord :=
  ⟨keySlotActive, F.slotNumberOfIterations, F.slotSalt, F.keyMaterialSector,
    UInt32.ofNat (F.stripes.length + 1)⟩

theorem length_set_keySlot (F : FormatInput) :
    ((List.replicate 8 inactiveSlot).set F.index F.keySlot).length = 8 := by simp

/-- The header: all other key slots are not in use. -/
def record (F : FormatInput) : HeaderRecord where
  encryptionMethod := F.encryptionMethod
  encryptionMode := F.encryptionMode
  hashingMethod := F.hashingMethod
  encryptedVolumeStartSector := F.startSector
  masterKeySize := UInt32.ofNat F.masterKey.length
  masterKeyValidationHash := F.digest
  masterKeySalt := F.masterKeySalt
  masterKeyNumberOfIterations := F.masterKeyNumberOfIterations
  volumeIdentifier := F.volumeIdentifier
  keySlots := (List.replicate 8 inactiveSlot).set F.index F.keySlot
  length_keySlots := F.length_set_keySlot

/-- The header as it is read. -/
def header (F : FormatInput) : VolumeHeader := F.record.volumeHeader F.identifier

/-- The size of the key material. -/
def materialSize (F : FormatInput) : ℕ := F.masterKey.length * (F.stripes.length + 1)

/-- The key material: the split master key, encrypted with the user key. -/
def material (L : Libraries) (F : FormatInput) : List UInt8 :=
  encryptedWith L F.header F.userKey
    (splitKey L F.header.hashingMethod F.stripes ⟨F.masterKey, rfl⟩)

/-- The header and the key material, up to the content. -/
def metadata (L : Libraries) (F : FormatInput) : List UInt8 :=
  encodeHeader F.record ++ List.replicate (F.keyMaterialSector.toNat * 512 - 592) 0 ++
    F.material L ++ List.replicate
      (F.startSector.toNat * 512 - (F.keyMaterialSector.toNat * 512 + F.materialSize)) 0

/-- The image.  The modes of its header, the contexts and the encryption are those of the library:
what is written is what the library itself would encrypt. -/
def image (L : Libraries) (F : FormatInput) : List UInt8 :=
  F.metadata L ++ encryptedWith L F.header F.masterKey F.content

end FormatInput

/-- An input that can be formatted: the names are supported, the cipher is a block cipher, the
digest and the user key are what is derived from the master key and the password, and all parts have
a place. -/
structure Formatting (L : Libraries) extends FormatInput where
  identified : L.identifierFromUtf8String volumeIdentifier.bytes = some identifier
  blockCipher : toFormatInput.header.HasBlockCipher
  masterKeySize : 0 < masterKey.length ∧ masterKey.length ≤ 64
  masterKeyAccepted : (createContext L false false toFormatInput.header masterKey).isSome = true
  digested : passwordPbkdf2 L false (some masterKey) toFormatInput.header.hashingMethod
    masterKeySalt.bytes masterKeyNumberOfIterations.toNat 20 = some digest.bytes
  derived : passwordPbkdf2 L false (some password) toFormatInput.header.hashingMethod
    slotSalt.bytes slotNumberOfIterations.toNat masterKey.length = some userKey
  stripesFit : masterKey.length * (stripes.length + 1) ≤ memoryMaximumAllocationSize
  materialSectors : 512 ∣ toFormatInput.materialSize
  headerFits : 592 ≤ keyMaterialSector.toNat * 512
  materialFits : keyMaterialSector.toNat * 512 + toFormatInput.materialSize ≤
    startSector.toNat * 512
  contentSectors : 512 ∣ content.length
  contentSize : 0 < content.length ∧ content.length < 2 ^ 62
  imageSize : 4096 ≤ startSector.toNat * 512 + content.length

section

variable (F : Formatting L)

theorem Formatting.numberOfStripes :
    (UInt32.ofNat (F.stripes.length + 1)).toNat = F.stripes.length + 1 := by
  have hfit := F.stripesFit
  have hle : F.stripes.length + 1 ≤ F.masterKey.length * (F.stripes.length + 1) :=
    Nat.le_mul_of_pos_left _ F.masterKeySize.1
  unfold memoryMaximumAllocationSize at hfit
  rw [UInt32.toNat_ofNat', Nat.mod_eq_of_lt (by omega)]

/-- The size of the master key in the header. -/
theorem Formatting.masterKeySize_record :
    F.masterKey.length = F.record.masterKeySize.toNat := by
  have hmax := F.masterKeySize.2
  show _ = (UInt32.ofNat F.masterKey.length).toNat
  rw [UInt32.toNat_ofNat', Nat.mod_eq_of_lt (by omega)]

/-- The contexts of the two keys. -/
theorem Formatting.masterContext :
    ∃ context, createContext L false false F.header F.masterKey = some context :=
  Option.isSome_iff_exists.1 F.masterKeyAccepted

theorem Formatting.userContext :
    ∃ context, createContext L false false F.header F.userKey = some context := by
  obtain ⟨context, hcontext⟩ := F.masterContext
  exact createContext_of_length (passwordPbkdf2_length F.derived) hcontext

theorem encryptedWith_encryptsTo (hL : L.RoundTrip) {header : VolumeHeader}
    (hheader : header.HasBlockCipher) {key : List UInt8} {context : EncryptionContext}
    (hcreated : createContext L false false header key = some context) {data : List UInt8}
    (hdata : 512 ∣ data.length) : EncryptsTo L context data (encryptedWith L header key data) := by
  rw [encryptedWith, hcreated]
  exact encryptSectors_encryptsTo hL hheader hcreated hdata

theorem Formatting.length_split :
    (splitKey L F.header.hashingMethod F.stripes ⟨F.masterKey, rfl⟩).length = F.materialSize := by
  rw [splitKey, List.length_append, length_stripesBytes, Buffer.length_eq,
    FormatInput.materialSize, Nat.mul_succ, Nat.mul_comm]

variable (hL : L.RoundTrip)

include hL

theorem Formatting.length_material : (F.material L).length = F.materialSize := by
  obtain ⟨context, hcontext⟩ := F.userContext
  have hsectors : 512 ∣ (splitKey L F.header.hashingMethod F.stripes ⟨F.masterKey, rfl⟩).length := by
    rw [F.length_split]
    exact F.materialSectors
  have hmaterial := encryptedWith_encryptsTo hL F.blockCipher hcontext hsectors
  exact hmaterial.length.trans F.length_split

theorem Formatting.length_metadata :
    (F.metadata L).length = F.startSector.toNat * 512 := by
  have hheader := F.headerFits
  have hmaterial := F.materialFits
  simp only [FormatInput.metadata, List.length_append, length_encodeHeader, List.length_replicate,
    F.length_material hL]
  omega

/-- The content is behind the metadata. -/
theorem Formatting.drop_image : (F.image L).drop (F.startSector.toNat * 512) =
    encryptedWith L F.header F.masterKey F.content := by
  rw [FormatInput.image, List.drop_left' (F.length_metadata hL)]

/-- The key material is at its sector. -/
theorem Formatting.slice_image :
    slice (F.keyMaterialSector.toNat * 512) F.materialSize (F.image L) = F.material L := by
  have hheader := F.headerFits
  have hbefore : (encodeHeader F.record ++
      List.replicate (F.keyMaterialSector.toNat * 512 - 592) (0 : UInt8)).length =
        F.keyMaterialSector.toNat * 512 := by
    rw [List.length_append, length_encodeHeader, List.length_replicate]
    omega
  rw [FormatInput.image, FormatInput.metadata, List.append_assoc, List.append_assoc,
    slice_append_right hbefore.le, hbefore, Nat.sub_self, slice_zero_append (F.length_material hL)]

theorem Formatting.length_image :
    (F.image L).length = F.startSector.toNat * 512 + F.content.length := by
  obtain ⟨context, hcontext⟩ := F.masterContext
  rw [FormatInput.image, List.length_append, F.length_metadata hL,
    (encryptedWith_encryptsTo hL F.blockCipher hcontext F.contentSectors).length]

/-- The image is formatted. -/
theorem Formatting.formatted :
    Formatted L F.record F.identifier F.masterKey F.content (F.image L) := by
  obtain ⟨context, hcontext⟩ := F.masterContext
  refine ⟨?_, ?_, F.identified, F.blockCipher, ⟨F.masterKeySize_record, F.masterKeySize⟩,
    F.digested, F.contentSize.1, context, hcontext, ?_⟩
  · rw [FormatInput.image, FormatInput.metadata, List.append_assoc, List.append_assoc,
      List.append_assoc, List.take_left' (length_encodeHeader F.record)]
  · rw [F.length_image hL]
    exact F.imageSize
  · show EncryptsTo L context F.content ((F.image L).drop (F.startSector.toNat * 512))
    rw [F.drop_image hL]
    exact encryptedWith_encryptsTo hL F.blockCipher hcontext F.contentSectors

/-- Its key slot is filled for the password. -/
theorem Formatting.filledFor :
    FilledFor L F.header F.masterKey (F.image L) F.password F.keySlot.keySlot := by
  obtain ⟨context, hcontext⟩ := F.userContext
  have hstripes : F.keySlot.keySlot.numberOfStripes.toNat = F.stripes.length + 1 :=
    F.numberOfStripes
  refine ⟨rfl, ?_, F.stripes, F.userKey, context, hstripes.symm, F.derived, hcontext, ?_⟩
  · rw [hstripes, Nat.le_div_iff_mul_le (Nat.succ_pos _)]
    exact F.stripesFit
  · have hsize : F.keySlot.keySlot.keyMaterialSize F.masterKey.length = F.materialSize := by
      rw [KeySlot.keyMaterialSize, hstripes, FormatInput.materialSize]
    have hplace : F.keySlot.keySlot.keyMaterialOffset.toNat = F.keyMaterialSector.toNat := rfl
    rw [hsize, hplace, F.slice_image hL]
    exact encryptedWith_encryptsTo hL F.blockCipher hcontext
      (by rw [F.length_split]; exact F.materialSectors)

end

/-! ## Giving the password -/

/-- The key slot in use is the only one. -/
theorem FormatInput.keySlots (F : FormatInput) :
    F.header.keySlotsArray[(F.index : ℕ)]? = some F.keySlot.keySlot ∧
      ∀ j < (F.index : ℕ), ∀ other : KeySlot, F.header.keySlotsArray[j]? = some other →
        other.state ≠ keySlotActive := by
  have hslots : F.header.keySlotsArray =
      ((List.replicate 8 inactiveSlot).set F.index F.keySlot).map KeySlotRecord.keySlot := rfl
  rw [hslots]
  constructor
  · rw [List.getElem?_map, List.getElem?_set_self (by simp)]
    rfl
  · intro j hj other ho
    rw [List.getElem?_map, List.getElem?_set_ne (by omega), List.getElem?_replicate] at ho
    split_ifs at ho
    · cases ho
      decide
    · cases ho

/-- A string that can be set as a password, and its bytes. -/
structure SetsPassword (L : Libraries) (string password : List UInt8) : Prop where
  bytes : L.byteStreamFromUtf8 string = some password
  size : password.length + 1 ≤ memoryMaximumAllocationSize

/-- A volume that was given a password. -/
def Volume.withPassword (v : Volume) (password : List UInt8) : Volume :=
  { v with
    userPassword := some (password ++ [0])
    userPasswordSize := password.length + 1
    userPasswordIsSet := true }

theorem Volume.password_withPassword (v : Volume) (password : List UInt8) :
    (v.withPassword password).password = some password := by
  rw [Volume.password, withPassword, Option.map_some, Nat.add_sub_cancel, List.take_left]

theorem SetsPassword.volumeSetUtf8Password {string password : List UInt8}
    (h : SetsPassword L string password) (v : Volume) :
    volumeSetUtf8Password L {} v string = (v.withPassword password, 1) := by
  have hsize := h.size
  rw [Libluksde.volumeSetUtf8Password, h.bytes, setPassword]
  exact if_neg (by omega)

/-- A volume that was given a key. -/
def Volume.withSetKey (v : Volume) (key : List UInt8) : Volume :=
  { v with
    masterKey := (Buffer.zero 64).write 0 key
    masterKeySize := key.length
    volumeMasterKeyIsSet := true }

section

variable (v : Volume) {key : List UInt8}
  (hsize : key.length = 16 ∨ key.length = 32 ∨ key.length = 64)

include hsize

theorem volumeSetKey_withSetKey : volumeSetKey v key = (v.withSetKey key, 1) :=
  volumeSetKey_eq v hsize

theorem Volume.take_masterKey_withSetKey :
    (v.withSetKey key).masterKey.bytes.take key.length = key :=
  (Buffer.zero 64).take_write_of_length (by omega)

end

/-! ## The small volume, formatted -/

/-- The blocks of the small volume and what AES encrypts them to, for the master key and for the
user key. -/
def smallExchanges (key : List UInt8) : List (Buffer 16 × Buffer 16) :=
  if key = smallKey then
    [(.ofBytes 16 (toBigEndian 16 0x580544d7521973fb8732d76f4b234071),
        .ofBytes 16 (List.replicate 16 0xaa)),
      (.ofBytes 16 (toBigEndian 16 0xcba42fc46dba972700a107b3e4414a2a),
        .ofBytes 16 (List.replicate 16 0xbb))]
  else if key = smallUserDigest.take 16 then
    [(.zero 16, .ofBytes 16 cipherBlocks.1),
      (.ofBytes 16 diffusedBlock, .ofBytes 16 cipherBlocks.2.1),
      (.ofBytes 16 (xor diffusedBlock smallKey), .ofBytes 16 cipherBlocks.2.2)]
  else []

/-- A block cipher that exchanges these blocks and leaves all others. -/
def smallPermutation (key : List UInt8) : Equiv.Perm (Buffer 16) :=
  (smallExchanges key).foldr (fun blocks σ => (Equiv.swap blocks.1 blocks.2).trans σ) (Equiv.refl _)

/-- Both directions of the block cipher. -/
def smallBlockCipher (k : KeySchedule) (m : CryptMode) (block : List UInt8) : List UInt8 :=
  match m with
  | .encrypt => (smallPermutation k.key (.ofBytes 16 block)).bytes
  | .decrypt => ((smallPermutation k.key).symm (.ofBytes 16 block)).bytes

theorem length_smallBlockCipher (k : KeySchedule) (m : CryptMode) (block : List UInt8) :
    (smallBlockCipher k m block).length = 16 := by
  cases m with
  | encrypt => exact Buffer.length_eq _
  | decrypt => exact Buffer.length_eq _

/-- The libraries of the small volume, with this block cipher for AES. -/
def exchangingLibraries : Libraries :=
  { smallLibraries with
    aesBlock := smallBlockCipher
    aesBlock_length := length_smallBlockCipher
    aesCbc := .unused _ }

theorem exchangingLibraries_roundTrip : exchangingLibraries.RoundTrip where
  aesBlock := by
    intro key block m _ hblock
    cases m with
    | encrypt => simp [exchangingLibraries, smallBlockCipher, CryptMode.opposite,
        Buffer.bytes_ofBytes hblock]
    | decrypt => simp [exchangingLibraries, smallBlockCipher, CryptMode.opposite,
        Buffer.bytes_ofBytes hblock]
  aesCbc := fun _ _ _ _ _ data _ => ⟨data, rfl, rfl⟩
  aesXts := fun _ _ _ _ _ _ _ _ _ data _ => ⟨data, rfl, rfl⟩
  blowfishCbc := fun _ _ _ _ _ data _ => ⟨data, rfl, rfl⟩
  blowfishEcb := fun _ _ _ data _ => ⟨data, rfl, rfl⟩
  serpentCbc := fun _ _ _ _ _ data _ => ⟨data, rfl, rfl⟩
  serpentEcb := fun _ _ _ data _ => ⟨data, rfl, rfl⟩

/-- The small volume with a password, from the side of its formatting. -/
def smallInput : FormatInput where
  encryptionMethod := smallRecord.encryptionMethod
  encryptionMode := smallRecord.encryptionMode
  hashingMethod := smallRecord.hashingMethod
  volumeIdentifier := smallRecord.volumeIdentifier
  identifier := .zero 16
  masterKey := smallKey
  masterKeySalt := smallSalt
  masterKeyNumberOfIterations := 1
  digest := smallHash
  index := 3
  password := smallPassword
  userKey := smallUserDigest.take 16
  slotSalt := slotSalt
  slotNumberOfIterations := 1
  stripes := .zero 16 :: List.replicate 30 (.ofBytes 16 diffusedBlock)
  keyMaterialSector := 8
  startSector := 9
  content := (List.replicate 32 (toBigEndian 16 0x580544d7521973fb8732d76f4b234071)).flatten ++
    (List.replicate 32 (toBigEndian 16 0xcba42fc46dba972700a107b3e4414a2a)).flatten

theorem smallInput_derived :
    (createContext exchangingLibraries false false smallInput.header
      smallInput.masterKey).isSome = true ∧
    passwordPbkdf2 exchangingLibraries false (some smallInput.masterKey)
      smallInput.header.hashingMethod smallInput.masterKeySalt.bytes
      smallInput.masterKeyNumberOfIterations.toNat 20 = some smallInput.digest.bytes ∧
    passwordPbkdf2 exchangingLibraries false (some smallInput.password)
      smallInput.header.hashingMethod smallInput.slotSalt.bytes
      smallInput.slotNumberOfIterations.toNat smallInput.masterKey.length =
        some smallInput.userKey := by
  decide +kernel

theorem smallInput_hasBlockCipher : smallInput.header.HasBlockCipher :=
  ⟨⟨by decide +kernel, by decide +kernel, by decide +kernel⟩, by decide +kernel⟩

theorem smallInput_identified : exchangingLibraries.identifierFromUtf8String
    smallInput.volumeIdentifier.bytes = some smallInput.identifier := rfl

theorem smallInput_sizes :
    (0 < smallInput.masterKey.length ∧ smallInput.masterKey.length ≤ 64) ∧
    smallInput.masterKey.length * (smallInput.stripes.length + 1) ≤ memoryMaximumAllocationSize ∧
    512 ∣ smallInput.materialSize ∧ 592 ≤ smallInput.keyMaterialSector.toNat * 512 ∧
    smallInput.keyMaterialSector.toNat * 512 + smallInput.materialSize ≤
      smallInput.startSector.toNat * 512 ∧
    512 ∣ smallInput.content.length ∧
    (0 < smallInput.content.length ∧ smallInput.content.length < 2 ^ 62) ∧
    4096 ≤ smallInput.startSector.toNat * 512 + smallInput.content.length := by
  decide +kernel

@[inherit_doc smallInput] def smallFormatting : Formatting exchangingLibraries where
  toFormatInput := smallInput
  identified := smallInput_identified
  blockCipher := smallInput_hasBlockCipher
  masterKeySize := smallInput_sizes.1
  masterKeyAccepted := smallInput_derived.1
  digested := smallInput_derived.2.1
  derived := smallInput_derived.2.2
  stripesFit := smallInput_sizes.2.1
  materialSectors := smallInput_sizes.2.2.1
  headerFits := smallInput_sizes.2.2.2.1
  materialFits := smallInput_sizes.2.2.2.2.1
  contentSectors := smallInput_sizes.2.2.2.2.2.1
  contentSize := smallInput_sizes.2.2.2.2.2.2.1
  imageSize := smallInput_sizes.2.2.2.2.2.2.2

theorem length_smallImage :
    (smallInput.image exchangingLibraries).length < 2 ^ 62 := by
  have hlength := smallFormatting.length_image exchangingLibraries_roundTrip
  rw [show smallInput.image exchangingLibraries = smallFormatting.image exchangingLibraries
    from rfl, hlength]
  decide +kernel

/-- The file of the small volume, formatted. -/
def smallFormattedFile : FileIoHandle where
  image := smallInput.image exchangingLibraries
  isOpen := true
  length_lt := lt_trans length_smallImage (by norm_num)

theorem smallFormattedFile_formatted : Formatted exchangingLibraries smallFormatting.record
    smallFormatting.identifier smallFormatting.masterKey smallFormatting.content
    smallFormattedFile.image := smallFormatting.formatted exchangingLibraries_roundTrip

/-- The password of the small volume gets its key. -/
theorem smallFormattedFile_getsKey : GetsKey exchangingLibraries
    (smallFormatting.record.volumeHeader smallFormatting.identifier) smallFormatting.masterKey
    smallFormattedFile.image
    (volumeAfter exchangingLibraries [.setUtf8Password {} smallPassword]) := by
  have hpassword : (volumeAfter exchangingLibraries [.setUtf8Password {} smallPassword]).password =
      some smallFormatting.password := by decide +kernel
  exact .password rfl rfl hpassword smallInput.keySlots.1
    (smallFormatting.filledFor exchangingLibraries_roundTrip) smallInput.keySlots.2

/-! ## The round trip -/

/-- **Opening what was formatted.**  For every image that was formatted with a block cipher, and
in every state of a session in which the volume is closed: if the master key was set, or no key was
set and the password is that of the first key slot in use, at any of the eight places and whatever
the memory holds, then an open of the image on which nothing fails unlocks it; and whatever calls
follow up to a close, the seeks and reads among them are answered as those of a file with the
content that was formatted. -/
theorem volumeOpenFileIoHandle_formatted {record : HeaderRecord} {identifier : Buffer 16}
    {masterKey content : List UInt8} {file : FileIoHandle} (hL : L.RoundTrip)
    (session : List Operation)
    (hclosed : (volumeAfter L session).fileIoHandle = none)
    (h : Formatted L record identifier masterKey content file.image)
    (hkey : GetsKey L (record.volumeHeader identifier) masterKey file.image
      (volumeAfter L session)) {accessFlags : ℕ} (hflags : AccessFlagsSupported accessFlags)
    (memory beyond : ℕ → ℕ → UInt8) :
    let v := volumeAfter L session
    let r := volumeOpenFileIoHandle L { keys := reliable memory beyond } v file accessFlags
    (r.2.2 = 1 ∧ r.1.isLocked = false ∧ r.1.ioHandle.encryptedVolumeSize = content.length) ∧
    ∀ calls, Admitted (step L) (Operation.Undisturbed L file.opened) r.1 calls →
      seen (step L) volumeView r.1 calls =
        (answers (serve volumeLimits) ⟨content, v.currentOffset.toNat⟩
          (calls.filterMap Operation.request)).map replyAnswer := by
  intro v r
  obtain ⟨hone, hstands⟩ := h.opens hL (volumeAfter_wellformed session) hclosed hkey hflags memory
    beyond
  exact ⟨⟨congrArg Prod.snd hone, hstands.shows.isLocked, hstands.shows.size⟩, fun calls hcalls =>
    ((volume_refines file.opened).run hstands hcalls).1⟩

/-- The small volume, opened with its password. -/
theorem volumeOpenFileIoHandle_formatted_small :
    let L := exchangingLibraries
    let v := volumeAfter L [.setUtf8Password {} smallPassword]
    let r := volumeOpenFileIoHandle L { keys := reliable (fun _ _ => 0) fun _ _ => 0 } v
      smallFormattedFile 1
    (r.2.2 = 1 ∧ r.1.isLocked = false ∧
      r.1.ioHandle.encryptedVolumeSize = smallFormatting.content.length) ∧
    ∀ calls, Admitted (step L) (Operation.Undisturbed L smallFormattedFile.opened) r.1 calls →
      seen (step L) volumeView r.1 calls =
        (answers (serve volumeLimits) ⟨smallFormatting.content, v.currentOffset.toNat⟩
          (calls.filterMap Operation.request)).map replyAnswer :=
  volumeOpenFileIoHandle_formatted exchangingLibraries_roundTrip
    [.setUtf8Password {} smallPassword] rfl smallFormattedFile_formatted smallFormattedFile_getsKey
    (by decide) _ _

/-- **Formatting and opening are a round trip.**  For every input that can be formatted, with the
key slot at any of the eight places: a new volume that is given the password, or the master key if
it has a size that can be set, opens the image if nothing fails on the way, whatever the memory
holds; and whatever calls follow up to a close, the seeks and reads among them are answered as those
of a file with the content, from its beginning on. -/
theorem formatting_roundTrip (hL : L.RoundTrip) (F : Formatting L) {file : FileIoHandle}
    (hfile : file.image = F.image L) {accessFlags : ℕ} (hflags : AccessFlagsSupported accessFlags)
    (memory beyond : ℕ → ℕ → UInt8) {secret : Operation}
    (hsecret :
      (∃ string, secret = .setUtf8Password {} string ∧
        L.byteStreamFromUtf8 string = some F.password ∧
        F.password.length + 1 ≤ memoryMaximumAllocationSize) ∨
      (secret = .setKey F.masterKey ∧
        (F.masterKey.length = 16 ∨ F.masterKey.length = 32 ∨ F.masterKey.length = 64))) :
    let session := [secret, .openFileIoHandle { keys := reliable memory beyond } file accessFlags]
    answers (step L) volumeInitialize session = [.of 1, .of 1] ∧
    ∀ calls, Admitted (step L) (Operation.Undisturbed L file.opened) (volumeAfter L session) calls →
      seen (step L) volumeView (volumeAfter L session) calls =
        (answers (serve volumeLimits) ⟨F.content, 0⟩
          (calls.filterMap Operation.request)).map replyAnswer := by
  obtain ⟨hslot, hbefore⟩ := F.toFormatInput.keySlots
  have hformatted := F.formatted hL
  have hfilled := F.filledFor hL
  rw [← hfile] at hformatted hfilled
  -- the secret is set, and the volume is as new otherwise
  obtain ⟨hanswer, hclosed, hoffset, hkey⟩ : (step L secret volumeInitialize).2 = .of 1 ∧
      (step L secret volumeInitialize).1.fileIoHandle = none ∧
      (step L secret volumeInitialize).1.currentOffset = 0 ∧
      GetsKey L F.header F.masterKey file.image (step L secret volumeInitialize).1 := by
    rcases hsecret with ⟨string, rfl, hstring, hsize⟩ | ⟨rfl, hsize⟩
    · have hset := SetsPassword.volumeSetUtf8Password ⟨hstring, hsize⟩ volumeInitialize
      simp only [step, hset]
      exact ⟨rfl, rfl, rfl, .password rfl rfl (volumeInitialize.password_withPassword F.password)
        hslot hfilled hbefore⟩
    · have hset := volumeSetKey_withSetKey volumeInitialize hsize
      simp only [step, hset]
      exact ⟨rfl, rfl, rfl, .key rfl (volumeInitialize.take_masterKey_withSetKey hsize)⟩
  have hv : Wellformed L (step L secret volumeInitialize).1 :=
    step_wellformed secret volumeInitialize volumeInitialize_wellformed
  obtain ⟨hone, hstands⟩ := hformatted.opens hL hv hclosed hkey hflags memory beyond
  rw [hoffset] at hstands
  intro session
  constructor
  · have hopen : (step L (.openFileIoHandle { keys := reliable memory beyond } file accessFlags)
        (step L secret volumeInitialize).1).2 = .of 1 :=
      congrArg Answer.of (congrArg Prod.snd hone)
    simp only [session]
    rw [answers_cons, answers_cons, answers_nil, hanswer, hopen]
  · intro calls hcalls
    exact ((volume_refines file.opened).run hstands hcalls).1

/-- The round trip of the small volume, with its password. -/
theorem formatting_roundTrip_small :
    let L := exchangingLibraries
    let session := [.setUtf8Password {} smallPassword,
      .openFileIoHandle { keys := reliable (fun _ _ => 0) fun _ _ => 0 } smallFormattedFile 1]
    answers (step L) volumeInitialize session = [.of 1, .of 1] ∧
    ∀ calls, Admitted (step L) (Operation.Undisturbed L smallFormattedFile.opened)
        (volumeAfter L session) calls →
      seen (step L) volumeView (volumeAfter L session) calls =
        (answers (serve volumeLimits) ⟨smallFormatting.content, 0⟩
          (calls.filterMap Operation.request)).map replyAnswer :=
  formatting_roundTrip exchangingLibraries_roundTrip smallFormatting rfl (by decide) _ _
    (Or.inl ⟨smallPassword, rfl, rfl, by decide +kernel⟩)

end Libluksde
