import Libluksde.Libraries

/-!
# The volume header

`libluksde_volume_header.c` and `libluksde_key_slot.c`: the three parsers of the encryption
method, encryption mode and hashing method, and the reader of the on-disk header with its
eight key slots.

The reader gets a pointer and a size.  Here `data` is the memory from the pointer on, and
`dataSize` the size that is passed along.
-/

namespace Libluksde

open Lib.Bytes

/-- `libluksde_key_slot_t` -/
structure KeySlot where
  state : UInt32
  keyMaterialOffset : ℤ
  salt : Buffer 32
  numberOfIterations : UInt32
  numberOfStripes : UInt32
deriving DecidableEq, Repr

/-- The key slot that `libluksde_key_slot_initialize` creates. -/
def KeySlot.cleared : KeySlot := ⟨0, 0, .zero 32, 0, 0⟩

/-- `libluksde_volume_header_t` -/
structure VolumeHeader where
  formatVersion : UInt16
  encryptedVolumeStartSector : ℕ
  masterKeySize : UInt32
  masterKeyValidationHash : Buffer 20
  masterKeySalt : Buffer 32
  masterKeyNumberOfIterations : UInt32
  encryptionMethod : EncryptionMethod
  encryptionChainingMode : EncryptionChainingMode
  initializationVectorMode : InitializationVectorMode
  hashingMethod : HashingMethod
  essivHashingMethod : HashingMethod
  volumeIdentifier : Buffer 16
  keySlotsArray : List KeySlot
deriving DecidableEq, Repr

/-- The header that `libluksde_volume_header_initialize` creates. -/
def VolumeHeader.cleared : VolumeHeader :=
  ⟨0, 0, 0, .zero 20, .zero 32, 0, .unknown, .unknown, .unknown, .unknown, .unknown, .zero 16,
    []⟩

/-! ## The parsers -/

/-- One comparison of the parsers: a letter is compared in lower and in upper case. -/
def charAt (s : List UInt8) (i : ℕ) (c : Char) : Bool :=
  byteAt s i == c.val.toUInt8 || byteAt s i == c.toUpper.val.toUInt8

/-- The comparisons of the bytes from index `i` on with the characters of a name. -/
def spells (s : List UInt8) : ℕ → List Char → Bool
  | _, [] => true
  | i, c :: cs => charAt s i c && spells s (i + 1) cs

/-- The comparisons of `spells`, then of the byte behind the name with the end of string. -/
def spellsAll (s : List UInt8) (i : ℕ) (cs : List Char) : Bool :=
  spells s i cs && byteAt s (i + cs.length) == 0

/-- The assignment to `encryption_method` that `libluksde_volume_parse_encryption_method`
makes, if any. -/
def parsedEncryptionMethod (s : List UInt8) : Option EncryptionMethod :=
  if charAt s 0 'a' then
    if spellsAll s 1 ['e', 's'] then some .aes
    else if spellsAll s 1 ['r', 'c', '4'] then some .arc4
    else none
  else if charAt s 0 'b' then
    if spellsAll s 1 ['l', 'o', 'w', 'f', 'i', 's', 'h'] then some .blowfish else none
  else if charAt s 0 'c' then
    if spells s 1 ['a', 's', 't'] && byteAt s 5 == 0 then
      if charAt s 4 '5' then some .cast5
      else if charAt s 4 '6' then some .cast6
      else none
    else none
  else if charAt s 0 's' then
    if spellsAll s 1 ['e', 'r', 'p', 'e', 'n', 't'] then some .serpent else none
  else if charAt s 0 't' then
    if spellsAll s 1 ['w', 'o', 'f', 'i', 's', 'h'] then some .twofish else none
  else none

/-- `libluksde_volume_parse_encryption_method` -/
def volumeParseEncryptionMethod (header : VolumeHeader) (s : List UInt8) : VolumeHeader :=
  match parsedEncryptionMethod s with
  | some method => { header with encryptionMethod := method }
  | none => header

/-- The assignment to `encryption_chaining_mode` that
`libluksde_volume_parse_encryption_mode` makes, if any.  The separator index is 3 where it
makes one and 0 where it does not. -/
def parsedChainingMode (s : List UInt8) : Option EncryptionChainingMode :=
  if charAt s 0 'c' then
    if spells s 1 ['b', 'c', '-'] then some .cbc else none
  else if charAt s 0 'e' then
    if spellsAll s 1 ['c', 'b'] then some .ecb else none
  else if charAt s 0 'x' then
    if spells s 1 ['t', 's', '-'] then some .xts else none
  else none

/-- The initialization vector mode that `libluksde_volume_parse_encryption_mode` assigns for
what is behind the separator at index `i`, and the assignment to `essiv_hashing_method`, if
any. -/
def parsedInitializationVectorMode (s : List UInt8) (i : ℕ) :
    InitializationVectorMode × Option HashingMethod :=
  if charAt s (i + 1) 'b' then
    if spellsAll s (i + 2) ['e', 'n', 'b', 'i'] then (.benbi, none) else (.none, none)
  else if charAt s (i + 1) 'e' then
    if spells s (i + 2) ['s', 's', 'i', 'v', ':'] then
      if spells s (i + 7) ['s', 'h', 'a'] then
        if spellsAll s (i + 10) ['1'] then (.essiv, some .sha1)
        else if spellsAll s (i + 10) ['2', '5', '6'] then (.essiv, some .sha256)
        else (.none, none)
      else (.none, none)
    else (.none, none)
  else if charAt s (i + 1) 'l' then
    if spellsAll s (i + 2) ['m', 'k'] then (.lmk, none) else (.none, none)
  else if charAt s (i + 1) 'n' then
    if spellsAll s (i + 2) ['u', 'l', 'l'] then (.null, none) else (.none, none)
  else if charAt s (i + 1) 'p' then
    if spells s (i + 2) ['l', 'a', 'i', 'n'] then
      if byteAt s (i + 6) == 0 then (.plain32, none)
      else if spellsAll s (i + 6) ['6', '4'] then (.plain64, none)
      else (.none, none)
    else (.none, none)
  else (.none, none)

/-- `libluksde_volume_parse_encryption_mode` -/
def volumeParseEncryptionMode (header : VolumeHeader) (s : List UInt8) : VolumeHeader :=
  match parsedChainingMode s with
  | some chainingMode =>
    let (ivMode, essivHashingMethod) := parsedInitializationVectorMode s 3
    { header with
      encryptionChainingMode := chainingMode
      initializationVectorMode := ivMode
      essivHashingMethod := essivHashingMethod.getD header.essivHashingMethod }
  | none => header

/-- The assignment to `hashing_method` that `libluksde_volume_parse_hashing_method` makes, if
any. -/
def parsedHashingMethod (s : List UInt8) : Option HashingMethod :=
  if charAt s 0 'r' then
    if spellsAll s 1 ['i', 'p', 'e', 'm', 'd', '1', '6', '0'] then some .ripemd160 else none
  else if charAt s 0 's' then
    if spells s 1 ['h', 'a'] then
      if spellsAll s 3 ['1'] then some .sha1
      else if spellsAll s 3 ['2', '2', '4'] then some .sha224
      else if spellsAll s 3 ['2', '5', '6'] then some .sha256
      else if spellsAll s 3 ['5', '1', '2'] then some .sha512
      else none
    else none
  else none

/-- `libluksde_volume_parse_hashing_method` -/
def volumeParseHashingMethod (header : VolumeHeader) (s : List UInt8) : VolumeHeader :=
  match parsedHashingMethod s with
  | some method => { header with hashingMethod := method }
  | none => header

/-! ## The readers -/

/-- `sizeof( luksde_volume_header_v1_t )` -/
def volumeHeaderV1Size : ℕ := 208

/-- `sizeof( luksde_volume_header_v2_t )` -/
def volumeHeaderV2Size : ℕ := 4096

/-- `sizeof( luksde_volume_keyslot_t )` -/
def volumeKeyslotSize : ℕ := 48

/-- `luksde_signature` -/
def luksdeSignature : List UInt8 := [0x4c, 0x55, 0x4b, 0x53, 0xba, 0xbe]

/-- `luksde_backup_volume_header_signature` -/
def luksdeBackupVolumeHeaderSignature : List UInt8 := [0x53, 0x4b, 0x55, 0x4c, 0xba, 0xbe]

/-- `libluksde_key_slot_read_data`: the key slot, and whether the call succeeds. -/
def keySlotReadData (keySlot : KeySlot) (data : List UInt8) (dataSize : ℕ) : KeySlot × Bool :=
  if dataSize < volumeKeyslotSize ∨ dataSize > ssizeMax then (keySlot, false)
  else
    ({ keySlot with
        state := byteStreamCopyToUInt32BigEndian data
        numberOfIterations := byteStreamCopyToUInt32BigEndian (data.drop 4)
        salt := .ofBytes 32 (slice 8 32 data)
        keyMaterialOffset := (byteStreamCopyToUInt32BigEndian (data.drop 40)).toNat
        numberOfStripes := byteStreamCopyToUInt32BigEndian (data.drop 44) }, true)

/-- What the surroundings decide during the reading of a header: whether the file read, the
conversion of the identifier, or the creation of a key slot fails. -/
structure HeaderEnvironment where
  readFails : Bool := false
  guidFails : Bool := false
  slotFails : ℕ → Bool := fun _ => false

/-- The key slot loop of `libluksde_volume_header_read_data`, with `n` slots to go; on an
error the array is emptied. -/
def readKeySlots (env : HeaderEnvironment) (data : List UInt8) :
    ℕ → (header : VolumeHeader) → (keySlotIndex dataOffset : ℕ) → VolumeHeader × Bool
  | 0, header, _, _ => (header, true)
  | n + 1, header, keySlotIndex, dataOffset =>
    if env.slotFails keySlotIndex then ({ header with keySlotsArray := [] }, false)
    else
      match keySlotReadData .cleared (data.drop dataOffset) volumeKeyslotSize with
      | (_, false) => ({ header with keySlotsArray := [] }, false)
      | (keySlot, true) =>
        readKeySlots env data n
          { header with keySlotsArray := header.keySlotsArray ++ [keySlot] }
          (keySlotIndex + 1) (dataOffset + volumeKeyslotSize)

/-- The numeric and byte fields of a header of version 1. -/
def readVersion1Fields (header : VolumeHeader) (data : List UInt8) : VolumeHeader :=
  { header with
    encryptedVolumeStartSector := (byteStreamCopyToUInt32BigEndian (data.drop 104)).toNat
    masterKeySize := byteStreamCopyToUInt32BigEndian (data.drop 108)
    masterKeyValidationHash := .ofBytes 20 (slice 112 20 data)
    masterKeySalt := .ofBytes 32 (slice 132 32 data)
    masterKeyNumberOfIterations := byteStreamCopyToUInt32BigEndian (data.drop 164) }

/-- The names and key slots of a header of version 1. -/
def readVersion1Methods (env : HeaderEnvironment) (header : VolumeHeader) (data : List UInt8) :
    VolumeHeader × Bool :=
  let header := volumeParseEncryptionMethod header (slice 8 32 data)
  let header := volumeParseEncryptionMode header (slice 40 32 data)
  let header := volumeParseHashingMethod header (slice 72 32 data)
  readKeySlots env data 8 header 0 volumeHeaderV1Size

variable (L : Libraries)

/-- `libluksde_volume_header_read_data`: the header, and whether the call returns 1. -/
def volumeHeaderReadData (env : HeaderEnvironment) (header : VolumeHeader) (data : List UInt8)
    (dataSize : ℕ) : VolumeHeader × Bool :=
  let onError := fun header : VolumeHeader => ({ header with keySlotsArray := [] }, false)
  if dataSize < volumeHeaderV1Size ∨ dataSize > ssizeMax then (header, false)
  else if slice 0 6 data ≠ luksdeSignature ∧ slice 0 6 data ≠ luksdeBackupVolumeHeaderSignature
  then onError header
  else
    let header := { header with formatVersion := byteStreamCopyToUInt16BigEndian (data.drop 6) }
    if header.formatVersion ≠ 1 ∧ header.formatVersion ≠ 2 then onError header
    else if header.formatVersion = 2 ∧ dataSize < volumeHeaderV2Size then onError header
    else
      let header := if header.formatVersion = 1 then readVersion1Fields header data else header
      -- the identifier is at the same place in both versions
      match if env.guidFails then none else L.identifierFromUtf8String (slice 168 40 data) with
      | none => onError header
      | some volumeIdentifier =>
        let header := { header with volumeIdentifier := volumeIdentifier }
        if header.formatVersion = 1 then readVersion1Methods env header data
        else (header, true)

/-- `libluksde_volume_header_read_file_io_handle`: the header, and whether the call returns
1. -/
def volumeHeaderReadFileIoHandle (env : HeaderEnvironment) (header : VolumeHeader)
    (file : FileIoHandle) (fileOffset : ℤ) : VolumeHeader × Bool :=
  match if env.readFails then none else file.readBufferAtOffset 4096 fileOffset with
  | none => (header, false)
  | some data =>
    if data.length ≠ 4096 then (header, false)
    else volumeHeaderReadData L env header data 4096

/-! ## What the reader does -/

variable {L}

/-- The identifier of a header, where its conversion succeeds. -/
def HeaderEnvironment.identifier (L : Libraries) (env : HeaderEnvironment) (data : List UInt8) :
    Option (Buffer 16) :=
  if env.guidFails then none else L.identifierFromUtf8String (slice 168 40 data)

/-- A header of version 1 behind the checks. -/
def version1Header (header : VolumeHeader) (data : List UInt8) (volumeIdentifier : Buffer 16) :
    VolumeHeader :=
  { readVersion1Fields { header with formatVersion := 1 } data with
    volumeIdentifier := volumeIdentifier }

/-- The checks of the reader on the size and the signature. -/
def HeaderChecks (data : List UInt8) (dataSize : ℕ) : Prop :=
  volumeHeaderV1Size ≤ dataSize ∧ dataSize ≤ ssizeMax ∧
    (slice 0 6 data = luksdeSignature ∨ slice 0 6 data = luksdeBackupVolumeHeaderSignature)

/-- Data of version 1 that passes the checks is read. -/
theorem volumeHeaderReadData_version1 {env : HeaderEnvironment} {header : VolumeHeader}
    {data : List UInt8} {dataSize : ℕ} {volumeIdentifier : Buffer 16}
    (hchecks : HeaderChecks data dataSize)
    (hversion : byteStreamCopyToUInt16BigEndian (data.drop 6) = 1)
    (hidentifier : env.identifier L data = some volumeIdentifier) :
    volumeHeaderReadData L env header data dataSize =
      readVersion1Methods env (version1Header header data volumeIdentifier) data := by
  obtain ⟨hl, hu, hsig⟩ := hchecks
  rw [HeaderEnvironment.identifier] at hidentifier
  unfold volumeHeaderReadData
  rw [if_neg (by omega), if_neg (by tauto)]
  simp only [hversion]
  rw [if_neg (by decide), if_neg (by rintro ⟨h, -⟩; exact absurd h (by decide)),
    hidentifier]
  rfl

/-- What is known when the reader succeeds. -/
theorem volumeHeaderReadData_inv {env : HeaderEnvironment} {header header' : VolumeHeader}
    {data : List UInt8} {dataSize : ℕ}
    (h : volumeHeaderReadData L env header data dataSize = (header', true)) :
    HeaderChecks data dataSize ∧ ∃ volumeIdentifier,
      env.identifier L data = some volumeIdentifier ∧
      ((byteStreamCopyToUInt16BigEndian (data.drop 6) = 1 ∧
          readVersion1Methods env (version1Header header data volumeIdentifier) data
            = (header', true)) ∨
        (byteStreamCopyToUInt16BigEndian (data.drop 6) = 2 ∧
          header' = { header with formatVersion := 2, volumeIdentifier := volumeIdentifier })) := by
  unfold volumeHeaderReadData at h
  split at h
  · cases h
  · rename_i hsize
    split at h
    · cases h
    · rename_i hsig
      have hchecks : HeaderChecks data dataSize := ⟨by omega, by omega, by tauto⟩
      refine ⟨hchecks, ?_⟩
      simp only at h
      split at h
      · cases h
      · rename_i hversion
        split at h
        · cases h
        · cases hid : env.identifier L data with
          | none =>
            rw [HeaderEnvironment.identifier] at hid
            rw [hid] at h
            cases h
          | some volumeIdentifier =>
            have hid' := hid
            rw [HeaderEnvironment.identifier] at hid'
            rw [hid'] at h
            refine ⟨volumeIdentifier, rfl, ?_⟩
            by_cases hv : byteStreamCopyToUInt16BigEndian (data.drop 6) = 1
            · left
              simp only [hv, if_true] at h
              exact ⟨hv, h⟩
            · right
              have hv2 : byteStreamCopyToUInt16BigEndian (data.drop 6) = 2 := by tauto
              have h21 : ¬ (2 : UInt16) = 1 := by decide
              simp only [hv2, if_neg h21] at h
              exact ⟨hv2, (congrArg Prod.fst h).symm⟩

/-- A header of version 2 is only read where it is all there. -/
theorem volumeHeaderReadData_version2_size {env : HeaderEnvironment} {header header' : VolumeHeader}
    {data : List UInt8} {dataSize : ℕ}
    (h : volumeHeaderReadData L env header data dataSize = (header', true))
    (hversion : byteStreamCopyToUInt16BigEndian (data.drop 6) = 2) :
    volumeHeaderV2Size ≤ dataSize := by
  obtain ⟨⟨hlower, hupper, hsignature⟩, -⟩ := volumeHeaderReadData_inv h
  by_contra hshort
  rw [volumeHeaderReadData, if_neg (by omega), if_neg (by tauto)] at h
  simp only [hversion] at h
  rw [if_neg (by rintro ⟨-, hno⟩; exact hno rfl), if_pos ⟨trivial, Nat.not_le.1 hshort⟩] at h
  cases h

end Libluksde
