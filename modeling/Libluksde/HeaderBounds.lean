import Libluksde.Lib.Reading
import Libluksde.Session

/-!
# The bytes that the reader of a header looks at

The reader gets a pointer and a size, and nothing in it keeps it from looking behind the size but
its own checks.  Here the reader, its three parsers and the reader of a key slot are written as
computations that read single bytes of an unbounded memory.  They give what the functions of the
model give, and their bytes are those that the code accesses.
-/

namespace Libluksde

open Lib (Reading)
open Lib.Bytes

/-! ## The parsers, byte by byte -/

/-- The comparison of `charAt`, in a field that begins at an index of the memory. -/
def charAtReading (field i : ℕ) (c : Char) : Reading UInt8 Bool := do
  let b ← .cell (field + i)
  return b == c.val.toUInt8 || b == c.toUpper.val.toUInt8

/-- The comparison of a byte with the end of string. -/
def endAtReading (field i : ℕ) : Reading UInt8 Bool := do
  let b ← .cell (field + i)
  return b == 0

/-- The comparisons of `spells`, of which the first one that fails is the last one. -/
def spellsReading (field : ℕ) : ℕ → List Char → Reading UInt8 Bool
  | _, [] => return true
  | i, c :: cs => do
    if ← charAtReading field i c then spellsReading field (i + 1) cs
    else return false

/-- The comparisons of `spellsAll`. -/
def spellsAllReading (field i : ℕ) (cs : List Char) : Reading UInt8 Bool := do
  if ← spellsReading field i cs then endAtReading field (i + cs.length)
  else return false

/-- The comparisons of `libluksde_volume_parse_encryption_method`. -/
def encryptionMethodReading (field : ℕ) : Reading UInt8 (Option EncryptionMethod) := do
  if ← charAtReading field 0 'a' then
    if ← spellsAllReading field 1 ['e', 's'] then return some .aes
    else if ← spellsAllReading field 1 ['r', 'c', '4'] then return some .arc4
    else return none
  else if ← charAtReading field 0 'b' then
    if ← spellsAllReading field 1 ['l', 'o', 'w', 'f', 'i', 's', 'h'] then return some .blowfish
    else return none
  else if ← charAtReading field 0 'c' then
    if ← spellsReading field 1 ['a', 's', 't'] then
      if ← endAtReading field 5 then
        if ← charAtReading field 4 '5' then return some .cast5
        else if ← charAtReading field 4 '6' then return some .cast6
        else return none
      else return none
    else return none
  else if ← charAtReading field 0 's' then
    if ← spellsAllReading field 1 ['e', 'r', 'p', 'e', 'n', 't'] then return some .serpent
    else return none
  else if ← charAtReading field 0 't' then
    if ← spellsAllReading field 1 ['w', 'o', 'f', 'i', 's', 'h'] then return some .twofish
    else return none
  else return none

/-- The comparisons of `libluksde_volume_parse_encryption_mode` up to the separator. -/
def chainingModeReading (field : ℕ) : Reading UInt8 (Option EncryptionChainingMode) := do
  if ← charAtReading field 0 'c' then
    if ← spellsReading field 1 ['b', 'c', '-'] then return some .cbc else return none
  else if ← charAtReading field 0 'e' then
    if ← spellsAllReading field 1 ['c', 'b'] then return some .ecb else return none
  else if ← charAtReading field 0 'x' then
    if ← spellsReading field 1 ['t', 's', '-'] then return some .xts else return none
  else return none

/-- The comparisons of `libluksde_volume_parse_encryption_mode` behind the separator. -/
def initializationVectorModeReading (field i : ℕ) :
    Reading UInt8 (InitializationVectorMode × Option HashingMethod) := do
  if ← charAtReading field (i + 1) 'b' then
    if ← spellsAllReading field (i + 2) ['e', 'n', 'b', 'i'] then return (.benbi, none)
    else return (.none, none)
  else if ← charAtReading field (i + 1) 'e' then
    if ← spellsReading field (i + 2) ['s', 's', 'i', 'v', ':'] then
      if ← spellsReading field (i + 7) ['s', 'h', 'a'] then
        if ← spellsAllReading field (i + 10) ['1'] then return (.essiv, some .sha1)
        else if ← spellsAllReading field (i + 10) ['2', '5', '6'] then
          return (.essiv, some .sha256)
        else return (.none, none)
      else return (.none, none)
    else return (.none, none)
  else if ← charAtReading field (i + 1) 'l' then
    if ← spellsAllReading field (i + 2) ['m', 'k'] then return (.lmk, none)
    else return (.none, none)
  else if ← charAtReading field (i + 1) 'n' then
    if ← spellsAllReading field (i + 2) ['u', 'l', 'l'] then return (.null, none)
    else return (.none, none)
  else if ← charAtReading field (i + 1) 'p' then
    if ← spellsReading field (i + 2) ['l', 'a', 'i', 'n'] then
      if ← endAtReading field (i + 6) then return (.plain32, none)
      else if ← spellsAllReading field (i + 6) ['6', '4'] then return (.plain64, none)
      else return (.none, none)
    else return (.none, none)
  else return (.none, none)

/-- The comparisons of `libluksde_volume_parse_hashing_method`. -/
def hashingMethodReading (field : ℕ) : Reading UInt8 (Option HashingMethod) := do
  if ← charAtReading field 0 'r' then
    if ← spellsAllReading field 1 ['i', 'p', 'e', 'm', 'd', '1', '6', '0'] then
      return some .ripemd160
    else return none
  else if ← charAtReading field 0 's' then
    if ← spellsReading field 1 ['h', 'a'] then
      if ← spellsAllReading field 3 ['1'] then return some .sha1
      else if ← spellsAllReading field 3 ['2', '2', '4'] then return some .sha224
      else if ← spellsAllReading field 3 ['2', '5', '6'] then return some .sha256
      else if ← spellsAllReading field 3 ['5', '1', '2'] then return some .sha512
      else return none
    else return none
  else return none

/-! ### What the parsers compute -/

section

variable {memory : ℕ → UInt8} {field : ℕ} {s : List UInt8}

/-- A string that is found in the first 32 bytes of a field. -/
def FieldOf (memory : ℕ → UInt8) (field : ℕ) (s : List UInt8) : Prop :=
  ∀ i < 32, memory (field + i) = byteAt s i

variable (hs : FieldOf memory field s)

include hs

theorem run_charAtReading {i : ℕ} (hi : i < 32) (c : Char) :
    (charAtReading field i c).run memory = charAt s i c := by
  simp only [charAtReading, Reading.run_bind, Reading.run_cell, Reading.run_pure, hs i hi, charAt]

theorem run_endAtReading {i : ℕ} (hi : i < 32) :
    (endAtReading field i).run memory = (byteAt s i == 0) := by
  simp only [endAtReading, Reading.run_bind, Reading.run_cell, Reading.run_pure, hs i hi]

theorem run_spellsReading {i : ℕ} {cs : List Char} (hi : i + cs.length ≤ 32) :
    (spellsReading field i cs).run memory = spells s i cs := by
  induction cs generalizing i with
  | nil => rfl
  | cons c cs ih =>
    rw [List.length_cons] at hi
    rw [spellsReading, Reading.run_bind, run_charAtReading hs (by omega), spells]
    cases charAt s i c with
    | false => rfl
    | true => exact ih (by omega)

theorem run_spellsAllReading {i : ℕ} {cs : List Char} (hi : i + cs.length < 32) :
    (spellsAllReading field i cs).run memory = spellsAll s i cs := by
  rw [spellsAllReading, Reading.run_bind, run_spellsReading hs (by omega), spellsAll]
  cases spells s i cs with
  | false => rfl
  | true => exact run_endAtReading hs hi

theorem run_encryptionMethodReading :
    (encryptionMethodReading field).run memory = parsedEncryptionMethod s := by
  simp (disch := decide) only [encryptionMethodReading, parsedEncryptionMethod, Reading.run_bind,
    Reading.run_ite, Reading.run_pure, run_charAtReading hs, run_endAtReading hs,
    run_spellsReading hs, run_spellsAllReading hs, Bool.and_eq_true, ite_and]

theorem run_chainingModeReading :
    (chainingModeReading field).run memory = parsedChainingMode s := by
  simp (disch := decide) only [chainingModeReading, parsedChainingMode, Reading.run_bind,
    Reading.run_ite, Reading.run_pure, run_charAtReading hs, run_spellsReading hs,
    run_spellsAllReading hs]

theorem run_initializationVectorModeReading :
    (initializationVectorModeReading field 3).run memory = parsedInitializationVectorMode s 3 := by
  simp (disch := decide) only [initializationVectorModeReading, parsedInitializationVectorMode,
    Reading.run_bind, Reading.run_ite, Reading.run_pure, run_charAtReading hs, run_endAtReading hs,
    run_spellsReading hs, run_spellsAllReading hs]

theorem run_hashingMethodReading :
    (hashingMethodReading field).run memory = parsedHashingMethod s := by
  simp (disch := decide) only [hashingMethodReading, parsedHashingMethod, Reading.run_bind,
    Reading.run_ite, Reading.run_pure, run_charAtReading hs, run_spellsReading hs,
    run_spellsAllReading hs]

end

/-! ### Where the parsers look -/

section

variable {field : ℕ}

theorem within_charAtReading {i : ℕ} (hi : i < 32) (c : Char) :
    Reading.Within field (field + 32) (charAtReading field i c) :=
  (Reading.within_cell (by omega) (by omega)).bind fun _ => Reading.within_pure _

theorem within_endAtReading {i : ℕ} (hi : i < 32) :
    Reading.Within field (field + 32) (endAtReading field i) :=
  (Reading.within_cell (by omega) (by omega)).bind fun _ => Reading.within_pure _

theorem within_spellsReading {i : ℕ} {cs : List Char} (hi : i + cs.length ≤ 32) :
    Reading.Within field (field + 32) (spellsReading field i cs) := by
  induction cs generalizing i with
  | nil => exact Reading.within_pure _
  | cons c cs ih =>
    rw [List.length_cons] at hi
    refine (within_charAtReading (by omega) c).bind fun _ => ?_
    exact (ih (by omega)).ite (Reading.within_pure _)

theorem within_spellsAllReading {i : ℕ} {cs : List Char} (hi : i + cs.length < 32) :
    Reading.Within field (field + 32) (spellsAllReading field i cs) := by
  refine (within_spellsReading (by omega)).bind fun _ => ?_
  exact (within_endAtReading hi).ite (Reading.within_pure _)

/-- Every comparison of a parser is with a byte of its field. -/
theorem within_parsers :
    Reading.Within field (field + 32) (encryptionMethodReading field) ∧
    Reading.Within field (field + 32) (chainingModeReading field) ∧
    Reading.Within field (field + 32) (initializationVectorModeReading field 3) ∧
    Reading.Within field (field + 32) (hashingMethodReading field) := by
  unfold encryptionMethodReading chainingModeReading initializationVectorModeReading
    hashingMethodReading
  refine ⟨?_, ?_, ?_, ?_⟩
  -- each parser is a tree of comparisons at small indices; only its own names are matched
  all_goals
    with_reducible
      repeat' first
        | exact Reading.within_pure _
        | exact within_charAtReading (by decide) _
        | exact within_endAtReading (by decide)
        | exact within_spellsReading (by decide)
        | exact within_spellsAllReading (by decide)
        | refine Reading.Within.bind ?_ fun _ => Reading.Within.ite ?_ ?_

end

/-! ## The readers -/

/-- `libluksde_volume_parse_encryption_method` -/
def volumeParseEncryptionMethodReading (header : VolumeHeader) (field : ℕ) :
    Reading UInt8 VolumeHeader := do
  match ← encryptionMethodReading field with
  | some method => return { header with encryptionMethod := method }
  | none => return header

/-- `libluksde_volume_parse_encryption_mode` -/
def volumeParseEncryptionModeReading (header : VolumeHeader) (field : ℕ) :
    Reading UInt8 VolumeHeader := do
  match ← chainingModeReading field with
  | some chainingMode =>
    let (ivMode, essivHashingMethod) ← initializationVectorModeReading field 3
    return { header with
      encryptionChainingMode := chainingMode
      initializationVectorMode := ivMode
      essivHashingMethod := essivHashingMethod.getD header.essivHashingMethod }
  | none => return header

/-- `libluksde_volume_parse_hashing_method` -/
def volumeParseHashingMethodReading (header : VolumeHeader) (field : ℕ) :
    Reading UInt8 VolumeHeader := do
  match ← hashingMethodReading field with
  | some method => return { header with hashingMethod := method }
  | none => return header

/-- `byte_stream_copy_to_uint16_big_endian` -/
def uint16Reading (i : ℕ) : Reading UInt8 UInt16 := do
  let bytes ← .window i 2
  return byteStreamCopyToUInt16BigEndian bytes

/-- `byte_stream_copy_to_uint32_big_endian` -/
def uint32Reading (i : ℕ) : Reading UInt8 UInt32 := do
  let bytes ← .window i 4
  return byteStreamCopyToUInt32BigEndian bytes

/-- `libluksde_key_slot_read_data`, for data that begin at an index of the memory. -/
def keySlotReadDataReading (keySlot : KeySlot) (i dataSize : ℕ) :
    Reading UInt8 (KeySlot × Bool) := do
  if dataSize < volumeKeyslotSize ∨ dataSize > ssizeMax then return (keySlot, false)
  else
    let state ← uint32Reading i
    let numberOfIterations ← uint32Reading (i + 4)
    let salt ← .window (i + 8) 32
    let startSector ← uint32Reading (i + 40)
    let numberOfStripes ← uint32Reading (i + 44)
    return ({ keySlot with
      state := state
      numberOfIterations := numberOfIterations
      salt := .ofBytes 32 salt
      keyMaterialOffset := startSector.toNat
      numberOfStripes := numberOfStripes }, true)

/-- What the surroundings decide during the reading of a header, with the creation of a key slot
and its addition to the array apart: the one fails before the key slot is read, the other one
behind. -/
structure HeaderReadEnvironment where
  guidFails : Bool := false
  slotInitializeFails : ℕ → Bool := fun _ => false
  slotAppendFails : ℕ → Bool := fun _ => false

/-- The same surroundings, where it does not matter when a key slot fails. -/
def HeaderReadEnvironment.header (env : HeaderReadEnvironment) : HeaderEnvironment where
  guidFails := env.guidFails
  slotFails i := env.slotInitializeFails i || env.slotAppendFails i

/-- The key slot loop of `libluksde_volume_header_read_data`. -/
def readKeySlotsReading (env : HeaderReadEnvironment) :
    ℕ → (header : VolumeHeader) → (keySlotIndex dataOffset : ℕ) → Reading UInt8 (VolumeHeader × Bool)
  | 0, header, _, _ => return (header, true)
  | n + 1, header, keySlotIndex, dataOffset => do
    if env.slotInitializeFails keySlotIndex then return ({ header with keySlotsArray := [] }, false)
    else
      match ← keySlotReadDataReading .cleared dataOffset volumeKeyslotSize with
      | (_, false) => return ({ header with keySlotsArray := [] }, false)
      | (keySlot, true) =>
        if env.slotAppendFails keySlotIndex then
          return ({ header with keySlotsArray := [] }, false)
        else
          readKeySlotsReading env n
            { header with keySlotsArray := header.keySlotsArray ++ [keySlot] }
            (keySlotIndex + 1) (dataOffset + volumeKeyslotSize)

/-- The numeric and byte fields of a header of version 1. -/
def readVersion1FieldsReading (header : VolumeHeader) : Reading UInt8 VolumeHeader := do
  let encryptedVolumeStartSector ← uint32Reading 104
  let masterKeySize ← uint32Reading 108
  let masterKeyValidationHash ← .window 112 20
  let masterKeySalt ← .window 132 32
  let masterKeyNumberOfIterations ← uint32Reading 164
  return { header with
    encryptedVolumeStartSector := encryptedVolumeStartSector.toNat
    masterKeySize := masterKeySize
    masterKeyValidationHash := .ofBytes 20 masterKeyValidationHash
    masterKeySalt := .ofBytes 32 masterKeySalt
    masterKeyNumberOfIterations := masterKeyNumberOfIterations }

/-- The names and key slots of a header of version 1. -/
def readVersion1MethodsReading (env : HeaderReadEnvironment) (header : VolumeHeader) :
    Reading UInt8 (VolumeHeader × Bool) := do
  let header ← volumeParseEncryptionMethodReading header 8
  let header ← volumeParseEncryptionModeReading header 40
  let header ← volumeParseHashingMethodReading header 72
  readKeySlotsReading env 8 header 0 volumeHeaderV1Size

/-- The fields that only version 1 has. -/
def readFieldsReading (header : VolumeHeader) : Reading UInt8 VolumeHeader := do
  if header.formatVersion = 1 then readVersion1FieldsReading header else return header

/-- The copy of the identifier, which is at the same place in both versions. -/
def identifierReading (L : Libraries) (env : HeaderReadEnvironment) :
    Reading UInt8 (Option (Buffer 16)) := do
  let string ← .window 168 40
  return if env.guidFails then none else L.identifierFromUtf8String string

/-- `libluksde_volume_header_read_data` behind the check of the signature. -/
def readVersionReading (L : Libraries) (env : HeaderReadEnvironment) (header : VolumeHeader)
    (dataSize : ℕ) : Reading UInt8 (VolumeHeader × Bool) := do
  let formatVersion ← uint16Reading 6
  let header := { header with formatVersion := formatVersion }
  if formatVersion ≠ 1 ∧ formatVersion ≠ 2 then return ({ header with keySlotsArray := [] }, false)
  else if formatVersion = 2 ∧ dataSize < volumeHeaderV2Size then
    return ({ header with keySlotsArray := [] }, false)
  else
    let header ← readFieldsReading header
    match ← identifierReading L env with
    | none => return ({ header with keySlotsArray := [] }, false)
    | some volumeIdentifier =>
      let header := { header with volumeIdentifier := volumeIdentifier }
      if formatVersion = 1 then readVersion1MethodsReading env header
      else return (header, true)

/-- `libluksde_volume_header_read_data` -/
def volumeHeaderReadDataReading (L : Libraries) (env : HeaderReadEnvironment)
    (header : VolumeHeader) (dataSize : ℕ) : Reading UInt8 (VolumeHeader × Bool) := do
  if dataSize < volumeHeaderV1Size ∨ dataSize > ssizeMax then return (header, false)
  else
    let signature ← .window 0 6
    if signature ≠ luksdeSignature ∧ signature ≠ luksdeBackupVolumeHeaderSignature then
      return ({ header with keySlotsArray := [] }, false)
    else readVersionReading L env header dataSize

/-! ### What the readers compute -/

/-- Data that are found at the beginning of a memory, as far as a header of version 1 reaches. -/
structure DataOf (memory : ℕ → UInt8) (data : List UInt8) : Prop where
  length_le : 592 ≤ data.length
  byte : ∀ i < 592, memory i = byteAt data i

section

variable {memory : ℕ → UInt8} {data : List UInt8} (hdata : DataOf memory data)

include hdata

theorem DataOf.window {i n : ℕ} (hi : i + n ≤ 592) :
    (Reading.window i n).run memory = slice i n data := by
  rw [Reading.run_window]
  apply List.ext_getElem
  · have hlength := hdata.length_le
    rw [List.length_map, List.length_range', length_slice_of_le (by omega)]
  · intro j hj hj'
    rw [List.length_map, List.length_range'] at hj
    have hlength := hdata.length_le
    have hbyte := hdata.byte (i + j) (by omega)
    rw [byteAt, List.getD_eq_getElem _ _ (by omega)] at hbyte
    simp only [List.getElem_map, List.getElem_range', slice, List.getElem_take, List.getElem_drop,
      Nat.one_mul, hbyte]

theorem DataOf.byteAt_window {i n j : ℕ} (hi : i + n ≤ 592) (hj : j < n) :
    byteAt ((Reading.window i n).run memory) j = byteAt (data.drop i) j := by
  rw [hdata.window hi]
  simp only [byteAt, slice, List.getD_eq_getElem?_getD, List.getElem?_take, if_pos hj]

theorem DataOf.uint16 {i : ℕ} (hi : i + 2 ≤ 592) :
    (uint16Reading i).run memory = byteStreamCopyToUInt16BigEndian (data.drop i) := by
  rw [uint16Reading, Reading.run_bind, Reading.run_pure, byteStreamCopyToUInt16BigEndian,
    hdata.byteAt_window hi (by omega), hdata.byteAt_window hi (by omega)]
  rfl

theorem DataOf.uint32 {i : ℕ} (hi : i + 4 ≤ 592) :
    (uint32Reading i).run memory = byteStreamCopyToUInt32BigEndian (data.drop i) := by
  rw [uint32Reading, Reading.run_bind, Reading.run_pure, byteStreamCopyToUInt32BigEndian,
    hdata.byteAt_window hi (by omega), hdata.byteAt_window hi (by omega),
    hdata.byteAt_window hi (by omega), hdata.byteAt_window hi (by omega)]
  rfl

theorem DataOf.field {field : ℕ} (hi : field + 32 ≤ 592) :
    FieldOf memory field (slice field 32 data) := by
  intro j hj
  rw [hdata.byte (field + j) (by omega)]
  simp only [byteAt, slice, List.getD_eq_getElem?_getD, List.getElem?_take, if_pos hj,
    List.getElem?_drop]

theorem run_keySlotReadDataReading (keySlot : KeySlot) {i : ℕ} (hi : i + 48 ≤ 592)
    (dataSize : ℕ) : (keySlotReadDataReading keySlot i dataSize).run memory =
      keySlotReadData keySlot (data.drop i) dataSize := by
  have hsalt : slice (i + 8) 32 data = slice 8 32 (data.drop i) := by
    rw [slice, slice, List.drop_drop]
  rw [keySlotReadDataReading, Reading.run_ite, keySlotReadData]
  simp only [Reading.run_bind, Reading.run_pure, hdata.uint32 (i := i) (by omega),
    hdata.uint32 (i := i + 4) (by omega), hdata.window (i := i + 8) (n := 32) (by omega),
    hdata.uint32 (i := i + 40) (by omega), hdata.uint32 (i := i + 44) (by omega), hsalt,
    List.drop_drop]

theorem run_readKeySlotsReading (env : HeaderReadEnvironment) {n dataOffset : ℕ}
    (header : VolumeHeader) (keySlotIndex : ℕ) (hn : dataOffset + 48 * n ≤ 592) :
    (readKeySlotsReading env n header keySlotIndex dataOffset).run memory =
      readKeySlots env.header data n header keySlotIndex dataOffset := by
  induction n generalizing header keySlotIndex dataOffset with
  | zero => rfl
  | succ n ih =>
    rw [readKeySlotsReading, readKeySlots, Reading.run_ite]
    cases hfails : env.slotInitializeFails keySlotIndex with
    | true => simp [HeaderReadEnvironment.header, hfails]
    | false =>
      rw [if_neg Bool.false_ne_true, Reading.run_bind,
        run_keySlotReadDataReading hdata .cleared (by omega) volumeKeyslotSize]
      have hok : (keySlotReadData .cleared (data.drop dataOffset) volumeKeyslotSize).2 = true := rfl
      generalize keySlotReadData .cleared (data.drop dataOffset) volumeKeyslotSize = r at hok
      obtain ⟨keySlot, ok⟩ := r
      cases hok
      simp only [Reading.run_ite, HeaderReadEnvironment.header, hfails, Bool.false_or]
      split
      · rfl
      · exact ih _ _ (by unfold volumeKeyslotSize; omega)

theorem run_readVersion1FieldsReading (header : VolumeHeader) :
    (readVersion1FieldsReading header).run memory = readVersion1Fields header data := by
  simp only [readVersion1FieldsReading, readVersion1Fields, Reading.run_bind, Reading.run_pure,
    hdata.uint32 (i := 104) (by decide), hdata.uint32 (i := 108) (by decide),
    hdata.window (i := 112) (n := 20) (by decide), hdata.window (i := 132) (n := 32) (by decide),
    hdata.uint32 (i := 164) (by decide)]

theorem run_readVersion1MethodsReading (env : HeaderReadEnvironment) (header : VolumeHeader) :
    (readVersion1MethodsReading env header).run memory =
      readVersion1Methods env.header header data := by
  have hmethod : ∀ header, (volumeParseEncryptionMethodReading header 8).run memory =
      volumeParseEncryptionMethod header (slice 8 32 data) := by
    intro header
    rw [volumeParseEncryptionMethodReading, Reading.run_bind,
      run_encryptionMethodReading (hdata.field (by decide)), volumeParseEncryptionMethod]
    cases parsedEncryptionMethod (slice 8 32 data) with
    | none => rfl
    | some method => rfl
  have hmode : ∀ header, (volumeParseEncryptionModeReading header 40).run memory =
      volumeParseEncryptionMode header (slice 40 32 data) := by
    intro header
    have hfield : FieldOf memory 40 (slice 40 32 data) := hdata.field (by decide)
    rw [volumeParseEncryptionModeReading, Reading.run_bind, run_chainingModeReading hfield,
      volumeParseEncryptionMode]
    cases parsedChainingMode (slice 40 32 data) with
    | none => rfl
    | some chainingMode =>
      simp only [Reading.run_bind, run_initializationVectorModeReading hfield, Reading.run_pure]
  have hhash : ∀ header, (volumeParseHashingMethodReading header 72).run memory =
      volumeParseHashingMethod header (slice 72 32 data) := by
    intro header
    rw [volumeParseHashingMethodReading, Reading.run_bind,
      run_hashingMethodReading (hdata.field (by decide)), volumeParseHashingMethod]
    cases parsedHashingMethod (slice 72 32 data) with
    | none => rfl
    | some method => rfl
  rw [readVersion1MethodsReading, Reading.run_bind, Reading.run_bind, Reading.run_bind, hmethod,
    hmode, hhash, run_readKeySlotsReading hdata env _ _ (by decide), readVersion1Methods]

theorem run_identifierReading (L : Libraries) (env : HeaderReadEnvironment) :
    (identifierReading L env).run memory = env.header.identifier L data := by
  rw [identifierReading, Reading.run_bind, Reading.run_pure, hdata.window (by decide)]
  rfl

/-- The computation gives what the function of the model gives. -/
theorem run_volumeHeaderReadDataReading (L : Libraries) (env : HeaderReadEnvironment)
    (header : VolumeHeader) (dataSize : ℕ) :
    (volumeHeaderReadDataReading L env header dataSize).run memory =
      volumeHeaderReadData L env.header header data dataSize := by
  have hfields : ∀ header, (readFieldsReading header).run memory =
      if header.formatVersion = 1 then readVersion1Fields header data else header := by
    intro header
    rw [readFieldsReading, Reading.run_ite, run_readVersion1FieldsReading hdata, Reading.run_pure]
  have hsame : env.header.identifier L data =
      if env.header.guidFails then none else L.identifierFromUtf8String (slice 168 40 data) := rfl
  rw [volumeHeaderReadDataReading, volumeHeaderReadData, Reading.run_ite, Reading.run_pure]
  split
  · rfl
  · rw [Reading.run_bind, hdata.window (by decide), Reading.run_ite, Reading.run_pure]
    split
    · rfl
    · rw [readVersionReading, Reading.run_bind, hdata.uint16 (by decide)]
      generalize byteStreamCopyToUInt16BigEndian (data.drop 6) = formatVersion
      simp only [Reading.run_ite, Reading.run_pure, Reading.run_bind, hfields,
        run_identifierReading hdata, ← hsame]
      split
      · rfl
      · split
        · rfl
        · -- the identifier is the same in both
          cases env.header.identifier L data with
          | none => by_cases hversion : formatVersion = 1 <;> simp [hversion]
          | some volumeIdentifier =>
            by_cases hversion : formatVersion = 1
            · simp only [hversion, if_true, run_readVersion1MethodsReading hdata]
              rfl
            · simp only [hversion, if_false, Reading.run_pure]

end

/-! ## Where the readers look -/

section

variable {memory : ℕ → UInt8} {size : ℕ}

theorem inBounds_uint32Reading {i : ℕ} :
    Reading.InBounds memory size (uint32Reading i) ↔ i + 4 ≤ size := by
  rw [uint32Reading, Reading.inBounds_bind, Reading.inBounds_window (by decide)]
  exact and_iff_left (Reading.inBounds_pure _)

/-- The reader of a key slot reads all of its bytes. -/
theorem inBounds_keySlotReadDataReading (keySlot : KeySlot) (i : ℕ) :
    Reading.InBounds memory size (keySlotReadDataReading keySlot i volumeKeyslotSize) ↔
      i + 48 ≤ size := by
  rw [keySlotReadDataReading, if_neg (by decide)]
  simp only [Reading.inBounds_bind, inBounds_uint32Reading, Reading.inBounds_pure,
    Reading.inBounds_window (show 0 < 32 by decide), and_true]
  omega

theorem succeeds_keySlotReadDataReading (keySlot : KeySlot) (i : ℕ) :
    ((keySlotReadDataReading keySlot i volumeKeyslotSize).run memory).2 = true := by
  rw [keySlotReadDataReading, if_neg (by decide)]
  simp only [Reading.run_bind, Reading.run_pure]

/-- The loop over the key slots stays below a size when all key slots that it comes to do. -/
theorem inBounds_readKeySlotsReading (env : HeaderReadEnvironment) (n : ℕ) (header : VolumeHeader)
    (keySlotIndex dataOffset : ℕ) :
    Reading.InBounds memory size (readKeySlotsReading env n header keySlotIndex dataOffset) ↔
      ∀ j < n, env.slotInitializeFails (keySlotIndex + j) = false →
        (∀ l < j, env.slotInitializeFails (keySlotIndex + l) = false ∧
          env.slotAppendFails (keySlotIndex + l) = false) →
        dataOffset + 48 * (j + 1) ≤ size := by
  induction n generalizing header keySlotIndex dataOffset with
  | zero => exact iff_of_true (Reading.inBounds_pure _) fun j hj => absurd hj (Nat.not_lt_zero j)
  | succ n ih =>
    rw [readKeySlotsReading]
    cases hfails : env.slotInitializeFails keySlotIndex with
    | true =>
      refine iff_of_true (Reading.inBounds_pure _) fun j hj hslot hbefore => ?_
      -- no key slot is read, the first one or one behind it
      cases j with
      | zero => exact absurd (hfails.symm.trans hslot) (by decide)
      | succ j => exact absurd (hfails.symm.trans (hbefore 0 (Nat.succ_pos j)).1) (by decide)
    | false =>
      rw [if_neg Bool.false_ne_true, Reading.inBounds_bind, inBounds_keySlotReadDataReading]
      have hok : ((keySlotReadDataReading .cleared dataOffset volumeKeyslotSize).run memory).2 =
          true := succeeds_keySlotReadDataReading .cleared dataOffset
      generalize (keySlotReadDataReading .cleared dataOffset volumeKeyslotSize).run memory = r
        at hok
      obtain ⟨keySlot, ok⟩ := r
      cases hok
      simp only
      cases happend : env.slotAppendFails keySlotIndex with
      | true =>
        rw [if_pos rfl]
        constructor
        · rintro ⟨hfirst, -⟩ j hj hslot hbefore
          cases j with
          | zero => exact hfirst
          | succ j => exact absurd (happend.symm.trans (hbefore 0 (Nat.succ_pos j)).2) (by decide)
        · intro h
          exact ⟨h 0 (Nat.succ_pos n) hfails fun l hl => absurd hl (Nat.not_lt_zero l),
            Reading.inBounds_pure _⟩
      | false =>
        rw [if_neg Bool.false_ne_true, ih]
        constructor
        · rintro ⟨hfirst, hrest⟩ j hj hslot hbefore
          cases j with
          | zero => exact hfirst
          | succ j =>
            have hnext := hrest j (by omega) (by rw [Nat.add_right_comm]; exact hslot)
              fun l hl => by
                rw [Nat.add_right_comm]
                exact hbefore (l + 1) (by omega)
            unfold volumeKeyslotSize at hnext
            omega
        · intro h
          refine ⟨h 0 (Nat.succ_pos n) hfails fun l hl => absurd hl (Nat.not_lt_zero l), ?_⟩
          intro j hj hslot hbefore
          rw [Nat.add_right_comm] at hslot
          have hnext := h (j + 1) (by omega) hslot fun l hl => by
            cases l with
            | zero => exact ⟨hfails, happend⟩
            | succ l =>
              have hl := hbefore l (by omega)
              rw [Nat.add_right_comm] at hl
              exact hl
          unfold volumeKeyslotSize
          omega

/-- The loop comes to a key slot, and reads it. -/
def HeaderReadEnvironment.ReadsKeySlot (env : HeaderReadEnvironment) (i : ℕ) : Prop :=
  env.slotInitializeFails i = false ∧
    ∀ j < i, env.slotInitializeFails j = false ∧ env.slotAppendFails j = false

/-- The fixed part of a header is within the first 208 bytes. -/
theorem within_fixedPart (L : Libraries) (env : HeaderReadEnvironment) (header : VolumeHeader) :
    Reading.Within 0 208 (uint16Reading 6) ∧ Reading.Within 0 208 (readFieldsReading header) ∧
    Reading.Within 0 208 (identifierReading L env) ∧
    Reading.Within 0 208 (volumeParseEncryptionMethodReading header 8) ∧
    Reading.Within 0 208 (volumeParseEncryptionModeReading header 40) ∧
    Reading.Within 0 208 (volumeParseHashingMethodReading header 72) := by
  have hwindow : ∀ {i n : ℕ}, i + n ≤ 208 →
      Reading.Within 0 208 (Reading.window i n : Reading UInt8 (List UInt8)) :=
    fun hi => Reading.within_window (Nat.zero_le _) hi
  have huint32 : ∀ {i : ℕ}, i + 4 ≤ 208 → Reading.Within 0 208 (uint32Reading i) :=
    fun hi => (hwindow hi).bind fun _ => Reading.within_pure _
  refine ⟨(hwindow (by decide)).bind fun _ => Reading.within_pure _, ?_,
    (hwindow (by decide)).bind fun _ => Reading.within_pure _, ?_, ?_, ?_⟩
  · refine Reading.Within.ite ?_ (Reading.within_pure _)
    refine (huint32 (by decide)).bind fun _ => (huint32 (by decide)).bind fun _ => ?_
    refine (hwindow (by decide)).bind fun _ => (hwindow (by decide)).bind fun _ => ?_
    exact (huint32 (by decide)).bind fun _ => Reading.within_pure _
  · refine (within_parsers.1.mono (Nat.zero_le _) (by decide)).bind fun parsed => ?_
    cases parsed with
    | none => exact Reading.within_pure _
    | some method => exact Reading.within_pure _
  · refine (within_parsers.2.1.mono (Nat.zero_le _) (by decide)).bind fun parsed => ?_
    cases parsed with
    | none => exact Reading.within_pure _
    | some chainingMode =>
      exact (within_parsers.2.2.1.mono (Nat.zero_le _) (by decide)).bind fun _ =>
        Reading.within_pure _
  · refine (within_parsers.2.2.2.mono (Nat.zero_le _) (by decide)).bind fun parsed => ?_
    cases parsed with
    | none => exact Reading.within_pure _
    | some method => exact Reading.within_pure _

/-- The data pass all checks of a header of version 1, and the loop comes to a key slot that is
not all there. -/
def ReadsBehind (L : Libraries) (env : HeaderReadEnvironment) (data : List UInt8)
    (dataSize : ℕ) : Prop :=
  HeaderChecks data dataSize ∧ byteStreamCopyToUInt16BigEndian (data.drop 6) = 1 ∧
    env.header.identifier L data ≠ none ∧
    ∃ i < 8, env.ReadsKeySlot i ∧ dataSize < 208 + 48 * (i + 1)

/-- Where the names and the fixed part are there, only the key slots matter. -/
theorem inBounds_readVersion1MethodsReading (env : HeaderReadEnvironment) (header : VolumeHeader)
    (hsize : 208 ≤ size) :
    Reading.InBounds memory size (readVersion1MethodsReading env header) ↔
      ∀ i < 8, env.ReadsKeySlot i → 208 + 48 * (i + 1) ≤ size := by
  obtain ⟨-, -, -, hmethod, -, -⟩ := within_fixedPart (.ofTables [] [] []) env header
  rw [readVersion1MethodsReading, Reading.inBounds_bind, and_iff_right (hmethod.inBounds hsize)]
  generalize (volumeParseEncryptionMethodReading header 8).run memory = header
  obtain ⟨-, -, -, -, hmode, -⟩ := within_fixedPart (.ofTables [] [] []) env header
  rw [Reading.inBounds_bind, and_iff_right (hmode.inBounds hsize)]
  generalize (volumeParseEncryptionModeReading header 40).run memory = header
  obtain ⟨-, -, -, -, -, hhash⟩ := within_fixedPart (.ofTables [] [] []) env header
  rw [Reading.inBounds_bind, and_iff_right (hhash.inBounds hsize), inBounds_readKeySlotsReading]
  simp only [Nat.zero_add, HeaderReadEnvironment.ReadsKeySlot, and_imp]
  rfl

/-- The reader stays below the size, unless there is a key slot behind it. -/
theorem inBounds_volumeHeaderReadDataReading (L : Libraries) (env : HeaderReadEnvironment)
    (header : VolumeHeader) {data : List UInt8} (hdata : DataOf memory data) (dataSize : ℕ) :
    Reading.InBounds memory dataSize (volumeHeaderReadDataReading L env header dataSize) ↔
      ¬ ReadsBehind L env data dataSize := by
  rw [volumeHeaderReadDataReading]
  by_cases hchecked : dataSize < volumeHeaderV1Size ∨ dataSize > ssizeMax
  · rw [if_pos hchecked]
    refine iff_of_true (Reading.inBounds_pure _) ?_
    rintro ⟨⟨hlower, hupper, -⟩, -⟩
    omega
  have hsize : 208 ≤ dataSize := by
    unfold volumeHeaderV1Size at hchecked
    omega
  rw [if_neg hchecked, Reading.inBounds_bind, Reading.inBounds_window (by decide),
    and_iff_right (by omega), hdata.window (by decide)]
  by_cases hsignature : slice 0 6 data ≠ luksdeSignature ∧
      slice 0 6 data ≠ luksdeBackupVolumeHeaderSignature
  · rw [if_pos hsignature]
    refine iff_of_true (Reading.inBounds_pure _) ?_
    rintro ⟨⟨-, -, hsupported⟩, -⟩
    tauto
  rw [if_neg hsignature, readVersionReading]
  simp only
  obtain ⟨hversion, -, hidentifier, -, -, -⟩ := within_fixedPart L env header
  rw [Reading.inBounds_bind, and_iff_right (hversion.inBounds hsize), hdata.uint16 (by decide)]
  have hchecks : HeaderChecks data dataSize := ⟨by omega, by omega, by tauto⟩
  have hbehind : ReadsBehind L env data dataSize ↔
      byteStreamCopyToUInt16BigEndian (data.drop 6) = 1 ∧ env.header.identifier L data ≠ none ∧
        ∃ i < 8, env.ReadsKeySlot i ∧ dataSize < 208 + 48 * (i + 1) := and_iff_right hchecks
  rw [hbehind]
  generalize byteStreamCopyToUInt16BigEndian (data.drop 6) = formatVersion
  by_cases hone : formatVersion = 1
  · subst hone
    rw [if_neg (by decide), if_neg (by rintro ⟨htwo, -⟩; exact absurd htwo (by decide))]
    have hfields := (within_fixedPart L env { header with formatVersion := 1 }).2.1
    rw [Reading.inBounds_bind, and_iff_right (hfields.inBounds hsize), Reading.inBounds_bind,
      and_iff_right (hidentifier.inBounds hsize), run_identifierReading hdata]
    cases env.header.identifier L data with
    | none =>
      refine iff_of_true (Reading.inBounds_pure _) ?_
      rintro ⟨-, hne, -⟩
      exact hne rfl
    | some volumeIdentifier =>
      simp only
      rw [if_pos trivial, inBounds_readVersion1MethodsReading env _ hsize]
      simp only [true_and, ne_eq, reduceCtorEq, not_false_eq_true, not_exists, not_and, Nat.not_lt]
  · refine iff_of_true ?_ fun hall => hone hall.1
    split
    · exact Reading.inBounds_pure _
    · split
      · exact Reading.inBounds_pure _
      · have hfields := (within_fixedPart L env { header with formatVersion := formatVersion }).2.1
        rw [Reading.inBounds_bind, and_iff_right (hfields.inBounds hsize), Reading.inBounds_bind,
          and_iff_right (hidentifier.inBounds hsize)]
        cases (identifierReading L env).run memory with
        | none => exact Reading.inBounds_pure _
        | some volumeIdentifier => exact Reading.inBounds_pure _

end

/-! ## The bounds of the reader -/

/-- The size that a header of a version has, with the key slots. -/
def headerSize (formatVersion : UInt16) : ℕ :=
  if formatVersion = 1 then volumeHeaderV1Size + 8 * volumeKeyslotSize
  else if formatVersion = 2 then volumeHeaderV2Size
  else volumeHeaderV1Size

/-- What is read with success is no shorter than its version, or a key slot is not all there. -/
theorem headerSize_le_of_read {L : Libraries} {env : HeaderReadEnvironment}
    {header header' : VolumeHeader} {data : List UInt8} {dataSize : ℕ}
    (h : volumeHeaderReadData L env.header header data dataSize = (header', true))
    (hno : ¬ ReadsBehind L env data dataSize) :
    headerSize (byteStreamCopyToUInt16BigEndian (data.drop 6)) ≤ dataSize := by
  obtain ⟨hchecks, volumeIdentifier, hidentifier, hversion⟩ := volumeHeaderReadData_inv h
  obtain ⟨hone, hread⟩ | ⟨htwo, -⟩ := hversion
  · -- all eight key slots are read, also the last one
    have hsucceeds := congrArg Prod.snd hread
    rw [readVersion1Methods, readKeySlots_succeeds] at hsucceeds
    have hslots : ∀ i < 8, env.slotInitializeFails i = false ∧ env.slotAppendFails i = false := by
      intro i hi
      have hslot := hsucceeds i hi
      rw [Nat.zero_add] at hslot
      exact Bool.or_eq_false_iff.mp hslot
    by_contra hshort
    refine hno ⟨hchecks, hone, by rw [hidentifier]; exact Option.some_ne_none _, 7, by decide, ?_, ?_⟩
    · exact ⟨(hslots 7 (by decide)).1, fun j hj => hslots j (by omega)⟩
    · rw [hone, headerSize, if_pos rfl] at hshort
      exact Nat.not_le.mp hshort
  · rw [htwo, headerSize, if_neg (by decide), if_pos rfl]
    exact volumeHeaderReadData_version2_size h htwo

/-- The reader stays below the size that it is given, and rejects what is too short for its
version, unless the loop of a header of version 1 comes to a key slot that is not all there. -/
theorem volumeHeaderReadData_inBounds_iff (L : Libraries) (env : HeaderReadEnvironment)
    (header : VolumeHeader) (memory : ℕ → UInt8) (dataSize : ℕ) :
    let data := (List.range 592).map memory
    let reading := volumeHeaderReadDataReading L env header dataSize
    reading.run memory = volumeHeaderReadData L env.header header data dataSize ∧
    ((reading.InBounds memory dataSize ∧
        (dataSize < headerSize (byteStreamCopyToUInt16BigEndian (data.drop 6)) →
          (reading.run memory).2 = false)) ↔
      ¬ ReadsBehind L env data dataSize) := by
  intro data reading
  have hlength : data.length = 592 := by rw [List.length_map, List.length_range]
  have hdata : DataOf memory data := by
    refine ⟨hlength.ge, fun i hi => ?_⟩
    rw [byteAt, List.getD_eq_getElem _ _ (by omega), List.getElem_map, List.getElem_range]
  have hrun := run_volumeHeaderReadDataReading hdata L env header dataSize
  refine ⟨hrun, ?_⟩
  rw [← inBounds_volumeHeaderReadDataReading L env header hdata]
  refine ⟨fun h => h.1, fun hbounds => ⟨hbounds, fun hshort => ?_⟩⟩
  have hno := (inBounds_volumeHeaderReadDataReading L env header hdata dataSize).mp hbounds
  cases hresult : (reading.run memory).2 with
  | false => rfl
  | true =>
    have hread := headerSize_le_of_read (hrun.symm.trans (Prod.ext rfl hresult)) hno
    exact absurd hshort (Nat.not_lt.mpr hread)

/-- The fixed part of the header of the small volume is accepted, and the last byte behind it that
is read is that of the last key slot. -/
theorem fixedPart_readsBehind :
    let memory := byteAt (encodeHeader smallRecord)
    let reading := volumeHeaderReadDataReading smallLibraries {} .cleared 208
    (reading.run memory).2 = true ∧ 591 ∈ reading.reads memory := by
  decide +kernel

end Libluksde
