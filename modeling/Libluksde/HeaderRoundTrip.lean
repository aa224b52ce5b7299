import Libluksde.SpecificationNames

/-!
# Encoding and decoding headers

The layout of a header of version 1 as the documentation gives it, as an encoder of header
records, and the two round trips: the reader gives back the values of an encoded record, and
encoding what the reader got from a buffer gives back the bytes of the buffer.
-/

namespace Libluksde

open Lib.Bytes

/-! ## Records and their layout -/

/-- The values of a key slot on disk. -/
structure KeySlotRecord where
  state : UInt32
  numberOfIterations : UInt32
  salt : Buffer 32
  startSector : UInt32
  numberOfStripes : UInt32
deriving DecidableEq

/-- The 48 bytes of a key slot. -/
def encodeKeySlot (r : KeySlotRecord) : List UInt8 :=
  byteStreamCopyFromUInt32BigEndian r.state ++
    (byteStreamCopyFromUInt32BigEndian r.numberOfIterations ++
      (r.salt.bytes ++
        (byteStreamCopyFromUInt32BigEndian r.startSector ++
          byteStreamCopyFromUInt32BigEndian r.numberOfStripes)))

/-- The values of a header of version 1 on disk. -/
structure HeaderRecord where
  encryptionMethod : Buffer 32
  encryptionMode : Buffer 32
  hashingMethod : Buffer 32
  encryptedVolumeStartSector : UInt32
  masterKeySize : UInt32
  masterKeyValidationHash : Buffer 20
  masterKeySalt : Buffer 32
  masterKeyNumberOfIterations : UInt32
  volumeIdentifier : Buffer 40
  keySlots : List KeySlotRecord
  length_keySlots : keySlots.length = 8

/-- The 592 bytes of a header of version 1 with its key slots. -/
def encodeHeader (r : HeaderRecord) : List UInt8 :=
  luksdeSignature ++
    (byteStreamCopyFromUInt16BigEndian 1 ++
      (r.encryptionMethod.bytes ++
        (r.encryptionMode.bytes ++
          (r.hashingMethod.bytes ++
            (byteStreamCopyFromUInt32BigEndian r.encryptedVolumeStartSector ++
              (byteStreamCopyFromUInt32BigEndian r.masterKeySize ++
                (r.masterKeyValidationHash.bytes ++
                  (r.masterKeySalt.bytes ++
                    (byteStreamCopyFromUInt32BigEndian r.masterKeyNumberOfIterations ++
                      (r.volumeIdentifier.bytes ++ r.keySlots.flatMap encodeKeySlot))))))))))

/-- The key slot with the values of a record. -/
def KeySlotRecord.keySlot (r : KeySlotRecord) : KeySlot :=
  ⟨r.state, r.startSector.toNat, r.salt, r.numberOfIterations, r.numberOfStripes⟩

/-- The record with the values of a key slot. -/
def KeySlot.record (k : KeySlot) : KeySlotRecord :=
  ⟨k.state, k.numberOfIterations, k.salt, UInt32.ofNat k.keyMaterialOffset.toNat,
    k.numberOfStripes⟩

/-- What the encryption mode of a record sets, by the tables of names; of `ecb` the bytes behind
the NUL have a part in it. -/
def HeaderRecord.modeValues (r : HeaderRecord) : ModeValues :=
  (recognizedMode (nameOf r.encryptionMode.bytes) (nameOf (r.encryptionMode.bytes.drop 4))).getD
    (.unknown, .unknown, none)

/-- The header with the values of a record: the method names are looked up, and the
identifier is given in its binary form. -/
def HeaderRecord.volumeHeader (r : HeaderRecord) (volumeIdentifier : Buffer 16) : VolumeHeader where
  formatVersion := 1
  encryptedVolumeStartSector := r.encryptedVolumeStartSector.toNat
  masterKeySize := r.masterKeySize
  masterKeyValidationHash := r.masterKeyValidationHash
  masterKeySalt := r.masterKeySalt
  masterKeyNumberOfIterations := r.masterKeyNumberOfIterations
  encryptionMethod := (named methodNames (nameOf r.encryptionMethod.bytes)).getD .unknown
  encryptionChainingMode := r.modeValues.1
  initializationVectorMode := r.modeValues.2.1
  hashingMethod := (named hashNames (nameOf r.hashingMethod.bytes)).getD .unknown
  essivHashingMethod := r.modeValues.2.2.getD .unknown
  volumeIdentifier := volumeIdentifier
  keySlotsArray := r.keySlots.map KeySlotRecord.keySlot

@[simp] theorem length_byteStreamCopyFromUInt32BigEndian (value : UInt32) :
    (byteStreamCopyFromUInt32BigEndian value).length = 4 := by
  rw [byteStreamCopyFromUInt32BigEndian_eq, length_toBigEndian]

@[simp] theorem length_encodeKeySlot (r : KeySlotRecord) : (encodeKeySlot r).length = 48 := by
  simp [encodeKeySlot]

/-! ## Decoding what was encoded -/

/-- Dropping a prefix. -/
theorem drop_append_of_le {n : ℕ} {l₁ l₂ : List UInt8} (h : l₁.length ≤ n) :
    (l₁ ++ l₂).drop n = l₂.drop (n - l₁.length) := by
  rw [List.drop_append, List.drop_eq_nil_of_le h, List.nil_append]

theorem keySlotReadData_encode (r : KeySlotRecord) (rest : List UInt8) :
    keySlotReadData .cleared (encodeKeySlot r ++ rest) volumeKeyslotSize = (r.keySlot, true) := by
  have h4 : (encodeKeySlot r ++ rest).drop 4 =
      byteStreamCopyFromUInt32BigEndian r.numberOfIterations ++ (r.salt.bytes ++
        (byteStreamCopyFromUInt32BigEndian r.startSector ++
          (byteStreamCopyFromUInt32BigEndian r.numberOfStripes ++ rest))) := by
    simp [encodeKeySlot]
  have h8 : slice 8 32 (encodeKeySlot r ++ rest) = r.salt.bytes := by
    simp [encodeKeySlot, slice_append_right, slice_zero_append]
  have h40 : (encodeKeySlot r ++ rest).drop 40 =
      byteStreamCopyFromUInt32BigEndian r.startSector ++
        (byteStreamCopyFromUInt32BigEndian r.numberOfStripes ++ rest) := by
    simp [encodeKeySlot, drop_append_of_le]
  have h44 : (encodeKeySlot r ++ rest).drop 44 =
      byteStreamCopyFromUInt32BigEndian r.numberOfStripes ++ rest := by
    simp [encodeKeySlot, drop_append_of_le]
  have h0 : byteStreamCopyToUInt32BigEndian (encodeKeySlot r ++ rest) = r.state := by
    rw [encodeKeySlot, List.append_assoc, byteStreamCopyToUInt32BigEndian_from]
  rw [keySlotReadData, if_neg (by decide), h0, h4, h8, h40, h44,
    byteStreamCopyToUInt32BigEndian_from, byteStreamCopyToUInt32BigEndian_from,
    byteStreamCopyToUInt32BigEndian_from, Buffer.ofBytes_bytes]
  rfl

/-- The key slot loop reads encoded key slots one after the other. -/
theorem readKeySlots_encode (rs : List KeySlotRecord) {data rest : List UInt8} {offset : ℕ}
    (hdata : data.drop offset = rs.flatMap encodeKeySlot ++ rest) (header : VolumeHeader)
    (i : ℕ) :
    readKeySlots {} data rs.length header i offset =
      ({ header with
          keySlotsArray := header.keySlotsArray ++ rs.map KeySlotRecord.keySlot }, true) := by
  induction rs generalizing offset header i with
  | nil => simp [readKeySlots]
  | cons r rs ih =>
    rw [List.flatMap_cons, List.append_assoc] at hdata
    have hnext : data.drop (offset + volumeKeyslotSize) = rs.flatMap encodeKeySlot ++ rest := by
      rw [← List.drop_drop, hdata, volumeKeyslotSize, List.drop_left' (length_encodeKeySlot r)]
    rw [List.length_cons, readKeySlots, hdata, keySlotReadData_encode]
    simp only [Bool.false_eq_true, if_false]
    rw [ih hnext]
    simp

/-- What the parser of the encryption mode makes of a new header. -/
theorem HeaderRecord.volumeParseEncryptionMode (r : HeaderRecord) (header : VolumeHeader)
    (hchaining : header.encryptionChainingMode = .unknown)
    (hvector : header.initializationVectorMode = .unknown)
    (hessiv : header.essivHashingMethod = .unknown) :
    Libluksde.volumeParseEncryptionMode header r.encryptionMode.bytes =
      header.withMode r.modeValues := by
  rw [volumeParseEncryptionMode_eq header (by rw [Buffer.length_eq]; decide), modeValues]
  cases recognizedMode (nameOf r.encryptionMode.bytes)
      (nameOf (r.encryptionMode.bytes.drop 4)) with
  | some mode => rfl
  | none =>
    cases header
    simp only at hchaining hvector hessiv
    subst hchaining hvector hessiv
    rfl

theorem length_luksdeSignature : luksdeSignature.length = 6 := by decide

theorem length_byteStreamCopyFromUInt16BigEndian (value : UInt16) :
    (byteStreamCopyFromUInt16BigEndian value).length = 2 := by
  simp [byteStreamCopyFromUInt16BigEndian]

@[simp] theorem length_encodeHeader (r : HeaderRecord) : (encodeHeader r).length = 592 := by
  simp [encodeHeader, r.length_keySlots, length_luksdeSignature,
    length_byteStreamCopyFromUInt16BigEndian]

theorem byteStreamCopyToUInt16BigEndian_one (bs : List UInt8) :
    byteStreamCopyToUInt16BigEndian (byteStreamCopyFromUInt16BigEndian 1 ++ bs) = 1 := by
  simp only [byteStreamCopyToUInt16BigEndian, byteStreamCopyFromUInt16BigEndian, byteAt,
    List.cons_append, List.nil_append, List.getD_cons_zero, List.getD_cons_succ]
  decide

/-- The fields of an encoded header are at the documented places. -/
theorem encodeHeader_fields (r : HeaderRecord) (rest : List UInt8) :
    slice 0 6 (encodeHeader r ++ rest) = luksdeSignature ∧
    slice 8 32 (encodeHeader r ++ rest) = r.encryptionMethod.bytes ∧
    slice 40 32 (encodeHeader r ++ rest) = r.encryptionMode.bytes ∧
    slice 72 32 (encodeHeader r ++ rest) = r.hashingMethod.bytes ∧
    slice 112 20 (encodeHeader r ++ rest) = r.masterKeyValidationHash.bytes ∧
    slice 132 32 (encodeHeader r ++ rest) = r.masterKeySalt.bytes ∧
    slice 168 40 (encodeHeader r ++ rest) = r.volumeIdentifier.bytes ∧
    (encodeHeader r ++ rest).drop 208 = r.keySlots.flatMap encodeKeySlot ++ rest := by
  have h6 := length_luksdeSignature
  have h2 := length_byteStreamCopyFromUInt16BigEndian 1
  simp [encodeHeader, slice_append_right, slice_zero_append, drop_append_of_le, h6, h2]

/-- The numbers of an encoded header are at the documented places. -/
theorem encodeHeader_numbers (r : HeaderRecord) (rest : List UInt8) :
    byteStreamCopyToUInt16BigEndian ((encodeHeader r ++ rest).drop 6) = 1 ∧
    byteStreamCopyToUInt32BigEndian ((encodeHeader r ++ rest).drop 104) =
      r.encryptedVolumeStartSector ∧
    byteStreamCopyToUInt32BigEndian ((encodeHeader r ++ rest).drop 108) = r.masterKeySize ∧
    byteStreamCopyToUInt32BigEndian ((encodeHeader r ++ rest).drop 164) =
      r.masterKeyNumberOfIterations := by
  have h6 := length_luksdeSignature
  have h2 := length_byteStreamCopyFromUInt16BigEndian 1
  refine ⟨?_, ?_, ?_, ?_⟩
  · simp only [encodeHeader, List.append_assoc, List.drop_left' h6,
      byteStreamCopyToUInt16BigEndian_one]
  all_goals
    simp [encodeHeader, drop_append_of_le, h6, h2, byteStreamCopyToUInt32BigEndian_from]

/-- The reader gives back the values of an encoded record. -/
theorem volumeHeaderReadData_encode (L : Libraries) (r : HeaderRecord) {rest : List UInt8}
    {identifier : Buffer 16}
    (hidentifier : L.identifierFromUtf8String r.volumeIdentifier.bytes = some identifier)
    {size : ℕ} (hsize : volumeHeaderV1Size ≤ size ∧ size ≤ ssizeMax) :
    volumeHeaderReadData L {} .cleared (encodeHeader r ++ rest) size
      = (r.volumeHeader identifier, true) := by
  obtain ⟨hsig, hmethod, hmode, hhash, hvhash, hsalt, hguid, hslots⟩ :=
    encodeHeader_fields r rest
  obtain ⟨hversion, hstart, hkey, hiter⟩ := encodeHeader_numbers r rest
  have hid : (HeaderEnvironment.identifier L {} (encodeHeader r ++ rest)) = some identifier := by
    rw [HeaderEnvironment.identifier, hguid, hidentifier]
    rfl
  have hloop := fun header : VolumeHeader => readKeySlots_encode r.keySlots hslots header 0
  rw [r.length_keySlots] at hloop
  rw [volumeHeaderReadData_version1 ⟨hsize.1, hsize.2, Or.inl hsig⟩ hversion hid,
    readVersion1Methods, volumeHeaderV1Size, hloop, version1Header, readVersion1Fields, hmethod,
    hmode, hhash, hvhash, hsalt, hstart, hkey, hiter, volumeParseHashingMethod_eq,
    volumeParseEncryptionMethod_eq, r.volumeParseEncryptionMode _ rfl rfl rfl]
  simp only [Buffer.ofBytes_bytes]
  rfl

/-! ## Encoding what was decoded -/

/-- Writing back a number that was read from inside a buffer. -/
theorem byteStreamCopyFromUInt32BigEndian_drop {data : List UInt8} {i : ℕ}
    (h : i + 4 ≤ data.length) :
    byteStreamCopyFromUInt32BigEndian (byteStreamCopyToUInt32BigEndian (data.drop i)) =
      slice i 4 data := by
  have htake : byteStreamCopyToUInt32BigEndian (data.drop i) =
      byteStreamCopyToUInt32BigEndian (slice i 4 data) := by
    simp [byteStreamCopyToUInt32BigEndian, byteAt, slice, List.getD]
  rw [htake, byteStreamCopyFromUInt32BigEndian_to (length_slice_of_le h)]

/-- The key slot that is read at an offset. -/
def keySlotAt (data : List UInt8) (offset : ℕ) : KeySlot :=
  (keySlotReadData .cleared (data.drop offset) volumeKeyslotSize).1

/-- Encoding a key slot gives back the bytes it was read from. -/
theorem encodeKeySlot_keySlotAt {data : List UInt8} {o : ℕ} (h : o + 48 ≤ data.length) :
    encodeKeySlot (keySlotAt data o).record = slice o 48 data := by
  have hsalt : (Buffer.ofBytes 32 (slice 8 32 (data.drop o))).bytes = slice (o + 8) 32 data := by
    rw [Buffer.bytes_ofBytes (length_slice_of_le (by rw [List.length_drop]; omega)), slice,
      List.drop_drop, slice]
  have hoffset : UInt32.ofNat
      ((byteStreamCopyToUInt32BigEndian ((data.drop o).drop 40)).toNat : ℤ).toNat =
      byteStreamCopyToUInt32BigEndian (data.drop (o + 40)) := by
    rw [Int.toNat_natCast, UInt32.ofNat_toNat, List.drop_drop]
  rw [keySlotAt, keySlotReadData, if_neg (by decide), KeySlot.record, encodeKeySlot]
  simp only [hsalt, hoffset]
  rw [List.drop_drop, List.drop_drop, byteStreamCopyFromUInt32BigEndian_drop (by omega),
    byteStreamCopyFromUInt32BigEndian_drop (by omega),
    byteStreamCopyFromUInt32BigEndian_drop (by omega),
    byteStreamCopyFromUInt32BigEndian_drop (by omega), slice_append_slice, slice_append_slice,
    slice_append_slice, slice_append_slice]

/-- The key slots that a successful key slot loop has appended. -/
theorem readKeySlots_inv {env : HeaderEnvironment} {data : List UInt8} {n : ℕ}
    {header header' : VolumeHeader} {i offset : ℕ}
    (h : readKeySlots env data n header i offset = (header', true)) :
    header' = { header with
      keySlotsArray := header.keySlotsArray ++
        (List.range n).map fun k => keySlotAt data (offset + 48 * k) } := by
  induction n generalizing header i offset with
  | zero =>
    rw [readKeySlots] at h
    cases h
    simp
  | succ n ih =>
    rw [readKeySlots] at h
    split at h
    · cases h
    · have hread : keySlotReadData .cleared (data.drop offset) volumeKeyslotSize =
          (keySlotAt data offset, true) := by
        rw [keySlotAt, keySlotReadData, if_neg (by decide)]
      rw [hread] at h
      rw [ih h, List.range_succ_eq_map]
      simp [volumeKeyslotSize, Function.comp_def, Nat.mul_add, Nat.add_assoc, Nat.add_comm 48]

/-- The key slots are read when no round of the loop fails. -/
theorem readKeySlots_succeeds (env : HeaderEnvironment) (data : List UInt8) (n : ℕ)
    (header : VolumeHeader) (i offset : ℕ) :
    (readKeySlots env data n header i offset).2 = true ↔ ∀ k < n, env.slotFails (i + k) = false := by
  induction n generalizing header i offset with
  | zero => exact iff_of_true rfl fun k hk => absurd hk (Nat.not_lt_zero k)
  | succ n ih =>
    have hread : keySlotReadData .cleared (data.drop offset) volumeKeyslotSize =
        (keySlotAt data offset, true) := by
      rw [keySlotAt, keySlotReadData, if_neg (by decide)]
    rw [readKeySlots, hread]
    cases hfails : env.slotFails i with
    | true =>
      refine iff_of_false Bool.false_ne_true fun h => ?_
      have hfirst := h 0 (Nat.succ_pos n)
      rw [Nat.add_zero, hfails] at hfirst
      cases hfirst
    | false =>
      rw [if_neg Bool.false_ne_true]
      simp only
      rw [ih]
      constructor
      · intro h k hk
        cases k with
        | zero => exact hfails
        | succ k =>
          rw [← Nat.succ_add_eq_add_succ]
          exact h k (by omega)
      · intro h k hk
        rw [Nat.succ_add_eq_add_succ]
        exact h (k + 1) (by omega)

/-- Where a round fails, the array is emptied. -/
theorem readKeySlots_fails {env : HeaderEnvironment} {data : List UInt8} {n : ℕ}
    {header : VolumeHeader} {i offset : ℕ}
    (h : (readKeySlots env data n header i offset).2 = false) :
    (readKeySlots env data n header i offset).1.keySlotsArray = [] := by
  induction n generalizing header i offset with
  | zero => cases h
  | succ n ih =>
    rw [readKeySlots] at h ⊢
    split
    · rfl
    · rename_i hfails
      rw [if_neg hfails] at h
      split
      · rfl
      · rename_i keySlot hread
        rw [hread] at h
        exact ih h

/-- What a successful reading of the names and key slots leaves in a header. -/
theorem readVersion1Methods_inv {env : HeaderEnvironment} {header header' : VolumeHeader}
    {data : List UInt8} (h : readVersion1Methods env header data = (header', true)) :
    ∃ v e, header' = { header with
      encryptionMethod :=
        (named methodNames (nameOf (slice 8 32 data))).getD header.encryptionMethod
      encryptionChainingMode :=
        (parsedChainingMode (slice 40 32 data)).getD header.encryptionChainingMode
      initializationVectorMode := v
      hashingMethod := (named hashNames (nameOf (slice 72 32 data))).getD header.hashingMethod
      essivHashingMethod := e
      keySlotsArray := header.keySlotsArray ++
        (List.range 8).map fun k => keySlotAt data (208 + 48 * k) } := by
  rw [readVersion1Methods] at h
  have hloop := readKeySlots_inv h
  obtain ⟨v, e, hmode⟩ := volumeParseEncryptionMode_frame
    (volumeParseEncryptionMethod header (slice 8 32 data)) (slice 40 32 data)
  rw [volumeParseHashingMethod_eq, hmode, volumeParseEncryptionMethod_eq] at hloop
  exact ⟨v, e, hloop⟩

/-- Re-encoding an accepted header of version 1 gives back the bytes of its buffer. -/
theorem encode_volumeHeaderReadData {L : Libraries} {env : HeaderEnvironment}
    {data : List UInt8} {header : VolumeHeader} (hsize : 592 ≤ data.length)
    (h : volumeHeaderReadData L env .cleared data data.length = (header, true))
    (hversion : header.formatVersion = 1) :
    byteStreamCopyFromUInt16BigEndian header.formatVersion = slice 6 2 data ∧
    byteStreamCopyFromUInt32BigEndian (UInt32.ofNat header.encryptedVolumeStartSector) =
      slice 104 4 data ∧
    byteStreamCopyFromUInt32BigEndian header.masterKeySize = slice 108 4 data ∧
    header.masterKeyValidationHash.bytes = slice 112 20 data ∧
    header.masterKeySalt.bytes = slice 132 32 data ∧
    byteStreamCopyFromUInt32BigEndian header.masterKeyNumberOfIterations = slice 164 4 data ∧
    header.keySlotsArray.map (fun k => encodeKeySlot k.record) =
      (List.range 8).map fun i => slice (208 + 48 * i) 48 data := by
  obtain ⟨-, identifier, -, hread | ⟨-, rfl⟩⟩ := volumeHeaderReadData_inv h
  · obtain ⟨hv, hread⟩ := hread
    obtain ⟨v, e, rfl⟩ := readVersion1Methods_inv hread
    have hversion' : byteStreamCopyToUInt16BigEndian (slice 6 2 data) = 1 := by
      rw [← hv]
      simp [byteStreamCopyToUInt16BigEndian, byteAt, slice, List.getD]
    refine ⟨?_, ?_, ?_, ?_, ?_, ?_, ?_⟩
    · rw [hversion, ← hversion']
      exact byteStreamCopyFromUInt16BigEndian_to (length_slice_of_le (by omega))
    · simp only [version1Header, readVersion1Fields, UInt32.ofNat_toNat]
      exact byteStreamCopyFromUInt32BigEndian_drop (by omega)
    · exact byteStreamCopyFromUInt32BigEndian_drop (by omega)
    · exact Buffer.bytes_ofBytes (length_slice_of_le (by omega))
    · exact Buffer.bytes_ofBytes (length_slice_of_le (by omega))
    · exact byteStreamCopyFromUInt32BigEndian_drop (by omega)
    · simp only [version1Header, readVersion1Fields, VolumeHeader.cleared, List.nil_append,
        List.map_map]
      refine List.map_congr_left fun i hi => ?_
      have hi : i < 8 := List.mem_range.1 hi
      exact encodeKeySlot_keySlotAt (by omega)
  · have h21 : ¬ (2 : UInt16) = 1 := by decide
    exact absurd hversion h21

/-- **Decoding inverts encoding.**  Reading an encoded record, whatever follows it, gives the
values of the record, and encoding what was read from an accepted buffer of version 1 gives
the bytes of the buffer. -/
theorem volumeHeader_round_trip (L : Libraries) :
    (∀ (r : HeaderRecord) (rest : List UInt8) (identifier : Buffer 16),
      L.identifierFromUtf8String r.volumeIdentifier.bytes = some identifier →
      (encodeHeader r ++ rest).length ≤ ssizeMax →
      volumeHeaderReadData L {} .cleared (encodeHeader r ++ rest) (encodeHeader r ++ rest).length
        = (r.volumeHeader identifier, true)) ∧
    (∀ (env : HeaderEnvironment) (data : List UInt8) (header : VolumeHeader),
      592 ≤ data.length →
      volumeHeaderReadData L env .cleared data data.length = (header, true) →
      header.formatVersion = 1 →
      byteStreamCopyFromUInt16BigEndian header.formatVersion = slice 6 2 data ∧
      byteStreamCopyFromUInt32BigEndian (UInt32.ofNat header.encryptedVolumeStartSector) =
        slice 104 4 data ∧
      byteStreamCopyFromUInt32BigEndian header.masterKeySize = slice 108 4 data ∧
      header.masterKeyValidationHash.bytes = slice 112 20 data ∧
      header.masterKeySalt.bytes = slice 132 32 data ∧
      byteStreamCopyFromUInt32BigEndian header.masterKeyNumberOfIterations = slice 164 4 data ∧
      header.keySlotsArray.map (fun k => encodeKeySlot k.record) =
        (List.range 8).map fun i => slice (208 + 48 * i) 48 data) := by
  refine ⟨fun r rest identifier hidentifier hsize => ?_, fun env data header hsize h hv =>
    encode_volumeHeaderReadData hsize h hv⟩
  refine volumeHeaderReadData_encode L r hidentifier ⟨?_, hsize⟩
  rw [List.length_append, length_encodeHeader, volumeHeaderV1Size]
  omega

/-- The string `00000000-0000-0000-0000-000000000000`, which libfguid turns into 16 zero bytes. -/
def zeroIdentifier : Buffer 40 :=
  .ofBytes 40 (ascii (List.replicate 8 '0' ++ ['-'] ++ List.replicate 4 '0' ++ ['-'] ++
    List.replicate 4 '0' ++ ['-'] ++ List.replicate 4 '0' ++ ['-'] ++ List.replicate 12 '0'))

/-- A record with the encryption mode `cbc-essiv:sha256`, and a key slot in use. -/
def essivRecord : HeaderRecord where
  encryptionMethod := .ofBytes 32 (ascii ['a', 'e', 's'])
  encryptionMode := .ofBytes 32 (ascii ['c', 'b', 'c', '-', 'e', 's', 's', 'i', 'v', ':', 's', 'h',
    'a', '2', '5', '6'])
  hashingMethod := .ofBytes 32 (ascii ['s', 'h', 'a', '1'])
  encryptedVolumeStartSector := 4096
  masterKeySize := 32
  masterKeyValidationHash := .ofBytes 20 (List.replicate 20 0x11)
  masterKeySalt := .ofBytes 32 (List.replicate 32 0x22)
  masterKeyNumberOfIterations := 1000
  volumeIdentifier := zeroIdentifier
  keySlots := ⟨0x00ac71f3, 2000, .ofBytes 32 (List.replicate 32 0x33), 8, 4000⟩ ::
    List.replicate 7 ⟨0x0000dead, 0, .zero 32, 264, 4000⟩
  length_keySlots := rfl

/-- The record is decoded and encoded again, with three bytes behind it. -/
theorem volumeHeader_round_trip_essiv :
    volumeHeaderReadData (.ofTables [] [] []) {} .cleared (encodeHeader essivRecord ++ [1, 2, 3])
        (encodeHeader essivRecord ++ [1, 2, 3]).length =
      (essivRecord.volumeHeader (.zero 16), true) ∧
    essivRecord.modeValues = (.cbc, .essiv, some .sha256) ∧
    (essivRecord.volumeHeader (.zero 16)).keySlotsArray.map (fun k => encodeKeySlot k.record) =
      (List.range 8).map fun i =>
        slice (208 + 48 * i) 48 (encodeHeader essivRecord ++ [1, 2, 3]) := by
  have hlength : (encodeHeader essivRecord ++ [1, 2, 3]).length = 595 := by
    rw [List.length_append, length_encodeHeader]
    rfl
  have hread := (volumeHeader_round_trip (.ofTables [] [] [])).1 essivRecord [1, 2, 3] (.zero 16)
    rfl (by rw [hlength]; decide)
  obtain ⟨-, -, -, -, -, -, hkeySlots⟩ := (volumeHeader_round_trip (.ofTables [] [] [])).2 {}
    (encodeHeader essivRecord ++ [1, 2, 3]) (essivRecord.volumeHeader (.zero 16))
    (by rw [hlength]; decide) hread rfl
  exact ⟨hread, by decide, hkeySlots⟩

end Libluksde
