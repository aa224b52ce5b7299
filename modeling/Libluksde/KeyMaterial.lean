import Libluksde.UnlockInputs
import Libluksde.KeyedContext
import Libluksde.SplitKey
import Libluksde.OpenSpec
import Libluksde.HeaderRoundTrip

/-!
# The key of a key slot

What one round of the key slot loop computes, as a function of the key slot, the password and
the file.  The place in the key material at which the decryption begins is a parameter: the
code carries it over from the rounds before, and what lies before it in the split master key is
whatever the newly allocated buffer holds.
-/

namespace Libluksde

open Lib.Bytes

variable {L : Libraries}

/-! ## Decrypting the key material -/

/-- `n` sectors of key material, decrypted with sector numbers from `blockKey` on. -/
def decryptSectors (L : Libraries) :
    ℕ → (context : EncryptionContext) → (blockKey : UInt64) → (keyMaterial : List UInt8) →
      Option (List UInt8)
  | 0, _, _, _ => some []
  | n + 1, context, blockKey, keyMaterial =>
    (encryptionContextCrypt L context .decrypt (keyMaterial.take 512) 512 blockKey).bind fun r =>
      (decryptSectors L n r.2 (blockKey + 1) (keyMaterial.drop 512)).map (r.1 ++ ·)

/-- Inside of a buffer the memory is that of the buffer. -/
theorem memoryAt_of_le {buffer : List UInt8} {beyond : ℕ → UInt8} {i n : ℕ}
    (h : i + n ≤ buffer.length) : memoryAt buffer beyond i n = slice i n buffer := by
  rw [memoryAt, List.drop_eq_nil_of_le (by rw [List.length_range]; omega), List.map_nil,
    List.append_nil]

/-- The decryption loop over a whole number of sectors: the data before the offset stays, the rest
is decrypted. -/
theorem decryptKeyMaterial_eq {beyond : ℕ → UInt8} {keyMaterial : List UInt8} {n fuel : ℕ}
    {context : EncryptionContext} {split : List UInt8} {offset : ℕ} {blockKey : UInt64}
    (hfuel : n ≤ fuel) (hlength : split.length = keyMaterial.length)
    (hn : keyMaterial.length ≤ offset ∧ n = 0 ∨ offset + 512 * n = keyMaterial.length) :
    decryptKeyMaterial L beyond 512 keyMaterial fuel context split offset blockKey =
      (decryptSectors L n context blockKey (keyMaterial.drop offset)).map fun data =>
        (split.take offset ++ data, max offset keyMaterial.length) := by
  induction n generalizing fuel context split offset blockKey with
  | zero =>
    have hle : keyMaterial.length ≤ offset := by omega
    have hdone : decryptKeyMaterial L beyond 512 keyMaterial fuel context split offset blockKey
        = some (split, offset) := by
      cases fuel with
      | zero => rfl
      | succ fuel => rw [decryptKeyMaterial, if_neg (by omega)]
    rw [hdone, decryptSectors, Option.map_some, List.take_of_length_le (by omega),
      List.append_nil, Nat.max_eq_left hle]
  | succ n ih =>
    have hsum : offset + 512 * (n + 1) = keyMaterial.length := by omega
    obtain ⟨fuel, rfl⟩ : ∃ m, fuel = m + 1 := ⟨fuel - 1, by omega⟩
    have hmemory : memoryAt keyMaterial beyond offset 512 = (keyMaterial.drop offset).take 512 :=
      memoryAt_of_le (by omega)
    rw [decryptKeyMaterial, if_pos (by omega), hmemory, decryptSectors]
    cases hcrypt : encryptionContextCrypt L context .decrypt ((keyMaterial.drop offset).take 512)
        512 blockKey with
    | none => rfl
    | some r =>
      obtain ⟨data, context'⟩ := r
      have hdata : data.length = 512 := by
        rw [(encryptionContextCrypt_spec hcrypt).1, List.length_take, List.length_drop]
        omega
      have htake : (write offset data split).take (offset + 512) = split.take offset ++ data := by
        rw [write, List.take_of_length_le (l := data) (by omega), List.take_append_of_le_length
          (by rw [List.length_append, List.length_take]; omega), List.take_of_length_le
          (by rw [List.length_append, List.length_take]; omega)]
      have hrest : keyMaterial.length ≤ offset + 512 ∧ n = 0 ∨
          offset + 512 + 512 * n = keyMaterial.length := by omega
      simp only [Option.bind_some, Option.map_map]
      rw [ih (by omega) (by rw [length_write, hlength]) hrest, htake, List.drop_drop]
      congr 1
      funext rest
      simp only [Function.comp_apply, List.append_assoc]
      rw [show max (offset + 512) keyMaterial.length = max offset keyMaterial.length by omega]

/-! ## Merging -/

/-- The split master key, merged. -/
def mergedKey (L : Libraries) (h : HashingMethod) (masterKeySize numberOfStripes : ℕ)
    (splitMasterKey : List UInt8) : Option (List UInt8) :=
  match diffuserMerge L (fun _ => false) splitMasterKey (List.replicate masterKeySize 0)
    numberOfStripes h with
  | (key, true) => some key
  | (_, false) => none

/-- Every key is the merge of a split. -/
theorem mergedKey_reaches {h : HashingMethod} (hh : hashSize h ≠ none)
    {key : List UInt8} {masterKeySize numberOfStripes : ℕ} (hkey : key.length = masterKeySize)
    (hmks : 0 < masterKeySize ∧ masterKeySize ≤ 64) (hstripes : 0 < numberOfStripes)
    (hsize : masterKeySize * numberOfStripes ≤ ssizeMax) :
    ∃ split, split.length = masterKeySize * numberOfStripes ∧
      mergedKey L h masterKeySize numberOfStripes split = some key := by
  -- the stripes before the last one are of zero bytes
  let stripes := List.replicate (numberOfStripes - 1) (Buffer.zero masterKeySize)
  have hcount : stripes.length + 1 = numberOfStripes := by
    rw [List.length_replicate]
    omega
  refine ⟨splitKey L h stripes ⟨key, hkey⟩, ?_, ?_⟩
  · rw [splitKey, List.length_append, length_stripesBytes, Buffer.length_eq, ← Nat.succ_mul,
      Nat.succ_eq_add_one, hcount, Nat.mul_comm]
  · have hmerge := diffuserMerge_split (L := L) hh ⟨hmks.1, by omega⟩ stripes ⟨key, hkey⟩ []
      (List.length_replicate : (List.replicate masterKeySize (0 : UInt8)).length = _)
      (by rw [hcount, Nat.mul_comm]; exact hsize)
    rw [List.append_nil, hcount] at hmerge
    rw [mergedKey, hmerge]

/-! ## Contexts for keys of one size -/

theorem createContext_isSome (header : VolumeHeader) (key : List UInt8) :
    (createContext L false false header key).isSome = true ↔
      (encryptionContextInitialize false header.encryptionMethod header.encryptionChainingMode
        header.initializationVectorMode header.essivHashingMethod).isSome = true ∧
      key.length ≤ ssizeMax ∧ keySizeAccepted L key.length
        (selectEncryptionMode header.encryptionMethod header.encryptionChainingMode) = true := by
  cases hcreated : encryptionContextInitialize false header.encryptionMethod
      header.encryptionChainingMode header.initializationVectorMode header.essivHashingMethod with
  | none => simp [createContext, hcreated]
  | some created => simp [createContext, hcreated, encryptionContextSetKey_eq hcreated]

/-- A context that is created is the one for the modes of the header and the key. -/
theorem createContext_eq {header : VolumeHeader} {key : List UInt8} {context : EncryptionContext}
    (h : createContext L false false header key = some context) :
    context = keyedContext L
      (selectEncryptionMode header.encryptionMethod header.encryptionChainingMode)
      header.initializationVectorMode header.essivHashingMethod key := by
  obtain ⟨created, hcreated, hkeyed⟩ := Option.bind_eq_some_iff.1 h
  simp only [Bool.false_eq_true, if_false, encryptionContextSetKey_eq hcreated] at hkeyed
  split_ifs at hkeyed
  cases hkeyed
  rfl

/-- A context that can be keyed with one key can be keyed with every key of its size. -/
theorem createContext_of_length {header : VolumeHeader} {key key' : List UInt8}
    {context : EncryptionContext} (hlength : key'.length = key.length)
    (h : createContext L false false header key = some context) :
    ∃ context', createContext L false false header key' = some context' := by
  have hsome : (createContext L false false header key).isSome = true := by rw [h]; rfl
  rw [createContext_isSome, ← hlength, ← createContext_isSome] at hsome
  exact Option.isSome_iff_exists.1 hsome

/-! ## The key of a key slot -/

/-- The size of the key material of a key slot. -/
def KeySlot.keyMaterialSize (keySlot : KeySlot) (masterKeySize : ℕ) : ℕ :=
  masterKeySize * keySlot.numberOfStripes.toNat

/-- A key slot with a whole number of sectors of key material inside of the file. -/
structure KeySlotFits (masterKeySize : ℕ) (file : FileIoHandle) (keySlot : KeySlot) : Prop where
  numberOfStripes : 0 < keySlot.numberOfStripes.toNat
  sectors : keySlot.keyMaterialSize masterKeySize % 512 = 0
  allocation : masterKeySize ≤ memoryMaximumAllocationSize / keySlot.numberOfStripes.toNat
  inside : keySlot.keyMaterialOffset.toNat * 512 + keySlot.keyMaterialSize masterKeySize ≤
    file.image.length

/-- The split master key of a key slot, with its first `offset` bytes from the memory and the rest
decrypted with sector numbers from zero on. -/
def splitMasterKeyFrom (L : Libraries) (header : VolumeHeader) (masterKeySize : ℕ)
    (password : List UInt8) (file : FileIoHandle) (offset : ℕ) (memory : ℕ → UInt8)
    (keySlot : KeySlot) : Option (List UInt8) :=
  let size := keySlot.keyMaterialSize masterKeySize
  (passwordPbkdf2 L false (some password) header.hashingMethod keySlot.salt.bytes
    keySlot.numberOfIterations.toNat masterKeySize).bind fun userKey =>
      (createContext L false false header userKey).bind fun context =>
        (decryptSectors L ((size - offset) / 512) context 0
          ((slice (keySlot.keyMaterialOffset.toNat * 512) size file.image).drop offset)).map
            fun data => ((List.range size).map memory).take offset ++ data

/-- The key that the split master key is merged into. -/
def slotKeyFrom (L : Libraries) (header : VolumeHeader) (masterKeySize : ℕ)
    (password : List UInt8) (file : FileIoHandle) (offset : ℕ) (memory : ℕ → UInt8)
    (keySlot : KeySlot) : Option (List UInt8) :=
  (splitMasterKeyFrom L header masterKeySize password file offset memory keySlot).bind
    (mergedKey L header.hashingMethod masterKeySize keySlot.numberOfStripes.toNat)

/-- The key of a key slot: all of its key material is decrypted. -/
def slotKey (L : Libraries) (header : VolumeHeader) (masterKeySize : ℕ) (password : List UInt8)
    (file : FileIoHandle) (keySlot : KeySlot) : Option (List UInt8) :=
  slotKeyFrom L header masterKeySize password file 0 (fun _ => 0) keySlot

/-- From the beginning the memory does not matter. -/
theorem slotKeyFrom_zero (header : VolumeHeader) (masterKeySize : ℕ) (password : List UInt8)
    (file : FileIoHandle) (memory : ℕ → UInt8) (keySlot : KeySlot) :
    slotKeyFrom L header masterKeySize password file 0 memory keySlot =
      slotKey L header masterKeySize password file keySlot := rfl

/-- Where nothing is left to decrypt, the split master key is what the memory holds. -/
theorem splitMasterKeyFrom_memory {header : VolumeHeader} {masterKeySize : ℕ}
    {password : List UInt8} {file : FileIoHandle} {offset : ℕ} {memory : ℕ → UInt8}
    {keySlot : KeySlot} {split : List UInt8}
    (hle : keySlot.keyMaterialSize masterKeySize ≤ offset)
    (h : splitMasterKeyFrom L header masterKeySize password file offset memory keySlot = some split)
    (memory' : ℕ → UInt8) :
    splitMasterKeyFrom L header masterKeySize password file offset memory' keySlot =
      some ((List.range (keySlot.keyMaterialSize masterKeySize)).map memory') := by
  obtain ⟨userKey, huser, h⟩ := Option.bind_eq_some_iff.1 h
  obtain ⟨context, hcontext, -⟩ := Option.bind_eq_some_iff.1 h
  have hzero : (keySlot.keyMaterialSize masterKeySize - offset) / 512 = 0 := by
    rw [Nat.sub_eq_zero_of_le hle]
  rw [splitMasterKeyFrom, huser, Option.bind_some, hcontext, Option.bind_some, hzero,
    decryptSectors, Option.map_some, List.append_nil, List.take_of_length_le (by simpa using hle)]

/-- A round of the loop in which no call fails. -/
def surroundings (memory beyond : ℕ → UInt8) : SlotEnvironment :=
  { memory := memory, beyond := beyond }

/-- The key material of a key slot that fits is read. -/
theorem readKeyMaterial_of_fits {masterKeySize : ℕ} (hmks : 0 < masterKeySize)
    {file : FileIoHandle} (hopen : file.isOpen = true) {keySlot : KeySlot}
    (hfits : KeySlotFits masterKeySize file keySlot)
    (hoffset : 0 ≤ keySlot.keyMaterialOffset ∧ keySlot.keyMaterialOffset < 2 ^ 32)
    (memory beyond : ℕ → UInt8) :
    readKeyMaterial (surroundings memory beyond) (some file) masterKeySize (keySlot.inBytes 512) =
      some (slice (keySlot.keyMaterialOffset.toNat * 512) (keySlot.keyMaterialSize masterKeySize)
        file.image) := by
  have hstripes := hfits.numberOfStripes
  have hallocation := hfits.allocation
  have hinside := hfits.inside
  obtain ⟨hl, hu⟩ := hoffset
  have hbytes : off64 (keySlot.keyMaterialOffset * 512) = keySlot.keyMaterialOffset * 512 :=
    off64_eq_self (by omega) (by omega)
  have hnat : (keySlot.keyMaterialOffset * 512).toNat = keySlot.keyMaterialOffset.toNat * 512 := by
    omega
  rw [KeySlot.keyMaterialSize] at hinside
  simp only [readKeyMaterial, KeySlot.inBytes, surroundings, KeySlot.keyMaterialSize,
    readBufferAtOffset, FileIoHandle.readBufferAtOffset, Option.bind_some, Nat.cast_ofNat, hbytes,
    hopen, true_and, Bool.false_eq_true, if_false]
  rw [if_neg (by omega), if_neg (by omega), if_pos (by omega), hnat]
  simp only
  rw [if_neg]
  rw [length_slice_of_le hinside, not_not]

/-- The key material of a key slot that does not fit is not read: there is no stripe, it is too
large, or the file ends before it does. -/
theorem readKeyMaterial_of_not_fits {masterKeySize : ℕ} {file : FileIoHandle} {keySlot : KeySlot}
    (hsectors : keySlot.keyMaterialSize masterKeySize % 512 = 0)
    (hfits : ¬ KeySlotFits masterKeySize file keySlot)
    (hoffset : 0 ≤ keySlot.keyMaterialOffset ∧ keySlot.keyMaterialOffset < 2 ^ 32)
    (memory beyond : ℕ → UInt8) :
    readKeyMaterial (surroundings memory beyond) (some file) masterKeySize (keySlot.inBytes 512) =
      none := by
  obtain ⟨hl, hu⟩ := hoffset
  have hbytes : off64 (keySlot.keyMaterialOffset * 512) = keySlot.keyMaterialOffset * 512 :=
    off64_eq_self (by omega) (by omega)
  have hnat : (keySlot.keyMaterialOffset * 512).toNat = keySlot.keyMaterialOffset.toNat * 512 := by
    omega
  simp only [readKeyMaterial, KeySlot.inBytes, surroundings, readBufferAtOffset, Option.bind_some,
    Nat.cast_ofNat, hbytes, Bool.false_eq_true, if_false]
  split_ifs with hstripes hsize
  · rfl
  · rfl
  cases hread : file.readBufferAtOffset (masterKeySize * keySlot.numberOfStripes.toNat)
      (keySlot.keyMaterialOffset * 512) with
  | none => rfl
  | some keyMaterial =>
    have hlength : keyMaterial.length ≠ masterKeySize * keySlot.numberOfStripes.toNat := by
      intro hwhole
      rw [FileIoHandle.readBufferAtOffset] at hread
      split_ifs at hread
      cases hread
      rw [hnat, length_slice] at hwhole
      have hpositive : 0 < masterKeySize * keySlot.numberOfStripes.toNat :=
        Nat.mul_pos (by omega) (by omega)
      refine hfits ⟨by omega, hsectors, by omega, ?_⟩
      rw [KeySlot.keyMaterialSize]
      omega
    simp only [if_pos hlength]

theorem readSplitMasterKey_of_fits {header : VolumeHeader} {masterKeySize : ℕ}
    (hmks : 0 < masterKeySize) {password userKey : List UInt8} {file : FileIoHandle}
    (hopen : file.isOpen = true) {keySlot : KeySlot}
    (hfits : KeySlotFits masterKeySize file keySlot)
    (hoffset : 0 ≤ keySlot.keyMaterialOffset ∧ keySlot.keyMaterialOffset < 2 ^ 32) {offset : ℕ}
    (haligned : offset % 512 = 0) (memory beyond : ℕ → UInt8)
    (huser : passwordPbkdf2 L false (some password) header.hashingMethod keySlot.salt.bytes
      keySlot.numberOfIterations.toNat masterKeySize = some userKey) :
    readSplitMasterKey L (surroundings memory beyond) header 512 masterKeySize (some file)
        (keySlot.inBytes 512) userKey offset =
      (splitMasterKeyFrom L header masterKeySize password file offset memory keySlot).map
        fun split => (split, max offset (keySlot.keyMaterialSize masterKeySize)) := by
  have hsectors := hfits.sectors
  have hinside := hfits.inside
  rw [readSplitMasterKey, readKeyMaterial_of_fits hmks hopen hfits hoffset, splitMasterKeyFrom, huser]
  generalize hsize : keySlot.keyMaterialSize masterKeySize = size at hsectors hinside ⊢
  have hlength : (slice (keySlot.keyMaterialOffset.toNat * 512) size file.image).length = size :=
    length_slice_of_le hinside
  generalize slice (keySlot.keyMaterialOffset.toNat * 512) size file.image = material
    at hlength ⊢
  subst hlength
  simp only [surroundings, Option.bind_some, Bool.false_eq_true, if_false]
  cases createContext L false false header userKey with
  | none => rfl
  | some context =>
    simp only [Option.bind_some]
    rw [decryptKeyMaterial_eq (n := (material.length - offset) / 512)
      (le_trans (Nat.div_le_self _ _) (Nat.sub_le _ _)) (by simp) (by omega)]
    cases decryptSectors L ((material.length - offset) / 512) context 0
        (material.drop offset) with
    | none => rfl
    | some data => rfl

/-! ## A round of the loop -/

/-- The end of a round in which a key was validated. -/
def SlotResult.ofValid : Option Bool → SlotResult
  | none => .error
  | some true => .found
  | some false => .next

theorem mergedKey_length {h : HashingMethod} {masterKeySize numberOfStripes : ℕ}
    {split key : List UInt8} (hkey : mergedKey L h masterKeySize numberOfStripes split = some key) :
    key.length = masterKeySize := by
  have hmerge := (diffuserMerge_congr (L := L) (fun _ => false) split
    (rfl : (List.replicate masterKeySize (0 : UInt8)).length = _) numberOfStripes h).2
  unfold mergedKey at hkey
  split at hkey
  · rename_i data heq
    rw [heq] at hmerge
    cases hkey
    rw [(hmerge rfl).2, List.length_replicate]
  · cases hkey

/-- The merge at the end of a round. -/
theorem mergeSplitMasterKey_eq (header : VolumeHeader) {masterKeySize : ℕ}
    (hmks : masterKeySize ≤ 64) (numberOfStripes : ℕ) (split : List UInt8)
    (memory beyond : ℕ → UInt8) (s : SlotLoop) :
    (mergedKey L header.hashingMethod masterKeySize numberOfStripes split = none →
      (mergeSplitMasterKey L (surroundings memory beyond) header masterKeySize numberOfStripes split
        s).2 = .error) ∧
    ∀ key, mergedKey L header.hashingMethod masterKeySize numberOfStripes split = some key →
      mergeSplitMasterKey L (surroundings memory beyond) header masterKeySize numberOfStripes split s
        = ({ s with masterKey := s.masterKey.write 0 key },
            .ofValid (masterKeyIsValid L false header key)) := by
  have hlength : (s.masterKey.bytes.take masterKeySize).length =
      (List.replicate masterKeySize (0 : UInt8)).length := by
    rw [List.length_take, s.masterKey.length_eq, List.length_replicate, Nat.min_eq_left hmks]
  obtain ⟨hok, hdata⟩ := diffuserMerge_congr (L := L) (fun _ => false) split hlength
    numberOfStripes header.hashingMethod
  unfold mergeSplitMasterKey mergedKey
  rw [show (surroundings memory beyond).mergeFails = fun _ => false from rfl,
    show (surroundings memory beyond).validationFails = false from rfl]
  generalize diffuserMerge L (fun _ => false) split (s.masterKey.bytes.take masterKeySize)
    numberOfStripes header.hashingMethod = r at hok hdata ⊢
  generalize diffuserMerge L (fun _ => false) split (List.replicate masterKeySize 0)
    numberOfStripes header.hashingMethod = r' at hok hdata ⊢
  obtain ⟨data, ok⟩ := r
  obtain ⟨data', ok'⟩ := r'
  simp only at hok hdata
  subst hok
  cases ok with
  | false =>
    refine ⟨fun _ => rfl, fun key hkey => ?_⟩
    cases hkey
  | true =>
    obtain ⟨rfl, hlen⟩ := hdata rfl
    refine ⟨fun hno => (by cases hno), fun key hkey => ?_⟩
    cases hkey
    have htake : (s.masterKey.write 0 data).bytes.take masterKeySize = data :=
      s.masterKey.take_write_of_length (by
        rw [hlen, List.length_replicate, Nat.min_eq_left hmks])
    simp only [Bool.true_eq_false, if_false, htake]
    cases masterKeyIsValid L false header data with
    | none => rfl
    | some valid =>
      cases valid with
      | false => rfl
      | true => rfl

/-- A round for a key slot that is not in use. -/
theorem tryKeySlot_inactive {header : VolumeHeader} {masterKeySize : ℕ}
    {password : Option (List UInt8)} {file : Option FileIoHandle} {i : ℕ} {s : SlotLoop}
    {keySlot : KeySlot} (hslot : s.keySlots[i]? = some keySlot)
    (hinactive : keySlot.state ≠ keySlotActive) (memory beyond : ℕ → UInt8) :
    tryKeySlot L (surroundings memory beyond) header 512 masterKeySize password file i s
      = (s, .next) := by
  simp only [tryKeySlot, surroundings, Bool.false_eq_true, if_false, hslot, if_pos hinactive]

/-- A round for a key slot in use that does not fit. -/
theorem tryKeySlot_unfit (header : VolumeHeader) (password : Option (List UInt8))
    {masterKeySize : ℕ} {file : FileIoHandle} {i : ℕ} {s : SlotLoop} {keySlot : KeySlot}
    (hslot : s.keySlots[i]? = some keySlot) (hactive : keySlot.state = keySlotActive)
    (hsectors : keySlot.keyMaterialSize masterKeySize % 512 = 0)
    (hfits : ¬ KeySlotFits masterKeySize file keySlot)
    (hoffset : 0 ≤ keySlot.keyMaterialOffset ∧ keySlot.keyMaterialOffset < 2 ^ 32)
    (memory beyond : ℕ → UInt8) :
    (tryKeySlot L (surroundings memory beyond) header 512 masterKeySize password (some file) i
      s).2 = .error := by
  unfold tryKeySlot
  rw [show (surroundings memory beyond).entryFails = false from rfl,
    show (surroundings memory beyond).passwordFails = false from rfl]
  simp only [Bool.false_eq_true, if_false, hslot, hactive, ne_eq, not_true_eq_false]
  cases passwordPbkdf2 L false password header.hashingMethod keySlot.salt.bytes
      keySlot.numberOfIterations.toNat masterKeySize with
  | none => rfl
  | some userKey =>
    simp only [readSplitMasterKey, readKeyMaterial_of_not_fits hsectors hfits hoffset,
      Option.bind_none]

/-- A round for a key slot in use that fits. -/
theorem tryKeySlot_active (header : VolumeHeader) (password : List UInt8) {masterKeySize : ℕ}
    (hmks : 0 < masterKeySize ∧ masterKeySize ≤ 64) {file : FileIoHandle}
    (hopen : file.isOpen = true) {i : ℕ} {s : SlotLoop} {keySlot : KeySlot}
    (hslot : s.keySlots[i]? = some keySlot) (hactive : keySlot.state = keySlotActive)
    (hfits : KeySlotFits masterKeySize file keySlot)
    (hoffset : 0 ≤ keySlot.keyMaterialOffset ∧ keySlot.keyMaterialOffset < 2 ^ 32)
    (haligned : s.keyMaterialDataOffset % 512 = 0) (memory beyond : ℕ → UInt8) :
    (slotKeyFrom L header masterKeySize password file s.keyMaterialDataOffset memory keySlot
        = none →
      (tryKeySlot L (surroundings memory beyond) header 512 masterKeySize (some password)
        (some file) i s).2 = .error) ∧
    ∀ key, slotKeyFrom L header masterKeySize password file s.keyMaterialDataOffset memory keySlot
        = some key →
      tryKeySlot L (surroundings memory beyond) header 512 masterKeySize (some password)
        (some file) i s =
        (⟨s.keySlots.set i (keySlot.inBytes 512), s.masterKey.write 0 key,
          max s.keyMaterialDataOffset (keySlot.keyMaterialSize masterKeySize)⟩,
          .ofValid (masterKeyIsValid L false header key)) := by
  unfold tryKeySlot
  rw [show (surroundings memory beyond).entryFails = false from rfl,
    show (surroundings memory beyond).passwordFails = false from rfl]
  simp only [Bool.false_eq_true, if_false, hslot, hactive, ne_eq, not_true_eq_false]
  cases huser : passwordPbkdf2 L false (some password) header.hashingMethod keySlot.salt.bytes
      keySlot.numberOfIterations.toNat masterKeySize with
  | none =>
    refine ⟨fun _ => rfl, fun key hkey => ?_⟩
    rw [slotKeyFrom, splitMasterKeyFrom, huser] at hkey
    cases hkey
  | some userKey =>
    simp only
    rw [readSplitMasterKey_of_fits hmks.1 hopen hfits hoffset haligned memory beyond huser, slotKeyFrom]
    cases splitMasterKeyFrom L header masterKeySize password file s.keyMaterialDataOffset memory
        keySlot with
    | none => exact ⟨fun _ => rfl, fun key hkey => (by cases hkey)⟩
    | some split =>
      simp only [Option.map_some, Option.bind_some]
      obtain ⟨herror, hround⟩ := mergeSplitMasterKey_eq (L := L) header hmks.2
        (keySlot.inBytes 512).numberOfStripes.toNat split memory beyond
        { keySlots := s.keySlots.set i (keySlot.inBytes 512), masterKey := s.masterKey,
          keyMaterialDataOffset :=
            max s.keyMaterialDataOffset (keySlot.keyMaterialSize masterKeySize) }
      exact ⟨herror, hround⟩

end Libluksde
