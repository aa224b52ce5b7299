import Libluksde.KeyMaterial
import Libluksde.SessionInvariant

/-!
# Which key slots are found

The place at which the decryption of the key material begins is not set back between the rounds
of the key slot loop.  The first key slot in use is decrypted as a whole, so that the master key
is found when the password opens that key slot.  Of every later one only the part is decrypted
that is larger than the key material of all key slots in use before it, and what lies before that
part is left to the memory.
-/

namespace Libluksde

open Lib.Bytes Lib.Machine

variable {L : Libraries}

/-- The key slots of a header that was read from a file. -/
theorem HeaderOf.keySlots {env : HeaderEnvironment} {file : FileIoHandle} {header : VolumeHeader}
    (h : HeaderOf L env file header) : header.keySlotsArray.length = 8 ∧
      ∀ keySlot ∈ header.keySlotsArray,
        0 ≤ keySlot.keyMaterialOffset ∧ keySlot.keyMaterialOffset < 2 ^ 32 := by
  have hread := h.read
  have hsize := h.masterKeySize.1
  unfold volumeHeaderReadFileIoHandle at hread
  split at hread
  · cases hread
  · split at hread
    · cases hread
    · obtain ⟨-, identifier, -, ⟨-, hread⟩ | ⟨-, rfl⟩⟩ := volumeHeaderReadData_inv hread
      · obtain ⟨v, e, rfl⟩ := readVersion1Methods_inv hread
        refine ⟨by simp [version1Header, readVersion1Fields, VolumeHeader.cleared], ?_⟩
        intro keySlot hmem
        simp only [version1Header, readVersion1Fields, VolumeHeader.cleared, List.nil_append,
          List.mem_map] at hmem
        obtain ⟨i, -, rfl⟩ := hmem
        rw [keySlotAt, keySlotReadData, if_neg (by decide)]
        refine ⟨Int.natCast_nonneg _, ?_⟩
        exact Int.ofNat_lt.2 (UInt32.toNat_lt _)
      · exact absurd rfl hsize

/-! ## The condition -/

/-- The largest key material of the key slots in use before an index. -/
def keyMaterialBefore (header : VolumeHeader) : ℕ → ℕ
  | 0 => 0
  | i + 1 =>
    match header.keySlotsArray[i]? with
    | none => keyMaterialBefore header i
    | some keySlot =>
      if keySlot.state = keySlotActive then
        max (keyMaterialBefore header i) (keySlot.keyMaterialSize header.masterKeySize.toNat)
      else keyMaterialBefore header i

/-- A key slot that a password opens: it is in use, its key material is inside of the file, and its
key validates. -/
structure OpensWith (L : Libraries) (header : VolumeHeader) (password : List UInt8)
    (file : FileIoHandle) (keySlot : KeySlot) (key : List UInt8) : Prop where
  active : keySlot.state = keySlotActive
  inside : keySlot.keyMaterialOffset.toNat * 512 +
    keySlot.keyMaterialSize header.masterKeySize.toNat ≤ file.image.length
  derived : slotKey L header header.masterKeySize.toNat password file keySlot = some key
  valid : masterKeyIsValid L false header key = some true

/-- The password opens the first key slot in use, and the key material of this key slot is not
larger than the code allocates. -/
def FirstActiveOpens (L : Libraries) (header : VolumeHeader) (password : List UInt8)
    (file : FileIoHandle) : Prop :=
  ∃ (i : ℕ) (keySlot : KeySlot) (key : List UInt8), header.keySlotsArray[i]? = some keySlot ∧
    keySlot.keyMaterialSize header.masterKeySize.toNat ≤ memoryMaximumAllocationSize ∧
    OpensWith L header password file keySlot key ∧
    ∀ j < i, ∀ other : KeySlot, header.keySlotsArray[j]? = some other →
      other.state ≠ keySlotActive

/-- The first key slot from index `i` on whose key validates is the one at index `m`, when each is
decrypted from where the loop begins, with the memory before that.  All key slots in use up to there
have key material that can be read. -/
structure Finds (L : Libraries) (header : VolumeHeader) (password : List UInt8)
    (file : FileIoHandle) (memory : ℕ → ℕ → UInt8) (i m : ℕ) (key : List UInt8) : Prop where
  le : i ≤ m
  derived : ∃ keySlot : KeySlot, header.keySlotsArray[m]? = some keySlot ∧
    keySlot.state = keySlotActive ∧ KeySlotFits header.masterKeySize.toNat file keySlot ∧
    slotKeyFrom L header header.masterKeySize.toNat password file (keyMaterialBefore header m)
      (memory m) keySlot = some key
  valid : masterKeyIsValid L false header key = some true
  passed : ∀ j, i ≤ j → j < m → ∀ keySlot : KeySlot, header.keySlotsArray[j]? = some keySlot →
    keySlot.state = keySlotActive → KeySlotFits header.masterKeySize.toNat file keySlot ∧
    ∃ key, slotKeyFrom L header header.masterKeySize.toNat password file
      (keyMaterialBefore header j) (memory j) keySlot = some key ∧
      masterKeyIsValid L false header key = some false

/-- Whatever the memory holds, the first key slot whose key validates is one behind the first key
slot in use, and the key happens to be that of a key slot that the password opens, at index `k` or
before. -/
def LaterOpens (L : Libraries) (header : VolumeHeader) (password : List UInt8)
    (file : FileIoHandle) (k : ℕ) : Prop :=
  ∀ memory : ℕ → ℕ → UInt8, ∃ m key, Finds L header password file memory 0 m key ∧
    0 < keyMaterialBefore header m ∧
    ∃ j ≤ k, ∃ keySlot : KeySlot, header.keySlotsArray[j]? = some keySlot ∧
      OpensWith L header password file keySlot key

/-- A later key slot with larger key material than those in use before it, whose key validates
whatever is in the memory before the part that is decrypted. -/
def OpensAnyway (L : Libraries) (header : VolumeHeader) (password : List UInt8)
    (file : FileIoHandle) : Prop :=
  ∃ (i : ℕ) (keySlot : KeySlot), header.keySlotsArray[i]? = some keySlot ∧
    keySlot.state = keySlotActive ∧ KeySlotFits header.masterKeySize.toNat file keySlot ∧
    0 < keyMaterialBefore header i ∧
    keyMaterialBefore header i < keySlot.keyMaterialSize header.masterKeySize.toNat ∧
    ∀ memory, ∃ key, slotKeyFrom L header header.masterKeySize.toNat password file
      (keyMaterialBefore header i) memory keySlot = some key ∧
      masterKeyIsValid L false header key = some true

/-- The key slots in use of a header have key material of whole sectors. -/
def InWholeSectors (header : VolumeHeader) : Prop :=
  ∀ keySlot ∈ header.keySlotsArray, keySlot.state = keySlotActive →
    keySlot.keyMaterialSize header.masterKeySize.toNat % 512 = 0

/-- A volume with the header and a password, and without a key that validates. -/
structure ReadyToUnlock (L : Libraries) (header : VolumeHeader) (password : List UInt8)
    (volume : Volume) : Prop where
  bytesPerSector : volume.ioHandle.bytesPerSector = 512
  volumeHeader : volume.volumeHeader = some header
  masterKeySize : volume.masterKeySize = header.masterKeySize.toNat
  preset : presetKeyIsValid L {} volume header = some false
  userPasswordIsSet : volume.userPasswordIsSet = true
  password : volume.password = some password
  encryptionContext : volume.encryptionContext = none

/-- Surroundings in which no call fails. -/
def reliable (memory beyond : ℕ → ℕ → UInt8) : KeysEnvironment :=
  { slot := fun i => surroundings (memory i) (beyond i) }

/-- Whatever the memory holds, the attempt succeeds with the key of the key slot at index `k` or of
one before it. -/
def Completes (L : Libraries) (header : VolumeHeader) (password : List UInt8) (file : FileIoHandle)
    (volume : Volume) (k : ℕ) : Prop :=
  ∀ memory beyond : ℕ → ℕ → UInt8,
    let r := internalVolumeOpenReadKeys L (reliable memory beyond) volume (some file)
    r.2 = 1 ∧ ∃ j ≤ k, ∃ (keySlot : KeySlot) (key : List UInt8),
      header.keySlotsArray[j]? = some keySlot ∧
      OpensWith L header password file keySlot key ∧
      r.1.masterKey.bytes.take header.masterKeySize.toNat = key

/-! ## Where the decryption begins -/

section

variable {header : VolumeHeader}

/-- The decryption begins at a sector. -/
theorem keyMaterialBefore_mod (hsectors : InWholeSectors header) (i : ℕ) :
    keyMaterialBefore header i % 512 = 0 := by
  induction i with
  | zero => rfl
  | succ i ih =>
    rw [keyMaterialBefore]
    split
    · exact ih
    · rename_i keySlot hslot
      split
      · rename_i hactive
        have hwhole := hsectors keySlot (List.mem_of_getElem? hslot) hactive
        rcases Nat.le_total (keyMaterialBefore header i)
          (keySlot.keyMaterialSize header.masterKeySize.toNat) with hle | hle
        · rw [Nat.max_eq_right hle]
          exact hwhole
        · rw [Nat.max_eq_left hle]
          exact ih
      · exact ih

/-- It begins behind what is as large as the key material of a key slot in use before. -/
theorem keyMaterialSize_le_before {i j : ℕ} (hj : j < i) {keySlot : KeySlot}
    (hslot : header.keySlotsArray[j]? = some keySlot) (hactive : keySlot.state = keySlotActive) :
    keySlot.keyMaterialSize header.masterKeySize.toNat ≤ keyMaterialBefore header i := by
  induction i with
  | zero => omega
  | succ i ih =>
    rw [keyMaterialBefore]
    rcases Nat.eq_or_lt_of_le (Nat.lt_succ_iff.1 hj) with rfl | hlt
    · rw [hslot]
      simp only
      rw [if_pos hactive]
      exact Nat.le_max_right _ _
    · have hle := ih hlt
      split
      · exact hle
      · split
        · exact le_trans hle (Nat.le_max_left _ _)
        · exact hle

/-- It begins at zero where no key slot in use comes before. -/
theorem keyMaterialBefore_eq_zero {i : ℕ} (h : ∀ j < i, ∀ keySlot : KeySlot,
    header.keySlotsArray[j]? = some keySlot → keySlot.state ≠ keySlotActive) :
    keyMaterialBefore header i = 0 := by
  induction i with
  | zero => rfl
  | succ i ih =>
    rw [keyMaterialBefore, ih fun j hj => h j (by omega)]
    split
    · rfl
    · rename_i keySlot hslot
      rw [if_neg (h i (Nat.lt_succ_self i) keySlot hslot)]

end

/-! ## The loop -/

/-- The key of a key slot has the size of the master key. -/
theorem slotKeyFrom_length {header : VolumeHeader} {masterKeySize : ℕ} {password : List UInt8}
    {file : FileIoHandle} {offset : ℕ} {memory : ℕ → UInt8} {keySlot : KeySlot} {key : List UInt8}
    (h : slotKeyFrom L header masterKeySize password file offset memory keySlot = some key) :
    key.length = masterKeySize := by
  obtain ⟨split, -, hkey⟩ := Option.bind_eq_some_iff.1 h
  exact mergedKey_length hkey

/-- The key material of a key slot that fits can be allocated. -/
theorem KeySlotFits.keyMaterialSize_le {masterKeySize : ℕ} {file : FileIoHandle}
    {keySlot : KeySlot} (h : KeySlotFits masterKeySize file keySlot) :
    keySlot.keyMaterialSize masterKeySize ≤ memoryMaximumAllocationSize :=
  (Nat.le_div_iff_mul_le h.numberOfStripes).1 h.allocation

theorem KeySlotFits.le_ssizeMax {masterKeySize : ℕ} {file : FileIoHandle} {keySlot : KeySlot}
    (h : KeySlotFits masterKeySize file keySlot) :
    masterKeySize * keySlot.numberOfStripes.toNat ≤ ssizeMax :=
  le_trans h.keyMaterialSize_le (by decide)

/-- A key slot without stripes has no key. -/
theorem slotKeyFrom_numberOfStripes {header : VolumeHeader} {masterKeySize : ℕ}
    {password : List UInt8} {file : FileIoHandle} {offset : ℕ} {memory : ℕ → UInt8}
    {keySlot : KeySlot} {key : List UInt8}
    (h : slotKeyFrom L header masterKeySize password file offset memory keySlot = some key) :
    0 < keySlot.numberOfStripes.toNat := by
  by_contra hno
  obtain ⟨split, -, hkey⟩ := Option.bind_eq_some_iff.1 h
  have hzero : keySlot.numberOfStripes.toNat = 0 := by omega
  have hmerge : (diffuserMerge L (fun _ => false) split (List.replicate masterKeySize 0) 0
      header.hashingMethod).2 = false := by
    unfold diffuserMerge
    split_ifs
    · rfl
    · rfl
    · rfl
    · omega
  rw [hzero, mergedKey] at hkey
  generalize diffuserMerge L (fun _ => false) split (List.replicate masterKeySize 0) 0
    header.hashingMethod = merged at hmerge hkey
  obtain ⟨data, ok⟩ := merged
  cases hmerge
  cases hkey

/-- The key material of a key slot that is opened can be read if it can be allocated. -/
theorem OpensWith.fits {header : VolumeHeader} {password key : List UInt8} {file : FileIoHandle}
    {keySlot : KeySlot} (h : OpensWith L header password file keySlot key)
    (hsectors : keySlot.keyMaterialSize header.masterKeySize.toNat % 512 = 0)
    (hallocation :
      keySlot.keyMaterialSize header.masterKeySize.toNat ≤ memoryMaximumAllocationSize) :
    KeySlotFits header.masterKeySize.toNat file keySlot :=
  have hstripes := slotKeyFrom_numberOfStripes h.derived
  ⟨hstripes, hsectors, (Nat.le_div_iff_mul_le hstripes).2 hallocation, h.inside⟩

/-- A key is only validated with a hashing method that is supported. -/
theorem hashSize_of_masterKeyIsValid {header : VolumeHeader} {key : List UInt8} {valid : Bool}
    (h : masterKeyIsValid L false header key = some valid) :
    ∃ n, hashSize header.hashingMethod = some n := by
  cases hh : hashSize header.hashingMethod with
  | none =>
    rw [masterKeyIsValid, passwordPbkdf2_eq_none_of_hashSize hh] at h
    cases h
  | some n => exact ⟨n, rfl⟩

/-- A key slot from which a key was derived needed a context for a key of that size. -/
theorem createContext_of_slotKeyFrom {header : VolumeHeader} {masterKeySize : ℕ}
    {password : List UInt8} {file : FileIoHandle} {offset : ℕ} {memory : ℕ → UInt8}
    {keySlot : KeySlot} {key : List UInt8}
    (h : slotKeyFrom L header masterKeySize password file offset memory keySlot = some key) :
    ∃ context, createContext L false false header key = some context := by
  have hlength := slotKeyFrom_length h
  obtain ⟨split, hsplit, -⟩ := Option.bind_eq_some_iff.1 h
  obtain ⟨userKey, huser, hcontext⟩ := Option.bind_eq_some_iff.1 hsplit
  obtain ⟨context, hcreated, -⟩ := Option.bind_eq_some_iff.1 hcontext
  exact createContext_of_length (by rw [hlength, passwordPbkdf2_length huser]) hcreated

/-- The state of the loop at a key slot. -/
structure AtKeySlot (header : VolumeHeader) (i : ℕ) (s : SlotLoop) : Prop where
  keySlots : ∀ j, i ≤ j → s.keySlots[j]? = header.keySlotsArray[j]?
  offset : s.keyMaterialDataOffset = keyMaterialBefore header i

/-- The state behind a key slot that is not in use. -/
theorem AtKeySlot.skip {header : VolumeHeader} {i : ℕ} {s : SlotLoop} (hs : AtKeySlot header i s)
    {keySlot : KeySlot} (hi : header.keySlotsArray[i]? = some keySlot)
    (hinactive : keySlot.state ≠ keySlotActive) : AtKeySlot header (i + 1) s := by
  refine ⟨fun j hj => hs.keySlots j (by omega), hs.offset.trans ?_⟩
  rw [keyMaterialBefore, hi]
  simp only
  rw [if_neg hinactive]

/-- The state behind a key slot in use. -/
theorem AtKeySlot.next {header : VolumeHeader} {i : ℕ} {s : SlotLoop} (hs : AtKeySlot header i s)
    {keySlot keySlot' : KeySlot} (hi : header.keySlotsArray[i]? = some keySlot)
    (hactive : keySlot.state = keySlotActive) (masterKey : Buffer 64) :
    AtKeySlot header (i + 1) ⟨s.keySlots.set i keySlot', masterKey,
      max (keyMaterialBefore header i) (keySlot.keyMaterialSize header.masterKeySize.toNat)⟩ := by
  constructor
  · intro j hj
    simp only
    rw [List.getElem?_set_ne (by omega)]
    exact hs.keySlots j (by omega)
  · rw [keyMaterialBefore, hi]
    simp only
    rw [if_pos hactive]

section

variable {header : VolumeHeader} {password : List UInt8} {file : FileIoHandle}
  {memory : ℕ → ℕ → UInt8} {i m : ℕ} {key : List UInt8}

/-- The key slot at an index is passed: it is not in use, or its key does not validate. -/
def Passed (L : Libraries) (header : VolumeHeader) (password : List UInt8) (file : FileIoHandle)
    (memory : ℕ → ℕ → UInt8) (i : ℕ) : Prop :=
  ∀ keySlot : KeySlot, header.keySlotsArray[i]? = some keySlot →
    keySlot.state = keySlotActive → KeySlotFits header.masterKeySize.toNat file keySlot ∧
    ∃ key, slotKeyFrom L header header.masterKeySize.toNat password file
      (keyMaterialBefore header i) (memory i) keySlot = some key ∧
      masterKeyIsValid L false header key = some false

/-- A key slot that is found behind one that is passed. -/
theorem Finds.of_succ (h : Finds L header password file memory (i + 1) m key)
    (hpassed : Passed L header password file memory i) :
    Finds L header password file memory i m key := by
  refine ⟨le_trans (Nat.le_succ i) h.le, h.derived, h.valid, fun j hij hjm => ?_⟩
  rcases Nat.eq_or_lt_of_le hij with rfl | hlt
  · exact hpassed
  · exact h.passed j hlt hjm

/-- A key slot that is passed is not the one that is found. -/
theorem Finds.succ (h : Finds L header password file memory i m key)
    (hpassed : Passed L header password file memory i) :
    Finds L header password file memory (i + 1) m key := by
  have hlt : i < m := by
    refine lt_of_le_of_ne h.le ?_
    rintro rfl
    obtain ⟨keySlot, hi, hactive, -, hkey⟩ := h.derived
    obtain ⟨-, key', hkey', hinvalid⟩ := hpassed keySlot hi hactive
    cases hkey.symm.trans hkey'
    cases h.valid.symm.trans hinvalid
  exact ⟨hlt, h.derived, h.valid, fun j hj => h.passed j (by omega)⟩

/-- What is found at or behind a key slot in use. -/
theorem Finds.head (h : Finds L header password file memory i m key) {keySlot : KeySlot}
    (hi : header.keySlotsArray[i]? = some keySlot) (hactive : keySlot.state = keySlotActive) :
    KeySlotFits header.masterKeySize.toNat file keySlot ∧
    ∃ key', slotKeyFrom L header header.masterKeySize.toNat password file
        (keyMaterialBefore header i) (memory i) keySlot = some key' ∧
      ((key' = key ∧ masterKeyIsValid L false header key' = some true) ∨
        masterKeyIsValid L false header key' = some false) := by
  rcases Nat.eq_or_lt_of_le h.le with rfl | hlt
  · obtain ⟨keySlot', hi', -, hfits, hkey⟩ := h.derived
    rw [hi] at hi'
    cases hi'
    exact ⟨hfits, key, hkey, Or.inl ⟨rfl, h.valid⟩⟩
  · obtain ⟨hfits, key', hkey', hinvalid⟩ := h.passed i le_rfl hlt keySlot hi hactive
    exact ⟨hfits, key', hkey', Or.inr hinvalid⟩

/-- What is to be shown of a loop: it finds the first key slot whose key validates. -/
def FindsFirst (L : Libraries) (header : VolumeHeader) (password : List UInt8) (file : FileIoHandle)
    (memory : ℕ → ℕ → UInt8) (i : ℕ) (r : SlotLoop × SlotResult) : Prop :=
  (r.2 = .found → ∃ m, Finds L header password file memory i m
    (r.1.masterKey.bytes.take header.masterKeySize.toNat)) ∧
  ∀ m key, Finds L header password file memory i m key →
    r.2 = .found ∧ r.1.masterKey.bytes.take header.masterKeySize.toNat = key

/-- A loop that goes on behind a key slot that is passed. -/
theorem FindsFirst.of_succ {r : SlotLoop × SlotResult}
    (h : FindsFirst L header password file memory (i + 1) r)
    (hpassed : Passed L header password file memory i) :
    FindsFirst L header password file memory i r := by
  constructor
  · intro hfound
    obtain ⟨m, hfinds⟩ := h.1 hfound
    exact ⟨m, hfinds.of_succ hpassed⟩
  · intro m key hfinds
    exact h.2 m key (hfinds.succ hpassed)

/-- A loop that ends where nothing is to be found. -/
theorem FindsFirst.of_error {r : SlotLoop × SlotResult} (hended : r.2 = .error)
    (hnothing : ∀ m key, ¬ Finds L header password file memory i m key) :
    FindsFirst L header password file memory i r := by
  constructor
  · intro hfound
    cases hended.symm.trans hfound
  · intro m key hfinds
    exact absurd hfinds (hnothing m key)

/-- A loop that ends with the key of the key slot it is at. -/
theorem FindsFirst.of_found {s : SlotLoop} {keySlot : KeySlot}
    (hi : header.keySlotsArray[i]? = some keySlot) (hactive : keySlot.state = keySlotActive)
    (hfits : KeySlotFits header.masterKeySize.toNat file keySlot)
    (hkey : slotKeyFrom L header header.masterKeySize.toNat password file
      (keyMaterialBefore header i) (memory i) keySlot = some key)
    (hvalid : masterKeyIsValid L false header key = some true)
    (htake : s.masterKey.bytes.take header.masterKeySize.toNat = key) :
    FindsFirst L header password file memory i (s, .found) := by
  constructor
  · intro _
    refine ⟨i, le_rfl, ⟨keySlot, hi, hactive, hfits, ?_⟩, ?_, fun j hij hji => absurd hji (by omega)⟩
    · exact hkey.trans (congrArg some htake.symm)
    · exact (congrArg _ htake).trans hvalid
  · intro m key' hfinds
    obtain ⟨-, key'', hkey'', hcase⟩ := hfinds.head hi hactive
    cases hkey.symm.trans hkey''
    rcases hcase with ⟨rfl, -⟩ | hinvalid
    · exact ⟨rfl, htake⟩
    · cases hvalid.symm.trans hinvalid

end

/-- A round that ends with an error ends the loop. -/
theorem tryKeySlots_error {env : KeysEnvironment} {header : VolumeHeader}
    {bytesPerSector masterKeySize : ℕ} {password : Option (List UInt8)} {file : Option FileIoHandle}
    {n i : ℕ} {s : SlotLoop}
    (h : (tryKeySlot L (env.slot i) header bytesPerSector masterKeySize password file i s).2 =
      .error) :
    (tryKeySlots L env header bytesPerSector masterKeySize password file (n + 1) i s).2 =
      .error := by
  rw [tryKeySlots]
  generalize tryKeySlot L (env.slot i) header bytesPerSector masterKeySize password file i s =
    round at h ⊢
  obtain ⟨s', result⟩ := round
  cases h
  rfl

section

variable {env : HeaderEnvironment} {header : VolumeHeader} {file : FileIoHandle}
  (password : List UInt8) (hheader : HeaderOf L env file header) (hopen : file.isOpen = true)
  (hmks : header.masterKeySize.toNat ≤ 32) (hsectors : InWholeSectors header)
  (memory beyond : ℕ → ℕ → UInt8) {n i : ℕ} {s : SlotLoop} (hs : AtKeySlot header i s)

include hheader hopen hmks hsectors hs

/-- The loop at a key slot in use, if it finds the first key slot whose key validates behind it. -/
theorem tryKeySlots_finds_active {keySlot : KeySlot}
    (hi : header.keySlotsArray[i]? = some keySlot) (hactive : keySlot.state = keySlotActive)
    (hnext : ∀ {s' : SlotLoop}, AtKeySlot header (i + 1) s' →
      FindsFirst L header password file memory (i + 1) (tryKeySlots L (reliable memory beyond)
        header 512 header.masterKeySize.toNat (some password) (some file) n (i + 1) s')) :
    FindsFirst L header password file memory i (tryKeySlots L (reliable memory beyond) header 512
      header.masterKeySize.toNat (some password) (some file) (n + 1) i s) := by
  have hsize : 0 < header.masterKeySize.toNat ∧ header.masterKeySize.toNat ≤ 64 := by
    have := hheader.masterKeySize.1
    omega
  have hmem := List.mem_of_getElem? hi
  have hslot : s.keySlots[i]? = some keySlot := (hs.keySlots i le_rfl).trans hi
  have hoffset := hheader.keySlots.2 keySlot hmem
  by_cases hfits : KeySlotFits header.masterKeySize.toNat file keySlot
  · obtain ⟨herror, hround⟩ := tryKeySlot_active (L := L) header password hsize hopen hslot hactive
      hfits hoffset (by rw [hs.offset]; exact keyMaterialBefore_mod hsectors i) (memory i)
      (beyond i)
    rw [hs.offset] at herror hround
    cases hkey : slotKeyFrom L header header.masterKeySize.toNat password file
        (keyMaterialBefore header i) (memory i) keySlot with
    | none =>
      refine .of_error (tryKeySlots_error (herror hkey)) fun m key hfinds => ?_
      obtain ⟨-, key', hsome, -⟩ := hfinds.head hi hactive
      cases hkey.symm.trans hsome
    | some key =>
      have hround := hround key hkey
      cases hvalid : masterKeyIsValid L false header key with
      | none =>
        rw [hvalid] at hround
        refine .of_error (tryKeySlots_error (congrArg Prod.snd hround)) fun m key' hfinds => ?_
        obtain ⟨-, key'', hsome, hcase⟩ := hfinds.head hi hactive
        cases hkey.symm.trans hsome
        rcases hcase with ⟨-, hyes⟩ | hno
        · cases hvalid.symm.trans hyes
        · cases hvalid.symm.trans hno
      | some valid =>
        rw [tryKeySlots, show (reliable memory beyond).slot i = surroundings (memory i) (beyond i)
          from rfl, hround, hvalid]
        cases valid with
        | true =>
          exact .of_found hi hactive hfits hkey hvalid (s.masterKey.take_write_of_length (by
            rw [slotKeyFrom_length hkey]
            omega))
        | false =>
          refine (hnext (hs.next hi hactive _)).of_succ fun other ho _ => ?_
          cases hi.symm.trans ho
          exact ⟨hfits, key, hkey, hvalid⟩
  · -- nothing is found at or behind a key slot that cannot be read
    have herror := tryKeySlot_unfit (L := L) header (some password) hslot hactive
      (hsectors keySlot hmem hactive) hfits hoffset (memory i) (beyond i)
    exact .of_error (tryKeySlots_error herror) fun m key hfinds =>
      hfits (hfinds.head hi hactive).1

/-- The loop finds the first key slot whose key validates, by induction on the rounds. -/
theorem tryKeySlots_finds (hn : i + n = 8) :
    FindsFirst L header password file memory i (tryKeySlots L (reliable memory beyond) header 512
      header.masterKeySize.toNat (some password) (some file) n i s) := by
  have hlength := hheader.keySlots.1
  induction n generalizing i s with
  | zero =>
    refine ⟨fun hno => (by cases hno), fun m key hfinds => ?_⟩
    obtain ⟨keySlot, hm, -⟩ := hfinds.derived
    have hle := hfinds.le
    have hlt := (List.getElem?_eq_some_iff.1 hm).1
    omega
  | succ n ih =>
    obtain ⟨keySlot, hi⟩ : ∃ keySlot, header.keySlotsArray[i]? = some keySlot :=
      ⟨_, List.getElem?_eq_getElem (by omega)⟩
    by_cases hactive : keySlot.state = keySlotActive
    · exact tryKeySlots_finds_active password hheader hopen hmks hsectors memory beyond hs hi hactive
        fun hs' => ih hs' (by omega)
    · have hslot : s.keySlots[i]? = some keySlot := (hs.keySlots i le_rfl).trans hi
      rw [tryKeySlots, show (reliable memory beyond).slot i = surroundings (memory i) (beyond i)
        from rfl, tryKeySlot_inactive hslot hactive]
      refine (ih (hs.skip hi hactive) (by omega)).of_succ fun other ho hused => ?_
      cases hi.symm.trans ho
      exact absurd hused hactive

end

/-! ## The attempt -/

/-- What the attempt does behind the validation of the key that was set. -/
theorem internalVolumeOpenReadKeys_ready {header : VolumeHeader} {password : List UInt8}
    {v : Volume} (hv : ReadyToUnlock L header password v) (memory beyond : ℕ → ℕ → UInt8)
    (file : FileIoHandle) :
    internalVolumeOpenReadKeys L (reliable memory beyond) v (some file) =
      match tryKeySlots L (reliable memory beyond) header 512 header.masterKeySize.toNat
        (some password) (some file) 8 0 ⟨header.keySlotsArray, v.masterKey, 0⟩ with
      | (s, .error) => (v.afterSlots header s .error, -1)
      | (s, result) =>
        createVolumeContext L (reliable memory beyond) (v.afterSlots header s result) header := by
  have hpreset : presetKeyIsValid L (reliable memory beyond) v header = some false := hv.preset
  rw [internalVolumeOpenReadKeys_eq _ _ (by rw [hv.bytesPerSector]; decide) hv.volumeHeader,
    hpreset]
  have hloop : tryAllKeySlots L (reliable memory beyond) { v with volumeMasterKeyIsSet := false }
      header (some file) = tryKeySlots L (reliable memory beyond) header 512
        header.masterKeySize.toNat (some password) (some file) 8 0
        ⟨header.keySlotsArray, v.masterKey, 0⟩ := by
    rw [← hv.password, ← hv.masterKeySize, ← hv.bytesPerSector]
    rfl
  simp only [readKeysFromSlots]
  rw [if_pos ⟨trivial, hv.userPasswordIsSet⟩, hloop]
  rfl

/-- A loop that finds no master key does not unlock. -/
theorem internalVolumeOpenReadKeys_notFound {header : VolumeHeader} {password : List UInt8}
    {v : Volume} (hv : ReadyToUnlock L header password v) (memory beyond : ℕ → ℕ → UInt8)
    (file : FileIoHandle) (hnot : (tryKeySlots L (reliable memory beyond) header 512
      header.masterKeySize.toNat (some password) (some file) 8 0
      ⟨header.keySlotsArray, v.masterKey, 0⟩).2 ≠ .found) :
    (internalVolumeOpenReadKeys L (reliable memory beyond) v (some file)).2 ≠ 1 := by
  rw [internalVolumeOpenReadKeys_ready hv]
  split
  · simp
  · rename_i s result hne heq
    rw [heq] at hnot
    intro hone
    have hset := createVolumeContext_one (v := v.afterSlots header s result) hv.encryptionContext
      hone
    exact hnot (by simpa [Volume.afterSlots] using hset)

/-- A loop that finds a master key for which a context can be created unlocks. -/
theorem internalVolumeOpenReadKeys_found {header : VolumeHeader} {password : List UInt8}
    {v : Volume} (hv : ReadyToUnlock L header password v) {memory beyond : ℕ → ℕ → UInt8}
    {file : FileIoHandle} {s : SlotLoop} (hfound : tryKeySlots L (reliable memory beyond) header 512
      header.masterKeySize.toNat (some password) (some file) 8 0
      ⟨header.keySlotsArray, v.masterKey, 0⟩ = (s, .found))
    (hcontext : ∃ context, createContext L false false header
      (s.masterKey.bytes.take header.masterKeySize.toNat) = some context) :
    let r := internalVolumeOpenReadKeys L (reliable memory beyond) v (some file)
    r.2 = 1 ∧ r.1.masterKey = s.masterKey := by
  intro r
  obtain ⟨context, hcreated⟩ := hcontext
  have hr : r = createVolumeContext L (reliable memory beyond) (v.afterSlots header s .found)
      header := by
    simp only [r]
    rw [internalVolumeOpenReadKeys_ready hv, hfound]
  have hready : (v.afterSlots header s .found).volumeMasterKeyIsSet = true ∧
      (v.afterSlots header s .found).encryptionContext = none := ⟨rfl, hv.encryptionContext⟩
  have hcreated' : createContext L (reliable memory beyond).contextFails
      (reliable memory beyond).setKeyFails header
      ((v.afterSlots header s .found).masterKey.bytes.take
        (v.afterSlots header s .found).masterKeySize) = some context := by
    rw [← hcreated, ← hv.masterKeySize]
    rfl
  rw [hr, createVolumeContext, if_pos hready, hcreated']
  exact ⟨rfl, rfl⟩

/-- A later key slot finds the master key only with the right contents of the memory. -/
theorem exists_memory {env : HeaderEnvironment} {header : VolumeHeader} {file : FileIoHandle}
    {password : List UInt8} (hheader : HeaderOf L env file header)
    (hnot : ¬ OpensAnyway L header password file) {key₀ : List UInt8}
    (hkey₀ : key₀.length = header.masterKeySize.toNat)
    (hinvalid : masterKeyIsValid L false header key₀ ≠ some true) {i : ℕ}
    (hlater : 0 < keyMaterialBefore header i) {keySlot : KeySlot}
    (hi : header.keySlotsArray[i]? = some keySlot) (hactive : keySlot.state = keySlotActive)
    (hfits : KeySlotFits header.masterKeySize.toNat file keySlot) :
    ∃ memory, ∀ key, slotKeyFrom L header header.masterKeySize.toNat password file
      (keyMaterialBefore header i) memory keySlot = some key →
      masterKeyIsValid L false header key ≠ some true := by
  by_contra hall
  push Not at hall
  by_cases hlarger : keyMaterialBefore header i <
      keySlot.keyMaterialSize header.masterKeySize.toNat
  · exact hnot ⟨i, keySlot, hi, hactive, hfits, hlater, hlarger, hall⟩
  · -- nothing is decrypted: the memory is what is merged
    obtain ⟨key, hkey, hvalid⟩ := hall fun _ => 0
    obtain ⟨split, hsplit, -⟩ := Option.bind_eq_some_iff.1 hkey
    obtain ⟨n, hh⟩ := hashSize_of_masterKeyIsValid hvalid
    have hsize := hheader.masterKeySize
    have hstripes := hfits.numberOfStripes
    obtain ⟨target, hlength, hreached⟩ := mergedKey_reaches (L := L)
      (by rw [hh]; exact Option.some_ne_none n) hkey₀ ⟨by omega, by omega⟩ hstripes hfits.le_ssizeMax
    have htarget : (List.range (keySlot.keyMaterialSize header.masterKeySize.toNat)).map
        (fun j => target.getD j 0) = target := by
      apply List.ext_getElem
      · rw [List.length_map, List.length_range, hlength]
        rfl
      · intro j hj hj'
        rw [List.getElem_map, List.getElem_range, List.getD_eq_getElem _ _ hj']
    have hmemory := splitMasterKeyFrom_memory (L := L) (by omega) hsplit fun j => target.getD j 0
    rw [htarget] at hmemory
    obtain ⟨key', hkey', hvalid'⟩ := hall fun j => target.getD j 0
    rw [slotKeyFrom, hmemory, Option.bind_some, hreached, Option.some.injEq] at hkey'
    rw [← hkey'] at hvalid'
    exact hinvalid hvalid'

/-! ## Which key slots are found -/

section

variable {env : HeaderEnvironment} {header : VolumeHeader} {file : FileIoHandle}
  {password : List UInt8} {volume : Volume} {k : ℕ} (hheader : HeaderOf L env file header)
  (hopen : file.isOpen = true) (hmks : header.masterKeySize.toNat ≤ 32)
  (hsectors : InWholeSectors header)

include hheader hopen hmks hsectors in
/-- The attempt succeeds with the key that the loop finds first. -/
theorem completes_iff_finds (hv : ReadyToUnlock L header password volume) :
    Completes L header password file volume k ↔ ∀ memory : ℕ → ℕ → UInt8, ∃ m key,
      Finds L header password file memory 0 m key ∧ ∃ j ≤ k, ∃ keySlot : KeySlot,
        header.keySlotsArray[j]? = some keySlot ∧ OpensWith L header password file keySlot key := by
  have hloop := fun memory beyond => tryKeySlots_finds (L := L) password hheader
    hopen hmks hsectors memory beyond (n := 8) (i := 0)
    (s := ⟨header.keySlotsArray, volume.masterKey, 0⟩) ⟨fun _ _ => rfl, rfl⟩ rfl
  have hunlocks : ∀ (memory beyond : ℕ → ℕ → UInt8) (m : ℕ) (key : List UInt8),
      Finds L header password file memory 0 m key →
      let r := internalVolumeOpenReadKeys L (reliable memory beyond) volume (some file)
      r.2 = 1 ∧ r.1.masterKey.bytes.take header.masterKeySize.toNat = key := by
    intro memory beyond m key hfinds
    obtain ⟨hfound, htake⟩ := (hloop memory beyond).2 m key hfinds
    obtain ⟨keySlot, -, -, -, hkey⟩ := hfinds.derived
    generalize hr : tryKeySlots L (reliable memory beyond) header 512 header.masterKeySize.toNat
      (some password) (some file) 8 0 ⟨header.keySlotsArray, volume.masterKey, 0⟩ = r
      at hfound htake
    obtain ⟨s, result⟩ := r
    simp only at hfound htake
    subst hfound
    obtain ⟨hone, hmasterKey⟩ := internalVolumeOpenReadKeys_found hv hr (by
      rw [htake]
      exact createContext_of_slotKeyFrom hkey)
    exact ⟨hone, by rw [hmasterKey]; exact htake⟩
  constructor
  · intro h memory
    obtain ⟨hone, j, hj, keySlot, key, hslot, hopens, hkey⟩ := h memory fun _ _ => 0
    have hfound : (tryKeySlots L (reliable memory fun _ _ => 0) header 512
        header.masterKeySize.toNat (some password) (some file) 8 0
        ⟨header.keySlotsArray, volume.masterKey, 0⟩).2 = .found := by
      by_contra hno
      exact internalVolumeOpenReadKeys_notFound hv memory _ file hno hone
    obtain ⟨m, hfinds⟩ := (hloop memory fun _ _ => 0).1 hfound
    have htake := (hunlocks memory (fun _ _ => 0) m _ hfinds).2
    refine ⟨m, key, ?_, j, hj, keySlot, hslot, hopens⟩
    rw [← hkey, htake]
    exact hfinds
  · intro h memory beyond
    obtain ⟨m, key, hfinds, j, hj, keySlot, hslot, hopens⟩ := h memory
    obtain ⟨hone, htake⟩ := hunlocks memory beyond m key hfinds
    exact ⟨hone, j, hj, keySlot, key, hslot, hopens, htake⟩

include hheader in
/-- A later key slot is of use only if its key validates for all contents of the memory. -/
theorem LaterOpens.opensAnyway (h : LaterOpens L header password file k) :
    OpensAnyway L header password file := by
  by_contra hno
  -- the first key slot in use is passed, so that its key does not validate
  obtain ⟨m, key, hfinds, hlater, -⟩ := h fun _ _ => 0
  obtain ⟨j, hjm, other, ho, hused⟩ : ∃ j < m, ∃ keySlot : KeySlot,
      header.keySlotsArray[j]? = some keySlot ∧ keySlot.state = keySlotActive := by
    by_contra hall
    push Not at hall
    exact absurd (keyMaterialBefore_eq_zero hall) (by omega)
  obtain ⟨-, key₀, hkey₀, hinvalid₀⟩ := hfinds.passed j (Nat.zero_le j) hjm other ho hused
  have hexists : ∀ i : ℕ, ∃ memory : ℕ → UInt8, ∀ keySlot : KeySlot,
      header.keySlotsArray[i]? = some keySlot → keySlot.state = keySlotActive →
      KeySlotFits header.masterKeySize.toNat file keySlot → 0 < keyMaterialBefore header i →
      ∀ key, slotKeyFrom L header header.masterKeySize.toNat password file
        (keyMaterialBefore header i) memory keySlot = some key →
        masterKeyIsValid L false header key ≠ some true := by
    intro i
    by_cases hgood : ∃ keySlot : KeySlot, header.keySlotsArray[i]? = some keySlot ∧
        keySlot.state = keySlotActive ∧ KeySlotFits header.masterKeySize.toNat file keySlot ∧
        0 < keyMaterialBefore header i
    · obtain ⟨keySlot, hi, hactive, hfits, hpos⟩ := hgood
      obtain ⟨memory, hmemory⟩ := exists_memory hheader hno (slotKeyFrom_length hkey₀)
        (by rw [hinvalid₀]; simp) hpos hi hactive hfits
      refine ⟨memory, fun keySlot' hi' _ _ _ => ?_⟩
      rw [hi] at hi'
      cases hi'
      exact hmemory
    · exact ⟨fun _ => 0, fun keySlot hi hactive hfits hpos =>
        absurd ⟨keySlot, hi, hactive, hfits, hpos⟩ hgood⟩
  choose memory hmemory using hexists
  obtain ⟨m, key, hfinds, hpos, -⟩ := h memory
  obtain ⟨keySlot, hm, hactive, hfits, hkey⟩ := hfinds.derived
  exact hmemory m keySlot hm hactive hfits hpos key hkey hfinds.valid

include hheader hopen hmks hsectors in
/-- **Which key slots are found.**  For every header whose key slots in use have key material of
whole sectors, every image and password, and every key slot that the password opens, at any of the
eight places: the attempt succeeds with the key of this key slot or of one before it, whatever the
memory holds, exactly if the password opens the first key slot in use, with no more key material
than the code allocates, or a later one happens to be of use with all contents of the memory; the
latter takes a key slot with larger key material than those before it. -/
theorem completes_iff (hv : ReadyToUnlock L header password volume) {keySlot : KeySlot}
    {key : List UInt8} (hk : header.keySlotsArray[k]? = some keySlot)
    (hopens : OpensWith L header password file keySlot key) :
    (Completes L header password file volume k ↔
      FirstActiveOpens L header password file ∨ LaterOpens L header password file k) ∧
    (LaterOpens L header password file k → OpensAnyway L header password file) := by
  have hpos : 0 < header.masterKeySize.toNat := by
    have := hheader.masterKeySize.1
    omega
  refine ⟨?_, fun h => h.opensAnyway hheader⟩
  rw [completes_iff_finds hheader hopen hmks hsectors hv]
  constructor
  · intro h
    by_cases hfirst : FirstActiveOpens L header password file
    · exact Or.inl hfirst
    · refine Or.inr fun memory => ?_
      obtain ⟨m, key', hfinds, hopened⟩ := h memory
      refine ⟨m, key', hfinds, ?_, hopened⟩
      by_contra hzero
      have hzero : keyMaterialBefore header m = 0 := by omega
      obtain ⟨other, hm, hactive, hfits, hkey⟩ := hfinds.derived
      rw [hzero, slotKeyFrom_zero] at hkey
      refine hfirst ⟨m, other, key', hm, hfits.keyMaterialSize_le, ⟨hactive, hfits.inside, hkey,
        hfinds.valid⟩, fun j hj passed hpassed hused => ?_⟩
      -- a key slot that was passed has key material
      obtain ⟨hpassedFits, -⟩ := hfinds.passed j (Nat.zero_le j) hj passed hpassed hused
      have hle := keyMaterialSize_le_before hj hpassed hused
      have hsize : 0 < passed.keyMaterialSize header.masterKeySize.toNat :=
        Nat.mul_pos hpos hpassedFits.numberOfStripes
      omega
  · rintro (⟨i, first, key', hi, hallocation, hopens', hbefore⟩ | hlater) memory
    · have hzero := keyMaterialBefore_eq_zero hbefore
      have hle : i ≤ k := by
        by_contra hlt
        exact hbefore k (by omega) keySlot hk hopens.active
      have hfits := hopens'.fits (hsectors first (List.mem_of_getElem? hi) hopens'.active)
        hallocation
      refine ⟨i, key', ⟨Nat.zero_le i, ⟨first, hi, hopens'.active, hfits, ?_⟩, hopens'.valid,
        fun j _ hj other ho hused => absurd hused (hbefore j hj other ho)⟩, i, hle, first, hi,
        hopens'⟩
      rw [hzero, slotKeyFrom_zero]
      exact hopens'.derived
    · obtain ⟨m, key', hfinds, -, hopened⟩ := hlater memory
      exact ⟨m, key', hfinds, hopened⟩

end

/-! ## Two key slots for one password -/

/-- Key material that is merged into 16 zero bytes. -/
def zeroKeyMaterial : List UInt8 := blocks32 cipherBlocks.1 cipherBlocks.2.1 cipherBlocks.2.1

/-- The small volume with two key slots: with the password, the first gives a key of zero bytes and
the second the master key. -/
def twoSlotsRecord : HeaderRecord :=
  { smallRecord with
    encryptedVolumeStartSector := 10
    keySlots := passwordSlot 8 :: passwordSlot 9 :: List.replicate 6 inactiveSlot
    length_keySlots := rfl }

@[inherit_doc twoSlotsRecord]
def twoSlotsHeader : VolumeHeader := twoSlotsRecord.volumeHeader (.zero 16)

@[inherit_doc twoSlotsRecord] def twoSlotsFile : FileIoHandle :=
  volumeFile twoSlotsRecord (zeroKeyMaterial ++ smallKeyMaterial ++ smallData) (by decide +kernel)

/-- A volume with this header and the password. -/
def twoSlotsVolume : Volume :=
  { volumeInitialize with
    volumeHeader := some twoSlotsHeader
    masterKeySize := 16
    userPassword := some (smallPassword ++ [0])
    userPasswordSize := 2
    userPasswordIsSet := true }

/-- The SHA-1 digests on the way of merging 32 stripes of zero bytes, each of the block before. -/
def zeroStripeDigests : List ℕ :=
  [0x6768033e216468247bd031a0a2d9876d79818f8f, 0xd6c4878c04dc83daf811f7b6f2a7cf5c70206eee,
    0xfad5115aca9ce9aab4bd5522659ef28a848e4c2f, 0x11f539eb14b7e879e51746d2ddfd87a63dc6647e,
    0xce191c1a0e8f91e8c11bfc10c23a2e80b9a8a728, 0x7de43daf92415a0958f018994f1d1748ba321692,
    0x9353f2259e7303afa3eb22810db3da032ebef962, 0x0eaa3aa27636f59ba8f8a34a7ea14feb63aea69c,
    0xf86ac675c5547a2c2dd83b698b380b60cdeca9e6, 0x907056dad755614acc0c3e9f2b4df4f746513941,
    0x5092705080e83d89195ccc5fdc03d33d69f36c79, 0x5ba10923b6c86461999bd156af51ecf98f10d47d,
    0xad5a9b1681dc95d4ae7b6206fdf1778702dbea14, 0x33609cf058fb8b3387c26cab846c52e50c23a74c,
    0xfdd7aaf4b31c8f684099572612bdf3591b47c0a2, 0xb10763ee7e61cf5246e52e4e131a13518dc0287f,
    0xf191584383cfe77d6eb13e02ca61bf7cd283472a, 0xa56578b3b17ec82bcb2f157a71c0f051b6477f3a,
    0xc0d3f52aed68c1311e9b94c6ba0447a581f1e571, 0xb539823189cd36135cdbeedfe4a324b830e99041,
    0x123bf25dcb1a36f73c727f18b7eeb63794394f57, 0xd5ae6af63693dbef10fb244bb99ff74f68ddae13,
    0x80d801d7daf06fc98aa296112a45e66f1aea0515, 0x39a2fedbf121a5d85ec94168c55d244fc10c6091,
    0xe5af3653924295e3fa3f610784ebe20749ee5e88, 0x10116b1d6802a73baf36d4b5d746a678fcc00ea4,
    0x6292097b8f61c180e2ae70e56790d9c51f61ded8, 0xa6ed685ca5bba59b14581555f26fef47689ae87b,
    0xb9b32b1f21bb6b0f15b05741afc79f96e5bb1cb3, 0xe6e3cbc53be4d98469f94b986219fc9cfc7c9085,
    0xd4eced81cd9ad5d631e2604c60add1a6e8d2ae53]

/-- The key that stripes of zero bytes are merged into, and its digest under the salt. -/
def zeroStripeHmac : (HashingMethod × List UInt8 × List UInt8) × List UInt8 :=
  ((.sha1, toBigEndian 16 0xd4eced81cd9ad5d631e2604c60add1a6, smallSalt.bytes ++ [0, 0, 0, 1]),
    toBigEndian 20 0x2c627f9bcbeb52e8634e4637e0f9d7a95278b2ee)

/-- AES, SHA-1 and HMAC on the small volume with two key slots. -/
def twoSlotsLibraries : Libraries :=
  .ofTables smallAes
    (diffusedDigests (List.replicate 16 0) (List.replicate 16 0) zeroStripeDigests)
    (zeroStripeHmac :: smallHmacs)

theorem twoSlots_headerOf : HeaderOf twoSlotsLibraries {} twoSlotsFile twoSlotsHeader :=
  headerOf_volumeFile _ rfl (by decide) (by decide +kernel)

theorem twoSlots_inWholeSectors : InWholeSectors twoSlotsHeader := by
  intro keySlot hmem hactive
  have hcases : keySlot = (passwordSlot 8).keySlot ∨ keySlot = (passwordSlot 9).keySlot ∨
      keySlot = inactiveSlot.keySlot := by
    simpa [twoSlotsHeader, HeaderRecord.volumeHeader, twoSlotsRecord] using hmem
  rcases hcases with rfl | rfl | rfl
  · rfl
  · rfl
  · exact absurd hactive (by decide)

theorem twoSlots_ready :
    ReadyToUnlock twoSlotsLibraries twoSlotsHeader smallPassword twoSlotsVolume :=
  ⟨rfl, rfl, rfl, rfl, rfl, rfl, rfl⟩

/-- The second key slot is opened by the password. -/
theorem twoSlots_opensWith : OpensWith twoSlotsLibraries twoSlotsHeader smallPassword twoSlotsFile
    (passwordSlot 9).keySlot smallKey :=
  ⟨rfl, by decide +kernel, by decide +kernel, by decide +kernel⟩

/-- The condition for the second of the two key slots. -/
theorem completes_iff_twoSlots :
    (Completes twoSlotsLibraries twoSlotsHeader smallPassword twoSlotsFile twoSlotsVolume 1 ↔
      FirstActiveOpens twoSlotsLibraries twoSlotsHeader smallPassword twoSlotsFile ∨
        LaterOpens twoSlotsLibraries twoSlotsHeader smallPassword twoSlotsFile 1) ∧
    (LaterOpens twoSlotsLibraries twoSlotsHeader smallPassword twoSlotsFile 1 →
      OpensAnyway twoSlotsLibraries twoSlotsHeader smallPassword twoSlotsFile) :=
  completes_iff twoSlots_headerOf rfl (by decide) twoSlots_inWholeSectors twoSlots_ready rfl
    twoSlots_opensWith

/-- The second key slot is opened by the password, but the attempt returns 0 when the buffers for
the split master keys are of zero bytes. -/
theorem twoSlots_not_completes :
    OpensWith twoSlotsLibraries twoSlotsHeader smallPassword twoSlotsFile (passwordSlot 9).keySlot
      smallKey ∧
    (internalVolumeOpenReadKeys twoSlotsLibraries (reliable (fun _ _ => 0) fun _ _ => 0)
      twoSlotsVolume (some twoSlotsFile)).2 = 0 ∧
    ¬ Completes twoSlotsLibraries twoSlotsHeader smallPassword twoSlotsFile twoSlotsVolume 1 := by
  have hzero : (internalVolumeOpenReadKeys twoSlotsLibraries
      (reliable (fun _ _ => 0) fun _ _ => 0) twoSlotsVolume (some twoSlotsFile)).2 = 0 := by
    decide +kernel
  refine ⟨twoSlots_opensWith, hzero, fun h => ?_⟩
  have hone := (h _ _).1.symm.trans hzero
  cases hone

end Libluksde
