import Libluksde.UnlockCompleteness

/-!
# The bounds of the key material

The decryption loop of `libluksde_internal_volume_open_read_keys` decrypts the key material of a
key slot in units of a sector, into a buffer of the same size.  This file has the crypt calls that
the loop makes, and says when they stay inside of the two buffers and decrypt all that is merged.
The loop has no call for a rest of less than a sector, and it begins where the loop for the key
slot before ended.
-/

namespace Libluksde

open Lib.Bytes

/-- A call of `libluksde_encryption_context_crypt`: the offset of the unit in both buffers, its
size and its sector number. -/
structure CryptCall where
  offset : ℕ
  size : ℕ
  sectorNumber : UInt64
deriving DecidableEq, Repr

/-- What the decryption loop begins with. -/
structure DecryptionLoop where
  bytesPerSector : ℕ
  masterKeySize : ℕ
  numberOfStripes : ℕ
  keyMaterial : List UInt8
  context : EncryptionContext
  /-- `key_material_data_offset` -/
  offset : ℕ
  /-- What is in the memory behind the buffer of the key material. -/
  beyond : ℕ → UInt8
  /-- The contents of the newly allocated buffer for the split master key. -/
  memory : ℕ → UInt8

section Calls

variable (L : Libraries)

/-- The crypt calls of the decryption loop, the last of which may fail. -/
def decryptCalls (beyond : ℕ → UInt8) (bytesPerSector : ℕ) (keyMaterial : List UInt8) :
    ℕ → (context : EncryptionContext) → (offset : ℕ) → (blockKey : UInt64) → List CryptCall
  | 0, _, _, _ => []
  | fuel + 1, context, offset, blockKey =>
    if offset < keyMaterial.length then
      ⟨offset, bytesPerSector, blockKey⟩ ::
        match encryptionContextCrypt L context .decrypt
          (memoryAt keyMaterial beyond offset bytesPerSector) bytesPerSector blockKey with
        | none => []
        | some (_, context) =>
          decryptCalls beyond bytesPerSector keyMaterial fuel context (offset + bytesPerSector)
            (blockKey + 1)
    else []

/-- The crypt calls of a decryption loop. -/
def DecryptionLoop.calls (loop : DecryptionLoop) : List CryptCall :=
  decryptCalls L loop.beyond loop.bytesPerSector loop.keyMaterial loop.keyMaterial.length
    loop.context loop.offset 0

/-- What a decryption loop leaves: the split master key data and `key_material_data_offset`, or
`none` when a crypt call fails. -/
def DecryptionLoop.result (loop : DecryptionLoop) : Option (List UInt8 × ℕ) :=
  decryptKeyMaterial L loop.beyond loop.bytesPerSector loop.keyMaterial loop.keyMaterial.length
    loop.context ((List.range loop.keyMaterial.length).map loop.memory) loop.offset 0

/-- The decryption loop for a key slot, if it is reached. -/
def keySlotLoop (env : SlotEnvironment) (header : VolumeHeader) (bytesPerSector : ℕ)
    (masterKeySize : ℕ) (file : Option FileIoHandle) (keySlot : KeySlot) (userKey : List UInt8)
    (keyMaterialDataOffset : ℕ) : Option DecryptionLoop :=
  (readKeyMaterial env file masterKeySize keySlot).bind fun keyMaterial =>
    if env.splitAllocationFails then none
    else
      (createContext L env.contextFails env.setKeyFails header userKey).map fun context =>
        ⟨bytesPerSector, masterKeySize, keySlot.numberOfStripes.toNat, keyMaterial, context,
          keyMaterialDataOffset, env.beyond, env.memory⟩

/-- The decryption loop of one round of the key slot loop, if it is reached. -/
def tryKeySlotLoop (env : SlotEnvironment) (header : VolumeHeader) (bytesPerSector : ℕ)
    (masterKeySize : ℕ) (password : Option (List UInt8)) (file : Option FileIoHandle) (i : ℕ)
    (s : SlotLoop) : Option DecryptionLoop :=
  (if env.entryFails then none else s.keySlots[i]?).bind fun keySlot =>
    if keySlot.state ≠ keySlotActive then none
    else
      (passwordPbkdf2 L env.passwordFails password header.hashingMethod keySlot.salt.bytes
        keySlot.numberOfIterations.toNat masterKeySize).bind fun userKey =>
          keySlotLoop L env header bytesPerSector masterKeySize file
            (keySlot.inBytes bytesPerSector) userKey s.keyMaterialDataOffset

/-- The decryption loops of the key slot loop over `n` key slots from index `i` on. -/
def tryKeySlotsLoops (env : KeysEnvironment) (header : VolumeHeader) (bytesPerSector : ℕ)
    (masterKeySize : ℕ) (password : Option (List UInt8)) (file : Option FileIoHandle) :
    ℕ → (i : ℕ) → SlotLoop → List DecryptionLoop
  | 0, _, _ => []
  | n + 1, i, s =>
    (tryKeySlotLoop L (env.slot i) header bytesPerSector masterKeySize password file i s).toList ++
      match tryKeySlot L (env.slot i) header bytesPerSector masterKeySize password file i s with
      | (s, .next) =>
        tryKeySlotsLoops env header bytesPerSector masterKeySize password file n (i + 1) s
      | _ => []

/-- The decryption loops of `libluksde_internal_volume_open_read_keys`. -/
def openReadKeysLoops (env : KeysEnvironment) (volume : Volume) (file : Option FileIoHandle) :
    List DecryptionLoop :=
  if volume.ioHandle.bytesPerSector = 0 then []
  else
    match volume.volumeHeader with
    | none => []
    | some header =>
      if presetKeyIsValid L env volume header = some false ∧ volume.userPasswordIsSet then
        tryKeySlotsLoops L env header volume.ioHandle.bytesPerSector volume.masterKeySize
          volume.password file 8 0 ⟨header.keySlotsArray, volume.masterKey, 0⟩
      else []

end Calls

variable {L : Libraries}

/-- The calls for `n` whole sectors from an offset and a sector number on. -/
def sectorCalls : ℕ → (offset : ℕ) → (blockKey : UInt64) → List CryptCall
  | 0, _, _ => []
  | n + 1, offset, blockKey => ⟨offset, 512, blockKey⟩ :: sectorCalls n (offset + 512) (blockKey + 1)

theorem sectorCalls_inside {n offset size : ℕ} {blockKey : UInt64}
    (h : offset + 512 * n ≤ size) :
    ∀ call ∈ sectorCalls n offset blockKey, call.offset + call.size ≤ size := by
  induction n generalizing offset blockKey with
  | zero => simp [sectorCalls]
  | succ n ih =>
    have hrest : offset + 512 + 512 * n ≤ size := by omega
    intro call hcall
    rcases List.mem_cons.mp hcall with rfl | hmem
    · exact Nat.le_trans (Nat.le_add_right (offset + 512) (512 * n)) hrest
    · exact ih hrest call hmem

theorem sectorCalls_eq (n offset : ℕ) (blockKey : UInt64) : sectorCalls n offset blockKey =
    (List.range n).map fun k => ⟨offset + 512 * k, 512, blockKey + UInt64.ofNat k⟩ := by
  induction n generalizing offset blockKey with
  | zero => rfl
  | succ n ih =>
    rw [sectorCalls, ih, List.range_succ_eq_map, List.map_cons, List.map_map]
    congr 1
    · simp
    · refine List.map_congr_left fun k _ => ?_
      simp only [Function.comp_apply, CryptCall.mk.injEq, true_and]
      constructor
      · omega
      · rw [UInt64.add_assoc, ← UInt64.ofNat_one, ← UInt64.ofNat_add, Nat.add_comm]

/-! ## One decryption loop -/

/-- The whole sectors that a decryption loop begins with: one of them cannot be decrypted and the
loop ends there, or the loop goes on behind them. -/
inductive WholeSectors (L : Libraries) (beyond : ℕ → UInt8) (keyMaterial : List UInt8) (n m : ℕ)
    (context : EncryptionContext) (split : List UInt8) (offset : ℕ) (blockKey : UInt64) : Prop
  | fails (k : ℕ) (hk : k ≤ n)
      (hsectors : decryptSectors L n context blockKey (keyMaterial.drop offset) = none)
      (hcalls : decryptCalls L beyond 512 keyMaterial (n + m) context offset blockKey =
        sectorCalls k offset blockKey)
      (hresult : decryptKeyMaterial L beyond 512 keyMaterial (n + m) context split offset blockKey
        = none)
  | goesOn (context' : EncryptionContext) (split' : List UInt8) (blockKey' : UInt64)
      (hsectors : decryptSectors L n context blockKey (keyMaterial.drop offset) ≠ none)
      (hcalls : decryptCalls L beyond 512 keyMaterial (n + m) context offset blockKey =
        sectorCalls n offset blockKey ++
          decryptCalls L beyond 512 keyMaterial m context' (offset + 512 * n) blockKey')
      (hresult : decryptKeyMaterial L beyond 512 keyMaterial (n + m) context split offset blockKey
        = decryptKeyMaterial L beyond 512 keyMaterial m context' split' (offset + 512 * n) blockKey')

theorem wholeSectors {beyond : ℕ → UInt8} {keyMaterial : List UInt8} {n m : ℕ}
    {context : EncryptionContext} {split : List UInt8} {offset : ℕ} {blockKey : UInt64}
    (h : n = 0 ∨ offset + 512 * n ≤ keyMaterial.length) :
    WholeSectors L beyond keyMaterial n m context split offset blockKey := by
  induction n generalizing context split offset blockKey with
  | zero =>
    rw [← Nat.zero_add m]
    exact .goesOn context split blockKey (by simp [decryptSectors]) (by rw [Nat.zero_add]; rfl)
      (by rw [Nat.zero_add]; rfl)
  | succ n ih =>
    have hlength : offset + 512 + 512 * n ≤ keyMaterial.length := by omega
    have hinside : offset + 512 ≤ keyMaterial.length := by
      exact Nat.le_trans (Nat.le_add_right _ _) hlength
    have hmemory : memoryAt keyMaterial beyond offset 512 = (keyMaterial.drop offset).take 512 :=
      memoryAt_of_le hinside
    have hfuel : n + 1 + m = n + m + 1 := by omega
    have hcalls : decryptCalls L beyond 512 keyMaterial (n + 1 + m) context offset blockKey =
        ⟨offset, 512, blockKey⟩ ::
          match encryptionContextCrypt L context .decrypt ((keyMaterial.drop offset).take 512) 512
            blockKey with
          | none => []
          | some (_, context) =>
            decryptCalls L beyond 512 keyMaterial (n + m) context (offset + 512)
              (blockKey + 1) := by
      rw [hfuel, decryptCalls, if_pos (by omega), hmemory]
    have hresult : decryptKeyMaterial L beyond 512 keyMaterial (n + 1 + m) context split offset
        blockKey =
          match encryptionContextCrypt L context .decrypt ((keyMaterial.drop offset).take 512) 512
            blockKey with
          | none => none
          | some (data, context) =>
            decryptKeyMaterial L beyond 512 keyMaterial (n + m) context (write offset data split)
              (offset + 512) (blockKey + 1) := by
      rw [hfuel, ← hmemory, decryptKeyMaterial]
      exact if_pos (by omega)
    cases hcrypt : encryptionContextCrypt L context .decrypt ((keyMaterial.drop offset).take 512)
        512 blockKey with
    | none =>
      rw [hcrypt] at hcalls hresult
      refine .fails 1 (by omega) ?_ hcalls hresult
      rw [decryptSectors, hcrypt]
      rfl
    | some r =>
      obtain ⟨data, context'⟩ := r
      rw [hcrypt] at hcalls hresult
      simp only at hcalls hresult
      have hsectors : decryptSectors L (n + 1) context blockKey (keyMaterial.drop offset) =
          (decryptSectors L n context' (blockKey + 1) (keyMaterial.drop (offset + 512))).map
            (data ++ ·) := by
        rw [decryptSectors, hcrypt, Option.bind_some, List.drop_drop]
      have hoffset : offset + 512 + 512 * n = offset + 512 * (n + 1) := by omega
      -- the rest of the sectors
      have hrest := @ih context' (write offset data split) (offset + 512) (blockKey + 1)
        (Or.inr hlength)
      cases hrest with
      | fails k hk hs hc hr =>
        refine .fails (k + 1) (by omega) ?_ ?_ ?_
        · rw [hsectors, hs]
          rfl
        · rw [hcalls, hc, sectorCalls]
        · rw [hresult, hr]
      | goesOn context'' split' blockKey' hs hc hr =>
        refine .goesOn context'' split' blockKey' ?_ ?_ ?_
        · rw [hsectors]
          simpa using hs
        · rw [hcalls, hc, sectorCalls, hoffset, List.cons_append]
        · rw [hresult, hr, hoffset]

/-- Behind the key material there is nothing to decrypt. -/
theorem decryptCalls_done {beyond : ℕ → UInt8} {keyMaterial : List UInt8} {fuel offset : ℕ}
    {context : EncryptionContext} {blockKey : UInt64} (h : keyMaterial.length ≤ offset) :
    decryptCalls L beyond 512 keyMaterial fuel context offset blockKey = [] := by
  cases fuel with
  | zero => rfl
  | succ fuel => rw [decryptCalls, if_neg (by omega)]

theorem decryptKeyMaterial_done {beyond : ℕ → UInt8} {keyMaterial split : List UInt8}
    {fuel offset : ℕ} {context : EncryptionContext} {blockKey : UInt64}
    (h : keyMaterial.length ≤ offset) :
    decryptKeyMaterial L beyond 512 keyMaterial fuel context split offset blockKey =
      some (split, offset) := by
  cases fuel with
  | zero => rfl
  | succ fuel => rw [decryptKeyMaterial, if_neg (by omega)]

namespace DecryptionLoop

/-- `key_material_size`, the size of both buffers. -/
def size (loop : DecryptionLoop) : ℕ := loop.keyMaterial.length

/-- Every crypt call stays inside of the two buffers.  A call that fails before it touches memory,
as for the mode `lmk`, counts with the bytes it is given. -/
def InBounds (L : Libraries) (loop : DecryptionLoop) : Prop :=
  ∀ call ∈ loop.calls L, call.offset + call.size ≤ loop.size

/-- If the loop is left without an error, all of the key material has been decrypted, in
consecutive units with sector numbers from 0 on. -/
def Covers (L : Libraries) (loop : DecryptionLoop) : Prop :=
  loop.result L ≠ none → ∃ n, loop.size ≤ 512 * n ∧
    loop.calls L = (List.range n).map fun k => ⟨512 * k, 512, UInt64.ofNat k⟩

/-- One of the whole sectors that the loop begins with cannot be decrypted. -/
def FailsInside (L : Libraries) (loop : DecryptionLoop) : Prop :=
  decryptSectors L ((loop.size - loop.offset) / 512) loop.context 0
    (loop.keyMaterial.drop loop.offset) = none

/-- A loop stays inside of the buffers and decrypts all of the key material exactly when it begins
at its first byte and the key material has a whole number of sectors, or when it fails before. -/
theorem inBounds_and_covers_iff {loop : DecryptionLoop} (hbytes : loop.bytesPerSector = 512)
    (hsize : 0 < loop.size) :
    loop.InBounds L ∧ loop.Covers L ↔
      (loop.offset = 0 ∧ loop.size % 512 = 0) ∨ loop.FailsInside L := by
  obtain ⟨n, hn⟩ : ∃ n, n = (loop.size - loop.offset) / 512 := ⟨_, rfl⟩
  obtain ⟨m, hm⟩ : ∃ m, loop.size = n + (m + 1) := ⟨loop.size - n - 1, by omega⟩
  have hwhole : WholeSectors L loop.beyond loop.keyMaterial n (m + 1) loop.context
      ((List.range loop.keyMaterial.length).map loop.memory) loop.offset 0 := by
    apply wholeSectors
    have hlength : loop.keyMaterial.length = loop.size := rfl
    omega
  have hcallsEq : loop.calls L = decryptCalls L loop.beyond 512 loop.keyMaterial (n + (m + 1))
      loop.context loop.offset 0 := by rw [calls, hbytes, ← hm, size]
  have hresultEq : loop.result L = decryptKeyMaterial L loop.beyond 512 loop.keyMaterial
      (n + (m + 1)) loop.context ((List.range loop.keyMaterial.length).map loop.memory) loop.offset
      0 := by rw [result, hbytes, ← hm, size]
  rw [FailsInside, ← hn]
  cases hwhole with
  | fails k hk hs hc hr =>
    have hinside : k = 0 ∨ loop.offset + 512 * k ≤ loop.size := by omega
    refine iff_of_true ⟨?_, ?_⟩ (Or.inr hs)
    · rw [InBounds, hcallsEq, hc]
      rcases hinside with rfl | hinside
      · simp [sectorCalls]
      · exact sectorCalls_inside hinside
    · intro hleft
      exact absurd (hresultEq.trans hr) hleft
  | goesOn context split blockKey hs hc hr =>
    rw [or_iff_left hs]
    constructor
    · rintro ⟨hbounds, hcovers⟩
      by_cases hrest : loop.offset + 512 * n < loop.size
      · -- the call for the rest leaves the buffers
        have hlt : loop.offset + 512 * n < loop.keyMaterial.length := hrest
        have hmem : (⟨loop.offset + 512 * n, 512, blockKey⟩ : CryptCall) ∈ loop.calls L := by
          rw [hcallsEq, hc, decryptCalls, if_pos hlt]
          exact List.mem_append_right _ List.mem_cons_self
        have hcall := hbounds _ hmem
        simp only at hcall
        omega
      · have hdone : loop.keyMaterial.length ≤ loop.offset + 512 * n := Nat.le_of_not_lt hrest
        have hleft : loop.result L ≠ none := by
          rw [hresultEq, hr, decryptKeyMaterial_done hdone]
          exact Option.some_ne_none _
        obtain ⟨n', hn', hcalls⟩ := hcovers hleft
        rw [hcallsEq, hc, decryptCalls_done hdone, List.append_nil, sectorCalls_eq] at hcalls
        have hlengths : n = n' := by simpa using congrArg List.length hcalls
        have hfirst : loop.offset = 0 := by
          have hhead := congrArg (fun calls => calls.head?.map CryptCall.offset) hcalls
          have hpos : n = n - 1 + 1 := by omega
          rw [← hlengths, hpos, List.range_succ_eq_map] at hhead
          simpa using hhead
        exact ⟨hfirst, by omega⟩
    · rintro ⟨hfirst, hsectors⟩
      have hexact : loop.offset + 512 * n = loop.size := by omega
      have hcalls : loop.calls L = sectorCalls n loop.offset 0 := by
        rw [hcallsEq, hc, decryptCalls_done (Nat.le_of_eq hexact.symm), List.append_nil]
      constructor
      · rw [InBounds, hcalls]
        exact sectorCalls_inside (Nat.le_of_eq hexact)
      · intro _
        refine ⟨n, by omega, ?_⟩
        rw [hcalls, sectorCalls_eq, hfirst]
        simp

end DecryptionLoop

/-! ## The loops of an attempt -/

/-- A loop for key material of a size that passed the checks. -/
structure DecryptionLoop.Checked (loop : DecryptionLoop) (bytesPerSector masterKeySize : ℕ) :
    Prop where
  bytesPerSector : loop.bytesPerSector = bytesPerSector
  masterKeySize : loop.masterKeySize = masterKeySize
  size : loop.size = loop.masterKeySize * loop.numberOfStripes
  pos : 0 < loop.size
  allocated : loop.masterKeySize * loop.numberOfStripes ≤ memoryMaximumAllocationSize

theorem readKeyMaterial_some {env : SlotEnvironment} {file : Option FileIoHandle}
    {masterKeySize : ℕ} {keySlot : KeySlot} {keyMaterial : List UInt8}
    (h : readKeyMaterial env file masterKeySize keySlot = some keyMaterial) :
    0 < masterKeySize * keySlot.numberOfStripes.toNat ∧
      masterKeySize * keySlot.numberOfStripes.toNat ≤ memoryMaximumAllocationSize ∧
      keyMaterial.length = masterKeySize * keySlot.numberOfStripes.toNat := by
  simp only [readKeyMaterial] at h
  split at h
  · cases h
  · rename_i hstripes
    split at h
    · cases h
    · rename_i hsize
      split at h
      · cases h
      · split at h
        · cases h
        · split at h
          · cases h
          · rename_i hlength
            cases h
            rw [not_or] at hsize
            refine ⟨Nat.mul_pos (by omega) (by omega), ?_, by simpa using hlength⟩
            exact (Nat.le_div_iff_mul_le (by omega)).mp (by omega)

/-- A round with a decryption loop is one for a key slot in use. -/
theorem tryKeySlotLoop_some {env : SlotEnvironment} {header : VolumeHeader}
    {bytesPerSector masterKeySize i : ℕ} {password : Option (List UInt8)}
    {file : Option FileIoHandle} {s : SlotLoop} {loop : DecryptionLoop}
    (h : tryKeySlotLoop L env header bytesPerSector masterKeySize password file i s = some loop) :
    loop.Checked bytesPerSector masterKeySize ∧ loop.offset = s.keyMaterialDataOffset ∧
      ∃ keySlot, s.keySlots[i]? = some keySlot ∧ keySlot.state = keySlotActive ∧
        loop.numberOfStripes = keySlot.numberOfStripes.toNat := by
  obtain ⟨keySlot, hslot, h⟩ := Option.bind_eq_some_iff.mp h
  split at h
  · cases h
  · rename_i hactive
    obtain ⟨userKey, -, h⟩ := Option.bind_eq_some_iff.mp h
    obtain ⟨keyMaterial, hmaterial, h⟩ := Option.bind_eq_some_iff.mp h
    split at h
    · cases h
    · obtain ⟨context, -, rfl⟩ := Option.map_eq_some_iff.mp h
      obtain ⟨hpos, hallocated, hlength⟩ := readKeyMaterial_some hmaterial
      have hentry : s.keySlots[i]? = some keySlot := by
        split at hslot
        · cases hslot
        · exact hslot
      refine ⟨⟨rfl, rfl, hlength, ?_, hallocated⟩, rfl, keySlot, hentry, not_not.mp hactive, rfl⟩
      rw [DecryptionLoop.size, hlength]
      exact hpos

/-- All loops are for key material of a size that passed the checks. -/
theorem tryKeySlotsLoops_checked {env : KeysEnvironment} {header : VolumeHeader}
    {bytesPerSector masterKeySize n i : ℕ} {password : Option (List UInt8)}
    {file : Option FileIoHandle} {s : SlotLoop} :
    ∀ loop ∈ tryKeySlotsLoops L env header bytesPerSector masterKeySize password file n i s,
      loop.Checked bytesPerSector masterKeySize := by
  induction n generalizing i s with
  | zero => simp [tryKeySlotsLoops]
  | succ n ih =>
    intro loop hmem
    rcases List.mem_append.mp hmem with hround | hrest
    · exact (tryKeySlotLoop_some (Option.mem_toList.mp hround)).1
    · split at hrest
      · exact ih loop hrest
      · cases hrest

/-- A key slot that is in use. -/
def ActiveAt (keySlots : List KeySlot) (i : ℕ) : Prop :=
  ∃ keySlot, keySlots[i]? = some keySlot ∧ keySlot.state = keySlotActive

/-- A round leaves the other key slots alone. -/
theorem tryKeySlot_otherKeySlots (env : SlotEnvironment) (header : VolumeHeader)
    (bytesPerSector masterKeySize : ℕ) (password : Option (List UInt8))
    (file : Option FileIoHandle) (s : SlotLoop) {i j : ℕ} (hj : j ≠ i) :
    (tryKeySlot L env header bytesPerSector masterKeySize password file i s).1.keySlots[j]? =
      s.keySlots[j]? := by
  rcases tryKeySlot_keySlots_cases (L := L) env header bytesPerSector masterKeySize password file i
    s with hsame | ⟨keySlot, userKey, -, -, -, -, hset⟩
  · rw [hsame]
  · rw [hset]
    exact List.getElem?_set_ne hj.symm

/-- A key slot that is not in use leaves all variables alone. -/
theorem tryKeySlot_of_not_active (env : SlotEnvironment) (header : VolumeHeader)
    (bytesPerSector masterKeySize : ℕ) (password : Option (List UInt8))
    (file : Option FileIoHandle) {s : SlotLoop} {i : ℕ} (h : ¬ ActiveAt s.keySlots i) :
    (tryKeySlot L env header bytesPerSector masterKeySize password file i s).1 = s := by
  rcases tryKeySlot_cases (L := L) env header bytesPerSector masterKeySize password file i s with
    hround | hround | ⟨keySlot, userKey, -, hslot, hactive, -⟩
  · rw [hround]
  · rw [hround]
  · exact absurd ⟨keySlot, hslot, hactive⟩ h

/-- At most one of the key slots from index `i` on is in use, and those in use have a whole number
of sectors of key material. -/
structure OneWholeKeySlot (masterKeySize : ℕ) (keySlots : List KeySlot) (n i : ℕ) : Prop where
  one : ∀ j k, i ≤ j → j < i + n → i ≤ k → k < i + n →
    ActiveAt keySlots j → ActiveAt keySlots k → j = k
  whole : ∀ j keySlot, i ≤ j → j < i + n → keySlots[j]? = some keySlot →
    keySlot.state = keySlotActive → masterKeySize * keySlot.numberOfStripes.toNat % 512 = 0

theorem OneWholeKeySlot.tail {masterKeySize n i : ℕ} {keySlots keySlots' : List KeySlot}
    (h : OneWholeKeySlot masterKeySize keySlots (n + 1) i)
    (hsame : ∀ j, i + 1 ≤ j → keySlots'[j]? = keySlots[j]?) :
    OneWholeKeySlot masterKeySize keySlots' n (i + 1) := by
  constructor
  · intro j k hj hjn hk hkn hactive hactive'
    rw [ActiveAt, hsame j hj] at hactive
    rw [ActiveAt, hsame k hk] at hactive'
    exact h.one j k (by omega) (by omega) (by omega) (by omega) hactive hactive'
  · intro j keySlot hj hjn hslot
    rw [hsame j hj] at hslot
    exact h.whole j keySlot (by omega) (by omega) hslot

/-- With at most one key slot in use, the decryption begins with the first byte of a whole number
of sectors. -/
theorem tryKeySlotsLoops_one {env : KeysEnvironment} {header : VolumeHeader}
    {bytesPerSector masterKeySize n i : ℕ} {password : Option (List UInt8)}
    {file : Option FileIoHandle} {s : SlotLoop} (h : OneWholeKeySlot masterKeySize s.keySlots n i)
    (hstart : s.keyMaterialDataOffset = 0 ∨
      ∀ j, i ≤ j → j < i + n → ¬ ActiveAt s.keySlots j) :
    ∀ loop ∈ tryKeySlotsLoops L env header bytesPerSector masterKeySize password file n i s,
      loop.offset = 0 ∧ loop.size % 512 = 0 := by
  induction n generalizing i s with
  | zero => simp [tryKeySlotsLoops]
  | succ n ih =>
    intro loop hmem
    rcases List.mem_append.mp hmem with hround | hrest
    · obtain ⟨hchecked, hoffset, keySlot, hslot, hactive, hstripes⟩ :=
        tryKeySlotLoop_some (Option.mem_toList.mp hround)
      have hwhole := h.whole i keySlot (le_refl i) (by omega) hslot hactive
      rcases hstart with hzero | hnone
      · refine ⟨hoffset.trans hzero, ?_⟩
        rw [hchecked.size, hchecked.masterKeySize, hstripes]
        exact hwhole
      · exact absurd ⟨keySlot, hslot, hactive⟩ (hnone i (le_refl i) (by omega))
    · split at hrest
      · rename_i s' hround
        have hsame : ∀ j, i + 1 ≤ j → s'.keySlots[j]? = s.keySlots[j]? := by
          intro j hj
          have hne : j ≠ i := by omega
          have hother := tryKeySlot_otherKeySlots (L := L) (env.slot i) header bytesPerSector
            masterKeySize password file s hne
          rw [hround] at hother
          exact hother
        refine ih (h.tail hsame) ?_ loop hrest
        by_cases hactive : ActiveAt s.keySlots i
        · -- the others are not in use
          refine Or.inr fun j hj hjn hother => ?_
          rw [ActiveAt, hsame j hj] at hother
          have hij := h.one i j (le_refl i) (by omega) (by omega) (by omega) hactive hother
          omega
        · have hstill : s' = s := by
            have hround' := tryKeySlot_of_not_active (L := L) (env.slot i) header bytesPerSector
              masterKeySize password file hactive
            rw [hround] at hround'
            exact hround'
          rw [hstill]
          rcases hstart with hzero | hnone
          · exact Or.inl hzero
          · exact Or.inr fun j hj hjn => hnone j (by omega) (by omega)
      · cases hrest

/-! ## The bounds -/

theorem openReadKeysLoops_checked {env : KeysEnvironment} {v : Volume}
    {file : Option FileIoHandle} : ∀ loop ∈ openReadKeysLoops L env v file,
      loop.Checked v.ioHandle.bytesPerSector v.masterKeySize := by
  rw [openReadKeysLoops]
  split
  · simp
  · split
    · simp
    · split
      · exact tryKeySlotsLoops_checked
      · simp

theorem openReadKeysLoops_one {env : KeysEnvironment} {v : Volume} {file : Option FileIoHandle}
    (h : ∀ header, v.volumeHeader = some header →
      OneWholeKeySlot v.masterKeySize header.keySlotsArray 8 0) :
    ∀ loop ∈ openReadKeysLoops L env v file, loop.offset = 0 ∧ loop.size % 512 = 0 := by
  rw [openReadKeysLoops]
  split
  · simp
  · split
    · simp
    · rename_i header hheader
      split
      · exact tryKeySlotsLoops_one (h header hheader) (Or.inl rfl)
      · simp

/-- The sizes of the key material do not wrap.  A decryption loop stays inside of the buffers and
decrypts all of the key material exactly when it begins at its first byte and there is a whole
number of sectors, or when a crypt call fails before; so in every attempt for a header with at most
one key slot in use, of a whole number of sectors. -/
theorem keyMaterial_decrypted_iff {env : KeysEnvironment} {v : Volume}
    {file : Option FileIoHandle} (hbytes : v.ioHandle.bytesPerSector = 512) :
    (∀ loop ∈ openReadKeysLoops L env v file,
      loop.masterKeySize = v.masterKeySize ∧
      loop.size = loop.masterKeySize * loop.numberOfStripes ∧
      loop.masterKeySize * loop.numberOfStripes < 2 ^ 64) ∧
    (∀ loop ∈ openReadKeysLoops L env v file,
      (loop.InBounds L ∧ loop.Covers L ↔
        loop.offset = 0 ∧ loop.masterKeySize * loop.numberOfStripes % 512 = 0 ∨
          loop.FailsInside L)) ∧
    ((∀ header, v.volumeHeader = some header →
        OneWholeKeySlot v.masterKeySize header.keySlotsArray 8 0) →
      ∀ loop ∈ openReadKeysLoops L env v file, loop.InBounds L ∧ loop.Covers L) := by
  have hiff : ∀ loop ∈ openReadKeysLoops L env v file,
      (loop.InBounds L ∧ loop.Covers L ↔
        loop.offset = 0 ∧ loop.size % 512 = 0 ∨ loop.FailsInside L) := by
    intro loop hmem
    have hchecked := openReadKeysLoops_checked loop hmem
    exact DecryptionLoop.inBounds_and_covers_iff (hchecked.bytesPerSector.trans hbytes) hchecked.pos
  refine ⟨?_, ?_, ?_⟩
  · intro loop hmem
    have hchecked := openReadKeysLoops_checked loop hmem
    refine ⟨hchecked.masterKeySize, hchecked.size, lt_of_le_of_lt hchecked.allocated ?_⟩
    decide
  · intro loop hmem
    rw [← (openReadKeysLoops_checked loop hmem).size]
    exact hiff loop hmem
  · intro hone loop hmem
    exact (hiff loop hmem).2 (Or.inl (openReadKeysLoops_one hone loop hmem))

/-- The small volume with its password in the first key slot, of the given number of stripes. -/
def stripesRecord (numberOfStripes : UInt32) : HeaderRecord :=
  { smallRecord with
    encryptedVolumeStartSector := 10
    keySlots := { passwordSlot 8 with numberOfStripes := numberOfStripes } ::
      List.replicate 7 inactiveSlot
    length_keySlots := rfl }

@[inherit_doc stripesRecord] def stripesVolume (numberOfStripes : UInt32) : Volume :=
  { twoSlotsVolume with
    volumeHeader := some ((stripesRecord numberOfStripes).volumeHeader (.zero 16)) }

/-- The key slot is the only one in use. -/
theorem stripesRecord_active {numberOfStripes : UInt32} {i : ℕ} {keySlot : KeySlot}
    (hslot : ((stripesRecord numberOfStripes).volumeHeader (.zero 16)).keySlotsArray[i]?
      = some keySlot) (hactive : keySlot.state = keySlotActive) :
    i = 0 ∧ keySlot.numberOfStripes = numberOfStripes := by
  cases i with
  | zero =>
    cases hslot
    exact ⟨rfl, rfl⟩
  | succ i =>
    have hrest : (List.replicate 7 inactiveSlot.keySlot)[i]? = some keySlot := hslot
    rw [List.eq_of_mem_replicate (List.mem_of_getElem? hrest)] at hactive
    exact absurd hactive (by decide)

/-- A key slot of 32 stripes of 16 bytes has one sector of key material. -/
theorem keyMaterial_decrypted_iff_small :
    (openReadKeysLoops smallLibraries {} (stripesVolume 32) (some twoSlotsFile)).length = 1 ∧
    ∀ loop ∈ openReadKeysLoops smallLibraries {} (stripesVolume 32) (some twoSlotsFile),
      loop.InBounds smallLibraries ∧ loop.Covers smallLibraries := by
  refine ⟨by decide +kernel, (keyMaterial_decrypted_iff rfl).2.2 ?_⟩
  rintro header ⟨⟩
  constructor
  · rintro j k - - - - ⟨keySlot, hslot, hactive⟩ ⟨keySlot', hslot', hactive'⟩
    rw [(stripesRecord_active hslot hactive).1, (stripesRecord_active hslot' hactive').1]
  · rintro j keySlot - - hslot hactive
    rw [(stripesRecord_active hslot hactive).2]
    rfl

/-- The key material of a key slot of one stripe is decrypted in a unit that leaves the buffers,
and of two key slots with a sector of key material each the second is not decrypted at all. -/
theorem keyMaterial_not_decrypted :
    (∃ loop ∈ openReadKeysLoops smallLibraries {} (stripesVolume 1) (some twoSlotsFile),
      loop.size = 16 ∧ loop.calls smallLibraries = [⟨0, 512, 0⟩] ∧
        ¬ loop.InBounds smallLibraries) ∧
    ∃ loop ∈ openReadKeysLoops smallLibraries {} twoSlotsVolume (some twoSlotsFile),
      loop.size = 512 ∧ loop.calls smallLibraries = [] ∧ ¬ loop.Covers smallLibraries := by
  have hfirst : (16, [⟨0, 512, 0⟩]) ∈
      (openReadKeysLoops smallLibraries {} (stripesVolume 1) (some twoSlotsFile)).map
        fun loop => (loop.size, loop.calls smallLibraries) := by
    decide +kernel
  have hsecond : (512, [], true) ∈
      (openReadKeysLoops smallLibraries {} twoSlotsVolume (some twoSlotsFile)).map
        fun loop => (loop.size, loop.calls smallLibraries, (loop.result smallLibraries).isSome) := by
    decide +kernel
  constructor
  · obtain ⟨loop, hmem, hloop⟩ := List.mem_map.mp hfirst
    obtain ⟨hsize, hcalls⟩ := Prod.mk.inj hloop
    refine ⟨loop, hmem, hsize, hcalls, fun hbounds => ?_⟩
    have hcall := hbounds ⟨0, 512, 0⟩ (by rw [hcalls]; exact List.mem_cons_self)
    rw [hsize] at hcall
    exact absurd hcall (by decide)
  · obtain ⟨loop, hmem, hloop⟩ := List.mem_map.mp hsecond
    obtain ⟨hsize, hrest⟩ := Prod.mk.inj hloop
    obtain ⟨hcalls, hleft⟩ := Prod.mk.inj hrest
    refine ⟨loop, hmem, hsize, hcalls, fun hcovers => ?_⟩
    obtain ⟨n, hn, hunits⟩ := hcovers (Option.isSome_iff_ne_none.mp hleft)
    rw [hcalls] at hunits
    have hzero : n = 0 := by simpa using congrArg List.length hunits.symm
    rw [hsize, hzero] at hn
    exact absurd hn (by decide)

end Libluksde
