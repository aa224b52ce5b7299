import Libluksde.LockState
import Libluksde.UnlockInputs
import Libluksde.MountHandle

/-!
# Erasing keys

A master key lies in a buffer of 64 bytes, of which `libluksde_volume_close` clears the first 32.
The bytes behind are written by a key of 64 bytes only, and by the key slots of a header with a
master key of more than 32 bytes.  The key data of a mount handle lie in a buffer of 64 bytes as
well, of which `mount_handle_free` clears the first 16.
-/

namespace Libluksde

open Lib.Bytes Lib.Machine

variable {L : Libraries}

/-! ## What the key slots write -/

/-- A round writes as many bytes as the master key has. -/
theorem mergeSplitMasterKey_zeroFrom {env : SlotEnvironment} {header : VolumeHeader}
    {masterKeySize stripes : ℕ} {splitMasterKey : List UInt8} {s : SlotLoop} {k : ℕ}
    (hsize : masterKeySize ≤ k) (h : s.masterKey.ZeroFrom k) :
    (mergeSplitMasterKey L env header masterKeySize stripes splitMasterKey s).1.masterKey.ZeroFrom
      k := by
  have hlength := length_diffuserMerge (L := L) env.mergeFails splitMasterKey
    (s.masterKey.bytes.take masterKeySize) stripes header.hashingMethod
  rw [List.length_take] at hlength
  rw [mergeSplitMasterKey_fst]
  exact h.write (by omega)

theorem tryKeySlot_zeroFrom (env : SlotEnvironment) (header : VolumeHeader) (bytesPerSector : ℕ)
    {masterKeySize : ℕ} (password : Option (List UInt8)) (file : Option FileIoHandle) (i : ℕ)
    {s : SlotLoop} {k : ℕ} (hsize : masterKeySize ≤ k)
    (h : s.masterKey.ZeroFrom k) :
    (tryKeySlot L env header bytesPerSector masterKeySize password file i
      s).1.masterKey.ZeroFrom k := by
  rcases tryKeySlot_cases (L := L) env header bytesPerSector masterKeySize password file i s with
    hround | hround | ⟨keySlot, userKey, -, -, -, -, hround | ⟨splitMasterKey, offset, -, hround⟩⟩
  · rw [hround]
    exact h
  · rw [hround]
    exact h
  · rw [hround]
    exact h
  · rw [hround]
    exact mergeSplitMasterKey_zeroFrom hsize h

theorem tryKeySlots_zeroFrom {env : KeysEnvironment} {header : VolumeHeader}
    {bytesPerSector masterKeySize n i : ℕ} {password : Option (List UInt8)}
    {file : Option FileIoHandle} {s : SlotLoop} {k : ℕ} (hsize : masterKeySize ≤ k)
    (h : s.masterKey.ZeroFrom k) :
    (tryKeySlots L env header bytesPerSector masterKeySize password file n i
      s).1.masterKey.ZeroFrom k := by
  induction n generalizing i s with
  | zero => exact h
  | succ n ih =>
    have hround := tryKeySlot_zeroFrom (L := L) (env.slot i) header bytesPerSector password file i
      hsize h
    rw [tryKeySlots]
    split
    · rename_i s' hs
      rw [hs] at hround
      exact ih hround
    · rename_i s' result hne hs
      rw [hs] at hround
      exact hround

/-- The buffer of the master key is that of the loop over the key slots, where it is entered. -/
theorem readKeysFromSlots_masterKey (env : KeysEnvironment) (v : Volume) (header : VolumeHeader)
    (file : Option FileIoHandle) :
    (readKeysFromSlots L env v header file).1.masterKey =
      if v.volumeMasterKeyIsSet = false ∧ v.userPasswordIsSet = true then
        (tryAllKeySlots L env v header file).1.masterKey
      else v.masterKey := by
  rw [readKeysFromSlots]
  split
  · rcases htry : tryAllKeySlots L env v header file with ⟨s, result⟩
    cases result with
    | error => rfl
    | next =>
      dsimp only
      rw [createVolumeContext_frame]
      rfl
    | found =>
      dsimp only
      rw [createVolumeContext_frame]
      rfl
  · rw [createVolumeContext_frame]

/-- Clearing the lock leaves the master key. -/
theorem internalVolumeUnlock_masterKey (env : KeysEnvironment) (v : Volume)
    (file : Option FileIoHandle) :
    (internalVolumeUnlock L env v file).1.masterKey =
      (internalVolumeOpenReadKeys L env v file).1.masterKey := by
  rw [internalVolumeUnlock]
  rcases internalVolumeOpenReadKeys L env v file with ⟨v', result⟩
  dsimp only
  split
  · rfl
  · split
    · rfl
    · rfl

/-- An attempt to unlock a volume writes no more than the master key of its header, and this only
when there is a password. -/
theorem internalVolumeUnlock_zeroFrom (env : KeysEnvironment) {v : Volume}
    (file : Option FileIoHandle) {k : ℕ}
    (hsize : v.userPasswordIsSet = true → v.masterKeySize ≤ k) (h : v.masterKey.ZeroFrom k) :
    (internalVolumeUnlock L env v file).1.masterKey.ZeroFrom k := by
  have hread : (internalVolumeOpenReadKeys L env v file).1.masterKey.ZeroFrom k := by
    rcases internalVolumeOpenReadKeys_cases (L := L) env v file with
      hfailed | ⟨header, isSet, -, -, hread⟩
    · rw [hfailed]
      exact h
    · rw [hread, readKeysFromSlots_masterKey]
      split
      · -- the key slots are tried
        rename_i htries
        exact tryKeySlots_zeroFrom (hsize htries.2) h
      · exact h
  rw [internalVolumeUnlock_masterKey]
  exact hread

/-! ## What a call writes -/

/-- A call that writes no byte other than zero behind the first 32: no key with such a byte is
set, and with a password no header with a larger master key is opened or unlocked. -/
def WritesShortKeys (L : Libraries) : Operation → Volume → Prop
  | .setKey masterKey, _ => ∀ byte ∈ masterKey.drop 32, byte = 0
  | .openFileIoHandle env file _, v => v.userPasswordIsSet = true →
    ∀ header, volumeHeaderReadFileIoHandle L env.header .cleared file.opened 0 = (header, true) →
      header.masterKeySize.toNat ≤ 32
  | .unlock _, v => v.userPasswordIsSet = true → v.masterKeySize ≤ 32
  | _, _ => True

/-- The bytes behind the first 32 of the buffer of the master key stay zero. -/
theorem step_zeroFrom {operation : Operation} {v : Volume} (hv : Wellformed L v)
    (hshort : WritesShortKeys L operation v) (h : v.masterKey.ZeroFrom 32) :
    (step L operation v).1.masterKey.ZeroFrom 32 := by
  have hquiet : ∀ {call : Operation}, call.IsQuiet → ¬ call.SetsKey →
      (step L call v).1.masterKey.ZeroFrom 32 := fun hcall hkey => by
    rw [((step_quiet hcall v).masterKey hkey).1]
    exact h
  cases operation with
  | setKey masterKey =>
    simp only [step, volumeSetKey]
    split
    · exact h
    · exact Buffer.zeroFrom_ofBytes hshort
  | setKeys masterKey =>
    simp only [step, volumeSetKeys]
    split
    · exact h
    · rename_i hlength
      refine Buffer.ZeroFrom.write ?_ (by omega)
      split
      · exact h.write (by rw [List.length_replicate])
      · exact h
  | openFileIoHandle env file accessFlags =>
    by_cases hnone : v.fileIoHandle = none
    · have houtcome := volumeOpenFileIoHandle_outcome (L := L) env hv.closed hv.bytesPerSector file
        accessFlags
      simp only [step]
      generalize (volumeOpenFileIoHandle L env v file accessFlags).1 = v' at houtcome ⊢
      generalize (volumeOpenFileIoHandle L env v file accessFlags).2.2 = result at houtcome
      have hunlocked : ∀ {header v' result}, ReachesUnlock L env v file accessFlags header →
          internalVolumeUnlock L env.keys (v.beforeUnlock file header) (some file.opened)
            = (v', result) → v'.masterKey.ZeroFrom 32 := by
        intro header v' result hreach hunlock
        have hwritten : (internalVolumeUnlock L env.keys (v.beforeUnlock file header)
            (some file.opened)).1.masterKey.ZeroFrom 32 :=
          internalVolumeUnlock_zeroFrom env.keys (some file.opened)
            (fun hset => hshort hset header hreach.headerOf.read) h
        rw [hunlock] at hwritten
        exact hwritten
      cases houtcome with
      | refused masterKeySize volumeSize => exact h
      | failed hreach hunlock hfails =>
        have hwritten := hunlocked hreach hunlock
        exact hwritten
      | opened hreach hunlock hresult hvector =>
        have hwritten := hunlocked hreach hunlock
        exact hwritten
    · simp only [step, volumeOpenFileIoHandle_of_open env hnone]
      exact h
  | unlock env =>
    simp only [step, volumeUnlock]
    split
    · exact internalVolumeUnlock_zeroFrom env v.fileIoHandle hshort h
    · exact h
  | close env =>
    simp only [step]
    rcases volumeClose_cases env v with ⟨-, hclose⟩ | ⟨-, result, -, hclose⟩
    · rw [hclose]
      exact h
    · rw [hclose]
      exact h.write (by rw [List.length_replicate])
  | setUtf8Password env string | setUtf16Password env string | isLocked
    | seekOffset offset whence | readBuffer env size | readBufferAtOffset env size offset
    | signalAbort => exact hquiet trivial id

theorem volumeAfter_zeroFrom {session : List Operation}
    (h : Admitted (step L) (WritesShortKeys L) volumeInitialize session) :
    (volumeAfter L session).masterKey.ZeroFrom 32 := by
  have hboth : Wellformed L (volumeAfter L session) ∧
      (volumeAfter L session).masterKey.ZeroFrom 32 := by
    refine stateAfter_invariant (P := fun v => Wellformed L v ∧ v.masterKey.ZeroFrom 32) ?_ ?_ h
    · rintro operation v hshort ⟨hv, hzero⟩
      exact ⟨step_wellformed operation v hv, step_zeroFrom hv hshort hzero⟩
    · exact ⟨volumeInitialize_wellformed, Buffer.zeroFrom_zero 64 32⟩
  exact hboth.2

/-! ## What a close clears -/

theorem volumeClose_masterKey {env : CloseEnvironment} {v v' : Volume}
    (h : volumeClose env v = (v', 0)) :
    v'.masterKey = v.masterKey.write 0 (List.replicate 32 0) := by
  rcases volumeClose_cases env v with ⟨-, hclose⟩ | ⟨-, result, -, hclose⟩
  · rw [hclose] at h
    cases h
  · rw [hclose] at h
    rw [← (Prod.mk.inj h).1]
    rfl

/-! ## Mount handles -/

theorem MountHandle.keyData_volumeOffset (m : MountHandle) (volumeOffset : ℤ) :
    ({ m with volumeOffset := volumeOffset } : MountHandle).keyData = m.keyData := rfl

theorem mountHandleSetOffset_keyData (m : MountHandle) (string : List UInt8) :
    (mountHandleSetOffset m string).1.keyData = m.keyData := by
  rw [mountHandleSetOffset]
  cases mountHandleSystemStringCopyFrom64BitInDecimal string with
  | none => rfl
  | some value64bit => exact m.keyData_volumeOffset (off64 value64bit.toNat)

theorem mountHandleOpen_keyData (env : MountOpenEnvironment) (m : MountHandle) :
    (mountHandleOpen L env m).1.keyData = m.keyData := by
  unfold mountHandleOpen
  split
  · rfl
  · split
    · rfl
    · split
      · rfl
      · simp only
        split
        · rfl
        · rfl

theorem mountHandleClose_keyData {env : MountCloseEnvironment} {m m' : MountHandle} {r : ℤ}
    (h : mountHandleClose env m = some (m', r)) : m'.keyData = m.keyData := by
  obtain ⟨⟨volumes, result⟩, -, hm⟩ := Option.map_eq_some_iff.mp h
  have hm' := congrArg (fun p => p.1.keyData) hm
  simp only at hm'
  rw [← hm']
  split
  · rfl
  · split
    · rfl
    · rfl

/-- A call that does not set a key leaves the key data alone. -/
theorem mountCall_keyData {B : Base16} {operation : MountOperation} {m m' : MountHandle} {r : ℤ}
    (hcall : ∀ string, operation ≠ .setKey string)
    (h : mountCall L B operation m = some (m', r)) : m'.keyData = m.keyData := by
  cases operation with
  | setKey string => exact absurd rfl (hcall string)
  | setOffset string =>
    rw [← mountHandleSetOffset_keyData m string, Option.some.inj h]
  | setPassword string | setPathPrefix allocationFails pathPrefix pathPrefixSize =>
    rw [← (Prod.mk.inj (Option.some.inj h)).1]
  | openFile env => rw [← mountHandleOpen_keyData (L := L) env m, Option.some.inj h]
  | signalAbort =>
    obtain ⟨result, -, hm⟩ := Option.map_eq_some_iff.mp h
    rw [← (Prod.mk.inj hm).1]
  | close env => exact mountHandleClose_keyData h

/-- A call that sets no key with a byte other than zero behind the first 16. -/
def WritesShortKeyData (B : Base16) : MountOperation → Prop
  | .setKey string => string.length ∈ [32, 64, 128] → ∀ bytes, B.decode string = some bytes →
    ∀ byte ∈ bytes.drop 16, byte = 0
  | _ => True

/-- The bytes behind the first 16 of the key data stay zero. -/
theorem mountCall_zeroFrom {B : Base16} {operation : MountOperation} {m m' : MountHandle} {r : ℤ}
    (hshort : WritesShortKeyData B operation) (h : m.keyData.ZeroFrom 16)
    (hcall : mountCall L B operation m = some (m', r)) : m'.keyData.ZeroFrom 16 := by
  by_cases hkey : ∃ string, operation = .setKey string
  · obtain ⟨string, rfl⟩ := hkey
    have hset : mountHandleSetKey B m string = (m', r) := Option.some.inj hcall
    rw [← show (mountHandleSetKey B m string).1 = m' by rw [hset]]
    unfold mountHandleSetKey
    simp only
    split
    · exact Buffer.zeroFrom_zero 64 16
    · rename_i hlength
      split
      · exact Buffer.zeroFrom_zero 64 16
      · rename_i bytes hdecode
        exact Buffer.zeroFrom_ofBytes (hshort (by simp; omega) bytes hdecode)
  · rw [mountCall_keyData (fun string hs => hkey ⟨string, hs⟩) hcall]
    exact h

theorem mountHandleAfter_zeroFrom {B : Base16} {unattendedMode : ℤ}
    {history : List MountOperation} {m : MountHandle}
    (hshort : ∀ operation ∈ history, WritesShortKeyData B operation)
    (hafter : mountHandleAfter L B unattendedMode history = some m) :
    m.keyData.ZeroFrom 16 := by
  -- a history that is not defined to its end has nothing to keep
  have hinvariant : ∀ m ∈ mountHandleAfter L B unattendedMode history,
      m.keyData.ZeroFrom 16 := by
    refine stateAfter_invariant
      (P := fun mountHandle : Option MountHandle => ∀ m ∈ mountHandle, m.keyData.ZeroFrom 16)
      ?_ ?_ (admitted_of_forall hshort)
    · intro operation mountHandle hop hzero m' hm'
      obtain ⟨⟨m'', r⟩, hcall, rfl⟩ := Option.map_eq_some_iff.mp hm'
      obtain ⟨m, hm, hcall⟩ := Option.bind_eq_some_iff.mp hcall
      exact mountCall_zeroFrom hop (hzero m hm) hcall
    · rintro m ⟨⟩
      exact Buffer.zeroFrom_zero 64 16
  exact hinvariant m hafter

theorem mountHandleFree_keyData {env : MountCloseEnvironment} {arrayFreeFails : Bool}
    {m m' : MountHandle} {r : ℤ} (h : mountHandleFree env arrayFreeFails m = some (m', r)) :
    m'.keyData = m.keyData.write 0 (List.replicate 16 0) := by
  obtain ⟨⟨closed, result⟩, hclosed, hm'⟩ := Option.map_eq_some_iff.mp h
  have hkeyData : closed.keyData = m.keyData := by
    split at hclosed
    · exact mountHandleClose_keyData hclosed
    · cases hclosed
      rfl
  rw [← hkeyData, ← (Prod.mk.inj hm').1]

/-! ## Key erasure -/

/-- A close without error leaves a cleared master key exactly when the bytes behind the first 32
were zero, and so after every session that writes no others; the key data of a mount handle are
cleared when it is freed exactly when the bytes behind the first 16 were zero, and so after every
history that sets no others. -/
theorem keys_erased_iff (L : Libraries) (B : Base16) :
    (∀ session env v', volumeClose env (volumeAfter L session) = (v', 0) →
      (v'.masterKey = .zero 64 ↔ (volumeAfter L session).masterKey.ZeroFrom 32)) ∧
    (∀ session env v', Admitted (step L) (WritesShortKeys L) volumeInitialize session →
      volumeClose env (volumeAfter L session) = (v', 0) → v'.masterKey = .zero 64) ∧
    (∀ unattendedMode history m env arrayFreeFails m' r,
      mountHandleAfter L B unattendedMode history = some m →
      mountHandleFree env arrayFreeFails m = some (m', r) →
      (m'.keyData = .zero 64 ↔ m.keyData.ZeroFrom 16)) ∧
    ∀ unattendedMode history m env arrayFreeFails m' r,
      (∀ operation ∈ history, WritesShortKeyData B operation) →
      mountHandleAfter L B unattendedMode history = some m →
      mountHandleFree env arrayFreeFails m = some (m', r) → m'.keyData = .zero 64 := by
  have hclose : ∀ session env v', volumeClose env (volumeAfter L session) = (v', 0) →
      (v'.masterKey = .zero 64 ↔ (volumeAfter L session).masterKey.ZeroFrom 32) := by
    intro session env v' h
    rw [volumeClose_masterKey h]
    exact Buffer.write_zeros_eq_zero_iff _ (by decide)
  have hfree : ∀ {m env arrayFreeFails m' r}, mountHandleFree env arrayFreeFails m = some (m', r) →
      (m'.keyData = .zero 64 ↔ m.keyData.ZeroFrom 16) := by
    intro m env arrayFreeFails m' r h
    rw [mountHandleFree_keyData h]
    exact Buffer.write_zeros_eq_zero_iff _ (by decide)
  refine ⟨hclose, ?_, ?_, ?_⟩
  · intro session env v' hshort h
    exact (hclose session env v' h).2 (volumeAfter_zeroFrom hshort)
  · intro unattendedMode history m env arrayFreeFails m' r _ h
    exact hfree h
  · intro unattendedMode history m env arrayFreeFails m' r hshort hafter h
    exact (hfree h).2 (mountHandleAfter_zeroFrom hshort hafter)

/-- The value of a base16 digit. -/
def base16Digit (character : UInt8) : Option UInt8 :=
  if 0x30 ≤ character ∧ character ≤ 0x39 then some (character - 0x30)
  else if 0x41 ≤ character ∧ character ≤ 0x46 then some (character - 0x37)
  else if 0x61 ≤ character ∧ character ≤ 0x66 then some (character - 0x57)
  else none

/-- The bytes of a string of base16 digits. -/
def base16Bytes : List UInt8 → Option (List UInt8)
  | [] => some []
  | [_] => none
  | high :: low :: string =>
    match base16Digit high, base16Digit low, base16Bytes string with
    | some high, some low, some bytes => some ((high * 16 + low) :: bytes)
    | _, _, _ => none

theorem length_base16Bytes {string bytes : List UInt8} (h : base16Bytes string = some bytes) :
    bytes.length = string.length / 2 := by
  fun_induction base16Bytes string generalizing bytes with
  | case1 =>
    cases h
    rfl
  | case2 => cases h
  | case3 high low string highValue lowValue rest hrest hlow hhigh ih =>
    cases h
    rw [List.length_cons, ih hrest]
    simp only [List.length_cons]
    omega
  | case4 => cases h

/-- Base16 digits in either case. -/
def smallBase16 : Base16 := ⟨base16Bytes, length_base16Bytes⟩

/-- The small volume is closed, and a handle with a key of 32 digits is freed. -/
theorem keys_erased_iff_small :
    (volumeClose {} (volumeAfter smallLibraries smallSession)).1.masterKey = .zero 64 ∧
    ∀ m m' r, mountHandleAfter smallLibraries smallBase16 0 [.setKey (List.replicate 32 0x31)]
        = some m → mountHandleFree {} false m = some (m', r) → m'.keyData = .zero 64 := by
  constructor
  · have hclosed : (volumeClose {} (volumeAfter smallLibraries smallSession)).2 = 0 := by
      decide +kernel
    have hshort : Admitted (step smallLibraries) (WritesShortKeys smallLibraries)
        volumeInitialize smallSession := by
      refine ⟨?_, ?_, trivial⟩
      · intro byte hbyte
        simp [smallKey] at hbyte
      · intro h
        cases h
    have herased := (keys_erased_iff smallLibraries smallBase16).2.1 smallSession {}
    generalize volumeClose {} (volumeAfter smallLibraries smallSession) = result at *
    obtain ⟨v', value⟩ := result
    cases hclosed
    exact herased v' hshort rfl
  · intro m m' r
    refine (keys_erased_iff smallLibraries smallBase16).2.2.2 0 _ m {} false m' r ?_
    intro operation hmem
    rw [List.mem_singleton.mp hmem]
    rintro - bytes hdecode
    have hbytes : base16Bytes (List.replicate 32 0x31) = some (List.replicate 16 0x11) := by
      decide +kernel
    cases hbytes.symm.trans hdecode
    intro byte hbyte
    rw [List.drop_eq_nil_of_le List.length_replicate.le] at hbyte
    cases hbyte

/-- A key of 64 bytes is set, and the small volume is opened with it. -/
def longKeySession : List Operation :=
  [.setKey (List.replicate 64 0x2b), .openFileIoHandle {} smallFile 1]

/-- Half of a key of 64 bytes is left when the volume is closed, and half of a key of 64 digits
when the mount handle is freed. -/
theorem keys_not_erased :
    (volumeClose {} (volumeAfter smallLibraries longKeySession)).2 = 0 ∧
    (volumeClose {} (volumeAfter smallLibraries longKeySession)).1.masterKey.bytes
      = List.replicate 32 0 ++ List.replicate 32 0x2b ∧
    ((mountHandleAfter smallLibraries smallBase16 0 [.setKey (List.replicate 64 0x31)]).bind
        (mountHandleFree {} false)).map (fun result => (result.1.keyData.bytes, result.2))
      = some (List.replicate 16 0 ++ List.replicate 16 0x11 ++ List.replicate 32 0, 1) := by
  decide +kernel

end Libluksde
