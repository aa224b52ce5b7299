import Libluksde.KeyErasure

/-!
# The two key setters

`libluksde_volume_set_key` clears the whole buffer of the master key before it copies the key;
`libluksde_volume_set_keys` clears the first half, and only for a key of 16 bytes.  What an earlier
key left in the second half of the buffer stays behind the key.
-/

namespace Libluksde

open Lib.Bytes Lib.Machine

variable {L : Libraries}

/-- The key of a volume, with nothing but zero bytes behind it. -/
structure HoldsKey (v : Volume) (key : List UInt8) : Prop where
  masterKey : v.masterKey.bytes = key ++ List.replicate (64 - key.length) 0
  masterKeySize : v.masterKeySize = key.length
  isSet : v.volumeMasterKeyIsSet = true

/-- The setters agree on a key: where both accept its size they leave the same volume, which holds
the key and nothing else, and where a setter rejects the key it leaves the volume as it was. -/
structure KeySettersAgree (v : Volume) (key : List UInt8) : Prop where
  same : key.length = 16 ∨ key.length = 32 →
    volumeSetKeys v key = volumeSetKey v key ∧ (volumeSetKeys v key).2 = 1 ∧
      HoldsKey (volumeSetKeys v key).1 key
  setKeyRejects : key.length ≠ 16 ∧ key.length ≠ 32 ∧ key.length ≠ 64 →
    volumeSetKey v key = (v, -1)
  setKeysRejects : key.length ≠ 16 ∧ key.length ≠ 32 → volumeSetKeys v key = (v, -1)

/-- The bytes of a buffer with a shorter string written at its beginning. -/
theorem bytes_write_zero {n : ℕ} (b : Buffer n) {src : List UInt8} (h : src.length ≤ n) :
    (b.write 0 src).bytes = src ++ b.bytes.drop src.length := by
  rw [Buffer.bytes_write, write, List.take_zero, List.nil_append, Nat.sub_zero, Buffer.length_eq,
    List.take_of_length_le h, Nat.zero_add]

theorem volumeSetKey_holdsKey (v : Volume) {key : List UInt8}
    (h : key.length = 16 ∨ key.length = 32 ∨ key.length = 64) :
    HoldsKey (volumeSetKey v key).1 key := by
  rw [volumeSetKey_eq v h]
  refine ⟨?_, rfl, rfl⟩
  rw [bytes_write_zero _ (by omega), Buffer.bytes_zero, List.drop_replicate]

/-- `libluksde_volume_set_keys` leaves the second half of the buffer as it is. -/
theorem volumeSetKeys_eq (v : Volume) {key : List UInt8} (h : key.length = 16 ∨ key.length = 32) :
    ∃ buffer : Buffer 64,
      buffer.bytes = key ++ (List.replicate (32 - key.length) 0 ++ v.masterKey.bytes.drop 32) ∧
      volumeSetKeys v key =
        ({ v with
            masterKey := buffer
            masterKeySize := key.length
            volumeMasterKeyIsSet := true }, 1) := by
  rw [volumeSetKeys, if_neg (by omega)]
  refine ⟨_, ?_, rfl⟩
  rw [bytes_write_zero _ (by omega)]
  rcases h with hshort | hlong
  · have hcleared : (v.masterKey.write 0 (List.replicate 32 0)).bytes =
        List.replicate 32 0 ++ v.masterKey.bytes.drop 32 := by
      rw [bytes_write_zero _ (by rw [List.length_replicate]; decide), List.length_replicate]
    rw [if_pos (by omega), hcleared, List.drop_append_of_le_length
      (by rw [List.length_replicate]; omega), List.drop_replicate]
  · rw [if_neg (by omega), hlong]
    rfl

/-- The key of 16 or 32 bytes is the whole contents of the buffer exactly where the second half of
the buffer was zero before. -/
theorem volumeSetKeys_holdsKey_iff (v : Volume) {key : List UInt8}
    (h : key.length = 16 ∨ key.length = 32) :
    HoldsKey (volumeSetKeys v key).1 key ↔ v.masterKey.ZeroFrom 32 := by
  obtain ⟨buffer, hbytes, heq⟩ := volumeSetKeys_eq v h
  have hsplit : List.replicate (64 - key.length) (0 : UInt8) =
      List.replicate (32 - key.length) 0 ++ List.replicate 32 0 := by
    rw [List.replicate_append_replicate]
    congr 1
    omega
  rw [heq]
  constructor
  · rintro ⟨hkey, -, -⟩
    rw [hbytes, hsplit] at hkey
    exact List.append_cancel_left (List.append_cancel_left hkey)
  · intro hzero
    refine ⟨?_, rfl, rfl⟩
    rw [hbytes, hsplit]
    exact congrArg (fun rest => key ++ (List.replicate (32 - key.length) 0 ++ rest)) hzero

/-- A volume is determined by the key that it holds and by its other fields. -/
theorem volumeSetKeys_eq_volumeSetKey (v : Volume) {key : List UInt8}
    (h : key.length = 16 ∨ key.length = 32) (hholds : HoldsKey (volumeSetKeys v key).1 key) :
    volumeSetKeys v key = volumeSetKey v key := by
  obtain ⟨buffer, -, heq⟩ := volumeSetKeys_eq v h
  have hsetKey : HoldsKey (volumeSetKey v key).1 key := volumeSetKey_holdsKey v (by omega)
  rw [heq] at hholds ⊢
  rw [volumeSetKey_eq v (by omega)] at hsetKey ⊢
  have hbuffer : buffer = (Buffer.zero 64).write 0 key :=
    Buffer.ext (hholds.masterKey.trans hsetKey.masterKey.symm)
  rw [hbuffer]

/-- The setters agree on a volume exactly where the second half of its buffer is zero, if both
accept the key. -/
theorem keySettersAgree_of_volume_iff (v : Volume) (key : List UInt8) :
    KeySettersAgree v key ↔
      (key.length = 16 ∨ key.length = 32 → v.masterKey.ZeroFrom 32) := by
  constructor
  · intro hagree h
    exact (volumeSetKeys_holdsKey_iff v h).1 (hagree.same h).2.2
  · intro hzero
    refine ⟨fun h => ?_, ?_, ?_⟩
    · have hholds := (volumeSetKeys_holdsKey_iff v h).2 (hzero h)
      obtain ⟨buffer, -, heq⟩ := volumeSetKeys_eq v h
      exact ⟨volumeSetKeys_eq_volumeSetKey v h hholds, by rw [heq], hholds⟩
    · intro hsize
      exact volumeSetKey_rejected v (by omega)
    · intro hsize
      exact volumeSetKeys_rejected v (by omega)

/-- **The key setters.**  After any session they agree exactly where the second half of the buffer
is zero; and it is after every session in which no call writes anything else there. -/
theorem keySettersAgree_iff (L : Libraries) (session : List Operation) (key : List UInt8) :
    (KeySettersAgree (volumeAfter L session) key ↔
      (key.length = 16 ∨ key.length = 32 → (volumeAfter L session).masterKey.ZeroFrom 32)) ∧
    (Admitted (step L) (WritesShortKeys L) volumeInitialize session →
      KeySettersAgree (volumeAfter L session) key) := by
  have hiff := keySettersAgree_of_volume_iff (volumeAfter L session) key
  refine ⟨hiff, fun hshort => hiff.2 fun _ => ?_⟩
  exact volumeAfter_zeroFrom hshort

/-- Keys of 16 bytes are set before the volume is opened and behind the close. -/
theorem keySettersAgree_iff_small :
    KeySettersAgree (volumeAfter smallLibraries (smallSession ++ [.close {}, .setKeys smallKey]))
      (List.replicate 32 0x11) := by
  have hshort : Admitted (step smallLibraries) (WritesShortKeys smallLibraries) volumeInitialize
      (smallSession ++ [.close {}, .setKeys smallKey]) := by
    refine ⟨?_, fun hset => ?_, trivial, trivial, trivial⟩
    · intro byte hbyte
      cases hbyte
    · cases hset
  exact (keySettersAgree_iff smallLibraries _ _).2 hshort

/-- A key of 64 bytes is set, and then one of 32 bytes: half of the first one stays behind the
second one, unless the other setter is called. -/
theorem longKey_settersDisagree :
    let v := volumeAfter smallLibraries [.setKey (List.replicate 64 0x2b)]
    let key : List UInt8 := List.replicate 32 0x11
    (volumeSetKeys v key).1.masterKey.bytes = key ++ List.replicate 32 0x2b ∧
      (volumeSetKey v key).1.masterKey.bytes = key ++ List.replicate 32 0 ∧
      ¬ KeySettersAgree v key := by
  intro v key
  have hkeys : (volumeSetKeys v key).1.masterKey.bytes = key ++ List.replicate 32 0x2b := by
    decide +kernel
  have hkey : (volumeSetKey v key).1.masterKey.bytes = key ++ List.replicate 32 0 := by
    decide +kernel
  refine ⟨hkeys, hkey, fun hagree => ?_⟩
  have hsame := (hagree.same (Or.inr rfl)).1
  rw [hsame, hkey] at hkeys
  revert hkeys
  decide

end Libluksde
