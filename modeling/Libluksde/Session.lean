import Libluksde.VolumeOpen
import Libluksde.VolumeRead
import Libluksde.HeaderRoundTrip
import Libluksde.Lib.Machine

/-!
# Sessions

A session is a sequence of calls to one volume object.  Each call comes with its arguments and
with what the surroundings decide during it, so that all properties of sessions hold whatever
fails on the way.
-/

namespace Libluksde

open Lib.Bytes Lib.Machine

/-- A call to the volume. -/
inductive Operation
  | setKey (masterKey : List UInt8)
  | setKeys (masterKey : List UInt8)
  | setUtf8Password (env : PasswordEnvironment) (string : List UInt8)
  | setUtf16Password (env : PasswordEnvironment) (string : List UInt16)
  | openFileIoHandle (env : OpenEnvironment) (file : FileIoHandle) (accessFlags : ℕ)
  | unlock (env : KeysEnvironment)
  | isLocked
  | seekOffset (offset : Off64) (whence : ℕ)
  | readBuffer (env : ReadEnvironment) (bufferSize : ℕ)
  | readBufferAtOffset (env : ReadEnvironment) (bufferSize : ℕ) (offset : Off64)
  | signalAbort
  | close (env : CloseEnvironment)

/-- What a call answers: its return value, and the data it wrote to a buffer. -/
structure Answer where
  value : ℤ
  data : List UInt8
deriving DecidableEq, Repr

/-- The answer of a call that only returns a value. -/
def Answer.of (value : ℤ) : Answer := ⟨value, []⟩

/-- The answer of a read. -/
def ReadResult.answer (result : ReadResult) : Answer := ⟨result.count, result.data⟩

variable (L : Libraries)

/-- One call. -/
def step : Operation → Volume → Volume × Answer
  | .setKey masterKey, volume => (volumeSetKey volume masterKey).map id .of
  | .setKeys masterKey, volume => (volumeSetKeys volume masterKey).map id .of
  | .setUtf8Password env string, volume =>
    (volumeSetUtf8Password L env volume string).map id .of
  | .setUtf16Password env string, volume =>
    (volumeSetUtf16Password L env volume string).map id .of
  | .openFileIoHandle env file accessFlags, volume =>
    let result := volumeOpenFileIoHandle L env volume file accessFlags
    (result.1, .of result.2.2)
  | .unlock env, volume => (volumeUnlock L env volume).map id .of
  | .isLocked, volume => (volume, .of (volumeIsLocked volume))
  | .seekOffset offset whence, volume => (volumeSeekOffset volume offset.1 whence).map id .of
  | .readBuffer env bufferSize, volume =>
    (volumeReadBuffer L env volume bufferSize).map id ReadResult.answer
  | .readBufferAtOffset env bufferSize offset, volume =>
    (volumeReadBufferAtOffset L env volume bufferSize offset.1).map id ReadResult.answer
  | .signalAbort, volume => (volumeSignalAbort volume).map id .of
  | .close env, volume => (volumeClose env volume).map id .of

/-- The volume after a session on a new volume object. -/
def volumeAfter (session : List Operation) : Volume :=
  stateAfter (step L) volumeInitialize session

/-! ## A small volume

An image of two sectors of data in AES-128 and SHA-1, with the values that AES and HMAC have on
it, for runs on a concrete input.
-/

/-- The master key of the small volume. -/
def smallKey : List UInt8 := List.replicate 16 0x2b

/-- The salt of the small volume. -/
def smallSalt : Buffer 32 := .ofBytes 32 (List.replicate 32 0x5a)

/-- The digest of the master key of the small volume, for one iteration. -/
def smallHash : Buffer 20 :=
  .ofBytes 20 (toBigEndian 20 0x607e403ccc25e25e124608d505a6fa75d79c194e)

/-- The digest of the key of 16 zero bytes under the same salt, for one iteration. -/
def zeroHash : Buffer 20 :=
  .ofBytes 20 (toBigEndian 20 0xdada988adce6ad16ff7517613a36d1369d6be5d2)

/-- A key slot that is not in use. -/
def inactiveSlot : KeySlotRecord := ⟨0x0000dead, 0, .zero 32, 0, 0⟩

/-- The header of the small volume, without a key slot in use. -/
def smallRecord : HeaderRecord where
  encryptionMethod := .ofBytes 32 (ascii ['a', 'e', 's'])
  encryptionMode := .ofBytes 32 (ascii ['e', 'c', 'b'])
  hashingMethod := .ofBytes 32 (ascii ['s', 'h', 'a', '1'])
  encryptedVolumeStartSector := 8
  masterKeySize := 16
  masterKeyValidationHash := smallHash
  masterKeySalt := smallSalt
  masterKeyNumberOfIterations := 1
  volumeIdentifier := zeroIdentifier
  keySlots := List.replicate 8 inactiveSlot
  length_keySlots := rfl

/-- An open file with a header, and behind its 4096 bytes what follows. -/
def volumeFile (r : HeaderRecord) (rest : List UInt8) (h : rest.length < 2 ^ 62) :
    FileIoHandle where
  image := encodeHeader r ++ List.replicate 3504 0 ++ rest
  isOpen := true
  length_lt := by
    rw [List.length_append, List.length_append, List.length_replicate, length_encodeHeader]
    omega

/-- The encrypted data of the small volume: two sectors of equal blocks. -/
def smallData : List UInt8 := List.replicate 512 0xaa ++ List.replicate 512 0xbb

theorem length_smallData : smallData.length < 2 ^ 62 := by decide +kernel

/-- The file of the small volume. -/
def smallFile : FileIoHandle := volumeFile smallRecord smallData length_smallData

/-- A password for the small volume. -/
def smallPassword : List UInt8 := ascii ['a']

/-- The salt of the key slots for the password. -/
def slotSalt : Buffer 32 := .ofBytes 32 (List.replicate 32 0x01)

/-- The digest from which the user key for the password is taken. -/
def smallUserDigest : List UInt8 := toBigEndian 20 0xf8e36a99d07ae690630075d48794e9f5270c864d

/-- The diffused block of 16 zero bytes. -/
def diffusedBlock : List UInt8 := toBigEndian 16 0x6768033e216468247bd031a0a2d9876d

/-- A key slot for the password, with 32 stripes of 16 bytes in one sector. -/
def passwordSlot (keyMaterialSector : UInt32) : KeySlotRecord :=
  ⟨keySlotActive, 1, slotSalt, keyMaterialSector, 32⟩

/-- A sector whose first block and last block are given, with equal blocks between them. -/
def blocks32 (first between last : List UInt8) : List UInt8 :=
  first ++ (List.replicate 30 between).flatten ++ last

/-- A block of zero bytes, the diffused block, and the diffused block with the master key of the
small volume added, encrypted with the user key. -/
def cipherBlocks : List UInt8 × List UInt8 × List UInt8 :=
  (toBigEndian 16 0x3d5b446490ed3c8332215ac76b8d6935,
    toBigEndian 16 0x3df8f92cae4c9ab0f2069ad4ad1441d9,
    toBigEndian 16 0xc9d953d149bbf01bcda1be65d3ccab86)

/-- The key material that is merged into the master key of the small volume. -/
def smallKeyMaterial : List UInt8 := blocks32 cipherBlocks.1 cipherBlocks.2.1 cipherBlocks.2.2

/-- AES on the blocks of the small volume. -/
def smallAes : List ((KeySchedule × CryptMode × List UInt8) × List UInt8) :=
  [((⟨.decrypt, smallKey⟩, .decrypt, List.replicate 16 0xaa),
      toBigEndian 16 0x580544d7521973fb8732d76f4b234071),
    ((⟨.decrypt, smallKey⟩, .decrypt, List.replicate 16 0xbb),
      toBigEndian 16 0xcba42fc46dba972700a107b3e4414a2a),
    ((⟨.decrypt, smallUserDigest.take 16⟩, .decrypt, cipherBlocks.1), List.replicate 16 0),
    ((⟨.decrypt, smallUserDigest.take 16⟩, .decrypt, cipherBlocks.2.1), diffusedBlock),
    ((⟨.decrypt, smallUserDigest.take 16⟩, .decrypt, cipherBlocks.2.2),
      xor diffusedBlock smallKey)]

/-- SHA-1 of the block that is diffused. -/
def smallDigests : List ((HashingMethod × List UInt8) × List UInt8) :=
  [((.sha1, List.replicate 20 0), toBigEndian 20 0x6768033e216468247bd031a0a2d9876d79818f8f)]

/-- SHA-1 on the blocks that are diffused one after the other, from the block before and the
digests that follow. -/
def diffusedDigests (stripe : List UInt8) : (block : List UInt8) → (digests : List ℕ) →
    List ((HashingMethod × List UInt8) × List UInt8)
  | _, [] => []
  | block, digest :: digests =>
    ((.sha1, List.replicate 4 0 ++ xor block stripe), toBigEndian 20 digest) ::
      diffusedDigests stripe ((toBigEndian 20 digest).take 16) digests

/-- HMAC on the keys and the password of the small volume. -/
def smallHmacs : List ((HashingMethod × List UInt8 × List UInt8) × List UInt8) :=
  [((.sha1, smallKey, smallSalt.bytes ++ [0, 0, 0, 1]), smallHash.bytes),
    ((.sha1, List.replicate 16 0, smallSalt.bytes ++ [0, 0, 0, 1]), zeroHash.bytes),
    ((.sha1, smallPassword, slotSalt.bytes ++ [0, 0, 0, 1]), smallUserDigest)]

/-- AES, SHA-1 and HMAC on the small volume. -/
def smallLibraries : Libraries := .ofTables smallAes smallDigests smallHmacs

/-- The key is set and the small volume is opened. -/
def smallSession : List Operation := [.setKey smallKey, .openFileIoHandle {} smallFile 1]

end Libluksde
