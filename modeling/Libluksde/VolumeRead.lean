import Libluksde.Volume

/-!
# Reading

`libluksde_internal_volume_read_buffer_from_file_io_handle` and its callers.
-/

namespace Libluksde

open Lib.Bytes

/-- What the surroundings decide during a read: the requests for sectors, and in which rounds
another thread signals an abort. -/
structure ReadEnvironment where
  sector : ℕ → SectorEnvironment := fun _ => {}
  abort : ℕ → Bool := fun _ => false

/-- The variables of the read loop. -/
structure ReadLoop where
  vector : SectorDataVector
  context : Option EncryptionContext
  /-- The bytes written to the buffer, `buffer_offset` many. -/
  output : List UInt8
  remainingBufferSize : ℕ
  sectorFileOffset : ℤ
  sectorDataOffset : ℕ
  abort : Bool
deriving DecidableEq

/-- What a read answers: the number of bytes or -1, and the bytes written to the buffer. -/
structure ReadResult where
  count : ℤ
  data : List UInt8
deriving DecidableEq, Repr

/-- A read that fails. -/
def ReadResult.failed : ReadResult := ⟨-1, []⟩

/-- `read_size`: what is left of the sector, but not more than is left of the buffer. -/
def ReadLoop.readSize (s : ReadLoop) (bytesPerSector : ℕ) : ℕ :=
  let readSize := bytesPerSector - s.sectorDataOffset
  if readSize > s.remainingBufferSize then s.remainingBufferSize else readSize

/-- The variables at the end of a round that got the data of a sector. -/
def ReadLoop.fill (s : ReadLoop) (readSize : ℕ) (data : List UInt8) (vector : SectorDataVector)
    (context : Option EncryptionContext) (abort : Bool) : ReadLoop where
  vector := vector
  context := context
  output := s.output ++ slice s.sectorDataOffset readSize data
  remainingBufferSize := s.remainingBufferSize - readSize
  sectorFileOffset := off64 (s.sectorFileOffset + readSize)
  sectorDataOffset := 0
  abort := abort

variable (L : Libraries)

/-- The read loop, where `k` counts the rounds; the outcome says whether the loop ended
without an error.  Every round fills part of the buffer, so that the size of the buffer bounds
the number of rounds. -/
def readLoop (env : ReadEnvironment) (file : Option FileIoHandle) (bytesPerSector : ℕ) :
    ℕ → (k : ℕ) → ReadLoop → ReadLoop × Bool
  | 0, _, s => (s, true)
  | fuel + 1, k, s =>
    if s.remainingBufferSize = 0 ∨ s.readSize bytesPerSector = 0 then (s, true)
    else
      match sectorDataVectorGetSectorDataAtOffset L (env.sector k) s.vector file s.context
        s.sectorFileOffset with
      | (none, vector, context) => ({ s with vector := vector, context := context }, false)
      | (some data, vector, context) =>
        let s := s.fill (s.readSize bytesPerSector) data vector context (env.abort k)
        if s.abort then (s, true) else readLoop env file bytesPerSector fuel (k + 1) s

/-- The volume after the read loop. -/
def Volume.afterRead (volume : Volume) (s : ReadLoop) : Volume :=
  { volume with
    sectorDataVector := some s.vector
    encryptionContext := s.context
    ioHandle := { volume.ioHandle with abort := s.abort } }

/-- The variables at the beginning of the read loop, for a buffer of which `size` bytes are to
be filled. -/
def readLoopStart (volume : Volume) (vector : SectorDataVector) (size : ℕ) : ReadLoop :=
  let sectorFileOffset :=
    volume.currentOffset / volume.ioHandle.bytesPerSector * volume.ioHandle.bytesPerSector
  { vector := vector
    context := volume.encryptionContext
    output := []
    remainingBufferSize := size
    sectorFileOffset := sectorFileOffset
    sectorDataOffset := (volume.currentOffset - sectorFileOffset).toNat
    abort := false }

/-- `buffer_size` cut to what is left of the volume. -/
def Volume.clampedSize (volume : Volume) (bufferSize : ℕ) : ℕ :=
  let left := volume.ioHandle.encryptedVolumeSize - size64 volume.currentOffset
  if bufferSize > left then left else bufferSize

/-- `libluksde_internal_volume_read_buffer_from_file_io_handle` behind its checks and the reset
of the abort flag. -/
def readFromVector (env : ReadEnvironment) (volume : Volume) (vector : SectorDataVector)
    (file : Option FileIoHandle) (bufferSize : ℕ) : Volume × ReadResult :=
  if size64 volume.currentOffset ≥ volume.ioHandle.encryptedVolumeSize then (volume, ⟨0, []⟩)
  else
    let bufferSize := volume.clampedSize bufferSize
    match readLoop L env file volume.ioHandle.bytesPerSector bufferSize 0
      (readLoopStart volume vector bufferSize) with
    | (s, false) => (volume.afterRead s, .failed)
    | (s, true) =>
      ({ volume.afterRead s with
          currentOffset := off64 (volume.currentOffset + s.output.length) },
        ⟨s.output.length, s.output⟩)

/-- `libluksde_internal_volume_read_buffer_from_file_io_handle` -/
def internalVolumeReadBufferFromFileIoHandle (env : ReadEnvironment) (volume : Volume)
    (file : Option FileIoHandle) (bufferSize : ℕ) : Volume × ReadResult :=
  if volume.isLocked then (volume, .failed)
  else
    match volume.sectorDataVector with
    | none => (volume, .failed)
    | some vector =>
      if volume.currentOffset < 0 then (volume, .failed)
      else if bufferSize > ssizeMax then (volume, .failed)
      else
        readFromVector L env { volume with ioHandle := { volume.ioHandle with abort := false } }
          vector file bufferSize

/-- `libluksde_volume_read_buffer` -/
def volumeReadBuffer (env : ReadEnvironment) (volume : Volume) (bufferSize : ℕ) :
    Volume × ReadResult :=
  match volume.fileIoHandle with
  | none => (volume, .failed)
  | some file => internalVolumeReadBufferFromFileIoHandle L env volume (some file) bufferSize

/-- `libluksde_volume_read_buffer_at_offset` -/
def volumeReadBufferAtOffset (env : ReadEnvironment) (volume : Volume) (bufferSize : ℕ)
    (offset : ℤ) : Volume × ReadResult :=
  match volume.fileIoHandle with
  | none => (volume, .failed)
  | some file =>
    match internalVolumeSeekOffset volume offset seekSet with
    | (volume, result) =>
      if result = -1 then (volume, .failed)
      else internalVolumeReadBufferFromFileIoHandle L env volume (some file) bufferSize

end Libluksde
