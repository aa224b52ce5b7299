import Libluksde.EncryptionContextSpec

/-!
# Sector data

`libluksde_sector_data.c` and `libluksde_sector_data_vector.c`: reading and decrypting one
sector, and the vector that keeps sectors in a cache of libfcache.

The cache may drop an entry at any time.  The model keeps everything that was ever stored,
and the environment of a call says whether libfcache answers and with which of the entries;
an entry is served only for the offset it was stored under, and the call misses otherwise.
-/

namespace Libluksde

open Lib.Bytes

/-- `libluksde_sector_data_vector_t`.  All entries of the cache are stored under file index 0
and the vector's timestamp, so that the offset alone tells them apart. -/
structure SectorDataVector where
  bytesPerSector : ℕ
  dataOffset : ℤ
  /-- The sectors that were stored, each with the offset it was stored under. -/
  cache : List (ℤ × List UInt8)
deriving DecidableEq, Repr

/-- What the surroundings decide during a request for a sector: the answer of the cache, and
which of the calls on the way fail. -/
structure SectorEnvironment where
  /-- The stored entry that the cache looks at. -/
  cacheEntry : Option ℕ := none
  cacheFails : Bool := false
  valueFails : Bool := false
  allocationFails : Bool := false
  readFails : Bool := false
  storeFails : Bool := false

/-- `libluksde_sector_data_vector_initialize`; `fails` says whether an allocation, the
timestamp or the cache fails. -/
def sectorDataVectorInitialize (fails : Bool) (bytesPerSector : ℕ) (dataOffset : ℤ) :
    Option SectorDataVector :=
  if dataOffset < 0 then none
  else if bytesPerSector = 0 then none
  else if fails then none
  else some ⟨bytesPerSector, dataOffset, []⟩

variable (L : Libraries)

/-- `libbfio_handle_read_buffer_at_offset` on a handle that may be `NULL`, where `fails` says
whether the input fails. -/
def readBufferAtOffset (fails : Bool) (file : Option FileIoHandle) (size : ℕ) (offset : ℤ) :
    Option (List UInt8) :=
  if fails then none else file.bind fun file => file.readBufferAtOffset size offset

/-- `libluksde_sector_data_read_file_io_handle`: the decrypted data and the context after the
call, or `none` for -1. -/
def sectorDataReadFileIoHandle (readFails : Bool) (dataSize : ℕ) (file : Option FileIoHandle)
    (fileOffset : ℤ) (context : Option EncryptionContext) (sectorNumber : UInt64) :
    Option (List UInt8 × EncryptionContext) :=
  match readBufferAtOffset readFails file dataSize fileOffset with
  | none => none
  | some encryptedData =>
    if encryptedData.length ≠ dataSize then none
    else
      context.bind fun context =>
        encryptionContextCrypt L context .decrypt encryptedData dataSize sectorNumber

/-- `libfcache_cache_get_value_by_identifier`: the value of the entry that the cache looks
at, if it was stored under the offset. -/
def SectorDataVector.cached (vector : SectorDataVector) (entry : Option ℕ) (offset : ℤ) :
    Option (List UInt8) :=
  match entry.bind fun i => vector.cache[i]? with
  | some (storedOffset, data) => if storedOffset = offset then some data else none
  | none => none

/-- `libluksde_sector_data_vector_get_sector_data_at_offset`: the data of the sector (`none`
for -1), the vector, and the encryption context after the call. -/
def sectorDataVectorGetSectorDataAtOffset (env : SectorEnvironment) (vector : SectorDataVector)
    (file : Option FileIoHandle) (context : Option EncryptionContext) (offset : ℤ) :
    Option (List UInt8) × SectorDataVector × Option EncryptionContext :=
  if env.cacheFails then (none, vector, context)
  else
    match vector.cached env.cacheEntry offset with
    | some data => if env.valueFails then (none, vector, context) else (some data, vector, context)
    | none =>
      if vector.bytesPerSector > memoryMaximumAllocationSize ∨ env.allocationFails then
        (none, vector, context)
      else
        let sectorDataOffset := off64 (vector.dataOffset + offset)
        let sectorNumber := UInt64.ofNat (size64 offset / vector.bytesPerSector)
        match sectorDataReadFileIoHandle L env.readFails vector.bytesPerSector file
          sectorDataOffset context sectorNumber with
        | none => (none, vector, context)
        | some (data, context) =>
          if env.storeFails then (none, vector, some context)
          else (some data, { vector with cache := (offset, data) :: vector.cache }, some context)

end Libluksde
