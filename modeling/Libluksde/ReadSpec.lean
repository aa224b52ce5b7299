import Libluksde.VolumeRead

/-!
# What a read does

The frame of a read: which fields of the volume it can change, and that it neither creates nor
frees the encryption context or the sector data vector.
-/

namespace Libluksde

open Lib.Bytes

variable {L : Libraries}

/-- Two contexts with the same keys; the state of the RC4 decryption may differ. -/
def SameKeys (c c' : EncryptionContext) : Prop :=
  c' = { c with rc4DecryptionContext := c'.rc4DecryptionContext }

theorem SameKeys.refl (c : EncryptionContext) : SameKeys c c := rfl

theorem SameKeys.trans {c c' c'' : EncryptionContext} (h : SameKeys c c') (h' : SameKeys c' c'') :
    SameKeys c c'' := by
  unfold SameKeys at *
  rw [h', h]

theorem SameKeys.isRc4 {c c' : EncryptionContext} (h : SameKeys c c') : c'.IsRc4 ↔ c.IsRc4 := by
  rw [h]
  rfl

/-- A decryption leaves the keys of the context as they are. -/
theorem encryptionContextCrypt_sameKeys {c c' : EncryptionContext} {input output : List UInt8}
    {size : ℕ} {sectorNumber : UInt64}
    (h : encryptionContextCrypt L c .decrypt input size sectorNumber = some (output, c')) :
    SameKeys c c' := by
  simp only [encryptionContextCrypt, Option.bind_eq_some_iff, Option.map_eq_some_iff,
    Prod.mk.injEq] at h
  obtain ⟨call, -, ⟨o, state⟩, -, -, rfl⟩ := h
  cases state <;> rfl

/-- The contexts before and after reads: both `NULL`, or with the same keys, and unchanged
unless the mode is one of RC4. -/
def ContextAfterReads : Option EncryptionContext → Option EncryptionContext → Prop
  | none, none => True
  | some c, some c' => SameKeys c c' ∧ (¬ c.IsRc4 → c' = c)
  | _, _ => False

theorem ContextAfterReads.refl (c : Option EncryptionContext) : ContextAfterReads c c := by
  cases c with
  | none => trivial
  | some c => exact ⟨.refl c, fun _ => rfl⟩

theorem ContextAfterReads.trans {c c' c'' : Option EncryptionContext}
    (h : ContextAfterReads c c') (h' : ContextAfterReads c' c'') : ContextAfterReads c c'' := by
  cases c <;> cases c' <;> cases c'' <;> try exact h.elim
  · trivial
  · exact h'.elim
  · exact h'.elim
  · refine ⟨h.1.trans h'.1, fun hc => ?_⟩
    rw [h'.2 (fun hr => hc (h.1.isRc4.1 hr)), h.2 hc]

theorem ContextAfterReads.eq_none_iff {c c' : Option EncryptionContext}
    (h : ContextAfterReads c c') : c' = none ↔ c = none := by
  cases c <;> cases c' <;> first | exact h.elim | simp

theorem sectorDataReadFileIoHandle_context {readFails : Bool} {size : ℕ}
    {file : Option FileIoHandle} {offset : ℤ} {c : Option EncryptionContext} {number : UInt64}
    {data : List UInt8} {c' : EncryptionContext}
    (h : sectorDataReadFileIoHandle L readFails size file offset c number = some (data, c')) :
    ContextAfterReads c (some c') := by
  unfold sectorDataReadFileIoHandle at h
  split at h
  · cases h
  · split_ifs at h
    obtain ⟨c₀, rfl, hcrypt⟩ := Option.bind_eq_some_iff.1 h
    exact ⟨encryptionContextCrypt_sameKeys hcrypt, (encryptionContextCrypt_spec hcrypt).2⟩

/-- What a request for a sector leaves: the vector is on the same data, and without a context
nothing is stored. -/
structure RequestFrame (v v' : SectorDataVector) (c c' : Option EncryptionContext) : Prop where
  bytesPerSector : v'.bytesPerSector = v.bytesPerSector
  dataOffset : v'.dataOffset = v.dataOffset
  context : ContextAfterReads c c'
  cache : c = none → v'.cache = v.cache

theorem RequestFrame.refl (v : SectorDataVector) (c : Option EncryptionContext) :
    RequestFrame v v c c := ⟨rfl, rfl, .refl c, fun _ => rfl⟩

theorem RequestFrame.trans {v v' v'' : SectorDataVector} {c c' c'' : Option EncryptionContext}
    (h : RequestFrame v v' c c') (h' : RequestFrame v' v'' c' c'') : RequestFrame v v'' c c'' :=
  ⟨h'.bytesPerSector.trans h.bytesPerSector, h'.dataOffset.trans h.dataOffset,
    h.context.trans h'.context,
    fun hc => (h'.cache (h.context.eq_none_iff.2 hc)).trans (h.cache hc)⟩

theorem sectorDataVectorGetSectorDataAtOffset_frame (env : SectorEnvironment)
    (v : SectorDataVector) (file : Option FileIoHandle) (c : Option EncryptionContext)
    (offset : ℤ) :
    RequestFrame v (sectorDataVectorGetSectorDataAtOffset L env v file c offset).2.1 c
      (sectorDataVectorGetSectorDataAtOffset L env v file c offset).2.2 := by
  unfold sectorDataVectorGetSectorDataAtOffset
  split
  · exact .refl v c
  · split
    · split <;> exact .refl v c
    · split
      · exact .refl v c
      · simp only
        split
        · exact .refl v c
        · rename_i data c' hread
          have hc := sectorDataReadFileIoHandle_context hread
          have hne : c = none → False := fun h => by
            subst h
            exact hc.elim
          split
          · exact ⟨rfl, rfl, hc, fun h => (hne h).elim⟩
          · exact ⟨rfl, rfl, hc, fun h => (hne h).elim⟩

/-- The read loop leaves what a sequence of requests leaves. -/
theorem readLoop_frame {env : ReadEnvironment} {file : Option FileIoHandle}
    {bytesPerSector fuel k : ℕ} {s s' : ReadLoop} {ok : Bool}
    (h : readLoop L env file bytesPerSector fuel k s = (s', ok)) :
    RequestFrame s.vector s'.vector s.context s'.context := by
  induction fuel generalizing k s with
  | zero =>
    cases h
    exact .refl _ _
  | succ fuel ih =>
    have hrequest := sectorDataVectorGetSectorDataAtOffset_frame (L := L) (env.sector k) s.vector
      file s.context s.sectorFileOffset
    rw [readLoop] at h
    split at h
    · cases h
      exact .refl _ _
    · split at h
      · rename_i hget
        rw [hget] at hrequest
        cases h
        exact hrequest
      · rename_i hget
        rw [hget] at hrequest
        simp only at h
        split at h
        · cases h
          exact hrequest
        · exact .trans hrequest (ih h)

/-- The fields that a read can change, and how. -/
structure ReadFrame (v v' : Volume) : Prop where
  frame : v' = { v with
    sectorDataVector := v'.sectorDataVector
    encryptionContext := v'.encryptionContext
    currentOffset := v'.currentOffset
    ioHandle := { v.ioHandle with abort := v'.ioHandle.abort } }
  vector : (∃ w w', v.sectorDataVector = some w ∧ v'.sectorDataVector = some w' ∧
    RequestFrame w w' v.encryptionContext v'.encryptionContext) ∨
    (v'.sectorDataVector = v.sectorDataVector ∧ v'.encryptionContext = v.encryptionContext)

theorem ReadFrame.refl (v : Volume) : ReadFrame v v := ⟨rfl, Or.inr ⟨rfl, rfl⟩⟩

theorem readFromVector_frame (env : ReadEnvironment) (v : Volume) {vector : SectorDataVector}
    (hvector : v.sectorDataVector = some vector) (file : Option FileIoHandle) (size : ℕ) :
    ReadFrame v (readFromVector L env v vector file size).1 := by
  unfold readFromVector
  split
  · exact .refl v
  · simp only
    split
    all_goals
      rename_i s hs
      exact ⟨rfl, Or.inl ⟨vector, s.vector, hvector, rfl, readLoop_frame hs⟩⟩

theorem internalVolumeReadBufferFromFileIoHandle_frame (env : ReadEnvironment) (v : Volume)
    (file : Option FileIoHandle) (size : ℕ) :
    ReadFrame v (internalVolumeReadBufferFromFileIoHandle L env v file size).1 := by
  unfold internalVolumeReadBufferFromFileIoHandle
  split
  · exact .refl v
  · split
    · exact .refl v
    · rename_i vector hvector
      split
      · exact .refl v
      · split
        · exact .refl v
        · have hframe := readFromVector_frame (L := L) env
            { v with ioHandle := { v.ioHandle with abort := false } } hvector file size
          exact ⟨hframe.frame, hframe.vector⟩

/-- A read of an unlocked volume that passes the checks. -/
theorem internalVolumeReadBufferFromFileIoHandle_eq (env : ReadEnvironment) {v : Volume}
    (hlocked : v.isLocked = false) {vector : SectorDataVector}
    (hvector : v.sectorDataVector = some vector) (hoffset : 0 ≤ v.currentOffset) {size : ℕ}
    (hsize : size ≤ ssizeMax) (file : Option FileIoHandle) :
    internalVolumeReadBufferFromFileIoHandle L env v file size =
      readFromVector L env { v with ioHandle := { v.ioHandle with abort := false } } vector file
        size := by
  unfold internalVolumeReadBufferFromFileIoHandle
  rw [if_neg (by simp [hlocked])]
  split
  · rename_i hnone
    rw [hvector] at hnone
    cases hnone
  · rename_i vector' hvector'
    rw [hvector] at hvector'
    cases hvector'
    rw [if_neg (by omega), if_neg (by omega)]

/-- A read at an offset of an unlocked volume is one at the current offset of the volume that was
moved there. -/
theorem volumeReadBufferAtOffset_eq (env : ReadEnvironment) {v : Volume}
    (hlocked : v.isLocked = false) {file : FileIoHandle} (hfile : v.fileIoHandle = some file)
    (size : ℕ) {offset : ℤ} (hoffset : ¬ offset < 0) :
    volumeReadBufferAtOffset L env v size offset =
      internalVolumeReadBufferFromFileIoHandle L env { v with currentOffset := offset }
        (some file) size := by
  have hsucceeds : internalVolumeSeekOffset v offset seekSet =
      ({ v with currentOffset := offset }, offset) := by
    rw [internalVolumeSeekOffset, if_neg (by simp [hlocked]), if_neg (by decide)]
    exact if_neg hoffset
  unfold volumeReadBufferAtOffset
  split
  · rename_i hnone
    rw [hfile] at hnone
    cases hnone
  · rename_i file' hfile'
    obtain rfl : file' = file := Option.some.inj (hfile'.symm.trans hfile)
    simp only [hsucceeds]
    rw [if_neg (by omega)]

end Libluksde
