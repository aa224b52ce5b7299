import Libluksde.SessionInvariant
import Libluksde.UnlockInputs

/-!
# Volumes that answer alike

What a volume answers does not depend on all of its fields.  The buffer of the master key is
only looked at where it is flagged as set, and the sizes of a closed volume are set by the next
open.  Two volumes that agree on all other fields answer every call but an open in the same way,
and still agree behind it.
-/

namespace Libluksde

open Lib.Bytes Lib.Machine

variable {L : Libraries}

/-! ## Volumes that give the same answers -/

/-- Two volumes that agree but for the master key, its size and flag, and the variables of the
file. -/
def AlikeButKey (s t : Volume) : Prop :=
  t = { s with
    masterKey := t.masterKey
    masterKeySize := t.masterKeySize
    volumeMasterKeyIsSet := t.volumeMasterKeyIsSet
    ioHandle := t.ioHandle }

/-- What the two volumes have to agree on once they are open: the sizes, the place of the data,
the flag of the master key and, where it is set, the master key. -/
structure SameOpened (s t : Volume) : Prop where
  isSet : t.volumeMasterKeyIsSet = s.volumeMasterKeyIsSet
  masterKeySize : t.masterKeySize = s.masterKeySize
  ioHandle : t.ioHandle = { s.ioHandle with abort := t.ioHandle.abort }
  masterKey : s.volumeMasterKeyIsSet = true →
    t.masterKey.bytes.take s.masterKeySize = s.masterKey.bytes.take s.masterKeySize

/-- Two volumes that answer all calls but an open alike. -/
structure Alike (s t : Volume) : Prop where
  frame : AlikeButKey s t
  opened : s.fileIoHandle ≠ none → SameOpened s t

/-- Volumes that agree field by field. -/
theorem AlikeButKey.of_eq {s t : Volume} (h₁ : t.volumeHeader = s.volumeHeader)
    (h₂ : t.userPassword = s.userPassword) (h₃ : t.userPasswordSize = s.userPasswordSize)
    (h₄ : t.userPasswordIsSet = s.userPasswordIsSet)
    (h₅ : t.encryptionContext = s.encryptionContext) (h₆ : t.currentOffset = s.currentOffset)
    (h₇ : t.sectorDataVector = s.sectorDataVector) (h₈ : t.fileIoHandle = s.fileIoHandle)
    (h₉ : t.fileIoHandleOpenedInLibrary = s.fileIoHandleOpenedInLibrary)
    (h₁₀ : t.isLocked = s.isLocked) : AlikeButKey s t := by
  cases s
  cases t
  simp_all [AlikeButKey]

/-- Volumes that agree on what an attempt to unlock reads. -/
theorem AlikeButKey.sameInputs {s t : Volume} (h : AlikeButKey s t) (hopened : SameOpened s t) :
    SameInputs s t := by
  refine ⟨?_, ?_, hopened.masterKeySize, hopened.isSet, hopened.masterKey, ?_, ?_, ?_⟩
  · rw [hopened.ioHandle]
  · rw [h]
  · rw [h]
  · rw [h]
    rfl
  · rw [h]

/-- What two attempts to unlock leave is alike. -/
theorem internalVolumeUnlock_alike (env : KeysEnvironment) (file : Option FileIoHandle)
    {s t : Volume} (h : AlikeButKey s t) (hopened : SameOpened s t)
    (hcontext : s.encryptionContext = none) :
    (internalVolumeUnlock L env t file).2 = (internalVolumeUnlock L env s file).2 ∧
      AlikeButKey (internalVolumeUnlock L env s file).1 (internalVolumeUnlock L env t file).1 ∧
      SameOpened (internalVolumeUnlock L env s file).1 (internalVolumeUnlock L env t file).1 := by
  obtain ⟨hresult, hsame⟩ := internalVolumeUnlock_same (L := L) env file (h.sameInputs hopened)
  have hcontext' : t.encryptionContext = none := by
    rw [h]
    exact hcontext
  generalize hus : internalVolumeUnlock L env s file = r at hresult hsame ⊢
  generalize hut : internalVolumeUnlock L env t file = r' at hresult hsame ⊢
  obtain ⟨s', result⟩ := r
  obtain ⟨t', result'⟩ := r'
  simp only at hresult hsame ⊢
  subst hresult
  have hs := internalVolumeUnlock_step env file hcontext hus
  have ht := internalVolumeUnlock_step env file hcontext' hut
  have hfs := hs.frame
  have hft := ht.frame
  have hlocked : t'.isLocked = s'.isLocked := by
    by_cases hone : result' = 1
    · rw [(ht.unlocked hone).2, (hs.unlocked hone).2]
    · rw [(ht.locked hone).2, (hs.locked hone).2, h]
  refine ⟨rfl, .of_eq hsame.volumeHeader ?_ ?_ ?_ hsame.encryptionContext ?_ ?_ ?_ ?_ hlocked,
    hsame.isSet, hsame.masterKeySize, ?_, hsame.masterKey⟩
  all_goals
    rw [hft, hfs]
    simp only
  · rw [h]
  · rw [h]
  · rw [h]
  · rw [h]
  · rw [h]
  · rw [h]
  · rw [h]
  · exact hopened.ioHandle

/-! ## The calls that do not open a file -/

/-- The calls that do not open a file. -/
def Operation.IsNotOpen : Operation → Prop
  | .openFileIoHandle _ _ _ => False
  | _ => True

/-- The answers of a call on two volumes are the same, and the volumes stay alike. -/
def AnswersAlike (r r' : Volume × Answer) : Prop := r'.2 = r.2 ∧ Alike r.1 r'.1

theorem volumeUnlock_alike (env : KeysEnvironment) {s t : Volume} (hs : Wellformed L s)
    (h : Alike s t) : AnswersAlike (step L (.unlock env) s) (step L (.unlock env) t) := by
  have hlocked : t.isLocked = s.isLocked := by rw [h.frame]
  have hfile : t.fileIoHandle = s.fileIoHandle := by rw [h.frame]
  have hheader : t.volumeHeader = s.volumeHeader := by rw [h.frame]
  simp only [step, volumeUnlock, hlocked, hfile]
  by_cases hlock : s.isLocked = true
  · rw [if_pos hlock, if_pos hlock]
    by_cases hopen : s.fileIoHandle = none
    · -- without an open file there is no header
      have hnone := (hs.closed hopen).volumeHeader
      have hunlock : ∀ {v : Volume} (_ : v.volumeHeader = none),
          internalVolumeUnlock L env v s.fileIoHandle = (v, -1) := fun hv => by
        rw [internalVolumeUnlock, internalVolumeOpenReadKeys_noHeader env _ (Or.inr hv)]
        rfl
      rw [hunlock hnone, hunlock (hheader.trans hnone)]
      exact ⟨rfl, h⟩
    · have hcontext : s.encryptionContext = none := by
        by_contra hne
        exact absurd (hs.unlocked hne) (by simp [hlock])
      obtain ⟨hresult, hframe, hopened⟩ := internalVolumeUnlock_alike (L := L) env s.fileIoHandle
        h.frame (h.opened hopen) hcontext
      exact ⟨congrArg Answer.of hresult, hframe, fun _ => hopened⟩
  · rw [if_neg hlock, if_neg hlock]
    exact ⟨rfl, h⟩

/-- A volume with another buffer for the master key and another abort flag. -/
def Volume.withKey (v : Volume) (masterKey : Buffer 64) (abort : Bool) : Volume :=
  { v with masterKey := masterKey, ioHandle := { v.ioHandle with abort := abort } }

theorem Alike.eq_withKey {s t : Volume} (h : Alike s t) (hopen : s.fileIoHandle ≠ none) :
    t = s.withKey t.masterKey t.ioHandle.abort := by
  have hopened := h.opened hopen
  calc t = { s with
        masterKey := t.masterKey, masterKeySize := t.masterKeySize,
        volumeMasterKeyIsSet := t.volumeMasterKeyIsSet, ioHandle := t.ioHandle } := h.frame
    _ = s.withKey t.masterKey t.ioHandle.abort := by
        rw [hopened.isSet, hopened.masterKeySize, hopened.ioHandle]
        rfl

theorem Alike.withKey {s : Volume} {masterKey : Buffer 64} (abort : Bool)
    (h : s.volumeMasterKeyIsSet = true →
      masterKey.bytes.take s.masterKeySize = s.masterKey.bytes.take s.masterKeySize) :
    Alike s (s.withKey masterKey abort) := ⟨rfl, fun _ => ⟨rfl, rfl, rfl, h⟩⟩

theorem readFromVector_withKey (env : ReadEnvironment) (v : Volume) (vector : SectorDataVector)
    (file : Option FileIoHandle) (size : ℕ) (masterKey : Buffer 64) :
    readFromVector L env { v with masterKey := masterKey } vector file size =
      ({ (readFromVector L env v vector file size).1 with masterKey := masterKey },
        (readFromVector L env v vector file size).2) := by
  simp only [readFromVector, readLoopStart, Volume.clampedSize]
  split
  · rfl
  · split <;> rfl

/-- A read does not look at the master key, and resets the abort flag. -/
theorem internalVolumeReadBufferFromFileIoHandle_withKey (env : ReadEnvironment) (v : Volume)
    (file : Option FileIoHandle) (size : ℕ) (masterKey : Buffer 64) (abort : Bool) :
    ∃ abort', internalVolumeReadBufferFromFileIoHandle L env (v.withKey masterKey abort) file size =
      ((internalVolumeReadBufferFromFileIoHandle L env v file size).1.withKey masterKey abort',
        (internalVolumeReadBufferFromFileIoHandle L env v file size).2) := by
  have hvector : (v.withKey masterKey abort).sectorDataVector = v.sectorDataVector := rfl
  have hlocked : (v.withKey masterKey abort).isLocked = v.isLocked := rfl
  have hoffset : (v.withKey masterKey abort).currentOffset = v.currentOffset := rfl
  simp only [internalVolumeReadBufferFromFileIoHandle, hvector, hlocked, hoffset]
  split
  · exact ⟨abort, rfl⟩
  · split
    · exact ⟨abort, rfl⟩
    · split
      · exact ⟨abort, rfl⟩
      · split
        · exact ⟨abort, rfl⟩
        · exact ⟨_, readFromVector_withKey env
            { v with ioHandle := { v.ioHandle with abort := false } } _ file size masterKey⟩

/-- What a call that can only read leaves of two volumes that are alike. -/
theorem Alike.of_read {s s' : Volume} {masterKey : Buffer 64} (hframe : ReadFrame s s')
    (h : s.volumeMasterKeyIsSet = true →
      masterKey.bytes.take s.masterKeySize = s.masterKey.bytes.take s.masterKeySize)
    (abort : Bool) : Alike s' (s'.withKey masterKey abort) := by
  refine .withKey abort ?_
  rw [hframe.frame]
  exact h

theorem internalVolumeReadBufferFromFileIoHandle_alike (env : ReadEnvironment) {s t : Volume}
    (h : Alike s t) (hopen : s.fileIoHandle ≠ none) (file : Option FileIoHandle) (size : ℕ) :
    (internalVolumeReadBufferFromFileIoHandle L env t file size).2 =
        (internalVolumeReadBufferFromFileIoHandle L env s file size).2 ∧
      Alike (internalVolumeReadBufferFromFileIoHandle L env s file size).1
        (internalVolumeReadBufferFromFileIoHandle L env t file size).1 := by
  have hkey := (h.opened hopen).masterKey
  rw [h.eq_withKey hopen]
  obtain ⟨abort, hread⟩ := internalVolumeReadBufferFromFileIoHandle_withKey (L := L) env s file
    size t.masterKey t.ioHandle.abort
  rw [hread]
  exact ⟨rfl, .of_read (internalVolumeReadBufferFromFileIoHandle_frame env s file size) hkey abort⟩

theorem internalVolumeSeekOffset_withKey (v : Volume) (offset : ℤ) (whence : ℕ)
    (masterKey : Buffer 64) (abort : Bool) :
    internalVolumeSeekOffset (v.withKey masterKey abort) offset whence =
      ((internalVolumeSeekOffset v offset whence).1.withKey masterKey abort,
        (internalVolumeSeekOffset v offset whence).2) := by
  have hlocked : (v.withKey masterKey abort).isLocked = v.isLocked := rfl
  have hoffset : (v.withKey masterKey abort).currentOffset = v.currentOffset := rfl
  have hsize : (v.withKey masterKey abort).ioHandle.encryptedVolumeSize
      = v.ioHandle.encryptedVolumeSize := rfl
  have hset : ∀ o : ℤ, (if o < 0 then (v.withKey masterKey abort, (-1 : ℤ))
      else ({ v.withKey masterKey abort with currentOffset := o }, o)) =
      ((if o < 0 then (v, (-1 : ℤ)) else ({ v with currentOffset := o }, o)).1.withKey
          masterKey abort,
        (if o < 0 then (v, (-1 : ℤ)) else ({ v with currentOffset := o }, o)).2) := by
    intro o
    split
    · rfl
    · rfl
  simp only [internalVolumeSeekOffset, hlocked, hoffset, hsize]
  split
  · rfl
  · split
    · rfl
    · exact hset _

/-- A seek changes the offset only. -/
theorem internalVolumeSeekOffset_frame (v : Volume) (offset : ℤ) (whence : ℕ) :
    ReadFrame v (internalVolumeSeekOffset v offset whence).1 := by
  have hset : ∀ o : ℤ, ReadFrame v
      (if o < 0 then (v, (-1 : ℤ)) else ({ v with currentOffset := o }, o)).1 := by
    intro o
    split
    · exact .refl v
    · exact ⟨rfl, Or.inr ⟨rfl, rfl⟩⟩
  unfold internalVolumeSeekOffset
  split
  · exact .refl v
  · split
    · exact .refl v
    · exact hset _

theorem internalVolumeSeekOffset_alike {s t : Volume} (h : Alike s t)
    (hopen : s.fileIoHandle ≠ none) (offset : ℤ) (whence : ℕ) :
    (internalVolumeSeekOffset t offset whence).2 = (internalVolumeSeekOffset s offset whence).2 ∧
      Alike (internalVolumeSeekOffset s offset whence).1
        (internalVolumeSeekOffset t offset whence).1 := by
  have hkey := (h.opened hopen).masterKey
  rw [h.eq_withKey hopen, internalVolumeSeekOffset_withKey]
  exact ⟨rfl, .of_read (internalVolumeSeekOffset_frame s offset whence) hkey _⟩

theorem setPassword_alike (env : PasswordEnvironment) (stream : Option (List UInt8))
    {s t : Volume} (h : Alike s t) :
    (setPassword env t stream).2 = (setPassword env s stream).2 ∧
      Alike (setPassword env s stream).1 (setPassword env t stream).1 := by
  obtain ⟨password, size, isSet, result, heq⟩ := setPassword_eq env stream
  have hframe : AlikeButKey (setPassword env s stream).1 (setPassword env t stream).1 := by
    have hset : t.userPasswordIsSet = s.userPasswordIsSet := by rw [h.frame]
    rw [heq, heq, hset, h.frame]
    rfl
  rw [heq, heq] at hframe ⊢
  exact ⟨rfl, hframe, fun hopen =>
    ⟨(h.opened hopen).1, (h.opened hopen).2, (h.opened hopen).3, (h.opened hopen).4⟩⟩

theorem volumeSetKey_alike (key : List UInt8) {s t : Volume} (h : Alike s t) :
    (volumeSetKey t key).2 = (volumeSetKey s key).2 ∧
      Alike (volumeSetKey s key).1 (volumeSetKey t key).1 := by
  unfold volumeSetKey
  split
  · exact ⟨rfl, h⟩
  · refine ⟨rfl, ?_, fun hopen => ⟨rfl, rfl, (h.opened hopen).3, fun _ => rfl⟩⟩
    rw [h.frame]
    rfl

theorem volumeSetKeys_alike (key : List UInt8) {s t : Volume} (h : Alike s t) :
    (volumeSetKeys t key).2 = (volumeSetKeys s key).2 ∧
      Alike (volumeSetKeys s key).1 (volumeSetKeys t key).1 := by
  unfold volumeSetKeys
  split
  · exact ⟨rfl, h⟩
  · rename_i hlength
    refine ⟨rfl, ?_, fun hopen => ⟨rfl, rfl, (h.opened hopen).3, fun _ => ?_⟩⟩
    · rw [h.frame]
      rfl
    · have htake : ∀ buffer : Buffer 64, (buffer.write 0 key).bytes.take key.length = key :=
        fun buffer => buffer.take_write (by omega)
      simp only [htake]

theorem volumeClose_alike (env : CloseEnvironment) {s t : Volume} (h : Alike s t) :
    (volumeClose env t).2 = (volumeClose env s).2 ∧
      Alike (volumeClose env s).1 (volumeClose env t).1 := by
  have hfile : t.fileIoHandle = s.fileIoHandle := by rw [h.frame]
  unfold volumeClose
  cases hs : s.fileIoHandle with
  | none =>
    rw [hfile, hs]
    exact ⟨rfl, h⟩
  | some file =>
    rw [hfile, hs]
    refine ⟨?_, ?_, fun hopen => absurd rfl hopen⟩
    · rw [h.frame]
    · rw [h.frame]
      rfl

/-- Volumes that are alike answer every call but an open alike. -/
theorem step_alike {operation : Operation} (hnot : operation.IsNotOpen) {s t : Volume}
    (hs : Wellformed L s) (h : Alike s t) :
    (step L operation t).2 = (step L operation s).2 ∧
      Alike (step L operation s).1 (step L operation t).1 := by
  have hfile : t.fileIoHandle = s.fileIoHandle := by rw [h.frame]
  cases operation with
  | openFileIoHandle => exact hnot.elim
  | unlock env => exact volumeUnlock_alike env hs h
  | setKey masterKey =>
    obtain ⟨hresult, halike⟩ := volumeSetKey_alike masterKey h
    exact ⟨congrArg Answer.of hresult, halike⟩
  | setKeys masterKey =>
    obtain ⟨hresult, halike⟩ := volumeSetKeys_alike masterKey h
    exact ⟨congrArg Answer.of hresult, halike⟩
  | setUtf8Password env string =>
    obtain ⟨hresult, halike⟩ := setPassword_alike env (L.byteStreamFromUtf8 string) h
    exact ⟨congrArg Answer.of hresult, halike⟩
  | setUtf16Password env string =>
    obtain ⟨hresult, halike⟩ := setPassword_alike env (L.byteStreamFromUtf16 string) h
    exact ⟨congrArg Answer.of hresult, halike⟩
  | isLocked =>
    refine ⟨?_, h⟩
    simp only [step, volumeIsLocked]
    rw [h.frame]
  | signalAbort =>
    refine ⟨rfl, ?_, fun hopen =>
      ⟨(h.opened hopen).1, (h.opened hopen).2, ?_, (h.opened hopen).4⟩⟩
    · simp only [step, volumeSignalAbort, Prod.map]
      rw [h.frame]
      rfl
    · simp only [step, volumeSignalAbort, Prod.map]
      rw [(h.opened hopen).ioHandle]
      rfl
  | close env =>
    obtain ⟨hresult, halike⟩ := volumeClose_alike env h
    exact ⟨congrArg Answer.of hresult, halike⟩
  | seekOffset offset whence =>
    simp only [step, volumeSeekOffset, hfile]
    split
    · exact ⟨rfl, h⟩
    · rename_i file hopen
      obtain ⟨hresult, halike⟩ :=
        internalVolumeSeekOffset_alike h (by simp [hopen]) offset.1 whence
      exact ⟨congrArg Answer.of hresult, halike⟩
  | readBuffer env bufferSize =>
    simp only [step, volumeReadBuffer, hfile]
    split
    · exact ⟨rfl, h⟩
    · rename_i file hopen
      obtain ⟨hresult, halike⟩ := internalVolumeReadBufferFromFileIoHandle_alike (L := L) env h
        (by simp [hopen]) (some file) bufferSize
      exact ⟨congrArg ReadResult.answer hresult, halike⟩
  | readBufferAtOffset env bufferSize offset =>
    simp only [step, volumeReadBufferAtOffset, hfile]
    split
    · exact ⟨rfl, h⟩
    · rename_i file hopen
      obtain ⟨hseek, halike⟩ :=
        internalVolumeSeekOffset_alike h (by simp [hopen]) offset.1 seekSet
      have hopen' : (internalVolumeSeekOffset s offset.1 seekSet).1.fileIoHandle ≠ none := by
        rw [(internalVolumeSeekOffset_frame s offset.1 seekSet).frame]
        simp [hopen]
      generalize internalVolumeSeekOffset s offset.1 seekSet = r at hseek halike hopen' ⊢
      generalize internalVolumeSeekOffset t offset.1 seekSet = r' at hseek halike ⊢
      obtain ⟨s', result⟩ := r
      obtain ⟨t', result'⟩ := r'
      simp only at hseek halike hopen' ⊢
      subst hseek
      split
      · exact ⟨rfl, halike⟩
      · obtain ⟨hresult, halike'⟩ := internalVolumeReadBufferFromFileIoHandle_alike (L := L) env
          halike hopen' (some file) bufferSize
        exact ⟨congrArg ReadResult.answer hresult, halike'⟩

end Libluksde
