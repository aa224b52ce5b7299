import Libluksde.AlikeVolumes
import Libluksde.LockState

/-!
# Sessions after a close

A close leaves two things behind: the flag of the master key, and the last 32 bytes of the
buffer of the master key.  The next session gives the answers of a new volume where neither of
them is used: where a key is set that replaces the whole buffer, where only the first 32 bytes
are replaced but the others are not looked at, or where no key is set and the one that was left
is not flagged as set or does not validate.
-/

namespace Libluksde

open Lib.Bytes Lib.Machine

variable {L : Libraries}

/-! ## The calls between the close and the open -/

/-- The calls that replace the whole buffer of the master key. -/
def Operation.SetsWholeKey : Operation → Prop
  | .setKey masterKey =>
    masterKey.length = 16 ∨ masterKey.length = 32 ∨ masterKey.length = 64
  | _ => False

/-- The calls that replace the first half of the buffer of the master key. -/
def Operation.SetsHalfKey : Operation → Prop
  | .setKeys masterKey => masterKey.length = 16 ∨ masterKey.length = 32
  | _ => False

instance : DecidablePred Operation.SetsHalfKey := fun operation => by
  cases operation <;> unfold Operation.SetsHalfKey <;> infer_instance

/-- Two volumes with the same flag and the same first `n` bytes of the master key. -/
structure SameKey (n : ℕ) (s t : Volume) : Prop where
  isSet : t.volumeMasterKeyIsSet = s.volumeMasterKeyIsSet
  byte : ∀ j < n, t.masterKey.bytes[j]? = s.masterKey.bytes[j]?

theorem SameKey.take {n : ℕ} {s t : Volume} (h : SameKey n s t) :
    t.masterKey.bytes.take n = s.masterKey.bytes.take n := by
  apply List.ext_getElem?
  intro j
  rw [List.getElem?_take, List.getElem?_take]
  split
  · rename_i hj
    exact h.byte j hj
  · rfl

/-- On a closed volume a call that is no open leaves the master key alone unless it sets one. -/
theorem step_key {operation : Operation} {v : Volume} (hv : Wellformed L v)
    (hclosed : v.fileIoHandle = none) (hnot : operation.IsNotOpen) :
    (step L operation v).1.fileIoHandle = none ∧
      (¬ operation.SetsKey → (step L operation v).1.masterKey = v.masterKey ∧
        (step L operation v).1.volumeMasterKeyIsSet = v.volumeMasterKeyIsSet) := by
  by_cases hquiet : operation.IsQuiet
  · have hframe := step_quiet (L := L) hquiet v
    exact ⟨hframe.fileIoHandle.trans hclosed, fun hno =>
      ⟨(hframe.masterKey hno).1, (hframe.masterKey hno).2.2⟩⟩
  · cases operation with
    | openFileIoHandle => exact hnot.elim
    | unlock env =>
      have hsame : (step L (.unlock env) v).1 = v := by
        simp only [step, volumeUnlock]
        split
        · rw [internalVolumeUnlock, internalVolumeOpenReadKeys_noHeader env _
            (Or.inr (hv.closed hclosed).volumeHeader)]
          rfl
        · rfl
      rw [hsame]
      exact ⟨hclosed, fun _ => ⟨rfl, rfl⟩⟩
    | close env =>
      have hsame : (step L (.close env) v).1 = v := by
        simp only [step, volumeClose, hclosed]
        rfl
      rw [hsame]
      exact ⟨hclosed, fun _ => ⟨rfl, rfl⟩⟩
    | _ => exact (hquiet trivial).elim

/-- What two closed volumes have in common of the master key they keep. -/
theorem step_sameKey {n : ℕ} {operation : Operation} {s t : Volume} (hs : Wellformed L s)
    (ht : Wellformed L t) (hsclosed : s.fileIoHandle = none) (htclosed : t.fileIoHandle = none)
    (hnot : operation.IsNotOpen) (h : SameKey n s t) :
    SameKey n (step L operation s).1 (step L operation t).1 := by
  by_cases hkey : operation.SetsKey
  · cases operation with
    | setKey masterKey =>
      simp only [step, volumeSetKey]
      split
      · exact h
      · exact ⟨rfl, fun _ _ => rfl⟩
    | setKeys masterKey =>
      simp only [step, volumeSetKeys]
      split
      · exact h
      · refine ⟨rfl, fun j hj => ?_⟩
        -- a write changes buffers that agree at a place in the same way
        have hbyte := h.byte j hj
        have hls := s.masterKey.length_eq
        have hlt := t.masterKey.length_eq
        simp only [Prod.map, id_eq, Buffer.bytes_write, getElem?_write]
        split
        · simp only [Buffer.bytes_write, getElem?_write, length_write, hls, hlt, hbyte]
        · simp only [hls, hlt, hbyte]
    | _ => exact hkey.elim
  · obtain ⟨-, hskey⟩ := step_key hs hsclosed hnot
    obtain ⟨-, htkey⟩ := step_key ht htclosed hnot
    refine ⟨?_, ?_⟩
    · rw [(htkey hkey).2, (hskey hkey).2, h.isSet]
    · rw [(htkey hkey).1, (hskey hkey).1]
      exact h.byte

/-- A key that replaces the whole buffer. -/
theorem step_sameKey_whole {operation : Operation} (h : operation.SetsWholeKey) (s t : Volume) :
    SameKey 64 (step L operation s).1 (step L operation t).1 := by
  cases operation with
  | setKey masterKey =>
    simp only [step, volumeSetKey_eq _ h]
    exact ⟨rfl, fun _ _ => rfl⟩
  | _ => exact h.elim

/-- A key that replaces the first half of the buffer. -/
theorem step_sameKey_half {operation : Operation} (h : operation.SetsHalfKey) (s t : Volume) :
    SameKey 32 (step L operation s).1 (step L operation t).1 := by
  cases operation with
  | setKeys masterKey =>
    have hlength : masterKey.length = 16 ∨ masterKey.length = 32 := h
    have hnot : ¬ (masterKey.length ≠ 16 ∧ masterKey.length ≠ 32) := by omega
    simp only [step, volumeSetKeys, if_neg hnot]
    refine ⟨rfl, fun j hj => ?_⟩
    have hls := s.masterKey.length_eq
    have hlt := t.masterKey.length_eq
    simp only [Prod.map, id_eq, Buffer.bytes_write, getElem?_write]
    by_cases hshort : masterKey.length < 32
    · simp only [if_pos hshort, Buffer.bytes_write, getElem?_write, length_write, hls, hlt,
        List.length_replicate]
      split
      · rfl
      · rw [if_pos (by omega), if_pos (by omega)]
    · simp only [if_neg hshort, hls, hlt]
      rw [if_pos (by omega), if_pos (by omega)]
  | _ => exact h.elim

/-- The second half of the buffer is changed only by a key that replaces the whole of it. -/
theorem step_secondHalf {operation : Operation} {v : Volume} (hv : Wellformed L v)
    (hclosed : v.fileIoHandle = none) (hnot : operation.IsNotOpen)
    (hwhole : ¬ operation.SetsWholeKey) {j : ℕ} (hj : 32 ≤ j) :
    (step L operation v).1.masterKey.bytes[j]? = v.masterKey.bytes[j]? := by
  by_cases hkey : operation.SetsKey
  · cases operation with
    | setKey masterKey =>
      simp only [step, volumeSetKey_rejected v hwhole]
      rfl
    | setKeys masterKey =>
      simp only [step, volumeSetKeys]
      split
      · rfl
      · simp only [Prod.map, id_eq, Buffer.bytes_write, getElem?_write]
        rw [if_neg (by omega)]
        split
        · rw [Buffer.bytes_write, getElem?_write, List.length_replicate, if_neg (by omega)]
        · rfl
    | _ => exact hkey.elim
  · rw [((step_key hv hclosed hnot).2 hkey).1]

/-! ## Closed volumes and the calls before the next open -/

/-- Two closed volumes that answer alike. -/
structure BothClosed (L : Libraries) (s t : Volume) : Prop where
  wellformed : Wellformed L s ∧ Wellformed L t
  closed : s.fileIoHandle = none ∧ t.fileIoHandle = none
  frame : AlikeButKey s t

theorem BothClosed.alike {s t : Volume} (h : BothClosed L s t) : Alike s t :=
  ⟨h.frame, fun hopen => absurd h.closed.1 hopen⟩

theorem bothClosed_step {s t : Volume} (h : BothClosed L s t) {operation : Operation}
    (hnot : operation.IsNotOpen) :
    BothClosed L (step L operation s).1 (step L operation t).1 :=
  ⟨⟨step_wellformed operation s h.wellformed.1, step_wellformed operation t h.wellformed.2⟩,
    ⟨(step_key h.wellformed.1 h.closed.1 hnot).1, (step_key h.wellformed.2 h.closed.2 hnot).1⟩,
    (step_alike hnot h.wellformed.1 h.alike).2.frame⟩

/-- A relation between closed volumes that every call but an open keeps. -/
theorem bothClosed_stateAfter {s t : Volume} (h : BothClosed L s t) {R : Volume → Volume → Prop}
    {operations : List Operation} (hnot : ∀ operation ∈ operations, operation.IsNotOpen)
    (hR : ∀ operation ∈ operations, ∀ s t, BothClosed L s t → R s t →
      R (step L operation s).1 (step L operation t).1) (hst : R s t) :
    BothClosed L (stateAfter (step L) s operations) (stateAfter (step L) t operations) ∧
      R (stateAfter (step L) s operations) (stateAfter (step L) t operations) := by
  induction operations generalizing s t with
  | nil => exact ⟨h, hst⟩
  | cons operation operations ih =>
    exact ih (bothClosed_step h (hnot operation List.mem_cons_self))
      (fun o ho => hnot o (List.mem_cons_of_mem _ ho))
      (fun o ho => hR o (List.mem_cons_of_mem _ ho))
      (hR operation List.mem_cons_self s t h hst)

/-- A call that makes the first `n` bytes of the master keys the same. -/
theorem sameKey_of_mem {s t : Volume} (h : BothClosed L s t) {n : ℕ}
    {operations : List Operation} (hnot : ∀ operation ∈ operations, operation.IsNotOpen)
    (hset : ∃ operation ∈ operations, ∀ s t : Volume,
      SameKey n (step L operation s).1 (step L operation t).1) :
    SameKey n (stateAfter (step L) s operations) (stateAfter (step L) t operations) := by
  obtain ⟨operation, hmem, hsame⟩ := hset
  obtain ⟨before, behind, rfl⟩ := List.append_of_mem hmem
  rw [stateAfter_append, stateAfter_append, stateAfter_cons, stateAfter_cons]
  have hclosed := (bothClosed_stateAfter h (R := fun _ _ => True)
    (fun o ho => hnot o (List.mem_append_left _ ho)) (fun _ _ _ _ _ _ => trivial) trivial).1
  refine (bothClosed_stateAfter (bothClosed_step hclosed (hnot operation hmem)) (R := SameKey n)
    (fun o ho => hnot o (by simp [ho])) (fun o ho s t hst hkey => ?_) (hsame _ _)).2
  exact step_sameKey hst.wellformed.1 hst.wellformed.2 hst.closed.1 hst.closed.2
    (hnot o (by simp [ho])) hkey

/-! ## The open -/

/-- What an open with a header needs of two closed volumes: the same key where one is set, or a
key that does not validate on the one and none on the other. -/
def KeysReady (L : Libraries) (fails : Bool) (header : VolumeHeader) (s t : Volume) : Prop :=
  (t.volumeMasterKeyIsSet = s.volumeMasterKeyIsSet ∧ (s.volumeMasterKeyIsSet = true →
    t.masterKey.bytes.take header.masterKeySize.toNat =
      s.masterKey.bytes.take header.masterKeySize.toNat)) ∨
  (t.volumeMasterKeyIsSet = false ∧ masterKeyIsValid L fails header
    (s.masterKey.bytes.take header.masterKeySize.toNat) = some false)

/-- A key that does not validate is as good as none. -/
theorem internalVolumeUnlock_forget (env : KeysEnvironment) {v : Volume} {header : VolumeHeader}
    (file : Option FileIoHandle) (hbytes : v.ioHandle.bytesPerSector ≠ 0)
    (hheader : v.volumeHeader = some header)
    (hinvalid : masterKeyIsValid L env.presetFails header
      (v.masterKey.bytes.take v.masterKeySize) = some false) :
    internalVolumeUnlock L env v file =
      internalVolumeUnlock L env { v with volumeMasterKeyIsSet := false } file := by
  have hpreset : presetKeyIsValid L env v header = some false := by
    rw [presetKeyIsValid, hinvalid]
    split
    · rfl
    · rfl
  have hforgotten : presetKeyIsValid L env { v with volumeMasterKeyIsSet := false } header
      = some false := rfl
  rw [internalVolumeUnlock, internalVolumeUnlock,
    internalVolumeOpenReadKeys_eq env file hbytes hheader,
    internalVolumeOpenReadKeys_eq env (v := { v with volumeMasterKeyIsSet := false }) file hbytes
      hheader, hpreset, hforgotten]

theorem beforeUnlock_alike {s t : Volume} (h : AlikeButKey s t)
    (hs : s.ioHandle.bytesPerSector = 512) (ht : t.ioHandle.bytesPerSector = 512)
    (file : FileIoHandle) (header : VolumeHeader) :
    AlikeButKey (s.beforeUnlock file header) (t.beforeUnlock file header) ∧
      (t.beforeUnlock file header).ioHandle = { (s.beforeUnlock file header).ioHandle with
        abort := (t.beforeUnlock file header).ioHandle.abort } := by
  refine ⟨?_, ?_⟩
  · rw [h]
    rfl
  · rw [Volume.beforeUnlock_ioHandle file header hs, Volume.beforeUnlock_ioHandle file header ht]

/-- The unlocking inside an open. -/
theorem internalVolumeUnlock_beforeUnlock (env : KeysEnvironment) {s t : Volume}
    (h : BothClosed L s t) (file : FileIoHandle) {header : VolumeHeader}
    (hready : KeysReady L env.presetFails header s t) :
    let r := internalVolumeUnlock L env (s.beforeUnlock file header) (some file)
    let r' := internalVolumeUnlock L env (t.beforeUnlock file header) (some file)
    r'.2 = r.2 ∧ AlikeButKey r.1 r'.1 ∧ SameOpened r.1 r'.1 := by
  intro r r'
  have hs := h.wellformed.1
  have ht := h.wellformed.2
  obtain ⟨hframe, hio⟩ := beforeUnlock_alike h.frame hs.bytesPerSector ht.bytesPerSector file header
  have hcontext : (s.beforeUnlock file header).encryptionContext = none :=
    (hs.closed h.closed.1).encryptionContext
  obtain ⟨hset, hkey⟩ | ⟨hnone, hinvalid⟩ := hready
  · exact internalVolumeUnlock_alike env (some file) hframe ⟨hset, rfl, hio, hkey⟩ hcontext
  · have hforget : r = internalVolumeUnlock L env
        { s.beforeUnlock file header with volumeMasterKeyIsSet := false } (some file) := by
      refine internalVolumeUnlock_forget env (some file) ?_ rfl hinvalid
      show s.ioHandle.bytesPerSector ≠ 0
      rw [hs.bytesPerSector]
      decide
    rw [hforget]
    exact internalVolumeUnlock_alike env (some file)
      (s := { s.beforeUnlock file header with volumeMasterKeyIsSet := false }) hframe
      ⟨hnone, rfl, hio, fun hyes => (by cases hyes)⟩ hcontext

theorem internalVolumeOpenRead_alike (env : OpenEnvironment) {s t : Volume}
    (h : BothClosed L s t) (file : FileIoHandle)
    (hready : ∀ header, HeaderOf L env.header file header →
      KeysReady L env.keys.presetFails header s t) :
    let r := internalVolumeOpenRead L env s file
    let r' := internalVolumeOpenRead L env t file
    r'.2 = r.2 ∧ AlikeButKey r.1 r'.1 ∧ r.1.fileIoHandle = none ∧
      (r.2 = 1 → SameOpened r.1 r'.1) := by
  have hs := h.wellformed.1.closed h.closed.1
  have ht := h.wellformed.2.closed h.closed.2
  have hbytes := h.wellformed.1.bytesPerSector
  have hbytes' := h.wellformed.2.bytesPerSector
  simp only [internalVolumeOpenRead]
  obtain hrefused | ⟨header, hheader, hread⟩ := openReadHeader_spec (L := L) env file
  · obtain ⟨n, m, hread⟩ := hrefused s hs hbytes
    obtain ⟨n', m', hread'⟩ := hrefused t ht hbytes'
    rw [hread, hread']
    refine ⟨rfl, ?_, h.closed.1, fun hone => (by cases hone)⟩
    show AlikeButKey (s.refused n m) (t.refused n' m')
    rw [h.frame]
    rfl
  · rw [hread s hs hbytes, hread t ht hbytes']
    obtain ⟨hresult, hframe, hopened⟩ := internalVolumeUnlock_beforeUnlock env.keys h file
      (hready header hheader)
    have hoffset : ∀ v : Volume, 0 ≤ (v.beforeUnlock file header).ioHandle.encryptedVolumeOffset :=
      fun v => Int.mul_nonneg (Int.natCast_nonneg _) (Int.natCast_nonneg _)
    obtain ⟨s', result, hunlock, hcase⟩ := openReadUnlock_spec (L := L) env
      (v := s.beforeUnlock file header) file hs.encryptionContext hbytes (hoffset s)
    obtain ⟨t', result', hunlock', hcase'⟩ := openReadUnlock_spec (L := L) env
      (v := t.beforeUnlock file header) file ht.encryptionContext hbytes' (hoffset t)
    have hclosed : s'.fileIoHandle = none := by
      rw [(internalVolumeUnlock_step (v := s.beforeUnlock file header) env.keys (some file)
        hs.encryptionContext hunlock).frame]
      exact h.closed.1
    rw [hunlock, hunlock'] at hresult hframe hopened
    simp only at hresult hframe hopened ⊢
    subst hresult
    obtain ⟨hfails, heq⟩ | ⟨hno, hvector, heq⟩ := hcase
    · obtain ⟨-, heq'⟩ | ⟨hno', hvector', -⟩ := hcase'
      · rw [heq, heq']
        refine ⟨rfl, ?_, hclosed, fun hone => (by cases hone)⟩
        show AlikeButKey s'.openReadOnError t'.openReadOnError
        rw [hframe]
        rfl
      · exact absurd hfails (by simp [hno', hvector'])
    · obtain ⟨hfails', -⟩ | ⟨-, -, heq'⟩ := hcase'
      · exact absurd hfails' (by simp [hno, hvector])
      · have hplace : (t.beforeUnlock file header).ioHandle.encryptedVolumeOffset =
            (s.beforeUnlock file header).ioHandle.encryptedVolumeOffset := by
          rw [Volume.beforeUnlock_ioHandle _ header hbytes,
            Volume.beforeUnlock_ioHandle _ header hbytes']
        rw [heq, heq', hplace]
        refine ⟨rfl, ?_, hclosed, fun _ => ⟨hopened.1, hopened.2, hopened.3, hopened.4⟩⟩
        simp only
        rw [hframe]
        rfl

/-- An open of two closed volumes gives the same answer and leaves volumes that are alike. -/
theorem volumeOpenFileIoHandle_alike (env : OpenEnvironment) {s t : Volume}
    (h : BothClosed L s t) (file : FileIoHandle) (accessFlags : ℕ)
    (hready : ∀ header, HeaderOf L env.header file.opened header →
      KeysReady L env.keys.presetFails header s t) :
    (volumeOpenFileIoHandle L env t file accessFlags).2 =
        (volumeOpenFileIoHandle L env s file accessFlags).2 ∧
      Alike (volumeOpenFileIoHandle L env s file accessFlags).1
        (volumeOpenFileIoHandle L env t file accessFlags).1 := by
  obtain ⟨hresult, hframe, hclosed, hopened⟩ := internalVolumeOpenRead_alike env h file.opened hready
  unfold volumeOpenFileIoHandle
  generalize internalVolumeOpenRead L env s file.opened = r at hresult hframe hclosed hopened ⊢
  generalize internalVolumeOpenRead L env t file.opened = r' at hresult hframe hopened ⊢
  obtain ⟨s', result⟩ := r
  obtain ⟨t', result'⟩ := r'
  simp only at hresult hframe hclosed hopened ⊢
  subst hresult
  rw [if_neg (not_not.2 h.closed.1), if_neg (not_not.2 h.closed.2)]
  split
  · exact ⟨rfl, h.alike⟩
  split
  · exact ⟨rfl, h.alike⟩
  split
  · exact ⟨rfl, hframe, fun hopen => absurd hclosed hopen⟩
  · rename_i hone
    have hsame := hopened (not_not.1 hone)
    refine ⟨rfl, ?_, fun _ => ⟨hsame.1, hsame.2, hsame.3, hsame.4⟩⟩
    simp only
    rw [hframe]
    rfl

/-! ## The next session -/

/-- A new volume with the password of another one. -/
def Volume.newWithPassword (v : Volume) : Volume :=
  { volumeInitialize with
    userPassword := v.userPassword
    userPasswordSize := v.userPasswordSize
    userPasswordIsSet := v.userPasswordIsSet }

/-- The condition on a volume that was just closed, on the calls before the next open, and on
the file that is opened: what the close left of the master key is not used. -/
def KeyForgotten (L : Libraries) (v : Volume) (operations : List Operation) (env : OpenEnvironment)
    (file : FileIoHandle) : Prop :=
  (∃ operation ∈ operations, operation.SetsWholeKey) ∨
  ((∃ operation ∈ operations, operation.SetsHalfKey) ∧
    ∀ header, HeaderOf L env.header file.opened header →
      ∀ b ∈ slice 32 (header.masterKeySize.toNat - 32) v.masterKey.bytes, b = 0) ∨
  ((¬ ∃ operation ∈ operations, operation.SetsHalfKey) ∧
    ∀ header, HeaderOf L env.header file.opened header →
      v.volumeMasterKeyIsSet = false ∨ masterKeyIsValid L env.keys.presetFails header
        (v.masterKey.bytes.take header.masterKeySize.toNat) = some false)

theorem SameKey.mono {m n : ℕ} {s t : Volume} (h : SameKey n s t) (hle : m ≤ n) : SameKey m s t :=
  ⟨h.isSet, fun j hj => h.byte j (by omega)⟩

/-- A call that sets no key on a closed volume leaves the master key and its flag. -/
theorem step_keepsKey {operation : Operation} {v : Volume} (hv : Wellformed L v)
    (hclosed : v.fileIoHandle = none) (hnot : operation.IsNotOpen)
    (hwhole : ¬ operation.SetsWholeKey) (hhalf : ¬ operation.SetsHalfKey) :
    (step L operation v).1.masterKey = v.masterKey ∧
      (step L operation v).1.volumeMasterKeyIsSet = v.volumeMasterKeyIsSet := by
  by_cases hkey : operation.SetsKey
  · cases operation with
    | setKey masterKey =>
      simp only [step, volumeSetKey_rejected v hwhole]
      exact ⟨rfl, rfl⟩
    | setKeys masterKey =>
      simp only [step, volumeSetKeys_rejected v hhalf]
      exact ⟨rfl, rfl⟩
    | _ => exact hkey.elim
  · exact (step_key hv hclosed hnot).2 hkey

/-- Behind calls that set no key the master key and its flag are as before. -/
theorem stateAfter_keepsKey {operations : List Operation} {v : Volume} (hv : Wellformed L v)
    (hclosed : v.fileIoHandle = none) (hnot : ∀ operation ∈ operations, operation.IsNotOpen)
    (hwhole : ∀ operation ∈ operations, ¬ operation.SetsWholeKey)
    (hhalf : ∀ operation ∈ operations, ¬ operation.SetsHalfKey) :
    (stateAfter (step L) v operations).masterKey = v.masterKey ∧
      (stateAfter (step L) v operations).volumeMasterKeyIsSet = v.volumeMasterKeyIsSet := by
  induction operations generalizing v with
  | nil => exact ⟨rfl, rfl⟩
  | cons operation operations ih =>
    rw [List.forall_mem_cons] at hnot hwhole hhalf
    obtain ⟨hkey, hset⟩ := ih (step_wellformed operation v hv) (step_key hv hclosed hnot.1).1
      hnot.2 hwhole.2 hhalf.2
    obtain ⟨hkey', hset'⟩ := step_keepsKey hv hclosed hnot.1 hwhole.1 hhalf.1
    exact ⟨hkey.trans hkey', hset.trans hset'⟩

/-- Behind calls that do not replace the whole buffer its second half is as before. -/
theorem stateAfter_secondHalf {operations : List Operation} {v : Volume} (hv : Wellformed L v)
    (hclosed : v.fileIoHandle = none) (hnot : ∀ operation ∈ operations, operation.IsNotOpen)
    (hwhole : ∀ operation ∈ operations, ¬ operation.SetsWholeKey) {j : ℕ} (hj : 32 ≤ j) :
    (stateAfter (step L) v operations).masterKey.bytes[j]? = v.masterKey.bytes[j]? := by
  induction operations generalizing v with
  | nil => rfl
  | cons operation operations ih =>
    rw [List.forall_mem_cons] at hnot hwhole
    exact (ih (step_wellformed operation v hv) (step_key hv hclosed hnot.1).1 hnot.2
      hwhole.2).trans (step_secondHalf hv hclosed hnot.1 hwhole.1 hj)

/-- Where what was left of the master key is not used, the volumes are ready for the open. -/
theorem KeyForgotten.keysReady {v : Volume} {operations : List Operation} {env : OpenEnvironment}
    {file : FileIoHandle} (h : KeyForgotten L v operations env file)
    (hclosed : BothClosed L v v.newWithPassword)
    (hnot : ∀ operation ∈ operations, operation.IsNotOpen) {header : VolumeHeader}
    (hheader : HeaderOf L env.header file.opened header) :
    KeysReady L env.keys.presetFails header (stateAfter (step L) v operations)
      (stateAfter (step L) v.newWithPassword operations) := by
  have hsize := hheader.masterKeySize.2
  have hready : ∀ s t : Volume, SameKey header.masterKeySize.toNat s t →
      KeysReady L env.keys.presetFails header s t :=
    fun s t hsame => Or.inl ⟨hsame.isSet, fun _ => hsame.take⟩
  by_cases hwhole : ∃ operation ∈ operations, operation.SetsWholeKey
  · obtain ⟨operation, hmem, hsets⟩ := hwhole
    have hsame := sameKey_of_mem hclosed hnot ⟨operation, hmem, step_sameKey_whole hsets⟩
    exact hready _ _ (hsame.mono hsize)
  have hwhole' := hwhole
  push Not at hwhole'
  obtain ⟨⟨operation, hmem, hsets⟩, hzero⟩ | ⟨hhalf, hleft⟩ := h.resolve_left hwhole
  · have hsame := sameKey_of_mem hclosed hnot ⟨operation, hmem, step_sameKey_half hsets⟩
    refine hready _ _ ⟨hsame.isSet, fun j hj => ?_⟩
    by_cases hfirst : j < 32
    · exact hsame.byte j hfirst
    · -- behind the first half both buffers are as they were at the close
      rw [stateAfter_secondHalf hclosed.wellformed.1 hclosed.closed.1 hnot hwhole' (by omega),
        stateAfter_secondHalf hclosed.wellformed.2 hclosed.closed.2 hnot hwhole' (by omega)]
      have hlt : j < v.masterKey.bytes.length := by
        rw [v.masterKey.length_eq]
        omega
      have hbyte : v.masterKey.bytes[j] ∈
          slice 32 (header.masterKeySize.toNat - 32) v.masterKey.bytes := by
        refine List.mem_of_getElem? (i := j - 32) ?_
        rw [getElem?_slice, if_pos (by omega), show 32 + (j - 32) = j by omega,
          List.getElem?_eq_getElem hlt]
      rw [List.getElem?_eq_getElem hlt, hzero header hheader _ hbyte]
      exact List.getElem?_replicate_of_lt (by omega)
  · have hhalf' : ∀ operation ∈ operations, ¬ operation.SetsHalfKey :=
      fun o ho hyes => hhalf ⟨o, ho, hyes⟩
    obtain ⟨hkey, hset⟩ := stateAfter_keepsKey hclosed.wellformed.1 hclosed.closed.1 hnot hwhole'
      hhalf'
    obtain ⟨-, hnone⟩ := stateAfter_keepsKey hclosed.wellformed.2 hclosed.closed.2 hnot hwhole'
      hhalf'
    obtain hno | hinvalid := hleft header hheader
    · refine Or.inl ⟨hnone.trans (hset.trans hno).symm, fun hyes => ?_⟩
      rw [hset, hno] at hyes
      cases hyes
    · refine Or.inr ⟨hnone, ?_⟩
      rw [hkey]
      exact hinvalid

/-- The calls but an open are a simulation between volumes that are alike. -/
theorem simulation_alike : Simulation (step L) (fun operation _ => operation.IsNotOpen)
    fun s t => Wellformed L s ∧ Wellformed L t ∧ Alike s t := by
  intro operation s t hnot h
  obtain ⟨hs, ht, halike⟩ := h
  obtain ⟨hanswer, hnext⟩ := step_alike hnot hs halike
  exact ⟨hanswer.symm, step_wellformed operation s hs, step_wellformed operation t ht, hnext⟩

/-- A volume that was closed with success, and a new one with its password. -/
theorem volumeClose_bothClosed {env : CloseEnvironment} {v : Volume} (hv : Wellformed L v)
    (hclose : (volumeClose env v).2 = 0) :
    BothClosed L (volumeClose env v).1 (volumeClose env v).1.newWithPassword := by
  have hnew : Wellformed L (volumeClose env v).1.newWithPassword :=
    volumeInitialize_wellformed.of_keys rfl
  have hclosed : (volumeClose env v).1.fileIoHandle = none ∧
      AlikeButKey (volumeClose env v).1 (volumeClose env v).1.newWithPassword := by
    rcases volumeClose_cases env v with ⟨-, heq⟩ | ⟨-, result, -, heq⟩
    · rw [heq] at hclose
      cases hclose
    · rw [heq]
      exact ⟨rfl, rfl⟩
  exact ⟨⟨volumeClose_wellformed hv env, hnew⟩, ⟨hclosed.1, rfl⟩, hclosed.2⟩

/-- **Sessions are independent where the master key is forgotten.**  After any session that
ends with a successful close: the calls before the next open, that open and all calls after it
have the answers that they have on a new volume with the same password, if what the close left
of the master key is not used by the open.  Each call has the same surroundings on both volumes,
which decide what fails and what newly allocated memory holds. -/
theorem answers_eq_of_keyForgotten {history operations later : List Operation}
    {closeEnv : CloseEnvironment} {env : OpenEnvironment} {file : FileIoHandle} {accessFlags : ℕ}
    (hclose : (step L (.close closeEnv) (volumeAfter L history)).2 = .of 0)
    (hoperations : ∀ operation ∈ operations, operation.IsNotOpen)
    (hlater : ∀ operation ∈ later, operation.IsNotOpen)
    (hforgotten : KeyForgotten L (volumeAfter L (history ++ [.close closeEnv])) operations env
      file) :
    let v := volumeAfter L (history ++ [.close closeEnv])
    let session := operations ++ .openFileIoHandle env file accessFlags :: later
    answers (step L) v session = answers (step L) v.newWithPassword session := by
  intro v session
  have hv : v = (volumeClose closeEnv (volumeAfter L history)).1 := by
    simp only [v, volumeAfter, stateAfter_append, stateAfter_cons, stateAfter_nil]
    rfl
  have hclosed : BothClosed L v v.newWithPassword := by
    rw [hv]
    exact volumeClose_bothClosed (volumeAfter_wellformed history)
      (congrArg Answer.value hclose)
  have hstart : Wellformed L v ∧ Wellformed L v.newWithPassword ∧ Alike v v.newWithPassword :=
    ⟨hclosed.wellformed.1, hclosed.wellformed.2, hclosed.alike⟩
  have hbefore := simulation_alike.answers_eq hstart (admitted_of_forall hoperations)
  obtain ⟨hboth, -⟩ := bothClosed_stateAfter hclosed (R := fun _ _ => True) hoperations
    (fun _ _ _ _ _ _ => trivial) trivial
  obtain ⟨hanswer, halike⟩ := volumeOpenFileIoHandle_alike env hboth file accessFlags
    fun header hheader => hforgotten.keysReady hclosed hoperations hheader
  have hopened : Wellformed L (step L (.openFileIoHandle env file accessFlags)
        (stateAfter (step L) v operations)).1 ∧
      Wellformed L (step L (.openFileIoHandle env file accessFlags)
        (stateAfter (step L) v.newWithPassword operations)).1 ∧
      Alike (step L (.openFileIoHandle env file accessFlags)
        (stateAfter (step L) v operations)).1
        (step L (.openFileIoHandle env file accessFlags)
        (stateAfter (step L) v.newWithPassword operations)).1 :=
    ⟨step_wellformed _ _ hboth.wellformed.1, step_wellformed _ _ hboth.wellformed.2, halike⟩
  have hafter := simulation_alike.answers_eq hopened (admitted_of_forall hlater)
  simp only [session, answers_append, answers_cons, hbefore, hafter]
  have hopen : (step L (.openFileIoHandle env file accessFlags)
        (stateAfter (step L) v operations)).2 =
      (step L (.openFileIoHandle env file accessFlags)
        (stateAfter (step L) v.newWithPassword operations)).2 := by
    simp only [step, hanswer]
  rw [hopen]

/-- The small volume is opened with its key and closed; the key is set again. -/
theorem answers_eq_of_keyForgotten_small :
    let v := volumeAfter smallLibraries (smallSession ++ [.close {}])
    let session : List Operation :=
      [.setKey smallKey] ++ .openFileIoHandle {} smallFile 1 :: [.readBuffer {} 512]
    answers (step smallLibraries) v session =
      answers (step smallLibraries) v.newWithPassword session :=
  answers_eq_of_keyForgotten (by decide +kernel) (by simp [Operation.IsNotOpen])
    (by simp [Operation.IsNotOpen]) (Or.inl ⟨.setKey smallKey, by simp, Or.inl rfl⟩)

/-- An image whose master key is the one of 16 zero bytes. -/
def zeroKeyFile : FileIoHandle :=
  volumeFile { smallRecord with masterKeyValidationHash := zeroHash } smallData length_smallData

/-- Behind a session with the key of the small volume, an image whose master key is zero is
unlocked without a key or a password. -/
theorem smallSession_zeroKeyFile :
    let v := volumeAfter smallLibraries (smallSession ++ [.close {}])
    let session : List Operation := [.openFileIoHandle {} zeroKeyFile 1, .isLocked]
    answers (step smallLibraries) volumeInitialize (smallSession ++ [.close {}])
        = [.of 1, .of 1, .of 0] ∧
      answers (step smallLibraries) v session = [.of 1, .of 0] ∧
      answers (step smallLibraries) v.newWithPassword session = [.of 1, .of 1] := by
  decide +kernel

end Libluksde
