import Libluksde.ReadComplete
import Libluksde.LockState
import Libluksde.SeekArithmetic
import Libluksde.Lib.FileReader
import Libluksde.Lib.Refinement

/-!
# A volume as a file

What an unlocked volume is for: it shows a content, of which its clients see no more than the
bytes, at a position that they seek and read at.  The ciphers, the cache, the units in which the
read loop works and all calls that set keys and passwords are behind it.
-/

namespace Libluksde

open Lib.Bytes Lib.Blocks Lib.Stream Lib.Machine Lib.FileReader Lib.Refinement

variable {L : Libraries}

/-! ## The content -/

/-- A volume that is open and unlocked, and whose sectors decrypt to a content. -/
structure Shows (L : Libraries) (v : Volume) (file : FileIoHandle) (content : List UInt8) :
    Prop where
  wellformed : Wellformed L v
  fileIoHandle : v.fileIoHandle = some file
  isLocked : v.isLocked = false
  size : v.ioHandle.encryptedVolumeSize = content.length
  wholeSectors : 512 ∣ content.length
  context : ∃ c, v.encryptionContext = some c ∧ ¬ c.IsRc4 ∧
    ∀ input sectorNumber, input.length = 512 → ∃ output c',
      encryptionContextCrypt L c .decrypt input 512 sectorNumber = some (output, c')
  sectors : ∀ k, 512 * k < content.length →
    v.plaintextSector L file k = some (slice (512 * k) 512 content)

section

variable {v v' : Volume} {file : FileIoHandle} {content : List UInt8}

theorem Shows.stateless (h : Shows L v file content) : Stateless v.encryptionContext := by
  obtain ⟨c, hc, hrc4, -⟩ := h.context
  intro c' hc'
  rw [hc] at hc'
  cases hc'
  exact hrc4

/-- The plaintext of a volume is its content. -/
theorem Shows.plaintext (h : Shows L v file content) {i : ℕ} (hi : i < content.length) :
    v.plaintext L file i = content[i]? := by
  have hsector := h.sectors (i / 512) (by omega)
  rw [Volume.plaintext, blocks, hsector, Option.bind_some, getElem?_slice, if_pos (by omega)]
  congr 1
  omega

/-- The sectors of a volume, in terms of what they depend on. -/
theorem plaintextSector_congr {v v' : Volume}
    (hcontext : v'.encryptionContext = v.encryptionContext)
    (hoffset : v'.ioHandle.encryptedVolumeOffset = v.ioHandle.encryptedVolumeOffset)
    (file : FileIoHandle) (k : ℕ) : v'.plaintextSector L file k = v.plaintextSector L file k := by
  simp only [Volume.plaintextSector, hcontext, hoffset]

/-- A volume that is open in the same place shows the same content. -/
theorem Shows.of_same (h : Shows L v file content) (hv : Wellformed L v')
    (hfile : v'.fileIoHandle = v.fileIoHandle) (hlocked : v'.isLocked = v.isLocked)
    (hheader : v'.volumeHeader = v.volumeHeader)
    (hcontext : v'.encryptionContext = v.encryptionContext) : Shows L v' file content := by
  have hopen := hfile.trans h.fileIoHandle
  -- the header gives the place of the data
  have hopened := h.wellformed.opened file h.fileIoHandle
  obtain ⟨env, header₀, header, -, -, hsome⟩ := hopened.header
  obtain ⟨hoffset, hsize⟩ := hopened.dataOffset header hsome
  obtain ⟨hoffset', hsize'⟩ := (hv.opened file hopen).dataOffset header (hheader.trans hsome)
  refine ⟨hv, hopen, hlocked.trans h.isLocked, ?_, h.wholeSectors, ?_, fun k hk => ?_⟩
  · rw [hsize', ← hsize]
    exact h.size
  · rw [hcontext]
    exact h.context
  · rw [plaintextSector_congr hcontext (hoffset'.trans hoffset.symm)]
    exact h.sectors k hk

/-- The calls that neither open, unlock nor close a volume leave the content as it is. -/
theorem Shows.of_quiet (h : Shows L v file content) {operation : Operation}
    (hv : Wellformed L v') (hquiet : QuietFrame operation v v') : Shows L v' file content := by
  obtain ⟨c, hc, hrc4, -⟩ := h.context
  have hsame : v'.encryptionContext = v.encryptionContext := by
    have hafter := hquiet.context
    rw [hc] at hafter ⊢
    cases hc' : v'.encryptionContext with
    | none =>
      rw [hc'] at hafter
      exact hafter.elim
    | some c' =>
      rw [hc'] at hafter
      rw [hafter.2 hrc4]
  exact h.of_same hv hquiet.fileIoHandle hquiet.isLocked hquiet.volumeHeader hsame

/-- A volume that was moved shows the same content. -/
theorem Shows.moved (h : Shows L v file content) {o : ℤ} (ho : 0 ≤ o ∧ o < 2 ^ 63) :
    Shows L { v with currentOffset := o } file content :=
  h.of_same (h.wellformed.of_offset rfl ho) rfl rfl rfl rfl

/-- A volume that is open and unlocked is neither opened nor unlocked again. -/
theorem Shows.again (h : Shows L v file content) :
    (∀ env file' accessFlags, step L (.openFileIoHandle env file' accessFlags) v = (v, .of (-1))) ∧
      ∀ env, step L (.unlock env) v = (v, .of 1) := by
  constructor
  · intro env file' accessFlags
    simp only [step]
    rw [volumeOpenFileIoHandle_of_open env (by rw [h.fileIoHandle]; simp)]
  · intro env
    simp only [step, volumeUnlock, h.isLocked]
    rfl

/-- Every call but a close leaves the content as it is. -/
theorem Shows.step (h : Shows L v file content) {operation : Operation}
    (hopen : ∀ env, operation ≠ .close env) :
    Shows L (Libluksde.step L operation v).1 file content := by
  have hquiet : operation.IsQuiet → Shows L (Libluksde.step L operation v).1 file content :=
    fun hop => h.of_quiet (step_wellformed operation v h.wellformed) (step_quiet hop v)
  cases operation with
  | close env => exact absurd rfl (hopen env)
  | openFileIoHandle env file' accessFlags =>
    rw [h.again.1]
    exact h
  | unlock env =>
    rw [h.again.2]
    exact h
  | _ => exact hquiet trivial

/-! ## One read -/

/-- A read on which nothing fails gets all that is left for it. -/
theorem Shows.read_count (h : Shows L v file content) {env : ReadEnvironment}
    (henv : env.Reliable) {size : ℕ} (hsize : size ≤ ssizeMax) :
    (internalVolumeReadBufferFromFileIoHandle L env v (some file) size).2.count =
      (v.available v.currentOffset size : ℕ) := by
  have hreadable := h.wellformed.readable h.fileIoHandle
  obtain ⟨vector, hvector, -⟩ := hreadable.vector
  by_cases hend : v.currentOffset.toNat < v.ioHandle.encryptedVolumeSize
  · have hopened := h.wellformed.opened file h.fileIoHandle
    obtain ⟨c, hc, hrc4, hcrypt⟩ := h.context
    have hfits : (v.readPlace file v.currentOffset size).Fits := by
      have hplace : (v.currentOffset.toNat : ℤ) = v.currentOffset := by
        have := hreadable.currentOffset
        omega
      rw [← hplace]
      exact hopened.readPlace_fits (by rw [h.size]; exact h.wholeSectors) hend size
    obtain ⟨s, hloop, habort⟩ := readLoop_complete (hreadable.readPlace_inRange size hend)
      hopened.isOpen hfits henv (P := fun c' => c' = c)
      (by rintro c' rfl; exact hcrypt)
      (by
        rintro c₁ c₂ rfl ⟨input, size, number, output, hone⟩
        have hsame : ContextAfterReads (some c₁) (some c₂) :=
          ⟨encryptionContextCrypt_sameKeys hone, fun hno =>
            (encryptionContextCrypt_spec hone).2 hno⟩
        exact hsame.2 hrc4)
      (v.available v.currentOffset size) (hreadable.loopInvariant hvector size) ⟨c, hc, rfl⟩ rfl
    obtain ⟨⟨k, hinv⟩, hdone⟩ := readLoop_spec (hreadable.readPlace_inRange size hend)
      (hreadable.loopInvariant hvector size) (Nat.le_refl _) hloop
    have hfull : s.output.length + s.remainingBufferSize = v.available v.currentOffset size :=
      hinv.size
    rw [hdone rfl rfl habort, Nat.add_zero] at hfull
    exact (hreadable.read_count_iff h.isLocked hvector hend hsize env).2 ⟨s, hloop, hfull⟩
  · -- at the end there is nothing left
    have hoffset := hreadable.currentOffset
    have hnone : v.available v.currentOffset size = 0 := by
      unfold Volume.available
      omega
    rw [internalVolumeReadBufferFromFileIoHandle_eq env h.isLocked hvector hoffset.1 hsize, hnone,
      readFromVector, if_pos]
    · rfl
    · simp only [v.size64_currentOffset hoffset]
      omega

/-- A read that stays in step and on which nothing fails returns the content at its place. -/
theorem Shows.read (h : Shows L v file content) {env : ReadEnvironment} (henv : env.Reliable)
    {size : ℕ} (hsize : size ≤ ssizeMax) (hstep : v.InStep L file v.currentOffset size) :
    let r := internalVolumeReadBufferFromFileIoHandle L env v (some file) size
    let data := (content.drop v.currentOffset.toNat).take size
    r.2 = ⟨data.length, data⟩ ∧ r.1.currentOffset = v.currentOffset + data.length ∧
      Shows L r.1 file content := by
  intro r data
  have hreadable := h.wellformed.readable h.fileIoHandle
  have hreturns := (hreadable.returnsPlaintext_iff h.isLocked h.stateless size).2 hstep env
  have hcount := h.read_count henv hsize
  have hshows : Shows L r.1 file content :=
    h.of_quiet
      (internalVolumeReadBufferFromFileIoHandle_wellformed h.wellformed h.fileIoHandle env size)
      (internalVolumeReadBufferFromFileIoHandle_quiet (.readBuffer env size) env v (some file) size)
  change r.2.count = _ at hcount
  obtain ⟨heq, hbytes⟩ := hreturns.content (by rw [hcount]; exact Int.natCast_nonneg _)
  have hoffset := hreturns.currentOffset (by rw [hcount]; exact Int.natCast_nonneg _)
  have hlength : r.2.data.length = data.length := by
    have havailable : r.2.data.length = v.available v.currentOffset size :=
      Int.ofNat_inj.1 (heq.symm.trans hcount)
    rw [havailable, Volume.available, h.size, List.length_take, List.length_drop]
  have hdata : r.2.data = data := by
    apply List.ext_getElem?
    intro i
    by_cases hi : i < r.2.data.length
    · have hinside : v.currentOffset.toNat + i < content.length := by
        rw [hlength, List.length_take, List.length_drop] at hi
        omega
      rw [hbytes i hi, h.plaintext hinside, List.getElem?_take_of_lt (by
        rw [hlength, List.length_take] at hi
        omega), List.getElem?_drop]
    · rw [List.getElem?_eq_none (by omega), List.getElem?_eq_none (by omega)]
  refine ⟨?_, ?_, hshows⟩
  · calc r.2 = ⟨r.2.count, r.2.data⟩ := rfl
      _ = ⟨data.length, data⟩ := by rw [heq, hdata]
  · rw [hoffset, heq, hdata]

end

/-! ## The file that a volume stands for -/

/-- The origin that a `whence` stands for. -/
def whenceOrigin (whence : ℕ) : Option Origin :=
  if whence = seekSet then some .start
  else if whence = seekCur then some .position
  else if whence = seekEnd then some .finish
  else none

/-- What a call asks of the file that a volume stands for. -/
def Operation.request : Operation → Option Request
  | .seekOffset offset whence => some (.seek (whenceOrigin whence) offset.1)
  | .readBuffer _ size => some (.read size)
  | .readBufferAtOffset _ size offset => some (.readAt size offset.1)
  | _ => none

/-- How the answer of a file is shown to the caller of a volume. -/
def replyAnswer : Reply UInt8 → Answer
  | .failed => ⟨-1, []⟩
  | .moved position => ⟨position, []⟩
  | .data data => ⟨data.length, data⟩

/-- The view of a volume as a file. -/
def volumeView : View Operation Request Answer (Reply UInt8) := ⟨Operation.request, replyAnswer⟩

/-- Offsets are below 2^63, and reads are at most as large as what they can return. -/
def volumeLimits : Limits := ⟨2 ^ 63, ssizeMax⟩

/-- The calls of a client that keeps the volume open, with reads that stay in step and on which
nothing fails. -/
def Operation.Undisturbed (L : Libraries) (file : FileIoHandle) : Operation → Volume → Prop
  | .readBuffer env size, v => env.Reliable ∧ v.InStep L file v.currentOffset size
  | .readBufferAtOffset env size offset, v => env.Reliable ∧ v.InStep L file offset.1 size
  | .close _, _ => False
  | _, _ => True

/-- A volume stands for a file with its content and its position. -/
structure StandsFor (L : Libraries) (file : FileIoHandle) (v : Volume) (r : Reader UInt8) :
    Prop where
  shows : Shows L v file r.content
  position : v.currentOffset = r.position

section

variable {v : Volume} {file : FileIoHandle} {r : Reader UInt8}

/-- A seek moves the file as it moves the volume. -/
theorem StandsFor.seek (h : StandsFor L file v r) (offset : Off64) (whence : ℕ) :
    let answer := serve volumeLimits (.seek (whenceOrigin whence) offset.1) r
    (volumeSeekOffset v offset.1 whence).map id .of =
        ((volumeSeekOffset v offset.1 whence).1, replyAnswer answer.2) ∧
      StandsFor L file (volumeSeekOffset v offset.1 whence).1 answer.1 := by
  have hreadable := h.shows.wellformed.readable h.shows.fileIoHandle
  have hseek : volumeSeekOffset v offset.1 whence = v.soughtTo (v.seekTarget offset.1 whence) := by
    rw [volumeSeekOffset, h.shows.fileIoHandle]
    exact internalVolumeSeekOffset_eq h.shows.isLocked hreadable.currentOffset hreadable.size
      offset.2 whence
  have htarget : v.seekTarget offset.1 whence =
      (whenceOrigin whence).map fun origin => (r.origin origin : ℤ) + offset.1 := by
    unfold Volume.seekTarget whenceOrigin
    split_ifs
    · simp [Reader.origin]
    · simp [Reader.origin, h.position]
    · simp [Reader.origin, h.shows.size]
    · rfl
  intro answer
  rw [hseek, htarget]
  simp only [answer]
  cases whenceOrigin whence with
  | none => exact ⟨rfl, h⟩
  | some origin =>
    simp only [Option.map_some, Volume.soughtTo, serve, Reader.move]
    have hlimit : ((volumeLimits.position : ℕ) : ℤ) = 2 ^ 63 := rfl
    rw [hlimit]
    split
    · rename_i hrange
      have hnat : (((r.origin origin : ℤ) + offset.1).toNat : ℤ) =
          (r.origin origin : ℤ) + offset.1 := Int.toNat_of_nonneg hrange.1
      refine ⟨?_, ⟨h.shows.moved hrange, hnat.symm⟩⟩
      simp only [Prod.map, replyAnswer, Answer.of, id, hnat]
    · exact ⟨rfl, h⟩

/-- A read of the volume is a read of the file. -/
theorem StandsFor.read (h : StandsFor L file v r) {env : ReadEnvironment} (henv : env.Reliable)
    {size : ℕ} (hstep : v.InStep L file v.currentOffset size) :
    let result := internalVolumeReadBufferFromFileIoHandle L env v (some file) size
    let answer := r.read volumeLimits size
    result.2.answer = replyAnswer answer.2 ∧ StandsFor L file result.1 answer.1 := by
  intro result answer
  by_cases hsize : size ≤ ssizeMax
  · obtain ⟨hresult, hoffset, hshows⟩ := h.shows.read henv hsize hstep
    have hanswer : answer = ({ r with position := r.position + (r.next size).length },
        .data (r.next size)) := if_pos hsize
    have hplace : v.currentOffset.toNat = r.position := by
      rw [h.position, Int.toNat_natCast]
    rw [hplace] at hresult hoffset
    rw [hanswer]
    refine ⟨?_, hshows, ?_⟩
    · rw [ReadResult.answer, hresult]
      rfl
    · rw [hoffset, h.position]
      exact (Nat.cast_add _ _).symm
  · have hanswer : answer = (r, .failed) := if_neg hsize
    have hfails : result = (v, .failed) := by
      obtain ⟨vector, hvector, -⟩ := (h.shows.wellformed.opened file h.shows.fileIoHandle).vector
      have hoffset := h.shows.wellformed.currentOffset
      simp only [result]
      unfold internalVolumeReadBufferFromFileIoHandle
      rw [if_neg (by simp [h.shows.isLocked])]
      split
      · rfl
      · rw [if_neg (by omega), if_pos (by omega)]
    rw [hanswer, hfails]
    exact ⟨rfl, h⟩

/-- A read at an offset moves the file and reads it. -/
theorem StandsFor.readAt (h : StandsFor L file v r) {env : ReadEnvironment} (henv : env.Reliable)
    {size : ℕ} {offset : Off64} (hstep : v.InStep L file offset.1 size) :
    let result := volumeReadBufferAtOffset L env v size offset.1
    let answer := serve volumeLimits (.readAt size offset.1) r
    result.2.answer = replyAnswer answer.2 ∧ StandsFor L file result.1 answer.1 := by
  intro result answer
  have hlimit : ((volumeLimits.position : ℕ) : ℤ) = 2 ^ 63 := rfl
  have hrange := offset.2.2
  by_cases hneg : offset.1 < 0
  · have hanswer : answer = (r, .failed) := by
      simp only [answer, serve, Reader.move]
      rw [if_neg (by omega)]
    have hfails : result = (v, .failed) := by
      have hseek : internalVolumeSeekOffset v offset.1 seekSet = (v, -1) := by
        rw [internalVolumeSeekOffset, if_neg (by simp [h.shows.isLocked]), if_neg (by decide)]
        exact if_pos hneg
      simp only [result, volumeReadBufferAtOffset, h.shows.fileIoHandle, hseek]
      rfl
    rw [hanswer, hfails]
    exact ⟨rfl, h⟩
  · have hnat : (offset.1.toNat : ℤ) = offset.1 := Int.toNat_of_nonneg (by omega)
    have hanswer : answer = { r with position := offset.1.toNat }.read volumeLimits size := by
      simp only [answer, serve, Reader.move]
      rw [if_pos (by omega)]
    have hmoved : StandsFor L file { v with currentOffset := offset.1 }
        { r with position := offset.1.toNat } := ⟨h.shows.moved (by omega), hnat.symm⟩
    have hread : result = internalVolumeReadBufferFromFileIoHandle L env
        { v with currentOffset := offset.1 } (some file) size :=
      volumeReadBufferAtOffset_eq env h.shows.isLocked h.shows.fileIoHandle size hneg
    rw [hanswer, hread]
    exact hmoved.read henv hstep

/-- The calls that are not seen leave the offset of a volume as it is. -/
theorem StandsFor.unseen (h : StandsFor L file v r) {operation : Operation}
    (hunseen : operation.request = none) (hopen : ∀ env, operation ≠ .close env) :
    StandsFor L file (step L operation v).1 r := by
  refine ⟨h.shows.step hopen, ?_⟩
  rw [← h.position]
  have hpassword : ∀ (env : PasswordEnvironment) (stream : Option (List UInt8)),
      (setPassword env v stream).1.currentOffset = v.currentOffset := by
    intro env stream
    obtain ⟨password, size, isSet, result, heq⟩ := setPassword_eq env stream
    rw [heq]
  cases operation with
  | seekOffset offset whence => cases hunseen
  | readBuffer env size => cases hunseen
  | readBufferAtOffset env size offset => cases hunseen
  | close env => exact absurd rfl (hopen env)
  | openFileIoHandle env file' accessFlags => rw [h.shows.again.1]
  | unlock env => rw [h.shows.again.2]
  | setUtf8Password env string => exact hpassword env _
  | setUtf16Password env string => exact hpassword env _
  | isLocked => rfl
  | signalAbort => rfl
  | setKey masterKey =>
    simp only [step, volumeSetKey]
    split
    · rfl
    · rfl
  | setKeys masterKey =>
    simp only [step, volumeSetKeys]
    split
    · rfl
    · rfl

/-- **One call**: a volume that stands for a file answers as the file does. -/
theorem volume_refines (file : FileIoHandle) :
    Refines (step L) (serve volumeLimits) volumeView (Operation.Undisturbed L file)
      (StandsFor L file) := by
  intro operation v r hguard h
  constructor
  · intro hunseen
    refine h.unseen hunseen ?_
    rintro env rfl
    exact hguard
  · intro request hseen
    cases operation with
    | seekOffset offset whence =>
      cases hseen
      obtain ⟨hanswer, hstands⟩ := h.seek offset whence
      simp only [step]
      rw [hanswer]
      exact ⟨rfl, hstands⟩
    | readBuffer env size =>
      cases hseen
      obtain ⟨henv, hstep⟩ := hguard
      have hread := h.read henv hstep
      simp only [step, volumeReadBuffer, h.shows.fileIoHandle]
      exact hread
    | readBufferAtOffset env size offset =>
      cases hseen
      obtain ⟨henv, hstep⟩ := hguard
      exact h.readAt henv hstep
    | _ => cases hseen

end

/-! ## The content of a volume after a session -/

/-- A volume of whole sectors whose context decrypts them shows a content. -/
theorem exists_shows (hL : L.DecryptsSectors) (session : List Operation) {file : FileIoHandle}
    (hopen : (volumeAfter L session).fileIoHandle = some file)
    (hunlocked : (volumeAfter L session).isLocked = false)
    (hcontext : ∃ c, (volumeAfter L session).encryptionContext = some c ∧ ¬ c.IsRc4 ∧
      c.initializationVectorMode.IsSupported)
    (hwhole : 512 ∣ (volumeAfter L session).ioHandle.encryptedVolumeSize) :
    ∃ content, Shows L (volumeAfter L session) file content := by
  have hv : Wellformed L (volumeAfter L session) := volumeAfter_wellformed session
  have hopened := hv.opened file hopen
  obtain ⟨env, header₀, header, hheader, hs, hsome⟩ := hopened.header
  obtain ⟨hoffset, hsize⟩ := hopened.dataOffset header hsome
  have hplace := hheader.place hs
  have hof := volumeAfter_contextsOfHeader (L := L) session header
  generalize volumeAfter L session = v at *
  obtain ⟨c, hc, hrc4, hsupported⟩ := hcontext
  have hcrypt : ∀ input sectorNumber, input.length = 512 → ∃ output c',
      encryptionContextCrypt L c .decrypt input 512 sectorNumber = some (output, c') :=
    fun input number hinput => (hof c hsome hc).crypt hL hsupported hinput number
  -- every sector is read and decrypted
  have hsector : ∀ k, 512 * k < v.ioHandle.encryptedVolumeSize →
      ∃ data, v.plaintextSector L file k = some data ∧ data.length = 512 := by
    intro k hk
    have hread : file.readBufferAtOffset 512 (v.ioHandle.encryptedVolumeOffset + 512 * k) =
        some (slice (v.ioHandle.encryptedVolumeOffset + 512 * k).toNat 512 file.image) := by
      rw [FileIoHandle.readBufferAtOffset, if_pos ⟨hopened.isOpen, by omega⟩]
    have hlength : (slice (v.ioHandle.encryptedVolumeOffset + 512 * k).toNat 512
        file.image).length = 512 := length_slice_of_le (by omega)
    obtain ⟨output, c', houtput⟩ := hcrypt _ (UInt64.ofNat k) hlength
    refine ⟨output, ?_, (encryptionContextCrypt_spec houtput).1.trans hlength⟩
    rw [Volume.plaintextSector, hc, Option.bind_some, hread, Option.bind_some, if_pos hlength,
      houtput]
    rfl
  obtain ⟨n, hn⟩ := hwhole
  let sector := fun k => (v.plaintextSector L file k).getD []
  have hget : ∀ k < n, v.plaintextSector L file k = some (sector k) ∧ (sector k).length = 512 := by
    intro k hk
    obtain ⟨data, hdata, hlength⟩ := hsector k (by omega)
    simp only [sector, hdata]
    exact ⟨rfl, hlength⟩
  have hlength : (concat n sector).length = 512 * n := length_concat fun k hk => (hget k hk).2
  refine ⟨concat n sector, hv, hopen, hunlocked, by omega, ⟨n, hlength⟩, ⟨c, hc, hrc4, hcrypt⟩,
    fun k hk => ?_⟩
  rw [hlength] at hk
  rw [slice_concat (fun i hi => (hget i hi).2) (by omega)]
  exact (hget k (by omega)).1

/-- **An unlocked volume is a file.**  In every state that a session reaches, an open volume of
whole sectors with a context that decrypts them has a content; and whatever calls follow, in any
order and up to a close, the seeks and reads among them are answered as those of a file with this
content and position are, and leave the volume at the position of that file, if the reads stay in
step with the sectors and nothing fails on them. -/
theorem volume_standsFor_file (hL : L.DecryptsSectors) (session : List Operation)
    {file : FileIoHandle} (hopen : (volumeAfter L session).fileIoHandle = some file)
    (hunlocked : (volumeAfter L session).isLocked = false)
    (hcontext : ∃ c, (volumeAfter L session).encryptionContext = some c ∧ ¬ c.IsRc4 ∧
      c.initializationVectorMode.IsSupported)
    (hwhole : 512 ∣ (volumeAfter L session).ioHandle.encryptedVolumeSize) :
    let v := volumeAfter L session
    ∃ content, content.length = v.ioHandle.encryptedVolumeSize ∧
      (∀ i < content.length, content[i]? = v.plaintext L file i) ∧
      ∀ calls, Admitted (step L) (Operation.Undisturbed L file) v calls →
        let requests := calls.filterMap Operation.request
        let reader : Reader UInt8 := ⟨content, v.currentOffset.toNat⟩
        seen (step L) volumeView v calls =
            (answers (serve volumeLimits) reader requests).map replyAnswer ∧
          (stateAfter (step L) v calls).currentOffset =
            (stateAfter (serve volumeLimits) reader requests).position := by
  intro v
  obtain ⟨content, hshows⟩ := exists_shows hL session hopen hunlocked hcontext hwhole
  refine ⟨content, hshows.size.symm, fun i hi => (hshows.plaintext hi).symm, fun calls hcalls => ?_⟩
  have hstands : StandsFor L file v ⟨content, v.currentOffset.toNat⟩ :=
    ⟨hshows, (Int.toNat_of_nonneg hshows.wellformed.currentOffset.1).symm⟩
  obtain ⟨hanswers, hafter⟩ := (volume_refines file).run hstands hcalls
  exact ⟨hanswers, hafter.position⟩

instance (ivMode : InitializationVectorMode) : Decidable ivMode.IsSupported :=
  inferInstanceAs (Decidable (_ ∧ _))

theorem exists_of_any {context : Option EncryptionContext}
    (h : (context.any fun c => ¬ c.IsRc4 ∧ c.initializationVectorMode.IsSupported) = true) :
    ∃ c, context = some c ∧ ¬ c.IsRc4 ∧ c.initializationVectorMode.IsSupported := by
  obtain ⟨c, hc, hboth⟩ := (Option.any_eq_true _ context).1 h
  exact ⟨c, hc, of_decide_eq_true hboth⟩

/-- The small volume is a file of two sectors. -/
theorem volume_standsFor_file_small :
    let v := volumeAfter smallLibraries smallSession
    ∃ content, content.length = v.ioHandle.encryptedVolumeSize ∧
      (∀ i < content.length, content[i]? = v.plaintext smallLibraries smallFile i) ∧
      ∀ calls, Admitted (step smallLibraries) (Operation.Undisturbed smallLibraries smallFile) v
          calls →
        let requests := calls.filterMap Operation.request
        let reader : Reader UInt8 := ⟨content, v.currentOffset.toNat⟩
        seen (step smallLibraries) volumeView v calls =
            (answers (serve volumeLimits) reader requests).map replyAnswer ∧
          (stateAfter (step smallLibraries) v calls).currentOffset =
            (stateAfter (serve volumeLimits) reader requests).position :=
  volume_standsFor_file (L := smallLibraries) (Libraries.ofTables_decryptsSectors _ _ _)
    smallSession smallSession_fileIoHandle (by decide +kernel)
    (exists_of_any (by decide +kernel)) (by decide +kernel)

/-! ## Copying -/

/-- Reads one after the other. -/
def copyCalls (reads : List (ReadEnvironment × ℕ)) : List Operation :=
  reads.map fun r => .readBuffer r.1 r.2

/-- The data of answers, one after the other. -/
def copied (answers : List Answer) : List UInt8 := answers.flatMap Answer.data

theorem copied_replyAnswer (replies : List (Reply UInt8)) :
    copied (replies.map replyAnswer) = joined replies := by
  induction replies with
  | nil => rfl
  | cons reply replies ih =>
    rw [copied, joined] at ih
    rw [copied, joined, List.map_cons, List.flatMap_cons, List.flatMap_cons, ih]
    congr 1
    cases reply with
    | failed => rfl
    | moved position => rfl
    | data data => rfl

/-- Reads of whole sectors from the beginning of a sector on are in step. -/
theorem Shows.admitted_copy {v : Volume} {file : FileIoHandle} {content : List UInt8}
    (h : Shows L v file content) (haligned : 512 ∣ v.currentOffset)
    {reads : List (ReadEnvironment × ℕ)}
    (hreads : ∀ r ∈ reads, r.1.Reliable ∧ 512 ∣ r.2 ∧ r.2 ≤ ssizeMax) :
    Admitted (Libluksde.step L) (Operation.Undisturbed L file) v (copyCalls reads) := by
  refine admitted_of_invariant (P := fun w => Shows L w file content ∧ 512 ∣ w.currentOffset) ?_
    ⟨h, haligned⟩
  intro operation hmem w hw
  obtain ⟨⟨env, size⟩, hr, rfl⟩ := List.mem_map.1 hmem
  obtain ⟨henv, hwhole, hsize⟩ := hreads _ hr
  simp only at henv hwhole hsize
  obtain ⟨hshows, hoffset⟩ := hw
  have hstep : w.InStep L file w.currentOffset size := Or.inr (Or.inr (Or.inl hoffset))
  obtain ⟨-, hmoved, hafter⟩ := hshows.read henv hsize hstep
  refine ⟨⟨henv, hstep⟩, ?_⟩
  simp only [Libluksde.step, volumeReadBuffer, hshows.fileIoHandle]
  refine ⟨hafter, ?_⟩
  -- a read ends at the end of a sector, or at that of the content
  have hpositive := hshows.wellformed.currentOffset.1
  obtain ⟨n, hn⟩ := hshows.wholeSectors
  have hlength : 512 ∣ ((content.drop w.currentOffset.toNat).take size).length := by
    rw [List.length_take, List.length_drop]
    omega
  change 512 ∣ (internalVolumeReadBufferFromFileIoHandle L env w (some file) size).1.currentOffset
  rw [hmoved]
  omega

/-- **Copying.**  In every state that a session reaches, reads one after the other, of any numbers
of whole sectors and from the beginning of a sector on, return the plaintext of the volume from
there up to its end without a gap, if nothing fails on them. -/
theorem volume_copied (hL : L.DecryptsSectors) (session : List Operation) {file : FileIoHandle}
    (hopen : (volumeAfter L session).fileIoHandle = some file)
    (hunlocked : (volumeAfter L session).isLocked = false)
    (hcontext : ∃ c, (volumeAfter L session).encryptionContext = some c ∧ ¬ c.IsRc4 ∧
      c.initializationVectorMode.IsSupported)
    (hwhole : 512 ∣ (volumeAfter L session).ioHandle.encryptedVolumeSize)
    (haligned : 512 ∣ (volumeAfter L session).currentOffset)
    {reads : List (ReadEnvironment × ℕ)}
    (hreads : ∀ r ∈ reads, r.1.Reliable ∧ 512 ∣ r.2 ∧ r.2 ≤ ssizeMax) :
    let v := volumeAfter L session
    let o := v.currentOffset.toNat
    let copy := copied (answers (step L) v (copyCalls reads))
    copy.length = min (reads.map Prod.snd).sum (v.ioHandle.encryptedVolumeSize - o) ∧
      ∀ i < copy.length, copy[i]? = v.plaintext L file (o + i) := by
  intro v o copy
  obtain ⟨content, hshows⟩ := exists_shows hL session hopen hunlocked hcontext hwhole
  have hstands : StandsFor L file v ⟨content, o⟩ :=
    ⟨hshows, (Int.toNat_of_nonneg hshows.wellformed.currentOffset.1).symm⟩
  obtain ⟨hanswers, -⟩ := (volume_refines file).run hstands (hshows.admitted_copy haligned hreads)
  have hseen : ∀ operation ∈ copyCalls reads, volumeView.input operation ≠ none := by
    intro operation hmem
    obtain ⟨r, -, rfl⟩ := List.mem_map.1 hmem
    exact Option.some_ne_none _
  have hrequests : (copyCalls reads).filterMap volumeView.input =
      (reads.map Prod.snd).map .read := by
    rw [copyCalls, List.filterMap_map, List.map_map]
    exact congrFun List.filterMap_eq_map reads
  have hcopy : copy = (content.drop o).take (reads.map Prod.snd).sum := by
    simp only [copy]
    have hjoined := copied_replyAnswer
      (answers (serve volumeLimits) ⟨content, o⟩ ((reads.map Prod.snd).map .read))
    rw [joined_reads] at hjoined
    · rw [← seen_eq_answers hseen, hanswers, hrequests]
      exact hjoined
    · intro size hmem
      obtain ⟨r, hr, rfl⟩ := List.mem_map.1 hmem
      exact (hreads r hr).2.2
  have hlength : copy.length =
      min (reads.map Prod.snd).sum (v.ioHandle.encryptedVolumeSize - o) := by
    rw [hcopy, List.length_take, List.length_drop, hshows.size]
  refine ⟨hlength, fun i hi => ?_⟩
  rw [hlength, hshows.size] at hi
  rw [hcopy, List.getElem?_take_of_lt (by omega), List.getElem?_drop, hshows.plaintext (by omega)]

/-- A copy of the small volume in two reads. -/
theorem volume_copied_small :
    let v := volumeAfter smallLibraries smallSession
    let copy := copied (answers (step smallLibraries) v (copyCalls [({}, 512), ({}, 4096)]))
    copy.length = min 4608 (v.ioHandle.encryptedVolumeSize - v.currentOffset.toNat) ∧
      ∀ i < copy.length,
        copy[i]? = v.plaintext smallLibraries smallFile (v.currentOffset.toNat + i) :=
  volume_copied (L := smallLibraries) (Libraries.ofTables_decryptsSectors _ _ _) smallSession
    smallSession_fileIoHandle (by decide +kernel) (exists_of_any (by decide +kernel))
    (by decide +kernel) (by decide +kernel)
    (List.forall_mem_cons.2 ⟨⟨ReadEnvironment.reliable_default, by decide, by decide⟩,
      List.forall_mem_cons.2 ⟨⟨ReadEnvironment.reliable_default, by decide, by decide⟩,
        List.forall_mem_nil _⟩⟩)

end Libluksde
