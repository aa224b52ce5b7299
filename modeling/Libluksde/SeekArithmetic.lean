import Libluksde.LockState

/-!
# The arithmetic of seeking

A seek adds an offset of the caller to the current offset or to the size of the data, in 64 bits,
and looks at the sign afterwards.  Both summands on the volume's side are never negative, so a sum
that wraps around comes out negative, and no wrong target is accepted.
-/

namespace Libluksde

open Lib.Machine

variable {L : Libraries}

/-- The sum of any offset and one that is not negative wraps around to a negative one. -/
theorem off64_add_neg {a b : ℤ} (ha : -2 ^ 63 ≤ a ∧ a < 2 ^ 63) (hb : 0 ≤ b ∧ b < 2 ^ 63)
    (hout : ¬ (0 ≤ a + b ∧ a + b < 2 ^ 63)) : off64 (a + b) < 0 := by
  by_cases hneg : a + b < 0
  · rw [off64_eq_self (by omega) (by omega)]
    exact hneg
  · unfold off64
    rw [Int.bmod_def]
    split
    · omega
    · omega

/-- Where a seek should go, in exact arithmetic, or `none` for an invalid `whence`. -/
def Volume.seekTarget (v : Volume) (offset : ℤ) (whence : ℕ) : Option ℤ :=
  if whence = seekSet then some offset
  else if whence = seekCur then some (v.currentOffset + offset)
  else if whence = seekEnd then some (v.ioHandle.encryptedVolumeSize + offset)
  else none

/-- The outcome of a seek by the exact target: it is stored and returned if it is an offset that
is not negative, and otherwise -1 is returned and nothing is changed. -/
def Volume.soughtTo (v : Volume) : Option ℤ → Volume × ℤ
  | none => (v, -1)
  | some target =>
    if 0 ≤ target ∧ target < 2 ^ 63 then ({ v with currentOffset := target }, target) else (v, -1)

/-- The end of a seek, for a sum that may have wrapped around. -/
theorem soughtTo_off64 (v : Volume) {a b : ℤ} (ha : -2 ^ 63 ≤ a ∧ a < 2 ^ 63)
    (hb : 0 ≤ b ∧ b < 2 ^ 63) :
    (if off64 (a + b) < 0 then (v, -1)
      else ({ v with currentOffset := off64 (a + b) }, off64 (a + b))) = v.soughtTo (some (b + a)) := by
  rw [Int.add_comm b a, Volume.soughtTo]
  by_cases hrange : 0 ≤ a + b ∧ a + b < 2 ^ 63
  · rw [if_pos hrange, off64_eq_self (by omega) hrange.2, if_neg (by omega)]
  · rw [if_neg hrange, if_pos (off64_add_neg ha hb hrange)]

/-- A seek on an unlocked volume. -/
theorem internalVolumeSeekOffset_eq {v : Volume} (hlocked : v.isLocked = false)
    (hcurrent : 0 ≤ v.currentOffset ∧ v.currentOffset < 2 ^ 63)
    (hsize : v.ioHandle.encryptedVolumeSize < 2 ^ 63) {offset : ℤ}
    (hoffset : -2 ^ 63 ≤ offset ∧ offset < 2 ^ 63) (whence : ℕ) :
    internalVolumeSeekOffset v offset whence = v.soughtTo (v.seekTarget offset whence) := by
  have hunlocked : ¬ v.isLocked = true := by simp [hlocked]
  have hend : off64 v.ioHandle.encryptedVolumeSize = v.ioHandle.encryptedVolumeSize :=
    off64_eq_self (by omega) (by omega)
  rw [internalVolumeSeekOffset, if_neg hunlocked, hend, Volume.seekTarget]
  simp only
  by_cases hset : whence = seekSet
  · have hcur : ¬ whence = seekCur := by
      rw [hset]
      decide
    have hno : ¬ whence = seekEnd := by
      rw [hset]
      decide
    rw [if_neg (fun h => h.2.2 hset), if_neg hcur, if_neg hno, if_pos hset, Volume.soughtTo]
    by_cases hneg : offset < 0
    · rw [if_pos hneg, if_neg (by omega)]
    · rw [if_neg hneg, if_pos ⟨by omega, hoffset.2⟩]
  by_cases hcur : whence = seekCur
  · rw [if_neg (fun h => h.1 hcur), if_pos hcur, if_neg hset, if_pos hcur]
    exact soughtTo_off64 v hoffset hcurrent
  by_cases hwhence : whence = seekEnd
  · rw [if_neg (fun h => h.2.1 hwhence), if_neg hcur, if_pos hwhence, if_neg hset, if_neg hcur,
      if_pos hwhence]
    exact soughtTo_off64 v hoffset ⟨by omega, by omega⟩
  · rw [if_pos ⟨hcur, hwhence, hset⟩, if_neg hset, if_neg hcur, if_neg hwhence]
    rfl

/-- The calls that seek and read. -/
def Operation.SeeksOrReads : Operation → Prop
  | .seekOffset _ _ | .readBuffer _ _ | .readBufferAtOffset _ _ _ => True
  | _ => False

theorem Operation.SeeksOrReads.isQuiet {operation : Operation} (h : operation.SeeksOrReads) :
    operation.IsQuiet := by
  cases operation with
  | seekOffset | readBuffer | readBufferAtOffset => trivial
  | _ => exact h.elim

/-- Seeking and reading leave a volume open and unlocked. -/
theorem stateAfter_seeksOrReads {calls : List Operation}
    (hcalls : ∀ call ∈ calls, call.SeeksOrReads) (v : Volume) :
    (stateAfter (step L) v calls).fileIoHandle = v.fileIoHandle ∧
      (stateAfter (step L) v calls).isLocked = v.isLocked := by
  refine stateAfter_invariant
    (P := fun w : Volume => w.fileIoHandle = v.fileIoHandle ∧ w.isLocked = v.isLocked) ?_ ⟨rfl, rfl⟩
    (admitted_of_forall hcalls)
  rintro call w hcall ⟨hfile, hlocked⟩
  have hquiet := step_quiet (L := L) hcall.isQuiet w
  exact ⟨hquiet.fileIoHandle.trans hfile, hquiet.isLocked.trans hlocked⟩

/-- On a volume that is open and unlocked, after any seeks and reads, the current offset is not
negative; a seek stores and returns the exact target where that is an offset, and returns -1 and
changes nothing exactly where `whence` is invalid (in its 32 bits) or the target is no offset.
There is no lock that could fail. -/
theorem volumeSeekOffset_exact {session : List Operation}
    (hopen : (volumeAfter L session).fileIoHandle ≠ none)
    (hunlocked : (volumeAfter L session).isLocked = false) {calls : List Operation}
    (hcalls : ∀ call ∈ calls, call.SeeksOrReads) (offset : Off64) (whence : ℕ) :
    let v := stateAfter (step L) (volumeAfter L session) calls
    0 ≤ v.currentOffset ∧
      volumeSeekOffset v offset.1 whence = v.soughtTo (v.seekTarget offset.1 whence) ∧
      ((volumeSeekOffset v offset.1 whence).2 = -1 ↔
        ∀ target, v.seekTarget offset.1 whence = some target →
          ¬ (0 ≤ target ∧ target < 2 ^ 63)) := by
  intro v
  have hv : v = volumeAfter L (session ++ calls) := (stateAfter_append _ _ _ _).symm
  have hwellformed : Wellformed L v := hv ▸ volumeAfter_wellformed (session ++ calls)
  obtain ⟨hfile, hlocked⟩ := stateAfter_seeksOrReads (L := L) hcalls (volumeAfter L session)
  obtain ⟨file, hfile⟩ := Option.ne_none_iff_exists'.1 (hfile.symm ▸ hopen)
  have hsize := (hwellformed.readable hfile).size
  have hseek : volumeSeekOffset v offset.1 whence = v.soughtTo (v.seekTarget offset.1 whence) := by
    rw [volumeSeekOffset, hfile]
    exact internalVolumeSeekOffset_eq (hlocked.trans hunlocked) hwellformed.currentOffset hsize
      offset.2 whence
  refine ⟨hwellformed.currentOffset.1, hseek, ?_⟩
  rw [hseek]
  rcases v.seekTarget offset.1 whence with - | target
  · simp [Volume.soughtTo]
  · by_cases hrange : 0 ≤ target ∧ target < 2 ^ 63
    · rw [Volume.soughtTo, if_pos hrange]
      constructor
      · intro hminus
        omega
      · intro hno
        exact absurd hrange (hno target rfl)
    · rw [Volume.soughtTo, if_neg hrange]
      simp only [true_iff]
      rintro other ⟨rfl⟩
      exact hrange

/-- The largest offset. -/
def lastOffset : Off64 := ⟨2 ^ 63 - 1, by norm_num⟩

/-- From the last offset of the small volume, one cannot seek any further. -/
theorem volumeSeekOffset_exact_small :
    let v := stateAfter (step smallLibraries) (volumeAfter smallLibraries smallSession)
      [.readBuffer {} 1, .seekOffset lastOffset seekSet]
    0 ≤ v.currentOffset ∧
      volumeSeekOffset v lastOffset.1 seekCur = v.soughtTo (v.seekTarget lastOffset.1 seekCur) ∧
      ((volumeSeekOffset v lastOffset.1 seekCur).2 = -1 ↔
        ∀ target, v.seekTarget lastOffset.1 seekCur = some target →
          ¬ (0 ≤ target ∧ target < 2 ^ 63)) := by
  have hopen : (volumeAfter smallLibraries smallSession).fileIoHandle ≠ none := by
    rw [smallSession_fileIoHandle]
    exact Option.some_ne_none smallFile
  have hcalls : ∀ call ∈ [Operation.readBuffer {} 1, .seekOffset lastOffset seekSet],
      call.SeeksOrReads := by
    rintro call hcall
    rcases List.mem_cons.1 hcall with rfl | hcall
    · trivial
    · obtain rfl := List.mem_singleton.1 hcall
      trivial
  exact volumeSeekOffset_exact hopen (by decide +kernel) hcalls lastOffset seekCur

end Libluksde
