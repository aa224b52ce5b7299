import Libluksde.FuseOwnership
import Libluksde.LockState

/-!
# The volumes behind a mount

The callbacks read the volumes of a mount, and a signal aborts them; nothing else is called on them.
So whatever is asked, and whatever fails, each volume goes through a session of such calls, and all
that is known about sessions is known about the volumes of a mount.
-/

namespace Libluksde

open Lib (Heap)
open Lib.Bytes Lib.Machine
open Lib.FileServer (Kind)

variable {C : Libcpath} {L : Libraries} {p : List UInt8}

/-- The calls of the library that are made on the volume of a mount. -/
def Operation.IsServing : Operation → Prop
  | .readBufferAtOffset _ _ _ | .signalAbort => True
  | _ => False

theorem Operation.IsServing.isQuiet {operation : Operation} (h : operation.IsServing) :
    operation.IsQuiet := by
  cases operation with
  | readBufferAtOffset env size offset => trivial
  | signalAbort => trivial
  | _ => exact h.elim

theorem Operation.IsServing.not_setsKey {operation : Operation} (h : operation.IsServing) :
    ¬ operation.SetsKey := by
  cases operation with
  | readBufferAtOffset env size offset => exact id
  | signalAbort => exact id
  | _ => exact h.elim

/-- Each volume of an array went through a session of such calls. -/
structure Driven (L : Libraries) (volumes volumes' : List (Option Volume)) : Prop where
  length : volumes'.length = volumes.length
  session : ∀ (i : ℕ) (volume : Volume), volumes[i]?.join = some volume →
    ∃ calls, (∀ call ∈ calls, call.IsServing) ∧
      volumes'[i]?.join = some (stateAfter (step L) volume calls)

theorem Driven.refl (volumes : List (Option Volume)) : Driven L volumes volumes :=
  ⟨rfl, fun _ _ hvolume => ⟨[], by simp, hvolume⟩⟩

theorem Driven.trans {volumes volumes' volumes'' : List (Option Volume)}
    (h : Driven L volumes volumes') (h' : Driven L volumes' volumes'') :
    Driven L volumes volumes'' := by
  refine ⟨h'.length.trans h.length, fun i volume hvolume => ?_⟩
  obtain ⟨calls, hcalls, hvolume'⟩ := h.session i volume hvolume
  obtain ⟨calls', hcalls', hvolume''⟩ := h'.session i _ hvolume'
  refine ⟨calls ++ calls', fun call hmem => ?_, ?_⟩
  · rcases List.mem_append.1 hmem with hmem | hmem
    · exact hcalls call hmem
    · exact hcalls' call hmem
  · rw [stateAfter_append]
    exact hvolume''

/-- A call to one of the volumes. -/
theorem Driven.set {volumes : List (Option Volume)} {i : ℕ} {volume : Volume}
    (hvolume : volumes[i]?.join = some volume) {operation : Operation}
    (hserving : operation.IsServing) :
    Driven L volumes (volumes.set i (some (step L operation volume).1)) := by
  refine ⟨List.length_set, fun j volume' hvolume' => ?_⟩
  by_cases hsame : i = j
  · subst hsame
    obtain rfl : volume = volume' := Option.some.inj (hvolume.symm.trans hvolume')
    refine ⟨[operation], by simpa using hserving, ?_⟩
    obtain ⟨hi, -⟩ := List.getElem?_eq_some_iff.1 (Option.join_eq_some_iff.1 hvolume)
    rw [List.getElem?_set_self hi]
    rfl
  · rw [List.getElem?_set_ne hsame]
    exact ⟨[], by simp, hvolume'⟩

/-- A signal to the volumes, by induction on the index of the last. -/
theorem signalAbortFrom_driven (lastIndex : ℕ) {volumes volumes' : List (Option Volume)}
    {result : ℤ} (h : signalAbortFrom lastIndex volumes = some (volumes', result)) :
    Driven L volumes volumes' := by
  induction lastIndex generalizing volumes with
  | zero =>
    cases h
    exact .refl _
  | succ lastIndex ih =>
    rw [signalAbortFrom] at h
    split at h
    · cases h
      exact .refl _
    · cases h
    · rename_i volume hvolume
      have hserving : Operation.signalAbort.IsServing := trivial
      have hset : Driven L volumes
          (volumes.set (lastIndex + 1) (some (step L .signalAbort volume).1)) :=
        .set (by rw [hvolume]; rfl) hserving
      exact hset.trans (ih h)

section

variable {served served' : Served} {left : List ℕ} {answer : FuseAnswer}

/-- An open leaves the volumes as they are. -/
theorem fileEntryByPath_fileSystem (mount : Mount) (allocationFails : Bool) (path : NarrowString) :
    (mount.fileEntryByPath C allocationFails path).1.fileSystem = mount.fileSystem := by
  rw [Mount.fileEntryByPath]
  split
  · rfl
  · rfl

theorem Served.opened_fileSystem (served : Served) (kind : Kind) (result : Mount × FileInfo × ℤ) :
    (served.opened kind result).1.mount.fileSystem = result.1.fileSystem := by
  rw [Served.opened]
  dsimp only
  split
  · rfl
  · rfl

/-- One request. -/
theorem fuseCall_driven (h : served.Sound p left) (request : FuseRequest)
    (hcall : fuseCall C L request served = some (served', answer)) :
    Driven L served.mount.fileSystem.volumes served'.mount.fileSystem.volumes := by
  have hsame : served'.mount.fileSystem = served.mount.fileSystem →
      Driven L served.mount.fileSystem.volumes served'.mount.fileSystem.volumes := by
    intro hfileSystem
    rw [hfileSystem]
    exact .refl _
  cases request with
  | openFile allocationFails path flags =>
    rw [fuseCall, Option.some.injEq] at hcall
    refine hsame ?_
    rw [show served' = _ from (congrArg Prod.fst hcall).symm, Served.opened_fileSystem, mountFuseOpen]
    split_ifs
    · rfl
    · rfl
    · exact fileEntryByPath_fileSystem _ _ _
  | opendir allocationFails path =>
    rw [fuseCall, Option.some.injEq] at hcall
    refine hsame ?_
    rw [show served' = _ from (congrArg Prod.fst hcall).symm, Served.opened_fileSystem, mountFuseOpendir]
    exact fileEntryByPath_fileSystem _ _ _
  | read env handle size offset =>
    rw [fuseCall] at hcall
    rcases hinfo : served.fileInfo? .file handle with - | fileInfo
    · rw [hinfo] at hcall
      cases hcall
      exact .refl _
    · obtain ⟨pointer, fileEntry, hpointer, hentry⟩ :=
        h.fileEntry (Served.fileInfo?_eq_some.1 hinfo)
      dsimp only at hpointer
      rw [hinfo] at hcall
      dsimp only at hcall
      rw [mountFuseRead] at hcall
      split_ifs at hcall with hlarge
      · cases hcall
        exact .refl _
      · rw [hpointer] at hcall
        simp only [hentry, Option.bind_eq_bind, Option.bind_some, Option.pure_def,
          mountFileEntryReadBufferAtOffset] at hcall
        rcases hindex : fileEntry.volumeIndex with - | volumeIndex
        · rw [hindex] at hcall
          cases hcall
          exact .refl _
        · rw [hindex] at hcall
          obtain ⟨volume, hvolume⟩ :=
            Mount.exists_volume h.mounted (h.isIn pointer fileEntry hentry volumeIndex hindex)
          have hserving : (Operation.readBufferAtOffset env size offset).IsServing := trivial
          have hset : Driven L served.mount.fileSystem.volumes
              (served.mount.fileSystem.volumes.set volumeIndex
                (some (step L (.readBufferAtOffset env size offset) volume).1)) :=
            .set hvolume hserving
          simp only [hvolume, Option.map_some, Option.bind_some] at hcall
          split_ifs at hcall
          all_goals
            cases hcall
            exact hset
  | readdir env handle =>
    rw [fuseCall] at hcall
    rcases hinfo : served.fileInfo? .directory handle with - | fileInfo
    · rw [hinfo] at hcall
      cases hcall
      exact .refl _
    · obtain ⟨pointer, fileEntry, hpointer, hentry⟩ :=
        h.fileEntry (Served.fileInfo?_eq_some.1 hinfo)
      obtain ⟨mount', filled, hread, hmount⟩ := exists_mountFuseReaddir
        h.mounted env hpointer hentry (h.isIn pointer fileEntry hentry)
      rw [hinfo] at hcall
      simp only [hread, Option.map_some, Option.some.injEq, Prod.mk.injEq] at hcall
      refine hsame ?_
      rw [← hcall.1]
      exact hmount.fileSystem
  | getattr allocationFails path =>
    obtain ⟨mount', statInfo, result, hattributes, hmount⟩ :=
      exists_mountFuseGetattr (C := C) h.mounted h.pathPrefix allocationFails path
    rw [fuseCall, hattributes] at hcall
    simp only [Option.map_some, Option.some.injEq, Prod.mk.injEq] at hcall
    refine hsame ?_
    rw [← hcall.1]
    exact hmount.fileSystem
  | release handle =>
    rw [fuseCall] at hcall
    rcases hinfo : served.fileInfo? .file handle with - | fileInfo
    · rw [hinfo] at hcall
      cases hcall
      exact .refl _
    · obtain ⟨pointer, fileEntry, hpointer, hentry⟩ :=
        h.fileEntry (Served.fileInfo?_eq_some.1 hinfo)
      dsimp only at hpointer
      rw [hinfo] at hcall
      dsimp only at hcall
      rw [mountFuseRelease, hpointer] at hcall
      simp only [mountFileEntryFree, hentry, Option.map_some, Option.some.injEq] at hcall
      refine hsame ?_
      rw [show served' = _ from (congrArg Prod.fst hcall).symm]
      rfl
  | releasedir handle =>
    rw [fuseCall] at hcall
    rcases hinfo : served.fileInfo? .directory handle with - | fileInfo
    · rw [hinfo] at hcall
      cases hcall
      exact .refl _
    · rw [hinfo] at hcall
      cases hcall
      exact .refl _
  | signalAbort =>
    rw [fuseCall, mountHandleSignalAbort, mountFileSystemSignalAbort] at hcall
    simp only [Option.map_map, Option.map_eq_some_iff] at hcall
    obtain ⟨⟨volumes', result⟩, hloop, hserved⟩ := hcall
    have hdriven : Driven L served.mount.fileSystem.volumes volumes' :=
      signalAbortFrom_driven _ hloop
    cases hserved
    exact hdriven

end

/-- Requests one after the other, by induction on them. -/
theorem Served.Sound.driven {served : Served} {left : List ℕ} (h : served.Sound p left)
    (requests : List FuseRequest) :
    ∃ served', stateAfter (fuseStep C L) (some served) requests = some served' ∧
      Driven L served.mount.fileSystem.volumes served'.mount.fileSystem.volumes := by
  induction requests generalizing served left with
  | nil => exact ⟨served, rfl, .refl _⟩
  | cons request requests ih =>
    obtain ⟨served₁, answer, left₁, hcall, hsound, -⟩ := h.answered (C := C) (L := L) request
    obtain ⟨served₂, hstate, hdriven⟩ := ih hsound
    have hstep : fuseStep C L request (some served) = (some served₁, some answer) := by
      simp only [fuseStep, Option.bind_some, hcall, Option.map_some]
    rw [stateAfter_cons, hstep]
    exact ⟨served₂, hstate, (fuseCall_driven h request hcall).trans hdriven⟩

end Libluksde
