import Libluksde.MountHandle

/-!
# The volumes of a mounted image as a whole

`mount_file_system_signal_abort` and `mount_handle_close` go through the volumes from the last one
down, while the index is above zero.  They reach every volume but the first, which is neither
signalled nor closed nor freed; the array is released later without its volumes.
-/

namespace Libluksde

/-! ## The loops with their calls -/

/-- The loop of `mount_file_system_signal_abort` with the indices of the volumes that
`libluksde_volume_signal_abort` is called for. -/
def signalAbortTrace : ℕ → List (Option Volume) → List ℕ × Option (List (Option Volume) × ℤ)
  | 0, volumes => ([], some (volumes, 1))
  | volumeIndex + 1, volumes =>
    match volumes[volumeIndex + 1]? with
    | none => ([], some (volumes, -1))
    | some none => ([], none)
    | some (some volume) =>
      match volumeSignalAbort volume with
      | (volume, result) =>
        let volumes := volumes.set (volumeIndex + 1) (some volume)
        if result ≠ 1 then ([volumeIndex + 1], some (volumes, -1))
        else (signalAbortTrace volumeIndex volumes).map ((volumeIndex + 1) :: ·) id

/-- A call that ends the use of a volume, with the index of the volume. -/
inductive VolumeCall
  | close (volumeIndex : ℕ)
  | free (volumeIndex : ℕ)
deriving DecidableEq, Repr

/-- The index of the volume of a call. -/
def VolumeCall.volumeIndex : VolumeCall → ℕ
  | .close volumeIndex => volumeIndex
  | .free volumeIndex => volumeIndex

/-- The loop of `mount_handle_close` with its calls of `libluksde_volume_close` and
`libluksde_volume_free`. -/
def mountCloseTrace (env : MountCloseEnvironment) :
    ℕ → List (Option Volume) → List VolumeCall × Option (List (Option Volume) × ℤ)
  | 0, volumes => ([], some (volumes, 0))
  | volumeIndex + 1, volumes =>
    match volumes[volumeIndex + 1]? with
    | none => ([], some (volumes, -1))
    | some none => ([], none)
    | some (some volume) =>
      let calls := [.close (volumeIndex + 1), .free (volumeIndex + 1)]
      let volumes := volumes.set (volumeIndex + 1) none
      if (volumeClose (env.volumeClose (volumeIndex + 1)) volume).2 ≠ 0 then
        (calls, some (volumes, -1))
      else if env.volumeFreeFails (volumeIndex + 1) then (calls, some (volumes, -1))
      else (mountCloseTrace env volumeIndex volumes).map (calls ++ ·) id

/-- The indices of the volumes that are signalled, in order. -/
def signalledVolumes (fileSystem : MountFileSystem) : List ℕ :=
  (signalAbortTrace (fileSystem.volumes.length - 1) fileSystem.volumes).1

/-- The calls that `mount_handle_close` makes for the volumes, in order. -/
def closeCalls (env : MountCloseEnvironment) (mountHandle : MountHandle) : List VolumeCall :=
  (mountCloseTrace env (mountHandle.fileSystem.volumes.length - 1)
    mountHandle.fileSystem.volumes).1

/-- The loop with its calls ends as the loop does. -/
theorem signalAbortTrace_snd (volumeIndex : ℕ) (volumes : List (Option Volume)) :
    (signalAbortTrace volumeIndex volumes).2 = signalAbortFrom volumeIndex volumes := by
  induction volumeIndex generalizing volumes with
  | zero => rfl
  | succ volumeIndex ih =>
    rw [signalAbortTrace, signalAbortFrom]
    rcases volumes[volumeIndex + 1]? with - | - | volume
    · rfl
    · rfl
    · dsimp only
      split
      · rfl
      · exact ih _

theorem mountCloseTrace_snd (env : MountCloseEnvironment) (volumeIndex : ℕ)
    (volumes : List (Option Volume)) :
    (mountCloseTrace env volumeIndex volumes).2 = mountCloseFrom env volumeIndex volumes := by
  induction volumeIndex generalizing volumes with
  | zero => rfl
  | succ volumeIndex ih =>
    rw [mountCloseTrace, mountCloseFrom]
    rcases volumes[volumeIndex + 1]? with - | - | volume
    · rfl
    · rfl
    · dsimp only
      split
      · rfl
      · split
        · rfl
        · exact ih _

/-! ## The volumes that are there -/

/-- The memory of no volume is released. -/
def MountFileSystem.IsMounted (fileSystem : MountFileSystem) : Prop := none ∉ fileSystem.volumes

/-- The volumes with an index from 1 up to a last one are there. -/
def VolumesFrom1 (lastIndex : ℕ) (volumes : List (Option Volume)) : Prop :=
  ∀ i, 1 ≤ i → i ≤ lastIndex → ∃ volume, volumes[i]? = some (some volume)

theorem MountFileSystem.IsMounted.volumesFrom1 {fileSystem : MountFileSystem}
    (h : fileSystem.IsMounted) :
    VolumesFrom1 (fileSystem.volumes.length - 1) fileSystem.volumes := by
  rintro i hone hlast
  have hi : i < fileSystem.volumes.length := by omega
  have hentry := List.getElem?_eq_getElem hi
  rcases hvolume : fileSystem.volumes[i] with - | volume
  · exact absurd (hvolume ▸ List.getElem_mem hi) h
  · exact ⟨volume, by rw [hentry, hvolume]⟩

/-- Whatever is done with the last of them, the ones before it are there. -/
theorem VolumesFrom1.set {lastIndex : ℕ} {volumes : List (Option Volume)}
    (h : VolumesFrom1 (lastIndex + 1) volumes) (entry : Option Volume) :
    VolumesFrom1 lastIndex (volumes.set (lastIndex + 1) entry) := by
  rintro i hone hlast
  rw [List.getElem?_set_ne (by omega)]
  exact h i hone (by omega)

/-! ## Signalling -/

/-- The loop signals the volumes down to the index 1, each once. -/
theorem signalAbortTrace_eq {lastIndex : ℕ} {volumes : List (Option Volume)}
    (h : VolumesFrom1 lastIndex volumes) :
    ∃ volumes', signalAbortTrace lastIndex volumes =
      ((List.range' 1 lastIndex).reverse, some (volumes', 1)) := by
  induction lastIndex generalizing volumes with
  | zero => exact ⟨volumes, rfl⟩
  | succ lastIndex ih =>
    rcases h (lastIndex + 1) (by omega) le_rfl with ⟨volume, hvolume⟩
    rcases ih (h.set (some (volumeSignalAbort volume).1)) with ⟨volumes', hrest⟩
    refine ⟨volumes', ?_⟩
    rw [signalAbortTrace, hvolume]
    dsimp only [volumeSignalAbort] at hrest ⊢
    rw [if_neg (not_not.2 rfl), hrest, List.range'_1_concat, List.reverse_append, Nat.add_comm 1]
    rfl

/-- The signalled volumes are all those with an index above zero, and signalling succeeds. -/
theorem signalledVolumes_eq {fileSystem : MountFileSystem} (h : fileSystem.IsMounted) :
    signalledVolumes fileSystem = (List.range' 1 (fileSystem.volumes.length - 1)).reverse ∧
      ∃ fileSystem', mountFileSystemSignalAbort fileSystem = some (fileSystem', 1) := by
  rcases signalAbortTrace_eq h.volumesFrom1 with ⟨volumes', htrace⟩
  constructor
  · rw [signalledVolumes, htrace]
  · rw [mountFileSystemSignalAbort, ← signalAbortTrace_snd, htrace]
    exact ⟨_, rfl⟩

theorem mem_signalledVolumes_iff {fileSystem : MountFileSystem} (h : fileSystem.IsMounted)
    {volumeIndex : ℕ} (hindex : volumeIndex < fileSystem.volumes.length) :
    volumeIndex ∈ signalledVolumes fileSystem ↔ volumeIndex ≠ 0 := by
  rw [(signalledVolumes_eq h).1, List.mem_reverse, List.mem_range'_1]
  omega

/-! ## Closing -/

/-- The close of a volume does not succeed. -/
def VolumeCloseFails (env : CloseEnvironment) (volume : Volume) : Prop :=
  volume.fileIoHandle = none ∨
    (volume.fileIoHandleOpenedInLibrary ∧ env.handleCloseFails) ∨
    (volume.volumeHeader ≠ none ∧ env.headerFreeFails) ∨
    (volume.sectorDataVector ≠ none ∧ env.vectorFreeFails) ∨
    (volume.encryptionContext ≠ none ∧ env.contextFreeFails)

theorem volumeClose_result_ne_zero_iff (env : CloseEnvironment) (volume : Volume) :
    (volumeClose env volume).2 ≠ 0 ↔ VolumeCloseFails env volume := by
  rw [volumeClose, VolumeCloseFails]
  cases volume.fileIoHandle with
  | none => simp
  | some file =>
    dsimp only
    split
    · rename_i hfails
      constructor
      · rintro -
        exact Or.inr hfails
      · rintro - hzero
        cases hzero
    · rename_i hsucceeds
      constructor
      · rintro hne
        exact absurd rfl hne
      · rintro (hnone | hfails)
        · cases hnone
        · exact absurd hfails hsucceeds

/-- The volume at an index is not closed, or not freed, without error. -/
def VolumeFails (env : MountCloseEnvironment) (volumes : List (Option Volume)) (i : ℕ) : Prop :=
  (∃ volume, volumes[i]? = some (some volume) ∧ VolumeCloseFails (env.volumeClose i) volume) ∨
    env.volumeFreeFails i = true

/-- The calls for a list of volumes, each closed and then freed. -/
def callsFor (indices : List ℕ) : List VolumeCall := indices.flatMap fun i => [.close i, .free i]

/-- What happens to a volume does not depend on the ones behind it. -/
theorem volumeFails_set_iff {env : MountCloseEnvironment} {volumes : List (Option Volume)}
    {i lastIndex : ℕ} (hi : i ≤ lastIndex) (entry : Option Volume) :
    VolumeFails env (volumes.set (lastIndex + 1) entry) i ↔ VolumeFails env volumes i := by
  rw [VolumeFails, VolumeFails, List.getElem?_set_ne (by omega)]

variable {env : MountCloseEnvironment}

/-- One round of the loop: a volume that fails ends it. -/
theorem mountCloseTrace_succ {lastIndex : ℕ} {volumes : List (Option Volume)} {volume : Volume}
    (hvolume : volumes[lastIndex + 1]? = some (some volume)) :
    (VolumeFails env volumes (lastIndex + 1) → ∃ volumes',
      (mountCloseTrace env (lastIndex + 1) volumes).2 = some (volumes', -1)) ∧
    (¬ VolumeFails env volumes (lastIndex + 1) →
      mountCloseTrace env (lastIndex + 1) volumes =
        (mountCloseTrace env lastIndex (volumes.set (lastIndex + 1) none)).map
          ([.close (lastIndex + 1), .free (lastIndex + 1)] ++ ·) id) := by
  have hfails : VolumeFails env volumes (lastIndex + 1) ↔
      (volumeClose (env.volumeClose (lastIndex + 1)) volume).2 ≠ 0 ∨
        env.volumeFreeFails (lastIndex + 1) = true := by
    rw [volumeClose_result_ne_zero_iff, VolumeFails, hvolume]
    simp
  rw [hfails, mountCloseTrace, hvolume]
  dsimp only
  constructor
  · rintro (hclose | hfree)
    · rw [if_pos hclose]
      exact ⟨_, rfl⟩
    · rw [if_pos hfree]
      split
      · exact ⟨_, rfl⟩
      · exact ⟨_, rfl⟩
  · intro hsucceeds
    rcases not_or.1 hsucceeds with ⟨hclose, hfree⟩
    rw [if_neg hclose, if_neg hfree]

/-- The loop closes and frees the volumes down to the index 1, each once, and succeeds, if none of
them fails. -/
theorem mountCloseTrace_of_succeeds {lastIndex : ℕ} {volumes : List (Option Volume)}
    (h : VolumesFrom1 lastIndex volumes)
    (hsucceeds : ∀ i, 1 ≤ i → i ≤ lastIndex → ¬ VolumeFails env volumes i) :
    ∃ volumes', mountCloseTrace env lastIndex volumes =
      (callsFor (List.range' 1 lastIndex).reverse, some (volumes', 0)) := by
  induction lastIndex generalizing volumes with
  | zero => exact ⟨volumes, rfl⟩
  | succ lastIndex ih =>
    rcases h (lastIndex + 1) (by omega) le_rfl with ⟨volume, hvolume⟩
    have hround := (mountCloseTrace_succ hvolume).2 (hsucceeds _ (by omega) le_rfl)
    have hbefore : ∀ i, 1 ≤ i → i ≤ lastIndex →
        ¬ VolumeFails env (volumes.set (lastIndex + 1) none) i := by
      intro i hone hlast
      rw [volumeFails_set_iff hlast]
      exact hsucceeds i hone (by omega)
    -- the indices of the rounds, the last one first
    rcases ih (h.set none) hbefore with ⟨volumes', hrest⟩
    refine ⟨volumes', ?_⟩
    rw [hround, hrest, List.range'_1_concat, List.reverse_append, Nat.add_comm 1]
    rfl

/-- It does not succeed if one of them fails. -/
theorem mountCloseTrace_of_fails {lastIndex : ℕ} {volumes : List (Option Volume)}
    (h : VolumesFrom1 lastIndex volumes) {i : ℕ} (hone : 1 ≤ i) (hlast : i ≤ lastIndex)
    (hfails : VolumeFails env volumes i) :
    ∃ volumes', (mountCloseTrace env lastIndex volumes).2 = some (volumes', -1) := by
  induction lastIndex generalizing volumes with
  | zero => omega
  | succ lastIndex ih =>
    rcases h (lastIndex + 1) (by omega) le_rfl with ⟨volume, hvolume⟩
    by_cases hround : VolumeFails env volumes (lastIndex + 1)
    · exact (mountCloseTrace_succ hvolume).1 hround
    · have hbefore : i ≤ lastIndex := by
        rcases Nat.lt_or_eq_of_le hlast with hlt | rfl
        · omega
        · exact absurd hfails hround
      rcases ih (h.set none) hbefore ((volumeFails_set_iff hbefore none).2 hfails) with
        ⟨volumes', hrest⟩
      refine ⟨volumes', ?_⟩
      rw [(mountCloseTrace_succ hvolume).2 hround]
      exact congrArg id hrest

/-- Closing a mount handle fails on its inputs: one of the volumes that are reached does, or the
file handle is not closed and freed without error. -/
def MountCloseFails (env : MountCloseEnvironment) (mountHandle : MountHandle) : Prop :=
  (∃ i, 1 ≤ i ∧ i < mountHandle.fileSystem.volumes.length ∧
      VolumeFails env mountHandle.fileSystem.volumes i) ∨
    mountHandle.fileIoHandle = none ∨ env.handleCloseFails = true ∨ env.handleFreeFails = true

/-- Where closing fails the result is not 0. -/
theorem mountHandleClose_of_fails {mountHandle : MountHandle}
    (hmounted : mountHandle.fileSystem.IsMounted) (hfails : MountCloseFails env mountHandle)
    (mountHandle' : MountHandle) : mountHandleClose env mountHandle ≠ some (mountHandle', 0) := by
  intro hzero
  rw [mountHandleClose, ← mountCloseTrace_snd] at hzero
  by_cases hvolumes : ∃ i, 1 ≤ i ∧ i < mountHandle.fileSystem.volumes.length ∧
      VolumeFails env mountHandle.fileSystem.volumes i
  · -- the loop ends at a volume
    rcases hvolumes with ⟨i, hone, hi, hvolume⟩
    rcases mountCloseTrace_of_fails hmounted.volumesFrom1 hone (by omega) hvolume with
      ⟨volumes', htrace⟩
    rw [htrace, Option.map_some] at hzero
    dsimp only at hzero
    rw [if_pos (by decide)] at hzero
    cases hzero
  · -- the loop succeeds, and the file handle is left
    have hfile := hfails.resolve_left hvolumes
    push Not at hvolumes
    rcases mountCloseTrace_of_succeeds hmounted.volumesFrom1
      (fun i hone hlast => hvolumes i hone (by omega)) with ⟨volumes', htrace⟩
    rw [htrace, Option.map_some] at hzero
    dsimp only at hzero
    rw [if_neg (by decide)] at hzero
    split at hzero
    · cases hzero
    · rename_i hclosed
      rcases hfile with hnone | hclose | hfree
      · exact hclosed (Or.inl hnone)
      · exact hclosed (Or.inr hclose)
      · rw [if_pos hfree] at hzero
        cases hzero

/-- Where it does not fail the result is 0, and the volumes with an index above zero are closed and
freed. -/
theorem mountHandleClose_of_succeeds {mountHandle : MountHandle}
    (hmounted : mountHandle.fileSystem.IsMounted) (hfails : ¬ MountCloseFails env mountHandle) :
    closeCalls env mountHandle =
        callsFor (List.range' 1 (mountHandle.fileSystem.volumes.length - 1)).reverse ∧
      ∃ mountHandle', mountHandleClose env mountHandle = some (mountHandle', 0) := by
  rw [MountCloseFails] at hfails
  push Not at hfails
  rcases hfails with ⟨hvolumes, hfile, hclose, hfree⟩
  rcases mountCloseTrace_of_succeeds hmounted.volumesFrom1
    (fun i hone hlast => hvolumes i hone (by omega)) with ⟨volumes', htrace⟩
  constructor
  · rw [closeCalls, htrace]
  · rw [mountHandleClose, ← mountCloseTrace_snd, htrace, Option.map_some]
    dsimp only
    rw [if_neg (by decide), if_neg (not_or.2 ⟨hfile, hclose⟩), if_neg hfree]
    exact ⟨_, rfl⟩

/-! ## Whole collections -/

/-- Where signalling succeeds, every volume is signalled. -/
def SignalsEveryVolume (fileSystem : MountFileSystem) : Prop :=
  ∀ fileSystem', mountFileSystemSignalAbort fileSystem = some (fileSystem', 1) →
    ∀ volumeIndex < fileSystem.volumes.length, volumeIndex ∈ signalledVolumes fileSystem

/-- Where closing succeeds, every volume is closed once and freed once. -/
def ClosesEveryVolume (env : MountCloseEnvironment) (mountHandle : MountHandle) : Prop :=
  ∀ mountHandle', mountHandleClose env mountHandle = some (mountHandle', 0) →
    ∀ volumeIndex < mountHandle.fileSystem.volumes.length,
      (closeCalls env mountHandle).count (.close volumeIndex) = 1 ∧
        (closeCalls env mountHandle).count (.free volumeIndex) = 1

/-- There are as many calls of each kind for a volume as its index is listed. -/
theorem count_callsFor (indices : List ℕ) (volumeIndex : ℕ) :
    (callsFor indices).count (.close volumeIndex) = indices.count volumeIndex ∧
      (callsFor indices).count (.free volumeIndex) = indices.count volumeIndex := by
  induction indices with
  | nil => exact ⟨rfl, rfl⟩
  | cons i indices ih =>
    have hcons : callsFor (i :: indices) = .close i :: .free i :: callsFor indices := rfl
    rw [hcons]
    constructor
    · rw [List.count_cons, List.count_cons, ih.1, List.count_cons]
      simp
    · rw [List.count_cons, List.count_cons, ih.2, List.count_cons]
      simp

/-- Each index above zero is reached once, the index zero never. -/
theorem count_range'_reverse {n volumeIndex : ℕ} (h : volumeIndex < n) :
    (List.range' 1 (n - 1)).reverse.count volumeIndex = if volumeIndex = 0 then 0 else 1 := by
  rw [List.count_reverse, (List.nodup_range').count]
  by_cases hzero : volumeIndex = 0
  · rw [if_pos hzero, if_neg]
    rw [List.mem_range'_1]
    omega
  · rw [if_neg hzero, if_pos]
    rw [List.mem_range'_1]
    omega

/-- Where closing succeeds, each volume is closed and freed as often as its index is reached. -/
theorem count_closeCalls {mountHandle mountHandle' : MountHandle}
    (hmounted : mountHandle.fileSystem.IsMounted)
    (hclose : mountHandleClose env mountHandle = some (mountHandle', 0)) {volumeIndex : ℕ}
    (h : volumeIndex < mountHandle.fileSystem.volumes.length) :
    (closeCalls env mountHandle).count (.close volumeIndex) = (if volumeIndex = 0 then 0 else 1) ∧
      (closeCalls env mountHandle).count (.free volumeIndex) =
        (if volumeIndex = 0 then 0 else 1) := by
  have hsucceeds : ¬ MountCloseFails env mountHandle := by
    intro hfails
    exact mountHandleClose_of_fails hmounted hfails mountHandle' hclose
  rw [(mountHandleClose_of_succeeds hmounted hsucceeds).1, (count_callsFor _ _).1,
    (count_callsFor _ _).2, count_range'_reverse h]
  exact ⟨rfl, rfl⟩

theorem signalsEveryVolume_iff {fileSystem : MountFileSystem} (h : fileSystem.IsMounted) :
    SignalsEveryVolume fileSystem ↔ fileSystem.volumes = [] := by
  constructor
  · intro hevery
    rcases (signalledVolumes_eq h).2 with ⟨fileSystem', hone⟩
    by_contra hne
    have hpos := List.length_pos_of_ne_nil hne
    exact (mem_signalledVolumes_iff h hpos).1 (hevery fileSystem' hone 0 hpos) rfl
  · rintro hnil fileSystem' - volumeIndex hindex
    rw [hnil] at hindex
    cases hindex

theorem closesEveryVolume_iff {mountHandle : MountHandle}
    (hmounted : mountHandle.fileSystem.IsMounted) :
    ClosesEveryVolume env mountHandle ↔
      mountHandle.fileSystem.volumes = [] ∨ MountCloseFails env mountHandle := by
  constructor
  · intro hevery
    by_contra hnot
    rcases not_or.1 hnot with ⟨hne, hsucceeds⟩
    rcases (mountHandleClose_of_succeeds hmounted hsucceeds).2 with ⟨mountHandle', hclose⟩
    have hpos := List.length_pos_of_ne_nil hne
    have hfirst := (hevery mountHandle' hclose 0 hpos).1
    rw [(count_closeCalls hmounted hclose hpos).1] at hfirst
    cases hfirst
  · rintro (hnil | hfails) mountHandle' hclose volumeIndex hindex
    · rw [hnil] at hindex
      cases hindex
    · exact absurd hclose (mountHandleClose_of_fails hmounted hfails mountHandle')

/-- Signalling reaches every volume only of a file system without volumes, and so does closing where
it succeeds.  Both reach all volumes but the first, and closing reaches each of these once. -/
theorem wholeCollection_iff {mountHandle : MountHandle}
    (hmounted : mountHandle.fileSystem.IsMounted) (env : MountCloseEnvironment) :
    (SignalsEveryVolume mountHandle.fileSystem ↔ mountHandle.fileSystem.volumes = []) ∧
    (ClosesEveryVolume env mountHandle ↔
      mountHandle.fileSystem.volumes = [] ∨ MountCloseFails env mountHandle) ∧
    ∀ volumeIndex < mountHandle.fileSystem.volumes.length,
      (volumeIndex ∈ signalledVolumes mountHandle.fileSystem ↔ volumeIndex ≠ 0) ∧
      ∀ mountHandle', mountHandleClose env mountHandle = some (mountHandle', 0) →
        (closeCalls env mountHandle).count (.close volumeIndex) =
            (if volumeIndex = 0 then 0 else 1) ∧
          (closeCalls env mountHandle).count (.free volumeIndex) =
            (if volumeIndex = 0 then 0 else 1) := by
  refine ⟨signalsEveryVolume_iff hmounted, closesEveryVolume_iff hmounted, ?_⟩
  rintro volumeIndex hindex
  refine ⟨mem_signalledVolumes_iff hmounted hindex, ?_⟩
  rintro mountHandle' hclose
  exact count_closeCalls hmounted hclose hindex

/-- The files of the example are empty. -/
theorem emptyImage_length : ([] : List UInt8).length < 2 ^ 63 := by decide

/-- A mount handle with open volumes. -/
def openMountHandle (numberOfVolumes : ℕ) : MountHandle :=
  let file : FileIoHandle := ⟨[], true, emptyImage_length⟩
  { mountHandleInitialize 0 with
    fileSystem := ⟨none, 0, List.replicate numberOfVolumes
      (some { volumeInitialize with fileIoHandle := file })⟩
    fileIoHandle := some file }

theorem wholeCollection_iff_twoVolumes :
    ¬ SignalsEveryVolume (openMountHandle 2).fileSystem ∧
      1 ∈ signalledVolumes (openMountHandle 2).fileSystem ∧
      ClosesEveryVolume { handleCloseFails := true } (openMountHandle 2) ∧
      (closeCalls {} (openMountHandle 2)).count (.close 1) = 1 := by
  have hmounted : (openMountHandle 2).fileSystem.IsMounted := by
    intro hmem
    cases List.eq_of_mem_replicate hmem
  have hclose : mountHandleClose {} (openMountHandle 2) =
      some ({ openMountHandle 2 with
        fileSystem := ⟨none, 0, [(openMountHandle 2).fileSystem.volumes[0], none]⟩
        fileIoHandle := none }, 0) := rfl
  have hfails : MountCloseFails { handleCloseFails := true } (openMountHandle 2) :=
    Or.inr (Or.inr (Or.inl rfl))
  refine ⟨fun hevery => ?_, ?_, ?_, ?_⟩
  · cases (wholeCollection_iff hmounted {}).1.1 hevery
  · exact ((wholeCollection_iff hmounted {}).2.2 1 (by decide)).1.2 (by decide)
  · exact (wholeCollection_iff hmounted { handleCloseFails := true }).2.1.2 (Or.inr hfails)
  · exact (((wholeCollection_iff hmounted {}).2.2 1 (by decide)).2 _ hclose).1

/-- Of one volume, signalling and closing succeed and no volume is signalled, closed or freed. -/
theorem oneVolume_skipped :
    ¬ SignalsEveryVolume (openMountHandle 1).fileSystem ∧
      ¬ ClosesEveryVolume {} (openMountHandle 1) ∧
      mountFileSystemSignalAbort (openMountHandle 1).fileSystem =
        some ((openMountHandle 1).fileSystem, 1) ∧
      signalledVolumes (openMountHandle 1).fileSystem = [] ∧
      mountHandleClose {} (openMountHandle 1) =
        some ({ openMountHandle 1 with fileIoHandle := none }, 0) ∧
      closeCalls {} (openMountHandle 1) = [] := by
  have hsignalled : signalledVolumes (openMountHandle 1).fileSystem = [] := rfl
  have hcalls : closeCalls {} (openMountHandle 1) = [] := rfl
  have hsignal : mountFileSystemSignalAbort (openMountHandle 1).fileSystem =
      some ((openMountHandle 1).fileSystem, 1) := rfl
  have hclose : mountHandleClose {} (openMountHandle 1) =
      some ({ openMountHandle 1 with fileIoHandle := none }, 0) := rfl
  refine ⟨?_, ?_, hsignal, hsignalled, hclose, hcalls⟩
  · intro hevery
    have hfirst := hevery _ hsignal 0 (by decide)
    rw [hsignalled] at hfirst
    cases hfirst
  · intro hevery
    have hfirst := (hevery _ hclose 0 (by decide)).1
    rw [hcalls] at hfirst
    cases hfirst

end Libluksde
