import Libluksde.Luksdemount
import Libluksde.FuseSessions
import Libluksde.KeySoundness
import Libluksde.KeyErasure

/-!
# The session of the mount tool

What the tool calls on its volume is a session: keys are set on a new volume, it is opened, and
where it stays locked it is given a password and unlocked; then it is read.  So the volume that is
served is always one that was unlocked with a key that agrees with its header.
-/

namespace Libluksde

open Lib (Heap)
open Lib.Bytes Lib.Machine

variable {C : Libcpath} {L : Libraries} {B : Base16}

/-! ## Volumes of sessions -/

/-- A volume after a session in which keys are set on closed volumes only, and no open fails behind
a successful unlocking. -/
def Reached (L : Libraries) (v : Volume) : Prop :=
  ∃ session, Admitted (step L) (KeepsKeys L) volumeInitialize session ∧ v = volumeAfter L session

theorem Reached.new : Reached L volumeInitialize := ⟨[], trivial, rfl⟩

theorem Reached.step {v : Volume} (h : Reached L v) {operation : Operation}
    (hkeeps : KeepsKeys L operation v) : Reached L (Libluksde.step L operation v).1 := by
  obtain ⟨session, hadmitted, rfl⟩ := h
  refine ⟨session ++ [operation], ?_, ?_⟩
  · exact (admitted_append _ _ _ _ _).2 ⟨hadmitted, hkeeps, trivial⟩
  · rw [volumeAfter, volumeAfter, stateAfter_append]
    rfl

/-- A call that neither sets a key nor opens the volume. -/
theorem Reached.of_quiet {v : Volume} (h : Reached L v) {operation : Operation}
    (hquiet : operation.IsQuiet) (hkey : ¬ operation.SetsKey) :
    Reached L (Libluksde.step L operation v).1 := by
  refine h.step ⟨fun hsets => absurd hsets hkey, ?_⟩
  cases operation with
  | openFileIoHandle env file accessFlags => exact hquiet.elim
  | _ => trivial

/-! ## The opening -/

/-- The volume that is given the key and the password. -/
theorem mountVolumeWithKeys_reached {env : MountOpenEnvironment} {mountHandle : MountHandle}
    {volume : Volume} (h : mountVolumeWithKeys L env mountHandle = some volume) :
    Reached L volume := by
  have hset : Reached L (step L (.setKey (mountHandle.keyData.bytes.take mountHandle.keyDataSize))
      volumeInitialize).1 := Reached.new.step ⟨fun _ => rfl, trivial⟩
  have hkeyed : Reached L (if mountHandle.keyDataSize > 0 then
      volumeSetKey volumeInitialize (mountHandle.keyData.bytes.take mountHandle.keyDataSize)
      else (volumeInitialize, 1)).1 := by
    split_ifs
    · exact hset
    · exact .new
  rw [mountVolumeWithKeys] at h
  by_cases hfails : env.volumeInitializeFails
  · rw [if_pos hfails] at h
    cases h
  rw [if_neg hfails] at h
  generalize (if mountHandle.keyDataSize > 0 then
    volumeSetKey volumeInitialize (mountHandle.keyData.bytes.take mountHandle.keyDataSize)
    else (volumeInitialize, 1)) = keyed at h hkeyed
  obtain ⟨v, result⟩ := keyed
  dsimp only at h hkeyed
  by_cases hresult : result ≠ 1
  · rw [if_pos hresult] at h
    cases h
  rw [if_neg hresult] at h
  cases hpassword : mountHandle.password with
  | none =>
    rw [hpassword] at h
    cases h
    exact hkeyed
  | some password =>
    have hgiven : Reached L (step L (.setUtf8Password env.setPassword password) v).1 :=
      hkeyed.of_quiet trivial id
    rw [hpassword] at h
    dsimp only at h
    split_ifs at h
    cases h
    exact hgiven

/-- The volume that the prompt leaves was unlocked. -/
theorem mountPromptAndUnlock_reached {env : MountOpenEnvironment} {v volume : Volume}
    (hv : Reached L v) (h : mountPromptAndUnlock L env v = some volume) :
    Reached L volume ∧ volume.isLocked = false := by
  rw [mountPromptAndUnlock] at h
  split at h
  · cases h
  · rename_i password hprompt
    have hgiven : Reached L (step L (.setUtf8Password env.setPromptedPassword password) v).1 :=
      hv.of_quiet trivial id
    have hentered : Reached L (if password.length > 0 then
        volumeSetUtf8Password L env.setPromptedPassword v password else (v, 1)).1 := by
      split_ifs
      · exact hgiven
      · exact hv
    generalize (if password.length > 0 then
      volumeSetUtf8Password L env.setPromptedPassword v password else (v, 1)) = entered
      at h hentered
    obtain ⟨w, result⟩ := entered
    dsimp only at h hentered
    split_ifs at h with hfailed hlocked
    cases h
    have hafter : Reached L (step L (.unlock env.unlock) w).1 :=
      hentered.step ⟨False.elim, trivial⟩
    refine ⟨hafter, ?_⟩
    have hwellformed : Wellformed L w := by
      obtain ⟨session, -, rfl⟩ := hentered
      exact volumeAfter_wellformed session
    rcases volumeUnlock_cases hwellformed env.unlock with
      ⟨hunlocked, hsame⟩ | ⟨-, -, w', result', hunlock, hstep⟩
    · rw [hsame]
      exact hunlocked
    · rw [hunlock] at hlocked ⊢
      have hone : result' = 1 := by
        rcases hstep.range with rfl | rfl | rfl
        · exact absurd (Or.inl rfl) hlocked
        · exact absurd (Or.inr rfl) hlocked
        · rfl
      exact (hstep.unlocked hone).2

/-- The volume that is opened is unlocked. -/
theorem mountOpenVolume_reached {env : MountOpenEnvironment} {mountHandle : MountHandle}
    {v volume : Volume} {file file' : FileIoHandle} (hv : Reached L v)
    (h : mountOpenVolume L env mountHandle v file = some (volume, file')) :
    Reached L volume ∧ volume.isLocked = false := by
  have hwellformed : Wellformed L v := by
    obtain ⟨session, -, rfl⟩ := hv
    exact volumeAfter_wellformed session
  rw [mountOpenVolume] at h
  dsimp only at h
  by_cases hfailed : (volumeOpenFileIoHandle L env.openVolume v file 1).2.2 ≠ 1
  · rw [if_pos hfailed] at h
    cases h
  -- an open that succeeds does not fail behind the unlocking
  have hkeeps : KeepsKeys L (.openFileIoHandle env.openVolume file 1) v := by
    refine ⟨False.elim, fun hfails => hfailed ?_⟩
    rw [(hfails.isLocked hwellformed).1]
    decide
  have hopened : Reached L (volumeOpenFileIoHandle L env.openVolume v file 1).1 := hv.step hkeeps
  rw [if_neg hfailed] at h
  by_cases hlocked : volumeIsLocked (volumeOpenFileIoHandle L env.openVolume v file 1).1 = 0
  · rw [if_pos hlocked] at h
    cases h
    refine ⟨hopened, ?_⟩
    refine Bool.eq_false_of_not_eq_true fun htrue => ?_
    rw [volumeIsLocked, if_pos htrue] at hlocked
    cases hlocked
  · rw [if_neg hlocked] at h
    split_ifs at h
    obtain ⟨unlocked, hprompt, heq⟩ := Option.map_eq_some_iff.1 h
    cases heq
    exact mountPromptAndUnlock_reached hopened hprompt

/-- A volume is shown when the source was opened. -/
theorem mountHandleOpen_reached {env : MountOpenEnvironment} {mountHandle mountHandle' : MountHandle}
    (h : mountHandleOpen L env mountHandle = (mountHandle', 1)) :
    ∃ volume, Reached L volume ∧ volume.isLocked = false ∧
      mountHandle'.fileSystem =
        (mountFileSystemAppendVolume false mountHandle.fileSystem volume).1 := by
  rw [mountHandleOpen] at h
  cases hrange : env.fileRange mountHandle.volumeOffset with
  | none =>
    rw [hrange] at h
    cases h
  | some file =>
    rw [hrange] at h
    dsimp only at h
    cases hkeys : mountVolumeWithKeys L env mountHandle with
    | none =>
      rw [hkeys] at h
      cases h
    | some v =>
      rw [hkeys] at h
      dsimp only at h
      cases hopen : mountOpenVolume L env mountHandle v file with
      | none =>
        rw [hopen] at h
        cases h
      | some opened =>
        obtain ⟨volume, file'⟩ := opened
        obtain ⟨hreached, hunlocked⟩ :=
          mountOpenVolume_reached (mountVolumeWithKeys_reached hkeys) hopen
        rw [hopen] at h
        dsimp only at h
        cases happend : env.appendFails with
        | true =>
          rw [happend] at h
          cases h
        | false =>
          rw [happend] at h
          cases h
          exact ⟨volume, hreached, hunlocked, rfl⟩

/-! ## The program -/

/-- A step that is followed by another one succeeded. -/
theorem exists_of_bind_eq_ok {ε α β : Type} {x : Except ε α} {f : α → Except ε β} {b : β}
    (h : (x >>= f) = .ok b) : ∃ a, x = .ok a ∧ f a = .ok b := by
  cases x with
  | error e => cases h
  | ok a => exact ⟨a, rfl, h⟩

theorem required_eq_ok {result : MountHandle × ℤ} {mountHandle : MountHandle}
    (h : required result = .ok mountHandle) : result = (mountHandle, 1) := by
  rw [required] at h
  split_ifs at h with hresult
  cases h
  exact Prod.ext rfl (not_not.1 hresult)

theorem setOption_fileSystem {set : MountHandle → List UInt8 → MountHandle × ℤ}
    (hset : ∀ mountHandle string, (set mountHandle string).1.fileSystem = mountHandle.fileSystem)
    {option : Option (List UInt8)} {mountHandle mountHandle' : MountHandle}
    (h : setOption set option mountHandle = .ok mountHandle') :
    mountHandle'.fileSystem = mountHandle.fileSystem := by
  cases option with
  | none =>
    cases h
    rfl
  | some string =>
    have hok := required_eq_ok h
    rw [← hset mountHandle string, hok]

theorem mountHandleSetKey_fileSystem (mountHandle : MountHandle) (string : List UInt8) :
    (mountHandleSetKey B mountHandle string).1.fileSystem = mountHandle.fileSystem := by
  rw [mountHandleSetKey]
  split_ifs
  · rfl
  · cases B.decode string with
    | none => rfl
    | some bytes => rfl

theorem MountHandle.fileSystem_volumeOffset (mountHandle : MountHandle) (volumeOffset : ℤ) :
    ({ mountHandle with volumeOffset := volumeOffset } : MountHandle).fileSystem =
      mountHandle.fileSystem := rfl

theorem mountHandleSetOffset_fileSystem (mountHandle : MountHandle) (string : List UInt8) :
    (mountHandleSetOffset mountHandle string).1.fileSystem = mountHandle.fileSystem := by
  rw [mountHandleSetOffset]
  cases mountHandleSystemStringCopyFrom64BitInDecimal string with
  | none => rfl
  | some value64bit => exact mountHandle.fileSystem_volumeOffset (off64 value64bit.toNat)

theorem zero_not_mem_luksdePathPrefix : (0 : UInt8) ∉ luksdePathPrefix := by decide

/-- The mount handle when the loop is reached: it has the path prefix of the tool and one volume,
which was unlocked. -/
theorem luksdemountHandle_reached {env : LuksdemountEnvironment} {options : LuksdemountOptions}
    {source : List UInt8} {mountHandle : MountHandle}
    (h : luksdemountHandle L B env options source = .ok mountHandle) :
    mountHandle.fileSystem.HasPathPrefix luksdePathPrefix ∧
      ∃ volume, Reached L volume ∧ volume.isLocked = false ∧
        mountHandle.fileSystem.volumes = [some volume] := by
  rw [luksdemountHandle] at h
  by_cases hfails : env.mountHandleFails
  · rw [if_pos hfails] at h
    cases h
  rw [if_neg hfails] at h
  obtain ⟨keyed, hkey, h⟩ := exists_of_bind_eq_ok h
  obtain ⟨placed, hoffset, h⟩ := exists_of_bind_eq_ok h
  obtain ⟨given, hpassword, h⟩ := exists_of_bind_eq_ok h
  obtain ⟨named, hpath, h⟩ := exists_of_bind_eq_ok h
  -- the setters leave the file system as it is
  have hgiven : given.fileSystem = mountFileSystemInitialize := by
    rw [setOption_fileSystem (fun _ _ => rfl) hpassword,
      setOption_fileSystem mountHandleSetOffset_fileSystem hoffset,
      setOption_fileSystem mountHandleSetKey_fileSystem hkey]
    rfl
  have hnamed : named.fileSystem.HasPathPrefix luksdePathPrefix ∧
      named.fileSystem.volumes = [] := by
    have hset : (mountFileSystemSetPathPrefix false mountFileSystemInitialize luksdePathPrefix
        (1 + luksdePathPrefix.length)).1.HasPathPrefix luksdePathPrefix :=
      ⟨rfl, rfl, zero_not_mem_luksdePathPrefix⟩
    have hok := required_eq_ok hpath
    rw [mountHandleSetPathPrefix, hgiven] at hok
    cases hfails : env.pathPrefixFails with
    | true =>
      rw [hfails] at hok
      cases hok
    | false =>
      rw [hfails] at hok
      cases hok
      exact ⟨⟨hset.1, hset.2, hset.3⟩, rfl⟩
  obtain ⟨volume, hreached, hunlocked, hfileSystem⟩ := mountHandleOpen_reached (required_eq_ok h)
  rw [hfileSystem]
  refine ⟨⟨hnamed.1.1, hnamed.1.2, hnamed.1.3⟩, volume, hreached, hunlocked, ?_⟩
  show named.fileSystem.volumes ++ [some volume] = [some volume]
  rw [hnamed.2]
  rfl

/-- The mount when the loop is reached. -/
theorem luksdemount_reached {env : LuksdemountEnvironment} {arguments : List LuksdemountOption}
    {operands : List (List UInt8)} {mount : Mount}
    (h : luksdemount L B env arguments operands = .ok mount) :
    mount.fileSystem.HasPathPrefix luksdePathPrefix ∧ mount.fileEntries = .empty ∧
      ∃ volume, Reached L volume ∧ volume.isLocked = false ∧
        mount.fileSystem.volumes = [some volume] := by
  rw [luksdemount] at h
  by_cases hfails : env.initializeFails
  · rw [if_pos hfails] at h
    cases h
  rw [if_neg hfails] at h
  obtain ⟨options, -, h⟩ := exists_of_bind_eq_ok h
  rcases operands with - | ⟨source, - | ⟨mountPoint, rest⟩⟩
  · cases h
  · cases h
  obtain ⟨mountHandle, hhandle, h⟩ := exists_of_bind_eq_ok h
  obtain ⟨hpath, hvolume⟩ := luksdemountHandle_reached hhandle
  by_cases hfuse : env.fuseFails ∨ (options.verbose = false ∧ env.daemonizeFails)
  · rw [if_pos hfuse] at h
    cases h
  rw [if_neg hfuse] at h
  cases h
  exact ⟨hpath, rfl, hvolume⟩

/-- A volume that is open and unlocked, whose master key has the digest of the header, and whose
encryption context was keyed with it. -/
def Volume.IsUnlockedWithKey (L : Libraries) (v : Volume) : Prop :=
  ∃ file header context, v.fileIoHandle = some file ∧ v.isLocked = false ∧
    v.volumeHeader = some header ∧ v.encryptionContext = some context ∧
    passwordPbkdf2 L false (some (v.headerKey header)) header.hashingMethod
      header.masterKeySalt.bytes header.masterKeyNumberOfIterations.toNat 20 =
        some header.masterKeyValidationHash.bytes ∧
    KeyedWith L header (v.headerKey header) context

/-- An unlocked volume of a session has a key that agrees with its header. -/
theorem volumeAfter_isUnlockedWithKey {session : List Operation}
    (h : Admitted (step L) (KeepsKeys L) volumeInitialize session)
    (hunlocked : (volumeAfter L session).isLocked = false) :
    (volumeAfter L session).IsUnlockedWithKey L := by
  have hcontext : HasContext (volumeAfter L session) :=
    volumeAfter_hasContext (h.mono (step L) fun _ _ h => h.2)
  have hlock := hcontext.lockState (volumeAfter_wellformed session)
  obtain ⟨hopen, hsomeHeader, -⟩ := hlock.present hunlocked
  obtain ⟨file, hfile⟩ := Option.ne_none_iff_exists'.1 hopen
  obtain ⟨header, hheader⟩ := Option.ne_none_iff_exists'.1 hsomeHeader
  obtain ⟨context, hsome⟩ := Option.ne_none_iff_exists'.1 (hlock.unlocked_iff.1 hunlocked)
  obtain ⟨hvalid, hkeyed⟩ := (volumeAfter_keysSound h header hheader).context context hsome
  exact ⟨file, header, context, hfile, hunlocked, hheader, hsome, passwordPbkdf2_of_valid hvalid,
    hkeyed⟩

/-- Reads and signals keep a volume unlocked, by induction on them. -/
theorem Reached.serving {v : Volume} (h : Reached L v) (hunlocked : v.isLocked = false)
    {calls : List Operation} (hcalls : ∀ call ∈ calls, call.IsServing) :
    Reached L (stateAfter (Libluksde.step L) v calls) ∧
      (stateAfter (Libluksde.step L) v calls).isLocked = false := by
  induction calls generalizing v with
  | nil => exact ⟨h, hunlocked⟩
  | cons call calls ih =>
    have hserving := hcalls call List.mem_cons_self
    rw [stateAfter_cons]
    exact ih (h.of_quiet hserving.isQuiet hserving.not_setsKey)
      ((step_quiet hserving.isQuiet v).isLocked.trans hunlocked)
      (fun call' hmem => hcalls call' (List.mem_cons_of_mem _ hmem))

/-- **What the tool serves.**  Whatever options and operands the tool is given, and whatever its
surroundings do: if it reaches the loop, it has one volume, the one of a session of the library in
which keys are set on closed volumes only; and whatever is asked then, and whatever fails, every
call has a defined behaviour, all that happens to the volume are reads at an offset and signals, and
it stays open and unlocked, with a master key that has the digest of the header and an encryption
context that was keyed with it. -/
theorem luksdemount_session (C : Libcpath) (L : Libraries) (B : Base16)
    (env : LuksdemountEnvironment) (arguments : List LuksdemountOption)
    (operands : List (List UInt8)) {mount : Mount}
    (hmount : luksdemount L B env arguments operands = .ok mount) :
    ∃ session, Admitted (step L) (KeepsKeys L) volumeInitialize session ∧
      mount.fileSystem.volumes = [some (volumeAfter L session)] ∧
      ∀ requests, none ∉ answers (fuseStep C L) (some mount.served) requests ∧
        ∃ served calls, stateAfter (fuseStep C L) (some mount.served) requests = some served ∧
          (∀ call ∈ calls, call.IsServing) ∧
          served.mount.fileSystem.volumes = [some (volumeAfter L (session ++ calls))] ∧
          (volumeAfter L (session ++ calls)).IsUnlockedWithKey L := by
  obtain ⟨hpath, hnew, volume, hreached, hunlocked, hvolumes⟩ := luksdemount_reached hmount
  have hmounted : mount.fileSystem.IsMounted := by
    intro hmem
    rw [hvolumes] at hmem
    cases List.mem_singleton.1 hmem
  have hsound := Mount.served_sound hmounted hpath hnew
  obtain ⟨session, hadmitted, rfl⟩ := hreached
  refine ⟨session, hadmitted, hvolumes, fun requests => ?_⟩
  obtain ⟨served, -, hstate, hdefined, -, -⟩ := hsound.run (C := C) (L := L) requests
  obtain ⟨served', hstate', hdriven⟩ := hsound.driven (C := C) (L := L) requests
  obtain rfl : served' = served := Option.some.inj (hstate'.symm.trans hstate)
  have hfirst : mount.fileSystem.volumes[0]?.join = some (volumeAfter L session) := by
    rw [hvolumes]
    rfl
  have hlength : served'.mount.fileSystem.volumes.length = 1 := by
    rw [hdriven.length]
    exact congrArg List.length hvolumes
  obtain ⟨calls, hcalls, hvolume⟩ := hdriven.session 0 _ hfirst
  refine ⟨hdefined, served', calls, hstate, hcalls, ?_, ?_⟩
  · obtain ⟨last, hlast⟩ := List.length_eq_one_iff.1 hlength
    rw [hlast] at hvolume ⊢
    rw [volumeAfter, stateAfter_append]
    exact congrArg (fun first => [first]) hvolume
  · obtain ⟨⟨session', hadmitted', heq⟩, hunlocked'⟩ :=
      Reached.serving (L := L) ⟨session, hadmitted, rfl⟩ hunlocked hcalls
    have hsame : volumeAfter L (session ++ calls) = volumeAfter L session' := by
      rw [volumeAfter, stateAfter_append]
      exact heq
    rw [hsame]
    rw [heq] at hunlocked'
    exact volumeAfter_isUnlockedWithKey hadmitted' hunlocked'

/-- The small volume in the surroundings of the tool. -/
def smallSurroundings : LuksdemountEnvironment where
  openSource := fun _ => { fileRange := fun _ => some smallFile }

/-- The key of the small volume in base16 digits. -/
def smallKeyOption : LuksdemountOption := .key (List.replicate 16 (ascii ['2', 'b'])).flatten

theorem exists_of_isOk {ε α : Type} {x : Except ε α} (h : x.isOk = true) : ∃ a, x = .ok a := by
  cases x with
  | error e => cases h
  | ok a => exact ⟨a, rfl⟩

/-- The tool serves the small volume. -/
theorem luksdemount_session_small :
    ∃ mount, luksdemount smallLibraries smallBase16 smallSurroundings [smallKeyOption]
        [ascii ['v'], ascii ['m']] = .ok mount ∧
      ∃ session, Admitted (step smallLibraries) (KeepsKeys smallLibraries) volumeInitialize session ∧
        mount.fileSystem.volumes = [some (volumeAfter smallLibraries session)] ∧
        ∀ requests, none ∉ answers (fuseStep slash smallLibraries) (some mount.served) requests ∧
          ∃ served calls,
            stateAfter (fuseStep slash smallLibraries) (some mount.served) requests = some served ∧
            (∀ call ∈ calls, call.IsServing) ∧
            served.mount.fileSystem.volumes =
              [some (volumeAfter smallLibraries (session ++ calls))] ∧
            (volumeAfter smallLibraries (session ++ calls)).IsUnlockedWithKey smallLibraries := by
  obtain ⟨mount, hmount⟩ : ∃ mount, luksdemount smallLibraries smallBase16 smallSurroundings
      [smallKeyOption] [ascii ['v'], ascii ['m']] = .ok mount :=
    exists_of_isOk (by decide +kernel)
  exact ⟨mount, hmount, luksdemount_session slash smallLibraries smallBase16 smallSurroundings
    [smallKeyOption] [ascii ['v'], ascii ['m']] hmount⟩

end Libluksde
