import Mathlib.Data.List.Induction
import Libluksde.HandleOwnership

/-!
# The password of a volume

Setting a password frees the old one first, and says that a password is set last.  Where it fails
in between, the volume is left without a password, but still says that one is set if an earlier
call has set one.
-/

namespace Libluksde

open Lib.Bytes Lib.Machine

variable {L : Libraries}

/-- The string can be converted, its byte stream fits, and nothing fails. -/
def PasswordEnvironment.Accepts (env : PasswordEnvironment) (stream : Option (List UInt8)) : Prop :=
  (∃ bytes, stream = some bytes ∧ bytes.length + 1 ≤ memoryMaximumAllocationSize) ∧
    env.allocationFails = false ∧ env.copyFails = false

/-- The calls that set a password, and succeed. -/
def Operation.SetsPasswordWell (L : Libraries) : Operation → Prop
  | .setUtf8Password env string => env.Accepts (L.byteStreamFromUtf8 string)
  | .setUtf16Password env string => env.Accepts (L.byteStreamFromUtf16 string)
  | _ => False

/-- The calls that should set a password, and fail. -/
def Operation.FailsToSetPassword (L : Libraries) : Operation → Prop
  | .setUtf8Password env string => ¬ env.Accepts (L.byteStreamFromUtf8 string)
  | .setUtf16Password env string => ¬ env.Accepts (L.byteStreamFromUtf16 string)
  | _ => False

theorem setPassword_of_accepts {env : PasswordEnvironment} {stream : Option (List UInt8)}
    (h : env.Accepts stream) : ∃ bytes : List UInt8, ∀ v, setPassword env v stream =
      ({ v with
          userPassword := some (bytes ++ [0])
          userPasswordSize := bytes.length + 1
          userPasswordIsSet := true }, 1) := by
  obtain ⟨⟨bytes, rfl, hsize⟩, hallocation, hcopy⟩ := h
  refine ⟨bytes, fun v => ?_⟩
  simp only [setPassword]
  rw [if_neg (by omega), hallocation, hcopy]
  rfl

theorem setPassword_of_not_accepts {env : PasswordEnvironment} {stream : Option (List UInt8)}
    (h : ¬ env.Accepts stream) (v : Volume) :
    setPassword env v stream = ({ v with userPassword := none, userPasswordSize := 0 }, -1) := by
  cases stream with
  | none => rfl
  | some bytes =>
    simp only [setPassword]
    split
    · rfl
    · split
      · rfl
      · split
        · rfl
        · rename_i hsize hallocation hcopy
          exact absurd ⟨⟨bytes, rfl, by omega⟩, by simpa using hallocation, by simpa using hcopy⟩ h

theorem Operation.SetsPasswordWell.step {operation : Operation}
    (h : operation.SetsPasswordWell L) : ∃ bytes : List UInt8, ∀ v, step L operation v =
      ({ v with
          userPassword := some (bytes ++ [0])
          userPasswordSize := bytes.length + 1
          userPasswordIsSet := true }, .of 1) := by
  have hmap : ∀ env stream, PasswordEnvironment.Accepts env stream → ∃ bytes : List UInt8, ∀ v,
      (setPassword env v stream).map id Answer.of =
        ({ v with
            userPassword := some (bytes ++ [0])
            userPasswordSize := bytes.length + 1
            userPasswordIsSet := true }, .of 1) := by
    intro env stream haccepts
    obtain ⟨bytes, heq⟩ := setPassword_of_accepts haccepts
    refine ⟨bytes, fun v => ?_⟩
    rw [heq]
    rfl
  cases operation with
  | setUtf8Password env string => exact hmap env _ h
  | setUtf16Password env string => exact hmap env _ h
  | _ => exact h.elim

theorem Operation.FailsToSetPassword.step {operation : Operation}
    (h : operation.FailsToSetPassword L) (v : Volume) : step L operation v =
      ({ v with userPassword := none, userPasswordSize := 0 }, .of (-1)) := by
  have hmap : ∀ env stream, ¬ PasswordEnvironment.Accepts env stream →
      (setPassword env v stream).map id Answer.of =
        ({ v with userPassword := none, userPasswordSize := 0 }, .of (-1)) := by
    intro env stream hrefuses
    rw [setPassword_of_not_accepts hrefuses]
    rfl
  cases operation with
  | setUtf8Password env string => exact hmap env _ h
  | setUtf16Password env string => exact hmap env _ h
  | _ => exact h.elim

/-- A call that sets a password succeeds or fails, whatever the volume. -/
theorem Operation.SetsPassword.cases {operation : Operation} (h : operation.SetsPassword) :
    operation.SetsPasswordWell L ∨ operation.FailsToSetPassword L := by
  cases operation with
  | setUtf8Password env string => exact Classical.em _
  | setUtf16Password env string => exact Classical.em _
  | _ => exact h.elim

theorem Operation.SetsPasswordWell.setsPassword {operation : Operation}
    (h : operation.SetsPasswordWell L) : operation.SetsPassword := by
  cases operation with
  | setUtf8Password | setUtf16Password => trivial
  | _ => exact h.elim

theorem Operation.SetsPasswordWell.not_fails {operation : Operation}
    (h : operation.SetsPasswordWell L) : ¬ operation.FailsToSetPassword L := by
  cases operation with
  | setUtf8Password | setUtf16Password => exact not_not.2 h
  | _ => exact h.elim

/-! ## What should hold -/

/-- A volume that says it has a password has one. -/
def Volume.HasPassword (v : Volume) : Prop :=
  v.userPasswordIsSet = true → v.userPassword ≠ none ∧ 1 ≤ v.userPasswordSize

/-- A volume with the password of another. -/
def Volume.withPasswordOf (v w : Volume) : Volume :=
  { v with
    userPassword := w.userPassword
    userPasswordSize := w.userPasswordSize
    userPasswordIsSet := w.userPasswordIsSet }

/-- No sequence of calls tells two volumes apart. -/
def BehavesAlike (L : Libraries) (v w : Volume) : Prop :=
  ∀ calls, answers (step L) v calls = answers (step L) w calls

/-- The password is sound throughout a session: every volume that says it has a password has one,
and a call that fails to set one leaves a volume that behaves as with the password before or as with
none. -/
structure PasswordsSound (L : Libraries) (session : List Operation) : Prop where
  hasPassword : ∀ before after, session = before ++ after → (volumeAfter L before).HasPassword
  afterFailure : ∀ before call after, session = before ++ call :: after → call.SetsPassword →
    (step L call (volumeAfter L before)).2 ≠ .of 1 →
    let v := (step L call (volumeAfter L before)).1
    BehavesAlike L v (v.withPasswordOf (volumeAfter L before)) ∨
      BehavesAlike L v (v.withPasswordOf volumeInitialize)

/-! ## What the calls leave -/

/-- The state of the password, when every failing call came before all that succeed. -/
structure PasswordState (L : Libraries) (session : List Operation) (v : Volume) : Prop where
  isSet : v.userPasswordIsSet = true → ∃ call ∈ session, call.SetsPasswordWell L
  present : v.userPasswordIsSet = true → v.userPassword ≠ none ∧ 1 ≤ v.userPasswordSize
  absent : v.userPasswordIsSet = false → v.userPassword = none ∧ v.userPasswordSize = 0

theorem volumeAfter_append_singleton (session : List Operation) (call : Operation) :
    volumeAfter L (session ++ [call]) = (step L call (volumeAfter L session)).1 := by
  rw [volumeAfter, stateAfter_append]
  rfl

/-- Once a password has been set, the volume says so for good. -/
theorem userPasswordIsSet_of_mem {session : List Operation} {call : Operation}
    (hmem : call ∈ session) (hwell : call.SetsPasswordWell L) :
    (volumeAfter L session).userPasswordIsSet = true := by
  induction session using List.reverseRecOn with
  | nil => cases hmem
  | append_singleton session last ih =>
    rw [volumeAfter_append_singleton]
    by_cases hsets : last.SetsPassword
    · rcases hsets.cases (L := L) with hlast | hlast
      · obtain ⟨bytes, heq⟩ := hlast.step
        rw [heq]
      · rw [hlast.step]
        -- a call that fails is not the one in question
        rcases List.mem_append.1 hmem with hbefore | hlast'
        · exact ih hbefore
        · obtain rfl := List.mem_singleton.1 hlast'
          exact absurd hlast hwell.not_fails
    · have hkeeps := (step_keepsFields (L := L) last (volumeAfter L session)).password hsets
      rw [show (step L last (volumeAfter L session)).1.userPasswordIsSet =
        (volumeAfter L session).userPasswordIsSet from congrArg (fun fields => fields.2.2) hkeeps]
      rcases List.mem_append.1 hmem with hbefore | hlast
      · exact ih hbefore
      · obtain rfl := List.mem_singleton.1 hlast
        exact absurd hwell.setsPassword hsets

/-- No call that fails to set a password comes behind one that succeeds. -/
def NoFailureBehindSuccess (L : Libraries) (session : List Operation) : Prop :=
  session.Pairwise fun earlier later =>
    ¬ (earlier.SetsPasswordWell L ∧ later.FailsToSetPassword L)

theorem passwordState_of_noFailure {session : List Operation}
    (h : NoFailureBehindSuccess L session) : PasswordState L session (volumeAfter L session) := by
  induction session using List.reverseRecOn with
  | nil => exact ⟨fun hset => (by cases hset), fun hset => (by cases hset), fun _ => ⟨rfl, rfl⟩⟩
  | append_singleton session last ih =>
    obtain ⟨hsession, -, hlast⟩ := List.pairwise_append.1 h
    have hstate := ih hsession
    have hmem : ∀ call ∈ session, call ∈ session ++ [last] := fun call hcall =>
      List.mem_append_left [last] hcall
    rw [volumeAfter_append_singleton]
    by_cases hsets : last.SetsPassword
    · rcases hsets.cases (L := L) with hwell | hfails
      · obtain ⟨bytes, heq⟩ := hwell.step
        rw [heq]
        exact ⟨fun _ => ⟨last, List.mem_append_right session (List.mem_singleton_self last), hwell⟩,
          fun _ => ⟨Option.some_ne_none _, Nat.succ_le_succ (Nat.zero_le _)⟩,
          fun hset => (by cases hset)⟩
      · have hunset : (volumeAfter L session).userPasswordIsSet = false := by
          by_contra hset
          obtain ⟨call, hcall, hwell⟩ := hstate.isSet (by simpa using hset)
          exact hlast call hcall last (List.mem_singleton_self last) ⟨hwell, hfails⟩
        rw [hfails.step]
        exact ⟨fun hset => absurd (hunset.symm.trans hset) (by decide),
          fun hset => absurd (hunset.symm.trans hset) (by decide), fun _ => ⟨rfl, rfl⟩⟩
    · have hkeeps := (step_keepsFields (L := L) last (volumeAfter L session)).password hsets
      generalize (step L last (volumeAfter L session)).1 = w at hkeeps ⊢
      have hpassword : w.userPassword = (volumeAfter L session).userPassword :=
        congrArg Prod.fst hkeeps
      have hsize : w.userPasswordSize = (volumeAfter L session).userPasswordSize :=
        congrArg (fun fields => fields.2.1) hkeeps
      have hisSet : w.userPasswordIsSet = (volumeAfter L session).userPasswordIsSet :=
        congrArg (fun fields => fields.2.2) hkeeps
      refine ⟨fun hset => ?_, fun hset => ?_, fun hset => ?_⟩
      · obtain ⟨call, hcall, hwell⟩ := hstate.isSet (hisSet.symm.trans hset)
        exact ⟨call, hmem call hcall, hwell⟩
      · rw [hpassword, hsize]
        exact hstate.present (hisSet.symm.trans hset)
      · rw [hpassword, hsize]
        exact hstate.absent (hisSet.symm.trans hset)

/-! ## When the password is sound -/

theorem PasswordsSound.noFailure {session : List Operation} (h : PasswordsSound L session) :
    NoFailureBehindSuccess L session := by
  induction session using List.reverseRecOn with
  | nil => exact List.Pairwise.nil
  | append_singleton session last ih =>
    have hsession : PasswordsSound L session := by
      constructor
      · rintro before after rfl
        exact h.hasPassword before (after ++ [last]) (List.append_assoc _ _ _)
      · rintro before call after rfl
        exact h.afterFailure before call (after ++ [last]) (List.append_assoc _ _ _)
    refine List.pairwise_append.2 ⟨ih hsession, List.pairwise_singleton _ _, ?_⟩
    rintro call hcall _ hlast ⟨hwell, hfails⟩
    obtain rfl := List.mem_singleton.1 hlast
    -- the last call takes the password away and leaves the flag
    have hset := userPasswordIsSet_of_mem hcall hwell
    have hlost := h.hasPassword (session ++ [_]) [] (List.append_nil _).symm
    rw [volumeAfter_append_singleton, hfails.step] at hlost
    exact (hlost hset).1 rfl

/-- The password is sound throughout a session exactly when no call that fails to set a password
comes behind one that succeeds.  There is no lock that could fail. -/
theorem passwordsSound_iff (L : Libraries) (session : List Operation) :
    PasswordsSound L session ↔ NoFailureBehindSuccess L session := by
  refine ⟨PasswordsSound.noFailure, fun h => ⟨?_, ?_⟩⟩
  · rintro before after rfl
    exact (passwordState_of_noFailure (List.pairwise_append.1 h).1).present
  · rintro before call after rfl hsets hfailed
    obtain ⟨hbefore, -, hbehind⟩ := List.pairwise_append.1 h
    rcases hsets.cases (L := L) with hwell | hfails
    · obtain ⟨bytes, heq⟩ := hwell.step
      rw [heq] at hfailed
      exact absurd rfl hfailed
    · have hstate := passwordState_of_noFailure hbefore
      have hunset : (volumeAfter L before).userPasswordIsSet = false := by
        by_contra hset
        obtain ⟨earlier, hmem, hwell⟩ := hstate.isSet (by simpa using hset)
        exact hbehind earlier hmem call List.mem_cons_self ⟨hwell, hfails⟩
      refine Or.inr fun calls => ?_
      rw [hfails.step]
      -- without a password before, the volume has none
      have hinitial : volumeInitialize.userPasswordIsSet = (volumeAfter L before).userPasswordIsSet :=
        hunset.symm
      simp only [Volume.withPasswordOf, hinitial]
      rfl

/-- A password is set, and the allocation for the next one fails. -/
def lostPassword : List Operation :=
  [.setUtf8Password {} smallPassword, .setUtf8Password { allocationFails := true } otherPassword]

/-- The volume then says that a password is set without having one, and does not open a file that
opens with the password before and without a password. -/
theorem lostPassword_not_sound :
    ¬ PasswordsSound smallLibraries lostPassword ∧
      (step smallLibraries (.openFileIoHandle {} smallSlotFile 1)
        (volumeAfter smallLibraries lostPassword)).2 = .of (-1) ∧
      (step smallLibraries (.openFileIoHandle {} smallSlotFile 1)
        (volumeAfter smallLibraries (lostPassword.take 1))).2 = .of 1 ∧
      (step smallLibraries (.openFileIoHandle {} smallSlotFile 1) volumeInitialize).2 = .of 1 := by
  refine ⟨fun h => ?_, ?_, ?_, ?_⟩
  · have hlost := h.hasPassword lostPassword [] rfl
    exact (hlost rfl).1 rfl
  · decide +kernel
  · decide +kernel
  · decide +kernel

end Libluksde
