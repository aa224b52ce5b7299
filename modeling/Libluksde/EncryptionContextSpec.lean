import Libluksde.EncryptionContext

/-!
# What an encryption context does

The facts about contexts that the rest of the development uses: what initialization and
keying leave in a context, the sizes of what a crypt call returns, and that only RC4 changes
its context.
-/

namespace Libluksde

open Lib.Bytes

variable {L : Libraries}

/-! ## Contexts after initialization and keying -/

/-- What a created context was created for. -/
theorem encryptionContextInitialize_spec {fails : Bool} {method : EncryptionMethod}
    {chainingMode : EncryptionChainingMode} {ivMode : InitializationVectorMode}
    {h : HashingMethod} {context : EncryptionContext}
    (hc : encryptionContextInitialize fails method chainingMode ivMode h = some context) :
    selectEncryptionMode method chainingMode ≠ .unknown ∧ fails = false ∧
      context.encryptionMode = selectEncryptionMode method chainingMode ∧
      context.initializationVectorMode = ivMode ∧ context.essivHashingMethod = h ∧
      (ivMode = .essiv →
        context.encryptionMode = .aesCbc ∨ context.encryptionMode = .aesEcb) := by
  unfold encryptionContextInitialize at hc
  simp only at hc
  split at hc
  · cases hc
  · rename_i hmode
    split at hc
    · cases hc
    · rename_i hfails
      have hfails : fails = false := by simpa using hfails
      split at hc
      · rename_i hessiv
        split at hc
        · rename_i haes
          cases hc
          exact ⟨hmode, hfails, rfl, rfl, rfl, fun _ => Or.inl haes⟩
        · rename_i haes
          cases hc
          exact ⟨hmode, hfails, rfl, rfl, rfl, fun _ => Or.inr haes⟩
        · cases hc
      · rename_i hessiv
        cases hc
        exact ⟨hmode, hfails, rfl, rfl, rfl, fun h => absurd h hessiv⟩

/-- The fields of a context that its keying does not change. -/
def SameModes (c c' : EncryptionContext) : Prop :=
  c'.encryptionMode = c.encryptionMode ∧
    c'.initializationVectorMode = c.initializationVectorMode ∧
    c'.essivHashingMethod = c.essivHashingMethod

theorem SameModes.trans {c c' c'' : EncryptionContext} (h : SameModes c c')
    (h' : SameModes c' c'') : SameModes c c'' :=
  ⟨h'.1.trans h.1, h'.2.1.trans h.2.1, h'.2.2.trans h.2.2⟩

theorem setDecryptionKey_modes {c c' : EncryptionContext} {key : List UInt8}
    (h : setDecryptionKey L c key = some c') : SameModes c c' := by
  unfold setDecryptionKey at h
  simp only at h
  split at h
  all_goals
    first
    | cases h
    | simp only [Option.bind_eq_some_iff, Option.map_eq_some_iff] at h
      obtain ⟨_, _, _, _, rfl⟩ := h
      exact ⟨rfl, rfl, rfl⟩

theorem setEncryptionKey_modes {c c' : EncryptionContext} {key : List UInt8}
    (h : setEncryptionKey L c key = some c') : SameModes c c' := by
  unfold setEncryptionKey at h
  simp only at h
  split at h
  all_goals
    first
    | cases h
    | simp only [Option.bind_eq_some_iff, Option.map_eq_some_iff] at h
      obtain ⟨_, _, _, _, rfl⟩ := h
      exact ⟨rfl, rfl, rfl⟩

/-- Keying the ESSIV context leaves it keyed in the AES modes that have one. -/
theorem setEssivKey_spec {c c' : EncryptionContext} {key : List UInt8}
    (h : setEssivKey L c key = some c') :
    SameModes c c' ∧ ((c.encryptionMode = .aesCbc ∨ c.encryptionMode = .aesEcb) →
      ∃ k, c'.essivEncryptionContext = some (some k)) := by
  unfold setEssivKey at h
  split at h
  · simp only [Option.bind_eq_some_iff, Option.map_eq_some_iff] at h
    obtain ⟨_, _, k, _, rfl⟩ := h
    exact ⟨⟨rfl, rfl, rfl⟩, fun _ => ⟨k, rfl⟩⟩
  · simp only [Option.bind_eq_some_iff, Option.map_eq_some_iff] at h
    obtain ⟨_, _, k, _, rfl⟩ := h
    exact ⟨⟨rfl, rfl, rfl⟩, fun _ => ⟨k, rfl⟩⟩
  · rename_i hcbc hecb
    cases h
    exact ⟨⟨rfl, rfl, rfl⟩, fun h => (h.elim hcbc hecb).elim⟩

/-- What a successful keying leaves in a context. -/
theorem encryptionContextSetKey_spec {c c' : EncryptionContext} {key : List UInt8}
    (h : encryptionContextSetKey L c key = some c') :
    SameModes c c' ∧ (c.initializationVectorMode = .essiv →
      (c.encryptionMode = .aesCbc ∨ c.encryptionMode = .aesEcb) →
      ∃ k, c'.essivEncryptionContext = some (some k)) := by
  unfold encryptionContextSetKey at h
  split at h
  · cases h
  · simp only [Option.bind_eq_some_iff] at h
    obtain ⟨c₁, h₁, c₂, h₂, h⟩ := h
    have hmodes := (setDecryptionKey_modes h₁).trans (setEncryptionKey_modes h₂)
    split at h
    · obtain ⟨hess, hkey⟩ := setEssivKey_spec h
      refine ⟨hmodes.trans hess, fun _ haes => hkey ?_⟩
      rwa [hmodes.1]
    · rename_i hne
      cases h
      refine ⟨hmodes, fun hessiv _ => absurd ?_ hne⟩
      rw [hmodes.2.1, hessiv]

/-! ## Crypt calls -/

theorem aesEcbLoop_length {context : Option KeySchedule} {mode : CryptMode}
    {input output : List UInt8} {fuel dataOffset : ℕ} {acc : List UInt8}
    (h : aesEcbLoop L context mode input fuel dataOffset acc = some output)
    (hacc : acc.length = min dataOffset input.length)
    (hfuel : input.length ≤ dataOffset + 16 * fuel) : output.length = input.length := by
  induction fuel generalizing dataOffset acc with
  | zero =>
    simp only [aesEcbLoop, Option.some.injEq] at h
    subst h
    omega
  | succ fuel ih =>
    rw [aesEcbLoop] at h
    split at h
    · rename_i hlt
      cases hblock : libcaesCryptEcb L context mode (input.drop dataOffset) with
      | none => simp [hblock] at h
      | some block =>
        simp only [hblock] at h
        cases context with
        | none => simp [libcaesCryptEcb] at hblock
        | some k =>
          simp only [libcaesCryptEcb, List.length_drop] at hblock
          split at hblock
          · cases hblock
          · rename_i hlen
            simp only [Option.some.injEq] at hblock
            subst hblock
            refine ih h ?_ (by omega)
            rw [List.length_append, L.aesBlock_length]
            omega
    · simp only [Option.some.injEq] at h
      subst h
      omega

/-- The data that a library call works on. -/
def CipherCall.input : CipherCall → List UInt8
  | .aesCbc _ _ _ input | .aesXts _ _ _ input | .blowfishCbc _ _ _ input
  | .serpentCbc _ _ _ input | .aesEcb _ _ input | .blowfishEcb _ _ input
  | .serpentEcb _ _ input | .rc4 _ _ input => input

/-- A library call is one of RC4, whose context changes with every call. -/
def CipherCall.IsRc4 : CipherCall → Prop
  | .rc4 _ _ _ => True
  | _ => False

/-- A library call returns as many bytes as it was given, and a state only for RC4. -/
theorem CipherCall.run_spec {call : CipherCall} {output : List UInt8} {state : Option Rc4State}
    (h : call.run L = some (output, state)) :
    output.length = call.input.length ∧ (¬ call.IsRc4 → state = none) := by
  cases call with
  | aesCbc | aesXts | blowfishCbc | serpentCbc =>
    simp only [CipherCall.run, Option.bind_eq_some_iff, Option.map_eq_some_iff,
      Prod.mk.injEq] at h
    obtain ⟨k, rfl, o, ho, rfl, rfl⟩ := h
    exact ⟨IvCipher.length_eq _ ho, fun _ => rfl⟩
  | blowfishEcb | serpentEcb =>
    simp only [CipherCall.run, Option.bind_eq_some_iff, Option.map_eq_some_iff,
      Prod.mk.injEq] at h
    obtain ⟨k, rfl, o, ho, rfl, rfl⟩ := h
    exact ⟨EcbCipher.length_eq _ ho, fun _ => rfl⟩
  | aesEcb context mode input =>
    simp only [CipherCall.run, Option.map_eq_some_iff, Prod.mk.injEq] at h
    obtain ⟨o, ho, rfl, rfl⟩ := h
    have hlen : o.length = input.length := aesEcbLoop_length ho (by simp) (by omega)
    exact ⟨hlen, fun _ => rfl⟩
  | rc4 context mode input =>
    simp only [CipherCall.run, Option.map_eq_some_iff, Prod.mk.injEq] at h
    obtain ⟨s, rfl, rfl, rfl⟩ := h
    exact ⟨L.rc4Crypt_length s input, fun h => absurd trivial h⟩

/-- The context's mode is one of RC4. -/
def EncryptionContext.IsRc4 (context : EncryptionContext) : Prop :=
  context.encryptionMode = .rc4Cbc ∨ context.encryptionMode = .rc4Ecb

instance (context : EncryptionContext) : Decidable context.IsRc4 :=
  inferInstanceAs (Decidable (_ ∨ _))

/-- Both dispatch tables pass the input on, and call RC4 in the modes of RC4 only. -/
theorem cipherCall_spec {context : EncryptionContext} {mode : CryptMode} {iv input : List UInt8}
    {call : CipherCall} (h : cipherCall context mode iv input = some call) :
    call.input = input ∧ (call.IsRc4 → context.IsRc4) := by
  unfold cipherCall at h
  cases mode
  all_goals
    simp only at h
    split at h <;> cases h
  all_goals
    refine ⟨rfl, fun hrc4 => ?_⟩
    first
    | exact hrc4.elim
    | exact Or.inl ‹_›
    | exact Or.inr ‹_›

/-- A successful crypt call returns as many bytes as it was given, and leaves a context that
is not one of RC4 as it was. -/
theorem encryptionContextCrypt_spec {context context' : EncryptionContext} {mode : CryptMode}
    {input output : List UInt8} {size : ℕ} {sectorNumber : UInt64}
    (h : encryptionContextCrypt L context mode input size sectorNumber
      = some (output, context')) :
    output.length = input.length ∧ (¬ context.IsRc4 → context' = context) := by
  simp only [encryptionContextCrypt, encryptionContextCipherCall, Option.bind_eq_some_iff,
    Option.map_eq_some_iff, Prod.mk.injEq] at h
  obtain ⟨call, hcall, ⟨o, state⟩, hrun, rfl, rfl⟩ := h
  split at hcall
  · cases hcall
  · split at hcall
    · cases hcall
    · obtain ⟨iv, _, hcall⟩ := Option.bind_eq_some_iff.1 hcall
      obtain ⟨hinput, hrc4⟩ := cipherCall_spec hcall
      obtain ⟨hlen, hstate⟩ := CipherCall.run_spec hrun
      refine ⟨by rw [hlen, hinput], fun hctx => ?_⟩
      rw [hstate (fun h => hctx (hrc4 h))]
      rfl

end Libluksde
