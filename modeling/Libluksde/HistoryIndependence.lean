import Libluksde.CacheTransparency
import Libluksde.ContextHistory
import Libluksde.SectorDecryption
import Libluksde.Lib.Keystream

/-!
# Independence of the history

What a crypt call gives must not depend on the calls before it: sectors are requested in any order,
and again when the cache has dropped them.  A context of a block cipher never changes.  A context of
RC4 continues its keystream with every call, whatever sector the call is for.
-/

namespace Libluksde

open Lib.Bytes Lib.Machine Lib.Keystream Relation

variable {L : Libraries}

/-! ## Statement -/

/-- A call of `libluksde_encryption_context_crypt`. -/
structure CryptRequest where
  mode : CryptMode
  input : List UInt8
  outputDataSize : ℕ
  sectorNumber : UInt64

/-- A crypt call: the context after it, and its output, `none` for -1. -/
def cryptStep (L : Libraries) (request : CryptRequest) (context : EncryptionContext) :
    EncryptionContext × Option (List UInt8) :=
  match encryptionContextCrypt L context request.mode request.input request.outputDataSize
    request.sectorNumber with
  | none => (context, none)
  | some (output, context) => (context, some output)

/-- The sectors that are fetched through a vector with this context are the ones that it decrypts
when it is new, whatever was fetched before and whatever the cache kept. -/
def FetchIndependent (L : Libraries) (context : EncryptionContext) : Prop :=
  ∀ {fails : Bool} {dataOffset : ℤ} {file : FileIoHandle} {vector : SectorDataVector},
    sectorDataVectorInitialize fails 512 dataOffset = some vector → dataOffset < 2 ^ 63 →
    ∀ {before : List SectorRequest} {request : SectorRequest},
      (∀ r ∈ before, r.InRange) → request.InRange →
      ∀ data, (sectorStep L file request
          (stateAfter (sectorStep L file) (vector, some context) before)).2 = some data →
        uncachedSector L 512 dataOffset file context request.offset = some data

/-! ## Fetching -/

/-- Decryptions are crypt calls. -/
theorem stateAfter_of_decrypts {c c' : EncryptionContext} (h : ReflTransGen (Decrypts L) c c') :
    ∃ requests, c' = stateAfter (cryptStep L) c requests := by
  induction h with
  | refl => exact ⟨[], rfl⟩
  | tail _ hd ih =>
    obtain ⟨requests, rfl⟩ := ih
    obtain ⟨input, size, sectorNumber, output, hcrypt⟩ := hd
    refine ⟨requests ++ [⟨.decrypt, input, size, sectorNumber⟩], ?_⟩
    rw [stateAfter_append, stateAfter_cons, stateAfter_nil, cryptStep]
    simp only [hcrypt]

/-- The output of a crypt call is its answer. -/
theorem cryptStep_output (c : EncryptionContext) (m : CryptMode) (input : List UInt8) (size : ℕ)
    (sectorNumber : UInt64) :
    (cryptStep L ⟨m, input, size, sectorNumber⟩ c).2 =
      (encryptionContextCrypt L c m input size sectorNumber).map Prod.fst := by
  rw [cryptStep]
  simp only
  cases encryptionContextCrypt L c m input size sectorNumber with
  | none => rfl
  | some r => rfl

/-- Contexts that come from one by decryptions decrypt alike, where the history does not matter. -/
theorem uncachedSector_of_decrypts {c c' : EncryptionContext}
    (hindependent : HistoryIndependent (cryptStep L) c) (h : ReflTransGen (Decrypts L) c c') (n : ℕ)
    (dataOffset : ℤ) (file : FileIoHandle) :
    uncachedSector L n dataOffset file c' = uncachedSector L n dataOffset file c := by
  obtain ⟨requests, rfl⟩ := stateAfter_of_decrypts h
  funext offset
  rw [uncachedSector, uncachedSector]
  cases file.readBufferAtOffset n (dataOffset + offset) with
  | none => rfl
  | some data =>
    simp only [← cryptStep_output, hindependent requests]

/-- What a sequence of fetches keeps. -/
structure FetchInvariant (L : Libraries) (dataOffset : ℤ) (file : FileIoHandle)
    (c : EncryptionContext) (state : SectorDataVector × Option EncryptionContext) : Prop where
  vector : FaithfulVector L 512 dataOffset file c state.1
  context : ∃ c', state.2 = some c' ∧ ReflTransGen (Decrypts L) c c'

/-- One fetch. -/
theorem FetchInvariant.step {dataOffset : ℤ} {file : FileIoHandle} {c : EncryptionContext}
    (hindependent : HistoryIndependent (cryptStep L) c)
    (hdataOffset : 0 ≤ dataOffset ∧ dataOffset < 2 ^ 63) {request : SectorRequest}
    (hrequest : request.InRange) {state : SectorDataVector × Option EncryptionContext}
    (h : FetchInvariant L dataOffset file c state) :
    FetchInvariant L dataOffset file c (sectorStep L file request state).1 ∧
      ∀ data, (sectorStep L file request state).2 = some data →
        uncachedSector L 512 dataOffset file c request.offset = some data := by
  obtain ⟨vector, context⟩ := state
  obtain ⟨hvector, c', rfl, hdecrypts⟩ := h
  have hsame := uncachedSector_of_decrypts hindependent hdecrypts 512 dataOffset file
  -- the vector is as faithful to the context of now as it is to the one of the beginning
  have hnow : FaithfulVector L 512 dataOffset file c' vector :=
    ⟨hvector.bytesPerSector, hvector.dataOffset_eq, by rw [hsame]; exact hvector.cache⟩
  have hresult := sectorDataVectorGetSectorDataAtOffset_faithful request.env hnow hdataOffset
    hrequest
  have hafter := sectorDataVectorGetSectorDataAtOffset_decrypts (L := L) request.env vector
    (some file) (some c') request.offset
  refine ⟨⟨?_, ?_⟩, fun data hdata => ?_⟩
  · exact ⟨hresult.faithful.bytesPerSector, hresult.faithful.dataOffset_eq,
      by rw [← hsame]; exact hresult.faithful.cache⟩
  · simp only [sectorStep]
    generalize (sectorDataVectorGetSectorDataAtOffset L request.env vector (some file) (some c')
      request.offset).2.2 = context at hafter ⊢
    cases context with
    | none => exact hafter.elim
    | some c'' => exact ⟨c'', rfl, hdecrypts.trans hafter⟩
  · rw [← hsame]
    exact hresult.data data hdata

/-- Fetches do not depend on the history where crypt calls do not. -/
theorem fetchIndependent_of_historyIndependent {c : EncryptionContext}
    (hindependent : HistoryIndependent (cryptStep L) c) : FetchIndependent L c := by
  intro fails dataOffset file vector hcreated hdataOffset before request hbefore hrequest
  have hrange : 0 ≤ dataOffset ∧ dataOffset < 2 ^ 63 := by
    unfold sectorDataVectorInitialize at hcreated
    split_ifs at hcreated
    omega
  have hadmitted : Admitted (sectorStep L file) (fun r _ => SectorRequest.InRange r)
      (vector, some c) before := admitted_of_forall hbefore
  have hinit : FetchInvariant L dataOffset file c (vector, some c) :=
    ⟨.of_new hcreated, c, rfl, .refl⟩
  have hinv : FetchInvariant L dataOffset file c
      (stateAfter (sectorStep L file) (vector, some c) before) :=
    stateAfter_invariant (P := FetchInvariant L dataOffset file c)
      (fun r s hr hs => (hs.step hindependent hrange hr).1) hinit hadmitted
  exact (hinv.step hindependent hrange hrequest).2

/-! ## RC4 -/

/-- The context with the given states of RC4 for the two directions. -/
def EncryptionContext.withRc4States (c : EncryptionContext) (states : CryptMode → Rc4State) :
    EncryptionContext :=
  { c with
    rc4EncryptionContext := some (some (states .encrypt))
    rc4DecryptionContext := some (some (states .decrypt)) }

/-- The sizes of a crypt call pass the checks. -/
def CryptRequest.Passes (r : CryptRequest) : Prop :=
  16 ≤ r.input.length ∧ r.input.length ≤ r.outputDataSize ∧ r.outputDataSize ≤ ssizeMax

instance (r : CryptRequest) : Decidable r.Passes := inferInstanceAs (Decidable (_ ∧ _))

/-- A crypt call in a mode of RC4: the sector only decides whether there is an initialization
vector, which is not used. -/
theorem cryptStep_rc4 {c : EncryptionContext} (hc : c.IsRc4) (states : CryptMode → Rc4State)
    (r : CryptRequest) :
    cryptStep L r (c.withRc4States states) =
      if r.Passes ∧ (initializationVector L c r.sectorNumber).isSome = true then
        (c.withRc4States (Function.update states r.mode (L.rc4Crypt (states r.mode) r.input).2),
          some (L.rc4Crypt (states r.mode) r.input).1)
      else (c.withRc4States states, none) := by
  obtain ⟨m, input, size, sectorNumber⟩ := r
  have hvector : initializationVector L (c.withRc4States states) sectorNumber =
      initializationVector L c sectorNumber := rfl
  have hcall : ∀ iv, cipherCall (c.withRc4States states) m iv input =
      some (.rc4 (some (states m)) m input) := by
    intro iv
    have hmode : (c.withRc4States states).encryptionMode = c.encryptionMode := rfl
    obtain h | h := hc
    · cases m <;> simp only [cipherCall, hmode, h] <;> rfl
    · cases m <;> simp only [cipherCall, hmode, h] <;> rfl
  by_cases hpasses : 16 ≤ input.length ∧ input.length ≤ size ∧ size ≤ ssizeMax
  · cases hiv : initializationVector L c sectorNumber with
    | none =>
      rw [if_neg (by simp)]
      simp only [cryptStep]
      rw [encryptionContextCrypt, encryptionContextCipherCall, if_neg (by omega),
        if_neg (by omega), hvector, hiv]
      rfl
    | some iv =>
      rw [if_pos ⟨hpasses, rfl⟩]
      simp only [cryptStep]
      rw [encryptionContextCrypt_of_iv m hpasses.1 hpasses.2 (hvector.trans hiv), hcall]
      cases m with
      | encrypt => simp [CipherCall.run, EncryptionContext.withRc4State,
          EncryptionContext.withRc4States]
      | decrypt => simp [CipherCall.run, EncryptionContext.withRc4State,
          EncryptionContext.withRc4States]
  · rw [if_neg fun h => hpasses h.1]
    simp only [cryptStep, encryptionContextCrypt, encryptionContextCipherCall]
    by_cases hinput : input.length < 16 ∨ input.length > ssizeMax
    · rw [if_pos hinput]
      rfl
    · rw [if_neg hinput, if_pos (by omega)]
      rfl

/-- A keyed context of RC4 has the same state for both directions. -/
theorem keyedContext_rc4 {mode : EncryptionMode} (hmode : mode = .rc4Cbc ∨ mode = .rc4Ecb)
    (ivMode : InitializationVectorMode) (h : HashingMethod) (key : List UInt8) :
    (keyedContext L mode ivMode h key).withRc4States (fun _ => L.rc4SetKey key) =
      keyedContext L mode ivMode h key := by
  obtain rfl | rfl := hmode
  · rfl
  · rfl

/-- Calls that decrypt zero bytes. -/
def zeroRequests (lengths : List ℕ) : List CryptRequest :=
  lengths.map fun n => ⟨.decrypt, List.replicate n 0, n, 0⟩

theorem passes_zeroRequest {n : ℕ} (hn : 16 ≤ n ∧ n < 32) :
    CryptRequest.Passes ⟨.decrypt, List.replicate n 0, n, 0⟩ := by
  have hsize : 32 ≤ ssizeMax := by decide
  refine ⟨?_, ?_, ?_⟩
  · simp only [List.length_replicate]
    omega
  · simp only [List.length_replicate]
    omega
  · simp only
    omega

/-- The states of RC4 after such calls. -/
theorem stateAfter_zeroRequests {c : EncryptionContext} (hc : c.IsRc4)
    (hiv : (initializationVector L c 0).isSome = true) (lengths : List ℕ)
    (hlengths : ∀ m ∈ lengths, 16 ≤ m ∧ m < 32) (states : CryptMode → Rc4State) :
    stateAfter (cryptStep L) (c.withRc4States states) (zeroRequests lengths) =
      c.withRc4States (Function.update states .decrypt
        (afterZeros L.rc4Crypt (states .decrypt) lengths)) := by
  induction lengths generalizing states with
  | nil => rw [afterZeros, List.foldl_nil, Function.update_eq_self]; rfl
  | cons n lengths ih =>
    have hn := passes_zeroRequest (hlengths n List.mem_cons_self)
    rw [zeroRequests, List.map_cons, stateAfter_cons, cryptStep_rc4 hc, if_pos ⟨hn, hiv⟩,
      ← zeroRequests]
    simp only
    rw [ih (fun m hm => hlengths m (List.mem_cons_of_mem n hm)), Function.update_idem,
      Function.update_self]
    rfl

/-- In a mode of RC4, calls that do not depend on their history have a keystream of one byte. -/
theorem keystream_of_historyIndependent {keystream : Rc4State → ℕ → UInt8}
    (hrc4 : IsKeystream L.rc4Crypt keystream) {c : EncryptionContext} (hc : c.IsRc4)
    (hiv : (initializationVector L c 0).isSome = true) {s : Rc4State}
    (hindependent : HistoryIndependent (cryptStep L) (c.withRc4States fun _ => s)) (i : ℕ) :
    keystream s i = keystream s 0 := by
  refine eq_first_of_repeats (fun lengths hlengths i hi => ?_) i
  have hlast : CryptRequest.Passes ⟨.decrypt, List.replicate 16 0, 16, 0⟩ :=
    passes_zeroRequest (by decide)
  -- 16 zero bytes give the next 16 bytes of the keystream
  have hsame := hindependent (zeroRequests lengths) ⟨.decrypt, List.replicate 16 0, 16, 0⟩
  rw [stateAfter_zeroRequests hc hiv lengths hlengths, cryptStep_rc4 hc, cryptStep_rc4 hc,
    if_pos ⟨hlast, hiv⟩, if_pos ⟨hlast, hiv⟩] at hsame
  simp only [Function.update_self, Option.some.injEq] at hsame
  have hbyte := congrArg (fun output => output[i]?) hsame
  simp only [hrc4.getElem?_zeros _ hi, hrc4.afterZeros, Option.some.injEq] at hbyte
  exact hbyte

/-- With a keystream of one byte the calls do not depend on their history. -/
theorem historyIndependent_of_keystream {keystream : Rc4State → ℕ → UInt8}
    (hrc4 : IsKeystream L.rc4Crypt keystream) {c : EncryptionContext} (hc : c.IsRc4) {s : Rc4State}
    (hconstant : ∀ i, keystream s i = keystream s 0) :
    HistoryIndependent (cryptStep L) (c.withRc4States fun _ => s) := by
  let P := fun t => ∃ states : CryptMode → Rc4State, t = c.withRc4States states ∧
    ∀ m i, keystream (states m) i = keystream s 0
  refine historyIndependent_of_invariant (P := P) ?_ ⟨_, rfl, fun _ i => hconstant i⟩ ?_
  · rintro r t ⟨states, rfl, hstates⟩
    rw [cryptStep_rc4 hc]
    split
    · refine ⟨_, rfl, fun m i => ?_⟩
      by_cases hm : m = r.mode
      · rw [hm, Function.update_self, hrc4.rest]
        exact hstates _ _
      · rw [Function.update_of_ne hm]
        exact hstates m i
    · exact ⟨states, rfl, hstates⟩
  · rintro r t ⟨states, rfl, hstates⟩
    rw [cryptStep_rc4 hc, cryptStep_rc4 hc]
    split
    · simp only [hrc4.output, hstates, hconstant]
    · rfl

/-- **Crypt is independent of its history** in the modes of the block ciphers, and in those of RC4
only where the keystream does not move: every crypt call gives what it gives as the first one, and
so every fetch of a sector the plaintext of the sector. -/
theorem historyIndependent_iff {keystream : Rc4State → ℕ → UInt8}
    (hrc4 : IsKeystream L.rc4Crypt keystream) {fails : Bool} {method : EncryptionMethod}
    {chainingMode : EncryptionChainingMode} {ivMode : InitializationVectorMode} {h : HashingMethod}
    {created c : EncryptionContext} {key : List UInt8}
    (hcreated : encryptionContextInitialize fails method chainingMode ivMode h = some created)
    (hkeyed : encryptionContextSetKey L created key = some c) :
    (HistoryIndependent (cryptStep L) c ∧ FetchIndependent L c) ↔
      ¬ c.IsRc4 ∨ ¬ ivMode.IsSupported ∨
        ∀ i, keystream (L.rc4SetKey key) i = keystream (L.rc4SetKey key) 0 := by
  obtain ⟨-, -, hmode, -, -, hessiv⟩ := encryptionContextInitialize_spec hcreated
  rw [encryptionContextSetKey_eq hcreated] at hkeyed
  split_ifs at hkeyed
  rw [hmode] at hessiv
  cases hkeyed
  generalize selectEncryptionMode method chainingMode = mode at *
  constructor
  · rintro ⟨hindependent, -⟩
    by_contra hno
    push Not at hno
    obtain ⟨hc, hsupported, i, hi⟩ := hno
    obtain ⟨iv, hiv⟩ := initializationVector_keyedContext (L := L) mode ivMode h key hsupported
      hessiv 0
    have hstates := keyedContext_rc4 (L := L)
      (by rwa [EncryptionContext.IsRc4, keyedContext_encryptionMode] at hc) ivMode h key
    rw [← hstates] at hindependent
    exact hi (keystream_of_historyIndependent hrc4 hc (by rw [hiv]; rfl) hindependent i)
  · intro hcondition
    have hindependent : HistoryIndependent (cryptStep L) (keyedContext L mode ivMode h key) := by
      by_cases hc : (keyedContext L mode ivMode h key).IsRc4
      · obtain hno | hunsupported | hconstant := hcondition
        · exact absurd hc hno
        · -- every call fails
          refine historyIndependent_of_still fun r => ?_
          rw [cryptStep]
          cases hcrypt : encryptionContextCrypt L (keyedContext L mode ivMode h key) r.mode r.input
            r.outputDataSize r.sectorNumber with
          | none => rfl
          | some result =>
            have hsupported := isSupported_of_crypt hcrypt
            rw [keyedContext_initializationVectorMode] at hsupported
            exact absurd hsupported hunsupported
        · have hstates := keyedContext_rc4 (L := L)
            (by rwa [EncryptionContext.IsRc4, keyedContext_encryptionMode] at hc) ivMode h key
          rw [← hstates]
          exact historyIndependent_of_keystream hrc4 hc hconstant
      · -- the context never changes
        refine historyIndependent_of_still fun r => ?_
        rw [cryptStep]
        cases hcrypt : encryptionContextCrypt L (keyedContext L mode ivMode h key) r.mode r.input
          r.outputDataSize r.sectorNumber with
        | none => rfl
        | some result => exact (encryptionContextCrypt_spec hcrypt).2 hc
    exact ⟨hindependent, fetchIndependent_of_historyIndependent hindependent⟩

/-! ### RC4 with a key of zero bytes -/

/-- A generator that takes its bytes from a list. -/
def Rc4State.next : Rc4State → UInt8 × Rc4State
  | ⟨[]⟩ => (0, ⟨[]⟩)
  | ⟨b :: bytes⟩ => (b, ⟨bytes⟩)

/-- The first bytes of the keystream of RC4 for the key of 16 zero bytes. -/
def zeroKeystream : List UInt8 :=
  toBigEndian 16 0xde188941a3375d3a8a061e67576e926d ++
    toBigEndian 16 0xc71a7fa3f0cceb97452b4d3227965f9e

/-- Libraries in which RC4 has the keystream of the key of 16 zero bytes. -/
def rc4Libraries : Libraries :=
  { Libraries.ofTables [] [] [] with
    rc4SetKey := fun key => ⟨if key = List.replicate 16 0 then zeroKeystream else []⟩
    rc4Crypt := cryptWith Rc4State.next
    rc4Crypt_length := length_cryptWith Rc4State.next }

/-- The context of `arc4` in the mode `cbc-plain` with the key of 16 zero bytes. -/
def rc4Context : EncryptionContext :=
  keyedContext rc4Libraries .rc4Cbc .plain32 .unknown (List.replicate 16 0)

theorem historyIndependent_iff_rc4 :
    (HistoryIndependent (cryptStep rc4Libraries) rc4Context ∧
        FetchIndependent rc4Libraries rc4Context) ↔
      ¬ rc4Context.IsRc4 ∨ ¬ InitializationVectorMode.plain32.IsSupported ∨
        ∀ i, generated Rc4State.next (rc4Libraries.rc4SetKey (List.replicate 16 0)) i =
          generated Rc4State.next (rc4Libraries.rc4SetKey (List.replicate 16 0)) 0 :=
  historyIndependent_iff (L := rc4Libraries) (isKeystream_cryptWith Rc4State.next)
    (show encryptionContextInitialize false .arc4 .cbc .plain32 .unknown = some _ from rfl) rfl

/-- The same 16 bytes of the same sector are decrypted twice, with different results. -/
theorem rc4Context_historyDependent :
    (∃ created, encryptionContextInitialize false .arc4 .cbc .plain32 .unknown = some created ∧
        encryptionContextSetKey rc4Libraries created (List.replicate 16 0) = some rc4Context) ∧
      ¬ HistoryIndependent (cryptStep rc4Libraries) rc4Context := by
  refine ⟨⟨_, rfl, rfl⟩, fun hindependent => ?_⟩
  have hsame := hindependent [⟨.decrypt, List.replicate 16 0, 16, 0⟩]
    ⟨.decrypt, List.replicate 16 0, 16, 0⟩
  revert hsame
  decide +kernel

end Libluksde
