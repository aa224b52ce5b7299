import Libluksde.Session

/-!
# Reading one header after another

A volume header object can be read into more than once.  The key slots are appended to those that
are there, and the parsers assign a value only where they recognize a name, so what is left of an
earlier buffer depends on the one before the last call.
-/

namespace Libluksde

open Lib.Bytes Lib.Machine

/-- A call of `libluksde_volume_header_read_data`. -/
structure HeaderRead where
  env : HeaderEnvironment := {}
  data : List UInt8
  dataSize : ℕ

/-- One call: the header, and whether it returns 1. -/
def headerReadStep (L : Libraries) (call : HeaderRead) (header : VolumeHeader) :
    VolumeHeader × Bool :=
  volumeHeaderReadData L call.env header call.data call.dataSize

/-- The header after a sequence of calls on a new one. -/
def headerAfter (L : Libraries) (history : List HeaderRead) : VolumeHeader :=
  stateAfter (headerReadStep L) .cleared history

/-! ## What a call leaves -/

/-- The format version of the data. -/
def HeaderRead.formatVersion (call : HeaderRead) : UInt16 :=
  byteStreamCopyToUInt16BigEndian (call.data.drop 6)

/-- The data pass all checks, and nothing fails. -/
def HeaderRead.Accepted (L : Libraries) (call : HeaderRead) : Prop :=
  HeaderChecks call.data call.dataSize ∧ call.env.identifier L call.data ≠ none ∧
    (call.formatVersion = 1 ∧ (∀ i < 8, call.env.slotFails i = false) ∨
      call.formatVersion = 2 ∧ volumeHeaderV2Size ≤ call.dataSize)

/-- The values of the specification in a header, and its key slots. -/
structure Specification where
  encryptionMethod : EncryptionMethod
  encryptionChainingMode : EncryptionChainingMode
  initializationVectorMode : InitializationVectorMode
  essivHashingMethod : HashingMethod
  hashingMethod : HashingMethod
  keySlotsArray : List KeySlot

@[inherit_doc Specification] def VolumeHeader.specification (header : VolumeHeader) :
    Specification :=
  ⟨header.encryptionMethod, header.encryptionChainingMode, header.initializationVectorMode,
    header.essivHashingMethod, header.hashingMethod, header.keySlotsArray⟩

/-- The encryption method that the data assign. -/
def HeaderRead.method (call : HeaderRead) : Option EncryptionMethod :=
  if call.formatVersion = 1 then parsedEncryptionMethod (slice 8 32 call.data) else none

/-- The chaining mode that the data assign, with the mode of the initialization vectors and the
hashing method of ESSIV that are assigned along with it. -/
def HeaderRead.mode (call : HeaderRead) :
    Option (EncryptionChainingMode × InitializationVectorMode × Option HashingMethod) :=
  if call.formatVersion = 1 then
    (parsedChainingMode (slice 40 32 call.data)).map fun chainingMode =>
      (chainingMode, parsedInitializationVectorMode (slice 40 32 call.data) 3)
  else none

/-- The hashing method that the data assign. -/
def HeaderRead.hash (call : HeaderRead) : Option HashingMethod :=
  if call.formatVersion = 1 then parsedHashingMethod (slice 72 32 call.data) else none

/-- The key slots of the data. -/
def HeaderRead.keySlots (call : HeaderRead) : List KeySlot :=
  if call.formatVersion = 1 then (List.range 8).map fun k => keySlotAt call.data (208 + 48 * k)
  else []

/-- What an accepted call makes of the specification and the key slots. -/
def HeaderRead.apply (call : HeaderRead) (s : Specification) : Specification where
  encryptionMethod := call.method.getD s.encryptionMethod
  encryptionChainingMode := (call.mode.map Prod.fst).getD s.encryptionChainingMode
  initializationVectorMode := (call.mode.map fun mode => mode.2.1).getD s.initializationVectorMode
  essivHashingMethod := (call.mode.bind fun mode => mode.2.2).getD s.essivHashingMethod
  hashingMethod := call.hash.getD s.hashingMethod
  keySlotsArray := s.keySlotsArray ++ call.keySlots

variable {L : Libraries} {call : HeaderRead}

/-- The three parsers one after the other. -/
theorem specification_parse (hversion : call.formatVersion = 1) (header : VolumeHeader) :
    (volumeParseHashingMethod (volumeParseEncryptionMode (volumeParseEncryptionMethod header
      (slice 8 32 call.data)) (slice 40 32 call.data)) (slice 72 32 call.data)).specification =
      { call.apply header.specification with keySlotsArray := header.keySlotsArray } := by
  simp only [HeaderRead.apply, HeaderRead.method, HeaderRead.mode, HeaderRead.hash, if_pos hversion]
  rw [volumeParseHashingMethod, volumeParseEncryptionMode, volumeParseEncryptionMethod]
  cases parsedEncryptionMethod (slice 8 32 call.data) <;>
    cases parsedChainingMode (slice 40 32 call.data) <;>
      cases parsedHashingMethod (slice 72 32 call.data) <;> rfl

/-- An accepted call succeeds on every header, and changes the specification and the key slots as
said. -/
theorem HeaderRead.Accepted.step (h : call.Accepted L) (header : VolumeHeader) :
    (headerReadStep L call header).2 = true ∧
      (headerReadStep L call header).1.specification = call.apply header.specification := by
  obtain ⟨hchecks, hidentifier, hversion⟩ := h
  obtain ⟨volumeIdentifier, hidentifier⟩ := Option.ne_none_iff_exists'.1 hidentifier
  rw [headerReadStep]
  obtain ⟨hone, hslots⟩ | ⟨htwo, hsize⟩ := hversion
  · rw [volumeHeaderReadData_version1 hchecks hone hidentifier, readVersion1Methods]
    have hparse := specification_parse hone (version1Header header call.data volumeIdentifier)
    generalize volumeParseHashingMethod _ _ = parsed at hparse ⊢
    have hsucceeds : (readKeySlots call.env call.data 8 parsed 0 volumeHeaderV1Size).2 = true := by
      rw [readKeySlots_succeeds]
      intro i hi
      rw [Nat.zero_add]
      exact hslots i hi
    have hloop := readKeySlots_inv (Prod.ext rfl hsucceeds)
    refine ⟨hsucceeds, (congrArg VolumeHeader.specification hloop).trans ?_⟩
    -- the loop appends the key slots to those that are there
    have hkeySlots : call.keySlots = (List.range 8).map fun k => keySlotAt call.data (208 + 48 * k) :=
      if_pos hone
    calc ({ parsed with
            keySlotsArray := parsed.keySlotsArray ++ (List.range 8).map fun k =>
              keySlotAt call.data (volumeHeaderV1Size + 48 * k) } : VolumeHeader).specification
        = { parsed.specification with
            keySlotsArray := parsed.specification.keySlotsArray ++ call.keySlots } := by
          rw [hkeySlots]
          rfl
      _ = call.apply header.specification := by
          rw [hparse]
          rfl
  · obtain ⟨hlower, hupper, hsignature⟩ := hchecks
    have hne : ¬ (2 : UInt16) = 1 := by decide
    rw [HeaderEnvironment.identifier] at hidentifier
    rw [HeaderRead.formatVersion] at htwo
    have hread : volumeHeaderReadData L call.env header call.data call.dataSize =
        ({ header with formatVersion := 2, volumeIdentifier := volumeIdentifier }, true) := by
      rw [volumeHeaderReadData, if_neg (by omega), if_neg (by tauto)]
      simp only [htwo]
      rw [if_neg (by tauto), if_neg (by omega), hidentifier]
      simp only [if_neg hne]
    rw [hread]
    refine ⟨rfl, ?_⟩
    have hno : ¬ call.formatVersion = 1 := by
      rw [HeaderRead.formatVersion, htwo]
      exact hne
    simp only [HeaderRead.apply, HeaderRead.method, HeaderRead.mode, HeaderRead.hash,
      HeaderRead.keySlots, if_neg hno, List.append_nil]
    rfl

/-- No other call succeeds. -/
theorem HeaderRead.accepted_of_succeeds {header : VolumeHeader}
    (h : (headerReadStep L call header).2 = true) : call.Accepted L := by
  have hread : volumeHeaderReadData L call.env header call.data call.dataSize =
      ((headerReadStep L call header).1, true) := Prod.ext rfl h
  obtain ⟨hchecks, volumeIdentifier, hidentifier, hversion⟩ := volumeHeaderReadData_inv hread
  refine ⟨hchecks, by rw [hidentifier]; exact Option.some_ne_none _, ?_⟩
  obtain ⟨hone, hmethods⟩ | ⟨htwo, -⟩ := hversion
  · have hsucceeds := congrArg Prod.snd hmethods
    rw [readVersion1Methods, readKeySlots_succeeds] at hsucceeds
    simp only [Nat.zero_add] at hsucceeds
    exact Or.inl ⟨hone, hsucceeds⟩
  · exact Or.inr ⟨htwo, volumeHeaderReadData_version2_size hread htwo⟩

/-- A call that fails behind the checks of its arguments empties the array of the key slots. -/
theorem headerReadStep_fails {header : VolumeHeader} (hlower : volumeHeaderV1Size ≤ call.dataSize)
    (hupper : call.dataSize ≤ ssizeMax) (h : (headerReadStep L call header).2 = false) :
    (headerReadStep L call header).1.keySlotsArray = [] := by
  rw [headerReadStep, volumeHeaderReadData, if_neg (by omega)] at h ⊢
  split
  · rfl
  · rename_i hsignature
    rw [if_neg hsignature] at h
    simp only at h ⊢
    split
    · rfl
    · rename_i hversion
      rw [if_neg hversion] at h
      split
      · rfl
      · rename_i hsize
        rw [if_neg hsize] at h
        cases hidentifier : (if call.env.guidFails then none
          else L.identifierFromUtf8String (slice 168 40 call.data)) with
        | none => rfl
        | some volumeIdentifier =>
          rw [hidentifier] at h
          simp only at h ⊢
          by_cases hone : byteStreamCopyToUInt16BigEndian (call.data.drop 6) = 1
          · simp only [hone, if_true] at h ⊢
            exact readKeySlots_fails h
          · simp only [if_neg hone] at h
            cases h

/-! ## What is left of earlier buffers -/

/-- The call assigns all values of the specification that are not those of a new header, and there
are no key slots yet. -/
structure HeaderRead.Overwrites (call : HeaderRead) (s : Specification) : Prop where
  method : call.method = none → s.encryptionMethod = .unknown
  chainingMode : call.mode = none → s.encryptionChainingMode = .unknown
  ivMode : call.mode = none → s.initializationVectorMode = .unknown
  essiv : (call.mode.bind fun mode => mode.2.2) = none → s.essivHashingMethod = .unknown
  hash : call.hash = none → s.hashingMethod = .unknown
  keySlots : s.keySlotsArray = []

/-- A value that may be assigned does not depend on the one before. -/
theorem getD_eq_getD_iff {α : Type} (o : Option α) (a b : α) :
    o.getD a = o.getD b ↔ (o = none → a = b) := by
  cases o with
  | none => simp
  | some c => simp

/-- The specification does not depend on the one before. -/
theorem HeaderRead.apply_eq_cleared_iff (call : HeaderRead) (s : Specification) :
    call.apply s = call.apply VolumeHeader.cleared.specification ↔ call.Overwrites s := by
  have hmode : ∀ {α : Type} (f : _ → α), call.mode.map f = none ↔ call.mode = none :=
    fun f => Option.map_eq_none_iff
  rw [HeaderRead.apply, HeaderRead.apply, Specification.mk.injEq]
  simp only [getD_eq_getD_iff, hmode, List.append_left_inj]
  constructor
  · rintro ⟨hmethod, hchaining, hiv, hessiv, hhash, hslots⟩
    exact ⟨hmethod, hchaining, hiv, hessiv, hhash, hslots⟩
  · rintro ⟨hmethod, hchaining, hiv, hessiv, hhash, hslots⟩
    exact ⟨hmethod, hchaining, hiv, hessiv, hhash, hslots⟩

/-- After every history of a header, a call that fails behind the checks of its arguments leaves
no key slot, and a call that succeeds leaves what it leaves on a new header, exactly when it
overwrites all that the history has left. -/
theorem headerAfter_lastBuffer_iff (L : Libraries) (history : List HeaderRead) (call : HeaderRead) :
    let header := headerAfter L history
    let last := headerReadStep L call header
    ((last.2 = true →
        last.1.specification = (headerReadStep L call .cleared).1.specification ∧
        (call.formatVersion = 1 → last.1.keySlotsArray =
          (List.range 8).map fun k => keySlotAt call.data (208 + 48 * k))) ∧
      (last.2 = false → volumeHeaderV1Size ≤ call.dataSize → call.dataSize ≤ ssizeMax →
        last.1.keySlotsArray = [])) ↔
    (call.Accepted L → call.Overwrites header.specification) := by
  intro header last
  constructor
  · rintro ⟨hsame, -⟩ haccepted
    obtain ⟨hsucceeds, hlast⟩ := haccepted.step header
    rw [← HeaderRead.apply_eq_cleared_iff, ← hlast, (hsame hsucceeds).1]
    exact (haccepted.step .cleared).2
  · intro hoverwrites
    refine ⟨fun hsucceeds => ?_, fun hfails hlower hupper => headerReadStep_fails hlower hupper hfails⟩
    have haccepted := HeaderRead.accepted_of_succeeds hsucceeds
    have hlast := (haccepted.step header).2
    have heq := (call.apply_eq_cleared_iff _).mpr (hoverwrites haccepted)
    refine ⟨by rw [hlast, heq, (haccepted.step .cleared).2], fun hone => ?_⟩
    have hslots := congrArg Specification.keySlotsArray (hlast.trans heq)
    refine hslots.trans ?_
    rw [HeaderRead.apply, HeaderRead.keySlots, if_pos hone]
    rfl

/-- The header of the small volume, and one without an encryption method. -/
def smallRead : HeaderRead := { data := encodeHeader smallRecord, dataSize := 592 }

@[inherit_doc smallRead] def namelessRead : HeaderRead :=
  { data := encodeHeader { smallRecord with encryptionMethod := .zero 32 }, dataSize := 592 }

/-- Behind a header that was read, the key slots of a second one come after those of the first,
and its encryption method stays. -/
theorem specification_survives :
    let last := headerReadStep smallLibraries namelessRead (headerAfter smallLibraries [smallRead])
    last.2 = true ∧ last.1.formatVersion = 1 ∧ last.1.keySlotsArray.length = 16 ∧
      last.1.encryptionMethod = .aes ∧
      (headerReadStep smallLibraries namelessRead .cleared).1.encryptionMethod = .unknown := by
  decide +kernel

end Libluksde
