import Mathlib.Data.List.Nodup
import Libluksde.DocumentedNames

/-!
# The strings of a specification

A specification is a string of at most 32 bytes that ends at its NUL.  This file has the parser of
the documented grammar, and compares it with the three parsers of the header: what they make of a
string, and whether what follows the NUL has a part in it.  It has in one place: the parser of
the encryption mode takes the NUL of `ecb` for a separator.
-/

namespace Libluksde

open Lib.Bytes

/-! ## The documented grammar -/

/-- A string up to a separator, and what is behind it. -/
def splitSeparator (separator : UInt8) : List UInt8 → List UInt8 × Option (List UInt8)
  | [] => ([], none)
  | b :: s =>
    if b = separator then ([], some s)
    else ((b :: (splitSeparator separator s).1), (splitSeparator separator s).2)

/-- The encryption methods that have a constant. -/
def referenceMethods : List (List Char × EncryptionMethod) :=
  (['a', 'n', 'u', 'b', 'i', 's'], .anubis) :: methodNames

/-- The chaining modes that have a constant. -/
def referenceChainingModes : List (List Char × EncryptionChainingMode) :=
  [(['c', 'b', 'c'], .cbc), (['e', 'c', 'b'], .ecb), (['x', 't', 's'], .xts)]

/-- The initialization vector modes without options that have a constant. -/
def referenceVectorModes : List (List Char × InitializationVectorMode) :=
  [(['b', 'e', 'n', 'b', 'i'], .benbi), (['l', 'm', 'k'], .lmk), (['n', 'u', 'l', 'l'], .null),
    (['p', 'l', 'a', 'i', 'n'], .plain32), (['p', 'l', 'a', 'i', 'n', '6', '4'], .plain64)]

/-- `initialization_vector_mode[:initialization_vector_options]`: the mode `essiv` takes a hashing
method, and the others no option. -/
def referenceVectorMode (name : List UInt8) :
    Option (InitializationVectorMode × Option HashingMethod) :=
  match splitSeparator 0x3a name with
  | (mode, none) => (named referenceVectorModes mode).map fun mode => (mode, none)
  | (mode, some options) =>
    if mode = ascii ['e', 's', 's', 'i', 'v'] then
      (named hashNames options).map fun hash => (.essiv, some hash)
    else none

/-- `chaining_mode[-initialization_vector_mode[:initialization_vector_options]]`, where `ecb` has
no initialization vector mode. -/
def referenceMode (name : List UInt8) : Option ModeValues :=
  match splitSeparator 0x2d name with
  | (mode, none) => (named referenceChainingModes mode).map fun mode => (mode, .none, none)
  | (mode, some vector) =>
    if mode = ascii ['e', 'c', 'b'] then none
    else
      (named referenceChainingModes mode).bind fun mode =>
        (referenceVectorMode vector).map fun vector => (mode, vector)

theorem splitSeparator_none {separator : UInt8} {s name : List UInt8}
    (h : splitSeparator separator s = (name, none)) : s = name := by
  induction s generalizing name with
  | nil =>
    cases h
    rfl
  | cons b s ih =>
    rw [splitSeparator] at h
    split at h
    · cases h
    · obtain ⟨h1, h2⟩ := Prod.mk.inj h
      have htail := ih (Prod.ext rfl h2)
      rw [← h1]
      exact congrArg (b :: ·) htail

theorem splitSeparator_some {separator : UInt8} {s name rest : List UInt8}
    (h : splitSeparator separator s = (name, some rest)) : s = name ++ separator :: rest := by
  induction s generalizing name with
  | nil => cases h
  | cons b s ih =>
    rw [splitSeparator] at h
    split at h
    · rename_i hb
      cases h
      rw [hb]
      rfl
    · obtain ⟨h1, h2⟩ := Prod.mk.inj h
      have htail := ih (Prod.ext rfl h2)
      rw [← h1, List.cons_append, ← htail]

/-- The strings of the grammar for an initialization vector mode, with their values. -/
def referenceVectorStrings :
    List (List Char × InitializationVectorMode × Option HashingMethod) :=
  referenceVectorModes.map (fun v => (v.1, v.2, none)) ++
    hashNames.map fun h => (['e', 's', 's', 'i', 'v', ':'] ++ h.1, .essiv, some h.2)

/-- The strings of the grammar for an encryption mode, with their values. -/
def referenceModeStrings : List (List Char × ModeValues) :=
  referenceChainingModes.map (fun c => (c.1, c.2, .none, none)) ++
    (referenceChainingModes.filter (·.1 ≠ ['e', 'c', 'b'])).flatMap fun c =>
      referenceVectorStrings.map fun v => (c.1 ++ ['-'] ++ v.1, c.2, v.2)

theorem ascii_append (cs cs' : List Char) : ascii (cs ++ cs') = ascii cs ++ ascii cs' :=
  List.map_append

theorem referenceVectorMode_some {name : List UInt8}
    {vector : InitializationVectorMode × Option HashingMethod}
    (h : referenceVectorMode name = some vector) :
    ∃ cs, (cs, vector) ∈ referenceVectorStrings ∧ name = ascii cs := by
  rw [referenceVectorMode] at h
  split at h
  · rename_i mode hsplit
    obtain ⟨v, hv, rfl⟩ := Option.map_eq_some_iff.mp h
    obtain ⟨cs, hmem, rfl⟩ := named_some hv
    refine ⟨cs, List.mem_append_left _ (List.mem_map_of_mem (f := fun v => (v.1, v.2, none)) hmem),
      splitSeparator_none hsplit⟩
  · rename_i mode options hsplit
    split at h
    · rename_i hessiv
      obtain ⟨hash, hhash, rfl⟩ := Option.map_eq_some_iff.mp h
      obtain ⟨cs, hmem, rfl⟩ := named_some hhash
      refine ⟨['e', 's', 's', 'i', 'v', ':'] ++ cs, List.mem_append_right _ (List.mem_map.mpr
        ⟨_, hmem, rfl⟩), ?_⟩
      rw [splitSeparator_some hsplit, hessiv, ascii_append]
      rfl
    · cases h

/-- The grammar has no other strings. -/
theorem referenceMode_some {name : List UInt8} {mode : ModeValues}
    (h : referenceMode name = some mode) :
    ∃ cs, (cs, mode) ∈ referenceModeStrings ∧ name = ascii cs := by
  rw [referenceMode] at h
  split at h
  · rename_i chaining hsplit
    obtain ⟨c, hc, rfl⟩ := Option.map_eq_some_iff.mp h
    obtain ⟨cs, hmem, rfl⟩ := named_some hc
    exact ⟨cs, List.mem_append_left _ (List.mem_map.mpr ⟨_, hmem, rfl⟩), splitSeparator_none hsplit⟩
  · rename_i chaining vectorName hsplit
    split at h
    · cases h
    · rename_i hecb
      obtain ⟨c, hc, hvector⟩ := Option.bind_eq_some_iff.mp h
      obtain ⟨vector, hv, rfl⟩ := Option.map_eq_some_iff.mp hvector
      obtain ⟨cs, hmem, rfl⟩ := named_some hc
      obtain ⟨vs, hvmem, rfl⟩ := referenceVectorMode_some hv
      refine ⟨cs ++ ['-'] ++ vs, List.mem_append_right _ (List.mem_flatMap.mpr
        ⟨(cs, c), ?_, List.mem_map.mpr ⟨_, hvmem, rfl⟩⟩), ?_⟩
      · refine List.mem_filter.mpr ⟨hmem, ?_⟩
        rw [decide_eq_true_iff]
        rintro rfl
        exact hecb rfl
      · rw [splitSeparator_some hsplit, ascii_append, ascii_append, List.append_assoc]
        rfl

/-! ## What is behind the NUL -/

/-- The names of the initialization vector modes that are recognized. -/
def vectorNames : List (List UInt8) := ivNames.map fun v => ascii v.1

theorem named_eq_none_iff {α : Type} {table : List (List Char × α)} {name : List UInt8} :
    named table name = none ↔ name ∉ table.map fun p => ascii p.1 := by
  induction table with
  | nil => simp [named]
  | cons p table ih =>
    obtain ⟨cs, a⟩ := p
    rw [named]
    split
    · rename_i hname
      simp [beq_iff_eq.mp hname]
    · rename_i hname
      rw [ih, List.map_cons, List.mem_cons, not_or]
      exact (and_iff_right (by simpa using hname)).symm

/-- In a table without a value twice, two names have the same value when they are equal or both
are not in it. -/
theorem named_eq_named_iff {α : Type} {table : List (List Char × α)}
    (hnodup : (table.map Prod.snd).Nodup) {name name' : List UInt8} :
    named table name = named table name' ↔
      name = name' ∨ named table name = none ∧ named table name' = none := by
  constructor
  · intro heq
    cases hname : named table name with
    | none => exact Or.inr ⟨rfl, heq ▸ hname⟩
    | some a =>
      obtain ⟨cs, hmem, rfl⟩ := named_some hname
      obtain ⟨cs', hmem', rfl⟩ := named_some (heq ▸ hname)
      refine Or.inl ?_
      have hentry : (cs, a) = (cs', a) := List.inj_on_of_nodup_map hnodup hmem hmem' rfl
      rw [(Prod.mk.inj hentry).1]
  · rintro (rfl | ⟨hname, hname'⟩)
    · rfl
    · rw [hname, hname']

/-- The values that a look-up of an initialization vector mode can have. -/
def vectorValues : List (Option (InitializationVectorMode × Option HashingMethod)) :=
  none :: ivNames.map fun v => some v.2

theorem named_ivNames_mem (name : List UInt8) : named ivNames name ∈ vectorValues := by
  cases hname : named ivNames name with
  | none => exact List.mem_cons_self
  | some v =>
    obtain ⟨cs, hmem, -⟩ := named_some hname
    exact List.mem_cons_of_mem _ (List.mem_map.mpr ⟨(cs, v), hmem, rfl⟩)

/-- The values of an initialization vector mode can be told from a header in which they are
set. -/
theorem withMode_vector_injective {header : VolumeHeader} {chaining : EncryptionChainingMode}
    {name name' : List UInt8}
    (h : header.withMode (chaining, (named ivNames name).getD (.none, none)) =
      header.withMode (chaining, (named ivNames name').getD (.none, none))) :
    named ivNames name = named ivNames name' := by
  have hmode := congrArg VolumeHeader.initializationVectorMode h
  have hessiv := congrArg VolumeHeader.essivHashingMethod h
  have hall : ∀ essiv : HashingMethod, ∀ v ∈ vectorValues, ∀ v' ∈ vectorValues,
      (v.getD (.none, none)).1 = (v'.getD (.none, none)).1 →
      (v.getD (.none, none)).2.getD essiv = (v'.getD (.none, none)).2.getD essiv → v = v' := by
    intro essiv
    cases essiv <;> decide
  exact hall header.essivHashingMethod _ (named_ivNames_mem name) _ (named_ivNames_mem name')
    hmode hessiv

/-- Behind the NUL of `ecb` both fields have the same initialization vector mode, in upper or
lower case, or both have none. -/
def SameBehindNul (s t : List UInt8) : Prop :=
  nameOf (s.drop 4) = nameOf (t.drop 4) ∨
    nameOf (s.drop 4) ∉ vectorNames ∧ nameOf (t.drop 4) ∉ vectorNames

/-- What is behind the NUL is looked at for `ecb` only. -/
theorem recognizedMode_of_ne {name : List UInt8} (hne : name ≠ ascii ['e', 'c', 'b'])
    (behind behind' : List UInt8) : recognizedMode name behind = recognizedMode name behind' := by
  have hno : ¬ (name == ascii ['e', 'c', 'b']) = true := by simpa using hne
  rw [recognizedMode, recognizedMode, if_neg hno, if_neg hno]

theorem recognizedMode_ecb (behind : List UInt8) : recognizedMode (ascii ['e', 'c', 'b']) behind =
    some (.ecb, (named ivNames behind).getD (.none, none)) := rfl

/-- Two fields with the same string are parsed alike, but for what is behind the NUL of `ecb`. -/
theorem volumeParseEncryptionMode_eq_iff (header : VolumeHeader) {s t : List UInt8}
    (hs : 4 ≤ s.length) (ht : 4 ≤ t.length) (h : nameOf s = nameOf t) :
    volumeParseEncryptionMode header s = volumeParseEncryptionMode header t ↔
      (nameOf s = ascii ['e', 'c', 'b'] → SameBehindNul s t) := by
  rw [volumeParseEncryptionMode_eq header hs, volumeParseEncryptionMode_eq header ht, ← h]
  by_cases hecb : nameOf s = ascii ['e', 'c', 'b']
  · rw [hecb, recognizedMode_ecb, recognizedMode_ecb, SameBehindNul, vectorNames,
      ← named_eq_none_iff, ← named_eq_none_iff, ← named_eq_named_iff (by decide)]
    constructor
    · intro heq _
      exact withMode_vector_injective heq
    · intro heq
      rw [heq rfl]
  · rw [recognizedMode_of_ne hecb (nameOf (s.drop 4)) (nameOf (t.drop 4))]
    exact iff_of_true rfl fun hno => absurd hno hecb

/-! ## What the parsers make of the grammar -/

/-- The strings of the grammar that the parser of the encryption mode does not recognize as a
whole: a chaining mode with an initialization vector mode stands alone, or `essiv` has another
hashing method than `sha1` and `sha256`. -/
def unrecognizedModes : List (List Char) :=
  [['c', 'b', 'c'], ['x', 't', 's']] ++
    [['c', 'b', 'c', '-'], ['x', 't', 's', '-']].flatMap fun c =>
      [['r', 'i', 'p', 'e', 'm', 'd', '1', '6', '0'], ['s', 'h', 'a', '2', '2', '4'],
        ['s', 'h', 'a', '5', '1', '2']].map fun h => c ++ ['e', 's', 's', 'i', 'v', ':'] ++ h

/-- Two values of an encryption mode are the same when they make the same of a new header. -/
theorem withMode_cleared_injective {mode mode' : ModeValues}
    (hmode : mode.2.2 ≠ some .unknown) (hmode' : mode'.2.2 ≠ some .unknown)
    (h : VolumeHeader.cleared.withMode mode = VolumeHeader.cleared.withMode mode') :
    mode = mode' := by
  obtain ⟨c, v, e⟩ := mode
  obtain ⟨c', v', e'⟩ := mode'
  have hchaining : c = c' := congrArg VolumeHeader.encryptionChainingMode h
  have hvector : v = v' := congrArg VolumeHeader.initializationVectorMode h
  have hessiv : e.getD .unknown = e'.getD .unknown := congrArg VolumeHeader.essivHashingMethod h
  have hhash : e = e' := by
    cases e with
    | none =>
      cases e' with
      | none => rfl
      | some hash' => exact absurd (congrArg some hessiv.symm) hmode'
    | some hash =>
      cases e' with
      | none => exact absurd (congrArg some hessiv) hmode
      | some hash' => exact congrArg some hessiv
  rw [hchaining, hvector, hhash]

/-- The parser of the encryption mode and the grammar agree on a string of the grammar. -/
theorem recognizedMode_reference {cs : List Char} {mode : ModeValues}
    (hmem : (cs, mode) ∈ referenceModeStrings) (behind : List UInt8) :
    recognizedMode (ascii cs) behind = some mode ↔
      ascii cs ∉ unrecognizedModes.map ascii ∧
        (ascii cs = ascii ['e', 'c', 'b'] → behind ∉ vectorNames) := by
  by_cases hecb : ascii cs = ascii ['e', 'c', 'b']
  · have hvalues : ∀ p ∈ referenceModeStrings, ascii p.1 = ascii ['e', 'c', 'b'] →
        p.2 = (.ecb, .none, none) ∧ ascii p.1 ∉ unrecognizedModes.map ascii := by decide +kernel
    obtain ⟨hmode, hrecognized⟩ := hvalues _ hmem hecb
    have hnone : ∀ v ∈ vectorValues, v.getD (.none, none) = (.none, none) ↔ v = none := by decide
    rw [and_iff_right hrecognized, forall_prop_of_true hecb, vectorNames, ← named_eq_none_iff,
      ← hnone _ (named_ivNames_mem behind), hecb, recognizedMode_ecb,
      show mode = (.ecb, .none, none) from hmode]
    constructor
    · intro heq
      exact (Prod.mk.inj (Option.some.inj heq)).2
    · intro heq
      rw [heq]
  · have hvalues : ∀ p ∈ referenceModeStrings, ascii p.1 ≠ ascii ['e', 'c', 'b'] →
        (recognizedMode (ascii p.1) [] = some p.2 ↔ ascii p.1 ∉ unrecognizedModes.map ascii) := by
      decide +kernel
    rw [recognizedMode_of_ne hecb behind [], hvalues _ hmem hecb]
    exact (and_iff_left fun hno => absurd hno hecb).symm

/-- No name of the grammar sets the hashing method of `essiv` to an unknown one. -/
theorem referenceModeStrings_essiv {cs : List Char} {mode : ModeValues}
    (hmem : (cs, mode) ∈ referenceModeStrings) :
    mode.1 ≠ .unknown ∧ mode.2.2 ≠ some .unknown := by
  have hall : ∀ p ∈ referenceModeStrings, p.2.1 ≠ .unknown ∧ p.2.2.2 ≠ some .unknown := by
    decide +kernel
  exact hall _ hmem

theorem recognizedMode_essiv {name behind : List UInt8} {mode : ModeValues}
    (h : recognizedMode name behind = some mode) : mode.2.2 ≠ some .unknown := by
  have hall : ∀ v ∈ vectorValues,
      (v.getD (InitializationVectorMode.none, none)).2 ≠ some HashingMethod.unknown := by decide
  rw [recognizedMode] at h
  split at h
  · cases h
    exact hall _ (named_ivNames_mem _)
  · split at h
    · cases h
      exact hall _ (named_ivNames_mem _)
    · split at h
      · cases h
        exact hall _ (named_ivNames_mem _)
      · cases h

/-- A string of the grammar sets the documented values in every header exactly when it is
recognized as a whole, with nothing behind the NUL of `ecb`. -/
theorem volumeParseEncryptionMode_reference {s : List UInt8} {mode : ModeValues}
    (hlength : 4 ≤ s.length) (h : referenceMode (nameOf s) = some mode) :
    (∀ header, volumeParseEncryptionMode header s = header.withMode mode) ↔
      nameOf s ∉ unrecognizedModes.map ascii ∧
        (nameOf s = ascii ['e', 'c', 'b'] → nameOf (s.drop 4) ∉ vectorNames) := by
  obtain ⟨cs, hmem, hname⟩ := referenceMode_some h
  rw [hname, ← recognizedMode_reference hmem, ← hname]
  constructor
  · intro hparse
    have hcleared := hparse .cleared
    rw [volumeParseEncryptionMode_eq _ hlength] at hcleared
    obtain ⟨hchaining, hessiv⟩ := referenceModeStrings_essiv hmem
    cases hrecognized : recognizedMode (nameOf s) (nameOf (s.drop 4)) with
    | none =>
      -- nothing is set, and the chaining mode of a new header is not known
      rw [hrecognized] at hcleared
      exact absurd (congrArg VolumeHeader.encryptionChainingMode hcleared).symm hchaining
    | some mode' =>
      rw [hrecognized] at hcleared
      rw [withMode_cleared_injective (recognizedMode_essiv hrecognized) hessiv hcleared]
  · intro hrecognized header
    rw [volumeParseEncryptionMode_eq _ hlength, hrecognized]
    rfl

theorem volumeParseEncryptionMethod_reference {s : List UInt8} {method : EncryptionMethod}
    (h : named referenceMethods (nameOf s) = some method) :
    (∀ header, volumeParseEncryptionMethod header s = { header with encryptionMethod := method }) ↔
      nameOf s ≠ ascii ['a', 'n', 'u', 'b', 'i', 's'] := by
  rw [referenceMethods, named] at h
  constructor
  · intro hparse hanubis
    have hcleared := congrArg VolumeHeader.encryptionMethod (hparse .cleared)
    rw [hanubis, if_pos (beq_self_eq_true _)] at h
    rw [volumeParseEncryptionMethod_eq, hanubis, ← Option.some.inj h] at hcleared
    have hnone : named methodNames (ascii ['a', 'n', 'u', 'b', 'i', 's']) = none := by decide
    rw [hnone] at hcleared
    cases hcleared
  · intro hne header
    rw [if_neg (by simpa using hne)] at h
    rw [volumeParseEncryptionMethod_eq, h]
    rfl

/-- A field and another one with the same string up to the NUL are parsed alike by the parsers of
the methods, and by the parser of the mode exactly when the string is not `ecb` or what is behind
its NUL has the same initialization vector mode.  On a string of the documented grammar, the parsers
set the documented values exactly when the method is not `anubis` and the mode is one that is
recognized as a whole, with no initialization vector mode behind the NUL of `ecb`. -/
theorem specifications_iff (s : Buffer 32) :
    (∀ t : Buffer 32, cString s.bytes = cString t.bytes → ∀ header,
      volumeParseEncryptionMethod header s.bytes = volumeParseEncryptionMethod header t.bytes ∧
      volumeParseHashingMethod header s.bytes = volumeParseHashingMethod header t.bytes ∧
      (volumeParseEncryptionMode header s.bytes = volumeParseEncryptionMode header t.bytes ↔
        (nameOf s.bytes = ascii ['e', 'c', 'b'] → SameBehindNul s.bytes t.bytes))) ∧
    (∀ method, named referenceMethods (nameOf s.bytes) = some method →
      ((∀ header, volumeParseEncryptionMethod header s.bytes =
          { header with encryptionMethod := method }) ↔
        nameOf s.bytes ≠ ascii ['a', 'n', 'u', 'b', 'i', 's'])) ∧
    (∀ method, named hashNames (nameOf s.bytes) = some method →
      ∀ header, volumeParseHashingMethod header s.bytes =
        { header with hashingMethod := method }) ∧
    ∀ mode, referenceMode (nameOf s.bytes) = some mode →
      ((∀ header, volumeParseEncryptionMode header s.bytes = header.withMode mode) ↔
        nameOf s.bytes ∉ unrecognizedModes.map ascii ∧
          (nameOf s.bytes = ascii ['e', 'c', 'b'] →
            nameOf (s.bytes.drop 4) ∉ vectorNames)) := by
  have hlength : ∀ s : Buffer 32, 4 ≤ s.bytes.length := by
    intro s
    rw [s.length_eq]
    decide
  constructor
  · intro t hsame header
    have hname : nameOf s.bytes = nameOf t.bytes := by rw [nameOf, nameOf, hsame]
    refine ⟨?_, ?_, volumeParseEncryptionMode_eq_iff header (hlength s) (hlength t) hname⟩
    · rw [volumeParseEncryptionMethod_eq, volumeParseEncryptionMethod_eq, hname]
    · rw [volumeParseHashingMethod_eq, volumeParseHashingMethod_eq, hname]
  · refine ⟨fun method h => volumeParseEncryptionMethod_reference h, ?_,
      fun mode h => volumeParseEncryptionMode_reference (hlength s) h⟩
    intro method h header
    rw [volumeParseHashingMethod_eq, h]
    rfl

/-- The string `ecb` with the name of an initialization vector mode behind its NUL. -/
def ecbPlain : Buffer 32 :=
  .ofBytes 32 (ascii ['e', 'c', 'b'] ++ [0] ++ ascii ['p', 'l', 'a', 'i', 'n'])

/-- What is behind the NUL of another string has no part in it. -/
theorem specifications_iff_cbc :
    let s : Buffer 32 := .ofBytes 32 (ascii ['c', 'b', 'c', '-', 'p', 'l', 'a', 'i', 'n'])
    let t : Buffer 32 := .ofBytes 32 (ascii ['c', 'b', 'c', '-', 'p', 'l', 'a', 'i', 'n'] ++ [0] ++
      ascii ['e', 's', 's', 'i', 'v'])
    volumeParseEncryptionMode .cleared s.bytes = volumeParseEncryptionMode .cleared t.bytes ∧
      ∀ header, volumeParseEncryptionMode header s.bytes =
        header.withMode (.cbc, .plain32, none) :=
  ⟨(((specifications_iff _).1 _ (by decide +kernel) .cleared).2.2).2
      (fun h => absurd h (by decide +kernel)),
    ((specifications_iff _).2.2.2 _ (by decide +kernel)).2
      ⟨by decide +kernel, fun h => absurd h (by decide +kernel)⟩⟩

/-- What is behind the NUL of `ecb` is parsed, and `cbc` alone sets nothing. -/
theorem ecbPlain_parsedBehindNul :
    let ecb : Buffer 32 := .ofBytes 32 (ascii ['e', 'c', 'b'])
    let cbc : Buffer 32 := .ofBytes 32 (ascii ['c', 'b', 'c'])
    cString ecbPlain.bytes = cString ecb.bytes ∧
    volumeParseEncryptionMode .cleared ecbPlain.bytes =
      VolumeHeader.cleared.withMode (.ecb, .plain32, none) ∧
    volumeParseEncryptionMode .cleared ecb.bytes =
      VolumeHeader.cleared.withMode (.ecb, .none, none) ∧
    referenceMode (nameOf ecbPlain.bytes) = some (.ecb, .none, none) ∧
    referenceMode (nameOf cbc.bytes) = some (.cbc, .none, none) ∧
    volumeParseEncryptionMode .cleared cbc.bytes = .cleared := by
  decide +kernel

end Libluksde
