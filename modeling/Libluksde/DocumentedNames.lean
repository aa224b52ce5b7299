import Libluksde.OpenSpec
import Libluksde.HeaderRoundTrip

/-!
# The documented names

The documentation lists the names of the encryption methods, chaining modes, initialization
vector modes and hashing methods, and gives the form of an encryption mode.  This file states the
lists and the form, and how they compare to what the parsers recognize: every recognized name is
a documented one, and of an encryption mode that is not documented no more than the chaining mode
is recognized.
-/

namespace Libluksde

open Lib.Bytes

/-! ## The documentation -/

/-- The documented encryption methods. -/
def documentedMethods : List (List Char) :=
  [['a', 'r', 'c', '4'], ['a', 'e', 's'], ['a', 'n', 'u', 'b', 'i', 's'],
    ['b', 'l', 'o', 'w', 'f', 'i', 's', 'h'], ['c', 'a', 's', 't', '5'],
    ['c', 'a', 's', 't', '6'], ['s', 'e', 'r', 'p', 'e', 'n', 't'],
    ['t', 'n', 'e', 'p', 'r', 'e', 's'], ['t', 'w', 'o', 'f', 'i', 's', 'h']]

/-- The documented hashing methods. -/
def documentedHashes : List (List Char) :=
  [['r', 'i', 'p', 'e', 'm', 'd', '1', '6', '0'], ['s', 'h', 'a', '1'], ['s', 'h', 'a', '2', '2', '4'],
    ['s', 'h', 'a', '2', '5', '6'], ['s', 'h', 'a', '5', '1', '2'], ['w', 'd', '2', '5', '6']]

/-- The documented chaining modes. -/
def documentedChainingModes : List (List Char) := [['c', 'b', 'c'], ['e', 'c', 'b'], ['x', 't', 's']]

/-- The documented initialization vector modes that can stand without options. -/
def documentedVectorModes : List (List Char) :=
  [['b', 'e', 'n', 'b', 'i'], ['l', 'm', 'k'], ['n', 'u', 'l', 'l'], ['p', 'l', 'a', 'i', 'n'],
    ['p', 'l', 'a', 'i', 'n', '6', '4'], ['p', 'l', 'u', 'm', 'b']]

/-- `initialization_vector_mode[:initialization_vector_options]`, where `essiv` takes a hashing
method as its option. -/
def DocumentedVectorMode (name : List UInt8) : Prop :=
  (∃ v ∈ documentedVectorModes, name = ascii v ∨ ascii (v ++ [':']) <+: name) ∨
    ∃ h ∈ documentedHashes, name = ascii (['e', 's', 's', 'i', 'v', ':'] ++ h)

/-- `chaining_mode[-initialization_vector_mode[:initialization_vector_options]]` -/
def DocumentedMode (name : List UInt8) : Prop :=
  ∃ c ∈ documentedChainingModes, name = ascii c ∨
    ascii (c ++ ['-']) <+: name ∧ DocumentedVectorMode (name.drop 4)

/-- The names of a header are documented ones. -/
structure Documented (encryptionMethod encryptionMode hashingMethod : Buffer 32) : Prop where
  method : ∃ cs ∈ documentedMethods, nameOf encryptionMethod.bytes = ascii cs
  mode : DocumentedMode (nameOf encryptionMode.bytes)
  hash : ∃ cs ∈ documentedHashes, nameOf hashingMethod.bytes = ascii cs

instance (name : List UInt8) : Decidable (DocumentedVectorMode name) :=
  inferInstanceAs (Decidable ((_ : Prop) ∨ (_ : Prop)))

instance (name : List UInt8) : Decidable (DocumentedMode name) :=
  inferInstanceAs (Decidable (∃ c ∈ documentedChainingModes, (_ : Prop)))

/-! ## What the parsers recognize of it -/

/-- An entry that is found in a table of names. -/
theorem named_some {α : Type} {table : List (List Char × α)} {name : List UInt8} {a : α}
    (h : named table name = some a) : ∃ cs, (cs, a) ∈ table ∧ name = ascii cs := by
  induction table with
  | nil => cases h
  | cons p table ih =>
    obtain ⟨cs, b⟩ := p
    rw [named] at h
    split at h
    · rename_i hname
      cases h
      exact ⟨cs, List.mem_cons_self, beq_iff_eq.1 hname⟩
    · obtain ⟨cs', hmem, hname⟩ := ih h
      exact ⟨cs', List.mem_cons_of_mem _ hmem, hname⟩

/-- A recognized initialization vector mode is a documented one. -/
theorem documentedVectorMode_of_named {name : List UInt8}
    {a : InitializationVectorMode × Option HashingMethod} (h : named ivNames name = some a) :
    DocumentedVectorMode name := by
  obtain ⟨cs, hmem, rfl⟩ := named_some h
  have hall : ∀ p ∈ ivNames, DocumentedVectorMode (ascii p.1) := by decide
  exact hall _ hmem

/-- The encryption modes of which a beginning is recognized: a chaining mode and a separator. -/
theorem parsedChainingMode_undocumented {s : List UInt8} (hmode : ¬ DocumentedMode (nameOf s)) :
    parsedChainingMode s =
      if ascii ['c', 'b', 'c', '-'] <+: nameOf s then some .cbc
      else if ascii ['x', 't', 's', '-'] <+: nameOf s then some .xts
      else none := by
  have hecb : (nameOf s == ascii ['e', 'c', 'b']) = false := by
    by_contra hno
    exact hmode ⟨['e', 'c', 'b'], by decide, Or.inl (beq_iff_eq.1 (by simpa using hno))⟩
  rw [parsedChainingMode_eq, hecb]
  simp only [List.isPrefixOf_iff_prefix, Bool.false_eq_true, if_false]

/-- Of an encryption mode that is not documented no initialization vector mode is recognized. -/
theorem volumeParseEncryptionMode_undocumented {s : List UInt8} {chainingMode : EncryptionChainingMode}
    (hmode : ¬ DocumentedMode (nameOf s)) (hparsed : parsedChainingMode s = some chainingMode)
    (header : VolumeHeader) :
    volumeParseEncryptionMode header s =
      { header with encryptionChainingMode := chainingMode, initializationVectorMode := .none } := by
  have hbehind : ∀ cs ∈ documentedChainingModes, cs ++ ['-'] ⊆ nameChars →
      cs.length = 3 → ascii (cs ++ ['-']) <+: nameOf s →
      parsedInitializationVectorMode s 3 = (.none, none) := by
    intro cs hcs hchars hlength hbegins
    rw [parsedInitializationVectorMode_three hchars (by simp [hlength])
      (List.isPrefixOf_iff_prefix.2 hbegins)]
    cases hnamed : named ivNames ((nameOf s).drop 4) with
    | none => rfl
    | some a =>
      exact absurd ⟨cs, hcs, Or.inr ⟨hbegins, documentedVectorMode_of_named hnamed⟩⟩ hmode
  have hvector : parsedInitializationVectorMode s 3 = (.none, none) := by
    rw [parsedChainingMode_undocumented hmode] at hparsed
    split_ifs at hparsed with hcbc hxts
    · exact hbehind ['c', 'b', 'c'] (by decide) (by decide) rfl hcbc
    · exact hbehind ['x', 't', 's'] (by decide) (by decide) rfl hxts
  rw [volumeParseEncryptionMode, hparsed]
  simp only [hvector]
  rfl

/-! ## The names of an accepted header -/

/-- The file begins with a header of version 1 that has these names. -/
structure HasNames (file : FileIoHandle)
    (encryptionMethod encryptionMode hashingMethod : Buffer 32) : Prop where
  version : byteStreamCopyToUInt16BigEndian (slice 6 2 file.image) = 1
  method : slice 8 32 file.image = encryptionMethod.bytes
  mode : slice 40 32 file.image = encryptionMode.bytes
  hash : slice 72 32 file.image = hashingMethod.bytes

/-- What an accepted header of version 1 has of its names. -/
theorem HeaderOf.names {L : Libraries} {env : HeaderEnvironment} {file : FileIoHandle}
    {header : VolumeHeader} (h : HeaderOf L env file header)
    {encryptionMethod encryptionMode hashingMethod : Buffer 32}
    (hnames : HasNames file encryptionMethod encryptionMode hashingMethod) :
    header.encryptionMethod =
        (named methodNames (nameOf encryptionMethod.bytes)).getD .unknown ∧
      header.encryptionChainingMode = (parsedChainingMode encryptionMode.bytes).getD .unknown ∧
      header.hashingMethod = (named hashNames (nameOf hashingMethod.bytes)).getD .unknown := by
  have hread := h.read
  unfold volumeHeaderReadFileIoHandle at hread
  split at hread
  · cases hread
  rename_i data hdata
  split at hread
  · cases hread
  -- the header was read from the beginning of the file
  have hslice : ∀ {i n : ℕ}, i + n ≤ 4096 → slice i n data = slice i n file.image := by
    intro i n hin
    rw [FileIoHandle.readBufferAtOffset] at hdata
    split_ifs at hdata
    cases hdata
    rw [Int.toNat_zero, slice_slice hin, Nat.zero_add]
  have hversion : byteStreamCopyToUInt16BigEndian (data.drop 6) = 1 := by
    rw [← hnames.version, ← hslice (by omega)]
    simp [byteStreamCopyToUInt16BigEndian, byteAt, slice, List.getD]
  obtain ⟨-, identifier, -, ⟨-, hread⟩ | ⟨hversion2, -⟩⟩ := volumeHeaderReadData_inv hread
  · obtain ⟨v, e, rfl⟩ := readVersion1Methods_inv hread
    rw [hslice (by omega), hslice (by omega), hslice (by omega), hnames.method, hnames.mode,
      hnames.hash]
    exact ⟨rfl, rfl, rfl⟩
  · rw [hversion] at hversion2
    exact absurd hversion2 (by decide)

end Libluksde
