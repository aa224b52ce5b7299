import Libluksde.VolumeHeader

/-!
# The names in a header

The three parsers compare bytes one at a time.  This file says what they recognize: the
string up to its end, in lower case, is looked up in a table of names, and of an encryption
mode the part behind the chaining mode is looked up in the table of initialization vector
modes.
-/

namespace Libluksde

open Lib.Bytes

/-! ## Strings -/

/-- The string in a byte field, which ends at the first zero byte. -/
def cString (s : List UInt8) : List UInt8 := s.takeWhile (· != 0)

/-- An ASCII letter in lower case. -/
def lowerByte (b : UInt8) : UInt8 := if 65 ≤ b ∧ b ≤ 90 then b + 32 else b

/-- The string in a byte field, in lower case. -/
def nameOf (s : List UInt8) : List UInt8 := (cString s).map lowerByte

/-- The bytes of a name. -/
def ascii (cs : List Char) : List UInt8 := cs.map fun c => c.val.toUInt8

/-- The characters of the names that the parsers know. -/
def nameChars : List Char :=
  ['a', 'b', 'c', 'd', 'e', 'f', 'h', 'i', 'k', 'l', 'm', 'n', 'o', 'p', 'r', 's', 't', 'u',
    'v', 'w', 'x', '0', '1', '2', '4', '5', '6', '-', ':']

theorem nameChars_compare {c : Char} (hc : c ∈ nameChars) (b : UInt8) :
    ((b == c.val.toUInt8 || b == c.toUpper.val.toUInt8) = (lowerByte b == c.val.toUInt8)) ∧
      c.val.toUInt8 ≠ 0 := by
  have hall : (nameChars.all fun c => (List.range 256).all fun n =>
      ((UInt8.ofNat n == c.val.toUInt8 || UInt8.ofNat n == c.toUpper.val.toUInt8) ==
        (lowerByte (UInt8.ofNat n) == c.val.toUInt8)) && c.val.toUInt8 != 0) = true := by
    decide +kernel
  have h := List.all_eq_true.1 (List.all_eq_true.1 hall c hc) b.toNat (List.mem_range.2 b.toNat_lt)
  rw [UInt8.ofNat_toNat, Bool.and_eq_true] at h
  exact ⟨eq_of_beq h.1, by simpa using h.2⟩

/-- A comparison in both cases is a comparison in lower case. -/
theorem compare_eq {c : Char} (hc : c ∈ nameChars) (b : UInt8) :
    (b == c.val.toUInt8 || b == c.toUpper.val.toUInt8) = (lowerByte b == c.val.toUInt8) :=
  (nameChars_compare hc b).1

theorem code_ne_zero {c : Char} (hc : c ∈ nameChars) : c.val.toUInt8 ≠ 0 :=
  (nameChars_compare hc 0).2

@[simp] theorem nameOf_nil : nameOf [] = [] := rfl

theorem nameOf_cons (b : UInt8) (s : List UInt8) :
    nameOf (b :: s) = if b = 0 then [] else lowerByte b :: nameOf s := by
  by_cases hb : b = 0 <;> simp [nameOf, cString, hb]

theorem byteAt_cons_succ (b : UInt8) (s : List UInt8) (i : ℕ) :
    byteAt (b :: s) (i + 1) = byteAt s i := by
  simp [byteAt]

theorem spells_cons_succ (b : UInt8) (s : List UInt8) (i : ℕ) (cs : List Char) :
    spells (b :: s) (i + 1) cs = spells s i cs := by
  induction cs generalizing i with
  | nil => rfl
  | cons c cs ih => rw [spells, spells, charAt, charAt, byteAt_cons_succ, ih]

/-- `spells` compares a beginning of the name. -/
theorem spells_zero {cs : List Char} (hcs : cs ⊆ nameChars) (s : List UInt8) :
    spells s 0 cs = (ascii cs).isPrefixOf (nameOf s) := by
  induction cs generalizing s with
  | nil => rfl
  | cons c cs ih =>
    have hc := hcs List.mem_cons_self
    have hne := code_ne_zero hc
    cases s with
    | nil =>
      have h0 : charAt [] 0 c = false := by
        rw [charAt, compare_eq hc]
        simpa [byteAt, lowerByte] using hne.symm
      rw [spells, h0]
      rfl
    | cons b s =>
      have h0 : charAt (b :: s) 0 c = (lowerByte b == c.val.toUInt8) := compare_eq hc b
      rw [spells, spells_cons_succ, ih (fun c h => hcs (List.mem_cons_of_mem _ h)), h0,
        nameOf_cons]
      by_cases hb : b = 0
      · subst hb
        have hzero : (lowerByte 0 == c.val.toUInt8) = false := by simpa [lowerByte] using hne.symm
        rw [hzero]
        rfl
      · rw [if_neg hb]
        simp only [ascii, List.map_cons, List.isPrefixOf, Bool.beq_comm (a := lowerByte b)]

/-- `spellsAll` compares the whole name. -/
theorem spellsAll_zero {cs : List Char} (hcs : cs ⊆ nameChars) (s : List UInt8) :
    spellsAll s 0 cs = (nameOf s == ascii cs) := by
  induction cs generalizing s with
  | nil =>
    cases s with
    | nil => rfl
    | cons b s =>
      rw [nameOf_cons]
      by_cases hb : b = 0
      · simp [spellsAll, spells, byteAt, ascii, hb]
      · simp [spellsAll, spells, byteAt, ascii, hb]
  | cons c cs ih =>
    have hc := hcs List.mem_cons_self
    have hne := code_ne_zero hc
    cases s with
    | nil =>
      have h0 : charAt [] 0 c = false := by
        rw [charAt, compare_eq hc]
        simpa [byteAt, lowerByte] using hne.symm
      simp [spellsAll, spells, h0, ascii]
    | cons b s =>
      have h0 : charAt (b :: s) 0 c = (lowerByte b == c.val.toUInt8) := compare_eq hc b
      have htail := ih (fun c h => hcs (List.mem_cons_of_mem _ h)) s
      rw [spellsAll, Nat.zero_add] at htail
      rw [spellsAll, spells, spells_cons_succ, List.length_cons, Nat.zero_add, byteAt_cons_succ,
        Bool.and_assoc, htail, h0, nameOf_cons]
      by_cases hb : b = 0
      · subst hb
        have hzero : (lowerByte 0 == c.val.toUInt8) = false := by simpa [lowerByte] using hne.symm
        rw [hzero]
        simp [ascii]
      · rw [if_neg hb]
        simp [ascii]

/-- A comparison with the first character of a name. -/
theorem charAt_eq {c : Char} (hc : c ∈ nameChars) (s : List UInt8) (i : ℕ) :
    charAt s i c = (lowerByte (byteAt s i) == c.val.toUInt8) := compare_eq hc _

/-- The first comparison of a whole name, and the others. -/
theorem spellsAll_cons (s : List UInt8) (i : ℕ) (c : Char) (cs : List Char) :
    spellsAll s i (c :: cs) = (charAt s i c && spellsAll s (i + 1) cs) := by
  rw [spellsAll, spells, spellsAll, Bool.and_assoc, List.length_cons, Nat.add_assoc, Nat.add_comm 1]

/-! ## The tables -/

/-- The entry of a table of names. -/
def named {α : Type} : (table : List (List Char × α)) → (name : List UInt8) → Option α
  | [], _ => none
  | (cs, a) :: table, name => if name == ascii cs then some a else named table name

/-- The encryption methods by name. -/
def methodNames : List (List Char × EncryptionMethod) :=
  [(['a', 'e', 's'], .aes), (['a', 'r', 'c', '4'], .arc4),
    (['b', 'l', 'o', 'w', 'f', 'i', 's', 'h'], .blowfish), (['c', 'a', 's', 't', '5'], .cast5),
    (['c', 'a', 's', 't', '6'], .cast6), (['s', 'e', 'r', 'p', 'e', 'n', 't'], .serpent),
    (['t', 'w', 'o', 'f', 'i', 's', 'h'], .twofish)]

/-- The hashing methods by name. -/
def hashNames : List (List Char × HashingMethod) :=
  [(['r', 'i', 'p', 'e', 'm', 'd', '1', '6', '0'], .ripemd160), (['s', 'h', 'a', '1'], .sha1),
    (['s', 'h', 'a', '2', '2', '4'], .sha224), (['s', 'h', 'a', '2', '5', '6'], .sha256),
    (['s', 'h', 'a', '5', '1', '2'], .sha512)]

/-- The comparison of a whole name, one character after the other. -/
theorem nameOf_beq {cs : List Char} (hcs : cs ⊆ nameChars) (s : List UInt8) :
    (nameOf s == ascii cs) = spellsAll s 0 cs := (spellsAll_zero hcs s).symm

/-- What the parser of the encryption method recognizes. -/
theorem parsedEncryptionMethod_eq (s : List UInt8) :
    parsedEncryptionMethod s = named methodNames (nameOf s) := by
  have hname : ∀ p ∈ methodNames, (nameOf s == ascii p.1) = spellsAll s 0 p.1 :=
    fun p hp => nameOf_beq ((by decide : ∀ p ∈ methodNames, p.1 ⊆ nameChars) p hp) s
  simp only [methodNames, List.forall_mem_cons, spellsAll_cons s 0] at hname
  obtain ⟨h1, h2, h3, h4, h5, h6, h7, -⟩ := hname
  have ha : charAt s 0 'a' = (lowerByte (byteAt s 0) == 97) := charAt_eq (by decide) s 0
  have hb : charAt s 0 'b' = (lowerByte (byteAt s 0) == 98) := charAt_eq (by decide) s 0
  have hc : charAt s 0 'c' = (lowerByte (byteAt s 0) == 99) := charAt_eq (by decide) s 0
  have hs : charAt s 0 's' = (lowerByte (byteAt s 0) == 115) := charAt_eq (by decide) s 0
  have ht : charAt s 0 't' = (lowerByte (byteAt s 0) == 116) := charAt_eq (by decide) s 0
  have hcast : ∀ d : Char, spellsAll s 1 ['a', 's', 't', d] =
      (spells s 1 ['a', 's', 't'] && byteAt s 5 == 0 && charAt s 4 d) := by
    intro d
    simp only [spellsAll, spells, Bool.and_true, Bool.and_assoc, Bool.and_comm (charAt s 4 d)]
    rfl
  -- each name is found on one path through the comparisons
  simp only [named, methodNames, h1, h2, h3, h4, h5, h6, h7, hcast, parsedEncryptionMethod, ha,
    hb, hc, hs, ht]
  generalize lowerByte (byteAt s 0) = b, (spells s 1 ['a', 's', 't'] && byteAt s 5 == 0) = e
  clear h1 h2 h3 h4 h5 h6 h7 hcast ha hb hc hs ht
  by_cases h97 : b = 97
  · subst h97
    simp
  by_cases h98 : b = 98
  · subst h98
    simp
  by_cases h99 : b = 99
  · subst h99
    cases e <;> simp
  by_cases h115 : b = 115
  · subst h115
    simp
  simp [h97, h98, h99, h115, ite_and]

theorem volumeParseEncryptionMethod_eq (header : VolumeHeader) (s : List UInt8) :
    volumeParseEncryptionMethod header s =
      { header with
        encryptionMethod := (named methodNames (nameOf s)).getD header.encryptionMethod } := by
  rw [volumeParseEncryptionMethod, parsedEncryptionMethod_eq]
  cases named methodNames (nameOf s) <;> rfl

/-- What the parser of the hashing method recognizes. -/
theorem parsedHashingMethod_eq (s : List UInt8) :
    parsedHashingMethod s = named hashNames (nameOf s) := by
  have hname : ∀ p ∈ hashNames, (nameOf s == ascii p.1) = spellsAll s 0 p.1 :=
    fun p hp => nameOf_beq ((by decide : ∀ p ∈ hashNames, p.1 ⊆ nameChars) p hp) s
  simp only [hashNames, List.forall_mem_cons, spellsAll_cons s 0] at hname
  obtain ⟨h1, h2, h3, h4, h5, -⟩ := hname
  have hsha : ∀ cs : List Char, spellsAll s 1 ('h' :: 'a' :: cs) =
      (spells s 1 ['h', 'a'] && spellsAll s 3 cs) := by
    intro cs
    simp only [spellsAll_cons, spells, Bool.and_true, Bool.and_assoc]
  have hr : charAt s 0 'r' = (lowerByte (byteAt s 0) == 114) := charAt_eq (by decide) s 0
  have hs : charAt s 0 's' = (lowerByte (byteAt s 0) == 115) := charAt_eq (by decide) s 0
  simp only [named, hashNames, h1, h2, h3, h4, h5, hsha, parsedHashingMethod, hr, hs]
  generalize lowerByte (byteAt s 0) = b, spells s 1 ['h', 'a'] = e
  clear h1 h2 h3 h4 h5 hsha hr hs
  by_cases h114 : b = 114
  · subst h114
    simp
  by_cases h115 : b = 115
  · subst h115
    cases e <;> simp
  simp [h114, h115]

theorem volumeParseHashingMethod_eq (header : VolumeHeader) (s : List UInt8) :
    volumeParseHashingMethod header s =
      { header with
        hashingMethod := (named hashNames (nameOf s)).getD header.hashingMethod } := by
  rw [volumeParseHashingMethod, parsedHashingMethod_eq]
  cases named hashNames (nameOf s) <;> rfl

/-! ## The encryption mode -/

/-- The initialization vector modes that are recognized behind the chaining mode, each with
the ESSIV hashing method. -/
def ivNames : List (List Char × InitializationVectorMode × Option HashingMethod) :=
  [(['b', 'e', 'n', 'b', 'i'], .benbi, none),
    (['e', 's', 's', 'i', 'v', ':', 's', 'h', 'a', '1'], .essiv, some .sha1),
    (['e', 's', 's', 'i', 'v', ':', 's', 'h', 'a', '2', '5', '6'], .essiv, some .sha256),
    (['l', 'm', 'k'], .lmk, none), (['n', 'u', 'l', 'l'], .null, none),
    (['p', 'l', 'a', 'i', 'n'], .plain32, none),
    (['p', 'l', 'a', 'i', 'n', '6', '4'], .plain64, none)]

theorem spellsAll_cons_succ (b : UInt8) (s : List UInt8) (i : ℕ) (cs : List Char) :
    spellsAll (b :: s) (i + 1) cs = spellsAll s i cs := by
  rw [spellsAll, spellsAll, spells_cons_succ, Nat.add_right_comm, byteAt_cons_succ]

theorem charAt_cons_succ (b : UInt8) (s : List UInt8) (i : ℕ) (c : Char) :
    charAt (b :: s) (i + 1) c = charAt s i c := by
  rw [charAt, charAt, byteAt_cons_succ]

/-- The parser reads behind the separator only. -/
theorem parsedInitializationVectorMode_cons_succ (b : UInt8) (s : List UInt8) (i : ℕ) :
    parsedInitializationVectorMode (b :: s) (i + 1) = parsedInitializationVectorMode s i := by
  simp only [parsedInitializationVectorMode, Nat.add_right_comm i 1, charAt_cons_succ,
    spells_cons_succ, spellsAll_cons_succ, byteAt_cons_succ]

theorem ite_some_getD {α : Type} {p : Prop} [Decidable p] (a d : α) (o : Option α) :
    (if p then some a else o).getD d = if p then a else o.getD d := by
  split <;> rfl

/-- What the parser of the initialization vector mode recognizes behind the separator. -/
theorem parsedInitializationVectorMode_eq (b : UInt8) (s : List UInt8) :
    parsedInitializationVectorMode (b :: s) 0 =
      (named ivNames (nameOf s)).getD (.none, none) := by
  have hname : ∀ p ∈ ivNames, (nameOf s == ascii p.1) = spellsAll s 0 p.1 :=
    fun p hp => nameOf_beq ((by decide : ∀ p ∈ ivNames, p.1 ⊆ nameChars) p hp) s
  simp only [ivNames, List.forall_mem_cons, spellsAll_cons s 0] at hname
  obtain ⟨h1, h2, h3, h4, h5, h6, h7, -⟩ := hname
  have hb : charAt s 0 'b' = (lowerByte (byteAt s 0) == 98) := charAt_eq (by decide) s 0
  have he : charAt s 0 'e' = (lowerByte (byteAt s 0) == 101) := charAt_eq (by decide) s 0
  have hl : charAt s 0 'l' = (lowerByte (byteAt s 0) == 108) := charAt_eq (by decide) s 0
  have hn : charAt s 0 'n' = (lowerByte (byteAt s 0) == 110) := charAt_eq (by decide) s 0
  have hp : charAt s 0 'p' = (lowerByte (byteAt s 0) == 112) := charAt_eq (by decide) s 0
  have hessiv : ∀ cs : List Char,
      spellsAll s 1 ('s' :: 's' :: 'i' :: 'v' :: ':' :: 's' :: 'h' :: 'a' :: cs) =
        (spells s 1 ['s', 's', 'i', 'v', ':'] && spells s 6 ['s', 'h', 'a'] &&
          spellsAll s 9 cs) := by
    intro cs
    simp only [spellsAll_cons, spells, Bool.and_true, Bool.and_assoc]
  have hplain : ∀ cs : List Char, spellsAll s 1 ('l' :: 'a' :: 'i' :: 'n' :: cs) =
      (spells s 1 ['l', 'a', 'i', 'n'] && spellsAll s 5 cs) := by
    intro cs
    simp only [spellsAll_cons, spells, Bool.and_true, Bool.and_assoc]
  have hend : spellsAll s 5 [] = (byteAt s 5 == 0) := by simp [spellsAll, spells]
  simp only [parsedInitializationVectorMode, charAt_cons_succ, spells_cons_succ,
    spellsAll_cons_succ, byteAt_cons_succ, named, ivNames, h1, h2, h3, h4, h5, h6, h7, hessiv,
    hplain, hend, hb, he, hl, hn, hp]
  generalize lowerByte (byteAt s 0) = b', spells s 1 ['s', 's', 'i', 'v', ':'] = e₁,
    spells s 6 ['s', 'h', 'a'] = e₂, spells s 1 ['l', 'a', 'i', 'n'] = e₃
  clear h1 h2 h3 h4 h5 h6 h7 hessiv hplain hend hb he hl hn hp
  by_cases h98 : b' = 98
  · subst h98
    simp [ite_some_getD]
  by_cases h101 : b' = 101
  · subst h101
    cases e₁ <;> cases e₂ <;> simp [ite_some_getD]
  by_cases h108 : b' = 108
  · subst h108
    simp [ite_some_getD]
  by_cases h110 : b' = 110
  · subst h110
    simp [ite_some_getD]
  by_cases h112 : b' = 112
  · subst h112
    cases e₃ <;> simp [ite_some_getD]
  simp [h98, h101, h108, h110, h112]

/-- The parser of the encryption mode only assigns the modes, and the chaining mode as it
recognizes it. -/
theorem volumeParseEncryptionMode_frame (header : VolumeHeader) (s : List UInt8) :
    ∃ v e, volumeParseEncryptionMode header s =
      { header with
        encryptionChainingMode := (parsedChainingMode s).getD header.encryptionChainingMode
        initializationVectorMode := v
        essivHashingMethod := e } := by
  rw [volumeParseEncryptionMode]
  cases parsedChainingMode s with
  | none => exact ⟨_, _, rfl⟩
  | some c => exact ⟨_, _, rfl⟩

/-- What the parser of the chaining mode recognizes. -/
theorem parsedChainingMode_eq (s : List UInt8) :
    parsedChainingMode s =
      if (ascii ['c', 'b', 'c', '-']).isPrefixOf (nameOf s) then some .cbc
      else if nameOf s == ascii ['e', 'c', 'b'] then some .ecb
      else if (ascii ['x', 't', 's', '-']).isPrefixOf (nameOf s) then some .xts
      else none := by
  have h1 : (ascii ['c', 'b', 'c', '-']).isPrefixOf (nameOf s) =
      (charAt s 0 'c' && spells s 1 ['b', 'c', '-']) := (spells_zero (by decide) s).symm
  have h2 : (nameOf s == ascii ['e', 'c', 'b']) = (charAt s 0 'e' && spellsAll s 1 ['c', 'b']) := by
    rw [nameOf_beq (by decide), spellsAll_cons]
  have h3 : (ascii ['x', 't', 's', '-']).isPrefixOf (nameOf s) =
      (charAt s 0 'x' && spells s 1 ['t', 's', '-']) := (spells_zero (by decide) s).symm
  have hc : charAt s 0 'c' = (lowerByte (byteAt s 0) == 99) := charAt_eq (by decide) s 0
  have he : charAt s 0 'e' = (lowerByte (byteAt s 0) == 101) := charAt_eq (by decide) s 0
  have hx : charAt s 0 'x' = (lowerByte (byteAt s 0) == 120) := charAt_eq (by decide) s 0
  simp only [h1, h2, h3, parsedChainingMode, hc, he, hx]
  generalize lowerByte (byteAt s 0) = b
  clear h1 h2 h3 hc he hx
  by_cases h99 : b = 99
  · subst h99
    simp
  by_cases h101 : b = 101
  · subst h101
    simp
  simp [h99, h101, ite_and]

/-- A string that begins with a name is the bytes of the name and a rest. -/
theorem nameOf_of_isPrefixOf {cs : List Char} (hcs : cs ⊆ nameChars)
    {s : List UInt8} (h : (ascii cs).isPrefixOf (nameOf s) = true) :
    ∃ l s', s = l ++ s' ∧ l.length = cs.length ∧ nameOf s = ascii cs ++ nameOf s' := by
  induction cs generalizing s with
  | nil => exact ⟨[], s, rfl, rfl, rfl⟩
  | cons c cs ih =>
    cases s with
    | nil => cases h
    | cons b s =>
      rw [nameOf_cons] at h ⊢
      split at h
      · cases h
      · rename_i hb
        simp only [ascii, List.map_cons, List.isPrefixOf, Bool.and_eq_true, beq_iff_eq] at h
        obtain ⟨l, s', rfl, hl, hs⟩ := ih (fun c h => hcs (List.mem_cons_of_mem _ h)) h.2
        refine ⟨b :: l, s', rfl, by simp [hl], ?_⟩
        rw [if_neg hb, hs, ← h.1]
        rfl

/-- Behind a chaining mode of three letters and a separator, the initialization vector mode
is looked up. -/
theorem parsedInitializationVectorMode_three {cs : List Char} (hcs : cs ⊆ nameChars)
    (hlen : cs.length = 4) {s : List UInt8} (h : (ascii cs).isPrefixOf (nameOf s) = true) :
    parsedInitializationVectorMode s 3 =
      (named ivNames ((nameOf s).drop 4)).getD (.none, none) := by
  obtain ⟨l, s', rfl, hl, hs⟩ := nameOf_of_isPrefixOf hcs h
  have hdrop : (ascii cs ++ nameOf s').drop 4 = nameOf s' := by
    apply List.drop_left'
    simp [ascii, hlen]
  rw [hs, hdrop]
  match l, hl.trans hlen with
  | [b₀, b₁, b₂, b₃], _ =>
    simp only [List.cons_append, List.nil_append, parsedInitializationVectorMode_cons_succ]
    exact parsedInitializationVectorMode_eq b₃ s'

/-- What an encryption mode sets: the chaining mode, the initialization vector mode, and the
hashing method of `essiv`. -/
abbrev ModeValues := EncryptionChainingMode × InitializationVectorMode × Option HashingMethod

/-- A header in which the values of an encryption mode are set. -/
def VolumeHeader.withMode (header : VolumeHeader) (mode : ModeValues) : VolumeHeader :=
  { header with
    encryptionChainingMode := mode.1
    initializationVectorMode := mode.2.1
    essivHashingMethod := mode.2.2.getD header.essivHashingMethod }

/-- What the parser of the encryption mode sets for a string: the initialization vector mode is
looked up behind a separator, and for `ecb` behind the NUL. -/
def recognizedMode (name behindNul : List UInt8) : Option ModeValues :=
  if (ascii ['c', 'b', 'c', '-']).isPrefixOf name then
    some (.cbc, (named ivNames (name.drop 4)).getD (.none, none))
  else if name == ascii ['e', 'c', 'b'] then
    some (.ecb, (named ivNames behindNul).getD (.none, none))
  else if (ascii ['x', 't', 's', '-']).isPrefixOf name then
    some (.xts, (named ivNames (name.drop 4)).getD (.none, none))
  else none

/-- The initialization vector mode is looked up behind the fourth byte. -/
theorem parsedInitializationVectorMode_drop {s : List UInt8} (h : 4 ≤ s.length) :
    parsedInitializationVectorMode s 3 = (named ivNames (nameOf (s.drop 4))).getD (.none, none) := by
  match s, h with
  | b₀ :: b₁ :: b₂ :: b₃ :: s, _ =>
    rw [parsedInitializationVectorMode_cons_succ, parsedInitializationVectorMode_cons_succ,
      parsedInitializationVectorMode_cons_succ, parsedInitializationVectorMode_eq]
    rfl

theorem volumeParseEncryptionMode_eq (header : VolumeHeader) {s : List UInt8} (h : 4 ≤ s.length) :
    volumeParseEncryptionMode header s =
      ((recognizedMode (nameOf s) (nameOf (s.drop 4))).map header.withMode).getD header := by
  have hthree : ∀ {cs : List Char}, cs ⊆ nameChars → cs.length = 4 →
      (ascii cs).isPrefixOf (nameOf s) = true →
      parsedInitializationVectorMode s 3 = (named ivNames ((nameOf s).drop 4)).getD (.none, none) :=
    fun hcs hlength hbegins => parsedInitializationVectorMode_three hcs hlength hbegins
  rw [volumeParseEncryptionMode, parsedChainingMode_eq, recognizedMode]
  by_cases hcbc : (ascii ['c', 'b', 'c', '-']).isPrefixOf (nameOf s) = true
  · rw [if_pos hcbc, if_pos hcbc, hthree (by decide) rfl hcbc]
    rfl
  · rw [if_neg hcbc, if_neg hcbc]
    by_cases hecb : (nameOf s == ascii ['e', 'c', 'b']) = true
    · rw [if_pos hecb, if_pos hecb, parsedInitializationVectorMode_drop h]
      rfl
    · rw [if_neg hecb, if_neg hecb]
      by_cases hxts : (ascii ['x', 't', 's', '-']).isPrefixOf (nameOf s) = true
      · rw [if_pos hxts, if_pos hxts, hthree (by decide) rfl hxts]
        rfl
      · rw [if_neg hxts, if_neg hxts]
        rfl

end Libluksde
