import Libluksde.Lib.Bytes
import Mathlib.Data.List.Basic

/-!
# Reading the options

The `luksdetools_getopt` of `luksdetools/luksdetools_getopt.c`, for platforms that have no `getopt`,
in a build with narrow strings, whose characters are signed.  A string is given without its NUL, and
a pointer into an argument is what follows it.

A grammar says what arguments spell which options.  The loop of the tools reads exactly these; and
it reads behind the end of an argument exactly when one is reached that is a single dash.
-/

namespace Libluksde

open Lib.Bytes

/-! ## The function -/

/-- A character as a `system_integer_t`. -/
def systemInteger (character : UInt8) : ℤ :=
  if character.toNat < 128 then character.toNat else (character.toNat : ℤ) - 256

/-- The variables of the file. -/
structure GetoptState where
  optind : ℕ := 1
  optarg : Option (List UInt8) := none
  optopt : ℤ := 0
  nextOption : Option (List UInt8) := none
deriving DecidableEq

/-- `system_string_search_character`: what is in the string from the character on. -/
def systemStringSearchCharacter (string : List UInt8) (character : UInt8) : List UInt8 :=
  string.dropWhile (· ≠ character)

/-- An argument is left when its last option was refused. -/
def GetoptState.refused (s : GetoptState) (argumentValue : List UInt8) : GetoptState :=
  if argumentValue = [] then { s with optind := s.optind + 1 } else s

/-- The part of `luksdetools_getopt` from the reading of the option on, with what is left of the
argument.  The result is the option, `?` or `:`. -/
def getoptOption (argumentValues : List (List UInt8)) (optionsString : List UInt8)
    (s : GetoptState) : List UInt8 → Option (GetoptState × ℤ)
  -- the option is the NUL, and the character behind it is read
  | [] => none
  | character :: argumentValue =>
    let optopt := systemInteger character
    let s := { s with optopt := optopt }
    match systemStringSearchCharacter optionsString character with
    | [] => some (s.refused argumentValue, 0x3f)
    | _ :: optionValue =>
      if optopt = 0x3a then some (s.refused argumentValue, 0x3f)
      else if optionValue.head? ≠ some 0x3a then
        let s := { s with optarg := none }
        if argumentValue = [] then some ({ s with optind := s.optind + 1 }, optopt)
        else some ({ s with nextOption := some argumentValue }, optopt)
      else if argumentValue ≠ [] then
        some ({ s with optarg := some argumentValue, optind := s.optind + 1 }, optopt)
      else
        match argumentValues[s.optind + 1]? with
        | none => some ({ s with optind := s.optind + 1 }, 0x3a)
        | some argument =>
          some ({ s with optarg := some argument, optind := s.optind + 2 }, optopt)

/-- `luksdetools_getopt`, without a result where the behaviour is not defined. -/
def luksdetoolsGetopt (argumentValues : List (List UInt8)) (optionsString : List UInt8)
    (s : GetoptState) : Option (GetoptState × ℤ) :=
  let option (argumentValue : List UInt8) :=
    getoptOption argumentValues optionsString { s with nextOption := none } argumentValue
  match s.nextOption with
  | some argumentValue => option argumentValue
  | none =>
    match argumentValues[s.optind]? with
    | none => some (s, -1)
    | some argumentValue =>
      if argumentValue.head? ≠ some 0x2d then some (s, -1)
      else if argumentValue.tail.head? = some 0x2d then
        some ({ s with optind := s.optind + 1 }, -1)
      else option argumentValue.tail

/-- How the reading of the options ends. -/
inductive GetoptOutcome
  | parsed (options : List (ℤ × Option (List UInt8))) (operands : List (List UInt8))
  | refused (options : List (ℤ × Option (List UInt8))) (last : ℤ)
  | undefined
deriving DecidableEq

/-- The options that were read before. -/
def GetoptOutcome.cons (option : ℤ × Option (List UInt8)) : GetoptOutcome → GetoptOutcome
  | .parsed options operands => .parsed (option :: options) operands
  | .refused options last => .refused (option :: options) last
  | .undefined => .undefined

/-- The loop of the tools over the options, which ends at -1, with the operands behind the options,
and at `?` and `:`. -/
def getoptLoop (argumentValues : List (List UInt8)) (optionsString : List UInt8) :
    ℕ → GetoptState → Option GetoptOutcome
  | 0, _ => none
  | fuel + 1, s =>
    match luksdetoolsGetopt argumentValues optionsString s with
    | none => some .undefined
    | some (s, option) =>
      if option = -1 then some (.parsed [] (argumentValues.drop s.optind))
      else if option = 0x3f ∨ option = 0x3a then some (.refused [] option)
      else (getoptLoop argumentValues optionsString fuel s).map (.cons (option, s.optarg))

/-! ## The grammar -/

/-- What a character of a group of options is. -/
inductive OptionKind
  | flag | withArgument | unknown
deriving DecidableEq

/-- The kind of a character. -/
def optionKind (optionsString : List UInt8) (character : UInt8) : OptionKind :=
  match systemStringSearchCharacter optionsString character with
  | [] => .unknown
  | _ :: optionValue =>
    if character = 0x3a ∨ character = 0x3f then .unknown
    else if optionValue.head? = some 0x3a then .withArgument
    else .flag

/-- What is left of a group of options, and the arguments behind it, spell options. -/
inductive Spells (optionsString : List UInt8) :
    List UInt8 → List (List UInt8) → List (ℤ × Option (List UInt8)) → Prop
  | done : Spells optionsString [] [] []
  | group {character : UInt8} {group : List UInt8} {arguments : List (List UInt8)}
      {options : List (ℤ × Option (List UInt8))} (hdash : character ≠ 0x2d)
      (h : Spells optionsString (character :: group) arguments options) :
      Spells optionsString [] ((0x2d :: character :: group) :: arguments) options
  | flag {character : UInt8} {group : List UInt8} {arguments : List (List UInt8)}
      {options : List (ℤ × Option (List UInt8))}
      (hkind : optionKind optionsString character = .flag)
      (h : Spells optionsString group arguments options) :
      Spells optionsString (character :: group) arguments
        ((systemInteger character, none) :: options)
  | attached {character : UInt8} {argument : List UInt8} {arguments : List (List UInt8)}
      {options : List (ℤ × Option (List UInt8))}
      (hkind : optionKind optionsString character = .withArgument) (hne : argument ≠ [])
      (h : Spells optionsString [] arguments options) :
      Spells optionsString (character :: argument) arguments
        ((systemInteger character, some argument) :: options)
  | detached {character : UInt8} {argument : List UInt8} {arguments : List (List UInt8)}
      {options : List (ℤ × Option (List UInt8))}
      (hkind : optionKind optionsString character = .withArgument)
      (h : Spells optionsString [] arguments options) :
      Spells optionsString [character] (argument :: arguments)
        ((systemInteger character, some argument) :: options)

/-- The operands begin at an argument without a dash, or behind one with two. -/
inductive EndsOptions : List (List UInt8) → List (List UInt8) → Prop
  | nil : EndsOptions [] []
  | operand {operand : List UInt8} {operands : List (List UInt8)}
      (hdash : operand.head? ≠ some 0x2d) : EndsOptions (operand :: operands) (operand :: operands)
  | dashes {argument : List UInt8} {operands : List (List UInt8)} :
      EndsOptions ((0x2d :: 0x2d :: argument) :: operands) operands

/-! ## One call -/

/-- The state is at the rest of a group of options, with these arguments behind it. -/
def GetoptState.At (argumentValues : List (List UInt8)) (s : GetoptState) :
    List UInt8 → List (List UInt8) → Prop
  | [], arguments => s.nextOption = none ∧ argumentValues.drop s.optind = arguments
  | character :: group, arguments =>
    s.nextOption = some (character :: group) ∧ argumentValues.drop (s.optind + 1) = arguments

variable {argumentValues arguments : List (List UInt8)} {optionsString group : List UInt8}
  {s : GetoptState}

/-- What a call on a character of a group does. -/
inductive OptionCall (argumentValues : List (List UInt8)) (optionsString : List UInt8)
    (character : UInt8) (group : List UInt8) (arguments : List (List UInt8)) :
    GetoptState × ℤ → Prop
  | flag {s : GetoptState} (hkind : optionKind optionsString character = .flag)
      (hoptarg : s.optarg = none) (hat : s.At argumentValues group arguments) :
      OptionCall argumentValues optionsString character group arguments
        (s, systemInteger character)
  | attached {s : GetoptState} (hkind : optionKind optionsString character = .withArgument)
      (hne : group ≠ []) (hoptarg : s.optarg = some group)
      (hat : s.At argumentValues [] arguments) :
      OptionCall argumentValues optionsString character group arguments
        (s, systemInteger character)
  | detached {s : GetoptState} {argument : List UInt8} {rest : List (List UInt8)}
      (hkind : optionKind optionsString character = .withArgument) (hgroup : group = [])
      (harguments : arguments = argument :: rest) (hoptarg : s.optarg = some argument)
      (hat : s.At argumentValues [] rest) :
      OptionCall argumentValues optionsString character group arguments
        (s, systemInteger character)
  | missing {s : GetoptState} (hkind : optionKind optionsString character = .withArgument)
      (hgroup : group = []) (harguments : arguments = []) :
      OptionCall argumentValues optionsString character group arguments (s, 0x3a)
  | unknown {s : GetoptState} {result : ℤ}
      (hkind : optionKind optionsString character = .unknown)
      (hresult : result = 0x3f ∨ result = 0x3a) :
      OptionCall argumentValues optionsString character group arguments (s, result)

/-- Characters are told apart as numbers. -/
theorem systemInteger_inj {character c : UInt8} :
    systemInteger character = systemInteger c ↔ character = c := by
  refine ⟨fun h => UInt8.toNat_inj.1 ?_, fun h => by rw [h]⟩
  have hcharacter := character.toNat_lt
  have hc := c.toNat_lt
  unfold systemInteger at h
  split_ifs at h
  · omega
  · omega
  · omega
  · omega

theorem systemInteger_eq_colon {character : UInt8} :
    systemInteger character = 0x3a ↔ character = 0x3a := systemInteger_inj (c := 0x3a)

theorem systemInteger_eq_mark {character : UInt8} :
    systemInteger character = 0x3f ↔ character = 0x3f := systemInteger_inj (c := 0x3f)

/-- The character that is taken for the end of the options. -/
theorem systemInteger_eq_end {character : UInt8} :
    systemInteger character = -1 ↔ character = 0xff := systemInteger_inj (c := 0xff)

/-- A character that is not in a string is not found. -/
theorem systemStringSearchCharacter_of_not_mem {string : List UInt8} {character : UInt8}
    (h : character ∉ string) : systemStringSearchCharacter string character = [] := by
  induction string with
  | nil => rfl
  | cons c string ih =>
    obtain ⟨hne, hmem⟩ := not_or.1 (List.mem_cons.not.1 h)
    rw [systemStringSearchCharacter, List.dropWhile_cons_of_pos (by simpa using Ne.symm hne)]
    exact ih hmem

theorem optionKind_eq {character c : UInt8} {optionValue : List UInt8}
    (hsearch : systemStringSearchCharacter optionsString character = c :: optionValue)
    (hknown : ¬ (character = 0x3a ∨ character = 0x3f)) :
    optionKind optionsString character =
      if optionValue.head? = some 0x3a then .withArgument else .flag := by
  rw [optionKind, hsearch]
  exact if_neg hknown

theorem optionKind_unknown {character : UInt8}
    (h : systemStringSearchCharacter optionsString character = [] ∨ character = 0x3a ∨
      character = 0x3f) : optionKind optionsString character = .unknown := by
  rw [optionKind]
  rcases hsearch : systemStringSearchCharacter optionsString character with - | ⟨c, optionValue⟩
  · rfl
  · rw [hsearch] at h
    exact if_pos (h.resolve_left (List.cons_ne_nil _ _))

/-- One call on a character of a group. -/
theorem getoptOption_call (optionsString : List UInt8) (s : GetoptState) (character : UInt8)
    (group : List UInt8) (hnext : s.nextOption = none)
    (harguments : argumentValues.drop (s.optind + 1) = arguments) :
    ∃ result, getoptOption argumentValues optionsString s (character :: group) = some result ∧
      OptionCall argumentValues optionsString character group arguments result := by
  rw [getoptOption]
  dsimp only
  rcases hsearch : systemStringSearchCharacter optionsString character with - | ⟨c, optionValue⟩
  · exact ⟨_, rfl, .unknown (optionKind_unknown (Or.inl hsearch)) (Or.inl rfl)⟩
  dsimp only
  by_cases hcolon : character = 0x3a
  · rw [if_pos (systemInteger_eq_colon.2 hcolon)]
    exact ⟨_, rfl, .unknown (optionKind_unknown (Or.inr (Or.inl hcolon))) (Or.inl rfl)⟩
  rw [if_neg fun h => hcolon (systemInteger_eq_colon.1 h)]
  -- a question mark is returned as an option, and taken for an error
  by_cases hmark : character = 0x3f
  · have hkind : optionKind optionsString character = .unknown :=
      optionKind_unknown (Or.inr (Or.inr hmark))
    have hresult := systemInteger_eq_mark.2 hmark
    split_ifs
    · exact ⟨_, rfl, .unknown hkind (Or.inl hresult)⟩
    · exact ⟨_, rfl, .unknown hkind (Or.inl hresult)⟩
    · exact ⟨_, rfl, .unknown hkind (Or.inl hresult)⟩
    · split
      · exact ⟨_, rfl, .unknown hkind (Or.inr rfl)⟩
      · exact ⟨_, rfl, .unknown hkind (Or.inl hresult)⟩
  have hkind := optionKind_eq hsearch (not_or.2 ⟨hcolon, hmark⟩)
  by_cases hargument : optionValue.head? = some 0x3a
  · rw [if_pos hargument] at hkind
    rw [if_neg (not_not.2 hargument)]
    by_cases hgroup : group = []
    · rw [if_neg (not_not.2 hgroup)]
      rcases hnth : argumentValues[s.optind + 1]? with - | argument
      · refine ⟨_, rfl, .missing hkind hgroup ?_⟩
        rw [← harguments, List.drop_eq_nil_of_le (List.getElem?_eq_none_iff.1 hnth)]
      · obtain ⟨hlt, rfl⟩ := List.getElem?_eq_some_iff.1 hnth
        refine ⟨_, rfl, .detached hkind hgroup ?_ rfl ⟨hnext, rfl⟩⟩
        rw [← harguments, List.drop_eq_getElem_cons hlt]
    · rw [if_pos hgroup]
      exact ⟨_, rfl, .attached hkind hgroup rfl ⟨hnext, harguments⟩⟩
  · rw [if_neg hargument] at hkind
    rw [if_pos hargument]
    rcases group with - | ⟨next, group⟩
    · rw [if_pos rfl]
      exact ⟨_, rfl, .flag hkind rfl ⟨hnext, harguments⟩⟩
    · rw [if_neg (List.cons_ne_nil _ _)]
      exact ⟨_, rfl, .flag hkind rfl ⟨rfl, harguments⟩⟩

variable (optionsString) in
/-- A call in a group. -/
theorem GetoptState.At.call {character : UInt8}
    (h : s.At argumentValues (character :: group) arguments) :
    ∃ result, luksdetoolsGetopt argumentValues optionsString s = some result ∧
      OptionCall argumentValues optionsString character group arguments result := by
  obtain ⟨hnext, harguments⟩ := h
  obtain ⟨result, hoption, hcall⟩ := getoptOption_call optionsString { s with nextOption := none }
    character group rfl harguments
  refine ⟨result, ?_, hcall⟩
  rw [luksdetoolsGetopt, hnext]
  dsimp only
  rw [hoption]

/-- The argument at which a call begins. -/
theorem GetoptState.At.getElem?_optind {argument : List UInt8}
    (h : s.At argumentValues [] (argument :: arguments)) :
    argumentValues[s.optind]? = some argument ∧
      argumentValues.drop (s.optind + 1) = arguments := by
  obtain ⟨-, harguments⟩ := h
  constructor
  · rw [← List.head?_drop, harguments, List.head?_cons]
  · rw [← List.tail_drop, harguments, List.tail_cons]

variable (optionsString) in
/-- A call at the beginning of a group is one in the group. -/
theorem GetoptState.At.beginGroup {character : UInt8} (hdash : character ≠ 0x2d)
    (h : s.At argumentValues [] ((0x2d :: character :: group) :: arguments)) :
    GetoptState.At argumentValues { s with nextOption := some (character :: group) }
        (character :: group) arguments ∧
      luksdetoolsGetopt argumentValues optionsString s =
        luksdetoolsGetopt argumentValues optionsString
          { s with nextOption := some (character :: group) } := by
  obtain ⟨hargument, harguments⟩ := h.getElem?_optind
  obtain ⟨hnext, -⟩ := h
  have hsingle : ¬ (character :: group).head? = some 0x2d := by simpa using hdash
  refine ⟨⟨rfl, harguments⟩, ?_⟩
  rw [luksdetoolsGetopt, hnext]
  dsimp only
  rw [hargument]
  dsimp only
  rw [if_neg (not_not.2 List.head?_cons), List.tail_cons, if_neg hsingle]
  rfl

/-- A call at a single dash. -/
theorem GetoptState.At.call_dash (h : s.At argumentValues [] ([0x2d] :: arguments)) :
    luksdetoolsGetopt argumentValues optionsString s = none := by
  obtain ⟨hargument, -⟩ := h.getElem?_optind
  obtain ⟨hnext, -⟩ := h
  rw [luksdetoolsGetopt, hnext]
  dsimp only
  rw [hargument]
  rfl

variable (optionsString) in
/-- A call behind the options. -/
theorem GetoptState.At.call_operands {operands : List (List UInt8)}
    (h : s.At argumentValues [] arguments) (hends : EndsOptions arguments operands) :
    ∃ s', luksdetoolsGetopt argumentValues optionsString s = some (s', -1) ∧
      argumentValues.drop s'.optind = operands := by
  cases hends with
  | nil =>
    obtain ⟨hnext, harguments⟩ := h
    have hnone : argumentValues[s.optind]? = none :=
      List.getElem?_eq_none_iff.2 (List.drop_eq_nil_iff.1 harguments)
    refine ⟨s, ?_, harguments⟩
    rw [luksdetoolsGetopt, hnext]
    dsimp only
    rw [hnone]
  | @operand operand operands hdash =>
    obtain ⟨hargument, -⟩ := h.getElem?_optind
    obtain ⟨hnext, harguments⟩ := h
    refine ⟨s, ?_, harguments⟩
    rw [luksdetoolsGetopt, hnext]
    dsimp only
    rw [hargument]
    exact if_pos hdash
  | @dashes argument operands =>
    obtain ⟨hargument, harguments⟩ := h.getElem?_optind
    obtain ⟨hnext, -⟩ := h
    refine ⟨{ s with optind := s.optind + 1 }, ?_, harguments⟩
    rw [luksdetoolsGetopt, hnext]
    dsimp only
    rw [hargument]
    rfl

/-! ## The loop -/

/-- One round of the loop in which the end of the options is not reached. -/
theorem getoptLoop_call {result : GetoptState × ℤ}
    (h : luksdetoolsGetopt argumentValues optionsString s = some result) (hend : result.2 ≠ -1)
    (fuel : ℕ) :
    getoptLoop argumentValues optionsString (fuel + 1) s =
      if result.2 = 0x3f ∨ result.2 = 0x3a then some (.refused [] result.2)
      else (getoptLoop argumentValues optionsString fuel result.1).map
        (.cons (result.2, result.1.optarg)) := by
  rw [getoptLoop, h]
  exact if_neg hend

/-- What is returned for an option that is known is no sign of an error, and no end. -/
theorem systemInteger_of_optionKind {character : UInt8} (hchars : 0xff ∉ optionsString)
    (h : optionKind optionsString character ≠ .unknown) :
    systemInteger character ≠ -1 ∧
      ¬ (systemInteger character = 0x3f ∨ systemInteger character = 0x3a) := by
  rw [ne_eq, systemInteger_eq_end, systemInteger_eq_mark, systemInteger_eq_colon]
  refine ⟨fun hend => h (optionKind_unknown (Or.inl ?_)), fun hrefused =>
    h (optionKind_unknown (Or.inr hrefused.symm))⟩
  rw [hend]
  exact systemStringSearchCharacter_of_not_mem hchars

theorem getoptLoop_congr {s' : GetoptState}
    (h : luksdetoolsGetopt argumentValues optionsString s =
      luksdetoolsGetopt argumentValues optionsString s') (fuel : ℕ) :
    getoptLoop argumentValues optionsString fuel s =
      getoptLoop argumentValues optionsString fuel s' := by
  cases fuel with
  | zero => rfl
  | succ fuel => rw [getoptLoop, getoptLoop, h]

/-- The options of a group that has just been begun. -/
theorem GetoptState.At.getoptLoop_beginGroup {character : UInt8} (hdash : character ≠ 0x2d)
    (h : s.At argumentValues [] ((0x2d :: character :: group) :: arguments)) :
    ∃ s', GetoptState.At argumentValues s' (character :: group) arguments ∧
      ∀ fuel, getoptLoop argumentValues optionsString fuel s =
        getoptLoop argumentValues optionsString fuel s' := by
  obtain ⟨hin, hsame⟩ := GetoptState.At.beginGroup optionsString hdash h
  exact ⟨_, hin, getoptLoop_congr hsame⟩

/-- A round in which an option is read. -/
theorem getoptLoop_option {s₁ : GetoptState} {character : UInt8}
    (h : luksdetoolsGetopt argumentValues optionsString s = some (s₁, systemInteger character))
    (hchars : 0xff ∉ optionsString) (hkind : optionKind optionsString character ≠ .unknown)
    (fuel : ℕ) :
    getoptLoop argumentValues optionsString (fuel + 1) s =
      (getoptLoop argumentValues optionsString fuel s₁).map
        (.cons (systemInteger character, s₁.optarg)) := by
  obtain ⟨hend, hrefused⟩ := systemInteger_of_optionKind hchars hkind
  rw [getoptLoop_call h hend, if_neg hrefused]

/-- The options that are read from then on, with that option before them. -/
theorem getoptLoop_cons {s₁ s' : GetoptState} {character : UInt8} {optarg : Option (List UInt8)}
    {options : List (ℤ × Option (List UInt8))} {fuel : ℕ}
    (h : luksdetoolsGetopt argumentValues optionsString s = some (s₁, systemInteger character))
    (hchars : 0xff ∉ optionsString) (hkind : optionKind optionsString character ≠ .unknown)
    (hoptarg : s₁.optarg = optarg)
    (hloop : getoptLoop argumentValues optionsString (fuel + options.length) s₁ =
      (getoptLoop argumentValues optionsString fuel s').map fun outcome =>
        options.foldr .cons outcome) :
    getoptLoop argumentValues optionsString
        (fuel + ((systemInteger character, optarg) :: options).length) s =
      (getoptLoop argumentValues optionsString fuel s').map fun outcome =>
        ((systemInteger character, optarg) :: options).foldr .cons outcome := by
  have hround := getoptLoop_option h hchars hkind (fuel + options.length)
  rw [List.length_cons, ← Nat.add_assoc, hround, hloop, hoptarg, Option.map_map]
  rfl

/-- Arguments that spell options are read one option after the other, by induction on how they
spell them. -/
theorem Spells.getoptLoop {words : List (List UInt8)}
    {options : List (ℤ × Option (List UInt8))} (h : Spells optionsString group words options)
    (hchars : 0xff ∉ optionsString) {rest : List (List UInt8)} {s : GetoptState}
    (hat : s.At argumentValues group (words ++ rest)) (fuel : ℕ) :
    ∃ s', GetoptState.At argumentValues s' [] rest ∧
      Libluksde.getoptLoop argumentValues optionsString (fuel + options.length) s =
        (Libluksde.getoptLoop argumentValues optionsString fuel s').map fun outcome =>
          options.foldr .cons outcome := by
  induction h generalizing s with
  | done => exact ⟨s, hat, by simp⟩
  | @group character group words options hdash h ih =>
    obtain ⟨s₁, hin, hsame⟩ := GetoptState.At.getoptLoop_beginGroup hdash hat
    obtain ⟨s', hat', hloop⟩ := ih hin
    exact ⟨s', hat', (hsame _).trans hloop⟩
  | @flag character group words options hkind h ih =>
    obtain ⟨result, hcall, hresult⟩ := GetoptState.At.call optionsString hat
    cases hresult with
    | flag _ hoptarg hin =>
      obtain ⟨s', hat', hloop⟩ := ih hin
      exact ⟨s', hat', getoptLoop_cons hcall hchars (by rw [hkind]; decide) hoptarg hloop⟩
    | attached hkind' => cases hkind.symm.trans hkind'
    | detached hkind' => cases hkind.symm.trans hkind'
    | missing hkind' => cases hkind.symm.trans hkind'
    | unknown hkind' => cases hkind.symm.trans hkind'
  | @attached character argument words options hkind hne h ih =>
    obtain ⟨result, hcall, hresult⟩ := GetoptState.At.call optionsString hat
    cases hresult with
    | flag hkind' => cases hkind.symm.trans hkind'
    | attached _ _ hoptarg hin =>
      obtain ⟨s', hat', hloop⟩ := ih hin
      exact ⟨s', hat', getoptLoop_cons hcall hchars (by rw [hkind]; decide) hoptarg hloop⟩
    | detached _ hnil => exact absurd hnil hne
    | missing _ hnil => exact absurd hnil hne
    | unknown hkind' => cases hkind.symm.trans hkind'
  | @detached character argument words options hkind h ih =>
    obtain ⟨result, hcall, hresult⟩ := GetoptState.At.call optionsString hat
    cases hresult with
    | flag hkind' => cases hkind.symm.trans hkind'
    | attached _ hne => exact absurd rfl hne
    | detached _ _ harguments hoptarg hin =>
      obtain ⟨rfl, rfl⟩ := List.cons.inj harguments
      obtain ⟨s', hat', hloop⟩ := ih hin
      exact ⟨s', hat', getoptLoop_cons hcall hchars (by rw [hkind]; decide) hoptarg hloop⟩
    | missing _ _ harguments => cases harguments
    | unknown hkind' => cases hkind.symm.trans hkind'

/-- What an outcome says about the arguments. -/
def GetoptOutcome.Accounts (optionsString group : List UInt8) (arguments : List (List UInt8)) :
    GetoptOutcome → Prop
  | .parsed options operands => ∃ words rest, arguments = words ++ rest ∧
      Spells optionsString group words options ∧ EndsOptions rest operands
  | .refused _ _ => True
  | .undefined => ∃ words rest options, arguments = words ++ [0x2d] :: rest ∧
      Spells optionsString group words options

/-- An option before what the rest of the arguments spells. -/
theorem GetoptOutcome.Accounts.cons {group' : List UInt8} {arguments' : List (List UInt8)}
    {option : ℤ × Option (List UInt8)} {outcome : GetoptOutcome}
    (h : outcome.Accounts optionsString group' arguments') (words' : List (List UInt8))
    (hspells : ∀ words options, Spells optionsString group' words options →
      Spells optionsString group (words' ++ words) (option :: options))
    (harguments : arguments = words' ++ arguments') :
    (outcome.cons option).Accounts optionsString group arguments := by
  cases outcome with
  | parsed options operands =>
    obtain ⟨words, rest, rfl, hoptions, hends⟩ := h
    have hwords : arguments = words' ++ words ++ rest := by rw [harguments, List.append_assoc]
    exact ⟨words' ++ words, rest, hwords, hspells _ _ hoptions, hends⟩
  | refused options character => trivial
  | undefined =>
    obtain ⟨words, rest, options, rfl, hoptions⟩ := h
    exact ⟨words' ++ words, rest, _, by rw [harguments, List.append_assoc], hspells _ _ hoptions⟩

/-- How many characters and arguments are left. -/
def getoptSize (group : List UInt8) (arguments : List (List UInt8)) : ℕ :=
  group.length + (arguments.map fun argument => argument.length + 1).sum

/-- What the loop has done, if that holds for the rounds after the next one. -/
theorem getoptLoop_accounts_group {fuel : ℕ} {character : UInt8} (hchars : 0xff ∉ optionsString)
    (ih : ∀ {s : GetoptState} {group : List UInt8} {arguments : List (List UInt8)},
      s.At argumentValues group arguments → getoptSize group arguments < fuel →
      ∃ outcome, getoptLoop argumentValues optionsString fuel s = some outcome ∧
        outcome.Accounts optionsString group arguments)
    (hat : s.At argumentValues (character :: group) arguments)
    (hfuel : getoptSize (character :: group) arguments < fuel + 1) :
    ∃ outcome, getoptLoop argumentValues optionsString (fuel + 1) s = some outcome ∧
      outcome.Accounts optionsString (character :: group) arguments := by
  obtain ⟨result, hcall, hresult⟩ := GetoptState.At.call optionsString hat
  cases hresult with
  | @flag s₁ hkind hoptarg hin =>
    obtain ⟨outcome, hloop, haccounts⟩ := ih hin (by
      simp only [getoptSize, List.length_cons] at hfuel ⊢
      omega)
    refine ⟨outcome.cons (systemInteger character, none), ?_, ?_⟩
    · rw [getoptLoop_option hcall hchars (by rw [hkind]; decide), hloop, hoptarg]
      rfl
    · exact haccounts.cons [] (fun _ _ hspells => .flag hkind hspells) rfl
  | @attached s₁ hkind hne hoptarg hin =>
    obtain ⟨outcome, hloop, haccounts⟩ := ih hin (by
      simp only [getoptSize, List.length_cons, List.length_nil] at hfuel ⊢
      omega)
    refine ⟨outcome.cons (systemInteger character, some group), ?_, ?_⟩
    · rw [getoptLoop_option hcall hchars (by rw [hkind]; decide), hloop, hoptarg]
      rfl
    · exact haccounts.cons [] (fun _ _ hspells => .attached hkind hne hspells) rfl
  | @detached s₁ argument rest hkind hgroup harguments hoptarg hin =>
    subst hgroup harguments
    obtain ⟨outcome, hloop, haccounts⟩ := ih hin (by
      simp only [getoptSize, List.length_cons, List.length_nil, List.map_cons,
        List.sum_cons] at hfuel ⊢
      omega)
    refine ⟨outcome.cons (systemInteger character, some argument), ?_, ?_⟩
    · rw [getoptLoop_option hcall hchars (by rw [hkind]; decide), hloop, hoptarg]
      rfl
    · exact haccounts.cons [argument] (fun _ _ hspells => .detached hkind hspells) rfl
  | missing hkind hgroup harguments =>
    have hround := getoptLoop_call hcall (show (0x3a : ℤ) ≠ -1 by decide) fuel
    rw [if_pos (Or.inr rfl)] at hround
    exact ⟨_, hround, trivial⟩
  | unknown hkind hrefused =>
    have hround := getoptLoop_call hcall (by
      dsimp only
      omega) fuel
    rw [if_pos hrefused] at hround
    exact ⟨_, hround, trivial⟩

/-- At an argument there is a group of options, a single dash, or the end of the options. -/
theorem argument_cases (arguments : List (List UInt8)) :
    (∃ character group rest, character ≠ 0x2d ∧
        arguments = (0x2d :: character :: group) :: rest) ∨
      (∃ rest, arguments = [0x2d] :: rest) ∨ ∃ operands, EndsOptions arguments operands := by
  rcases arguments with - | ⟨argument, rest⟩
  · exact Or.inr (Or.inr ⟨_, .nil⟩)
  by_cases hdash : argument.head? = some 0x2d
  · obtain ⟨tail, rfl⟩ := List.head?_eq_some_iff.1 hdash
    rcases tail with - | ⟨character, group⟩
    · exact Or.inr (Or.inl ⟨rest, rfl⟩)
    · by_cases hsecond : character = 0x2d
      · subst hsecond
        exact Or.inr (Or.inr ⟨_, .dashes⟩)
      · exact Or.inl ⟨character, group, rest, hsecond, rfl⟩
  · exact Or.inr (Or.inr ⟨_, .operand hdash⟩)

variable (optionsString) in
/-- What the loop has done, by induction on the rounds. -/
theorem getoptLoop_accounts (hchars : 0xff ∉ optionsString) {fuel : ℕ} {s : GetoptState}
    {group : List UInt8} {arguments : List (List UInt8)} (hat : s.At argumentValues group arguments)
    (hfuel : getoptSize group arguments < fuel) :
    ∃ outcome, getoptLoop argumentValues optionsString fuel s = some outcome ∧
      outcome.Accounts optionsString group arguments := by
  induction fuel generalizing s group arguments with
  | zero => exact absurd hfuel (Nat.not_lt_zero _)
  | succ fuel ih =>
    rcases group with - | ⟨character, group⟩
    · rcases argument_cases arguments with
        ⟨character, group, rest, hdash, rfl⟩ | ⟨rest, rfl⟩ | ⟨operands, hends⟩
      · obtain ⟨s', hin, hsame⟩ := GetoptState.At.getoptLoop_beginGroup (s := s) hdash hat
        obtain ⟨outcome, hloop, haccounts⟩ := getoptLoop_accounts_group hchars ih hin (by
          simp only [getoptSize, List.length_cons, List.length_nil, List.map_cons,
            List.sum_cons] at hfuel ⊢
          omega)
        refine ⟨outcome, (hsame _).trans hloop, ?_⟩
        cases outcome with
        | parsed options operands =>
          obtain ⟨words, rest, rfl, hoptions, hends⟩ := haccounts
          exact ⟨_, rest, rfl, .group hdash hoptions, hends⟩
        | refused options character => trivial
        | undefined =>
          obtain ⟨words, rest, options, rfl, hoptions⟩ := haccounts
          exact ⟨_, rest, options, rfl, .group hdash hoptions⟩
      · refine ⟨.undefined, ?_, [], rest, [], rfl, .done⟩
        rw [getoptLoop, GetoptState.At.call_dash hat]
      · obtain ⟨s', hcall, hoperands⟩ :=
          GetoptState.At.call_operands optionsString hat hends
        refine ⟨.parsed [] operands, ?_, [], arguments, rfl, .done, hends⟩
        rw [getoptLoop, hcall]
        dsimp only
        rw [if_pos rfl, hoperands]
    · exact getoptLoop_accounts_group hchars ih hat hfuel

theorem foldr_cons_parsed (options options' : List (ℤ × Option (List UInt8)))
    (operands : List (List UInt8)) :
    options.foldr GetoptOutcome.cons (.parsed options' operands) =
      .parsed (options ++ options') operands := by
  induction options with
  | nil => rfl
  | cons option options ih => rw [List.foldr_cons, ih, GetoptOutcome.cons, List.cons_append]

theorem foldr_cons_undefined (options : List (ℤ × Option (List UInt8))) :
    options.foldr GetoptOutcome.cons .undefined = .undefined := by
  induction options with
  | nil => rfl
  | cons option options ih => rw [List.foldr_cons, ih, GetoptOutcome.cons]

/-- There are no more options than characters and arguments. -/
theorem Spells.length_le {words : List (List UInt8)}
    {options : List (ℤ × Option (List UInt8))} (h : Spells optionsString group words options) :
    options.length ≤ getoptSize group words := by
  induction h with
  | done => exact Nat.zero_le _
  | group hdash h ih =>
    simp only [getoptSize, List.length_cons, List.length_nil, List.map_cons, List.sum_cons] at ih ⊢
    omega
  | flag hkind h ih =>
    simp only [getoptSize, List.length_cons] at ih ⊢
    omega
  | attached hkind hne h ih =>
    simp only [getoptSize, List.length_cons, List.length_nil] at ih ⊢
    omega
  | detached hkind h ih =>
    simp only [getoptSize, List.length_cons, List.length_nil, List.map_cons, List.sum_cons] at ih ⊢
    omega

/-- The options of a program, with its name before them. -/
def luksdetoolsOptions (argumentValues : List (List UInt8)) (optionsString : List UInt8) :
    Option GetoptOutcome :=
  getoptLoop argumentValues optionsString (getoptSize [] argumentValues + 1) {}

section

variable {program : List UInt8} {words rest operands : List (List UInt8)}
  {options : List (ℤ × Option (List UInt8))}

theorem getoptSize_cons (argument : List UInt8) (arguments : List (List UInt8)) :
    getoptSize [] (argument :: arguments) = argument.length + 1 + getoptSize [] arguments := by
  simp only [getoptSize, List.map_cons, List.sum_cons]
  omega

/-- The state in which a program begins. -/
theorem GetoptState.at_initial (program : List UInt8) (arguments : List (List UInt8)) :
    GetoptState.At (program :: arguments) {} [] arguments := ⟨rfl, rfl⟩

/-- What is spelled is read, and there are rounds left. -/
theorem Spells.luksdetoolsOptions (h : Spells optionsString [] words options)
    (hchars : 0xff ∉ optionsString) (program : List UInt8) (rest : List (List UInt8)) :
    ∃ fuel s', GetoptState.At (program :: (words ++ rest)) s' [] rest ∧
      Libluksde.luksdetoolsOptions (program :: (words ++ rest)) optionsString =
        (Libluksde.getoptLoop (program :: (words ++ rest)) optionsString (fuel + 1) s').map
          fun outcome => options.foldr .cons outcome := by
  have hle := h.length_le
  obtain ⟨fuel, hfuel⟩ := Nat.exists_eq_add_of_le
    (show options.length ≤ getoptSize [] (program :: (words ++ rest)) by
      rw [getoptSize_cons]
      simp only [getoptSize, List.map_append, List.sum_append] at hle ⊢
      omega)
  obtain ⟨s', hat', hread⟩ :=
    h.getoptLoop hchars (GetoptState.at_initial program (words ++ rest)) (fuel + 1)
  refine ⟨fuel, s', hat', ?_⟩
  rw [← hread, Libluksde.luksdetoolsOptions, hfuel]
  congr 1
  omega

theorem Spells.luksdetoolsOptions_parsed (h : Spells optionsString [] words options)
    (hchars : 0xff ∉ optionsString) (hends : EndsOptions rest operands) :
    Libluksde.luksdetoolsOptions (program :: (words ++ rest)) optionsString =
      some (.parsed options operands) := by
  obtain ⟨fuel, s', hat', hread⟩ := h.luksdetoolsOptions hchars program rest
  obtain ⟨s'', hcall, hoperands⟩ := GetoptState.At.call_operands optionsString hat' hends
  rw [hread, Libluksde.getoptLoop, hcall]
  dsimp only
  rw [if_pos rfl, hoperands, Option.map_some, foldr_cons_parsed, List.append_nil]

theorem Spells.luksdetoolsOptions_undefined (h : Spells optionsString [] words options)
    (hchars : 0xff ∉ optionsString) :
    Libluksde.luksdetoolsOptions (program :: (words ++ [0x2d] :: rest)) optionsString =
      some .undefined := by
  obtain ⟨fuel, s', hat', hread⟩ := h.luksdetoolsOptions hchars program ([0x2d] :: rest)
  rw [hread, Libluksde.getoptLoop, GetoptState.At.call_dash hat']
  dsimp only
  rw [Option.map_some, foldr_cons_undefined]

end

/-- **The options are read as they are spelled.**  For every string of options without the character
`0xff`, which would be returned as -1, and all arguments, the loop of the tools ends; it reads
options and leaves operands exactly when the arguments before the operands spell these options; and
it reads behind the end of an argument exactly when one is a single dash, with nothing but spelled
options before it. -/
theorem luksdetoolsOptions_iff (program : List UInt8) (arguments : List (List UInt8))
    {optionsString : List UInt8} (hchars : 0xff ∉ optionsString) :
    luksdetoolsOptions (program :: arguments) optionsString ≠ none ∧
      (∀ options operands,
        luksdetoolsOptions (program :: arguments) optionsString = some (.parsed options operands) ↔
          ∃ words rest, arguments = words ++ rest ∧ Spells optionsString [] words options ∧
            EndsOptions rest operands) ∧
      (luksdetoolsOptions (program :: arguments) optionsString = some .undefined ↔
        ∃ words rest options, arguments = words ++ [0x2d] :: rest ∧
          Spells optionsString [] words options) := by
  have hfuel : getoptSize [] arguments < getoptSize [] (program :: arguments) + 1 := by
    rw [getoptSize_cons]
    omega
  obtain ⟨outcome, hloop, haccounts⟩ :=
    getoptLoop_accounts optionsString hchars (GetoptState.at_initial program arguments) hfuel
  have houtcome : luksdetoolsOptions (program :: arguments) optionsString = some outcome := hloop
  refine ⟨by rw [houtcome]; exact Option.some_ne_none _, fun options operands => ⟨?_, ?_⟩, ⟨?_, ?_⟩⟩
  · intro hparsed
    obtain rfl := Option.some.inj (houtcome.symm.trans hparsed)
    exact haccounts
  · rintro ⟨words, rest, rfl, hspells, hends⟩
    exact hspells.luksdetoolsOptions_parsed hchars hends
  · intro hundefined
    obtain rfl := Option.some.inj (houtcome.symm.trans hundefined)
    exact haccounts
  · rintro ⟨words, rest, options, rfl, hspells⟩
    exact hspells.luksdetoolsOptions_undefined hchars

/-- With the options `hk:`, the arguments `-hkk`, `-k` and `-a` are the options `h`, `k` with `k`,
and `k` with `-a`, and `x` is left; a single dash behind `-h` is read beyond its end. -/
theorem luksdetoolsOptions_iff_small :
    luksdetoolsOptions [[], [0x2d, 0x68, 0x6b, 0x6b], [0x2d, 0x6b], [0x2d, 0x61], [0x78]]
        [0x68, 0x6b, 0x3a] =
      some (.parsed [(0x68, none), (0x6b, some [0x6b]), (0x6b, some [0x2d, 0x61])] [[0x78]]) ∧
    luksdetoolsOptions [[], [0x2d, 0x68], [0x2d], [0x78]] [0x68, 0x6b, 0x3a] = some .undefined := by
  have hflag : optionKind [0x68, 0x6b, 0x3a] 0x68 = .flag := by decide
  have hargument : optionKind [0x68, 0x6b, 0x3a] 0x6b = .withArgument := by decide
  constructor
  · refine ((luksdetoolsOptions_iff [] _ (by decide)).2.1 _ _).2
      ⟨[[0x2d, 0x68, 0x6b, 0x6b], [0x2d, 0x6b], [0x2d, 0x61]], [[0x78]], rfl, ?_,
        .operand (by decide)⟩
    refine .group (by decide) (.flag hflag (.attached hargument (by decide) ?_))
    exact .group (by decide) (.detached hargument .done)
  · refine (luksdetoolsOptions_iff [] _ (by decide)).2.2.2
      ⟨[[0x2d, 0x68]], [[0x78]], [(0x68, none)], rfl, ?_⟩
    exact .group (by decide) (.flag hflag .done)

/-! ## The settings of a tool -/

section

variable {σ ε : Type} (onOption : σ → ℤ → Option (List UInt8) → Except ε σ)

/-- The loop of a tool over its options, each of which changes its settings or ends it. -/
def getoptSettings (argumentValues : List (List UInt8)) (optionsString : List UInt8) :
    ℕ → GetoptState → σ → Option (Except ε (σ × List (List UInt8)))
  | 0, _, _ => none
  | fuel + 1, s, settings =>
    match luksdetoolsGetopt argumentValues optionsString s with
    | none => none
    | some (s, option) =>
      if option = -1 then some (.ok (settings, argumentValues.drop s.optind))
      else
        match onOption settings option s.optarg with
        | .error status => some (.error status)
        | .ok settings => getoptSettings argumentValues optionsString fuel s settings

/-- The options that are read set the settings one after the other, by induction on the rounds. -/
theorem getoptSettings_parsed {fuel : ℕ} {s : GetoptState}
    {options : List (ℤ × Option (List UInt8))} {operands : List (List UInt8)}
    (h : getoptLoop argumentValues optionsString fuel s = some (.parsed options operands))
    (settings : σ) :
    getoptSettings onOption argumentValues optionsString fuel s settings =
      some ((options.foldlM (fun settings option => onOption settings option.1 option.2)
        settings).map fun settings => (settings, operands)) := by
  induction fuel generalizing s options settings with
  | zero => cases h
  | succ fuel ih =>
    rw [getoptLoop] at h
    rw [getoptSettings]
    rcases hcall : luksdetoolsGetopt argumentValues optionsString s with - | ⟨s', option⟩
    · rw [hcall] at h
      cases h
    · rw [hcall] at h
      dsimp only at h ⊢
      by_cases hend : option = -1
      · rw [if_pos hend] at h ⊢
        cases h
        rfl
      rw [if_neg hend] at h ⊢
      by_cases hrefused : option = 0x3f ∨ option = 0x3a
      · rw [if_pos hrefused] at h
        cases h
      rw [if_neg hrefused] at h
      obtain ⟨outcome, hloop, houtcome⟩ := Option.map_eq_some_iff.1 h
      cases outcome with
      | parsed options' operands' =>
        cases houtcome
        rw [List.foldlM_cons]
        cases onOption settings option s'.optarg with
        | error status => rfl
        | ok settings' => exact ih hloop settings'
      | refused options' character => cases houtcome
      | undefined => cases houtcome

end

end Libluksde
