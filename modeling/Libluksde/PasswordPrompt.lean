import Libluksde.MountPaths
import Mathlib.Data.List.TakeWhile

/-!
# The password prompt

The `luksdetools_prompt_for_password` of `luksdetools/luksdetools_input.c`, in a build with narrow
strings.  The user edits a line; what is read is the line, if there was always room for it.
-/

namespace Libluksde

open Lib.Bytes

/-! ## The function -/

/-- What the terminal does: whether its settings cannot be read, changed or restored, and the
characters that are typed, up to the end of the input. -/
structure PromptEnvironment where
  getAttributesFails : Bool := false
  echoOffFails : Bool := false
  restoreFails : Bool := false
  input : List UInt8

/-- A character that ends the line: a newline, a carriage return or a NUL, or one that is taken for
the end of the input. -/
def EndsLine (character : UInt8) : Prop :=
  character = 0xff ∨ character = 0x0a ∨ character = 0x0d ∨ character = 0

instance (character : UInt8) : Decidable (EndsLine character) :=
  inferInstanceAs (Decidable (_ ∨ _))

/-- The backspace. -/
def backspace : UInt8 := 0x08

/-- The loop over the characters, with the index and the memory of the password. -/
def promptLoop (passwordSize : ℕ) : List UInt8 → ℕ → List UInt8 → ℕ × List UInt8
  | [], passwordIndex, password => (passwordIndex, password)
  | character :: input, passwordIndex, password =>
    if passwordIndex ≥ passwordSize then (passwordIndex, password)
    else if EndsLine character then (passwordIndex, password)
    else if character = backspace then
      promptLoop passwordSize input (if passwordIndex > 0 then passwordIndex - 1 else 0) password
    else
      promptLoop passwordSize input (passwordIndex + 1) (password.set passwordIndex character)

/-- `luksdetools_prompt_for_password`: the memory of the password and the return value. -/
def luksdetoolsPromptForPassword (env : PromptEnvironment) (password : List UInt8)
    (passwordSize : ℕ) : List UInt8 × ℤ :=
  if passwordSize < 32 ∨ passwordSize > ssizeMax then (password, -1)
  else if env.getAttributesFails ∨ env.echoOffFails then (password, -1)
  else
    let (passwordIndex, password) := promptLoop passwordSize env.input 0 password
    let (password, result) :=
      if passwordIndex ≥ passwordSize then (password, -1) else (password.set passwordIndex 0, 1)
    if env.restoreFails then (password, -1) else (password, result)

/-! ## Editing a line -/

/-- The text after a key. -/
def press (text : List UInt8) (key : UInt8) : List UInt8 :=
  if key = backspace then text.dropLast else text ++ [key]

/-- The text after keys. -/
def edited (text keys : List UInt8) : List UInt8 := keys.foldl press text

/-- The keys up to the end of the line. -/
def typedLine (input : List UInt8) : List UInt8 := input.takeWhile fun key => ¬ EndsLine key

/-- There is always room for the text. -/
def Fits (size : ℕ) (text keys : List UInt8) : Prop :=
  ∀ n ≤ keys.length, (edited text (keys.take n)).length < size

theorem edited_cons (text : List UInt8) (key : UInt8) (keys : List UInt8) :
    edited text (key :: keys) = edited (press text key) keys := rfl

theorem fits_nil {size : ℕ} {text : List UInt8} : Fits size text [] ↔ text.length < size := by
  constructor
  · intro h
    exact h 0 (Nat.zero_le _)
  · intro h n hn
    rw [Nat.le_zero.1 hn]
    exact h

theorem fits_cons {size : ℕ} {text keys : List UInt8} {key : UInt8} :
    Fits size text (key :: keys) ↔ text.length < size ∧ Fits size (press text key) keys := by
  constructor
  · intro h
    refine ⟨h 0 (Nat.zero_le _), fun n hn => ?_⟩
    exact h (n + 1) (Nat.succ_le_succ hn)
  · rintro ⟨hfirst, hrest⟩ n hn
    cases n with
    | zero => exact hfirst
    | succ n => exact hrest n (Nat.le_of_succ_le_succ hn)

/-- A text whose characters end no line. -/
theorem press_mem {text : List UInt8} {key c : UInt8} (h : c ∈ press text key) :
    c ∈ text ∨ c = key := by
  rw [press] at h
  split_ifs at h
  · exact Or.inl (List.mem_of_mem_dropLast h)
  · rcases List.mem_append.1 h with hmem | hmem
    · exact Or.inl hmem
    · exact Or.inr (List.mem_singleton.1 hmem)

theorem edited_mem {text keys : List UInt8} {c : UInt8} (h : c ∈ edited text keys) :
    c ∈ text ∨ c ∈ keys := by
  induction keys generalizing text with
  | nil => exact Or.inl h
  | cons key keys ih =>
    rcases ih h with hmem | hmem
    · rcases press_mem hmem with htext | rfl
      · exact Or.inl htext
      · exact Or.inr List.mem_cons_self
    · exact Or.inr (List.mem_cons_of_mem _ hmem)

theorem zero_not_mem_typedLine (input : List UInt8) : (0 : UInt8) ∉ typedLine input := by
  intro hmem
  have hends := List.mem_takeWhile_imp hmem
  simp [EndsLine] at hends

/-! ## What is read -/

/-- The memory holds the text before the index. -/
structure HoldsText (size : ℕ) (text : List UInt8) (passwordIndex : ℕ) (password : List UInt8) :
    Prop where
  length : password.length = size
  index : passwordIndex = text.length
  take : password.take passwordIndex = text

theorem HoldsText.press_backspace {size passwordIndex : ℕ} {text password : List UInt8}
    (h : HoldsText size text passwordIndex password) (hroom : passwordIndex < size) :
    HoldsText size (press text backspace) (if passwordIndex > 0 then passwordIndex - 1 else 0)
      password := by
  have hindex : (if passwordIndex > 0 then passwordIndex - 1 else 0) = passwordIndex - 1 := by
    split_ifs with hpositive
    · rfl
    · omega
  rw [hindex, press, if_pos rfl]
  refine ⟨h.length, ?_, ?_⟩
  · rw [List.length_dropLast, h.index]
  · rw [← h.take, List.dropLast_take (h.length ▸ hroom)]

theorem HoldsText.press {size passwordIndex : ℕ} {text password : List UInt8}
    (h : HoldsText size text passwordIndex password) (hroom : passwordIndex < size) {key : UInt8}
    (hkey : key ≠ backspace) :
    HoldsText size (Libluksde.press text key) (passwordIndex + 1)
      (password.set passwordIndex key) := by
  have hlt : passwordIndex < password.length := h.length ▸ hroom
  rw [Libluksde.press, if_neg hkey]
  refine ⟨(List.length_set).trans h.length, ?_, ?_⟩
  · rw [List.length_append, List.length_singleton, h.index]
  · rw [List.take_add_one, List.take_set_of_le le_rfl, List.getElem?_set_self hlt, h.take]
    rfl

theorem typedLine_ends {key : UInt8} (hends : EndsLine key) (input : List UInt8) :
    typedLine (key :: input) = [] := List.takeWhile_cons_of_neg (by simpa using hends)

theorem typedLine_cons {key : UInt8} (hends : ¬ EndsLine key) (input : List UInt8) :
    typedLine (key :: input) = key :: typedLine input :=
  List.takeWhile_cons_of_pos (by simpa using hends)

/-- The loop reads the line, by induction on the characters. -/
theorem promptLoop_spec {size passwordIndex : ℕ} {text password : List UInt8} (input : List UInt8)
    (h : HoldsText size text passwordIndex password) (hle : passwordIndex ≤ size) :
    let r := promptLoop size input passwordIndex password
    (r.1 < size ↔ Fits size text (typedLine input)) ∧ r.2.length = size ∧
      (r.1 < size → HoldsText size (edited text (typedLine input)) r.1 r.2) := by
  induction input generalizing passwordIndex text password with
  | nil =>
    refine ⟨?_, h.length, fun _ => h⟩
    rw [show typedLine [] = [] from rfl, fits_nil, ← h.index]
    rfl
  | cons key input ih =>
    intro r
    have hr : r = promptLoop size (key :: input) passwordIndex password := rfl
    rw [promptLoop] at hr
    by_cases hfull : passwordIndex ≥ size
    · rw [if_pos hfull] at hr
      rw [hr]
      refine ⟨iff_of_false (by omega) fun hfits => ?_, h.length, fun hlt => absurd hlt (by omega)⟩
      have hroom := hfits 0 (Nat.zero_le _)
      rw [List.take_zero] at hroom
      have hindex := h.index
      exact absurd (show text.length < size from hroom) (by omega)
    rw [if_neg hfull] at hr
    have hroom : passwordIndex < size := by omega
    have hlength : text.length < size := h.index ▸ hroom
    by_cases hends : EndsLine key
    · rw [if_pos hends] at hr
      rw [hr, typedLine_ends hends]
      exact ⟨iff_of_true hroom (fits_nil.2 hlength), h.length, fun _ => h⟩
    rw [if_neg hends] at hr
    rw [typedLine_cons hends, edited_cons, fits_cons, and_iff_right hlength]
    by_cases hkey : key = backspace
    · subst hkey
      rw [if_pos rfl] at hr
      rw [hr]
      refine ih (h.press_backspace hroom) ?_
      split_ifs
      · omega
      · omega
    · rw [if_neg hkey] at hr
      rw [hr]
      exact ih (h.press hroom hkey) hroom

/-- The terminal works. -/
def PromptEnvironment.Works (env : PromptEnvironment) : Prop :=
  env.getAttributesFails = false ∧ env.echoOffFails = false ∧ env.restoreFails = false

/-- A line that can be read into a memory of this size. -/
def PromptEnvironment.Reads (env : PromptEnvironment) (size : ℕ) : Prop :=
  (32 ≤ size ∧ size ≤ ssizeMax) ∧ env.Works ∧ Fits size [] (typedLine env.input)

/-- The prompt fails, or it reads the line that was edited. -/
theorem luksdetoolsPromptForPassword_cases (env : PromptEnvironment) (password : List UInt8) :
    ∃ memory,
      luksdetoolsPromptForPassword env password password.length = (memory, -1) ∧
          ¬ env.Reads password.length ∨
        luksdetoolsPromptForPassword env password password.length = (memory, 1) ∧
          env.Reads password.length ∧ systemString memory = edited [] (typedLine env.input) := by
  rw [luksdetoolsPromptForPassword]
  by_cases hsize : password.length < 32 ∨ password.length > ssizeMax
  · rw [if_pos hsize]
    exact ⟨_, Or.inl ⟨rfl, fun h => absurd h.1 (by omega)⟩⟩
  rw [if_neg hsize]
  by_cases hbegin : env.getAttributesFails ∨ env.echoOffFails
  · rw [if_pos hbegin]
    refine ⟨_, Or.inl ⟨rfl, ?_⟩⟩
    rintro ⟨-, ⟨hget, hecho, -⟩, -⟩
    simp [hget, hecho] at hbegin
  rw [if_neg hbegin]
  have hnew : HoldsText password.length [] 0 password := ⟨rfl, rfl, rfl⟩
  obtain ⟨hfits, hlength, hholds⟩ := promptLoop_spec env.input hnew (Nat.zero_le _)
  generalize promptLoop password.length env.input 0 password = read at hfits hlength hholds
  obtain ⟨passwordIndex, text⟩ := read
  dsimp only at hfits hlength hholds ⊢
  cases hrestore : env.restoreFails with
  | true =>
    refine ⟨_, Or.inl ⟨rfl, ?_⟩⟩
    rintro ⟨-, ⟨-, -, hworks⟩, -⟩
    cases hrestore.symm.trans hworks
  | false =>
    by_cases hfull : passwordIndex ≥ password.length
    · rw [if_pos hfull]
      exact ⟨_, Or.inl ⟨rfl, fun h => absurd (hfits.2 h.2.2) (by omega)⟩⟩
    have hlt : passwordIndex < password.length := by omega
    obtain ⟨-, -, htake⟩ := hholds hlt
    have hworks : env.Works := by simpa [PromptEnvironment.Works, hrestore] using hbegin
    rw [if_neg hfull]
    refine ⟨_, Or.inr ⟨rfl, ⟨by omega, hworks, hfits.1 hlt⟩, ?_⟩⟩
    -- the NUL is behind the line
    have hzero : (0 : UInt8) ∉ edited [] (typedLine env.input) := by
      intro hmem
      rcases edited_mem hmem with hnil | htyped
      · cases hnil
      · exact zero_not_mem_typedLine env.input htyped
    rw [List.set_eq_take_append_cons_drop, if_pos (hlength.symm ▸ hlt), htake]
    exact systemString_append hzero _

/-- **What the prompt reads.**  The prompt returns 1 exactly when the memory has at least 32 and at
most `SSIZE_MAX` characters, the terminal works, and there is always room for what the user has
typed of the line and not deleted, with a NUL behind it; then the memory holds the line as it was
edited, whatever was in it before.  Otherwise it returns -1. -/
theorem luksdetoolsPromptForPassword_iff (env : PromptEnvironment) (password : List UInt8) :
    let r := luksdetoolsPromptForPassword env password password.length
    (r.2 = 1 ↔ (32 ≤ password.length ∧ password.length ≤ ssizeMax) ∧ env.Works ∧
      Fits password.length [] (typedLine env.input)) ∧
      (r.2 ≠ 1 → r.2 = -1) ∧ (r.2 = 1 → systemString r.1 = edited [] (typedLine env.input)) := by
  intro r
  obtain ⟨memory, ⟨hr, hreads⟩ | ⟨hr, hreads, hline⟩⟩ :=
    luksdetoolsPromptForPassword_cases env password
  · have hne : r.2 ≠ 1 := by
      rw [show r = (memory, -1) from hr]
      exact show (-1 : ℤ) ≠ 1 by decide
    exact ⟨iff_of_false hne hreads, fun _ => congrArg Prod.snd hr, fun hone => absurd hone hne⟩
  · have hone : r.2 = 1 := congrArg Prod.snd hr
    refine ⟨iff_of_true hone hreads, fun hne => absurd hone hne, fun _ => ?_⟩
    rw [show r = (memory, 1) from hr]
    exact hline

/-- A key is typed and deleted before the password is. -/
example : (luksdetoolsPromptForPassword { input := [0x62, 0x08, 0x61, 0x0a, 0x62] }
    (List.replicate 32 0xaa) 32) = (0x61 :: 0 :: List.replicate 30 0xaa, 1) := by
  decide

/-- The password that the tools get from the prompt, with a memory of 64 characters. -/
def promptedPassword (env : PromptEnvironment) (memory : Buffer 64) : Option (List UInt8) :=
  let (password, result) := luksdetoolsPromptForPassword env memory.bytes 64
  if result ≠ 1 then none else some (systemString password)

theorem promptedPassword_eq {env : PromptEnvironment} (h : env.Reads 64) (memory : Buffer 64) :
    promptedPassword env memory = some (edited [] (typedLine env.input)) := by
  obtain ⟨password, hcases⟩ := luksdetoolsPromptForPassword_cases env memory.bytes
  rw [memory.length_eq] at hcases
  rcases hcases with ⟨-, hreads⟩ | ⟨hr, -, hline⟩
  · exact absurd h hreads
  · rw [promptedPassword, hr, ← hline]
    rfl

end Libluksde
