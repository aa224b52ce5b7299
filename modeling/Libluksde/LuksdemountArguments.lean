import Libluksde.Luksdemount
import Libluksde.Getopt
import Libluksde.SpecificationNames

/-!
# The command line of the mount tool

The mount tool from its command line on, with the `luksdetools_getopt` of the repository.
-/

namespace Libluksde

open Lib.Bytes

variable (L : Libraries) (B : Base16)

/-- The string of the options of `luksdemount`. -/
def luksdemountOptionsString : List UInt8 :=
  ascii ['h', 'k', ':', 'o', ':', 'p', ':', 'u', 'v', 'V', 'X', ':']

/-- The branch of the `switch` of `main` for what `luksdetools_getopt` returns. -/
def LuksdemountOption.ofGetopt (option : ℤ) (optarg : Option (List UInt8)) :
    LuksdemountOption :=
  if option = 0x68 then .help
  else if option = 0x6b then optarg.elim .invalid .key
  else if option = 0x6f then optarg.elim .invalid .offset
  else if option = 0x70 then optarg.elim .invalid .password
  else if option = 0x75 then .unattendedMode
  else if option = 0x76 then .verbose
  else if option = 0x56 then .version
  else if option = 0x58 then optarg.elim .invalid .extendedOptions
  else .invalid

/-- One round of the loop of `main`. -/
def luksdemountSwitch (options : LuksdemountOptions) (option : ℤ)
    (optarg : Option (List UInt8)) : Except ExitStatus LuksdemountOptions :=
  luksdemountOptions [.ofGetopt option optarg] options

/-- `main`, up to the loop, with its arguments; without a result where the behaviour is not
defined. -/
def luksdemountMain (env : LuksdemountEnvironment) (argumentValues : List (List UInt8)) :
    Option (Except ExitStatus Mount) :=
  if env.initializeFails then some (.error .failure)
  else
    (getoptSettings luksdemountSwitch argumentValues luksdemountOptionsString
      (getoptSize [] argumentValues + 1) {} {}).map fun settings => do
        let (options, operands) ← settings
        luksdemountMount L B env options operands

variable {L : Libraries} {B : Base16}

/-- The options end the program, or are set, one after the other. -/
theorem luksdemountOptions_cons (option : LuksdemountOption) (rest : List LuksdemountOption)
    (options : LuksdemountOptions) :
    luksdemountOptions (option :: rest) options =
      luksdemountOptions [option] options >>= luksdemountOptions rest := by
  cases option with
  | _ => rfl

theorem foldlM_luksdemountSwitch (given : List (ℤ × Option (List UInt8)))
    (options : LuksdemountOptions) :
    given.foldlM (fun options option => luksdemountSwitch options option.1 option.2) options =
      luksdemountOptions (given.map fun option => .ofGetopt option.1 option.2) options := by
  induction given generalizing options with
  | nil => rfl
  | cons option given ih =>
    rw [List.foldlM_cons, List.map_cons, luksdemountOptions_cons]
    exact congrArg _ (funext ih)

/-- A command line that spells options runs the tool with them. -/
theorem luksdemountMain_spelled (env : LuksdemountEnvironment) (program : List UInt8)
    {words rest operands : List (List UInt8)} {given : List (ℤ × Option (List UInt8))}
    (hspells : Spells luksdemountOptionsString [] words given) (hends : EndsOptions rest operands) :
    luksdemountMain L B env (program :: (words ++ rest)) =
      some (luksdemount L B env (given.map fun option => .ofGetopt option.1 option.2) operands) := by
  have hread : getoptLoop (program :: (words ++ rest)) luksdemountOptionsString
      (getoptSize [] (program :: (words ++ rest)) + 1) {} = some (.parsed given operands) :=
    hspells.luksdetoolsOptions_parsed (by decide) hends
  rw [luksdemountMain, luksdemount]
  by_cases hfails : env.initializeFails
  · rw [if_pos hfails, if_pos hfails]
    rfl
  rw [if_neg hfails, if_neg hfails, getoptSettings_parsed luksdemountSwitch hread {},
    foldlM_luksdemountSwitch]
  cases luksdemountOptions (given.map fun option => .ofGetopt option.1 option.2) {} with
  | error status => rfl
  | ok options => rfl

end Libluksde
