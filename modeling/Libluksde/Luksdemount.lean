import Libluksde.MountFuse
import Libluksde.MountPaths

/-!
# The mount tool

The program of `luksdetools/luksdemount.c`: its options, and what it does up to the loop.
-/

namespace Libluksde

open Lib (Heap)
open Lib.Bytes Lib.Machine

/-! ## The options -/

/-- What `luksdetools_getopt` returns, with its argument. -/
inductive LuksdemountOption
  | help
  | key (optarg : List UInt8)
  | offset (optarg : List UInt8)
  | password (optarg : List UInt8)
  | unattendedMode
  | verbose
  | version
  | extendedOptions (optarg : List UInt8)
  | invalid

/-- `EXIT_SUCCESS` and `EXIT_FAILURE` -/
inductive ExitStatus
  | success
  | failure
deriving DecidableEq

/-- The variables of `main` that the options set. -/
structure LuksdemountOptions where
  key : Option (List UInt8) := none
  offset : Option (List UInt8) := none
  password : Option (List UInt8) := none
  extendedOptions : Option (List UInt8) := none
  unattendedMode : ℤ := 0
  verbose : Bool := false

/-- The loop of `main` over the options, some of which end the program. -/
def luksdemountOptions :
    List LuksdemountOption → LuksdemountOptions → Except ExitStatus LuksdemountOptions
  | [], options => .ok options
  | .invalid :: _, _ => .error .failure
  | .help :: _, _ => .error .success
  | .version :: _, _ => .error .success
  | .key optarg :: rest, options => luksdemountOptions rest { options with key := some optarg }
  | .offset optarg :: rest, options =>
    luksdemountOptions rest { options with offset := some optarg }
  | .password optarg :: rest, options =>
    luksdemountOptions rest { options with password := some optarg }
  | .unattendedMode :: rest, options => luksdemountOptions rest { options with unattendedMode := 1 }
  | .verbose :: rest, options => luksdemountOptions rest { options with verbose := true }
  | .extendedOptions optarg :: rest, options =>
    luksdemountOptions rest { options with extendedOptions := some optarg }

/-! ## The program -/

/-- What the surroundings decide while the program starts: the time, the user and the group, what
happens when the named volume is opened, and which of the other calls fail. -/
structure LuksdemountEnvironment where
  initializeFails : Bool := false
  mountHandleFails : Bool := false
  mountedTimestamp : UInt64 := 0
  effectiveUserId : ℕ := 0
  effectiveGroupId : ℕ := 0
  pathPrefixFails : Bool := false
  openSource : List UInt8 → MountOpenEnvironment
  fuseFails : Bool := false
  daemonizeFails : Bool := false

/-- A call that ends the program unless it returns 1. -/
def required (result : MountHandle × ℤ) : Except ExitStatus MountHandle :=
  if result.2 ≠ 1 then .error .failure else .ok result.1

/-- A call that is made if its option was given. -/
def setOption (set : MountHandle → List UInt8 → MountHandle × ℤ) (option : Option (List UInt8))
    (mountHandle : MountHandle) : Except ExitStatus MountHandle :=
  match option with
  | none => .ok mountHandle
  | some string => required (set mountHandle string)

variable (L : Libraries) (B : Base16)

/-- The part of `main` that makes the mount handle and opens the source. -/
def luksdemountHandle (env : LuksdemountEnvironment) (options : LuksdemountOptions)
    (source : List UInt8) : Except ExitStatus MountHandle := do
  if env.mountHandleFails then throw .failure
  let mountHandle := mountHandleInitialize options.unattendedMode
  let mountHandle ← setOption (mountHandleSetKey B) options.key mountHandle
  let mountHandle ← setOption mountHandleSetOffset options.offset mountHandle
  let mountHandle ← setOption mountHandleSetPassword options.password mountHandle
  let mountHandle ← required (mountHandleSetPathPrefix env.pathPrefixFails mountHandle
    luksdePathPrefix (1 + luksdePathPrefix.length))
  required (mountHandleOpen L (env.openSource source) mountHandle)

/-- The part of `main` behind the options, up to the loop. -/
def luksdemountMount (env : LuksdemountEnvironment) (options : LuksdemountOptions) :
    List (List UInt8) → Except ExitStatus Mount
  | source :: _ :: _ => do
    let mountHandle ← luksdemountHandle L B env options source
    if env.fuseFails ∨ (options.verbose = false ∧ env.daemonizeFails) then throw .failure
    pure ⟨mountHandle, env.mountedTimestamp, env.effectiveUserId, env.effectiveGroupId, .empty⟩
  | _ => throw .failure

/-- `main`, up to the loop, with what `luksdetools_getopt` returns and the operands behind it. -/
def luksdemount (env : LuksdemountEnvironment) (arguments : List LuksdemountOption)
    (operands : List (List UInt8)) : Except ExitStatus Mount := do
  if env.initializeFails then throw .failure
  let options ← luksdemountOptions arguments {}
  luksdemountMount L B env options operands

end Libluksde
