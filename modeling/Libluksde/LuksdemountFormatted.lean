import Libluksde.Luksdemount
import Libluksde.PasswordPrompt
import Libluksde.Formatter
import Libluksde.FuseServer
import Libluksde.DecimalOffsets
import Libluksde.KeyErasure

/-!
# Mounting what was formatted

The whole way through the program: a volume that was formatted is given to the mount tool with one
of its secrets, on the command line or at the prompt, and what is asked of the mount is answered
from the content that was formatted.
-/

namespace Libluksde

open Lib (Heap)
open Lib.Bytes Lib.Machine Lib.Refinement Lib.Decimal
open Lib.FileServer (HandleTable serve)

variable {C : Libcpath} {L : Libraries} {B : Base16}

/-! ## Surroundings in which nothing fails -/

/-- While the source is opened no call fails, whatever the memory holds. -/
structure MountOpenEnvironment.Reliable (env : MountOpenEnvironment) : Prop where
  volumeInitialize : env.volumeInitializeFails = false
  setPassword : env.setPassword = {}
  openVolume : ∃ memory beyond, env.openVolume = { keys := reliable memory beyond }
  setPromptedPassword : env.setPromptedPassword = {}
  unlock : ∃ memory beyond, env.unlock = reliable memory beyond
  append : env.appendFails = false

/-- While the tool starts no call fails. -/
structure LuksdemountEnvironment.Reliable (env : LuksdemountEnvironment) (source : List UInt8) :
    Prop where
  initializes : env.initializeFails = false
  mountHandle : env.mountHandleFails = false
  pathPrefix : env.pathPrefixFails = false
  openSource : (env.openSource source).Reliable
  fuse : env.fuseFails = false
  daemonize : env.daemonizeFails = false

/-! ## The options -/

/-- The bytes that the key option stands for; none where it was not given. -/
inductive GivesKeyData (B : Base16) : Option (List UInt8) → List UInt8 → Prop
  | unset : GivesKeyData B none []
  | set {string key : List UInt8}
      (hsize : string.length = 32 ∨ string.length = 64 ∨ string.length = 128)
      (hdecode : B.decode string = some key) : GivesKeyData B (some string) key

/-- The offset that the offset option stands for; zero where it was not given. -/
inductive GivesOffset : Option (List UInt8) → ℤ → Prop
  | unset : GivesOffset none 0
  | set {string : List UInt8} {offset : ℤ} (haccepted : ¬ IsRejected string)
      (hdenotes : Denotes string offset) (hl : -2 ^ 63 ≤ offset) (hu : offset < 2 ^ 63) :
      GivesOffset (some string) offset

/-- The numeral of an offset can be given for it. -/
theorem givesOffset_numeral {n : ℕ} (hpositive : 0 < n) (hn : n < 2 ^ 63) :
    GivesOffset (some (numeral n)) n := by
  have hdigits : ∀ c ∈ numeral n, IsDigit c := fun _ => isDigit_of_mem_numeral
  have hunsigned : afterSign (numeral n) = numeral n :=
    afterSign_of_unsigned ⟨head?_ne_of_digits hdigits (by decide),
      head?_ne_of_digits hdigits (by decide)⟩
  have hlength : (numeral n).length ≤ 21 := length_numeral_le_iff.2 (by omega)
  have haccepted : ¬ IsRejected (numeral n) := by
    rw [IsRejected, hunsigned]
    rintro (hlong | ⟨c, hc, hother⟩)
    · exact absurd hlength (by omega)
    · exact hother (hdigits c hc)
  have hdenotes := Denotes.unsigned (numeral_ne_nil hpositive) hdigits
  rw [value_numeral] at hdenotes
  exact .set haccepted hdenotes (by omega) (by omega)

/-- The mount handle with which the source is opened. -/
def LuksdemountOptions.mountHandle (options : LuksdemountOptions) (key : List UInt8) (offset : ℤ) :
    MountHandle where
  fileSystem := ⟨some (luksdePathPrefix ++ [0]), 1 + luksdePathPrefix.length, []⟩
  keyData := (Buffer.zero 64).write 0 key
  keyDataSize := key.length
  volumeOffset := offset
  password := options.password
  fileIoHandle := none
  unattendedMode := options.unattendedMode

theorem GivesOffset.setOption {option : Option (List UInt8)} {offset : ℤ}
    (h : GivesOffset option offset) (mountHandle : MountHandle)
    (hnew : mountHandle.volumeOffset = 0) :
    setOption mountHandleSetOffset option mountHandle =
      .ok { mountHandle with volumeOffset := offset } := by
  cases h with
  | unset =>
    rw [← hnew]
    rfl
  | @set string offset haccepted hdenotes hl hu =>
    obtain ⟨value64bit, hcopy, hvalue⟩ := exists_value_of_not_isRejected haccepted
    obtain ⟨-, rfl⟩ := (denotes_iff_of_not_isRejected haccepted).1 hdenotes
    have hoffset : off64 value64bit.toNat = signedValue string :=
      (off64_toNat_eq hvalue).trans (off64_eq_self hl hu)
    have hset : mountHandleSetOffset mountHandle string =
        ({ mountHandle with volumeOffset := signedValue string }, 1) := by
      rw [mountHandleSetOffset, hcopy, ← hoffset]
    rw [Libluksde.setOption, hset]
    rfl

theorem write_zero_nil : (Buffer.zero 64).write 0 [] = .zero 64 := by decide

theorem GivesKeyData.setOption {option : Option (List UInt8)} {key : List UInt8}
    (h : GivesKeyData B option key) (mountHandle : MountHandle)
    (hnew : mountHandle.keyData = .zero 64 ∧ mountHandle.keyDataSize = 0) :
    setOption (mountHandleSetKey B) option mountHandle =
      .ok { mountHandle with
        keyData := (Buffer.zero 64).write 0 key
        keyDataSize := key.length } := by
  cases h with
  | unset =>
    rw [write_zero_nil, List.length_nil, ← hnew.1, ← hnew.2]
    rfl
  | @set string key hsize hdecode =>
    have hset : mountHandleSetKey B mountHandle string =
        ({ mountHandle with
            keyData := (Buffer.zero 64).write 0 key
            keyDataSize := key.length }, 1) := by
      rw [mountHandleSetKey, if_neg (by omega), hdecode, B.length_decode hdecode]
    rw [Libluksde.setOption, hset]
    rfl

theorem setOption_setPassword (option : Option (List UInt8)) (mountHandle : MountHandle)
    (hnew : mountHandle.password = none) :
    setOption mountHandleSetPassword option mountHandle =
      .ok { mountHandle with password := option } := by
  cases option with
  | none =>
    cases mountHandle
    cases hnew
    rfl
  | some string => rfl

/-- The part of the program before the source is opened. -/
theorem luksdemountHandle_eq {env : LuksdemountEnvironment} {source : List UInt8}
    (henv : env.Reliable source) {options : LuksdemountOptions} {key : List UInt8} {offset : ℤ}
    (hkey : GivesKeyData B options.key key) (hoffset : GivesOffset options.offset offset) :
    luksdemountHandle L B env options source =
      required (mountHandleOpen L (env.openSource source) (options.mountHandle key offset)) := by
  let keyed : MountHandle :=
    { mountHandleInitialize options.unattendedMode with
      keyData := (Buffer.zero 64).write 0 key
      keyDataSize := key.length }
  let placed : MountHandle := { keyed with volumeOffset := offset }
  let given : MountHandle := { placed with password := options.password }
  have hkeyed : setOption (mountHandleSetKey B) options.key
      (mountHandleInitialize options.unattendedMode) = .ok keyed := hkey.setOption _ ⟨rfl, rfl⟩
  have hplaced : setOption mountHandleSetOffset options.offset keyed = .ok placed :=
    hoffset.setOption keyed rfl
  have hgiven : setOption mountHandleSetPassword options.password placed = .ok given :=
    setOption_setPassword options.password placed rfl
  rw [luksdemountHandle, if_neg (by rw [henv.mountHandle]; decide), henv.pathPrefix]
  simp only [hkeyed, hplaced, hgiven, bind, Except.bind]
  rfl

/-! ## The secret -/

/-- What gets the master key of a formatted volume, with the bytes of the key option: the key, with
any password; the password; or neither, and the password that is entered at the prompt. -/
inductive GivesSecret (F : Formatting L) (options : LuksdemountOptions)
    (prompt : Option (List UInt8)) : List UInt8 → Prop
  | key (hpassword : ∀ string ∈ options.password, ∃ password, SetsPassword L string password) :
      GivesSecret F options prompt F.masterKey
  | password {string : List UInt8} (hoption : options.password = some string)
      (hpassword : SetsPassword L string F.password) : GivesSecret F options prompt []
  | prompt {string : List UInt8} (hoption : options.password = none)
      (hattended : options.unattendedMode = 0) (hprompt : prompt = some string)
      (hne : string ≠ []) (hpassword : SetsPassword L string F.password) :
      GivesSecret F options prompt []

/-- The password is typed at the prompt, and mistakes are deleted. -/
theorem GivesSecret.of_typed {F : Formatting L} {options : LuksdemountOptions}
    {env : PromptEnvironment} {memory : Buffer 64} (hoption : options.password = none)
    (hattended : options.unattendedMode = 0) (hreads : env.Reads 64)
    (hne : edited [] (typedLine env.input) ≠ [])
    (hpassword : SetsPassword L (edited [] (typedLine env.input)) F.password) :
    GivesSecret F options (promptedPassword env memory) [] :=
  .prompt hoption hattended (promptedPassword_eq hreads memory) hne hpassword

/-- The key option stands for a key of a size that can be set. -/
theorem GivesKeyData.length {option : Option (List UInt8)} {key : List UInt8}
    (h : GivesKeyData B option key) (hpositive : 0 < key.length) :
    key.length = 16 ∨ key.length = 32 ∨ key.length = 64 := by
  cases h with
  | unset => cases hpositive
  | set hsize hdecode =>
    have hlength := B.length_decode hdecode
    omega

/-- The volume that is made for the options, without a password. -/
theorem mountVolumeWithKeys_keyed {env : MountOpenEnvironment} (henv : env.Reliable)
    {mountHandle : MountHandle} {v : Volume}
    (hset : (if mountHandle.keyDataSize > 0 then
      volumeSetKey volumeInitialize (mountHandle.keyData.bytes.take mountHandle.keyDataSize)
      else (volumeInitialize, 1)) = (v, 1)) (hoption : mountHandle.password = none) :
    mountVolumeWithKeys L env mountHandle = some v := by
  rw [mountVolumeWithKeys, if_neg (by rw [henv.volumeInitialize]; decide), hset, hoption]
  rfl

/-- The volume that is made for the options, with a password. -/
theorem mountVolumeWithKeys_password {env : MountOpenEnvironment} (henv : env.Reliable)
    {mountHandle : MountHandle} {v : Volume}
    (hset : (if mountHandle.keyDataSize > 0 then
      volumeSetKey volumeInitialize (mountHandle.keyData.bytes.take mountHandle.keyDataSize)
      else (volumeInitialize, 1)) = (v, 1)) {string password : List UInt8}
    (hoption : mountHandle.password = some string) (hpassword : SetsPassword L string password) :
    mountVolumeWithKeys L env mountHandle = some (v.withPassword password) := by
  rw [mountVolumeWithKeys, if_neg (by rw [henv.volumeInitialize]; decide), hset, hoption]
  dsimp only
  rw [henv.setPassword, hpassword.volumeSetUtf8Password]
  rfl

/-- The key of the options is set. -/
theorem LuksdemountOptions.setKey_mountHandle (options : LuksdemountOptions) {key : List UInt8}
    (offset : ℤ) (hsize : key.length = 16 ∨ key.length = 32 ∨ key.length = 64) :
    (if (options.mountHandle key offset).keyDataSize > 0 then
      volumeSetKey volumeInitialize ((options.mountHandle key offset).keyData.bytes.take
        (options.mountHandle key offset).keyDataSize)
      else (volumeInitialize, 1)) = (volumeInitialize.withSetKey key, 1) := by
  have htake : (options.mountHandle key offset).keyData.bytes.take
      (options.mountHandle key offset).keyDataSize = key :=
    volumeInitialize.take_masterKey_withSetKey hsize
  have hpositive : (options.mountHandle key offset).keyDataSize > 0 := by
    show 0 < key.length
    omega
  rw [if_pos hpositive, htake, volumeSetKey_withSetKey _ hsize]

theorem SetsPassword.wellformed {string password : List UInt8}
    (h : SetsPassword L string password) {v : Volume} (hv : Wellformed L v) :
    Wellformed L (v.withPassword password) := by
  have hstep := step_wellformed (L := L) (.setUtf8Password {} string) v hv
  simp only [step, h.volumeSetUtf8Password v] at hstep
  exact hstep

theorem mountFileSystemAppendVolume_eq (fileSystem : MountFileSystem) (volume : Volume) :
    mountFileSystemAppendVolume false fileSystem volume =
      ({ fileSystem with volumes := fileSystem.volumes ++ [some volume] }, 1) := rfl

section

variable (hL : L.RoundTrip) (F : Formatting L) {file : FileIoHandle}
  (hfile : file.image = F.image L)

include hL hfile

/-- A volume with the password of the key slot. -/
theorem Formatting.getsKey_withPassword {v : Volume} (hunset : v.volumeMasterKeyIsSet = false) :
    GetsKey L F.header F.masterKey file.image (v.withPassword F.password) := by
  obtain ⟨hslot, hbefore⟩ := F.toFormatInput.keySlots
  have hfilled := F.filledFor hL
  rw [← hfile] at hfilled
  exact .password hunset rfl (v.password_withPassword F.password) hslot hfilled hbefore

/-- A closed volume that gets the master key is opened. -/
theorem mountOpenVolume_formatted {env : MountOpenEnvironment} (henv : env.Reliable)
    (mountHandle : MountHandle) {v : Volume} (hv : Wellformed L v) (hclosed : v.fileIoHandle = none)
    (hkey : GetsKey L F.header F.masterKey file.image v) :
    ∃ volume, mountOpenVolume L env mountHandle v file = some (volume, file.opened) ∧
      Shows L volume file.opened F.content := by
  have hformatted := F.formatted hL
  rw [← hfile] at hformatted
  obtain ⟨memory, beyond, hreliable⟩ := henv.openVolume
  have hread : AccessFlagsSupported 1 := by decide
  obtain ⟨hone, hstands⟩ := hformatted.opens hL hv hclosed hkey hread memory beyond
  rw [mountOpenVolume, hreliable]
  generalize volumeOpenFileIoHandle L { keys := reliable memory beyond } v file 1 = opened
    at hone hstands
  obtain ⟨volume, file', result⟩ := opened
  cases hone
  have hlocked : volumeIsLocked volume = 0 := by
    rw [volumeIsLocked, hstands.shows.isLocked]
    rfl
  dsimp only
  rw [if_neg (not_not.2 rfl), if_pos hlocked]
  exact ⟨volume, rfl, hstands.shows⟩

/-- A locked volume is unlocked with the password that is entered. -/
theorem mountPromptAndUnlock_formatted {env : MountOpenEnvironment} (henv : env.Reliable)
    {string : List UInt8} (hprompt : env.prompt = some string) (hne : string ≠ [])
    (hpassword : SetsPassword L string F.password) (hopen : file.isOpen = true) {v : Volume}
    (hv : Wellformed L v) (hfileIoHandle : v.fileIoHandle = some file)
    (hlocked : v.isLocked = true) (hheader : v.volumeHeader = some F.header)
    (hsize : v.masterKeySize = F.masterKey.length) (hcontext : v.encryptionContext = none)
    (hunset : v.volumeMasterKeyIsSet = false) :
    ∃ volume, mountPromptAndUnlock L env v = some volume ∧ Shows L volume file F.content := by
  have hformatted := F.formatted hL
  rw [← hfile] at hformatted
  obtain ⟨memory, beyond, hreliable⟩ := henv.unlock
  obtain ⟨hone, hshows⟩ := hformatted.unlocks hL hopen (hpassword.wellformed hv) hfileIoHandle
    hlocked hheader hsize hcontext (F.getsKey_withPassword hL hfile hunset) memory beyond
  rw [mountPromptAndUnlock, hprompt]
  dsimp only
  rw [if_pos (List.length_pos_iff.2 hne), henv.setPromptedPassword,
    hpassword.volumeSetUtf8Password v, hreliable]
  dsimp only
  rw [if_neg (not_not.2 rfl), hone, if_neg (by decide)]
  exact ⟨_, rfl, hshows⟩

/-- A new volume is opened locked, and unlocked with the password that is entered. -/
theorem mountOpenVolume_prompted {env : MountOpenEnvironment} (henv : env.Reliable)
    {mountHandle : MountHandle} (hattended : mountHandle.unattendedMode = 0) {string : List UInt8}
    (hprompt : env.prompt = some string) (hne : string ≠ [])
    (hpassword : SetsPassword L string F.password) :
    ∃ volume, mountOpenVolume L env mountHandle volumeInitialize file =
        some (volume, file.opened) ∧ Shows L volume file.opened F.content := by
  have hformatted := F.formatted hL
  rw [← hfile] at hformatted
  obtain ⟨memory, beyond, hreliable⟩ := henv.openVolume
  have hopen : volumeOpenFileIoHandle L { keys := reliable memory beyond } volumeInitialize file 1 =
      ((volumeInitialize.beforeUnlock file F.header).afterOpen file F.header, file.opened, 1) :=
    hformatted.opensLocked volumeInitialize_wellformed rfl rfl rfl (by decide)
      (reliable memory beyond)
  have hwellformed := volumeOpenFileIoHandle_wellformed (L := L) volumeInitialize_wellformed
    { keys := reliable memory beyond } file 1
  rw [hopen] at hwellformed
  have hopened : file.opened.image = F.image L := hfile
  obtain ⟨volume, hunlocked, hshows⟩ := mountPromptAndUnlock_formatted hL F hopened henv hprompt hne
    hpassword rfl hwellformed rfl rfl rfl F.masterKeySize_record.symm rfl rfl
  refine ⟨volume, ?_, hshows⟩
  rw [mountOpenVolume, hreliable, hopen]
  dsimp only
  have hlocked : volumeIsLocked ((volumeInitialize.beforeUnlock file F.header).afterOpen file
      F.header) ≠ 0 := show (1 : ℤ) ≠ 0 by decide
  rw [if_neg (not_not.2 rfl), if_neg hlocked, if_neg (not_not.2 hattended), hunlocked]
  rfl

/-- The volume that is opened for the options shows the content. -/
theorem mountVolume_formatted {env : MountOpenEnvironment} (henv : env.Reliable)
    {options : LuksdemountOptions} {key : List UInt8} (hkey : GivesKeyData B options.key key)
    (hsecret : GivesSecret F options env.prompt key) (offset : ℤ) :
    ∃ v volume, mountVolumeWithKeys L env (options.mountHandle key offset) = some v ∧
      mountOpenVolume L env (options.mountHandle key offset) v file =
        some (volume, file.opened) ∧ Shows L volume file.opened F.content := by
  cases hsecret with
  | key hpassword =>
    -- the key is checked before the password, which is not used
    have hset := options.setKey_mountHandle offset (hkey.length F.masterKeySize.1)
    have hkeyed := volumeInitialize.take_masterKey_withSetKey (hkey.length F.masterKeySize.1)
    have hwellformed := volumeSetKey_wellformed (L := L) volumeInitialize_wellformed F.masterKey
    rw [volumeSetKey_withSetKey _ (hkey.length F.masterKeySize.1)] at hwellformed
    cases hoption : options.password with
    | none =>
      obtain ⟨volume, hopen, hshows⟩ := mountOpenVolume_formatted hL F hfile henv
        (options.mountHandle F.masterKey offset) hwellformed rfl (.key rfl hkeyed)
      exact ⟨_, volume, mountVolumeWithKeys_keyed henv hset hoption, hopen, hshows⟩
    | some string =>
      obtain ⟨password, hpassword⟩ := hpassword string hoption
      obtain ⟨volume, hopen, hshows⟩ := mountOpenVolume_formatted hL F hfile henv
        (options.mountHandle F.masterKey offset) (hpassword.wellformed hwellformed) rfl
        (.key rfl hkeyed)
      exact ⟨_, volume, mountVolumeWithKeys_password henv hset hoption hpassword, hopen, hshows⟩
  | @password string hoption hpassword =>
    obtain ⟨volume, hopen, hshows⟩ := mountOpenVolume_formatted hL F hfile henv
      (options.mountHandle [] offset) (hpassword.wellformed volumeInitialize_wellformed) rfl
      (F.getsKey_withPassword hL hfile rfl)
    exact ⟨_, volume, mountVolumeWithKeys_password henv rfl hoption hpassword, hopen, hshows⟩
  | @prompt string hoption hattended hprompt hne hpassword =>
    have hasks : (options.mountHandle [] offset).unattendedMode = 0 := hattended
    obtain ⟨volume, hopen, hshows⟩ := mountOpenVolume_prompted hL F hfile henv hasks hprompt hne
      hpassword
    exact ⟨_, volume, mountVolumeWithKeys_keyed henv rfl hoption, hopen, hshows⟩

/-- The mount handle when the source is open. -/
theorem mountHandleOpen_formatted {env : MountOpenEnvironment} (henv : env.Reliable)
    {options : LuksdemountOptions} {key : List UInt8} (hkey : GivesKeyData B options.key key)
    (hsecret : GivesSecret F options env.prompt key) {offset : ℤ}
    (hrange : env.fileRange offset = some file) :
    ∃ mountHandle volume, mountHandleOpen L env (options.mountHandle key offset) =
        (mountHandle, 1) ∧
      mountHandle.fileSystem =
        ⟨some (luksdePathPrefix ++ [0]), 1 + luksdePathPrefix.length, [some volume]⟩ ∧
      Shows L volume file.opened F.content := by
  obtain ⟨v, volume, hgiven, hopen, hshows⟩ :=
    mountVolume_formatted hL F hfile henv hkey hsecret offset
  have happend := mountFileSystemAppendVolume_eq
    (options.mountHandle key offset).fileSystem volume
  have hsource : env.fileRange (options.mountHandle key offset).volumeOffset = some file := hrange
  rw [mountHandleOpen, hsource]
  dsimp only
  rw [hgiven]
  dsimp only
  rw [hopen]
  dsimp only
  rw [henv.append, happend]
  dsimp only
  rw [if_neg (not_not.2 rfl)]
  exact ⟨_, volume, rfl, rfl, hshows⟩

end

/-! ## The program -/

/-- The mount when the loop is reached. -/
theorem luksdemount_reachesLoop {env : LuksdemountEnvironment} {source mountPoint : List UInt8}
    {rest : List (List UInt8)} (henv : env.Reliable source) {arguments : List LuksdemountOption}
    {options : LuksdemountOptions} (hoptions : luksdemountOptions arguments {} = .ok options)
    {mountHandle : MountHandle}
    (hhandle : luksdemountHandle L B env options source = .ok mountHandle) :
    luksdemount L B env arguments (source :: mountPoint :: rest) =
      .ok ⟨mountHandle, env.mountedTimestamp, env.effectiveUserId, env.effectiveGroupId,
        .empty⟩ := by
  have hrun : ¬ (env.fuseFails ∨ (options.verbose = false ∧ env.daemonizeFails)) := by
    simp [henv.fuse, henv.daemonize]
  rw [luksdemount, if_neg (by rw [henv.initializes]; decide), hoptions]
  simp only [bind, Except.bind, luksdemountMount, hhandle]
  rw [if_neg hrun]
  rfl

/-- **Mounting what was formatted.**  For every input that can be formatted, and for all options by
which the tool is told where the image is and given one of its secrets, if no call fails while the
tool starts, it reaches the loop; and every sequence of requests on which nothing fails, and whose
reads begin at a sector or stay in one, is then answered as the read-only tree answers it in which
the content that was formatted is the only file. -/
theorem luksdemount_formatted (C : Libcpath) (L : Libraries) (B : Base16) (hL : L.RoundTrip)
    (F : Formatting L) {file : FileIoHandle} (hfile : file.image = F.image L)
    {env : LuksdemountEnvironment} {source mountPoint : List UInt8} {rest : List (List UInt8)}
    (henv : env.Reliable source) {arguments : List LuksdemountOption}
    {options : LuksdemountOptions} (hoptions : luksdemountOptions arguments {} = .ok options)
    {offset : ℤ} (hoffset : GivesOffset options.offset offset)
    (hrange : (env.openSource source).fileRange offset = some file) {key : List UInt8}
    (hkey : GivesKeyData B options.key key)
    (hsecret : GivesSecret F options (env.openSource source).prompt key) :
    ∃ mount, luksdemount L B env arguments (source :: mountPoint :: rest) = .ok mount ∧
      (mount.mountedTimestamp = env.mountedTimestamp ∧
        mount.effectiveUserId = env.effectiveUserId ∧
        mount.effectiveGroupId = env.effectiveGroupId) ∧
      ∀ requests : List FuseRequest, (∀ request ∈ requests, request.Undisturbed) →
        seen (fuseStep C L) fuseView (some mount.served) requests =
          (answers (serve intMax (mountTree mount luksdePathPrefix [F.content])) .empty
            (requests.filterMap FuseRequest.request)).map fun reply => some (fuseAnswer reply) := by
  obtain ⟨mountHandle, volume, hopen, hfileSystem, hshows⟩ :=
    mountHandleOpen_formatted hL F hfile henv.openSource hkey hsecret hrange
  have hhandle : luksdemountHandle L B env options source = .ok mountHandle := by
    rw [luksdemountHandle_eq henv hkey hoffset, hopen]
    rfl
  refine ⟨_, luksdemount_reachesLoop henv hoptions hhandle, ⟨rfl, rfl, rfl⟩, ?_⟩
  set mount : Mount := ⟨mountHandle, env.mountedTimestamp, env.effectiveUserId,
    env.effectiveGroupId, .empty⟩ with hmount
  have hmounted : mount.fileSystem =
      ⟨some (luksdePathPrefix ++ [0]), 1 + luksdePathPrefix.length, [some volume]⟩ := hfileSystem
  have hmountShows : MountShows L luksdePathPrefix mount [F.content] mount := by
    refine ⟨⟨?_, ?_, luksdeFileSystem_hasPathPrefix.3⟩, rfl, rfl, rfl, ?_, ?_⟩
    · rw [hmounted]
    · rw [hmounted]
      exact Nat.add_comm _ _
    · rw [hmounted]
      rfl
    · intro i hi
      obtain rfl : i = 0 := Nat.lt_one_iff.1 hi
      refine ⟨volume, file.opened, ?_, hshows⟩
      rw [Mount.volume?, hmounted]
      rfl
  intro requests hundisturbed
  have hnumber : [F.content].length ≤ 999 := show 1 ≤ 999 by decide
  exact ((fuse_refines C L mount (List.cons_ne_nil _ _) (by decide) hnumber).run
    (hmountShows.mirrors rfl) (admitted_of_forall hundisturbed)).1

/-- The formatted image behind its first sector, and its password at the prompt. -/
def promptSurroundings : LuksdemountEnvironment where
  openSource := fun _ =>
    { fileRange := fun offset => if offset = 512 then some smallFormattedFile else none
      openVolume := { keys := reliable (fun _ _ => 0) fun _ _ => 0 }
      prompt := some smallPassword
      unlock := reliable (fun _ _ => 0) fun _ _ => 0 }

theorem promptSurroundings_reliable (source : List UInt8) : promptSurroundings.Reliable source :=
  ⟨rfl, rfl, rfl, ⟨rfl, rfl, ⟨_, _, rfl⟩, rfl, ⟨_, _, rfl⟩, rfl⟩, rfl, rfl⟩

/-- The tool is given the offset of the image, and the password at the prompt. -/
theorem luksdemount_formatted_small :
    ∃ mount, luksdemount exchangingLibraries smallBase16 promptSurroundings
        [.verbose, .offset (numeral 512)] [ascii ['v'], ascii ['m']] = .ok mount ∧
      (mount.mountedTimestamp = promptSurroundings.mountedTimestamp ∧
        mount.effectiveUserId = promptSurroundings.effectiveUserId ∧
        mount.effectiveGroupId = promptSurroundings.effectiveGroupId) ∧
      ∀ requests : List FuseRequest, (∀ request ∈ requests, request.Undisturbed) →
        seen (fuseStep slash exchangingLibraries) fuseView (some mount.served) requests =
          (answers (serve intMax (mountTree mount luksdePathPrefix [smallFormatting.content]))
            .empty (requests.filterMap FuseRequest.request)).map fun reply =>
              some (fuseAnswer reply) :=
  luksdemount_formatted slash exchangingLibraries smallBase16 exchangingLibraries_roundTrip
    smallFormatting rfl (promptSurroundings_reliable _) rfl (givesOffset_numeral (by decide)
    (by decide)) rfl .unset
    (.prompt rfl rfl rfl (List.cons_ne_nil _ _) ⟨rfl, by decide +kernel⟩)

end Libluksde
