import Libluksde.MountFileSystem
import Libluksde.Lib.Decimal
import Libluksde.Lib.Stores

/-!
# The paths of a mounted image

Each volume of a mounted image has a path: the path prefix with the number of the volume, counted
from 1, in decimal.  `luksdetools/mount_file_system.c` writes the number backwards into a buffer
and reads it forwards from a string.  The model is that of a build with narrow strings, which are
copied and compared as memory; a pointer to a string is the memory from there on.
-/

namespace Libluksde

open Lib.Decimal Lib.Stores

/-! ## Strings -/

/-- The characters of a string, up to its NUL; their number is `system_string_length`. -/
def systemString (string : List UInt8) : List UInt8 := string.takeWhile (· ≠ 0)

/-- `system_string_copy`, as the stores that it makes.  It is `memcpy`. -/
def systemStringCopy (source : List UInt8) (size : ℕ) : List (ℕ × UInt8) :=
  (List.range size).map fun i => (i, source.getD i 0)

/-- `system_string_compare` finds no difference in the first characters.  It is `memcmp`. -/
def SystemStringsAgree (a b : List UInt8) (size : ℕ) : Prop := a.take size = b.take size

instance (a b : List UInt8) (size : ℕ) : Decidable (SystemStringsAgree a b size) :=
  inferInstanceAs (Decidable (_ = _))

/-! ## From an index to a path -/

/-- The loop that counts the digits of the volume number. -/
def countDigits : ℕ → (volumeNumber : ℕ) → ℕ
  | 0, _ => 0
  | fuel + 1, volumeNumber =>
    if volumeNumber > 0 then countDigits fuel (volumeNumber / 10) + 1 else 0

/-- The loop that writes the digits of the volume number, from the last one on. -/
def writeDigits : ℕ → (volumeNumber pathIndex : ℕ) → List (ℕ × UInt8)
  | 0, _, _ => []
  | fuel + 1, volumeNumber, pathIndex =>
    if volumeNumber > 0 then
      (pathIndex, UInt8.ofNat (48 + volumeNumber % 10)) ::
        writeDigits fuel (volumeNumber / 10) (pathIndex - 1)
    else []

/-- `mount_file_system_get_path_from_volume_index`, as the stores to the path that it makes, in
order, or `none` when it returns -1, before any store.  A volume number that is not positive has no
digits. -/
def mountFileSystemGetPathFromVolumeIndex (fileSystem : MountFileSystem) (volumeIndex : ℤ)
    (pathSize : ℕ) : Option (List (ℕ × UInt8)) :=
  match fileSystem.pathPrefix with
  | none => none
  | some pathPrefix =>
    if pathSize > ssizeMax then none
    else
      let volumeNumber := (volumeIndex + 1).toNat
      let requiredPathSize :=
        fileSystem.pathPrefixSize + countDigits volumeNumber volumeNumber
      if pathSize ≤ requiredPathSize then none
      else
        some (systemStringCopy pathPrefix fileSystem.pathPrefixSize ++
          (requiredPathSize - 1, 0) ::
            writeDigits volumeNumber volumeNumber (requiredPathSize - 1 - 1))

/-! ## From a path to a volume -/

/-- The answer of a lookup: its return value, and where that is 1, the volume by its index in the
array, or `none` for `NULL`. -/
structure Lookup where
  result : ℤ
  volumeIndex : Option ℕ
deriving DecidableEq, Repr

/-- The loop that reads the volume number, or `none` at a character that is not a digit. -/
def readVolumeNumber : (path : List UInt8) → (volumeNumber : ℕ) → Option ℕ
  | [], volumeNumber => some volumeNumber
  | character :: path, volumeNumber =>
    if character < 0x30 ∨ character > 0x39 then none
    else readVolumeNumber path (volumeNumber * 10 + (character - 0x30).toNat)

/-- `libcdata_array_get_entry_by_index`: the index of an entry that is there. -/
def libcdataArrayGetEntryByIndex {α : Type} (array : List α) (index : ℤ) : Option ℕ :=
  if 0 ≤ index ∧ index < array.length then some index.toNat else none

/-- `mount_file_system_get_volume_by_path` -/
def mountFileSystemGetVolumeByPath (fileSystem : MountFileSystem) (path : List UInt8)
    (pathLength : ℕ) : Lookup :=
  match fileSystem.pathPrefix with
  | none => ⟨-1, none⟩
  | some pathPrefix =>
    if pathLength > ssizeMax - 1 then ⟨-1, none⟩
    else
      -- the length is determined again, whatever the caller gave
      let pathLength := (systemString path).length
      if pathLength = 1 ∧ path.getD 0 0 = pathPrefix.getD 0 0 then ⟨1, none⟩
      else if pathLength < fileSystem.pathPrefixSize ∨
          pathLength > fileSystem.pathPrefixSize + 3 then ⟨0, none⟩
      else if ¬ SystemStringsAgree path pathPrefix (fileSystem.pathPrefixSize - 1) then ⟨0, none⟩
      else
        match readVolumeNumber ((systemString path).drop (fileSystem.pathPrefixSize - 1)) 0 with
        | none => ⟨0, none⟩
        | some volumeNumber =>
          match libcdataArrayGetEntryByIndex fileSystem.volumes (volumeNumber - 1) with
          | none => ⟨-1, none⟩
          | some volumeIndex => ⟨1, some volumeIndex⟩

/-! ## What the loops do -/

/-- The characters of a string that is given with its NUL. -/
theorem systemString_append {s : List UInt8} (hs : (0 : UInt8) ∉ s) (behind : List UInt8) :
    systemString (s ++ 0 :: behind) = s := by
  rw [systemString, List.takeWhile_append_of_pos]
  · simp
  · intro c hc
    simp only [ne_eq, decide_not, Bool.not_eq_true', decide_eq_false_iff_not]
    rintro rfl
    exact hs hc

/-- A numeral contains no NUL. -/
theorem zero_not_mem_numeral (n : ℕ) : (0 : UInt8) ∉ numeral n := by
  intro hmem
  exact absurd (isDigit_of_mem_numeral hmem) (by decide)

/-- The first loop counts the digits of the numeral. -/
theorem countDigits_eq {fuel volumeNumber : ℕ} (hfuel : volumeNumber ≤ fuel) :
    countDigits fuel volumeNumber = (numeral volumeNumber).length := by
  induction fuel generalizing volumeNumber with
  | zero =>
    obtain rfl : volumeNumber = 0 := by omega
    rw [numeral_zero]
    rfl
  | succ fuel ih =>
    rw [countDigits]
    rcases Nat.eq_zero_or_pos volumeNumber with rfl | hpos
    · simp
    · rw [if_pos hpos, ih (by omega), numeral_pos hpos, List.length_append, List.length_singleton]

/-- The second loop replaces as many characters as the numeral has by the numeral. -/
theorem store_writeDigits {fuel volumeNumber : ℕ} (hfuel : volumeNumber ≤ fuel)
    (before : List UInt8) {part : List UInt8} (behind : List UInt8)
    (hpart : part.length = (numeral volumeNumber).length) :
    store (before ++ (part ++ behind))
        (writeDigits fuel volumeNumber (before.length + part.length - 1)) =
      before ++ (numeral volumeNumber ++ behind) := by
  induction fuel generalizing volumeNumber part behind with
  | zero =>
    obtain rfl : volumeNumber = 0 := by omega
    rw [numeral_zero] at hpart ⊢
    obtain rfl := List.eq_nil_of_length_eq_zero hpart
    rfl
  | succ fuel ih =>
    rw [writeDigits]
    rcases Nat.eq_zero_or_pos volumeNumber with rfl | hpos
    · rw [numeral_zero] at hpart ⊢
      obtain rfl := List.eq_nil_of_length_eq_zero hpart
      simp
    · rw [numeral_pos hpos, List.length_append, List.length_singleton] at hpart
      -- the last character is replaced first, and is then one of those behind
      rcases List.eq_nil_or_concat' part with rfl | ⟨front, last, rfl⟩
      · simp at hpart
      · rw [List.length_append, List.length_singleton] at hpart ⊢
        have hset := set_append_cons (before ++ front) behind last
          (UInt8.ofNat (48 + volumeNumber % 10))
        rw [List.length_append] at hset
        have hindex : before.length + (front.length + 1) - 1 = before.length + front.length := by
          omega
        have hstore : (before ++ (front ++ [last] ++ behind)).set (before.length + front.length)
            (UInt8.ofNat (48 + volumeNumber % 10)) =
              before ++ (front ++ digit (volumeNumber % 10) :: behind) := by
          rw [← List.append_assoc before front, digit, ← hset]
          simp
        have hrest := ih (show volumeNumber / 10 ≤ fuel by omega)
          (digit (volumeNumber % 10) :: behind) (show front.length = _ by omega)
        rw [if_pos hpos, store_cons, hindex, hstore, hrest, numeral_pos hpos]
        simp

/-- The second loop writes at no index behind the one at which it begins. -/
theorem writeDigits_le {fuel volumeNumber pathIndex : ℕ} {s : ℕ × UInt8}
    (hs : s ∈ writeDigits fuel volumeNumber pathIndex) : s.1 ≤ pathIndex := by
  induction fuel generalizing volumeNumber pathIndex with
  | zero => cases hs
  | succ fuel ih =>
    rw [writeDigits] at hs
    split at hs
    · rcases List.mem_cons.1 hs with rfl | hs
      · exact le_rfl
      · exact (ih hs).trans (Nat.sub_le _ _)
    · cases hs

/-- The test of the reading loop. -/
theorem not_digit_iff (c : UInt8) : (c < 0x30 ∨ c > 0x39) ↔ ¬ IsDigit c := by
  simp only [IsDigit, UInt8.lt_iff_toNat_lt, gt_iff_lt, UInt8.reduceToNat]
  omega

/-- The reading loop reads the value of a string of digits. -/
theorem readVolumeNumber_digits {path : List UInt8} (hpath : ∀ c ∈ path, IsDigit c)
    (volumeNumber : ℕ) :
    readVolumeNumber path volumeNumber =
      some (path.foldl (fun v c => v * 10 + (c.toNat - 48)) volumeNumber) := by
  induction path generalizing volumeNumber with
  | nil => rfl
  | cons character path ih =>
    obtain ⟨hcharacter, hpath⟩ := List.forall_mem_cons.1 hpath
    have hvalue : (character - 0x30).toNat = character.toNat - 48 := by
      have hle : (0x30 : UInt8) ≤ character := UInt8.le_iff_toNat_le.2 hcharacter.1
      rw [UInt8.toNat_sub_of_le _ _ hle]
      rfl
    rw [readVolumeNumber, if_neg (by rw [not_digit_iff]; exact not_not.2 hcharacter), ih hpath,
      hvalue, List.foldl_cons]

/-- It accepts no other string. -/
theorem readVolumeNumber_eq_none {path : List UInt8} (hpath : ¬ ∀ c ∈ path, IsDigit c)
    (volumeNumber : ℕ) : readVolumeNumber path volumeNumber = none := by
  induction path generalizing volumeNumber with
  | nil => exact absurd (List.forall_mem_nil _) hpath
  | cons character path ih =>
    rw [readVolumeNumber]
    by_cases hcharacter : IsDigit character
    · rw [if_neg (by rw [not_digit_iff]; exact not_not.2 hcharacter)]
      exact ih (fun hrest => hpath (List.forall_mem_cons.2 ⟨hcharacter, hrest⟩)) _
    · exact if_pos ((not_digit_iff character).2 hcharacter)

/-! ## The path of an index -/

/-- A mounted file system whose path prefix is a string without NUL. -/
structure MountFileSystem.HasPathPrefix (fileSystem : MountFileSystem) (p : List UInt8) : Prop where
  pathPrefix : fileSystem.pathPrefix = some (p ++ [0])
  pathPrefixSize : fileSystem.pathPrefixSize = p.length + 1
  zero_not_mem : (0 : UInt8) ∉ p

/-- This is what setting a path prefix leaves. -/
theorem mountFileSystemSetPathPrefix_hasPathPrefix {fileSystem : MountFileSystem}
    (hunset : fileSystem.pathPrefix = none) {p : List UInt8} (hp : (0 : UInt8) ∉ p)
    (hsize : p.length + 1 ≤ 2 ^ 63 - 1) :
    (mountFileSystemSetPathPrefix false fileSystem p (p.length + 1)).1.HasPathPrefix p := by
  rw [mountFileSystemSetPathPrefix, if_neg (not_not.2 hunset), if_neg (by simp; omega)]
  refine ⟨?_, rfl, hp⟩
  rw [Nat.add_sub_cancel, List.takeD_eq_take _ le_rfl, List.take_length]

section

variable {fileSystem : MountFileSystem} {p : List UInt8} (hp : fileSystem.HasPathPrefix p)

include hp

/-- The stores of an index, where the size is accepted. -/
theorem mountFileSystemGetPathFromVolumeIndex_inv {i pathSize : ℕ} {stores : List (ℕ × UInt8)}
    (hpath : mountFileSystemGetPathFromVolumeIndex fileSystem i pathSize = some stores) :
    pathSize ≤ ssizeMax ∧ p.length + 1 + (numeral (i + 1)).length < pathSize ∧
      stores = systemStringCopy (p ++ [0]) (p.length + 1) ++
        (p.length + (numeral (i + 1)).length, 0) ::
          writeDigits (i + 1) (i + 1) (p.length + (numeral (i + 1)).length - 1) := by
  have hnumber : ((i : ℤ) + 1).toNat = i + 1 := by omega
  rw [mountFileSystemGetPathFromVolumeIndex, hp.pathPrefix] at hpath
  simp only [hnumber, countDigits_eq le_rfl, hp.pathPrefixSize] at hpath
  split_ifs at hpath with hlarge hsmall
  refine ⟨by omega, by omega, ?_⟩
  have hindex : p.length + 1 + (numeral (i + 1)).length - 1 =
      p.length + (numeral (i + 1)).length := by omega
  rw [hindex] at hpath
  exact (Option.some.inj hpath).symm

/-- All stores are made inside the size, and leave the path prefix, the numeral of the volume number
and a NUL directly behind it. -/
theorem mountFileSystemGetPathFromVolumeIndex_path {i pathSize : ℕ} {stores : List (ℕ × UInt8)}
    (hpath : mountFileSystemGetPathFromVolumeIndex fileSystem i pathSize = some stores) :
    (∀ s ∈ stores, s.1 < pathSize) ∧ ∀ buffer : List UInt8, pathSize ≤ buffer.length →
      ∃ behind, store buffer stores = p ++ numeral (i + 1) ++ 0 :: behind := by
  obtain ⟨-, hsize, rfl⟩ := mountFileSystemGetPathFromVolumeIndex_inv hp hpath
  have hpos : 0 < (numeral (i + 1)).length :=
    List.length_pos_of_ne_nil (numeral_ne_nil (Nat.succ_pos i))
  constructor
  · rintro s hs
    rcases List.mem_append.1 hs with hcopied | hs
    · obtain ⟨k, hk, rfl⟩ := List.mem_map.1 hcopied
      have := List.mem_range.1 hk
      show k < pathSize
      omega
    · rcases List.mem_cons.1 hs with rfl | hs
      · show p.length + (numeral (i + 1)).length < pathSize
        omega
      · have := writeDigits_le hs
        omega
  · intro buffer hbuffer
    -- the copied path prefix, with its NUL
    have hcopied : store buffer (systemStringCopy (p ++ [0]) (p.length + 1)) =
        p ++ 0 :: buffer.drop (p.length + 1) := by
      have hlength : p.length + 1 = (p ++ [0]).length := by simp
      rw [systemStringCopy, store_range _ (by omega), hlength, map_range_getD, List.append_assoc]
      rfl
    -- behind the path prefix, as many characters as there will be digits, one for the NUL, the rest
    obtain ⟨part, c, behind, hrest, hpart⟩ : ∃ part c behind,
        0 :: buffer.drop (p.length + 1) = part ++ c :: behind ∧
          part.length = (numeral (i + 1)).length := by
      refine exists_split ?_
      rw [List.length_cons, List.length_drop]
      omega
    have hnul := set_append_cons (p ++ part) behind c 0
    rw [List.length_append, hpart, List.append_assoc, List.append_assoc] at hnul
    have hdigits := store_writeDigits (le_refl (i + 1)) p (0 :: behind) hpart
    rw [hpart] at hdigits
    refine ⟨behind, ?_⟩
    rw [store_append, hcopied, hrest, store_cons, hnul, hdigits, List.append_assoc]

end

/-! ## The lookup of a path -/

/-- The path of the root: the first character of the path prefix. -/
def IsRootPath (p s : List UInt8) : Prop := ∃ c, p.head? = some c ∧ s = [c]

/-- The path prefix with one to four digits behind it, the paths that the lookup takes for those of
volumes. -/
def IsNumberedPath (p s d : List UInt8) : Prop :=
  s = p ++ d ∧ (∀ c ∈ d, IsDigit c) ∧ 1 ≤ d.length ∧ d.length ≤ 4

/-- It is not that of the root, which is shorter. -/
theorem IsNumberedPath.not_isRootPath {p s d : List UInt8} (hd : IsNumberedPath p s d) :
    ¬ IsRootPath p s := by
  rintro ⟨c, hhead, rfl⟩
  obtain ⟨hsplit, -, hone, -⟩ := hd
  have hlength := congrArg List.length hsplit
  rw [List.length_singleton, List.length_append] at hlength
  obtain rfl : p = [] := List.eq_nil_of_length_eq_zero (by omega)
  cases hhead

/-- A length that is too large is an error for every path. -/
theorem getVolumeByPath_large {fileSystem : MountFileSystem} {p : List UInt8}
    (hp : fileSystem.HasPathPrefix p) (path : List UInt8) {pathLength : ℕ}
    (hlength : ssizeMax - 1 < pathLength) :
    mountFileSystemGetVolumeByPath fileSystem path pathLength = ⟨-1, none⟩ := by
  rw [mountFileSystemGetVolumeByPath, hp.pathPrefix]
  exact if_pos hlength

section

variable {fileSystem : MountFileSystem} {p : List UInt8} (hp : fileSystem.HasPathPrefix p)
  {s : List UInt8} (hs : (0 : UInt8) ∉ s) (behind : List UInt8)
  {pathLength : ℕ} (hlength : pathLength ≤ ssizeMax - 1)

include hp hs hlength

/-- The lookup of a string. -/
theorem mountFileSystemGetVolumeByPath_eq :
    mountFileSystemGetVolumeByPath fileSystem (s ++ 0 :: behind) pathLength =
      if s.length = 1 ∧ (s ++ 0 :: behind).getD 0 0 = (p ++ [0]).getD 0 0 then ⟨1, none⟩
      else if s.length < p.length + 1 ∨ s.length > p.length + 1 + 3 then ⟨0, none⟩
      else if ¬ SystemStringsAgree (s ++ 0 :: behind) (p ++ [0]) p.length then ⟨0, none⟩
      else
        match readVolumeNumber (s.drop p.length) 0 with
        | none => ⟨0, none⟩
        | some volumeNumber =>
          match libcdataArrayGetEntryByIndex fileSystem.volumes (volumeNumber - 1) with
          | none => ⟨-1, none⟩
          | some volumeIndex => ⟨1, some volumeIndex⟩ := by
  rw [mountFileSystemGetVolumeByPath, hp.pathPrefix]
  dsimp only
  rw [if_neg (Nat.not_lt.2 hlength), systemString_append hs, hp.pathPrefixSize,
    Nat.add_sub_cancel]

theorem getVolumeByPath_root (hroot : IsRootPath p s) :
    mountFileSystemGetVolumeByPath fileSystem (s ++ 0 :: behind) pathLength = ⟨1, none⟩ := by
  rw [mountFileSystemGetVolumeByPath_eq hp hs behind hlength]
  rcases hroot with ⟨c, hhead, rfl⟩
  cases p with
  | nil => simp at hhead
  | cons a p =>
    rw [if_pos]
    simpa using hhead.symm

/-- A numbered path is looked up by the value of its digits, whether or not they are the numeral of
it. -/
theorem getVolumeByPath_numbered {d : List UInt8} (hd : IsNumberedPath p s d) :
    mountFileSystemGetVolumeByPath fileSystem (s ++ 0 :: behind) pathLength =
      if 1 ≤ value d ∧ value d ≤ fileSystem.volumes.length then ⟨1, some (value d - 1)⟩
      else ⟨-1, none⟩ := by
  rw [mountFileSystemGetVolumeByPath_eq hp hs behind hlength]
  obtain ⟨rfl, hdigits, hone, hfour⟩ := hd
  have hnotRoot : ¬ ((p ++ d).length = 1 ∧
      (p ++ d ++ 0 :: behind).getD 0 0 = (p ++ [0]).getD 0 0) := by
    rintro ⟨hlength, hfirst⟩
    rw [List.length_append] at hlength
    -- a path prefix of no characters, whose first character is the NUL
    obtain rfl : p = [] := List.eq_nil_of_length_eq_zero (by omega)
    rcases d with - | ⟨c, d⟩
    · simp at hone
    · apply hs
      have hc : c = 0 := by simpa using hfirst
      simp [hc]
  have hwindow : ¬ ((p ++ d).length < p.length + 1 ∨ (p ++ d).length > p.length + 1 + 3) := by
    rw [List.length_append]
    omega
  have hagree : SystemStringsAgree (p ++ d ++ 0 :: behind) (p ++ [0]) p.length := by
    rw [SystemStringsAgree, List.append_assoc, List.take_left', List.take_left'] <;> rfl
  rw [if_neg hnotRoot, if_neg hwindow, if_neg (not_not.2 hagree), List.drop_left,
    readVolumeNumber_digits hdigits]
  dsimp only
  rw [show d.foldl (fun v c => v * 10 + (c.toNat - 48)) 0 = value d from rfl,
    libcdataArrayGetEntryByIndex]
  by_cases hvalue : 1 ≤ value d ∧ value d ≤ fileSystem.volumes.length
  · have hindex : ((value d : ℤ) - 1).toNat = value d - 1 := by omega
    rw [if_pos hvalue, if_pos (by omega), hindex]
  · rw [if_neg hvalue, if_neg (by omega)]

/-- Every other path is that of no volume. -/
theorem getVolumeByPath_other (hroot : ¬ IsRootPath p s) (hd : ∀ d, ¬ IsNumberedPath p s d) :
    mountFileSystemGetVolumeByPath fileSystem (s ++ 0 :: behind) pathLength = ⟨0, none⟩ := by
  rw [mountFileSystemGetVolumeByPath_eq hp hs behind hlength]
  have hnotRoot : ¬ (s.length = 1 ∧ (s ++ 0 :: behind).getD 0 0 = (p ++ [0]).getD 0 0) := by
    rintro ⟨hone, hfirst⟩
    obtain ⟨c, rfl⟩ := List.length_eq_one_iff.1 hone
    cases p with
    | nil =>
      have hc : c = 0 := by simpa using hfirst
      exact hs (by simp [hc])
    | cons a p =>
      have hc : c = a := by simpa using hfirst
      exact hroot ⟨c, by rw [hc, List.head?_cons], rfl⟩
  rw [if_neg hnotRoot]
  split_ifs with hwindow hagree
  · rfl
  · rw [SystemStringsAgree, List.take_append_of_le_length (by omega), List.take_left' rfl] at hagree
    have hsplit : s = p ++ s.drop p.length := by
      conv_lhs => rw [← List.take_append_drop p.length s, hagree]
    have hnotDigits : ¬ ∀ c ∈ s.drop p.length, IsDigit c := by
      intro hdigits
      refine hd (s.drop p.length) ⟨hsplit, hdigits, ?_, ?_⟩ <;> rw [List.length_drop] <;> omega
    rw [readVolumeNumber_eq_none hnotDigits]
  · rfl

end

/-- The name of a volume is its numbered path. -/
theorem isNumberedPath_numeral (p : List UInt8) {k : ℕ} (hpos : 0 < k) (hk : k ≤ 9999) :
    IsNumberedPath p (p ++ numeral k) (numeral k) := by
  refine ⟨rfl, fun c hc => isDigit_of_mem_numeral hc, ?_, length_numeral_le_iff.2 (by omega)⟩
  exact List.length_pos_of_ne_nil (numeral_ne_nil hpos)

/-- The path of an index is written inside its size and ends with its last digit; looked up, it is
the path of the volume at the index, and of no other. -/
theorem mountFileSystemGetPathFromVolumeIndex_getVolumeByPath {fileSystem : MountFileSystem}
    {p : List UInt8} (hp : fileSystem.HasPathPrefix p) (hvolumes : fileSystem.volumes.length ≤ 9999)
    {i : ℕ} (hi : i < fileSystem.volumes.length) {pathSize : ℕ} {stores : List (ℕ × UInt8)}
    (hpath : mountFileSystemGetPathFromVolumeIndex fileSystem i pathSize = some stores) :
    (∀ s ∈ stores, s.1 < pathSize) ∧
      ∀ buffer : List UInt8, pathSize ≤ buffer.length →
        (∃ behind, store buffer stores = p ++ numeral (i + 1) ++ 0 :: behind) ∧
        mountFileSystemGetVolumeByPath fileSystem (store buffer stores)
            (systemString (store buffer stores)).length = ⟨1, some i⟩ ∧
        ∀ (j pathSize' : ℕ) (stores' : List (ℕ × UInt8)) (buffer' : List UInt8),
          mountFileSystemGetPathFromVolumeIndex fileSystem j pathSize' = some stores' →
          pathSize' ≤ buffer'.length →
          systemString (store buffer' stores') = systemString (store buffer stores) → j = i := by
  have hname : ∀ k, (0 : UInt8) ∉ p ++ numeral k := by
    rintro k hmem
    rcases List.mem_append.1 hmem with hmem | hmem
    · exact hp.zero_not_mem hmem
    · exact zero_not_mem_numeral k hmem
  obtain ⟨hbounds, hstored⟩ := mountFileSystemGetPathFromVolumeIndex_path hp hpath
  obtain ⟨hmax, hsize, -⟩ := mountFileSystemGetPathFromVolumeIndex_inv hp hpath
  refine ⟨hbounds, fun buffer hbuffer => ?_⟩
  obtain ⟨behind, hstore⟩ := hstored buffer hbuffer
  refine ⟨⟨behind, hstore⟩, ?_, ?_⟩
  · have hlength : (p ++ numeral (i + 1)).length ≤ ssizeMax - 1 := by
      rw [List.length_append]
      omega
    rw [hstore, systemString_append (hname _), getVolumeByPath_numbered hp (hname _) behind hlength
      (isNumberedPath_numeral p (show 0 < i + 1 by omega) (by omega)), value_numeral, if_pos (by omega),
      Nat.add_sub_cancel]
  · rintro j pathSize' stores' buffer' hpath' hbuffer' hsame
    obtain ⟨behind', hstore'⟩ :=
      (mountFileSystemGetPathFromVolumeIndex_path hp hpath').2 buffer' hbuffer'
    rw [hstore, hstore', systemString_append (hname _), systemString_append (hname _)] at hsame
    have := numeral_injective (List.append_cancel_left hsame)
    omega

/-- The path prefix that the mount tool sets. -/
def luksdePathPrefix : List UInt8 := [0x2f, 0x6c, 0x75, 0x6b, 0x73, 0x64, 0x65]

/-- A mounted file system of one volume with this path prefix. -/
def luksdeFileSystem : MountFileSystem :=
  ⟨some (luksdePathPrefix ++ [0]), 8, [some volumeInitialize]⟩

theorem luksdeFileSystem_hasPathPrefix : luksdeFileSystem.HasPathPrefix luksdePathPrefix :=
  ⟨rfl, rfl, by decide⟩

theorem mountFileSystemGetPathFromVolumeIndex_getVolumeByPath_luksde :
    ∃ stores, mountFileSystemGetPathFromVolumeIndex luksdeFileSystem ((0 : ℕ) : ℤ) 32 = some stores ∧
      mountFileSystemGetVolumeByPath luksdeFileSystem (store (List.replicate 32 0xff) stores)
        (systemString (store (List.replicate 32 0xff) stores)).length = ⟨1, some 0⟩ := by
  have hsize : (mountFileSystemGetPathFromVolumeIndex luksdeFileSystem ((0 : ℕ) : ℤ) 32).isSome := by
    decide
  obtain ⟨stores, hstores⟩ := Option.isSome_iff_exists.1 hsize
  refine ⟨stores, hstores, ?_⟩
  exact ((mountFileSystemGetPathFromVolumeIndex_getVolumeByPath luksdeFileSystem_hasPathPrefix
    (by decide) (by decide) hstores).2 _ (by simp)).2.1

/-! ## The names that the lookup accepts -/

/-- The lookup of a string accepts exactly the root and the names of the volumes, of which it finds
the volume of that number, and finds no volume by any other string. -/
structure LookupExact (fileSystem : MountFileSystem) (p s behind : List UInt8) (pathLength : ℕ) :
    Prop where
  root : IsRootPath p s →
    mountFileSystemGetVolumeByPath fileSystem (s ++ 0 :: behind) pathLength = ⟨1, none⟩
  volume : ∀ k, 1 ≤ k → k ≤ fileSystem.volumes.length → s = p ++ numeral k →
    mountFileSystemGetVolumeByPath fileSystem (s ++ 0 :: behind) pathLength = ⟨1, some (k - 1)⟩
  other : ¬ IsRootPath p s →
    (∀ k, 1 ≤ k → k ≤ fileSystem.volumes.length → s ≠ p ++ numeral k) →
    (mountFileSystemGetVolumeByPath fileSystem (s ++ 0 :: behind) pathLength).result = 0

section

variable {fileSystem : MountFileSystem} {p s behind : List UInt8} {pathLength : ℕ}

/-- The accepted names by the results of the lookup. -/
theorem LookupExact.result_eq_one_iff (h : LookupExact fileSystem p s behind pathLength) :
    (mountFileSystemGetVolumeByPath fileSystem (s ++ 0 :: behind) pathLength).result = 1 ↔
      IsRootPath p s ∨ ∃ k, 1 ≤ k ∧ k ≤ fileSystem.volumes.length ∧ s = p ++ numeral k := by
  constructor
  · intro hone
    by_contra hnot
    push Not at hnot
    have hzero := h.other hnot.1 hnot.2
    omega
  · rintro (hroot | ⟨k, hk, hn, hname⟩)
    · rw [h.root hroot]
    · rw [h.volume k hk hn hname]

/-- A lookup that is exact is no error. -/
theorem LookupExact.result_ne_error (h : LookupExact fileSystem p s behind pathLength) :
    (mountFileSystemGetVolumeByPath fileSystem (s ++ 0 :: behind) pathLength).result ≠ -1 := by
  intro herror
  have hnot := h.result_eq_one_iff.not.1 (by rw [herror]; decide)
  push Not at hnot
  exact absurd (herror.symm.trans (h.other hnot.1 hnot.2)) (by decide)

/-- The volume that the lookup of a string finds is that of the number in it. -/
theorem LookupExact.eq_of_volumeIndex (h : LookupExact fileSystem p s behind pathLength) {i : ℕ}
    (hi : mountFileSystemGetVolumeByPath fileSystem (s ++ 0 :: behind) pathLength = ⟨1, some i⟩) :
    s = p ++ numeral (i + 1) := by
  have hone := h.result_eq_one_iff.1 (by rw [hi])
  rcases hone with hroot | ⟨k, hk, hn, hname⟩
  · rw [h.root hroot] at hi
    cases hi
  · rw [h.volume k hk hn hname] at hi
    cases hi
    rw [Nat.sub_add_cancel hk]
    exact hname

end

/-- Where there are one to four digits behind the path prefix, they do not begin with a zero, and
their value is not above the number of volumes. -/
def DigitsNameVolume (fileSystem : MountFileSystem) (p s : List UInt8) : Prop :=
  ∀ d, IsNumberedPath p s d → d.head? ≠ some 0x30 ∧ value d ≤ fileSystem.volumes.length

/-- Such digits are the numeral of a volume number. -/
theorem IsNumberedPath.numeral_iff {p s d : List UInt8} (hd : IsNumberedPath p s d) (n : ℕ) :
    (∃ k, 1 ≤ k ∧ k ≤ n ∧ d = numeral k) ↔ d.head? ≠ some 0x30 ∧ value d ≤ n := by
  obtain ⟨-, hdigits, hone, -⟩ := hd
  constructor
  · rintro ⟨k, -, hn, rfl⟩
    exact ⟨head?_numeral k, by rwa [value_numeral]⟩
  · rintro ⟨hhead, hn⟩
    have hvalue := numeral_value hdigits hhead
    refine ⟨value d, ?_, hn, hvalue.symm⟩
    -- the numeral of zero has no digits
    by_contra hzero
    rw [show value d = 0 by omega, numeral_zero] at hvalue
    rw [← hvalue] at hone
    cases hone

/-- The lookup accepts exactly its names where the length that is given is one that the lookup
accepts, and the string has behind the path prefix no digits that do not name a volume.
No two strings at which it does find the same volume. -/
theorem lookupExact_iff {fileSystem : MountFileSystem} {p : List UInt8}
    (hp : fileSystem.HasPathPrefix p) (hvolumes : fileSystem.volumes.length ≤ 9999)
    {s : List UInt8} (hs : (0 : UInt8) ∉ s) (behind : List UInt8) (pathLength : ℕ) :
    (LookupExact fileSystem p s behind pathLength ↔
      pathLength ≤ ssizeMax - 1 ∧ DigitsNameVolume fileSystem p s) ∧
    ∀ (s' behind' : List UInt8) (pathLength' i : ℕ),
      LookupExact fileSystem p s behind pathLength →
      LookupExact fileSystem p s' behind' pathLength' →
      mountFileSystemGetVolumeByPath fileSystem (s ++ 0 :: behind) pathLength = ⟨1, some i⟩ →
      mountFileSystemGetVolumeByPath fileSystem (s' ++ 0 :: behind') pathLength' = ⟨1, some i⟩ →
      s = s' := by
  refine ⟨⟨fun h => ?_, ?_⟩, ?_⟩
  · have hlength : pathLength ≤ ssizeMax - 1 := by
      by_contra hlarge
      apply h.result_ne_error
      rw [getVolumeByPath_large hp _ (Nat.lt_of_not_le hlarge)]
    refine ⟨hlength, fun d hd => (hd.numeral_iff _).1 ?_⟩
    by_contra hnot
    push Not at hnot
    -- the lookup finds a volume or fails, but should find that there is none
    have hzero := h.other hd.not_isRootPath fun k hk hn hname =>
      hnot k hk hn (List.append_cancel_left (hd.1.symm.trans hname))
    rw [getVolumeByPath_numbered hp hs behind hlength hd] at hzero
    split at hzero <;> cases hzero
  · rintro ⟨hlength, hdigits⟩
    constructor
    · intro hroot
      exact getVolumeByPath_root hp hs behind hlength hroot
    · rintro k hk hn rfl
      rw [getVolumeByPath_numbered hp hs behind hlength
        (isNumberedPath_numeral p hk (hn.trans hvolumes)), value_numeral, if_pos ⟨hk, hn⟩]
    · intro hroot hname
      have hother : ∀ d, ¬ IsNumberedPath p s d := by
        rintro d hd
        obtain ⟨k, hk, hn, rfl⟩ := (hd.numeral_iff _).2 (hdigits d hd)
        exact hname k hk hn hd.1
      rw [getVolumeByPath_other hp hs behind hlength hroot hother]
  · rintro s' behind' pathLength' i h h' hi hi'
    rw [h.eq_of_volumeIndex hi, h'.eq_of_volumeIndex hi']

theorem lookupExact_iff_luksde :
    LookupExact luksdeFileSystem luksdePathPrefix (luksdePathPrefix ++ [0x31]) [] 8 ∧
      ¬ LookupExact luksdeFileSystem luksdePathPrefix (luksdePathPrefix ++ [0x30, 0x31]) [] 9 := by
  constructor
  · refine (lookupExact_iff luksdeFileSystem_hasPathPrefix (by decide) (by decide) [] 8).1.2
      ⟨by decide, fun d hd => ?_⟩
    obtain rfl := List.append_cancel_left hd.1
    decide
  · intro h
    obtain ⟨-, hdigits⟩ :=
      (lookupExact_iff luksdeFileSystem_hasPathPrefix (by decide) (by decide) [] 9).1.1 h
    have hnumbered : IsNumberedPath luksdePathPrefix (luksdePathPrefix ++ [0x30, 0x31]) [0x30, 0x31] :=
      ⟨rfl, by simp [IsDigit], by decide, by decide⟩
    exact (hdigits [0x30, 0x31] hnumbered).1 rfl

/-- The number zero is an error, and a zero before the number of a volume finds that volume. -/
theorem lookup_zero_not_exact :
    ¬ LookupExact luksdeFileSystem luksdePathPrefix (luksdePathPrefix ++ [0x30]) [] 8 ∧
      mountFileSystemGetVolumeByPath luksdeFileSystem (luksdePathPrefix ++ [0x30, 0]) 8 =
        ⟨-1, none⟩ ∧
      mountFileSystemGetVolumeByPath luksdeFileSystem (luksdePathPrefix ++ [0x30, 0x31, 0]) 9 =
        ⟨1, some 0⟩ ∧
      mountFileSystemGetVolumeByPath luksdeFileSystem (luksdePathPrefix ++ [0x31, 0]) 8 =
        ⟨1, some 0⟩ := by
  have herror : mountFileSystemGetVolumeByPath luksdeFileSystem (luksdePathPrefix ++ [0x30, 0]) 8 =
      ⟨-1, none⟩ := by decide
  refine ⟨fun h => ?_, herror, by decide, by decide⟩
  have hzero := h.other (by rintro ⟨c, -, hc⟩; cases hc) (fun k _ _ hname => ?_)
  · rw [List.append_assoc] at hzero
    exact absurd ((congrArg Lookup.result herror).symm.trans hzero) (by decide)
  · have hk := List.append_cancel_left hname
    exact head?_numeral k (by rw [← hk]; rfl)

end Libluksde
