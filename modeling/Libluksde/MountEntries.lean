import Libluksde.MountPaths
import Libluksde.Lib.Reading

/-!
# The file entry of a path

`mount_handle_get_file_entry_by_path` leaves a trailing separator out of the length of the path and
looks for the separator before the last component.  The lookup determines the length again, with the
trailing separator, so that it finds no volume then; and the scan begins at the separator that was
left out, so that the length of the name is that of a name of `-1` characters.

The function is a computation on the memory that `path` points to.
-/

namespace Libluksde

open Lib (Reading)
open Lib.Reading (cell window InBounds)
open Lib.Decimal

/-- What is used of `libcpath`: `LIBCPATH_SEPARATOR`, which is neither the NUL nor a digit. -/
structure Libcpath where
  separator : UInt8
  separator_ne_zero : separator ≠ 0
  not_isDigit_separator : ¬ IsDigit separator

/-- `mount_file_entry_t`.  The name is the buffer with its NUL; the volume is given by its index in
the array, or `none` for `NULL`. -/
structure MountFileEntry where
  fileSystem : MountFileSystem
  name : List UInt8
  nameSize : ℕ
  volumeIndex : Option ℕ
deriving DecidableEq

/-! ## The functions -/

/-- `system_string_length` from an index on, in a memory with so many characters left. -/
def systemStringLengthFrom : (left stringIndex : ℕ) → Reading UInt8 ℕ
  | 0, stringIndex => pure stringIndex
  | left + 1, stringIndex => do
    let character ← cell stringIndex
    if character = 0 then pure stringIndex else systemStringLengthFrom left (stringIndex + 1)

/-- The test of `mount_file_system_get_volume_by_path` for the root. -/
def isRootReading (pathPrefix : List UInt8) (pathLength : ℕ) : Reading UInt8 Bool :=
  if pathLength = 1 then do
    let character ← cell 0
    pure (decide (character = pathPrefix.getD 0 0))
  else pure false

/-- The loop of `mount_file_system_get_volume_by_path` that reads the volume number. -/
def readVolumeNumberReading : (left pathIndex volumeNumber : ℕ) → Reading UInt8 (Option ℕ)
  | 0, _, volumeNumber => pure (some volumeNumber)
  | left + 1, pathIndex, volumeNumber => do
    let character ← cell pathIndex
    if character < 0x30 ∨ character > 0x39 then pure none
    else
      readVolumeNumberReading left (pathIndex + 1)
        (volumeNumber * 10 + (character - 0x30).toNat)

/-- The part of `mount_file_system_get_volume_by_path` from the comparison with the path prefix
on. -/
def numberedVolumeReading (fileSystem : MountFileSystem) (pathPrefix : List UInt8)
    (pathLength : ℕ) : Reading UInt8 Lookup := do
  let start ← window 0 (fileSystem.pathPrefixSize - 1)
  if start ≠ pathPrefix.take (fileSystem.pathPrefixSize - 1) then pure ⟨0, none⟩
  else do
    let pathIndex := fileSystem.pathPrefixSize - 1
    let volumeNumber ← readVolumeNumberReading (pathLength - pathIndex) pathIndex 0
    pure <|
      match volumeNumber with
      | none => ⟨0, none⟩
      | some volumeNumber =>
        match libcdataArrayGetEntryByIndex fileSystem.volumes (volumeNumber - 1) with
        | none => ⟨-1, none⟩
        | some volumeIndex => ⟨1, some volumeIndex⟩

/-- `mount_file_system_get_volume_by_path` once more, as a computation that says which bytes of the
path it reads; on a string it comes to `mountFileSystemGetVolumeByPath`. -/
def getVolumeByPathReading (memorySize : ℕ) (fileSystem : MountFileSystem) (pathLength : ℕ) :
    Reading UInt8 Lookup :=
  match fileSystem.pathPrefix with
  | none => pure ⟨-1, none⟩
  | some pathPrefix =>
    if pathLength > ssizeMax - 1 then pure ⟨-1, none⟩
    else do
      let pathLength ← systemStringLengthFrom memorySize 0
      let isRoot ← isRootReading pathPrefix pathLength
      if isRoot then pure ⟨1, none⟩
      else if pathLength < fileSystem.pathPrefixSize ∨
          pathLength > fileSystem.pathPrefixSize + 3 then pure ⟨0, none⟩
      else numberedVolumeReading fileSystem pathPrefix pathLength

/-- `mount_file_entry_initialize`, with the name at an index. -/
def mountFileEntryInitialize (allocationFails : Bool) (fileEntry : Option MountFileEntry)
    (fileSystem : MountFileSystem) (nameIndex nameLength : ℕ) (volumeIndex : Option ℕ) :
    Reading UInt8 (Option MountFileEntry × ℤ) :=
  if fileEntry ≠ none then pure (fileEntry, -1)
  else if nameLength > ssizeMax - 1 then pure (none, -1)
  else if allocationFails then pure (none, -1)
  else do
    let name ← window nameIndex nameLength
    pure (some ⟨fileSystem, name ++ [0], nameLength + 1, volumeIndex⟩, 1)

variable (C : Libcpath)

/-- The part of `mount_handle_get_file_entry_by_path` that leaves out a trailing separator. -/
def withoutTrailingSeparator (pathLength : ℕ) : Reading UInt8 ℕ :=
  if pathLength ≥ 2 then do
    let character ← cell (pathLength - 1)
    pure (if character = C.separator then pathLength - 1 else pathLength)
  else pure pathLength

/-- The loop of `mount_handle_get_file_entry_by_path` that looks for a separator from an index
down. -/
def lastSeparatorFrom : (pathIndex : ℕ) → Reading UInt8 ℕ
  | 0 => pure 0
  | pathIndex + 1 => do
    let character ← cell (pathIndex + 1)
    if character = C.separator then pure (pathIndex + 1) else lastSeparatorFrom pathIndex

/-- The part of `mount_handle_get_file_entry_by_path` before the lookup: the path length without a
trailing separator and the index of the last separator, or `none` for a path of no characters. -/
def pathBounds (memorySize : ℕ) : Reading UInt8 (Option (ℕ × ℕ)) := do
  let pathLength ← systemStringLengthFrom memorySize 0
  if pathLength = 0 then pure none
  else do
    let pathLength ← withoutTrailingSeparator C pathLength
    let pathIndex ← lastSeparatorFrom C pathLength
    pure (some (pathLength, pathIndex))

/-- The length of the name, of the type `size_t`. -/
def filenameLength (pathLength pathIndex : ℕ) : ℕ :=
  if pathLength = 0 then 0 else size64 ((pathLength : ℤ) - (pathIndex + 1))

/-- `mount_handle_get_file_entry_by_path`, on the file system of the handle: the file entry and the
return value. -/
def mountHandleGetFileEntryByPath (memorySize : ℕ) (allocationFails : Bool)
    (fileSystem : MountFileSystem) (fileEntry : Option MountFileEntry) :
    Reading UInt8 (Option MountFileEntry × ℤ) := do
  let bounds ← pathBounds C memorySize
  match bounds with
  | none => pure (fileEntry, -1)
  | some (pathLength, pathIndex) => do
    let lookup ← getVolumeByPathReading memorySize fileSystem pathLength
    if lookup.result = -1 then pure (fileEntry, -1)
    else if lookup.result ≠ 0 then do
      let (fileEntry, result) ← mountFileEntryInitialize allocationFails fileEntry fileSystem
        (pathIndex + 1) (filenameLength pathLength pathIndex) lookup.volumeIndex
      pure (fileEntry, if result ≠ 1 then -1 else lookup.result)
    else pure (fileEntry, lookup.result)

/-! ## Strings in a memory -/

/-- A memory holds a string with its NUL. -/
structure HoldsString (memory : ℕ → UInt8) (s : List UInt8) : Prop where
  character : ∀ {i : ℕ} (hi : i < s.length), memory i = s[i]
  nul : memory s.length = 0
  zero_not_mem : (0 : UInt8) ∉ s

/-- A memory that begins with the string and a NUL. -/
theorem holdsString_getD {s : List UInt8} (hs : (0 : UInt8) ∉ s) (behind : List UInt8) :
    HoldsString (fun i => (s ++ 0 :: behind).getD i 0) s where
  character := by
    rintro i hi
    rw [List.getD_append _ _ _ _ hi, ← List.getElem_eq_getD]
  nul := by
    rw [List.getD_append_right _ _ _ _ le_rfl, Nat.sub_self, List.getD_cons_zero]
  zero_not_mem := hs

section

variable {memory : ℕ → UInt8} {s : List UInt8} (hs : HoldsString memory s)

include hs

theorem HoldsString.ne_zero {i : ℕ} (hi : i < s.length) : memory i ≠ 0 := by
  rw [hs.character hi]
  rintro hzero
  exact hs.zero_not_mem (hzero ▸ List.getElem_mem hi)

/-- A part of the string. -/
theorem HoldsString.map_range' {i n : ℕ} (hin : i + n ≤ s.length) :
    (List.range' i n).map memory = (s.drop i).take n := by
  apply List.ext_getElem
  · rw [List.length_map, List.length_range', List.length_take, List.length_drop]
    omega
  · rintro k hk -
    rw [List.length_map, List.length_range'] at hk
    rw [List.getElem_map, List.getElem_range', List.getElem_take, List.getElem_drop,
      hs.character (by omega)]
    simp

/-- The length is found at the NUL, and nothing behind it is read. -/
theorem HoldsString.systemStringLengthFrom {left i : ℕ} (hi : i ≤ s.length)
    (hleft : s.length - i < left) :
    (systemStringLengthFrom left i).run memory = s.length ∧
      InBounds memory (s.length + 1) (systemStringLengthFrom left i) := by
  induction left generalizing i with
  | zero => omega
  | succ left ih =>
    rw [Libluksde.systemStringLengthFrom, Reading.run_bind, Reading.inBounds_bind,
      Reading.run_cell, Reading.inBounds_cell]
    rcases Nat.lt_or_eq_of_le hi with hlt | rfl
    · rw [if_neg (hs.ne_zero hlt)]
      have hrest := ih (show i + 1 ≤ s.length by omega) (by omega)
      exact ⟨hrest.1, by omega, hrest.2⟩
    · rw [if_pos hs.nul]
      exact ⟨rfl, by omega, Reading.inBounds_pure _⟩

/-! ## The lookup -/

/-- The number is read from the rest of the string. -/
theorem HoldsString.readVolumeNumberReading {left i : ℕ} (hi : i + left = s.length)
    (volumeNumber : ℕ) :
    (readVolumeNumberReading left i volumeNumber).run memory =
        readVolumeNumber (s.drop i) volumeNumber ∧
      InBounds memory (s.length + 1) (readVolumeNumberReading left i volumeNumber) := by
  induction left generalizing i volumeNumber with
  | zero =>
    rw [List.drop_eq_nil_of_le (by omega)]
    exact ⟨rfl, Reading.inBounds_pure _⟩
  | succ left ih =>
    have hlt : i < s.length := by omega
    rw [Libluksde.readVolumeNumberReading, Reading.run_bind, Reading.inBounds_bind,
      Reading.run_cell, Reading.inBounds_cell, List.drop_eq_getElem_cons hlt, readVolumeNumber,
      hs.character hlt]
    split
    · exact ⟨rfl, by omega, Reading.inBounds_pure _⟩
    · have hrest := ih (show i + 1 + left = s.length by omega)
        (volumeNumber * 10 + (s[i] - 0x30).toNat)
      exact ⟨hrest.1, by omega, hrest.2⟩

theorem HoldsString.isRootReading (pathPrefix : List UInt8) :
    ((isRootReading pathPrefix s.length).run memory = true ↔
        s.length = 1 ∧ (s ++ [0]).getD 0 0 = pathPrefix.getD 0 0) ∧
      InBounds memory (s.length + 1) (isRootReading pathPrefix s.length) := by
  rw [Libluksde.isRootReading]
  split
  · rename_i hone
    obtain ⟨c, rfl⟩ := List.length_eq_one_iff.1 hone
    have hfirst : memory 0 = c := hs.character (show 0 < 1 by omega)
    rw [Reading.run_bind, Reading.inBounds_bind, Reading.run_cell, Reading.inBounds_cell, hfirst]
    simp
  · rename_i hone
    refine ⟨?_, Reading.inBounds_pure _⟩
    simp [hone]

theorem HoldsString.numberedVolumeReading {fileSystem : MountFileSystem}
    {pathPrefix : List UInt8} (hp : fileSystem.HasPathPrefix pathPrefix)
    (hle : pathPrefix.length ≤ s.length) :
    (numberedVolumeReading fileSystem (pathPrefix ++ [0]) s.length).run memory =
        (if ¬ SystemStringsAgree (s ++ [0]) (pathPrefix ++ [0]) pathPrefix.length then ⟨0, none⟩
        else
          match readVolumeNumber (s.drop pathPrefix.length) 0 with
          | none => ⟨0, none⟩
          | some volumeNumber =>
            match libcdataArrayGetEntryByIndex fileSystem.volumes (volumeNumber - 1) with
            | none => ⟨-1, none⟩
            | some volumeIndex => ⟨1, some volumeIndex⟩) ∧
      InBounds memory (s.length + 1)
        (numberedVolumeReading fileSystem (pathPrefix ++ [0]) s.length) := by
  have hstart := hs.map_range' (show 0 + pathPrefix.length ≤ s.length by omega)
  have hstartBounds : InBounds memory (s.length + 1) (window 0 pathPrefix.length) :=
    (Reading.within_window le_rfl le_rfl).inBounds (by omega)
  have hnumber := hs.readVolumeNumberReading
    (show pathPrefix.length + (s.length - pathPrefix.length) = s.length by omega) 0
  have hiff : SystemStringsAgree (s ++ [0]) (pathPrefix ++ [0]) pathPrefix.length ↔
      s.take pathPrefix.length = (pathPrefix ++ [0]).take pathPrefix.length := by
    rw [SystemStringsAgree, List.take_append_of_le_length hle]
  rw [Libluksde.numberedVolumeReading, hp.pathPrefixSize, Nat.add_sub_cancel, Reading.run_bind,
    Reading.inBounds_bind, Reading.run_window, hstart, List.drop_zero]
  by_cases hagree : s.take pathPrefix.length = (pathPrefix ++ [0]).take pathPrefix.length
  · rw [if_neg (not_not.2 hagree), if_neg (not_not.2 (hiff.2 hagree)), Reading.run_bind,
      Reading.inBounds_bind, hnumber.1]
    exact ⟨rfl, hstartBounds, hnumber.2, Reading.inBounds_pure _⟩
  · rw [if_pos hagree, if_pos (mt hiff.1 hagree)]
    exact ⟨rfl, hstartBounds, Reading.inBounds_pure _⟩

/-- The lookup on the memory is that of the string. -/
theorem HoldsString.getVolumeByPathReading {memorySize : ℕ} (hsize : s.length < memorySize)
    {fileSystem : MountFileSystem} {pathPrefix : List UInt8}
    (hp : fileSystem.HasPathPrefix pathPrefix) (pathLength : ℕ) :
    (getVolumeByPathReading memorySize fileSystem pathLength).run memory =
        mountFileSystemGetVolumeByPath fileSystem (s ++ [0]) pathLength ∧
      InBounds memory (s.length + 1) (getVolumeByPathReading memorySize fileSystem pathLength) := by
  rw [Libluksde.getVolumeByPathReading, hp.pathPrefix]
  dsimp only
  rcases Nat.lt_or_ge (ssizeMax - 1) pathLength with hlarge | hlength
  · rw [if_pos hlarge, getVolumeByPath_large hp _ hlarge]
    exact ⟨rfl, Reading.inBounds_pure _⟩
  · have hstring := hs.systemStringLengthFrom (Nat.zero_le _) hsize
    have hroot := hs.isRootReading (pathPrefix ++ [0])
    rw [if_neg (Nat.not_lt.2 hlength),
      mountFileSystemGetVolumeByPath_eq hp hs.zero_not_mem [] hlength, hp.pathPrefixSize,
      Reading.run_bind, Reading.inBounds_bind, hstring.1, Reading.run_bind,
      Reading.inBounds_bind]
    by_cases hisRoot : s.length = 1 ∧ (s ++ [0]).getD 0 0 = (pathPrefix ++ [0]).getD 0 0
    · rw [hroot.1.2 hisRoot, if_pos rfl, if_pos hisRoot]
      exact ⟨rfl, hstring.2, hroot.2, Reading.inBounds_pure _⟩
    · rw [Bool.eq_false_iff.2 (mt hroot.1.1 hisRoot), if_neg (by decide), if_neg hisRoot]
      by_cases hwindow : s.length < pathPrefix.length + 1 ∨ s.length > pathPrefix.length + 1 + 3
      · rw [if_pos hwindow, if_pos hwindow]
        exact ⟨rfl, hstring.2, hroot.2, Reading.inBounds_pure _⟩
      · have hnumbered := hs.numberedVolumeReading hp (by omega)
        rw [if_neg hwindow, if_neg hwindow]
        exact ⟨hnumbered.1, hstring.2, hroot.2, hnumbered.2⟩

/-! ## The last component -/

/-- The scan ends at the last separator before or at an index, or at the beginning. -/
structure IsLastSeparator (C : Libcpath) (memory : ℕ → UInt8) (last i : ℕ) : Prop where
  le : i ≤ last
  separator : i ≠ 0 → memory i = C.separator
  behind : ∀ j, i < j → j ≤ last → memory j ≠ C.separator

variable (C : Libcpath)

omit hs in
theorem isLastSeparator_lastSeparatorFrom (memory : ℕ → UInt8) (last : ℕ) :
    IsLastSeparator C memory last ((lastSeparatorFrom C last).run memory) ∧
      InBounds memory (last + 1) (lastSeparatorFrom C last) := by
  induction last with
  | zero =>
    refine ⟨⟨le_rfl, fun hne => absurd rfl hne, ?_⟩, Reading.inBounds_pure _⟩
    rintro j hlt hle
    change 0 < j at hlt
    omega
  | succ last ih =>
    rw [lastSeparatorFrom, Reading.run_bind, Reading.inBounds_bind, Reading.run_cell,
      Reading.inBounds_cell]
    split
    · rename_i hseparator
      refine ⟨⟨le_rfl, fun _ => hseparator, ?_⟩, by omega, Reading.inBounds_pure _⟩
      rintro j hlt hle
      change last + 1 < j at hlt
      omega
    · rename_i hseparator
      refine ⟨⟨ih.1.le.trans (Nat.le_succ last), ih.1.separator, ?_⟩, by omega, ?_⟩
      · rintro j hlt hle
        rcases Nat.lt_or_eq_of_le hle with hbefore | rfl
        · exact ih.1.behind j hlt (by omega)
        · exact hseparator
      · intro j hj
        exact (ih.2 j hj).trans (by omega)

/-- A separator at the end of a string of at least two characters. -/
def HasTrailingSeparator (s : List UInt8) : Prop :=
  2 ≤ s.length ∧ s.getLast? = some C.separator

instance (s : List UInt8) : Decidable (HasTrailingSeparator C s) :=
  inferInstanceAs (Decidable (_ ∧ _))

/-- The length of a string without a trailing separator. -/
def lengthWithoutSeparator (s : List UInt8) : ℕ :=
  if HasTrailingSeparator C s then s.length - 1 else s.length

theorem HoldsString.withoutTrailingSeparator :
    (withoutTrailingSeparator C s.length).run memory = lengthWithoutSeparator C s ∧
      InBounds memory (s.length + 1) (withoutTrailingSeparator C s.length) := by
  rw [Libluksde.withoutTrailingSeparator, lengthWithoutSeparator]
  by_cases htwo : s.length ≥ 2
  · have hlast : s.getLast? = some (memory (s.length - 1)) := by
      rw [List.getLast?_eq_getElem?, hs.character (show s.length - 1 < s.length by omega),
        List.getElem?_eq_getElem]
    have hiff : HasTrailingSeparator C s ↔ memory (s.length - 1) = C.separator := by
      rw [HasTrailingSeparator, hlast, Option.some.injEq]
      exact and_iff_right htwo
    rw [if_pos htwo, Reading.run_bind, Reading.inBounds_bind, Reading.run_cell,
      Reading.inBounds_cell, Reading.run_pure]
    refine ⟨?_, by omega, Reading.inBounds_pure _⟩
    by_cases hseparator : memory (s.length - 1) = C.separator
    · rw [if_pos hseparator, if_pos (hiff.2 hseparator)]
    · rw [if_neg hseparator, if_neg (mt hiff.1 hseparator)]
  · rw [if_neg htwo, if_neg (fun htrailing => htwo htrailing.1)]
    exact ⟨rfl, Reading.inBounds_pure _⟩

omit hs in
theorem lengthWithoutSeparator_le (s : List UInt8) :
    lengthWithoutSeparator C s ≤ s.length ∧ (s ≠ [] → 1 ≤ lengthWithoutSeparator C s) := by
  rw [lengthWithoutSeparator]
  split
  · rename_i htrailing
    have htwo := htrailing.1
    exact ⟨by omega, fun _ => by omega⟩
  · exact ⟨le_rfl, fun hne => List.length_pos_of_ne_nil hne⟩

/-- The part before the lookup, of a string that has characters. -/
theorem HoldsString.pathBounds {memorySize : ℕ} (hsize : s.length < memorySize) (hne : s ≠ []) :
    ∃ pathIndex, IsLastSeparator C memory (lengthWithoutSeparator C s) pathIndex ∧
      (pathBounds C memorySize).run memory = some (lengthWithoutSeparator C s, pathIndex) := by
  have hlength : s.length ≠ 0 := by
    intro hzero
    exact hne (List.eq_nil_of_length_eq_zero hzero)
  refine ⟨_, (isLastSeparator_lastSeparatorFrom C memory _).1, ?_⟩
  rw [Libluksde.pathBounds, Reading.run_bind,
    (hs.systemStringLengthFrom (Nat.zero_le _) hsize).1, if_neg hlength, Reading.run_bind,
    (hs.withoutTrailingSeparator C).1, Reading.run_bind, Reading.run_pure]

theorem HoldsString.pathBounds_nil {memorySize : ℕ} (hsize : s.length < memorySize) (hne : s = []) :
    (Libluksde.pathBounds C memorySize).run memory = none := by
  have hlength : s.length = 0 := by rw [hne, List.length_nil]
  rw [Libluksde.pathBounds, Reading.run_bind,
    (hs.systemStringLengthFrom (Nat.zero_le _) hsize).1, if_pos hlength, Reading.run_pure]

/-- Nothing behind the NUL is read before the lookup. -/
theorem HoldsString.inBounds_pathBounds {memorySize : ℕ} (hsize : s.length < memorySize) :
    InBounds memory (s.length + 1) (Libluksde.pathBounds C memorySize) := by
  have hstring := hs.systemStringLengthFrom (Nat.zero_le _) hsize
  rw [Libluksde.pathBounds, Reading.inBounds_bind, hstring.1]
  refine ⟨hstring.2, ?_⟩
  split
  · exact Reading.inBounds_pure _
  · have hlength := hs.withoutTrailingSeparator C
    rw [Reading.inBounds_bind, Reading.inBounds_bind, hlength.1]
    refine ⟨hlength.2, ?_, Reading.inBounds_pure _⟩
    intro i hi
    have hlast := (isLastSeparator_lastSeparatorFrom C memory _).2 i hi
    have hle := (lengthWithoutSeparator_le C s).1
    omega

/-- The name has no length below zero exactly where the path has no trailing separator: there the
scan ends at the separator itself. -/
theorem HoldsString.pathIndex_lt_iff (hne : s ≠ []) {pathIndex : ℕ}
    (hindex : IsLastSeparator C memory (lengthWithoutSeparator C s) pathIndex) :
    pathIndex + 1 ≤ lengthWithoutSeparator C s ↔ ¬ HasTrailingSeparator C s := by
  by_cases htrailing : HasTrailingSeparator C s
  · have hlength : lengthWithoutSeparator C s = s.length - 1 := if_pos htrailing
    have hseparator : memory (s.length - 1) = C.separator := by
      have htwo := htrailing.1
      have hlast := htrailing.2
      rw [List.getLast?_eq_getElem?, List.getElem?_eq_getElem (by omega),
        Option.some.injEq] at hlast
      rw [hs.character (by omega), hlast]
    constructor
    · -- the scan begins at the separator that was left out, and ends there
      intro hlt
      rw [hlength] at hlt hindex
      exact absurd hseparator (hindex.behind _ (by omega) le_rfl)
    · intro hnot
      exact absurd htrailing hnot
  · have hlength : lengthWithoutSeparator C s = s.length := if_neg htrailing
    rw [hlength] at hindex ⊢
    constructor
    · rintro -
      exact htrailing
    · rintro -
      -- the scan begins at the NUL, which is no separator
      rcases Nat.lt_or_eq_of_le hindex.le with hlt | heq
      · exact hlt
      · have hpos := List.length_pos_of_ne_nil hne
        have hseparator := hindex.separator (by omega)
        rw [heq, hs.nul] at hseparator
        exact absurd hseparator.symm C.separator_ne_zero

/-! ## The file entry -/

omit hs in
/-- A length that underflows is too large for a name; every other name ends before the path. -/
theorem filenameLength_le {pathLength pathIndex : ℕ} (hindex : pathIndex ≤ pathLength)
    (hpos : 1 ≤ pathLength) (hlength : filenameLength pathLength pathIndex ≤ ssizeMax - 1) :
    pathIndex + 1 + filenameLength pathLength pathIndex ≤ pathLength := by
  have hmax : ssizeMax = 2 ^ 63 - 1 := rfl
  rw [filenameLength, if_neg (by omega), size64] at hlength ⊢
  omega

omit hs in
theorem inBounds_mountFileEntryInitialize {allocationFails : Bool}
    {fileEntry : Option MountFileEntry} {fileSystem : MountFileSystem} {nameIndex nameLength : ℕ}
    {volumeIndex : Option ℕ} {size : ℕ}
    (h : nameLength ≤ ssizeMax - 1 → nameIndex + nameLength ≤ size) :
    InBounds memory size (mountFileEntryInitialize allocationFails fileEntry fileSystem nameIndex
      nameLength volumeIndex) := by
  rw [mountFileEntryInitialize]
  split_ifs with hset hlarge hfails
  · exact Reading.inBounds_pure _
  · exact Reading.inBounds_pure _
  · exact Reading.inBounds_pure _
  · rw [Reading.inBounds_bind]
    refine ⟨?_, Reading.inBounds_pure _⟩
    exact (Reading.within_window le_rfl le_rfl).inBounds (h (Nat.not_lt.1 hlarge))

omit hs in
/-- A file entry is made with the name and the volume, or there is an error. -/
theorem run_mountFileEntryInitialize (memory : ℕ → UInt8) (allocationFails : Bool)
    (fileEntry : Option MountFileEntry) (fileSystem : MountFileSystem) (nameIndex nameLength : ℕ)
    (volumeIndex : Option ℕ) :
    (∃ entry, (mountFileEntryInitialize allocationFails fileEntry fileSystem nameIndex nameLength
        volumeIndex).run memory = (entry, -1)) ∨
      (mountFileEntryInitialize allocationFails fileEntry fileSystem nameIndex nameLength
          volumeIndex).run memory =
        (some ⟨fileSystem, (List.range' nameIndex nameLength).map memory ++ [0],
          ((List.range' nameIndex nameLength).map memory).length + 1, volumeIndex⟩, 1) := by
  rw [mountFileEntryInitialize]
  split_ifs
  · exact Or.inl ⟨_, rfl⟩
  · exact Or.inl ⟨_, rfl⟩
  · exact Or.inl ⟨_, rfl⟩
  · rw [Reading.run_bind, Reading.run_window, Reading.run_pure, List.length_map,
      List.length_range']
    exact Or.inr rfl

omit hs in
/-- The lookup has one of three results. -/
theorem getVolumeByPath_result (fileSystem : MountFileSystem) (path : List UInt8)
    (pathLength : ℕ) :
    (mountFileSystemGetVolumeByPath fileSystem path pathLength).result = -1 ∨
      (mountFileSystemGetVolumeByPath fileSystem path pathLength).result = 0 ∨
      (mountFileSystemGetVolumeByPath fileSystem path pathLength).result = 1 := by
  rw [mountFileSystemGetVolumeByPath]
  split
  · exact Or.inl rfl
  · dsimp only
    split_ifs
    · exact Or.inl rfl
    · exact Or.inr (Or.inr rfl)
    · exact Or.inr (Or.inl rfl)
    · split
      · exact Or.inr (Or.inl rfl)
      · split
        · exact Or.inl rfl
        · exact Or.inr (Or.inr rfl)
    · exact Or.inr (Or.inl rfl)

/-- How the file entry and the return value follow from the lookup, with the characters of the
name. -/
inductive EntryAnswer (fileSystem : MountFileSystem) (fileEntry : Option MountFileEntry)
    (lookup : Lookup) (name : List UInt8) : Option MountFileEntry × ℤ → Prop
  | error (h : lookup.result = -1) : EntryAnswer fileSystem fileEntry lookup name (fileEntry, -1)
  | missing (h : lookup.result = 0) : EntryAnswer fileSystem fileEntry lookup name (fileEntry, 0)
  | failed (h : lookup.result = 1) {entry : Option MountFileEntry} :
    EntryAnswer fileSystem fileEntry lookup name (entry, -1)
  | found (h : lookup.result = 1) :
    EntryAnswer fileSystem fileEntry lookup name
      (some ⟨fileSystem, name ++ [0], name.length + 1, lookup.volumeIndex⟩, 1)

section

variable {fileSystem : MountFileSystem} {fileEntry : Option MountFileEntry} {lookup : Lookup}
  {name : List UInt8} {answer : Option MountFileEntry × ℤ}
  (h : EntryAnswer fileSystem fileEntry lookup name answer)

include h
omit hs

theorem EntryAnswer.eq_of_error (herror : lookup.result = -1) : answer = (fileEntry, -1) := by
  cases h with
  | error => rfl
  | missing hzero => exact absurd (herror.symm.trans hzero) (by decide)
  | failed hone => exact absurd (herror.symm.trans hone) (by decide)
  | found hone => exact absurd (herror.symm.trans hone) (by decide)

theorem EntryAnswer.eq_of_missing (hzero : lookup.result = 0) : answer = (fileEntry, 0) := by
  cases h with
  | error herror => exact absurd (hzero.symm.trans herror) (by decide)
  | missing => rfl
  | failed hone => exact absurd (hzero.symm.trans hone) (by decide)
  | found hone => exact absurd (hzero.symm.trans hone) (by decide)

/-- Only a lookup that finds nothing is answered with 0. -/
theorem EntryAnswer.result_eq_zero (hzero : answer.2 = 0) : lookup.result = 0 := by
  cases h with
  | error => cases hzero
  | missing hlookup => exact hlookup
  | failed => cases hzero
  | found => cases hzero

end

variable {memorySize : ℕ} (hsize : s.length < memorySize) {fileSystem : MountFileSystem}
  {pathPrefix : List UInt8} (hp : fileSystem.HasPathPrefix pathPrefix) (allocationFails : Bool)
  (fileEntry : Option MountFileEntry)

include hsize hp

/-- The answer is that of the lookup, unless the file entry of what it finds cannot be made. -/
theorem HoldsString.entryAnswer (hne : s ≠ []) :
    ∃ pathIndex, IsLastSeparator C memory (lengthWithoutSeparator C s) pathIndex ∧
      EntryAnswer fileSystem fileEntry
        (mountFileSystemGetVolumeByPath fileSystem (s ++ [0]) (lengthWithoutSeparator C s))
        ((List.range' (pathIndex + 1)
          (filenameLength (lengthWithoutSeparator C s) pathIndex)).map memory)
        ((mountHandleGetFileEntryByPath C memorySize allocationFails fileSystem
          fileEntry).run memory) := by
  rcases hs.pathBounds C hsize hne with ⟨pathIndex, hindex, hbounds⟩
  refine ⟨pathIndex, hindex, ?_⟩
  have hlookup := hs.getVolumeByPathReading hsize hp (lengthWithoutSeparator C s)
  rw [mountHandleGetFileEntryByPath, Reading.run_bind, hbounds]
  dsimp only
  rw [Reading.run_bind, hlookup.1, Reading.run_ite, Reading.run_ite, Reading.run_bind]
  rcases getVolumeByPath_result fileSystem (s ++ [0]) (lengthWithoutSeparator C s) with
    herror | hzero | hone
  · rw [if_pos herror]
    exact .error herror
  · rw [if_neg (by rw [hzero]; decide), if_neg (not_not.2 hzero), hzero]
    exact .missing hzero
  · rw [if_neg (by rw [hone]; decide), if_pos (by rw [hone]; decide), hone]
    rcases run_mountFileEntryInitialize memory allocationFails fileEntry fileSystem
      (pathIndex + 1) (filenameLength (lengthWithoutSeparator C s) pathIndex)
      (mountFileSystemGetVolumeByPath fileSystem (s ++ [0])
        (lengthWithoutSeparator C s)).volumeIndex with ⟨entry, hfails⟩ | hmade
    · rw [hfails]
      exact .failed hone
    · rw [hmade]
      exact .found hone

/-- No index behind the NUL is read, whatever the path. -/
theorem HoldsString.inBounds_getFileEntryByPath :
    InBounds memory (s.length + 1)
      (mountHandleGetFileEntryByPath C memorySize allocationFails fileSystem fileEntry) := by
  rw [mountHandleGetFileEntryByPath, Reading.inBounds_bind]
  refine ⟨hs.inBounds_pathBounds C hsize, ?_⟩
  by_cases hne : s = []
  · rw [hs.pathBounds_nil C hsize hne]
    exact Reading.inBounds_pure _
  · rcases hs.pathBounds C hsize hne with ⟨pathIndex, hindex, hbounds⟩
    have hlength := lengthWithoutSeparator_le C s
    rw [hbounds]
    dsimp only
    rw [Reading.inBounds_bind]
    refine ⟨(hs.getVolumeByPathReading hsize hp _).2, ?_⟩
    split
    · exact Reading.inBounds_pure _
    · split
      · rw [Reading.inBounds_bind]
        refine ⟨inBounds_mountFileEntryInitialize fun hname => ?_, Reading.inBounds_pure _⟩
        have hend := filenameLength_le hindex.le (hlength.2 hne) hname
        omega
      · exact Reading.inBounds_pure _

omit hsize in
/-- With a trailing separator the lookup finds no volume: the separator is not a digit. -/
theorem HasTrailingSeparator.lookup {C : Libcpath} (htrailing : HasTrailingSeparator C s)
    {pathLength : ℕ} (hlength : pathLength ≤ ssizeMax - 1) :
    mountFileSystemGetVolumeByPath fileSystem (s ++ [0]) pathLength = ⟨0, none⟩ := by
  apply getVolumeByPath_other hp hs.zero_not_mem [] hlength
  · rintro ⟨c, -, rfl⟩
    exact absurd htrailing.1 (by rw [List.length_singleton]; decide)
  · rintro d ⟨rfl, hdigits, hone, -⟩
    have hne : d ≠ [] := List.length_pos_iff.1 hone
    have hlast := htrailing.2
    rw [List.getLast?_append_of_ne_nil _ hne] at hlast
    exact C.not_isDigit_separator (hdigits _ (List.mem_of_getLast? hlast))

/-- The last component of a path: what is behind its last separator. -/
def IsLastComponent (s name : List UInt8) : Prop :=
  ∃ before, s = before ++ C.separator :: name ∧ C.separator ∉ name

/-- The name of a file entry is a string, with its exact length. -/
structure MountFileEntry.HasName (entry : MountFileEntry) (name : List UInt8) : Prop where
  name_eq : entry.name = name ++ [0]
  nameSize_eq : entry.nameSize = name.length + 1

omit hsize hp in
/-- The last component of a path that begins with a separator is behind the index that the scan
finds. -/
theorem IsLastSeparator.isLastComponent {C : Libcpath} {pathIndex : ℕ}
    (hindex : IsLastSeparator C memory s.length pathIndex) (hlt : pathIndex < s.length)
    (hfirst : s.head? = some C.separator) : IsLastComponent C s (s.drop (pathIndex + 1)) := by
  have hseparator : s[pathIndex] = C.separator := by
    rcases Nat.eq_zero_or_pos pathIndex with rfl | hpos
    · rw [List.head?_eq_getElem?, List.getElem?_eq_getElem hlt] at hfirst
      exact Option.some.inj hfirst
    · rw [← hs.character hlt, hindex.separator (by omega)]
  refine ⟨s.take pathIndex, ?_, ?_⟩
  · rw [← hseparator, ← List.drop_eq_getElem_cons hlt, List.take_append_drop]
  · intro hmem
    rcases List.getElem_of_mem hmem with ⟨j, hj, hcharacter⟩
    rw [List.length_drop] at hj
    rw [List.getElem_drop, ← hs.character (by omega)] at hcharacter
    exact hindex.behind _ (by omega) (by omega) hcharacter

/-- Where a path without a trailing separator has a file entry, its name is the last component. -/
theorem HoldsString.hasName_of_result_eq_one {C : Libcpath} (hfirst : s.head? = some C.separator)
    (hlast : ¬ HasTrailingSeparator C s)
    {entry : Option MountFileEntry}
    (hone : (mountHandleGetFileEntryByPath C memorySize allocationFails fileSystem
      fileEntry).run memory = (entry, 1)) :
    ∃ e name, entry = some e ∧ IsLastComponent C s name ∧ e.HasName name := by
  have hne : s ≠ [] := by
    rintro rfl
    cases hfirst
  rcases hs.entryAnswer C hsize hp allocationFails fileEntry hne with ⟨pathIndex, hindex, hanswer⟩
  have hlt := (hs.pathIndex_lt_iff C hne hindex).2 hlast
  have hlength : lengthWithoutSeparator C s = s.length := if_neg hlast
  rw [hlength] at hindex hanswer hlt
  rw [hone] at hanswer
  cases hanswer with
  | found hfound =>
    have hsmall : s.length ≤ ssizeMax - 1 := by
      by_contra hlarge
      rw [getVolumeByPath_large hp _ (Nat.lt_of_not_le hlarge)] at hfound
      cases hfound
    -- the difference is exact for the paths that the lookup accepts
    have hname : filenameLength s.length pathIndex = s.length - (pathIndex + 1) := by
      have hmax : ssizeMax = 2 ^ 63 - 1 := rfl
      rw [filenameLength, if_neg (by omega), size64]
      omega
    refine ⟨_, _, rfl, hindex.isLastComponent hs hlt hfirst, ?_, ?_⟩
    · dsimp only
      rw [hname, hs.map_range' (by omega), List.take_of_length_le (by rw [List.length_drop])]
    · dsimp only
      rw [hname, List.length_map, List.length_range', List.length_drop]

/-! ## Trailing separators -/

omit hs hsize hp

variable {memory' : ℕ → UInt8}

/-- A trailing separator is ignored: the path with it has the answer that the path has, and the
file entry, where there is one, has the last component of the path as its name. -/
structure TrailingSeparatorIgnored (C : Libcpath) (memorySize : ℕ) (allocationFails : Bool)
    (fileSystem : MountFileSystem) (fileEntry : Option MountFileEntry) (s : List UInt8)
    (memory memory' : ℕ → UInt8) : Prop where
  same : (mountHandleGetFileEntryByPath C memorySize allocationFails fileSystem
      fileEntry).run memory' =
    (mountHandleGetFileEntryByPath C memorySize allocationFails fileSystem fileEntry).run memory
  name : ∀ entry, (mountHandleGetFileEntryByPath C memorySize allocationFails fileSystem
      fileEntry).run memory' = (entry, 1) →
    ∃ e name, entry = some e ∧ IsLastComponent C s name ∧ e.HasName name

/-- The length of the name does not underflow. -/
def NameLengthExact (C : Libcpath) (memorySize : ℕ) (memory : ℕ → UInt8) : Prop :=
  ∀ pathLength pathIndex, (pathBounds C memorySize).run memory = some (pathLength, pathIndex) →
    pathIndex + 1 ≤ pathLength

theorem HoldsString.nameLengthExact_iff (hs : HoldsString memory s)
    (hsize : s.length < memorySize) :
    NameLengthExact C memorySize memory ↔ ¬ HasTrailingSeparator C s := by
  by_cases hne : s = []
  · constructor
    · rintro - htrailing
      rw [hne] at htrailing
      cases htrailing.2
    · rintro - pathLength pathIndex hbounds
      rw [hs.pathBounds_nil C hsize hne] at hbounds
      cases hbounds
  · rcases hs.pathBounds C hsize hne with ⟨pathIndex, hindex, hbounds⟩
    rw [← hs.pathIndex_lt_iff C hne hindex]
    constructor
    · intro hexact
      exact hexact _ _ hbounds
    · rintro hlt pathLength pathIndex' hbounds'
      rw [hbounds] at hbounds'
      cases hbounds'
      exact hlt

/-- The answer for a path with a trailing separator is that it does not exist, if it is not too
long. -/
theorem HoldsString.getFileEntryByPath_trailing {C : Libcpath} (hs : HoldsString memory s)
    (hsize : s.length < memorySize) (hp : fileSystem.HasPathPrefix pathPrefix)
    (htrailing : HasTrailingSeparator C s) :
    (mountHandleGetFileEntryByPath C memorySize allocationFails fileSystem fileEntry).run memory =
      (fileEntry, if ssizeMax - 1 < s.length - 1 then -1 else 0) := by
  have hne : s ≠ [] := by
    rintro rfl
    cases htrailing.2
  have hlength : lengthWithoutSeparator C s = s.length - 1 := if_pos htrailing
  rcases hs.entryAnswer C hsize hp allocationFails fileEntry hne with ⟨pathIndex, -, hanswer⟩
  rw [hlength] at hanswer
  by_cases hlarge : ssizeMax - 1 < s.length - 1
  · rw [getVolumeByPath_large hp _ hlarge] at hanswer
    rw [if_pos hlarge]
    exact hanswer.eq_of_error rfl
  · rw [htrailing.lookup hs hp (Nat.not_lt.1 hlarge)] at hanswer
    rw [if_neg hlarge]
    exact hanswer.eq_of_missing rfl

/-- A trailing separator is ignored exactly where the path, without it, is too long or is not that
of a volume: as the one of a volume it finds the volume, or fails. -/
theorem trailingSeparatorIgnored_iff {C : Libcpath} {p : List UInt8}
    (hp : fileSystem.HasPathPrefix pathPrefix) (hs : HoldsString memory p)
    (hs' : HoldsString memory' (p ++ [C.separator])) (hsize : p.length + 1 < memorySize)
    (htwo : 2 ≤ p.length) (hlast : p.getLast? ≠ some C.separator) :
    TrailingSeparatorIgnored C memorySize allocationFails fileSystem fileEntry p memory memory' ↔
      ssizeMax - 1 < p.length ∨ ∀ d, ¬ IsNumberedPath pathPrefix p d := by
  have hne : p ≠ [] := List.length_pos_iff.1 (by omega)
  have hnotTrailing : ¬ HasTrailingSeparator C p := fun h => hlast h.2
  have hlength : lengthWithoutSeparator C p = p.length := if_neg hnotTrailing
  have htrailing : HasTrailingSeparator C (p ++ [C.separator]) :=
    ⟨by rw [List.length_append]; omega, List.getLast?_concat⟩
  have hanswer' := hs'.getFileEntryByPath_trailing allocationFails fileEntry
    (by rw [List.length_append]; exact hsize) hp htrailing
  rw [List.length_append, List.length_singleton, Nat.add_sub_cancel] at hanswer'
  rcases hs.entryAnswer C (Nat.lt_of_succ_lt hsize) hp allocationFails fileEntry hne with
    ⟨pathIndex, -, hanswer⟩
  rw [hlength] at hanswer
  have hname : ∀ entry, (mountHandleGetFileEntryByPath C memorySize allocationFails fileSystem
      fileEntry).run memory' ≠ (entry, 1) := by
    intro entry hone
    rw [hanswer'] at hone
    have hresult := congrArg Prod.snd hone
    dsimp only at hresult
    split at hresult
    · cases hresult
    · cases hresult
  have hroot : ¬ IsRootPath pathPrefix p := by
    rintro ⟨c, -, rfl⟩
    exact absurd htwo (by rw [List.length_singleton]; decide)
  constructor
  · intro hignored
    by_contra hnot
    push Not at hnot
    rcases hnot with ⟨hsmall, d, hd⟩
    -- the digits name a volume, or are an error, while with the separator there is no volume
    have hzero := congrArg Prod.snd hignored.same
    rw [hanswer', if_neg (Nat.not_lt.2 hsmall)] at hzero
    have hlookup := hanswer.result_eq_zero hzero.symm
    rw [getVolumeByPath_numbered hp hs.zero_not_mem [] hsmall hd] at hlookup
    split at hlookup
    · cases hlookup
    · cases hlookup
  · rintro hcondition
    refine ⟨?_, fun entry hone => absurd hone (hname entry)⟩
    rw [hanswer']
    by_cases hlarge : ssizeMax - 1 < p.length
    · rw [getVolumeByPath_large hp _ hlarge] at hanswer
      rw [if_pos hlarge]
      exact (hanswer.eq_of_error rfl).symm
    · have hother := hcondition.resolve_left hlarge
      rw [getVolumeByPath_other hp hs.zero_not_mem [] (Nat.not_lt.1 hlarge) hroot hother] at hanswer
      rw [if_neg hlarge]
      exact (hanswer.eq_of_missing rfl).symm

end

/-- A trailing separator is ignored exactly where the path without it is too long or not that of a
volume; on such a path itself a file entry has the last component as its name.  The length of the
name underflows exactly for the paths with a trailing separator.  No index behind the NUL is
read. -/
theorem fileEntryByPath_iff (C : Libcpath) {fileSystem : MountFileSystem} {pathPrefix : List UInt8}
    (hp : fileSystem.HasPathPrefix pathPrefix) (memorySize : ℕ) (allocationFails : Bool)
    (fileEntry : Option MountFileEntry) :
    (∀ (p : List UInt8) (memory memory' : ℕ → UInt8), HoldsString memory p →
      HoldsString memory' (p ++ [C.separator]) → p.length + 1 < memorySize → 2 ≤ p.length →
      p.head? = some C.separator → p.getLast? ≠ some C.separator →
      (TrailingSeparatorIgnored C memorySize allocationFails fileSystem fileEntry p memory
          memory' ↔
        ssizeMax - 1 < p.length ∨ ∀ d, ¬ IsNumberedPath pathPrefix p d) ∧
      ∀ entry, (mountHandleGetFileEntryByPath C memorySize allocationFails fileSystem
          fileEntry).run memory = (entry, 1) →
        ∃ e name, entry = some e ∧ IsLastComponent C p name ∧ e.HasName name) ∧
    ∀ (s : List UInt8) (memory : ℕ → UInt8), HoldsString memory s → s.length < memorySize →
      (NameLengthExact C memorySize memory ↔ ¬ HasTrailingSeparator C s) ∧
      InBounds memory (s.length + 1)
        (mountHandleGetFileEntryByPath C memorySize allocationFails fileSystem fileEntry) := by
  constructor
  · rintro p memory memory' hs hs' hsize htwo hfirst hlast
    refine ⟨trailingSeparatorIgnored_iff allocationFails fileEntry hp hs hs' hsize htwo hlast, ?_⟩
    rintro entry hone
    exact hs.hasName_of_result_eq_one (Nat.lt_of_succ_lt hsize) hp allocationFails fileEntry hfirst
      (fun htrailing => hlast htrailing.2) hone
  · rintro s memory hs hsize
    exact ⟨hs.nameLengthExact_iff C hsize,
      hs.inBounds_getFileEntryByPath C hsize hp allocationFails fileEntry⟩

theorem slash_ne_zero : (0x2f : UInt8) ≠ 0 := by decide

theorem not_isDigit_slash : ¬ IsDigit 0x2f := by decide

/-- The separator of the systems that are not Windows. -/
def slash : Libcpath := ⟨0x2f, slash_ne_zero, not_isDigit_slash⟩

/-- The memory at the path of the first volume. -/
def firstVolumePath (i : ℕ) : UInt8 := (luksdePathPrefix ++ [0x31, 0]).getD i 0

/-- The memory at the same path with a separator behind it. -/
def firstVolumePathSlash (i : ℕ) : UInt8 := (luksdePathPrefix ++ [0x31, 0x2f, 0]).getD i 0

theorem fileEntryByPath_iff_firstVolume :
    ¬ TrailingSeparatorIgnored slash 16 false luksdeFileSystem none (luksdePathPrefix ++ [0x31])
        firstVolumePath firstVolumePathSlash ∧
      NameLengthExact slash 16 firstVolumePath ∧
      InBounds firstVolumePathSlash 10
        (mountHandleGetFileEntryByPath slash 16 false luksdeFileSystem none) := by
  have hnul : 0 ∉ luksdePathPrefix ++ [0x31] := by decide
  have hnul' : 0 ∉ luksdePathPrefix ++ [0x31] ++ [slash.separator] := by decide
  have hs : HoldsString firstVolumePath (luksdePathPrefix ++ [0x31]) := holdsString_getD hnul []
  have hs' : HoldsString firstVolumePathSlash (luksdePathPrefix ++ [0x31] ++ [slash.separator]) :=
    holdsString_getD hnul' []
  have hnumbered :
      IsNumberedPath luksdePathPrefix (luksdePathPrefix ++ [0x31]) [0x31] :=
    ⟨rfl, by simp [IsDigit], by decide, by decide⟩
  have hall := fileEntryByPath_iff slash luksdeFileSystem_hasPathPrefix 16 false none
  refine ⟨fun hignored => ?_, ?_, ?_⟩
  · rcases (hall.1 _ _ _ hs hs' (by decide) (by decide) (by decide) (by decide)).1.1 hignored with
      hlarge | hother
    · exact absurd hlarge (by decide)
    · exact hother [0x31] hnumbered
  · exact (hall.2 _ _ hs (by decide)).1.2 (by decide)
  · exact (hall.2 _ _ hs' (by decide)).2

/-- The path of the first volume has a file entry of that name; with a separator behind it, it has
none, and the name would have `-1` characters. -/
theorem firstVolumePath_slash :
    ¬ TrailingSeparatorIgnored slash 16 false luksdeFileSystem none (luksdePathPrefix ++ [0x31])
        firstVolumePath firstVolumePathSlash ∧
      (mountHandleGetFileEntryByPath slash 16 false luksdeFileSystem none).run firstVolumePath =
        (some ⟨luksdeFileSystem, [0x6c, 0x75, 0x6b, 0x73, 0x64, 0x65, 0x31, 0], 8, some 0⟩, 1) ∧
      (mountHandleGetFileEntryByPath slash 16 false luksdeFileSystem none).run
        firstVolumePathSlash = (none, 0) ∧
      ¬ NameLengthExact slash 16 firstVolumePathSlash ∧
      (pathBounds slash 16).run firstVolumePathSlash = some (8, 8) ∧
      filenameLength 8 8 = 2 ^ 64 - 1 := by
  have hfound : (mountHandleGetFileEntryByPath slash 16 false luksdeFileSystem none).run
      firstVolumePath =
        (some ⟨luksdeFileSystem, [0x6c, 0x75, 0x6b, 0x73, 0x64, 0x65, 0x31, 0], 8, some 0⟩, 1) := by
    decide
  have hmissing : (mountHandleGetFileEntryByPath slash 16 false luksdeFileSystem none).run
      firstVolumePathSlash = (none, 0) := by decide
  have hbounds : (pathBounds slash 16).run firstVolumePathSlash = some (8, 8) := by decide
  refine ⟨fun hignored => ?_, hfound, hmissing, fun hexact => ?_, hbounds, by decide⟩
  · have hsame := hignored.same
    rw [hfound, hmissing] at hsame
    cases hsame
  · exact absurd (hexact _ _ hbounds) (by decide)

end Libluksde
