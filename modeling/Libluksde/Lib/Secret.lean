import Mathlib.Order.Interval.Set.Basic

/-!
# Secrets in a buffer

A buffer is filled with a secret, used, and wiped, each time from its first place on.  What is
left of the secrets after a sequence of such accesses is a set of places: a fill adds places, and
a wipe removes places.
-/

namespace Lib.Secret

/-- An access to the first `size` places of a buffer. -/
inductive Access
  | fill (size : ℕ)
  | use (size : ℕ)
  | wipe (size : ℕ)
deriving DecidableEq, Repr

/-- The number of places that an access needs. -/
def Access.size : Access → ℕ
  | fill size | use size | wipe size => size

/-- The places with a secret after an access. -/
def Access.after : Access → Set ℕ → Set ℕ
  | fill size, places => places ∪ Set.Iio size
  | use _, places => places
  | wipe size, places => places \ Set.Iio size

/-- The places with a secret after a sequence of accesses. -/
def residue (places : Set ℕ) (accesses : List Access) : Set ℕ :=
  accesses.foldl (fun places access => access.after places) places

@[simp] theorem residue_nil (places : Set ℕ) : residue places [] = places := rfl

@[simp] theorem residue_cons (places : Set ℕ) (access : Access) (accesses : List Access) :
    residue places (access :: accesses) = residue (access.after places) accesses := rfl

theorem residue_append (places : Set ℕ) (accesses accesses' : List Access) :
    residue places (accesses ++ accesses') = residue (residue places accesses) accesses' :=
  List.foldl_append

/-- Secrets stay within the places that the accesses need. -/
theorem residue_subset {n : ℕ} {places : Set ℕ} {accesses : List Access}
    (hplaces : places ⊆ Set.Iio n) (h : ∀ access ∈ accesses, access.size ≤ n) :
    residue places accesses ⊆ Set.Iio n := by
  induction accesses generalizing places with
  | nil => exact hplaces
  | cons access accesses ih =>
    rw [List.forall_mem_cons] at h
    refine ih ?_ h.2
    cases access with
    | fill size => exact Set.union_subset hplaces (Set.Iio_subset_Iio h.1)
    | use size => exact hplaces
    | wipe size => exact Set.sdiff_subset.trans hplaces

/-- A last wipe of all places that the accesses need leaves nothing. -/
theorem residue_append_wipe {n : ℕ} (accesses : List Access)
    (h : ∀ access ∈ accesses, access.size ≤ n) : residue ∅ (accesses ++ [.wipe n]) = ∅ := by
  rw [residue_append]
  exact Set.sdiff_eq_empty.mpr (residue_subset (Set.empty_subset _) h)

/-- Accesses that are complete in themselves, one behind the other. -/
theorem residue_append_of_empty {accesses accesses' : List Access}
    (h : residue ∅ accesses = ∅) : residue ∅ (accesses ++ accesses') = residue ∅ accesses' := by
  rw [residue_append, h]

/-- A buffer of `n` places contains the secrets: no access leaves the buffer, and nothing is left
of the secrets. -/
def Contained (n : ℕ) (accesses : List Access) : Prop :=
  (∀ access ∈ accesses, access.size ≤ n) ∧ residue ∅ accesses = ∅

theorem contained_nil (n : ℕ) : Contained n [] := ⟨by simp, rfl⟩

theorem Contained.append {n : ℕ} {accesses accesses' : List Access} (h : Contained n accesses)
    (h' : Contained n accesses') : Contained n (accesses ++ accesses') := by
  constructor
  · intro access hmem
    rcases List.mem_append.mp hmem with hleft | hright
    · exact h.1 access hleft
    · exact h'.1 access hright
  · rw [residue_append_of_empty h.2, h'.2]

/-- A last wipe makes up for accesses that are not complete in themselves. -/
theorem contained_append_wipe {n : ℕ} (accesses : List Access)
    (h : ∀ access ∈ accesses, access.size ≤ n) : Contained n (accesses ++ [.wipe n]) := by
  constructor
  · intro access hmem
    rcases List.mem_append.mp hmem with hleft | hright
    · exact h access hleft
    · rw [List.mem_singleton.mp hright, Access.size]
  · exact residue_append_wipe accesses h

end Lib.Secret
