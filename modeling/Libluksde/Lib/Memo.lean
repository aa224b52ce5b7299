import Mathlib.Data.List.Basic

/-!
# Stores of computed values

A store keeps values that a partial function `f` has computed before, under the argument
they were computed for.  What makes a store safe to answer from is that every pair in it
is a pair of `f`: then it does not matter which pair is served, when pairs are evicted or
how often the store is bypassed.
-/

namespace Lib.Memo

variable {α β : Type*}

/-- A store that only holds pairs of `f`. -/
def Faithful (f : α → Option β) (store : List (α × β)) : Prop :=
  ∀ p ∈ store, f p.1 = some p.2

theorem Faithful.nil (f : α → Option β) : Faithful f [] := by simp [Faithful]

/-- Keeping a newly computed pair. -/
theorem Faithful.cons {f : α → Option β} {store : List (α × β)} (h : Faithful f store)
    {a : α} {b : β} (hab : f a = some b) : Faithful f ((a, b) :: store) := by
  intro p hp
  rcases List.mem_cons.1 hp with rfl | hp
  · exact hab
  · exact h p hp

/-- What a faithful store serves is what the function computes. -/
theorem Faithful.getElem? {f : α → Option β} {store : List (α × β)} (h : Faithful f store)
    {i : ℕ} {a : α} {b : β} (hi : store[i]? = some (a, b)) : f a = some b :=
  h (a, b) (List.mem_of_getElem? hi)

end Lib.Memo
