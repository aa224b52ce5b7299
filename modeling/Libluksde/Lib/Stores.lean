import Mathlib.Data.List.Basic

/-!
# Stores into a buffer

A buffer after a list of stores, each of one entry at an index, in order.
-/

namespace Lib.Stores

variable {α : Type*}

/-- A list after stores. -/
def store (l : List α) (stores : List (ℕ × α)) : List α :=
  stores.foldl (fun l s => l.set s.1 s.2) l

@[simp] theorem store_nil (l : List α) : store l [] = l := rfl

@[simp] theorem store_cons (l : List α) (s : ℕ × α) (stores : List (ℕ × α)) :
    store l (s :: stores) = store (l.set s.1 s.2) stores := rfl

theorem store_append (l : List α) (stores stores' : List (ℕ × α)) :
    store l (stores ++ stores') = store (store l stores) stores' := List.foldl_append

/-- A store right behind a part of a list. -/
theorem set_append_cons (before behind : List α) (a b : α) :
    (before ++ a :: behind).set before.length b = before ++ b :: behind := by
  rw [List.set_append_right _ _ (Nat.le_refl _), Nat.sub_self, List.set_cons_zero]

/-- Stores at the first indexes, one after the other. -/
theorem store_range {n : ℕ} (f : ℕ → α) {l : List α} (hl : n ≤ l.length) :
    store l ((List.range n).map fun k => (k, f k)) = (List.range n).map f ++ l.drop n := by
  induction n with
  | zero => rfl
  | succ n ih =>
    have hdrop : l.drop n = l.get ⟨n, hl⟩ :: l.drop (n + 1) := List.drop_eq_getElem_cons hl
    have hset := set_append_cons ((List.range n).map f) (l.drop (n + 1)) (l.get ⟨n, hl⟩) (f n)
    rw [List.length_map, List.length_range] at hset
    rw [List.range_succ, List.map_append, store_append, ih (Nat.le_of_succ_le hl), hdrop,
      List.map_append, List.append_assoc]
    exact hset

/-- The first entries of a list, read with a default. -/
theorem map_range_getD (l : List α) (d : α) :
    (List.range l.length).map (fun k => l.getD k d) = l := by
  apply List.ext_getElem
  · simp
  · intro k hk hk'
    simp [hk']

/-- A list with more than `n` entries, split around the entry at `n`. -/
theorem exists_split {l : List α} {n : ℕ} (hl : n < l.length) :
    ∃ front a back, l = front ++ a :: back ∧ front.length = n :=
  ⟨l.take n, l.get ⟨n, hl⟩, l.drop (n + 1), by
    rw [List.get_eq_getElem, ← List.drop_eq_getElem_cons hl, List.take_append_drop], by
    rw [List.length_take, Nat.min_eq_left (Nat.le_of_lt hl)]⟩

end Lib.Stores
