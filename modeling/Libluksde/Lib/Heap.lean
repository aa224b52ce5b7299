import Mathlib.Data.List.Perm.Basic
import Mathlib.Data.List.Nodup

/-!
# Cells that are allocated and released

A heap holds cells at addresses.  A new cell gets an address that no cell had before, and the
address of a released cell holds nothing any more.  So what is read through an address, after any
allocations and releases, is what was stored there or nothing.
-/

namespace Lib

/-- Cells in the order in which they were allocated; a released one is `none`. -/
structure Heap (α : Type*) where
  cells : List (Option α)
deriving DecidableEq

namespace Heap

variable {α : Type*}

def empty : Heap α := ⟨[]⟩

/-- The cell at an address. -/
def get? (h : Heap α) (p : ℕ) : Option α := h.cells[p]?.join

/-- The heap with a new cell, and the address of it. -/
def allocate (h : Heap α) (a : α) : Heap α × ℕ := (⟨h.cells ++ [some a]⟩, h.cells.length)

/-- The heap without the cell at an address. -/
def release (h : Heap α) (p : ℕ) : Heap α := ⟨h.cells.set p none⟩

/-- The cells of a list that are not released, with their addresses counted from `n`. -/
def liveFrom : (n : ℕ) → List (Option α) → List (ℕ × α)
  | _, [] => []
  | n, none :: cells => liveFrom (n + 1) cells
  | n, some a :: cells => (n, a) :: liveFrom (n + 1) cells

/-- The cells that are not released, with their addresses. -/
def live (h : Heap α) : List (ℕ × α) := liveFrom 0 h.cells

/-! ## Reading -/

@[simp] theorem get?_empty (p : ℕ) : (empty : Heap α).get? p = none := rfl

theorem get?_allocate (h : Heap α) (a : α) (p : ℕ) :
    (h.allocate a).1.get? p = if p = (h.allocate a).2 then some a else h.get? p := by
  by_cases hp : p = (h.allocate a).2
  · rw [if_pos hp, hp, get?, allocate, List.getElem?_concat_length]
    rfl
  · have hne : p ≠ h.cells.length := hp
    rw [if_neg hp, get?, allocate, get?]
    rcases Nat.lt_or_ge p h.cells.length with hlt | hge
    · rw [List.getElem?_append_left hlt]
    · rw [List.getElem?_append_right hge, List.getElem?_eq_none hge,
        List.getElem?_eq_none (by rw [List.length_singleton]; omega)]

theorem get?_allocate_self (h : Heap α) (a : α) :
    (h.allocate a).1.get? (h.allocate a).2 = some a := by
  rw [get?_allocate, if_pos rfl]

/-- An address that holds a cell is not the one of a new cell. -/
theorem ne_address {h : Heap α} {p : ℕ} {a : α} (hp : h.get? p = some a) (b : α) :
    p ≠ (h.allocate b).2 := by
  rintro rfl
  rw [get?, allocate, List.getElem?_eq_none (Nat.le_refl _)] at hp
  cases hp

/-- Allocation leaves the cells as they are. -/
theorem get?_allocate_of_some {h : Heap α} {p : ℕ} {a : α} (hp : h.get? p = some a) (b : α) :
    (h.allocate b).1.get? p = some a := by
  rw [get?_allocate, if_neg (ne_address hp b), hp]

theorem get?_release (h : Heap α) (p q : ℕ) :
    (h.release p).get? q = if q = p then none else h.get? q := by
  simp only [get?, release]
  by_cases hq : q = p
  · rw [if_pos hq, hq]
    rcases Nat.lt_or_ge p h.cells.length with hlt | hge
    · rw [List.getElem?_set_self hlt]
      rfl
    · rw [List.getElem?_eq_none (by rw [List.length_set]; exact hge)]
      rfl
  · rw [if_neg hq, List.getElem?_set_ne (Ne.symm hq)]

/-! ## The live cells -/

theorem liveFrom_append (n : ℕ) (cells cells' : List (Option α)) :
    liveFrom n (cells ++ cells') = liveFrom n cells ++ liveFrom (n + cells.length) cells' := by
  induction cells generalizing n with
  | nil => rfl
  | cons c cells ih =>
    have hnext := ih (n + 1)
    rw [show n + 1 + cells.length = n + (c :: cells).length by rw [List.length_cons]; omega]
      at hnext
    cases c with
    | none => exact hnext
    | some a => rw [List.cons_append, liveFrom, hnext, liveFrom, List.cons_append]

theorem mem_liveFrom {n p : ℕ} {a : α} {cells : List (Option α)} :
    (p, a) ∈ liveFrom n cells ↔ n ≤ p ∧ cells[p - n]?.join = some a := by
  induction cells generalizing n with
  | nil => simp [liveFrom]
  | cons c cells ih =>
    have hrest : n + 1 ≤ p → (c :: cells)[p - n]? = cells[p - (n + 1)]? := by
      intro hp
      rw [show p - n = p - (n + 1) + 1 by omega, List.getElem?_cons_succ]
    have hnot : (p, a) ∈ liveFrom (n + 1) cells ↔
        n + 1 ≤ p ∧ (c :: cells)[p - n]?.join = some a := by
      rw [ih]
      constructor
      · rintro ⟨hp, hcell⟩
        exact ⟨hp, by rw [hrest hp]; exact hcell⟩
      · rintro ⟨hp, hcell⟩
        exact ⟨hp, by rw [← hrest hp]; exact hcell⟩
    have hfirst : (n ≤ p ∧ (c :: cells)[p - n]?.join = some a) ↔
        (p = n ∧ c = some a) ∨ (n + 1 ≤ p ∧ (c :: cells)[p - n]?.join = some a) := by
      constructor
      · rintro ⟨hp, hcell⟩
        rcases Nat.eq_or_lt_of_le hp with rfl | hlt
        · rw [Nat.sub_self, List.getElem?_cons_zero] at hcell
          exact Or.inl ⟨rfl, hcell⟩
        · exact Or.inr ⟨hlt, hcell⟩
      · rintro (⟨rfl, rfl⟩ | ⟨hp, hcell⟩)
        · rw [Nat.sub_self, List.getElem?_cons_zero]
          exact ⟨Nat.le_refl _, rfl⟩
        · exact ⟨by omega, hcell⟩
    rw [hfirst, ← hnot]
    cases c with
    | none => simp [liveFrom]
    | some b =>
      rw [liveFrom, List.mem_cons, Prod.mk.injEq, Option.some.injEq]
      constructor
      · rintro (⟨hp, ha⟩ | hmem)
        · exact Or.inl ⟨hp, ha.symm⟩
        · exact Or.inr hmem
      · rintro (⟨hp, ha⟩ | hmem)
        · exact Or.inl ⟨hp, ha.symm⟩
        · exact Or.inr hmem

theorem liveFrom_set {n i : ℕ} {a : α} {cells : List (Option α)}
    (hi : cells[i]?.join = some a) :
    (liveFrom n cells).Perm ((n + i, a) :: liveFrom n (cells.set i none)) := by
  induction cells generalizing n i with
  | nil => cases hi
  | cons c cells ih =>
    cases i with
    | zero =>
      rw [List.getElem?_cons_zero] at hi
      obtain rfl : c = some a := hi
      exact List.Perm.refl _
    | succ i =>
      rw [List.getElem?_cons_succ] at hi
      have hrest := ih (n := n + 1) hi
      rw [show n + 1 + i = n + (i + 1) by omega] at hrest
      rw [List.set_cons_succ]
      cases c with
      | none => exact hrest
      | some b =>
        -- the released cell moves in front of the first one
        exact (hrest.cons _).trans (List.Perm.swap _ _ _)

@[simp] theorem live_empty : (empty : Heap α).live = [] := rfl

/-- The live cells are those that are read. -/
theorem mem_live {h : Heap α} {p : ℕ} {a : α} : (p, a) ∈ h.live ↔ h.get? p = some a := by
  rw [live, mem_liveFrom, get?, Nat.sub_zero]
  constructor
  · rintro ⟨-, hcell⟩
    exact hcell
  · intro hcell
    exact ⟨Nat.zero_le _, hcell⟩

/-- No two live cells have the same address. -/
theorem nodup_addresses (h : Heap α) : (h.live.map Prod.fst).Nodup := by
  have hall : ∀ (cells : List (Option α)) (n : ℕ), ((liveFrom n cells).map Prod.fst).Nodup := by
    intro cells
    induction cells with
    | nil =>
      intro n
      exact List.nodup_nil
    | cons c cells ih =>
      intro n
      cases c with
      | none => exact ih (n + 1)
      | some a =>
        rw [liveFrom, List.map_cons, List.nodup_cons]
        refine ⟨?_, ih (n + 1)⟩
        -- the addresses behind the first cell are larger
        intro hmem
        obtain ⟨⟨q, b⟩, hlive, hq⟩ := List.mem_map.1 hmem
        have hle := (mem_liveFrom.1 hlive).1
        dsimp only at hq
        omega
  exact hall h.cells 0

theorem live_allocate (h : Heap α) (a : α) :
    (h.allocate a).1.live = h.live ++ [((h.allocate a).2, a)] := by
  simp only [live, allocate]
  rw [liveFrom_append, Nat.zero_add]
  rfl

theorem live_release {h : Heap α} {p : ℕ} {a : α} (hp : h.get? p = some a) :
    h.live.Perm ((p, a) :: (h.release p).live) := by
  have hset := liveFrom_set (n := 0) hp
  rw [Nat.zero_add] at hset
  exact hset

/-- A cell that is allocated and released leaves the live cells as they were. -/
theorem live_release_allocate (h : Heap α) (a : α) :
    ((h.allocate a).1.release (h.allocate a).2).live.Perm h.live := by
  have hrelease := live_release (h.get?_allocate_self a)
  rw [live_allocate] at hrelease
  have hlast : (h.live ++ [((h.allocate a).2, a)]).Perm (((h.allocate a).2, a) :: h.live) :=
    List.perm_append_comm
  exact (List.perm_cons _).1 (hrelease.symm.trans hlast)

theorem get?_release_allocate (h : Heap α) (a : α) (p : ℕ) :
    ((h.allocate a).1.release (h.allocate a).2).get? p = h.get? p := by
  rw [get?_release, get?_allocate]
  by_cases hp : p = (h.allocate a).2
  · rw [if_pos hp, hp, get?, allocate, List.getElem?_eq_none (Nat.le_refl _)]
    rfl
  · rw [if_neg hp, if_neg hp]

end Heap

end Lib
