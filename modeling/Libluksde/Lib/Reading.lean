import Mathlib.Data.List.Basic

/-!
# Computations that read a memory

A computation is a tree: it ends with a value, or it reads a cell of the memory and goes on with
what it finds there.  It has no other access to the memory, so the cells on its path are all that
it looks at, and its value does not depend on any other cell.
-/

universe u

namespace Lib

/-- A computation that reads a memory of cells in `β` one at a time. -/
inductive Reading (β : Type*) (α : Type*)
  | pure (a : α)
  | read (i : ℕ) (next : β → Reading β α)

namespace Reading

variable {β α γ : Type*}

/-- One computation, and then one that depends on its value. -/
def bind : Reading β α → (α → Reading β γ) → Reading β γ
  | .pure a, f => f a
  | .read i next, f => .read i fun b => (next b).bind f

instance : Monad (Reading β) where
  pure := .pure
  bind := .bind

/-- The value on a memory. -/
def run (memory : ℕ → β) : Reading β α → α
  | .pure a => a
  | .read i next => (next (memory i)).run memory

/-- The indices of the cells that are read on a memory, in order. -/
def reads (memory : ℕ → β) : Reading β α → List ℕ
  | .pure _ => []
  | .read i next => i :: (next (memory i)).reads memory

variable {memory memory' : ℕ → β}

@[simp] theorem run_pure (a : α) : (Pure.pure a : Reading β α).run memory = a := rfl

@[simp] theorem reads_pure (a : α) : (Pure.pure a : Reading β α).reads memory = [] := rfl

section

variable {α γ : Type u} (p : Reading β α) (f : α → Reading β γ)

@[simp] theorem run_bind : (p >>= f).run memory = (f (p.run memory)).run memory := by
  induction p with
  | pure a => rfl
  | read i next ih => exact ih (memory i)

@[simp] theorem reads_bind :
    (p >>= f).reads memory = p.reads memory ++ (f (p.run memory)).reads memory := by
  induction p with
  | pure a => rfl
  | read i next ih =>
    show i :: _ = i :: _
    exact congrArg (i :: ·) (ih (memory i))

end

@[simp] theorem run_ite {c : Prop} [Decidable c] (p q : Reading β α) :
    (if c then p else q).run memory = if c then p.run memory else q.run memory := by
  split
  · rfl
  · rfl

/-- One cell. -/
def cell (i : ℕ) : Reading β β := .read i .pure

@[simp] theorem run_cell (i : ℕ) : (cell i : Reading β β).run memory = memory i := rfl

@[simp] theorem reads_cell (i : ℕ) : (cell i : Reading β β).reads memory = [i] := rfl

/-- The cells of a window. -/
def window (i : ℕ) : ℕ → Reading β (List β)
  | 0 => Pure.pure []
  | n + 1 => do
    let b ← cell i
    let bs ← window (i + 1) n
    Pure.pure (b :: bs)

theorem run_window (i n : ℕ) :
    (window i n : Reading β (List β)).run memory = (List.range' i n).map memory := by
  induction n generalizing i with
  | zero => rfl
  | succ n ih =>
    rw [window, run_bind, run_bind, run_pure, run_cell, ih, List.range'_succ, List.map_cons]

@[simp] theorem reads_window (i n : ℕ) :
    (window i n : Reading β (List β)).reads memory = List.range' i n := by
  induction n generalizing i with
  | zero => rfl
  | succ n ih =>
    rw [window, reads_bind, reads_bind, reads_pure, reads_cell, ih, List.range'_succ,
      List.append_nil, List.singleton_append]

/-! ## Bounds -/

/-- All cells that are read, on whatever memory, have an index from `lo` on and below `hi`. -/
def Within (lo hi : ℕ) (p : Reading β α) : Prop :=
  ∀ (memory : ℕ → β), ∀ i ∈ p.reads memory, lo ≤ i ∧ i < hi

variable {lo hi : ℕ}

theorem within_pure (a : α) : Within lo hi (Pure.pure a : Reading β α) := by
  intro memory i hmem
  cases hmem

theorem within_cell {i : ℕ} (hlo : lo ≤ i) (hhi : i < hi) :
    Within lo hi (cell i : Reading β β) := by
  intro memory j hmem
  rw [List.mem_singleton.mp hmem]
  exact ⟨hlo, hhi⟩

theorem within_window {i n : ℕ} (hlo : lo ≤ i) (hhi : i + n ≤ hi) :
    Within lo hi (window i n : Reading β (List β)) := by
  intro memory j hmem
  rw [reads_window, List.mem_range'_1] at hmem
  omega

theorem Within.bind {α γ : Type u} {p : Reading β α} {f : α → Reading β γ} (hp : Within lo hi p)
    (hf : ∀ a, Within lo hi (f a)) : Within lo hi (p >>= f) := by
  intro memory i hmem
  rw [reads_bind] at hmem
  rcases List.mem_append.mp hmem with hleft | hright
  · exact hp memory i hleft
  · exact hf _ memory i hright

theorem Within.ite {p q : Reading β α} {c : Prop} [Decidable c] (hp : Within lo hi p)
    (hq : Within lo hi q) : Within lo hi (if c then p else q) := by
  split
  · exact hp
  · exact hq

theorem Within.mono {p : Reading β α} {lo' hi' : ℕ} (h : Within lo hi p) (hlo : lo' ≤ lo)
    (hhi : hi ≤ hi') : Within lo' hi' p := by
  intro memory i hmem
  have hi := h memory i hmem
  omega

/-- All cells that are read on one memory have an index below `hi`. -/
def InBounds (memory : ℕ → β) (hi : ℕ) (p : Reading β α) : Prop := ∀ i ∈ p.reads memory, i < hi

@[simp] theorem inBounds_pure (a : α) : InBounds memory hi (Pure.pure a : Reading β α) := by
  intro i hmem
  cases hmem

@[simp] theorem inBounds_bind {α γ : Type u} (p : Reading β α) (f : α → Reading β γ) :
    InBounds memory hi (p >>= f) ↔
      InBounds memory hi p ∧ InBounds memory hi (f (p.run memory)) := by
  simp only [InBounds, reads_bind, List.forall_mem_append]

@[simp] theorem inBounds_cell {i : ℕ} : InBounds memory hi (cell i : Reading β β) ↔ i < hi := by
  rw [InBounds, reads_cell, List.forall_mem_singleton]

theorem Within.inBounds {p : Reading β α} (h : Within lo hi p) {size : ℕ} (hsize : hi ≤ size) :
    InBounds memory size p := by
  intro i hmem
  exact Nat.lt_of_lt_of_le (h memory i hmem).2 hsize

theorem inBounds_window {i n : ℕ} (hn : 0 < n) :
    InBounds memory hi (window i n : Reading β (List β)) ↔ i + n ≤ hi := by
  rw [InBounds, reads_window]
  constructor
  · intro h
    have hlast := h (i + (n - 1)) (List.mem_range'_1.mpr (by omega))
    omega
  · intro h j hmem
    have hj := List.mem_range'_1.mp hmem
    omega

end Reading

end Lib
