import Libluksde.Lib.Machine
import Mathlib.Data.List.Basic
import Mathlib.Algebra.Order.Ring.Nat

/-!
# Files that are read at a position

A reader of a fixed content has a position, which a seek sets and a read advances by as much as it
returns.  Reads one after the other return what one read of the whole returns.
-/

namespace Lib.FileReader

open Lib.Machine

variable {α : Type*}

/-- What a seek counts from. -/
inductive Origin
  | start
  | position
  | finish
deriving DecidableEq, Repr

/-- A content and a position. -/
structure Reader (α : Type*) where
  content : List α
  position : ℕ

/-- What is asked of a reader; a seek may come without an origin. -/
inductive Request
  | seek (origin : Option Origin) (offset : ℤ)
  | read (size : ℕ)
  | readAt (size : ℕ) (offset : ℤ)

/-- What a reader answers: that it fails, its new position, or the data that it returns. -/
inductive Reply (α : Type*)
  | failed
  | moved (position : ℕ)
  | data (data : List α)

/-- What a reader can do: its positions are below one bound, and its reads at most as large as
another. -/
structure Limits where
  position : ℕ
  size : ℕ

/-- What an origin stands for. -/
def Reader.origin (r : Reader α) : Origin → ℕ
  | .start => 0
  | .position => r.position
  | .finish => r.content.length

/-- Moving to a position. -/
def Reader.move (limits : Limits) (r : Reader α) (target : ℤ) : Reader α × Reply α :=
  if 0 ≤ target ∧ target < limits.position then
    ({ r with position := target.toNat }, .moved target.toNat)
  else (r, .failed)

/-- The data at the position. -/
def Reader.next (r : Reader α) (size : ℕ) : List α := (r.content.drop r.position).take size

/-- Reading at the position. -/
def Reader.read (limits : Limits) (r : Reader α) (size : ℕ) : Reader α × Reply α :=
  if size ≤ limits.size then
    ({ r with position := r.position + (r.next size).length }, .data (r.next size))
  else (r, .failed)

/-- One request. -/
def serve (limits : Limits) : Request → Reader α → Reader α × Reply α
  | .seek none _, r => (r, .failed)
  | .seek (some origin) offset, r => r.move limits (r.origin origin + offset)
  | .read size, r => r.read limits size
  | .readAt size offset, r =>
    match r.move limits offset with
    | (_, .moved position) => { r with position := position }.read limits size
    | _ => (r, .failed)

/-- The data of answers, one after the other. -/
def joined (replies : List (Reply α)) : List α :=
  replies.flatMap fun reply =>
    match reply with
    | .data data => data
    | _ => []

/-- Reads one after the other return what one read of the whole returns. -/
theorem joined_reads {limits : Limits} (r : Reader α) {sizes : List ℕ}
    (hsizes : ∀ size ∈ sizes, size ≤ limits.size) :
    joined (answers (serve limits) r (sizes.map .read)) = r.next sizes.sum := by
  induction sizes generalizing r with
  | nil => rfl
  | cons size sizes ih =>
    have hsize : size ≤ limits.size := hsizes size List.mem_cons_self
    have hrest := ih { r with position := r.position + (r.next size).length } fun size' hmem =>
      hsizes size' (List.mem_cons_of_mem _ hmem)
    have hread : serve limits (.read size) r =
        ({ r with position := r.position + (r.next size).length }, .data (r.next size)) := by
      rw [serve, Reader.read, if_pos hsize]
    -- what is left behind the first read begins where that read has ended
    have hnext : r.next (size + sizes.sum) = r.next size ++
        ({ r with position := r.position + (r.next size).length } : Reader α).next sizes.sum := by
      simp only [Reader.next]
      rw [List.take_add, List.drop_drop, List.length_take, List.length_drop]
      rcases Nat.le_total size (r.content.length - r.position) with hle | hle
      · rw [Nat.min_eq_left hle]
      · have hempty : ∀ n, r.content.length ≤ n → (r.content.drop n).take sizes.sum = [] := by
          intro n hn
          rw [List.drop_eq_nil_of_le hn, List.take_nil]
        rw [Nat.min_eq_right hle, hempty _ (by omega), hempty _ (by omega)]
    rw [List.map_cons, answers_cons, hread, List.sum_cons, hnext, ← hrest]
    rfl

end Lib.FileReader
