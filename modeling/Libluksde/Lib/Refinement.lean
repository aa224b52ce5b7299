import Libluksde.Lib.Machine

/-!
# Machines that stand for other machines

A machine is seen through a view: some of its inputs stand for an input of a simpler machine, and
the others are not seen; each answer of the simpler machine is shown in one way.  When every step
keeps the two machines related, and answers what is seen as the simpler machine does, then so does
every run.
-/

namespace Lib.Refinement

open Lib.Machine

variable {σ τ ι κ ο π : Type*}

/-- How the inputs of a machine are seen, and how the answers to them are shown. -/
structure View (ι κ ο π : Type*) where
  input : ι → Option κ
  shown : π → ο

variable (step : ι → σ → σ × ο) (spec : κ → τ → τ × π) (V : View ι κ ο π)

/-- The answers to the inputs that are seen, in order. -/
def seen : σ → List ι → List ο
  | _, [] => []
  | s, i :: is =>
    match V.input i with
    | none => seen (step i s).1 is
    | some _ => (step i s).2 :: seen (step i s).1 is

/-- One machine refines another one through a view: an input that is not seen keeps the states
related, and one that is seen is answered alike and keeps them related. -/
def Refines (guard : ι → σ → Prop) (R : σ → τ → Prop) : Prop :=
  ∀ i s t, guard i s → R s t →
    (V.input i = none → R (step i s).1 t) ∧
    ∀ k, V.input i = some k → (step i s).2 = V.shown (spec k t).2 ∧ R (step i s).1 (spec k t).1

variable {step spec V}

/-- The refinement rule: a run answers what is seen as the simpler machine answers the inputs that
the run stands for, and ends in a related state. -/
theorem Refines.run {guard : ι → σ → Prop} {R : σ → τ → Prop} (h : Refines step spec V guard R)
    {s : σ} {t : τ} (hR : R s t) {is : List ι} (hadmitted : Admitted step guard s is) :
    seen step V s is = (answers spec t (is.filterMap V.input)).map V.shown ∧
      R (stateAfter step s is) (stateAfter spec t (is.filterMap V.input)) := by
  induction is generalizing s t with
  | nil => exact ⟨rfl, hR⟩
  | cons i is ih =>
    obtain ⟨hguard, hrest⟩ := hadmitted
    obtain ⟨hunseen, hseen⟩ := h i s t hguard hR
    cases hi : V.input i with
    | none =>
      have hnext := ih (hunseen hi) hrest
      rw [seen, hi, List.filterMap_cons_none hi]
      exact hnext
    | some k =>
      obtain ⟨hanswer, hstep⟩ := hseen k hi
      obtain ⟨hanswers, hstate⟩ := ih hstep hrest
      rw [seen, hi, List.filterMap_cons_some hi]
      refine ⟨?_, hstate⟩
      rw [answers_cons, List.map_cons, ← hanswer, ← hanswers]

/-- Where every input is seen, all answers are. -/
theorem seen_eq_answers {s : σ} {is : List ι} (h : ∀ i ∈ is, V.input i ≠ none) :
    seen step V s is = answers step s is := by
  induction is generalizing s with
  | nil => rfl
  | cons i is ih =>
    obtain ⟨k, hk⟩ := Option.ne_none_iff_exists'.1 (h i List.mem_cons_self)
    rw [seen, hk, answers_cons, ih fun j hj => h j (List.mem_cons_of_mem _ hj)]

/-- A run is admitted when its inputs are admitted under an invariant that they keep. -/
theorem admitted_of_invariant {guard : ι → σ → Prop} {P : σ → Prop} {s : σ} {is : List ι}
    (hstep : ∀ i ∈ is, ∀ s, P s → guard i s ∧ P (step i s).1) (hs : P s) :
    Admitted step guard s is := by
  induction is generalizing s with
  | nil => trivial
  | cons i is ih =>
    obtain ⟨hguard, hnext⟩ := hstep i List.mem_cons_self s hs
    exact ⟨hguard, ih (fun j hj => hstep j (List.mem_cons_of_mem _ hj)) hnext⟩

end Lib.Refinement
