import Mathlib.Data.List.Basic

/-!
# Machines that answer each input

A machine is a step function `ι → σ → σ × ο`: an input and a state give the next state and
an answer.  This file has the two rules by which properties of whole runs are proved from
properties of one step: an invariant that every (admitted) step preserves holds in every
state of a run, and two states related by a simulation answer every sequence of inputs in
the same way.
-/

namespace Lib.Machine

variable {σ ι ο : Type*} (step : ι → σ → σ × ο)

/-- The state after a sequence of inputs. -/
def stateAfter (s : σ) (is : List ι) : σ := is.foldl (fun s i => (step i s).1) s

/-- The answers to a sequence of inputs, in order. -/
def answers : σ → List ι → List ο
  | _, [] => []
  | s, i :: is => (step i s).2 :: answers (step i s).1 is

@[simp] theorem stateAfter_nil (s : σ) : stateAfter step s [] = s := rfl

@[simp] theorem stateAfter_cons (s : σ) (i : ι) (is : List ι) :
    stateAfter step s (i :: is) = stateAfter step (step i s).1 is := rfl

theorem stateAfter_append (s : σ) (is js : List ι) :
    stateAfter step s (is ++ js) = stateAfter step (stateAfter step s is) js := by
  rw [stateAfter, List.foldl_append]
  rfl

@[simp] theorem answers_nil (s : σ) : answers step s [] = [] := rfl

@[simp] theorem answers_cons (s : σ) (i : ι) (is : List ι) :
    answers step s (i :: is) = (step i s).2 :: answers step (step i s).1 is := rfl

theorem answers_append (s : σ) (is js : List ι) : answers step s (is ++ js) =
    answers step s is ++ answers step (stateAfter step s is) js := by
  induction is generalizing s with
  | nil => rfl
  | cons i is ih => rw [List.cons_append, answers_cons, answers_cons, ih, stateAfter_cons]; rfl

/-- Every input of a sequence is admitted by `guard` in the state in which it arrives. -/
def Admitted (guard : ι → σ → Prop) : σ → List ι → Prop
  | _, [] => True
  | s, i :: is => guard i s ∧ Admitted guard (step i s).1 is

@[simp] theorem admitted_nil (guard : ι → σ → Prop) (s : σ) : Admitted step guard s [] := trivial

@[simp] theorem admitted_cons (guard : ι → σ → Prop) (s : σ) (i : ι) (is : List ι) :
    Admitted step guard s (i :: is) ↔ guard i s ∧ Admitted step guard (step i s).1 is :=
  Iff.rfl

theorem admitted_append (guard : ι → σ → Prop) (s : σ) (is js : List ι) :
    Admitted step guard s (is ++ js) ↔
      Admitted step guard s is ∧ Admitted step guard (stateAfter step s is) js := by
  induction is generalizing s with
  | nil => exact (iff_of_eq (true_and _)).symm
  | cons i is ih =>
    rw [List.cons_append, admitted_cons, admitted_cons, ih, stateAfter_cons, and_assoc]

theorem Admitted.mono {guard guard' : ι → σ → Prop} {s : σ} {is : List ι}
    (h : Admitted step guard s is) (himp : ∀ i s, guard i s → guard' i s) :
    Admitted step guard' s is := by
  induction is generalizing s with
  | nil => trivial
  | cons i is ih => exact ⟨himp i s h.1, ih h.2⟩

variable {step}

/-- A guard that looks at the inputs only admits a sequence when it admits each input. -/
theorem admitted_of_forall {guard : ι → Prop} {s : σ} {is : List ι} (h : ∀ i ∈ is, guard i) :
    Admitted step (fun i _ => guard i) s is := by
  induction is generalizing s with
  | nil => trivial
  | cons i is ih =>
    exact ⟨h i List.mem_cons_self, ih fun j hj => h j (List.mem_cons_of_mem _ hj)⟩

/-- The invariant rule: what every admitted step preserves holds after every admitted run. -/
theorem stateAfter_invariant {guard : ι → σ → Prop} {P : σ → Prop}
    (hstep : ∀ i s, guard i s → P s → P (step i s).1) {s : σ} (hs : P s) {is : List ι}
    (h : Admitted step guard s is) : P (stateAfter step s is) := by
  induction is generalizing s with
  | nil => exact hs
  | cons i is ih => exact ih (hstep i s h.1 hs) h.2

/-- The invariant rule for machines that admit every input. -/
theorem stateAfter_invariant_of_all {P : σ → Prop} (hstep : ∀ i s, P s → P (step i s).1)
    {s : σ} (hs : P s) (is : List ι) : P (stateAfter step s is) := by
  induction is generalizing s with
  | nil => exact hs
  | cons i is ih => exact ih (hstep i s hs)

/-- A relation between states is a simulation for `guard` when two related states answer
every admitted input alike and stay related. -/
def Simulation (step : ι → σ → σ × ο) (guard : ι → σ → Prop) (R : σ → σ → Prop) : Prop :=
  ∀ i s t, guard i s → R s t →
    (step i s).2 = (step i t).2 ∧ R (step i s).1 (step i t).1

/-- The simulation rule: related states answer every admitted sequence alike. -/
theorem Simulation.answers_eq {guard : ι → σ → Prop} {R : σ → σ → Prop}
    (hR : Simulation step guard R) {s t : σ} (h : R s t) {is : List ι}
    (hadm : Admitted step guard s is) : answers step s is = answers step t is := by
  induction is generalizing s t with
  | nil => rfl
  | cons i is ih =>
    obtain ⟨hout, hnext⟩ := hR i s t hadm.1 h
    rw [answers_cons, answers_cons, hout, ih hnext hadm.2]

/-- After an admitted sequence, related states are still related. -/
theorem Simulation.stateAfter {guard : ι → σ → Prop} {R : σ → σ → Prop}
    (hR : Simulation step guard R) {s t : σ} (h : R s t) {is : List ι}
    (hadm : Admitted step guard s is) :
    R (stateAfter step s is) (stateAfter step t is) := by
  induction is generalizing s t with
  | nil => exact h
  | cons i is ih => exact ih (hR i s t hadm.1 h).2 hadm.2

/-- The answer of a machine to each input is the one it gives before any other input. -/
def HistoryIndependent (step : ι → σ → σ × ο) (s : σ) : Prop :=
  ∀ before i, (step i (stateAfter step s before)).2 = (step i s).2

/-- An invariant under which all states answer alike makes a machine independent of its history. -/
theorem historyIndependent_of_invariant {P : σ → Prop} {s : σ}
    (hstep : ∀ i t, P t → P (step i t).1) (hs : P s)
    (hanswer : ∀ i t, P t → (step i t).2 = (step i s).2) : HistoryIndependent step s :=
  fun before i => hanswer i _ (stateAfter_invariant_of_all hstep hs before)

/-- A machine that never moves is independent of its history. -/
theorem historyIndependent_of_still {s : σ} (hstep : ∀ i, (step i s).1 = s) :
    HistoryIndependent step s := by
  refine historyIndependent_of_invariant (P := fun t => t = s) ?_ rfl ?_
  · rintro i t rfl
    exact hstep i
  · rintro i t rfl
    rfl

end Lib.Machine
