/-
Properties of every prefix of a run.

A run applies steps one after the other.  Where one condition on a state and a step decides whether
the step keeps what is asked for, a run keeps it throughout exactly when all its steps meet the
condition in the states in which they are made.

Main results:

* `forall_prefix_cons` — the prefixes of a run are those after its first step;
* `forall_prefix_iff` — a property holds throughout exactly when every step meets the condition.
-/

import Mathlib.Data.List.Infix

set_option relaxedAutoImplicit false
set_option autoImplicit false

variable {σ α : Type} (step : σ → α → σ)

/-- What holds in all states of a run holds at its start and in all states after its first step. -/
theorem forall_prefix_cons (holds : σ → Prop) (s : σ) (a : α) (l : List α) :
    (∀ done, done <+: a :: l → holds (done.foldl step s)) ↔
      holds s ∧ ∀ done, done <+: l → holds (done.foldl step (step s a)) := by
  constructor
  · intro h
    exact ⟨h [] (List.nil_prefix), fun done hdone =>
      h (a :: done) (List.cons_prefix_cons.2 ⟨rfl, hdone⟩)⟩
  · rintro ⟨hs, h⟩ done hdone
    cases done with
    | nil => exact hs
    | cons b done =>
        obtain ⟨rfl, hrest⟩ := List.cons_prefix_cons.1 hdone
        exact h done hrest

/-- What holds of all steps of a run holds of its first step and of all steps after it. -/
theorem forall_step_cons (holds : σ → α → Prop) (s : σ) (a : α) (l : List α) :
    (∀ done b, done ++ [b] <+: a :: l → holds (done.foldl step s) b) ↔
      holds s a ∧ ∀ done b, done ++ [b] <+: l → holds (done.foldl step (step s a)) b := by
  constructor
  · intro h
    exact ⟨h [] a (List.cons_prefix_cons.2 ⟨rfl, List.nil_prefix⟩), fun done b hdone =>
      h (a :: done) b (List.cons_prefix_cons.2 ⟨rfl, hdone⟩)⟩
  · rintro ⟨ha, h⟩ done b hdone
    cases done with
    | nil =>
        obtain ⟨rfl, -⟩ := List.cons_prefix_cons.1 hdone
        exact ha
    | cons c done =>
        obtain ⟨rfl, hrest⟩ := List.cons_prefix_cons.1 hdone
        exact h done b hrest

variable {step} {invariant property : σ → Prop} {condition : σ → α → Prop}

/-- A property holds throughout a run exactly when every step meets the condition, if a step that
meets it keeps the invariant of which the property is a part, and one that does not breaks the
property. -/
theorem forall_prefix_iff (hproperty : ∀ s, invariant s → property s)
    (hkeep : ∀ s a, invariant s → condition s a → invariant (step s a))
    (hbreak : ∀ s a, invariant s → ¬ condition s a → ¬ property (step s a)) {s : σ}
    (hs : invariant s) (l : List α) :
    (∀ done, done <+: l → property (done.foldl step s)) ↔
      ∀ done a, done ++ [a] <+: l → condition (done.foldl step s) a := by
  induction l generalizing s with
  | nil =>
      refine ⟨fun _ done a hdone => by simp at hdone, fun _ done hdone => ?_⟩
      obtain rfl := List.prefix_nil.1 hdone
      exact hproperty s hs
  | cons a l ih =>
      rw [forall_prefix_cons, forall_step_cons]
      by_cases ha : condition s a
      · rw [ih (hkeep s a hs ha)]
        exact ⟨fun h => ⟨ha, h.2⟩, fun h => ⟨hproperty s hs, h.2⟩⟩
      · refine ⟨fun h => absurd (h.2 [] List.nil_prefix) (hbreak s a hs ha), fun h => absurd h.1 ha⟩
