/-
Computations that raise a flag.

A program may call out to a host function whose failure does not stop it at once: it notes the
failure in a flag, goes on with a default value, and looks at the flag at the end.  A `Flagged`
computation is a value together with the flag it has raised; a `Checked` computation may also stop
with an error.  What makes the two easy to reason about is that the flag never influences the
value: `Flagged.val` and `Checked.outcome` commute with sequencing, so a statement about values
never mentions flags.

Main definitions:

* `Flagged`, `Flagged.traverse`, `Flagged.filter`, `Flagged.sortByKey` — values with a flag, and the
  list operations whose callback may raise it;
* `Checked` — the same with an error result.

Main results:

* `Flagged.val_bind`, `Checked.outcome_bind` — values and outcomes forget the flag;
* `Flagged.val_traverse`, `Flagged.val_filter`, `Flagged.val_sortByKey` — the list operations
  compute what the pure ones compute.
-/

import Mathlib.Data.List.Sort

set_option relaxedAutoImplicit false
set_option autoImplicit false

/-- A value and whether computing it has raised the flag. -/
structure Flagged (α : Type) where
  val : α
  failed : Bool

namespace Flagged

variable {α β : Type}

instance : Monad Flagged where
  pure a := ⟨a, false⟩
  bind x f := ⟨(f x.val).val, x.failed || (f x.val).failed⟩

@[simp] theorem val_pure (a : α) : (pure a : Flagged α).val = a := rfl

@[simp] theorem failed_pure (a : α) : (pure a : Flagged α).failed = false := rfl

@[simp] theorem val_bind (x : Flagged α) (f : α → Flagged β) : (x >>= f).val = (f x.val).val := rfl

@[simp] theorem failed_bind (x : Flagged α) (f : α → Flagged β) :
    (x >>= f).failed = (x.failed || (f x.val).failed) := rfl

@[simp] theorem val_ite (c : Prop) [Decidable c] (x y : Flagged α) :
    (if c then x else y).val = if c then x.val else y.val := apply_ite Flagged.val c x y

/-- Applying a flagged function along a list. -/
def traverse (f : α → Flagged β) : List α → Flagged (List β)
  | [] => pure []
  | a :: l => do
      let b ← f a
      let bs ← traverse f l
      pure (b :: bs)

@[simp] theorem val_traverse (f : α → Flagged β) (l : List α) :
    (traverse f l).val = l.map fun a => (f a).val := by
  induction l with
  | nil => rfl
  | cons a l ih => simp [traverse, ih]

@[simp] theorem failed_traverse (f : α → Flagged β) (l : List α) :
    (traverse f l).failed = l.any fun a => (f a).failed := by
  induction l with
  | nil => rfl
  | cons a l ih => simp [traverse, ih]

/-- Keeping the elements that pass a flagged test. -/
def filter (p : α → Flagged Bool) : List α → Flagged (List α)
  | [] => pure []
  | a :: l => do
      let keep ← p a
      let rest ← filter p l
      pure (if keep then a :: rest else rest)

@[simp] theorem val_filter (p : α → Flagged Bool) (l : List α) :
    (filter p l).val = l.filter fun a => (p a).val := by
  induction l with
  | nil => rfl
  | cons a l ih =>
      simp only [filter, val_bind, val_pure, ih, List.filter_cons]

/-- A stable sort by a flagged key. -/
def sortByKey (key : α → Flagged ℤ) (l : List α) : Flagged (List α) := do
  let keys ← traverse key l
  pure (((keys.zip l).insertionSort fun a b => a.1 ≤ b.1).map Prod.snd)

private theorem map_snd_orderedInsert (k : α → ℤ) (a : α) (l : List α) :
    ((l.map fun a => (k a, a)).orderedInsert (fun a b => a.1 ≤ b.1) (k a, a)) =
      (l.orderedInsert (fun a b => k a ≤ k b) a).map fun a => (k a, a) := by
  induction l with
  | nil => rfl
  | cons b l ih =>
      by_cases h : k a ≤ k b
      · simp [List.orderedInsert, h]
      · simp only [List.map_cons, List.orderedInsert, h, if_false, ih]

@[simp] theorem val_sortByKey (key : α → Flagged ℤ) (l : List α) :
    (sortByKey key l).val = l.insertionSort fun a b => (key a).val ≤ (key b).val := by
  have hzip : (l.map fun a => (key a).val).zip l = l.map fun a => ((key a).val, a) := by
    induction l with
    | nil => rfl
    | cons a l ih => simp [ih]
  have hsort : (l.map fun a => ((key a).val, a)).insertionSort (fun a b => a.1 ≤ b.1) =
      (l.insertionSort fun a b => (key a).val ≤ (key b).val).map fun a => ((key a).val, a) := by
    clear hzip
    induction l with
    | nil => rfl
    | cons a l ih =>
        rw [List.map_cons, List.insertionSort_cons, ih, List.insertionSort_cons]
        exact map_snd_orderedInsert (fun a => (key a).val) a _
  simp only [sortByKey, val_bind, val_pure, val_traverse, hzip, hsort, List.map_map]
  exact List.map_id _

end Flagged

/-- The result of a computation that may stop with an error, and whether it has raised the
flag. -/
structure Checked (ε α : Type) where
  outcome : Except ε α
  failed : Bool

namespace Checked

variable {ε α β : Type}

instance : Monad (Checked ε) where
  pure a := ⟨.ok a, false⟩
  bind x f :=
    match x.outcome with
    | .ok a => ⟨(f a).outcome, x.failed || (f a).failed⟩
    | .error e => ⟨.error e, x.failed⟩

instance : LawfulMonad (Checked ε) := by
  refine LawfulMonad.mk' _ ?_ ?_ ?_
  · rintro α ⟨outcome, failed⟩
    cases outcome <;> simp [Functor.map]
  · intro α β a f
    simp [bind, pure]
  · rintro α β γ ⟨outcome, failed⟩ f g
    cases outcome with
    | error e => rfl
    | ok a =>
        cases hfa : (f a).outcome <;> simp [bind, hfa, Bool.or_assoc]

instance : MonadExceptOf ε (Checked ε) where
  throw e := ⟨.error e, false⟩
  tryCatch x handle :=
    match x.outcome with
    | .ok a => ⟨.ok a, x.failed⟩
    | .error e => ⟨(handle e).outcome, x.failed || (handle e).failed⟩

instance : MonadLift Flagged (Checked ε) where
  monadLift x := ⟨.ok x.val, x.failed⟩

instance : MonadLift (Except ε) (Checked ε) where
  monadLift r := ⟨r, false⟩

@[simp] theorem outcome_pure (a : α) : (pure a : Checked ε α).outcome = .ok a := rfl

@[simp] theorem outcome_throw (e : ε) : (throw e : Checked ε α).outcome = .error e := rfl

@[simp] theorem outcome_bind (x : Checked ε α) (f : α → Checked ε β) :
    (x >>= f).outcome = (x.outcome >>= fun a => (f a).outcome) := by
  cases h : x.outcome <;> simp [bind, h, Except.bind]

@[simp] theorem outcome_liftFlagged (x : Flagged α) :
    (liftM x : Checked ε α).outcome = .ok x.val := rfl

@[simp] theorem outcome_liftExcept (r : Except ε α) : (liftM r : Checked ε α).outcome = r := rfl

@[simp] theorem failed_pure (a : α) : (pure a : Checked ε α).failed = false := rfl

@[simp] theorem failed_throw (e : ε) : (throw e : Checked ε α).failed = false := rfl

@[simp] theorem failed_liftFlagged (x : Flagged α) :
    (liftM x : Checked ε α).failed = x.failed := rfl

@[simp] theorem failed_liftExcept (r : Except ε α) : (liftM r : Checked ε α).failed = false := rfl

/-- A sequence does not raise the flag when its parts do not. -/
theorem failed_bind {x : Checked ε α} {f : α → Checked ε β} (hx : x.failed = false)
    (hf : ∀ a, x.outcome = .ok a → (f a).failed = false) : (x >>= f).failed = false := by
  cases h : x.outcome with
  | error e => simp [bind, h, hx]
  | ok a => simp [bind, h, hx, hf a h]

@[simp] theorem outcome_ite (c : Prop) [Decidable c] (x y : Checked ε α) :
    (if c then x else y).outcome = if c then x.outcome else y.outcome :=
  apply_ite Checked.outcome c x y

end Checked

namespace Except

variable {ε α β : Type}

@[simp] theorem ok_bind' (a : α) (f : α → Except ε β) : (Except.ok a >>= f) = f a := rfl

@[simp] theorem error_bind' (e : ε) (f : α → Except ε β) :
    ((Except.error e : Except ε α) >>= f) = .error e := rfl

/-- A sequence succeeds exactly when its parts do. -/
theorem bind_eq_ok {x : Except ε α} {f : α → Except ε β} {b : β} :
    (x >>= f) = .ok b ↔ ∃ a, x = .ok a ∧ f a = .ok b := by
  cases x <;> simp

/-- A sequence fails when its first part does, or with the failure of the second. -/
theorem bind_eq_error {x : Except ε α} {f : α → Except ε β} {e : ε} :
    (x >>= f) = .error e ↔ x = .error e ∨ ∃ a, x = .ok a ∧ f a = .error e := by
  cases x <;> simp

end Except
