/-
Computations whose writes persist.

A program that works on a shared state writes to it as it goes, and what it has written stays
written when it fails later.  It may also call a host function whose failure only raises a flag.
Such a program implements a computation on an explicit state if it returns the same result, raises
the same flag, and has written the same state when it succeeds; what it has written when it fails is
left open.

A program can be protected against its own failures by letting it work on a copy: the copy is thrown
away when it fails and merged back when it succeeds.

Main definitions:

* `Writing`, `Writing.state`, `Writing.write` — programs on a state, with an error and a flag;
* `Writing.Implements` — implementing a computation on an explicit state;
* `Writing.ensuring` — looking at the flag in the end;
* `Writing.onCopy` — working on a copy.

Main results:

* `Writing.Implements.bind`, `Writing.Implements.bind_exec`,
  `Writing.Implements.bind_checked`, `Writing.Implements.bind_flagged` — implementations,
  statement by statement;
* `Writing.Implements.ensuring` — looking at the flag in the end;
* `Writing.exec_onCopy` — what it has written if it succeeds.
-/

import ContextLease.Flagged

set_option relaxedAutoImplicit false
set_option autoImplicit false

/-- A program on a state: from the state and the flag it is started with, the result, and the state
and the flag it leaves. -/
def Writing (ε σ α : Type) : Type := σ → Bool → Except ε α × σ × Bool

namespace Writing

variable {ε σ α β : Type}

/-- Running a program. -/
def exec (w : Writing ε σ α) (s : σ) (failed : Bool) : Except ε α × σ × Bool := w s failed

instance : Monad (Writing ε σ) where
  pure a := fun s failed => (.ok a, s, failed)
  bind w k := fun s failed =>
    match w s failed with
    | (.ok a, s, failed) => k a s failed
    | (.error e, s, failed) => (.error e, s, failed)

instance : MonadExceptOf ε (Writing ε σ) where
  throw e := fun s failed => (.error e, s, failed)
  tryCatch w handle := fun s failed =>
    match w s failed with
    | (.ok a, s, failed) => (.ok a, s, failed)
    | (.error e, s, failed) => handle e s failed

/-- Reading the state. -/
def state : Writing ε σ σ := fun s failed => (.ok s, s, failed)

/-- Writing to the state. -/
def write (f : σ → σ) : Writing ε σ Unit := fun s failed => (.ok (), f s, failed)

/-- Reading the flag. -/
def flag : Writing ε σ Bool := fun s failed => (.ok failed, s, failed)

/-- A computation that does not look at the state. -/
instance : MonadLift (Checked ε) (Writing ε σ) where
  monadLift x := fun s failed => (x.outcome, s, failed || x.failed)

/-! ### Running -/

@[simp] theorem exec_pure (a : α) (s : σ) (failed : Bool) :
    (pure a : Writing ε σ α).exec s failed = (.ok a, s, failed) := rfl

@[simp] theorem exec_state (s : σ) (failed : Bool) :
    (state : Writing ε σ σ).exec s failed = (.ok s, s, failed) := rfl

@[simp] theorem exec_write (f : σ → σ) (s : σ) (failed : Bool) :
    (write f : Writing ε σ Unit).exec s failed = (.ok (), f s, failed) := rfl

@[simp] theorem exec_flag (s : σ) (failed : Bool) :
    (flag : Writing ε σ Bool).exec s failed = (.ok failed, s, failed) := rfl

@[simp] theorem exec_throw (e : ε) (s : σ) (failed : Bool) :
    (throw e : Writing ε σ α).exec s failed = (.error e, s, failed) := rfl

@[simp] theorem exec_checked (x : Checked ε α) (s : σ) (failed : Bool) :
    (liftM x : Writing ε σ α).exec s failed = (x.outcome, s, failed || x.failed) := rfl

theorem exec_bind (w : Writing ε σ α) (k : α → Writing ε σ β) (s : σ) (failed : Bool) :
    (w >>= k).exec s failed =
      match w.exec s failed with
      | (.ok a, s, failed) => (k a).exec s failed
      | (.error e, s, failed) => (.error e, s, failed) := rfl

theorem exec_bind_ok {w : Writing ε σ α} {k : α → Writing ε σ β} {s s' : σ}
    {failed failed' : Bool} {a : α} (h : w.exec s failed = (.ok a, s', failed')) :
    (w >>= k).exec s failed = (k a).exec s' failed' := by
  rw [exec_bind, h]

theorem exec_bind_error {w : Writing ε σ α} {k : α → Writing ε σ β} {s s' : σ}
    {failed failed' : Bool} {e : ε} (h : w.exec s failed = (.error e, s', failed')) :
    (w >>= k).exec s failed = (.error e, s', failed') := by
  rw [exec_bind, h]

/-! ### Implementing a computation on an explicit state -/

/-- The program returns what the computation returns, raises the flag if it does, and has written
its state if it succeeds. -/
def Implements (w : Writing ε σ α) (s : σ) (x : Checked ε (α × σ)) : Prop :=
  ∀ failed, ∃ s', w.exec s failed = (x.outcome.map Prod.fst, s', failed || x.failed) ∧
    ∀ r, x.outcome = .ok r → s' = r.2

namespace Implements

theorem of_exec {w : Writing ε σ α} {s s' : σ} {a : α}
    (h : ∀ failed, w.exec s failed = (.ok a, s', failed)) :
    Implements w s (pure (a, s')) := by
  intro failed
  refine ⟨s', ?_, fun r hr => ?_⟩
  · rw [h, Checked.failed_pure, Bool.or_false]
    rfl
  · rw [← Except.ok.inj hr]

/-- A program that does not fail. -/
theorem exec {w : Writing ε σ α} {s s' : σ} {a : α} (h : Implements w s (pure (a, s')))
    (failed : Bool) : w.exec s failed = (.ok a, s', failed) := by
  obtain ⟨s'', hexec, hs⟩ := h failed
  rw [hexec, hs _ rfl, Checked.failed_pure, Bool.or_false]
  rfl

theorem throw (e : ε) (s : σ) :
    Implements (MonadExcept.throw e : Writing ε σ α) s (MonadExcept.throw e) := by
  intro failed
  exact ⟨s, by simp [Except.map], fun r hr => by cases hr⟩

/-- After a program that implements a computation, whose result tells the program's result and
state. -/
theorem bind {γ : Type} {w : Writing ε σ α} {k : α → Writing ε σ β} {s : σ} {x : Checked ε γ}
    {g : γ → α × σ} {f : γ → Checked ε (β × σ)}
    (hw : Implements w s (x >>= fun c => pure (g c)))
    (hk : ∀ c, x.outcome = .ok c → Implements (k (g c).1) (g c).2 (f c)) :
    Implements (w >>= k) s (x >>= f) := by
  intro failed
  obtain ⟨s', hexec, hs'⟩ := hw failed
  cases hx : x.outcome with
  | error e =>
      refine ⟨s', ?_, fun r hr => by simp [hx] at hr⟩
      simp only [Bind.bind, hx, Except.map] at hexec ⊢
      exact exec_bind_error hexec
  | ok c =>
      rw [hs' (g c) (by rw [Checked.outcome_bind, hx]; rfl)] at hexec
      simp only [Bind.bind, hx, Checked.outcome_pure, Checked.failed_pure, Bool.or_false,
        Except.map] at hexec
      obtain ⟨s₃, hexec', hs₃⟩ := hk c hx (failed || x.failed)
      refine ⟨s₃, ?_, fun r hr => hs₃ r (by rwa [Checked.outcome_bind, hx] at hr)⟩
      have hrun := (exec_bind_ok (k := k) hexec).trans hexec'
      simp only [Bind.bind, hx, ← Bool.or_assoc] at hrun ⊢
      exact hrun

/-- After a program that does not fail. -/
theorem bind_exec {w : Writing ε σ α} {k : α → Writing ε σ β} {s s' : σ} {a : α}
    {x : Checked ε (β × σ)} (hw : ∀ failed, w.exec s failed = (.ok a, s', failed))
    (hk : Implements (k a) s' x) : Implements (w >>= k) s x := by
  intro failed
  rw [exec_bind_ok (hw failed)]
  exact hk failed

/-- After a computation that does not look at the state. -/
theorem bind_checked {x : Checked ε α} {k : α → Writing ε σ β} {s : σ}
    {f : α → Checked ε (β × σ)} (hk : ∀ a, x.outcome = .ok a → Implements (k a) s (f a)) :
    Implements (liftM x >>= k) s (x >>= f) := by
  intro failed
  cases hx : x.outcome with
  | error e =>
      refine ⟨s, ?_, fun r hr => by simp [hx] at hr⟩
      rw [exec_bind_error ((exec_checked x s _).trans (by rw [hx]))]
      simp [Bind.bind, hx, Except.map]
  | ok a =>
      obtain ⟨s', hexec, hs'⟩ := hk a hx (failed || x.failed)
      refine ⟨s', ?_, fun r hr => hs' r (by rwa [Checked.outcome_bind, hx] at hr)⟩
      rw [exec_bind_ok ((exec_checked x s _).trans (by rw [hx])), hexec]
      simp [Bind.bind, hx, Bool.or_assoc]

/-- After a computation that at most raises the flag. -/
theorem bind_flagged {x : Flagged α} {k : α → Writing ε σ β} {s : σ}
    {f : α → Checked ε (β × σ)} (hk : Implements (k x.val) s (f x.val)) :
    Implements (liftM x >>= k) s (liftM x >>= f) :=
  bind_checked (x := liftM x) fun a ha => by rwa [← Except.ok.inj ha]

/-- Either branch. -/
theorem ite {c : Prop} [Decidable c] {w w' : Writing ε σ α} {s : σ} {x x' : Checked ε (α × σ)}
    (h : c → Implements w s x) (h' : ¬ c → Implements w' s x') :
    Implements (if c then w else w') s (if c then x else x') := by
  split
  · exact h ‹_›
  · exact h' ‹_›

end Implements

/-! ### Looking at the flag -/

/-- A program that fails in the end if the flag was raised. -/
def ensuring (e : ε) (w : Writing ε σ α) : Writing ε σ α := do
  let a ← w
  if ← flag then throw e else pure a

/-- What a program that looks at the flag in the end returns and leaves. -/
theorem Implements.ensuring {w : Writing ε σ α} {s : σ} {x : Checked ε (α × σ)}
    (h : Implements w s x) (e : ε) (failed : Bool) :
    ∃ s', (Writing.ensuring e w).exec s failed =
        ((x.outcome >>= fun r =>
          if (failed || x.failed) = true then .error e else .ok r.1), s', failed || x.failed) ∧
      ∀ r, x.outcome = .ok r → s' = r.2 := by
  obtain ⟨s', hexec, hs'⟩ := h failed
  refine ⟨s', ?_, hs'⟩
  cases hx : x.outcome with
  | error e' =>
      rw [hx] at hexec
      exact exec_bind_error hexec
  | ok r =>
      rw [hx] at hexec
      rw [Writing.ensuring, exec_bind_ok hexec, exec_bind_ok (exec_flag s' _), Except.ok_bind']
      split <;> rfl

/-! ### Working on a copy -/

/-- A program that works on the copy `copy s` of the state: what it leaves is merged back by
`merge`, unless it fails. -/
def onCopy (copy : σ → σ) (merge : σ → σ → σ) (w : Writing ε σ α) : Writing ε σ α :=
  fun s failed =>
    match w (copy s) failed with
    | (.ok a, s', failed) => (.ok a, merge s s', failed)
    | (.error e, _, failed) => (.error e, s, failed)

/-- What a program that works on a copy returns and leaves. -/
theorem exec_onCopy {copy : σ → σ} {merge : σ → σ → σ} {w : Writing ε σ α} {s s' : σ}
    {failed failed' : Bool} {result : Except ε α}
    (h : w.exec (copy s) failed = (result, s', failed')) :
    (onCopy copy merge w).exec s failed =
      (result, if result.isOk then merge s s' else s, failed') := by
  simp only [exec, onCopy] at h ⊢
  rw [h]
  cases result <;> rfl

end Writing
