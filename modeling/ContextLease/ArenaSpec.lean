/-
What the operations do to an arena.

For each operation one inversion lemma lists the ways it can end, with all that is known of each.
The invariants of an arena are derived from these lemmas and not from the operations.

Main results:

* `prepare_cases`, `prepareBegin_cases`, `prepareCommit_cases`, `recordUsage_cases` — how an
  operation can end;
* `step_calibrations` — only a usage report changes a calibration, and only its own;
* `Reachable.clamped` — every multiplier of a reachable state is clamped to at least one.
-/

import ContextLease.PrepareSpec

set_option relaxedAutoImplicit false
set_option autoImplicit false

namespace ContextLease

open MachineNumbers RustText

variable {F : Type} [FloatOps F]

/-! ### How an operation can end -/

section Cases

variable (P : Platform) (arena : ContextLeaseArena F) (env : Env)

theorem prepare_cases (request : PrepareRequest F) (counter : Option TokenCounter)
    (s : ArenaState F) :
    (∃ e, prepare P arena env request counter s = (.error e, s)) ∨
      ∃ plan s', prepare P arena env request counter s = (.ok plan, s') ∧
        PreparedCall P arena request [] counter (safetyMultiplier s request.model) plan s s' :=
  prepareLocked_cases P arena env request [] counter (safetyMultiplier s request.model) s

theorem prepareBegin_cases (request : PrepareRequest F) (counter : Option TokenCounter)
    (s : ArenaState F) :
    (∃ e, prepareBegin P arena env request counter s = (.error e, s)) ∨
      (∃ plan s', prepareBegin P arena env request counter s =
          (.ok ⟨"ready", some plan, []⟩, s') ∧
        PreparedCall P arena request [] counter (safetyMultiplier s request.model) plan s s') ∨
      ∃ requests, requests ≠ [] ∧
        planSemanticRequests P arena request counter (safetyMultiplier s request.model) =
          .ok requests ∧
        prepareBegin P arena env request counter s =
          (.ok ⟨"needs_semantic", none, requests⟩, s) := by
  unfold prepareBegin
  cases hplan : planSemanticRequests P arena request counter
    (safetyMultiplier s request.model) with
  | error e => exact Or.inl ⟨e, rfl⟩
  | ok requests =>
      cases requests with
      | nil =>
          rcases prepare_cases P arena env request counter s with ⟨e, heq⟩ | ⟨plan, s', heq, hcall⟩
          · unfold prepare at heq
            exact Or.inl ⟨e, by simp only [heq]⟩
          · unfold prepare at heq
            exact Or.inr (Or.inl ⟨plan, s', by simp only [heq], hcall⟩)
      | cons q qs => exact Or.inr (Or.inr ⟨_, List.cons_ne_nil q qs, rfl, rfl⟩)

theorem prepareCommit_cases (request : PrepareRequest F) (results : List SemanticResult)
    (counter : Option TokenCounter) (s : ArenaState F) :
    (∃ e, prepareCommit P arena env request results counter s = (.error e, s)) ∨
      ∃ plan s', prepareCommit P arena env request results counter s = (.ok plan, s') ∧
        PreparedCall P arena request results counter (safetyMultiplier s request.model) plan s
          s' := by
  unfold prepareCommit
  split
  · exact Or.inl ⟨_, rfl⟩
  · split
    · exact Or.inl ⟨_, rfl⟩
    · exact prepareLocked_cases P arena env request results counter
        (safetyMultiplier s request.model) s

theorem recordUsage_cases (observation : UsageObservation) (s : ArenaState F) :
    (∃ e, recordUsage arena env observation s = (.error e, s)) ∨
      ∃ recent s', s.recentUsage observation.requestId = some recent ∧
        0 ≤ observation.actualInputTokens ∧
        recordUsage arena env observation s = (.ok (observe recent observation.actualInputTokens
          (s.calibrations recent.key)), s') ∧
        s'.calibrations = s.calibrations.insert recent.key
          (observe recent observation.actualInputTokens (s.calibrations recent.key)) ∧
        s'.recentUsage = s.recentUsage.remove observation.requestId := by
  unfold recordUsage
  split
  · exact Or.inl ⟨_, rfl⟩
  · rename_i hvalid
    rw [Bool.or_eq_true, not_or, decide_eq_true_eq, not_lt] at hvalid
    split
    · exact Or.inl ⟨_, rfl⟩
    · rename_i recent hrecent
      refine Or.inr ⟨recent, _, hrecent, hvalid.2, rfl, ?_, ?_⟩
      · simp only [calibrations_pushEvent]
      · simp only [recentUsage_pushEvent]

end Cases

/-! ### Calibrations -/

section Calibrations

variable (P : Platform) (arena : ContextLeaseArena F)

/-- Only a usage report changes a calibration, and only the one of the request it reports on. -/
theorem step_calibrations (s : ArenaState F) (op : Op F) :
    (step P arena s op).calibrations = s.calibrations ∨
      ∃ env observation recent, op = .recordUsage env observation ∧
        s.recentUsage observation.requestId = some recent ∧ 0 ≤ observation.actualInputTokens ∧
        (step P arena s op).calibrations = s.calibrations.insert recent.key
          (observe recent observation.actualInputTokens (s.calibrations recent.key)) := by
  cases op with
  | prepare env request counter =>
      left
      rcases prepare_cases P arena env request counter s with ⟨e, heq⟩ | ⟨plan, s', heq, hcall⟩
      · rw [step, heq]
      · rw [step, heq, hcall.remembers.calibrations]
  | prepareBegin env request counter =>
      left
      rcases prepareBegin_cases P arena env request counter s with
        ⟨e, heq⟩ | ⟨plan, s', heq, hcall⟩ | ⟨requests, -, -, heq⟩
      · rw [step, heq]
      · rw [step, heq, hcall.remembers.calibrations]
      · rw [step, heq]
  | prepareCommit env request results counter =>
      left
      rcases prepareCommit_cases P arena env request results counter s with
        ⟨e, heq⟩ | ⟨plan, s', heq, hcall⟩
      · rw [step, heq]
      · rw [step, heq, hcall.remembers.calibrations]
  | recordUsage env observation =>
      rcases recordUsage_cases arena env observation s with
        ⟨e, heq⟩ | ⟨recent, s', hrecent, hactual, heq, hcal, -⟩
      · left
        rw [step, heq]
      · right
        refine ⟨env, observation, recent, rfl, hrecent, hactual, ?_⟩
        rw [step, heq, hcal]

/-- A step keeps the multipliers clamped. -/
theorem ArenaState.Clamped.step {s : ArenaState F} (h : s.Clamped) (op : Op F) :
    (step P arena s op).Clamped := by
  rcases step_calibrations P arena s op with hsame | ⟨env, observation, recent, -, -, -, hcal⟩
  · intro key calibration hmem
    rw [hsame] at hmem
    exact h key calibration hmem
  · intro key calibration hmem
    rw [hcal] at hmem
    by_cases hkey : key = recent.key
    · subst hkey
      rw [HashMap.insert_self, Option.mem_def, Option.some_inj] at hmem
      rw [← hmem]
      rfl
    · rw [HashMap.insert_of_ne _ _ hkey] at hmem
      exact h key calibration hmem

/-- Every multiplier of a reachable state is clamped to at least one. -/
theorem Reachable.clamped {s : ArenaState F} (h : Reachable P arena s) : s.Clamped := by
  refine Reachable.induction P arena ?_ (fun s op hs => hs.step P arena op) h
  intro key calibration hmem
  cases hmem

/-- A call in a reachable state counts with a multiplier of at least one. -/
theorem Reachable.scales {s : ArenaState F} (h : Reachable P arena s) {request : PrepareRequest F}
    {counter : Option TokenCounter} {a : Admission F}
    (ha : Admitted P arena request counter (safetyMultiplier s request.model) a) :
    a.counts.Scales := by
  obtain ⟨x, hx⟩ := h.clamped.safetyMultiplier_eq request.model
  refine CountContext.scales_of_clamped (x := x) ?_
  rw [ha.counts]
  exact hx

end Calibrations

end ContextLease
