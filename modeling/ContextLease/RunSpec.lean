/-
What the operations of a run do.

An operation leaves the state as it is, commits the writes of a decided call, or records a usage
report; what each of these leaves is known field by field.  Every invariant of a run is derived
from this one case distinction.

Main definitions:

* `Op.call`, `planOf`, `plans` — the call an operation makes, and the plans it returns;
* `committed`, `reported` — the state after a committed call and after a usage report;
* `StepOutcome` — the ways an operation can end.

Main results:

* `step_outcome` — every operation ends in one of these ways;
* `run_induction` — an invariant of the states and the plans of a run.
-/

import ContextLease.TransactSpec
import ContextLease.ArenaSpec

set_option relaxedAutoImplicit false
set_option autoImplicit false

namespace ContextLease

open MachineNumbers RustText

variable {F : Type} [FloatOps F]

/-! ### Calls and plans -/

/-- What a call prepares. -/
structure Call (F : Type) where
  env : Env
  request : PrepareRequest F
  results : List SemanticResult := []
  counter : Option TokenCounter := none

omit [FloatOps F] in
/-- The call an operation makes, unless it reports usage. -/
def Op.call : Op F → Option (Call F)
  | .prepare env request counter => some ⟨env, request, [], counter⟩
  | .prepareBegin env request counter => some ⟨env, request, [], counter⟩
  | .prepareCommit env request results counter => some ⟨env, request, results, counter⟩
  | .recordUsage _ _ => none

section Runs

variable (P : Platform) (arena : ContextLeaseArena F)

/-- The plan an operation returns. -/
def planOf (s : ArenaState F) : Op F → Option (PreparedContextPlan F)
  | .prepare env request counter => (prepare P arena env request counter s).1.toOption
  | .prepareBegin env request counter =>
      (prepareBegin P arena env request counter s).1.toOption.bind PrepareBeginOutcome.prepared
  | .prepareCommit env request results counter =>
      (prepareCommit P arena env request results counter s).1.toOption
  | .recordUsage _ _ => none

/-- The plans of a run. -/
def plans : ArenaState F → List (Op F) → List (PreparedContextPlan F)
  | _, [] => []
  | s, op :: ops => (planOf P arena s op).toList ++ plans (step P arena s op) ops

/-! ### How an operation can end -/

/-- The decision of a call in a state. -/
def Call.decision (call : Call F) (s : ArenaState F) : Result (Admission F × Settled F) :=
  ContextLease.decision P arena call.request call.results call.counter
    (safetyMultiplier s call.request.model)

/-- The plan of a decided call. -/
def Call.plan (call : Call F) (admission : Admission F) (settled : Settled F) (s : ArenaState F) :
    PreparedContextPlan F :=
  callPlan P arena call.env call.request admission settled s.beginTransaction

/-- The state after a decided call is committed. -/
def Call.committed (call : Call F) (admission : Admission F) (settled : Settled F)
    (s : ArenaState F) : ArenaState F :=
  s.commitTransaction (callState P arena call.env call.request admission settled s.beginTransaction)

/-- What is reported of a calibration. -/
def calibratedDraft (calibration : UsageCalibration F) : EventDraft :=
  ⟨"usage.calibrated", BTreeMap.ofList
    [("sample_count", .ofInt calibration.sampleCount),
      ("estimated_input_tokens", .ofInt calibration.lastEstimatedTokens),
      ("actual_input_tokens", .ofInt calibration.lastActualTokens),
      ("safety_multiplier", .number (FloatOps.text calibration.safetyMultiplier))], "state"⟩

/-- The state after a usage report on a remembered request. -/
def reported (env : Env) (observation : UsageObservation) (recent : RecentUsage)
    (s : ArenaState F) : ArenaState F :=
  let calibration := observe recent observation.actualInputTokens (s.calibrations recent.key)
  let emitted := s.emit arena env (some observation.requestId) [calibratedDraft calibration]
  { emitted with
    recentUsage := s.recentUsage.remove observation.requestId
    recentUsageOrder := s.recentUsageOrder.filter fun id => id != observation.requestId
    calibrations := s.calibrations.insert recent.key calibration
    latestSnapshot := s.latestSnapshot.map fun snapshot =>
      snapshot.calibrated calibration (s.eventSeq + 1) emitted.eventsDropped }

/-- The ways an operation can end: the plan it returns and the state it leaves. -/
inductive StepOutcome (s : ArenaState F) (op : Op F) :
    Option (PreparedContextPlan F) → ArenaState F → Prop
  | unchanged : StepOutcome s op none s
  | prepared {call : Call F} {admission : Admission F} {settled : Settled F}
      (hcall : op.call = some call)
        (hdecided : call.decision P arena s = .ok (admission, settled)) :
      StepOutcome s op (some (call.plan P arena admission settled s))
        (call.committed P arena admission settled s)
  | reported {env : Env} {observation : UsageObservation} {recent : RecentUsage}
      (hop : op = .recordUsage env observation)
      (hblank : isBlank observation.requestId = false)
      (hactual : 0 ≤ observation.actualInputTokens)
      (hrecent : s.recentUsage observation.requestId = some recent) :
      StepOutcome s op none (reported arena env observation recent s)

variable {P arena}

theorem prepareWithResults_eq (call : Call F) (s : ArenaState F) :
    prepareWithResults P arena call.env call.request call.results call.counter s =
      match call.decision P arena s with
      | .ok (admission, settled) =>
          (.ok (call.plan P arena admission settled s),
            call.committed P arena admission settled s)
      | .error e => (.error e, s) :=
  prepareLocked_eq P arena call.env call.request call.results call.counter _ s

theorem recordUsage_eq (env : Env) (observation : UsageObservation) (s : ArenaState F) :
    recordUsage arena env observation s =
      if isBlank observation.requestId || decide (observation.actualInputTokens < 0) then
        (fail "configuration_error"
          "usage observation requires request_id and non-negative actual_input_tokens", s)
      else
        match s.recentUsage observation.requestId with
        | none =>
            (fail "usage_observation_unknown" ("unknown request_id " ++ observation.requestId), s)
        | some recent =>
            (.ok (observe recent observation.actualInputTokens (s.calibrations recent.key)),
              reported arena env observation recent s) := by
  simp only [recordUsage, pushEvent_eq]
  rfl

/-- Every operation ends in one of these ways. -/
theorem step_outcome (s : ArenaState F) (op : Op F) :
    StepOutcome P arena s op (planOf P arena s op) (step P arena s op) := by
  cases op with
  | prepare env request counter =>
      rw [planOf, step, prepare, prepareWithResults_eq ⟨env, request, [], counter⟩ s]
      cases hdecided : Call.decision P arena ⟨env, request, [], counter⟩ s with
      | error e => exact .unchanged
      | ok decided => exact .prepared rfl hdecided
  | prepareBegin env request counter =>
      rw [planOf, step, prepareBegin]
      split
      · exact .unchanged
      · rw [prepareWithResults_eq ⟨env, request, [], counter⟩ s]
        cases hdecided : Call.decision P arena ⟨env, request, [], counter⟩ s with
        | error e => exact .unchanged
        | ok decided => exact .prepared rfl hdecided
      · exact .unchanged
  | prepareCommit env request results counter =>
      rw [planOf, step, prepareCommit]
      split
      · exact .unchanged
      · split
        · exact .unchanged
        · rw [prepareWithResults_eq ⟨env, request, results, counter⟩ s]
          cases hdecided : Call.decision P arena ⟨env, request, results, counter⟩ s with
          | error e => exact .unchanged
          | ok decided => exact .prepared rfl hdecided
  | recordUsage env observation =>
      rw [planOf, step, recordUsage_eq]
      split
      · exact .unchanged
      · rename_i hvalid
        rw [Bool.or_eq_true, not_or, decide_eq_true_eq, not_lt, Bool.not_eq_true] at hvalid
        split
        · exact .unchanged
        · rename_i recent hrecent
          exact .reported rfl hvalid.1 hvalid.2 hrecent

/-- A plan that an operation returns is the plan of its call. -/
theorem call_of_planOf {s : ArenaState F} {op : Op F} {plan : PreparedContextPlan F}
    (h : planOf P arena s op = some plan) : ∃ call admission settled, op.call = some call ∧
      call.decision P arena s = .ok (admission, settled) ∧
      plan = call.plan P arena admission settled s ∧
      step P arena s op = call.committed P arena admission settled s := by
  have houtcome : StepOutcome P arena s op (planOf P arena s op) (step P arena s op) :=
    step_outcome s op
  rw [h] at houtcome
  generalize hstep : step P arena s op = s' at houtcome
  cases houtcome with
  | prepared hcall hdecided => exact ⟨_, _, _, hcall, hdecided, rfl, rfl⟩

/-- An invariant of the states of a run and of the plans it has returned. -/
theorem run_induction {motive : ArenaState F → List (PreparedContextPlan F) → Prop}
    (hstep : ∀ s ps op plan s', motive s ps → StepOutcome P arena s op plan s' →
      motive s' (ps ++ plan.toList)) {s : ArenaState F} {ps : List (PreparedContextPlan F)}
    (h : motive s ps) (ops : List (Op F)) :
    motive (run P arena s ops) (ps ++ plans P arena s ops) := by
  induction ops generalizing s ps with
  | nil => rwa [plans, List.append_nil]
  | cons op ops ih =>
      rw [plans, ← List.append_assoc]
      exact ih (hstep s ps op _ _ h (step_outcome s op))

end Runs

end ContextLease
