/-
The operations of an arena.

Every operation is a function of the state behind the lock.  `prepare` reads the multiplier of its
model in a critical section of its own, so it is split into that read and `prepareLocked`.  A run
is any sequence of operations, successful or not, from the state of a new arena.

Main definitions:

* `prepareLocked`, `prepareWithResults` — the preparation of a request;
* `planSemanticRequests`, `prepareBegin`, `prepareCommit` — the two phases of a semantic request;
* `recordUsage` — the calibration by reported usage;
* `snapshot`, `eventsAfter` — what a host may look at;
* `Op`, `step`, `run`, `Reachable` — operations and runs.
-/

import ContextLease.Prepare

set_option relaxedAutoImplicit false
set_option autoImplicit false

namespace ContextLease

open MachineNumbers RustText

variable {F : Type} [FloatOps F]

section Operations

variable (P : Platform) (arena : ContextLeaseArena F) (env : Env)

/-! ### Preparing -/

/-- The second critical section of `prepare`: the writes of the transaction reach the state only
when it is committed. -/
def prepareLocked (request : PrepareRequest F) (results : List SemanticResult)
    (counter : Option TokenCounter) (multiplier : F) (s : ArenaState F) :
    Result (PreparedContextPlan F) × ArenaState F :=
  let attempt := do
    let admission ← admitRequest P arena request counter multiplier
    transact P arena env request results admission s.beginTransaction
  match ensureValid attempt with
  | .ok (plan, transaction) => (.ok plan, s.commitTransaction transaction)
  | .error e => (.error e, s)

/-- The source's `prepare_with_counter_and_semantic_results`. -/
def prepareWithResults (request : PrepareRequest F) (results : List SemanticResult)
    (counter : Option TokenCounter) (s : ArenaState F) :
    Result (PreparedContextPlan F) × ArenaState F :=
  prepareLocked P arena env request results counter (safetyMultiplier s request.model) s

/-- The source's `prepare`. -/
def prepare (request : PrepareRequest F) (counter : Option TokenCounter) (s : ArenaState F) :
    Result (PreparedContextPlan F) × ArenaState F :=
  prepareWithResults P arena env request [] counter s

/-! ### The two phases -/

section Plan

variable (counts : CountContext F) (contributions : HashMap (ModuleContribution F))
  (allocations : List ModuleAllocation)

/-- The requests of one module. -/
def planModule (m : ModuleDefinition F) : Checked ContextLeaseError (List SemanticRequest) := do
  let before ← counts.countChunks P (chunksOf contributions m)
  if before > (allocationOf allocations m).allocatedTokens then
    collectSemanticRequests P counts m (chunksOf contributions m)
      (allocationOf allocations m).allocatedTokens
  else pure []

/-- The module loop of `plan_semantic_requests`. -/
def planLoop : List (ModuleDefinition F) → Checked ContextLeaseError (List SemanticRequest)
  | [] => pure []
  | m :: ms => do
      let requests ← planModule P counts contributions allocations m
      let rest ← planLoop ms
      pure (requests ++ rest)

end Plan

/-- The source's `plan_semantic_requests`, with the multiplier it reads. -/
def planSemanticRequests (request : PrepareRequest F) (counter : Option TokenCounter)
    (multiplier : F) : Result (List SemanticRequest) :=
  ensureValid do
    let admission ← admitRequest P arena request counter multiplier
    planLoop P admission.counts admission.contributions admission.allocations
      (orderedModules arena.definition)

/-- The source's `prepare_begin`. -/
def prepareBegin (request : PrepareRequest F) (counter : Option TokenCounter) (s : ArenaState F) :
    Result (PrepareBeginOutcome F) × ArenaState F :=
  match planSemanticRequests P arena request counter (safetyMultiplier s request.model) with
  | .error e => (.error e, s)
  | .ok [] =>
      match prepareWithResults P arena env request [] counter s with
      | (.ok plan, s) => (.ok ⟨"ready", some plan, []⟩, s)
      | (.error e, s) => (.error e, s)
  | .ok requests => (.ok ⟨"needs_semantic", none, requests⟩, s)

/-- The loop of `prepare_commit` over the results; `seen` are the ids seen so far. -/
def checkResults (expected : List String) : List String → List SemanticResult → Result Unit
  | _, [] => .ok ()
  | seen, r :: rs => do
      rejectIf (seen.contains r.semanticRequestId) "semantic_result_duplicate"
        ("duplicate semantic result " ++ r.semanticRequestId)
      rejectIf (!expected.contains r.semanticRequestId) "semantic_result_unexpected"
        ("unexpected semantic result " ++ r.semanticRequestId)
      checkResults expected (r.semanticRequestId :: seen) rs

/-- The source's `prepare_commit`. -/
def prepareCommit (request : PrepareRequest F) (results : List SemanticResult)
    (counter : Option TokenCounter) (s : ArenaState F) :
    Result (PreparedContextPlan F) × ArenaState F :=
  match planSemanticRequests P arena request counter (safetyMultiplier s request.model) with
  | .error e => (.error e, s)
  | .ok expected =>
      match checkResults (expected.map SemanticRequest.semanticRequestId) [] results with
      | .error e => (.error e, s)
      | .ok () => prepareWithResults P arena env request results counter s

/-! ### Calibration -/

/-- The calibration of a model after one more observation. -/
def observe (recent : RecentUsage) (actualInputTokens : ℤ)
    (previous : Option (UsageCalibration F)) : UsageCalibration F :=
  let ratio : F :=
    if recent.estimatedTokens ≤ 0 then FloatOps.ofInt 1
    else FloatOps.div (FloatOps.ofInt actualInputTokens) (FloatOps.ofInt recent.estimatedTokens)
  let entry : UsageCalibration F := previous.getD
    { modelProfileId := recent.modelProfileId
      tokenizerId := recent.tokenizerId
      tokenizerVersion := recent.tokenizerVersion
      sampleCount := 0
      ewmaRatio := FloatOps.ofInt 1
      safetyMultiplier := FloatOps.ofInt 1
      lastEstimatedTokens := 0
      lastActualTokens := 0 }
  let ewma : F :=
    if entry.sampleCount + 1 = 1 then ratio
    else FloatOps.add (FloatOps.mul (FloatOps.ofRat (1 / 5)) ratio)
      (FloatOps.mul (FloatOps.ofRat (4 / 5)) entry.ewmaRatio)
  { entry with
    sampleCount := entry.sampleCount + 1
    ewmaRatio := ewma
    safetyMultiplier := FloatOps.max ewma (FloatOps.ofRat 1)
    lastEstimatedTokens := recent.estimatedTokens
    lastActualTokens := actualInputTokens }

/-- The calibration key of a remembered request. -/
def RecentUsage.key (recent : RecentUsage) : String :=
  calibrationKeyParts recent.modelProfileId recent.tokenizerId recent.tokenizerVersion

/-- The snapshot after a calibration. -/
def ArenaSnapshot.calibrated (snapshot : ArenaSnapshot F) (calibration : UsageCalibration F)
    (eventSeq eventsDropped : ℕ) : ArenaSnapshot F :=
  { snapshot with
    calibration := some calibration
    health := (snapshot.health.insert "last_calibration_event_seq" (.ofInt eventSeq)).insert
      "events_dropped" (.ofInt eventsDropped) }

/-- The source's `record_usage`, whose writes all reach the state. -/
def recordUsage (observation : UsageObservation) (s : ArenaState F) :
    Result (UsageCalibration F) × ArenaState F :=
  if isBlank observation.requestId || decide (observation.actualInputTokens < 0) then
    (fail "configuration_error"
      "usage observation requires request_id and non-negative actual_input_tokens", s)
  else
    match s.recentUsage observation.requestId with
    | none =>
        (fail "usage_observation_unknown" ("unknown request_id " ++ observation.requestId), s)
    | some recent =>
        let calibration :=
          observe recent observation.actualInputTokens (s.calibrations recent.key)
        let s := { s with
          recentUsage := s.recentUsage.remove observation.requestId
          recentUsageOrder := s.recentUsageOrder.filter fun id => id != observation.requestId
          calibrations := s.calibrations.insert recent.key calibration }
        let pushed := pushEvent arena env s (some observation.requestId) "usage.calibrated"
          (BTreeMap.ofList
            [("sample_count", .ofInt calibration.sampleCount),
              ("estimated_input_tokens", .ofInt calibration.lastEstimatedTokens),
              ("actual_input_tokens", .ofInt calibration.lastActualTokens),
              ("safety_multiplier", .number (FloatOps.text calibration.safetyMultiplier))])
          "state"
        (.ok calibration, { pushed.2 with
          latestSnapshot := pushed.2.latestSnapshot.map fun snapshot =>
            snapshot.calibrated calibration pushed.1.seq pushed.2.eventsDropped })

/-! ### Reading -/

/-- The source's `snapshot`. -/
def snapshot (s : ArenaState F) : Option (ArenaSnapshot F) := s.latestSnapshot

/-- The source's `events_after`. -/
def eventsAfter (s : ArenaState F) (afterSeq limit : ℕ) : List TraceEvent :=
  (s.events.filter fun event => afterSeq < event.seq).take (min (max limit 1) 10000)

end Operations

/-! ### Runs -/

/-- An operation of a host on an arena, with what the call meets. -/
inductive Op (F : Type)
  | prepare (env : Env) (request : PrepareRequest F) (counter : Option TokenCounter)
  | prepareBegin (env : Env) (request : PrepareRequest F) (counter : Option TokenCounter)
  | prepareCommit (env : Env) (request : PrepareRequest F) (results : List SemanticResult)
      (counter : Option TokenCounter)
  | recordUsage (env : Env) (observation : UsageObservation)

/-- What an operation meets. -/
def Op.env {F : Type} : Op F → Env
  | .prepare env _ _ => env
  | .prepareBegin env _ _ => env
  | .prepareCommit env _ _ _ => env
  | .recordUsage env _ => env

section Runs

variable (P : Platform) (arena : ContextLeaseArena F)

/-- The state after an operation. -/
def step (s : ArenaState F) : Op F → ArenaState F
  | .prepare env request counter => (prepare P arena env request counter s).2
  | .prepareBegin env request counter => (prepareBegin P arena env request counter s).2
  | .prepareCommit env request results counter =>
      (prepareCommit P arena env request results counter s).2
  | .recordUsage env observation => (recordUsage arena env observation s).2

/-- The state after a sequence of operations. -/
def run (s : ArenaState F) (ops : List (Op F)) : ArenaState F := ops.foldl (step P arena) s

/-- The states of an arena over its life. -/
def Reachable (s : ArenaState F) : Prop := ∃ ops, s = run P arena {} ops

/-- An invariant of the operations that a new arena satisfies holds in every reachable state. -/
theorem Reachable.induction {motive : ArenaState F → Prop} (hinit : motive {})
    (hstep : ∀ s op, motive s → motive (step P arena s op)) {s : ArenaState F}
    (h : Reachable P arena s) : motive s := by
  obtain ⟨ops, rfl⟩ := h
  suffices hrun : ∀ (ops : List (Op F)) (s : ArenaState F), motive s →
      motive (run P arena s ops) from hrun ops {} hinit
  intro ops
  induction ops with
  | nil => exact fun s hs => hs
  | cons op ops ih => exact fun s hs => ih _ (hstep s op hs)

end Runs

/-! ### An arena and a request -/

/-- An arena of the example definition. -/
def exampleArena : ContextLeaseArena ℚ where
  definition := exampleDefinition
  layoutHash := "layout"
  instanceId := "notes-1-1"
  valid := by decide +kernel

/-- A request whose history outgrows its allocation. -/
def exampleRequest : PrepareRequest ℚ where
  model := { modelProfileId := "model", contextLimitTokens := 18, reservedOutputTokens := 4 }
  contributions :=
    [{ moduleId := "system"
       chunks := [{ chunkId := "rules", content := .string "Answer in one sentence.",
                    priority := 1 }] },
     { moduleId := "history"
       chunks := [{ chunkId := "talk", priority := 1, requiredTerms := ["Monday"]
                    content := .string "We met on Monday. Bye now." }] }]

theorem exampleRequest_rendered :
    ((prepare (Library.ascii id).release exampleArena default exampleRequest none {}).1.map
      PreparedContextPlan.rendered).toOption =
      some "Answer in one sentence.\n\nWe met on Monday. Bye" := by decide +kernel

theorem exampleRequest_prepared :
    ∃ plan, (prepare (Library.ascii id).release exampleArena default exampleRequest none {}).1 =
      .ok plan := by
  obtain ⟨plan, hplan, -⟩ := exists_ok_of_map exampleRequest_rendered
  exact ⟨plan, hplan⟩

end ContextLease
