/-
The operations as writes to the locked state.

The same operations as in the model of the arena, statement by statement: every assignment to the
state is a write of its own, and a write stays when a later statement of the call fails.  A call
protects the state by working on a copy, so that only the final merge writes to the state itself;
`prepareInPlace` is the call without that protection.

Main definitions:

* `Work` — programs on the state of an arena;
* `Work.pushEvent`, `Work.moduleLoop`, `Work.transact` — the transaction, write by write;
* `Work.prepareWithResults`, `Work.prepareInPlace` — a call on a copy of the state, and in place;
* `Work.prepareBegin`, `Work.prepareCommit`, `Work.recordUsage` — the other operations;
* `Work.run` — running an operation.
-/

import ContextLease.Committed
import ContextLease.Writing

set_option relaxedAutoImplicit false
set_option autoImplicit false

namespace ContextLease

open MachineNumbers RustText

variable {F : Type} [FloatOps F]

omit [FloatOps F] in
/-- A program on the state of an arena. -/
abbrev Work (F : Type) := Writing ContextLeaseError (ArenaState F)

omit [FloatOps F] in
/-- The local variables of a call. -/
structure Locals (F : Type) where
  traceEvents : List TraceEvent
  moduleUsage : List (ModuleUsage F) := []
  finalChunks : HashMap (List (PromptChunk F)) := HashMap.empty

omit [FloatOps F] in
/-- The transaction with these local variables. -/
def Locals.transaction (vars : Locals F) (s : ArenaState F) : Transaction F :=
  ⟨s, vars.traceEvents, vars.moduleUsage, vars.finalChunks⟩

omit [FloatOps F] in
/-- The local variables of a transaction. -/
def Transaction.locals (tx : Transaction F) : Locals F :=
  ⟨tx.traceEvents, tx.moduleUsage, tx.finalChunks⟩

namespace Work

open Writing

section Programs

variable (P : Platform) (arena : ContextLeaseArena F) (env : Env)

/-- The source's `push_event_locked`. -/
def pushEvent (requestId : Option String) (eventType : String) (payload : List (String × Value))
    (priority : String) : Work F TraceEvent := do
  write fun s => { s with eventSeq := s.eventSeq + 1 }
  let s ← state
  let event : TraceEvent :=
    { eventId := arena.instanceId ++ ":" ++ toString s.eventSeq
      seq := s.eventSeq
      occurredAt := env.occurredAt s.eventSeq
      arenaId := arena.definition.arenaId
      instanceId := arena.instanceId
      requestId := requestId
      eventType := eventType
      schemaVersion := "1.0"
      layoutHash := arena.layoutHash
      policyVersion := arena.definition.policyVersion
      payload := BTreeMap.ofList payload
      priority := priority }
  if s.events.length = 10000 then do
    write fun s => { s with events := s.events.drop 1 }
    write fun s => { s with eventsDropped := s.eventsDropped + 1 }
  write fun s => { s with events := s.events ++ [event] }
  pure event

section Leases

variable (requestId : String)

/-- The loop over the previous leases. -/
def reclaimLeases (next : BTreeMap Lease) :
    List Lease → List TraceEvent → Work F (List TraceEvent)
  | [], trace => pure trace
  | previous :: rest, trace => do
      let reclaimed := P.arith.sub previous.grantedTokens
        (((next.get previous.leaseId).map Lease.grantedTokens).getD 0)
      if reclaimed > 0 then do
        let event ← pushEvent arena env (some requestId) "lease.reclaimed"
          [("lease_id", .string previous.leaseId), ("reclaimed_tokens", .ofInt reclaimed),
            ("borrower_module_id", .string previous.borrowerModuleId)] "state"
        reclaimLeases next rest (trace ++ [event])
      else reclaimLeases next rest trace

/-- The loop over the leases. -/
def grantLeases : List Lease → List TraceEvent → Work F (List TraceEvent)
  | [], trace => pure trace
  | lease :: rest, trace => do
      let s ← state
      let granted := P.arith.sub lease.grantedTokens
        (((s.activeLeases.get lease.leaseId).map Lease.grantedTokens).getD 0)
      if granted > 0 then do
        let event ← pushEvent arena env (some requestId) "lease.granted"
          [("lease_id", .string lease.leaseId), ("granted_tokens", .ofInt granted),
            ("borrower_module_id", .string lease.borrowerModuleId)] "state"
        grantLeases rest (trace ++ [event])
      else grantLeases rest trace

/-- The transaction up to the module loop: the first event and the lease events. -/
def leaseEvents (request : PrepareRequest F) (leases : List Lease) :
    Work F (List TraceEvent) := do
  let started ← pushEvent arena env (some requestId) "request.started"
    [("model_profile_id", .string request.model.modelProfileId),
      ("token_count_mode", .string request.model.countMode)] "state"
  let s ← state
  let previous := env.leaseOrder (s.activeLeases.map Prod.snd)
  let trace ← reclaimLeases P arena env requestId (nextLeases leases) previous [started]
  grantLeases P arena env requestId leases trace

end Leases

section Loop

variable (requestId : String) (counts : CountContext F)
  (contributions : HashMap (ModuleContribution F)) (allocations : List ModuleAllocation)
  (semanticResults : HashMap String)

/-- The event of a module that was compressed. -/
def pushCompressed (m : ModuleDefinition F) (r : Reclaimed F) (trace : List TraceEvent) :
    Work F (List TraceEvent) :=
  if r.after < r.before then do
    let event ← pushEvent arena env (some requestId) "chunk.compressed"
      [("module_id", .string m.moduleId), ("before_tokens", .ofInt r.before),
        ("after_tokens", .ofInt r.after)] "state"
    pure (trace ++ [event])
  else pure trace

/-- The module loop. -/
def moduleLoop : List (ModuleDefinition F) → Locals F → Work F (Locals F)
  | [], vars => pure vars
  | m :: ms, vars => do
      let r ← reclaimModule P counts contributions allocations semanticResults m
      let trace ← pushCompressed arena env requestId m r vars.traceEvents
      let fixed ← counts.countChunks P (r.chunks.filter PromptChunk.fixed)
      let pinned ← counts.countChunks P (r.chunks.filter (countsAsPinned m))
      -- the insertion returns what was there before
      let s ← state
      let previous := s.previousUsage m.moduleId
      write fun s => { s with previousUsage := s.previousUsage.insert m.moduleId r.after }
      moduleLoop ms
        { traceEvents := trace
          moduleUsage := vars.moduleUsage ++
            [moduleUsageOf P env allocations m ⟨r.before, r.after, fixed, pinned⟩ previous]
          finalChunks := vars.finalChunks.insert m.moduleId r.chunks }

end Loop

/-- The `while` loop over the order of the remembered requests.  Every round drops one of them, so
a fuel of their number is never used up. -/
def expireUsage : ℕ → Work F Unit
  | 0 => pure ()
  | fuel + 1 => do
      let s ← state
      if s.recentUsageOrder.length > 2048 then do
        write fun s => { s with recentUsageOrder := s.recentUsageOrder.drop 1 }
        match s.recentUsageOrder with
        | expired :: _ => write fun s => { s with recentUsage := s.recentUsage.remove expired }
        | [] => pure ()
        expireUsage fuel

/-- The bookkeeping of `recent_usage`. -/
def rememberUsage (requestId : String) (usage : RecentUsage) : Work F Unit := do
  write fun s => { s with recentUsage := s.recentUsage.insert requestId usage }
  write fun s => { s with
    recentUsageOrder := s.recentUsageOrder.filter fun id => id != requestId }
  write fun s => { s with recentUsageOrder := s.recentUsageOrder ++ [requestId] }
  let s ← state
  expireUsage s.recentUsageOrder.length

/-- The end of a transaction: the last events, the snapshot and the bookkeeping of the request. -/
def publish (request : PrepareRequest F) (requestId : String) (admission : Admission F)
    (rendered : String) (promptTokens usable : ℤ) (modulePlans : List (PreparedModulePlan F))
    (vars : Locals F) : Work F (PreparedContextPlan F) := do
  let prepared ← pushEvent arena env (some requestId) "request.prepared"
    [("prompt_tokens", .ofInt promptTokens), ("input_budget_tokens", .ofInt usable)] "state"
  write fun s => { s with snapshotSeq := s.snapshotSeq + 1 }
  let s ← state
  let snapshot := takeSnapshot P arena env request requestId promptTokens usable
    admission.leases (vars.transaction s)
  write fun s => { s with latestSnapshot := some snapshot }
  let published ← pushEvent arena env (some requestId) "snapshot.published"
    [("snapshot_seq", .ofInt snapshot.snapshotSeq)] "gauge"
  rememberUsage requestId
    ⟨request.model.modelProfileId, request.model.tokenizerId, request.model.tokenizerVersion,
      promptTokens⟩
  let vars := { vars with traceEvents := vars.traceEvents ++ [prepared] ++ [published] }
  pure (preparedPlan P arena request requestId admission rendered promptTokens usable modulePlans
    snapshot (vars.transaction s))

/-- The transaction of a request, up to the check of the callback. -/
def transact (request : PrepareRequest F) (results : List SemanticResult)
    (admission : Admission F) : Work F (PreparedContextPlan F) := do
  let counts := admission.counts
  write fun s => { s with requestSeq := s.requestSeq + 1 }
  let s ← state
  let requestId := requestName arena request s.requestSeq
  let trace ← leaseEvents P arena env requestId request admission.leases
  let vars ← moduleLoop P arena env requestId counts admission.contributions
    admission.allocations (semanticResultsOf results) (orderedModules arena.definition)
    { traceEvents := trace }
  write fun s => { s with activeLeases := nextLeases admission.leases }
  let rendered := renderedText arena.definition vars.finalChunks
  let promptTokens ← counts.countText P rendered
  let usable := P.arith.sub admission.inputBudget arena.definition.frameworkReserveTokens
  if promptTokens > usable then
    throw ⟨"admission_error", "rendered context exceeds usable budget"⟩
  else do
    let modulePlans ← Flagged.traverse
      (fun p => modulePlan P counts admission.allocations vars.finalChunks p.1 p.2)
      ((orderedModules arena.definition).zip vars.moduleUsage)
    publish P arena env request requestId admission rendered promptTokens usable modulePlans vars

/-- What a failed callback of the host fails with. -/
def callbackFailed : ContextLeaseError :=
  ⟨"tokenizer_callback_failed", "host tokenizer callback returned an error"⟩

/-- A call whose transaction writes to the state itself. -/
def prepareInPlace (request : PrepareRequest F) (results : List SemanticResult)
    (counter : Option TokenCounter) : Work F (PreparedContextPlan F) := do
  let s ← state
  let admission ← admitRequest P arena request counter (safetyMultiplier s request.model)
  ensuring callbackFailed (transact P arena env request results admission)

/-- The source's `prepare_with_counter_and_semantic_results`. -/
def prepareWithResults (request : PrepareRequest F) (results : List SemanticResult)
    (counter : Option TokenCounter) : Work F (PreparedContextPlan F) := do
  let s ← state
  let admission ← admitRequest P arena request counter (safetyMultiplier s request.model)
  onCopy ArenaState.beginTransaction ArenaState.commitTransaction
    (ensuring callbackFailed (transact P arena env request results admission))

/-- The source's `prepare`. -/
def prepare (request : PrepareRequest F) (counter : Option TokenCounter) :
    Work F (PreparedContextPlan F) :=
  prepareWithResults P arena env request [] counter

/-- The source's `prepare_begin`. -/
def prepareBegin (request : PrepareRequest F) (counter : Option TokenCounter) :
    Work F (PrepareBeginOutcome F) := do
  let s ← state
  match planSemanticRequests P arena request counter (safetyMultiplier s request.model) with
  | .error e => throw e
  | .ok [] => do
      let plan ← prepareWithResults P arena env request [] counter
      pure ⟨"ready", some plan, []⟩
  | .ok requests => pure ⟨"needs_semantic", none, requests⟩

/-- The source's `prepare_commit`. -/
def prepareCommit (request : PrepareRequest F) (results : List SemanticResult)
    (counter : Option TokenCounter) : Work F (PreparedContextPlan F) := do
  let s ← state
  match planSemanticRequests P arena request counter (safetyMultiplier s request.model) with
  | .error e => throw e
  | .ok expected =>
      match checkResults (expected.map SemanticRequest.semanticRequestId) [] results with
      | .error e => throw e
      | .ok () => prepareWithResults P arena env request results counter

/-- The source's `record_usage`. -/
def recordUsage (observation : UsageObservation) : Work F (UsageCalibration F) :=
  if isBlank observation.requestId || decide (observation.actualInputTokens < 0) then
    throw ⟨"configuration_error",
      "usage observation requires request_id and non-negative actual_input_tokens"⟩
  else do
    let s ← state
    let removed := s.recentUsage observation.requestId
    write fun s => { s with recentUsage := s.recentUsage.remove observation.requestId }
    match removed with
    | none =>
        throw ⟨"usage_observation_unknown", "unknown request_id " ++ observation.requestId⟩
    | some recent => do
        write fun s => { s with
          recentUsageOrder := s.recentUsageOrder.filter fun id => id != observation.requestId }
        let s ← state
        let calibration :=
          observe recent observation.actualInputTokens (s.calibrations recent.key)
        write fun s => { s with calibrations := s.calibrations.insert recent.key calibration }
        let event ← pushEvent arena env (some observation.requestId) "usage.calibrated"
          [("sample_count", .ofInt calibration.sampleCount),
            ("estimated_input_tokens", .ofInt calibration.lastEstimatedTokens),
            ("actual_input_tokens", .ofInt calibration.lastActualTokens),
            ("safety_multiplier", .number (FloatOps.text calibration.safetyMultiplier))] "state"
        let s ← state
        write fun s' => { s' with
          latestSnapshot := s'.latestSnapshot.map fun snapshot =>
            snapshot.calibrated calibration event.seq s.eventsDropped }
        pure calibration

end Programs

/-- Running an operation: its result, and the state it leaves. -/
def run {α : Type} (w : Work F α) (s : ArenaState F) : Result α × ArenaState F :=
  ((w.exec s false).1, (w.exec s false).2.1)

end Work

end ContextLease
