/-
Preparing a request.

A call first decides, from the request and the multiplier of its model alone, what the modules are
allocated.  Under the lock it then runs a transaction: the lease events, the module loop with its
reclaims, the rendering with the final check, the snapshot and the bookkeeping of the request.

Main definitions:

* `admitRequest`, `Admission` — everything before the lock, which planning the semantic requests
  shares;
* `reclaimModule`, `recordModule`, `moduleLoop` — the module loop;
* `renderModule`, `renderedText` — the rendering;
* `transact` — the transaction of a request.
-/

import ContextLease.State
import ContextLease.Compress
import ContextLease.Allocate

set_option relaxedAutoImplicit false
set_option autoImplicit false

namespace ContextLease

open MachineNumbers RustText

variable {F : Type} [FloatOps F]

/-! ### Before the lock -/

/-- The checks of the plan, the model and the counter. -/
def checkRequest (request : PrepareRequest F) (counter : Option TokenCounter) : Result Unit := do
  validatePlan request
  validateModel request.model
  rejectIf (request.model.countMode == "exact" && counter.isNone) "tokenizer_unavailable"
    "exact count mode requires a host token counter"

/-- The chunks a module was given. -/
def chunksOf (contributions : HashMap (ModuleContribution F)) (m : ModuleDefinition F) :
    List (PromptChunk F) :=
  match contributions m.moduleId with
  | some contribution => contribution.chunks
  | none => []

section Admit

variable (P : Platform) (counts : CountContext F)
  (contributions : HashMap (ModuleContribution F))

/-- The number of modules that have something to render. -/
def renderedModuleCount (definition : ArenaDefinition F) : ℕ :=
  (definition.modules.filter fun m =>
    (chunksOf contributions m).any fun chunk => !(render chunk.content).isEmpty).length

/-- The source's `render_separator_tokens`. -/
def renderSeparatorTokens (definition : ArenaDefinition F) : Flagged ℤ :=
  let count := renderedModuleCount contributions definition
  if count ≤ 1 then pure 0
  else counts.countText P (String.join (List.replicate (count - 1) "\n\n"))

/-- The demand of a module: what was observed, or else what its chunks count. -/
def moduleDemand (m : ModuleDefinition F) : Flagged ℤ := do
  let calculated ← counts.countChunks P (chunksOf contributions m)
  pure (max (((contributions m.moduleId).bind ModuleContribution.observedDemandTokens).getD
    calculated) 0)

/-- The demands of the modules. -/
def demandsOf (definition : ArenaDefinition F) : Flagged (String → ℤ) := do
  let demands ← Flagged.traverse (moduleDemand P counts contributions) definition.modules
  pure fun id =>
    (((definition.modules.map ModuleDefinition.moduleId).zip demands).lookup id).getD 0

end Admit

/-- What a call knows when it takes the lock. -/
structure Admission (F : Type) where
  counts : CountContext F
  inputBudget : ℤ
  contributions : HashMap (ModuleContribution F)
  allocationInputBudget : ℤ
  demands : String → ℤ
  allocations : List ModuleAllocation
  leases : List Lease

/-- What `prepare` and `plan_semantic_requests` both do with the multiplier they have read. -/
def admitRequest (P : Platform) (arena : ContextLeaseArena F) (request : PrepareRequest F)
    (counter : Option TokenCounter) (multiplier : F) : Checked ContextLeaseError (Admission F) := do
  checkRequest request counter
  let counts : CountContext F := ⟨request.model.tokenizerId, counter, multiplier⟩
  let inputBudget :=
    P.arith.sub request.model.contextLimitTokens request.model.reservedOutputTokens
  let contributions ← validateContributions arena.definition request.contributions
  let overhead ← renderSeparatorTokens P counts contributions arena.definition
  let allocationInputBudget := P.arith.sub inputBudget overhead
  validateModelBudget P.arith arena.definition allocationInputBudget
  let demands ← demandsOf P counts contributions arena.definition
  let (allocations, leases) ← allocate P.arith arena.definition demands arena.layoutHash
    allocationInputBudget
  pure ⟨counts, inputBudget, contributions, allocationInputBudget, demands, allocations, leases⟩

/-- The source's `allocation_by_id[id]`. -/
def allocationOf (allocations : List ModuleAllocation) (m : ModuleDefinition F) :
    ModuleAllocation :=
  (allocations.find? fun a => a.moduleId == m.moduleId).getD default

/-! ### The module loop -/

/-- The source's `pressure`. -/
def pressure (F : Type) [FloatOps F] (used budget : ℤ) : String :=
  let ratio : F := FloatOps.div (FloatOps.ofInt used) (FloatOps.ofInt (max budget 1))
  if FloatOps.lt (FloatOps.ofInt 1) ratio then "overflow"
  else if FloatOps.le (FloatOps.ofRat (9 / 10)) ratio then "critical"
  else if FloatOps.le (FloatOps.ofRat (7 / 10)) ratio then "elevated"
  else "normal"

/-- What a call changes under the lock: the copy of the state, and what it returns. -/
structure Transaction (F : Type) where
  state : ArenaState F
  traceEvents : List TraceEvent := []
  moduleUsage : List (ModuleUsage F) := []
  finalChunks : HashMap (List (PromptChunk F)) := HashMap.empty

/-- An event of the call, pushed to the copy of the state and returned. -/
def Transaction.push (arena : ContextLeaseArena F) (env : Env) (requestId : String)
    (eventType : String) (payload : List (String × Value)) (priority : String)
    (tx : Transaction F) : Transaction F :=
  let pushed := pushEvent arena env tx.state (some requestId) eventType (BTreeMap.ofList payload)
    priority
  { tx with state := pushed.2, traceEvents := tx.traceEvents ++ [pushed.1] }

/-- A module after its reclaim: its chunks, and its tokens before and after. -/
structure Reclaimed (F : Type) where
  chunks : List (PromptChunk F)
  before : ℤ
  after : ℤ

section Loop

variable (P : Platform) (arena : ContextLeaseArena F) (env : Env) (requestId : String)
  (counts : CountContext F) (contributions : HashMap (ModuleContribution F))
  (allocations : List ModuleAllocation) (semanticResults : HashMap String)

/-- The reclaim of a module that exceeds its allocation. -/
def reclaimModule (m : ModuleDefinition F) : Checked ContextLeaseError (Reclaimed F) := do
  let chunks := chunksOf contributions m
  let before ← counts.countChunks P chunks
  if before > (allocationOf allocations m).allocatedTokens then do
    let (chunks, after) ← compressModule P counts m chunks
      (allocationOf allocations m).allocatedTokens semanticResults
    pure ⟨chunks, before, after⟩
  else pure ⟨chunks, before, before⟩

/-- A chunk that counts as pinned in the usage of its module. -/
def countsAsPinned (m : ModuleDefinition F) (c : PromptChunk F) : Bool :=
  m.protection == "pinned" || c.protection == "pinned"

/-- The event and the usage of a module. -/
def recordModule (m : ModuleDefinition F) (r : Reclaimed F) (tx : Transaction F) :
    Flagged (Transaction F) := do
  let tx :=
    if r.after < r.before then
      tx.push arena env requestId "chunk.compressed"
        [("module_id", .string m.moduleId), ("before_tokens", .ofInt r.before),
          ("after_tokens", .ofInt r.after)] "state"
    else tx
  let fixedTokens ← counts.countChunks P (r.chunks.filter PromptChunk.fixed)
  let pinnedTokens ← counts.countChunks P (r.chunks.filter (countsAsPinned m))
  let allocation := allocationOf allocations m
  -- a module without a previous usage has changed by nothing
  let previous := (tx.state.previousUsage m.moduleId).getD r.after
  let usage : ModuleUsage F :=
    { moduleId := m.moduleId
      floorTokens := allocation.floorTokens
      targetTokens := allocation.targetTokens
      maxTokens := allocation.maxTokens
      demandedTokens := allocation.demandedTokens
      allocatedTokens := allocation.allocatedTokens
      usedTokens := r.after
      fixedTokens := fixedTokens
      variableTokens := max (P.arith.sub r.after fixedTokens) 0
      pinnedTokens := pinnedTokens
      elasticTokens := max (P.arith.sub r.after pinnedTokens) 0
      reclaimableTokens := max (P.arith.sub r.after pinnedTokens) 0
      minimumRetainedTokens := pinnedTokens
      localCapacityTokens := allocation.localCapacityTokens
      borrowedCapacityTokens := allocation.borrowedCapacityTokens
      lentCapacityTokens := allocation.lentCapacityTokens
      compressedFromTokens := r.before
      compressedToTokens := r.after
      compressionRatio :=
        if r.before = 0 then FloatOps.ofInt 1
        else FloatOps.div (FloatOps.ofInt r.after) (FloatOps.ofInt r.before)
      changeRate := FloatOps.div (FloatOps.ofInt (P.arith.sub r.after previous))
        (FloatOps.ofInt (max previous 1))
      pressure := pressure F r.after allocation.allocatedTokens
      lastUpdatedAt := env.now }
  pure { tx with
    state := { tx.state with previousUsage := tx.state.previousUsage.insert m.moduleId r.after }
    moduleUsage := tx.moduleUsage ++ [usage]
    finalChunks := tx.finalChunks.insert m.moduleId r.chunks }

/-- The module loop. -/
def moduleLoop : List (ModuleDefinition F) → Transaction F →
    Checked ContextLeaseError (Transaction F)
  | [], tx => pure tx
  | m :: ms, tx => do
      let r ← reclaimModule P counts contributions allocations semanticResults m
      let tx ← recordModule P arena env requestId counts allocations m r tx
      moduleLoop ms tx

end Loop

/-! ### Rendering -/

/-- The text of a module. -/
def renderModule (chunks : List (PromptChunk F)) : String :=
  "\n\n".intercalate
    ((chunks.map fun c => render c.content).filter fun text => !text.isEmpty)

/-- The text of a prompt. -/
def renderedText (definition : ArenaDefinition F) (finalChunks : HashMap (List (PromptChunk F))) :
    String :=
  "\n\n".intercalate
    (((orderedModules definition).map fun m =>
      renderModule ((finalChunks m.moduleId).getD [])).filter fun text => !text.isEmpty)

section Plans

variable (P : Platform) (counts : CountContext F)

/-- A chunk of a plan. -/
def preparedChunk (m : ModuleDefinition F) (chunk : PromptChunk F) :
    Flagged (PreparedChunk F) := do
  let tokenCount ← counts.countContent P chunk.content
  pure
    { chunkId := chunk.chunkId
      kind := chunk.kind
      content := chunk.content
      fixed := chunk.fixed
      protection := chunk.protection
      priority := chunk.priority
      requiredTerms := chunk.requiredTerms
      dependencyGroup := chunk.dependencyGroup
      metadata := chunk.metadata
      tokenCount := tokenCount
      compressed := chunk.chunkId == m.moduleId ++ ":compressed"
      sourceChunkIds :=
        match (chunk.metadata.get "source_chunk_ids").bind Value.asArray with
        | some values => values.filterMap Value.asStr
        | none => [chunk.chunkId] }

/-- The plan of a module. -/
def modulePlan (allocations : List ModuleAllocation)
    (finalChunks : HashMap (List (PromptChunk F))) (m : ModuleDefinition F)
    (usage : ModuleUsage F) : Flagged (PreparedModulePlan F) := do
  let chunks ← Flagged.traverse (preparedChunk P counts m) ((finalChunks m.moduleId).getD [])
  pure
    { moduleId := m.moduleId
      renderTarget := m.renderTarget
      allocation := allocationOf allocations m
      usage := usage
      chunks := chunks }

end Plans

/-! ### The transaction -/

section Transact

variable (P : Platform) (arena : ContextLeaseArena F) (env : Env)

/-- The source's `next_leases`. -/
def nextLeases (leases : List Lease) : BTreeMap Lease :=
  BTreeMap.ofList (leases.map fun l => (l.leaseId, l))

/-- The event of a lease that shrank or ended. -/
def reclaimLease (requestId : String) (next : BTreeMap Lease) (previous : Lease)
    (tx : Transaction F) : Transaction F :=
  -- a lease that ended has no tokens left
  let reclaimed := P.arith.sub previous.grantedTokens
    (((next.get previous.leaseId).map Lease.grantedTokens).getD 0)
  if reclaimed > 0 then
    tx.push arena env requestId "lease.reclaimed"
      [("lease_id", .string previous.leaseId), ("reclaimed_tokens", .ofInt reclaimed),
        ("borrower_module_id", .string previous.borrowerModuleId)] "state"
  else tx

/-- The event of a lease that grew or is new. -/
def grantLease (requestId : String) (lease : Lease) (tx : Transaction F) : Transaction F :=
  let granted := P.arith.sub lease.grantedTokens
    (((tx.state.activeLeases.get lease.leaseId).map Lease.grantedTokens).getD 0)
  if granted > 0 then
    tx.push arena env requestId "lease.granted"
      [("lease_id", .string lease.leaseId), ("granted_tokens", .ofInt granted),
        ("borrower_module_id", .string lease.borrowerModuleId)] "state"
  else tx

/-- The transaction up to the module loop: the first event and the lease events. -/
def leaseEvents (requestId : String) (request : PrepareRequest F) (leases : List Lease)
    (tx : Transaction F) : Transaction F :=
  let tx := tx.push arena env requestId "request.started"
    [("model_profile_id", .string request.model.modelProfileId),
      ("token_count_mode", .string request.model.countMode)] "state"
  let previous := env.leaseOrder (tx.state.activeLeases.map Prod.snd)
  let tx := previous.foldl
    (fun tx l => reclaimLease P arena env requestId (nextLeases leases) l tx) tx
  leases.foldl (fun tx l => grantLease P arena env requestId l tx) tx

/-- The bookkeeping of `recent_usage`. -/
def ArenaState.rememberUsage (s : ArenaState F) (requestId : String) (usage : RecentUsage) :
    ArenaState F :=
  -- a repeated id moves to the end, and what is longest ago expires
  let order := s.recentUsageOrder.filter (fun id => id != requestId) ++ [requestId]
  let expired := order.take (order.length - 2048)
  { s with
    recentUsage := expired.foldl HashMap.remove (s.recentUsage.insert requestId usage)
    recentUsageOrder := order.drop (order.length - 2048) }

/-- The name of a request: the host's, or a generated one. -/
def requestName (arena : ContextLeaseArena F) (request : PrepareRequest F) (seq : ℕ) : String :=
  match request.requestId with
  | some id => if isBlank id then arena.definition.arenaId ++ ":" ++ toString seq else id
  | none => arena.definition.arenaId ++ ":" ++ toString seq

/-- The source's `semantic_results`: the results by id, where a later one replaces an earlier
one. -/
def semanticResultsOf (results : List SemanticResult) : HashMap String :=
  results.foldl (fun m r => m.insert r.semanticRequestId r.content) HashMap.empty

/-- The snapshot of a request. -/
def takeSnapshot (request : PrepareRequest F) (requestId : String)
    (promptTokens usable : ℤ) (leases : List Lease) (tx : Transaction F) : ArenaSnapshot F where
  schemaVersion := "1.0"
  arenaId := arena.definition.arenaId
  instanceId := arena.instanceId
  snapshotSeq := tx.state.snapshotSeq
  capturedAt := env.capturedAt
  requestId := some requestId
  modelProfileId := request.model.modelProfileId
  tokenizerId := request.model.tokenizerId
  tokenizerVersion := request.model.tokenizerVersion
  tokenCountMode := request.model.countMode
  layoutHash := arena.layoutHash
  policyVersion := arena.definition.policyVersion
  contextLimitTokens := request.model.contextLimitTokens
  reservedOutputTokens := request.model.reservedOutputTokens
  frameworkReserveTokens := arena.definition.frameworkReserveTokens
  inputBudgetTokens := usable
  usedTokens := promptTokens
  slackTokens := P.arith.sub usable promptTokens
  utilization := FloatOps.div (FloatOps.ofInt promptTokens) (FloatOps.ofInt (max usable 1))
  pressure := pressure F promptTokens usable
  modules := tx.moduleUsage
  leases := leases
  calibration := tx.state.calibrations (calibrationKey request.model)
  health := BTreeMap.ofList
    [("events_dropped", .ofInt tx.state.eventsDropped), ("core_version", .string coreVersion)]

/-- The plan a call returns. -/
def preparedPlan (request : PrepareRequest F) (requestId : String) (admission : Admission F)
    (rendered : String) (promptTokens usable : ℤ) (modulePlans : List (PreparedModulePlan F))
    (snapshot : ArenaSnapshot F) (tx : Transaction F) : PreparedContextPlan F where
  schemaVersion := "1.0"
  coreVersion := coreVersion
  arenaId := arena.definition.arenaId
  instanceId := arena.instanceId
  requestId := requestId
  layoutHash := arena.layoutHash
  policyVersion := arena.definition.policyVersion
  modelProfileId := request.model.modelProfileId
  tokenizerId := request.model.tokenizerId
  tokenizerVersion := request.model.tokenizerVersion
  tokenCountMode := request.model.countMode
  contextLimitTokens := request.model.contextLimitTokens
  reservedOutputTokens := request.model.reservedOutputTokens
  frameworkReserveTokens := arena.definition.frameworkReserveTokens
  rendered := rendered
  promptTokens := promptTokens
  inputBudgetTokens := usable
  slackTokens := P.arith.sub usable promptTokens
  pressure := pressure F promptTokens usable
  allocations := admission.allocations
  leases := admission.leases
  modules := tx.moduleUsage
  modulePlans := modulePlans
  traceEvents := tx.traceEvents
  snapshot := snapshot
  calibration := snapshot.calibration

/-- The end of a transaction: the last events, the snapshot and the bookkeeping of the request. -/
def publish (request : PrepareRequest F) (requestId : String) (admission : Admission F)
    (rendered : String) (promptTokens usable : ℤ) (modulePlans : List (PreparedModulePlan F))
    (tx : Transaction F) : PreparedContextPlan F × ArenaState F :=
  let tx := tx.push arena env requestId "request.prepared"
    [("prompt_tokens", .ofInt promptTokens), ("input_budget_tokens", .ofInt usable)] "state"
  let tx := { tx with state := { tx.state with snapshotSeq := tx.state.snapshotSeq + 1 } }
  let snapshot := takeSnapshot P arena env request requestId promptTokens usable
    admission.leases tx
  let tx := { tx with state := { tx.state with latestSnapshot := some snapshot } }
  let tx := tx.push arena env requestId "snapshot.published"
    [("snapshot_seq", .ofInt snapshot.snapshotSeq)] "gauge"
  (preparedPlan P arena request requestId admission rendered promptTokens usable modulePlans
      snapshot tx,
    tx.state.rememberUsage requestId
      ⟨request.model.modelProfileId, request.model.tokenizerId, request.model.tokenizerVersion,
        promptTokens⟩)

/-- The transaction of a request, on the copy `state` of the state. -/
def transact (request : PrepareRequest F) (results : List SemanticResult)
    (admission : Admission F) (state : ArenaState F) :
    Checked ContextLeaseError (PreparedContextPlan F × ArenaState F) := do
  let counts := admission.counts
  let state := { state with requestSeq := state.requestSeq + 1 }
  let requestId := requestName arena request state.requestSeq
  let tx := leaseEvents P arena env requestId request admission.leases { state := state }
  let tx ← moduleLoop P arena env requestId counts admission.contributions admission.allocations
    (semanticResultsOf results) (orderedModules arena.definition) tx
  let tx := { tx with state := { tx.state with activeLeases := nextLeases admission.leases } }
  let rendered := renderedText arena.definition tx.finalChunks
  let promptTokens ← counts.countText P rendered
  let usable := P.arith.sub admission.inputBudget arena.definition.frameworkReserveTokens
  if promptTokens > usable then
    throw ⟨"admission_error", "rendered context exceeds usable budget"⟩
  else do
    let modulePlans ← Flagged.traverse
      (fun p => modulePlan P counts admission.allocations tx.finalChunks p.1 p.2)
      ((orderedModules arena.definition).zip tx.moduleUsage)
    pure (publish P arena env request requestId admission rendered promptTokens usable modulePlans
      tx)

end Transact

end ContextLease
