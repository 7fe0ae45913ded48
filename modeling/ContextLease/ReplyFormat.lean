/-
The replies of the kernel, as the package reads them.

The kernel writes its records field by field as JSON objects, and the package makes records of its
own of what it reads: it looks every field up by its name, converts it, takes the texts of an
enumeration only when they name one of its members, and the time at which it reads where a time is
missing or cannot be read.  When a record has texts of members and of times only, the package reads
what the kernel has written, apart from the name under which it publishes; each lease bears the time
at which it has been read.

Main definitions:

* `Lease.toValue`, `PreparedContextPlan.toValue`, .. — what the kernel writes;
* `PythonReads` — the conversions of Python;
* `Reading` — what the package reads while it looks at the clock;
* `Reply.readLease`, `Reply.readPlan`, .. — what the package reads;
* `ArenaSnapshot.Readable`, `PreparedContextPlan.Readable` — the texts name members of enumerations
  and times.

Main results:

* `readSnapshot_toValue`, `readPlan_toValue` — the package reads what the kernel has written.
-/

import ContextLease.HostConfig
import ContextLease.HostPipeline
import ContextLease.HostTimes
import ContextLease.Observation

set_option relaxedAutoImplicit false
set_option autoImplicit false

namespace ContextLease

open MachineNumbers

variable {F : Type} [FloatOps F]

/-! ### What the kernel writes -/

/-- An optional field. -/
def ofOption {α : Type} (toValue : α → Value) : Option α → Value
  | some a => toValue a
  | none => .null

/-- A list of texts. -/
def ofTexts (texts : List String) : Value := .array (texts.map .string)

/-- A float. -/
def ofFloat (x : F) : Value := .number (FloatOps.text x)

/-- The source's `derive(Serialize)` for an allocation. -/
def ModuleAllocation.toValue (a : ModuleAllocation) : Value :=
  .object
    [("module_id", .string a.moduleId),
     ("floor_tokens", .ofInt a.floorTokens),
     ("target_tokens", .ofInt a.targetTokens),
     ("max_tokens", .ofInt a.maxTokens),
     ("demanded_tokens", .ofInt a.demandedTokens),
     ("allocated_tokens", .ofInt a.allocatedTokens),
     ("local_capacity_tokens", .ofInt a.localCapacityTokens),
     ("borrowed_capacity_tokens", .ofInt a.borrowedCapacityTokens),
     ("lent_capacity_tokens", .ofInt a.lentCapacityTokens)]

/-- The source's `derive(Serialize)` for a lease. -/
def Lease.toValue (l : Lease) : Value :=
  .object
    [("lease_id", .string l.leaseId),
     ("donor_module_id", .string l.donorModuleId),
     ("borrower_module_id", .string l.borrowerModuleId),
     ("granted_tokens", .ofInt l.grantedTokens),
     ("currently_used_tokens", .ofInt l.currentlyUsedTokens),
     ("reclaimable_tokens", .ofInt l.reclaimableTokens),
     ("release_pipeline", ofTexts l.releasePipeline),
     ("state", .string l.state)]

/-- The source's `derive(Serialize)` for a usage. -/
def ModuleUsage.toValue (u : ModuleUsage F) : Value :=
  .object
    [("module_id", .string u.moduleId),
     ("floor_tokens", .ofInt u.floorTokens),
     ("target_tokens", .ofInt u.targetTokens),
     ("max_tokens", .ofInt u.maxTokens),
     ("demanded_tokens", .ofInt u.demandedTokens),
     ("allocated_tokens", .ofInt u.allocatedTokens),
     ("used_tokens", .ofInt u.usedTokens),
     ("fixed_tokens", .ofInt u.fixedTokens),
     ("variable_tokens", .ofInt u.variableTokens),
     ("pinned_tokens", .ofInt u.pinnedTokens),
     ("elastic_tokens", .ofInt u.elasticTokens),
     ("reclaimable_tokens", .ofInt u.reclaimableTokens),
     ("minimum_retained_tokens", .ofInt u.minimumRetainedTokens),
     ("local_capacity_tokens", .ofInt u.localCapacityTokens),
     ("borrowed_capacity_tokens", .ofInt u.borrowedCapacityTokens),
     ("lent_capacity_tokens", .ofInt u.lentCapacityTokens),
     ("compressed_from_tokens", .ofInt u.compressedFromTokens),
     ("compressed_to_tokens", .ofInt u.compressedToTokens),
     ("compression_ratio", ofFloat u.compressionRatio),
     ("change_rate", ofFloat u.changeRate),
     ("pressure", .string u.pressure),
     ("last_updated_at", .string u.lastUpdatedAt)]

/-- The source's `derive(Serialize)` for a chunk of a plan. -/
def PreparedChunk.toValue (c : PreparedChunk F) : Value :=
  .object
    [("chunk_id", .string c.chunkId),
     ("kind", .string c.kind),
     ("content", c.content),
     ("fixed", .bool c.fixed),
     ("protection", .string c.protection),
     ("priority", ofFloat c.priority),
     ("required_terms", ofTexts c.requiredTerms),
     ("dependency_group", ofOption .string c.dependencyGroup),
     ("metadata", .object c.metadata),
     ("token_count", .ofInt c.tokenCount),
     ("compressed", .bool c.compressed),
     ("source_chunk_ids", ofTexts c.sourceChunkIds)]

/-- The source's `derive(Serialize)` for the plan of a module. -/
def PreparedModulePlan.toValue (p : PreparedModulePlan F) : Value :=
  .object
    [("module_id", .string p.moduleId),
     ("render_target", .string p.renderTarget),
     ("allocation", p.allocation.toValue),
     ("usage", p.usage.toValue),
     ("chunks", .array (p.chunks.map PreparedChunk.toValue))]

/-- The source's `derive(Serialize)` for a calibration. -/
def UsageCalibration.toValue (c : UsageCalibration F) : Value :=
  .object
    [("model_profile_id", .string c.modelProfileId),
     ("tokenizer_id", .string c.tokenizerId),
     ("tokenizer_version", .string c.tokenizerVersion),
     ("sample_count", .ofInt c.sampleCount),
     ("ewma_ratio", ofFloat c.ewmaRatio),
     ("safety_multiplier", ofFloat c.safetyMultiplier),
     ("last_estimated_tokens", .ofInt c.lastEstimatedTokens),
     ("last_actual_tokens", .ofInt c.lastActualTokens)]

/-- The source's `derive(Serialize)` for an event. -/
def TraceEvent.toValue (e : TraceEvent) : Value :=
  .object
    [("event_id", .string e.eventId),
     ("seq", .ofInt e.seq),
     ("occurred_at", .string e.occurredAt),
     ("arena_id", .string e.arenaId),
     ("instance_id", .string e.instanceId),
     ("request_id", ofOption .string e.requestId),
     ("event_type", .string e.eventType),
     ("schema_version", .string e.schemaVersion),
     ("layout_hash", .string e.layoutHash),
     ("policy_version", .string e.policyVersion),
     ("payload", .object e.payload),
     ("priority", .string e.priority)]

/-- The source's `derive(Serialize)` for a snapshot. -/
def ArenaSnapshot.toValue (s : ArenaSnapshot F) : Value :=
  .object
    [("schema_version", .string s.schemaVersion),
     ("arena_id", .string s.arenaId),
     ("instance_id", .string s.instanceId),
     ("snapshot_seq", .ofInt s.snapshotSeq),
     ("captured_at", .string s.capturedAt),
     ("request_id", ofOption .string s.requestId),
     ("model_profile_id", .string s.modelProfileId),
     ("tokenizer_id", .string s.tokenizerId),
     ("tokenizer_version", .string s.tokenizerVersion),
     ("token_count_mode", .string s.tokenCountMode),
     ("layout_hash", .string s.layoutHash),
     ("policy_version", .string s.policyVersion),
     ("context_limit_tokens", .ofInt s.contextLimitTokens),
     ("reserved_output_tokens", .ofInt s.reservedOutputTokens),
     ("framework_reserve_tokens", .ofInt s.frameworkReserveTokens),
     ("input_budget_tokens", .ofInt s.inputBudgetTokens),
     ("used_tokens", .ofInt s.usedTokens),
     ("slack_tokens", .ofInt s.slackTokens),
     ("utilization", ofFloat s.utilization),
     ("pressure", .string s.pressure),
     ("modules", .array (s.modules.map ModuleUsage.toValue)),
     ("leases", .array (s.leases.map Lease.toValue)),
     ("calibration", ofOption UsageCalibration.toValue s.calibration),
     ("health", .object s.health)]

/-- The source's `derive(Serialize)` for a plan. -/
def PreparedContextPlan.toValue (p : PreparedContextPlan F) : Value :=
  .object
    [("schema_version", .string p.schemaVersion),
     ("core_version", .string p.coreVersion),
     ("arena_id", .string p.arenaId),
     ("instance_id", .string p.instanceId),
     ("request_id", .string p.requestId),
     ("layout_hash", .string p.layoutHash),
     ("policy_version", .string p.policyVersion),
     ("model_profile_id", .string p.modelProfileId),
     ("tokenizer_id", .string p.tokenizerId),
     ("tokenizer_version", .string p.tokenizerVersion),
     ("token_count_mode", .string p.tokenCountMode),
     ("context_limit_tokens", .ofInt p.contextLimitTokens),
     ("reserved_output_tokens", .ofInt p.reservedOutputTokens),
     ("framework_reserve_tokens", .ofInt p.frameworkReserveTokens),
     ("rendered", .string p.rendered),
     ("prompt_tokens", .ofInt p.promptTokens),
     ("input_budget_tokens", .ofInt p.inputBudgetTokens),
     ("slack_tokens", .ofInt p.slackTokens),
     ("pressure", .string p.pressure),
     ("allocations", .array (p.allocations.map ModuleAllocation.toValue)),
     ("leases", .array (p.leases.map Lease.toValue)),
     ("modules", .array (p.modules.map ModuleUsage.toValue)),
     ("module_plans", .array (p.modulePlans.map PreparedModulePlan.toValue)),
     ("trace_events", .array (p.traceEvents.map TraceEvent.toValue)),
     ("snapshot", p.snapshot.toValue),
     ("calibration", ofOption UsageCalibration.toValue p.calibration)]

/-- The source's `derive(Serialize)` for a semantic request. -/
def SemanticRequest.toValue (r : SemanticRequest) : Value :=
  .object
    [("semantic_request_id", .string r.semanticRequestId),
     ("module_id", .string r.moduleId),
     ("algorithm_id", .string r.algorithmId),
     ("provider_id", .string r.providerId),
     ("source_text", .string r.sourceText),
     ("target_tokens", .ofInt r.targetTokens),
     ("required_terms", ofTexts r.requiredTerms),
     ("options", .object r.options)]

/-- The source's `derive(Serialize)` for what `prepare_begin` returns, which leaves out a plan that
is none and a list that is empty. -/
def PrepareBeginOutcome.toValue (o : PrepareBeginOutcome F) : Value :=
  .object
    ([("status", Value.string o.status)] ++
      (match o.prepared with
        | some plan => [("prepared", plan.toValue)]
        | none => []) ++
      if o.semanticRequests.isEmpty then []
      else [("semantic_requests", .array (o.semanticRequests.map SemanticRequest.toValue))])

/-! ### What the package reads -/

/-- The conversions of Python, for the values that `json.loads` returns.  Floats are finite. -/
structure PythonReads (F : Type) [FloatOps F] where
  /-- `str(value)`. -/
  str : Value → String
  /-- `int(value)`. -/
  int : Value → Except Host.Raised ℤ
  /-- `float(value)`. -/
  float : Value → Except Host.Raised F
  /-- `bool(value)`. -/
  bool : Value → Bool
  /-- The items of `for item in value`. -/
  items : Value → Except Host.Raised (List Value)
  /-- `dict(value)`. -/
  dict : Value → Except Host.Raised (BTreeMap Value)
  /-- `datetime.fromisoformat(text)`, unless it raises a `ValueError`. -/
  fromisoformat : String → Option Host.Datetime
  str_string : ∀ s, str (.string s) = s
  int_ofInt : ∀ n : ℤ, int (.ofInt n) = .ok n
  /-- A float is read from its shortest text. -/
  float_ofFloat : ∀ x : F, float (ofFloat x) = .ok x
  bool_bool : ∀ b, bool (.bool b) = b
  bool_null : bool .null = false
  bool_string : ∀ s, bool (.string s) = (s != "")
  bool_object : ∀ entry entries, bool (.object (entry :: entries)) = true
  items_array : ∀ values, items (.array values) = .ok values
  dict_object : ∀ entries, dict (.object entries) = .ok entries
  /-- A time is read from its text. -/
  fromisoformat_isoMilliseconds : ∀ t : Host.Datetime, t.microsecond % 1000 = 0 →
    fromisoformat t.isoMilliseconds = some t

attribute [simp] PythonReads.str_string PythonReads.int_ofInt PythonReads.float_ofFloat
  PythonReads.bool_bool PythonReads.bool_null PythonReads.bool_object PythonReads.items_array
  PythonReads.dict_object

namespace Host

/-- The source's `LeaseState`. -/
inductive LeaseState
  | active
  | reclaiming
  | reclaimed
  | expired

/-- The source's `Pressure`. -/
inductive Pressure
  | normal
  | elevated
  | critical
  | overflow

/-- The source's `EventPriority`. -/
inductive EventPriority
  | gauge
  | state

instance : StrEnum LeaseState where
  members := [.active, .reclaiming, .reclaimed, .expired]
  value
    | .active => "active"
    | .reclaiming => "reclaiming"
    | .reclaimed => "reclaimed"
    | .expired => "expired"

instance : StrEnum Pressure where
  members := [.normal, .elevated, .critical, .overflow]
  value
    | .normal => "normal"
    | .elevated => "elevated"
    | .critical => "critical"
    | .overflow => "overflow"

instance : StrEnum EventPriority where
  members := [.gauge, .state]
  value
    | .gauge => "gauge"
    | .state => "state"

end Host

/-- The source's `Lease`, which has a time and a reason that the kernel does not write. -/
structure HostLease extends Lease where
  grantedAt : Host.Datetime
  reclaimReason : Value

/-- The source's `ArenaSnapshot`: the record of the kernel, and the leases as the package has
them. -/
structure HostArenaSnapshot (F : Type) where
  snapshot : ArenaSnapshot F
  leases : List HostLease

/-- The source's `PreparedContextPlan`: the record of the kernel, and the leases of the plan and of
its snapshot as the package has them. -/
structure HostContextPlan (F : Type) where
  plan : PreparedContextPlan F
  leases : List HostLease
  snapshotLeases : List HostLease

/-- What is read while the clock is looked at; the state counts how often. -/
abbrev Reading (α : Type) := StateT ℕ (Except Host.Raised) α

namespace Reply

open Host

/-- The source's `value[key]`. -/
def item (value : Value) (key : String) : Except Raised Value :=
  match value with
  | .object entries =>
      match entries.lookup key with
      | some field => .ok field
      | none => .error (.other key)
  | _ => .error (.other key)

/-- The source's `value.get(key, default)`. -/
def getOr (value : Value) (key : String) (default : Value) : Value :=
  match value with
  | .object entries => (entries.lookup key).getD default
  | _ => default

/-- The source's `E(value)`, a member of an enumeration by its text. -/
def member (E : Type) [StrEnum E] (value : Value) : Except Raised String :=
  match value with
  | .string text =>
      match StrEnum.ofValue E text with
      | some e => .ok (StrEnum.value e)
      | none => .error (.other text)
  | _ => .error (.other "")

/-- A text or None, as it is. -/
def optionalText (value : Value) : Except Raised (Option String) :=
  match value with
  | .string text => .ok (some text)
  | .null => .ok none
  | _ => .error (.other "")

variable (py : PythonReads F) (clock : ℕ → Datetime)

/-- The source's `utc_now`. -/
def utcNow : Reading Datetime := fun n => .ok (clock n, n + 1)

/-- The source's `_datetime`; a time is kept as its text. -/
def datetime (value : Value) : Reading String := do
  if py.bool value then
    match value with
    | .string text =>
        match py.fromisoformat (replaceZ text) with
        | some time => return time.text
        | none => return (← utcNow clock).text
    | _ => throw (.other "replace")
  else return (← utcNow clock).text

/-- The source's `tuple(map(str, value))`. -/
def texts (value : Value) : Except Raised (List String) := do
  let items ← py.items value
  return items.map py.str

/-- The source's `tuple(read(item) for item in value)`. -/
def readAll {m : Type → Type} [Monad m] [MonadLiftT (Except Raised) m] {α : Type}
    (read : Value → m α) (value : Value) : m (List α) := do
  let items ← py.items value
  items.mapM read

/-- The source's `_allocation`, which gives every field to the constructor of the record. -/
def readAllocation (value : Value) : Except Raised ModuleAllocation := do
  let entries ← py.dict value
  let fields := ["module_id", "floor_tokens", "target_tokens", "max_tokens", "demanded_tokens",
    "allocated_tokens", "local_capacity_tokens", "borrowed_capacity_tokens",
    "lent_capacity_tokens"]
  if (entries.map Prod.fst).all fields.contains then
    let moduleId ← item value "module_id"
    let floorTokens ← item value "floor_tokens" >>= py.int
    let targetTokens ← item value "target_tokens" >>= py.int
    let maxTokens ← item value "max_tokens" >>= py.int
    let demandedTokens ← item value "demanded_tokens" >>= py.int
    let allocatedTokens ← item value "allocated_tokens" >>= py.int
    let localCapacityTokens ← item value "local_capacity_tokens" >>= py.int
    let borrowedCapacityTokens ← item value "borrowed_capacity_tokens" >>= py.int
    let lentCapacityTokens ← item value "lent_capacity_tokens" >>= py.int
    return { moduleId := py.str moduleId, floorTokens, targetTokens, maxTokens, demandedTokens
             allocatedTokens, localCapacityTokens, borrowedCapacityTokens, lentCapacityTokens }
  else .error (.other "unexpected keyword argument")

/-- The source's `_lease`. -/
def readLease (value : Value) : Reading HostLease := do
  let leaseId ← item value "lease_id"
  let donorModuleId ← item value "donor_module_id"
  let borrowerModuleId ← item value "borrower_module_id"
  let grantedTokens ← py.int (← item value "granted_tokens")
  let currentlyUsedTokens ← py.int (← item value "currently_used_tokens")
  let reclaimableTokens ← py.int (← item value "reclaimable_tokens")
  let releasePipeline ← texts py (getOr value "release_pipeline" (.array []))
  let state ← member LeaseState (getOr value "state" (.string "active"))
  let reclaimReason := getOr value "reclaim_reason" .null
  let grantedAt ← utcNow clock
  return { leaseId := py.str leaseId, donorModuleId := py.str donorModuleId
           borrowerModuleId := py.str borrowerModuleId, grantedTokens, currentlyUsedTokens
           reclaimableTokens, releasePipeline, state, grantedAt, reclaimReason }

/-- The source's `_usage`. -/
def readUsage (value : Value) : Reading (ModuleUsage F) := do
  let moduleId ← item value "module_id"
  let floorTokens ← py.int (← item value "floor_tokens")
  let targetTokens ← py.int (← item value "target_tokens")
  let maxTokens ← py.int (← item value "max_tokens")
  let allocatedTokens ← py.int (← item value "allocated_tokens")
  let demandedTokens ← py.int (← item value "demanded_tokens")
  let usedTokens ← py.int (← item value "used_tokens")
  let fixedTokens ← py.int (← item value "fixed_tokens")
  let variableTokens ← py.int (← item value "variable_tokens")
  let pinnedTokens ← py.int (← item value "pinned_tokens")
  let elasticTokens ← py.int (← item value "elastic_tokens")
  let reclaimableTokens ← py.int (← item value "reclaimable_tokens")
  let minimumRetainedTokens ← py.int (← item value "minimum_retained_tokens")
  let localCapacityTokens ← py.int (← item value "local_capacity_tokens")
  let borrowedCapacityTokens ← py.int (← item value "borrowed_capacity_tokens")
  let lentCapacityTokens ← py.int (← item value "lent_capacity_tokens")
  let compressedFromTokens ← py.int (← item value "compressed_from_tokens")
  let compressedToTokens ← py.int (← item value "compressed_to_tokens")
  let compressionRatio ← py.float (← item value "compression_ratio")
  let changeRate ← py.float (← item value "change_rate")
  let pressure ← member Pressure (← item value "pressure")
  let lastUpdatedAt ← datetime py clock (getOr value "last_updated_at" .null)
  return { moduleId := py.str moduleId, floorTokens, targetTokens, maxTokens, allocatedTokens
           demandedTokens, usedTokens, fixedTokens, variableTokens, pinnedTokens, elasticTokens
           reclaimableTokens, minimumRetainedTokens, localCapacityTokens, borrowedCapacityTokens
           lentCapacityTokens, compressedFromTokens, compressedToTokens, compressionRatio
           changeRate, pressure, lastUpdatedAt }

/-- The source's `_calibration`. -/
def readCalibration (value : Value) : Except Raised (Option (UsageCalibration F)) :=
  if py.bool value then do
    let modelProfileId ← item value "model_profile_id"
    let tokenizerId ← item value "tokenizer_id"
    let tokenizerVersion ← item value "tokenizer_version"
    let sampleCount ← item value "sample_count" >>= py.int
    let ewmaRatio ← item value "ewma_ratio" >>= py.float
    let safetyMultiplier ← item value "safety_multiplier" >>= py.float
    let lastEstimatedTokens ← item value "last_estimated_tokens" >>= py.int
    let lastActualTokens ← item value "last_actual_tokens" >>= py.int
    return some
      { modelProfileId := py.str modelProfileId, tokenizerId := py.str tokenizerId
        tokenizerVersion := py.str tokenizerVersion, sampleCount := sampleCount.toNat, ewmaRatio
        safetyMultiplier, lastEstimatedTokens, lastActualTokens }
  else return none

/-- The source's `PreparedChunk(..)` in `_prepared`. -/
def readChunk (value : Value) : Except Raised (PreparedChunk F) := do
  let chunkId ← item value "chunk_id"
  let kind ← item value "kind"
  let content ← item value "content"
  let fixed ← item value "fixed"
  let protection ← item value "protection" >>= member ProtectionPolicy
  let priority ← item value "priority" >>= py.float
  let requiredTerms ← texts py (getOr value "required_terms" (.array []))
  let dependencyGroup ← optionalText (getOr value "dependency_group" .null)
  let metadata ← py.dict (getOr value "metadata" (.object []))
  let tokenCount ← item value "token_count" >>= py.int
  let compressed ← item value "compressed"
  let sourceChunkIds ← texts py (getOr value "source_chunk_ids" (.array []))
  return { chunkId := py.str chunkId, kind := py.str kind, content, fixed := py.bool fixed
           protection, priority, requiredTerms, dependencyGroup, metadata, tokenCount
           compressed := py.bool compressed, sourceChunkIds }

/-- The source's `PreparedModulePlan(..)` in `_prepared`. -/
def readModulePlan (value : Value) : Reading (PreparedModulePlan F) := do
  let chunks ← (readAll py (readChunk py) (← item value "chunks") : Except _ _)
  let allocation ← readAllocation py (← item value "allocation")
  let usage ← readUsage py clock (← item value "usage")
  let moduleId ← item value "module_id"
  let renderTarget ← member RenderTarget (← item value "render_target")
  return { moduleId := py.str moduleId, renderTarget, allocation, usage, chunks }

/-- The source's `_event`. -/
def readEvent (instanceId : String) (value : Value) : Reading TraceEvent := do
  let eventId ← item value "event_id"
  let seq ← py.int (← item value "seq")
  let occurredAt ← datetime py clock (getOr value "occurred_at" .null)
  let arenaId ← item value "arena_id"
  let requestId ← optionalText (getOr value "request_id" .null)
  let eventType ← item value "event_type"
  let schemaVersion ← item value "schema_version"
  let layoutHash ← item value "layout_hash"
  let policyVersion ← item value "policy_version"
  let payload ← py.dict (getOr value "payload" (.object []))
  let priority ← member EventPriority (getOr value "priority" (.string "state"))
  return { eventId := py.str eventId, seq := seq.toNat, occurredAt, arenaId := py.str arenaId
           instanceId, requestId, eventType := py.str eventType
           schemaVersion := py.str schemaVersion, layoutHash := py.str layoutHash
           policyVersion := py.str policyVersion, payload, priority }

/-- The source's `_snapshot`. -/
def readSnapshot (instanceId : String) (value : Value) : Reading (HostArenaSnapshot F) := do
  let schemaVersion ← item value "schema_version"
  let arenaId ← item value "arena_id"
  let snapshotSeq ← py.int (← item value "snapshot_seq")
  let capturedAt ← datetime py clock (getOr value "captured_at" .null)
  let requestId ← optionalText (getOr value "request_id" .null)
  let modelProfileId ← item value "model_profile_id"
  let tokenizerId ← item value "tokenizer_id"
  let tokenizerVersion ← item value "tokenizer_version"
  let tokenCountMode ← member CountMode (← item value "token_count_mode")
  let layoutHash ← item value "layout_hash"
  let policyVersion ← item value "policy_version"
  let contextLimitTokens ← py.int (← item value "context_limit_tokens")
  let reservedOutputTokens ← py.int (← item value "reserved_output_tokens")
  let frameworkReserveTokens ← py.int (← item value "framework_reserve_tokens")
  let inputBudgetTokens ← py.int (← item value "input_budget_tokens")
  let usedTokens ← py.int (← item value "used_tokens")
  let slackTokens ← py.int (← item value "slack_tokens")
  let utilization ← py.float (← item value "utilization")
  let pressure ← member Pressure (← item value "pressure")
  let modules ← readAll py (readUsage py clock) (← item value "modules")
  let leases ← readAll py (readLease py clock) (← item value "leases")
  let calibration ← readCalibration py (getOr value "calibration" .null)
  let health ← py.dict (getOr value "health" (.object []))
  return { snapshot :=
             { schemaVersion := py.str schemaVersion, arenaId := py.str arenaId, instanceId
               snapshotSeq := snapshotSeq.toNat, capturedAt, requestId
               modelProfileId := py.str modelProfileId, tokenizerId := py.str tokenizerId
               tokenizerVersion := py.str tokenizerVersion, tokenCountMode
               layoutHash := py.str layoutHash, policyVersion := py.str policyVersion
               contextLimitTokens, reservedOutputTokens, frameworkReserveTokens
               inputBudgetTokens, usedTokens, slackTokens, utilization, pressure, modules
               leases := leases.map HostLease.toLease, calibration, health }
           leases }

/-- The source's `_prepared`. -/
def readPlan (instanceIdOverride : Option String) (value : Value) :
    Reading (HostContextPlan F) := do
  let allocations ← (readAll py (readAllocation py) (← item value "allocations") : Except _ _)
  let leases ← readAll py (readLease py clock) (← item value "leases")
  let modules ← readAll py (readUsage py clock) (← item value "modules")
  let modulePlans ← readAll py (readModulePlan py clock) (← item value "module_plans")
  let native ← item value "instance_id"
  let instanceId := publishedInstance instanceIdOverride (py.str native)
  let traceEvents ←
    readAll py (readEvent py clock instanceId) (getOr value "trace_events" (.array []))
  let snapshot ← readSnapshot py clock instanceId (← item value "snapshot")
  let schemaVersion ← item value "schema_version"
  let coreVersion ← item value "core_version"
  let arenaId ← item value "arena_id"
  let requestId ← item value "request_id"
  let layoutHash ← item value "layout_hash"
  let policyVersion ← item value "policy_version"
  let modelProfileId ← item value "model_profile_id"
  let tokenizerId ← item value "tokenizer_id"
  let tokenizerVersion ← item value "tokenizer_version"
  let tokenCountMode ← member CountMode (← item value "token_count_mode")
  let contextLimitTokens ← py.int (← item value "context_limit_tokens")
  let reservedOutputTokens ← py.int (← item value "reserved_output_tokens")
  let frameworkReserveTokens ← py.int (← item value "framework_reserve_tokens")
  let rendered ← item value "rendered"
  let promptTokens ← py.int (← item value "prompt_tokens")
  let inputBudgetTokens ← py.int (← item value "input_budget_tokens")
  let slackTokens ← py.int (← item value "slack_tokens")
  let pressure ← member Pressure (← item value "pressure")
  let calibration ← readCalibration py (getOr value "calibration" .null)
  return { plan :=
             { schemaVersion := py.str schemaVersion, coreVersion := py.str coreVersion
               arenaId := py.str arenaId, instanceId, requestId := py.str requestId
               layoutHash := py.str layoutHash, policyVersion := py.str policyVersion
               modelProfileId := py.str modelProfileId, tokenizerId := py.str tokenizerId
               tokenizerVersion := py.str tokenizerVersion, tokenCountMode, contextLimitTokens
               reservedOutputTokens, frameworkReserveTokens, rendered := py.str rendered
               promptTokens, inputBudgetTokens, slackTokens, pressure, allocations
               leases := leases.map HostLease.toLease, modules, modulePlans, traceEvents
               snapshot := snapshot.snapshot, calibration }
           leases, snapshotLeases := snapshot.leases }

end Reply

/-! ### Readable records -/

/-- A text that names a member of an enumeration. -/
def IsMember (E : Type) [Host.StrEnum E] (text : String) : Prop :=
  ∃ e, Host.StrEnum.ofValue E text = some e

/-- A usage whose texts are read. -/
structure ModuleUsage.Readable (u : ModuleUsage F) : Prop where
  pressure : IsMember Host.Pressure u.pressure
  lastUpdatedAt : IsTimestamp u.lastUpdatedAt

/-- A lease whose state is one. -/
def Lease.Readable (l : Lease) : Prop := IsMember Host.LeaseState l.state

/-- A chunk whose protection is one. -/
def PreparedChunk.Readable (c : PreparedChunk F) : Prop :=
  IsMember Host.ProtectionPolicy c.protection

/-- An event whose texts are read. -/
structure TraceEvent.Readable (e : TraceEvent) : Prop where
  priority : IsMember Host.EventPriority e.priority
  occurredAt : IsTimestamp e.occurredAt

/-- A plan of a module whose texts are read. -/
structure PreparedModulePlan.Readable (p : PreparedModulePlan F) : Prop where
  renderTarget : IsMember Host.RenderTarget p.renderTarget
  usage : p.usage.Readable
  chunks : ∀ c ∈ p.chunks, c.Readable

/-- A snapshot whose texts are read. -/
structure ArenaSnapshot.Readable (s : ArenaSnapshot F) : Prop where
  capturedAt : IsTimestamp s.capturedAt
  tokenCountMode : IsMember Host.CountMode s.tokenCountMode
  pressure : IsMember Host.Pressure s.pressure
  modules : ∀ u ∈ s.modules, u.Readable
  leases : ∀ l ∈ s.leases, l.Readable

/-- A plan whose texts are read. -/
structure PreparedContextPlan.Readable (p : PreparedContextPlan F) : Prop where
  tokenCountMode : IsMember Host.CountMode p.tokenCountMode
  pressure : IsMember Host.Pressure p.pressure
  leases : ∀ l ∈ p.leases, l.Readable
  modules : ∀ u ∈ p.modules, u.Readable
  modulePlans : ∀ m ∈ p.modulePlans, m.Readable
  traceEvents : ∀ e ∈ p.traceEvents, e.Readable
  snapshot : p.snapshot.Readable

/-! ### Round trips -/

namespace Reply

section Fields

variable {key key' : String} {value default : Value} {entries : List (String × Value)}

@[simp] theorem item_cons_self : item (.object ((key, value) :: entries)) key = .ok value := by
  simp [item]

@[simp] theorem item_cons_of_ne (h : key ≠ key') :
    item (.object ((key', value) :: entries)) key = item (.object entries) key := by
  have hne : (key == key') = false := beq_false_of_ne h
  simp [item, List.lookup_cons, hne]

@[simp] theorem getOr_cons_self :
    getOr (.object ((key, value) :: entries)) key default = value := by
  simp [getOr]

@[simp] theorem getOr_cons_of_ne (h : key ≠ key') :
    getOr (.object ((key', value) :: entries)) key default =
      getOr (.object entries) key default := by
  have hne : (key == key') = false := beq_false_of_ne h
  simp [getOr, List.lookup_cons, hne]

theorem member_of_isMember {E : Type} [Host.StrEnum E] {text : String} (h : IsMember E text) :
    member E (.string text) = .ok text := by
  obtain ⟨e, he⟩ := h
  simp only [member, he, Host.StrEnum.value_of_ofValue he]

@[simp] theorem optionalText_ofOption (text : Option String) :
    optionalText (ofOption .string text) = .ok text := by
  cases text <;> rfl

end Fields

/-- A part that has been read leaves the clock alone. -/
@[simp] theorem lift_ok {α : Type} (a : α) :
    (liftM (Except.ok a : Except Host.Raised α) : Reading α) = pure a := rfl

/-- A part that has been read while the clock was looked at; unlike the equation of `bind`, this is
not unfolded to be seen. -/
theorem bind_of_read {α β : Type} {x : Reading α} {n n' : ℕ} {a : α} (h : x n = .ok (a, n'))
    (f : α → Reading β) : (x >>= f) n = f a n' := by
  change StateT.bind x f n = _
  rw [StateT.bind, h]
  rfl

variable (py : PythonReads F) (clock : ℕ → Host.Datetime)

@[simp] theorem texts_ofTexts (l : List String) : texts py (ofTexts l) = .ok l := by
  rw [texts, ofTexts, py.items_array]
  change Except.ok ((l.map Value.string).map py.str) = _
  rw [List.map_map]
  refine congrArg Except.ok (List.map_id'' ?_ l)
  intro text
  exact py.str_string text

/-- A text of the kernel is read as the time of which it is the text. -/
theorem datetime_string {text : String} (h : IsTimestamp text) :
    datetime py clock (.string text) = pure text := by
  obtain ⟨time, hms, rfl⟩ := h.exists_datetime
  have hsome : py.bool (.string time.text) = true := by
    rw [py.bool_string, bne_iff_ne]
    exact h.ne_empty
  rw [datetime, if_pos hsome]
  simp only [replaceZ_text hms, py.fromisoformat_isoMilliseconds time hms]

/-- A list whose items are read. -/
theorem mapM_read {m : Type → Type} [Monad m] [LawfulMonad m] {α β : Type} {read : Value → m β}
    {toValue : α → Value} {made : α → β} {l : List α}
    (h : ∀ a ∈ l, read (toValue a) = pure (made a)) :
    (l.map toValue).mapM read = pure (l.map made) := by
  induction l with
  | nil => rfl
  | cons a l ih =>
      have hrest := ih fun b hb => h b (List.mem_cons_of_mem a hb)
      rw [List.map_cons, List.mapM_cons, h a (List.mem_cons_self ..), hrest, pure_bind, pure_bind,
        List.map_cons]

/-- A list whose items are read without the clock. -/
theorem readAll_pure {α β : Type} {read : Value → Except Host.Raised β} {toValue : α → Value}
    {made : α → β} {l : List α} (h : ∀ a ∈ l, read (toValue a) = .ok (made a)) :
    readAll py read (.array (l.map toValue)) = .ok (l.map made) := by
  rw [readAll, py.items_array]
  exact mapM_read h

/-- A list whose items are read and leave the clock alone. -/
theorem readAll_map {α β : Type} {read : Value → Reading β} {toValue : α → Value}
    {made : α → β} {l : List α} (h : ∀ a ∈ l, read (toValue a) = pure (made a)) :
    readAll py read (.array (l.map toValue)) = pure (l.map made) := by
  rw [readAll, py.items_array]
  exact mapM_read h

/-- A list whose items are read as they are. -/
theorem readAll_self {α : Type} {read : Value → Reading α} {toValue : α → Value}
    {l : List α} (h : ∀ a ∈ l, read (toValue a) = pure a) :
    readAll py read (.array (l.map toValue)) = pure l := by
  have hread := readAll_map py h
  rwa [List.map_id'] at hread

theorem readAllocation_toValue (a : ModuleAllocation) :
    readAllocation py a.toValue = .ok a := by
  simp [readAllocation, ModuleAllocation.toValue]

/-- The leases of the kernel, as they are read one after the other. -/
def grantedFrom (n : ℕ) (leases : List Lease) : List HostLease :=
  (leases.zipIdx n).map fun (lease, i) =>
    { lease with grantedAt := clock i, reclaimReason := .null }

theorem toLease_grantedFrom (n : ℕ) (leases : List Lease) :
    (grantedFrom clock n leases).map HostLease.toLease = leases := by
  rw [grantedFrom, List.map_map]
  exact List.zipIdx_map_fst n leases

/-- A lease is read as it has been written, at the time of reading. -/
theorem readLease_toValue {l : Lease} (h : l.Readable) (n : ℕ) :
    readLease py clock l.toValue n =
      .ok ({ l with grantedAt := clock n, reclaimReason := .null }, n + 1) := by
  simp [readLease, Lease.toValue, member_of_isMember h]
  rfl

theorem readLeases_toValue {leases : List Lease} (h : ∀ l ∈ leases, l.Readable) (n : ℕ) :
    readAll py (readLease py clock) (.array (leases.map Lease.toValue)) n =
      .ok (grantedFrom clock n leases, n + leases.length) := by
  rw [readAll, py.items_array]
  change (leases.map Lease.toValue).mapM (readLease py clock) n = _
  induction leases generalizing n with
  | nil => rfl
  | cons l leases ih =>
      rw [List.forall_mem_cons] at h
      rw [List.map_cons, List.mapM_cons, bind_of_read (readLease_toValue py clock h.1 n),
        bind_of_read (ih h.2 (n + 1)), List.length_cons, Nat.add_comm leases.length,
        ← Nat.add_assoc]
      rfl

theorem readUsage_toValue {u : ModuleUsage F} (h : u.Readable) :
    readUsage py clock u.toValue = pure u := by
  simp [readUsage, ModuleUsage.toValue, member_of_isMember h.pressure,
    datetime_string py clock h.lastUpdatedAt]

theorem readCalibration_toValue (c : Option (UsageCalibration F)) :
    readCalibration py (ofOption UsageCalibration.toValue c) = .ok c := by
  cases c with
  | none => simp [readCalibration, ofOption]; rfl
  | some c => simp [readCalibration, ofOption, UsageCalibration.toValue]

theorem readChunk_toValue {c : PreparedChunk F} (h : c.Readable) :
    readChunk py c.toValue = .ok c := by
  simp [readChunk, PreparedChunk.toValue, member_of_isMember h]

theorem readModulePlan_toValue {p : PreparedModulePlan F} (h : p.Readable) :
    readModulePlan py clock p.toValue = pure p := by
  have hchunks := readAll_pure py fun c hc => readChunk_toValue py (h.chunks c hc)
  rw [List.map_id'] at hchunks
  simp [readModulePlan, PreparedModulePlan.toValue, hchunks, readAllocation_toValue,
    readUsage_toValue py clock h.usage, member_of_isMember h.renderTarget]

theorem readEvent_toValue (instanceId : String) {e : TraceEvent} (h : e.Readable) :
    readEvent py clock instanceId e.toValue = pure (hostEvent instanceId e) := by
  simp [readEvent, TraceEvent.toValue, member_of_isMember h.priority,
    datetime_string py clock h.occurredAt]
  rfl

/-- The package reads a snapshot as it has been written, under the name it publishes. -/
theorem readSnapshot_toValue (instanceId : String) {s : ArenaSnapshot F} (h : s.Readable)
    (n : ℕ) :
    readSnapshot py clock instanceId s.toValue n =
      .ok (⟨hostSnapshot instanceId s, grantedFrom clock n s.leases⟩,
        n + s.leases.length) := by
  have hmodules := readAll_self py fun u hu => readUsage_toValue py clock (h.modules u hu)
  have hleases := readLeases_toValue py clock h.leases n
  simp [readSnapshot, ArenaSnapshot.toValue, hmodules, bind_of_read hleases, -bind_pure_comp,
    readCalibration_toValue, datetime_string py clock h.capturedAt,
    member_of_isMember h.tokenCountMode, member_of_isMember h.pressure, toLease_grantedFrom]
  rfl

/-- The package reads a plan as it has been written, under the name it publishes.  The leases of its
snapshot are read after those of the plan. -/
theorem readPlan_toValue (instanceIdOverride : Option String) {p : PreparedContextPlan F}
    (h : p.Readable) (n : ℕ) :
    readPlan py clock instanceIdOverride p.toValue n =
      .ok (⟨hostPlan instanceIdOverride p, grantedFrom clock n p.leases,
        grantedFrom clock (n + p.leases.length) p.snapshot.leases⟩,
          n + p.leases.length + p.snapshot.leases.length) := by
  have hallocations := readAll_pure py fun a (_ : a ∈ p.allocations) =>
    readAllocation_toValue py a
  rw [List.map_id'] at hallocations
  have hmodules := readAll_self py fun u hu => readUsage_toValue py clock (h.modules u hu)
  have hleases := readLeases_toValue py clock h.leases n
  have hplans := readAll_self py fun m hm => readModulePlan_toValue py clock (h.modulePlans m hm)
  have hevents := readAll_map py fun e he => readEvent_toValue py clock
    (publishedInstance instanceIdOverride p.instanceId) (h.traceEvents e he)
  have hsnapshot := readSnapshot_toValue py clock
    (publishedInstance instanceIdOverride p.instanceId) h.snapshot (n + p.leases.length)
  simp [readPlan, PreparedContextPlan.toValue, -bind_pure_comp, hallocations, hmodules,
    bind_of_read hleases, hplans, hevents, readCalibration_toValue, bind_of_read hsnapshot,
    member_of_isMember h.tokenCountMode, member_of_isMember h.pressure, toLease_grantedFrom]
  rfl

end Reply

end ContextLease
