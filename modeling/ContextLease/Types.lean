/-
The data of the kernel.

The records that cross the kernel's interface and the ones it keeps, field for field under the
source's names.  A field default is the `serde` default of the field.  Floating-point fields have
an arbitrary carrier `F`; token counts are integers, whose arithmetic is
`MachineNumbers.Arith`; sequence numbers are natural numbers.

Main definitions:

* `ArenaDefinition`, `ModuleDefinition`, `CompressionStepSpec` — what an arena is built from;
* `PrepareRequest`, `ModelProfile`, `ModuleContribution`, `PromptChunk` — what a call brings;
* `SemanticRequest`, `SemanticResult` — the two phases of a semantic step;
* `ModuleAllocation`, `Lease`, `ModuleUsage`, `PreparedContextPlan`, `ArenaSnapshot`,
  `TraceEvent`, `UsageCalibration` — what a call returns;
* `ContextLeaseError` — how it fails.
-/

import ContextLease.Json
import ContextLease.MachineNumbers

set_option relaxedAutoImplicit false
set_option autoImplicit false

namespace ContextLease

/-- The source's `CORE_VERSION`. -/
def coreVersion : String := "0.3.0"

/-! ### Definitions -/

/-- A step of a reclaim pipeline. -/
structure CompressionStepSpec where
  algorithmId : String
  options : BTreeMap Value := []

/-- A module of an arena. -/
structure ModuleDefinition (F : Type) where
  moduleId : String
  floorTokens : ℤ
  targetTokens : ℤ
  maxTokens : ℤ
  order : ℤ := 0
  weight : F
  lifecycle : String := "request"
  allocation : String := "weighted"
  protection : String := "mixed"
  reclaim : String := "builtin_pipeline"
  renderTarget : String := "text"
  canBorrow : Bool := true
  canLend : Bool := true
  reclaimPipeline : List CompressionStepSpec := []
  metadata : BTreeMap Value := []

/-- An arena. -/
structure ArenaDefinition (F : Type) where
  arenaId : String
  modules : List (ModuleDefinition F)
  schemaVersion : String := "1.0"
  policyVersion : String := "1"
  frameworkReserveTokens : ℤ := 0
  admissionPolicy : String := "reject"
  metadata : BTreeMap Value := []

/-! ### Requests -/

/-- The model a request is prepared for. -/
structure ModelProfile where
  modelProfileId : String
  contextLimitTokens : ℤ
  reservedOutputTokens : ℤ
  tokenizerId : String := "regex-estimator-v1"
  tokenizerVersion : String := "1"
  countMode : String := "estimated"

/-- A piece of a prompt. -/
structure PromptChunk (F : Type) where
  chunkId : String
  content : Value
  kind : String := "text"
  fixed : Bool := false
  protection : String := "elastic"
  priority : F
  requiredTerms : List String := []
  dependencyGroup : Option String := none
  metadata : BTreeMap Value := []

/-- What a module contributes to a request. -/
structure ModuleContribution (F : Type) where
  moduleId : String
  chunks : List (PromptChunk F) := []
  observedDemandTokens : Option ℤ := none
  metadata : BTreeMap Value := []

/-- A request, which the bindings call a context plan. -/
structure PrepareRequest (F : Type) where
  schemaVersion : String := "1.0"
  model : ModelProfile
  contributions : List (ModuleContribution F) := []
  requestId : Option String := none

/-! ### Semantic steps -/

/-- What the host is asked to summarize. -/
structure SemanticRequest where
  semanticRequestId : String
  moduleId : String
  algorithmId : String
  providerId : String
  sourceText : String
  targetTokens : ℤ
  requiredTerms : List String
  options : BTreeMap Value := []

/-- What the host answers. -/
structure SemanticResult where
  semanticRequestId : String
  content : String

/-! ### Allocation -/

/-- The capacity of a module in one request. -/
structure ModuleAllocation where
  moduleId : String
  floorTokens : ℤ
  targetTokens : ℤ
  maxTokens : ℤ
  demandedTokens : ℤ
  allocatedTokens : ℤ
  localCapacityTokens : ℤ
  borrowedCapacityTokens : ℤ
  lentCapacityTokens : ℤ
  deriving DecidableEq, Inhabited

/-- Capacity lent to a module above its target. -/
structure Lease where
  leaseId : String
  donorModuleId : String
  borrowerModuleId : String
  grantedTokens : ℤ
  currentlyUsedTokens : ℤ
  reclaimableTokens : ℤ
  releasePipeline : List String
  state : String
  deriving DecidableEq

/-! ### Plans -/

/-- What a module used of its allocation. -/
structure ModuleUsage (F : Type) where
  moduleId : String
  floorTokens : ℤ
  targetTokens : ℤ
  maxTokens : ℤ
  demandedTokens : ℤ
  allocatedTokens : ℤ
  usedTokens : ℤ
  fixedTokens : ℤ
  variableTokens : ℤ
  pinnedTokens : ℤ
  elasticTokens : ℤ
  reclaimableTokens : ℤ
  minimumRetainedTokens : ℤ
  localCapacityTokens : ℤ
  borrowedCapacityTokens : ℤ
  lentCapacityTokens : ℤ
  compressedFromTokens : ℤ
  compressedToTokens : ℤ
  compressionRatio : F
  changeRate : F
  pressure : String
  lastUpdatedAt : String

/-- A chunk of a plan. -/
structure PreparedChunk (F : Type) where
  chunkId : String
  kind : String
  content : Value
  fixed : Bool
  protection : String
  priority : F
  requiredTerms : List String
  dependencyGroup : Option String
  metadata : BTreeMap Value
  tokenCount : ℤ
  compressed : Bool
  sourceChunkIds : List String

/-- The part of a plan about one module. -/
structure PreparedModulePlan (F : Type) where
  moduleId : String
  renderTarget : String
  allocation : ModuleAllocation
  usage : ModuleUsage F
  chunks : List (PreparedChunk F)

/-- How the counts of a model are corrected. -/
structure UsageCalibration (F : Type) where
  modelProfileId : String
  tokenizerId : String
  tokenizerVersion : String
  sampleCount : ℕ
  ewmaRatio : F
  safetyMultiplier : F
  lastEstimatedTokens : ℤ
  lastActualTokens : ℤ

/-- What the host reports after a call to the model. -/
structure UsageObservation where
  requestId : String
  actualInputTokens : ℤ

/-- An event of the arena. -/
structure TraceEvent where
  eventId : String
  seq : ℕ
  occurredAt : String
  arenaId : String
  instanceId : String
  requestId : Option String
  eventType : String
  schemaVersion : String
  layoutHash : String
  policyVersion : String
  payload : BTreeMap Value
  priority : String

/-- The state of an arena after a request. -/
structure ArenaSnapshot (F : Type) where
  schemaVersion : String
  arenaId : String
  instanceId : String
  snapshotSeq : ℕ
  capturedAt : String
  requestId : Option String
  modelProfileId : String
  tokenizerId : String
  tokenizerVersion : String
  tokenCountMode : String
  layoutHash : String
  policyVersion : String
  contextLimitTokens : ℤ
  reservedOutputTokens : ℤ
  frameworkReserveTokens : ℤ
  inputBudgetTokens : ℤ
  usedTokens : ℤ
  slackTokens : ℤ
  utilization : F
  pressure : String
  modules : List (ModuleUsage F)
  leases : List Lease
  calibration : Option (UsageCalibration F)
  health : BTreeMap Value

/-- What a successful request returns. -/
structure PreparedContextPlan (F : Type) where
  schemaVersion : String
  coreVersion : String
  arenaId : String
  instanceId : String
  requestId : String
  layoutHash : String
  policyVersion : String
  modelProfileId : String
  tokenizerId : String
  tokenizerVersion : String
  tokenCountMode : String
  contextLimitTokens : ℤ
  reservedOutputTokens : ℤ
  frameworkReserveTokens : ℤ
  rendered : String
  promptTokens : ℤ
  inputBudgetTokens : ℤ
  slackTokens : ℤ
  pressure : String
  allocations : List ModuleAllocation
  leases : List Lease
  modules : List (ModuleUsage F)
  modulePlans : List (PreparedModulePlan F)
  traceEvents : List TraceEvent
  snapshot : ArenaSnapshot F
  calibration : Option (UsageCalibration F)

/-- What `prepare_begin` returns: `status` is `"ready"` with a plan or `"needs_semantic"` with the
requests. -/
structure PrepareBeginOutcome (F : Type) where
  status : String
  prepared : Option (PreparedContextPlan F)
  semanticRequests : List SemanticRequest

/-! ### Errors -/

/-- How a call fails. -/
structure ContextLeaseError where
  code : String
  message : String
  deriving DecidableEq

/-- The result of a call. -/
abbrev Result := Except ContextLeaseError

/-- A call that succeeds has a result. -/
theorem exists_ok_of_isOk {α : Type} {r : Result α} (h : r.isOk = true) : ∃ a, r = .ok a := by
  cases r with
  | ok a => exact ⟨a, rfl⟩
  | error e => cases h

/-- A call whose result has an image has a result. -/
theorem exists_ok_of_map {α β : Type} {r : Result α} {f : α → β} {b : β}
    (h : (r.map f).toOption = some b) : ∃ a, r = .ok a ∧ f a = b := by
  cases r with
  | ok a => exact ⟨a, rfl, Option.some_inj.1 h⟩
  | error e => cases h

/-- The source's `Err(ContextLeaseError::new(..))`. -/
def fail {α : Type} (code message : String) : Result α := .error ⟨code, message⟩

end ContextLease
