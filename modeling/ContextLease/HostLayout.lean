/-
The models of the Python side, and the layout it compiles.

What `arena_from_dict` makes of a configuration is checked once more when its layout is compiled:
this is where blank names, repeated modules and the order of the bounds of a module are found.  The
layout is identified by a hash of the definition written as JSON.

Main definitions:

* `Host.ArenaDefinition`, `Host.ModuleDefinition`, `Host.ModelProfile` — the models;
* `Host.arenaFromDict`, `Host.modelFromDict` — the models of a configuration;
* `Host.ArenaDefinition.publicDict` — the source's `to_public_dict` of a definition;
* `Host.compileLayout`, `Host.validateModelBudget` — the layout and its budget;
* `Host.validate` — what `contextlease validate` runs on an arena and a model.
-/

import ContextLease.HostConfig
import ContextLease.RustText

set_option relaxedAutoImplicit false
set_option autoImplicit false

namespace ContextLease

open MachineNumbers

namespace Host

variable {F : Type}

/-! ### Models -/

/-- A step of a reclaim pipeline. -/
structure CompressionStepSpec (F : Type) where
  algorithmId : String
  options : List (String × HostValue F)

/-- A module of an arena. -/
structure ModuleDefinition (F : Type) where
  moduleId : String
  floorTokens : ℤ
  targetTokens : ℤ
  maxTokens : ℤ
  order : ℤ
  weight : F
  lifecycle : LifecyclePolicy
  allocation : AllocationStrategy
  protection : ProtectionPolicy
  reclaim : ReclaimPolicy
  renderTarget : RenderTarget
  canBorrow : Bool
  canLend : Bool
  reclaimPipeline : List (CompressionStepSpec F)
  metadata : List (String × HostValue F)

/-- An arena. -/
structure ArenaDefinition (F : Type) where
  arenaId : String
  modules : List (ModuleDefinition F)
  schemaVersion : String
  policyVersion : String
  frameworkReserveTokens : ℤ
  admissionPolicy : String
  metadata : List (String × HostValue F)

/-- The model a request is prepared for. -/
structure ModelProfile where
  modelProfileId : String
  contextLimitTokens : ℤ
  reservedOutputTokens : ℤ
  tokenizerId : String
  tokenizerVersion : String
  countMode : CountMode

/-- The source's `input_budget_tokens`. -/
def ModelProfile.inputBudgetTokens (model : ModelProfile) : ℤ :=
  model.contextLimitTokens - model.reservedOutputTokens

/-! ### Reading an accepted configuration

Once the contract has accepted a value, the conversions of the source only take it out. -/

/-- The source's `str(..)` of a string. -/
def str : HostValue F → String
  | .string s => s
  | _ => ""

/-- The source's `int(..)` of an integer. -/
def int : HostValue F → ℤ
  | .number (.int n) => n
  | _ => 0

/-- The source's `float(..)` of a number. -/
def floatOf [FloatOps F] : HostValue F → HostResult F
  | .number n => float n
  | _ => .error (.type "float() argument must be a number")

/-- The source's `bool(..)` of a boolean. -/
def bool : HostValue F → Bool
  | .bool b => b
  | _ => false

/-- The source's `dict(..)` of an object. -/
def dict : HostValue F → List (String × HostValue F)
  | .object entries => entries
  | _ => []

/-- The items of an array. -/
def list : HostValue F → List (HostValue F)
  | .array items => items
  | _ => []

/-- The source's `enum_type(..)` of a member's value. -/
def member (E : Type) [StrEnum E] [Inhabited E] (value : HostValue F) : E :=
  (StrEnum.ofValue E (str value)).getD default

/-- A step of `arena_from_dict`. -/
def stepFromDict (step : HostValue F) : CompressionStepSpec F where
  algorithmId := str (item (dict step) "algorithm_id")
  options := dict (get (dict step) "options" (.object []))

section FromDict

variable [FloatOps F]

/-- A module of `arena_from_dict`. -/
def moduleFromDict (rawModule : HostValue F) : HostResult (ModuleDefinition F) := do
  let raw := dict rawModule
  let weight ← floatOf (get raw "weight" (.number (.float (FloatOps.ofInt 1))))
  pure
    { moduleId := str (item raw "module_id")
      floorTokens := int (item raw "floor_tokens")
      targetTokens := int (item raw "target_tokens")
      maxTokens := int (item raw "max_tokens")
      order := int (get raw "order" (.number (.int 0)))
      weight := weight
      lifecycle := member LifecyclePolicy (get raw "lifecycle" (.string "request"))
      allocation := member AllocationStrategy (get raw "allocation" (.string "weighted"))
      protection := member ProtectionPolicy (get raw "protection" (.string "mixed"))
      reclaim := member ReclaimPolicy (get raw "reclaim" (.string "builtin_pipeline"))
      renderTarget := member RenderTarget (get raw "render_target" (.string "text"))
      canBorrow := bool (get raw "can_borrow" (.bool true))
      canLend := bool (get raw "can_lend" (.bool true))
      reclaimPipeline := (list (get raw "reclaim_pipeline" (.array []))).map stepFromDict
      metadata := dict (get raw "metadata" (.object [])) }

/-- The modules of `arena_from_dict`. -/
def modulesFromDict : List (HostValue F) → HostResult (List (ModuleDefinition F))
  | [] => .ok []
  | rawModule :: rawModules => do
      let module ← moduleFromDict rawModule
      let modules ← modulesFromDict rawModules
      pure (module :: modules)

/-- The source's `arena_from_dict`. -/
def arenaFromDict (value : HostValue F) : HostResult (ArenaDefinition F) := do
  let data ← object value "arena"
  validateArenaContract data "arena"
  let modules ← modulesFromDict (list (get data "modules" (.array [])))
  pure
    { arenaId := str (item data "arena_id")
      modules := modules
      schemaVersion := str (get data "schema_version" (.string "1.0"))
      policyVersion := str (get data "policy_version" (.string "1"))
      frameworkReserveTokens := int (get data "framework_reserve_tokens" (.number (.int 0)))
      admissionPolicy := str (get data "admission_policy" (.string "reject"))
      metadata := dict (get data "metadata" (.object [])) }

end FromDict

/-- The source's `model_from_dict`. -/
def modelFromDict (value : HostValue F) : HostResult ModelProfile := do
  let data ← object value "model"
  validateModelContract data "model"
  pure
    { modelProfileId := str (item data "model_profile_id")
      contextLimitTokens := int (item data "context_limit_tokens")
      reservedOutputTokens := int (item data "reserved_output_tokens")
      tokenizerId := str (get data "tokenizer_id" (.string "regex-estimator-v1"))
      tokenizerVersion := str (get data "tokenizer_version" (.string "1"))
      countMode := member CountMode (get data "count_mode" (.string "estimated")) }

/-! ### The public dict -/

/-- The source's `to_public_dict` of a step. -/
def CompressionStepSpec.publicDict (step : CompressionStepSpec F) : HostValue F :=
  .object [("algorithm_id", .string step.algorithmId), ("options", .object step.options)]

/-- The source's `to_public_dict` of a module. -/
def ModuleDefinition.publicDict (m : ModuleDefinition F) : HostValue F :=
  .object
    [("module_id", .string m.moduleId),
     ("floor_tokens", .number (.int m.floorTokens)),
     ("target_tokens", .number (.int m.targetTokens)),
     ("max_tokens", .number (.int m.maxTokens)),
     ("order", .number (.int m.order)),
     ("weight", .number (.float m.weight)),
     ("lifecycle", .string (StrEnum.value m.lifecycle)),
     ("allocation", .string (StrEnum.value m.allocation)),
     ("protection", .string (StrEnum.value m.protection)),
     ("reclaim", .string (StrEnum.value m.reclaim)),
     ("render_target", .string (StrEnum.value m.renderTarget)),
     ("can_borrow", .bool m.canBorrow),
     ("can_lend", .bool m.canLend),
     ("reclaim_pipeline", .array (m.reclaimPipeline.map CompressionStepSpec.publicDict)),
     ("metadata", .object m.metadata)]

/-- The source's `to_public_dict` of a definition. -/
def ArenaDefinition.publicDict (definition : ArenaDefinition F) : HostValue F :=
  .object
    [("arena_id", .string definition.arenaId),
     ("modules", .array (definition.modules.map ModuleDefinition.publicDict)),
     ("schema_version", .string definition.schemaVersion),
     ("policy_version", .string definition.policyVersion),
     ("framework_reserve_tokens", .number (.int definition.frameworkReserveTokens)),
     ("admission_policy", .string definition.admissionPolicy),
     ("metadata", .object definition.metadata)]

/-! ### Layouts -/

/-- A compiled layout. -/
structure CompiledLayout (F : Type) where
  definition : ArenaDefinition F
  layoutHash : String
  moduleById : List (String × ModuleDefinition F)
  orderedModuleIds : List String

/-- A character that Python's `strip` removes. -/
def isSpace (c : Char) : Bool :=
  RustText.isWhitespace c || (0x1C ≤ c.toNat && c.toNat ≤ 0x1F)

/-- The source's `not text.strip()`. -/
def isBlank (text : String) : Bool := text.toList.all isSpace

/-- The source's `if bad: raise LayoutValidationError(..)`. -/
def rejectLayoutIf (bad : Bool) (message : String) : HostResult Unit :=
  if bad then .error (.layoutValidation message) else .ok ()

@[simp] theorem rejectLayoutIf_eq_ok {bad : Bool} {message : String} {u : Unit} :
    rejectLayoutIf bad message = .ok u ↔ bad = false := by
  cases bad <;> simp [rejectLayoutIf]

section Layout

variable [FloatOps F]

/-- The checks `compile_layout` makes of one module; `ids` are the ids seen so far. -/
def checkModule (ids : List String) (module : ModuleDefinition F) : HostResult Unit := do
  rejectLayoutIf (isBlank module.moduleId) "module_id must not be empty"
  rejectLayoutIf (ids.contains module.moduleId) ("duplicate module_id: " ++ module.moduleId)
  rejectLayoutIf
    (!(decide (0 ≤ module.floorTokens) && decide (module.floorTokens ≤ module.targetTokens) &&
      decide (module.targetTokens ≤ module.maxTokens)))
    ("module " ++ module.moduleId ++ ": expected 0 <= floor <= target <= max")
  rejectLayoutIf (FloatOps.le module.weight (FloatOps.ofInt 0))
    ("module " ++ module.moduleId ++ ": weight must be positive")
  rejectLayoutIf
    (module.canBorrow && decide (module.maxTokens > module.targetTokens) &&
      module.reclaimPipeline.isEmpty)
    ("module " ++ module.moduleId ++ ": borrowing requires a registered reclaim_pipeline")

/-- The module loop of `compile_layout`. -/
def checkModules : List String → List (ModuleDefinition F) → HostResult Unit
  | _, [] => .ok ()
  | ids, module :: modules => do
      checkModule ids module
      checkModules (module.moduleId :: ids) modules

/-- The source's `sorted(.., key=lambda item: (item.order, item.module_id))`. -/
def inOrder (modules : List (ModuleDefinition F)) : List (ModuleDefinition F) :=
  modules.insertionSort fun a b =>
    a.order < b.order ∨ (a.order = b.order ∧ a.moduleId ≤ b.moduleId)

variable [NumberTexts F]

/-- The bytes `compile_layout` hashes. -/
def layoutPayload (definition : ArenaDefinition F) : ByteArray :=
  (dumps definition.publicDict).toUTF8

/-- The source's `hexdigest()[:24]`. -/
def shortDigest (hexdigest : ByteArray → String) (payload : ByteArray) : String :=
  String.ofList ((hexdigest payload).toList.take 24)

variable (hexdigest : ByteArray → String)

/-- The source's `compile_layout`, with `hexdigest` the hexadecimal SHA-256 digest. -/
def compileLayout (definition : ArenaDefinition F) : HostResult (CompiledLayout F) := do
  rejectLayoutIf (isBlank definition.arenaId) "arena_id must not be empty"
  rejectLayoutIf definition.modules.isEmpty "at least one module is required"
  rejectLayoutIf (decide (definition.frameworkReserveTokens < 0))
    "framework_reserve_tokens must be non-negative"
  checkModules [] definition.modules
  pure
    { definition := definition
      layoutHash := shortDigest hexdigest (layoutPayload definition)
      moduleById := definition.modules.map fun module => (module.moduleId, module)
      orderedModuleIds := (inOrder definition.modules).map ModuleDefinition.moduleId }

end Layout

/-- The source's `validate_model_budget`. -/
def validateModelBudget (layout : CompiledLayout F) (inputBudgetTokens : ℤ) : HostResult Unit := do
  let available := inputBudgetTokens - layout.definition.frameworkReserveTokens
  rejectLayoutIf (decide (available ≤ 0)) "model input budget is exhausted by framework reserve"
  let totalFloor := (layout.definition.modules.map ModuleDefinition.floorTokens).sum
  rejectLayoutIf (decide (totalFloor > available))
    ("module floors require " ++ toString totalFloor ++ " tokens but only " ++
      toString available ++ " are available")

/-- What `contextlease validate` runs on the arena and the model of a configuration. -/
def validate [FloatOps F] [NumberTexts F] (hexdigest : ByteArray → String)
    (arena model : HostValue F) : HostResult (CompiledLayout F) := do
  let arenaData ← object arena "config.arena"
  validateArenaContract arenaData "config.arena"
  let modelData ← object model "config.model"
  validateModelContract modelData "config.model"
  let definition ← arenaFromDict arena
  let profile ← modelFromDict model
  let layout ← compileLayout hexdigest definition
  validateModelBudget layout profile.inputBudgetTokens
  pure layout

end Host

end ContextLease
