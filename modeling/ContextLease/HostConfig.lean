/-
The configuration contract of the Python side.

A configuration is checked field by field before an arena or a model is made of it: the known and
required fields, the type of each value, lower bounds, the spelling of the policy values.  The
checks name the field they reject by its path.  What they accept is stated once, as the structures
`ArenaContract`, `ModuleContract`, `StepContract` and `ModelContract`, which no longer mention a
path: the arena and the model are checked twice, under two paths, with the same outcome.

Main definitions:

* `Host.object`, `Host.string`, `Host.integer`, .. — the checks of one value;
* `Host.validateArenaContract`, `Host.validateModelContract` — the contracts.

Main results:

* `Host.validateArenaContract_ok`, `Host.validateModelContract_ok` — what the contracts accept.
-/

import ContextLease.HostJson
import ContextLease.Flagged

set_option relaxedAutoImplicit false
set_option autoImplicit false

namespace ContextLease

open MachineNumbers

namespace Host

variable {F : Type}

/-! ### Policy values -/

/-- A `StrEnum`: its members in the order of their definition. -/
class StrEnum (E : Type) where
  members : List E
  value : E → String

/-- The source's `enum_type(value)`. -/
def StrEnum.ofValue (E : Type) [StrEnum E] (s : String) : Option E :=
  (StrEnum.members (E := E)).find? fun e => StrEnum.value e == s

theorem StrEnum.value_of_ofValue {E : Type} [StrEnum E] {s : String} {e : E}
    (h : StrEnum.ofValue E s = some e) : StrEnum.value e = s :=
  beq_iff_eq.1 (List.find?_some (p := fun e => StrEnum.value e == s) h)

/-- The source's `LifecyclePolicy`. -/
inductive LifecyclePolicy
  | static | session | request | turn | ephemeral
  deriving Inhabited

/-- The source's `AllocationStrategy`. -/
inductive AllocationStrategy
  | fixed | weighted | priority | elastic
  deriving Inhabited

/-- The source's `ProtectionPolicy`. -/
inductive ProtectionPolicy
  | pinned | elastic | mixed
  deriving Inhabited

/-- The source's `ReclaimPolicy`. -/
inductive ReclaimPolicy
  | none | builtinPipeline | semanticPipeline | custom
  deriving Inhabited

/-- The source's `RenderTarget`. -/
inductive RenderTarget
  | text | messages | toolSchema | structured
  deriving Inhabited

/-- The source's `CountMode`. -/
inductive CountMode
  | estimated | exact | hybrid
  deriving Inhabited

instance : StrEnum LifecyclePolicy where
  members := [.static, .session, .request, .turn, .ephemeral]
  value
    | .static => "static"
    | .session => "session"
    | .request => "request"
    | .turn => "turn"
    | .ephemeral => "ephemeral"

instance : StrEnum AllocationStrategy where
  members := [.fixed, .weighted, .priority, .elastic]
  value
    | .fixed => "fixed"
    | .weighted => "weighted"
    | .priority => "priority"
    | .elastic => "elastic"

instance : StrEnum ProtectionPolicy where
  members := [.pinned, .elastic, .mixed]
  value
    | .pinned => "pinned"
    | .elastic => "elastic"
    | .mixed => "mixed"

instance : StrEnum ReclaimPolicy where
  members := [.none, .builtinPipeline, .semanticPipeline, .custom]
  value
    | .none => "none"
    | .builtinPipeline => "builtin_pipeline"
    | .semanticPipeline => "semantic_pipeline"
    | .custom => "custom"

instance : StrEnum RenderTarget where
  members := [.text, .messages, .toolSchema, .structured]
  value
    | .text => "text"
    | .messages => "messages"
    | .toolSchema => "tool_schema"
    | .structured => "structured"

instance : StrEnum CountMode where
  members := [.estimated, .exact, .hybrid]
  value
    | .estimated => "estimated"
    | .exact => "exact"
    | .hybrid => "hybrid"

/-! ### Checks of one value -/

/-- How the Python side fails. -/
inductive HostError
  | configuration (message : String)
  | layoutValidation (message : String)
  | overflow (message : String)
  | type (message : String)
  deriving DecidableEq

/-- The result of a Python function that may raise. -/
abbrev HostResult := Except HostError

/-- The source's `raise ConfigurationError(..)`. -/
def reject {α : Type} (message : String) : HostResult α := .error (.configuration message)

/-- The source's `_object`. -/
def object (value : HostValue F) (path : String) : HostResult (List (String × HostValue F)) :=
  match value with
  | .object entries => .ok entries
  | _ => reject (path ++ ": expected an object")

/-- The source's `_array`. -/
def array (value : HostValue F) (path : String) : HostResult (List (HostValue F)) :=
  match value with
  | .array items => .ok items
  | _ => reject (path ++ ": expected an array")

/-- The source's `_string`. -/
def string (value : HostValue F) (path : String) (nonEmpty : Bool := false) : HostResult String :=
  let qualifier := if nonEmpty then " a non-empty" else ""
  match value with
  | .string s =>
      if nonEmpty && s.isEmpty then reject (path ++ ": expected" ++ qualifier ++ " string")
      else .ok s
  | _ => reject (path ++ ": expected" ++ qualifier ++ " string")

/-- The source's `_integer`. -/
def integer (value : HostValue F) (path : String) (minimum : Option ℤ := none) : HostResult ℤ :=
  match value with
  | .number (.int n) =>
      match minimum with
      | some least =>
          if n < least then reject (path ++ ": expected a value >= " ++ toString least) else .ok n
      | none => .ok n
  | _ => reject (path ++ ": expected an integer")

/-- The integers at which `float` overflows. -/
def floatLimit : ℕ := 2 ^ 1024 - 2 ^ 970

/-- The source's `float(..)`. -/
def float [FloatOps F] : Numeral F → HostResult F
  | .int n =>
      if n.natAbs < floatLimit then .ok (FloatOps.ofInt n)
      else .error (.overflow "int too large to convert to float")
  | .float x => .ok x

/-- The source's `_number`. -/
def number [FloatOps F] (value : HostValue F) (path : String)
    (exclusiveMinimum : Option ℤ := none) : HostResult F :=
  match value with
  | .number n => do
      let result ← float n
      match exclusiveMinimum with
      | some bound =>
          if FloatOps.le result (FloatOps.ofInt bound) then
            reject (path ++ ": expected a value > " ++ toString bound)
          else .ok result
      | none => .ok result
  | _ => reject (path ++ ": expected a number")

/-- The source's `_boolean`. -/
def boolean (value : HostValue F) (path : String) : HostResult Bool :=
  match value with
  | .bool b => .ok b
  | _ => reject (path ++ ": expected a boolean")

/-- The source's `_enum`, with the member it finds. -/
def enum (E : Type) [StrEnum E] (value : HostValue F) (path : String) : HostResult E :=
  let allowed := ", ".intercalate ((StrEnum.members (E := E)).map StrEnum.value)
  match value with
  | .string s =>
      match StrEnum.ofValue E s with
      | some e => .ok e
      | none => reject (path ++ ": expected one of " ++ allowed)
  | _ => reject (path ++ ": expected one of " ++ allowed)

/-- The source's `sorted(..)` of names. -/
def sorted (names : List String) : List String := names.insertionSort (· ≤ ·)

/-- The source's `_keys`. -/
def keys (value : List (String × HostValue F)) (allowed required : List String) (path : String) :
    HostResult Unit :=
  let given := value.map Prod.fst
  let unknown := sorted (given.filter fun key => !allowed.contains key)
  let missing := sorted (required.filter fun key => !given.contains key)
  if !unknown.isEmpty then reject (path ++ ": unknown field(s): " ++ ", ".intercalate unknown)
  else if !missing.isEmpty then
    reject (path ++ ": missing required field(s): " ++ ", ".intercalate missing)
  else .ok ()

/-- The source's `data.get(key, default)`. -/
def get (data : List (String × HostValue F)) (key : String) (default : HostValue F) :
    HostValue F :=
  (data.lookup key).getD default

/-- The source's `data[key]` of a required field. -/
def item (data : List (String × HostValue F)) (key : String) : HostValue F := get data key .null

/-- A check of each item under its index, as in the source's loops over `enumerate(..)`. -/
def forEach (check : HostValue F → String → HostResult Unit) (path : String) :
    ℕ → List (HostValue F) → HostResult Unit
  | _, [] => .ok ()
  | index, value :: values => do
      check value (path ++ "[" ++ toString index ++ "]")
      forEach check path (index + 1) values

section Specs

variable {value : HostValue F} {path : String}

theorem object_ok {entries : List (String × HostValue F)} :
    object value path = .ok entries ↔ value = .object entries := by
  cases value <;> simp [object, reject]

theorem array_ok {items : List (HostValue F)} :
    array value path = .ok items ↔ value = .array items := by
  cases value <;> simp [array, reject]

theorem string_ok {nonEmpty : Bool} {s : String} :
    string value path nonEmpty = .ok s ↔ value = .string s ∧ (nonEmpty = true → s ≠ "") := by
  cases value with
  | string t =>
      cases nonEmpty
      · simp [string]
      · by_cases ht : t = ""
        · subst ht
          simp [string, reject]
        · simp only [string, Bool.true_and, String.isEmpty_iff, if_neg ht, Except.ok.injEq,
            JsonTree.string.injEq, true_implies]
          exact ⟨fun heq => ⟨heq, heq ▸ ht⟩, And.left⟩
  | _ => simp [string, reject]

theorem integer_ok {minimum : Option ℤ} {n : ℤ} :
    integer value path minimum = .ok n ↔
      value = .number (.int n) ∧ ∀ least ∈ minimum, least ≤ n := by
  cases value with
  | number m =>
      cases m with
      | int m =>
          cases minimum with
          | none => simp [integer]
          | some least =>
              simp only [integer, Option.mem_def, Option.some.injEq, forall_eq']
              split
              · rename_i hlt
                simp only [reject, reduceCtorEq, JsonTree.number.injEq, Numeral.int.injEq,
                  false_iff, not_and]
                rintro rfl
                exact not_le.2 hlt
              · rename_i hle
                simp only [Except.ok.injEq, JsonTree.number.injEq, Numeral.int.injEq]
                exact ⟨fun heq => ⟨heq, heq ▸ not_lt.1 hle⟩, And.left⟩
      | float x => simp [integer, reject]
  | _ => simp [integer, reject]

theorem number_ok [FloatOps F] {exclusiveMinimum : Option ℤ} {x : F} :
    number value path exclusiveMinimum = .ok x ↔
      ∃ n, value = .number n ∧ float n = .ok x ∧
        ∀ bound ∈ exclusiveMinimum, FloatOps.le x (FloatOps.ofInt bound) = false := by
  cases value with
  | number m =>
      simp only [number, Except.bind_eq_ok, JsonTree.number.injEq, exists_eq_left']
      cases exclusiveMinimum with
      | none => simp
      | some bound =>
          simp only [Option.mem_def, Option.some.injEq, forall_eq']
          constructor
          · rintro ⟨y, hy, h⟩
            split at h
            · cases h
            · rename_i hle
              cases h
              exact ⟨hy, Bool.eq_false_iff.2 hle⟩
          · rintro ⟨hx, hle⟩
            exact ⟨x, hx, by rw [if_neg (Bool.eq_false_iff.1 hle)]⟩
  | _ => simp [number, reject]

theorem boolean_ok {b : Bool} : boolean value path = .ok b ↔ value = .bool b := by
  cases value <;> simp [boolean, reject]

theorem enum_ok {E : Type} [StrEnum E] {e : E} :
    enum E value path = .ok e ↔ ∃ s, value = .string s ∧ StrEnum.ofValue E s = some e := by
  cases value with
  | string s =>
      simp only [enum, JsonTree.string.injEq, exists_eq_left']
      cases StrEnum.ofValue E s <;> simp [reject]
  | _ => simp [enum, reject]

theorem isEmpty_sorted {names : List String} : (sorted names).isEmpty = true ↔ names = [] := by
  rw [List.isEmpty_iff]
  exact ⟨fun h => ((List.perm_insertionSort (· ≤ ·) names).symm.trans (h ▸ .refl _)).eq_nil,
    fun h => by rw [h]; rfl⟩

theorem keys_ok {data : List (String × HostValue F)} {allowed required : List String} {u : Unit} :
    keys data allowed required path = .ok u ↔
      (∀ key ∈ data.map Prod.fst, key ∈ allowed) ∧ ∀ key ∈ required, key ∈ data.map Prod.fst := by
  have hall : ∀ l l' : List String,
      (sorted (l.filter fun key => !l'.contains key)).isEmpty = true ↔ ∀ key ∈ l, key ∈ l' := by
    intro l l'
    rw [isEmpty_sorted, List.filter_eq_nil_iff]
    simp
  rw [keys, ← hall, ← hall]
  split
  · rename_i h
    simp only [reject, reduceCtorEq, false_iff, not_and]
    exact fun h' => absurd h' (by simpa using h)
  · rename_i h
    split
    · rename_i h'
      simp only [reject, reduceCtorEq, false_iff, not_and]
      exact fun _ h'' => absurd h'' (by simpa using h')
    · rename_i h'
      exact iff_of_true rfl ⟨by simpa using h, by simpa using h'⟩

/-- A check whose outcome does not depend on the path is made of every item. -/
theorem forEach_ok {check : HostValue F → String → HostResult Unit} {C : HostValue F → Prop}
    (hcheck : ∀ value path, check value path = .ok () ↔ C value) {index : ℕ}
    {values : List (HostValue F)} {u : Unit} :
    forEach check path index values = .ok u ↔ ∀ value ∈ values, C value := by
  induction values generalizing index with
  | nil => simp [forEach]
  | cons value values ih =>
      simp only [forEach, Except.bind_eq_ok, hcheck, ih, List.forall_mem_cons]
      constructor
      · rintro ⟨-, h⟩
        exact h
      · intro h
        exact ⟨(), h⟩

end Specs

/-! ### The contracts -/

section Contracts

variable [FloatOps F]

/-- The source's `_ARENA_KEYS`. -/
def arenaKeys : List String :=
  ["arena_id", "modules", "schema_version", "policy_version", "framework_reserve_tokens",
    "admission_policy", "metadata"]

/-- The source's `_MODULE_KEYS`. -/
def moduleKeys : List String :=
  ["module_id", "floor_tokens", "target_tokens", "max_tokens", "order", "weight", "lifecycle",
    "allocation", "protection", "reclaim", "render_target", "can_borrow", "can_lend",
    "reclaim_pipeline", "metadata"]

/-- The source's `_COMPRESSION_STEP_KEYS`. -/
def compressionStepKeys : List String := ["algorithm_id", "options"]

/-- The source's `_MODEL_KEYS`. -/
def modelKeys : List String :=
  ["model_profile_id", "context_limit_tokens", "reserved_output_tokens", "tokenizer_id",
    "tokenizer_version", "count_mode"]

/-- The checks `_validate_arena_contract` makes of one step of a pipeline. -/
def validateStepContract (rawStep : HostValue F) (stepPath : String) : HostResult Unit := do
  let step ← object rawStep stepPath
  keys step compressionStepKeys ["algorithm_id"] stepPath
  let _ ← string (item step "algorithm_id") (stepPath ++ ".algorithm_id") true
  let _ ← object (get step "options" (.object [])) (stepPath ++ ".options")

/-- The checks `_validate_arena_contract` makes of one module. -/
def validateModuleContract (rawModule : HostValue F) (modulePath : String) : HostResult Unit := do
  let module ← object rawModule modulePath
  keys module moduleKeys ["module_id", "floor_tokens", "target_tokens", "max_tokens"] modulePath
  let _ ← string (item module "module_id") (modulePath ++ ".module_id") true
  let _ ← integer (item module "floor_tokens") (modulePath ++ ".floor_tokens") (some 0)
  let _ ← integer (item module "target_tokens") (modulePath ++ ".target_tokens") (some 0)
  let _ ← integer (item module "max_tokens") (modulePath ++ ".max_tokens") (some 0)
  let _ ← integer (get module "order" (.number (.int 0))) (modulePath ++ ".order")
  let _ ← number (get module "weight" (.number (.int 1))) (modulePath ++ ".weight") (some 0)
  let _ ← enum LifecyclePolicy (get module "lifecycle" (.string "request"))
    (modulePath ++ ".lifecycle")
  let _ ← enum AllocationStrategy (get module "allocation" (.string "weighted"))
    (modulePath ++ ".allocation")
  let _ ← enum ProtectionPolicy (get module "protection" (.string "mixed"))
    (modulePath ++ ".protection")
  let _ ← enum ReclaimPolicy (get module "reclaim" (.string "builtin_pipeline"))
    (modulePath ++ ".reclaim")
  let _ ← enum RenderTarget (get module "render_target" (.string "text"))
    (modulePath ++ ".render_target")
  let _ ← boolean (get module "can_borrow" (.bool true)) (modulePath ++ ".can_borrow")
  let _ ← boolean (get module "can_lend" (.bool true)) (modulePath ++ ".can_lend")
  let _ ← object (get module "metadata" (.object [])) (modulePath ++ ".metadata")
  let pipeline ← array (get module "reclaim_pipeline" (.array []))
    (modulePath ++ ".reclaim_pipeline")
  forEach validateStepContract (modulePath ++ ".reclaim_pipeline") 0 pipeline

/-- The source's `_validate_arena_contract`. -/
def validateArenaContract (data : List (String × HostValue F)) (path : String) :
    HostResult Unit := do
  keys data arenaKeys ["arena_id", "modules"] path
  let _ ← string (item data "arena_id") (path ++ ".arena_id") true
  let _ ← string (get data "schema_version" (.string "1.0")) (path ++ ".schema_version")
  let _ ← string (get data "policy_version" (.string "1")) (path ++ ".policy_version")
  let _ ← integer (get data "framework_reserve_tokens" (.number (.int 0)))
    (path ++ ".framework_reserve_tokens") (some 0)
  let _ ← string (get data "admission_policy" (.string "reject")) (path ++ ".admission_policy")
  let _ ← object (get data "metadata" (.object [])) (path ++ ".metadata")
  let modules ← array (item data "modules") (path ++ ".modules")
  if modules.isEmpty then reject (path ++ ".modules: expected at least one module")
  else forEach validateModuleContract (path ++ ".modules") 0 modules

/-- The source's `_validate_model_contract`. -/
def validateModelContract (data : List (String × HostValue F)) (path : String) :
    HostResult Unit := do
  keys data modelKeys ["model_profile_id", "context_limit_tokens", "reserved_output_tokens"] path
  let _ ← string (item data "model_profile_id") (path ++ ".model_profile_id") true
  let _ ← integer (item data "context_limit_tokens") (path ++ ".context_limit_tokens") (some 1)
  let _ ← integer (item data "reserved_output_tokens") (path ++ ".reserved_output_tokens") (some 0)
  let _ ← string (get data "tokenizer_id" (.string "regex-estimator-v1")) (path ++ ".tokenizer_id")
  let _ ← string (get data "tokenizer_version" (.string "1")) (path ++ ".tokenizer_version")
  let _ ← enum CountMode (get data "count_mode" (.string "estimated")) (path ++ ".count_mode")

/-- What the contract accepts as a step. -/
structure StepContract (step : List (String × HostValue F)) : Prop where
  known : ∀ key ∈ step.map Prod.fst, key ∈ compressionStepKeys
  required : ∀ key ∈ ["algorithm_id"], key ∈ step.map Prod.fst
  algorithmId : ∃ s, item step "algorithm_id" = .string s ∧ s ≠ ""
  options : ∃ entries, get step "options" (.object []) = .object entries

/-- A value the contract accepts as a step. -/
def IsStep (rawStep : HostValue F) : Prop := ∃ step, rawStep = .object step ∧ StepContract step

/-- What the contract accepts as a module. -/
structure ModuleContract (module : List (String × HostValue F)) : Prop where
  known : ∀ key ∈ module.map Prod.fst, key ∈ moduleKeys
  required : ∀ key ∈ ["module_id", "floor_tokens", "target_tokens", "max_tokens"],
    key ∈ module.map Prod.fst
  moduleId : ∃ s, item module "module_id" = .string s ∧ s ≠ ""
  floorTokens : ∃ n, item module "floor_tokens" = .number (.int n) ∧ 0 ≤ n
  targetTokens : ∃ n, item module "target_tokens" = .number (.int n) ∧ 0 ≤ n
  maxTokens : ∃ n, item module "max_tokens" = .number (.int n) ∧ 0 ≤ n
  order : ∃ n, get module "order" (.number (.int 0)) = .number (.int n)
  weight : ∃ x n, get module "weight" (.number (.int 1)) = .number n ∧ float n = .ok x ∧
    FloatOps.le x (FloatOps.ofInt 0) = false
  lifecycle : ∃ e s, get module "lifecycle" (.string "request") = .string s ∧
    StrEnum.ofValue LifecyclePolicy s = some e
  allocation : ∃ e s, get module "allocation" (.string "weighted") = .string s ∧
    StrEnum.ofValue AllocationStrategy s = some e
  protection : ∃ e s, get module "protection" (.string "mixed") = .string s ∧
    StrEnum.ofValue ProtectionPolicy s = some e
  reclaim : ∃ e s, get module "reclaim" (.string "builtin_pipeline") = .string s ∧
    StrEnum.ofValue ReclaimPolicy s = some e
  renderTarget : ∃ e s, get module "render_target" (.string "text") = .string s ∧
    StrEnum.ofValue RenderTarget s = some e
  canBorrow : ∃ b, get module "can_borrow" (.bool true) = .bool b
  canLend : ∃ b, get module "can_lend" (.bool true) = .bool b
  metadata : ∃ entries, get module "metadata" (.object []) = .object entries
  pipeline : ∃ steps, get module "reclaim_pipeline" (.array []) = .array steps ∧
    ∀ rawStep ∈ steps, IsStep rawStep

/-- A value the contract accepts as a module. -/
def IsModule (rawModule : HostValue F) : Prop :=
  ∃ module, rawModule = .object module ∧ ModuleContract module

/-- What the contract accepts as an arena. -/
structure ArenaContract (data : List (String × HostValue F)) : Prop where
  known : ∀ key ∈ data.map Prod.fst, key ∈ arenaKeys
  required : ∀ key ∈ ["arena_id", "modules"], key ∈ data.map Prod.fst
  arenaId : ∃ s, item data "arena_id" = .string s ∧ s ≠ ""
  schemaVersion : ∃ s, get data "schema_version" (.string "1.0") = .string s
  policyVersion : ∃ s, get data "policy_version" (.string "1") = .string s
  frameworkReserveTokens : ∃ n, get data "framework_reserve_tokens" (.number (.int 0)) =
    .number (.int n) ∧ 0 ≤ n
  admissionPolicy : ∃ s, get data "admission_policy" (.string "reject") = .string s
  metadata : ∃ entries, get data "metadata" (.object []) = .object entries
  modules : ∃ modules, item data "modules" = .array modules ∧ modules ≠ [] ∧
    ∀ rawModule ∈ modules, IsModule rawModule

/-- What the contract accepts as a model. -/
structure ModelContract (data : List (String × HostValue F)) : Prop where
  known : ∀ key ∈ data.map Prod.fst, key ∈ modelKeys
  required : ∀ key ∈ ["model_profile_id", "context_limit_tokens", "reserved_output_tokens"],
    key ∈ data.map Prod.fst
  modelProfileId : ∃ s, item data "model_profile_id" = .string s ∧ s ≠ ""
  contextLimitTokens : ∃ n, item data "context_limit_tokens" = .number (.int n) ∧ 1 ≤ n
  reservedOutputTokens : ∃ n, item data "reserved_output_tokens" = .number (.int n) ∧ 0 ≤ n
  tokenizerId : ∃ s, get data "tokenizer_id" (.string "regex-estimator-v1") = .string s
  tokenizerVersion : ∃ s, get data "tokenizer_version" (.string "1") = .string s
  countMode : ∃ e s, get data "count_mode" (.string "estimated") = .string s ∧
    StrEnum.ofValue CountMode s = some e

omit [FloatOps F] in
theorem validateStepContract_ok (rawStep : HostValue F) (path : String) :
    validateStepContract rawStep path = .ok () ↔ IsStep rawStep := by
  simp only [IsStep, validateStepContract, Except.bind_eq_ok, object_ok, keys_ok, string_ok]
  constructor
  · rintro ⟨step, hraw, _, ⟨hknown, hrequired⟩, s, ⟨hs, hne⟩, options, hoptions, _⟩
    exact ⟨step, hraw, hknown, hrequired, ⟨s, hs, hne trivial⟩, ⟨options, hoptions⟩⟩
  · rintro ⟨step, hraw, h⟩
    obtain ⟨s, hs, hne⟩ := h.algorithmId
    obtain ⟨options, hoptions⟩ := h.options
    exact ⟨step, hraw, (), ⟨h.known, h.required⟩, s, ⟨hs, fun _ => hne⟩, options, hoptions, rfl⟩

theorem validateModuleContract_ok (rawModule : HostValue F) (path : String) :
    validateModuleContract rawModule path = .ok () ↔ IsModule rawModule := by
  simp only [IsModule, validateModuleContract, Except.bind_eq_ok, object_ok, array_ok, keys_ok,
    string_ok, integer_ok, number_ok, boolean_ok, enum_ok, Option.mem_def, Option.some.injEq,
    forall_eq', reduceCtorEq, false_imp_iff, implies_true, and_true, true_implies]
  constructor
  · rintro ⟨module, hraw, _, ⟨hknown, hrequired⟩, id, hid, floor, hfloor, target, htarget, max,
      hmax, order, horder, weight, hweight, lifecycle, hlifecycle, allocation, hallocation,
      protection, hprotection, reclaim, hreclaim, renderTarget, hrenderTarget, canBorrow,
      hcanBorrow, canLend, hcanLend, metadata, hmetadata, steps, hsteps, heach⟩
    exact ⟨module, hraw,
      { known := hknown
        required := hrequired
        moduleId := ⟨id, hid⟩
        floorTokens := ⟨floor, hfloor⟩
        targetTokens := ⟨target, htarget⟩
        maxTokens := ⟨max, hmax⟩
        order := ⟨order, horder⟩
        weight := ⟨weight, hweight⟩
        lifecycle := ⟨lifecycle, hlifecycle⟩
        allocation := ⟨allocation, hallocation⟩
        protection := ⟨protection, hprotection⟩
        reclaim := ⟨reclaim, hreclaim⟩
        renderTarget := ⟨renderTarget, hrenderTarget⟩
        canBorrow := ⟨canBorrow, hcanBorrow⟩
        canLend := ⟨canLend, hcanLend⟩
        metadata := ⟨metadata, hmetadata⟩
        pipeline := ⟨steps, hsteps, (forEach_ok validateStepContract_ok).1 heach⟩ }⟩
  · rintro ⟨module, hraw, h⟩
    obtain ⟨id, hid⟩ := h.moduleId
    obtain ⟨floor, hfloor⟩ := h.floorTokens
    obtain ⟨target, htarget⟩ := h.targetTokens
    obtain ⟨max, hmax⟩ := h.maxTokens
    obtain ⟨order, horder⟩ := h.order
    obtain ⟨weight, hweight⟩ := h.weight
    obtain ⟨lifecycle, hlifecycle⟩ := h.lifecycle
    obtain ⟨allocation, hallocation⟩ := h.allocation
    obtain ⟨protection, hprotection⟩ := h.protection
    obtain ⟨reclaim, hreclaim⟩ := h.reclaim
    obtain ⟨renderTarget, hrenderTarget⟩ := h.renderTarget
    obtain ⟨canBorrow, hcanBorrow⟩ := h.canBorrow
    obtain ⟨canLend, hcanLend⟩ := h.canLend
    obtain ⟨metadata, hmetadata⟩ := h.metadata
    obtain ⟨steps, hsteps, heach⟩ := h.pipeline
    exact ⟨module, hraw, (), ⟨h.known, h.required⟩, id, hid, floor, hfloor, target, htarget, max,
      hmax, order, horder, weight, hweight, lifecycle, hlifecycle, allocation, hallocation,
      protection, hprotection, reclaim, hreclaim, renderTarget, hrenderTarget, canBorrow,
      hcanBorrow, canLend, hcanLend, metadata, hmetadata, steps, hsteps,
      (forEach_ok validateStepContract_ok).2 heach⟩

theorem validateArenaContract_ok {data : List (String × HostValue F)} {path : String} :
    validateArenaContract data path = .ok () ↔ ArenaContract data := by
  simp only [validateArenaContract, Except.bind_eq_ok, object_ok, array_ok, keys_ok, string_ok,
    integer_ok, Option.mem_def, Option.some.injEq, forall_eq', reduceCtorEq, false_imp_iff,
    and_true, true_implies]
  constructor
  · rintro ⟨_, ⟨hknown, hrequired⟩, id, hid, schema, hschema, policy, hpolicy, reserve, hreserve,
      admission, hadmission, metadata, hmetadata, modules, hmodules, heach⟩
    split at heach
    · cases heach
    · rename_i hne
      exact
        { known := hknown
          required := hrequired
          arenaId := ⟨id, hid⟩
          schemaVersion := ⟨schema, hschema⟩
          policyVersion := ⟨policy, hpolicy⟩
          frameworkReserveTokens := ⟨reserve, hreserve⟩
          admissionPolicy := ⟨admission, hadmission⟩
          metadata := ⟨metadata, hmetadata⟩
          modules := ⟨modules, hmodules, fun hnil => hne (List.isEmpty_iff.2 hnil),
            (forEach_ok validateModuleContract_ok).1 heach⟩ }
  · intro h
    obtain ⟨id, hid⟩ := h.arenaId
    obtain ⟨schema, hschema⟩ := h.schemaVersion
    obtain ⟨policy, hpolicy⟩ := h.policyVersion
    obtain ⟨reserve, hreserve⟩ := h.frameworkReserveTokens
    obtain ⟨admission, hadmission⟩ := h.admissionPolicy
    obtain ⟨metadata, hmetadata⟩ := h.metadata
    obtain ⟨modules, hmodules, hne, heach⟩ := h.modules
    refine ⟨(), ⟨h.known, h.required⟩, id, hid, schema, hschema, policy, hpolicy, reserve, hreserve,
      admission, hadmission, metadata, hmetadata, modules, hmodules, ?_⟩
    rw [if_neg fun hempty => hne (List.isEmpty_iff.1 hempty)]
    exact (forEach_ok validateModuleContract_ok).2 heach

omit [FloatOps F] in
theorem validateModelContract_ok {data : List (String × HostValue F)} {path : String} :
    validateModelContract data path = .ok () ↔ ModelContract data := by
  simp only [validateModelContract, Except.bind_eq_ok, keys_ok, string_ok, integer_ok, enum_ok,
    Option.mem_def, Option.some.injEq, forall_eq', reduceCtorEq, false_imp_iff, and_true,
    true_implies]
  constructor
  · rintro ⟨_, ⟨hknown, hrequired⟩, id, hid, limit, hlimit, reserved, hreserved, tokenizer,
      htokenizer, version, hversion, countMode, hcountMode, _⟩
    exact ⟨hknown, hrequired, ⟨id, hid⟩, ⟨limit, hlimit⟩, ⟨reserved, hreserved⟩,
      ⟨tokenizer, htokenizer⟩, ⟨version, hversion⟩, ⟨countMode, hcountMode⟩⟩
  · intro h
    obtain ⟨id, hid⟩ := h.modelProfileId
    obtain ⟨limit, hlimit⟩ := h.contextLimitTokens
    obtain ⟨reserved, hreserved⟩ := h.reservedOutputTokens
    obtain ⟨tokenizer, htokenizer⟩ := h.tokenizerId
    obtain ⟨version, hversion⟩ := h.tokenizerVersion
    obtain ⟨countMode, hcountMode⟩ := h.countMode
    exact ⟨(), ⟨h.known, h.required⟩, id, hid, limit, hlimit, reserved, hreserved, tokenizer,
      htokenizer, version, hversion, countMode, hcountMode, rfl⟩

end Contracts

end Host

end ContextLease
