/-
The validators.

Every arena is built from a definition that `validateDefinition` accepts, and every call checks its
plan, its model, its budget and its contributions first.  The validators are the source's, with
their error codes and texts; what an accepted value satisfies is stated once, as a structure, and
used from there on.

Main definitions:

* `rejectIf` — the source's `if .. { return Err(..) }`;
* `validateDefinition`, `validateModel`, `validatePlan`, `validateModelBudget`,
  `validateContributions` — the validators;
* `ValidModule`, `ValidDefinition`, `ValidContribution` — what they establish.

Main results:

* `validateDefinition_ok` — an accepted definition is a `ValidDefinition`;
* `validateContributions_ok` — accepted contributions are the result, keyed by module, and each is
  a `ValidContribution`.
-/

import ContextLease.Types
import ContextLease.RustText
import ContextLease.Flagged
import Mathlib.Data.List.Nodup

set_option relaxedAutoImplicit false
set_option autoImplicit false

namespace ContextLease

open MachineNumbers RustText

variable {F : Type}

/-- The source's `if bad { return Err(..) }`. -/
def rejectIf (bad : Bool) (code message : String) : Result Unit :=
  if bad then fail code message else .ok ()

@[simp] theorem rejectIf_eq_ok {bad : Bool} {code message : String} {u : Unit} :
    rejectIf bad code message = .ok u ↔ bad = false := by
  cases bad <;> simp [rejectIf, fail]

/-- A `HashMap<String, V>` that is only looked up. -/
abbrev HashMap (V : Type) := String → Option V

namespace HashMap

variable {V : Type}

/-- The empty map. -/
def empty : HashMap V := fun _ => none

/-- The source's `insert`. -/
def insert (m : HashMap V) (key : String) (value : V) : HashMap V :=
  Function.update m key (some value)

/-- The source's `remove`, without the value it returns. -/
def remove (m : HashMap V) (key : String) : HashMap V := Function.update m key none

@[simp] theorem empty_apply (key : String) : (empty : HashMap V) key = none := rfl

@[simp] theorem insert_self (m : HashMap V) (key : String) (value : V) :
    m.insert key value key = some value := Function.update_self ..

theorem insert_of_ne (m : HashMap V) {key key' : String} (value : V) (h : key' ≠ key) :
    m.insert key value key' = m key' := Function.update_of_ne h ..

@[simp] theorem remove_self (m : HashMap V) (key : String) : m.remove key key = none :=
  Function.update_self ..

theorem remove_of_ne (m : HashMap V) {key key' : String} (h : key' ≠ key) :
    m.remove key key' = m key' := Function.update_of_ne h ..

/-- Removing what is not there changes nothing. -/
theorem remove_of_none {m : HashMap V} {key : String} (h : m key = none) : m.remove key = m := by
  funext key'
  by_cases hkey : key' = key
  · rw [hkey, remove_self, h]
  · exact remove_of_ne _ hkey

end HashMap

/-! ### Choices, models and plans -/

/-- The source's `validate_choice`. -/
def validateChoice (field value : String) (allowed : List String) : Result Unit :=
  rejectIf (!allowed.contains value) "configuration_error" ("invalid " ++ field ++ ": " ++ value)

/-- The source's `validate_model`. -/
def validateModel (model : ModelProfile) : Result Unit := do
  rejectIf
    (isBlank model.modelProfileId || decide (model.contextLimitTokens ≤ 0) ||
      decide (model.reservedOutputTokens < 0) || isBlank model.tokenizerId ||
      isBlank model.tokenizerVersion)
    "configuration_error" "invalid model profile"
  validateChoice "count_mode" model.countMode ["exact", "estimated", "hybrid"]

/-- The source's `validate_plan`. -/
def validatePlan (plan : PrepareRequest F) : Result Unit :=
  rejectIf (plan.schemaVersion != "1.0") "configuration_error"
    ("unsupported context plan schema_version: " ++ plan.schemaVersion)

theorem validateModel_ok {model : ModelProfile} (h : validateModel model = .ok ()) :
    0 < model.contextLimitTokens ∧ 0 ≤ model.reservedOutputTokens := by
  simp only [validateModel, Except.bind_eq_ok, rejectIf_eq_ok] at h
  obtain ⟨_, h, _⟩ := h
  simp only [Bool.or_eq_false_iff, decide_eq_false_iff_not] at h
  omega

/-! ### Definitions -/

/-- The source's `is_semantic_algorithm`. -/
def isSemanticAlgorithm (id : String) : Bool :=
  id == "builtin.semantic.summary.v1" || id == "builtin.semantic.portfolio.v1"

/-- The number of semantic steps of a pipeline. -/
def semanticSteps (pipeline : List CompressionStepSpec) : ℕ :=
  (pipeline.filter fun step => isSemanticAlgorithm step.algorithmId).length

section Definitions

variable [FloatOps F]

/-- The checks `validate_definition` makes of one module, after that of its id. -/
def validateModule (m : ModuleDefinition F) : Result Unit := do
  rejectIf
    (!(decide (0 ≤ m.floorTokens) && decide (m.floorTokens ≤ m.targetTokens) &&
      decide (m.targetTokens ≤ m.maxTokens)))
    "layout_validation_error" (m.moduleId ++ " invalid floor/target/max")
  rejectIf (FloatOps.le m.weight (FloatOps.ofInt 0)) "layout_validation_error"
    "weight must be positive"
  validateChoice "lifecycle" m.lifecycle ["static", "session", "request", "turn", "ephemeral"]
  validateChoice "allocation" m.allocation ["fixed", "weighted", "priority", "elastic"]
  validateChoice "protection" m.protection ["pinned", "mixed", "elastic"]
  validateChoice "reclaim" m.reclaim ["none", "builtin_pipeline", "semantic_pipeline", "custom"]
  validateChoice "render_target" m.renderTarget ["text", "messages", "tool_schema", "structured"]
  rejectIf (m.canBorrow && decide (m.maxTokens > m.targetTokens) && m.reclaimPipeline.isEmpty)
    "layout_validation_error" (m.moduleId ++ " borrowing requires reclaim pipeline")
  rejectIf (decide (semanticSteps m.reclaimPipeline > 1)) "layout_validation_error"
    (m.moduleId ++ " native two-phase pipelines support one semantic step")
  rejectIf (m.reclaimPipeline.any fun step => isBlank step.algorithmId) "layout_validation_error"
    (m.moduleId ++ " reclaim algorithm id must not be empty")

/-- The module loop of `validate_definition`; `ids` are the ids seen so far. -/
def validateModules : List String → List (ModuleDefinition F) → Result Unit
  | _, [] => .ok ()
  | ids, m :: ms => do
      rejectIf (isBlank m.moduleId || ids.contains m.moduleId) "layout_validation_error"
        "module ids must be unique"
      validateModule m
      validateModules (m.moduleId :: ids) ms

/-- The source's `validate_definition`. -/
def validateDefinition (definition : ArenaDefinition F) : Result Unit := do
  rejectIf
    (isBlank definition.arenaId || isBlank definition.schemaVersion ||
      isBlank definition.policyVersion || isBlank definition.admissionPolicy ||
      definition.modules.isEmpty || decide (definition.frameworkReserveTokens < 0))
    "layout_validation_error" "arena and modules are required"
  validateModules [] definition.modules

/-- A pinned system prompt, and a history that is truncated when it outgrows what it can borrow. -/
def exampleDefinition : ArenaDefinition ℚ where
  arenaId := "notes"
  modules :=
    [{ moduleId := "system", floorTokens := 4, targetTokens := 8, maxTokens := 8, weight := 2,
       protection := "pinned", canBorrow := false },
     { moduleId := "history", floorTokens := 2, targetTokens := 4, maxTokens := 6, order := 1,
       weight := 1, reclaimPipeline := [⟨"builtin.text.boundary_truncate.v1", []⟩] }]
  frameworkReserveTokens := 2

/-- What `validate_definition` establishes of a module. -/
structure ValidModule (m : ModuleDefinition F) : Prop where
  floor_nonneg : 0 ≤ m.floorTokens
  floor_le_target : m.floorTokens ≤ m.targetTokens
  target_le_max : m.targetTokens ≤ m.maxTokens
  semantic_le_one : semanticSteps m.reclaimPipeline ≤ 1

omit [FloatOps F] in
theorem ValidModule.target_nonneg {m : ModuleDefinition F} (h : ValidModule m) :
    0 ≤ m.targetTokens :=
  h.floor_nonneg.trans h.floor_le_target

/-- What `validate_definition` establishes of a definition. -/
structure ValidDefinition (definition : ArenaDefinition F) : Prop where
  modules_ne_nil : definition.modules ≠ []
  reserve_nonneg : 0 ≤ definition.frameworkReserveTokens
  ids_nodup : (definition.modules.map ModuleDefinition.moduleId).Nodup
  valid : ∀ m ∈ definition.modules, ValidModule m

theorem validateModule_ok {m : ModuleDefinition F} (h : validateModule m = .ok ()) :
    ValidModule m := by
  simp only [validateModule, Except.bind_eq_ok, rejectIf_eq_ok, Bool.not_eq_false',
    Bool.and_eq_true, decide_eq_true_eq, decide_eq_false_iff_not, not_lt] at h
  obtain ⟨_, ⟨⟨hfloor, htarget⟩, hmax⟩, _, _, _, _, _, _, _, _, _, _, _, _, _, _, _, hsem, _⟩ := h
  exact ⟨hfloor, htarget, hmax, by omega⟩

/-- The module loop accepts distinct valid modules whose ids it has not seen. -/
theorem validateModules_ok {ids : List String} {ms : List (ModuleDefinition F)}
    (h : validateModules ids ms = .ok ()) :
    (ms.map ModuleDefinition.moduleId).Nodup ∧ (∀ m ∈ ms, m.moduleId ∉ ids) ∧
      ∀ m ∈ ms, ValidModule m := by
  induction ms generalizing ids with
  | nil => simp
  | cons m ms ih =>
      simp only [validateModules, Except.bind_eq_ok, rejectIf_eq_ok, Bool.or_eq_false_iff] at h
      obtain ⟨_, ⟨_, hnew⟩, _, hm, hms⟩ := h
      obtain ⟨hnodup, hseen, hvalid⟩ := ih hms
      refine ⟨?_, ?_, ?_⟩
      · rw [List.map_cons, List.nodup_cons]
        refine ⟨?_, hnodup⟩
        intro hmem
        obtain ⟨m', hm', heq⟩ := List.mem_map.1 hmem
        exact hseen m' hm' (by rw [heq]; exact List.mem_cons_self ..)
      · intro m' hm'
        rcases List.mem_cons.1 hm' with rfl | hm'
        · simpa using hnew
        · exact fun hmem => hseen m' hm' (List.mem_cons_of_mem _ hmem)
      · intro m' hm'
        rcases List.mem_cons.1 hm' with rfl | hm'
        · exact validateModule_ok hm
        · exact hvalid m' hm'

/-- An accepted definition is valid. -/
theorem validateDefinition_ok {definition : ArenaDefinition F}
    (h : validateDefinition definition = .ok ()) : ValidDefinition definition := by
  simp only [validateDefinition, Except.bind_eq_ok, rejectIf_eq_ok, Bool.or_eq_false_iff,
    decide_eq_false_iff_not, not_lt] at h
  obtain ⟨_, ⟨⟨_, hne⟩, hreserve⟩, hmodules⟩ := h
  obtain ⟨hnodup, _, hvalid⟩ := validateModules_ok hmodules
  exact ⟨by simpa using hne, hreserve, hnodup, hvalid⟩

end Definitions

/-! ### Budgets -/

/-- The source's `validate_model_budget`. -/
def validateModelBudget (ar : Arith) (definition : ArenaDefinition F) (input : ℤ) : Result Unit :=
  let available := ar.sub input definition.frameworkReserveTokens
  rejectIf
    (decide (available ≤ 0) ||
      decide (ar.sum (definition.modules.map ModuleDefinition.floorTokens) > available))
    "layout_validation_error" "model budget cannot satisfy module floors"

theorem validateModelBudget_eq_ok {ar : Arith} {definition : ArenaDefinition F} {input : ℤ} :
    validateModelBudget ar definition input = .ok () ↔
      0 < ar.sub input definition.frameworkReserveTokens ∧
        ar.sum (definition.modules.map ModuleDefinition.floorTokens) ≤
          ar.sub input definition.frameworkReserveTokens := by
  simp only [validateModelBudget, rejectIf_eq_ok, Bool.or_eq_false_iff, decide_eq_false_iff_not]
  omega

/-! ### Contributions -/

/-- The chunk loop of `validate_contributions`; `ids` are the chunk ids seen so far. -/
def validateChunks (moduleId : String) : List String → List (PromptChunk F) → Result Unit
  | _, [] => .ok ()
  | ids, chunk :: chunks => do
      rejectIf (isBlank chunk.chunkId || isBlank chunk.kind) "configuration_error"
        "chunk id and kind must be non-empty"
      rejectIf (ids.contains chunk.chunkId) "configuration_error"
        ("module " ++ moduleId ++ " contains duplicate chunk_id " ++ chunk.chunkId)
      validateChoice "chunk protection" chunk.protection ["pinned", "mixed", "elastic"]
      validateChunks moduleId (chunk.chunkId :: ids) chunks

/-- The loop of `validate_contributions`. -/
def collectContributions (known : List String) :
    List (ModuleContribution F) → HashMap (ModuleContribution F) →
      Result (HashMap (ModuleContribution F))
  | [], out => .ok out
  | value :: values, out => do
      rejectIf (!known.contains value.moduleId) "configuration_error"
        ("unknown contribution module: " ++ value.moduleId)
      rejectIf (out value.moduleId).isSome "configuration_error"
        ("duplicate contribution module: " ++ value.moduleId)
      rejectIf (value.observedDemandTokens.any fun tokens => decide (tokens < 0))
        "configuration_error" "observed demand must be non-negative"
      validateChunks value.moduleId [] value.chunks
      collectContributions known values (out.insert value.moduleId value)

/-- The source's `validate_contributions`. -/
def validateContributions (definition : ArenaDefinition F) (values : List (ModuleContribution F)) :
    Result (HashMap (ModuleContribution F)) :=
  collectContributions (definition.modules.map ModuleDefinition.moduleId) values HashMap.empty

/-- What `validate_contributions` establishes of a contribution. -/
structure ValidContribution (definition : ArenaDefinition F) (c : ModuleContribution F) :
    Prop where
  known : c.moduleId ∈ definition.modules.map ModuleDefinition.moduleId
  demand_nonneg : ∀ tokens ∈ c.observedDemandTokens, 0 ≤ tokens
  ids_nodup : (c.chunks.map PromptChunk.chunkId).Nodup

theorem validateChunks_ok {moduleId : String} {ids : List String} {chunks : List (PromptChunk F)}
    (h : validateChunks moduleId ids chunks = .ok ()) :
    (chunks.map PromptChunk.chunkId).Nodup ∧ ∀ c ∈ chunks, c.chunkId ∉ ids := by
  induction chunks generalizing ids with
  | nil => simp
  | cons c chunks ih =>
      simp only [validateChunks, Except.bind_eq_ok, rejectIf_eq_ok] at h
      obtain ⟨_, _, _, hnew, _, _, hrest⟩ := h
      obtain ⟨hnodup, hseen⟩ := ih hrest
      refine ⟨?_, ?_⟩
      · rw [List.map_cons, List.nodup_cons]
        refine ⟨?_, hnodup⟩
        intro hmem
        obtain ⟨c', hc', heq⟩ := List.mem_map.1 hmem
        exact hseen c' hc' (by rw [heq]; exact List.mem_cons_self ..)
      · intro c' hc'
        rcases List.mem_cons.1 hc' with rfl | hc'
        · simpa using hnew
        · exact fun hmem => hseen c' hc' (List.mem_cons_of_mem _ hmem)

/-- The loop adds exactly the values it is given, under their module ids. -/
theorem collectContributions_ok {definition : ArenaDefinition F}
    {values : List (ModuleContribution F)} {out result : HashMap (ModuleContribution F)}
    (h : collectContributions (definition.modules.map ModuleDefinition.moduleId) values out =
      .ok result) :
    (∀ c ∈ values, ValidContribution definition c) ∧
      (values.map ModuleContribution.moduleId).Nodup ∧
      (∀ c ∈ values, out c.moduleId = none) ∧
      (∀ id, id ∉ values.map ModuleContribution.moduleId → result id = out id) ∧
      ∀ c ∈ values, result c.moduleId = some c := by
  induction values generalizing out with
  | nil =>
      simp only [collectContributions, Except.ok.injEq] at h
      simp [h]
  | cons v values ih =>
      simp only [collectContributions, Except.bind_eq_ok, rejectIf_eq_ok] at h
      obtain ⟨_, hknown, _, hfree, _, hdemand, _, hchunks, hrest⟩ := h
      obtain ⟨hvalid, hnodup, hnone, hother, hmem⟩ := ih hrest
      -- the rest is added to a map that has `v`, so it does not name its module again
      have hfresh : v.moduleId ∉ values.map ModuleContribution.moduleId := by
        intro hv
        obtain ⟨c, hc, heq⟩ := List.mem_map.1 hv
        have := hnone c hc
        rw [heq, HashMap.insert_self] at this
        cases this
      have hv : ValidContribution definition v := by
        refine ⟨by simpa using hknown, ?_, (validateChunks_ok hchunks).1⟩
        intro tokens htokens
        rw [Option.mem_def] at htokens
        simpa [htokens] using hdemand
      refine ⟨?_, ?_, ?_, ?_, ?_⟩
      · intro c hc
        rcases List.mem_cons.1 hc with rfl | hc
        · exact hv
        · exact hvalid c hc
      · rw [List.map_cons, List.nodup_cons]
        exact ⟨hfresh, hnodup⟩
      · intro c hc
        rcases List.mem_cons.1 hc with rfl | hc
        · simpa using hfree
        · have hne : c.moduleId ≠ v.moduleId := fun heq =>
            hfresh (heq ▸ List.mem_map_of_mem hc)
          have := hnone c hc
          rwa [HashMap.insert_of_ne _ _ hne] at this
      · intro id hid
        rw [List.map_cons, List.mem_cons, not_or] at hid
        rw [hother id hid.2, HashMap.insert_of_ne _ _ hid.1]
      · intro c hc
        rcases List.mem_cons.1 hc with rfl | hc
        · rw [hother _ hfresh, HashMap.insert_self]
        · exact hmem c hc

/-- Accepted contributions are the result, keyed by module. -/
theorem validateContributions_ok {definition : ArenaDefinition F}
    {values : List (ModuleContribution F)} {result : HashMap (ModuleContribution F)}
    (h : validateContributions definition values = .ok result) :
    (∀ c ∈ values, ValidContribution definition c) ∧
      ∀ id c, result id = some c ↔ c ∈ values ∧ c.moduleId = id := by
  obtain ⟨hvalid, hnodup, _, hother, hmem⟩ := collectContributions_ok h
  refine ⟨hvalid, ?_⟩
  intro id c
  constructor
  · intro hc
    by_cases hid : id ∈ values.map ModuleContribution.moduleId
    · obtain ⟨c', hc', rfl⟩ := List.mem_map.1 hid
      have := hmem c' hc'
      rw [hc, Option.some_inj] at this
      subst this
      exact ⟨hc', rfl⟩
    · rw [hother id hid] at hc
      cases hc
  · rintro ⟨hc, rfl⟩
    exact hmem c hc

end ContextLease
