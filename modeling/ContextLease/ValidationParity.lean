/-
What Python validates and the kernel accepts.

`contextlease validate` checks the arena and the model of a configuration on the Python side only.
The kernel reads and checks the same documents once more, by rules of its own: its integers have to
fit, its numbers have to be readable, some names may not be blank that may be blank in Python, and a
pipeline has one semantic step at most.  Every rule that both sides have is settled by Python's
check; what is left is `KernelRules`.

The kernel reads UTF-8, so what it reads of a document are the strings Python encodes.  A document
with a surrogate is never read, whatever Python's check says of it.

Main definitions:

* `checkBudget`, `KernelAccepts` — what the kernel runs on the two documents;
* `ModuleRules`, `ArenaRules`, `ModelRules`, `KernelRules` — the rules only the kernel has;
* `PassesValidate`, `KernelAcceptsDocuments`, `DocumentRules` — the same for documents as Python
  holds them.

Main results:

* `Host.validate_ok` — what a validated arena and model satisfy;
* `kernelModule_accepted_iff` — one module;
* `kernelRules_iff` — the kernel accepts what it reads of a configuration by `KernelRules`;
* `kernel_accepts_iff` — the kernel accepts a validated configuration exactly by `DocumentRules`.
-/

import ContextLease.DecimalTexts
import ContextLease.HostDocument
import ContextLease.Prepare
import ContextLease.SharedFields

set_option relaxedAutoImplicit false
set_option autoImplicit false

namespace ContextLease

open MachineNumbers RustText

variable {F : Type} [FloatOps F]

/-! ### What Python has checked -/

namespace Host

/-- What `compile_layout` establishes of a module. -/
structure CheckedModule (m : ModuleDefinition F) : Prop where
  moduleId : isBlank m.moduleId = false
  floor_nonneg : 0 ≤ m.floorTokens
  floor_le_target : m.floorTokens ≤ m.targetTokens
  target_le_max : m.targetTokens ≤ m.maxTokens
  borrowing : (m.canBorrow && decide (m.maxTokens > m.targetTokens) &&
    m.reclaimPipeline.isEmpty) = false

theorem checkModules_cons {ids : List String} {m : ModuleDefinition F}
    {ms : List (ModuleDefinition F)} (h : checkModules ids (m :: ms) = .ok ()) :
    CheckedModule m ∧ m.moduleId ∉ ids ∧ checkModules (m.moduleId :: ids) ms = .ok () := by
  simp only [checkModules, checkModule, Except.bind_eq_ok, rejectLayoutIf_eq_ok,
    Bool.not_eq_false', Bool.and_eq_true, decide_eq_true_eq] at h
  obtain ⟨_, ⟨_, hid, _, hseen, _, ⟨⟨hfloor, htarget⟩, hmax⟩, _, _, hborrow⟩, hrest⟩ := h
  exact ⟨⟨hid, hfloor, htarget, hmax, hborrow⟩, by simpa using hseen, hrest⟩

variable [NumberTexts F]

/-- What `contextlease validate` establishes of an arena and a model. -/
structure Validated (arena model : HostValue F) (definition : ArenaDefinition F)
    (profile : ModelProfile) : Prop where
  arena : arenaFromDict arena = .ok definition
  model : modelFromDict model = .ok profile
  arenaId : isBlank definition.arenaId = false
  modules_ne_nil : definition.modules ≠ []
  reserve_nonneg : 0 ≤ definition.frameworkReserveTokens
  modules : checkModules [] definition.modules = .ok ()
  available : 0 < profile.inputBudgetTokens - definition.frameworkReserveTokens
  floors : (definition.modules.map ModuleDefinition.floorTokens).sum ≤
    profile.inputBudgetTokens - definition.frameworkReserveTokens

theorem validate_ok {hexdigest : ByteArray → String} {arena model : HostValue F}
    {layout : CompiledLayout F} (h : validate hexdigest arena model = .ok layout) :
    ∃ profile, Validated arena model layout.definition profile := by
  simp only [validate, Except.bind_eq_ok] at h
  obtain ⟨_, _, _, _, _, _, _, _, definition, hdefinition, profile, hprofile, compiled, hcompiled,
    _, hbudget, heq⟩ := h
  cases heq
  simp only [compileLayout, Except.bind_eq_ok, rejectLayoutIf_eq_ok, decide_eq_false_iff_not,
    not_lt] at hcompiled
  obtain ⟨_, hid, _, hne, _, hreserve, _, hmodules, heq⟩ := hcompiled
  cases heq
  simp only [validateModelBudget, Except.bind_eq_ok, rejectLayoutIf_eq_ok, decide_eq_false_iff_not,
    not_le, not_lt] at hbudget
  obtain ⟨_, havailable, hfloors⟩ := hbudget
  exact ⟨profile, hdefinition, hprofile, hid, by simpa using hne, hreserve, hmodules, havailable,
    hfloors⟩

end Host

/-! ### What the kernel runs -/

/-- What `prepare` checks of a request, up to and with its budget. -/
def checkBudget (P : Platform) (definition : ArenaDefinition F) (request : PrepareRequest F)
    (counter : Option TokenCounter) (multiplier : F) : Result Unit := do
  checkRequest request counter
  let contributions ← validateContributions definition request.contributions
  let overhead := (renderSeparatorTokens P ⟨request.model.tokenizerId, counter, multiplier⟩
    contributions definition).val
  validateModelBudget P.arith definition
    (P.arith.sub
      (P.arith.sub request.model.contextLimitTokens request.model.reservedOutputTokens) overhead)

/-- The kernel reads the arena and the model, accepts them, and lets a request without contributions
pass the check of its budget. -/
structure KernelAccepts [NumberTexts F] (P : Platform) (counter : Option TokenCounter)
    (multiplier : F) (arena model : HostValue F) (definition : ArenaDefinition F)
    (profile : ModelProfile) : Prop where
  arena : decodeArena arena = some definition
  model : decodeModel (F := F) model = some profile
  validDefinition : validateDefinition definition = .ok ()
  validModel : validateModel profile = .ok ()
  budget : checkBudget P definition { model := profile } counter multiplier = .ok ()

/-! ### The rules only the kernel has -/

section Rules

variable [NumberTexts F]

/-- The kernel can read every number of a map. -/
def Readable (entries : List (String × HostValue F)) : Prop :=
  ∀ n ∈ (JsonTree.object entries).numbers, n.kernelText.isSome = true

/-- The rules for a module. -/
structure ModuleRules (rawModule : HostValue F) (m : Host.ModuleDefinition F) : Prop where
  maxTokens : m.maxTokens ≤ i32Max
  order : Arith.release.Fits m.order
  weight : ∃ w, decodeF64 (rawWeight rawModule) = some w ∧ FloatOps.le w (FloatOps.ofInt 0) = false
  algorithmIds : ∀ step ∈ m.reclaimPipeline, isBlank step.algorithmId = false
  semanticSteps :
    (m.reclaimPipeline.filter fun step => isSemanticAlgorithm step.algorithmId).length ≤ 1
  options : ∀ step ∈ m.reclaimPipeline, Readable step.options
  metadata : Readable m.metadata

/-- The rules for an arena. -/
structure ArenaRules (arena : HostValue F) (definition : Host.ArenaDefinition F) : Prop where
  depth : arena.depth ≤ recursionLimit
  schemaVersion : isBlank definition.schemaVersion = false
  policyVersion : isBlank definition.policyVersion = false
  admissionPolicy : isBlank definition.admissionPolicy = false
  metadata : Readable definition.metadata
  modules : List.Forall₂ ModuleRules (rawModules arena) definition.modules

omit [NumberTexts F] in
/-- The rules for a model; a count mode may need a host counter. -/
structure ModelRules (counter : Option TokenCounter) (model : HostValue F)
    (profile : Host.ModelProfile) : Prop where
  depth : model.depth ≤ recursionLimit
  contextLimitTokens : profile.contextLimitTokens ≤ i32Max
  modelProfileId : isBlank profile.modelProfileId = false
  tokenizerId : isBlank profile.tokenizerId = false
  tokenizerVersion : isBlank profile.tokenizerVersion = false
  counter : profile.countMode = .exact → counter.isSome = true

/-- The rules for a configuration. -/
structure KernelRules (counter : Option TokenCounter) (arena model : HostValue F)
    (definition : Host.ArenaDefinition F) : Prop where
  arena : ArenaRules arena definition
  model : ∀ profile, Host.modelFromDict model = .ok profile → ModelRules counter model profile

/-! ### One module -/

theorem isSome_decodeMap {entries : List (String × HostValue F)} :
    (decodeMap (.object entries)).isSome = true ↔ Readable entries := by
  rw [Readable, ← isSome_decodeValue, decodeValue_object, Option.isSome_map]

theorem exists_decodeMap {entries : List (String × HostValue F)} (h : Readable entries) :
    ∃ m, decodeMap (.object entries) = some m :=
  Option.isSome_iff_exists.1 (isSome_decodeMap.2 h)

theorem readable_of_decodeMap {entries : List (String × HostValue F)} {m : BTreeMap Value}
    (h : decodeMap (.object entries) = some m) : Readable entries :=
  isSome_decodeMap.1 (by rw [h]; rfl)

/-- The steps the kernel reads have the ids Python reads. -/
theorem kernelSteps_ok {steps : List (Host.CompressionStepSpec F)}
    {pipeline : List CompressionStepSpec} (h : allSome (steps.map kernelStep) = some pipeline) :
    pipeline.map CompressionStepSpec.algorithmId =
        steps.map Host.CompressionStepSpec.algorithmId ∧
      ∀ step ∈ steps, Readable step.options := by
  rw [allSome_eq_some] at h
  induction steps generalizing pipeline with
  | nil =>
      cases pipeline with
      | nil => exact ⟨rfl, by simp⟩
      | cons step pipeline => cases h
  | cons step steps ih =>
      cases pipeline with
      | nil => cases h
      | cons step' pipeline =>
          rw [List.map_cons, List.map_cons, List.cons.injEq] at h
          obtain ⟨hids, hoptions⟩ := ih h.2
          obtain ⟨options, hread, rfl⟩ := Option.map_eq_some_iff.1 h.1
          refine ⟨by rw [List.map_cons, List.map_cons, hids], ?_⟩
          rw [List.forall_mem_cons]
          exact ⟨readable_of_decodeMap hread, hoptions⟩

theorem exists_kernelSteps {steps : List (Host.CompressionStepSpec F)}
    (h : ∀ step ∈ steps, Readable step.options) :
    ∃ pipeline, allSome (steps.map kernelStep) = some pipeline := by
  refine Option.isSome_iff_exists.1 (isSome_allSome.2 ?_)
  intro step hstep
  obtain ⟨step', hstep', rfl⟩ := List.mem_map.1 hstep
  rw [kernelStep, Option.isSome_map]
  exact isSome_decodeMap.2 (h step' hstep')

omit [FloatOps F] [NumberTexts F] in
/-- What two pipelines with the same ids have in common. -/
theorem pipeline_alike {pipeline : List CompressionStepSpec}
    {steps : List (Host.CompressionStepSpec F)}
    (h : pipeline.map CompressionStepSpec.algorithmId =
      steps.map Host.CompressionStepSpec.algorithmId) :
    semanticSteps pipeline =
        (steps.filter fun step => isSemanticAlgorithm step.algorithmId).length ∧
      ((pipeline.any fun step => isBlank step.algorithmId) =
        steps.any fun step => isBlank step.algorithmId) ∧
      pipeline.isEmpty = steps.isEmpty := by
  have hfilter {A : Type} (f : A → String) (l : List A) :
      (l.filter fun a => isSemanticAlgorithm (f a)).length =
        ((l.map f).filter isSemanticAlgorithm).length := by
    rw [List.filter_map, List.length_map]
    rfl
  have hany {A : Type} (f : A → String) (l : List A) :
      (l.any fun a => isBlank (f a)) = (l.map f).any isBlank := by
    rw [List.any_map]
    rfl
  have hempty {A : Type} (f : A → String) (l : List A) : l.isEmpty = (l.map f).isEmpty := by
    cases l <;> rfl
  refine ⟨?_, ?_, ?_⟩
  · rw [semanticSteps, hfilter CompressionStepSpec.algorithmId,
      hfilter Host.CompressionStepSpec.algorithmId, h]
  · rw [hany CompressionStepSpec.algorithmId, hany Host.CompressionStepSpec.algorithmId, h]
  · rw [hempty CompressionStepSpec.algorithmId, hempty Host.CompressionStepSpec.algorithmId, h]

/-- A choice the kernel allows. -/
theorem validateChoice_eq_ok {field value : String} {allowed : List String} {u : Unit} :
    validateChoice field value allowed = .ok u ↔ value ∈ allowed := by
  rw [validateChoice, rejectIf_eq_ok, Bool.not_eq_false', List.contains_iff_mem]

/-- The kernel reads and accepts a module that Python accepts exactly by its rules. -/
theorem kernelModule_accepted_iff {rawModule : HostValue F} {m : Host.ModuleDefinition F}
    (h : Host.CheckedModule m) :
    (∃ m', kernelModule (rawWeight rawModule) m = some m' ∧ validateModule m' = .ok ()) ↔
      ModuleRules rawModule m := by
  have hfloor := h.floor_nonneg
  have htarget := h.floor_le_target
  have hmax := h.target_le_max
  constructor
  · rintro ⟨m', hread, hvalid⟩
    simp only [kernelModule, Option.bind_eq_bind, Option.bind_eq_some_iff, decodeI32_eq_some,
      Option.some.injEq] at hread
    obtain ⟨_, -, _, -, _, ⟨hmaxFits, rfl⟩, _, ⟨horder, rfl⟩, w, hw, pipeline, hpipeline, metadata,
      hmetadata, rfl⟩ := hread
    obtain ⟨hids, hoptions⟩ := kernelSteps_ok hpipeline
    obtain ⟨hsemantic, hblank, -⟩ := pipeline_alike hids
    simp only [validateModule, Except.bind_eq_ok, rejectIf_eq_ok, hsemantic, hblank,
      decide_eq_false_iff_not, not_lt, gt_iff_lt, List.any_eq_false, Bool.not_eq_true] at hvalid
    obtain ⟨_, -, _, hweight, _, -, _, -, _, -, _, -, _, -, _, -, _, hone, hids⟩ := hvalid
    exact ⟨hmaxFits.2, horder, ⟨w, hw, hweight⟩, hids, hone, hoptions,
      readable_of_decodeMap hmetadata⟩
  · intro hrules
    obtain ⟨w, hw, hweight⟩ := hrules.weight
    obtain ⟨pipeline, hpipeline⟩ := exists_kernelSteps hrules.options
    obtain ⟨metadata, hmetadata⟩ := exists_decodeMap hrules.metadata
    obtain ⟨hids, -⟩ := kernelSteps_ok hpipeline
    obtain ⟨hsemantic, hblank, hempty⟩ := pipeline_alike hids
    have hnames : (pipeline.any fun step => isBlank step.algorithmId) = false := by
      rw [hblank, List.any_eq_false]
      simpa using hrules.algorithmIds
    have hlarge := hrules.maxTokens
    have hfits {n : ℤ} (hnonneg : 0 ≤ n) (hle : n ≤ m.maxTokens) : Arith.release.Fits n := by
      simp only [Arith.Fits, i32Min, i32Max] at hlarge ⊢
      omega
    have hlifecycle : Host.StrEnum.value m.lifecycle ∈
        ["static", "session", "request", "turn", "ephemeral"] := by
      cases m.lifecycle <;> decide
    have hallocation : Host.StrEnum.value m.allocation ∈
        ["fixed", "weighted", "priority", "elastic"] := by
      cases m.allocation <;> decide
    have hprotection : Host.StrEnum.value m.protection ∈ ["pinned", "mixed", "elastic"] := by
      cases m.protection <;> decide
    have hreclaim : Host.StrEnum.value m.reclaim ∈
        ["none", "builtin_pipeline", "semantic_pipeline", "custom"] := by
      cases m.reclaim <;> decide
    have hrenderTarget : Host.StrEnum.value m.renderTarget ∈
        ["text", "messages", "tool_schema", "structured"] := by
      cases m.renderTarget <;> decide
    simp only [kernelModule, decodeI32_eq_some.2 ⟨hfits hfloor (by omega), rfl⟩,
      decodeI32_eq_some.2 ⟨hfits (hfloor.trans htarget) hmax, rfl⟩,
      decodeI32_eq_some.2 ⟨hfits (by omega) (le_refl m.maxTokens), rfl⟩,
      decodeI32_eq_some.2 ⟨hrules.order, rfl⟩, hw, hpipeline, hmetadata, Option.bind_eq_bind,
      Option.bind_some, Option.some.injEq, exists_eq_left', validateModule, Except.bind_eq_ok,
      rejectIf_eq_ok, validateChoice_eq_ok, hsemantic, hnames, hempty, hweight, hfloor, htarget,
      hmax, decide_true, Bool.and_true, Bool.not_true, exists_const, and_true,
      hlifecycle, hallocation, hprotection, hreclaim, hrenderTarget, h.borrowing,
      decide_eq_false_iff_not, not_lt, gt_iff_lt, hrules.semanticSteps]

/-! ### The modules -/

omit [FloatOps F] [NumberTexts F] in
/-- What Python does not call blank, the kernel does not call blank either. -/
theorem isBlank_of_host {text : String} (h : Host.isBlank text = false) : isBlank text = false := by
  rw [← Bool.not_eq_true] at h ⊢
  rw [isBlank_iff]
  refine fun hwhite => h (List.all_eq_true.2 fun c hc => ?_)
  rw [Host.isSpace, hwhite c hc, Bool.true_or]

/-- A module as the kernel reads it, next to Python's. -/
def SameModule (m' : ModuleDefinition F) (m : Host.ModuleDefinition F) : Prop :=
  m'.moduleId = m.moduleId ∧ m'.floorTokens = m.floorTokens

theorem sameModule_of_kernelModule {weight : HostValue F} {m : Host.ModuleDefinition F}
    {m' : ModuleDefinition F} (h : kernelModule weight m = some m') : SameModule m' m := by
  simp only [kernelModule, Option.bind_eq_bind, Option.bind_eq_some_iff, decodeI32_eq_some,
    Option.some.injEq] at h
  obtain ⟨_, ⟨-, rfl⟩, _, -, _, -, _, -, _, -, _, -, _, -, rfl⟩ := h
  exact ⟨rfl, rfl⟩

/-- The kernel reads and accepts the modules that Python accepts exactly by their rules. -/
theorem kernelModules_accepted_iff {raws : List (HostValue F)} {ms : List (Host.ModuleDefinition F)}
    (hread : List.Forall₂ (fun raw m => Host.moduleFromDict raw = .ok m) raws ms)
    (hraws : ∀ raw ∈ raws, Host.IsModule raw) {ids : List String}
    (h : Host.checkModules ids ms = .ok ()) :
    (∃ ms', allSome (raws.map decodeModule) = some ms' ∧ validateModules ids ms' = .ok ()) ↔
      List.Forall₂ ModuleRules raws ms := by
  induction hread generalizing ids with
  | nil => exact iff_of_true ⟨[], rfl, rfl⟩ .nil
  | @cons raw m raws ms hm hread ih =>
      obtain ⟨hchecked, hnew, hrest⟩ := Host.checkModules_cons h
      have hraw := hraws raw List.mem_cons_self
      have hmodule : _ ↔ ModuleRules raw m := kernelModule_accepted_iff hchecked
      have hmodules := ih (fun raw' hraw => hraws raw' (List.mem_cons_of_mem _ hraw)) hrest
      have hname : isBlank m.moduleId = false := isBlank_of_host hchecked.moduleId
      rw [List.forall₂_cons, ← hmodule, ← hmodules]
      constructor
      · rintro ⟨ms', hall, hvalid⟩
        obtain ⟨m', hm', rest, hrest', rfl⟩ := (decodeModules_cons hraw hm).1 hall
        simp only [validateModules, Except.bind_eq_ok] at hvalid
        obtain ⟨_, -, _, hvalid, hvalids⟩ := hvalid
        rw [(sameModule_of_kernelModule hm').1] at hvalids
        exact ⟨⟨m', hm', hvalid⟩, rest, hrest', hvalids⟩
      · rintro ⟨⟨m', hm', hvalid⟩, rest, hrest', hvalids⟩
        have hsame := (sameModule_of_kernelModule hm').1
        refine ⟨m' :: rest, (decodeModules_cons hraw hm).2 ⟨m', hm', rest, hrest', rfl⟩, ?_⟩
        simp only [validateModules, Except.bind_eq_ok, rejectIf_eq_ok, hsame, hname, Bool.false_or]
        exact ⟨(), by simpa using hnew, (), hvalid, hvalids⟩

/-- The modules the kernel reads have the floors Python reads. -/
theorem floors_eq {raws : List (HostValue F)} {ms : List (Host.ModuleDefinition F)}
    (hread : List.Forall₂ (fun raw m => Host.moduleFromDict raw = .ok m) raws ms)
    (hraws : ∀ raw ∈ raws, Host.IsModule raw) {ms' : List (ModuleDefinition F)}
    (h : allSome (raws.map decodeModule) = some ms') :
    ms'.map ModuleDefinition.floorTokens = ms.map Host.ModuleDefinition.floorTokens := by
  induction hread generalizing ms' with
  | nil =>
      cases h
      rfl
  | @cons raw m raws ms hm hread ih =>
      obtain ⟨m', hm', rest, hrest, rfl⟩ :=
        (decodeModules_cons (hraws raw List.mem_cons_self) hm).1 h
      rw [List.map_cons, List.map_cons, (sameModule_of_kernelModule hm').2,
        ih (fun raw' hraw => hraws raw' (List.mem_cons_of_mem _ hraw)) hrest]

/-! ### The budget -/

omit [FloatOps F] [NumberTexts F] in
theorem fits_of_release (a : Arith) {n : ℤ} (h : Arith.release.Fits n) : a.Fits n := by
  cases a with
  | exact => trivial
  | release => exact h

omit [NumberTexts F] in
/-- A budget that Python finds large enough is so for the kernel, without wrapping. -/
theorem budget_ok {P : Platform} {counter : Option TokenCounter} {multiplier : F}
    {definition : ArenaDefinition F} {profile : ModelProfile}
    (hrequest : checkRequest ({ model := profile } : PrepareRequest F) counter = .ok ())
    (hlimit : profile.contextLimitTokens ≤ i32Max) (hreserved : 0 ≤ profile.reservedOutputTokens)
    (hreserve : 0 ≤ definition.frameworkReserveTokens)
    (hfloors : ∀ m ∈ definition.modules, 0 ≤ m.floorTokens)
    (havailable : 0 < profile.contextLimitTokens - profile.reservedOutputTokens -
      definition.frameworkReserveTokens)
    (hsum : (definition.modules.map ModuleDefinition.floorTokens).sum ≤
      profile.contextLimitTokens - profile.reservedOutputTokens -
        definition.frameworkReserveTokens) :
    checkBudget P definition { model := profile } counter multiplier = .ok () := by
  have hfits {n : ℤ} (hn : 0 ≤ n) (hle : n ≤ profile.contextLimitTokens) : P.arith.Fits n := by
    refine fits_of_release P.arith ?_
    simp only [Arith.Fits, i32Min, i32Max] at hlimit ⊢
    omega
  have hnone : renderSeparatorTokens P ⟨profile.tokenizerId, counter, multiplier⟩
      (HashMap.empty : HashMap (ModuleContribution F)) definition = pure 0 := by
    have hcount : renderedModuleCount (HashMap.empty : HashMap (ModuleContribution F)) definition =
        0 := by
      rw [renderedModuleCount, List.length_eq_zero_iff, List.filter_eq_nil_iff]
      intro m _
      simp [chunksOf]
    rw [renderSeparatorTokens, hcount]
    rfl
  have hnonneg : 0 ≤ (definition.modules.map ModuleDefinition.floorTokens).sum := by
    refine List.sum_nonneg ?_
    intro n hn
    obtain ⟨m, hm, rfl⟩ := List.mem_map.1 hn
    exact hfloors m hm
  simp only [checkBudget, Except.bind_eq_ok, validateContributions, collectContributions,
    Except.ok.injEq, exists_eq_left', hnone, Flagged.val_pure, validateModelBudget_eq_ok]
  have hinput : P.arith.sub profile.contextLimitTokens profile.reservedOutputTokens =
      profile.contextLimitTokens - profile.reservedOutputTokens :=
    Arith.sub_of_fits (hfits (by omega) (by omega))
  have hoverhead : P.arith.sub (profile.contextLimitTokens - profile.reservedOutputTokens) 0 =
      profile.contextLimitTokens - profile.reservedOutputTokens := by
    rw [Arith.sub_of_fits (hfits (by omega) (by omega)), sub_zero]
  refine ⟨(), hrequest, ?_⟩
  rw [hinput, hoverhead, Arith.sub_of_fits (hfits (by omega) (by omega)),
    Arith.sum_of_fits (hfits hnonneg (by omega))]
  exact ⟨havailable, hsum⟩

/-! ### Configurations -/

omit [FloatOps F] [NumberTexts F] in
/-- What the kernel checks of a model and the counter, when Python has read the model. -/
theorem checkRequest_iff {profile : Host.ModelProfile} {p : ModelProfile}
    {counter : Option TokenCounter} (hlimit : 0 < profile.contextLimitTokens)
    (hreserved : 0 ≤ profile.reservedOutputTokens) (h : kernelModel profile = some p) :
    checkRequest ({ model := p } : PrepareRequest F) counter = .ok () ↔
      isBlank profile.modelProfileId = false ∧ isBlank profile.tokenizerId = false ∧
        isBlank profile.tokenizerVersion = false ∧
          (profile.countMode = .exact → counter.isSome = true) := by
  rw [kernelModel] at h
  split at h
  · cases h
    have hmode : Host.StrEnum.value profile.countMode ∈ ["exact", "estimated", "hybrid"] := by
      cases profile.countMode <;> decide
    have hexact : (Host.StrEnum.value profile.countMode == "exact" && counter.isNone) = false ↔
        (profile.countMode = .exact → counter.isSome = true) := by
      cases profile.countMode <;> cases counter <;> simp [Host.StrEnum.value]
    have hplan : validatePlan
        ({ model :=
            { modelProfileId := profile.modelProfileId
              contextLimitTokens := profile.contextLimitTokens
              reservedOutputTokens := profile.reservedOutputTokens
              tokenizerId := profile.tokenizerId
              tokenizerVersion := profile.tokenizerVersion
              countMode := Host.StrEnum.value profile.countMode } } : PrepareRequest F) =
        .ok () := rfl
    simp only [checkRequest, hplan, validateModel, Except.bind_eq_ok, rejectIf_eq_ok,
      validateChoice_eq_ok, hmode, and_true, Bool.or_eq_false_iff, decide_eq_false_iff_not, not_le,
      not_lt, hlimit, hreserved, exists_const, hexact, and_assoc, true_and]
  · cases h

omit [FloatOps F] [NumberTexts F] in
theorem modelFromDict_bounds {model : HostValue F} {profile : Host.ModelProfile}
    (h : Host.modelFromDict model = .ok profile) :
    0 < profile.contextLimitTokens ∧ 0 ≤ profile.reservedOutputTokens := by
  simp only [Host.modelFromDict, Except.bind_eq_ok, Host.object_ok] at h
  obtain ⟨data, rfl, _, hcontract, heq⟩ := h
  cases heq
  have hcontract := Host.validateModelContract_ok.1 hcontract
  obtain ⟨limit, hlimit, hpos⟩ := hcontract.contextLimitTokens
  obtain ⟨reserved, hreserved, hnonneg⟩ := hcontract.reservedOutputTokens
  simp only [Host.int, hlimit, hreserved]
  exact ⟨by omega, hnonneg⟩

omit [FloatOps F] [NumberTexts F] in
/-- The kernel reads a validated model exactly when its limit fits. -/
theorem kernelModel_eq_some {profile : Host.ModelProfile} {p : ModelProfile} :
    kernelModel profile = some p ↔
      (Arith.release.Fits profile.contextLimitTokens ∧
        Arith.release.Fits profile.reservedOutputTokens) ∧
      { modelProfileId := profile.modelProfileId
        contextLimitTokens := profile.contextLimitTokens
        reservedOutputTokens := profile.reservedOutputTokens
        tokenizerId := profile.tokenizerId
        tokenizerVersion := profile.tokenizerVersion
        countMode := Host.StrEnum.value profile.countMode } = p := by
  rw [kernelModel]
  split
  · rename_i hfits
    simp [hfits]
  · rename_i hfits
    simp [hfits]

/-- An arena as the kernel reads it, next to Python's. -/
structure SameArena (d : ArenaDefinition F) (definition : Host.ArenaDefinition F) : Prop where
  reserve : d.frameworkReserveTokens = definition.frameworkReserveTokens
  floors : d.modules.map ModuleDefinition.floorTokens =
    definition.modules.map Host.ModuleDefinition.floorTokens

theorem sameArena_of_decodeArena {arena : HostValue F} {definition : Host.ArenaDefinition F}
    (h : ReadFrom arena definition) {d : ArenaDefinition F} (hd : decodeArena arena = some d) :
    SameArena d definition := by
  rw [decodeArena, Option.ite_none_right_eq_some, decodeArena_eq h] at hd
  simp only [kernelArena, Option.bind_eq_bind, Option.bind_eq_some_iff, decodeI32_eq_some,
    Option.some.injEq] at hd
  obtain ⟨-, modules, hmodules, _, ⟨-, rfl⟩, _, -, rfl⟩ := hd
  exact ⟨rfl, floors_eq h.modules h.isModule hmodules⟩

/-- The kernel reads and accepts an arena that Python accepts exactly by its rules. -/
theorem arena_accepted_iff {arena model : HostValue F} {definition : Host.ArenaDefinition F}
    {profile : Host.ModelProfile} (h : Host.Validated arena model definition profile)
    (hreserve : definition.frameworkReserveTokens ≤ i32Max) :
    (∃ d, decodeArena arena = some d ∧ validateDefinition d = .ok ()) ↔
      ArenaRules arena definition := by
  have hread := arenaFromDict_ok h.arena
  have hmodules := kernelModules_accepted_iff hread.modules hread.isModule h.modules
  have hfits : Arith.release.Fits definition.frameworkReserveTokens := by
    have hnonneg := h.reserve_nonneg
    simp only [Arith.Fits, i32Min, i32Max] at hreserve ⊢
    omega
  constructor
  · rintro ⟨d, hd, hvalid⟩
    rw [decodeArena, Option.ite_none_right_eq_some, decodeArena_eq hread] at hd
    simp only [kernelArena, Option.bind_eq_bind, Option.bind_eq_some_iff, decodeI32_eq_some,
      Option.some.injEq] at hd
    obtain ⟨hdepth, modules, hall, _, -, metadata, hmetadata, rfl⟩ := hd
    simp only [validateDefinition, Except.bind_eq_ok, rejectIf_eq_ok, Bool.or_eq_false_iff]
      at hvalid
    obtain ⟨_, ⟨⟨⟨⟨⟨-, hschema⟩, hpolicy⟩, hadmission⟩, -⟩, -⟩, hvalids⟩ := hvalid
    exact ⟨hdepth, hschema, hpolicy, hadmission, readable_of_decodeMap hmetadata,
      hmodules.1 ⟨modules, hall, hvalids⟩⟩
  · intro hrules
    obtain ⟨modules, hall, hvalids⟩ := hmodules.2 hrules.modules
    obtain ⟨metadata, hmetadata⟩ := exists_decodeMap hrules.metadata
    have hne : modules.isEmpty = false := by
      have hlength := congrArg List.length (floors_eq hread.modules hread.isModule hall)
      rw [List.length_map, List.length_map] at hlength
      have hpos := List.length_pos_iff.2 h.modules_ne_nil
      rw [List.isEmpty_eq_false_iff, ← List.length_pos_iff]
      omega
    simp only [decodeArena, hrules.depth, if_true, decodeArena_eq hread, kernelArena, hall,
      decodeI32_eq_some.2 ⟨hfits, rfl⟩, hmetadata, Option.bind_eq_bind, Option.bind_some,
      Option.some.injEq, exists_eq_left', validateDefinition, Except.bind_eq_ok, rejectIf_eq_ok,
      isBlank_of_host h.arenaId, hrules.schemaVersion, hrules.policyVersion,
      hrules.admissionPolicy, hne, Bool.false_or, decide_eq_false_iff_not, not_lt,
      h.reserve_nonneg, hvalids, exists_const, and_self]

/-- What the kernel checks of the documents that `contextlease validate` has passed, it accepts
exactly by the rules that only the kernel has. -/
theorem kernelRules_iff (P : Platform) (counter : Option TokenCounter) (multiplier : F)
    (hexdigest : ByteArray → String) {arena model : HostValue F} {layout : Host.CompiledLayout F}
    (h : Host.validate hexdigest arena model = .ok layout) :
    (∃ d p, KernelAccepts P counter multiplier arena model d p) ↔
      KernelRules counter arena model layout.definition := by
  obtain ⟨profile, h⟩ := Host.validate_ok h
  obtain ⟨hlimit, hreserved⟩ := modelFromDict_bounds h.model
  have havailable := h.available
  have hfloors := h.floors
  have hreserve := h.reserve_nonneg
  simp only [Host.ModelProfile.inputBudgetTokens] at havailable hfloors
  constructor
  · rintro ⟨d, p, ha⟩
    have hmodel := ha.model
    rw [decodeModel, Option.ite_none_right_eq_some, decodeModel_eq h.model] at hmodel
    obtain ⟨hdepth, hmodel⟩ := hmodel
    obtain ⟨⟨hfits, -⟩, -⟩ := kernelModel_eq_some.1 hmodel
    have hbudget := ha.budget
    simp only [checkBudget, Except.bind_eq_ok] at hbudget
    obtain ⟨_, hrequest, -⟩ := hbudget
    obtain ⟨hid, htokenizer, hversion, hcounter⟩ :=
      (checkRequest_iff hlimit hreserved hmodel).1 hrequest
    have hle : layout.definition.frameworkReserveTokens ≤ i32Max := by
      have hsmall := hfits.2
      omega
    refine ⟨(arena_accepted_iff h hle).1 ⟨d, ha.arena, ha.validDefinition⟩, ?_⟩
    intro profile' h'
    rw [h.model, Except.ok.injEq] at h'
    subst h'
    exact ⟨hdepth, hfits.2, hid, htokenizer, hversion, hcounter⟩
  · intro hrules
    have hmodel := hrules.model profile h.model
    have hsmall := hmodel.contextLimitTokens
    have hfits {n : ℤ} (hn : 0 ≤ n) (hle : n ≤ profile.contextLimitTokens) :
        Arith.release.Fits n := by
      simp only [Arith.Fits, i32Min, i32Max] at hsmall ⊢
      omega
    obtain ⟨d, hd, hvalid⟩ := (arena_accepted_iff h (by omega)).2 hrules.arena
    obtain ⟨hdreserve, hdfloors⟩ := sameArena_of_decodeArena (arenaFromDict_ok h.arena) hd
    have hread := kernelModel_eq_some.2
      ⟨⟨hfits hlimit.le le_rfl, hfits hreserved (by omega)⟩, rfl⟩
    have hrequest := (checkRequest_iff (F := F) hlimit hreserved hread).2
      ⟨hmodel.modelProfileId, hmodel.tokenizerId, hmodel.tokenizerVersion, hmodel.counter⟩
    have hp := (decodeModel_eq h.model).trans hread
    rw [← if_pos (c := model.depth ≤ recursionLimit) (t := decodeModelFields model) (e := none)
      hmodel.depth, ← decodeModel] at hp
    refine ⟨d, _, hd, hp, hvalid, ?_, ?_⟩
    · simp only [checkRequest, Except.bind_eq_ok] at hrequest
      obtain ⟨_, -, _, hmodel, -⟩ := hrequest
      exact hmodel
    · refine budget_ok hrequest hsmall hreserved ?_ ?_ ?_ ?_
      · rw [hdreserve]
        exact hreserve
      · exact fun m hm => ((validateDefinition_ok hvalid).valid m hm).floor_nonneg
      · rw [hdreserve]
        exact havailable
      · rw [hdreserve, hdfloors]
        exact hfloors

/-! ### Documents -/

/-- Two documents that pass `contextlease validate`, as far as they have no surrogates: nothing is
asked of a document that has one. -/
def PassesValidate (hexdigest : ByteArray → String) (arena model : Document F) : Prop :=
  ∀ a m, arena.encode = some a → model.encode = some m →
    ∃ layout, Host.validate hexdigest a m = .ok layout

/-- The kernel reads what Python encodes of two documents, and accepts it. -/
def KernelAcceptsDocuments (P : Platform) (counter : Option TokenCounter) (multiplier : F)
    (arena model : Document F) : Prop :=
  ∃ a m, arena.encode = some a ∧ model.encode = some m ∧
    ∃ definition profile, KernelAccepts P counter multiplier a m definition profile

/-- The rules for two documents: there are no surrogates in them, and what they are without is by
the rules for a configuration. -/
structure DocumentRules (counter : Option TokenCounter) (arena model : Document F) : Prop where
  arenaUnicode : arena.IsUnicode
  modelUnicode : model.IsUnicode
  rules : ∀ a m definition, arena.encode = some a → model.encode = some m →
    Host.arenaFromDict a = .ok definition → KernelRules counter a m definition

/-- The kernel accepts two documents that `contextlease validate` has passed exactly by the rules
that only the kernel has. -/
theorem kernel_accepts_iff (P : Platform) (counter : Option TokenCounter) (multiplier : F)
    (hexdigest : ByteArray → String) {arena model : Document F}
    (h : PassesValidate hexdigest arena model) :
    KernelAcceptsDocuments P counter multiplier arena model ↔
      DocumentRules counter arena model := by
  constructor
  · rintro ⟨a, m, ha, hm, haccepts⟩
    refine ⟨Document.exists_encode_iff.1 ⟨a, ha⟩, Document.exists_encode_iff.1 ⟨m, hm⟩, ?_⟩
    intro a' m' definition ha' hm' hdefinition
    obtain rfl := Option.some_inj.1 (ha.symm.trans ha')
    obtain rfl := Option.some_inj.1 (hm.symm.trans hm')
    obtain ⟨layout, hlayout⟩ := h a m ha hm
    obtain ⟨profile, hvalidated⟩ := Host.validate_ok hlayout
    obtain rfl := Except.ok.inj (hvalidated.arena.symm.trans hdefinition)
    exact (kernelRules_iff P counter multiplier hexdigest hlayout).1 haccepts
  · intro hrules
    obtain ⟨a, ha⟩ := Document.exists_encode_iff.2 hrules.arenaUnicode
    obtain ⟨m, hm⟩ := Document.exists_encode_iff.2 hrules.modelUnicode
    obtain ⟨layout, hlayout⟩ := h a m ha hm
    obtain ⟨profile, hvalidated⟩ := Host.validate_ok hlayout
    exact ⟨a, m, ha, hm, (kernelRules_iff P counter multiplier hexdigest hlayout).2
      (hrules.rules a m _ ha hm hvalidated.arena)⟩

end Rules

/-! ### A configuration -/

/-- A note taker with one module, under a policy of some version. -/
def notesArena (policyVersion : String) : HostValue Decimal :=
  .object
    [("arena_id", .string "notes"), ("policy_version", .string policyVersion),
     ("modules", .array
       [.object
         [("module_id", .string "history"), ("floor_tokens", .number (.int 2)),
          ("target_tokens", .number (.int 4)), ("max_tokens", .number (.int 4)),
          ("weight", .number (.float ⟨1⟩))]])]

/-- A model with room for the notes. -/
def notesModel : HostValue Decimal :=
  .object
    [("model_profile_id", .string "small"), ("context_limit_tokens", .number (.int 64)),
     ("reserved_output_tokens", .number (.int 8))]

/-- The definition Python reads. -/
def notesDefinition (policyVersion : String) : Host.ArenaDefinition Decimal where
  arenaId := "notes"
  modules :=
    [{ moduleId := "history", floorTokens := 2, targetTokens := 4, maxTokens := 4, order := 0,
       weight := ⟨1⟩, lifecycle := .request, allocation := .weighted, protection := .mixed,
       reclaim := .builtinPipeline, renderTarget := .text, canBorrow := true, canLend := true,
       reclaimPipeline := [], metadata := [] }]
  schemaVersion := "1.0"
  policyVersion
  frameworkReserveTokens := 0
  admissionPolicy := "reject"
  metadata := []

/-- Documents of strings pass if what they are passes. -/
theorem passesValidate_ofTree [NumberTexts F] {hexdigest : ByteArray → String}
    {arena model : HostValue F}
    (h : ∃ layout, Host.validate hexdigest arena model = .ok layout) :
    PassesValidate hexdigest (Document.ofTree arena) (Document.ofTree model) := by
  intro a m ha hm
  rw [Document.encode_ofTree, Option.some_inj] at ha hm
  subst ha hm
  exact h

/-- The notes are by the rules of the kernel if their policy has a version. -/
theorem notes_rules : KernelRules none (notesArena "1") notesModel (notesDefinition "1") where
  arena :=
    { depth := by decide
      schemaVersion := by decide
      policyVersion := by decide
      admissionPolicy := by decide
      metadata := by simp [notesDefinition, Readable]
      modules := .cons
        { maxTokens := by decide
          order := by decide
          weight := ⟨⟨1⟩, rfl, by decide⟩
          algorithmIds := by decide
          semanticSteps := by decide
          options := by simp
          metadata := by simp [Readable] } .nil }
  model := by
    intro profile hprofile
    have hread : Host.modelFromDict notesModel = .ok
        { modelProfileId := "small", contextLimitTokens := 64, reservedOutputTokens := 8
          tokenizerId := "regex-estimator-v1", tokenizerVersion := "1", countMode := .estimated } :=
      rfl
    obtain rfl := Except.ok.inj (hread.symm.trans hprofile)
    exact
      { depth := by decide
        contextLimitTokens := by decide
        modelProfileId := by decide
        tokenizerId := by decide
        tokenizerVersion := by decide
        counter := fun h => nomatch h }

/-- The kernel accepts the notes. -/
theorem kernel_accepts_notes :
    KernelAcceptsDocuments (Library.ascii id).release none ⟨1⟩
      (Document.ofTree (notesArena "1")) (Document.ofTree notesModel) := by
  have hvalid : ∃ layout,
      Host.validate (fun _ => "") (notesArena "1") notesModel = .ok layout := ⟨_, rfl⟩
  refine (kernel_accepts_iff _ none ⟨1⟩ (fun _ => "") (passesValidate_ofTree hvalid)).2
    ⟨Document.exists_encode_iff.1 ⟨_, Document.encode_ofTree _⟩,
      Document.exists_encode_iff.1 ⟨_, Document.encode_ofTree _⟩, ?_⟩
  intro a m definition ha hm hdefinition
  rw [Document.encode_ofTree, Option.some_inj] at ha hm
  subst ha hm
  obtain rfl := Except.ok.inj ((show Host.arenaFromDict (notesArena "1") =
    .ok (notesDefinition "1") from rfl).symm.trans hdefinition)
  exact notes_rules

/-- Python validates a policy without a version, and the kernel refuses it. -/
theorem unversioned_policy_refused :
    (∃ layout, Host.validate (fun _ => "") (notesArena "") notesModel = .ok layout) ∧
      ¬ KernelAcceptsDocuments (Library.ascii id).release none ⟨1⟩
        (Document.ofTree (notesArena "")) (Document.ofTree notesModel) := by
  have hvalid : ∃ layout, Host.validate (fun _ => "") (notesArena "") notesModel = .ok layout ∧
      layout.definition = notesDefinition "" := by
    refine ⟨_, rfl, ?_⟩
    rfl
  obtain ⟨layout, h, hlayout⟩ := hvalid
  refine ⟨⟨layout, h⟩, ?_⟩
  rintro ⟨a, m, ha, hm, d, p, haccepts⟩
  rw [Document.encode_ofTree, Option.some_inj] at ha hm
  subst ha hm
  obtain ⟨profile, hvalidated⟩ := Host.validate_ok h
  have hreserve : layout.definition.frameworkReserveTokens ≤ i32Max := by
    rw [hlayout]
    decide
  have hrules := (arena_accepted_iff hvalidated hreserve).1
    ⟨d, haccepts.arena, haccepts.validDefinition⟩
  have hversion := hrules.policyVersion
  rw [hlayout] at hversion
  revert hversion
  decide

end ContextLease
