/-
What both sides read of one configuration.

Both sides read the same fields under the same names, with defaults that agree.  So on what the
contract accepts, decoding only has to fit the integers, read the numbers and rebuild the maps:
`kernelModule` and `kernelArena` say what it makes of the fields Python has read.

Main definitions:

* `kernelStep`, `kernelModule` — the kernel's records, from Python's;
* `rawModules`, `rawWeight` — parts of a configuration.

Main results:

* `decodeStep_eq`, `decodeModule_eq`, `decodeArena_eq`, `decodeModel_eq` — decoding what the
  contract accepts;
* `decodeModules_cons` — the same for a list of modules.
-/

import ContextLease.Decode
import ContextLease.HostLayout

set_option relaxedAutoImplicit false
set_option autoImplicit false

namespace ContextLease

open MachineNumbers

variable {F : Type}

/-! ### Fields -/

/-- A field that is there is read from its value. -/
theorem field_eq {α : Type} {entries : List (String × HostValue F)} {name : String}
    {decode : HostValue F → Option α} (h : name ∈ entries.map Prod.fst) :
    field entries name decode = decode (Host.item entries name) := by
  obtain ⟨e, he, rfl⟩ := List.mem_map.1 h
  obtain ⟨value, hvalue⟩ := Option.isSome_iff_exists.1
    (List.lookup_isSome_iff.2 ⟨e, he, beq_self_eq_true e.1⟩)
  rw [field, Host.item, Host.get, hvalue]
  rfl

/-- A field with a default is read from its value or from what stands for the default. -/
theorem fieldOr_eq {α : Type} {entries : List (String × HostValue F)} {name : String}
    {decode : HostValue F → Option α} {default : α} {value : HostValue F}
    (h : decode value = some default) :
    fieldOr entries name decode default = decode (Host.get entries name value) := by
  rw [fieldOr, Host.get]
  cases entries.lookup name with
  | none => exact h.symm
  | some value => rfl

theorem knownFields_eq {entries : List (String × HostValue F)} {fields : List String}
    (h : ∀ key ∈ entries.map Prod.fst, key ∈ fields) : knownFields entries fields = some () :=
  if_pos h

/-- A member the contract has found keeps its spelling. -/
theorem value_member {E : Type} [Host.StrEnum E] [Inhabited E] {s : String} {e : E}
    (h : Host.StrEnum.ofValue E s = some e) :
    Host.StrEnum.value (Host.member E (.string s : HostValue F)) = s := by
  rw [Host.member, Host.str, h]
  exact Host.StrEnum.value_of_ofValue h

section Records

variable [FloatOps F] [NumberTexts F]

/-! ### The kernel's records -/

omit [FloatOps F] [NumberTexts F] in
theorem decodeI32_eq_some {n k : ℤ} :
    decodeI32 (.number (.int n) : HostValue F) = some k ↔ Arith.release.Fits n ∧ n = k := by
  rw [decodeI32]
  split
  · rename_i hfits
    simp [hfits]
  · rename_i hfits
    simp [hfits]

/-- A step the kernel reads, from what Python reads. -/
def kernelStep (step : Host.CompressionStepSpec F) : Option CompressionStepSpec :=
  (decodeMap (.object step.options)).map fun options => ⟨step.algorithmId, options⟩

/-- A module the kernel reads, from what Python reads and the weight as it is given. -/
def kernelModule (weight : HostValue F) (m : Host.ModuleDefinition F) :
    Option (ModuleDefinition F) := do
  let floorTokens ← decodeI32 (F := F) (.number (.int m.floorTokens))
  let targetTokens ← decodeI32 (F := F) (.number (.int m.targetTokens))
  let maxTokens ← decodeI32 (F := F) (.number (.int m.maxTokens))
  let order ← decodeI32 (F := F) (.number (.int m.order))
  let weight ← decodeF64 weight
  let reclaimPipeline ← allSome (m.reclaimPipeline.map kernelStep)
  let metadata ← decodeMap (.object m.metadata)
  some
    { moduleId := m.moduleId, floorTokens, targetTokens, maxTokens, order, weight
      lifecycle := Host.StrEnum.value m.lifecycle
      allocation := Host.StrEnum.value m.allocation
      protection := Host.StrEnum.value m.protection
      reclaim := Host.StrEnum.value m.reclaim
      renderTarget := Host.StrEnum.value m.renderTarget
      canBorrow := m.canBorrow
      canLend := m.canLend, reclaimPipeline, metadata }

/-- The weight of a module as it is given. -/
def rawWeight (rawModule : HostValue F) : HostValue F :=
  Host.get (Host.dict rawModule) "weight" (.number (.int 1))

/-- The modules of an arena as they are given. -/
def rawModules (arena : HostValue F) : List (HostValue F) :=
  Host.list (Host.item (Host.dict arena) "modules")

theorem decodeStep_eq {rawStep : HostValue F} (h : Host.IsStep rawStep) :
    decodeStep rawStep = kernelStep (Host.stepFromDict rawStep) := by
  obtain ⟨step, rfl, h⟩ := h
  obtain ⟨id, hid, -⟩ := h.algorithmId
  obtain ⟨options, hoptions⟩ := h.options
  have hknown : knownFields step ["algorithm_id", "options"] = some () := knownFields_eq h.known
  have hdefault : decodeMap (.object [] : HostValue F) = some [] := rfl
  rw [decodeStep, hknown, field_eq (h.required _ (by simp)), fieldOr_eq hdefault, kernelStep,
    Host.stepFromDict, Host.dict, hid, hoptions, Host.str, Host.dict, decodeString]
  cases decodeMap (.object options) <;> rfl

/-- What the kernel makes of a module the contract accepts. -/
theorem decodeModule_eq {rawModule : HostValue F} (h : Host.IsModule rawModule)
    {m : Host.ModuleDefinition F} (hm : Host.moduleFromDict rawModule = .ok m) :
    decodeModule rawModule = kernelModule (rawWeight rawModule) m := by
  obtain ⟨module, rfl, h⟩ := h
  obtain ⟨id, hid, -⟩ := h.moduleId
  obtain ⟨floor, hfloor, -⟩ := h.floorTokens
  obtain ⟨target, htarget, -⟩ := h.targetTokens
  obtain ⟨max, hmax, -⟩ := h.maxTokens
  obtain ⟨order, horder⟩ := h.order
  obtain ⟨lifecycle, _, hlifecycle, hlifecycle'⟩ := h.lifecycle
  obtain ⟨allocation, _, hallocation, hallocation'⟩ := h.allocation
  obtain ⟨protection, _, hprotection, hprotection'⟩ := h.protection
  obtain ⟨reclaim, _, hreclaim, hreclaim'⟩ := h.reclaim
  obtain ⟨renderTarget, _, hrenderTarget, hrenderTarget'⟩ := h.renderTarget
  obtain ⟨canBorrow, hcanBorrow⟩ := h.canBorrow
  obtain ⟨canLend, hcanLend⟩ := h.canLend
  obtain ⟨metadata, hmetadata⟩ := h.metadata
  obtain ⟨steps, hsteps, heach⟩ := h.pipeline
  simp only [Host.moduleFromDict, Except.bind_eq_ok] at hm
  obtain ⟨weight, -, hm⟩ := hm
  cases hm
  have hknown : knownFields module
      ["module_id", "floor_tokens", "target_tokens", "max_tokens", "order", "weight",
        "lifecycle", "allocation", "protection", "reclaim", "render_target", "can_borrow",
        "can_lend", "reclaim_pipeline", "metadata"] = some () := knownFields_eq h.known
  have hpipeline : decodeVec decodeStep (.array steps) =
      allSome ((steps.map Host.stepFromDict).map kernelStep) := by
    rw [decodeVec, List.map_map, List.map_congr_left fun step hstep =>
      decodeStep_eq (heach step hstep)]
    rfl
  have hzero : decodeI32 (.number (.int 0) : HostValue F) = some 0 := rfl
  have hone : decodeF64 (.number (.int 1) : HostValue F) = some (FloatOps.ofInt 1) := by
    rw [decodeF64, if_pos (by decide)]
  have hsome : ∀ s : String, decodeString (.string s : HostValue F) = some s := fun _ => rfl
  have htrue : decodeBool (.bool true : HostValue F) = some true := rfl
  have hnil : decodeVec decodeStep (.array [] : HostValue F) = some [] := rfl
  have hempty : decodeMap (.object [] : HostValue F) = some [] := rfl
  simp only [decodeModule, hknown, field_eq (h.required "module_id" (by simp)),
    field_eq (h.required "floor_tokens" (by simp)), field_eq (h.required "target_tokens" (by simp)),
    field_eq (h.required "max_tokens" (by simp)), fieldOr_eq hzero, fieldOr_eq hone,
    fieldOr_eq (hsome _), fieldOr_eq htrue, fieldOr_eq hnil, fieldOr_eq hempty, kernelModule,
    rawWeight, Host.dict, Host.list, Host.str, Host.int, Host.bool, hid, hfloor, htarget, hmax,
    horder, hlifecycle, hallocation, hprotection, hreclaim, hrenderTarget, hcanBorrow, hcanLend,
    hmetadata, hsteps, hpipeline, hsome, decodeBool, value_member hlifecycle',
    value_member hallocation', value_member hprotection', value_member hreclaim',
    value_member hrenderTarget', Option.bind_eq_bind, Option.bind_some]

/-- The modules the kernel reads, the first one and the others. -/
theorem decodeModules_cons {rawModule : HostValue F} {rawModules : List (HostValue F)}
    (h : Host.IsModule rawModule) {m : Host.ModuleDefinition F}
    (hm : Host.moduleFromDict rawModule = .ok m) {ms' : List (ModuleDefinition F)} :
    allSome ((rawModule :: rawModules).map decodeModule) = some ms' ↔
      ∃ m', kernelModule (rawWeight rawModule) m = some m' ∧
        ∃ rest, allSome (rawModules.map decodeModule) = some rest ∧ m' :: rest = ms' := by
  simp only [List.map_cons, decodeModule_eq h hm, allSome, Option.bind_eq_bind,
    Option.bind_eq_some_iff, Option.some.injEq]

omit [NumberTexts F] in
/-- The modules Python reads are read from the modules that are given, one by one. -/
theorem modulesFromDict_ok {raws : List (HostValue F)} {ms : List (Host.ModuleDefinition F)} :
    Host.modulesFromDict raws = .ok ms ↔
      List.Forall₂ (fun raw m => Host.moduleFromDict raw = .ok m) raws ms := by
  induction raws generalizing ms with
  | nil => cases ms <;> simp [Host.modulesFromDict]
  | cons raw raws ih =>
      simp only [Host.modulesFromDict, Except.bind_eq_ok, ih]
      constructor
      · rintro ⟨m, hm, rest, hrest, heq⟩
        cases heq
        exact .cons hm hrest
      · intro h
        cases h with
        | cons hm hrest => exact ⟨_, hm, _, hrest, rfl⟩

/-- What an accepted arena has been read from. -/
structure ReadFrom (arena : HostValue F) (definition : Host.ArenaDefinition F) : Prop where
  contract : ∃ data, arena = .object data ∧ Host.ArenaContract data
  modules : List.Forall₂ (fun raw m => Host.moduleFromDict raw = .ok m) (rawModules arena)
    definition.modules
  arenaId : definition.arenaId = Host.str (Host.item (Host.dict arena) "arena_id")
  schemaVersion : definition.schemaVersion =
    Host.str (Host.get (Host.dict arena) "schema_version" (.string "1.0"))
  policyVersion : definition.policyVersion =
    Host.str (Host.get (Host.dict arena) "policy_version" (.string "1"))
  frameworkReserveTokens : definition.frameworkReserveTokens =
    Host.int (Host.get (Host.dict arena) "framework_reserve_tokens" (.number (.int 0)))
  admissionPolicy : definition.admissionPolicy =
    Host.str (Host.get (Host.dict arena) "admission_policy" (.string "reject"))
  metadata : definition.metadata = Host.dict (Host.get (Host.dict arena) "metadata" (.object []))

omit [NumberTexts F] in
theorem arenaFromDict_ok {arena : HostValue F} {definition : Host.ArenaDefinition F}
    (h : Host.arenaFromDict arena = .ok definition) : ReadFrom arena definition := by
  simp only [Host.arenaFromDict, Except.bind_eq_ok, Host.object_ok] at h
  obtain ⟨data, rfl, _, hcontract, modules, hmodules, heq⟩ := h
  cases heq
  have hcontract := Host.validateArenaContract_ok.1 hcontract
  refine ⟨⟨data, rfl, hcontract⟩, ?_, rfl, rfl, rfl, rfl, rfl, rfl⟩
  -- the field is there, so its default plays no part
  have hget : Host.get data "modules" (.array []) = Host.item data "modules" := by
    obtain ⟨e, he, hkey⟩ := List.mem_map.1 (hcontract.required "modules" (by simp))
    obtain ⟨value, hvalue⟩ := Option.isSome_iff_exists.1
      (List.lookup_isSome_iff.2 ⟨e, he, beq_of_eq hkey.symm⟩)
    rw [Host.item, Host.get, Host.get, hvalue]
    rfl
  rw [hget] at hmodules
  exact modulesFromDict_ok.1 hmodules

omit [NumberTexts F] in
theorem ReadFrom.isModule {arena : HostValue F} {definition : Host.ArenaDefinition F}
    (h : ReadFrom arena definition) : ∀ raw ∈ rawModules arena, Host.IsModule raw := by
  obtain ⟨data, rfl, hcontract⟩ := h.contract
  obtain ⟨modules, hmodules, -, hall⟩ := hcontract.modules
  simpa only [rawModules, Host.dict, hmodules, Host.list] using hall

/-- An arena the kernel reads, from what Python reads and the modules as they are given. -/
def kernelArena (arena : HostValue F) (definition : Host.ArenaDefinition F) :
    Option (ArenaDefinition F) := do
  let modules ← allSome ((rawModules arena).map decodeModule)
  let frameworkReserveTokens ← decodeI32 (F := F) (.number (.int definition.frameworkReserveTokens))
  let metadata ← decodeMap (.object definition.metadata)
  some
    { arenaId := definition.arenaId, modules
      schemaVersion := definition.schemaVersion
      policyVersion := definition.policyVersion, frameworkReserveTokens
      admissionPolicy := definition.admissionPolicy, metadata }

/-- What the kernel makes of an arena the contract accepts. -/
theorem decodeArena_eq {arena : HostValue F} {definition : Host.ArenaDefinition F}
    (h : ReadFrom arena definition) :
    decodeArenaFields arena = kernelArena arena definition := by
  obtain ⟨data, rfl, hcontract⟩ := h.contract
  obtain ⟨id, hid, -⟩ := hcontract.arenaId
  obtain ⟨schema, hschema⟩ := hcontract.schemaVersion
  obtain ⟨policy, hpolicy⟩ := hcontract.policyVersion
  obtain ⟨reserve, hreserve, -⟩ := hcontract.frameworkReserveTokens
  obtain ⟨admission, hadmission⟩ := hcontract.admissionPolicy
  obtain ⟨metadata, hmetadata⟩ := hcontract.metadata
  obtain ⟨modules, hmodules, -⟩ := hcontract.modules
  have hknown : knownFields data
      ["arena_id", "modules", "schema_version", "policy_version", "framework_reserve_tokens",
        "admission_policy", "metadata"] = some () := knownFields_eq hcontract.known
  have hzero : decodeI32 (.number (.int 0) : HostValue F) = some 0 := rfl
  have hsome : ∀ s : String, decodeString (.string s : HostValue F) = some s := fun _ => rfl
  have hempty : decodeMap (.object [] : HostValue F) = some [] := rfl
  simp only [decodeArenaFields, hknown, field_eq (hcontract.required "arena_id" (by simp)),
    field_eq (hcontract.required "modules" (by simp)), fieldOr_eq (hsome _), fieldOr_eq hzero,
    fieldOr_eq hempty, kernelArena, rawModules, h.arenaId, h.schemaVersion, h.policyVersion,
    h.frameworkReserveTokens, h.admissionPolicy, h.metadata, Host.dict, Host.list, Host.str,
    Host.int, hid, hschema, hpolicy, hreserve, hadmission, hmetadata, hmodules, hsome, decodeVec,
    Option.bind_eq_bind, Option.bind_some]

end Records

/-- A model the kernel reads, from what Python reads. -/
def kernelModel (model : Host.ModelProfile) : Option ModelProfile :=
  if Arith.release.Fits model.contextLimitTokens ∧
      Arith.release.Fits model.reservedOutputTokens then
    some
      { modelProfileId := model.modelProfileId
        contextLimitTokens := model.contextLimitTokens
        reservedOutputTokens := model.reservedOutputTokens
        tokenizerId := model.tokenizerId
        tokenizerVersion := model.tokenizerVersion
        countMode := Host.StrEnum.value model.countMode }
  else none

/-- What the kernel makes of a model the contract accepts. -/
theorem decodeModel_eq {model : HostValue F} {profile : Host.ModelProfile}
    (h : Host.modelFromDict model = .ok profile) :
    decodeModelFields model = kernelModel profile := by
  simp only [Host.modelFromDict, Except.bind_eq_ok, Host.object_ok] at h
  obtain ⟨data, rfl, _, hcontract, heq⟩ := h
  cases heq
  have hcontract := Host.validateModelContract_ok.1 hcontract
  obtain ⟨id, hid, -⟩ := hcontract.modelProfileId
  obtain ⟨limit, hlimit, -⟩ := hcontract.contextLimitTokens
  obtain ⟨reserved, hreserved, -⟩ := hcontract.reservedOutputTokens
  obtain ⟨tokenizer, htokenizer⟩ := hcontract.tokenizerId
  obtain ⟨version, hversion⟩ := hcontract.tokenizerVersion
  obtain ⟨countMode, _, hcountMode, hcountMode'⟩ := hcontract.countMode
  have hknown : knownFields data
      ["model_profile_id", "context_limit_tokens", "reserved_output_tokens", "tokenizer_id",
        "tokenizer_version", "count_mode"] = some () := knownFields_eq hcontract.known
  have hsome : ∀ s : String, decodeString (.string s : HostValue F) = some s := fun _ => rfl
  simp only [decodeModelFields, hknown,
    field_eq (hcontract.required "model_profile_id" (by simp)),
    field_eq (hcontract.required "context_limit_tokens" (by simp)),
    field_eq (hcontract.required "reserved_output_tokens" (by simp)), fieldOr_eq (hsome _),
    kernelModel, Host.str, Host.int, hid, hlimit, hreserved, htokenizer, hversion, hcountMode,
    hsome, value_member hcountMode', decodeI32, Option.bind_eq_bind, Option.bind_some]
  by_cases hl : Arith.release.Fits limit <;> by_cases hr : Arith.release.Fits reserved <;>
    simp [hl, hr]

end ContextLease
