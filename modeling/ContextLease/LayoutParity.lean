/-
The layout hash on both sides.

Python hashes `json.dumps` of the definition it has read, and the kernel hashes the `serde_json`
text of the definition it has read.  Both texts are compact and in key order, and both sides read
the same strings from a configuration.  The texts still differ in two ways: Python escapes every
character beyond the printable ASCII ones, which the kernel leaves alone, and the two write a number
each in its own way.

Main definitions:

* `ArenaDefinition.toValue`, `ArenaDefinition.canonical`, `ArenaDefinition.layoutHash` — what the
  kernel hashes;
* `moduleTree`, `arenaTree` — what both sides write, up to the texts of the numbers;
* `SameTexts` — the configurations that both sides write alike.

Main results:

* `toValue_tree` — the tree the kernel writes;
* `payloads_eq_iff` — the two texts are the same exactly on `SameTexts`;
* `layouts_agree_iff` — the same, with the hashes;
* `accented_arena_apart` — an arena whose id has an accent.
-/

import ContextLease.ValidationParity

set_option relaxedAutoImplicit false
set_option autoImplicit false

namespace ContextLease

open MachineNumbers

variable {F : Type} [FloatOps F]

/-! ### The kernel's text -/

/-- `serde_json::to_value` of a step. -/
def CompressionStepSpec.toValue (step : CompressionStepSpec) : Value :=
  .object (BTreeMap.ofList
    [("algorithm_id", .string step.algorithmId), ("options", .object step.options)])

/-- `serde_json::to_value` of a module. -/
def ModuleDefinition.toValue (m : ModuleDefinition F) : Value :=
  .object (BTreeMap.ofList
    [("module_id", .string m.moduleId),
     ("floor_tokens", .ofInt m.floorTokens),
     ("target_tokens", .ofInt m.targetTokens),
     ("max_tokens", .ofInt m.maxTokens),
     ("order", .ofInt m.order),
     ("weight", .number (FloatOps.text m.weight)),
     ("lifecycle", .string m.lifecycle),
     ("allocation", .string m.allocation),
     ("protection", .string m.protection),
     ("reclaim", .string m.reclaim),
     ("render_target", .string m.renderTarget),
     ("can_borrow", .bool m.canBorrow),
     ("can_lend", .bool m.canLend),
     ("reclaim_pipeline", .array (m.reclaimPipeline.map CompressionStepSpec.toValue)),
     ("metadata", .object m.metadata)])

/-- `serde_json::to_value` of a definition. -/
def ArenaDefinition.toValue (definition : ArenaDefinition F) : Value :=
  .object (BTreeMap.ofList
    [("arena_id", .string definition.arenaId),
     ("modules", .array (definition.modules.map ModuleDefinition.toValue)),
     ("schema_version", .string definition.schemaVersion),
     ("policy_version", .string definition.policyVersion),
     ("framework_reserve_tokens", .ofInt definition.frameworkReserveTokens),
     ("admission_policy", .string definition.admissionPolicy),
     ("metadata", .object definition.metadata)])

/-- The bytes the source's `new` hashes. -/
def ArenaDefinition.canonical (definition : ArenaDefinition F) : ByteArray :=
  definition.toValue.toJson.toUTF8

/-- The source's `layout_hash`, with `hexdigest` the hexadecimal SHA-256 digest. -/
def ArenaDefinition.layoutHash (hexdigest : ByteArray → String) (definition : ArenaDefinition F) :
    String :=
  String.ofList ((hexdigest definition.canonical).toList.take 24)

section Layouts

variable [NumberTexts F]

/-! ### What both sides write -/

/-- The tree of a step, with the numbers written by `f`. -/
def stepTree (f : Numeral F → String) (step : Host.CompressionStepSpec F) : JsonTree String :=
  step.publicDict.map f

/-- The tree of a module, with the numbers of its values written by `f`. -/
def moduleTree (f : Numeral F → String) (weight : String) (m : Host.ModuleDefinition F) :
    JsonTree String :=
  .object
    [("module_id", .string m.moduleId),
     ("floor_tokens", .number (toString m.floorTokens)),
     ("target_tokens", .number (toString m.targetTokens)),
     ("max_tokens", .number (toString m.maxTokens)),
     ("order", .number (toString m.order)),
     ("weight", .number weight),
     ("lifecycle", .string (Host.StrEnum.value m.lifecycle)),
     ("allocation", .string (Host.StrEnum.value m.allocation)),
     ("protection", .string (Host.StrEnum.value m.protection)),
     ("reclaim", .string (Host.StrEnum.value m.reclaim)),
     ("render_target", .string (Host.StrEnum.value m.renderTarget)),
     ("can_borrow", .bool m.canBorrow),
     ("can_lend", .bool m.canLend),
     ("reclaim_pipeline", .array (m.reclaimPipeline.map (stepTree f))),
     ("metadata", (JsonTree.object m.metadata).map f)]

/-- The tree of a definition, with the trees of its modules and the numbers of its metadata written
by `f`. -/
def arenaTree (f : Numeral F → String) (modules : List (JsonTree String))
    (definition : Host.ArenaDefinition F) : JsonTree String :=
  .object
    [("arena_id", .string definition.arenaId),
     ("modules", .array modules),
     ("schema_version", .string definition.schemaVersion),
     ("policy_version", .string definition.policyVersion),
     ("framework_reserve_tokens", .number (toString definition.frameworkReserveTokens)),
     ("admission_policy", .string definition.admissionPolicy),
     ("metadata", (JsonTree.object definition.metadata).map f)]

/-- The tree of a module as Python writes it. -/
def hostModuleTree (m : Host.ModuleDefinition F) : JsonTree String :=
  moduleTree Numeral.hostText (NumberTexts.repr m.weight) m

/-- The tree of a module as the kernel writes it, from the weight as it is given. -/
def kernelModuleTree (rawModule : HostValue F) (m : Host.ModuleDefinition F) : JsonTree String :=
  moduleTree Numeral.readText (((decodeF64 (rawWeight rawModule)).map FloatOps.text).getD "") m

theorem hostModuleTree_eq (m : Host.ModuleDefinition F) :
    m.publicDict.map Numeral.hostText = hostModuleTree m := by
  simp only [Host.ModuleDefinition.publicDict, JsonTree.map_object, List.map_cons, List.map_nil,
    JsonTree.map_string, JsonTree.map_number, JsonTree.map_bool, JsonTree.map_array, List.map_map,
    Numeral.hostText, hostModuleTree, moduleTree]
  rfl

theorem hostArenaTree_eq (definition : Host.ArenaDefinition F) :
    definition.publicDict.map Numeral.hostText =
      arenaTree Numeral.hostText (definition.modules.map hostModuleTree) definition := by
  simp only [Host.ArenaDefinition.publicDict, JsonTree.map_object, List.map_cons, List.map_nil,
    JsonTree.map_string, JsonTree.map_number, JsonTree.map_array, List.map_map,
    Numeral.hostText, arenaTree]
  rw [List.map_congr_left fun m _ => (hostModuleTree_eq m).symm]
  rfl

/-! ### The kernel's tree -/

omit [FloatOps F] [NumberTexts F] in
/-- The tree of a record: its fields in key order. -/
theorem tree_ofList {fields : List (String × Value)} (h : (fields.map Prod.fst).Nodup) :
    (Value.object (BTreeMap.ofList fields)).tree =
      .object (JsonTree.sortEntries (fields.map fun e => (e.1, e.2.tree))) := by
  rw [Value.tree_object, ofList_eq_sortEntries h, JsonTree.map_sortEntries]

theorem tree_of_decodeMap {entries : List (String × HostValue F)}
    (hdistinct : (JsonTree.object entries).DistinctKeys) {m : BTreeMap Value}
    (h : decodeMap (.object entries) = some m) :
    (Value.object m).tree = ((JsonTree.object entries).map Numeral.readText).sortKeys :=
  decodeValue_tree hdistinct (by rw [decodeValue_object, h, Option.map_some])

theorem stepTree_of_kernelStep {step : Host.CompressionStepSpec F} {step' : CompressionStepSpec}
    (hdistinct : (JsonTree.object step.options).DistinctKeys) (h : kernelStep step = some step') :
    step'.toValue.tree = (stepTree Numeral.readText step).sortKeys := by
  obtain ⟨options, hoptions, rfl⟩ := Option.map_eq_some_iff.1 h
  have htree := tree_of_decodeMap hdistinct hoptions
  rw [CompressionStepSpec.toValue, stepTree, Host.CompressionStepSpec.publicDict, tree_ofList,
    JsonTree.map_object, JsonTree.sortKeys_object]
  · simp only [List.map_cons, List.map_nil, htree, Value.tree_string, JsonTree.map_string,
      JsonTree.sortKeys_string]
  · simp

omit [FloatOps F] [NumberTexts F] in
/-- What is distinct in the public dict of a module. -/
theorem distinct_module {m : Host.ModuleDefinition F} (h : m.publicDict.DistinctKeys) :
    (∀ step ∈ m.reclaimPipeline, (JsonTree.object step.options).DistinctKeys) ∧
      (JsonTree.object m.metadata).DistinctKeys := by
  obtain ⟨-, h⟩ := (JsonTree.distinctKeys_object _).1 h
  refine ⟨fun step hstep => ?_, h ("metadata", .object m.metadata) (by simp)⟩
  have hsteps := (JsonTree.distinctKeys_array _).1
    (h ("reclaim_pipeline", .array (m.reclaimPipeline.map Host.CompressionStepSpec.publicDict))
      (by simp)) step.publicDict (List.mem_map_of_mem hstep)
  exact ((JsonTree.distinctKeys_object _).1 hsteps).2 ("options", .object step.options) (by simp)

theorem moduleTree_of_kernelModule {rawModule : HostValue F} {m : Host.ModuleDefinition F}
    {m' : ModuleDefinition F} (hdistinct : m.publicDict.DistinctKeys)
    (h : kernelModule (rawWeight rawModule) m = some m') :
    m'.toValue.tree = (kernelModuleTree rawModule m).sortKeys := by
  obtain ⟨hoptions, hmetadata⟩ := distinct_module hdistinct
  simp only [kernelModule, Option.bind_eq_bind, Option.bind_eq_some_iff, decodeI32_eq_some,
    Option.some.injEq] at h
  obtain ⟨_, ⟨-, rfl⟩, _, ⟨-, rfl⟩, _, ⟨-, rfl⟩, _, ⟨-, rfl⟩, w, hw, pipeline, hpipeline, metadata,
    hread, rfl⟩ := h
  have htree := tree_of_decodeMap hmetadata hread
  have hsteps : pipeline.map (fun step => step.toValue.tree) =
      m.reclaimPipeline.map fun step => (stepTree Numeral.readText step).sortKeys :=
    JsonTree.map_eq_of_map_eq (allSome_eq_some.1 hpipeline).symm fun step' _ step hstep heq =>
      stepTree_of_kernelStep (hoptions step hstep) heq.symm
  rw [ModuleDefinition.toValue, kernelModuleTree, moduleTree, tree_ofList,
    JsonTree.sortKeys_object]
  · simp only [List.map_cons, List.map_nil, htree, hw, Option.map_some, Option.getD_some,
      Value.tree_string, Value.tree_number, Value.tree_bool, Value.tree_array, Value.ofInt,
      List.map_map, Function.comp_def, hsteps, JsonTree.sortKeys_string, JsonTree.sortKeys_number,
      JsonTree.sortKeys_bool, JsonTree.sortKeys_array]
  · simp

/-- The trees of the modules as the kernel writes them. -/
def kernelModuleTrees (raws : List (HostValue F)) (ms : List (Host.ModuleDefinition F)) :
    List (JsonTree String) :=
  List.zipWith kernelModuleTree raws ms

theorem moduleTrees_of_decode {raws : List (HostValue F)} {ms : List (Host.ModuleDefinition F)}
    (hread : List.Forall₂ (fun raw m => Host.moduleFromDict raw = .ok m) raws ms)
    (hraws : ∀ raw ∈ raws, Host.IsModule raw) (hdistinct : ∀ m ∈ ms, m.publicDict.DistinctKeys)
    {ms' : List (ModuleDefinition F)} (h : allSome (raws.map decodeModule) = some ms') :
    ms'.map (fun m' => m'.toValue.tree) = (kernelModuleTrees raws ms).map JsonTree.sortKeys := by
  induction hread generalizing ms' with
  | nil =>
      cases h
      rfl
  | @cons raw m raws ms hm hread ih =>
      obtain ⟨m', hm', rest, hrest, rfl⟩ :=
        (decodeModules_cons (hraws raw List.mem_cons_self) hm).1 h
      rw [List.map_cons, moduleTree_of_kernelModule (hdistinct m List.mem_cons_self) hm',
        ih (fun raw' hraw => hraws raw' (List.mem_cons_of_mem _ hraw))
          (fun m' hm' => hdistinct m' (List.mem_cons_of_mem _ hm')) hrest]
      rfl

/-- The tree of an arena as the kernel writes it. -/
def kernelArenaTree (arena : HostValue F) (definition : Host.ArenaDefinition F) :
    JsonTree String :=
  arenaTree Numeral.readText (kernelModuleTrees (rawModules arena) definition.modules) definition

omit [FloatOps F] [NumberTexts F] in
/-- What is distinct in the public dict of an arena. -/
theorem distinct_arena {definition : Host.ArenaDefinition F}
    (h : definition.publicDict.DistinctKeys) :
    (∀ m ∈ definition.modules, m.publicDict.DistinctKeys) ∧
      (JsonTree.object definition.metadata).DistinctKeys := by
  obtain ⟨-, h⟩ := (JsonTree.distinctKeys_object _).1 h
  refine ⟨fun m hm => ?_, h ("metadata", .object definition.metadata) (by simp)⟩
  exact (JsonTree.distinctKeys_array _).1
    (h ("modules", .array (definition.modules.map Host.ModuleDefinition.publicDict)) (by simp))
      m.publicDict (List.mem_map_of_mem hm)

/-- The tree of what the kernel hashes. -/
theorem toValue_tree {arena : HostValue F} {definition : Host.ArenaDefinition F}
    (h : ReadFrom arena definition) (hdistinct : definition.publicDict.DistinctKeys)
    {d : ArenaDefinition F} (hd : decodeArena arena = some d) :
    d.toValue.tree = (kernelArenaTree arena definition).sortKeys := by
  obtain ⟨hmodules, hmetadata⟩ := distinct_arena hdistinct
  rw [decodeArena, Option.ite_none_right_eq_some, decodeArena_eq h] at hd
  simp only [kernelArena, Option.bind_eq_bind, Option.bind_eq_some_iff, decodeI32_eq_some,
    Option.some.injEq] at hd
  obtain ⟨-, modules, hall, _, ⟨-, rfl⟩, metadata, hread, rfl⟩ := hd
  have htree := tree_of_decodeMap hmetadata hread
  have htrees := moduleTrees_of_decode h.modules h.isModule hmodules hall
  rw [ArenaDefinition.toValue, kernelArenaTree, arenaTree, tree_ofList, JsonTree.sortKeys_object]
  · simp only [List.map_cons, List.map_nil, htree, htrees, Value.tree_string, Value.tree_number,
      Value.tree_array, Value.ofInt, List.map_map, Function.comp_def, JsonTree.sortKeys_string,
      JsonTree.sortKeys_number, JsonTree.sortKeys_array]
  · simp

/-! ### Distinct keys -/

omit [FloatOps F] [NumberTexts F] in
theorem distinct_get {data : List (String × HostValue F)} (h : (JsonTree.object data).DistinctKeys)
    (key : String) {default : HostValue F} (hdefault : default.DistinctKeys) :
    (Host.get data key default).DistinctKeys := by
  rw [Host.get]
  cases hvalue : data.lookup key with
  | none => exact hdefault
  | some value =>
      obtain ⟨before, after, hdata, -⟩ := List.lookup_eq_some_iff.1 hvalue
      exact ((JsonTree.distinctKeys_object data).1 h).2 (key, value) (by rw [hdata]; simp)

omit [FloatOps F] [NumberTexts F] in
theorem distinct_dict {value : HostValue F} (h : value.DistinctKeys) :
    (JsonTree.object (Host.dict value)).DistinctKeys := by
  have hempty : (JsonTree.object [] : HostValue F).DistinctKeys := by simp
  cases value with
  | object entries => exact h
  | _ => exact hempty

omit [FloatOps F] [NumberTexts F] in
theorem distinct_list {value : HostValue F} (h : value.DistinctKeys) :
    ∀ item ∈ Host.list value, item.DistinctKeys := by
  cases value with
  | array items => exact (JsonTree.distinctKeys_array items).1 h
  | _ => simp [Host.list]

omit [FloatOps F] [NumberTexts F] in
theorem distinct_step {rawStep : HostValue F} (h : rawStep.DistinctKeys) :
    (Host.stepFromDict rawStep).publicDict.DistinctKeys := by
  have hempty : (JsonTree.object [] : HostValue F).DistinctKeys := by simp
  have hoptions := distinct_dict (distinct_get (distinct_dict h) "options" hempty)
  rw [Host.CompressionStepSpec.publicDict, Host.stepFromDict, JsonTree.distinctKeys_object]
  refine ⟨by simp, ?_⟩
  simp only [List.forall_mem_cons, hoptions, JsonTree.distinctKeys_string, List.not_mem_nil,
    false_imp_iff, implies_true, and_true]

omit [NumberTexts F] in
theorem distinct_publicModule {rawModule : HostValue F} (h : rawModule.DistinctKeys)
    {m : Host.ModuleDefinition F} (hm : Host.moduleFromDict rawModule = .ok m) :
    m.publicDict.DistinctKeys := by
  have hempty : (JsonTree.object [] : HostValue F).DistinctKeys := by simp
  have hnil : (JsonTree.array [] : HostValue F).DistinctKeys := by simp
  simp only [Host.moduleFromDict, Except.bind_eq_ok] at hm
  obtain ⟨weight, -, heq⟩ := hm
  cases heq
  have hsteps := distinct_list (distinct_get (distinct_dict h) "reclaim_pipeline" hnil)
  have hmetadata := distinct_dict (distinct_get (distinct_dict h) "metadata" hempty)
  have hpipeline : (JsonTree.array (((Host.list (Host.get (Host.dict rawModule)
      "reclaim_pipeline" (.array []))).map Host.stepFromDict).map
        Host.CompressionStepSpec.publicDict)).DistinctKeys := by
    rw [JsonTree.distinctKeys_array, List.map_map, List.forall_mem_map]
    exact fun step hstep => distinct_step (hsteps step hstep)
  rw [Host.ModuleDefinition.publicDict, JsonTree.distinctKeys_object]
  refine ⟨by simp, ?_⟩
  simp only [List.forall_mem_cons, hpipeline, hmetadata, JsonTree.distinctKeys_string,
    JsonTree.distinctKeys_number, JsonTree.distinctKeys_bool, List.not_mem_nil, false_imp_iff,
    implies_true, and_true]

omit [NumberTexts F] in
theorem distinct_publicModules {raws : List (HostValue F)} {ms : List (Host.ModuleDefinition F)}
    (hread : List.Forall₂ (fun raw m => Host.moduleFromDict raw = .ok m) raws ms)
    (hraws : ∀ raw ∈ raws, raw.DistinctKeys) : ∀ m ∈ ms, m.publicDict.DistinctKeys := by
  induction hread with
  | nil => simp
  | cons hm _ ih =>
      obtain ⟨hraw, hraws⟩ := List.forall_mem_cons.1 hraws
      exact List.forall_mem_cons.2 ⟨distinct_publicModule hraw hm, ih hraws⟩

omit [NumberTexts F] in
/-- A configuration with distinct keys makes for a public dict with distinct keys. -/
theorem distinct_publicDict {arena : HostValue F} (hdistinct : arena.DistinctKeys)
    {definition : Host.ArenaDefinition F} (h : ReadFrom arena definition) :
    definition.publicDict.DistinctKeys := by
  have hempty : (JsonTree.object [] : HostValue F).DistinctKeys := by simp
  have hmetadata := distinct_dict (distinct_get (distinct_dict hdistinct) "metadata" hempty)
  have hraws := distinct_list (distinct_get (distinct_dict hdistinct) "modules"
    JsonTree.distinctKeys_null)
  have hmodules : (JsonTree.array
      (definition.modules.map Host.ModuleDefinition.publicDict)).DistinctKeys := by
    rw [JsonTree.distinctKeys_array, List.forall_mem_map]
    exact distinct_publicModules h.modules hraws
  rw [Host.ArenaDefinition.publicDict, JsonTree.distinctKeys_object, h.metadata]
  refine ⟨by simp, ?_⟩
  simp only [List.forall_mem_cons, hmodules, hmetadata, JsonTree.distinctKeys_string,
    JsonTree.distinctKeys_number, List.not_mem_nil, false_imp_iff, implies_true, and_true]

/-! ### Texts of numbers -/

omit [FloatOps F] [NumberTexts F] in
theorem plain_int (n : ℤ) : JsonTree.PlainNumber (toString n) :=
  fun _ hc => (intChar_of_mem hc).plain

theorem plain_hostText (n : Numeral F) : JsonTree.PlainNumber n.hostText := by
  cases n with
  | int n => exact plain_int n
  | float x => exact NumberTexts.repr_plain x

omit [FloatOps F] [NumberTexts F] in
theorem plain_getD {text : Option String} (h : ∀ s ∈ text, JsonTree.PlainNumber s) :
    JsonTree.PlainNumber (text.getD "") := by
  cases text with
  | none => exact fun c hc => by simp at hc
  | some s => exact h s rfl

theorem plain_text (x : Option F) :
    ∀ s ∈ x.map FloatOps.text, JsonTree.PlainNumber s := by
  rintro s hs
  obtain ⟨w, -, rfl⟩ := Option.mem_map.1 hs
  exact NumberTexts.text_plain w

theorem plain_readText (n : Numeral F) : JsonTree.PlainNumber n.readText := by
  refine plain_getD ?_
  cases n with
  | int n =>
      rw [Numeral.kernelText]
      split
      · rintro s hs
        rw [← Option.mem_some_iff.1 hs]
        exact plain_int n
      · exact plain_text (NumberTexts.readInt n)
  | float x => exact plain_text (NumberTexts.readFloat x)

omit [FloatOps F] [NumberTexts F] in
theorem plain_map {f : Numeral F → String} (hf : ∀ n, JsonTree.PlainNumber (f n))
    (t : HostValue F) : ∀ text ∈ (t.map f).numbers, JsonTree.PlainNumber text := by
  rw [JsonTree.numbers_map, List.forall_mem_map]
  exact fun n _ => hf n

omit [FloatOps F] [NumberTexts F] in
theorem plain_moduleTree {f : Numeral F → String} (hf : ∀ n, JsonTree.PlainNumber (f n))
    {weight : String} (hweight : JsonTree.PlainNumber weight) (m : Host.ModuleDefinition F) :
    ∀ text ∈ (moduleTree f weight m).numbers, JsonTree.PlainNumber text := by
  have hsteps : ∀ text ∈ (m.reclaimPipeline.map (stepTree f)).flatMap JsonTree.numbers,
      JsonTree.PlainNumber text := by
    rw [List.forall_mem_flatMap, List.forall_mem_map]
    exact fun step _ => plain_map hf step.publicDict
  have hmetadata := plain_map hf (.object m.metadata)
  simp only [moduleTree, JsonTree.numbers_object, List.flatMap_cons, List.flatMap_nil,
    JsonTree.numbers_string, JsonTree.numbers_number, JsonTree.numbers_bool,
    JsonTree.numbers_array, List.nil_append, List.append_nil, List.forall_mem_append,
    List.forall_mem_singleton]
  exact ⟨plain_int _, plain_int _, plain_int _, plain_int _, hweight, hsteps, hmetadata⟩

omit [FloatOps F] [NumberTexts F] in
theorem plain_arenaTree {f : Numeral F → String} (hf : ∀ n, JsonTree.PlainNumber (f n))
    {modules : List (JsonTree String)}
    (hmodules : ∀ t ∈ modules, ∀ text ∈ t.numbers, JsonTree.PlainNumber text)
    (definition : Host.ArenaDefinition F) :
    ∀ text ∈ (arenaTree f modules definition).numbers, JsonTree.PlainNumber text := by
  have hmetadata := plain_map hf (.object definition.metadata)
  simp only [arenaTree, JsonTree.numbers_object, List.flatMap_cons, List.flatMap_nil,
    JsonTree.numbers_string, JsonTree.numbers_number, JsonTree.numbers_array, List.nil_append,
    List.append_nil, List.forall_mem_append, List.forall_mem_singleton, List.forall_mem_flatMap]
  exact ⟨hmodules, plain_int _, hmetadata⟩

/-! ### Texts written alike -/

/-- Both sides write the numbers of a map alike. -/
def SameNumbers (entries : List (String × HostValue F)) : Prop :=
  ∀ n ∈ (JsonTree.object entries).numbers, n.kernelText = some n.hostText

/-- Both sides write the numbers of a module alike. -/
structure SameModuleTexts (rawModule : HostValue F) (m : Host.ModuleDefinition F) : Prop where
  weight : ∃ w, decodeF64 (rawWeight rawModule) = some w ∧
    FloatOps.text w = NumberTexts.repr m.weight
  options : ∀ step ∈ m.reclaimPipeline, SameNumbers step.options
  metadata : SameNumbers m.metadata

/-- Both sides write an arena alike. -/
structure SameTexts (arena : HostValue F) (definition : Host.ArenaDefinition F) : Prop where
  ascii : ∀ s ∈ definition.publicDict.strings, IsAscii s
  metadata : SameNumbers definition.metadata
  modules : List.Forall₂ SameModuleTexts (rawModules arena) definition.modules

/-- What both sides write of a map that the kernel can read. -/
theorem map_eq_iff_sameNumbers {entries : List (String × HostValue F)} (h : Readable entries) :
    (JsonTree.object entries).map Numeral.hostText =
        (JsonTree.object entries).map Numeral.readText ↔ SameNumbers entries := by
  rw [JsonTree.map_eq_map_iff]
  refine forall₂_congr ?_
  intro n hn
  obtain ⟨text, htext⟩ := Option.isSome_iff_exists.1 (h n hn)
  rw [Numeral.readText, htext, Option.getD_some, Option.some.injEq]
  exact eq_comm

omit [FloatOps F] [NumberTexts F] in
theorem stepTree_eq_iff {f g : Numeral F → String} {step : Host.CompressionStepSpec F} :
    stepTree f step = stepTree g step ↔
      (JsonTree.object step.options).map f = (JsonTree.object step.options).map g := by
  simp [stepTree, Host.CompressionStepSpec.publicDict]

omit [FloatOps F] [NumberTexts F] in
theorem moduleTree_eq_iff {f g : Numeral F → String} {weight weight' : String}
    {m : Host.ModuleDefinition F} :
    moduleTree f weight m = moduleTree g weight' m ↔
      weight = weight' ∧ (∀ step ∈ m.reclaimPipeline, stepTree f step = stepTree g step) ∧
        (JsonTree.object m.metadata).map f = (JsonTree.object m.metadata).map g := by
  simp only [moduleTree, JsonTree.object.injEq, List.cons.injEq, Prod.mk.injEq,
    JsonTree.number.injEq, JsonTree.array.injEq, List.map_inj_left, true_and, and_true]

omit [FloatOps F] [NumberTexts F] in
theorem arenaTree_eq_iff {f g : Numeral F → String} {modules modules' : List (JsonTree String)}
    {definition : Host.ArenaDefinition F} :
    arenaTree f modules definition = arenaTree g modules' definition ↔
      modules = modules' ∧
        (JsonTree.object definition.metadata).map f =
          (JsonTree.object definition.metadata).map g := by
  simp only [arenaTree, JsonTree.object.injEq, List.cons.injEq, Prod.mk.injEq,
    JsonTree.array.injEq, true_and, and_true]

/-- Both sides write a module the kernel can read alike exactly when they write its numbers
alike. -/
theorem moduleTrees_eq_iff {rawModule : HostValue F} {m : Host.ModuleDefinition F}
    {m' : ModuleDefinition F} (h : kernelModule (rawWeight rawModule) m = some m') :
    hostModuleTree m = kernelModuleTree rawModule m ↔ SameModuleTexts rawModule m := by
  simp only [kernelModule, Option.bind_eq_bind, Option.bind_eq_some_iff, Option.some.injEq] at h
  obtain ⟨_, -, _, -, _, -, _, -, w, hw, pipeline, hpipeline, metadata, hmetadata, -⟩ := h
  obtain ⟨-, hoptions⟩ := kernelSteps_ok hpipeline
  rw [hostModuleTree, kernelModuleTree, moduleTree_eq_iff, hw, Option.map_some, Option.getD_some,
    map_eq_iff_sameNumbers (readable_of_decodeMap hmetadata)]
  have hsteps : (∀ step ∈ m.reclaimPipeline,
      stepTree Numeral.hostText step = stepTree Numeral.readText step) ↔
      ∀ step ∈ m.reclaimPipeline, SameNumbers step.options :=
    forall₂_congr fun step hstep =>
      stepTree_eq_iff.trans (map_eq_iff_sameNumbers (hoptions step hstep))
  rw [hsteps]
  constructor
  · rintro ⟨hweight, hsame, hmetadata⟩
    exact ⟨⟨w, hw, hweight.symm⟩, hsame, hmetadata⟩
  · rintro ⟨⟨w', hw', hweight⟩, hsame, hmetadata⟩
    rw [hw, Option.some.injEq] at hw'
    exact ⟨hw' ▸ hweight.symm, hsame, hmetadata⟩

/-- What holds of the lists of the module trees, module by module. -/
theorem moduleLists_eq_iff {raws : List (HostValue F)} {ms : List (Host.ModuleDefinition F)}
    (hread : List.Forall₂ (fun raw m => Host.moduleFromDict raw = .ok m) raws ms)
    (hraws : ∀ raw ∈ raws, Host.IsModule raw) {ms' : List (ModuleDefinition F)}
    (h : allSome (raws.map decodeModule) = some ms') :
    ms.map hostModuleTree = kernelModuleTrees raws ms ↔
      List.Forall₂ SameModuleTexts raws ms := by
  induction hread generalizing ms' with
  | nil => exact iff_of_true rfl .nil
  | @cons raw m raws ms hm hread ih =>
      obtain ⟨m', hm', rest, hrest, -⟩ :=
        (decodeModules_cons (hraws raw List.mem_cons_self) hm).1 h
      rw [List.map_cons, kernelModuleTrees, List.zipWith_cons_cons, List.cons.injEq,
        List.forall₂_cons, moduleTrees_eq_iff hm', ← kernelModuleTrees,
        ih (fun raw' hraw => hraws raw' (List.mem_cons_of_mem _ hraw)) hrest]

omit [FloatOps F] [NumberTexts F] in
theorem sameShape_moduleTree (f g : Numeral F → String) (weight weight' : String)
    (m : Host.ModuleDefinition F) :
    JsonTree.SameShape (moduleTree f weight m) (moduleTree g weight' m) := by
  have hsteps : (m.reclaimPipeline.map (stepTree f)).map (JsonTree.map fun _ => ()) =
      (m.reclaimPipeline.map (stepTree g)).map (JsonTree.map fun _ => ()) := by
    rw [List.map_map, List.map_map]
    exact List.map_congr_left fun step _ => JsonTree.sameShape_map f g step.publicDict
  have hmetadata : ((JsonTree.object m.metadata).map f).map (fun _ => ()) =
      ((JsonTree.object m.metadata).map g).map fun _ => () :=
    JsonTree.sameShape_map f g (.object m.metadata)
  rw [JsonTree.SameShape, moduleTree, moduleTree, JsonTree.map_object (fun _ => ()),
    JsonTree.map_object (fun _ => ())]
  simp only [List.map_cons, List.map_nil, JsonTree.map_array, JsonTree.map_number, hsteps,
    hmetadata]

omit [FloatOps F] [NumberTexts F] in
theorem sameShape_arenaTree (f g : Numeral F → String) {modules modules' : List (JsonTree String)}
    (h : List.Forall₂ JsonTree.SameShape modules modules')
    (definition : Host.ArenaDefinition F) :
    JsonTree.SameShape (arenaTree f modules definition) (arenaTree g modules' definition) := by
  have hmodules : modules.map (JsonTree.map fun _ => ()) =
      modules'.map (JsonTree.map fun _ => ()) := by
    rw [← List.forall₂_eq_eq_eq, List.forall₂_map_left_iff, List.forall₂_map_right_iff]
    exact h
  have hmetadata : ((JsonTree.object definition.metadata).map f).map (fun _ => ()) =
      ((JsonTree.object definition.metadata).map g).map fun _ => () :=
    JsonTree.sameShape_map f g (.object definition.metadata)
  rw [JsonTree.SameShape, arenaTree, arenaTree, JsonTree.map_object (fun _ => ()),
    JsonTree.map_object (fun _ => ())]
  simp only [List.map_cons, List.map_nil, JsonTree.map_array, JsonTree.map_number, hmodules,
    hmetadata]

omit [FloatOps F] [NumberTexts F] in
theorem forall₂_moduleTrees {f g : Numeral F → String} {weight : Host.ModuleDefinition F → String}
    {weight' : HostValue F → String} {R : HostValue F → Host.ModuleDefinition F → Prop}
    {raws : List (HostValue F)} {ms : List (Host.ModuleDefinition F)}
    (hread : List.Forall₂ R raws ms) :
    List.Forall₂ JsonTree.SameShape (ms.map fun m => moduleTree f (weight m) m)
      (List.zipWith (fun raw m => moduleTree g (weight' raw) m) raws ms) := by
  induction hread with
  | nil => exact .nil
  | cons _ _ ih => exact .cons (sameShape_moduleTree ..) ih

theorem plain_kernelModuleTrees {raws : List (HostValue F)} {ms : List (Host.ModuleDefinition F)} :
    ∀ t ∈ kernelModuleTrees raws ms, ∀ text ∈ t.numbers, JsonTree.PlainNumber text := by
  induction raws generalizing ms with
  | nil => simp [kernelModuleTrees]
  | cons raw raws ih =>
      cases ms with
      | nil => simp [kernelModuleTrees]
      | cons m ms =>
          exact List.forall_mem_cons.2
            ⟨plain_moduleTree plain_readText (plain_getD (plain_text _)) m, ih⟩

/-! ### The layouts -/

/-- The two texts are the same exactly when both sides write all strings and numbers alike. -/
theorem payloads_eq_iff {arena : HostValue F} (hdistinct : arena.DistinctKeys)
    {definition : Host.ArenaDefinition F} (hp : Host.arenaFromDict arena = .ok definition)
    {d : ArenaDefinition F} (hd : decodeArena arena = some d) :
    Host.layoutPayload definition = d.canonical ↔ SameTexts arena definition := by
  have h := arenaFromDict_ok hp
  have hkeys := distinct_publicDict hdistinct h
  have hhost := hostArenaTree_eq definition
  have hshape : JsonTree.SameShape (definition.publicDict.map Numeral.hostText)
      (kernelArenaTree arena definition) := by
    rw [hhost, kernelArenaTree]
    exact sameShape_arenaTree _ _ (forall₂_moduleTrees h.modules) definition
  have hplain : ∀ text ∈ (definition.publicDict.map Numeral.hostText).sortKeys.numbers,
      JsonTree.PlainNumber text := fun text htext =>
    plain_map plain_hostText definition.publicDict text (JsonTree.mem_numbers_sortKeys.1 htext)
  have hplain' : ∀ text ∈ (kernelArenaTree arena definition).sortKeys.numbers,
      JsonTree.PlainNumber text := fun text htext =>
    plain_arenaTree plain_readText plain_kernelModuleTrees definition text
      (JsonTree.mem_numbers_sortKeys.1 htext)
  have hall : ∃ ms', allSome ((rawModules arena).map decodeModule) = some ms' ∧
      Readable definition.metadata := by
    rw [decodeArena, Option.ite_none_right_eq_some, decodeArena_eq h] at hd
    simp only [kernelArena, Option.bind_eq_bind, Option.bind_eq_some_iff] at hd
    obtain ⟨-, ms', hms', _, -, metadata, hmetadata, -⟩ := hd
    exact ⟨ms', hms', readable_of_decodeMap hmetadata⟩
  obtain ⟨ms', hms', hreadable⟩ := hall
  have hascii : JsonTree.AgreeOn asciiEscape serdeEscape
      (definition.publicDict.map Numeral.hostText).sortKeys ↔
      ∀ s ∈ definition.publicDict.strings, IsAscii s := by
    rw [← JsonTree.strings_map Numeral.hostText]
    exact ⟨fun hagree s hs => agree_iff.1 (hagree s (JsonTree.mem_strings_sortKeys.2 hs)),
      fun hagree s hs => agree_iff.2 (hagree s (JsonTree.mem_strings_sortKeys.1 hs))⟩
  rw [Host.layoutPayload, dumps, ArenaDefinition.canonical, Value.toJson_eq,
    toValue_tree h hkeys hd, JsonTree.map_sortKeys, String.toUTF8_eq_toByteArray,
    String.toUTF8_eq_toByteArray, String.toByteArray_inj, String.ofList_inj,
    JsonTree.write_eq_iff escapes_apart hshape.sortKeys hplain hplain', hascii,
    JsonTree.sortKeys_inj hshape ((JsonTree.distinctKeys_map ..).2 hkeys), hhost, kernelArenaTree,
    arenaTree_eq_iff, moduleLists_eq_iff h.modules h.isModule hms',
    map_eq_iff_sameNumbers hreadable]
  constructor
  · rintro ⟨⟨hmodules, hmetadata⟩, hstrings⟩
    exact ⟨hstrings, hmetadata, hmodules⟩
  · rintro ⟨hstrings, hmetadata, hmodules⟩
    exact ⟨⟨hmodules, hmetadata⟩, hstrings⟩

/-- Both sides hash the same bytes of a configuration, and so find the same hash, exactly when they
write all its strings and numbers alike. -/
theorem layouts_agree_iff (hexdigest : ByteArray → String) (arena : JsonConfig F)
    {definition : Host.ArenaDefinition F} (hp : Host.arenaFromDict arena.1 = .ok definition)
    {d : ArenaDefinition F} (hd : decodeArena arena.1 = some d) :
    (Host.layoutPayload definition = d.canonical ∧
      ∀ layout, Host.compileLayout hexdigest definition = .ok layout →
        layout.layoutHash = d.layoutHash hexdigest) ↔
      SameTexts arena.1 definition := by
  rw [← payloads_eq_iff arena.2 hp hd]
  refine ⟨And.left, fun heq => ⟨heq, fun layout hlayout => ?_⟩⟩
  simp only [Host.compileLayout, Except.bind_eq_ok] at hlayout
  obtain ⟨_, -, _, -, _, -, _, -, hlayout⟩ := hlayout
  cases hlayout
  rw [Host.shortDigest, ArenaDefinition.layoutHash, heq]

end Layouts

theorem notesArena_distinct (policyVersion : String) :
    (notesArena policyVersion).DistinctKeys := by
  simp [notesArena]

/-- The notes as a configuration. -/
def notesConfig (policyVersion : String) : JsonConfig Decimal :=
  ⟨notesArena policyVersion, notesArena_distinct policyVersion⟩

/-- What the kernel reads of the notes. -/
def kernelNotes (policyVersion : String) : ArenaDefinition Decimal where
  arenaId := "notes"
  modules := [{ moduleId := "history", floorTokens := 2, targetTokens := 4, maxTokens := 4,
                weight := ⟨1⟩ }]
  policyVersion

/-- Both sides hash the same bytes of the notes. -/
theorem notes_layouts_agree :
    Host.layoutPayload (notesDefinition "1") = (kernelNotes "1").canonical ∧
      ∀ layout, Host.compileLayout (fun bytes => toString bytes.size) (notesDefinition "1") =
        .ok layout →
          layout.layoutHash = (kernelNotes "1").layoutHash fun bytes => toString bytes.size := by
  refine (layouts_agree_iff (fun bytes => toString bytes.size) (notesConfig "1") rfl rfl).2
    ⟨?_, ?_, .cons ?_ .nil⟩
  · simp only [notesDefinition, Host.ArenaDefinition.publicDict, List.map_cons, List.map_nil,
      Host.ModuleDefinition.publicDict, JsonTree.strings_object, JsonTree.strings_array,
      JsonTree.strings_string, JsonTree.strings_number, JsonTree.strings_bool, List.flatMap_cons,
      List.flatMap_nil, List.forall_mem_cons, List.forall_mem_append]
    simp [IsAscii, IsAsciiChar, Host.StrEnum.value]
  · simp [SameNumbers, notesDefinition]
  · refine ⟨⟨⟨1⟩, rfl, rfl⟩, ?_, ?_⟩
    · exact fun step hstep => by cases hstep
    · simp [SameNumbers]

/-- Both sides accept a policy version with an accent, and hash different bytes. -/
theorem accented_arena_apart :
    Host.arenaFromDict (notesConfig "é").1 = .ok (notesDefinition "é") ∧
      decodeArena (notesConfig "é").1 = some (kernelNotes "é") ∧
      validateDefinition (kernelNotes "é") = .ok () ∧
      Host.layoutPayload (notesDefinition "é") ≠ (kernelNotes "é").canonical := by
  have hp : Host.arenaFromDict (notesConfig "é").1 = .ok (notesDefinition "é") := rfl
  have hd : decodeArena (notesConfig "é").1 = some (kernelNotes "é") := rfl
  refine ⟨hp, hd, rfl, ?_⟩
  intro heq
  have hsame := (payloads_eq_iff (notesConfig "é").2 hp hd).1 heq
  have hascii : IsAscii "é" := hsame.ascii "é" (by simp [notesDefinition,
    Host.ArenaDefinition.publicDict])
  have hchar : 'é'.toNat ≤ 126 := hascii 'é' (by simp)
  exact absurd hchar (by decide)

end ContextLease
