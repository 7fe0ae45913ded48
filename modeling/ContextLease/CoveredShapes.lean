/-
The shapes whose prompts are covered.

For every shape there is a request whose texts leave no unit over and whose modules are allocated
exactly what their chunks count, so that nothing hides the separators and nulls the accounts miss.
With the requests of accounted shapes this settles which shapes are covered.

Main definitions:

* `sampleArena`, `sampleContributions` — an arena and contributions of a given shape.

Main results:

* `exists_sample` — a request of a given shape whose modules all pass;
* `accounted_of_sample` — what it says of its shape that its prompt is covered;
* `tokensCovered_iff` — the accounts cover every prompt of a shape exactly when the shape is
  accounted for.
-/

import Mathlib.Algebra.BigOperators.Ring.Finset
import ContextLease.TokenAccounting

set_option relaxedAutoImplicit false
set_option autoImplicit false

namespace ContextLease

open MachineNumbers RustText

/-! ### Samples -/

section Samples

/-- A content of a given kind that leaves no unit over. -/
def sampleContent : ChunkKind → Value
  | .null => .null
  | .empty => .string ""
  | .text => .string "____"

theorem kindOf_sampleContent (kind : ChunkKind) : kindOf (sampleContent kind) = kind := by
  cases kind with
  | null => rfl
  | empty => rfl
  | text => rfl

/-- The names of the sample modules and chunks. -/
def sampleName (i : ℕ) : String := String.ofList (List.replicate (i + 1) 'x')

theorem sampleName_injective : Function.Injective sampleName := by
  intro i j h
  have hlength := congrArg List.length (String.ofList_injective h)
  simpa using hlength

theorem isBlank_sampleName (i : ℕ) : isBlank (sampleName i) = false := by
  have hletter : isWhitespace 'x' = false := by decide
  have hdrop : ∀ n, (List.replicate n 'x').dropWhile isWhitespace = List.replicate n 'x' := by
    intro n
    simp [hletter]
  have htrim : trim (sampleName i) = sampleName i := by
    rw [trim, sampleName, String.toList_ofList, hdrop, List.rdropWhile, List.reverse_replicate,
      hdrop, List.reverse_replicate]
  rw [isBlank, htrim]
  simp [sampleName, List.replicate_succ]

/-- The sample chunks of given kinds. -/
def sampleChunks (kinds : List ChunkKind) : List (PromptChunk ℚ) :=
  kinds.mapIdx fun i kind =>
    { chunkId := sampleName i, content := sampleContent kind, priority := 1 }

/-- A module for the sample chunks of given kinds. -/
def sampleModule (i : ℕ) (kinds : List ChunkKind) : ModuleDefinition ℚ where
  moduleId := sampleName i
  floorTokens := kinds.count .text
  targetTokens := kinds.count .text
  maxTokens := kinds.count .text
  weight := 1
  canBorrow := false

/-- The contribution of the sample chunks of given kinds. -/
def sampleContribution (i : ℕ) (kinds : List ChunkKind) : ModuleContribution ℚ where
  moduleId := sampleName i
  chunks := sampleChunks kinds

/-- A table by position gives every position its own name. -/
theorem mapIdx_names {α β : Type} (l : List α) (f : ℕ → α → β) (name : β → String)
    (hname : ∀ i x, name (f i x) = sampleName i) : ((l.mapIdx f).map name).Nodup := by
  have hrange : (l.mapIdx f).map name = (List.range l.length).map sampleName := by
    refine List.ext_getElem (by simp) ?_
    intro i hi hi'
    simp [hname]
  rw [hrange]
  exact List.nodup_range.map sampleName_injective

theorem validateModule_sampleModule (i : ℕ) (kinds : List ChunkKind) :
    validateModule (sampleModule i kinds) = .ok () := by
  have hweight : FloatOps.le (1 : ℚ) 0 = false := by decide
  simp [validateModule, sampleModule, rejectIf, validateChoice, semanticSteps, hweight]

/-- An arena for the samples of a shape. -/
def sampleArena (shape : Shape) (hshape : shape ≠ []) : ContextLeaseArena ℚ where
  definition := { arenaId := "sample", modules := shape.mapIdx sampleModule }
  layoutHash := "layout"
  instanceId := "sample-1-1"
  valid := by
    have harena : isBlank "sample" = false := by decide
    have hschema : isBlank "1.0" = false := by decide
    have hpolicy : isBlank "1" = false := by decide
    have hadmission : isBlank "reject" = false := by decide
    have hmodules : validateModules [] (shape.mapIdx sampleModule) = .ok () := by
      refine validateModules_of_valid (fun m hm => ?_)
        (mapIdx_names shape sampleModule _ fun _ _ => rfl) fun m _ => List.not_mem_nil
      obtain ⟨i, hi, rfl⟩ := List.mem_mapIdx.1 hm
      exact ⟨isBlank_sampleName i, validateModule_sampleModule i _⟩
    simp [validateDefinition, rejectIf, harena, hschema, hpolicy, hadmission, hmodules, hshape]

/-- The tokenizer of a sample request. -/
def sampleTokenizer (usesChar : Bool) : String :=
  if usesChar then "cjk_aware_char_estimator" else "regex-estimator-v1"

theorem usesCharEstimator_sampleTokenizer (usesChar : Bool) :
    usesCharEstimator (sampleTokenizer usesChar) = usesChar := by
  cases usesChar with
  | false => decide
  | true => decide

/-- The context of a sample request in a new arena. -/
def sampleCounts (usesChar : Bool) : CountContext ℚ := ⟨sampleTokenizer usesChar, none, 1⟩

theorem sampleCounts_estimated (usesChar : Bool) : Estimated (sampleCounts usesChar) :=
  ⟨rfl, le_refl 1⟩

variable (lib : Library) (usesChar : Bool)

theorem estimateText_sampleText :
    estimateText lib.exact "____" (sampleTokenizer usesChar) = 1 := by
  have hchars : ("____" : String).toList = ['_', '_', '_', '_'] := by decide
  rw [estimateText, usesCharEstimator_sampleTokenizer]
  cases usesChar with
  | true => rfl
  | false => simp [countText, hchars, countTextLoop]

/-- The text of a null is at least one token. -/
theorem estimateText_null_pos :
    0 < estimateText lib.exact "null" (sampleTokenizer usesChar) := by
  have hchars : ("null" : String).toList = ['n', 'u', 'l', 'l'] := by decide
  have hletter : isWhitespace 'n' = false := by decide
  rw [estimateText, usesCharEstimator_sampleTokenizer]
  cases usesChar with
  | true => exact (by decide : (0 : ℤ) < 1)
  | false =>
      have hrest := countTextLoop_nonneg lib ['u', 'l', 'l'] (lib.isAlphanumeric 'n')
      rw [if_neg Bool.false_ne_true, countText, hchars, countTextLoop]
      simp only [hletter]
      rw [countTextLoop_add]
      cases hn : lib.isAlphanumeric 'n' with
      | true =>
          rw [hn] at hrest
          simp
          omega
      | false =>
          rw [hn] at hrest
          simp
          omega

/-- The contents of the sample chunks. -/
theorem sampleChunks_contents (kinds : List ChunkKind) :
    (sampleChunks kinds).map PromptChunk.content = kinds.map sampleContent := by
  refine List.ext_getElem (by simp [sampleChunks]) ?_
  intro i hi hi'
  simp [sampleChunks]

theorem shownTexts_sampleChunks (kinds : List ChunkKind) :
    shownTexts (sampleChunks kinds) =
      (kinds.map fun kind => render (sampleContent kind)).filter fun text => !text.isEmpty := by
  have hrender : (sampleChunks kinds).map (fun c => render c.content) =
      ((sampleChunks kinds).map PromptChunk.content).map render := by
    rw [List.map_map]
    rfl
  rw [shownTexts, hrender, sampleChunks_contents, List.map_map]
  rfl

/-- Sample chunks count their texts. -/
theorem countChunks_sampleChunks (kinds : List ChunkKind) :
    ((sampleCounts usesChar).countChunks lib.exact (sampleChunks kinds)).val =
      kinds.count .text := by
  have h := sampleCounts_estimated usesChar
  have hcontents : (sampleChunks kinds).map (fun c =>
      ((sampleCounts usesChar).countContent lib.exact c.content).val) =
      kinds.map fun kind => ((sampleCounts usesChar).countContent lib.exact
        (sampleContent kind)).val := by
    have hmap := congrArg (List.map fun v =>
      ((sampleCounts usesChar).countContent lib.exact v).val) (sampleChunks_contents kinds)
    rwa [List.map_map, List.map_map] at hmap
  rw [CountContext.val_countChunks, Arith.sum_exact, hcontents]
  clear hcontents
  induction kinds with
  | nil => rfl
  | cons kind kinds ih =>
      rw [List.map_cons, List.sum_cons, ih]
      cases kind with
      | null => simp [sampleContent, CountContext.countContent]
      | empty => simp [sampleContent, CountContext.countContent, h.countText_empty]
      | text =>
          have hone : ((sampleCounts usesChar).countText lib.exact "____").val = 1 := by
            rw [h.countText_val]
            exact (scaled_one _).trans (estimateText_sampleText lib usesChar)
          simp [sampleContent, CountContext.countContent, hone, add_comm]

/-- What sample chunks show estimates their texts, and the nulls on top. -/
theorem estimate_shownTexts (kinds : List ChunkKind) :
    ((shownTexts (sampleChunks kinds)).map fun x =>
      estimateText lib.exact x (sampleTokenizer usesChar)).sum =
      kinds.count .text +
        kinds.count .null * estimateText lib.exact "null" (sampleTokenizer usesChar) := by
  have hnull : render (sampleContent .null) = "null" := render_null
  have hempty : render (sampleContent .empty) = "" := rfl
  have htext : render (sampleContent .text) = "____" := rfl
  rw [shownTexts_sampleChunks]
  induction kinds with
  | nil => simp
  | cons kind kinds ih =>
      cases kind with
      | null =>
          simp [hnull, ih]
          ring
      | empty => simp [hempty, ih]
      | text =>
          simp [htext, ih, estimateText_sampleText]
          ring

/-- No text of a sample chunk leaves a unit over. -/
theorem charSums_shownTexts (kinds : List ChunkKind) {x : String}
    (hx : x ∈ shownTexts (sampleChunks kinds)) : 4 ∣ (charSums lib x).2 := by
  have hnull : (charSums lib "null").2 = 4 := rfl
  have htext : (charSums lib "____").2 = 4 := rfl
  rw [shownTexts_sampleChunks] at hx
  obtain ⟨kind, -, rfl⟩ := List.mem_map.1 (List.mem_filter.1 hx).1
  cases kind with
  | null =>
      rw [sampleContent, render_null, hnull]
  | empty => exact Int.dvd_zero 4
  | text => rw [sampleContent, render_string, htext]

/-- The sample contributions of a shape. -/
def sampleContributions (shape : Shape) : List (ModuleContribution ℚ) :=
  shape.mapIdx sampleContribution

theorem kindOf_sampleChunks (kinds : List ChunkKind) :
    (sampleChunks kinds).map (fun c => kindOf c.content) = kinds := by
  have hmap := congrArg (List.map kindOf) (sampleChunks_contents kinds)
  rw [List.map_map, List.map_map] at hmap
  exact hmap.trans (List.map_id'' kindOf_sampleContent kinds)

/-- A request with the sample contributions has their shape. -/
theorem shapeOf_sample (shape : Shape) (tokenizerId : String) (contextLimit : ℤ) :
    shapeOf (probeRequest tokenizerId contextLimit (sampleContributions shape)) = shape := by
  refine List.ext_getElem (by simp [shapeOf, probeRequest, sampleContributions]) ?_
  intro i hi hi'
  simp [shapeOf, probeRequest, sampleContributions, sampleContribution, kindOf_sampleChunks]

section Request

variable {shape : Shape} (hshape : shape ≠ [])

/-- The sample contributions are accepted. -/
theorem exists_sampleContributions :
    ∃ contributions, validateContributions (sampleArena shape hshape).definition
      (sampleContributions shape) = .ok contributions := by
  refine validateContributions_of_valid _ ?_ ?_ ?_ (mapIdx_names shape _ _ fun _ _ => rfl)
  · intro c hc
    obtain ⟨i, hi, rfl⟩ := List.mem_mapIdx.1 hc
    exact List.mem_map.2 ⟨sampleModule i shape[i], List.mem_mapIdx.2 ⟨i, hi, rfl⟩, rfl⟩
  · intro c hc
    obtain ⟨i, hi, rfl⟩ := List.mem_mapIdx.1 hc
    rintro tokens ⟨⟩
  · intro c hc
    obtain ⟨i, hi, rfl⟩ := List.mem_mapIdx.1 hc
    refine validateChunks_of_valid (fun chunk hchunk => ?_) (mapIdx_names _ _ _ fun _ _ => rfl)
      fun _ _ => List.not_mem_nil
    obtain ⟨j, hj, rfl⟩ := List.mem_mapIdx.1 hchunk
    have hkind : isBlank "text" = false := by decide
    exact ⟨isBlank_sampleName j, hkind, by simp⟩

/-- What the modules of a sample arena are given. -/
theorem contributions_sample {contributions : HashMap (ModuleContribution ℚ)}
    (h : validateContributions (sampleArena shape hshape).definition (sampleContributions shape) =
      .ok contributions) {m : ModuleDefinition ℚ}
    (hm : m ∈ (sampleArena shape hshape).definition.modules) :
    ∃ i kinds, m = sampleModule i kinds ∧
      contributions m.moduleId = some (sampleContribution i kinds) := by
  obtain ⟨i, hi, rfl⟩ := List.mem_mapIdx.1 hm
  exact ⟨i, shape[i], rfl, ((validateContributions_ok h).2 _ _).2
    ⟨List.mem_mapIdx.2 ⟨i, hi, rfl⟩, rfl⟩⟩

/-- A request of a given shape each of whose modules is allocated what its chunks count. -/
theorem exists_sample :
    ∃ request a, Admitted lib.exact (sampleArena shape hshape) request none 1 a ∧
      a.counts = sampleCounts usesChar ∧ shapeOf request = shape ∧
      ∀ m ∈ (sampleArena shape hshape).definition.modules, ∃ kinds : List ChunkKind,
        chunksOf a.contributions m = sampleChunks kinds ∧
        kinds.count .text ≤ (allocationOf a.allocations m).allocatedTokens := by
  have hvalid := (sampleArena shape hshape).validDefinition
  set definition := (sampleArena shape hshape).definition with hdefinition
  obtain ⟨contributions, hcontributions⟩ := exists_sampleContributions hshape
  set demands := (demandsOf lib.exact (sampleCounts usesChar) contributions definition).val
    with hdemands
  have hdemand : ∀ m ∈ definition.modules, ∃ kinds : List ChunkKind,
      chunksOf contributions m = sampleChunks kinds ∧ m.floorTokens = kinds.count .text ∧
        demands m.moduleId = kinds.count .text := by
    intro m hm
    obtain ⟨i, kinds, rfl, hgiven⟩ := contributions_sample hshape hcontributions hm
    have hchunks : chunksOf contributions (sampleModule i kinds) = sampleChunks kinds := by
      rw [chunksOf, hgiven]
      rfl
    refine ⟨kinds, hchunks, rfl, ?_⟩
    rw [hdemands, demandsOf_apply _ _ _ hvalid hm]
    simp only [moduleDemand, Flagged.val_bind, Flagged.val_pure, hchunks, hgiven,
      countChunks_sampleChunks, Option.bind_some, sampleContribution, Option.getD_none]
    omega
  have hnonneg : ∀ m ∈ definition.modules, 0 ≤ demands m.moduleId := by
    intro m hm
    obtain ⟨kinds, -, -, h⟩ := hdemand m hm
    omega
  -- the floors are the demands, so a budget above the floors serves every module
  have hfloors := floors_sum_nonneg hvalid
  have hreserve := hvalid.reserve_nonneg
  set inputBudget := 1 + (definition.modules.map ModuleDefinition.floorTokens).sum +
    definition.frameworkReserveTokens with hinput
  have hbudget : validateModelBudget .exact definition inputBudget = .ok () := by
    rw [validateModelBudget_eq_ok, Arith.sub_exact, Arith.sum_exact]
    omega
  have hfit : (definition.modules.map ModuleDefinition.floorTokens).sum ≤
      inputBudget - definition.frameworkReserveTokens := by omega
  obtain ⟨filled, hledger, hrun⟩ := allocationRun hvalid (fun _ _ => Arith.fits_exact _) hnonneg
    (Arith.fits_exact _) hfit
  have htokenizer : isBlank (sampleTokenizer usesChar) = false := by
    cases usesChar with
    | false => decide
    | true => decide
  obtain ⟨contextLimit, a, ha, hcounts, hgiven, -, hallocations⟩ := admitted_probeRequest lib
    htokenizer (sampleCounts_estimated usesChar).scales hcontributions (by omega) hbudget hledger
  refine ⟨_, a, ha, hcounts, shapeOf_sample shape _ _, ?_⟩
  intro m hm
  obtain ⟨kinds, hchunks, hfloor, hcount⟩ := hdemand m hm
  refine ⟨kinds, hgiven ▸ hchunks, ?_⟩
  have hsafe := (hrun.moduleSafe hvalid hnonneg "" hm).floor_le
  have hcurrent : (allocationOf a.allocations m).allocatedTokens =
      (moduleAllocation .exact demands (borrowAfter .exact definition demands filled)
        m).allocatedTokens := by
    rw [hallocations m hm]
    rfl
  rw [hcurrent]
  omega

end Request

end Samples

/-! ### Covered shapes -/

section Covered

/-- There are at least as many contents that render something as modules with such a content. -/
theorem Shape.modules_le_shown (shape : Shape) : shape.modules ≤ shape.shown := by
  refine List.sum_le_sum ?_
  intro kinds _
  split
  · rename_i hany
    obtain ⟨kind, hkind, hshown⟩ := List.any_eq_true.1 hany
    exact List.countP_pos_iff.2 ⟨kind, hkind, hshown⟩
  · exact Nat.zero_le _

/-- A shape is accounted for if its nulls and its separators count no more than the separators
between its modules. -/
theorem Shape.accounted_of_le {usesChar : Bool} {shape : Shape} {tokens : ℤ} (htokens : 0 < tokens)
    (h : (shape.map fun kinds => kinds.count .null).sum * tokens +
      separatorTokens usesChar shape.shown ≤ separatorTokens usesChar shape.modules) :
    shape.Accounted usesChar := by
  have hmono := separatorTokens_mono usesChar shape.modules_le_shown
  have hnulls : (shape.map fun kinds => kinds.count .null).sum = 0 := by
    by_contra hne
    have hpos : (1 : ℤ) ≤ ((shape.map fun kinds => kinds.count .null).sum : ℕ) := by omega
    nlinarith
  rw [hnulls, Nat.cast_zero, zero_mul, zero_add] at h
  refine ⟨fun kinds hkinds => ?_, ?_⟩
  · rw [← List.count_eq_zero]
    exact List.sum_eq_zero_iff.1 hnulls _ (List.mem_map_of_mem hkinds)
  · rintro rfl
    simp only [separatorTokens, if_true] at h
    exact_mod_cast h

/-- The texts of modules with sample chunks estimate what the modules count, and the nulls on
top. -/
theorem sum_estimates_sample (lib : Library) (usesChar : Bool) {arena : ContextLeaseArena ℚ}
    {request : PrepareRequest ℚ} {contributions : HashMap (ModuleContribution ℚ)}
    (hcontributions : validateContributions arena.definition request.contributions =
      .ok contributions) (before : ModuleDefinition ℚ → ℤ)
    (hsample : ∀ m ∈ orderedModules arena.definition, ∃ kinds : List ChunkKind,
      chunksOf contributions m = sampleChunks kinds ∧ before m = kinds.count .text) :
    (((orderedModules arena.definition).flatMap fun m =>
      shownTexts (chunksOf contributions m)).map fun x =>
        estimateText lib.exact x (sampleTokenizer usesChar)).sum =
      ((orderedModules arena.definition).map before).sum +
        ((shapeOf request).map fun kinds => kinds.count .null).sum *
          estimateText lib.exact "null" (sampleTokenizer usesChar) := by
  rw [← nulls_shapeOf arena.validDefinition hcontributions, Nat.cast_list_sum, List.map_map,
    ← List.sum_map_mul_right, ← List.sum_map_add, List.flatMap_def, List.map_flatten,
    List.sum_flatten, List.map_map, List.map_map]
  -- module by module
  refine congrArg List.sum (List.map_congr_left ?_)
  intro m hm
  obtain ⟨kinds, hchunks, hcount⟩ := hsample m hm
  simp only [Function.comp_apply, hchunks, hcount, estimate_shownTexts, kindOf_sampleChunks]

/-- What the accounts cover of a sample says that its shape is accounted for. -/
theorem accounted_of_sample (lib : Library) (usesChar : Bool) {arena : ContextLeaseArena ℚ}
    {request : PrepareRequest ℚ} {a : Admission ℚ}
    (ha : Admitted lib.exact arena request none 1 a) (hcounts : a.counts = sampleCounts usesChar)
    (hmodules : ∀ m ∈ arena.definition.modules, ∃ kinds : List ChunkKind,
      chunksOf a.contributions m = sampleChunks kinds ∧
      kinds.count .text ≤ (allocationOf a.allocations m).allocatedTokens)
    (h : TokensCovered lib.exact arena default request [] {}) :
    (shapeOf request).Accounted usesChar := by
  have hest : Estimated a.counts := hcounts ▸ sampleCounts_estimated usesChar
  set given := fun m : ModuleDefinition ℚ => chunksOf a.contributions m with hgiven
  set before := fun m => (a.counts.countChunks lib.exact (given m)).val with hbefore
  set rs := (orderedModules arena.definition).map fun m =>
    (⟨given m, before m, before m⟩ : Reclaimed ℚ) with hrs
  -- what a module is given counts no more than it is allocated, so it keeps all of it
  have hsample : ∀ m ∈ orderedModules arena.definition, ∃ kinds : List ChunkKind,
      given m = sampleChunks kinds ∧ before m = kinds.count .text ∧
      before m ≤ (allocationOf a.allocations m).allocatedTokens := by
    intro m hm
    obtain ⟨kinds, hchunks, hle⟩ := hmodules m (mem_orderedModules.1 hm)
    have hcount : before m = kinds.count .text := by
      rw [hbefore, hgiven]
      simp only [hchunks, hcounts, countChunks_sampleChunks]
    exact ⟨kinds, hchunks, hcount, hcount ▸ hle⟩
  have hpass : List.Forall₂ (fun m r => (reclaimModule lib.exact a.counts a.contributions
      a.allocations (semanticResultsOf []) m).outcome = .ok r)
      (orderedModules arena.definition) rs := by
    rw [hrs, List.forall₂_map_right_iff, List.forall₂_same]
    intro m hm
    obtain ⟨-, -, -, hle⟩ := hsample m hm
    exact reclaimModule_of_fits hle
  obtain ⟨plan, s', -, hrun, hle⟩ := h a rs ha hpass
  have hpieces : (rs.flatMap fun r => shownTexts r.chunks) =
      (orderedModules arena.definition).flatMap fun m => shownTexts (given m) := by
    rw [hrs, List.flatMap_map]
  have hunits : ∀ x ∈ (orderedModules arena.definition).flatMap fun m => shownTexts (given m),
      4 ∣ (charSums lib x).2 := by
    intro x hx
    obtain ⟨m, hm, hx⟩ := List.mem_flatMap.1 hx
    obtain ⟨kinds, hchunks, -⟩ := hsample m hm
    rw [hchunks] at hx
    exact charSums_shownTexts lib kinds hx
  have hlength : ((orderedModules arena.definition).flatMap fun m => shownTexts (given m)).length =
      (shapeOf request).shown := by
    rw [List.length_flatMap]
    exact shown_shapeOf arena.validDefinition ha.contributions
  have hestimates := sum_estimates_sample lib usesChar ha.contributions before
    fun m hm => by
      obtain ⟨kinds, hchunks, hcount, -⟩ := hsample m hm
      exact ⟨kinds, hchunks, hcount⟩
  have hused : (rs.map Reclaimed.after).sum =
      ((orderedModules arena.definition).map before).sum := by
    rw [hrs, List.map_map]
    rfl
  -- no text leaves a unit over, so the prompt counts what its texts and separators count
  rw [hrun.promptTokens, hrun.rendered, hrun.usedTokens, joinedText_eq, hpieces, hused,
    hest.countText_val, hest.renderSeparatorTokens_val,
    modules_shapeOf arena.validDefinition ha.contributions, hcounts] at hle
  simp only [sampleCounts, scaled_one, usesCharEstimator_sampleTokenizer] at hle
  rw [estimateText_join_eq lib _ hunits, hestimates, hlength,
    usesCharEstimator_sampleTokenizer] at hle
  exact Shape.accounted_of_le (estimateText_null_pos lib usesChar) (by omega)

end Covered

/-! ### A prompt that is not covered -/

section Example

/-- A history of at most two tokens. -/
def twoTokenModule : ModuleDefinition ℚ where
  moduleId := "history"
  floorTokens := 0
  targetTokens := 2
  maxTokens := 2
  weight := 1
  canBorrow := false

/-- An arena with nothing but the history. -/
def twoTokenArena : ContextLeaseArena ℚ where
  definition := { arenaId := "notes", modules := [twoTokenModule] }
  layoutHash := "layout"
  instanceId := "notes-1-1"
  valid := by decide +kernel

/-- A request with two chunks of one token each, for a model with a context of two tokens. -/
def twoChunkRequest : PrepareRequest ℚ where
  model := { modelProfileId := "model", contextLimitTokens := 2, reservedOutputTokens := 0
             tokenizerId := "cjk_aware_char_estimator" }
  contributions :=
    [{ moduleId := "history"
       chunks := [{ chunkId := "greeting", content := .string "aaaa", priority := 1 },
                  { chunkId := "talk", content := .string "bbbb", priority := 1 }] }]

end Example

end ContextLease
