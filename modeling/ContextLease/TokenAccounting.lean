/-
What the tokens of a prompt are accounted as.

A request sets tokens aside for the separators between its modules, and every module uses what its
chunks count.  The prompt also has the separators between the chunks of a module, which nothing
accounts for, and a null content renders four characters but counts as nothing.  How the contents
of a request render decides whether the accounts cover the prompt, whatever the texts are.

Main definitions:

* `shownTexts` — the texts a list of chunks puts into the prompt;
* `ChunkKind`, `shapeOf` — how the contents of a request render;
* `TokensCovered` — a call whose modules all pass succeeds, and its prompt is covered;
* `Shape.Accounted` — the shapes whose prompts are covered.

Main results:

* `joinedText_eq` — a prompt is the join of its chunks;
* `Reclaimed.Accounts` — what a module after its reclaim uses and shows;
* `tokensCovered_of_accounted`, `tokensCovered_iff` — the accounts cover every prompt of a shape
  exactly when the shape is accounted for.
-/

import ContextLease.AdmissionSpec
import ContextLease.Commit
import ContextLease.Estimators
import ContextLease.Quiet

set_option relaxedAutoImplicit false
set_option autoImplicit false

namespace ContextLease

open MachineNumbers RustText

/-! ### What a module shows -/

section Shown

variable {F : Type}

/-- The texts a list of chunks puts into the prompt. -/
def shownTexts (chunks : List (PromptChunk F)) : List String :=
  (chunks.map fun c => render c.content).filter fun text => !text.isEmpty

/-- A prompt is the join of its chunks. -/
theorem joinedText_eq (rs : List (Reclaimed F)) :
    joinedText rs = "\n\n".intercalate (rs.flatMap fun r => shownTexts r.chunks) := by
  have hpieces : ∀ group ∈ rs.map (fun r => shownTexts r.chunks), ∀ x ∈ group, x ≠ "" := by
    intro group hgroup x hx
    obtain ⟨r, -, rfl⟩ := List.mem_map.1 hgroup
    simpa using (List.mem_filter.1 hx).2
  have hjoin := Joined.intercalate_flatten "\n\n" hpieces
  rw [List.map_map] at hjoin
  exact hjoin

theorem shownTexts_append (chunks chunks' : List (PromptChunk F)) :
    shownTexts (chunks ++ chunks') = shownTexts chunks ++ shownTexts chunks' := by
  simp [shownTexts]

theorem shownTexts_perm {chunks chunks' : List (PromptChunk F)} (h : chunks.Perm chunks') :
    (shownTexts chunks).Perm (shownTexts chunks') := (h.map _).filter _

/-- Protected and elastic chunks are all chunks. -/
theorem protected_elastic_perm (m : ModuleDefinition F) (chunks : List (PromptChunk F)) :
    (protectedChunks m chunks ++ elasticChunks m chunks).Perm chunks :=
  List.filter_append_perm _ _

/-- Chunks none of which has a null content. -/
def NullFree (chunks : List (PromptChunk F)) : Prop := ∀ c ∈ chunks, c.content ≠ .null

/-- A content other than null counts as what it renders. -/
theorem countContent_of_ne_null [FloatOps F] (P : Platform) (counts : CountContext F) {v : Value}
    (h : v ≠ .null) : counts.countContent P v = counts.countText P (render v) := by
  cases v with
  | null => exact absurd rfl h
  | bool b => rfl
  | number text => rfl
  | string s => rfl
  | array items => rfl
  | object entries => rfl

/-- The counts of the protected and the elastic chunks add up. -/
theorem countChunks_split [FloatOps F] (lib : Library) (counts : CountContext F)
    (m : ModuleDefinition F) (chunks : List (PromptChunk F)) :
    (counts.countChunks lib.exact chunks).val =
      (counts.countChunks lib.exact (protectedChunks m chunks)).val +
        (counts.countChunks lib.exact (elasticChunks m chunks)).val := by
  simp only [CountContext.val_countChunks, Arith.sum_exact]
  rw [← List.sum_append, ← List.map_append]
  exact ((protected_elastic_perm m chunks).symm.map _).sum_eq

end Shown

/-! ### What a module uses -/

section Used

variable (lib : Library) {counts : CountContext ℚ} (h : Estimated counts)
include h

theorem Estimated.countText_empty : (counts.countText lib.exact "").val = 0 := by
  rw [h.countText_val, estimateText_empty, scaled_zero]

/-- Chunks without nulls count what they show. -/
theorem Estimated.countChunks_eq {chunks : List (PromptChunk ℚ)} (hnull : NullFree chunks) :
    (counts.countChunks lib.exact chunks).val =
      ((shownTexts chunks).map fun x => (counts.countText lib.exact x).val).sum := by
  rw [CountContext.val_countChunks, Arith.sum_exact]
  induction chunks with
  | nil => rfl
  | cons c chunks ih =>
      have hc := hnull c (List.mem_cons_self ..)
      specialize ih fun c' hc' => hnull c' (List.mem_cons_of_mem _ hc')
      rw [List.map_cons, List.sum_cons, ih, countContent_of_ne_null _ _ hc]
      by_cases hempty : render c.content = ""
      · simp [shownTexts, hempty, h.countText_empty]
      · simp [shownTexts, hempty]

/-- What a module after its reclaim uses and shows, compared with the chunks it was given. -/
structure Reclaimed.Accounts (lib : Library) (counts : CountContext ℚ)
    (chunks : List (PromptChunk ℚ)) (allocated : ℤ) (r : Reclaimed ℚ) : Prop where
  after_eq : r.after = (counts.countChunks lib.exact r.chunks).val
  after_le : r.after ≤ allocated
  shown_le : (shownTexts r.chunks).length ≤ (shownTexts chunks).length
  nullFree : NullFree chunks → NullFree r.chunks

/-- A module whose elastic chunks count something shows one of them. -/
theorem Estimated.shownTexts_ne_nil (chunks : List (PromptChunk ℚ))
    (hpositive : 0 < (counts.countChunks lib.exact chunks).val) : shownTexts chunks ≠ [] := by
  intro hnone
  have hempty : ∀ c ∈ chunks, render c.content = "" := by
    intro c hc
    by_contra hshown
    have hmem : render c.content ∈ shownTexts chunks :=
      List.mem_filter.2 ⟨List.mem_map_of_mem hc, by simpa using hshown⟩
    rw [hnone] at hmem
    cases hmem
  have hnull : NullFree chunks := by
    intro c hc hcontent
    have hrender := hempty c hc
    rw [hcontent, render_null] at hrender
    exact absurd hrender (by decide)
  rw [h.countChunks_eq lib hnull, hnone] at hpositive
  exact absurd hpositive (lt_irrefl 0)

/-- A module that passes its reclaim accounts for what it uses. -/
theorem Estimated.accounts {m : ModuleDefinition ℚ}
    {contributions : HashMap (ModuleContribution ℚ)} {allocations : List ModuleAllocation}
    {semanticResults : HashMap String} {r : Reclaimed ℚ}
    (hr : (reclaimModule lib.exact counts contributions allocations semanticResults m).outcome =
      .ok r) :
    r.Accounts lib counts (chunksOf contributions m)
      (allocationOf allocations m).allocatedTokens := by
  generalize hchunks : chunksOf contributions m = chunks
  generalize hallocated : (allocationOf allocations m).allocatedTokens = allocated
  obtain ⟨hbefore, ⟨hfits, hkept, hafter⟩ | ⟨hover, hcompress⟩⟩ := reclaimModule_ok hr
  · -- within its allocation the module keeps its chunks
    rw [hchunks] at hbefore hkept
    rw [hallocated] at hfits
    refine ⟨?_, by omega, by rw [hkept], fun hnull => by rwa [hkept]⟩
    rw [hafter, hbefore, hkept]
  · -- beyond it one chunk stands for the elastic ones, of which at least one showed a text
    rw [hchunks] at hbefore hcompress
    rw [hallocated] at hover hcompress
    obtain ⟨-, text, -, htarget, hkept, hused⟩ := compressModule_ok hcompress
    rw [reclaimTarget, Arith.sub_exact] at htarget
    have htext := counts.countText_nonneg lib.exact h.scales text
    have hsplit := countChunks_split lib counts m chunks
    have helastic := h.shownTexts_ne_nil lib (elasticChunks m chunks) (by omega)
    refine ⟨?_, ?_, ?_, ?_⟩
    · rw [hused, hkept, CountContext.val_countChunks, CountContext.val_countChunks, Arith.sum_exact,
        Arith.sum_exact, List.map_append, List.sum_append]
      simp [compressedChunk, CountContext.countContent]
    · rw [hused, Arith.add_exact]
      omega
    · have hlength := (shownTexts_perm (protected_elastic_perm m chunks)).length_eq
      have hone : (shownTexts [compressedChunk m (elasticChunks m chunks) text]).length ≤ 1 :=
        (List.length_filter_le _ _).trans (by simp)
      have hsome := List.length_pos_of_ne_nil helastic
      rw [shownTexts_append, List.length_append] at hlength
      rw [hkept, shownTexts_append, List.length_append]
      omega
    · intro hnull c hc
      rw [hkept] at hc
      rcases List.mem_append.1 hc with hc | hc
      · exact hnull c (List.mem_filter.1 hc).1
      · rw [List.mem_singleton.1 hc]
        exact Value.noConfusion

end Used

/-! ### Shapes -/

section Shapes

/-- How a content renders: as `null`, as nothing, or as some other text. -/
inductive ChunkKind
  | null
  | empty
  | text
  deriving DecidableEq

/-- The kind of a content. -/
def kindOf : Value → ChunkKind
  | .null => .null
  | v => if (render v).isEmpty then .empty else .text

/-- The kinds of the contents of a request, contribution by contribution. -/
abbrev Shape := List (List ChunkKind)

/-- The shape of a request. -/
def shapeOf {F : Type} (request : PrepareRequest F) : Shape :=
  request.contributions.map fun c => c.chunks.map fun chunk => kindOf chunk.content

/-- The contents that render something. -/
def Shape.shown (shape : Shape) : ℕ := (shape.map fun kinds => kinds.countP (· ≠ .empty)).sum

/-- The contributions with such a content. -/
def Shape.modules (shape : Shape) : ℕ :=
  (shape.map fun kinds => if kinds.any (· ≠ .empty) then 1 else 0).sum

/-- A shape whose prompts are covered: it has no null, and for the character estimator its
separators round to no more tokens than those between its modules alone. -/
def Shape.Accounted (usesChar : Bool) (shape : Shape) : Prop :=
  (∀ kinds ∈ shape, ChunkKind.null ∉ kinds) ∧
    (usesChar = true → shape.shown / 2 ≤ shape.modules / 2)

variable {F : Type}

theorem kindOf_of_ne_null {v : Value} (h : v ≠ .null) :
    kindOf v = if (render v).isEmpty then .empty else .text := by
  cases v with
  | null => exact absurd rfl h
  | bool b => rfl
  | number text => rfl
  | string s => rfl
  | array items => rfl
  | object entries => rfl

theorem kindOf_eq_null {v : Value} : kindOf v = .null ↔ v = .null := by
  by_cases h : v = .null
  · simp [h, kindOf]
  · rw [kindOf_of_ne_null h]
    split
    · simp [h]
    · simp [h]

theorem kindOf_eq_empty {v : Value} : kindOf v = .empty ↔ render v = "" := by
  by_cases h : v = .null
  · simp [h, kindOf]
  · rw [kindOf_of_ne_null h]
    by_cases hempty : render v = ""
    · simp [hempty]
    · simp [hempty]

/-- The texts a list of chunks shows, by the kinds of its contents. -/
theorem length_shownTexts (chunks : List (PromptChunk F)) :
    (shownTexts chunks).length = (chunks.map fun c => kindOf c.content).countP (· ≠ .empty) := by
  rw [shownTexts, ← List.countP_eq_length_filter, List.countP_map, List.countP_map]
  refine List.countP_congr ?_
  intro c _
  simp [kindOf_eq_empty]

theorem nullFree_iff {chunks : List (PromptChunk F)} :
    NullFree chunks ↔ ChunkKind.null ∉ chunks.map fun c => kindOf c.content := by
  simp [NullFree, kindOf_eq_null]

section Admitted

variable {definition : ArenaDefinition F} {request : PrepareRequest F}
  {contributions : HashMap (ModuleContribution F)} (hvalid : ValidDefinition definition)
  (h : validateContributions definition request.contributions = .ok contributions)
include hvalid h

/-- The shown chunks, module by module. -/
theorem shown_shapeOf :
    ((orderedModules definition).map fun m =>
      (shownTexts (chunksOf contributions m)).length).sum = (shapeOf request).shown := by
  rw [((orderedModules_perm definition).map _).sum_eq,
    sum_chunksOf hvalid h (f := fun chunks => (shownTexts chunks).length) rfl, Shape.shown, shapeOf,
    List.map_map]
  exact congrArg List.sum (List.map_congr_left fun c _ => length_shownTexts c.chunks)

/-- The nulls, module by module. -/
theorem nulls_shapeOf :
    ((orderedModules definition).map fun m =>
      ((chunksOf contributions m).map fun c => kindOf c.content).count .null).sum =
      ((shapeOf request).map fun kinds => kinds.count .null).sum := by
  rw [((orderedModules_perm definition).map _).sum_eq,
    sum_chunksOf hvalid h
      (f := fun chunks => (chunks.map fun c => kindOf c.content).count .null) rfl, shapeOf,
    List.map_map]
  rfl

/-- The modules the kernel sets separators aside for. -/
theorem modules_shapeOf :
    renderedModuleCount contributions definition = (shapeOf request).modules := by
  have hcount : renderedModuleCount contributions definition = (definition.modules.map fun m =>
      if (chunksOf contributions m).any (fun c => !(render c.content).isEmpty) then 1
      else 0).sum := by
    rw [renderedModuleCount, ← List.countP_eq_length_filter]
    induction definition.modules with
    | nil => rfl
    | cons m ms ih =>
        rw [List.countP_cons, ih, List.map_cons, List.sum_cons, add_comm]
  rw [hcount, sum_chunksOf hvalid h (f := fun chunks =>
    if chunks.any (fun c => !(render c.content).isEmpty) then 1 else 0) rfl, Shape.modules, shapeOf,
    List.map_map]
  refine congrArg List.sum (List.map_congr_left ?_)
  intro c _
  have hany : (c.chunks.map fun chunk => kindOf chunk.content).any (fun kind => kind ≠ .empty) =
      c.chunks.any fun chunk => !(render chunk.content).isEmpty := by
    rw [List.any_map]
    refine congrArg c.chunks.any (funext ?_)
    intro chunk
    rw [Bool.eq_iff_iff]
    simp [kindOf_eq_empty]
  rw [Function.comp_apply, hany]

omit hvalid in
/-- Without nulls in the request no module is given one. -/
theorem nullFree_chunksOf (hnull : ∀ kinds ∈ shapeOf request, ChunkKind.null ∉ kinds)
    (m : ModuleDefinition F) : NullFree (chunksOf contributions m) := by
  unfold chunksOf
  cases hc : contributions m.moduleId with
  | none => exact fun c hc => absurd hc List.not_mem_nil
  | some contribution =>
      have hmem := (((validateContributions_ok h).2 _ _).1 hc).1
      exact nullFree_iff.2 (hnull _ (List.mem_map_of_mem hmem))

end Admitted

theorem Shape.Accounted.separators_le {usesChar : Bool} {shape : Shape}
    (h : shape.Accounted usesChar) :
    separatorTokens usesChar shape.shown ≤ separatorTokens usesChar shape.modules := by
  cases usesChar with
  | false => exact le_refl 0
  | true =>
      have hrounds := h.2 rfl
      simp only [separatorTokens, if_true]
      exact_mod_cast hrounds

end Shapes

/-! ### Covered prompts -/

section Covered

/-- A call whose modules all pass their reclaims succeeds, with the prompt of what they left, and
what was set aside for separators and what the modules use cover the prompt. -/
def TokensCovered {F : Type} [FloatOps F] (P : Platform) (arena : ContextLeaseArena F) (env : Env)
    (request : PrepareRequest F) (results : List SemanticResult) (s : ArenaState F) : Prop :=
  ∀ a rs, Admitted P arena request none (safetyMultiplier s request.model) a →
    List.Forall₂ (fun m r => (reclaimModule P a.counts a.contributions a.allocations
      (semanticResultsOf results) m).outcome = .ok r) (orderedModules arena.definition) rs →
    ∃ plan s', prepareWithResults P arena env request results none s = (.ok plan, s') ∧
      PreparedRun P arena request results a plan rs ∧
      plan.promptTokens ≤ (renderSeparatorTokens P a.counts a.contributions arena.definition).val +
        (plan.modules.map ModuleUsage.usedTokens).sum

/-- A call whose modules all pass and whose prompt fits succeeds with that prompt. -/
theorem prepareWithResults_of_fits {F : Type} [FloatOps F] {P : Platform}
    {arena : ContextLeaseArena F} (env : Env) {request : PrepareRequest F}
    {results : List SemanticResult} {counter : Option TokenCounter} {s : ArenaState F}
    {a : Admission F} {rs : List (Reclaimed F)}
    (ha : Admitted P arena request counter (safetyMultiplier s request.model) a)
    (hquiet : a.counts.Quiet P)
    (hrs : List.Forall₂ (fun m r => (reclaimModule P a.counts a.contributions a.allocations
      (semanticResultsOf results) m).outcome = .ok r) (orderedModules arena.definition) rs)
    (hfits : (a.counts.countText P (joinedText rs)).val ≤
      P.arith.sub a.inputBudget arena.definition.frameworkReserveTokens) :
    ∃ plan s', prepareWithResults P arena env request results counter s = (.ok plan, s') ∧
      PreparedRun P arena request results a plan rs := by
  have hunique : ∀ rs', List.Forall₂ (fun m r => (reclaimModule P a.counts a.contributions
      a.allocations (semanticResultsOf results) m).outcome = .ok r)
      (orderedModules arena.definition) rs' → rs' = rs := fun rs' hrs' =>
    List.right_unique_forall₂' (fun m r r' hr hr' => Except.ok.inj (hr.symm.trans hr')) hrs' hrs
  rcases prepareLocked_cases P arena env request results counter
    (safetyMultiplier s request.model) s with ⟨e, heq⟩ | ⟨plan, s', heq, hcall⟩
  · -- neither a module nor the prompt nor the counter makes the call fail
    exfalso
    have hquiet' := Checked.failed_bind (hquiet.admitRequest arena ha.counts)
      (f := fun admission => transact P arena env request results admission s.beginTransaction)
      fun admission hadmission => by
        rw [admit_ok.2 ha, Except.ok.injEq] at hadmission
        subst hadmission
        exact hquiet.transact arena env request results rfl _
    simp only [prepareLocked] at heq
    rw [ensureValid_of_quiet hquiet', Checked.outcome_bind, admit_ok.2 ha, Except.ok_bind'] at heq
    split at heq
    · cases heq
    · rename_i e' htransact
      rcases transact_error htransact with ⟨m, hm, hmodule⟩ | ⟨-, rs', hrs', hover⟩
      · obtain ⟨r, -, hr⟩ := exists_of_forall₂ hrs (mem_orderedModules.2 hm)
        rw [hr] at hmodule
        cases hmodule
      · rw [hunique rs' hrs'] at hover
        exact absurd hfits (not_le.2 hover)
  · obtain ⟨a', rs', ha', hrun⟩ := hcall.run
    obtain rfl : a' = a := Except.ok.inj ((admit_ok.2 ha').symm.trans (admit_ok.2 ha))
    obtain rfl := hunique rs' hrun.reclaimed
    exact ⟨plan, s', heq, hrun⟩

variable {lib : Library} {arena : ContextLeaseArena ℚ} {request : PrepareRequest ℚ}
  {results : List SemanticResult} {multiplier : ℚ} {a : Admission ℚ} {rs : List (Reclaimed ℚ)}

/-- The prompt of a shape that is accounted for is covered. -/
theorem Estimated.joinedText_covered (h : Estimated a.counts)
    (ha : Admitted lib.exact arena request none multiplier a)
    (hrs : List.Forall₂ (fun m r => (reclaimModule lib.exact a.counts a.contributions a.allocations
      (semanticResultsOf results) m).outcome = .ok r) (orderedModules arena.definition) rs)
    (hshape : (shapeOf request).Accounted (usesCharEstimator request.model.tokenizerId)) :
    (a.counts.countText lib.exact (joinedText rs)).val ≤
      (renderSeparatorTokens lib.exact a.counts a.contributions arena.definition).val +
        (rs.map Reclaimed.after).sum := by
  have htokenizer : a.counts.tokenizerId = request.model.tokenizerId := by rw [ha.counts]
  have haccounts := hrs.imp fun m r hr => h.accounts lib hr
  have hused : ∀ r ∈ rs, ((shownTexts r.chunks).map fun x =>
      (a.counts.countText lib.exact x).val).sum = r.after := by
    intro r hr
    obtain ⟨m, -, hm⟩ := exists_of_forall₂ haccounts.flip hr
    rw [hm.after_eq, h.countChunks_eq lib (hm.nullFree (nullFree_chunksOf ha.contributions
      hshape.1 m))]
  have hpieces : (rs.flatMap fun r => shownTexts r.chunks).length ≤ (shapeOf request).shown := by
    rw [List.length_flatMap, ← shown_shapeOf arena.validDefinition ha.contributions]
    refine List.Forall₂.sum_le_sum ?_
    rw [List.forall₂_map_left_iff, List.forall₂_map_right_iff]
    exact haccounts.flip.imp fun r m hr => hr.shown_le
  have hjoin := h.countText_join_le lib (rs.flatMap fun r => shownTexts r.chunks)
  have hsum : ((rs.flatMap fun r => shownTexts r.chunks).map fun x =>
      (a.counts.countText lib.exact x).val).sum = (rs.map Reclaimed.after).sum := by
    rw [List.flatMap_def, List.map_flatten, List.sum_flatten, List.map_map, List.map_map]
    exact congrArg List.sum (List.map_congr_left hused)
  have hseparators := scaled_mono h.one_le
    ((separatorTokens_mono (usesCharEstimator request.model.tokenizerId) hpieces).trans
      hshape.separators_le)
  rw [htokenizer, hsum] at hjoin
  rw [joinedText_eq, h.renderSeparatorTokens_val, htokenizer,
    modules_shapeOf arena.validDefinition ha.contributions]
  omega

/-- What the modules use fits what the request is given. -/
theorem Estimated.used_le (h : Estimated a.counts)
    (ha : Admitted lib.exact arena request none multiplier a)
    (hrs : List.Forall₂ (fun m r => (reclaimModule lib.exact a.counts a.contributions a.allocations
      (semanticResultsOf results) m).outcome = .ok r) (orderedModules arena.definition) rs) :
    (renderSeparatorTokens lib.exact a.counts a.contributions arena.definition).val +
        (rs.map Reclaimed.after).sum ≤
      a.inputBudget - arena.definition.frameworkReserveTokens := by
  have hallocated := ha.allocated_sum_le
  have hsum : (rs.map Reclaimed.after).sum ≤ ((orderedModules arena.definition).map fun m =>
      (allocationOf a.allocations m).allocatedTokens).sum := by
    refine List.Forall₂.sum_le_sum ?_
    rw [List.forall₂_map_left_iff, List.forall₂_map_right_iff]
    exact hrs.flip.imp fun r m hr => (h.accounts lib hr).after_le
  rw [ha.allocationInputBudget, Arith.sub_exact] at hallocated
  omega

/-- The calls of a shape that is accounted for succeed, and their prompts are covered. -/
theorem tokensCovered_of_accounted {s : ArenaState ℚ} (env : Env)
    (hmultiplier : 1 ≤ safetyMultiplier s request.model)
    (hshape : (shapeOf request).Accounted (usesCharEstimator request.model.tokenizerId)) :
    TokensCovered lib.exact arena env request results s := by
  intro a rs ha hrs
  have h : Estimated a.counts := by
    rw [ha.counts]
    exact ⟨rfl, hmultiplier⟩
  have hcovered := h.joinedText_covered ha hrs hshape
  have hused := h.used_le ha hrs
  have hquiet : a.counts.Quiet lib.exact := CountContext.quiet_of_raw fun text => by
    rw [CountContext.raw, h.no_counter]
    exact estimateText_nonneg lib _ text
  obtain ⟨plan, s', hplan, hrun⟩ := prepareWithResults_of_fits env ha hquiet hrs (by
    rw [Arith.sub_exact]
    omega)
  refine ⟨plan, s', hplan, hrun, ?_⟩
  rw [hrun.promptTokens, hrun.rendered, hrun.usedTokens]
  exact hcovered

end Covered

end ContextLease
