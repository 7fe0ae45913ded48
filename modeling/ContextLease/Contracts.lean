/-
The compression contracts.

A successful call keeps what its contributions protect: a required term that occurs in a chunk
occurs in the prompt, and the protected chunks come back as they were, in order and once each, in
the plan of their module and in the prompt.

Main definitions:

* `contributedChunks` — what a request contributes to a module;
* `asContributed` — the chunk a chunk of a plan was made from;
* `ModuleKept` — what the plan of a module keeps.

Main results:

* `requiredTerms_survive` — required terms survive;
* `protected_kept` — protected chunks are kept.
-/

import ContextLease.ReclaimSpec

set_option relaxedAutoImplicit false
set_option autoImplicit false

namespace ContextLease

open MachineNumbers RustText

variable {F : Type}

/-! ### Contributions -/

/-- What a request contributes to a module. -/
def contributedChunks (request : PrepareRequest F) (m : ModuleDefinition F) :
    List (PromptChunk F) :=
  match request.contributions.find? fun c => c.moduleId == m.moduleId with
  | some contribution => contribution.chunks
  | none => []

/-- The kernel works on what was contributed. -/
theorem chunksOf_eq {definition : ArenaDefinition F} {request : PrepareRequest F}
    {contributions : HashMap (ModuleContribution F)}
    (h : validateContributions definition request.contributions = .ok contributions)
    (m : ModuleDefinition F) : chunksOf contributions m = contributedChunks request m := by
  obtain ⟨-, hkeyed⟩ := validateContributions_ok h
  unfold chunksOf contributedChunks
  cases hfind : request.contributions.find? fun c => c.moduleId == m.moduleId with
  | some c =>
      have hid : c.moduleId = m.moduleId := by simpa using List.find?_some hfind
      rw [(hkeyed m.moduleId c).2 ⟨List.mem_of_find?_eq_some hfind, hid⟩]
  | none =>
      cases hc : contributions m.moduleId with
      | none => rfl
      | some c =>
          obtain ⟨hmem, hid⟩ := (hkeyed m.moduleId c).1 hc
          have hnot := List.find?_eq_none.1 hfind c hmem
          simp [hid] at hnot

/-- The chunks contributed to a module have distinct ids. -/
theorem contributedChunks_nodup {definition : ArenaDefinition F} {request : PrepareRequest F}
    {contributions : HashMap (ModuleContribution F)}
    (h : validateContributions definition request.contributions = .ok contributions)
    (m : ModuleDefinition F) :
    ((contributedChunks request m).map PromptChunk.chunkId).Nodup := by
  obtain ⟨hvalid, -⟩ := validateContributions_ok h
  unfold contributedChunks
  split
  · rename_i contribution hfind
    exact (hvalid contribution (List.mem_of_find?_eq_some hfind)).ids_nodup
  · exact List.nodup_nil

/-- A module that is pinned has nothing for its pipeline. -/
theorem protection_ne_pinned_of_elastic {m : ModuleDefinition F} {chunks : List (PromptChunk F)}
    (h : elasticChunks m chunks ≠ []) : m.protection ≠ "pinned" := by
  intro hpinned
  refine h (List.filter_eq_nil_iff.2 ?_)
  intro c _
  simp [isProtected, hpinned]

/-- The chunk a chunk of a plan was made from. -/
def asContributed (c : PreparedChunk F) : PromptChunk F where
  chunkId := c.chunkId
  content := c.content
  kind := c.kind
  fixed := c.fixed
  protection := c.protection
  priority := c.priority
  requiredTerms := c.requiredTerms
  dependencyGroup := c.dependencyGroup
  metadata := c.metadata

variable [FloatOps F]

/-! ### Required terms -/

section Calls

variable {P : Platform} {arena : ContextLeaseArena F} {request : PrepareRequest F}
  {results : List SemanticResult} {a : Admission F} {plan : PreparedContextPlan F}
  {rs : List (Reclaimed F)}

/-- Every module of the definition has been reclaimed. -/
theorem PreparedRun.exists_reclaimed (hrun : PreparedRun P arena request results a plan rs)
    {m : ModuleDefinition F} (hm : m ∈ arena.definition.modules) :
    ∃ r ∈ rs, (reclaimModule P a.counts a.contributions a.allocations
      (semanticResultsOf results) m).outcome = .ok r :=
  exists_of_forall₂ hrun.reclaimed (mem_orderedModules.2 hm)

/-- The text of a module occurs in the prompt. -/
theorem PreparedRun.occurs_rendered (hrun : PreparedRun P arena request results a plan rs)
    {r : Reclaimed F} (hr : r ∈ rs) {t : String} (h : Occurs t (renderModule r.chunks)) :
    Occurs t plan.rendered := by
  rw [hrun.rendered]
  exact occurs_intercalate_nonempty _ (List.mem_map.2 ⟨r, hr, rfl⟩) h

end Calls

/-- A required term that occurs in a contributed chunk occurs in the prompt, whatever the pipelines
and the host did. -/
theorem requiredTerms_survive {P : Platform} {arena : ContextLeaseArena F} {env : Env}
    {request : PrepareRequest F} (results : List SemanticResult) {counter : Option TokenCounter}
    {plan : PreparedContextPlan F} {s : ArenaState F}
    (h : (prepare P arena env request counter s).1 = .ok plan ∨
      (prepareCommit P arena env request results counter s).1 = .ok plan)
    {contribution : ModuleContribution F} (hcontribution : contribution ∈ request.contributions)
    {c : PromptChunk F} (hc : c ∈ contribution.chunks) {term : String}
    (hterm : term ∈ c.requiredTerms) (hoccurs : Occurs term (render c.content)) :
    Occurs term plan.rendered := by
  obtain ⟨results', a, rs, ha, hrun⟩ := successful_call h
  obtain ⟨hvalid, hkeyed⟩ := validateContributions_ok ha.contributions
  obtain ⟨m, hm, hid⟩ := List.mem_map.1 (hvalid contribution hcontribution).known
  have hchunks : c ∈ chunksOf a.contributions m := by
    rw [chunksOf, (hkeyed m.moduleId contribution).2 ⟨hcontribution, hid.symm⟩]
    exact hc
  obtain ⟨r, hr, hreclaim⟩ := hrun.exists_reclaimed hm
  exact hrun.occurs_rendered hr (reclaimModule_keeps hreclaim hchunks hterm hoccurs)

theorem requiredTerms_survive_example :
    ∃ plan, (prepare (Library.ascii id).release exampleArena default exampleRequest none {}).1 =
      .ok plan ∧ Occurs "Monday" plan.rendered := by
  obtain ⟨plan, hplan⟩ := exampleRequest_prepared
  exact ⟨plan, hplan, requiredTerms_survive [] (Or.inl hplan)
    (List.mem_cons_of_mem _ (List.mem_cons_self ..)) (List.mem_cons_self ..)
    (List.mem_cons_self ..) (by decide)⟩

/-! ### Protected chunks -/

/-- What the plan `p` of the module `m` keeps of its contribution, for a prompt `rendered`. -/
structure ModuleKept (P : Platform) (counts : CountContext F) (request : PrepareRequest F)
    (rendered : String) (m : ModuleDefinition F) (p : PreparedModulePlan F) : Prop where
  moduleId : p.moduleId = m.moduleId
  /-- The protected chunks come back unchanged, in order and once each. -/
  kept : (p.chunks.map asContributed).filter (isProtected m) =
    protectedChunks m (contributedChunks request m)
  distinct : ((protectedChunks m (contributedChunks request m)).map PromptChunk.chunkId).Nodup
  /-- A module within its allocation is not touched. -/
  whole : (counts.countChunks P (contributedChunks request m)).val ≤
      p.allocation.allocatedTokens →
    p.chunks.map asContributed = contributedChunks request m
  /-- A module beyond its allocation is reclaimed to its protected chunks and one chunk more. -/
  reclaimed : p.allocation.allocatedTokens <
      (counts.countChunks P (contributedChunks request m)).val →
    ∃ text, p.chunks.map asContributed = protectedChunks m (contributedChunks request m) ++
      [compressedChunk m (elasticChunks m (contributedChunks request m)) text]
  occurs : ∀ c ∈ protectedChunks m (contributedChunks request m),
    Occurs (render c.content) rendered

/-- The chunk that stands for the others is not protected, unless its module is pinned. -/
theorem isProtected_compressedChunk {m : ModuleDefinition F} (hpinned : m.protection ≠ "pinned")
    (elastic : List (PromptChunk F)) (text : String) :
    isProtected m (compressedChunk m elastic text) = false := by
  simp [isProtected, compressedChunk, hpinned]

/-- The protected chunks of a reclaimed module. -/
theorem filter_protected_reclaimed {m : ModuleDefinition F} {chunks : List (PromptChunk F)}
    (h : elasticChunks m chunks ≠ []) (text : String) :
    (protectedChunks m chunks ++ [compressedChunk m (elasticChunks m chunks) text]).filter
      (isProtected m) = protectedChunks m chunks := by
  have hnot := isProtected_compressedChunk (protection_ne_pinned_of_elastic h)
    (elasticChunks m chunks) text
  rw [List.filter_append, List.filter_cons_of_neg (by rw [hnot]; exact Bool.false_ne_true),
    List.filter_nil, List.append_nil, protectedChunks, List.filter_filter]
  simp only [Bool.and_self]

/-- The plan of one module. -/
theorem moduleKept_of_reclaimed {P : Platform} {definition : ArenaDefinition F}
    {request : PrepareRequest F} {counts : CountContext F}
    {contributions : HashMap (ModuleContribution F)} {allocations : List ModuleAllocation}
    {semanticResults : HashMap String} {rendered : String} {m : ModuleDefinition F}
    {r : Reclaimed F} {p : PreparedModulePlan F}
    (hvalid : validateContributions definition request.contributions = .ok contributions)
    (hr : (reclaimModule P counts contributions allocations semanticResults m).outcome = .ok r)
    (hrendered : ∀ t, Occurs t (renderModule r.chunks) → Occurs t rendered)
    (hid : p.moduleId = m.moduleId) (hallocation : p.allocation = allocationOf allocations m)
    (hchunks : p.chunks = r.chunks.map fun c => (preparedChunk P counts m c).val) :
    ModuleKept P counts request rendered m p := by
  have hback : p.chunks.map asContributed = r.chunks := by
    rw [hchunks, List.map_map]
    exact List.map_id _
  obtain ⟨hbefore, hcases⟩ := reclaimModule_ok hr
  rw [chunksOf_eq hvalid m] at hbefore hcases
  have hdistinct : ((protectedChunks m (contributedChunks request m)).map
      PromptChunk.chunkId).Nodup :=
    List.Nodup.sublist (List.filter_sublist.map _) (contributedChunks_nodup hvalid m)
  rw [← hallocation] at hcases
  rcases hcases with ⟨hfits, hwhole, -⟩ | ⟨hover, hcompress⟩
  · -- the module is within its allocation
    rw [hwhole] at hback hrendered
    refine ⟨hid, by rw [hback]; rfl, hdistinct, fun _ => hback, ?_, ?_⟩
    · intro hover
      omega
    · intro c hc
      exact hrendered _ (occurs_renderModule (List.mem_filter.1 hc).1 (Occurs.refl _))
  · -- the module was reclaimed, so it had elastic chunks
    obtain ⟨helastic, text, -, -, hreclaimed, -⟩ := compressModule_ok hcompress
    rw [hreclaimed] at hback hrendered
    refine ⟨hid, by rw [hback, filter_protected_reclaimed helastic], hdistinct, ?_,
      fun _ => ⟨text, hback⟩, ?_⟩
    · intro hfits
      omega
    · intro c hc
      exact hrendered _ (occurs_renderModule (List.mem_append_left _ hc) (Occurs.refl _))

/-- In a successful call the plan of every module keeps its protected chunks. -/
theorem protected_kept {P : Platform} {arena : ContextLeaseArena F} {env : Env}
    {request : PrepareRequest F} (results : List SemanticResult) {counter : Option TokenCounter}
    {plan : PreparedContextPlan F} {s : ArenaState F}
    (h : (prepare P arena env request counter s).1 = .ok plan ∨
      (prepareCommit P arena env request results counter s).1 = .ok plan) :
    List.Forall₂ (ModuleKept P
      ⟨request.model.tokenizerId, counter, safetyMultiplier s request.model⟩ request plan.rendered)
      (orderedModules arena.definition) plan.modulePlans := by
  obtain ⟨results', a, rs, ha, hrun⟩ := successful_call h
  have hreclaimed := hrun.reclaimed
  have hplans := hrun.modulePlans
  have hrendered : ∀ r ∈ rs, ∀ t, Occurs t (renderModule r.chunks) → Occurs t plan.rendered :=
    fun r hr t => hrun.occurs_rendered hr
  rw [← ha.counts]
  generalize orderedModules arena.definition = ms at hreclaimed hplans
  generalize plan.modulePlans = plans at hplans
  clear hrun
  -- along the modules, with their reclaims and their plans
  induction hreclaimed generalizing plans with
  | nil =>
      cases hplans
      exact .nil
  | cons hr _ ih =>
      rw [List.zip_cons_cons] at hplans
      cases hplans with
      | cons hp hplans =>
          obtain ⟨hid, hallocation, hchunks⟩ := hp
          refine .cons ?_ (ih (fun r hr => hrendered r (List.mem_cons_of_mem _ hr)) _ hplans)
          exact moduleKept_of_reclaimed ha.contributions hr
            (hrendered _ (List.mem_cons_self ..)) hid hallocation hchunks

theorem protected_kept_example :
    ∃ plan, (prepare (Library.ascii id).release exampleArena default exampleRequest none {}).1 =
        .ok plan ∧
      List.Forall₂ (ModuleKept (Library.ascii id).release
        ⟨"regex-estimator-v1", none, FloatOps.ofRat 1⟩ exampleRequest plan.rendered)
        (orderedModules exampleArena.definition) plan.modulePlans := by
  obtain ⟨plan, hplan⟩ := exampleRequest_prepared
  exact ⟨plan, hplan, protected_kept [] (Or.inl hplan)⟩

end ContextLease
