/-
Where the chunks of a plan come from.

A plan says of each chunk whether the call has compressed it, and from which contributed chunks it
was made.  The kernel infers both afterwards: the first from the id of the chunk, the second from
its metadata.  A host may choose that id and that metadata itself, as it does when it contributes a
chunk of an earlier plan again, and then the plan repeats them.

Main definitions:

* `keptChunks`, `claimedSources` — what a module keeps of its contribution, and the sources that a
  chunk claims to have;
* `ProvenanceKept`, `PlainlyNamed` — what is asked of the plan of a module, and the condition for
  it.

Main results:

* `sources_perm_iff` — the sources of kept chunks are their ids exactly when the claimed ones are;
* `provenanceKept_iff` — the provenance of one module;
* `provenance_iff` — a plan tells the provenance of its chunks exactly when the chunks it keeps are
  plainly named.
-/

import ContextLease.PlanSpec
import ContextLease.TokenAccounting

set_option relaxedAutoImplicit false
set_option autoImplicit false

namespace ContextLease

open MachineNumbers RustText

variable {F : Type}

/-! ### Sources -/

/-- The sources that a chunk claims in its metadata. -/
def claimedSources (c : PromptChunk F) : Option (List String) :=
  ((c.metadata.get "source_chunk_ids").bind Value.asArray).map (List.filterMap Value.asStr)

/-- The sources that a plan gives for a chunk. -/
def sourcesOf (c : PromptChunk F) : List String := (claimedSources c).getD [c.chunkId]

/-- A chunk that claims to have sources. -/
def ClaimsSources (c : PromptChunk F) : Bool := (claimedSources c).isSome

/-- A chunk that claims nothing is its own source. -/
theorem flatMap_sourcesOf {chunks : List (PromptChunk F)}
    (h : ∀ c ∈ chunks, ClaimsSources c = false) :
    chunks.flatMap sourcesOf = chunks.map PromptChunk.chunkId := by
  rw [List.map_eq_flatMap]
  refine List.flatMap_congr ?_
  intro c hc
  have hnone : claimedSources c = none := by simpa [ClaimsSources] using h c hc
  rw [sourcesOf, hnone, Option.getD_none]

/-- The sources of chunks are their ids exactly when the claimed ones are. -/
theorem sources_perm_iff (chunks : List (PromptChunk F)) :
    (chunks.flatMap sourcesOf).Perm (chunks.map PromptChunk.chunkId) ↔
      ((chunks.filter ClaimsSources).flatMap sourcesOf).Perm
        ((chunks.filter ClaimsSources).map PromptChunk.chunkId) := by
  have hsplit : (chunks.filter ClaimsSources ++
      chunks.filter fun c => !ClaimsSources c).Perm chunks :=
    List.filter_append_perm _ _
  have hsources := hsplit.flatMap_right sourcesOf
  have hids := hsplit.map PromptChunk.chunkId
  have hplain : (chunks.filter fun c => !ClaimsSources c).flatMap sourcesOf =
      (chunks.filter fun c => !ClaimsSources c).map PromptChunk.chunkId :=
    flatMap_sourcesOf fun c hc => by simpa using (List.mem_filter.1 hc).2
  rw [List.flatMap_append, hplain] at hsources
  rw [List.map_append] at hids
  refine Iff.trans ?_ (List.perm_append_right_iff
    ((chunks.filter fun c => !ClaimsSources c).map PromptChunk.chunkId))
  exact ⟨fun h => hsources.trans (h.trans hids.symm), fun h => hsources.symm.trans (h.trans hids)⟩

variable [FloatOps F]

/-- The chunk of a reclaim claims the chunks that were handed to the pipeline. -/
theorem sourcesOf_compressedChunk (m : ModuleDefinition F) (elastic : List (PromptChunk F))
    (text : String) :
    sourcesOf (compressedChunk m elastic text) = elastic.map PromptChunk.chunkId := by
  have hget : (compressedChunk m elastic text).metadata.get "source_chunk_ids" =
      some (.array (elastic.map fun c => .string c.chunkId)) := by
    rw [compressedChunk, BTreeMap.ofList, List.foldl_cons, List.foldl_cons, List.foldl_nil,
      BTreeMap.get_insert_of_ne _ _ (show "source_chunk_ids" ≠ "compression_pipeline" by decide),
      BTreeMap.get_insert_self]
  have hstrings : (elastic.map fun c => Value.string c.chunkId).filterMap Value.asStr =
      elastic.map PromptChunk.chunkId := by
    rw [List.filterMap_map]
    exact List.filterMap_eq_map ▸ rfl
  rw [sourcesOf, claimedSources, hget, Option.bind_some, Value.asArray, Option.map_some,
    Option.getD_some, hstrings]

/-! ### One module -/

section Module

variable (P : Platform) (admission : Admission F) (request : PrepareRequest F)
  (m : ModuleDefinition F)

/-- The chunks of a module that its plan returns as they were contributed: all of them if they are
within the allocation, and otherwise the protected ones. -/
def keptChunks : List (PromptChunk F) :=
  let chunks := chunksOf admission.contributions m
  if (admission.counts.countChunks P chunks).val ≤
      (allocationOf admission.allocations m).allocatedTokens then chunks
  else protectedChunks m chunks

omit [FloatOps F] in
/-- The plan of a module tells where its chunks come from: their ids are distinct, the last chunk of
a module that exceeded its allocation is compressed and no other, and the sources are what was
contributed to the module, each once. -/
structure ProvenanceKept (p : PreparedModulePlan F) : Prop where
  moduleId : p.moduleId = m.moduleId
  distinct : (p.chunks.map PreparedChunk.chunkId).Nodup
  compressed : p.chunks.map PreparedChunk.compressed =
    if p.allocation.allocatedTokens < p.usage.compressedFromTokens then
      List.replicate (p.chunks.length - 1) false ++ [true]
    else List.replicate p.chunks.length false
  sources : (p.chunks.flatMap PreparedChunk.sourceChunkIds).Perm
    ((contributedChunks request m).map PromptChunk.chunkId)

omit [FloatOps F] in
/-- No chunk has the id of a compressed chunk, and those that claim sources claim, together, their
own ids. -/
structure PlainlyNamed (chunks : List (PromptChunk F)) : Prop where
  names : ∀ c ∈ chunks, c.chunkId ≠ m.moduleId ++ ":compressed"
  sources : ((chunks.filter ClaimsSources).flatMap sourcesOf).Perm
    ((chunks.filter ClaimsSources).map PromptChunk.chunkId)

variable {P admission request m}

/-- The chunks of a plan, by the chunks they were made from. -/
theorem settledPlan_chunks (env : Env) (previousUsage : HashMap ℤ) (x : SettledModule F) :
    (settledPlan P env admission previousUsage x).chunks.map PreparedChunk.chunkId =
        x.chunks.map PromptChunk.chunkId ∧
      (settledPlan P env admission previousUsage x).chunks.flatMap PreparedChunk.sourceChunkIds =
        x.chunks.flatMap sourcesOf ∧
      (settledPlan P env admission previousUsage x).chunks.map PreparedChunk.compressed =
        x.chunks.map fun c => c.chunkId == x.module.moduleId ++ ":compressed" := by
  refine ⟨?_, ?_, ?_⟩
  · rw [settledPlan, List.map_map]
    rfl
  · rw [settledPlan, List.flatMap_map]
    refine List.flatMap_congr ?_
    intro c _
    rw [preparedChunk, sourcesOf, claimedSources]
    simp only [Flagged.val_bind, Flagged.val_pure]
    cases (c.metadata.get "source_chunk_ids").bind Value.asArray <;> rfl
  · rw [settledPlan, List.map_map]
    rfl

omit [FloatOps F] in
/-- Which ids are those of compressed chunks. -/
theorem flags_eq_replicate (name : String) (chunks : List (PromptChunk F)) :
    (chunks.map fun c => c.chunkId == name) = List.replicate chunks.length false ↔
      ∀ c ∈ chunks, c.chunkId ≠ name := by
  rw [List.map_eq_replicate_iff]
  exact forall₂_congr fun c _ => beq_eq_false_iff_ne

/-- The provenance of one module. -/
theorem provenanceKept_iff {definition : ArenaDefinition F} {env : Env}
    {previousUsage : HashMap ℤ} {semanticResults : HashMap String} {x : SettledModule F}
    (hcontributions : validateContributions definition request.contributions =
      .ok admission.contributions) (hx : SettledFrom P admission semanticResults m x) :
    ProvenanceKept request m (settledPlan P env admission previousUsage x) ↔
      PlainlyNamed m (keptChunks P admission m) := by
  obtain ⟨hids, hsources, hflags⟩ :=
    @settledPlan_chunks F _ P admission env previousUsage x
  have hlength : (settledPlan P env admission previousUsage x).chunks.length = x.chunks.length := by
    rw [settledPlan, List.length_map]
  have hdistinct := contributedChunks_nodup hcontributions m
  have hcontributed := chunksOf_eq hcontributions m
  obtain ⟨hbefore, hcases⟩ := reclaimModule_ok hx.reclaimed
  simp only at hbefore hcases
  have hfrom : (settledPlan P env admission previousUsage x).usage.compressedFromTokens =
      x.tokens.before := rfl
  have hallocation : (settledPlan P env admission previousUsage x).allocation.allocatedTokens =
      (allocationOf admission.allocations m).allocatedTokens := by
    rw [settledPlan, hx.module]
  have hname : (settledPlan P env admission previousUsage x).moduleId = m.moduleId := by
    rw [settledPlan, hx.module]
  rw [← hcontributed] at hdistinct
  rcases hcases with ⟨hfits, hchunks, -⟩ | ⟨hover, hcompress⟩
  · -- within its allocation the module keeps all its chunks
    have hkept : keptChunks P admission m = chunksOf admission.contributions m :=
      if_pos (hbefore ▸ hfits)
    have hnames := flags_eq_replicate (m.moduleId ++ ":compressed")
      (chunksOf admission.contributions m)
    have hplain := sources_perm_iff (chunksOf admission.contributions m)
    rw [hchunks] at hids hsources hflags hlength
    rw [hx.module] at hflags
    rw [hkept]
    constructor
    · intro h
      have hclean := h.compressed
      have hall := h.sources
      rw [hflags, hlength, hfrom, hallocation, if_neg (not_lt.2 hfits)] at hclean
      rw [hsources, ← hcontributed] at hall
      exact ⟨hnames.1 hclean, hplain.1 hall⟩
    · intro h
      refine ⟨hname, hids ▸ hdistinct, ?_, ?_⟩
      · rw [hflags, hlength, hfrom, hallocation, if_neg (not_lt.2 hfits)]
        exact hnames.2 h.names
      · rw [hsources, ← hcontributed]
        exact hplain.2 h.sources
  · -- a reclaimed module keeps its protected chunks, and one chunk stands for the others
    obtain ⟨-, text, -, -, hchunks, -⟩ := compressModule_ok hcompress
    have hkept : keptChunks P admission m =
        protectedChunks m (chunksOf admission.contributions m) :=
      if_neg (not_le.2 (hbefore ▸ hover))
    have hnames := flags_eq_replicate (m.moduleId ++ ":compressed")
      (protectedChunks m (chunksOf admission.contributions m))
    have hplain := sources_perm_iff (protectedChunks m (chunksOf admission.contributions m))
    have hparts := (protected_elastic_perm m (chunksOf admission.contributions m)).map
      PromptChunk.chunkId
    have hprotected := hparts.nodup_iff.2 hdistinct
    rw [List.map_append] at hparts hprotected
    rw [hchunks] at hids hsources hflags hlength
    rw [List.map_append, List.map_singleton] at hids
    rw [List.flatMap_append, List.flatMap_singleton, sourcesOf_compressedChunk] at hsources
    rw [hx.module, List.map_append, List.map_singleton] at hflags
    rw [List.length_append, List.length_singleton] at hlength
    have hlast : ((compressedChunk m (elasticChunks m (chunksOf admission.contributions m))
        text).chunkId == m.moduleId ++ ":compressed") = true := beq_self_eq_true _
    rw [hlast] at hflags
    rw [hkept]
    constructor
    · intro h
      have hclean := h.compressed
      have hall := h.sources
      rw [hflags, hlength, hfrom, hallocation, if_pos hover, Nat.add_sub_cancel,
        List.append_cancel_right_eq] at hclean
      rw [hsources, ← hcontributed] at hall
      exact ⟨hnames.1 hclean,
        hplain.1 ((List.perm_append_right_iff _).1 (hall.trans hparts.symm))⟩
    · intro h
      refine ⟨hname, ?_, ?_, ?_⟩
      · rw [hids, List.nodup_append]
        refine ⟨(List.nodup_append.1 hprotected).1, List.nodup_singleton _, ?_⟩
        rintro id hid _ hlast' rfl
        obtain ⟨c, hc, rfl⟩ := List.mem_map.1 hid
        exact h.names c hc (List.mem_singleton.1 hlast')
      · rw [hflags, hlength, hfrom, hallocation, if_pos hover, Nat.add_sub_cancel,
          List.append_cancel_right_eq]
        exact hnames.2 h.names
      · rw [hsources, ← hcontributed]
        exact ((List.perm_append_right_iff _).2 (hplain.2 h.sources)).trans hparts

end Module

/-! ### Calls -/

/-- In every successful call, all module plans tell the provenance of their chunks exactly when, in
every module, the contributed chunks that the plan keeps are plainly named: none of them is called
like the compressed chunk of the module, and those that claim sources in their metadata claim,
together, their own ids. -/
theorem provenance_iff {P : Platform} {arena : ContextLeaseArena F} {env : Env}
    {request : PrepareRequest F} (results : List SemanticResult) {counter : Option TokenCounter}
    {plan : PreparedContextPlan F} {s : ArenaState F}
    (h : (prepare P arena env request counter s).1 = .ok plan ∨
      (prepareCommit P arena env request results counter s).1 = .ok plan) {admission : Admission F}
    (hadmitted : Admitted P arena request counter (safetyMultiplier s request.model) admission) :
    List.Forall₂ (ProvenanceKept request) (orderedModules arena.definition) plan.modulePlans ↔
      ∀ m ∈ arena.definition.modules, PlainlyNamed m (keptChunks P admission m) := by
  obtain ⟨results', admission', xs, hadmitted', hplanned⟩ := successful_plan h
  obtain rfl := hadmitted.unique hadmitted'
  exact forall₂_settled_iff hplanned fun m _ x hx =>
    provenanceKept_iff hadmitted.contributions hx

/-- No chunk of the example claims other sources. -/
theorem provenance_iff_example :
    ∃ plan, (prepare (Library.ascii id).release exampleArena default exampleRequest none {}).1 =
        .ok plan ∧
      List.Forall₂ (ProvenanceKept exampleRequest) (orderedModules exampleArena.definition)
        plan.modulePlans := by
  obtain ⟨plan, hplan⟩ := exampleRequest_prepared
  have hadmits : ((admitRequest (Library.ascii id).release exampleArena exampleRequest none
      (safetyMultiplier {} exampleRequest.model)).outcome.map fun admission =>
        decide (∀ m ∈ exampleArena.definition.modules,
          (∀ c ∈ keptChunks (Library.ascii id).release admission m,
            c.chunkId ≠ m.moduleId ++ ":compressed") ∧
          ((keptChunks (Library.ascii id).release admission m).filter
            ClaimsSources).isEmpty = true)).toOption = some true := by
    decide +kernel
  obtain ⟨admission, hadmitted, hnamed⟩ := exists_ok_of_map hadmits
  refine ⟨plan, hplan, (provenance_iff [] (Or.inl hplan) (admit_ok.1 hadmitted)).2 ?_⟩
  intro m hm
  obtain ⟨hnames, hsources⟩ := of_decide_eq_true hnamed m hm
  refine ⟨hnames, ?_⟩
  rw [List.isEmpty_iff.1 hsources]
  rfl

/-! ### The chunks of an earlier plan -/

/-- The request that contributes the chunks of a plan again. -/
def fedBack (plan : PreparedContextPlan ℚ) : PrepareRequest ℚ :=
  { exampleRequest with
    contributions := plan.modulePlans.map fun p =>
      { moduleId := p.moduleId, chunks := p.chunks.map asContributed } }

/-- The request of a second turn, with the plan for it. -/
def secondTurn : Result (PrepareRequest ℚ × PreparedContextPlan ℚ) :=
  match prepare (Library.ascii id).release exampleArena default exampleRequest none {} with
  | (.ok plan, s) =>
      (prepare (Library.ascii id).release exampleArena default (fedBack plan) none s).1.map fun p =>
        (fedBack plan, p)
  | (.error e, _) => .error e

/-- The second plan says that the history is compressed, out of the talk, but this turn has
contributed no talk, and has compressed nothing. -/
theorem fed_back_claims_talk :
    ∃ request s plan, (prepare (Library.ascii id).release exampleArena default request none s).1 =
        .ok plan ∧
      ¬ List.Forall₂ (ProvenanceKept request) (orderedModules exampleArena.definition)
        plan.modulePlans := by
  have hturn : secondTurn.toOption.map (fun turn =>
      (turn.2.modulePlans.map fun p => p.chunks.flatMap PreparedChunk.sourceChunkIds,
        (orderedModules exampleArena.definition).map fun m =>
          (contributedChunks turn.1 m).map PromptChunk.chunkId)) =
      some ([["rules"], ["talk"]], [["rules"], ["history:compressed"]]) := by decide +kernel
  rw [secondTurn] at hturn
  split at hturn
  · rename_i first s hfirst
    cases hsecond : (prepare (Library.ascii id).release exampleArena default (fedBack first) none
        s).1 with
    | error e =>
        rw [hsecond] at hturn
        cases hturn
    | ok plan =>
        rw [hsecond] at hturn
        obtain ⟨hsources, hids⟩ := Prod.mk.inj (Option.some_inj.1 hturn)
        refine ⟨fedBack first, s, plan, hsecond, ?_⟩
        intro hkept
        have hperm : List.Forall₂ (fun ids sources : List String => sources.Perm ids)
            ((orderedModules exampleArena.definition).map fun m =>
              (contributedChunks (fedBack first) m).map PromptChunk.chunkId)
            (plan.modulePlans.map fun p => p.chunks.flatMap PreparedChunk.sourceChunkIds) := by
          rw [List.forall₂_map_left_iff, List.forall₂_map_right_iff]
          exact hkept.imp fun m p hp => hp.sources
        simp only at hsources hids
        rw [hsources, hids] at hperm
        cases hperm with
        | cons _ hrest =>
            cases hrest with
            | cons htalk _ =>
                have hmem := htalk.mem_iff.1 (List.mem_singleton.2 rfl)
                exact absurd (List.mem_singleton.1 hmem) (by decide)
  · cases hturn

end ContextLease
