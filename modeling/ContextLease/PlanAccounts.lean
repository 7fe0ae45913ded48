/-
The accounts of a module plan.

The kernel counts a module before its reclaim, adds up what the reclaim has left, and splits the sum
once by the fixed and once by the pinned chunks; the chunks of the plan are counted again.  All of
these are sums over parts of one list of chunks.  They agree as long as no sum leaves the range of
an integer.  What the usage calls retained is the pinned part, though, and the pipeline spares the
fixed chunks as well.

Main definitions:

* `tally` — what chunks count together, over unbounded integers;
* `RetainedReported`, `RetainsPinned` — the retained tokens of a module, and the condition for them.

Main results:

* `SettledFrom.after_eq` — a module uses what its chunks count together, up to a wrap;
* `SettledFrom.protected_eq` — what its reclaim has spared;
* `retained_reported_iff` — the usage reports what a reclaim may touch exactly when fixed chunks
  that are not pinned count nothing and no part of the sum wraps.
-/

import ContextLease.Provenance
import ContextLease.Interleaving

set_option relaxedAutoImplicit false
set_option autoImplicit false

namespace ContextLease

open MachineNumbers RustText

variable {F : Type} [FloatOps F]

/-! ### What chunks count together -/

section Tally

variable (P : Platform) (counts : CountContext F)

/-- What chunks count together, over unbounded integers. -/
def tally (chunks : List (PromptChunk F)) : ℤ :=
  (chunks.map fun c => (counts.countContent P c.content).val).sum

theorem countChunks_eq_norm (chunks : List (PromptChunk F)) :
    (counts.countChunks P chunks).val = P.arith.norm (tally P counts chunks) := by
  rw [CountContext.val_countChunks, Arith.sum_eq_norm, tally]

@[simp] theorem tally_append (chunks chunks' : List (PromptChunk F)) :
    tally P counts (chunks ++ chunks') = tally P counts chunks + tally P counts chunks' := by
  rw [tally, List.map_append, List.sum_append]
  rfl

theorem tally_perm {chunks chunks' : List (PromptChunk F)} (h : chunks.Perm chunks') :
    tally P counts chunks = tally P counts chunks' := (h.map _).sum_eq

/-- A test splits what chunks count together. -/
theorem tally_filter_add (test : PromptChunk F → Bool) (chunks : List (PromptChunk F)) :
    tally P counts (chunks.filter test) + tally P counts (chunks.filter fun c => !test c) =
      tally P counts chunks := by
  rw [← tally_append]
  exact tally_perm P counts (List.filter_append_perm test chunks)

variable {P counts} (hscale : counts.Scales)
include hscale

theorem tally_nonneg (chunks : List (PromptChunk F)) : 0 ≤ tally P counts chunks := by
  refine List.sum_nonneg ?_
  intro n hn
  obtain ⟨c, -, rfl⟩ := List.mem_map.1 hn
  exact counts.countContent_nonneg P hscale c.content

theorem tally_filter_le (test : PromptChunk F → Bool) (chunks : List (PromptChunk F)) :
    tally P counts (chunks.filter test) ≤ tally P counts chunks := by
  have hsplit := tally_filter_add P counts test chunks
  have hrest := @tally_nonneg F _ P counts hscale (chunks.filter fun c => !test c)
  omega

/-- Chunks count nothing together exactly when each counts nothing. -/
theorem tally_eq_zero_iff (chunks : List (PromptChunk F)) :
    tally P counts chunks = 0 ↔ ∀ c ∈ chunks, (counts.countContent P c.content).val = 0 := by
  induction chunks with
  | nil => simp [tally]
  | cons c chunks ih =>
      have hcons : tally P counts (c :: chunks) =
          (counts.countContent P c.content).val + tally P counts chunks := List.sum_cons
      have hhead := counts.countContent_nonneg P hscale c.content
      have hrest := @tally_nonneg F _ P counts hscale chunks
      rw [hcons, List.forall_mem_cons, ← ih]
      omega

end Tally

/-! ### Settled modules -/

section Settled

variable {P : Platform} {admission : Admission F} {semanticResults : HashMap String}
  {m : ModuleDefinition F} {x : SettledModule F}

/-- How a module was settled: it keeps all its chunks, or its protected chunks and the text of its
pipeline. -/
theorem SettledFrom.chunks_cases (h : SettledFrom P admission semanticResults m x) :
    (x.tokens.before ≤ (allocationOf admission.allocations m).allocatedTokens ∧
        x.chunks = chunksOf admission.contributions m ∧ x.tokens.after = x.tokens.before) ∨
      (allocationOf admission.allocations m).allocatedTokens < x.tokens.before ∧
        ∃ text, x.chunks = protectedChunks m (chunksOf admission.contributions m) ++
            [compressedChunk m (elasticChunks m (chunksOf admission.contributions m)) text] ∧
          elasticChunks m (chunksOf admission.contributions m) ≠ [] ∧
          (admission.counts.countChunks P
              (protectedChunks m (chunksOf admission.contributions m))).val ≤
            (allocationOf admission.allocations m).allocatedTokens ∧
          (admission.counts.countText P text).val ≤ P.arith.sub
            (allocationOf admission.allocations m).allocatedTokens (admission.counts.countChunks P
              (protectedChunks m (chunksOf admission.contributions m))).val ∧
          x.tokens.after = P.arith.add (admission.counts.countChunks P
              (protectedChunks m (chunksOf admission.contributions m))).val
            (admission.counts.countText P text).val := by
  obtain ⟨-, hcases⟩ := reclaimModule_ok h.reclaimed
  rcases hcases with ⟨hfits, hchunks, hafter⟩ | ⟨hover, hcompress⟩
  · exact Or.inl ⟨hfits, hchunks, hafter⟩
  · have hspares : ¬ (admission.counts.countChunks P (protectedChunks m
        (chunksOf admission.contributions m))).val >
          (allocationOf admission.allocations m).allocatedTokens := by
      intro hexceeds
      rw [compressModule_outcome, if_pos hexceeds] at hcompress
      cases hcompress
    obtain ⟨helastic, text, -, htarget, hchunks, hafter⟩ := compressModule_ok hcompress
    exact Or.inr ⟨hover, text, hchunks, helastic, not_lt.1 hspares, htarget, hafter⟩

theorem SettledFrom.before_eq (h : SettledFrom P admission semanticResults m x) :
    x.tokens.before =
      (admission.counts.countChunks P (chunksOf admission.contributions m)).val :=
  (reclaimModule_ok h.reclaimed).1

omit [FloatOps F] in
theorem tally_compressedChunk [FloatOps F] (counts : CountContext F)
    (elastic : List (PromptChunk F)) (text : String) :
    tally P counts [compressedChunk m elastic text] = (counts.countText P text).val := by
  rw [tally, List.map_singleton, List.sum_singleton]
  rfl

/-- A module uses what its chunks count together, up to a wrap. -/
theorem SettledFrom.after_eq (h : SettledFrom P admission semanticResults m x) :
    x.tokens.after = P.arith.norm (tally P admission.counts x.chunks) := by
  rcases h.chunks_cases with ⟨-, hchunks, hafter⟩ | ⟨-, text, hchunks, -, -, -, hafter⟩
  · rw [hafter, h.before_eq, hchunks, countChunks_eq_norm]
  · rw [hafter, hchunks, tally_append, tally_compressedChunk, countChunks_eq_norm, Arith.add,
      Arith.norm_add_norm]

/-- What the reclaim of a module has spared. -/
theorem SettledFrom.protected_eq (h : SettledFrom P admission semanticResults m x) :
    x.chunks.filter (isProtected m) = protectedChunks m (chunksOf admission.contributions m) := by
  rcases h.chunks_cases with ⟨-, hchunks, -⟩ | ⟨-, text, hchunks, helastic, -⟩
  · rw [hchunks, protectedChunks]
  · rw [hchunks, filter_protected_reclaimed helastic]

/-- The chunks of a plan, counted again. -/
theorem sum_tokenCount (env : Env) (previousUsage : HashMap ℤ) (x : SettledModule F)
    (test : PromptChunk F → Bool) :
    (((settledPlan P env admission previousUsage x).chunks.filter fun c =>
        test (asContributed c)).map PreparedChunk.tokenCount).sum =
      tally P admission.counts (x.chunks.filter test) := by
  rw [settledPlan, List.filter_map, List.map_map, tally]
  rfl

end Settled

/-! ### Sums that wrap -/

namespace Accounts

variable (ar : Arith)

/-- A difference of wrapped numbers wraps once. -/
theorem sub_norm_norm (x y : ℤ) : ar.sub (ar.norm x) (ar.norm y) = ar.norm (x - y) := by
  cases ar with
  | exact => rfl
  | release =>
      simp only [Arith.sub, Arith.norm]
      rw [Int.bmod_sub_bmod, Int.sub_bmod_bmod]

/-- A natural number survives a wrap exactly when it is in range. -/
theorem norm_eq_self_iff (x : ℤ) : ar.norm x = x ↔ ar.Fits x :=
  ⟨fun h => h ▸ ar.fits_norm x, Arith.norm_of_fits⟩

theorem max_norm_eq_self_iff {x : ℤ} (hx : 0 ≤ x) : max (ar.norm x) 0 = x ↔ ar.Fits x := by
  constructor
  · intro h
    rcases le_total 0 (ar.norm x) with hnorm | hnorm
    · rw [max_eq_left hnorm] at h
      exact (norm_eq_self_iff ar x).1 h
    · rw [max_eq_right hnorm] at h
      rw [← h]
      exact ar.fits_zero
  · intro h
    rw [Arith.norm_of_fits h, max_eq_left hx]

end Accounts

/-! ### What is retained -/

section Retained

variable (P : Platform) (admission : Admission F) (m : ModuleDefinition F)

omit [FloatOps F] in
/-- The usage of a module reports what a reclaim may touch: the retained tokens are those of the
chunks that it spares, and the reclaimable ones those of the others. -/
structure RetainedReported (p : PreparedModulePlan F) : Prop where
  moduleId : p.moduleId = m.moduleId
  retained : p.usage.minimumRetainedTokens =
    ((p.chunks.filter fun c => isProtected m (asContributed c)).map PreparedChunk.tokenCount).sum
  reclaimable : p.usage.reclaimableTokens =
    ((p.chunks.filter fun c => !isProtected m (asContributed c)).map PreparedChunk.tokenCount).sum

/-- The fixed chunks of a module that are not pinned count nothing, and neither the protected chunks
nor the others that it keeps count more than an integer holds. -/
structure RetainsPinned : Prop where
  fixed : ∀ c ∈ chunksOf admission.contributions m, c.fixed = true → countsAsPinned m c = false →
    (admission.counts.countContent P c.content).val = 0
  spared : P.arith.Fits (tally P admission.counts
    (protectedChunks m (chunksOf admission.contributions m)))
  others : (admission.counts.countChunks P (chunksOf admission.contributions m)).val ≤
      (allocationOf admission.allocations m).allocatedTokens →
    P.arith.Fits (tally P admission.counts (elasticChunks m (chunksOf admission.contributions m)))

variable {P admission m}

omit [FloatOps F] in
theorem isProtected_eq (c : PromptChunk F) :
    isProtected m c = (c.fixed || countsAsPinned m c) := Bool.or_assoc ..

omit [FloatOps F] in
/-- The pinned chunks are among the protected ones. -/
theorem filter_countsAsPinned (chunks : List (PromptChunk F)) :
    chunks.filter (countsAsPinned m) =
      (chunks.filter (isProtected m)).filter (countsAsPinned m) := by
  rw [List.filter_filter]
  refine List.filter_congr ?_
  intro c _
  rw [isProtected_eq, Bool.and_or_distrib_left, Bool.and_self, Bool.or_eq_right_iff_imp.2]
  exact fun h => (Bool.and_eq_true_iff.1 h).1

/-- What the other chunks of a settled module count. -/
theorem SettledFrom.fits_others {semanticResults : HashMap String} {x : SettledModule F}
    (hscale : admission.counts.Scales) (h : SettledFrom P admission semanticResults m x) :
    P.arith.Fits (tally P admission.counts (x.chunks.filter fun c => !isProtected m c)) ↔
      ((admission.counts.countChunks P (chunksOf admission.contributions m)).val ≤
          (allocationOf admission.allocations m).allocatedTokens →
        P.arith.Fits (tally P admission.counts
          (elasticChunks m (chunksOf admission.contributions m)))) := by
  rw [← h.before_eq]
  rcases h.chunks_cases with ⟨hfits, hchunks, -⟩ | ⟨hover, text, hchunks, helastic, -, htarget, -⟩
  · rw [hchunks, imp_iff_right hfits, elasticChunks]
  · -- what stands for the others is within the target, which is an integer
    refine iff_of_true ?_ fun hfits => absurd hfits (not_le.2 hover)
    have hspared : ∀ c ∈ protectedChunks m (chunksOf admission.contributions m),
        ¬ (!isProtected m c) = true := by
      intro c hc
      rw [(List.mem_filter.1 hc).2]
      exact Bool.false_ne_true
    have hother := isProtected_compressedChunk (protection_ne_pinned_of_elastic helastic)
      (elasticChunks m (chunksOf admission.contributions m)) text
    rw [hchunks, List.filter_append, List.filter_eq_nil_iff.2 hspared, List.nil_append,
      List.filter_singleton, hother, Bool.not_false, cond_true, tally_compressedChunk]
    exact (P.arith.fits_norm _).ofNonneg (admission.counts.countText_nonneg P hscale text) htarget

/-- What a settled module reports as retained. -/
theorem retainedReported_iff {env : Env} {previousUsage : HashMap ℤ}
    {semanticResults : HashMap String} {x : SettledModule F} (hscale : admission.counts.Scales)
    (h : SettledFrom P admission semanticResults m x) :
    RetainedReported m (settledPlan P env admission previousUsage x) ↔
      RetainsPinned P admission m := by
  have hspared := @sum_tokenCount F _ P admission env previousUsage x (isProtected m)
  have hothers := @sum_tokenCount F _ P admission env previousUsage x fun c => !isProtected m c
  have hsplit := tally_filter_add P admission.counts (isProtected m) x.chunks
  have hpinned : tally P admission.counts (x.chunks.filter (countsAsPinned m)) +
      tally P admission.counts ((x.chunks.filter (isProtected m)).filter fun c =>
        !countsAsPinned m c) = tally P admission.counts (x.chunks.filter (isProtected m)) := by
    rw [filter_countsAsPinned]
    exact tally_filter_add P admission.counts (countsAsPinned m) _
  have hretained : (settledPlan P env admission previousUsage x).usage.minimumRetainedTokens =
      P.arith.norm (tally P admission.counts (x.chunks.filter (countsAsPinned m))) := by
    rw [← countChunks_eq_norm, ← h.pinned]
    rfl
  have hreclaimable : (settledPlan P env admission previousUsage x).usage.reclaimableTokens =
      max (P.arith.norm (tally P admission.counts x.chunks -
        tally P admission.counts (x.chunks.filter (countsAsPinned m)))) 0 := by
    rw [← Accounts.sub_norm_norm, ← h.after_eq, ← countChunks_eq_norm, ← h.pinned]
    rfl
  -- the fixed chunks that are not pinned are protected, so the module keeps them
  have hfixed : tally P admission.counts ((x.chunks.filter (isProtected m)).filter fun c =>
      !countsAsPinned m c) = 0 ↔ ∀ c ∈ chunksOf admission.contributions m, c.fixed = true →
        countsAsPinned m c = false → (admission.counts.countContent P c.content).val = 0 := by
    rw [tally_eq_zero_iff hscale, h.protected_eq, protectedChunks, List.filter_filter]
    refine forall_congr' ?_
    intro c
    rw [List.mem_filter, isProtected_eq]
    cases c.fixed <;> cases countsAsPinned m c <;> simp
  have hname : (settledPlan P env admission previousUsage x).moduleId = m.moduleId := by
    rw [settledPlan, h.module]
  have hpinnedNonneg := @tally_nonneg F _ P _ hscale (x.chunks.filter (countsAsPinned m))
  have hfixedNonneg := @tally_nonneg F _ P _ hscale ((x.chunks.filter (isProtected m)).filter
    fun c => !countsAsPinned m c)
  have hothersNonneg := @tally_nonneg F _ P _ hscale (x.chunks.filter fun c => !isProtected m c)
  constructor
  · rintro ⟨-, hspares, hopen⟩
    rw [hretained, hspared] at hspares
    rw [hreclaimable, hothers] at hopen
    have hspares' : P.arith.Fits (tally P admission.counts (x.chunks.filter (isProtected m))) :=
      hspares ▸ P.arith.fits_norm _
    have hpinned' := Arith.norm_of_fits (hspares'.ofNonneg hpinnedNonneg (by omega))
    have hnone : tally P admission.counts ((x.chunks.filter (isProtected m)).filter fun c =>
        !countsAsPinned m c) = 0 := by omega
    have hrest : tally P admission.counts x.chunks -
        tally P admission.counts (x.chunks.filter (countsAsPinned m)) =
          tally P admission.counts (x.chunks.filter fun c => !isProtected m c) := by omega
    rw [hrest, Accounts.max_norm_eq_self_iff _ hothersNonneg] at hopen
    exact ⟨hfixed.1 hnone, h.protected_eq ▸ hspares', (h.fits_others hscale).1 hopen⟩
  · rintro ⟨hcounts, hspares, hopen⟩
    have hnone := hfixed.2 hcounts
    rw [← h.protected_eq] at hspares
    have hrest : tally P admission.counts x.chunks -
        tally P admission.counts (x.chunks.filter (countsAsPinned m)) =
          tally P admission.counts (x.chunks.filter fun c => !isProtected m c) := by omega
    refine ⟨hname, ?_, ?_⟩
    · rw [hretained, hspared, ← hpinned, hnone, add_zero]
      exact Arith.norm_of_fits (hspares.ofNonneg hpinnedNonneg (by omega))
    · rw [hreclaimable, hothers, hrest, Accounts.max_norm_eq_self_iff _ hothersNonneg]
      exact (h.fits_others hscale).2 hopen

end Retained

/-- In every successful call, the usages of all modules report what a reclaim may touch exactly
when, in every module, the fixed chunks that are not pinned count nothing, and neither the protected
chunks nor, within the allocation, the others count more than an integer holds. -/
theorem retained_reported_iff {P : Platform} {arena : ContextLeaseArena F} {env : Env}
    {request : PrepareRequest F} (results : List SemanticResult) {counter : Option TokenCounter}
    {plan : PreparedContextPlan F} {s : ArenaState F} (hs : Reachable P arena s)
    (h : (prepare P arena env request counter s).1 = .ok plan ∨
      (prepareCommit P arena env request results counter s).1 = .ok plan) {admission : Admission F}
    (hadmitted : Admitted P arena request counter (safetyMultiplier s request.model) admission) :
    List.Forall₂ RetainedReported (orderedModules arena.definition) plan.modulePlans ↔
      ∀ m ∈ arena.definition.modules, RetainsPinned P admission m := by
  obtain ⟨results', admission', xs, hadmitted', hplanned⟩ := successful_plan h
  obtain rfl := hadmitted.unique hadmitted'
  have hscale := hs.scales P arena hadmitted
  exact forall₂_settled_iff hplanned fun m _ x hx => retainedReported_iff hscale hx

/-- No chunk of the example is fixed. -/
theorem retained_reported_iff_example :
    ∃ plan, (prepare (Library.ascii id).release exampleArena default exampleRequest none {}).1 =
        .ok plan ∧
      List.Forall₂ RetainedReported (orderedModules exampleArena.definition) plan.modulePlans := by
  obtain ⟨plan, hplan⟩ := exampleRequest_prepared
  have hadmits : ((admitRequest (Library.ascii id).release exampleArena exampleRequest none
      (safetyMultiplier {} exampleRequest.model)).outcome.map fun admission : Admission ℚ =>
        decide (∀ m ∈ exampleArena.definition.modules,
          (∀ c ∈ chunksOf admission.contributions m, c.fixed = false) ∧
          (Library.ascii id).release.arith.Fits (tally (Library.ascii id).release admission.counts
            (protectedChunks m (chunksOf admission.contributions m))) ∧
          (Library.ascii id).release.arith.Fits (tally (Library.ascii id).release admission.counts
            (elasticChunks m (chunksOf admission.contributions m))))).toOption = some true := by
    decide +kernel
  obtain ⟨admission, hadmitted, hfits⟩ := exists_ok_of_map hadmits
  refine ⟨plan, hplan, (retained_reported_iff [] ⟨[], rfl⟩ (Or.inl hplan)
    (admit_ok.1 hadmitted)).2 ?_⟩
  intro m hm
  obtain ⟨hfixed, hspared, hothers⟩ := of_decide_eq_true hfits m hm
  refine ⟨fun c hc htrue => ?_, hspared, fun _ => hothers⟩
  rw [hfixed c hc] at htrue
  cases htrue

/-- A greeting that is fixed but not pinned. -/
def fixedGreeting : PromptChunk ℚ where
  chunkId := "greeting"
  content := .string "Hi"
  fixed := true
  priority := 1

/-- The usage calls the fixed greeting reclaimable, which no reclaim may touch. -/
theorem fixed_reported_reclaimable :
    ∃ plan, (prepare (Library.ascii id).release summaryArena default (historyRequest
        [fixedGreeting]) none {}).1 = .ok plan ∧
      ¬ List.Forall₂ RetainedReported (orderedModules summaryArena.definition)
        plan.modulePlans := by
  have hcounts : ((prepare (Library.ascii id).release summaryArena default (historyRequest
      [fixedGreeting]) none {}).1.map fun plan => plan.modulePlans.map fun p =>
        (p.usage.minimumRetainedTokens, ((p.chunks.filter fun c => isProtected summarizedModule
          (asContributed c)).map PreparedChunk.tokenCount).sum)).toOption = some [(0, 1)] := by
    decide +kernel
  obtain ⟨plan, hplan, p, hp, hcount⟩ := exists_module_of_map hcounts (List.mem_cons_self ..)
  refine ⟨plan, hplan, ?_⟩
  intro hreported
  obtain ⟨m, hm, hreport⟩ := exists_of_forall₂ hreported.flip hp
  obtain rfl : m = summarizedModule := List.mem_singleton.1 hm
  have hretained := hreport.retained
  rw [Prod.mk.injEq] at hcount
  rw [hcount.1, hcount.2] at hretained
  exact absurd hretained (by decide)

end ContextLease
