/-
Pipelines that truncate.

A truncation that counts every prefix stops before a prefix exceeds the target, and what it trims
off is a suffix, so its result counts as at most the target whatever the text was.  The text it is
given counts as more, so its result is accepted, and from then on every step is skipped.  A pipeline
of deterministic steps with a truncation among them therefore always reaches its target.

Main definitions:

* `Truncates` — a module whose pipeline truncates, with something to truncate.

Main results:

* `deterministicRun_reaches` — a truncating pipeline reaches its target;
* `reclaim_of_truncation` — and so the reclaim succeeds within the allocation.
-/

import ContextLease.Estimators
import ContextLease.Truncation
import ContextLease.TwoPhase

set_option relaxedAutoImplicit false
set_option autoImplicit false

namespace ContextLease

open MachineNumbers RustText

section Pipelines

variable {F : Type} [FloatOps F] {P : Platform} {counts : CountContext F} {target : ℤ}

/-- A truncation that counts returns a text within the target. -/
theorem countText_truncation_le (hpath : (counts.external.isNone &&
      usesCharEstimator counts.tokenizerId) = false)
    (hempty : (counts.countText P "").val = 0) (htarget : 0 ≤ target) (text : String) :
    (counts.countText P (compressText P counts target "builtin.text.boundary_truncate.v1"
      text).val).val ≤ target := by
  have hstep : compressText P counts target "builtin.text.boundary_truncate.v1" text =
      truncateByCount P counts target text := by
    have htruncate : compressText P counts target "builtin.text.boundary_truncate.v1" text =
        truncate P counts target text := rfl
    rw [htruncate, truncate, hpath]
    rfl
  rw [hstep]
  rcases htarget.lt_or_eq with hpos | hzero
  · exact countText_truncateByCount_le P target hpos text (by rw [hempty]; exact htarget)
  · rw [truncateByCount, if_pos hzero.symm.le, Flagged.val_pure, hempty]
    exact htarget

/-- Without required terms a truncation is accepted, because the text it is given exceeds the
target. -/
theorem deterministicStep_truncation {step : CompressionStepSpec}
    (hstep : step.algorithmId = "builtin.text.boundary_truncate.v1")
    (hpath : (counts.external.isNone && usesCharEstimator counts.tokenizerId) = false)
    (hempty : (counts.countText P "").val = 0) (htarget : 0 ≤ target) {text : String}
    (hexceeds : target < (counts.countText P text).val) :
    (counts.countText P (deterministicStep P counts target [] step text)).val ≤ target := by
  have hle := countText_truncation_le hpath hempty htarget text
  have haccepted : (keepsContract P counts [] text
      (compressText P counts target step.algorithmId text).val).val = true := by
    rw [keepsContract_val, hstep]
    exact ⟨hle.trans hexceeds.le, fun term hterm => by cases hterm⟩
  rw [deterministicStep, if_pos haccepted, hstep]
  exact hle

/-- A pipeline with a truncation reaches its target: the steps before it leave some text, it brings
that text within the target, and the steps after it are skipped. -/
theorem deterministicRun_reaches {steps : List CompressionStepSpec}
    (hsteps : ∃ step ∈ steps, step.algorithmId = "builtin.text.boundary_truncate.v1")
    (hpath : (counts.external.isNone && usesCharEstimator counts.tokenizerId) = false)
    (hempty : (counts.countText P "").val = 0) (htarget : 0 ≤ target) (text : String) :
    (counts.countText P (deterministicRun P counts target [] steps text)).val ≤ target := by
  induction steps generalizing text with
  | nil =>
      obtain ⟨step, hmem, -⟩ := hsteps
      cases hmem
  | cons step rest ih =>
      rw [deterministicRun]
      split
      · assumption
      · rename_i hexceeds
        by_cases hstep : step.algorithmId = "builtin.text.boundary_truncate.v1"
        · have hreached := deterministicStep_truncation hstep hpath hempty htarget
            (not_le.1 hexceeds)
          cases rest with
          | nil => exact hreached
          | cons next rest =>
              rw [deterministicRun, if_pos hreached]
              exact hreached
        · refine ih ?_ _
          obtain ⟨truncation, hmem, htruncation⟩ := hsteps
          rcases List.mem_cons.1 hmem with rfl | hmem
          · exact absurd htruncation hstep
          · exact ⟨truncation, hmem, htruncation⟩

end Pipelines

/-! ### The reclaim -/

/-- A module whose pipeline truncates and asks nobody, and chunks that it may truncate: some are
elastic, and those have no required terms. -/
structure Truncates {F : Type} (m : ModuleDefinition F) (chunks : List (PromptChunk F)) : Prop where
  truncates : ∃ step ∈ m.reclaimPipeline, step.algorithmId = "builtin.text.boundary_truncate.v1"
  deterministic : semanticSteps m.reclaimPipeline = 0
  elastic : elasticChunks m chunks ≠ []
  no_terms : ∀ c ∈ elasticChunks m chunks, c.requiredTerms = []

/-- Under the regular-expression estimator the empty text counts as nothing. -/
theorem Estimated.countText_nothing {P : Platform} {counts : CountContext ℚ} (h : Estimated counts)
    (hregex : usesCharEstimator counts.tokenizerId = false) : (counts.countText P "").val = 0 := by
  have hraw : counts.raw P "" = 0 := by
    simp only [CountContext.raw, h.no_counter, estimateText, hregex, Bool.false_eq_true, if_false]
    rfl
  simp [CountContext.countText, hraw, h.no_counter, Arith.saturate_of_fits P.arith.fits_zero]

/-- Whatever the other steps of the pipeline are and whatever their order is, a module whose
pipeline truncates is reclaimed within every allocation that its protected chunks fit in, under the
regular-expression estimator and every multiplier of at least one, in both readings of the
integers. -/
theorem reclaim_of_truncation (P : Platform) {counts : CountContext ℚ} (h : Estimated counts)
    (hregex : usesCharEstimator counts.tokenizerId = false) {m : ModuleDefinition ℚ}
    {chunks : List (PromptChunk ℚ)} (hm : Truncates m chunks) {allocation : ℤ}
    (hallocation : P.arith.Fits allocation)
    (hprotected : ((protectedChunks m chunks).map fun c =>
      (counts.countContent P c.content).val).sum ≤ allocation)
    (semanticResults : HashMap String) :
    ∃ chunks' used,
      (compressModule P counts m chunks allocation semanticResults).outcome = .ok (chunks', used) ∧
        used ≤ allocation := by
  have hempty : (counts.countText P "").val = 0 := h.countText_nothing hregex
  have hpath : (counts.external.isNone && usesCharEstimator counts.tokenizerId) = false := by
    rw [hregex, Bool.and_false]
  have hnonneg : 0 ≤ ((protectedChunks m chunks).map fun c =>
      (counts.countContent P c.content).val).sum := by
    refine List.sum_nonneg ?_
    intro x hx
    obtain ⟨c, -, rfl⟩ := List.mem_map.1 hx
    exact counts.countContent_nonneg P h.scales c.content
  -- nothing wraps: the protected chunks fit in the allocation
  have htokens : (counts.countChunks P (protectedChunks m chunks)).val =
      ((protectedChunks m chunks).map fun c => (counts.countContent P c.content).val).sum := by
    rw [CountContext.val_countChunks]
    exact Arith.sum_of_fits (hallocation.ofNonneg hnonneg hprotected)
  have htarget : reclaimTarget P counts m chunks allocation = allocation -
      ((protectedChunks m chunks).map fun c => (counts.countContent P c.content).val).sum := by
    rw [reclaimTarget, htokens]
    exact Arith.sub_of_fits (hallocation.ofNonneg (by omega) (by omega))
  have hterms : requiredTermsOf (elasticChunks m chunks) = [] := by
    rw [requiredTermsOf, List.flatMap_eq_nil_iff.2 hm.no_terms, btreeSet_nil]
  set target := reclaimTarget P counts m chunks allocation with htargetDef
  set text := deterministicRun P counts target [] m.reclaimPipeline
    (elasticText (elasticChunks m chunks)) with htext
  have hreached : (counts.countText P text).val ≤ target :=
    deterministicRun_reaches hm.truncates hpath hempty (by omega) _
  have hcounted := counts.countText_nonneg P h.scales text
  have hpipeline : reclaimPipeline P counts m chunks allocation semanticResults = .ok text := by
    rw [reclaimPipeline, hterms]
    exact reclaimLoop_of_deterministic hm.deterministic _ semanticResults
  have hsome : ¬ (elasticChunks m chunks).isEmpty = true := by
    rw [List.isEmpty_iff]
    exact hm.elastic
  have houtcome : (compressModule P counts m chunks allocation semanticResults).outcome =
      .ok (protectedChunks m chunks ++ [compressedChunk m (elasticChunks m chunks) text],
        P.arith.add (counts.countChunks P (protectedChunks m chunks)).val
          (counts.countText P text).val) := by
    rw [compressModule_outcome, if_neg (by rw [htokens]; omega), if_neg hsome, hpipeline,
      Except.ok_bind', compressedModule, if_neg (not_lt.2 hreached)]
  refine ⟨_, _, houtcome, ?_⟩
  rw [htokens, Arith.add_of_fits (hallocation.ofNonneg (by omega) (by omega))]
  omega

/-- A module that truncates between two other steps. -/
def truncatingModule : ModuleDefinition ℚ where
  moduleId := "history"
  floorTokens := 2
  targetTokens := 4
  maxTokens := 6
  weight := 1
  reclaimPipeline :=
    [⟨"builtin.text.normalize_whitespace.v1", []⟩, ⟨"builtin.text.boundary_truncate.v1", []⟩,
      ⟨"builtin.text.deduplicate_blocks.v1", []⟩]

/-- A protected chunk of three tokens and an elastic one of eight, at a multiplier of 3/2 five and
twelve. -/
def truncatingChunks : List (PromptChunk ℚ) :=
  [{ chunkId := "note", content := .string "Stay polite.", priority := 1, fixed := true },
   { chunkId := "talk", content := .string "We met on Monday. Bye now.", priority := 1 }]

theorem reclaim_of_truncation_example :
    ∃ chunks' used,
      (compressModule (Library.ascii id).release
        ⟨"regex-estimator-v1", none, 3 / 2⟩ truncatingModule
        truncatingChunks 9 HashMap.empty).outcome = .ok (chunks', used) ∧ used ≤ 9 := by
  have hpipeline : Truncates truncatingModule truncatingChunks :=
    ⟨⟨⟨"builtin.text.boundary_truncate.v1", []⟩, by simp [truncatingModule], rfl⟩,
      by decide +kernel, by decide +kernel, fun c hc => by
        obtain rfl := List.mem_singleton.1 hc
        rfl⟩
  exact reclaim_of_truncation _ ⟨rfl, by norm_num⟩ (by decide +kernel) hpipeline
    (by decide : Arith.Fits .release 9) (by decide +kernel) HashMap.empty

end ContextLease
