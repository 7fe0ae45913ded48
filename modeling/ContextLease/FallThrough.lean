/-
A semantic step without a valid answer.

The architecture says that a failure can fall through to later steps of the pipeline.  In the kernel
it cannot: a semantic step that is reached and has no valid answer ends the reclaim, whatever the
steps after it would still have achieved.  So the reclaim returns what it would return without the
step exactly when it does not come to the step.

Main definitions:

* `withoutStep` — the module whose pipeline lacks the step;
* `relabelled` — a result under the name of another pipeline;
* `NoValidAnswer`, `FallsThrough`, `NeedsAnswer` — what the host answers, what is asked of the
  reclaim, and the condition against it.

Main results:

* `compressModule_of_needsAnswer` — a step that is reached ends the reclaim;
* `compressModule_of_not_needsAnswer` — one that is not reached makes no difference;
* `falls_through_iff` — the reclaim falls through exactly when it does not need the step.
-/

import ContextLease.SemanticChoice

set_option relaxedAutoImplicit false
set_option autoImplicit false

namespace ContextLease

open MachineNumbers RustText

variable {F : Type} [FloatOps F]

section Definitions

variable (P : Platform) (counts : CountContext F) (m : ModuleDefinition F)
  (before : List CompressionStepSpec) (step : CompressionStepSpec)
  (after : List CompressionStepSpec) (chunks : List (PromptChunk F)) (allocation : ℤ)
  (semanticResults : HashMap String)

omit [FloatOps F] in
/-- The module whose pipeline consists of the steps before and after one of its steps. -/
def withoutStep : ModuleDefinition F := { m with reclaimPipeline := before ++ after }

omit [FloatOps F] in
/-- The result of a reclaim with the pipeline of `m` in the metadata of the chunk it has made. -/
def relabelled (r : List (PromptChunk F) × ℤ) : List (PromptChunk F) × ℤ :=
  (r.1.dropLast ++ r.1.getLast?.toList.map fun c =>
    { c with
      metadata := c.metadata.insert "compression_pipeline"
        (.array (m.reclaimPipeline.map fun step => .string step.algorithmId)) }, r.2)

/-- No request of the step has an answer that it accepts. -/
def NoValidAnswer : Prop :=
  ∀ requests, semanticRequestsForStep P.toLibrary m step
      (sourceText P counts m chunks allocation before) (reclaimTarget P counts m chunks allocation)
      (requiredTermsOf (elasticChunks m chunks)) = .ok requests →
    ¬ ∃ q ∈ requests, ∃ content, semanticResults q.semanticRequestId = some content ∧
      ValidResult P counts q content

/-- The reclaim returns what it returns without the step, but for the pipeline that it names. -/
def FallsThrough : Prop :=
  (compressModule P counts m chunks allocation semanticResults).outcome =
    (compressModule P counts (withoutStep m before after) chunks allocation
      semanticResults).outcome.map (relabelled m)

/-- The protected chunks fit, and what the steps before the semantic one leave of the others has to
shrink further. -/
structure NeedsAnswer : Prop where
  fits : (counts.countChunks P (protectedChunks m chunks)).val ≤ allocation
  elastic : elasticChunks m chunks ≠ []
  exceeds : reclaimTarget P counts m chunks allocation <
    (counts.countText P (sourceText P counts m chunks allocation before)).val

end Definitions

variable {P : Platform} {counts : CountContext F} {m : ModuleDefinition F}
  {before after : List CompressionStepSpec} {step : CompressionStepSpec}
  {chunks : List (PromptChunk F)} {allocation : ℤ} {semanticResults : HashMap String}

/-- The result of another pipeline with the same text, under the name of this one. -/
theorem compressedModule_relabelled (text : String) :
    (compressedModule P counts (withoutStep m before after) chunks allocation text).map
        (relabelled m) = compressedModule P counts m chunks allocation text := by
  have hlabel : ∀ sources steps : Value, (BTreeMap.ofList [("source_chunk_ids", sources),
      ("compression_pipeline", steps)]).insert "compression_pipeline"
        (.array (m.reclaimPipeline.map fun s => .string s.algorithmId)) =
      BTreeMap.ofList [("source_chunk_ids", sources),
        ("compression_pipeline",
          .array (m.reclaimPipeline.map fun s => .string s.algorithmId))] := by
    intro sources steps
    have hlt : "compression_pipeline" < "source_chunk_ids" := by decide
    simp [BTreeMap.ofList, BTreeMap.insert, hlt]
  change Except.map (relabelled m)
    (if (counts.countText P text).val > reclaimTarget P counts m chunks allocation then
      .error ⟨"admission_error", m.moduleId ++ " reclaim target unmet"⟩
    else
      .ok (protectedChunks m chunks ++
          [compressedChunk (withoutStep m before after) (elasticChunks m chunks) text],
        P.arith.add (counts.countChunks P (protectedChunks m chunks)).val
          (counts.countText P text).val) : Result (List (PromptChunk F) × ℤ)) = _
  rw [compressedModule]
  split
  · rfl
  · simp only [Except.map, relabelled, List.dropLast_concat, List.getLast?_concat,
      Option.toList_some, List.map_cons, List.map_nil, compressedChunk, withoutStep, hlabel]

/-- What the reclaim returns without the step. -/
theorem compressModule_withoutStep (hbefore : semanticSteps before = 0)
    (hafter : semanticSteps after = 0) :
    (compressModule P counts (withoutStep m before after) chunks allocation
        semanticResults).outcome.map (relabelled m) =
      if (counts.countChunks P (protectedChunks m chunks)).val > allocation then
        .error ⟨"admission_error", m.moduleId ++ " pinned content exceeds allocation"⟩
      else if (elasticChunks m chunks).isEmpty then
        .error ⟨"admission_error", m.moduleId ++ " has no elastic content"⟩
      else
        compressedModule P counts m chunks allocation
          (deterministicRun P counts (reclaimTarget P counts m chunks allocation)
            (requiredTermsOf (elasticChunks m chunks)) after
            (sourceText P counts m chunks allocation before)) := by
  rw [compressModule_outcome]
  change Except.map (relabelled m)
    (if (counts.countChunks P (protectedChunks m chunks)).val > allocation then
      .error ⟨"admission_error", m.moduleId ++ " pinned content exceeds allocation"⟩
    else if (elasticChunks m chunks).isEmpty then
      .error ⟨"admission_error", m.moduleId ++ " has no elastic content"⟩
    else
      (reclaimLoop P counts (withoutStep m before after)
        (reclaimTarget P counts m chunks allocation) (requiredTermsOf (elasticChunks m chunks))
        semanticResults (before ++ after) (elasticText (elasticChunks m chunks))).outcome >>=
          compressedModule P counts (withoutStep m before after) chunks allocation) = _
  rw [reclaimLoop_append hbefore, ← sourceText, reclaimLoop_of_deterministic hafter]
  split
  · rfl
  · split
    · rfl
    · exact compressedModule_relabelled _

/-- A step that is not reached makes no difference. -/
theorem compressModule_of_not_needsAnswer (hpipeline : m.reclaimPipeline = before ++ step :: after)
    (hbefore : semanticSteps before = 0) (hafter : semanticSteps after = 0)
    (h : ¬ NeedsAnswer P counts m before chunks allocation) :
    FallsThrough P counts m before after chunks allocation semanticResults := by
  rw [FallsThrough, compressModule_withoutStep hbefore hafter, compressModule_outcome]
  by_cases hfits : (counts.countChunks P (protectedChunks m chunks)).val > allocation
  · rw [if_pos hfits, if_pos hfits]
  rw [if_neg hfits, if_neg hfits]
  by_cases helastic : (elasticChunks m chunks).isEmpty = true
  · rw [if_pos helastic, if_pos helastic]
  rw [if_neg helastic, if_neg helastic]
  -- the steps before have reached the target, and no later step is taken
  have hreached : (counts.countText P (sourceText P counts m chunks allocation before)).val ≤
      reclaimTarget P counts m chunks allocation := by
    by_contra hexceeds
    exact h ⟨not_lt.1 hfits, by rwa [List.isEmpty_iff] at helastic, not_le.1 hexceeds⟩
  have hstays := @reclaimLoop_of_deterministic F _ P counts m
    (reclaimTarget P counts m chunks allocation) (requiredTermsOf (elasticChunks m chunks)) after
    hafter (sourceText P counts m chunks allocation before) semanticResults
  rw [reclaimLoop_of_reached hreached, Except.ok.injEq] at hstays
  rw [reclaimPipeline, hpipeline, reclaimLoop_append hbefore, ← sourceText,
    reclaimLoop_of_reached hreached, ← hstays]
  rfl

/-- A step that is reached and has no valid answer ends the reclaim. -/
theorem compressModule_of_needsAnswer (hpipeline : m.reclaimPipeline = before ++ step :: after)
    (hbefore : semanticSteps before = 0) (hstep : isSemanticAlgorithm step.algorithmId = true)
    (hanswer : NoValidAnswer P counts m before step chunks allocation semanticResults)
    (h : NeedsAnswer P counts m before chunks allocation) :
    ∃ e, (compressModule P counts m chunks allocation semanticResults).outcome = .error e ∧
      e.code ≠ "admission_error" := by
  have helastic : ¬ (elasticChunks m chunks).isEmpty = true := by
    rw [List.isEmpty_iff]
    exact h.elastic
  rw [compressModule_outcome, if_neg (not_lt.2 h.fits), if_neg helastic, reclaimPipeline, hpipeline,
    reclaimLoop_append hbefore, ← sourceText, reclaimLoop_cons, if_neg (not_le.2 h.exceeds),
    if_pos hstep]
  cases hrequests : semanticRequestsForStep P.toLibrary m step
      (sourceText P counts m chunks allocation before) (reclaimTarget P counts m chunks allocation)
      (requiredTermsOf (elasticChunks m chunks)) with
  | error e =>
      rw [semanticRequestsForStep] at hrequests
      split at hrequests
      · obtain rfl := Except.error.inj hrequests
        exact ⟨_, rfl, show "configuration_error" ≠ "admission_error" by decide⟩
      · cases hrequests
  | ok requests =>
      simp only
      rw [(semanticStep_eq_none_iff hrequests).2 (hanswer requests hrequests)]
      exact ⟨missingResult m step, rfl,
        show "semantic_result_missing_or_invalid" ≠ "admission_error" by decide⟩

/-- In every module with one semantic step in its pipeline, with every chunk list, allocation and
counter: if no answer to the requests of the step is valid, then the reclaim returns what it returns
without the step exactly when the protected chunks do not fit, or there are no others, or the steps
before the semantic one reach the target. -/
theorem falls_through_iff (P : Platform) (counts : CountContext F) {m : ModuleDefinition F}
    {before after : List CompressionStepSpec} {step : CompressionStepSpec}
    (hpipeline : m.reclaimPipeline = before ++ step :: after) (hbefore : semanticSteps before = 0)
    (hstep : isSemanticAlgorithm step.algorithmId = true) (hafter : semanticSteps after = 0)
    {chunks : List (PromptChunk F)} {allocation : ℤ} {semanticResults : HashMap String}
    (hanswer : NoValidAnswer P counts m before step chunks allocation semanticResults) :
    FallsThrough P counts m before after chunks allocation semanticResults ↔
      ¬ NeedsAnswer P counts m before chunks allocation := by
  refine ⟨fun hfalls hneeds => ?_, compressModule_of_not_needsAnswer hpipeline hbefore hafter⟩
  have helastic : ¬ (elasticChunks m chunks).isEmpty = true := by
    rw [List.isEmpty_iff]
    exact hneeds.elastic
  obtain ⟨e, hfails, hcode⟩ :=
    compressModule_of_needsAnswer hpipeline hbefore hstep hanswer hneeds
  rw [FallsThrough, compressModule_withoutStep hbefore hafter, hfails,
    if_neg (not_lt.2 hneeds.fits), if_neg helastic] at hfalls
  exact hcode (compressedModule_code hfalls.symm)

/-! ### A talk that nobody summarizes -/

/-- The steps before and after the summary of the history. -/
def normalizeFirst : List CompressionStepSpec := [⟨"builtin.text.normalize_whitespace.v1", []⟩]

def truncateLast : List CompressionStepSpec := [⟨"builtin.text.boundary_truncate.v1", []⟩]

/-- The summary of the history. -/
def summarize : CompressionStepSpec :=
  ⟨"builtin.semantic.portfolio.v1", [("providers", .array [.string "small", .string "large"])]⟩

theorem talk_unanswered (allocation : ℤ) :
    NoValidAnswer (Library.ascii id).release ⟨"regex-estimator-v1", none, (1 : ℚ)⟩ summarizedModule
      normalizeFirst summarize [talk] allocation HashMap.empty := by
  rintro requests - ⟨q, hq, content, hcontent, -⟩
  cases hcontent

/-- Within eight tokens the talk needs no summary. -/
theorem falls_through_iff_example :
    FallsThrough (Library.ascii id).release ⟨"regex-estimator-v1", none, (1 : ℚ)⟩ summarizedModule
      normalizeFirst truncateLast [talk] 8 HashMap.empty :=
  (falls_through_iff _ _ rfl rfl rfl rfl (talk_unanswered 8)).2 fun hneeds =>
    absurd hneeds.exceeds (by decide +kernel)

/-- Within four tokens it fails without an answer, although the last step cuts it to "We met on
Monday". -/
theorem unanswered_talk_fails :
    NoValidAnswer (Library.ascii id).release ⟨"regex-estimator-v1", none, (1 : ℚ)⟩ summarizedModule
        normalizeFirst summarize [talk] 4 HashMap.empty ∧
      ¬ FallsThrough (Library.ascii id).release ⟨"regex-estimator-v1", none, (1 : ℚ)⟩
        summarizedModule normalizeFirst truncateLast [talk] 4 HashMap.empty := by
  refine ⟨talk_unanswered 4, ?_⟩
  intro hfalls
  have hfails : (compressModule (Library.ascii id).release ⟨"regex-estimator-v1", none, (1 : ℚ)⟩
      summarizedModule [talk] 4 HashMap.empty).outcome.toOption.isSome = false := by decide +kernel
  have hcut : (compressModule (Library.ascii id).release ⟨"regex-estimator-v1", none, (1 : ℚ)⟩
      (withoutStep summarizedModule normalizeFirst truncateLast) [talk] 4
        HashMap.empty).outcome.toOption.isSome = true := by decide +kernel
  rw [FallsThrough] at hfalls
  rw [hfalls] at hfails
  cases hshort : (compressModule (Library.ascii id).release ⟨"regex-estimator-v1", none, (1 : ℚ)⟩
      (withoutStep summarizedModule normalizeFirst truncateLast) [talk] 4
        HashMap.empty).outcome with
  | error e => rw [hshort] at hcut; cases hcut
  | ok r => rw [hshort] at hfails; cases hfails

end ContextLease
