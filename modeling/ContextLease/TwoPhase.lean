/-
The two phases of a semantic step.

Planning and reclaiming walk the same pipeline twice.  Up to the semantic step they compute the same
texts, so the planned requests are the ones the reclaim asks for; after it no step asks again, so
the answers matter only through the ids that were planned.  One lemma lists how the two walks can
go together, and everything else follows from it.

Main definitions:

* `deterministicRun` — a pipeline without semantic steps;
* `ValidResult` — the answers a request accepts;
* `SamePath` — what planning says about reclaiming.

Main results:

* `pipeline_cases` — how the two walks go together;
* `samePath_of_valid`, `begin_reclaim_samePath` — planning and reclaiming follow the same path.
-/

import ContextLease.ReclaimSpec

set_option relaxedAutoImplicit false
set_option autoImplicit false

namespace ContextLease

open MachineNumbers RustText

variable {F : Type} [FloatOps F]

/-! ### The requests of a step -/

omit [FloatOps F] in
/-- The requests of a step, one for each provider, and at least one. -/
theorem semanticRequestsForStep_ok {lib : Library} {m : ModuleDefinition F}
    {step : CompressionStepSpec} {source : String} {target : ℤ} {required : List String}
    {requests : List SemanticRequest}
    (h : semanticRequestsForStep lib m step source target required = .ok requests) :
    requests = (stepProviders step).map (semanticRequest lib m step source target required) ∧
      requests ≠ [] := by
  simp only [semanticRequestsForStep] at h
  split at h
  · cases h
  · rename_i hproviders
    rw [Except.ok.injEq] at h
    refine ⟨h.symm, ?_⟩
    rw [← h]
    simpa using hproviders

omit [FloatOps F] in
/-- Every request of a step carries the text and the terms the step has reached. -/
theorem semanticRequest_fields {lib : Library} {m : ModuleDefinition F}
    {step : CompressionStepSpec} {source : String} {target : ℤ} {required : List String}
    {requests : List SemanticRequest}
    (h : semanticRequestsForStep lib m step source target required = .ok requests)
    {q : SemanticRequest} (hq : q ∈ requests) :
    q.sourceText = source ∧ q.requiredTerms = required := by
  rw [(semanticRequestsForStep_ok h).1] at hq
  obtain ⟨provider, -, rfl⟩ := List.mem_map.1 hq
  exact ⟨rfl, rfl⟩

section Pipeline

variable {P : Platform} {counts : CountContext F} {m : ModuleDefinition F} {target : ℤ}
  {required : List String}

/-- An answer a request accepts. -/
structure ValidResult (P : Platform) (counts : CountContext F) (q : SemanticRequest)
    (content : String) : Prop where
  not_blank : isBlank content = false
  fits : (counts.countText P content).val ≤ (counts.countText P q.sourceText).val
  keeps : ∀ term ∈ q.requiredTerms, Occurs term content

/-- The answers matter only through the ids of the requests. -/
theorem semanticStep_congr {requests : List SemanticRequest} {text : String}
    {semanticResults semanticResults' : HashMap String}
    (h : ∀ q ∈ requests,
      semanticResults q.semanticRequestId = semanticResults' q.semanticRequestId) :
    semanticStep P counts required semanticResults requests text =
      semanticStep P counts required semanticResults' requests text := by
  rw [semanticStep, semanticStep, validAnswers, validAnswers, List.filterMap_congr h]

/-- Nothing is adopted exactly when no request has an answer it accepts. -/
theorem semanticStep_eq_none_iff {step : CompressionStepSpec} {source : String}
    {requests : List SemanticRequest} {semanticResults : HashMap String}
    (h : semanticRequestsForStep P.toLibrary m step source target required = .ok requests) :
    semanticStep P counts required semanticResults requests source = none ↔
      ¬ ∃ q ∈ requests, ∃ content, semanticResults q.semanticRequestId = some content ∧
        ValidResult P counts q content := by
  rw [semanticStep_eq_none, validAnswers, List.filter_eq_nil_iff]
  constructor
  · rintro hnone ⟨q, hq, content, hcontent, hvalid⟩
    obtain ⟨hsource, hrequired⟩ := semanticRequest_fields h hq
    refine hnone content (List.mem_filterMap.2 ⟨q, hq, hcontent⟩) (validCandidate_val.2 ?_)
    exact ⟨hvalid.not_blank, hsource ▸ hvalid.fits, hrequired ▸ hvalid.keeps⟩
  · intro hnone content hcontent hvalid
    obtain ⟨q, hq, hcontent⟩ := List.mem_filterMap.1 hcontent
    obtain ⟨hsource, hrequired⟩ := semanticRequest_fields h hq
    obtain ⟨hblank, hfits, hkeeps⟩ := validCandidate_val.1 hvalid
    exact hnone ⟨q, hq, content, hcontent, hblank, by rw [hsource]; exact hfits,
      by rw [hrequired]; exact hkeeps⟩

/-! ### The two walks -/

/-- The text after a pipeline without semantic steps. -/
def deterministicRun (P : Platform) (counts : CountContext F) (target : ℤ)
    (required : List String) : List CompressionStepSpec → String → String
  | [], text => text
  | step :: rest, text =>
      if (counts.countText P text).val ≤ target then text
      else deterministicRun P counts target required rest
        (deterministicStep P counts target required step text)

/-- A pipeline is deterministic when none of its steps is semantic. -/
theorem semanticSteps_cons (step : CompressionStepSpec) (rest : List CompressionStepSpec) :
    semanticSteps (step :: rest) =
      (if isSemanticAlgorithm step.algorithmId then 1 else 0) + semanticSteps rest := by
  unfold semanticSteps
  rw [List.filter_cons]
  split
  · rw [List.length_cons, Nat.add_comm]
  · rw [Nat.zero_add]

/-- A pipeline without semantic steps asks for nothing and does not look at the answers. -/
theorem reclaimLoop_of_deterministic {steps : List CompressionStepSpec}
    (h : semanticSteps steps = 0) (text : String) (semanticResults : HashMap String) :
    (reclaimLoop P counts m target required semanticResults steps text).outcome =
      .ok (deterministicRun P counts target required steps text) := by
  induction steps generalizing text with
  | nil => rfl
  | cons step rest ih =>
      rw [semanticSteps_cons] at h
      have hstep : ¬ isSemanticAlgorithm step.algorithmId = true := by
        intro hsemantic
        rw [if_pos hsemantic] at h
        omega
      rw [reclaimLoop_cons, deterministicRun, if_neg hstep]
      split
      · rfl
      · exact ih (by omega) _

/-- How planning and reclaiming go through a pipeline together: both without asking, both to the
same failure, or both to the same semantic step. -/
theorem pipeline_cases (P : Platform) (counts : CountContext F) (m : ModuleDefinition F)
    (target : ℤ) (required : List String) {steps : List CompressionStepSpec}
    (h : semanticSteps steps ≤ 1) (text : String) :
    (∃ text', (collectLoop P counts m target required steps text).outcome = .ok [] ∧
      ∀ semanticResults,
        (reclaimLoop P counts m target required semanticResults steps text).outcome =
          .ok text') ∨
    (∃ e, (collectLoop P counts m target required steps text).outcome = .error e ∧
      ∀ semanticResults,
        (reclaimLoop P counts m target required semanticResults steps text).outcome =
          .error e) ∨
    ∃ step rest source requests,
      (collectLoop P counts m target required steps text).outcome = .ok requests ∧
      semanticRequestsForStep P.toLibrary m step source target required = .ok requests ∧
      ∀ semanticResults,
        (reclaimLoop P counts m target required semanticResults steps text).outcome =
          match semanticStep P counts required semanticResults requests source with
          | some candidate => .ok (deterministicRun P counts target required rest candidate)
          | none => .error (missingResult m step) := by
  induction steps generalizing text with
  | nil => exact Or.inl ⟨text, rfl, fun _ => rfl⟩
  | cons step rest ih =>
      rw [semanticSteps_cons] at h
      simp only [reclaimLoop_cons, collectLoop_cons]
      by_cases hfits : (counts.countText P text).val ≤ target
      · -- the target is met, and both walks stop here
        exact Or.inl ⟨text, by rw [if_pos hfits], fun _ => by rw [if_pos hfits]⟩
      · simp only [if_neg hfits]
        by_cases hsemantic : isSemanticAlgorithm step.algorithmId = true
        · simp only [if_pos hsemantic] at h ⊢
          cases hrequests : semanticRequestsForStep P.toLibrary m step text target required with
          | error e => exact Or.inr (Or.inl ⟨e, rfl, fun _ => rfl⟩)
          | ok requests =>
              refine Or.inr (Or.inr ⟨step, rest, text, requests, rfl, hrequests, ?_⟩)
              intro semanticResults
              have hrest : semanticSteps rest = 0 := by omega
              dsimp only
              cases semanticStep P counts required semanticResults requests text with
              | none => rfl
              | some candidate => exact reclaimLoop_of_deterministic hrest _ _
        · simp only [if_neg hsemantic] at h ⊢
          exact ih (by omega) _

end Pipeline

/-! ### Planning and reclaiming a module -/

/-- What planning a module says about reclaiming it. -/
structure SamePath (P : Platform) (counts : CountContext F) (m : ModuleDefinition F)
    (chunks : List (PromptChunk F)) (allocation : ℤ) : Prop where
  /-- When planning fails, reclaiming fails with the same code. -/
  fails : ∀ e, (collectSemanticRequests P counts m chunks allocation).outcome = .error e →
    ∀ semanticResults, ∃ e',
      (compressModule P counts m chunks allocation semanticResults).outcome = .error e' ∧
        e'.code = e.code
  /-- When nothing is asked, no answer is missed, and none is looked at. -/
  ready : (collectSemanticRequests P counts m chunks allocation).outcome = .ok [] →
    (∀ semanticResults e,
      (compressModule P counts m chunks allocation semanticResults).outcome = .error e →
        e.code ≠ "semantic_result_missing_or_invalid") ∧
    ∀ semanticResults semanticResults',
      (compressModule P counts m chunks allocation semanticResults).outcome =
        (compressModule P counts m chunks allocation semanticResults').outcome
  /-- When something is asked, only its answers matter, and one valid answer is enough. -/
  asks : ∀ requests,
    (collectSemanticRequests P counts m chunks allocation).outcome = .ok requests →
    requests ≠ [] →
    (∀ semanticResults semanticResults' : HashMap String,
      (∀ q ∈ requests,
        semanticResults q.semanticRequestId = semanticResults' q.semanticRequestId) →
      (compressModule P counts m chunks allocation semanticResults).outcome =
        (compressModule P counts m chunks allocation semanticResults').outcome) ∧
    ∀ semanticResults,
      (∃ e, (compressModule P counts m chunks allocation semanticResults).outcome = .error e ∧
        e.code = "semantic_result_missing_or_invalid") ↔
      ¬ ∃ q ∈ requests, ∃ content, semanticResults q.semanticRequestId = some content ∧
        ValidResult P counts q content

/-- The end of a reclaim never misses an answer. -/
theorem compressedModule_code {P : Platform} {counts : CountContext F} {m : ModuleDefinition F}
    {chunks : List (PromptChunk F)} {allocation : ℤ} {text : String} {e : ContextLeaseError}
    (h : compressedModule P counts m chunks allocation text = .error e) :
    e.code = "admission_error" := by
  rw [compressedModule] at h
  split at h
  · rw [Except.error.injEq] at h
    rw [← h]
  · cases h

section Module

variable {P : Platform} {counts : CountContext F} {m : ModuleDefinition F}
  {chunks : List (PromptChunk F)} {allocation : ℤ}

/-- Planning fails, and so does reclaiming. -/
theorem SamePath.of_error {e : ContextLeaseError}
    (hcollect : (collectSemanticRequests P counts m chunks allocation).outcome = .error e)
    (h : ∀ semanticResults, ∃ e',
      (compressModule P counts m chunks allocation semanticResults).outcome = .error e' ∧
        e'.code = e.code) :
    SamePath P counts m chunks allocation := by
  refine ⟨?_, ?_, ?_⟩
  · intro e' he'
    rw [hcollect, Except.error.injEq] at he'
    subst he'
    exact h
  · intro hok
    rw [hcollect] at hok
    cases hok
  · intro requests hok
    rw [hcollect] at hok
    cases hok

/-- Nothing is asked, and reclaiming does not look at the answers. -/
theorem SamePath.of_ready {r : Result (List (PromptChunk F) × ℤ)}
    (hcollect : (collectSemanticRequests P counts m chunks allocation).outcome = .ok [])
    (h : ∀ semanticResults,
      (compressModule P counts m chunks allocation semanticResults).outcome = r)
    (hcode : ∀ e, r = .error e → e.code = "admission_error") :
    SamePath P counts m chunks allocation := by
  refine ⟨?_, ?_, ?_⟩
  · intro e he
    rw [hcollect] at he
    cases he
  · intro _
    refine ⟨?_, fun semanticResults semanticResults' => (h _).trans (h _).symm⟩
    intro semanticResults e he
    rw [h] at he
    rw [hcode e he]
    decide
  · intro requests hok hne
    rw [hcollect, Except.ok.injEq] at hok
    exact absurd hok.symm hne

/-- Something is asked, and reclaiming goes on from the answers. -/
theorem SamePath.of_asks {step : CompressionStepSpec} {requests : List SemanticRequest}
    {target : ℤ} {required : List String} {source : String}
    (next : String → Result (List (PromptChunk F) × ℤ))
    (hcollect : (collectSemanticRequests P counts m chunks allocation).outcome = .ok requests)
    (hrequests : semanticRequestsForStep P.toLibrary m step source target required = .ok requests)
    (h : ∀ semanticResults,
      (compressModule P counts m chunks allocation semanticResults).outcome =
        match semanticStep P counts required semanticResults requests source with
        | some candidate => next candidate
        | none => .error (missingResult m step))
    (hcode : ∀ candidate e, next candidate = .error e → e.code = "admission_error") :
    SamePath P counts m chunks allocation := by
  refine ⟨?_, ?_, ?_⟩
  · intro e he
    rw [hcollect] at he
    cases he
  · intro hok
    rw [hcollect, Except.ok.injEq] at hok
    exact absurd hok (semanticRequestsForStep_ok hrequests).2
  · intro requests' hok _
    rw [hcollect, Except.ok.injEq] at hok
    subst hok
    refine ⟨?_, ?_⟩
    · intro semanticResults semanticResults' hsame
      rw [h, h, semanticStep_congr hsame]
    · intro semanticResults
      rw [h, ← semanticStep_eq_none_iff hrequests]
      cases hstep : semanticStep P counts required semanticResults requests source with
      | none => exact ⟨fun _ => rfl, fun _ => ⟨_, rfl, rfl⟩⟩
      | some candidate =>
          constructor
          · rintro ⟨e, he, hmissing⟩
            rw [hcode candidate e he] at hmissing
            exact absurd hmissing (by decide)
          · intro hnone
            cases hnone

end Module

/-- Planning and reclaiming follow the same path through a pipeline with at most one semantic
step. -/
theorem samePath_of_valid (P : Platform) (counts : CountContext F) {m : ModuleDefinition F}
    (hm : ValidModule m) (chunks : List (PromptChunk F)) (allocation : ℤ) :
    SamePath P counts m chunks allocation := by
  have hcollect := collectSemanticRequests_outcome P counts m chunks allocation
  have hcompress := compressModule_outcome P counts m chunks allocation
  by_cases hpinned : (counts.countChunks P (protectedChunks m chunks)).val > allocation
  · -- the protected chunks alone exceed the allocation
    simp only [if_pos hpinned] at hcollect hcompress
    exact .of_error hcollect fun semanticResults => ⟨_, hcompress semanticResults, rfl⟩
  · simp only [if_neg hpinned] at hcollect hcompress
    by_cases hempty : (elasticChunks m chunks).isEmpty = true
    · -- there is nothing the pipeline may change
      simp only [if_pos hempty] at hcollect hcompress
      refine .of_ready hcollect hcompress ?_
      intro e he
      rw [Except.error.injEq] at he
      rw [← he]
    · simp only [if_neg hempty, reclaimPipeline] at hcollect hcompress
      rcases pipeline_cases P counts m (reclaimTarget P counts m chunks allocation)
        (requiredTermsOf (elasticChunks m chunks)) hm.semantic_le_one
        (elasticText (elasticChunks m chunks)) with
        ⟨text, hplan, hloop⟩ | ⟨e, hplan, hloop⟩ | ⟨step, rest, source, requests, hplan, hrequests,
          hloop⟩
      · -- no step asks
        refine .of_ready (r := compressedModule P counts m chunks allocation text)
          (hcollect.trans hplan) ?_ ?_
        · intro semanticResults
          rw [hcompress, hloop]
          rfl
        · exact fun e he => compressedModule_code he
      · -- the first step that asks cannot say what it asks for
        refine .of_error (hcollect.trans hplan) ?_
        intro semanticResults
        rw [hcompress, hloop]
        exact ⟨e, rfl, rfl⟩
      · -- one step asks, and the steps after it go on from the answer
        refine .of_asks (fun candidate => compressedModule P counts m chunks allocation
          (deterministicRun P counts (reclaimTarget P counts m chunks allocation)
            (requiredTermsOf (elasticChunks m chunks)) rest candidate))
          (hcollect.trans hplan) hrequests ?_ fun candidate e he => compressedModule_code he
        intro semanticResults
        rw [hcompress, hloop]
        cases semanticStep P counts (requiredTermsOf (elasticChunks m chunks)) semanticResults
          requests source with
        | none => rfl
        | some candidate => rfl

/-- Planning and reclaiming a validated module follow the same path, for every chunk list,
allocation and counter. -/
theorem begin_reclaim_samePath (P : Platform) (counts : CountContext F) {m : ModuleDefinition F}
    (hm : validateModule m = .ok ()) (chunks : List (PromptChunk F)) (allocation : ℤ) :
    SamePath P counts m chunks allocation :=
  samePath_of_valid P counts (validateModule_ok hm) chunks allocation

/-- A history that is summarized when it outgrows its allocation. -/
def summarizedModule : ModuleDefinition ℚ where
  moduleId := "history"
  floorTokens := 0
  targetTokens := 4
  maxTokens := 4
  weight := 1
  canBorrow := false
  reclaimPipeline :=
    [⟨"builtin.text.normalize_whitespace.v1", []⟩,
      ⟨"builtin.semantic.portfolio.v1",
        [("providers", .array [.string "small", .string "large"])]⟩,
      ⟨"builtin.text.boundary_truncate.v1", []⟩]

/-- A talk of eight tokens. -/
def talk : PromptChunk ℚ where
  chunkId := "talk"
  content := .string "We met  on Monday. Bye now."
  priority := 1
  requiredTerms := ["Monday"]

theorem begin_reclaim_samePath_example :
    ((collectSemanticRequests (Library.ascii id).release ⟨"regex-estimator-v1", none, (1 : ℚ)⟩
      summarizedModule [talk] 4).outcome.map (List.map SemanticRequest.sourceText)).toOption =
      some ["We met on Monday. Bye now.", "We met on Monday. Bye now."] ∧
    SamePath (Library.ascii id).release ⟨"regex-estimator-v1", none, (1 : ℚ)⟩ summarizedModule
      [talk] 4 :=
  ⟨by decide +kernel, begin_reclaim_samePath _ _ (by decide +kernel) [talk] 4⟩

end ContextLease
