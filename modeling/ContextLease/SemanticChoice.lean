/-
What a semantic step adopts.

A semantic step looks up the answers to its requests, drops those that are blank, grow or lose a
required term, and adopts the head of the rest after a stable sort by their counts: of the smallest
valid answers the one whose provider is configured first.  The answers come from a map that is
filled from a list with distinct ids, so the order of the list makes no difference to the step, and
none to the call.

Main definitions:

* `Candidate`, `Adopted` — the valid answers of a step by their provider, and the one it adopts;
* `ReachesStep`, `sourceText` — a reclaim that reaches its semantic step, and with which text;
* `Selects` — it goes on with the adopted candidate, or there is none.

Main results:

* `semanticStep_adopts` — what a semantic step adopts;
* `compressModule_selects` — the reclaim goes on with it;
* `prepareCommit_perm` — the order of the results makes no difference;
* `semantic_selection` — both for the results that a commit accepts.
-/

import ContextLease.Commit
import ContextLease.Interleaving
import ContextLease.StableLeast
import ContextLease.TransactSpec

set_option relaxedAutoImplicit false
set_option autoImplicit false

namespace ContextLease

open MachineNumbers RustText StableLeast

variable {F : Type} [FloatOps F]

/-! ### The choice of a step -/

section Choice

variable (P : Platform) (counts : CountContext F) (m : ModuleDefinition F) (target : ℤ)
  (required : List String) (step : CompressionStepSpec) (results : List SemanticResult)
  (source : String)

/-- An answer to the request of a step to its `i`-th provider that is not blank, does not count more
than the text the step is given, and contains every required term. -/
structure Candidate (i : ℕ) (content : String) : Prop where
  answers : ∃ provider, (stepProviders step)[i]? = some provider ∧
    ⟨(semanticRequest P.toLibrary m step source target required provider).semanticRequestId,
      content⟩ ∈ results
  not_blank : isBlank content = false
  shrinks : (counts.countText P content).val ≤ (counts.countText P source).val
  keeps : ∀ term ∈ required, Occurs term content

/-- The candidate with the smallest count, and among those the one of the first provider. -/
structure Adopted (content : String) : Prop where
  candidate : ∃ i, Candidate P counts m target required step results source i content ∧
    ∀ j content', Candidate P counts m target required step results source j content' →
      (counts.countText P content).val < (counts.countText P content').val ∨
        (counts.countText P content).val = (counts.countText P content').val ∧ i ≤ j

variable {P counts m target required step results source}

/-- The valid answer that a semantic step finds at a provider. -/
def findCandidate (P : Platform) (counts : CountContext F) (required : List String)
    (semanticResults : HashMap String) (source : String) (q : SemanticRequest) : Option String :=
  (semanticResults q.semanticRequestId).filter fun candidate =>
    (validCandidate P counts required source candidate).val

theorem validAnswers_eq (semanticResults : HashMap String) (requests : List SemanticRequest) :
    validAnswers P counts required semanticResults requests source =
      requests.filterMap (findCandidate P counts required semanticResults source) := by
  rw [validAnswers, List.filter_filterMap]
  rfl

/-- What is found at a place is the candidate of that provider. -/
theorem foundAt_iff (hnodup : (results.map SemanticResult.semanticRequestId).Nodup) {i : ℕ}
    {content : String} :
    FoundAt (findCandidate P counts required (semanticResultsOf results) source)
        ((stepProviders step).map (semanticRequest P.toLibrary m step source target required))
        i content ↔
      Candidate P counts m target required step results source i content := by
  simp only [FoundAt, findCandidate, Option.filter_eq_some_iff, semanticResultsOf_eq_some hnodup,
    validCandidate_val, List.getElem?_map, Option.map_eq_some_iff]
  constructor
  · rintro ⟨q, ⟨provider, hprovider, rfl⟩, hresult, hblank, hshrinks, hkeeps⟩
    exact ⟨⟨provider, hprovider, hresult⟩, hblank, hshrinks, hkeeps⟩
  · rintro ⟨⟨provider, hprovider, hresult⟩, hblank, hshrinks, hkeeps⟩
    exact ⟨_, ⟨provider, hprovider, rfl⟩, hresult, hblank, hshrinks, hkeeps⟩

/-- A semantic step adopts a candidate exactly when there is one, and then the smallest one of the
first provider. -/
theorem semanticStep_adopts (hnodup : (results.map SemanticResult.semanticRequestId).Nodup)
    {requests : List SemanticRequest}
    (hrequests : semanticRequestsForStep P.toLibrary m step source target required =
      .ok requests) :
    (∀ content, semanticStep P counts required (semanticResultsOf results) requests source =
        some content ↔ Adopted P counts m target required step results source content) ∧
      (semanticStep P counts required (semanticResultsOf results) requests source = none ↔
        ∀ i content, ¬ Candidate P counts m target required step results source i content) := by
  have hadopts : ∀ content, semanticStep P counts required (semanticResultsOf results) requests
      source = some content → Adopted P counts m target required step results source content := by
    intro content hstep
    rw [semanticStep, validAnswers_eq, (semanticRequestsForStep_ok hrequests).1] at hstep
    obtain ⟨i, hfound, hleast⟩ :=
      head?_eq_some (fun content => (counts.countText P content).val) hstep
    exact ⟨i, (foundAt_iff hnodup).1 hfound,
      fun j content' hcandidate => hleast j content' ((foundAt_iff hnodup).2 hcandidate)⟩
  have hnone : semanticStep P counts required (semanticResultsOf results) requests source = none ↔
      ∀ i content, ¬ Candidate P counts m target required step results source i content := by
    rw [semanticStep_eq_none, validAnswers_eq, (semanticRequestsForStep_ok hrequests).1,
      List.filterMap_eq_nil_iff]
    constructor
    · intro hall i content hcandidate
      obtain ⟨q, hq, hfound⟩ := (foundAt_iff hnodup).2 hcandidate
      rw [hall q (List.mem_of_getElem? hq)] at hfound
      cases hfound
    · intro hall q hq
      obtain ⟨i, hi⟩ := List.mem_iff_getElem?.1 hq
      rw [Option.eq_none_iff_forall_ne_some]
      exact fun content hfound => hall i content ((foundAt_iff hnodup).1 ⟨q, hi, hfound⟩)
  refine ⟨fun content => ⟨hadopts content, fun hadopted => ?_⟩, hnone⟩
  obtain ⟨⟨i, hcandidate, hleast⟩⟩ := hadopted
  cases hstep : semanticStep P counts required (semanticResultsOf results) requests source with
  | none => exact absurd hcandidate (hnone.1 hstep i content)
  | some content' =>
      -- the smallest candidate of the first provider is unique
      obtain ⟨⟨i', hcandidate', hleast'⟩⟩ := hadopts content' hstep
      have hfirst : LeastAt (fun content => (counts.countText P content).val)
          (findCandidate P counts required (semanticResultsOf results) source)
          ((stepProviders step).map (semanticRequest P.toLibrary m step source target required))
          i content :=
        ⟨(foundAt_iff hnodup).2 hcandidate,
          fun j content' hfound => hleast j content' ((foundAt_iff hnodup).1 hfound)⟩
      have hfirst' : LeastAt (fun content => (counts.countText P content).val)
          (findCandidate P counts required (semanticResultsOf results) source)
          ((stepProviders step).map (semanticRequest P.toLibrary m step source target required))
          i' content' :=
        ⟨(foundAt_iff hnodup).2 hcandidate',
          fun j content' hfound => hleast' j content' ((foundAt_iff hnodup).1 hfound)⟩
      rw [(hfirst.unique _ hfirst').2]

end Choice

/-! ### The reclaim -/

section Reclaim

variable {P : Platform} {counts : CountContext F} {m : ModuleDefinition F} {target : ℤ}
  {required : List String}

/-- A reclaim that has reached its target goes no further. -/
theorem reclaimLoop_of_reached {text : String} (h : (counts.countText P text).val ≤ target)
    (semanticResults : HashMap String) (steps : List CompressionStepSpec) :
    (reclaimLoop P counts m target required semanticResults steps text).outcome = .ok text := by
  cases steps with
  | nil => rfl
  | cons step rest => rw [reclaimLoop_cons, if_pos h]

/-- The steps before the semantic one leave a text to it. -/
theorem reclaimLoop_append {before : List CompressionStepSpec} (hbefore : semanticSteps before = 0)
    (semanticResults : HashMap String) (rest : List CompressionStepSpec) (text : String) :
    (reclaimLoop P counts m target required semanticResults (before ++ rest) text).outcome =
      (reclaimLoop P counts m target required semanticResults rest
        (deterministicRun P counts target required before text)).outcome := by
  induction before generalizing text with
  | nil => rfl
  | cons step before ih =>
      rw [semanticSteps_cons] at hbefore
      have hstep : ¬ isSemanticAlgorithm step.algorithmId = true := by
        intro hsemantic
        rw [if_pos hsemantic] at hbefore
        omega
      rw [List.cons_append, reclaimLoop_cons, deterministicRun, if_neg hstep]
      split
      · rename_i hreached
        rw [reclaimLoop_of_reached hreached]
      · exact ih (by omega) _

variable (P counts m) (chunks : List (PromptChunk F)) (allocation : ℤ)

/-- The text that the steps before the semantic one leave to it. -/
def sourceText (before : List CompressionStepSpec) : String :=
  deterministicRun P counts (reclaimTarget P counts m chunks allocation)
    (requiredTermsOf (elasticChunks m chunks)) before (elasticText (elasticChunks m chunks))

/-- A reclaim that reaches the semantic step of its pipeline, which has providers. -/
structure ReachesStep (before : List CompressionStepSpec) (step : CompressionStepSpec)
    (after : List CompressionStepSpec) : Prop where
  pipeline : m.reclaimPipeline = before ++ step :: after
  deterministic : semanticSteps before = 0
  semantic : isSemanticAlgorithm step.algorithmId = true
  providers : stepProviders step ≠ []
  fits : (counts.countChunks P (protectedChunks m chunks)).val ≤ allocation
  elastic : elasticChunks m chunks ≠ []
  exceeds : reclaimTarget P counts m chunks allocation <
    (counts.countText P (sourceText P counts m chunks allocation before)).val

variable {P counts m chunks allocation}

variable (P counts m chunks allocation) in
/-- The reclaim goes on with the adopted candidate, or it fails because there is no candidate. -/
def Selects (before : List CompressionStepSpec) (step : CompressionStepSpec)
    (after : List CompressionStepSpec) (results : List SemanticResult) : Prop :=
  let target := reclaimTarget P counts m chunks allocation
  let required := requiredTermsOf (elasticChunks m chunks)
  let source := sourceText P counts m chunks allocation before
  (∃ content, Adopted P counts m target required step results source content ∧
    (compressModule P counts m chunks allocation (semanticResultsOf results)).outcome =
      ((reclaimLoop P counts m target required
        (semanticResultsOf results) after content).outcome >>=
        compressedModule P counts m chunks allocation)) ∨
  ((∀ i content, ¬ Candidate P counts m target required step results source i content) ∧
    (compressModule P counts m chunks allocation (semanticResultsOf results)).outcome =
      .error (missingResult m step))

/-- A reclaim that reaches its semantic step selects among the answers. -/
theorem compressModule_selects {before after : List CompressionStepSpec}
    {step : CompressionStepSpec}
    (h : ReachesStep P counts m chunks allocation before step after)
    {results : List SemanticResult}
    (hnodup : (results.map SemanticResult.semanticRequestId).Nodup) :
    Selects P counts m chunks allocation before step after results := by
  have hempty : ¬ (elasticChunks m chunks).isEmpty = true := by
    rw [List.isEmpty_iff]
    exact h.elastic
  have hproviders : ¬ (stepProviders step).isEmpty = true := by
    rw [List.isEmpty_iff]
    exact h.providers
  have hrequests : semanticRequestsForStep P.toLibrary m step
      (sourceText P counts m chunks allocation before) (reclaimTarget P counts m chunks allocation)
      (requiredTermsOf (elasticChunks m chunks)) = .ok ((stepProviders step).map (semanticRequest
        P.toLibrary m step (sourceText P counts m chunks allocation before)
          (reclaimTarget P counts m chunks allocation)
            (requiredTermsOf (elasticChunks m chunks)))) := if_neg hproviders
  obtain ⟨hadopts, hnone⟩ := @semanticStep_adopts F _ P counts _ _ _ _ _ _ hnodup _ hrequests
  rw [Selects, compressModule_outcome, if_neg (not_lt.2 h.fits), if_neg hempty, reclaimPipeline,
    h.pipeline, reclaimLoop_append h.deterministic, reclaimLoop_cons, ← sourceText,
    if_neg (not_le.2 h.exceeds), if_pos h.semantic, hrequests]
  simp only
  generalize hstep : semanticStep P counts (requiredTermsOf (elasticChunks m chunks))
    (semanticResultsOf results) _ (sourceText P counts m chunks allocation before) = adopted
  cases adopted with
  | some content => exact Or.inl ⟨content, (hadopts content).1 hstep, rfl⟩
  | none => exact Or.inr ⟨hnone.1 hstep, rfl⟩

end Reclaim

/-! ### The order of the results -/

section Order

variable {P : Platform} {arena : ContextLeaseArena F}

/-- The results by id do not depend on the order of results with distinct ids. -/
theorem semanticResultsOf_perm {results results' : List SemanticResult} (h : results'.Perm results)
    (hnodup : (results.map SemanticResult.semanticRequestId).Nodup) :
    semanticResultsOf results' = semanticResultsOf results := by
  funext id
  refine Option.ext ?_
  intro content
  rw [semanticResultsOf_eq_some hnodup, semanticResultsOf_eq_some ((h.map _).nodup_iff.2 hnodup),
    h.mem_iff]

/-- A call looks at the results only by their ids. -/
theorem prepareWithResults_congr {results results' : List SemanticResult}
    (h : semanticResultsOf results' = semanticResultsOf results) (env : Env)
    (request : PrepareRequest F) (counter : Option TokenCounter) (s : ArenaState F) :
    prepareWithResults P arena env request results' counter s =
      prepareWithResults P arena env request results counter s := by
  have hdecision : decision P arena request results' counter (safetyMultiplier s request.model) =
      decision P arena request results counter (safetyMultiplier s request.model) := by
    simp only [decision, settle, h]
  rw [prepareWithResults, prepareWithResults, prepareLocked_eq, prepareLocked_eq, hdecision]

/-- The order of results that pass the checks of a commit makes no difference to it: neither to the
plan or the error nor to the state. -/
theorem prepareCommit_perm {env : Env} {request : PrepareRequest F}
    {counter : Option TokenCounter} {s : ArenaState F} {planned : List SemanticRequest}
    (hplanned : planSemanticRequests P arena request counter (safetyMultiplier s request.model) =
      .ok planned) {results results' : List SemanticResult}
    (hchecked : checkResults (planned.map SemanticRequest.semanticRequestId) [] results = .ok ())
    (h : results'.Perm results) :
    prepareCommit P arena env request results' counter s =
      prepareCommit P arena env request results counter s := by
  obtain ⟨hfresh, hexpected⟩ := checkResults_eq_ok.1 hchecked
  have hchecked' : checkResults (planned.map SemanticRequest.semanticRequestId) [] results' =
      .ok () :=
    checkResults_eq_ok.2 ⟨⟨(h.map _).nodup_iff.2 hfresh.1, fun r hr => List.not_mem_nil⟩,
      fun r hr => hexpected r (h.mem_iff.1 hr)⟩
  rw [prepareCommit, prepareCommit, hplanned]
  simp only [hchecked, hchecked']
  exact prepareWithResults_congr (semanticResultsOf_perm h hfresh.1) env request counter s

/-- For results that pass the checks of a commit: a reclaim that reaches its semantic step goes on
with the candidate that is not blank, does not count more than the text of the step, contains every
required term, has the smallest count among all such answers and comes from the first provider
among those with that count, or fails when there is no such answer; and the order of the results
makes no difference to the plan, the error or the state of the commit. -/
theorem semantic_selection (P : Platform) (arena : ContextLeaseArena F) (env : Env)
    (request : PrepareRequest F) (counter : Option TokenCounter) (s : ArenaState F)
    {planned : List SemanticRequest} {results : List SemanticResult}
    (hplanned : planSemanticRequests P arena request counter (safetyMultiplier s request.model) =
      .ok planned)
    (hchecked : checkResults (planned.map SemanticRequest.semanticRequestId) [] results = .ok ()) :
    (∀ (counts : CountContext F) (m : ModuleDefinition F) chunks allocation before step after,
      ReachesStep P counts m chunks allocation before step after →
        Selects P counts m chunks allocation before step after results) ∧
      ∀ results', results'.Perm results →
        prepareCommit P arena env request results' counter s =
          prepareCommit P arena env request results counter s := by
  have hnodup := (checkResults_eq_ok.1 hchecked).1.1
  exact ⟨fun counts m chunks allocation before step after h => compressModule_selects h hnodup,
    fun results' h => prepareCommit_perm hplanned hchecked h⟩

/-- Two providers answer, the second one with less. -/
def portfolioResults : List SemanticResult :=
  match planSemanticRequests (Library.ascii id).release summaryArena longRequest none
      (safetyMultiplier {} longRequest.model) with
  | .ok planned => (planned.map SemanticRequest.semanticRequestId).zipWith SemanticResult.mk
      ["We met on Monday.", "Monday"]
  | .error _ => []

theorem semantic_selection_example :
    ReachesStep (Library.ascii id).release ⟨"regex-estimator-v1", none, 1⟩ summarizedModule
        [pinnedGreeting, talk] 4 [⟨"builtin.text.normalize_whitespace.v1", []⟩]
        ⟨"builtin.semantic.portfolio.v1",
          [("providers", .array [.string "small", .string "large"])]⟩
        [⟨"builtin.text.boundary_truncate.v1", []⟩] ∧
      Selects (Library.ascii id).release ⟨"regex-estimator-v1", none, 1⟩ summarizedModule
        [pinnedGreeting, talk] 4 [⟨"builtin.text.normalize_whitespace.v1", []⟩]
        ⟨"builtin.semantic.portfolio.v1",
          [("providers", .array [.string "small", .string "large"])]⟩
        [⟨"builtin.text.boundary_truncate.v1", []⟩] portfolioResults ∧
      prepareCommit (Library.ascii id).release summaryArena default longRequest
          portfolioResults.reverse none {} =
        prepareCommit (Library.ascii id).release summaryArena default longRequest portfolioResults
          none {} := by
  have hasks : ((planSemanticRequests (Library.ascii id).release summaryArena longRequest none
      (safetyMultiplier {} longRequest.model)).map fun planned =>
        checkResults (planned.map SemanticRequest.semanticRequestId) [] portfolioResults).toOption =
      some (.ok ()) := by decide +kernel
  obtain ⟨planned, hplanned, hchecked⟩ := exists_ok_of_map hasks
  obtain ⟨hselects, hperm⟩ := semantic_selection (Library.ascii id).release summaryArena default
    longRequest none {} hplanned hchecked
  have hreaches : ReachesStep (Library.ascii id).release ⟨"regex-estimator-v1", none, 1⟩
      summarizedModule [pinnedGreeting, talk] 4 [⟨"builtin.text.normalize_whitespace.v1", []⟩]
      ⟨"builtin.semantic.portfolio.v1",
        [("providers", .array [.string "small", .string "large"])]⟩
      [⟨"builtin.text.boundary_truncate.v1", []⟩] :=
    ⟨rfl, rfl, rfl, by decide +kernel, by decide +kernel, by decide +kernel, by decide +kernel⟩
  exact ⟨hreaches, hselects _ _ _ _ _ _ _ hreaches, hperm _ (List.reverse_perm _)⟩

end Order

end ContextLease
