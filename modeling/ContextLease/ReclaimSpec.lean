/-
What a reclaim keeps.

Whatever the steps of a pipeline propose, and whatever the host answers, a text that replaces
another one has passed the same test: it keeps every required term.  By induction over the pipeline
no required term is ever lost, and the protected chunks never enter the pipeline at all.

Main results:

* `reclaimLoop_keeps` — a required term that occurs before the pipeline occurs after it;
* `compressModule_ok`, `reclaimModule_ok` — what a successful reclaim returns;
* `compressModule_code`, `reclaimModule_error` — how a reclaim fails;
* `reclaimModule_keeps` — what every contributed chunk leaves in the module's text.
-/

import ContextLease.ArenaSpec

set_option relaxedAutoImplicit false
set_option autoImplicit false

namespace ContextLease

open MachineNumbers RustText

variable {F : Type} [FloatOps F]

section Pipeline

variable {P : Platform} {counts : CountContext F} {m : ModuleDefinition F} {target : ℤ}
  {required : List String} {semanticResults : HashMap String}

/-- An accepted candidate does not grow and keeps every required term. -/
theorem keepsContract_val {text candidate : String} :
    (keepsContract P counts required text candidate).val = true ↔
      (counts.countText P candidate).val ≤ (counts.countText P text).val ∧
        ∀ term ∈ required, Occurs term candidate := by
  simp [keepsContract, List.all_eq_true]

/-- A valid semantic candidate is not blank, does not grow and keeps every required term. -/
theorem validCandidate_val {text candidate : String} :
    (validCandidate P counts required text candidate).val = true ↔
      isBlank candidate = false ∧
        (counts.countText P candidate).val ≤ (counts.countText P text).val ∧
        ∀ term ∈ required, Occurs term candidate := by
  unfold validCandidate
  cases hblank : isBlank candidate with
  | false => simp only [Bool.false_eq_true, if_false, keepsContract_val, true_and]
  | true => simp

/-! ### One step of a pipeline -/

/-- The text after a deterministic step, which is accepted or not. -/
def deterministicStep (P : Platform) (counts : CountContext F) (target : ℤ)
    (required : List String) (step : CompressionStepSpec) (text : String) : String :=
  let candidate := (compressText P counts target step.algorithmId text).val
  if (keepsContract P counts required text candidate).val = true then candidate else text

/-- The valid answers to the requests of a semantic step. -/
def validAnswers (P : Platform) (counts : CountContext F) (required : List String)
    (semanticResults : HashMap String) (requests : List SemanticRequest) (text : String) :
    List String :=
  (requests.filterMap fun q => semanticResults q.semanticRequestId).filter fun candidate =>
    (validCandidate P counts required text candidate).val

/-- The text after a semantic step: the smallest of the valid answers. -/
def semanticStep (P : Platform) (counts : CountContext F) (required : List String)
    (semanticResults : HashMap String) (requests : List SemanticRequest) (text : String) :
    Option String :=
  ((validAnswers P counts required semanticResults requests text).insertionSort fun a b =>
    (counts.countText P a).val ≤ (counts.countText P b).val).head?

/-- The adopted answer is one of the valid ones. -/
theorem semanticStep_mem {requests : List SemanticRequest} {text candidate : String}
    (h : semanticStep P counts required semanticResults requests text = some candidate) :
    candidate ∈ validAnswers P counts required semanticResults requests text :=
  (List.perm_insertionSort _ _).mem_iff.1 (List.mem_of_mem_head? h)

/-- No answer is adopted exactly when none is valid. -/
theorem semanticStep_eq_none {requests : List SemanticRequest} {text : String} :
    semanticStep P counts required semanticResults requests text = none ↔
      validAnswers P counts required semanticResults requests text = [] := by
  rw [semanticStep, List.head?_eq_none_iff]
  constructor
  · intro h
    have hperm := List.perm_insertionSort (fun a b =>
      (counts.countText P a).val ≤ (counts.countText P b).val)
      (validAnswers P counts required semanticResults requests text)
    rw [h] at hperm
    exact hperm.symm.eq_nil
  · intro h
    rw [h]
    rfl

/-- The failure of a semantic step without a valid answer. -/
def missingResult (m : ModuleDefinition F) (step : CompressionStepSpec) : ContextLeaseError :=
  ⟨"semantic_result_missing_or_invalid",
    m.moduleId ++ " requires a valid semantic result for " ++ step.algorithmId⟩

theorem reclaimLoop_cons (step : CompressionStepSpec) (rest : List CompressionStepSpec)
    (text : String) :
    (reclaimLoop P counts m target required semanticResults (step :: rest) text).outcome =
      if (counts.countText P text).val ≤ target then .ok text
      else if isSemanticAlgorithm step.algorithmId then
        match semanticRequestsForStep P.toLibrary m step text target required with
        | .error e => .error e
        | .ok requests =>
            match semanticStep P counts required semanticResults requests text with
            | some candidate =>
                (reclaimLoop P counts m target required semanticResults rest candidate).outcome
            | none => .error (missingResult m step)
      else
        (reclaimLoop P counts m target required semanticResults rest
          (deterministicStep P counts target required step text)).outcome := by
  simp only [reclaimLoop, Checked.outcome_bind, Checked.outcome_liftFlagged,
    Except.ok_bind', Checked.outcome_ite, Checked.outcome_pure, Checked.outcome_liftExcept,
    Flagged.val_filter, Flagged.val_sortByKey]
  refine if_congr Iff.rfl rfl (if_congr Iff.rfl ?_ rfl)
  cases semanticRequestsForStep P.toLibrary m step text target required with
  | error e => rfl
  | ok requests =>
      rw [Except.ok_bind']
      change Checked.outcome
        (match semanticStep P counts required semanticResults requests text with
        | some candidate => reclaimLoop P counts m target required semanticResults rest candidate
        | none => throw (missingResult m step)) = _
      dsimp only
      cases semanticStep P counts required semanticResults requests text <;> rfl

theorem collectLoop_cons (step : CompressionStepSpec) (rest : List CompressionStepSpec)
    (text : String) :
    (collectLoop P counts m target required (step :: rest) text).outcome =
      if (counts.countText P text).val ≤ target then .ok []
      else if isSemanticAlgorithm step.algorithmId then
        semanticRequestsForStep P.toLibrary m step text target required
      else
        (collectLoop P counts m target required rest
          (deterministicStep P counts target required step text)).outcome := by
  simp only [collectLoop, Checked.outcome_bind, Checked.outcome_liftFlagged,
    Except.ok_bind', Checked.outcome_ite, Checked.outcome_pure, Checked.outcome_liftExcept]
  rfl

/-- A deterministic step keeps every required term, whether its candidate is accepted or not. -/
theorem deterministicStep_keeps {step : CompressionStepSpec} {text term : String}
    (hterm : term ∈ required) (h : Occurs term text) :
    Occurs term (deterministicStep P counts target required step text) := by
  simp only [deterministicStep]
  split
  · rename_i haccepted
    exact (keepsContract_val.1 haccepted).2 term hterm
  · exact h

/-- A required term that occurs before the pipeline occurs after it: by induction over the steps,
whether they are accepted, rejected or skipped. -/
theorem reclaimLoop_keeps {steps : List CompressionStepSpec} {text text' : String}
    (h : (reclaimLoop P counts m target required semanticResults steps text).outcome = .ok text')
    {term : String} (hterm : term ∈ required) (hoccurs : Occurs term text) :
    Occurs term text' := by
  induction steps generalizing text with
  | nil =>
      simp only [reclaimLoop, Checked.outcome_pure, Except.ok.injEq] at h
      rwa [← h]
  | cons step rest ih =>
      rw [reclaimLoop_cons] at h
      split at h
      · rw [Except.ok.injEq] at h
        rwa [← h]
      · split at h
        · split at h
          · cases h
          · split at h
            · rename_i candidate hstep
              refine ih h ?_
              have hmem := semanticStep_mem hstep
              rw [validAnswers, List.mem_filter] at hmem
              exact (validCandidate_val.1 hmem.2).2.2 term hterm
            · cases h
        · exact ih h (deterministicStep_keeps hterm hoccurs)

/-- A pipeline fails at its semantic step. -/
theorem reclaimLoop_code {steps : List CompressionStepSpec} {text : String}
    {e : ContextLeaseError}
    (h : (reclaimLoop P counts m target required semanticResults steps text).outcome =
      .error e) :
    e.code = "configuration_error" ∨ e.code = "semantic_result_missing_or_invalid" := by
  induction steps generalizing text with
  | nil => cases h
  | cons step rest ih =>
      rw [reclaimLoop_cons] at h
      split at h
      · cases h
      · split at h
        · split at h
          · rename_i e' hrequests
            rw [Except.error.injEq] at h
            subst h
            simp only [semanticRequestsForStep] at hrequests
            split at hrequests
            · rw [fail, Except.error.injEq] at hrequests
              exact Or.inl (by rw [← hrequests])
            · cases hrequests
          · split at h
            · exact ih h
            · rw [Except.error.injEq] at h
              exact Or.inr (by rw [← h]; rfl)
        · exact ih h

end Pipeline

/-! ### The reclaim of a module -/

section Reclaim

variable {P : Platform} {counts : CountContext F} {m : ModuleDefinition F}
  {chunks : List (PromptChunk F)} {allocation : ℤ} {semanticResults : HashMap String}

/-- What the pipeline of a module has to reach. -/
def reclaimTarget (P : Platform) (counts : CountContext F) (m : ModuleDefinition F)
    (chunks : List (PromptChunk F)) (allocation : ℤ) : ℤ :=
  P.arith.sub allocation (counts.countChunks P (protectedChunks m chunks)).val

/-- The pipeline of a module, with the answers of the host. -/
def reclaimPipeline (P : Platform) (counts : CountContext F) (m : ModuleDefinition F)
    (chunks : List (PromptChunk F)) (allocation : ℤ) (semanticResults : HashMap String) :
    Result String :=
  (reclaimLoop P counts m (reclaimTarget P counts m chunks allocation)
    (requiredTermsOf (elasticChunks m chunks)) semanticResults m.reclaimPipeline
    (elasticText (elasticChunks m chunks))).outcome

/-- What `compress_module` returns for the text of its pipeline. -/
def compressedModule (P : Platform) (counts : CountContext F) (m : ModuleDefinition F)
    (chunks : List (PromptChunk F)) (allocation : ℤ) (text : String) :
    Result (List (PromptChunk F) × ℤ) :=
  if (counts.countText P text).val > reclaimTarget P counts m chunks allocation then
    .error ⟨"admission_error", m.moduleId ++ " reclaim target unmet"⟩
  else
    .ok (protectedChunks m chunks ++ [compressedChunk m (elasticChunks m chunks) text],
      P.arith.add (counts.countChunks P (protectedChunks m chunks)).val
        (counts.countText P text).val)

variable (P counts m chunks allocation) in
theorem compressModule_outcome (semanticResults : HashMap String) :
    (compressModule P counts m chunks allocation semanticResults).outcome =
      if (counts.countChunks P (protectedChunks m chunks)).val > allocation then
        .error ⟨"admission_error", m.moduleId ++ " pinned content exceeds allocation"⟩
      else if (elasticChunks m chunks).isEmpty then
        .error ⟨"admission_error", m.moduleId ++ " has no elastic content"⟩
      else
        reclaimPipeline P counts m chunks allocation semanticResults >>=
          compressedModule P counts m chunks allocation := by
  simp only [compressModule, Checked.outcome_bind, Checked.outcome_liftFlagged, Except.ok_bind',
    Checked.outcome_ite, Checked.outcome_throw, Checked.outcome_pure]
  rfl

variable (P counts m chunks allocation) in
theorem collectSemanticRequests_outcome :
    (collectSemanticRequests P counts m chunks allocation).outcome =
      if (counts.countChunks P (protectedChunks m chunks)).val > allocation then
        .error ⟨"admission_error", m.moduleId ++ " protected content exceeds allocation"⟩
      else if (elasticChunks m chunks).isEmpty then .ok []
      else
        (collectLoop P counts m (reclaimTarget P counts m chunks allocation)
          (requiredTermsOf (elasticChunks m chunks)) m.reclaimPipeline
          (elasticText (elasticChunks m chunks))).outcome := by
  simp only [collectSemanticRequests, Checked.outcome_bind, Checked.outcome_liftFlagged,
    Except.ok_bind', Checked.outcome_ite, Checked.outcome_throw, Checked.outcome_pure]
  rfl

/-- A successful reclaim returns the protected chunks and one chunk with the text of the
pipeline. -/
theorem compressModule_ok {chunks' : List (PromptChunk F)} {used : ℤ}
    (h : (compressModule P counts m chunks allocation semanticResults).outcome =
      .ok (chunks', used)) :
    elasticChunks m chunks ≠ [] ∧
      ∃ text, reclaimPipeline P counts m chunks allocation semanticResults = .ok text ∧
        (counts.countText P text).val ≤ reclaimTarget P counts m chunks allocation ∧
        chunks' = protectedChunks m chunks ++ [compressedChunk m (elasticChunks m chunks) text] ∧
        used = P.arith.add (counts.countChunks P (protectedChunks m chunks)).val
          (counts.countText P text).val := by
  rw [compressModule_outcome] at h
  split at h
  · cases h
  · split at h
    · cases h
    · rename_i hempty
      rw [Except.bind_eq_ok] at h
      obtain ⟨text, htext, h⟩ := h
      rw [compressedModule] at h
      split at h
      · cases h
      · rename_i hfits
        rw [Except.ok.injEq, Prod.mk.injEq] at h
        refine ⟨by simpa using hempty, text, htext, not_lt.1 hfits, h.1.symm, h.2.symm⟩

/-- How a reclaim fails. -/
theorem compressModule_code {e : ContextLeaseError}
    (h : (compressModule P counts m chunks allocation semanticResults).outcome = .error e) :
    e.code = "admission_error" ∨ e.code = "configuration_error" ∨
      e.code = "semantic_result_missing_or_invalid" := by
  rw [compressModule_outcome] at h
  split at h
  · rw [Except.error.injEq] at h
    exact Or.inl (by rw [← h])
  · split at h
    · rw [Except.error.injEq] at h
      exact Or.inl (by rw [← h])
    · rw [Except.bind_eq_error] at h
      rcases h with h | ⟨text, -, h⟩
      · exact Or.inr (reclaimLoop_code h)
      · rw [compressedModule] at h
        split at h
        · rw [Except.error.injEq] at h
          exact Or.inl (by rw [← h])
        · cases h

/-- How a module ends: within its allocation with all its chunks, or reclaimed. -/
theorem reclaimModule_ok {contributions : HashMap (ModuleContribution F)}
    {allocations : List ModuleAllocation} {r : Reclaimed F}
    (h : (reclaimModule P counts contributions allocations semanticResults m).outcome = .ok r) :
    r.before = (counts.countChunks P (chunksOf contributions m)).val ∧
      (r.before ≤ (allocationOf allocations m).allocatedTokens ∧
          r.chunks = chunksOf contributions m ∧ r.after = r.before ∨
        (allocationOf allocations m).allocatedTokens < r.before ∧
          (compressModule P counts m (chunksOf contributions m)
            (allocationOf allocations m).allocatedTokens semanticResults).outcome =
              .ok (r.chunks, r.after)) := by
  simp only [reclaimModule, Checked.outcome_bind, Checked.outcome_liftFlagged, Except.ok_bind',
    Checked.outcome_ite, Checked.outcome_pure] at h
  split at h
  · rename_i hover
    rw [Except.bind_eq_ok] at h
    obtain ⟨⟨chunks, after⟩, hcompress, h⟩ := h
    rw [Except.ok.injEq] at h
    subst h
    exact ⟨rfl, Or.inr ⟨hover, hcompress⟩⟩
  · rename_i hfits
    rw [Except.ok.injEq] at h
    subst h
    exact ⟨rfl, Or.inl ⟨not_lt.1 hfits, rfl, rfl⟩⟩

/-- A module within its allocation keeps its chunks. -/
theorem reclaimModule_of_fits {contributions : HashMap (ModuleContribution F)}
    {allocations : List ModuleAllocation}
    (h : (counts.countChunks P (chunksOf contributions m)).val ≤
      (allocationOf allocations m).allocatedTokens) :
    (reclaimModule P counts contributions allocations semanticResults m).outcome =
      .ok ⟨chunksOf contributions m, (counts.countChunks P (chunksOf contributions m)).val,
        (counts.countChunks P (chunksOf contributions m)).val⟩ := by
  simp only [reclaimModule, Checked.outcome_bind, Checked.outcome_liftFlagged, Except.ok_bind',
    Checked.outcome_ite, Checked.outcome_pure]
  rw [if_neg (not_lt.2 h)]

/-- A module fails when its reclaim does. -/
theorem reclaimModule_error {contributions : HashMap (ModuleContribution F)}
    {allocations : List ModuleAllocation} {e : ContextLeaseError}
    (h : (reclaimModule P counts contributions allocations semanticResults m).outcome =
      .error e) :
    (allocationOf allocations m).allocatedTokens <
        (counts.countChunks P (chunksOf contributions m)).val ∧
      (compressModule P counts m (chunksOf contributions m)
        (allocationOf allocations m).allocatedTokens semanticResults).outcome = .error e := by
  simp only [reclaimModule, Checked.outcome_bind, Checked.outcome_liftFlagged, Except.ok_bind',
    Checked.outcome_ite, Checked.outcome_pure] at h
  split at h
  · rename_i hover
    rw [Except.bind_eq_error] at h
    rcases h with h | ⟨_, -, h⟩
    · exact ⟨hover, h⟩
    · cases h
  · cases h

omit [FloatOps F] in
/-- A chunk is protected or handed to the pipeline. -/
theorem mem_protected_or_elastic {c : PromptChunk F} (hc : c ∈ chunks) :
    c ∈ protectedChunks m chunks ∨ c ∈ elasticChunks m chunks := by
  cases h : isProtected m c with
  | true => exact Or.inl (List.mem_filter.2 ⟨hc, h⟩)
  | false => exact Or.inr (List.mem_filter.2 ⟨hc, by rw [h]; rfl⟩)

omit [FloatOps F] in
/-- What occurs in a chunk occurs in the text of its module. -/
theorem occurs_renderModule {c : PromptChunk F} (hc : c ∈ chunks) {t : String}
    (h : Occurs t (render c.content)) : Occurs t (renderModule chunks) :=
  occurs_intercalate_nonempty _ (List.mem_map_of_mem hc) h

/-- A required term of a contributed chunk that occurs in it occurs in the text of its module. -/
theorem reclaimModule_keeps {contributions : HashMap (ModuleContribution F)}
    {allocations : List ModuleAllocation} {r : Reclaimed F}
    (h : (reclaimModule P counts contributions allocations semanticResults m).outcome = .ok r)
    {c : PromptChunk F} (hc : c ∈ chunksOf contributions m) {term : String}
    (hterm : term ∈ c.requiredTerms) (hoccurs : Occurs term (render c.content)) :
    Occurs term (renderModule r.chunks) := by
  rcases (reclaimModule_ok h).2 with ⟨-, hchunks, -⟩ | ⟨-, hcompress⟩
  · rw [hchunks]
    exact occurs_renderModule hc hoccurs
  · obtain ⟨-, text, htext, -, hchunks, -⟩ := compressModule_ok hcompress
    rw [hchunks]
    rcases mem_protected_or_elastic hc with hprotected | helastic
    · exact occurs_renderModule (List.mem_append_left _ hprotected) hoccurs
    · refine occurs_renderModule (List.mem_append_right _ (List.mem_singleton.2 rfl)) ?_
      refine reclaimLoop_keeps htext ?_ ?_
      · rw [requiredTermsOf, mem_btreeSet, List.mem_flatMap]
        exact ⟨c, helastic, hterm⟩
      · exact hoccurs.trans (occurs_intercalate _ (List.mem_map_of_mem helastic))

end Reclaim

end ContextLease
