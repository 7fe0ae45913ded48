/-
How a commit can fail.

`prepare_commit` plans the requests again, checks the ids of the results against them and then
prepares the request with the results.  The ways this can fail are listed once; what is known of
the results in each of them is what the guarantees about the two phases start from.

Main definitions:

* `Answered` — results that answer every request once, each with a content the request accepts.

Main results:

* `planSemanticRequests_ok` — the planned requests, module by module;
* `checkResults_cases`, `semanticResultsOf_apply` — the results a commit accepts;
* `prepareCommit_error` — how a commit fails;
* `Answered.commit_code` — a commit whose plan is the one that was answered misses nothing.
-/

import ContextLease.TwoPhase

set_option relaxedAutoImplicit false
set_option autoImplicit false

namespace ContextLease

open MachineNumbers RustText

variable {F : Type} [FloatOps F]

/-! ### The plan -/

section Plan

variable {P : Platform} {counts : CountContext F}
  {contributions : HashMap (ModuleContribution F)} {allocations : List ModuleAllocation}

theorem planModule_outcome (m : ModuleDefinition F) :
    (planModule P counts contributions allocations m).outcome =
      if (counts.countChunks P (chunksOf contributions m)).val >
          (allocationOf allocations m).allocatedTokens then
        (collectSemanticRequests P counts m (chunksOf contributions m)
          (allocationOf allocations m).allocatedTokens).outcome
      else .ok [] := by
  simp only [planModule, Checked.outcome_bind, Checked.outcome_liftFlagged, Except.ok_bind',
    Checked.outcome_ite, Checked.outcome_pure]

/-- The plan of the modules, one after the other. -/
theorem planLoop_ok {ms : List (ModuleDefinition F)} {requests : List SemanticRequest}
    (h : (planLoop P counts contributions allocations ms).outcome = .ok requests) :
    ∃ parts : List (List SemanticRequest),
      List.Forall₂ (fun m part =>
        (planModule P counts contributions allocations m).outcome = .ok part) ms parts ∧
      requests = parts.flatten := by
  induction ms generalizing requests with
  | nil =>
      simp only [planLoop, Checked.outcome_pure, Except.ok.injEq] at h
      exact ⟨[], .nil, h.symm⟩
  | cons m ms ih =>
      simp only [planLoop, Checked.outcome_bind, Checked.outcome_pure, Except.bind_eq_ok,
        Except.ok.injEq] at h
      obtain ⟨part, hpart, rest, hrest, rfl⟩ := h
      obtain ⟨parts, hparts, rfl⟩ := ih hrest
      exact ⟨part :: parts, .cons hpart hparts, rfl⟩

/-- The planned requests, module by module. -/
theorem planSemanticRequests_ok {arena : ContextLeaseArena F} {request : PrepareRequest F}
    {counter : Option TokenCounter} {multiplier : F} {requests : List SemanticRequest}
    (h : planSemanticRequests P arena request counter multiplier = .ok requests) :
    ∃ a parts, Admitted P arena request counter multiplier a ∧
      List.Forall₂ (fun m part =>
        (planModule P a.counts a.contributions a.allocations m).outcome = .ok part)
        (orderedModules arena.definition) parts ∧
      requests = parts.flatten := by
  have hok := (ensureValid_eq_ok.1 h).1
  rw [Checked.outcome_bind, Except.bind_eq_ok] at hok
  obtain ⟨a, hadmitted, hloop⟩ := hok
  obtain ⟨parts, hparts, hrequests⟩ := planLoop_ok hloop
  exact ⟨a, parts, admit_ok.1 hadmitted, hparts, hrequests⟩

end Plan

/-! ### The results -/

/-- Results with distinct ids, none of which has been seen. -/
def FreshResults (seen : List String) (results : List SemanticResult) : Prop :=
  (results.map SemanticResult.semanticRequestId).Nodup ∧
    ∀ r ∈ results, r.semanticRequestId ∉ seen

theorem freshResults_cons {seen : List String} {r : SemanticResult}
    {results : List SemanticResult} :
    FreshResults seen (r :: results) ↔
      r.semanticRequestId ∉ seen ∧ FreshResults (r.semanticRequestId :: seen) results := by
  simp only [FreshResults, List.map_cons, List.nodup_cons, List.mem_map, not_exists, not_and,
    List.mem_cons, not_or, forall_eq_or_imp, forall₂_and]
  tauto

/-- The loop over the results accepts fresh results with expected ids, or it fails at a repeated id
or at one that is not expected. -/
theorem checkResults_cases (expected seen : List String) (results : List SemanticResult) :
    (checkResults expected seen results = .ok () ∧ FreshResults seen results) ∨
    (∃ e, checkResults expected seen results = .error e ∧ e.code = "semantic_result_duplicate" ∧
      ¬ FreshResults seen results) ∨
    ∃ e, checkResults expected seen results = .error e ∧ e.code = "semantic_result_unexpected" ∧
      ∃ r ∈ results, r.semanticRequestId ∉ expected := by
  induction results generalizing seen with
  | nil => exact Or.inl ⟨rfl, List.nodup_nil, fun r hr => absurd hr List.not_mem_nil⟩
  | cons r results ih =>
      rw [checkResults, freshResults_cons]
      by_cases hseen : r.semanticRequestId ∈ seen
      · right
        left
        rw [List.contains_iff_mem.2 hseen]
        exact ⟨_, rfl, rfl, fun h => h.1 hseen⟩
      · rw [Bool.eq_false_iff.2 (mt List.contains_iff_mem.1 hseen)]
        by_cases hexpected : r.semanticRequestId ∈ expected
        · rw [List.contains_iff_mem.2 hexpected]
          rcases ih (r.semanticRequestId :: seen) with ⟨hok, hfresh⟩ | ⟨e, he, hcode, hfresh⟩ |
            ⟨e, he, hcode, r', hr', hnot⟩
          · exact Or.inl ⟨hok, hseen, hfresh⟩
          · exact Or.inr (Or.inl ⟨e, he, hcode, fun h => hfresh h.2⟩)
          · exact Or.inr (Or.inr ⟨e, he, hcode, r', List.mem_cons_of_mem _ hr', hnot⟩)
        · right
          right
          rw [Bool.eq_false_iff.2 (mt List.contains_iff_mem.1 hexpected)]
          exact ⟨_, rfl, rfl, r, List.mem_cons_self .., hexpected⟩

/-- Exactly the fresh results with expected ids are accepted. -/
theorem checkResults_eq_ok {expected seen : List String} {results : List SemanticResult} :
    checkResults expected seen results = .ok () ↔
      FreshResults seen results ∧ ∀ r ∈ results, r.semanticRequestId ∈ expected := by
  induction results generalizing seen with
  | nil =>
      exact ⟨fun _ => ⟨⟨List.nodup_nil, fun r hr => absurd hr List.not_mem_nil⟩,
        fun r hr => absurd hr List.not_mem_nil⟩, fun _ => rfl⟩
  | cons r results ih =>
      rw [checkResults, freshResults_cons, List.forall_mem_cons]
      simp only [Except.bind_eq_ok, rejectIf_eq_ok, exists_const, ih, ← Bool.not_eq_true,
        List.contains_iff_mem, Bool.not_eq_eq_eq_not, Bool.not_true]
      tauto

/-- The loop over the results keeps what it does not mention and takes what it does. -/
theorem foldl_insert_results {l : List SemanticResult} (map : HashMap String)
    (hnodup : (l.map SemanticResult.semanticRequestId).Nodup) :
    (∀ id, id ∉ l.map SemanticResult.semanticRequestId →
      l.foldl (fun map r => map.insert r.semanticRequestId r.content) map id = map id) ∧
    ∀ r ∈ l, l.foldl (fun map r => map.insert r.semanticRequestId r.content) map
      r.semanticRequestId = some r.content := by
  induction l generalizing map with
  | nil => exact ⟨fun _ _ => rfl, fun r hr => absurd hr List.not_mem_nil⟩
  | cons r l ih =>
      rw [List.map_cons, List.nodup_cons] at hnodup
      obtain ⟨hother, hmem⟩ := ih (map.insert r.semanticRequestId r.content) hnodup.2
      refine ⟨?_, ?_⟩
      · intro id hid
        rw [List.map_cons, List.mem_cons, not_or] at hid
        rw [List.foldl_cons, hother id hid.2, HashMap.insert_of_ne _ _ hid.1]
      · intro r' hr'
        rcases List.mem_cons.1 hr' with rfl | hr'
        · rw [List.foldl_cons, hother _ hnodup.1, HashMap.insert_self]
        · exact hmem r' hr'

/-- The content of a result, by its id. -/
theorem semanticResultsOf_apply {results : List SemanticResult}
    (h : (results.map SemanticResult.semanticRequestId).Nodup) {r : SemanticResult}
    (hr : r ∈ results) : semanticResultsOf results r.semanticRequestId = some r.content :=
  (foldl_insert_results HashMap.empty h).2 r hr

/-- The results by id hold the results and nothing else. -/
theorem semanticResultsOf_eq_some {results : List SemanticResult}
    (h : (results.map SemanticResult.semanticRequestId).Nodup) {id content : String} :
    semanticResultsOf results id = some content ↔ ⟨id, content⟩ ∈ results := by
  constructor
  · intro hsome
    by_cases hmem : id ∈ results.map SemanticResult.semanticRequestId
    · obtain ⟨r, hr, rfl⟩ := List.mem_map.1 hmem
      rw [semanticResultsOf_apply h hr, Option.some_inj] at hsome
      rwa [← hsome]
    · rw [semanticResultsOf, (foldl_insert_results HashMap.empty h).1 id hmem] at hsome
      cases hsome
  · exact fun hr => semanticResultsOf_apply h hr

/-! ### How a commit fails -/

/-- A call is rejected with a code. -/
def RejectedWith {α : Type} (r : Result α) (code : String) : Prop :=
  ∃ e, r = .error e ∧ e.code = code

instance {α : Type} (code : String) : (r : Result α) → Decidable (RejectedWith r code)
  | .ok _ => isFalse fun ⟨_, h, _⟩ => by cases h
  | .error e => decidable_of_iff (e.code = code)
      ⟨fun h => ⟨e, rfl, h⟩, fun ⟨_, h, hcode⟩ => by cases h; exact hcode⟩

section Failure

variable {P : Platform} {arena : ContextLeaseArena F} {env : Env} {request : PrepareRequest F}
  {results : List SemanticResult} {counter : Option TokenCounter}

/-- A module loop fails with the failure of one of its modules. -/
theorem moduleLoop_error {requestId : String} {counts : CountContext F}
    {contributions : HashMap (ModuleContribution F)} {allocations : List ModuleAllocation}
    {semanticResults : HashMap String} {ms : List (ModuleDefinition F)} {tx : Transaction F}
    {e : ContextLeaseError}
    (h : (moduleLoop P arena env requestId counts contributions allocations semanticResults ms
      tx).outcome = .error e) :
    ∃ m ∈ ms, (reclaimModule P counts contributions allocations semanticResults m).outcome =
      .error e := by
  induction ms generalizing tx with
  | nil => simp [moduleLoop] at h
  | cons m ms ih =>
      simp only [moduleLoop, Checked.outcome_bind, Checked.outcome_liftFlagged,
        Except.bind_eq_error] at h
      rcases h with h | ⟨r, -, h | ⟨tx', -, h⟩⟩
      · exact ⟨m, List.mem_cons_self .., h⟩
      · cases h
      · obtain ⟨m', hm', h⟩ := ih h
        exact ⟨m', List.mem_cons_of_mem _ hm', h⟩

/-- A transaction fails with the failure of a module, or because the prompt does not fit. -/
theorem transact_error {admission : Admission F} {state : ArenaState F} {e : ContextLeaseError}
    (h : (transact P arena env request results admission state).outcome = .error e) :
    (∃ m ∈ arena.definition.modules, (reclaimModule P admission.counts admission.contributions
      admission.allocations (semanticResultsOf results) m).outcome = .error e) ∨
      e.code = "admission_error" ∧ ∃ rs, List.Forall₂ (fun m r =>
        (reclaimModule P admission.counts admission.contributions admission.allocations
          (semanticResultsOf results) m).outcome = .ok r) (orderedModules arena.definition) rs ∧
        P.arith.sub admission.inputBudget arena.definition.frameworkReserveTokens <
          (admission.counts.countText P (joinedText rs)).val := by
  simp only [transact, Checked.outcome_bind, Checked.outcome_liftFlagged,
    Except.bind_eq_error] at h
  rcases h with h | ⟨tx, hloop, h | ⟨_, ⟨⟩, h⟩⟩
  · obtain ⟨m, hm, h⟩ := moduleLoop_error h
    exact Or.inl ⟨m, mem_orderedModules.1 hm, h⟩
  · cases h
  · right
    split at h
    · rename_i hover
      rw [Checked.outcome_throw, Except.error.injEq] at h
      obtain ⟨rs, hreclaimed, -, hfinal, -⟩ := moduleLoop_ok P arena env _ _ _ _ _
        (orderedModules_nodup arena.validDefinition.ids_nodup) hloop
      refine ⟨by rw [← h], rs, hreclaimed, ?_⟩
      rwa [← renderedText_eq hfinal]
    · simp only [Checked.outcome_bind, Checked.outcome_liftFlagged, Checked.outcome_pure,
        Except.ok_bind'] at h
      cases h

/-- How a commit fails whose plan succeeds: a repeated id, an unexpected id, or a failure of the
preparation with expected results. -/
theorem prepareCommit_error {s : ArenaState F} {requests : List SemanticRequest}
    {a : Admission F} {e : ContextLeaseError}
    (hplan : planSemanticRequests P arena request counter (safetyMultiplier s request.model) =
      .ok requests)
    (ha : Admitted P arena request counter (safetyMultiplier s request.model) a)
    (h : (prepareCommit P arena env request results counter s).1 = .error e) :
    (e.code = "semantic_result_duplicate" ∧
      ¬ (results.map SemanticResult.semanticRequestId).Nodup) ∨
    (e.code = "semantic_result_unexpected" ∧
      ∃ r ∈ results, r.semanticRequestId ∉ requests.map SemanticRequest.semanticRequestId) ∨
    ((results.map SemanticResult.semanticRequestId).Nodup ∧
      ((∃ m ∈ arena.definition.modules, (reclaimModule P a.counts a.contributions a.allocations
          (semanticResultsOf results) m).outcome = .error e) ∨
        e.code = "admission_error" ∨ e.code = "tokenizer_callback_failed")) := by
  simp only [prepareCommit, hplan] at h
  rcases checkResults_cases (requests.map SemanticRequest.semanticRequestId) [] results with
    ⟨hok, hfresh⟩ | ⟨e', he', hcode, hfresh⟩ | ⟨e', he', hcode, r, hr, hnot⟩
  · -- the results are checked, so the preparation fails
    rw [hok] at h
    simp only [prepareWithResults, prepareLocked] at h
    split at h
    · cases h
    · rename_i e' hinvalid
      rw [Except.error.injEq] at h
      subst h
      refine Or.inr (Or.inr ⟨hfresh.1, ?_⟩)
      rw [ensureValid, Checked.outcome_bind, admit_ok.2 ha, Except.ok_bind'] at hinvalid
      split at hinvalid
      · split at hinvalid
        · rw [fail, Except.error.injEq] at hinvalid
          exact Or.inr (Or.inr (by rw [← hinvalid]))
        · cases hinvalid
      · rename_i htransact
        rw [Except.error.injEq] at hinvalid
        subst hinvalid
        rcases transact_error htransact with hmodule | ⟨hcode, -⟩
        · exact Or.inl hmodule
        · exact Or.inr (Or.inl hcode)
  · rw [he'] at h
    cases h
    exact Or.inl ⟨hcode, fun hnodup => hfresh ⟨hnodup, fun _ _ => List.not_mem_nil⟩⟩
  · rw [he'] at h
    cases h
    exact Or.inr (Or.inl ⟨hcode, r, hr, hnot⟩)

/-! ### A commit with the answers it asked for -/

/-- Results that answer every request once, in any order, each with a content the request
accepts. -/
def Answered (P : Platform) (counts : CountContext F) (requests : List SemanticRequest)
    (results : List SemanticResult) : Prop :=
  ∃ answers, results.Perm answers ∧
    List.Forall₂ (fun q r => r.semanticRequestId = q.semanticRequestId ∧
      ValidResult P counts q r.content) requests answers

theorem Answered.ids_perm {counts : CountContext F} {requests : List SemanticRequest}
    (h : Answered P counts requests results) :
    (results.map SemanticResult.semanticRequestId).Perm
      (requests.map SemanticRequest.semanticRequestId) := by
  obtain ⟨answers, hperm, hanswers⟩ := h
  rw [map_eq_of_forall₂ hanswers fun q r hqr => hqr.1.symm]
  exact hperm.map _

/-- Every request finds an answer it accepts. -/
theorem Answered.lookup {counts : CountContext F} {requests : List SemanticRequest}
    (h : Answered P counts requests results)
    (hnodup : (results.map SemanticResult.semanticRequestId).Nodup) {q : SemanticRequest}
    (hq : q ∈ requests) :
    ∃ content, semanticResultsOf results q.semanticRequestId = some content ∧
      ValidResult P counts q content := by
  obtain ⟨answers, hperm, hanswers⟩ := h
  obtain ⟨r, hr, hid, hvalid⟩ := exists_of_forall₂ hanswers hq
  exact ⟨r.content, hid ▸ semanticResultsOf_apply hnodup (hperm.mem_iff.2 hr), hvalid⟩

/-- A commit whose plan is the one that was answered misses nothing. -/
theorem Answered.commit_code {s : ArenaState F} {requests : List SemanticRequest}
    (hplan : planSemanticRequests P arena request counter (safetyMultiplier s request.model) =
      .ok requests)
    (hanswered : Answered P ⟨request.model.tokenizerId, counter, safetyMultiplier s request.model⟩
      requests results) {e : ContextLeaseError}
    (h : (prepareCommit P arena env request results counter s).1 = .error e) :
    e.code ≠ "semantic_result_unexpected" ∧ e.code ≠ "semantic_result_missing_or_invalid" := by
  obtain ⟨a, parts, ha, hparts, rfl⟩ := planSemanticRequests_ok hplan
  rcases prepareCommit_error hplan ha h with ⟨hcode, -⟩ | ⟨-, r, hr, hnot⟩ |
    ⟨hnodup, ⟨m, hm, hmodule⟩ | hcode | hcode⟩
  · rw [hcode]
    decide
  · exact absurd (hanswered.ids_perm.mem_iff.1 (List.mem_map_of_mem hr)) hnot
  · -- a module that was planned reclaims along the path of its plan
    obtain ⟨part, hpart, hasked⟩ := exists_of_forall₂ hparts (mem_orderedModules.2 hm)
    obtain ⟨hover, hcompress⟩ := reclaimModule_error hmodule
    rw [planModule_outcome, if_pos hover] at hasked
    have hpath := samePath_of_valid P a.counts (arena.validDefinition.valid m hm)
      (chunksOf a.contributions m) (allocationOf a.allocations m).allocatedTokens
    have hmissing : e.code ≠ "semantic_result_missing_or_invalid" := by
      cases part with
      | nil => exact (hpath.ready hasked).1 _ e hcompress
      | cons q part =>
          intro hcode
          refine ((hpath.asks _ hasked (List.cons_ne_nil q part)).2 _).1 ⟨e, hcompress, hcode⟩ ?_
          obtain ⟨content, hcontent, hvalid⟩ := hanswered.lookup hnodup
            (List.mem_flatten.2 ⟨_, hpart, List.mem_cons_self ..⟩)
          exact ⟨q, List.mem_cons_self .., content, hcontent, ha.counts ▸ hvalid⟩
    refine ⟨?_, hmissing⟩
    rcases compressModule_code hcompress with hcode | hcode | hcode
    · rw [hcode]
      decide
    · rw [hcode]
      decide
    · exact absurd hcode hmissing
  · rw [hcode]
    decide
  · rw [hcode]
    decide

end Failure

end ContextLease
