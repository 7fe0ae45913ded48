/-
Other operations between the two phases.

A commit plans its requests again in the state it finds.  The plan depends on that state only
through the multiplier of the model, and only a usage report on a request with the same calibration
key can change it; a host counter is never scaled, so with one nothing can.  A report that moves the
multiplier moves the counts, the targets and with them the ids the commit expects.

Main definitions:

* `LeavesMultiplier`, `Undisturbed` — operations that leave the multiplier of a model as it is.

Main results:

* `Undisturbed.safetyMultiplier_run` — an undisturbed run leaves the multiplier as it is;
* `commit_survives` — a commit after an undisturbed run accepts the answers of its begin;
* `report_breaks_commit` — a report in between makes it reject them.
-/

import ContextLease.Commit
import ContextLease.HostCounter

set_option relaxedAutoImplicit false
set_option autoImplicit false

namespace ContextLease

open MachineNumbers RustText

variable {F : Type} [FloatOps F]

/-! ### Operations that leave the multiplier alone -/

/-- An operation that leaves the multiplier of a model as it is: any but a report on a request with
the calibration key of the model that moves its multiplier. -/
def LeavesMultiplier (model : ModelProfile) (s : ArenaState F) : Op F → Prop
  | .recordUsage _ observation =>
      ∀ recent, s.recentUsage observation.requestId = some recent →
        0 ≤ observation.actualInputTokens → recent.key = calibrationKey model →
        (observe recent observation.actualInputTokens
          (s.calibrations recent.key)).safetyMultiplier = safetyMultiplier s model
  | _ => True

section Runs

variable (P : Platform) (arena : ContextLeaseArena F)

/-- A run whose operations leave the multiplier of a model as it is. -/
def Undisturbed (model : ModelProfile) : ArenaState F → List (Op F) → Prop
  | _, [] => True
  | s, op :: ops => LeavesMultiplier model s op ∧ Undisturbed model (step P arena s op) ops

variable {P arena}

theorem LeavesMultiplier.safetyMultiplier_step {model : ModelProfile} {s : ArenaState F}
    {op : Op F} (h : LeavesMultiplier model s op) :
    safetyMultiplier (step P arena s op) model = safetyMultiplier s model := by
  rcases step_calibrations P arena s op with hsame | ⟨env, observation, recent, rfl, hrecent,
    hactual, hcal⟩
  · rw [safetyMultiplier, hsame]
    rfl
  · by_cases hkey : recent.key = calibrationKey model
    · rw [← h recent hrecent hactual hkey, safetyMultiplier, hcal, hkey, HashMap.insert_self]
    · rw [safetyMultiplier, hcal, HashMap.insert_of_ne _ _ (Ne.symm hkey)]
      rfl

/-- An undisturbed run leaves the multiplier as it is. -/
theorem Undisturbed.safetyMultiplier_run {model : ModelProfile} {s : ArenaState F}
    {ops : List (Op F)} (h : Undisturbed P arena model s ops) :
    safetyMultiplier (run P arena s ops) model = safetyMultiplier s model := by
  induction ops generalizing s with
  | nil => rfl
  | cons op ops ih => exact (ih h.2).trans h.1.safetyMultiplier_step

/-! ### The commit -/

/-- The plan of a request after an undisturbed run, or after any run if a host counter counts. -/
theorem planSemanticRequests_run {request : PrepareRequest F} {counter : Option TokenCounter}
    {s : ArenaState F} {ops : List (Op F)}
    (h : counter.isSome = true ∨ Undisturbed P arena request.model s ops) :
    planSemanticRequests P arena request counter
        (safetyMultiplier (run P arena s ops) request.model) =
      planSemanticRequests P arena request counter (safetyMultiplier s request.model) := by
  rcases h with hcounter | hops
  · exact planSemanticRequests_alike arena (.of_counter P _ hcounter _ _)
  · rw [hops.safetyMultiplier_run]

/-- The answers of a begin are answers of the commit. -/
theorem Answered.run {request : PrepareRequest F} {counter : Option TokenCounter}
    {s : ArenaState F} {ops : List (Op F)}
    (h : counter.isSome = true ∨ Undisturbed P arena request.model s ops)
    {requests : List SemanticRequest} {results : List SemanticResult}
    (hanswered : Answered P ⟨request.model.tokenizerId, counter, safetyMultiplier s request.model⟩
      requests results) :
    Answered P ⟨request.model.tokenizerId, counter,
      safetyMultiplier (ContextLease.run P arena s ops) request.model⟩ requests results := by
  rcases h with hcounter | hops
  · -- a host counter does not look at the multiplier
    obtain ⟨answers, hperm, hanswers⟩ := hanswered
    refine ⟨answers, hperm, hanswers.imp fun q r hqr => ⟨hqr.1, hqr.2.not_blank, ?_, hqr.2.keeps⟩⟩
    rw [(CountContext.Alike.of_counter P _ hcounter _ (safetyMultiplier s request.model)).countText]
    exact hqr.2.fits
  · rwa [hops.safetyMultiplier_run]

/-- After any operations that leave the multiplier of the model as it is, and after any operations
at all if a host counter counts, a commit with one valid answer to each request of its begin is
rejected neither for an unexpected result nor for a missing one. -/
theorem commit_survives {env env' : Env} {request : PrepareRequest F}
    {counter : Option TokenCounter} {s : ArenaState F} {outcome : PrepareBeginOutcome F}
    (hbegin : (prepareBegin P arena env request counter s).1 = .ok outcome)
    (hstatus : outcome.status = "needs_semantic") {ops : List (Op F)}
    (hops : counter.isSome = true ∨ Undisturbed P arena request.model s ops)
    {results : List SemanticResult}
    (hanswered : Answered P ⟨request.model.tokenizerId, counter, safetyMultiplier s request.model⟩
      outcome.semanticRequests results) :
    ¬ RejectedWith (prepareCommit P arena env' request results counter
        (run P arena s ops)).1 "semantic_result_unexpected" ∧
      ¬ RejectedWith (prepareCommit P arena env' request results counter
        (run P arena s ops)).1 "semantic_result_missing_or_invalid" := by
  rcases prepareBegin_cases P arena env request counter s with
    ⟨e, heq⟩ | ⟨plan, s', heq, -⟩ | ⟨requests, -, hplan, heq⟩
  · rw [heq] at hbegin
    cases hbegin
  · rw [heq, Except.ok.injEq] at hbegin
    rw [← hbegin] at hstatus
    simp at hstatus
  · rw [heq, Except.ok.injEq] at hbegin
    rw [← hbegin] at hanswered
    have hcode := fun e (he : (prepareCommit P arena env' request results counter
        (run P arena s ops)).1 = .error e) =>
      Answered.commit_code ((planSemanticRequests_run hops).trans hplan) (hanswered.run hops) he
    exact ⟨fun ⟨e, he, hunexpected⟩ => (hcode e he).1 hunexpected,
      fun ⟨e, he, hmissing⟩ => (hcode e he).2 hmissing⟩

end Runs

/-! ### A report in between -/

section Example

/-- An arena whose history is summarized. -/
def summaryArena : ContextLeaseArena ℚ where
  definition := { arenaId := "notes", modules := [summarizedModule] }
  layoutHash := "layout"
  instanceId := "notes-1-1"
  valid := by decide +kernel

/-- A request with a history. -/
def historyRequest (chunks : List (PromptChunk ℚ)) : PrepareRequest ℚ where
  model := { modelProfileId := "model", contextLimitTokens := 64, reservedOutputTokens := 4 }
  contributions := [{ moduleId := "history", chunks := chunks }]

/-- A greeting that is always kept. -/
def pinnedGreeting : PromptChunk ℚ where
  chunkId := "greeting"
  content := .string "Hi"
  protection := "pinned"
  priority := 1

/-- The greeting and the talk, which outgrow the history. -/
def longRequest : PrepareRequest ℚ := historyRequest [pinnedGreeting, talk]

/-- The state after a short request. -/
def afterShort : ArenaState ℚ :=
  run (Library.ascii id).release summaryArena {}
    [.prepare default (historyRequest [pinnedGreeting]) none]

/-- The begin of the long request. -/
def longBegin : Result (PrepareBeginOutcome ℚ) :=
  (prepareBegin (Library.ascii id).release summaryArena default longRequest none afterShort).1

/-- The host answers every request of the begin. -/
def mondayAnswers : List SemanticResult :=
  match longBegin with
  | .ok outcome => outcome.semanticRequests.map fun q => ⟨q.semanticRequestId, "Monday"⟩
  | .error _ => []

theorem longBegin_asks :
    (longBegin.map fun outcome => (outcome.status, outcome.semanticRequests.map fun q =>
      (q.sourceText, q.requiredTerms))).toOption =
      some ("needs_semantic", [("We met on Monday. Bye now.", ["Monday"]),
        ("We met on Monday. Bye now.", ["Monday"])]) := by
  decide +kernel

/-- The answers are valid for the begin they answer. -/
theorem mondayAnswers_answered {outcome : PrepareBeginOutcome ℚ}
    (hbegin : longBegin = .ok outcome) :
    Answered (Library.ascii id).release
      ⟨longRequest.model.tokenizerId, none, safetyMultiplier afterShort longRequest.model⟩
      outcome.semanticRequests mondayAnswers := by
  have hasks := longBegin_asks
  rw [hbegin] at hasks
  have hfields : outcome.semanticRequests.map (fun q => (q.sourceText, q.requiredTerms)) =
      [("We met on Monday. Bye now.", ["Monday"]), ("We met on Monday. Bye now.", ["Monday"])] :=
    congrArg Prod.snd (Option.some_inj.1 hasks)
  refine ⟨mondayAnswers, List.Perm.refl _, ?_⟩
  rw [mondayAnswers, hbegin]
  simp only [List.forall₂_map_right_iff, List.forall₂_same, true_and]
  intro q hq
  have hmem := List.mem_map_of_mem (f := fun q : SemanticRequest =>
    (q.sourceText, q.requiredTerms)) hq
  rw [hfields] at hmem
  simp only [List.mem_cons, List.not_mem_nil, or_false, or_self, Prod.mk.injEq] at hmem
  refine ⟨by decide, ?_, ?_⟩
  · rw [hmem.1]
    decide +kernel
  · rw [hmem.2]
    simp only [List.forall_mem_singleton]
    exact Occurs.refl _

theorem commit_survives_example :
    ∃ outcome, longBegin = .ok outcome ∧ outcome.status = "needs_semantic" ∧
      ¬ RejectedWith (prepareCommit (Library.ascii id).release summaryArena default longRequest
        mondayAnswers none (run (Library.ascii id).release summaryArena afterShort
          [.prepare default (historyRequest [pinnedGreeting]) none])).1
        "semantic_result_unexpected" ∧
      ¬ RejectedWith (prepareCommit (Library.ascii id).release summaryArena default longRequest
        mondayAnswers none (run (Library.ascii id).release summaryArena afterShort
          [.prepare default (historyRequest [pinnedGreeting]) none])).1
        "semantic_result_missing_or_invalid" := by
  obtain ⟨outcome, hbegin, hfields⟩ := exists_ok_of_map longBegin_asks
  have hstatus := congrArg Prod.fst hfields
  have hops : Undisturbed (Library.ascii id).release summaryArena longRequest.model afterShort
      [.prepare default (historyRequest [pinnedGreeting]) none] := ⟨trivial, trivial⟩
  exact ⟨outcome, hbegin, hstatus,
    commit_survives hbegin hstatus (Or.inr hops) (mondayAnswers_answered hbegin)⟩

/-- A report that twice the estimate was used, between the two phases, makes the commit reject the
answers of its begin. -/
theorem report_breaks_commit :
    Reachable (Library.ascii id).release summaryArena afterShort ∧
    ∃ outcome, longBegin = .ok outcome ∧ outcome.status = "needs_semantic" ∧
      Answered (Library.ascii id).release
        ⟨longRequest.model.tokenizerId, none, safetyMultiplier afterShort longRequest.model⟩
        outcome.semanticRequests mondayAnswers ∧
      RejectedWith (prepareCommit (Library.ascii id).release summaryArena default longRequest
        mondayAnswers none (run (Library.ascii id).release summaryArena afterShort
          [.recordUsage default ⟨"notes:1", 2⟩])).1 "semantic_result_unexpected" := by
  obtain ⟨outcome, hbegin, hfields⟩ := exists_ok_of_map longBegin_asks
  refine ⟨⟨_, rfl⟩, outcome, hbegin, congrArg Prod.fst hfields, mondayAnswers_answered hbegin, ?_⟩
  decide +kernel

end Example

end ContextLease
