/-
What a pipeline says it has applied.

A candidate that drops a required term or grows is not taken: the step leaves the content as it is.
Its result is still a result that has not grown, so the pipeline counts the step among the applied
ones, and calls the whole result lossy if the step is.  The report of a pipeline is true exactly
when no candidate is refused in this way.

A candidate is judged beside the content as the function leaves it, so nothing is asked here of what
the functions do to it.

Main definitions:

* `Fate`, `fates` — what becomes of the steps of a pipeline;
* `TruthfulReport` — the report of a pipeline tells the adopted steps.

Main results:

* `executeLoop_report` — what the loop reports;
* `truthful_report_iff` — which reports are true.
-/

import ContextLease.HostPipeline

set_option relaxedAutoImplicit false
set_option autoImplicit false

namespace ContextLease

open Host

/-- What becomes of a step: it is skipped, as the target is met; or it raises; or its candidate is
refused, or adopted, with what the function reports as removed. -/
inductive Fate (O : Type)
  | skipped
  | failed
  | refused (lossy : Bool)
  | adopted (lossy : Bool) (removed : List O)

variable {O W : Type}

/-- The candidate of a step has been adopted. -/
def Fate.isAdopted : Fate O → Bool
  | .adopted .. => true
  | _ => false

def Fate.isRefused : Fate O → Bool
  | .refused _ => true
  | _ => false

section Fates

variable (py : PythonObjects O) (registry : CompressionRegistry O W)
  (request : CompressionRequest O)

/-- Whether a candidate for a content is adopted: it contains the required terms and counts no
more.  Looking at it may raise. -/
def judge (content candidate : O) : Except Raised Bool := do
  let before ← request.countContent content
  let after ← request.countContent candidate
  let kept ← containsRequired py candidate request.requiredTerms
  return kept && after ≤ before

/-- What becomes of a step that calls an algorithm, and the content and the state after it.  The
candidate is judged beside the content as the function has left it. -/
def callFate (algorithm : FunctionAlgorithm O W) (step : PipelineStep O) (content : O) (w : W) :
    Fate O × O × W :=
  let called := algorithm.function (request.forStep content step) w
  match called.outcome with
  | .error _ => (.failed, called.content, called.host)
  | .ok (candidate, removed, _) =>
      match judge py request called.content candidate with
      | .error _ => (.failed, called.content, called.host)
      | .ok false => (.refused algorithm.lossy, called.content, called.host)
      | .ok true => (.adopted algorithm.lossy removed, candidate, called.host)

/-- What becomes of the steps, one after the other. -/
def fates : List (PipelineStep O) → O → W → List (PipelineStep O × Fate O)
  | [], _, _ => []
  | step :: steps, content, w =>
      match request.countContent content with
      | .error _ => []
      | .ok tokens =>
          if tokens ≤ request.targetTokens then (step, .skipped) :: fates steps content w
          else
            match registry.algorithms step.algorithmId with
            | none => []
            | some algorithm =>
                let called := callFate py request algorithm step content w
                (step, called.1) :: fates steps called.2.1 called.2.2

end Fates

/-- The report of a pipeline is true: it lists the steps whose candidates have been adopted, is
lossy exactly if one of them is, and has removed only what they report. -/
structure TruthfulReport (steps : List (PipelineStep O × Fate O))
    (result : CompressionResult O (PipelineTrace O)) : Prop where
  applied : result.trace.applied =
    (steps.filter fun s => s.2.isAdopted).map fun s => s.1.algorithmId
  lossy : result.lossy = true ↔ ∃ s ∈ steps, ∃ removed, s.2 = .adopted true removed
  removed : ∀ item ∈ result.removedItems, ∃ s ∈ steps, ∃ lossy removed,
    s.2 = .adopted lossy removed ∧ item ∈ removed

/-! ### What the loop reports -/

/-- What the loop adds to its report for a step. -/
def Fate.isApplied (fate : Fate O) : Bool := fate.isAdopted || fate.isRefused

def Fate.isLossy : Fate O → Bool
  | .adopted lossy _ => lossy
  | .refused lossy => lossy
  | _ => false

def Fate.removed : Fate O → List O
  | .adopted _ removed => removed
  | _ => []

section Report

variable {py : PythonObjects O} {registry : CompressionRegistry O W}
  {request : CompressionRequest O}

/-- When the target is met, no step is taken any more. -/
theorem fates_of_met {content : O} {tokens : ℤ}
    (htokens : request.countContent content = .ok tokens)
    (hmet : tokens ≤ request.targetTokens) (steps : List (PipelineStep O)) (w : W) :
    fates py registry request steps content w = steps.map fun step => (step, .skipped) := by
  induction steps with
  | nil => rfl
  | cons step steps ih =>
      simp only [fates, htokens, if_pos hmet, ih, List.map_cons]

/-- A candidate is judged as `_result` decides about it, which raises exactly if judging does. -/
theorem judge_cases (py : PythonObjects O) (algorithmId : String) (request : CompressionRequest O)
    (candidate : O) (removed : List O) (trace : HashMap O) (lossy : Bool) :
    (∃ e, result py algorithmId request candidate removed trace lossy = .error e ∧
      judge py request request.content candidate = .error e) ∨
    ∃ r, result py algorithmId request candidate removed trace lossy = .ok r ∧ r.lossy = lossy ∧
      r.afterTokens ≤ r.beforeTokens ∧
      (judge py request request.content candidate = .ok true ∧ r.content = candidate ∧
          r.removedItems = removed ∨
        judge py request request.content candidate = .ok false ∧ r.content = request.content ∧
          r.removedItems = []) := by
  rw [result, judge]
  cases request.countContent request.content with
  | error e => exact Or.inl ⟨e, rfl, rfl⟩
  | ok before =>
      cases request.countContent candidate with
      | error e => exact Or.inl ⟨e, rfl, rfl⟩
      | ok after =>
          cases containsRequired py candidate request.requiredTerms with
          | error e => exact Or.inl ⟨e, rfl, rfl⟩
          | ok kept =>
              simp only [Except.ok_bind']
              right
              cases kept with
              | false => exact ⟨_, rfl, rfl, le_refl before, Or.inr ⟨rfl, rfl, rfl⟩⟩
              | true =>
                  by_cases hgrows : after > before
                  · refine ⟨_, if_pos hgrows, rfl, le_refl before, Or.inr ⟨?_, rfl, rfl⟩⟩
                    rw [decide_eq_false (not_le.2 hgrows)]
                    rfl
                  · refine ⟨_, if_neg hgrows, rfl, not_lt.1 hgrows, Or.inl ⟨?_, rfl, rfl⟩⟩
                    rw [decide_eq_true (not_lt.1 hgrows)]
                    rfl

/-- A step that calls an algorithm raises, or returns a result that has not grown: with the
candidate if it is adopted, and with the content as it is if it is refused. -/
theorem compress_cases (py : PythonObjects O) (request : CompressionRequest O)
    (algorithm : FunctionAlgorithm O W) (step : PipelineStep O) (content : O) (w : W) :
    (∃ e left w', algorithm.compress py (request.forStep content step) w = ⟨.error e, left, w'⟩ ∧
      callFate py request algorithm step content w = (.failed, left, w')) ∨
    ∃ r left w', algorithm.compress py (request.forStep content step) w = ⟨.ok r, left, w'⟩ ∧
      r.afterTokens ≤ r.beforeTokens ∧
      ∃ fate, callFate py request algorithm step content w = (fate, r.content, w') ∧
        fate.isApplied = true ∧ fate.isLossy = r.lossy ∧ fate.removed = r.removedItems := by
  rw [FunctionAlgorithm.compress, callFate]
  rcases algorithm.function (request.forStep content step) w with
    ⟨e | ⟨candidate, removed, trace⟩, left, w'⟩
  · exact Or.inl ⟨e, left, w', rfl, rfl⟩
  · simp only
    rcases judge_cases py algorithm.algorithmId
        { request.forStep content step with content := left } candidate removed trace
        algorithm.lossy with
      ⟨e, hresult, hjudge⟩ | ⟨r, hresult, hlossy, hle, hcases⟩
    · change judge py request left candidate = _ at hjudge
      rw [hjudge]
      exact Or.inl ⟨e, left, w', congrArg (Called.mk · left w') hresult, rfl⟩
    · refine Or.inr ⟨r, left, w', congrArg (Called.mk · left w') hresult, hle, ?_⟩
      rcases hcases with ⟨hjudge, hcontent, hremoved⟩ | ⟨hjudge, hcontent, hremoved⟩
      · change judge py request left candidate = _ at hjudge
        rw [hjudge]
        exact ⟨.adopted algorithm.lossy removed, by rw [hcontent], rfl, hlossy.symm, hremoved.symm⟩
      · change judge py request left candidate = _ at hjudge
        rw [hjudge]
        exact ⟨.refused algorithm.lossy, by rw [hcontent], rfl, hlossy.symm, hremoved.symm⟩

/-- The loop lists the steps whose candidates are adopted or refused, is lossy if one of these is,
and collects what the adopted ones report as removed. -/
theorem executeLoop_report {failOpen : Bool} {steps : List (PipelineStep O)}
    {progress final : Progress O} {w w' : W}
    (h : executeLoop py registry request failOpen steps progress w = (.ok final, w')) :
    final.applied = progress.applied ++
        ((fates py registry request steps progress.current w).filter fun s => s.2.isApplied).map
          (fun s => s.1.algorithmId) ∧
      final.lossy = (progress.lossy ||
        (fates py registry request steps progress.current w).any fun s => s.2.isLossy) ∧
      final.removed = progress.removed ++
        (fates py registry request steps progress.current w).flatMap fun s => s.2.removed := by
  induction steps generalizing progress w with
  | nil =>
      rw [executeLoop, Prod.mk.injEq, Except.ok.injEq] at h
      simp [fates, ← h.1]
  | cons step steps ih =>
      rw [executeLoop] at h
      cases hcount : request.countContent progress.current with
      | error e =>
          simp only [hcount, Prod.mk.injEq, reduceCtorEq, false_and] at h
      | ok tokens =>
          simp only [hcount] at h
          by_cases hmet : tokens ≤ request.targetTokens
          · -- the loop ends, and the other steps are skipped
            rw [if_pos hmet, Prod.mk.injEq, Except.ok.injEq] at h
            rw [fates_of_met hcount hmet, ← h.1]
            simp [List.filter_map, Function.comp_def, Fate.isApplied, Fate.isAdopted,
              Fate.isRefused, Fate.isLossy, Fate.removed]
          · rw [if_neg hmet] at h
            simp only [fates, hcount, if_neg hmet]
            cases hfound : registry.algorithms step.algorithmId with
            | none =>
                simp only [CompressionRegistry.get, hfound, Prod.mk.injEq, reduceCtorEq,
                  false_and] at h
            | some algorithm =>
                simp only [CompressionRegistry.get, hfound] at h
                rcases compress_cases py request algorithm step progress.current w with
                  ⟨e, left, w'', hcompress, hfate⟩ |
                    ⟨r, left, w'', hcompress, hle, fate, hfate, happlied, hlossy, hremoved⟩
                · simp only [hcompress] at h
                  split at h
                  · have hrest := ih h
                    simpa [hfate, Fate.isApplied, Fate.isAdopted, Fate.isRefused, Fate.isLossy,
                      Fate.removed] using hrest
                  · cases (Prod.mk.inj h).1
                · simp only [hcompress, if_neg (not_lt.2 hle)] at h
                  obtain ⟨happlied', hlossy', hremoved'⟩ := ih h
                  have hcons :
                      ((step, fate) :: fates py registry request steps r.content w'').filter
                        (fun s => s.2.isApplied) =
                        (step, fate) :: (fates py registry request steps r.content w'').filter
                          fun s => s.2.isApplied := by
                    rw [List.filter_cons, if_pos happlied]
                  simp only [hfate, hcons, List.map_cons, List.any_cons, List.flatMap_cons, hlossy,
                    hremoved, happlied', hlossy', hremoved', List.append_assoc,
                    List.singleton_append, Bool.or_assoc, and_self]

/-- What a pipeline reports. -/
theorem execute_report {failOpen : Bool} {steps : List (PipelineStep O)} {w w' : W}
    {result : CompressionResult O (PipelineTrace O)}
    (h : execute py registry request failOpen steps w = (.ok result, w')) :
    result.trace.applied =
        ((fates py registry request steps request.content w).filter fun s => s.2.isApplied).map
          (fun s => s.1.algorithmId) ∧
      result.lossy =
        ((fates py registry request steps request.content w).any fun s => s.2.isLossy) ∧
      result.removedItems =
        (fates py registry request steps request.content w).flatMap fun s => s.2.removed := by
  rw [execute] at h
  cases hbefore : request.countContent request.content with
  | error e =>
      simp only [hbefore, Prod.mk.injEq, reduceCtorEq, false_and] at h
  | ok before =>
      simp only [hbefore] at h
      rcases hloop : executeLoop py registry request failOpen steps { current := request.content } w
        with ⟨e | final, w''⟩
      · simp only [hloop, Prod.mk.injEq, reduceCtorEq, false_and] at h
      · simp only [hloop] at h
        cases hafter : request.countContent final.current with
        | error e =>
            simp only [hafter, Prod.mk.injEq, reduceCtorEq, false_and] at h
        | ok after =>
            simp only [hafter, Prod.mk.injEq, Except.ok.injEq] at h
            have hreport := executeLoop_report hloop
            simp only [List.nil_append, Bool.false_or] at hreport
            rw [← h.1]
            exact hreport

end Report

/-! ### Which reports are true -/

/-- The applied steps are those whose candidates are adopted, and those whose are refused. -/
theorem countP_isApplied (steps : List (PipelineStep O × Fate O)) :
    steps.countP (fun s => s.2.isApplied) =
      steps.countP (fun s => s.2.isAdopted) + steps.countP (fun s => s.2.isRefused) := by
  induction steps with
  | nil => rfl
  | cons s steps ih =>
      rw [List.countP_cons, List.countP_cons, List.countP_cons, ih]
      obtain ⟨step, fate⟩ := s
      cases fate <;> simp only [Fate.isApplied, Fate.isAdopted, Fate.isRefused, Bool.or_self,
        Bool.or_true, Bool.or_false, if_true, Bool.false_eq_true, if_false] <;> omega

/-- A fate that is not a refusal is lossy if and only if a lossy candidate is adopted. -/
theorem Fate.isLossy_iff {fate : Fate O} (h : fate.isRefused = false) :
    fate.isLossy = true ↔ ∃ removed, fate = .adopted true removed := by
  cases fate with
  | skipped => simp [Fate.isLossy]
  | failed => simp [Fate.isLossy]
  | refused lossy => cases h
  | adopted lossy removed => simp [Fate.isLossy]

/-- What a fate removes, an adopted candidate reports. -/
theorem Fate.mem_removed {fate : Fate O} {item : O} (h : item ∈ fate.removed) :
    ∃ lossy removed, fate = .adopted lossy removed ∧ item ∈ removed := by
  cases fate with
  | adopted lossy removed => exact ⟨lossy, removed, rfl, h⟩
  | _ => cases h

/-- The report of a pipeline is true exactly when no candidate is refused. -/
theorem truthful_report_iff (py : PythonObjects O) (registry : CompressionRegistry O W)
    (request : CompressionRequest O) (failOpen : Bool) (steps : List (PipelineStep O)) {w w' : W}
    {result : CompressionResult O (PipelineTrace O)}
    (h : execute py registry request failOpen steps w = (.ok result, w')) :
    TruthfulReport (fates py registry request steps request.content w) result ↔
      ∀ s ∈ fates py registry request steps request.content w, s.2.isRefused = false := by
  obtain ⟨happlied, hlossy, hremoved⟩ := execute_report h
  generalize fates py registry request steps request.content w = reached at *
  constructor
  · -- a refused step is one applied step too many
    intro htrue s hs
    have hlength := congrArg List.length (happlied.symm.trans htrue.applied)
    rw [List.length_map, List.length_map, ← List.countP_eq_length_filter,
      ← List.countP_eq_length_filter, countP_isApplied] at hlength
    have hnone : reached.countP (fun s => s.2.isRefused) = 0 := by omega
    simpa using List.countP_eq_zero.1 hnone s hs
  · intro hnone
    refine ⟨?_, ?_, ?_⟩
    · rw [happlied]
      congr 1
      refine List.filter_congr ?_
      intro s hs
      rw [Fate.isApplied, hnone s hs, Bool.or_false]
    · rw [hlossy, List.any_eq_true]
      refine exists_congr ?_
      intro s
      refine and_congr_right ?_
      intro hs
      exact Fate.isLossy_iff (hnone s hs)
    · intro item hitem
      rw [hremoved] at hitem
      obtain ⟨s, hs, hmem⟩ := List.mem_flatMap.1 hitem
      obtain ⟨lossy, removed, hfate, hitem⟩ := Fate.mem_removed hmem
      exact ⟨s, hs, lossy, removed, hfate, hitem⟩

/-- A candidate that keeps the required term is reported truly. -/
theorem truthful_report_example :
    ∃ result w', execute stringObjects twoAlgorithms (shortenRequest ["alpha"]) true
        [⟨"raising", HashMap.empty⟩, ⟨"first", HashMap.empty⟩] () = (.ok result, w') ∧
      result.content = "Alpha" ∧
      TruthfulReport (fates stringObjects twoAlgorithms (shortenRequest ["alpha"])
        [⟨"raising", HashMap.empty⟩, ⟨"first", HashMap.empty⟩] "Alpha beta gamma" ()) result := by
  have hview : (execute stringObjects twoAlgorithms (shortenRequest ["alpha"]) true
      [⟨"raising", HashMap.empty⟩, ⟨"first", HashMap.empty⟩] ()).1.toOption.map
        (fun result => result.content) = some "Alpha" := by
    decide +kernel
  obtain ⟨result, w', hrun, hcontent⟩ := exists_of_toOption hview
  refine ⟨result, w', hrun, hcontent, (truthful_report_iff stringObjects twoAlgorithms
    (shortenRequest ["alpha"]) true _ hrun).2 ?_⟩
  have hnone : (fates stringObjects twoAlgorithms (shortenRequest ["alpha"])
      [⟨"raising", HashMap.empty⟩, ⟨"first", HashMap.empty⟩] "Alpha beta gamma" ()).all
        (fun s => !s.2.isRefused) = true := by
    decide +kernel
  intro s hs
  simpa using List.all_eq_true.1 hnone s hs

/-- A step whose candidate drops a required term is listed as applied, and makes the result lossy,
though the content stays as it is. -/
theorem blocked_step_applied :
    ∃ result w', execute stringObjects twoAlgorithms (shortenRequest ["beta"]) true
        [⟨"first", HashMap.empty⟩] () = (.ok result, w') ∧
      result.content = "Alpha beta gamma" ∧ result.trace.applied = ["first"] ∧
      result.lossy = true ∧
      ¬ TruthfulReport (fates stringObjects twoAlgorithms (shortenRequest ["beta"])
        [⟨"first", HashMap.empty⟩] "Alpha beta gamma" ()) result := by
  have hview : (execute stringObjects twoAlgorithms (shortenRequest ["beta"]) true
      [⟨"first", HashMap.empty⟩] ()).1.toOption.map
        (fun result => (result.content, result.trace.applied, result.lossy)) =
          some ("Alpha beta gamma", ["first"], true) := by
    decide +kernel
  obtain ⟨result, w', hrun, hresult⟩ := exists_of_toOption hview
  obtain ⟨hcontent, happlied, hlossy⟩ : result.content = "Alpha beta gamma" ∧
      result.trace.applied = ["first"] ∧ result.lossy = true := by
    simpa using hresult
  refine ⟨result, w', hrun, hcontent, happlied, hlossy, ?_⟩
  intro h
  have hadopted : (fates stringObjects twoAlgorithms (shortenRequest ["beta"])
      [⟨"first", HashMap.empty⟩] "Alpha beta gamma" ()).any (fun s => s.2.isAdopted) = false := by
    decide +kernel
  obtain ⟨s, hs, removed, hfate⟩ := h.lossy.1 hlossy
  have hs' := List.any_eq_false.1 hadopted s hs
  rw [hfate] at hs'
  exact hs' rfl

end ContextLease
