/-
Calls whose counter never fails.

The built-in estimators never fail, and neither does a host counter that returns natural numbers.
With such a counter no step of a call raises the flag, so the call returns exactly what its steps
compute.

Main definitions:

* `CountContext.Quiet` — counting never raises the flag.

Main results:

* `CountContext.quiet_of_counter` — a counter that returns natural numbers is quiet;
* `ensureValid_of_quiet` — a call that never raises the flag returns what it computes.
-/

import ContextLease.PrepareSpec

set_option relaxedAutoImplicit false
set_option autoImplicit false

namespace ContextLease

open MachineNumbers RustText

variable {F : Type} [FloatOps F]

/-- Counting never raises the flag. -/
def CountContext.Quiet (P : Platform) (counts : CountContext F) : Prop :=
  ∀ text, (counts.countText P text).failed = false

/-- Counting raises the flag only at a negative raw count. -/
theorem CountContext.quiet_of_raw {P : Platform} {counts : CountContext F}
    (h : ∀ text, 0 ≤ counts.raw P text) : counts.Quiet P := by
  intro text
  simp only [CountContext.countText, not_lt.2 (h text), if_false]
  split <;> rfl

/-- A host counter that returns natural numbers is quiet. -/
theorem CountContext.quiet_of_counter (P : Platform) (tokenizerId : String) {counter : TokenCounter}
    (h : ∀ text, 0 ≤ counter text) (multiplier : F) :
    CountContext.Quiet P ⟨tokenizerId, some counter, multiplier⟩ :=
  CountContext.quiet_of_raw h

namespace CountContext.Quiet

variable {P : Platform} {counts : CountContext F} (h : counts.Quiet P)
include h

theorem countContent (value : Value) : (counts.countContent P value).failed = false := by
  cases value <;> first | exact h _ | rfl

theorem countChunks (chunks : List (PromptChunk F)) :
    (counts.countChunks P chunks).failed = false := by
  simp [CountContext.countChunks, h.countContent]

/-! ### The passes -/

theorem truncate (target : ℤ) (text : String) :
    (ContextLease.truncate P counts target text).failed = false := by
  have hloop : ∀ (l : List Char) (out : String),
      (truncateLoop P counts target l out).failed = false := by
    intro l
    induction l with
    | nil => exact fun out => rfl
    | cons ch l ih =>
        intro out
        simp only [truncateLoop, Flagged.failed_bind, h _, Bool.false_or]
        split
        · rfl
        · exact ih _
  simp only [ContextLease.truncate, truncateByCount]
  split
  · rfl
  · split
    · rfl
    · simp [hloop]

theorem compressText (target : ℤ) (id text : String) :
    (ContextLease.compressText P counts target id text).failed = false := by
  have hloop : ∀ (l : List String) (result : String),
      (selectLoop P counts target l result).failed = false := by
    intro l
    induction l with
    | nil => exact fun result => rfl
    | cons sentence l ih =>
        intro result
        simp only [selectLoop, Flagged.failed_bind, h _, Bool.false_or]
        generalize (if result.isEmpty = true then trim sentence
          else result ++ " " ++ trim sentence) = next
        split
        · rfl
        · exact ih _
  simp only [ContextLease.compressText, selectSentences]
  split
  · rfl
  · split
    · rfl
    · split
      · simp only [Flagged.failed_bind, hloop, Bool.false_or]
        split
        · exact h.truncate target text
        · rfl
      · split
        · exact h.truncate target text
        · rfl

theorem keepsContract (required : List String) (text candidate : String) :
    (ContextLease.keepsContract P counts required text candidate).failed = false := by
  simp [ContextLease.keepsContract, h _]

theorem validCandidate (required : List String) (text candidate : String) :
    (ContextLease.validCandidate P counts required text candidate).failed = false := by
  unfold ContextLease.validCandidate
  split
  · rfl
  · exact h.keepsContract _ _ _

/-! ### The pipeline -/

theorem collectLoop (m : ModuleDefinition F) (target : ℤ) (required : List String)
    (steps : List CompressionStepSpec) (text : String) :
    (ContextLease.collectLoop P counts m target required steps text).failed = false := by
  induction steps generalizing text with
  | nil => rfl
  | cons step steps ih =>
      refine Checked.failed_bind (h text) ?_
      intro tokens _
      split
      · rfl
      · split
        · rfl
        · refine Checked.failed_bind (h.compressText _ _ _) ?_
          intro candidate _
          exact Checked.failed_bind (h.keepsContract _ _ _) fun accepted _ => ih _

theorem reclaimLoop (m : ModuleDefinition F) (target : ℤ) (required : List String)
    (semanticResults : HashMap String) (steps : List CompressionStepSpec) (text : String) :
    (ContextLease.reclaimLoop P counts m target required semanticResults steps text).failed =
      false := by
  have hfilter : ∀ (text : String) (l : List String),
      (Flagged.filter (ContextLease.validCandidate P counts required text) l).failed = false := by
    intro text l
    induction l with
    | nil => rfl
    | cons a l ih => simp [Flagged.filter, h.validCandidate, ih]
  have hsort : ∀ l : List String,
      (Flagged.sortByKey (counts.countText P) l).failed = false := by
    intro l
    simp [Flagged.sortByKey, h _]
  induction steps generalizing text with
  | nil => rfl
  | cons step steps ih =>
      refine Checked.failed_bind (h text) ?_
      intro tokens _
      split
      · rfl
      · split
        · refine Checked.failed_bind rfl ?_
          intro requests _
          refine Checked.failed_bind (hfilter _ _) ?_
          intro candidates _
          refine Checked.failed_bind (hsort _) ?_
          intro sorted _
          split
          · exact ih _
          · rfl
        · refine Checked.failed_bind (h.compressText _ _ _) ?_
          intro candidate _
          exact Checked.failed_bind (h.keepsContract _ _ _) fun accepted _ => ih _

theorem collectSemanticRequests (m : ModuleDefinition F) (chunks : List (PromptChunk F))
    (allocation : ℤ) :
    (ContextLease.collectSemanticRequests P counts m chunks allocation).failed = false := by
  refine Checked.failed_bind (h.countChunks _) ?_
  intro protectedTokens _
  split
  · rfl
  · split
    · rfl
    · exact h.collectLoop ..

theorem compressModule (m : ModuleDefinition F) (chunks : List (PromptChunk F)) (allocation : ℤ)
    (semanticResults : HashMap String) :
    (ContextLease.compressModule P counts m chunks allocation semanticResults).failed = false := by
  refine Checked.failed_bind (h.countChunks _) ?_
  intro pinnedTokens _
  split
  · rfl
  · split
    · rfl
    · refine Checked.failed_bind (h.reclaimLoop ..) ?_
      intro text _
      refine Checked.failed_bind (h text) ?_
      intro after _
      split <;> rfl

/-! ### The front part and the plan -/

theorem admitRequest (arena : ContextLeaseArena F) {request : PrepareRequest F}
    {counter : Option TokenCounter} {multiplier : F}
    (hcounts : counts = ⟨request.model.tokenizerId, counter, multiplier⟩) :
    (ContextLease.admitRequest P arena request counter multiplier).failed = false := by
  subst hcounts
  refine Checked.failed_bind rfl ?_
  intro _ _
  refine Checked.failed_bind rfl ?_
  intro contributions _
  refine Checked.failed_bind ?_ fun overhead _ => ?_
  · simp only [Checked.failed_liftFlagged, renderSeparatorTokens]
    split
    · rfl
    · exact h _
  · refine Checked.failed_bind rfl ?_
    intro _ _
    refine Checked.failed_bind ?_ fun demands _ => ?_
    · simp [demandsOf, moduleDemand, h.countChunks]
    · exact Checked.failed_bind rfl fun allocated _ => rfl

theorem planLoop (contributions : HashMap (ModuleContribution F))
    (allocations : List ModuleAllocation) (ms : List (ModuleDefinition F)) :
    (ContextLease.planLoop P counts contributions allocations ms).failed = false := by
  induction ms with
  | nil => rfl
  | cons m ms ih =>
      refine Checked.failed_bind ?_ fun requests _ => ?_
      · refine Checked.failed_bind (h.countChunks _) ?_
        intro before _
        split
        · exact h.collectSemanticRequests ..
        · rfl
      · exact Checked.failed_bind ih fun rest _ => rfl

/-! ### The transaction -/

theorem moduleLoop (arena : ContextLeaseArena F) (env : Env) (requestId : String)
    (contributions : HashMap (ModuleContribution F)) (allocations : List ModuleAllocation)
    (semanticResults : HashMap String) (ms : List (ModuleDefinition F)) (tx : Transaction F) :
    (ContextLease.moduleLoop P arena env requestId counts contributions allocations
      semanticResults ms tx).failed = false := by
  induction ms generalizing tx with
  | nil => rfl
  | cons m ms ih =>
      refine Checked.failed_bind ?_ fun r _ => ?_
      · refine Checked.failed_bind (h.countChunks _) ?_
        intro before _
        split
        · exact Checked.failed_bind (h.compressModule ..) fun compressed _ => rfl
        · rfl
      · refine Checked.failed_bind ?_ fun tx' _ => ih tx'
        simp [recordModule, h.countChunks]

theorem transact (arena : ContextLeaseArena F) (env : Env) (request : PrepareRequest F)
    (results : List SemanticResult) {admission : Admission F} (hcounts : admission.counts = counts)
    (state : ArenaState F) :
    (ContextLease.transact P arena env request results admission state).failed = false := by
  subst hcounts
  refine Checked.failed_bind (h.moduleLoop ..) ?_
  intro tx _
  refine Checked.failed_bind (h _) ?_
  intro promptTokens _
  dsimp only
  split
  · rfl
  · refine Checked.failed_bind ?_ fun modulePlans _ => rfl
    simp [modulePlan, preparedChunk, h.countContent]

end CountContext.Quiet

/-- A call that never raises the flag returns what it computes. -/
theorem ensureValid_of_quiet {α : Type} {x : Checked ContextLeaseError α}
    (h : x.failed = false) : ensureValid x = x.outcome := by
  unfold ensureValid
  cases hx : x.outcome with
  | ok a => simp [h]
  | error e => rfl

end ContextLease
