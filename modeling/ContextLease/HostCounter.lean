/-
Counting with a host counter.

A host counter is never scaled, so a call that counts with one does not depend on the multiplier it
has read.  Everything a call computes before its transaction depends on its `CountContext` only
through the tokenizer, the counter and the counts; two contexts that agree on these are `Alike`.

Main definitions:

* `CountContext.Alike` — contexts that count alike.

Main results:

* `CountContext.Alike.of_counter` — with a host counter the multiplier does not matter;
* `planSemanticRequests_alike` — the planned requests depend on the counts alone.
-/

import ContextLease.Arena

set_option relaxedAutoImplicit false
set_option autoImplicit false

namespace ContextLease

open MachineNumbers RustText

variable {F : Type} [FloatOps F]

/-- Two contexts that count alike. -/
structure CountContext.Alike (P : Platform) (counts counts' : CountContext F) : Prop where
  tokenizerId : counts.tokenizerId = counts'.tokenizerId
  external : counts.external = counts'.external
  countText : counts.countText P = counts'.countText P

namespace CountContext.Alike

variable {P : Platform}

/-- With a host counter the multiplier does not matter. -/
theorem of_counter (P : Platform) (tokenizerId : String) {counter : Option TokenCounter}
    (h : counter.isSome = true) (multiplier multiplier' : F) :
    Alike P ⟨tokenizerId, counter, multiplier⟩ ⟨tokenizerId, counter, multiplier'⟩ := by
  refine ⟨rfl, rfl, ?_⟩
  obtain ⟨count, rfl⟩ := Option.isSome_iff_exists.1 h
  funext text
  simp only [CountContext.countText, CountContext.raw, Option.isSome_some, if_true]

variable {counts counts' : CountContext F} (h : Alike P counts counts')
include h

theorem countContent : counts.countContent P = counts'.countContent P := by
  funext value
  cases value <;> simp only [CountContext.countContent, h.countText]

theorem countChunks : counts.countChunks P = counts'.countChunks P := by
  funext chunks
  simp only [CountContext.countChunks, h.countContent]

/-! ### The passes -/

theorem truncate (target : ℤ) :
    ContextLease.truncate P counts target = ContextLease.truncate P counts' target := by
  have hloop : ∀ (l : List Char) (out : String),
      truncateLoop P counts target l out = truncateLoop P counts' target l out := by
    intro l
    induction l with
    | nil => exact fun out => rfl
    | cons ch l ih =>
        intro out
        simp only [truncateLoop, h.countText, ih]
  funext text
  simp only [ContextLease.truncate, truncateByCount, h.tokenizerId, h.external, hloop]

theorem compressText (target : ℤ) :
    ContextLease.compressText P counts target = ContextLease.compressText P counts' target := by
  have hloop : ∀ (l : List String) (result : String),
      selectLoop P counts target l result = selectLoop P counts' target l result := by
    intro l
    induction l with
    | nil => exact fun result => rfl
    | cons sentence l ih =>
        intro result
        simp only [selectLoop, h.countText, ih]
  funext id text
  simp only [ContextLease.compressText, selectSentences, h.truncate, hloop]

theorem keepsContract :
    ContextLease.keepsContract P counts = ContextLease.keepsContract P counts' := by
  funext required text candidate
  simp only [ContextLease.keepsContract, h.countText]

theorem collectLoop (m : ModuleDefinition F) (target : ℤ) (required : List String) :
    ContextLease.collectLoop P counts m target required =
      ContextLease.collectLoop P counts' m target required := by
  funext steps
  induction steps with
  | nil => rfl
  | cons step steps ih =>
      funext text
      simp only [ContextLease.collectLoop, h.countText, h.compressText, h.keepsContract, ih]

theorem collectSemanticRequests (m : ModuleDefinition F) :
    ContextLease.collectSemanticRequests P counts m =
      ContextLease.collectSemanticRequests P counts' m := by
  funext chunks allocation
  simp only [ContextLease.collectSemanticRequests, h.countChunks, h.collectLoop]

/-! ### The reclaim -/

theorem reclaimLoop (m : ModuleDefinition F) (target : ℤ) (required : List String)
    (semanticResults : HashMap String) :
    ContextLease.reclaimLoop P counts m target required semanticResults =
      ContextLease.reclaimLoop P counts' m target required semanticResults := by
  have hvalid : validCandidate P counts required = validCandidate P counts' required := by
    funext text candidate
    simp only [validCandidate, h.keepsContract]
  funext steps
  induction steps with
  | nil => rfl
  | cons step steps ih =>
      funext text
      simp only [ContextLease.reclaimLoop, h.countText, h.compressText, h.keepsContract, hvalid, ih]

theorem reclaimModule (contributions : HashMap (ModuleContribution F))
    (allocations : List ModuleAllocation) (semanticResults : HashMap String) :
    ContextLease.reclaimModule P counts contributions allocations semanticResults =
      ContextLease.reclaimModule P counts' contributions allocations semanticResults := by
  funext m
  simp only [ContextLease.reclaimModule, compressModule, h.countChunks, h.countText,
    h.reclaimLoop]

theorem preparedChunk (m : ModuleDefinition F) :
    ContextLease.preparedChunk P counts m = ContextLease.preparedChunk P counts' m := by
  funext chunk
  simp only [ContextLease.preparedChunk, h.countContent]

/-! ### The front part and the plan -/

theorem renderSeparatorTokens (contributions : HashMap (ModuleContribution F))
    (definition : ArenaDefinition F) :
    ContextLease.renderSeparatorTokens P counts contributions definition =
      ContextLease.renderSeparatorTokens P counts' contributions definition := by
  simp only [ContextLease.renderSeparatorTokens, h.countText]

theorem demandsOf (contributions : HashMap (ModuleContribution F))
    (definition : ArenaDefinition F) :
    ContextLease.demandsOf P counts contributions definition =
      ContextLease.demandsOf P counts' contributions definition := by
  have hdemand : moduleDemand P counts contributions = moduleDemand P counts' contributions := by
    funext m
    simp only [moduleDemand, h.countChunks]
  simp only [ContextLease.demandsOf, hdemand]

theorem planLoop (contributions : HashMap (ModuleContribution F))
    (allocations : List ModuleAllocation) (ms : List (ModuleDefinition F)) :
    ContextLease.planLoop P counts contributions allocations ms =
      ContextLease.planLoop P counts' contributions allocations ms := by
  induction ms with
  | nil => rfl
  | cons m ms ih =>
      simp only [ContextLease.planLoop, planModule, h.countChunks, h.collectSemanticRequests, ih]

end CountContext.Alike

/-- The planned requests depend on the multiplier only through the counts. -/
theorem planSemanticRequests_alike {P : Platform} (arena : ContextLeaseArena F)
    {request : PrepareRequest F} {counter : Option TokenCounter} {multiplier multiplier' : F}
    (h : CountContext.Alike P ⟨request.model.tokenizerId, counter, multiplier⟩
      ⟨request.model.tokenizerId, counter, multiplier'⟩) :
    planSemanticRequests P arena request counter multiplier =
      planSemanticRequests P arena request counter multiplier' := by
  simp only [planSemanticRequests, admitRequest, bind_assoc, pure_bind, h.renderSeparatorTokens,
    h.demandsOf, h.planLoop]

end ContextLease
