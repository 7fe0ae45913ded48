/-
The structured plan.

A plan says the same things several times: the usage of a module and the counts of its chunks, the
lists of the usages and allocations and the module plans, the prompt and the chunks it is made of.
The lists and the texts always agree.  The usage of a module is what its chunks add up to exactly as
long as what the kernel has counted of it does not wrap.

Main definitions:

* `ConsistentModule`, `ConsistentPlan` — what a plan says twice is the same.

Main results:

* `orderedModules_sorted` — the modules are in the order of their positions and ids;
* `consistentModule_iff` — when the plan of a module is consistent;
* `plan_consistent_iff` — the plan of a call is consistent exactly when no module that it keeps
  chunks of counts more than an integer holds.
-/

import ContextLease.PlanAccounts
import ContextLease.AllocationRange
import ContextLease.TokenAccounting

set_option relaxedAutoImplicit false
set_option autoImplicit false

namespace ContextLease

open MachineNumbers RustText

variable {F : Type}

/-! ### The order of the modules -/

/-- The modules are in the order of their positions and ids. -/
theorem orderedModules_sorted (definition : ArenaDefinition F) :
    (orderedModules definition).Pairwise rendersBefore := by
  have htotal : Std.Total (rendersBefore (F := F)) := by
    refine ⟨?_⟩
    intro m m'
    rcases lt_trichotomy m.order m'.order with hlt | heq | hgt
    · exact Or.inl (Or.inl hlt)
    · rcases le_total m.moduleId m'.moduleId with hle | hle
      · exact Or.inl (Or.inr ⟨heq, hle⟩)
      · exact Or.inr (Or.inr ⟨heq.symm, hle⟩)
    · exact Or.inr (Or.inl hgt)
  have htrans : IsTrans (ModuleDefinition F) rendersBefore := by
    refine ⟨?_⟩
    intro m m' m'' h h'
    rcases h with hlt | ⟨heq, hle⟩
    · rcases h' with hlt' | ⟨heq', -⟩
      · exact Or.inl (hlt.trans hlt')
      · exact Or.inl (heq' ▸ hlt)
    · rcases h' with hlt' | ⟨heq', hle'⟩
      · exact Or.inl (heq ▸ hlt')
      · exact Or.inr ⟨heq.trans heq', hle.trans hle'⟩
  exact List.pairwise_insertionSort _ _

/-! ### The plan of a module -/

/-- The plan of a module agrees with itself: the usage and the allocation are its own, the chunks
add up to what it uses, which the fixed and the variable tokens split, and the pinned and the
elastic ones, and it uses neither more than it was given nor more than it started from. -/
structure ConsistentModule (p : PreparedModulePlan F) : Prop where
  usage : p.usage.moduleId = p.moduleId
  allocation : p.allocation.moduleId = p.moduleId
  used : (p.chunks.map PreparedChunk.tokenCount).sum = p.usage.usedTokens
  fixed : p.usage.fixedTokens + p.usage.variableTokens = p.usage.usedTokens
  pinned : p.usage.pinnedTokens + p.usage.elasticTokens = p.usage.usedTokens
  within : p.usage.usedTokens ≤ p.usage.allocatedTokens
  allocated : p.usage.allocatedTokens = p.allocation.allocatedTokens
  compressed : p.usage.compressedToTokens ≤ p.usage.compressedFromTokens

variable [FloatOps F] {P : Platform} {arena : ContextLeaseArena F} {request : PrepareRequest F}
  {counter : Option TokenCounter}

section Module

variable {admission : Admission F} {semanticResults : HashMap String} {m : ModuleDefinition F}
  {x : SettledModule F} (hscale : admission.counts.Scales)
  (hallocated : P.arith.Fits (allocationOf admission.allocations m).allocatedTokens)
  (h : SettledFrom P admission semanticResults m x)

include hscale hallocated h

/-- A module whose kept chunks count no more than an integer holds uses what all its chunks count,
at most what it was given, and at most what it started from. -/
theorem SettledFrom.tally_le
    (hfits : P.arith.Fits (tally P admission.counts (keptChunks P admission m))) :
    tally P admission.counts x.chunks = x.tokens.after ∧
      x.tokens.after ≤ (allocationOf admission.allocations m).allocatedTokens ∧
      x.tokens.after ≤ x.tokens.before := by
  have hbefore := h.before_eq
  have hafter := h.after_eq
  rcases h.chunks_cases with ⟨hwithin, hchunks, hsame⟩ |
    ⟨hover, text, hchunks, -, hspares, htext, -⟩
  · -- within its allocation the module keeps its chunks
    have hkept : keptChunks P admission m = x.chunks := by
      rw [keptChunks, if_pos (hbefore ▸ hwithin), hchunks]
    rw [hkept] at hfits
    rw [Arith.norm_of_fits hfits] at hafter
    exact ⟨hafter.symm, hsame ▸ hwithin, hsame.le⟩
  · -- what stands for the elastic chunks is within what the protected ones have left
    have hkept : keptChunks P admission m =
        protectedChunks m (chunksOf admission.contributions m) := by
      rw [keptChunks, if_neg (not_le.2 (hbefore ▸ hover))]
    rw [hkept] at hfits
    have hsplit : tally P admission.counts x.chunks = tally P admission.counts
        (protectedChunks m (chunksOf admission.contributions m)) +
          (admission.counts.countText P text).val := by
      rw [hchunks, tally_append, tally_compressedChunk]
    rw [countChunks_eq_norm, Arith.norm_of_fits hfits] at hspares htext
    have hspared := @tally_nonneg F _ P _ hscale
      (protectedChunks m (chunksOf admission.contributions m))
    have hcount := admission.counts.countText_nonneg P hscale text
    have hroom : P.arith.sub (allocationOf admission.allocations m).allocatedTokens
        (tally P admission.counts (protectedChunks m (chunksOf admission.contributions m))) =
          (allocationOf admission.allocations m).allocatedTokens - tally P admission.counts
            (protectedChunks m (chunksOf admission.contributions m)) :=
      Arith.sub_of_fits (hallocated.ofNonneg (by omega) (by omega))
    rw [hroom] at htext
    rw [Arith.norm_of_fits (hallocated.ofNonneg (by omega) (by omega))] at hafter
    omega

/-- When the plan of a module is consistent. -/
theorem consistentModule_iff {env : Env} {previousUsage : HashMap ℤ}
    (hname : (allocationOf admission.allocations m).moduleId = m.moduleId) :
    ConsistentModule (settledPlan P env admission previousUsage x) ↔
      P.arith.Fits (tally P admission.counts (keptChunks P admission m)) := by
  have hsum : ((settledPlan P env admission previousUsage x).chunks.map
      PreparedChunk.tokenCount).sum = tally P admission.counts x.chunks := by
    have hall := @sum_tokenCount F _ P admission env previousUsage x fun _ => true
    rwa [List.filter_true, List.filter_true] at hall
  have hrange : P.arith.Fits x.tokens.after := h.after_eq ▸ P.arith.fits_norm _
  constructor
  · intro hconsistent
    have hused := hconsistent.used
    have hfits : P.arith.Fits (tally P admission.counts x.chunks) := by
      rw [hsum] at hused
      rw [hused]
      exact hrange
    -- what is kept counts no more than what is kept and the text of a pipeline
    rw [keptChunks, ← h.before_eq]
    rcases h.chunks_cases with ⟨hwithin, hchunks, -⟩ | ⟨hover, text, hchunks, -⟩
    · rw [if_pos hwithin, ← hchunks]
      exact hfits
    · have hcount := admission.counts.countText_nonneg P hscale text
      have hspared := @tally_nonneg F _ P _ hscale
        (protectedChunks m (chunksOf admission.contributions m))
      rw [hchunks, tally_append, tally_compressedChunk] at hfits
      rw [if_neg (not_le.2 hover)]
      exact hfits.ofNonneg hspared (by omega)
  · intro hfits
    obtain ⟨hused, hwithin, hcompressed⟩ := h.tally_le hscale hallocated hfits
    -- each of the two tests splits the chunks of the module
    have hpart : ∀ test : PromptChunk F → Bool,
        (admission.counts.countChunks P (x.chunks.filter test)).val +
          max (P.arith.sub x.tokens.after
            (admission.counts.countChunks P (x.chunks.filter test)).val) 0 = x.tokens.after := by
      intro test
      have hpart := @tally_nonneg F _ P _ hscale (x.chunks.filter test)
      have hle := @tally_filter_le F _ P _ hscale test x.chunks
      rw [countChunks_eq_norm, Arith.norm_of_fits (hrange.ofNonneg hpart (by omega)),
        Arith.sub_of_fits (hrange.ofNonneg (by omega) (by omega)), max_eq_left (by omega)]
      omega
    refine ⟨rfl, ?_, hsum.trans hused, ?_, ?_, ?_, rfl, hcompressed⟩
    · rw [settledPlan, h.module]
      exact hname
    · have hfixed := hpart PromptChunk.fixed
      rw [← h.fixed] at hfixed
      exact hfixed
    · have hpinned := hpart (countsAsPinned m)
      rw [← h.pinned] at hpinned
      exact hpinned
    · rw [settledPlan, h.module]
      exact hwithin

end Module

/-! ### The plan of a call -/

/-- The plan of a call agrees with itself: its modules are those of the definition in the order of
their positions and ids, the plan of each agrees with itself, the lists of the usages and of the
allocations are those of the module plans, and the prompt joins the texts of their chunks. -/
structure ConsistentPlan (definition : ArenaDefinition F) (plan : PreparedContextPlan F) :
    Prop where
  ordered : ∃ ms : List (ModuleDefinition F), ms.Perm definition.modules ∧
    ms.Pairwise rendersBefore ∧
      plan.modulePlans.map PreparedModulePlan.moduleId = ms.map ModuleDefinition.moduleId
  modules : ∀ p ∈ plan.modulePlans, ConsistentModule p
  usages : plan.modules = plan.modulePlans.map PreparedModulePlan.usage
  allocations : plan.allocations = plan.modulePlans.map PreparedModulePlan.allocation
  rendered : plan.rendered = "\n\n".intercalate
    (((plan.modulePlans.flatMap PreparedModulePlan.chunks).map fun c => render c.content).filter
      fun text => !text.isEmpty)

/-- The texts of settled modules are those of the chunks of their plans. -/
theorem settledText_eq (env : Env) (admission : Admission F) (previousUsage : HashMap ℤ)
    (xs : List (SettledModule F)) :
    settledText xs = "\n\n".intercalate
      ((((xs.map (settledPlan P env admission previousUsage)).flatMap
        PreparedModulePlan.chunks).map fun c => render c.content).filter
          fun text => !text.isEmpty) := by
  have hjoined := joinedText_eq (xs.map fun x => (⟨x.chunks, 0, 0⟩ : Reclaimed F))
  rw [joinedText, List.map_map, List.flatMap_map] at hjoined
  rw [List.flatMap_map, List.map_flatMap, List.filter_flatMap]
  refine hjoined.trans (congrArg _ (List.flatMap_congr ?_))
  intro x _
  rw [settledPlan, List.map_map]
  rfl

/-- The plan of a successful call is consistent exactly when, in every module, the contributed
chunks that it keeps count no more than an integer holds. -/
theorem plan_consistent_iff {env : Env} (results : List SemanticResult)
    {plan : PreparedContextPlan F} {s : ArenaState F}
    (hdefinition : arena.definition.Typed P.arith) (hs : Reachable P arena s)
    (h : (prepare P arena env request counter s).1 = .ok plan ∨
      (prepareCommit P arena env request results counter s).1 = .ok plan) {admission : Admission F}
    (hadmitted : Admitted P arena request counter (safetyMultiplier s request.model) admission) :
    ConsistentPlan arena.definition plan ↔ ∀ m ∈ arena.definition.modules,
      P.arith.Fits (tally P admission.counts (keptChunks P admission m)) := by
  obtain ⟨results', admission', xs, hadmitted', hplanned⟩ := successful_plan h
  obtain rfl := hadmitted.unique hadmitted'
  have hscale := hs.scales P arena hadmitted
  have hmodules := forall_settled_iff hplanned (R := ConsistentModule) fun m hm x hx =>
    consistentModule_iff hscale (hadmitted.fits_allocated hdefinition hm) hx
      (hadmitted.allocation_moduleId hdefinition hm)
  rw [← hmodules]
  refine ⟨ConsistentPlan.modules, fun hconsistent => ⟨?_, hconsistent, ?_, ?_, ?_⟩⟩
  · refine ⟨orderedModules arena.definition, orderedModules_perm _, orderedModules_sorted _, ?_⟩
    rw [hplanned.modulePlans, ← hplanned.modules_eq, List.map_map, List.map_map]
    rfl
  · rw [hplanned.modulePlans, hplanned.modules, List.map_map]
    rfl
  · rw [hplanned.modulePlans, hplanned.allocations, hadmitted.allocations_eq hdefinition,
      ← hplanned.modules_eq, List.map_map, List.map_map]
    rfl
  · rw [hplanned.rendered, hplanned.modulePlans]
    exact settledText_eq ..

/-- The modules of the example keep a few tokens. -/
theorem plan_consistent_iff_example :
    ∃ plan, (prepare (Library.ascii id).release exampleArena default exampleRequest none {}).1 =
        .ok plan ∧ ConsistentPlan exampleArena.definition plan := by
  obtain ⟨plan, hplan⟩ := exampleRequest_prepared
  have hadmits : ((admitRequest (Library.ascii id).release exampleArena exampleRequest none
      (safetyMultiplier {} exampleRequest.model)).outcome.map fun admission =>
        decide (∀ m ∈ exampleArena.definition.modules, (Library.ascii id).release.arith.Fits
          (tally (Library.ascii id).release admission.counts
            (keptChunks (Library.ascii id).release admission m)))).toOption = some true := by
    decide +kernel
  obtain ⟨admission, hadmitted, hfits⟩ := exists_ok_of_map hadmits
  exact ⟨plan, hplan, (plan_consistent_iff [] ⟨by decide, by decide⟩ ⟨[], rfl⟩ (Or.inl hplan)
    (admit_ok.1 hadmitted)).2 (of_decide_eq_true hfits)⟩

/-- Two chunks of one text. -/
def greetings : List (PromptChunk ℚ) :=
  ["first", "second"].map fun id => { chunkId := id, content := .string "Hi", priority := 1 }

/-- A host counter that counts the text of the chunks as the greatest integer, and everything else
as nothing. -/
def greatestCounter : TokenCounter := fun text => if text = "Hi" then 2147483647 else 0

/-- The counts of the two chunks wrap to a negative sum, which the module is said to use. -/
theorem wrapped_counts_reported :
    ∃ plan, (prepare (Library.ascii id).release summaryArena default (historyRequest greetings)
        (some greatestCounter) {}).1 = .ok plan ∧
      ¬ ConsistentPlan summaryArena.definition plan := by
  have hcounts : ((prepare (Library.ascii id).release summaryArena default (historyRequest
      greetings) (some greatestCounter) {}).1.map fun plan => plan.modulePlans.map fun p =>
        ((p.chunks.map PreparedChunk.tokenCount).sum, p.usage.usedTokens)).toOption =
      some [(4294967294, -2)] := by decide +kernel
  obtain ⟨plan, hplan, p, hp, hcount⟩ := exists_module_of_map hcounts (List.mem_cons_self ..)
  refine ⟨plan, hplan, ?_⟩
  intro hconsistent
  have hused := (hconsistent.modules p hp).used
  rw [Prod.mk.injEq] at hcount
  rw [hcount.1, hcount.2] at hused
  exact absurd hused (by decide)

end ContextLease
