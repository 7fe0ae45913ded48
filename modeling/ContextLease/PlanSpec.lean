/-
The module plans of a successful call.

A successful call has settled its modules one by one, and its plan lists them in that order: each
with its allocation, with the usage that follows from its tokens, and with the chunks that its
reclaim has left.

Main definitions:

* `SettledFrom` — what a settled module has to do with its definition;
* `settledPlan` — the plan of a settled module.

Main results:

* `settle_ok` — what a transaction that settles comes to;
* `successful_plan` — the plan of a successful call, module by module;
* `forall₂_settled_iff` — what holds of all module plans, in terms of the modules.
-/

import ContextLease.RunSpec
import ContextLease.Contracts

set_option relaxedAutoImplicit false
set_option autoImplicit false

namespace ContextLease

open MachineNumbers RustText

variable {F : Type} [FloatOps F]

section Plans

variable (P : Platform) (env : Env) (admission : Admission F) (previousUsage : HashMap ℤ)
  (semanticResults : HashMap String)

/-- What a settled module has to do with its definition. -/
structure SettledFrom (m : ModuleDefinition F) (x : SettledModule F) : Prop where
  module : x.module = m
  reclaimed : (reclaimModule P admission.counts admission.contributions admission.allocations
    semanticResults m).outcome = .ok ⟨x.chunks, x.tokens.before, x.tokens.after⟩
  fixed : x.tokens.fixed =
    (admission.counts.countChunks P (x.chunks.filter PromptChunk.fixed)).val
  pinned : x.tokens.pinned =
    (admission.counts.countChunks P (x.chunks.filter (countsAsPinned m))).val

/-- The plan of a settled module. -/
def settledPlan (x : SettledModule F) : PreparedModulePlan F where
  moduleId := x.module.moduleId
  renderTarget := x.module.renderTarget
  allocation := allocationOf admission.allocations x.module
  usage := moduleUsageOf P env admission.allocations x.module x.tokens
    (previousUsage x.module.moduleId)
  chunks := x.chunks.map fun c => (preparedChunk P admission.counts x.module c).val

variable {P admission}

/-- What a transaction that settles comes to. -/
theorem settle_ok {arena : ContextLeaseArena F} {results : List SemanticResult}
    {settled : Settled F} (h : (settle P arena results admission).outcome = .ok settled) :
    List.Forall₂ (SettledFrom P admission (semanticResultsOf results))
        (orderedModules arena.definition) settled.modules ∧
      settled.rendered = settledText settled.modules ∧
      settled.chunks = settled.modules.map fun x =>
        x.chunks.map fun c => (preparedChunk P admission.counts x.module c).val := by
  simp only [settle, Checked.outcome_bind, Checked.outcome_liftFlagged, Except.bind_eq_ok,
    Except.ok.injEq] at h
  obtain ⟨xs, hxs, promptTokens, rfl, h⟩ := h
  split at h
  · cases h
  · simp only [Checked.outcome_bind, Checked.outcome_liftFlagged, Checked.outcome_pure,
      Except.bind_eq_ok, Except.ok.injEq] at h
    obtain ⟨chunks, rfl, rfl⟩ := h
    refine ⟨?_, rfl, by simp only [Flagged.val_traverse]⟩
    exact (settleModules_ok P admission.counts admission.contributions admission.allocations
      (semanticResultsOf results) hxs).imp fun m x hx => ⟨hx.1, hx.2.1, hx.2.2.1, hx.2.2.2⟩

/-- The plans of settled modules, one after the other. -/
theorem settledPlans_eq {settled : Settled F}
    (hchunks : settled.chunks = settled.modules.map fun x =>
      x.chunks.map fun c => (preparedChunk P admission.counts x.module c).val) :
    settledPlans admission settled
        (moduleUsages P env admission.allocations previousUsage settled.modules) =
      settled.modules.map (settledPlan P env admission previousUsage) := by
  rw [settledPlans, hchunks, moduleUsages]
  generalize settled.modules = xs
  induction xs with
  | nil => rfl
  | cons x xs ih =>
      rw [List.map_cons, List.map_cons, List.zip_cons_cons, List.zip_cons_cons, List.map_cons, ih,
        List.map_cons]
      rfl

end Plans

section Calls

variable {P : Platform} {arena : ContextLeaseArena F} {env : Env} {request : PrepareRequest F}
  {results : List SemanticResult} {counter : Option TokenCounter}
  {plan : PreparedContextPlan F} {s : ArenaState F}

/-- What the plan of a successful call lists, for the settled modules `xs`. -/
structure PlannedModules (P : Platform) (arena : ContextLeaseArena F) (env : Env)
    (results : List SemanticResult) (admission : Admission F) (s : ArenaState F)
    (plan : PreparedContextPlan F) (xs : List (SettledModule F)) : Prop where
  settled : List.Forall₂ (SettledFrom P admission (semanticResultsOf results))
    (orderedModules arena.definition) xs
  modulePlans : plan.modulePlans = xs.map (settledPlan P env admission s.previousUsage)
  modules : plan.modules = moduleUsages P env admission.allocations s.previousUsage xs
  allocations : plan.allocations = admission.allocations
  rendered : plan.rendered = settledText xs
  leases : plan.leases = admission.leases
  snapshot : plan.snapshot.leases = admission.leases

theorem prepareWithResults_plan
    (h : (prepareWithResults P arena env request results counter s).1 = .ok plan) :
    ∃ admission xs, Admitted P arena request counter (safetyMultiplier s request.model) admission ∧
      PlannedModules P arena env results admission s plan xs := by
  have heq : prepareWithResults P arena env request results counter s = _ :=
    prepareWithResults_eq ⟨env, request, results, counter⟩ s
  rw [heq] at h
  cases hdecided : Call.decision P arena ⟨env, request, results, counter⟩ s with
  | error e =>
      rw [hdecided] at h
      cases h
  | ok decided =>
      obtain ⟨admission, settled⟩ := decided
      rw [hdecided, Except.ok.injEq] at h
      obtain ⟨hadmitted, hsettled⟩ := decision_ok P arena hdecided
      obtain ⟨hmodules, hrendered, hchunks⟩ := settle_ok hsettled
      subst h
      exact ⟨admission, settled.modules, hadmitted, hmodules, settledPlans_eq env _ hchunks,
        rfl, rfl, hrendered, rfl, rfl⟩

/-- The plan of a successful call, module by module; a call of one phase has no results. -/
theorem successful_plan_with
    (h : (prepare P arena env request counter s).1 = .ok plan ∧ results = [] ∨
      (prepareCommit P arena env request results counter s).1 = .ok plan) :
    ∃ admission xs, Admitted P arena request counter (safetyMultiplier s request.model) admission ∧
      PlannedModules P arena env results admission s plan xs := by
  rcases h with ⟨h, rfl⟩ | h
  · exact prepareWithResults_plan h
  · unfold prepareCommit at h
    split at h
    · cases h
    · split at h
      · cases h
      · exact prepareWithResults_plan h

/-- The plan of a successful call, module by module. -/
theorem successful_plan
    (h : (prepare P arena env request counter s).1 = .ok plan ∨
      (prepareCommit P arena env request results counter s).1 = .ok plan) :
    ∃ results' admission xs,
      Admitted P arena request counter (safetyMultiplier s request.model) admission ∧
        PlannedModules P arena env results' admission s plan xs := by
  rcases h with h | h
  · exact ⟨[], successful_plan_with (Or.inl ⟨h, rfl⟩)⟩
  · exact ⟨results, successful_plan_with (Or.inr h)⟩

/-- An admission is determined by its call. -/
theorem Admitted.unique {multiplier : F} {a a' : Admission F}
    (h : Admitted P arena request counter multiplier a)
    (h' : Admitted P arena request counter multiplier a') : a = a' :=
  Except.ok.inj ((admit_ok.2 h).symm.trans (admit_ok.2 h'))

/-- The settled modules are those of the definition, in their order. -/
theorem PlannedModules.modules_eq {admission : Admission F} {xs : List (SettledModule F)}
    (h : PlannedModules P arena env results admission s plan xs) :
    xs.map SettledModule.module = orderedModules arena.definition := by
  rw [← List.forall₂_eq_eq_eq, List.forall₂_map_left_iff]
  exact h.settled.flip.imp fun x m hx => hx.module

/-- What holds of all module plans, in terms of the modules. -/
theorem forall₂_settled_iff {admission : Admission F} {xs : List (SettledModule F)}
    (h : PlannedModules P arena env results admission s plan xs)
    {R : ModuleDefinition F → PreparedModulePlan F → Prop} {condition : ModuleDefinition F → Prop}
    (hR : ∀ m ∈ arena.definition.modules, ∀ x,
      SettledFrom P admission (semanticResultsOf results) m x →
        (R m (settledPlan P env admission s.previousUsage x) ↔ condition m)) :
    List.Forall₂ R (orderedModules arena.definition) plan.modulePlans ↔
      ∀ m ∈ arena.definition.modules, condition m := by
  have hsettled := h.settled
  have hmem : ∀ m, m ∈ orderedModules arena.definition ↔ m ∈ arena.definition.modules :=
    fun m => mem_orderedModules
  rw [h.modulePlans]
  simp only [← hmem] at hR ⊢
  generalize orderedModules arena.definition = ms at hsettled hR
  clear hmem h
  induction hsettled with
  | nil => simp
  | @cons m x ms xs hx _ ih =>
      rw [List.map_cons, List.forall₂_cons, List.forall_mem_cons]
      exact and_congr (hR m (List.mem_cons_self ..) x hx)
        (ih fun m' hm' => hR m' (List.mem_cons_of_mem _ hm'))

/-- What holds of every module plan, whatever its module. -/
theorem forall_settled_iff {admission : Admission F} {xs : List (SettledModule F)}
    (h : PlannedModules P arena env results admission s plan xs)
    {R : PreparedModulePlan F → Prop} {condition : ModuleDefinition F → Prop}
    (hR : ∀ m ∈ arena.definition.modules, ∀ x,
      SettledFrom P admission (semanticResultsOf results) m x →
        (R (settledPlan P env admission s.previousUsage x) ↔ condition m)) :
    (∀ p ∈ plan.modulePlans, R p) ↔ ∀ m ∈ arena.definition.modules, condition m := by
  have hlength : (orderedModules arena.definition).length = plan.modulePlans.length := by
    rw [h.modulePlans, List.length_map]
    exact h.settled.length_eq
  have hforall : (∀ p ∈ plan.modulePlans, R p) ↔
      List.Forall₂ (fun _ p => R p) (orderedModules arena.definition) plan.modulePlans := by
    constructor
    · intro hall
      exact List.forall₂_iff_zip.2 ⟨hlength, fun hzip => hall _ (List.of_mem_zip hzip).2⟩
    · intro hall p hp
      obtain ⟨m, -, hm⟩ := exists_of_forall₂ hall.flip hp
      exact hm
  rw [hforall]
  exact forall₂_settled_iff h hR

end Calls

omit [FloatOps F] in
/-- Whatever has been read off the modules of a plan, the plan has a module for each value. -/
theorem exists_module_of_map {β : Type} {r : Result (PreparedContextPlan F)}
    {f : PreparedContextPlan F → PreparedModulePlan F → β} {values : List β}
    (h : (r.map fun plan => plan.modulePlans.map (f plan)).toOption = some values) {value : β}
    (hvalue : value ∈ values) :
    ∃ plan, r = .ok plan ∧ ∃ p ∈ plan.modulePlans, f plan p = value := by
  obtain ⟨plan, hplan, hvalues⟩ := exists_ok_of_map h
  rw [← hvalues] at hvalue
  exact ⟨plan, hplan, List.mem_map.1 hvalue⟩

end ContextLease
