/-
Budgets under machine arithmetic.

As compiled for release the kernel's 32-bit integers wrap silently.  A successful call respects its
budget, counted in unbounded integers, exactly when neither the usable budget nor the sum of the
floors leaves the range of a 32-bit integer; every other difference and sum on the way is then
in range as well.

Main definitions:

* `ArenaDefinition.Typed`, `ModelProfile.Typed` — the fields are 32-bit integers;
* `BudgetRespected` — the budget of a plan, over unbounded integers;
* `BudgetInRange` — what a definition and a model have to satisfy.

Main results:

* `budgetRespected_iff` — a successful call respects its budget if and only if its definition and
  its model are in range.
-/

import ContextLease.ArenaSpec
import ContextLease.AllocationSafety

set_option relaxedAutoImplicit false
set_option autoImplicit false

namespace ContextLease

open MachineNumbers RustText

variable {F : Type} [FloatOps F]

/-- The token fields of a definition are machine integers. -/
structure ArenaDefinition.Typed (ar : Arith) (definition : ArenaDefinition F) : Prop where
  reserve : ar.Fits definition.frameworkReserveTokens
  tokens : ∀ m ∈ definition.modules,
    ar.Fits m.floorTokens ∧ ar.Fits m.targetTokens ∧ ar.Fits m.maxTokens

/-- The token fields of a model are machine integers. -/
structure ModelProfile.Typed (ar : Arith) (model : ModelProfile) : Prop where
  contextLimit : ar.Fits model.contextLimitTokens
  reservedOutput : ar.Fits model.reservedOutputTokens

/-- The host's counter returns machine integers. -/
def CounterTyped (ar : Arith) (counter : Option TokenCounter) : Prop :=
  ∀ count ∈ counter, ∀ text, ar.Fits (count text)

/-- A plan stays within the context of its model, and so do the floors and the allocations of its
modules. -/
structure BudgetRespected (definition : ArenaDefinition F) (plan : PreparedContextPlan F) :
    Prop where
  prompt : plan.promptTokens + plan.frameworkReserveTokens + plan.reservedOutputTokens ≤
    plan.contextLimitTokens
  floors : (definition.modules.map ModuleDefinition.floorTokens).sum ≤
    plan.contextLimitTokens - plan.reservedOutputTokens - plan.frameworkReserveTokens
  allocated : (plan.allocations.map ModuleAllocation.allocatedTokens).sum ≤
    plan.contextLimitTokens - plan.reservedOutputTokens - plan.frameworkReserveTokens

/-- Neither the usable budget nor the sum of the floors leaves the range of a 32-bit integer. -/
structure BudgetInRange (definition : ArenaDefinition F) (model : ModelProfile) : Prop where
  usable : i32Min ≤ model.contextLimitTokens - model.reservedOutputTokens -
    definition.frameworkReserveTokens
  floors : (definition.modules.map ModuleDefinition.floorTokens).sum ≤ i32Max

section Bounds

variable {P : Platform} {arena : ContextLeaseArena F} {request : PrepareRequest F}
  {counter : Option TokenCounter} {multiplier : F} {a : Admission F}

/-- The separators count a representable natural number. -/
theorem renderSeparatorTokens_bounds {counts : CountContext F} (hscale : counts.Scales)
    (htyped : counts.Typed P) (contributions : HashMap (ModuleContribution F))
    (definition : ArenaDefinition F) :
    0 ≤ (renderSeparatorTokens P counts contributions definition).val ∧
      P.arith.Fits (renderSeparatorTokens P counts contributions definition).val := by
  simp only [renderSeparatorTokens]
  split
  · exact ⟨le_refl 0, P.arith.fits_zero⟩
  · exact ⟨counts.countText_nonneg P hscale _, counts.fits_countText P htyped _⟩

/-- The model of an admitted request has a context, and reserves no negative output. -/
theorem Admitted.model_limits (ha : Admitted P arena request counter multiplier a) :
    0 < request.model.contextLimitTokens ∧ 0 ≤ request.model.reservedOutputTokens := by
  have hchecked := ha.checked
  simp only [checkRequest, Except.bind_eq_ok] at hchecked
  obtain ⟨_, _, _, hmodelOk, _⟩ := hchecked
  exact validateModel_ok hmodelOk

/-- A prompt counts a natural number. -/
theorem promptTokens_nonneg {plan : PreparedContextPlan F} {results : List SemanticResult}
    {rs : List (Reclaimed F)} (hscale : a.counts.Scales)
    (hrun : PreparedRun P arena request results a plan rs) : 0 ≤ plan.promptTokens := by
  rw [hrun.promptTokens]
  exact a.counts.countText_nonneg P hscale _

end Bounds

/-! ### Successful calls -/

section Release

variable {lib : Library} {arena : ContextLeaseArena F} {request : PrepareRequest F}
  {results : List SemanticResult} {counter : Option TokenCounter}
  {plan : PreparedContextPlan F} {s s' : ArenaState F}

/-- The floors and the allocations stay within a budget that is representable, as are the floors. -/
theorem allocations_fit (hdefinition : arena.definition.Typed .release) {multiplier : F}
    {a : Admission F} (ha : Admitted lib.release arena request counter multiplier a)
    (hfits : Arith.release.Fits
      (a.allocationInputBudget - arena.definition.frameworkReserveTokens))
    (hfloorsFit : Arith.release.Fits
      (arena.definition.modules.map ModuleDefinition.floorTokens).sum) :
    (arena.definition.modules.map ModuleDefinition.floorTokens).sum ≤
        a.allocationInputBudget - arena.definition.frameworkReserveTokens ∧
      (a.allocations.map ModuleAllocation.allocatedTokens).sum ≤
        a.allocationInputBudget - arena.definition.frameworkReserveTokens := by
  have hfloors := (validateModelBudget_eq_ok.1 ha.budget).2
  rw [Arith.sub_of_fits hfits, Arith.sum_of_fits hfloorsFit] at hfloors
  obtain ⟨filled, hledger, hallocated⟩ := allocationRun arena.validDefinition
    (fun m hm => (hdefinition.tokens m hm).2.2) (fun m _ => ha.demands_nonneg m.moduleId) hfits
    hfloors
  obtain ⟨donors, hinv⟩ := hallocated.inv
  have hallocations := ha.allocated
  rw [allocate, hledger] at hallocations
  simp only [Except.ok.injEq, Prod.mk.injEq] at hallocations
  have htotal := hinv.total_add
  have hremaining := hinv.remaining_nonneg
  refine ⟨hfloors, ?_⟩
  rw [← hallocations.1, allocations_sum]
  omega

/-- A call whose budget is in range respects it: then no difference or sum has wrapped. -/
theorem BudgetRespected.of_inRange (hdefinition : arena.definition.Typed .release)
    (hmodel : request.model.Typed .release) (hcounter : CounterTyped .release counter)
    {multiplier : F} {a : Admission F} {rs : List (Reclaimed F)}
    (ha : Admitted lib.release arena request counter multiplier a) (hscale : a.counts.Scales)
    (hrun : PreparedRun lib.release arena request results a plan rs)
    (hrange : BudgetInRange arena.definition request.model) :
    BudgetRespected arena.definition plan := by
  have hvalid := arena.validDefinition
  obtain ⟨hcontext, hreserved⟩ := ha.model_limits
  have hreserve := hvalid.reserve_nonneg
  obtain ⟨-, hcontextMax⟩ := hmodel.contextLimit
  obtain ⟨-, hreservedMax⟩ := hmodel.reservedOutput
  obtain ⟨-, hreserveMax⟩ := hdefinition.reserve
  have husable := hrange.usable
  have hfloorsMax := hrange.floors
  simp only [i32Min, i32Max] at hcontextMax hreservedMax hreserveMax husable hfloorsMax
  have hfloorsNonneg := floors_sum_nonneg hvalid
  -- the context and the usable budget are exact
  have hinput : a.inputBudget =
      request.model.contextLimitTokens - request.model.reservedOutputTokens := by
    rw [ha.inputBudget]
    exact Arith.sub_of_fits (Arith.fits_release.2 (by omega))
  have hlimit : Arith.release.sub a.inputBudget arena.definition.frameworkReserveTokens =
      request.model.contextLimitTokens - request.model.reservedOutputTokens -
        arena.definition.frameworkReserveTokens := by
    rw [hinput]
    exact Arith.sub_of_fits (Arith.fits_release.2 (by omega))
  have hprompt := hrun.fits
  have hpromptNonneg := promptTokens_nonneg hscale hrun
  rw [hlimit] at hprompt
  -- so is what the allocator gets, because the prompt already fits
  have htyped : a.counts.Typed lib.release := by
    rw [ha.counts]
    exact hcounter
  obtain ⟨hoverhead, -, hoverheadMax⟩ :=
    renderSeparatorTokens_bounds hscale htyped a.contributions arena.definition
  have hallocation : a.allocationInputBudget = a.inputBudget -
      (renderSeparatorTokens lib.release a.counts a.contributions arena.definition).val := by
    rw [ha.allocationInputBudget]
    generalize (renderSeparatorTokens lib.release a.counts a.contributions arena.definition).val =
      overhead at hoverhead hoverheadMax ⊢
    simp only [i32Max] at hoverheadMax
    exact Arith.sub_of_fits (Arith.fits_release.2 (by omega))
  generalize (renderSeparatorTokens lib.release a.counts a.contributions arena.definition).val =
    overhead at hoverhead hoverheadMax hallocation
  simp only [i32Max] at hoverheadMax
  have hfits : Arith.release.Fits
      (a.allocationInputBudget - arena.definition.frameworkReserveTokens) :=
    Arith.fits_release.2 (by omega)
  obtain ⟨hfloors, hsum⟩ :=
    allocations_fit hdefinition ha hfits (Arith.fits_release.2 (by omega))
  rw [← hrun.allocations] at hsum
  refine ⟨?_, ?_, ?_⟩
  · rw [hrun.contextLimit, hrun.reservedOutput, hrun.frameworkReserve]
    omega
  · rw [hrun.contextLimit, hrun.reservedOutput, hrun.frameworkReserve]
    omega
  · rw [hrun.contextLimit, hrun.reservedOutput, hrun.frameworkReserve]
    omega

/-- A call that respects its budget has a budget in range. -/
theorem BudgetInRange.of_respected (hmodel : request.model.Typed .release) {multiplier : F}
    {a : Admission F} {rs : List (Reclaimed F)}
    (ha : Admitted lib.release arena request counter multiplier a) (hscale : a.counts.Scales)
    (hrun : PreparedRun lib.release arena request results a plan rs)
    (h : BudgetRespected arena.definition plan) :
    BudgetInRange arena.definition request.model := by
  obtain ⟨-, hreserved⟩ := ha.model_limits
  have hreserve := arena.validDefinition.reserve_nonneg
  have hprompt := h.prompt
  have hfloors := h.floors
  have hpromptNonneg := promptTokens_nonneg hscale hrun
  obtain ⟨-, hcontextMax⟩ := hmodel.contextLimit
  rw [hrun.contextLimit, hrun.reservedOutput, hrun.frameworkReserve] at hprompt hfloors
  refine ⟨?_, by omega⟩
  simp only [i32Min]
  omega

end Release

/-- A successful call respects its budget, counted in unbounded integers, if and only if neither
the usable budget nor the sum of the floors leaves the range of a 32-bit integer. -/
theorem budgetRespected_iff {lib : Library} {arena : ContextLeaseArena F} {env : Env}
    {request : PrepareRequest F} (results : List SemanticResult) {counter : Option TokenCounter}
    {plan : PreparedContextPlan F} {s : ArenaState F}
    (hdefinition : arena.definition.Typed .release) (hmodel : request.model.Typed .release)
    (hcounter : CounterTyped .release counter) (hs : Reachable lib.release arena s)
    (h : (prepare lib.release arena env request counter s).1 = .ok plan ∨
      (prepareCommit lib.release arena env request results counter s).1 = .ok plan) :
    BudgetRespected arena.definition plan ↔ BudgetInRange arena.definition request.model := by
  obtain ⟨results', a, rs, ha, hrun⟩ := successful_call h
  have hscale := hs.scales lib.release arena ha
  exact ⟨BudgetInRange.of_respected hmodel ha hscale hrun,
    BudgetRespected.of_inRange hdefinition hmodel hcounter ha hscale hrun⟩

theorem budgetRespected_iff_example :
    ∃ plan, (prepare (Library.ascii id).release exampleArena default exampleRequest none {}).1 =
        .ok plan ∧ BudgetRespected exampleArena.definition plan := by
  obtain ⟨plan, hplan⟩ := exampleRequest_prepared
  have hcounter : CounterTyped .release none := by
    intro count hcount
    cases hcount
  exact ⟨plan, hplan, (budgetRespected_iff [] ⟨by decide, by decide⟩ ⟨by decide, by decide⟩ hcounter
    ⟨[], rfl⟩ (Or.inl hplan)).2 ⟨by decide, by decide⟩⟩

/-- Four modules whose floors add up to 2 ^ 32. -/
def wrappingArena : ContextLeaseArena ℚ where
  definition :=
    { arenaId := "arena"
      modules := ["a", "b", "c", "d"].map fun id =>
        { moduleId := id, floorTokens := 1073741824, targetTokens := 1073741824,
          maxTokens := 1073741824, weight := 1 } }
  layoutHash := "layout"
  instanceId := "arena-1-1"
  valid := by decide +kernel

/-- A request for a model of 100 tokens. -/
def smallRequest : PrepareRequest ℚ :=
  { model := { modelProfileId := "model", contextLimitTokens := 100, reservedOutputTokens := 0 } }

/-- The sum of the floors wraps to zero, and a budget of 100 tokens is admitted. -/
theorem wrapped_floors_admitted :
    ∃ plan, (prepare (Library.ascii id).release wrappingArena default smallRequest none {}).1 =
      .ok plan ∧ ¬ BudgetRespected wrappingArena.definition plan := by
  have hlimit : ((prepare (Library.ascii id).release wrappingArena default smallRequest none
      {}).1.map fun plan => plan.contextLimitTokens - plan.reservedOutputTokens -
        plan.frameworkReserveTokens).toOption = some 100 := by decide +kernel
  cases hplan : (prepare (Library.ascii id).release wrappingArena default smallRequest none
    {}).1 with
  | error e => simp [hplan, Except.map, Except.toOption] at hlimit
  | ok plan =>
      simp only [hplan, Except.map, Except.toOption, Option.some_inj] at hlimit
      refine ⟨plan, rfl, ?_⟩
      intro h
      have hfloors := h.floors
      rw [hlimit] at hfloors
      revert hfloors
      decide

end ContextLease
