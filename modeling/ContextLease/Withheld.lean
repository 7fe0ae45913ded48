/-
Modules that refuse to lend.

A module that refuses to lend is left out of the donors, and so out of what the donors offer.  The
slack is what remains beyond those offers, so the tokens its target leaves unused are lent as slack.

Main definitions:

* `surplus`, `lendable`, `withheld`, `wantedBeyond` — what a budget leaves beyond the targets asked
  for, what the modules leave unused, and what is asked for;
* `KeepsWithheld` — the leases do not touch what the modules that refuse to lend leave unused;
* `LendsWithin` — when there is no need to touch it.

Main results:

* `granted_eq` — the leases hand out what remains, as far as it is asked for;
* `keepsWithheld_iff` — what is withheld is kept exactly when there is no need to touch it.
-/

import ContextLease.Expansion

set_option relaxedAutoImplicit false
set_option autoImplicit false

namespace ContextLease

open MachineNumbers

variable {F : Type}

section Lending

variable (definition : ArenaDefinition F) (demands : String → ℤ)

/-- What a module leaves unused of its target. -/
def unusedTarget (m : ModuleDefinition F) : ℤ :=
  m.targetTokens - min m.targetTokens (demands m.moduleId)

/-- What some modules leave unused of their targets. -/
def unusedTargets (ms : List (ModuleDefinition F)) : ℤ := (ms.map (unusedTarget demands)).sum

/-- The unused targets of the modules that lend. -/
def lendable : ℤ := unusedTargets demands (definition.modules.filter ModuleDefinition.canLend)

/-- The unused targets of the modules that refuse to lend. -/
def withheld : ℤ := unusedTargets demands (definition.modules.filter fun m => !m.canLend)

/-- What the modules that may expand ask for beyond their targets. -/
def wantedBeyond : ℤ :=
  ((definition.modules.filter (mayExpand demands)).map (expansionNeed demands)).sum

/-- What a budget leaves beyond the targets asked for. -/
def surplus (inputBudget : ℤ) : ℤ :=
  inputBudget - definition.frameworkReserveTokens -
    (definition.modules.map fun m => min m.targetTokens (demands m.moduleId)).sum

/-- No tokens are lent out of the unused target of a module that refuses to lend: what is left is no
more than the others lend, or no module that refuses leaves anything unused, or no more is asked for
than there is without it. -/
def LendsWithin (inputBudget : ℤ) : Prop :=
  surplus definition demands inputBudget ≤ lendable definition demands ∨
    withheld definition demands = 0 ∨
    wantedBeyond definition demands ≤ max (lendable definition demands)
      (surplus definition demands inputBudget - withheld definition demands)

/-- The leases of an allocation do not touch what the modules that refuse to lend leave unused of
their targets, as it is after the target fill. -/
def KeepsWithheld [FloatOps F] (layoutHash : String) (inputBudget : ℤ) : Prop :=
  ∃ allocations leases,
    allocate .exact definition demands layoutHash inputBudget = .ok (allocations, leases) ∧
      let filled := targetFill definition demands inputBudget
      let unused := fun m : ModuleDefinition F => m.targetTokens - filled.1 m.moduleId
      (leases.map Lease.grantedTokens).sum ≤
        ((definition.modules.filter ModuleDefinition.canLend).map unused).sum +
          max 0 (filled.2 - (definition.modules.map unused).sum)

instance (inputBudget : ℤ) : Decidable (LendsWithin definition demands inputBudget) :=
  inferInstanceAs (Decidable (_ ∨ _ ∨ _))

end Lending

section Withheld

variable [FloatOps F] {definition : ArenaDefinition F} {demands : String → ℤ}

omit [FloatOps F] in
/-- What the modules that lend and those that refuse leave unused make up what all leave unused. -/
theorem unused_split (unused : ModuleDefinition F → ℤ) :
    ((definition.modules.filter ModuleDefinition.canLend).map unused).sum +
        ((definition.modules.filter fun m => !m.canLend).map unused).sum =
      (definition.modules.map unused).sum := by
  have hsplit := List.sum_map_filter_add_sum_map_filter_not
    (fun m : ModuleDefinition F => m.canLend = true) unused definition.modules
  simpa using hsplit

variable (hvalid : ValidDefinition definition)
  (hdemands : ∀ m ∈ definition.modules, 0 ≤ demands m.moduleId) {inputBudget : ℤ}
  (hbudget : validateModelBudget .exact definition inputBudget = .ok ())

omit [FloatOps F] in
theorem unusedTargets_nonneg (ms : List (ModuleDefinition F)) : 0 ≤ unusedTargets demands ms := by
  refine List.sum_nonneg ?_
  intro x hx
  obtain ⟨m, -, rfl⟩ := List.mem_map.1 hx
  rw [unusedTarget]
  omega

include hvalid hdemands hbudget

/-- The leases hand out what remains, as far as it is asked for. -/
theorem granted_eq (hweights : WeightsCompare definition.modules) :
    (borrowAfter .exact definition demands (targetFill definition demands inputBudget)).granted =
      min (targetFill definition demands inputBudget).2 (wantedBeyond definition demands) := by
  obtain ⟨-, -, hremaining, hgranted⟩ := borrowAfter_greedy hvalid hweights hdemands hbudget
  have hneed : ∀ m ∈ expansionQueue definition demands, 0 ≤ expansionNeed demands m :=
    fun m hm => (expansionNeed_bounds hvalid hm).1
  have hnonneg := (targetFill_result hvalid hdemands hbudget).remaining_nonneg
  have hsum : ((expansionQueue definition demands).map (expansionNeed demands)).sum =
      wantedBeyond definition demands :=
    ((List.perm_insertionSort _ _).map _).sum_eq
  rw [Rationing.left_eq hneed hnonneg, hsum] at hremaining
  have hwanted : 0 ≤ wantedBeyond definition demands := by
    rw [← hsum]
    refine List.sum_nonneg ?_
    intro x hx
    obtain ⟨m, hm, rfl⟩ := List.mem_map.1 hx
    exact hneed m hm
  omega

/-- The surplus is what the target fill leaves, if it leaves anything. -/
theorem surplus_eq :
    let filled := targetFill definition demands inputBudget
    (0 < filled.2 → surplus definition demands inputBudget = filled.2) ∧
      (filled.2 = 0 → surplus definition demands inputBudget ≤ 0) := by
  intro filled
  have hfill := targetFill_result hvalid hdemands hbudget
  have htotal : Ledger.total (definition.modules.map ModuleDefinition.moduleId) filled.1 +
      filled.2 =
      inputBudget - definition.frameworkReserveTokens := by
    have hadd := hfill.total_add
    rw [fillBudget] at hadd
    change Ledger.total _ filled.1 + filled.2 = _ at hadd
    omega
  rw [Ledger.total, List.map_map] at htotal
  rw [surplus]
  constructor
  · intro hpos
    have hcaps : definition.modules.map (filled.1 ∘ ModuleDefinition.moduleId) =
        definition.modules.map fun m => min m.targetTokens (demands m.moduleId) :=
      List.map_congr_left fun m hm => targetFill_full hvalid hdemands hbudget hpos hm
    rw [hcaps] at htotal
    omega
  · intro hzero
    have hle : (definition.modules.map (filled.1 ∘ ModuleDefinition.moduleId)).sum ≤
        (definition.modules.map fun m => min m.targetTokens (demands m.moduleId)).sum :=
      List.sum_le_sum fun m hm => (filled_bounds hvalid hdemands hfill hm).2.2
    omega

/-- The leases leave alone what the modules that refuse to lend do not use exactly when the budget
lends within what the others leave. -/
theorem keepsWithheld_iff (hweights : WeightsCompare definition.modules) (layoutHash : String) :
    KeepsWithheld definition demands layoutHash inputBudget ↔
      LendsWithin definition demands inputBudget := by
  have hledger := allocateLedger_targetFill hvalid hdemands hbudget
  have hgranted := granted_eq hvalid hdemands hbudget hweights
  obtain ⟨hsurplus, hnone⟩ := surplus_eq hvalid hdemands hbudget
  have hfill := targetFill_result hvalid hdemands hbudget
  have hfull := targetFill_full hvalid hdemands hbudget
  set filled := targetFill definition demands inputBudget with hfilled
  set unused := fun m : ModuleDefinition F => m.targetTokens - filled.1 m.moduleId with hunused
  have hleases : ∀ allocations leases,
      allocate .exact definition demands layoutHash inputBudget = .ok (allocations, leases) →
        (leases.map Lease.grantedTokens).sum =
          min filled.2 (wantedBeyond definition demands) := by
    intro allocations leases hall
    rw [allocate, hledger] at hall
    simp only [Except.ok.injEq, Prod.mk.injEq] at hall
    rw [← hall.2, List.map_map, ← hgranted]
    rfl
  have hiff : KeepsWithheld definition demands layoutHash inputBudget ↔
      min filled.2 (wantedBeyond definition demands) ≤
        ((definition.modules.filter ModuleDefinition.canLend).map unused).sum +
          max 0 (filled.2 - (definition.modules.map unused).sum) := by
    constructor
    · rintro ⟨allocations, leases, hall, hle⟩
      rwa [hleases _ _ hall] at hle
    · intro hle
      refine ⟨_, _, by rw [allocate, hledger], ?_⟩
      rwa [hleases _ _ (by rw [allocate, hledger])]
  have hlend : 0 ≤ lendable definition demands := unusedTargets_nonneg _
  have hkept : 0 ≤ withheld definition demands := unusedTargets_nonneg _
  rw [hiff, ← unused_split, LendsWithin]
  rcases hfill.remaining_nonneg.lt_or_eq with hpos | hzero
  · have hsame : ∀ ms : List (ModuleDefinition F), (∀ m ∈ ms, m ∈ definition.modules) →
        (ms.map unused).sum = unusedTargets demands ms := by
      intro ms hms
      rw [unusedTargets]
      refine congrArg List.sum (List.map_congr_left ?_)
      intro m hm
      rw [hunused, unusedTarget, ← hfull hpos (hms m hm)]
    rw [hsame _ fun m hm => (List.mem_filter.1 hm).1, hsame _ fun m hm => (List.mem_filter.1 hm).1]
    change _ ≤ lendable definition demands +
      max 0 (filled.2 - (lendable definition demands + withheld definition demands)) ↔ _
    rw [hsurplus hpos]
    omega
  · -- without tokens left nothing is lent
    have hnonneg : 0 ≤ ((definition.modules.filter ModuleDefinition.canLend).map unused).sum := by
      refine List.sum_nonneg ?_
      intro x hx
      obtain ⟨m, hm, rfl⟩ := List.mem_map.1 hx
      have hle := (filled_bounds hvalid hdemands hfill (List.mem_filter.1 hm).1).2.2
      change 0 ≤ m.targetTokens - filled.1 m.moduleId
      omega
    have hzero' : filled.2 = 0 := hzero.symm
    have hle := hnone hzero'
    constructor
    · intro _
      exact Or.inl (hle.trans hlend)
    · intro _
      omega

end Withheld

/-- A pinned module that refuses to lend, and a module that may borrow. -/
def keeperDefinition : ArenaDefinition ℚ where
  arenaId := "notes"
  modules :=
    [{ moduleId := "keeper", floorTokens := 0, targetTokens := 4, maxTokens := 4, weight := 1,
       canBorrow := false, canLend := false },
     { moduleId := "reader", floorTokens := 0, targetTokens := 2, maxTokens := 6, order := 1,
       weight := 1, reclaimPipeline := [⟨"builtin.text.boundary_truncate.v1", []⟩] }]

/-- Only the reader asks for tokens. -/
def readerDemands (id : String) : ℤ := if id = "reader" then 6 else 0

/-- Of ten tokens the four of the keeper are left alone when four others are lent. -/
theorem keepsWithheld_iff_example : KeepsWithheld keeperDefinition readerDemands "layout" 10 :=
  (keepsWithheld_iff (validateDefinition_ok (by decide +kernel)) (by decide +kernel)
    (by decide +kernel) (weightsCompare_rat _) "layout").2 (by decide +kernel)

/-- Of the six tokens that are left four belong to the target of the keeper, and four are lent. -/
theorem withheld_lent :
    validateDefinition keeperDefinition = .ok () ∧
      validateModelBudget .exact keeperDefinition 8 = .ok () ∧
      ¬ KeepsWithheld keeperDefinition readerDemands "layout" 8 := by
  refine ⟨by decide +kernel, by decide +kernel, ?_⟩
  rintro ⟨allocations, leases, hall, hle⟩
  have hgranted : ((allocate .exact keeperDefinition readerDemands "layout" 8).map fun result =>
      (result.2.map Lease.grantedTokens).sum).toOption = some 4 := by decide +kernel
  rw [hall] at hgranted
  have hbound : ((keeperDefinition.modules.filter ModuleDefinition.canLend).map fun m =>
      m.targetTokens - (targetFill keeperDefinition readerDemands 8).1 m.moduleId).sum +
        max 0 ((targetFill keeperDefinition readerDemands 8).2 -
          (keeperDefinition.modules.map fun m =>
            m.targetTokens - (targetFill keeperDefinition readerDemands 8).1 m.moduleId).sum) =
      2 := by decide +kernel
  simp only [Except.map, Except.toOption, Option.some_inj] at hgranted
  simp only [hgranted, hbound] at hle
  omega

end ContextLease
