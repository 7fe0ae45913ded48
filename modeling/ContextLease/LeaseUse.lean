/-
What leases say is in use.

The allocator grants a borrower what it asks for beyond its target, and the lease of a grant says
that all of it is used.  What the module uses in the end is decided later, by its chunks and its
reclaim, and may be less.  Nothing is amiss as long as no module that may borrow asks for more than
its target; where one does, some request that asks for the same has leases that say too much.

Main definitions:

* `usedByLeases` — what the leases of a borrower say that it uses;
* `LeaseUseReflected` — the leases of a module say no more than its plan;
* `askedTokens`, `Reports` — what a request asks for, by what it reports or by what it counts;
* `LeaseUseKept` — in every run, the plans of some requests have such leases.

Main results:

* `Admitted.leases_eq_nil` — nothing is lent while nobody asks for more than its target;
* `exists_overstated` — a request that asks for more, and whose leases say too much;
* `lease_use_iff` — for which demands the leases of all plans say no more than their modules.
-/

import ContextLease.LeaseClash
import ContextLease.PlanAccounts
import ContextLease.Withheld

set_option relaxedAutoImplicit false
set_option autoImplicit false

namespace ContextLease

open MachineNumbers RustText

/-- What the leases of a borrower say that it uses. -/
def usedByLeases (leases : List Lease) (id : String) : ℤ :=
  ((leases.filter fun l => l.borrowerModuleId = id).map Lease.currentlyUsedTokens).sum

variable {F : Type} [FloatOps F]

/-- The leases of a plan and of its snapshot say no more than that a module uses what its plan says
it uses beyond its local capacity. -/
structure LeaseUseReflected (plan : PreparedContextPlan F) (p : PreparedModulePlan F) : Prop where
  returned : usedByLeases plan.leases p.moduleId ≤
    max 0 (p.usage.usedTokens - p.usage.localCapacityTokens)
  snapshot : usedByLeases plan.snapshot.leases p.moduleId ≤
    max 0 (p.usage.usedTokens - p.usage.localCapacityTokens)

/-! ### What a request asks for -/

section Demands

variable (P : Platform) (arena : ContextLeaseArena F)

/-- What a call asks for a module: what it reports, or else what the chunks it contributes count. -/
def askedTokens (s : ArenaState F) (call : Call F) (m : ModuleDefinition F) : ℤ :=
  let counts : CountContext F :=
    ⟨call.request.model.tokenizerId, call.counter, safetyMultiplier s call.request.model⟩
  let contribution := call.request.contributions.find? fun c => c.moduleId == m.moduleId
  max ((contribution.bind ModuleContribution.observedDemandTokens).getD
    (counts.countChunks P (contributedChunks call.request m)).val) 0

/-- No module that may borrow asks for more than its target. -/
def AsksWithinTargets (s : ArenaState F) (call : Call F) : Prop :=
  ∀ m ∈ arena.definition.modules, MayBorrow 1 m → askedTokens P s call m ≤ m.targetTokens

omit [FloatOps F] in
/-- A call reports demands for all modules. -/
def Reports (wanted : ModuleDefinition F → ℤ) (call : Call F) : Prop :=
  ∀ m ∈ arena.definition.modules, ∃ c ∈ call.request.contributions,
    c.moduleId = m.moduleId ∧ c.observedDemandTokens = some (wanted m)

/-- In every run, the leases of the plans of some calls say no more than their modules. -/
def LeaseUseKept (among : ArenaState F → Call F → Prop) : Prop :=
  ∀ (ops : List (Op F)) (op : Op F) (call : Call F) (plan : PreparedContextPlan F),
    op.call = some call → among (run P arena {} ops) call →
    planOf P arena (run P arena {} ops) op = some plan →
    ∀ p ∈ plan.modulePlans, LeaseUseReflected plan p

variable {P arena}

omit [FloatOps F] in
/-- A module finds the first contribution to it. -/
theorem contributions_eq_find? {definition : ArenaDefinition F}
    {values : List (ModuleContribution F)} {contributions : HashMap (ModuleContribution F)}
    (h : validateContributions definition values = .ok contributions) (id : String) :
    contributions id = values.find? fun c => c.moduleId == id := by
  obtain ⟨-, hkeyed⟩ := validateContributions_ok h
  cases hfind : values.find? fun c => c.moduleId == id with
  | some c =>
      have hid : c.moduleId = id := by simpa using List.find?_some hfind
      exact (hkeyed id c).2 ⟨List.mem_of_find?_eq_some hfind, hid⟩
  | none =>
      cases hc : contributions id with
      | none => rfl
      | some c =>
          obtain ⟨hmem, hid⟩ := (hkeyed id c).1 hc
          have hnot := List.find?_eq_none.1 hfind c hmem
          simp [hid] at hnot

/-- The demand of a module is what the call asks for. -/
theorem Admitted.demands_eq_asked {s : ArenaState F} {call : Call F} {a : Admission F}
    (h : Admitted P arena call.request call.counter (safetyMultiplier s call.request.model) a)
    {m : ModuleDefinition F} (hm : m ∈ arena.definition.modules) :
    a.demands m.moduleId = askedTokens P s call m := by
  rw [h.demands, demandsOf_apply P _ _ arena.validDefinition hm, moduleDemand, h.counts,
    contributions_eq_find? h.contributions, chunksOf_eq h.contributions]
  rfl

/-- A call that reports demands asks for them. -/
theorem Reports.asked_eq {wanted : ModuleDefinition F → ℤ} {s : ArenaState F} {call : Call F}
    (h : Reports arena wanted call) {a : Admission F}
    (ha : Admitted P arena call.request call.counter (safetyMultiplier s call.request.model) a)
    {m : ModuleDefinition F} (hm : m ∈ arena.definition.modules) :
    askedTokens P s call m = max (wanted m) 0 := by
  obtain ⟨c, hc, hid, hobserved⟩ := h m hm
  have hgiven := ((validateContributions_ok ha.contributions).2 m.moduleId c).2 ⟨hc, hid⟩
  rw [contributions_eq_find? ha.contributions] at hgiven
  simp only [askedTokens, hgiven, Option.bind_some, hobserved, Option.getD_some]

end Demands

/-! ### Requests that ask for no more than the targets -/

section Within

variable {P : Platform} {arena : ContextLeaseArena F}

/-- Nothing is lent while no module that may borrow asks for more than its target. -/
theorem Admitted.leases_eq_nil {request : PrepareRequest F} {counter : Option TokenCounter}
    {multiplier : F} {a : Admission F} (h : Admitted P arena request counter multiplier a)
    (hmax : ∀ m ∈ arena.definition.modules, P.arith.Fits m.maxTokens)
    (hweights : WeightsCompare arena.definition.modules)
    (hwithin : ∀ m ∈ arena.definition.modules, MayBorrow 1 m →
      a.demands m.moduleId ≤ m.targetTokens) : a.leases = [] := by
  have hdemands : ∀ m ∈ arena.definition.modules, 0 ≤ a.demands m.moduleId :=
    fun m _ => h.demands_nonneg m.moduleId
  have hallocated := h.allocated
  rw [allocate] at hallocated
  split at hallocated
  · rename_i b hledger
    obtain ⟨-, hleases⟩ := Prod.mk.inj (Except.ok.inj hallocated)
    obtain ⟨filled, donors, hfilled, hserved⟩ :=
      exists_served arena.validDefinition hmax hweights hdemands hledger
    have hnone : b.grants = [] := by
      refine List.eq_nil_iff_forall_not_mem.2 ?_
      intro g hg
      have horigin := hserved.grantOrigin hdemands hfilled hg
      have hle := hwithin _ horigin.borrower_mem horigin.mayBorrow
      exact absurd horigin.demands_more (not_lt.2 hle)
    rw [← hleases, hnone, List.map_nil]
  · cases hallocated

/-- The leases and modules of the plan of a decided call. -/
theorem planned_of_decision {s : ArenaState F} {call : Call F} {admission : Admission F}
    {settled : Settled F} (h : call.decision P arena s = .ok (admission, settled)) :
    Admitted P arena call.request call.counter (safetyMultiplier s call.request.model)
        admission ∧
      ∃ xs, PlannedModules P arena call.env call.results admission s
        (call.plan P arena admission settled s) xs := by
  have hprepared : (prepareWithResults P arena call.env call.request call.results call.counter
      s).1 = .ok (call.plan P arena admission settled s) := by
    rw [prepareWithResults_eq, h]
  obtain ⟨admission', xs, hadmitted', hplanned⟩ := prepareWithResults_plan hprepared
  have hadmitted := (decision_ok P arena h).1
  obtain rfl := hadmitted.unique hadmitted'
  exact ⟨hadmitted, xs, hplanned⟩

/-- If no module that may borrow asks for more than its target, the leases say nothing. -/
theorem leaseUseKept_of_within (hmax : ∀ m ∈ arena.definition.modules, P.arith.Fits m.maxTokens)
    (hweights : WeightsCompare arena.definition.modules) :
    LeaseUseKept P arena (AsksWithinTargets P arena) := by
  intro ops op call plan hcall hwithin hplan p _
  obtain ⟨call', admission, settled, hcall', hdecided, rfl, -⟩ := call_of_planOf hplan
  obtain rfl := Option.some.inj (hcall.symm.trans hcall')
  obtain ⟨hadmitted, xs, hplanned⟩ := planned_of_decision hdecided
  have hnone : admission.leases = [] := by
    refine hadmitted.leases_eq_nil hmax hweights ?_
    intro m hm hborrow
    rw [hadmitted.demands_eq_asked hm]
    exact hwithin m hm hborrow
  have hunused : usedByLeases admission.leases p.moduleId = 0 := by rw [hnone]; rfl
  constructor
  · rw [hplanned.leases, hunused]
    exact le_max_left ..
  · rw [hplanned.snapshot, hunused]
    exact le_max_left ..

end Within

/-! ### Requests that ask for more -/

section Overstated

variable {arena : ContextLeaseArena F}

/-- With tokens left over, a module that may borrow and asks for more than its target brings about
a lease. -/
theorem exists_lent (hweights : WeightsCompare arena.definition.modules)
    {wanted : ModuleDefinition F → ℤ} (hwanted : ∀ m ∈ arena.definition.modules, 0 ≤ wanted m)
    {asking : ModuleDefinition F} (hasking : asking ∈ arena.definition.modules)
    (hborrow : MayBorrow 1 asking) (hmore : asking.targetTokens < wanted asking)
    {demands : String → ℤ}
    (hdemands : ∀ m ∈ arena.definition.modules, demands m.moduleId = wanted m) :
    ∃ inputBudget b, 0 < inputBudget ∧
      validateModelBudget .exact arena.definition inputBudget = .ok () ∧
      allocateLedger .exact arena.definition demands inputBudget = .ok b ∧
      b.grants.map (lease arena.layoutHash) ≠ [] := by
  have hvalid := arena.validDefinition
  have hnonneg : ∀ m ∈ arena.definition.modules, 0 ≤ demands m.moduleId := by
    intro m hm
    rw [hdemands m hm]
    exact hwanted m hm
  have hfloors := floors_sum_nonneg hvalid
  have hreserve := hvalid.reserve_nonneg
  have hfilled : 0 ≤
      (arena.definition.modules.map fun m => min m.targetTokens (demands m.moduleId)).sum := by
    refine List.sum_nonneg ?_
    intro n hn
    obtain ⟨m, hm, rfl⟩ := List.mem_map.1 hn
    exact le_min (hvalid.valid m hm).target_nonneg (hnonneg m hm)
  -- a budget that leaves something when all modules are filled up to their targets
  obtain ⟨inputBudget, hinput⟩ : ∃ inputBudget, inputBudget =
      arena.definition.frameworkReserveTokens +
        ((arena.definition.modules.map fun m => min m.targetTokens (demands m.moduleId)).sum +
          ((arena.definition.modules.map ModuleDefinition.floorTokens).sum + 1)) := ⟨_, rfl⟩
  have hbudget : validateModelBudget .exact arena.definition inputBudget = .ok () := by
    rw [validateModelBudget_eq_ok]
    simp only [Arith.sub_exact, Arith.sum_exact]
    omega
  have hleft : 0 < (targetFill arena.definition demands inputBudget).2 := by
    have hremaining := (targetFill_result hvalid hnonneg hbudget).remaining_nonneg
    have hsurplus := (surplus_eq hvalid hnonneg hbudget).2
    rw [surplus] at hsurplus
    omega
  have hneed : 0 < wantedBeyond arena.definition demands := by
    have hexpands : asking ∈ arena.definition.modules.filter (mayExpand demands) :=
      List.mem_filter.2 ⟨hasking, mayExpand_iff.2 ⟨hborrow.1, by rwa [hdemands _ hasking]⟩⟩
    have hle := List.single_le_sum (fun n hn => by
      obtain ⟨m, hm, rfl⟩ := List.mem_map.1 hn
      exact (expansionNeed_bounds hvalid ((List.mem_insertionSort _).2 hm)).1)
      _ (List.mem_map_of_mem (f := expansionNeed demands) hexpands)
    have hroom := hborrow.2
    rw [expansionNeed, hdemands _ hasking] at hle
    rw [wantedBeyond]
    omega
  refine ⟨inputBudget, _, by omega, hbudget, allocateLedger_targetFill hvalid hnonneg hbudget, ?_⟩
  have hgranted := granted_eq hvalid hnonneg hbudget hweights
  intro hnone
  rw [Borrowing.granted, List.map_eq_nil_iff.1 hnone] at hgranted
  have hpos := lt_min hleft hneed
  rw [← hgranted] at hpos
  exact hpos.ne rfl

/-- A borrower has a lease that says that something is used. -/
theorem usedByLeases_pos {ar : Arith} {demands filled : String → ℤ} {offers : List (String × ℤ)}
    {borrowers : List (ModuleDefinition F)} {available : ℤ} {donors : List (String × ℤ)}
    {b : Borrowing F} (hinv : BorrowInv ar arena.definition demands filled offers borrowers
      available donors b) {g : Grant F} (hg : g ∈ b.grants) :
    0 < usedByLeases (b.grants.map (lease arena.layoutHash)) g.borrower.moduleId := by
  refine (hinv.tokens_pos g hg).trans_le (List.single_le_sum ?_ g.tokens ?_)
  · intro n hn
    obtain ⟨l, hl, rfl⟩ := List.mem_map.1 hn
    obtain ⟨g', hg', rfl⟩ := List.mem_map.1 (List.mem_filter.1 hl).1
    exact (hinv.tokens_pos g' hg').le
  · refine List.mem_map.2 ⟨lease arena.layoutHash g, List.mem_filter.2 ⟨?_, ?_⟩, rfl⟩
    · exact List.mem_map_of_mem hg
    · exact decide_eq_true rfl

/-- If a module that may borrow asks for more than its target, some call that reports the same
demands has leases that say that more is used than is. -/
theorem exists_overstated (lib : Library) (hweights : WeightsCompare arena.definition.modules)
    {wanted : ModuleDefinition F → ℤ} (hwanted : ∀ m ∈ arena.definition.modules, 0 ≤ wanted m)
    {asking : ModuleDefinition F} (hasking : asking ∈ arena.definition.modules)
    (hborrow : MayBorrow 1 asking) (hmore : asking.targetTokens < wanted asking) :
    ∃ (op : Op F) (call : Call F) (plan : PreparedContextPlan F), op.call = some call ∧
      Reports arena wanted call ∧ planOf lib.exact arena {} op = some plan ∧
      ∃ p ∈ plan.modulePlans, ¬ LeaseUseReflected plan p := by
  obtain ⟨call, admission, settled, hdecided, hlent, -, hresults, hcontributions, hfree⟩ :=
    @exists_leased F _ lib arena wanted hwanted (· ≠ [])
      (fun demands hdemands =>
        exists_lent hweights hwanted hasking hborrow hmore hdemands) {} (fun _ => rfl)
  obtain ⟨hadmitted, xs, hplanned⟩ := planned_of_decision hdecided
  refine ⟨_, call, _, ?_, ?_, (planOf_prepare hresults hdecided).1, ?_⟩
  · obtain ⟨env, request, results, counter⟩ := call
    obtain rfl : results = [] := hresults
    rfl
  · intro m hm
    rw [hcontributions]
    exact ⟨_, List.mem_map_of_mem hm, rfl, rfl⟩
  · obtain ⟨filled, b, hrun, hallocations, hleases⟩ := hadmitted.allocationRun
    obtain ⟨donors, hinv⟩ := hrun.inv
    rw [hleases] at hlent
    obtain ⟨g, hg⟩ := List.exists_mem_of_ne_nil _ fun hnil => hlent (List.map_eq_nil_iff.2 hnil)
    have hm := (mem_borrowersOf.1 (hinv.borrower_mem g hg)).1
    have hused := usedByLeases_pos hinv hg
    have hcurrent := hinv.current_nonneg hrun.setting hm
    have hallocation : allocationOf admission.allocations g.borrower =
        moduleAllocation .exact admission.demands b g.borrower := by
      rw [hallocations, allocationOf_eq arena.validDefinition.ids_nodup hm]
    obtain ⟨x, hx, hsettled⟩ := exists_of_forall₂ hplanned.settled (mem_orderedModules.2 hm)
    -- the borrower has been given no tokens to use
    have hnothing : x.tokens.after = 0 := by
      obtain ⟨hbefore, ⟨-, -, hafter⟩ | ⟨hover, -⟩⟩ := reclaimModule_ok hsettled.reclaimed
      · exact hafter.trans (hbefore.trans (hfree _ hm))
      · simp only at hbefore hover
        rw [hbefore, hfree _ hm, hallocation, moduleAllocation] at hover
        exact absurd hcurrent (not_le.2 hover)
    refine ⟨settledPlan lib.exact call.env admission ({} : ArenaState F).previousUsage x, ?_, ?_⟩
    · rw [hplanned.modulePlans]
      exact List.mem_map_of_mem hx
    · intro hreflected
      have hreturned := hreflected.returned
      rw [hplanned.leases, hleases] at hreturned
      simp only [settledPlan, moduleUsageOf, hsettled.module, hallocation, moduleAllocation,
        hnothing] at hreturned
      omega

end Overstated

/-! ### A request that asks for more -/

/-- A request whose history asks for more than it contributes. -/
def overReported : PrepareRequest ℚ where
  model := { modelProfileId := "model", contextLimitTokens := 24, reservedOutputTokens := 4 }
  contributions :=
    [{ moduleId := "history"
       chunks := [{ chunkId := "talk", priority := 1, content := .string "Bye now." }]
       observedDemandTokens := some 6 }]

theorem overReported_leases :
    ((prepare (Library.ascii id).exact exampleArena default overReported none {}).1.map fun plan =>
      plan.modulePlans.map fun p => (usedByLeases plan.leases p.moduleId, p.usage.usedTokens,
        p.usage.localCapacityTokens)).toOption = some [(0, 0, 0), (2, 3, 4)] := by decide +kernel

end ContextLease
