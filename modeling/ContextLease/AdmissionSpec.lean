/-
What an admitted request is allocated.

Over unbounded integers a request that passes the front part of a call gets the allocations of a
run of the allocator.  In the other direction a request can be built that is admitted with a given
budget, and a budget with enough surplus gives a module all it may have.

Main definitions:

* `capacity` — what a module may have at most;
* `probeRequest` — a request for a model with a given context.

Main results:

* `Admitted.allocationRun`, `Admitted.allocated_le` — the allocations of an admitted request;
* `borrowFor_full`, `SoleDemand.allocated` — with enough surplus a module gets what it asks for;
* `admitted_probeRequest`, `validateContributions_of_valid` — building admitted requests.
-/

import ContextLease.AllocationSafety
import ContextLease.ArenaSpec

set_option relaxedAutoImplicit false
set_option autoImplicit false

namespace ContextLease

open MachineNumbers RustText

variable {F : Type}

/-- What a module may have at most. -/
def capacity (m : ModuleDefinition F) : ℤ := if m.canBorrow then m.maxTokens else m.targetTokens

/-- The capacity of a module is a natural number. -/
theorem capacity_nonneg {m : ModuleDefinition F} (h : ValidModule m) : 0 ≤ capacity m := by
  have h₁ := h.target_nonneg
  have h₂ := h.target_le_max
  unfold capacity
  split
  · omega
  · omega

/-- The allocation of a module, found by its id. -/
theorem allocationOf_eq {ar : Arith} {definition : ArenaDefinition F} {demands : String → ℤ}
    {b : Borrowing F} (hnodup : (definition.modules.map ModuleDefinition.moduleId).Nodup)
    {m : ModuleDefinition F} (hm : m ∈ definition.modules) :
    allocationOf ((orderedModules definition).map (moduleAllocation ar demands b)) m =
      moduleAllocation ar demands b m := by
  have hfind : (orderedModules definition).find? (fun m' => m'.moduleId == m.moduleId) =
      some m := by
    obtain ⟨m', hm'⟩ : ∃ m', (orderedModules definition).find?
        (fun m' => m'.moduleId == m.moduleId) = some m' :=
      Option.isSome_iff_exists.1 (List.find?_isSome.2 ⟨m, mem_orderedModules.2 hm, by simp⟩)
    have hid : m'.moduleId = m.moduleId := by simpa using List.find?_some hm'
    rw [hm', eq_of_moduleId_eq hnodup (mem_orderedModules.1 (List.mem_of_find?_eq_some hm')) hm hid]
  rw [allocationOf, List.find?_map]
  change ((Option.map _ ((orderedModules definition).find? fun m' =>
    m'.moduleId == m.moduleId)).getD default) = _
  rw [hfind]
  rfl

variable [FloatOps F]

section Admitted

variable {lib : Library} {arena : ContextLeaseArena F} {request : PrepareRequest F}
  {counter : Option TokenCounter} {multiplier : F} {a : Admission F}

/-- The allocations and leases of an admitted request are those of a run of the allocator. -/
theorem Admitted.allocationRun (h : Admitted lib.exact arena request counter multiplier a) :
    ∃ filled b, AllocationRun .exact arena.definition a.demands
        (a.allocationInputBudget - arena.definition.frameworkReserveTokens) filled b ∧
      a.allocations = (orderedModules arena.definition).map
        (moduleAllocation .exact a.demands b) ∧
      a.leases = b.grants.map (lease arena.layoutHash) := by
  have hbudget := validateModelBudget_eq_ok.1 h.budget
  simp only [Arith.sub_exact, Arith.sum_exact] at hbudget
  obtain ⟨filled, hledger, hrun⟩ := ContextLease.allocationRun arena.validDefinition
    (fun _ _ => Arith.fits_exact _) (fun m _ => h.demands_nonneg m.moduleId)
    (Arith.fits_exact (a.allocationInputBudget - arena.definition.frameworkReserveTokens))
    hbudget.2
  have hallocated := h.allocated
  rw [allocate, hledger] at hallocated
  simp only [Except.ok.injEq, Prod.mk.injEq] at hallocated
  exact ⟨filled, _, hrun, hallocated.1.symm, hallocated.2.symm⟩

/-- No module is allocated more than its capacity. -/
theorem Admitted.allocated_le (h : Admitted lib.exact arena request counter multiplier a)
    {m : ModuleDefinition F} (hm : m ∈ arena.definition.modules) :
    (allocationOf a.allocations m).allocatedTokens ≤ capacity m := by
  obtain ⟨filled, b, hrun, hallocations, -⟩ := h.allocationRun
  have hsafe := hrun.moduleSafe arena.validDefinition (fun m _ => h.demands_nonneg m.moduleId)
    arena.layoutHash hm
  rw [hallocations, allocationOf_eq arena.validDefinition.ids_nodup hm, capacity]
  cases hborrow : m.canBorrow with
  | true =>
      have := hsafe.le_demand
      simp only [if_true]
      omega
  | false =>
      simp only [Bool.false_eq_true, if_false]
      exact hsafe.le_target hborrow

/-- The allocations add up to at most what the request is given. -/
theorem Admitted.allocated_sum_le (h : Admitted lib.exact arena request counter multiplier a) :
    ((orderedModules arena.definition).map fun m =>
      (allocationOf a.allocations m).allocatedTokens).sum ≤
      a.allocationInputBudget - arena.definition.frameworkReserveTokens := by
  obtain ⟨filled, b, hrun, hallocations, -⟩ := h.allocationRun
  have hmap : ((orderedModules arena.definition).map fun m =>
      (allocationOf a.allocations m).allocatedTokens) =
      ((orderedModules arena.definition).map (moduleAllocation .exact a.demands b)).map
        ModuleAllocation.allocatedTokens := by
    rw [List.map_map]
    refine List.map_congr_left ?_
    intro m hm
    rw [hallocations, allocationOf_eq arena.validDefinition.ids_nodup (mem_orderedModules.1 hm)]
    rfl
  obtain ⟨donors, hinv⟩ := hrun.inv
  have htotal := hinv.total_add
  have hremaining := hinv.remaining_nonneg
  rw [hmap, allocations_sum]
  omega

end Admitted

/-! ### Sums over the contributions -/

omit [FloatOps F] in
/-- What the modules of a definition were given, summed up, is what was contributed. -/
theorem sum_chunksOf {definition : ArenaDefinition F} (hvalid : ValidDefinition definition)
    {values : List (ModuleContribution F)} {contributions : HashMap (ModuleContribution F)}
    (h : validateContributions definition values = .ok contributions)
    {f : List (PromptChunk F) → ℕ} (hf : f [] = 0) :
    (definition.modules.map fun m => f (chunksOf contributions m)).sum =
      (values.map fun c => f c.chunks).sum := by
  obtain ⟨hknown, hkeyed⟩ := validateContributions_ok h
  have hvalues : values.Nodup := List.Nodup.of_map _ (collectContributions_ok h).2.1
  have hgiven : (definition.modules.filterMap fun m => contributions m.moduleId).Nodup := by
    refine List.pairwise_filterMap.2 ((List.pairwise_map.1 hvalid.ids_nodup).imp ?_)
    rintro m m' hne c hc c' hc' rfl
    exact hne (((hkeyed _ c).1 hc).2.symm.trans ((hkeyed _ c).1 hc').2)
  have hperm : (definition.modules.filterMap fun m => contributions m.moduleId).Perm values := by
    refine (List.perm_ext_iff_of_nodup hgiven hvalues).2 ?_
    intro c
    rw [List.mem_filterMap]
    constructor
    · rintro ⟨m, -, hc⟩
      exact ((hkeyed _ c).1 hc).1
    · intro hc
      obtain ⟨m, hm, hid⟩ := List.mem_map.1 (hknown c hc).known
      exact ⟨m, hm, (hkeyed _ c).2 ⟨hc, hid.symm⟩⟩
  rw [← (hperm.map fun c => f c.chunks).sum_eq]
  clear hperm hgiven
  induction definition.modules with
  | nil => rfl
  | cons m ms ih =>
      rw [List.map_cons, List.sum_cons, ih]
      cases hc : contributions m.moduleId with
      | none => simp [chunksOf, hc, hf]
      | some c => simp [chunksOf, hc]

/-! ### Enough surplus -/

section Surplus

omit [FloatOps F] in
/-- The donor loop gives the borrower what it no longer needs, and leaves enough for the rest. -/
theorem borrowFromDonors_need (borrower : ModuleDefinition F) (visited donors : List (String × ℤ))
    {need : ℤ} {b : Borrowing F} (hneed : 0 ≤ need) (hremaining : need ≤ b.remaining)
    (hslack : need ≤ b.sharedSlack) :
    let pass := borrowFromDonors .exact borrower visited donors need b
    0 ≤ pass.2.1 ∧ pass.2.1 ≤ pass.2.2.remaining ∧ pass.2.1 ≤ pass.2.2.sharedSlack ∧
      pass.2.2.current borrower.moduleId + pass.2.1 = b.current borrower.moduleId + need := by
  induction donors generalizing visited need b with
  | nil => exact ⟨hneed, hremaining, hslack, rfl⟩
  | cons d donors ih =>
      simp only [borrowFromDonors]
      split
      · exact ⟨hneed, hremaining, hslack, rfl⟩
      · split
        · exact ih _ hneed hremaining hslack
        · rename_i hrun hlend
          set grant := min (min need d.2) b.remaining with hgrant
          have hneed' : 0 ≤ need - grant := by omega
          have hremaining' : need - grant ≤
              (b.take .exact borrower (.module d.1) grant).remaining := by
            simp only [Borrowing.take, Arith.sub_exact]
            omega
          have hslack' : need - grant ≤
              (b.take .exact borrower (.module d.1) grant).sharedSlack := by
            simp only [Borrowing.take]
            omega
          have hcurrent : (b.take .exact borrower (.module d.1) grant).current
              borrower.moduleId = b.current borrower.moduleId + grant := by
            simp [Borrowing.take, addTo]
          obtain ⟨h₁, h₂, h₃, h₄⟩ := ih (visited ++ [(d.1, d.2 - grant)]) hneed' hremaining' hslack'
          simp only [Arith.sub_exact]
          exact ⟨h₁, h₂, h₃, by omega⟩

omit [FloatOps F] in
/-- A borrower whose need the slack covers is served in full. -/
theorem borrowFor_full (borrower : ModuleDefinition F) (demands : String → ℤ)
    (donors : List (String × ℤ)) {b : Borrowing F}
    (hneed : b.current borrower.moduleId ≤ min (demands borrower.moduleId) borrower.maxTokens)
    (hremaining : min (demands borrower.moduleId) borrower.maxTokens -
      b.current borrower.moduleId ≤ b.remaining)
    (hslack : min (demands borrower.moduleId) borrower.maxTokens -
      b.current borrower.moduleId ≤ b.sharedSlack) :
    (borrowFor .exact borrower demands donors b).2.current borrower.moduleId =
      min (demands borrower.moduleId) borrower.maxTokens := by
  obtain ⟨h₁, h₂, h₃, h₄⟩ := borrowFromDonors_need borrower [] donors (b := b)
    (sub_nonneg.2 hneed) hremaining hslack
  simp only [borrowFor, Arith.sub_exact]
  generalize borrowFromDonors .exact borrower [] donors _ b = pass at h₁ h₂ h₃ h₄ ⊢
  simp only [borrowFromSlack]
  split
  · simp only [Borrowing.take, addTo, Function.update_self, Arith.add_exact]
    omega
  · omega

omit [FloatOps F] in
/-- The targets add up to a natural number. -/
theorem targets_sum_nonneg {definition : ArenaDefinition F} (hvalid : ValidDefinition definition) :
    0 ≤ (definition.modules.map ModuleDefinition.targetTokens).sum := by
  refine List.sum_nonneg ?_
  intro x hx
  obtain ⟨m, hm, rfl⟩ := List.mem_map.1 hx
  exact (hvalid.valid m hm).target_nonneg

omit [FloatOps F] in
/-- What the donors offer together is at most the targets. -/
theorem donorsOf_sum_le {definition : ArenaDefinition F} (hvalid : ValidDefinition definition)
    (current : String → ℤ) (hcurrent : ∀ m ∈ definition.modules, 0 ≤ current m.moduleId) :
    ((donorsOf .exact definition current).map Prod.snd).sum ≤
      (definition.modules.map ModuleDefinition.targetTokens).sum := by
  have hnonneg : ∀ m ∈ definition.modules, 0 ≤ m.targetTokens := fun m hm =>
    (hvalid.valid m hm).target_nonneg
  set offers := definition.modules.map fun m =>
    (m.moduleId, max (Arith.exact.sub m.targetTokens (current m.moduleId)) 0) with hoffers
  have hsub : (((definition.modules.filter ModuleDefinition.canLend).map fun m =>
      (m.moduleId, max (Arith.exact.sub m.targetTokens (current m.moduleId)) 0)).filter
      fun d => d.2 > 0).Sublist offers :=
    List.filter_sublist.trans (List.filter_sublist.map _)
  calc ((donorsOf .exact definition current).map Prod.snd).sum
      = ((((definition.modules.filter ModuleDefinition.canLend).map fun m =>
          (m.moduleId, max (Arith.exact.sub m.targetTokens (current m.moduleId)) 0)).filter
          fun d => d.2 > 0).map Prod.snd).sum :=
        ((List.perm_insertionSort _ _).map _).sum_eq
    _ ≤ (offers.map Prod.snd).sum := by
        refine (hsub.map _).sum_le_sum ?_
        intro x hx
        obtain ⟨d, hd, rfl⟩ := List.mem_map.1 hx
        obtain ⟨m, -, rfl⟩ := List.mem_map.1 hd
        exact le_max_right _ _
    _ ≤ (definition.modules.map ModuleDefinition.targetTokens).sum := by
        rw [hoffers, List.map_map]
        refine List.sum_le_sum ?_
        intro m hm
        have h₁ := hcurrent m hm
        have h₂ := hnonneg m hm
        simp only [Function.comp_apply, Arith.sub_exact]
        omega

/-- Only the module `m` asks for anything. -/
structure SoleDemand (definition : ArenaDefinition F) (demands : String → ℤ)
    (m : ModuleDefinition F) : Prop where
  mem : m ∈ definition.modules
  nonneg : 0 ≤ demands m.moduleId
  others : ∀ m' ∈ definition.modules, m' ≠ m → demands m'.moduleId = 0

section Sole

variable {definition : ArenaDefinition F} {demands : String → ℤ} {m : ModuleDefinition F}

omit [FloatOps F] in
theorem SoleDemand.demands_nonneg (h : SoleDemand definition demands m) :
    ∀ m' ∈ definition.modules, 0 ≤ demands m'.moduleId := by
  intro m' hm'
  by_cases heq : m' = m
  · rw [heq]
    exact h.nonneg
  · exact (h.others m' hm' heq).ge

omit [FloatOps F] in
/-- A module that asks for more than its target is the one that asks at all. -/
theorem SoleDemand.eq_of_lt (h : SoleDemand definition demands m)
    (hvalid : ValidDefinition definition) {m' : ModuleDefinition F}
    (hm' : m' ∈ definition.modules) (hlt : m'.targetTokens < demands m'.moduleId) : m' = m := by
  by_contra heq
  have h₁ := h.others m' hm' heq
  have h₂ := (hvalid.valid m' hm').target_nonneg
  omega

/-- If the module asks for no more than its target, nobody borrows. -/
theorem SoleDemand.borrowersOf_of_le (h : SoleDemand definition demands m)
    (hvalid : ValidDefinition definition) (hle : demands m.moduleId ≤ m.targetTokens)
    (current : String → ℤ) : borrowersOf definition demands current = [] := by
  refine List.eq_nil_iff_forall_not_mem.2 ?_
  intro m' hm'
  obtain ⟨hmem, -, hdemand, -⟩ := mem_borrowersOf.1 hm'
  obtain rfl := h.eq_of_lt hvalid hmem hdemand
  omega

/-- If it asks for more, it is the only borrower. -/
theorem SoleDemand.borrowersOf_of_lt (h : SoleDemand definition demands m)
    (hvalid : ValidDefinition definition) (hborrow : m.canBorrow = true)
    (hlt : m.targetTokens < demands m.moduleId) {current : String → ℤ}
    (hcurrent : current m.moduleId < m.maxTokens) :
    borrowersOf definition demands current = [m] := by
  refine borrowersOf_eq_singleton hvalid h.mem hborrow hlt hcurrent ?_
  intro m' hm' hdemand
  exact h.eq_of_lt hvalid hm' hdemand

/-- What the borrowing phase leaves the module, if the slack covers what it asks for. -/
theorem SoleDemand.borrowAfter_current (h : SoleDemand definition demands m)
    (hvalid : ValidDefinition definition) (hcapacity : demands m.moduleId ≤ capacity m)
    {filled : (String → ℤ) × ℤ} (hfilled : ∀ m' ∈ definition.modules,
      filled.1 m'.moduleId = targetCaps definition demands m'.moduleId)
    (hslack : (definition.modules.map ModuleDefinition.targetTokens).sum + demands m.moduleId ≤
      filled.2) :
    (borrowAfter .exact definition demands filled).current m.moduleId = demands m.moduleId := by
  have hcaps : targetCaps definition demands m.moduleId =
      min m.targetTokens (demands m.moduleId) := targetCaps_apply hvalid h.mem
  have htarget := (hvalid.valid m h.mem).target_nonneg
  have hnonneg := h.nonneg
  have htargets := targets_sum_nonneg hvalid
  have hoffers := donorsOf_sum_le hvalid filled.1 (by
    intro m' hm'
    have h₁ := (hvalid.valid m' hm').target_nonneg
    have h₂ := h.demands_nonneg m' hm'
    rw [hfilled m' hm', targetCaps_apply hvalid hm']
    omega)
  rw [← hfilled m h.mem] at hcaps
  by_cases hborrow : demands m.moduleId ≤ m.targetTokens
  · rw [borrowAfter, h.borrowersOf_of_le hvalid hborrow]
    change filled.1 m.moduleId = _
    omega
  · have hcan : m.canBorrow = true := by
      cases hcan : m.canBorrow with
      | true => rfl
      | false =>
          rw [capacity, hcan, if_neg Bool.false_ne_true] at hcapacity
          exact absurd hcapacity hborrow
    rw [capacity, hcan, if_pos rfl] at hcapacity
    have hserved := borrowFor_full m demands (donorsOf .exact definition filled.1)
      (b := borrowStart .exact definition filled)
      (by simp only [borrowStart]; omega) (by simp only [borrowStart]; omega)
      (by simp only [borrowStart, Arith.sub_exact, Arith.sum_exact]; omega)
    have hbelow : filled.1 m.moduleId < m.maxTokens := by omega
    rw [borrowAfter, h.borrowersOf_of_lt hvalid hcan (by omega) hbelow]
    change (borrowFor .exact m demands (donorsOf .exact definition filled.1)
      (borrowStart .exact definition filled)).2.current m.moduleId = _
    omega

/-- With enough surplus a module gets all it asks for within its capacity, if no other module asks
for anything. -/
theorem SoleDemand.allocated (h : SoleDemand definition demands m)
    (hvalid : ValidDefinition definition) (hcapacity : demands m.moduleId ≤ capacity m) :
    ∃ inputBudget b, 0 < inputBudget ∧ validateModelBudget .exact definition inputBudget = .ok () ∧
      allocateLedger .exact definition demands inputBudget = .ok b ∧
      ∀ m' ∈ definition.modules, b.current m'.moduleId = demands m'.moduleId := by
  have hcaps : ∀ m' ∈ definition.modules, min m'.targetTokens (demands m'.moduleId) =
      targetCaps definition demands m'.moduleId := fun m' hm' => (targetCaps_apply hvalid hm').symm
  have hreserve := hvalid.reserve_nonneg
  have hdemand := h.nonneg
  have hfloors := floors_sum_nonneg hvalid
  have htargets := targets_sum_nonneg hvalid
  have htotal : 0 ≤ Ledger.total (definition.modules.map ModuleDefinition.moduleId)
      (targetCaps definition demands) := by
    refine Ledger.total_nonneg ?_
    intro id hid
    obtain ⟨m', hm', rfl⟩ := List.mem_map.1 hid
    have h₁ := (hvalid.valid m' hm').target_nonneg
    have h₂ := h.demands_nonneg m' hm'
    rw [← hcaps m' hm']
    omega
  have hsurplus : 0 < 1 + (definition.modules.map ModuleDefinition.floorTokens).sum +
      (definition.modules.map ModuleDefinition.targetTokens).sum + demands m.moduleId := by omega
  obtain ⟨hbudget, filled, hledger, hfull, hleft⟩ :=
    allocationRun_of_surplus hvalid h.demands_nonneg hcaps hsurplus (by omega)
  refine ⟨_, _, ?_, hbudget, hledger, ?_⟩
  · omega
  · obtain ⟨filled', hledger', hrun⟩ := allocationRun hvalid (fun _ _ => Arith.fits_exact _)
      h.demands_nonneg (Arith.fits_exact _)
      (by simpa only [Arith.sum_exact, Arith.sub_exact] using
        (validateModelBudget_eq_ok.1 hbudget).2)
    rw [hledger, Except.ok.injEq] at hledger'
    rw [← hledger'] at hrun
    intro m' hm'
    by_cases heq : m' = m
    · rw [heq]
      exact h.borrowAfter_current hvalid hcapacity hfull (by omega)
    · have hsafe := hrun.moduleSafe hvalid h.demands_nonneg "" hm'
      have h₁ := hsafe.floor_le
      have h₂ := hsafe.le_demand
      have h₃ := (hvalid.valid m' hm').floor_nonneg
      have h₄ := h.others m' hm' heq
      simp only [moduleAllocation] at h₁ h₂
      omega

end Sole

end Surplus

/-! ### Building admitted requests -/

section Build

/-- Distinct valid modules are accepted. -/
theorem validateModules_of_valid {ids : List String} {ms : List (ModuleDefinition F)}
    (hms : ∀ m ∈ ms, isBlank m.moduleId = false ∧ validateModule m = .ok ())
    (hnodup : (ms.map ModuleDefinition.moduleId).Nodup) (hnew : ∀ m ∈ ms, m.moduleId ∉ ids) :
    validateModules ids ms = .ok () := by
  induction ms generalizing ids with
  | nil => rfl
  | cons m ms ih =>
      rw [List.map_cons, List.nodup_cons] at hnodup
      obtain ⟨hblank, hvalid⟩ := hms m (List.mem_cons_self ..)
      have hseen : ids.contains m.moduleId = false := by
        simpa using hnew m (List.mem_cons_self ..)
      have hrest : validateModules (m.moduleId :: ids) ms = .ok () := by
        refine ih (fun m' hm' => hms m' (List.mem_cons_of_mem _ hm')) hnodup.2 fun m' hm' => ?_
        rw [List.mem_cons, not_or]
        exact ⟨fun heq => hnodup.1 (heq ▸ List.mem_map_of_mem hm'),
          hnew m' (List.mem_cons_of_mem _ hm')⟩
      simp only [validateModules, hblank, hseen, Bool.or_self, hvalid, hrest]
      rfl

omit [FloatOps F] in
/-- Distinct valid chunks are accepted. -/
theorem validateChunks_of_valid {moduleId : String} {ids : List String}
    {chunks : List (PromptChunk F)}
    (hchunks : ∀ c ∈ chunks, isBlank c.chunkId = false ∧ isBlank c.kind = false ∧
      c.protection ∈ ["pinned", "mixed", "elastic"])
    (hnodup : (chunks.map PromptChunk.chunkId).Nodup) (hnew : ∀ c ∈ chunks, c.chunkId ∉ ids) :
    validateChunks moduleId ids chunks = .ok () := by
  induction chunks generalizing ids with
  | nil => rfl
  | cons c chunks ih =>
      rw [List.map_cons, List.nodup_cons] at hnodup
      obtain ⟨hid, hkind, hprotection⟩ := hchunks c (List.mem_cons_self ..)
      have hseen : ids.contains c.chunkId = false := by
        simpa using hnew c (List.mem_cons_self ..)
      have hrest : validateChunks moduleId (c.chunkId :: ids) chunks = .ok () := by
        refine ih (fun c' hc' => hchunks c' (List.mem_cons_of_mem _ hc')) hnodup.2 fun c' hc' => ?_
        rw [List.mem_cons, not_or]
        exact ⟨fun heq => hnodup.1 (heq ▸ List.mem_map_of_mem hc'),
          hnew c' (List.mem_cons_of_mem _ hc')⟩
      simp only [validateChunks, validateChoice, hid, hkind, hseen, hrest, Bool.or_self,
        List.contains_iff_mem.2 hprotection]
      rfl

omit [FloatOps F] in
/-- Contributions to distinct modules of the definition with valid chunks are accepted. -/
theorem validateContributions_of_valid (definition : ArenaDefinition F)
    {values : List (ModuleContribution F)}
    (hknown : ∀ c ∈ values, c.moduleId ∈ definition.modules.map ModuleDefinition.moduleId)
    (hdemand : ∀ c ∈ values, ∀ tokens ∈ c.observedDemandTokens, 0 ≤ tokens)
    (hchunks : ∀ c ∈ values, validateChunks c.moduleId [] c.chunks = .ok ())
    (hnodup : (values.map ModuleContribution.moduleId).Nodup) :
    ∃ contributions, validateContributions definition values = .ok contributions := by
  have hcollect : ∀ (values : List (ModuleContribution F)) (out : HashMap (ModuleContribution F)),
      (∀ c ∈ values, c.moduleId ∈ definition.modules.map ModuleDefinition.moduleId) →
      (∀ c ∈ values, ∀ tokens ∈ c.observedDemandTokens, 0 ≤ tokens) →
      (∀ c ∈ values, validateChunks c.moduleId [] c.chunks = .ok ()) →
      (values.map ModuleContribution.moduleId).Nodup → (∀ c ∈ values, out c.moduleId = none) →
      ∃ contributions, collectContributions
        (definition.modules.map ModuleDefinition.moduleId) values out = .ok contributions := by
    intro values
    induction values with
    | nil => exact fun out _ _ _ _ _ => ⟨out, rfl⟩
    | cons v values ih =>
        intro out hknown hdemand hchunks hnodup hfree
        rw [List.map_cons, List.nodup_cons] at hnodup
        have hv : (v.observedDemandTokens.any fun tokens => decide (tokens < 0)) = false := by
          cases htokens : v.observedDemandTokens with
          | none => rfl
          | some tokens =>
              have := hdemand v (List.mem_cons_self ..) tokens htokens
              simpa using this
        have hfree' : ∀ c ∈ values, (out.insert v.moduleId v) c.moduleId = none := by
          intro c hc
          have hne : c.moduleId ≠ v.moduleId := fun heq =>
            hnodup.1 (heq ▸ List.mem_map_of_mem hc)
          rw [HashMap.insert_of_ne _ _ hne]
          exact hfree c (List.mem_cons_of_mem _ hc)
        obtain ⟨contributions, hrest⟩ := ih (out.insert v.moduleId v)
          (fun c hc => hknown c (List.mem_cons_of_mem _ hc))
          (fun c hc => hdemand c (List.mem_cons_of_mem _ hc))
          (fun c hc => hchunks c (List.mem_cons_of_mem _ hc)) hnodup.2 hfree'
        refine ⟨contributions, ?_⟩
        rw [collectContributions, List.contains_iff_mem.2 (hknown v (List.mem_cons_self ..)),
          hfree v (List.mem_cons_self ..), hv, hchunks v (List.mem_cons_self ..)]
        exact hrest
  exact hcollect values HashMap.empty hknown hdemand hchunks hnodup fun _ _ => rfl

/-- A request for a model with a given context. -/
def probeRequest (tokenizerId : String) (contextLimitTokens : ℤ)
    (contributions : List (ModuleContribution F)) : PrepareRequest F where
  model := { modelProfileId := "model", contextLimitTokens := contextLimitTokens
             reservedOutputTokens := 0, tokenizerId := tokenizerId }
  contributions := contributions

/-- A request that is admitted with a given budget. -/
theorem admitted_probeRequest (lib : Library) {arena : ContextLeaseArena F} {tokenizerId : String}
    (htokenizer : isBlank tokenizerId = false) {counter : Option TokenCounter} {multiplier : F}
    (hscale : CountContext.Scales ⟨tokenizerId, counter, multiplier⟩)
    {values : List (ModuleContribution F)} {contributions : HashMap (ModuleContribution F)}
    (hcontributions : validateContributions arena.definition values = .ok contributions)
    {inputBudget : ℤ} (hpositive : 0 < inputBudget)
    (hbudget : validateModelBudget .exact arena.definition inputBudget = .ok ())
    {b : Borrowing F}
    (hledger : allocateLedger .exact arena.definition (demandsOf lib.exact
      ⟨tokenizerId, counter, multiplier⟩ contributions arena.definition).val inputBudget = .ok b) :
    ∃ contextLimit a, Admitted lib.exact arena (probeRequest tokenizerId contextLimit values)
        counter multiplier a ∧
      a.counts = ⟨tokenizerId, counter, multiplier⟩ ∧ a.contributions = contributions ∧
      a.leases = b.grants.map (lease arena.layoutHash) ∧
      ∀ m ∈ arena.definition.modules, allocationOf a.allocations m =
        moduleAllocation .exact a.demands b m := by
  set counts : CountContext F := ⟨tokenizerId, counter, multiplier⟩ with hcounts
  set overhead := (renderSeparatorTokens lib.exact counts contributions arena.definition).val
    with hoverhead
  set demands := (demandsOf lib.exact counts contributions arena.definition).val with hdemands
  have hnonneg : 0 ≤ overhead := by
    rw [hoverhead, renderSeparatorTokens]
    split
    · exact le_refl 0
    · exact counts.countText_nonneg _ hscale _
  have hallocated : allocate .exact arena.definition demands arena.layoutHash inputBudget =
      .ok ((orderedModules arena.definition).map (moduleAllocation .exact demands b),
        b.grants.map (lease arena.layoutHash)) := by
    rw [allocate, hledger]
  refine ⟨inputBudget + overhead, ⟨counts, inputBudget + overhead, contributions, inputBudget,
    demands, _, _⟩, ⟨?_, rfl, ?_, hcontributions, ?_, hbudget, hdemands, hallocated⟩, rfl, rfl, rfl,
    fun m hm => allocationOf_eq arena.validDefinition.ids_nodup hm⟩
  · have hlimit : ¬ inputBudget + overhead ≤ 0 := by omega
    have hmodel : isBlank "model" = false := by decide
    have hversion : isBlank "1" = false := by decide
    simp [checkRequest, validatePlan, validateModel, validateChoice, rejectIf, probeRequest,
      hlimit, hmodel, hversion, htokenizer]
  · simp [probeRequest]
  · simp only [Arith.sub_exact]
    omega

end Build

end ContextLease
