/-
Safety of the allocator.

The weighted rounds and the borrowing phase are put together: a run of the allocator on a budget
that covers the floors has a ledger between floors, demands and maxima, spends what it was given
and nothing else, and its grants are what its ledgers say they are.  For unbounded integers this is
the contract of `allocate`, but for one reserved name: the slack lends under `__arena_slack__`, and
a module may carry that name.

Main definitions:

* `AllocationRun` — what a run of the allocator establishes, for any integer arithmetic;
* `ModuleSafe`, `AllocationSafe` — the contract of the allocator;
* `SlackNameClash` — the definitions whose leases confuse a module with the slack.

Main results:

* `allocationRun` — every admissible run is an `AllocationRun`;
* `allocate_safe_iff` — the contract holds for all demands and budgets of a definition exactly
  if the definition has no `SlackNameClash`.
-/

import ContextLease.BorrowSpec

set_option relaxedAutoImplicit false
set_option autoImplicit false

namespace ContextLease

open MachineNumbers

variable {F : Type} [FloatOps F]

/-! ### Tables, donors and borrowers -/

section Tables

variable {ar : Arith} {definition : ArenaDefinition F} {demands : String → ℤ}

omit [FloatOps F]

theorem mem_donorsOf {current : String → ℤ} {d : String × ℤ} :
    d ∈ donorsOf ar definition current ↔
      ∃ m ∈ definition.modules, m.canLend = true ∧
        d = (m.moduleId, max (ar.sub m.targetTokens (current m.moduleId)) 0) ∧ 0 < d.2 := by
  rw [donorsOf, (List.perm_insertionSort _ _).mem_iff, List.mem_filter, List.mem_map]
  constructor
  · rintro ⟨⟨m, hm, rfl⟩, hpos⟩
    rw [List.mem_filter] at hm
    exact ⟨m, hm.1, hm.2, rfl, by simpa using hpos⟩
  · rintro ⟨m, hm, hlend, rfl, hpos⟩
    exact ⟨⟨m, List.mem_filter.2 ⟨hm, hlend⟩, rfl⟩, by simpa using hpos⟩

/-- No donor is listed twice. -/
theorem donorsOf_nodup (hnodup : (definition.modules.map ModuleDefinition.moduleId).Nodup)
    (current : String → ℤ) : ((donorsOf ar definition current).map Prod.fst).Nodup := by
  rw [donorsOf, ((List.perm_insertionSort _ _).map Prod.fst).nodup_iff]
  refine List.Nodup.sublist ?_ hnodup
  refine (List.filter_sublist.map Prod.fst).trans ?_
  rw [List.map_map]
  exact List.filter_sublist.map _

theorem initialCurrent_apply (hvalid : ValidDefinition definition) {m : ModuleDefinition F}
    (hm : m ∈ definition.modules) :
    initialCurrent definition demands m.moduleId = min m.floorTokens (demands m.moduleId) :=
  perModule_apply hvalid.ids_nodup _ _ hm

theorem targetCaps_apply (hvalid : ValidDefinition definition) {m : ModuleDefinition F}
    (hm : m ∈ definition.modules) :
    targetCaps definition demands m.moduleId = min m.targetTokens (demands m.moduleId) :=
  perModule_apply hvalid.ids_nodup _ _ hm

/-- Where the borrowing phase starts: `filled` is the ledger after the weighted rounds with the
tokens that remained. -/
def borrowStart (ar : Arith) (definition : ArenaDefinition F) (filled : (String → ℤ) × ℤ) :
    Borrowing F where
  current := filled.1
  borrowed := fun _ => 0
  lent := fun _ => 0
  remaining := filled.2
  sharedSlack :=
    max (ar.sub filled.2 (ar.sum ((donorsOf ar definition filled.1).map Prod.snd))) 0
  grants := []

end Tables

theorem mem_borrowersOf {definition : ArenaDefinition F} {demands current : String → ℤ}
    {m : ModuleDefinition F} :
    m ∈ borrowersOf definition demands current ↔ m ∈ definition.modules ∧ m.canBorrow = true ∧
      m.targetTokens < demands m.moduleId ∧ current m.moduleId < m.maxTokens := by
  rw [borrowersOf, (List.perm_insertionSort _ _).mem_iff, List.mem_filter]
  simp only [Bool.and_eq_true, decide_eq_true_eq, gt_iff_lt, and_assoc]

theorem borrowersOf_nodup {definition : ArenaDefinition F}
    (hnodup : (definition.modules.map ModuleDefinition.moduleId).Nodup)
    (demands current : String → ℤ) :
    ((borrowersOf definition demands current).map ModuleDefinition.moduleId).Nodup := by
  rw [borrowersOf, ((List.perm_insertionSort _ _).map _).nodup_iff]
  exact List.Nodup.sublist (List.filter_sublist.map _) hnodup

/-! ### Runs of the allocator -/

/-- Where the borrowing phase ends. -/
def borrowAfter (ar : Arith) (definition : ArenaDefinition F) (demands : String → ℤ)
    (filled : (String → ℤ) × ℤ) : Borrowing F :=
  borrow ar demands (borrowersOf definition demands filled.1) (donorsOf ar definition filled.1)
    (borrowStart ar definition filled)

/-- What a run of the allocator establishes: `filled` is the ledger after the weighted rounds with
the tokens that remained, `b` holds the ledgers at the end. -/
structure AllocationRun (ar : Arith) (definition : ArenaDefinition F) (demands : String → ℤ)
    (available : ℤ) (filled : (String → ℤ) × ℤ) (b : Borrowing F) : Prop where
  fill : FillResult (definition.modules.map ModuleDefinition.moduleId)
    (targetCaps definition demands) (initialCurrent definition demands)
    (available - Ledger.total (definition.modules.map ModuleDefinition.moduleId)
      (initialCurrent definition demands)) filled
  setting : BorrowSetting ar definition filled.1 (donorsOf ar definition filled.1)
    (borrowersOf definition demands filled.1) available
  inv : ∃ donors, BorrowInv ar definition demands filled.1 (donorsOf ar definition filled.1)
    (borrowersOf definition demands filled.1) available donors b
  no_grants : filled.2 = 0 → b.grants = []

section Run

variable {ar : Arith} {definition : ArenaDefinition F} {demands : String → ℤ}

omit [FloatOps F] in
/-- The ledger after the weighted rounds lies between zero and the demands and targets. -/
theorem filled_bounds (hvalid : ValidDefinition definition)
    (hdemands : ∀ m ∈ definition.modules, 0 ≤ demands m.moduleId) {remaining : ℤ}
    {filled : (String → ℤ) × ℤ}
    (h : FillResult (definition.modules.map ModuleDefinition.moduleId)
      (targetCaps definition demands) (initialCurrent definition demands) remaining filled)
    {m : ModuleDefinition F} (hm : m ∈ definition.modules) :
    0 ≤ filled.1 m.moduleId ∧ min m.floorTokens (demands m.moduleId) ≤ filled.1 m.moduleId ∧
      filled.1 m.moduleId ≤ min m.targetTokens (demands m.moduleId) := by
  have hfloor := (hvalid.valid m hm).floor_nonneg
  have hdemand := hdemands m hm
  have hlow := h.le_current m.moduleId
  have hhigh := h.current_le m.moduleId (List.mem_map_of_mem hm)
  rw [initialCurrent_apply hvalid hm] at hlow
  rw [targetCaps_apply hvalid hm] at hhigh
  exact ⟨by omega, hlow, hhigh⟩

omit [FloatOps F] in
/-- The ledger the rounds start from lies between zero and the floors. -/
theorem initialCurrent_bounds (hvalid : ValidDefinition definition)
    (hdemands : ∀ m ∈ definition.modules, 0 ≤ demands m.moduleId) {m : ModuleDefinition F}
    (hm : m ∈ definition.modules) :
    0 ≤ initialCurrent definition demands m.moduleId ∧
      initialCurrent definition demands m.moduleId ≤ m.floorTokens := by
  have h₁ := (hvalid.valid m hm).floor_nonneg
  have h₂ := hdemands m hm
  rw [initialCurrent_apply hvalid hm]
  omega

/-- The weighted rounds on tokens left over by the initial ledger. -/
theorem weightedFill_initial (hvalid : ValidDefinition definition)
    (hmax : ∀ m ∈ definition.modules, ar.Fits m.maxTokens)
    (hdemands : ∀ m ∈ definition.modules, 0 ≤ demands m.moduleId) {remaining : ℤ}
    (hremaining : 0 ≤ remaining) (hfits : ar.Fits remaining) :
    FillResult (definition.modules.map ModuleDefinition.moduleId) (targetCaps definition demands)
      (initialCurrent definition demands) remaining
      (weightedFill ar definition (targetCaps definition demands)
        (initialCurrent definition demands) remaining) := by
  refine weightedFillWith_result hvalid.ids_nodup ?_ _ hremaining hfits ?_ ?_
  · intro id hid
    obtain ⟨m, hm, rfl⟩ := List.mem_map.1 hid
    have h₁ := (hvalid.valid m hm).target_nonneg
    have h₂ := (hvalid.valid m hm).target_le_max
    have h₃ := hdemands m hm
    rw [targetCaps_apply hvalid hm]
    exact (hmax m hm).ofNonneg (by omega) (by omega)
  · intro id hid
    obtain ⟨m, hm, rfl⟩ := List.mem_map.1 hid
    exact (initialCurrent_bounds hvalid hdemands hm).1
  · intro id hid
    obtain ⟨m, hm, rfl⟩ := List.mem_map.1 hid
    have h₁ := (hvalid.valid m hm).floor_le_target
    rw [initialCurrent_apply hvalid hm, targetCaps_apply hvalid hm]
    omega

/-- The donors and the borrowers the borrowing phase starts with. -/
theorem borrowSetting_start (hvalid : ValidDefinition definition)
    (hmax : ∀ m ∈ definition.modules, ar.Fits m.maxTokens) {available : ℤ}
    (havailable : ar.Fits available) {filled : (String → ℤ) × ℤ}
    (hfilled : ∀ m ∈ definition.modules, 0 ≤ filled.1 m.moduleId) :
    BorrowSetting ar definition filled.1 (donorsOf ar definition filled.1)
      (borrowersOf definition demands filled.1) available where
  ids_nodup := hvalid.ids_nodup
  fits_max := hmax
  fits_available := havailable
  filled_nonneg := hfilled
  offers_nodup := donorsOf_nodup hvalid.ids_nodup _
  fits_offers := by
    intro d hd
    obtain ⟨m, hm, _, rfl, hpos⟩ := mem_donorsOf.1 hd
    have hfits := Arith.fits_norm ar (m.targetTokens - filled.1 m.moduleId)
    exact hfits.ofNonneg hpos.le (by simp only [Arith.sub] at hpos ⊢; omega)
  borrowers_mem := fun m hm => (mem_borrowersOf.1 hm).1

/-- The borrowing phase starts from the ledger of the weighted rounds. -/
theorem borrowInv_start (hvalid : ValidDefinition definition)
    (hdemands : ∀ m ∈ definition.modules, 0 ≤ demands m.moduleId) {available : ℤ}
    {filled : (String → ℤ) × ℤ}
    (hfill : FillResult (definition.modules.map ModuleDefinition.moduleId)
      (targetCaps definition demands) (initialCurrent definition demands)
      (available - Ledger.total (definition.modules.map ModuleDefinition.moduleId)
        (initialCurrent definition demands)) filled) :
    BorrowInv ar definition demands filled.1 (donorsOf ar definition filled.1)
      (borrowersOf definition demands filled.1) available (donorsOf ar definition filled.1)
      (borrowStart ar definition filled) where
  remaining_nonneg := hfill.remaining_nonneg
  slack_nonneg := le_max_right _ 0
  fits_slack := by
    unfold borrowStart
    rcases le_total (ar.sub filled.2 (ar.sum ((donorsOf ar definition filled.1).map Prod.snd))) 0
      with h | h
    · rw [max_eq_right h]
      exact Arith.fits_zero ar
    · rw [max_eq_left h]
      exact Arith.fits_norm ar _
  total_add := by
    have := hfill.total_add
    simp only [borrowStart]
    omega
  current_eq := by intro m _; simp [borrowStart]
  current_le := by
    intro m hm
    have hbounds := filled_bounds hvalid hdemands hfill hm
    have := (hvalid.valid m hm).target_le_max
    simp only [borrowStart]
    omega
  borrowed_eq := by intro id; simp [borrowStart, borrowerEntries]
  lent_eq := by intro id; simp [borrowStart, donorEntries]
  donors_keys := rfl
  donors_nonneg := by
    intro d hd
    obtain ⟨_, _, _, _, hpos⟩ := mem_donorsOf.1 hd
    exact hpos.le
  donors_add := by intro d hd; simpa [borrowStart] using hd
  tokens_pos := by simp [borrowStart]
  borrower_mem := by simp [borrowStart]
  donor_mem := by simp [borrowStart]
  pairs_nodup := by simp [borrowStart]

/-- Every run on a budget that covers the floors ends, and is an `AllocationRun`. -/
theorem allocationRun (hvalid : ValidDefinition definition)
    (hmax : ∀ m ∈ definition.modules, ar.Fits m.maxTokens)
    (hdemands : ∀ m ∈ definition.modules, 0 ≤ demands m.moduleId) {inputBudget : ℤ}
    (havailable : ar.Fits (inputBudget - definition.frameworkReserveTokens))
    (hfloors : (definition.modules.map ModuleDefinition.floorTokens).sum ≤
      inputBudget - definition.frameworkReserveTokens) :
    ∃ filled, allocateLedger ar definition demands inputBudget =
        .ok (borrowAfter ar definition demands filled) ∧
      AllocationRun ar definition demands (inputBudget - definition.frameworkReserveTokens)
        filled (borrowAfter ar definition demands filled) := by
  generalize havail : inputBudget - definition.frameworkReserveTokens = available at *
  set ids := definition.modules.map ModuleDefinition.moduleId with hids
  set initial := initialCurrent definition demands with hinitial
  have hbounds : ∀ m ∈ definition.modules, 0 ≤ initial m.moduleId ∧
      initial m.moduleId ≤ m.floorTokens := fun m hm => initialCurrent_bounds hvalid hdemands hm
  -- the initial ledger is covered by the floors, so nothing wraps on the way to the rounds
  have hsum : (definition.modules.map fun m => initial m.moduleId).sum =
      Ledger.total ids initial := by
    rw [Ledger.total, hids, List.map_map]
    rfl
  have hle : Ledger.total ids initial ≤
      (definition.modules.map ModuleDefinition.floorTokens).sum := by
    rw [← hsum]
    exact List.sum_le_sum fun m hm => (hbounds m hm).2
  have hnonneg : 0 ≤ Ledger.total ids initial := by
    refine Ledger.total_nonneg ?_
    intro id hid
    obtain ⟨m, hm, rfl⟩ := List.mem_map.1 hid
    exact (hbounds m hm).1
  have hsub : ar.sub inputBudget definition.frameworkReserveTokens = available := by
    rw [← havail]
    exact Arith.sub_of_fits (by rwa [havail])
  have hsumFits : ar.sum (definition.modules.map fun m => initial m.moduleId) =
      Ledger.total ids initial := by
    rw [← hsum]
    exact Arith.sum_of_fits (by rw [hsum]; exact havailable.ofNonneg hnonneg (by omega))
  have hremaining : ar.sub available (Ledger.total ids initial) =
      available - Ledger.total ids initial :=
    Arith.sub_of_fits (havailable.ofNonneg (by omega) (by omega))
  have hfill : FillResult ids (targetCaps definition demands) initial
      (available - Ledger.total ids initial)
      (weightedFill ar definition (targetCaps definition demands) initial
        (available - Ledger.total ids initial)) :=
    weightedFill_initial hvalid hmax hdemands (by omega)
      (havailable.ofNonneg (by omega) (by omega))
  set filled := weightedFill ar definition (targetCaps definition demands) initial
    (available - Ledger.total ids initial) with hfilled
  have hsetting : BorrowSetting ar definition filled.1 (donorsOf ar definition filled.1)
      (borrowersOf definition demands filled.1) available :=
    borrowSetting_start hvalid hmax havailable
      fun m hm => (filled_bounds hvalid hdemands hfill hm).1
  obtain ⟨donors, hinv⟩ := (borrowInv_start hvalid hdemands hfill).borrow hsetting (fun m hm => hm)
    (borrowersOf_nodup hvalid.ids_nodup _ _) (by simp [borrowStart])
  refine ⟨filled, ?_, hfill, hsetting, ⟨donors, hinv⟩, ?_⟩
  · simp only [allocateLedger, ← hinitial, hsub, hsumFits, hremaining]
    rw [if_neg (by omega)]
    rfl
  · intro hzero
    rw [borrowAfter, borrow_of_exhausted _ _ (le_of_eq hzero)]
    rfl

end Run

omit [FloatOps F] in
/-- The allocations add up to the ledger. -/
theorem allocations_sum (ar : Arith) (definition : ArenaDefinition F) (demands : String → ℤ)
    (b : Borrowing F) :
    (((orderedModules definition).map (moduleAllocation ar demands b)).map
      ModuleAllocation.allocatedTokens).sum =
      Ledger.total (definition.modules.map ModuleDefinition.moduleId) b.current := by
  rw [Ledger.total, List.map_map, List.map_map]
  exact ((orderedModules_perm definition).map _).sum_eq

/-! ### The contract of the allocator -/

/-- The contract of the allocation `a` of the module `m`, given the grants of the run and the
leases it returns. -/
structure ModuleSafe (demands : String → ℤ) (grants : List (Grant F)) (leases : List Lease)
    (m : ModuleDefinition F) (a : ModuleAllocation) : Prop where
  moduleId_eq : a.moduleId = m.moduleId
  floor_le : min m.floorTokens (demands m.moduleId) ≤ a.allocatedTokens
  le_demand : a.allocatedTokens ≤ min (demands m.moduleId) m.maxTokens
  le_target : m.canBorrow = false → a.allocatedTokens ≤ m.targetTokens
  borrowed_eq : a.borrowedCapacityTokens =
    ((leases.filter fun l => l.borrowerModuleId = m.moduleId).map Lease.grantedTokens).sum
  lent_eq : a.lentCapacityTokens = Ledger.amountOf (donorEntries grants) m.moduleId
  local_eq : a.localCapacityTokens = a.allocatedTokens - a.borrowedCapacityTokens
  local_nonneg : 0 ≤ a.localCapacityTokens
  local_le : a.localCapacityTokens ≤ m.targetTokens
  lender : a.lentCapacityTokens ≠ 0 → m.canLend = true ∧ a.allocatedTokens = demands m.moduleId ∧
    a.borrowedCapacityTokens = 0 ∧ a.allocatedTokens + a.lentCapacityTokens ≤ m.targetTokens

/-- The contract of `allocate`: it returns, every module's allocation meets its contract, nothing
is gained or lost, and the leases are positive, to another module, and unique. -/
def AllocationSafe (definition : ArenaDefinition F) (demands : String → ℤ) (layoutHash : String)
    (inputBudget : ℤ) : Prop :=
  ∃ b allocations leases, allocateLedger .exact definition demands inputBudget = .ok b ∧
    allocate .exact definition demands layoutHash inputBudget = .ok (allocations, leases) ∧
    List.Forall₂ (ModuleSafe demands b.grants leases) (orderedModules definition) allocations ∧
    (allocations.map ModuleAllocation.allocatedTokens).sum + b.remaining =
      inputBudget - definition.frameworkReserveTokens ∧
    0 ≤ b.remaining ∧
    (∀ l ∈ leases, 0 < l.grantedTokens ∧ l.donorModuleId ≠ l.borrowerModuleId) ∧
    (leases.map fun l => (l.donorModuleId, l.borrowerModuleId)).Nodup

/-! ### Runs meet the contract of the modules -/

section Modules

variable {definition : ArenaDefinition F} {demands : String → ℤ} {available : ℤ}
  {filled : (String → ℤ) × ℤ} {b : Borrowing F}

/-- Grants are made only when the rounds have filled every module up to its target or demand. -/
theorem AllocationRun.full_of_grant {ar : Arith} (hvalid : ValidDefinition definition)
    (h : AllocationRun ar definition demands available filled b) {g : Grant F} (hg : g ∈ b.grants)
    {m : ModuleDefinition F} (hm : m ∈ definition.modules) :
    filled.1 m.moduleId = min m.targetTokens (demands m.moduleId) := by
  rw [← targetCaps_apply hvalid hm]
  rcases h.fill.exhausted with hzero | hfull
  · rw [h.no_grants hzero] at hg
    cases hg
  · exact hfull _ (List.mem_map_of_mem hm)

/-- A module that got something is a borrower. -/
theorem AllocationRun.borrower_of_borrowed {ar : Arith} (hvalid : ValidDefinition definition)
    (h : AllocationRun ar definition demands available filled b) {m : ModuleDefinition F}
    (hm : m ∈ definition.modules) (hb : b.borrowed m.moduleId ≠ 0) :
    m.canBorrow = true ∧ m.targetTokens < demands m.moduleId := by
  obtain ⟨donors, hinv⟩ := h.inv
  rw [hinv.borrowed_eq] at hb
  obtain ⟨e, he, hid⟩ := Ledger.exists_of_amountOf_ne_zero hb
  obtain ⟨g, hg, rfl⟩ := List.mem_map.1 he
  obtain ⟨hmem, hborrow, hdemand, -⟩ := mem_borrowersOf.1 (hinv.borrower_mem g hg)
  obtain rfl := eq_of_moduleId_eq hvalid.ids_nodup hmem hm hid
  exact ⟨hborrow, hdemand⟩

/-- A module that gave something lends out of an unused target. -/
theorem AllocationRun.donor_of_lent (hvalid : ValidDefinition definition)
    (hdemands : ∀ m ∈ definition.modules, 0 ≤ demands m.moduleId)
    (h : AllocationRun .exact definition demands available filled b) {m : ModuleDefinition F}
    (hm : m ∈ definition.modules) (hl : b.lent m.moduleId ≠ 0) :
    m.canLend = true ∧ filled.1 m.moduleId = demands m.moduleId ∧
      demands m.moduleId + b.lent m.moduleId ≤ m.targetTokens := by
  obtain ⟨donors, hinv⟩ := h.inv
  obtain ⟨e, he, hid⟩ := Ledger.exists_of_amountOf_ne_zero (hinv.lent_eq m.moduleId ▸ hl)
  obtain ⟨g, hg, hentry⟩ := List.mem_filterMap.1 he
  have hdonor : g.donor = .module m.moduleId := by
    unfold Grant.donorEntry at hentry
    split at hentry
    · rename_i id hdonor
      cases hentry
      rw [hdonor, ← hid]
    · cases hentry
  have hfull := h.full_of_grant hvalid hg hm
  have hfilled := (filled_bounds hvalid hdemands h.fill hm).1
  -- the donor's entry, and what the grants have taken from it
  have hkey : m.moduleId ∈ donors.map Prod.fst :=
    hinv.donors_keys ▸ (hinv.donor_mem g hg _ hdonor).1
  obtain ⟨d, hd, hdid⟩ := List.mem_map.1 hkey
  have hrest := hinv.donors_nonneg d hd
  obtain ⟨m', hm', hlend, heq, hpos⟩ := mem_donorsOf.1 (hinv.donors_add d hd)
  rw [Prod.mk.injEq] at heq
  obtain rfl := eq_of_moduleId_eq hvalid.ids_nodup hm' hm (heq.1.symm.trans hdid)
  have hoffer := heq.2
  rw [hdid, Arith.sub_exact] at hoffer
  simp only at hpos
  rw [hdid] at hpos
  exact ⟨hlend, by omega, by omega⟩

omit [FloatOps F] in
/-- The leases of a borrower add up to what the grants gave it. -/
theorem leases_borrowed (layoutHash : String) (grants : List (Grant F)) (id : String) :
    (((grants.map (lease layoutHash)).filter fun l => l.borrowerModuleId = id).map
      Lease.grantedTokens).sum = Ledger.amountOf (borrowerEntries grants) id := by
  simp only [Ledger.amountOf, borrowerEntries, List.filter_map, List.map_map]
  rfl

/-- Every module's allocation meets its contract. -/
theorem AllocationRun.moduleSafe (hvalid : ValidDefinition definition)
    (hdemands : ∀ m ∈ definition.modules, 0 ≤ demands m.moduleId)
    (h : AllocationRun .exact definition demands available filled b) (layoutHash : String)
    {m : ModuleDefinition F} (hm : m ∈ definition.modules) :
    ModuleSafe demands b.grants (b.grants.map (lease layoutHash)) m
      (moduleAllocation .exact demands b m) := by
  obtain ⟨donors, hinv⟩ := h.inv
  have hcurrent := hinv.current_eq m hm
  have hborrowed := borrowed_nonneg hinv m.moduleId
  obtain ⟨hfilled, hlow, hhigh⟩ := filled_bounds hvalid hdemands h.fill hm
  have hlocal : max (Arith.exact.sub (b.current m.moduleId) (b.borrowed m.moduleId)) 0 =
      filled.1 m.moduleId := by
    rw [Arith.sub_exact]
    omega
  refine ⟨rfl, ?_, hinv.current_le m hm, ?_, ?_, hinv.lent_eq _, ?_, ?_, ?_, ?_⟩
  · simp only [moduleAllocation]
    omega
  · intro hcannot
    have hzero : b.borrowed m.moduleId = 0 := by
      by_contra hb
      have := (h.borrower_of_borrowed hvalid hm hb).1
      rw [hcannot] at this
      cases this
    simp only [moduleAllocation]
    omega
  · rw [leases_borrowed]
    exact hinv.borrowed_eq _
  · simp only [moduleAllocation, hlocal]
    omega
  · simp only [moduleAllocation, hlocal]
    exact hfilled
  · simp only [moduleAllocation, hlocal]
    omega
  · intro hl
    obtain ⟨hlend, hdemand, hle⟩ := h.donor_of_lent hvalid hdemands hm hl
    have hlent := lent_nonneg hinv m.moduleId
    -- a lender asks for no more than its target, so it is no borrower
    have hzero : b.borrowed m.moduleId = 0 := by
      by_contra hb
      have := (h.borrower_of_borrowed hvalid hm hb).2
      omega
    simp only [moduleAllocation]
    exact ⟨hlend, by omega, hzero, by omega⟩

end Modules

/-! ### The slack's name -/

/-- A module named like the arena's slack that may borrow from the slack, or that may lend to a
module the slack may lend to as well. -/
def SlackNameClash (definition : ArenaDefinition F) : Prop :=
  ∃ s ∈ definition.modules, s.moduleId = Donor.arenaSlack.name ∧
    (s.canBorrow = true ∧ s.targetTokens < s.maxTokens ∨
      s.canLend = true ∧ 0 < s.targetTokens ∧ ∃ b ∈ definition.modules, b.moduleId ≠ s.moduleId ∧
        b.canBorrow = true ∧ b.targetTokens + 2 ≤ b.maxTokens)

instance (definition : ArenaDefinition F) : Decidable (SlackNameClash definition) :=
  inferInstanceAs (Decidable (∃ s ∈ _, _ = _ ∧ (_ ∧ _ ∨ _ ∧ _ ∧ ∃ b ∈ _, _)))

section Leases

variable {definition : ArenaDefinition F} {demands : String → ℤ} {available : ℤ}
  {filled : (String → ℤ) × ℤ} {b : Borrowing F}

/-- Two grants to a borrower lie between its target and its maximum. -/
theorem AllocationRun.two_grants {ar : Arith} (hvalid : ValidDefinition definition)
    (h : AllocationRun ar definition demands available filled b) {g g' : Grant F}
    (hg : g ∈ b.grants) (hg' : g' ∈ b.grants)
    (hborrower : g'.borrower.moduleId = g.borrower.moduleId) (hne : g.donor ≠ g'.donor) :
    g.borrower.targetTokens + 2 ≤ g.borrower.maxTokens := by
  obtain ⟨donors, hinv⟩ := h.inv
  obtain ⟨hm, -, hdemand, -⟩ := mem_borrowersOf.1 (hinv.borrower_mem g hg)
  have hfull := h.full_of_grant hvalid hg hm
  have hcurrent := hinv.current_eq _ hm
  have hle := hinv.current_le _ hm
  have hpos := hinv.tokens_pos
  have htwo : g.tokens + g'.tokens ≤ b.borrowed g.borrower.moduleId := by
    rw [hinv.borrowed_eq]
    generalize b.grants = grants at hg hg' hpos
    obtain ⟨s, t, rfl⟩ := List.append_of_mem hg
    have hnonneg : ∀ l : List (Grant F), (∀ x ∈ l, x ∈ s ++ g :: t) →
        ∀ e ∈ borrowerEntries l, 0 ≤ e.2 := by
      intro l hl e he
      obtain ⟨x, hx, rfl⟩ := List.mem_map.1 he
      exact (hpos x (hl x hx)).le
    have hs := hnonneg s fun x hx => List.mem_append_left _ hx
    have ht := hnonneg t fun x hx => List.mem_append_right _ (List.mem_cons_of_mem _ hx)
    have hsplit : borrowerEntries (s ++ g :: t) =
        borrowerEntries s ++ ([(g.borrower.moduleId, g.tokens)] ++ borrowerEntries t) := by
      simp [borrowerEntries]
    have hs0 := Ledger.amountOf_nonneg hs g.borrower.moduleId
    have ht0 := Ledger.amountOf_nonneg ht g.borrower.moduleId
    rw [hsplit, Ledger.amountOf_append, Ledger.amountOf_append, Ledger.amountOf_singleton_self]
    -- the other grant lies before or after this one
    rcases List.mem_append.1 hg' with hmem | hmem
    · have := Ledger.le_amountOf hs (List.mem_map_of_mem hmem)
      simp only [hborrower] at this
      omega
    · rcases List.mem_cons.1 hmem with rfl | hmem
      · exact absurd rfl hne
      · have := Ledger.le_amountOf ht (List.mem_map_of_mem hmem)
        simp only [hborrower] at this
        omega
  have h₁ := hpos g hg
  have h₂ := hpos g' hg'
  omega

/-- What a grant of the slack or of a donor says about a module with the slack's name. -/
theorem AllocationRun.slackNameClash_of_donor (hvalid : ValidDefinition definition)
    (h : AllocationRun .exact definition demands available filled b) {g g' : Grant F}
    (hg : g ∈ b.grants) (hg' : g' ∈ b.grants)
    (hborrower : g'.borrower.moduleId = g.borrower.moduleId) {id : String}
    (hid : g.donor = .module id) (hslack : g'.donor = .arenaSlack)
    (hname : id = Donor.arenaSlack.name) : SlackNameClash definition := by
  obtain ⟨donors, hinv⟩ := h.inv
  obtain ⟨hkey, hne⟩ := hinv.donor_mem g hg id hid
  obtain ⟨d, hd, hdid⟩ := List.mem_map.1 hkey
  obtain ⟨s, hs, hlend, heq, hpos⟩ := mem_donorsOf.1 hd
  obtain ⟨hm, hborrow, -, -⟩ := mem_borrowersOf.1 (hinv.borrower_mem g hg)
  rw [Prod.mk.injEq] at heq
  have hsid : s.moduleId = id := heq.1.symm.trans hdid
  have hfull := h.full_of_grant hvalid hg hs
  have hfilled := h.setting.filled_nonneg s hs
  have hoffer := heq.2
  rw [Arith.sub_exact] at hoffer
  refine ⟨s, hs, hsid.trans hname, Or.inr ⟨hlend, by omega, g.borrower, hm, ?_, hborrow, ?_⟩⟩
  · rw [hsid]
    exact hne.symm
  · exact h.two_grants hvalid hg hg' hborrower (by rw [hid, hslack]; exact Donor.noConfusion)

/-- Without a clash no module lends to itself. -/
theorem AllocationRun.donor_ne_borrower (hvalid : ValidDefinition definition)
    (h : AllocationRun .exact definition demands available filled b)
    (hclash : ¬ SlackNameClash definition) {g : Grant F} (hg : g ∈ b.grants) :
    g.donor.name ≠ g.borrower.moduleId := by
  obtain ⟨donors, hinv⟩ := h.inv
  obtain ⟨hm, hborrow, hdemand, hmax⟩ := mem_borrowersOf.1 (hinv.borrower_mem g hg)
  have hfull := h.full_of_grant hvalid hg hm
  cases hdonor : g.donor with
  | module id => exact (hinv.donor_mem g hg id hdonor).2
  | arenaSlack =>
      intro hname
      exact hclash ⟨g.borrower, hm, hname.symm, Or.inl ⟨hborrow, by omega⟩⟩

/-- Without a clash a donor and a borrower share at most one lease. -/
theorem AllocationRun.leases_nodup (hvalid : ValidDefinition definition)
    (h : AllocationRun .exact definition demands available filled b)
    (hclash : ¬ SlackNameClash definition) (layoutHash : String) :
    ((b.grants.map (lease layoutHash)).map
      fun l => (l.donorModuleId, l.borrowerModuleId)).Nodup := by
  obtain ⟨donors, hinv⟩ := h.inv
  have hpairs : (b.grants.map (lease layoutHash)).map
      (fun l => (l.donorModuleId, l.borrowerModuleId)) =
      (b.grants.map fun g => (g.donor, g.borrower.moduleId)).map
        fun p => (p.1.name, p.2) := by
    simp only [List.map_map]
    rfl
  rw [hpairs]
  refine List.Nodup.map_on ?_ hinv.pairs_nodup
  rintro _ hp _ hp' heq
  obtain ⟨g, hg, rfl⟩ := List.mem_map.1 hp
  obtain ⟨g', hg', rfl⟩ := List.mem_map.1 hp'
  rw [Prod.mk.injEq] at heq ⊢
  obtain ⟨hname, hborrower⟩ := heq
  refine ⟨?_, hborrower⟩
  cases hdonor : g.donor with
  | module id =>
      cases hdonor' : g'.donor with
      | module id' =>
          rw [hdonor, hdonor'] at hname
          exact congrArg Donor.module hname
      | arenaSlack =>
          rw [hdonor, hdonor'] at hname
          exact absurd (h.slackNameClash_of_donor hvalid hg hg' hborrower.symm hdonor hdonor' hname)
            hclash
  | arenaSlack =>
      cases hdonor' : g'.donor with
      | module id' =>
          rw [hdonor, hdonor'] at hname
          exact absurd
            (h.slackNameClash_of_donor hvalid hg' hg hborrower hdonor' hdonor hname.symm) hclash
      | arenaSlack => rfl

end Leases

/-- Without a clash the contract holds for all demands and admissible budgets. -/
theorem allocationSafe_of_not_clash {definition : ArenaDefinition F}
    (hvalid : ValidDefinition definition) (hclash : ¬ SlackNameClash definition)
    {demands : String → ℤ} (hdemands : ∀ m ∈ definition.modules, 0 ≤ demands m.moduleId)
    (layoutHash : String) {inputBudget : ℤ}
    (hbudget : validateModelBudget .exact definition inputBudget = .ok ()) :
    AllocationSafe definition demands layoutHash inputBudget := by
  obtain ⟨-, hfloors⟩ := validateModelBudget_eq_ok.1 hbudget
  simp only [Arith.sum_exact, Arith.sub_exact] at hfloors
  obtain ⟨filled, hledger, hrun⟩ := allocationRun hvalid (fun _ _ => Arith.fits_exact _)
    hdemands (Arith.fits_exact _) hfloors
  obtain ⟨donors, hinv⟩ := hrun.inv
  refine ⟨_, _, _, hledger, by rw [allocate, hledger], ?_, ?_, hinv.remaining_nonneg, ?_,
    hrun.leases_nodup hvalid hclash layoutHash⟩
  · rw [List.forall₂_map_right_iff]
    exact List.forall₂_same.2 fun m hm =>
      hrun.moduleSafe hvalid hdemands layoutHash (mem_orderedModules.1 hm)
  · rw [allocations_sum, hinv.total_add]
  · intro l hl
    obtain ⟨g, hg, rfl⟩ := List.mem_map.1 hl
    exact ⟨hinv.tokens_pos g hg, hrun.donor_ne_borrower hvalid hclash hg⟩

/-! ### A clash breaks the contract -/

section Clash

variable {definition : ArenaDefinition F} {demands : String → ℤ}

omit [FloatOps F] in
/-- The targets of the modules. -/
theorem targets_apply (hvalid : ValidDefinition definition) {m : ModuleDefinition F}
    (hm : m ∈ definition.modules) :
    perModule definition ModuleDefinition.targetTokens 0 m.moduleId = m.targetTokens :=
  perModule_apply hvalid.ids_nodup _ _ hm

omit [FloatOps F] in
/-- The floors add up to a natural number. -/
theorem floors_sum_nonneg (hvalid : ValidDefinition definition) :
    0 ≤ (definition.modules.map ModuleDefinition.floorTokens).sum := by
  refine List.sum_nonneg ?_
  intro x hx
  obtain ⟨m, hm, rfl⟩ := List.mem_map.1 hx
  exact (hvalid.valid m hm).floor_nonneg

omit [FloatOps F] in
theorem floors_le_targets (hvalid : ValidDefinition definition) :
    (definition.modules.map ModuleDefinition.floorTokens).sum ≤
      Ledger.total (definition.modules.map ModuleDefinition.moduleId)
        (perModule definition ModuleDefinition.targetTokens 0) := by
  rw [Ledger.total, List.map_map]
  refine List.sum_le_sum ?_
  intro m hm
  rw [Function.comp_apply, targets_apply hvalid hm]
  exact (hvalid.valid m hm).floor_le_target

/-- With `surplus` tokens above the targets asked for, the rounds fill every module and leave the
surplus. -/
theorem allocationRun_of_surplus (hvalid : ValidDefinition definition)
    (hdemands : ∀ m ∈ definition.modules, 0 ≤ demands m.moduleId) {caps : String → ℤ}
    (hcaps : ∀ m ∈ definition.modules, min m.targetTokens (demands m.moduleId) = caps m.moduleId)
    {surplus : ℤ} (hsurplus : 0 < surplus)
    (hfloors : (definition.modules.map ModuleDefinition.floorTokens).sum ≤
      Ledger.total (definition.modules.map ModuleDefinition.moduleId) caps + surplus) :
    let inputBudget := definition.frameworkReserveTokens +
      (Ledger.total (definition.modules.map ModuleDefinition.moduleId) caps + surplus)
    validateModelBudget .exact definition inputBudget = .ok () ∧
      ∃ filled, allocateLedger .exact definition demands inputBudget =
          .ok (borrowAfter .exact definition demands filled) ∧
        (∀ m ∈ definition.modules, filled.1 m.moduleId = caps m.moduleId) ∧
        filled.2 = surplus := by
  intro inputBudget
  have havailable : inputBudget - definition.frameworkReserveTokens =
      Ledger.total (definition.modules.map ModuleDefinition.moduleId) caps + surplus := by omega
  have hcapsEq : ∀ id ∈ definition.modules.map ModuleDefinition.moduleId,
      targetCaps definition demands id = caps id := by
    intro id hid
    obtain ⟨m, hm, rfl⟩ := List.mem_map.1 hid
    rw [targetCaps_apply hvalid hm, hcaps m hm]
  have hnonneg : 0 ≤ Ledger.total (definition.modules.map ModuleDefinition.moduleId) caps := by
    refine Ledger.total_nonneg ?_
    intro id hid
    obtain ⟨m, hm, rfl⟩ := List.mem_map.1 hid
    have h₁ := (hvalid.valid m hm).target_nonneg
    have h₂ := hdemands m hm
    rw [← hcaps m hm]
    omega
  refine ⟨?_, ?_⟩
  · rw [validateModelBudget_eq_ok]
    simp only [Arith.sub_exact, Arith.sum_exact, havailable]
    exact ⟨by omega, hfloors⟩
  · obtain ⟨filled, hledger, hrun⟩ := allocationRun hvalid (fun _ _ => Arith.fits_exact _) hdemands
      (Arith.fits_exact (inputBudget - definition.frameworkReserveTokens))
      (by rw [havailable]; exact hfloors)
    refine ⟨filled, hledger, ?_⟩
    have htotal := hrun.fill.total_add
    rw [havailable] at htotal
    have hle : Ledger.total (definition.modules.map ModuleDefinition.moduleId) filled.1 ≤
        Ledger.total (definition.modules.map ModuleDefinition.moduleId) caps :=
      Ledger.total_mono fun id hid => (hrun.fill.current_le id hid).trans_eq (hcapsEq id hid)
    rcases hrun.fill.exhausted with hzero | hfull
    · omega
    · have heq : Ledger.total (definition.modules.map ModuleDefinition.moduleId) filled.1 =
          Ledger.total (definition.modules.map ModuleDefinition.moduleId) caps :=
        Ledger.total_congr fun id hid => (hfull id hid).trans (hcapsEq id hid)
      refine ⟨?_, by omega⟩
      intro m hm
      exact (hfull _ (List.mem_map_of_mem hm)).trans (hcapsEq _ (List.mem_map_of_mem hm))

omit [FloatOps F] in
/-- A list without repetitions whose only member is `x`. -/
theorem eq_singleton_of_nodup {α : Type} {l : List α} (hnodup : l.Nodup) {x : α}
    (h : ∀ y, y ∈ l ↔ y = x) : l = [x] := by
  refine List.perm_singleton.1 ((List.perm_ext_iff_of_nodup hnodup (List.nodup_singleton x)).2 ?_)
  intro y
  rw [h y, List.mem_singleton]

/-- A module is the only borrower if no other one asks for more than its target. -/
theorem borrowersOf_eq_singleton (hvalid : ValidDefinition definition) {b : ModuleDefinition F}
    (hb : b ∈ definition.modules) (hborrow : b.canBorrow = true)
    (hdemand : b.targetTokens < demands b.moduleId) {current : String → ℤ}
    (hcurrent : current b.moduleId < b.maxTokens)
    (hothers : ∀ m ∈ definition.modules, m.targetTokens < demands m.moduleId → m = b) :
    borrowersOf definition demands current = [b] := by
  refine eq_singleton_of_nodup (List.Nodup.of_map _ (borrowersOf_nodup hvalid.ids_nodup _ _)) ?_
  intro m
  rw [mem_borrowersOf]
  constructor
  · rintro ⟨hm, -, hlt, -⟩
    exact hothers m hm hlt
  · rintro rfl
    exact ⟨hb, hborrow, hdemand, hcurrent⟩

omit [FloatOps F] in
/-- A module is the only donor if no other one is allocated less than its target. -/
theorem donorsOf_eq_singleton (hvalid : ValidDefinition definition) {s : ModuleDefinition F}
    (hs : s ∈ definition.modules) (hlend : s.canLend = true) {current : String → ℤ} {surplus : ℤ}
    (hsurplus : s.targetTokens - current s.moduleId = surplus) (hpos : 0 < surplus)
    (hothers : ∀ m ∈ definition.modules, m.moduleId ≠ s.moduleId →
      m.targetTokens ≤ current m.moduleId) :
    donorsOf .exact definition current = [(s.moduleId, surplus)] := by
  refine eq_singleton_of_nodup (List.Nodup.of_map _ (donorsOf_nodup hvalid.ids_nodup _)) ?_
  intro d
  rw [mem_donorsOf]
  constructor
  · rintro ⟨m, hm, -, rfl, hd⟩
    simp only [Arith.sub_exact] at hd ⊢
    by_cases hms : m.moduleId = s.moduleId
    · obtain rfl := eq_of_moduleId_eq hvalid.ids_nodup hm hs hms
      rw [hsurplus, max_eq_left hpos.le]
    · have hle := hothers m hm hms
      omega
  · rintro rfl
    refine ⟨s, hs, hlend, ?_, hpos⟩
    rw [Arith.sub_exact, hsurplus, max_eq_left hpos.le]

/-- A borrower that needs two tokens takes one from the only donor and one from the slack. -/
theorem grants_of_one_donor {b : ModuleDefinition F} {donor : String} (hne : donor ≠ b.moduleId)
    {filled : (String → ℤ) × ℤ} (hleft : filled.2 = 2)
    (hdonors : donorsOf .exact definition filled.1 = [(donor, 1)])
    (hborrowers : borrowersOf definition demands filled.1 = [b])
    (hneed : min (demands b.moduleId) b.maxTokens - filled.1 b.moduleId = 2) :
    (borrowAfter .exact definition demands filled).grants =
      [⟨.module donor, b, 1⟩, ⟨.arenaSlack, b, 1⟩] := by
  simp only [borrowAfter, hdonors, hborrowers, borrow, borrowFor, borrowFromDonors, borrowStart,
    Arith.sub_exact, hneed, hleft, hne, false_or]
  simp [borrowFromSlack, Borrowing.take]

/-- A module with the slack's name that borrows from the slack lends to itself. -/
theorem not_safe_of_borrower (hvalid : ValidDefinition definition) (layoutHash : String)
    {s : ModuleDefinition F} (hs : s ∈ definition.modules)
    (hname : s.moduleId = Donor.arenaSlack.name) (hborrow : s.canBorrow = true)
    (hmax : s.targetTokens < s.maxTokens) :
    ∃ demands : String → ℤ, ∃ inputBudget : ℤ,
      (∀ m ∈ definition.modules, 0 ≤ demands m.moduleId) ∧
      validateModelBudget .exact definition inputBudget = .ok () ∧
      ¬ AllocationSafe definition demands layoutHash inputBudget := by
  -- every module asks for its target, and `s` for one token more
  set targets := perModule definition ModuleDefinition.targetTokens 0 with htargets
  set demands := Ledger.credit targets s.moduleId 1 with hdemandsEq
  have hcases : ∀ m ∈ definition.modules,
      demands m.moduleId = m.targetTokens ∧ m ≠ s ∨ demands m.moduleId = m.targetTokens + 1 ∧
        m = s := by
    intro m hm
    by_cases heq : m.moduleId = s.moduleId
    · obtain rfl := eq_of_moduleId_eq hvalid.ids_nodup hm hs heq
      rw [hdemandsEq, Ledger.credit_self, htargets, targets_apply hvalid hm]
      exact Or.inr ⟨rfl, rfl⟩
    · rw [hdemandsEq, Ledger.credit_of_ne _ _ heq, htargets, targets_apply hvalid hm]
      exact Or.inl ⟨rfl, fun h => heq (congrArg _ h)⟩
  have hdemands : ∀ m ∈ definition.modules, 0 ≤ demands m.moduleId := by
    intro m hm
    have := (hvalid.valid m hm).target_nonneg
    rcases hcases m hm with ⟨h, -⟩ | ⟨h, -⟩ <;> omega
  have hcaps : ∀ m ∈ definition.modules,
      min m.targetTokens (demands m.moduleId) = targets m.moduleId := by
    intro m hm
    rw [htargets, targets_apply hvalid hm]
    rcases hcases m hm with ⟨h, -⟩ | ⟨h, -⟩ <;> omega
  have hfloors := floors_le_targets hvalid
  rw [← htargets] at hfloors
  obtain ⟨hbudget, filled, hledger, hfull, hleft⟩ :=
    allocationRun_of_surplus hvalid hdemands hcaps one_pos (by omega)
  refine ⟨demands, _, hdemands, hbudget, ?_⟩
  have htarget : ∀ m ∈ definition.modules, filled.1 m.moduleId = m.targetTokens := by
    intro m hm
    rw [hfull m hm, htargets, targets_apply hvalid hm]
  have hdonors : donorsOf .exact definition filled.1 = [] := by
    refine List.eq_nil_iff_forall_not_mem.2 ?_
    intro d hd
    obtain ⟨m, hm, -, rfl, hpos⟩ := mem_donorsOf.1 hd
    simp [htarget m hm] at hpos
  have hdemand : demands s.moduleId = s.targetTokens + 1 := by
    rcases hcases s hs with ⟨-, h⟩ | ⟨h, -⟩
    · exact absurd rfl h
    · exact h
  have hborrowers : borrowersOf definition demands filled.1 = [s] := by
    refine borrowersOf_eq_singleton hvalid hs hborrow (by omega)
      ((htarget s hs).trans_lt hmax) ?_
    intro m hm hlt
    rcases hcases m hm with ⟨h, -⟩ | ⟨-, h⟩
    · omega
    · exact h
  -- nobody lends, so the extra token comes from the slack
  obtain ⟨g, hgrants⟩ : ∃ g, (borrowAfter .exact definition demands filled).grants =
      [⟨.arenaSlack, s, g⟩] := by
    simp only [borrowAfter, hdonors, hborrowers, borrow, borrowFor, borrowFromDonors,
      borrowFromSlack, borrowStart, Arith.sub_exact, List.map_nil, Arith.sum_exact, List.sum_nil,
      hleft, htarget s hs, hdemand]
    rw [if_pos ⟨by omega, by omega, by omega⟩]
    exact ⟨_, rfl⟩
  rintro ⟨b, allocations, leases, hb, hall, -, -, -, hleases, -⟩
  rw [allocate, hledger] at hall
  simp only [Except.ok.injEq, Prod.mk.injEq, hgrants] at hall
  have hmem : lease layoutHash ⟨.arenaSlack, s, g⟩ ∈ leases := by
    rw [← hall.2]
    exact List.mem_singleton.2 rfl
  exact (hleases _ hmem).2 hname.symm

/-- A module with the slack's name that lends to a borrower of the slack shares two leases with
it. -/
theorem not_safe_of_lender (hvalid : ValidDefinition definition) (layoutHash : String)
    {s b : ModuleDefinition F} (hs : s ∈ definition.modules)
    (hname : s.moduleId = Donor.arenaSlack.name) (hlend : s.canLend = true)
    (hpos : 0 < s.targetTokens) (hb : b ∈ definition.modules) (hne : b.moduleId ≠ s.moduleId)
    (hborrow : b.canBorrow = true) (hmax : b.targetTokens + 2 ≤ b.maxTokens) :
    ∃ demands : String → ℤ, ∃ inputBudget : ℤ,
      (∀ m ∈ definition.modules, 0 ≤ demands m.moduleId) ∧
      validateModelBudget .exact definition inputBudget = .ok () ∧
      ¬ AllocationSafe definition demands layoutHash inputBudget := by
  -- every module asks for its target, but `s` for one token less and `b` for two more
  set targets := perModule definition ModuleDefinition.targetTokens 0 with htargets
  set caps := Ledger.credit targets s.moduleId (-1) with hcapsEq
  set demands := Ledger.credit caps b.moduleId 2 with hdemandsEq
  have hcapsS : caps s.moduleId = s.targetTokens - 1 := by
    rw [hcapsEq, Ledger.credit_self, htargets, targets_apply hvalid hs]
    omega
  have hcapsOther : ∀ m ∈ definition.modules, m.moduleId ≠ s.moduleId →
      caps m.moduleId = m.targetTokens := by
    intro m hm hms
    rw [hcapsEq, Ledger.credit_of_ne _ _ hms, htargets, targets_apply hvalid hm]
  have hdemandB : demands b.moduleId = b.targetTokens + 2 := by
    rw [hdemandsEq, Ledger.credit_self, hcapsOther b hb hne]
  have hdemandOther : ∀ m ∈ definition.modules, m.moduleId ≠ b.moduleId →
      demands m.moduleId = caps m.moduleId := by
    intro m _ hmb
    rw [hdemandsEq, Ledger.credit_of_ne _ _ hmb]
  have hcapsBounds : ∀ m ∈ definition.modules, 0 ≤ caps m.moduleId ∧
      caps m.moduleId ≤ m.targetTokens := by
    intro m hm
    have hnonneg := (hvalid.valid m hm).target_nonneg
    by_cases hms : m.moduleId = s.moduleId
    · obtain rfl := eq_of_moduleId_eq hvalid.ids_nodup hm hs hms
      omega
    · rw [hcapsOther m hm hms]
      omega
  have hcases : ∀ m ∈ definition.modules, m = b ∨
      m.moduleId ≠ b.moduleId ∧ demands m.moduleId = caps m.moduleId := by
    intro m hm
    by_cases hmb : m.moduleId = b.moduleId
    · exact Or.inl (eq_of_moduleId_eq hvalid.ids_nodup hm hb hmb)
    · exact Or.inr ⟨hmb, hdemandOther m hm hmb⟩
  have hcapsB := hcapsOther b hb hne
  have hdemands : ∀ m ∈ definition.modules, 0 ≤ demands m.moduleId := by
    intro m hm
    have := hcapsBounds m hm
    rcases hcases m hm with rfl | ⟨-, h⟩ <;> omega
  have hcaps : ∀ m ∈ definition.modules,
      min m.targetTokens (demands m.moduleId) = caps m.moduleId := by
    intro m hm
    have := hcapsBounds m hm
    rcases hcases m hm with rfl | ⟨-, h⟩ <;> omega
  have hfloors := floors_le_targets hvalid
  have htotal := Ledger.total_credit hvalid.ids_nodup targets (-1) (List.mem_map_of_mem hs)
  rw [← htargets] at hfloors
  rw [← hcapsEq] at htotal
  obtain ⟨hbudget, filled, hledger, hfull, hleft⟩ :=
    allocationRun_of_surplus hvalid hdemands hcaps two_pos (by omega)
  refine ⟨demands, _, hdemands, hbudget, ?_⟩
  have hdonors : donorsOf .exact definition filled.1 = [(s.moduleId, 1)] := by
    refine donorsOf_eq_singleton hvalid hs hlend (by rw [hfull s hs, hcapsS]; omega) one_pos ?_
    intro m hm hms
    rw [hfull m hm, hcapsOther m hm hms]
  have hborrowers : borrowersOf definition demands filled.1 = [b] := by
    refine borrowersOf_eq_singleton hvalid hb hborrow (by omega) (by rw [hfull b hb]; omega) ?_
    intro m hm hlt
    have := hcapsBounds m hm
    rcases hcases m hm with h | ⟨-, h⟩
    · exact h
    · omega
  -- one token comes from `s`, the other from the slack
  have hgrants := grants_of_one_donor hne.symm hleft hdonors hborrowers (by
    rw [hfull b hb, hcapsB, hdemandB]
    omega)
  rintro ⟨b', allocations, leases, hb', hall, -, -, -, -, hnodup⟩
  rw [allocate, hledger] at hall
  simp only [Except.ok.injEq, Prod.mk.injEq, hgrants] at hall
  rw [← hall.2] at hnodup
  simp [lease, hname, Donor.name] at hnodup

end Clash

/-- The contract holds for all demands and admissible budgets of a definition exactly if no module
with the slack's name can be confused with it. -/
theorem allocate_safe_iff {definition : ArenaDefinition F}
    (hvalid : validateDefinition definition = .ok ()) (layoutHash : String) :
    (∀ (demands : String → ℤ) (inputBudget : ℤ),
      (∀ m ∈ definition.modules, 0 ≤ demands m.moduleId) →
      validateModelBudget .exact definition inputBudget = .ok () →
      AllocationSafe definition demands layoutHash inputBudget) ↔
    ¬ SlackNameClash definition := by
  have hvalid := validateDefinition_ok hvalid
  constructor
  · rintro hsafe ⟨s, hs, hname, ⟨hborrow, hmax⟩ | ⟨hlend, hpos, b, hb, hne, hborrow, hmax⟩⟩
    · obtain ⟨demands, inputBudget, hdemands, hbudget, hnot⟩ :=
        not_safe_of_borrower hvalid layoutHash hs hname hborrow hmax
      exact hnot (hsafe demands inputBudget hdemands hbudget)
    · obtain ⟨demands, inputBudget, hdemands, hbudget, hnot⟩ :=
        not_safe_of_lender hvalid layoutHash hs hname hlend hpos hb hne hborrow hmax
      exact hnot (hsafe demands inputBudget hdemands hbudget)
  · intro hclash demands inputBudget hdemands hbudget
    exact allocationSafe_of_not_clash hvalid hclash hdemands layoutHash hbudget

theorem allocate_safe_iff_example :
    ¬ SlackNameClash exampleDefinition ∧
      AllocationSafe exampleDefinition (fun _ => 5) "layout" 20 := by
  have hclash : ¬ SlackNameClash exampleDefinition := by decide
  exact ⟨hclash, (allocate_safe_iff (by decide +kernel) "layout").2 hclash (fun _ => 5) 20
    (fun _ _ => by decide) (by decide +kernel)⟩

/-- One module, which is named like the slack and borrows. -/
def slackNamedDefinition : ArenaDefinition ℚ where
  arenaId := "arena"
  modules :=
    [{ moduleId := "__arena_slack__", floorTokens := 0, targetTokens := 2, maxTokens := 4,
       weight := 1, reclaimPipeline := [⟨"builtin.text.boundary_truncate.v1", []⟩] }]

/-- The module asks for twice its target, and is its own donor. -/
theorem slackNamed_lends_to_itself :
    validateDefinition slackNamedDefinition = .ok () ∧
      validateModelBudget .exact slackNamedDefinition 10 = .ok () ∧
      ¬ AllocationSafe slackNamedDefinition (fun _ => 4) "layout" 10 := by
  refine ⟨by decide +kernel, by decide +kernel, ?_⟩
  rintro ⟨b, allocations, leases, -, hall, -, -, -, hleases, -⟩
  have hlease : ((allocate .exact slackNamedDefinition (fun _ => 4) "layout" 10).map fun result =>
      result.2.map fun l => (l.donorModuleId, l.borrowerModuleId)).toOption =
      some [("__arena_slack__", "__arena_slack__")] := by decide +kernel
  rw [hall] at hlease
  simp only [Except.map, Except.toOption, Option.some_inj, List.map_eq_singleton_iff] at hlease
  obtain ⟨l, rfl, hnames⟩ := hlease
  rw [Prod.mk.injEq] at hnames
  exact (hleases l (List.mem_singleton.2 rfl)).2 (hnames.1.trans hnames.2.symm)

end ContextLease
