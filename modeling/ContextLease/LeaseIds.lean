/-
The ids of the leases.

A lease is identified by the layout, its donor and its borrower, whose names are joined with colons.
Names may contain colons, and the slack lends under a name that a module may have, so two leases of
one plan can share their id.  Which definitions allow this can be said exactly: the order in which
the borrowers are served decides which leases can stand in one plan.

Main definitions:

* `MayLend`, `MayBorrow`, `leaseKey` — who can take part in a lease, and what identifies it;
* `LeaseIdClash` — the definitions of which a plan can have two leases with one id;
* `WeightsCompare` — the weights of a definition compare as numbers do.

Main results:

* `exists_served` — the grants of every allocation are in the order of their serving;
* `leaseIds_nodup` — without a clash the leases of a plan have distinct ids.
-/

import Mathlib.Data.Prod.Lex
import ContextLease.ServingOrder

set_option relaxedAutoImplicit false
set_option autoImplicit false

namespace ContextLease

open MachineNumbers

variable {F : Type} [FloatOps F]

/-! ### Definitions whose leases can share an id -/

section Definitions

omit [FloatOps F]

/-- A module that can have tokens to lend. -/
def MayLend (m : ModuleDefinition F) : Prop := m.canLend = true ∧ 0 < m.targetTokens

/-- A module that can borrow `room` tokens. -/
def MayBorrow (room : ℤ) (m : ModuleDefinition F) : Prop :=
  m.canBorrow = true ∧ m.targetTokens + room ≤ m.maxTokens

instance (m : ModuleDefinition F) : Decidable (MayLend m) := inferInstanceAs (Decidable (_ ∧ _))

instance (room : ℤ) (m : ModuleDefinition F) : Decidable (MayBorrow room m) :=
  inferInstanceAs (Decidable (_ ∧ _))

/-- What the id of a lease says beside the layout. -/
def leaseKey (donor borrower : String) : String := donor ++ ":" ++ borrower

theorem leaseKey_donor {donor donor' borrower : String}
    (h : leaseKey donor borrower = leaseKey donor' borrower) : donor = donor' := by
  have hlists := congrArg String.toList h
  simp only [leaseKey, String.toList_append, List.append_cancel_right_eq] at hlists
  exact String.toList_inj.1 hlists

theorem leaseKey_borrower {donor borrower borrower' : String}
    (h : leaseKey donor borrower = leaseKey donor borrower') : borrower = borrower' := by
  have hlists := congrArg String.toList h
  simp only [leaseKey, String.toList_append, List.append_assoc,
    List.append_cancel_left_eq] at hlists
  exact String.toList_inj.1 hlists

theorem lease_leaseId (layoutHash : String) (g : Grant F) :
    (lease layoutHash g).leaseId =
      layoutHash ++ ":" ++ leaseKey g.donor.name g.borrower.moduleId := by
  simp only [lease, leaseKey, String.append_assoc]

/-- Leases of one layout have the same id when their keys are the same. -/
theorem leaseKey_of_leaseId {layoutHash : String} {g g' : Grant F}
    (h : (lease layoutHash g).leaseId = (lease layoutHash g').leaseId) :
    leaseKey g.donor.name g.borrower.moduleId = leaseKey g'.donor.name g'.borrower.moduleId := by
  rw [lease_leaseId, lease_leaseId] at h
  have hlists := congrArg String.toList h
  simp only [String.toList_append, List.append_cancel_left_eq] at hlists
  exact String.toList_inj.1 hlists

end Definitions

/-- A plan can have two leases with one id: two modules lend to two borrowers that are served in the
order of the donors, or a module lends to a borrower and the slack to a later one, or a module is
named like the slack and lends to a borrower that the slack lends to as well. -/
def LeaseIdClash (definition : ArenaDefinition F) : Prop :=
  (∃ d ∈ definition.modules, ∃ d' ∈ definition.modules, ∃ b ∈ definition.modules,
    ∃ b' ∈ definition.modules, MayLend d ∧ MayLend d' ∧ MayBorrow 1 b ∧ MayBorrow 1 b' ∧
      d.moduleId < d'.moduleId ∧ borrowsBefore b b' ∧
      d.moduleId ∉ [b.moduleId, b'.moduleId] ∧ d'.moduleId ∉ [b.moduleId, b'.moduleId] ∧
      leaseKey d.moduleId b.moduleId = leaseKey d'.moduleId b'.moduleId) ∨
  (∃ d ∈ definition.modules, ∃ b ∈ definition.modules, ∃ b' ∈ definition.modules,
    MayLend d ∧ MayBorrow 1 b ∧ MayBorrow 1 b' ∧ borrowsBefore b b' ∧ b.moduleId ≠ b'.moduleId ∧
      d.moduleId ∉ [b.moduleId, b'.moduleId] ∧
      leaseKey d.moduleId b.moduleId = leaseKey Donor.arenaSlack.name b'.moduleId) ∨
  ∃ d ∈ definition.modules, ∃ b ∈ definition.modules,
    MayLend d ∧ MayBorrow 2 b ∧ d.moduleId ≠ b.moduleId ∧ d.moduleId = Donor.arenaSlack.name

instance (definition : ArenaDefinition F) : Decidable (LeaseIdClash definition) :=
  inferInstanceAs (Decidable (_ ∨ _ ∨ _))

/-- The weights of some modules are finite floats, which compare as the numbers they are. -/
def WeightsCompare (ms : List (ModuleDefinition F)) : Prop :=
  ∃ value : F → ℚ, ∀ m ∈ ms, ∀ m' ∈ ms,
    FloatOps.lt m.weight m'.weight = true ↔ value m.weight < value m'.weight

theorem weightsCompare_rat (ms : List (ModuleDefinition ℚ)) : WeightsCompare ms :=
  ⟨id, fun _ _ _ _ => decide_eq_true_iff⟩

/-! ### The order of the borrowers -/

section Order

/-- What the borrowers are sorted by, if `value` are the numbers of the weights. -/
def borrowRank (value : F → ℚ) (m : ModuleDefinition F) : ℚ ×ₗ ℤ ×ₗ String :=
  toLex (-value m.weight, toLex (m.order, m.moduleId))

variable {ms : List (ModuleDefinition F)}

/-- The borrowers are sorted by their ranks. -/
theorem borrowsBefore_iff_rank {value : F → ℚ} {m m' : ModuleDefinition F}
    (hlt : FloatOps.lt m.weight m'.weight = true ↔ value m.weight < value m'.weight)
    (hlt' : FloatOps.lt m'.weight m.weight = true ↔ value m'.weight < value m.weight) :
    borrowsBefore m m' ↔ borrowRank value m ≤ borrowRank value m' := by
  rw [borrowsBefore, borrowRank, borrowRank, Prod.Lex.toLex_le_toLex, Prod.Lex.toLex_le_toLex,
    neg_lt_neg_iff, neg_inj, ← Bool.not_eq_true, hlt, hlt', not_lt]
  rcases lt_trichotomy (value m.weight) (value m'.weight) with h | h | h
  · simp [h.ne, not_lt.2 h.le, not_le.2 h]
  · simp [h]
  · simp [h]

theorem WeightsCompare.borrowsBefore_iff (h : WeightsCompare ms) :
    ∃ value : F → ℚ, ∀ m ∈ ms, ∀ m' ∈ ms,
      borrowsBefore m m' ↔ borrowRank value m ≤ borrowRank value m' := by
  obtain ⟨value, hvalue⟩ := h
  exact ⟨value, fun m hm m' hm' =>
    borrowsBefore_iff_rank (hvalue m hm m' hm') (hvalue m' hm' m hm)⟩

/-- Two modules that borrow before each other have the same id. -/
theorem WeightsCompare.borrowsBefore_antisymm (h : WeightsCompare ms) {m m' : ModuleDefinition F}
    (hm : m ∈ ms) (hm' : m' ∈ ms) (hle : borrowsBefore m m') (hle' : borrowsBefore m' m) :
    m.moduleId = m'.moduleId := by
  obtain ⟨value, hvalue⟩ := h.borrowsBefore_iff
  rw [hvalue m hm m' hm'] at hle
  rw [hvalue m' hm' m hm] at hle'
  have heq := congrArg (fun rank => (ofLex (ofLex rank).2).2) (le_antisymm hle hle')
  exact heq

/-- Sorted borrowers are in their order. -/
theorem WeightsCompare.sorted (h : WeightsCompare ms) {l : List (ModuleDefinition F)}
    (hl : ∀ m ∈ l, m ∈ ms) : (l.insertionSort borrowsBefore).Pairwise borrowsBefore := by
  obtain ⟨value, hvalue⟩ := h.borrowsBefore_iff
  have hsort : l.insertionSort borrowsBefore =
      l.insertionSort fun m m' => borrowRank value m ≤ borrowRank value m' := by
    have hmap := List.map_insertionSort borrowsBefore
      (fun m m' => borrowRank value m ≤ borrowRank value m') id l
      fun m hm m' hm' => hvalue m (hl m hm) m' (hl m' hm')
    rwa [List.map_id, List.map_id] at hmap
  rw [hsort]
  have htotal : Std.Total fun m m' : ModuleDefinition F =>
      borrowRank value m ≤ borrowRank value m' := ⟨fun _ _ => le_total _ _⟩
  have htrans : IsTrans (ModuleDefinition F) fun m m' =>
      borrowRank value m ≤ borrowRank value m' := ⟨fun _ _ _ => le_trans⟩
  refine List.Pairwise.imp_of_mem (fun {m m'} hm hm' hle => ?_)
    (List.pairwise_insertionSort _ l)
  rw [List.mem_insertionSort] at hm hm'
  exact (hvalue m (hl m hm) m' (hl m' hm')).2 hle

omit [FloatOps F] in
/-- The donors are sorted by their ids. -/
theorem donorsOf_sorted {ar : Arith} {definition : ArenaDefinition F}
    (hnodup : (definition.modules.map ModuleDefinition.moduleId).Nodup) (current : String → ℤ) :
    (donorsOf ar definition current).Pairwise fun d d' => d.1 < d'.1 := by
  have htotal : Std.Total fun d d' : String × ℤ => d.1 ≤ d'.1 := ⟨fun _ _ => le_total _ _⟩
  have htrans : IsTrans (String × ℤ) fun d d' => d.1 ≤ d'.1 := ⟨fun _ _ _ => le_trans⟩
  have hle : (donorsOf ar definition current).Pairwise fun d d' => d.1 ≤ d'.1 :=
    List.pairwise_insertionSort _ _
  have hne := List.pairwise_map.1 (@donorsOf_nodup F ar definition hnodup current)
  exact (hle.and hne).imp fun ⟨hle, hne⟩ => lt_of_le_of_ne hle hne

end Order

/-! ### Allocations -/

section Allocated

variable {ar : Arith} {definition : ArenaDefinition F} {demands : String → ℤ} {inputBudget : ℤ}
  {b : Borrowing F}

/-- The grants of an allocation are in the order of their serving: `filled` is the ledger after the
weighted rounds. -/
theorem exists_served (hvalid : ValidDefinition definition)
    (hmax : ∀ m ∈ definition.modules, ar.Fits m.maxTokens)
    (hweights : WeightsCompare definition.modules)
    (hdemands : ∀ m ∈ definition.modules, 0 ≤ demands m.moduleId)
    (h : allocateLedger ar definition demands inputBudget = .ok b) :
    ∃ filled donors, (b.grants = [] ∨ ∀ m ∈ definition.modules,
        filled m.moduleId = min m.targetTokens (demands m.moduleId)) ∧
      Served ar borrowsBefore demands filled (donorsOf ar definition filled)
        (borrowersOf definition demands filled) [] donors b := by
  simp only [allocateLedger] at h
  split at h
  · cases h
  · rename_i hremaining
    rw [not_lt] at hremaining
    rw [Except.ok.injEq] at h
    have hfill := weightedFill_initial hvalid hmax hdemands hremaining (Arith.fits_norm ar _)
    generalize weightedFill ar definition (targetCaps definition demands)
      (initialCurrent definition demands) _ = filled at h hfill
    have hsorted := @donorsOf_sorted F ar definition hvalid.ids_nodup filled.1
    have hstart : Served ar borrowsBefore demands filled.1 (donorsOf ar definition filled.1)
        (borrowersOf definition demands filled.1) (borrowersOf definition demands filled.1)
        (donorsOf ar definition filled.1) (borrowStart ar definition filled) :=
      { sorted := hsorted
        fits_donors := by
          intro d hd
          obtain ⟨m, -, -, rfl, hpos⟩ := mem_donorsOf.1 hd
          have hfits := Arith.fits_norm ar (m.targetTokens - filled.1 m.moduleId)
          exact hfits.ofNonneg hpos.le (by simp only [Arith.sub] at hpos ⊢; omega)
        fits_remaining := (Arith.fits_norm ar _).ofNonneg hfill.remaining_nonneg hfill.remaining_le
        offered := fun d hd hpos => ⟨d, hd, rfl, hpos⟩
        unserved := fun _ _ => rfl
        tokens := fun g hg => absurd hg List.not_mem_nil
        origin := fun g hg => absurd hg List.not_mem_nil
        earlier := fun g hg => absurd hg List.not_mem_nil
        leaves := fun g hg => absurd hg List.not_mem_nil
        ordered := List.Pairwise.nil }
    obtain ⟨donors, hserved⟩ := hstart.borrow (fun _ hm => hm)
      (hweights.sorted fun m hm => (List.mem_filter.1 hm).1)
      (borrowersOf_nodup hvalid.ids_nodup _ _)
    have hafter : b = borrowAfter ar definition demands filled := h.symm
    refine ⟨filled.1, donors, ?_, hafter ▸ hserved⟩
    rcases hfill.exhausted with hzero | hfull
    · left
      rw [hafter, borrowAfter, borrow_of_exhausted _ _ (le_of_eq hzero)]
      rfl
    · right
      intro m hm
      rw [hfull _ (List.mem_map_of_mem hm), targetCaps_apply hvalid hm]

/-- What the donor and the borrower of a grant are. -/
structure GrantOrigin (definition : ArenaDefinition F) (demands filled : String → ℤ)
    (g : Grant F) : Prop where
  borrower_mem : g.borrower ∈ definition.modules
  can_borrow : g.borrower.canBorrow = true
  demands_more : g.borrower.targetTokens < demands g.borrower.moduleId
  filled_eq : filled g.borrower.moduleId = g.borrower.targetTokens
  below_max : g.borrower.targetTokens < g.borrower.maxTokens
  lender : ∀ id, g.donor = .module id → ∃ m ∈ definition.modules, m.moduleId = id ∧ MayLend m ∧
    demands m.moduleId < m.targetTokens

omit [FloatOps F] in
theorem GrantOrigin.mayBorrow {filled : String → ℤ} {g : Grant F}
    (h : GrantOrigin definition demands filled g) : MayBorrow 1 g.borrower :=
  ⟨h.can_borrow, h.below_max⟩

omit [FloatOps F] in
/-- A borrower that needs two tokens when it is served has room for two. -/
theorem GrantOrigin.mayBorrow_two {ar : Arith} {filled : String → ℤ} {g : Grant F}
    (hvalid : ValidDefinition definition) (hmax : ∀ m ∈ definition.modules, ar.Fits m.maxTokens)
    (h : GrantOrigin definition demands filled g)
    (hroom : 2 ≤ ar.sub (min (demands g.borrower.moduleId) g.borrower.maxTokens)
      (filled g.borrower.moduleId)) : MayBorrow 2 g.borrower := by
  have hfits := hmax _ h.borrower_mem
  have htarget := (hvalid.valid _ h.borrower_mem).target_nonneg
  have hbelow := h.below_max
  have hmore := h.demands_more
  rw [h.filled_eq, Arith.sub_of_fits (hfits.ofNonneg (by omega) (by omega))] at hroom
  exact ⟨h.can_borrow, by omega⟩

omit [FloatOps F] in
/-- A lender does not borrow. -/
theorem GrantOrigin.lender_ne {filled : String → ℤ} {g g' : Grant F}
    (hvalid : ValidDefinition definition) (h : GrantOrigin definition demands filled g)
      (h' : GrantOrigin definition demands filled g')
    {id : String} (hid : g.donor = .module id) : id ≠ g'.borrower.moduleId := by
  rintro rfl
  obtain ⟨m, hm, heq, -, hlt⟩ := h.lender _ hid
  obtain rfl := eq_of_moduleId_eq hvalid.ids_nodup hm h'.borrower_mem heq
  have := h'.demands_more
  omega

theorem Served.grantOrigin
    (hdemands : ∀ m ∈ definition.modules, 0 ≤ demands m.moduleId) {filled : String → ℤ}
    {waiting : List (ModuleDefinition F)} {donors : List (String × ℤ)}
    (h : Served ar borrowsBefore demands filled (donorsOf ar definition filled)
      (borrowersOf definition demands filled) waiting donors b)
    (hfilled : b.grants = [] ∨ ∀ m ∈ definition.modules,
      filled m.moduleId = min m.targetTokens (demands m.moduleId)) {g : Grant F}
    (hg : g ∈ b.grants) : GrantOrigin definition demands filled g := by
  have hfull := hfilled.resolve_left (List.ne_nil_of_mem hg)
  obtain ⟨hborrower, hdonor⟩ := h.origin g hg
  obtain ⟨hm, hcan, hdemand, hbelow⟩ := mem_borrowersOf.1 hborrower
  have hborrowerFull := hfull _ hm
  refine ⟨hm, hcan, hdemand, by omega, by omega, fun id hid => ?_⟩
  obtain ⟨d, hd, rfl, -⟩ := hdonor id hid
  obtain ⟨m, hm, hlend, heq, hpos⟩ := mem_donorsOf.1 hd
  have hmFull := hfull m hm
  have hdemandNonneg := hdemands m hm
  -- a module that asks for its target or more is filled up to it, and offers nothing
  have hlt : demands m.moduleId < m.targetTokens := by
    by_contra hge
    have hnothing : ar.sub m.targetTokens (filled m.moduleId) = 0 := by
      rw [hmFull, min_eq_left (not_lt.1 hge), Arith.sub, sub_self]
      exact Arith.norm_of_fits (Arith.fits_zero ar)
    rw [heq] at hpos
    simp only [hnothing] at hpos
    omega
  exact ⟨m, hm, (congrArg Prod.fst heq).symm, ⟨hlend, by omega⟩, hlt⟩

/-- Without a clash the leases of an allocation have distinct ids. -/
theorem leaseIds_nodup (hvalid : ValidDefinition definition)
    (hmax : ∀ m ∈ definition.modules, ar.Fits m.maxTokens)
    (hweights : WeightsCompare definition.modules)
    (hdemands : ∀ m ∈ definition.modules, 0 ≤ demands m.moduleId)
    (h : allocateLedger ar definition demands inputBudget = .ok b)
    (hclash : ¬ LeaseIdClash definition) (layoutHash : String) :
    ((b.grants.map (lease layoutHash)).map Lease.leaseId).Nodup := by
  obtain ⟨filled, donors, hfilled, hserved⟩ := exists_served hvalid hmax hweights hdemands h
  have horigin : ∀ g ∈ b.grants, GrantOrigin definition demands filled g :=
    fun g hg => hserved.grantOrigin hdemands hfilled hg
  rw [List.map_map]
  refine List.pairwise_map.2 (hserved.ordered.imp_of_mem fun {g g'} hg hg' hprecedes heq => ?_)
  have hkey := leaseKey_of_leaseId heq
  have ho := horigin g hg
  have ho' := horigin g' hg'
  rcases hprecedes with ⟨hsame, hroom, id, hid, hlater⟩ | ⟨hbefore, hne, hleaves⟩
  · -- one borrower: its donors are distinct modules, or the second one is the slack
    rw [hsame] at hkey
    have hname := leaseKey_donor hkey
    obtain ⟨m, hm, hmid, hlend, -⟩ := ho.lender id hid
    cases hid' : g'.donor with
    | module id' =>
        rw [hid, hid'] at hname
        exact absurd hname (hlater id' hid').ne
    | arenaSlack =>
        rw [hid, hid'] at hname
        refine hclash (Or.inr (Or.inr ⟨m, hm, g.borrower, ho.borrower_mem, hlend,
          ho.mayBorrow_two hvalid hmax hroom, ?_, hmid.trans hname⟩))
        rw [hmid]
        exact ho.lender_ne hvalid ho hid
  · cases hid : g.donor with
    | arenaSlack =>
        cases hid' : g'.donor with
        | arenaSlack =>
            rw [hid, hid'] at hkey
            exact hne (leaseKey_borrower hkey)
        | module id' =>
            -- after the slack only the borrower itself may have something left
            have hleft := hleaves id' hid'
            simp only [Grant.Leaves, hid, false_or] at hleft
            exact ho'.lender_ne hvalid ho hid' hleft
    | module id =>
        obtain ⟨m, hm, rfl, hlend, -⟩ := ho.lender id hid
        have hnot : m.moduleId ∉ [g.borrower.moduleId, g'.borrower.moduleId] := by
          simp only [List.mem_cons, List.not_mem_nil, or_false, not_or]
          exact ⟨ho.lender_ne hvalid ho hid, ho.lender_ne hvalid ho' hid⟩
        cases hid' : g'.donor with
        | arenaSlack =>
            rw [hid, hid'] at hkey
            exact hclash (Or.inr (Or.inl ⟨m, hm, g.borrower, ho.borrower_mem, g'.borrower,
              ho'.borrower_mem, hlend, ho.mayBorrow, ho'.mayBorrow, hbefore, hne, hnot, hkey⟩))
        | module id' =>
            obtain ⟨m', hm', rfl, hlend', -⟩ := ho'.lender id' hid'
            have hnot' : m'.moduleId ∉ [g.borrower.moduleId, g'.borrower.moduleId] := by
              simp only [List.mem_cons, List.not_mem_nil, or_false, not_or]
              exact ⟨ho'.lender_ne hvalid ho hid', ho'.lender_ne hvalid ho' hid'⟩
            rw [hid, hid'] at hkey
            have hle := hleaves m'.moduleId hid'
            simp only [Grant.Leaves, hid] at hle
            have hlt : m.moduleId < m'.moduleId := by
              refine lt_of_le_of_ne (hle.resolve_right ?_) fun heq => ?_
              · exact ho'.lender_ne hvalid ho hid'
              · rw [heq] at hkey
                exact hne (leaseKey_borrower hkey)
            exact hclash (Or.inl ⟨m, hm, m', hm', g.borrower, ho.borrower_mem, g'.borrower,
              ho'.borrower_mem, hlend, hlend', ho.mayBorrow, ho'.mayBorrow, hlt, hbefore, hnot,
              hnot', hkey⟩)

end Allocated

end ContextLease
