/-
Definitions whose ledger breaks.

If two leases of one plan can have one id, there are demands that bring them about: the lenders ask
for one token less than their targets, and the borrowers for more than theirs.  A first request with
these demands grants both leases, a second one without demands ends them, and the table of the
active leases has only one of them to reclaim.

Main definitions:

* `wantedTokens` — the demands that make some modules lend and others borrow;
* `demandRequest` — a request with given demands.

Main results:

* `exists_twoLeases` — demands that bring about two leases with one id;
* `not_ledgerKept_of_clash` — two requests after which the events do not add up;
* `ledgerKept_iff` — the ledger is kept exactly when no two leases of a plan can have one id;
* `colon_unkept` — an arena whose module names contain colons.
-/

import ContextLease.LeaseLedger
import ContextLease.TokenAccounting

set_option relaxedAutoImplicit false
set_option autoImplicit false

namespace ContextLease

open MachineNumbers RustText

variable {F : Type} [FloatOps F]

/-! ### Demands that make modules lend and borrow -/

section Demands

variable {definition : ArenaDefinition F} {lenders borrowers : List (ModuleDefinition F)}
  {room : ℤ}

omit [FloatOps F] in
/-- What a module keeps if the lenders leave one token of their targets unused. -/
def keptTokens (lenders : List (ModuleDefinition F)) (m : ModuleDefinition F) : ℤ :=
  m.targetTokens - if m.moduleId ∈ lenders.map ModuleDefinition.moduleId then 1 else 0

/-- What a module asks for if the lenders leave one token of their targets unused, and the borrowers
ask for `room` tokens more than theirs. -/
def wantedTokens (lenders borrowers : List (ModuleDefinition F)) (room : ℤ)
    (m : ModuleDefinition F) : ℤ :=
  keptTokens lenders m + if m.moduleId ∈ borrowers.map ModuleDefinition.moduleId then room else 0

/-- Modules that can lend and borrow in one plan, in the order in which they do. -/
structure LendingSetting (definition : ArenaDefinition F)
    (lenders borrowers : List (ModuleDefinition F)) (room : ℤ) : Prop where
  room_pos : 0 < room
  lenders_le : lenders.length ≤ 2
  lenders_mem : ∀ m ∈ lenders, m ∈ definition.modules ∧ MayLend m
  borrowers_mem : ∀ m ∈ borrowers, m ∈ definition.modules ∧ MayBorrow room m
  lenders_sorted : lenders.Pairwise fun m m' => m.moduleId < m'.moduleId
  borrowers_sorted : borrowers.Pairwise borrowsBefore
  borrowers_nodup : (borrowers.map ModuleDefinition.moduleId).Nodup
  disjoint : ∀ m ∈ lenders, ∀ m' ∈ borrowers, m.moduleId ≠ m'.moduleId

theorem LendingSetting.borrowers_ne {b b' : ModuleDefinition F}
    (h : LendingSetting definition lenders [b, b'] room) : b'.moduleId ≠ b.moduleId := by
  have hnodup := h.borrowers_nodup
  rw [List.map_cons, List.map_singleton, List.nodup_cons, List.mem_singleton] at hnodup
  exact Ne.symm hnodup.1

variable (hvalid : ValidDefinition definition)
  (h : LendingSetting definition lenders borrowers room)

include hvalid h

/-- A module of the definition is a lender when its id is one's. -/
theorem LendingSetting.mem_lenders {m : ModuleDefinition F} (hm : m ∈ definition.modules) :
    m.moduleId ∈ lenders.map ModuleDefinition.moduleId ↔ m ∈ lenders := by
  constructor
  · intro hid
    obtain ⟨m', hm', heq⟩ := List.mem_map.1 hid
    exact eq_of_moduleId_eq hvalid.ids_nodup (h.lenders_mem m' hm').1 hm heq ▸ hm'
  · exact fun hm => List.mem_map_of_mem hm

theorem LendingSetting.mem_borrowers {m : ModuleDefinition F} (hm : m ∈ definition.modules) :
    m.moduleId ∈ borrowers.map ModuleDefinition.moduleId ↔ m ∈ borrowers := by
  constructor
  · intro hid
    obtain ⟨m', hm', heq⟩ := List.mem_map.1 hid
    exact eq_of_moduleId_eq hvalid.ids_nodup (h.borrowers_mem m' hm').1 hm heq ▸ hm'
  · exact fun hm => List.mem_map_of_mem hm

/-- What the modules keep and ask for. -/
theorem LendingSetting.kept_wanted {m : ModuleDefinition F} (hm : m ∈ definition.modules) :
    (m ∈ lenders ∧ keptTokens lenders m = m.targetTokens - 1 ∧
      wantedTokens lenders borrowers room m = m.targetTokens - 1 ∧ 0 < m.targetTokens) ∨
    (m ∉ lenders ∧ m ∈ borrowers ∧ keptTokens lenders m = m.targetTokens ∧
      wantedTokens lenders borrowers room m = m.targetTokens + room) ∨
    (m ∉ lenders ∧ m ∉ borrowers ∧ keptTokens lenders m = m.targetTokens ∧
      wantedTokens lenders borrowers room m = m.targetTokens) := by
  rw [wantedTokens, keptTokens]
  by_cases hl : m.moduleId ∈ lenders.map ModuleDefinition.moduleId
  · have hlender := (h.mem_lenders hvalid hm).1 hl
    have hb : m.moduleId ∉ borrowers.map ModuleDefinition.moduleId := fun hb =>
      h.disjoint m hlender m ((h.mem_borrowers hvalid hm).1 hb) rfl
    rw [if_pos hl, if_neg hb, add_zero]
    exact Or.inl ⟨hlender, rfl, rfl, (h.lenders_mem m hlender).2.2⟩
  · rw [if_neg hl, sub_zero]
    rw [h.mem_lenders hvalid hm] at hl
    by_cases hb : m.moduleId ∈ borrowers.map ModuleDefinition.moduleId
    · rw [if_pos hb]
      exact Or.inr (Or.inl ⟨hl, (h.mem_borrowers hvalid hm).1 hb, rfl, rfl⟩)
    · rw [if_neg hb, add_zero]
      rw [h.mem_borrowers hvalid hm] at hb
      exact Or.inr (Or.inr ⟨hl, hb, rfl, rfl⟩)

theorem LendingSetting.wanted_nonneg :
    ∀ m ∈ definition.modules, 0 ≤ wantedTokens lenders borrowers room m := by
  intro m hm
  have htarget := (hvalid.valid m hm).target_nonneg
  have hroom := h.room_pos
  rcases h.kept_wanted hvalid hm with ⟨-, -, hw, hpos⟩ | ⟨-, -, -, hw⟩ | ⟨-, -, -, hw⟩ <;> omega

/-- Two tokens more than the modules keep cover the floors. -/
theorem LendingSetting.floors_le :
    (definition.modules.map ModuleDefinition.floorTokens).sum ≤
      Ledger.total (definition.modules.map ModuleDefinition.moduleId)
        (perModule definition (keptTokens lenders) 0) + 2 := by
  have hcount : (definition.modules.map ModuleDefinition.moduleId).countP
      (fun id => id ∈ lenders.map ModuleDefinition.moduleId) ≤ 2 := by
    refine le_trans ?_ ((List.length_map (f := ModuleDefinition.moduleId)).trans_le h.lenders_le)
    rw [List.countP_eq_length_filter]
    exact (List.subperm_of_subset (hvalid.ids_nodup.filter _) fun id hid =>
      of_decide_eq_true (List.mem_filter.1 hid).2).length_le
  have hkept : ∀ ms : List (ModuleDefinition F), (ms.map ModuleDefinition.targetTokens).sum =
      (ms.map (keptTokens lenders)).sum + ((ms.map ModuleDefinition.moduleId).countP
        (fun id => id ∈ lenders.map ModuleDefinition.moduleId) : ℕ) := by
    intro ms
    induction ms with
    | nil => rfl
    | cons m ms ih =>
        rw [List.map_cons, List.sum_cons, ih, List.map_cons, List.sum_cons, List.map_cons,
          List.countP_cons, keptTokens]
        simp only [decide_eq_true_eq]
        split
        · push_cast
          omega
        · push_cast
          omega
  have htotal : Ledger.total (definition.modules.map ModuleDefinition.moduleId)
      (perModule definition (keptTokens lenders) 0) =
        (definition.modules.map (keptTokens lenders)).sum := by
    rw [Ledger.total, List.map_map]
    exact congrArg List.sum (List.map_congr_left fun m hm =>
      perModule_apply hvalid.ids_nodup _ _ hm)
  have hfloors : (definition.modules.map ModuleDefinition.floorTokens).sum ≤
      (definition.modules.map ModuleDefinition.targetTokens).sum :=
    List.sum_le_sum fun m hm => (hvalid.valid m hm).floor_le_target
  have := hkept definition.modules
  omega

variable {demands : String → ℤ}
  (hdemands : ∀ m ∈ definition.modules, demands m.moduleId = wantedTokens lenders borrowers room m)

include hdemands

/-- With two tokens more than the modules keep, the rounds fill every module up to what it keeps. -/
theorem LendingSetting.exists_filled :
    ∃ inputBudget filled, 0 < inputBudget ∧
      validateModelBudget .exact definition inputBudget = .ok () ∧
      allocateLedger .exact definition demands inputBudget =
        .ok (borrowAfter .exact definition demands filled) ∧
      (∀ m ∈ definition.modules, filled.1 m.moduleId = keptTokens lenders m) ∧ filled.2 = 2 := by
  have hnonneg : ∀ m ∈ definition.modules, 0 ≤ demands m.moduleId := by
    intro m hm
    rw [hdemands m hm]
    exact h.wanted_nonneg hvalid m hm
  have hcaps : ∀ m ∈ definition.modules, min m.targetTokens (demands m.moduleId) =
      perModule definition (keptTokens lenders) 0 m.moduleId := by
    intro m hm
    have hroom := h.room_pos
    rw [perModule_apply hvalid.ids_nodup _ _ hm, hdemands m hm]
    rcases h.kept_wanted hvalid hm with ⟨-, hk, hw, -⟩ | ⟨-, -, hk, hw⟩ | ⟨-, -, hk, hw⟩ <;> omega
  obtain ⟨hbudget, filled, hledger, hfilled, hleft⟩ :=
    allocationRun_of_surplus hvalid hnonneg hcaps two_pos (h.floors_le hvalid)
  refine ⟨_, filled, ?_, hbudget, hledger, fun m hm => ?_, hleft⟩
  · have hpositive := (validateModelBudget_eq_ok.1 hbudget).1
    have hreserve := hvalid.reserve_nonneg
    rw [Arith.sub_exact] at hpositive
    omega
  · rw [hfilled m hm, perModule_apply hvalid.ids_nodup _ _ hm]

omit hdemands in
/-- The lenders are the donors, with one token each. -/
theorem LendingSetting.donors_eq {filled : String → ℤ}
    (hfilled : ∀ m ∈ definition.modules, filled m.moduleId = keptTokens lenders m) :
    donorsOf .exact definition filled = lenders.map fun m => (m.moduleId, 1) := by
  have hsorted := @donorsOf_sorted F .exact definition hvalid.ids_nodup filled
  have hsorted' : (lenders.map fun m => (m.moduleId, (1 : ℤ))).Pairwise fun d d' => d.1 < d'.1 :=
    List.pairwise_map.2 h.lenders_sorted
  have hnodup : ∀ {l : List (String × ℤ)}, l.Pairwise (fun d d' => d.1 < d'.1) → l.Nodup :=
    fun hl => hl.imp fun hlt heq => absurd (congrArg Prod.fst heq) hlt.ne
  refine List.Perm.eq_of_pairwise (fun d d' _ _ hlt hlt' => absurd hlt' hlt.asymm) hsorted hsorted'
    ((List.perm_ext_iff_of_nodup (hnodup hsorted) (hnodup hsorted')).2 fun d => ?_)
  rw [mem_donorsOf, List.mem_map]
  constructor
  · rintro ⟨m, hm, -, rfl, hpos⟩
    simp only [Arith.sub_exact, hfilled m hm] at hpos ⊢
    rcases h.kept_wanted hvalid hm with ⟨hl, hk, -, -⟩ | ⟨-, -, hk, -⟩ | ⟨-, -, hk, -⟩
    · exact ⟨m, hl, by rw [hk]; congr 1; omega⟩
    · omega
    · omega
  · rintro ⟨m, hl, rfl⟩
    obtain ⟨hm, hlend, -⟩ := h.lenders_mem m hl
    refine ⟨m, hm, hlend, ?_, one_pos⟩
    have hk := (h.kept_wanted hvalid hm).resolve_right (by
      rintro (⟨hnot, -⟩ | ⟨hnot, -⟩) <;> exact hnot hl)
    rw [Arith.sub_exact, hfilled m hm, hk.2.1]
    congr 1
    omega

/-- The borrowers are served in their order. -/
theorem LendingSetting.borrowers_eq (hweights : WeightsCompare definition.modules)
    {filled : String → ℤ}
    (hfilled : ∀ m ∈ definition.modules, filled m.moduleId = keptTokens lenders m) :
    borrowersOf definition demands filled = borrowers := by
  have hnodup : (borrowersOf definition demands filled).Nodup :=
    List.Nodup.of_map _ (borrowersOf_nodup hvalid.ids_nodup _ _)
  have hmem : ∀ m, m ∈ borrowersOf definition demands filled ↔ m ∈ borrowers := by
    intro m
    rw [mem_borrowersOf]
    constructor
    · rintro ⟨hm, -, hlt, -⟩
      rw [hdemands m hm] at hlt
      rcases h.kept_wanted hvalid hm with ⟨-, -, hw, -⟩ | ⟨-, hb, -⟩ | ⟨-, -, -, hw⟩
      · omega
      · exact hb
      · omega
    · intro hb
      obtain ⟨hm, hborrow, hmax⟩ := h.borrowers_mem m hb
      have hroom := h.room_pos
      rw [hdemands m hm, hfilled m hm]
      rcases h.kept_wanted hvalid hm with ⟨hl, -⟩ | ⟨-, -, hk, hw⟩ | ⟨-, hnot, -⟩
      · exact absurd rfl (h.disjoint m hl m hb)
      · exact ⟨hm, hborrow, by omega, by omega⟩
      · exact absurd hb hnot
  refine List.Perm.eq_of_pairwise (fun m m' hm hm' hle hle' => ?_)
    (hweights.sorted fun m hm => (List.mem_filter.1 hm).1) h.borrowers_sorted
    ((List.perm_ext_iff_of_nodup hnodup (List.Nodup.of_map _ h.borrowers_nodup)).2 hmem)
  have hm := (h.borrowers_mem m ((hmem m).1 hm)).1
  have hm' := (h.borrowers_mem m' hm').1
  exact eq_of_moduleId_eq hvalid.ids_nodup hm hm'
    (hweights.borrowsBefore_antisymm hm hm' hle hle')

/-- A borrower needs `room` tokens when it is served. -/
theorem LendingSetting.need_eq {filled : String → ℤ}
    (hfilled : ∀ m ∈ definition.modules, filled m.moduleId = keptTokens lenders m)
    {b : ModuleDefinition F} (hb : b ∈ borrowers) :
    min (demands b.moduleId) b.maxTokens - filled b.moduleId = room := by
  obtain ⟨hm, -, hmax⟩ := h.borrowers_mem b hb
  have hroom := h.room_pos
  rw [hdemands b hm, hfilled b hm]
  rcases h.kept_wanted hvalid hm with ⟨hl, -⟩ | ⟨-, -, hk, hw⟩ | ⟨-, hnot, -⟩
  · exact absurd rfl (h.disjoint b hl b hb)
  · omega
  · exact absurd hb hnot

end Demands

/-! ### Single steps of the borrowing phase -/

section Steps

omit [FloatOps F]

variable {borrower : ModuleDefinition F} {demands : String → ℤ} {b : Borrowing F}

/-- Without a need the donors are passed by. -/
theorem borrowFromDonors_of_satisfied (visited donors : List (String × ℤ)) {need : ℤ}
    (h : need ≤ 0) :
    borrowFromDonors .exact borrower visited donors need b = (visited ++ donors, need, b) := by
  cases donors with
  | nil => rw [borrowFromDonors, List.append_nil]
  | cons d donors => rw [borrowFromDonors, if_pos (Or.inl h)]

/-- The donors that were passed stay in front. -/
theorem borrowFromDonors_visited (visited donors : List (String × ℤ)) (need : ℤ)
    (b : Borrowing F) : borrowFromDonors .exact borrower visited donors need b =
      (visited ++ (borrowFromDonors .exact borrower [] donors need b).1,
        (borrowFromDonors .exact borrower [] donors need b).2) := by
  induction donors generalizing visited need b with
  | nil => simp only [borrowFromDonors, List.append_nil]
  | cons d donors ih =>
      simp only [borrowFromDonors, List.nil_append]
      split
      · rfl
      · split
        · rw [ih, ih [d]]
          simp only [List.append_assoc]
        · rw [ih, ih [_]]
          simp only [List.append_assoc]

/-- A donor without tokens is skipped. -/
theorem borrowFor_skip (id : String) (donors : List (String × ℤ)) :
    borrowFor .exact borrower demands ((id, 0) :: donors) b =
      ((id, 0) :: (borrowFor .exact borrower demands donors b).1,
        (borrowFor .exact borrower demands donors b).2) := by
  simp only [borrowFor, borrowFromDonors, le_refl, or_true, if_true]
  split
  · rename_i hdone
    cases donors with
    | nil => simp only [borrowFromDonors, List.nil_append]
    | cons d donors => simp only [borrowFromDonors, if_pos hdone, List.nil_append]
  · rw [borrowFromDonors_visited]
    rfl

/-- A donor that has all a borrower needs. -/
theorem borrowFor_donor {id : String} (donors : List (String × ℤ)) (hid : id ≠ borrower.moduleId)
    (hneed : min (demands borrower.moduleId) borrower.maxTokens - b.current borrower.moduleId = 1)
    (hremaining : 0 < b.remaining) :
    borrowFor .exact borrower demands ((id, 1) :: donors) b =
      ((id, 0) :: donors, b.take .exact borrower (.module id) 1) := by
  have hgrant : min (min (1 : ℤ) 1) b.remaining = 1 := by omega
  have hgoing : ¬ ((1 : ℤ) ≤ 0 ∨ b.remaining ≤ 0) := by omega
  have hlends : ¬ (id = borrower.moduleId ∨ (1 : ℤ) ≤ 0) := by
    rw [not_or]
    exact ⟨hid, by omega⟩
  simp only [borrowFor, borrowFromDonors, Arith.sub_exact, hneed, if_neg hgoing, if_neg hlends,
    hgrant, sub_self, borrowFromDonors_of_satisfied _ _ (le_refl 0)]
  rw [borrowFromSlack, if_neg (by omega)]
  rfl

/-- The slack has what a borrower needs. -/
theorem borrowFor_slack
    (hneed : min (demands borrower.moduleId) borrower.maxTokens - b.current borrower.moduleId = 1)
    (hslack : 0 < b.sharedSlack) (hremaining : 0 < b.remaining) :
    borrowFor .exact borrower demands [] b = ([], b.take .exact borrower .arenaSlack 1) := by
  have hgrant : min (min (1 : ℤ) b.sharedSlack) b.remaining = 1 := by omega
  simp only [borrowFor, borrowFromDonors, Arith.sub_exact, hneed]
  rw [borrowFromSlack, if_pos ⟨one_pos, hslack, hremaining⟩, hgrant]

end Steps

/-! ### Two leases with one id -/

section TwoLeases

variable {definition : ArenaDefinition F} {demands : String → ℤ} {filled : (String → ℤ) × ℤ}
  (hvalid : ValidDefinition definition) (hweights : WeightsCompare definition.modules)
  {d d' b b' : ModuleDefinition F} (hleft : filled.2 = 2)

include hvalid hweights hleft

/-- Two lenders serve two borrowers. -/
theorem grants_of_donors (h : LendingSetting definition [d, d'] [b, b'] 1)
    (hdemands : ∀ m ∈ definition.modules, demands m.moduleId = wantedTokens [d, d'] [b, b'] 1 m)
    (hfilled : ∀ m ∈ definition.modules, filled.1 m.moduleId = keptTokens [d, d'] m) :
    (borrowAfter .exact definition demands filled).grants =
      [⟨.module d.moduleId, b, 1⟩, ⟨.module d'.moduleId, b', 1⟩] := by
  have hneed := h.need_eq hvalid hdemands hfilled (List.mem_cons_self ..)
  have hneed' := h.need_eq hvalid hdemands hfilled
    (List.mem_cons_of_mem b (List.mem_singleton.2 rfl))
  have hne := h.borrowers_ne
  have hdb : d.moduleId ≠ b.moduleId := h.disjoint d (by simp) b (by simp)
  have hdb' : d'.moduleId ≠ b'.moduleId := h.disjoint d' (by simp) b' (by simp)
  rw [borrowAfter, h.donors_eq hvalid hfilled, h.borrowers_eq hvalid hdemands hweights hfilled]
  simp only [List.map_cons, List.map_nil, borrow]
  rw [borrowFor_donor _ hdb hneed (by simp only [borrowStart, hleft]; omega)]
  simp only
  rw [borrowFor_skip, borrowFor_donor _ hdb']
  · rfl
  · simp only [Borrowing.take, borrowStart, addTo, Function.update_of_ne hne]
    exact hneed'
  · simp only [Borrowing.take, borrowStart, hleft, Arith.sub_exact]
    omega

/-- A lender serves a borrower, and the slack a later one. -/
theorem grants_of_slack (h : LendingSetting definition [d] [b, b'] 1)
    (hdemands : ∀ m ∈ definition.modules, demands m.moduleId = wantedTokens [d] [b, b'] 1 m)
    (hfilled : ∀ m ∈ definition.modules, filled.1 m.moduleId = keptTokens [d] m) :
    (borrowAfter .exact definition demands filled).grants =
      [⟨.module d.moduleId, b, 1⟩, ⟨.arenaSlack, b', 1⟩] := by
  have hneed := h.need_eq hvalid hdemands hfilled (List.mem_cons_self ..)
  have hneed' := h.need_eq hvalid hdemands hfilled
    (List.mem_cons_of_mem b (List.mem_singleton.2 rfl))
  have hne := h.borrowers_ne
  have hdb : d.moduleId ≠ b.moduleId := h.disjoint d (by simp) b (by simp)
  have hslack : 0 < (borrowStart .exact definition filled).sharedSlack := by
    simp [borrowStart, h.donors_eq hvalid hfilled, hleft]
  rw [borrowAfter, h.donors_eq hvalid hfilled, h.borrowers_eq hvalid hdemands hweights hfilled]
  simp only [List.map_cons, List.map_nil, borrow]
  rw [borrowFor_donor _ hdb hneed (by simp only [borrowStart, hleft]; omega)]
  simp only
  rw [borrowFor_skip, borrowFor_slack]
  · rfl
  · simp only [Borrowing.take, borrowStart, addTo, Function.update_of_ne hne]
    exact hneed'
  · exact hslack
  · simp only [Borrowing.take, borrowStart, hleft, Arith.sub_exact]
    omega

/-- A lender and the slack serve one borrower. -/
theorem grants_of_name (h : LendingSetting definition [d] [b] 2)
    (hdemands : ∀ m ∈ definition.modules, demands m.moduleId = wantedTokens [d] [b] 2 m)
    (hfilled : ∀ m ∈ definition.modules, filled.1 m.moduleId = keptTokens [d] m) :
    (borrowAfter .exact definition demands filled).grants =
      [⟨.module d.moduleId, b, 1⟩, ⟨.arenaSlack, b, 1⟩] := by
  have hneed := h.need_eq hvalid hdemands hfilled (List.mem_cons_self ..)
  have hdb : d.moduleId ≠ b.moduleId := h.disjoint d (by simp) b (by simp)
  rw [borrowAfter, borrowStart, h.donors_eq hvalid hfilled,
    h.borrowers_eq hvalid hdemands hweights hfilled]
  simp only [List.map_cons, List.map_nil, borrow, borrowFor, borrowFromDonors, Arith.sub_exact,
    hneed, hleft, hdb, false_or]
  simp [borrowFromSlack, Borrowing.take]

omit hvalid hweights hleft in
/-- Some demands bring about two leases with one id. -/
theorem exists_twoLeases (hvalid : ValidDefinition definition)
    (hweights : WeightsCompare definition.modules) (hclash : LeaseIdClash definition) :
    ∃ (wanted : ModuleDefinition F → ℤ) (g g' : Grant F), g.tokens = 1 ∧ g'.tokens = 1 ∧
      leaseKey g.donor.name g.borrower.moduleId =
        leaseKey g'.donor.name g'.borrower.moduleId ∧
      (∀ m ∈ definition.modules, 0 ≤ wanted m) ∧
      ∀ demands : String → ℤ, (∀ m ∈ definition.modules, demands m.moduleId = wanted m) →
        ∃ inputBudget b, 0 < inputBudget ∧
          validateModelBudget .exact definition inputBudget = .ok () ∧
          allocateLedger .exact definition demands inputBudget = .ok b ∧ b.grants = [g, g'] := by
  rcases hclash with ⟨d, hd, d', hd', b, hb, b', hb', hlend, hlend', hborrow, hborrow', hlt,
    hbefore, hnot, hnot', hkey⟩ | ⟨d, hd, b, hb, b', hb', hlend, hborrow, hborrow', hbefore, hne,
    hnot, hkey⟩ | ⟨d, hd, b, hb, hlend, hborrow, hne, hname⟩
  · have hne : b.moduleId ≠ b'.moduleId := by
      intro heq
      rw [heq] at hkey
      exact hlt.ne (leaseKey_donor hkey)
    have h : LendingSetting definition [d, d'] [b, b'] 1 := by
      simp only [List.mem_cons, List.not_mem_nil, or_false, not_or] at hnot hnot'
      exact ⟨one_pos, le_refl 2, by simp [hd, hd', hlend, hlend'], by simp [hb, hb', hborrow,
        hborrow'], List.pairwise_pair.2 hlt, by simp [hbefore], by simp [hne],
          by simp [hnot, hnot']⟩
    refine ⟨wantedTokens [d, d'] [b, b'] 1, ⟨.module d.moduleId, b, 1⟩,
      ⟨.module d'.moduleId, b', 1⟩, rfl, rfl, hkey, h.wanted_nonneg hvalid, fun demands hdemands =>
        ?_⟩
    obtain ⟨inputBudget, filled, hpos, hbudget, hledger, hfilled, hleft⟩ :=
      h.exists_filled hvalid hdemands
    exact ⟨inputBudget, _, hpos, hbudget, hledger,
      grants_of_donors hvalid hweights hleft h hdemands hfilled⟩
  · have h : LendingSetting definition [d] [b, b'] 1 := by
      simp only [List.mem_cons, List.not_mem_nil, or_false, not_or] at hnot
      exact ⟨one_pos, one_le_two, by simp [hd, hlend], by simp [hb, hb', hborrow, hborrow'],
        by simp, by simp [hbefore], by simp [hne], by simp [hnot]⟩
    refine ⟨wantedTokens [d] [b, b'] 1, ⟨.module d.moduleId, b, 1⟩, ⟨.arenaSlack, b', 1⟩, rfl, rfl,
      hkey, h.wanted_nonneg hvalid, fun demands hdemands => ?_⟩
    obtain ⟨inputBudget, filled, hpos, hbudget, hledger, hfilled, hleft⟩ :=
      h.exists_filled hvalid hdemands
    exact ⟨inputBudget, _, hpos, hbudget, hledger,
      grants_of_slack hvalid hweights hleft h hdemands hfilled⟩
  · have h : LendingSetting definition [d] [b] 2 :=
      ⟨two_pos, one_le_two, by simp [hd, hlend], by simp [hb, hborrow], by simp, by simp, by simp,
        by simp [hne]⟩
    refine ⟨wantedTokens [d] [b] 2, ⟨.module d.moduleId, b, 1⟩, ⟨.arenaSlack, b, 1⟩, rfl, rfl,
      congrArg (leaseKey · b.moduleId) hname, h.wanted_nonneg hvalid, fun demands hdemands => ?_⟩
    obtain ⟨inputBudget, filled, hpos, hbudget, hledger, hfilled, hleft⟩ :=
      h.exists_filled hvalid hdemands
    exact ⟨inputBudget, _, hpos, hbudget, hledger,
      grants_of_name hvalid hweights hleft h hdemands hfilled⟩

end TwoLeases

/-! ### Requests with given demands -/

section Requests

/-- Contributions without text that demand given tokens. -/
def demandContributions (definition : ArenaDefinition F) (wanted : ModuleDefinition F → ℤ) :
    List (ModuleContribution F) :=
  definition.modules.map fun m => probeContribution m (wanted m) []

/-- A counter to which every text is free. -/
def freeCounter : TokenCounter := fun _ => 0

/-- The contributions are accepted, and demand what they say. -/
theorem exists_demanded {definition : ArenaDefinition F} (hvalid : ValidDefinition definition)
    {wanted : ModuleDefinition F → ℤ} (hwanted : ∀ m ∈ definition.modules, 0 ≤ wanted m) :
    ∃ contributions, validateContributions definition (demandContributions definition wanted) =
        .ok contributions ∧
      (∀ m ∈ definition.modules, chunksOf contributions m = [probeChunk []]) ∧
      ∀ (P : Platform) (counts : CountContext F), ∀ m ∈ definition.modules,
        (demandsOf P counts contributions definition).val m.moduleId = wanted m := by
  obtain ⟨contributions, hcontributions⟩ := @validateContributions_of_valid F definition
    (demandContributions definition wanted) (fun c hc => by
      obtain ⟨m, hm, rfl⟩ := List.mem_map.1 hc
      exact List.mem_map_of_mem hm) (fun c hc => by
      obtain ⟨m, hm, rfl⟩ := List.mem_map.1 hc
      rintro tokens ⟨⟩
      exact hwanted m hm) (fun c hc => by
      obtain ⟨m, hm, rfl⟩ := List.mem_map.1 hc
      have hid : isBlank "probe" = false := by decide
      have hkind : isBlank "text" = false := by decide
      simp [validateChunks, probeContribution, probeChunk, validateChoice, rejectIf, hid, hkind])
    (by
      rw [demandContributions, List.map_map]
      exact hvalid.ids_nodup)
  have hgiven : ∀ m ∈ definition.modules,
      contributions m.moduleId = some (probeContribution m (wanted m) []) := fun m hm =>
    ((validateContributions_ok hcontributions).2 _ _).2 ⟨List.mem_map_of_mem hm, rfl⟩
  refine ⟨contributions, hcontributions, fun m hm => ?_, fun P counts m hm => ?_⟩
  · rw [chunksOf, hgiven m hm]
    rfl
  · rw [demandsOf_apply P counts contributions hvalid hm]
    simp [moduleDemand, hgiven m hm, probeContribution, hwanted m hm]

/-- Counting for free. -/
def freeCounts (F : Type) [FloatOps F] : CountContext F :=
  ⟨"regex-estimator-v1", some freeCounter, FloatOps.ofRat 1⟩

theorem freeCounts_countText (P : Platform) (text : String) :
    ((freeCounts F).countText P text).val = 0 := by
  simp [CountContext.countText, CountContext.raw, freeCounts, freeCounter]

theorem freeCounts_countChunks (lib : Library) (required : List String) :
    ((freeCounts F).countChunks lib.exact [probeChunk required]).val = 0 := by
  rw [CountContext.val_countChunks, Arith.sum_exact]
  simp [probeChunk, CountContext.countContent, freeCounts_countText]

/-- Nobody is allocated less than nothing. -/
theorem current_nonneg {definition : ArenaDefinition F} (hvalid : ValidDefinition definition)
    {demands : String → ℤ} (hdemands : ∀ m ∈ definition.modules, 0 ≤ demands m.moduleId)
    {inputBudget : ℤ} (hbudget : validateModelBudget .exact definition inputBudget = .ok ())
    {b : Borrowing F} (h : allocateLedger .exact definition demands inputBudget = .ok b)
    {m : ModuleDefinition F} (hm : m ∈ definition.modules) : 0 ≤ b.current m.moduleId := by
  have hfloors := (validateModelBudget_eq_ok.1 hbudget).2
  rw [Arith.sub_exact, Arith.sum_exact] at hfloors
  obtain ⟨filled, hledger, hrun⟩ := allocationRun hvalid (fun _ _ => Arith.fits_exact _) hdemands
    (Arith.fits_exact _) hfloors
  obtain rfl := Except.ok.inj (h.symm.trans hledger)
  obtain ⟨donors, hinv⟩ := hrun.inv
  exact hinv.current_nonneg hrun.setting hm

/-- A request without text succeeds, with the leases of an allocation for its demands. -/
theorem exists_leased (lib : Library) {arena : ContextLeaseArena F}
    {wanted : ModuleDefinition F → ℤ} (hwanted : ∀ m ∈ arena.definition.modules, 0 ≤ wanted m)
    {granted : List Lease → Prop}
    (hallocated : ∀ demands : String → ℤ,
      (∀ m ∈ arena.definition.modules, demands m.moduleId = wanted m) →
        ∃ inputBudget b, 0 < inputBudget ∧
          validateModelBudget .exact arena.definition inputBudget = .ok () ∧
          allocateLedger .exact arena.definition demands inputBudget = .ok b ∧
          granted (b.grants.map (lease arena.layoutHash)))
    {s : ArenaState F} (hs : ∀ key, s.calibrations key = none) :
    ∃ (call : Call F) (admission : Admission F) (settled : Settled F),
      call.decision lib.exact arena s = .ok (admission, settled) ∧ granted admission.leases ∧
        call.env = default ∧ call.results = [] ∧
        call.request.contributions = demandContributions arena.definition wanted ∧
        ∀ m ∈ arena.definition.modules,
          (admission.counts.countChunks lib.exact
            (chunksOf admission.contributions m)).val = 0 := by
  obtain ⟨contributions, hcontributions, hchunks, hdemands⟩ :=
    exists_demanded arena.validDefinition hwanted
  obtain ⟨inputBudget, b, hpositive, hbudget, hledger, hleases⟩ :=
    hallocated _ (hdemands lib.exact (freeCounts F))
  have hcurrent : ∀ m ∈ arena.definition.modules, 0 ≤ b.current m.moduleId := fun m hm =>
    current_nonneg arena.validDefinition (fun m hm => by
      rw [hdemands lib.exact (freeCounts F) m hm]
      exact hwanted m hm) hbudget hledger hm
  obtain ⟨contextLimit, a, ha, hcounts, hgiven, hgranted, hallocations⟩ :=
    admitted_probeRequest lib (by decide)
      (CountContext.scales_of_clamped (x := FloatOps.ofRat 1) FloatOps.max_one.symm)
      hcontributions hpositive hbudget hledger
  have hmultiplier : ∀ model : ModelProfile, safetyMultiplier s model = FloatOps.ofRat 1 := by
    intro model
    rw [safetyMultiplier, hs]
  have hcounts' : a.counts = freeCounts F := hcounts
  have hfree : ∀ m ∈ orderedModules arena.definition,
      (a.counts.countChunks lib.exact (chunksOf a.contributions m)).val = 0 := by
    intro m hm
    rw [hcounts', hgiven, hchunks m (mem_orderedModules.1 hm), freeCounts_countChunks]
  -- what the modules are given counts nothing, so every module keeps it
  have hpass : List.Forall₂ (fun m r => (reclaimModule lib.exact a.counts a.contributions
      a.allocations (semanticResultsOf []) m).outcome = .ok r) (orderedModules arena.definition)
      ((orderedModules arena.definition).map fun m => ⟨chunksOf a.contributions m, 0, 0⟩) := by
    rw [List.forall₂_map_right_iff, List.forall₂_same]
    intro m hm
    have hfits : (a.counts.countChunks lib.exact (chunksOf a.contributions m)).val ≤
        (allocationOf a.allocations m).allocatedTokens := by
      rw [hfree m hm, hallocations m (mem_orderedModules.1 hm)]
      exact hcurrent m (mem_orderedModules.1 hm)
    rw [reclaimModule_of_fits hfits, hfree m hm]
  have hbudget' := (validateModelBudget_eq_ok.1 ha.budget).1
  have hprompt : (a.counts.countText lib.exact (joinedText ((orderedModules arena.definition).map
      fun m => ⟨chunksOf a.contributions m, 0, 0⟩))).val ≤
        lib.exact.arith.sub a.inputBudget arena.definition.frameworkReserveTokens := by
    have hoverhead := ha.allocationInputBudget
    have hnonneg : 0 ≤ (renderSeparatorTokens lib.exact a.counts a.contributions
        arena.definition).val := by
      rw [renderSeparatorTokens]
      split
      · exact le_refl 0
      · rw [hcounts', freeCounts_countText]
    rw [hcounts', freeCounts_countText]
    simp only [Arith.sub_exact] at hoverhead hbudget' ⊢
    omega
  have hrequest := ha
  rw [← hmultiplier (probeRequest "regex-estimator-v1" contextLimit
    (demandContributions arena.definition wanted)).model] at hrequest
  obtain ⟨plan, s', hprepared, -⟩ := prepareWithResults_of_fits default hrequest
    (hcounts' ▸ CountContext.quiet_of_counter _ _ (fun _ => le_refl 0) _) hpass hprompt
  let call : Call F := ⟨default, probeRequest "regex-estimator-v1" contextLimit
    (demandContributions arena.definition wanted), [], some freeCounter⟩
  have hdecision := @prepareWithResults_eq F _ lib.exact arena call s
  rw [hprepared] at hdecision
  cases hcall : call.decision lib.exact arena s with
  | error e =>
      rw [hcall] at hdecision
      cases hdecision
  | ok decided =>
      obtain ⟨admission, settled⟩ := decided
      have hadmitted := admit_ok.2 (decision_ok _ _ hcall).1
      obtain rfl : admission = a := Except.ok.inj (hadmitted.symm.trans (admit_ok.2 hrequest))
      exact ⟨call, admission, settled, hcall, hgranted ▸ hleases, rfl, rfl, rfl,
        fun m hm => hfree m (mem_orderedModules.2 hm)⟩

/-- Without demands nothing is lent. -/
theorem exists_idle {definition : ArenaDefinition F} (hvalid : ValidDefinition definition)
    {demands : String → ℤ} (hdemands : ∀ m ∈ definition.modules, demands m.moduleId = 0) :
    ∃ inputBudget b, 0 < inputBudget ∧
      validateModelBudget .exact definition inputBudget = .ok () ∧
      allocateLedger .exact definition demands inputBudget = .ok b ∧ b.grants = [] := by
  have hfloors := floors_sum_nonneg hvalid
  have hzero :
      Ledger.total (definition.modules.map ModuleDefinition.moduleId) (fun _ => 0) = 0 := by
    rw [Ledger.total, List.map_map]
    exact List.sum_eq_zero fun x hx => by
      obtain ⟨m, -, rfl⟩ := List.mem_map.1 hx
      rfl
  have hcaps : ∀ m ∈ definition.modules,
      min m.targetTokens (demands m.moduleId) = (fun _ : String => (0 : ℤ)) m.moduleId :=
    fun m hm => by
      rw [hdemands m hm]
      exact min_eq_right (hvalid.valid m hm).target_nonneg
  have hsurplus : 0 < (definition.modules.map ModuleDefinition.floorTokens).sum + 1 := by omega
  obtain ⟨hbudget, filled, hledger, -, -⟩ := allocationRun_of_surplus hvalid
    (fun m hm => (hdemands m hm).ge) hcaps hsurplus (by rw [hzero]; omega)
  refine ⟨_, _, ?_, hbudget, hledger, ?_⟩
  · have hreserve := hvalid.reserve_nonneg
    omega
  · have hborrowers : borrowersOf definition demands filled.1 = [] := by
      refine List.eq_nil_iff_forall_not_mem.2 ?_
      intro m hm
      obtain ⟨hm, -, hlt, -⟩ := mem_borrowersOf.1 hm
      rw [hdemands m hm] at hlt
      exact absurd (hvalid.valid m hm).target_nonneg (not_le.2 hlt)
    rw [borrowAfter, hborrowers]
    rfl

/-- Two calls on a new arena: the first one has the leases of an allocation for given demands, and
the second one, without demands, has none. -/
theorem exists_granted_ended (lib : Library) {arena : ContextLeaseArena F}
    {wanted : ModuleDefinition F → ℤ} (hwanted : ∀ m ∈ arena.definition.modules, 0 ≤ wanted m)
    {grants : List (Grant F)}
    (hallocated : ∀ demands : String → ℤ,
      (∀ m ∈ arena.definition.modules, demands m.moduleId = wanted m) →
        ∃ inputBudget b, 0 < inputBudget ∧
          validateModelBudget .exact arena.definition inputBudget = .ok () ∧
          allocateLedger .exact arena.definition demands inputBudget = .ok b ∧
          b.grants = grants) :
    ∃ (first second : Call F) (admission admission' : Admission F) (settled settled' : Settled F),
      first.decision lib.exact arena {} = .ok (admission, settled) ∧
      admission.leases = grants.map (lease arena.layoutHash) ∧
      second.decision lib.exact arena (first.committed lib.exact arena admission settled {}) =
        .ok (admission', settled') ∧
      admission'.leases = [] ∧ first.results = [] ∧ second.results = [] := by
  obtain ⟨first, admission, settled, hfirst, hleases, -, hresults, -⟩ :=
    @exists_leased F _ lib arena wanted hwanted (· = grants.map (lease arena.layoutHash))
      (fun demands hdemands => by
        obtain ⟨inputBudget, b, hpos, hbudget, hledger, hgrants⟩ := hallocated demands hdemands
        exact ⟨inputBudget, b, hpos, hbudget, hledger, by rw [hgrants]⟩)
      {} (fun _ => rfl)
  obtain ⟨second, admission', settled', hsecond, hleases', -, hresults', -⟩ :=
    @exists_leased F _ lib arena (fun _ => 0) (fun _ _ => le_refl 0) (· = [])
    (fun demands hdemands => by
      obtain ⟨inputBudget, b, hpos, hbudget, hledger, hgrants⟩ :=
        exists_idle arena.validDefinition hdemands
      exact ⟨inputBudget, b, hpos, hbudget, hledger, by rw [hgrants]; rfl⟩)
    (s := first.committed lib.exact arena admission settled {}) (fun key => by
      rw [calibrations_committed]
      rfl)
  exact ⟨first, second, admission, admission', settled, settled', hfirst, hleases, hsecond,
    hleases', hresults, hresults'⟩

/-- A decided call is a plan of its operation. -/
theorem planOf_prepare {P : Platform} {arena : ContextLeaseArena F} {s : ArenaState F}
    {call : Call F} (hresults : call.results = []) {admission : Admission F} {settled : Settled F}
    (h : call.decision P arena s = .ok (admission, settled)) :
    planOf P arena s (.prepare call.env call.request call.counter) =
        some (call.plan P arena admission settled s) ∧
      step P arena s (.prepare call.env call.request call.counter) =
        call.committed P arena admission settled s := by
  have hprepared := @prepareWithResults_eq F _ P arena call s
  rw [h, hresults] at hprepared
  rw [planOf, step, prepare, hprepared]
  exact ⟨rfl, rfl⟩

end Requests

/-! ### Ledgers that break -/

section Break

/-- Without active leases all the tokens of the leases are granted. -/
theorem entries_granted_first (lib : Library) (env : Env) {leases : List Lease}
    (hpos : ∀ l ∈ leases, 0 < l.grantedTokens) :
    (leaseDrafts lib.exact env [] leases).filterMap
        (EventDraft.leaseEntry "lease.granted" "granted_tokens") = leaseEntries leases ∧
      (leaseDrafts lib.exact env [] leases).filterMap
        (EventDraft.leaseEntry "lease.reclaimed" "reclaimed_tokens") = [] := by
  have horder : env.leaseOrder [] = [] := List.perm_nil.1 (env.leaseOrder_perm [])
  have hgrant : ∀ l ∈ leases, grantDrafts lib.exact [] l = [⟨"lease.granted", BTreeMap.ofList
      [("lease_id", .string l.leaseId), ("granted_tokens", .ofInt l.grantedTokens),
        ("borrower_module_id", .string l.borrowerModuleId)], "state"⟩] := by
    intro l hl
    have hget : BTreeMap.get ([] : BTreeMap Lease) l.leaseId = none := rfl
    simp only [grantDrafts, hget, Option.map_none, Option.getD_none, Arith.sub_exact, sub_zero]
    exact if_pos (hpos l hl)
  have hdrafts : leaseDrafts lib.exact env [] leases =
      leases.flatMap (grantDrafts lib.exact []) := by
    rw [leaseDrafts, List.map_nil, horder, List.flatMap_nil, List.nil_append]
  rw [hdrafts]
  constructor
  · rw [List.filterMap_flatMap, leaseEntries, List.map_eq_flatMap]
    refine List.flatMap_congr ?_
    intro l hl
    rw [hgrant l hl, List.filterMap_cons, leaseEntry_draft (by decide) (by decide),
      Value.asTokens_ofInt (hpos l hl).le]
    rfl
  · rw [List.filterMap_flatMap, List.flatMap_eq_nil_iff]
    intro l hl
    rw [hgrant l hl]
    rfl

/-- Of two leases with one id the table keeps the second one, and that one is reclaimed. -/
theorem entries_reclaimed_second (lib : Library) (env : Env) {l l' : Lease}
    (hid : l.leaseId = l'.leaseId) (hpos : 0 < l'.grantedTokens) :
    (leaseDrafts lib.exact env (nextLeases [l, l']) []).filterMap
        (EventDraft.leaseEntry "lease.granted" "granted_tokens") = [] ∧
      (leaseDrafts lib.exact env (nextLeases [l, l']) []).filterMap
        (EventDraft.leaseEntry "lease.reclaimed" "reclaimed_tokens") =
          [(l'.leaseId, l'.grantedTokens)] := by
  have htable : nextLeases [l, l'] = [(l'.leaseId, l')] := by
    simp [nextLeases, BTreeMap.ofList, BTreeMap.insert, hid]
  have horder : env.leaseOrder [l'] = [l'] := List.perm_singleton.1 (env.leaseOrder_perm [l'])
  have hreclaim : reclaimDrafts lib.exact (nextLeases []) l' = [⟨"lease.reclaimed",
      BTreeMap.ofList [("lease_id", .string l'.leaseId),
        ("reclaimed_tokens", .ofInt l'.grantedTokens),
        ("borrower_module_id", .string l'.borrowerModuleId)], "state"⟩] := by
    have hget : (nextLeases []).get l'.leaseId = none := rfl
    simp only [reclaimDrafts, hget, Option.map_none, Option.getD_none, Arith.sub_exact, sub_zero]
    exact if_pos hpos
  rw [leaseDrafts, htable, List.map_singleton, horder, List.flatMap_singleton, hreclaim,
    List.flatMap_nil, List.append_nil]
  refine ⟨rfl, ?_⟩
  rw [List.filterMap_cons, leaseEntry_draft (by decide) (by decide),
    Value.asTokens_ofInt hpos.le]
  rfl

/-- If two leases of a plan can have one id, two requests break the ledger. -/
theorem not_ledgerKept_of_clash (lib : Library) {arena : ContextLeaseArena F}
    (hweights : WeightsCompare arena.definition.modules)
    (hclash : LeaseIdClash arena.definition) : ¬ LedgerKept lib.exact arena := by
  intro hkept
  obtain ⟨wanted, g, g', hg, hg', hkey, hwanted, htwo⟩ :=
    exists_twoLeases arena.validDefinition hweights hclash
  obtain ⟨first, second, admission, admission', settled, settled', hfirst, hleases, hsecond,
    hleases', hresults, hresults'⟩ := exists_granted_ended lib hwanted htwo
  simp only [List.map_cons, List.map_nil] at hleases
  set s := first.committed lib.exact arena admission settled {} with hs
  obtain ⟨hplan, hstep⟩ := planOf_prepare hresults hfirst
  obtain ⟨hplan', -⟩ := planOf_prepare hresults' hsecond
  have hbalance := hkept.balance [.prepare first.env first.request first.counter,
    .prepare second.env second.request second.counter] (lease arena.layoutHash g).leaseId
  have hid : (lease arena.layoutHash g).leaseId = (lease arena.layoutHash g').leaseId := by
    rw [lease_leaseId, lease_leaseId, hkey]
  have hplans : plans lib.exact arena {} [.prepare first.env first.request first.counter,
      .prepare second.env second.request second.counter] =
        [first.plan lib.exact arena admission settled {},
          second.plan lib.exact arena admission' settled' s] := by
    rw [plans, plans, plans, hplan, hstep, hplan']
    rfl
  have hactive : s.activeLeases =
      nextLeases [lease arena.layoutHash g, lease arena.layoutHash g'] := by
    rw [hs, activeLeases_committed, hleases]
  have hpositive : ∀ l ∈ [lease arena.layoutHash g, lease arena.layoutHash g'],
      0 < l.grantedTokens := by
    simp [lease, hg, hg']
  obtain ⟨hgranted, hreclaimed⟩ := entries_granted_first lib first.env hpositive
  obtain ⟨hgranted', hreclaimed'⟩ := entries_reclaimed_second lib second.env hid
    (by simp [lease, hg'])
  -- two tokens are granted, one is reclaimed, and no lease is left
  simp only [hplans, grantedTokens, reclaimedTokens, List.flatMap_cons, List.flatMap_nil,
    List.append_nil, List.filterMap_append, @entries_of_plan F _ lib.exact arena _ _
      (by decide : "lease.granted" ∈ ["lease.granted", "lease.reclaimed"]),
    @entries_of_plan F _ lib.exact arena _ _
      (by decide : "lease.reclaimed" ∈ ["lease.granted", "lease.reclaimed"]),
    hleases, hleases', hactive, hgranted', hreclaimed'] at hbalance
  have hlatest : latestTokens [first.plan lib.exact arena admission settled {},
      second.plan lib.exact arena admission' settled' s] (lease arena.layoutHash g).leaseId =
        0 := by
    have hnone : (second.plan lib.exact arena admission' settled' s).leases = [] := hleases'
    simp only [latestTokens, List.getLast?_cons_cons, List.getLast?_singleton, Option.map_some,
      Option.getD_some, hnone]
    rfl
  have htokens : (lease arena.layoutHash g).grantedTokens = 1 := hg
  have htokens' : (lease arena.layoutHash g').grantedTokens = 1 := hg'
  rw [hgranted, hreclaimed, List.nil_append, hlatest, leaseEntries, List.map_cons,
    List.map_singleton, htokens, htokens', ← hid, Ledger.amountOf_cons, if_pos rfl,
    Ledger.amountOf_singleton_self] at hbalance
  omega

/-- The ledger is kept exactly when no two leases of a plan can have one id, and in wrapping
arithmetic it is kept then as well. -/
theorem ledgerKept_iff (lib : Library) (arena : ContextLeaseArena F)
    (hweights : WeightsCompare arena.definition.modules) :
    (LedgerKept lib.exact arena ↔ ¬ LeaseIdClash arena.definition) ∧
    ((∀ m ∈ arena.definition.modules, Arith.release.Fits m.maxTokens) →
      ¬ LeaseIdClash arena.definition → LedgerKept lib.release arena) := by
  refine ⟨⟨fun hkept hclash => not_ledgerKept_of_clash lib hweights hclash hkept,
    fun hclash => ?_⟩, fun hmax hclash => ?_⟩
  · exact ledgerKept_of_distinct (distinctLeases_of_not_clash (fun _ _ => Arith.fits_exact _)
      hweights hclash)
  · exact ledgerKept_of_distinct (distinctLeases_of_not_clash hmax hweights hclash)

theorem ledgerKept_iff_example :
    LedgerKept (Library.ascii id).exact exampleArena ∧
      LedgerKept (Library.ascii id).release exampleArena := by
  have hclash : ¬ LeaseIdClash exampleArena.definition := by decide +kernel
  have hweights := weightsCompare_rat exampleArena.definition.modules
  exact ⟨(ledgerKept_iff (Library.ascii id) exampleArena hweights).1.2 hclash,
    (ledgerKept_iff (Library.ascii id) exampleArena hweights).2 (by decide +kernel) hclash⟩

end Break

/-! ### Names with colons -/

section Colons

/-- A module that lends. -/
def colonLender (moduleId : String) : ModuleDefinition ℚ where
  moduleId := moduleId
  floorTokens := 0
  targetTokens := 1
  maxTokens := 1
  weight := 1
  canBorrow := false

/-- A module that borrows. -/
def colonBorrower (moduleId : String) (order : ℤ) : ModuleDefinition ℚ where
  moduleId := moduleId
  floorTokens := 0
  targetTokens := 2
  maxTokens := 4
  order := order
  weight := 1
  canLend := false
  reclaimPipeline := [⟨"builtin.text.boundary_truncate.v1", []⟩]

/-- The leases from `a` to `x:b` and from `a:x` to `b` have one id. -/
def colonArena : ContextLeaseArena ℚ where
  definition :=
    { arenaId := "notes"
      modules := [colonLender "a", colonLender "a:x", colonBorrower "x:b" 0, colonBorrower "b" 1] }
  layoutHash := "layout"
  instanceId := "notes-1-1"
  valid := by decide +kernel

/-- The borrowers ask for one token more than their targets, and the lenders for nothing. -/
def colonRequest : PrepareRequest ℚ where
  model := { modelProfileId := "model", contextLimitTokens := 64, reservedOutputTokens := 4 }
  contributions :=
    [{ moduleId := "x:b", chunks := [], observedDemandTokens := some 3 },
     { moduleId := "b", chunks := [], observedDemandTokens := some 3 }]

/-- The request, and then one without contributions. -/
def colonOps : List (Op ℚ) :=
  [.prepare default colonRequest none,
    .prepare default { colonRequest with contributions := [] } none]

/-- Both leases are granted, and only one of them is reclaimed. -/
theorem colon_unkept : ¬ LedgerKept (Library.ascii id).release colonArena := by
  intro hkept
  have hbalance := hkept.balance colonOps "layout:a:x:b"
  have hevents : (let ps := plans (Library.ascii id).release colonArena {} colonOps
      let events := ps.flatMap PreparedContextPlan.traceEvents
      (grantedTokens events "layout:a:x:b", reclaimedTokens events "layout:a:x:b",
        latestTokens ps "layout:a:x:b")) = (2, 1, 0) := by
    decide +kernel
  simp only [Prod.mk.injEq] at hevents
  obtain ⟨hgranted, hreclaimed, hlatest⟩ := hevents
  simp only [hgranted, hreclaimed, hlatest] at hbalance
  omega

end Colons

end ContextLease
