/-
The allocator of the Python package.

The package keeps an allocator of its own.  It sums the offers of the donors before it drops the
empty ones, guards against grants of nothing, and keeps the modules of a round in a set, which it
sorts before it serves them.  Integers are exact, and weights and shares are exact rationals.

Main definitions:

* `HostAllocator.weightedFill`, `HostAllocator.allocateBudget` — the source's `_weighted_fill` and
  `allocate_budget`.

Main results:

* `HostAllocator.weightedFill_eq` — the rounds of the package are those of the kernel;
* `HostAllocator.borrow_eq` — and so is its borrowing phase;
* `allocate_eq_allocateBudget` — the kernel and the package allocate the same.
-/

import ContextLease.Expansion
import ContextLease.HashOrders

set_option relaxedAutoImplicit false
set_option autoImplicit false

namespace ContextLease

open MachineNumbers

/-! ### The source -/

namespace HostAllocator

/-- The source's `int` of a number: its integer part. -/
def intOf (x : ℚ) : ℤ := if 0 ≤ x then ⌊x⌋ else ⌈x⌉

/-- The `for` loop of a round of `_weighted_fill`. -/
def fillRound (caps share : String → ℤ) : List String → Fill → Fill
  | [], st => st
  | moduleId :: rest, st =>
      let capacity := caps moduleId - st.current moduleId
      if capacity ≤ 0 then fillRound caps share rest st
      else
        let grant := min (min capacity (share moduleId)) st.remaining
        let st : Fill :=
          { current := Ledger.credit st.current moduleId grant
            remaining := st.remaining - grant
            progressed := st.progressed + grant }
        if st.remaining = 0 then st else fillRound caps share rest st

section Allocator

variable (order : IterationOrder String)

/-- The `while` loop of `_weighted_fill`; `order` is the order in which sets are iterated.  As in
the kernel a fuel of `remaining` rounds is never used up. -/
def fillRounds (caps : String → ℤ) (weights : String → ℚ) :
    ℕ → List String → (String → ℤ) → ℤ → (String → ℤ) × ℤ
  | 0, _, current, remaining => (current, remaining)
  | fuel + 1, active, current, remaining =>
      if 0 < remaining ∧ active ≠ [] then
        let totalWeight := ((order.iterate active).map weights).sum
        let share := fun moduleId => max 1 (intOf (remaining * weights moduleId / totalWeight))
        let st := fillRound caps share (active.insertionSort (· ≤ ·)) ⟨current, remaining, 0⟩
        let active := active.filter fun moduleId => st.current moduleId < caps moduleId
        if st.progressed = 0 then (st.current, st.remaining)
        else fillRounds caps weights fuel active st.current st.remaining
      else (current, remaining)

/-- The source's `_weighted_fill`. -/
def weightedFill (moduleIds : List String) (current caps : String → ℤ) (weights : String → ℚ)
    (remaining : ℤ) : (String → ℤ) × ℤ :=
  fillRounds order caps weights remaining.toNat
    (moduleIds.filter fun moduleId => current moduleId < caps moduleId) current remaining

variable (borrower : ModuleDefinition ℚ)

/-- The donor loop of one borrower: `visited` are the donors the loop has passed. -/
def borrowFromDonors : List (String × ℤ) → List (String × ℤ) → ℤ → Borrowing ℚ →
    List (String × ℤ) × ℤ × Borrowing ℚ
  | visited, [], need, b => (visited, need, b)
  | visited, (donorId, available) :: donors, need, b =>
      if need ≤ 0 ∨ b.remaining ≤ 0 then (visited ++ (donorId, available) :: donors, need, b)
      else if donorId = borrower.moduleId ∨ available ≤ 0 then
        borrowFromDonors (visited ++ [(donorId, available)]) donors need b
      else
        let grant := min (min need available) b.remaining
        if grant ≤ 0 then borrowFromDonors (visited ++ [(donorId, available)]) donors need b
        else
          borrowFromDonors (visited ++ [(donorId, available - grant)]) donors (need - grant)
            (b.take .exact borrower (.module donorId) grant)

/-- The slack step of one borrower. -/
def borrowFromSlack (need : ℤ) (b : Borrowing ℚ) : Borrowing ℚ :=
  if 0 < need ∧ 0 < b.sharedSlack ∧ 0 < b.remaining then
    b.take .exact borrower .arenaSlack (min (min need b.sharedSlack) b.remaining)
  else b

/-- The borrower loop. -/
def borrow (demands : String → ℤ) :
    List (ModuleDefinition ℚ) → List (String × ℤ) → Borrowing ℚ → Borrowing ℚ
  | [], _, b => b
  | borrower :: borrowers, donors, b =>
      let need := min (demands borrower.moduleId) borrower.maxTokens - b.current borrower.moduleId
      let pass := borrowFromDonors borrower [] donors need b
      borrow demands borrowers pass.1 (borrowFromSlack borrower pass.2.1 pass.2.2)

/-- What the borrowers are sorted by. -/
def borrowerKey (m : ModuleDefinition ℚ) : ℚ ×ₗ ℤ ×ₗ String :=
  toLex (-m.weight, toLex (m.order, m.moduleId))

/-- What the allocations are sorted by. -/
def allocationKey (m : ModuleDefinition ℚ) : ℤ ×ₗ String := toLex (m.order, m.moduleId)

/-- The source's `AllocationResult`. -/
structure AllocationResult where
  allocations : List ModuleAllocation
  leases : List Lease
  unallocatedTokens : ℤ

/-- The source's `allocate_budget`, for a layout of the definition. -/
def allocateBudget (definition : ArenaDefinition ℚ) (layoutHash : String) (demands : String → ℤ)
    (inputBudgetTokens : ℤ) : AllocationResult :=
  let modules := definition.modules
  let moduleIds := modules.map ModuleDefinition.moduleId
  let available := inputBudgetTokens - definition.frameworkReserveTokens
  let current := perModule definition (fun m => min m.floorTokens (demands m.moduleId)) 0
  let remaining := available - (moduleIds.map current).sum
  let weights := perModule definition ModuleDefinition.weight 0
  let targetCaps := perModule definition (fun m => min m.targetTokens (demands m.moduleId)) 0
  let filled := weightedFill order moduleIds current targetCaps weights remaining
  let donorCapacity := (modules.filter ModuleDefinition.canLend).map fun m =>
    (m.moduleId, max 0 (m.targetTokens - filled.1 m.moduleId))
  let sharedSlack := max 0 (filled.2 - (donorCapacity.map Prod.snd).sum)
  let donors := (donorCapacity.insertionSort fun d d' => toLex d ≤ toLex d').filter fun d => d.2 > 0
  let borrowers := (modules.filter fun m =>
    m.canBorrow && decide (demands m.moduleId > m.targetTokens) &&
      decide (filled.1 m.moduleId < m.maxTokens)).insertionSort
        fun m m' => borrowerKey m ≤ borrowerKey m'
  let b := borrow demands borrowers donors
    { current := filled.1
      borrowed := fun _ => 0
      lent := fun _ => 0
      remaining := filled.2
      sharedSlack := sharedSlack
      grants := [] }
  { allocations := (modules.insertionSort fun m m' => allocationKey m ≤ allocationKey m').map
      fun m =>
        { moduleId := m.moduleId
          floorTokens := m.floorTokens
          targetTokens := m.targetTokens
          maxTokens := m.maxTokens
          demandedTokens := demands m.moduleId
          allocatedTokens := b.current m.moduleId
          localCapacityTokens := max 0 (b.current m.moduleId - b.borrowed m.moduleId)
          borrowedCapacityTokens := b.borrowed m.moduleId
          lentCapacityTokens := b.lent m.moduleId }
    leases := b.grants.map (lease layoutHash)
    unallocatedTokens := b.remaining }

end Allocator

end HostAllocator

/-! ### The rounds -/

section Rounds

/-- Filtering a sorted list of strings. -/
theorem filter_insertionSort (p : String → Bool) (l : List String) :
    (l.insertionSort (· ≤ ·)).filter p = (l.filter p).insertionSort (· ≤ ·) := by
  refine @List.Perm.eq_of_pairwise _ (· ≤ ·) _ _ (fun a b _ _ => le_antisymm)
    ((List.pairwise_insertionSort (· ≤ ·) l).filter p) (List.pairwise_insertionSort (· ≤ ·) _) ?_
  exact ((List.perm_insertionSort _ l).filter p).trans (List.perm_insertionSort _ _).symm

/-- A round over modules below their caps meets none without capacity. -/
theorem HostAllocator.fillRound_eq {caps share : String → ℤ} {l : List String} (hnodup : l.Nodup)
    {st : Fill}
    (hbelow : ∀ id ∈ l, st.current id < caps id) :
    HostAllocator.fillRound caps (fun id => max 1 (share id)) l st =
      ContextLease.fillRound .exact caps share l st := by
  induction l generalizing st with
  | nil => rfl
  | cons id l ih =>
      have hcapacity := hbelow id (List.mem_cons_self ..)
      rw [List.nodup_cons] at hnodup
      have hgrant : st.grant .exact caps share id =
          { current := Ledger.credit st.current id
              (min (min (caps id - st.current id) (max 1 (share id))) st.remaining)
            remaining := st.remaining -
              min (min (caps id - st.current id) (max 1 (share id))) st.remaining
            progressed := st.progressed +
              min (min (caps id - st.current id) (max 1 (share id))) st.remaining } := by
        rw [max_comm 1]
        rfl
      rw [HostAllocator.fillRound, ContextLease.fillRound, hgrant, if_neg (by omega)]
      simp only
      split
      · rfl
      · refine ih hnodup.2 ?_
        intro id' hid'
        have hne : id' ≠ id := fun heq => hnodup.1 (heq ▸ hid')
        simp only [Ledger.credit_of_ne _ _ hne]
        exact hbelow id' (List.mem_cons_of_mem _ hid')

variable {definition : ArenaDefinition ℚ} (order : IterationOrder String)

/-- The share of a round does not depend on the order in which the weights are added. -/
theorem HostAllocator.share_eq (remaining : ℤ) (active : List String) (id : String) :
    weightedShare .exact definition remaining (active.insertionSort (· ≤ ·)) id =
      HostAllocator.intOf (remaining * perModule definition ModuleDefinition.weight 0 id /
        ((order.iterate active).map (perModule definition ModuleDefinition.weight 0)).sum) := by
  have hsum : ((order.iterate active).map (perModule definition ModuleDefinition.weight 0)).sum =
      (active.insertionSort (· ≤ ·)).foldl (fun sum id => FloatOps.add sum
        (perModule definition ModuleDefinition.weight (FloatOps.ofInt 0) id))
        (FloatOps.ofInt 0) := by
    have hperm : ((order.iterate active).map (perModule definition ModuleDefinition.weight 0)).Perm
        ((active.insertionSort (· ≤ ·)).map (perModule definition ModuleDefinition.weight 0)) :=
      ((order.perm active).trans (List.perm_insertionSort _ active).symm).map _
    rw [hperm.sum_eq, List.sum_eq_foldl, List.foldl_map]
    rfl
  rw [hsum]
  rfl

/-- The rounds of the package are those of the kernel. -/
theorem HostAllocator.fillRounds_eq {caps : String → ℤ} {fuel : ℕ} {active : List String}
    (hnodup : active.Nodup) {current : String → ℤ} {remaining : ℤ}
    (hbelow : ∀ id ∈ active, current id < caps id) :
    HostAllocator.fillRounds order caps (perModule definition ModuleDefinition.weight 0) fuel active
      current
        remaining =
      ContextLease.fillRounds .exact caps (weightedShare .exact definition) fuel
        (active.insertionSort (· ≤ ·)) current remaining := by
  induction fuel generalizing active current remaining with
  | zero => rfl
  | succ fuel ih =>
      have hempty : active.insertionSort (· ≤ ·) ≠ [] ↔ active ≠ [] := by
        rw [Ne, Ne, ← List.length_eq_zero_iff, List.length_insertionSort, List.length_eq_zero_iff]
      have hround := @HostAllocator.fillRound_eq caps
        (weightedShare .exact definition remaining (active.insertionSort (· ≤ ·)))
        (active.insertionSort (· ≤ ·)) ((List.perm_insertionSort _ active).nodup_iff.2 hnodup)
        ⟨current, remaining, 0⟩ (fun id hid => hbelow id ((List.mem_insertionSort _).1 hid))
      simp only [HostAllocator.share_eq order] at hround
      rw [HostAllocator.fillRounds, ContextLease.fillRounds]
      simp only [hempty, hround]
      split
      · generalize ContextLease.fillRound .exact caps _ _ _ = st
        split
        · rfl
        · rw [filter_insertionSort]
          exact ih (hnodup.filter _) fun id hid => of_decide_eq_true (List.mem_filter.1 hid).2
      · rfl

end Rounds

/-! ### Borrowing -/

section Borrow

variable {borrower : ModuleDefinition ℚ}

/-- The donor loop only comes to grants of something. -/
theorem HostAllocator.borrowFromDonors_eq (visited donors : List (String × ℤ)) (need : ℤ)
    (b : Borrowing ℚ) :
    HostAllocator.borrowFromDonors borrower visited donors need b =
      ContextLease.borrowFromDonors .exact borrower visited donors need b := by
  induction donors generalizing visited need b with
  | nil => rfl
  | cons d donors ih =>
      obtain ⟨donorId, available⟩ := d
      rw [HostAllocator.borrowFromDonors, ContextLease.borrowFromDonors]
      by_cases hstop : need ≤ 0 ∨ b.remaining ≤ 0
      · rw [if_pos hstop, if_pos hstop]
      · rw [if_neg hstop, if_neg hstop]
        by_cases hskip : donorId = borrower.moduleId ∨ available ≤ 0
        · rw [if_pos hskip, if_pos hskip]
          exact ih _ _ _
        · have hgrant : ¬ min (min need available) b.remaining ≤ 0 := by omega
          rw [if_neg hskip, if_neg hskip]
          simp only [if_neg hgrant, Arith.sub_exact]
          exact ih _ _ _

/-- The borrowing phase of the package is that of the kernel. -/
theorem HostAllocator.borrow_eq (demands : String → ℤ) (borrowers : List (ModuleDefinition ℚ))
    (donors : List (String × ℤ)) (b : Borrowing ℚ) :
    HostAllocator.borrow demands borrowers donors b =
      ContextLease.borrow .exact demands borrowers donors b := by
  induction borrowers generalizing donors b with
  | nil => rfl
  | cons borrower borrowers ih =>
      rw [HostAllocator.borrow, ContextLease.borrow]
      simp only [ih, HostAllocator.borrowFromDonors_eq]
      rfl

end Borrow

/-! ### Sorting -/

section Sorting

/-- Sorting by equivalent orders. -/
theorem insertionSort_congr {α : Type} {r r' : α → α → Prop} [DecidableRel r] [DecidableRel r']
    (h : ∀ a b, r a b ↔ r' a b) (l : List α) : l.insertionSort r = l.insertionSort r' := by
  have hmap := List.map_insertionSort r r' id l fun a _ b _ => h a b
  rwa [List.map_id, List.map_id] at hmap

/-- On exact weights the kernel sorts the borrowers by the key of the package. -/
theorem borrowsBefore_iff_key (m m' : ModuleDefinition ℚ) :
    borrowsBefore m m' ↔ HostAllocator.borrowerKey m ≤ HostAllocator.borrowerKey m' :=
  @borrowsBefore_iff_rank ℚ _ id m m' decide_eq_true_iff decide_eq_true_iff

theorem rendersBefore_iff_key (m m' : ModuleDefinition ℚ) :
    rendersBefore m m' ↔ HostAllocator.allocationKey m ≤ HostAllocator.allocationKey m' := by
  rw [HostAllocator.allocationKey, HostAllocator.allocationKey, Prod.Lex.toLex_le_toLex]
  rfl

variable {definition : ArenaDefinition ℚ}

/-- Dropping the empty offers before or after sorting makes no difference. -/
theorem donorsOf_eq (hvalid : ValidDefinition definition) (current : String → ℤ) :
    ((((definition.modules.filter ModuleDefinition.canLend).map fun m =>
        (m.moduleId, max 0 (m.targetTokens - current m.moduleId))).insertionSort
          fun d d' => toLex d ≤ toLex d').filter fun d => d.2 > 0) =
      donorsOf .exact definition current := by
  have hoffers : ((definition.modules.filter ModuleDefinition.canLend).map fun m =>
      (m.moduleId, max 0 (m.targetTokens - current m.moduleId))) =
      (definition.modules.filter ModuleDefinition.canLend).map fun m =>
        (m.moduleId, max (Arith.exact.sub m.targetTokens (current m.moduleId)) 0) :=
    List.map_congr_left fun m _ => by rw [max_comm, Arith.sub_exact]
  rw [hoffers]
  generalize hlist : ((definition.modules.filter ModuleDefinition.canLend).map fun m =>
    (m.moduleId, max (Arith.exact.sub m.targetTokens (current m.moduleId)) 0)) = offers
  have hperm : ((offers.insertionSort fun d d' => toLex d ≤ toLex d').filter fun d => d.2 > 0).Perm
      (donorsOf .exact definition current) := by
    rw [donorsOf, hlist]
    exact ((List.perm_insertionSort _ _).filter _).trans (List.perm_insertionSort _ _).symm
  have hsorted := @donorsOf_sorted ℚ .exact definition hvalid.ids_nodup current
  have hle : ((offers.insertionSort fun d d' => toLex d ≤ toLex d').filter
      fun d => d.2 > 0).Pairwise fun d d' => d.1 ≤ d'.1 := by
    have htotal : Std.Total fun d d' : String × ℤ => toLex d ≤ toLex d' :=
      ⟨fun _ _ => le_total _ _⟩
    have htrans : IsTrans (String × ℤ) fun d d' => toLex d ≤ toLex d' := ⟨fun _ _ _ => le_trans⟩
    refine ((List.pairwise_insertionSort (fun d d' : String × ℤ => toLex d ≤ toLex d')
      offers).filter _).imp fun {d d'} h => ?_
    rcases Prod.Lex.toLex_le_toLex.1 h with h | ⟨h, -⟩
    · exact h.le
    · exact h.le
  -- no donor comes twice, so the order by id and offer is the order by id
  have hne := (hperm.map Prod.fst).nodup_iff.2 (donorsOf_nodup hvalid.ids_nodup current)
  refine List.Perm.eq_of_pairwise (fun d d' _ _ h h' => absurd h (lt_asymm h'))
    ((hle.and (List.pairwise_map.1 hne)).imp fun h => lt_of_le_of_ne h.1 h.2) hsorted hperm

/-- Without the empty offers the donors offer as much. -/
theorem sum_filter_pos {offers : List (String × ℤ)} (hoffers : ∀ d ∈ offers, 0 ≤ d.2) :
    ((offers.filter fun d => d.2 > 0).map Prod.snd).sum = (offers.map Prod.snd).sum := by
  induction offers with
  | nil => rfl
  | cons d offers ih =>
      have hd := hoffers d (List.mem_cons_self ..)
      have hrest := ih fun d' hd' => hoffers d' (List.mem_cons_of_mem _ hd')
      rw [List.filter_cons, List.map_cons, List.sum_cons, ← hrest]
      by_cases hpos : d.2 > 0
      · rw [if_pos (decide_eq_true hpos), List.map_cons, List.sum_cons]
      · rw [if_neg (by simpa using hpos)]
        omega

/-- What the donors offer, with and without the empty offers. -/
theorem sum_donorsOf (hvalid : ValidDefinition definition) (current : String → ℤ) :
    ((donorsOf .exact definition current).map Prod.snd).sum =
      (((definition.modules.filter ModuleDefinition.canLend).map fun m =>
        (m.moduleId, max 0 (m.targetTokens - current m.moduleId))).map Prod.snd).sum := by
  rw [← donorsOf_eq hvalid, (((List.perm_insertionSort _ _).filter _).map _).sum_eq]
  refine sum_filter_pos ?_
  intro d hd
  obtain ⟨m, -, rfl⟩ := List.mem_map.1 hd
  exact le_max_left _ _

end Sorting

/-! ### The allocators -/

section Allocators

variable {definition : ArenaDefinition ℚ} (hvalid : ValidDefinition definition)
  {demands : String → ℤ} (hdemands : ∀ m ∈ definition.modules, 0 ≤ demands m.moduleId)
  {inputBudget : ℤ} (hbudget : validateModelBudget .exact definition inputBudget = .ok ())
include hvalid hdemands hbudget

/-- The kernel and the package allocate the same, in whatever order sets are iterated. -/
theorem allocate_eq_allocateBudget (order : IterationOrder String) (layoutHash : String) :
    let result := HostAllocator.allocateBudget order definition layoutHash demands inputBudget
    allocate .exact definition demands layoutHash inputBudget =
      .ok (result.allocations, result.leases) := by
  intro result
  have hledger := allocateLedger_targetFill hvalid hdemands hbudget
  have hfill : HostAllocator.weightedFill order (definition.modules.map ModuleDefinition.moduleId)
      (initialCurrent definition demands) (targetCaps definition demands)
      (perModule definition ModuleDefinition.weight 0)
      (fillBudget definition demands inputBudget) =
      targetFill definition demands inputBudget := by
    rw [HostAllocator.weightedFill, HostAllocator.fillRounds_eq order (hvalid.ids_nodup.filter _)
      fun id hid => of_decide_eq_true (List.mem_filter.1 hid).2]
    rfl
  set filled := targetFill definition demands inputBudget with hfilled
  have hborrowers : ((definition.modules.filter fun m =>
      m.canBorrow && decide (demands m.moduleId > m.targetTokens) &&
        decide (filled.1 m.moduleId < m.maxTokens)).insertionSort
          fun m m' => HostAllocator.borrowerKey m ≤ HostAllocator.borrowerKey m') =
      borrowersOf definition demands filled.1 :=
    insertionSort_congr (fun m m' => (borrowsBefore_iff_key m m').symm) _
  have hmodules : (definition.modules.insertionSort
      fun m m' => HostAllocator.allocationKey m ≤ HostAllocator.allocationKey m') =
        orderedModules definition :=
    insertionSort_congr (fun m m' => (rendersBefore_iff_key m m').symm) _
  have hstart : ({ current := filled.1
                   borrowed := fun _ => 0
                   lent := fun _ => 0
                   remaining := filled.2
                   sharedSlack := max 0 (filled.2 -
                     (((definition.modules.filter ModuleDefinition.canLend).map fun m =>
                       (m.moduleId, max 0 (m.targetTokens - filled.1 m.moduleId))).map
                         Prod.snd).sum)
                   grants := [] } : Borrowing ℚ) = borrowStart .exact definition filled := by
    rw [borrowStart, Arith.sum_exact, Arith.sub_exact, sum_donorsOf hvalid, max_comm]
  have hresult : result =
      { allocations := (orderedModules definition).map
          (moduleAllocation .exact demands (borrowAfter .exact definition demands filled))
        leases := (borrowAfter .exact definition demands filled).grants.map (lease layoutHash)
        unallocatedTokens := (borrowAfter .exact definition demands filled).remaining } := by
    have hb : HostAllocator.borrow demands
        ((definition.modules.filter fun m =>
          m.canBorrow && decide (demands m.moduleId > m.targetTokens) &&
            decide (filled.1 m.moduleId < m.maxTokens)).insertionSort
              fun m m' => HostAllocator.borrowerKey m ≤ HostAllocator.borrowerKey m')
        ((((definition.modules.filter ModuleDefinition.canLend).map fun m =>
          (m.moduleId, max 0 (m.targetTokens - filled.1 m.moduleId))).insertionSort
            fun d d' => toLex d ≤ toLex d').filter fun d => d.2 > 0)
        (borrowStart .exact definition filled) = borrowAfter .exact definition demands filled := by
      rw [hborrowers, donorsOf_eq hvalid, HostAllocator.borrow_eq]
      rfl
    change HostAllocator.allocateBudget order definition layoutHash demands inputBudget = _
    have hfill' : HostAllocator.weightedFill order
        (definition.modules.map ModuleDefinition.moduleId)
        (perModule definition (fun m => min m.floorTokens (demands m.moduleId)) 0)
        (perModule definition (fun m => min m.targetTokens (demands m.moduleId)) 0)
        (perModule definition ModuleDefinition.weight 0)
        (inputBudget - definition.frameworkReserveTokens -
          ((definition.modules.map ModuleDefinition.moduleId).map
            (perModule definition (fun m => min m.floorTokens (demands m.moduleId)) 0)).sum) =
        filled := hfill
    simp only [HostAllocator.allocateBudget, hfill', hstart, hb, hmodules]
    simp only [max_comm (0 : ℤ)]
    rfl
  rw [allocate, hledger, hresult]

end Allocators

theorem allocate_eq_allocateBudget_example :
    allocate .exact exampleDefinition (fun _ => 30) "layout" 40 =
      .ok ((HostAllocator.allocateBudget (.reversed String) exampleDefinition "layout" (fun _ => 30)
          40).allocations,
        (HostAllocator.allocateBudget (.reversed String) exampleDefinition "layout" (fun _ => 30)
          40).leases) :=
  allocate_eq_allocateBudget (validateDefinition_ok (by decide +kernel)) (fun _ _ => by decide)
    (by decide +kernel) (.reversed String) "layout"

end ContextLease
