/-
The order in which hash maps are iterated.

A call iterates three hash maps: the current tokens of the modules, whose values it adds up, the
caps of the weighted rounds, whose keys it collects into a sorted set, and the active leases, for
each of which it may report an event.  How a hash map is iterated differs from run to run.  The sum
and the sorted set do not depend on it, so the orders of the first two maps make no difference to
what a call returns.

Main definitions:

* `IterationOrder`, `HashOrders` — the orders a call meets;
* `allocateIn`, `prepareIn` — the allocator and a call under given orders.

Main results:

* `weightedFillIn_eq`, `allocateIn_eq`, `prepareIn_eq` — the orders of the allocator make no
  difference.
-/

import ContextLease.Arena

set_option relaxedAutoImplicit false
set_option autoImplicit false

namespace ContextLease

open MachineNumbers

/-- An order in which the entries of a hash map are iterated. -/
structure IterationOrder (α : Type) where
  iterate : List α → List α
  perm : ∀ l, (iterate l).Perm l

/-- The orders of the hash maps that a call iterates. -/
structure HashOrders where
  current : IterationOrder String
  caps : IterationOrder String
  activeLeases : IterationOrder Lease

/-- The entries as they are listed. -/
def IterationOrder.listed (α : Type) : IterationOrder α := ⟨id, fun l => List.Perm.refl l⟩

/-- The entries in the opposite order. -/
def IterationOrder.reversed (α : Type) : IterationOrder α := ⟨List.reverse, List.reverse_perm⟩

/-- The time stamps a call reads. -/
structure Clock where
  now : String
  capturedAt : String
  /-- The time stamps of the events, by sequence number. -/
  occurredAt : ℕ → String

/-- What a call with these time stamps and orders meets. -/
def Clock.env (clock : Clock) (orders : HashOrders) : Env where
  now := clock.now
  capturedAt := clock.capturedAt
  occurredAt := clock.occurredAt
  leaseOrder := orders.activeLeases.iterate
  leaseOrder_perm := orders.activeLeases.perm

variable {F : Type} [FloatOps F]

section Iterated

variable (ar : Arith) (definition : ArenaDefinition F) (orders : HashOrders)

/-- The source's `weighted_fill`, which collects the keys of the caps into a sorted set. -/
def weightedFillIn (caps current : String → ℤ) (remaining : ℤ) : (String → ℤ) × ℤ :=
  weightedFillWith ar caps (weightedShare ar definition)
    (orders.caps.iterate (definition.modules.map ModuleDefinition.moduleId)) current remaining

/-- The ledgers of `allocate`, which adds up the values of the current tokens. -/
def allocateLedgerIn (demands : String → ℤ) (inputBudget : ℤ) : Result (Borrowing F) :=
  let available := ar.sub inputBudget definition.frameworkReserveTokens
  let current := initialCurrent definition demands
  let remaining := ar.sub available (ar.sum
    ((orders.current.iterate (definition.modules.map ModuleDefinition.moduleId)).map current))
  if remaining < 0 then fail "layout_validation_error" "module floors exceed budget"
  else
    let filled := weightedFillIn ar definition orders (targetCaps definition demands) current
      remaining
    let donors := donorsOf ar definition filled.1
    let donorTotal := ar.sum (donors.map Prod.snd)
    .ok (borrow ar demands (borrowersOf definition demands filled.1) donors
      { current := filled.1
        borrowed := fun _ => 0
        lent := fun _ => 0
        remaining := filled.2
        sharedSlack := max (ar.sub filled.2 donorTotal) 0
        grants := [] })

/-- The source's `allocate`. -/
def allocateIn (demands : String → ℤ) (layoutHash : String) (inputBudget : ℤ) :
    Result (List ModuleAllocation × List Lease) :=
  match allocateLedgerIn ar definition orders demands inputBudget with
  | .ok b =>
      .ok ((orderedModules definition).map (moduleAllocation ar demands b),
        b.grants.map (lease layoutHash))
  | .error e => .error e

end Iterated

/-- What `prepare` does with the multiplier it has read, before it takes the lock again. -/
def admitRequestIn (P : Platform) (arena : ContextLeaseArena F) (orders : HashOrders)
    (request : PrepareRequest F) (counter : Option TokenCounter) (multiplier : F) :
    Checked ContextLeaseError (Admission F) := do
  checkRequest request counter
  let counts : CountContext F := ⟨request.model.tokenizerId, counter, multiplier⟩
  let inputBudget :=
    P.arith.sub request.model.contextLimitTokens request.model.reservedOutputTokens
  let contributions ← validateContributions arena.definition request.contributions
  let overhead ← renderSeparatorTokens P counts contributions arena.definition
  let allocationInputBudget := P.arith.sub inputBudget overhead
  validateModelBudget P.arith arena.definition allocationInputBudget
  let demands ← demandsOf P counts contributions arena.definition
  let (allocations, leases) ← allocateIn P.arith arena.definition orders demands arena.layoutHash
    allocationInputBudget
  pure ⟨counts, inputBudget, contributions, allocationInputBudget, demands, allocations, leases⟩

/-- The source's `prepare`. -/
def prepareIn (P : Platform) (arena : ContextLeaseArena F) (clock : Clock) (orders : HashOrders)
    (request : PrepareRequest F) (counter : Option TokenCounter) (s : ArenaState F) :
    Result (PreparedContextPlan F) × ArenaState F :=
  let attempt := do
    let admission ← admitRequestIn P arena orders request counter (safetyMultiplier s request.model)
    transact P arena (clock.env orders) request [] admission s.beginTransaction
  match ensureValid attempt with
  | .ok (plan, transaction) => (.ok plan, s.commitTransaction transaction)
  | .error e => (.error e, s)

/-! ### The orders of the allocator -/

section Orders

variable (ar : Arith) (definition : ArenaDefinition F) (orders : HashOrders)

omit [FloatOps F] in
/-- A sum does not depend on the order of its terms. -/
theorem sum_iterate (order : IterationOrder String) (ids : List String) (values : String → ℤ) :
    ar.sum ((order.iterate ids).map values) = ar.sum (ids.map values) := by
  rw [Arith.sum_eq_norm, Arith.sum_eq_norm, ((order.perm ids).map values).sum_eq]

omit [FloatOps F] in
/-- A sorted set does not depend on the order in which it was collected. -/
theorem insertionSort_of_perm {l l' : List String} (h : l.Perm l') :
    l.insertionSort (· ≤ ·) = l'.insertionSort (· ≤ ·) := by
  have htotal : Std.Total fun s t : String => s ≤ t := ⟨fun _ _ => le_total _ _⟩
  have htrans : IsTrans String fun s t => s ≤ t := ⟨fun _ _ _ => le_trans⟩
  exact List.Perm.eq_of_pairwise (fun s t _ _ hle hle' => le_antisymm hle hle')
    (List.pairwise_insertionSort _ l) (List.pairwise_insertionSort _ l')
    ((List.perm_insertionSort _ l).trans (h.trans (List.perm_insertionSort _ l').symm))

theorem weightedFillIn_eq (caps current : String → ℤ) (remaining : ℤ) :
    weightedFillIn ar definition orders caps current remaining =
      weightedFill ar definition caps current remaining := by
  rw [weightedFillIn, weightedFill, weightedFillWith, weightedFillWith,
    insertionSort_of_perm ((orders.caps.perm _).filter fun id => current id < caps id)]

theorem allocateLedgerIn_eq (demands : String → ℤ) (inputBudget : ℤ) :
    allocateLedgerIn ar definition orders demands inputBudget =
      allocateLedger ar definition demands inputBudget := by
  simp only [allocateLedgerIn, allocateLedger, sum_iterate, weightedFillIn_eq, List.map_map]
  rfl

theorem allocateIn_eq (demands : String → ℤ) (layoutHash : String) (inputBudget : ℤ) :
    allocateIn ar definition orders demands layoutHash inputBudget =
      allocate ar definition demands layoutHash inputBudget := by
  rw [allocateIn, allocateLedgerIn_eq]
  rfl

theorem admitRequestIn_eq (P : Platform) (arena : ContextLeaseArena F)
    (request : PrepareRequest F) (counter : Option TokenCounter) (multiplier : F) :
    admitRequestIn P arena orders request counter multiplier =
      admitRequest P arena request counter multiplier := by
  simp only [admitRequestIn, admitRequest, allocateIn_eq]

/-- Of the orders a call meets only that of the active leases can make a difference. -/
theorem prepareIn_eq (P : Platform) (arena : ContextLeaseArena F) (clock : Clock)
    (request : PrepareRequest F) (counter : Option TokenCounter) (s : ArenaState F) :
    prepareIn P arena clock orders request counter s =
      prepare P arena (clock.env orders) request counter s := by
  simp only [prepareIn, admitRequestIn_eq]
  rfl

end Orders

end ContextLease
