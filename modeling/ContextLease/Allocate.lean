/-
The allocator.

`allocate` gives every module its floor as far as it asks for it, fills the modules up to their
targets in weighted rounds, and lends what is left to the modules that ask for more: first from
the unused targets of the modules that lend, then from the slack nobody's target accounts for.

Main definitions:

* `fillRound`, `fillRounds`, `weightedFillWith` — the weighted rounds, for any share of a round;
  `weightedFill` takes the share of the source;
* `Grant`, `Borrowing` — the grants of the borrowing phase and the ledgers it moves;
* `borrowFromDonors`, `borrowFromSlack`, `borrow` — the borrowing phase;
* `allocateLedger`, `allocate` — the allocator, before and after its ledgers are packed into
  allocations and leases.
-/

import ContextLease.Validate
import ContextLease.Ledger
import Mathlib.Data.List.Sort

set_option relaxedAutoImplicit false
set_option autoImplicit false

namespace ContextLease

open MachineNumbers

/-- The source's `*ledger.get_mut(id).unwrap() += amount`. -/
def addTo (ar : Arith) (ledger : String → ℤ) (id : String) (amount : ℤ) : String → ℤ :=
  Function.update ledger id (ar.add (ledger id) amount)

/-! ### Weighted rounds -/

/-- The ledgers of a weighted round. -/
structure Fill where
  current : String → ℤ
  remaining : ℤ
  progressed : ℤ

section Rounds

variable (ar : Arith) (caps : String → ℤ)

/-- One grant of a round to the module `id`. -/
def Fill.grant (share : String → ℤ) (id : String) (st : Fill) : Fill :=
  let capacity := ar.sub (caps id) (st.current id)
  let grant := min (min capacity (max (share id) 1)) st.remaining
  { current := addTo ar st.current id grant
    remaining := ar.sub st.remaining grant
    progressed := ar.add st.progressed grant }

/-- The `for` loop of a round. -/
def fillRound (share : String → ℤ) : List String → Fill → Fill
  | [], st => st
  | id :: rest, st =>
      let st := st.grant ar caps share id
      if st.remaining = 0 then st else fillRound share rest st

/-- The `while` loop of `weighted_fill`; `share` is the share of a module in a round, given the
tokens of the round and the modules that take part.  Every round grants at least one token, so a
fuel of `remaining` rounds is never used up. -/
def fillRounds (share : ℤ → List String → String → ℤ) :
    ℕ → List String → (String → ℤ) → ℤ → (String → ℤ) × ℤ
  | 0, _, current, remaining => (current, remaining)
  | fuel + 1, active, current, remaining =>
      if 0 < remaining ∧ active ≠ [] then
        let st := fillRound ar caps (share remaining active) active ⟨current, remaining, 0⟩
        let active := active.filter fun id => st.current id < caps id
        if st.progressed = 0 then (st.current, st.remaining)
        else fillRounds share fuel active st.current st.remaining
      else (current, remaining)

/-- The source's `weighted_fill`, for any share: the ledger after the rounds, and what remains. -/
def weightedFillWith (share : ℤ → List String → String → ℤ) (ids : List String)
    (current : String → ℤ) (remaining : ℤ) : (String → ℤ) × ℤ :=
  fillRounds ar caps share remaining.toNat
    ((ids.filter fun id => current id < caps id).insertionSort (· ≤ ·)) current remaining

end Rounds

variable {F : Type}

/-- The value of a per-module table at the module of an id. -/
def perModule {V : Type} (definition : ArenaDefinition F) (table : ModuleDefinition F → V)
    (missing : V) (id : String) : V :=
  match definition.modules.find? fun m => m.moduleId == id with
  | some m => table m
  | none => missing

section Weights

variable [FloatOps F]

/-- The source's `((round as f64 * weight / total) as i32)`. -/
def weightedShare (ar : Arith) (definition : ArenaDefinition F) (round : ℤ)
    (active : List String) (id : String) : ℤ :=
  let weights := perModule definition ModuleDefinition.weight (FloatOps.ofInt 0)
  let total := active.foldl (fun sum id => FloatOps.add sum (weights id)) (FloatOps.ofInt 0)
  ar.saturate (FloatOps.toInt
    (FloatOps.div (FloatOps.mul (FloatOps.ofInt round) (weights id)) total))

/-- The source's `weighted_fill`. -/
def weightedFill (ar : Arith) (definition : ArenaDefinition F) (caps current : String → ℤ)
    (remaining : ℤ) : (String → ℤ) × ℤ :=
  weightedFillWith ar caps (weightedShare ar definition)
    (definition.modules.map ModuleDefinition.moduleId) current remaining

end Weights

/-! ### Borrowing -/

/-- Who lends: a module out of its unused target, or the arena out of its slack. -/
inductive Donor
  | module (id : String)
  | arenaSlack
  deriving DecidableEq

/-- The source's name for a donor. -/
def Donor.name : Donor → String
  | .module id => id
  | .arenaSlack => "__arena_slack__"

/-- One grant of the borrowing phase. -/
structure Grant (F : Type) where
  donor : Donor
  borrower : ModuleDefinition F
  tokens : ℤ

/-- The source's `lease`. -/
def lease (hash : String) (g : Grant F) : Lease where
  leaseId := hash ++ ":" ++ g.donor.name ++ ":" ++ g.borrower.moduleId
  donorModuleId := g.donor.name
  borrowerModuleId := g.borrower.moduleId
  grantedTokens := g.tokens
  currentlyUsedTokens := g.tokens
  reclaimableTokens := g.tokens
  releasePipeline := g.borrower.reclaimPipeline.map CompressionStepSpec.algorithmId
  state := "active"

/-- The ledgers of the borrowing phase; `grants` are the leases pushed so far. -/
structure Borrowing (F : Type) where
  current : String → ℤ
  borrowed : String → ℤ
  lent : String → ℤ
  remaining : ℤ
  sharedSlack : ℤ
  grants : List (Grant F)

section Borrow

variable (ar : Arith) (borrower : ModuleDefinition F)

/-- Moving `grant` tokens to the borrower. -/
def Borrowing.take (donor : Donor) (grant : ℤ) (b : Borrowing F) : Borrowing F where
  current := addTo ar b.current borrower.moduleId grant
  borrowed := addTo ar b.borrowed borrower.moduleId grant
  lent :=
    match donor with
    | .module id => addTo ar b.lent id grant
    | .arenaSlack => b.lent
  remaining := ar.sub b.remaining grant
  sharedSlack :=
    match donor with
    | .module _ => b.sharedSlack
    | .arenaSlack => ar.sub b.sharedSlack grant
  grants := b.grants ++ [⟨donor, borrower, grant⟩]

/-- The donor loop of one borrower: `visited` are the donors the loop has passed. -/
def borrowFromDonors :
    List (String × ℤ) → List (String × ℤ) → ℤ → Borrowing F →
      List (String × ℤ) × ℤ × Borrowing F
  | visited, [], need, b => (visited, need, b)
  | visited, (donorId, available) :: donors, need, b =>
      -- the loop breaks here, and skips a donor below
      if need ≤ 0 ∨ b.remaining ≤ 0 then (visited ++ (donorId, available) :: donors, need, b)
      else if donorId = borrower.moduleId ∨ available ≤ 0 then
        borrowFromDonors (visited ++ [(donorId, available)]) donors need b
      else
        let grant := min (min need available) b.remaining
        borrowFromDonors (visited ++ [(donorId, ar.sub available grant)]) donors
          (ar.sub need grant) (b.take ar borrower (.module donorId) grant)

/-- The slack step of one borrower. -/
def borrowFromSlack (need : ℤ) (b : Borrowing F) : Borrowing F :=
  if 0 < need ∧ 0 < b.sharedSlack ∧ 0 < b.remaining then
    b.take ar borrower .arenaSlack (min (min need b.sharedSlack) b.remaining)
  else b

/-- The body of the borrower loop. -/
def borrowFor (demands : String → ℤ) (donors : List (String × ℤ)) (b : Borrowing F) :
    List (String × ℤ) × Borrowing F :=
  let need := ar.sub (min (demands borrower.moduleId) borrower.maxTokens)
    (b.current borrower.moduleId)
  let pass := borrowFromDonors ar borrower [] donors need b
  (pass.1, borrowFromSlack ar borrower pass.2.1 pass.2.2)

end Borrow

/-- The borrower loop. -/
def borrow (ar : Arith) (demands : String → ℤ) :
    List (ModuleDefinition F) → List (String × ℤ) → Borrowing F → Borrowing F
  | [], _, b => b
  | borrower :: borrowers, donors, b =>
      let pass := borrowFor ar borrower demands donors b
      borrow ar demands borrowers pass.1 pass.2

/-! ### The allocator -/

section Allocator

variable [FloatOps F]

/-- The order of the borrowers: weight descending, then order, then id. -/
def borrowsBefore (a b : ModuleDefinition F) : Prop :=
  FloatOps.lt b.weight a.weight = true ∨ (FloatOps.lt a.weight b.weight = false ∧
    (a.order < b.order ∨ (a.order = b.order ∧ a.moduleId ≤ b.moduleId)))

instance (a b : ModuleDefinition F) : Decidable (borrowsBefore a b) :=
  inferInstanceAs (Decidable (_ ∨ (_ ∧ _)))

end Allocator

/-- The order of the modules: by order, then id. -/
def rendersBefore (a b : ModuleDefinition F) : Prop :=
  a.order < b.order ∨ (a.order = b.order ∧ a.moduleId ≤ b.moduleId)

instance (a b : ModuleDefinition F) : Decidable (rendersBefore a b) :=
  inferInstanceAs (Decidable (_ ∨ (_ ∧ _)))

/-- The modules by order, then id. -/
def orderedModules (definition : ArenaDefinition F) : List (ModuleDefinition F) :=
  definition.modules.insertionSort rendersBefore

section Allocator

variable (ar : Arith) (definition : ArenaDefinition F) (demands : String → ℤ)

/-- What a module gets of its floor. -/
def initialCurrent : String → ℤ :=
  perModule definition (fun m => min m.floorTokens (demands m.moduleId)) 0

/-- What a module is filled up to. -/
def targetCaps : String → ℤ :=
  perModule definition (fun m => min m.targetTokens (demands m.moduleId)) 0

/-- The donors, by id, with their unused targets. -/
def donorsOf (current : String → ℤ) : List (String × ℤ) :=
  (((definition.modules.filter ModuleDefinition.canLend).map fun m =>
    (m.moduleId, max (ar.sub m.targetTokens (current m.moduleId)) 0)).filter
      fun d => d.2 > 0).insertionSort fun a b => a.1 ≤ b.1

variable [FloatOps F]

/-- The borrowers, in the order they are served. -/
def borrowersOf (current : String → ℤ) : List (ModuleDefinition F) :=
  (definition.modules.filter fun m =>
    m.canBorrow && decide (demands m.moduleId > m.targetTokens) &&
      decide (current m.moduleId < m.maxTokens)).insertionSort borrowsBefore

/-- The ledgers of `allocate` when its loops have ended. -/
def allocateLedger (inputBudget : ℤ) : Result (Borrowing F) :=
  let available := ar.sub inputBudget definition.frameworkReserveTokens
  let current := initialCurrent definition demands
  let remaining := ar.sub available
    (ar.sum (definition.modules.map fun m => current m.moduleId))
  if remaining < 0 then fail "layout_validation_error" "module floors exceed budget"
  else
    let filled := weightedFill ar definition (targetCaps definition demands) current remaining
    let donors := donorsOf ar definition filled.1
    -- what the donors offer is not lent a second time as slack
    let donorTotal := ar.sum (donors.map Prod.snd)
    .ok (borrow ar demands (borrowersOf definition demands filled.1) donors
      { current := filled.1
        borrowed := fun _ => 0
        lent := fun _ => 0
        remaining := filled.2
        sharedSlack := max (ar.sub filled.2 donorTotal) 0
        grants := [] })

/-- The allocation of a module. -/
def moduleAllocation (b : Borrowing F) (m : ModuleDefinition F) : ModuleAllocation where
  moduleId := m.moduleId
  floorTokens := m.floorTokens
  targetTokens := m.targetTokens
  maxTokens := m.maxTokens
  demandedTokens := demands m.moduleId
  allocatedTokens := b.current m.moduleId
  localCapacityTokens := max (ar.sub (b.current m.moduleId) (b.borrowed m.moduleId)) 0
  borrowedCapacityTokens := b.borrowed m.moduleId
  lentCapacityTokens := b.lent m.moduleId

/-- The source's `allocate`. -/
def allocate (layoutHash : String) (inputBudget : ℤ) :
    Result (List ModuleAllocation × List Lease) :=
  match allocateLedger ar definition demands inputBudget with
  | .ok b =>
      .ok ((orderedModules definition).map (moduleAllocation ar demands b),
        b.grants.map (lease layoutHash))
  | .error e => .error e

end Allocator

/-! ### Per-module tables -/

/-- A per-module table is read at the id of its module. -/
theorem perModule_apply {V : Type} {definition : ArenaDefinition F}
    (hnodup : (definition.modules.map ModuleDefinition.moduleId).Nodup)
    (table : ModuleDefinition F → V) (missing : V) {m : ModuleDefinition F}
    (hm : m ∈ definition.modules) :
    perModule definition table missing m.moduleId = table m := by
  unfold perModule
  have hfind : definition.modules.find? (fun m' => m'.moduleId == m.moduleId) = some m := by
    generalize definition.modules = ms at hnodup hm
    induction ms with
    | nil => simp at hm
    | cons a ms ih =>
        rw [List.map_cons, List.nodup_cons] at hnodup
        rcases List.mem_cons.1 hm with rfl | hm
        · simp
        · have hne : a.moduleId ≠ m.moduleId := fun heq =>
            hnodup.1 (heq ▸ List.mem_map_of_mem hm)
          rw [List.find?_cons_of_neg (by simpa using hne)]
          exact ih hnodup.2 hm
  rw [hfind]

/-- A module is determined by its id. -/
theorem eq_of_moduleId_eq {ms : List (ModuleDefinition F)}
    (hnodup : (ms.map ModuleDefinition.moduleId).Nodup) {m m' : ModuleDefinition F}
    (hm : m ∈ ms) (hm' : m' ∈ ms) (h : m.moduleId = m'.moduleId) : m = m' :=
  List.inj_on_of_nodup_map hnodup hm hm' h

theorem orderedModules_perm (definition : ArenaDefinition F) :
    (orderedModules definition).Perm definition.modules := List.perm_insertionSort rendersBefore _

theorem mem_orderedModules {definition : ArenaDefinition F} {m : ModuleDefinition F} :
    m ∈ orderedModules definition ↔ m ∈ definition.modules :=
  (orderedModules_perm definition).mem_iff

end ContextLease
