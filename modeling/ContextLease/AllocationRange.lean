/-
The range of the allocations.

Every number that the allocator writes into its ledger comes out of an addition, so it is an
integer of the machine whatever the additions have done before; and what the ledger starts from lies
between zero and a floor.

Main definitions:

* `InRange` — a ledger of machine integers.

Main results:

* `InRange.weightedFill`, `InRange.borrow` — the two phases of the allocator keep a ledger in range;
* `Admitted.fits_allocated` — the allocations of an admitted request are in range.
-/

import ContextLease.BudgetSafety
import ContextLease.AdmissionSpec

set_option relaxedAutoImplicit false
set_option autoImplicit false

namespace ContextLease

open MachineNumbers RustText

variable {F : Type} {ar : Arith}

/-- A ledger of machine integers. -/
def InRange (ar : Arith) (ledger : String → ℤ) : Prop := ∀ id, ar.Fits (ledger id)

theorem InRange.addTo {ledger : String → ℤ} (h : InRange ar ledger) (id : String) (amount : ℤ) :
    InRange ar (addTo ar ledger id amount) := by
  intro id'
  by_cases hid : id' = id
  · subst hid
    rw [ContextLease.addTo, Function.update_self]
    exact ar.fits_norm _
  · rw [ContextLease.addTo, Function.update_of_ne hid]
    exact h id'

/-! ### The two phases -/

theorem InRange.fillRound {caps share : String → ℤ} (l : List String) (st : Fill)
    (h : InRange ar st.current) : InRange ar (fillRound ar caps share l st).current := by
  induction l generalizing st with
  | nil => exact h
  | cons id l ih =>
      rw [ContextLease.fillRound]
      split
      · exact h.addTo id _
      · exact ih _ (h.addTo id _)

theorem InRange.fillRounds {caps : String → ℤ} {share : ℤ → List String → String → ℤ} {fuel : ℕ}
    {active : List String} {current : String → ℤ} {remaining : ℤ} (h : InRange ar current) :
    InRange ar (fillRounds ar caps share fuel active current remaining).1 := by
  induction fuel generalizing active current remaining with
  | zero => exact h
  | succ fuel ih =>
      rw [ContextLease.fillRounds]
      split
      · simp only
        split
        · exact InRange.fillRound active ⟨current, remaining, 0⟩ h
        · exact ih (InRange.fillRound active ⟨current, remaining, 0⟩ h)
      · exact h

variable {borrower : ModuleDefinition F}

theorem InRange.borrowFromDonors {visited donors : List (String × ℤ)} {need : ℤ} {b : Borrowing F}
    (h : InRange ar b.current) :
    InRange ar (borrowFromDonors ar borrower visited donors need b).2.2.current := by
  induction donors generalizing visited need b with
  | nil => exact h
  | cons donor donors ih =>
      obtain ⟨donorId, available⟩ := donor
      rw [ContextLease.borrowFromDonors]
      split
      · exact h
      · split
        · exact ih h
        · exact ih (h.addTo borrower.moduleId _)

theorem InRange.borrowFromSlack {need : ℤ} {b : Borrowing F} (h : InRange ar b.current) :
    InRange ar (borrowFromSlack ar borrower need b).current := by
  rw [ContextLease.borrowFromSlack]
  split
  · exact h.addTo borrower.moduleId _
  · exact h

theorem InRange.borrow {demands : String → ℤ} {borrowers : List (ModuleDefinition F)}
    {donors : List (String × ℤ)} {b : Borrowing F} (h : InRange ar b.current) :
    InRange ar (borrow ar demands borrowers donors b).current := by
  induction borrowers generalizing donors b with
  | nil => exact h
  | cons borrower borrowers ih => exact ih (InRange.borrowFromSlack h.borrowFromDonors)

/-! ### Allocations -/

/-- A ledger starts between zero and the floors. -/
theorem InRange.initialCurrent {definition : ArenaDefinition F} (htyped : definition.Typed ar)
    (hfloors : ∀ m ∈ definition.modules, 0 ≤ m.floorTokens) {demands : String → ℤ}
    (hdemands : ∀ id, 0 ≤ demands id) : InRange ar (initialCurrent definition demands) := by
  intro id
  rw [ContextLease.initialCurrent, perModule]
  split
  · rename_i m hm
    have hmem := List.mem_of_find?_eq_some hm
    have hfloor := hfloors m hmem
    have hdemand := hdemands m.moduleId
    exact (htyped.tokens m hmem).1.ofNonneg (by omega) (min_le_left ..)
  · exact ar.fits_zero

variable [FloatOps F]

section Admitted

variable {P : Platform} {arena : ContextLeaseArena F} {request : PrepareRequest F}
  {counter : Option TokenCounter} {multiplier : F} {a : Admission F}

/-- The allocations of an admitted request are read off a ledger of machine integers. -/
theorem Admitted.ledger (h : Admitted P arena request counter multiplier a)
    (htyped : arena.definition.Typed P.arith) :
    ∃ b : Borrowing F, InRange P.arith b.current ∧ a.allocations =
      (orderedModules arena.definition).map (moduleAllocation P.arith a.demands b) := by
  have hfloors : ∀ m ∈ arena.definition.modules, 0 ≤ m.floorTokens :=
    fun m hm => (arena.validDefinition.valid m hm).floor_nonneg
  have hstart : InRange P.arith (initialCurrent arena.definition a.demands) :=
    InRange.initialCurrent htyped hfloors h.demands_nonneg
  have hallocated := h.allocated
  rw [allocate] at hallocated
  split at hallocated
  · rename_i b hledger
    obtain ⟨hallocations, -⟩ := Prod.mk.inj (Except.ok.inj hallocated)
    refine ⟨b, ?_, hallocations.symm⟩
    rw [allocateLedger] at hledger
    simp only at hledger
    split at hledger
    · cases hledger
    · obtain rfl := Except.ok.inj hledger
      exact InRange.borrow (InRange.fillRounds hstart)
  · cases hallocated

variable (h : Admitted P arena request counter multiplier a)
  (htyped : arena.definition.Typed P.arith)
include h htyped

/-- The allocations of an admitted request are in range. -/
theorem Admitted.fits_allocated {m : ModuleDefinition F} (hm : m ∈ arena.definition.modules) :
    P.arith.Fits (allocationOf a.allocations m).allocatedTokens := by
  obtain ⟨b, hb, hallocations⟩ := h.ledger htyped
  rw [hallocations, allocationOf_eq arena.validDefinition.ids_nodup hm]
  exact hb m.moduleId

/-- The allocation of a module carries its id. -/
theorem Admitted.allocation_moduleId {m : ModuleDefinition F}
    (hm : m ∈ arena.definition.modules) :
    (allocationOf a.allocations m).moduleId = m.moduleId := by
  obtain ⟨b, -, hallocations⟩ := h.ledger htyped
  rw [hallocations, allocationOf_eq arena.validDefinition.ids_nodup hm]
  rfl

/-- The allocations of an admitted request are those of the modules, in their order. -/
theorem Admitted.allocations_eq :
    a.allocations = (orderedModules arena.definition).map (allocationOf a.allocations) := by
  obtain ⟨b, -, hallocations⟩ := h.ledger htyped
  rw [hallocations]
  exact List.map_congr_left fun m hm =>
    (allocationOf_eq arena.validDefinition.ids_nodup (mem_orderedModules.1 hm)).symm

end Admitted

end ContextLease
