/-
The weighted rounds, whatever the shares are.

The share of a round is a floating-point expression; nothing here depends on its value, because a
grant is clamped between one token and the capacity and the tokens that are left.  So the rounds
conserve tokens, fill no module beyond its cap, and end with no tokens left or every module at
its cap: they are the loop, from ledgers that are not negative.

Main definitions:

* `FillResult` — what the rounds establish.

Main results:

* `weightedFillWith_result` — the rounds end, and what they establish.
-/

import ContextLease.FillLoop

set_option relaxedAutoImplicit false
set_option autoImplicit false

namespace ContextLease

open MachineNumbers

/-- What the rounds establish, from a ledger `current` and `remaining` tokens. -/
structure FillResult (ids : List String) (caps current : String → ℤ) (remaining : ℤ)
    (result : (String → ℤ) × ℤ) : Prop where
  remaining_nonneg : 0 ≤ result.2
  remaining_le : result.2 ≤ remaining
  total_add : Ledger.total ids result.1 + result.2 = Ledger.total ids current + remaining
  le_current : ∀ id, current id ≤ result.1 id
  current_le : ∀ id ∈ ids, result.1 id ≤ caps id
  /-- The rounds end with no tokens left or every module at its cap. -/
  exhausted : result.2 = 0 ∨ ∀ id ∈ ids, result.1 id = caps id

section Rounds

variable {ar : Arith} {ids : List String} {caps : String → ℤ} (hnodup : ids.Nodup)
  (hcaps : ∀ id ∈ ids, ar.Fits (caps id))

include hnodup hcaps

/-- The rounds end, and what they establish, for any shares. -/
theorem weightedFillWith_result (share : ℤ → List String → String → ℤ) {current : String → ℤ}
    {remaining : ℤ} (hremaining : 0 ≤ remaining) (hfits : ar.Fits remaining)
    (hnonneg : ∀ id ∈ ids, 0 ≤ current id) (hle : ∀ id ∈ ids, current id ≤ caps id) :
    FillResult ids caps current remaining
      (weightedFillWith ar caps share ids current remaining) := by
  -- a ledger that is not negative leaves the room of a cap at most
  have hroom : RoomFits ar ids caps current :=
    { fits_start := fun id hid => (hcaps id hid).ofNonneg (hnonneg id hid) (hle id hid)
      fits_cap := hcaps
      fits_room := fun id hid => (hcaps id hid).ofNonneg (sub_nonneg.2 (hle id hid))
        (sub_le_self _ (hnonneg id hid)) }
  have hstart := LoopInv.start hremaining hle
  obtain ⟨n, hends⟩ := exists_loopEnds hnodup hroom hfits hremaining hle
    fun _ s => share s.remaining s.active
  obtain ⟨hinv, hleft⟩ := hstart.after hnodup hroom hfits _ hends.runs
  rw [hends.weightedFillWith_eq fun _ _ => rfl]
  exact
    { remaining_nonneg := hinv.remaining_nonneg
      remaining_le := le_of_add_le_of_nonneg_left hleft (Nat.cast_nonneg n)
      total_add := hends.total_add
      le_current := hstart.current_le_after hnodup hroom hfits _ hends.runs
      current_le := hends.current_le
      exhausted := hends.exhausted }

end Rounds

end ContextLease
