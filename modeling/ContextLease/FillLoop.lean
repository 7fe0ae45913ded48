/-
The loop of the weighted rounds, whatever the shares are.

A pass of the loop gives every active module a share of the tokens that are left.  The share is a
floating-point expression, and nothing here depends on its value: it may be another one for every
module and in every pass, because a grant is at least one token as long as the module is below its
cap and a token is left.  So every pass makes progress, and the loop ends with no tokens left or
every module at its cap.

Main definitions:

* `FillLoop` — the variables of the `while` loop, with `FillLoop.pass`, `FillLoop.next` and
  `FillLoop.after` — one pass, and the state after some passes;
* `RoomFits` — the differences that the loop computes are representable;
* `PassInv`, `LoopInv` — what every state of a pass and of the loop satisfies.

Main results:

* `PassInv.grant`, `PassInv.fillRound`, `LoopInv.next`, `LoopInv.after` — the invariants are kept;
* `fillRounds_eq_after` — the rounds are the passes up to the end of the loop;
* `exists_loopEnds` — the loop ends, and how;
* `weighted_fill_ends` — and what `weighted_fill` returns.
-/

import ContextLease.Allocate

set_option relaxedAutoImplicit false
set_option autoImplicit false

namespace ContextLease

open MachineNumbers

/-- In range, adding to a ledger credits it. -/
theorem addTo_of_fits {ar : Arith} {ledger : String → ℤ} {id : String} {amount : ℤ}
    (h : ar.Fits (ledger id + amount)) :
    addTo ar ledger id amount = Ledger.credit ledger id amount := by
  rw [addTo, Ledger.credit, Arith.add_of_fits h]

/-! ### The loop -/

/-- The variables of the `while` loop. -/
structure FillLoop where
  active : List String
  current : String → ℤ
  remaining : ℤ

/-- The condition of the loop. -/
def FillLoop.Runs (s : FillLoop) : Prop := 0 < s.remaining ∧ s.active ≠ []

section Loop

variable (ar : Arith) (caps : String → ℤ)

/-- The `for` loop of a pass. -/
def FillLoop.pass (share : String → ℤ) (s : FillLoop) : Fill :=
  fillRound ar caps share s.active ⟨s.current, s.remaining, 0⟩

/-- The variables after a pass. -/
def FillLoop.next (share : String → ℤ) (s : FillLoop) : FillLoop where
  active := s.active.filter fun id => (s.pass ar caps share).current id < caps id
  current := (s.pass ar caps share).current
  remaining := (s.pass ar caps share).remaining

/-- The variables after `n` passes; the shares of a pass may be any values. -/
def FillLoop.after (share : ℕ → FillLoop → String → ℤ) (s : FillLoop) : ℕ → FillLoop
  | 0 => s
  | n + 1 => (after share s n).next ar caps (share n (after share s n))

end Loop

/-- The loop starts with the modules that are below their caps. -/
def FillLoop.start (ids : List String) (caps current : String → ℤ) (remaining : ℤ) : FillLoop where
  active := (ids.filter fun id => current id < caps id).insertionSort (· ≤ ·)
  current := current
  remaining := remaining

/-! ### A pass -/

/-- What a module starts with, its cap and the room in between are representable. -/
structure RoomFits (ar : Arith) (ids : List String) (caps start : String → ℤ) : Prop where
  fits_start : ∀ id ∈ ids, ar.Fits (start id)
  fits_cap : ∀ id ∈ ids, ar.Fits (caps id)
  fits_room : ∀ id ∈ ids, ar.Fits (caps id - start id)

/-- What every state of a pass satisfies; `round` are the tokens the pass started with, and
`available` those of the ledger and the pass together. -/
structure PassInv (ids : List String) (caps start : String → ℤ) (round available : ℤ) (st : Fill) :
    Prop where
  remaining_nonneg : 0 ≤ st.remaining
  progressed_add : st.progressed + st.remaining = round
  progressed_nonneg : 0 ≤ st.progressed
  total_add : Ledger.total ids st.current + st.remaining = available
  start_le : ∀ id ∈ ids, start id ≤ st.current id
  current_le : ∀ id ∈ ids, st.current id ≤ caps id

section Pass

variable {ar : Arith} {ids : List String} {caps start : String → ℤ} {round available : ℤ}
  (hnodup : ids.Nodup) (hroom : RoomFits ar ids caps start) (hround : ar.Fits round)

include hroom hround

/-- The amount of a grant, and the state after it. -/
theorem PassInv.grant_eq {st : Fill} (h : PassInv ids caps start round available st)
    (share : String → ℤ) {id : String} (hid : id ∈ ids) :
    ∃ g, g = min (min (caps id - st.current id) (max (share id) 1)) st.remaining ∧ 0 ≤ g ∧
      (st.grant ar caps share id).current = Ledger.credit st.current id g ∧
      (st.grant ar caps share id).remaining = st.remaining - g ∧
      (st.grant ar caps share id).progressed = st.progressed + g := by
  have h₁ := h.remaining_nonneg
  have h₂ := h.progressed_add
  have h₃ := h.progressed_nonneg
  have h₄ := h.start_le id hid
  have h₅ := h.current_le id hid
  have hcapacity : ar.sub (caps id) (st.current id) = caps id - st.current id :=
    Arith.sub_of_fits ((hroom.fits_room id hid).ofNonneg (by omega) (by omega))
  refine ⟨_, rfl, by omega, ?_, ?_, ?_⟩
  · simp only [Fill.grant, hcapacity]
    exact addTo_of_fits ((hroom.fits_start id hid).between (hroom.fits_cap id hid) (by omega)
      (by omega))
  · simp only [Fill.grant, hcapacity]
    exact Arith.sub_of_fits (hround.ofNonneg (by omega) (by omega))
  · simp only [Fill.grant, hcapacity]
    exact Arith.add_of_fits (hround.ofNonneg (by omega) (by omega))

include hnodup

/-- A grant keeps the invariant. -/
theorem PassInv.grant {st : Fill} (h : PassInv ids caps start round available st)
    (share : String → ℤ) {id : String} (hid : id ∈ ids) :
    PassInv ids caps start round available (st.grant ar caps share id) := by
  obtain ⟨g, hg, hg0, hcurrent, hremaining, hprogressed⟩ := h.grant_eq hroom hround share hid
  have h₁ := h.remaining_nonneg
  have h₂ := h.progressed_add
  have h₃ := h.progressed_nonneg
  have h₄ := h.total_add
  refine ⟨by omega, by omega, by omega, ?_, ?_, ?_⟩
  · rw [hcurrent, Ledger.total_credit hnodup _ _ hid]
    omega
  · intro id' hid'
    rw [hcurrent]
    exact (h.start_le id' hid').trans (Ledger.le_credit _ _ _ hg0)
  · intro id' hid'
    rw [hcurrent]
    by_cases heq : id' = id
    · subst heq
      rw [Ledger.credit_self]
      omega
    · rw [Ledger.credit_of_ne _ _ heq]
      exact h.current_le id' hid'

/-- A pass keeps the invariant, and only adds to the ledger. -/
theorem PassInv.fillRound {st : Fill} (h : PassInv ids caps start round available st)
    (share : String → ℤ) {l : List String} (hl : ∀ id ∈ l, id ∈ ids) :
    PassInv ids caps start round available (fillRound ar caps share l st) ∧
      (fillRound ar caps share l st).remaining ≤ st.remaining ∧
      ∀ id, st.current id ≤ (fillRound ar caps share l st).current id := by
  induction l generalizing st with
  | nil => exact ⟨h, le_refl _, fun _ => le_refl _⟩
  | cons a l ih =>
      have ha : a ∈ ids := hl a (List.mem_cons_self ..)
      obtain ⟨g, -, hg0, hcurrent, hremaining, -⟩ := h.grant_eq hroom hround share ha
      have hstep := h.grant hnodup hroom hround share ha
      have hmono : ∀ id, st.current id ≤ (st.grant ar caps share a).current id := by
        intro id
        rw [hcurrent]
        exact Ledger.le_credit _ _ _ hg0
      simp only [ContextLease.fillRound]
      split
      · exact ⟨hstep, by omega, hmono⟩
      · obtain ⟨h₁, h₂, h₃⟩ := ih hstep fun id hid => hl id (List.mem_cons_of_mem _ hid)
        exact ⟨h₁, by omega, fun id => (hmono id).trans (h₃ id)⟩

/-- A pass that starts with a module below its cap and tokens left grants at least one token. -/
theorem PassInv.fillRound_lt {st : Fill} (h : PassInv ids caps start round available st)
    (share : String → ℤ) {a : String} {l : List String} (hl : ∀ id ∈ a :: l, id ∈ ids)
    (hbelow : st.current a < caps a) (hpos : 0 < st.remaining) :
    (ContextLease.fillRound ar caps share (a :: l) st).remaining < st.remaining := by
  have ha : a ∈ ids := hl a (List.mem_cons_self ..)
  obtain ⟨g, hg, -, -, hremaining, -⟩ := h.grant_eq hroom hround share ha
  have hstep := h.grant hnodup hroom hround share ha
  simp only [ContextLease.fillRound]
  split
  · omega
  · have := (hstep.fillRound hnodup hroom hround share
      fun id hid => hl id (List.mem_cons_of_mem _ hid)).2.1
    omega

end Pass

/-! ### The passes -/

/-- What every state of the loop satisfies, from a ledger `current` and `remaining` tokens. -/
structure LoopInv (ids : List String) (caps current : String → ℤ) (remaining : ℤ) (s : FillLoop) :
    Prop where
  remaining_nonneg : 0 ≤ s.remaining
  total_add : Ledger.total ids s.current + s.remaining = Ledger.total ids current + remaining
  le_current : ∀ id ∈ ids, current id ≤ s.current id
  current_le : ∀ id ∈ ids, s.current id ≤ caps id
  active_iff : ∀ id, id ∈ s.active ↔ id ∈ ids ∧ s.current id < caps id

/-- The loop starts with the invariant. -/
theorem LoopInv.start {ids : List String} {caps current : String → ℤ} {remaining : ℤ}
    (hremaining : 0 ≤ remaining) (hle : ∀ id ∈ ids, current id ≤ caps id) :
    LoopInv ids caps current remaining (FillLoop.start ids caps current remaining) where
  remaining_nonneg := hremaining
  total_add := rfl
  le_current _ _ := le_refl _
  current_le := hle
  active_iff id := by
    rw [FillLoop.start, (List.perm_insertionSort _ _).mem_iff, List.mem_filter, decide_eq_true_eq]

/-- When the loop stops, no tokens are left or every module is at its cap. -/
theorem LoopInv.exhausted {ids : List String} {caps current : String → ℤ} {remaining : ℤ}
    {s : FillLoop} (h : LoopInv ids caps current remaining s) (hstop : ¬ s.Runs) :
    s.remaining = 0 ∨ ∀ id ∈ ids, s.current id = caps id := by
  rcases h.remaining_nonneg.eq_or_lt with hzero | hpos
  · exact Or.inl hzero.symm
  · right
    intro id hid
    have hnil : s.active = [] := by
      by_contra hne
      exact hstop ⟨hpos, hne⟩
    have hnot : ¬ s.current id < caps id := by
      intro hlt
      have hmem := (h.active_iff id).2 ⟨hid, hlt⟩
      rw [hnil] at hmem
      cases hmem
    exact le_antisymm (h.current_le id hid) (not_lt.1 hnot)

section Passes

variable {ar : Arith} {ids : List String} {caps current : String → ℤ} {remaining : ℤ}
  (hnodup : ids.Nodup) (hroom : RoomFits ar ids caps current)

include hnodup hroom

/-- A pass starts and ends with the invariant of its own, and only adds to the ledger. -/
theorem LoopInv.pass {s : FillLoop} (h : LoopInv ids caps current remaining s)
    (hfits : ar.Fits s.remaining) (share : String → ℤ) :
    PassInv ids caps current s.remaining (Ledger.total ids current + remaining)
        ⟨s.current, s.remaining, 0⟩ ∧
      PassInv ids caps current s.remaining (Ledger.total ids current + remaining)
        (s.pass ar caps share) ∧
      ∀ id, s.current id ≤ (s.pass ar caps share).current id := by
  have hinv : PassInv ids caps current s.remaining (Ledger.total ids current + remaining)
      ⟨s.current, s.remaining, 0⟩ :=
    ⟨h.remaining_nonneg, zero_add _, le_refl _, h.total_add, h.le_current, h.current_le⟩
  obtain ⟨hst, -, hmono⟩ := hinv.fillRound hnodup hroom hfits share
    fun id hid => ((h.active_iff id).1 hid).1
  exact ⟨hinv, hst, hmono⟩

/-- A pass keeps the invariant, and grants at least one token. -/
theorem LoopInv.next {s : FillLoop} (h : LoopInv ids caps current remaining s)
    (hfits : ar.Fits s.remaining) (hruns : s.Runs) (share : String → ℤ) :
    LoopInv ids caps current remaining (s.next ar caps share) ∧
      (s.next ar caps share).remaining < s.remaining ∧ (s.pass ar caps share).progressed ≠ 0 := by
  obtain ⟨hpos, hne⟩ := hruns
  have hl : ∀ id ∈ s.active, id ∈ ids := fun id hid => ((h.active_iff id).1 hid).1
  obtain ⟨hinv, hst, hmono⟩ := h.pass hnodup hroom hfits share
  -- the first active module is below its cap, so the pass grants something
  have hlt : (s.pass ar caps share).remaining < s.remaining := by
    obtain ⟨a, l, hactive⟩ := List.exists_cons_of_ne_nil hne
    have hbelow := ((h.active_iff a).1 (hactive ▸ List.mem_cons_self ..)).2
    rw [FillLoop.pass, hactive]
    exact hinv.fillRound_lt hnodup hroom hfits share (hactive ▸ hl) hbelow hpos
  refine ⟨⟨hst.remaining_nonneg, hst.total_add, hst.start_le, hst.current_le, ?_⟩, hlt, ?_⟩
  · intro id
    rw [FillLoop.next, List.mem_filter, h.active_iff, decide_eq_true_eq]
    constructor
    · rintro ⟨⟨hid, -⟩, hbelow⟩
      exact ⟨hid, hbelow⟩
    · rintro ⟨hid, hbelow⟩
      exact ⟨⟨hid, (hmono id).trans_lt hbelow⟩, hbelow⟩
  · have hadd := hst.progressed_add
    omega

/-- As long as the loop runs, its passes keep the invariant, and each grants at least one token. -/
theorem LoopInv.after {s : FillLoop} (h : LoopInv ids caps current remaining s)
    (hfits : ar.Fits s.remaining) (share : ℕ → FillLoop → String → ℤ) {n : ℕ}
    (hruns : ∀ k < n, (s.after ar caps share k).Runs) :
    LoopInv ids caps current remaining (s.after ar caps share n) ∧
      (s.after ar caps share n).remaining + n ≤ s.remaining := by
  induction n with
  | zero => exact ⟨h, by rw [FillLoop.after]; simp⟩
  | succ n ih =>
      obtain ⟨hinv, hle⟩ := ih fun k hk => hruns k (Nat.lt_succ_of_lt hk)
      have hfits' : ar.Fits (s.after ar caps share n).remaining :=
        hfits.ofNonneg hinv.remaining_nonneg (by omega)
      obtain ⟨hnext, hlt, -⟩ := hinv.next hnodup hroom hfits' (hruns n (Nat.lt_succ_self n))
        (share n (s.after ar caps share n))
      refine ⟨hnext, ?_⟩
      rw [FillLoop.after]
      push_cast
      omega

/-- As long as the loop runs, its passes only add to the ledger, also to what is no module's. -/
theorem LoopInv.current_le_after {s : FillLoop} (h : LoopInv ids caps current remaining s)
    (hfits : ar.Fits s.remaining) (share : ℕ → FillLoop → String → ℤ) {n : ℕ}
    (hruns : ∀ k < n, (s.after ar caps share k).Runs) (id : String) :
    s.current id ≤ (s.after ar caps share n).current id := by
  induction n with
  | zero => exact le_refl _
  | succ n ih =>
      have hruns' : ∀ k < n, (s.after ar caps share k).Runs :=
        fun k hk => hruns k (Nat.lt_succ_of_lt hk)
      obtain ⟨hinv, hle⟩ := h.after hnodup hroom hfits share hruns'
      have hfits' : ar.Fits (s.after ar caps share n).remaining :=
        hfits.ofNonneg hinv.remaining_nonneg (by omega)
      obtain ⟨-, -, hmono⟩ := hinv.pass hnodup hroom hfits' (share n (s.after ar caps share n))
      exact (ih hruns').trans (hmono id)

/-- The loop ends after at most as many passes as there are tokens. -/
theorem LoopInv.exists_stop {s : FillLoop} (h : LoopInv ids caps current remaining s)
    (hfits : ar.Fits s.remaining) (share : ℕ → FillLoop → String → ℤ) :
    ∃ n : ℕ, (n : ℤ) ≤ s.remaining ∧ (∀ k < n, (s.after ar caps share k).Runs) ∧
      ¬ (s.after ar caps share n).Runs := by
  have hstop : ∃ n, ¬ (s.after ar caps share n).Runs := by
    by_contra hnever
    push Not at hnever
    obtain ⟨hinv, hle⟩ := h.after hnodup hroom hfits share (n := s.remaining.toNat + 1)
      fun k _ => hnever k
    have hnonneg := hinv.remaining_nonneg
    push_cast at hle
    omega
  classical
  have hruns : ∀ k < Nat.find hstop, (s.after ar caps share k).Runs :=
    fun k hk => not_not.1 (Nat.find_min hstop hk)
  obtain ⟨hinv, hle⟩ := h.after hnodup hroom hfits share hruns
  have hnonneg := hinv.remaining_nonneg
  exact ⟨Nat.find hstop, by omega, hruns, Nat.find_spec hstop⟩

end Passes

/-- The rounds are the passes up to the end of the loop, when the loop is never broken off. -/
theorem fillRounds_eq_after {ar : Arith} {caps : String → ℤ}
    {chosen : ℤ → List String → String → ℤ} {share : ℕ → FillLoop → String → ℤ}
    (hchosen : ∀ k s, share k s = chosen s.remaining s.active) {s : FillLoop} {n : ℕ}
    (hruns : ∀ k < n, (s.after ar caps share k).Runs)
    (hprogress : ∀ k < n, ((s.after ar caps share k).pass ar caps
      (share k (s.after ar caps share k))).progressed ≠ 0)
    (hstop : ¬ (s.after ar caps share n).Runs) {fuel k : ℕ} (hfuel : n ≤ k + fuel) (hk : k ≤ n) :
    fillRounds ar caps chosen fuel (s.after ar caps share k).active
        (s.after ar caps share k).current (s.after ar caps share k).remaining =
      ((s.after ar caps share n).current, (s.after ar caps share n).remaining) := by
  induction fuel generalizing k with
  | zero =>
      obtain rfl : k = n := by omega
      rfl
  | succ fuel ih =>
      rw [fillRounds]
      rcases hk.eq_or_lt with rfl | hlt
      · exact if_neg hstop
      · have hrun := hruns k hlt
        rw [FillLoop.Runs] at hrun
        rw [if_pos hrun, ← hchosen k]
        simp only
        rw [← FillLoop.pass, if_neg (hprogress k hlt)]
        exact ih (by omega) hlt

/-- The loop ends after `n` passes: never more than there are tokens, each of which makes progress,
so that the loop is not broken off.  The tokens of the modules and those that are left are as many
as before, no module has lost any or is beyond its cap, and no tokens are left or every module is at
its cap. -/
structure LoopEnds (ar : Arith) (ids : List String) (caps current : String → ℤ) (remaining : ℤ)
    (share : ℕ → FillLoop → String → ℤ) (states : ℕ → FillLoop) (n : ℕ) : Prop where
  passes_le : (n : ℤ) ≤ remaining
  runs : ∀ k < n, (states k).Runs
  progressed : ∀ k < n, ((states k).pass ar caps (share k (states k))).progressed ≠ 0
  stops : ¬ (states n).Runs
  total_add : Ledger.total ids (states n).current + (states n).remaining =
    Ledger.total ids current + remaining
  le_current : ∀ id ∈ ids, current id ≤ (states n).current id
  current_le : ∀ id ∈ ids, (states n).current id ≤ caps id
  exhausted : (states n).remaining = 0 ∨ ∀ id ∈ ids, (states n).current id = caps id

section Ends

variable {ar : Arith} {ids : List String} {caps current : String → ℤ} {remaining : ℤ}
  {share : ℕ → FillLoop → String → ℤ}

/-- The loop ends. -/
theorem exists_loopEnds (hnodup : ids.Nodup) (hroom : RoomFits ar ids caps current)
    (hfits : ar.Fits remaining) (hremaining : 0 ≤ remaining)
    (hle : ∀ id ∈ ids, current id ≤ caps id) (share : ℕ → FillLoop → String → ℤ) :
    ∃ n, LoopEnds ar ids caps current remaining share
      ((FillLoop.start ids caps current remaining).after ar caps share) n := by
  have hstart := LoopInv.start hremaining hle
  obtain ⟨n, hn, hruns, hstop⟩ := hstart.exists_stop hnodup hroom hfits share
  obtain ⟨hinv, -⟩ := hstart.after hnodup hroom hfits share hruns
  refine ⟨n, hn, hruns, ?_, hstop, hinv.total_add, hinv.le_current, hinv.current_le,
    hinv.exhausted hstop⟩
  intro k hk
  obtain ⟨hinv', hleft⟩ := hstart.after hnodup hroom hfits share fun j hj => hruns j (hj.trans hk)
  have hfits' := hfits.ofNonneg hinv'.remaining_nonneg
    (le_of_add_le_of_nonneg_left hleft (Nat.cast_nonneg k))
  exact (hinv'.next hnodup hroom hfits' (hruns k hk) (share k _)).2.2

/-- `weighted_fill` returns what there is at the end of the loop. -/
theorem LoopEnds.weightedFillWith_eq {n : ℕ}
    (h : LoopEnds ar ids caps current remaining share
      ((FillLoop.start ids caps current remaining).after ar caps share) n)
    {chosen : ℤ → List String → String → ℤ}
    (hchosen : ∀ k s, share k s = chosen s.remaining s.active) :
    weightedFillWith ar caps chosen ids current remaining =
      (((FillLoop.start ids caps current remaining).after ar caps share n).current,
        ((FillLoop.start ids caps current remaining).after ar caps share n).remaining) := by
  have hn := h.passes_le
  exact fillRounds_eq_after hchosen h.runs h.progressed h.stops (by omega) (Nat.zero_le n)

end Ends

/-- The loop ends, whatever the shares of its passes are, and `weighted_fill` returns what there is
at the end. -/
theorem weighted_fill_ends {ar : Arith} {ids : List String} {caps current : String → ℤ}
    {remaining : ℤ} (hnodup : ids.Nodup) (hroom : RoomFits ar ids caps current)
    (hfits : ar.Fits remaining) (hremaining : 0 ≤ remaining)
    (hle : ∀ id ∈ ids, current id ≤ caps id) (share : ℕ → FillLoop → String → ℤ) :
    ∃ n, LoopEnds ar ids caps current remaining share
        ((FillLoop.start ids caps current remaining).after ar caps share) n ∧
      ∀ chosen : ℤ → List String → String → ℤ,
        (∀ k s, share k s = chosen s.remaining s.active) →
          weightedFillWith ar caps chosen ids current remaining =
            (((FillLoop.start ids caps current remaining).after ar caps share n).current,
              ((FillLoop.start ids caps current remaining).after ar caps share n).remaining) := by
  obtain ⟨n, hends⟩ := exists_loopEnds hnodup hroom hfits hremaining hle share
  exact ⟨n, hends, fun chosen hchosen => hends.weightedFillWith_eq hchosen⟩

/-- Two modules may each take two more of five tokens, with a share that is too large and one that
is negative. -/
theorem weighted_fill_ends_example :
    ∃ n, LoopEnds .release ["a", "b"] (fun _ => 3) (fun _ => 1) 5
        (fun _ _ id => if id = "a" then 2147483647 else -7)
        ((FillLoop.start ["a", "b"] (fun _ => 3) (fun _ => 1) 5).after .release (fun _ => 3)
          fun _ _ id => if id = "a" then 2147483647 else -7) n ∧
      weightedFillWith .release (fun _ => 3) (fun _ _ id => if id = "a" then 2147483647 else -7)
          ["a", "b"] (fun _ => 1) 5 =
        (((FillLoop.start ["a", "b"] (fun _ => 3) (fun _ => 1) 5).after .release (fun _ => 3)
          (fun _ _ id => if id = "a" then 2147483647 else -7) n).current,
        ((FillLoop.start ["a", "b"] (fun _ => 3) (fun _ => 1) 5).after .release (fun _ => 3)
          (fun _ _ id => if id = "a" then 2147483647 else -7) n).remaining) := by
  obtain ⟨n, hends, hresult⟩ := @weighted_fill_ends .release ["a", "b"] (fun _ => 3)
    (fun _ => 1) 5 (by decide)
    ⟨fun _ _ => by decide, fun _ _ => by decide, fun _ _ => by decide⟩ (by decide) (by decide)
    (fun _ _ => by decide) fun _ _ id => if id = "a" then 2147483647 else -7
  exact ⟨n, hends, hresult _ fun _ _ => rfl⟩

end ContextLease
