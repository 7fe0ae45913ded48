/-
The order in which the borrowers are served.

The borrowing phase serves one borrower after the other, and for each of them it passes the donors
in the order of their ids.  A donor lends on only when all donors before it have nothing left to
lend, or are the borrower itself, and the slack lends only after all donors.  So two grants of one
phase are in an order that their donors and borrowers decide.  This holds in wrapping arithmetic as
well, whatever the sums of the definition are.

Main definitions:

* `Grant.Leaves` — the donors that may lend after a grant;
* `DonorPass` — what one pass over the donors does;
* `Grant.Precedes`, `Served` — the order of two grants, and the invariant of the phase.

Main results:

* `donorPass` — the donor loop of one borrower is such a pass;
* `Served.borrow` — the borrower loop keeps the invariant.
-/

import ContextLease.AllocationSafety

set_option relaxedAutoImplicit false
set_option autoImplicit false

namespace ContextLease

open MachineNumbers

variable {F : Type}

/-! ### One pass over the donors -/

/-- The donor `id` may still lend after the grant `g`: it does not come before the donor of `g`, or
it is the borrower of `g`, which the pass has skipped. -/
def Grant.Leaves (g : Grant F) (id : String) : Prop :=
  (match g.donor with
    | .module id' => id' ≤ id
    | .arenaSlack => False) ∨ id = g.borrower.moduleId

/-- What a pass over the donors for one borrower does, with the grants `gs`: the borrower needs
`need` and then `need'` tokens, and the arena has `remaining` and then `remaining'` left. -/
structure DonorPass (ar : Arith) (borrower : ModuleDefinition F)
    (donors donors' : List (String × ℤ)) (need need' remaining remaining' : ℤ)
    (gs : List (Grant F)) : Prop where
  names : donors'.map Prod.fst = donors.map Prod.fst
  shrunk : ∀ d' ∈ donors', 0 < d'.2 → ∃ d ∈ donors, d.1 = d'.1 ∧ 0 < d.2
  fits_donors : ∀ d' ∈ donors', ar.Fits d'.2
  fits_remaining : ar.Fits remaining'
  fits_need : ar.Fits need'
  remaining_le : remaining' ≤ remaining
  need_le : need' + gs.length ≤ need
  need_nonneg : 0 ≤ need → 0 ≤ need'
  started : gs ≠ [] → 0 < need ∧ 0 < remaining
  grants : ∀ g ∈ gs, g.borrower = borrower ∧ 0 < g.tokens ∧ ar.Fits g.tokens ∧
    ∃ d ∈ donors, g.donor = .module d.1 ∧ 0 < d.2 ∧ d.1 ≠ borrower.moduleId
  ordered : gs.Pairwise fun g g' => ∀ id id', g.donor = .module id → g'.donor = .module id' →
    id < id'
  leaves : ∀ g ∈ gs, ∀ d' ∈ donors', 0 < d'.2 → g.Leaves d'.1
  exhausted : 0 < need' → 0 < remaining' → ∀ d' ∈ donors', 0 < d'.2 → d'.1 = borrower.moduleId

section Pass

variable {ar : Arith} {borrower : ModuleDefinition F}

/-- A pass that does nothing. -/
theorem DonorPass.idle {donors : List (String × ℤ)} {need remaining : ℤ}
    (hdonors : ∀ d ∈ donors, ar.Fits d.2) (hneed : ar.Fits need) (hremaining : ar.Fits remaining)
    (hdone : donors = [] ∨ need ≤ 0 ∨ remaining ≤ 0) :
    DonorPass ar borrower donors donors need need remaining remaining [] where
  names := rfl
  shrunk := fun d hd hpos => ⟨d, hd, rfl, hpos⟩
  fits_donors := hdonors
  fits_remaining := hremaining
  fits_need := hneed
  remaining_le := le_refl _
  need_le := by simp
  need_nonneg := id
  started := fun h => absurd rfl h
  grants := fun g hg => absurd hg List.not_mem_nil
  ordered := List.Pairwise.nil
  leaves := fun g hg => absurd hg List.not_mem_nil
  exhausted := by
    intro hn hr d hd _
    rcases hdone with rfl | hdone | hdone
    · exact absurd hd List.not_mem_nil
    · omega
    · omega

variable {donors donors' : List (String × ℤ)} {d : String × ℤ} {need need' remaining remaining' : ℤ}
  {gs : List (Grant F)}

/-- A pass that skips a donor. -/
theorem DonorPass.skip
    (h : DonorPass ar borrower donors donors' need need' remaining remaining' gs)
    (hfits : ar.Fits d.2) (hbefore : ∀ d' ∈ donors, d.1 < d'.1)
    (hskip : d.1 = borrower.moduleId ∨ d.2 ≤ 0) :
    DonorPass ar borrower (d :: donors) (d :: donors') need need' remaining remaining' gs where
  names := by rw [List.map_cons, List.map_cons, h.names]
  shrunk := by
    intro d' hd' hpos
    rcases List.mem_cons.1 hd' with rfl | hd'
    · exact ⟨d', List.mem_cons_self .., rfl, hpos⟩
    · obtain ⟨e, he, hname, hpos⟩ := h.shrunk d' hd' hpos
      exact ⟨e, List.mem_cons_of_mem _ he, hname, hpos⟩
  fits_donors := List.forall_mem_cons.2 ⟨hfits, h.fits_donors⟩
  fits_remaining := h.fits_remaining
  fits_need := h.fits_need
  remaining_le := h.remaining_le
  need_le := h.need_le
  need_nonneg := h.need_nonneg
  started := h.started
  grants := by
    intro g hg
    obtain ⟨hborrower, hpos, hfits, e, he, hdonor⟩ := h.grants g hg
    exact ⟨hborrower, hpos, hfits, e, List.mem_cons_of_mem _ he, hdonor⟩
  ordered := h.ordered
  leaves := by
    intro g hg d' hd' hpos
    rcases List.mem_cons.1 hd' with rfl | hd'
    · rcases hskip with hskip | hskip
      · exact Or.inr (hskip.trans (congrArg _ (h.grants g hg).1.symm))
      · omega
    · exact h.leaves g hg d' hd' hpos
  exhausted := by
    intro hn hr d' hd' hpos
    rcases List.mem_cons.1 hd' with rfl | hd'
    · exact hskip.resolve_right (by omega)
    · exact h.exhausted hn hr d' hd' hpos

/-- A pass that starts with a grant of the first donor: either the donor has nothing left then, or
the pass ends. -/
theorem DonorPass.grant {g : ℤ} (hg : g = min (min need d.2) remaining)
    (h : DonorPass ar borrower donors donors' (need - g) need' (remaining - g) remaining' gs)
    (hfits : ar.Fits d.2) (hbefore : ∀ d' ∈ donors, d.1 < d'.1) (hne : d.1 ≠ borrower.moduleId)
    (havailable : 0 < d.2) (hneed : 0 < need) (hremaining : 0 < remaining) :
    DonorPass ar borrower (d :: donors) ((d.1, d.2 - g) :: donors') need need' remaining remaining'
      (⟨.module d.1, borrower, g⟩ :: gs) where
  names := by rw [List.map_cons, List.map_cons, h.names]
  shrunk := by
    intro d' hd' hpos
    rcases List.mem_cons.1 hd' with rfl | hd'
    · exact ⟨d, List.mem_cons_self .., rfl, havailable⟩
    · obtain ⟨e, he, hname, hpos⟩ := h.shrunk d' hd' hpos
      exact ⟨e, List.mem_cons_of_mem _ he, hname, hpos⟩
  fits_donors := List.forall_mem_cons.2 ⟨hfits.ofNonneg (by simp only; omega) (by simp only; omega),
    h.fits_donors⟩
  fits_remaining := h.fits_remaining
  fits_need := h.fits_need
  remaining_le := by
    have := h.remaining_le
    omega
  need_le := by
    have := h.need_le
    rw [List.length_cons]
    push_cast
    omega
  need_nonneg := fun _ => h.need_nonneg (by omega)
  started := fun _ => ⟨hneed, hremaining⟩
  grants := by
    refine List.forall_mem_cons.2 ⟨⟨rfl, by simp only; omega, hfits.ofNonneg (by simp only; omega)
      (by simp only; omega), d, List.mem_cons_self .., rfl, havailable, hne⟩, fun g hg => ?_⟩
    obtain ⟨hborrower, hpos, hfits, e, he, hdonor⟩ := h.grants g hg
    exact ⟨hborrower, hpos, hfits, e, List.mem_cons_of_mem _ he, hdonor⟩
  ordered := by
    refine List.pairwise_cons.2 ⟨fun g' hg' id id' hid hid' => ?_, h.ordered⟩
    obtain ⟨-, -, -, e, he, hdonor, -⟩ := h.grants g' hg'
    rw [Donor.module.injEq] at hid
    rw [hdonor, Donor.module.injEq] at hid'
    rw [← hid, ← hid']
    exact hbefore e he
  leaves := by
    have hfirst : ∀ d' ∈ donors', d.1 < d'.1 := by
      intro d' hd'
      have hname : d'.1 ∈ donors.map Prod.fst := h.names ▸ List.mem_map_of_mem hd'
      obtain ⟨e, he, heq⟩ := List.mem_map.1 hname
      exact heq ▸ hbefore e he
    refine List.forall_mem_cons.2 ⟨List.forall_mem_cons.2 ⟨fun _ => Or.inl (le_refl d.1),
      fun d' hd' _ => Or.inl (hfirst d' hd').le⟩, fun g' hg' => List.forall_mem_cons.2
        ⟨fun hpos => ?_, h.leaves g' hg'⟩⟩
    -- a donor with something left has ended the pass, so nothing is granted after it
    obtain ⟨h₁, h₂⟩ := h.started (List.ne_nil_of_mem hg')
    simp only at hpos
    omega
  exhausted := by
    intro hn hr
    have h₁ := h.need_le
    have h₂ := h.remaining_le
    refine List.forall_mem_cons.2 ⟨fun hpos => ?_, h.exhausted hn hr⟩
    simp only at hpos
    omega

/-- The donor loop of a borrower is a pass. -/
theorem donorPass (visited donors : List (String × ℤ)) (need : ℤ) (b : Borrowing F)
    (hsorted : donors.Pairwise fun d d' => d.1 < d'.1) (hdonors : ∀ d ∈ donors, ar.Fits d.2)
    (hneed : ar.Fits need) (hremaining : ar.Fits b.remaining) :
    ∃ donors' need' b' gs, borrowFromDonors ar borrower visited donors need b =
        (visited ++ donors', need', b') ∧ b'.grants = b.grants ++ gs ∧
      DonorPass ar borrower donors donors' need need' b.remaining b'.remaining gs ∧
      ∀ id, id ≠ borrower.moduleId → b'.current id = b.current id := by
  induction donors generalizing visited need b with
  | nil =>
      exact ⟨[], need, b, [], by rw [borrowFromDonors, List.append_nil], by rw [List.append_nil],
        .idle hdonors hneed hremaining (Or.inl rfl), fun _ _ => rfl⟩
  | cons d donors ih =>
      obtain ⟨donorId, available⟩ := d
      rw [List.pairwise_cons] at hsorted
      rw [List.forall_mem_cons] at hdonors
      rw [borrowFromDonors]
      split
      · rename_i hdone
        exact ⟨_, need, b, [], rfl, by rw [List.append_nil],
          .idle (List.forall_mem_cons.2 hdonors) hneed hremaining (Or.inr hdone), fun _ _ => rfl⟩
      · rename_i hgoing
        rw [not_or, not_le, not_le] at hgoing
        split
        · rename_i hskip
          obtain ⟨donors', need', b', gs, heq, hgrants, hpass, hcurrent⟩ :=
            ih (visited ++ [(donorId, available)]) need b hsorted.2 hdonors.2 hneed hremaining
          refine ⟨_, need', b', gs, ?_, hgrants, hpass.skip hdonors.1 hsorted.1 hskip, hcurrent⟩
          rw [heq, List.append_assoc]
          rfl
        · rename_i hgrant
          rw [not_or, not_le] at hgrant
          obtain ⟨g, hg⟩ : ∃ g, g = min (min need available) b.remaining := ⟨_, rfl⟩
          have hg' : 0 < g := by omega
          have hsub : ar.sub need g = need - g :=
            Arith.sub_of_fits (hneed.ofNonneg (by omega) (by omega))
          have hrest : (b.take ar borrower (.module donorId) g).remaining = b.remaining - g :=
            Arith.sub_of_fits (hremaining.ofNonneg (by omega) (by omega))
          have hleft : ar.sub available g = available - g :=
            Arith.sub_of_fits (hdonors.1.ofNonneg (by omega) (by simp only; omega))
          obtain ⟨donors', need', b', gs, heq, hgrants, hpass, hcurrent⟩ :=
            ih (visited ++ [(donorId, available - g)]) (need - g)
              (b.take ar borrower (.module donorId) g) hsorted.2 hdonors.2
              (hneed.ofNonneg (by omega) (by omega))
              (by rw [hrest]; exact hremaining.ofNonneg (by omega) (by omega))
          rw [hrest] at hpass
          refine ⟨_, need', b', _, ?_, ?_, hpass.grant hg hdonors.1 hsorted.1 hgrant.1 hgrant.2
            hgoing.1 hgoing.2, fun id hid => ?_⟩
          · simp only [← hg, hsub, hleft, heq, List.append_assoc]
            rfl
          · rw [hgrants, Borrowing.take, List.append_assoc]
            rfl
          · rw [hcurrent id hid]
            exact Function.update_of_ne hid _ _

end Pass

/-! ### The borrower loop -/

/-- How the grant `g'` can follow the grant `g`: the same borrower is served by a later donor, or a
borrower that comes after the one of `g` by a donor that `g` leaves.  `room` are the tokens that a
borrower needs when it is served, and `serves` is the order of the borrowers. -/
def Grant.Precedes (serves : ModuleDefinition F → ModuleDefinition F → Prop)
    (room : ModuleDefinition F → ℤ) (g g' : Grant F) : Prop :=
  (g.borrower = g'.borrower ∧ 2 ≤ room g.borrower ∧ ∃ id, g.donor = .module id ∧
    ∀ id', g'.donor = .module id' → id < id') ∨
  (serves g.borrower g'.borrower ∧ g.borrower.moduleId ≠ g'.borrower.moduleId ∧
    ∀ id', g'.donor = .module id' → g.Leaves id')

/-- The invariant of the borrower loop: `offers` are the donors it starts with, `filled` is the
ledger it starts from, and `waiting` are the borrowers that have not been served yet. -/
structure Served (ar : Arith) (serves : ModuleDefinition F → ModuleDefinition F → Prop)
    (demands filled : String → ℤ) (offers : List (String × ℤ))
    (borrowers waiting : List (ModuleDefinition F)) (donors : List (String × ℤ))
    (b : Borrowing F) : Prop where
  sorted : donors.Pairwise fun d d' => d.1 < d'.1
  fits_donors : ∀ d ∈ donors, ar.Fits d.2
  fits_remaining : ar.Fits b.remaining
  offered : ∀ d ∈ donors, 0 < d.2 → ∃ d' ∈ offers, d'.1 = d.1 ∧ 0 < d'.2
  unserved : ∀ m ∈ waiting, b.current m.moduleId = filled m.moduleId
  tokens : ∀ g ∈ b.grants, 0 < g.tokens ∧ ar.Fits g.tokens
  origin : ∀ g ∈ b.grants, g.borrower ∈ borrowers ∧
    ∀ id, g.donor = .module id → ∃ d ∈ offers, d.1 = id ∧ 0 < d.2
  earlier : ∀ g ∈ b.grants, ∀ m ∈ waiting,
    serves g.borrower m ∧ g.borrower.moduleId ≠ m.moduleId
  leaves : ∀ g ∈ b.grants, ∀ d ∈ donors, 0 < d.2 → g.Leaves d.1
  ordered : b.grants.Pairwise (Grant.Precedes serves fun m =>
    ar.sub (min (demands m.moduleId) m.maxTokens) (filled m.moduleId))

section Loop

variable {ar : Arith} {serves : ModuleDefinition F → ModuleDefinition F → Prop}
  {demands filled : String → ℤ} {offers : List (String × ℤ)}
  {borrowers waiting : List (ModuleDefinition F)} {borrower : ModuleDefinition F}

/-- The grants of one borrower, in the order they are made. -/
structure Grants (ar : Arith) (borrower : ModuleDefinition F) (donors : List (String × ℤ))
    (need : ℤ) (gs : List (Grant F)) : Prop where
  each : ∀ g ∈ gs, g.borrower = borrower ∧ 0 < g.tokens ∧ ar.Fits g.tokens ∧
    ∀ id, g.donor = .module id → ∃ d ∈ donors, d.1 = id ∧ 0 < d.2
  ordered : gs.Pairwise fun g g' => 2 ≤ need ∧ ∃ id, g.donor = .module id ∧
    ∀ id', g'.donor = .module id' → id < id'

/-- A list of at most one item is in every order. -/
theorem pairwise_of_length_lt_two {α : Type} {R : α → α → Prop} {l : List α} (h : l.length < 2) :
    l.Pairwise R := by
  cases l with
  | nil => exact List.Pairwise.nil
  | cons a l =>
      rw [List.length_cons, Nat.add_lt_iff_lt_sub_right, Nat.lt_one_iff,
        List.length_eq_zero_iff] at h
      rw [h]
      exact List.pairwise_singleton R a

/-- The grants of a pass over the donors. -/
theorem DonorPass.toGrants {donors donors' : List (String × ℤ)}
    {need need' remaining remaining' : ℤ} {gs : List (Grant F)}
    (h : DonorPass ar borrower donors donors' need need' remaining remaining' gs) :
    Grants ar borrower donors need gs where
  each := by
    intro g hg
    obtain ⟨hborrower, hpos, hfits, d, hd, hdonor, hoffer, -⟩ := h.grants g hg
    refine ⟨hborrower, hpos, hfits, fun id hid => ⟨d, hd, ?_, hoffer⟩⟩
    rw [hdonor, Donor.module.injEq] at hid
    exact hid
  ordered := by
    rcases lt_or_ge gs.length 2 with hshort | hlong
    · exact pairwise_of_length_lt_two hshort
    · have hneed := h.need_nonneg (h.started (List.ne_nil_of_length_pos (by omega))).1.le
      have hle := h.need_le
      refine List.Pairwise.imp_of_mem (fun {g g'} hg _ hlt => ⟨by omega, ?_⟩) h.ordered
      obtain ⟨-, -, -, d, -, hdonor, -⟩ := h.grants g hg
      exact ⟨d.1, hdonor, fun id' hid' => hlt d.1 id' hdonor hid'⟩

/-- The grants of a borrower that the donors have not satisfied, and the slack's. -/
theorem DonorPass.toGrants_slack {donors donors' : List (String × ℤ)}
    {need need' remaining remaining' : ℤ} {gs : List (Grant F)}
    (h : DonorPass ar borrower donors donors' need need' remaining remaining' gs)
    (hneed : 0 < need') {tokens : ℤ} (hpos : 0 < tokens) (hfits : ar.Fits tokens) :
    Grants ar borrower donors need (gs ++ [⟨.arenaSlack, borrower, tokens⟩]) where
  each := by
    refine List.forall_mem_append.2 ⟨h.toGrants.each, List.forall_mem_singleton.2
      ⟨rfl, hpos, hfits, fun id hid => ?_⟩⟩
    cases hid
  ordered := by
    refine List.pairwise_append.2 ⟨h.toGrants.ordered, List.pairwise_singleton _ _,
      fun g hg g' hg' => ?_⟩
    rw [List.mem_singleton] at hg'
    subst hg'
    obtain ⟨-, -, -, d, -, hdonor, -⟩ := h.grants g hg
    have hle := h.need_le
    have hlength := List.length_pos_of_mem hg
    refine ⟨by omega, d.1, hdonor, ?_⟩
    intro id' hid'
    cases hid'

/-- Serving a borrower keeps the invariant. -/
theorem Served.extend {donors donors' : List (String × ℤ)} {b b' : Borrowing F}
    {gs : List (Grant F)}
    (h : Served ar serves demands filled offers borrowers (borrower :: waiting) donors b)
    (hmem : borrower ∈ borrowers)
    (hwaiting : ∀ m ∈ waiting, serves borrower m ∧ borrower.moduleId ≠ m.moduleId)
    (hgs : Grants ar borrower donors
      (ar.sub (min (demands borrower.moduleId) borrower.maxTokens)
        (b.current borrower.moduleId)) gs)
    (hgrants : b'.grants = b.grants ++ gs)
    (hnames : donors'.map Prod.fst = donors.map Prod.fst)
    (hshrunk : ∀ d' ∈ donors', 0 < d'.2 → ∃ d ∈ donors, d.1 = d'.1 ∧ 0 < d.2)
    (hdonors : ∀ d ∈ donors', ar.Fits d.2) (hremaining : ar.Fits b'.remaining)
    (hcurrent : ∀ id, id ≠ borrower.moduleId → b'.current id = b.current id)
    (hleaves : ∀ g ∈ gs, ∀ d ∈ donors', 0 < d.2 → g.Leaves d.1) :
    Served ar serves demands filled offers borrowers waiting donors' b' where
  sorted := by
    have hsorted : (donors'.map Prod.fst).Pairwise (· < ·) := by
      rw [hnames]
      exact List.pairwise_map.2 h.sorted
    exact List.pairwise_map.1 hsorted
  fits_donors := hdonors
  fits_remaining := hremaining
  offered := by
    intro d' hd' hpos
    obtain ⟨d, hd, hname, hpos⟩ := hshrunk d' hd' hpos
    exact hname ▸ h.offered d hd hpos
  unserved := by
    intro m hm
    rw [hcurrent m.moduleId (hwaiting m hm).2.symm]
    exact h.unserved m (List.mem_cons_of_mem _ hm)
  tokens := by
    rw [hgrants]
    exact List.forall_mem_append.2 ⟨h.tokens, fun g hg =>
      ⟨(hgs.each g hg).2.1, (hgs.each g hg).2.2.1⟩⟩
  origin := by
    rw [hgrants]
    refine List.forall_mem_append.2 ⟨h.origin, ?_⟩
    intro g hg
    obtain ⟨hborrower, -, -, hdonor⟩ := hgs.each g hg
    refine ⟨hborrower ▸ hmem, ?_⟩
    intro id hid
    obtain ⟨d, hd, rfl, hpos⟩ := hdonor id hid
    exact h.offered d hd hpos
  earlier := by
    rw [hgrants]
    refine List.forall_mem_append.2
      ⟨fun g hg m hm => h.earlier g hg m (List.mem_cons_of_mem _ hm), fun g hg m hm => ?_⟩
    rw [(hgs.each g hg).1]
    exact hwaiting m hm
  leaves := by
    rw [hgrants]
    refine List.forall_mem_append.2 ⟨fun g hg d' hd' hpos => ?_, hleaves⟩
    obtain ⟨d, hd, hname, hpos⟩ := hshrunk d' hd' hpos
    exact hname ▸ h.leaves g hg d hd hpos
  ordered := by
    rw [hgrants]
    refine List.pairwise_append.2 ⟨h.ordered, ?_, fun g hg g' hg' => Or.inr ?_⟩
    · refine hgs.ordered.imp_of_mem fun {g g'} hg hg' hlt => Or.inl ⟨?_, ?_, hlt.2⟩
      · rw [(hgs.each g hg).1, (hgs.each g' hg').1]
      · have hroom := hlt.1
        rw [h.unserved borrower (List.mem_cons_self ..)] at hroom
        rw [(hgs.each g hg).1]
        exact hroom
    · obtain ⟨hborrower, -, -, hdonor⟩ := hgs.each g' hg'
      have hearlier := h.earlier g hg borrower (List.mem_cons_self ..)
      refine ⟨hborrower ▸ hearlier.1, hborrower ▸ hearlier.2, ?_⟩
      intro id' hid'
      obtain ⟨d, hd, rfl, hpos⟩ := hdonor id' hid'
      exact h.leaves g hg d hd hpos

/-- One round of the borrower loop keeps the invariant. -/
theorem Served.borrowFor {donors : List (String × ℤ)} {b : Borrowing F}
    (h : Served ar serves demands filled offers borrowers (borrower :: waiting) donors b)
    (hmem : borrower ∈ borrowers)
    (hwaiting : ∀ m ∈ waiting, serves borrower m ∧ borrower.moduleId ≠ m.moduleId) :
    Served ar serves demands filled offers borrowers waiting
      (borrowFor ar borrower demands donors b).1 (borrowFor ar borrower demands donors b).2 := by
  obtain ⟨donors', need', b', gs, heq, hgrants, hpass, hcurrent⟩ :=
    @donorPass F ar borrower [] donors
      (ar.sub (min (demands borrower.moduleId) borrower.maxTokens) (b.current borrower.moduleId))
      b h.sorted h.fits_donors (Arith.fits_norm ar _) h.fits_remaining
  simp only [ContextLease.borrowFor, heq, List.nil_append]
  unfold borrowFromSlack
  split
  · rename_i hslack
    obtain ⟨tokens, htokens⟩ : ∃ tokens, tokens = min (min need' b'.sharedSlack) b'.remaining :=
      ⟨_, rfl⟩
    rw [← htokens]
    have hfits : ar.Fits tokens := hpass.fits_remaining.ofNonneg (by omega) (by omega)
    have hremaining : ar.Fits (b'.take ar borrower .arenaSlack tokens).remaining :=
      Arith.fits_norm ar (b'.remaining - tokens)
    have hpos : 0 < tokens := by omega
    refine h.extend hmem hwaiting (hpass.toGrants_slack hslack.1 hpos hfits) ?_ hpass.names
      hpass.shrunk hpass.fits_donors hremaining (fun id hid => ?_)
      (List.forall_mem_append.2 ⟨hpass.leaves, List.forall_mem_singleton.2 fun d hd hpos =>
        Or.inr (hpass.exhausted hslack.1 hslack.2.2 d hd hpos)⟩)
    · rw [Borrowing.take, hgrants, List.append_assoc]
    · exact (Function.update_of_ne hid _ _).trans (hcurrent id hid)
  · exact h.extend hmem hwaiting hpass.toGrants hgrants hpass.names hpass.shrunk hpass.fits_donors
      hpass.fits_remaining hcurrent hpass.leaves

/-- The borrower loop keeps the invariant. -/
theorem Served.borrow {donors : List (String × ℤ)} {b : Borrowing F}
    (h : Served ar serves demands filled offers borrowers waiting donors b)
    (hmem : ∀ m ∈ waiting, m ∈ borrowers) (hserves : waiting.Pairwise serves)
    (hnodup : (waiting.map ModuleDefinition.moduleId).Nodup) :
    ∃ donors', Served ar serves demands filled offers borrowers [] donors'
      (borrow ar demands waiting donors b) := by
  induction waiting generalizing donors b with
  | nil => exact ⟨donors, h⟩
  | cons borrower waiting ih =>
      rw [List.pairwise_cons] at hserves
      rw [List.map_cons, List.nodup_cons] at hnodup
      rw [List.forall_mem_cons] at hmem
      exact ih (h.borrowFor hmem.1 fun m hm => ⟨hserves.1 m hm, fun heq =>
        hnodup.1 (heq ▸ List.mem_map_of_mem hm)⟩) hmem.2 hserves.2 hnodup.2

end Loop

end ContextLease
