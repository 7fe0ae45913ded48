/-
The borrowing phase.

Everything the borrowing phase does to its ledgers is a sequence of grants, each from one donor to
one borrower.  One invariant says what the ledgers and the grants have to do with each other; a
grant keeps it, and so do the donor loop, the slack step and the borrower loop.

Main definitions:

* `donorEntries`, `borrowerEntries` — what the grants take from the donors and give the borrowers;
* `BorrowSetting`, `BorrowInv` — where the borrowing phase starts, and its invariant.

Main results:

* `BorrowInv.takeModule`, `BorrowInv.takeSlack` — a grant keeps the invariant;
* `BorrowInv.borrowFromDonors`, `BorrowInv.borrowFor`, `BorrowInv.borrow` — so do the loops;
* `borrow_of_exhausted` — without tokens left nothing is granted.
-/

import ContextLease.FillSpec

set_option relaxedAutoImplicit false
set_option autoImplicit false

namespace ContextLease

open MachineNumbers

variable {F : Type}

/-- The key of a grant in the donors' ledger. -/
def Grant.donorEntry (g : Grant F) : Option (String × ℤ) :=
  match g.donor with
  | .module id => some (id, g.tokens)
  | .arenaSlack => none

/-- What the grants of the donor loop take from each donor. -/
def donorEntries (grants : List (Grant F)) : List (String × ℤ) := grants.filterMap Grant.donorEntry

/-- What the grants give each borrower. -/
def borrowerEntries (grants : List (Grant F)) : List (String × ℤ) :=
  grants.map fun g => (g.borrower.moduleId, g.tokens)

/-- What the borrowing phase starts from: `filled` is the ledger after the weighted rounds, `offers`
are the donors with their initial offers, `borrowers` the modules that may borrow, and `available`
the tokens of the whole arena. -/
structure BorrowSetting (ar : Arith) (definition : ArenaDefinition F) (filled : String → ℤ)
    (offers : List (String × ℤ)) (borrowers : List (ModuleDefinition F)) (available : ℤ) :
    Prop where
  ids_nodup : (definition.modules.map ModuleDefinition.moduleId).Nodup
  fits_max : ∀ m ∈ definition.modules, ar.Fits m.maxTokens
  fits_available : ar.Fits available
  filled_nonneg : ∀ m ∈ definition.modules, 0 ≤ filled m.moduleId
  offers_nodup : (offers.map Prod.fst).Nodup
  fits_offers : ∀ d ∈ offers, ar.Fits d.2
  borrowers_mem : ∀ m ∈ borrowers, m ∈ definition.modules

/-- The invariant of the borrowing phase. -/
structure BorrowInv (ar : Arith) (definition : ArenaDefinition F) (demands filled : String → ℤ)
    (offers : List (String × ℤ)) (borrowers : List (ModuleDefinition F)) (available : ℤ)
    (donors : List (String × ℤ)) (b : Borrowing F) : Prop where
  remaining_nonneg : 0 ≤ b.remaining
  slack_nonneg : 0 ≤ b.sharedSlack
  fits_slack : ar.Fits b.sharedSlack
  total_add : Ledger.total (definition.modules.map ModuleDefinition.moduleId) b.current +
    b.remaining = available
  current_eq : ∀ m ∈ definition.modules,
    b.current m.moduleId = filled m.moduleId + b.borrowed m.moduleId
  current_le : ∀ m ∈ definition.modules,
    b.current m.moduleId ≤ min (demands m.moduleId) m.maxTokens
  borrowed_eq : ∀ id, b.borrowed id = Ledger.amountOf (borrowerEntries b.grants) id
  lent_eq : ∀ id, b.lent id = Ledger.amountOf (donorEntries b.grants) id
  donors_keys : donors.map Prod.fst = offers.map Prod.fst
  donors_nonneg : ∀ d ∈ donors, 0 ≤ d.2
  donors_add : ∀ d ∈ donors, (d.1, d.2 + b.lent d.1) ∈ offers
  tokens_pos : ∀ g ∈ b.grants, 0 < g.tokens
  borrower_mem : ∀ g ∈ b.grants, g.borrower ∈ borrowers
  donor_mem : ∀ g ∈ b.grants, ∀ id, g.donor = .module id →
    id ∈ offers.map Prod.fst ∧ id ≠ g.borrower.moduleId
  pairs_nodup : (b.grants.map fun g => (g.donor, g.borrower.moduleId)).Nodup

theorem borrowed_nonneg {ar : Arith} {definition : ArenaDefinition F}
    {demands filled : String → ℤ} {offers : List (String × ℤ)}
    {borrowers : List (ModuleDefinition F)} {available : ℤ} {donors : List (String × ℤ)}
    {b : Borrowing F}
    (h : BorrowInv ar definition demands filled offers borrowers available donors b)
    (id : String) : 0 ≤ b.borrowed id := by
  rw [h.borrowed_eq]
  refine Ledger.amountOf_nonneg ?_ id
  intro e he
  obtain ⟨g, hg, rfl⟩ := List.mem_map.1 he
  exact (h.tokens_pos g hg).le

theorem lent_nonneg {ar : Arith} {definition : ArenaDefinition F}
    {demands filled : String → ℤ} {offers : List (String × ℤ)}
    {borrowers : List (ModuleDefinition F)} {available : ℤ} {donors : List (String × ℤ)}
    {b : Borrowing F}
    (h : BorrowInv ar definition demands filled offers borrowers available donors b)
    (id : String) : 0 ≤ b.lent id := by
  rw [h.lent_eq]
  refine Ledger.amountOf_nonneg ?_ id
  intro e he
  obtain ⟨g, hg, hentry⟩ := List.mem_filterMap.1 he
  unfold Grant.donorEntry at hentry
  split at hentry
  · rw [Option.some_inj] at hentry
    subst hentry
    exact (h.tokens_pos g hg).le
  · cases hentry

/-- The entries around one of a list of distinct keys have other keys. -/
theorem ne_of_keys_nodup {visited rest : List (String × ℤ)} {d : String × ℤ}
    (hkeys : ((visited ++ d :: rest).map Prod.fst).Nodup) : ∀ e ∈ visited ++ rest, e.1 ≠ d.1 := by
  intro e he heq
  rw [List.map_append, List.map_cons, List.nodup_middle, ← List.map_append,
    List.nodup_cons] at hkeys
  exact hkeys.1 (List.mem_map.2 ⟨e, he, heq⟩)

/-! ### One grant -/

section Take

variable {ar : Arith} {definition : ArenaDefinition F} {demands filled : String → ℤ}
  {offers : List (String × ℤ)} {borrowers : List (ModuleDefinition F)} {available : ℤ}

/-- The invariant keeps every ledger entry natural. -/
theorem BorrowInv.current_nonneg {donors : List (String × ℤ)} {b : Borrowing F}
    (S : BorrowSetting ar definition filled offers borrowers available)
    (h : BorrowInv ar definition demands filled offers borrowers available donors b)
    {m : ModuleDefinition F} (hm : m ∈ definition.modules) : 0 ≤ b.current m.moduleId := by
  have h₁ := S.filled_nonneg m hm
  have h₂ := borrowed_nonneg h m.moduleId
  have h₃ := h.current_eq m hm
  omega

/-- What holds of all grants after one more. -/
theorem forall_mem_take {P : Grant F → Prop} (borrower : ModuleDefinition F) (donor : Donor) (g : ℤ)
    (b : Borrowing F) : (∀ g' ∈ (b.take ar borrower donor g).grants, P g') ↔
      (∀ g' ∈ b.grants, P g') ∧ P ⟨donor, borrower, g⟩ := by
  simp only [Borrowing.take, List.forall_mem_append, List.forall_mem_singleton]

/-- What a grant does to the borrower's side. -/
theorem BorrowInv.take_eq {donors : List (String × ℤ)} {b : Borrowing F}
    (S : BorrowSetting ar definition filled offers borrowers available)
    (h : BorrowInv ar definition demands filled offers borrowers available donors b)
    {borrower : ModuleDefinition F} (hborrower : borrower ∈ borrowers) (donor : Donor) {g : ℤ}
    (hpos : 0 < g)
    (hneed : g ≤ min (demands borrower.moduleId) borrower.maxTokens - b.current borrower.moduleId)
    (hremaining : g ≤ b.remaining) :
    (b.take ar borrower donor g).current = Ledger.credit b.current borrower.moduleId g ∧
      (b.take ar borrower donor g).borrowed = Ledger.credit b.borrowed borrower.moduleId g ∧
      (b.take ar borrower donor g).remaining = b.remaining - g := by
  have hm := S.borrowers_mem borrower hborrower
  have hb := borrowed_nonneg h borrower.moduleId
  have hf := S.filled_nonneg borrower hm
  have hc := h.current_eq borrower hm
  have hfits := S.fits_max borrower hm
  have htotal : 0 ≤ Ledger.total (definition.modules.map ModuleDefinition.moduleId) b.current := by
    refine Ledger.total_nonneg ?_
    intro id hid
    obtain ⟨m, hm, rfl⟩ := List.mem_map.1 hid
    exact h.current_nonneg S hm
  have hadd := h.total_add
  refine ⟨?_, ?_, ?_⟩
  · exact addTo_of_fits (hfits.ofNonneg (by omega) (by omega))
  · exact addTo_of_fits (hfits.ofNonneg (by omega) (by omega))
  · exact Arith.sub_of_fits (S.fits_available.ofNonneg (by omega) (by omega))

/-- The borrower's side of the invariant after a grant. -/
theorem BorrowInv.take_borrower {donors : List (String × ℤ)} {b : Borrowing F}
    (S : BorrowSetting ar definition filled offers borrowers available)
    (h : BorrowInv ar definition demands filled offers borrowers available donors b)
    {borrower : ModuleDefinition F} (hborrower : borrower ∈ borrowers) (donor : Donor) {g : ℤ}
    (hpos : 0 < g)
    (hneed : g ≤ min (demands borrower.moduleId) borrower.maxTokens - b.current borrower.moduleId)
    (hremaining : g ≤ b.remaining) :
    let b' := b.take ar borrower donor g
    Ledger.total (definition.modules.map ModuleDefinition.moduleId) b'.current + b'.remaining =
        available ∧
      (∀ m ∈ definition.modules,
        b'.current m.moduleId = filled m.moduleId + b'.borrowed m.moduleId) ∧
      (∀ m ∈ definition.modules, b'.current m.moduleId ≤ min (demands m.moduleId) m.maxTokens) ∧
      ∀ id, b'.borrowed id = Ledger.amountOf (borrowerEntries b'.grants) id := by
  have hm := S.borrowers_mem borrower hborrower
  obtain ⟨hcurrent, hborrowed, hrem⟩ :=
    h.take_eq S hborrower donor hpos hneed hremaining
  simp only [hcurrent, hborrowed, hrem]
  refine ⟨?_, ?_, ?_, ?_⟩
  · rw [Ledger.total_credit S.ids_nodup _ _ (List.mem_map_of_mem hm)]
    have := h.total_add
    omega
  · intro m' hm'
    by_cases heq : m'.moduleId = borrower.moduleId
    · rw [heq, Ledger.credit_self, Ledger.credit_self]
      have := h.current_eq borrower hm
      rw [heq.symm] at this ⊢
      omega
    · rw [Ledger.credit_of_ne _ _ heq, Ledger.credit_of_ne _ _ heq]
      exact h.current_eq m' hm'
  · intro m' hm'
    by_cases heq : m'.moduleId = borrower.moduleId
    · have hsame := eq_of_moduleId_eq S.ids_nodup hm' hm heq
      subst hsame
      rw [Ledger.credit_self]
      omega
    · rw [Ledger.credit_of_ne _ _ heq]
      exact h.current_le m' hm'
  · intro id
    simp only [Borrowing.take, borrowerEntries, List.map_append, Ledger.amountOf_append,
      List.map_cons, List.map_nil]
    have hold : b.borrowed id = Ledger.amountOf (borrowerEntries b.grants) id := h.borrowed_eq id
    by_cases heq : id = borrower.moduleId
    · subst heq
      rw [Ledger.credit_self, Ledger.amountOf_singleton_self, hold, borrowerEntries]
    · rw [Ledger.credit_of_ne _ _ heq, Ledger.amountOf_singleton_of_ne _ (Ne.symm heq), hold,
        borrowerEntries, add_zero]

/-- The grants after one more grant. -/
theorem BorrowInv.take_grants {donors : List (String × ℤ)} {b : Borrowing F}
    (h : BorrowInv ar definition demands filled offers borrowers available donors b)
    {borrower : ModuleDefinition F} (hborrower : borrower ∈ borrowers) {donor : Donor} {g : ℤ}
    (hpos : 0 < g)
    (hdonor : ∀ id, donor = .module id → id ∈ offers.map Prod.fst ∧ id ≠ borrower.moduleId)
    (hfresh : ∀ g ∈ b.grants, g.donor = donor → g.borrower.moduleId ≠ borrower.moduleId) :
    let b' := b.take ar borrower donor g
    (∀ g ∈ b'.grants, 0 < g.tokens) ∧ (∀ g ∈ b'.grants, g.borrower ∈ borrowers) ∧
      (∀ g ∈ b'.grants, ∀ id, g.donor = .module id →
        id ∈ offers.map Prod.fst ∧ id ≠ g.borrower.moduleId) ∧
      (b'.grants.map fun g => (g.donor, g.borrower.moduleId)).Nodup := by
  refine ⟨?_, ?_, ?_, ?_⟩
  · exact (forall_mem_take ..).2 ⟨h.tokens_pos, hpos⟩
  · exact (forall_mem_take ..).2 ⟨h.borrower_mem, hborrower⟩
  · exact (forall_mem_take ..).2 ⟨h.donor_mem, hdonor⟩
  · simp only [Borrowing.take, List.map_append, List.map_cons, List.map_nil]
    refine List.nodup_append'.2 ⟨h.pairs_nodup, List.nodup_singleton _, ?_⟩
    rw [List.disjoint_singleton]
    intro hmem
    obtain ⟨g', hg', heq⟩ := List.mem_map.1 hmem
    exact hfresh g' hg' (congrArg Prod.fst heq) (congrArg Prod.snd heq)

/-- A grant out of a donor's unused target keeps the invariant. -/
theorem BorrowInv.takeModule
    (S : BorrowSetting ar definition filled offers borrowers available)
    {visited rest : List (String × ℤ)} {id : String} {offer : ℤ} {b : Borrowing F}
    (h : BorrowInv ar definition demands filled offers borrowers available
      (visited ++ (id, offer) :: rest) b)
    {borrower : ModuleDefinition F} (hborrower : borrower ∈ borrowers)
    (hne : id ≠ borrower.moduleId) {g : ℤ} (hpos : 0 < g) (hoffer : g ≤ offer)
    (hneed : g ≤ min (demands borrower.moduleId) borrower.maxTokens - b.current borrower.moduleId)
    (hremaining : g ≤ b.remaining)
    (hfresh : ∀ g ∈ b.grants, g.donor = .module id → g.borrower.moduleId ≠ borrower.moduleId) :
    BorrowInv ar definition demands filled offers borrowers available
      (visited ++ (id, ar.sub offer g) :: rest) (b.take ar borrower (.module id) g) := by
  have hmem : (id, offer) ∈ visited ++ (id, offer) :: rest := by simp
  have hadd := h.donors_add _ hmem
  have hlent := lent_nonneg h id
  have hfits := S.fits_offers _ hadd
  have hsub : ar.sub offer g = offer - g :=
    Arith.sub_of_fits (hfits.ofNonneg (by omega) (by simp only; omega))
  have hcredit : (b.take ar borrower (.module id) g).lent = Ledger.credit b.lent id g :=
    addTo_of_fits (hfits.ofNonneg (by omega) (by simp only; omega))
  have hid : id ∈ offers.map Prod.fst := List.mem_map_of_mem hadd
  have hother : ∀ d ∈ visited ++ rest, d.1 ≠ id := ne_of_keys_nodup (h.donors_keys ▸ S.offers_nodup)
  obtain ⟨htotal, hcurrent, hle, hborrowed⟩ :=
    h.take_borrower S hborrower (.module id) hpos hneed hremaining
  obtain ⟨htokens, hmems, hdonors, hpairs⟩ := h.take_grants hborrower hpos
    (fun id' hid' => by cases hid'; exact ⟨hid, hne⟩) hfresh
  obtain ⟨-, -, hrem⟩ := h.take_eq S hborrower (.module id) hpos hneed hremaining
  refine ⟨by omega, h.slack_nonneg, h.fits_slack, htotal, hcurrent, hle, hborrowed, ?_, ?_, ?_, ?_,
    htokens, hmems, hdonors, hpairs⟩
  · intro id'
    have hentries : donorEntries (b.take ar borrower (.module id) g).grants =
        donorEntries b.grants ++ [(id, g)] := by
      simp only [Borrowing.take, donorEntries, List.filterMap_append, List.filterMap_cons,
        List.filterMap_nil, Grant.donorEntry]
    rw [hcredit, hentries, Ledger.amountOf_append, ← h.lent_eq id']
    by_cases heq : id' = id
    · subst heq
      rw [Ledger.credit_self, Ledger.amountOf_singleton_self]
    · rw [Ledger.credit_of_ne _ _ heq, Ledger.amountOf_singleton_of_ne _ (Ne.symm heq), add_zero]
  · have := h.donors_keys
    simp only [List.map_append, List.map_cons] at this ⊢
    exact this
  · intro d hd
    rcases List.mem_append.1 hd with hd | hd
    · exact h.donors_nonneg d (List.mem_append_left _ hd)
    · rcases List.mem_cons.1 hd with rfl | hd
      · simp only; omega
      · exact h.donors_nonneg d (List.mem_append_right _ (List.mem_cons_of_mem _ hd))
  · intro d hd
    rw [hcredit]
    by_cases hdid : d.1 = id
    · have hdeq : d = (id, ar.sub offer g) := by
        rcases List.mem_append.1 hd with hd | hd
        · exact absurd hdid (hother d (List.mem_append_left _ hd))
        · rcases List.mem_cons.1 hd with rfl | hd
          · rfl
          · exact absurd hdid (hother d (List.mem_append_right _ hd))
      subst hdeq
      have hsum : ar.sub offer g + (b.lent id + g) = offer + b.lent id := by omega
      simp only [Ledger.credit_self, hsum]
      exact hadd
    · rw [Ledger.credit_of_ne _ _ hdid]
      refine h.donors_add d ?_
      rcases List.mem_append.1 hd with hd | hd
      · exact List.mem_append_left _ hd
      · rcases List.mem_cons.1 hd with rfl | hd
        · exact absurd rfl hdid
        · exact List.mem_append_right _ (List.mem_cons_of_mem _ hd)

/-- A grant out of the arena's slack keeps the invariant. -/
theorem BorrowInv.takeSlack
    (S : BorrowSetting ar definition filled offers borrowers available)
    {donors : List (String × ℤ)} {b : Borrowing F}
    (h : BorrowInv ar definition demands filled offers borrowers available donors b)
    {borrower : ModuleDefinition F} (hborrower : borrower ∈ borrowers) {g : ℤ} (hpos : 0 < g)
    (hslack : g ≤ b.sharedSlack)
    (hneed : g ≤ min (demands borrower.moduleId) borrower.maxTokens - b.current borrower.moduleId)
    (hremaining : g ≤ b.remaining)
    (hfresh : ∀ g ∈ b.grants, g.donor = .arenaSlack →
      g.borrower.moduleId ≠ borrower.moduleId) :
    BorrowInv ar definition demands filled offers borrowers available donors
      (b.take ar borrower .arenaSlack g) := by
  have hsub : ar.sub b.sharedSlack g = b.sharedSlack - g :=
    Arith.sub_of_fits (h.fits_slack.ofNonneg (by omega) (by omega))
  obtain ⟨htotal, hcurrent, hle, hborrowed⟩ :=
    h.take_borrower S hborrower .arenaSlack hpos hneed hremaining
  obtain ⟨htokens, hmems, hdonors, hpairs⟩ := h.take_grants hborrower hpos
    (fun id' hid' => by cases hid') hfresh
  obtain ⟨-, -, hrem⟩ := h.take_eq S hborrower .arenaSlack hpos hneed hremaining
  refine ⟨by omega, ?_, ?_, htotal, hcurrent, hle, hborrowed, ?_, h.donors_keys,
    h.donors_nonneg, h.donors_add, htokens, hmems, hdonors, hpairs⟩
  · simp only [Borrowing.take]; omega
  · simp only [Borrowing.take, hsub]
    exact h.fits_slack.ofNonneg (by omega) (by omega)
  · intro id'
    have hold := h.lent_eq id'
    simp only [Borrowing.take, donorEntries, List.filterMap_append, Ledger.amountOf_append,
      List.filterMap_cons, List.filterMap_nil, Grant.donorEntry, Ledger.amountOf_nil, add_zero]
    exact hold

end Take

/-! ### The loops -/

section Loops

variable {ar : Arith} {definition : ArenaDefinition F} {demands filled : String → ℤ}
  {offers : List (String × ℤ)} {borrowers : List (ModuleDefinition F)} {available : ℤ}

/-- The donor loop keeps the invariant, and what the borrower still needs.  Along the loop the
borrower's grants come from the donors the loop has passed, so no donor lends to it twice. -/
theorem BorrowInv.borrowFromDonors
    (S : BorrowSetting ar definition filled offers borrowers available)
    {borrower : ModuleDefinition F} (hborrower : borrower ∈ borrowers)
    {donors visited : List (String × ℤ)} {need : ℤ} {b : Borrowing F}
    (h : BorrowInv ar definition demands filled offers borrowers available (visited ++ donors) b)
    (hneed : need = min (demands borrower.moduleId) borrower.maxTokens -
      b.current borrower.moduleId)
    (hfresh : ∀ g ∈ b.grants, g.borrower.moduleId = borrower.moduleId →
      ∃ d ∈ visited, g.donor = .module d.1) :
    let pass := borrowFromDonors ar borrower visited donors need b
    BorrowInv ar definition demands filled offers borrowers available pass.1 pass.2.2 ∧
      pass.2.1 = min (demands borrower.moduleId) borrower.maxTokens -
        pass.2.2.current borrower.moduleId ∧
      (∀ g ∈ pass.2.2.grants, g.borrower.moduleId = borrower.moduleId →
        ∃ id, g.donor = .module id) ∧
      ∀ g ∈ pass.2.2.grants, g ∈ b.grants ∨ g.borrower = borrower := by
  induction donors generalizing visited need b with
  | nil =>
      rw [List.append_nil] at h
      refine ⟨h, hneed, ?_, fun g hg => Or.inl hg⟩
      intro g hg heq
      obtain ⟨d, -, hd⟩ := hfresh g hg heq
      exact ⟨d.1, hd⟩
  | cons d donors ih =>
      obtain ⟨id, offer⟩ := d
      simp only [ContextLease.borrowFromDonors]
      split
      · refine ⟨h, hneed, ?_, fun g hg => Or.inl hg⟩
        intro g hg heq
        obtain ⟨d, -, hd⟩ := hfresh g hg heq
        exact ⟨d.1, hd⟩
      · rename_i hrun
        split
        · refine ih (by rwa [List.append_assoc]) hneed ?_
          intro g hg heq
          obtain ⟨d, hd, hdonor⟩ := hfresh g hg heq
          exact ⟨d, List.mem_append_left _ hd, hdonor⟩
        · rename_i hskip
          rw [not_or, not_le, not_le] at hrun
          rw [not_or, not_le] at hskip
          obtain ⟨hpos, hremaining⟩ := hrun
          obtain ⟨hid, hoffer⟩ := hskip
          generalize hg : min (min need offer) b.remaining = g
          have hm := S.borrowers_mem borrower hborrower
          -- the donor at hand is not among those passed, so its lease to the borrower is new
          have hnew : ∀ g ∈ b.grants, g.donor = .module id →
              g.borrower.moduleId ≠ borrower.moduleId := by
            intro g' hg' hdonor heq
            obtain ⟨d, hd, hd'⟩ := hfresh g' hg' heq
            rw [hdonor, Donor.module.injEq] at hd'
            exact ne_of_keys_nodup (h.donors_keys ▸ S.offers_nodup) d
              (List.mem_append_left _ hd) hd'.symm
          have htake := h.takeModule S hborrower hid (g := g) (by omega) (by omega) (by omega)
            (by omega) hnew
          obtain ⟨hcurrent, -, -⟩ := h.take_eq S hborrower (.module id) (g := g) (by omega)
            (by omega) (by omega)
          have hcur := h.current_nonneg S hm
          have hsub : ar.sub need g = need - g :=
            Arith.sub_of_fits ((S.fits_max borrower hm).ofNonneg (by omega) (by omega))
          have hrest := @ih (visited ++ [(id, ar.sub offer g)]) (ar.sub need g)
            (b.take ar borrower (.module id) g) (by rwa [List.append_assoc])
            (by rw [hsub, hcurrent, Ledger.credit_self]; omega) ?_
          · obtain ⟨h₁, h₂, h₃, h₄⟩ := hrest
            refine ⟨h₁, h₂, h₃, ?_⟩
            have hpassed : ∀ g' ∈ (b.take ar borrower (.module id) g).grants,
                g' ∈ b.grants ∨ g'.borrower = borrower :=
              (forall_mem_take ..).2 ⟨fun _ hg' => Or.inl hg', Or.inr rfl⟩
            intro g' hg'
            rcases h₄ g' hg' with hold | hnew'
            · exact hpassed g' hold
            · exact Or.inr hnew'
          · refine (forall_mem_take ..).2 ⟨?_, ?_⟩
            · intro g' hg' heq
              obtain ⟨d, hd, hd'⟩ := hfresh g' hg' heq
              exact ⟨d, List.mem_append_left _ hd, hd'⟩
            · intro _
              exact ⟨_, List.mem_append_right _ (List.mem_singleton.2 rfl), rfl⟩

/-- One borrower keeps the invariant, if nothing was granted to it before. -/
theorem BorrowInv.borrowFor (S : BorrowSetting ar definition filled offers borrowers available)
    {borrower : ModuleDefinition F} (hborrower : borrower ∈ borrowers)
    {donors : List (String × ℤ)} {b : Borrowing F}
    (h : BorrowInv ar definition demands filled offers borrowers available donors b)
    (hfresh : ∀ g ∈ b.grants, g.borrower.moduleId ≠ borrower.moduleId) :
    let pass := borrowFor ar borrower demands donors b
    BorrowInv ar definition demands filled offers borrowers available pass.1 pass.2 ∧
      ∀ g ∈ pass.2.grants, g ∈ b.grants ∨ g.borrower = borrower := by
  have hm := S.borrowers_mem borrower hborrower
  have hcur := h.current_nonneg S hm
  have hle := h.current_le borrower hm
  have hsub : ar.sub (min (demands borrower.moduleId) borrower.maxTokens)
      (b.current borrower.moduleId) =
      min (demands borrower.moduleId) borrower.maxTokens - b.current borrower.moduleId :=
    Arith.sub_of_fits ((S.fits_max borrower hm).ofNonneg (by omega) (by omega))
  simp only [ContextLease.borrowFor, hsub]
  have hstart : BorrowInv ar definition demands filled offers borrowers available
      ([] ++ donors) b := h
  obtain ⟨hinv, hneed, hdonor, hgrants⟩ := hstart.borrowFromDonors S hborrower rfl
    fun g hg heq => absurd heq (hfresh g hg)
  generalize ContextLease.borrowFromDonors ar borrower [] donors _ b = pass
    at hinv hneed hdonor hgrants ⊢
  simp only [borrowFromSlack]
  split
  · rename_i hrun
    obtain ⟨h₁, h₂, h₃⟩ := hrun
    refine ⟨hinv.takeSlack S hborrower (by omega) (by omega) (by omega) (by omega) ?_, ?_⟩
    · intro g hg hslack heq
      obtain ⟨id, hid⟩ := hdonor g hg heq
      rw [hid] at hslack
      cases hslack
    · exact (forall_mem_take ..).2 ⟨hgrants, Or.inr rfl⟩
  · exact ⟨hinv, hgrants⟩

/-- The borrower loop keeps the invariant. -/
theorem BorrowInv.borrow (S : BorrowSetting ar definition filled offers borrowers available)
    {l : List (ModuleDefinition F)} (hl : ∀ m ∈ l, m ∈ borrowers)
    (hlnodup : (l.map ModuleDefinition.moduleId).Nodup)
    {donors : List (String × ℤ)} {b : Borrowing F}
    (h : BorrowInv ar definition demands filled offers borrowers available donors b)
    (hfresh : ∀ g ∈ b.grants, g.borrower.moduleId ∉ l.map ModuleDefinition.moduleId) :
    ∃ donors', BorrowInv ar definition demands filled offers borrowers available donors'
      (borrow ar demands l donors b) := by
  induction l generalizing donors b with
  | nil => exact ⟨donors, h⟩
  | cons m l ih =>
      rw [List.map_cons, List.nodup_cons] at hlnodup
      obtain ⟨hinv, hgrants⟩ := h.borrowFor S (hl m (List.mem_cons_self ..))
        fun g hg heq => hfresh g hg (by rw [heq]; simp)
      refine ih (fun m' hm' => hl m' (List.mem_cons_of_mem _ hm')) hlnodup.2 hinv ?_
      intro g hg
      rcases hgrants g hg with hold | hnew
      · intro hmem
        exact hfresh g hold (by rw [List.map_cons]; exact List.mem_cons_of_mem _ hmem)
      · rw [hnew]
        exact hlnodup.1

/-- Without tokens left the donor loop grants nothing. -/
theorem borrowFromDonors_of_exhausted (borrower : ModuleDefinition F)
    (visited donors : List (String × ℤ)) (need : ℤ) {b : Borrowing F} (h : b.remaining ≤ 0) :
    (borrowFromDonors ar borrower visited donors need b).2.2 = b := by
  cases donors with
  | nil => rfl
  | cons d donors => simp only [ContextLease.borrowFromDonors, h, or_true, if_true]

/-- Without tokens left nothing is granted. -/
theorem borrow_of_exhausted (l : List (ModuleDefinition F)) (donors : List (String × ℤ))
    {b : Borrowing F} (h : b.remaining ≤ 0) : ContextLease.borrow ar demands l donors b = b := by
  induction l generalizing donors with
  | nil => rfl
  | cons m l ih =>
      simp only [ContextLease.borrow, ContextLease.borrowFor,
        borrowFromDonors_of_exhausted _ _ _ _ h, borrowFromSlack]
      rw [if_neg (by omega)]
      exact ih _

end Loops

end ContextLease
