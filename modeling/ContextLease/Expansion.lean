/-
Expansion beyond the targets.

Over unbounded integers the donors and the slack together hold at least the tokens that remain, and
a grant takes as much from both sides.  So whatever a borrower needs and is left it gets, out of one
or the other, and the borrowing phase is a rationing of the remaining tokens.

Main definitions:

* `Gains` — what a borrower gains between two states of the borrowing phase;
* `Covered` — the donors and the slack hold what remains;
* `expansionNeed`, `expansionQueue` — what the modules that may borrow ask for, and in which order.

Main results:

* `borrowFor_gains`, `borrow_gains` — a borrower gets what it needs, as far as it is left;
* `expansion_greedy` — if every module lends, the remaining tokens are rationed to the modules that
  may borrow, and none is stranded.
-/

import ContextLease.AllocationSafety
import ContextLease.AdmissionSpec
import ContextLease.LeaseIds
import ContextLease.Rationing

set_option relaxedAutoImplicit false
set_option autoImplicit false

namespace ContextLease

open MachineNumbers

variable {F : Type}

/-! ### Gains -/

/-- What the leases so far add up to. -/
def Borrowing.granted (b : Borrowing F) : ℤ := (b.grants.map Grant.tokens).sum

/-- Between two states of the borrowing phase the borrower gains `g` tokens, and nothing else
happens to what the modules have. -/
structure Gains (borrower : ModuleDefinition F) (g : ℤ) (b b' : Borrowing F) : Prop where
  current : b'.current = Ledger.credit b.current borrower.moduleId g
  borrowed : b'.borrowed = Ledger.credit b.borrowed borrower.moduleId g
  remaining : b'.remaining = b.remaining - g
  granted : b'.granted = b.granted + g

theorem Gains.refl (borrower : ModuleDefinition F) (b : Borrowing F) : Gains borrower 0 b b where
  current := by rw [Ledger.credit, add_zero, Function.update_eq_self]
  borrowed := by rw [Ledger.credit, add_zero, Function.update_eq_self]
  remaining := (sub_zero _).symm
  granted := (add_zero _).symm

theorem credit_credit (ledger : String → ℤ) (key : String) (x y : ℤ) :
    Ledger.credit (Ledger.credit ledger key x) key y = Ledger.credit ledger key (x + y) := by
  simp only [Ledger.credit, Function.update_idem, Function.update_self, add_assoc]

theorem Gains.trans {borrower : ModuleDefinition F} {g g' : ℤ} {b b' b'' : Borrowing F}
    (h : Gains borrower g b b') (h' : Gains borrower g' b' b'') :
    Gains borrower (g + g') b b'' where
  current := by rw [h'.current, h.current, credit_credit]
  borrowed := by rw [h'.borrowed, h.borrowed, credit_credit]
  remaining := by rw [h'.remaining, h.remaining, sub_sub]
  granted := by rw [h'.granted, h.granted, add_assoc]

/-- A grant is a gain. -/
theorem Gains.take (borrower : ModuleDefinition F) (donor : Donor) (g : ℤ) (b : Borrowing F) :
    Gains borrower g b (b.take .exact borrower donor g) where
  current := rfl
  borrowed := rfl
  remaining := rfl
  granted := by simp [Borrowing.granted, Borrowing.take]

/-! ### The donors and the slack -/

/-- The donors and the slack hold what remains. -/
structure Covered (donors : List (String × ℤ)) (b : Borrowing F) : Prop where
  donors_nonneg : ∀ d ∈ donors, 0 ≤ d.2
  slack_nonneg : 0 ≤ b.sharedSlack
  remaining_nonneg : 0 ≤ b.remaining
  covers : b.remaining ≤ (donors.map Prod.snd).sum + b.sharedSlack

/-- The donor loop of a borrower that is no donor itself: it gains what it needs, as far as the
donors have it and it is left.  By induction on the donors; the loop ends early only when nothing is
needed or left. -/
theorem borrowFromDonors_gains {borrower : ModuleDefinition F} {donors : List (String × ℤ)}
    (hdonors : ∀ d ∈ donors, 0 ≤ d.2) (hother : ∀ d ∈ donors, d.1 ≠ borrower.moduleId)
    (visited : List (String × ℤ)) (need : ℤ) {b : Borrowing F} (hremaining : 0 ≤ b.remaining) :
    ∃ donors' b' g, borrowFromDonors .exact borrower visited donors need b =
        (visited ++ donors', need - g, b') ∧
      g = min (max need 0) (min (donors.map Prod.snd).sum b.remaining) ∧
      Gains borrower g b b' ∧ b'.sharedSlack = b.sharedSlack ∧
      donors'.map Prod.fst = donors.map Prod.fst ∧ (∀ d ∈ donors', 0 ≤ d.2) ∧
      (donors'.map Prod.snd).sum = (donors.map Prod.snd).sum - g := by
  induction donors generalizing visited need b with
  | nil =>
      refine ⟨[], b, 0, by rw [borrowFromDonors, List.append_nil, sub_zero], ?_, .refl borrower b,
        rfl, rfl, hdonors, by simp⟩
      simp only [List.map_nil, List.sum_nil]
      omega
  | cons d donors ih =>
      obtain ⟨id, available⟩ := d
      have havailable : 0 ≤ available := hdonors _ (List.mem_cons_self ..)
      have hid : id ≠ borrower.moduleId := hother _ (List.mem_cons_self ..)
      have hdonors' : ∀ d ∈ donors, 0 ≤ d.2 := fun d hd => hdonors d (List.mem_cons_of_mem _ hd)
      have hother' : ∀ d ∈ donors, d.1 ≠ borrower.moduleId :=
        fun d hd => hother d (List.mem_cons_of_mem _ hd)
      have hrest : 0 ≤ (donors.map Prod.snd).sum := by
        refine List.sum_nonneg ?_
        intro x hx
        obtain ⟨d, hd, rfl⟩ := List.mem_map.1 hx
        exact hdonors' d hd
      rw [borrowFromDonors, List.map_cons, List.sum_cons]
      by_cases hstop : need ≤ 0 ∨ b.remaining ≤ 0
      · rw [if_pos hstop]
        refine ⟨(id, available) :: donors, b, 0, by rw [sub_zero], ?_, .refl borrower b, rfl, rfl,
          hdonors, by simp⟩
        simp only
        omega
      · rw [if_neg hstop]
        by_cases hempty : id = borrower.moduleId ∨ available ≤ 0
        · -- a donor without tokens is skipped
          have hzero : available = 0 := by
            rcases hempty with h | h
            · exact absurd h hid
            · omega
          obtain ⟨donors', b', g, heq, hg, hgains, hslack, hkeys, hnonneg, hsum⟩ :=
            ih hdonors' hother' (visited ++ [(id, available)]) need hremaining
          rw [if_pos hempty, heq]
          refine ⟨(id, available) :: donors', b', g, ?_, ?_, hgains, hslack, ?_, ?_, ?_⟩
          · rw [List.append_assoc, List.singleton_append]
          · simp only
            omega
          · rw [List.map_cons, List.map_cons, hkeys]
          · intro d hd
            rcases List.mem_cons.1 hd with rfl | hd
            · exact havailable
            · exact hnonneg d hd
          · rw [List.map_cons, List.sum_cons, hsum]
            simp only
            omega
        · rw [if_neg hempty]
          set taken := min (min need available) b.remaining with htaken
          have htake := Gains.take borrower (.module id) taken b
          have hleft : 0 ≤ (b.take .exact borrower (.module id) taken).remaining := by
            rw [htake.remaining]
            omega
          obtain ⟨donors', b', g, heq, hg, hgains, hslack, hkeys, hnonneg, hsum⟩ :=
            ih hdonors' hother' (visited ++ [(id, Arith.exact.sub available taken)])
              (Arith.exact.sub need taken) hleft
          simp only
          rw [heq]
          rw [htake.remaining, Arith.sub_exact] at hg
          refine ⟨(id, available - taken) :: donors', b', taken + g, ?_, ?_, htake.trans hgains,
            hslack, ?_, ?_, ?_⟩
          · rw [List.append_assoc, List.singleton_append, Arith.sub_exact, Arith.sub_exact, sub_sub]
          · omega
          · rw [List.map_cons, List.map_cons, hkeys]
          · intro d hd
            rcases List.mem_cons.1 hd with rfl | hd
            · simp only
              omega
            · exact hnonneg d hd
          · rw [List.map_cons, List.sum_cons, hsum]
            simp only
            omega

/-- One borrower that is no donor gains what it needs, as far as it is left. -/
theorem borrowFor_gains {borrower : ModuleDefinition F} {demands : String → ℤ}
    {donors : List (String × ℤ)} {b : Borrowing F} (hcovered : Covered donors b)
    (hother : ∀ d ∈ donors, d.1 ≠ borrower.moduleId)
    (hneed : b.current borrower.moduleId ≤ min (demands borrower.moduleId) borrower.maxTokens) :
    ∃ donors' b', borrowFor .exact borrower demands donors b = (donors', b') ∧
      Gains borrower (min (min (demands borrower.moduleId) borrower.maxTokens -
        b.current borrower.moduleId) b.remaining) b b' ∧
      Covered donors' b' ∧ donors'.map Prod.fst = donors.map Prod.fst := by
  set need := min (demands borrower.moduleId) borrower.maxTokens - b.current borrower.moduleId
    with hneedEq
  have hcovers := hcovered.covers
  have hslackNonneg := hcovered.slack_nonneg
  have hremaining := hcovered.remaining_nonneg
  obtain ⟨donors', b', g, heq, hg, hgains, hslack, hkeys, hnonneg, hsum⟩ :=
    borrowFromDonors_gains hcovered.donors_nonneg hother [] need hremaining
  have hleft := hgains.remaining
  have hrest : 0 ≤ (donors'.map Prod.snd).sum := by
    refine List.sum_nonneg ?_
    intro x hx
    obtain ⟨d, hd, rfl⟩ := List.mem_map.1 hx
    exact hnonneg d hd
  have hpass : borrowFor .exact borrower demands donors b =
      (donors', borrowFromSlack .exact borrower (need - g) b') := by
    simp only [borrowFor, Arith.sub_exact, ← hneedEq, heq, List.nil_append]
  by_cases hslackStep : 0 < need - g ∧ 0 < b'.sharedSlack ∧ 0 < b'.remaining
  · -- the donors had too little, so the slack holds the rest
    set taken := min (min (need - g) b'.sharedSlack) b'.remaining with htaken
    have htake := Gains.take borrower .arenaSlack taken b'
    refine ⟨donors', _, by rw [hpass, borrowFromSlack, if_pos hslackStep], ?_,
      ⟨hnonneg, ?_, ?_, ?_⟩, hkeys⟩
    · have hsum : min need b.remaining = g + taken := by omega
      rw [hsum]
      exact hgains.trans htake
    · change 0 ≤ b'.sharedSlack - taken
      omega
    · rw [htake.remaining]
      omega
    · rw [htake.remaining]
      change b'.remaining - taken ≤ _ + (b'.sharedSlack - taken)
      omega
  · refine ⟨donors', b', by rw [hpass, borrowFromSlack, if_neg hslackStep], ?_,
      ⟨hnonneg, by omega, by omega, by omega⟩, hkeys⟩
    have hsum : min need b.remaining = g := by omega
    rw [hsum]
    exact hgains

/-! ### The queue of the borrowers -/

/-- What is left to ask for of a module that has `current` tokens. -/
def openNeed (demands current : String → ℤ) (m : ModuleDefinition F) : ℤ :=
  min (demands m.moduleId) m.maxTokens - current m.moduleId

/-- What a rationing gives out, by module id. -/
def servedEntries (need : ModuleDefinition F → ℤ) (queue : List (ModuleDefinition F))
    (supply : ℤ) : List (String × ℤ) :=
  (Rationing.serve need queue supply).map fun e => (e.1.moduleId, e.2)

theorem keys_servedEntries (need : ModuleDefinition F → ℤ) (queue : List (ModuleDefinition F))
    (supply : ℤ) :
    (servedEntries need queue supply).map Prod.fst = queue.map ModuleDefinition.moduleId := by
  have hkeys := congrArg (List.map ModuleDefinition.moduleId)
    (Rationing.map_fst_serve need queue supply)
  rw [List.map_map] at hkeys
  rw [servedEntries, List.map_map]
  exact hkeys

/-- Out of nothing nobody is served. -/
theorem served_nothing {need : ModuleDefinition F → ℤ} {queue : List (ModuleDefinition F)}
    (hneed : ∀ m ∈ queue, 0 ≤ need m) (hnodup : (queue.map ModuleDefinition.moduleId).Nodup) :
    (∀ id, Ledger.amountOf (servedEntries need queue 0) id = 0) ∧
      Rationing.left need queue 0 = 0 := by
  constructor
  · intro id
    by_contra hne
    obtain ⟨e, he, rfl⟩ := Ledger.exists_of_amountOf_ne_zero hne
    rw [Ledger.amountOf_of_mem (by rwa [keys_servedEntries]) he] at hne
    obtain ⟨e', he', rfl⟩ := List.mem_map.1 he
    exact hne (Rationing.serve_zero hneed e' he')
  · have hsum : 0 ≤ (queue.map need).sum := by
      refine List.sum_nonneg ?_
      intro x hx
      obtain ⟨m, hm, rfl⟩ := List.mem_map.1 hx
      exact hneed m hm
    rw [Rationing.left_eq hneed (le_refl 0)]
    omega

/-- The borrower loop is a rationing of what remains.  By induction on the borrowers: what one of
them gains changes nothing for the others. -/
theorem borrow_gains {demands : String → ℤ} {borrowers : List (ModuleDefinition F)}
    (hnodup : (borrowers.map ModuleDefinition.moduleId).Nodup) {donors : List (String × ℤ)}
    {b : Borrowing F} (hcovered : Covered donors b)
    (hother : ∀ m ∈ borrowers, ∀ d ∈ donors, d.1 ≠ m.moduleId)
    (hneed : ∀ m ∈ borrowers, 0 ≤ openNeed demands b.current m) :
    let b' := borrow .exact demands borrowers donors b
    let need := openNeed demands b.current
    (∀ id, b'.current id =
        b.current id + Ledger.amountOf (servedEntries need borrowers b.remaining) id) ∧
      (∀ id, b'.borrowed id =
        b.borrowed id + Ledger.amountOf (servedEntries need borrowers b.remaining) id) ∧
      b'.remaining = Rationing.left need borrowers b.remaining ∧
      b'.granted - b.granted = b.remaining - b'.remaining := by
  induction borrowers generalizing donors b with
  | nil =>
      refine ⟨fun id => (add_zero _).symm, fun id => (add_zero _).symm, rfl, ?_⟩
      rw [borrow, sub_self, sub_self]
  | cons borrower borrowers ih =>
      rw [List.map_cons, List.nodup_cons] at hnodup
      have hhead := hneed borrower (List.mem_cons_self ..)
      obtain ⟨donors', b', heq, hgains, hcovered', hkeys⟩ :=
        @borrowFor_gains F borrower demands donors b hcovered
          (hother borrower (List.mem_cons_self ..)) (by rw [openNeed] at hhead; omega)
      set g := min (openNeed demands b.current borrower) b.remaining with hg
      change Gains borrower g b b' at hgains
      -- the needs of the others stay what they were
      have hsame : ∀ m ∈ borrowers,
          openNeed demands b'.current m = openNeed demands b.current m := by
        intro m hm
        have hne : m.moduleId ≠ borrower.moduleId :=
          fun h => hnodup.1 (h ▸ List.mem_map_of_mem hm)
        rw [openNeed, openNeed, hgains.current, Ledger.credit_of_ne _ _ hne]
      have hother' : ∀ m ∈ borrowers, ∀ d ∈ donors', d.1 ≠ m.moduleId := by
        intro m hm d hd
        have hmem : d.1 ∈ donors.map Prod.fst := hkeys ▸ List.mem_map_of_mem hd
        obtain ⟨d₀, hd₀, hid⟩ := List.mem_map.1 hmem
        rw [← hid]
        exact hother m (List.mem_cons_of_mem _ hm) d₀ hd₀
      obtain ⟨hcurrent, hborrowed, hremaining, hgranted⟩ := ih hnodup.2 hcovered' hother'
        fun m hm => by rw [hsame m hm]; exact hneed m (List.mem_cons_of_mem _ hm)
      obtain ⟨hserve, hleft⟩ := Rationing.serve_congr hsame b'.remaining
      have hentries : servedEntries (openNeed demands b.current)
          (borrower :: borrowers) b.remaining =
          (borrower.moduleId, g) ::
            servedEntries (openNeed demands b'.current) borrowers b'.remaining := by
        rw [servedEntries, Rationing.serve, List.map_cons, servedEntries, hserve, hgains.remaining]
      have hstep : borrow .exact demands (borrower :: borrowers) donors b =
          borrow .exact demands borrowers donors' b' := by
        rw [borrow, heq]
      have hcredit : ∀ (ledger : String → ℤ) (id : String),
          Ledger.credit ledger borrower.moduleId g id =
            ledger id + (if borrower.moduleId = id then g else 0) := by
        intro ledger id
        by_cases hid : borrower.moduleId = id
        · rw [if_pos hid, ← hid, Ledger.credit_self]
        · rw [if_neg hid, add_zero, Ledger.credit_of_ne _ _ (Ne.symm hid)]
      simp only [hstep, hentries, Ledger.amountOf_cons]
      refine ⟨?_, ?_, ?_, ?_⟩
      · intro id
        rw [hcurrent, hgains.current, hcredit, add_assoc]
      · intro id
        rw [hborrowed, hgains.borrowed, hcredit, add_assoc]
      · rw [hremaining, Rationing.left, hleft, hgains.remaining]
      · have h₁ := hgains.remaining
        have h₂ := hgains.granted
        omega

/-! ### Runs of the allocator -/

section Run

variable {definition : ArenaDefinition F} {demands : String → ℤ}

/-- The tokens the weighted rounds start with. -/
def fillBudget (definition : ArenaDefinition F) (demands : String → ℤ) (inputBudget : ℤ) : ℤ :=
  inputBudget - definition.frameworkReserveTokens -
    Ledger.total (definition.modules.map ModuleDefinition.moduleId)
      (initialCurrent definition demands)

variable [FloatOps F]

/-- The ledger after the weighted rounds, and what remains of the budget. -/
def targetFill (definition : ArenaDefinition F) (demands : String → ℤ) (inputBudget : ℤ) :
    (String → ℤ) × ℤ :=
  weightedFill .exact definition (targetCaps definition demands)
    (initialCurrent definition demands) (fillBudget definition demands inputBudget)

variable (hvalid : ValidDefinition definition)
  (hdemands : ∀ m ∈ definition.modules, 0 ≤ demands m.moduleId) {inputBudget : ℤ}
  (hbudget : validateModelBudget .exact definition inputBudget = .ok ())
include hvalid hdemands hbudget

omit [FloatOps F] in
/-- An admissible budget covers the floors. -/
theorem fillBudget_nonneg : 0 ≤ fillBudget definition demands inputBudget := by
  have hfloors := (validateModelBudget_eq_ok.1 hbudget).2
  simp only [Arith.sum_exact, Arith.sub_exact] at hfloors
  have hle : Ledger.total (definition.modules.map ModuleDefinition.moduleId)
      (initialCurrent definition demands) ≤
      (definition.modules.map ModuleDefinition.floorTokens).sum := by
    rw [Ledger.total, List.map_map]
    exact List.sum_le_sum fun m hm => (initialCurrent_bounds hvalid hdemands hm).2
  rw [fillBudget]
  omega

/-- What the weighted rounds of an admissible budget establish. -/
theorem targetFill_result :
    FillResult (definition.modules.map ModuleDefinition.moduleId) (targetCaps definition demands)
      (initialCurrent definition demands) (fillBudget definition demands inputBudget)
      (targetFill definition demands inputBudget) :=
  weightedFill_initial hvalid (fun _ _ => Arith.fits_exact _) hdemands
    (fillBudget_nonneg hvalid hdemands hbudget) (Arith.fits_exact _)

/-- The borrowing phase follows the weighted rounds. -/
theorem allocateLedger_targetFill :
    allocateLedger .exact definition demands inputBudget =
      .ok (borrowAfter .exact definition demands (targetFill definition demands inputBudget)) := by
  have hnonneg := fillBudget_nonneg hvalid hdemands hbudget
  have hsum : (definition.modules.map fun m => initialCurrent definition demands m.moduleId).sum =
      Ledger.total (definition.modules.map ModuleDefinition.moduleId)
        (initialCurrent definition demands) := by
    rw [Ledger.total, List.map_map]
    rfl
  rw [fillBudget] at hnonneg
  simp only [allocateLedger, Arith.sub_exact, Arith.sum_exact, hsum]
  rw [if_neg (not_lt.2 hnonneg)]
  simp only [borrowAfter, borrowStart, targetFill, fillBudget, Arith.sub_exact, Arith.sum_exact]

/-- With tokens left after the rounds every module has what it asks for, up to its target. -/
theorem targetFill_full (hleft : 0 < (targetFill definition demands inputBudget).2)
    {m : ModuleDefinition F} (hm : m ∈ definition.modules) :
    (targetFill definition demands inputBudget).1 m.moduleId =
      min m.targetTokens (demands m.moduleId) := by
  rcases (targetFill_result hvalid hdemands hbudget).exhausted with hzero | hfull
  · omega
  · rw [hfull _ (List.mem_map_of_mem hm), targetCaps_apply hvalid hm]

/-- The borrowing phase is a rationing of what the rounds leave. -/
theorem borrowAfter_rationed :
    let filled := targetFill definition demands inputBudget
    let b := borrowAfter .exact definition demands filled
    let queue := borrowersOf definition demands filled.1
    let entries := servedEntries (openNeed demands filled.1) queue filled.2
    (∀ id, b.current id = filled.1 id + Ledger.amountOf entries id) ∧
      (∀ id, b.borrowed id = Ledger.amountOf entries id) ∧
      b.remaining = Rationing.left (openNeed demands filled.1) queue filled.2 ∧
      b.granted = filled.2 - b.remaining ∧ ∀ m ∈ queue, 0 ≤ openNeed demands filled.1 m := by
  intro filled b queue entries
  have hfill := targetFill_result hvalid hdemands hbudget
  have hneed : ∀ m ∈ queue, 0 ≤ openNeed demands filled.1 m := by
    intro m hm
    obtain ⟨hmem, -, hlt, hmax⟩ := mem_borrowersOf.1 hm
    have hbounds : filled.1 m.moduleId ≤ min m.targetTokens (demands m.moduleId) :=
      (filled_bounds hvalid hdemands hfill hmem).2.2
    rw [openNeed]
    omega
  rcases hfill.remaining_nonneg.lt_or_eq with hpos | hzero
  · have hstart : Covered (donorsOf .exact definition filled.1)
        (borrowStart .exact definition filled) := by
      refine ⟨?_, le_max_right _ _, hpos.le, ?_⟩
      · intro d hd
        obtain ⟨_, _, _, _, hoffer⟩ := mem_donorsOf.1 hd
        exact hoffer.le
      · simp only [borrowStart, Arith.sum_exact, Arith.sub_exact]
        omega
    -- a module that borrows has its target already, so it has nothing to lend
    have hother : ∀ m ∈ queue, ∀ d ∈ donorsOf .exact definition filled.1, d.1 ≠ m.moduleId := by
      intro m hm d hd heq
      obtain ⟨hmem, -, hlt, -⟩ := mem_borrowersOf.1 hm
      obtain ⟨s, hs, -, hoffer, hpositive⟩ := mem_donorsOf.1 hd
      obtain rfl : s = m :=
        eq_of_moduleId_eq hvalid.ids_nodup hs hmem ((congrArg Prod.fst hoffer).symm.trans heq)
      have hfull := targetFill_full hvalid hdemands hbudget hpos hmem
      change filled.1 s.moduleId = _ at hfull
      rw [hoffer, hfull] at hpositive
      simp only [Arith.sub_exact] at hpositive
      omega
    obtain ⟨hcurrent, hborrowed, hremaining, hgranted⟩ := borrow_gains
      (borrowersOf_nodup hvalid.ids_nodup _ _) hstart hother hneed
    refine ⟨hcurrent, ?_, hremaining, ?_, hneed⟩
    · intro id
      rw [← zero_add (Ledger.amountOf entries id)]
      exact hborrowed id
    · rw [← sub_zero b.granted]
      exact hgranted
  · have hzero' : filled.2 = 0 := hzero.symm
    have hnone : b = borrowStart .exact definition filled := by
      refine borrow_of_exhausted _ _ ?_
      exact hzero'.le
    obtain ⟨hentries, hleft⟩ := served_nothing hneed (borrowersOf_nodup hvalid.ids_nodup _ _)
    simp only [entries, hzero', hentries, hleft, hnone, add_zero]
    exact ⟨fun _ => rfl, fun _ => rfl, hzero', by rw [borrowStart, hzero']; rfl, hneed⟩

end Run

/-! ### Greedy expansion -/

/-- A module may expand: it may borrow, and asks for more than its target. -/
def mayExpand (demands : String → ℤ) (m : ModuleDefinition F) : Bool :=
  m.canBorrow && decide (m.targetTokens < demands m.moduleId)

theorem mayExpand_iff {demands : String → ℤ} {m : ModuleDefinition F} :
    mayExpand demands m = true ↔ m.canBorrow = true ∧ m.targetTokens < demands m.moduleId := by
  rw [mayExpand, Bool.and_eq_true, decide_eq_true_eq]

/-- What a module asks for beyond its target. -/
def expansionNeed (demands : String → ℤ) (m : ModuleDefinition F) : ℤ :=
  min (demands m.moduleId) m.maxTokens - m.targetTokens

/-- A module has room beyond its target. -/
def hasRoom (m : ModuleDefinition F) : Bool := decide (m.targetTokens < m.maxTokens)

section Queue

variable [FloatOps F] {definition : ArenaDefinition F} {demands : String → ℤ}

/-- The modules that may expand, in the order they are served. -/
def expansionQueue (definition : ArenaDefinition F) (demands : String → ℤ) :
    List (ModuleDefinition F) :=
  (definition.modules.filter (mayExpand demands)).insertionSort borrowsBefore

theorem mem_expansionQueue {m : ModuleDefinition F} :
    m ∈ expansionQueue definition demands ↔
      m ∈ definition.modules ∧ m.canBorrow = true ∧ m.targetTokens < demands m.moduleId := by
  rw [expansionQueue, List.mem_insertionSort, List.mem_filter, mayExpand_iff]

theorem nodup_expansionQueue (hvalid : ValidDefinition definition) :
    ((expansionQueue definition demands).map ModuleDefinition.moduleId).Nodup := by
  rw [expansionQueue, ((List.perm_insertionSort _ _).map _).nodup_iff]
  exact hvalid.ids_nodup.sublist (List.filter_sublist.map _)

/-- Who may expand asks for something, if it has room. -/
theorem expansionNeed_bounds (hvalid : ValidDefinition definition) {m : ModuleDefinition F}
    (hm : m ∈ expansionQueue definition demands) :
    0 ≤ expansionNeed demands m ∧ (hasRoom m = false → expansionNeed demands m = 0) := by
  obtain ⟨hmem, -, hlt⟩ := mem_expansionQueue.1 hm
  have hmax := (hvalid.valid m hmem).target_le_max
  rw [expansionNeed, hasRoom, decide_eq_false_iff_not]
  constructor
  · omega
  · intro hroom
    omega

/-- After a fill to the targets, the borrowers are the modules of the queue that have room. -/
theorem borrowersOf_eq_queue (hvalid : ValidDefinition definition)
    (hweights : WeightsCompare definition.modules) {current : String → ℤ}
    (hfull : ∀ m ∈ definition.modules, current m.moduleId =
      min m.targetTokens (demands m.moduleId)) :
    borrowersOf definition demands current =
      (expansionQueue definition demands).filter hasRoom := by
  have hperm : (borrowersOf definition demands current).Perm
      ((expansionQueue definition demands).filter hasRoom) := by
    refine (List.perm_insertionSort _ _).trans (List.Perm.trans ?_
      ((List.perm_insertionSort _ _).symm.filter _))
    rw [List.filter_filter]
    refine List.Perm.of_eq (List.filter_congr ?_)
    intro m hm
    rw [hfull m hm, Bool.eq_iff_iff]
    simp only [mayExpand, hasRoom, Bool.and_eq_true, decide_eq_true_eq, gt_iff_lt]
    constructor
    · rintro ⟨⟨hborrow, hlt⟩, hmax⟩
      exact ⟨by omega, hborrow, hlt⟩
    · rintro ⟨hmax, hborrow, hlt⟩
      exact ⟨⟨hborrow, hlt⟩, by omega⟩
  have hmem : ∀ {m}, m ∈ borrowersOf definition demands current → m ∈ definition.modules :=
    fun hm => (mem_borrowersOf.1 hm).1
  have hsorted := hweights.sorted (l := definition.modules.filter (mayExpand demands))
    fun m hm => (List.mem_filter.1 hm).1
  have hsorted' : (borrowersOf definition demands current).Pairwise borrowsBefore :=
    hweights.sorted fun m hm => (List.mem_filter.1 hm).1
  refine List.Perm.eq_of_pairwise (fun m m' hm hm' hle hle' => ?_) hsorted' (hsorted.filter _) hperm
  have hm'' := hmem (hperm.mem_iff.2 hm')
  exact eq_of_moduleId_eq hvalid.ids_nodup (hmem hm) hm''
    (hweights.borrowsBefore_antisymm (hmem hm) hm'' hle hle')

end Queue

/-- The remaining tokens of an allocation are rationed to the modules that may expand, and none is
stranded. -/
structure GreedyExpansion [FloatOps F] (definition : ArenaDefinition F) (demands : String → ℤ)
    (inputBudget : ℤ) (allocations : List ModuleAllocation) : Prop where
  sorted : (expansionQueue definition demands).Pairwise borrowsBefore
  served : ∀ e ∈ Rationing.serve (expansionNeed demands) (expansionQueue definition demands)
      (targetFill definition demands inputBudget).2,
    (allocationOf allocations e.1).borrowedCapacityTokens = e.2 ∧
      (0 < (targetFill definition demands inputBudget).2 →
        (allocationOf allocations e.1).allocatedTokens = e.1.targetTokens + e.2)
  others : ∀ m ∈ definition.modules, m ∉ expansionQueue definition demands →
    (allocationOf allocations m).borrowedCapacityTokens = 0
  not_stranded : (allocations.map ModuleAllocation.allocatedTokens).sum <
      inputBudget - definition.frameworkReserveTokens →
    ∀ m ∈ definition.modules, (allocationOf allocations m).allocatedTokens =
      min (demands m.moduleId) (if m.canBorrow then m.maxTokens else m.targetTokens)

section Greedy

variable [FloatOps F] {definition : ArenaDefinition F} {demands : String → ℤ}
  (hvalid : ValidDefinition definition) (hweights : WeightsCompare definition.modules)
  (hdemands : ∀ m ∈ definition.modules, 0 ≤ demands m.moduleId) {inputBudget : ℤ}
  (hbudget : validateModelBudget .exact definition inputBudget = .ok ())
include hvalid hweights hdemands hbudget

/-- The borrowing phase rations what the rounds leave to the modules that may expand. -/
theorem borrowAfter_greedy :
    let filled := targetFill definition demands inputBudget
    let b := borrowAfter .exact definition demands filled
    let entries := servedEntries (expansionNeed demands)
        (expansionQueue definition demands) filled.2
    (∀ id, b.current id = filled.1 id + Ledger.amountOf entries id) ∧
      (∀ id, b.borrowed id = Ledger.amountOf entries id) ∧
      b.remaining =
        Rationing.left (expansionNeed demands) (expansionQueue definition demands) filled.2 ∧
      b.granted = filled.2 - b.remaining := by
  intro filled b entries
  have hfill := targetFill_result hvalid hdemands hbudget
  obtain ⟨hcurrent, hborrowed, hremaining, hgranted, hneed⟩ :=
    borrowAfter_rationed hvalid hdemands hbudget
  have hneed' : ∀ m ∈ expansionQueue definition demands, 0 ≤ expansionNeed demands m :=
    fun m hm => (expansionNeed_bounds hvalid hm).1
  have hsame : (∀ id, Ledger.amountOf (servedEntries (openNeed demands filled.1)
        (borrowersOf definition demands filled.1) filled.2) id = Ledger.amountOf entries id) ∧
      Rationing.left (openNeed demands filled.1)
        (borrowersOf definition demands filled.1) filled.2 =
        Rationing.left (expansionNeed demands) (expansionQueue definition demands) filled.2 := by
    rcases hfill.remaining_nonneg.lt_or_eq with hpos | hzero
    · have hfull : ∀ m ∈ definition.modules, filled.1 m.moduleId =
          min m.targetTokens (demands m.moduleId) :=
        fun m hm => targetFill_full hvalid hdemands hbudget hpos hm
      have hopen : ∀ m ∈ (expansionQueue definition demands).filter hasRoom,
          openNeed demands filled.1 m = expansionNeed demands m := by
        intro m hm
        obtain ⟨hmem, -, hlt⟩ := mem_expansionQueue.1 (List.mem_filter.1 hm).1
        rw [openNeed, expansionNeed, hfull m hmem, min_eq_left hlt.le]
      obtain ⟨hserve, hleft⟩ := Rationing.serve_congr hopen filled.2
      obtain ⟨hfilter, hleft', hskipped⟩ := @Rationing.serve_filter _
        (expansionNeed demands) _ hasRoom (fun m hm => (expansionNeed_bounds hvalid hm).2) _ hpos.le
      rw [borrowersOf_eq_queue hvalid hweights hfull]
      refine ⟨fun id => ?_, hleft.trans hleft'⟩
      rw [servedEntries, hserve, hfilter]
      exact Ledger.amountOf_map_filter (p := fun e : ModuleDefinition F × ℤ => hasRoom e.1)
        (f := fun e => (e.1.moduleId, e.2)) hskipped id
    · -- out of nothing nobody is served
      have hopen := served_nothing hneed (borrowersOf_nodup hvalid.ids_nodup _ _)
      have hexpand := served_nothing hneed' (nodup_expansionQueue hvalid)
      have hzero' : filled.2 = 0 := hzero.symm
      simp only [entries, hzero']
      exact ⟨fun id => (hopen.1 id).trans (hexpand.1 id).symm, hopen.2.trans hexpand.2.symm⟩
  refine ⟨fun id => ?_, fun id => ?_, hremaining.trans hsame.2, hgranted⟩
  · rw [← hsame.1 id]
    exact hcurrent id
  · rw [← hsame.1 id]
    exact hborrowed id

omit hweights in
/-- What is allocated and what remains make up the budget. -/
theorem borrowAfter_total :
    let b := borrowAfter .exact definition demands (targetFill definition demands inputBudget)
    Ledger.total (definition.modules.map ModuleDefinition.moduleId) b.current + b.remaining =
      inputBudget - definition.frameworkReserveTokens := by
  have hfloors := (validateModelBudget_eq_ok.1 hbudget).2
  simp only [Arith.sum_exact, Arith.sub_exact] at hfloors
  obtain ⟨filled, hledger, hrun⟩ := allocationRun hvalid (fun _ _ => Arith.fits_exact _) hdemands
    (Arith.fits_exact _) hfloors
  obtain ⟨donors, hinv⟩ := hrun.inv
  rw [allocateLedger_targetFill hvalid hdemands hbudget, Except.ok.injEq] at hledger
  rw [hledger]
  exact hinv.total_add

section Entries

variable {tokens : ℤ}
omit hweights hdemands hbudget

/-- The entry of a module that is served is what it gets. -/
theorem amountOf_served {e : ModuleDefinition F × ℤ}
    (he : e ∈ Rationing.serve (expansionNeed demands) (expansionQueue definition demands) tokens) :
    e.1 ∈ expansionQueue definition demands ∧
      Ledger.amountOf (servedEntries (expansionNeed demands) (expansionQueue definition demands)
        tokens) e.1.moduleId = e.2 := by
  have hnodup : ((expansionQueue definition demands).map ModuleDefinition.moduleId).Nodup :=
    nodup_expansionQueue hvalid
  constructor
  · rw [← Rationing.map_fst_serve (expansionNeed demands) (expansionQueue definition demands)
      tokens]
    exact List.mem_map_of_mem he
  · exact Ledger.amountOf_of_mem (e := (e.1.moduleId, e.2)) (by rwa [keys_servedEntries])
      (List.mem_map.2 ⟨e, he, rfl⟩)

/-- A module that does not ask gets nothing. -/
theorem amountOf_not_asking {m : ModuleDefinition F} (hm : m ∈ definition.modules)
    (hnot : m ∉ expansionQueue definition demands) :
    Ledger.amountOf (servedEntries (expansionNeed demands) (expansionQueue definition demands)
      tokens) m.moduleId = 0 := by
  refine Ledger.amountOf_of_not_mem ?_
  rw [keys_servedEntries]
  intro hid
  obtain ⟨m', hm', heq⟩ := List.mem_map.1 hid
  rw [eq_of_moduleId_eq hvalid.ids_nodup (mem_expansionQueue.1 hm').1 hm heq] at hm'
  exact hnot hm'

end Entries

/-- The allocator rations what the target fill leaves to the modules that may expand, by weight,
then order, then id: each gets what it asks for as far as it is left, and nothing is stranded. -/
theorem expansion_greedy (layoutHash : String) :
    ∃ allocations leases,
      allocate .exact definition demands layoutHash inputBudget = .ok (allocations, leases) ∧
        GreedyExpansion definition demands inputBudget allocations := by
  have hledger := allocateLedger_targetFill hvalid hdemands hbudget
  have htotal := borrowAfter_total hvalid hdemands hbudget
  have hfull := targetFill_full hvalid hdemands hbudget
  obtain ⟨hcurrent, hborrowed, hremaining, -⟩ :=
    borrowAfter_greedy hvalid hweights hdemands hbudget
  set filled := targetFill definition demands inputBudget with hfilled
  set b := borrowAfter .exact definition demands filled with hb
  have hneed : ∀ m ∈ expansionQueue definition demands, 0 ≤ expansionNeed demands m :=
    fun m hm => (expansionNeed_bounds hvalid hm).1
  have hnodup : ((expansionQueue definition demands).map ModuleDefinition.moduleId).Nodup :=
    nodup_expansionQueue hvalid
  have hallocation : ∀ {m}, m ∈ definition.modules →
      allocationOf ((orderedModules definition).map (moduleAllocation .exact demands b)) m =
        moduleAllocation .exact demands b m := fun hm => allocationOf_eq hvalid.ids_nodup hm
  refine ⟨_, _, by rw [allocate, hledger], ?_, ?_, ?_, ?_⟩
  · exact hweights.sorted fun m hm => (List.mem_filter.1 hm).1
  · intro e he
    obtain ⟨hqueue, hamount⟩ := amountOf_served hvalid he
    obtain ⟨hm, -, hlt⟩ := mem_expansionQueue.1 hqueue
    rw [hallocation hm]
    refine ⟨(hborrowed _).trans hamount, ?_⟩
    intro hpos
    change b.current e.1.moduleId = _
    rw [hcurrent, hamount, hfull hpos hm, min_eq_left hlt.le]
  · intro m hm hnot
    rw [hallocation hm]
    exact (hborrowed _).trans (amountOf_not_asking hvalid hm hnot)
  · intro hunspent m hm
    rw [allocations_sum] at hunspent
    have hleft : 0 < Rationing.left (expansionNeed demands) (expansionQueue definition demands)
        filled.2 := by
      rw [← hremaining]
      omega
    have hnonneg := (targetFill_result hvalid hdemands hbudget).remaining_nonneg
    have hserved := Rationing.serve_of_left_pos hneed hnonneg hleft
    -- with tokens left at the end there were tokens left after the rounds
    have hpos : 0 < filled.2 := by
      rcases hnonneg.lt_or_eq with hpos | hzero
      · exact hpos
      · have hnothing := (served_nothing hneed hnodup).2
        have hzero' : filled.2 = 0 := hzero.symm
        rw [hzero', hnothing] at hleft
        omega
    have hfilledAt := hfull hpos hm
    have htarget := (hvalid.valid m hm).target_le_max
    rw [hallocation hm]
    change b.current m.moduleId = _
    rw [hcurrent, hfilledAt]
    by_cases hqueue : m ∈ expansionQueue definition demands
    · obtain ⟨-, hborrow, hlt⟩ := mem_expansionQueue.1 hqueue
      rw [← Rationing.map_fst_serve (expansionNeed demands) (expansionQueue definition demands)
        filled.2] at hqueue
      obtain ⟨e, he, rfl⟩ := List.mem_map.1 hqueue
      rw [(amountOf_served hvalid he).2, hserved e he, expansionNeed, if_pos hborrow]
      omega
    · rw [amountOf_not_asking hvalid hm hqueue, add_zero]
      cases hborrow : m.canBorrow with
      | true =>
          have hle : ¬ m.targetTokens < demands m.moduleId :=
            fun hlt => hqueue (mem_expansionQueue.2 ⟨hm, hborrow, hlt⟩)
          rw [if_pos rfl]
          omega
      | false =>
          rw [if_neg Bool.false_ne_true]
          exact min_comm _ _

end Greedy

theorem expansion_greedy_example :
    ∃ allocations leases,
      allocate .exact exampleDefinition (fun _ => 30) "layout" 40 = .ok (allocations, leases) ∧
        GreedyExpansion exampleDefinition (fun _ => 30) 40 allocations :=
  expansion_greedy (validateDefinition_ok (by decide +kernel)) (weightsCompare_rat _)
    (fun _ _ => by decide) (by decide +kernel) "layout"

end ContextLease
