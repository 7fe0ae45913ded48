/-
Definitions whose replays agree.

A call takes tokens from two leases only if one plan has granted both.  Two modules that borrow can
both be served by the slack, and one that borrows two tokens can be served by a module and by the
slack; where neither is possible, the table of the active leases never has more than one entry, and
every sequence of calls is replayed the same.  Otherwise a request brings two leases about, and one
without demands ends them in an order that the table decides.

Main definitions:

* `LeasesTogether` — the definitions of which a plan can have leases with two ids.

Main results:

* `leaseIds_alike` — the plans of other definitions have leases with one id at most;
* `replays_agree_iff` — the definitions whose replays agree, and the sequences that do;
* `opposite_orders` — two borrowers whose leases end in one call.
-/

import ContextLease.Replay
import ContextLease.LeaseClash

set_option relaxedAutoImplicit false
set_option autoImplicit false

namespace ContextLease

open MachineNumbers RustText

variable {F : Type} [FloatOps F]

omit [FloatOps F] in
/-- A plan can have leases with two ids: two modules borrow, or one borrows from a module and from
the slack, and the module is not named like the slack. -/
def LeasesTogether (definition : ArenaDefinition F) : Prop :=
  (∃ b ∈ definition.modules, ∃ b' ∈ definition.modules,
    b.moduleId ≠ b'.moduleId ∧ MayBorrow 1 b ∧ MayBorrow 1 b') ∨
  ∃ d ∈ definition.modules, ∃ b ∈ definition.modules,
    MayLend d ∧ MayBorrow 2 b ∧ d.moduleId ≠ b.moduleId ∧ d.moduleId ≠ Donor.arenaSlack.name

instance (definition : ArenaDefinition F) : Decidable (LeasesTogether definition) :=
  inferInstanceAs (Decidable (_ ∨ _))

/-! ### Definitions with one lease at a time -/

section Single

variable {ar : Arith} {definition : ArenaDefinition F} {demands : String → ℤ} {inputBudget : ℤ}
  {b : Borrowing F}

/-- The leases of an allocation have one id. -/
theorem leaseIds_alike (hvalid : ValidDefinition definition)
    (hmax : ∀ m ∈ definition.modules, ar.Fits m.maxTokens)
    (hweights : WeightsCompare definition.modules)
    (hdemands : ∀ m ∈ definition.modules, 0 ≤ demands m.moduleId)
    (h : allocateLedger ar definition demands inputBudget = .ok b)
    (hsingle : ¬ LeasesTogether definition) (layoutHash : String) :
    (b.grants.map (lease layoutHash)).Pairwise fun l l' => l.leaseId = l'.leaseId := by
  obtain ⟨filled, donors, hfilled, hserved⟩ := exists_served hvalid hmax hweights hdemands h
  have horigin : ∀ g ∈ b.grants, GrantOrigin definition demands filled g :=
    fun g hg => hserved.grantOrigin hdemands hfilled hg
  refine List.pairwise_map.2 (hserved.ordered.imp_of_mem fun {g g'} hg hg' hprecedes => ?_)
  have ho := horigin g hg
  have ho' := horigin g' hg'
  rcases hprecedes with ⟨hsame, hroom, id, hid, hlater⟩ | ⟨-, hne, -⟩
  · -- the borrower has room for two, so whatever lends to it is named like the slack
    have hnamed : ∀ {g' : Grant F} {id : String}, GrantOrigin definition demands filled g' →
        g'.donor = .module id → id = Donor.arenaSlack.name := by
      intro g' id ho' hid
      obtain ⟨m, hm, rfl, hlend, -⟩ := ho'.lender id hid
      by_contra hname
      exact hsingle (Or.inr ⟨m, hm, g.borrower, ho.borrower_mem, hlend,
        ho.mayBorrow_two hvalid hmax hroom, ho'.lender_ne hvalid ho hid, hname⟩)
    have hname := hnamed ho hid
    rw [lease_leaseId, lease_leaseId, hsame, hid]
    cases hid' : g'.donor with
    | module id' =>
        have hlt := hlater id' hid'
        rw [hname, hnamed ho' hid'] at hlt
        exact absurd hlt (lt_irrefl _)
    | arenaSlack => rw [Donor.name, hname]
  · exact absurd (Or.inl ⟨g.borrower, ho.borrower_mem, g'.borrower, ho'.borrower_mem, hne,
      ho.mayBorrow, ho'.mayBorrow⟩) hsingle

omit [FloatOps F] in
/-- A table of leases with one id has one entry at most. -/
theorem length_nextLeases_le_one {leases : List Lease}
    (h : leases.Pairwise fun l l' => l.leaseId = l'.leaseId) :
    (nextLeases leases).length ≤ 1 := by
  have hsame : ∀ e ∈ nextLeases leases, ∀ e' ∈ nextLeases leases, e.1 = e'.1 := by
    intro e he e' he'
    obtain ⟨l, hl, rfl⟩ := List.mem_map.1 (BTreeMap.mem_of_mem_ofList he)
    obtain ⟨l', hl', rfl⟩ := List.mem_map.1 (BTreeMap.mem_of_mem_ofList he')
    have hsymm : Std.Symm fun l l' : Lease => l.leaseId = l'.leaseId := ⟨fun _ _ => Eq.symm⟩
    exact List.Pairwise.forall_of_forall (R := fun l l' : Lease => l.leaseId = l'.leaseId)
      (fun _ _ => rfl) h hl hl'
  have hsorted : (nextLeases leases).Pairwise fun e e' => e.1 < e'.1 := BTreeMap.ofList_sorted _
  generalize nextLeases leases = table at hsame hsorted
  match table with
  | [] => exact Nat.zero_le 1
  | [e] => exact le_refl 1
  | e :: e' :: rest =>
      have hlt := (List.pairwise_cons.1 hsorted).1 e' (List.mem_cons_self ..)
      have heq := hsame e (List.mem_cons_self ..) e'
        (List.mem_cons_of_mem e (List.mem_cons_self ..))
      exact absurd heq hlt.ne

variable {P : Platform} {arena : ContextLeaseArena F}

/-- Every sequence is steady. -/
theorem steadyReplay_of_single (hmax : ∀ m ∈ arena.definition.modules, P.arith.Fits m.maxTokens)
    (hweights : WeightsCompare arena.definition.modules)
    (hsingle : ¬ LeasesTogether arena.definition) (ops : List (ReplayOp F)) {s : ArenaState F}
    (hactive : s.activeLeases.length ≤ 1) : SteadyReplay P arena s ops := by
  induction ops generalizing s with
  | nil => trivial
  | cons op ops ih =>
      refine ⟨?_, ih ?_⟩
      · cases op with
        | recordUsage clock observation => trivial
        | prepare clock request counter =>
            intro admission settled _
            refine (List.length_filter_le _ _).trans ?_
            rwa [List.length_map]
      · cases op with
        | recordUsage clock observation =>
            simp only [ReplayOp.perform, activeLeases_recordUsage]
            exact hactive
        | prepare clock request counter =>
            simp only [ReplayOp.perform, prepareIn_eq, prepare]
            rw [prepareWithResults_eq ⟨clock.env listedOrders, request, [], counter⟩]
            cases hdecided : Call.decision P arena
                ⟨clock.env listedOrders, request, [], counter⟩ s with
            | error e => exact hactive
            | ok decided =>
                obtain ⟨admission, settled⟩ := decided
                have hadmitted := (decision_ok P arena hdecided).1
                have hallocated := hadmitted.allocated
                simp only [activeLeases_committed]
                unfold allocate at hallocated
                split at hallocated
                · rename_i b hledger
                  rw [Except.ok.injEq, Prod.mk.injEq] at hallocated
                  rw [← hallocated.2]
                  exact length_nextLeases_le_one (leaseIds_alike arena.validDefinition hmax
                    hweights (fun m _ => hadmitted.demands_nonneg m.moduleId) hledger hsingle _)
                · cases hallocated

end Single

/-! ### Definitions with two leases at a time -/

section Pairs

variable {definition : ArenaDefinition F}

/-- The slack serves two borrowers. -/
theorem grants_of_borrowers (hvalid : ValidDefinition definition)
    (hweights : WeightsCompare definition.modules) {b b' : ModuleDefinition F}
    {demands : String → ℤ} {filled : (String → ℤ) × ℤ} (hleft : filled.2 = 2)
    (h : LendingSetting definition [] [b, b'] 1)
    (hdemands : ∀ m ∈ definition.modules, demands m.moduleId = wantedTokens [] [b, b'] 1 m)
    (hfilled : ∀ m ∈ definition.modules, filled.1 m.moduleId = keptTokens [] m) :
    (borrowAfter .exact definition demands filled).grants =
      [⟨.arenaSlack, b, 1⟩, ⟨.arenaSlack, b', 1⟩] := by
  have hneed := h.need_eq hvalid hdemands hfilled (List.mem_cons_self ..)
  have hneed' := h.need_eq hvalid hdemands hfilled
    (List.mem_cons_of_mem b (List.mem_singleton.2 rfl))
  have hne := h.borrowers_ne
  have hslack : (borrowStart .exact definition filled).sharedSlack = 2 := by
    simp [borrowStart, h.donors_eq hvalid hfilled, hleft]
  have hremaining : (borrowStart .exact definition filled).remaining = 2 := hleft
  rw [borrowAfter, h.donors_eq hvalid hfilled, h.borrowers_eq hvalid hdemands hweights hfilled]
  simp only [List.map_nil, borrow]
  rw [borrowFor_slack hneed (by omega) (by omega)]
  simp only
  rw [borrowFor_slack]
  · rfl
  · simp only [Borrowing.take, borrowStart, addTo, Function.update_of_ne hne]
    exact hneed'
  · simp only [Borrowing.take, hslack, Arith.sub_exact]
    omega
  · simp only [Borrowing.take, hremaining, Arith.sub_exact]
    omega

/-- Some demands bring about leases with two ids. -/
theorem exists_leasesTogether (hvalid : ValidDefinition definition)
    (hweights : WeightsCompare definition.modules) (h : LeasesTogether definition) :
    ∃ (wanted : ModuleDefinition F → ℤ) (g g' : Grant F), g.tokens = 1 ∧ g'.tokens = 1 ∧
      leaseKey g.donor.name g.borrower.moduleId ≠
        leaseKey g'.donor.name g'.borrower.moduleId ∧
      (∀ m ∈ definition.modules, 0 ≤ wanted m) ∧
      ∀ demands : String → ℤ, (∀ m ∈ definition.modules, demands m.moduleId = wanted m) →
        ∃ inputBudget b, 0 < inputBudget ∧
          validateModelBudget .exact definition inputBudget = .ok () ∧
          allocateLedger .exact definition demands inputBudget = .ok b ∧ b.grants = [g, g'] := by
  rcases h with ⟨b, hb, b', hb', hne, hborrow, hborrow'⟩ | ⟨d, hd, b, hb, hlend, hborrow, hne,
    hname⟩
  · -- the two borrowers in the order in which they are served
    wlog hbefore : borrowsBefore b b' generalizing b b' with hother
    · refine hother b' hb' b hb hne.symm hborrow' hborrow ?_
      obtain ⟨value, hvalue⟩ := hweights.borrowsBefore_iff
      rw [hvalue b hb b' hb', not_le] at hbefore
      exact (hvalue b' hb' b hb).2 hbefore.le
    have h : LendingSetting definition [] [b, b'] 1 :=
      ⟨one_pos, Nat.zero_le 2, by simp, by simp [hb, hb', hborrow, hborrow'], by simp,
        by simp [hbefore], by simp [hne], by simp⟩
    refine ⟨wantedTokens [] [b, b'] 1, ⟨.arenaSlack, b, 1⟩, ⟨.arenaSlack, b', 1⟩, rfl, rfl,
      fun hkey => hne (leaseKey_borrower hkey), h.wanted_nonneg hvalid, fun demands hdemands => ?_⟩
    obtain ⟨inputBudget, filled, hpos, hbudget, hledger, hfilled, hleft⟩ :=
      h.exists_filled hvalid hdemands
    exact ⟨inputBudget, _, hpos, hbudget, hledger,
      grants_of_borrowers hvalid hweights hleft h hdemands hfilled⟩
  · have h : LendingSetting definition [d] [b] 2 :=
      ⟨two_pos, one_le_two, by simp [hd, hlend], by simp [hb, hborrow], by simp, by simp, by simp,
        by simp [hne]⟩
    refine ⟨wantedTokens [d] [b] 2, ⟨.module d.moduleId, b, 1⟩, ⟨.arenaSlack, b, 1⟩, rfl, rfl,
      fun hkey => hname (leaseKey_donor hkey), h.wanted_nonneg hvalid, fun demands hdemands => ?_⟩
    obtain ⟨inputBudget, filled, hpos, hbudget, hledger, hfilled, hleft⟩ :=
      h.exists_filled hvalid hdemands
    exact ⟨inputBudget, _, hpos, hbudget, hledger,
      grants_of_name hvalid hweights hleft h hdemands hfilled⟩

/-- Of two leases with different ids both lose their tokens when there are none any more. -/
theorem length_lostLeases (lib : Library) {l l' : Lease} (hne : l.leaseId ≠ l'.leaseId)
    (hpos : 0 < l.grantedTokens) (hpos' : 0 < l'.grantedTokens) :
    (lostLeases lib.exact (nextLeases [l, l']) []).length = 2 := by
  have hkeys : (([l, l'].map fun l => (l.leaseId, l)).map Prod.fst).Nodup := by simp [hne]
  have hperm := (BTreeMap.ofList_perm hkeys).map Prod.snd
  have hlost : ∀ l : Lease, l.lost lib.exact (nextLeases []) = l.grantedTokens := by
    intro l
    have hget : (nextLeases []).get l.leaseId = none := rfl
    rw [Lease.lost, hget, Arith.sub_exact, Option.map_none, Option.getD_none, sub_zero]
  have hall := hperm.filter fun l => decide (0 < l.lost lib.exact (nextLeases []))
  rw [lostLeases]
  refine hall.length_eq.trans ?_
  simp [hlost, hpos, hpos']

/-- If a plan can have leases with two ids, a sequence of two calls is not steady. -/
theorem exists_unsteady (lib : Library) {arena : ContextLeaseArena F}
    (hweights : WeightsCompare arena.definition.modules)
    (htogether : LeasesTogether arena.definition) :
    ∃ ops : List (ReplayOp F), ¬ SteadyReplay lib.exact arena {} ops := by
  obtain ⟨wanted, g, g', hg, hg', hkey, hwanted, htwo⟩ :=
    exists_leasesTogether arena.validDefinition hweights htogether
  obtain ⟨first, second, admission, admission', settled, settled', hfirst, hleases, hsecond,
    hleases', hresults, hresults'⟩ := exists_granted_ended lib hwanted htwo
  have hne : (lease arena.layoutHash g).leaseId ≠ (lease arena.layoutHash g').leaseId :=
    fun heq => hkey (leaseKey_of_leaseId heq)
  let clock : Clock := ⟨"", "", fun _ => ""⟩
  refine ⟨[.prepare clock first.request first.counter,
    .prepare clock second.request second.counter], fun hsteady => ?_⟩
  obtain ⟨-, hsecondSteady, -⟩ := hsteady
  -- the replay reads its own clock, and leaves the same leases
  let replayed : Call F := ⟨clock.env listedOrders, first.request, [], first.counter⟩
  have hreplayed : replayed.decision lib.exact arena {} = .ok (admission, settled) := by
    rw [← hfirst, Call.decision, Call.decision, hresults]
  have hstate : (ReplayOp.perform lib.exact arena listedOrders {}
      (.prepare clock first.request first.counter)).2 =
        replayed.committed lib.exact arena admission settled {} := by
    simp only [ReplayOp.perform, prepareIn_eq, prepare]
    rw [prepareWithResults_eq replayed, hreplayed]
  rw [hstate] at hsecondSteady
  have hsecond' : decision lib.exact arena second.request [] second.counter
      (safetyMultiplier (replayed.committed lib.exact arena admission settled {})
        second.request.model) = .ok (admission', settled') := by
    rw [← hsecond, Call.decision, hresults']
    simp only [safetyMultiplier, calibrations_committed]
  have hlength := hsecondSteady admission' settled' hsecond'
  rw [activeLeases_committed, hleases, hleases', List.map_cons, List.map_singleton,
    length_lostLeases lib hne (by simp [lease, hg]) (by simp [lease, hg'])] at hlength
  omega

/-- The orders of the hash maps make no difference to a sequence exactly when no successful call in
it takes tokens from two active leases.  They make none to any sequence exactly when no plan of the
definition can have leases with two ids, and in wrapping arithmetic they make none then as well. -/
theorem replays_agree_iff (lib : Library) (arena : ContextLeaseArena F)
    (hweights : WeightsCompare arena.definition.modules) :
    (∀ (P : Platform) (ops : List (ReplayOp F)),
      ReplaysAgree P arena ops ↔ SteadyReplay P arena {} ops) ∧
    ((∀ ops, ReplaysAgree lib.exact arena ops) ↔ ¬ LeasesTogether arena.definition) ∧
    ((∀ m ∈ arena.definition.modules, Arith.release.Fits m.maxTokens) →
      ¬ LeasesTogether arena.definition → ∀ ops, ReplaysAgree lib.release arena ops) := by
  refine ⟨fun P ops => replaysAgree_iff_steady ops, ⟨fun hagree htogether => ?_,
    fun hsingle ops => ?_⟩, fun hmax hsingle ops => ?_⟩
  · obtain ⟨ops, hunsteady⟩ := exists_unsteady lib hweights htogether
    exact hunsteady ((replaysAgree_iff_steady ops).1 (hagree ops))
  · exact (replaysAgree_iff_steady ops).2 (steadyReplay_of_single (fun _ _ => Arith.fits_exact _)
      hweights hsingle ops (Nat.zero_le 1))
  · exact (replaysAgree_iff_steady ops).2 (steadyReplay_of_single hmax hweights hsingle ops
      (Nat.zero_le 1))

end Pairs

/-! ### Two borrowers -/

section Example

/-- One module that borrows from the slack. -/
def borrowerArena : ContextLeaseArena ℚ where
  definition := { arenaId := "notes", modules := [colonBorrower "left" 0] }
  layoutHash := "layout"
  instanceId := "notes-1-1"
  valid := by decide +kernel

/-- With one module that borrows, the orders make no difference. -/
theorem replays_agree_iff_example :
    (∀ ops, ReplaysAgree (Library.ascii id).exact borrowerArena ops) ∧
      ∀ ops, ReplaysAgree (Library.ascii id).release borrowerArena ops := by
  have hsingle : ¬ LeasesTogether borrowerArena.definition := by decide +kernel
  have h := replays_agree_iff (Library.ascii id) borrowerArena
    (weightsCompare_rat borrowerArena.definition.modules)
  exact ⟨h.2.1.2 hsingle, h.2.2 (by decide +kernel) hsingle⟩

/-- Two modules that borrow from the slack. -/
def borrowersArena : ContextLeaseArena ℚ where
  definition :=
    { arenaId := "notes"
      modules := [colonBorrower "left" 0, colonBorrower "right" 1] }
  layoutHash := "layout"
  instanceId := "notes-1-1"
  valid := by decide +kernel

/-- Both modules ask for one token more than their targets, and then for nothing. -/
def borrowersOps : List (ReplayOp ℚ) :=
  let model : ModelProfile :=
    { modelProfileId := "model", contextLimitTokens := 64, reservedOutputTokens := 4 }
  let clock : Clock := ⟨"", "", fun _ => ""⟩
  [.prepare clock
    { model := model
      contributions :=
        [{ moduleId := "left", chunks := [], observedDemandTokens := some 3 },
         { moduleId := "right", chunks := [], observedDemandTokens := some 3 }] } none,
   .prepare clock { model := model } none]

/-- The leases whose end an answer reports. -/
def Reply.reclaimedIds : Reply ℚ → List (Option String)
  | .plan (.ok prepared) =>
      (prepared.traceEvents.filter fun e => e.eventType == "lease.reclaimed").map
        fun e => (e.payload.get "lease_id").bind Value.asStr
  | _ => []

/-- The leases of the two modules end in the order in which their table is iterated. -/
theorem opposite_orders :
    ¬ ReplaysAgree (Library.ascii id).release borrowersArena borrowersOps := by
  intro hagree
  have h := congrArg (List.map Reply.reclaimedIds)
    (hagree (fun _ => listedOrders) fun _ => reversedOrders)
  have hlisted : (replay (Library.ascii id).release borrowersArena (fun _ => listedOrders) {}
      borrowersOps).map Reply.reclaimedIds =
        [[], [some "layout:__arena_slack__:left",
          some "layout:__arena_slack__:right"]] := by decide +kernel
  have hreversed : (replay (Library.ascii id).release borrowersArena (fun _ => reversedOrders) {}
      borrowersOps).map Reply.reclaimedIds =
        [[], [some "layout:__arena_slack__:right",
          some "layout:__arena_slack__:left"]] := by decide +kernel
  rw [hlisted, hreversed] at h
  simp at h

end Example

end ContextLease
