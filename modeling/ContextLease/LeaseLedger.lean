/-
The lease events as a ledger.

A call reports by how much every lease has grown or shrunk since the last plan.  If the leases of a
plan have distinct ids, the events of a run add up, id by id, to the leases of the latest plan, and
a request that is repeated reports nothing.

Main definitions:

* `leaseEntries`, `TraceEvent.leaseEntry` — what leases and events say of an id;
* `LedgerKept` — the events of every run add up to the leases of the latest plan, and a repeated
  request reports nothing.

Main results:

* `ledgerKept_of_distinct` — distinct ids keep the ledger;
* `distinctLeases_of_not_clash` — ids that cannot clash are distinct.
-/

import ContextLease.Committed
import ContextLease.LeaseIds
import ContextLease.RequestIds

set_option relaxedAutoImplicit false
set_option autoImplicit false

namespace ContextLease

open MachineNumbers RustText

/-! ### What the events say -/

/-- The number of tokens that a payload states. -/
def Value.asTokens : Value → ℤ
  | .number text => (Nat.ofDigitChars 10 text.toList 0 : ℕ)
  | _ => 0

theorem Value.asTokens_ofInt {n : ℤ} (h : 0 ≤ n) : (Value.ofInt n).asTokens = n := by
  obtain ⟨n, rfl⟩ := Int.eq_ofNat_of_zero_le h
  have hdigits : (toString (n : ℤ)).toList = Nat.toDigits 10 n := String.toList_ofList
  rw [ofInt, asTokens, hdigits, Nat.ofDigitChars_ten_toDigits]

/-- What an event of a given type says of the tokens of a lease. -/
def entryOf (eventType field : String) (type : String) (payload : BTreeMap Value) :
    Option (String × ℤ) :=
  if type = eventType then
    match payload.get "lease_id", payload.get field with
    | some (.string leaseId), some tokens => some (leaseId, tokens.asTokens)
    | _, _ => none
  else none

/-- What an event says of the tokens of a lease. -/
def TraceEvent.leaseEntry (eventType field : String) (e : TraceEvent) : Option (String × ℤ) :=
  entryOf eventType field e.eventType e.payload

/-- What a draft says of the tokens of a lease. -/
def EventDraft.leaseEntry (eventType field : String) (draft : EventDraft) : Option (String × ℤ) :=
  entryOf eventType field draft.eventType draft.payload

/-- The tokens that `lease.granted` events grant to a lease. -/
def grantedTokens (events : List TraceEvent) (leaseId : String) : ℤ :=
  Ledger.amountOf (events.filterMap (TraceEvent.leaseEntry "lease.granted" "granted_tokens"))
    leaseId

/-- The tokens that `lease.reclaimed` events take from a lease. -/
def reclaimedTokens (events : List TraceEvent) (leaseId : String) : ℤ :=
  Ledger.amountOf (events.filterMap (TraceEvent.leaseEntry "lease.reclaimed" "reclaimed_tokens"))
    leaseId

/-- The tokens of the leases, under their ids. -/
def leaseEntries (leases : List Lease) : List (String × ℤ) :=
  leases.map fun l => (l.leaseId, l.grantedTokens)

variable {F : Type} [FloatOps F]

/-- The events of drafts say what the drafts say. -/
theorem filterMap_eventsFrom (arena : ContextLeaseArena F) (env : Env) (requestId : Option String)
    (eventType field : String) (seq : ℕ) (drafts : List EventDraft) :
    (eventsFrom arena env requestId seq drafts).filterMap (TraceEvent.leaseEntry eventType field) =
      drafts.filterMap (EventDraft.leaseEntry eventType field) := by
  induction drafts generalizing seq with
  | nil => rfl
  | cons draft drafts ih =>
      have hstamp : (draft.stamp arena env requestId (seq + 1)).leaseEntry eventType field =
          draft.leaseEntry eventType field := rfl
      rw [eventsFrom, List.filterMap_cons, List.filterMap_cons, hstamp, ih]

/-! ### The tables -/

/-- Leases with distinct ids and some tokens each. -/
structure Distinct (ar : Arith) (leases : List Lease) : Prop where
  nodup : (leases.map Lease.leaseId).Nodup
  tokens : ∀ l ∈ leases, 0 < l.grantedTokens ∧ ar.Fits l.grantedTokens

section Tables

variable {ar : Arith} {leases : List Lease}

omit [FloatOps F]

theorem Distinct.keys_nodup (h : Distinct ar leases) :
    ((leaseEntries leases).map Prod.fst).Nodup := by
  rw [leaseEntries, List.map_map]
  exact h.nodup

theorem Distinct.nonneg (h : Distinct ar leases) : ∀ e ∈ leaseEntries leases, 0 ≤ e.2 := by
  intro e he
  obtain ⟨l, hl, rfl⟩ := List.mem_map.1 he
  exact (h.tokens l hl).1.le

/-- The table of leases with distinct ids lists them all. -/
theorem Distinct.nextLeases_perm (h : Distinct ar leases) :
    ((nextLeases leases).map Prod.snd).Perm leases := by
  have hkeys : ((leases.map fun l => (l.leaseId, l)).map Prod.fst).Nodup := by
    rw [List.map_map]
    exact h.nodup
  have hperm := (BTreeMap.ofList_perm hkeys).map Prod.snd
  rw [List.map_map] at hperm
  exact hperm.trans (List.Perm.of_eq (List.map_id leases))

/-- Looking up the tokens of an id in a table. -/
theorem tokens_get {table : BTreeMap Lease} (hnodup : (table.map Prod.fst).Nodup)
    (leaseId : String) : ((table.get leaseId).map Lease.grantedTokens).getD 0 =
      Ledger.amountOf (table.map fun e => (e.1, e.2.grantedTokens)) leaseId := by
  induction table with
  | nil => rfl
  | cons e table ih =>
      obtain ⟨key, l⟩ := e
      rw [List.map_cons, List.nodup_cons] at hnodup
      rw [List.map_cons, Ledger.amountOf_cons, BTreeMap.get, List.lookup_cons]
      by_cases hkey : leaseId = key
      · subst hkey
        rw [if_pos rfl, Ledger.amountOf_of_not_mem, beq_self_eq_true]
        · exact (add_zero _).symm
        · rw [List.map_map]
          exact hnodup.1
      · rw [if_neg (Ne.symm hkey), beq_false_of_ne hkey, zero_add]
        exact ih hnodup.2

/-- Looking up the tokens of an id in the table of leases with distinct ids. -/
theorem Distinct.get_nextLeases (h : Distinct ar leases) (leaseId : String) :
    (((nextLeases leases).get leaseId).map Lease.grantedTokens).getD 0 =
      Ledger.amountOf (leaseEntries leases) leaseId := by
  have hkeys : ((leases.map fun l => (l.leaseId, l)).map Prod.fst).Nodup := by
    rw [List.map_map]
    exact h.nodup
  have hperm := BTreeMap.ofList_perm hkeys
  have hentries := hperm.map fun e : String × Lease => (e.1, e.2.grantedTokens)
  rw [List.map_map] at hentries
  exact (tokens_get (((hperm.map Prod.fst).nodup_iff).2 hkeys) leaseId).trans
    (Ledger.amountOf_perm hentries leaseId)

/-- The tokens of one of the leases, less what is looked up in a table. -/
theorem Distinct.sub_lookup {leases' : List Lease} (h : Distinct ar leases)
    (h' : Distinct ar leases') {l : Lease} (hl : l ∈ leases) :
    ar.sub l.grantedTokens
        (((nextLeases leases').get l.leaseId).map Lease.grantedTokens |>.getD 0) =
      l.grantedTokens - Ledger.amountOf (leaseEntries leases') l.leaseId := by
  obtain ⟨hpos, hfits⟩ := h.tokens l hl
  have hnonneg := Ledger.amountOf_nonneg h'.nonneg l.leaseId
  have hle : ar.Fits (Ledger.amountOf (leaseEntries leases') l.leaseId) := by
    by_cases hmem : l.leaseId ∈ (leaseEntries leases').map Prod.fst
    · obtain ⟨e, he, heq⟩ := List.mem_map.1 hmem
      obtain ⟨l', hl', rfl⟩ := List.mem_map.1 he
      rw [← heq, Ledger.amountOf_of_mem h'.keys_nodup he]
      exact (h'.tokens l' hl').2
    · rw [Ledger.amountOf_of_not_mem hmem]
      exact Arith.fits_zero ar
  rw [h'.get_nextLeases]
  refine Arith.sub_of_fits ?_
  cases ar with
  | exact => exact trivial
  | release =>
      rw [Arith.fits_release] at hfits hle ⊢
      omega

end Tables

/-! ### The drafts -/

section Drafts

variable {P : Platform} (env : Env) {old new : List Lease}

omit [FloatOps F]

/-- A draft that reports the tokens of a lease. -/
theorem leaseEntry_draft {eventType field : String} (hid : "lease_id" ≠ field)
    (hborrower : field ≠ "borrower_module_id") (leaseId borrower priority : String)
    (tokens : Value) :
    EventDraft.leaseEntry eventType field
      ⟨eventType, BTreeMap.ofList [("lease_id", .string leaseId), (field, tokens),
        ("borrower_module_id", .string borrower)], priority⟩ =
      some (leaseId, tokens.asTokens) := by
  have hget : (BTreeMap.ofList [("lease_id", Value.string leaseId), (field, tokens),
      ("borrower_module_id", .string borrower)]).get "lease_id" = some (.string leaseId) := by
    simp only [BTreeMap.ofList, List.foldl_cons, List.foldl_nil]
    rw [BTreeMap.get_insert_of_ne _ _ (by decide), BTreeMap.get_insert_of_ne _ _ hid,
      BTreeMap.get_insert_self]
  have hget' : (BTreeMap.ofList [("lease_id", Value.string leaseId), (field, tokens),
      ("borrower_module_id", .string borrower)]).get field = some tokens := by
    simp only [BTreeMap.ofList, List.foldl_cons, List.foldl_nil]
    rw [BTreeMap.get_insert_of_ne _ _ hborrower, BTreeMap.get_insert_self]
  simp only [EventDraft.leaseEntry, entryOf, if_true, hget, hget']

/-- What the drafts of a call say of the reclaimed tokens. -/
theorem entries_reclaimed (hold : Distinct P.arith old) (hnew : Distinct P.arith new) :
    ((leaseDrafts P env (nextLeases old) new).filterMap
        (EventDraft.leaseEntry "lease.reclaimed" "reclaimed_tokens")).Perm
      (Ledger.increases (leaseEntries new) (leaseEntries old)) := by
  have hperm := (env.leaseOrder_perm ((nextLeases old).map Prod.snd)).trans hold.nextLeases_perm
  have hnone : (new.flatMap (grantDrafts P (nextLeases old))).filterMap
      (EventDraft.leaseEntry "lease.reclaimed" "reclaimed_tokens") = [] := by
    rw [List.filterMap_flatMap, List.flatMap_eq_nil_iff]
    intro l _
    simp only [grantDrafts]
    split <;> rfl
  rw [leaseDrafts, List.filterMap_append, hnone, List.append_nil, List.filterMap_flatMap]
  refine List.Perm.trans (List.Perm.of_eq ?_)
    (Ledger.increases_perm (leaseEntries new) (hperm.map fun l => (l.leaseId, l.grantedTokens)))
  rw [Ledger.increases_eq_flatMap, List.flatMap_map]
  refine List.flatMap_congr ?_
  intro l hl
  have hsub := hold.sub_lookup hnew (hperm.mem_iff.1 hl)
  simp only [reclaimDrafts, hsub]
  split
  · rename_i hpos
    rw [List.filterMap_cons, leaseEntry_draft (by decide) (by decide),
      Value.asTokens_ofInt (le_of_lt hpos)]
    rfl
  · rfl

/-- What the drafts of a call say of the granted tokens. -/
theorem entries_granted (hold : Distinct P.arith old) (hnew : Distinct P.arith new) :
    (leaseDrafts P env (nextLeases old) new).filterMap
        (EventDraft.leaseEntry "lease.granted" "granted_tokens") =
      Ledger.increases (leaseEntries old) (leaseEntries new) := by
  have hnone : ((env.leaseOrder ((nextLeases old).map Prod.snd)).flatMap
      (reclaimDrafts P (nextLeases new))).filterMap
        (EventDraft.leaseEntry "lease.granted" "granted_tokens") = [] := by
    rw [List.filterMap_flatMap, List.flatMap_eq_nil_iff]
    intro l _
    simp only [reclaimDrafts]
    split <;> rfl
  rw [leaseDrafts, List.filterMap_append, hnone, List.nil_append, List.filterMap_flatMap,
    Ledger.increases_eq_flatMap]
  unfold leaseEntries
  rw [List.flatMap_map]
  refine List.flatMap_congr ?_
  intro l hl
  have hsub := hnew.sub_lookup hold hl
  rw [leaseEntries] at hsub
  simp only [grantDrafts, hsub]
  split
  · rename_i hpos
    rw [List.filterMap_cons, leaseEntry_draft (by decide) (by decide),
      Value.asTokens_ofInt (le_of_lt hpos)]
    rfl
  · rfl

/-- Leases that stay as they are are not reported. -/
theorem leaseDrafts_self (h : Distinct P.arith old) :
    leaseDrafts P env (nextLeases old) old = [] := by
  have hzero : ∀ l ∈ old, P.arith.sub l.grantedTokens
      (((nextLeases old).get l.leaseId).map Lease.grantedTokens |>.getD 0) = 0 := by
    intro l hl
    have hmem : (l.leaseId, l.grantedTokens) ∈ leaseEntries old := List.mem_map_of_mem hl
    rw [h.sub_lookup h hl, Ledger.amountOf_of_mem h.keys_nodup hmem, sub_self]
  rw [leaseDrafts, List.append_eq_nil_iff, List.flatMap_eq_nil_iff, List.flatMap_eq_nil_iff]
  constructor
  · intro l hl
    have hmem := ((env.leaseOrder_perm _).trans h.nextLeases_perm).mem_iff.1 hl
    simp only [reclaimDrafts, hzero l hmem]
    rfl
  · intro l hl
    simp only [grantDrafts, hzero l hl]
    rfl

end Drafts

/-! ### Calls -/

section Calls

variable {P : Platform} {arena : ContextLeaseArena F}

/-- The leases of every admitted request have distinct ids. -/
def DistinctLeases (P : Platform) (arena : ContextLeaseArena F) : Prop :=
  ∀ request counter multiplier a, Admitted P arena request counter multiplier a →
    Distinct P.arith a.leases

/-- Without a clash the leases of every admitted request have distinct ids. -/
theorem distinctLeases_of_not_clash
    (hmax : ∀ m ∈ arena.definition.modules, P.arith.Fits m.maxTokens)
    (hweights : WeightsCompare arena.definition.modules)
    (hclash : ¬ LeaseIdClash arena.definition) : DistinctLeases P arena := by
  intro request counter multiplier a ha
  have hallocated := ha.allocated
  have hdemands : ∀ m ∈ arena.definition.modules, 0 ≤ a.demands m.moduleId :=
    fun m _ => ha.demands_nonneg m.moduleId
  unfold allocate at hallocated
  split at hallocated
  · rename_i b hledger
    rw [Except.ok.injEq, Prod.mk.injEq] at hallocated
    obtain ⟨filled, donors, -, hserved⟩ :=
      exists_served arena.validDefinition hmax hweights hdemands hledger
    rw [← hallocated.2]
    refine ⟨leaseIds_nodup arena.validDefinition hmax hweights hdemands hledger hclash _, ?_⟩
    intro l hl
    obtain ⟨g, hg, rfl⟩ := List.mem_map.1 hl
    exact hserved.tokens g hg
  · cases hallocated

/-- Among the drafts of a call only the lease drafts report leases. -/
theorem callDrafts_split (env : Env) (request : PrepareRequest F) (admission : Admission F)
    (settled : Settled F) (s : ArenaState F) :
    ∃ others, callDrafts P arena env request admission settled s =
        startedDraft request.model ::
          (leaseDrafts P env s.activeLeases admission.leases ++ others) ∧
      ∀ draft ∈ startedDraft request.model :: others,
        draft.eventType ∉ ["lease.granted", "lease.reclaimed"] := by
  refine ⟨settled.modules.flatMap compressedDrafts ++
    [⟨"request.prepared", BTreeMap.ofList
      [("prompt_tokens", .ofInt settled.promptTokens),
        ("input_budget_tokens", .ofInt (usableBudget P arena admission))], "state"⟩,
      publishedDraft (s.snapshotSeq + 1)], ?_, ?_⟩
  · simp only [callDrafts, draftsToSnapshot, List.cons_append, List.append_assoc, List.nil_append]
  · intro draft hdraft
    rcases List.mem_cons.1 hdraft with rfl | hdraft
    · exact (by decide : "request.started" ∉ ["lease.granted", "lease.reclaimed"])
    rw [List.mem_append, List.mem_cons, List.mem_singleton] at hdraft
    rcases hdraft with hdraft | rfl | rfl
    · obtain ⟨x, -, hx⟩ := List.mem_flatMap.1 hdraft
      rw [compressedDrafts] at hx
      split at hx
      · rw [List.mem_singleton] at hx
        rw [hx]
        exact (by decide : "chunk.compressed" ∉ ["lease.granted", "lease.reclaimed"])
      · exact absurd hx List.not_mem_nil
    · exact (by decide : "request.prepared" ∉ ["lease.granted", "lease.reclaimed"])
    · exact (by decide : "snapshot.published" ∉ ["lease.granted", "lease.reclaimed"])

/-- What the drafts of a call say of leases, only its lease drafts say. -/
theorem filterMap_callDrafts {eventType field : String}
    (htype : eventType ∈ ["lease.granted", "lease.reclaimed"]) (env : Env)
    (request : PrepareRequest F) (admission : Admission F) (settled : Settled F)
    (s : ArenaState F) :
    (callDrafts P arena env request admission settled s).filterMap
        (EventDraft.leaseEntry eventType field) =
      (leaseDrafts P env s.activeLeases admission.leases).filterMap
        (EventDraft.leaseEntry eventType field) := by
  obtain ⟨others, heq, hothers⟩ := @callDrafts_split F _ P arena env request admission
    settled s
  have hnone : ∀ draft ∈ startedDraft request.model :: others,
      EventDraft.leaseEntry eventType field draft = none := by
    intro draft hdraft
    refine if_neg fun htype' => hothers draft hdraft ?_
    rw [htype']
    exact htype
  rw [heq, List.filterMap_cons, hnone _ (List.mem_cons_self ..), List.filterMap_append]
  have hrest : others.filterMap (EventDraft.leaseEntry eventType field) = [] :=
    List.filterMap_eq_nil_iff.2 fun draft hdraft => hnone draft (List.mem_cons_of_mem _ hdraft)
  rw [hrest, List.append_nil]

/-- What the events of a plan say of leases. -/
theorem entries_of_plan {eventType field : String}
    (htype : eventType ∈ ["lease.granted", "lease.reclaimed"]) (call : Call F)
    (admission : Admission F) (settled : Settled F) (s : ArenaState F) :
    (call.plan P arena admission settled s).traceEvents.filterMap
        (TraceEvent.leaseEntry eventType field) =
      (leaseDrafts P call.env s.activeLeases admission.leases).filterMap
        (EventDraft.leaseEntry eventType field) :=
  (filterMap_eventsFrom ..).trans (filterMap_callDrafts htype ..)

end Calls

/-! ### Runs -/

section Runs

variable {P : Platform} {arena : ContextLeaseArena F}

/-- The tokens of an id in the latest of some plans. -/
def latestTokens (ps : List (PreparedContextPlan F)) (leaseId : String) : ℤ :=
  Ledger.amountOf (leaseEntries ((ps.getLast?.map PreparedContextPlan.leases).getD [])) leaseId

/-- The lease events of every run add up to the leases of its latest plan, and a request that is
repeated at once reports none. -/
structure LedgerKept (P : Platform) (arena : ContextLeaseArena F) : Prop where
  balance : ∀ (ops : List (Op F)) leaseId,
    let events := (plans P arena {} ops).flatMap PreparedContextPlan.traceEvents
    grantedTokens events leaseId - reclaimedTokens events leaseId =
      latestTokens (plans P arena {} ops) leaseId
  repeated : ∀ (ops : List (Op F)) (op op' : Op F) call env plan plan',
    op.call = some call → op'.call = some { call with env := env } →
    planOf P arena (run P arena {} ops) op = some plan →
    planOf P arena (run P arena {} (ops ++ [op])) op' = some plan' →
    ∀ e ∈ plan'.traceEvents, e.eventType ≠ "lease.granted" ∧ e.eventType ≠ "lease.reclaimed"

/-- What the events of a run say when its active leases are those of the latest plan. -/
structure LedgerInvariant (P : Platform) (s : ArenaState F) (ps : List (PreparedContextPlan F)) :
    Prop where
  active : s.activeLeases = nextLeases ((ps.getLast?.map PreparedContextPlan.leases).getD [])
  distinct : Distinct P.arith ((ps.getLast?.map PreparedContextPlan.leases).getD [])
  balance : ∀ leaseId,
    grantedTokens (ps.flatMap PreparedContextPlan.traceEvents) leaseId -
      reclaimedTokens (ps.flatMap PreparedContextPlan.traceEvents) leaseId =
        latestTokens ps leaseId

omit [FloatOps F] in
theorem ledgerInvariant_start : LedgerInvariant P ({} : ArenaState F) [] where
  active := rfl
  distinct := ⟨List.nodup_nil, fun _ hl => absurd hl List.not_mem_nil⟩
  balance := fun _ => rfl

/-- A call keeps the ledger. -/
theorem LedgerInvariant.call {s : ArenaState F} {ps : List (PreparedContextPlan F)}
    (h : LedgerInvariant P s ps) (call : Call F) {admission : Admission F}
    (hdistinct : Distinct P.arith admission.leases) (settled : Settled F) :
    LedgerInvariant P (call.committed P arena admission settled s)
      (ps ++ [call.plan P arena admission settled s]) := by
  have hlast : ((ps ++ [call.plan P arena admission settled s]).getLast?.map
      PreparedContextPlan.leases).getD [] = admission.leases := by
    rw [List.getLast?_append]
    rfl
  have hentries : ∀ {eventType field : String},
      eventType ∈ ["lease.granted", "lease.reclaimed"] →
      ((ps ++ [call.plan P arena admission settled s]).flatMap
        PreparedContextPlan.traceEvents).filterMap (TraceEvent.leaseEntry eventType field) =
      (ps.flatMap PreparedContextPlan.traceEvents).filterMap
        (TraceEvent.leaseEntry eventType field) ++
        (leaseDrafts P call.env s.activeLeases admission.leases).filterMap
          (EventDraft.leaseEntry eventType field) := by
    intro eventType field htype
    rw [List.flatMap_append, List.filterMap_append, List.flatMap_singleton, entries_of_plan htype]
  refine ⟨?_, by rw [hlast]; exact hdistinct, fun leaseId => ?_⟩
  · rw [hlast, activeLeases_committed]
  · have hbalance := h.balance leaseId
    have hincreases := Ledger.increases_sub_increases h.distinct.nonneg hdistinct.nonneg
      h.distinct.keys_nodup hdistinct.keys_nodup leaseId
    have hreclaimed := Ledger.amountOf_perm
      (entries_reclaimed call.env h.distinct hdistinct) leaseId
    simp only [grantedTokens, reclaimedTokens, latestTokens] at hbalance ⊢
    rw [hentries (by decide), hentries (by decide), Ledger.amountOf_append,
      Ledger.amountOf_append, hlast, h.active, entries_granted call.env h.distinct hdistinct,
      hreclaimed]
    omega

/-- Every run keeps the ledger. -/
theorem LedgerInvariant.of_run (hdistinct : DistinctLeases P arena) (ops : List (Op F)) :
    LedgerInvariant P (run P arena {} ops) (plans P arena {} ops) := by
  refine @run_induction F _ P arena (LedgerInvariant P) ?_ {} [] ledgerInvariant_start ops
  intro s ps op plan s' h houtcome
  cases houtcome with
  | unchanged =>
      rw [Option.toList_none, List.append_nil]
      exact h
  | @prepared call admission settled hcall hdecided =>
      exact h.call call (hdistinct _ _ _ _ (decision_ok P arena hdecided).1) settled
  | reported hop hblank hactual hrecent =>
      rw [Option.toList_none, List.append_nil]
      exact ⟨h.active, h.distinct, h.balance⟩

/-- Distinct ids keep the ledger. -/
theorem ledgerKept_of_distinct (h : DistinctLeases P arena) : LedgerKept P arena where
  balance := fun ops leaseId => (LedgerInvariant.of_run h ops).balance leaseId
  repeated := by
    intro ops op op' call env plan plan' hcall hcall' hplan hplan' e he
    obtain ⟨call₁, admission, settled, hcall₁, hdecided, -, hstep⟩ := call_of_planOf hplan
    obtain rfl : call₁ = call := Option.some_inj.1 (hcall₁.symm.trans hcall)
    have hrun : run P arena {} (ops ++ [op]) = step P arena (run P arena {} ops) op := by
      rw [run, List.foldl_append]
      rfl
    rw [hrun, hstep] at hplan'
    obtain ⟨call₂, admission', settled', hcall₂, hdecided', rfl, -⟩ := call_of_planOf hplan'
    obtain rfl : call₂ = { call₁ with env := env } :=
      Option.some_inj.1 (hcall₂.symm.trans hcall')
    generalize run P arena {} ops = s at hdecided hdecided' he
    -- the repeated request meets the same multiplier, and so is given the same leases
    have hsame : Call.decision P arena { call₁ with env := env }
        (call₁.committed P arena admission settled s) = call₁.decision P arena s := by
      simp only [Call.decision, safetyMultiplier, calibrations_committed]
    rw [hsame, hdecided, Except.ok.injEq, Prod.mk.injEq] at hdecided'
    obtain ⟨rfl, rfl⟩ := hdecided'
    have hdistinct := h _ _ _ _ (decision_ok P arena hdecided).1
    have hnone : leaseDrafts P env
        (call₁.committed P arena admission settled s).beginTransaction.activeLeases
          admission.leases = [] := by
      have hactive := @activeLeases_committed F _ P arena call₁ admission settled s
      exact (congrArg (fun active => leaseDrafts P env active admission.leases) hactive).trans
        (leaseDrafts_self env hdistinct)
    obtain ⟨others, heq, hothers⟩ := @callDrafts_split F _ P arena env call₁.request
      admission settled (call₁.committed P arena admission settled s).beginTransaction
    rw [hnone, List.nil_append] at heq
    obtain ⟨draft, hdraft, htype⟩ := exists_draft_of_mem_eventsFrom _ _ _ he
    rw [← htype]
    have hnot := hothers draft (heq ▸ hdraft)
    simp only [List.mem_cons, List.not_mem_nil, or_false, not_or] at hnot
    exact hnot

end Runs

end ContextLease
