/-
Replaying calls and usage reports.

A replay runs the same calls with the same time stamps, but every call meets its own iteration
orders.  They reach what it returns in one place: the events of the leases that lose tokens come in
the order in which the table of the active leases is iterated.  So a replay returns the same plans
exactly when no call takes tokens from two active leases at once.

Main definitions:

* `ReplayOp`, `Reply`, `replay` — a sequence of operations under given orders;
* `ReplaysAgree` — the orders make no difference;
* `lostLeases`, `SteadyReplay` — the leases that lose tokens in a call, and the sequences in which
  no call takes tokens from two.

Main results:

* `SameButEvents.perform` — what the orders leave the same;
* `replaysAgree_iff_steady` — when the orders make no difference.
-/

import ContextLease.HashOrders
import ContextLease.Committed

set_option relaxedAutoImplicit false
set_option autoImplicit false

namespace ContextLease

open MachineNumbers RustText

variable {F : Type} [FloatOps F]

/-! ### Replays -/

/-- An operation that is replayed, with the time stamps it reads. -/
inductive ReplayOp (F : Type)
  | prepare (clock : Clock) (request : PrepareRequest F) (counter : Option TokenCounter)
  | recordUsage (clock : Clock) (observation : UsageObservation)

/-- What an operation answers. -/
inductive Reply (F : Type)
  | plan (result : Result (PreparedContextPlan F))
  | calibration (result : Result (UsageCalibration F))

section Replays

variable (P : Platform) (arena : ContextLeaseArena F)

/-- An operation under given orders: what it answers, and the state it leaves. -/
def ReplayOp.perform (orders : HashOrders) (s : ArenaState F) :
    ReplayOp F → Reply F × ArenaState F
  | .prepare clock request counter =>
      let outcome := prepareIn P arena clock orders request counter s
      (.plan outcome.1, outcome.2)
  | .recordUsage clock observation =>
      let outcome := ContextLease.recordUsage arena (clock.env orders) observation s
      (.calibration outcome.1, outcome.2)

/-- What a sequence of operations answers, where the operation `i` meets the orders `orders i`. -/
def replay : (ℕ → HashOrders) → ArenaState F → List (ReplayOp F) → List (Reply F)
  | _, _, [] => []
  | orders, s, op :: ops =>
      let outcome := op.perform P arena (orders 0) s
      outcome.1 :: replay (fun i => orders (i + 1)) outcome.2 ops

/-- From a new arena on, the orders make no difference to what a sequence of operations answers. -/
def ReplaysAgree (ops : List (ReplayOp F)) : Prop :=
  ∀ orders orders', replay P arena orders {} ops = replay P arena orders' {} ops

end Replays

/-! ### Leases that lose tokens -/

section Lost

variable (P : Platform)

/-- The tokens that a lease loses when the leases of the table `next` take its place. -/
def Lease.lost (next : BTreeMap Lease) (l : Lease) : ℤ :=
  P.arith.sub l.grantedTokens (((next.get l.leaseId).map Lease.grantedTokens).getD 0)

/-- The active leases that lose tokens when others take their place. -/
def lostLeases (active : BTreeMap Lease) (leases : List Lease) : List Lease :=
  (active.map Prod.snd).filter fun l => decide (0 < l.lost P (nextLeases leases))

variable (arena : ContextLeaseArena F)

/-- The operation is no successful call that takes tokens from two active leases. -/
def ReplayOp.Steady (s : ArenaState F) : ReplayOp F → Prop
  | .prepare _ request counter => ∀ admission settled,
      decision P arena request [] counter (safetyMultiplier s request.model) =
        .ok (admission, settled) →
      (lostLeases P s.activeLeases admission.leases).length ≤ 1
  | .recordUsage _ _ => True

/-- The orders of a replay that leaves every hash map as it is listed. -/
def listedOrders : HashOrders := ⟨.listed _, .listed _, .listed _⟩

/-- No operation of the sequence takes tokens from two active leases. -/
def SteadyReplay : ArenaState F → List (ReplayOp F) → Prop
  | _, [] => True
  | s, op :: ops => op.Steady P arena s ∧ SteadyReplay (op.perform P arena listedOrders s).2 ops

/-- What is reported of a lease that loses tokens. -/
def reclaimDraft (next : BTreeMap Lease) (l : Lease) : EventDraft :=
  ⟨"lease.reclaimed", BTreeMap.ofList
    [("lease_id", .string l.leaseId), ("reclaimed_tokens", .ofInt (l.lost P next)),
      ("borrower_module_id", .string l.borrowerModuleId)], "state"⟩

theorem flatMap_reclaimDrafts (next : BTreeMap Lease) (l : List Lease) :
    l.flatMap (reclaimDrafts P next) =
      (l.filter fun l => decide (0 < l.lost P next)).map (reclaimDraft P next) := by
  induction l with
  | nil => rfl
  | cons l ls ih =>
      rw [List.flatMap_cons, ih, List.filter_cons]
      by_cases hlost : 0 < l.lost P next
      · have hdraft : reclaimDrafts P next l = [reclaimDraft P next l] := if_pos hlost
        rw [hdraft, decide_eq_true hlost]
        rfl
      · have hdraft : reclaimDrafts P next l = [] := if_neg hlost
        rw [hdraft, decide_eq_false hlost]
        rfl

theorem leaseDrafts_eq (env : Env) (active : BTreeMap Lease) (leases : List Lease) :
    leaseDrafts P env active leases =
      ((env.leaseOrder (active.map Prod.snd)).filter
        fun l => decide (0 < l.lost P (nextLeases leases))).map
          (reclaimDraft P (nextLeases leases)) ++ leases.flatMap (grantDrafts P active) := by
  rw [leaseDrafts, flatMap_reclaimDrafts]

/-- A list of at most one entry has one order. -/
theorem perm_eq_of_length_le_one {α : Type} {l l' : List α} (h : l.Perm l')
    (hlength : l'.length ≤ 1) : l = l' := by
  match l', hlength with
  | [], _ => exact List.perm_nil.1 h
  | [a], _ => exact List.perm_singleton.1 h

/-- What is reported of the leases does not depend on the orders when at most one active lease loses
tokens. -/
theorem leaseDrafts_of_one {P : Platform} (env env' : Env) {active : BTreeMap Lease}
    {leases : List Lease} (hone : (lostLeases P active leases).length ≤ 1) :
    leaseDrafts P env active leases = leaseDrafts P env' active leases := by
  have hsame : ∀ env : Env, (env.leaseOrder (active.map Prod.snd)).filter
      (fun l => decide (0 < l.lost P (nextLeases leases))) = lostLeases P active leases :=
    fun env => perm_eq_of_length_le_one ((env.leaseOrder_perm _).filter _) hone
  rw [leaseDrafts_eq, leaseDrafts_eq, hsame env, hsame env']

end Lost

/-! ### States with the same counters -/

section States

omit [FloatOps F]

/-- Two states that differ at most in what their events say. -/
def SameButEvents (s t : ArenaState F) : Prop :=
  ∃ events, events.length = s.events.length ∧ t = { s with events := events }

theorem SameButEvents.refl (s : ArenaState F) : SameButEvents s s := ⟨s.events, rfl, rfl⟩

theorem SameButEvents.symm {s t : ArenaState F} (h : SameButEvents s t) : SameButEvents t s := by
  obtain ⟨events, hlength, rfl⟩ := h
  exact ⟨s.events, hlength.symm, rfl⟩

theorem SameButEvents.trans {s t u : ArenaState F} (h : SameButEvents s t)
    (h' : SameButEvents t u) : SameButEvents s u := by
  obtain ⟨events, hlength, rfl⟩ := h
  obtain ⟨events', hlength', rfl⟩ := h'
  exact ⟨events', hlength'.trans hlength, rfl⟩

/-- A merge counts the events of the transaction. -/
theorem SameButEvents.commitTransaction {s t transaction transaction' : ArenaState F}
    (h : SameButEvents s t) (h' : SameButEvents transaction transaction') :
    SameButEvents (s.commitTransaction transaction) (t.commitTransaction transaction') := by
  obtain ⟨events, hlength, rfl⟩ := h
  obtain ⟨events', hlength', rfl⟩ := h'
  have hcounts := @BoundedLog.foldl_push_counts _ eventCapacity
    ⟨events, transaction.eventsDropped⟩
      ⟨s.events, transaction.eventsDropped⟩ hlength rfl _ _ hlength'
  rw [ArenaState.commitTransaction_eq, ArenaState.commitTransaction_eq]
  refine ⟨_, hcounts.1, ArenaState.ext rfl rfl rfl rfl rfl rfl rfl rfl rfl hcounts.2 ?_⟩
  simp only [hcounts.2]

end States

/-! ### Calls under other orders -/

section Calls

variable {P : Platform} {arena : ContextLeaseArena F}

/-- Emitting as many drafts counts the same. -/
theorem SameButEvents.emit {s t : ArenaState F} (h : SameButEvents s t) (env env' : Env)
    (requestId : Option String) {drafts drafts' : List EventDraft}
    (hlength : drafts.length = drafts'.length) :
    SameButEvents (s.emit arena env requestId drafts) (t.emit arena env' requestId drafts') := by
  obtain ⟨events, hevents, rfl⟩ := h
  have hcounts := @BoundedLog.foldl_push_counts _ eventCapacity
    ⟨events, s.eventsDropped⟩ ⟨s.events, s.eventsDropped⟩ hevents rfl
    (eventsFrom arena env' requestId s.eventSeq drafts')
    (eventsFrom arena env requestId s.eventSeq drafts)
    (by rw [length_eventsFrom, length_eventsFrom, hlength])
  refine ⟨_, hcounts.1, ArenaState.ext rfl rfl ?_ rfl rfl rfl rfl rfl rfl hcounts.2 rfl⟩
  exact congrArg (s.eventSeq + ·) hlength.symm

omit [FloatOps F] in
/-- The bookkeeping of a request does not look at the events. -/
theorem rememberUsage_events (s : ArenaState F) (events : List TraceEvent) (requestId : String)
    (usage : RecentUsage) :
    ({ s with events := events } : ArenaState F).rememberUsage requestId usage =
      { s.rememberUsage requestId usage with events := events } := by
  simp only [ArenaState.rememberUsage]

/-- Two calls meet the same time stamps. -/
structure SameClock (env env' : Env) : Prop where
  now : env'.now = env.now
  capturedAt : env'.capturedAt = env.capturedAt
  occurredAt : env'.occurredAt = env.occurredAt

theorem Clock.sameClock (clock : Clock) (orders orders' : HashOrders) :
    SameClock (clock.env orders) (clock.env orders') := ⟨rfl, rfl, rfl⟩

section Env

variable {env env' : Env} (h : SameClock env env')
include h

theorem SameClock.eventsFrom (requestId : Option String) (seq : ℕ) (drafts : List EventDraft) :
    eventsFrom arena env' requestId seq drafts = eventsFrom arena env requestId seq drafts := by
  induction drafts generalizing seq with
  | nil => rfl
  | cons draft drafts ih =>
      rw [ContextLease.eventsFrom, ContextLease.eventsFrom, ih, EventDraft.stamp, EventDraft.stamp,
        h.occurredAt]

variable (request : PrepareRequest F) (admission : Admission F) (settled : Settled F)
  (s : ArenaState F)

theorem SameClock.callUsages :
    callUsages P env' admission settled s = callUsages P env admission settled s := by
  simp only [ContextLease.callUsages, moduleUsages, moduleUsageOf, h.now]

omit h in
/-- The orders do not change how much is reported. -/
theorem length_draftsToSnapshot (env env' : Env) :
    (draftsToSnapshot P arena env request admission settled s).length =
      (draftsToSnapshot P arena env' request admission settled s).length := by
  have hperm := (env.leaseOrder_perm (s.activeLeases.map Prod.snd)).trans
    (env'.leaseOrder_perm (s.activeLeases.map Prod.snd)).symm
  have hlength := (hperm.flatMap_right (reclaimDrafts P (nextLeases admission.leases))).length_eq
  simp only [draftsToSnapshot, leaseDrafts, List.length_cons, List.length_append, hlength]

theorem SameClock.callSnapshot :
    callSnapshot P arena env' request admission settled s =
      callSnapshot P arena env request admission settled s := by
  obtain ⟨events, -, hemit⟩ := @SameButEvents.emit F _ arena s s (.refl s) env env'
    (some (callName arena request s)) _ _
    (@length_draftsToSnapshot F _ P arena request admission settled s env env')
  rw [ContextLease.callSnapshot, ContextLease.callSnapshot, hemit, h.callUsages]
  simp only [takeSnapshot, h.capturedAt]

/-- The plans of a call under two orders differ at most in their events. -/
theorem SameClock.callPlan :
    callPlan P arena env' request admission settled s =
      { callPlan P arena env request admission settled s with
        traceEvents := ContextLease.eventsFrom arena env (some (callName arena request s))
          s.eventSeq (callDrafts P arena env' request admission settled s) } := by
  simp only [ContextLease.callPlan, preparedPlan, h.callSnapshot, h.callUsages, h.eventsFrom]

/-- The states after a call under two orders differ at most in their events. -/
theorem SameClock.callState :
    SameButEvents (callState P arena env request admission settled s)
      (callState P arena env' request admission settled s) := by
  have hlength : (callDrafts P arena env request admission settled s).length =
      (callDrafts P arena env' request admission settled s).length := by
    rw [callDrafts, callDrafts, List.length_append, List.length_append,
      length_draftsToSnapshot request admission settled s env env']
  obtain ⟨events, hevents, hemit⟩ := @SameButEvents.emit F _ arena s s (.refl s) env env'
    (some (callName arena request s)) _ _ hlength
  refine ⟨events, hevents, ?_⟩
  rw [ContextLease.callState, ContextLease.callState, hemit, h.callSnapshot,
    ← rememberUsage_events]

end Env

/-! ### Operations under other orders -/

/-- A report leaves states that differ at most in their events. -/
theorem SameButEvents.reported {s t : ArenaState F} (h : SameButEvents s t) (env env' : Env)
    (observation : UsageObservation) (recent : RecentUsage) :
    SameButEvents (reported arena env observation recent s)
      (reported arena env' observation recent t) := by
  obtain ⟨events, hevents, rfl⟩ := h
  obtain ⟨events', hevents', hemit⟩ := @SameButEvents.emit F _ arena _ _ ⟨events, hevents, rfl⟩
    env env' (some observation.requestId) _ _
    (rfl : [calibratedDraft (observe recent observation.actualInputTokens
      (s.calibrations recent.key))].length = _)
  refine ⟨events', hevents', ?_⟩
  simp only [ContextLease.reported]
  rw [hemit]

/-- What an operation answers and leaves under two orders, in states that differ at most in their
events: the same answer, up to the order in which events are reported. -/
theorem SameButEvents.perform {s t : ArenaState F} (h : SameButEvents s t) (op : ReplayOp F)
    (orders orders' : HashOrders) :
    SameButEvents (op.perform P arena orders s).2 (op.perform P arena orders' t).2 := by
  cases op with
  | prepare clock request counter =>
      have hclock := clock.sameClock orders orders'
      simp only [ReplayOp.perform, prepareIn_eq, prepare]
      rw [prepareWithResults_eq ⟨clock.env orders, request, [], counter⟩,
        prepareWithResults_eq ⟨clock.env orders', request, [], counter⟩]
      obtain ⟨events, hevents, rfl⟩ := h
      have hdecision : Call.decision P arena ⟨clock.env orders', request, [], counter⟩
          { s with events := events } =
            Call.decision P arena ⟨clock.env orders, request, [], counter⟩ s := rfl
      rw [hdecision]
      cases Call.decision P arena ⟨clock.env orders, request, [], counter⟩ s with
      | error e => exact ⟨events, hevents, rfl⟩
      | ok decided =>
          obtain ⟨admission, settled⟩ := decided
          exact SameButEvents.commitTransaction ⟨events, hevents, rfl⟩
            (hclock.callState request admission settled s.beginTransaction)
  | recordUsage clock observation =>
      simp only [ReplayOp.perform, recordUsage_eq]
      obtain ⟨events, hevents, rfl⟩ := h
      split
      · exact ⟨events, hevents, rfl⟩
      · cases s.recentUsage observation.requestId with
        | none => exact ⟨events, hevents, rfl⟩
        | some recent => exact SameButEvents.reported ⟨events, hevents, rfl⟩ _ _ observation recent

/-- A steady operation answers the same under all orders. -/
theorem SameButEvents.reply {s t : ArenaState F} (h : SameButEvents s t) {op : ReplayOp F}
    (hsteady : op.Steady P arena s) (orders orders' : HashOrders) :
    (op.perform P arena orders s).1 = (op.perform P arena orders' t).1 := by
  cases op with
  | prepare clock request counter =>
      have hclock := clock.sameClock orders' orders
      simp only [ReplayOp.perform, prepareIn_eq, prepare]
      rw [prepareWithResults_eq ⟨clock.env orders, request, [], counter⟩,
        prepareWithResults_eq ⟨clock.env orders', request, [], counter⟩]
      obtain ⟨events, hevents, rfl⟩ := h
      have hdecision : Call.decision P arena ⟨clock.env orders', request, [], counter⟩
          { s with events := events } =
            Call.decision P arena ⟨clock.env orders, request, [], counter⟩ s := rfl
      rw [hdecision]
      cases hdecided : Call.decision P arena ⟨clock.env orders, request, [], counter⟩ s with
      | error e => rfl
      | ok decided =>
          obtain ⟨admission, settled⟩ := decided
          have hone := hsteady admission settled hdecided
          have hleases : leaseDrafts P (clock.env orders) s.beginTransaction.activeLeases
              admission.leases = leaseDrafts P (clock.env orders')
                s.beginTransaction.activeLeases admission.leases :=
            leaseDrafts_of_one (clock.env orders) (clock.env orders') hone
          have hplan := @SameClock.callPlan F _ P arena _ _ hclock request admission settled
            s.beginTransaction
          simp only [callDrafts, draftsToSnapshot, hleases] at hplan
          simp only [Call.plan]
          rw [hplan]
          rfl
  | recordUsage clock observation =>
      simp only [ReplayOp.perform, recordUsage_eq]
      obtain ⟨events, hevents, rfl⟩ := h
      split
      · rfl
      · cases s.recentUsage observation.requestId with
        | none => rfl
        | some recent => rfl

/-! ### When the orders make a difference -/

/-- Orders that differ from the listed ones in the active leases. -/
def reversedOrders : HashOrders := ⟨.listed _, .listed _, .reversed _⟩

omit [FloatOps F] in
/-- The leases of a table have distinct ids. -/
theorem leaseIds_nextLeases_nodup (leases : List Lease) :
    (((nextLeases leases).map Prod.snd).map Lease.leaseId).Nodup := by
  have hkeys : ((nextLeases leases).map Prod.snd).map Lease.leaseId =
      (nextLeases leases).map Prod.fst := by
    rw [List.map_map]
    refine List.map_congr_left ?_
    intro e he
    obtain ⟨l, -, rfl⟩ := List.mem_map.1 (BTreeMap.mem_of_mem_ofList he)
    rfl
  rw [hkeys, List.Nodup, List.pairwise_map]
  exact (BTreeMap.ofList_sorted _).imp fun hlt => hlt.ne

omit [FloatOps F] in
/-- A list of distinct entries that is its own reverse has at most one entry. -/
theorem length_le_one_of_reverse {α : Type} {l : List α} (hnodup : l.Nodup)
    (h : l.reverse = l) : l.length ≤ 1 := by
  cases l with
  | nil => exact Nat.zero_le _
  | cons a l =>
      rw [List.reverse_cons] at h
      cases hl : l.reverse with
      | nil =>
          rw [List.reverse_eq_nil_iff.1 hl]
          exact le_refl 1
      | cons b r =>
          -- the first entry would be one of the others
          rw [hl, List.cons_append, List.cons.injEq] at h
          have hmem : a ∈ l := List.mem_reverse.1 (hl ▸ h.1 ▸ List.mem_cons_self ..)
          exact absurd hmem (List.nodup_cons.1 hnodup).1

/-- A reclaim names its lease. -/
theorem leaseId_reclaimDraft (next : BTreeMap Lease) (l : Lease) :
    (reclaimDraft P next l).payload.get "lease_id" = some (.string l.leaseId) := by
  have hlt : "reclaimed_tokens" ≠ "lease_id" := by decide
  have hlt' : "borrower_module_id" ≠ "lease_id" := by decide
  rw [reclaimDraft, BTreeMap.ofList]
  simp only [List.foldl_cons, List.foldl_nil]
  rw [BTreeMap.get_insert_of_ne _ _ hlt'.symm, BTreeMap.get_insert_of_ne _ _ hlt.symm,
    BTreeMap.get_insert_self]

/-- An operation that answers the same under two opposite orders is steady. -/
theorem steady_of_reply {s : ArenaState F} (hactive : ∃ leases, s.activeLeases = nextLeases leases)
    {op : ReplayOp F} (h : (op.perform P arena reversedOrders s).1 =
      (op.perform P arena listedOrders s).1) : op.Steady P arena s := by
  cases op with
  | recordUsage clock observation => trivial
  | prepare clock request counter =>
      intro admission settled hdecided
      have hclock := clock.sameClock listedOrders reversedOrders
      simp only [ReplayOp.perform, prepareIn_eq, prepare] at h
      have hdecided' : Call.decision P arena ⟨clock.env listedOrders, request, [], counter⟩ s =
          .ok (admission, settled) := hdecided
      have hdecided'' : Call.decision P arena ⟨clock.env reversedOrders, request, [], counter⟩ s =
          .ok (admission, settled) := hdecided
      rw [prepareWithResults_eq ⟨clock.env listedOrders, request, [], counter⟩,
        prepareWithResults_eq ⟨clock.env reversedOrders, request, [], counter⟩, hdecided',
        hdecided''] at h
      simp only [Reply.plan.injEq, Except.ok.injEq, Call.plan] at h
      have htrace := congrArg PreparedContextPlan.traceEvents h
      rw [hclock.callPlan] at htrace
      have hdrafts := eventsFrom_injective _ _ _ _ htrace
      simp only [callDrafts, draftsToSnapshot, List.append_cancel_right_eq, List.cons.injEq,
        true_and, leaseDrafts_eq] at hdrafts
      -- the listed reclaims are the reversed ones
      set lost := lostLeases P s.activeLeases admission.leases with hlost
      have hreversed : (lost.map (reclaimDraft P (nextLeases admission.leases))).reverse =
          lost.map (reclaimDraft P (nextLeases admission.leases)) := by
        rw [← List.map_reverse, hlost, lostLeases, ← List.filter_reverse]
        exact hdrafts
      have hids : (lost.map Lease.leaseId).reverse = lost.map Lease.leaseId := by
        have hget := congrArg (List.map fun draft : EventDraft => draft.payload.get "lease_id")
          hreversed
        rw [List.map_reverse, List.map_map] at hget
        have hmap : lost.map ((fun draft : EventDraft => draft.payload.get "lease_id") ∘
            reclaimDraft P (nextLeases admission.leases)) =
              (lost.map Lease.leaseId).map fun id => some (Value.string id) := by
          rw [List.map_map]
          exact List.map_congr_left fun l _ => leaseId_reclaimDraft _ l
        rw [hmap, ← List.map_reverse] at hget
        exact List.map_injective_iff.2 (fun id id' heq =>
          Value.string.inj (Option.some_inj.1 heq)) hget
      have hnodup : (lost.map Lease.leaseId).Nodup := by
        obtain ⟨leases, hleases⟩ := hactive
        rw [hlost, lostLeases, hleases]
        exact (leaseIds_nextLeases_nodup leases).sublist (List.Sublist.map _ List.filter_sublist)
      have hlength := length_le_one_of_reverse hnodup hids
      rwa [List.length_map] at hlength

/-- The active leases are always those of a plan. -/
theorem activeLeases_perform {s : ArenaState F}
    (hactive : ∃ leases, s.activeLeases = nextLeases leases) (op : ReplayOp F)
    (orders : HashOrders) :
    ∃ leases, (op.perform P arena orders s).2.activeLeases = nextLeases leases := by
  cases op with
  | prepare clock request counter =>
      simp only [ReplayOp.perform, prepareIn_eq, prepare]
      rw [prepareWithResults_eq ⟨clock.env orders, request, [], counter⟩]
      cases Call.decision P arena ⟨clock.env orders, request, [], counter⟩ s with
      | error e => exact hactive
      | ok decided =>
          obtain ⟨admission, settled⟩ := decided
          exact ⟨admission.leases, activeLeases_committed _ admission settled s⟩
  | recordUsage clock observation =>
      simp only [ReplayOp.perform, activeLeases_recordUsage]
      exact hactive

/-- A steady sequence answers the same under all orders. -/
theorem replay_eq_of_steady {ops : List (ReplayOp F)} {s₀ s t : ArenaState F}
    (hsteady : SteadyReplay P arena s₀ ops) (h : SameButEvents s₀ s) (h' : SameButEvents s₀ t)
    (orders orders' : ℕ → HashOrders) :
    replay P arena orders s ops = replay P arena orders' t ops := by
  induction ops generalizing s₀ s t orders orders' with
  | nil => rfl
  | cons op ops ih =>
      rw [replay, replay, List.cons.injEq]
      refine ⟨?_, ih hsteady.2 (h.perform op listedOrders (orders 0))
        (h'.perform op listedOrders (orders' 0)) _ _⟩
      exact (h.reply hsteady.1 listedOrders (orders 0)).symm.trans
        (h'.reply hsteady.1 listedOrders (orders' 0))

/-- A sequence that answers the same under all orders is steady. -/
theorem steady_of_replay {ops : List (ReplayOp F)} {s : ArenaState F}
    (hactive : ∃ leases, s.activeLeases = nextLeases leases)
    (h : ∀ orders orders', replay P arena orders s ops = replay P arena orders' s ops) :
    SteadyReplay P arena s ops := by
  induction ops generalizing s with
  | nil => trivial
  | cons op ops ih =>
      refine ⟨?_, ih (activeLeases_perform hactive op listedOrders) fun orders orders' => ?_⟩
      · have hreplay := h (fun _ => reversedOrders) fun _ => listedOrders
        rw [replay, replay, List.cons.injEq] at hreplay
        exact steady_of_reply hactive hreplay.1
      · -- the same orders for the first operation, and given ones after it
        have hreplay := h (fun i => i.casesOn listedOrders orders)
          fun i => i.casesOn listedOrders orders'
        rw [replay, replay, List.cons.injEq] at hreplay
        exact hreplay.2

/-- The orders make no difference to what a sequence answers exactly when no successful call in it
takes tokens from two active leases. -/
theorem replaysAgree_iff_steady (ops : List (ReplayOp F)) :
    ReplaysAgree P arena ops ↔ SteadyReplay P arena {} ops :=
  ⟨fun h => steady_of_replay ⟨[], rfl⟩ h, fun h orders orders' =>
    replay_eq_of_steady h (.refl {}) (.refl {}) orders orders'⟩

end Calls

end ContextLease
