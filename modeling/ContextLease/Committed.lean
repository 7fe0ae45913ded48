/-
The state after a commit.

A call writes to a copy of the state that starts without events, and the commit merges the copy
back.  The merge leaves exactly what the writes would have left on the state itself, because the
ring keeps the last events whichever way they come; only the drop count in the health of the
snapshot is brought up to date.

Main definitions:

* `ArenaSnapshot.withDropped`, `ArenaState.refreshed` — bringing the drop count up to date;
* `Call.direct` — the writes of a call, on the state itself.

Main results:

* `committed_eq` — the commit leaves what the writes leave, with the drop count brought up to date.
-/

import ContextLease.RunSpec

set_option relaxedAutoImplicit false
set_option autoImplicit false

namespace ContextLease

open MachineNumbers RustText

variable {F : Type}

attribute [ext] ArenaState

/-- A snapshot with another drop count. -/
def ArenaSnapshot.withDropped (snapshot : ArenaSnapshot F) (dropped : ℕ) : ArenaSnapshot F :=
  { snapshot with health := snapshot.health.insert "events_dropped" (.ofInt dropped) }

/-- A state whose snapshot tells its drop count. -/
def ArenaState.refreshed (s : ArenaState F) : ArenaState F :=
  { s with
    latestSnapshot := s.latestSnapshot.map fun snapshot => snapshot.withDropped s.eventsDropped }

theorem ArenaState.health_refreshed (s : ArenaState F) :
    ∀ snapshot ∈ s.refreshed.latestSnapshot,
      snapshot.health.get "events_dropped" = some (.ofInt s.eventsDropped) := by
  intro snapshot hsnapshot
  obtain ⟨snapshot, -, rfl⟩ := Option.mem_map.1 hsnapshot
  exact BTreeMap.get_insert_self ..

/-- The health of a snapshot in key order. -/
theorem health_ofList (dropped version : Value) :
    BTreeMap.ofList [("events_dropped", dropped), ("core_version", version)] =
      [("core_version", version), ("events_dropped", dropped)] := by
  have hlt : "core_version" < "events_dropped" := by decide
  simp [BTreeMap.ofList, BTreeMap.insert, hlt]

/-- The drop count of a snapshot forgets the one before it. -/
theorem health_insert (dropped dropped' version value : Value) :
    (BTreeMap.ofList [("events_dropped", dropped), ("core_version", version)]).insert
        "events_dropped" value =
      (BTreeMap.ofList [("events_dropped", dropped'), ("core_version", version)]).insert
        "events_dropped" value := by
  have hlt : ¬ "events_dropped" < "core_version" := by decide
  rw [health_ofList, health_ofList]
  simp [BTreeMap.insert, hlt]

/-- The merge of a transaction. -/
theorem ArenaState.commitTransaction_eq (s transaction : ArenaState F) :
    let log := transaction.events.foldl (BoundedLog.push eventCapacity)
      ⟨s.events, transaction.eventsDropped⟩
    s.commitTransaction transaction =
      { transaction.withLog log with
        latestSnapshot := transaction.latestSnapshot.map fun snapshot =>
          snapshot.withDropped log.dropped } := by
  simp only [commitTransaction, foldl_appendEvent_eq]
  rfl

/-- The bookkeeping of a request looks at the remembered requests alone. -/
theorem ArenaState.rememberUsage_congr {s t : ArenaState F} (husage : t.recentUsage = s.recentUsage)
    (horder : t.recentUsageOrder = s.recentUsageOrder) (id : String) (usage : RecentUsage) :
    (t.rememberUsage id usage).recentUsage = (s.rememberUsage id usage).recentUsage ∧
      (t.rememberUsage id usage).recentUsageOrder =
        (s.rememberUsage id usage).recentUsageOrder := by
  simp only [rememberUsage, husage, horder, and_self]

variable [FloatOps F]

section Commit

variable (P : Platform) (arena : ContextLeaseArena F) (call : Call F) (admission : Admission F)
  (settled : Settled F) (s : ArenaState F)

/-- The writes of a call, on the state itself. -/
def Call.direct : ArenaState F := callState P arena call.env call.request admission settled s

/-- What a call reports. -/
def Call.events : List TraceEvent :=
  eventsFrom arena call.env (some (callName arena call.request s)) s.eventSeq
    (callDrafts P arena call.env call.request admission settled s)

/-- The bookkeeping of a request does not look at the other fields. -/
theorem callState_remembers :
    (callState P arena call.env call.request admission settled s).recentUsage =
        (s.rememberUsage (callName arena call.request s)
          (recentUsageOf call.request settled.promptTokens)).recentUsage ∧
      (callState P arena call.env call.request admission settled s).recentUsageOrder =
        (s.rememberUsage (callName arena call.request s)
          (recentUsageOf call.request settled.promptTokens)).recentUsageOrder :=
  ArenaState.rememberUsage_congr rfl rfl _ _

/-- The snapshot of a call depends on the ring only in its drop count. -/
theorem callSnapshot_beginTransaction (dropped : ℕ) :
    (callSnapshot P arena call.env call.request admission settled
        s.beginTransaction).withDropped dropped =
      (callSnapshot P arena call.env call.request admission settled s).withDropped dropped := by
  simp only [ArenaSnapshot.withDropped, callSnapshot, takeSnapshot]
  rw [health_insert]
  rfl

/-- The commit leaves what the writes leave, with the drop count brought up to date. -/
theorem committed_eq (hring : s.events.length ≤ eventCapacity) :
    call.committed P arena admission settled s =
      (call.direct P arena admission settled s).refreshed := by
  have hlog : (callState P arena call.env call.request admission settled
      s.beginTransaction).events.foldl (BoundedLog.push eventCapacity) ⟨s.events,
        (callState P arena call.env call.request admission settled
          s.beginTransaction).eventsDropped⟩ = (call.direct P arena admission settled s).log :=
    BoundedLog.foldl_push_staged (by decide) (show s.log.items.length ≤ eventCapacity from hring)
      (call.events P arena admission settled s)
  have hsnapshot := callSnapshot_beginTransaction P arena call admission settled s
    (call.direct P arena admission settled s).eventsDropped
  have hmapped : (callState P arena call.env call.request admission settled
      s.beginTransaction).latestSnapshot.map (fun snapshot => snapshot.withDropped
        (call.direct P arena admission settled s).eventsDropped) =
      (call.direct P arena admission settled s).latestSnapshot.map fun snapshot =>
        snapshot.withDropped (call.direct P arena admission settled s).eventsDropped :=
    congrArg some hsnapshot
  -- the bookkeeping of the request does not look at the ring
  have hremembered := callState_remembers P arena call admission settled s.beginTransaction
  have hdirect := callState_remembers P arena call admission settled s
  have hstaged := ArenaState.rememberUsage_congr
    (rfl : s.beginTransaction.recentUsage = s.recentUsage)
    (rfl : s.beginTransaction.recentUsageOrder = s.recentUsageOrder)
    (callName arena call.request s) (recentUsageOf call.request settled.promptTokens)
  rw [Call.committed, ArenaState.commitTransaction_eq, hlog, ArenaState.refreshed, ← hmapped]
  refine ArenaState.ext rfl rfl rfl rfl rfl rfl ?_ ?_ rfl rfl rfl
  · simp only [ArenaState.recentUsage_withLog]
    exact hremembered.1.trans (hstaged.1.trans hdirect.1.symm)
  · simp only [ArenaState.recentUsageOrder_withLog]
    exact hremembered.2.trans (hstaged.2.trans hdirect.2.symm)

end Commit

variable {P : Platform} {arena : ContextLeaseArena F}

theorem activeLeases_committed (call : Call F) (admission : Admission F) (settled : Settled F)
    (s : ArenaState F) :
    (call.committed P arena admission settled s).activeLeases = nextLeases admission.leases := by
  rw [Call.committed, ArenaState.commitTransaction_eq]
  rfl

/-- A usage report leaves the leases alone. -/
theorem activeLeases_recordUsage (env : Env) (observation : UsageObservation) (s : ArenaState F) :
    (recordUsage arena env observation s).2.activeLeases = s.activeLeases := by
  rw [recordUsage_eq]
  split
  · rfl
  · split <;> rfl

theorem calibrations_committed (call : Call F) (admission : Admission F) (settled : Settled F)
    (s : ArenaState F) :
    (call.committed P arena admission settled s).calibrations = s.calibrations := by
  rw [Call.committed, ArenaState.commitTransaction_eq]
  rfl

end ContextLease
