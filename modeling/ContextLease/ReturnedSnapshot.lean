/-
The snapshot of a plan and the snapshot of the arena.

A call takes its snapshot before its last event, while its events are still in a ring of their own.
The commit merges the rings and brings the drop count of the stored snapshot up to date, but not the
one of the copy that the plan returns.  The two are the same exactly when the merge drops nothing.

Main definitions:

* `Call.reportCount` — how many events a call reports;
* `ReturnsStored`, `HasRoom` — what is asked of a step, and the condition for it.

Main results:

* `stored_iff` — a decided call returns the stored snapshot exactly when its events have room;
* `returned_snapshot_iff` — the same along every run;
* `full_ring_returns_stale_count` — a run after which they differ.
-/

import ContextLease.Mirror

set_option relaxedAutoImplicit false
set_option autoImplicit false

namespace ContextLease

open MachineNumbers RustText

variable {F : Type}

/-- Bringing a drop count up to date changes nothing exactly when it is up to date. -/
theorem withDropped_eq_self_iff {snapshot : ArenaSnapshot F} {dropped : ℕ} {version : Value}
    (hhealth : snapshot.health =
      BTreeMap.ofList [("events_dropped", .ofInt dropped), ("core_version", version)]) (n : ℕ) :
    snapshot.withDropped n = snapshot ↔ n = dropped := by
  constructor
  · intro h
    have hget := congrArg (fun snapshot : ArenaSnapshot F =>
      (snapshot.health.get "events_dropped").map Value.asTokens) h
    have hcount : (snapshot.health.get "events_dropped").map Value.asTokens =
        some (dropped : ℤ) := by
      rw [hhealth, BTreeMap.ofList, List.foldl_cons, List.foldl_cons, List.foldl_nil,
        BTreeMap.get_insert_of_ne _ _ (show "events_dropped" ≠ "core_version" by decide),
        BTreeMap.get_insert_self, Option.map_some, Value.asTokens_ofInt (Int.natCast_nonneg _)]
    simp only [ArenaSnapshot.withDropped, BTreeMap.get_insert_self, Option.map_some] at hget
    rw [hcount, Value.asTokens_ofInt (Int.natCast_nonneg _), Option.some_inj] at hget
    exact_mod_cast hget
  · rintro rfl
    have hinsert : snapshot.health.insert "events_dropped" (.ofInt n) = snapshot.health := by
      have hlt : ¬ "events_dropped" < "core_version" := by decide
      rw [hhealth, health_ofList]
      simp [BTreeMap.insert, hlt]
    rw [ArenaSnapshot.withDropped, hinsert]

variable [FloatOps F]

section Returned

variable (P : Platform) (arena : ContextLeaseArena F)

/-- How many events a call reports. -/
def Call.reportCount (call : Call F) (s : ArenaState F) : ℕ :=
  match call.decision P arena s with
  | .ok (admission, settled) => (call.events P arena admission settled s).length
  | .error _ => 0

variable {P arena}

/-- What the rings of a decided call drop, before they are merged and after. -/
theorem eventsDropped_callState {call : Call F} {admission : Admission F} {settled : Settled F}
    {s : ArenaState F} (hring : s.events.length ≤ eventCapacity) :
    (s.beginTransaction.emit arena call.env (some (callName arena call.request s.beginTransaction))
        (draftsToSnapshot P arena call.env call.request admission settled
          s.beginTransaction)).eventsDropped =
      s.eventsDropped +
        ((call.events P arena admission settled s).length - 1 - eventCapacity) ∧
    (call.direct P arena admission settled s).eventsDropped =
      s.eventsDropped + (s.events.length + (call.events P arena admission settled s).length -
        eventCapacity) := by
  have hcount : (call.events P arena admission settled s).length =
      (draftsToSnapshot P arena call.env call.request admission settled
        s.beginTransaction).length + 1 := by
    rw [Call.events, length_eventsFrom, callDrafts, List.length_append, List.length_singleton]
    rfl
  constructor
  · have hempty : s.beginTransaction.events.length = 0 := rfl
    rw [eventsDropped_emit (Nat.zero_le _), hcount, hempty, Nat.zero_add, Nat.add_sub_cancel]
    rfl
  · have hdirect : (call.direct P arena admission settled s).eventsDropped =
        (s.emit arena call.env (some (callName arena call.request s))
          (callDrafts P arena call.env call.request admission settled s)).eventsDropped := rfl
    rw [hdirect, eventsDropped_emit hring, Call.events, length_eventsFrom]

/-- A decided call returns the snapshot that it stores exactly when the ring has room for its
events. -/
theorem stored_iff {call : Call F} {admission : Admission F} {settled : Settled F}
    {s : ArenaState F} (hring : s.events.length ≤ eventCapacity) :
    (call.committed P arena admission settled s).latestSnapshot =
        some (call.plan P arena admission settled s).snapshot ↔
      s.events.length + (call.events P arena admission settled s).length ≤ eventCapacity := by
  obtain ⟨hbegun, hdirect⟩ := @eventsDropped_callState F _ P arena call admission settled s hring
  have hstored : (call.committed P arena admission settled s).latestSnapshot =
      some ((call.plan P arena admission settled s).snapshot.withDropped
        (call.direct P arena admission settled s).eventsDropped) := by
    rw [committed_eq P arena call admission settled s hring]
    exact congrArg some (callSnapshot_beginTransaction P arena call admission settled s _).symm
  have hhealth : (call.plan P arena admission settled s).snapshot.health =
      BTreeMap.ofList [("events_dropped", .ofInt ((s.eventsDropped +
        ((call.events P arena admission settled s).length - 1 - eventCapacity) : ℕ) : ℤ)),
          ("core_version", .string coreVersion)] := by
    rw [← hbegun]
    rfl
  rw [hstored, Option.some_inj, withDropped_eq_self_iff hhealth, hdirect]
  omega

variable (P arena)

/-- A successful call returns the snapshot that the arena then has. -/
def ReturnsStored (s : ArenaState F) (op : Op F) : Prop :=
  ∀ plan, planOf P arena s op = some plan → snapshot (step P arena s op) = some plan.snapshot

/-- The ring has room for the events that a successful call reports. -/
def HasRoom (s : ArenaState F) (op : Op F) : Prop :=
  (planOf P arena s op).isSome = true → ∀ call, op.call = some call →
    s.events.length + call.reportCount P arena s ≤ eventCapacity

variable {P arena}

theorem returnsStored_iff {s : ArenaState F} (hring : s.events.length ≤ eventCapacity)
    (op : Op F) : ReturnsStored P arena s op ↔ HasRoom P arena s op := by
  rw [ReturnsStored, HasRoom]
  cases hplan : planOf P arena s op with
  | none => simp
  | some plan =>
      obtain ⟨call, admission, settled, hcall, hdecided, rfl, hstep⟩ := call_of_planOf hplan
      have hcount : call.reportCount P arena s =
          (call.events P arena admission settled s).length := by
        rw [Call.reportCount, hdecided]
      have hstored := @stored_iff F _ P arena call admission settled s hring
      rw [← hcount] at hstored
      constructor
      · intro h _ call' hcall'
        obtain rfl := Option.some_inj.1 (hcall.symm.trans hcall')
        have hreturned := h _ rfl
        rw [snapshot, hstep] at hreturned
        exact hstored.1 hreturned
      · intro h plan' hplan'
        obtain rfl := Option.some_inj.1 hplan'
        rw [snapshot, hstep]
        exact hstored.2 (h rfl call hcall)

/-- Along every run, the calls that succeed all return the snapshot that the arena has after them
exactly when, whenever one succeeds, the ring of the state before it has room for what it
reports. -/
theorem returned_snapshot_iff (P : Platform) (arena : ContextLeaseArena F) (ops : List (Op F)) :
    (∀ done op, done ++ [op] <+: ops → ReturnsStored P arena (run P arena {} done) op) ↔
      ∀ done op, done ++ [op] <+: ops → HasRoom P arena (run P arena {} done) op := by
  have hring : ∀ done : List (Op F), (run P arena {} done).events.length ≤ eventCapacity :=
    fun done => (EventInvariant.of_run P arena done).ring
  exact forall_congr' fun done => forall_congr' fun op => imp_congr_right fun _ =>
    returnsStored_iff (hring done) op

end Returned

/-! ### A full ring -/

/-- The example request under one name, prepared by the kernel. -/
def prepareAgain : Op ℚ := .prepare default againRequest none

/-- As long as no usage is reported the call succeeds again. -/
theorem prepareAgain_outcome {s : ArenaState ℚ} (h : s.calibrations = HashMap.empty) :
    ∃ admission settled,
      planOf (Library.ascii id).release exampleArena s prepareAgain =
        some (againCall.plan (Library.ascii id).release exampleArena admission settled s) ∧
      step (Library.ascii id).release exampleArena s prepareAgain =
        againCall.committed (Library.ascii id).release exampleArena admission settled s := by
  obtain ⟨admission, settled, -, hprepared⟩ := again_prepared h
  refine ⟨admission, settled, ?_, ?_⟩
  · rw [prepareAgain, planOf, prepare, hprepared]
    rfl
  · rw [prepareAgain, step, prepare, hprepared]

/-- The calls one after the other. -/
theorem prepareAgain_run (n : ℕ) :
    let s := run (Library.ascii id).release exampleArena {} (List.replicate n prepareAgain)
    (∃ ps, EventInvariant s ps) ∧ Announced exampleArena s ∧ s.calibrations = HashMap.empty ∧
      n ≤ s.eventSeq := by
  induction n with
  | zero => exact ⟨⟨[], .init⟩, .init, rfl, Nat.zero_le _⟩
  | succ n ih =>
      obtain ⟨⟨ps, hps⟩, hannounced, hcalibrations, hseq⟩ := ih
      rw [List.replicate_succ', run, List.foldl_append, List.foldl_cons, List.foldl_nil, ← run]
      generalize run (Library.ascii id).release exampleArena {} (List.replicate n prepareAgain) = s
        at hps hannounced hcalibrations hseq ⊢
      obtain ⟨admission, settled, hplan, hstep⟩ := prepareAgain_outcome hcalibrations
      have houtcome : StepOutcome (Library.ascii id).release exampleArena s prepareAgain _ _ :=
        step_outcome s prepareAgain
      rw [hplan] at houtcome
      obtain ⟨-, hlast⟩ := houtcome.trace hps
      have hsome := List.length_pos_iff.2 houtcome.plan.2.2.2
      refine ⟨⟨_, houtcome.eventInvariant hps⟩, houtcome.announced hps hannounced, ?_, ?_⟩
      · rw [hstep, calibrations_committed, hcalibrations]
      · rw [hlast]
        omega

/-- After ten thousand calls the plan of the next one tells a smaller drop count than the
snapshot of the arena. -/
theorem full_ring_returns_stale_count :
    ¬ ReturnsStored (Library.ascii id).release exampleArena
      (run (Library.ascii id).release exampleArena {} (List.replicate 10000 prepareAgain))
      prepareAgain := by
  obtain ⟨⟨ps, hps⟩, hannounced, hcalibrations, hseq⟩ := prepareAgain_run 10000
  generalize run (Library.ascii id).release exampleArena {} (List.replicate 10000 prepareAgain) = s
    at hps hannounced hcalibrations hseq ⊢
  obtain ⟨admission, settled, hplan, hstep⟩ := prepareAgain_outcome hcalibrations
  have hfull : s.events.length = eventCapacity := by
    rw [hannounced.kept]
    exact min_eq_left hseq
  intro hreturns
  have hstored := hreturns _ hplan
  rw [snapshot, hstep, stored_iff hfull.le, hfull] at hstored
  have hsome : 0 < (againCall.events (Library.ascii id).release exampleArena admission settled
      s).length := by
    rw [Call.events, length_eventsFrom, callDrafts, List.length_append, List.length_singleton]
    exact Nat.succ_pos _
  exact absurd hstored (by omega)

end ContextLease
