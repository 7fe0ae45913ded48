/-
The requests that wait for their usage.

An arena holds the requests whose usage has not been reported in two parts, the table `recentUsage`
and the order `recentUsageOrder`, which a call and a usage report update one after the other.
Together they hold a bounded queue with one entry for each name: a successful call enqueues the name
of its request with the count of its prompt, and a usage report takes the entry of its name out, or
finds none and fails.

Main definitions:

* `UsageQueue`, `UsageAction`, `UsageQueue.act` — the queue, and what happens to it;
* `usageAction`, `queueOf` — what an operation and a run come to for the queue.

Main results:

* `step_heldIn` — every operation keeps the two parts together;
* `usage_matched_once` — the queue of every run, and how a usage report is answered.
-/

import ContextLease.BoundedQueue
import ContextLease.Committed

set_option relaxedAutoImplicit false
set_option autoImplicit false

namespace ContextLease

open MachineNumbers RustText

variable {F : Type}

/-- The requests that wait for their usage, by name. -/
abbrev UsageQueue := BoundedQueue String RecentUsage 2048

/-- What can happen to the queue: a request was prepared, or the usage of one was matched. -/
inductive UsageAction
  | prepared (requestId : String) (usage : RecentUsage)
  | matched (requestId : String)

/-- What it does to the queue. -/
def UsageQueue.act (q : UsageQueue) : UsageAction → UsageQueue
  | .prepared requestId usage => q.enqueue requestId usage
  | .matched requestId => q.remove requestId

/-- The two parts in which a state holds the queue. -/
def ArenaState.Holds (s : ArenaState F) (q : UsageQueue) : Prop :=
  q.HeldIn s.recentUsage s.recentUsageOrder

/-- What is remembered of a plan. -/
def PreparedContextPlan.usage (plan : PreparedContextPlan F) : RecentUsage :=
  ⟨plan.modelProfileId, plan.tokenizerId, plan.tokenizerVersion, plan.promptTokens⟩

/-- The latest plan of a request. -/
def latestPlan (ps : List (PreparedContextPlan F)) (requestId : String) :
    Option (PreparedContextPlan F) :=
  ps.reverse.find? fun plan => plan.requestId == requestId

variable [FloatOps F]

section Actions

variable (P : Platform) (arena : ContextLeaseArena F)

/-- What an operation comes to for the queue, by what it returns. -/
def usageAction (s : ArenaState F) : Op F → Option UsageAction
  | .recordUsage env observation =>
      (recordUsage arena env observation s).1.toOption.map fun _ => .matched observation.requestId
  | op => (planOf P arena s op).map fun plan => .prepared plan.requestId plan.usage

/-- The queue of a run that starts with the queue `q`. -/
def queueOf : UsageQueue → ArenaState F → List (Op F) → UsageQueue
  | q, _, [] => q
  | q, s, op :: ops =>
      queueOf (((usageAction P arena s op).map q.act).getD q) (step P arena s op) ops

end Actions

/-! ### Names -/

/-- A generated name is never blank, and a host's name is only taken when it is not. -/
theorem isBlank_requestName (arena : ContextLeaseArena F) (request : PrepareRequest F) (seq : ℕ) :
    isBlank (requestName arena request seq) = false := by
  have hgenerated : isBlank (arena.definition.arenaId ++ ":" ++ toString seq) = false := by
    rw [← Bool.not_eq_true, isBlank_iff]
    intro hblank
    have hcolon : isWhitespace ':' = true := hblank ':' (by simp)
    exact absurd hcolon (by decide)
  unfold requestName
  split
  · split
    · exact hgenerated
    · rename_i hid
      exact Bool.not_eq_true _ ▸ hid
  · exact hgenerated

/-! ### Steps -/

section Steps

variable {P : Platform} {arena : ContextLeaseArena F}

omit [FloatOps F] in
theorem ArenaState.Holds.init : ({} : ArenaState F).Holds .empty := .empty

omit [FloatOps F] in
/-- The bookkeeping of a request enqueues it. -/
theorem ArenaState.Holds.rememberUsage {s : ArenaState F} {q : UsageQueue} (h : s.Holds q)
    (requestId : String) (usage : RecentUsage) :
    (s.rememberUsage requestId usage).Holds (q.enqueue requestId usage) := by
  have henqueue := BoundedQueue.HeldIn.enqueue h requestId usage
  have hremove : (HashMap.remove : HashMap RecentUsage → String → HashMap RecentUsage) =
      fun table id => Function.update table id none := rfl
  simp only at henqueue
  simp only [ArenaState.Holds, ArenaState.rememberUsage, hremove, HashMap.insert]
  exact henqueue

/-- A committed call enqueues the name of its request. -/
theorem Call.committed_holds {s : ArenaState F} {q : UsageQueue} (h : s.Holds q) (call : Call F)
    (admission : Admission F) (settled : Settled F) :
    (call.committed P arena admission settled s).Holds
      (q.enqueue (call.plan P arena admission settled s).requestId
        (call.plan P arena admission settled s).usage) := by
  have hbegun : s.beginTransaction.Holds q := h
  have hremembered := hbegun.rememberUsage (callName arena call.request s)
    (recentUsageOf call.request settled.promptTokens)
  obtain ⟨husage, horder⟩ :=
    callState_remembers P arena call admission settled s.beginTransaction
  unfold ArenaState.Holds at hremembered ⊢
  rw [Call.committed, ArenaState.recentUsage_commitTransaction,
    ArenaState.recentUsageOrder_commitTransaction, husage, horder]
  exact hremembered

/-- A matched usage report takes the entry of its name out. -/
theorem reported_holds {s : ArenaState F} {q : UsageQueue} (h : s.Holds q) (env : Env)
    (observation : UsageObservation) (recent : RecentUsage) :
    (reported arena env observation recent s).Holds (q.remove observation.requestId) :=
  BoundedQueue.HeldIn.remove h observation.requestId

/-- How a usage report is answered. -/
theorem recordUsage_holds {s : ArenaState F} {q : UsageQueue} (h : s.Holds q)
    (hnames : ∀ id ∈ q.keys, isBlank id = false) (env : Env) (observation : UsageObservation)
    (hactual : 0 ≤ observation.actualInputTokens) :
    (∀ usage, q.get observation.requestId = some usage →
      recordUsage arena env observation s =
        (.ok (observe usage observation.actualInputTokens (s.calibrations usage.key)),
          reported arena env observation usage s)) ∧
    (q.get observation.requestId = none →
      recordUsage arena env observation s =
        (if isBlank observation.requestId then
          fail "configuration_error"
            "usage observation requires request_id and non-negative actual_input_tokens"
        else
          fail "usage_observation_unknown" ("unknown request_id " ++ observation.requestId),
            s)) := by
  have hvalid : decide (observation.actualInputTokens < 0) = false :=
    decide_eq_false (not_lt.2 hactual)
  rw [recordUsage_eq, hvalid, Bool.or_false, h.table]
  refine ⟨fun usage husage => ?_, fun hnone => ?_⟩
  · have hmem : observation.requestId ∈ q.keys := by
      rw [← BoundedQueue.isSome_get, husage]
      rfl
    rw [hnames _ hmem, if_neg Bool.false_ne_true, husage]
  · rw [hnone]
    split <;> rfl

/-- What is not blank among the names stays so. -/
theorem act_names {q : UsageQueue} (h : ∀ id ∈ q.keys, isBlank id = false)
    {action : UsageAction}
    (hprepared : ∀ id usage, action = .prepared id usage → isBlank id = false) :
    ∀ id ∈ (q.act action).keys, isBlank id = false := by
  intro id hid
  rw [← BoundedQueue.isSome_get] at hid
  cases action with
  | prepared requestId usage =>
      by_cases heq : id = requestId
      · rw [heq]
        exact hprepared _ _ rfl
      · rcases BoundedQueue.get_enqueue_of_ne q heq usage with hget | hget
        · rw [UsageQueue.act, hget] at hid
          exact h id ((BoundedQueue.isSome_get q id).1 hid)
        · rw [UsageQueue.act, hget] at hid
          cases hid
  | matched requestId =>
      by_cases heq : id = requestId
      · rw [UsageQueue.act, heq, BoundedQueue.get_remove_self] at hid
        cases hid
      · rw [UsageQueue.act, BoundedQueue.get_remove_of_ne q heq] at hid
        exact h id ((BoundedQueue.isSome_get q id).1 hid)

/-- A plan that is returned is enqueued. -/
theorem usageAction_of_plan {s : ArenaState F} {op : Op F} {plan : PreparedContextPlan F}
    (h : planOf P arena s op = some plan) :
    usageAction P arena s op = some (.prepared plan.requestId plan.usage) := by
  cases op with
  | recordUsage env observation => cases h
  | prepare env request counter => exact congrArg (Option.map _) h
  | prepareBegin env request counter => exact congrArg (Option.map _) h
  | prepareCommit env request results counter => exact congrArg (Option.map _) h

/-- The state holds the queue, and no name in it is blank. -/
structure QueueInvariant (s : ArenaState F) (q : UsageQueue) : Prop where
  holds : s.Holds q
  names : ∀ id ∈ q.keys, isBlank id = false

omit [FloatOps F] in
theorem QueueInvariant.init : QueueInvariant ({} : ArenaState F) .empty :=
  ⟨.init, fun id hid => by cases hid⟩

/-- A call that has returned a plan has enqueued it, and one that has not leaves the queue. -/
theorem StepOutcome.queueInvariant {s s' : ArenaState F} {q : UsageQueue} {op : Op F}
    {call : Call F} {plan : Option (PreparedContextPlan F)} (h : QueueInvariant s q)
    (hcall : op.call = some call) (hstep : StepOutcome P arena s op plan s') :
    QueueInvariant s'
      (((plan.map fun plan => UsageAction.prepared plan.requestId plan.usage).map q.act).getD
        q) := by
  cases hstep with
  | unchanged => exact h
  | @prepared call admission settled hcall hdecided =>
      simp only [Option.map_some, Option.getD_some]
      refine ⟨call.committed_holds h.holds admission settled, act_names h.names ?_⟩
      intro id usage haction
      rw [← (UsageAction.prepared.inj haction).1]
      exact isBlank_requestName ..
  | reported hop =>
      rw [hop] at hcall
      cases hcall

/-- Every operation does to the queue what it comes to. -/
theorem QueueInvariant.step {s : ArenaState F} {q : UsageQueue} (h : QueueInvariant s q)
    (op : Op F) :
    QueueInvariant (step P arena s op) (((usageAction P arena s op).map q.act).getD q) := by
  cases op with
  | prepare env request counter => exact (step_outcome s _).queueInvariant h rfl
  | prepareBegin env request counter => exact (step_outcome s _).queueInvariant h rfl
  | prepareCommit env request results counter => exact (step_outcome s _).queueInvariant h rfl
  | recordUsage env observation =>
      rw [ContextLease.step, usageAction, recordUsage_eq]
      split
      · exact h
      · split
        · exact h
        · rename_i recent hrecent
          simp only [Except.toOption, Option.map_some, Option.getD_some]
          refine ⟨reported_holds h.holds env observation recent, act_names h.names ?_⟩
          rintro id usage ⟨⟩

theorem QueueInvariant.run {s : ArenaState F} {q : UsageQueue} (h : QueueInvariant s q)
    (ops : List (Op F)) :
    QueueInvariant (run P arena s ops) (queueOf P arena q s ops) := by
  induction ops generalizing s q with
  | nil => exact h
  | cons op ops ih => exact ih (h.step op)

/-- What is remembered of a request is what its latest plan says. -/
theorem StepOutcome.latestPlan {s s' : ArenaState F} {op : Op F}
    {plan : Option (PreparedContextPlan F)} {ps : List (PreparedContextPlan F)}
    (h : ∀ id usage, s.recentUsage id = some usage →
      ∃ plan, latestPlan ps id = some plan ∧ plan.usage = usage)
    (hstep : StepOutcome P arena s op plan s') :
    ∀ id usage, s'.recentUsage id = some usage →
      ∃ plan', ContextLease.latestPlan (ps ++ plan.toList) id = some plan' ∧
        plan'.usage = usage := by
  cases hstep with
  | unchanged => simpa using h
  | @prepared call admission settled hcall hdecided =>
      intro id usage husage
      rw [Option.toList_some, ContextLease.latestPlan, List.reverse_append,
        List.reverse_singleton, List.singleton_append, List.find?_cons]
      have hremembers := (callState_remembers P arena call admission settled s.beginTransaction).1
      rw [Call.committed, ArenaState.recentUsage_commitTransaction, hremembers] at husage
      obtain ⟨hself, hothers⟩ := ArenaState.recentUsage_rememberUsage s.beginTransaction
        (callName arena call.request s) (recentUsageOf call.request settled.promptTokens)
      by_cases hid : id = callName arena call.request s
      · have hname : ((call.plan P arena admission settled s).requestId == id) = true :=
          beq_iff_eq.2 hid.symm
        refine ⟨call.plan P arena admission settled s, by rw [hname], ?_⟩
        rw [hid] at husage
        exact Option.some_inj.1 (hself.symm.trans husage)
      · have hname : ((call.plan P arena admission settled s).requestId == id) = false :=
          beq_false_of_ne (Ne.symm hid)
        rw [hname]
        rcases hothers id usage husage with ⟨heq, -⟩ | hold
        · exact absurd heq hid
        · exact h id usage hold
  | @reported env observation recent hop hblank hactual hrecent =>
      intro id usage husage
      rw [Option.toList_none, List.append_nil]
      refine h id usage ?_
      by_cases hid : id = observation.requestId
      · have hgone :
            (ContextLease.reported arena env observation recent s).recentUsage id = none := by
          rw [hid]
          exact HashMap.remove_self ..
        rw [hgone] at husage
        cases husage
      · exact (HashMap.remove_of_ne _ hid).symm.trans husage

/-- What is remembered after a run is what the latest plans say. -/
theorem latestPlan_of_run (P : Platform) (arena : ContextLeaseArena F) (ops : List (Op F)) :
    ∀ id usage, (run P arena {} ops).recentUsage id = some usage →
      ∃ plan, latestPlan (plans P arena {} ops) id = some plan ∧ plan.usage = usage :=
  @run_induction F _ P arena (fun s ps => ∀ id usage, s.recentUsage id = some usage →
      ∃ plan, latestPlan ps id = some plan ∧ plan.usage = usage)
    (fun _ _ _ _ _ h hstep => hstep.latestPlan h) {} [] (fun id usage husage => by cases husage) ops

/-- After every run of calls and usage reports, the table and the order of the remembered requests
hold the queue that the run comes to: no name twice, exactly the names of the table, at most 2048.
Its entries are those of the latest plans.  A call that returns a plan enqueues it.  A usage report
with a count that is not negative is matched exactly when the queue has an entry of its name, with
the estimate of that entry, which it takes out; otherwise it fails and changes nothing, with one
error for names and another for blank text. -/
theorem usage_matched_once (P : Platform) (arena : ContextLeaseArena F) (ops : List (Op F)) :
    let s := run P arena {} ops
    let q := queueOf P arena .empty {} ops
    s.Holds q ∧
      s.recentUsageOrder.Nodup ∧
      (∀ id, id ∈ s.recentUsageOrder ↔ (s.recentUsage id).isSome = true) ∧
      s.recentUsageOrder.length ≤ 2048 ∧
      (∀ id usage, q.get id = some usage →
        ∃ plan, latestPlan (plans P arena {} ops) id = some plan ∧ plan.usage = usage) ∧
      (∀ op plan, planOf P arena s op = some plan →
        (step P arena s op).Holds (q.enqueue plan.requestId plan.usage)) ∧
      ∀ env observation, 0 ≤ observation.actualInputTokens →
        (∀ usage, q.get observation.requestId = some usage →
          ∃ calibration s', recordUsage arena env observation s = (.ok calibration, s') ∧
            calibration.lastEstimatedTokens = usage.estimatedTokens ∧
            calibration.lastActualTokens = observation.actualInputTokens ∧
            s'.Holds (q.remove observation.requestId)) ∧
        (q.get observation.requestId = none →
          recordUsage arena env observation s =
            (if isBlank observation.requestId then
              fail "configuration_error"
                "usage observation requires request_id and non-negative actual_input_tokens"
            else
              fail "usage_observation_unknown"
                ("unknown request_id " ++ observation.requestId), s)) := by
  intro s q
  have h : QueueInvariant s q := QueueInvariant.init.run ops
  refine ⟨h.holds, ?_, ?_, ?_, ?_, ?_, ?_⟩
  · rw [h.holds.order]
    exact q.keys_nodup
  · intro id
    rw [h.holds.order, h.holds.table, BoundedQueue.isSome_get]
  · rw [h.holds.order]
    exact q.length_keys_le
  · intro id usage husage
    rw [← h.holds.table] at husage
    exact latestPlan_of_run P arena ops id usage husage
  · intro op plan hplan
    have hstep := @QueueInvariant.step F _ P arena _ _ h op
    rw [usageAction_of_plan hplan] at hstep
    exact hstep.holds
  · intro env observation hactual
    obtain ⟨hmatched, hunknown⟩ :=
      @recordUsage_holds F _ arena _ _ h.holds h.names env observation hactual
    exact ⟨fun usage husage => ⟨_, _, hmatched usage husage, rfl, rfl,
      reported_holds h.holds env observation usage⟩, hunknown⟩

/-- A report on the first request of a new arena is matched with its estimate of eleven tokens. -/
theorem usage_matched_once_example :
    let ops : List (Op ℚ) := [.prepare default exampleRequest none]
    ∃ calibration s', recordUsage exampleArena default ⟨"notes:1", 12⟩
        (run (Library.ascii id).release exampleArena {} ops) = (.ok calibration, s') ∧
      calibration.lastEstimatedTokens = 11 ∧ calibration.lastActualTokens = 12 ∧
      s'.Holds ((queueOf (Library.ascii id).release exampleArena .empty {} ops).remove
        "notes:1") := by
  intro ops
  have hget : ((queueOf (Library.ascii id).release exampleArena .empty {} ops).get
      "notes:1").map RecentUsage.estimatedTokens = some 11 := by decide +kernel
  obtain ⟨usage, husage, hestimate⟩ := Option.map_eq_some_iff.1 hget
  have hmatched := ((usage_matched_once (Library.ascii id).release exampleArena
    ops).2.2.2.2.2.2 default ⟨"notes:1", 12⟩ (by decide)).1 usage husage
  rwa [hestimate] at hmatched

/-- A report on a blank name fails with the error of a malformed report, and not with that of an
unknown request. -/
theorem blank_report :
    ¬ ∀ observation : UsageObservation, 0 ≤ observation.actualInputTokens →
      observation.requestId ∉ (BoundedQueue.empty : UsageQueue).keys →
        recordUsage exampleArena default observation {} =
          (fail "usage_observation_unknown" ("unknown request_id " ++ observation.requestId),
            {}) := by
  intro h
  have hunknown := congrArg Prod.fst (h ⟨"", 0⟩ (le_refl 0) (List.not_mem_nil))
  have hanswer : (recordUsage exampleArena default ⟨"", 0⟩ {}).1 = fail "configuration_error"
      "usage observation requires request_id and non-negative actual_input_tokens" := rfl
  rw [hanswer] at hunknown
  have hcode := congrArg ContextLeaseError.code (Except.error.inj hunknown)
  exact absurd hcode (by decide)

end Steps

end ContextLease
