/-
Failed operations leave no trace.

The model of the operations as writes agrees with the model of the arena: an operation that is run
write by write returns the same result and leaves the same state.  So an operation that fails, or
that asks for semantic results, has left every field of the state as it was; and a call that
succeeds has left what its writes would have left on the state itself, but for the drop count in the
health of the snapshot.

Main results:

* `Work.implements_transact` — the transaction, write by write;
* `Work.run_prepareWithResults`, `Work.run_prepareBegin`, `Work.run_prepareCommit`,
  `Work.run_recordUsage` — the operations, write by write;
* `failed_operations_leave_no_trace` — what they leave.
-/

import ContextLease.LockedWrites
import ContextLease.EventInvariant

set_option relaxedAutoImplicit false
set_option autoImplicit false

namespace ContextLease

open MachineNumbers RustText

variable {F : Type} [FloatOps F]

namespace Work

open Writing

section Programs

variable (P : Platform) (arena : ContextLeaseArena F) (env : Env)

/-! ### Events -/

theorem exec_pushEvent (requestId : Option String) (eventType : String)
    (payload : List (String × Value)) (priority : String) (s : ArenaState F) (failed : Bool) :
    (pushEvent arena env requestId eventType payload priority).exec s failed =
      (.ok (ContextLease.pushEvent arena env s requestId eventType (BTreeMap.ofList payload)
          priority).1,
        (ContextLease.pushEvent arena env s requestId eventType (BTreeMap.ofList payload)
          priority).2, failed) := by
  simp only [pushEvent, ContextLease.pushEvent, ArenaState.appendEvent, exec_bind, exec_write,
    exec_state]
  split <;> simp [exec_bind]

/-- One event is one draft. -/
theorem exec_pushEvent_draft (requestId : Option String) (eventType : String)
    (payload : List (String × Value)) (priority : String) (s : ArenaState F) (failed : Bool) :
    (pushEvent arena env requestId eventType payload priority).exec s failed =
      (.ok ((⟨eventType, BTreeMap.ofList payload, priority⟩ : EventDraft).stamp arena env requestId
          (s.eventSeq + 1)),
        s.emit arena env requestId [⟨eventType, BTreeMap.ofList payload, priority⟩], failed) := by
  rw [exec_pushEvent, pushEvent_eq]

theorem exec_reclaimLeases (requestId : String) (next : BTreeMap Lease) (l : List Lease)
    (trace : List TraceEvent) (s : ArenaState F) (failed : Bool) :
    (reclaimLeases P arena env requestId next l trace).exec s failed =
      (.ok (trace ++ eventsFrom arena env (some requestId) s.eventSeq
          (l.flatMap (reclaimDrafts P next))),
        s.emit arena env (some requestId) (l.flatMap (reclaimDrafts P next)), failed) := by
  induction l generalizing trace s with
  | nil => simp [reclaimLeases, eventsFrom]
  | cons previous l ih =>
      rw [reclaimLeases, List.flatMap_cons, ← ArenaState.emit_emit, eventsFrom_append,
        reclaimDrafts]
      split
      · rw [exec_bind_ok (exec_pushEvent_draft arena env ..), ih, List.append_assoc]
        rfl
      · exact ih trace s

theorem exec_grantLeases (requestId : String) (l : List Lease) (trace : List TraceEvent)
    (s : ArenaState F) (failed : Bool) :
    (grantLeases P arena env requestId l trace).exec s failed =
      (.ok (trace ++ eventsFrom arena env (some requestId) s.eventSeq
          (l.flatMap (grantDrafts P s.activeLeases))),
        s.emit arena env (some requestId) (l.flatMap (grantDrafts P s.activeLeases)), failed) := by
  induction l generalizing trace s with
  | nil => simp [grantLeases, eventsFrom]
  | cons lease l ih =>
      rw [grantLeases, List.flatMap_cons, ← ArenaState.emit_emit, eventsFrom_append,
        grantDrafts, exec_bind_ok (exec_state s failed)]
      by_cases h : P.arith.sub lease.grantedTokens
          (((s.activeLeases.get lease.leaseId).map Lease.grantedTokens).getD 0) > 0
      · simp only [if_pos h]
        rw [exec_bind_ok (exec_pushEvent_draft arena env ..), ih, List.append_assoc]
        rfl
      · simp only [if_neg h]
        exact ih trace s

/-! ### The module loop -/

section Loop

variable (requestId : String) (counts : CountContext F)
  (contributions : HashMap (ModuleContribution F)) (allocations : List ModuleAllocation)
  (semanticResults : HashMap String)

theorem exec_pushCompressed (m : ModuleDefinition F) (r : Reclaimed F) (fixed pinned : ℤ)
    (trace : List TraceEvent) (s : ArenaState F) (failed : Bool) :
    (pushCompressed arena env requestId m r trace).exec s failed =
      (.ok (trace ++ eventsFrom arena env (some requestId) s.eventSeq
          (compressedDrafts ⟨m, r.chunks, ⟨r.before, r.after, fixed, pinned⟩⟩)),
        s.emit arena env (some requestId)
          (compressedDrafts ⟨m, r.chunks, ⟨r.before, r.after, fixed, pinned⟩⟩), failed) := by
  rw [pushCompressed, compressedDrafts]
  split
  · rw [exec_bind_ok (exec_pushEvent_draft arena env ..)]
    rfl
  · simp [eventsFrom]

/-- The module loop, write by write. -/
theorem implements_moduleLoop (ms : List (ModuleDefinition F)) (vars : Locals F)
    (s : ArenaState F) :
    Implements (moduleLoop P arena env requestId counts contributions allocations
        semanticResults ms vars) s (do
      let tx ← ContextLease.moduleLoop P arena env requestId counts contributions allocations
        semanticResults ms (vars.transaction s)
      pure (tx.locals, tx.state)) := by
  induction ms generalizing vars s with
  | nil => exact .of_exec fun failed => rfl
  | cons m ms ih =>
      simp only [moduleLoop, ContextLease.moduleLoop, recordModule_eq, Checked.liftFlagged_bind,
        Checked.liftFlagged_pure, bind_assoc, pure_bind]
      refine .bind_checked ?_
      intro r _
      refine .bind_exec (exec_pushCompressed arena env requestId m r 0 0 vars.traceEvents s) ?_
      refine .bind_flagged (.bind_flagged ?_)
      refine .bind_exec (exec_state _) (.bind_exec (exec_write _ _) ?_)
      exact ih _ _

end Loop

/-! ### The bookkeeping -/

omit [FloatOps F] in
/-- The `while` loop drops what is longest ago. -/
theorem exec_expireUsage (fuel : ℕ) (s : ArenaState F) (failed : Bool)
    (hfuel : s.recentUsageOrder.length - 2048 ≤ fuel) :
    (expireUsage fuel : Work F Unit).exec s failed =
      (.ok (), { s with
        recentUsage := (s.recentUsageOrder.take (s.recentUsageOrder.length - 2048)).foldl
          HashMap.remove s.recentUsage
        recentUsageOrder :=
          s.recentUsageOrder.drop (s.recentUsageOrder.length - 2048) }, failed) := by
  induction fuel generalizing s with
  | zero =>
      rw [Nat.le_zero.1 hfuel]
      rfl
  | succ fuel ih =>
      rw [expireUsage, exec_bind_ok (exec_state s failed)]
      split
      · rename_i hlong
        cases horder : s.recentUsageOrder with
        | nil => rw [horder] at hlong; simp at hlong
        | cons expired order =>
            rw [horder] at hlong hfuel
            rw [List.length_cons] at hlong hfuel
            have hround : (order.length + 1) - 2048 = (order.length - 2048) + 1 := by omega
            have hdrop : s.recentUsageOrder.drop 1 = order := by rw [horder]; rfl
            rw [hround] at hfuel
            have hlength : order.length - 2048 ≤ fuel := Nat.add_le_add_iff_right.1 hfuel
            rw [exec_bind_ok (exec_write _ _ _), exec_bind_ok (exec_write _ _ _), ih]
            · simp only [hdrop, List.length_cons, hround, List.take_succ_cons,
                List.drop_succ_cons, List.foldl_cons]
            · simpa only [hdrop] using hlength
      · rename_i hshort
        have hnone : s.recentUsageOrder.length - 2048 = 0 := by omega
        rw [hnone]
        rfl

omit [FloatOps F] in
theorem exec_rememberUsage (requestId : String) (usage : RecentUsage) (s : ArenaState F)
    (failed : Bool) :
    (rememberUsage requestId usage : Work F Unit).exec s failed =
      (.ok (), s.rememberUsage requestId usage, failed) := by
  rw [rememberUsage, exec_bind_ok (exec_write _ _ _), exec_bind_ok (exec_write _ _ _),
    exec_bind_ok (exec_write _ _ _), exec_bind_ok (exec_state _ _),
    exec_expireUsage _ _ _ (Nat.sub_le ..)]
  rfl

/-! ### The transaction -/

theorem exec_leaseEvents (requestId : String) (request : PrepareRequest F) (leases : List Lease)
    (s : ArenaState F) (failed : Bool) :
    (leaseEvents P arena env requestId request leases).exec s failed =
      (.ok (ContextLease.leaseEvents P arena env requestId request leases
          { state := s }).traceEvents,
        (ContextLease.leaseEvents P arena env requestId request leases { state := s }).state,
        failed) := by
  rw [leaseEvents_eq, leaseEvents, exec_bind_ok (exec_pushEvent_draft arena env ..),
    exec_bind_ok (exec_state _ _), exec_bind_ok (exec_reclaimLeases P arena env ..),
    exec_grantLeases]
  simp only [Transaction.report, List.nil_append]
  refine Prod.ext (congrArg Except.ok ?_) (Prod.ext ?_ rfl)
  · rw [eventsFrom, leaseDrafts, eventsFrom_append, List.append_assoc]
    rfl
  · rw [ArenaState.emit_emit, ArenaState.emit_emit, List.append_assoc]
    rfl

theorem exec_publish (request : PrepareRequest F) (requestId : String)
    (admission : Admission F) (rendered : String) (promptTokens usable : ℤ)
    (modulePlans : List (PreparedModulePlan F)) (vars : Locals F) (s : ArenaState F)
    (failed : Bool) :
    (publish P arena env request requestId admission rendered promptTokens usable modulePlans
        vars).exec s failed =
      (.ok (ContextLease.publish P arena env request requestId admission rendered promptTokens
          usable modulePlans (vars.transaction s)).1,
        (ContextLease.publish P arena env request requestId admission rendered promptTokens
          usable modulePlans (vars.transaction s)).2, failed) := by
  rw [publish, exec_bind_ok (exec_pushEvent_draft arena env ..), exec_bind_ok (exec_write _ _ _),
    exec_bind_ok (exec_state _ _), exec_bind_ok (exec_write _ _ _),
    exec_bind_ok (exec_pushEvent_draft arena env ..), exec_bind_ok (exec_rememberUsage ..)]
  simp only [ContextLease.publish, Transaction.push_eq_report, preparedPlan]
  rfl

/-- The transaction, write by write. -/
theorem implements_transact (request : PrepareRequest F) (results : List SemanticResult)
    (admission : Admission F) (s : ArenaState F) :
    Implements (transact P arena env request results admission) s
      (ContextLease.transact P arena env request results admission s) := by
  simp only [transact, ContextLease.transact]
  refine .bind_exec (exec_write _ _) (.bind_exec (exec_state _) ?_)
  refine .bind_exec (exec_leaseEvents P arena env _ _ _ _) ?_
  -- the lease events leave no usages and no chunks
  have hstart : ∀ (requestId : String) (s' : ArenaState F),
      ContextLease.leaseEvents P arena env requestId request admission.leases { state := s' } =
        Locals.transaction
          { traceEvents := (ContextLease.leaseEvents P arena env requestId request
              admission.leases { state := s' }).traceEvents }
          (ContextLease.leaseEvents P arena env requestId request admission.leases
            { state := s' }).state := by
    intro requestId s'
    rw [leaseEvents_eq]
    rfl
  rw [hstart]
  refine .bind (implements_moduleLoop P arena env _ _ _ _ _ _ _ _) ?_
  intro tx _
  refine .bind_exec (exec_write _ _) (.bind_flagged (.ite (fun _ => .throw _ _) fun _ => ?_))
  exact .bind_flagged (.of_exec fun failed => exec_publish P arena env ..)

/-! ### The operations -/

/-- A call, write by write. -/
theorem run_prepareWithResults (request : PrepareRequest F) (results : List SemanticResult)
    (counter : Option TokenCounter) (s : ArenaState F) :
    (prepareWithResults P arena env request results counter).run s =
      ContextLease.prepareWithResults P arena env request results counter s := by
  simp only [run, prepareWithResults, ContextLease.prepareWithResults, prepareLocked,
    exec_bind_ok (exec_state s false)]
  generalize safetyMultiplier s request.model = multiplier
  cases hadmitted : (admitRequest P arena request counter multiplier).outcome with
  | error e =>
      rw [exec_bind_error ((exec_checked _ s _).trans (by rw [hadmitted]))]
      simp only [ensureValid, bind, hadmitted]
  | ok admission =>
      rw [exec_bind_ok ((exec_checked _ s _).trans (by rw [hadmitted]))]
      obtain ⟨s', hexec, hs'⟩ := (implements_transact P arena env request results admission
        s.beginTransaction).ensuring callbackFailed
          (false || (admitRequest P arena request counter multiplier).failed)
      rw [exec_onCopy hexec]
      simp only [ensureValid, bind, hadmitted, Bool.false_or]
      cases htransact : (ContextLease.transact P arena env request results admission
          s.beginTransaction).outcome with
      | error e => rfl
      | ok r =>
          rw [hs' r htransact]
          simp only [Except.bind]
          split <;> rfl

theorem run_prepareBegin (request : PrepareRequest F) (counter : Option TokenCounter)
    (s : ArenaState F) :
    (prepareBegin P arena env request counter).run s =
      ContextLease.prepareBegin P arena env request counter s := by
  have hprepare := run_prepareWithResults P arena env request [] counter s
  simp only [run, prepareBegin, ContextLease.prepareBegin,
    exec_bind_ok (exec_state s false)] at hprepare ⊢
  cases planSemanticRequests P arena request counter (safetyMultiplier s request.model) with
  | error e => rfl
  | ok requests =>
      cases requests with
      | cons q qs => rfl
      | nil =>
          simp only [← hprepare]
          cases hexec : (prepareWithResults P arena env request [] counter).exec s false with
          | mk result rest =>
              obtain ⟨s', failed⟩ := rest
              cases result with
              | error e => rw [exec_bind_error hexec]
              | ok plan => rw [exec_bind_ok hexec]; rfl

theorem run_prepareCommit (request : PrepareRequest F) (results : List SemanticResult)
    (counter : Option TokenCounter) (s : ArenaState F) :
    (prepareCommit P arena env request results counter).run s =
      ContextLease.prepareCommit P arena env request results counter s := by
  have hprepare := run_prepareWithResults P arena env request results counter s
  simp only [run, prepareCommit, ContextLease.prepareCommit,
    exec_bind_ok (exec_state s false)] at hprepare ⊢
  cases planSemanticRequests P arena request counter (safetyMultiplier s request.model) with
  | error e => rfl
  | ok expected =>
      simp only
      cases checkResults (expected.map SemanticRequest.semanticRequestId) [] results with
      | error e => rfl
      | ok => exact hprepare

theorem run_recordUsage (observation : UsageObservation) (s : ArenaState F) :
    (recordUsage arena env observation).run s =
      ContextLease.recordUsage arena env observation s := by
  simp only [run, recordUsage, ContextLease.recordUsage]
  split
  · rfl
  · rw [exec_bind_ok (exec_state s false), exec_bind_ok (exec_write _ _ _)]
    cases hrecent : s.recentUsage observation.requestId with
    | none =>
        -- the removal was a write, but of nothing
        simp only [exec_throw, HashMap.remove_of_none hrecent]
        rfl
    | some recent =>
        simp only [exec_bind_ok (exec_write _ _ _), exec_bind_ok (exec_state _ _),
          exec_bind_ok (exec_pushEvent arena env ..), exec_pure]

/-- A decided call, in place. -/
theorem run_prepareInPlace {call : Call F} {s : ArenaState F} {admission : Admission F}
    {settled : Settled F} (hdecided : call.decision P arena s = .ok (admission, settled)) :
    (prepareInPlace P arena call.env call.request call.results call.counter).run s =
      (.ok (callPlan P arena call.env call.request admission settled s),
        call.direct P arena admission settled s) := by
  obtain ⟨hok, hflag⟩ := ensureValid_eq_ok.1 hdecided
  simp only [Checked.outcome_bind, Checked.outcome_pure, Except.bind_eq_ok, Except.ok.injEq,
    Prod.mk.injEq] at hok
  obtain ⟨admission, hadmitted, settled, hsettle, rfl, rfl⟩ := hok
  simp only [bind, hadmitted, hsettle, Checked.failed_pure, Bool.or_false] at hflag
  simp only [run, prepareInPlace, exec_bind_ok (exec_state s false)]
  rw [exec_bind_ok ((exec_checked _ s _).trans (by rw [hadmitted]))]
  obtain ⟨s', hexec, hs'⟩ := (implements_transact P arena call.env call.request call.results
    admission s).ensuring callbackFailed (false || (admitRequest P arena call.request call.counter
      (safetyMultiplier s call.request.model)).failed)
  have htransact : (ContextLease.transact P arena call.env call.request call.results admission
      s).outcome = .ok (finish P arena call.env call.request admission settled s) := by
    rw [transact_eq, Checked.outcome_bind, hsettle]
    rfl
  have hfailed : (ContextLease.transact P arena call.env call.request call.results admission
      s).failed = (settle P arena call.results admission).failed := by
    rw [transact_eq]
    simp only [bind, hsettle, Checked.failed_pure, Bool.or_false]
  rw [hexec, htransact, hs' _ htransact, hfailed]
  simp only [Bool.false_or, hflag]
  rfl

end Programs

end Work

/-! ### No trace -/

theorem Reachable.eventInvariant {P : Platform} {arena : ContextLeaseArena F} {s : ArenaState F}
    (h : Reachable P arena s) : ∃ ps, EventInvariant s ps := by
  obtain ⟨ops, rfl⟩ := h
  exact ⟨_, EventInvariant.of_run P arena ops⟩

/-- Where every write to the locked state stays, even if the call fails later: in every reachable
state, with every request, every results and every counter, also one that fails, an operation that
returns an error has left the state as it was, and so has a begin that asks for semantic results.
What a call that succeeds has left is what its event pushes and its updates leave on the state
itself, but for the drop count in the health of the snapshot. -/
theorem failed_operations_leave_no_trace {P : Platform} {arena : ContextLeaseArena F}
    {s : ArenaState F} (h : Reachable P arena s) :
    (∀ env request counter e s',
      (Work.prepare P arena env request counter).run s = (.error e, s') → s' = s) ∧
    (∀ env request counter e s',
      (Work.prepareBegin P arena env request counter).run s = (.error e, s') → s' = s) ∧
    (∀ env request counter outcome s',
      (Work.prepareBegin P arena env request counter).run s = (.ok outcome, s') →
        outcome.status = "needs_semantic" → s' = s) ∧
    (∀ env request results counter e s',
      (Work.prepareCommit P arena env request results counter).run s = (.error e, s') → s' = s) ∧
    (∀ env observation e s',
      (Work.recordUsage arena env observation).run s = (.error e, s') → s' = s) ∧
    ∀ env request results counter plan s',
      (Work.prepareWithResults P arena env request results counter).run s = (.ok plan, s') →
        ∃ plan' inPlace,
          (Work.prepareInPlace P arena env request results counter).run s = (.ok plan', inPlace) ∧
            s' = inPlace.refreshed := by
  refine ⟨?_, ?_, ?_, ?_, ?_, ?_⟩
  · intro env request counter e s' hrun
    rw [Work.prepare, Work.run_prepareWithResults] at hrun
    rcases prepare_cases P arena env request counter s with ⟨e', heq⟩ | ⟨plan, s'', heq, -⟩
    · rw [prepare, hrun, Prod.mk.injEq] at heq
      exact heq.2
    · rw [prepare, hrun, Prod.mk.injEq] at heq
      cases heq.1
  · intro env request counter e s' hrun
    rw [Work.run_prepareBegin] at hrun
    rcases prepareBegin_cases P arena env request counter s with
      ⟨e', heq⟩ | ⟨plan, s'', heq, -⟩ | ⟨requests, -, -, heq⟩
    all_goals rw [hrun, Prod.mk.injEq] at heq
    · exact heq.2
    · cases heq.1
    · cases heq.1
  · intro env request counter outcome s' hrun hstatus
    rw [Work.run_prepareBegin] at hrun
    rcases prepareBegin_cases P arena env request counter s with
      ⟨e', heq⟩ | ⟨plan, s'', heq, -⟩ | ⟨requests, -, -, heq⟩
    all_goals rw [hrun, Prod.mk.injEq] at heq
    · cases heq.1
    · rw [Except.ok.inj heq.1] at hstatus
      simp at hstatus
    · exact heq.2
  · intro env request results counter e s' hrun
    rw [Work.run_prepareCommit] at hrun
    rcases prepareCommit_cases P arena env request results counter s with
      ⟨e', heq⟩ | ⟨plan, s'', heq, -⟩
    all_goals rw [hrun, Prod.mk.injEq] at heq
    · exact heq.2
    · cases heq.1
  · intro env observation e s' hrun
    rw [Work.run_recordUsage] at hrun
    rcases recordUsage_cases arena env observation s with ⟨e', heq⟩ | ⟨recent, s'', -, -, heq, -⟩
    all_goals rw [hrun, Prod.mk.injEq] at heq
    · exact heq.2
    · cases heq.1
  · intro env request results counter plan s' hrun
    rw [Work.run_prepareWithResults, prepareWithResults_eq ⟨env, request, results, counter⟩] at hrun
    cases hdecided : Call.decision P arena ⟨env, request, results, counter⟩ s with
    | error e =>
        rw [hdecided] at hrun
        cases hrun
    | ok decided =>
        obtain ⟨admission, settled⟩ := decided
        rw [hdecided] at hrun
        simp only [Prod.mk.injEq] at hrun
        obtain ⟨ps, hinvariant⟩ := h.eventInvariant
        have hinPlace := Work.run_prepareInPlace P arena hdecided
        simp only at hinPlace
        rw [← hrun.2, committed_eq P arena _ admission settled s hinvariant.ring]
        exact ⟨_, _, hinPlace, rfl⟩

/-- A callback that fails at every text makes the call fail and leaves a new arena as it was; a call
without one leaves what its writes leave. -/
theorem failed_operations_leave_no_trace_example :
    ((Work.prepare (Library.ascii id).release exampleArena default exampleRequest
      (some fun _ => -1)).run {}).1 = .error Work.callbackFailed ∧
    ((Work.prepare (Library.ascii id).release exampleArena default exampleRequest
      (some fun _ => -1)).run {}).2 = {} ∧
    ∃ plan s' plan' inPlace,
      (Work.prepareWithResults (Library.ascii id).release exampleArena default exampleRequest []
        none).run {} = (.ok plan, s') ∧
      (Work.prepareInPlace (Library.ascii id).release exampleArena default exampleRequest []
        none).run {} = (.ok plan', inPlace) ∧ s' = inPlace.refreshed := by
  have h := @failed_operations_leave_no_trace ℚ _ (Library.ascii id).release exampleArena {}
    ⟨[], rfl⟩
  have hfails : (match ((Work.prepare (Library.ascii id).release exampleArena default
      exampleRequest (some fun _ => -1)).run {}).1 with
    | .error e => decide (e = Work.callbackFailed)
    | .ok _ => false) = true := by decide +kernel
  have hleft := h.1 default exampleRequest (some fun _ => -1)
  obtain ⟨plan, hplan⟩ := exampleRequest_prepared
  rw [prepare, ← Work.run_prepareWithResults] at hplan
  have hdone := h.2.2.2.2.2 default exampleRequest [] none plan
  generalize (Work.prepare (Library.ascii id).release exampleArena default exampleRequest
    (some fun _ => -1)).run {} = failing at hfails hleft ⊢
  generalize (Work.prepareWithResults (Library.ascii id).release exampleArena default
    exampleRequest [] none).run {} = succeeding at hplan hdone ⊢
  obtain ⟨result, left⟩ := failing
  obtain ⟨result', left'⟩ := succeeding
  cases result with
  | ok _ => cases hfails
  | error e =>
      obtain rfl := of_decide_eq_true hfails
      obtain rfl : result' = .ok plan := hplan
      obtain ⟨plan', inPlace, hinPlace, hrefreshed⟩ := hdone left' rfl
      exact ⟨rfl, hleft _ _ rfl, plan, left', plan', inPlace, rfl, hinPlace, hrefreshed⟩

end ContextLease
