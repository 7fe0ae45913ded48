/-
The arena of the package does what its facade does.

Between the methods that a call of the package's arena makes the methods of other objects run, and
what is sent and returned passes the binding and the library as JSON.  What a call returns, what it
publishes and the state it leaves are nevertheless those of the facade over the kernel, as long as
the clock of the kernel shows years of four digits.  The leases of a plan bear the times at which
the package has read them, and where the counter of the host raises an exception the text of the
error is another one.

Main definitions:

* `Package.respond` — the answer of a provider to a request of the kernel;
* `Package.Agrees` — what a call returns, up to the text of an exception of the counter;
* `Package.readAt` — a plan of the facade, with the times at which its leases are read;
* `Package.facadeCall` — the call of the facade that a call of the package stands for.

Main results:

* `Package.onSession_prepare`, `Package.onSession_recordUsage` — one call in a session;
* `Sessions.AllLegible.run` — the package reads what the arenas of the sessions hold;
* `package_run` — a sequence of calls among the methods of other objects.
-/

import ContextLease.ReplyTexts

set_option relaxedAutoImplicit false
set_option autoImplicit false

namespace ContextLease

open MachineNumbers RustText

variable {F : Type} [FloatOps F]

namespace Foreign

/-! ### Calls of the kernel -/

/-- The counter that the kernel is given. -/
def Session.kernelCounter (s : Session F) : Option TokenCounter :=
  s.counter.map fun count => hostCount count.answer

/-- A call of the kernel returns what the kernel returns, or an exception of the counter in the
place of another error. -/
theorem Session.call_cases (s : Session F) {call : KernelCall F} (hcall : call.FailsOnRaise) :
    (s.call call).2 = { s with state := (call.run s.kernelCounter s.state).2 } ∧
      ((s.call call).1 = reply ((call.run s.kernelCounter s.state).1.mapError prepareFailure) ∨
        (s.call call).1 = .error .callback ∧
          ∃ e, call.run s.kernelCounter s.state = (.error e, s.state)) := by
  obtain hcount | ⟨count, hcount⟩ := Option.eq_none_or_eq_some s.counter
  · have hkernel : s.kernelCounter = none := by rw [Session.kernelCounter, hcount]; rfl
    rw [hkernel, Session.call_of_none hcount]
    exact ⟨rfl, Or.inl rfl⟩
  · have hkernel : s.kernelCounter = some (hostCount count.answer) := by
      rw [Session.kernelCounter, hcount]
      rfl
    rw [hkernel]
    cases hraises : call.raises (hostCount count.answer) s.state with
    | true =>
        rw [Session.call_of_raises hcount hraises]
        exact ⟨rfl, Or.inr ⟨rfl, hcall _ _ hraises⟩⟩
    | false =>
        rw [Session.call_of_counts hcount hraises]
        exact ⟨rfl, Or.inl rfl⟩

/-- A plan that is prepared in a legible state is readable. -/
theorem readable_of_planOf (P : Platform) (core : ContextLeaseArena F) {s : ArenaState F}
    (hlegible : Legible s) (op : Op F) (hop : op.env.Stamped) {plan : PreparedContextPlan F}
    (h : planOf P core s op = some plan) : plan.Readable :=
  ((step_outcome s op).legible hlegible hop).2 plan h

namespace Package

variable {serde : Serde F} (pkg : Package serde)

/-! ### What the package is told -/

@[simp] theorem answer_ok (text : String) :
    pkg.answer (reply (.ok text)) = (pkg.json.loads text).mapError .ofRaised := rfl

/-- An error of the library is raised as the exception of its code. -/
theorem raiseError_envelope (error : ContextLeaseError) :
    pkg.raiseError (.detail (errorEnvelope error)) = raiseNative error := by
  have hne : "message" ≠ "code" := by simp
  have hmessage : NativeError.message pkg.callbackError (.detail (errorEnvelope error)) =
      errorEnvelope error := rfl
  simp only [raiseError, hmessage, pkg.json.loads_envelope, Reply.getOr_cons_self,
    Reply.getOr_cons_of_ne hne, pkg.py.str_string]

@[simp] theorem answer_error (failure : Failure) :
    pkg.answer (reply (.error failure)) = .error (raiseNative failure.error) :=
  congrArg Except.error (pkg.raiseError_envelope failure.error)

/-- An error of the kernel is raised as the facade raises it. -/
theorem answer_kernelError (error : ContextLeaseError) :
    pkg.answer (reply (Except.mapError prepareFailure (.error error))) =
      .error (raiseNative error) :=
  pkg.answer_error (prepareFailure error)

/-- What `prepare_begin` returns is told apart. -/
theorem begun_ready (plan : PreparedContextPlan F) :
    pkg.begun (PrepareBeginOutcome.toValue ⟨"ready", some plan, []⟩) = .ok (.inl plan.toValue) :=
  rfl

theorem begun_needs {requests : List SemanticRequest} (h : requests ≠ []) :
    pkg.begun (PrepareBeginOutcome.toValue
      (⟨"needs_semantic", none, requests⟩ : PrepareBeginOutcome F)) =
        .ok (.inr (requests.map SemanticRequest.toValue)) := by
  have hempty : requests.isEmpty = false := by
    cases requests with
    | nil => exact absurd rfl h
    | cons r rs => rfl
  have hvalue : PrepareBeginOutcome.toValue
      (⟨"needs_semantic", none, requests⟩ : PrepareBeginOutcome F) =
        .object [("status", .string "needs_semantic"),
          ("semantic_requests", .array (requests.map SemanticRequest.toValue))] := by
    simp only [PrepareBeginOutcome.toValue, hempty]
    rfl
  rw [hvalue]
  change Except.mapError FacadeError.ofRaised (pkg.py.items (.array _)) >>= _ = _
  rw [pkg.py.items_array]
  rfl

/-- The answer of a provider to a request of the kernel. -/
def respond (providers : SummaryProviders F) (request : SemanticRequest) :
    Except FacadeError String :=
  (pkg.summarize providers request.toValue).map SemanticResult.content

/-- The answer to a request bears the name of the request. -/
theorem summarize_toValue (providers : SummaryProviders F) (request : SemanticRequest) :
    pkg.summarize providers request.toValue =
      (pkg.respond providers request).map fun text =>
        (⟨request.semanticRequestId, text⟩ : SemanticResult) := by
  rw [respond]
  cases hresult : pkg.summarize providers request.toValue with
  | error e => rfl
  | ok result =>
      refine congrArg Except.ok ?_
      simp only [summarize, Except.bind_eq_ok] at hresult
      obtain ⟨_, -, _, -, _, -, _, -, _, -, _, -, _, -, _, -, _, -, text, -, id, hid, hmade⟩ :=
        hresult
      have hname : (Reply.item request.toValue "semantic_request_id").mapError
          FacadeError.ofRaised = .ok (.string request.semanticRequestId) := rfl
      rw [hname, Except.ok.injEq] at hid
      rw [← hid, pkg.py.str_string] at hmade
      cases hmade
      rfl

theorem mapM_summarize (providers : SummaryProviders F) (requests : List SemanticRequest) :
    (requests.map SemanticRequest.toValue).mapM (pkg.summarize providers) =
      requests.mapM fun request => (pkg.respond providers request).map fun text =>
        (⟨request.semanticRequestId, text⟩ : SemanticResult) := by
  rw [List.mapM_map]
  exact congrArg (fun f => requests.mapM f) (funext (pkg.summarize_toValue providers))

/-- A plan of the facade, with the times at which the package has read its leases. -/
def readAt (clock : ℕ → Host.Datetime) (plan : PreparedContextPlan F) : HostContextPlan F where
  plan
  leases := Reply.grantedFrom clock 0 plan.leases
  snapshotLeases := Reply.grantedFrom clock plan.leases.length plan.snapshot.leases

/-- A plan that the kernel has written is published as the facade publishes it. -/
theorem publishPlan_toValue (clock : ℕ → Host.Datetime) {plan : PreparedContextPlan F}
    (h : plan.Readable) (observations : ObservationStore F) :
    pkg.publishPlan clock observations plan.toValue =
      (.ok (.inl (readAt clock (hostPlan pkg.instanceIdOverride plan))),
        (observations.publishMany
          (hostPlan pkg.instanceIdOverride plan).traceEvents).publishSnapshot
            (hostPlan pkg.instanceIdOverride plan).snapshot) := by
  rw [publishPlan, Reply.readPlan_toValue pkg.py clock pkg.instanceIdOverride h 0]
  simp only [readAt, Nat.zero_add]
  rfl

/-- Events that the kernel has written are published as the facade publishes them. -/
theorem publishEvents_toValue (clock : ℕ → Host.Datetime) (instanceId : String)
    {events : List TraceEvent} (h : ∀ event ∈ events, event.Readable) (n : ℕ)
    (observations : ObservationStore F) :
    pkg.publishEvents clock instanceId (events.map TraceEvent.toValue) n observations =
      (.ok n, observations.publishMany (events.map (hostEvent instanceId))) := by
  induction events generalizing observations with
  | nil => rfl
  | cons event events ih =>
      have hread : Reply.readEvent pkg.py clock instanceId event.toValue n =
          .ok (hostEvent instanceId event, n) := by
        rw [Reply.readEvent_toValue pkg.py clock instanceId (h event (List.mem_cons_self ..))]
        rfl
      simp only [List.map_cons, publishEvents, hread]
      exact ih (fun e he => h e (List.mem_cons_of_mem _ he)) _

/-! ### One call -/

/-- What a call returns is what the facade returns, but for the text of an exception of the
counter. -/
def Agrees (result facadeResult : PackageResult F) : Prop :=
  result = facadeResult ∨
    result = .error (pkg.raiseError .callback) ∧ ∃ e, facadeResult = .error e

/-- A call in a session ends as the facade does. -/
structure EndsAs (s : Session F) (done : (PackageResult F × ObservationStore F) × Session F)
    (facadeDone : PackageResult F × Facade F) : Prop where
  result : pkg.Agrees done.1.1 facadeDone.1
  observations : done.1.2 = facadeDone.2.observations
  session : done.2 = { s with state := facadeDone.2.native }

variable {pkg} in
theorem EndsAs.unchanged {s : Session F} {facade : Facade F} (hnative : facade.native = s.state)
    (e : FacadeError) :
    pkg.EndsAs s ((.error e, facade.observations), s) (.error e, facade) :=
  ⟨Or.inl rfl, rfl, by rw [hnative]⟩

/-- What becomes of the facade when the kernel has been called for a plan. -/
def preparedFacade (clock : ℕ → Host.Datetime) (observations : ObservationStore F) :
    Except FacadeError (PreparedContextPlan F) × ArenaState F → PackageResult F × Facade F
  | (.error error, native) => (.error error, { native, observations })
  | (.ok raw, native) =>
      let prepared := hostPlan pkg.instanceIdOverride raw
      (.ok (.inl (readAt clock prepared)),
        { native
          observations := (observations.publishMany prepared.traceEvents).publishSnapshot
            prepared.snapshot })

section Prepare

variable (P : Platform) {s : Session F} {text : String} {request : PrepareRequest F}
  (hrequest : serde.readRequest text = .ok request) (hlegible : Legible s.state)
  {beginEnv commitEnv : Env} (hbeginEnv : beginEnv.Stamped) (hcommitEnv : commitEnv.Stamped)
  (clock : ℕ → Host.Datetime) (providers : SummaryProviders F)
  (observations : ObservationStore F)

theorem prepare_eq (facade : Facade F) :
    ((facade.prepare P s.core pkg.instanceIdOverride beginEnv commitEnv request s.kernelCounter
        (pkg.respond providers)).map (Except.map fun plan => Sum.inl (readAt clock plan)) id :
          PackageResult F × Facade F) =
      pkg.preparedFacade clock facade.observations
        (prepareNative P s.core beginEnv commitEnv request s.kernelCounter
          (pkg.respond providers) facade.native) := by
  rw [Facade.prepare]
  generalize prepareNative P s.core beginEnv commitEnv request s.kernelCounter
    (pkg.respond providers) facade.native = native
  obtain ⟨result, native⟩ := native
  cases result <;> rfl

include hrequest hlegible hcommitEnv in
/-- The second call of the kernel. -/
theorem onSession_commit (results : List SemanticResult) :
    pkg.EndsAs s
      ((Client.call (.prepareCommit commitEnv text (pkg.json.dumpsResults results)) fun reply =>
        match pkg.answer reply with
        | .error e => .done ((.error e, observations) : PackageResult F × ObservationStore F)
        | .ok raw => .done (pkg.publishPlan clock observations raw)).onSession P serde s)
      (pkg.preparedFacade clock observations
        (match prepareCommit P s.core commitEnv request results s.kernelCounter s.state with
        | (.error error, s) => (.error (raiseNative error), s)
        | (.ok plan, s) => (.ok plan, s))) := by
  have hmethod :
      (NativeMethod.prepareCommit commitEnv text (pkg.json.dumpsResults results)).inSession P serde
          s = s.call (prepareCommitCall P serde s.core commitEnv request results) := by
    simp only [NativeMethod.inSession, hrequest, pkg.json.read_results]
    rfl
  obtain ⟨hstate, hreply⟩ :=
    s.call_cases (failsOnRaise_prepareCommit P serde s.core commitEnv request results)
  simp only [Client.onSession, hmethod]
  generalize s.call (prepareCommitCall P serde s.core commitEnv request results) = done
    at hstate hreply ⊢
  obtain ⟨reply, s'⟩ := done
  simp only [prepareCommitCall] at hstate hreply
  subst hstate
  rcases prepareCommit_cases P s.core commitEnv request results s.kernelCounter s.state with
    ⟨error, hcommit⟩ | ⟨plan, native, hcommit, -⟩
  · simp only [hcommit, Prod.map_apply, Except.map, id] at hreply ⊢
    rcases hreply with rfl | ⟨rfl, -⟩
    · simp only [pkg.answer_kernelError error]
      exact ⟨Or.inl rfl, rfl, rfl⟩
    · exact ⟨Or.inr ⟨rfl, _, rfl⟩, rfl, rfl⟩
  · have hreadable : plan.Readable := by
      refine readable_of_planOf P s.core hlegible
        (.prepareCommit commitEnv request results s.kernelCounter) hcommitEnv ?_
      rw [planOf, hcommit]
      rfl
    simp only [hcommit, Prod.map_apply, Except.map, id] at hreply ⊢
    rcases hreply with rfl | ⟨-, e, herror⟩
    · simp only [Except.mapError, answer_ok, pkg.json.loads_plan,
        pkg.publishPlan_toValue clock hreadable]
      exact ⟨Or.inl rfl, rfl, rfl⟩
    · cases herror

/-- What the kernel is asked when it wants summaries. -/
theorem prepareNative_needs (provider : SemanticRequest → Except FacadeError String)
    {requests : List SemanticRequest}
    (hbegin : prepareBegin P s.core beginEnv request s.kernelCounter s.state =
      (.ok ⟨"needs_semantic", none, requests⟩, s.state)) :
    prepareNative P s.core beginEnv commitEnv request s.kernelCounter provider s.state =
      match requests.mapM fun item : SemanticRequest =>
        (provider item).map fun text => (⟨item.semanticRequestId, text⟩ : SemanticResult) with
      | .error error => (.error error, s.state)
      | .ok results =>
          match prepareCommit P s.core commitEnv request results s.kernelCounter s.state with
          | (.error error, s) => (.error (raiseNative error), s)
          | (.ok plan, s) => (.ok plan, s) := by
  rw [prepareNative, hbegin]
  rfl

include hrequest hlegible hbeginEnv hcommitEnv in
/-- A call of `prepare` ends as that of the facade. -/
theorem onSession_prepare {facade : Facade F} (hnative : facade.native = s.state) :
    pkg.EndsAs s
      ((pkg.prepareClient beginEnv commitEnv clock text providers facade.observations).onSession P
        serde s)
      ((facade.prepare P s.core pkg.instanceIdOverride beginEnv commitEnv request s.kernelCounter
        (pkg.respond providers)).map (Except.map fun plan => Sum.inl (readAt clock plan)) id) := by
  have hmethod : (NativeMethod.prepareBegin beginEnv text).inSession P serde s =
      s.call (prepareBeginCall P serde s.core beginEnv request) := by
    simp only [NativeMethod.inSession, hrequest]
    rfl
  obtain ⟨hstate, hreply⟩ :=
    s.call_cases (failsOnRaise_prepareBegin P serde s.core beginEnv request)
  rw [pkg.prepare_eq, hnative, prepareClient]
  simp only [Client.onSession, hmethod]
  generalize s.call (prepareBeginCall P serde s.core beginEnv request) = done at hstate hreply ⊢
  obtain ⟨reply, s'⟩ := done
  simp only [prepareBeginCall] at hstate hreply
  subst hstate
  rcases prepareBegin_cases P s.core beginEnv request s.kernelCounter s.state with
    ⟨error, hbegin⟩ | ⟨plan, native, hbegin, -⟩ | ⟨requests, hsome, -, hbegin⟩
  · rw [prepareNative, hbegin]
    simp only [hbegin, Prod.map_apply, Except.map, id] at hreply ⊢
    rcases hreply with rfl | ⟨rfl, -⟩
    · simp only [pkg.answer_kernelError error]
      exact ⟨Or.inl rfl, rfl, rfl⟩
    · exact ⟨Or.inr ⟨rfl, _, rfl⟩, rfl, rfl⟩
  · have hreadable : plan.Readable := by
      refine readable_of_planOf P s.core hlegible
        (.prepareBegin beginEnv request s.kernelCounter) hbeginEnv ?_
      rw [planOf, hbegin]
      rfl
    rw [prepareNative, hbegin]
    simp only [hbegin, Prod.map_apply, Except.map, id] at hreply ⊢
    rcases hreply with rfl | ⟨-, e, herror⟩
    · simp only [Except.mapError, answer_ok, pkg.json.loads_begun, Except.ok_bind',
        pkg.begun_ready, pkg.publishPlan_toValue clock hreadable]
      exact ⟨Or.inl rfl, rfl, rfl⟩
    · cases herror
  · rw [prepareNative_needs P (pkg.respond providers) hbegin]
    simp only [hbegin, Prod.map_apply, Except.map, id] at hreply
    simp only [hbegin]
    rcases hreply with rfl | ⟨-, e, herror⟩
    · simp only [Except.mapError, answer_ok, pkg.json.loads_begun, Except.ok_bind',
        pkg.begun_needs hsome, pkg.mapM_summarize]
      cases requests.mapM fun request : SemanticRequest =>
          (pkg.respond providers request).map fun text =>
            (⟨request.semanticRequestId, text⟩ : SemanticResult) with
      | error e => exact ⟨Or.inl rfl, rfl, rfl⟩
      | ok results =>
          exact pkg.onSession_commit P hrequest hlegible hcommitEnv clock facade.observations
            results
    · cases herror

end Prepare

/-! ### A usage report -/

/-- The numbers of the events that the store holds for the arena fit the argument in which the
binding sends them. -/
def NumbersFit (observations : ObservationStore F) : Prop :=
  ∀ event ∈ observations.queue pkg.arenaId, event.seq < 18446744073709551616

variable {pkg} in
theorem NumbersFit.unsigned_lastSeq {observations : ObservationStore F}
    (h : pkg.NumbersFit observations) :
    unsigned (max 0 (pkg.lastSeq observations : ℤ)) = pkg.lastSeq observations := by
  have hlast : pkg.lastSeq observations < 18446744073709551616 := by
    rw [lastSeq]
    cases hevent : (observations.eventsAfter pkg.arenaId 0 10000).getLast? with
    | none => exact Nat.succ_pos _
    | some event =>
        have hmem := List.mem_of_mem_take (List.mem_of_getLast? hevent)
        exact h event (List.mem_filter.1 hmem).1
  rw [unsigned, max_eq_right (Int.natCast_nonneg _), Int.toNat_natCast, Nat.mod_eq_of_lt hlast]

/-- The name under which the package publishes after a usage report. -/
theorem rawInstance_toValue (snapshot : Option (ArenaSnapshot F)) :
    pkg.rawInstance (ofOption ArenaSnapshot.toValue snapshot) =
      .ok (publishedInstance pkg.instanceIdOverride
        ((snapshot.map ArenaSnapshot.instanceId).getD "")) := by
  cases snapshot with
  | none => simp [rawInstance, ofOption]
  | some snapshot => simp [rawInstance, ofOption, ArenaSnapshot.toValue, Except.mapError]

theorem publishRaw_toValue (clock : ℕ → Host.Datetime) (instanceId : String)
    {snapshot : Option (ArenaSnapshot F)} (h : ∀ raw ∈ snapshot, raw.Readable) (n : ℕ)
    (observations : ObservationStore F) :
    pkg.publishRaw clock instanceId (ofOption ArenaSnapshot.toValue snapshot) n observations =
      (.ok (), snapshot.elim observations fun raw =>
        observations.publishSnapshot (hostSnapshot instanceId raw)) := by
  cases snapshot with
  | none => simp [publishRaw, ofOption]
  | some raw =>
      have hread := Reply.readSnapshot_toValue pkg.py clock instanceId (h raw rfl) n
      have hbool : pkg.py.bool raw.toValue = true := by simp [ArenaSnapshot.toValue]
      simp [publishRaw, ofOption, hread, hbool]

/-- What the kernel has written is published as the facade publishes it. -/
theorem publishUsage_toValue {core : ContextLeaseArena F}
    (hid : core.definition.arenaId = pkg.arenaId) {native : ArenaState F}
    (hlegible : Legible native) (clock : ℕ → Host.Datetime) (value : UsageCalibration F)
    (observations : ObservationStore F) :
    pkg.publishUsage clock value.toValue
      (.array ((eventsAfter native (pkg.lastSeq observations) 1000).map TraceEvent.toValue))
      (ofOption ArenaSnapshot.toValue native.latestSnapshot) observations =
        (.ok (.inr value),
          Facade.synchronize core pkg.instanceIdOverride native observations) := by
  have hevents : ∀ event ∈ eventsAfter native (pkg.lastSeq observations) 1000, event.Readable := by
    intro event hevent
    exact hlegible.events event (List.mem_filter.1 (List.mem_of_mem_take hevent)).1
  have hcalibration := Reply.readCalibration_toValue pkg.py (some value)
  rw [publishUsage, pkg.rawInstance_toValue, pkg.py.items_array]
  simp only [Except.mapError, pkg.publishEvents_toValue clock _ hevents,
    pkg.publishRaw_toValue clock _ hlegible.snapshot]
  rw [calibration, show value.toValue = ofOption UsageCalibration.toValue (some value) from rfl,
    hcalibration, Facade.synchronize, hid]
  cases native.latestSnapshot <;> rfl

section RecordUsage

variable (P : Platform) {s : Session F} {text : String} {observation : UsageObservation}

/-- A call of `record_usage` ends as that of the facade. -/
theorem onSession_recordUsage (hobservation : serde.readObservation text = .ok observation)
    (hlegible : Legible s.state) {env : Env} (henv : env.Stamped) (clock : ℕ → Host.Datetime)
    (hid : s.core.definition.arenaId = pkg.arenaId)
    {facade : Facade F} (hnative : facade.native = s.state)
    (hfits : pkg.NumbersFit facade.observations) :
    pkg.EndsAs s
      ((pkg.recordUsageClient env clock text facade.observations).onSession P serde s)
      ((facade.recordUsage s.core pkg.instanceIdOverride env observation).map
        (Except.map Sum.inr) id) := by
  have hnext : Legible (recordUsage s.core env observation s.state).2 := by
    have hop : (Op.recordUsage env observation : Op F).env.Stamped := henv
    have houtcome : StepOutcome P s.core s.state (.recordUsage env observation) _ _ :=
      step_outcome s.state _
    exact (houtcome.legible hlegible hop).1
  simp only [recordUsageClient, Client.onSession, NativeMethod.inSession, hobservation,
    Except.mapError, Session.reading, Session.plain, Facade.recordUsage, hnative]
  generalize ContextLease.recordUsage s.core env observation s.state = done at hnext ⊢
  obtain ⟨result, native⟩ := done
  cases result with
  | error error =>
      simp only [Prod.map_apply, Except.map, id, pkg.answer_error]
      exact ⟨Or.inl rfl, rfl, rfl⟩
  | ok value =>
      simp only [Prod.map_apply, Except.map, id, Except.mapError, answer_ok,
        pkg.json.loads_calibration, Client.onSession, NativeMethod.inSession, Session.plain,
        pkg.json.loads_events, pkg.json.loads_snapshot, hfits.unsigned_lastSeq]
      rw [show (max 1 (min 1000 10000) : ℤ).toNat = 1000 from rfl, ContextLease.snapshot,
        pkg.publishUsage_toValue hid hnext clock]
      exact ⟨Or.inl rfl, rfl, rfl⟩

end RecordUsage

/-! ### Sequences of calls -/

/-- The call of the facade that a call of the package stands for, if the library reads what it
sends. -/
def facadeCall (counter : Option TokenCounter) : PackageCall F → Except JsonError (FacadeCall F)
  | .prepare beginEnv commitEnv _ text providers =>
      (serde.readRequest text).map fun request =>
        .prepare beginEnv commitEnv request counter (pkg.respond providers)
  | .recordUsage env _ text => (serde.readObservation text).map (.recordUsage env)

/-- The calls of the facade that calls of the package stand for. -/
def facadeCalls (counter : Option TokenCounter) (calls : List (PackageCall F)) :
    List (FacadeCall F) :=
  calls.filterMap fun call => (pkg.facadeCall counter call).toOption

section Specification

variable (P : Platform) (core : ContextLeaseArena F) (counter : Option TokenCounter)

/-- What a call of the facade returns, with the times at which the package reads the leases, and
what it leaves behind. -/
def facadeStep (clock : ℕ → Host.Datetime) (facade : Facade F) :
    FacadeCall F → PackageResult F × Facade F
  | .prepare beginEnv commitEnv request counter provider =>
      (facade.prepare P core pkg.instanceIdOverride beginEnv commitEnv request counter
        provider).map (Except.map fun plan => Sum.inl (readAt clock plan)) id
  | .recordUsage env observation =>
      (facade.recordUsage core pkg.instanceIdOverride env observation).map (Except.map Sum.inr) id

theorem facadeStep_snd (clock : ℕ → Host.Datetime) (facade : Facade F) (call : FacadeCall F) :
    (pkg.facadeStep P core clock facade call).2 =
      Facade.step P core pkg.instanceIdOverride facade call := by
  cases call with
  | prepare beginEnv commitEnv request counter provider =>
      simp only [facadeStep, Facade.step, Prod.map_snd, id]
  | recordUsage env observation => simp only [facadeStep, Facade.step, Prod.map_snd, id]

/-- What a call of the package is to return and to leave behind. -/
def specified (facade : Facade F) (call : PackageCall F) : PackageResult F × Facade F :=
  match pkg.facadeCall counter call with
  | .ok facadeCall => pkg.facadeStep P core call.clock facade facadeCall
  | .error error => (.error (raiseNative (jsonFailure error).error), facade)

/-- What calls of the package are to return. -/
def specifiedResults (facade : Facade F) : List (PackageCall F) → List (PackageResult F)
  | [] => []
  | call :: calls =>
      let (result, facade) := pkg.specified P core counter facade call
      result :: specifiedResults facade calls

/-- What calls of the package are to leave behind. -/
def facadeAfter (facade : Facade F) (calls : List (PackageCall F)) : Facade F :=
  (pkg.facadeCalls counter calls).foldl (Facade.step P core pkg.instanceIdOverride) facade

theorem facadeAfter_cons (facade : Facade F) (call : PackageCall F) (calls : List (PackageCall F)) :
    pkg.facadeAfter P core counter facade (call :: calls) =
      pkg.facadeAfter P core counter (pkg.specified P core counter facade call).2 calls := by
  simp only [facadeAfter, facadeCalls, specified, List.filterMap_cons]
  cases pkg.facadeCall counter call with
  | error error => simp only [Except.toOption]
  | ok call => simp only [Except.toOption, List.foldl_cons, facadeStep_snd]

/-- Along the calls, the numbers of the events fit the argument in which they are sent. -/
def NumbersFitAlong (facade : Facade F) (calls : List (PackageCall F)) : Prop :=
  ∀ before, before <+: calls →
    pkg.NumbersFit (pkg.facadeAfter P core counter facade before).observations

end Specification

/-- A call in a session ends as it is specified. -/
theorem onSession_client (P : Platform) {s : Session F} (hlegible : Legible s.state)
    (hid : s.core.definition.arenaId = pkg.arenaId) {facade : Facade F}
    (hnative : facade.native = s.state) (hfits : pkg.NumbersFit facade.observations)
    {call : PackageCall F} (hcall : call.Stamped) :
    pkg.EndsAs s ((pkg.client call facade.observations).onSession P serde s)
      (pkg.specified P s.core s.kernelCounter facade call) := by
  cases call with
  | prepare beginEnv commitEnv clock text providers =>
      rw [client, specified, facadeCall]
      cases hrequest : serde.readRequest text with
      | ok request =>
          exact pkg.onSession_prepare P hrequest hlegible hcall.1 hcall.2 clock providers hnative
      | error error =>
          have hunread : (NativeMethod.prepareBegin beginEnv text).inSession P serde s =
              (reply (.error (jsonFailure error)), s) := by
            simp only [NativeMethod.inSession, hrequest]
            rfl
          simp only [prepareClient, Client.onSession, hunread, pkg.answer_error]
          exact EndsAs.unchanged hnative _
  | recordUsage env clock text =>
      rw [client, specified, facadeCall]
      cases hobservation : serde.readObservation text with
      | ok observation =>
          exact pkg.onSession_recordUsage P hobservation hlegible hcall clock hid hnative hfits
      | error error =>
          have hunread : (NativeMethod.recordUsage env text).inSession P serde s =
              (reply (.error (jsonFailure error)), s) := by
            simp only [NativeMethod.inSession, hobservation]
            rfl
          simp only [recordUsageClient, Client.onSession, hunread, pkg.answer_error]
          exact EndsAs.unchanged hnative _

section Runs

variable (P : Platform) (core : ContextLeaseArena F) (counter : Option TokenCounter)

/-- The package reads what a call leaves in the kernel. -/
theorem legible_specified {facade : Facade F} (h : Legible facade.native) {call : PackageCall F}
    (hcall : call.Stamped) : Legible (pkg.specified P core counter facade call).2.native := by
  cases call with
  | prepare beginEnv commitEnv clock text providers =>
      rw [specified, facadeCall]
      cases serde.readRequest text with
      | error error => exact h
      | ok request =>
          simp only [Except.map, facadeStep, Prod.map_snd, id]
          rcases facade.prepare_cases P core pkg.instanceIdOverride beginEnv commitEnv request
            counter (pkg.respond providers) with
            ⟨error, heq⟩ | ⟨op, plan, native, henv, houtcome, heq⟩
          · rw [heq]
            exact h
          · have hop : op.env.Stamped := by
              rcases henv with henv | henv <;> rw [henv]
              exacts [hcall.1, hcall.2]
            rw [heq]
            exact (houtcome.legible h hop).1
  | recordUsage env clock text =>
      rw [specified, facadeCall]
      cases serde.readObservation text with
      | error error => exact h
      | ok observation =>
          have hop : (Op.recordUsage env observation : Op F).env.Stamped := hcall
          have houtcome : StepOutcome P core facade.native (.recordUsage env observation) _ _ :=
            step_outcome facade.native _
          have hnext : Legible (ContextLease.recordUsage core env observation facade.native).2 :=
            (houtcome.legible h hop).1
          simp only [Except.map, facadeStep, Prod.map_snd, id, Facade.recordUsage]
          generalize ContextLease.recordUsage core env observation facade.native = done at hnext ⊢
          obtain ⟨result, native⟩ := done
          cases result <;> exact hnext

variable (hexdigest : ByteArray → String)

/-- Calls among the methods of other objects end as they are specified. -/
theorem runCalls_eq {calls : List (PackageCall F)} (hcalls : ∀ call ∈ calls, call.Stamped)
    {p : Process F} {i : ℕ} {s : Session F} (h : Holds p i s) (hlegible : Legible s.state)
    (hid : s.core.definition.arenaId = pkg.arenaId) {facade : Facade F}
    (hnative : facade.native = s.state)
    (hfits : pkg.NumbersFitAlong P s.core s.kernelCounter facade calls)
    (others : List (OtherOps i)) :
    ∃ returned p', pkg.runCalls P hexdigest i calls others facade.observations p =
        some (returned, (pkg.facadeAfter P s.core s.kernelCounter facade calls).observations, p') ∧
      List.Forall₂ pkg.Agrees returned
        (pkg.specifiedResults P s.core s.kernelCounter facade calls) ∧
      Holds p' i
        { s with state := (pkg.facadeAfter P s.core s.kernelCounter facade calls).native } := by
  induction calls generalizing p s facade others with
  | nil => exact ⟨[], p, rfl, .nil, by rw [facadeAfter]; exact hnative ▸ h⟩
  | cons call calls ih =>
      rw [List.forall_mem_cons] at hcalls
      obtain ⟨others', p₁, hcall, hholds⟩ := Client.onProcess_eq P serde hexdigest
        (pkg.client call facade.observations) h others
      have hends := pkg.onSession_client P hlegible hid hnative
        (hfits [] (List.nil_prefix ..)) hcalls.1
      generalize (pkg.client call facade.observations).onSession P serde s = done
        at hcall hholds hends
      obtain ⟨⟨result, observations⟩, s₁⟩ := done
      obtain ⟨hagrees, hobservations, hsession⟩ := hends
      simp only at hagrees hobservations hsession hholds
      subst hobservations hsession
      have hnext : pkg.NumbersFitAlong P s.core s.kernelCounter
          (pkg.specified P s.core s.kernelCounter facade call).2 calls := by
        intro before hbefore
        rw [← pkg.facadeAfter_cons]
        exact hfits (call :: before) (List.cons_prefix_cons.2 ⟨rfl, hbefore⟩)
      have hlegible₁ :=
        pkg.legible_specified P s.core s.kernelCounter (hnative ▸ hlegible) hcalls.1
      obtain ⟨returned, p', hrun, hall, hlast⟩ :=
        ih hcalls.2 hholds hlegible₁ hid rfl hnext others'
      rw [pkg.facadeAfter_cons]
      refine ⟨result :: returned, p', ?_, .cons hagrees hall, hlast⟩
      rw [runCalls]
      simp only [hcall, Option.bind_eq_bind, Option.bind_some]
      rw [hrun]
      rfl

end Runs

end Package

/-! ### Legible sessions -/

section Sessions

variable (P : Platform) (serde : Serde F) (hexdigest : ByteArray → String)

/-- The package reads what the arenas of the sessions hold. -/
def Sessions.AllLegible (S : Sessions F) : Prop := ∀ i s, S.session i = some s → Legible s.state

theorem Sessions.AllLegible.update {S : Sessions F} (hall : S.AllLegible) {i : ℕ}
    {new : Option (Session F)} (hnew : ∀ s, new = some s → Legible s.state) :
    (S.update i new).AllLegible := by
  intro j s hs
  simp only [Sessions.update] at hs
  by_cases hj : j = i
  · subst hj
    rw [Function.update_self] at hs
    exact hnew s hs
  · rw [Function.update_of_ne hj] at hs
    exact hall j s hs

theorem Sessions.AllLegible.step {S : Sessions F} (hall : S.AllLegible) {op : BindingOp}
    (hop : ∀ env ∈ op.env, env.Stamped) : (S.step P serde hexdigest op).2.AllLegible := by
  have heffect := S.step_effect P serde hexdigest op
  generalize (S.step P serde hexdigest op).1 = result at heffect
  generalize (S.step P serde hexdigest op).2 = S' at heffect ⊢
  cases heffect with
  | refused e hnone => exact hall
  | opened core hnone =>
      refine fun j s hs => hall.update (i := S.created) ?_ j s hs
      intro s hs
      rw [Option.some_inj] at hs
      subst hs
      exact Legible.init
  | shut i hobject result hnone => exact hall
  | closed i hobject => exact hall.update fun s hs => by cases hs
  | called i hobject s hs result t hmethod =>
      refine hall.update ?_
      intro t' ht
      rw [Option.some_inj] at ht
      subst ht
      rcases hmethod with ⟨counter, -, rfl⟩ | ⟨⟨ops, henvs, hops⟩, -⟩
      · exact hall i s hs
      · simp only at hops
        rw [hops]
        exact (legible_run P s.core (fun o ho => hop o.env (henvs o ho)) (hall i s hs)).1

theorem Sessions.AllLegible.run {S : Sessions F} (hall : S.AllLegible) {ops : List BindingOp}
    (hops : ∀ op ∈ ops, ∀ env ∈ op.env, env.Stamped) :
    (S.run P serde hexdigest ops).2.AllLegible := by
  induction ops generalizing S with
  | nil => exact hall
  | cons op ops ih =>
      rw [List.forall_mem_cons] at hops
      exact ih (hall.step P serde hexdigest hops.1) hops.2

end Sessions

/-- After any methods, calls of a package's arena over an object, among methods of the other
objects, return what the facade returns over the arena of the object, publish what it publishes
and leave the state it leaves, as long as the clock of the kernel shows years of four digits.  The
leases of a plan bear the times at which the package has read them. -/
theorem package_run (P : Platform) {serde : Serde F} (hexdigest : ByteArray → String)
    (pkg : Package serde) {ops : List BindingOp} (hops : ∀ op ∈ ops, ∀ env ∈ op.env, env.Stamped)
    (i : ℕ) (facade : Facade F) {calls : List (PackageCall F)}
    (hcalls : ∀ call ∈ calls, call.Stamped) (others : List (OtherOps i)) :
    ∃ results p, ({} : Process F).run P serde hexdigest ops = some (results, p) ∧
      ∀ s, p.session i = some s → s.core.definition.arenaId = pkg.arenaId →
        facade.native = s.state →
        pkg.NumbersFitAlong P s.core s.kernelCounter facade calls →
        ∃ returned p', pkg.runCalls P hexdigest i calls others facade.observations p =
            some (returned, (pkg.facadeAfter P s.core s.kernelCounter facade calls).observations,
              p') ∧
          List.Forall₂ pkg.Agrees returned
            (pkg.specifiedResults P s.core s.kernelCounter facade calls) ∧
          p'.session i = some
            { s with state := (pkg.facadeAfter P s.core s.kernelCounter facade calls).native } := by
  obtain ⟨p, hrun, hrep⟩ := represents_run serde hexdigest P represents_new ops
  refine ⟨_, p, hrun, ?_⟩
  intro s hs hid hnative hfits
  rw [hrep.session_eq] at hs
  have hnew : ({} : Sessions F).AllLegible := fun i s hs => by cases hs
  have hlegible : Legible s.state := hnew.run P serde hexdigest hops i s hs
  obtain ⟨returned, p', hcalls, hall, hholds⟩ :=
    pkg.runCalls_eq P hexdigest hcalls ⟨_, hrep, hs⟩ hlegible hid hnative hfits others
  exact ⟨returned, p', hcalls, hall, hholds.session⟩

/-- A library that reads the example of an arena and of a request, and writes by number. -/
noncomputable def exampleSerde : Serde ℚ :=
  numberedSerde (fun _ => .ok exampleArena.definition) (fun _ => .ok exampleRequest)
    fun text => .ok ⟨text, 4⟩

/-- A package's arena over that library. -/
noncomputable def examplePackage : Package exampleSerde where
  py := exactReads
  json := numberedTexts _ _ _
  arenaId := exampleArena.definition.arenaId
  instanceIdOverride := none
  callbackError := ""

/-- The arena of an object that is opened with that library. -/
def openedArena : ContextLeaseArena ℚ :=
  { exampleArena with
    layoutHash := exampleArena.definition.layoutHash fun _ => ""
    instanceId := "one" }

theorem newArena_example : newArena (fun _ => "") "one" exampleArena.definition =
    .ok openedArena := by
  rw [newArena]
  split
  · rfl
  · rename_i h
    rw [exampleArena.valid] at h
    cases h

/-- A request is prepared. -/
def examplePrepare : PackageCall ℚ :=
  .prepare stampedEnv stampedEnv exampleClock "" HashMap.empty

/-- Its usage is reported. -/
def exampleReport : PackageCall ℚ := .recordUsage stampedEnv exampleClock "notes:1"

/-- Nothing has been prepared or published. -/
def exampleFacade : Facade ℚ := { observations := { maxEvents := 10 } }

/-- While the calls are made another object is opened and closed. -/
def exampleOthers : List (OtherOps 0) :=
  [[⟨.create "two" "", by simp [BindingOp.object]⟩], [⟨.close 1, by simp [BindingOp.object]⟩]]

theorem exampleCalls_stamped : ∀ call ∈ [examplePrepare, exampleReport], call.Stamped := by
  intro call hcall
  simp only [List.mem_cons, List.not_mem_nil, or_false] at hcall
  rcases hcall with rfl | rfl
  · exact ⟨stampedEnv_stamped, stampedEnv_stamped⟩
  · exact stampedEnv_stamped

theorem numbersFit_exampleCalls : examplePackage.NumbersFitAlong (Library.ascii id).release
    openedArena none exampleFacade [examplePrepare, exampleReport] := by
  have hall : ([examplePrepare, exampleReport].inits.all fun before =>
      ((examplePackage.facadeAfter (Library.ascii id).release openedArena none exampleFacade
        before).observations.queue "notes").all fun event =>
          decide (event.seq < 18446744073709551616)) = true := by decide +kernel
  intro before hbefore event hevent
  have hfits := List.all_eq_true.1 hall before ((List.mem_inits before _).2 hbefore)
  exact of_decide_eq_true (List.all_eq_true.1 hfits event hevent)

omit [FloatOps F] in
/-- A result that holds a plan. -/
theorem exists_plan_of_map {α : Type} {result : PackageResult F} {f : HostContextPlan F → α}
    {a : α} (h : (result.toOption.bind Sum.getLeft?).map f = some a) :
    ∃ plan, result = .ok (.inl plan) ∧ f plan = a := by
  cases result with
  | error e => cases h
  | ok value =>
      cases value with
      | inl plan => exact ⟨plan, rfl, Option.some_inj.1 h⟩
      | inr calibration => cases h

omit [FloatOps F] in
/-- A result that holds a calibration. -/
theorem exists_calibration_of_map {α : Type} {result : PackageResult F}
    {f : UsageCalibration F → α} {a : α} (h : (result.toOption.bind Sum.getRight?).map f = some a) :
    ∃ calibration, result = .ok (.inr calibration) ∧ f calibration = a := by
  cases result with
  | error e => cases h
  | ok value =>
      cases value with
      | inl plan => cases h
      | inr calibration => exact ⟨calibration, rfl, Option.some_inj.1 h⟩

theorem Package.Agrees.of_ok {serde : Serde F} {pkg : Package serde} {result : PackageResult F}
    {value : HostContextPlan F ⊕ UsageCalibration F} (h : pkg.Agrees result (.ok value)) :
    result = .ok value := by
  rcases h with h | ⟨-, e, he⟩
  · exact h
  · cases he

/-- What the calls are to return: a plan with a lease that is read twice, and a calibration. -/
theorem specifiedResults_example :
    ∃ plan calibration, examplePackage.specifiedResults (Library.ascii id).release openedArena none
        exampleFacade [examplePrepare, exampleReport] =
          [.ok (.inl plan), .ok (.inr calibration)] ∧
      (plan.plan.rendered, (plan.leases ++ plan.snapshotLeases).map fun lease =>
        (lease.leaseId, lease.grantedAt.second)) =
          ("Answer in one sentence.\n\nWe met on Monday. Bye",
            [(":system:history", 0), (":system:history", 1)]) ∧
      calibration.sampleCount = 1 := by
  obtain ⟨plan, hfirst, hplan⟩ := exists_plan_of_map
    (show ((examplePackage.specified (Library.ascii id).release openedArena none exampleFacade
      examplePrepare).1.toOption.bind Sum.getLeft?).map (fun plan =>
        (plan.plan.rendered, (plan.leases ++ plan.snapshotLeases).map fun lease =>
          (lease.leaseId, lease.grantedAt.second))) =
      some ("Answer in one sentence.\n\nWe met on Monday. Bye",
        [(":system:history", 0), (":system:history", 1)]) by decide +kernel)
  obtain ⟨calibration, hsecond, hcount⟩ := exists_calibration_of_map
    (show ((examplePackage.specified (Library.ascii id).release openedArena none
      (examplePackage.specified (Library.ascii id).release openedArena none exampleFacade
        examplePrepare).2 exampleReport).1.toOption.bind Sum.getRight?).map
          UsageCalibration.sampleCount = some 1 by decide +kernel)
  exact ⟨plan, calibration, congrArg₂ (fun first second => [first, second]) hfirst hsecond, hplan,
    hcount⟩

/-- While another object is opened and closed, a plan is published, with a lease that bears the
times at which it has been read, and then the event of the report. -/
theorem package_run_example :
    ∃ p plan calibration store p', ({} : Process ℚ).run (Library.ascii id).release exampleSerde
        (fun _ => "") [.create "one" ""] = some ([.ok none], p) ∧
      examplePackage.runCalls (Library.ascii id).release (fun _ => "") 0
        [examplePrepare, exampleReport] exampleOthers exampleFacade.observations p =
          some ([.ok (.inl plan), .ok (.inr calibration)], store, p') ∧
      (plan.plan.rendered, (plan.leases ++ plan.snapshotLeases).map fun lease =>
        (lease.leaseId, lease.grantedAt.second)) =
          ("Answer in one sentence.\n\nWe met on Monday. Bye",
            [(":system:history", 0), (":system:history", 1)]) ∧
      calibration.sampleCount = 1 ∧
      (store.eventsAfter "notes" 0 10).map TraceEvent.seq = [1, 2, 3, 4, 5, 6] := by
  have hops : ∀ op ∈ [BindingOp.create "one" ""], ∀ env ∈ op.env, env.Stamped := by
    intro op hop env henv
    obtain rfl := List.mem_singleton.1 hop
    cases henv
  obtain ⟨results, p, hrun, hcalls⟩ := package_run (Library.ascii id).release (fun _ => "")
    examplePackage hops 0 exampleFacade exampleCalls_stamped exampleOthers
  obtain ⟨p₀, hrun₀, hrep⟩ := represents_run exampleSerde (fun _ => "")
    (Library.ascii id).release represents_new [.create "one" ""]
  have hcreate : ({} : Sessions ℚ).run (Library.ascii id).release exampleSerde (fun _ => "")
      [.create "one" ""] = ([.ok none],
        { ({} : Sessions ℚ).update 0 (some { core := openedArena }) with created := 1 }) := by
    have hread : exampleSerde.readDefinition "" = .ok exampleArena.definition := rfl
    simp only [Sessions.run, Sessions.step, Sessions.create, hread, Except.mapError,
      newArena_example]
  rw [hcreate] at hrun₀ hrep
  rw [hrun₀, Option.some_inj, Prod.mk.injEq] at hrun
  obtain ⟨rfl, rfl⟩ := hrun
  obtain ⟨returned, p', hran, hall, -⟩ := hcalls _ (hrep.session_eq 0) rfl rfl
    numbersFit_exampleCalls
  obtain ⟨plan, calibration, hresults, hplan, hcount⟩ := specifiedResults_example
  change List.Forall₂ _ returned (examplePackage.specifiedResults (Library.ascii id).release
    openedArena none exampleFacade [examplePrepare, exampleReport]) at hall
  rw [hresults] at hall
  obtain _ | ⟨hfirst, _ | ⟨hsecond, hnil⟩⟩ := hall
  cases hnil
  obtain rfl := hfirst.of_ok
  obtain rfl := hsecond.of_ok
  exact ⟨p₀, plan, calibration, _, p', hrun₀, hran, hplan, hcount, by decide +kernel⟩

end Foreign

end ContextLease
