/-
The telemetry of the host.

The package keeps the latest snapshot of every arena and a queue of its latest events, and counts
the events that fell out of the queue.  Its arena publishes to that store: after a call the events
and the snapshot of the plan, and after a usage report what the ring of the kernel holds after the
last event that the store returns in one page.

Main definitions:

* `ObservationStore` — the store, and what is published to it and read from it;
* `Facade`, `Facade.prepare`, `Facade.recordUsage` — the arena of the package.

Main results:

* `ObservationStore.log_publishMany` — the queue of an arena is a bounded log;
* `Facade.prepare_cases`, `Facade.recordUsage_of_matches` — the ways a call can end.
-/

import ContextLease.LeaseLedger
import ContextLease.EventInvariant
import Mathlib.Data.PNat.Defs

set_option relaxedAutoImplicit false
set_option autoImplicit false

namespace ContextLease

open MachineNumbers RustText

variable {F : Type}

/-! ### The store -/

/-- The source's `ObservationStore`, with the queues and the drop counts by arena. -/
structure ObservationStore (F : Type) where
  maxEvents : ℕ+
  snapshots : HashMap (ArenaSnapshot F) := HashMap.empty
  events : HashMap (List TraceEvent) := HashMap.empty
  dropped : HashMap ℕ := HashMap.empty

namespace ObservationStore

variable (store : ObservationStore F)

/-- The queue of an arena, which is empty until something is published. -/
def queue (arenaId : String) : List TraceEvent := (store.events arenaId).getD []

/-- The source's `publish_snapshot`. -/
def publishSnapshot (snapshot : ArenaSnapshot F) : ObservationStore F :=
  { store with snapshots := store.snapshots.insert snapshot.arenaId snapshot }

/-- The source's `publish_event`. -/
def publishEvent (event : TraceEvent) : ObservationStore F :=
  let queue := store.queue event.arenaId
  if queue.length = store.maxEvents then
    { store with
      dropped :=
        store.dropped.insert event.arenaId ((store.dropped event.arenaId).getD 0 + 1)
      events := store.events.insert event.arenaId (queue.drop 1 ++ [event]) }
  else { store with events := store.events.insert event.arenaId (queue ++ [event]) }

/-- The source's `publish_many`. -/
def publishMany (events : List TraceEvent) : ObservationStore F := events.foldl publishEvent store

/-- The source's `get_snapshot`. -/
def getSnapshot (arenaId : String) : Option (ArenaSnapshot F) :=
  (store.snapshots arenaId).map fun snapshot =>
    let dropped : ℕ := (store.dropped arenaId).getD 0
    let nativeDropped := ((snapshot.health.get "events_dropped").map Value.asTokens).getD 0
    { snapshot with
      health := snapshot.health.insert "events_dropped" (.ofInt (nativeDropped + dropped)) }

/-- The source's `events_after`. -/
def eventsAfter (arenaId : String) (afterSeq limit : ℕ) : List TraceEvent :=
  ((store.queue arenaId).filter fun event => afterSeq < event.seq).take (max 1 (min limit 10000))

/-- The queue of an arena and its drop count. -/
def log (arenaId : String) : BoundedLog TraceEvent :=
  ⟨store.queue arenaId, (store.dropped arenaId).getD 0⟩

@[simp] theorem maxEvents_publishSnapshot (snapshot : ArenaSnapshot F) :
    (store.publishSnapshot snapshot).maxEvents = store.maxEvents := rfl

@[simp] theorem log_publishSnapshot (snapshot : ArenaSnapshot F) (arenaId : String) :
    (store.publishSnapshot snapshot).log arenaId = store.log arenaId := rfl

@[simp] theorem maxEvents_publishEvent (event : TraceEvent) :
    (store.publishEvent event).maxEvents = store.maxEvents := by
  rw [publishEvent]
  split <;> rfl

/-- An event goes to the log of its arena. -/
theorem log_publishEvent (event : TraceEvent) :
    (store.publishEvent event).log event.arenaId =
      (store.log event.arenaId).push store.maxEvents event := by
  by_cases hfull : (store.queue event.arenaId).length = store.maxEvents
  · have hpushed : (store.log event.arenaId).push store.maxEvents event =
        ⟨(store.queue event.arenaId).drop 1 ++ [event],
          (store.dropped event.arenaId).getD 0 + 1⟩ := if_pos hfull
    have hpublished : store.publishEvent event =
        { store with
          dropped :=
            store.dropped.insert event.arenaId ((store.dropped event.arenaId).getD 0 + 1)
          events := store.events.insert event.arenaId
            ((store.queue event.arenaId).drop 1 ++ [event]) } := if_pos hfull
    rw [hpushed, hpublished]
    simp only [log, queue, HashMap.insert_self, Option.getD_some]
  · have hpushed : (store.log event.arenaId).push store.maxEvents event =
        ⟨store.queue event.arenaId ++ [event], (store.dropped event.arenaId).getD 0⟩ :=
      if_neg hfull
    have hpublished : store.publishEvent event =
        { store with
          events := store.events.insert event.arenaId
            (store.queue event.arenaId ++ [event]) } := if_neg hfull
    rw [hpushed, hpublished]
    simp only [log, queue, HashMap.insert_self, Option.getD_some]

@[simp] theorem maxEvents_publishMany (events : List TraceEvent) :
    (store.publishMany events).maxEvents = store.maxEvents := by
  induction events generalizing store with
  | nil => rfl
  | cons event events ih => exact (ih _).trans (store.maxEvents_publishEvent event)

/-- Publishing the events of an arena pushes them onto its log. -/
theorem log_publishMany {arenaId : String} {events : List TraceEvent}
    (hevents : ∀ event ∈ events, event.arenaId = arenaId) :
    (store.publishMany events).log arenaId =
      events.foldl (BoundedLog.push store.maxEvents) (store.log arenaId) := by
  induction events generalizing store with
  | nil => rfl
  | cons event events ih =>
      have hevent := hevents event (List.mem_cons_self ..)
      have hpushed := store.log_publishEvent event
      rw [hevent] at hpushed
      rw [List.foldl_cons, ← hpushed, ← store.maxEvents_publishEvent event]
      exact ih _ fun e he => hevents e (List.mem_cons_of_mem _ he)

end ObservationStore

/-! ### The arena of the package -/

/-- The source's exceptions, with their texts; a summary provider raises what it wants. -/
inductive FacadeError
  | admission (detail : String)
  | layoutValidation (detail : String)
  | configuration (detail : String)
  | native (detail : String)
  | provider (detail : String)

/-- The source's `_raise_native`. -/
def raiseNative (error : ContextLeaseError) : FacadeError :=
  if error.code = "admission_error" then .admission error.message
  else if error.code = "layout_validation_error" then .layoutValidation error.message
  else if error.code ∈ ["configuration_error", "tokenizer_unavailable",
      "usage_observation_unknown"] then .configuration error.message
  else .native error.message

/-- What changes in the package's arena: the state of the kernel and the store. -/
structure Facade (F : Type) where
  native : ArenaState F := {}
  observations : ObservationStore F

/-- A call of a host, with what it meets. -/
inductive FacadeCall (F : Type)
  | prepare (beginEnv commitEnv : Env) (request : PrepareRequest F)
      (counter : Option TokenCounter) (provider : SemanticRequest → Except FacadeError String)
  | recordUsage (env : Env) (observation : UsageObservation)

variable [FloatOps F]

section Operations

variable (P : Platform) (arena : ContextLeaseArena F) (instanceIdOverride : Option String)

omit [FloatOps F] in
/-- The name under which the package publishes: an empty one is no override. -/
def publishedInstance (native : String) : String :=
  match instanceIdOverride with
  | some instanceId => if instanceId = "" then native else instanceId
  | none => native

omit [FloatOps F] in
/-- The source's `_event`. -/
def hostEvent (instanceId : String) (event : TraceEvent) : TraceEvent :=
  { event with instanceId }

omit [FloatOps F] in
/-- The source's `_snapshot`. -/
def hostSnapshot (instanceId : String) (snapshot : ArenaSnapshot F) : ArenaSnapshot F :=
  { snapshot with instanceId }

omit [FloatOps F] in
/-- The source's `_prepared`. -/
def hostPlan (plan : PreparedContextPlan F) : PreparedContextPlan F :=
  let instanceId := publishedInstance instanceIdOverride plan.instanceId
  { plan with
    instanceId
    traceEvents := plan.traceEvents.map (hostEvent instanceId)
    snapshot := hostSnapshot instanceId plan.snapshot }

/-- The calls of the kernel in `prepare`. -/
def prepareNative (beginEnv commitEnv : Env) (request : PrepareRequest F)
    (counter : Option TokenCounter) (provider : SemanticRequest → Except FacadeError String)
    (s : ArenaState F) : Except FacadeError (PreparedContextPlan F) × ArenaState F :=
  match prepareBegin P arena beginEnv request counter s with
  | (.error error, s) => (.error (raiseNative error), s)
  | (.ok ⟨"ready", some plan, _⟩, s) => (.ok plan, s)
  | (.ok begun, s) =>
      let summarize := fun item : SemanticRequest =>
        (provider item).map fun text => (⟨item.semanticRequestId, text⟩ : SemanticResult)
      match begun.semanticRequests.mapM summarize with
      | .error error => (.error error, s)
      | .ok semanticResults =>
          match prepareCommit P arena commitEnv request semanticResults counter s with
          | (.error error, s) => (.error (raiseNative error), s)
          | (.ok plan, s) => (.ok plan, s)

namespace Facade

/-- The source's `prepare`. -/
def prepare (beginEnv commitEnv : Env) (request : PrepareRequest F)
    (counter : Option TokenCounter) (provider : SemanticRequest → Except FacadeError String)
    (facade : Facade F) : Except FacadeError (PreparedContextPlan F) × Facade F :=
  match prepareNative P arena beginEnv commitEnv request counter provider facade.native with
  | (.error error, native) => (.error error, { facade with native })
  | (.ok raw, native) =>
      let prepared := hostPlan instanceIdOverride raw
      (.ok prepared,
        { native
          observations := (facade.observations.publishMany prepared.traceEvents).publishSnapshot
            prepared.snapshot })

/-- What `record_usage` publishes when the kernel has recorded the usage. -/
def synchronize (native : ArenaState F) (observations : ObservationStore F) :
    ObservationStore F :=
  let existing := observations.eventsAfter arena.definition.arenaId 0 10000
  let afterSeq := (existing.getLast?.map TraceEvent.seq).getD 0
  let rawEvents := ContextLease.eventsAfter native afterSeq 1000
  let instanceId := publishedInstance instanceIdOverride
    ((native.latestSnapshot.map ArenaSnapshot.instanceId).getD "")
  let observations := observations.publishMany (rawEvents.map (hostEvent instanceId))
  match native.latestSnapshot with
  | some rawSnapshot => observations.publishSnapshot (hostSnapshot instanceId rawSnapshot)
  | none => observations

@[simp] theorem maxEvents_synchronize (native : ArenaState F)
    (observations : ObservationStore F) :
    (synchronize arena instanceIdOverride native observations).maxEvents =
      observations.maxEvents := by
  rw [synchronize]
  split <;> simp

/-- The source's `record_usage`. -/
def recordUsage (env : Env) (observation : UsageObservation) (facade : Facade F) :
    Except FacadeError (UsageCalibration F) × Facade F :=
  match ContextLease.recordUsage arena env observation facade.native with
  | (.error error, native) => (.error (raiseNative error), { facade with native })
  | (.ok value, native) =>
      (.ok value,
        { native, observations := synchronize arena instanceIdOverride native facade.observations })

/-- What a call leaves behind. -/
def step (facade : Facade F) : FacadeCall F → Facade F
  | .prepare beginEnv commitEnv request counter provider =>
      (facade.prepare P arena instanceIdOverride beginEnv commitEnv request counter provider).2
  | .recordUsage env observation => (facade.recordUsage arena instanceIdOverride env observation).2

/-- What a sequence of calls leaves behind, when the store was attached from the start. -/
def run (maxEvents : ℕ+) (calls : List (FacadeCall F)) : Facade F :=
  calls.foldl (step P arena instanceIdOverride) { observations := { maxEvents } }

end Facade

end Operations

/-! ### How a call can end -/

section Outcomes

variable {P : Platform} {arena : ContextLeaseArena F} {instanceIdOverride : Option String}

/-- The kernel leaves its state alone, or prepares one plan. -/
theorem prepareNative_cases (beginEnv commitEnv : Env) (request : PrepareRequest F)
    (counter : Option TokenCounter) (provider : SemanticRequest → Except FacadeError String)
    (s : ArenaState F) :
    (∃ error, prepareNative P arena beginEnv commitEnv request counter provider s =
        (.error error, s)) ∨
      ∃ op plan s', (op.env = beginEnv ∨ op.env = commitEnv) ∧
        StepOutcome P arena s op (some plan) s' ∧
        prepareNative P arena beginEnv commitEnv request counter provider s = (.ok plan, s') := by
  rcases prepareBegin_cases P arena beginEnv request counter s with
    ⟨error, hbegin⟩ | ⟨plan, s', hbegin, -⟩ | ⟨requests, -, -, hbegin⟩
  · exact Or.inl ⟨_, by rw [prepareNative, hbegin]⟩
  · have houtcome : StepOutcome P arena s (.prepareBegin beginEnv request counter) _ _ :=
      step_outcome s _
    rw [planOf, step, hbegin] at houtcome
    exact Or.inr ⟨_, plan, s', Or.inl rfl, houtcome, by rw [prepareNative, hbegin]; rfl⟩
  · have hneeds : prepareNative P arena beginEnv commitEnv request counter provider s =
        match requests.mapM fun item : SemanticRequest =>
          (provider item).map fun text => (⟨item.semanticRequestId, text⟩ : SemanticResult) with
        | .error error => (.error error, s)
        | .ok semanticResults =>
            match prepareCommit P arena commitEnv request semanticResults counter s with
            | (.error error, s) => (.error (raiseNative error), s)
            | (.ok plan, s) => (.ok plan, s) := by
      rw [prepareNative, hbegin]
      rfl
    rw [hneeds]
    cases requests.mapM fun item : SemanticRequest =>
        (provider item).map fun text => (⟨item.semanticRequestId, text⟩ : SemanticResult) with
    | error error => exact Or.inl ⟨error, rfl⟩
    | ok semanticResults =>
        rcases prepareCommit_cases P arena commitEnv request semanticResults counter s with
          ⟨error, hcommit⟩ | ⟨plan, s', hcommit, -⟩
        · exact Or.inl ⟨raiseNative error, by simp only [hcommit]⟩
        · have houtcome : StepOutcome P arena s
              (.prepareCommit commitEnv request semanticResults counter) _ _ := step_outcome s _
          rw [planOf, step, hcommit] at houtcome
          exact Or.inr ⟨_, plan, s', Or.inr rfl, houtcome, by simp only [hcommit]⟩

variable (P arena instanceIdOverride)

/-- A call leaves everything alone, or publishes the plan of the kernel. -/
theorem Facade.prepare_cases (facade : Facade F) (beginEnv commitEnv : Env)
    (request : PrepareRequest F) (counter : Option TokenCounter)
    (provider : SemanticRequest → Except FacadeError String) :
    (∃ error,
      facade.prepare P arena instanceIdOverride beginEnv commitEnv request counter provider =
        (.error error, facade)) ∨
      ∃ op plan native, (op.env = beginEnv ∨ op.env = commitEnv) ∧
        StepOutcome P arena facade.native op (some plan) native ∧
        facade.prepare P arena instanceIdOverride beginEnv commitEnv request counter provider =
          (.ok (hostPlan instanceIdOverride plan),
            { native
              observations := (facade.observations.publishMany
                (hostPlan instanceIdOverride plan).traceEvents).publishSnapshot
                  (hostPlan instanceIdOverride plan).snapshot }) := by
  rcases prepareNative_cases beginEnv commitEnv request counter provider facade.native with
    ⟨error, hnative⟩ | ⟨op, plan, native, henv, houtcome, hnative⟩
  · exact Or.inl ⟨error, by rw [Facade.prepare, hnative]⟩
  · exact Or.inr ⟨op, plan, native, henv, houtcome, by rw [Facade.prepare, hnative]⟩

omit [FloatOps F] in
/-- The kernel can match a usage report. -/
def ArenaState.Matches (s : ArenaState F) (observation : UsageObservation) : Prop :=
  isBlank observation.requestId = false ∧ 0 ≤ observation.actualInputTokens ∧
    (s.recentUsage observation.requestId).isSome = true

omit [FloatOps F] in
theorem ArenaState.Matches.not_refused {s : ArenaState F} {observation : UsageObservation}
    (h : s.Matches observation) :
    ¬ (isBlank observation.requestId || decide (observation.actualInputTokens < 0)) = true := by
  rw [h.1, Bool.false_or, decide_eq_true_eq, not_lt]
  exact h.2.1

/-- The kernel refuses a usage report that it cannot match. -/
theorem recordUsage_refused {s : ArenaState F} (env : Env) {observation : UsageObservation}
    (h : ¬ s.Matches observation) :
    ∃ error, ContextLease.recordUsage arena env observation s = (.error error, s) := by
  rw [recordUsage_eq]
  by_cases hvalid : (isBlank observation.requestId ||
      decide (observation.actualInputTokens < 0)) = true
  · rw [if_pos hvalid]
    exact ⟨_, rfl⟩
  · rw [if_neg hvalid]
    rw [Bool.or_eq_true, not_or, decide_eq_true_eq, not_lt, Bool.not_eq_true] at hvalid
    cases hrecent : s.recentUsage observation.requestId with
    | none => exact ⟨_, rfl⟩
    | some recent => exact absurd ⟨hvalid.1, hvalid.2, by rw [hrecent]; rfl⟩ h

/-- The kernel records a usage report that it matches. -/
theorem recordUsage_matched {s : ArenaState F} (env : Env) {observation : UsageObservation}
    (h : s.Matches observation) :
    ∃ recent value, s.recentUsage observation.requestId = some recent ∧
      ContextLease.recordUsage arena env observation s =
        (.ok value, reported arena env observation recent s) := by
  obtain ⟨recent, hrecent⟩ := Option.isSome_iff_exists.1 h.2.2
  exact ⟨recent, _, hrecent, by rw [recordUsage_eq, if_neg h.not_refused, hrecent]⟩

/-- A usage report that the kernel cannot match leaves everything alone. -/
theorem Facade.recordUsage_of_not_matches {facade : Facade F} (env : Env)
    {observation : UsageObservation} (h : ¬ facade.native.Matches observation) :
    (facade.recordUsage arena instanceIdOverride env observation).2 = facade := by
  obtain ⟨error, hrefused⟩ := recordUsage_refused arena env h
  rw [Facade.recordUsage, hrefused]

/-- A usage report that the kernel matches is recorded and published. -/
theorem Facade.recordUsage_of_matches {facade : Facade F} (env : Env)
    {observation : UsageObservation} (h : facade.native.Matches observation) :
    ∃ recent, facade.native.recentUsage observation.requestId = some recent ∧
      StepOutcome P arena facade.native (.recordUsage env observation) none
        (reported arena env observation recent facade.native) ∧
      (facade.recordUsage arena instanceIdOverride env observation).2 =
        { native := reported arena env observation recent facade.native
          observations := synchronize arena instanceIdOverride
            (reported arena env observation recent facade.native) facade.observations } := by
  obtain ⟨recent, value, hrecent, hmatched⟩ := recordUsage_matched arena env h
  refine ⟨recent, hrecent, .reported rfl h.1 h.2.1 hrecent, ?_⟩
  rw [Facade.recordUsage, hmatched]

end Outcomes

end ContextLease
