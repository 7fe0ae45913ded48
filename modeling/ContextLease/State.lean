/-
The state of an arena.

An arena is a validated definition with the hash of its layout and the name of the instance; what
changes over its life is its `ArenaState`, which lies behind a lock.  A request works on a copy of
the state, a transaction, and commits it when it succeeds.

Main definitions:

* `ContextLeaseArena` — an arena; it carries the proof that its definition was accepted;
* `ArenaState`, `ArenaState.beginTransaction`, `ArenaState.commitTransaction` — the state;
* `Env` — the clock and the iteration order a call meets;
* `pushEvent` — the source's `push_event_locked`;
* `calibrationKey`, `safetyMultiplier` — the calibration of a model.
-/

import ContextLease.Count

set_option relaxedAutoImplicit false
set_option autoImplicit false

namespace ContextLease

open MachineNumbers

/-- What the arena remembers of a request until its usage is reported. -/
structure RecentUsage where
  modelProfileId : String
  tokenizerId : String
  tokenizerVersion : String
  estimatedTokens : ℤ
  deriving DecidableEq

/-- The state of an arena. -/
structure ArenaState (F : Type) where
  requestSeq : ℕ := 0
  snapshotSeq : ℕ := 0
  eventSeq : ℕ := 0
  previousUsage : HashMap ℤ := HashMap.empty
  /-- The active leases by id, which is the one map of the state that is iterated. -/
  activeLeases : BTreeMap Lease := []
  calibrations : HashMap (UsageCalibration F) := HashMap.empty
  recentUsage : HashMap RecentUsage := HashMap.empty
  recentUsageOrder : List String := []
  events : List TraceEvent := []
  eventsDropped : ℕ := 0
  latestSnapshot : Option (ArenaSnapshot F) := none

section State

variable {F : Type}

/-- The source's `begin_transaction`: a copy of the state without its events. -/
def ArenaState.beginTransaction (s : ArenaState F) : ArenaState F := { s with events := [] }

/-- The ring of events after one more event. -/
def ArenaState.appendEvent (s : ArenaState F) (event : TraceEvent) : ArenaState F :=
  -- a full ring loses its oldest event, and counts the loss
  if s.events.length = 10000 then
    { s with events := s.events.drop 1 ++ [event], eventsDropped := s.eventsDropped + 1 }
  else { s with events := s.events ++ [event] }

/-- The source's `commit_transaction`. -/
def ArenaState.commitTransaction (s transaction : ArenaState F) : ArenaState F :=
  let s := transaction.events.foldl ArenaState.appendEvent
    { transaction with events := s.events }
  { s with
    latestSnapshot := transaction.latestSnapshot.map fun snapshot =>
      { snapshot with
        health := snapshot.health.insert "events_dropped" (.ofInt s.eventsDropped) } }

@[simp] theorem ArenaState.calibrations_appendEvent (s : ArenaState F) (event : TraceEvent) :
    (s.appendEvent event).calibrations = s.calibrations := by
  unfold ArenaState.appendEvent
  split <;> rfl

@[simp] theorem ArenaState.recentUsage_appendEvent (s : ArenaState F) (event : TraceEvent) :
    (s.appendEvent event).recentUsage = s.recentUsage := by
  unfold ArenaState.appendEvent
  split <;> rfl

@[simp] theorem ArenaState.recentUsageOrder_appendEvent (s : ArenaState F) (event : TraceEvent) :
    (s.appendEvent event).recentUsageOrder = s.recentUsageOrder := by
  unfold ArenaState.appendEvent
  split <;> rfl

/-- A field that one event leaves alone is left alone by all of them. -/
theorem ArenaState.foldl_appendEvent {α : Type} (field : ArenaState F → α)
    (hfield : ∀ s event, field (s.appendEvent event) = field s) (l : List TraceEvent)
    (s : ArenaState F) : field (l.foldl ArenaState.appendEvent s) = field s := by
  induction l generalizing s with
  | nil => rfl
  | cons event l ih => rw [List.foldl_cons, ih, hfield]

@[simp] theorem ArenaState.calibrations_commitTransaction (s transaction : ArenaState F) :
    (s.commitTransaction transaction).calibrations = transaction.calibrations :=
  foldl_appendEvent ArenaState.calibrations calibrations_appendEvent _ _

@[simp] theorem ArenaState.recentUsage_commitTransaction (s transaction : ArenaState F) :
    (s.commitTransaction transaction).recentUsage = transaction.recentUsage :=
  foldl_appendEvent ArenaState.recentUsage recentUsage_appendEvent _ _

@[simp] theorem ArenaState.recentUsageOrder_commitTransaction (s transaction : ArenaState F) :
    (s.commitTransaction transaction).recentUsageOrder = transaction.recentUsageOrder :=
  foldl_appendEvent ArenaState.recentUsageOrder recentUsageOrder_appendEvent _ _

end State

/-! ### Arenas -/

/-- An arena, which only `validate_definition` lets into the world. -/
structure ContextLeaseArena (F : Type) [FloatOps F] where
  definition : ArenaDefinition F
  layoutHash : String
  instanceId : String
  valid : validateDefinition definition = .ok ()

/-- What a call meets: the time stamps it reads, and the order in which the hash map of the active
leases is iterated. -/
structure Env where
  now : String
  capturedAt : String
  /-- The time stamps of the events, by sequence number. -/
  occurredAt : ℕ → String
  leaseOrder : List Lease → List Lease
  leaseOrder_perm : ∀ leases, (leaseOrder leases).Perm leases

instance : Inhabited Env where
  default :=
    { now := "", capturedAt := "", occurredAt := fun _ => "", leaseOrder := id
      leaseOrder_perm := fun leases => List.Perm.refl leases }

section Arena

variable {F : Type} [FloatOps F]

theorem ContextLeaseArena.validDefinition (arena : ContextLeaseArena F) :
    ValidDefinition arena.definition :=
  validateDefinition_ok arena.valid

/-- The source's `push_event_locked`. -/
def pushEvent (arena : ContextLeaseArena F) (env : Env) (s : ArenaState F)
    (requestId : Option String) (eventType : String) (payload : BTreeMap Value)
    (priority : String) : TraceEvent × ArenaState F :=
  let seq := s.eventSeq + 1
  let event : TraceEvent :=
    { eventId := arena.instanceId ++ ":" ++ toString seq
      seq := seq
      occurredAt := env.occurredAt seq
      arenaId := arena.definition.arenaId
      instanceId := arena.instanceId
      requestId := requestId
      eventType := eventType
      schemaVersion := "1.0"
      layoutHash := arena.layoutHash
      policyVersion := arena.definition.policyVersion
      payload := payload
      priority := priority }
  (event, { s with eventSeq := seq }.appendEvent event)

@[simp] theorem calibrations_pushEvent (arena : ContextLeaseArena F) (env : Env)
    (s : ArenaState F) (requestId : Option String) (eventType : String)
    (payload : BTreeMap Value) (priority : String) :
    (pushEvent arena env s requestId eventType payload priority).2.calibrations =
      s.calibrations := by
  simp only [pushEvent, ArenaState.calibrations_appendEvent]

@[simp] theorem recentUsage_pushEvent (arena : ContextLeaseArena F) (env : Env)
    (s : ArenaState F) (requestId : Option String) (eventType : String)
    (payload : BTreeMap Value) (priority : String) :
    (pushEvent arena env s requestId eventType payload priority).2.recentUsage =
      s.recentUsage := by
  simp only [pushEvent, ArenaState.recentUsage_appendEvent]

/-! ### Calibrations -/

/-- The source's `calibration_key_parts`. -/
def calibrationKeyParts (model tokenizer version : String) : String :=
  model ++ "\x00" ++ tokenizer ++ "\x00" ++ version

/-- The source's `calibration_key`. -/
def calibrationKey (model : ModelProfile) : String :=
  calibrationKeyParts model.modelProfileId model.tokenizerId model.tokenizerVersion

/-- The safety multiplier a call reads for its model. -/
def safetyMultiplier (s : ArenaState F) (model : ModelProfile) : F :=
  match s.calibrations (calibrationKey model) with
  | some calibration => calibration.safetyMultiplier
  | none => FloatOps.ofRat 1

/-- Every stored multiplier is clamped to at least one. -/
def ArenaState.Clamped (s : ArenaState F) : Prop :=
  ∀ key, ∀ calibration ∈ s.calibrations key,
    calibration.safetyMultiplier = FloatOps.max calibration.ewmaRatio (FloatOps.ofRat 1)

/-- The multiplier a call reads is clamped to at least one. -/
theorem ArenaState.Clamped.safetyMultiplier_eq {s : ArenaState F} (h : s.Clamped)
    (model : ModelProfile) : ∃ x, safetyMultiplier s model = FloatOps.max x (FloatOps.ofRat 1) := by
  unfold safetyMultiplier
  split
  · rename_i calibration hcal
    exact ⟨_, h _ calibration hcal⟩
  · exact ⟨_, FloatOps.max_one.symm⟩

end Arena

end ContextLease
