/-
The events of an arena.

The ring of an arena is a log of at most ten thousand events.  Whoever reports something drafts it,
and the draft becomes an event when it gets the next number.  Reporting many drafts one by one is
reporting them all at once, and no report touches anything but the ring and its numbers.

Main definitions:

* `ArenaState.log`, `ArenaState.withLog` — the ring of a state;
* `EventDraft`, `EventDraft.stamp`, `eventsFrom` — drafts, and the events they become;
* `ArenaState.emit`, `Transaction.report` — a state and a transaction after some drafts.

Main results:

* `pushEvent_eq`, `Transaction.push_eq_report` — one event is one draft;
* `ArenaState.emit_emit`, `Transaction.report_report` — drafts add up;
* `map_seq_eventsFrom` — the events of drafts carry the next numbers.
-/

import ContextLease.Prepare
import ContextLease.BoundedLog

set_option relaxedAutoImplicit false
set_option autoImplicit false

namespace ContextLease

open MachineNumbers

variable {F : Type}

/-! ### The ring -/

/-- How many events an arena keeps. -/
abbrev eventCapacity : ℕ := 10000

namespace ArenaState

/-- The ring of a state. -/
def log (s : ArenaState F) : BoundedLog TraceEvent := ⟨s.events, s.eventsDropped⟩

/-- The state with another ring. -/
def withLog (s : ArenaState F) (log : BoundedLog TraceEvent) : ArenaState F :=
  { s with events := log.items, eventsDropped := log.dropped }

@[simp] theorem log_withLog (s : ArenaState F) (log : BoundedLog TraceEvent) :
    (s.withLog log).log = log := rfl

@[simp] theorem recentUsage_withLog (s : ArenaState F) (log : BoundedLog TraceEvent) :
    (s.withLog log).recentUsage = s.recentUsage := rfl

@[simp] theorem recentUsageOrder_withLog (s : ArenaState F) (log : BoundedLog TraceEvent) :
    (s.withLog log).recentUsageOrder = s.recentUsageOrder := rfl

theorem appendEvent_eq (s : ArenaState F) (event : TraceEvent) :
    s.appendEvent event = s.withLog (s.log.push eventCapacity event) := by
  by_cases hfull : s.events.length = 10000
  · have hpush : s.log.push eventCapacity event =
        ⟨s.events.drop 1 ++ [event], s.eventsDropped + 1⟩ := if_pos hfull
    rw [appendEvent, if_pos hfull, hpush]
    rfl
  · have hpush : s.log.push eventCapacity event = ⟨s.events ++ [event], s.eventsDropped⟩ :=
      if_neg hfull
    rw [appendEvent, if_neg hfull, hpush]
    rfl

theorem foldl_appendEvent_eq (s : ArenaState F) (events : List TraceEvent) :
    events.foldl appendEvent s =
      s.withLog (events.foldl (BoundedLog.push eventCapacity) s.log) := by
  induction events generalizing s with
  | nil => rfl
  | cons event events ih =>
      rw [List.foldl_cons, List.foldl_cons, ih, appendEvent_eq]
      rfl

end ArenaState

/-! ### Drafts -/

/-- What an event reports. -/
structure EventDraft where
  eventType : String
  payload : BTreeMap Value
  priority : String

variable [FloatOps F] (arena : ContextLeaseArena F) (env : Env) (requestId : Option String)

/-- The event that a draft becomes under a number. -/
def EventDraft.stamp (seq : ℕ) (draft : EventDraft) : TraceEvent where
  eventId := arena.instanceId ++ ":" ++ toString seq
  seq := seq
  occurredAt := env.occurredAt seq
  arenaId := arena.definition.arenaId
  instanceId := arena.instanceId
  requestId := requestId
  eventType := draft.eventType
  schemaVersion := "1.0"
  layoutHash := arena.layoutHash
  policyVersion := arena.definition.policyVersion
  payload := draft.payload
  priority := draft.priority

/-- The events that drafts become after the number `seq`. -/
def eventsFrom : ℕ → List EventDraft → List TraceEvent
  | _, [] => []
  | seq, draft :: drafts =>
      draft.stamp arena env requestId (seq + 1) :: eventsFrom (seq + 1) drafts

@[simp] theorem length_eventsFrom (seq : ℕ) (drafts : List EventDraft) :
    (eventsFrom arena env requestId seq drafts).length = drafts.length := by
  induction drafts generalizing seq with
  | nil => rfl
  | cons draft drafts ih => rw [eventsFrom, List.length_cons, ih, List.length_cons]

/-- Every event has the type of the draft it comes from. -/
theorem exists_draft_of_mem_eventsFrom {seq : ℕ} {drafts : List EventDraft} {e : TraceEvent}
    (h : e ∈ eventsFrom arena env requestId seq drafts) :
    ∃ draft ∈ drafts, draft.eventType = e.eventType := by
  induction drafts generalizing seq with
  | nil => exact absurd h List.not_mem_nil
  | cons draft drafts ih =>
      rcases List.mem_cons.1 h with rfl | h
      · exact ⟨draft, List.mem_cons_self .., rfl⟩
      · obtain ⟨draft', hdraft', htype⟩ := ih h
        exact ⟨draft', List.mem_cons_of_mem _ hdraft', htype⟩

/-- Different drafts become different events. -/
theorem eventsFrom_injective (seq : ℕ) :
    Function.Injective (eventsFrom arena env requestId seq) := by
  intro drafts
  induction drafts generalizing seq with
  | nil =>
      intro drafts' h
      cases drafts' with
      | nil => rfl
      | cons draft' drafts' => cases h
  | cons draft drafts ih =>
      intro drafts' h
      cases drafts' with
      | nil => cases h
      | cons draft' drafts' =>
          rw [eventsFrom, eventsFrom, List.cons.injEq] at h
          have htype := congrArg TraceEvent.eventType h.1
          have hpayload := congrArg TraceEvent.payload h.1
          have hpriority := congrArg TraceEvent.priority h.1
          obtain ⟨eventType, payload, priority⟩ := draft
          obtain ⟨eventType', payload', priority'⟩ := draft'
          simp only [EventDraft.stamp] at htype hpayload hpriority
          rw [htype, hpayload, hpriority, ih (seq + 1) h.2]

theorem eventsFrom_append (seq : ℕ) (drafts drafts' : List EventDraft) :
    eventsFrom arena env requestId seq (drafts ++ drafts') =
      eventsFrom arena env requestId seq drafts ++
        eventsFrom arena env requestId (seq + drafts.length) drafts' := by
  induction drafts generalizing seq with
  | nil => rfl
  | cons draft drafts ih =>
      rw [List.cons_append, eventsFrom, eventsFrom, ih, List.cons_append, List.length_cons,
        Nat.add_assoc seq 1, Nat.add_comm 1]

/-- The events of drafts carry the next numbers. -/
theorem map_seq_eventsFrom (seq : ℕ) (drafts : List EventDraft) :
    (eventsFrom arena env requestId seq drafts).map TraceEvent.seq =
      List.range' (seq + 1) drafts.length := by
  induction drafts generalizing seq with
  | nil => rfl
  | cons draft drafts ih =>
      rw [eventsFrom, List.map_cons, ih, List.length_cons, List.range'_succ]
      rfl

/-- A state after some drafts. -/
def ArenaState.emit (drafts : List EventDraft) (s : ArenaState F) : ArenaState F :=
  { s.withLog ((eventsFrom arena env requestId s.eventSeq drafts).foldl
      (BoundedLog.push eventCapacity) s.log) with
    eventSeq := s.eventSeq + drafts.length }

@[simp] theorem ArenaState.recentUsage_emit (drafts : List EventDraft) (s : ArenaState F) :
    (s.emit arena env requestId drafts).recentUsage = s.recentUsage := rfl

@[simp] theorem ArenaState.recentUsageOrder_emit (drafts : List EventDraft) (s : ArenaState F) :
    (s.emit arena env requestId drafts).recentUsageOrder = s.recentUsageOrder := rfl

@[simp] theorem ArenaState.emit_nil (s : ArenaState F) : s.emit arena env requestId [] = s := rfl

/-- Drafts add up. -/
theorem ArenaState.emit_emit (s : ArenaState F) (drafts drafts' : List EventDraft) :
    (s.emit arena env requestId drafts).emit arena env requestId drafts' =
      s.emit arena env requestId (drafts ++ drafts') := by
  simp only [emit, eventsFrom_append, List.foldl_append, List.length_append, Nat.add_assoc]
  rfl

/-- One event is one draft. -/
theorem pushEvent_eq (s : ArenaState F) (eventType : String) (payload : BTreeMap Value)
    (priority : String) :
    pushEvent arena env s requestId eventType payload priority =
      ((⟨eventType, payload, priority⟩ : EventDraft).stamp arena env requestId (s.eventSeq + 1),
        s.emit arena env requestId [⟨eventType, payload, priority⟩]) := by
  simp only [pushEvent, ArenaState.appendEvent_eq]
  rfl

/-! ### Transactions -/

section Transactions

variable (requestId : String)

/-- A transaction after some drafts. -/
def Transaction.report (drafts : List EventDraft) (tx : Transaction F) : Transaction F :=
  { tx with
    state := tx.state.emit arena env (some requestId) drafts
    traceEvents := tx.traceEvents ++
      eventsFrom arena env (some requestId) tx.state.eventSeq drafts }

theorem Transaction.push_eq_report (tx : Transaction F) (eventType : String)
    (payload : List (String × Value)) (priority : String) :
    tx.push arena env requestId eventType payload priority =
      tx.report arena env requestId [⟨eventType, BTreeMap.ofList payload, priority⟩] := by
  simp only [Transaction.push, pushEvent_eq]
  rfl

@[simp] theorem Transaction.report_nil (tx : Transaction F) :
    tx.report arena env requestId [] = tx := by
  simp only [report, ArenaState.emit_nil, eventsFrom, List.append_nil]

/-- Drafts add up. -/
theorem Transaction.report_report (tx : Transaction F) (drafts drafts' : List EventDraft) :
    (tx.report arena env requestId drafts).report arena env requestId drafts' =
      tx.report arena env requestId (drafts ++ drafts') := by
  simp only [report, ArenaState.emit_emit, eventsFrom_append, List.append_assoc]
  rfl

/-- A loop whose steps only report is one report. -/
theorem Transaction.foldl_report {α : Type} (drafts : α → List EventDraft) (l : List α)
    (tx : Transaction F) :
    l.foldl (fun tx a => tx.report arena env requestId (drafts a)) tx =
      tx.report arena env requestId (l.flatMap drafts) := by
  induction l generalizing tx with
  | nil => rw [List.foldl_nil, List.flatMap_nil, report_nil]
  | cons a l ih => rw [List.foldl_cons, ih, report_report, List.flatMap_cons]

end Transactions

end ContextLease
