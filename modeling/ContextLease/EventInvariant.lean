/-
The event log of a run.

The ring of an arena is a numbered log: its events carry consecutive numbers that end at the event
counter, and what it has dropped makes up the rest.  Whatever a call or a usage report emits carries
the next numbers, so every operation keeps the ring numbered, however many events it emits.

Main definitions:

* `EventInvariant` — what the ring, the counters and the health of the snapshot satisfy.

Main results:

* `StepOutcome.eventInvariant` — every operation keeps it;
* `event_log_of_run` — it holds after every run, and a host that asks for the events after a number
  gets them without a gap.
-/

import ContextLease.Committed

set_option relaxedAutoImplicit false
set_option autoImplicit false

namespace ContextLease

open MachineNumbers RustText

variable {F : Type} [FloatOps F]

omit [FloatOps F] in
/-- What the ring, the counters and the health of the snapshot satisfy after a run that has
returned the plans `ps`. -/
structure EventInvariant (s : ArenaState F) (ps : List (PreparedContextPlan F)) : Prop where
  ring : s.log.items.length ≤ eventCapacity
  numbered : s.log.Numbered TraceEvent.seq s.eventSeq
  requests : s.requestSeq = ps.length
  snapshots : s.snapshotSeq = ps.length
  health : ∀ snapshot ∈ s.latestSnapshot,
    snapshot.health.get "events_dropped" = some (.ofInt s.eventsDropped)

omit [FloatOps F] in
theorem EventInvariant.init : EventInvariant ({} : ArenaState F) [] where
  ring := Nat.zero_le _
  numbered := ⟨rfl, rfl⟩
  requests := rfl
  snapshots := rfl
  health := fun snapshot h => by cases h

omit [FloatOps F] in
/-- What the kernel returns after a number: the consecutive events from the next one on that it
still has. -/
theorem EventInvariant.map_seq_eventsAfter {s : ArenaState F} {ps : List (PreparedContextPlan F)}
    (h : EventInvariant s ps) (after limit : ℕ) :
    (eventsAfter s after limit).map TraceEvent.seq =
      List.range' (max after s.eventsDropped + 1)
        (min (min (max limit 1) 10000) (s.eventSeq - max after s.eventsDropped)) := by
  have hlate : ∀ event ∈ s.events, s.eventsDropped < event.seq := by
    intro event hevent
    have hseq : event.seq ∈ s.log.items.map TraceEvent.seq := List.mem_map_of_mem hevent
    rw [h.numbered.numbers] at hseq
    exact (List.mem_range'_1.1 hseq).1
  have hfilter : (s.events.filter fun event => decide (after < event.seq)) =
      s.events.filter fun event => decide (max after s.eventsDropped < event.seq) := by
    refine List.filter_congr ?_
    intro event hevent
    rw [decide_eq_decide, max_lt_iff]
    exact (and_iff_left (hlate event hevent)).symm
  have hnumbers := h.numbered.filter_gt (le_max_right after s.log.dropped)
  change ((s.events.filter fun event => max after s.eventsDropped < event.seq).map
    TraceEvent.seq) = _ at hnumbers
  rw [eventsAfter, List.map_take, hfilter, hnumbers, show s.log.dropped = s.eventsDropped from rfl]
  generalize s.eventSeq - max after s.eventsDropped = n
  rcases le_total n (min (max limit 1) 10000) with hle | hle
  · rw [List.take_range'_of_length_le hle, min_eq_right hle]
  · rw [List.take_range'_of_length_ge hle, min_eq_left hle]

section Steps

variable {P : Platform} {arena : ContextLeaseArena F}

/-- Emitting drafts keeps a ring numbered. -/
theorem numbered_emit (env : Env) (requestId : Option String) (drafts : List EventDraft)
    {s : ArenaState F} (hring : s.log.items.length ≤ eventCapacity)
    (hnumbered : s.log.Numbered TraceEvent.seq s.eventSeq) :
    (s.emit arena env requestId drafts).log.items.length ≤ eventCapacity ∧
      (s.emit arena env requestId drafts).log.Numbered TraceEvent.seq
        (s.emit arena env requestId drafts).eventSeq := by
  have hcapacity : 0 < eventCapacity := by decide
  refine ⟨BoundedLog.length_foldl_push hcapacity hring _, ?_⟩
  have hseqs := map_seq_eventsFrom arena env requestId s.eventSeq drafts
  have hpushed := hnumbered.foldl_push hcapacity hring
    (l := eventsFrom arena env requestId s.eventSeq drafts) (by rw [hseqs, length_eventsFrom])
  rwa [length_eventsFrom] at hpushed

/-- Every operation keeps the event log in order. -/
theorem StepOutcome.eventInvariant {s s' : ArenaState F} {op : Op F}
    {plan : Option (PreparedContextPlan F)} {ps : List (PreparedContextPlan F)}
    (h : EventInvariant s ps) (hstep : StepOutcome P arena s op plan s') :
    EventInvariant s' (ps ++ plan.toList) := by
  cases hstep with
  | unchanged => simpa using h
  | @prepared call admission settled hcall hdecided =>
      have hemit := @numbered_emit F _ arena call.env (some (callName arena call.request s))
        (callDrafts P arena call.env call.request admission settled s) s h.ring h.numbered
      rw [committed_eq P arena call admission settled s h.ring]
      refine ⟨hemit.1, hemit.2, ?_, ?_, ?_⟩
      · rw [Option.toList_some, List.length_append, ← h.requests]
        rfl
      · rw [Option.toList_some, List.length_append, ← h.snapshots]
        rfl
      · exact ArenaState.health_refreshed _
  | @reported env observation recent hop hblank hactual hrecent =>
      have hemit := @numbered_emit F _ arena env (some observation.requestId)
        [calibratedDraft (observe recent observation.actualInputTokens
          (s.calibrations recent.key))] s h.ring h.numbered
      rw [Option.toList_none, List.append_nil]
      refine ⟨hemit.1, hemit.2, h.requests, h.snapshots, ?_⟩
      intro snapshot hsnapshot
      obtain ⟨snapshot, -, rfl⟩ := Option.mem_map.1 hsnapshot
      exact BTreeMap.get_insert_self ..

/-- The events of a plan carry the next numbers. -/
theorem StepOutcome.trace {s s' : ArenaState F} {op : Op F} {plan : PreparedContextPlan F}
    {ps : List (PreparedContextPlan F)} (h : EventInvariant s ps)
    (hstep : StepOutcome P arena s op (some plan) s') :
    plan.traceEvents.map TraceEvent.seq = List.range' (s.eventSeq + 1) plan.traceEvents.length ∧
      s'.eventSeq = s.eventSeq + plan.traceEvents.length := by
  cases hstep with
  | @prepared call admission settled hcall hdecided =>
      rw [committed_eq P arena call admission settled s h.ring]
      have hlength : (call.plan P arena admission settled s).traceEvents.length =
          (callDrafts P arena call.env call.request admission settled s).length :=
        length_eventsFrom ..
      refine ⟨?_, ?_⟩
      · rw [hlength]
        exact map_seq_eventsFrom ..
      · rw [hlength]
        rfl

/-- The log of a run is in order. -/
theorem EventInvariant.of_run (P : Platform) (arena : ContextLeaseArena F) (ops : List (Op F)) :
    EventInvariant (run P arena {} ops) (plans P arena {} ops) :=
  run_induction (motive := EventInvariant) (fun _ _ _ _ _ h hstep => hstep.eventInvariant h)
    EventInvariant.init ops

/-- After every run of calls and usage reports, successful or not, the ring holds at most ten
thousand events, with consecutive numbers that end at the event counter; the dropped events make up
the rest; the request and the snapshot counter count the plans; and the health of the snapshot tells
how many events were dropped.  The events of the next plan carry the next numbers.  A host that has
seen the events up to a number, of which none later was dropped, is given the following ones without
a gap. -/
theorem event_log_of_run (P : Platform) (arena : ContextLeaseArena F) (ops : List (Op F)) :
    let s := run P arena {} ops
    s.events.length ≤ 10000 ∧
      s.events.map TraceEvent.seq = List.range' (s.eventsDropped + 1) s.events.length ∧
      s.eventsDropped + s.events.length = s.eventSeq ∧
      s.requestSeq = (plans P arena {} ops).length ∧
      s.snapshotSeq = (plans P arena {} ops).length ∧
      (∀ snapshot ∈ s.latestSnapshot,
        snapshot.health.get "events_dropped" = some (.ofInt s.eventsDropped)) ∧
      (∀ op plan, planOf P arena s op = some plan →
        plan.traceEvents.map TraceEvent.seq =
            List.range' (s.eventSeq + 1) plan.traceEvents.length ∧
          (step P arena s op).eventSeq = s.eventSeq + plan.traceEvents.length) ∧
      ∀ after limit, s.eventsDropped ≤ after →
        (eventsAfter s after limit).map TraceEvent.seq =
          List.range' (after + 1) (min (min (max limit 1) 10000) (s.eventSeq - after)) := by
  intro s
  have h : EventInvariant s (plans P arena {} ops) := EventInvariant.of_run P arena ops
  refine ⟨h.ring, h.numbered.numbers, h.numbered.total, h.requests, h.snapshots, h.health, ?_, ?_⟩
  · intro op plan hplan
    have hstep : StepOutcome P arena s op (planOf P arena s op) (step P arena s op) :=
      step_outcome s op
    rw [hplan] at hstep
    exact hstep.trace h
  · intro after limit hafter
    rw [h.map_seq_eventsAfter, max_eq_left hafter]

/-- After a call with five events, a host that has seen two of them is given the other three. -/
theorem event_log_of_example :
    let s := run (Library.ascii id).release exampleArena {} [.prepare default exampleRequest none]
    s.eventsDropped ≤ 2 ∧ s.eventSeq = 5 ∧
      (eventsAfter s 2 100).map TraceEvent.seq =
        List.range' 3 (min (min (max 100 1) 10000) (s.eventSeq - 2)) := by
  have hdropped : (run (Library.ascii id).release exampleArena {}
      [.prepare default exampleRequest none]).eventsDropped ≤ 2 := by decide +kernel
  exact ⟨hdropped, by decide +kernel,
    (event_log_of_run (Library.ascii id).release exampleArena
      [.prepare default exampleRequest none]).2.2.2.2.2.2.2 2 100 hdropped⟩

end Steps

end ContextLease
