/-
The store of the host and the stream of the kernel.

The store is meant to hold the latest part of the stream of events that the kernel numbers.  A plan
brings the events that come next.  After a usage report the package asks the store for its last
event, but the store answers with one page of its oldest events, so from more than a page on the
report publishes again what was published before.  And what the store reports as dropped is its own
count added to the one of the kernel, which dropped events that the store had long been given.

Main definitions:

* `InStep` — the store holds the latest part of the stream;
* `Mirrors`, `DropsAddUp` — what a host may rely on: the queue is a block of the stream, and what
  was dropped makes up the rest.

Main results:

* `mirrors_iff` — the queue is a block of the stream throughout exactly when no report meets more
  than a page of events;
* `drops_add_up_iff` — the counts add up throughout exactly when the kernel drops nothing.
-/

import ContextLease.Observation
import ContextLease.PrefixRuns
import ContextLease.UsageQueue

set_option relaxedAutoImplicit false
set_option autoImplicit false

namespace ContextLease

open MachineNumbers RustText

variable {F : Type} [FloatOps F] {P : Platform} {arena : ContextLeaseArena F}
  {instanceIdOverride : Option String}

/-! ### Events and snapshots of one arena -/

/-- Everything that a state holds carries the name of its arena, its ring is as full as it can be,
and a request is only remembered when there is a snapshot. -/
structure Announced (arena : ContextLeaseArena F) (s : ArenaState F) : Prop where
  kept : s.events.length = min eventCapacity s.eventSeq
  events : ∀ event ∈ s.events, event.arenaId = arena.definition.arenaId
  snapshot : ∀ snapshot ∈ s.latestSnapshot, snapshot.arenaId = arena.definition.arenaId
  remembered : ∀ id, (s.recentUsage id).isSome = true → s.latestSnapshot.isSome = true

theorem arenaId_eventsFrom (env : Env) (requestId : Option String) (seq : ℕ)
    (drafts : List EventDraft) :
    ∀ event ∈ eventsFrom arena env requestId seq drafts,
      event.arenaId = arena.definition.arenaId := by
  induction drafts generalizing seq with
  | nil => exact fun event hevent => by cases hevent
  | cons draft drafts ih =>
      intro event hevent
      rcases List.mem_cons.1 hevent with rfl | hevent
      · rfl
      · exact ih _ event hevent

/-- What some drafts leave in a ring. -/
theorem log_emit {s : ArenaState F} (hring : s.log.items.length ≤ eventCapacity) (env : Env)
    (requestId : Option String) (drafts : List EventDraft) :
    (s.emit arena env requestId drafts).log =
      ⟨(s.events ++ eventsFrom arena env requestId s.eventSeq drafts).drop
          (s.events.length + drafts.length - eventCapacity),
        s.eventsDropped + (s.events.length + drafts.length - eventCapacity)⟩ := by
  have hpushed := BoundedLog.foldl_push (show 0 < eventCapacity by decide) hring
    (eventsFrom arena env requestId s.eventSeq drafts)
  rw [length_eventsFrom] at hpushed
  exact hpushed

theorem events_emit {s : ArenaState F} (hring : s.log.items.length ≤ eventCapacity) (env : Env)
    (requestId : Option String) (drafts : List EventDraft) :
    (s.emit arena env requestId drafts).events =
      (s.events ++ eventsFrom arena env requestId s.eventSeq drafts).drop
        (s.events.length + drafts.length - eventCapacity) := by
  rw [show (s.emit arena env requestId drafts).events =
    (s.emit arena env requestId drafts).log.items from rfl, log_emit hring]

theorem eventsDropped_emit {s : ArenaState F} (hring : s.log.items.length ≤ eventCapacity)
    (env : Env) (requestId : Option String) (drafts : List EventDraft) :
    (s.emit arena env requestId drafts).eventsDropped =
      s.eventsDropped + (s.events.length + drafts.length - eventCapacity) := by
  rw [show (s.emit arena env requestId drafts).eventsDropped =
    (s.emit arena env requestId drafts).log.dropped from rfl, log_emit hring]

theorem arenaId_emit {s : ArenaState F} (hring : s.log.items.length ≤ eventCapacity)
    (hevents : ∀ event ∈ s.events, event.arenaId = arena.definition.arenaId) (env : Env)
    (requestId : Option String) (drafts : List EventDraft) :
    ∀ event ∈ (s.emit arena env requestId drafts).events,
      event.arenaId = arena.definition.arenaId := by
  intro event hevent
  rw [events_emit hring] at hevent
  rcases List.mem_append.1 (List.mem_of_mem_drop hevent) with hevent | hevent
  · exact hevents event hevent
  · exact arenaId_eventsFrom env requestId _ drafts event hevent

/-- Drafts leave a ring as full as it can be. -/
theorem length_events_emit {s : ArenaState F} (h : s.events.length = min eventCapacity s.eventSeq)
    (env : Env) (requestId : Option String) (drafts : List EventDraft) :
    (s.emit arena env requestId drafts).events.length =
      min eventCapacity (s.emit arena env requestId drafts).eventSeq := by
  have hring : s.log.items.length ≤ eventCapacity := le_of_eq_of_le h (min_le_left ..)
  have hseq : (s.emit arena env requestId drafts).eventSeq = s.eventSeq + drafts.length := rfl
  rw [events_emit hring, hseq, List.length_drop, List.length_append, length_eventsFrom, h]
  generalize eventCapacity = capacity
  omega

theorem Announced.init : Announced arena ({} : ArenaState F) where
  kept := (Nat.min_zero _).symm
  events := fun event hevent => by cases hevent
  snapshot := fun snapshot hsnapshot => by cases hsnapshot
  remembered := fun id hid => by cases hid

/-- Every operation keeps the names. -/
theorem StepOutcome.announced {s s' : ArenaState F} {op : Op F}
    {plan : Option (PreparedContextPlan F)} {ps : List (PreparedContextPlan F)}
    (hevents : EventInvariant s ps) (h : Announced arena s)
      (hstep : StepOutcome P arena s op plan s') :
    Announced arena s' := by
  cases hstep with
  | unchanged => exact h
  | @prepared call admission settled hcall hdecided =>
      rw [committed_eq P arena call admission settled s hevents.ring]
      refine ⟨length_events_emit h.kept call.env (some (callName arena call.request s))
          (callDrafts P arena call.env call.request admission settled s),
        arenaId_emit hevents.ring h.events call.env (some (callName arena call.request s))
          (callDrafts P arena call.env call.request admission settled s), ?_, fun id hid => rfl⟩
      intro snapshot hsnapshot
      obtain rfl := Option.some_inj.1 hsnapshot
      rfl
  | @reported env observation recent hop hblank hactual hrecent =>
      refine ⟨length_events_emit h.kept env (some observation.requestId) _,
        arenaId_emit hevents.ring h.events env (some observation.requestId) _, ?_, ?_⟩
      · intro snapshot hsnapshot
        obtain ⟨earlier, hearlier, rfl⟩ := Option.mem_map.1 hsnapshot
        exact h.snapshot earlier hearlier
      · intro id hid
        have hlatest := h.remembered observation.requestId (by rw [hrecent]; rfl)
        rw [ContextLease.reported, Option.isSome_map]
        exact hlatest

/-- The events of a plan carry the name of the arena, and its snapshot tells what the kernel had
dropped when the last but one of them was emitted. -/
theorem StepOutcome.plan {s s' : ArenaState F} {op : Op F} {plan : PreparedContextPlan F}
    (hstep : StepOutcome P arena s op (some plan) s') :
    (∀ event ∈ plan.traceEvents, event.arenaId = arena.definition.arenaId) ∧
      plan.snapshot.arenaId = arena.definition.arenaId ∧
      plan.snapshot.health.get "events_dropped" =
        some (.ofInt ((s.eventsDropped + (plan.traceEvents.length - 1 - eventCapacity) : ℕ) : ℤ)) ∧
      plan.traceEvents ≠ [] := by
  cases hstep with
  | @prepared call admission settled hcall hdecided =>
      have hlength : (call.plan P arena admission settled s).traceEvents.length =
          (draftsToSnapshot P arena call.env call.request admission settled s).length + 1 := by
        rw [Call.plan, callPlan, preparedPlan, length_eventsFrom, callDrafts, List.length_append]
        rfl
      refine ⟨arenaId_eventsFrom call.env _ _ _, rfl, ?_, fun hnil => ?_⟩
      · have hempty : s.beginTransaction.log.items.length ≤ eventCapacity := Nat.zero_le _
        have hdropped := @eventsDropped_emit F _ arena s.beginTransaction hempty call.env
          (some (callName arena call.request s))
          (draftsToSnapshot P arena call.env call.request admission settled s)
        have hhealth : (call.plan P arena admission settled s).snapshot.health =
            BTreeMap.ofList [("events_dropped", .ofInt ((s.beginTransaction.emit arena call.env
              (some (callName arena call.request s)) (draftsToSnapshot P arena call.env call.request
                admission settled s)).eventsDropped : ℤ)), ("core_version", .string coreVersion)] :=
          rfl
        have hkept : s.beginTransaction.eventsDropped = s.eventsDropped := rfl
        have hnone : s.beginTransaction.events.length = 0 := rfl
        rw [hhealth, hdropped, health_ofList, hlength, hkept, hnone, Nat.add_sub_cancel,
          Nat.zero_add]
        rfl
      · rw [hnil] at hlength
        exact absurd hlength (by simp)

/-! ### A store in step with the kernel -/

/-- The store holds the latest part of the stream of the kernel. -/
structure InStep (arena : ContextLeaseArena F) (facade : Facade F) : Prop where
  invariant : ∃ ps, EventInvariant facade.native ps
  announced : Announced arena facade.native
  numbered : (facade.observations.log arena.definition.arenaId).Numbered TraceEvent.seq
    facade.native.eventSeq
  retained : (facade.observations.queue arena.definition.arenaId).length =
    min (facade.observations.maxEvents : ℕ) facade.native.eventSeq

theorem InStep.init (maxEvents : ℕ+) :
    InStep arena ({ observations := { maxEvents } } : Facade F) where
  invariant := ⟨[], EventInvariant.init⟩
  announced := Announced.init
  numbered := ⟨rfl, rfl⟩
  retained := (Nat.min_zero _).symm

omit [FloatOps F] in
/-- Publishing the next events of the stream. -/
theorem numbered_publishMany {store : ObservationStore F} {arenaId : String} {last : ℕ}
    (hnumbered : (store.log arenaId).Numbered TraceEvent.seq last)
    (hretained : (store.queue arenaId).length = min (store.maxEvents : ℕ) last)
    {events : List TraceEvent} (hids : ∀ event ∈ events, event.arenaId = arenaId)
    (hseqs : events.map TraceEvent.seq = List.range' (last + 1) events.length) :
    ((store.publishMany events).log arenaId).Numbered TraceEvent.seq (last + events.length) ∧
      ((store.publishMany events).queue arenaId).length =
        min (store.maxEvents : ℕ) (last + events.length) := by
  have hring : (store.log arenaId).items.length ≤ store.maxEvents :=
    le_of_eq_of_le hretained (min_le_left ..)
  rw [show (store.publishMany events).queue arenaId =
    ((store.publishMany events).log arenaId).items from rfl, store.log_publishMany hids]
  refine ⟨hnumbered.foldl_push store.maxEvents.pos hring hseqs, ?_⟩
  rw [BoundedLog.foldl_push store.maxEvents.pos hring, List.length_drop, List.length_append,
    show (store.log arenaId).items = store.queue arenaId from rfl, hretained]
  omega

omit [FloatOps F] in
/-- What is published is kept or dropped. -/
theorem total_publishMany {store : ObservationStore F} {arenaId : String}
    (hring : (store.queue arenaId).length ≤ store.maxEvents) {events : List TraceEvent}
    (hids : ∀ event ∈ events, event.arenaId = arenaId) :
    ((store.publishMany events).log arenaId).dropped +
        ((store.publishMany events).queue arenaId).length =
      (store.log arenaId).dropped + (store.queue arenaId).length + events.length := by
  rw [show (store.publishMany events).queue arenaId =
    ((store.publishMany events).log arenaId).items from rfl, store.log_publishMany hids,
    BoundedLog.foldl_push store.maxEvents.pos hring, List.length_drop, List.length_append,
    show (store.log arenaId).items = store.queue arenaId from rfl]
  simp only
  omega

omit [FloatOps F] in
/-- The package renames events without renumbering them. -/
theorem map_seq_hostEvent (instanceId : String) (events : List TraceEvent) :
    (events.map (hostEvent instanceId)).map TraceEvent.seq = events.map TraceEvent.seq :=
  List.map_map

omit [FloatOps F] in
theorem arenaId_hostEvent (instanceId : String) {events : List TraceEvent} {arenaId : String}
    (h : ∀ event ∈ events, event.arenaId = arenaId) :
    ∀ event ∈ events.map (hostEvent instanceId), event.arenaId = arenaId := by
  intro event hevent
  obtain ⟨raw, hraw, rfl⟩ := List.mem_map.1 hevent
  exact h raw hraw

variable (instanceIdOverride) in
/-- Publishing a plan keeps the store in step. -/
theorem InStep.published {facade : Facade F} (h : InStep arena facade) {op : Op F}
    {plan : PreparedContextPlan F} {native : ArenaState F}
    (hstep : StepOutcome P arena facade.native op (some plan) native) :
    InStep arena
      { native
        observations := (facade.observations.publishMany
          (hostPlan instanceIdOverride plan).traceEvents).publishSnapshot
            (hostPlan instanceIdOverride plan).snapshot } := by
  obtain ⟨ps, hps⟩ := h.invariant
  obtain ⟨hseqs, hlast⟩ := hstep.trace hps
  have hpublished := numbered_publishMany h.numbered h.retained
    (arenaId_hostEvent (publishedInstance instanceIdOverride plan.instanceId) hstep.plan.1)
    (by rw [map_seq_hostEvent, List.length_map, hseqs])
  rw [List.length_map, ← hlast] at hpublished
  refine ⟨⟨_, hstep.eventInvariant hps⟩, hstep.announced hps h.announced, hpublished.1, ?_⟩
  rw [ObservationStore.maxEvents_publishSnapshot, ObservationStore.maxEvents_publishMany]
  exact hpublished.2

/-! ### After a usage report -/

/-- The number of the last event that the store returns in one page. -/
theorem InStep.pageEnd {facade : Facade F} (h : InStep arena facade) :
    (((facade.observations.eventsAfter arena.definition.arenaId 0 10000).getLast?.map
        TraceEvent.seq).getD 0) =
      facade.native.eventSeq - (facade.observations.queue arena.definition.arenaId).length +
        min (facade.observations.queue arena.definition.arenaId).length 10000 := by
  have htotal := h.numbered.total
  have hretained := h.retained
  have hlog : (facade.observations.log arena.definition.arenaId).items =
      facade.observations.queue arena.definition.arenaId := rfl
  have hmap :
      (facade.observations.eventsAfter arena.definition.arenaId 0 10000).map TraceEvent.seq =
        List.range' ((facade.observations.log arena.definition.arenaId).dropped + 1)
          (min (facade.observations.queue arena.definition.arenaId).length 10000) := by
    have hall : (facade.observations.queue arena.definition.arenaId).filter
        (fun event => decide (0 < event.seq)) =
          facade.observations.queue arena.definition.arenaId := by
      refine List.filter_eq_self.2 fun event hevent => decide_eq_true ?_
      have hseq := List.mem_map_of_mem (f := TraceEvent.seq) hevent
      rw [← hlog, h.numbered.numbers] at hseq
      have := (List.mem_range'_1.1 hseq).1
      omega
    rw [ObservationStore.eventsAfter, hall, List.map_take, ← hlog, h.numbered.numbers]
    rcases le_total (facade.observations.log arena.definition.arenaId).items.length 10000 with
      hle | hle
    · rw [List.take_range'_of_length_le (by omega), min_eq_left hle]
    · rw [List.take_range'_of_length_ge (by omega), min_eq_right hle]
      rfl
  rw [← List.getLast?_map, hmap, List.getLast?_range']
  rw [hlog] at htotal
  by_cases hnone : min (facade.observations.queue arena.definition.arenaId).length 10000 = 0
  · -- an empty queue means that nothing was emitted
    have hpos := facade.observations.maxEvents.pos
    rw [if_pos hnone, Option.getD_none]
    omega
  · rw [if_neg hnone, Option.getD_some]
    omega

/-- Where the events begin that a report publishes: after the page of the store, and after what the
kernel has dropped. -/
def firstRepublished (facade : Facade F) (arenaId : String) : ℕ :=
  max (facade.native.eventSeq - (facade.observations.queue arenaId).length +
    min (facade.observations.queue arenaId).length 10000)
      (facade.native.eventSeq + 1 - eventCapacity)

variable (arena instanceIdOverride) in
omit [FloatOps F] in
/-- The events that a report publishes. -/
def reportEvents (native : ArenaState F) (observations : ObservationStore F) : List TraceEvent :=
  (eventsAfter native (((observations.eventsAfter arena.definition.arenaId 0
    10000).getLast?.map TraceEvent.seq).getD 0) 1000).map (hostEvent (publishedInstance
      instanceIdOverride ((native.latestSnapshot.map ArenaSnapshot.instanceId).getD "")))

variable (instanceIdOverride) in
/-- What a report publishes. -/
theorem InStep.rawEvents {facade : Facade F} (h : InStep arena facade) {native : ArenaState F}
    {ps : List (PreparedContextPlan F)} (hevents : EventInvariant native ps)
    (hannounced : Announced arena native)
    (hseq : native.eventSeq = facade.native.eventSeq + 1) :
    (Facade.synchronize arena instanceIdOverride native facade.observations).log
          arena.definition.arenaId =
        (facade.observations.publishMany
          (reportEvents arena instanceIdOverride native facade.observations)).log
            arena.definition.arenaId ∧
      (∀ event ∈ reportEvents arena instanceIdOverride native facade.observations,
        event.arenaId = arena.definition.arenaId) ∧
      (reportEvents arena instanceIdOverride native facade.observations).map TraceEvent.seq =
        List.range' (firstRepublished facade arena.definition.arenaId + 1)
          (min 1000 (facade.native.eventSeq + 1 -
            firstRepublished facade arena.definition.arenaId)) := by
  have htotal := hevents.numbered.total
  have hkept := hannounced.kept
  have hdropped : native.eventsDropped = facade.native.eventSeq + 1 - eventCapacity := by
    rw [show native.log.items = native.events from rfl, hkept, hseq,
      show native.log.dropped = native.eventsDropped from rfl] at htotal
    generalize eventCapacity = capacity at htotal ⊢
    omega
  refine ⟨?_, ?_, ?_⟩
  · rw [Facade.synchronize]
    split <;> rfl
  · refine arenaId_hostEvent _ fun event hevent => hannounced.events event ?_
    exact List.mem_of_mem_filter (List.mem_of_mem_take hevent)
  · rw [reportEvents, map_seq_hostEvent, hevents.map_seq_eventsAfter, h.pageEnd, hdropped, hseq,
      ← firstRepublished, show min (max 1000 1) 10000 = 1000 from rfl]

/-- The store has no more than a page to return. -/
def WithinPage (facade : Facade F) : Prop :=
  (facade.observations.maxEvents : ℕ) ≤ 10000 ∨ facade.native.eventSeq ≤ 10000

variable (instanceIdOverride) in
/-- Within a page a report publishes its own event and no other. -/
theorem InStep.reportEvents_seq {facade : Facade F} (h : InStep arena facade)
    (hpage : WithinPage facade) {native : ArenaState F} {ps : List (PreparedContextPlan F)}
    (hevents : EventInvariant native ps) (hannounced : Announced arena native)
    (hseq : native.eventSeq = facade.native.eventSeq + 1) :
    (reportEvents arena instanceIdOverride native facade.observations).map TraceEvent.seq =
      [facade.native.eventSeq + 1] := by
  have hretained := h.retained
  have hfirst : firstRepublished facade arena.definition.arenaId = facade.native.eventSeq := by
    have hfew : (facade.observations.queue arena.definition.arenaId).length ≤ 10000 := by
      rcases hpage with hpage | hpage <;> omega
    rw [firstRepublished, min_eq_left hfew, Nat.sub_add_cancel (by omega)]
    exact max_eq_left (by simp only [eventCapacity]; omega)
  rw [(h.rawEvents instanceIdOverride hevents hannounced hseq).2.2, hfirst,
    Nat.add_sub_cancel_left, show min 1000 1 = 1 from rfl, List.range'_one]

/-- Within a page a report publishes nothing but its own event. -/
theorem InStep.reported {facade : Facade F} (h : InStep arena facade) (hpage : WithinPage facade)
    {op : Op F} {native : ArenaState F} (hstep : StepOutcome P arena facade.native op none native)
    (hseq : native.eventSeq = facade.native.eventSeq + 1) :
    InStep arena
      { native
        observations :=
          Facade.synchronize arena instanceIdOverride native facade.observations } := by
  obtain ⟨ps, hps⟩ := h.invariant
  have hevents := hstep.eventInvariant hps
  have hannounced := hstep.announced hps h.announced
  obtain ⟨hlog, hids, -⟩ := h.rawEvents instanceIdOverride hevents hannounced hseq
  have hseqs := h.reportEvents_seq instanceIdOverride hpage hevents hannounced hseq
  generalize reportEvents arena instanceIdOverride native facade.observations = raw at *
  have hlength : raw.length = 1 := by
    have := congrArg List.length hseqs
    rwa [List.length_map] at this
  have hpublished := numbered_publishMany h.numbered h.retained hids
    (by rw [hseqs, hlength, List.range'_one])
  rw [hlength] at hpublished
  refine ⟨⟨_, hevents⟩, hannounced, ?_, ?_⟩
  · rw [hlog, hseq]
    exact hpublished.1
  · rw [show (Facade.synchronize arena instanceIdOverride native facade.observations).queue
      arena.definition.arenaId = ((Facade.synchronize arena instanceIdOverride native
        facade.observations).log arena.definition.arenaId).items from rfl, hlog, hseq,
      Facade.maxEvents_synchronize]
    exact hpublished.2

/-! ### The queue as a block of the stream -/

/-- The queue of the arena is a block of consecutive numbers that ends at the event counter of the
kernel. -/
def Mirrors (arena : ContextLeaseArena F) (facade : Facade F) : Prop :=
  let seqs := (facade.observations.queue arena.definition.arenaId).map TraceEvent.seq
  (∃ first, seqs = List.range' first seqs.length) ∧
    seqs.getLast? = if facade.native.eventSeq = 0 then none else some facade.native.eventSeq

/-- A store in step mirrors the stream. -/
theorem InStep.mirrors {facade : Facade F} (h : InStep arena facade) : Mirrors arena facade := by
  have htotal := h.numbered.total
  have hnumbers := h.numbered.numbers
  have hretained := h.retained
  have hpos := facade.observations.maxEvents.pos
  rw [show (facade.observations.log arena.definition.arenaId).items =
    facade.observations.queue arena.definition.arenaId from rfl] at htotal hnumbers
  refine ⟨⟨_, hnumbers.trans (by rw [List.length_map])⟩, ?_⟩
  rw [hnumbers, List.getLast?_range']
  by_cases hnone : facade.native.eventSeq = 0
  · rw [if_pos hnone, if_pos (by omega)]
  · rw [if_neg hnone, if_neg (by omega)]
    congr 1
    omega

/-- Beyond a page a report publishes an event again. -/
theorem InStep.not_mirrors {facade : Facade F} (h : InStep arena facade)
    (hpage : ¬ WithinPage facade) {op : Op F} {native : ArenaState F}
    (hstep : StepOutcome P arena facade.native op none native)
    (hseq : native.eventSeq = facade.native.eventSeq + 1) :
    ¬ Mirrors arena
      { native
        observations :=
          Facade.synchronize arena instanceIdOverride native facade.observations } := by
  rintro ⟨⟨first, hblock⟩, -⟩
  obtain ⟨ps, hps⟩ := h.invariant
  obtain ⟨hlog, hids, hseqs⟩ := h.rawEvents instanceIdOverride
    (hstep.eventInvariant hps) (hstep.announced hps h.announced) hseq
  generalize reportEvents arena instanceIdOverride native facade.observations = raw at *
  have htotal := h.numbered.total
  have hretained := h.retained
  have hitems : (facade.observations.log arena.definition.arenaId).items =
    facade.observations.queue arena.definition.arenaId := rfl
  rw [WithinPage, not_or, not_le, not_le] at hpage
  rw [hitems] at htotal
  -- what is published begins with an event that the queue still holds
  have hearly : firstRepublished facade arena.definition.arenaId < facade.native.eventSeq := by
    rw [firstRepublished, max_lt_iff]
    simp only [eventCapacity]
    omega
  have hlength : raw.length = min 1000 (facade.native.eventSeq + 1 -
      firstRepublished facade arena.definition.arenaId) := by
    have := congrArg List.length hseqs
    rwa [List.length_map, List.length_range'] at this
  have hring : (facade.observations.log arena.definition.arenaId).items.length ≤
      facade.observations.maxEvents := le_of_eq_of_le hretained (min_le_left ..)
  have hqueue : (Facade.synchronize arena instanceIdOverride native facade.observations).queue
      arena.definition.arenaId =
        (facade.observations.queue arena.definition.arenaId).drop
          ((facade.observations.queue arena.definition.arenaId).length + raw.length -
            facade.observations.maxEvents) ++ raw := by
    have hpushed := congrArg BoundedLog.items hlog
    rw [facade.observations.log_publishMany hids,
      BoundedLog.foldl_push facade.observations.maxEvents.pos hring, hitems] at hpushed
    refine hpushed.trans (List.drop_append_of_le_length ?_)
    omega
  simp only [hqueue, List.map_append] at hblock
  have hsorted := List.pairwise_append.1 (hblock ▸ List.pairwise_lt_range')
  have hlast : facade.native.eventSeq ∈ ((facade.observations.queue
      arena.definition.arenaId).drop ((facade.observations.queue arena.definition.arenaId).length +
        raw.length - facade.observations.maxEvents)).map TraceEvent.seq := by
    rw [List.map_drop, ← hitems, h.numbered.numbers, List.drop_range', List.mem_range'_1, hitems]
    omega
  have hfirst : firstRepublished facade arena.definition.arenaId + 1 ∈ raw.map TraceEvent.seq := by
    rw [hseqs, List.mem_range'_1]
    omega
  have := hsorted.2.2 _ hlast _ hfirst
  omega

/-! ### The drop counts -/

/-- What the store reports as dropped and what it holds make up the stream of the kernel. -/
def DropsAddUp (arena : ContextLeaseArena F) (facade : Facade F) : Prop :=
  ∀ snapshot ∈ facade.observations.getSnapshot arena.definition.arenaId, ∃ dropped : ℕ,
    snapshot.health.get "events_dropped" = some (.ofInt dropped) ∧
      dropped + (facade.observations.queue arena.definition.arenaId).length = facade.native.eventSeq

/-- The store adds its own drops to those the snapshot tells. -/
theorem dropsAddUp_iff {facade : Facade F} {snapshot : ArenaSnapshot F} {nativeDropped : ℕ}
    (hsnapshot : facade.observations.snapshots arena.definition.arenaId = some snapshot)
    (hhealth : snapshot.health.get "events_dropped" = some (.ofInt nativeDropped)) :
    DropsAddUp arena facade ↔
      nativeDropped + (facade.observations.log arena.definition.arenaId).dropped +
        (facade.observations.queue arena.definition.arenaId).length = facade.native.eventSeq := by
  have hreported : facade.observations.getSnapshot arena.definition.arenaId =
      some { snapshot with
        health := snapshot.health.insert "events_dropped" (.ofInt ((nativeDropped +
          (facade.observations.log arena.definition.arenaId).dropped : ℕ) : ℤ)) } := by
    rw [ObservationStore.getSnapshot, hsnapshot, Option.map_some, hhealth, Option.map_some,
      Option.getD_some, Value.asTokens_ofInt (Int.natCast_nonneg _), Nat.cast_add]
    rfl
  constructor
  · intro h
    obtain ⟨dropped, hdropped, hsum⟩ := h _ hreported
    rw [BTreeMap.get_insert_self, Option.some_inj] at hdropped
    have hvalue := congrArg Value.asTokens hdropped
    rw [Value.asTokens_ofInt (Int.natCast_nonneg _), Value.asTokens_ofInt (Int.natCast_nonneg _)]
      at hvalue
    omega
  · intro h reported hmem
    obtain rfl := Option.some_inj.1 (hreported.symm.trans hmem)
    exact ⟨_, BTreeMap.get_insert_self .., h⟩

/-- The snapshot of the store tells of no drops of the kernel. -/
def NoneDropped (arena : ContextLeaseArena F) (facade : Facade F) : Prop :=
  ∀ snapshot ∈ facade.observations.snapshots arena.definition.arenaId,
    snapshot.health.get "events_dropped" = some (.ofInt (0 : ℕ))

theorem InStep.dropsAddUp {facade : Facade F} (h : InStep arena facade)
    (hnone : NoneDropped arena facade) : DropsAddUp arena facade := by
  intro reported hreported
  have htotal := h.numbered.total
  obtain ⟨snapshot, hsnapshot, -⟩ := Option.map_eq_some_iff.1 hreported
  refine (dropsAddUp_iff hsnapshot (hnone snapshot hsnapshot)).2 ?_ reported hreported
  rw [Nat.zero_add]
  exact htotal

/-- After a call the counts add up exactly when its snapshot tells of no drops. -/
theorem InStep.published_iff {facade : Facade F} (h : InStep arena facade) {op : Op F}
    {plan : PreparedContextPlan F} {native : ArenaState F}
    (hstep : StepOutcome P arena facade.native op (some plan) native) :
    let facade' : Facade F :=
      { native
        observations := (facade.observations.publishMany
          (hostPlan instanceIdOverride plan).traceEvents).publishSnapshot
            (hostPlan instanceIdOverride plan).snapshot }
    (facade.native.eventSeq ≤ eventCapacity ∧ plan.traceEvents.length ≤ eventCapacity + 1 →
        NoneDropped arena facade') ∧
      (¬ (facade.native.eventSeq ≤ eventCapacity ∧ plan.traceEvents.length ≤ eventCapacity + 1) →
        ¬ DropsAddUp arena facade') := by
  intro facade'
  have htotal := (h.published instanceIdOverride hstep).numbered.total
  obtain ⟨ps, hps⟩ := h.invariant
  obtain ⟨-, harena, hhealth, -⟩ := hstep.plan
  have hdropped : facade.native.eventsDropped + facade.native.events.length =
      facade.native.eventSeq := hps.numbered.total
  have hkept := h.announced.kept
  have hsnapshot : facade'.observations.snapshots arena.definition.arenaId =
      some (hostPlan instanceIdOverride plan).snapshot := by
    rw [← harena]
    exact HashMap.insert_self ..
  rw [dropsAddUp_iff hsnapshot hhealth]
  generalize eventCapacity = capacity at hkept hhealth ⊢
  constructor
  · rintro ⟨hseq, hlength⟩ snapshot hmem
    obtain rfl := Option.some_inj.1 (hsnapshot.symm.trans hmem)
    rw [show (0 : ℕ) = facade.native.eventsDropped + (plan.traceEvents.length - 1 - capacity) by
      omega]
    exact hhealth
  · intro hdrops hsum
    change _ + (facade'.observations.log arena.definition.arenaId).dropped + _ =
      facade'.native.eventSeq at hsum
    change (facade'.observations.log arena.definition.arenaId).dropped +
      (facade'.observations.queue arena.definition.arenaId).length = facade'.native.eventSeq
        at htotal
    omega

/-- After a matched report the counts add up exactly when the kernel drops nothing for it. -/
theorem InStep.reported_iff {facade : Facade F} (h : InStep arena facade) {env : Env}
    {observation : UsageObservation} {recent : RecentUsage}
    (hrecent : facade.native.recentUsage observation.requestId = some recent)
    (hstep : StepOutcome P arena facade.native (.recordUsage env observation) none
      (ContextLease.reported arena env observation recent facade.native)) :
    let facade' : Facade F :=
      { native := ContextLease.reported arena env observation recent facade.native
        observations := Facade.synchronize arena instanceIdOverride
          (ContextLease.reported arena env observation recent facade.native) facade.observations }
    (facade.native.eventSeq < eventCapacity → NoneDropped arena facade') ∧
      (¬ facade.native.eventSeq < eventCapacity → ¬ DropsAddUp arena facade') := by
  intro facade'
  obtain ⟨ps, hps⟩ := h.invariant
  have hevents := hstep.eventInvariant hps
  have hannounced := hstep.announced hps h.announced
  have hseq : facade'.native.eventSeq = facade.native.eventSeq + 1 := rfl
  have hdropped : facade'.native.eventsDropped + facade'.native.events.length =
      facade'.native.eventSeq := hevents.numbered.total
  have hkept : facade'.native.events.length = min eventCapacity facade'.native.eventSeq :=
    hannounced.kept
  -- the kernel has a snapshot, which is published
  obtain ⟨latest, hlatest⟩ : ∃ latest, facade'.native.latestSnapshot = some latest := by
    have hbefore := h.announced.remembered observation.requestId (by rw [hrecent]; rfl)
    obtain ⟨earlier, hearlier⟩ := Option.isSome_iff_exists.1 hbefore
    exact ⟨_, by rw [show facade'.native.latestSnapshot = facade.native.latestSnapshot.map _
      from rfl, hearlier, Option.map_some]⟩
  have hsnapshot : facade'.observations.snapshots arena.definition.arenaId =
      some (hostSnapshot (publishedInstance instanceIdOverride latest.instanceId) latest) := by
    change (Facade.synchronize arena instanceIdOverride facade'.native
      facade.observations).snapshots _ = _
    rw [← hannounced.snapshot latest hlatest, Facade.synchronize, hlatest]
    exact HashMap.insert_self ..
  have hhealth : latest.health.get "events_dropped" =
      some (.ofInt facade'.native.eventsDropped) := hevents.health latest hlatest
  rw [dropsAddUp_iff hsnapshot hhealth]
  constructor
  · intro hfew snapshot hmem
    obtain rfl := Option.some_inj.1 (hsnapshot.symm.trans hmem)
    generalize eventCapacity = capacity at hkept hfew
    rw [show (0 : ℕ) = facade'.native.eventsDropped by omega]
    exact hhealth
  · intro hmany hsum
    obtain ⟨hlog, hids, hseqs⟩ := h.rawEvents instanceIdOverride hevents hannounced hseq
    generalize reportEvents arena instanceIdOverride facade'.native facade.observations = raw at *
    have hlength : raw.length = min 1000 (facade.native.eventSeq + 1 -
        firstRepublished facade arena.definition.arenaId) := by
      have := congrArg List.length hseqs
      rwa [List.length_map, List.length_range'] at this
    have hfirst : firstRepublished facade arena.definition.arenaId ≤ facade.native.eventSeq := by
      have htotal := h.numbered.total
      have hitems : (facade.observations.log arena.definition.arenaId).items =
        facade.observations.queue arena.definition.arenaId := rfl
      rw [hitems] at htotal
      rw [firstRepublished, max_le_iff]
      simp only [eventCapacity]
      omega
    have hpublished := @total_publishMany F facade.observations _
      (le_of_eq_of_le h.retained (min_le_left ..)) raw hids
    have htotal := h.numbered.total
    change (facade'.observations.log arena.definition.arenaId) = _ at hlog
    have hqueue : (facade.observations.publishMany raw).queue arena.definition.arenaId =
        facade'.observations.queue arena.definition.arenaId :=
      congrArg BoundedLog.items hlog.symm
    rw [← hlog, hqueue] at hpublished
    change _ + (facade.observations.queue arena.definition.arenaId).length = _ at htotal
    generalize eventCapacity = capacity at hkept hmany
    omega

section Runs

variable (P arena instanceIdOverride)

omit [FloatOps F] in
/-- A call that the kernel matches with a remembered request meets no more than a page of events. -/
def KeepsWithinPage (facade : Facade F) : FacadeCall F → Prop
  | .prepare .. => True
  | .recordUsage _ observation => facade.native.Matches observation → WithinPage facade

variable {arena} in
/-- Every call within a page keeps the store in step. -/
theorem InStep.step {facade : Facade F} (h : InStep arena facade) (call : FacadeCall F)
    (hcall : KeepsWithinPage facade call) :
    InStep arena (facade.step P arena instanceIdOverride call) := by
  cases call with
  | prepare beginEnv commitEnv request counter provider =>
      rw [Facade.step]
      rcases facade.prepare_cases P arena instanceIdOverride beginEnv commitEnv request counter
          provider with ⟨error, hprepare⟩ | ⟨op, plan, native, -, houtcome, hprepare⟩
      · rw [hprepare]
        exact h
      · rw [hprepare]
        exact h.published instanceIdOverride houtcome
  | recordUsage env observation =>
      rw [Facade.step]
      by_cases hmatches : facade.native.Matches observation
      · obtain ⟨recent, -, houtcome, hrecorded⟩ := Facade.recordUsage_of_matches P arena
          instanceIdOverride env hmatches
        rw [hrecorded]
        exact h.reported (hcall hmatches) houtcome rfl
      · rw [Facade.recordUsage_of_not_matches arena instanceIdOverride env hmatches]
        exact h

/-- Through every sequence of calls, successful or failed, the queue of the store is a block of
consecutive numbers that ends at the event counter of the kernel, exactly when no matched usage
report meets more than a page of events: the store keeps no more than ten thousand, or the kernel
has not emitted more. -/
theorem mirrors_iff (maxEvents : ℕ+) (calls : List (FacadeCall F)) :
    (∀ done, done <+: calls →
        Mirrors arena (Facade.run P arena instanceIdOverride maxEvents done)) ↔
      ∀ done call, done ++ [call] <+: calls →
        KeepsWithinPage (Facade.run P arena instanceIdOverride maxEvents done) call := by
  refine @forall_prefix_iff _ _ (Facade.step P arena instanceIdOverride) (InStep arena)
    (Mirrors arena) KeepsWithinPage (fun _ h => h.mirrors)
    (fun _ call h => h.step P instanceIdOverride call) ?_ _ (InStep.init maxEvents) calls
  intro facade call h hcall
  cases call with
  | prepare beginEnv commitEnv request counter provider => exact absurd trivial hcall
  | recordUsage env observation =>
      obtain ⟨hmatches, hpage⟩ := Classical.not_imp.1 hcall
      obtain ⟨recent, -, houtcome, hrecorded⟩ := Facade.recordUsage_of_matches P arena
        instanceIdOverride env hmatches
      rw [Facade.step, hrecorded]
      exact h.not_mirrors hpage houtcome rfl

/-- The kernel tells of no drops after a call that succeeds: neither has its ring overflowed before,
nor does the call overflow it alone before it takes its snapshot. -/
def DropsNothing (facade : Facade F) : FacadeCall F → Prop
  | .prepare beginEnv commitEnv request counter provider =>
      ∀ plan, (facade.prepare P arena instanceIdOverride beginEnv commitEnv request counter
          provider).1 = .ok plan →
        facade.native.eventSeq ≤ eventCapacity ∧ plan.traceEvents.length ≤ eventCapacity + 1
  | .recordUsage _ observation =>
      facade.native.Matches observation → facade.native.eventSeq < eventCapacity

/-- Through every sequence of calls what the store reports as dropped and the events that it holds
add up to the number of the last event exactly when the kernel itself has dropped nothing when a
plan or a matched usage report brings its count. -/
theorem drops_add_up_iff (maxEvents : ℕ+) (calls : List (FacadeCall F)) :
    (∀ done, done <+: calls →
        DropsAddUp arena (Facade.run P arena instanceIdOverride maxEvents done)) ↔
      ∀ done call, done ++ [call] <+: calls →
        DropsNothing P arena instanceIdOverride
          (Facade.run P arena instanceIdOverride maxEvents done) call := by
  refine @forall_prefix_iff _ _ (Facade.step P arena instanceIdOverride)
    (fun facade => InStep arena facade ∧ NoneDropped arena facade) (DropsAddUp arena)
    (DropsNothing P arena instanceIdOverride) (fun _ h => h.1.dropsAddUp h.2) ?_ ?_ _
    ⟨InStep.init maxEvents, fun snapshot hsnapshot => by cases hsnapshot⟩ calls
  · rintro facade call ⟨h, hnone⟩ hcall
    cases call with
    | prepare beginEnv commitEnv request counter provider =>
        rw [Facade.step]
        rcases facade.prepare_cases P arena instanceIdOverride beginEnv commitEnv request counter
            provider with
          ⟨error, hprepare⟩ | ⟨op, plan, native, -, houtcome, hprepare⟩
        · rw [hprepare]
          exact ⟨h, hnone⟩
        · have hfew := hcall _ (congrArg Prod.fst hprepare)
          rw [show (hostPlan instanceIdOverride plan).traceEvents.length = plan.traceEvents.length
            from List.length_map _] at hfew
          rw [hprepare]
          exact ⟨h.published instanceIdOverride houtcome, (h.published_iff houtcome).1 hfew⟩
    | recordUsage env observation =>
        rw [Facade.step]
        by_cases hmatches : facade.native.Matches observation
        · obtain ⟨recent, hrecent, houtcome, hrecorded⟩ := Facade.recordUsage_of_matches P arena
            instanceIdOverride env hmatches
          have hfew : facade.native.eventSeq < 10000 := hcall hmatches
          rw [hrecorded]
          exact ⟨h.reported (Or.inr hfew.le) houtcome rfl, (h.reported_iff hrecent houtcome).1 hfew⟩
        · rw [Facade.recordUsage_of_not_matches arena instanceIdOverride env hmatches]
          exact ⟨h, hnone⟩
  · rintro facade call ⟨h, hnone⟩ hcall
    cases call with
    | prepare beginEnv commitEnv request counter provider =>
        rw [Facade.step]
        rcases facade.prepare_cases P arena instanceIdOverride beginEnv commitEnv request counter
            provider with
          ⟨error, hprepare⟩ | ⟨op, plan, native, -, houtcome, hprepare⟩
        · refine absurd (fun plan hplan => ?_) hcall
          rw [hprepare] at hplan
          cases hplan
        · rw [hprepare]
          refine (h.published_iff houtcome).2 fun hfew => hcall fun plan' hplan' => ?_
          rw [hprepare] at hplan'
          obtain rfl := Except.ok.inj hplan'
          rw [show (hostPlan instanceIdOverride plan).traceEvents.length = plan.traceEvents.length
            from List.length_map _]
          exact hfew
    | recordUsage env observation =>
        obtain ⟨hmatches, hmany⟩ := Classical.not_imp.1 hcall
        obtain ⟨recent, hrecent, houtcome, hrecorded⟩ := Facade.recordUsage_of_matches P arena
            instanceIdOverride env hmatches
        rw [Facade.step, hrecorded]
        exact (h.reported_iff hrecent houtcome).2 hmany

end Runs

/-! ### A long run -/

/-- The example request under a name. -/
def againRequest : PrepareRequest ℚ := { exampleRequest with requestId := some "again" }

/-- The call for it, which asks nobody for a summary. -/
def again : FacadeCall ℚ :=
  .prepare default default againRequest none fun item => .error (.provider item.providerId)

/-- The call of the kernel. -/
def againCall : Call ℚ := ⟨default, againRequest, [], none⟩

theorem again_decided :
    ∃ decided, againCall.decision (Library.ascii id).release exampleArena {} = .ok decided := by
  have hrendered : ((againCall.decision (Library.ascii id).release exampleArena {}).map
      fun decided => decided.2.rendered).toOption =
        some "Answer in one sentence.\n\nWe met on Monday. Bye" := by decide +kernel
  obtain ⟨decided, hdecided, -⟩ := exists_ok_of_map hrendered
  exact ⟨decided, hdecided⟩

theorem again_asks_nobody :
    planSemanticRequests (Library.ascii id).release exampleArena againRequest none
      (safetyMultiplier {} againRequest.model) = .ok [] := by
  have hnone : ((planSemanticRequests (Library.ascii id).release exampleArena againRequest none
      (safetyMultiplier {} againRequest.model)).map List.length).toOption = some 0 := by
    decide +kernel
  obtain ⟨requests, hrequests, hlength⟩ := exists_ok_of_map hnone
  rw [hrequests, List.length_eq_zero_iff.1 hlength]

theorem again_named (seq : ℕ) : requestName exampleArena againRequest seq = "again" := by
  have hblank : ¬ isBlank "again" = true := by decide +kernel
  change (if isBlank "again" = true then exampleArena.definition.arenaId ++ ":" ++ toString seq
    else "again") = "again"
  rw [if_neg hblank]

theorem safetyMultiplier_of_empty {s : ArenaState ℚ} (h : s.calibrations = HashMap.empty)
    (model : ModelProfile) : safetyMultiplier s model = safetyMultiplier {} model := by
  rw [safetyMultiplier, h]
  rfl

/-- As long as no usage is reported the kernel prepares the call again. -/
theorem again_prepared {s : ArenaState ℚ} (h : s.calibrations = HashMap.empty) :
    ∃ admission settled,
      againCall.decision (Library.ascii id).release exampleArena s = .ok (admission, settled) ∧
      prepareWithResults (Library.ascii id).release exampleArena default againRequest [] none s =
        (.ok (againCall.plan (Library.ascii id).release exampleArena admission settled s),
          againCall.committed (Library.ascii id).release exampleArena admission settled s) := by
  obtain ⟨⟨admission, settled⟩, hdecided⟩ := again_decided
  have hagain : againCall.decision (Library.ascii id).release exampleArena s =
      .ok (admission, settled) := by
    rw [← hdecided, Call.decision, Call.decision]
    exact congrArg _ (safetyMultiplier_of_empty h againRequest.model)
  have hcall : prepareWithResults (Library.ascii id).release exampleArena againCall.env
      againCall.request againCall.results againCall.counter s = _ :=
    prepareWithResults_eq againCall s
  rw [hagain] at hcall
  exact ⟨admission, settled, hagain, hcall⟩

/-- As long as no usage is reported the call succeeds again. -/
theorem again_step {facade : Facade ℚ} (h : facade.native.calibrations = HashMap.empty) :
    ∃ admission settled,
      againCall.decision (Library.ascii id).release exampleArena facade.native =
        .ok (admission, settled) ∧
      facade.prepare (Library.ascii id).release exampleArena none default default againRequest none
          (fun item => .error (.provider item.providerId)) =
        (.ok (hostPlan none (againCall.plan
          (Library.ascii id).release exampleArena admission settled
            facade.native)),
          { native := againCall.committed (Library.ascii id).release exampleArena admission settled
              facade.native
            observations := (facade.observations.publishMany (hostPlan none (againCall.plan
              (Library.ascii id).release exampleArena admission settled
                facade.native)).traceEvents).publishSnapshot (hostPlan none (againCall.plan
                  (Library.ascii id).release exampleArena admission settled
                    facade.native)).snapshot }) := by
  obtain ⟨admission, settled, hdecided, hprepared⟩ := again_prepared h
  refine ⟨admission, settled, hdecided, ?_⟩
  have hbegin : prepareBegin (Library.ascii id).release exampleArena default againRequest none
      facade.native = (.ok ⟨"ready", some (againCall.plan (Library.ascii id).release exampleArena
        admission settled facade.native), []⟩, againCall.committed (Library.ascii id).release
          exampleArena admission settled facade.native) := by
    rw [prepareBegin, safetyMultiplier_of_empty h, again_asks_nobody]
    simp only [hprepared]
  rw [Facade.prepare, prepareNative, hbegin]
  rfl

/-- The calls one after the other. -/
theorem again_run (maxEvents : ℕ+) (n : ℕ) :
    let facade := Facade.run (Library.ascii id).release exampleArena none maxEvents
      (List.replicate n again)
    InStep exampleArena facade ∧ facade.observations.maxEvents = maxEvents ∧
      facade.native.calibrations = HashMap.empty ∧ n ≤ facade.native.eventSeq ∧
      ∃ q, facade.native.Holds q ∧ (0 < n → (q.get "again").isSome = true) := by
  induction n with
  | zero =>
      exact ⟨InStep.init maxEvents, rfl, rfl, Nat.zero_le _, .empty, ArenaState.Holds.init,
        fun h => absurd h (lt_irrefl 0)⟩
  | succ n ih =>
      obtain ⟨hstep, hmax, hcalibrations, hseq, q, hq, -⟩ := ih
      rw [List.replicate_succ', Facade.run, List.foldl_append, List.foldl_cons, List.foldl_nil,
        ← Facade.run]
      generalize Facade.run (Library.ascii id).release exampleArena none maxEvents
        (List.replicate n again) = facade at hstep hmax hcalibrations hseq hq ⊢
      obtain ⟨admission, settled, hdecided, hprepare⟩ := again_step hcalibrations
      have hnext := hstep.step (Library.ascii id).release none again trivial
      rw [again, Facade.step, hprepare] at hnext ⊢
      have houtcome : StepOutcome (Library.ascii id).release exampleArena facade.native
          (.prepare default againRequest none) _ _ :=
        .prepared (show Op.call _ = some againCall from rfl) hdecided
      obtain ⟨ps, hps⟩ := hstep.invariant
      obtain ⟨-, hlast⟩ := houtcome.trace hps
      have hsome := List.length_pos_iff.2 houtcome.plan.2.2.2
      refine ⟨hnext, ?_, ?_, ?_, _, againCall.committed_holds hq admission settled, fun _ => ?_⟩
      · rw [ObservationStore.maxEvents_publishSnapshot, ObservationStore.maxEvents_publishMany,
          hmax]
      · rw [calibrations_committed, hcalibrations]
      · rw [hlast]
        omega
      · have hname : (againCall.plan (Library.ascii id).release exampleArena admission settled
            facade.native).requestId = "again" :=
          again_named (facade.native.requestSeq + 1)
        rw [hname, BoundedQueue.get_enqueue_self (by decide)]
        rfl

/-- With a store of twenty thousand events the report after ten thousand and one calls publishes
again what the store already holds. -/
theorem report_republishes :
    ¬ Mirrors exampleArena (Facade.run (Library.ascii id).release exampleArena none 20000
      (List.replicate 10001 again ++ [.recordUsage default ⟨"again", 10⟩])) := by
  obtain ⟨hstep, hmax, -, hseq, q, hq, hremembered⟩ := again_run 20000 10001
  rw [Facade.run, List.foldl_append, List.foldl_cons, List.foldl_nil, ← Facade.run]
  generalize Facade.run (Library.ascii id).release exampleArena none 20000
    (List.replicate 10001 again) = facade at hstep hmax hseq hq ⊢
  have hmatches : facade.native.Matches ⟨"again", 10⟩ := by
    refine ⟨by decide +kernel, by decide, ?_⟩
    rw [hq.table]
    exact hremembered (by omega)
  obtain ⟨recent, -, houtcome, hrecorded⟩ := Facade.recordUsage_of_matches
    (Library.ascii id).release exampleArena none default hmatches
  rw [Facade.step, hrecorded]
  refine hstep.not_mirrors ?_ houtcome rfl
  rw [WithinPage, not_or, not_le, not_le, hmax]
  exact ⟨by decide, by omega⟩

/-- With a store of ten thousand events the snapshot of the call after ten thousand and one calls
counts what both the kernel and the store have dropped twice. -/
theorem drops_counted_twice :
    ¬ DropsAddUp exampleArena (Facade.run (Library.ascii id).release exampleArena none 10000
      (List.replicate 10001 again ++ [again])) := by
  obtain ⟨hstep, -, hcalibrations, hseq, -⟩ := again_run 10000 10001
  rw [Facade.run, List.foldl_append, List.foldl_cons, List.foldl_nil, ← Facade.run]
  generalize Facade.run (Library.ascii id).release exampleArena none 10000
    (List.replicate 10001 again) = facade at hstep hcalibrations hseq ⊢
  obtain ⟨admission, settled, hdecided, hprepare⟩ := again_step hcalibrations
  have houtcome : StepOutcome (Library.ascii id).release exampleArena facade.native
      (.prepare default againRequest none) _ _ :=
    .prepared (show Op.call _ = some againCall from rfl) hdecided
  rw [again, Facade.step, hprepare]
  refine (hstep.published_iff houtcome).2 ?_
  intro hfew
  simp only [eventCapacity] at hfew
  omega

end ContextLease
