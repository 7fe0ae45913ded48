/-
The stream of a package arena.

A stream delivers in order what is published in order.  The package publishes the events of each
plan and of each usage report one after the other, numbered as the kernel emits them, so they come
in order unless a report publishes old events again.  It does so exactly when it meets more than a
page of events.

Main definitions:

* `Facade.published` — what a call publishes;
* `Facade.publications` — what a sequence of calls publishes.

Main results:

* `observations_run` — the store holds what has been published to it;
* `InStep.published_seqs` — the next call goes on from the last number;
* `publishes_in_order` — calls that keep within a page publish in order;
* `facade_stream_delivers` — a stream of such an arena goes on from what its consumer has received.
-/

import ContextLease.EventStream
import ContextLease.Mirror

set_option relaxedAutoImplicit false
set_option autoImplicit false

namespace ContextLease

open MachineNumbers RustText

variable {F : Type}

/-! ### What is published -/

theorem eventsOf_map_event {arenaId : String} {events : List TraceEvent}
    (h : ∀ event ∈ events, event.arenaId = arenaId) :
    eventsOf arenaId (events.map (Publication.event (F := F))) = events := by
  induction events with
  | nil => rfl
  | cons event events ih =>
      rw [List.forall_mem_cons] at h
      rw [List.map_cons, eventsOf, if_pos h.1, ih h.2]

theorem eventsOf_map_snapshot {arenaId : String} (snapshots : List (ArenaSnapshot F)) :
    eventsOf arenaId (snapshots.map Publication.snapshot) = [] := by
  induction snapshots with
  | nil => rfl
  | cons snapshot snapshots ih => exact ih

/-- Publishing events one after the other. -/
theorem ObservationStore.foldl_publish_event (store : ObservationStore F)
    (events : List TraceEvent) :
    (events.map Publication.event).foldl ObservationStore.publish store =
      store.publishMany events :=
  List.foldl_map

variable [FloatOps F]

section Calls

variable (P : Platform) (arena : ContextLeaseArena F) (instanceIdOverride : Option String)

namespace Facade

variable (facade : Facade F)

/-- What a call publishes: the events and the snapshot of a plan, or what follows a usage report. -/
def published : FacadeCall F → List (Publication F)
  | .prepare beginEnv commitEnv request counter provider =>
      match (facade.prepare P arena instanceIdOverride beginEnv commitEnv request counter
          provider).1 with
      | .error _ => []
      | .ok plan => plan.traceEvents.map .event ++ [plan.snapshot].map .snapshot
  | .recordUsage env observation =>
      match ContextLease.recordUsage arena env observation facade.native with
      | (.error _, _) => []
      | (.ok _, native) =>
          (reportEvents arena instanceIdOverride native facade.observations).map .event ++
            (native.latestSnapshot.map fun snapshot =>
              hostSnapshot (publishedInstance instanceIdOverride snapshot.instanceId)
                snapshot).toList.map .snapshot

/-- What a sequence of calls publishes. -/
def publications (facade : Facade F) : List (FacadeCall F) → List (Publication F)
  | [] => []
  | call :: calls =>
      facade.published P arena instanceIdOverride call ++
        (facade.step P arena instanceIdOverride call).publications calls

/-- A call leaves the store with what it publishes. -/
theorem observations_step (call : FacadeCall F) :
    (facade.step P arena instanceIdOverride call).observations =
      (facade.published P arena instanceIdOverride call).foldl ObservationStore.publish
        facade.observations := by
  cases call with
  | prepare beginEnv commitEnv request counter provider =>
      rw [step, published]
      rcases facade.prepare_cases P arena instanceIdOverride beginEnv commitEnv request counter
          provider with ⟨error, hprepare⟩ | ⟨op, plan, native, -, -, hprepare⟩
      · rw [hprepare]
        rfl
      · rw [hprepare]
        simp only [List.foldl_append, ObservationStore.foldl_publish_event]
        rfl
  | recordUsage env observation =>
      rw [step, published, recordUsage]
      rcases ContextLease.recordUsage arena env observation facade.native with ⟨_ | _, native⟩
      · rfl
      · simp only [List.foldl_append, ObservationStore.foldl_publish_event]
        cases hlatest : native.latestSnapshot <;>
          simp only [synchronize, reportEvents, hlatest] <;> rfl

/-- A sequence of calls leaves the store with what they publish. -/
theorem observations_run (maxEvents : ℕ+) (calls : List (FacadeCall F)) :
    (run P arena instanceIdOverride maxEvents calls).observations =
      storeAfter maxEvents
        (publications P arena instanceIdOverride { observations := { maxEvents } } calls) := by
  have hrun : ∀ facade : Facade F,
      (calls.foldl (step P arena instanceIdOverride) facade).observations =
        (facade.publications P arena instanceIdOverride calls).foldl ObservationStore.publish
          facade.observations := by
    induction calls with
    | nil => exact fun facade => rfl
    | cons call calls ih =>
        intro facade
        rw [List.foldl_cons, ih, publications, List.foldl_append, observations_step]
  exact hrun _

end Facade

variable {arena}

/-- A call that keeps within a page publishes the next events of the kernel. -/
theorem InStep.published_seqs {facade : Facade F} (h : InStep arena facade) (call : FacadeCall F)
    (hcall : KeepsWithinPage facade call) :
    ∃ n, (eventsOf arena.definition.arenaId
        (facade.published P arena instanceIdOverride call)).map TraceEvent.seq =
          List.range' (facade.native.eventSeq + 1) n ∧
      (facade.step P arena instanceIdOverride call).native.eventSeq =
        facade.native.eventSeq + n := by
  obtain ⟨ps, hps⟩ := h.invariant
  cases call with
  | prepare beginEnv commitEnv request counter provider =>
      rw [Facade.step, Facade.published]
      rcases facade.prepare_cases P arena instanceIdOverride beginEnv commitEnv request counter
          provider with ⟨error, hprepare⟩ | ⟨op, plan, native, -, houtcome, hprepare⟩
      · rw [hprepare]
        exact ⟨0, rfl, rfl⟩
      · obtain ⟨hseqs, hlast⟩ := houtcome.trace hps
        have hids := arenaId_hostEvent (publishedInstance instanceIdOverride plan.instanceId)
          houtcome.plan.1
        rw [hprepare]
        refine ⟨plan.traceEvents.length, ?_, hlast⟩
        simp only [eventsOf_append, eventsOf_map_snapshot, List.append_nil]
        rw [hostPlan, eventsOf_map_event hids, map_seq_hostEvent, hseqs]
  | recordUsage env observation =>
      rw [Facade.step, Facade.published]
      by_cases hmatches : facade.native.Matches observation
      · obtain ⟨recent, hrecent, houtcome, hrecorded⟩ := Facade.recordUsage_of_matches P arena
          instanceIdOverride env hmatches
        obtain ⟨recent', value, hrecent', hmatched⟩ := recordUsage_matched arena env hmatches
        obtain rfl := Option.some_inj.1 (hrecent.symm.trans hrecent')
        have hevents := houtcome.eventInvariant hps
        have hannounced := houtcome.announced hps h.announced
        have hids := (h.rawEvents instanceIdOverride hevents hannounced rfl).2.1
        rw [hrecorded, hmatched]
        refine ⟨1, ?_, rfl⟩
        simp only [eventsOf_append, eventsOf_map_snapshot, List.append_nil]
        rw [eventsOf_map_event hids,
          h.reportEvents_seq instanceIdOverride (hcall hmatches) hevents hannounced rfl,
          List.range'_one]
      · obtain ⟨error, hrefused⟩ := recordUsage_refused arena env hmatches
        rw [Facade.recordUsage_of_not_matches arena instanceIdOverride env hmatches, hrefused]
        exact ⟨0, rfl, rfl⟩

/-- Calls that keep within a page publish the next events of the kernel, one after the other. -/
theorem InStep.publications_seqs {facade : Facade F} (h : InStep arena facade)
    {calls : List (FacadeCall F)}
    (hcalls : ∀ done call, done ++ [call] <+: calls →
      KeepsWithinPage (done.foldl (Facade.step P arena instanceIdOverride) facade) call) :
    ∃ n, (eventsOf arena.definition.arenaId
        (facade.publications P arena instanceIdOverride calls)).map TraceEvent.seq =
          List.range' (facade.native.eventSeq + 1) n := by
  induction calls generalizing facade with
  | nil => exact ⟨0, rfl⟩
  | cons call calls ih =>
      obtain ⟨hcall, hrest⟩ := (forall_step_cons (Facade.step P arena instanceIdOverride)
        KeepsWithinPage facade call calls).1 hcalls
      obtain ⟨n, hseqs, hlast⟩ := h.published_seqs P instanceIdOverride call hcall
      obtain ⟨k, hlater⟩ := ih (h.step P instanceIdOverride call hcall) hrest
      refine ⟨n + k, ?_⟩
      rw [Facade.publications, eventsOf_append, List.map_append, hseqs, hlater, hlast,
        show facade.native.eventSeq + n + 1 = facade.native.eventSeq + 1 + n by omega,
        List.range'_append_1]

/-- Calls that keep within a page publish the events of the arena in the order of their numbers. -/
theorem publishes_in_order (maxEvents : ℕ+) {calls : List (FacadeCall F)}
    (hcalls : ∀ done call, done ++ [call] <+: calls →
      KeepsWithinPage (Facade.run P arena instanceIdOverride maxEvents done) call) :
    PublishedInOrder arena.definition.arenaId
      (Facade.publications P arena instanceIdOverride { observations := { maxEvents } } calls) := by
  obtain ⟨n, hseqs⟩ := (InStep.init maxEvents).publications_seqs P instanceIdOverride hcalls
  have hsorted := hseqs ▸ List.pairwise_lt_range'
  exact (List.pairwise_map.1 hsorted).imp Int.ofNat_lt.2

/-- When the calls of a package arena keep within a page, a stream of the arena goes on from what
its consumer has received, wherever it stands between the publications and however often the
consumer connects again. -/
theorem facade_stream_delivers (maxEvents : ℕ+) {calls : List (FacadeCall F)}
    (hcalls : ∀ done call, done ++ [call] <+: calls →
      KeepsWithinPage (Facade.run P arena instanceIdOverride maxEvents done) call)
    {start : ℤ} {steps : List (StreamStep F)}
    (hsteps : publicationsOf steps <+:
      Facade.publications P arena instanceIdOverride { observations := { maxEvents } } calls)
    {w : StreamWorld F}
    (hrun : (StreamWorld.connected maxEvents start).run arena.definition.arenaId start steps =
      some w) :
    w.Delivers maxEvents arena.definition.arenaId start (publicationsOf steps) := by
  refine StreamWorld.delivers hrun ?_
  obtain ⟨rest, hrest⟩ := hsteps
  have horder := publishes_in_order P instanceIdOverride maxEvents hcalls
  rw [← hrest, PublishedInOrder, eventsOf_append] at horder
  exact (List.pairwise_append.1 horder).1

end Calls

end ContextLease
