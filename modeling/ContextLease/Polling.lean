/-
Polling the events of an arena.

A consumer polls the debug server with the number of the last event it has seen.  The server reads
the events after that number and then, with the lock released in between, the oldest number that
the store still has; from the second it tells the consumer whether to start over.  Whatever is
published between its reads, a consumer that is not told to start over has missed nothing.

Main definitions:

* `Publication`, `ObservationStore.publish` — what is published to the store;
* `eventsEndpoint` — the answer of the server, from the stores that its reads meet.

Main results:

* `filter_gt_drop`, `map_filter_gt` — what a list of consecutive numbers has after a number;
* `ObservationStore.queue_publish` — the store keeps the end of what was published for an arena;
* `polling_misses_nothing` — an answer without a reset has the next events.
-/

import ContextLease.Observation

set_option relaxedAutoImplicit false
set_option autoImplicit false

/-! ### Consecutive numbers -/

section Consecutive

variable {α : Type} {number : α → ℕ} {start n : ℕ}

/-- A part of a list that ends with the list has the same entries after a number, if only entries up
to that number come before it. -/
theorem filter_gt_drop {l : List α} (hl : l.map number = List.range' start l.length) {k : ℕ}
    (hk : start + k ≤ n + 1) :
    (l.drop k).filter (fun a => n < number a) = l.filter fun a => n < number a := by
  have hbefore : (l.take k).filter (fun a => n < number a) = [] := by
    refine List.filter_eq_nil_iff.2 ?_
    intro a ha
    obtain ⟨i, hi, rfl⟩ := List.mem_take_iff_getElem.1 ha
    have hnumber : (l.map number)[i]? = some (start + i) := by
      rw [hl, List.getElem?_range' (by omega), one_mul]
    rw [List.getElem?_map, List.getElem?_eq_getElem (by omega), Option.map_some,
      Option.some_inj] at hnumber
    rw [decide_eq_true_eq]
    omega
  calc (l.drop k).filter (fun a => n < number a)
      = (l.take k ++ l.drop k).filter fun a => n < number a := by
        rw [List.filter_append, hbefore, List.nil_append]
    _ = l.filter fun a => n < number a := by rw [List.take_append_drop]

/-- The entries after a number are consecutive from the next one on. -/
theorem map_filter_gt {l : List α} (hl : l.map number = List.range' start l.length)
    (hstart : start ≤ n + 1) :
    (l.filter fun a => n < number a).map number =
      List.range' (n + 1) (l.filter fun a => n < number a).length := by
  induction l generalizing start with
  | nil => rfl
  | cons a l ih =>
      rw [List.map_cons, List.length_cons, List.range'_succ, List.cons.injEq] at hl
      obtain ⟨rfl, hl⟩ := hl
      by_cases ha : n < number a
      · -- all numbers come after `n`
        have hall : (a :: l).filter (fun b => n < number b) = a :: l := by
          refine List.filter_eq_self.2 fun b hb => decide_eq_true ?_
          rcases List.mem_cons.1 hb with rfl | hb
          · exact ha
          · have hnumber : number b ∈ l.map number := List.mem_map_of_mem hb
            rw [hl, List.mem_range'_1] at hnumber
            omega
        have hnext : number a = n + 1 := by omega
        rw [hall, List.map_cons, hl, List.length_cons, List.range'_succ, hnext]
      · rw [List.filter_cons_of_neg (by simpa using ha)]
        exact ih hl (by omega)

end Consecutive

namespace ContextLease

open MachineNumbers RustText

variable {F : Type}

/-! ### What is published -/

/-- What is published to the store. -/
inductive Publication (F : Type)
  | event (event : TraceEvent)
  | snapshot (snapshot : ArenaSnapshot F)

/-- The events among the publications of an arena. -/
def eventsOf (arenaId : String) : List (Publication F) → List TraceEvent
  | [] => []
  | .event event :: publications =>
      if event.arenaId = arenaId then event :: eventsOf arenaId publications
      else eventsOf arenaId publications
  | .snapshot _ :: publications => eventsOf arenaId publications

theorem eventsOf_append (arenaId : String) (publications later : List (Publication F)) :
    eventsOf arenaId (publications ++ later) =
      eventsOf arenaId publications ++ eventsOf arenaId later := by
  induction publications with
  | nil => rfl
  | cons publication publications ih =>
      cases publication with
      | event event =>
          rw [List.cons_append, eventsOf, eventsOf, ih]
          split <;> rfl
      | snapshot snapshot => exact ih

namespace ObservationStore

variable (store : ObservationStore F)

/-- One publication. -/
def publish : Publication F → ObservationStore F
  | .event event => store.publishEvent event
  | .snapshot snapshot => store.publishSnapshot snapshot

/-- The source's `minimum_event_seq`. -/
def minimumEventSeq (arenaId : String) : Option ℕ :=
  (store.queue arenaId).head?.map TraceEvent.seq

/-- The source's `events_after` on the integers of a query. -/
def eventsFor (arenaId : String) (afterSeq limit : ℤ) : List TraceEvent :=
  ((store.queue arenaId).filter fun event => afterSeq < event.seq).take
    (max 1 (min limit 10000)).toNat

/-- On natural numbers these are the events that the package itself asks for. -/
theorem eventsFor_natCast (arenaId : String) (afterSeq limit : ℕ) :
    store.eventsFor arenaId afterSeq limit = store.eventsAfter arenaId afterSeq limit := by
  have hlimit : (max 1 (min (limit : ℤ) 10000)).toNat = max 1 (min limit 10000) := by omega
  simp only [eventsFor, eventsAfter, hlimit, Nat.cast_lt]

/-- An event leaves the logs of the other arenas alone. -/
theorem log_publishEvent_of_ne {event : TraceEvent} {arenaId : String}
    (h : event.arenaId ≠ arenaId) : (store.publishEvent event).log arenaId = store.log arenaId := by
  rw [publishEvent]
  split
  · simp only [log, queue, HashMap.insert_of_ne _ _ h.symm]
  · simp only [log, queue, HashMap.insert_of_ne _ _ h.symm]

/-- The log of an arena after publications. -/
theorem log_publish (publications : List (Publication F)) (arenaId : String) :
    (publications.foldl publish store).maxEvents = store.maxEvents ∧
      (publications.foldl publish store).log arenaId =
        (eventsOf arenaId publications).foldl (BoundedLog.push store.maxEvents)
          (store.log arenaId) := by
  induction publications generalizing store with
  | nil => exact ⟨rfl, rfl⟩
  | cons publication publications ih =>
      obtain ⟨hmax, hlog⟩ := ih (store.publish publication)
      rw [List.foldl_cons, hmax, hlog]
      cases publication with
      | snapshot snapshot => exact ⟨rfl, rfl⟩
      | event event =>
          rw [publish, eventsOf, maxEvents_publishEvent]
          refine ⟨rfl, ?_⟩
          by_cases hevent : event.arenaId = arenaId
          · subst hevent
            rw [if_pos rfl, List.foldl_cons, log_publishEvent]
          · rw [if_neg hevent, log_publishEvent_of_ne store hevent]

/-- The store keeps the end of what was published for an arena. -/
theorem queue_publish (maxEvents : ℕ+) (publications : List (Publication F)) (arenaId : String) :
    (publications.foldl publish { maxEvents }).queue arenaId =
      (eventsOf arenaId publications).drop
        ((eventsOf arenaId publications).length - maxEvents) := by
  have hlog := (log_publish (F := F) { maxEvents } publications arenaId).2
  rw [BoundedLog.foldl_push maxEvents.pos (Nat.zero_le _)] at hlog
  have hqueue := congrArg BoundedLog.items hlog
  simpa only [log, queue, HashMap.empty, Option.getD_none, List.nil_append, List.length_nil,
    Nat.zero_add] using hqueue

end ObservationStore

/-! ### The events endpoint -/

/-- What the server answers to a poll. -/
structure EventsPage where
  schemaVersion : String := "1.0"
  resetRequired : Bool
  minimumSeq : Option ℕ
  items : List TraceEvent

/-- The source's `reset_required`. -/
def needsReset (afterSeq : ℤ) : Option ℕ → Bool
  | none => false
  | some minimum => decide (¬ (afterSeq = 0 ∨ afterSeq = minimum - 1) ∧ afterSeq < minimum)

/-- The events endpoint of the source's `do_GET`.  It takes the lock of the store for the snapshot,
for the events and for the oldest number, and each time it may meet another store. -/
def eventsEndpoint (known polled measured : ObservationStore F) (arenaId : String)
    (afterSeq limit : ℤ) : Except String EventsPage :=
  match known.getSnapshot arenaId with
  | none => .error "arena_not_found"
  | some _ =>
      let events := polled.eventsFor arenaId afterSeq limit
      let minimum := measured.minimumEventSeq arenaId
      .ok { resetRequired := needsReset afterSeq minimum, minimumSeq := minimum, items := events }

/-- A consumer that has seen an event and is not told to start over has seen everything before the
oldest number. -/
theorem le_of_not_needsReset {n minimum : ℕ} (hn : 1 ≤ n)
    (hreset : needsReset n (some minimum) = false) : minimum ≤ n + 1 := by
  rw [needsReset, decide_eq_false_iff_not] at hreset
  omega

/-- The oldest number of the end of a list of consecutive numbers. -/
theorem map_head?_drop {l : List TraceEvent} {start k : ℕ}
    (hl : l.map TraceEvent.seq = List.range' start l.length) (hk : k < l.length) :
    (l.drop k).head?.map TraceEvent.seq = some (start + k) := by
  rw [List.head?_drop, ← List.getElem?_map, hl, List.getElem?_range' hk, one_mul]

/-- A consumer that has seen an event and is not told to start over has missed nothing: it is given
the events that were published for the arena after the last one it has seen, with consecutive
numbers from the next one on, up to the limit, and none only if there are none. -/
theorem polling_misses_nothing (maxEvents : ℕ+) (arenaId : String)
    (before between later : List (Publication F)) {start : ℕ}
    (hseq : (eventsOf arenaId (before ++ between ++ later)).map TraceEvent.seq =
      List.range' start (eventsOf arenaId (before ++ between ++ later)).length)
    {afterSeq : ℤ} (hafter : 1 ≤ afterSeq) (limit : ℤ) {page : EventsPage}
    (hpage : eventsEndpoint (before.foldl ObservationStore.publish { maxEvents })
      ((before ++ between).foldl ObservationStore.publish { maxEvents })
      ((before ++ between ++ later).foldl ObservationStore.publish { maxEvents })
      arenaId afterSeq limit = .ok page)
    (hreset : page.resetRequired = false) :
    page.items.map TraceEvent.seq =
        List.range' (afterSeq + 1).toNat page.items.length ∧
      page.items = ((eventsOf arenaId (before ++ between)).filter fun event =>
        afterSeq < event.seq).take (max 1 (min limit 10000)).toNat ∧
      (page.items = [] → ∀ event ∈ eventsOf arenaId (before ++ between),
        (event.seq : ℤ) ≤ afterSeq) := by
  obtain ⟨n, rfl⟩ := Int.eq_ofNat_of_zero_le (le_trans zero_le_one hafter)
  -- the queue that is polled, and the one whose oldest number is read
  have hpolled := ObservationStore.queue_publish maxEvents (before ++ between) arenaId
  have hmeasured := ObservationStore.queue_publish maxEvents (before ++ between ++ later) arenaId
  rw [eventsOf_append] at hseq hmeasured
  generalize eventsOf arenaId (before ++ between) = published at hseq hpolled hmeasured ⊢
  generalize eventsOf arenaId later = rest at hseq hmeasured
  have hpublished : published.map TraceEvent.seq = List.range' start published.length := by
    rw [List.map_append, List.length_append, ← List.range'_append_1] at hseq
    exact (List.append_inj hseq (by simp)).1
  rw [eventsEndpoint] at hpage
  split at hpage
  · cases hpage
  · rw [Except.ok.injEq] at hpage
    subst hpage
    simp only [ObservationStore.minimumEventSeq, hmeasured] at hreset
    -- what the store has dropped before it is polled was seen
    have hseen : published = [] ∨ start + (published.length - maxEvents) ≤ n + 1 := by
      refine or_iff_not_imp_left.2 ?_
      intro hne
      have hlength := List.length_pos_of_ne_nil hne
      have hmax := maxEvents.pos
      rw [map_head?_drop hseq (by rw [List.length_append]; omega), List.length_append] at hreset
      have hminimum := le_of_not_needsReset (by omega) hreset
      omega
    have hitems : ((published.drop (published.length - maxEvents)).filter fun event =>
        n < event.seq) = published.filter fun event => n < event.seq := by
      rcases hseen with rfl | hseen
      · rw [List.drop_nil]
      · exact filter_gt_drop hpublished hseen
    have hnumbers : (published.filter fun event => n < event.seq).map TraceEvent.seq =
        List.range' (n + 1) (published.filter fun event => n < event.seq).length := by
      rcases hseen with rfl | hseen
      · rfl
      · exact map_filter_gt hpublished (by omega)
    have hpage : ((before ++ between).foldl ObservationStore.publish { maxEvents }).eventsFor
        arenaId n limit = (published.filter fun event => n < event.seq).take
          (max 1 (min limit 10000)).toNat := by
      simp only [ObservationStore.eventsFor, hpolled, Nat.cast_lt, hitems]
    simp only [hpage, Nat.cast_lt, Nat.cast_le]
    refine ⟨?_, trivial, fun hnone event hevent => ?_⟩
    · have hnext : ((n : ℤ) + 1).toNat = n + 1 := by omega
      rw [List.map_take, hnumbers, hnext, List.length_take]
      rcases le_total (max 1 (min limit 10000)).toNat
        (published.filter fun event => n < event.seq).length with hle | hle
      · rw [List.take_range'_of_length_ge hle, min_eq_left hle]
      · rw [List.take_range'_of_length_le hle, min_eq_right hle]
    · -- a page has room for an event, so an empty one was not cut short
      by_contra hlate
      have hmem : event ∈ published.filter fun event => n < event.seq :=
        List.mem_filter.2 ⟨hevent, decide_eq_true (by omega)⟩
      rw [List.take_eq_nil_iff] at hnone
      rcases hnone with hzero | hempty
      · omega
      · rw [hempty] at hmem
        cases hmem

/-- An event of an arena with a number. -/
def numberedEvent (seq : ℕ) : TraceEvent :=
  ⟨"event", seq, "now", "arena", "instance", none, "budget.allocated", "1.0", "", "1", [], "trace"⟩

/-- A snapshot of the arena. -/
def emptySnapshot : ArenaSnapshot ℚ :=
  ⟨"1.0", "arena", "instance", 1, "now", none, "model", "tokenizer", "1", "estimated", "", "1", 100,
    10, 0, 90, 0, 90, 0, "normal", [], [], none, []⟩

/-- A store of three events is polled after the fifth event, and the eighth pushes the fifth out
before the oldest number is read. -/
theorem polling_between_events :
    let before : List (Publication ℚ) := [.snapshot emptySnapshot, .event (numberedEvent 5),
      .event (numberedEvent 6)]
    let between : List (Publication ℚ) := [.event (numberedEvent 7)]
    let later : List (Publication ℚ) := [.event (numberedEvent 8)]
    let page : EventsPage :=
      { resetRequired := false, minimumSeq := some 6, items := [numberedEvent 6, numberedEvent 7] }
    eventsEndpoint (before.foldl ObservationStore.publish { maxEvents := 3 })
        ((before ++ between).foldl ObservationStore.publish { maxEvents := 3 })
        ((before ++ between ++ later).foldl ObservationStore.publish { maxEvents := 3 })
        "arena" 5 1000 = .ok page ∧
      page.items.map TraceEvent.seq = List.range' ((5 : ℤ) + 1).toNat page.items.length := by
  intro before between later page
  have hpage : eventsEndpoint (before.foldl ObservationStore.publish { maxEvents := 3 })
      ((before ++ between).foldl ObservationStore.publish { maxEvents := 3 })
      ((before ++ between ++ later).foldl ObservationStore.publish { maxEvents := 3 })
      "arena" 5 1000 = .ok page := rfl
  exact ⟨hpage, (@polling_misses_nothing ℚ 3 "arena" before between later 5 rfl 5 (by decide) 1000
    page hpage rfl).1⟩

end ContextLease
