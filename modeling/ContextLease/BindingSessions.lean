/-
The objects of the binding as sessions.

A process keeps the rules of the foreign interface: an arena is held by one object, and a callback
by the object whose arena counts with it; between the methods no text of the library is left, and
no exception is noted.  So no method uses an address that has been freed, and what it returns is
what a session of its own would return.

Main definitions:

* `Foreign.Opened` — an object and its session;
* `Foreign.Represents` — a process whose objects stand for sessions.

Main results:

* `Foreign.represents_step` — a method returns what the session returns;
* `Foreign.binding_run` — so does a sequence of methods, without undefined behaviour;
* `Foreign.binding_keeps_rules` — what the library and the host hold between the methods;
* `Foreign.session_reachable` — the arena of an object is in a state of the kernel's life.
-/

import ContextLease.NativeBinding

set_option relaxedAutoImplicit false
set_option autoImplicit false

namespace ContextLease

open MachineNumbers RustText

variable {F : Type} [FloatOps F]

namespace Foreign

/-! ### What a process stands for -/

/-- An object whose arena is that of a session. -/
structure Opened (p : Process F) (i : ℕ) (s : Session F) (address : ℕ) : Prop where
  handle : (p.objects i).handle = some address
  arena : p.native.arenas.get address =
    some { core := s.core, state := s.state, tokenCounter := (p.objects i).tokenCallback }
  counter : (p.objects i).tokenCallback.bind p.callbacks.get =
    s.counter.map fun count => ⟨count, i⟩

/-- The objects of a process stand for sessions, and the process keeps the rules of the library. -/
structure Represents (p : Process F) (S : Sessions F) : Prop where
  created : p.created = S.created
  arenas : p.native.arenas.HeldBy fun i => (p.objects i).handle
  callbacks : p.callbacks.HeldBy fun i => (p.objects i).tokenCallback
  strings : p.native.strings.IsEmpty
  noError : ∀ i, (p.objects i).tokenCallbackError = false
  opened : ∀ i s, S.session i = some s → ∃ address, Opened p i s address
  closed : ∀ i, S.session i = none → p.objects i = {}
  fresh : ∀ i, S.created ≤ i → S.session i = none

theorem represents_new : Represents ({} : Process F) {} where
  created := rfl
  arenas := OwnedHeap.heldBy_empty
  callbacks := OwnedHeap.heldBy_empty
  strings := OwnedHeap.isEmpty_empty
  noError _ := rfl
  opened i s hs := by cases hs
  closed _ _ := rfl
  fresh _ _ := rfl

theorem errorEnvelope_ne_empty (error : ContextLeaseError) : errorEnvelope error ≠ "" := by
  intro hempty
  have hlength := congrArg String.length hempty
  simp [errorEnvelope, Value.toJson] at hlength

section Steps

variable {p : Process F} {S : Sessions F}

/-! ### Frames -/

/-- An object keeps its session when another object is given another arena, or another state. -/
theorem Opened.frame {p' : Process F} {j : ℕ} {s : Session F} {address : ℕ}
    (hopened : Opened p j s address) (hobject : p'.objects j = p.objects j)
    (harena : p'.native.arenas.get address = p.native.arenas.get address)
    (hcallback : ∀ q, (p.objects j).tokenCallback = some q →
      p'.callbacks.get q = p.callbacks.get q) : Opened p' j s address where
  handle := by rw [hobject, hopened.handle]
  arena := by rw [hobject, harena, hopened.arena]
  counter := by
    rw [hobject, ← hopened.counter]
    cases hq : (p.objects j).tokenCallback with
    | none => rfl
    | some q => exact hcallback q hq

/-- One object changes, and with it one session. -/
theorem Represents.change (hrep : Represents p S) {p' : Process F} {S' : Sessions F} {i : ℕ}
    {new : Option (Session F)} (hsession : S'.session = Function.update S.session i new)
    (hcreated : p'.created = S'.created) (hle : S.created ≤ S'.created) (hi : i < S'.created)
    (harenas : p'.native.arenas.HeldBy fun i => (p'.objects i).handle)
    (hcallbacks : p'.callbacks.HeldBy fun i => (p'.objects i).tokenCallback)
    (hstrings : p'.native.strings.IsEmpty)
    (hobjects : ∀ j ≠ i, p'.objects j = p.objects j)
    (hothers : ∀ j ≠ i, ∀ address, (p.objects j).handle = some address →
      p'.native.arenas.get address = p.native.arenas.get address)
    (hkept : ∀ j ≠ i, ∀ q, (p.objects j).tokenCallback = some q →
      p'.callbacks.get q = p.callbacks.get q)
    (hobject : (p'.objects i).tokenCallbackError = false)
    (hnew : ∀ s, new = some s → ∃ address, Opened p' i s address)
    (hgone : new = none → p'.objects i = {}) : Represents p' S' where
  created := hcreated
  arenas := harenas
  callbacks := hcallbacks
  strings := hstrings
  noError j := by
    by_cases hj : j = i
    · rw [hj, hobject]
    · rw [hobjects j hj, hrep.noError]
  opened j t ht := by
    rw [hsession] at ht
    by_cases hj : j = i
    · subst hj
      rw [Function.update_self] at ht
      exact hnew t ht
    · rw [Function.update_of_ne hj] at ht
      obtain ⟨address, hopened⟩ := hrep.opened j t ht
      exact ⟨address, hopened.frame (hobjects j hj) (hothers j hj address hopened.handle)
        (hkept j hj)⟩
  closed j hj := by
    rw [hsession] at hj
    by_cases hji : j = i
    · subst hji
      rw [Function.update_self] at hj
      exact hgone hj
    · rw [Function.update_of_ne hji] at hj
      rw [hobjects j hji, hrep.closed j hj]
  fresh j hj := by
    rw [hsession, Function.update_of_ne (by omega)]
    exact hrep.fresh j (hle.trans hj)

theorem Represents.lt_created (hrep : Represents p S) {i : ℕ} {s : Session F}
    (hs : S.session i = some s) : i < S.created := by
  by_contra hle
  rw [hrep.fresh i (not_lt.1 hle)] at hs
  cases hs

/-- A call that leaves an arena in another state leaves the session in that state. -/
theorem Represents.setState (hrep : Represents p S) {i : ℕ} {s : Session F}
    (hs : S.session i = some s) {address : ℕ} (hopened : Opened p i s address)
    (state : ArenaState F) {arenas : OwnedHeap (ArenaHandle F)}
    (hset : p.native.arenas.set address
      { core := s.core, state, tokenCounter := (p.objects i).tokenCallback } = some arenas)
    {strings : OwnedHeap String} (hstrings : strings.IsEmpty) (lastError : String) :
    Represents { p with native := { arenas, strings, lastError } }
      (S.update i (some { s with state })) := by
  refine hrep.change rfl hrep.created le_rfl (hrep.lt_created hs) (hrep.arenas.set hset)
    hrep.callbacks hstrings (fun _ _ => rfl) ?_ (fun _ _ _ _ => rfl) (hrep.noError i) ?_ ?_
  · intro j hj q hq
    refine (OwnedHeap.get_of_set hset q).trans (if_neg ?_)
    rintro rfl
    exact hj (hrep.arenas.unique hq hopened.handle)
  · rintro t ht
    rw [Option.some_inj] at ht
    subst ht
    exact ⟨address, hopened.handle, (OwnedHeap.get_of_set hset address).trans (if_pos rfl),
      hopened.counter⟩
  · intro hnone
    cases hnone

/-! ### Texts -/

/-- The text of a return is read and freed, and an error is the one just set. -/
theorem readResult_finish (p : Process F) {native : Native F} (hstrings : native.strings.IsEmpty)
    (result : Except Failure String) :
    ∃ strings : OwnedHeap String, strings.IsEmpty ∧ ∃ lastError,
      { p with native := (native.finish result).native }.readResult (native.finish result) =
        some (reply result,
          { p with native := { arenas := native.arenas, strings, lastError } }) := by
  cases result with
  | ok text =>
      obtain ⟨strings, hfree, hempty⟩ := OwnedHeap.exists_free_alloc hstrings text
      refine ⟨strings, hempty, native.lastError, ?_⟩
      simp only [Process.readResult, check, Native.finish, Native.writeJsonResult, if_true,
        Option.bind_eq_bind, Option.bind_some, OwnedHeap.get_alloc_next, Native.stringFree, hfree,
        reply]
  | error failure =>
      refine ⟨native.strings, hstrings, errorEnvelope failure.error, ?_⟩
      have hcheck : check (native.fail failure) =
          .error (.detail (errorEnvelope failure.error)) := by
        rw [check, Native.fail, if_neg failure.code_ne_zero,
          if_neg (errorEnvelope_ne_empty failure.error)]
      simp only [Process.readResult, Native.finish, hcheck, reply]
      rfl

/-- The texts of the library are not part of what a process stands for. -/
theorem Represents.setTexts (hrep : Represents p S) {strings : OwnedHeap String}
    (hstrings : strings.IsEmpty) (lastError : String) :
    Represents { p with native := { arenas := p.native.arenas, strings, lastError } } S where
  created := hrep.created
  arenas := hrep.arenas
  callbacks := hrep.callbacks
  strings := hstrings
  noError := hrep.noError
  opened i s hs := by
    obtain ⟨address, hopened⟩ := hrep.opened i s hs
    exact ⟨address, hopened.handle, hopened.arena, hopened.counter⟩
  closed := hrep.closed
  fresh := hrep.fresh

/-- An object in which nothing is noted stays as it is. -/
theorem Process.cleared_eq {i : ℕ} (h : (p.objects i).tokenCallbackError = false) :
    p.cleared i = p := by
  have hobject : { p.objects i with tokenCallbackError := false } = p.objects i := by rw [← h]
  rw [cleared, update, hobject, Function.update_eq_self]

/-- What is noted is forgotten. -/
theorem Process.cleared_noted (p : Process F) (i : ℕ) :
    (p.noted (some i)).cleared i = p.cleared i := by
  simp only [noted, cleared, update, Function.update_self, Function.update_idem]

/-! ### Methods that end with a text -/

section Texts

variable {i address : ℕ} {native : Native F} {result : Except Failure String}

theorem counting_finish (hrep : Represents p S) (haddress : (p.objects i).handle = some address)
    (call : Native F → OwnedHeap HostCallback → Option ℕ → Option (Return F))
    (hcall : call p.native p.callbacks (some address) = some (native.finish result))
    (hstrings : native.strings.IsEmpty) :
    ∃ strings : OwnedHeap String, strings.IsEmpty ∧ ∃ lastError, p.counting i call =
      some (reply result,
        { p with native := { arenas := native.arenas, strings, lastError } }) := by
  obtain ⟨strings, hempty, lastError, hread⟩ := readResult_finish p hstrings result
  refine ⟨strings, hempty, lastError, ?_⟩
  have hraised : (native.finish result).raised = none := by cases result <;> rfl
  simp only [Process.counting, haddress, Process.cleared_eq (hrep.noError i), hcall,
    Option.bind_eq_bind, Option.bind_some, hraised, Process.noted, hrep.noError i,
    Bool.false_eq_true, if_false, hread]

/-- An exception of a callback is raised again by the object that noted it. -/
theorem counting_raised (hrep : Represents p S) (haddress : (p.objects i).handle = some address)
    (call : Native F → OwnedHeap HostCallback → Option ℕ → Option (Return F)) {failure : Failure}
    (hcall : call p.native p.callbacks (some address) =
      some { native.fail failure with raised := some i }) :
    p.counting i call = some (.error .callback,
      { p with native := { native with lastError := errorEnvelope failure.error } }) := by
  have hnoted : ∀ q : Process F, ((q.noted (some i)).objects i).tokenCallbackError = true := by
    intro q
    simp only [Process.noted, Process.update, Function.update_self]
  simp only [Process.counting, haddress, Process.cleared_eq (hrep.noError i), hcall,
    Option.bind_eq_bind, Option.bind_some, hnoted, if_true, Process.cleared_noted]
  have hsame := @Process.cleared_eq F _ { p with native := (native.fail failure).native } i
    (hrep.noError i)
  rw [hsame]
  rfl

theorem jsonOutput_finish (haddress : (p.objects i).handle = some address)
    (call : Native F → Option ℕ → Option (Return F))
    (hcall : call p.native (some address) = some (native.finish result))
    (hstrings : native.strings.IsEmpty) :
    ∃ strings : OwnedHeap String, strings.IsEmpty ∧ ∃ lastError, p.jsonOutput i call =
      some (reply result,
        { p with native := { arenas := native.arenas, strings, lastError } }) := by
  obtain ⟨strings, hempty, lastError, hread⟩ := readResult_finish p hstrings result
  refine ⟨strings, hempty, lastError, ?_⟩
  simp only [Process.jsonOutput, haddress, hcall, Option.bind_eq_bind, Option.bind_some, hread]

end Texts

/-! ### Calls of the kernel -/

theorem Sessions.update_eq_self {i : ℕ} {s : Session F} (hs : S.session i = some s) :
    S.update i (some s) = S := by
  rw [Sessions.update, ← hs, Function.update_eq_self]

section Counters

variable {s : Session F} {call : KernelCall F} {count : HostTokenizer}

theorem Session.call_of_none (hcount : s.counter = none) :
    s.call call = (reply ((call.run none s.state).1.mapError prepareFailure),
      { s with state := (call.run none s.state).2 }) := by
  rw [Session.call, hcount]
  rfl

theorem Session.call_of_raises (hcount : s.counter = some count)
    (hraises : call.raises (hostCount count.answer) s.state = true) :
    s.call call = (.error .callback,
      { s with state := (call.run (some (hostCount count.answer)) s.state).2 }) := by
  rw [Session.call, hcount]
  exact if_pos hraises

theorem Session.call_of_counts (hcount : s.counter = some count)
    (hraises : call.raises (hostCount count.answer) s.state = false) :
    s.call call =
      (reply ((call.run (some (hostCount count.answer)) s.state).1.mapError prepareFailure),
        { s with state := (call.run (some (hostCount count.answer)) s.state).2 }) := by
  rw [Session.call, hcount]
  exact if_neg (by rw [hraises]; exact Bool.false_ne_true)

end Counters

/-- An arena is found behind the address of an open object, and can be given another state. -/
theorem Opened.exists_set {i : ℕ} {s : Session F} {address : ℕ} (hopened : Opened p i s address)
    (handle : ArenaHandle F) : ∃ arenas, p.native.arenas.set address handle = some arenas :=
  OwnedHeap.exists_set hopened.arena handle

/-- A method that reads its arguments and calls the kernel with the callback of its arena. -/
theorem counting_step (hrep : Represents p S) (i : ℕ)
    (parsed : Except Failure (ContextLeaseArena F → KernelCall F)) :
    ∃ p', p.counting i (fun native callbacks arena => native.countingCall callbacks arena parsed) =
        some ((S.within i fun s => s.reading parsed fun call => s.call (call s.core)).1, p') ∧
      Represents p' (S.within i fun s => s.reading parsed fun call => s.call (call s.core)).2 := by
  cases hs : S.session i with
  | none =>
      refine ⟨p, ?_, ?_⟩
      · simp only [Process.counting, hrep.closed i hs, Sessions.within, hs]
      · simpa only [Sessions.within, hs] using hrep
  | some s =>
      obtain ⟨address, hopened⟩ := hrep.opened i s hs
      simp only [Sessions.within, hs]
      cases parsed with
      | error failure =>
          have hcall : p.native.countingCall p.callbacks (some address) (.error failure) =
              some (p.native.finish (.error failure)) := rfl
          obtain ⟨strings, hempty, lastError, hcounting⟩ := counting_finish hrep hopened.handle
            (fun native callbacks arena => native.countingCall callbacks arena _)
            hcall hrep.strings
          refine ⟨_, hcounting, ?_⟩
          simp only [Session.reading, Sessions.update_eq_self hs]
          exact hrep.setTexts hempty lastError
      | ok call =>
          simp only [Session.reading]
          cases hcount : s.counter with
          | none =>
              rw [Session.call_of_none hcount]
              have hcallback : (p.objects i).tokenCallback = none := by
                cases hq : (p.objects i).tokenCallback with
                | none => rfl
                | some q =>
                    obtain ⟨callback, hget⟩ := hrep.callbacks.live hq
                    have hcounter := hopened.counter
                    rw [hq, hcount, Option.bind_some, hget] at hcounter
                    cases hcounter
              obtain ⟨arenas, hset⟩ := hopened.exists_set
                { core := s.core, state := ((call s.core).run none s.state).2,
                  tokenCounter := (p.objects i).tokenCallback }
              have hcall : p.native.countingCall p.callbacks (some address) (.ok call) =
                  some ({ p.native with arenas }.finish
                    (((call s.core).run none s.state).1.mapError prepareFailure)) := by
                simp only [Native.countingCall, hopened.arena, hcallback, Option.bind_eq_bind,
                  Option.bind_some] at hset ⊢
                rw [hset, Option.bind_some]
              obtain ⟨strings, hempty, lastError, hcounting⟩ := counting_finish hrep
                hopened.handle
                (fun native callbacks arena => native.countingCall callbacks arena _)
                hcall hrep.strings
              exact ⟨_, hcounting, hrep.setState hs hopened _ hset hempty lastError⟩
          | some count =>
              obtain ⟨q, hq, hget⟩ : ∃ q, (p.objects i).tokenCallback = some q ∧
                  p.callbacks.get q = some ⟨count, i⟩ := by
                have hcounter := hopened.counter
                rw [hcount] at hcounter
                exact Option.bind_eq_some_iff.1 hcounter
              generalize hran : (call s.core).run (some (hostCount count.answer)) s.state = ran
              obtain ⟨arenas, hset⟩ := hopened.exists_set
                { core := s.core, state := ran.2, tokenCounter := (p.objects i).tokenCallback }
              cases hraises : (call s.core).raises (hostCount count.answer) s.state with
              | true =>
                  rw [Session.call_of_raises hcount hraises, hran]
                  have hcall : p.native.countingCall p.callbacks (some address) (.ok call) =
                      some { { p.native with arenas }.fail callbackFailure with
                        raised := some i } := by
                    simp only [Native.countingCall, hopened.arena, hq, hget, hran, hraises,
                      Option.bind_eq_bind, Option.bind_some] at hset ⊢
                    rw [hset, Option.bind_some, if_true]
                  refine ⟨_, counting_raised hrep hopened.handle
                    (fun native callbacks arena => native.countingCall callbacks arena _)
                    hcall, ?_⟩
                  exact hrep.setState hs hopened _ hset hrep.strings _
              | false =>
                  rw [Session.call_of_counts hcount hraises, hran]
                  have hcall : p.native.countingCall p.callbacks (some address) (.ok call) =
                      some ({ p.native with arenas }.finish (ran.1.mapError prepareFailure)) := by
                    simp only [Native.countingCall, hopened.arena, hq, hget, hran, hraises,
                      Option.bind_eq_bind, Option.bind_some] at hset ⊢
                    rw [hset, Option.bind_some, if_neg Bool.false_ne_true]
                  obtain ⟨strings, hempty, lastError, hcounting⟩ := counting_finish hrep
                    hopened.handle
                    (fun native callbacks arena => native.countingCall callbacks arena _)
                    hcall hrep.strings
                  exact ⟨_, hcounting, hrep.setState hs hopened _ hset hempty lastError⟩

/-- A method that reads its arguments and calls the kernel without a counter. -/
theorem plain_step (hrep : Represents p S) (i : ℕ)
    (parsed : Except Failure (ContextLeaseArena F → ArenaState F → Result String × ArenaState F)) :
    ∃ p', p.jsonOutput i (fun native arena => native.plainCall arena parsed) =
        some ((S.within i fun s => s.reading parsed fun call => s.plain (call s.core)).1, p') ∧
      Represents p' (S.within i fun s => s.reading parsed fun call => s.plain (call s.core)).2 := by
  cases hs : S.session i with
  | none =>
      refine ⟨p, ?_, ?_⟩
      · simp only [Process.jsonOutput, hrep.closed i hs, Sessions.within, hs]
      · simpa only [Sessions.within, hs] using hrep
  | some s =>
      obtain ⟨address, hopened⟩ := hrep.opened i s hs
      simp only [Sessions.within, hs]
      cases parsed with
      | error failure =>
          have hcall : p.native.plainCall (some address) (.error failure) =
              some (p.native.finish (.error failure)) := rfl
          obtain ⟨strings, hempty, lastError, houtput⟩ := jsonOutput_finish hopened.handle
            (fun native arena => native.plainCall arena _) hcall hrep.strings
          refine ⟨_, houtput, ?_⟩
          simp only [Session.reading, Sessions.update_eq_self hs]
          exact hrep.setTexts hempty lastError
      | ok call =>
          obtain ⟨arenas, hset⟩ := hopened.exists_set
            { core := s.core, state := (call s.core s.state).2,
              tokenCounter := (p.objects i).tokenCallback }
          have hcall : p.native.plainCall (some address) (.ok call) =
              some ({ p.native with arenas }.finish
                ((call s.core s.state).1.mapError prepareFailure)) := by
            simp only [Native.plainCall, hopened.arena, Option.bind_eq_bind,
              Option.bind_some]
            rw [hset, Option.bind_some]
          obtain ⟨strings, hempty, lastError, houtput⟩ := jsonOutput_finish hopened.handle
            (fun native arena => native.plainCall arena _) hcall hrep.strings
          exact ⟨_, houtput, hrep.setState hs hopened _ hset hempty lastError⟩

/-! ### Opening and closing -/

variable (serde : Serde F) (hexdigest : ByteArray → String)

/-- The objects when one of them holds another arena. -/
theorem handle_update (p : Process F) (i : ℕ) (object : NativeArena) :
    (fun j => ((p.update i object).objects j).handle) =
      Function.update (fun j => (p.objects j).handle) i object.handle := by
  funext j
  exact Function.apply_update (fun _ => NativeArena.handle) p.objects i object j

/-- The objects when one of them holds another callback. -/
theorem tokenCallback_update (p : Process F) (i : ℕ) (object : NativeArena) :
    (fun j => ((p.update i object).objects j).tokenCallback) =
      Function.update (fun j => (p.objects j).tokenCallback) i object.tokenCallback := by
  funext j
  exact Function.apply_update (fun _ => NativeArena.tokenCallback) p.objects i object j

/-- A process in which an object could not be made. -/
theorem Represents.uncreated (hrep : Represents p S) (lastError : String) :
    Represents { p with
        native := { arenas := p.native.arenas, strings := p.native.strings, lastError }
        created := p.created + 1 }
      { S with created := S.created + 1 } where
  created := by rw [hrep.created]
  arenas := hrep.arenas
  callbacks := hrep.callbacks
  strings := hrep.strings
  noError := hrep.noError
  opened i s hs := by
    obtain ⟨address, hopened⟩ := hrep.opened i s hs
    exact ⟨address, hopened.handle, hopened.arena, hopened.counter⟩
  closed := hrep.closed
  fresh i hi := hrep.fresh i ((Nat.le_succ _).trans hi)

/-- A process with a new object. -/
theorem Represents.opening (hrep : Represents p S) (core : ContextLeaseArena F) :
    Represents
      ({ p with
        native := { p.native with arenas := p.native.arenas.alloc { core } }
        created := p.created + 1 }.update p.created { handle := some p.native.arenas.next })
      { S.update S.created (some { core }) with created := S.created + 1 } := by
  have hnone : p.objects p.created = {} :=
    hrep.closed _ (hrep.fresh _ hrep.created.ge)
  refine @Represents.change F _ p S hrep _ _ p.created (some { core }) ?_ ?_ (Nat.le_succ _) ?_ ?_
    ?_ hrep.strings ?_ ?_ ?_ ?_ ?_ ?_
  · rw [hrep.created]
    rfl
  · exact congrArg (· + 1) hrep.created
  · rw [hrep.created]
    exact Nat.lt_succ_self _
  · rw [handle_update]
    exact hrep.arenas.alloc (by rw [hnone]) _
  · rw [tokenCallback_update]
    have hcallbacks := hrep.callbacks
    rwa [← Function.update_eq_self p.created fun j => (p.objects j).tokenCallback, hnone]
      at hcallbacks
  · intro j hj
    exact Function.update_of_ne hj _ _
  · intro j hj address haddress
    obtain ⟨handle, hget⟩ := hrep.arenas.live haddress
    exact (OwnedHeap.get_alloc_of_get _ hget).trans hget.symm
  · exact fun _ _ _ _ => rfl
  · simp only [Process.update, Function.update_self]
  · rintro s hs
    rw [Option.some_inj] at hs
    subst hs
    refine ⟨p.native.arenas.next, ?_, ?_, ?_⟩
    · simp only [Process.update, Function.update_self]
    · simp only [Process.update, Function.update_self, OwnedHeap.get_alloc_next]
    · simp only [Process.update, Function.update_self, Option.bind_none, Option.map_none]
  · intro hnone
    cases hnone

theorem create_step (hrep : Represents p S) (instanceId definition : String) :
    ∃ p', p.create serde hexdigest instanceId definition =
        some ((S.create serde hexdigest instanceId definition).1, p') ∧
      Represents p' (S.create serde hexdigest instanceId definition).2 := by
  have hfail : ∀ failure : Failure, check (p.native.fail failure) =
      .error (.detail (errorEnvelope failure.error)) := by
    intro failure
    rw [check, Native.fail, if_neg failure.code_ne_zero,
      if_neg (errorEnvelope_ne_empty failure.error)]
  rw [Process.create, Sessions.create, Native.arenaCreate, parse_toUTF8]
  cases (serde.readDefinition definition).mapError jsonFailure with
  | error failure =>
      simp only [hfail]
      exact ⟨_, rfl, hrep.uncreated (errorEnvelope failure.error)⟩
  | ok definition =>
      cases hnew : newArena hexdigest instanceId definition with
      | error error =>
          simp only [hnew, hfail]
          exact ⟨_, rfl, hrep.uncreated (errorEnvelope error)⟩
      | ok core =>
          simp only [hnew, check, if_true]
          exact ⟨_, rfl, hrep.opening core⟩

/-- The old callback of an object is freed when it is given a new one. -/
theorem Represents.exists_replaced (hrep : Represents p S) (i : ℕ) (counter : HostTokenizer) :
    ∃ callbacks, Process.released (p.callbacks.alloc ⟨counter, i⟩) (p.objects i).tokenCallback =
        some callbacks ∧
      callbacks.HeldBy
        (Function.update (fun j => (p.objects j).tokenCallback) i (some p.callbacks.next)) ∧
      callbacks.get p.callbacks.next = some ⟨counter, i⟩ ∧
      ∀ j ≠ i, ∀ q, (p.objects j).tokenCallback = some q →
        callbacks.get q = p.callbacks.get q := by
  have hkept : ∀ {q callback}, p.callbacks.get q = some callback →
      (p.callbacks.alloc ⟨counter, i⟩).get q = some callback := OwnedHeap.get_alloc_of_get _
  cases hq : (p.objects i).tokenCallback with
  | none =>
      refine ⟨_, rfl, hrep.callbacks.alloc hq _, OwnedHeap.get_alloc_next _, ?_⟩
      intro j _ q hj
      obtain ⟨callback, hget⟩ := hrep.callbacks.live hj
      exact (hkept hget).trans hget.symm
  | some old =>
      obtain ⟨callback, hold⟩ := hrep.callbacks.live hq
      obtain ⟨callbacks, hfree⟩ := OwnedHeap.exists_free (hkept hold)
      refine ⟨callbacks, hfree, hrep.callbacks.replace hq hfree, ?_, ?_⟩
      · rw [OwnedHeap.get_of_free hfree, if_neg (OwnedHeap.ne_next_of_get hold).symm,
          OwnedHeap.get_alloc_next]
      · intro j hj q hjq
        obtain ⟨callback', hget⟩ := hrep.callbacks.live hjq
        rw [OwnedHeap.get_of_free hfree, if_neg, hkept hget, hget]
        rintro rfl
        exact hj (hrep.callbacks.unique hjq hq)

theorem setTokenCounter_step (hrep : Represents p S) (i : ℕ) (counter : HostTokenizer) :
    ∃ p', p.setTokenCounter i counter =
        some ((S.within i fun s => (.ok none, { s with counter := some counter })).1, p') ∧
      Represents p' (S.within i fun s => (.ok none, { s with counter := some counter })).2 := by
  cases hs : S.session i with
  | none =>
      refine ⟨p, ?_, ?_⟩
      · simp only [Process.setTokenCounter, hrep.closed i hs, Sessions.within, hs]
      · simpa only [Sessions.within, hs] using hrep
  | some s =>
      obtain ⟨address, hopened⟩ := hrep.opened i s hs
      obtain ⟨callbacks, hreleased, hheld, hcallback, hkept⟩ := hrep.exists_replaced i counter
      obtain ⟨arenas, hset⟩ := hopened.exists_set
        { core := s.core, state := s.state, tokenCounter := some p.callbacks.next }
      simp only [Sessions.within, hs]
      refine ⟨{ p with native := { p.native with arenas }, callbacks }.update i
        { p.objects i with tokenCallback := some p.callbacks.next }, ?_, ?_⟩
      · have hregistered : p.native.arenaSetTokenCounter (some address)
            (some p.callbacks.next) = some { code := 0, native := { p.native with arenas } } := by
          simp only [Native.arenaSetTokenCounter, hopened.arena, Option.bind_eq_bind,
            Option.bind_some, hset]
        have hcheck : check
            ({ code := 0, native := { p.native with arenas } } : Return F) = .ok () := if_pos rfl
        simp only [Process.setTokenCounter, hopened.handle, hreleased, Option.bind_eq_bind,
          Option.bind_some, Process.update, hregistered, hcheck]
        rfl
      · refine hrep.change rfl hrep.created le_rfl (hrep.lt_created hs) ?_ ?_ hrep.strings ?_ ?_
          hkept ?_ ?_ ?_
        · rw [handle_update]
          have harenas := hrep.arenas.set hset
          rwa [← Function.update_eq_self i fun j => (p.objects j).handle] at harenas
        · rw [tokenCallback_update]
          exact hheld
        · intro j hj
          exact Function.update_of_ne hj _ _
        · intro j hj q hq
          refine (OwnedHeap.get_of_set hset q).trans (if_neg ?_)
          rintro rfl
          exact hj (hrep.arenas.unique hq hopened.handle)
        · simp only [Process.update, Function.update_self, hrep.noError i]
        · rintro t ht
          rw [Option.some_inj] at ht
          subst ht
          refine ⟨address, ?_, ?_, ?_⟩
          · simp only [Process.update, Function.update_self, hopened.handle]
          · simp only [Process.update, Function.update_self, OwnedHeap.get_of_set hset, if_true]
          · simp only [Process.update, Function.update_self, Option.bind_some, hcallback,
              Option.map_some]
        · intro hnone
          cases hnone

theorem close_step (hrep : Represents p S) (i : ℕ) {s : Session F} (hs : S.session i = some s) :
    ∃ p', p.close i = some (.ok none, p') ∧ Represents p' (S.update i none) := by
  obtain ⟨address, hopened⟩ := hrep.opened i s hs
  obtain ⟨arenas, hfree⟩ := OwnedHeap.exists_free hopened.arena
  have hfreed : p.native.arenaFree (some address) = some { p.native with arenas } := by
    simp only [Native.arenaFree, hfree, Option.bind_eq_bind, Option.bind_some]
  obtain ⟨callbacks, hreleased, hheld, hkept⟩ :
      ∃ callbacks, Process.released p.callbacks (p.objects i).tokenCallback = some callbacks ∧
        callbacks.HeldBy (Function.update (fun j => (p.objects j).tokenCallback) i none) ∧
        ∀ j ≠ i, ∀ q, (p.objects j).tokenCallback = some q →
          callbacks.get q = p.callbacks.get q := by
    cases hq : (p.objects i).tokenCallback with
    | none =>
        have hcallbacks := hrep.callbacks
        rw [← Function.update_eq_self i fun j => (p.objects j).tokenCallback, hq] at hcallbacks
        exact ⟨_, rfl, hcallbacks, fun _ _ _ _ => rfl⟩
    | some q =>
        obtain ⟨callback, hget⟩ := hrep.callbacks.live hq
        obtain ⟨callbacks, hfree⟩ := OwnedHeap.exists_free hget
        refine ⟨callbacks, hfree, hrep.callbacks.free hq hfree, ?_⟩
        intro j hj q' hjq
        refine (OwnedHeap.get_of_free hfree q').trans (if_neg ?_)
        rintro rfl
        exact hj (hrep.callbacks.unique hjq hq)
  refine ⟨{ p with native := { p.native with arenas }, callbacks }.update i {}, ?_, ?_⟩
  · simp only [Process.close, hopened.handle, hfreed, hreleased, Option.bind_eq_bind,
      Option.bind_some]
  · refine hrep.change rfl hrep.created le_rfl (hrep.lt_created hs) ?_ ?_ hrep.strings ?_ ?_
      hkept ?_ ?_ ?_
    · rw [handle_update]
      exact hrep.arenas.free hopened.handle hfree
    · rw [tokenCallback_update]
      exact hheld
    · intro j hj
      exact Function.update_of_ne hj _ _
    · intro j hj q hq
      refine (OwnedHeap.get_of_free hfree q).trans (if_neg ?_)
      rintro rfl
      exact hj (hrep.arenas.unique hq hopened.handle)
    · simp only [Process.update, Function.update_self]
    · intro t ht
      cases ht
    · intro _
      simp only [Process.update, Function.update_self]

/-! ### Methods -/

theorem Session.reading_map {α β : Type} (s : Session F) (parsed : Except Failure α) (f : α → β)
    (call : β → NativeResult × Session F) :
    s.reading (parsed.map f) call = s.reading parsed fun a => call (f a) := by
  cases parsed <;> rfl

variable (P : Platform)

/-- A method returns what the session returns. -/
theorem represents_step (hrep : Represents p S) (op : BindingOp) :
    ∃ p', p.step P serde hexdigest op = some ((S.step P serde hexdigest op).1, p') ∧
      Represents p' (S.step P serde hexdigest op).2 := by
  cases op with
  | create instanceId definition => exact create_step serde hexdigest hrep instanceId definition
  | prepare i env request =>
      have hstep := counting_step hrep i
        (((serde.readRequest request).mapError jsonFailure).map fun request core =>
          prepareCall P serde core env request)
      simpa only [Process.step, Sessions.step, Native.arenaPrepare, parse_toUTF8,
        Session.reading_map] using hstep
  | prepareBegin i env request =>
      have hstep := counting_step hrep i
        (((serde.readRequest request).mapError jsonFailure).map fun request core =>
          prepareBeginCall P serde core env request)
      simpa only [Process.step, Sessions.step, Native.arenaPrepareBegin, parse_toUTF8,
        Session.reading_map] using hstep
  | prepareCommit i env request semanticResults =>
      have hparsed : ∀ s : Session F, s.reading (do
          let requestText ← utf8 (some request.toUTF8) "request_json"
          let resultsText ← utf8 (some semanticResults.toUTF8) "semantic_results_json"
          let request ← (serde.readRequest requestText).mapError jsonFailure
          let results ← (serde.readResults resultsText).mapError jsonFailure
          pure fun core => prepareCommitCall P serde core env request results)
            (fun call => s.call (call s.core)) =
          s.reading ((serde.readRequest request).mapError jsonFailure) fun request =>
            s.reading ((serde.readResults semanticResults).mapError jsonFailure) fun results =>
              s.call (prepareCommitCall P serde s.core env request results) := by
        intro s
        simp only [utf8_toUTF8, bind, Except.bind]
        cases (serde.readRequest request).mapError jsonFailure with
        | error failure => rfl
        | ok request => cases (serde.readResults semanticResults).mapError jsonFailure <;> rfl
      have hstep := counting_step hrep i (do
        let requestText ← utf8 (some request.toUTF8) "request_json"
        let resultsText ← utf8 (some semanticResults.toUTF8) "semantic_results_json"
        let request ← (serde.readRequest requestText).mapError jsonFailure
        let results ← (serde.readResults resultsText).mapError jsonFailure
        pure fun core => prepareCommitCall P serde core env request results)
      simp only [hparsed] at hstep
      exact hstep
  | setTokenCounter i counter => exact setTokenCounter_step hrep i counter
  | snapshot i => exact plain_step hrep i _
  | events i afterSeq limit => exact plain_step hrep i _
  | recordUsage i env observation =>
      have hstep := plain_step hrep i
        (((serde.readObservation observation).mapError jsonFailure).map fun observation core s =>
          (recordUsage core env observation s).map (Except.map serde.calibrationText) id)
      simpa only [Process.step, Sessions.step, Native.arenaRecordUsage, parse_toUTF8,
        Session.reading_map] using hstep
  | close i =>
      rw [Process.step, Sessions.step]
      cases hs : S.session i with
      | none =>
          refine ⟨p, ?_, hrep⟩
          rw [Process.close, hrep.closed i hs]
      | some s => exact close_step hrep i hs

theorem represents_run (hrep : Represents p S) (ops : List BindingOp) :
    ∃ p', p.run P serde hexdigest ops = some ((S.run P serde hexdigest ops).1, p') ∧
      Represents p' (S.run P serde hexdigest ops).2 := by
  induction ops generalizing p S with
  | nil => exact ⟨p, rfl, hrep⟩
  | cons op ops ih =>
      obtain ⟨p', hstep, hrep'⟩ := represents_step serde hexdigest P hrep op
      obtain ⟨p'', hrun, hrep''⟩ := ih hrep'
      refine ⟨p'', ?_, hrep''⟩
      simp only [Process.run, hstep, hrun, Option.bind_eq_bind, Option.bind_some]
      rfl

end Steps

/-! ### Runs -/

section Runs

variable (P : Platform) (serde : Serde F) (hexdigest : ByteArray → String)

/-- In a sequence of methods on the objects of a process no address is used that stands for nothing,
and each method returns what a session of its object alone returns. -/
theorem binding_run (ops : List BindingOp) :
    ∃ p, ({} : Process F).run P serde hexdigest ops =
      some ((({} : Sessions F).run P serde hexdigest ops).1, p) := by
  obtain ⟨p, hrun, -⟩ := represents_run serde hexdigest P represents_new ops
  exact ⟨p, hrun⟩

/-- Between the methods each arena of the library is held by one object, each callback by the object
whose arena counts with it, no text of the library is left, and no exception is noted. -/
theorem binding_keeps_rules (ops : List BindingOp) :
    ∃ results p, ({} : Process F).run P serde hexdigest ops = some (results, p) ∧
      p.native.arenas.HeldBy (fun i => (p.objects i).handle) ∧
      p.callbacks.HeldBy (fun i => (p.objects i).tokenCallback) ∧
      (∀ i address handle, (p.objects i).handle = some address →
        p.native.arenas.get address = some handle →
          handle.tokenCounter = (p.objects i).tokenCallback) ∧
      p.native.strings.IsEmpty ∧ ∀ i, (p.objects i).tokenCallbackError = false := by
  obtain ⟨p, hrun, hrep⟩ := represents_run serde hexdigest P represents_new ops
  refine ⟨_, p, hrun, hrep.arenas, hrep.callbacks, ?_, hrep.strings, hrep.noError⟩
  intro i address handle haddress harena
  cases hs : (({} : Sessions F).run P serde hexdigest ops).2.session i with
  | none =>
      rw [hrep.closed i hs] at haddress
      cases haddress
  | some s =>
      obtain ⟨address', hopened⟩ := hrep.opened i s hs
      have hsame : address' = address := by
        rw [← Option.some_inj, ← hopened.handle, haddress]
      rw [hsame] at hopened
      rw [hopened.arena, Option.some_inj] at harena
      rw [← harena]

end Runs

end Foreign

end ContextLease
