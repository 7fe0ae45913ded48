/-
What the objects of the binding keep.

Since an object stands for a session, what is known of the kernel is known of the objects: the arena
of an object is in a state that operations of the kernel reach, a method that raises an exception
leaves every arena as it was, and the objects of a process do not disturb each other.

Main definitions:

* `Foreign.Process.session` — the session an object stands for, read from the addresses;
* `Foreign.BindingOp.object`, `Foreign.concerns` — the methods of one object, and those that make
  objects.

Main results:

* `Foreign.session_reachable` — the arenas are in states of the kernel's life;
* `Foreign.exception_keeps_arenas` — an exception leaves the arenas as they were;
* `Foreign.objects_isolated` — what an object returns does not depend on the other objects.
-/

import ContextLease.BindingSessions

set_option relaxedAutoImplicit false
set_option autoImplicit false

namespace ContextLease

open MachineNumbers RustText

variable {F : Type} [FloatOps F]

namespace Foreign

/-! ### The session behind an object -/

/-- The arena of an object, its state, and the counter it counts with. -/
def Process.session (p : Process F) (i : ℕ) : Option (Session F) := do
  let address ← (p.objects i).handle
  let handle ← p.native.arenas.get address
  some
    { core := handle.core
      state := handle.state
      counter := (handle.tokenCounter.bind p.callbacks.get).map HostCallback.count }

theorem Represents.session_eq {p : Process F} {S : Sessions F} (hrep : Represents p S) (i : ℕ) :
    p.session i = S.session i := by
  cases hs : S.session i with
  | none =>
      rw [Process.session, hrep.closed i hs]
      rfl
  | some s =>
      obtain ⟨address, hopened⟩ := hrep.opened i s hs
      simp only [Process.session, hopened.handle, hopened.arena, Option.bind_eq_bind,
        Option.bind_some, hopened.counter, Option.map_map]
      congr
      cases s.counter <;> rfl

section Runs

variable (P : Platform) (serde : Serde F) (hexdigest : ByteArray → String)

/-! ### States of the kernel -/

/-- What a call of the kernel does to a state. -/
structure KernelCall.Sound (core : ContextLeaseArena F) (env : Env) (call : KernelCall F) :
    Prop where
  /-- The state is that of an operation of the kernel. -/
  stepped : ∀ counter s, ∃ op : Op F, op.env = env ∧
    (call.run counter s).2 = ContextLease.step P core s op
  /-- An error leaves the state alone. -/
  error : ∀ counter s e, (call.run counter s).1 = .error e → (call.run counter s).2 = s
  /-- A failing counter leaves the state alone. -/
  raises : ∀ counter s, call.raises counter s = true → (call.run (some counter) s).2 = s

/-- A call of the kernel in which a counter fails ends with an error and leaves the state alone. -/
def KernelCall.FailsOnRaise (call : KernelCall F) : Prop :=
  ∀ counter s, call.raises counter s = true → ∃ e, call.run (some counter) s = (.error e, s)

section Calls

variable (core : ContextLeaseArena F) (env : Env) (request : PrepareRequest F)
  (results : List SemanticResult)

/-- If a counter fails while a request is prepared, the kernel returns an error and nothing is
committed. -/
theorem prepareWithResults_of_raises {counter : TokenCounter} {s : ArenaState F}
    (h : prepareRaises P core env request results counter s = true) :
    ∃ e, prepareWithResults P core env request results (some counter) s = (.error e, s) := by
  rw [prepareWithResults, prepareLocked]
  split
  · rename_i hvalid
    have hcounted := (ensureValid_eq_ok.1 hvalid).2
    rw [prepareRaises] at h
    rw [h] at hcounted
    cases hcounted
  · exact ⟨_, rfl⟩

/-- If a counter fails while the semantic requests are planned, there are none. -/
theorem planSemanticRequests_of_raises {counter : TokenCounter} {s : ArenaState F}
    (h : planRaises P core request counter s = true) : ∃ e,
    planSemanticRequests P core request (some counter) (safetyMultiplier s request.model) =
      .error e := by
  cases hplan : planSemanticRequests P core request (some counter)
      (safetyMultiplier s request.model) with
  | error e => exact ⟨e, rfl⟩
  | ok requests =>
      have hcounted := (ensureValid_eq_ok.1 hplan).2
      rw [planRaises] at h
      rw [h] at hcounted
      cases hcounted

theorem failsOnRaise_prepare : (prepareCall P serde core env request).FailsOnRaise := by
  intro counter s h
  obtain ⟨e, herror⟩ := prepareWithResults_of_raises P core env request [] h
  exact ⟨e, by simp only [prepareCall, prepare, herror]; rfl⟩

theorem failsOnRaise_prepareBegin :
    (prepareBeginCall P serde core env request).FailsOnRaise := by
  intro counter s h
  simp only [prepareBeginCall, Bool.or_eq_true] at h
  simp only [prepareBeginCall, prepareBegin]
  rcases h with h | h
  · obtain ⟨e, hplan⟩ := planSemanticRequests_of_raises P core request h
    exact ⟨e, by rw [hplan]; rfl⟩
  · split at h
    · rename_i hplan
      obtain ⟨e, herror⟩ := prepareWithResults_of_raises P core env request [] h
      exact ⟨e, by simp only [hplan, herror]; rfl⟩
    · cases h

theorem failsOnRaise_prepareCommit :
    (prepareCommitCall P serde core env request results).FailsOnRaise := by
  intro counter s h
  simp only [prepareCommitCall, Bool.or_eq_true] at h
  simp only [prepareCommitCall, prepareCommit]
  rcases h with h | h
  · obtain ⟨e, hplan⟩ := planSemanticRequests_of_raises P core request h
    exact ⟨e, by rw [hplan]; rfl⟩
  · split at h
    · rename_i expected hplan
      split at h
      · rename_i hresults
        obtain ⟨e, herror⟩ := prepareWithResults_of_raises P core env request results h
        exact ⟨e, by simp only [hplan, hresults, herror]; rfl⟩
      · cases h
    · cases h

theorem sound_prepareCall : (prepareCall P serde core env request).Sound P core env where
  stepped counter s := ⟨.prepare env request counter, rfl, rfl⟩
  error counter s e h := by
    rcases prepare_cases P core env request counter s with ⟨e', heq⟩ | ⟨plan, s', heq, -⟩
    · simp only [prepareCall, heq, Prod.map_snd, id]
    · simp only [prepareCall, heq, Prod.map_fst, Except.map] at h
      cases h
  raises counter s h := by
    obtain ⟨e, herror⟩ := failsOnRaise_prepare P serde core env request counter s h
    rw [herror]

theorem sound_prepareBeginCall :
    (prepareBeginCall P serde core env request).Sound P core env where
  stepped counter s := ⟨.prepareBegin env request counter, rfl, rfl⟩
  error counter s e h := by
    rcases prepareBegin_cases P core env request counter s with
      ⟨e', heq⟩ | ⟨plan, s', heq, -⟩ | ⟨requests, -, -, heq⟩
    · simp only [prepareBeginCall, heq, Prod.map_snd, id]
    · simp only [prepareBeginCall, heq, Prod.map_fst, Except.map] at h
      cases h
    · simp only [prepareBeginCall, heq, Prod.map_fst, Except.map] at h
      cases h
  raises counter s h := by
    obtain ⟨e, herror⟩ := failsOnRaise_prepareBegin P serde core env request counter s h
    rw [herror]

theorem sound_prepareCommitCall :
    (prepareCommitCall P serde core env request results).Sound P core env where
  stepped counter s := ⟨.prepareCommit env request results counter, rfl, rfl⟩
  error counter s e h := by
    rcases prepareCommit_cases P core env request results counter s with
      ⟨e', heq⟩ | ⟨plan, s', heq, -⟩
    · simp only [prepareCommitCall, heq, Prod.map_snd, id]
    · simp only [prepareCommitCall, heq, Prod.map_fst, Except.map] at h
      cases h
  raises counter s h := by
    obtain ⟨e, herror⟩ := failsOnRaise_prepareCommit P serde core env request results counter s h
    rw [herror]

end Calls

/-! ### Methods of a session -/

/-- The method leaves the state in one that operations of the kernel reach, which meet what the
method meets, and an exception leaves the session as it was. -/
def Session.Stepped (s : Session F) (env : Option Env) (done : NativeResult × Session F) : Prop :=
  (∃ ops : List (Op F), (∀ op ∈ ops, env = some op.env) ∧
      done.2.state = ContextLease.run P s.core s.state ops) ∧
    done.2.core = s.core ∧ ∀ e, done.1 = .error e → done.2 = s

variable {met : Option Env}

theorem Session.stepped_error {s : Session F} (e : NativeError) : s.Stepped P met (.error e, s) :=
  ⟨⟨[], List.forall_mem_nil _, rfl⟩, rfl, fun _ _ => rfl⟩

theorem Session.stepped_call (s : Session F) {env : Env} {call : KernelCall F}
    (h : call.Sound P s.core env) : s.Stepped P (some env) (s.call call) := by
  have hops : ∀ counter, ∃ ops : List (Op F), (∀ op ∈ ops, some env = some op.env) ∧
      (call.run counter s.state).2 = ContextLease.run P s.core s.state ops := by
    intro counter
    obtain ⟨op, henv, hop⟩ := h.stepped counter s.state
    exact ⟨[op], List.forall_mem_singleton.2 (congrArg some henv.symm), hop⟩
  have hreply : ∀ counter e, reply ((call.run counter s.state).1.mapError prepareFailure) =
      .error e → { s with state := (call.run counter s.state).2 } = s := by
    intro counter e he
    cases hrun : (call.run counter s.state).1 with
    | ok text =>
        rw [hrun] at he
        cases he
    | error error => rw [h.error counter s.state error hrun]
  cases hcount : s.counter with
  | none =>
      rw [Session.call_of_none hcount]
      exact ⟨hops none, rfl, hreply none⟩
  | some count =>
      cases hraises : call.raises (hostCount count.answer) s.state with
      | true =>
          rw [Session.call_of_raises hcount hraises]
          refine ⟨hops _, rfl, fun _ _ => ?_⟩
          rw [h.raises _ _ hraises]
      | false =>
          rw [Session.call_of_counts hcount hraises]
          exact ⟨hops _, rfl, hreply _⟩

theorem Session.stepped_plain (s : Session F) (call : ArenaState F → Result String × ArenaState F)
    (hops : ∃ ops : List (Op F), (∀ op ∈ ops, met = some op.env) ∧
      (call s.state).2 = ContextLease.run P s.core s.state ops)
    (herror : ∀ e, (call s.state).1 = .error e → (call s.state).2 = s.state) :
    s.Stepped P met (s.plain call) := by
  refine ⟨hops, rfl, ?_⟩
  intro e he
  have hresult : reply ((call s.state).1.mapError prepareFailure) = .error e := he
  cases hrun : (call s.state).1 with
  | ok text =>
      rw [hrun] at hresult
      cases hresult
  | error error =>
      have hstate : (s.plain call).2 = { s with state := (call s.state).2 } := rfl
      rw [hstate, herror error hrun]

theorem Session.stepped_recordUsage (s : Session F) (env : Env) (observation : UsageObservation) :
    s.Stepped P (some env) (s.plain fun state =>
      (recordUsage s.core env observation state).map (Except.map serde.calibrationText) id) := by
  refine s.stepped_plain P _
    ⟨[.recordUsage env observation], List.forall_mem_singleton.2 rfl, ?_⟩ ?_
  · rw [Prod.map_snd]
    rfl
  · intro e he
    rcases recordUsage_cases s.core env observation s.state with ⟨e', heq⟩ | ⟨_, _, _, _, heq, _⟩
    · simp only [heq, Prod.map_snd, id]
    · simp only [heq, Prod.map_fst, Except.map] at he
      cases he

theorem Session.stepped_reading (s : Session F) {α : Type} (parsed : Except Failure α)
    {call : α → NativeResult × Session F} (h : ∀ a, s.Stepped P met (call a)) :
    s.Stepped P met (s.reading parsed call) := by
  cases parsed with
  | error failure => exact Session.stepped_error P _
  | ok a => exact h a

/-! ### The sessions of a process -/

/-- The object whose method it is. -/
def BindingOp.object : BindingOp → Option ℕ
  | .create _ _ => none
  | .prepare i _ _ => some i
  | .prepareBegin i _ _ => some i
  | .prepareCommit i _ _ _ => some i
  | .setTokenCounter i _ => some i
  | .snapshot i => some i
  | .events i _ _ => some i
  | .recordUsage i _ _ => some i
  | .close i => some i

/-- What the method meets in the kernel. -/
def BindingOp.env : BindingOp → Option Env
  | .prepare _ env _ => some env
  | .prepareBegin _ env _ => some env
  | .prepareCommit _ env _ _ => some env
  | .recordUsage _ env _ => some env
  | _ => none

/-- What a method does to the sessions: a new session is opened, a session is closed, or a method of
one session is called. -/
inductive Sessions.Effect (S : Sessions F) (op : BindingOp) : NativeResult → Sessions F → Prop
  | refused (e : NativeError) (hop : op.object = none) :
      Effect S op (.error e) { S with created := S.created + 1 }
  | opened (core : ContextLeaseArena F) (hop : op.object = none) :
      Effect S op (.ok none)
        { S.update S.created (some { core }) with created := S.created + 1 }
  | shut (i : ℕ) (hop : op.object = some i) (result : NativeResult) (hnone : S.session i = none) :
      Effect S op result S
  | closed (i : ℕ) (hop : op.object = some i) : Effect S op (.ok none) (S.update i none)
  | called (i : ℕ) (hop : op.object = some i) (s : Session F) (hs : S.session i = some s)
      (result : NativeResult) (t : Session F)
      (hcounter : (∃ counter, result = .ok none ∧ t = { s with counter := some counter }) ∨
        s.Stepped P op.env (result, t)) :
      Effect S op result (S.update i (some t))

theorem Sessions.within_effect (S : Sessions F) (op : BindingOp) {i : ℕ} (hop : op.object = some i)
    (method : Session F → NativeResult × Session F)
    (h : ∀ s, (∃ counter, method s = (.ok none, { s with counter := some counter })) ∨
      s.Stepped P op.env (method s)) :
    Sessions.Effect P S op (S.within i method).1 (S.within i method).2 := by
  rw [within]
  cases hs : S.session i with
  | none => exact .shut i hop _ hs
  | some s =>
      refine .called i hop s hs _ _ ?_
      rcases h s with ⟨counter, hmethod⟩ | hstepped
      · exact Or.inl ⟨counter, congrArg Prod.fst hmethod, congrArg Prod.snd hmethod⟩
      · exact Or.inr hstepped

theorem Sessions.step_effect (S : Sessions F) (op : BindingOp) :
    Sessions.Effect P S op (S.step P serde hexdigest op).1 (S.step P serde hexdigest op).2 := by
  cases op with
  | create instanceId definition =>
      rw [step, create]
      split
      · exact .refused _ rfl
      · split
        · exact .refused _ rfl
        · exact .opened _ rfl
  | prepare i env request =>
      refine S.within_effect P _ rfl _ ?_
      intro s
      exact Or.inr (s.stepped_reading P _ fun request =>
        s.stepped_call P (sound_prepareCall P serde s.core env request))
  | prepareBegin i env request =>
      refine S.within_effect P _ rfl _ ?_
      intro s
      exact Or.inr (s.stepped_reading P _ fun request =>
        s.stepped_call P (sound_prepareBeginCall P serde s.core env request))
  | prepareCommit i env request semanticResults =>
      refine S.within_effect P _ rfl _ ?_
      intro s
      exact Or.inr (s.stepped_reading P _ fun request => s.stepped_reading P _ fun results =>
        s.stepped_call P (sound_prepareCommitCall P serde s.core env request results))
  | setTokenCounter i counter =>
      exact S.within_effect P _ rfl _ fun s => Or.inl ⟨counter, rfl⟩
  | snapshot i =>
      exact S.within_effect P _ rfl _ fun s =>
        Or.inr (s.stepped_plain P _ ⟨[], List.forall_mem_nil _, rfl⟩ fun _ _ => rfl)
  | events i afterSeq limit =>
      exact S.within_effect P _ rfl _ fun s =>
        Or.inr (s.stepped_plain P _ ⟨[], List.forall_mem_nil _, rfl⟩ fun _ _ => rfl)
  | recordUsage i env observation =>
      refine S.within_effect P _ rfl _ ?_
      intro s
      exact Or.inr (s.stepped_reading P _ (s.stepped_recordUsage P serde env))
  | close i =>
      rw [step]
      split
      · exact .shut i rfl _ ‹_›
      · exact .closed i rfl

/-- The sessions have arenas whose states are reached by operations of the kernel. -/
def Sessions.AllReachable (S : Sessions F) : Prop :=
  ∀ i s, S.session i = some s → Reachable P s.core s.state

/-- A session that is updated is the only one that changes. -/
theorem Sessions.allReachable_update {S : Sessions F} (hall : S.AllReachable P) {i : ℕ}
    {new : Option (Session F)} (hnew : ∀ s, new = some s → Reachable P s.core s.state) :
    (S.update i new).AllReachable P := by
  intro j s hs
  simp only [update] at hs
  by_cases hj : j = i
  · subst hj
    rw [Function.update_self] at hs
    exact hnew s hs
  · rw [Function.update_of_ne hj] at hs
    exact hall j s hs

theorem Sessions.allReachable_step {S : Sessions F} (hall : S.AllReachable P) (op : BindingOp) :
    (S.step P serde hexdigest op).2.AllReachable P := by
  have heffect := S.step_effect P serde hexdigest op
  generalize (S.step P serde hexdigest op).1 = result at heffect
  generalize (S.step P serde hexdigest op).2 = S' at heffect ⊢
  cases heffect with
  | refused e hop => exact hall
  | opened core hop =>
      refine fun j s hs => Sessions.allReachable_update P hall (i := S.created) ?_ j s hs
      intro s hs
      rw [Option.some_inj] at hs
      subst hs
      exact ⟨[], rfl⟩
  | shut i hop result hnone => exact hall
  | closed i hop =>
      refine Sessions.allReachable_update P hall ?_
      intro s hs
      cases hs
  | called i hop s hs result t hcounter =>
      refine Sessions.allReachable_update P hall ?_
      intro t' ht
      rw [Option.some_inj] at ht
      subst ht
      rcases hcounter with ⟨counter, -, rfl⟩ | ⟨⟨ops, -, hops⟩, hcore, -⟩
      · exact hall i s hs
      · obtain ⟨before, hbefore⟩ := hall i s hs
        refine ⟨before ++ ops, ?_⟩
        rw [hbefore, ContextLease.run, ContextLease.run, ← List.foldl_append] at hops
        rw [hcore]
        exact hops

theorem Sessions.allReachable_run {S : Sessions F} (hall : S.AllReachable P)
    (ops : List BindingOp) : (S.run P serde hexdigest ops).2.AllReachable P := by
  induction ops generalizing S with
  | nil => exact hall
  | cons op ops ih => exact ih (Sessions.allReachable_step P serde hexdigest hall op)

/-- After any methods the arena of an object is in a state that operations of the kernel reach. -/
theorem session_reachable (ops : List BindingOp) :
    ∃ results p, ({} : Process F).run P serde hexdigest ops = some (results, p) ∧
      ∀ i s, p.session i = some s → Reachable P s.core s.state := by
  obtain ⟨p, hrun, hrep⟩ := represents_run serde hexdigest P represents_new ops
  refine ⟨_, p, hrun, ?_⟩
  intro i s hs
  rw [hrep.session_eq] at hs
  exact Sessions.allReachable_run P serde hexdigest (fun i s hs => by cases hs) ops i s hs

/-- A method that raises an exception leaves the sessions as they were. -/
theorem Sessions.session_step_of_error {S : Sessions F} {op : BindingOp} {e : NativeError}
    (h : (S.step P serde hexdigest op).1 = .error e) :
    (S.step P serde hexdigest op).2.session = S.session := by
  have heffect := S.step_effect P serde hexdigest op
  rw [h] at heffect
  generalize (S.step P serde hexdigest op).2 = S' at heffect ⊢
  cases heffect with
  | refused e hop => rfl
  | shut i hop result hnone => rfl
  | called i hop s hs result t hcounter =>
      rcases hcounter with ⟨counter, hok, -⟩ | ⟨-, -, herror⟩
      · cases hok
      · have ht : t = s := herror e rfl
        rw [ht, Sessions.update_eq_self hs]

/-- Whatever methods were called before, a method that raises an exception, be it that the library
returns an error or that the callback has raised it, leaves the arenas of all objects as they
were. -/
theorem exception_keeps_arenas (ops : List BindingOp) (op : BindingOp) :
    ∃ results p result p', ({} : Process F).run P serde hexdigest ops = some (results, p) ∧
      p.step P serde hexdigest op = some (result, p') ∧
      ∀ e, result = .error e → ∀ i, p'.session i = p.session i := by
  obtain ⟨p, hrun, hrep⟩ := represents_run serde hexdigest P represents_new ops
  obtain ⟨p', hstep, hrep'⟩ := represents_step serde hexdigest P hrep op
  refine ⟨_, p, _, p', hrun, hstep, ?_⟩
  intro e he i
  rw [hrep.session_eq, hrep'.session_eq, Sessions.session_step_of_error P serde hexdigest he]

/-! ### Isolation -/

/-- The methods of an object, and those that make objects. -/
def concerns (i : ℕ) (op : BindingOp) : Bool := op.object = none || op.object = some i

/-- A method of another object leaves a session alone. -/
theorem Sessions.step_of_not_concerns (S : Sessions F) {i : ℕ} {op : BindingOp}
    (h : concerns i op = false) :
    (S.step P serde hexdigest op).2.session i = S.session i ∧
      (S.step P serde hexdigest op).2.created = S.created := by
  simp only [concerns, Bool.or_eq_false_iff, decide_eq_false_iff_not] at h
  have hother : ∀ j new, op.object = some j → (S.update j new).session i = S.session i := by
    intro j new hop
    refine Function.update_of_ne ?_ _ _
    rintro rfl
    exact h.2 hop
  have heffect := S.step_effect P serde hexdigest op
  generalize (S.step P serde hexdigest op).1 = result at heffect
  generalize (S.step P serde hexdigest op).2 = S' at heffect ⊢
  cases heffect with
  | refused e hop => exact absurd hop h.1
  | opened core hop => exact absurd hop h.1
  | shut j hop result hnone => exact ⟨rfl, rfl⟩
  | closed j hop => exact ⟨hother j _ hop, rfl⟩
  | called j hop s hs result t hcounter => exact ⟨hother j _ hop, rfl⟩

/-- Two families of sessions that agree on one session and on how many were made. -/
def Sessions.AgreeOn (i : ℕ) (S T : Sessions F) : Prop :=
  S.session i = T.session i ∧ S.created = T.created

theorem Sessions.update_agree {i : ℕ} {S T : Sessions F} (h : Sessions.AgreeOn i S T)
    (new : Option (Session F)) : Sessions.AgreeOn i (S.update i new) (T.update i new) := by
  refine ⟨?_, h.2⟩
  simp only [update, Function.update_self]

theorem Sessions.within_agree {i : ℕ} {S T : Sessions F} (h : Sessions.AgreeOn i S T)
    (method : Session F → NativeResult × Session F) :
    (S.within i method).1 = (T.within i method).1 ∧
      Sessions.AgreeOn i (S.within i method).2 (T.within i method).2 := by
  rw [within, within, h.1]
  cases hs : T.session i with
  | none => exact ⟨rfl, h⟩
  | some s => exact ⟨rfl, Sessions.update_agree h _⟩

/-- What a method of an object returns depends on the session of the object. -/
theorem Sessions.step_agree {i : ℕ} {S T : Sessions F} (h : Sessions.AgreeOn i S T)
    {op : BindingOp} (hop : concerns i op = true) :
    (S.step P serde hexdigest op).1 = (T.step P serde hexdigest op).1 ∧
      Sessions.AgreeOn i (S.step P serde hexdigest op).2 (T.step P serde hexdigest op).2 := by
  have hobject : ∀ j, op.object = some j → j = i := by
    intro j hj
    rw [concerns, hj] at hop
    simpa using hop
  cases op with
  | create instanceId definition =>
      have hbumped : S.created + 1 = T.created + 1 := congrArg (· + 1) h.2
      rw [step, step, create, create]
      split
      · exact ⟨rfl, h.1, hbumped⟩
      · split
        · exact ⟨rfl, h.1, hbumped⟩
        · refine ⟨rfl, ?_, hbumped⟩
          simp only [update, h.2]
          by_cases hi : i = T.created
          · rw [hi, Function.update_self, Function.update_self]
          · rw [Function.update_of_ne hi, Function.update_of_ne hi, h.1]
  | close j =>
      obtain rfl := hobject j rfl
      rw [step, step, h.1]
      cases T.session j with
      | none => exact ⟨rfl, h⟩
      | some s => exact ⟨rfl, Sessions.update_agree h none⟩
  | prepare j env request =>
      obtain rfl := hobject j rfl
      exact Sessions.within_agree h _
  | prepareBegin j env request =>
      obtain rfl := hobject j rfl
      exact Sessions.within_agree h _
  | prepareCommit j env request semanticResults =>
      obtain rfl := hobject j rfl
      exact Sessions.within_agree h _
  | setTokenCounter j counter =>
      obtain rfl := hobject j rfl
      exact Sessions.within_agree h _
  | snapshot j =>
      obtain rfl := hobject j rfl
      exact Sessions.within_agree h _
  | events j afterSeq limit =>
      obtain rfl := hobject j rfl
      exact Sessions.within_agree h _
  | recordUsage j env observation =>
      obtain rfl := hobject j rfl
      exact Sessions.within_agree h _

/-- What the methods that are kept return. -/
def resultsOf (keep : BindingOp → Bool) : List BindingOp → List NativeResult → List NativeResult
  | op :: ops, result :: results =>
      if keep op then result :: resultsOf keep ops results else resultsOf keep ops results
  | _, _ => []

theorem Sessions.run_agree {i : ℕ} {S T : Sessions F} (h : Sessions.AgreeOn i S T)
    (ops : List BindingOp) :
    resultsOf (concerns i) ops (S.run P serde hexdigest ops).1 =
        (T.run P serde hexdigest (ops.filter (concerns i))).1 ∧
      Sessions.AgreeOn i (S.run P serde hexdigest ops).2
        (T.run P serde hexdigest (ops.filter (concerns i))).2 := by
  induction ops generalizing S T with
  | nil => exact ⟨rfl, h⟩
  | cons op ops ih =>
      cases hop : concerns i op with
      | true =>
          obtain ⟨hresult, hagree⟩ := Sessions.step_agree P serde hexdigest h hop
          obtain ⟨hresults, hagree'⟩ := ih hagree
          rw [List.filter_cons_of_pos hop]
          refine ⟨?_, hagree'⟩
          simp only [run, resultsOf, hop, if_true, hresult, hresults]
      | false =>
          obtain ⟨hsession, hcreated⟩ := S.step_of_not_concerns P serde hexdigest hop
          rw [List.filter_cons_of_neg (by rw [hop]; exact Bool.false_ne_true)]
          obtain ⟨hresults, hagree'⟩ := ih ⟨hsession.trans h.1, hcreated.trans h.2⟩
          refine ⟨?_, hagree'⟩
          simp only [run, resultsOf, hop, Bool.false_eq_true, if_false, hresults]

/-- The objects of a process do not disturb each other: what the methods of one of them return, and
the arena it has in the end, are the same when the methods of the other objects are left out. -/
theorem objects_isolated (ops : List BindingOp) (i : ℕ) :
    ∃ results p results' p',
      ({} : Process F).run P serde hexdigest ops = some (results, p) ∧
      ({} : Process F).run P serde hexdigest (ops.filter (concerns i)) = some (results', p') ∧
      resultsOf (concerns i) ops results = results' ∧ p.session i = p'.session i := by
  obtain ⟨p, hrun, hrep⟩ := represents_run serde hexdigest P represents_new ops
  obtain ⟨p', hrun', hrep'⟩ :=
    represents_run serde hexdigest P represents_new (ops.filter (concerns i))
  obtain ⟨hresults, hagree, -⟩ := @Sessions.run_agree F _ P serde hexdigest i {} {} ⟨rfl, rfl⟩ ops
  exact ⟨_, p, _, p', hrun, hrun', hresults, by rw [hrep.session_eq, hrep'.session_eq, hagree]⟩

end Runs

end Foreign

end ContextLease
