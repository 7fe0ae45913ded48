/-
The binding of the package to the kernel.

An object of the binding holds the address of an arena, and the callback that the arena counts with.
Several objects live in one process, and each of them may be closed at any time.  Seen from outside,
an object is a session with a kernel of its own: what it answers depends on its own calls only.

Main definitions:

* `Foreign.NativeArena`, `Foreign.Process` — an object, and a process with its objects;
* `Foreign.BindingOp`, `Foreign.Process.step`, `Foreign.Process.run` — the methods of the objects;
* `Foreign.Session`, `Foreign.Sessions`, `Foreign.Sessions.step` — the sessions they stand for.
-/

import ContextLease.ForeignInterface

set_option relaxedAutoImplicit false
set_option autoImplicit false

namespace ContextLease

open MachineNumbers RustText

variable {F : Type}

namespace Foreign

/-! ### Objects -/

/-- The source's `NativeArena`.  Of the exception of a callback it is kept that there is one. -/
structure NativeArena where
  handle : Option ℕ := none
  tokenCallback : Option ℕ := none
  tokenCallbackError : Bool := false

/-- The source's `NativeContextLeaseError`: the object is closed, a callback has raised an
exception, or the library has returned an error with this text. -/
inductive NativeError
  | closed
  | callback
  | detail (text : String)

/-- What a method returns: a text, unless it returns nothing. -/
abbrev NativeResult := Except NativeError (Option String)

/-- A method of an object of the process, with what the call meets; the arguments that are sent as
JSON are given as their texts. -/
inductive BindingOp
  | create (instanceId : String) (definition : String)
  | prepare (i : ℕ) (env : Env) (request : String)
  | prepareBegin (i : ℕ) (env : Env) (request : String)
  | prepareCommit (i : ℕ) (env : Env) (request semanticResults : String)
  | setTokenCounter (i : ℕ) (counter : HostTokenizer)
  | snapshot (i : ℕ)
  | events (i : ℕ) (afterSeq limit : ℤ)
  | recordUsage (i : ℕ) (env : Env) (observation : String)
  | close (i : ℕ)

variable [FloatOps F]

/-- A process: what the library owns, the callbacks, and the objects by number.  A number that
belongs to no object yet is that of an object without an arena. -/
structure Process (F : Type) [FloatOps F] where
  native : Native F := {}
  callbacks : OwnedHeap HostCallback := {}
  objects : ℕ → NativeArena := fun _ => {}
  created : ℕ := 0

/-- The source's `_check`. -/
def check (ret : Return F) : Except NativeError Unit :=
  if ret.code = 0 then .ok ()
  else if ret.native.lastError = "" then .error (.detail ("native error " ++ toString ret.code))
  else .error (.detail ret.native.lastError)

/-- The source's `c_uint64(max(0, after_seq))`. -/
def unsigned (n : ℤ) : ℕ := n.toNat % 18446744073709551616

namespace Process

section Methods

variable (p : Process F)

/-- The process with another object. -/
def update (i : ℕ) (object : NativeArena) : Process F :=
  { p with objects := Function.update p.objects i object }

/-- The process when no exception is noted in an object. -/
def cleared (i : ℕ) : Process F := p.update i { p.objects i with tokenCallbackError := false }

/-- The process when an exception has been noted in an object. -/
def noted (raised : Option ℕ) : Process F :=
  match raised with
  | some j => p.update j { p.objects j with tokenCallbackError := true }
  | none => p

/-- The end of a method that returns a text: the text is read and freed. -/
def readResult (ret : Return F) : Option (NativeResult × Process F) :=
  match check ret with
  | .error error => some (.error error, p)
  | .ok () => do
      let address ← ret.out
      let text ← p.native.strings.get address
      let native ← p.native.stringFree ret.out
      some (.ok (some text), { p with native })

/-- The methods that may count with the callback; the check of the callback's exception is the
source's `_check_token_callback`. -/
def counting (i : ℕ) (call : Native F → OwnedHeap HostCallback → Option ℕ → Option (Return F)) :
    Option (NativeResult × Process F) :=
  match (p.objects i).handle with
  | none => some (.error .closed, p)
  | some handle => do
      let cleared := p.cleared i
      let ret ← call cleared.native cleared.callbacks (some handle)
      let called := { cleared with native := ret.native }.noted ret.raised
      if (called.objects i).tokenCallbackError then some (.error .callback, called.cleared i)
      else called.readResult ret

/-- The source's `_json_output`. -/
def jsonOutput (i : ℕ) (call : Native F → Option ℕ → Option (Return F)) :
    Option (NativeResult × Process F) :=
  match (p.objects i).handle with
  | none => some (.error .closed, p)
  | some handle => do
      let ret ← call p.native (some handle)
      { p with native := ret.native }.readResult ret

/-- The callbacks without one that is no longer referred to. -/
def released (callbacks : OwnedHeap HostCallback) (callback : Option ℕ) :
    Option (OwnedHeap HostCallback) :=
  match callback with
  | some q => callbacks.free q
  | none => some callbacks

/-- The source's `NativeArena.__init__`; of an object that fails nothing is left. -/
def create (serde : Serde F) (hexdigest : ByteArray → String) (instanceId definition : String) :
    Option (NativeResult × Process F) :=
  let ret := p.native.arenaCreate serde hexdigest instanceId (some definition.toUTF8)
  let called := { p with native := ret.native, created := p.created + 1 }
  match check ret with
  | .error error => some (.error error, called)
  | .ok () => some (.ok none, called.update p.created { handle := ret.out })

/-- The source's `set_token_counter`.  The callback that is replaced is gone before the library is
told of the new one. -/
def setTokenCounter (i : ℕ) (counter : HostTokenizer) : Option (NativeResult × Process F) :=
  match (p.objects i).handle with
  | none => some (.error .closed, p)
  | some handle => do
      let tokenCallback := p.callbacks.next
      let callbacks ← released (p.callbacks.alloc ⟨counter, i⟩) (p.objects i).tokenCallback
      let assigned := { p with callbacks }.update i
        { p.objects i with tokenCallback := some tokenCallback }
      let ret ← assigned.native.arenaSetTokenCounter (some handle) (some tokenCallback)
      some ((check ret).map fun _ => none, { assigned with native := ret.native })

/-- The source's `close`. -/
def close (i : ℕ) : Option (NativeResult × Process F) :=
  match (p.objects i).handle with
  | none => some (.ok none, p)
  | some handle => do
      let native ← p.native.arenaFree (some handle)
      let callbacks ← released p.callbacks (p.objects i).tokenCallback
      some (.ok none, { p with native, callbacks }.update i {})

end Methods

section Runs

variable (P : Platform) (serde : Serde F) (hexdigest : ByteArray → String)

/-- A method, with what it returns. -/
def step (p : Process F) : BindingOp → Option (NativeResult × Process F)
  | .create instanceId definition => p.create serde hexdigest instanceId definition
  | .prepare i env request =>
      p.counting i fun native callbacks arena =>
        native.arenaPrepare P serde env callbacks arena (some request.toUTF8)
  | .prepareBegin i env request =>
      p.counting i fun native callbacks arena =>
        native.arenaPrepareBegin P serde env callbacks arena (some request.toUTF8)
  | .prepareCommit i env request semanticResults =>
      p.counting i fun native callbacks arena =>
        native.arenaPrepareCommit P serde env callbacks arena (some request.toUTF8)
          (some semanticResults.toUTF8)
  | .setTokenCounter i counter => p.setTokenCounter i counter
  | .snapshot i => p.jsonOutput i fun native arena => native.arenaSnapshotJson serde arena
  | .events i afterSeq limit =>
      p.jsonOutput i fun native arena =>
        native.arenaEventsJson serde arena (unsigned (max 0 afterSeq))
          (max 1 (min limit 10000)).toNat
  | .recordUsage i env observation =>
      p.jsonOutput i fun native arena =>
        native.arenaRecordUsage serde arena env (some observation.toUTF8)
  | .close i => p.close i

/-- A sequence of methods, with what they return. -/
def run (p : Process F) : List BindingOp → Option (List NativeResult × Process F)
  | [] => some ([], p)
  | op :: ops => do
      let (result, p) ← p.step P serde hexdigest op
      let (results, p) ← p.run ops
      some (result :: results, p)

end Runs

end Process

/-! ### Sessions -/

/-- A session: an arena, its state, and the counter it counts with. -/
structure Session (F : Type) [FloatOps F] where
  core : ContextLeaseArena F
  state : ArenaState F := {}
  counter : Option HostTokenizer := none

/-- The sessions of a process that are open. -/
structure Sessions (F : Type) [FloatOps F] where
  session : ℕ → Option (Session F) := fun _ => none
  created : ℕ := 0

/-- What a method returns for what the library has found. -/
def reply : Except Failure String → NativeResult
  | .ok text => .ok (some text)
  | .error failure => .error (.detail (errorEnvelope failure.error))

/-- A call of the kernel in a session, with the counter of the session. -/
def Session.call (s : Session F) (call : KernelCall F) : NativeResult × Session F :=
  let counter := s.counter.map fun count => hostCount count.answer
  let (result, state) := call.run counter s.state
  match counter with
  | some counter =>
      if call.raises counter s.state then (.error .callback, { s with state })
      else (reply (result.mapError prepareFailure), { s with state })
  | none => (reply (result.mapError prepareFailure), { s with state })

/-- A call of the kernel in a session without a counter. -/
def Session.plain (s : Session F) (call : ArenaState F → Result String × ArenaState F) :
    NativeResult × Session F :=
  let (result, state) := call s.state
  (reply (result.mapError prepareFailure), { s with state })

/-- A text that is read before a call, or else the error is returned. -/
def Session.reading (s : Session F) {α : Type} (parsed : Except Failure α)
    (call : α → NativeResult × Session F) : NativeResult × Session F :=
  match parsed with
  | .ok a => call a
  | .error failure => (reply (.error failure), s)

namespace Sessions

variable (S : Sessions F)

/-- The sessions when one of them has become another, or has been closed. -/
def update (i : ℕ) (s : Option (Session F)) : Sessions F :=
  { S with session := Function.update S.session i s }

/-- A method of an open session. -/
def within (i : ℕ) (method : Session F → NativeResult × Session F) : NativeResult × Sessions F :=
  match S.session i with
  | none => (.error .closed, S)
  | some s =>
      let (result, s) := method s
      (result, S.update i (some s))

variable (P : Platform) (serde : Serde F) (hexdigest : ByteArray → String)

/-- A new session, if the kernel accepts the definition. -/
def create (instanceId definition : String) : NativeResult × Sessions F :=
  match (serde.readDefinition definition).mapError jsonFailure with
  | .error failure => (reply (.error failure), { S with created := S.created + 1 })
  | .ok definition =>
      match newArena hexdigest instanceId definition with
      | .error error =>
          (reply (.error (configurationFailure error)), { S with created := S.created + 1 })
      | .ok core =>
          (.ok none, { S.update S.created (some { core }) with created := S.created + 1 })

/-- What a method returns, and what becomes of the sessions. -/
def step : BindingOp → NativeResult × Sessions F
  | .create instanceId definition => S.create serde hexdigest instanceId definition
  | .prepare i env request =>
      S.within i fun s =>
        s.reading ((serde.readRequest request).mapError jsonFailure) fun request =>
          s.call (prepareCall P serde s.core env request)
  | .prepareBegin i env request =>
      S.within i fun s =>
        s.reading ((serde.readRequest request).mapError jsonFailure) fun request =>
          s.call (prepareBeginCall P serde s.core env request)
  | .prepareCommit i env request semanticResults =>
      S.within i fun s =>
        s.reading ((serde.readRequest request).mapError jsonFailure) fun request =>
          s.reading ((serde.readResults semanticResults).mapError jsonFailure) fun results =>
            s.call (prepareCommitCall P serde s.core env request results)
  | .setTokenCounter i counter => S.within i fun s => (.ok none, { s with counter := some counter })
  | .snapshot i =>
      S.within i fun s => s.plain fun state => (.ok (serde.snapshotText (snapshot state)), state)
  | .events i afterSeq limit =>
      S.within i fun s => s.plain fun state =>
        (.ok (serde.eventsText (eventsAfter state (unsigned (max 0 afterSeq))
          (max 1 (min limit 10000)).toNat)), state)
  | .recordUsage i env observation =>
      S.within i fun s =>
        s.reading ((serde.readObservation observation).mapError jsonFailure) fun observation =>
          s.plain fun state =>
            (recordUsage s.core env observation state).map (Except.map serde.calibrationText) id
  | .close i =>
      match S.session i with
      | none => (.ok none, S)
      | some _ => (.ok none, S.update i none)

/-- What a sequence of methods returns, and what becomes of the sessions. -/
def run (S : Sessions F) : List BindingOp → List NativeResult × Sessions F
  | [] => ([], S)
  | op :: ops =>
      let (result, S) := S.step P serde hexdigest op
      let (results, S) := S.run ops
      (result :: results, S)

end Sessions

end Foreign

end ContextLease
