/-
The arena of the package.

The package's arena holds an object of the binding.  It sends it texts, reads the texts that come
back, asks the providers for the summaries that the kernel wants, and publishes what it has read.
Here that is a program that calls the methods of the object one after the other; between two of
them the methods of other objects may run.

Main definitions:

* `Client` — a program over the methods of an object, run by a process or by a session alone;
* `Package` — what an arena of the package is set up with;
* `Package.prepareClient`, `Package.recordUsageClient` — the methods of the package's arena;
* `Package.runCalls` — calls of the methods, with what other objects do meanwhile.

Main results:

* `Client.onProcess_eq` — a process does to an object what its session does.
-/

import ContextLease.BindingSafety
import ContextLease.ReplySafety

set_option relaxedAutoImplicit false
set_option autoImplicit false

namespace ContextLease

open MachineNumbers RustText

variable {F : Type}

/-- An exception of Python itself stands with those of the providers. -/
def FacadeError.ofRaised (e : Host.Raised) : FacadeError := .provider e.str

namespace Foreign

/-! ### Programs over an object -/

/-- A method that the package's arena calls, with what the call meets. -/
inductive NativeMethod
  | prepareBegin (env : Env) (request : String)
  | prepareCommit (env : Env) (request semanticResults : String)
  | recordUsage (env : Env) (observation : String)
  | events (afterSeq limit : ℤ)
  | snapshot

/-- The method, of an object. -/
def NativeMethod.op (i : ℕ) : NativeMethod → BindingOp
  | .prepareBegin env request => .prepareBegin i env request
  | .prepareCommit env request semanticResults => .prepareCommit i env request semanticResults
  | .recordUsage env observation => .recordUsage i env observation
  | .events afterSeq limit => .events i afterSeq limit
  | .snapshot => .snapshot i

/-- A program that calls methods of an object, one after the other. -/
inductive Client (α : Type)
  | done (a : α)
  | call (method : NativeMethod) (next : NativeResult → Client α)

/-- The methods of objects other than one. -/
abbrev OtherOps (i : ℕ) := List {op : BindingOp // op.object ≠ some i}

variable [FloatOps F]

section Clients

variable (P : Platform) (serde : Serde F) (hexdigest : ByteArray → String)

/-- A program over an object of a process.  Before each of its methods, methods of other objects
run; those that are left over run later. -/
def Client.onProcess {α : Type} (i : ℕ) : Client α → List (OtherOps i) → Process F →
    Option (α × List (OtherOps i) × Process F)
  | .done a, others, p => some (a, others, p)
  | .call method next, others, p => do
      let (_, p) ← p.run P serde hexdigest ((others.headD []).map Subtype.val)
      let (result, p) ← p.step P serde hexdigest (method.op i)
      (next result).onProcess i others.tail p

/-- A method of a session. -/
def NativeMethod.inSession (s : Session F) : NativeMethod → NativeResult × Session F
  | .prepareBegin env request =>
      s.reading ((serde.readRequest request).mapError jsonFailure) fun request =>
        s.call (prepareBeginCall P serde s.core env request)
  | .prepareCommit env request semanticResults =>
      s.reading ((serde.readRequest request).mapError jsonFailure) fun request =>
        s.reading ((serde.readResults semanticResults).mapError jsonFailure) fun results =>
          s.call (prepareCommitCall P serde s.core env request results)
  | .recordUsage env observation =>
      s.reading ((serde.readObservation observation).mapError jsonFailure) fun observation =>
        s.plain fun state =>
          (ContextLease.recordUsage s.core env observation state).map
            (Except.map serde.calibrationText) id
  | .events afterSeq limit =>
      s.plain fun state => (.ok (serde.eventsText (eventsAfter state (unsigned (max 0 afterSeq))
        (max 1 (min limit 10000)).toNat)), state)
  | .snapshot =>
      s.plain fun state => (.ok (serde.snapshotText (ContextLease.snapshot state)), state)

/-- A program over a session that has its process for itself. -/
def Client.onSession {α : Type} : Client α → Session F → α × Session F
  | .done a, s => (a, s)
  | .call method next, s =>
      let (result, s) := method.inSession P serde s
      (next result).onSession s

end Clients

/-! ### The package -/

section Package

/-- The source's `SummaryRequest`. -/
structure SummaryRequest (F : Type) where
  content : String
  targetTokens : ℤ
  instructions : String
  requiredTerms : List String
  temperature : F
  metadata : BTreeMap Value

/-- The source's `SummaryProviderRegistry`, as it is during a call. -/
abbrev SummaryProviders (F : Type) := HashMap (SummaryRequest F → Except FacadeError String)

/-- The source's `get`. -/
def SummaryProviders.find (providers : SummaryProviders F) (providerId : String) :
    Except FacadeError (SummaryRequest F → Except FacadeError String) :=
  match providers providerId with
  | some provider => .ok provider
  | none => .error (.configuration ("unknown summary provider: " ++ providerId))

/-- The texts between the two sides.  Python reads the texts of the library as what the library has
written, and the library reads the results that Python writes. -/
structure JsonTexts (serde : Serde F) where
  /-- `json.loads(text)`. -/
  loads : String → Except Host.Raised Value
  /-- The text of the results, each a dictionary of its two fields. -/
  dumpsResults : List SemanticResult → String
  loads_plan : ∀ plan, loads (serde.planText plan) = .ok plan.toValue
  loads_begun : ∀ begun, loads (serde.begunText begun) = .ok begun.toValue
  loads_snapshot : ∀ snapshot,
    loads (serde.snapshotText snapshot) = .ok (ofOption ArenaSnapshot.toValue snapshot)
  loads_events : ∀ events,
    loads (serde.eventsText events) = .ok (.array (events.map TraceEvent.toValue))
  loads_calibration : ∀ calibration : UsageCalibration F,
    loads (serde.calibrationText calibration) = .ok calibration.toValue
  loads_envelope : ∀ error, loads (errorEnvelope error) =
    .ok (.object [("code", .string error.code), ("message", .string error.message)])
  read_results : ∀ results, serde.readResults (dumpsResults results) = .ok results

/-- What an arena of the package is set up with, and what it rests on. -/
structure Package (serde : Serde F) where
  py : PythonReads F
  json : JsonTexts serde
  arenaId : String
  instanceIdOverride : Option String
  /-- The text of the exception of the counter. -/
  callbackError : String

/-- The text of an exception of the binding. -/
def NativeError.message (callbackError : String) : NativeError → String
  | .closed => "native arena is closed"
  | .callback => "host tokenizer callback failed: " ++ callbackError
  | .detail text => text

/-- What a call of the package's arena returns. -/
abbrev PackageResult (F : Type) := Except FacadeError (HostContextPlan F ⊕ UsageCalibration F)

/-- A call of the package's arena, with what it meets: the kernel reads a clock, and so does Python,
one time after the other.  What is sent as JSON is given as its text. -/
inductive PackageCall (F : Type)
  | prepare (beginEnv commitEnv : Env) (clock : ℕ → Host.Datetime) (request : String)
      (providers : SummaryProviders F)
  | recordUsage (env : Env) (clock : ℕ → Host.Datetime) (observation : String)

/-- The clock of Python during a call. -/
def PackageCall.clock : PackageCall F → ℕ → Host.Datetime
  | .prepare _ _ clock _ _ => clock
  | .recordUsage _ clock _ => clock

/-- A call during which the clock of the kernel shows years of four digits. -/
def PackageCall.Stamped : PackageCall F → Prop
  | .prepare beginEnv commitEnv _ _ _ => beginEnv.Stamped ∧ commitEnv.Stamped
  | .recordUsage env _ _ => env.Stamped

namespace Package

variable {serde : Serde F} (pkg : Package serde)

/-- The source's `_raise_native`. -/
def raiseError (error : NativeError) : FacadeError :=
  let message := error.message pkg.callbackError
  match pkg.json.loads message with
  | .ok envelope =>
      raiseNative
        ⟨pkg.py.str (Reply.getOr envelope "code" (.string "native_error")),
          pkg.py.str (Reply.getOr envelope "message" (.string message))⟩
  | .error _ => raiseNative ⟨"native_error", message⟩

/-- What a method returns, as the package sees it. -/
def answer (reply : NativeResult) : Except FacadeError Value :=
  match reply with
  | .ok text => (pkg.json.loads (text.getD "")).mapError .ofRaised
  | .error error => .error (pkg.raiseError error)

/-- The source's `_summarize`. -/
def summarize (providers : SummaryProviders F) (value : Value) :
    Except FacadeError SemanticResult := do
  let options ← (pkg.py.dict (Reply.getOr value "options" (.object []))).mapError .ofRaised
  let providerId ← (Reply.item value "provider_id").mapError .ofRaised
  let provider ← providers.find (pkg.py.str providerId)
  let content ← (Reply.item value "source_text").mapError .ofRaised
  let targetTokens ← (Reply.item value "target_tokens" >>= pkg.py.int).mapError .ofRaised
  let instructions := Reply.getOr (.object options) "instructions"
    (.string "Preserve facts, qualifiers, and unresolved items.")
  let requiredTerms ←
    (Reply.texts pkg.py (Reply.getOr value "required_terms" (.array []))).mapError .ofRaised
  let temperature := Reply.getOr (.object options) "temperature" (ofFloat (FloatOps.ofRat 0 : F))
  let temperature ← (pkg.py.float temperature).mapError .ofRaised
  let moduleId ← (Reply.item value "module_id").mapError .ofRaised
  let algorithmId ← (Reply.item value "algorithm_id").mapError .ofRaised
  let text ← provider
    { content := pkg.py.str content
      targetTokens
      instructions := pkg.py.str instructions
      requiredTerms
      temperature
      metadata := BTreeMap.ofList
        [("arena_id", .string pkg.arenaId), ("module_id", moduleId),
          ("algorithm_id", algorithmId)] }
  let semanticRequestId ← (Reply.item value "semantic_request_id").mapError .ofRaised
  return { semanticRequestId := pkg.py.str semanticRequestId, content := text }

/-- What `prepare_begin` returns: a plan, or the requests for summaries. -/
def begun (value : Value) : Except FacadeError (Value ⊕ List Value) := do
  let status ← (Reply.item value "status").mapError .ofRaised
  match status with
  | .string "ready" => return .inl (← (Reply.item value "prepared").mapError .ofRaised)
  | _ =>
      let requests := Reply.getOr value "semantic_requests" (.array [])
      return .inr (← (pkg.py.items requests).mapError .ofRaised)

/-- What `prepare` does with the plan that the binding has returned.  The times at which the leases
of the snapshot have been read are not followed into the store. -/
def publishPlan (clock : ℕ → Host.Datetime) (observations : ObservationStore F) (raw : Value) :
    PackageResult F × ObservationStore F :=
  match Reply.readPlan pkg.py clock pkg.instanceIdOverride raw 0 with
  | .error e => (.error (.ofRaised e), observations)
  | .ok (prepared, _) =>
      (.ok (.inl prepared),
        (observations.publishMany prepared.plan.traceEvents).publishSnapshot
          prepared.plan.snapshot)

/-- The source's `prepare`. -/
def prepareClient (beginEnv commitEnv : Env) (clock : ℕ → Host.Datetime) (request : String)
    (providers : SummaryProviders F) (observations : ObservationStore F) :
    Client (PackageResult F × ObservationStore F) :=
  .call (.prepareBegin beginEnv request) fun reply =>
    match pkg.answer reply >>= pkg.begun with
    | .error e => .done (.error e, observations)
    | .ok (.inl raw) => .done (pkg.publishPlan clock observations raw)
    | .ok (.inr items) =>
        match items.mapM (pkg.summarize providers) with
        | .error e => .done (.error e, observations)
        | .ok results =>
            .call (.prepareCommit commitEnv request (pkg.json.dumpsResults results)) fun reply =>
              match pkg.answer reply with
              | .error e => .done (.error e, observations)
              | .ok raw => .done (pkg.publishPlan clock observations raw)

/-- The source's `publish_many`, for events that are read one after the other; it goes on from one
look at the clock to another. -/
def publishEvents (clock : ℕ → Host.Datetime) (instanceId : String) :
    List Value → ℕ → ObservationStore F → Except FacadeError ℕ × ObservationStore F
  | [], n, observations => (.ok n, observations)
  | value :: values, n, observations =>
      match Reply.readEvent pkg.py clock instanceId value n with
      | .error e => (.error (.ofRaised e), observations)
      | .ok (event, n) =>
          publishEvents clock instanceId values n (observations.publishEvent event)

/-- What `record_usage` does with the snapshot that the binding has returned. -/
def publishRaw (clock : ℕ → Host.Datetime) (instanceId : String) (rawSnapshot : Value) (n : ℕ)
    (observations : ObservationStore F) : Except FacadeError Unit × ObservationStore F :=
  if pkg.py.bool rawSnapshot then
    match Reply.readSnapshot pkg.py clock instanceId rawSnapshot n with
    | .error e => (.error (.ofRaised e), observations)
    | .ok (snapshot, _) => (.ok (), observations.publishSnapshot snapshot.snapshot)
  else (.ok (), observations)

/-- The name of the snapshot that the binding has returned. -/
def rawInstance (rawSnapshot : Value) : Except FacadeError String := do
  let native ← if pkg.py.bool rawSnapshot then
      (Reply.item rawSnapshot "instance_id").mapError .ofRaised
    else .ok (.string "")
  return publishedInstance pkg.instanceIdOverride (pkg.py.str native)

/-- The value of a calibration, which is there. -/
def calibration (value : Value) : PackageResult F :=
  match Reply.readCalibration pkg.py value with
  | .error e => .error (.ofRaised e)
  | .ok none => .error (.ofRaised (.other ""))
  | .ok (some calibration) => .ok (.inr calibration)

/-- What `record_usage` does with what the binding has returned. -/
def publishUsage (clock : ℕ → Host.Datetime) (value rawEvents rawSnapshot : Value)
    (observations : ObservationStore F) : PackageResult F × ObservationStore F :=
  match pkg.rawInstance rawSnapshot with
  | .error e => (.error e, observations)
  | .ok instanceId =>
      match (pkg.py.items rawEvents).mapError FacadeError.ofRaised with
      | .error e => (.error e, observations)
      | .ok values =>
          match pkg.publishEvents clock instanceId values 0 observations with
          | (.error e, observations) => (.error e, observations)
          | (.ok n, observations) =>
              match pkg.publishRaw clock instanceId rawSnapshot n observations with
              | (.error e, observations) => (.error e, observations)
              | (.ok (), observations) => (pkg.calibration value, observations)

/-- The number of the last event that the store returns for the arena. -/
def lastSeq (observations : ObservationStore F) : ℕ :=
  ((observations.eventsAfter pkg.arenaId 0 10000).getLast?.map TraceEvent.seq).getD 0

/-- The source's `record_usage`. -/
def recordUsageClient (env : Env) (clock : ℕ → Host.Datetime) (observation : String)
    (observations : ObservationStore F) : Client (PackageResult F × ObservationStore F) :=
  .call (.recordUsage env observation) fun reply =>
    match pkg.answer reply with
    | .error e => .done (.error e, observations)
    | .ok value =>
        .call (.events (pkg.lastSeq observations) 1000) fun reply =>
          match pkg.answer reply with
          | .error e => .done (.error e, observations)
          | .ok rawEvents =>
              .call .snapshot fun reply =>
                match pkg.answer reply with
                | .error e => .done (.error e, observations)
                | .ok rawSnapshot =>
                    .done (pkg.publishUsage clock value rawEvents rawSnapshot observations)

/-- A call, as a program over the object of the arena. -/
def client (call : PackageCall F) (observations : ObservationStore F) :
    Client (PackageResult F × ObservationStore F) :=
  match call with
  | .prepare beginEnv commitEnv clock request providers =>
      pkg.prepareClient beginEnv commitEnv clock request providers observations
  | .recordUsage env clock observation =>
      pkg.recordUsageClient env clock observation observations

variable (P : Platform) (hexdigest : ByteArray → String)

/-- Calls of an arena of the package, with what they return and the store they leave behind. -/
def runCalls (i : ℕ) : List (PackageCall F) → List (OtherOps i) → ObservationStore F →
    Process F → Option (List (PackageResult F) × ObservationStore F × Process F)
  | [], _, observations, p => some ([], observations, p)
  | call :: calls, others, observations, p => do
      let ((result, observations), others, p) ←
        (pkg.client call observations).onProcess P serde hexdigest i others p
      let (results, observations, p) ← runCalls i calls others observations p
      some (result :: results, observations, p)

end Package

end Package

/-! ### An object among others -/

section Holds

/-- An object of the process has the session. -/
def Holds (p : Process F) (i : ℕ) (s : Session F) : Prop :=
  ∃ S : Sessions F, Represents p S ∧ S.session i = some s

theorem Holds.session {p : Process F} {i : ℕ} {s : Session F} (h : Holds p i s) :
    p.session i = some s := by
  obtain ⟨S, hrep, hs⟩ := h
  rw [hrep.session_eq, hs]

variable (P : Platform) (serde : Serde F) (hexdigest : ByteArray → String)

/-- A method of another object leaves a session alone. -/
theorem Sessions.step_elsewhere {S : Sessions F} (hfresh : ∀ j, S.created ≤ j → S.session j = none)
    {i : ℕ} {s : Session F} (hs : S.session i = some s) {op : BindingOp}
    (hop : op.object ≠ some i) : (S.step P serde hexdigest op).2.session i = some s := by
  have hupdate : ∀ {j : ℕ} {t : Option (Session F)}, j ≠ i → (S.update j t).session i = some s := by
    intro j t hj
    simp only [update, Function.update_of_ne hj.symm, hs]
  have heffect := S.step_effect P serde hexdigest op
  generalize (S.step P serde hexdigest op).1 = result at heffect
  generalize (S.step P serde hexdigest op).2 = S' at heffect ⊢
  cases heffect with
  | refused e hnone => exact hs
  | opened core hnone =>
      refine hupdate ?_
      intro hcreated
      have hempty := hfresh i hcreated.le
      rw [hs] at hempty
      cases hempty
  | shut j hobject result hnone => exact hs
  | closed j hobject => exact hupdate fun hj => hop (hj ▸ hobject)
  | called j hobject t ht result t' hcounter => exact hupdate fun hj => hop (hj ▸ hobject)

/-- Methods of other objects leave a session alone. -/
theorem Holds.others {p : Process F} {i : ℕ} {s : Session F} (h : Holds p i s) (ops : OtherOps i) :
    ∃ results p', p.run P serde hexdigest (ops.map Subtype.val) = some (results, p') ∧
      Holds p' i s := by
  induction ops generalizing p with
  | nil => exact ⟨[], p, rfl, h⟩
  | cons op ops ih =>
      obtain ⟨S, hrep, hs⟩ := h
      obtain ⟨p', hstep, hrep'⟩ := represents_step serde hexdigest P hrep op.1
      obtain ⟨results, p'', hrun, hholds⟩ :=
        ih ⟨_, hrep', Sessions.step_elsewhere P serde hexdigest hrep.fresh hs op.2⟩
      refine ⟨(S.step P serde hexdigest op.1).1 :: results, p'', ?_, hholds⟩
      simp only [List.map_cons, Process.run, hstep, hrun, Option.bind_eq_bind, Option.bind_some]

/-- A method of the sessions is a method of the session of its object. -/
theorem Sessions.step_method (S : Sessions F) (i : ℕ) (method : NativeMethod) :
    S.step P serde hexdigest (method.op i) = S.within i fun s => method.inSession P serde s := by
  cases method <;> rfl

/-- A method of an object is a method of its session. -/
theorem Holds.method {p : Process F} {i : ℕ} {s : Session F} (h : Holds p i s)
    (method : NativeMethod) :
    ∃ p', p.step P serde hexdigest (method.op i) = some ((method.inSession P serde s).1, p') ∧
      Holds p' i (method.inSession P serde s).2 := by
  obtain ⟨S, hrep, hs⟩ := h
  obtain ⟨p', hstep, hrep'⟩ := represents_step serde hexdigest P hrep (method.op i)
  simp only [Sessions.step_method, Sessions.within, hs] at hstep hrep'
  refine ⟨p', hstep, _, hrep', ?_⟩
  simp only [Sessions.update, Function.update_self]

/-- What a program does to an object among others, it does to the session of the object alone. -/
theorem Client.onProcess_eq {α : Type} (client : Client α) {p : Process F} {i : ℕ} {s : Session F}
    (h : Holds p i s) (others : List (OtherOps i)) :
    ∃ others' p', client.onProcess P serde hexdigest i others p =
        some ((client.onSession P serde s).1, others', p') ∧
      Holds p' i (client.onSession P serde s).2 := by
  induction client generalizing p s others with
  | done a => exact ⟨others, p, rfl, h⟩
  | call method next ih =>
      obtain ⟨results, p₁, hrun, h₁⟩ := h.others P serde hexdigest (others.headD [])
      obtain ⟨p₂, hstep, h₂⟩ := h₁.method P serde hexdigest method
      obtain ⟨others', p₃, hnext, h₃⟩ := ih (method.inSession P serde s).1 h₂ others.tail
      refine ⟨others', p₃, ?_, h₃⟩
      simp only [Client.onProcess, Client.onSession, hrun, hstep, hnext, Option.bind_eq_bind,
        Option.bind_some]

end Holds

end Foreign

end ContextLease
