/-
The debug server.

The debug server answers requests from the store while others publish to it.  Whoever may reach it
from another host has to send a token, and a request about an arena is answered from what was
published for that arena.  Both are stated about whole runs: what a stranger is answered does not
depend on what was published at all, and what is answered about an arena does not depend on what
was published for the other arenas.  A stream is answered by opening it; from then on it is a
connection of its own, of which the same is stated step by step.

Main definitions:

* `DebugServer`, `DebugServer.create` — a server that listens elsewhere only with a token;
* `DebugServer.doGet` — the answer to a request, from the stores that its reads meet;
* `DebugServer.answers` — the answers in a run of requests and publications.

Main results:

* `DebugServer.serveArena_events` — the path of the events is answered by the events endpoint;
* `DebugServer.doGet_agree` — an answer about an arena comes from what the store has of it;
* `strangers_learn_nothing` — strangers are answered as if nothing had been published;
* `opened_stream_delivers` — a stream that is opened goes on from what its consumer has received;
* `arena_answers_isolated` — answers about an arena do not depend on the other arenas.
-/

import ContextLease.EventStream
import ContextLease.HostPipeline

set_option relaxedAutoImplicit false
set_option autoImplicit false

namespace ContextLease

open RustText

variable {F : Type}

/-! ### Requests and responses -/

/-- What the server uses of Python's library. -/
structure HttpLibrary where
  /-- `unquote(part)`. -/
  unquote : String → String
  /-- `int(text)`, which may raise. -/
  int : String → Option ℤ

/-- A GET request: the path of its URL, the values of the query by name, the header
`Authorization`, or an empty text, and the header `Last-Event-ID`. -/
structure HttpRequest where
  path : String
  query : String → List String := fun _ => []
  authorization : String := ""
  lastEventId : Option String := none

/-- The JSON of an answer. -/
inductive Payload (F : Type)
  | failed (error : String) (about : Option (String × String))
  | health
  | arenas (snapshots : HashMap (ArenaSnapshot F))
  | snapshot (snapshot : ArenaSnapshot F)
  | modules (modules : List (ModuleUsage F))
  | leases (leases : List Lease)
  | events (page : EventsPage)
  | requestEvents (requestId : String) (events : List TraceEvent)

/-- What a request is answered with: a file, a JSON text with its status, the stream of the events
of an arena after a number, or nothing, when an exception is raised. -/
inductive Response (F : Type)
  | static (name : String)
  | json (status : ℕ) (payload : Payload F)
  | stream (arenaId : String) (afterSeq : ℤ)
  | raised

/-- The source's answer for a path it does not know. -/
def notFound : Response F := .json 404 (.failed "not_found" none)

/-! ### The server -/

/-- The source's `_LOOPBACK_HOSTS`. -/
def loopbackHosts : List String := ["127.0.0.1", "localhost", "::1"]

/-- The source's `DebugServer`.  Beyond the loopback hosts it has a token. -/
structure DebugServer where
  host : String
  authToken : Option String
  guarded : host ∈ loopbackHosts ∨ ∃ token, authToken = some token ∧ token ≠ ""

/-- The source's `__init__`. -/
def DebugServer.create (host : String) (authToken : Option String) :
    Except Host.Raised DebugServer :=
  if h : host ∈ loopbackHosts ∨ ∃ token, authToken = some token ∧ token ≠ "" then
    .ok { host, authToken, guarded := h }
  else .error (.configurationError "non-loopback Debug Web binding requires auth_token")

namespace DebugServer

variable (lib : HttpLibrary) (server : DebugServer)

/-- The source's `_authorized`, which raises an exception for a text that is not ASCII. -/
def authorized (request : HttpRequest) : Option Bool :=
  match server.authToken with
  | none => some true
  | some token =>
      if token = "" then some true
      else
        let expected := "Bearer " ++ token
        if (expected.toList ++ request.authorization.toList).all fun c => c.toNat < 128 then
          some (expected == request.authorization)
        else none

/-- The parts of a path between its slashes, without the empty ones. -/
def pathParts (path : String) : List String :=
  ((path.toList.splitOn '/').map String.ofList).filter (· != "")

/-- The arena of a path, and what follows it. -/
def route (request : HttpRequest) : Option (String × List String) :=
  match (pathParts request.path).map lib.unquote with
  | "api" :: "v1" :: "arenas" :: arenaId :: rest => some (arenaId, rest)
  | _ => none

/-- The events of a query, from the stores whose events and oldest number are read. -/
def serveEvents (request : HttpRequest) (polled measured : ObservationStore F)
    (arenaId : String) : Response F :=
  let first := fun name default => lib.int ((request.query name).headD default)
  match first "after_seq" "0", first "limit" "1000" with
  | some afterSeq, some limit =>
      let minimum := measured.minimumEventSeq arenaId
      .json 200 (.events
        { resetRequired := needsReset afterSeq minimum
          minimumSeq := minimum
          items := polled.eventsFor arenaId afterSeq limit })
  | _, _ => .raised

/-- The events of a request that was prepared. -/
def serveRequest (polled : ObservationStore F) (arenaId requestId : String) : Response F :=
  let events := (polled.eventsFor arenaId 0 10000).filter fun event =>
    event.requestId == some requestId
  if events.isEmpty then .json 410 (.failed "request_expired" (some ("request_id", requestId)))
  else .json 200 (.requestEvents requestId events)

/-- What is served of an arena. -/
def serveArena (request : HttpRequest) (known polled measured : ObservationStore F)
    (arenaId : String) (rest : List String) : Response F :=
  match known.getSnapshot arenaId with
  | none => .json 404 (.failed "arena_not_found" (some ("arena_id", arenaId)))
  | some snapshot =>
      match rest with
      | ["snapshot"] => .json 200 (.snapshot snapshot)
      | ["modules"] => .json 200 (.modules snapshot.modules)
      | ["leases"] => .json 200 (.leases snapshot.leases)
      | ["events"] => serveEvents lib request polled measured arenaId
      | ["stream"] => .stream arenaId (ContextLease.lastEventId lib.int request.lastEventId)
      | ["requests", requestId] => serveRequest polled arenaId requestId
      | _ => notFound

/-- The source's `do_GET`.  It takes the lock of the store up to three times, and each time it may
meet another store. -/
def doGet (request : HttpRequest) (known polled measured : ObservationStore F) : Response F :=
  if request.path ∈ ["/", "/index.html"] then .static "index.html"
  else if request.path = "/app.css" then .static "app.css"
  else if request.path = "/app.js" then .static "app.js"
  else if !"/api/v1/".toList.isPrefixOf request.path.toList then notFound
  else
    match server.authorized request with
    | none => .raised
    | some false => .json 401 (.failed "unauthorized" none)
    | some true =>
        if request.path = "/api/v1/health" then .json 200 .health
        else if request.path = "/api/v1/arenas" then .json 200 (.arenas known.snapshots)
        else
          match route lib request with
          | none => notFound
          | some (arenaId, rest) =>
              serveArena lib request known polled measured arenaId rest

/-- The path of the events is answered by the events endpoint. -/
theorem serveArena_events {request : HttpRequest} {afterSeq limit : ℤ}
    (hafter : lib.int ((request.query "after_seq").headD "0") = some afterSeq)
    (hlimit : lib.int ((request.query "limit").headD "1000") = some limit)
    (known polled measured : ObservationStore F) (arenaId : String) :
    serveArena lib request known polled measured arenaId ["events"] =
      match eventsEndpoint known polled measured arenaId afterSeq limit with
      | .ok page => .json 200 (.events page)
      | .error error => .json 404 (.failed error (some ("arena_id", arenaId))) := by
  rw [serveArena, eventsEndpoint]
  cases known.getSnapshot arenaId with
  | none => rfl
  | some snapshot => simp only [serveEvents, hafter, hlimit]

/-! ### Runs -/

/-- A step of a run: something is published, or a request is answered, with what is published
between its reads. -/
inductive ServerStep (F : Type)
  | publish (publication : Publication F)
  | get (request : HttpRequest) (betweenReads afterEvents : List (Publication F))

/-- The answers of a run. -/
def answers : ObservationStore F → List (ServerStep F) → List (HttpRequest × Response F)
  | _, [] => []
  | store, .publish publication :: steps => answers (store.publish publication) steps
  | store, .get request betweenReads afterEvents :: steps =>
      let polled := betweenReads.foldl ObservationStore.publish store
      let measured := afterEvents.foldl ObservationStore.publish polled
      (request, server.doGet lib request store polled measured) :: answers measured steps

/-- The requests of a run. -/
def requestsOf (steps : List (ServerStep F)) : List HttpRequest :=
  steps.filterMap fun
    | .publish _ => none
    | .get request _ _ => some request

@[simp] theorem requestsOf_get (request : HttpRequest)
    (betweenReads afterEvents : List (Publication F)) (steps : List (ServerStep F)) :
    requestsOf (.get request betweenReads afterEvents :: steps) = request :: requestsOf steps :=
  rfl

/-- A request without the token, to a server that is not listening on a loopback host. -/
def isStranger (request : HttpRequest) : Bool :=
  decide (server.host ∉ loopbackHosts) &&
    decide (request.authorization ≠ "Bearer " ++ server.authToken.getD "")

/-! ### Strangers -/

/-- A stranger is not authorized. -/
theorem authorized_of_isStranger {request : HttpRequest} (h : server.isStranger request = true) :
    server.authorized request = none ∨ server.authorized request = some false := by
  rw [isStranger, Bool.and_eq_true, decide_eq_true_eq, decide_eq_true_eq] at h
  obtain ⟨hhost, hheader⟩ := h
  obtain ⟨token, htoken, hne⟩ := server.guarded.resolve_left hhost
  rw [htoken, Option.getD_some] at hheader
  rw [authorized, htoken]
  simp only [if_neg hne]
  split
  · exact Or.inr (congrArg some (beq_false_of_ne hheader.symm))
  · exact Or.inl rfl

/-- What a stranger is answered does not depend on the store. -/
theorem doGet_of_isStranger {request : HttpRequest} (h : server.isStranger request = true)
    (known polled measured known' polled' measured' : ObservationStore F) :
    server.doGet lib request known polled measured =
      server.doGet lib request known' polled' measured' := by
  rw [doGet, doGet]
  rcases server.authorized_of_isStranger h with hraised | hrefused
  · rw [hraised]
  · rw [hrefused]

end DebugServer

open DebugServer

/-- Whatever is published meanwhile, strangers are answered as if nothing had been published. -/
theorem strangers_learn_nothing (lib : HttpLibrary) (server : DebugServer)
    (store nothing : ObservationStore F) (steps : List (ServerStep F)) :
    (server.answers lib store steps).filter (fun answer => server.isStranger answer.1) =
      ((requestsOf steps).filter server.isStranger).map fun request =>
        (request, server.doGet lib request nothing nothing nothing) := by
  induction steps generalizing store with
  | nil => rfl
  | cons step steps ih =>
      cases step with
      | publish publication => exact ih _
      | get request betweenReads afterEvents =>
          rw [answers, requestsOf_get, List.filter_cons, List.filter_cons, ih]
          by_cases hstranger : server.isStranger request = true
          · rw [if_pos hstranger, if_pos hstranger, List.map_cons,
              server.doGet_of_isStranger lib hstranger _ _ _ nothing nothing nothing]
          · rw [if_neg hstranger, if_neg hstranger]

/-! ### Arenas -/

/-- The arena for which something is published. -/
def Publication.arenaId : Publication F → String
  | .event e => e.arenaId
  | .snapshot s => s.arenaId

namespace ObservationStore

/-- Two stores have the same of an arena. -/
structure AgreeOn (arenaId : String) (store store' : ObservationStore F) : Prop where
  maxEvents : store.maxEvents = store'.maxEvents
  log : store.log arenaId = store'.log arenaId
  snapshot : store.snapshots arenaId = store'.snapshots arenaId

variable {arenaId : String} {store store' : ObservationStore F}

theorem AgreeOn.refl (arenaId : String) (store : ObservationStore F) :
    AgreeOn arenaId store store :=
  ⟨rfl, rfl, rfl⟩

theorem AgreeOn.queue (h : AgreeOn arenaId store store') :
    store.queue arenaId = store'.queue arenaId :=
  congrArg BoundedLog.items h.log

theorem AgreeOn.getSnapshot (h : AgreeOn arenaId store store') :
    store.getSnapshot arenaId = store'.getSnapshot arenaId := by
  have hdropped : (store.dropped arenaId).getD 0 = (store'.dropped arenaId).getD 0 :=
    congrArg BoundedLog.dropped h.log
  rw [ObservationStore.getSnapshot, ObservationStore.getSnapshot, h.snapshot, hdropped]

/-- What is published for another arena changes nothing. -/
theorem AgreeOn.publish_other (h : AgreeOn arenaId store store') {publication : Publication F}
    (hother : publication.arenaId ≠ arenaId) :
    AgreeOn arenaId (store.publish publication) store' := by
  cases publication with
  | event event =>
      refine ⟨(store.maxEvents_publishEvent event).trans h.maxEvents,
        (log_publishEvent_of_ne store hother).trans h.log, ?_⟩
      rw [publish, publishEvent]
      split <;> exact h.snapshot
  | snapshot snapshot =>
      refine ⟨h.maxEvents, h.log, ?_⟩
      exact (HashMap.insert_of_ne _ _ (Ne.symm hother)).trans h.snapshot

/-- What is published for the arena changes both stores alike. -/
theorem AgreeOn.publish_same (h : AgreeOn arenaId store store') {publication : Publication F}
    (hsame : publication.arenaId = arenaId) :
    AgreeOn arenaId (store.publish publication) (store'.publish publication) := by
  subst hsame
  cases publication with
  | event event =>
      refine ⟨?_, ?_, ?_⟩
      · exact (store.maxEvents_publishEvent event).trans
          (h.maxEvents.trans (store'.maxEvents_publishEvent event).symm)
      · have hlog := h.log
        rw [Publication.arenaId] at hlog
        rw [publish, publish, Publication.arenaId, log_publishEvent, log_publishEvent, hlog,
          h.maxEvents]
      · have hsnapshots : ∀ s : ObservationStore F,
            (s.publishEvent event).snapshots = s.snapshots := by
          intro s
          rw [publishEvent]
          split <;> rfl
        rw [publish, publish, hsnapshots, hsnapshots]
        exact h.snapshot
  | snapshot snapshot =>
      refine ⟨h.maxEvents, h.log, ?_⟩
      simp only [publish, publishSnapshot, Publication.arenaId, HashMap.insert_self]

/-- What is published for the arena is all that matters. -/
theorem AgreeOn.publish_filter (h : AgreeOn arenaId store store')
    (publications : List (Publication F)) :
    AgreeOn arenaId (publications.foldl publish store)
      ((publications.filter fun p => p.arenaId == arenaId).foldl publish store') := by
  induction publications generalizing store store' with
  | nil => exact h
  | cons publication publications ih =>
      rw [List.foldl_cons, List.filter_cons]
      by_cases hsame : publication.arenaId = arenaId
      · rw [if_pos (beq_iff_eq.2 hsame)]
        exact ih (h.publish_same hsame)
      · rw [if_neg (fun heq => hsame (beq_iff_eq.1 heq))]
        exact ih (h.publish_other hsame)

end ObservationStore

namespace DebugServer

open ObservationStore

variable (lib : HttpLibrary) (server : DebugServer) {arenaId : String}

/-- A request is about an arena. -/
def isAbout (arenaId : String) (request : HttpRequest) : Bool :=
  (route lib request).map Prod.fst == some arenaId

/-- The list of the arenas is not about one of them. -/
theorem path_ne_arenas {request : HttpRequest} {arena : String} {rest : List String}
    (h : route lib request = some (arena, rest)) : request.path ≠ "/api/v1/arenas" := by
  intro hpath
  have hparts : pathParts "/api/v1/arenas" = ["api", "v1", "arenas"] := by decide
  rw [route, hpath, hparts] at h
  split at h
  · rename_i hlist
    have hlength := congrArg List.length hlist
    simp only [List.map_cons, List.map_nil, List.length_cons, List.length_nil] at hlength
    omega
  · cases h

/-- An answer about an arena comes from what the store has of the arena. -/
theorem doGet_agree {request : HttpRequest} (habout : isAbout lib arenaId request = true)
    {known polled measured known' polled' measured' : ObservationStore F}
    (hknown : AgreeOn arenaId known known') (hpolled : AgreeOn arenaId polled polled')
    (hmeasured : AgreeOn arenaId measured measured') :
    server.doGet lib request known polled measured =
      server.doGet lib request known' polled' measured' := by
  obtain ⟨⟨arena, rest⟩, hroute, rfl⟩ := Option.map_eq_some_iff.1 (beq_iff_eq.1 habout)
  have hpath := path_ne_arenas lib hroute
  have hserved : serveArena lib request known polled measured arena rest =
      serveArena lib request known' polled' measured' arena rest := by
    have hfor : ∀ afterSeq limit,
        polled.eventsFor arena afterSeq limit = polled'.eventsFor arena afterSeq limit := by
      intro afterSeq limit
      rw [eventsFor, eventsFor, hpolled.queue]
    have hminimum : measured.minimumEventSeq arena = measured'.minimumEventSeq arena := by
      rw [minimumEventSeq, minimumEventSeq, hmeasured.queue]
    have hevents : serveEvents lib request polled measured arena =
        serveEvents lib request polled' measured' arena := by
      simp only [serveEvents, hfor, hminimum]
    have hrequest : ∀ requestId,
        serveRequest polled arena requestId = serveRequest polled' arena requestId := by
      intro requestId
      rw [serveRequest, serveRequest, hfor]
    simp only [serveArena, hknown.getSnapshot, hevents, hrequest]
  simp only [doGet, hroute, if_neg hpath, hserved]

/-- A step without what it publishes for other arenas. -/
def stepFor (arenaId : String) : ServerStep F → Option (ServerStep F)
  | .publish publication =>
      if publication.arenaId = arenaId then some (.publish publication) else none
  | .get request betweenReads afterEvents =>
      some (.get request (betweenReads.filter fun p => p.arenaId == arenaId)
        (afterEvents.filter fun p => p.arenaId == arenaId))

theorem answers_agree {store store' : ObservationStore F} (h : AgreeOn arenaId store store')
    (steps : List (ServerStep F)) :
    (server.answers lib store steps).filter (fun answer => isAbout lib arenaId answer.1) =
      (server.answers lib store' (steps.filterMap (stepFor arenaId))).filter
        fun answer => isAbout lib arenaId answer.1 := by
  induction steps generalizing store store' with
  | nil => rfl
  | cons step steps ih =>
      cases step with
      | publish publication =>
          rw [answers]
          by_cases hsame : publication.arenaId = arenaId
          · have hkept : stepFor arenaId (.publish publication) = some (.publish publication) :=
              if_pos hsame
            rw [List.filterMap_cons_some hkept, answers]
            exact ih (h.publish_same hsame)
          · have hleft : stepFor arenaId (.publish publication) = none := if_neg hsame
            rw [List.filterMap_cons_none hleft]
            exact ih (h.publish_other hsame)
      | get request betweenReads afterEvents =>
          have hpolled := h.publish_filter betweenReads
          have hmeasured := hpolled.publish_filter afterEvents
          have hkept : stepFor arenaId (.get request betweenReads afterEvents) =
              some (.get request (betweenReads.filter fun p => p.arenaId == arenaId)
                (afterEvents.filter fun p => p.arenaId == arenaId)) := rfl
          rw [List.filterMap_cons_some hkept, answers, answers, List.filter_cons,
            List.filter_cons, ih hmeasured]
          by_cases habout : isAbout lib arenaId request = true
          · rw [if_pos habout, if_pos habout, server.doGet_agree lib habout h hpolled hmeasured]
          · rw [if_neg habout, if_neg habout]

end DebugServer

/-! ### Streams -/

/-- The connection of a stream that is opened on a store. -/
def StreamWorld.opened (store : ObservationStore F) (afterSeq : ℤ) : StreamWorld F :=
  { store, afterSeq }

/-- What is published before a stream is opened. -/
theorem StreamWorld.run_publications (arenaId : String) (start : ℤ) (w : StreamWorld F)
    (publications : List (Publication F)) (steps : List (StreamStep F)) :
    w.run arenaId start (publications.map .publish ++ steps) =
      StreamWorld.run arenaId start
        { w with store := publications.foldl ObservationStore.publish w.store } steps := by
  induction publications generalizing w with
  | nil => rfl
  | cons publication publications ih => exact ih _

theorem publicationsOf_map_publish (publications : List (Publication F)) :
    publicationsOf (publications.map .publish) = publications := by
  induction publications with
  | nil => rfl
  | cons publication publications ih => exact congrArg (publication :: ·) ih

/-- A stream is opened after the number that its header names. -/
theorem serveArena_stream (lib : HttpLibrary) {request : HttpRequest}
    {known polled measured : ObservationStore F} {arenaId opened : String} {rest : List String}
    {afterSeq : ℤ}
    (h : serveArena lib request known polled measured arenaId rest = .stream opened afterSeq) :
    rest = ["stream"] ∧ opened = arenaId ∧
      afterSeq = ContextLease.lastEventId lib.int request.lastEventId := by
  rw [serveArena] at h
  split at h
  · cases h
  · split at h
    · cases h
    · cases h
    · cases h
    · rw [serveEvents] at h
      split at h <;> cases h
    · cases h
      exact ⟨rfl, rfl, rfl⟩
    · rw [serveRequest] at h
      split at h <;> cases h
    · cases h

/-- A stream is opened for an arena. -/
theorem DebugServer.doGet_stream (lib : HttpLibrary) (server : DebugServer) {request : HttpRequest}
    {known polled measured : ObservationStore F} {opened : String} {afterSeq : ℤ}
    (h : server.doGet lib request known polled measured = .stream opened afterSeq) :
    ∃ arenaId rest, route lib request = some (arenaId, rest) ∧
      serveArena lib request known polled measured arenaId rest = .stream opened afterSeq := by
  rw [doGet] at h
  split at h
  · cases h
  · split at h
    · cases h
    · split at h
      · cases h
      · split at h
        · cases h
        · split at h
          · cases h
          · cases h
          · split at h
            · cases h
            · split at h
              · cases h
              · split at h
                · cases h
                · exact ⟨_, _, ‹_›, h⟩

/-- A stream that the server opens after some publications, and on which others follow, goes on from
what its consumer has received, beginning after the number that its header names, if what is
published for the arena is in order. -/
theorem opened_stream_delivers (lib : HttpLibrary) (server : DebugServer) {request : HttpRequest}
    {maxEvents : ℕ+} {before : List (Publication F)} {polled measured : ObservationStore F}
    {arenaId : String} {afterSeq : ℤ}
    (hopened : server.doGet lib request (storeAfter maxEvents before) polled measured =
      .stream arenaId afterSeq)
    {steps : List (StreamStep F)} {w : StreamWorld F}
    (hrun : (StreamWorld.opened (storeAfter maxEvents before) afterSeq).run arenaId afterSeq steps =
      some w)
    (horder : PublishedInOrder arenaId (before ++ publicationsOf steps)) :
    afterSeq = ContextLease.lastEventId lib.int request.lastEventId ∧
      w.Delivers maxEvents arenaId afterSeq (before ++ publicationsOf steps) := by
  constructor
  · obtain ⟨arena, rest, -, hserved⟩ := server.doGet_stream lib hopened
    exact (serveArena_stream lib hserved).2.2
  · -- what was published before is the beginning of the schedule
    have hall : (StreamWorld.connected maxEvents afterSeq).run arenaId afterSeq
        (before.map .publish ++ steps) = some w :=
      (StreamWorld.run_publications arenaId afterSeq _ before steps).trans hrun
    have hdelivers := StreamWorld.delivers hall
    rw [publicationsOf_append, publicationsOf_map_publish] at hdelivers
    exact hdelivers horder

/-- A step of a stream without what is published for other arenas. -/
def streamStepFor (arenaId : String) : StreamStep F → Option (StreamStep F)
  | .publish publication =>
      if publication.arenaId = arenaId then some (.publish publication) else none
  | step => some step

/-- Two connections of a stream agree: they have received the same, and their stores have the same
of the arena. -/
structure StreamWorld.AgreeOn (arenaId : String) (w w' : StreamWorld F) : Prop where
  store : w.store.AgreeOn arenaId w'.store
  afterSeq : w.afterSeq = w'.afterSeq
  phase : w.phase = w'.phase
  received : w.received = w'.received

section Streams

variable {arenaId : String} (start : ℤ) {w w' : StreamWorld F}

theorem StreamWorld.AgreeOn.readEvents (h : w.AgreeOn arenaId w') :
    w.readEvents arenaId = w'.readEvents arenaId := by
  rw [StreamWorld.readEvents, StreamWorld.readEvents, ObservationStore.eventsFor,
    ObservationStore.eventsFor, h.store.queue, h.afterSeq]

/-- A step that publishes nothing leads two connections that agree to the same. -/
theorem StreamWorld.AgreeOn.step (h : w.AgreeOn arenaId w') {step : StreamStep F}
    (hquiet : step.publication? = none) :
    Option.Rel (StreamWorld.AgreeOn arenaId) (w.step arenaId start step)
      (w'.step arenaId start step) := by
  have hread := h.readEvents
  obtain ⟨store, afterSeq, phase, received⟩ := w
  obtain ⟨store', afterSeq', phase', received'⟩ := w'
  obtain ⟨hstore, rfl, rfl, rfl⟩ := h
  cases step with
  | publish publication => cases hquiet
  | look =>
      cases phase with
      | looking =>
          simp only [StreamWorld.step, hread]
          split
          · exact .some ⟨hstore, rfl, rfl, rfl⟩
          · exact .some ⟨hstore, rfl, rfl, rfl⟩
      | waiting => exact .none
      | writing event events => exact .none
  | wake =>
      cases phase with
      | looking => exact .none
      | waiting =>
          simp only [StreamWorld.step, hread]
          split
          · exact .some ⟨hstore, rfl, rfl, rfl⟩
          · exact .some ⟨hstore, rfl, rfl, rfl⟩
      | writing event events => exact .none
  | write =>
      cases phase with
      | looking => exact .none
      | waiting => exact .none
      | writing event events => exact .some ⟨hstore, rfl, rfl, rfl⟩
  | reconnect count => exact .some ⟨hstore, rfl, rfl, rfl⟩

/-- Two connections that agree receive the same, whatever is published for other arenas. -/
theorem StreamWorld.AgreeOn.run (h : w.AgreeOn arenaId w') (steps : List (StreamStep F)) :
    Option.Rel (StreamWorld.AgreeOn arenaId) (w.run arenaId start steps)
      (w'.run arenaId start (steps.filterMap (streamStepFor arenaId))) := by
  induction steps generalizing w w' with
  | nil => exact .some h
  | cons step steps ih =>
      cases hpublished : step.publication? with
      | some publication =>
          obtain rfl : step = .publish publication := by
            cases step <;> simp_all [StreamStep.publication?]
          by_cases hsame : publication.arenaId = arenaId
          · have hkept : streamStepFor arenaId (.publish publication) =
                some (.publish publication) := if_pos hsame
            rw [List.filterMap_cons_some hkept]
            exact ih ⟨h.store.publish_same hsame, h.afterSeq, h.phase, h.received⟩
          · have hleft : streamStepFor arenaId (.publish publication) = none := if_neg hsame
            rw [List.filterMap_cons_none hleft]
            exact ih ⟨h.store.publish_other hsame, h.afterSeq, h.phase, h.received⟩
      | none =>
          have hkept : streamStepFor arenaId step = some step := by
            cases step with
            | publish publication => cases hpublished
            | _ => rfl
          rw [List.filterMap_cons_some hkept, StreamWorld.run, StreamWorld.run]
          have hstep := h.step start hpublished
          cases hw : w.step arenaId start step <;> cases hw' : w'.step arenaId start step <;>
            rw [hw, hw'] at hstep <;> cases hstep
          · exact .none
          · rename_i hagree
            exact ih hagree

theorem StreamWorld.received_eq {o o' : Option (StreamWorld F)}
    (h : Option.Rel (StreamWorld.AgreeOn arenaId) o o') :
    o.map StreamWorld.received = o'.map StreamWorld.received := by
  cases h with
  | none => rfl
  | some hagree => exact congrArg some hagree.received

end Streams

/-- Whatever is published for other arenas, before a request or between its reads, the answers about
an arena are those of a run in which it is left out; and a stream of the arena, whatever steps it
takes, receives what it receives when it takes them without those publications. -/
theorem arena_answers_isolated (lib : HttpLibrary) (server : DebugServer)
    (store : ObservationStore F) (arenaId : String) (steps : List (ServerStep F))
    (afterSeq : ℤ) (streamSteps : List (StreamStep F)) :
    (server.answers lib store steps).filter (fun answer => isAbout lib arenaId answer.1) =
        (server.answers lib store (steps.filterMap (stepFor arenaId))).filter
          (fun answer => isAbout lib arenaId answer.1) ∧
      ((StreamWorld.opened store afterSeq).run arenaId afterSeq streamSteps).map
          StreamWorld.received =
        ((StreamWorld.opened store afterSeq).run arenaId afterSeq
          (streamSteps.filterMap (streamStepFor arenaId))).map StreamWorld.received := by
  refine ⟨server.answers_agree lib (.refl arenaId store) steps, ?_⟩
  have hagree : (StreamWorld.opened store afterSeq).AgreeOn arenaId (.opened store afterSeq) :=
    ⟨.refl arenaId store, rfl, rfl, rfl⟩
  exact StreamWorld.received_eq (hagree.run afterSeq streamSteps)

end ContextLease
