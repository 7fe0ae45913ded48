/-
The foreign interface of the kernel.

The library hands out addresses: an arena is created at an address and used there until it is freed,
and a reply is a text at an address that the caller reads and frees.  It takes an address too, that
of a callback of the host, and calls it as long as it is registered.  A function whose address has
no value behind it has undefined behaviour, which is `none` here.  Whatever fails besides is a code
and a text, the last error of the thread.

Main definitions:

* `Serde` — what reads and writes the JSON texts of the kernel;
* `Foreign.Native`, `Foreign.ArenaHandle`, `Foreign.HostCallback` — what the addresses stand for;
* `Foreign.KernelCall` — a call of the kernel, and whether the callback fails in it;
* `Foreign.Native.arenaCreate`, `Foreign.Native.arenaPrepare`, .. — the interface.
-/

import ContextLease.LayoutParity
import ContextLease.OwnedHeap
import ContextLease.SharedFlag

set_option relaxedAutoImplicit false
set_option autoImplicit false

namespace ContextLease

open MachineNumbers RustText

variable {F : Type}

/-! ### Texts -/

/-- How `serde_json` fails to read a text. -/
structure JsonError where
  /-- The text is JSON, but not of the right shape. -/
  isData : Bool
  message : String

/-- What reads the texts that the host sends, and writes the texts it is sent. -/
structure Serde (F : Type) where
  readDefinition : String → Except JsonError (ArenaDefinition F)
  readRequest : String → Except JsonError (PrepareRequest F)
  readResults : String → Except JsonError (List SemanticResult)
  readObservation : String → Except JsonError UsageObservation
  planText : PreparedContextPlan F → String
  begunText : PrepareBeginOutcome F → String
  snapshotText : Option (ArenaSnapshot F) → String
  eventsText : List TraceEvent → String
  calibrationText : UsageCalibration F → String

namespace Foreign

/-- The code and the error with which a function returns. -/
structure Failure where
  code : ℤ
  error : ContextLeaseError
  code_ne_zero : code ≠ 0 := by decide

/-- The source's `CL_INVALID_ARGUMENT`, with the error. -/
def invalidArgument (message : String) : Failure where
  code := 1
  error := ⟨"invalid_argument", message⟩

/-- The source's `set_json_error`. -/
def jsonFailure (error : JsonError) : Failure :=
  if error.isData then { code := 3, error := ⟨"configuration_error", error.message⟩ }
  else { code := 2, error := ⟨"invalid_json", error.message⟩ }

/-- The source's `CL_CONFIGURATION_ERROR`, with the error. -/
def configurationFailure (error : ContextLeaseError) : Failure := { code := 3, error }

/-- The source's `CL_PREPARE_ERROR`, with the error. -/
def prepareFailure (error : ContextLeaseError) : Failure := { code := 4, error }

/-- The failure of a call whose callback has failed. -/
def callbackFailure : Failure :=
  prepareFailure ⟨"tokenizer_callback_failed", "host tokenizer callback returned an error"⟩

/-- The source's `set_error`: the text of the error. -/
def errorEnvelope (error : ContextLeaseError) : String :=
  (Value.object [("code", .string error.code), ("message", .string error.message)]).toJson

/-- The source's `utf8`, for the bytes at an address. -/
def utf8 (value : Option ByteArray) (name : String) : Except Failure String :=
  match value with
  | none => .error (invalidArgument (name ++ " is null"))
  | some bytes =>
      match String.fromUTF8? bytes with
      | some text => .ok text
      | none => .error { code := 1, error := ⟨"invalid_utf8", name⟩ }

/-- A text argument, read. -/
def parse {α : Type} (value : Option ByteArray) (name : String)
    (read : String → Except JsonError α) : Except Failure α := do
  let text ← utf8 value name
  (read text).mapError jsonFailure

@[simp] theorem utf8_toUTF8 (text name : String) : utf8 (some text.toUTF8) name = .ok text := by
  have hread : String.fromUTF8? text.toUTF8 = some text := dif_pos text.isValidUTF8
  simp only [utf8, hread]

@[simp] theorem parse_toUTF8 {α : Type} (text name : String)
    (read : String → Except JsonError α) :
    parse (some text.toUTF8) name read = (read text).mapError jsonFailure := by
  rw [parse, utf8_toUTF8]
  rfl

/-! ### What the addresses stand for -/

/-- A counter of the host, which may raise an exception.  A count fits the `i32` in which it is
returned. -/
abbrev HostTokenizer := String → Option {n : ℤ // n ≤ 2147483647}

/-- A callback: a counter, and whose exceptions are noted by whom. -/
structure HostCallback where
  count : HostTokenizer
  owner : ℕ

/-- What a callback returns to the library. -/
def HostTokenizer.answer (count : HostTokenizer) (text : String) : ℤ :=
  match count text with
  | some n => max 0 n.1
  | none => -1

/-- The source's `ArenaHandle`. -/
structure ArenaHandle (F : Type) [FloatOps F] where
  core : ContextLeaseArena F
  state : ArenaState F := {}
  tokenCounter : Option ℕ := none

/-- What the library owns. -/
structure Native (F : Type) [FloatOps F] where
  arenas : OwnedHeap (ArenaHandle F) := {}
  strings : OwnedHeap String := {}
  lastError : String := ""

/-- What a function returns: its code, the address it has written, and whose exception has been
noted while it ran. -/
structure Return (F : Type) [FloatOps F] where
  code : ℤ
  out : Option ℕ := none
  raised : Option ℕ := none
  native : Native F

variable [FloatOps F]

/-- A return with an error. -/
def Native.fail (native : Native F) (failure : Failure) : Return F where
  code := failure.code
  native := { native with lastError := errorEnvelope failure.error }

/-- The source's `write_json_result`. -/
def Native.writeJsonResult (native : Native F) (text : String) : Return F where
  code := 0
  out := some native.strings.next
  native := { native with strings := native.strings.alloc text }

/-- The return of a function that has a text to write. -/
def Native.finish (native : Native F) : Except Failure String → Return F
  | .ok text => native.writeJsonResult text
  | .error failure => native.fail failure

/-! ### Calls of the kernel -/

/-- A call of the kernel with a text as its result, and whether a counter fails in it. -/
structure KernelCall (F : Type) where
  run : Option TokenCounter → ArenaState F → Result String × ArenaState F
  raises : TokenCounter → ArenaState F → Bool

section Calls

variable (P : Platform) (serde : Serde F) (core : ContextLeaseArena F) (env : Env)

/-- Whether a counter fails while the semantic requests are planned. -/
def planRaises (request : PrepareRequest F) (counter : TokenCounter) (s : ArenaState F) : Bool :=
  Checked.failed do
    let admission ← admitRequest P core request (some counter) (safetyMultiplier s request.model)
    planLoop P admission.counts admission.contributions admission.allocations
      (orderedModules core.definition)

/-- Whether a counter fails while a request is prepared. -/
def prepareRaises (request : PrepareRequest F) (results : List SemanticResult)
    (counter : TokenCounter) (s : ArenaState F) : Bool :=
  Checked.failed do
    let admission ← admitRequest P core request (some counter) (safetyMultiplier s request.model)
    transact P core env request results admission s.beginTransaction

/-- A call of `prepare`. -/
def prepareCall (request : PrepareRequest F) : KernelCall F where
  run counter s := (prepare P core env request counter s).map (Except.map serde.planText) id
  raises counter s := prepareRaises P core env request [] counter s

/-- A call of `prepare_begin`. -/
def prepareBeginCall (request : PrepareRequest F) : KernelCall F where
  run counter s := (prepareBegin P core env request counter s).map (Except.map serde.begunText) id
  raises counter s :=
    planRaises P core request counter s ||
      match planSemanticRequests P core request (some counter)
        (safetyMultiplier s request.model) with
      | .ok [] => prepareRaises P core env request [] counter s
      | _ => false

/-- A call of `prepare_commit`. -/
def prepareCommitCall (request : PrepareRequest F) (results : List SemanticResult) :
    KernelCall F where
  run counter s :=
    (prepareCommit P core env request results counter s).map (Except.map serde.planText) id
  raises counter s :=
    planRaises P core request counter s ||
      match planSemanticRequests P core request (some counter)
        (safetyMultiplier s request.model) with
      | .ok expected =>
          match checkResults (expected.map SemanticRequest.semanticRequestId) [] results with
          | .ok () => prepareRaises P core env request results counter s
          | .error _ => false
      | .error _ => false

end Calls

/-! ### The interface -/

/-- The source's `ContextLeaseArena::new`. -/
def newArena (hexdigest : ByteArray → String) (instanceId : String)
    (definition : ArenaDefinition F) : Result (ContextLeaseArena F) :=
  match h : validateDefinition definition with
  | .ok () =>
      .ok
        { definition
          layoutHash := definition.layoutHash hexdigest
          instanceId
          valid := h }
  | .error error => .error error

namespace Native

variable (native : Native F)

/-- The source's `cl_arena_create`. -/
def arenaCreate (serde : Serde F) (hexdigest : ByteArray → String) (instanceId : String)
    (json : Option ByteArray) : Return F :=
  match parse json "definition_json" serde.readDefinition with
  | .error failure => native.fail failure
  | .ok definition =>
      match newArena hexdigest instanceId definition with
      | .error error => native.fail (configurationFailure error)
      | .ok core =>
          { code := 0
            out := some native.arenas.next
            native := { native with arenas := native.arenas.alloc { core } } }

/-- A function that counts with the callback of an arena, when there is one.  The flag of the
callback is lowered before the kernel is called and read when it has returned. -/
def countingCall (callbacks : OwnedHeap HostCallback) (arena : Option ℕ)
    (parsed : Except Failure (ContextLeaseArena F → KernelCall F)) : Option (Return F) :=
  match arena with
  | none => some (native.fail (invalidArgument "arena/result is null"))
  | some p =>
      match parsed with
      | .error failure => some (native.fail failure)
      | .ok call => do
          let handle ← native.arenas.get p
          match handle.tokenCounter with
          | some q =>
              let callback ← callbacks.get q
              let counter := hostCount callback.count.answer
              let failed := (call handle.core).raises counter handle.state
              let (result, state) := (call handle.core).run (some counter) handle.state
              let arenas ← native.arenas.set p { handle with state }
              if failed then
                some { { native with arenas }.fail callbackFailure with raised := callback.owner }
              else some ({ native with arenas }.finish (result.mapError prepareFailure))
          | none =>
              let (result, state) := (call handle.core).run none handle.state
              let arenas ← native.arenas.set p { handle with state }
              some ({ native with arenas }.finish (result.mapError prepareFailure))

section Preparing

variable (P : Platform) (serde : Serde F) (env : Env) (callbacks : OwnedHeap HostCallback)
  (arena : Option ℕ)

/-- The source's `cl_arena_prepare`. -/
def arenaPrepare (json : Option ByteArray) : Option (Return F) :=
  native.countingCall callbacks arena
    ((parse json "request_json" serde.readRequest).map fun request core =>
      prepareCall P serde core env request)

/-- The source's `cl_arena_prepare_begin`. -/
def arenaPrepareBegin (json : Option ByteArray) : Option (Return F) :=
  native.countingCall callbacks arena
    ((parse json "request_json" serde.readRequest).map fun request core =>
      prepareBeginCall P serde core env request)

/-- The source's `cl_arena_prepare_commit`: both texts are looked at before one of them is read. -/
def arenaPrepareCommit (requestJson semanticResultsJson : Option ByteArray) :
    Option (Return F) :=
  native.countingCall callbacks arena do
    let requestText ← utf8 requestJson "request_json"
    let resultsText ← utf8 semanticResultsJson "semantic_results_json"
    let request ← (serde.readRequest requestText).mapError jsonFailure
    let results ← (serde.readResults resultsText).mapError jsonFailure
    pure fun core => prepareCommitCall P serde core env request results

end Preparing

/-- The source's `cl_arena_set_token_counter`. -/
def arenaSetTokenCounter (arena callback : Option ℕ) : Option (Return F) :=
  match arena with
  | none => some (native.fail (invalidArgument "arena is null"))
  | some p => do
      let handle ← native.arenas.get p
      let arenas ← native.arenas.set p { handle with tokenCounter := callback }
      some { code := 0, native := { native with arenas } }

/-- A function that calls the kernel without a counter. -/
def plainCall (arena : Option ℕ)
    (parsed : Except Failure (ContextLeaseArena F → ArenaState F → Result String × ArenaState F)) :
    Option (Return F) :=
  match arena with
  | none => some (native.fail (invalidArgument "arena/result is null"))
  | some p =>
      match parsed with
      | .error failure => some (native.fail failure)
      | .ok call => do
          let handle ← native.arenas.get p
          let (result, state) := call handle.core handle.state
          let arenas ← native.arenas.set p { handle with state }
          some ({ native with arenas }.finish (result.mapError prepareFailure))

variable (serde : Serde F) (arena : Option ℕ)

/-- The source's `cl_arena_snapshot_json`. -/
def arenaSnapshotJson : Option (Return F) :=
  native.plainCall arena (.ok fun _ s => (.ok (serde.snapshotText (snapshot s)), s))

/-- The source's `cl_arena_events_json`. -/
def arenaEventsJson (afterSeq limit : ℕ) : Option (Return F) :=
  native.plainCall arena (.ok fun _ s => (.ok (serde.eventsText (eventsAfter s afterSeq limit)), s))

/-- The source's `cl_arena_record_usage`. -/
def arenaRecordUsage (env : Env) (json : Option ByteArray) : Option (Return F) :=
  native.plainCall arena
    ((parse json "observation_json" serde.readObservation).map fun observation core s =>
      (recordUsage core env observation s).map (Except.map serde.calibrationText) id)

/-- The source's `cl_arena_free`. -/
def arenaFree : Option (Native F) :=
  match arena with
  | none => some native
  | some p => do
      let arenas ← native.arenas.free p
      some { native with arenas }

/-- The source's `cl_string_free`. -/
def stringFree (value : Option ℕ) : Option (Native F) :=
  match value with
  | none => some native
  | some p => do
      let strings ← native.strings.free p
      some { native with strings }

end Native

end Foreign

end ContextLease
