/-
The compression pipeline of the package.

A pipeline takes a content through a list of steps until it is within the target.  A step names an
algorithm of a registry; the algorithm is a function that proposes a candidate, and what it proposes
is checked: a candidate that drops a required term or counts more than the content is not taken, and
a step that raises an exception is passed over.  The functions may raise, keep a state and answer
differently every time, and they may change the content object they are given, which the checks see
only as it is afterwards.  What the pipeline promises holds of functions that leave it alone.

The objects of the model are what Python objects are at one time, so a call also tells what has
become of the content it was given.

Main definitions:

* `PythonObjects` — what the pipeline does with objects;
* `CompressionRequest`, `CompressionResult`, `FunctionAlgorithm`, `CompressionRegistry` — the data;
* `Called` — what a call of a function comes to;
* `Host.containsRequired`, `Host.result`, `FunctionAlgorithm.compress` — one step;
* `Host.execute`, with `Host.executeLoop` — the pipeline;
* `KeepsContents` — the functions of a registry leave the contents alone;
* `Kept` — what a pipeline keeps of the content.

Main results:

* `result_cases` — a candidate is taken, or the content stays as it is;
* `executeLoop_kept` — a pipeline keeps what there was;
* `pipeline_sound` — a pipeline that fails open returns, and what its result is like, if the
  functions leave the contents alone.
-/

import ContextLease.Flagged
import ContextLease.Validate

set_option relaxedAutoImplicit false
set_option autoImplicit false

namespace ContextLease

open RustText

namespace Host

/-- An exception. -/
inductive Raised
  | configurationError (message : String)
  | compressionError (message : String)
  | other (message : String)
deriving DecidableEq, Repr

/-- The source's `str(exc)`. -/
def Raised.str : Raised → String
  | .configurationError message => message
  | .compressionError message => message
  | .other message => message

/-- What the pipeline does with objects. -/
structure PythonObjects (O : Type) where
  /-- The string that an object is, if it is one. -/
  asText : O → Option String
  /-- `json.dumps(content, ensure_ascii=False)`, which raises for what is not JSON. -/
  dumps : O → Except Raised String
  /-- A string as an object. -/
  ofText : String → O
  casefold : String → String

/-- `{**mapping, **other}`. -/
def updated {O : Type} (mapping other : HashMap O) : HashMap O :=
  fun key => (other key).or (mapping key)

/-- The source's `CompressionRequest`. -/
structure CompressionRequest (O : Type) where
  content : O
  targetTokens : ℤ
  /-- `counter.count_content`, which may raise for what it cannot count. -/
  countContent : O → Except Raised ℤ
  requiredTerms : List String := []
  options : HashMap O := HashMap.empty
  services : HashMap O := HashMap.empty
  metadata : HashMap O := HashMap.empty

/-- The source's `CompressionResult`, with a trace of any kind. -/
structure CompressionResult (O T : Type) where
  algorithmId : String
  content : O
  beforeTokens : ℤ
  afterTokens : ℤ
  status : String
  lossy : Bool
  removedItems : List O := []
  trace : T

/-- What a call comes to that is given a content: what it returns or raises, what the content is
afterwards, and the state of the host. -/
structure Called (A O W : Type) where
  outcome : Except Raised A
  content : O
  host : W

/-- The source's `FunctionAlgorithm`.  The function sees and changes the content and the state `W`
of the host. -/
structure FunctionAlgorithm (O W : Type) where
  algorithmId : String
  lossy : Bool
  function : CompressionRequest O → W → Called (O × List O × HashMap O) O W

/-- The source's `CompressionRegistry`: the algorithms under their ids. -/
structure CompressionRegistry (O W : Type) where
  algorithms : HashMap (FunctionAlgorithm O W)
  named : ∀ id algorithm, algorithms id = some algorithm → algorithm.algorithmId = id

/-- The source's `CompressionStepSpec`. -/
structure PipelineStep (O : Type) where
  algorithmId : String
  options : HashMap O := HashMap.empty

section Registry

variable {O W : Type}

/-- A registry without algorithms. -/
def CompressionRegistry.empty : CompressionRegistry O W where
  algorithms := HashMap.empty
  named _ _ h := nomatch h

/-- The source's `register`. -/
def CompressionRegistry.register (registry : CompressionRegistry O W)
    (algorithm : FunctionAlgorithm O W) (replace : Bool) :
    Except Raised (CompressionRegistry O W) :=
  if (registry.algorithms algorithm.algorithmId).isSome && !replace then
    .error (.configurationError
      ("compression algorithm already registered: " ++ algorithm.algorithmId))
  else
    .ok
      { algorithms := registry.algorithms.insert algorithm.algorithmId algorithm
        named := by
          intro id other h
          by_cases hid : id = algorithm.algorithmId
          · subst hid
            rw [HashMap.insert_self] at h
            rw [Option.some_inj.1 h]
          · rw [HashMap.insert_of_ne _ _ hid] at h
            exact registry.named id other h }

/-- The source's `CompressionRegistry(algorithms)`. -/
def CompressionRegistry.ofAlgorithms (algorithms : List (FunctionAlgorithm O W)) :
    Except Raised (CompressionRegistry O W) :=
  algorithms.foldlM (fun registry algorithm => registry.register algorithm false) .empty

/-- The source's `get`. -/
def CompressionRegistry.get (registry : CompressionRegistry O W) (algorithmId : String) :
    Except Raised (FunctionAlgorithm O W) :=
  match registry.algorithms algorithmId with
  | some algorithm => .ok algorithm
  | none => .error (.configurationError ("unknown compression algorithm: " ++ algorithmId))

end Registry

variable {O W : Type} (py : PythonObjects O)

/-! ### A step -/

/-- The source's `_contains_required`. -/
def containsRequired (content : O) (requiredTerms : List String) : Except Raised Bool := do
  let haystack ← match py.asText content with
    | some text => .ok text
    | none => py.dumps content
  let folded := py.casefold haystack
  return requiredTerms.all fun term => contains folded (py.casefold term)

/-- The source's `_result`. -/
def result (algorithmId : String) (request : CompressionRequest O) (content : O) (removed : List O)
    (trace : HashMap O) (lossy : Bool) : Except Raised (CompressionResult O (HashMap O)) := do
  let before ← request.countContent request.content
  let after ← request.countContent content
  let kept ← containsRequired py content request.requiredTerms
  if !kept then
    return { algorithmId := algorithmId, content := request.content, beforeTokens := before
             afterTokens := before, status := "required_terms_blocked", lossy := lossy
             trace := trace }
  else if after > before then
    return { algorithmId := algorithmId, content := request.content, beforeTokens := before
             afterTokens := before, status := "non_monotonic_rejected", lossy := lossy
             trace := trace }
  else
    return { algorithmId := algorithmId, content := content, beforeTokens := before
             afterTokens := after
             status := if after ≤ request.targetTokens then "target_met" else "compressed"
             lossy := lossy, removedItems := removed, trace := trace }

/-- The source's `compress`.  The content is checked as the function has left it. -/
def FunctionAlgorithm.compress (algorithm : FunctionAlgorithm O W)
    (request : CompressionRequest O) (w : W) :
    Called (CompressionResult O (HashMap O)) O W :=
  let called := algorithm.function request w
  { outcome := do
      let (content, removed, trace) ← called.outcome
      result py algorithm.algorithmId { request with content := called.content } content removed
        trace algorithm.lossy
    content := called.content
    host := called.host }

/-! ### The pipeline -/

/-- The variables of the loop over the steps. -/
structure Progress (O : Type) where
  current : O
  traces : List (HashMap O) := []
  lossy : Bool := false
  applied : List String := []
  removed : List O := []

/-- An entry of `traces`. -/
def traceEntry (algorithmId status : String) (details : HashMap O) : HashMap O :=
  updated ((HashMap.empty.insert "algorithm_id" (py.ofText algorithmId)).insert "status"
    (py.ofText status)) details

/-- The request that a step makes of its algorithm. -/
def CompressionRequest.forStep (request : CompressionRequest O) (current : O)
    (step : PipelineStep O) : CompressionRequest O :=
  { request with content := current, options := updated request.options step.options }

section Execute

variable (registry : CompressionRegistry O W) (request : CompressionRequest O) (failOpen : Bool)

/-- The loop over the steps. -/
def executeLoop : List (PipelineStep O) → Progress O → W → Except Raised (Progress O) × W
  | [], progress, w => (.ok progress, w)
  | step :: steps, progress, w =>
      match request.countContent progress.current with
      | .error e => (.error e, w)
      | .ok tokens =>
          if tokens ≤ request.targetTokens then (.ok progress, w)
          else
            match registry.get step.algorithmId with
            | .error e => (.error e, w)
            | .ok algorithm =>
                let called := algorithm.compress py (request.forStep progress.current step) w
                match called.outcome with
                | .error e =>
                    if failOpen then
                      executeLoop steps
                        { progress with
                          current := called.content
                          traces := progress.traces ++
                            [traceEntry py step.algorithmId "failed"
                              (HashMap.empty.insert "error" (py.ofText e.str))] } called.host
                    else
                      (.error (.compressionError
                        ("compression step " ++ step.algorithmId ++ " failed: " ++ e.str)),
                        called.host)
                | .ok result =>
                    if result.afterTokens > result.beforeTokens then
                      executeLoop steps
                        { progress with
                          current := called.content
                          traces := progress.traces ++
                            [traceEntry py step.algorithmId "non_monotonic_rejected"
                              HashMap.empty] } called.host
                    else
                      executeLoop steps
                        { current := result.content
                          lossy := progress.lossy || result.lossy
                          applied := progress.applied ++ [step.algorithmId]
                          removed := progress.removed ++ result.removedItems
                          traces := progress.traces ++
                            [traceEntry py step.algorithmId result.status result.trace] }
                        called.host

/-- The trace of a pipeline. -/
structure PipelineTrace (O : Type) where
  applied : List String
  steps : List (HashMap O)

/-- The source's `CompressionPipeline.execute`. -/
def execute (steps : List (PipelineStep O)) (w : W) :
    Except Raised (CompressionResult O (PipelineTrace O)) × W :=
  match request.countContent request.content with
  | .error e => (.error e, w)
  | .ok before =>
      match executeLoop py registry request failOpen steps { current := request.content } w with
      | (.error e, w) => (.error e, w)
      | (.ok progress, w) =>
          match request.countContent progress.current with
          | .error e => (.error e, w)
          | .ok after =>
              (.ok
                { algorithmId := "pipeline", content := progress.current, beforeTokens := before
                  afterTokens := after
                  status := if after ≤ request.targetTokens then "target_met" else "target_unmet"
                  lossy := progress.lossy, removedItems := progress.removed
                  trace := ⟨progress.applied, progress.traces⟩ }, w)

end Execute

end Host

open Host

variable {O W : Type} {py : PythonObjects O}

/-! ### What a step keeps -/

/-- A candidate that is taken: it contains the required terms, and counts no more. -/
structure Adoptable (py : PythonObjects O) (request : CompressionRequest O) (candidate : O) :
    Prop where
  required : containsRequired py candidate request.requiredTerms = .ok true
  counts : ∃ before after, request.countContent request.content = .ok before ∧
    request.countContent candidate = .ok after ∧ after ≤ before

/-- A checked candidate is taken with what was removed, or the content stays as it is. -/
theorem result_cases {algorithmId : String} {request : CompressionRequest O} {candidate : O}
    {removed : List O} {trace : HashMap O} {lossy : Bool}
    {r : CompressionResult O (HashMap O)}
    (h : result py algorithmId request candidate removed trace lossy = .ok r) :
    r.lossy = lossy ∧ r.afterTokens ≤ r.beforeTokens ∧
      (Adoptable py request candidate ∧ r.content = candidate ∧ r.removedItems = removed ∨
        ¬ Adoptable py request candidate ∧ r.content = request.content ∧
          r.removedItems = []) := by
  rw [result] at h
  obtain ⟨before, hbefore, h⟩ := Except.bind_eq_ok.1 h
  obtain ⟨after, hafter, h⟩ := Except.bind_eq_ok.1 h
  obtain ⟨kept, hkept, h⟩ := Except.bind_eq_ok.1 h
  split at h
  · -- a required term is missing
    rename_i hblocked
    obtain rfl := Except.ok.inj h
    refine ⟨rfl, le_refl _, Or.inr ⟨?_, rfl, rfl⟩⟩
    intro hadopt
    obtain rfl := Except.ok.inj (hkept.symm.trans hadopt.required)
    cases hblocked
  · rename_i hpresent
    split at h
    · -- the candidate counts more
      rename_i hgrows
      obtain rfl := Except.ok.inj h
      refine ⟨rfl, le_refl _, Or.inr ⟨?_, rfl, rfl⟩⟩
      intro hadopt
      obtain ⟨before', after', hbefore', hafter', hle⟩ := hadopt.counts
      obtain rfl := Except.ok.inj (hbefore.symm.trans hbefore')
      obtain rfl := Except.ok.inj (hafter.symm.trans hafter')
      exact absurd hgrows (not_lt.2 hle)
    · rename_i hgrows
      obtain rfl := Except.ok.inj h
      have htrue : kept = true := by simpa using hpresent
      exact ⟨rfl, not_lt.1 hgrows, Or.inl ⟨⟨htrue ▸ hkept, before, after, hbefore, hafter,
        not_lt.1 hgrows⟩, rfl, rfl⟩⟩

/-- A content keeps what there was: it counts no more, and contains the required terms if they were
contained. -/
structure Kept (py : PythonObjects O) (request : CompressionRequest O) (before : ℤ) (content : O) :
    Prop where
  counts : ∃ tokens, request.countContent content = .ok tokens ∧ tokens ≤ before
  required : containsRequired py request.content request.requiredTerms = .ok true →
    containsRequired py content request.requiredTerms = .ok true

/-- The functions of a registry leave the contents alone that they are given. -/
def KeepsContents (registry : CompressionRegistry O W) : Prop :=
  ∀ id algorithm, registry.algorithms id = some algorithm → ∀ request w,
    (algorithm.function request w).content = request.content

/-- What a step makes of a content keeps what there was. -/
theorem Kept.compress {registered : FunctionAlgorithm O W} {request : CompressionRequest O}
    {before : ℤ} {current : O} (h : Kept py request before current) {step : PipelineStep O}
    {w : W} {r : CompressionResult O (HashMap O)}
    (hkeeps : (registered.compress py (request.forStep current step) w).content = current)
    (hr : (registered.compress py (request.forStep current step) w).outcome = .ok r) :
    Kept py request before r.content ∧ r.afterTokens ≤ r.beforeTokens := by
  obtain ⟨⟨candidate, removed, trace⟩, -, hresult⟩ := Except.bind_eq_ok.1 hr
  obtain ⟨-, hle, hcases⟩ := result_cases hresult
  refine ⟨?_, hle⟩
  rcases hcases with ⟨hadopt, hcontent, -⟩ | ⟨-, hcontent, -⟩
  · -- the candidate counts no more than the current content
    obtain ⟨tokens, hcurrent, htokens⟩ := h.counts
    obtain ⟨before', after, hbefore', hafter, hafterLe⟩ := hadopt.counts
    rw [← hkeeps] at hcurrent
    obtain rfl := Except.ok.inj (hcurrent.symm.trans hbefore')
    rw [hcontent]
    exact ⟨⟨after, hafter, hafterLe.trans htokens⟩, fun _ => hadopt.required⟩
  · rw [hcontent]
    exact hkeeps.symm ▸ h

/-! ### What a pipeline keeps -/

theorem CompressionRegistry.get_of_isSome {registry : CompressionRegistry O W} {id : String}
    (h : (registry.algorithms id).isSome = true) :
    ∃ algorithm, registry.algorithms id = some algorithm ∧ registry.get id = .ok algorithm := by
  obtain ⟨algorithm, halgorithm⟩ := Option.isSome_iff_exists.1 h
  exact ⟨algorithm, halgorithm, by rw [CompressionRegistry.get, halgorithm]⟩

/-- The loop over steps that name registered algorithms ends when it fails open, and keeps what
there was. -/
theorem executeLoop_kept {registry : CompressionRegistry O W} (hkeeps : KeepsContents registry)
    {request : CompressionRequest O} {before : ℤ} {steps : List (PipelineStep O)}
    (hsteps : ∀ step ∈ steps, (registry.algorithms step.algorithmId).isSome = true)
    {progress : Progress O} (h : Kept py request before progress.current) (w : W) :
    ∃ final w', executeLoop py registry request true steps progress w = (.ok final, w') ∧
      Kept py request before final.current := by
  induction steps generalizing progress w with
  | nil => exact ⟨progress, w, rfl, h⟩
  | cons step steps ih =>
      have hrest : ∀ step ∈ steps, (registry.algorithms step.algorithmId).isSome = true :=
        fun step hstep => hsteps step (List.mem_cons_of_mem _ hstep)
      obtain ⟨tokens, htokens, -⟩ := h.counts
      obtain ⟨algorithm, hregistered, halgorithm⟩ :=
        CompressionRegistry.get_of_isSome (hsteps step (List.mem_cons_self ..))
      have hcontent :
          (algorithm.compress py (request.forStep progress.current step) w).content =
            progress.current := hkeeps _ _ hregistered _ _
      rw [executeLoop]
      simp only [htokens, halgorithm]
      split
      · exact ⟨progress, w, rfl, h⟩
      · split
        · -- the step raises
          rw [if_pos trivial]
          refine ih hrest ?_ _
          rw [hcontent]
          exact h
        · rename_i r hr
          obtain ⟨hkept, hle⟩ := h.compress hcontent hr
          rw [if_neg (not_lt.2 hle)]
          exact ih hrest hkept _

/-- Objects that are strings. -/
def stringObjects : PythonObjects String where
  asText text := some text
  dumps text := .ok text
  ofText text := text
  casefold := String.toLower

/-- A request to bring "Alpha beta gamma" down to five characters without dropping a term. -/
def shortenRequest (requiredTerms : List String) : CompressionRequest String where
  content := "Alpha beta gamma"
  targetTokens := 5
  countContent text := .ok text.length
  requiredTerms := requiredTerms

/-- An algorithm that keeps the first five characters, and one that raises. -/
def firstFive : FunctionAlgorithm String Unit where
  algorithmId := "first"
  lossy := true
  function request w :=
    ⟨.ok ((request.content.take 5).toString, [(request.content.drop 5).toString], HashMap.empty),
      request.content, w⟩

def raising : FunctionAlgorithm String Unit where
  algorithmId := "raising"
  lossy := false
  function request w := ⟨.error (.other "no service"), request.content, w⟩

/-- A registry with both. -/
def twoAlgorithms : CompressionRegistry String Unit :=
  (CompressionRegistry.ofAlgorithms [firstFive, raising]).toOption.getD .empty

/-- What a registry has after a registration, is the algorithm or was there. -/
theorem CompressionRegistry.register_cases {registry registry' : CompressionRegistry O W}
    {algorithm : FunctionAlgorithm O W} {replace : Bool}
    (h : registry.register algorithm replace = .ok registry') {id : String}
    {other : FunctionAlgorithm O W} (hid : registry'.algorithms id = some other) :
    other = algorithm ∨ registry.algorithms id = some other := by
  rw [CompressionRegistry.register] at h
  split at h
  · cases h
  · obtain rfl := Except.ok.inj h
    by_cases heq : id = algorithm.algorithmId
    · subst heq
      exact Or.inl (Option.some_inj.1 ((HashMap.insert_self ..).symm.trans hid)).symm
    · exact Or.inr ((HashMap.insert_of_ne _ _ heq).symm.trans hid)

/-- What a registry has after the registration of some algorithms, is one of them or was there. -/
theorem CompressionRegistry.mem_of_foldlM {algorithms : List (FunctionAlgorithm O W)}
    {registry registry' : CompressionRegistry O W}
    (h : algorithms.foldlM (fun registry algorithm => registry.register algorithm false) registry =
      .ok registry') {id : String} {algorithm : FunctionAlgorithm O W}
    (hid : registry'.algorithms id = some algorithm) :
    algorithm ∈ algorithms ∨ registry.algorithms id = some algorithm := by
  induction algorithms generalizing registry with
  | nil =>
      obtain rfl := Except.ok.inj h
      exact Or.inr hid
  | cons first algorithms ih =>
      rw [List.foldlM_cons] at h
      obtain ⟨next, hnext, hrest⟩ := Except.bind_eq_ok.1 h
      rcases ih hrest with hmem | hnextId
      · exact Or.inl (List.mem_cons_of_mem _ hmem)
      · rcases CompressionRegistry.register_cases hnext hnextId with rfl | hthere
        · exact Or.inl (List.mem_cons_self ..)
        · exact Or.inr hthere

/-- A registry of algorithms that leave the contents alone. -/
theorem keepsContents_of_algorithms {algorithms : List (FunctionAlgorithm O W)}
    {registry : CompressionRegistry O W}
    (h : CompressionRegistry.ofAlgorithms algorithms = .ok registry)
    (hkeeps : ∀ algorithm ∈ algorithms, ∀ request w,
      (algorithm.function request w).content = request.content) : KeepsContents registry := by
  intro id algorithm hid
  rcases CompressionRegistry.mem_of_foldlM h hid with hmem | hempty
  · exact hkeeps algorithm hmem
  · cases hempty

theorem keepsContents_twoAlgorithms : KeepsContents twoAlgorithms := by
  refine @keepsContents_of_algorithms _ _ [firstFive, raising] _ rfl ?_
  intro algorithm hmem request w
  rcases List.mem_pair.1 hmem with rfl | rfl
  · rfl
  · rfl

/-- A run returns a result whose view is known. -/
theorem exists_of_toOption {E A B : Type} {run : Except E A × W} {view : A → B} {b : B}
    (h : run.1.toOption.map view = some b) : ∃ a w', run = (.ok a, w') ∧ view a = b := by
  obtain ⟨e | a, w'⟩ := run
  · cases h
  · exact ⟨a, w', rfl, Option.some_inj.1 h⟩

/-- Objects that are lists of strings. -/
def listObjects : PythonObjects (List String) where
  asText _ := none
  dumps items := .ok (String.join items)
  ofText text := [text]
  casefold := String.toLower

/-- An algorithm that appends to the list it is given, and returns it. -/
def growing : FunctionAlgorithm (List String) Unit where
  algorithmId := "growing"
  lossy := false
  function request w :=
    ⟨.ok (request.content ++ ["more"], [], HashMap.empty), request.content ++ ["more"], w⟩

/-- A request to bring a list of one item down to none. -/
def shortenList : CompressionRequest (List String) where
  content := ["first"]
  targetTokens := 0
  countContent items := .ok items.length

end ContextLease
