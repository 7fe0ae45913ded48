/-
Reclaiming a module.

A module that exceeds its allocation keeps its protected chunks and runs the text of the others
through the module's pipeline.  A deterministic step proposes a text, which is adopted if it does
not grow and keeps every required term; a semantic step adopts the smallest valid answer of the
host.  `collectSemanticRequests` runs the same pipeline up to the semantic step to find out what to
ask the host.

Main definitions:

* `compressText` — the deterministic passes, with `selectSentences`, `truncate` and its fast path
  `truncateCharEstimator`;
* `semanticRequestsForStep`, `fingerprint` — the requests of a semantic step and their ids;
* `collectLoop`, `collectSemanticRequests` — what a reclaim would ask the host;
* `reclaimLoop`, `compressModule` — the reclaim.
-/

import ContextLease.Count
import Mathlib.Data.List.Dedup

set_option relaxedAutoImplicit false
set_option autoImplicit false

namespace ContextLease

open MachineNumbers RustText

variable {F : Type} [FloatOps F]

/-! ### The deterministic passes -/

section Passes

variable (P : Platform) (counts : CountContext F) (target : ℤ)

/-- The loop of `truncate`. -/
def truncateLoop : List Char → String → Flagged String
  | [], out => pure out
  | ch :: rest, out => do
      let candidate := out.push ch
      let tokens ← counts.countText P candidate
      if tokens > target then pure out else truncateLoop rest candidate

/-- The general path of `truncate`, which counts every prefix. -/
def truncateByCount (text : String) : Flagged String :=
  if target ≤ 0 then pure ""
  else do
    let out ← truncateLoop P counts target text.toList ""
    pure (trimEnd out)

/-- The loop of `truncate_char_estimator`. -/
def truncateCharLoop : List Char → ℤ × ℤ → String → String
  | [], _, out => out
  | ch :: rest, sums, out =>
      let next := charStep P sums ch
      if charTokens P next > target then out else truncateCharLoop rest next (out.push ch)

/-- The source's `truncate_char_estimator`. -/
def truncateCharEstimator (text : String) : String :=
  if target ≤ 0 then "" else trimEnd (truncateCharLoop P target text.toList (0, 0) "")

/-- The source's `truncate`. -/
def truncate (text : String) : Flagged String :=
  if counts.external.isNone && usesCharEstimator counts.tokenizerId then
    pure (truncateCharEstimator P target text)
  else truncateByCount P counts target text

/-- The characters that end a sentence. -/
def isSentenceEnd (ch : Char) : Bool := ['.', '!', '?', '。', '！', '？'].contains ch

/-- The loop of `select_sentences`. -/
def selectLoop : List String → String → Flagged String
  | [], result => pure result
  | sentence :: rest, result => do
      let next := if result.isEmpty then trim sentence else result ++ " " ++ trim sentence
      let tokens ← counts.countText P next
      if tokens > target then pure result else selectLoop rest next

/-- The source's `select_sentences`. -/
def selectSentences (text : String) : Flagged String := do
  let result ← selectLoop P counts target (splitInclusive isSentenceEnd text) ""
  if result.isEmpty then truncate P counts target text else pure result

/-- The blocks whose trimmed text is not among those seen before. -/
def dedupBlocks : List String → List String → List String
  | _, [] => []
  | seen, block :: blocks =>
      if seen.contains (trim block) then dedupBlocks seen blocks
      else block :: dedupBlocks (trim block :: seen) blocks

/-- The source's `compress_text`. -/
def compressText (id text : String) : Flagged String :=
  if id == "builtin.text.normalize_whitespace.v1" then
    pure (" ".intercalate (splitWhitespace text))
  else if id == "builtin.text.deduplicate_blocks.v1" then
    pure ("\n\n".intercalate (dedupBlocks [] (splitBlankLine text)))
  else if id == "builtin.text.extractive_sentence_rank.v1" then
    selectSentences P counts target text
  else if id == "builtin.text.boundary_truncate.v1" then truncate P counts target text
  else pure text

end Passes

/-! ### Semantic requests -/

/-- The strings of a `BTreeSet<String>` collected from a list. -/
def btreeSet (l : List String) : List String := l.dedup.insertionSort (· ≤ ·)

@[simp] theorem mem_btreeSet {l : List String} {s : String} : s ∈ btreeSet l ↔ s ∈ l := by
  simp [btreeSet]

@[simp] theorem btreeSet_nil : btreeSet [] = [] := rfl

@[simp] theorem btreeSet_singleton (text : String) : btreeSet [text] = [text] := by
  simp [btreeSet]

/-- The providers a semantic step is configured with. -/
def stepProviders (step : CompressionStepSpec) : List String :=
  if step.algorithmId == "builtin.semantic.portfolio.v1" then
    match (step.options.get "providers").bind Value.asArray with
    | some items => ((items.filterMap Value.asStr).map trim).filter fun item => !item.isEmpty
    | none => []
  else
    match (step.options.get "provider").bind Value.asStr with
    | some item => [trim item].filter fun item => !item.isEmpty
    | none => []

/-- The text a semantic request id is a hash of. -/
def fingerprint (moduleId algorithmId providerId : String) (targetTokens : ℤ)
    (requiredTerms : List String) (sourceText : String) : String :=
  moduleId ++ "\x00" ++ algorithmId ++ "\x00" ++ providerId ++ "\x00" ++ toString targetTokens ++
    "\x00" ++ "\x00".intercalate requiredTerms ++ "\x00" ++ sourceText

/-- The request of a step to one provider. -/
def semanticRequest (lib : Library) (m : ModuleDefinition F) (step : CompressionStepSpec)
    (sourceText : String) (targetTokens : ℤ) (requiredTerms : List String) (providerId : String) :
    SemanticRequest where
  semanticRequestId := "sem_" ++ lib.digest
    (fingerprint m.moduleId step.algorithmId providerId targetTokens requiredTerms sourceText)
  moduleId := m.moduleId
  algorithmId := step.algorithmId
  providerId := providerId
  sourceText := sourceText
  targetTokens := targetTokens
  requiredTerms := requiredTerms
  options := step.options

/-- The source's `semantic_requests_for_step`. -/
def semanticRequestsForStep (lib : Library) (m : ModuleDefinition F) (step : CompressionStepSpec)
    (sourceText : String) (targetTokens : ℤ) (requiredTerms : List String) :
    Result (List SemanticRequest) :=
  let providers := stepProviders step
  if providers.isEmpty then
    fail "configuration_error" (step.algorithmId ++ " requires configured provider ids")
  else
    .ok (providers.map (semanticRequest lib m step sourceText targetTokens requiredTerms))

/-! ### The pipeline -/

/-- A chunk the pipeline must not touch. -/
def isProtected (m : ModuleDefinition F) (c : PromptChunk F) : Bool :=
  c.fixed || m.protection == "pinned" || c.protection == "pinned"

/-- The protected chunks of a module. -/
def protectedChunks (m : ModuleDefinition F) (chunks : List (PromptChunk F)) :
    List (PromptChunk F) := chunks.filter (isProtected m)

/-- The chunks of a module its pipeline may change. -/
def elasticChunks (m : ModuleDefinition F) (chunks : List (PromptChunk F)) :
    List (PromptChunk F) := chunks.filter fun c => !isProtected m c

/-- The required terms of the chunks handed to the pipeline. -/
def requiredTermsOf (elastic : List (PromptChunk F)) : List String :=
  btreeSet (elastic.flatMap PromptChunk.requiredTerms)

/-- The text of the chunks handed to the pipeline. -/
def elasticText (elastic : List (PromptChunk F)) : String :=
  "\n\n".intercalate (elastic.map fun c => render c.content)

section Pipeline

variable (P : Platform) (counts : CountContext F)

/-- The test of a deterministic candidate: it does not grow and keeps every required term. -/
def keepsContract (required : List String) (text candidate : String) : Flagged Bool := do
  let after ← counts.countText P candidate
  let before ← counts.countText P text
  pure (decide (after ≤ before) && required.all fun term => contains candidate term)

/-- The test of a semantic candidate: it is not blank, does not grow and keeps every required
term. -/
def validCandidate (required : List String) (text candidate : String) : Flagged Bool :=
  if isBlank candidate then pure false else keepsContract P counts required text candidate

variable (m : ModuleDefinition F) (target : ℤ) (required : List String)

/-- The pipeline loop of `collect_semantic_requests`. -/
def collectLoop :
    List CompressionStepSpec → String → Checked ContextLeaseError (List SemanticRequest)
  | [], _ => pure []
  | step :: rest, text => do
      let tokens ← counts.countText P text
      if tokens ≤ target then pure []
      else if isSemanticAlgorithm step.algorithmId then
        liftM (semanticRequestsForStep P.toLibrary m step text target required)
      else do
        let candidate ← compressText P counts target step.algorithmId text
        let accepted ← keepsContract P counts required text candidate
        collectLoop rest (if accepted then candidate else text)

/-- The pipeline loop of `compress_module`. -/
def reclaimLoop (semanticResults : HashMap String) :
    List CompressionStepSpec → String → Checked ContextLeaseError String
  | [], text => pure text
  | step :: rest, text => do
      let tokens ← counts.countText P text
      if tokens ≤ target then pure text
      else if isSemanticAlgorithm step.algorithmId then do
        let requests ← semanticRequestsForStep P.toLibrary m step text target required
        let candidates ← Flagged.filter (validCandidate P counts required text)
          (requests.filterMap fun request => semanticResults request.semanticRequestId)
        let sorted ← Flagged.sortByKey (counts.countText P) candidates
        match sorted.head? with
        | some candidate => reclaimLoop semanticResults rest candidate
        | none =>
            throw ⟨"semantic_result_missing_or_invalid",
              m.moduleId ++ " requires a valid semantic result for " ++ step.algorithmId⟩
      else do
        let candidate ← compressText P counts target step.algorithmId text
        let accepted ← keepsContract P counts required text candidate
        reclaimLoop semanticResults rest (if accepted then candidate else text)

end Pipeline

/-! ### The two entry points -/

section Reclaim

variable (P : Platform) (counts : CountContext F) (m : ModuleDefinition F)

/-- The source's `collect_semantic_requests`. -/
def collectSemanticRequests (chunks : List (PromptChunk F)) (allocation : ℤ) :
    Checked ContextLeaseError (List SemanticRequest) := do
  let protectedTokens ← counts.countChunks P (protectedChunks m chunks)
  if protectedTokens > allocation then
    throw ⟨"admission_error", m.moduleId ++ " protected content exceeds allocation"⟩
  else if (elasticChunks m chunks).isEmpty then pure []
  else
    collectLoop P counts m (P.arith.sub allocation protectedTokens)
      (requiredTermsOf (elasticChunks m chunks)) m.reclaimPipeline
      (elasticText (elasticChunks m chunks))

/-- The chunk that stands for the chunks handed to the pipeline. -/
def compressedChunk (elastic : List (PromptChunk F)) (text : String) : PromptChunk F where
  chunkId := m.moduleId ++ ":compressed"
  content := .string text
  kind := "text"
  fixed := false
  protection := "elastic"
  priority := FloatOps.ofInt 1
  requiredTerms := requiredTermsOf elastic
  dependencyGroup := none
  metadata := BTreeMap.ofList
    [("source_chunk_ids", .array (elastic.map fun c => .string c.chunkId)),
      ("compression_pipeline", .array (m.reclaimPipeline.map fun s => .string s.algorithmId))]

/-- The source's `compress_module`. -/
def compressModule (chunks : List (PromptChunk F)) (allocation : ℤ)
    (semanticResults : HashMap String) :
    Checked ContextLeaseError (List (PromptChunk F) × ℤ) := do
  let pinnedTokens ← counts.countChunks P (protectedChunks m chunks)
  if pinnedTokens > allocation then
    throw ⟨"admission_error", m.moduleId ++ " pinned content exceeds allocation"⟩
  else if (elasticChunks m chunks).isEmpty then
    throw ⟨"admission_error", m.moduleId ++ " has no elastic content"⟩
  else do
    let target := P.arith.sub allocation pinnedTokens
    let text ← reclaimLoop P counts m target (requiredTermsOf (elasticChunks m chunks))
      semanticResults m.reclaimPipeline (elasticText (elasticChunks m chunks))
    let after ← counts.countText P text
    if after > target then
      throw ⟨"admission_error", m.moduleId ++ " reclaim target unmet"⟩
    else
      pure (protectedChunks m chunks ++ [compressedChunk m (elasticChunks m chunks) text],
        P.arith.add pinnedTokens after)

end Reclaim

end ContextLease
