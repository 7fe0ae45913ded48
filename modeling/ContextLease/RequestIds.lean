/-
The ids of semantic requests.

The id of a request is a hash of its fields, joined with NUL characters.  Nothing keeps a portfolio
from naming a provider twice, and nothing keeps a NUL out of the names of modules and providers; a
definition that does neither gives every request an id of its own, and every other definition has a
request for which two ids coincide.

Main definitions:

* `Asks`, `requestHead` — the semantic step of a module and the first fields of its requests;
* `AskedBy` — what a module asks;
* `Ambiguous` — a definition two of whose requests can have the same fields;
* `IdentifiesRequests` — every call asks with distinct ids, and accepts one answer to each.

Main results:

* `planModule_asks`, `Admitted.inCapacity` — what a module asks, and with which targets;
* `ids_nodup_of_not_ambiguous` — the ids of an unambiguous definition are distinct;
* `exists_planned` — a request for which two given modules ask;
* `identifiesRequests_iff` — an arena identifies its requests exactly when its definition is not
  ambiguous.
-/

import Mathlib.Data.List.Pairwise
import ContextLease.Interleaving
import ContextLease.Contracts
import ContextLease.AdmissionSpec
import ContextLease.Quiet
import ContextLease.Separated

set_option relaxedAutoImplicit false
set_option autoImplicit false

namespace ContextLease

open MachineNumbers RustText

variable {F : Type}

/-! ### The fields of a request -/

/-- The step at which a module asks the host, if its chunks are not all protected. -/
def Asks (m : ModuleDefinition F) (step : CompressionStepSpec) : Prop :=
  m.protection ≠ "pinned" ∧
    m.reclaimPipeline.find? (fun step => isSemanticAlgorithm step.algorithmId) = some step

/-- A module asks at one step at most. -/
theorem Asks.unique {m : ModuleDefinition F} {step step' : CompressionStepSpec} (h : Asks m step)
    (h' : Asks m step') : step = step' :=
  Option.some.inj (h.2.symm.trans h'.2)

/-- The first three fields of a request. -/
def requestHead (m : ModuleDefinition F) (step : CompressionStepSpec) (providerId : String) :
    String :=
  m.moduleId ++ "\x00" ++ step.algorithmId ++ "\x00" ++ providerId

/-- The fields of a request as characters. -/
theorem toList_fingerprint (m : ModuleDefinition F) (step : CompressionStepSpec)
    (providerId : String) (target : ℤ) (required : List String) (text : String) :
    (fingerprint m.moduleId step.algorithmId providerId target required text).toList =
      (requestHead m step providerId).toList ++ '\x00' :: ((toString target).toList ++
        '\x00' :: (("\x00".intercalate required).toList ++ '\x00' :: text.toList)) := by
  have hnul : ("\x00" : String).toList = ['\x00'] := by decide
  simp only [fingerprint, requestHead, String.toList_append, hnul, List.append_assoc,
    List.cons_append, List.nil_append]

/-- The text of a number has no NUL. -/
theorem nul_not_mem_toString (n : ℤ) : '\x00' ∉ (toString n).toList := by
  have hnat : ∀ k : ℕ, '\x00' ∉ (Nat.repr k).toList := by
    intro k hmem
    have hdigit := Nat.isDigit_of_mem_toDigits (by decide) (by decide)
      (show '\x00' ∈ Nat.toDigits 10 k by simpa [Nat.repr] using hmem)
    exact absurd hdigit (by decide)
  rw [Int.toString_eq_repr, Int.repr_eq_if]
  split
  · exact hnat _
  · rw [String.toList_append, List.mem_append, not_or]
    exact ⟨by decide, hnat _⟩

/-- The targets within the capacity of a module. -/
def InCapacity (m : ModuleDefinition F) (target : ℤ) : Prop := 0 ≤ target ∧ target ≤ capacity m

section Ambiguous

variable (targets : ModuleDefinition F → ℤ → Prop)

/-- A request of `m` to `provider` with one of the targets, continued by the first fields of a
request of `m'` to `provider'`. -/
def Continues (m : ModuleDefinition F) (step : CompressionStepSpec) (provider : String)
    (m' : ModuleDefinition F) (step' : CompressionStepSpec) (provider' : String) : Prop :=
  ∃ target, targets m target ∧
    (requestHead m step provider).toList ++ '\x00' :: ((toString target).toList ++ ['\x00']) <+:
      (requestHead m' step' provider').toList ++ ['\x00']

/-- A definition two of whose requests can have the same fields: a step names a provider twice, or
a NUL in a name makes the first fields of one module's request read like those of another's. -/
def Ambiguous (definition : ArenaDefinition F) : Prop :=
  (∃ m ∈ definition.modules, ∃ step, Asks m step ∧ ¬ (stepProviders step).Nodup) ∨
  ∃ m ∈ definition.modules, ∃ m' ∈ definition.modules, m.moduleId ≠ m'.moduleId ∧
    ∃ step step', Asks m step ∧ Asks m' step' ∧
      ∃ provider ∈ stepProviders step, ∃ provider' ∈ stepProviders step',
        requestHead m step provider = requestHead m' step' provider' ∨
          Continues targets m step provider m' step' provider'

end Ambiguous

/-- What a module asks: one request for each provider of its semantic step. -/
structure AskedBy (lib : Library) (targets : ModuleDefinition F → ℤ → Prop)
    (m : ModuleDefinition F) (step : CompressionStepSpec) (requests : List SemanticRequest) :
    Prop where
  asks : Asks m step
  requests_eq : ∃ target required text, targets m target ∧
    requests = (stepProviders step).map (semanticRequest lib m step text target required)

/-- What a module asks if it asks at all. -/
def SilentOrAskedBy (lib : Library) (targets : ModuleDefinition F → ℤ → Prop)
    (m : ModuleDefinition F) (requests : List SemanticRequest) : Prop :=
  requests = [] ∨ ∃ step, AskedBy lib targets m step requests

theorem SilentOrAskedBy.imp {lib : Library} {targets targets' : ModuleDefinition F → ℤ → Prop}
    {m : ModuleDefinition F} {requests : List SemanticRequest}
    (h : SilentOrAskedBy lib targets m requests)
    (htargets : ∀ target, targets m target → targets' m target) :
    SilentOrAskedBy lib targets' m requests := by
  rcases h with hnone | ⟨step, hasks, target, required, text, htarget, hrequests⟩
  · exact Or.inl hnone
  · exact Or.inr ⟨step, hasks, target, required, text, htargets target htarget, hrequests⟩

/-- Requests of one step that differ only in their provider differ in their fields. -/
theorem fingerprint_injective (m : ModuleDefinition F) (step : CompressionStepSpec) (target : ℤ)
    (required : List String) (text : String) :
    Function.Injective fun provider =>
      fingerprint m.moduleId step.algorithmId provider target required text := by
  intro provider provider' heq
  have hlists := congrArg String.toList heq
  simp only [toList_fingerprint, requestHead, String.toList_append, List.append_assoc,
    List.append_cancel_left_eq, List.append_cancel_right_eq] at hlists
  exact String.toList_inj.1 hlists

variable [FloatOps F]

/-! ### What a module asks -/

section Asks

variable {P : Platform} {counts : CountContext F} {m : ModuleDefinition F}

/-- A pipeline asks at its first semantic step, and nothing if it meets the target before. -/
theorem collectLoop_asks {target : ℤ} {required : List String} {steps : List CompressionStepSpec}
    {text : String} {requests : List SemanticRequest}
    (h : (collectLoop P counts m target required steps text).outcome = .ok requests) :
    requests = [] ∨ ∃ step text', steps.find? (fun step => isSemanticAlgorithm step.algorithmId) =
        some step ∧
      semanticRequestsForStep P.toLibrary m step text' target required = .ok requests := by
  induction steps generalizing text with
  | nil =>
      simp only [collectLoop, Checked.outcome_pure, Except.ok.injEq] at h
      exact Or.inl h.symm
  | cons step steps ih =>
      rw [collectLoop_cons] at h
      split at h
      · rw [Except.ok.injEq] at h
        exact Or.inl h.symm
      · split at h
        · rename_i hsemantic
          exact Or.inr ⟨step, text, List.find?_cons_of_pos hsemantic, h⟩
        · rename_i hsemantic
          simp only [List.find?_cons, hsemantic]
          exact ih h

end Asks

section Plan

variable {P : Platform} {counts : CountContext F}
  {contributions : HashMap (ModuleContribution F)} {allocations : List ModuleAllocation}

/-- A module asks with what its protected chunks leave of its allocation as the target. -/
theorem planModule_asks {m : ModuleDefinition F} {requests : List SemanticRequest}
    (h : (planModule P counts contributions allocations m).outcome = .ok requests) :
    SilentOrAskedBy P.toLibrary (fun m target =>
      target = reclaimTarget P counts m (chunksOf contributions m)
        (allocationOf allocations m).allocatedTokens ∧
      (counts.countChunks P (protectedChunks m (chunksOf contributions m))).val ≤
        (allocationOf allocations m).allocatedTokens) m requests := by
  rw [planModule_outcome] at h
  split at h
  · rw [collectSemanticRequests_outcome] at h
    split at h
    · cases h
    · rename_i hprotected
      split at h
      · rw [Except.ok.injEq] at h
        exact Or.inl h.symm
      · rename_i helastic
        rcases collectLoop_asks h with hnone | ⟨step, text, hfind, hrequests⟩
        · exact Or.inl hnone
        · exact Or.inr ⟨step, ⟨protection_ne_pinned_of_elastic (by simpa using helastic), hfind⟩,
            _, _, text, ⟨rfl, not_lt.1 hprotected⟩, (semanticRequestsForStep_ok hrequests).1⟩
  · rw [Except.ok.injEq] at h
    exact Or.inl h.symm

/-- Over unbounded integers the target is within the capacity of the module. -/
theorem Admitted.inCapacity {lib : Library} {arena : ContextLeaseArena F}
    {request : PrepareRequest F} {counter : Option TokenCounter} {multiplier : F}
    {a : Admission F} (ha : Admitted lib.exact arena request counter multiplier a)
    (hscale : a.counts.Scales) {m : ModuleDefinition F} (hm : m ∈ arena.definition.modules)
    (hprotected : (a.counts.countChunks lib.exact
      (protectedChunks m (chunksOf a.contributions m))).val ≤
        (allocationOf a.allocations m).allocatedTokens) :
    InCapacity m (reclaimTarget lib.exact a.counts m (chunksOf a.contributions m)
      (allocationOf a.allocations m).allocatedTokens) := by
  have hnonneg : 0 ≤ (a.counts.countChunks lib.exact
      (protectedChunks m (chunksOf a.contributions m))).val :=
    CountContext.countChunks_nonneg _ hscale rfl _
  have hle := ha.allocated_le hm
  rw [reclaimTarget, Arith.sub_exact]
  constructor
  · omega
  · omega

end Plan

/-! ### Distinct ids -/

section Distinct

variable {lib : Library} {targets : ModuleDefinition F → ℤ → Prop}
  (hdigest : Function.Injective lib.digest)
include hdigest

omit [FloatOps F] in
/-- Two requests have the same id exactly when they have the same fields. -/
theorem semanticRequestId_inj {m m' : ModuleDefinition F} {step step' : CompressionStepSpec}
    {text text' : String} {target target' : ℤ} {required required' : List String}
    {provider provider' : String} :
    (semanticRequest lib m step text target required provider).semanticRequestId =
        (semanticRequest lib m' step' text' target' required' provider').semanticRequestId ↔
      fingerprint m.moduleId step.algorithmId provider target required text =
        fingerprint m'.moduleId step'.algorithmId provider' target' required' text' := by
  simp only [semanticRequest, String.append_right_inj, hdigest.eq_iff]

omit [FloatOps F] in
/-- The requests of one module have distinct ids, if its step names no provider twice. -/
theorem AskedBy.ids_nodup {m : ModuleDefinition F} {step : CompressionStepSpec}
    {requests : List SemanticRequest} (h : AskedBy lib targets m step requests)
    (hproviders : (stepProviders step).Nodup) :
    (requests.map SemanticRequest.semanticRequestId).Nodup := by
  obtain ⟨target, required, text, -, rfl⟩ := h.requests_eq
  rw [List.map_map]
  refine hproviders.map ?_
  intro provider provider' heq
  exact fingerprint_injective m step target required text ((semanticRequestId_inj hdigest).1 heq)

omit [FloatOps F] in
/-- Requests of different modules with the same id make a definition ambiguous. -/
theorem AskedBy.ambiguous {definition : ArenaDefinition F} {m m' : ModuleDefinition F}
    (hm : m ∈ definition.modules) (hm' : m' ∈ definition.modules)
    (hne : m.moduleId ≠ m'.moduleId) {step step' : CompressionStepSpec}
    {requests requests' : List SemanticRequest} (h : AskedBy lib targets m step requests)
    (h' : AskedBy lib targets m' step' requests') {q q' : SemanticRequest} (hq : q ∈ requests)
    (hq' : q' ∈ requests') (heq : q.semanticRequestId = q'.semanticRequestId) :
    Ambiguous targets definition := by
  obtain ⟨target, required, text, htarget, rfl⟩ := h.requests_eq
  obtain ⟨target', required', text', htarget', rfl⟩ := h'.requests_eq
  obtain ⟨provider, hp, rfl⟩ := List.mem_map.1 hq
  obtain ⟨provider', hp', rfl⟩ := List.mem_map.1 hq'
  have hlists := congrArg String.toList ((semanticRequestId_inj hdigest).1 heq)
  rw [toList_fingerprint, toList_fingerprint] at hlists
  right
  rcases Separated.head_cases (nul_not_mem_toString target) (nul_not_mem_toString target')
    hlists with hsame | hlong | hlong
  · exact ⟨m, hm, m', hm', hne, step, step', h.asks, h'.asks, provider, hp, provider', hp',
      Or.inl (String.toList_inj.1 hsame)⟩
  · exact ⟨m, hm, m', hm', hne, step, step', h.asks, h'.asks, provider, hp, provider', hp',
      Or.inr ⟨target, htarget, hlong⟩⟩
  · exact ⟨m', hm', m, hm, hne.symm, step', step, h'.asks, h.asks, provider', hp', provider, hp,
      Or.inr ⟨target', htarget', hlong⟩⟩

omit [FloatOps F] in
/-- What the modules of an unambiguous definition ask has distinct ids. -/
theorem ids_nodup_of_not_ambiguous {definition : ArenaDefinition F}
    (hvalid : ValidDefinition definition) (hambiguous : ¬ Ambiguous targets definition)
    {parts : List (List SemanticRequest)}
    (h : List.Forall₂ (SilentOrAskedBy lib targets) (orderedModules definition) parts) :
    (parts.flatten.map SemanticRequest.semanticRequestId).Nodup := by
  have hms : ∀ m ∈ orderedModules definition, m ∈ definition.modules :=
    fun m hm => mem_orderedModules.1 hm
  have hnodup := orderedModules_nodup hvalid.ids_nodup
  generalize orderedModules definition = ms at h hms hnodup
  -- along the modules: the ids of one are distinct, and differ from those of the later ones
  induction h with
  | nil => exact List.nodup_nil
  | @cons m part ms parts hpart hparts ih =>
      rw [List.map_cons, List.nodup_cons] at hnodup
      have hm := hms m (List.mem_cons_self ..)
      rw [List.flatten_cons, List.map_append]
      refine List.Nodup.append ?_ (ih (fun m' hm' => hms m' (List.mem_cons_of_mem _ hm'))
        hnodup.2) ?_
      · rcases hpart with rfl | ⟨step, hasked⟩
        · exact List.nodup_nil
        · refine hasked.ids_nodup hdigest ?_
          by_contra hproviders
          exact hambiguous (Or.inl ⟨m, hm, step, hasked.asks, hproviders⟩)
      · intro id hid hid'
        obtain ⟨q, hq, rfl⟩ := List.mem_map.1 hid
        obtain ⟨q', hq', heq⟩ := List.mem_map.1 hid'
        obtain ⟨part', hpart', hq'⟩ := List.mem_flatten.1 hq'
        obtain ⟨m', hm', hasked'⟩ := exists_of_forall₂ hparts.flip hpart'
        have hne : m.moduleId ≠ m'.moduleId := fun heq =>
          hnodup.1 (heq ▸ List.mem_map_of_mem hm')
        rcases hpart with rfl | ⟨step, hasked⟩
        · cases hq
        · rcases hasked' with rfl | ⟨step', hasked'⟩
          · cases hq'
          · exact hambiguous (AskedBy.ambiguous hdigest hm (hms m' (List.mem_cons_of_mem _ hm'))
              hne hasked hasked' hq hq' heq.symm)

end Distinct

/-! ### A request that asks -/

section Probe

/-- A chunk without text. -/
def probeChunk (required : List String) : PromptChunk F where
  chunkId := "probe"
  content := .string ""
  priority := FloatOps.ofInt 1
  requiredTerms := required

/-- A contribution with an empty chunk and a demand of its own. -/
def probeContribution (m : ModuleDefinition F) (demand : ℤ) (required : List String) :
    ModuleContribution F where
  moduleId := m.moduleId
  chunks := [probeChunk required]
  observedDemandTokens := some demand

/-- No pass makes something out of the empty text. -/
theorem compressText_empty (P : Platform) (counts : CountContext F) (target : ℤ) (id : String) :
    (compressText P counts target id "").val = "" := by
  have htruncate : (truncate P counts target "").val = "" := by
    simp only [truncate, truncateCharEstimator, truncateByCount]
    split
    · rw [Flagged.val_pure]
      split <;> rfl
    · split <;> rfl
  simp only [compressText]
  split
  · rfl
  · split
    · rfl
    · split
      · exact htruncate
      · split
        · exact htruncate
        · rfl

theorem deterministicStep_empty (P : Platform) (counts : CountContext F) (target : ℤ)
    (required : List String) (step : CompressionStepSpec) :
    deterministicStep P counts target required step "" = "" := by
  simp only [deterministicStep, compressText_empty, ite_self]

/-- An empty text that counts as more than the target is handed to the semantic step. -/
theorem collectLoop_empty {P : Platform} {counts : CountContext F} {m : ModuleDefinition F}
    {target : ℤ} {required : List String} {steps : List CompressionStepSpec}
    {step : CompressionStepSpec}
    (hfind : steps.find? (fun step => isSemanticAlgorithm step.algorithmId) = some step)
    (hover : target < (counts.countText P "").val) :
    (collectLoop P counts m target required steps "").outcome =
      semanticRequestsForStep P.toLibrary m step "" target required := by
  induction steps with
  | nil => cases hfind
  | cons first steps ih =>
      rw [collectLoop_cons, if_neg (not_le.2 hover)]
      by_cases hsemantic : isSemanticAlgorithm first.algorithmId = true
      · simp only [List.find?_cons, hsemantic, Option.some.injEq] at hfind
        rw [if_pos hsemantic, hfind]
      · simp only [List.find?_cons, hsemantic] at hfind
        rw [if_neg hsemantic, deterministicStep_empty]
        exact ih hfind

/-- A module with an empty chunk that counts as more than its allocation asks for it. -/
theorem planModule_probe {P : Platform} {counts : CountContext F}
    {contributions : HashMap (ModuleContribution F)} {allocations : List ModuleAllocation}
    {m : ModuleDefinition F} {step : CompressionStepSpec} (hasks : Asks m step)
    (hproviders : stepProviders step ≠ []) {required : List String}
    (hchunks : chunksOf contributions m = [probeChunk required]) (hexact : P.arith = .exact)
    (hnonneg : 0 ≤ (allocationOf allocations m).allocatedTokens)
    (hover : (allocationOf allocations m).allocatedTokens < (counts.countText P "").val) :
    (planModule P counts contributions allocations m).outcome =
      .ok ((stepProviders step).map (semanticRequest P.toLibrary m step ""
        (allocationOf allocations m).allocatedTokens (btreeSet required))) := by
  have helastic : isProtected m (probeChunk required) = false := by
    simp [isProtected, probeChunk, hasks.1]
  have hprotectedChunks : protectedChunks m [probeChunk required] = [] := by
    simp [protectedChunks, helastic]
  have helasticChunks : elasticChunks m [probeChunk required] = [probeChunk required] := by
    simp [elasticChunks, helastic]
  have hcount : (counts.countChunks P [probeChunk required]).val =
      (counts.countText P "").val := by
    simp [CountContext.val_countChunks, hexact, probeChunk, CountContext.countContent]
  have hnone : (counts.countChunks P ([] : List (PromptChunk F))).val = 0 := by
    simp [CountContext.val_countChunks, hexact]
  have htarget : reclaimTarget P counts m [probeChunk required]
      (allocationOf allocations m).allocatedTokens =
      (allocationOf allocations m).allocatedTokens := by
    rw [reclaimTarget, hprotectedChunks, hnone, hexact, Arith.sub_exact, sub_zero]
  have hterms : requiredTermsOf [(probeChunk required : PromptChunk F)] = btreeSet required := by
    simp [requiredTermsOf, probeChunk]
  rw [planModule_outcome, hchunks, hcount, if_pos hover, collectSemanticRequests_outcome,
    hprotectedChunks, hnone, if_neg (by omega), helasticChunks, htarget, hterms]
  rw [if_neg (by simp)]
  refine (collectLoop_empty hasks.2 hover).trans ?_
  simp only [semanticRequestsForStep, List.isEmpty_iff, hproviders, if_false]

/-- A module without a contribution asks nothing. -/
theorem planModule_silent {P : Platform} {counts : CountContext F}
    {contributions : HashMap (ModuleContribution F)} {allocations : List ModuleAllocation}
    {m : ModuleDefinition F} (hchunks : chunksOf contributions m = [])
    (hexact : P.arith = .exact) (hnonneg : 0 ≤ (allocationOf allocations m).allocatedTokens) :
    (planModule P counts contributions allocations m).outcome = .ok [] := by
  have hnone : (counts.countChunks P ([] : List (PromptChunk F))).val = 0 := by
    simp [CountContext.val_countChunks, hexact]
  rw [planModule_outcome, hchunks, hnone, if_neg (not_lt.2 hnonneg)]

/-- Modules that all plan without failing plan one after the other. -/
theorem planLoop_of_ok {P : Platform} {counts : CountContext F}
    {contributions : HashMap (ModuleContribution F)} {allocations : List ModuleAllocation}
    {part : ModuleDefinition F → List SemanticRequest} {ms : List (ModuleDefinition F)}
    (h : ∀ m ∈ ms, (planModule P counts contributions allocations m).outcome = .ok (part m)) :
    (planLoop P counts contributions allocations ms).outcome = .ok (ms.flatMap part) := by
  induction ms with
  | nil => rfl
  | cons m ms ih =>
      simp only [planLoop, Checked.outcome_bind, h m (List.mem_cons_self ..), Except.ok_bind',
        ih fun m' hm' => h m' (List.mem_cons_of_mem _ hm'), Checked.outcome_pure,
        List.flatMap_cons]

/-- The contributions of a probe: `m` demands `target`, and the modules of `others` nothing. -/
structure Probed (definition : ArenaDefinition F) (m : ModuleDefinition F)
    (others : List (ModuleDefinition F)) (target : ℤ) (required : List String)
    (contributions : HashMap (ModuleContribution F)) : Prop where
  main : contributions m.moduleId = some (probeContribution m target required)
  idle : ∀ m' ∈ others, contributions m'.moduleId = some (probeContribution m' 0 [])
  silent : ∀ m' ∈ definition.modules, m' ≠ m → m' ∉ others → contributions m'.moduleId = none

/-- The contributions of a probe are accepted. -/
theorem exists_probed {definition : ArenaDefinition F} (hvalid : ValidDefinition definition)
    {m : ModuleDefinition F} {others : List (ModuleDefinition F)}
    (hm : m ∈ definition.modules) (hothers : ∀ m' ∈ others, m' ∈ definition.modules)
    (hnodup : ((m :: others).map ModuleDefinition.moduleId).Nodup) {target : ℤ}
    (htarget : 0 ≤ target) (required : List String) :
    ∃ contributions, validateContributions definition (probeContribution m target required ::
        others.map fun m' => probeContribution m' 0 []) = .ok contributions ∧
      Probed definition m others target required contributions := by
  have hids : (probeContribution m target required ::
      others.map fun m' => probeContribution m' 0 []).map ModuleContribution.moduleId =
      (m :: others).map ModuleDefinition.moduleId := by
    rw [List.map_cons, List.map_map, List.map_cons]
    rfl
  have hprobe : ∀ c ∈ probeContribution m target required ::
      others.map fun m' => probeContribution m' 0 [],
      ∃ m' ∈ m :: others, ∃ demand required', 0 ≤ demand ∧
        c = probeContribution m' demand required' := by
    intro c hc
    rcases List.mem_cons.1 hc with rfl | hc
    · exact ⟨m, List.mem_cons_self .., target, required, htarget, rfl⟩
    · obtain ⟨m', hm', rfl⟩ := List.mem_map.1 hc
      exact ⟨m', List.mem_cons_of_mem _ hm', 0, [], le_refl 0, rfl⟩
  obtain ⟨contributions, hcontributions⟩ := validateContributions_of_valid
    definition (fun c hc => by
      obtain ⟨m', hm', demand, required', -, rfl⟩ := hprobe c hc
      refine List.mem_map_of_mem ?_
      rcases List.mem_cons.1 hm' with rfl | hm'
      · exact hm
      · exact hothers m' hm') (fun c hc => by
      obtain ⟨m', -, demand, required', hdemand, rfl⟩ := hprobe c hc
      rintro tokens ⟨⟩
      exact hdemand) (fun c hc => by
      obtain ⟨m', -, demand, required', -, rfl⟩ := hprobe c hc
      have hid : isBlank "probe" = false := by decide
      have hkind : isBlank "text" = false := by decide
      simp [validateChunks, probeContribution, probeChunk, validateChoice, rejectIf, hid, hkind])
    (by rwa [hids])
  have hkeyed := (validateContributions_ok hcontributions).2
  refine ⟨contributions, hcontributions, ?_, ?_, ?_⟩
  · exact (hkeyed _ _).2 ⟨List.mem_cons_self .., rfl⟩
  · intro m' hm'
    exact (hkeyed _ _).2 ⟨List.mem_cons_of_mem _ (List.mem_map_of_mem hm'), rfl⟩
  · intro m' hm' hne hnot
    cases hc : contributions m'.moduleId with
    | none => rfl
    | some c =>
        obtain ⟨hc, hid⟩ := (hkeyed _ _).1 hc
        rcases List.mem_cons.1 hc with rfl | hc
        · exact absurd (eq_of_moduleId_eq hvalid.ids_nodup hm hm' hid).symm hne
        · obtain ⟨m'', hm'', rfl⟩ := List.mem_map.1 hc
          exact absurd (eq_of_moduleId_eq hvalid.ids_nodup (hothers m'' hm'') hm' hid ▸ hm'') hnot

/-- Only `m` demands anything. -/
theorem Probed.demands {definition : ArenaDefinition F} (hvalid : ValidDefinition definition)
    {m : ModuleDefinition F} {others : List (ModuleDefinition F)} {target : ℤ}
    {required : List String} {contributions : HashMap (ModuleContribution F)}
    (h : Probed definition m others target required contributions)
    (hm : m ∈ definition.modules) (htarget : 0 ≤ target) {P : Platform}
    (hexact : P.arith = .exact) (counts : CountContext F) :
    (demandsOf P counts contributions definition).val m.moduleId = target ∧
      SoleDemand definition (demandsOf P counts contributions definition).val m := by
  have hmain : (demandsOf P counts contributions definition).val m.moduleId = target := by
    rw [demandsOf_apply P counts contributions hvalid hm]
    simp [moduleDemand, h.main, probeContribution, htarget]
  refine ⟨hmain, hm, by rw [hmain]; exact htarget, ?_⟩
  intro m' hm' hne
  rw [demandsOf_apply P counts contributions hvalid hm']
  by_cases hother : m' ∈ others
  · simp [moduleDemand, h.idle m' hother, probeContribution]
  · simp [moduleDemand, h.silent m' hm' hne hother, chunksOf, CountContext.val_countChunks, hexact]

/-- The counter of a probe: every text counts as more than the target. -/
def probeCounts (F : Type) [FloatOps F] (target : ℤ) : CountContext F :=
  ⟨"regex-estimator-v1", some fun _ => target + 1, FloatOps.ofRat 1⟩

theorem probeCounts_scales (target : ℤ) : (probeCounts F target).Scales :=
  CountContext.scales_of_clamped (x := FloatOps.ofRat 1) FloatOps.max_one.symm

theorem probeCounts_quiet (P : Platform) {target : ℤ} (htarget : 0 ≤ target) :
    (probeCounts F target).Quiet P :=
  CountContext.quiet_of_counter P _ (fun _ => by omega) _

theorem probeCounts_countText (P : Platform) {target : ℤ} (htarget : 0 ≤ target) (text : String) :
    ((probeCounts F target).countText P text).val = target + 1 := by
  simp only [CountContext.countText, CountContext.raw, probeCounts, Option.isSome_some, if_true]
  rw [if_neg (by omega)]

/-- What the front part of a probe computes: the demands are what is allocated. -/
structure ProbedCall (definition : ArenaDefinition F) (m : ModuleDefinition F)
    (others : List (ModuleDefinition F)) (target : ℤ) (required : List String)
    (a : Admission F) : Prop where
  counts : a.counts = probeCounts F target
  probed : Probed definition m others target required a.contributions
  main : (allocationOf a.allocations m).allocatedTokens = target
  rest : ∀ m' ∈ definition.modules, m' ≠ m → (allocationOf a.allocations m').allocatedTokens = 0

/-- A probe of a module with a target within its capacity is admitted. -/
theorem exists_probedCall (lib : Library) (arena : ContextLeaseArena F) {m : ModuleDefinition F}
    {others : List (ModuleDefinition F)} (hm : m ∈ arena.definition.modules)
    (hothers : ∀ m' ∈ others, m' ∈ arena.definition.modules)
    (hnodup : ((m :: others).map ModuleDefinition.moduleId).Nodup) {target : ℤ}
    (htarget : 0 ≤ target) (hcapacity : target ≤ capacity m) (required : List String) :
    ∃ request a, Admitted lib.exact arena request (some fun _ => target + 1) (FloatOps.ofRat 1) a ∧
      ProbedCall arena.definition m others target required a := by
  have hvalid := arena.validDefinition
  obtain ⟨contributions, hcontributions, hprobed⟩ :=
    exists_probed hvalid hm hothers hnodup htarget required
  obtain ⟨hdemand, hsole⟩ := hprobed.demands hvalid hm htarget rfl (P := lib.exact)
    (probeCounts F target)
  obtain ⟨inputBudget, b, hpositive, hbudget, hledger, hcurrent⟩ :=
    hsole.allocated hvalid (by rwa [hdemand])
  obtain ⟨contextLimit, a, ha, hcounts, hacontributions, -, hallocations⟩ :=
    admitted_probeRequest lib (by decide) (probeCounts_scales target) hcontributions
      hpositive hbudget hledger
  have hallocation : ∀ m' ∈ arena.definition.modules,
      (allocationOf a.allocations m').allocatedTokens = (demandsOf lib.exact
        (probeCounts F target) contributions arena.definition).val m'.moduleId := by
    intro m' hm'
    rw [hallocations m' hm']
    exact hcurrent m' hm'
  refine ⟨_, a, ha, hcounts, hacontributions ▸ hprobed, ?_, ?_⟩
  · rw [hallocation m hm, hdemand]
  · intro m' hm' hne
    rw [hallocation m' hm', hsole.others m' hm' hne]

/-- A probe is answered with what its modules ask. -/
theorem ProbedCall.planModule_main {definition : ArenaDefinition F} {m : ModuleDefinition F}
    {others : List (ModuleDefinition F)} {target : ℤ} {required : List String} {a : Admission F}
    (h : ProbedCall definition m others target required a) (htarget : 0 ≤ target)
    (lib : Library) {step : CompressionStepSpec} (hstep : Asks m step)
    (hproviders : stepProviders step ≠ []) :
    (planModule lib.exact a.counts a.contributions a.allocations m).outcome =
      .ok ((stepProviders step).map
        (semanticRequest lib m step "" target (btreeSet required))) := by
  have hchunks : chunksOf a.contributions m = [probeChunk required] := by
    rw [chunksOf, h.probed.main]
    rfl
  have hover : (allocationOf a.allocations m).allocatedTokens <
      (a.counts.countText lib.exact "").val := by
    rw [h.main, h.counts, probeCounts_countText _ htarget]
    omega
  have hplan := planModule_probe hstep hproviders hchunks rfl (h.main ▸ htarget) hover
  rwa [h.main] at hplan

theorem ProbedCall.planModule_idle {definition : ArenaDefinition F} {m : ModuleDefinition F}
    {others : List (ModuleDefinition F)} {target : ℤ} {required : List String} {a : Admission F}
    (h : ProbedCall definition m others target required a) (htarget : 0 ≤ target)
    (lib : Library) {m' : ModuleDefinition F} (hm' : m' ∈ definition.modules) (hne : m' ≠ m)
    (hother : m' ∈ others) {step : CompressionStepSpec} (hstep : Asks m' step)
    (hproviders : stepProviders step ≠ []) :
    (planModule lib.exact a.counts a.contributions a.allocations m').outcome =
      .ok ((stepProviders step).map (semanticRequest lib m' step "" 0 (btreeSet []))) := by
  have hchunks : chunksOf a.contributions m' = [probeChunk []] := by
    rw [chunksOf, h.probed.idle m' hother]
    rfl
  have hover : (allocationOf a.allocations m').allocatedTokens <
      (a.counts.countText lib.exact "").val := by
    rw [h.rest m' hm' hne, h.counts, probeCounts_countText _ htarget]
    omega
  have hplan := planModule_probe hstep hproviders hchunks rfl (h.rest m' hm' hne).ge hover
  rwa [h.rest m' hm' hne] at hplan

theorem ProbedCall.planModule_silent {definition : ArenaDefinition F} {m : ModuleDefinition F}
    {others : List (ModuleDefinition F)} {target : ℤ} {required : List String} {a : Admission F}
    (h : ProbedCall definition m others target required a) (lib : Library)
    {m' : ModuleDefinition F} (hm' : m' ∈ definition.modules) (hne : m' ≠ m)
    (hother : m' ∉ others) :
    (planModule lib.exact a.counts a.contributions a.allocations m').outcome = .ok [] := by
  have hchunks : chunksOf a.contributions m' = [] := by
    rw [chunksOf, h.probed.silent m' hm' hne hother]
  exact ContextLease.planModule_silent hchunks rfl (h.rest m' hm' hne).ge

/-- The requests of an admitted call whose modules all plan without failing. -/
theorem planSemanticRequests_of_admitted {P : Platform} {arena : ContextLeaseArena F}
    {request : PrepareRequest F} {counter : Option TokenCounter} {multiplier : F}
    {a : Admission F} (ha : Admitted P arena request counter multiplier a)
    (hquiet : a.counts.Quiet P) {part : ModuleDefinition F → List SemanticRequest}
    (hparts : ∀ m ∈ arena.definition.modules,
      (planModule P a.counts a.contributions a.allocations m).outcome = .ok (part m)) :
    planSemanticRequests P arena request counter multiplier =
      .ok ((orderedModules arena.definition).flatMap part) := by
  have hfailed := Checked.failed_bind (hquiet.admitRequest arena ha.counts)
    (f := fun admission => planLoop P admission.counts admission.contributions
      admission.allocations (orderedModules arena.definition)) fun admission hadmission => by
        rw [admit_ok.2 ha, Except.ok.injEq] at hadmission
        subst hadmission
        exact hquiet.planLoop ..
  rw [planSemanticRequests, ensureValid_of_quiet hfailed, Checked.outcome_bind, admit_ok.2 ha]
  exact planLoop_of_ok fun m hm => hparts m (mem_orderedModules.1 hm)

/-- A module may ask with any target within its capacity, together with modules that ask with the
target zero. -/
theorem exists_planned (lib : Library) (arena : ContextLeaseArena F) {m : ModuleDefinition F}
    (others : List (ModuleDefinition F)) (hm : m ∈ arena.definition.modules)
    (hothers : ∀ m' ∈ others, m' ∈ arena.definition.modules)
    (hnodup : ((m :: others).map ModuleDefinition.moduleId).Nodup)
    (hasks : ∀ m' ∈ m :: others, ∃ step, Asks m' step)
    (hproviders : ∀ m' ∈ m :: others, ∀ step, Asks m' step → stepProviders step ≠ [])
    {target : ℤ} (htarget : InCapacity m target) (required : List String) :
    ∃ request counter part, planSemanticRequests lib.exact arena request counter
        (FloatOps.ofRat 1) = .ok ((orderedModules arena.definition).flatMap part) ∧
      (∀ step, Asks m step → part m = (stepProviders step).map
        (semanticRequest lib m step "" target (btreeSet required))) ∧
      ∀ m' ∈ others, ∀ step, Asks m' step → part m' = (stepProviders step).map
        (semanticRequest lib m' step "" 0 (btreeSet [])) := by
  obtain ⟨request, a, ha, hcall⟩ :=
    exists_probedCall lib arena hm hothers hnodup htarget.1 htarget.2 required
  have hne : ∀ m' ∈ others, m' ≠ m := by
    rintro m' hm' rfl
    exact (List.nodup_cons.1 hnodup).1 (List.mem_map_of_mem hm')
  have hmain : ∀ step, Asks m step →
      (planModule lib.exact a.counts a.contributions a.allocations m).outcome = .ok _ :=
    fun step hstep => hcall.planModule_main htarget.1 lib hstep
      (hproviders m (List.mem_cons_self ..) step hstep)
  have hidle : ∀ m' ∈ others, ∀ step, Asks m' step →
      (planModule lib.exact a.counts a.contributions a.allocations m').outcome = .ok _ :=
    fun m' hm' step hstep => hcall.planModule_idle htarget.1 lib (hothers m' hm') (hne m' hm') hm'
      hstep (hproviders m' (List.mem_cons_of_mem _ hm') step hstep)
  -- the loop stops at the first module that fails, so no module may
  have hok : ∀ m' ∈ arena.definition.modules, ∃ requests,
      (planModule lib.exact a.counts a.contributions a.allocations m').outcome = .ok requests := by
    intro m' hm'
    by_cases hmem : m' ∈ m :: others
    · obtain ⟨step, hstep⟩ := hasks m' hmem
      rcases List.mem_cons.1 hmem with rfl | hother
      · exact ⟨_, hmain step hstep⟩
      · exact ⟨_, hidle m' hother step hstep⟩
    · rw [List.mem_cons, not_or] at hmem
      exact ⟨[], hcall.planModule_silent lib hm' hmem.1 hmem.2⟩
  choose! part hpart using hok
  refine ⟨request, _, part, planSemanticRequests_of_admitted ha ?_ hpart, ?_, ?_⟩
  · rw [hcall.counts]
    exact probeCounts_quiet _ htarget.1
  · intro step hstep
    exact Except.ok.inj ((hpart m hm).symm.trans (hmain step hstep))
  · intro m' hm' step hstep
    exact Except.ok.inj ((hpart m' (hothers m' hm')).symm.trans (hidle m' hm' step hstep))

end Probe

/-! ### Requests that are told apart -/

section Identify

variable {lib : Library} {arena : ContextLeaseArena F}

/-- Every call asks with distinct ids, and a commit with one answer to each request is not rejected
for a repeated id. -/
def IdentifiesRequests (P : Platform) (arena : ContextLeaseArena F) : Prop :=
  ∀ s, Reachable P arena s → ∀ env request counter outcome s',
    prepareBegin P arena env request counter s = (.ok outcome, s') →
      (outcome.semanticRequests.map SemanticRequest.semanticRequestId).Nodup ∧
      (outcome.status = "needs_semantic" → ∀ env' results,
        (results.map SemanticResult.semanticRequestId).Perm
          (outcome.semanticRequests.map SemanticRequest.semanticRequestId) →
        ¬ RejectedWith (prepareCommit P arena env' request results counter s').1
          "semantic_result_duplicate")

/-- A commit with distinct ids whose plan succeeds is not rejected for a repeated id. -/
theorem commit_not_duplicate {P : Platform} {env : Env} {request : PrepareRequest F}
    {counter : Option TokenCounter} {s : ArenaState F} {requests : List SemanticRequest}
    (hplan : planSemanticRequests P arena request counter (safetyMultiplier s request.model) =
      .ok requests) {results : List SemanticResult}
    (hnodup : (results.map SemanticResult.semanticRequestId).Nodup) :
    ¬ RejectedWith (prepareCommit P arena env request results counter s).1
      "semantic_result_duplicate" := by
  rintro ⟨e, he, hcode⟩
  obtain ⟨a, parts, ha, -, -⟩ := planSemanticRequests_ok hplan
  rcases prepareCommit_error hplan ha he with ⟨-, hrepeated⟩ | ⟨hother, -⟩ |
    ⟨-, ⟨m, -, hmodule⟩ | hother | hother⟩
  · exact hrepeated hnodup
  · exact absurd (hother.symm.trans hcode) (by decide)
  · rcases compressModule_code (reclaimModule_error hmodule).2 with hother | hother | hother
    · exact absurd (hother.symm.trans hcode) (by decide)
    · exact absurd (hother.symm.trans hcode) (by decide)
    · exact absurd (hother.symm.trans hcode) (by decide)
  · exact absurd (hother.symm.trans hcode) (by decide)
  · exact absurd (hother.symm.trans hcode) (by decide)

/-- An arena whose plans have distinct ids identifies its requests. -/
theorem identifiesRequests_of_planned {P : Platform}
    (h : ∀ s, Reachable P arena s → ∀ request counter requests,
      planSemanticRequests P arena request counter (safetyMultiplier s request.model) =
        .ok requests → (requests.map SemanticRequest.semanticRequestId).Nodup) :
    IdentifiesRequests P arena := by
  intro s hs env request counter outcome s' hbegin
  rcases prepareBegin_cases P arena env request counter s with ⟨e, heq⟩ | ⟨plan, s₁, heq, -⟩ |
    ⟨requests, -, hplan, heq⟩
  · rw [heq] at hbegin
    cases hbegin
  · rw [heq] at hbegin
    cases hbegin
    refine ⟨List.nodup_nil, fun hstatus => absurd hstatus ?_⟩
    show "ready" ≠ "needs_semantic"
    decide
  · rw [heq] at hbegin
    cases hbegin
    have hnodup := h s hs request counter requests hplan
    exact ⟨hnodup, fun _ env' results hperm =>
      commit_not_duplicate hplan (hperm.nodup_iff.2 hnodup)⟩

/-- The plans of a new arena that identifies its requests have distinct ids. -/
theorem IdentifiesRequests.planned {P : Platform} (h : IdentifiesRequests P arena)
    {request : PrepareRequest F} {counter : Option TokenCounter}
    {requests : List SemanticRequest}
    (hplan : planSemanticRequests P arena request counter (FloatOps.ofRat 1) = .ok requests) :
    (requests.map SemanticRequest.semanticRequestId).Nodup := by
  cases hrequests : requests with
  | nil => exact List.nodup_nil
  | cons q qs =>
      have hbegin : prepareBegin P arena default request counter {} =
          (.ok ⟨"needs_semantic", none, q :: qs⟩, {}) := by
        have hfresh : safetyMultiplier ({} : ArenaState F) request.model = FloatOps.ofRat 1 := rfl
        unfold prepareBegin
        rw [hfresh, hplan, hrequests]
      exact (h {} ⟨[], rfl⟩ default request counter _ _ hbegin).1

/-- A module that asks names its providers once, if the arena identifies its requests. -/
theorem IdentifiesRequests.providers_nodup (h : IdentifiesRequests lib.exact arena)
    {m : ModuleDefinition F} (hm : m ∈ arena.definition.modules) {step : CompressionStepSpec}
    (hstep : Asks m step) : (stepProviders step).Nodup := by
  by_contra hrepeated
  have hproviders : ∀ step', Asks m step' → stepProviders step' ≠ [] := by
    intro step' hstep' hnil
    obtain rfl := hstep.unique hstep'
    exact hrepeated (hnil ▸ List.nodup_nil)
  have hvalid := arena.validDefinition.valid m hm
  obtain ⟨request, counter, part, hplan, hpart, -⟩ := exists_planned lib arena [] hm
    (by simp) (by simp) (by simpa using ⟨step, hstep⟩) (by simpa using hproviders)
    ⟨le_refl 0, capacity_nonneg hvalid⟩ []
  have hnodup := h.planned hplan
  rw [List.map_flatMap, List.nodup_flatMap] at hnodup
  have hids := hnodup.1 m (mem_orderedModules.2 hm)
  rw [hpart step hstep, List.map_map] at hids
  exact hrepeated hids.of_map

/-- Requests of different modules with the same fields are not told apart. -/
theorem IdentifiesRequests.fields_ne (h : IdentifiesRequests lib.exact arena)
    {m m' : ModuleDefinition F} (hm : m ∈ arena.definition.modules)
    (hm' : m' ∈ arena.definition.modules) (hne : m.moduleId ≠ m'.moduleId)
    {step step' : CompressionStepSpec} (hstep : Asks m step) (hstep' : Asks m' step')
    {provider provider' : String} (hp : provider ∈ stepProviders step)
    (hp' : provider' ∈ stepProviders step') {target : ℤ} (htarget : InCapacity m target)
    (required : List String) :
    fingerprint m.moduleId step.algorithmId provider target (btreeSet required) "" ≠
      fingerprint m'.moduleId step'.algorithmId provider' 0 (btreeSet []) "" := by
  intro heq
  obtain ⟨request, counter, part, hplan, hpart, hpart'⟩ := exists_planned lib arena
    [m'] hm (by simpa using hm') (by simpa using hne)
    (by simpa using ⟨⟨step, hstep⟩, step', hstep'⟩) (by
      rintro m'' hm'' step'' hstep''
      rcases List.mem_cons.1 hm'' with rfl | hm''
      · obtain rfl := hstep.unique hstep''
        exact List.ne_nil_of_mem hp
      · obtain rfl := List.mem_singleton.1 hm''
        obtain rfl := hstep'.unique hstep''
        exact List.ne_nil_of_mem hp') htarget required
  -- the ids of the call are distinct, so those of the two modules are disjoint
  have hnodup := h.planned hplan
  rw [List.map_flatMap, List.nodup_flatMap] at hnodup
  have : Std.Symm (Function.onFun List.Disjoint
      fun m => (part m).map SemanticRequest.semanticRequestId) := ⟨fun _ _ h => h.symm⟩
  have hdisjoint := hnodup.2.forall (mem_orderedModules.2 hm) (mem_orderedModules.2 hm')
    fun heq => hne (congrArg ModuleDefinition.moduleId heq)
  change ((part m).map SemanticRequest.semanticRequestId).Disjoint
    ((part m').map SemanticRequest.semanticRequestId) at hdisjoint
  rw [hpart step hstep, hpart' m' (List.mem_singleton_self m') step' hstep'] at hdisjoint
  refine hdisjoint (a := (semanticRequest lib m step "" target (btreeSet required)
    provider).semanticRequestId) (List.mem_map_of_mem (List.mem_map_of_mem hp)) ?_
  rw [show (semanticRequest lib m step "" target (btreeSet required) provider).semanticRequestId =
      (semanticRequest lib m' step' "" 0 (btreeSet []) provider').semanticRequestId by
    simp only [semanticRequest, heq]]
  exact List.mem_map_of_mem (List.mem_map_of_mem hp')

omit [FloatOps F] in
/-- The fields of the other request continue those of the first. -/
theorem fingerprint_eq_of_continues {m m' : ModuleDefinition F} {step step' : CompressionStepSpec}
    {provider provider' : String} {target : ℤ} {rest : List Char}
    (h : (requestHead m step provider).toList ++
      '\x00' :: ((toString target).toList ++ ['\x00']) ++ rest =
        (requestHead m' step' provider').toList ++ ['\x00']) :
    fingerprint m.moduleId step.algorithmId provider target
        [String.ofList (rest ++ ['0', '\x00'])] "" =
      fingerprint m'.moduleId step'.algorithmId provider' 0 [] "" := by
  refine String.toList_inj.1 ?_
  have hzero : (toString (0 : ℤ)).toList = ['0'] := by decide
  have hempty : ("" : String).toList = [] := by decide
  have hnil : ("\x00".intercalate []).toList = [] := by decide
  have hsingle : ("\x00".intercalate [String.ofList (rest ++ ['0', '\x00'])]).toList =
      rest ++ ['0', '\x00'] := String.toList_ofList
  rw [toList_fingerprint, toList_fingerprint, hzero, hempty, hnil, hsingle]
  have hjoined := congrArg (· ++ ['0', '\x00', '\x00']) h
  simpa only [List.append_assoc, List.cons_append, List.nil_append] using hjoined

/-- An arena identifies its requests if its definition is not ambiguous, whatever the targets are,
and over unbounded integers it does so only then, with the targets within the capacities. -/
theorem identifiesRequests_iff (hdigest : Function.Injective lib.digest)
    (arena : ContextLeaseArena F) :
    (IdentifiesRequests lib.exact arena ↔ ¬ Ambiguous InCapacity arena.definition) ∧
    (¬ Ambiguous (fun _ _ => True) arena.definition → IdentifiesRequests lib.release arena) := by
  refine ⟨⟨?_, ?_⟩, ?_⟩
  · rintro h (⟨m, hm, step, hstep, hrepeated⟩ | ⟨m, hm, m', hm', hne, step, step', hstep, hstep',
      provider, hp, provider', hp', hsame | ⟨target, htarget, rest, hrest⟩⟩)
    · exact hrepeated (h.providers_nodup hm hstep)
    · refine h.fields_ne hm hm' hne hstep hstep' hp hp'
        ⟨le_refl 0, capacity_nonneg (arena.validDefinition.valid m hm)⟩ [] ?_
      refine String.toList_inj.1 ?_
      rw [toList_fingerprint, toList_fingerprint, hsame]
    · have hfields := fingerprint_eq_of_continues hrest
      refine h.fields_ne hm hm' hne hstep hstep' hp hp' htarget
        [String.ofList (rest ++ ['0', '\x00'])] ?_
      rwa [btreeSet_nil, btreeSet_singleton]
  · intro hambiguous
    refine identifiesRequests_of_planned ?_
    intro s hs request counter requests hplan
    obtain ⟨a, parts, ha, hparts, rfl⟩ := planSemanticRequests_ok hplan
    have hscale := hs.scales lib.exact arena ha
    refine ids_nodup_of_not_ambiguous hdigest arena.validDefinition hambiguous ?_
    have hmem := (List.forall₂_and_left (p := (· ∈ orderedModules arena.definition)) _ _).2
      ⟨fun _ hm => hm, hparts⟩
    refine hmem.imp fun m part ⟨hm, hpart⟩ => (planModule_asks hpart).imp ?_
    rintro target ⟨rfl, hprotected⟩
    exact ha.inCapacity hscale (mem_orderedModules.1 hm) hprotected
  · intro hambiguous
    refine identifiesRequests_of_planned ?_
    intro s hs request counter requests hplan
    obtain ⟨a, parts, ha, hparts, rfl⟩ := planSemanticRequests_ok hplan
    refine ids_nodup_of_not_ambiguous hdigest arena.validDefinition hambiguous ?_
    exact hparts.imp fun m part hpart => (planModule_asks hpart).imp fun _ _ => trivial

end Identify

/-! ### A provider named twice -/

section Example

theorem summaryArena_not_ambiguous : ¬ Ambiguous InCapacity summaryArena.definition := by
  have hmem : ∀ m ∈ summaryArena.definition.modules, m = summarizedModule :=
    fun m hm => List.mem_singleton.1 hm
  rintro (⟨m, hm, step, hstep, hrepeated⟩ | ⟨m, hm, m', hm', hne, -⟩)
  · rw [hmem m hm] at hstep
    have hfind : summarizedModule.reclaimPipeline.find?
        (fun step => isSemanticAlgorithm step.algorithmId) =
        some ⟨"builtin.semantic.portfolio.v1",
          [("providers", .array [.string "small", .string "large"])]⟩ := by
      rfl
    obtain rfl := Option.some.inj (hstep.2.symm.trans hfind)
    exact hrepeated (by decide +kernel)
  · exact hne (by rw [hmem m hm, hmem m' hm'])

theorem identifiesRequests_iff_example :
    IdentifiesRequests (Library.ascii id).exact summaryArena :=
  (identifiesRequests_iff Function.injective_id summaryArena).1.2 summaryArena_not_ambiguous

/-- An arena whose history is summarized by a portfolio that names a provider twice. -/
def repeatedArena : ContextLeaseArena ℚ where
  definition :=
    { arenaId := "notes"
      modules :=
        [{ summarizedModule with
            reclaimPipeline :=
              [⟨"builtin.semantic.portfolio.v1",
                [("providers", .array [.string "small", .string " small"])]⟩] }] }
  layoutHash := "layout"
  instanceId := "notes-1-1"
  valid := by decide +kernel

/-- The begin of a request whose history is summarized. -/
def repeatedBegin : Result (PrepareBeginOutcome ℚ) × ArenaState ℚ :=
  prepareBegin (Library.ascii id).release repeatedArena default (historyRequest [talk]) none {}

/-- One answer to each request. -/
def oneAnswerEach (outcome : PrepareBeginOutcome ℚ) : List SemanticResult :=
  outcome.semanticRequests.map fun q => ⟨q.semanticRequestId, "Monday"⟩

/-- The two requests have the same id, and the commit with one answer to each is rejected. -/
theorem repeated_provider_rejected :
    ∃ outcome, repeatedBegin.1 = .ok outcome ∧
      ¬ (outcome.semanticRequests.map SemanticRequest.semanticRequestId).Nodup ∧
      RejectedWith (prepareCommit (Library.ascii id).release repeatedArena default
        (historyRequest [talk]) (oneAnswerEach outcome) none repeatedBegin.2).1
        "semantic_result_duplicate" := by
  have hbegin : (repeatedBegin.1.map fun outcome =>
      (decide (outcome.semanticRequests.map SemanticRequest.semanticRequestId).Nodup,
        decide (RejectedWith (prepareCommit (Library.ascii id).release repeatedArena default
          (historyRequest [talk]) (oneAnswerEach outcome) none repeatedBegin.2).1
          "semantic_result_duplicate"))).toOption = some (false, true) := by
    decide +kernel
  obtain ⟨outcome, houtcome, hfields⟩ := exists_ok_of_map hbegin
  rw [Prod.mk.injEq, decide_eq_false_iff_not, decide_eq_true_eq] at hfields
  exact ⟨outcome, houtcome, hfields⟩

end Example

end ContextLease
