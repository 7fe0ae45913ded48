/-
Telemetry without contents.

A call reads the contents of its chunks to count them, to compress them and to render them.  What it
reports and what it leaves in the arena goes through the counts alone: two calls whose requests
differ only in contents and required terms, and that count the same, report the same events and
leave the same state, whatever the texts are and whatever the reclaims have done to them.

Main definitions:

* `PrepareRequest.withoutText` — a request without what its chunks say;
* `TokenQuantities`, `tokenQuantities` — what a call counts;
* `SameTelemetry` — two decided calls that agree in everything that is reported.

Main results:

* `SameTelemetry.of_quantities` — calls that count the same agree in what is reported;
* `telemetry_of_counts` — so they report the same, and leave the same state.
-/

import ContextLease.RunSpec
import ContextLease.ReclaimSpec

set_option relaxedAutoImplicit false
set_option autoImplicit false

namespace ContextLease

open MachineNumbers RustText

variable {F : Type}

/-! ### Requests without their texts -/

/-- A chunk without what it says. -/
def PromptChunk.withoutText (c : PromptChunk F) : PromptChunk F :=
  { c with content := .null, requiredTerms := [] }

/-- A contribution without what its chunks say. -/
def ModuleContribution.withoutText (c : ModuleContribution F) : ModuleContribution F :=
  { c with chunks := c.chunks.map PromptChunk.withoutText }

/-- A request without what its chunks say. -/
def PrepareRequest.withoutText (request : PrepareRequest F) : PrepareRequest F :=
  { request with contributions := request.contributions.map ModuleContribution.withoutText }

/-- What a call counts of its contents. -/
structure TokenQuantities where
  /-- The input count of every chunk of every contribution. -/
  inputs : List (List ℤ)
  separators : ℤ
  /-- What each module counts after its reclaim, with its fixed and its pinned chunks. -/
  reclaimed : List (ℤ × ℤ × ℤ)
  promptTokens : ℤ
  deriving DecidableEq

/-- A settled module without its chunks. -/
def SettledModule.withoutText (x : SettledModule F) : SettledModule F := { x with chunks := [] }

variable [FloatOps F]

section Counts

variable (P : Platform) (arena : ContextLeaseArena F)

/-- What a decided call has counted. -/
def quantitiesOf (request : PrepareRequest F) (admission : Admission F) (settled : Settled F) :
    TokenQuantities where
  inputs := request.contributions.map fun contribution =>
    contribution.chunks.map fun c => (admission.counts.countContent P c.content).val
  separators :=
    (renderSeparatorTokens P admission.counts admission.contributions arena.definition).val
  reclaimed := settled.modules.map fun x => (x.tokens.after, x.tokens.fixed, x.tokens.pinned)
  promptTokens := settled.promptTokens

/-- What a call counts in a state, if it succeeds. -/
def tokenQuantities (call : Call F) (s : ArenaState F) : Option TokenQuantities :=
  (call.decision P arena s).toOption.map fun decided =>
    quantitiesOf P arena call.request decided.1 decided.2

end Counts

/-! ### Contributions that count alike -/

omit [FloatOps F] in
/-- Contributions that differ only in what their chunks say, and count alike. -/
structure ModuleContribution.CountAlike (count count' : PromptChunk F → ℤ)
    (c c' : ModuleContribution F) : Prop where
  shape : c.withoutText = c'.withoutText
  counts : c.chunks.map count = c'.chunks.map count'

section Alike

variable {count count' : PromptChunk F → ℤ}

omit [FloatOps F] in
theorem ModuleContribution.CountAlike.symm {c c' : ModuleContribution F}
    (h : c.CountAlike count count' c') : c'.CountAlike count' count c :=
  ⟨h.shape.symm, h.counts.symm⟩

omit [FloatOps F] in
theorem ModuleContribution.CountAlike.moduleId {c c' : ModuleContribution F}
    (h : c.CountAlike count count' c') : c'.moduleId = c.moduleId := by
  have hshape := congrArg ModuleContribution.moduleId h.shape
  exact hshape.symm

omit [FloatOps F] in
/-- The contributions of two requests count alike one by one. -/
theorem forall₂_countAlike {l l' : List (ModuleContribution F)}
    (hshape : l.map ModuleContribution.withoutText = l'.map ModuleContribution.withoutText)
    (hcounts : l.map (fun c => c.chunks.map count) = l'.map fun c => c.chunks.map count') :
    List.Forall₂ (ModuleContribution.CountAlike count count') l l' := by
  induction l generalizing l' with
  | nil =>
      obtain rfl := List.map_eq_nil_iff.1 hshape.symm
      exact .nil
  | cons c l ih =>
      cases l' with
      | nil => cases hshape
      | cons c' l' =>
          simp only [List.map_cons, List.cons.injEq] at hshape hcounts
          exact .cons ⟨hshape.1, hcounts.1⟩ (ih hshape.2 hcounts.2)

omit [FloatOps F] in
/-- Accepted contributions that count alike are found under the same modules. -/
theorem exists_countAlike {definition : ArenaDefinition F} {l l' : List (ModuleContribution F)}
    {contributions contributions' : HashMap (ModuleContribution F)}
    (h : List.Forall₂ (ModuleContribution.CountAlike count count') l l')
    (hvalid : validateContributions definition l = .ok contributions)
    (hvalid' : validateContributions definition l' = .ok contributions') {id : String}
    {c : ModuleContribution F} (hc : contributions id = some c) :
    ∃ c', contributions' id = some c' ∧ c.CountAlike count count' c' := by
  obtain ⟨hmem, rfl⟩ := ((validateContributions_ok hvalid).2 id c).1 hc
  obtain ⟨c', hmem', halike⟩ := exists_of_forall₂ h hmem
  exact ⟨c', ((validateContributions_ok hvalid').2 _ c').2 ⟨hmem', halike.moduleId⟩, halike⟩

omit [FloatOps F] in
/-- A module finds contributions that count alike, or none. -/
theorem countAlike_or_none {definition : ArenaDefinition F} {l l' : List (ModuleContribution F)}
    {contributions contributions' : HashMap (ModuleContribution F)}
    (h : List.Forall₂ (ModuleContribution.CountAlike count count') l l')
    (hvalid : validateContributions definition l = .ok contributions)
    (hvalid' : validateContributions definition l' = .ok contributions') (id : String) :
    contributions id = none ∧ contributions' id = none ∨
      ∃ c c', contributions id = some c ∧ contributions' id = some c' ∧
        c.CountAlike count count' c' := by
  cases hc : contributions id with
  | some c =>
      obtain ⟨c', hc', halike⟩ := exists_countAlike h hvalid hvalid' hc
      exact Or.inr ⟨c, c', rfl, hc', halike⟩
  | none =>
      cases hc' : contributions' id with
      | none => exact Or.inl ⟨rfl, rfl⟩
      | some c' =>
          have hflip : List.Forall₂ (ModuleContribution.CountAlike count' count) l' l :=
            h.flip.imp fun _ _ => ModuleContribution.CountAlike.symm
          obtain ⟨c, hsome, -⟩ := exists_countAlike hflip hvalid' hvalid hc'
          rw [hc] at hsome
          cases hsome

end Alike

section Modules

variable {P : Platform} {counts counts' : CountContext F} {definition : ArenaDefinition F}
  {l l' : List (ModuleContribution F)}
  {contributions contributions' : HashMap (ModuleContribution F)}

/-- The chunks of a module count the same. -/
theorem countChunks_chunksOf
    (h : List.Forall₂ (ModuleContribution.CountAlike
      (fun c => (counts.countContent P c.content).val)
      fun c => (counts'.countContent P c.content).val) l l')
    (hvalid : validateContributions definition l = .ok contributions)
    (hvalid' : validateContributions definition l' = .ok contributions')
    (m : ModuleDefinition F) :
    (counts.countChunks P (chunksOf contributions m)).val =
      (counts'.countChunks P (chunksOf contributions' m)).val := by
  rw [CountContext.val_countChunks, CountContext.val_countChunks, chunksOf, chunksOf]
  rcases countAlike_or_none h hvalid hvalid' m.moduleId with
    ⟨hnone, hnone'⟩ | ⟨c, c', hc, hc', halike⟩
  · rw [hnone, hnone']
    rfl
  · rw [hc, hc']
    exact congrArg P.arith.sum halike.counts

/-- The demand of a module is the same. -/
theorem moduleDemand_alike
    (h : List.Forall₂ (ModuleContribution.CountAlike
      (fun c => (counts.countContent P c.content).val)
      fun c => (counts'.countContent P c.content).val) l l')
    (hvalid : validateContributions definition l = .ok contributions)
    (hvalid' : validateContributions definition l' = .ok contributions')
    (m : ModuleDefinition F) :
    (moduleDemand P counts contributions m).val =
      (moduleDemand P counts' contributions' m).val := by
  have hobserved : (contributions m.moduleId).bind ModuleContribution.observedDemandTokens =
      (contributions' m.moduleId).bind ModuleContribution.observedDemandTokens := by
    rcases countAlike_or_none h hvalid hvalid' m.moduleId with
      ⟨hnone, hnone'⟩ | ⟨c, c', hc, hc', halike⟩
    · rw [hnone, hnone']
    · rw [hc, hc']
      have hshape := congrArg ModuleContribution.observedDemandTokens halike.shape
      exact hshape
  simp only [moduleDemand, Flagged.val_bind, Flagged.val_pure,
    countChunks_chunksOf h hvalid hvalid' m, hobserved]

end Modules

/-! ### What is reported -/

omit [FloatOps F] in
/-- Two decided calls that agree in everything that is reported. -/
structure SameTelemetry (request request' : PrepareRequest F) (admission admission' : Admission F)
    (settled settled' : Settled F) : Prop where
  model : request.model = request'.model
  requestId : request.requestId = request'.requestId
  inputBudget : admission.inputBudget = admission'.inputBudget
  allocations : admission.allocations = admission'.allocations
  leases : admission.leases = admission'.leases
  modules : settled.modules.map SettledModule.withoutText =
    settled'.modules.map SettledModule.withoutText
  promptTokens : settled.promptTokens = settled'.promptTokens

section Report

variable {P : Platform} {arena : ContextLeaseArena F} {env : Env}
  {request request' : PrepareRequest F} {admission admission' : Admission F}
  {settled settled' : Settled F}

omit [FloatOps F] in
/-- A function that does not look at the chunks of settled modules. -/
theorem SameTelemetry.map {α : Type} (h : SameTelemetry request request' admission admission'
    settled settled') {f : SettledModule F → α} (hf : ∀ x, f x.withoutText = f x) :
    settled.modules.map f = settled'.modules.map f := by
  have hmaps := congrArg (List.map f) h.modules
  rw [List.map_map, List.map_map] at hmaps
  have hcomp : f ∘ SettledModule.withoutText = f := funext hf
  rwa [hcomp] at hmaps

variable (h : SameTelemetry request request' admission admission' settled settled')
include h

theorem SameTelemetry.callName (s : ArenaState F) :
    callName arena request s = callName arena request' s := by
  simp only [ContextLease.callName, requestName, h.requestId]

theorem SameTelemetry.usableBudget :
    usableBudget P arena admission = usableBudget P arena admission' := by
  rw [ContextLease.usableBudget, ContextLease.usableBudget, h.inputBudget]

theorem SameTelemetry.callUsages (s : ArenaState F) :
    callUsages P env admission settled s = callUsages P env admission' settled' s := by
  rw [ContextLease.callUsages, ContextLease.callUsages, moduleUsages, moduleUsages, h.allocations]
  exact h.map fun x => rfl

omit [FloatOps F] in
theorem SameTelemetry.usedTokensOf (previousUsage : HashMap ℤ) :
    usedTokensOf previousUsage settled.modules = usedTokensOf previousUsage settled'.modules := by
  have hfold : ∀ xs : List (SettledModule F), ContextLease.usedTokensOf previousUsage xs =
      (xs.map fun x => (x.module.moduleId, x.tokens.after)).foldl
        (fun usage entry => usage.insert entry.1 entry.2) previousUsage := fun xs => by
    rw [List.foldl_map]
    rfl
  rw [hfold, hfold, h.map fun x => rfl]

theorem SameTelemetry.draftsToSnapshot (s : ArenaState F) :
    draftsToSnapshot P arena env request admission settled s =
      draftsToSnapshot P arena env request' admission' settled' s := by
  have hcompressed : settled.modules.flatMap compressedDrafts =
      settled'.modules.flatMap compressedDrafts := by
    rw [List.flatMap_def, List.flatMap_def, h.map fun x => rfl]
  simp only [ContextLease.draftsToSnapshot, h.model, h.leases, hcompressed, h.promptTokens,
    h.usableBudget]

theorem SameTelemetry.callDrafts (s : ArenaState F) :
    callDrafts P arena env request admission settled s =
      callDrafts P arena env request' admission' settled' s := by
  rw [ContextLease.callDrafts, ContextLease.callDrafts, h.draftsToSnapshot]

theorem SameTelemetry.callSnapshot (s : ArenaState F) :
    callSnapshot P arena env request admission settled s =
      callSnapshot P arena env request' admission' settled' s := by
  simp only [ContextLease.callSnapshot, takeSnapshot, h.callName, h.draftsToSnapshot, h.model,
    h.leases, h.promptTokens, h.usableBudget, h.callUsages]

theorem SameTelemetry.callState (s : ArenaState F) :
    callState P arena env request admission settled s =
      callState P arena env request' admission' settled' s := by
  simp only [ContextLease.callState, h.callName, h.callDrafts, h.usedTokensOf, h.leases,
    h.callSnapshot, recentUsageOf, h.model, h.promptTokens]

end Report

section Calls

variable {P : Platform} {arena : ContextLeaseArena F} {s : ArenaState F} {call call' : Call F}

/-- The tokens of settled modules before their reclaims are those of their contributions. -/
theorem before_of_settled {request : PrepareRequest F} {results : List SemanticResult}
    {counter : Option TokenCounter} {multiplier : F} {admission : Admission F}
    {settled : Settled F}
    (h : decision P arena request results counter multiplier = .ok (admission, settled)) :
    List.Forall₂ (fun m x => x.module = m ∧ x.tokens.before =
        (admission.counts.countChunks P (chunksOf admission.contributions m)).val)
      (orderedModules arena.definition) settled.modules := by
  obtain ⟨-, hsettle⟩ := decision_ok P arena h
  simp only [settle, Checked.outcome_bind, Except.bind_eq_ok] at hsettle
  obtain ⟨xs, hxs, promptTokens, -, hrest⟩ := hsettle
  have hmodules : settled.modules = xs := by
    split at hrest
    · cases hrest
    · simp only [Checked.outcome_bind, Checked.outcome_pure, Except.bind_eq_ok,
        Except.ok.injEq] at hrest
      obtain ⟨chunks, -, rfl⟩ := hrest
      rfl
  rw [hmodules]
  refine (settleModules_ok P admission.counts admission.contributions admission.allocations
    (semanticResultsOf results) hxs).imp fun m x hx => ⟨hx.1, ?_⟩
  exact (reclaimModule_ok hx.2.1).1

/-- Calls whose requests differ only in what their chunks say, and that count the same, agree in
what is reported. -/
theorem SameTelemetry.of_quantities {admission admission' : Admission F}
    {settled settled' : Settled F} (hrequest : call.request.withoutText = call'.request.withoutText)
    (hdecided : call.decision P arena s = .ok (admission, settled))
    (hdecided' : call'.decision P arena s = .ok (admission', settled'))
    (hquantities : quantitiesOf P arena call.request admission settled =
      quantitiesOf P arena call'.request admission' settled') :
    SameTelemetry call.request call'.request admission admission' settled settled' := by
  have hmodel : call.request.model = call'.request.model := by
    have hshape := congrArg PrepareRequest.model hrequest
    exact hshape
  have hrequestId : call.request.requestId = call'.request.requestId := by
    have hshape := congrArg PrepareRequest.requestId hrequest
    exact hshape
  obtain ⟨hadmitted, -⟩ := decision_ok P arena hdecided
  obtain ⟨hadmitted', -⟩ := decision_ok P arena hdecided'
  have halike := forall₂_countAlike (congrArg PrepareRequest.contributions hrequest)
    (congrArg TokenQuantities.inputs hquantities)
  have hinput : admission.inputBudget = admission'.inputBudget := by
    rw [hadmitted.inputBudget, hadmitted'.inputBudget, hmodel]
  have hbudget : admission.allocationInputBudget = admission'.allocationInputBudget := by
    have hseparators := congrArg TokenQuantities.separators hquantities
    rw [hadmitted.allocationInputBudget, hadmitted'.allocationInputBudget, hinput]
    exact congrArg (P.arith.sub admission'.inputBudget) hseparators
  have hdemands : admission.demands = admission'.demands := by
    rw [hadmitted.demands, hadmitted'.demands, demandsOf_val, demandsOf_val]
    refine congrArg (fun demand => perModule arena.definition demand 0) (funext fun m => ?_)
    exact moduleDemand_alike halike hadmitted.contributions hadmitted'.contributions m
  have hallocated := hadmitted.allocated
  rw [hdemands, hbudget, hadmitted'.allocated, Except.ok.injEq, Prod.mk.injEq] at hallocated
  refine ⟨hmodel, hrequestId, hinput, hallocated.1.symm, hallocated.2.symm, ?_,
    congrArg TokenQuantities.promptTokens hquantities⟩
  -- before the reclaims the modules count alike, and after them they do so by assumption
  have hbefore := before_of_settled hdecided
  have hbefore' := before_of_settled hdecided'
  have hcounts : settled.modules.map (fun x => (x.module, x.tokens.before)) =
      settled'.modules.map fun x => (x.module, x.tokens.before) := by
    have hmap := map_eq_of_forall₂ (f := fun m => (m, (admission.counts.countChunks P
      (chunksOf admission.contributions m)).val)) (g := fun x => (x.module, x.tokens.before))
      hbefore fun m x hx => by rw [hx.1, hx.2]
    have hmap' := map_eq_of_forall₂ (f := fun m => (m, (admission'.counts.countChunks P
      (chunksOf admission'.contributions m)).val)) (g := fun x => (x.module, x.tokens.before))
      hbefore' fun m x hx => by rw [hx.1, hx.2]
    rw [← hmap, ← hmap']
    refine List.map_congr_left ?_
    intro m _
    rw [countChunks_chunksOf halike hadmitted.contributions hadmitted'.contributions m]
  have hreclaimed : settled.modules.map
      (fun x => (x.tokens.after, x.tokens.fixed, x.tokens.pinned)) =
        settled'.modules.map fun x => (x.tokens.after, x.tokens.fixed, x.tokens.pinned) :=
    congrArg TokenQuantities.reclaimed hquantities
  have hzip := congrArg₂ List.zip hcounts hreclaimed
  rw [List.zip_map', List.zip_map'] at hzip
  have hmodules := congrArg (List.map fun entry : (ModuleDefinition F × ℤ) × (ℤ × ℤ × ℤ) =>
    (⟨entry.1.1, [], ⟨entry.1.2, entry.2.1, entry.2.2.1, entry.2.2.2⟩⟩ : SettledModule F)) hzip
  rwa [List.map_map, List.map_map] at hmodules

/-- Two calls in one state, at one clock and with one iteration order, whose requests differ only in
the contents and the required terms of their chunks and that count the same, report the same: the
events, the leases, the allocations, the usages and the snapshot of their plans are equal, and so
are the states they leave. -/
theorem telemetry_of_counts {op op' : Op F} {plan plan' : PreparedContextPlan F}
    (hcall : op.call = some call) (hcall' : op'.call = some call')
    (hplan : planOf P arena s op = some plan) (hplan' : planOf P arena s op' = some plan')
    (henv : call.env = call'.env)
    (hrequest : call.request.withoutText = call'.request.withoutText)
    (hquantities : tokenQuantities P arena call s = tokenQuantities P arena call' s) :
    plan.traceEvents = plan'.traceEvents ∧ plan.leases = plan'.leases ∧
      plan.allocations = plan'.allocations ∧ plan.modules = plan'.modules ∧
      plan.snapshot = plan'.snapshot ∧ step P arena s op = step P arena s op' := by
  obtain ⟨call₁, admission, settled, hcall₁, hdecided, rfl, hstep⟩ := call_of_planOf hplan
  obtain ⟨call₂, admission', settled', hcall₂, hdecided', rfl, hstep'⟩ := call_of_planOf hplan'
  obtain rfl : call = call₁ := Option.some_inj.1 (hcall.symm.trans hcall₁)
  obtain rfl : call' = call₂ := Option.some_inj.1 (hcall'.symm.trans hcall₂)
  have hquantities' : quantitiesOf P arena call.request admission settled =
      quantitiesOf P arena call'.request admission' settled' := by
    rw [tokenQuantities, tokenQuantities, hdecided, hdecided'] at hquantities
    exact Option.some_inj.1 hquantities
  have hsame := SameTelemetry.of_quantities hrequest hdecided hdecided' hquantities'
  refine ⟨?_, hsame.leases, hsame.allocations, ?_, ?_, ?_⟩
  · simp only [Call.plan, callPlan, preparedPlan, henv, hsame.callName, hsame.callDrafts]
  · simp only [Call.plan, callPlan, preparedPlan, henv, hsame.callUsages]
  · simp only [Call.plan, callPlan, preparedPlan, henv, hsame.callSnapshot]
  · rw [hstep, hstep', Call.committed, Call.committed, henv, hsame.callState]

/-- The example request with other texts of the same counts. -/
def otherRequest : PrepareRequest ℚ where
  model := exampleRequest.model
  contributions :=
    [{ moduleId := "system"
       chunks := [{ chunkId := "rules", content := .string "Reply in one paragraph.",
                    priority := 1 }] },
     { moduleId := "history"
       chunks := [{ chunkId := "talk", priority := 1, requiredTerms := ["Friday"]
                    content := .string "I saw him Friday. So long." }] }]

theorem exampleRequest_quantities :
    tokenQuantities (Library.ascii id).release exampleArena ⟨default, exampleRequest, [], none⟩ {} =
      some ⟨[[5], [8]], 0, [(5, 0, 5), (6, 0, 0)], 11⟩ := by decide +kernel

theorem otherRequest_quantities :
    tokenQuantities (Library.ascii id).release exampleArena ⟨default, otherRequest, [], none⟩ {} =
      some ⟨[[5], [8]], 0, [(5, 0, 5), (6, 0, 0)], 11⟩ := by decide +kernel

theorem otherRequest_rendered :
    ((prepare (Library.ascii id).release exampleArena default otherRequest none {}).1.map
      PreparedContextPlan.rendered).toOption =
        some "Reply in one paragraph.\n\nI saw him Friday. So" := by decide +kernel

/-- Two calls with different texts report the same. -/
theorem telemetry_of_counts_example :
    ∃ plan plan', planOf (Library.ascii id).release exampleArena {}
        (.prepare default exampleRequest none) = some plan ∧
      planOf (Library.ascii id).release exampleArena {}
        (.prepare default otherRequest none) = some plan' ∧
      plan.rendered ≠ plan'.rendered ∧ plan.traceEvents = plan'.traceEvents ∧
      plan.snapshot = plan'.snapshot := by
  obtain ⟨plan, hplan, hrendered⟩ := exists_ok_of_map exampleRequest_rendered
  obtain ⟨plan', hplan', hrendered'⟩ := exists_ok_of_map otherRequest_rendered
  have hcall : (Op.prepare default exampleRequest none : Op ℚ).call =
      some ⟨default, exampleRequest, [], none⟩ := rfl
  have hcall' : (Op.prepare default otherRequest none : Op ℚ).call =
      some ⟨default, otherRequest, [], none⟩ := rfl
  have hreturned : planOf (Library.ascii id).release exampleArena {}
      (.prepare default exampleRequest none) = some plan := by rw [planOf, hplan]; rfl
  have hreturned' : planOf (Library.ascii id).release exampleArena {}
      (.prepare default otherRequest none) = some plan' := by rw [planOf, hplan']; rfl
  have hrequest : exampleRequest.withoutText = otherRequest.withoutText := rfl
  have hquantities := exampleRequest_quantities.trans otherRequest_quantities.symm
  obtain ⟨hevents, -, -, -, hsnapshot, -⟩ :=
    telemetry_of_counts hcall hcall' hreturned hreturned' rfl hrequest hquantities
  refine ⟨plan, plan', hreturned, hreturned', ?_, hevents, hsnapshot⟩
  rw [hrendered, hrendered']
  decide

end Calls

end ContextLease
