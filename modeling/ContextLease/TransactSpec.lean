/-
What a transaction writes.

The part of a call that can fail looks at the request, the counts and the results, and at nothing
else: neither at the state of the arena, apart from the multiplier, nor at the clock.  What a call
that does not fail then writes is one report of drafts, and one new value for each of the other
fields of the state.

Main definitions:

* `ModuleTokens`, `SettledModule`, `settleModules` — the module loop without its writes;
* `Settled`, `settle` — the part of a transaction that can fail;
* `callDrafts`, `moduleUsages`, `finish` — what a settled transaction writes and returns;
* `decision` — the part of a call that can fail.

Main results:

* `moduleLoop_eq`, `transact_eq` — a transaction settles, and then writes;
* `prepareLocked_eq` — so does a call.
-/

import ContextLease.PrepareSpec
import ContextLease.EventLog

set_option relaxedAutoImplicit false
set_option autoImplicit false

/-! ### Flagged and checked computations -/

namespace Checked

variable {ε α β : Type}

/-- Two continuations that agree on the result of a computation. -/
theorem bind_congr_ok {x : Checked ε α} {f g : α → Checked ε β}
    (h : ∀ a, x.outcome = .ok a → f a = g a) : x >>= f = x >>= g := by
  cases hx : x.outcome with
  | error e => simp only [bind, hx]
  | ok a => simp only [bind, hx, h a hx]

theorem liftFlagged_bind (x : Flagged α) (f : α → Flagged β) :
    (liftM (x >>= f) : Checked ε β) = liftM x >>= fun a => liftM (f a) := rfl

theorem liftFlagged_pure (a : α) : (liftM (pure a : Flagged α) : Checked ε α) = pure a := rfl

end Checked

namespace ContextLease

open MachineNumbers RustText

variable {F : Type} [FloatOps F]

/-! ### The module loop -/

/-- The tokens of a module before and after its reclaim, and those of its fixed and of its pinned
chunks. -/
structure ModuleTokens where
  before : ℤ
  after : ℤ
  fixed : ℤ
  pinned : ℤ

/-- A module whose reclaim is over. -/
structure SettledModule (F : Type) where
  module : ModuleDefinition F
  chunks : List (PromptChunk F)
  tokens : ModuleTokens

section Loop

variable (P : Platform) (arena : ContextLeaseArena F) (env : Env) (requestId : String)
  (counts : CountContext F) (contributions : HashMap (ModuleContribution F))
  (allocations : List ModuleAllocation) (semanticResults : HashMap String)

/-- The reclaim of a module, and the counts of what is left. -/
def settleModule (m : ModuleDefinition F) : Checked ContextLeaseError (SettledModule F) := do
  let r ← reclaimModule P counts contributions allocations semanticResults m
  let fixed ← counts.countChunks P (r.chunks.filter PromptChunk.fixed)
  let pinned ← counts.countChunks P (r.chunks.filter (countsAsPinned m))
  pure ⟨m, r.chunks, ⟨r.before, r.after, fixed, pinned⟩⟩

/-- The module loop without its writes. -/
def settleModules :
    List (ModuleDefinition F) → Checked ContextLeaseError (List (SettledModule F))
  | [] => pure []
  | m :: ms => do
      let x ← settleModule P counts contributions allocations semanticResults m
      let xs ← settleModules ms
      pure (x :: xs)

/-- What is reported of a module. -/
def compressedDrafts (x : SettledModule F) : List EventDraft :=
  if x.tokens.after < x.tokens.before then
    [⟨"chunk.compressed", BTreeMap.ofList
      [("module_id", .string x.module.moduleId), ("before_tokens", .ofInt x.tokens.before),
        ("after_tokens", .ofInt x.tokens.after)], "state"⟩]
  else []

/-- The usage of a module with these tokens, which had used `previous` tokens before. -/
def moduleUsageOf (m : ModuleDefinition F) (tokens : ModuleTokens) (previous : Option ℤ) :
    ModuleUsage F :=
  let allocation := allocationOf allocations m
  { moduleId := m.moduleId
    floorTokens := allocation.floorTokens
    targetTokens := allocation.targetTokens
    maxTokens := allocation.maxTokens
    demandedTokens := allocation.demandedTokens
    allocatedTokens := allocation.allocatedTokens
    usedTokens := tokens.after
    fixedTokens := tokens.fixed
    variableTokens := max (P.arith.sub tokens.after tokens.fixed) 0
    pinnedTokens := tokens.pinned
    elasticTokens := max (P.arith.sub tokens.after tokens.pinned) 0
    reclaimableTokens := max (P.arith.sub tokens.after tokens.pinned) 0
    minimumRetainedTokens := tokens.pinned
    localCapacityTokens := allocation.localCapacityTokens
    borrowedCapacityTokens := allocation.borrowedCapacityTokens
    lentCapacityTokens := allocation.lentCapacityTokens
    compressedFromTokens := tokens.before
    compressedToTokens := tokens.after
    compressionRatio :=
      if tokens.before = 0 then FloatOps.ofInt 1
      else FloatOps.div (FloatOps.ofInt tokens.after) (FloatOps.ofInt tokens.before)
    changeRate := FloatOps.div
      (FloatOps.ofInt (P.arith.sub tokens.after (previous.getD tokens.after)))
      (FloatOps.ofInt (max (previous.getD tokens.after) 1))
    pressure := pressure F tokens.after allocation.allocatedTokens
    lastUpdatedAt := env.now }

/-- What a module writes. -/
def recordSettled (tx : Transaction F) (x : SettledModule F) : Transaction F :=
  let tx := tx.report arena env requestId (compressedDrafts x)
  { tx with
    state := { tx.state with
      previousUsage := tx.state.previousUsage.insert x.module.moduleId x.tokens.after }
    moduleUsage := tx.moduleUsage ++ [moduleUsageOf P env allocations x.module x.tokens
      (tx.state.previousUsage x.module.moduleId)]
    finalChunks := tx.finalChunks.insert x.module.moduleId x.chunks }

theorem recordModule_eq (m : ModuleDefinition F) (r : Reclaimed F) (tx : Transaction F) :
    recordModule P arena env requestId counts allocations m r tx = (do
      let fixed ← counts.countChunks P (r.chunks.filter PromptChunk.fixed)
      let pinned ← counts.countChunks P (r.chunks.filter (countsAsPinned m))
      pure (recordSettled P arena env requestId allocations tx
        ⟨m, r.chunks, ⟨r.before, r.after, fixed, pinned⟩⟩)) := by
  by_cases h : r.after < r.before
  · simp only [recordModule, recordSettled, compressedDrafts, if_pos h,
      Transaction.push_eq_report]
    rfl
  · simp only [recordModule, recordSettled, compressedDrafts, if_neg h, Transaction.report_nil]
    rfl

/-- The module loop settles its modules, and then writes. -/
theorem moduleLoop_eq (ms : List (ModuleDefinition F)) (tx : Transaction F) :
    moduleLoop P arena env requestId counts contributions allocations semanticResults ms tx =
      (do
        let xs ← settleModules P counts contributions allocations semanticResults ms
        pure (xs.foldl (recordSettled P arena env requestId allocations) tx)) := by
  induction ms generalizing tx with
  | nil => rfl
  | cons m ms ih =>
      simp only [moduleLoop, settleModules, settleModule, recordModule_eq, ih,
        Checked.liftFlagged_bind, Checked.liftFlagged_pure, bind_assoc, pure_bind,
        List.foldl_cons]

/-- Settled modules are the modules of the loop, each with its reclaim. -/
theorem settleModules_ok {ms : List (ModuleDefinition F)} {xs : List (SettledModule F)}
    (h : (settleModules P counts contributions allocations semanticResults ms).outcome = .ok xs) :
    List.Forall₂ (fun m x => x.module = m ∧
      (reclaimModule P counts contributions allocations semanticResults m).outcome =
        .ok ⟨x.chunks, x.tokens.before, x.tokens.after⟩ ∧
      x.tokens.fixed = (counts.countChunks P (x.chunks.filter PromptChunk.fixed)).val ∧
      x.tokens.pinned = (counts.countChunks P (x.chunks.filter (countsAsPinned m))).val) ms xs := by
  induction ms generalizing xs with
  | nil =>
      simp only [settleModules, Checked.outcome_pure, Except.ok.injEq] at h
      rw [← h]
      exact .nil
  | cons m ms ih =>
      simp only [settleModules, settleModule, Checked.outcome_bind, Checked.outcome_liftFlagged,
        Checked.outcome_pure, Except.bind_eq_ok, Except.ok.injEq] at h
      obtain ⟨_, ⟨r, hr, _, rfl, _, rfl, rfl⟩, xs', hxs, rfl⟩ := h
      exact .cons ⟨rfl, hr, rfl, rfl⟩ (ih hxs)

/-- The usages of settled modules. -/
def moduleUsages (previousUsage : HashMap ℤ) (xs : List (SettledModule F)) :
    List (ModuleUsage F) :=
  xs.map fun x =>
    moduleUsageOf P env allocations x.module x.tokens (previousUsage x.module.moduleId)

/-- What the modules have used last. -/
def usedTokensOf (previousUsage : HashMap ℤ) (xs : List (SettledModule F)) : HashMap ℤ :=
  xs.foldl (fun usage x => usage.insert x.module.moduleId x.tokens.after) previousUsage

/-- The chunks of settled modules. -/
def finalChunksOf (finalChunks : HashMap (List (PromptChunk F))) (xs : List (SettledModule F)) :
    HashMap (List (PromptChunk F)) :=
  xs.foldl (fun final x => final.insert x.module.moduleId x.chunks) finalChunks

/-- What settled modules write. -/
theorem foldl_recordSettled {xs : List (SettledModule F)}
    (hnodup : (xs.map fun x => x.module.moduleId).Nodup) (tx : Transaction F) :
    xs.foldl (recordSettled P arena env requestId allocations) tx =
      { tx.report arena env requestId (xs.flatMap compressedDrafts) with
        state :=
          { (tx.report arena env requestId (xs.flatMap compressedDrafts)).state with
            previousUsage := usedTokensOf tx.state.previousUsage xs }
        moduleUsage := tx.moduleUsage ++
          moduleUsages P env allocations tx.state.previousUsage xs
        finalChunks := finalChunksOf tx.finalChunks xs } := by
  induction xs generalizing tx with
  | nil => simp [usedTokensOf, moduleUsages, finalChunksOf]
  | cons x xs ih =>
      rw [List.map_cons, List.nodup_cons] at hnodup
      -- a module looks up its own previous usage, which no other module has replaced
      have hprevious : moduleUsages P env allocations
          (tx.state.previousUsage.insert x.module.moduleId x.tokens.after) xs =
            moduleUsages P env allocations tx.state.previousUsage xs := by
        refine List.map_congr_left ?_
        intro y hy
        rw [HashMap.insert_of_ne]
        exact fun heq => hnodup.1 (heq ▸ List.mem_map_of_mem (f := fun x =>
          x.module.moduleId) hy)
      rw [List.foldl_cons, ih hnodup.2, List.flatMap_cons, ← Transaction.report_report]
      have hreport : (recordSettled P arena env requestId allocations tx x).moduleUsage ++
          moduleUsages P env allocations (tx.state.previousUsage.insert x.module.moduleId
            x.tokens.after) xs =
          tx.moduleUsage ++ moduleUsages P env allocations tx.state.previousUsage (x :: xs) := by
        rw [hprevious, recordSettled, List.append_assoc]
        rfl
      rw [← hreport]
      rfl

end Loop

/-! ### The lease events -/

section Leases

variable (P : Platform) (arena : ContextLeaseArena F) (env : Env)

/-- What is reported first. -/
def startedDraft (model : ModelProfile) : EventDraft :=
  ⟨"request.started", BTreeMap.ofList
    [("model_profile_id", .string model.modelProfileId),
      ("token_count_mode", .string model.countMode)], "state"⟩

/-- What is reported of a lease that was active before. -/
def reclaimDrafts (next : BTreeMap Lease) (previous : Lease) : List EventDraft :=
  let reclaimed := P.arith.sub previous.grantedTokens
    (((next.get previous.leaseId).map Lease.grantedTokens).getD 0)
  if reclaimed > 0 then
    [⟨"lease.reclaimed", BTreeMap.ofList
      [("lease_id", .string previous.leaseId), ("reclaimed_tokens", .ofInt reclaimed),
        ("borrower_module_id", .string previous.borrowerModuleId)], "state"⟩]
  else []

/-- What is reported of a lease. -/
def grantDrafts (active : BTreeMap Lease) (lease : Lease) : List EventDraft :=
  let granted := P.arith.sub lease.grantedTokens
    (((active.get lease.leaseId).map Lease.grantedTokens).getD 0)
  if granted > 0 then
    [⟨"lease.granted", BTreeMap.ofList
      [("lease_id", .string lease.leaseId), ("granted_tokens", .ofInt granted),
        ("borrower_module_id", .string lease.borrowerModuleId)], "state"⟩]
  else []

/-- What is reported of all leases, from the active ones to the next ones. -/
def leaseDrafts (active : BTreeMap Lease) (leases : List Lease) : List EventDraft :=
  (env.leaseOrder (active.map Prod.snd)).flatMap (reclaimDrafts P (nextLeases leases)) ++
    leases.flatMap (grantDrafts P active)

theorem leaseEvents_eq (requestId : String) (request : PrepareRequest F) (leases : List Lease)
    (tx : Transaction F) :
    leaseEvents P arena env requestId request leases tx = tx.report arena env requestId
      (startedDraft request.model :: leaseDrafts P env tx.state.activeLeases leases) := by
  have hreclaim : (fun (tx : Transaction F) (l : Lease) =>
      reclaimLease P arena env requestId (nextLeases leases) l tx) = fun tx l =>
        tx.report arena env requestId (reclaimDrafts P (nextLeases leases) l) := by
    funext tx l
    simp only [reclaimLease, reclaimDrafts]
    split
    · rw [Transaction.push_eq_report]
    · rw [Transaction.report_nil]
  -- a grant looks up the active leases, which no event changes
  have hgrant : ∀ (active : BTreeMap Lease) (l : List Lease) (tx : Transaction F),
      tx.state.activeLeases = active →
        l.foldl (fun tx l => grantLease P arena env requestId l tx) tx =
          tx.report arena env requestId (l.flatMap (grantDrafts P active)) := by
    intro active l
    induction l with
    | nil => exact fun tx _ => (Transaction.report_nil arena env requestId tx).symm
    | cons lease l ih =>
        intro tx hactive
        have hstep : grantLease P arena env requestId lease tx =
            tx.report arena env requestId (grantDrafts P active lease) := by
          rw [← hactive]
          simp only [grantLease, grantDrafts]
          split
          · rw [Transaction.push_eq_report]
          · rw [Transaction.report_nil]
        have hkept : (tx.report arena env requestId (grantDrafts P active
            lease)).state.activeLeases = active := hactive
        rw [List.foldl_cons, hstep, ih _ hkept, Transaction.report_report, List.flatMap_cons]
  simp only [leaseEvents, hreclaim, Transaction.push_eq_report, Transaction.foldl_report]
  rw [hgrant tx.state.activeLeases, Transaction.report_report, Transaction.report_report]
  · rfl
  · rfl

end Leases

/-! ### The transaction -/

/-- What a transaction comes to before it writes anything. -/
structure Settled (F : Type) where
  modules : List (SettledModule F)
  rendered : String
  promptTokens : ℤ
  chunks : List (List (PreparedChunk F))

section Transact

variable (P : Platform) (arena : ContextLeaseArena F) (env : Env)

/-- The source's `usable`. -/
def usableBudget (admission : Admission F) : ℤ :=
  P.arith.sub admission.inputBudget arena.definition.frameworkReserveTokens

/-- The text of settled modules. -/
def settledText (xs : List (SettledModule F)) : String :=
  "\n\n".intercalate
    ((xs.map fun x => renderModule x.chunks).filter fun text => !text.isEmpty)

/-- The part of a transaction that can fail. -/
def settle (results : List SemanticResult) (admission : Admission F) :
    Checked ContextLeaseError (Settled F) := do
  let xs ← settleModules P admission.counts admission.contributions admission.allocations
    (semanticResultsOf results) (orderedModules arena.definition)
  let promptTokens ← admission.counts.countText P (settledText xs)
  if promptTokens > usableBudget P arena admission then
    throw ⟨"admission_error", "rendered context exceeds usable budget"⟩
  else do
    let chunks ← Flagged.traverse
      (fun x => Flagged.traverse (preparedChunk P admission.counts x.module) x.chunks) xs
    pure ⟨xs, settledText xs, promptTokens, chunks⟩

section Finish

variable (request : PrepareRequest F) (admission : Admission F) (settled : Settled F)
  (s : ArenaState F)

/-- What is reported last. -/
def publishedDraft (snapshotSeq : ℕ) : EventDraft :=
  ⟨"snapshot.published", BTreeMap.ofList [("snapshot_seq", .ofInt snapshotSeq)], "gauge"⟩

/-- What is reported of a call up to its snapshot. -/
def draftsToSnapshot : List EventDraft :=
  startedDraft request.model :: (leaseDrafts P env s.activeLeases admission.leases ++
    settled.modules.flatMap compressedDrafts ++
    [⟨"request.prepared", BTreeMap.ofList
      [("prompt_tokens", .ofInt settled.promptTokens),
        ("input_budget_tokens", .ofInt (usableBudget P arena admission))], "state"⟩])

/-- What is reported of a call. -/
def callDrafts : List EventDraft :=
  draftsToSnapshot P arena env request admission settled s ++ [publishedDraft (s.snapshotSeq + 1)]

/-- The name of the request of a call. -/
def callName : String := requestName arena request (s.requestSeq + 1)

/-- The usages of a call. -/
def callUsages : List (ModuleUsage F) :=
  moduleUsages P env admission.allocations s.previousUsage settled.modules

/-- The snapshot of a call, which is taken before the last event. -/
def callSnapshot : ArenaSnapshot F :=
  takeSnapshot P arena env request (callName arena request s) settled.promptTokens
    (usableBudget P arena admission) admission.leases
    { state :=
        { s.emit arena env (some (callName arena request s))
            (draftsToSnapshot P arena env request admission settled s) with
          snapshotSeq := s.snapshotSeq + 1 }
      moduleUsage := callUsages P env admission settled s }

/-- The state after a call. -/
def callState : ArenaState F :=
  ({ s.emit arena env (some (callName arena request s))
      (callDrafts P arena env request admission settled s) with
    requestSeq := s.requestSeq + 1
    snapshotSeq := s.snapshotSeq + 1
    previousUsage := usedTokensOf s.previousUsage settled.modules
    activeLeases := nextLeases admission.leases
    latestSnapshot := some (callSnapshot P arena env request admission settled s) } :
      ArenaState F).rememberUsage (callName arena request s)
    (recentUsageOf request settled.promptTokens)

/-- The plans of settled modules. -/
def settledPlans (usages : List (ModuleUsage F)) : List (PreparedModulePlan F) :=
  ((settled.modules.zip usages).zip settled.chunks).map fun p =>
    { moduleId := p.1.1.module.moduleId
      renderTarget := p.1.1.module.renderTarget
      allocation := allocationOf admission.allocations p.1.1.module
      usage := p.1.2
      chunks := p.2 }

/-- The plan of a call. -/
def callPlan : PreparedContextPlan F :=
  preparedPlan P arena request (callName arena request s) admission settled.rendered
    settled.promptTokens (usableBudget P arena admission)
    (settledPlans admission settled (callUsages P env admission settled s))
    (callSnapshot P arena env request admission settled s)
    { state := s
      traceEvents := eventsFrom arena env (some (callName arena request s)) s.eventSeq
        (callDrafts P arena env request admission settled s)
      moduleUsage := callUsages P env admission settled s }

/-- What a settled transaction returns and writes. -/
def finish : PreparedContextPlan F × ArenaState F :=
  (callPlan P arena env request admission settled s,
    callState P arena env request admission settled s)

end Finish

omit [FloatOps F] in
/-- A map filled in a loop over distinct keys holds what was put there. -/
theorem finalChunksOf_apply {xs : List (SettledModule F)}
    (hnodup : (xs.map fun x => x.module.moduleId).Nodup)
    (finalChunks : HashMap (List (PromptChunk F))) :
    ∀ x ∈ xs, finalChunksOf finalChunks xs x.module.moduleId = some x.chunks := by
  induction xs generalizing finalChunks with
  | nil => exact fun x hx => absurd hx List.not_mem_nil
  | cons y xs ih =>
      rw [List.map_cons, List.nodup_cons] at hnodup
      have hother : ∀ (l : List (SettledModule F)) (final : HashMap (List (PromptChunk F))) id,
          id ∉ l.map (fun x => x.module.moduleId) → finalChunksOf final l id = final id := by
        intro l
        induction l with
        | nil => exact fun _ _ _ => rfl
        | cons z l ih =>
            intro final id hid
            rw [List.map_cons, List.mem_cons, not_or] at hid
            rw [finalChunksOf, List.foldl_cons]
            exact (ih _ id hid.2).trans (HashMap.insert_of_ne _ _ hid.1)
      intro x hx
      rw [finalChunksOf, List.foldl_cons]
      rcases List.mem_cons.1 hx with rfl | hx
      · exact (hother xs _ _ hnodup.1).trans (HashMap.insert_self ..)
      · exact ih hnodup.2 _ x hx

/-- The plans of modules, built in one pass or after their chunks. -/
theorem traverse_modulePlan (counts : CountContext F) (allocations : List ModuleAllocation)
    (finalChunks : HashMap (List (PromptChunk F))) {xs : List (SettledModule F)}
    {usages : List (ModuleUsage F)} (hlength : usages.length = xs.length)
    (hfinal : ∀ x ∈ xs, finalChunks x.module.moduleId = some x.chunks) :
    Flagged.traverse (fun p => modulePlan P counts allocations finalChunks p.1 p.2)
        ((xs.map SettledModule.module).zip usages) = (do
      let chunks ← Flagged.traverse
        (fun x => Flagged.traverse (preparedChunk P counts x.module) x.chunks) xs
      pure (((xs.zip usages).zip chunks).map fun p =>
        { moduleId := p.1.1.module.moduleId
          renderTarget := p.1.1.module.renderTarget
          allocation := allocationOf allocations p.1.1.module
          usage := p.1.2
          chunks := p.2 })) := by
  induction xs generalizing usages with
  | nil => cases usages <;> rfl
  | cons x xs ih =>
      cases usages with
      | nil => simp at hlength
      | cons usage usages =>
          rw [List.length_cons, List.length_cons, Nat.add_right_cancel_iff] at hlength
          have hplan : modulePlan P counts allocations finalChunks x.module usage = (do
              let chunks ← Flagged.traverse (preparedChunk P counts x.module) x.chunks
              pure
                { moduleId := x.module.moduleId
                  renderTarget := x.module.renderTarget
                  allocation := allocationOf allocations x.module
                  usage := usage
                  chunks := chunks }) := by
            simp only [modulePlan, hfinal x (List.mem_cons_self ..), Option.getD_some]
          rw [List.map_cons, List.zip_cons_cons, Flagged.traverse, hplan,
            ih hlength fun y hy => hfinal y (List.mem_cons_of_mem _ hy)]
          simp only [Flagged.traverse, bind, pure, Bool.or_false, List.zip_cons_cons,
            List.map_cons]

/-- The end of a transaction, in closed form. -/
theorem publish_eq (request : PrepareRequest F) (admission : Admission F) (settled : Settled F)
    (s : ArenaState F) (finalChunks : HashMap (List (PromptChunk F))) :
    publish P arena env request (callName arena request s) admission settled.rendered
        settled.promptTokens (usableBudget P arena admission)
        (settledPlans admission settled (callUsages P env admission settled s))
        { state :=
            { s.emit arena env (some (callName arena request s))
                (startedDraft request.model :: (leaseDrafts P env s.activeLeases
                  admission.leases ++ settled.modules.flatMap compressedDrafts)) with
              requestSeq := s.requestSeq + 1
              previousUsage := usedTokensOf s.previousUsage settled.modules
              activeLeases := nextLeases admission.leases }
          traceEvents := eventsFrom arena env (some (callName arena request s)) s.eventSeq
            (startedDraft request.model :: (leaseDrafts P env s.activeLeases
              admission.leases ++ settled.modules.flatMap compressedDrafts))
          moduleUsage := callUsages P env admission settled s
          finalChunks := finalChunks } =
      finish P arena env request admission settled s := by
  generalize hdrafts : startedDraft request.model :: (leaseDrafts P env s.activeLeases
    admission.leases ++ settled.modules.flatMap compressedDrafts) = drafts
  have hsnapshot : draftsToSnapshot P arena env request admission settled s = drafts ++
      [⟨"request.prepared", BTreeMap.ofList
        [("prompt_tokens", .ofInt settled.promptTokens),
          ("input_budget_tokens", .ofInt (usableBudget P arena admission))], "state"⟩] := by
    rw [← hdrafts]
    rfl
  simp only [publish, Transaction.push_eq_report, finish, callPlan, callState, callSnapshot,
    callDrafts, hsnapshot, eventsFrom_append, ← ArenaState.emit_emit, List.length_append,
    List.length_singleton, ← Nat.add_assoc]
  rfl

/-- A transaction settles, and then writes. -/
theorem transact_eq (request : PrepareRequest F) (results : List SemanticResult)
    (admission : Admission F) (s : ArenaState F) :
    transact P arena env request results admission s = (do
      let settled ← settle P arena results admission
      pure (finish P arena env request admission settled s)) := by
  simp only [transact, leaseEvents_eq, moduleLoop_eq, settle, bind_assoc, pure_bind]
  refine Checked.bind_congr_ok ?_
  intro xs hxs
  have hsettled := settleModules_ok P admission.counts admission.contributions
    admission.allocations (semanticResultsOf results) hxs
  have hmodules : orderedModules arena.definition = xs.map SettledModule.module := by
    have := map_eq_of_forall₂ (f := id) hsettled fun m x h => h.1.symm
    rwa [List.map_id] at this
  have hnodup : (xs.map fun x => x.module.moduleId).Nodup := by
    have := orderedModules_nodup arena.validDefinition.ids_nodup
    rwa [hmodules, List.map_map] at this
  -- the loop starts from a transaction that has reported the leases
  have htx : xs.foldl (recordSettled P arena env (callName arena request s) admission.allocations)
      (Transaction.report arena env (callName arena request s)
        (startedDraft request.model :: leaseDrafts P env s.activeLeases admission.leases)
        { state := { s with requestSeq := s.requestSeq + 1 } }) =
      { state :=
          { s.emit arena env (some (callName arena request s))
              (startedDraft request.model :: (leaseDrafts P env s.activeLeases
                admission.leases ++ xs.flatMap compressedDrafts)) with
            requestSeq := s.requestSeq + 1
            previousUsage := usedTokensOf s.previousUsage xs }
        traceEvents := eventsFrom arena env (some (callName arena request s)) s.eventSeq
          (startedDraft request.model :: (leaseDrafts P env s.activeLeases
            admission.leases ++ xs.flatMap compressedDrafts))
        moduleUsage := moduleUsages P env admission.allocations s.previousUsage xs
        finalChunks := finalChunksOf HashMap.empty xs } := by
    rw [foldl_recordSettled P arena env _ _ hnodup, Transaction.report_report, List.cons_append]
    simp only [Transaction.report, List.nil_append]
    rfl
  rw [← callName, htx]
  have hfinal := finalChunksOf_apply hnodup HashMap.empty
  have hrendered : renderedText arena.definition (finalChunksOf HashMap.empty xs) =
      settledText xs := by
    have hchunks : xs.map (fun x => renderModule
        ((finalChunksOf HashMap.empty xs x.module.moduleId).getD [])) =
          xs.map fun x => renderModule x.chunks :=
      List.map_congr_left fun x hx => by rw [hfinal x hx, Option.getD_some]
    rw [renderedText, hmodules, List.map_map, settledText, ← hchunks]
    rfl
  simp only [hrendered]
  refine Checked.bind_congr_ok ?_
  intro promptTokens _
  rw [← usableBudget]
  split
  · rfl
  · rw [hmodules, traverse_modulePlan P _ _ _ (by simp [moduleUsages]) hfinal]
    simp only [Checked.liftFlagged_bind, Checked.liftFlagged_pure, bind_assoc, pure_bind]
    refine Checked.bind_congr_ok ?_
    intro chunks _
    rw [← publish_eq P arena env request admission ⟨xs, settledText xs, promptTokens, chunks⟩ s
      (finalChunksOf HashMap.empty xs)]
    rfl

end Transact

/-! ### Calls -/

section Calls

variable (P : Platform) (arena : ContextLeaseArena F) (env : Env)

/-- A pure end of a call does not fail. -/
theorem ensureValid_bind_pure {α β : Type} (x : Checked ContextLeaseError α) (f : α → β) :
    ensureValid (x >>= fun a => pure (f a)) = (ensureValid x).map f := by
  cases hx : x.outcome with
  | error e => simp only [ensureValid, bind, hx, Except.map]
  | ok a =>
      simp only [ensureValid, bind, hx, Checked.outcome_pure, Checked.failed_pure, Bool.or_false]
      split <;> rfl

/-- The part of a call that can fail. -/
def decision (request : PrepareRequest F) (results : List SemanticResult)
    (counter : Option TokenCounter) (multiplier : F) : Result (Admission F × Settled F) :=
  ensureValid do
    let admission ← admitRequest P arena request counter multiplier
    let settled ← settle P arena results admission
    pure (admission, settled)

/-- A call decides, and then writes. -/
theorem prepareLocked_eq (request : PrepareRequest F) (results : List SemanticResult)
    (counter : Option TokenCounter) (multiplier : F) (s : ArenaState F) :
    prepareLocked P arena env request results counter multiplier s =
      match decision P arena request results counter multiplier with
      | .ok (admission, settled) =>
          (.ok (callPlan P arena env request admission settled s.beginTransaction),
            s.commitTransaction
              (callState P arena env request admission settled s.beginTransaction))
      | .error e => (.error e, s) := by
  have hattempt : (do
      let admission ← admitRequest P arena request counter multiplier
      transact P arena env request results admission s.beginTransaction) = (do
        let decided ← (do
          let admission ← admitRequest P arena request counter multiplier
          let settled ← settle P arena results admission
          pure (admission, settled))
        pure (finish P arena env request decided.1 decided.2 s.beginTransaction)) := by
    simp only [transact_eq, bind_assoc, pure_bind]
  rw [prepareLocked, hattempt, ensureValid_bind_pure, ← decision]
  cases decision P arena request results counter multiplier <;> rfl

/-- A decided call has been admitted and settled, and no callback has failed. -/
theorem decision_ok {request : PrepareRequest F} {results : List SemanticResult}
    {counter : Option TokenCounter} {multiplier : F} {admission : Admission F}
    {settled : Settled F}
    (h : decision P arena request results counter multiplier = .ok (admission, settled)) :
    Admitted P arena request counter multiplier admission ∧
      (settle P arena results admission).outcome = .ok settled := by
  have hok := (ensureValid_eq_ok.1 h).1
  simp only [Checked.outcome_bind, Checked.outcome_pure, Except.bind_eq_ok, Except.ok.injEq,
    Prod.mk.injEq] at hok
  obtain ⟨admission', hadmitted, settled', hsettle, rfl, rfl⟩ := hok
  exact ⟨admit_ok.1 hadmitted, hsettle⟩

end Calls

end ContextLease
