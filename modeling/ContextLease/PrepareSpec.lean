/-
What a successful preparation establishes.

A successful call has passed every check of its front part, has reclaimed every module, and has
rendered exactly the chunks it returns.  The facts are collected once, as `Admitted` and
`PreparedRun`; everything later about successful calls starts from them.

Main definitions:

* `Admitted` — what the front part of a call has checked and computed;
* `PreparedRun` — what a transaction returns, in terms of the reclaimed modules;
* `Remembers` — what it does to the calibrations and to the requests that wait for their usage;
* `PreparedCall` — all of this for a call.

Main results:

* `admit_ok` — a front part that succeeds is `Admitted`;
* `moduleLoop_ok`, `transact_ok` — a transaction that succeeds is a `PreparedRun`;
* `prepareLocked_cases` — a call fails and changes nothing, or is a `PreparedCall`;
* `prepareWithResults_ok`, `prepareCommit_ok` — successful calls by their result.
-/

import ContextLease.Arena

set_option relaxedAutoImplicit false
set_option autoImplicit false

namespace ContextLease

open MachineNumbers RustText

variable {F : Type} [FloatOps F]

/-! ### The front part -/

/-- What the front part of a call has checked and computed. -/
structure Admitted (P : Platform) (arena : ContextLeaseArena F) (request : PrepareRequest F)
    (counter : Option TokenCounter) (multiplier : F) (a : Admission F) : Prop where
  checked : checkRequest request counter = .ok ()
  counts : a.counts = ⟨request.model.tokenizerId, counter, multiplier⟩
  inputBudget : a.inputBudget =
    P.arith.sub request.model.contextLimitTokens request.model.reservedOutputTokens
  contributions : validateContributions arena.definition request.contributions = .ok a.contributions
  allocationInputBudget : a.allocationInputBudget = P.arith.sub a.inputBudget
    (renderSeparatorTokens P a.counts a.contributions arena.definition).val
  budget : validateModelBudget P.arith arena.definition a.allocationInputBudget = .ok ()
  demands : a.demands = (demandsOf P a.counts a.contributions arena.definition).val
  allocated : allocate P.arith arena.definition a.demands arena.layoutHash
    a.allocationInputBudget = .ok (a.allocations, a.leases)

/-- A front part succeeds exactly when its checks do, with what they computed. -/
theorem admit_ok {P : Platform} {arena : ContextLeaseArena F} {request : PrepareRequest F}
    {counter : Option TokenCounter} {multiplier : F} {a : Admission F} :
    (admitRequest P arena request counter multiplier).outcome = .ok a ↔
      Admitted P arena request counter multiplier a := by
  simp only [admitRequest, Checked.outcome_bind, Checked.outcome_liftExcept,
    Checked.outcome_liftFlagged, Checked.outcome_pure, Except.bind_eq_ok, Except.ok.injEq]
  constructor
  · rintro ⟨⟨⟩, hchecked, contributions, hcontributions, overhead, rfl, ⟨⟩, hbudget, demands, rfl,
      ⟨allocations, leases⟩, hallocated, rfl⟩
    exact ⟨hchecked, rfl, rfl, hcontributions, rfl, hbudget, rfl, hallocated⟩
  · rintro ⟨hchecked, hcounts, hinput, hcontributions, hallocation, hbudget, hdemands, hallocated⟩
    obtain ⟨counts, inputBudget, contributions, allocationInputBudget, demands, allocations,
      leases⟩ := a
    simp only at hcounts hinput hcontributions hallocation hbudget hdemands hallocated
    subst hcounts hinput hallocation hdemands
    exact ⟨(), hchecked, contributions, hcontributions, _, rfl, (), hbudget, _, rfl,
      (allocations, leases), hallocated, rfl⟩

/-- The demands, as a table of the modules. -/
theorem demandsOf_val (P : Platform) (counts : CountContext F)
    (contributions : HashMap (ModuleContribution F)) (definition : ArenaDefinition F) :
    (demandsOf P counts contributions definition).val =
      perModule definition (fun m => (moduleDemand P counts contributions m).val) 0 := by
  funext id
  simp only [demandsOf, Flagged.val_bind, Flagged.val_pure, Flagged.val_traverse, perModule]
  induction definition.modules with
  | nil => rfl
  | cons m ms ih =>
      simp only [List.map_cons, List.zip_cons_cons, List.lookup_cons, List.find?_cons]
      by_cases h : m.moduleId = id
      · simp [h]
      · rw [beq_false_of_ne h, beq_false_of_ne (Ne.symm h)]
        exact ih

/-- The demand of a module of a valid definition. -/
theorem demandsOf_apply (P : Platform) (counts : CountContext F)
    (contributions : HashMap (ModuleContribution F)) {definition : ArenaDefinition F}
    (hvalid : ValidDefinition definition) {m : ModuleDefinition F}
    (hm : m ∈ definition.modules) :
    (demandsOf P counts contributions definition).val m.moduleId =
      (moduleDemand P counts contributions m).val := by
  rw [demandsOf_val]
  exact perModule_apply hvalid.ids_nodup _ _ hm

/-- Demands are natural numbers. -/
theorem Admitted.demands_nonneg {P : Platform} {arena : ContextLeaseArena F}
    {request : PrepareRequest F} {counter : Option TokenCounter} {multiplier : F}
    {a : Admission F} (h : Admitted P arena request counter multiplier a) (id : String) :
    0 ≤ a.demands id := by
  rw [h.demands, demandsOf_val, perModule]
  split
  · exact le_max_right _ 0
  · exact le_refl 0

/-! ### The module loop -/

section Loop

variable (P : Platform) (arena : ContextLeaseArena F) (env : Env) (requestId : String)
  (counts : CountContext F) (contributions : HashMap (ModuleContribution F))
  (allocations : List ModuleAllocation) (semanticResults : HashMap String)

/-- What recording a module does to the chunks and the usages of the call. -/
theorem recordModule_val (m : ModuleDefinition F) (r : Reclaimed F) (tx : Transaction F) :
    let tx' := (recordModule P arena env requestId counts allocations m r tx).val
    tx'.finalChunks = tx.finalChunks.insert m.moduleId r.chunks ∧
      (∃ usage : ModuleUsage F, tx'.moduleUsage = tx.moduleUsage ++ [usage] ∧
        usage.moduleId = m.moduleId ∧ usage.usedTokens = r.after) ∧
      tx'.state.calibrations = tx.state.calibrations ∧
      tx'.state.recentUsage = tx.state.recentUsage := by
  simp only [recordModule, Flagged.val_bind, Flagged.val_pure]
  split
  · refine ⟨rfl, ⟨_, rfl, rfl, rfl⟩, ?_, ?_⟩
    · simp only [Transaction.push, calibrations_pushEvent]
    · simp only [Transaction.push, recentUsage_pushEvent]
  · exact ⟨rfl, ⟨_, rfl, rfl, rfl⟩, rfl, rfl⟩

/-- The module loop reclaims its modules one by one, and records them in order. -/
theorem moduleLoop_ok {ms : List (ModuleDefinition F)}
    (hnodup : (ms.map ModuleDefinition.moduleId).Nodup) {tx tx' : Transaction F}
    (h : (moduleLoop P arena env requestId counts contributions allocations semanticResults ms
      tx).outcome = .ok tx') :
    ∃ rs : List (Reclaimed F),
      List.Forall₂ (fun m r => (reclaimModule P counts contributions allocations semanticResults
        m).outcome = .ok r) ms rs ∧
      (∀ id, id ∉ ms.map ModuleDefinition.moduleId → tx'.finalChunks id = tx.finalChunks id) ∧
      List.Forall₂ (fun m r => tx'.finalChunks m.moduleId = some r.chunks) ms rs ∧
      (∃ usages : List (ModuleUsage F), tx'.moduleUsage = tx.moduleUsage ++ usages ∧
        usages.map ModuleUsage.moduleId = ms.map ModuleDefinition.moduleId ∧
        usages.map ModuleUsage.usedTokens = rs.map Reclaimed.after) ∧
      tx'.state.calibrations = tx.state.calibrations ∧
      tx'.state.recentUsage = tx.state.recentUsage := by
  induction ms generalizing tx with
  | nil =>
      simp only [moduleLoop, Checked.outcome_pure, Except.ok.injEq] at h
      subst h
      exact ⟨[], .nil, fun _ _ => rfl, .nil, ⟨[], by simp, rfl, rfl⟩, rfl, rfl⟩
  | cons m ms ih =>
      rw [List.map_cons, List.nodup_cons] at hnodup
      simp only [moduleLoop, Checked.outcome_bind, Checked.outcome_liftFlagged,
        Except.bind_eq_ok, Except.ok.injEq] at h
      obtain ⟨r, hr, _, rfl, h⟩ := h
      obtain ⟨hchunks, ⟨usage, husage, hid, hused⟩, hcal, hrecent⟩ :=
        recordModule_val P arena env requestId counts allocations m r tx
      obtain ⟨rs, hrs, hother, hfinal, ⟨usages, husages, hids, hafter⟩, hcal', hrecent'⟩ :=
        ih hnodup.2 h
      refine ⟨r :: rs, .cons hr hrs, ?_, .cons ?_ hfinal, ⟨usage :: usages, ?_, ?_, ?_⟩,
        hcal'.trans hcal, hrecent'.trans hrecent⟩
      · intro id hnot
        rw [List.map_cons, List.mem_cons, not_or] at hnot
        rw [hother id hnot.2, hchunks, HashMap.insert_of_ne _ _ hnot.1]
      · rw [hother _ hnodup.1, hchunks, HashMap.insert_self]
      · rw [husages, husage, List.append_assoc]
        rfl
      · rw [List.map_cons, List.map_cons, hid, hids]
      · rw [List.map_cons, List.map_cons, hused, hafter]

end Loop

/-! ### The transaction -/

/-- Related lists have the same images under related functions. -/
theorem map_eq_of_forall₂ {α β γ : Type} {R : α → β → Prop} {f : α → γ} {g : β → γ} {l : List α}
    {l' : List β} (h : List.Forall₂ R l l') (hfg : ∀ a b, R a b → f a = g b) :
    l.map f = l'.map g := by
  induction h with
  | nil => rfl
  | cons hab _ ih => rw [List.map_cons, List.map_cons, hfg _ _ hab, ih]

/-- An element of a list has a partner in a related list. -/
theorem exists_of_forall₂ {α β : Type} {R : α → β → Prop} {l : List α} {l' : List β}
    (h : List.Forall₂ R l l') {a : α} (ha : a ∈ l) : ∃ b ∈ l', R a b := by
  induction h with
  | nil => cases ha
  | cons hab _ ih =>
      rcases List.mem_cons.1 ha with rfl | ha
      · exact ⟨_, List.mem_cons_self .., hab⟩
      · obtain ⟨b, hb, h⟩ := ih ha
        exact ⟨b, List.mem_cons_of_mem _ hb, h⟩

/-- A list zipped with two others, one of them related to it. -/
theorem forall₂_zip_map {α β υ γ : Type} {R : α → β → Prop} {Q : α × β → γ → Prop}
    {f : α × υ → γ} {l : List α} {l' : List β} {us : List υ} (h : List.Forall₂ R l l')
    (hlength : us.length = l.length) (hf : ∀ a b u, R a b → Q (a, b) (f (a, u))) :
    List.Forall₂ Q (l.zip l') ((l.zip us).map f) := by
  induction h generalizing us with
  | nil => simp
  | cons hab _ ih =>
      cases us with
      | nil => simp at hlength
      | cons u us =>
          simp only [List.zip_cons_cons, List.map_cons]
          exact .cons (hf _ _ u hab) (ih (by simpa using hlength))

/-- The text of the modules after their reclaims. -/
def joinedText {F : Type} (rs : List (Reclaimed F)) : String :=
  "\n\n".intercalate ((rs.map fun r => renderModule r.chunks).filter fun text => !text.isEmpty)

omit [FloatOps F] in
/-- A prompt is rendered from what the reclaims left. -/
theorem renderedText_eq {definition : ArenaDefinition F}
    {finalChunks : HashMap (List (PromptChunk F))} {rs : List (Reclaimed F)}
    (h : List.Forall₂ (fun m r => finalChunks m.moduleId = some r.chunks)
      (orderedModules definition) rs) : renderedText definition finalChunks = joinedText rs := by
  have hmap : (orderedModules definition).map
      (fun m => renderModule ((finalChunks m.moduleId).getD [])) =
      rs.map fun r => renderModule r.chunks :=
    map_eq_of_forall₂ h fun m r hr => by rw [hr, Option.getD_some]
  rw [renderedText, joinedText, hmap]

/-- What a successful transaction returns; `rs` are the modules after their reclaims, in order. -/
structure PreparedRun (P : Platform) (arena : ContextLeaseArena F) (request : PrepareRequest F)
    (results : List SemanticResult) (admission : Admission F) (plan : PreparedContextPlan F)
    (rs : List (Reclaimed F)) : Prop where
  reclaimed : List.Forall₂ (fun m r =>
    (reclaimModule P admission.counts admission.contributions admission.allocations
      (semanticResultsOf results) m).outcome = .ok r) (orderedModules arena.definition) rs
  rendered : plan.rendered = joinedText rs
  promptTokens : plan.promptTokens = (admission.counts.countText P plan.rendered).val
  fits : plan.promptTokens ≤
    P.arith.sub admission.inputBudget arena.definition.frameworkReserveTokens
  moduleIds : plan.modules.map ModuleUsage.moduleId =
    (orderedModules arena.definition).map ModuleDefinition.moduleId
  usedTokens : plan.modules.map ModuleUsage.usedTokens = rs.map Reclaimed.after
  modulePlans : List.Forall₂ (fun (mr : ModuleDefinition F × Reclaimed F) p =>
    p.moduleId = mr.1.moduleId ∧ p.allocation = allocationOf admission.allocations mr.1 ∧
      p.chunks = mr.2.chunks.map fun c => (preparedChunk P admission.counts mr.1 c).val)
    ((orderedModules arena.definition).zip rs) plan.modulePlans
  allocations : plan.allocations = admission.allocations
  contextLimit : plan.contextLimitTokens = request.model.contextLimitTokens
  reservedOutput : plan.reservedOutputTokens = request.model.reservedOutputTokens
  frameworkReserve : plan.frameworkReserveTokens = arena.definition.frameworkReserveTokens

omit [FloatOps F] in
theorem orderedModules_nodup {definition : ArenaDefinition F}
    (h : (definition.modules.map ModuleDefinition.moduleId).Nodup) :
    ((orderedModules definition).map ModuleDefinition.moduleId).Nodup := by
  rw [((orderedModules_perm definition).map _).nodup_iff]
  exact h

section Transact

variable {P : Platform} {arena : ContextLeaseArena F} {env : Env} {request : PrepareRequest F}
  {results : List SemanticResult} {admission : Admission F} {state : ArenaState F}

/-- What an event leaves as it was. -/
structure Transaction.Frame (tx tx' : Transaction F) : Prop where
  finalChunks : tx'.finalChunks = tx.finalChunks
  moduleUsage : tx'.moduleUsage = tx.moduleUsage
  calibrations : tx'.state.calibrations = tx.state.calibrations
  recentUsage : tx'.state.recentUsage = tx.state.recentUsage

omit [FloatOps F] in
theorem Transaction.Frame.refl (tx : Transaction F) : tx.Frame tx := ⟨rfl, rfl, rfl, rfl⟩

omit [FloatOps F] in
theorem Transaction.Frame.trans {tx₁ tx₂ tx₃ : Transaction F} (h : tx₁.Frame tx₂)
    (h' : tx₂.Frame tx₃) : tx₁.Frame tx₃ :=
  ⟨h'.finalChunks.trans h.finalChunks, h'.moduleUsage.trans h.moduleUsage,
    h'.calibrations.trans h.calibrations, h'.recentUsage.trans h.recentUsage⟩

theorem Transaction.push_frame (tx : Transaction F) (requestId eventType : String)
    (payload : List (String × Value)) (priority : String) :
    tx.Frame (tx.push arena env requestId eventType payload priority) := by
  refine ⟨rfl, rfl, ?_, ?_⟩
  · simp only [Transaction.push, calibrations_pushEvent]
  · simp only [Transaction.push, recentUsage_pushEvent]

omit [FloatOps F] in
theorem Transaction.foldl_frame {α : Type} {f : Transaction F → α → Transaction F}
    (hf : ∀ (tx : Transaction F) (a : α), tx.Frame (f tx a)) (l : List α) (tx : Transaction F) :
    tx.Frame (l.foldl f tx) := by
  induction l generalizing tx with
  | nil => exact .refl tx
  | cons a l ih => exact (hf tx a).trans (ih (f tx a))

/-- The lease events touch neither chunks nor usages, nor the calibrations. -/
theorem leaseEvents_frame (P : Platform) (arena : ContextLeaseArena F) (env : Env)
    (request : PrepareRequest F) (requestId : String) (leases : List Lease) (tx : Transaction F) :
    tx.Frame (leaseEvents P arena env requestId request leases tx) := by
  have hreclaim : ∀ (tx : Transaction F) (l : Lease),
      tx.Frame (reclaimLease P arena env requestId (nextLeases leases) l tx) := by
    intro tx l
    simp only [reclaimLease]
    split
    · exact tx.push_frame ..
    · exact .refl tx
  have hgrant : ∀ (tx : Transaction F) (l : Lease),
      tx.Frame (grantLease P arena env requestId l tx) := by
    intro tx l
    simp only [grantLease]
    split
    · exact tx.push_frame ..
    · exact .refl tx
  simp only [leaseEvents]
  refine Transaction.Frame.trans ?_ (Transaction.foldl_frame hgrant _ _)
  refine Transaction.Frame.trans ?_ (Transaction.foldl_frame hreclaim _ _)
  exact tx.push_frame ..

omit [FloatOps F] in
/-- The request just prepared is remembered, and no other request is added. -/
theorem ArenaState.recentUsage_rememberUsage (s : ArenaState F) (requestId : String)
    (usage : RecentUsage) :
    (s.rememberUsage requestId usage).recentUsage requestId = some usage ∧
      ∀ id recent, (s.rememberUsage requestId usage).recentUsage id = some recent →
        id = requestId ∧ recent = usage ∨ s.recentUsage id = some recent := by
  simp only [ArenaState.rememberUsage]
  generalize hothers : s.recentUsageOrder.filter (fun id => id != requestId) = others
  have hnot : requestId ∉ others := by
    rw [← hothers, List.mem_filter]
    simp
  -- the ids that expire come before the end of the order, so none of them is the new one
  have hexpired : requestId ∉ (others ++ [requestId]).take
      ((others ++ [requestId]).length - 2048) := by
    rw [List.take_append_of_le_length (by simp)]
    exact fun hmem => hnot (List.mem_of_mem_take hmem)
  generalize (others ++ [requestId]).take ((others ++ [requestId]).length - 2048) = expired
    at hexpired ⊢
  have hremove : ∀ (l : List String) (m : HashMap RecentUsage), (∀ id ∉ l,
      (l.foldl HashMap.remove m) id = m id) ∧ ∀ id recent,
        (l.foldl HashMap.remove m) id = some recent → m id = some recent := by
    intro l
    induction l with
    | nil => exact fun m => ⟨fun _ _ => rfl, fun _ _ h => h⟩
    | cons a l ih =>
        intro m
        obtain ⟨h₁, h₂⟩ := ih (m.remove a)
        refine ⟨?_, ?_⟩
        · intro id hid
          rw [List.mem_cons, not_or] at hid
          rw [List.foldl_cons, h₁ id hid.2, HashMap.remove_of_ne _ hid.1]
        · intro id recent hsome
          have hmem := h₂ id recent hsome
          by_cases heq : id = a
          · rw [heq, HashMap.remove_self] at hmem
            cases hmem
          · rwa [HashMap.remove_of_ne _ heq] at hmem
  obtain ⟨hkeep, hsome⟩ := hremove expired (s.recentUsage.insert requestId usage)
  refine ⟨by rw [hkeep _ hexpired, HashMap.insert_self], ?_⟩
  intro id recent hid
  have hmem := hsome id recent hid
  by_cases heq : id = requestId
  · rw [heq, HashMap.insert_self, Option.some_inj] at hmem
    exact Or.inl ⟨heq, hmem.symm⟩
  · rw [HashMap.insert_of_ne _ _ heq] at hmem
    exact Or.inr hmem

/-- What a request leaves to be reported on. -/
def recentUsageOf (request : PrepareRequest F) (promptTokens : ℤ) : RecentUsage :=
  ⟨request.model.modelProfileId, request.model.tokenizerId, request.model.tokenizerVersion,
    promptTokens⟩

/-- What a transaction does to the state, as far as calibration goes: the calibrations stay, and
the request is remembered with its count. -/
structure Remembers (request : PrepareRequest F) (plan : PreparedContextPlan F)
    (s s' : ArenaState F) : Prop where
  calibrations : s'.calibrations = s.calibrations
  remembered : s'.recentUsage plan.requestId = some (recentUsageOf request plan.promptTokens)
  others : ∀ id recent, s'.recentUsage id = some recent →
    recent = recentUsageOf request plan.promptTokens ∨ s.recentUsage id = some recent

theorem publish_remembers (P : Platform) (arena : ContextLeaseArena F) (env : Env)
    (request : PrepareRequest F) (requestId : String) (admission : Admission F)
    (rendered : String) (promptTokens usable : ℤ) (modulePlans : List (PreparedModulePlan F))
    (tx : Transaction F) :
    let published := publish P arena env request requestId admission rendered promptTokens usable
      modulePlans tx
    Remembers request published.1 tx.state published.2 := by
  refine ⟨?_, (ArenaState.recentUsage_rememberUsage _ _ _).1, ?_⟩
  · simp only [publish, ArenaState.rememberUsage, Transaction.push, calibrations_pushEvent]
  · intro id recent hid
    rcases (ArenaState.recentUsage_rememberUsage _ _ _).2 id recent hid with ⟨-, hnew⟩ | hold
    · exact Or.inl hnew
    · right
      simpa only [Transaction.push, recentUsage_pushEvent] using hold

/-- A transaction that succeeds. -/
theorem transact_ok {plan : PreparedContextPlan F} {state' : ArenaState F}
    (h : (transact P arena env request results admission state).outcome = .ok (plan, state')) :
    (∃ rs, PreparedRun P arena request results admission plan rs) ∧
      Remembers request plan state state' := by
  simp only [transact, Checked.outcome_bind, Except.bind_eq_ok, Checked.outcome_liftFlagged,
    Except.ok.injEq] at h
  obtain ⟨tx, hloop, _, rfl, h⟩ := h
  have hframe := leaseEvents_frame P arena env request
    (requestName arena request (state.requestSeq + 1)) admission.leases
    { state := { state with requestSeq := state.requestSeq + 1 } }
  obtain ⟨rs, hreclaimed, -, hfinal, ⟨usages, husages, hids, hafter⟩, hcal, hrecent⟩ :=
    moduleLoop_ok P arena env _ _ _ _ _ (orderedModules_nodup arena.validDefinition.ids_nodup)
      hloop
  rw [hframe.moduleUsage, List.nil_append] at husages
  split at h
  · simp at h
  · rename_i hfits
    simp only [Checked.outcome_bind, Checked.outcome_liftFlagged, Checked.outcome_pure,
      Except.bind_eq_ok, Except.ok.injEq] at h
    obtain ⟨_, rfl, h⟩ := h
    -- the plan is built after the loop, from what the loop left in the transaction
    have hpublish : _ = plan := congrArg Prod.fst h
    refine ⟨⟨rs, hreclaimed, ?_, ?_, ?_, ?_, ?_, ?_, ?_, ?_, ?_, ?_⟩, ?_⟩
    · rw [← hpublish]; exact renderedText_eq hfinal
    · rw [← hpublish]; rfl
    · rw [← hpublish]; exact not_lt.1 hfits
    · rw [← hpublish, ← hids, ← husages]; rfl
    · rw [← hpublish, ← hafter, ← husages]; rfl
    · rw [← hpublish]
      simp only [publish, preparedPlan, Transaction.push, Flagged.val_traverse]
      refine forall₂_zip_map hfinal ?_ ?_
      · rw [husages, ← List.length_map, hids, List.length_map]
      · intro m r usage hr
        simp only [modulePlan, Flagged.val_bind, Flagged.val_pure, Flagged.val_traverse, hr,
          Option.getD_some, and_self]
    · rw [← hpublish]; rfl
    · rw [← hpublish]; rfl
    · rw [← hpublish]; rfl
    · rw [← hpublish]; rfl
    · have hremembers := publish_remembers P arena env request
        (requestName arena request (state.requestSeq + 1)) admission
        (renderedText arena.definition tx.finalChunks)
        (admission.counts.countText P (renderedText arena.definition tx.finalChunks)).val
        (P.arith.sub admission.inputBudget arena.definition.frameworkReserveTokens)
        (Flagged.traverse (fun p => modulePlan P admission.counts admission.allocations
          tx.finalChunks p.1 p.2) ((orderedModules arena.definition).zip tx.moduleUsage)).val
        { tx with state := { tx.state with activeLeases := nextLeases admission.leases } }
      rw [h] at hremembers
      refine ⟨hremembers.calibrations.trans (hcal.trans hframe.calibrations),
        hremembers.remembered, ?_⟩
      intro id recent hid
      rcases hremembers.others id recent hid with hnew | hold
      · exact Or.inl hnew
      · right
        rw [← hframe.recentUsage, ← hrecent]
        exact hold

end Transact

/-! ### Calls -/

section Calls

variable {P : Platform} {arena : ContextLeaseArena F} {env : Env} {request : PrepareRequest F}
  {results : List SemanticResult} {counter : Option TokenCounter}

/-- What a successful call establishes, from the state `s` to the state `s'`. -/
structure PreparedCall (P : Platform) (arena : ContextLeaseArena F) (request : PrepareRequest F)
    (results : List SemanticResult) (counter : Option TokenCounter) (multiplier : F)
    (plan : PreparedContextPlan F) (s s' : ArenaState F) : Prop where
  run : ∃ admission rs, Admitted P arena request counter multiplier admission ∧
    PreparedRun P arena request results admission plan rs
  remembers : Remembers request plan s s'

/-- A call fails and leaves the state as it is, or it succeeds and is a `PreparedCall`. -/
theorem prepareLocked_cases (P : Platform) (arena : ContextLeaseArena F) (env : Env)
    (request : PrepareRequest F) (results : List SemanticResult) (counter : Option TokenCounter)
    (multiplier : F) (s : ArenaState F) :
    (∃ e, prepareLocked P arena env request results counter multiplier s = (.error e, s)) ∨
      ∃ plan s', prepareLocked P arena env request results counter multiplier s = (.ok plan, s') ∧
        PreparedCall P arena request results counter multiplier plan s s' := by
  simp only [prepareLocked]
  split
  · rename_i plan transaction hvalid
    right
    refine ⟨plan, _, rfl, ?_⟩
    have hok := (ensureValid_eq_ok.1 hvalid).1
    rw [Checked.outcome_bind, Except.bind_eq_ok] at hok
    obtain ⟨admission, hadmitted, htransact⟩ := hok
    obtain ⟨⟨rs, hrun⟩, hremembers⟩ := transact_ok htransact
    refine ⟨⟨admission, rs, admit_ok.1 hadmitted, hrun⟩, ?_, ?_, ?_⟩
    · rw [ArenaState.calibrations_commitTransaction]
      exact hremembers.calibrations
    · rw [ArenaState.recentUsage_commitTransaction]
      exact hremembers.remembered
    · rw [ArenaState.recentUsage_commitTransaction]
      exact hremembers.others
  · exact Or.inl ⟨_, rfl⟩

/-- A successful call, by its result. -/
theorem prepareWithResults_ok {plan : PreparedContextPlan F} {s : ArenaState F}
    (h : (prepareWithResults P arena env request results counter s).1 = .ok plan) :
    PreparedCall P arena request results counter (safetyMultiplier s request.model) plan s
      (prepareWithResults P arena env request results counter s).2 := by
  unfold prepareWithResults at h ⊢
  rcases prepareLocked_cases P arena env request results counter
    (safetyMultiplier s request.model) s with ⟨e, heq⟩ | ⟨plan', s', heq, hcall⟩
  · rw [heq] at h
    cases h
  · rw [heq] at h ⊢
    cases h
    exact hcall

/-- A successful commit is a successful preparation. -/
theorem prepareCommit_ok {plan : PreparedContextPlan F} {s : ArenaState F}
    (h : (prepareCommit P arena env request results counter s).1 = .ok plan) :
    PreparedCall P arena request results counter (safetyMultiplier s request.model) plan s
      (prepareCommit P arena env request results counter s).2 := by
  unfold prepareCommit at h ⊢
  split at h
  · cases h
  · split at h
    · cases h
    · exact prepareWithResults_ok h

/-- What a successful call has done, whether it was a `prepare` or a `prepare_commit`. -/
theorem successful_call {plan : PreparedContextPlan F} {s : ArenaState F}
    (h : (prepare P arena env request counter s).1 = .ok plan ∨
      (prepareCommit P arena env request results counter s).1 = .ok plan) :
    ∃ results' a rs, Admitted P arena request counter (safetyMultiplier s request.model) a ∧
      PreparedRun P arena request results' a plan rs := by
  rcases h with h | h
  · obtain ⟨a, rs, ha, hrun⟩ := (prepareWithResults_ok h).run
    exact ⟨[], a, rs, ha, hrun⟩
  · obtain ⟨a, rs, ha, hrun⟩ := (prepareCommit_ok h).run
    exact ⟨results, a, rs, ha, hrun⟩

end Calls

end ContextLease
