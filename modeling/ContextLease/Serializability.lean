/-
Calls that overlap with usage reports.

A call holds the lock twice: it reads the multiplier of its model, lets go of the lock, and takes it
again to count, to allocate and to commit.  In between any other call and any usage report may come.
A call that counts with a host counter does not look at the multiplier; any other call returns what
it would have returned in one piece just before its commit as long as no report in between has
moved its multiplier.  A report that does move it leaves the call with counts of one calibration and
a report of another.

Main definitions:

* `World`, `Action`, `World.step` — the calls between their two critical sections;
* `Serialized` — a call that returns what a call in one piece would return.

Main results:

* `prepareLocked_of_counter` — with a host counter the multiplier does not matter;
* `calls_serialized_iff_steady` — when every call of a run is serialized;
* `disturbed_call` — a report that moves a multiplier in between.
-/

import ContextLease.RunSpec
import ContextLease.Interleaving

set_option relaxedAutoImplicit false
set_option autoImplicit false

namespace ContextLease

open MachineNumbers RustText

variable {F : Type} [FloatOps F]

/-! ### Calls with a host counter -/

section Counter

variable {P : Platform}

/-- Settling depends on the counts of an admission, and not on where they come from. -/
theorem settle_alike (arena : ContextLeaseArena F) (results : List SemanticResult)
    {admission : Admission F} {counts : CountContext F}
    (h : CountContext.Alike P admission.counts counts) :
    settle P arena results { admission with counts := counts } =
      settle P arena results admission := by
  have hmodules : ∀ ms, settleModules P counts admission.contributions admission.allocations
      (semanticResultsOf results) ms = settleModules P admission.counts admission.contributions
        admission.allocations (semanticResultsOf results) ms := by
    intro ms
    induction ms with
    | nil => rfl
    | cons m ms ih => simp only [settleModules, settleModule, h.reclaimModule, h.countChunks, ih]
  simp only [settle, hmodules, ← h.countText, ← h.preparedChunk, usableBudget]
  rfl

/-- An admission with another context. -/
theorem admitRequest_alike (arena : ContextLeaseArena F) {request : PrepareRequest F}
    {counter : Option TokenCounter} {multiplier multiplier' : F}
    (h : CountContext.Alike P ⟨request.model.tokenizerId, counter, multiplier⟩
      ⟨request.model.tokenizerId, counter, multiplier'⟩) :
    admitRequest P arena request counter multiplier' = (do
      let admission ← admitRequest P arena request counter multiplier
      pure { admission with counts := ⟨request.model.tokenizerId, counter, multiplier'⟩ }) := by
  simp only [admitRequest, bind_assoc, pure_bind, h.renderSeparatorTokens, h.demandsOf]

/-- With a host counter a decision does not depend on the multiplier, but for the context it
keeps. -/
theorem decision_of_counter (arena : ContextLeaseArena F) {request : PrepareRequest F}
    (results : List SemanticResult) {counter : Option TokenCounter}
      (hcounter : counter.isSome = true)
    (multiplier multiplier' : F) :
    decision P arena request results counter multiplier' =
      (decision P arena request results counter multiplier).map fun decided =>
        ({ decided.1 with counts := ⟨request.model.tokenizerId, counter, multiplier'⟩ },
          decided.2) := by
  have halike := CountContext.Alike.of_counter P request.model.tokenizerId hcounter multiplier
    multiplier'
  rw [decision, decision, ← ensureValid_bind_pure]
  congr 1
  rw [admitRequest_alike arena halike]
  simp only [bind_assoc, pure_bind]
  refine Checked.bind_congr_ok ?_
  intro admission hadmitted
  have hcounts := (admit_ok.1 hadmitted).counts
  rw [← hcounts] at halike
  rw [settle_alike arena results halike]

/-- With a host counter the multiplier does not matter. -/
theorem prepareLocked_of_counter (arena : ContextLeaseArena F) (env : Env)
    {request : PrepareRequest F} (results : List SemanticResult) {counter : Option TokenCounter}
    (hcounter : counter.isSome = true) (multiplier multiplier' : F) (s : ArenaState F) :
    prepareLocked P arena env request results counter multiplier' s =
      prepareLocked P arena env request results counter multiplier s := by
  rw [prepareLocked_eq, prepareLocked_eq, decision_of_counter arena results hcounter multiplier]
  cases decision P arena request results counter multiplier with
  | error e => rfl
  | ok decided => rfl

end Counter

/-! ### Calls between their critical sections -/

/-- The calls at work on one arena: the state behind the lock, and what the calls have read that
have left their first critical section and not yet taken the lock again. -/
structure World (F : Type) where
  state : ArenaState F := {}
  reading : ℕ → Option F := fun _ => none

/-- What may happen next: a call passes its first or its second critical section, or usage is
reported. -/
inductive Action (F : Type)
  | enter (i : ℕ)
  | finish (i : ℕ)
  | record (env : Env) (observation : UsageObservation)

section World

variable (P : Platform) (arena : ContextLeaseArena F) (calls : ℕ → Call F)

/-- The multiplier a call finds in a state. -/
def World.multiplier (w : World F) (i : ℕ) : F :=
  safetyMultiplier w.state (calls i).request.model

/-- The second critical section of a call that has read `multiplier`. -/
def World.finishing (w : World F) (i : ℕ) (multiplier : F) :
    Result (PreparedContextPlan F) × ArenaState F :=
  prepareLocked P arena (calls i).env (calls i).request (calls i).results (calls i).counter
    multiplier w.state

/-- What happens in a step. -/
def World.step (w : World F) : Action F → World F
  | .enter i =>
      match w.reading i with
      | none => { w with
          reading := Function.update w.reading i (some (w.multiplier calls i)) }
      | some _ => w
  | .finish i =>
      match w.reading i with
      | none => w
      | some multiplier =>
          ⟨(w.finishing P arena calls i multiplier).2, Function.update w.reading i none⟩
  | .record env observation =>
      { w with state := (recordUsage arena env observation w.state).2 }

/-- What has happened after a sequence of steps. -/
def World.run (w : World F) (actions : List (Action F)) : World F :=
  actions.foldl (World.step P arena calls) w

/-- The multiplier that a plan reports its tokens with. -/
def reportedMultiplier (calibration : Option (UsageCalibration F)) : F :=
  match calibration with
  | some calibration => calibration.safetyMultiplier
  | none => FloatOps.ofRat 1

/-- If the call `i` takes the lock again now and succeeds, it returns what a call in one piece would
return in this state; and the calibration it reports is the one its tokens were counted with. -/
def Serialized (w : World F) (i : ℕ) : Prop :=
  ∀ multiplier plan, w.reading i = some multiplier →
    (w.finishing P arena calls i multiplier).1 = .ok plan →
    (∃ plan', (prepareWithResults P arena (calls i).env (calls i).request (calls i).results
        (calls i).counter w.state).1 = .ok plan' ∧
      plan.rendered = plan'.rendered ∧ plan.promptTokens = plan'.promptTokens ∧
      plan.allocations = plan'.allocations ∧ plan.leases = plan'.leases ∧
      plan.calibration = plan'.calibration) ∧
    ((calls i).counter = none →
      reportedMultiplier plan.calibration = multiplier ∧
        reportedMultiplier plan.snapshot.calibration = multiplier)

/-- The call `i`, which takes the lock again now, counts with a host counter or finds the multiplier
it has read. -/
def Steady (w : World F) (i : ℕ) : Prop :=
  (calls i).counter.isSome = true ∨ w.reading i = some (w.multiplier calls i)

variable {P arena calls}

/-- The calibration a successful call reports is that of the state it commits to. -/
theorem reported_of_finishing {w : World F} {i : ℕ} {multiplier : F}
    {plan : PreparedContextPlan F}
    (h : (w.finishing P arena calls i multiplier).1 = .ok plan) :
    reportedMultiplier plan.calibration = w.multiplier calls i ∧
      reportedMultiplier plan.snapshot.calibration = w.multiplier calls i := by
  rw [World.finishing, prepareLocked_eq] at h
  split at h
  · obtain rfl := Except.ok.inj h
    exact ⟨rfl, rfl⟩
  · cases h

/-- A successful call is serialized exactly when it is steady. -/
theorem serialized_iff {w : World F} {i : ℕ} :
    Serialized P arena calls w i ↔ ∀ multiplier plan, w.reading i = some multiplier →
      (w.finishing P arena calls i multiplier).1 = .ok plan → Steady calls w i := by
  constructor
  · intro h multiplier plan hread hplan
    cases hcounter : (calls i).counter with
    | some counter => exact Or.inl (by rw [hcounter]; rfl)
    | none =>
        right
        rw [hread, ← (reported_of_finishing hplan).1,
          ((h multiplier plan hread hplan).2 hcounter).1]
  · intro h multiplier plan hread hplan
    have hsame : w.finishing P arena calls i (w.multiplier calls i) =
        w.finishing P arena calls i multiplier := by
      rcases h multiplier plan hread hplan with hcounter | hsteady
      · exact prepareLocked_of_counter arena _ _ hcounter multiplier _ _
      · rw [hread, Option.some_inj] at hsteady
        rw [hsteady]
    refine ⟨⟨plan, ?_, rfl, rfl, rfl, rfl, rfl⟩, fun hcounter => ?_⟩
    · rw [← hplan, ← hsame]
      rfl
    · rcases h multiplier plan hread hplan with hsome | hsteady
      · rw [hcounter] at hsome
        cases hsome
      · rw [hread, Option.some_inj] at hsteady
        rw [hsteady]
        exact reported_of_finishing hplan

/-- In any interleaving of calls and usage reports, every call that succeeds returns what it would
have returned in one piece just before its commit, and reports the calibration it has counted with,
exactly when every such call counts with a host counter or finds, when it takes the lock again, the
multiplier it has read. -/
theorem calls_serialized_iff_steady (P : Platform) (arena : ContextLeaseArena F)
    (calls : ℕ → Call F) (actions : List (Action F)) :
    (∀ before i after, actions = before ++ .finish i :: after →
        Serialized P arena calls (World.run P arena calls {} before) i) ↔
      ∀ before i after, actions = before ++ .finish i :: after →
        ∀ multiplier plan, (World.run P arena calls {} before).reading i = some multiplier →
          ((World.run P arena calls {} before).finishing P arena calls i multiplier).1 = .ok plan →
            Steady calls (World.run P arena calls {} before) i := by
  constructor
  · exact fun h before i after hactions => serialized_iff.1 (h before i after hactions)
  · exact fun h before i after hactions => serialized_iff.2 (h before i after hactions)

end World

/-! ### A report that moves the multiplier in between -/

section Example

/-- A short request, again and again. -/
def shortCalls : ℕ → Call ℚ := fun _ =>
    { env := default, request := historyRequest [pinnedGreeting] }

/-- The second call has read its multiplier when a report on the first call doubles it. -/
def disturbedActions : List (Action ℚ) :=
  [.enter 0, .finish 0, .enter 1, .record default ⟨"notes:1", 2⟩]

/-- The world in which the second call takes the lock again. -/
def disturbedWorld : World ℚ :=
  World.run (Library.ascii id).release summaryArena shortCalls {} disturbedActions

theorem disturbedWorld_reading : disturbedWorld.reading 1 = some 1 := by decide +kernel

/-- The second call counts its greeting as one token and reports a multiplier of two. -/
theorem disturbedWorld_finishing :
    ((disturbedWorld.finishing (Library.ascii id).release summaryArena shortCalls 1 1).1.map
      fun plan => (plan.promptTokens, reportedMultiplier plan.calibration)).toOption =
        some (1, 2) := by
  decide +kernel

/-- A call in one piece counts two tokens. -/
theorem disturbedWorld_onePiece :
    ((prepareWithResults (Library.ascii id).release summaryArena (shortCalls 1).env
      (shortCalls 1).request (shortCalls 1).results (shortCalls 1).counter
        disturbedWorld.state).1.map
      fun plan => (plan.promptTokens, reportedMultiplier plan.calibration)).toOption =
        some (2, 2) := by
  decide +kernel

/-- A report that doubles the multiplier between the two critical sections of a call makes it
return what no call in one piece would return. -/
theorem disturbed_call :
    ¬ ∀ before i after, disturbedActions ++ [.finish 1] = before ++ .finish i :: after →
      Serialized (Library.ascii id).release summaryArena shortCalls
        (World.run (Library.ascii id).release summaryArena shortCalls {} before) i := by
  intro h
  obtain ⟨plan, hplan, hfields⟩ := exists_ok_of_map disturbedWorld_finishing
  obtain ⟨⟨plan', hplan', -, htokens, -⟩, -⟩ :=
    h disturbedActions 1 [] rfl 1 plan disturbedWorld_reading hplan
  have honePiece := disturbedWorld_onePiece
  rw [disturbedWorld, hplan'] at honePiece
  have htokens' : plan'.promptTokens = 2 := congrArg Prod.fst (Option.some_inj.1 honePiece)
  have hone : plan.promptTokens = 1 := congrArg Prod.fst hfields
  rw [hone, htokens'] at htokens
  cases htokens

end Example

end ContextLease
