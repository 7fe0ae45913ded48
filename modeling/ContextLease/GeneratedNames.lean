/-
The names that an arena generates.

A request without a name of its own is named after the arena and the number of the call.  Generated
names are distinct from each other, because the number counts the calls that have succeeded.  They
share their form with the names of the hosts, though, and nothing keeps a host from giving the name
that a later call will get: then the later call replaces what the arena remembers of the earlier
one.

Main definitions:

* `hostName`, `generatedName` — the name a host gives, and the one the arena generates;
* `hostNames` — the names that hosts gave to the calls of a run that succeeded;
* `NameFresh`, `NameNotTaken` — what is asked of a step, and the condition for it.

Main results:

* `generatedName_injective` — generated names are distinct;
* `NamesOf.step` — the names of the plans of a run are generated or given by hosts;
* `generated_names_fresh_iff` — the generated names of a run are fresh exactly when no host gave
  them to an earlier call.
-/

import ContextLease.UsageQueue
import ContextLease.EventInvariant
import Std.Data.String.ToNat

set_option relaxedAutoImplicit false
set_option autoImplicit false

namespace ContextLease

open MachineNumbers RustText

variable {F : Type} [FloatOps F]

/-! ### Names -/

omit [FloatOps F] in
/-- The name that a host gives to a request, unless it is blank. -/
def hostName (request : PrepareRequest F) : Option String :=
  request.requestId.filter fun id => !isBlank id

/-- The name that an arena generates for a call with a number. -/
def generatedName (arena : ContextLeaseArena F) (seq : ℕ) : String :=
  arena.definition.arenaId ++ ":" ++ toString seq

theorem requestName_eq (arena : ContextLeaseArena F) (request : PrepareRequest F) (seq : ℕ) :
    requestName arena request seq = (hostName request).getD (generatedName arena seq) := by
  rw [requestName, hostName]
  cases request.requestId with
  | none => rfl
  | some id => cases hblank : isBlank id <;> simp [Option.filter, hblank, generatedName]

theorem generatedName_injective (arena : ContextLeaseArena F) :
    Function.Injective (generatedName arena) := by
  intro n m h
  have hlists := congrArg String.toList h
  simp only [generatedName, String.toList_append, List.append_cancel_left_eq] at hlists
  exact Nat.repr_injective (String.toList_inj.1 hlists)

/-! ### The names of a run -/

section Runs

variable (P : Platform) (arena : ContextLeaseArena F)

/-- The name that a host gives to an operation, if it prepares a plan. -/
def givenName (s : ArenaState F) (op : Op F) : Option String :=
  (planOf P arena s op).bind fun _ => op.call.bind fun call => hostName call.request

/-- The names that hosts gave to the calls of a run that succeeded. -/
def hostNames : ArenaState F → List (Op F) → List String
  | _, [] => []
  | s, op :: ops => (givenName P arena s op).toList ++ hostNames (step P arena s op) ops

theorem hostNames_append (s : ArenaState F) (ops ops' : List (Op F)) :
    hostNames P arena s (ops ++ ops') =
      hostNames P arena s ops ++ hostNames P arena (run P arena s ops) ops' := by
  induction ops generalizing s with
  | nil => rfl
  | cons op ops ih =>
      rw [List.cons_append, hostNames, hostNames, ih, List.append_assoc]
      rfl

theorem plans_append (s : ArenaState F) (ops ops' : List (Op F)) :
    plans P arena s (ops ++ ops') =
      plans P arena s ops ++ plans P arena (run P arena s ops) ops' := by
  induction ops generalizing s with
  | nil => rfl
  | cons op ops ih =>
      rw [List.cons_append, plans, plans, ih, List.append_assoc]
      rfl

variable {P arena}

/-- A plan carries the name that its host gives, or the next generated one. -/
theorem requestId_of_planOf {s : ArenaState F} {op : Op F} {plan : PreparedContextPlan F}
    (hplan : planOf P arena s op = some plan) :
    plan.requestId = (givenName P arena s op).getD (generatedName arena (s.requestSeq + 1)) := by
  obtain ⟨call, admission, settled, hcall, -, rfl, -⟩ := call_of_planOf hplan
  rw [givenName, hplan, hcall]
  exact requestName_eq arena call.request (s.requestSeq + 1)

variable (P arena)

/-- The plans of a run carry names that hosts gave and numbers of calls that have succeeded. -/
theorem requestId_of_run (ops : List (Op F)) : ∀ plan ∈ plans P arena {} ops,
    plan.requestId ∈ hostNames P arena {} ops ∨
      ∃ n ≤ (plans P arena {} ops).length, plan.requestId = generatedName arena n := by
  induction ops using List.reverseRecOn with
  | nil => exact fun plan hplan => absurd hplan List.not_mem_nil
  | append_singleton ops op ih =>
      intro plan hplan
      have hcount := (EventInvariant.of_run P arena ops).requests
      rw [plans_append, hostNames_append]
      rw [plans_append, List.mem_append] at hplan
      rcases hplan with hplan | hplan
      · rcases ih plan hplan with hgiven | ⟨n, hn, hname⟩
        · exact Or.inl (List.mem_append_left _ hgiven)
        · exact Or.inr ⟨n, by rw [List.length_append]; omega, hname⟩
      · simp only [plans, List.append_nil, Option.mem_toList] at hplan
        have hname := requestId_of_planOf hplan
        cases hgiven : givenName P arena (run P arena {} ops) op with
        | some name =>
            rw [hgiven, Option.getD_some] at hname
            refine Or.inl (List.mem_append_right _ ?_)
            rw [hostNames, hgiven, hname]
            exact List.mem_append_left _ (List.mem_singleton.2 rfl)
        | none =>
            rw [hgiven, Option.getD_none, hcount] at hname
            refine Or.inr ⟨_, ?_, hname⟩
            rw [plans, plans, hplan, List.length_append]
            exact le_rfl

/-- What a host gave to a call that succeeded is the name of its plan. -/
theorem plan_of_hostName (ops : List (Op F)) :
    ∀ name ∈ hostNames P arena {} ops, ∃ plan ∈ plans P arena {} ops, plan.requestId = name := by
  induction ops using List.reverseRecOn with
  | nil => exact fun name hname => absurd hname List.not_mem_nil
  | append_singleton ops op ih =>
      intro name hname
      rw [plans_append]
      rw [hostNames_append, List.mem_append] at hname
      rcases hname with hname | hname
      · obtain ⟨plan, hplan, hid⟩ := ih name hname
        exact ⟨plan, List.mem_append_left _ hplan, hid⟩
      · simp only [hostNames, List.append_nil, Option.mem_toList] at hname
        cases hplan : planOf P arena (run P arena {} ops) op with
        | none =>
            rw [givenName, hplan] at hname
            cases hname
        | some plan =>
            refine ⟨plan, List.mem_append_right _ ?_, ?_⟩
            · rw [plans, hplan]
              exact List.mem_append_left _ (List.mem_singleton.2 rfl)
            · rw [requestId_of_planOf hplan, hname, Option.getD_some]

/-! ### Fresh names -/

/-- The name that the arena generates for the plan of an operation after a run is not remembered,
and no earlier plan carries it. -/
def NameFresh (done : List (Op F)) (op : Op F) : Prop :=
  ∀ plan, planOf P arena (run P arena {} done) op = some plan →
    givenName P arena (run P arena {} done) op = none →
      (run P arena {} done).recentUsage plan.requestId = none ∧
        ∀ earlier ∈ plans P arena {} done, earlier.requestId ≠ plan.requestId

/-- If the arena names the plan of an operation after a run, then no host gave the name of that
number to an earlier call. -/
def NameNotTaken (done : List (Op F)) (op : Op F) : Prop :=
  (planOf P arena (run P arena {} done) op).isSome = true →
    givenName P arena (run P arena {} done) op = none →
      generatedName arena ((plans P arena {} done).length + 1) ∉ hostNames P arena {} done

variable {P arena}

theorem nameFresh_iff (done : List (Op F)) (op : Op F) :
    NameFresh P arena done op ↔ NameNotTaken P arena done op := by
  have hcount := (EventInvariant.of_run P arena done).requests
  cases hplan : planOf P arena (run P arena {} done) op with
  | none => simp [NameFresh, NameNotTaken, hplan]
  | some plan =>
      by_cases hgiven : givenName P arena (run P arena {} done) op = none
      · have hname := requestId_of_planOf hplan
        rw [hgiven, Option.getD_none, hcount] at hname
        constructor
        · intro hfresh _ _ htaken
          obtain ⟨earlier, hearlier, hid⟩ := plan_of_hostName P arena done _ htaken
          exact (hfresh plan hplan hgiven).2 earlier hearlier (hid.trans hname.symm)
        · intro hfree plan' hplan' _
          obtain rfl := Option.some_inj.1 (hplan.symm.trans hplan')
          have hearlier : ∀ earlier ∈ plans P arena {} done,
              earlier.requestId ≠ plan.requestId := by
            intro earlier hearlier hid
            rcases requestId_of_run P arena done earlier hearlier with hhost | ⟨n, hn, hgen⟩
            · rw [hid, hname] at hhost
              exact hfree (by rw [hplan]; rfl) hgiven hhost
            · -- generated numbers do not repeat
              have heq := generatedName_injective arena (hgen.symm.trans (hid.trans hname))
              omega
          refine ⟨?_, hearlier⟩
          refine Option.eq_none_iff_forall_not_mem.2 ?_
          intro usage husage
          obtain ⟨earlier, hlatest, -⟩ := latestPlan_of_run P arena done _ usage husage
          exact hearlier earlier (List.mem_reverse.1 (List.mem_of_find?_eq_some hlatest))
            (beq_iff_eq.1 (List.find?_some hlatest :))
      · simp [NameFresh, NameNotTaken, hgiven]

/-- Along every run of calls and usage reports, every name that the arena generates is fresh exactly
when, whenever it generates one, no host gave the name with the number of the call to an earlier
call of the run that succeeded. -/
theorem generated_names_fresh_iff (P : Platform) (arena : ContextLeaseArena F)
    (ops : List (Op F)) :
    (∀ done op, done ++ [op] <+: ops → NameFresh P arena done op) ↔
      ∀ done op, done ++ [op] <+: ops → NameNotTaken P arena done op :=
  forall_congr' fun done => forall_congr' fun op => imp_congr_right fun _ => nameFresh_iff done op

end Runs

/-- The first call is given the name of the second one, which the arena then gives again. -/
theorem given_name_generated_again :
    ¬ NameFresh (Library.ascii id).release exampleArena
      [.prepare default { exampleRequest with requestId := some "notes:2" } none]
      (.prepare default exampleRequest none) := by
  have htaken : ((planOf (Library.ascii id).release exampleArena
      (run (Library.ascii id).release exampleArena {}
        [.prepare default { exampleRequest with requestId := some "notes:2" } none])
      (.prepare default exampleRequest none)).isSome = true ∧
    givenName (Library.ascii id).release exampleArena
      (run (Library.ascii id).release exampleArena {}
        [.prepare default { exampleRequest with requestId := some "notes:2" } none])
      (.prepare default exampleRequest none) = none) ∧
    generatedName exampleArena ((plans (Library.ascii id).release exampleArena {}
      [.prepare default { exampleRequest with requestId := some "notes:2" } none]).length + 1) ∈
      hostNames (Library.ascii id).release exampleArena {}
        [.prepare default { exampleRequest with requestId := some "notes:2" } none] := by
    decide +kernel
  rw [nameFresh_iff]
  exact fun hfree => hfree htaken.1.1 htaken.1.2 htaken.2

end ContextLease
