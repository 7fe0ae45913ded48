/-
Calls over the foreign interface.

A call over the foreign interface counts with the callback of its handle.  It lowers a flag that
belongs to the handle, runs the call of the kernel, in which a failing callback raises the flag, and
then reads the flag: if it is raised the call reports an error, whatever the kernel has returned.
The kernel decides about its commit by a flag of its own, so a call alone never reports an error
after a commit.  But the flag of the handle is shared: the failing callback of another call, between
the last time the flag was lowered and the time it is read, makes a committed call report an error.

Main definitions:

* `hostCount`, `ForeignCall` — the callback of a handle, and a call over the interface;
* `Handle`, `HandleStep`, `Handle.step`, `Handle.run` — a handle and the three steps of its calls;
* `ErrorMeansUnchanged` — a call that reports an error has changed nothing.

Main results:

* `failed_iff` — when the flag of a handle is raised;
* `errors_mean_unchanged_iff` — the schedules in which no call reports an error after a commit;
* `overlapping_failure` — a schedule in which one does.
-/

import ContextLease.Committed
import ContextLease.Interleaving

set_option relaxedAutoImplicit false
set_option autoImplicit false

namespace ContextLease

open MachineNumbers RustText

variable {F : Type} [FloatOps F]

/-! ### Calls -/

/-- A text as it is passed to a callback, without NUL characters. -/
def replaceNul (text : String) : String :=
  String.ofList (text.toList.map fun c => if c.toNat = 0 then Char.ofNat 0xFFFD else c)

/-- The source's `HostTokenCounter::count_text`. -/
def hostCount (callback : String → ℤ) : TokenCounter := fun text =>
  let result := callback (replaceNul text)
  if result < 0 then -1 else result

omit [FloatOps F] in
/-- A call over the interface, and how the callback answers while it runs. -/
structure ForeignCall (F : Type) where
  env : Env
  request : PrepareRequest F
  callback : String → ℤ

section Handles

variable (P : Platform) (arena : ContextLeaseArena F)

/-- The call of the kernel. -/
def ForeignCall.prepare (call : ForeignCall F) (s : ArenaState F) :
    Result (PreparedContextPlan F) × ArenaState F :=
  ContextLease.prepare P arena call.env call.request (some (hostCount call.callback)) s

/-- Whether the callback fails in the call of the kernel. -/
def ForeignCall.raises (call : ForeignCall F) (s : ArenaState F) : Bool :=
  Checked.failed do
    let admission ← admitRequest P arena call.request (some (hostCount call.callback))
      (safetyMultiplier s call.request.model)
    transact P arena call.env call.request [] admission s.beginTransaction

/-- Where a call stands: it has not started, it has lowered the flag, or the call of the kernel has
returned and taken the state from `before` to `after`. -/
inductive Phase (F : Type)
  | idle
  | reset
  | ran (before after : ArenaState F) (result : Result (PreparedContextPlan F))

/-- A handle with a callback: the state of its arena, its flag, and its calls. -/
structure Handle (F : Type) where
  core : ArenaState F
  failed : Bool := false
  phase : ℕ → Phase F := fun _ => .idle

/-- The three steps of a call. -/
inductive HandleStep
  | reset (i : ℕ)
  | core (i : ℕ)
  | read (i : ℕ)
  deriving DecidableEq

variable (calls : ℕ → ForeignCall F)

/-- A step of one of the calls, if it is its turn. -/
def Handle.step (h : Handle F) : HandleStep → Option (Handle F)
  | .reset i =>
      match h.phase i with
      | .idle => some { h with failed := false, phase := Function.update h.phase i .reset }
      | _ => none
  | .core i =>
      match h.phase i with
      | .reset =>
          let prepared := (calls i).prepare P arena h.core
          some
            { core := prepared.2
              failed := h.failed || (calls i).raises P arena h.core
              phase := Function.update h.phase i (.ran h.core prepared.2 prepared.1) }
      | _ => none
  | .read i =>
      match h.phase i with
      | .ran _ _ _ => some { h with phase := Function.update h.phase i .idle }
      | _ => none

/-- The steps of a schedule. -/
def Handle.run (h : Handle F) : List HandleStep → Option (Handle F)
  | [] => some h
  | step :: steps => (h.step P arena calls step).bind fun h => h.run steps

theorem Handle.run_concat (h : Handle F) (steps : List HandleStep) (step : HandleStep) :
    h.run P arena calls (steps ++ [step]) =
      (h.run P arena calls steps).bind fun h => h.step P arena calls step := by
  induction steps generalizing h with
  | nil =>
      rw [List.nil_append, run, run, Option.bind_some]
      cases h.step P arena calls step <;> rfl
  | cons first steps ih =>
      rw [List.cons_append, run, run, Option.bind_assoc]
      exact congrArg _ (funext ih)

omit [FloatOps F] in
/-- If the call `i` reads the flag now and reports an error, it has changed nothing. -/
def ErrorMeansUnchanged (h : Handle F) (i : ℕ) : Prop :=
  ∀ before after result, h.phase i = .ran before after result →
    (h.failed = true ∨ ∃ e, result = .error e) → after = before

omit [FloatOps F] in
/-- The call `i` has been committed, and has not yet read the flag. -/
def Committed (h : Handle F) (i : ℕ) : Prop :=
  ∃ before after plan, h.phase i = .ran before after (.ok plan)

variable {P arena calls}

/-! ### What a call of the kernel does -/

/-- A call of the kernel that fails changes nothing. -/
theorem ForeignCall.prepare_error {call : ForeignCall F} {s : ArenaState F} {e : ContextLeaseError}
    (h : (call.prepare P arena s).1 = .error e) : (call.prepare P arena s).2 = s := by
  unfold ForeignCall.prepare at h ⊢
  rcases prepare_cases P arena call.env call.request (some (hostCount call.callback)) s with
    ⟨e', heq⟩ | ⟨plan, s', heq, -⟩
  · rw [heq]
  · rw [heq] at h
    cases h

/-- A call of the kernel that succeeds counts its request. -/
theorem ForeignCall.prepare_ok {call : ForeignCall F} {s : ArenaState F}
    {plan : PreparedContextPlan F} (h : (call.prepare P arena s).1 = .ok plan) :
    (call.prepare P arena s).2.requestSeq = s.requestSeq + 1 ∧ call.raises P arena s = false := by
  unfold ForeignCall.prepare ContextLease.prepare prepareWithResults at h ⊢
  constructor
  · rw [prepareLocked_eq] at h ⊢
    split at h
    · simp only [ArenaState.commitTransaction_eq]
      rfl
    · cases h
  · simp only [prepareLocked] at h
    split at h
    · rename_i hvalid
      exact (ensureValid_eq_ok.1 hvalid).2
    · cases h

/-! ### The phases and the flag -/

/-- A call that has run has changed nothing and failed, or has changed the state and succeeded. -/
def Handle.Ran (h : Handle F) : Prop :=
  ∀ i before after result, h.phase i = .ran before after result →
    ((∃ e, result = .error e) ∧ after = before) ∨ ((∃ plan, result = .ok plan) ∧ after ≠ before)

omit [FloatOps F] in
/-- A call may enter a phase that it has not run in, or has run in as it should. -/
theorem Handle.Ran.update {h h' : Handle F} (hran : h.Ran) {j : ℕ} {phase : Phase F}
    (hphases : h'.phase = Function.update h.phase j phase)
    (hphase : ∀ before after result, phase = .ran before after result →
      ((∃ e, result = .error e) ∧ after = before) ∨
        ((∃ plan, result = .ok plan) ∧ after ≠ before)) : h'.Ran := by
  intro i before after result hi
  rw [hphases] at hi
  by_cases hij : i = j
  · rw [hij, Function.update_self] at hi
    exact hphase before after result hi
  · rw [Function.update_of_ne hij] at hi
    exact hran i before after result hi

theorem Handle.Ran.step {h h' : Handle F} (hran : h.Ran) {step : HandleStep}
    (hstep : h.step P arena calls step = some h') : h'.Ran := by
  cases step with
  | reset j =>
      cases hj : h.phase j <;> simp only [Handle.step, hj, reduceCtorEq, Option.some_inj] at hstep
      subst hstep
      refine hran.update rfl ?_
      intro before after result hreset
      cases hreset
  | core j =>
      cases hj : h.phase j <;> simp only [Handle.step, hj, reduceCtorEq, Option.some_inj] at hstep
      subst hstep
      refine hran.update rfl ?_
      intro before after result hphase
      rw [Phase.ran.injEq] at hphase
      obtain ⟨rfl, rfl, rfl⟩ := hphase
      cases hresult : ((calls j).prepare P arena h.core).1 with
      | error e => exact Or.inl ⟨⟨e, rfl⟩, ForeignCall.prepare_error hresult⟩
      | ok plan =>
          refine Or.inr ⟨⟨plan, rfl⟩, ?_⟩
          intro heq
          have hcount := (ForeignCall.prepare_ok hresult).1
          rw [heq] at hcount
          omega
  | read j =>
      cases hj : h.phase j <;> simp only [Handle.step, hj, reduceCtorEq, Option.some_inj] at hstep
      subst hstep
      refine hran.update rfl ?_
      intro before after result hidle
      cases hidle

/-- An invariant of the steps holds after every schedule. -/
theorem Handle.run_induction {motive : List HandleStep → Handle F → Prop} {start : Handle F}
    (hstart : motive [] start)
    (hstep : ∀ steps h step h', start.run P arena calls steps = some h → motive steps h →
      h.step P arena calls step = some h' → motive (steps ++ [step]) h')
    {steps : List HandleStep} {h : Handle F} (hrun : start.run P arena calls steps = some h) :
    motive steps h := by
  induction steps using List.reverseRecOn generalizing h with
  | nil =>
      rw [← Option.some_inj.1 hrun]
      exact hstart
  | append_singleton steps step ih =>
      rw [Handle.run_concat, Option.bind_eq_some_iff] at hrun
      obtain ⟨h', hrun', hlast⟩ := hrun
      exact hstep steps h' step h hrun' (ih hrun') hlast

/-- The steps of a schedule that make the flag be raised at its end: a call of the kernel whose
callback fails, after which no call lowers the flag. -/
def Raised (P : Platform) (arena : ContextLeaseArena F) (calls : ℕ → ForeignCall F)
    (start : Handle F) (steps : List HandleStep) : Prop :=
  ∃ before j after h, steps = before ++ .core j :: after ∧
    start.run P arena calls before = some h ∧ (calls j).raises P arena h.core = true ∧
    ∀ k, .reset k ∉ after

/-- The flag of a handle is raised when a callback has failed since it was last lowered. -/
theorem failed_iff {start : Handle F} (hstart : start.failed = false) {steps : List HandleStep}
    {h : Handle F} (hrun : start.run P arena calls steps = some h) :
    h.failed = true ↔ Raised P arena calls start steps := by
  refine @Handle.run_induction F _ P arena calls
    (fun steps h => h.failed = true ↔ Raised P arena calls start steps) _ ?_ ?_ _ _ hrun
  · rw [hstart]
    constructor
    · intro hfalse
      cases hfalse
    · rintro ⟨before, j, after, h, hnil, -⟩
      simp at hnil
  · intro steps h step h' hsteps ih hstep
    -- an earlier failure stays in the schedule as long as the last step lowers no flag
    have hearlier : (∀ k, step ≠ .reset k) → Raised P arena calls start steps →
        Raised P arena calls start (steps ++ [step]) := by
      rintro hstep ⟨before, j, after, hb, rfl, hbefore, hraises, hkept⟩
      refine ⟨before, j, after ++ [step], hb, by simp, hbefore, hraises, fun k hk => ?_⟩
      rcases List.mem_append.1 hk with hk | hk
      · exact hkept k hk
      · exact hstep k (List.mem_singleton.1 hk).symm
    have hlast : Raised P arena calls start (steps ++ [step]) →
        (∀ k, step ≠ .reset k) ∧ (Raised P arena calls start steps ∨
          ∃ j, step = .core j ∧ (calls j).raises P arena h.core = true) := by
      rintro ⟨before, j, after, hb, hsplit, hbefore, hraises, hkept⟩
      rcases List.eq_nil_or_concat after with rfl | ⟨after, last, rfl⟩
      · obtain ⟨rfl, hcore⟩ := List.append_inj' hsplit rfl
        rw [List.singleton_inj] at hcore
        rw [hsteps, Option.some_inj] at hbefore
        subst hbefore
        exact ⟨fun k => by rw [hcore]; simp, Or.inr ⟨j, hcore, hraises⟩⟩
      · rw [List.concat_eq_append, ← List.cons_append, ← List.append_assoc] at hsplit
        obtain ⟨rfl, hlast⟩ := List.append_inj' hsplit rfl
        rw [List.singleton_inj] at hlast
        subst hlast
        refine ⟨fun k hk => hkept k ?_, Or.inl ⟨before, j, after, hb, rfl, hbefore, hraises,
          fun k hk => hkept k ?_⟩⟩
        · rw [hk]
          simp
        · rw [List.concat_eq_append]
          exact List.mem_append_left _ hk
    cases step with
    | reset j =>
        cases hj : h.phase j <;> simp only [Handle.step, hj, reduceCtorEq, Option.some_inj] at hstep
        subst hstep
        constructor
        · intro hfalse
          cases hfalse
        · exact fun hraised => absurd rfl ((hlast hraised).1 j)
    | core j =>
        cases hj : h.phase j <;> simp only [Handle.step, hj, reduceCtorEq, Option.some_inj] at hstep
        subst hstep
        rw [Bool.or_eq_true, ih]
        constructor
        · rintro (hraised | hraises)
          · exact hearlier (fun k => by simp) hraised
          · exact ⟨steps, j, [], h, rfl, hsteps, hraises, fun k => List.not_mem_nil⟩
        · intro hraised
          refine (hlast hraised).2.imp id ?_
          rintro ⟨i, hi, hraises⟩
          rw [HandleStep.core.injEq] at hi
          rwa [hi]
    | read j =>
        cases hj : h.phase j <;> simp only [Handle.step, hj, reduceCtorEq, Option.some_inj] at hstep
        subst hstep
        rw [ih]
        refine ⟨hearlier fun k => by simp, fun hraised => (hlast hraised).2.resolve_right ?_⟩
        rintro ⟨i, hi, -⟩
        cases hi

/-- In a schedule of calls on one handle no call reports an error after its commit exactly when no
committed call finds that since the flag was last lowered the callback of a call has failed. -/
theorem errors_mean_unchanged_iff (P : Platform) (arena : ContextLeaseArena F)
    (calls : ℕ → ForeignCall F) (s : ArenaState F) (steps : List HandleStep) :
    (∀ before i after h, steps = before ++ .read i :: after →
        Handle.run P arena calls { core := s } before = some h → ErrorMeansUnchanged h i) ↔
      ∀ before i after h, steps = before ++ .read i :: after →
        Handle.run P arena calls { core := s } before = some h → Committed h i →
          ¬ Raised P arena calls { core := s } before := by
  have hran : ∀ {before : List HandleStep} {h : Handle F},
      Handle.run P arena calls { core := s } before = some h → h.Ran := by
    intro before h hrun
    refine @Handle.run_induction F _ P arena calls
      (fun _ h => h.Ran) _ ?_ (fun _ _ _ _ _ h hstep => h.step hstep) _ _ hrun
    intro i before after result hphase
    cases hphase
  constructor
  · rintro h before i after hd hsplit hrun ⟨b, a, plan, hphase⟩ hraised
    have hsame := h before i after hd hsplit hrun b a _ hphase
      (Or.inl ((failed_iff rfl hrun).2 hraised))
    rcases hran hrun i b a _ hphase with ⟨⟨e, he⟩, -⟩ | ⟨-, hchanged⟩
    · cases he
    · exact hchanged hsame
  · rintro h before i after hd hsplit hrun b a result hphase herror
    rcases hran hrun i b a _ hphase with ⟨-, hsame⟩ | ⟨⟨plan, rfl⟩, -⟩
    · exact hsame
    · rcases herror with hfailed | ⟨e, he⟩
      · exact absurd ((failed_iff rfl hrun).1 hfailed)
          (h before i after hd hsplit hrun ⟨b, a, plan, hphase⟩)
      · cases he

/-! ### Two overlapping calls -/

/-- A greeting that the callback cannot count. -/
def secretGreeting : PromptChunk ℚ := { pinnedGreeting with content := .string "secret" }

/-- A short request, and beside it requests whose greeting the callback cannot count. -/
def greetingCalls (i : ℕ) : ForeignCall ℚ where
  env := default
  request := historyRequest [if i = 0 then pinnedGreeting else secretGreeting]
  callback := fun text => if text = "secret" then -1 else 1

/-- What the kernel does in the first call. -/
def firstPrepared : Result (PreparedContextPlan ℚ) × ArenaState ℚ :=
  (greetingCalls 0).prepare (Library.ascii id).release summaryArena {}

/-- Both calls lower the flag, and then both run the kernel. -/
def overlapping : List HandleStep := [.reset 0, .reset 1, .core 0, .core 1]

/-- The handle when the first of the overlapping calls is about to read the flag. -/
theorem overlapping_run :
    ∃ h, Handle.run (Library.ascii id).release summaryArena greetingCalls { core := {} }
        overlapping = some h ∧
      h.failed = ((greetingCalls 0).raises (Library.ascii id).release summaryArena {} ||
        (greetingCalls 1).raises (Library.ascii id).release summaryArena firstPrepared.2) ∧
      h.phase 0 = .ran {} firstPrepared.2 firstPrepared.1 :=
  ⟨_, rfl, rfl, rfl⟩

theorem firstPrepared_ok : firstPrepared.1.toOption.isSome := by decide +kernel

theorem second_raises :
    (greetingCalls 1).raises (Library.ascii id).release summaryArena firstPrepared.2 := by
  decide +kernel

/-- The first call is committed, the callback of the second one fails, and the first call reads the
flag that the second one has raised: it reports an error although it has been committed. -/
theorem overlapping_failure :
    ¬ ∀ before i after h, overlapping ++ [.read 0] = before ++ .read i :: after →
      Handle.run (Library.ascii id).release summaryArena greetingCalls { core := {} } before =
          some h →
        ErrorMeansUnchanged h i := by
  intro hall
  obtain ⟨h, hrun, hfailed, hphase⟩ := overlapping_run
  have hraised : h.failed = true := by rw [hfailed, second_raises, Bool.or_true]
  have hsame : firstPrepared.2 = {} :=
    hall overlapping 0 [] h rfl hrun _ _ _ hphase (Or.inl hraised)
  obtain ⟨plan, hplan⟩ := Option.isSome_iff_exists.1 firstPrepared_ok
  have hok : firstPrepared.1 = .ok plan := by
    cases hresult : firstPrepared.1 with
    | error e => simp [hresult, Except.toOption] at hplan
    | ok plan' => simpa [hresult, Except.toOption] using hplan
  have hcounted := (ForeignCall.prepare_ok hok).1
  have hsame' : ((greetingCalls 0).prepare (Library.ascii id).release summaryArena {}).2 = {} :=
    hsame
  rw [hsame'] at hcounted
  exact absurd hcounted (by decide)

end Handles

end ContextLease
