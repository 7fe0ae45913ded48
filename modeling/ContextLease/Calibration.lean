/-
Calibration by reported usage.

A round of calibration prepares a prompt, whose count already contains the multiplier, and reports
what the prompt really used.  The report is divided by the stored count, so what enters the moving
average is not the true ratio but the ratio that the old multiplier has left over.  From the second
round on the average is therefore drawn below the true ratio.

Main definitions:

* `Prepares`, `CalibrationRound`, `CalibrationRun` — rounds, and runs of them with other operations
  in between;
* `Conservative` — a multiplier that covers a true ratio;
* `Covers` — the surplus of the old average makes up for what a round falls short.

Main results:

* `CalibrationRound.spec` — what a round does to the calibration of its key;
* `CalibrationRun.forall_rounds` — what every round of a run establishes;
* `multiplier_conservative_iff` — when the multiplier covers the true ratio after every round.
-/

import ContextLease.ArenaSpec
import Mathlib.Tactic.FieldSimp

set_option relaxedAutoImplicit false
set_option autoImplicit false

namespace ContextLease

open MachineNumbers RustText

/-! ### Rounds -/

section Rounds

variable (P : Platform) (arena : ContextLeaseArena ℚ)

/-- The host prepares a prompt with a built-in estimator. -/
def Prepares (request : PrepareRequest ℚ) (plan : PreparedContextPlan ℚ)
    (s s' : ArenaState ℚ) : Prop :=
  ∃ env results,
    prepare P arena env request none s = (.ok plan, s') ∨
      prepareBegin P arena env request none s = (.ok ⟨"ready", some plan, []⟩, s') ∨
      prepareCommit P arena env request results none s = (.ok plan, s')

/-- What a round is about: the raw estimate of its prompt, the calibration it found and the
multiplier it stored. -/
structure Round where
  raw : ℤ
  previous : Option (UsageCalibration ℚ)
  multiplier : ℚ

variable (key : String) (ρ : ℚ)

/-- A round from the state `s`: a prompt is prepared for a model with the calibration key `key`,
and some operations later, which leave the key and the request alone, the host reports `ρ` times
its raw estimate. -/
inductive CalibrationRound (s : ArenaState ℚ) : Round → ArenaState ℚ → Prop
  | intro {request : PrepareRequest ℚ} {plan : PreparedContextPlan ℚ} {s₁ s' : ArenaState ℚ}
      {ops : List (Op ℚ)} {env : Env} {actual : ℤ} {calibration : UsageCalibration ℚ}
      (hkey : calibrationKey request.model = key)
      (hprepares : Prepares P arena request plan s s₁)
      (hpositive : 0 < estimateText P plan.rendered request.model.tokenizerId)
      (hcounted : P.arith.Fits ⌈(estimateText P plan.rendered request.model.tokenizerId : ℚ) *
        safetyMultiplier s request.model⌉)
      (hcalibrations : (run P arena s₁ ops).calibrations key = s₁.calibrations key)
      (hrecent : (run P arena s₁ ops).recentUsage plan.requestId = s₁.recentUsage plan.requestId)
      (hactual : (actual : ℚ) = ρ * estimateText P plan.rendered request.model.tokenizerId)
      (hrecorded : recordUsage arena env ⟨plan.requestId, actual⟩ (run P arena s₁ ops) =
        (.ok calibration, s')) :
      CalibrationRound s ⟨estimateText P plan.rendered request.model.tokenizerId,
        s.calibrations key, safetyMultiplier s' request.model⟩ s'

/-- A run of rounds, with other operations that leave the key alone in between. -/
inductive CalibrationRun : ArenaState ℚ → List Round → ArenaState ℚ → Prop
  | nil (s : ArenaState ℚ) : CalibrationRun s [] s
  | other {s s' : ArenaState ℚ} {rounds : List Round} (op : Op ℚ)
      (hsame : (step P arena s op).calibrations key = s.calibrations key)
      (hrest : CalibrationRun (step P arena s op) rounds s') : CalibrationRun s rounds s'
  | round {s s₁ s' : ArenaState ℚ} {r : Round} {rounds : List Round}
      (hround : CalibrationRound P arena key ρ s r s₁)
      (hrest : CalibrationRun s₁ rounds s') : CalibrationRun s (r :: rounds) s'

end Rounds

/-! ### What a round does -/

/-- A calibration that stems from observations. -/
def Observed (previous : Option (UsageCalibration ℚ)) : Prop :=
  ∀ c ∈ previous, c.sampleCount ≠ 0 ∧ c.safetyMultiplier = max c.ewmaRatio 1

/-- The average after a round. -/
def nextRatio (ρ : ℚ) (raw : ℤ) : Option (UsageCalibration ℚ) → ℚ
  | none => ρ
  | some c => 1 / 5 * (ρ * raw / ⌈raw * max c.ewmaRatio 1⌉) + 4 / 5 * c.ewmaRatio

/-- The multiplier covers the true ratio, and so do the estimates it makes. -/
def Conservative (ρ multiplier : ℚ) : Prop :=
  ρ ≤ multiplier ∧ ∀ raw : ℤ, 0 < raw → ρ * raw ≤ ⌈raw * multiplier⌉

theorem conservative_iff {ρ multiplier : ℚ} : Conservative ρ multiplier ↔ ρ ≤ multiplier := by
  refine ⟨And.left, fun h => ⟨h, fun raw hraw => ?_⟩⟩
  calc ρ * raw ≤ multiplier * raw :=
        mul_le_mul_of_nonneg_right h (by exact_mod_cast hraw.le)
    _ = raw * multiplier := mul_comm _ _
    _ ≤ ⌈raw * multiplier⌉ := Int.le_ceil _

/-- The average after one more observation of a prompt that was estimated as `raw`. -/
theorem observe_ewmaRatio {recent : RecentUsage} {previous : Option (UsageCalibration ℚ)}
    {actual raw : ℤ} {ρ : ℚ} (hprevious : Observed previous) (hraw : 0 < raw)
    (hestimated : recent.estimatedTokens =
      ⌈(raw : ℚ) * (previous.map fun c => max c.ewmaRatio 1).getD 1⌉)
    (hactual : (actual : ℚ) = ρ * raw) :
    (observe recent actual previous).ewmaRatio = nextRatio ρ raw previous := by
  have hone : 1 ≤ (previous.map fun c => max c.ewmaRatio 1).getD 1 := by
    cases previous with
    | none => exact le_refl 1
    | some c => exact le_max_right _ _
  have hpositive : 0 < recent.estimatedTokens := by
    rw [hestimated, Int.ceil_pos]
    exact mul_pos (by exact_mod_cast hraw) (by linarith)
  have hratio : ¬ recent.estimatedTokens ≤ 0 := not_le.2 hpositive
  have hrawq : (raw : ℚ) ≠ 0 := by exact_mod_cast hraw.ne'
  cases previous with
  | none =>
      rw [Option.map_none, Option.getD_none, mul_one, Int.ceil_intCast] at hestimated
      simp [observe, hestimated, hactual, hrawq, not_le.2 hraw, nextRatio]
  | some c =>
      have hcount := (hprevious c rfl).1
      simp only [observe, hratio, if_false, Option.getD_some, Nat.add_eq_right, hcount,
        FloatOps.add_rat, FloatOps.mul_rat, FloatOps.div_rat, FloatOps.ofRat_rat,
        FloatOps.ofInt_rat, hactual, nextRatio]
      rw [hestimated, Option.map_some, Option.getD_some]

section Spec

variable {P : Platform} {arena : ContextLeaseArena ℚ} {key : String} {ρ : ℚ}

/-- However the prompt was prepared, the call was a successful preparation. -/
theorem Prepares.call {request : PrepareRequest ℚ} {plan : PreparedContextPlan ℚ}
    {s s' : ArenaState ℚ} (h : Prepares P arena request plan s s') :
    ∃ results, PreparedCall P arena request results none (safetyMultiplier s request.model) plan s
      s' := by
  obtain ⟨env, results, h | h | h⟩ := h
  · rcases prepare_cases P arena env request none s with ⟨e, heq⟩ | ⟨plan', s₁, heq, hcall⟩
    · rw [heq] at h
      cases h
    · rw [heq] at h
      cases h
      exact ⟨[], hcall⟩
  · rcases prepareBegin_cases P arena env request none s with
      ⟨e, heq⟩ | ⟨plan', s₁, heq, hcall⟩ | ⟨requests, -, -, heq⟩
    · rw [heq] at h
      cases h
    · rw [heq] at h
      cases h
      exact ⟨[], hcall⟩
    · rw [heq] at h
      simp at h
  · rcases prepareCommit_cases P arena env request results none s with
      ⟨e, heq⟩ | ⟨plan', s₁, heq, hcall⟩
    · rw [heq] at h
      cases h
    · rw [heq] at h
      cases h
      exact ⟨results, hcall⟩

/-- A prompt is counted as its raw estimate times the multiplier. -/
theorem Prepares.promptTokens {request : PrepareRequest ℚ} {plan : PreparedContextPlan ℚ}
    {s s' : ArenaState ℚ} (h : Prepares P arena request plan s s')
    (hpositive : 0 < estimateText P plan.rendered request.model.tokenizerId)
    (hcounted : P.arith.Fits ⌈(estimateText P plan.rendered request.model.tokenizerId : ℚ) *
      safetyMultiplier s request.model⌉) :
    plan.promptTokens = ⌈(estimateText P plan.rendered request.model.tokenizerId : ℚ) *
      safetyMultiplier s request.model⌉ := by
  obtain ⟨results, hcall⟩ := h.call
  obtain ⟨a, rs, ha, hrun⟩ := hcall.run
  rw [hrun.promptTokens, ha.counts]
  simp [CountContext.countText, CountContext.raw, not_lt.2 hpositive.le,
    Arith.saturate_of_fits hcounted]

/-- The multiplier of a key, from its calibration. -/
theorem safetyMultiplier_of_observed {s : ArenaState ℚ} {model : ModelProfile}
    (h : Observed (s.calibrations (calibrationKey model))) :
    safetyMultiplier s model =
      ((s.calibrations (calibrationKey model)).map fun c => max c.ewmaRatio 1).getD 1 := by
  unfold safetyMultiplier
  cases hc : s.calibrations (calibrationKey model) with
  | none => rfl
  | some c => exact (h c hc).2

/-- What a round does to the calibration of its key. -/
structure CalibrationRound.Spec (key : String) (ρ : ℚ) (s : ArenaState ℚ) (r : Round)
    (s' : ArenaState ℚ) : Prop where
  positive : 0 < r.raw
  integral : ∃ actual : ℤ, (actual : ℚ) = ρ * r.raw
  previous : r.previous = s.calibrations key
  stored : ∃ c, s'.calibrations key = some c ∧ c.sampleCount ≠ 0 ∧
    c.safetyMultiplier = max c.ewmaRatio 1 ∧ c.ewmaRatio = nextRatio ρ r.raw r.previous
  multiplier : r.multiplier = max (nextRatio ρ r.raw r.previous) 1

theorem CalibrationRound.spec {s s' : ArenaState ℚ} {r : Round}
    (h : CalibrationRound P arena key ρ s r s') (hs : Observed (s.calibrations key)) :
    CalibrationRound.Spec key ρ s r s' := by
  cases h with
  | @intro request plan s₁ _ ops env actual calibration hkey hprepares hpositive hcounted
      hcalibrations hrecent hactual hrecorded =>
      obtain ⟨results, hcall⟩ := hprepares.call
      have hprevious : (run P arena s₁ ops).calibrations key = s.calibrations key := by
        rw [hcalibrations, hcall.remembers.calibrations]
      rcases recordUsage_cases arena env ⟨plan.requestId, actual⟩ (run P arena s₁ ops) with
        ⟨e, heq⟩ | ⟨recent, s₂, hrecent', -, heq, hstored, -⟩
      · rw [heq] at hrecorded
        cases hrecorded
      · rw [heq] at hrecorded
        cases hrecorded
        -- the report finds what was remembered of the call of the round
        rw [hrecent, hcall.remembers.remembered, Option.some_inj] at hrecent'
        subst hrecent'
        have hrecentKey : (recentUsageOf request plan.promptTokens).key = key := hkey
        rw [hrecentKey, hprevious] at hstored
        have hratio : (observe (recentUsageOf request plan.promptTokens) actual
            (s.calibrations key)).ewmaRatio =
            nextRatio ρ (estimateText P plan.rendered request.model.tokenizerId)
              (s.calibrations key) := by
          refine observe_ewmaRatio hs hpositive ?_ hactual
          subst hkey
          rw [← safetyMultiplier_of_observed hs]
          exact hprepares.promptTokens hpositive hcounted
        have hsome : s'.calibrations key = some (observe
            (recentUsageOf request plan.promptTokens) actual (s.calibrations key)) := by
          rw [hstored, HashMap.insert_self]
        refine ⟨hpositive, ⟨actual, hactual⟩, rfl, ⟨_, hsome, Nat.succ_ne_zero _,
          FloatOps.max_rat _ _, hratio⟩, ?_⟩
        rw [safetyMultiplier, hkey, hsome, ← hratio]
        exact FloatOps.max_rat _ _

theorem CalibrationRound.Spec.observed {s s' : ArenaState ℚ} {r : Round}
    (h : CalibrationRound.Spec key ρ s r s') : Observed (s'.calibrations key) := by
  obtain ⟨c, hc, hcount, hclamped, -⟩ := h.stored
  rw [hc]
  rintro c' ⟨⟩
  exact ⟨hcount, hclamped⟩

/-- Every calibration of a reachable state stems from observations. -/
theorem Reachable.observed {s : ArenaState ℚ} (h : Reachable P arena s) (key : String) :
    Observed (s.calibrations key) := by
  refine Reachable.induction (motive := fun s => ∀ key, Observed (s.calibrations key)) P arena ?_ ?_
    h key
  · intro key c hc
    cases hc
  · intro s op hs key
    rcases step_calibrations P arena s op with hsame | ⟨env, observation, recent, -, -, -, hcal⟩
    · rw [hsame]
      exact hs key
    · rw [hcal]
      by_cases hkey : key = recent.key
      · rw [hkey, HashMap.insert_self]
        rintro c ⟨⟩
        exact ⟨Nat.succ_ne_zero _, FloatOps.max_rat _ _⟩
      · rw [HashMap.insert_of_ne _ _ hkey]
        exact hs key

/-! ### Runs -/

/-- A run that has a round begins with it, as far as the key is concerned. -/
theorem CalibrationRun.first {s s' : ArenaState ℚ} {r : Round} {rounds : List Round}
    (h : CalibrationRun P arena key ρ s (r :: rounds) s') (hs : Observed (s.calibrations key)) :
    ∃ s₁, CalibrationRound.Spec key ρ s r s₁ ∧ CalibrationRun P arena key ρ s₁ rounds s' := by
  generalize hall : r :: rounds = all at h
  induction h with
  | nil s => cases hall
  | other op hsame hrest ih =>
      obtain ⟨s₁, hspec, hrun⟩ := ih (hsame ▸ hs) hall
      exact ⟨s₁, ⟨hspec.positive, hspec.integral, hspec.previous.trans hsame, hspec.stored,
        hspec.multiplier⟩, hrun⟩
  | round hround hrest ih =>
      cases hall
      exact ⟨_, hround.spec hs, hrest⟩

/-- What every round of a run establishes. -/
theorem CalibrationRun.forall_rounds {s s' : ArenaState ℚ} {rounds : List Round}
    (h : CalibrationRun P arena key ρ s rounds s') (hs : Observed (s.calibrations key)) :
    ∀ r ∈ rounds, r.multiplier = max (nextRatio ρ r.raw r.previous) 1 := by
  induction rounds generalizing s with
  | nil => exact fun r hr => absurd hr List.not_mem_nil
  | cons r rounds ih =>
      obtain ⟨s₁, hspec, hrun⟩ := h.first hs
      intro r' hr'
      rcases List.mem_cons.1 hr' with rfl | hr'
      · exact hspec.multiplier
      · exact ih hrun hspec.observed r' hr'

end Spec

/-! ### When the multiplier covers the ratio -/

/-- The surplus of the old average over the true ratio, which counts four times as much, makes up
for what the ratio of the round falls short of it. -/
def Covers (ρ : ℚ) (raw : ℤ) : Option (UsageCalibration ℚ) → Prop
  | none => True
  | some c => ρ = 1 ∨ ρ - ρ * raw / ⌈raw * max c.ewmaRatio 1⌉ ≤ 4 * (c.ewmaRatio - ρ)

theorem le_max_nextRatio_iff {ρ : ℚ} (hρ : 1 ≤ ρ) (raw : ℤ)
    (previous : Option (UsageCalibration ℚ)) :
    ρ ≤ max (nextRatio ρ raw previous) 1 ↔ Covers ρ raw previous := by
  rw [le_max_iff]
  cases previous with
  | none => simp [nextRatio, Covers]
  | some c =>
      simp only [nextRatio, Covers]
      constructor
      · rintro (h | h)
        · right
          linarith
        · left
          linarith
      · rintro (h | h)
        · right
          linarith
        · left
          linarith

/-- The second round of a key draws the average below the true ratio. -/
theorem nextRatio_of_exact {ρ : ℚ} (hρ : 1 ≤ ρ) {raw : ℤ} (hraw : 0 < raw) {c : UsageCalibration ℚ}
    (hc : c.ewmaRatio = ρ) (hactual : ∃ actual : ℤ, (actual : ℚ) = ρ * raw) :
    nextRatio ρ raw (some c) = 1 / 5 + 4 / 5 * ρ := by
  obtain ⟨actual, hactual⟩ := hactual
  have hpositive : ρ * raw ≠ 0 :=
    mul_ne_zero (by linarith) (by exact_mod_cast hraw.ne')
  have hceil : (⌈(raw : ℚ) * max c.ewmaRatio 1⌉ : ℚ) = ρ * raw := by
    rw [hc, max_eq_left hρ, mul_comm, ← hactual, Int.ceil_intCast]
  rw [nextRatio, hceil, hc, div_self hpositive, mul_one]

/-- The multiplier covers the true ratio after every round of a run exactly when in every round the
surplus of the old average covers the shortfall of the round; for a key that was not calibrated
before, exactly when there is at most one round or the estimates are exact. -/
theorem multiplier_conservative_iff {P : Platform} {arena : ContextLeaseArena ℚ} {key : String}
    {ρ : ℚ} (hρ : 1 ≤ ρ) {s s' : ArenaState ℚ} (hs : Reachable P arena s) {rounds : List Round}
    (hrun : CalibrationRun P arena key ρ s rounds s') :
    ((∀ r ∈ rounds, Conservative ρ r.multiplier) ↔
      ∀ r ∈ rounds, Covers ρ r.raw r.previous) ∧
    (s.calibrations key = none →
      ((∀ r ∈ rounds, Conservative ρ r.multiplier) ↔ rounds.length ≤ 1 ∨ ρ = 1)) := by
  have hobserved := hs.observed key
  have hall := hrun.forall_rounds hobserved
  refine ⟨forall₂_congr fun r hr => ?_, fun hfresh => ⟨fun hcovers => ?_, ?_⟩⟩
  · rw [conservative_iff, hall r hr, le_max_nextRatio_iff hρ]
  · -- the second round finds the average at the true ratio
    cases rounds with
    | nil => exact Or.inl (Nat.zero_le 1)
    | cons r₁ rounds =>
        cases rounds with
        | nil => exact Or.inl (le_refl 1)
        | cons r₂ rounds =>
            right
            obtain ⟨s₁, h₁, hrun₁⟩ := hrun.first hobserved
            obtain ⟨s₂, h₂, -⟩ := hrun₁.first h₁.observed
            obtain ⟨c, hc, -, -, hratio⟩ := h₁.stored
            rw [h₁.previous, hfresh, nextRatio] at hratio
            have hsecond := conservative_iff.1 (hcovers r₂ (by simp))
            rw [h₂.multiplier, h₂.previous, hc,
              nextRatio_of_exact hρ h₂.positive hratio h₂.integral, max_eq_left (by linarith)]
              at hsecond
            linarith
  · rintro (hlength | hexact) r hr
    · cases rounds with
      | nil => cases hr
      | cons r₁ rounds =>
          rw [List.length_cons, Nat.add_le_add_iff_right (n := 1) (m := rounds.length) (k := 0),
            Nat.le_zero, List.length_eq_zero_iff] at hlength
          subst hlength
          obtain ⟨s₁, h₁, -⟩ := hrun.first hobserved
          rw [List.mem_singleton.1 hr, conservative_iff, h₁.multiplier, h₁.previous, hfresh]
          exact le_max_left _ _
    · rw [conservative_iff, hall r hr, hexact]
      exact le_max_right _ _

/-! ### Two rounds -/

/-- A prompt of two tokens. -/
def greeting : PrepareRequest ℚ where
  model := { modelProfileId := "model", contextLimitTokens := 64, reservedOutputTokens := 4 }
  contributions := [{ moduleId := "system"
                      chunks := [{ chunkId := "rules", content := .string "Hi.", priority := 1 }] }]

section Greeting

/-- The state after the greeting is prepared and reported to have used four tokens. -/
def afterGreeting (s : ArenaState ℚ) (requestId : String) : ArenaState ℚ :=
  run (Library.ascii id).release exampleArena s
    [.prepare default greeting none, .recordUsage default ⟨requestId, 4⟩]

/-- A round with the greeting, from a state in which it can be prepared. -/
theorem greeting_round {s : ArenaState ℚ} {requestId : String}
    (hplan : ((prepare (Library.ascii id).release exampleArena default greeting none s).1.map
      fun plan => (plan.rendered, plan.requestId)).toOption = some ("Hi.", requestId))
    (hcounted : Arith.release.Fits ⌈(2 : ℚ) * safetyMultiplier s greeting.model⌉)
    (hrecorded : (recordUsage exampleArena default ⟨requestId, 4⟩
      (prepare (Library.ascii id).release exampleArena default greeting none s).2).1.isOk = true) :
    CalibrationRound (Library.ascii id).release exampleArena (calibrationKey greeting.model) 2 s
      ⟨2, s.calibrations (calibrationKey greeting.model),
        safetyMultiplier (afterGreeting s requestId) greeting.model⟩
      (afterGreeting s requestId) := by
  obtain ⟨plan, hok, hfields⟩ := exists_ok_of_map hplan
  rw [Prod.mk.injEq] at hfields
  obtain ⟨hrendered, hid⟩ := hfields
  obtain ⟨calibration, hcalibration⟩ := exists_ok_of_isOk hrecorded
  have hraw : estimateText (Library.ascii id).release plan.rendered greeting.model.tokenizerId =
      2 := by
    rw [hrendered]
    decide
  have hreported : recordUsage exampleArena default ⟨requestId, 4⟩
      (prepare (Library.ascii id).release exampleArena default greeting none s).2 =
      (.ok calibration, afterGreeting s requestId) := by
    refine Prod.ext hcalibration ?_
    simp only [afterGreeting, run, List.foldl_cons, List.foldl_nil, step]
  have hround : CalibrationRound (Library.ascii id).release exampleArena
      (calibrationKey greeting.model) 2 s _ (afterGreeting s requestId) :=
    @CalibrationRound.intro _ _ _ _ _ greeting plan _ _ [] default 4 calibration rfl
      ⟨default, [], Or.inl (Prod.ext hok rfl)⟩ (by rw [hraw]; decide) (by rw [hraw]; exact hcounted)
      rfl rfl (by rw [hraw]; norm_num) (by rw [hid]; exact hreported)
  rwa [hraw] at hround

/-- The two rounds. -/
def greetingRounds : List Round :=
  [⟨2, none, safetyMultiplier (afterGreeting {} "notes:1") greeting.model⟩,
    ⟨2, (afterGreeting {} "notes:1").calibrations (calibrationKey greeting.model),
      safetyMultiplier (afterGreeting (afterGreeting {} "notes:1") "notes:2") greeting.model⟩]

theorem greetings_run :
    CalibrationRun (Library.ascii id).release exampleArena (calibrationKey greeting.model) 2 {}
      greetingRounds (afterGreeting (afterGreeting {} "notes:1") "notes:2") := by
  refine .round (greeting_round ?_ ?_ ?_) (.round (greeting_round ?_ ?_ ?_) (.nil _))
  all_goals decide +kernel

/-- In two rounds from a new arena at twice the estimate the multiplier is once too small. -/
theorem multiplier_conservative_iff_example :
    ¬ ∀ r ∈ greetingRounds, Conservative 2 r.multiplier := by
  have hfresh := (multiplier_conservative_iff (by norm_num) ⟨[], rfl⟩ greetings_run).2 rfl
  rw [hfresh]
  rintro (hshort | hone)
  · exact absurd hshort (by decide)
  · norm_num at hone

/-- After two rounds at twice the estimate the multiplier is 9/5. -/
theorem second_round_below_ratio :
    ∃ rounds s', CalibrationRun (Library.ascii id).release exampleArena
      (calibrationKey greeting.model) 2 {} rounds s' ∧
      ¬ ∀ r ∈ rounds, Conservative 2 r.multiplier := by
  refine ⟨greetingRounds, _, greetings_run, ?_⟩
  intro hall
  have hsecond : safetyMultiplier (afterGreeting (afterGreeting {} "notes:1") "notes:2")
      greeting.model = 9 / 5 := by decide +kernel
  have hbelow := conservative_iff.1 (hall _ (List.mem_cons_of_mem _ (List.mem_cons_self ..)))
  rw [hsecond] at hbelow
  norm_num at hbelow

end Greeting

end ContextLease
