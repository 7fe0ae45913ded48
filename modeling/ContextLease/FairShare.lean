/-
The share of a module in the weighted rounds.

The first round offers every module below its cap its proportional share of the budget, in the order
of the ids, and at least one token.  The shares alone never exceed the budget, so a module is short
of its share by at most the tokens that went to modules before it whose own share is less than one.

Main definitions:

* `proportionalShare` — what is due to a module by its weight, in whole tokens;
* `lightBefore` — the modules served before it to whom less than a token is due.

Main results:

* `fillRound_gain` — what a round gives a module;
* `le_fillRounds` — the rounds never take anything back;
* `share_of_weightedFill` — a module still below its cap has its share, but for one token for each
  module of `lightBefore`.
-/

import ContextLease.AllocationSafety
import Mathlib.Algebra.Order.Field.Basic
import Mathlib.Algebra.Order.Floor.Ring
import Mathlib.Tactic.Positivity

set_option relaxedAutoImplicit false
set_option autoImplicit false

namespace ContextLease

open MachineNumbers

/-! ### A round -/

section Round

variable {caps share : String → ℤ}

/-- One grant to a module below its cap. -/
theorem grant_exact {st : Fill} {id : String} (hbelow : st.current id < caps id)
    (hremaining : 0 ≤ st.remaining) :
    ∃ g, 0 ≤ g ∧ g = min (min (caps id - st.current id) (max (share id) 1)) st.remaining ∧
      st.grant .exact caps share id =
        ⟨Ledger.credit st.current id g, st.remaining - g, st.progressed + g⟩ :=
  ⟨_, by omega, rfl, rfl⟩

/-- A round gives, and never takes; and it gives only to the modules that take part. -/
theorem le_fillRound {l : List String} (hnodup : l.Nodup) {st : Fill}
    (hbelow : ∀ id ∈ l, st.current id < caps id) (hremaining : 0 ≤ st.remaining) :
    (∀ id, st.current id ≤ (fillRound .exact caps share l st).current id) ∧
      (∀ id, id ∉ l → (fillRound .exact caps share l st).current id = st.current id) ∧
      0 ≤ (fillRound .exact caps share l st).remaining := by
  induction l generalizing st with
  | nil => exact ⟨fun _ => le_refl _, fun _ _ => rfl, hremaining⟩
  | cons a l ih =>
      rw [List.nodup_cons] at hnodup
      obtain ⟨g, hg, hgeq, hgrant⟩ := @grant_exact caps share st a
        (hbelow a (List.mem_cons_self ..)) hremaining
      have hother : ∀ id, id ≠ a → Ledger.credit st.current a g id = st.current id :=
        fun id hid => Ledger.credit_of_ne _ _ hid
      have hcredit := fun id => Ledger.le_credit st.current a id hg
      rw [fillRound, hgrant]
      simp only
      split
      · refine ⟨hcredit, fun id hid => hother id ?_, by simp only; omega⟩
        exact fun heq => hid (heq ▸ List.mem_cons_self ..)
      · obtain ⟨hle, hsame, hleft⟩ := @ih hnodup.2 ⟨Ledger.credit st.current a g, st.remaining - g,
          st.progressed + g⟩ (fun id hid => by
            have hne : id ≠ a := fun heq => hnodup.1 (heq ▸ hid)
            simp only [hother id hne]
            exact hbelow id (List.mem_cons_of_mem _ hid)) (by simp only; omega)
        refine ⟨fun id => (hcredit id).trans (hle id), fun id hid => ?_, hleft⟩
        rw [List.mem_cons, not_or] at hid
        rw [hsame id hid.2]
        exact hother id hid.1

/-- What a round gives a module: its share and at least one token, as far as there is room and the
modules before it leave something. -/
theorem fillRound_gain {before after : List String} {id : String}
    (hnodup : (before ++ id :: after).Nodup) {st : Fill}
    (hbelow : ∀ id' ∈ before ++ id :: after, st.current id' < caps id')
    (hremaining : 0 ≤ st.remaining) :
    min (caps id) (st.current id + min (max (share id) 1)
        (st.remaining - (before.map fun id' => max (share id') 1).sum)) ≤
      (fillRound .exact caps share (before ++ id :: after) st).current id := by
  induction before generalizing st with
  | nil =>
      rw [List.nil_append] at hnodup hbelow ⊢
      obtain ⟨g, hg, hgeq, hgrant⟩ := @grant_exact caps share st id
        (hbelow id (List.mem_cons_self ..)) hremaining
      rw [List.nodup_cons] at hnodup
      have hcredit : Ledger.credit st.current id g id = st.current id + g :=
        Ledger.credit_self ..
      rw [fillRound, hgrant, List.map_nil, List.sum_nil, sub_zero]
      simp only
      split
      · simp only [hcredit]
        omega
      · rw [(le_fillRound hnodup.2 (fun id' hid' => ?_) (by simp only; omega)).2.1 id hnodup.1]
        · simp only [hcredit]
          omega
        · have hne : id' ≠ id := fun heq => hnodup.1 (heq ▸ hid')
          simp only [Ledger.credit_of_ne _ _ hne]
          exact hbelow id' (List.mem_cons_of_mem _ hid')
  | cons a before ih =>
      rw [List.cons_append] at hnodup hbelow ⊢
      obtain ⟨g, hg, hgeq, hgrant⟩ := @grant_exact caps share st a
        (hbelow a (List.mem_cons_self ..)) hremaining
      rw [List.nodup_cons] at hnodup
      have hne : id ≠ a := fun heq => hnodup.1 (heq ▸ by simp)
      have hcredit : Ledger.credit st.current a g id = st.current id :=
        Ledger.credit_of_ne _ _ hne
      have hsum : 0 ≤ (before.map fun id' => max (share id') 1).sum := by
        refine List.sum_nonneg ?_
        intro x hx
        obtain ⟨id', -, rfl⟩ := List.mem_map.1 hx
        omega
      rw [fillRound, hgrant, List.map_cons, List.sum_cons]
      simp only
      split
      · -- the budget ends before the module is served
        simp only [hcredit]
        omega
      · have hrest := @ih hnodup.2 ⟨Ledger.credit st.current a g, st.remaining - g,
          st.progressed + g⟩ (fun id' hid' => by
            have hne : id' ≠ a := fun heq => hnodup.1 (heq ▸ hid')
            simp only [Ledger.credit_of_ne _ _ hne]
            exact hbelow id' (List.mem_cons_of_mem _ hid')) (by simp only; omega)
        simp only [hcredit] at hrest
        omega

/-- The rounds never take anything back. -/
theorem le_fillRounds {share : ℤ → List String → String → ℤ} {fuel : ℕ} {active : List String}
    (hnodup : active.Nodup) {current : String → ℤ} {remaining : ℤ}
    (hbelow : ∀ id ∈ active, current id < caps id) (hremaining : 0 ≤ remaining) (id : String) :
    current id ≤ (fillRounds .exact caps share fuel active current remaining).1 id := by
  induction fuel generalizing active current remaining with
  | zero => exact le_refl _
  | succ fuel ih =>
      rw [fillRounds]
      split
      · obtain ⟨hle, -, hleft⟩ := @le_fillRound caps (share remaining active) active hnodup
          ⟨current, remaining, 0⟩ hbelow hremaining
        generalize fillRound .exact caps (share remaining active) active ⟨current, remaining, 0⟩ =
          st at hle hleft ⊢
        simp only
        split
        · exact hle id
        · refine (hle id).trans (ih (hnodup.filter _) (fun id' hid' => ?_) hleft)
          simpa using (List.mem_filter.1 hid').2
      · exact le_refl _

end Round

/-! ### Shares -/

section Shares

variable (definition : ArenaDefinition ℚ) (caps current : String → ℤ) (budget : ℤ)

/-- The modules below their caps. -/
def belowCap : List (ModuleDefinition ℚ) :=
  definition.modules.filter fun m => current m.moduleId < caps m.moduleId

/-- The weight of the modules below their caps. -/
def totalWeight : ℚ := ((belowCap definition caps current).map ModuleDefinition.weight).sum

/-- What is due to a module by its weight, in whole tokens. -/
def proportionalShare (m : ModuleDefinition ℚ) : ℤ :=
  ⌊(budget : ℚ) * m.weight / totalWeight definition caps current⌋

/-- The modules served before `m` to whom less than a token is due. -/
def lightBefore (m : ModuleDefinition ℚ) : List (ModuleDefinition ℚ) :=
  (belowCap definition caps current).filter fun m' =>
    m'.moduleId < m.moduleId ∧ proportionalShare definition caps current budget m' = 0

end Shares

/-- Rounded down, shares of a budget by weight do not exceed it. -/
theorem sum_floor_le {α : Type} (l : List α) (weight : α → ℚ) (hweight : ∀ a ∈ l, 0 < weight a)
    {budget : ℤ} (hbudget : 0 ≤ budget) :
    (l.map fun a => ⌊(budget : ℚ) * weight a / (l.map weight).sum⌋).sum ≤ budget := by
  have hfloor : ∀ (total : ℚ) (l : List α),
      (((l.map fun a => ⌊(budget : ℚ) * weight a / total⌋).sum : ℤ) : ℚ) ≤
        (budget : ℚ) * (l.map weight).sum / total := by
    intro total l
    induction l with
    | nil => simp
    | cons a l ih =>
        have ha := Int.floor_le ((budget : ℚ) * weight a / total)
        rw [List.map_cons, List.sum_cons, List.map_cons, List.sum_cons, Int.cast_add, mul_add,
          add_div]
        exact add_le_add ha ih
  have htotal := hfloor (l.map weight).sum l
  rcases l.eq_nil_or_concat with rfl | ⟨_, _, hl⟩
  · exact hbudget
  · have hpos : 0 < (l.map weight).sum := by
      refine List.sum_pos _ (fun x hx => ?_) (by simp [hl])
      obtain ⟨a, ha, rfl⟩ := List.mem_map.1 hx
      exact hweight a ha
    rw [mul_div_cancel_right₀ _ hpos.ne'] at htotal
    exact_mod_cast htotal

/-- Shares raised to one token add up to the shares and a token for each share of none. -/
theorem sum_max_one {α : Type} {l : List α} {f : α → ℤ} (hf : ∀ a ∈ l, 0 ≤ f a) :
    (l.map fun a => max (f a) 1).sum =
      (l.map f).sum + ((l.filter fun a => f a = 0).length : ℤ) := by
  induction l with
  | nil => rfl
  | cons a l ih =>
      have ha := hf a (List.mem_cons_self ..)
      have hrest := ih fun b hb => hf b (List.mem_cons_of_mem _ hb)
      rw [List.map_cons, List.sum_cons, List.map_cons, List.sum_cons, hrest]
      by_cases hzero : f a = 0
      · rw [List.filter_cons_of_pos (by simpa using hzero), List.length_cons]
        push_cast
        omega
      · rw [List.filter_cons_of_neg (by simpa using hzero)]
        omega

section Fill

variable {definition : ArenaDefinition ℚ} {caps current : String → ℤ} {budget : ℤ}
  (hnodup : (definition.modules.map ModuleDefinition.moduleId).Nodup)
  (hpositive : ∀ m ∈ definition.modules, 0 < m.weight)

/-- The modules of the first round, in their order. -/
def firstRound (definition : ArenaDefinition ℚ) (caps current : String → ℤ) : List String :=
  ((definition.modules.map ModuleDefinition.moduleId).filter fun id =>
    current id < caps id).insertionSort (· ≤ ·)

theorem firstRound_perm : (firstRound definition caps current).Perm
    ((belowCap definition caps current).map ModuleDefinition.moduleId) := by
  refine (List.perm_insertionSort _ _).trans (List.Perm.of_eq ?_)
  rw [belowCap, List.filter_map]
  rfl

include hnodup

/-- A share of the first round is what is due. -/
theorem weightedShare_firstRound {m : ModuleDefinition ℚ}
    (hm : m ∈ belowCap definition caps current) (hbudget : 0 ≤ budget)
    (hpositive : ∀ m ∈ definition.modules, 0 < m.weight) :
    weightedShare .exact definition budget (firstRound definition caps current) m.moduleId =
        proportionalShare definition caps current budget m ∧
      0 ≤ proportionalShare definition caps current budget m := by
  have hmem : m ∈ definition.modules := (List.mem_filter.1 hm).1
  have hweights : ∀ m ∈ definition.modules,
      perModule definition ModuleDefinition.weight 0 m.moduleId = m.weight :=
    fun m hm => perModule_apply hnodup _ _ hm
  have htotal : ((firstRound definition caps current).map
      (perModule definition ModuleDefinition.weight 0)).sum =
      totalWeight definition caps current := by
    rw [(firstRound_perm.map _).sum_eq, List.map_map, totalWeight]
    exact congrArg List.sum (List.map_congr_left fun m hm => hweights m (List.mem_filter.1 hm).1)
  have hnonneg : 0 ≤ (budget : ℚ) * m.weight / totalWeight definition caps current := by
    have h₁ : (0 : ℚ) ≤ budget := by exact_mod_cast hbudget
    have h₂ := (hpositive m hmem).le
    have h₃ : 0 ≤ totalWeight definition caps current := by
      refine List.sum_nonneg ?_
      intro x hx
      obtain ⟨m', hm', rfl⟩ := List.mem_map.1 hx
      exact (hpositive m' (List.mem_filter.1 hm').1).le
    positivity
  refine ⟨?_, Int.floor_nonneg.2 hnonneg⟩
  have hfold : (firstRound definition caps current).foldl (fun sum id => FloatOps.add sum
      (perModule definition ModuleDefinition.weight (FloatOps.ofInt 0) id)) (FloatOps.ofInt 0) =
      totalWeight definition caps current := by
    rw [← htotal, List.sum_eq_foldl, List.foldl_map]
    rfl
  have hweight : perModule definition ModuleDefinition.weight (FloatOps.ofInt 0) m.moduleId =
      m.weight := hweights m hmem
  rw [weightedShare, hfold, hweight]
  exact if_pos hnonneg

variable (hbudget : 0 ≤ budget)
include hbudget

/-- What the modules before a module take of a first round, and its own share. -/
theorem before_add_share {m : ModuleDefinition ℚ} (hm : m ∈ belowCap definition caps current)
    (hpositive : ∀ m ∈ definition.modules, 0 < m.weight) {before after : List String}
    (hsplit : firstRound definition caps current = before ++ m.moduleId :: after) :
    (before.map fun id =>
        max (weightedShare .exact definition budget
          (firstRound definition caps current) id) 1).sum +
        proportionalShare definition caps current budget m ≤
      budget + (lightBefore definition caps current budget m).length := by
  have hshare : ∀ {m}, m ∈ belowCap definition caps current →
      weightedShare .exact definition budget (firstRound definition caps current) m.moduleId =
          proportionalShare definition caps current budget m ∧
        0 ≤ proportionalShare definition caps current budget m :=
    fun hm => weightedShare_firstRound hnodup hm hbudget hpositive
  have hmem : ∀ id ∈ firstRound definition caps current,
      ∃ m ∈ belowCap definition caps current, m.moduleId = id :=
    fun id hid => List.mem_map.1 (firstRound_perm.mem_iff.1 hid)
  have hnonneg : ∀ id ∈ firstRound definition caps current, 0 ≤
      weightedShare .exact definition budget (firstRound definition caps current) id := by
    intro id hid
    obtain ⟨m', hm', rfl⟩ := hmem id hid
    rw [(hshare hm').1]
    exact (hshare hm').2
  -- all shares together do not exceed the budget
  have htotal : ((firstRound definition caps current).map (weightedShare .exact definition budget
      (firstRound definition caps current))).sum ≤ budget := by
    rw [(firstRound_perm.map _).sum_eq, List.map_map]
    refine (List.sum_le_sum fun m hm => ?_).trans (sum_floor_le (belowCap definition caps current)
      ModuleDefinition.weight (fun m hm => hpositive m (List.mem_filter.1 hm).1) hbudget)
    exact (hshare hm).1.le
  have hsorted : (firstRound definition caps current).Pairwise (· < ·) := by
    have hnodupIds : (firstRound definition caps current).Nodup := by
      rw [firstRound_perm.nodup_iff]
      exact hnodup.sublist (List.filter_sublist.map _)
    have hle : (firstRound definition caps current).Pairwise (· ≤ ·) :=
      List.pairwise_insertionSort (· ≤ ·) _
    exact (hle.and hnodupIds).imp fun h => lt_of_le_of_ne h.1 h.2
  rw [sum_max_one fun id hid => hnonneg id (by rw [hsplit]; simp [hid])]
  have hlight : ((before.filter fun id => weightedShare .exact definition budget
      (firstRound definition caps current) id = 0).length) ≤
      (lightBefore definition caps current budget m).length := by
    rw [← @List.length_map _ _ (lightBefore definition caps current budget m)
      ModuleDefinition.moduleId]
    refine (List.subperm_of_subset ?_ fun id hid => ?_).length_le
    · refine List.Nodup.sublist ?_ hsorted.nodup
      rw [hsplit]
      exact List.filter_sublist.trans (List.sublist_append_left _ _)
    · obtain ⟨hbefore, hzero⟩ := List.mem_filter.1 hid
      obtain ⟨m', hm', rfl⟩ := hmem id (by rw [hsplit]; simp [hbefore])
      have hlt : m'.moduleId < m.moduleId := by
        rw [hsplit, List.pairwise_append] at hsorted
        exact hsorted.2.2 _ hbefore _ (List.mem_cons_self ..)
      rw [(hshare hm').1] at hzero
      exact List.mem_map_of_mem
        (List.mem_filter.2 ⟨hm', decide_eq_true ⟨hlt, of_decide_eq_true hzero⟩⟩)
  have hrest : 0 ≤ (after.map (weightedShare .exact definition budget
      (firstRound definition caps current))).sum := by
    refine List.sum_nonneg ?_
    intro x hx
    obtain ⟨id, hid, rfl⟩ := List.mem_map.1 hx
    exact hnonneg id (by rw [hsplit]; simp [hid])
  have hown := (hshare hm).1
  generalize weightedShare .exact definition budget (firstRound definition caps current) = share
    at htotal hrest hlight hown ⊢
  rw [hsplit, List.map_append, List.sum_append, List.map_cons, List.sum_cons, hown] at htotal
  omega

/-- After the weighted rounds a module still below its cap has its proportional share, but for one
token for each module served before it to whom less than a token is due. -/
theorem share_of_weightedFill (hpositive : ∀ m ∈ definition.modules, 0 < m.weight)
    {m : ModuleDefinition ℚ} (hm : m ∈ definition.modules)
    (hbelow : (weightedFill .exact definition caps current budget).1 m.moduleId <
      caps m.moduleId) :
    proportionalShare definition caps current budget m -
        (lightBefore definition caps current budget m).length ≤
      (weightedFill .exact definition caps current budget).1 m.moduleId - current m.moduleId := by
  have hactive : ∀ id ∈ firstRound definition caps current, current id < caps id := by
    intro id hid
    obtain ⟨m', hm', rfl⟩ := List.mem_map.1 (firstRound_perm.mem_iff.1 hid)
    simpa using (List.mem_filter.1 hm').2
  have hnodupActive : (firstRound definition caps current).Nodup := by
    rw [firstRound_perm.nodup_iff]
    exact hnodup.sublist (List.filter_sublist.map _)
  have hle := @le_fillRounds caps (weightedShare .exact definition) budget.toNat _ hnodupActive
    current budget hactive hbudget m.moduleId
  change current m.moduleId ≤ (weightedFill .exact definition caps current budget).1 m.moduleId
    at hle
  -- it was below its cap from the start
  have hcap : m ∈ belowCap definition caps current :=
    List.mem_filter.2 ⟨hm, decide_eq_true (hle.trans_lt hbelow)⟩
  rcases hbudget.lt_or_eq with hpos | rfl
  · have hmem : m.moduleId ∈ firstRound definition caps current :=
      firstRound_perm.mem_iff.2 (List.mem_map_of_mem hcap)
    obtain ⟨before, after, hsplit⟩ := List.append_of_mem hmem
    have hround := before_add_share hnodup hbudget hcap hpositive hsplit
    have hown := (weightedShare_firstRound hnodup hcap hbudget hpositive).1
    obtain ⟨fuel, hfuel⟩ : ∃ fuel, budget.toNat = fuel + 1 := ⟨budget.toNat - 1, by omega⟩
    have hfill : weightedFill .exact definition caps current budget =
        fillRounds .exact caps (weightedShare .exact definition) (fuel + 1)
          (firstRound definition caps current) current budget := by
      rw [← hfuel]
      rfl
    rw [hfill, fillRounds, if_pos ⟨hpos, List.ne_nil_of_mem hmem⟩] at hbelow ⊢
    generalize weightedShare .exact definition budget (firstRound definition caps current) = share
      at hround hown hbelow ⊢
    have hgain := @fillRound_gain caps share before after m.moduleId (hsplit ▸ hnodupActive)
      ⟨current, budget, 0⟩ (hsplit ▸ hactive) hbudget
    have hstep := @le_fillRound caps share _ hnodupActive ⟨current, budget, 0⟩ hactive hbudget
    rw [← hsplit, hown] at hgain
    simp only at hgain hbelow ⊢
    generalize fillRound .exact caps share (firstRound definition caps current)
      ⟨current, budget, 0⟩ = st at hgain hstep hbelow ⊢
    split at hbelow
    · rename_i hstop
      rw [if_pos hstop]
      simp only at hbelow ⊢
      omega
    · rename_i hrun
      rw [if_neg hrun]
      have hlater := @le_fillRounds caps (weightedShare .exact definition) fuel _
        (hnodupActive.filter fun id => st.current id < caps id) st.current st.remaining
        (fun id hid => of_decide_eq_true (List.mem_filter.1 hid).2) hstep.2.2 m.moduleId
      omega
  · -- without a budget nothing is due
    have hnone : proportionalShare definition caps current 0 m = 0 := by
      simp [proportionalShare]
    rw [hnone]
    omega

end Fill

/-- Two light modules, which are served first, and a heavy one. -/
def crowdedDefinition : ArenaDefinition ℚ where
  arenaId := "crowded"
  modules :=
    [{ moduleId := "a", floorTokens := 0, targetTokens := 5, maxTokens := 5, weight := 1 },
     { moduleId := "b", floorTokens := 0, targetTokens := 5, maxTokens := 5, weight := 1 },
     { moduleId := "heavy", floorTokens := 0, targetTokens := 5, maxTokens := 5, weight := 98 }]

/-- Of five tokens four are due to the heavy module, and it has no less than two of them. -/
theorem share_of_weightedFill_example :
    ∃ m ∈ crowdedDefinition.modules,
      proportionalShare crowdedDefinition (fun _ => 5) (fun _ => 0) 5 m -
          (lightBefore crowdedDefinition (fun _ => 5) (fun _ => 0) 5 m).length = 2 ∧
        2 ≤ (weightedFill .exact crowdedDefinition (fun _ => 5) (fun _ => 0) 5).1 m.moduleId := by
  refine ⟨crowdedDefinition.modules[2], by simp [crowdedDefinition], by decide +kernel, ?_⟩
  have hshare : proportionalShare crowdedDefinition (fun _ => 5) (fun _ => 0) 5
      crowdedDefinition.modules[2] - (lightBefore crowdedDefinition (fun _ => 5) (fun _ => 0) 5
        crowdedDefinition.modules[2]).length ≤ (weightedFill .exact crowdedDefinition (fun _ => 5)
          (fun _ => 0) 5).1 crowdedDefinition.modules[2].moduleId - 0 :=
    share_of_weightedFill (by decide) (by decide) (by decide +kernel) (by simp [crowdedDefinition])
      (by decide +kernel)
  have hdue : proportionalShare crowdedDefinition (fun _ => 5) (fun _ => 0) 5
      crowdedDefinition.modules[2] - (lightBefore crowdedDefinition (fun _ => 5) (fun _ => 0) 5
        crowdedDefinition.modules[2]).length = 2 := by decide +kernel
  omega

/-- Of two tokens one is due to the heavy module, and the light ones take both. -/
theorem crowded_out :
    ¬ ∀ m ∈ crowdedDefinition.modules,
      (weightedFill .exact crowdedDefinition (fun _ => 5) (fun _ => 0) 2).1 m.moduleId < 5 →
        proportionalShare crowdedDefinition (fun _ => 5) (fun _ => 0) 2 m ≤
          (weightedFill .exact crowdedDefinition (fun _ => 5) (fun _ => 0) 2).1 m.moduleId - 0 := by
  decide +kernel

end ContextLease
