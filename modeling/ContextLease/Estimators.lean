/-
The estimators on joined texts.

Over unbounded integers both estimators are sums over the characters, up to one rounding of the
character estimator.  The regular-expression estimator does not count the separators of a join; for
the character estimator every separator adds two units, which rounding can hide.

Main definitions:

* `charSums` — the two sums of the character estimator;
* `separatorTokens` — what the separators of a join can add to the counts of its pieces;
* `Estimated` — counting with a calibrated built-in estimator.

Main results:

* `estimateText_join_le` — a join counts at most its pieces and the separators;
* `estimateText_join_eq` — exactly that many, when no piece leaves a unit over;
* `Estimated.countText_join_le` — the same for a calibrated count;
* `Estimated.renderSeparatorTokens_val` — what a request sets aside for separators.
-/

import Mathlib.Algebra.Group.Prod
import Mathlib.Algebra.Order.BigOperators.Group.List
import ContextLease.Joined
import ContextLease.Prepare

set_option relaxedAutoImplicit false
set_option autoImplicit false

namespace ContextLease

open MachineNumbers RustText

variable (lib : Library)

/-! ### The regular-expression estimator -/

/-- The count so far is added to the count of the rest. -/
theorem countTextLoop_add (l : List Char) (inWord : Bool) (tokens : ℤ) :
    countTextLoop lib.exact l inWord tokens = tokens + countTextLoop lib.exact l inWord 0 := by
  induction l generalizing inWord tokens with
  | nil => simp [countTextLoop]
  | cons ch l ih =>
      simp only [countTextLoop, Arith.add_exact]
      split
      · rw [ih, ih _ (0 + 1)]
        omega
      · exact ih _ _

theorem countTextLoop_nonneg (l : List Char) (inWord : Bool) :
    0 ≤ countTextLoop lib.exact l inWord 0 := by
  induction l generalizing inWord with
  | nil => exact le_refl 0
  | cons ch l ih =>
      simp only [countTextLoop, Arith.add_exact]
      split
      · rw [countTextLoop_add]
        have hrest := ih (lib.isAlphanumeric ch || ch == '_')
        omega
      · exact ih _

/-- A newline ends a word. -/
theorem countTextLoop_newline (l l' : List Char) (inWord : Bool) :
    countTextLoop lib.exact (l ++ '\n' :: l') inWord 0 =
      countTextLoop lib.exact l inWord 0 + countTextLoop lib.exact l' false 0 := by
  induction l generalizing inWord with
  | nil =>
      have hspace : isWhitespace '\n' = true := by decide
      have hletter : lib.isAlphanumeric '\n' = false := by
        cases h : lib.isAlphanumeric '\n' with
        | false => rfl
        | true => exact absurd (lib.not_whitespace _ h) (by rw [hspace]; decide)
      simp [countTextLoop, hspace, hletter]
  | cons ch l ih =>
      simp only [List.cons_append, countTextLoop]
      rw [countTextLoop_add, countTextLoop_add lib l, ih]
      omega

/-- Words do not cross a separator. -/
theorem countText_separated (x y : String) :
    countText lib.exact (x ++ "\n\n" ++ y) = countText lib.exact x + countText lib.exact y := by
  have hsep : ("\n\n" : String).toList = ['\n', '\n'] := by decide
  simp only [countText, String.toList_append, hsep, List.append_assoc, List.cons_append,
    List.nil_append]
  rw [countTextLoop_newline, ← List.nil_append ('\n' :: y.toList), countTextLoop_newline]
  simp [countTextLoop]

/-- A join has the words of its pieces. -/
theorem countText_join (pieces : List String) :
    countText lib.exact ("\n\n".intercalate pieces) =
      (pieces.map (countText lib.exact)).sum := by
  have hwords : countText lib.exact ("\n\n".intercalate pieces) = _ :=
    Joined.sum_of_join rfl (fun x y => by rw [countText_separated, add_zero]) pieces
  rw [hwords, nsmul_zero, add_zero]

/-! ### The character estimator -/

/-- The two sums of the character estimator. -/
def charSums (text : String) : ℤ × ℤ := text.toList.foldl (charStep lib.exact) (0, 0)

theorem foldl_charStep (l : List Char) (sums : ℤ × ℤ) :
    l.foldl (charStep lib.exact) sums = sums + l.foldl (charStep lib.exact) (0, 0) := by
  induction l generalizing sums with
  | nil => exact (add_zero sums).symm
  | cons ch l ih =>
      rw [List.foldl_cons, List.foldl_cons, ih, ih (charStep lib.exact (0, 0) ch), ← add_assoc]
      congr 1
      simp only [charStep, Arith.add_exact]
      split
      · simp [Prod.ext_iff]
      · simp [Prod.ext_iff]

theorem charSums_append (x y : String) :
    charSums lib (x ++ y) = charSums lib x + charSums lib y := by
  rw [charSums, String.toList_append, List.foldl_append, foldl_charStep]
  rfl

theorem charSums_separated (x y : String) :
    charSums lib (x ++ "\n\n" ++ y) = charSums lib x + (0, 2) + charSums lib y := by
  have hsep : charSums lib "\n\n" = (0, 2) := rfl
  rw [charSums_append, charSums_append, hsep]

theorem charSums_nonneg (text : String) :
    0 ≤ (charSums lib text).1 ∧ 0 ≤ (charSums lib text).2 := by
  have hloop : ∀ (l : List Char) (sums : ℤ × ℤ), 0 ≤ sums.1 ∧ 0 ≤ sums.2 →
      0 ≤ (l.foldl (charStep lib.exact) sums).1 ∧ 0 ≤ (l.foldl (charStep lib.exact) sums).2 := by
    intro l
    induction l with
    | nil => exact fun sums h => h
    | cons ch l ih =>
        intro sums h
        refine ih _ ?_
        have hunits := lenUtf16_pos ch
        simp only [charStep, Arith.add_exact]
        split
        · exact ⟨by omega, h.2⟩
        · exact ⟨h.1, by omega⟩
  exact hloop text.toList (0, 0) ⟨le_refl 0, le_refl 0⟩

/-- The character estimator rounds the units of its second sum up to whole tokens. -/
theorem countCharEstimator_eq (text : String) :
    countCharEstimator lib.exact text =
      (charSums lib text).1 + ((charSums lib text).2 + 3) / 4 := by
  have hunits := (charSums_nonneg lib text).2
  change (charSums lib text).1 + ((charSums lib text).2 + 3).tdiv 4 = _
  rw [Int.tdiv_eq_ediv_of_nonneg (by omega)]

/-- The sums of a join: every separator adds two units. -/
theorem charSums_join (pieces : List String) :
    charSums lib ("\n\n".intercalate pieces) =
      ((pieces.map fun x => (charSums lib x).1).sum,
        (pieces.map fun x => (charSums lib x).2).sum + 2 * ((pieces.length - 1 : ℕ) : ℤ)) := by
  have hsums : charSums lib ("\n\n".intercalate pieces) =
      (pieces.map (charSums lib)).sum + (pieces.length - 1) • (0, 2) :=
    Joined.sum_of_join rfl (charSums_separated lib) pieces
  have hfst := map_list_sum (AddMonoidHom.fst ℤ ℤ) (pieces.map (charSums lib))
  have hsnd := map_list_sum (AddMonoidHom.snd ℤ ℤ) (pieces.map (charSums lib))
  rw [List.map_map] at hfst hsnd
  rw [hsums]
  refine Prod.ext ?_ ?_
  · simpa [Function.comp_def] using hfst
  · simpa [Function.comp_def, mul_comm] using hsnd

/-! ### Joins -/

section Join

variable (tokenizerId : String)

/-- What the separators between `pieces` pieces can add to the estimates of the pieces. -/
def separatorTokens (usesChar : Bool) (pieces : ℕ) : ℤ := if usesChar then (pieces / 2 : ℕ) else 0

theorem separatorTokens_mono (usesChar : Bool) {n k : ℕ} (h : n ≤ k) :
    separatorTokens usesChar n ≤ separatorTokens usesChar k := by
  cases usesChar with
  | false => exact le_refl 0
  | true =>
      simp only [separatorTokens, if_true]
      omega

/-- Units rounded up one by one are at least as many as units rounded up together. -/
theorem sum_le_rounded (l : List ℤ) : l.sum ≤ 4 * (l.map fun units => (units + 3) / 4).sum := by
  induction l with
  | nil => simp
  | cons units l ih =>
      rw [List.sum_cons, List.map_cons, List.sum_cons]
      omega

/-- Without remainders nothing is rounded. -/
theorem sum_eq_rounded {l : List ℤ} (h : ∀ units ∈ l, 4 ∣ units) :
    l.sum = 4 * (l.map fun units => (units + 3) / 4).sum := by
  induction l with
  | nil => simp
  | cons units l ih =>
      have hunits := h units (List.mem_cons_self ..)
      specialize ih fun x hx => h x (List.mem_cons_of_mem _ hx)
      rw [List.sum_cons, List.map_cons, List.sum_cons]
      omega

/-- The estimate of a join by the character estimator, piece by piece. -/
theorem countCharEstimator_join (pieces : List String) :
    countCharEstimator lib.exact ("\n\n".intercalate pieces) =
        (pieces.map fun x => (charSums lib x).1).sum +
          ((pieces.map fun x => (charSums lib x).2).sum +
            2 * ((pieces.length - 1 : ℕ) : ℤ) + 3) / 4 ∧
      (pieces.map (countCharEstimator lib.exact)).sum =
        (pieces.map fun x => (charSums lib x).1).sum +
          ((pieces.map fun x => (charSums lib x).2).map fun units => (units + 3) / 4).sum := by
  refine ⟨by rw [countCharEstimator_eq, charSums_join], ?_⟩
  rw [List.map_map, ← List.sum_map_add]
  exact congrArg List.sum (List.map_congr_left fun x _ => countCharEstimator_eq lib x)

/-- A join counts at most its pieces and the separators. -/
theorem estimateText_join_le (pieces : List String) :
    estimateText lib.exact ("\n\n".intercalate pieces) tokenizerId ≤
      (pieces.map fun x => estimateText lib.exact x tokenizerId).sum +
        separatorTokens (usesCharEstimator tokenizerId) pieces.length := by
  unfold estimateText
  cases usesCharEstimator tokenizerId with
  | false =>
      simp only [Bool.false_eq_true, if_false, separatorTokens, add_zero]
      exact (countText_join lib pieces).le
  | true =>
      simp only [if_true, separatorTokens]
      obtain ⟨hjoin, hpieces⟩ := countCharEstimator_join lib pieces
      have hrounded := sum_le_rounded (pieces.map fun x => (charSums lib x).2)
      rw [hjoin, hpieces]
      omega

/-- A join counts exactly its pieces and the separators, if no piece leaves a unit over. -/
theorem estimateText_join_eq {pieces : List String} (h : ∀ x ∈ pieces, 4 ∣ (charSums lib x).2) :
    estimateText lib.exact ("\n\n".intercalate pieces) tokenizerId =
      (pieces.map fun x => estimateText lib.exact x tokenizerId).sum +
        separatorTokens (usesCharEstimator tokenizerId) pieces.length := by
  unfold estimateText
  cases usesCharEstimator tokenizerId with
  | false =>
      simp only [Bool.false_eq_true, if_false, separatorTokens, add_zero]
      exact countText_join lib pieces
  | true =>
      simp only [if_true, separatorTokens]
      obtain ⟨hjoin, hpieces⟩ := countCharEstimator_join lib pieces
      have hrounded := sum_eq_rounded (l := pieces.map fun x => (charSums lib x).2) (by
        intro units hunits
        obtain ⟨x, hx, rfl⟩ := List.mem_map.1 hunits
        exact h x hx)
      rw [hjoin, hpieces]
      omega

theorem estimateText_empty : estimateText lib.exact "" tokenizerId = 0 := by
  unfold estimateText
  split
  · rfl
  · rfl

/-- Separators alone are a join of empty pieces. -/
theorem join_replicate (sep : String) (n : ℕ) :
    String.join (List.replicate (n - 1) sep) = sep.intercalate (List.replicate n "") := by
  cases n with
  | zero => rfl
  | succ n =>
      rw [Nat.add_sub_cancel]
      induction n with
      | zero => rfl
      | succ n ih =>
          have hne : List.replicate (n + 1) "" ≠ [] := by simp
          calc String.join (List.replicate (n + 1) sep)
              = sep ++ String.join (List.replicate n sep) := by
                rw [List.replicate_succ, String.join_cons]
            _ = "" ++ sep ++ sep.intercalate (List.replicate (n + 1) "") := by
                rw [ih, String.empty_append]
            _ = sep.intercalate (List.replicate (n + 1 + 1) "") :=
                (String.intercalate_cons_of_ne_nil hne).symm

/-- What separators count alone is what they can add to a join. -/
theorem estimateText_separators (n : ℕ) :
    estimateText lib.exact (String.join (List.replicate (n - 1) "\n\n")) tokenizerId =
      separatorTokens (usesCharEstimator tokenizerId) n := by
  rw [join_replicate, estimateText_join_eq]
  · rw [List.map_replicate, estimateText_empty, List.length_replicate]
    simp
  · intro x hx
    rw [List.eq_of_mem_replicate hx]
    exact Int.dvd_zero 4

theorem estimateText_nonneg (text : String) : 0 ≤ estimateText lib.exact text tokenizerId := by
  unfold estimateText
  split
  · have hsums := charSums_nonneg lib text
    rw [countCharEstimator_eq]
    omega
  · exact countTextLoop_nonneg lib text.toList false

end Join

/-! ### Calibrated counts -/

/-- A context that counts with a built-in estimator and a multiplier of at least one. -/
structure Estimated (counts : CountContext ℚ) : Prop where
  no_counter : counts.external = none
  one_le : 1 ≤ counts.safetyMultiplier

/-- An estimate scaled by a multiplier. -/
def scaled (multiplier : ℚ) (tokens : ℤ) : ℤ := ⌈(tokens : ℚ) * multiplier⌉

theorem scaled_mono {multiplier : ℚ} (h : 1 ≤ multiplier) {x y : ℤ} (hxy : x ≤ y) :
    scaled multiplier x ≤ scaled multiplier y :=
  Int.ceil_mono (mul_le_mul_of_nonneg_right (by exact_mod_cast hxy) (by linarith))

theorem scaled_zero (multiplier : ℚ) : scaled multiplier 0 = 0 := by simp [scaled]

theorem scaled_one (tokens : ℤ) : scaled 1 tokens = tokens := by simp [scaled]

/-- Scaling together rounds up less than scaling one by one. -/
theorem scaled_add_le (multiplier : ℚ) (x y : ℤ) :
    scaled multiplier (x + y) ≤ scaled multiplier x + scaled multiplier y := by
  unfold scaled
  rw [Int.cast_add, add_mul]
  exact Int.ceil_add_le _ _

section Calibrated

variable {counts : CountContext ℚ} (h : Estimated counts)
include h

theorem Estimated.countText_val (text : String) :
    (counts.countText lib.exact text).val =
      scaled counts.safetyMultiplier (estimateText lib.exact text counts.tokenizerId) := by
  have hraw := estimateText_nonneg lib counts.tokenizerId text
  simp only [CountContext.countText, CountContext.raw, h.no_counter, Option.isSome_none,
    Bool.false_eq_true, if_false]
  rw [if_neg (not_lt.2 hraw)]
  simp [scaled]

theorem Estimated.scales : counts.Scales := by
  refine CountContext.scales_of_clamped (x := counts.safetyMultiplier) ?_
  simp [h.one_le]

/-- A join counts at most its pieces and the separators. -/
theorem Estimated.countText_join_le (pieces : List String) :
    (counts.countText lib.exact ("\n\n".intercalate pieces)).val ≤
      (pieces.map fun x => (counts.countText lib.exact x).val).sum +
        scaled counts.safetyMultiplier
          (separatorTokens (usesCharEstimator counts.tokenizerId) pieces.length) := by
  simp only [h.countText_val]
  have hpieces := List.le_sum_of_subadditive (scaled counts.safetyMultiplier)
    (scaled_zero _).le (scaled_add_le _)
    (pieces.map fun x => estimateText lib.exact x counts.tokenizerId)
  rw [List.map_map] at hpieces
  calc scaled counts.safetyMultiplier
        (estimateText lib.exact ("\n\n".intercalate pieces) counts.tokenizerId)
      ≤ scaled counts.safetyMultiplier
          ((pieces.map fun x => estimateText lib.exact x counts.tokenizerId).sum +
            separatorTokens (usesCharEstimator counts.tokenizerId) pieces.length) :=
        scaled_mono h.one_le (estimateText_join_le lib _ pieces)
    _ ≤ scaled counts.safetyMultiplier
          (pieces.map fun x => estimateText lib.exact x counts.tokenizerId).sum +
        scaled counts.safetyMultiplier
          (separatorTokens (usesCharEstimator counts.tokenizerId) pieces.length) :=
        scaled_add_le _ _ _
    _ ≤ _ := by
        have := hpieces
        simp only [Function.comp_def] at this
        omega

/-- What a request sets aside for separators. -/
theorem Estimated.renderSeparatorTokens_val
    (contributions : HashMap (ModuleContribution ℚ)) (definition : ArenaDefinition ℚ) :
    (renderSeparatorTokens lib.exact counts contributions definition).val =
      scaled counts.safetyMultiplier (separatorTokens (usesCharEstimator counts.tokenizerId)
        (renderedModuleCount contributions definition)) := by
  simp only [renderSeparatorTokens]
  split
  · rename_i hfew
    have hnone : separatorTokens (usesCharEstimator counts.tokenizerId)
        (renderedModuleCount contributions definition) = 0 := by
      unfold separatorTokens
      split
      · omega
      · rfl
    rw [hnone, scaled_zero]
    rfl
  · rw [h.countText_val, estimateText_separators]

end Calibrated

end ContextLease
