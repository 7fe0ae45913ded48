/-
Truncation and calibration.

For a character estimator `truncate` does not count every prefix, but keeps the two running sums of
the estimator.  It judges the prefixes by their raw estimate, while the reclaim judges the result by
the calibrated one.  Both loops are the greedy loop of `GreedyPrefix`, for two tests one of which is
stricter.

Main definitions:

* `MultiplierFits` — the multiplier pushes no prefix over the target that was within it.

Main results:

* `truncateCharLoop_eq`, `truncateLoop_eq` — the two loops;
* `truncate_agrees_iff` — the fast path does what counting does exactly when `MultiplierFits`.
-/

import ContextLease.Compress
import ContextLease.GreedyPrefix

set_option relaxedAutoImplicit false
set_option autoImplicit false

namespace ContextLease

open MachineNumbers RustText GreedyPrefix

/-! ### The two loops -/

section Loops

variable (P : Platform) (target : ℤ)

/-- The raw estimate of a list of characters. -/
def charCount (l : List Char) : ℤ := charTokens P (l.foldl (charStep P) (0, 0))

theorem charCount_nil : charCount P [] = 0 := by
  cases h : P.arith with
  | exact => simp [charCount, charTokens, h]
  | release => simp only [charCount, charTokens, List.foldl_nil, h]; decide

/-- The loop with the running sums is the greedy loop for the raw estimate. -/
theorem truncateCharLoop_eq (rest : List Char) (out : String) :
    truncateCharLoop P target rest (out.toList.foldl (charStep P) (0, 0)) out =
      String.ofList (extend (fun l => charCount P l ≤ target) out.toList rest) := by
  induction rest generalizing out with
  | nil => rw [truncateCharLoop, extend, String.ofList_toList]
  | cons ch rest ih =>
      have hnext : charStep P (out.toList.foldl (charStep P) (0, 0)) ch =
          (out.push ch).toList.foldl (charStep P) (0, 0) := by
        rw [String.toList_push, List.foldl_append, List.foldl_cons, List.foldl_nil]
      rw [truncateCharLoop, extend, hnext, ih, String.toList_push]
      change (if charCount P (out.toList ++ [ch]) > target then out else _) = _
      by_cases hfits : charCount P (out.toList ++ [ch]) ≤ target
      · rw [if_pos hfits, if_neg (not_lt.2 hfits)]
      · rw [if_neg hfits, if_pos (not_le.1 hfits), String.ofList_toList]

/-- The loop that counts is the greedy loop for the count. -/
theorem truncateLoop_eq {F : Type} [FloatOps F] (counts : CountContext F) (rest : List Char)
    (out : String) :
    (truncateLoop P counts target rest out).val =
      String.ofList (extend (fun l => (counts.countText P (String.ofList l)).val ≤ target)
        out.toList rest) := by
  induction rest generalizing out with
  | nil => rw [truncateLoop, extend, Flagged.val_pure, String.ofList_toList]
  | cons ch rest ih =>
      have hpush : String.ofList (out.toList ++ [ch]) = out.push ch := by
        rw [← String.toList_push, String.ofList_toList]
      simp only [truncateLoop, Flagged.val_bind, Flagged.val_ite, Flagged.val_pure, ih, extend,
        String.toList_push, hpush]
      by_cases hfits : (counts.countText P (out.push ch)).val ≤ target
      · rw [if_pos hfits, if_neg (not_lt.2 hfits)]
      · rw [if_neg hfits, if_pos (not_le.1 hfits), String.ofList_toList]

section Counting

variable {F : Type} [FloatOps F] {counts : CountContext F} (htarget : 0 < target) (text : String)
include htarget

/-- The characters that counting keeps before it trims. -/
theorem truncateByCount_val : (truncateByCount P counts target text).val =
    trimEnd (String.ofList (extend
      (fun l => (counts.countText P (String.ofList l)).val ≤ target) [] text.toList)) := by
  rw [truncateByCount, if_neg (not_le.2 htarget), Flagged.val_bind, Flagged.val_pure,
    truncateLoop_eq]
  rfl

/-- What counting every prefix returns counts as at most the target, if the empty text does. -/
theorem countText_truncateByCount_le (hempty : (counts.countText P "").val ≤ target) :
    (counts.countText P (truncateByCount P counts target text).val).val ≤ target := by
  rw [← String.ofList_nil] at hempty
  have hwithin := ((prefix_extend_iff
    (fun l => (counts.countText P (String.ofList l)).val ≤ target) hempty text.toList _).1
      (List.prefix_refl _)).2
  rw [truncateByCount_val P target htarget]
  have := hwithin _ (List.rdropWhile_prefix isWhitespace _)
  rwa [trimEnd, String.toList_ofList]

end Counting

end Loops

/-! ### A calibrated estimator -/

/-- A context that counts with a character estimator and a multiplier of at least one. -/
structure CharCalibrated (counts : CountContext ℚ) : Prop where
  no_counter : counts.external = none
  char_estimator : usesCharEstimator counts.tokenizerId = true
  one_le : 1 ≤ counts.safetyMultiplier

section Calibrated

variable (P : Platform) {counts : CountContext ℚ} (h : CharCalibrated counts) (target : ℤ)
include h

theorem CharCalibrated.raw_eq (l : List Char) :
    counts.raw P (String.ofList l) = charCount P l := by
  simp only [CountContext.raw, h.no_counter, estimateText, h.char_estimator, if_true,
    countCharEstimator, String.toList_ofList, charCount]

/-- A count within a positive target comes from a raw estimate within it. -/
theorem CharCalibrated.charCount_le (htarget : 0 < target) {l : List Char}
    (hfits : (counts.countText P (String.ofList l)).val ≤ target) : charCount P l ≤ target := by
  simp only [CountContext.countText, h.raw_eq, h.no_counter, Option.isSome_none,
    Bool.false_eq_true, if_false] at hfits
  split at hfits
  · omega
  · rename_i hraw
    refine le_trans ?_ hfits
    have hscaled : charCount P l ≤ ⌈(charCount P l : ℚ) * counts.safetyMultiplier⌉ := by
      have hprod : (charCount P l : ℚ) * 1 ≤ (charCount P l : ℚ) * counts.safetyMultiplier :=
        mul_le_mul_of_nonneg_left h.one_le (by exact_mod_cast not_lt.1 hraw)
      have hceil := Int.le_ceil ((charCount P l : ℚ) * counts.safetyMultiplier)
      rw [mul_one] at hprod
      exact_mod_cast hprod.trans hceil
    calc charCount P l = P.arith.saturate (charCount P l) :=
          (Arith.saturate_of_fits (P.arith.fits_norm _)).symm
      _ ≤ _ := P.arith.saturate_mono (by simpa using hscaled)

/-- The empty text counts as nothing. -/
theorem CharCalibrated.countText_empty : (counts.countText P "").val = 0 := by
  have hraw : counts.raw P "" = 0 := by
    have := h.raw_eq P []
    rwa [charCount_nil] at this
  simp [CountContext.countText, hraw, h.no_counter, Arith.saturate_of_fits P.arith.fits_zero]

end Calibrated

/-! ### Fast and slow -/

/-- The multiplier pushes no prefix over the target that was within it: of every prefix of the text
that ends in a character that is not white space, the counts are within the target if the raw
estimates are. -/
def MultiplierFits (P : Platform) (counts : CountContext ℚ) (target : ℤ) (text : String) : Prop :=
  0 < target → ∀ p c, p ++ [c] <+: text.toList → isWhitespace c = false →
    Within (fun l => estimateText P (String.ofList l) counts.tokenizerId ≤ target) (p ++ [c]) →
      Within (fun l => (counts.countText P (String.ofList l)).val ≤ target) (p ++ [c])

section Agree

variable (P : Platform) {counts : CountContext ℚ} (h : CharCalibrated counts) {target : ℤ}
  (htarget : 0 < target) (text : String)
include h htarget

/-- The characters the fast path keeps before it trims. -/
theorem truncate_val : (truncate P counts target text).val =
    trimEnd (String.ofList (extend (fun l => charCount P l ≤ target) [] text.toList)) := by
  have hloop := truncateCharLoop_eq P target text.toList ""
  simp only [truncate, h.no_counter, h.char_estimator, Option.isNone_none, Bool.and_self, if_true,
    Flagged.val_pure, truncateCharEstimator, if_neg (not_le.2 htarget)]
  exact congrArg trimEnd hloop

end Agree

/-- The fast path returns what counting every prefix returns, and its result counts as at most the
target, exactly when the multiplier pushes no prefix over the target. -/
theorem truncate_agrees_iff (P : Platform) {counts : CountContext ℚ} (h : CharCalibrated counts)
    (target : ℤ) (text : String) :
    ((truncate P counts target text).val = (truncateByCount P counts target text).val ∧
      (0 ≤ target →
        (counts.countText P (truncate P counts target text).val).val ≤ target)) ↔
      MultiplierFits P counts target text := by
  by_cases htarget : target ≤ 0
  · -- both paths return the empty text
    have hfast : (truncate P counts target text).val = "" := by
      simp [truncate, h.no_counter, h.char_estimator, truncateCharEstimator, htarget]
    have hslow : (truncateByCount P counts target text).val = "" := by
      simp [truncateByCount, htarget]
    rw [hfast, hslow, h.countText_empty]
    exact ⟨fun _ hpos => absurd htarget (not_le.2 hpos), fun _ => ⟨rfl, id⟩⟩
  · rw [not_le] at htarget
    have hempty : (counts.countText P (String.ofList [])).val ≤ target := by
      rw [String.ofList_nil, h.countText_empty]
      omega
    obtain ⟨dropped, hdropped, hjunk⟩ := extend_stricter (fun l => charCount P l ≤ target)
      (fun l => (counts.countText P (String.ofList l)).val ≤ target)
      (fun l hl => h.charCount_le P target htarget hl) hempty (fun c => isWhitespace c = true)
      text.toList
    have hsame : (truncate P counts target text).val =
        (truncateByCount P counts target text).val ↔ ∀ c ∈ dropped, isWhitespace c = true := by
      rw [truncate_val P h htarget, truncateByCount_val P target htarget, ← String.toList_inj,
        toList_trimEnd, toList_trimEnd, String.toList_ofList, String.toList_ofList, hdropped]
      exact trimEnd_eq_iff _ _
    have hfits : MultiplierFits P counts target text ↔
        ∀ c ∈ dropped, isWhitespace c = true := by
      rw [hjunk]
      simp only [MultiplierFits, htarget, true_implies, Bool.not_eq_true, ← h.raw_eq P,
        CountContext.raw, h.no_counter]
    rw [hfits, hsame]
    refine ⟨And.left, fun hall => ⟨hall, fun _ => ?_⟩⟩
    rw [hsame.2 hall]
    exact countText_truncateByCount_le P target htarget text hempty

/-- A model whose prompts were half as long again as estimated. -/
def calibratedCounts : CountContext ℚ := ⟨"cjk_aware_char_estimator", none, 3 / 2⟩

/-- The multiplier pushes no prefix of four letters over two tokens. -/
theorem truncate_agrees_iff_example :
    MultiplierFits (Library.ascii id).release calibratedCounts 2 "abcd" :=
  (truncate_agrees_iff _ ⟨rfl, by decide, by norm_num [calibratedCounts]⟩ 2 "abcd").1
    (by decide +kernel)

/-- After a calibration the fast path keeps a text that counts as more than the target. -/
theorem calibrated_truncate_exceeds :
    ¬ ((truncate (Library.ascii id).release calibratedCounts 2 "abcdefgh").val =
        (truncateByCount (Library.ascii id).release calibratedCounts 2 "abcdefgh").val ∧
      ((0 : ℤ) ≤ 2 → (calibratedCounts.countText (Library.ascii id).release
        (truncate (Library.ascii id).release calibratedCounts 2 "abcdefgh").val).val ≤ 2)) := by
  decide +kernel

end ContextLease
