/-
Passes that do not grow.

The four text passes of the kernel shorten a text or are stopped at the target.  Neither estimator
counts more for what they return: the words of a text do not depend on its gaps, and what a space
takes the place of weighs at least as much, whichever of the two sums of the character estimator it
was in.  So the test of a deterministic candidate only ever asks for the required terms.

Main definitions:

* `Lighter` — a text that is no heavier than another for either estimator;
* `textPasses` — the ids of the passes.

Main results:

* `Lighter.countText_le` — a lighter text counts no more, whatever the multiplier;
* `lighter_of_start`, `lighter_words`, `lighter_blocks` — what the passes return is lighter;
* `text_passes_never_grow` — the passes never grow a text.
-/

import ContextLease.SharedPasses
import ContextLease.TruncatingPipelines

set_option relaxedAutoImplicit false
set_option autoImplicit false

namespace ContextLease

open MachineNumbers RustText

/-! ### Weights -/

section Weights

/-- What a character adds to the first sum of the character estimator. -/
def cjkWeight (c : Char) : ℤ := if isCjkEstimatorChar c then 1 else 0

/-- What a character adds to the two sums together. -/
def fullWeight (c : Char) : ℤ := if isCjkEstimatorChar c then 1 else lenUtf16 c

theorem cjkWeight_nonneg (c : Char) : 0 ≤ cjkWeight c := by
  rw [cjkWeight]
  split
  · exact zero_le_one
  · exact le_refl 0

theorem one_le_fullWeight (c : Char) : 1 ≤ fullWeight c := by
  rw [fullWeight]
  split
  · exact le_refl 1
  · exact lenUtf16_pos c

/-- The sums of the character estimator are sums over the characters. -/
theorem charSums_eq (lib : Library) (text : String) :
    (charSums lib text).1 = (text.toList.map cjkWeight).sum ∧
      (charSums lib text).1 + (charSums lib text).2 = (text.toList.map fullWeight).sum := by
  rw [charSums]
  induction text.toList with
  | nil => exact ⟨rfl, rfl⟩
  | cons c l ih =>
      obtain ⟨hcjk, hfull⟩ := ih
      rw [List.foldl_cons, foldl_charStep, List.map_cons, List.map_cons, List.sum_cons,
        List.sum_cons, Prod.fst_add, Prod.snd_add, cjkWeight, fullWeight]
      simp only [charStep, Arith.add_exact]
      split
      · simp only
        omega
      · simp only
        omega

end Weights

/-! ### Lighter texts -/

section Lighter

variable (lib : Library)

/-- A text that is no heavier than another: it has no more words, and no more weight in the first
sum of the character estimator and in both together. -/
structure Lighter (x y : String) : Prop where
  words : countText lib.exact x ≤ countText lib.exact y
  cjk : (x.toList.map cjkWeight).sum ≤ (y.toList.map cjkWeight).sum
  full : (x.toList.map fullWeight).sum ≤ (y.toList.map fullWeight).sum

variable {lib}

/-- A lighter text is estimated at no more tokens: a character that goes over from the first sum
to the second saves a token and costs at most one. -/
theorem Lighter.estimateText_le {x y : String} (h : Lighter lib x y) (tokenizerId : String) :
    estimateText lib.exact x tokenizerId ≤ estimateText lib.exact y tokenizerId := by
  unfold estimateText
  split
  · have hcjk := h.cjk
    have hfull := h.full
    rw [← (charSums_eq lib x).1, ← (charSums_eq lib y).1] at hcjk
    rw [← (charSums_eq lib x).2, ← (charSums_eq lib y).2] at hfull
    rw [countCharEstimator_eq, countCharEstimator_eq]
    omega
  · exact h.words

/-- A lighter text counts no more. -/
theorem Lighter.countText_le {counts : CountContext ℚ} (hcounts : Estimated counts) {x y : String}
    (h : Lighter lib x y) :
    (counts.countText lib.exact x).val ≤ (counts.countText lib.exact y).val := by
  rw [hcounts.countText_val, hcounts.countText_val]
  exact scaled_mono hcounts.one_le (h.estimateText_le _)

theorem countText_eq_starts (text : String) : countText lib.exact text =
    WordScan.starts lib.isWord isWhitespace false text.toList := by
  have hloop := countTextLoop_eq lib.exact text.toList false 0
  rw [Arith.norm_exact, Arith.norm_exact, zero_add] at hloop
  exact hloop

variable (lib) in
/-- The start of a text is lighter. -/
theorem lighter_of_start {x y : String} (h : x.toList <+: y.toList) : Lighter lib x y := by
  have hsum : ∀ weight : Char → ℤ, (∀ c, 0 ≤ weight c) →
      (x.toList.map weight).sum ≤ (y.toList.map weight).sum := by
    intro weight hweight
    refine (h.sublist.map weight).sum_le_sum ?_
    intro n hn
    obtain ⟨c, -, rfl⟩ := List.mem_map.1 hn
    exact hweight c
  refine ⟨?_, hsum _ cjkWeight_nonneg, hsum _ fun c => zero_le_one.trans (one_le_fullWeight c)⟩
  obtain ⟨rest, hrest⟩ := h
  rw [countText_eq_starts, countText_eq_starts, ← hrest]
  exact_mod_cast WordScan.starts_le_append ..

/-! ### The passes -/

variable (lib) in
/-- The words of a text, one space between neighbours, are lighter than the text. -/
theorem lighter_words (text : String) :
    Lighter lib (" ".intercalate (splitWhitespace text)) text := by
  have hspace : (" " : String).toList = [' '] := by decide
  -- what is joined is the text without its last gap, all other gaps collapsed
  have hjoined : (" ".intercalate (splitWhitespace text)).toList =
      TextRuns.collapseFrom ' ' isWhitespace true (text.toList.rdropWhile isWhitespace) := by
    rw [splitWhitespace, intercalate_ofList, String.toList_ofList, hspace]
    exact (TextRuns.intercalate_words text.toList).1
  have htrimmed := lighter_of_start lib (trimEnd_starts text)
  refine ⟨?_, ?_, ?_⟩
  · refine le_trans (le_of_eq ?_) htrimmed.words
    rw [countText_eq_starts, countText_eq_starts, hjoined, toList_trimEnd,
      WordScan.starts_collapseFrom _ _ lib.isWord_not_whitespace (by decide) _ fun _ => rfl]
  · have hgap : cjkWeight ' ' = 0 := by decide
    refine le_trans ?_ htrimmed.cjk
    rw [hjoined, toList_trimEnd]
    exact TextRuns.sum_collapseFrom_le cjkWeight_nonneg
      (fun c _ => hgap.trans_le (cjkWeight_nonneg c)) _ _
  · have hgap : fullWeight ' ' = 1 := by decide
    refine le_trans ?_ htrimmed.full
    rw [hjoined, toList_trimEnd]
    exact TextRuns.sum_collapseFrom_le (fun c => zero_le_one.trans (one_le_fullWeight c))
      (fun c _ => hgap.trans_le (one_le_fullWeight c)) _ _

theorem dedupBlocks_sublist (seen blocks : List String) :
    (dedupBlocks seen blocks).Sublist blocks := by
  induction blocks generalizing seen with
  | nil => exact List.Sublist.refl _
  | cons block blocks ih =>
      rw [dedupBlocks]
      split
      · exact (ih seen).cons block
      · exact (ih _).cons_cons block

variable (lib) in
/-- The blocks of a text that are kept are lighter than the text. -/
theorem lighter_blocks (text : String) :
    Lighter lib ("\n\n".intercalate (dedupBlocks [] (splitBlankLine text))) text := by
  have hsublist := dedupBlocks_sublist [] (splitBlankLine text)
  have htext : "\n\n".intercalate (splitBlankLine text) = text := by
    have hbreak : ("\n\n" : String).toList = ['\n', '\n'] := by decide
    rw [splitBlankLine, intercalate_ofList, hbreak, intercalate_splitBlankLineChars,
      String.ofList_toList]
  generalize splitBlankLine text = blocks at hsublist htext
  rw [← htext]
  have hsum : ∀ weight : Char → ℤ, (∀ c, 0 ≤ weight c) →
      (("\n\n".intercalate (dedupBlocks [] blocks)).toList.map weight).sum ≤
        (("\n\n".intercalate blocks).toList.map weight).sum := by
    intro weight hweight
    have hnonneg : ∀ l : List Char, 0 ≤ (l.map weight).sum := by
      intro l
      refine List.sum_nonneg ?_
      intro n hn
      obtain ⟨c, -, rfl⟩ := List.mem_map.1 hn
      exact hweight c
    refine @Joined.join_le_of_sublist ℤ _ _ _ (fun text => (text.toList.map weight).sum) _ _ rfl
      (fun x y => ?_) (fun x => hnonneg x.toList) (hnonneg "\n\n".toList) _ _ hsublist
    rw [String.toList_append, String.toList_append, List.map_append, List.map_append,
      List.sum_append, List.sum_append]
  refine ⟨?_, hsum _ cjkWeight_nonneg, hsum _ fun c => zero_le_one.trans (one_le_fullWeight c)⟩
  exact Joined.join_le_of_sublist rfl
    (fun x y => (countText_separated lib x y).trans (by rw [add_zero]))
    (fun x => countTextLoop_nonneg lib x.toList false) (le_refl 0) hsublist

end Lighter

/-! ### The loops -/

section Loops

variable (P : Platform) {F : Type} [FloatOps F] (counts : CountContext F) (target : ℤ)

/-- A truncated text is the start of the text. -/
theorem truncate_starts (text : String) :
    (truncate P counts target text).val.toList <+: text.toList := by
  -- either loop extends a prefix, and trimming takes off the end of it
  have hloop : ∀ kept : List Char, kept <+: text.toList →
      (trimEnd (String.ofList kept)).toList <+: text.toList := by
    intro kept hkept
    have htrimmed := trimEnd_starts (String.ofList kept)
    rw [String.toList_ofList] at htrimmed
    exact htrimmed.trans hkept
  rw [truncate]
  split
  · rw [Flagged.val_pure, truncateCharEstimator]
    split
    · exact List.nil_prefix
    · have hchars := truncateCharLoop_eq P target text.toList ""
      rw [String.toList_empty, List.foldl_nil] at hchars
      rw [hchars]
      exact hloop _ (GreedyPrefix.extend_prefix ..)
  · by_cases htarget : target ≤ 0
    · rw [truncateByCount, if_pos htarget]
      exact List.nil_prefix
    · rw [truncateByCount_val P target (not_le.1 htarget)]
      exact hloop _ (GreedyPrefix.extend_prefix ..)

/-- The sentences that are selected count as at most the target, if there are any. -/
theorem selectLoop_le (sentences : List String) {result : String}
    (h : result = "" ∨ (counts.countText P result).val ≤ target) :
    (selectLoop P counts target sentences result).val = "" ∨
      (counts.countText P (selectLoop P counts target sentences result).val).val ≤ target := by
  induction sentences generalizing result with
  | nil => exact h
  | cons sentence rest ih =>
      rw [selectLoop]
      generalize (if result.isEmpty then trim sentence else result ++ " " ++ trim sentence) = next
      rw [Flagged.val_bind, Flagged.val_ite]
      split
      · exact h
      · rename_i hfits
        exact ih (Or.inr (not_lt.1 hfits))

end Loops

/-! ### No pass grows a text -/

/-- The ids of the text passes of the kernel. -/
def textPasses : List String :=
  ["builtin.text.normalize_whitespace.v1", "builtin.text.deduplicate_blocks.v1",
    "builtin.text.extractive_sentence_rank.v1", "builtin.text.boundary_truncate.v1"]

/-- What a pass returns is lighter than the text, or within the target. -/
theorem lighter_or_le (lib : Library) (counts : CountContext ℚ) {id : String}
    (hid : id ∈ textPasses) (target : ℤ) (text : String) :
    Lighter lib (compressText lib.exact counts target id text).val text ∨
      (counts.countText lib.exact (compressText lib.exact counts target id text).val).val ≤
        target := by
  have htruncate : Lighter lib (truncate lib.exact counts target text).val text :=
    lighter_of_start lib (truncate_starts lib.exact counts target text)
  simp only [textPasses, List.mem_cons, List.not_mem_nil, or_false] at hid
  rcases hid with rfl | rfl | rfl | rfl
  · exact Or.inl (lighter_words lib text)
  · exact Or.inl (lighter_blocks lib text)
  · have hselect : compressText lib.exact counts target
        "builtin.text.extractive_sentence_rank.v1" text =
          selectSentences lib.exact counts target text := rfl
    rw [hselect, selectSentences, Flagged.val_bind, Flagged.val_ite]
    split
    · exact Or.inl htruncate
    · rename_i hsome
      rcases selectLoop_le lib.exact counts target (splitInclusive isSentenceEnd text)
        (Or.inl rfl) with hnone | hle
      · rw [hnone] at hsome
        exact absurd rfl hsome
      · exact Or.inr hle
  · exact Or.inl htruncate

/-- No text pass grows a text that exceeds the target, under either estimator and every multiplier
of at least one; so its candidate is adopted exactly if it keeps the required terms. -/
theorem text_passes_never_grow (lib : Library) {counts : CountContext ℚ} (h : Estimated counts)
    {id : String} (hid : id ∈ textPasses) {target : ℤ} {text : String}
    (hexceeds : target < (counts.countText lib.exact text).val) (required : List String) :
    (counts.countText lib.exact (compressText lib.exact counts target id text).val).val ≤
        (counts.countText lib.exact text).val ∧
      ((keepsContract lib.exact counts required text
          (compressText lib.exact counts target id text).val).val = true ↔
        ∀ term ∈ required, Occurs term (compressText lib.exact counts target id text).val) := by
  have hle : (counts.countText lib.exact (compressText lib.exact counts target id text).val).val ≤
      (counts.countText lib.exact text).val := by
    rcases lighter_or_le lib counts hid target text with hlighter | hreached
    · exact hlighter.countText_le h
    · exact hreached.trans hexceeds.le
  refine ⟨hle, ?_⟩
  rw [keepsContract_val]
  exact and_iff_right hle

/-- A wide space saves a token when it is replaced. -/
theorem text_passes_never_grow_example :
    ((calibratedCounts.countText (Library.ascii id).exact
        (compressText (Library.ascii id).exact calibratedCounts 1
          "builtin.text.normalize_whitespace.v1" "a\u3000b").val).val ≤
      (calibratedCounts.countText (Library.ascii id).exact "a\u3000b").val) ∧
    ((keepsContract (Library.ascii id).exact calibratedCounts ["b"] "a\u3000b"
        (compressText (Library.ascii id).exact calibratedCounts 1
          "builtin.text.normalize_whitespace.v1" "a\u3000b").val).val = true) := by
  have hshrinks := @text_passes_never_grow (Library.ascii id) calibratedCounts
    ⟨rfl, by norm_num [calibratedCounts]⟩ "builtin.text.normalize_whitespace.v1" (by decide) 1
    "a\u3000b" (by decide +kernel) ["b"]
  exact ⟨hshrinks.1, hshrinks.2.2 (by decide +kernel)⟩

end ContextLease
