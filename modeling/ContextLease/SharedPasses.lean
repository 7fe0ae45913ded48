/-
One id, two passes.

The ids of three text algorithms name a pass of the kernel and a function of the package's catalog.
For each of them the two return the same candidate for some texts and targets only, which can be
told from the text and the target alone.

Main definitions:

* `SamePass` — the texts and targets on which the passes of an id agree.

Main results:

* `candidates_agree_iff` — the kernel and the package return the same candidate exactly on
  `SamePass`.
-/

import ContextLease.TruncatePass

set_option relaxedAutoImplicit false
set_option autoImplicit false

namespace ContextLease

open RustText TextRuns

/-- Joined strings, as lists of characters. -/
theorem intercalate_ofList (sep : String) (pieces : List (List Char)) :
    sep.intercalate (pieces.map String.ofList) = String.ofList (sep.toList.intercalate pieces) := by
  rw [← String.toList_inj, String.toList_intercalate, String.toList_ofList, List.map_map]
  congr 1
  refine (List.map_congr_left fun piece _ => ?_).trans (List.map_id _)
  exact String.toList_ofList

/-- The kernel keeps the first block of every trimmed text. -/
theorem dedupBlocks_ofList (seen blocks : List (List Char)) :
    dedupBlocks (seen.map String.ofList) (blocks.map String.ofList) =
      (keepFirst trimmed seen blocks).map String.ofList := by
  induction blocks generalizing seen with
  | nil => rfl
  | cons block blocks ih =>
      have htrim : trim (String.ofList block) = String.ofList (trimmed block) := by
        rw [trim, String.toList_ofList]
        rfl
      have hseen : (seen.map String.ofList).contains (String.ofList (trimmed block)) = true ↔
          trimmed block ∈ seen := by
        rw [List.contains_iff_mem, List.mem_map]
        constructor
        · rintro ⟨other, hother, heq⟩
          rwa [← String.ofList_inj.1 heq]
        · exact fun h => ⟨_, h, rfl⟩
      rw [List.map_cons, dedupBlocks, keepFirst, htrim]
      simp only [hseen]
      split
      · exact ih seen
      · rw [List.map_cons, ← ih, List.map_cons]

/-- The texts and targets on which the two passes of an id agree. -/
def SamePass (P : Platform) (py : PythonStrings) (target : ℤ) (text : String) :
    TextAlgorithm → Prop
  | .normalizeWhitespace => SameWords text.toList
  | .deduplicateBlocks => SameBlocks py (splitBlankLineChars text.toList)
  | .boundaryTruncate => SameCut P py target text.toList

/-- For each id of a text algorithm that both have, the kernel and the package return the same
candidate for exactly these texts and targets. -/
theorem candidates_agree_iff (P : Platform) (py : PythonStrings) (algorithm : TextAlgorithm)
    (target : ℤ) (text : String) :
    (compressText P regexCounts target algorithm.algorithmId text).val =
        Host.candidate py target text algorithm ↔ SamePass P py target text algorithm := by
  cases algorithm with
  | normalizeWhitespace =>
      have hkernel : (compressText P regexCounts target
          "builtin.text.normalize_whitespace.v1" text).val =
            String.ofList (kernelWords text.toList) := by
        rw [compressText, if_pos (by decide), Flagged.val_pure, splitWhitespace, intercalate_ofList,
          kernelWords, trimmed, ← intercalate_words_eq]
        rfl
      rw [TextAlgorithm.algorithmId, hkernel, Host.candidate, String.ofList_inj]
      exact normalize_agrees_iff text.toList
  | deduplicateBlocks =>
      have hkernel : (compressText P regexCounts target
          "builtin.text.deduplicate_blocks.v1" text).val = String.ofList
            (['\n', '\n'].intercalate (keepFirst trimmed []
              (splitBlankLineChars text.toList))) := by
        have hblocks := dedupBlocks_ofList [] (splitBlankLineChars text.toList)
        rw [List.map_nil] at hblocks
        rw [compressText, if_neg (by decide), if_pos (by decide), Flagged.val_pure, splitBlankLine,
          hblocks, intercalate_ofList]
        rfl
      rw [TextAlgorithm.algorithmId, hkernel, Host.candidate, String.ofList_inj]
      exact deduplicate_agrees_iff py text.toList
  | boundaryTruncate =>
      have hkernel := truncations_agree_iff P py target text.toList
      rw [String.ofList_toList] at hkernel
      rw [TextAlgorithm.algorithmId, compressText, if_neg (by decide), if_neg (by decide),
        if_neg (by decide), if_pos (by decide)]
      exact hkernel

/-- Python's strings on ASCII text. -/
def PythonStrings.ascii : PythonStrings where
  toPythonText := PythonText.ascii
  casefold text := text.map Char.toLower

/-- The kernel joins two lines to one, the package does not. -/
theorem line_break_lost :
    (compressText (Library.ascii id).release regexCounts 8
        "builtin.text.normalize_whitespace.v1" "a\nb").val ≠
      Host.candidate .ascii 8 "a\nb" .normalizeWhitespace := by decide +kernel

end ContextLease
