/-
The blocks of a text, each of them once.

The kernel splits a text at every `"\\n\\n"`, keeps the first block of every trimmed text and joins
what it keeps.  A block has no two newlines in a row, and only the last one of a text may end in
one; this is still so for the blocks that are kept, so that splitting the result gives them back,
and there is nothing to drop any more.

Main definitions:

* `firstBlocks` — the blocks whose trimmed text no earlier block has.

Main results:

* `dedupBlocks_eq_firstBlocks` — the pass keeps these blocks;
* `splitBlankLine_firstBlocks` — splitting the result gives them back;
* `deduplicate_canonical` — what the pass returns, and that it is idempotent.
-/

import ContextLease.SharedPasses

set_option relaxedAutoImplicit false
set_option autoImplicit false

namespace ContextLease

open MachineNumbers RustText TextRuns

/-- The blocks whose trimmed text no earlier block has. -/
def firstBlocks (blocks : List String) : List String :=
  (blocks.zipIdx.filter fun p => (blocks.take p.2).all fun block => trim block != trim p.1).map
    Prod.fst

theorem dedupBlocks_eq_keepFirst (seen blocks : List String) :
    dedupBlocks seen blocks = keepFirst trim seen blocks := by
  induction blocks generalizing seen with
  | nil => rfl
  | cons block blocks ih =>
      rw [dedupBlocks, keepFirst]
      simp only [List.contains_iff_mem, ih]

/-- The pass keeps the first block of every trimmed text. -/
theorem dedupBlocks_eq_firstBlocks (blocks : List String) :
    dedupBlocks [] blocks = firstBlocks blocks := by
  rw [dedupBlocks_eq_keepFirst, keepFirst_eq_firsts]
  rfl

/-- The trimmed texts of the blocks that are kept are all different. -/
theorem nodup_firstBlocks (blocks : List String) : ((firstBlocks blocks).map trim).Nodup := by
  rw [← dedupBlocks_eq_firstBlocks, dedupBlocks_eq_keepFirst]
  exact nodup_keepFirst [] blocks

/-- Blocks with different trimmed texts are all kept. -/
theorem firstBlocks_eq_self {blocks : List String} (h : (blocks.map trim).Nodup) :
    firstBlocks blocks = blocks := by
  rw [← dedupBlocks_eq_firstBlocks, dedupBlocks_eq_keepFirst]
  exact keepFirst_eq_self h fun _ _ => List.not_mem_nil

/-- The blocks of a text that are kept, as lists of characters. -/
theorem firstBlocks_splitBlankLine (text : String) :
    firstBlocks (splitBlankLine text) =
      (keepFirst trimmed [] (splitBlankLineChars text.toList)).map String.ofList := by
  have hblocks := dedupBlocks_ofList [] (splitBlankLineChars text.toList)
  rw [List.map_nil, dedupBlocks_eq_firstBlocks] at hblocks
  exact hblocks

/-- Splitting the blocks that were kept and joined gives them back. -/
theorem splitBlankLine_firstBlocks (text : String) :
    splitBlankLine ("\n\n".intercalate (firstBlocks (splitBlankLine text))) =
      firstBlocks (splitBlankLine text) := by
  have hbreak : ("\n\n" : String).toList = ['\n', '\n'] := by decide
  -- the first block is kept
  have hne : keepFirst trimmed [] (splitBlankLineChars text.toList) ≠ [] := by
    obtain ⟨b, bs, hblocks⟩ := List.exists_cons_of_ne_nil (splitBlankLineChars_ne_nil text.toList)
    rw [hblocks, keepFirst, if_neg List.not_mem_nil]
    exact List.cons_ne_nil _ _
  have hkept : (keepFirst trimmed [] (splitBlankLineChars text.toList)).Sublist
      (splitBlankLineChars text.toList) := keepFirst_sublist [] _
  have hpieces := (pieces_splitBlankLineChars text.toList).sublist hkept
  rw [firstBlocks_splitBlankLine, intercalate_ofList, hbreak, splitBlankLine, String.toList_ofList,
    splitBlankLineChars_intercalate hpieces hne]

section Pass

variable {F : Type} [FloatOps F] (P : Platform) (counts : CountContext F) (target : ℤ)

theorem compressText_deduplicate (text : String) :
    compressText P counts target "builtin.text.deduplicate_blocks.v1" text =
      pure ("\n\n".intercalate (firstBlocks (splitBlankLine text))) := by
  rw [compressText, if_neg (by decide), if_pos (by decide), dedupBlocks_eq_firstBlocks]

/-- The pass joins the blocks whose trimmed text no earlier block has.  Splitting the result gives
these blocks back, no two of them have the same trimmed text, and the pass leaves the result as it
is. -/
theorem deduplicate_canonical (text : String) :
    ∃ result, compressText P counts target "builtin.text.deduplicate_blocks.v1" text =
        pure result ∧
      result = "\n\n".intercalate (firstBlocks (splitBlankLine text)) ∧
      splitBlankLine result = firstBlocks (splitBlankLine text) ∧
      ((splitBlankLine result).map trim).Nodup ∧
      compressText P counts target "builtin.text.deduplicate_blocks.v1" result = pure result := by
  have hsplit := splitBlankLine_firstBlocks text
  have hnodup := nodup_firstBlocks (splitBlankLine text)
  refine ⟨_, compressText_deduplicate P counts target text, rfl, hsplit, ?_, ?_⟩
  · rw [hsplit]
    exact hnodup
  · rw [compressText_deduplicate, hsplit, firstBlocks_eq_self hnodup]

end Pass

end ContextLease
