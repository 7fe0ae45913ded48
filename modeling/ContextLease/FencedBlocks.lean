/-
Fenced blocks and solid characters in the package's white space pass.

The pass works segment by segment and line by line, and takes away or puts in white space only.
The fenced blocks of a text run from three backquotes to the next three, from the left to the right;
each of them is a segment of its own, and is joined into the result as it is.

Main definitions:

* `solids` — the characters of a text that are not white space;
* `FencedBlocks` — the fenced blocks of a text;
* `InOrder` — blocks that are found in a text one after the other.

Main results:

* `solids_normalizeWhitespace` — the pass keeps the solid characters;
* `FencedBlocks.sublist_splitFences` — the fenced blocks are segments;
* `whitespace_lossless` — the pass keeps the solid characters and the fenced blocks.
-/

import ContextLease.WhitespacePass

set_option relaxedAutoImplicit false
set_option autoImplicit false

namespace ContextLease

open TextRuns

namespace Host

/-! ### Solid characters -/

/-- The characters of a text that are not white space, in order. -/
def solids (text : List Char) : List Char := text.filter fun c => !isSpace c

theorem solids_append (l r : List Char) : solids (l ++ r) = solids l ++ solids r :=
  List.filter_append l r

theorem solids_cons_of_space {c : Char} (hc : isSpace c = true) (l : List Char) :
    solids (c :: l) = solids l := List.filter_cons_of_neg (by simp [hc])

theorem solids_eq_nil {l : List Char} (h : ∀ c ∈ l, isSpace c = true) : solids l = [] := by
  refine List.filter_eq_nil_iff.2 ?_
  intro c hc
  simp [h c hc]

/-- Characters in front are solid or not for both texts. -/
theorem solids_cons_congr (c : Char) {l r : List Char} (h : solids l = solids r) :
    solids (c :: l) = solids (c :: r) := by
  rw [← List.singleton_append, ← List.singleton_append (l := r), solids_append, solids_append, h]

theorem solids_strip (l : List Char) : solids (strip l) = solids l := by
  obtain ⟨u, v, hl, hu, hv⟩ := exists_pad isSpace l
  rw [← strip] at hl
  conv_rhs => rw [hl, solids_append, solids_append, solids_eq_nil hu, solids_eq_nil hv,
    List.nil_append, List.append_nil]

theorem solids_collapseFrom (inRun : Bool) (l : List Char) :
    solids (collapseFrom ' ' isBlankOrTab inRun l) = solids l := by
  induction l generalizing inRun with
  | nil => rfl
  | cons c l ih =>
      rw [collapseFrom]
      split
      · rename_i hc
        rw [solids_cons_of_space (isSpace_of_isBlankOrTab hc)]
        split
        · exact ih true
        · rw [solids_cons_of_space (by decide)]
          exact ih true
      · exact solids_cons_congr c (ih false)

/-- The lines of a text hold its solid characters. -/
theorem solids_splitLines (l : List Char) : solids (splitLines l).flatten = solids l := by
  induction l using splitLines_induction with
  | hnil => rfl
  | hpair rest ih =>
      have h : splitLines ('\r' :: '\n' :: rest) = [] :: splitLines rest := by rw [splitLines]
      rw [h, List.flatten_cons, List.nil_append, ih, solids_cons_of_space (by decide),
        solids_cons_of_space (by decide)]
  | hbreak c rest hboundary hnot ih =>
      rw [splitLines_break hboundary hnot, List.flatten_cons, List.nil_append, ih,
        solids_cons_of_space (isSpace_of_isLineBoundary hboundary)]
  | hchar c rest hboundary ih =>
      have hflatten : (splitLines (c :: rest)).flatten = c :: (splitLines rest).flatten := by
        rw [splitLines_char hboundary]
        cases splitLines rest <;> rfl
      rw [hflatten]
      exact solids_cons_congr c ih

theorem solids_limitNewlines (seen : ℕ) (l : List Char) :
    solids (limitNewlines seen l) = solids l := by
  induction l generalizing seen with
  | nil => rfl
  | cons c l ih =>
      rw [limitNewlines]
      split
      · rename_i hc
        rw [hc, solids_cons_of_space (c := '\n') (by decide)]
        split
        · rw [solids_cons_of_space (by decide), ih]
        · exact ih _
      · exact solids_cons_congr c (ih 0)

/-- Parts that are joined by white space hold the solid characters. -/
theorem solids_intercalate {sep : List Char} (hsep : solids sep = []) (parts : List (List Char)) :
    solids (sep.intercalate parts) = solids parts.flatten := by
  induction parts with
  | nil => rfl
  | cons part parts ih =>
      cases parts with
      | nil => rw [List.intercalate_singleton, List.flatten_singleton]
      | cons other parts =>
          rw [List.intercalate_cons_cons, solids_append, solids_append, hsep, List.append_nil, ih,
            ← solids_append, ← List.flatten_cons]

theorem solids_flatten_map {f : List Char → List Char} (hf : ∀ part, solids (f part) = solids part)
    (parts : List (List Char)) : solids (parts.map f).flatten = solids parts.flatten := by
  induction parts with
  | nil => rfl
  | cons part parts ih =>
      rw [List.map_cons, List.flatten_cons, List.flatten_cons, solids_append, solids_append, hf, ih]

theorem solids_normalizeLine (line : List Char) : solids (normalizeLine line) = solids line := by
  rw [normalizeLine, solids_strip, collapse, solids_collapseFrom]

theorem solids_normalizeLines (segment : List Char) :
    solids (normalizeLines segment) = solids segment := by
  rw [normalizeLines_eq, solids_strip, solids_limitNewlines, joinLines,
    solids_intercalate (by decide), solids_flatten_map solids_normalizeLine, solids_splitLines]

theorem solids_normalizeSegment (preserveFences : Bool) (segment : List Char) :
    solids (normalizeSegment preserveFences segment) = solids segment := by
  rw [normalizeSegment]
  split
  · exact solids_strip segment
  · exact solids_normalizeLines segment

/-- The pass keeps the solid characters. -/
theorem solids_normalizeWhitespace (text : List Char) :
    solids (normalizeWhitespace true text) = solids text := by
  rw [normalizeWhitespace, solids_intercalate (by decide), List.flatten_filter_not_isEmpty,
    solids_flatten_map (solids_normalizeSegment true), if_pos rfl, splitFences,
    flatten_splitFencesIn]

/-! ### Fenced blocks -/

/-- The fenced blocks of a text, from the left to the right: the first opening fence that is closed
at all begins a block, which runs to the next fence, and the other blocks come after it. -/
inductive FencedBlocks : List Char → List (List Char) → Prop
  | none {text : List Char}
      (hnone : ∀ before inner after, text ≠ before ++ fence ++ inner ++ fence ++ after) :
      FencedBlocks text []
  | block {before inner after : List Char} {blocks : List (List Char)}
      (hopen : ∀ other, other ++ fence <+: before ++ fence ++ inner ++ fence ++ after →
        before.length ≤ other.length)
      (hclose : ∀ other, other ++ fence <+: inner ++ fence ++ after →
        inner.length ≤ other.length)
      (hafter : FencedBlocks after blocks) :
      FencedBlocks (before ++ fence ++ inner ++ fence ++ after)
        ((fence ++ inner ++ fence) :: blocks)

/-- The blocks are found in a text, one after the other. -/
def InOrder : List (List Char) → List Char → Prop
  | [], _ => True
  | block :: blocks, text => ∃ gap rest, text = gap ++ block ++ rest ∧ InOrder blocks rest

section First

variable {c : Char} {before text : List Char}

/-- A text with something in front of its first fence does not begin with one. -/
theorem not_isPrefixOf_of_first
    (h : ∀ other, other ++ fence <+: c :: text → (c :: before).length ≤ other.length) :
    ¬ fence.isPrefixOf (c :: text) = true := by
  intro hfence
  exact absurd (h [] (List.isPrefixOf_iff_prefix.1 hfence)) (by simp)

/-- The first fence of a text is the first one behind its first character. -/
theorem first_of_cons
    (h : ∀ other, other ++ fence <+: c :: text → (c :: before).length ≤ other.length) :
    ∀ other, other ++ fence <+: text → before.length ≤ other.length := by
  intro other hother
  exact Nat.le_of_succ_le_succ (h (c :: other) (List.cons_prefix_cons.2 ⟨rfl, hother⟩))

end First

/-- The text up to the first fence is found as it is. -/
theorem closeFence_of_first {inner after : List Char}
    (hclose : ∀ other, other ++ fence <+: inner ++ fence ++ after → inner.length ≤ other.length) :
    closeFence (inner ++ fence ++ after) = some (inner ++ fence, after) := by
  induction inner with
  | nil => rfl
  | cons c inner ih =>
      have hnot : ¬ fence.isPrefixOf (c :: (inner ++ fence ++ after)) = true :=
        not_isPrefixOf_of_first hclose
      rw [List.cons_append, List.cons_append, closeFence, if_neg hnot, ih (first_of_cons hclose)]
      rfl

/-- A fence that is closed opens a segment. -/
theorem splitFencesIn_fence {rest block left : List Char}
    (hfound : closeFence rest = some (block, left)) (fuel : ℕ) :
    splitFencesIn (fuel + 1) (fence ++ rest) =
      [] :: (fence ++ block) :: splitFencesIn fuel left := by
  have hfence : fence.isPrefixOf (fence ++ rest) = true := by
    rw [List.isPrefixOf_iff_prefix]
    exact List.prefix_append fence rest
  have hdrop : (fence ++ rest).drop 3 = rest := rfl
  rw [show fence ++ rest = Char.ofNat 0x60 :: ([Char.ofNat 0x60, Char.ofNat 0x60] ++ rest) from rfl]
    at hfence hdrop ⊢
  simp only [splitFencesIn, if_pos hfence, hdrop, hfound]

/-- A block is a segment between the text in front of it and the other segments. -/
theorem splitFencesIn_of_block {before inner after : List Char}
    (hopen : ∀ other, other ++ fence <+: before ++ fence ++ inner ++ fence ++ after →
      before.length ≤ other.length)
    (hclose : ∀ other, other ++ fence <+: inner ++ fence ++ after → inner.length ≤ other.length)
    (fuel : ℕ) :
    splitFencesIn (before.length + 1 + fuel) (before ++ fence ++ inner ++ fence ++ after) =
      before :: (fence ++ inner ++ fence) :: splitFencesIn fuel after := by
  induction before with
  | nil =>
      have hfound := closeFence_of_first hclose
      have htext : [] ++ fence ++ inner ++ fence ++ after = fence ++ (inner ++ fence ++ after) := by
        simp only [List.nil_append, List.append_assoc]
      rw [htext, List.length_nil, Nat.zero_add, Nat.add_comm, splitFencesIn_fence hfound,
        List.append_assoc fence]
  | cons c before ih =>
      have hnot :
          ¬ fence.isPrefixOf (c :: (before ++ fence ++ inner ++ fence ++ after)) = true :=
        not_isPrefixOf_of_first hopen
      have hfuel : (c :: before).length + 1 + fuel = (before.length + 1 + fuel) + 1 := by
        rw [List.length_cons]
        omega
      rw [hfuel]
      simp only [List.cons_append, splitFencesIn]
      rw [if_neg hnot, ih (first_of_cons hopen)]
      rfl

/-- The fenced blocks are among the segments, in order. -/
theorem FencedBlocks.sublist_splitFencesIn {text : List Char} {blocks : List (List Char)}
    (h : FencedBlocks text blocks) {fuel : ℕ} (hfuel : text.length ≤ fuel) :
    blocks.Sublist (splitFencesIn fuel text) := by
  induction h generalizing fuel with
  | none hnone => exact List.nil_sublist _
  | @block before inner after blocks hopen hclose hafter ih =>
      simp only [List.length_append] at hfuel
      have hlength : fence.length = 3 := rfl
      obtain ⟨spare, rfl⟩ := Nat.exists_eq_add_of_le
        (show before.length + 1 ≤ fuel by omega)
      rw [splitFencesIn_of_block hopen hclose]
      exact ((ih (by omega)).cons_cons _).cons _

/-- A fenced block is joined into the result as it is. -/
theorem normalizeSegment_block (inner : List Char) :
    normalizeSegment true (fence ++ inner ++ fence) = fence ++ inner ++ fence := by
  have hfence : fence.isPrefixOf (fence ++ inner ++ fence) = true := by
    rw [List.isPrefixOf_iff_prefix, List.append_assoc]
    exact List.prefix_append _ _
  rw [normalizeSegment, Bool.true_and, if_pos hfence, strip]
  refine strip_eq_self ?_ ?_
  · intro c hc
    obtain rfl : Char.ofNat 0x60 = c := by simpa [fence] using hc
    decide
  · intro c hc
    rw [List.getLast?_append_of_ne_nil _ (show fence ≠ [] by decide)] at hc
    obtain rfl : Char.ofNat 0x60 = c := by simpa [fence] using hc
    decide

theorem FencedBlocks.isBlock {text : List Char} {blocks : List (List Char)}
    (h : FencedBlocks text blocks) :
    ∀ block ∈ blocks, ∃ inner, block = fence ++ inner ++ fence := by
  induction h with
  | none hnone => simp
  | @block before inner after blocks hopen hclose hafter ih =>
      intro b hb
      rcases List.mem_cons.1 hb with rfl | hb
      · exact ⟨inner, rfl⟩
      · exact ih b hb

/-- Blocks are still in order behind other characters. -/
theorem InOrder.append_left {blocks : List (List Char)} {text : List Char}
    (h : InOrder blocks text) (front : List Char) : InOrder blocks (front ++ text) := by
  cases blocks with
  | nil => trivial
  | cons block blocks =>
      obtain ⟨gap, rest, rfl, hrest⟩ := h
      refine ⟨front ++ gap, rest, ?_, hrest⟩
      simp only [List.append_assoc]

/-- Parts that are joined are in order. -/
theorem inOrder_intercalate {sep : List Char} {blocks parts : List (List Char)}
    (h : blocks.Sublist parts) : InOrder blocks (sep.intercalate parts) := by
  induction h with
  | slnil => trivial
  | @cons blocks parts part h ih =>
      cases parts with
      | nil =>
          obtain rfl := List.sublist_nil.1 h
          trivial
      | cons other parts =>
          rw [List.intercalate_cons_cons]
          exact ih.append_left _
  | @cons_cons blocks parts block h ih =>
      cases parts with
      | nil =>
          obtain rfl := List.sublist_nil.1 h
          exact ⟨[], [], by simp, trivial⟩
      | cons other parts =>
          refine ⟨[], sep ++ sep.intercalate (other :: parts), ?_, ih.append_left _⟩
          rw [List.intercalate_cons_cons, List.nil_append, List.append_assoc]

/-- The first of the fences that are found in a text. -/
theorem exists_first_fence {text before after : List Char} (h : text = before ++ fence ++ after) :
    ∃ first rest, text = first ++ fence ++ rest ∧
      ∀ other, other ++ fence <+: text → first.length ≤ other.length := by
  obtain ⟨first, ⟨rest, hrest⟩, hleast⟩ := (measure List.length).wf.has_min
    {other | other ++ fence <+: text} ⟨before, after, h.symm⟩
  exact ⟨first, rest, hrest.symm, fun other hother => not_lt.1 (hleast other hother)⟩

/-- Every text has its fenced blocks. -/
theorem exists_fencedBlocks (text : List Char) : ∃ blocks, FencedBlocks text blocks := by
  induction hn : text.length using Nat.strong_induction_on generalizing text with
  | _ n ih =>
      by_cases hclosed : ∃ before inner after, text = before ++ fence ++ inner ++ fence ++ after
      · obtain ⟨b, i, a, htext⟩ := hclosed
        have hhead : text = b ++ fence ++ (i ++ fence ++ a) := by
          rw [htext]
          simp only [List.append_assoc]
        obtain ⟨before, rest, hfirst, hopen⟩ := exists_first_fence hhead
        -- the first fence is closed, as it is not behind the one that is
        have hle : before.length ≤ b.length := hopen b ⟨_, hhead.symm⟩
        have hlength : fence.length = 3 := rfl
        have hrest : rest = (b ++ fence ++ i).drop (before.length + 3) ++ fence ++ a := by
          have hdrop : rest = text.drop (before.length + 3) := by
            rw [hfirst, ← hlength, ← List.length_append, List.drop_left]
          have hfits : before.length + 3 ≤ (b ++ fence ++ i).length := by
            simp only [List.length_append]
            omega
          rw [hdrop, htext, List.append_assoc _ fence a, List.drop_append_of_le_length hfits,
            ← List.append_assoc _ fence a]
        obtain ⟨inner, after, hinner, hclose⟩ := exists_first_fence hrest
        obtain ⟨blocks, hblocks⟩ := ih after.length (by
          rw [← hn, hfirst, hinner]
          simp only [List.length_append]
          omega) after rfl
        have hsplit : text = before ++ fence ++ inner ++ fence ++ after := by
          rw [hfirst, hinner]
          simp only [List.append_assoc]
        rw [hinner] at hclose
        refine ⟨(fence ++ inner ++ fence) :: blocks, ?_⟩
        rw [hsplit] at hopen ⊢
        exact .block hopen hclose hblocks
      · push Not at hclosed
        exact ⟨[], .none hclosed⟩

/-- The pass keeps the solid characters of every text, and its fenced blocks as they are and in
order. -/
theorem whitespace_lossless (text : List Char) :
    solids (normalizeWhitespace true text) = solids text ∧
      (∃ blocks, FencedBlocks text blocks) ∧
      ∀ blocks, FencedBlocks text blocks → InOrder blocks (normalizeWhitespace true text) := by
  refine ⟨solids_normalizeWhitespace text, exists_fencedBlocks text, ?_⟩
  intro blocks h
  rw [normalizeWhitespace, if_pos rfl]
  refine inOrder_intercalate ?_
  have hsame :
      (blocks.map (normalizeSegment true)).filter (fun part => !part.isEmpty) = blocks := by
    have hmap : blocks.map (normalizeSegment true) = blocks := by
      conv_rhs => rw [← List.map_id blocks]
      refine List.map_congr_left ?_
      intro block hblock
      obtain ⟨inner, rfl⟩ := h.isBlock block hblock
      exact normalizeSegment_block inner
    rw [hmap, List.filter_eq_self]
    intro block hblock
    obtain ⟨inner, rfl⟩ := h.isBlock block hblock
    rfl
  rw [← hsame]
  exact ((h.sublist_splitFencesIn le_rfl).map _).filter _

end Host

end ContextLease
