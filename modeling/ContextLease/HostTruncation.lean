/-
Truncating a text at either end.

The package cuts a text to the longest piece at one of its ends that is within a target, backs off
to a word boundary, and reports what it has cut off.  At the start of a text this is always what it
says.  At the end of a text, a slice of no length is the whole text: when nothing is kept, nothing
is reported as removed, and when not even the last character fits, the whole text is taken to fit.

Main definitions:

* `Host.boundaryTruncateWith` — the truncation with any counter, and what it reports;
* `CountsParts` — the counters that count no more in a part;
* `SoundTruncation` — what a truncation keeps, fits, and together with what is removed is the text;
* `SparesLast` — the texts of which something is kept at the end.

Main results:

* `Host.boundaryTruncateWith_head` — truncations at the start of a text are sound;
* `truncation_sound_iff` — which truncations are sound.
-/

import ContextLease.TruncatePass

set_option relaxedAutoImplicit false
set_option autoImplicit false

namespace ContextLease

open Host

namespace Host

/-- The source's `removed`: `content[len(truncated):]`, or `content[:-len(truncated)]`, which is
nothing for no length. -/
def Keep.removed (keep : Keep) (content truncated : List Char) : List Char :=
  match keep with
  | .head => content.drop truncated.length
  | .tail =>
      if truncated.length = 0 then []
      else content.take (content.length - truncated.length)

/-- The source's `_boundary_truncate` on a text: what is kept, and what is reported as removed. -/
def boundaryTruncateWith (count : List Char → ℕ) (keep : Keep) (target : ℤ)
    (content : List Char) : List Char × List (List Char) :=
  let truncated := truncateTextToTokens count keep target content
  let removed := keep.removed content truncated
  (truncated, if removed.isEmpty then [] else [removed])

end Host

/-- A counter that counts no more in a part of a text, and nothing in the empty text. -/
structure CountsParts (count : List Char → ℕ) : Prop where
  infix_le : ∀ {part text : List Char}, part <:+: text → count part ≤ count text
  empty : count [] = 0

/-- A text is an end of another one. -/
def Host.Keep.IsEnd (keep : Keep) (part text : List Char) : Prop :=
  match keep with
  | .head => part <+: text
  | .tail => part <:+ text

/-- What is kept and what is removed, in the order of the text. -/
def Host.Keep.join (keep : Keep) (kept removed : List Char) : List Char :=
  match keep with
  | .head => kept ++ removed
  | .tail => removed ++ kept

/-- What is kept is an end of the text within the target, and what is removed is the rest. -/
structure SoundTruncation (count : List Char → ℕ) (keep : Keep) (target : ℤ)
    (content : List Char) (result : List Char × List (List Char)) : Prop where
  isEnd : keep.IsEnd result.1 content
  fits : (count result.1 : ℤ) ≤ max 0 target
  complete : content = keep.join result.1 result.2.flatten

/-- Something of the text is kept at its end: all of it fits, or at least its last character does,
and unless that is white space, the text is not cut behind it; if it is white space, then a longer
end with another white space fits. -/
def SparesLast (count : List Char → ℕ) (target : ℤ) (content : List Char) : Prop :=
  content = [] ∨ 0 < target ∧ ((count content : ℤ) ≤ target ∨
    ∃ init last, content = init ++ [last] ∧ (count [last] : ℤ) ≤ target ∧
      (isSpace last = true → ∃ before, before <:+ init ∧
        (count (before ++ [last]) : ℤ) ≤ target ∧ ∃ c ∈ before, isSpace c = true))

section Truncate

variable {count : List Char → ℕ} {target : ℤ} {content : List Char}

/-! ### What is reported -/

theorem flatten_removed (removed : List Char) :
    (if removed.isEmpty then [] else [removed] : List (List Char)).flatten = removed := by
  cases removed with
  | nil => rfl
  | cons c removed => simp

/-- A start of the text within the target is soundly kept. -/
theorem sound_of_prefix {kept : List Char} (hstarts : kept <+: content)
    (hfits : (count kept : ℤ) ≤ max 0 target)
    (hkept : truncateTextToTokens count .head target content = kept) :
    SoundTruncation count .head target content
      (boundaryTruncateWith count .head target content) := by
  rw [boundaryTruncateWith, hkept]
  refine ⟨hstarts, hfits, ?_⟩
  rw [flatten_removed, Keep.join, Keep.removed]
  obtain ⟨rest, rfl⟩ := hstarts
  rw [List.drop_left]

/-- An end of the text is soundly kept exactly when it is within the target and not empty, unless
the text is. -/
theorem sound_suffix_iff {kept : List Char} (hends : kept <:+ content)
    (hkept : truncateTextToTokens count .tail target content = kept) :
    SoundTruncation count .tail target content
        (boundaryTruncateWith count .tail target content) ↔
      (count kept : ℤ) ≤ max 0 target ∧ (kept = [] → content = []) := by
  rw [boundaryTruncateWith, hkept]
  constructor
  · intro hsound
    refine ⟨hsound.fits, ?_⟩
    rintro rfl
    have hcomplete := hsound.complete
    rwa [flatten_removed, Keep.join, Keep.removed, if_pos List.length_nil] at hcomplete
  · rintro ⟨hfits, hempty⟩
    refine ⟨hends, hfits, ?_⟩
    rw [flatten_removed, Keep.join, Keep.removed]
    split
    · rename_i hnone
      have hnil := List.length_eq_zero_iff.1 hnone
      rw [hempty hnil, hnil]
      rfl
    · obtain ⟨rest, rfl⟩ := hends
      rw [List.length_append, Nat.add_sub_cancel, List.take_left]

/-! ### The start of a text -/

theorem Host.Keep.backOff_head_prefix (candidate : List Char) :
    Keep.head.backOff candidate <+: candidate := by
  rw [Keep.backOff]
  split
  · split
    · exact List.take_prefix ..
    · exact List.prefix_refl candidate
  · exact List.prefix_refl candidate

/-- Truncations at the start of a text are sound. -/
theorem Host.boundaryTruncateWith_head (h : CountsParts count) (target : ℤ)
    (content : List Char) : SoundTruncation count .head target content
      (boundaryTruncateWith count .head target content) := by
  have hempty : (count [] : ℤ) ≤ max 0 target := by
    rw [h.empty]
    exact le_max_left 0 target
  by_cases htarget : target ≤ 0
  · exact sound_of_prefix List.nil_prefix hempty (by rw [truncateTextToTokens, if_pos htarget])
  by_cases hall : (count content : ℤ) ≤ target
  · refine sound_of_prefix (List.prefix_refl content) (hall.trans (le_max_right 0 target)) ?_
    rw [truncateTextToTokens, if_neg htarget, if_pos hall]
  -- the bisection finds a length that fits
  set fits : ℕ → Bool := fun mid => count (Keep.head.slice content mid) ≤ target with hfits
  have hmono : ∀ n m, n ≤ m → fits m → fits n := by
    intro n m hnm hm
    rw [hfits, decide_eq_true_iff] at hm ⊢
    have hle := h.infix_le (List.take_prefix_take_left hnm (l := content)).isInfix
    simp only [Keep.slice] at hm ⊢
    omega
  have hnone : fits 0 := by
    rw [hfits, decide_eq_true_iff, Keep.slice, List.take_zero, h.empty]
    exact (not_le.1 htarget).le
  obtain ⟨hfound, -, -⟩ := searchLength_spec hmono (Nat.le_add_left _ _) hnone
    (Nat.zero_le _) (le_refl content.length) fun n hn hle => absurd hle (by omega)
  have hbacked := Keep.backOff_head_prefix
    (Keep.head.slice content (searchLength fits content.length 0 content.length))
  refine sound_of_prefix (hbacked.trans (List.take_prefix ..)) ?_ ?_
  · have hle := h.infix_le hbacked.isInfix
    rw [hfits, decide_eq_true_iff, ← hfits] at hfound
    exact (Int.ofNat_le.2 hle).trans (hfound.trans (le_max_right 0 target))
  · rw [truncateTextToTokens, if_neg htarget, if_neg hall]

/-! ### The end of a text -/

/-- The back-off at the end of a text: all of it without white space, or what follows the first. -/
theorem Host.Keep.backOff_tail_cases (candidate : List Char) :
    ((∀ c ∈ candidate, isSpace c = false) ∧ Keep.tail.backOff candidate = candidate) ∨
    ∃ before c after, candidate = before ++ c :: after ∧ (∀ d ∈ before, isSpace d = false) ∧
      isSpace c = true ∧ Keep.tail.backOff candidate = after := by
  cases hfind : candidate.findIdx? isSpace with
  | none =>
      refine Or.inl ⟨?_, by rw [Keep.backOff, hfind]⟩
      intro c hc
      simpa using List.findIdx?_eq_none_iff.1 hfind c hc
  | some i =>
      obtain ⟨hi, hspace, hbefore⟩ := List.findIdx?_eq_some_iff_getElem.1 hfind
      refine Or.inr ⟨candidate.take i, candidate[i], candidate.drop (i + 1), ?_, ?_, hspace, ?_⟩
      · rw [List.getElem_cons_drop, List.take_append_drop]
      · intro d hd
        obtain ⟨j, hj, rfl⟩ := List.mem_take_iff_getElem.1 hd
        simpa using hbefore j (by omega)
      · rw [Keep.backOff, hfind]

/-- The bisection never asks for no length. -/
theorem Host.searchLength_congr {fits fits' : ℕ → Bool} (h : ∀ n, 0 < n → fits n = fits' n)
    (fuel low high : ℕ) : searchLength fits fuel low high = searchLength fits' fuel low high := by
  induction fuel generalizing low high with
  | zero => rfl
  | succ fuel ih =>
      rw [searchLength, searchLength]
      split
      · dsimp only
        rw [h _ (by omega), ih, ih]
      · rfl

/-- When a text exceeds the target, what is kept at its end is what the back-off leaves of the
longest end that fits, or of the whole text if no character does. -/
theorem Host.truncate_tail (h : CountsParts count) (htarget : 0 < target)
    (hexceeds : target < count content) :
    ∃ length, (count (content.drop (content.length - length)) : ℤ) ≤ target ∧
      length ≤ content.length ∧
      (∀ n ≤ content.length, (count (content.drop (content.length - n)) : ℤ) ≤ target →
        n ≤ length) ∧
      truncateTextToTokens count .tail target content =
        Keep.tail.backOff (Keep.tail.slice content length) := by
  set fits : ℕ → Bool := fun n => count (content.drop (content.length - n)) ≤ target with hfits
  have hmono : ∀ n m, n ≤ m → fits m → fits n := by
    intro n m hnm hm
    rw [hfits, decide_eq_true_iff] at hm ⊢
    have hends : content.drop (content.length - n) <:+ content.drop (content.length - m) :=
      List.drop_suffix_drop_left content (by omega)
    have hle := h.infix_le hends.isInfix
    omega
  have hnone : fits 0 := by
    rw [hfits, decide_eq_true_iff, Nat.sub_zero, List.drop_length, h.empty]
    exact htarget.le
  obtain ⟨hfound, hbound, hlongest⟩ := searchLength_spec hmono (Nat.le_add_left _ _) hnone
    (Nat.zero_le _) (le_refl content.length) fun n hn hle => absurd hle (by omega)
  refine ⟨searchLength fits content.length 0 content.length, ?_, hbound, ?_, ?_⟩
  · rwa [hfits, decide_eq_true_iff] at hfound
  · intro n hn hpass
    exact hlongest n hn (by rwa [hfits, decide_eq_true_iff])
  · have hsearch := @searchLength_congr
      (fun mid => count (Keep.tail.slice content mid) ≤ target) fits (by
        intro n hn
        rw [hfits, Keep.slice, if_neg hn.ne']) content.length 0 content.length
    rw [truncateTextToTokens, if_neg (not_le.2 htarget), if_neg (not_le.2 hexceeds), hsearch]

theorem Host.Keep.backOff_tail_suffix (candidate : List Char) :
    Keep.tail.backOff candidate <:+ candidate := by
  rcases Keep.backOff_tail_cases candidate with ⟨-, hall⟩ | ⟨before, c, after, rfl, -, -, hafter⟩
  · rw [hall]
  · rw [hafter, List.append_cons]
    exact List.suffix_append _ after

/-- Something is left of a text that does not end in white space, or has another one before. -/
theorem Host.Keep.backOff_tail_concat_ne_nil {front : List Char} {last : Char} :
    Keep.tail.backOff (front ++ [last]) ≠ [] ↔
      (isSpace last = true → ∃ c ∈ front, isSpace c = true) := by
  rcases Keep.backOff_tail_cases (front ++ [last]) with ⟨hnone, hall⟩ |
    ⟨before, c, after, heq, hbefore, hspace, hback⟩
  · rw [hall]
    refine iff_of_true (by simp) ?_
    intro hspace
    rw [hnone last (by simp)] at hspace
    cases hspace
  · rw [hback]
    constructor
    · intro hne _
      -- the first white space is before the last character
      rcases List.eq_nil_or_concat after with rfl | ⟨rest, d, rfl⟩
      · exact absurd rfl hne
      · rw [List.concat_eq_append, ← List.cons_append, ← List.append_assoc] at heq
        obtain ⟨rfl, -⟩ := List.append_inj' heq rfl
        exact ⟨c, by simp, hspace⟩
    · intro hother hnil
      subst hnil
      obtain ⟨rfl, hc⟩ := List.append_inj' heq rfl
      obtain rfl := List.singleton_inj.1 hc
      obtain ⟨d, hd, hdspace⟩ := hother hspace
      rw [hbefore d hd] at hdspace
      cases hdspace

/-- What is kept at the end of a text is an end of it. -/
theorem Host.truncate_tail_suffix (count : List Char → ℕ) (target : ℤ) (content : List Char) :
    truncateTextToTokens count .tail target content <:+ content := by
  have hslice : ∀ length, Keep.tail.slice content length <:+ content := by
    intro length
    rw [Keep.slice]
    split
    · exact List.suffix_refl content
    · exact List.drop_suffix _ content
  rw [truncateTextToTokens]
  split
  · exact List.nil_suffix
  · split
    · exact List.suffix_refl content
    · exact (Keep.backOff_tail_suffix _).trans (hslice _)

/-- When the last character of a text that exceeds the target fits, the back-off is from the longest
end that does. -/
theorem Host.truncate_tail_longest (h : CountsParts count) (htarget : 0 < target)
    {init : List Char} {last : Char} (hexceeds : target < count (init ++ [last]))
    (hlast : (count [last] : ℤ) ≤ target) :
    ∃ longest, longest <:+ init ∧ (count (longest ++ [last]) : ℤ) ≤ target ∧
      (∀ before, before <:+ init → (count (before ++ [last]) : ℤ) ≤ target →
        before <:+ longest) ∧
      truncateTextToTokens count .tail target (init ++ [last]) =
        Keep.tail.backOff (longest ++ [last]) := by
  obtain ⟨length, hfits, hbound, hlongest, hkept⟩ := truncate_tail h htarget hexceeds
  have hsize : (init ++ [last]).length = init.length + 1 := by simp
  have hone : 1 ≤ length := by
    refine hlongest 1 (by omega) ?_
    rw [hsize, Nat.add_sub_cancel, List.drop_left]
    exact hlast
  have hdrop : (init ++ [last]).drop (init.length + 1 - length) =
      init.drop (init.length + 1 - length) ++ [last] :=
    List.drop_append_of_le_length (by omega)
  refine ⟨init.drop (init.length + 1 - length), List.drop_suffix _ init, ?_, ?_, ?_⟩
  · rwa [hsize, hdrop] at hfits
  · intro before hbefore hcount
    have hextended : before ++ [last] <:+ init ++ [last] := List.suffix_append_self_iff.2 hbefore
    have hle := hlongest (before ++ [last]).length hextended.length_le (by
      rwa [← List.suffix_iff_eq_drop.1 hextended])
    rw [List.length_append, List.length_singleton] at hle
    rw [List.suffix_iff_eq_drop.1 hbefore]
    exact List.drop_suffix_drop_left init (by omega)
  · rw [hkept, Keep.slice, if_neg (by omega), hsize, hdrop]

/-- When the last character fits, what is kept at the end of a text that exceeds the target is not
empty exactly when the text is not cut behind its last character. -/
theorem Host.truncate_tail_ne_nil_iff (h : CountsParts count) (htarget : 0 < target)
    {init : List Char} {last : Char} (hexceeds : target < count (init ++ [last]))
    (hlast : (count [last] : ℤ) ≤ target) :
    (count (truncateTextToTokens count .tail target (init ++ [last])) : ℤ) ≤ target ∧
      (truncateTextToTokens count .tail target (init ++ [last]) ≠ [] ↔
        (isSpace last = true → ∃ before, before <:+ init ∧
          (count (before ++ [last]) : ℤ) ≤ target ∧ ∃ c ∈ before, isSpace c = true)) := by
  obtain ⟨longest, hends, hfits, hlonger, hkept⟩ := truncate_tail_longest h htarget hexceeds hlast
  have hpart := h.infix_le (Keep.backOff_tail_suffix (longest ++ [last])).isInfix
  rw [hkept, Keep.backOff_tail_concat_ne_nil]
  refine ⟨(Int.ofNat_le.2 hpart).trans hfits, imp_congr_right fun _ => ?_⟩
  constructor
  · intro hspace
    exact ⟨longest, hends, hfits, hspace⟩
  · rintro ⟨before, hbefore, hfit, c, hc, hspace⟩
    exact ⟨c, (hlonger before hbefore hfit).subset hc, hspace⟩

/-- What is kept at the end of a text that exceeds the target is soundly kept exactly when its last
character fits and the text is not cut behind it. -/
theorem Host.truncate_tail_sound_iff (h : CountsParts count) (htarget : 0 < target)
    {init : List Char} {last : Char} (hexceeds : target < count (init ++ [last])) :
    ((count (truncateTextToTokens count .tail target (init ++ [last])) : ℤ) ≤ target ∧
      truncateTextToTokens count .tail target (init ++ [last]) ≠ []) ↔
      (count [last] : ℤ) ≤ target ∧ (isSpace last = true → ∃ before, before <:+ init ∧
        (count (before ++ [last]) : ℤ) ≤ target ∧ ∃ c ∈ before, isSpace c = true) := by
  constructor
  · rintro ⟨hfits, hkept⟩
    -- what is kept ends with the last character, which then fits
    have hlast : [last] <:+ truncateTextToTokens count .tail target (init ++ [last]) := by
      refine List.suffix_of_suffix_length_le (List.suffix_append init [last])
        (truncate_tail_suffix ..) ?_
      exact List.length_pos_of_ne_nil hkept
    have hone : (count [last] : ℤ) ≤ target :=
      (Int.ofNat_le.2 (h.infix_le hlast.isInfix)).trans hfits
    exact ⟨hone, (truncate_tail_ne_nil_iff h htarget hexceeds hone).2.1 hkept⟩
  · rintro ⟨hone, hother⟩
    obtain ⟨hfits, hkept⟩ := truncate_tail_ne_nil_iff h htarget hexceeds hone
    exact ⟨hfits, hkept.2 hother⟩

end Truncate

/-! ### Either end -/

/-- Truncations with a counter that counts no more in parts are sound exactly at the start of a
text, and at the end of a text of which something is kept. -/
theorem truncation_sound_iff {count : List Char → ℕ} (h : CountsParts count) (keep : Keep)
    (target : ℤ) (content : List Char) :
    SoundTruncation count keep target content (boundaryTruncateWith count keep target content) ↔
      keep = .head ∨ SparesLast count target content := by
  cases keep with
  | head => exact iff_of_true (boundaryTruncateWith_head h target content) (Or.inl rfl)
  | tail =>
      rw [or_iff_right (by decide),
        sound_suffix_iff (truncate_tail_suffix count target content) rfl, SparesLast]
      rcases List.eq_nil_or_concat content with rfl | ⟨init, last, rfl⟩
      · -- nothing is cut off the empty text
        have hnone : truncateTextToTokens count .tail target [] = [] :=
          List.suffix_nil.1 (truncate_tail_suffix count target [])
        rw [hnone, h.empty]
        exact iff_of_true ⟨le_max_left 0 target, fun _ => rfl⟩ (Or.inl rfl)
      · rw [List.concat_eq_append]
        have hne : init ++ [last] ≠ [] := by simp
        rw [or_iff_right hne]
        by_cases htarget : 0 < target
        · rw [and_iff_right htarget, max_eq_right htarget.le]
          by_cases hall : (count (init ++ [last]) : ℤ) ≤ target
          · have hkept : truncateTextToTokens count .tail target (init ++ [last]) =
                init ++ [last] := by
              rw [truncateTextToTokens, if_neg (not_le.2 htarget), if_pos hall]
            rw [hkept]
            exact iff_of_true ⟨hall, id⟩ (Or.inl hall)
          · rw [or_iff_right hall, imp_iff_not hne,
              truncate_tail_sound_iff h htarget (not_le.1 hall)]
            constructor
            · rintro ⟨hone, hother⟩
              exact ⟨init, last, rfl, hone, hother⟩
            · rintro ⟨init', last', heq, hone, hother⟩
              obtain ⟨rfl, hsame⟩ := List.append_inj' heq rfl
              obtain rfl := List.singleton_inj.1 hsame
              exact ⟨hone, hother⟩
        · refine iff_of_false ?_ fun hspares => htarget hspares.1
          rintro ⟨-, hkeeps⟩
          exact hne (hkeeps (by rw [truncateTextToTokens, if_pos (not_lt.1 htarget)]))

/-- The number of characters. -/
theorem countsParts_length : CountsParts List.length := ⟨fun h => h.length_le, rfl⟩

/-- The last word of a text is kept. -/
theorem truncation_sound_iff_example :
    SoundTruncation List.length .tail 4 "alpha beta".toList
      (boundaryTruncateWith List.length .tail 4 "alpha beta".toList) :=
  (truncation_sound_iff countsParts_length .tail 4 "alpha beta".toList).2
    (Or.inr (Or.inr ⟨by decide, Or.inr ⟨"alpha bet".toList, 'a', rfl, by decide,
      fun hspace => absurd hspace (by decide)⟩⟩))

/-- Without any room the end of a text is dropped, and nothing is said to be removed. -/
theorem dropped_unreported :
    ¬ SoundTruncation List.length .tail 0 ['a', 'b']
      (boundaryTruncateWith List.length .tail 0 ['a', 'b']) := by
  have hresult : boundaryTruncateWith List.length .tail 0 ['a', 'b'] = ([], []) := by decide
  intro hsound
  have hcomplete := hsound.complete
  rw [hresult] at hcomplete
  cases hcomplete

end ContextLease
