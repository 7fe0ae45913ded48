/-
Words and single characters.

A pattern that matches runs of word characters, or else single characters that are not white space,
can be counted in two ways: by searching for its matches one after the other, each run taken as long
as possible, or in one pass that only remembers whether the last character was a word character.
Either way there is one match for every character that is not white space, less one for every word
character that follows another.

Main definitions:

* `CharPattern`, `CharPattern.matchAt`, `CharPattern.findAll` — classes, repeated classes and
  alternatives, and the search for their matches;
* `WordScan.starts` — the one pass;
* `WordScan.solid`, `WordScan.joins` — the characters that are not white space, and the neighbours
  that are both word characters.

Main results:

* `WordScan.length_findAll` — the search finds as many matches as the pass counts;
* `WordScan.starts_eq` — how many there are;
* `WordScan.starts_collapseFrom` — the lengths of the gaps do not matter.
-/

import ContextLease.TextRuns
import Mathlib.Data.List.TakeDrop
import Mathlib.Tactic.Linarith

set_option relaxedAutoImplicit false
set_option autoImplicit false

/-- A pattern over the characters `α`. -/
inductive CharPattern (α : Type)
  /-- One character of a class. -/
  | one (accepts : α → Bool)
  /-- One or more characters of a class, as many as possible. -/
  | many (accepts : α → Bool)
  /-- The second pattern where the first one does not match. -/
  | orElse (first second : CharPattern α)

namespace CharPattern

variable {α : Type}

/-- The match at the start of a text, and what is left of the text. -/
def matchAt : CharPattern α → List α → Option (List α × List α)
  | .one accepts, c :: rest => if accepts c then some ([c], rest) else none
  | .many accepts, c :: rest =>
      if accepts c then some (c :: rest.takeWhile accepts, rest.dropWhile accepts) else none
  | .orElse first second, text => first.matchAt text <|> second.matchAt text
  | _, [] => none

/-- The matches of a text from left to right; a search of `fuel` steps is over when the text has no
more than `fuel` characters. -/
def findAllIn (pattern : CharPattern α) : ℕ → List α → List (List α)
  | 0, _ => []
  | _, [] => []
  | fuel + 1, c :: rest =>
      match pattern.matchAt (c :: rest) with
      | some (found, left) => found :: findAllIn pattern fuel left
      | none => findAllIn pattern fuel rest

/-- The matches of a text from left to right. -/
def findAll (pattern : CharPattern α) (text : List α) : List (List α) :=
  pattern.findAllIn text.length text

end CharPattern

namespace WordScan

variable {α : Type} (word space : α → Bool)

/-- Runs of word characters, or single characters that are not white space. -/
def pattern : CharPattern α := .orElse (.many word) (.one fun c => !word c && !space c)

/-- The places where a token starts, when `inWord` tells whether a word character comes before. -/
def starts : Bool → List α → ℕ
  | _, [] => 0
  | inWord, c :: rest =>
      (if (word c && !inWord) || (!word c && !space c) then 1 else 0) + starts (word c) rest

/-- The characters that are not white space. -/
def solid (text : List α) : ℕ := text.countP fun c => !space c

/-- The neighbours of which a relation holds, when `before` comes first. -/
def joins (related : α → α → Bool) : List α → ℕ
  | c :: c' :: rest => (if related c c' then 1 else 0) + joins related (c' :: rest)
  | _ => 0

/-- The rest of a word starts nothing. -/
theorem starts_dropWhile (text : List α) :
    starts word space true text = starts word space false (text.dropWhile word) := by
  induction text with
  | nil => rfl
  | cons c rest ih =>
      by_cases hword : word c = true
      · rw [List.dropWhile_cons_of_pos hword, ← ih, starts, hword]
        simp
      · rw [List.dropWhile_cons_of_neg hword, starts, starts]
        simp [Bool.not_eq_true _ ▸ hword]

/-- A word character is matched with those that follow, any other solid character alone. -/
theorem matchAt_pattern (c : α) (rest : List α) :
    (pattern word space).matchAt (c :: rest) =
      if word c then some (c :: rest.takeWhile word, rest.dropWhile word)
      else if space c then none else some ([c], rest) := by
  rw [pattern, CharPattern.matchAt, CharPattern.matchAt, CharPattern.matchAt]
  cases hword : word c with
  | true => rfl
  | false => cases hspace : space c <;> rfl

/-- The search finds a match at every place where a token starts. -/
theorem length_findAllIn (fuel : ℕ) {text : List α} (h : text.length ≤ fuel) :
    ((pattern word space).findAllIn fuel text).length = starts word space false text := by
  induction fuel generalizing text with
  | zero =>
      rw [List.length_eq_zero_iff.1 (Nat.le_zero.1 h)]
      rfl
  | succ fuel ih =>
      cases text with
      | nil => rfl
      | cons c rest =>
          rw [List.length_cons] at h
          have hrest : rest.length ≤ fuel := by omega
          rw [CharPattern.findAllIn, matchAt_pattern, starts]
          cases hword : word c with
          | true =>
              -- a run of word characters, of which only the first starts a token
              have hleft : (rest.dropWhile word).length ≤ fuel :=
                (List.dropWhile_sublist word).length_le.trans hrest
              simp only [if_true, List.length_cons, ih hleft, starts_dropWhile]
              simp [Nat.add_comm]
          | false =>
              cases hspace : space c with
              | true => simp [ih hrest]
              | false => simp [ih hrest, Nat.add_comm]

/-- The search finds as many matches as the pass counts. -/
theorem length_findAll (text : List α) :
    ((pattern word space).findAll text).length = starts word space false text :=
  length_findAllIn word space text.length (le_refl _)

/-- A longer text has no fewer tokens. -/
theorem starts_le_append (text more : List α) (inWord : Bool) :
    starts word space inWord text ≤ starts word space inWord (text ++ more) := by
  induction text generalizing inWord with
  | nil => exact Nat.zero_le _
  | cons c rest ih => exact Nat.add_le_add_left (ih (word c)) _

/-- White space at the end starts nothing. -/
theorem starts_append_space (h : ∀ c, word c = true → space c = false) {gap : α}
    (hgap : space gap = true) (text : List α) (inWord : Bool) :
    starts word space inWord (text ++ [gap]) = starts word space inWord text := by
  induction text generalizing inWord with
  | nil =>
      have hword : word gap = false := by
        by_contra hword
        rw [h gap (Bool.not_eq_false _ ▸ hword)] at hgap
        cases hgap
      simp [starts, hword, hgap]
  | cons c rest ih => rw [List.cons_append, starts, starts, ih]

/-- The lengths of the gaps do not matter, once a gap has ended the word. -/
theorem starts_collapseFrom (h : ∀ c, word c = true → space c = false) {gap : α}
    (hgap : space gap = true) (l : List α) {inRun inWord : Bool}
    (hrun : inRun = true → inWord = false) :
    starts word space inWord (TextRuns.collapseFrom gap space inRun l) =
      starts word space inWord l := by
  have hskip : ∀ c, space c = true → ∀ rest inWord, starts word space inWord (c :: rest) =
      starts word space false rest := by
    intro c hc rest inWord
    have hword : word c = false := by
      by_contra hword
      rw [Bool.not_eq_false] at hword
      rw [h c hword] at hc
      cases hc
    simp [starts, hc, hword]
  induction l generalizing inRun inWord with
  | nil => rfl
  | cons c rest ih =>
      rw [TextRuns.collapseFrom]
      split
      · rename_i hc
        rw [hskip c hc]
        split
        · rename_i hrun'
          rw [hrun hrun']
          exact ih fun _ => rfl
        · rw [hskip gap hgap]
          exact ih fun _ => rfl
      · rw [starts, starts, ih fun hfalse => by cases hfalse]

variable {word space}

/-- There is one token for every character that is not white space, less the word characters that
follow another. -/
theorem starts_eq (h : ∀ c, word c = true → space c = false) (text : List α) :
    starts word space false text + joins (fun c c' => word c && word c') text =
      solid space text := by
  have hrest : ∀ (text : List α) (before : α),
      starts word space (word before) text +
          joins (fun c c' => word c && word c') (before :: text) = solid space text := by
    intro text
    induction text with
    | nil => exact fun _ => rfl
    | cons c rest ih =>
        intro before
        have hc := ih c
        rw [starts, joins, solid, List.countP_cons, ← solid, ← hc]
        cases hbefore : word before <;> cases hword : word c <;> cases hspace : space c <;>
          simp_all <;> omega
  cases text with
  | nil => rfl
  | cons c rest =>
      have hc := hrest rest c
      rw [starts, solid, List.countP_cons, ← solid, ← hc]
      cases hword : word c <;> cases hspace : space c <;> simp_all <;> omega

end WordScan
