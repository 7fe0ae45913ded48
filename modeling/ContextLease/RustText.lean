/-
Text: substrings, joining, and the text functions of the Rust standard library.

Strings are Lean's; a substring is an infix of the list of characters, which for the UTF-8 strings
of Rust is the same as a substring of the bytes.  The functions below follow the documented
behaviour of `str` and `char`: white space is Unicode `White_Space`, `split` is non-overlapping
from the left, `split_inclusive` keeps the separator with the piece it ends.

Main definitions:

* `RustText.Occurs`, `RustText.contains` — `str::contains`;
* `RustText.isWhitespace`, `RustText.trim`, `RustText.trimEnd`, `RustText.isBlank` — trimming;
* `RustText.splitWhitespace`, `RustText.splitBlankLine`, `RustText.splitInclusive` — splitting;
* `RustText.lenUtf16` — `char::len_utf16`.

Main results:

* `RustText.occurs_intercalate` — a joined piece occurs in the result;
* `RustText.occurs_intercalate_nonempty` — also when the empty pieces are filtered out first;
* `RustText.trimEnd_eq_iff` — when trimming keeps the same of a text and of a longer one.
-/

import Mathlib.Data.List.DropRight
import Mathlib.Data.List.Infix
import Mathlib.Data.String.Basic

set_option relaxedAutoImplicit false
set_option autoImplicit false

namespace RustText

/-! ### Substrings -/

/-- `t` occurs in `s`. -/
def Occurs (t s : String) : Prop := t.toList <:+: s.toList

instance (t s : String) : Decidable (Occurs t s) :=
  inferInstanceAs (Decidable (t.toList <:+: s.toList))

/-- The source's `s.contains(t)`. -/
def contains (s t : String) : Bool := decide (Occurs t s)

@[simp] theorem contains_iff {s t : String} : contains s t = true ↔ Occurs t s := by
  simp [contains]

theorem Occurs.refl (s : String) : Occurs s s := List.infix_refl _

theorem Occurs.trans {t u s : String} (h₁ : Occurs t u) (h₂ : Occurs u s) : Occurs t s :=
  List.IsInfix.trans h₁ h₂

theorem occurs_empty (s : String) : Occurs "" s := List.nil_infix

/-- Only the empty string occurs in the empty string. -/
theorem Occurs.eq_empty {t : String} (h : Occurs t "") : t = "" := by
  have : t.toList = [] := List.infix_nil.1 h
  exact String.toList_inj.1 this

theorem occurs_append_left (s t : String) : Occurs s (s ++ t) := by
  unfold Occurs
  rw [String.toList_append]
  exact (List.prefix_append _ _).isInfix

theorem occurs_append_right (s t : String) : Occurs t (s ++ t) := by
  unfold Occurs
  rw [String.toList_append]
  exact (List.suffix_append _ _).isInfix

/-! ### Joining -/

/-- A joined piece occurs in the result. -/
theorem occurs_intercalate (sep : String) {l : List String} {s : String} (h : s ∈ l) :
    Occurs s (sep.intercalate l) := by
  induction l with
  | nil => simp at h
  | cons a l ih =>
      rcases List.mem_cons.1 h with rfl | h
      · cases l with
        | nil => rw [String.intercalate_singleton]; exact Occurs.refl _
        | cons b l =>
            rw [String.intercalate_cons_cons, String.append_assoc]
            exact occurs_append_left _ _
      · have hne : l ≠ [] := List.ne_nil_of_mem h
        rw [String.intercalate_cons_of_ne_nil hne]
        exact (ih h).trans (occurs_append_right _ _)

/-- What occurs in a piece occurs in the join of the pieces that are not empty. -/
theorem occurs_intercalate_nonempty (sep : String) {l : List String} {s t : String}
    (hs : s ∈ l) (ht : Occurs t s) :
    Occurs t (sep.intercalate (l.filter fun x => !x.isEmpty)) := by
  by_cases hempty : s.isEmpty
  · have : s = "" := String.isEmpty_iff.1 hempty
    subst this
    rw [ht.eq_empty]
    exact occurs_empty _
  · exact ht.trans (occurs_intercalate sep (List.mem_filter.2 ⟨hs, by simpa using hempty⟩))

/-! ### White space -/

/-- The source's `char::is_whitespace`: Unicode `White_Space`. -/
def isWhitespace (c : Char) : Bool :=
  let n := c.toNat
  (9 ≤ n && n ≤ 13) || n == 0x20 || n == 0x85 || n == 0xA0 || n == 0x1680 ||
    (0x2000 ≤ n && n ≤ 0x200A) || n == 0x2028 || n == 0x2029 || n == 0x202F || n == 0x205F ||
    n == 0x3000

/-- The source's `trim_end`. -/
def trimEnd (s : String) : String := String.ofList (s.toList.rdropWhile isWhitespace)

/-- The source's `trim`. -/
def trim (s : String) : String :=
  String.ofList ((s.toList.dropWhile isWhitespace).rdropWhile isWhitespace)

/-- The source's `trim().is_empty()`. -/
def isBlank (s : String) : Bool := (trim s).isEmpty

/-- A text is blank exactly when it is white space throughout. -/
theorem isBlank_iff (s : String) :
    isBlank s = true ↔ ∀ c ∈ s.toList, isWhitespace c = true := by
  rw [isBlank, trim, String.isEmpty_iff, ← String.toList_inj, String.toList_ofList,
    String.toList_empty, List.rdropWhile_eq_nil_iff]
  constructor
  · intro h
    rw [← List.dropWhile_eq_nil_iff]
    by_contra hne
    -- the first character that is not dropped is not white space
    have hhead := List.head_dropWhile_not isWhitespace hne
    rw [h _ (List.head_mem hne)] at hhead
    cases hhead
  · intro h c hc
    rw [List.dropWhile_eq_nil_iff.2 h] at hc
    cases hc

theorem toList_trimEnd (s : String) : (trimEnd s).toList = s.toList.rdropWhile isWhitespace :=
  String.toList_ofList

/-- Trimming the end of a text keeps the start of it. -/
theorem trimEnd_starts (s : String) : (trimEnd s).toList <+: s.toList := by
  rw [toList_trimEnd]
  exact List.rdropWhile_prefix isWhitespace s.toList

/-- Trimming a text and a longer one keeps the same exactly when what the longer one has on top is
white space. -/
theorem trimEnd_eq_iff (l r : List Char) :
    (l ++ r).rdropWhile isWhitespace = l.rdropWhile isWhitespace ↔
      ∀ c ∈ r, isWhitespace c = true := by
  induction r using List.reverseRecOn with
  | nil => simp
  | append_singleton r c ih =>
      rw [← List.append_assoc]
      by_cases hc : isWhitespace c = true
      · rw [List.rdropWhile_concat_pos _ _ _ hc, ih]
        simp [or_imp, forall_and, hc]
      · rw [List.rdropWhile_concat_neg _ _ _ hc]
        constructor
        · intro h
          have h₁ := (List.rdropWhile_prefix isWhitespace l).length_le
          have h₂ := congrArg List.length h
          simp only [List.length_append, List.length_singleton] at h₂
          omega
        · intro h
          exact absurd (h c (by simp)) hc

/-! ### Splitting -/

/-- The source's `split_whitespace`: the maximal runs without white space. -/
def splitWhitespace (s : String) : List String :=
  ((s.toList.splitOnP isWhitespace).filter fun w => !w.isEmpty).map String.ofList

/-- The pieces of `split("\n\n")`, as lists of characters. -/
def splitBlankLineChars : List Char → List (List Char)
  | [] => [[]]
  | '\n' :: '\n' :: rest => [] :: splitBlankLineChars rest
  | c :: rest =>
      match splitBlankLineChars rest with
      | [] => [[c]]
      | b :: bs => (c :: b) :: bs

/-- The source's `split("\n\n")`. -/
def splitBlankLine (s : String) : List String := (splitBlankLineChars s.toList).map String.ofList

/-- The pieces of `split_inclusive`, as lists of characters. -/
def splitInclusiveChars (p : Char → Bool) : List Char → List (List Char)
  | [] => []
  | c :: rest =>
      if p c then [c] :: splitInclusiveChars p rest
      else
        match splitInclusiveChars p rest with
        | [] => [[c]]
        | b :: bs => (c :: b) :: bs

/-- The source's `split_inclusive`. -/
def splitInclusive (p : Char → Bool) (s : String) : List String :=
  (splitInclusiveChars p s.toList).map String.ofList

/-! ### Lengths -/

/-- The source's `char::len_utf16`. -/
def lenUtf16 (c : Char) : ℤ := if c.toNat < 0x10000 then 1 else 2

theorem lenUtf16_pos (c : Char) : 0 < lenUtf16 c := by
  unfold lenUtf16; split <;> omega

end RustText
