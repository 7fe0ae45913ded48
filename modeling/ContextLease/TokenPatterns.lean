/-
The regular-expression estimator in two languages.

The kernel counts the tokens of a text in one pass, the Python package searches for the matches of a
pattern, under the same tokenizer id.  As searches for words and single characters the two are the
same; but each language has its own classes.  The separators U+001C to U+001F are white space only
for Python's `\s`, and letters with marks are alphanumeric for Rust where the marks are no part of
Python's `\w`, so that neighbours may be joined to one word in one language and not in the other.

Main definitions:

* `PythonText`, `regexCountText` — Python's classes, and the source's `RegexTokenCounter`;
* `separators`, `joinedBy` — the characters and the neighbours on which the languages disagree.

Main results:

* `countText_eq` — what the kernel counts, in terms of what the package counts;
* `countText_agrees_iff` — when the two counts are the same.
-/

import ContextLease.Count
import ContextLease.HostLayout
import ContextLease.WordScan

set_option relaxedAutoImplicit false
set_option autoImplicit false

namespace ContextLease

open MachineNumbers RustText WordScan

/-! ### The estimator of the package -/

/-- What Python's `re` takes from the Unicode database: the class of `str.isalnum`. -/
structure PythonText where
  isAlnum : Char → Bool
  /-- No character is both alphanumeric and white space. -/
  not_space : ∀ c, isAlnum c = true → Host.isSpace c = false

/-- Python's `\\w`. -/
def PythonText.isWord (py : PythonText) (c : Char) : Bool := py.isAlnum c || c == '_'

/-- The source's `RegexTokenCounter.count_text`: the number of matches of `[\\w]+|[^\\w\\s]`. -/
def regexCountText (py : PythonText) (text : String) : ℕ :=
  ((pattern py.isWord Host.isSpace).findAll text.toList).length

/-- A word character of the kernel. -/
def Library.isWord (lib : Library) (c : Char) : Bool := lib.isAlphanumeric c || c == '_'

theorem PythonText.isWord_not_space (py : PythonText) (c : Char) (h : py.isWord c = true) :
    Host.isSpace c = false := by
  rw [isWord, Bool.or_eq_true, beq_iff_eq] at h
  rcases h with h | rfl
  · exact py.not_space c h
  · decide

theorem Library.isWord_not_whitespace (lib : Library) (c : Char) (h : lib.isWord c = true) :
    isWhitespace c = false := by
  rw [isWord, Bool.or_eq_true, beq_iff_eq] at h
  rcases h with h | rfl
  · exact lib.not_whitespace c h
  · decide

/-- The one pass of the kernel, whose sum may wrap. -/
theorem countTextLoop_eq (P : Platform) (l : List Char) (inWord : Bool) (tokens : ℤ) :
    countTextLoop P l inWord (P.arith.norm tokens) =
      P.arith.norm (tokens + starts P.isWord isWhitespace inWord l) := by
  induction l generalizing inWord tokens with
  | nil => rw [countTextLoop, starts, Nat.cast_zero, add_zero]
  | cons c rest ih =>
      have hstep : (if (P.isWord c && !inWord) || (!P.isWord c && !isWhitespace c) then
          P.arith.add (P.arith.norm tokens) 1 else P.arith.norm tokens) =
        P.arith.norm (tokens +
          (if (P.isWord c && !inWord) || (!P.isWord c && !isWhitespace c) then 1
          else 0)) := by
        split
        · exact P.arith.norm_add_norm tokens 1
        · rw [add_zero]
      change countTextLoop P rest (P.isWord c) (if (P.isWord c && !inWord) ||
        (!P.isWord c && !isWhitespace c) then P.arith.add (P.arith.norm tokens) 1
          else P.arith.norm tokens) = _
      rw [hstep, ih, starts, Nat.cast_add, add_assoc]
      congr 3
      split <;> rfl

/-! ### Where the languages disagree -/

/-- The characters U+001C to U+001F, which are white space for Python and not for Rust. -/
def separators (text : String) : ℕ := text.toList.countP fun c => 0x1C ≤ c.toNat && c.toNat ≤ 0x1F

/-- The neighbours that the first class joins to one word and the second does not. -/
def joinedBy (word word' : Char → Bool) (text : String) : ℕ :=
  joins (fun c d => word c && word d && !(word' c && word' d)) text.toList

theorem solid_isWhitespace (text : String) :
    solid isWhitespace text.toList = solid Host.isSpace text.toList + separators text := by
  rw [solid, solid, separators]
  induction text.toList with
  | nil => rfl
  | cons c rest ih =>
      have hsplit : (if (!isWhitespace c) = true then 1 else 0) =
          (if (!Host.isSpace c) = true then 1 else 0) +
            if (decide (0x1C ≤ c.toNat) && decide (c.toNat ≤ 0x1F)) = true then 1 else 0 := by
        by_cases hseparator : 0x1C ≤ c.toNat ∧ c.toNat ≤ 0x1F
        · have hsolid : isWhitespace c = false := by
            simp only [isWhitespace, Bool.or_eq_false_iff, Bool.and_eq_false_iff,
              decide_eq_false_iff_not, beq_eq_false_iff_ne]
            omega
          simp [Host.isSpace, hsolid, hseparator.1, hseparator.2]
        · have hnone : (decide (0x1C ≤ c.toNat) && decide (c.toNat ≤ 0x1F)) = false := by
            simpa [Bool.and_eq_false_iff] using hseparator
          simp [Host.isSpace, hnone]
      rw [List.countP_cons, List.countP_cons, List.countP_cons, ih, hsplit]
      omega

/-- The neighbours that both classes join are counted on either side. -/
theorem joins_split (word word' : Char → Bool) (l : List Char) :
    joins (fun c d => word c && word d) l +
        joins (fun c d => word' c && word' d && !(word c && word d)) l =
      joins (fun c d => word' c && word' d) l +
        joins (fun c d => word c && word d && !(word' c && word' d)) l := by
  induction l with
  | nil => rfl
  | cons c rest ih =>
      cases rest with
      | nil => rfl
      | cons d rest =>
          have hone (first second : Bool) :
              (if first = true then 1 else 0) + (if (second && !first) = true then 1 else 0) =
                (if second = true then 1 else 0) + if (first && !second) = true then 1 else 0 := by
            cases first <;> cases second <;> rfl
          have hhere := hone (word c && word d) (word' c && word' d)
          simp only [joins]
          linarith

/-! ### The two counts -/

/-- The kernel counts what the package counts, plus the separators and the neighbours that only the
package joins, less those that only the kernel joins. -/
theorem countText_eq (P : Platform) (py : PythonText) (text : String) :
    countText P text = P.arith.norm (regexCountText py text + (separators text +
      joinedBy py.isWord P.isWord text - joinedBy P.isWord py.isWord text)) := by
  have hpass := countTextLoop_eq P text.toList false 0
  rw [Arith.norm_of_fits P.arith.fits_zero, zero_add] at hpass
  have hkernel := starts_eq P.isWord_not_whitespace text.toList
  have hpackage := starts_eq py.isWord_not_space text.toList
  rw [← length_findAll py.isWord Host.isSpace, ← regexCountText] at hpackage
  have hsolid := solid_isWhitespace text
  have hjoins := joins_split P.isWord py.isWord text.toList
  rw [← joinedBy, ← joinedBy] at hjoins
  rw [countText, hpass]
  congr 1
  omega

/-- A shifted number is itself when it is representable and the shift wraps to nothing. -/
theorem norm_add_eq_iff (a : Arith) (n d : ℤ) : a.norm (n + d) = n ↔ a.Fits n ∧ a.norm d = 0 := by
  cases a with
  | exact => simp [Arith.norm, Arith.Fits]
  | release =>
      simp only [Arith.norm, Arith.Fits, Int.bmod, i32Min, i32Max]
      constructor
      · intro h
        split at h <;> split <;> omega
      · rintro ⟨hfits, h⟩
        split at h <;> split <;> omega

/-- The kernel counts as many tokens as the package has matches exactly when their number is
representable, and the separators together with the neighbours that only Python joins to a word are
as many as the neighbours that only Rust joins, up to what wraps. -/
theorem countText_agrees_iff (P : Platform) (py : PythonText) (text : String) :
    countText P text = regexCountText py text ↔
      P.arith.Fits (regexCountText py text) ∧
        P.arith.norm (separators text + joinedBy py.isWord P.isWord text -
          joinedBy P.isWord py.isWord text) = 0 := by
  rw [countText_eq P py]
  exact norm_add_eq_iff ..

/-- No letter or digit of ASCII is white space. -/
theorem isSpace_of_isAlphanum (c : Char) (h : c.isAlphanum = true) : Host.isSpace c = false := by
  have hwhite := (Library.ascii id).not_whitespace c h
  have hlow : ¬ (0x1C ≤ c.toNat ∧ c.toNat ≤ 0x1F) := by
    rintro ⟨-, hle⟩
    have hranges : c.isAlphanum =
        (decide ('A'.val ≤ c.val ∧ c.val ≤ 'Z'.val) ||
          (decide ('a'.val ≤ c.val) && decide (c.val ≤ 'z'.val)) ||
          (decide ('0'.val ≤ c.val) && decide (c.val ≤ '9'.val))) := rfl
    simp only [hranges, Bool.or_eq_true, Bool.and_eq_true, decide_eq_true_eq,
      UInt32.le_iff_toNat_le] at h
    have hletters : 'A'.val.toNat = 65 ∧ 'a'.val.toNat = 97 ∧ '0'.val.toNat = 48 := by decide
    simp only [Char.toNat] at hle
    omega
  rw [Host.isSpace, hwhite, Bool.false_or, ← Bool.not_eq_true, Bool.and_eq_true,
    decide_eq_true_eq, decide_eq_true_eq]
  exact hlow

/-- Python's classes on ASCII text. -/
def PythonText.ascii : PythonText where
  isAlnum c := c.isAlphanum
  not_space := isSpace_of_isAlphanum

/-- A separator is a token for the kernel and white space for the package. -/
theorem separator_counted :
    countText (Library.ascii id).release "\x1c" ≠ regexCountText .ascii "\x1c" := by decide +kernel

end ContextLease
