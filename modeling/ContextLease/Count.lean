/-
Counting tokens.

The kernel counts a text with the host's counter when there is one and with one of two built-in
estimators otherwise, and scales an estimate by the safety multiplier of the model's calibration.
A negative count of the host is a failure of its callback: it raises the flag of the call and
counts as zero.

Main definitions:

* `Library`, `Platform` — what the kernel takes from outside its source, and how its integers are
  read;
* `countText`, `countCharEstimator`, `estimateText` — the estimators;
* `CountContext`, `CountContext.countText`, `CountContext.countContent` — counting in one call;
* `ensureValid` — the check of the flag at the end of a call.

Main results:

* `CountContext.countText_nonneg`, `CountContext.fits_countText` — a count is a representable
  natural number, whatever the host's counter returns;
* `ensureValid_eq_ok` — a call succeeds when it has a result and the flag was never raised.
-/

import Mathlib.Algebra.Order.BigOperators.Group.List
import ContextLease.Validate

set_option relaxedAutoImplicit false
set_option autoImplicit false

namespace ContextLease

open MachineNumbers RustText

/-! ### What the kernel takes from outside -/

/-- What the kernel takes from outside its source: the Unicode class of `char::is_alphanumeric`,
and the first 24 hexadecimal digits of SHA-256. -/
structure Library where
  isAlphanumeric : Char → Bool
  /-- No character is both alphanumeric and white space. -/
  not_whitespace : ∀ c, isAlphanumeric c = true → isWhitespace c = false
  digest : String → String

/-- A library, and how the integers of the kernel are read. -/
structure Platform extends Library where
  arith : Arith

/-- The library on ASCII text, with a digest of one's choice. -/
def Library.ascii (digest : String → String) : Library where
  isAlphanumeric c := c.isAlphanum
  not_whitespace c h := by
    have hranges : c.isAlphanum =
        (decide ('A'.val ≤ c.val ∧ c.val ≤ 'Z'.val) ||
          (decide ('a'.val ≤ c.val) && decide (c.val ≤ 'z'.val)) ||
          (decide ('0'.val ≤ c.val) && decide (c.val ≤ '9'.val))) := rfl
    simp only [hranges, Bool.or_eq_true, Bool.and_eq_true, decide_eq_true_eq,
      UInt32.le_iff_toNat_le] at h
    simp only [isWhitespace, Char.toNat, Bool.or_eq_false_iff, Bool.and_eq_false_iff,
      decide_eq_false_iff_not, beq_eq_false_iff_ne]
    have hletters : 'A'.val.toNat = 65 ∧ 'Z'.val.toNat = 90 ∧ 'a'.val.toNat = 97 ∧
        'z'.val.toNat = 122 ∧ '0'.val.toNat = 48 ∧ '9'.val.toNat = 57 := by decide
    omega
  digest := digest

/-- The kernel over unbounded integers. -/
abbrev Library.exact (lib : Library) : Platform := { lib with arith := .exact }

/-- The kernel as compiled for release. -/
abbrev Library.release (lib : Library) : Platform := { lib with arith := .release }

/-! ### The estimators -/

section Estimators

variable (P : Platform)

/-- The loop of `count_text`. -/
def countTextLoop : List Char → Bool → ℤ → ℤ
  | [], _, tokens => tokens
  | ch :: rest, inWord, tokens =>
      let word := P.isAlphanumeric ch || ch == '_'
      let tokens :=
        if (word && !inWord) || (!word && !isWhitespace ch) then P.arith.add tokens 1 else tokens
      countTextLoop rest word tokens

/-- The source's free function `count_text`: the tokens of the regular-expression estimator. -/
def countText (text : String) : ℤ := countTextLoop P text.toList false 0

/-- The source's `is_cjk_estimator_char`. -/
def isCjkEstimatorChar (ch : Char) : Bool :=
  let n := ch.toNat
  (0x3400 ≤ n && n ≤ 0x4DBF) || (0x4E00 ≤ n && n ≤ 0x9FFF) || (0x3000 ≤ n && n ≤ 0x30FF) ||
    (0xFF00 ≤ n && n ≤ 0xFFEF) || (0xAC00 ≤ n && n ≤ 0xD7AF)

/-- The two running sums of `count_char_estimator` after one more character. -/
def charStep (sums : ℤ × ℤ) (ch : Char) : ℤ × ℤ :=
  if isCjkEstimatorChar ch then (P.arith.add sums.1 1, sums.2)
  else (sums.1, P.arith.add sums.2 (lenUtf16 ch))

/-- The tokens of the two running sums. -/
def charTokens (sums : ℤ × ℤ) : ℤ :=
  P.arith.add sums.1 ((P.arith.add sums.2 3).tdiv 4)

/-- The source's `count_char_estimator`. -/
def countCharEstimator (text : String) : ℤ :=
  charTokens P (text.toList.foldl (charStep P) (0, 0))

/-- The source's `uses_char_estimator`. -/
def usesCharEstimator (tokenizerId : String) : Bool :=
  tokenizerId == "cjk_aware_char_estimator" || "tiktoken_".toList.isPrefixOf tokenizerId.toList

/-- The source's `estimate_text`. -/
def estimateText (text tokenizerId : String) : ℤ :=
  if usesCharEstimator tokenizerId then countCharEstimator P text else countText P text

end Estimators

/-! ### Counting in one call -/

/-- A host counter, which is deterministic for the duration of a call. -/
abbrev TokenCounter := String → ℤ

/-- The source's `CountContext`; its `failed` cell is the flag of `Flagged`. -/
structure CountContext (F : Type) where
  tokenizerId : String
  external : Option TokenCounter
  safetyMultiplier : F

section Counting

variable {F : Type} [FloatOps F] (P : Platform)

/-- The raw count of a text: the host's, or the estimate. -/
def CountContext.raw (counts : CountContext F) (text : String) : ℤ :=
  match counts.external with
  | some counter => counter text
  | none => estimateText P text counts.tokenizerId

/-- The source's `CountContext::count_text`. -/
def CountContext.countText (counts : CountContext F) (text : String) : Flagged ℤ :=
  let raw := counts.raw P text
  if raw < 0 then ⟨0, true⟩
  else if counts.external.isSome then ⟨raw, false⟩
  else
    ⟨P.arith.saturate (FloatOps.toInt (FloatOps.ceil
      (FloatOps.mul (FloatOps.ofInt raw) counts.safetyMultiplier))), false⟩

/-- The source's `CountContext::count_content`. -/
def CountContext.countContent (counts : CountContext F) (value : Value) : Flagged ℤ :=
  match value with
  | .string text => counts.countText P text
  | .null => pure 0
  | value => counts.countText P value.toJson

/-- The source's sum of `count_content` over chunks. -/
def CountContext.countChunks (counts : CountContext F) (chunks : List (PromptChunk F)) :
    Flagged ℤ := do
  let tokens ← Flagged.traverse (fun c => counts.countContent P c.content) chunks
  pure (P.arith.sum tokens)

@[simp] theorem CountContext.val_countChunks (counts : CountContext F)
    (chunks : List (PromptChunk F)) :
    (counts.countChunks P chunks).val =
      P.arith.sum (chunks.map fun c => (counts.countContent P c.content).val) := by
  simp [CountContext.countChunks]

/-- The multiplier scales a natural number to a natural number. -/
def CountContext.Scales (counts : CountContext F) : Prop :=
  ∀ n : ℤ, 0 ≤ n →
    0 ≤ FloatOps.toInt (FloatOps.ceil (FloatOps.mul (FloatOps.ofInt n) counts.safetyMultiplier))

/-- A multiplier clamped to at least one scales. -/
theorem CountContext.scales_of_clamped {counts : CountContext F} {x : F}
    (h : counts.safetyMultiplier = FloatOps.max x (FloatOps.ofRat 1)) : counts.Scales := by
  intro n hn
  rw [h]
  exact FloatOps.scaled_nonneg n x hn

/-- A count is a natural number. -/
theorem CountContext.countText_nonneg {counts : CountContext F} (hscale : counts.Scales)
    (text : String) : 0 ≤ (counts.countText P text).val := by
  simp only [CountContext.countText]
  split
  · exact le_refl 0
  · rename_i hraw
    split
    · exact not_lt.1 hraw
    · exact P.arith.saturate_nonneg (hscale _ (by omega))

theorem CountContext.countContent_nonneg {counts : CountContext F} (hscale : counts.Scales)
    (value : Value) : 0 ≤ (counts.countContent P value).val := by
  unfold CountContext.countContent
  split
  · exact CountContext.countText_nonneg P hscale _
  · exact le_refl 0
  · exact CountContext.countText_nonneg P hscale _

/-- So is the count of a list of chunks, in exact arithmetic. -/
theorem CountContext.countChunks_nonneg {counts : CountContext F} (hscale : counts.Scales)
    (hexact : P.arith = .exact) (chunks : List (PromptChunk F)) :
    0 ≤ (counts.countChunks P chunks).val := by
  rw [CountContext.val_countChunks, hexact, Arith.sum_exact]
  refine List.sum_nonneg ?_
  intro x hx
  obtain ⟨c, -, rfl⟩ := List.mem_map.1 hx
  exact counts.countContent_nonneg P hscale _

/-- The host's counter returns machine integers. -/
def CountContext.Typed (counts : CountContext F) : Prop :=
  ∀ counter ∈ counts.external, ∀ text, P.arith.Fits (counter text)

/-- A count is representable. -/
theorem CountContext.fits_countText {counts : CountContext F} (htyped : counts.Typed P)
    (text : String) : P.arith.Fits (counts.countText P text).val := by
  simp only [CountContext.countText]
  split
  · exact P.arith.fits_zero
  · split
    · rename_i hext
      obtain ⟨counter, hcounter⟩ := Option.isSome_iff_exists.1 hext
      simp only [CountContext.raw, hcounter]
      exact htyped counter hcounter text
    · exact P.arith.fits_saturate _

end Counting

/-! ### The flag -/

/-- The source's `ensure_valid` at the end of a call: a call that did not fail otherwise fails if
the host's counter did. -/
def ensureValid {α : Type} (x : Checked ContextLeaseError α) : Result α :=
  match x.outcome with
  | .ok a =>
      if x.failed then fail "tokenizer_callback_failed" "host tokenizer callback returned an error"
      else .ok a
  | .error e => .error e

theorem ensureValid_eq_ok {α : Type} {x : Checked ContextLeaseError α} {a : α} :
    ensureValid x = .ok a ↔ x.outcome = .ok a ∧ x.failed = false := by
  unfold ensureValid
  cases hx : x.outcome with
  | error e => simp
  | ok b => cases hf : x.failed <;> simp [fail]

end ContextLease
