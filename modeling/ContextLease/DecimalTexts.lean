/-
A float that can be written.

The floats of the development are left open, with the texts they are written as.  `Decimal` is one
choice that can be evaluated: exact rationals, with the texts both languages give to a whole number
of moderate size.

Main results:

* `intChar_of_mem` — the characters of an integer;
* instances of `FloatOps` and `NumberTexts` for `Decimal`.
-/

import ContextLease.HostJson

set_option relaxedAutoImplicit false
set_option autoImplicit false

namespace ContextLease

open MachineNumbers

/-- A character that an integer is written with. -/
def IntChar (c : Char) : Prop := c.isDigit = true ∨ c = '-'

theorem intChar_of_mem_nat {n : ℕ} {c : Char} (h : c ∈ (toString n).toList) : IntChar c := by
  rw [Nat.toString_eq_repr, Nat.toList_repr] at h
  exact .inl (Nat.isDigit_of_mem_toDigits (by norm_num) le_rfl h)

theorem intChar_of_mem {n : ℤ} {c : Char} (h : c ∈ (toString n).toList) : IntChar c := by
  cases n with
  | ofNat n => exact intChar_of_mem_nat h
  | negSucc n =>
      have htext : toString (Int.negSucc n) = "-" ++ toString (n + 1) := rfl
      rw [htext, String.toList_append, List.mem_append] at h
      rcases h with h | h
      · exact .inr (by simpa using h)
      · exact intChar_of_mem_nat h

theorem IntChar.plain {c : Char} (h : IntChar c) : c ≠ ',' ∧ c ≠ ']' ∧ c ≠ '\x7d' := by
  refine ⟨?_, ?_, ?_⟩ <;> rintro rfl <;> rcases h with h | h <;> revert h <;> decide

/-- A rational that is written as a decimal. -/
structure Decimal where
  value : ℚ

namespace Decimal

/-- A whole number ends in `.0` on both sides; any other is written as a fraction. -/
def text (x : Decimal) : String :=
  toString x.value.num ++ if x.value.den = 1 then ".0" else "/" ++ toString x.value.den

instance : FloatOps Decimal where
  ofRat := Decimal.mk
  add a b := ⟨a.value + b.value⟩
  mul a b := ⟨a.value * b.value⟩
  div a b := ⟨a.value / b.value⟩
  max a b := ⟨FloatOps.max a.value b.value⟩
  ceil a := ⟨FloatOps.ceil a.value⟩
  toInt a := FloatOps.toInt a.value
  lt a b := FloatOps.lt a.value b.value
  le a b := FloatOps.le a.value b.value
  text := text
  max_one := congrArg Decimal.mk (FloatOps.max_one (F := ℚ))
  scaled_nonneg n x h := FloatOps.scaled_nonneg (F := ℚ) n x.value h

/-- The point or the bar of a text. -/
theorem exists_mark (x : Decimal) : ∃ c ∈ (text x).toList, c = '.' ∨ c = '/' := by
  rw [text]
  split
  · exact ⟨'.', by simp, .inl rfl⟩
  · exact ⟨'/', by simp, .inr rfl⟩

theorem text_char {x : Decimal} {c : Char} (h : c ∈ (text x).toList) :
    IntChar c ∨ c = '.' ∨ c = '/' := by
  rw [text, String.toList_append, List.mem_append] at h
  rcases h with h | h
  · exact .inl (intChar_of_mem h)
  · split at h
    · have hzero : c = '.' ∨ c = '0' := by simpa using h
      rcases hzero with rfl | rfl
      · exact .inr (.inl rfl)
      · exact .inl (.inl rfl)
    · rw [String.toList_append, List.mem_append] at h
      rcases h with h | h
      · exact .inr (.inr (by simpa using h))
      · exact .inl (intChar_of_mem_nat h)

theorem text_plain (x : Decimal) : JsonTree.PlainNumber (text x) := by
  intro c hc
  rcases text_char hc with h | rfl | rfl
  · exact h.plain
  · decide
  · decide

theorem text_ne_int (x : Decimal) (n : ℤ) : text x ≠ toString n := by
  intro heq
  obtain ⟨c, hc, hmark⟩ := exists_mark x
  rw [heq] at hc
  rcases hmark with rfl | rfl <;> rcases intChar_of_mem hc with h | h <;> revert h <;> decide

instance : NumberTexts Decimal where
  repr := text
  readFloat := some
  readInt n := some ⟨n⟩
  repr_plain := text_plain
  text_plain := text_plain
  text_ne_int := text_ne_int

end Decimal

end ContextLease
