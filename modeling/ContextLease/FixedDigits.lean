/-
Decimal numerals of a fixed width.

A number that is padded with zeros to a width that its numeral does not exceed is written with
exactly that many digits, from which it is read.  Numerals of one width are in the order of their
numbers, and texts that begin with such numerals are compared by them first.

Main definitions:

* `FixedDigits.digits` — a number in a fixed number of digits;
* `FixedDigits.padded` — a numeral, padded with zeros.

Main results:

* `FixedDigits.padded_eq_digits` — padding gives the fixed number of digits;
* `FixedDigits.ofDigitChars_digits` — a number is read from its digits;
* `FixedDigits.digits_cons_lt` — the order of texts that begin with numerals of one width.
-/

import Mathlib.Algebra.Group.Nat.Defs
import Mathlib.Data.Nat.Basic
import Mathlib.Order.Basic
import Mathlib.Tactic.Common

set_option relaxedAutoImplicit false
set_option autoImplicit false

namespace FixedDigits

/-- The last `width` decimal digits of a number. -/
def digits : ℕ → ℕ → List Char
  | 0, _ => []
  | width + 1, n => digits width (n / 10) ++ [(n % 10).digitChar]

/-- The decimal numeral of a number, with zeros in front up to a width. -/
def padded (width n : ℕ) : List Char :=
  List.replicate (width - (Nat.toDigits 10 n).length) '0' ++ Nat.toDigits 10 n

@[simp] theorem length_digits (width n : ℕ) : (digits width n).length = width := by
  induction width generalizing n with
  | zero => rfl
  | succ width ih => rw [digits, List.length_append, ih, List.length_singleton]

/-! ### Padding -/

theorem digits_zero (width : ℕ) : digits width 0 = List.replicate width '0' := by
  induction width with
  | zero => rfl
  | succ width ih =>
      rw [digits, Nat.zero_div, ih, List.replicate_succ']
      rfl

/-- A number of at most `width` digits is padded to them. -/
theorem padded_eq_digits {width n : ℕ} (h : n < 10 ^ width) (hwidth : 0 < width) :
    padded width n = digits width n := by
  induction width generalizing n with
  | zero => cases hwidth
  | succ width ih =>
      rcases Nat.lt_or_ge n 10 with hn | hn
      · rw [padded, digits, Nat.toDigits_of_lt_base hn, Nat.div_eq_of_lt hn, Nat.mod_eq_of_lt hn,
          digits_zero]
        rfl
      · have hrest : n / 10 < 10 ^ width := by
          rw [Nat.pow_succ] at h
          exact Nat.div_lt_of_lt_mul (by omega)
        have hsome : 0 < width := by
          refine Nat.pos_of_ne_zero ?_
          rintro rfl
          omega
        rw [digits, ← ih hrest hsome, padded, padded,
          Nat.toDigits_of_base_le (by decide) hn, List.length_append, List.length_singleton,
          Nat.add_sub_add_right, List.append_assoc]

/-! ### Reading -/

/-- A numeral of fixed width is read as its number. -/
theorem ofDigitChars_digits {width n : ℕ} (h : n < 10 ^ width) :
    Nat.ofDigitChars 10 (digits width n) 0 = n := by
  induction width generalizing n with
  | zero => exact (Nat.lt_one_iff.1 h).symm
  | succ width ih =>
      rw [Nat.pow_succ] at h
      have hrest : n / 10 < 10 ^ width := Nat.div_lt_of_lt_mul (by omega)
      rw [digits, Nat.ofDigitChars_append, ih hrest,
        Nat.ofDigitChars_cons_digitChar_of_lt_ten (Nat.mod_lt _ (by decide)),
        Nat.ofDigitChars_nil]
      omega

/-- A numeral is made of digits. -/
theorem exists_of_mem_digits {width n : ℕ} {c : Char} (h : c ∈ digits width n) :
    ∃ d < 10, c = d.digitChar := by
  induction width generalizing n with
  | zero => cases h
  | succ width ih =>
      rcases List.mem_append.1 h with hrest | hlast
      · exact ih hrest
      · exact ⟨n % 10, Nat.mod_lt _ (by decide), List.mem_singleton.1 hlast⟩

/-! ### Order -/

theorem digitChar_lt {a b : ℕ} (h : a < b) (hb : b < 10) : a.digitChar < b.digitChar := by
  have htable : ∀ b < 10, ∀ a < b, a.digitChar < b.digitChar := by decide
  exact htable b hb a h

/-- A text that comes first at an earlier place comes first. -/
theorem append_lt_append {l r : List Char} (h : l < r) (hlength : l.length = r.length)
    (l' r' : List Char) : l ++ l' < r ++ r' := by
  induction l generalizing r with
  | nil =>
      obtain rfl := List.length_eq_zero_iff.1 hlength.symm
      exact absurd h (List.not_lt_nil [])
  | cons c l ih =>
      cases r with
      | nil => cases hlength
      | cons d r =>
          rw [List.cons_append, List.cons_append, List.cons_lt_cons_iff]
          rcases List.cons_lt_cons_iff.1 h with hlt | ⟨rfl, hlt⟩
          · exact Or.inl hlt
          · exact Or.inr ⟨rfl, ih hlt (Nat.succ_injective hlength)⟩

/-- Numerals of one width are in the order of their numbers. -/
theorem digits_lt {width a b : ℕ} (h : a < b) (hb : b < 10 ^ width) :
    digits width a < digits width b := by
  induction width generalizing a b with
  | zero => omega
  | succ width ih =>
      rw [digits, digits]
      have hrest : b / 10 < 10 ^ width := by
        rw [Nat.pow_succ] at hb
        exact Nat.div_lt_of_lt_mul (by omega)
      rcases Nat.lt_or_ge (a / 10) (b / 10) with hlt | hge
      · exact append_lt_append (ih hlt hrest) (by simp) _ _
      · -- the numbers differ in the last digit
        have heq : a / 10 = b / 10 := le_antisymm (Nat.div_le_div_right h.le) hge
        rw [heq]
        refine List.append_left_lt ?_
        rw [List.cons_lt_cons_iff]
        exact Or.inl (digitChar_lt (by omega) (Nat.mod_lt _ (by decide)))

/-- Texts that begin with numerals of one width and a separator are compared by the numbers first,
and then by what follows. -/
theorem digits_cons_lt {width a b : ℕ} {l r : List Char} (hb : b < 10 ^ width) (separator : Char)
    (h : a < b ∨ a = b ∧ l < r) :
    digits width a ++ separator :: l < digits width b ++ separator :: r := by
  rcases h with h | ⟨rfl, h⟩
  · exact append_lt_append (digits_lt h hb) (by simp) _ _
  · exact List.append_left_lt (List.cons_lt_cons_iff.2 (Or.inr ⟨rfl, h⟩))

end FixedDigits
