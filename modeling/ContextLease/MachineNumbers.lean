/-
Machine numbers: fixed-width integers read exactly or as they wrap, and floating point behind an
interface.

A program that computes with 32-bit integers can be verified in two readings.  In the *exact*
reading every result is the mathematical one; in the *release* reading an addition or subtraction
keeps the result modulo `2 ^ 32` and a conversion from floating point saturates.  A definition
that takes the reading as a parameter is a model of both, and a proof about it holds of both as
long as it only replaces a machine result by the exact one where that result fits.

Floating point is an interface: the operations a program uses, over an arbitrary carrier.  A
result proved for every carrier holds whatever rounding does; a result that needs the real meaning
of the operations is stated at the carrier `ℚ`.

Main definitions:

* `MachineNumbers.Arith` — the two readings, with `Arith.add`, `Arith.sub`, `Arith.sum` and
  `Arith.saturate`;
* `MachineNumbers.Arith.Fits` — the values a reading represents;
* `MachineNumbers.FloatOps` — the floating-point interface, and its instance at `ℚ`.

Main results:

* `MachineNumbers.Arith.norm_of_fits` — a result that fits is the exact one;
* `MachineNumbers.Arith.sum_eq_norm` — a sum wraps once, however its terms are grouped;
* `MachineNumbers.Arith.Fits.between` — what lies between two representable values is
  representable.
-/

import Mathlib.Data.Rat.Floor
import Mathlib.Tactic.Linarith
import Mathlib.Algebra.BigOperators.Group.List.Basic

set_option relaxedAutoImplicit false
set_option autoImplicit false

namespace MachineNumbers

/-! ### Integers -/

/-- How the integer arithmetic of a program is read: `exact` is unbounded, `release` is `i32`
compiled without overflow checks. -/
inductive Arith
  | exact
  | release
  deriving DecidableEq

/-- The least `i32`. -/
def i32Min : ℤ := -2147483648

/-- The greatest `i32`. -/
def i32Max : ℤ := 2147483647

namespace Arith

/-- The value kept of an exact result. -/
def norm : Arith → ℤ → ℤ
  | .exact, x => x
  | .release, x => Int.bmod x 4294967296

/-- The value of `x as i32` for the integer part `x` of a float, which saturates. -/
def saturate : Arith → ℤ → ℤ
  | .exact, x => x
  | .release, x => max i32Min (min x i32Max)

/-- Addition. -/
def add (a : Arith) (x y : ℤ) : ℤ := a.norm (x + y)

/-- Subtraction. -/
def sub (a : Arith) (x y : ℤ) : ℤ := a.norm (x - y)

/-- The sum of an iterator. -/
def sum (a : Arith) (l : List ℤ) : ℤ := l.foldl a.add 0

/-- The values a reading represents. -/
def Fits : Arith → ℤ → Prop
  | .exact, _ => True
  | .release, x => i32Min ≤ x ∧ x ≤ i32Max

instance : (a : Arith) → (x : ℤ) → Decidable (a.Fits x)
  | .exact, _ => inferInstanceAs (Decidable True)
  | .release, _ => inferInstanceAs (Decidable (_ ∧ _))

@[simp] theorem norm_exact (x : ℤ) : exact.norm x = x := rfl

@[simp] theorem saturate_exact (x : ℤ) : exact.saturate x = x := rfl

@[simp] theorem add_exact (x y : ℤ) : exact.add x y = x + y := rfl

@[simp] theorem sub_exact (x y : ℤ) : exact.sub x y = x - y := rfl

@[simp] theorem fits_exact (x : ℤ) : exact.Fits x := trivial

theorem fits_release {x : ℤ} : release.Fits x ↔ -2147483648 ≤ x ∧ x ≤ 2147483647 := Iff.rfl

theorem fits_zero (a : Arith) : a.Fits 0 := by
  cases a <;> simp [Fits, i32Min, i32Max]

/-- A result that fits is the exact one. -/
theorem norm_of_fits {a : Arith} {x : ℤ} (h : a.Fits x) : a.norm x = x := by
  cases a with
  | exact => rfl
  | release =>
      obtain ⟨h₁, h₂⟩ := h
      simp only [i32Min, i32Max] at h₁ h₂
      exact Int.bmod_eq_of_le (by omega) (by omega)

theorem fits_norm (a : Arith) (x : ℤ) : a.Fits (a.norm x) := by
  cases a with
  | exact => trivial
  | release =>
      have h₁ := Int.le_bmod (x := x) (m := 4294967296) (by omega)
      have h₂ := Int.bmod_lt (x := x) (m := 4294967296) (by omega)
      simp only [Fits, norm, i32Min, i32Max]
      omega

theorem fits_saturate (a : Arith) (x : ℤ) : a.Fits (a.saturate x) := by
  cases a with
  | exact => trivial
  | release => simp only [Fits, saturate, i32Min, i32Max]; omega

theorem saturate_of_fits {a : Arith} {x : ℤ} (h : a.Fits x) : a.saturate x = x := by
  cases a with
  | exact => rfl
  | release => simp only [Fits] at h; simp only [saturate]; omega

/-- Saturation keeps the order. -/
theorem saturate_mono (a : Arith) {x y : ℤ} (h : x ≤ y) : a.saturate x ≤ a.saturate y := by
  cases a with
  | exact => exact h
  | release => simp only [saturate]; omega

theorem saturate_nonneg (a : Arith) {x : ℤ} (h : 0 ≤ x) : 0 ≤ a.saturate x := by
  cases a with
  | exact => exact h
  | release => simp only [saturate, i32Min, i32Max]; omega

/-- What lies between two representable values is representable. -/
theorem Fits.between {a : Arith} {lo hi x : ℤ} (hlo : a.Fits lo) (hhi : a.Fits hi)
    (h₁ : lo ≤ x) (h₂ : x ≤ hi) : a.Fits x := by
  cases a with
  | exact => trivial
  | release => simp only [Fits] at *; omega

/-- A value between zero and a representable one is representable. -/
theorem Fits.ofNonneg {a : Arith} {hi x : ℤ} (hhi : a.Fits hi) (h₁ : 0 ≤ x) (h₂ : x ≤ hi) :
    a.Fits x :=
  a.fits_zero.between hhi h₁ h₂

theorem add_of_fits {a : Arith} {x y : ℤ} (h : a.Fits (x + y)) : a.add x y = x + y :=
  norm_of_fits h

theorem sub_of_fits {a : Arith} {x y : ℤ} (h : a.Fits (x - y)) : a.sub x y = x - y :=
  norm_of_fits h

theorem norm_add_norm (a : Arith) (x y : ℤ) : a.norm (a.norm x + y) = a.norm (x + y) := by
  cases a with
  | exact => rfl
  | release => exact Int.bmod_add_bmod

/-- A sum wraps once, however its terms are grouped. -/
theorem sum_eq_norm (a : Arith) (l : List ℤ) : a.sum l = a.norm l.sum := by
  have hfold : ∀ (l : List ℤ) (x : ℤ), l.foldl a.add (a.norm x) = a.norm (x + l.sum) := by
    intro l
    induction l with
    | nil => intro x; simp
    | cons y l ih =>
        intro x
        rw [List.foldl_cons, add, norm_add_norm, ih, List.sum_cons, add_assoc]
  have hzero : a.norm 0 = 0 := norm_of_fits a.fits_zero
  have := hfold l 0
  rwa [hzero, zero_add] at this

@[simp] theorem sum_exact (l : List ℤ) : exact.sum l = l.sum := sum_eq_norm exact l

theorem sum_of_fits {a : Arith} {l : List ℤ} (h : a.Fits l.sum) : a.sum l = l.sum := by
  rw [sum_eq_norm, norm_of_fits h]

end Arith

/-! ### Floating point -/

/-- The floating-point operations of a program, over an arbitrary carrier. -/
class FloatOps (F : Type) where
  /-- The float a literal or an integer converts to. -/
  ofRat : ℚ → F
  add : F → F → F
  mul : F → F → F
  div : F → F → F
  max : F → F → F
  ceil : F → F
  /-- The integer part, before `as i32` saturates it. -/
  toInt : F → ℤ
  lt : F → F → Bool
  le : F → F → Bool
  /-- The text of the number in JSON. -/
  text : F → String
  max_one : max (ofRat 1) (ofRat 1) = ofRat 1
  /-- Scaling a natural number by a factor of at least one gives a natural number. -/
  scaled_nonneg : ∀ (n : ℤ) (x : F), 0 ≤ n →
    0 ≤ toInt (ceil (mul (ofRat (n : ℚ)) (max x (ofRat 1))))

namespace FloatOps

/-- The float an integer converts to. -/
def ofInt {F : Type} [FloatOps F] (x : ℤ) : F := ofRat (x : ℚ)

/-- Floats read as exact rationals. -/
instance instRat : FloatOps ℚ where
  ofRat := id
  add := (· + ·)
  mul := (· * ·)
  div := (· / ·)
  max := fun a b => if a ≤ b then b else a
  ceil := fun a => (⌈a⌉ : ℤ)
  toInt := fun a => if 0 ≤ a then ⌊a⌋ else ⌈a⌉
  lt := fun a b => decide (a < b)
  le := fun a b => decide (a ≤ b)
  text := fun a => toString a.num ++ "/" ++ toString a.den
  max_one := by simp
  scaled_nonneg := by
    intro n x hn
    have hfactor : (0 : ℚ) ≤ (if x ≤ id 1 then id 1 else x) := by
      split
      · exact zero_le_one
      · rename_i h; simp only [id, not_le] at h; linarith
    have hprod : (0 : ℚ) ≤ id (n : ℚ) * (if x ≤ id 1 then id 1 else x) :=
      mul_nonneg (by simpa using hn) hfactor
    simp only [Int.floor_intCast, Int.ceil_intCast, ite_self]
    exact Int.ceil_nonneg hprod

@[simp] theorem ofRat_rat (q : ℚ) : (ofRat q : ℚ) = q := rfl

@[simp] theorem ofInt_rat (x : ℤ) : (ofInt x : ℚ) = (x : ℚ) := rfl

@[simp] theorem add_rat (p q : ℚ) : FloatOps.add p q = p + q := rfl

@[simp] theorem mul_rat (p q : ℚ) : FloatOps.mul p q = p * q := rfl

@[simp] theorem div_rat (p q : ℚ) : FloatOps.div p q = p / q := rfl

@[simp] theorem max_rat (p q : ℚ) : FloatOps.max p q = Max.max p q := by
  simp only [FloatOps.max, max_def]

@[simp] theorem toInt_ceil_rat (p : ℚ) : toInt (FloatOps.ceil p) = ⌈p⌉ := by
  simp only [toInt, FloatOps.ceil, Int.floor_intCast, Int.ceil_intCast, ite_self]

end FloatOps

end MachineNumbers
