/-
The proleptic Gregorian calendar.

A date is a year, a month and a day within the length of its month, which depends on the year in the
case of February.  The days are counted from the first of January 1970, as many as the years and the
months in between have.  Later dates have greater counts, so that a count determines its date.

Main definitions:

* `Gregorian.IsLeap`, `Gregorian.monthLength`, `Gregorian.yearLength`;
* `Gregorian.Date`, with `Date.dayCount` and `Date.Before`.

Main results:

* `Gregorian.daysToMonth_eq`, `Gregorian.daysToYear_eq` — the days before a month and before a year;
* `Gregorian.Date.dayCount_lt`, `Gregorian.Date.dayCount_injective` — counts are in the order of the
  dates, and determine them.
-/

import Mathlib.Algebra.BigOperators.Intervals
import Mathlib.Algebra.Order.BigOperators.Group.Finset
import Mathlib.Data.Int.SuccPred
import Mathlib.Tactic.IntervalCases

set_option relaxedAutoImplicit false
set_option autoImplicit false

namespace Gregorian

open Finset

/-! ### Dates -/

/-- Every fourth year is a leap year, but of the centuries only every fourth. -/
def IsLeap (year : ℤ) : Prop := year % 4 = 0 ∧ (year % 100 = 0 → year % 400 = 0)

instance (year : ℤ) : Decidable (IsLeap year) := inferInstanceAs (Decidable (_ ∧ _))

/-- The days of a month. -/
def monthLength (year month : ℤ) : ℤ :=
  if month = 2 then (if IsLeap year then 29 else 28)
  else if month = 4 ∨ month = 6 ∨ month = 9 ∨ month = 11 then 30
  else 31

/-- A date. -/
@[ext] structure Date where
  year : ℤ
  month : ℤ
  day : ℤ
  one_le_month : 1 ≤ month
  month_le : month ≤ 12
  one_le_day : 1 ≤ day
  day_le : day ≤ monthLength year month

/-- The days of a year before a month. -/
def daysToMonth (year month : ℤ) : ℤ := ∑ i ∈ range (month - 1).toNat, monthLength year (1 + i)

/-- The days of a year. -/
def yearLength (year : ℤ) : ℤ := daysToMonth year 13

/-- The days from the beginning of 1970 to the beginning of a year, which are negative for the years
before. -/
def daysToYear (year : ℤ) : ℤ :=
  ∑ i ∈ range (year - 1970).toNat, yearLength (1970 + i) -
    ∑ i ∈ range (1970 - year).toNat, yearLength (year + i)

/-- The days from the first of January 1970 to a date. -/
def Date.dayCount (date : Date) : ℤ :=
  daysToYear date.year + daysToMonth date.year date.month + (date.day - 1)

/-- A date comes before another one. -/
def Date.Before (date date' : Date) : Prop :=
  date.year < date'.year ∨ date.year = date'.year ∧
    (date.month < date'.month ∨ date.month = date'.month ∧ date.day < date'.day)

/-! ### Months and years -/

theorem monthLength_pos (year month : ℤ) : 0 < monthLength year month := by
  rw [monthLength]
  split_ifs <;> decide

theorem daysToMonth_succ (year : ℤ) {month : ℤ} (h : 1 ≤ month) :
    daysToMonth year (month + 1) = daysToMonth year month + monthLength year month := by
  have hsteps : (month + 1 - 1).toNat = (month - 1).toNat + 1 := by omega
  have hlast : 1 + ((month - 1).toNat : ℤ) = month := by omega
  rw [daysToMonth, hsteps, sum_range_succ, hlast, daysToMonth]

/-- The days before a month. -/
theorem daysToMonth_eq (year : ℤ) {month : ℤ} (h : 1 ≤ month) (hle : month ≤ 13) :
    daysToMonth year month =
      (367 * month - 362) / 12 - (if month ≤ 2 then 0 else if IsLeap year then 1 else 2) := by
  induction month, h using Int.leInduction with
  | base => rfl
  | succ month h ih =>
      have hmonth : month ≤ 12 := by omega
      rw [daysToMonth_succ year h, ih (by omega), monthLength]
      interval_cases month <;> split_ifs <;> omega

theorem yearLength_eq (year : ℤ) : yearLength year = if IsLeap year then 366 else 365 := by
  rw [yearLength, daysToMonth_eq year (by decide) (by decide)]
  split_ifs <;> omega

theorem daysToYear_succ (year : ℤ) : daysToYear (year + 1) = daysToYear year + yearLength year := by
  rw [daysToYear, daysToYear]
  rcases le_or_gt 1970 year with h | h
  · have hnone : (1970 - year).toNat = 0 := by omega
    have hnext : (1970 - (year + 1)).toNat = 0 := by omega
    have hsteps : (year + 1 - 1970).toNat = (year - 1970).toNat + 1 := by omega
    have hlast : 1970 + ((year - 1970).toNat : ℤ) = year := by omega
    rw [hnone, hnext, hsteps, sum_range_succ, hlast]
    simp only [range_zero, sum_empty, sub_zero]
  · have hnone : (year - 1970).toNat = 0 := by omega
    have hnext : (year + 1 - 1970).toNat = 0 := by omega
    have hsteps : (1970 - year).toNat = (1970 - (year + 1)).toNat + 1 := by omega
    have hshift : ∀ i : ℕ, year + 1 + i = year + (i + 1 : ℕ) := by
      intro i
      omega
    rw [hnone, hnext, hsteps, sum_range_succ']
    simp only [hshift, Nat.cast_zero, add_zero, range_zero, sum_empty]
    omega

/-- The leap years before a year. -/
def leapYears (year : ℤ) : ℤ := (year + 3) / 4 - (year + 99) / 100 + (year + 399) / 400

theorem leapYears_succ (year : ℤ) :
    leapYears (year + 1) = leapYears year + if IsLeap year then 1 else 0 := by
  have h₄ : (year + 1 + 3) / 4 = (year + 3) / 4 + if year % 4 = 0 then 1 else 0 := by
    split_ifs <;> omega
  have h₁₀₀ : (year + 1 + 99) / 100 = (year + 99) / 100 + if year % 100 = 0 then 1 else 0 := by
    split_ifs <;> omega
  have h₄₀₀ : (year + 1 + 399) / 400 = (year + 399) / 400 + if year % 400 = 0 then 1 else 0 := by
    split_ifs <;> omega
  have hcentury : year % 100 = 0 → year % 4 = 0 := by omega
  have hfourth : year % 400 = 0 → year % 100 = 0 := by omega
  rw [leapYears, leapYears, h₄, h₁₀₀, h₄₀₀]
  simp only [IsLeap]
  by_cases h4 : year % 4 = 0 <;> by_cases h100 : year % 100 = 0 <;>
    by_cases h400 : year % 400 = 0 <;> simp [h4, h100, h400] <;> omega

/-- The days before a year: one more for every leap year since the year 0. -/
theorem daysToYear_eq (year : ℤ) : daysToYear year = 365 * year + leapYears year - 719528 := by
  have hstep : ∀ y, daysToYear (y + 1) - leapYears (y + 1) = daysToYear y - leapYears y + 365 := by
    intro y
    rw [daysToYear_succ, leapYears_succ, yearLength_eq]
    split_ifs <;> omega
  induction year using Int.inductionOn' (b := 1970) with
  | zero => rfl
  | succ year h ih =>
      have hnext := hstep year
      omega
  | pred year h ih =>
      have hnext := hstep (year - 1)
      rw [sub_add_cancel] at hnext
      omega

/-! ### The order of dates -/

theorem daysToMonth_mono (year : ℤ) {month month' : ℤ} (h : month ≤ month') :
    daysToMonth year month ≤ daysToMonth year month' := by
  refine sum_le_sum_of_subset_of_nonneg (range_subset_range.2 (by omega)) ?_
  intro i _ _
  exact (monthLength_pos year _).le

theorem daysToYear_mono {year year' : ℤ} (h : year ≤ year') :
    daysToYear year ≤ daysToYear year' := by
  refine monotone_int_of_le_succ ?_ h
  intro y
  rw [daysToYear_succ, yearLength]
  have hmono := daysToMonth_mono y (show (1 : ℤ) ≤ 13 by decide)
  have hzero : daysToMonth y 1 = 0 := rfl
  omega

namespace Date

/-- A date is before the next month. -/
theorem day_lt (date : Date) :
    daysToMonth date.year date.month + (date.day - 1) <
      daysToMonth date.year (date.month + 1) := by
  rw [daysToMonth_succ _ date.one_le_month]
  have h := date.day_le
  omega

/-- A date is before the next year. -/
theorem month_lt (date : Date) :
    daysToMonth date.year date.month + (date.day - 1) < yearLength date.year := by
  have hmonth := date.month_le
  exact date.day_lt.trans_le (daysToMonth_mono date.year (by omega))

/-- A later date has a greater count. -/
theorem dayCount_lt {date date' : Date} (h : date.Before date') :
    date.dayCount < date'.dayCount := by
  rw [dayCount, dayCount]
  rcases h with hyear | ⟨hyear, hmonth | ⟨hmonth, hday⟩⟩
  · -- the count of the next year lies in between
    have hlt := date.month_lt
    have hnext := daysToYear_mono (show date.year + 1 ≤ date'.year by omega)
    rw [daysToYear_succ] at hnext
    have hday := date'.one_le_day
    have hmono := daysToMonth_mono date'.year date'.one_le_month
    have hzero : daysToMonth date'.year 1 = 0 := rfl
    omega
  · -- the count of the next month lies in between
    have hlt := date.day_lt
    have hnext := daysToMonth_mono date.year (show date.month + 1 ≤ date'.month by omega)
    have hday := date'.one_le_day
    rw [← hyear]
    omega
  · rw [← hyear, ← hmonth]
    omega

/-- Dates that are not in order are the same. -/
theorem eq_of_not_before {date date' : Date} (h : ¬ date.Before date') (h' : ¬ date'.Before date) :
    date = date' := by
  rw [Before] at h h'
  ext <;> omega

/-- A count determines its date. -/
theorem dayCount_injective : Function.Injective dayCount := by
  intro date date' h
  refine eq_of_not_before ?_ ?_
  · intro hbefore
    exact (dayCount_lt hbefore).ne h
  · intro hbefore
    exact (dayCount_lt hbefore).ne h.symm

/-- Counts are in the order of the dates. -/
theorem before_of_dayCount_lt {date date' : Date} (h : date.dayCount < date'.dayCount) :
    date.Before date' := by
  by_contra hnot
  by_cases hback : date'.Before date
  · exact absurd (dayCount_lt hback) (not_lt.2 h.le)
  · exact absurd (eq_of_not_before hnot hback ▸ h) (lt_irrefl _)

end Date

end Gregorian
