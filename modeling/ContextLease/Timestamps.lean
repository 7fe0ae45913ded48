/-
Timestamps.

A timestamp is written from the seconds since 1970: the days are converted to a date of the
Gregorian calendar with years that begin in March, in eras of four hundred years, and the rest of
the seconds is the time of the day.  Up to the year 9999 the text has a fixed width, so that later
timestamps are greater texts.

Main definitions:

* `civilDate`, `formatUtcTimestamp` — the conversion, and the text;
* `stamp` — the text of a date and a time of the day;
* `FourDigitYear` — the seconds up to the year 9999.

Main results:

* `civilDate_eq` — the conversion gives the date of a day;
* `stamp_lt_of_before`, `stamp_lt_of_time` — the order of the texts;
* `timestamp_correct` — a timestamp tells its date and time, and is in the order of the instants.
-/

import ContextLease.FixedDigits
import ContextLease.Gregorian

set_option relaxedAutoImplicit false
set_option autoImplicit false

namespace ContextLease

open FixedDigits Gregorian

/-- The year, the month and the day of a day since 1970-01-01, as the source computes them.  None of
the dividends is negative, so that it does not matter how a division rounds. -/
def civilDate (days : ℤ) : ℤ × ℤ × ℤ :=
  let z := days + 719468
  let era := z / 146097
  let dayOfEra := z - era * 146097
  let yearOfEra := (dayOfEra - dayOfEra / 1460 + dayOfEra / 36524 - dayOfEra / 146096) / 365
  let year := yearOfEra + era * 400
  let dayOfYear := dayOfEra - (365 * yearOfEra + yearOfEra / 4 - yearOfEra / 100)
  let monthPrime := (5 * dayOfYear + 2) / 153
  let day := dayOfYear - (153 * monthPrime + 2) / 5 + 1
  let month := monthPrime + if monthPrime < 10 then 3 else -9
  (if month ≤ 2 then year + 1 else year, month, day)

/-- An integer as the source formats it, with zeros up to a width and after the sign. -/
def zeroPadded (width : ℕ) (n : ℤ) : List Char :=
  if n < 0 then '-' :: padded (width - 1) n.natAbs else padded width n.natAbs

/-- The source's `format_utc_timestamp`. -/
def formatUtcTimestamp (unixSeconds milliseconds : ℕ) : String :=
  let days : ℕ := unixSeconds / 86400
  let secondsInDay := unixSeconds % 86400
  let hour := secondsInDay / 3600
  let minute := secondsInDay % 3600 / 60
  let second := secondsInDay % 60
  let (year, month, day) := civilDate days
  String.ofList (zeroPadded 4 year ++ '-' :: (zeroPadded 2 month ++ '-' :: (zeroPadded 2 day ++
    'T' :: (padded 2 hour ++ ':' :: (padded 2 minute ++ ':' :: (padded 2 second ++
      '.' :: (padded 3 milliseconds ++ ['Z'])))))))

example : formatUtcTimestamp 946684800 123 = "2000-01-01T00:00:00.123Z" := by decide

/-- The text of a date and a time of the day, with a fixed width for each part. -/
def stamp (date : Date) (hour minute second milliseconds : ℕ) : String :=
  String.ofList (digits 4 date.year.toNat ++ '-' :: (digits 2 date.month.toNat ++ '-' ::
    (digits 2 date.day.toNat ++ 'T' :: (digits 2 hour ++ ':' :: (digits 2 minute ++ ':' ::
      (digits 2 second ++ '.' :: (digits 3 milliseconds ++ ['Z'])))))))

/-- The seconds up to the year 9999. -/
def FourDigitYear (unixSeconds : ℕ) : Prop :=
  ∃ date : Date, date.dayCount = (unixSeconds / 86400 : ℕ) ∧ date.year ≤ 9999

/-! ### Years of an era -/

/-- The days from the first of March of the year 0 to that of another year. -/
def marchDays (year : ℕ) : ℕ := 365 * year + year / 4 - year / 100 + year / 400

/-- What the source divides by 365: the day of an era without its leap days. -/
def withoutLeapDays (dayOfEra : ℕ) : ℕ :=
  dayOfEra - dayOfEra / 1460 + dayOfEra / 36524 - dayOfEra / 146096

theorem withoutLeapDays_mono : Monotone withoutLeapDays := by
  refine monotone_nat_of_le_succ ?_
  intro n
  have hquarter : ∀ m : ℕ, m / 146096 = m / 36524 / 4 := by
    intro m
    omega
  rw [withoutLeapDays, withoutLeapDays, hquarter, hquarter]
  omega

/-- The first and the last day of a year of an era. -/
theorem withoutLeapDays_bounds : ∀ year < 400, 365 * year ≤ withoutLeapDays (marchDays year) ∧
    withoutLeapDays (marchDays (year + 1) - 1) < 365 * (year + 1) := by
  decide +kernel

/-- A number below the last of some numbers is between two of them. -/
theorem exists_between {f : ℕ → ℕ} {x : ℕ} (h : f 0 ≤ x) {n : ℕ} (hx : x < f n) :
    ∃ k < n, f k ≤ x ∧ x < f (k + 1) := by
  induction n with
  | zero => exact absurd h (not_le.2 hx)
  | succ n ih =>
      rcases Nat.lt_or_ge x (f n) with hlt | hge
      · obtain ⟨k, hk, hbetween⟩ := ih hlt
        exact ⟨k, Nat.lt_succ_of_lt hk, hbetween⟩
      · exact ⟨n, Nat.lt_succ_self n, hge, hx⟩

/-- The year of a day of an era. -/
theorem yearOfEra_eq {dayOfEra : ℕ} (h : dayOfEra < 146097) :
    ∃ year < 400, withoutLeapDays dayOfEra / 365 = year ∧ marchDays year ≤ dayOfEra ∧
      dayOfEra < marchDays (year + 1) := by
  obtain ⟨year, hyear, hle, hlt⟩ := exists_between (f := marchDays) (Nat.zero_le dayOfEra)
    (show dayOfEra < marchDays 400 from h)
  obtain ⟨hfirst, hlast⟩ := withoutLeapDays_bounds year hyear
  have hlow := withoutLeapDays_mono hle
  have hhigh := withoutLeapDays_mono (show dayOfEra ≤ marchDays (year + 1) - 1 by omega)
  exact ⟨year, hyear, by omega, hle, hlt⟩

/-! ### The date of a day -/

/-- The first of March of a year. -/
theorem march_dayCount (year : ℤ) : daysToYear year + daysToMonth year 3 =
    365 * year + year / 4 - year / 100 + year / 400 - 719468 := by
  have hleap := leapYears_succ year
  rw [leapYears] at hleap
  rw [daysToYear_eq, daysToMonth_eq year (by decide) (by decide), if_neg (by decide)]
  split_ifs at hleap ⊢ <;> omega

/-- The days of a year that begins in March. -/
theorem march_yearLength (year : ℤ) :
    daysToYear (year + 1) + daysToMonth (year + 1) 3 - (daysToYear year + daysToMonth year 3) =
      if IsLeap (year + 1) then 366 else 365 := by
  have hthree : ¬ (3 : ℤ) ≤ 2 := by decide
  rw [daysToYear_succ, yearLength_eq, daysToMonth_eq _ (by decide) (by decide),
    daysToMonth_eq _ (by decide) (by decide), if_neg hthree, if_neg hthree]
  split_ifs <;> omega

/-- The year, the month and the day of a day of a year that begins in March. -/
def fromMarch (year dayOfYear : ℤ) : ℤ × ℤ × ℤ :=
  let monthPrime := (5 * dayOfYear + 2) / 153
  let day := dayOfYear - (153 * monthPrime + 2) / 5 + 1
  let month := monthPrime + if monthPrime < 10 then 3 else -9
  (if month ≤ 2 then year + 1 else year, month, day)

theorem fromMarch_eq (year : ℤ) {dayOfYear : ℤ} (h : 0 ≤ dayOfYear)
    (hlt : dayOfYear < if IsLeap (year + 1) then 366 else 365) :
    ∃ date : Date, date.dayCount = daysToYear year + daysToMonth year 3 + dayOfYear ∧
      fromMarch year dayOfYear = (date.year, date.month, date.day) := by
  have hday : dayOfYear ≤ 365 := by split_ifs at hlt <;> omega
  obtain ⟨m, hm⟩ : ∃ m, m = (5 * dayOfYear + 2) / 153 := ⟨_, rfl⟩
  rw [fromMarch, ← hm]
  have hfirst : (153 * m + 2) / 5 ≤ dayOfYear := by omega
  have hnext : dayOfYear < (153 * (m + 1) + 2) / 5 := by omega
  have hpos : 0 ≤ m := by omega
  have hmonth : m ≤ 11 := by omega
  rcases lt_or_ge m 10 with hten | hten
  · -- March to December
    have hlength : (153 * (m + 1) + 2) / 5 - (153 * m + 2) / 5 = monthLength year (m + 3) := by
      interval_cases m <;> rfl
    have hcount : daysToMonth year (m + 3) = daysToMonth year 3 + (153 * m + 2) / 5 := by
      rw [daysToMonth_eq year (by omega) (by omega), daysToMonth_eq year (by decide) (by decide)]
      interval_cases m <;> split_ifs <;> omega
    refine ⟨⟨year, m + 3, dayOfYear - (153 * m + 2) / 5 + 1, by omega, by omega, by omega,
      by omega⟩, ?_, ?_⟩
    · change daysToYear year + daysToMonth year (m + 3) +
        (dayOfYear - (153 * m + 2) / 5 + 1 - 1) = _
      rw [hcount]
      omega
    · rw [if_pos hten, if_neg (show ¬ m + 3 ≤ 2 by omega)]
  · -- January and February of the next year
    have hcount : daysToMonth year 3 + (153 * m + 2) / 5 =
        yearLength year + daysToMonth (year + 1) (m + -9) := by
      rw [yearLength_eq, daysToMonth_eq (year + 1) (by omega) (by omega),
        daysToMonth_eq year (by decide) (by decide)]
      interval_cases m <;> split_ifs <;> omega
    have hlast : dayOfYear - (153 * m + 2) / 5 + 1 ≤ monthLength (year + 1) (m + -9) := by
      rw [monthLength]
      interval_cases m <;> split_ifs at hlt ⊢ <;> omega
    refine ⟨⟨year + 1, m + -9, dayOfYear - (153 * m + 2) / 5 + 1, by omega, by omega, by omega,
      hlast⟩, ?_, ?_⟩
    · change daysToYear (year + 1) + daysToMonth (year + 1) (m + -9) +
        (dayOfYear - (153 * m + 2) / 5 + 1 - 1) = _
      rw [daysToYear_succ]
      omega
    · rw [if_neg (not_lt.2 hten), if_pos (show m + -9 ≤ 2 by omega)]

/-- The first of March of a year of an era. -/
theorem march_dayCount_era (era : ℤ) (year : ℕ) :
    daysToYear (year + era * 400) + daysToMonth (year + era * 400) 3 =
      marchDays year + era * 146097 - 719468 := by
  have h₄ : (year + era * 400) / 4 = year / 4 + era * 100 := by omega
  have h₁₀₀ : (year + era * 400) / 100 = year / 100 + era * 4 := by omega
  have h₄₀₀ : (year + era * 400) / 400 = year / 400 + era := by omega
  rw [march_dayCount, h₄, h₁₀₀, h₄₀₀, marchDays]
  omega

/-- The conversion gives the date of a day. -/
theorem civilDate_eq (days : ℤ) : ∃ date : Date, date.dayCount = days ∧
    civilDate days = (date.year, date.month, date.day) := by
  obtain ⟨era, hera⟩ : ∃ era, era = (days + 719468) / 146097 := ⟨_, rfl⟩
  obtain ⟨n, hn⟩ : ∃ n : ℕ, days + 719468 - era * 146097 = n :=
    Int.eq_ofNat_of_zero_le (by omega)
  obtain ⟨y, hy, hyear, hfirst, hnext⟩ := yearOfEra_eq (show n < 146097 by omega)
  have hyearOfEra : ((n : ℤ) - n / 1460 + n / 36524 - n / 146096) / 365 = y := by
    rw [withoutLeapDays] at hyear
    omega
  have hmarch : (marchDays y : ℤ) = 365 * y + y / 4 - y / 100 := by
    rw [marchDays]
    omega
  have hlow := march_dayCount_era era y
  have hlength := march_yearLength (y + era * 400)
  rw [hlow, add_right_comm, ← Nat.cast_succ, march_dayCount_era era (y + 1)] at hlength
  rw [Nat.cast_succ, add_right_comm] at hlength
  obtain ⟨date, hcount, hdate⟩ := fromMarch_eq (y + era * 400)
    (show (0 : ℤ) ≤ n - marchDays y by omega) (by rw [← hlength]; omega)
  refine ⟨date, by omega, ?_⟩
  rw [← hdate, civilDate]
  simp only [← hera, hn, hyearOfEra, ← hmarch]
  rfl

/-! ### The text -/

theorem zeroPadded_eq {width : ℕ} (hwidth : 0 < width) {n : ℤ} (h : 0 ≤ n)
    (hlt : n.toNat < 10 ^ width) : zeroPadded width n = digits width n.toNat := by
  obtain ⟨n, rfl⟩ := Int.eq_ofNat_of_zero_le h
  rw [zeroPadded, if_neg (not_lt.2 h)]
  exact padded_eq_digits hlt hwidth

/-- A date from the first of January 1970 on is in the year 1970 or later. -/
theorem year_of_dayCount_nonneg {date : Date} (h : 0 ≤ date.dayCount) : 1970 ≤ date.year := by
  by_contra hbefore
  have hlt : date.Before ⟨1970, 1, 1, by decide, by decide, by decide, by decide⟩ :=
    Or.inl (not_le.1 hbefore)
  exact absurd (Date.dayCount_lt hlt) (not_lt.2 h)

theorem day_le_31 (date : Date) : date.day ≤ 31 := by
  have h := date.day_le
  rw [monthLength] at h
  split_ifs at h <;> omega

/-- A timestamp up to the year 9999 is the text of its date and time of the day. -/
theorem formatUtcTimestamp_eq {unixSeconds milliseconds : ℕ} (hms : milliseconds < 1000)
    {date : Date} (hdate : date.dayCount = (unixSeconds / 86400 : ℕ)) (hyear : date.year ≤ 9999) :
    formatUtcTimestamp unixSeconds milliseconds =
      stamp date (unixSeconds % 86400 / 3600) (unixSeconds % 86400 % 3600 / 60)
        (unixSeconds % 86400 % 60) milliseconds := by
  obtain ⟨date', hcount, hcivil⟩ := civilDate_eq (unixSeconds / 86400 : ℕ)
  obtain rfl := Date.dayCount_injective (hcount.trans hdate.symm)
  have hfrom := year_of_dayCount_nonneg (hdate ▸ Int.natCast_nonneg _)
  have hmonth := date'.one_le_month
  have hmonth' := date'.month_le
  have hday := date'.one_le_day
  have hday' := day_le_31 date'
  have htime := Nat.mod_lt unixSeconds (show 0 < 86400 by decide)
  rw [formatUtcTimestamp, hcivil]
  simp only
  rw [stamp, zeroPadded_eq (by decide) (show 0 ≤ date'.year by omega) (by omega),
    zeroPadded_eq (by decide) (show 0 ≤ date'.month by omega) (by omega),
    zeroPadded_eq (by decide) (show 0 ≤ date'.day by omega) (by omega),
    padded_eq_digits (show unixSeconds % 86400 / 3600 < 10 ^ 2 by omega) (by decide),
    padded_eq_digits (show unixSeconds % 86400 % 3600 / 60 < 10 ^ 2 by omega) (by decide),
    padded_eq_digits (show unixSeconds % 86400 % 60 < 10 ^ 2 by omega) (by decide),
    padded_eq_digits hms (by decide)]

/-! ### The order of the texts -/

/-- The texts are in the order of their dates. -/
theorem stamp_lt_of_before {date date' : Date} (h : date.Before date') (hfrom : 0 ≤ date.year)
    (hyear : date'.year ≤ 9999) (h₁ m₁ s₁ ms₁ h₂ m₂ s₂ ms₂ : ℕ) :
    (stamp date h₁ m₁ s₁ ms₁).toList < (stamp date' h₂ m₂ s₂ ms₂).toList := by
  have hmonth := date'.month_le
  have hday := day_le_31 date'
  have hfirst := date.one_le_month
  have hfirst' := date.one_le_day
  rw [stamp, stamp, String.toList_ofList, String.toList_ofList]
  rcases h with h | ⟨heq, h | ⟨hmonths, h⟩⟩
  · exact digits_cons_lt (by omega) '-' (Or.inl (by omega))
  · rw [heq]
    exact digits_cons_lt (by omega) '-' (Or.inr ⟨rfl, digits_cons_lt (by omega) '-'
      (Or.inl (by omega))⟩)
  · rw [heq, hmonths]
    exact digits_cons_lt (by omega) '-' (Or.inr ⟨rfl, digits_cons_lt (by omega) '-'
      (Or.inr ⟨rfl, digits_cons_lt (by omega) 'T' (Or.inl (by omega))⟩)⟩)

/-- The texts of one date are in the order of the times of the day. -/
theorem stamp_lt_of_time {date : Date} (hyear : date.year ≤ 9999) {s₁ ms₁ s₂ ms₂ : ℕ}
    (h : s₁ < s₂ ∨ s₁ = s₂ ∧ ms₁ < ms₂) (hs : s₂ < 86400) (hms : ms₂ < 1000) :
    (stamp date (s₁ / 3600) (s₁ % 3600 / 60) (s₁ % 60) ms₁).toList <
      (stamp date (s₂ / 3600) (s₂ % 3600 / 60) (s₂ % 60) ms₂).toList := by
  have hmonth := date.month_le
  have hday := day_le_31 date
  have hparts : s₁ / 3600 < s₂ / 3600 ∨ s₁ / 3600 = s₂ / 3600 ∧
      (s₁ % 3600 / 60 < s₂ % 3600 / 60 ∨ s₁ % 3600 / 60 = s₂ % 3600 / 60 ∧
        (s₁ % 60 < s₂ % 60 ∨ s₁ % 60 = s₂ % 60 ∧ ms₁ < ms₂)) := by
    omega
  rw [stamp, stamp, String.toList_ofList, String.toList_ofList]
  refine digits_cons_lt (by omega) '-' (Or.inr ⟨rfl, digits_cons_lt (by omega) '-'
    (Or.inr ⟨rfl, digits_cons_lt (by omega) 'T' (Or.inr ⟨rfl, ?_⟩)⟩)⟩)
  refine digits_cons_lt (by omega) ':' (hparts.imp_right (And.imp_right ?_))
  intro hparts
  refine digits_cons_lt (by omega) ':' (hparts.imp_right (And.imp_right ?_))
  intro hparts
  refine digits_cons_lt (by omega) '.' (hparts.imp_right (And.imp_right ?_))
  intro hlt
  exact digits_cons_lt hms 'Z' (Or.inl hlt)

/-- Later instants up to the year 9999 have greater texts. -/
theorem formatUtcTimestamp_lt {seconds ms seconds' ms' : ℕ} (hyear : FourDigitYear seconds)
    (hms : ms < 1000) (hyear' : FourDigitYear seconds') (hms' : ms' < 1000)
    (h : seconds < seconds' ∨ seconds = seconds' ∧ ms < ms') :
    (formatUtcTimestamp seconds ms).toList < (formatUtcTimestamp seconds' ms').toList := by
  obtain ⟨date, hdate, hnine⟩ := hyear
  obtain ⟨date', hdate', hnine'⟩ := hyear'
  rw [formatUtcTimestamp_eq hms hdate hnine, formatUtcTimestamp_eq hms' hdate' hnine']
  have hfrom := year_of_dayCount_nonneg (hdate ▸ Int.natCast_nonneg _)
  rcases Nat.lt_or_ge (seconds / 86400) (seconds' / 86400) with hlt | hge
  · have hbefore : date.Before date' := Date.before_of_dayCount_lt (by omega)
    exact stamp_lt_of_before hbefore (by omega) hnine' _ _ _ _ _ _ _ _
  · -- the same day
    have hday : seconds / 86400 = seconds' / 86400 := by omega
    obtain rfl : date = date' :=
      Date.dayCount_injective (hdate.trans ((congrArg Nat.cast hday).trans hdate'.symm))
    exact stamp_lt_of_time hnine (by omega) (Nat.mod_lt _ (by decide)) hms'

/-- A timestamp up to the year 9999 is the text of the only date of its day and of its time of the
day, and later instants have greater texts. -/
theorem timestamp_correct {unixSeconds milliseconds : ℕ} (hyear : FourDigitYear unixSeconds)
    (hms : milliseconds < 1000) :
    (∃ date : Date, date.dayCount = (unixSeconds / 86400 : ℕ) ∧
      (∀ other : Date, other.dayCount = (unixSeconds / 86400 : ℕ) → other = date) ∧
      ∃ hour minute second, hour < 24 ∧ minute < 60 ∧ second < 60 ∧
        hour * 3600 + minute * 60 + second = unixSeconds % 86400 ∧
        formatUtcTimestamp unixSeconds milliseconds =
          stamp date hour minute second milliseconds) ∧
      ∀ seconds' ms', FourDigitYear seconds' → ms' < 1000 →
        (unixSeconds < seconds' ∨ unixSeconds = seconds' ∧ milliseconds < ms') →
          (formatUtcTimestamp unixSeconds milliseconds).toList <
            (formatUtcTimestamp seconds' ms').toList := by
  constructor
  · obtain ⟨date, hdate, hnine⟩ := id hyear
    have htime := Nat.mod_lt unixSeconds (show 0 < 86400 by decide)
    refine ⟨date, hdate, fun other hother => Date.dayCount_injective (hother.trans hdate.symm),
      unixSeconds % 86400 / 3600, unixSeconds % 86400 % 3600 / 60, unixSeconds % 86400 % 60,
      by omega, by omega, by omega, by omega, formatUtcTimestamp_eq hms hdate hnine⟩
  · intro seconds' ms' hyear' hms' hlater
    exact formatUtcTimestamp_lt hyear hms hyear' hms' hlater

/-- The last millisecond of a leap day. -/
theorem timestamp_correct_example :
    (∃ date : Date, date.dayCount = (951868799 / 86400 : ℕ) ∧
      (∀ other : Date, other.dayCount = (951868799 / 86400 : ℕ) → other = date) ∧
      ∃ hour minute second, hour < 24 ∧ minute < 60 ∧ second < 60 ∧
        hour * 3600 + minute * 60 + second = 951868799 % 86400 ∧
        formatUtcTimestamp 951868799 999 = stamp date hour minute second 999) ∧
      ∀ seconds' ms', FourDigitYear seconds' → ms' < 1000 →
        (951868799 < seconds' ∨ 951868799 = seconds' ∧ 999 < ms') →
          (formatUtcTimestamp 951868799 999).toList <
            (formatUtcTimestamp seconds' ms').toList :=
  timestamp_correct ⟨⟨2000, 2, 29, by decide, by decide, by decide, by decide⟩, by decide +kernel,
    by decide⟩ (by decide)

end ContextLease
