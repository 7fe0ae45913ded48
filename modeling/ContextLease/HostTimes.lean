/-
Times, as Python holds them.

The kernel writes a time as text, with a fixed width up to the year 9999.  The package puts an
offset in the place of the letter at its end and has Python read the text, which gives the date and
the time of the day that the kernel has written.

Main definitions:

* `Host.Datetime` — a time of Python, in UTC;
* `Host.Datetime.isoMilliseconds`, `Host.Datetime.text` — its texts for Python and for the kernel;
* `Host.readIso` — the time of a text with milliseconds;
* `IsTimestamp` — the texts of the kernel up to the year 9999.

Main results:

* `Host.readIso_isoMilliseconds` — a time is read from its text;
* `IsTimestamp.exists_datetime` — a text of the kernel is that of a time, for Python as well.
-/

import ContextLease.Timestamps

set_option relaxedAutoImplicit false
set_option autoImplicit false

namespace ContextLease

open FixedDigits Gregorian

namespace Host

/-! ### Times -/

/-- The source's `datetime`, in UTC. -/
@[ext] structure Datetime where
  date : Date
  hour : ℕ
  minute : ℕ
  second : ℕ
  microsecond : ℕ
  one_le_year : 1 ≤ date.year
  year_le : date.year ≤ 9999
  hour_lt : hour < 24
  minute_lt : minute < 60
  second_lt : second < 60
  microsecond_lt : microsecond < 1000000

namespace Datetime

/-- The source's `isoformat`, to the millisecond. -/
def isoMilliseconds (t : Datetime) : String :=
  String.ofList (digits 4 t.date.year.toNat ++ '-' :: (digits 2 t.date.month.toNat ++ '-' ::
    (digits 2 t.date.day.toNat ++ 'T' :: (digits 2 t.hour ++ ':' :: (digits 2 t.minute ++ ':' ::
      (digits 2 t.second ++ '.' :: (digits 3 (t.microsecond / 1000) ++ "+00:00".toList)))))))

/-- The text of a time as the kernel writes it, with the microseconds where it has some. -/
def text (t : Datetime) : String :=
  let milliseconds := stamp t.date t.hour t.minute t.second (t.microsecond / 1000)
  if t.microsecond % 1000 = 0 then milliseconds
  else String.ofList
    (milliseconds.toList.dropLast ++ digits 3 (t.microsecond % 1000) ++ ['Z'])

end Datetime

/-! ### Reading -/

/-- A number of fixed width at the front of a text, and what is behind the mark that follows. -/
def readPart (width : ℕ) (l : List Char) : ℕ × List Char :=
  (Nat.ofDigitChars 10 (l.take width) 0, l.drop (width + 1))

theorem readPart_digits {width n : ℕ} (h : n < 10 ^ width) (mark : Char) (l : List Char) :
    readPart width (digits width n ++ mark :: l) = (n, l) := by
  have hlength := length_digits width n
  rw [readPart, List.take_left' hlength, ofDigitChars_digits h, ← List.drop_drop,
    List.drop_left' hlength, List.drop_one, List.tail_cons]

/-- The time of a text with milliseconds. -/
def readIso (text : String) : Option Datetime :=
  let (year, l) := readPart 4 text.toList
  let (month, l) := readPart 2 l
  let (day, l) := readPart 2 l
  let (hour, l) := readPart 2 l
  let (minute, l) := readPart 2 l
  let (second, l) := readPart 2 l
  let (milliseconds, _) := readPart 3 l
  if h : (1 ≤ (month : ℤ) ∧ (month : ℤ) ≤ 12 ∧ 1 ≤ (day : ℤ) ∧
      (day : ℤ) ≤ monthLength year month) ∧ 1 ≤ (year : ℤ) ∧ (year : ℤ) ≤ 9999 ∧ hour < 24 ∧
      minute < 60 ∧ second < 60 ∧ milliseconds < 1000 then
    let time : Datetime :=
      ⟨⟨year, month, day, h.1.1, h.1.2.1, h.1.2.2.1, h.1.2.2.2⟩, hour, minute, second,
        milliseconds * 1000, h.2.1, h.2.2.1, h.2.2.2.1, h.2.2.2.2.1, h.2.2.2.2.2.1,
        Nat.mul_lt_mul_of_pos_right h.2.2.2.2.2.2 (by decide)⟩
    if time.isoMilliseconds = text then some time else none
  else none

/-- A time without microseconds is read from its text. -/
theorem readIso_isoMilliseconds {t : Datetime} (h : t.microsecond % 1000 = 0) :
    readIso t.isoMilliseconds = some t := by
  obtain ⟨⟨year, month, day, hmonth, hmonth', hday, hday'⟩, hour, minute, second, microsecond,
    hyear, hyear', hhour, hminute, hsecond, hmicrosecond⟩ := t
  obtain ⟨year, rfl⟩ := Int.eq_ofNat_of_zero_le (show 0 ≤ year by simp only at hyear; omega)
  obtain ⟨month, rfl⟩ := Int.eq_ofNat_of_zero_le (show 0 ≤ month by omega)
  obtain ⟨day, rfl⟩ := Int.eq_ofNat_of_zero_le (show 0 ≤ day by omega)
  simp only at hyear hyear' h
  have hlength := day_le_31 ⟨year, month, day, hmonth, hmonth', hday, hday'⟩
  simp only at hlength
  have hmilliseconds : microsecond / 1000 * 1000 = microsecond := by omega
  have hparts := readPart_digits (show microsecond / 1000 < 10 ^ 3 by omega) '+' "00:00".toList
  have hoffset : "+00:00".toList = '+' :: "00:00".toList := rfl
  rw [readIso]
  simp only [Datetime.isoMilliseconds, String.toList_ofList, Int.toNat_natCast, hoffset, hparts,
    readPart_digits (show year < 10 ^ 4 by omega), readPart_digits (show month < 10 ^ 2 by omega),
    readPart_digits (show day < 10 ^ 2 by omega), readPart_digits (show hour < 10 ^ 2 by omega),
    readPart_digits (show minute < 10 ^ 2 by omega),
    readPart_digits (show second < 10 ^ 2 by omega), hmilliseconds]
  rw [dif_pos ⟨⟨hmonth, hmonth', hday, hday'⟩, hyear, hyear', hhour, hminute, hsecond,
    by omega⟩, if_pos trivial]

end Host

/-! ### The texts of the kernel -/

/-- The text of an instant up to the year 9999. -/
def IsTimestamp (text : String) : Prop :=
  ∃ seconds milliseconds, FourDigitYear seconds ∧ milliseconds < 1000 ∧
    text = formatUtcTimestamp seconds milliseconds

/-- What becomes of a character when the letter at the end is replaced by an offset. -/
def replaceMark (c : Char) : List Char := if c = 'Z' then "+00:00".toList else [c]

/-- The source's `value.replace("Z", "+00:00")`. -/
def replaceZ (text : String) : String := String.ofList (text.toList.flatMap replaceMark)

theorem replaceMark_of_ne {c : Char} (h : c ≠ 'Z') : replaceMark c = [c] := if_neg h

/-- A numeral has no letter to replace. -/
theorem flatMap_replaceMark_digits (width n : ℕ) :
    (digits width n).flatMap replaceMark = digits width n := by
  have hkept : ∀ c ∈ digits width n, replaceMark c = [c] := by
    intro c hc
    obtain ⟨d, hd, rfl⟩ := exists_of_mem_digits hc
    have htable : ∀ d < 10, d.digitChar ≠ 'Z' := by decide
    exact replaceMark_of_ne (htable d hd)
  rw [List.flatMap_congr hkept, List.flatMap_singleton']

/-- The text of a time for the kernel becomes that for Python. -/
theorem replaceZ_text {t : Host.Datetime} (h : t.microsecond % 1000 = 0) :
    replaceZ t.text = t.isoMilliseconds := by
  have hend : replaceMark 'Z' = "+00:00".toList := rfl
  rw [Host.Datetime.text, if_pos h, replaceZ, stamp, String.toList_ofList,
    Host.Datetime.isoMilliseconds]
  simp only [List.flatMap_append, List.flatMap_cons, List.flatMap_nil,
    flatMap_replaceMark_digits, replaceMark_of_ne (show '-' ≠ 'Z' by decide),
    replaceMark_of_ne (show 'T' ≠ 'Z' by decide), replaceMark_of_ne (show ':' ≠ 'Z' by decide),
    replaceMark_of_ne (show '.' ≠ 'Z' by decide), List.singleton_append, hend, List.append_nil]

/-- A text of the kernel is the text of a time. -/
theorem IsTimestamp.exists_datetime {text : String} (h : IsTimestamp text) :
    ∃ t : Host.Datetime, t.microsecond % 1000 = 0 ∧ t.text = text := by
  obtain ⟨seconds, milliseconds, ⟨date, hdate, hyear⟩, hms, rfl⟩ := h
  have hfrom := year_of_dayCount_nonneg (hdate ▸ Int.natCast_nonneg _)
  have htime := Nat.mod_lt seconds (show 0 < 86400 by decide)
  refine ⟨⟨date, seconds % 86400 / 3600, seconds % 86400 % 3600 / 60, seconds % 86400 % 60,
    milliseconds * 1000, by omega, hyear, by omega, by omega, by omega, by omega⟩,
    Nat.mul_mod_left .., ?_⟩
  rw [Host.Datetime.text, if_pos (Nat.mul_mod_left ..), formatUtcTimestamp_eq hms hdate hyear,
    Nat.mul_div_cancel _ (by decide)]

/-- A text of the kernel has a character. -/
theorem IsTimestamp.ne_empty {text : String} (h : IsTimestamp text) : text ≠ "" := by
  obtain ⟨t, hms, rfl⟩ := h.exists_datetime
  rw [Host.Datetime.text, if_pos hms, stamp]
  intro hempty
  have hlength := congrArg (fun s => s.toList.length) hempty
  simp at hlength

end ContextLease
