/-
Python with exact rationals.

The conversions of Python are left open, with what the package relies on.  For floats that are exact
rationals they are there: a number is read from its text, and a time from the fixed places of its
digits.  So there is a package that can be run.

Main definitions:

* `readExact` — the rational of a text;
* `exactReads` — the conversions of Python;
* `exampleClock` — a clock that shows another second at every look.

Main results:

* `readExact_text` — an exact rational is read from its text.
-/

import Mathlib
import ContextLease.DecimalTexts
import ContextLease.ReplyFormat

set_option relaxedAutoImplicit false
set_option autoImplicit false

namespace ContextLease

open MachineNumbers

/-- The number that the text of an exact rational stands for. -/
def readExact (text : String) : Option ℚ := do
  let num ← (String.ofList (text.toList.takeWhile (· != '/'))).toInt?
  let den ← (String.ofList ((text.toList.dropWhile (· != '/')).drop 1)).toInt?
  some (num / den)

/-- The text of an exact rational is read back. -/
theorem readExact_text (x : ℚ) : readExact (FloatOps.text x) = some x := by
  have htext : (FloatOps.text x).toList =
      (toString x.num).toList ++ '/' :: (toString x.den).toList := by
    change (toString x.num ++ "/" ++ toString x.den).toList = _
    simp [String.toList_append]
  have hnum : ∀ c ∈ (toString x.num).toList, (c != '/') = true := by
    intro c hc
    rw [bne_iff_ne]
    rintro rfl
    rcases intChar_of_mem hc with h | h <;> revert h <;> decide
  rw [readExact, htext, List.takeWhile_append_of_pos hnum, List.dropWhile_append_of_pos hnum,
    List.takeWhile_cons_of_neg (by simp), List.dropWhile_cons_of_neg (by simp), List.append_nil,
    List.drop_one, List.tail_cons, String.ofList_toList, String.ofList_toList]
  change (do
    let num ← (toString x.num).toInt?
    let den ← (toString x.den).toInt?
    some ((num : ℚ) / den)) = _
  rw [Int.toString_eq_repr, Nat.toString_eq_repr, Int.toInt?_repr, Nat.toInt?_repr]
  exact congrArg some (by exact_mod_cast x.num_div_den)

/-- The conversions of Python, for exact rationals. -/
def exactReads : PythonReads ℚ where
  str
    | .string s => s
    | value => value.toJson
  int
    | .number text => (text.toInt?).elim (.error (.other text)) .ok
    | value => .error (.other value.toJson)
  float
    | .number text => (readExact text).elim (.error (.other text)) .ok
    | value => .error (.other value.toJson)
  bool
    | .null => false
    | .bool b => b
    | .number text => readExact text != some 0
    | .string s => s != ""
    | .array items => !items.isEmpty
    | .object entries => !entries.isEmpty
  items
    | .array items => .ok items
    | value => .error (.other value.toJson)
  dict
    | .object entries => .ok entries
    | value => .error (.other value.toJson)
  fromisoformat := Host.readIso
  str_string _ := rfl
  int_ofInt n := by
    change ((toString n).toInt?).elim _ Except.ok = _
    rw [Int.toString_eq_repr, Int.toInt?_repr, Option.elim_some]
  float_ofFloat x := by
    change (readExact (FloatOps.text x)).elim _ Except.ok = _
    rw [readExact_text, Option.elim_some]
  bool_bool _ := rfl
  bool_null := rfl
  bool_string _ := rfl
  bool_object _ _ := rfl
  items_array _ := rfl
  dict_object _ := rfl
  fromisoformat_isoMilliseconds _ := Host.readIso_isoMilliseconds

/-- A clock that shows another second at every look. -/
def exampleClock (n : ℕ) : Host.Datetime where
  date := ⟨2000, 1, 1, by decide, by decide, by decide, by decide⟩
  hour := 0
  minute := 0
  second := n % 60
  microsecond := 500
  one_le_year := by decide
  year_le := by decide
  hour_lt := by decide
  minute_lt := by decide
  second_lt := Nat.mod_lt n (by decide)
  microsecond_lt := by decide

end ContextLease
