/-
JSON values in Python and their texts.

A configuration reaches both sides as one JSON value, a Python dict in which each key stands once.
Python writes a value with every character outside printable ASCII escaped; the kernel writes the
same characters as they are.  How a float is written, and what the kernel's parser reads of the
number Python writes, is left open: both sides write decimals, but not by one algorithm.

Main definitions:

* `Numeral`, `HostValue`, `JsonConfig` — JSON values as Python holds them;
* `NumberTexts` — how both sides write floats, and what the kernel reads;
* `asciiEscape`, `dumps` — the source's `json.dumps(.., sort_keys=True, separators=(",", ":"))`;
* `serdeEscape`, `Value.tree` — the kernel's values as trees;
* `IsAscii` — the strings both sides write alike.

Main results:

* `agree_iff` — both sides write a string alike exactly when it is ASCII;
* `toJson_eq` — the kernel's text is the compact text of the tree.
-/

import ContextLease.Json
import ContextLease.JsonTree
import ContextLease.MachineNumbers

set_option relaxedAutoImplicit false
set_option autoImplicit false

namespace ContextLease

open MachineNumbers

variable {F : Type}

/-! ### Values -/

/-- A Python number that is no `bool`. -/
inductive Numeral (F : Type)
  | int (n : ℤ)
  | float (x : F)

/-- What `json.loads` makes of a JSON text. -/
abbrev HostValue (F : Type) := JsonTree (Numeral F)

/-- A JSON configuration: a Python dict has each key once. -/
abbrev JsonConfig (F : Type) := {v : HostValue F // v.DistinctKeys}

/-- The integers that `serde_json` keeps as integers. -/
def FitsU64OrI64 (n : ℤ) : Prop := -9223372036854775808 ≤ n ∧ n ≤ 18446744073709551615

instance (n : ℤ) : Decidable (FitsU64OrI64 n) := inferInstanceAs (Decidable (_ ∧ _))

/-- How floats are written, and what the kernel reads of the numbers Python writes.  `FloatOps.text`
is the kernel's text of a float. -/
class NumberTexts (F : Type) [FloatOps F] where
  /-- Python's text of a float, `NaN` and `Infinity` included. -/
  repr : F → String
  /-- What the kernel reads of Python's text of a float, if it accepts it. -/
  readFloat : F → Option F
  /-- What the kernel reads of an integer too large for an integer, if it accepts it. -/
  readInt : ℤ → Option F
  repr_plain : ∀ x, JsonTree.PlainNumber (repr x)
  text_plain : ∀ x : F, JsonTree.PlainNumber (FloatOps.text x)
  /-- A float is written with a point or an exponent. -/
  text_ne_int : ∀ (x : F) (n : ℤ), FloatOps.text x ≠ toString n

section Numbers

variable [FloatOps F] [NumberTexts F]

/-- A number as Python writes it. -/
def Numeral.hostText : Numeral F → String
  | .int n => toString n
  | .float x => NumberTexts.repr x

/-- A number as the kernel writes it after it has read what Python wrote. -/
def Numeral.kernelText : Numeral F → Option String
  | .int n =>
      if FitsU64OrI64 n then some (toString n)
      else (NumberTexts.readInt n).map (FloatOps.text (F := F))
  | .float x => (NumberTexts.readFloat x).map FloatOps.text

end Numbers

/-! ### Python's texts -/

/-- The source's `\uXXXX`. -/
def unicodeEscape (n : ℕ) : List Char :=
  ['\\', 'u', hexDigit (n / 4096), hexDigit (n / 256 % 16), hexDigit (n / 16 % 16),
    hexDigit (n % 16)]

/-- A character inside a string of `json.dumps`. -/
def asciiEscapeChar (c : Char) : List Char :=
  if c = '\\' then ['\\', '\\']
  else if c = '"' then ['\\', '"']
  else if c.toNat = 8 then ['\\', 'b']
  else if c.toNat = 12 then ['\\', 'f']
  else if c = '\n' then ['\\', 'n']
  else if c = '\r' then ['\\', 'r']
  else if c = '\t' then ['\\', 't']
  else if 32 ≤ c.toNat ∧ c.toNat ≤ 126 then [c]
  else if c.toNat < 65536 then unicodeEscape c.toNat
  -- a character outside the basic plane is written as its surrogates
  else
    unicodeEscape (55296 + (c.toNat - 65536) / 1024) ++
      unicodeEscape (56320 + (c.toNat - 65536) % 1024)

theorem hexDigit_plain : ∀ n < 16, hexDigit n ≠ '"' ∧ hexDigit n ≠ '\\' := by decide

theorem stringBody_plain {l : List Char} (h : ∀ c ∈ l, c ≠ '"' ∧ c ≠ '\\') :
    JsonTree.StringBody l := by
  induction l with
  | nil => exact .nil
  | cons c l ih =>
      obtain ⟨hc, hl⟩ := List.forall_mem_cons.1 h
      exact .plain hc.1 hc.2 (ih hl)

theorem stringBody_unicodeEscape {n : ℕ} (h : n < 65536) :
    JsonTree.StringBody (unicodeEscape n) := by
  refine .escaped (stringBody_plain ?_)
  simp only [List.forall_mem_cons, List.not_mem_nil, false_imp_iff, implies_true, and_true]
  exact ⟨hexDigit_plain _ (by omega), hexDigit_plain _ (by omega), hexDigit_plain _ (by omega),
    hexDigit_plain _ (by omega)⟩

theorem stringBody_ite {p : Prop} [Decidable p] {l l' : List Char}
    (h : p → JsonTree.StringBody l) (h' : ¬ p → JsonTree.StringBody l') :
    JsonTree.StringBody (if p then l else l') := by
  split
  · exact h ‹_›
  · exact h' ‹_›

/-- The escape of `json.dumps`. -/
def asciiEscape : JsonTree.Escape where
  text := asciiEscapeChar
  body := by
    intro c
    have hvalid : c.toNat < 1114112 := by
      have := c.valid
      simp only [UInt32.isValidChar, Nat.isValidChar] at this
      exact this.elim (fun h => h.trans (by norm_num)) And.right
    refine stringBody_ite (fun _ => .escaped .nil) fun hback => ?_
    refine stringBody_ite (fun _ => .escaped .nil) fun hquote => ?_
    refine stringBody_ite (fun _ => .escaped .nil) fun _ => ?_
    refine stringBody_ite (fun _ => .escaped .nil) fun _ => ?_
    refine stringBody_ite (fun _ => .escaped .nil) fun _ => ?_
    refine stringBody_ite (fun _ => .escaped .nil) fun _ => ?_
    refine stringBody_ite (fun _ => .escaped .nil) fun _ => ?_
    refine stringBody_ite (fun _ => .plain hquote hback .nil) fun _ => ?_
    refine stringBody_ite stringBody_unicodeEscape ?_
    intro _
    exact (stringBody_unicodeEscape (by omega)).append (stringBody_unicodeEscape (by omega))

/-- The source's `json.dumps(value, sort_keys=True, separators=(",", ":"))`. -/
def dumps [FloatOps F] [NumberTexts F] (value : HostValue F) : String :=
  String.ofList (JsonTree.write asciiEscape (value.sortKeys.map Numeral.hostText))

/-! ### The kernel's texts -/

/-- The escape of `serde_json`. -/
def serdeEscape : JsonTree.Escape where
  text := escapeChar
  body := by
    intro c
    refine stringBody_ite (fun _ => .escaped .nil) fun hquote => ?_
    refine stringBody_ite (fun _ => .escaped .nil) fun hback => ?_
    refine stringBody_ite (fun _ => .escaped .nil) fun _ => ?_
    refine stringBody_ite (fun _ => .escaped .nil) fun _ => ?_
    refine stringBody_ite (fun _ => .escaped .nil) fun _ => ?_
    refine stringBody_ite (fun _ => .escaped .nil) fun _ => ?_
    refine stringBody_ite (fun _ => .escaped .nil) fun _ => ?_
    refine stringBody_ite (fun _ => .escaped (stringBody_plain ?_))
      fun _ => .plain hquote hback .nil
    simp only [List.forall_mem_cons, List.not_mem_nil, false_imp_iff, implies_true, and_true]
    exact ⟨by decide, by decide, hexDigit_plain _ (by omega), hexDigit_plain _ (by omega)⟩

mutual

/-- The tree of a kernel value. -/
def Value.tree : Value → JsonTree String
  | .null => .null
  | .bool b => .bool b
  | .number text => .number text
  | .string s => .string s
  | .array items => .array (Value.itemTrees items)
  | .object entries => .object (Value.entryTrees entries)

/-- The trees of the items of an array. -/
def Value.itemTrees : List Value → List (JsonTree String)
  | [] => []
  | v :: vs => v.tree :: Value.itemTrees vs

/-- The trees of the entries of an object. -/
def Value.entryTrees : List (String × Value) → List (String × JsonTree String)
  | [] => []
  | (k, v) :: es => (k, v.tree) :: Value.entryTrees es

end

theorem Value.itemTrees_eq (items : List Value) : Value.itemTrees items = items.map Value.tree := by
  induction items with
  | nil => rfl
  | cons v vs ih => rw [Value.itemTrees, ih, List.map_cons]

theorem Value.entryTrees_eq (entries : List (String × Value)) :
    Value.entryTrees entries = entries.map fun e => (e.1, e.2.tree) := by
  induction entries with
  | nil => rfl
  | cons e es ih => rw [Value.entryTrees, ih, List.map_cons]

@[simp] theorem Value.tree_bool (b : Bool) : (Value.bool b).tree = .bool b := by rw [Value.tree]

@[simp] theorem Value.tree_number (text : String) : (Value.number text).tree = .number text := by
  rw [Value.tree]

@[simp] theorem Value.tree_string (s : String) : (Value.string s).tree = .string s := by
  rw [Value.tree]

@[simp] theorem Value.tree_array (items : List Value) :
    (Value.array items).tree = .array (items.map Value.tree) := by
  rw [Value.tree, Value.itemTrees_eq]

@[simp] theorem Value.tree_object (entries : List (String × Value)) :
    (Value.object entries).tree = .object (entries.map fun e => (e.1, e.2.tree)) := by
  rw [Value.tree, Value.entryTrees_eq]

theorem toList_quote (s : String) : (quote s).toList = serdeEscape.quote s := String.toList_ofList

mutual

/-- The kernel's text is the compact text of the tree. -/
theorem Value.toList_toJson : ∀ v : Value, v.toJson.toList = JsonTree.write serdeEscape v.tree
  | .null => rfl
  | .bool true => rfl
  | .bool false => rfl
  | .number _ => rfl
  | .string s => toList_quote s
  | .array items => by
      rw [Value.toJson, Value.tree, JsonTree.write_array, ← Value.toList_itemTexts items]
      simp [String.toList_intercalate]
  | .object entries => by
      rw [Value.toJson, Value.tree, JsonTree.write_object, ← Value.toList_entryTexts entries]
      simp [String.toList_intercalate]

theorem Value.toList_itemTexts : ∀ items : List Value,
    (Value.itemTexts items).map String.toList =
      (Value.itemTrees items).map (JsonTree.write serdeEscape)
  | [] => rfl
  | v :: vs => by
      rw [Value.itemTexts, Value.itemTrees, List.map_cons, List.map_cons, Value.toList_toJson v,
        Value.toList_itemTexts vs]

theorem Value.toList_entryTexts : ∀ entries : List (String × Value),
    (Value.entryTexts entries).map String.toList =
      (Value.entryTrees entries).map
        fun p => serdeEscape.quote p.1 ++ ':' :: JsonTree.write serdeEscape p.2
  | [] => rfl
  | (k, v) :: es => by
      rw [Value.entryTexts, Value.entryTrees, List.map_cons, List.map_cons,
        Value.toList_entryTexts es, ← Value.toList_toJson v, ← toList_quote]
      simp

end

theorem Value.toJson_eq (v : Value) :
    v.toJson = String.ofList (JsonTree.write serdeEscape v.tree) := by
  rw [← Value.toList_toJson, String.ofList_toList]

/-! ### Strings written alike -/

/-- A character that both sides write alike. -/
def IsAsciiChar (c : Char) : Prop := c.toNat ≤ 126

/-- A string that both sides write alike. -/
def IsAscii (s : String) : Prop := ∀ c ∈ s.toList, IsAsciiChar c

instance (s : String) : Decidable (IsAscii s) :=
  inferInstanceAs (Decidable (∀ c ∈ s.toList, c.toNat ≤ 126))

theorem escape_eq_of_isAsciiChar {c : Char} (h : IsAsciiChar c) :
    asciiEscape.text c = serdeEscape.text c := by
  have hall : ∀ n < 127, asciiEscapeChar (Char.ofNat n) = escapeChar (Char.ofNat n) := by
    decide +kernel
  have := hall c.toNat (Nat.lt_succ_of_le h)
  rwa [Char.ofNat_toNat] at this

/-- Any other character is escaped by Python and left alone by the kernel. -/
theorem escape_of_not_isAsciiChar {c : Char} (h : ¬ IsAsciiChar c) :
    (∃ l, asciiEscape.text c = '\\' :: l) ∧ serdeEscape.text c = [c] ∧ c ≠ '\\' := by
  have hlarge : 126 < c.toNat := not_le.1 h
  have hne : ∀ d : Char, d.toNat ≤ 126 → c ≠ d := fun d hd heq => by
    rw [heq] at hlarge
    omega
  have hback := hne '\\' (by decide)
  have hquote := hne '"' (by decide)
  have hline := hne '\n' (by decide)
  have hreturn := hne '\r' (by decide)
  have htab := hne '\t' (by decide)
  have hbell : ¬ c.toNat = 8 := by omega
  have hfeed : ¬ c.toNat = 12 := by omega
  refine ⟨?_, ?_, hback⟩
  · simp only [asciiEscape, asciiEscapeChar]
    rw [if_neg hback, if_neg hquote, if_neg hbell, if_neg hfeed,
      if_neg hline, if_neg hreturn, if_neg htab, if_neg fun h' => absurd h'.2 h]
    split <;> exact ⟨_, rfl⟩
  · simp only [serdeEscape, escapeChar]
    rw [if_neg hquote, if_neg hback, if_neg hline, if_neg hreturn, if_neg htab, if_neg hbell,
      if_neg hfeed, if_neg (by omega)]

theorem escapes_apart : JsonTree.Escape.Apart asciiEscape serdeEscape := by
  intro c l l' heq
  by_cases hc : IsAsciiChar c
  · exact escape_eq_of_isAsciiChar hc
  · obtain ⟨⟨m, hm⟩, hserde, hne⟩ := escape_of_not_isAsciiChar hc
    rw [hm, hserde] at heq
    exact absurd (List.cons.inj heq).1.symm hne

/-- Both sides write a string alike exactly when it is ASCII. -/
theorem agree_iff {s : String} : JsonTree.Escape.Agree asciiEscape serdeEscape s ↔ IsAscii s := by
  refine forall₂_congr fun c _ => ⟨fun heq => ?_, escape_eq_of_isAsciiChar⟩
  by_contra hc
  obtain ⟨⟨m, hm⟩, hserde, hne⟩ := escape_of_not_isAsciiChar hc
  rw [hm, hserde] at heq
  exact hne (List.cons.inj heq).1.symm

end ContextLease
