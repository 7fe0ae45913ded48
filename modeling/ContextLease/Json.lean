/-
JSON values and their compact text.

The kernel keeps chunk contents, options, metadata and event payloads as `serde_json::Value`.
Objects are kept in key order, and a number is kept as its text, since the kernel never computes
with one.  `Value.toJson` is `serde_json::to_string`, and `render` is the kernel's own rendering of
a chunk content, which leaves a string as it is.

Main definitions:

* `Value`, `Value.toJson` — JSON values and their text;
* `BTreeMap`, `BTreeMap.get`, `BTreeMap.insert` — maps in key order;
* `render` — the text a chunk content contributes to a prompt.
-/

import Mathlib.Data.String.Basic

set_option relaxedAutoImplicit false
set_option autoImplicit false

namespace ContextLease

/-- A `serde_json::Value`. -/
inductive Value
  | null
  | bool (b : Bool)
  | number (text : String)
  | string (s : String)
  | array (items : List Value)
  | object (entries : List (String × Value))

/-! ### Maps in key order -/

/-- A `BTreeMap<String, V>`: its entries in key order. -/
abbrev BTreeMap (V : Type) := List (String × V)

namespace BTreeMap

variable {V : Type}

/-- The source's `get`. -/
def get (m : BTreeMap V) (key : String) : Option V := m.lookup key

/-- The source's `insert`. -/
def insert (m : BTreeMap V) (key : String) (value : V) : BTreeMap V :=
  match m with
  | [] => [(key, value)]
  | (k, v) :: rest =>
      if key < k then (key, value) :: (k, v) :: rest
      else if key = k then (key, value) :: rest
      else (k, v) :: insert rest key value

/-- The source's `BTreeMap::from`. -/
def ofList (entries : List (String × V)) : BTreeMap V :=
  entries.foldl (fun m e => insert m e.1 e.2) []

@[simp] theorem get_insert_self (m : BTreeMap V) (key : String) (value : V) :
    (insert m key value).get key = some value := by
  induction m with
  | nil => simp [insert, get]
  | cons e rest ih =>
      obtain ⟨k, v⟩ := e
      rw [insert]
      split
      · simp [get]
      · split
        · simp [get]
        · rename_i hne
          rw [get, List.lookup_cons, beq_false_of_ne hne]
          exact ih

theorem get_insert_of_ne (m : BTreeMap V) {key key' : String} (value : V) (h : key' ≠ key) :
    (insert m key value).get key' = m.get key' := by
  induction m with
  | nil => rw [insert, get, List.lookup_cons, beq_false_of_ne h]; rfl
  | cons e rest ih =>
      obtain ⟨k, v⟩ := e
      rw [insert]
      split
      · rw [get, List.lookup_cons, beq_false_of_ne h]
        rfl
      · split
        · rename_i heq
          rw [get, List.lookup_cons, beq_false_of_ne h, get, List.lookup_cons, ← heq,
            beq_false_of_ne h]
        · rw [get, List.lookup_cons, get, List.lookup_cons]
          cases key' == k
          · exact ih
          · rfl

/-- A new key adds one entry. -/
theorem insert_perm {m : BTreeMap V} {key : String} (h : key ∉ m.map Prod.fst) (value : V) :
    (insert m key value).Perm ((key, value) :: m) := by
  induction m with
  | nil => exact List.Perm.refl _
  | cons e rest ih =>
      obtain ⟨k, v⟩ := e
      rw [List.map_cons, List.mem_cons, not_or] at h
      rw [insert]
      split
      · exact List.Perm.refl _
      · rw [if_neg h.1]
        exact ((ih h.2).cons (k, v)).trans (List.Perm.swap ..)

theorem foldl_insert_perm {entries m : List (String × V)}
    (h : ((m ++ entries).map Prod.fst).Nodup) :
    (entries.foldl (fun m e => insert m e.1 e.2) m).Perm (m ++ entries) := by
  induction entries generalizing m with
  | nil =>
      rw [List.append_nil]
      exact List.Perm.refl m
  | cons e entries ih =>
      have hmiddle : (m ++ e :: entries).Perm (e :: (m ++ entries)) := List.perm_middle
      have hkeys := ((hmiddle.map Prod.fst).nodup_iff).1 h
      rw [List.map_cons, List.nodup_cons, List.map_append, List.mem_append, not_or] at hkeys
      have hstep : (insert m e.1 e.2 ++ entries).Perm (m ++ e :: entries) :=
        ((insert_perm hkeys.1.1 e.2).append_right entries).trans hmiddle.symm
      exact (ih (((hstep.map Prod.fst).nodup_iff).2 h)).trans hstep

/-- A map of distinct keys has the entries it is made of. -/
theorem ofList_perm {entries : List (String × V)} (h : (entries.map Prod.fst).Nodup) :
    (ofList entries).Perm entries := foldl_insert_perm h

theorem mem_insert {m : BTreeMap V} {key : String} {value : V} {e : String × V}
    (h : e ∈ insert m key value) : e = (key, value) ∨ e ∈ m := by
  induction m with
  | nil => exact Or.inl (List.mem_singleton.1 h)
  | cons e' rest ih =>
      obtain ⟨k, v⟩ := e'
      rw [insert] at h
      split at h
      · exact List.mem_cons.1 h
      · split at h
        · exact (List.mem_cons.1 h).imp id (List.mem_cons_of_mem _)
        · rcases List.mem_cons.1 h with heq | h
          · exact Or.inr (heq ▸ List.mem_cons_self ..)
          · exact (ih h).imp id (List.mem_cons_of_mem _)

/-- Inserting keeps the key order. -/
theorem insert_sorted {m : BTreeMap V} (h : m.Pairwise fun e e' => e.1 < e'.1) (key : String)
    (value : V) : (insert m key value).Pairwise fun e e' => e.1 < e'.1 := by
  induction m with
  | nil => exact List.pairwise_singleton _ _
  | cons e rest ih =>
      obtain ⟨k, v⟩ := e
      have hrest := List.pairwise_cons.1 h
      rw [insert]
      split
      · rename_i hlt
        refine List.pairwise_cons.2 ⟨fun e he => ?_, h⟩
        rcases List.mem_cons.1 he with rfl | he
        · exact hlt
        · exact hlt.trans (hrest.1 e he)
      · split
        · rename_i heq
          exact List.pairwise_cons.2 ⟨fun e he => heq ▸ hrest.1 e he, hrest.2⟩
        · rename_i hle hne
          refine List.pairwise_cons.2 ⟨fun e he => ?_, ih hrest.2⟩
          rcases mem_insert he with rfl | he
          · exact lt_of_le_of_ne (not_lt.1 hle) (Ne.symm hne)
          · exact hrest.1 e he

theorem ofList_induction {motive : BTreeMap V → Prop} {entries : List (String × V)}
    (hempty : motive []) (hinsert : ∀ m, ∀ e ∈ entries, motive m → motive (insert m e.1 e.2)) :
    motive (ofList entries) := by
  suffices hfold : ∀ (l : List (String × V)) (m : BTreeMap V), (∀ e ∈ l, e ∈ entries) →
      motive m → motive (l.foldl (fun m e => insert m e.1 e.2) m) from
    hfold entries [] (fun _ he => he) hempty
  intro l
  induction l with
  | nil => exact fun m _ hm => hm
  | cons e l ih =>
      exact fun m hl hm => ih _ (fun e he => hl e (List.mem_cons_of_mem _ he))
        (hinsert m e (hl e (List.mem_cons_self ..)) hm)

/-- A map is in key order. -/
theorem ofList_sorted (entries : List (String × V)) :
    (ofList entries).Pairwise fun e e' => e.1 < e'.1 :=
  ofList_induction List.Pairwise.nil fun _ e _ hm => insert_sorted hm e.1 e.2

/-- A map has no entries but those it is made of. -/
theorem mem_of_mem_ofList {entries : List (String × V)} {e : String × V}
    (h : e ∈ ofList entries) : e ∈ entries := by
  have hall : ∀ e ∈ ofList entries, e ∈ entries :=
    ofList_induction (motive := fun m => ∀ e ∈ m, e ∈ entries) (fun e he => by cases he)
      fun m e he hm e' he' => (mem_insert he').elim (fun heq => heq ▸ he) (hm e')
  exact hall e h

end BTreeMap

/-! ### Text -/

/-- A hexadecimal digit. -/
def hexDigit (n : ℕ) : Char := if n < 10 then Char.ofNat (48 + n) else Char.ofNat (87 + n)

/-- A character inside a JSON string. -/
def escapeChar (c : Char) : List Char :=
  if c = '"' then ['\\', '"']
  else if c = '\\' then ['\\', '\\']
  else if c = '\n' then ['\\', 'n']
  else if c = '\r' then ['\\', 'r']
  else if c = '\t' then ['\\', 't']
  else if c.toNat = 8 then ['\\', 'b']
  else if c.toNat = 12 then ['\\', 'f']
  else if c.toNat < 32 then
    ['\\', 'u', '0', '0', hexDigit (c.toNat / 16), hexDigit (c.toNat % 16)]
  else [c]

/-- A JSON string. -/
def quote (s : String) : String := String.ofList ('"' :: s.toList.flatMap escapeChar ++ ['"'])

mutual

/-- The source's `serde_json::to_string`. -/
def Value.toJson : Value → String
  | .null => "null"
  | .bool b => if b then "true" else "false"
  | .number text => text
  | .string s => quote s
  | .array items => "[" ++ ",".intercalate (Value.itemTexts items) ++ "]"
  | .object entries => "\x7b" ++ ",".intercalate (Value.entryTexts entries) ++ "\x7d"

/-- The texts of the items of an array. -/
def Value.itemTexts : List Value → List String
  | [] => []
  | v :: vs => v.toJson :: Value.itemTexts vs

/-- The texts of the entries of an object. -/
def Value.entryTexts : List (String × Value) → List String
  | [] => []
  | (k, v) :: es => (quote k ++ ":" ++ v.toJson) :: Value.entryTexts es

end

/-- The source's `render`: the text a chunk content contributes to a prompt. -/
def render : Value → String
  | .string s => s
  | v => v.toJson

@[simp] theorem render_string (s : String) : render (.string s) = s := rfl

@[simp] theorem render_null : render .null = "null" := by simp [render, Value.toJson]

/-- The source's `Value::as_str`. -/
def Value.asStr : Value → Option String
  | .string s => some s
  | _ => none

/-- The source's `Value::as_array`. -/
def Value.asArray : Value → Option (List Value)
  | .array items => some items
  | _ => none

/-- The source's `Value::from` for an integer. -/
def Value.ofInt (n : ℤ) : Value := .number (toString n)

example : (Value.array [.null, .object [("a\n", .bool true)], .number "7"]).toJson =
    "[null,\x7b\"a\\n\":true\x7d,7]" := by decide

end ContextLease
