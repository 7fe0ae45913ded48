/-
JSON trees and their compact texts.

The tree leaves open what a number is, and a text leaves open how the characters of a string are
escaped, so that two programs that write the same tree can be compared.  An escape is a sequence of
plain characters and of characters after a backslash; this is all that is needed for a string to
end where its text says, whoever reads it.

Main definitions:

* `JsonTree`, `JsonTree.fold` — trees, and the recursion every function on them is an instance of;
* `JsonTree.map`, `JsonTree.strings`, `JsonTree.numbers`, `JsonTree.depth` — functions on trees;
* `JsonTree.DistinctKeys` — each object has a key once;
* `JsonTree.Escape`, `JsonTree.write` — compact texts;
* `JsonTree.AgreeOn` — two escapes write the strings of a tree alike.

Main results:

* `JsonTree.induct` — induction on trees;
* `JsonTree.write_eq_iff` — two trees that differ in their numbers only, written with two escapes,
  have the same text exactly when they have the same numbers and the escapes agree on their strings.
-/

import Mathlib.Data.List.Forall2
import Mathlib.Data.List.Sort
import Mathlib.Data.String.Basic

set_option relaxedAutoImplicit false
set_option autoImplicit false

/-- A JSON value whose numbers are of type `N`. -/
inductive JsonTree (N : Type)
  | null
  | bool (b : Bool)
  | number (n : N)
  | string (s : String)
  | array (items : List (JsonTree N))
  | object (entries : List (String × JsonTree N))

namespace JsonTree

variable {N M α : Type}

/-! ### Recursion and induction -/

section Fold

variable (null : α) (bool : Bool → α) (number : N → α) (string : String → α)
  (array : List α → α) (object : List (String × α) → α)

mutual

/-- The recursion on trees. -/
def fold : JsonTree N → α
  | .null => null
  | .bool b => bool b
  | .number n => number n
  | .string s => string s
  | .array items => array (foldItems items)
  | .object entries => object (foldEntries entries)

/-- The recursion on the items of an array. -/
def foldItems : List (JsonTree N) → List α
  | [] => []
  | t :: ts => fold t :: foldItems ts

/-- The recursion on the entries of an object. -/
def foldEntries : List (String × JsonTree N) → List (String × α)
  | [] => []
  | (k, t) :: es => (k, fold t) :: foldEntries es

end

theorem fold_array (items : List (JsonTree N)) :
    fold null bool number string array object (.array items) =
      array (items.map (fold null bool number string array object)) := by
  rw [fold]
  congr 1
  induction items with
  | nil => rfl
  | cons t ts ih => rw [foldItems, ih, List.map_cons]

theorem fold_object (entries : List (String × JsonTree N)) :
    fold null bool number string array object (.object entries) =
      object (entries.map fun e => (e.1, fold null bool number string array object e.2)) := by
  rw [fold]
  congr 1
  induction entries with
  | nil => rfl
  | cons e es ih => rw [foldEntries, ih, List.map_cons]

end Fold

/-- Induction on trees. -/
theorem induct {motive : JsonTree N → Prop} (null : motive .null) (bool : ∀ b, motive (.bool b))
    (number : ∀ n, motive (.number n)) (string : ∀ s, motive (.string s))
    (array : ∀ items : List (JsonTree N), (∀ t ∈ items, motive t) → motive (.array items))
    (object : ∀ entries : List (String × JsonTree N), (∀ e ∈ entries, motive e.2) →
      motive (.object entries)) : ∀ t, motive t
  | .null => null
  | .bool b => bool b
  | .number n => number n
  | .string s => string s
  | .array items =>
      array items fun t ht =>
        have := List.sizeOf_lt_of_mem ht
        induct null bool number string array object t
  | .object entries =>
      object entries fun e he =>
        have := List.sizeOf_lt_of_mem he
        have : sizeOf e.2 < sizeOf e := by cases e; simp only [Prod.mk.sizeOf_spec]; omega
        induct null bool number string array object e.2

/-! ### Functions on trees -/

/-- The tree with other numbers. -/
def map (f : N → M) : JsonTree N → JsonTree M :=
  fold .null .bool (fun n => .number (f n)) .string .array .object

/-- The strings of a tree, keys included. -/
def strings : JsonTree N → List String :=
  fold [] (fun _ => []) (fun _ => []) (fun s => [s]) List.flatten
    fun es => es.flatMap fun e => e.1 :: e.2

/-- The numbers of a tree. -/
def numbers : JsonTree N → List N :=
  fold [] (fun _ => []) (fun n => [n]) (fun _ => []) List.flatten
    fun es => es.flatMap Prod.snd

/-- How deep arrays and objects are nested. -/
def depth : JsonTree N → ℕ :=
  fold 0 (fun _ => 0) (fun _ => 0) (fun _ => 0) (fun ds => (ds.foldr max 0) + 1)
    fun es => ((es.map Prod.snd).foldr max 0) + 1

/-- Each object has a key once, as in a map. -/
def DistinctKeys : JsonTree N → Prop :=
  fold True (fun _ => True) (fun _ => True) (fun _ => True) (fun ps => ∀ p ∈ ps, p)
    fun es => (es.map Prod.fst).Nodup ∧ ∀ e ∈ es, e.2

@[simp] theorem map_null (f : N → M) : map f .null = .null := rfl

@[simp] theorem map_bool (f : N → M) (b : Bool) : map f (.bool b) = .bool b := rfl

@[simp] theorem map_number (f : N → M) (n : N) : map f (.number n) = .number (f n) := rfl

@[simp] theorem map_string (f : N → M) (s : String) : map f (.string s) = .string s := rfl

@[simp] theorem map_array (f : N → M) (items : List (JsonTree N)) :
    map f (.array items) = .array (items.map (map f)) := fold_array ..

@[simp] theorem map_object (f : N → M) (entries : List (String × JsonTree N)) :
    map f (.object entries) = .object (entries.map fun e => (e.1, map f e.2)) := fold_object ..

@[simp] theorem strings_null : (null : JsonTree N).strings = [] := rfl

@[simp] theorem strings_bool (b : Bool) : (bool b : JsonTree N).strings = [] := rfl

@[simp] theorem strings_number (n : N) : (number n).strings = [] := rfl

@[simp] theorem strings_string (s : String) : (string s : JsonTree N).strings = [s] := rfl

@[simp] theorem strings_array (items : List (JsonTree N)) :
    (array items).strings = items.flatMap strings := by
  rw [List.flatMap_def]
  exact fold_array ..

@[simp] theorem strings_object (entries : List (String × JsonTree N)) :
    (object entries).strings = entries.flatMap fun e => e.1 :: e.2.strings := by
  rw [strings, fold_object, List.flatMap_map]

@[simp] theorem numbers_null : (null : JsonTree N).numbers = [] := rfl

@[simp] theorem numbers_bool (b : Bool) : (bool b : JsonTree N).numbers = [] := rfl

@[simp] theorem numbers_number (n : N) : (number n).numbers = [n] := rfl

@[simp] theorem numbers_string (s : String) : (string s : JsonTree N).numbers = [] := rfl

@[simp] theorem numbers_array (items : List (JsonTree N)) :
    (array items).numbers = items.flatMap numbers := by
  rw [List.flatMap_def]
  exact fold_array ..

@[simp] theorem numbers_object (entries : List (String × JsonTree N)) :
    (object entries).numbers = entries.flatMap fun e => e.2.numbers := by
  rw [numbers, fold_object, List.flatMap_map]

@[simp] theorem distinctKeys_null : (null : JsonTree N).DistinctKeys := trivial

@[simp] theorem distinctKeys_bool (b : Bool) : (bool b : JsonTree N).DistinctKeys := trivial

@[simp] theorem distinctKeys_number (n : N) : (number n).DistinctKeys := trivial

@[simp] theorem distinctKeys_string (s : String) : (string s : JsonTree N).DistinctKeys := trivial

@[simp] theorem distinctKeys_array (items : List (JsonTree N)) :
    (array items).DistinctKeys ↔ ∀ t ∈ items, t.DistinctKeys := by
  rw [DistinctKeys, fold_array]
  exact List.forall_mem_map

@[simp] theorem distinctKeys_object (entries : List (String × JsonTree N)) :
    (object entries).DistinctKeys ↔
      (entries.map Prod.fst).Nodup ∧ ∀ e ∈ entries, e.2.DistinctKeys := by
  rw [DistinctKeys, fold_object, List.map_map, List.forall_mem_map]
  rfl

/-! ### Lists -/

/-- Lists with the same images are related item by item, if items with the same image are. -/
theorem forall₂_of_map_eq {A A' B : Type} {f : A → B} {f' : A' → B} {R : A → A' → Prop}
    {l : List A} {l' : List A'} (h : l.map f = l'.map f')
    (hR : ∀ a ∈ l, ∀ a' ∈ l', f a = f' a' → R a a') : List.Forall₂ R l l' := by
  induction l generalizing l' with
  | nil =>
      cases l' with
      | nil => exact .nil
      | cons _ _ => simp at h
  | cons a l ih =>
      cases l' with
      | nil => simp at h
      | cons a' l' =>
          obtain ⟨hhead, htail⟩ := List.cons.inj h
          refine .cons (hR a (List.mem_cons_self ..) a' (List.mem_cons_self ..) hhead) (ih htail ?_)
          exact fun b hb b' hb' => hR b (List.mem_cons_of_mem _ hb) b' (List.mem_cons_of_mem _ hb')

theorem map_eq_of_map_eq {A A' B C : Type} {f : A → B} {f' : A' → B} {g : A → C} {g' : A' → C}
    {l : List A} {l' : List A'} (h : l.map f = l'.map f')
    (hg : ∀ a ∈ l, ∀ a' ∈ l', f a = f' a' → g a = g' a') : l.map g = l'.map g' := by
  rw [← List.forall₂_eq_eq_eq, List.forall₂_map_left_iff, List.forall₂_map_right_iff]
  exact forall₂_of_map_eq h hg

/-! ### Key order -/

/-- The entries in key order. -/
def sortEntries (entries : List (String × α)) : List (String × α) :=
  entries.insertionSort fun e e' => e.1 ≤ e'.1

/-- The tree with the entries of each object in key order. -/
def sortKeys : JsonTree N → JsonTree N :=
  fold .null .bool .number .string .array fun es => .object (sortEntries es)

@[simp] theorem sortKeys_bool (b : Bool) : sortKeys (.bool b : JsonTree N) = .bool b := rfl

@[simp] theorem sortKeys_number (n : N) : sortKeys (.number n) = .number n := rfl

@[simp] theorem sortKeys_string (s : String) : sortKeys (.string s : JsonTree N) = .string s := rfl

@[simp] theorem sortKeys_array (items : List (JsonTree N)) :
    sortKeys (.array items) = .array (items.map sortKeys) := fold_array ..

@[simp] theorem sortKeys_object (entries : List (String × JsonTree N)) :
    sortKeys (.object entries) =
      .object (sortEntries (entries.map fun e => (e.1, sortKeys e.2))) := fold_object ..

theorem sortEntries_perm (entries : List (String × α)) : (sortEntries entries).Perm entries :=
  List.perm_insertionSort ..

@[simp] theorem mem_sortEntries {entries : List (String × α)} {e : String × α} :
    e ∈ sortEntries entries ↔ e ∈ entries := List.mem_insertionSort _

theorem keys_map {β : Type} (f : α → β) (entries : List (String × α)) :
    (entries.map fun e => (e.1, f e.2)).map Prod.fst = entries.map Prod.fst := by
  rw [List.map_map]
  rfl

theorem map_sortEntries {β : Type} (f : α → β) (entries : List (String × α)) :
    (sortEntries entries).map (fun e => (e.1, f e.2)) =
      sortEntries (entries.map fun e => (e.1, f e.2)) :=
  List.map_insertionSort _ _ _ _ fun _ _ _ _ => Iff.rfl

/-- Entries with distinct keys have one arrangement in key order. -/
theorem sortEntries_eq_of_perm {entries sorted : List (String × α)} (hperm : sorted.Perm entries)
    (hsorted : sorted.Pairwise fun e e' => e.1 < e'.1) : sortEntries entries = sorted := by
  have hkeys : (sorted.map Prod.fst).Nodup :=
    List.pairwise_map.2 (hsorted.imp fun hlt => ne_of_lt hlt)
  have hle : (sortEntries entries).Pairwise fun e e' => e.1 ≤ e'.1 := by
    have : Std.Total fun e e' : String × α => e.1 ≤ e'.1 := ⟨fun e e' => le_total e.1 e'.1⟩
    have : IsTrans (String × α) fun e e' => e.1 ≤ e'.1 := ⟨fun _ _ _ => le_trans⟩
    exact List.pairwise_insertionSort _ _
  refine List.Perm.eq_of_pairwise ?_ hle (hsorted.imp fun hlt => le_of_lt hlt)
    ((sortEntries_perm entries).trans hperm.symm)
  intro e e' he he' h h'
  exact List.inj_on_of_nodup_map hkeys (hperm.mem_iff.2 (mem_sortEntries.1 he)) he'
    (le_antisymm h h')

/-- Entries with the same distinct keys are the same if they are in key order. -/
theorem sortEntries_inj {entries entries' : List (String × α)}
    (hkeys : entries.map Prod.fst = entries'.map Prod.fst) (hnodup : (entries.map Prod.fst).Nodup) :
    sortEntries entries = sortEntries entries' ↔ entries = entries' := by
  constructor
  · intro heq
    have hperm : entries.Perm entries' :=
      (sortEntries_perm entries).symm.trans (heq ▸ sortEntries_perm entries')
    refine List.forall₂_eq_eq_eq ▸ forall₂_of_map_eq hkeys ?_
    intro e he e' he' hkey
    exact List.inj_on_of_nodup_map (hkeys ▸ hnodup) (hperm.mem_iff.1 he) he' hkey
  · exact fun heq => heq ▸ rfl

theorem map_sortKeys (f : N → M) (t : JsonTree N) : (sortKeys t).map f = sortKeys (t.map f) := by
  induction t using induct with
  | null => rfl
  | bool b => rfl
  | number n => rfl
  | string s => rfl
  | array items ih =>
      simp only [sortKeys_array, map_array, List.map_map]
      congr 1
      exact List.map_congr_left ih
  | object entries ih =>
      simp only [sortKeys_object, map_object, map_sortEntries, List.map_map]
      congr 2
      exact List.map_congr_left fun e he => Prod.ext rfl (ih e he)

theorem mem_strings_sortKeys {t : JsonTree N} {s : String} :
    s ∈ (sortKeys t).strings ↔ s ∈ t.strings := by
  induction t using induct with
  | null => rfl
  | bool b => rfl
  | number n => rfl
  | string s => rfl
  | array items ih =>
      simp only [sortKeys_array, strings_array, List.flatMap_map, List.mem_flatMap]
      exact exists_congr fun t => and_congr_right (ih t)
  | object entries ih =>
      simp only [sortKeys_object, ← map_sortEntries, strings_object, List.flatMap_map,
        List.mem_flatMap, mem_sortEntries, List.mem_cons]
      exact exists_congr fun e => and_congr_right fun he => or_congr_right (ih e he)

theorem mem_numbers_sortKeys {t : JsonTree N} {n : N} :
    n ∈ (sortKeys t).numbers ↔ n ∈ t.numbers := by
  induction t using induct with
  | null => rfl
  | bool b => rfl
  | number n => rfl
  | string s => rfl
  | array items ih =>
      simp only [sortKeys_array, numbers_array, List.flatMap_map, List.mem_flatMap]
      exact exists_congr fun t => and_congr_right (ih t)
  | object entries ih =>
      simp only [sortKeys_object, ← map_sortEntries, numbers_object, List.flatMap_map,
        List.mem_flatMap, mem_sortEntries]
      exact exists_congr fun e => and_congr_right (ih e)

theorem strings_map (f : N → M) (t : JsonTree N) : (t.map f).strings = t.strings := by
  induction t using induct with
  | null => rfl
  | bool b => rfl
  | number n => rfl
  | string s => rfl
  | array items ih =>
      rw [map_array, strings_array, strings_array, List.flatMap_map]
      exact List.flatMap_congr ih
  | object entries ih =>
      rw [map_object, strings_object, strings_object, List.flatMap_map]
      exact List.flatMap_congr fun e he => by rw [ih e he]

theorem numbers_map (f : N → M) (t : JsonTree N) : (t.map f).numbers = t.numbers.map f := by
  induction t using induct with
  | null => rfl
  | bool b => rfl
  | number n => rfl
  | string s => rfl
  | array items ih =>
      rw [map_array, numbers_array, numbers_array, List.flatMap_map, List.map_flatMap]
      exact List.flatMap_congr ih
  | object entries ih =>
      rw [map_object, numbers_object, numbers_object, List.flatMap_map, List.map_flatMap]
      exact List.flatMap_congr fun e he => ih e he

theorem map_map {L : Type} (f : N → M) (g : M → L) (t : JsonTree N) :
    (t.map f).map g = t.map fun n => g (f n) := by
  induction t using induct with
  | null => rfl
  | bool b => rfl
  | number n => rfl
  | string s => rfl
  | array items ih =>
      rw [map_array, map_array, map_array, List.map_map]
      congr 1
      exact List.map_congr_left ih
  | object entries ih =>
      rw [map_object, map_object, map_object, List.map_map]
      congr 1
      exact List.map_congr_left fun e he => Prod.ext rfl (ih e he)

/-- Two maps of a tree are the same when they agree on its numbers. -/
theorem map_eq_map_iff {f g : N → M} {t : JsonTree N} :
    t.map f = t.map g ↔ ∀ n ∈ t.numbers, f n = g n := by
  induction t using induct with
  | null => simp
  | bool b => simp
  | number n => simp
  | string s => simp
  | array items ih =>
      rw [map_array, map_array, array.injEq, List.map_inj_left, numbers_array,
        List.forall_mem_flatMap]
      exact forall₂_congr ih
  | object entries ih =>
      rw [map_object, map_object, object.injEq, List.map_inj_left, numbers_object,
        List.forall_mem_flatMap]
      refine forall₂_congr ?_
      intro e he
      rw [Prod.mk.injEq, ← ih e he]
      exact and_iff_right rfl

theorem distinctKeys_map (f : N → M) (t : JsonTree N) :
    (t.map f).DistinctKeys ↔ t.DistinctKeys := by
  induction t using induct with
  | null => rfl
  | bool b => rfl
  | number n => rfl
  | string s => rfl
  | array items ih =>
      rw [map_array, distinctKeys_array, distinctKeys_array, List.forall_mem_map]
      exact forall₂_congr ih
  | object entries ih =>
      rw [map_object, distinctKeys_object, distinctKeys_object, List.map_map, List.forall_mem_map]
      exact and_congr Iff.rfl (forall₂_congr ih)

/-! ### Texts -/

/-- The inside of a string: plain characters, and characters after a backslash. -/
inductive StringBody : List Char → Prop
  | nil : StringBody []
  | plain {c : Char} {l : List Char} (hquote : c ≠ '"') (hback : c ≠ '\\') (h : StringBody l) :
      StringBody (c :: l)
  | escaped {c : Char} {l : List Char} (h : StringBody l) : StringBody ('\\' :: c :: l)

theorem StringBody.append {l l' : List Char} (h : StringBody l) (h' : StringBody l') :
    StringBody (l ++ l') := by
  induction h with
  | nil => exact h'
  | plain hquote hback _ ih => exact .plain hquote hback ih
  | escaped _ ih => exact .escaped ih

/-- The text of a string ends where its body does. -/
theorem StringBody.ends {l l' r r' : List Char} (h : StringBody l) (h' : StringBody l')
    (heq : l ++ '"' :: r = l' ++ '"' :: r') : l = l' ∧ r = r' := by
  induction h generalizing l' with
  | nil =>
      cases h' with
      | nil => exact ⟨rfl, (List.cons.inj heq).2⟩
      | plain hquote _ _ => exact absurd (List.cons.inj heq).1.symm hquote
      | escaped _ => exact absurd (List.cons.inj heq).1 (by decide)
  | plain hquote hback _ ih =>
      cases h' with
      | nil => exact absurd (List.cons.inj heq).1 hquote
      | plain _ _ h' =>
          obtain ⟨rfl, htail⟩ := List.cons.inj heq
          obtain ⟨rfl, hr⟩ := ih h' htail
          exact ⟨rfl, hr⟩
      | escaped _ => exact absurd (List.cons.inj heq).1 hback
  | escaped _ ih =>
      cases h' with
      | nil => exact absurd (List.cons.inj heq).1 (by decide)
      | plain _ hback _ => exact absurd (List.cons.inj heq).1.symm hback
      | escaped h' =>
          obtain ⟨rfl, htail⟩ := List.cons.inj (List.cons.inj heq).2
          obtain ⟨rfl, hr⟩ := ih h' htail
          exact ⟨rfl, hr⟩

/-- How the characters of a string are written. -/
structure Escape where
  /-- The text of a character. -/
  text : Char → List Char
  body : ∀ c, StringBody (text c)

namespace Escape

/-- The text of a string between its quotes. -/
def inside (e : Escape) (s : String) : List Char := s.toList.flatMap e.text

/-- The text of a string. -/
def quote (e : Escape) (s : String) : List Char := '"' :: e.inside s ++ ['"']

theorem inside_body (e : Escape) (s : String) : StringBody (e.inside s) := by
  rw [inside]
  induction s.toList with
  | nil => exact .nil
  | cons c l ih => exact (e.body c).append ih

/-- Two escapes that write a character differently write different texts whatever follows. -/
def Apart (e e' : Escape) : Prop :=
  ∀ c l l', e.text c ++ l = e'.text c ++ l' → e.text c = e'.text c

/-- Two escapes write a string alike. -/
def Agree (e e' : Escape) (s : String) : Prop := ∀ c ∈ s.toList, e.text c = e'.text c

variable {e e' : Escape}

theorem inside_eq_iff (h : Apart e e') {s : String} : e.inside s = e'.inside s ↔ Agree e e' s := by
  rw [inside, inside, Agree]
  induction s.toList with
  | nil => simp
  | cons c l ih =>
      rw [List.flatMap_cons, List.flatMap_cons, List.forall_mem_cons, ← ih]
      constructor
      · intro heq
        have hc := h c _ _ heq
        rw [hc] at heq
        exact ⟨hc, List.append_cancel_left heq⟩
      · rintro ⟨hc, hl⟩
        rw [hc, hl]

/-- The text of a string is read to its end. -/
theorem quote_ends (h : Apart e e') {s : String} {r r' : List Char}
    (heq : e.quote s ++ r = e'.quote s ++ r') : Agree e e' s ∧ r = r' := by
  simp only [quote, List.cons_append, List.append_assoc, List.nil_append] at heq
  obtain ⟨hinside, hr⟩ := (e.inside_body s).ends (e'.inside_body s) (List.cons.inj heq).2
  exact ⟨(inside_eq_iff h).1 hinside, hr⟩

theorem quote_of_agree {s : String} (h : Agree e e' s) : e.quote s = e'.quote s := by
  have hinside : e.inside s = e'.inside s := List.flatMap_congr h
  rw [quote, hinside, quote]

end Escape

/-- The compact text of a tree whose numbers are given by their texts. -/
def write (e : Escape) : JsonTree String → List Char :=
  fold "null".toList (fun b => if b then "true".toList else "false".toList) String.toList e.quote
    (fun ts => '[' :: [','].intercalate ts ++ [']'])
    fun es => '\x7b' :: [','].intercalate (es.map fun p => e.quote p.1 ++ ':' :: p.2) ++ ['\x7d']

@[simp] theorem write_array (e : Escape) (items : List (JsonTree String)) :
    write e (.array items) = '[' :: [','].intercalate (items.map (write e)) ++ [']'] :=
  fold_array ..

@[simp] theorem write_object (e : Escape) (entries : List (String × JsonTree String)) :
    write e (.object entries) =
      '\x7b' :: [','].intercalate (entries.map fun p => e.quote p.1 ++ ':' :: write e p.2) ++
        ['\x7d'] := by
  rw [write, fold_object, List.map_map]
  rfl

/-- What may follow a value: nothing, or a character that no number has. -/
def Closed (r : List Char) : Prop := ∀ c ∈ r.head?, c = ',' ∨ c = ']' ∨ c = '\x7d'

/-- The text of a number has no separator and no bracket. -/
def PlainNumber (text : String) : Prop := ∀ c ∈ text.toList, c ≠ ',' ∧ c ≠ ']' ∧ c ≠ '\x7d'

/-! ### Reading texts back -/

section Splits

variable {A : Type}

/-- The texts of `a` and `a'` are told apart whatever follows them, unless they are the same and
`C` holds of it. -/
def Splits (w w' : A → List Char) (C : A → Prop) (a a' : A) : Prop :=
  ∀ r r', Closed r → Closed r' → w a ++ r = w' a' ++ r' → (a = a' ∧ C a) ∧ r = r'

theorem Closed.cons {c : Char} (h : c = ',' ∨ c = ']' ∨ c = '\x7d') (r : List Char) :
    Closed (c :: r) := by
  intro d hd
  rwa [← Option.mem_some_iff.1 hd]

/-- A list of texts is split at its commas. -/
theorem Splits.items {w w' : A → List Char} {C : A → Prop} {as as' : List A}
    (h : List.Forall₂ (Splits w w' C) as as') {d : Char} (hd : d = ']' ∨ d = '\x7d')
    {r r' : List Char}
    (heq : [','].intercalate (as.map w) ++ d :: r = [','].intercalate (as'.map w') ++ d :: r') :
    (as = as' ∧ ∀ a ∈ as, C a) ∧ r = r' := by
  induction h with
  | nil => simpa using heq
  | @cons a a' as as' ha has ih =>
      have hclosed : ∀ r, Closed (d :: r) := Closed.cons (Or.inr hd)
      cases has with
      | nil =>
          simp only [List.map_cons, List.map_nil, List.intercalate_singleton] at heq
          obtain ⟨⟨rfl, hC⟩, hr⟩ := ha _ _ (hclosed r) (hclosed r') heq
          exact ⟨⟨rfl, List.forall_mem_singleton.2 hC⟩, (List.cons.inj hr).2⟩
      | cons _ _ =>
          simp only [List.map_cons, List.intercalate_cons_cons, List.append_assoc,
            List.cons_append, List.nil_append] at heq ih
          obtain ⟨⟨rfl, hC⟩, hrest⟩ := ha _ _ (.cons (Or.inl rfl) _) (.cons (Or.inl rfl) _) heq
          obtain ⟨⟨htail, hCs⟩, hr⟩ := ih (List.cons.inj hrest).2
          exact ⟨⟨by rw [htail], List.forall_mem_cons.2 ⟨hC, hCs⟩⟩, hr⟩

end Splits

/-- The text of a number ends where something else begins. -/
theorem PlainNumber.splits {text text' : String} (h : PlainNumber text) (h' : PlainNumber text') :
    Splits String.toList String.toList (fun _ => True) text text' := by
  intro r r' hr hr' heq
  rw [← String.toList_inj]
  suffices hlist : ∀ l l' : List Char, (∀ c ∈ l, c ≠ ',' ∧ c ≠ ']' ∧ c ≠ '\x7d') →
      (∀ c ∈ l', c ≠ ',' ∧ c ≠ ']' ∧ c ≠ '\x7d') → l ++ r = l' ++ r' → l = l' ∧ r = r' by
    obtain ⟨htext, hr⟩ := hlist _ _ h h' heq
    exact ⟨⟨htext, trivial⟩, hr⟩
  -- where one number ends and the other goes on, a character would both close and not close
  have hopen : ∀ {c : Char} {l r₁ r₂ : List Char}, Closed r₁ →
      (∀ d ∈ c :: l, d ≠ ',' ∧ d ≠ ']' ∧ d ≠ '\x7d') → r₁ ≠ c :: l ++ r₂ := by
    rintro c l r₁ r₂ hclosed hplain rfl
    have hc := hplain c (List.mem_cons_self ..)
    rcases hclosed c rfl with heq | heq | heq
    · exact hc.1 heq
    · exact hc.2.1 heq
    · exact hc.2.2 heq
  intro l
  induction l with
  | nil =>
      intro l' _ h' heq
      cases l' with
      | nil => exact ⟨rfl, heq⟩
      | cons c l' => exact absurd heq (hopen hr h')
  | cons c l ih =>
      intro l' h h' heq
      cases l' with
      | nil => exact absurd heq.symm (hopen hr' h)
      | cons c' l' =>
          obtain ⟨rfl, htail⟩ := List.cons.inj heq
          obtain ⟨rfl, hr⟩ := ih l' (List.forall_mem_cons.1 h).2 (List.forall_mem_cons.1 h').2 htail
          exact ⟨rfl, hr⟩

/-- Two trees differ in their numbers only. -/
def SameShape (t t' : JsonTree String) : Prop := t.map (fun _ => ()) = t'.map (fun _ => ())

theorem sameShape_map (f g : N → String) (t : JsonTree N) : SameShape (t.map f) (t.map g) := by
  rw [SameShape, map_map, map_map]

theorem SameShape.sortKeys {t t' : JsonTree String} (h : SameShape t t') :
    SameShape t.sortKeys t'.sortKeys := by
  rw [SameShape, map_sortKeys, h, map_sortKeys]

/-- Lists that two functions map to the same lists are the same if the functions tell their
elements apart. -/
theorem eq_of_map_eq {A B C : Type} {f : A → B} {g : A → C} {l l' : List A}
    (hf : l.map f = l'.map f) (hg : l.map g = l'.map g)
    (h : ∀ a ∈ l, ∀ a' ∈ l', f a = f a' → g a = g a' → a = a') : l = l' := by
  induction l generalizing l' with
  | nil =>
      cases l' with
      | nil => rfl
      | cons a' l' => cases hf
  | cons a l ih =>
      cases l' with
      | nil => cases hf
      | cons a' l' =>
          rw [List.map_cons, List.map_cons, List.cons.injEq] at hf hg
          rw [h a List.mem_cons_self a' List.mem_cons_self hf.1 hg.1,
            ih hf.2 hg.2 fun b hb b' hb' =>
              h b (List.mem_cons_of_mem _ hb) b' (List.mem_cons_of_mem _ hb')]

/-- Trees that differ in their numbers only are the same if they are in key order. -/
theorem sortKeys_inj {t t' : JsonTree String} (hshape : SameShape t t') (hkeys : t.DistinctKeys) :
    t.sortKeys = t'.sortKeys ↔ t = t' := by
  refine ⟨fun heq => ?_, fun heq => heq ▸ rfl⟩
  induction t using induct generalizing t' with
  | null => cases t' <;> simp_all [SameShape]
  | bool b => cases t' <;> simp_all [SameShape]
  | number n =>
      cases t' with
      | number n' => exact heq
      | null => cases hshape
      | bool b => cases hshape
      | string s => cases hshape
      | array items => simp [SameShape] at hshape
      | object entries => simp [SameShape] at hshape
  | string s => cases t' <;> simp_all [SameShape]
  | array items ih =>
      cases t' with
      | array items' =>
          rw [SameShape, map_array, map_array, array.injEq] at hshape
          rw [sortKeys_array, sortKeys_array, array.injEq] at heq
          rw [distinctKeys_array] at hkeys
          rw [eq_of_map_eq hshape heq fun t ht t' _ hsame hsorted =>
            ih t ht hsame (hkeys t ht) hsorted]
      | _ => simp [SameShape] at hshape
  | object entries ih =>
      cases t' with
      | object entries' =>
          rw [SameShape, map_object, map_object, object.injEq] at hshape
          rw [sortKeys_object, sortKeys_object, object.injEq] at heq
          obtain ⟨hnodup, hkeys⟩ := distinctKeys_object entries |>.1 hkeys
          have hnames := congrArg (List.map Prod.fst) hshape
          rw [keys_map, keys_map] at hnames
          rw [sortEntries_inj (by rw [keys_map, keys_map, hnames]) (by rwa [keys_map])] at heq
          rw [eq_of_map_eq hshape heq fun e he e' _ hsame hsorted =>
            Prod.ext (Prod.mk.inj hsame).1
              (ih e he (Prod.mk.inj hsame).2 (hkeys e he) (Prod.mk.inj hsorted).2)]
      | _ => simp [SameShape] at hshape

section Write

variable {e e' : Escape}

/-- Two escapes write the strings of a tree alike. -/
def AgreeOn (e e' : Escape) (t : JsonTree N) : Prop := ∀ s ∈ t.strings, Escape.Agree e e' s

theorem agreeOn_array {items : List (JsonTree N)} :
    AgreeOn e e' (.array items) ↔ ∀ t ∈ items, AgreeOn e e' t := by
  rw [AgreeOn, strings_array, List.forall_mem_flatMap]
  rfl

theorem agreeOn_object {entries : List (String × JsonTree N)} :
    AgreeOn e e' (.object entries) ↔
      ∀ p ∈ entries, Escape.Agree e e' p.1 ∧ AgreeOn e e' p.2 := by
  rw [AgreeOn, strings_object, List.forall_mem_flatMap]
  exact forall₂_congr fun p _ => List.forall_mem_cons

theorem splits_entry (hap : Escape.Apart e e') {p p' : String × JsonTree String}
    (hkey : p.1 = p'.1)
    (hvalue : Splits (write e) (write e') (AgreeOn e e') p.2 p'.2) :
    Splits (fun p => e.quote p.1 ++ ':' :: write e p.2)
      (fun p => e'.quote p.1 ++ ':' :: write e' p.2)
      (fun p => Escape.Agree e e' p.1 ∧ AgreeOn e e' p.2) p p' := by
  obtain ⟨k, t⟩ := p
  obtain ⟨k', t'⟩ := p'
  obtain rfl : k = k' := hkey
  intro r r' hr hr' heq
  simp only [List.append_assoc, List.cons_append] at heq
  obtain ⟨hk, htail⟩ := Escape.quote_ends hap heq
  obtain ⟨⟨rfl, ht⟩, hr⟩ := hvalue r r' hr hr' (List.cons.inj htail).2
  exact ⟨⟨rfl, hk, ht⟩, hr⟩

/-- The text of a tree determines it, once its shape is known. -/
theorem splits_of_sameShape (hap : Escape.Apart e e') {t t' : JsonTree String}
    (hshape : SameShape t t') (hplain : ∀ n ∈ t.numbers, PlainNumber n)
    (hplain' : ∀ n ∈ t'.numbers, PlainNumber n) :
    Splits (write e) (write e') (AgreeOn e e') t t' := by
  induction t using induct generalizing t' with
  | null =>
      cases t' <;> simp [SameShape] at hshape
      exact fun r r' _ _ heq => ⟨⟨rfl, by simp [AgreeOn]⟩, List.append_cancel_left heq⟩
  | bool b =>
      cases t' <;> simp [SameShape] at hshape
      subst hshape
      exact fun r r' _ _ heq => ⟨⟨rfl, by simp [AgreeOn]⟩, List.append_cancel_left heq⟩
  | number n =>
      cases t' <;> simp [SameShape] at hshape
      rename_i n'
      intro r r' hr hr' heq
      obtain ⟨⟨rfl, -⟩, hrest⟩ :=
        (hplain n (by simp)).splits (hplain' n' (by simp)) r r' hr hr' heq
      exact ⟨⟨rfl, by simp [AgreeOn]⟩, hrest⟩
  | string s =>
      cases t' <;> simp [SameShape] at hshape
      subst hshape
      intro r r' _ _ heq
      obtain ⟨hs, hrest⟩ := Escape.quote_ends hap heq
      exact ⟨⟨rfl, by simpa [AgreeOn] using hs⟩, hrest⟩
  | array items ih =>
      cases t' <;> simp [SameShape] at hshape
      rename_i items'
      rw [numbers_array, List.forall_mem_flatMap] at hplain hplain'
      have hitems := forall₂_of_map_eq hshape fun t ht t' ht' heq =>
        ih t ht heq (hplain t ht) (hplain' t' ht')
      intro r r' _ _ heq
      simp only [write_array, List.cons_append, List.append_assoc, List.nil_append] at heq
      obtain ⟨⟨rfl, hs⟩, hrest⟩ := Splits.items hitems (Or.inl rfl) (List.cons.inj heq).2
      exact ⟨⟨rfl, agreeOn_array.2 hs⟩, hrest⟩
  | object entries ih =>
      cases t' <;> simp [SameShape] at hshape
      rename_i entries'
      rw [numbers_object, List.forall_mem_flatMap] at hplain hplain'
      have hentries := forall₂_of_map_eq hshape fun p hp p' hp' heq =>
        splits_entry hap (Prod.mk.inj heq).1
          (ih p hp (Prod.mk.inj heq).2 (hplain p hp) (hplain' p' hp'))
      intro r r' _ _ heq
      simp only [write_object, List.cons_append, List.append_assoc, List.nil_append] at heq
      obtain ⟨⟨rfl, hs⟩, hrest⟩ := Splits.items hentries (Or.inr rfl) (List.cons.inj heq).2
      exact ⟨⟨rfl, agreeOn_object.2 hs⟩, hrest⟩

/-- Escapes that agree on the strings of a tree write it alike. -/
theorem write_of_agree {t : JsonTree String} (h : AgreeOn e e' t) :
    write e t = write e' t := by
  induction t using induct with
  | null => rfl
  | bool b => rfl
  | number n => rfl
  | string s => exact Escape.quote_of_agree (h s (by simp))
  | array items ih =>
      have hitems := agreeOn_array.1 h
      rw [write_array, write_array, List.map_congr_left fun t ht => ih t ht (hitems t ht)]
  | object entries ih =>
      have hentries := agreeOn_object.1 h
      have htexts : ∀ p ∈ entries,
          e.quote p.1 ++ ':' :: write e p.2 = e'.quote p.1 ++ ':' :: write e' p.2 := by
        intro p hp
        rw [Escape.quote_of_agree (hentries p hp).1, ih p hp (hentries p hp).2]
      rw [write_object, write_object, List.map_congr_left htexts]

/-- Two trees that differ in their numbers only, written with two escapes, have the same text
exactly when they have the same numbers and the escapes agree on their strings. -/
theorem write_eq_iff (hap : Escape.Apart e e') {t t' : JsonTree String} (hshape : SameShape t t')
    (hplain : ∀ n ∈ t.numbers, PlainNumber n) (hplain' : ∀ n ∈ t'.numbers, PlainNumber n) :
    write e t = write e' t' ↔ t = t' ∧ AgreeOn e e' t := by
  constructor
  · intro heq
    have hclosed : Closed [] := by simp [Closed]
    exact (splits_of_sameShape hap hshape hplain hplain' [] [] hclosed hclosed
      (by rw [heq])).1
  · rintro ⟨rfl, h⟩
    exact write_of_agree h

end Write

end JsonTree
