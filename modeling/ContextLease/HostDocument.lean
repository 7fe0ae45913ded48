/-
JSON documents as Python holds them.

A Python string is a sequence of code points, surrogates included: `json.loads` reads the escape of
a lone surrogate as that surrogate.  No UTF-8 text has one, so a document with one in a text or a
key cannot be handed to the kernel: `encode("utf-8")` raises.  A document without them is a tree of
strings as both sides know it.

Main definitions:

* `CodePoint`, `CodePoints`, `Document` — code points, texts and documents;
* `CodePoints.encode`, `Document.encode` — the strings they are in UTF-8;
* `Document.IsUnicode` — no text or key has a surrogate.

Main results:

* `Document.isSome_encode` — a document can be encoded exactly if it has no surrogate;
* `Document.encode_ofTree` — every tree of strings is a document.
-/

import ContextLease.Decode

set_option relaxedAutoImplicit false
set_option autoImplicit false

namespace ContextLease

/-! ### Texts -/

/-- A code point. -/
abbrev CodePoint := Fin 0x110000

/-- The code points that are no characters. -/
def CodePoint.IsSurrogate (c : CodePoint) : Prop := 0xD800 ≤ c.val ∧ c.val ≤ 0xDFFF

instance (c : CodePoint) : Decidable c.IsSurrogate := inferInstanceAs (Decidable (_ ∧ _))

/-- The character at a code point, if it is one. -/
def CodePoint.character (c : CodePoint) : Option Char :=
  if c.IsSurrogate then none else some (Char.ofNat c.val)

theorem toNat_isValid (c : Char) : c.toNat < 0xD800 ∨ 0xDFFF < c.toNat ∧ c.toNat < 0x110000 :=
  c.valid

/-- A Python string. -/
abbrev CodePoints := List CodePoint

/-- The source's `encode("utf-8")`, as the string that the bytes are. -/
def CodePoints.encode (text : CodePoints) : Option String :=
  (allSome (text.map CodePoint.character)).map String.ofList

/-- The code points of a string. -/
def CodePoints.ofString (s : String) : CodePoints :=
  s.toList.map fun c => ⟨c.toNat, by have := toNat_isValid c; omega⟩

theorem CodePoint.isSome_character {c : CodePoint} :
    c.character.isSome = true ↔ ¬ c.IsSurrogate := by
  rw [CodePoint.character]
  split <;> simp_all

theorem CodePoints.isSome_encode {text : CodePoints} :
    text.encode.isSome = true ↔ ∀ c ∈ text, ¬ c.IsSurrogate := by
  rw [CodePoints.encode, Option.isSome_map, isSome_allSome, List.forall_mem_map]
  exact forall₂_congr fun c _ => CodePoint.isSome_character

theorem CodePoints.encode_ofString (s : String) : (CodePoints.ofString s).encode = some s := by
  have hall : allSome ((CodePoints.ofString s).map CodePoint.character) = some s.toList := by
    rw [allSome_eq_some, CodePoints.ofString, List.map_map]
    refine List.map_congr_left ?_
    intro c _
    have hc : ¬ CodePoint.IsSurrogate ⟨c.toNat, by have := toNat_isValid c; omega⟩ := by
      have hvalid := toNat_isValid c
      simp only [CodePoint.IsSurrogate]
      omega
    rw [Function.comp_apply, CodePoint.character, if_neg hc, Char.ofNat_toNat]
  rw [CodePoints.encode, hall, Option.map_some, String.ofList_toList]

/-! ### Documents -/

/-- What `json.loads` makes of a JSON text, with strings as Python holds them. -/
inductive Document (F : Type)
  | null
  | bool (b : Bool)
  | number (n : Numeral F)
  | string (s : CodePoints)
  | array (items : List (Document F))
  | object (entries : List (CodePoints × Document F))

namespace Document

variable {F : Type}

mutual

/-- The tree that a document is for a reader of UTF-8. -/
def encode : Document F → Option (HostValue F)
  | .null => some .null
  | .bool b => some (.bool b)
  | .number n => some (.number n)
  | .string s => s.encode.map .string
  | .array items => (encodeItems items).map .array
  | .object entries => (encodeEntries entries).map .object

/-- The items of an array. -/
def encodeItems : List (Document F) → Option (List (HostValue F))
  | [] => some []
  | d :: ds => do
      let first ← encode d
      let rest ← encodeItems ds
      some (first :: rest)

/-- The entries of an object. -/
def encodeEntries : List (CodePoints × Document F) → Option (List (String × HostValue F))
  | [] => some []
  | (k, d) :: es => do
      let key ← k.encode
      let value ← encode d
      let rest ← encodeEntries es
      some ((key, value) :: rest)

end

mutual

/-- The texts of a document, keys included. -/
def texts : Document F → List CodePoints
  | .null => []
  | .bool _ => []
  | .number _ => []
  | .string s => [s]
  | .array items => textsOfItems items
  | .object entries => textsOfEntries entries

/-- The texts of the items of an array. -/
def textsOfItems : List (Document F) → List CodePoints
  | [] => []
  | d :: ds => texts d ++ textsOfItems ds

/-- The texts of the entries of an object. -/
def textsOfEntries : List (CodePoints × Document F) → List CodePoints
  | [] => []
  | (k, d) :: es => k :: texts d ++ textsOfEntries es

end

/-- No text and no key has a surrogate. -/
def IsUnicode (document : Document F) : Prop :=
  ∀ text ∈ document.texts, ∀ c ∈ text, ¬ CodePoint.IsSurrogate c

mutual

/-- A document can be encoded exactly if it has no surrogate. -/
theorem isSome_encode : ∀ d : Document F,
    d.encode.isSome = true ↔ ∀ text ∈ d.texts, ∀ c ∈ text, ¬ CodePoint.IsSurrogate c
  | .null => by simp [encode, texts]
  | .bool b => by simp [encode, texts]
  | .number n => by simp [encode, texts]
  | .string s => by
      rw [encode, texts, Option.isSome_map, CodePoints.isSome_encode, List.forall_mem_singleton]
  | .array items => by
      rw [encode, texts, Option.isSome_map]
      exact isSome_encodeItems items
  | .object entries => by
      rw [encode, texts, Option.isSome_map]
      exact isSome_encodeEntries entries

theorem isSome_encodeItems : ∀ ds : List (Document F),
    (encodeItems ds).isSome = true ↔
      ∀ text ∈ textsOfItems ds, ∀ c ∈ text, ¬ CodePoint.IsSurrogate c
  | [] => by simp [encodeItems, textsOfItems]
  | d :: ds => by
      rw [textsOfItems, List.forall_mem_append, ← isSome_encode d, ← isSome_encodeItems ds]
      rw [encodeItems]
      cases d.encode <;> cases encodeItems ds <;> simp

theorem isSome_encodeEntries : ∀ es : List (CodePoints × Document F),
    (encodeEntries es).isSome = true ↔
      ∀ text ∈ textsOfEntries es, ∀ c ∈ text, ¬ CodePoint.IsSurrogate c
  | [] => by simp [encodeEntries, textsOfEntries]
  | (k, d) :: es => by
      rw [textsOfEntries, List.cons_append, List.forall_mem_cons, List.forall_mem_append,
        ← CodePoints.isSome_encode, ← isSome_encode d, ← isSome_encodeEntries es]
      rw [encodeEntries]
      cases k.encode <;> cases d.encode <;> cases encodeEntries es <;> simp

end

/-- A document is one tree, if it has no surrogate. -/
theorem exists_encode_iff {document : Document F} :
    (∃ tree, document.encode = some tree) ↔ document.IsUnicode := by
  rw [← Option.isSome_iff_exists, isSome_encode, IsUnicode]

mutual

/-- The document with the strings of a tree. -/
def ofTree : HostValue F → Document F
  | .null => .null
  | .bool b => .bool b
  | .number n => .number n
  | .string s => .string (.ofString s)
  | .array items => .array (ofItems items)
  | .object entries => .object (ofEntries entries)

/-- The items of an array. -/
def ofItems : List (HostValue F) → List (Document F)
  | [] => []
  | v :: vs => ofTree v :: ofItems vs

/-- The entries of an object. -/
def ofEntries : List (String × HostValue F) → List (CodePoints × Document F)
  | [] => []
  | (k, v) :: es => (.ofString k, ofTree v) :: ofEntries es

end

mutual

/-- Every tree of strings is a document. -/
theorem encode_ofTree : ∀ tree : HostValue F, (ofTree tree).encode = some tree
  | .null => rfl
  | .bool b => rfl
  | .number n => rfl
  | .string s => by rw [ofTree, encode, CodePoints.encode_ofString, Option.map_some]
  | .array items => by rw [ofTree, encode, encodeItems_ofItems items, Option.map_some]
  | .object entries => by rw [ofTree, encode, encodeEntries_ofEntries entries, Option.map_some]

theorem encodeItems_ofItems : ∀ vs : List (HostValue F), encodeItems (ofItems vs) = some vs
  | [] => rfl
  | v :: vs => by
      rw [ofItems, encodeItems, encode_ofTree v, encodeItems_ofItems vs]
      rfl

theorem encodeEntries_ofEntries :
    ∀ es : List (String × HostValue F), encodeEntries (ofEntries es) = some es
  | [] => rfl
  | (k, v) :: es => by
      rw [ofEntries, encodeEntries, CodePoints.encode_ofString, encode_ofTree v,
        encodeEntries_ofEntries es]
      rfl

end

end Document

end ContextLease
