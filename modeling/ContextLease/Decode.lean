/-
Decoding a configuration into the kernel's records.

The kernel reads a configuration with `serde`: unknown fields are refused, missing ones take their
default, an integer field has to fit an `i32`, and a number of a metadata value that fits no 64-bit
integer is read as a float.  Objects and arrays may be nested 127 deep.  A derived record can also
be read from an array of its fields; no configuration the Python side accepts has one, and it is
left out.

Main definitions:

* `decodeValue`, `decodeMap` — values of any shape;
* `decodeArena`, `decodeModel` — the records.

Main results:

* `isSome_decodeValue` — a value is read when its numbers are;
* `decodeValue_tree` — the value read is the one written, with its keys in order.
-/

import ContextLease.HostJson
import ContextLease.Types

set_option relaxedAutoImplicit false
set_option autoImplicit false

namespace ContextLease

open MachineNumbers

variable {F : Type}

/-! ### Sequences -/

/-- The elements, if there are all. -/
def allSome {α : Type} : List (Option α) → Option (List α)
  | [] => some []
  | a :: as => do
      let first ← a
      let rest ← allSome as
      some (first :: rest)

theorem allSome_eq_some {α : Type} {as : List (Option α)} {bs : List α} :
    allSome as = some bs ↔ as = bs.map some := by
  induction as generalizing bs with
  | nil => cases bs <;> simp [allSome]
  | cons a as ih =>
      cases a with
      | none => cases bs <;> simp [allSome]
      | some a =>
          cases bs with
          | nil => simp [allSome, Option.bind_eq_some_iff]
          | cons b bs =>
              simp only [allSome, Option.bind_eq_bind, Option.bind_some, Option.bind_eq_some_iff,
                ih, Option.some.injEq, List.map_cons, List.cons.injEq]
              exact ⟨fun ⟨_, hrest, hfirst, heq⟩ => ⟨hfirst, heq ▸ hrest⟩,
                fun ⟨hfirst, hrest⟩ => ⟨bs, hrest, hfirst, rfl⟩⟩

theorem isSome_allSome {α : Type} {as : List (Option α)} :
    (allSome as).isSome = true ↔ ∀ a ∈ as, a.isSome = true := by
  induction as with
  | nil => simp [allSome]
  | cons a as ih =>
      rw [List.forall_mem_cons, ← ih]
      cases a <;> cases h : allSome as <;> simp [allSome, h]

/-- An entry, if there is a value. -/
def entrySome {α : Type} (e : String × Option α) : Option (String × α) := e.2.map fun v => (e.1, v)

/-! ### Values -/

section Values

variable [FloatOps F] [NumberTexts F]

/-- A `serde_json::Value`. -/
def decodeValue : HostValue F → Option Value :=
  JsonTree.fold (some .null) (fun b => some (.bool b)) (fun n => n.kernelText.map .number)
    (fun s => some (.string s)) (fun vs => (allSome vs).map .array)
    fun es => (allSome (es.map entrySome)).map fun es => .object (BTreeMap.ofList es)

/-- A `BTreeMap<String, Value>`. -/
def decodeMap : HostValue F → Option (BTreeMap Value)
  | .object entries =>
      (allSome (entries.map fun e => entrySome (e.1, decodeValue e.2))).map BTreeMap.ofList
  | _ => none

@[simp] theorem decodeValue_array (items : List (HostValue F)) :
    decodeValue (.array items) = (allSome (items.map decodeValue)).map .array :=
  JsonTree.fold_array ..

@[simp] theorem decodeValue_object (entries : List (String × HostValue F)) :
    decodeValue (.object entries) = (decodeMap (.object entries)).map .object := by
  rw [decodeValue, JsonTree.fold_object, decodeMap, List.map_map, Option.map_map]
  rfl

/-- A value is read when its numbers are. -/
theorem isSome_decodeValue {value : HostValue F} :
    (decodeValue value).isSome = true ↔ ∀ n ∈ value.numbers, n.kernelText.isSome = true := by
  induction value using JsonTree.induct with
  | null => simp [decodeValue, JsonTree.fold]
  | bool b => simp [decodeValue, JsonTree.fold]
  | number n => simp [decodeValue, JsonTree.fold]
  | string s => simp [decodeValue, JsonTree.fold]
  | array items ih =>
      rw [decodeValue_array, Option.isSome_map, isSome_allSome, List.forall_mem_map,
        JsonTree.numbers_array, List.forall_mem_flatMap]
      exact forall₂_congr ih
  | object entries ih =>
      rw [decodeValue_object, Option.isSome_map, decodeMap, Option.isSome_map, isSome_allSome,
        List.forall_mem_map, JsonTree.numbers_object, List.forall_mem_flatMap]
      refine forall₂_congr ?_
      intro e he
      rw [entrySome, Option.isSome_map]
      exact ih e he

/-- The kernel's text of a number it has read. -/
def Numeral.readText (n : Numeral F) : String := n.kernelText.getD ""

/-- A map is in key order whatever the order of the entries it is made of. -/
theorem ofList_eq_sortEntries {V : Type} {entries : List (String × V)}
    (h : (entries.map Prod.fst).Nodup) :
    BTreeMap.ofList entries = JsonTree.sortEntries entries :=
  (JsonTree.sortEntries_eq_of_perm (BTreeMap.ofList_perm h) (BTreeMap.ofList_sorted entries)).symm

/-- The value read is the one written, with its keys in order. -/
theorem decodeValue_tree {value : HostValue F} (hdistinct : value.DistinctKeys) {v : Value}
    (h : decodeValue value = some v) : v.tree = (value.map Numeral.readText).sortKeys := by
  induction value using JsonTree.induct generalizing v with
  | null =>
      cases h
      rfl
  | bool b =>
      cases h
      rfl
  | number n =>
      obtain ⟨text, htext, rfl⟩ := Option.map_eq_some_iff.1 h
      rw [Value.tree, JsonTree.map_number, Numeral.readText, htext]
      rfl
  | string s =>
      cases h
      rfl
  | array items ih =>
      rw [decodeValue_array] at h
      obtain ⟨vs, hvs, rfl⟩ := Option.map_eq_some_iff.1 h
      rw [allSome_eq_some] at hvs
      rw [JsonTree.distinctKeys_array] at hdistinct
      rw [Value.tree_array, JsonTree.map_array, JsonTree.sortKeys_array, List.map_map]
      congr 1
      exact JsonTree.map_eq_of_map_eq hvs.symm fun v _ t ht heq => ih t ht (hdistinct t ht) heq.symm
  | object entries ih =>
      rw [decodeValue_object, decodeMap] at h
      obtain ⟨m, hm, rfl⟩ := Option.map_eq_some_iff.1 h
      obtain ⟨es, hes, rfl⟩ := Option.map_eq_some_iff.1 hm
      rw [allSome_eq_some] at hes
      obtain ⟨hnodup, hdistinct⟩ := JsonTree.distinctKeys_object entries |>.1 hdistinct
      have hentry : ∀ (e : String × HostValue F) (e' : String × Value),
          entrySome (e.1, decodeValue e.2) = some e' →
            e.1 = e'.1 ∧ decodeValue e.2 = some e'.2 := by
        intro e e' heq
        obtain ⟨v, hv, rfl⟩ := Option.map_eq_some_iff.1 heq
        exact ⟨rfl, hv⟩
      have hkeys : entries.map Prod.fst = es.map Prod.fst :=
        JsonTree.map_eq_of_map_eq hes fun e _ e' _ heq => (hentry e e' heq).1
      rw [Value.tree_object, ofList_eq_sortEntries (hkeys ▸ hnodup), JsonTree.map_sortEntries,
        JsonTree.map_object, JsonTree.sortKeys_object, List.map_map]
      congr 2
      refine JsonTree.map_eq_of_map_eq hes.symm ?_
      intro e' _ e he heq
      obtain ⟨hkey, hvalue⟩ := hentry e e' heq.symm
      exact Prod.ext hkey.symm (ih e he (hdistinct e he) hvalue)

end Values

/-! ### Records -/

/-- How deep a configuration may be nested. -/
def recursionLimit : ℕ := 127

/-- `serde(deny_unknown_fields)`. -/
def knownFields (entries : List (String × HostValue F)) (fields : List String) : Option Unit :=
  if ∀ key ∈ entries.map Prod.fst, key ∈ fields then some () else none

/-- A field. -/
def field {α : Type} (entries : List (String × HostValue F)) (name : String)
    (decode : HostValue F → Option α) : Option α :=
  (entries.lookup name).bind decode

/-- A field with a `serde(default)`. -/
def fieldOr {α : Type} (entries : List (String × HostValue F)) (name : String)
    (decode : HostValue F → Option α) (default : α) : Option α :=
  match entries.lookup name with
  | some value => decode value
  | none => some default

/-- A `String`. -/
def decodeString : HostValue F → Option String
  | .string s => some s
  | _ => none

/-- A `bool`. -/
def decodeBool : HostValue F → Option Bool
  | .bool b => some b
  | _ => none

/-- An `i32`. -/
def decodeI32 : HostValue F → Option ℤ
  | .number (.int n) => if Arith.release.Fits n then some n else none
  | _ => none

/-- A `Vec`. -/
def decodeVec {α : Type} (decode : HostValue F → Option α) : HostValue F → Option (List α)
  | .array items => allSome (items.map decode)
  | _ => none

section Records

variable [FloatOps F] [NumberTexts F]

/-- An `f64`. -/
def decodeF64 : HostValue F → Option F
  | .number (.int n) => if FitsU64OrI64 n then some (FloatOps.ofInt n) else NumberTexts.readInt n
  | .number (.float x) => NumberTexts.readFloat x
  | _ => none

/-- A `CompressionStepSpec`. -/
def decodeStep : HostValue F → Option CompressionStepSpec
  | .object entries => do
      knownFields entries ["algorithm_id", "options"]
      let algorithmId ← field entries "algorithm_id" decodeString
      let options ← fieldOr entries "options" decodeMap []
      some { algorithmId, options }
  | _ => none

/-- A `ModuleDefinition`. -/
def decodeModule : HostValue F → Option (ModuleDefinition F)
  | .object entries => do
      knownFields entries
        ["module_id", "floor_tokens", "target_tokens", "max_tokens", "order", "weight",
          "lifecycle", "allocation", "protection", "reclaim", "render_target", "can_borrow",
          "can_lend", "reclaim_pipeline", "metadata"]
      let moduleId ← field entries "module_id" decodeString
      let floorTokens ← field entries "floor_tokens" decodeI32
      let targetTokens ← field entries "target_tokens" decodeI32
      let maxTokens ← field entries "max_tokens" decodeI32
      let order ← fieldOr entries "order" decodeI32 0
      let weight ← fieldOr entries "weight" decodeF64 (FloatOps.ofInt 1)
      let lifecycle ← fieldOr entries "lifecycle" decodeString "request"
      let allocation ← fieldOr entries "allocation" decodeString "weighted"
      let protection ← fieldOr entries "protection" decodeString "mixed"
      let reclaim ← fieldOr entries "reclaim" decodeString "builtin_pipeline"
      let renderTarget ← fieldOr entries "render_target" decodeString "text"
      let canBorrow ← fieldOr entries "can_borrow" decodeBool true
      let canLend ← fieldOr entries "can_lend" decodeBool true
      let reclaimPipeline ← fieldOr entries "reclaim_pipeline" (decodeVec decodeStep) []
      let metadata ← fieldOr entries "metadata" decodeMap []
      some
        { moduleId, floorTokens, targetTokens, maxTokens, order, weight, lifecycle, allocation,
          protection, reclaim, renderTarget, canBorrow, canLend, reclaimPipeline, metadata }
  | _ => none

/-- An `ArenaDefinition`, apart from the nesting. -/
def decodeArenaFields : HostValue F → Option (ArenaDefinition F)
  | .object entries => do
      knownFields entries
        ["arena_id", "modules", "schema_version", "policy_version", "framework_reserve_tokens",
          "admission_policy", "metadata"]
      let arenaId ← field entries "arena_id" decodeString
      let modules ← field entries "modules" (decodeVec decodeModule)
      let schemaVersion ← fieldOr entries "schema_version" decodeString "1.0"
      let policyVersion ← fieldOr entries "policy_version" decodeString "1"
      let frameworkReserveTokens ← fieldOr entries "framework_reserve_tokens" decodeI32 0
      let admissionPolicy ← fieldOr entries "admission_policy" decodeString "reject"
      let metadata ← fieldOr entries "metadata" decodeMap []
      some
        { arenaId, modules, schemaVersion, policyVersion, frameworkReserveTokens,
          admissionPolicy, metadata }
  | _ => none

/-- An `ArenaDefinition`. -/
def decodeArena (value : HostValue F) : Option (ArenaDefinition F) :=
  if value.depth ≤ recursionLimit then decodeArenaFields value else none

end Records

/-- A `ModelProfile`, apart from the nesting. -/
def decodeModelFields : HostValue F → Option ModelProfile
  | .object entries => do
      knownFields entries
        ["model_profile_id", "context_limit_tokens", "reserved_output_tokens", "tokenizer_id",
          "tokenizer_version", "count_mode"]
      let modelProfileId ← field entries "model_profile_id" decodeString
      let contextLimitTokens ← field entries "context_limit_tokens" decodeI32
      let reservedOutputTokens ← field entries "reserved_output_tokens" decodeI32
      let tokenizerId ← fieldOr entries "tokenizer_id" decodeString "regex-estimator-v1"
      let tokenizerVersion ← fieldOr entries "tokenizer_version" decodeString "1"
      let countMode ← fieldOr entries "count_mode" decodeString "estimated"
      some
        { modelProfileId, contextLimitTokens, reservedOutputTokens, tokenizerId, tokenizerVersion,
          countMode }
  | _ => none

/-- A `ModelProfile`. -/
def decodeModel (value : HostValue F) : Option ModelProfile :=
  if value.depth ≤ recursionLimit then decodeModelFields value else none

end ContextLease
