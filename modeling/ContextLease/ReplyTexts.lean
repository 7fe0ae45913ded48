/-
Texts that are read back.

The arena of the package rests on texts that Python and the library read as what the other has
written.  There are such texts: a value is written as the list of its tokens, from which it is read
in one way only, so the values can be numbered, and a text of so many characters stands for each.
The envelopes of errors are none of these texts, and each is read in one way as well.

Main definitions:

* `Value.tokens` — a value, written from left to right;
* `Foreign.numberedSerde`, `Foreign.numberedTexts` — the library with texts by number.

Main results:

* `tokens_inj` — a value is read from its tokens in one way;
* `quote_append_inj`, `Foreign.errorEnvelope_inj` — strings and envelopes are read in one way.
-/

import Mathlib
import ContextLease.PackageArena

set_option relaxedAutoImplicit false
set_option autoImplicit false

namespace ContextLease

open MachineNumbers RustText

/-! ### Tokens -/

instance countableChar : Countable Char := Function.Injective.countable fun _ _ => Char.toNat_inj.1

instance countableString : Countable String :=
  Function.Injective.countable fun _ _ => String.toList_inj.1

/-- A part of a value that is written; the head of a list says how long the list is. -/
inductive Token
  | null
  | bool (b : Bool)
  | number (text : String)
  | string (s : String)
  | array (length : ℕ)
  | object (length : ℕ)
  | key (s : String)
deriving Countable

mutual

/-- A value, written from left to right. -/
def Value.tokens : Value → List Token
  | .null => [.null]
  | .bool b => [.bool b]
  | .number text => [.number text]
  | .string s => [.string s]
  | .array items => .array items.length :: Value.itemTokens items
  | .object entries => .object entries.length :: Value.entryTokens entries

/-- The items of an array, written one after the other. -/
def Value.itemTokens : List Value → List Token
  | [] => []
  | v :: vs => v.tokens ++ Value.itemTokens vs

/-- The entries of an object, written one after the other. -/
def Value.entryTokens : List (String × Value) → List Token
  | [] => []
  | (k, v) :: es => .key k :: (v.tokens ++ Value.entryTokens es)

end

mutual

/-- A value is read from the front of a list of tokens in one way. -/
theorem tokens_append_inj : ∀ (v w : Value) (rest rest' : List Token),
    v.tokens ++ rest = w.tokens ++ rest' → v = w ∧ rest = rest'
  | .array vs, w, rest, rest', h => by
      cases w with
      | array ws =>
          simp only [Value.tokens, List.cons_append, List.cons.injEq, Token.array.injEq] at h
          obtain ⟨rfl, hrest⟩ := itemTokens_append_inj vs ws h.1 rest rest' h.2
          exact ⟨rfl, hrest⟩
      | _ => simp [Value.tokens] at h
  | .object es, w, rest, rest', h => by
      cases w with
      | object es' =>
          simp only [Value.tokens, List.cons_append, List.cons.injEq, Token.object.injEq] at h
          obtain ⟨rfl, hrest⟩ := entryTokens_append_inj es es' h.1 rest rest' h.2
          exact ⟨rfl, hrest⟩
      | _ => simp [Value.tokens] at h
  | .null, w, rest, rest', h => by cases w <;> simp_all [Value.tokens]
  | .bool b, w, rest, rest', h => by cases w <;> simp_all [Value.tokens]
  | .number text, w, rest, rest', h => by cases w <;> simp_all [Value.tokens]
  | .string s, w, rest, rest', h => by cases w <;> simp_all [Value.tokens]

theorem itemTokens_append_inj : ∀ (vs ws : List Value), vs.length = ws.length →
    ∀ rest rest' : List Token, Value.itemTokens vs ++ rest = Value.itemTokens ws ++ rest' →
      vs = ws ∧ rest = rest'
  | [], ws, hlength, rest, rest', h => by
      obtain rfl := List.length_eq_zero_iff.1 hlength.symm
      exact ⟨rfl, h⟩
  | v :: vs, ws, hlength, rest, rest', h => by
      cases ws with
      | nil => cases hlength
      | cons w ws =>
          simp only [Value.itemTokens, List.append_assoc] at h
          obtain ⟨rfl, htail⟩ := tokens_append_inj v w _ _ h
          obtain ⟨rfl, hrest⟩ :=
            itemTokens_append_inj vs ws (Nat.succ.inj hlength) rest rest' htail
          exact ⟨rfl, hrest⟩

theorem entryTokens_append_inj : ∀ (es es' : List (String × Value)), es.length = es'.length →
    ∀ rest rest' : List Token, Value.entryTokens es ++ rest = Value.entryTokens es' ++ rest' →
      es = es' ∧ rest = rest'
  | [], es', hlength, rest, rest', h => by
      obtain rfl := List.length_eq_zero_iff.1 hlength.symm
      exact ⟨rfl, h⟩
  | (k, v) :: es, es', hlength, rest, rest', h => by
      cases es' with
      | nil => cases hlength
      | cons e es' =>
          obtain ⟨k', v'⟩ := e
          simp only [Value.entryTokens, List.cons_append, List.append_assoc, List.cons.injEq,
            Token.key.injEq] at h
          obtain ⟨rfl, hvalue⟩ := h
          obtain ⟨rfl, htail⟩ := tokens_append_inj v v' _ _ hvalue
          obtain ⟨rfl, hrest⟩ :=
            entryTokens_append_inj es es' (Nat.succ.inj hlength) rest rest' htail
          exact ⟨rfl, hrest⟩

end

/-- A value is read from its tokens in one way. -/
theorem tokens_inj {v w : Value} (h : v.tokens = w.tokens) : v = w :=
  (tokens_append_inj v w [] [] (congrArg (· ++ []) h)).1

instance countableValue : Countable Value := Function.Injective.countable fun _ _ => tokens_inj

instance countableSemanticResult : Countable SemanticResult := by
  refine Function.Injective.countable
    (f := fun r : SemanticResult => (r.semanticRequestId, r.content)) ?_
  intro r r' h
  obtain ⟨id, content⟩ := r
  obtain ⟨id', content'⟩ := r'
  cases h
  rfl

/-! ### Strings -/

/-- The value of a hexadecimal digit. -/
def hexValue (c : Char) : ℕ := if c.toNat < 58 then c.toNat - 48 else c.toNat - 87

/-- The character that a text goes on with behind a backslash. -/
def readMark : List Char → Option (Char × List Char)
  | 'u' :: '0' :: '0' :: high :: low :: l =>
      some (Char.ofNat (16 * hexValue high + hexValue low), l)
  | mark :: l =>
      some (if mark = 'n' then '\n' else if mark = 'r' then '\r' else if mark = 't' then '\t'
        else if mark = 'b' then Char.ofNat 8 else if mark = 'f' then Char.ofNat 12 else mark, l)
  | [] => none

/-- The character that a text goes on with. -/
def readEscaped : List Char → Option (Char × List Char)
  | [] => none
  | c :: l => if c = '\\' then readMark l else some (c, l)

theorem hexValue_hexDigit : ∀ n < 32,
    Char.ofNat (16 * hexValue (hexDigit (n / 16)) + hexValue (hexDigit (n % 16))) =
      Char.ofNat n := by
  decide

/-- An escaped character is read back. -/
theorem readEscaped_escapeChar (c : Char) (l : List Char) :
    readEscaped (escapeChar c ++ l) = some (c, l) := by
  unfold escapeChar
  split_ifs with hquote hback hn hr ht hb hf hcontrol
  · subst hquote; rfl
  · subst hback; rfl
  · subst hn; rfl
  · subst hr; rfl
  · subst ht; rfl
  · rw [← Char.ofNat_toNat c, hb]; rfl
  · rw [← Char.ofNat_toNat c, hf]; rfl
  · have hread : readEscaped (['\\', 'u', '0', '0', hexDigit (c.toNat / 16),
        hexDigit (c.toNat % 16)] ++ l) =
        some (Char.ofNat (16 * hexValue (hexDigit (c.toNat / 16)) +
          hexValue (hexDigit (c.toNat % 16))), l) := rfl
    rw [hread, hexValue_hexDigit c.toNat hcontrol, Char.ofNat_toNat]
  · exact if_neg hback

/-- Texts of characters are read in one way. -/
theorem escaped_inj {s s' : List Char} (h : s.flatMap escapeChar = s'.flatMap escapeChar) :
    s = s' := by
  induction s generalizing s' with
  | nil =>
      cases s' with
      | nil => rfl
      | cons c s' =>
          have hread := congrArg readEscaped h
          rw [List.flatMap_cons, readEscaped_escapeChar] at hread
          cases hread
  | cons c s ih =>
      have hread := congrArg readEscaped h
      rw [List.flatMap_cons, readEscaped_escapeChar] at hread
      cases s' with
      | nil => cases hread
      | cons c' s' =>
          rw [List.flatMap_cons, readEscaped_escapeChar, Option.some.injEq, Prod.mk.injEq] at hread
          obtain ⟨rfl, htail⟩ := hread
          rw [ih htail]

/-- A JSON string is read from the front of a text in one way. -/
theorem quote_append_inj {s s' : String} {rest rest' : List Char}
    (h : (quote s).toList ++ rest = (quote s').toList ++ rest') : s = s' ∧ rest = rest' := by
  simp only [quote, String.toList_ofList, List.cons_append, List.append_assoc, List.nil_append,
    List.cons.injEq, true_and] at h
  obtain ⟨hbody, hrest⟩ :=
    (serdeEscape.inside_body s).ends (serdeEscape.inside_body s') h
  exact ⟨String.toList_inj.1 (escaped_inj hbody), hrest⟩

namespace Foreign

/-- An error is read from its envelope in one way. -/
theorem errorEnvelope_inj {error error' : ContextLeaseError}
    (h : errorEnvelope error = errorEnvelope error') : error = error' := by
  obtain ⟨code, message⟩ := error
  obtain ⟨code', message'⟩ := error'
  have htext : ∀ code message : String, (errorEnvelope ⟨code, message⟩).toList =
      "\x7b".toList ++ ((quote "code").toList ++ ':' :: ((quote code).toList ++
        ',' :: ((quote "message").toList ++ ':' :: ((quote message).toList ++ ['\x7d'])))) := by
    intro code message
    simp [errorEnvelope, Value.toJson, Value.entryTexts, String.toList_append]
  have hlists := congrArg String.toList h
  rw [htext, htext] at hlists
  have h₁ := (quote_append_inj (List.append_cancel_left hlists)).2
  have h₂ := quote_append_inj (List.cons.inj h₁).2
  have h₃ := (quote_append_inj (List.cons.inj h₂.2).2).2
  have h₄ := quote_append_inj (List.cons.inj h₃).2
  rw [h₂.1, h₄.1]

/-! ### Texts by number -/

section Texts

/-- The number of a value. -/
noncomputable def valueNumber : Value → ℕ := (exists_injective_nat Value).choose

theorem valueNumber_injective : Function.Injective valueNumber :=
  (exists_injective_nat Value).choose_spec

/-- The number of a list of results. -/
noncomputable def resultsNumber : List SemanticResult → ℕ :=
  (exists_injective_nat (List SemanticResult)).choose

theorem resultsNumber_injective : Function.Injective resultsNumber :=
  (exists_injective_nat (List SemanticResult)).choose_spec

/-- The text of so many characters. -/
def strokes (n : ℕ) : String := String.ofList (List.replicate n 'x')

theorem strokes_injective : Function.Injective strokes := by
  intro m n h
  have hlength := congrArg (fun s => s.toList.length) h
  simpa [strokes] using hlength

theorem strokes_ne_errorEnvelope (n : ℕ) (error : ContextLeaseError) :
    errorEnvelope error ≠ strokes n := by
  intro h
  have hmem : '\x7b' ∈ (errorEnvelope error).toList := by
    simp [errorEnvelope, Value.toJson, String.toList_append]
  rw [h, strokes, String.toList_ofList] at hmem
  exact absurd (List.eq_of_mem_replicate hmem) (by decide)

open Classical in
/-- The value that a text stands for. -/
noncomputable def loadsNumbered (text : String) : Except Host.Raised Value :=
  if h : ∃ value, strokes (valueNumber value) = text then .ok h.choose
  else if h : ∃ error, errorEnvelope error = text then
    .ok (.object [("code", .string h.choose.code), ("message", .string h.choose.message)])
  else .error (.other text)

theorem loadsNumbered_strokes (value : Value) :
    loadsNumbered (strokes (valueNumber value)) = .ok value := by
  have h : ∃ v, strokes (valueNumber v) = strokes (valueNumber value) := ⟨value, rfl⟩
  rw [loadsNumbered, dif_pos h]
  exact congrArg Except.ok (valueNumber_injective (strokes_injective h.choose_spec))

theorem loadsNumbered_envelope (error : ContextLeaseError) :
    loadsNumbered (errorEnvelope error) =
      .ok (.object [("code", .string error.code), ("message", .string error.message)]) := by
  have hvalue : ¬ ∃ v, strokes (valueNumber v) = errorEnvelope error := by
    rintro ⟨v, hv⟩
    exact strokes_ne_errorEnvelope _ error hv.symm
  have h : ∃ error', errorEnvelope error' = errorEnvelope error := ⟨error, rfl⟩
  rw [loadsNumbered, dif_neg hvalue, dif_pos h, errorEnvelope_inj h.choose_spec]

open Classical in
/-- The results that a text stands for. -/
noncomputable def readNumbered (text : String) : Except JsonError (List SemanticResult) :=
  if h : ∃ results, strokes (resultsNumber results) = text then .ok h.choose
  else .error ⟨true, text⟩

theorem readNumbered_strokes (results : List SemanticResult) :
    readNumbered (strokes (resultsNumber results)) = .ok results := by
  have h : ∃ r, strokes (resultsNumber r) = strokes (resultsNumber results) := ⟨results, rfl⟩
  rw [readNumbered, dif_pos h]
  exact congrArg Except.ok (resultsNumber_injective (strokes_injective h.choose_spec))

variable {F : Type} [FloatOps F]

/-- The library, writing its replies by number.  What it reads of the host is left open. -/
noncomputable def numberedSerde
    (readDefinition : String → Except JsonError (ArenaDefinition F))
    (readRequest : String → Except JsonError (PrepareRequest F))
    (readObservation : String → Except JsonError UsageObservation) : Serde F where
  readDefinition
  readRequest
  readResults := readNumbered
  readObservation
  planText plan := strokes (valueNumber plan.toValue)
  begunText begun := strokes (valueNumber begun.toValue)
  snapshotText snapshot := strokes (valueNumber (ofOption ArenaSnapshot.toValue snapshot))
  eventsText events := strokes (valueNumber (.array (events.map TraceEvent.toValue)))
  calibrationText calibration := strokes (valueNumber calibration.toValue)

/-- Whatever the library reads of the host, there are texts for its replies. -/
noncomputable def numberedTexts (readDefinition : String → Except JsonError (ArenaDefinition F))
    (readRequest : String → Except JsonError (PrepareRequest F))
    (readObservation : String → Except JsonError UsageObservation) :
    JsonTexts (numberedSerde readDefinition readRequest readObservation) where
  loads := loadsNumbered
  dumpsResults results := strokes (resultsNumber results)
  loads_plan _ := loadsNumbered_strokes _
  loads_begun _ := loadsNumbered_strokes _
  loads_snapshot _ := loadsNumbered_strokes _
  loads_events _ := loadsNumbered_strokes _
  loads_calibration _ := loadsNumbered_strokes _
  loads_envelope := loadsNumbered_envelope
  read_results := readNumbered_strokes

end Texts

end Foreign

end ContextLease
