/-
Keys that are joined from fields.

The key of a calibration and the text that a semantic request id is a hash of join their fields
with NUL, which the fields may contain themselves.  Where a field has a NUL, the same key often
belongs to other fields as well, with the boundary between two fields at another NUL.  A key belongs
to no other fields where every other division leaves a field that is not valid: a blank one, a
provider with white space at its ends, an algorithm that is none, or a target that is no number.

Main definitions:

* `IsName` — what a provider is;
* `RequestFields`, with `RequestFields.key` — the fields of a semantic request;
* `ModelProfile.KeyIsOwn`, `RequestFields.KeyIsOwn` — the fields whose key no other fields have.

Main results:

* `calibrationKey_own_iff` — the models whose calibrations are merged with no others;
* `fingerprint_own_iff` — the requests whose key no other request has;
* `composite_keys_iff` — both of them.
-/

import ContextLease.RequestIds
import ContextLease.TextRuns
import Std.Data.String.ToInt

set_option relaxedAutoImplicit false
set_option autoImplicit false

namespace ContextLease

open MachineNumbers RustText

/-! ### Blank fields -/

/-- A text of white space only. -/
def Blank (text : List Char) : Prop := ∀ c ∈ text, isWhitespace c = true

theorem isBlank_eq_false {s : String} : isBlank s = false ↔ ¬ Blank s.toList := by
  rw [← Bool.not_eq_true, isBlank_iff, Blank]

/-- NUL is not white space. -/
theorem not_blank_of_nul {text : List Char} (h : '\x00' ∈ text) : ¬ Blank text := by
  intro hblank
  exact absurd (hblank _ h) (by decide)

/-! ### Calibrations -/

theorem toList_calibrationKey (model : ModelProfile) :
    (calibrationKey model).toList = model.modelProfileId.toList ++ '\x00' ::
      (model.tokenizerId.toList ++ '\x00' :: model.tokenizerVersion.toList) := by
  have hnul : ("\x00" : String).toList = ['\x00'] := by decide
  simp only [calibrationKey, calibrationKeyParts, String.toList_append, hnul, List.append_assoc,
    List.cons_append, List.nil_append]

/-- A valid model has no blank field in its key. -/
theorem validateModel_fields {model : ModelProfile} (h : validateModel model = .ok ()) :
    ¬ Blank model.modelProfileId.toList ∧ ¬ Blank model.tokenizerId.toList ∧
      ¬ Blank model.tokenizerVersion.toList := by
  simp only [validateModel, Except.bind_eq_ok, rejectIf_eq_ok, Bool.or_eq_false_iff] at h
  obtain ⟨-, ⟨⟨⟨⟨hmodel, -⟩, -⟩, htokenizer⟩, hversion⟩, -⟩ := h
  exact ⟨isBlank_eq_false.1 hmodel, isBlank_eq_false.1 htokenizer, isBlank_eq_false.1 hversion⟩

/-- A model with the same limits and other fields in its key. -/
def ModelProfile.rekey (model : ModelProfile) (profile tokenizer version : List Char) :
    ModelProfile :=
  { model with
    modelProfileId := String.ofList profile
    tokenizerId := String.ofList tokenizer
    tokenizerVersion := String.ofList version }

theorem ModelProfile.validate_rekey {model : ModelProfile} (h : validateModel model = .ok ())
    {profile tokenizer version : List Char} (hprofile : ¬ Blank profile)
    (htokenizer : ¬ Blank tokenizer) (hversion : ¬ Blank version) :
    validateModel (model.rekey profile tokenizer version) = .ok () := by
  have hsome {text : List Char} (htext : ¬ Blank text) : isBlank (String.ofList text) = false := by
    rw [isBlank_eq_false, String.toList_ofList]
    exact htext
  simp only [validateModel, Except.bind_eq_ok, rejectIf_eq_ok, Bool.or_eq_false_iff] at h ⊢
  obtain ⟨u, ⟨⟨⟨⟨-, hlimit⟩, hreserved⟩, -⟩, -⟩, hmode⟩ := h
  exact ⟨u, ⟨⟨⟨⟨hsome hprofile, hlimit⟩, hreserved⟩, hsome htokenizer⟩, hsome hversion⟩, hmode⟩

/-- The key of a model is no other valid model's: before a NUL of the profile id and of the
tokenizer id there is only white space, and after a NUL of the tokenizer id and of the version. -/
structure ModelProfile.KeyIsOwn (model : ModelProfile) : Prop where
  profile : ∀ before after, model.modelProfileId.toList = before ++ '\x00' :: after → Blank before
  tokenizer : ∀ before after, model.tokenizerId.toList = before ++ '\x00' :: after →
    Blank before ∧ Blank after
  version : ∀ before after, model.tokenizerVersion.toList = before ++ '\x00' :: after → Blank after

/-- The other model with the same key, if its fields are valid, has the same fields. -/
theorem ModelProfile.KeyIsOwn.fields_eq {a b c a' b' c' : List Char}
    (ha : ∀ before after, a = before ++ '\x00' :: after → Blank before)
    (hb : ∀ before after, b = before ++ '\x00' :: after → Blank before ∧ Blank after)
    (hc : ∀ before after, c = before ++ '\x00' :: after → Blank after)
    (ha' : ¬ Blank a') (hb' : ¬ Blank b') (hc' : ¬ Blank c')
    (h : a ++ '\x00' :: (b ++ '\x00' :: c) = a' ++ '\x00' :: (b' ++ '\x00' :: c')) :
    a = a' ∧ b = b' ∧ c = c' := by
  rcases Separated.split_cases h with ⟨rfl, hrest⟩ | ⟨u, rfl, hrest⟩ | ⟨u, rfl, -⟩
  · rcases Separated.split_cases hrest with ⟨rfl, rfl⟩ | ⟨u, -, rfl⟩ | ⟨u, rfl, -⟩
    · exact ⟨rfl, rfl, rfl⟩
    · exact absurd (hc _ _ rfl) hc'
    · exact absurd (hb _ _ rfl).1 hb'
  · -- the other profile id is longer
    rcases Separated.split_cases hrest with ⟨rfl, rfl⟩ | ⟨v, rfl, rfl⟩ | ⟨v, rfl, hlast⟩
    · exact absurd (hc _ _ rfl) hc'
    · refine absurd (hc (v ++ '\x00' :: b') c' ?_) hc'
      rw [List.append_assoc]
      rfl
    · rcases Separated.split_cases hlast with ⟨rfl, rfl⟩ | ⟨w, rfl, rfl⟩ | ⟨w, rfl, rfl⟩
      · exact absurd (hb _ _ rfl).2 hb'
      · exact absurd (hb _ _ rfl).2 (not_blank_of_nul (by simp))
      · exact absurd (hc _ _ rfl) hc'
  · exact absurd (ha _ _ rfl) ha'

/-- The key of a valid model is no other valid model's exactly on `KeyIsOwn`. -/
theorem calibrationKey_own_iff {model : ModelProfile} (h : validateModel model = .ok ()) :
    (∀ other, validateModel other = .ok () → calibrationKey other = calibrationKey model →
      other.modelProfileId = model.modelProfileId ∧ other.tokenizerId = model.tokenizerId ∧
        other.tokenizerVersion = model.tokenizerVersion) ↔ model.KeyIsOwn := by
  obtain ⟨hprofile, htokenizer, hversion⟩ := validateModel_fields h
  constructor
  · intro hown
    -- another division into fields that are not blank would be another model
    have hsame {a b c : List Char} (ha : ¬ Blank a) (hb : ¬ Blank b) (hc : ¬ Blank c)
        (hkey : a ++ '\x00' :: (b ++ '\x00' :: c) = (calibrationKey model).toList) :
        a = model.modelProfileId.toList ∧ b = model.tokenizerId.toList := by
      have hother := hown (model.rekey a b c) (ModelProfile.validate_rekey h ha hb hc) (by
        rw [← String.toList_inj, ← hkey, toList_calibrationKey]
        simp only [ModelProfile.rekey, String.toList_ofList])
      simp only [ModelProfile.rekey, ← String.toList_inj, String.toList_ofList] at hother
      exact ⟨hother.1, hother.2.1⟩
    rw [toList_calibrationKey] at hsame
    refine ⟨?_, ?_, ?_⟩
    · intro before after hfield
      by_contra hsolid
      have hother := (@hsame before (after ++ '\x00' :: model.tokenizerId.toList)
        model.tokenizerVersion.toList hsolid (not_blank_of_nul (by simp)) hversion (by
          simp [hfield])).1
      simp [hfield] at hother
    · intro before after hfield
      constructor
      · by_contra hsolid
        have hother := (@hsame model.modelProfileId.toList before
          (after ++ '\x00' :: model.tokenizerVersion.toList) hprofile hsolid
          (not_blank_of_nul (by simp)) (by simp [hfield])).2
        simp [hfield] at hother
      · by_contra hsolid
        have hother := (@hsame (model.modelProfileId.toList ++ '\x00' :: before) after
          model.tokenizerVersion.toList (not_blank_of_nul (by simp)) hsolid hversion (by
            simp [hfield])).1
        simp at hother
    · intro before after hfield
      by_contra hsolid
      have hother := (@hsame model.modelProfileId.toList
        (model.tokenizerId.toList ++ '\x00' :: before) after hprofile
        (not_blank_of_nul (by simp)) hsolid (by simp [hfield])).2
      simp at hother
  · intro hown other hother hkey
    obtain ⟨hprofile', htokenizer', hversion'⟩ := validateModel_fields hother
    rw [← String.toList_inj, toList_calibrationKey, toList_calibrationKey] at hkey
    obtain ⟨h₁, h₂, h₃⟩ := ModelProfile.KeyIsOwn.fields_eq hown.profile hown.tokenizer hown.version
      hprofile' htokenizer' hversion' hkey.symm
    exact ⟨String.toList_inj.1 h₁.symm, String.toList_inj.1 h₂.symm, String.toList_inj.1 h₃.symm⟩

/-! ### Providers -/

/-- What a provider is: not empty, and without white space at its ends. -/
structure IsName (text : List Char) : Prop where
  ne_nil : text ≠ []
  head : ∀ c ∈ text.head?, isWhitespace c = false
  last : ∀ c ∈ text.getLast?, isWhitespace c = false

theorem isName_trim {s : String} (h : trim s ≠ "") : IsName (trim s).toList where
  ne_nil := by rwa [ne_eq, String.toList_eq_nil_iff]
  head := by
    rw [trim, String.toList_ofList]
    exact TextRuns.head?_strip
  last := by
    rw [trim, String.toList_ofList]
    exact TextRuns.getLast?_strip

theorem IsName.trim_eq {s : String} (h : IsName s.toList) : trim s = s := by
  have hstrip : TextRuns.strip isWhitespace s.toList = s.toList :=
    TextRuns.strip_eq_self h.head h.last
  rw [TextRuns.strip] at hstrip
  rw [trim, hstrip, String.ofList_toList]

/-- The steps of an algorithm may be configured with any name as a provider, and with nothing
else. -/
theorem exists_stepProviders_iff {algorithmId provider : String} :
    (∃ step : CompressionStepSpec, step.algorithmId = algorithmId ∧
      provider ∈ stepProviders step) ↔ IsName provider.toList := by
  constructor
  · rintro ⟨step, -, hprovider⟩
    have hname (items : List String)
        (hmem : provider ∈ (items.map trim).filter fun item => !item.isEmpty) :
        IsName provider.toList := by
      obtain ⟨hitem, hsome⟩ := List.mem_filter.1 hmem
      obtain ⟨item, -, rfl⟩ := List.mem_map.1 hitem
      refine isName_trim ?_
      intro hnone
      rw [hnone] at hsome
      cases hsome
    rw [stepProviders] at hprovider
    split at hprovider
    · split at hprovider
      · exact hname _ hprovider
      · cases hprovider
    · split at hprovider
      · rename_i item _
        exact hname [item] hprovider
      · cases hprovider
  · intro hname
    have hsome : (!provider.isEmpty) = true := by
      rw [Bool.not_eq_true', Bool.eq_false_iff]
      intro hempty
      exact hname.ne_nil (String.toList_eq_nil_iff.2 (String.isEmpty_iff.1 hempty))
    have hget (key : String) (value : Value) : BTreeMap.get [(key, value)] key = some value := by
      simp [BTreeMap.get]
    have hkept : provider ∈ [trim provider].filter fun item => !item.isEmpty := by
      rw [hname.trim_eq]
      exact List.mem_filter.2 ⟨List.mem_singleton_self _, hsome⟩
    by_cases hportfolio : algorithmId = "builtin.semantic.portfolio.v1"
    · refine ⟨⟨algorithmId, [("providers", .array [.string provider])]⟩, rfl, ?_⟩
      rw [stepProviders, if_pos (by simpa using hportfolio), hget]
      exact hkept
    · refine ⟨⟨algorithmId, [("provider", .string provider)]⟩, rfl, ?_⟩
      rw [stepProviders, if_neg (by simpa using hportfolio), hget]
      exact hkept

/-! ### Semantic requests -/

/-- The fields of a semantic request, with one of some targets. -/
structure RequestFields (targets : ℤ → Prop) where
  moduleId : String
  algorithmId : String
  providerId : String
  targetTokens : ℤ
  requiredTerms : List String
  sourceText : String
  module_ok : isBlank moduleId = false
  algorithm_ok : isSemanticAlgorithm algorithmId = true
  provider_ok : ∃ step : CompressionStepSpec, step.algorithmId = algorithmId ∧
    providerId ∈ stepProviders step
  target_ok : targets targetTokens
  required_ok : ∃ terms, requiredTerms = btreeSet terms

section Requests

variable {targets : ℤ → Prop}

/-- The text that the id of the request is a hash of. -/
def RequestFields.key (x : RequestFields targets) : String :=
  fingerprint x.moduleId x.algorithmId x.providerId x.targetTokens x.requiredTerms x.sourceText

/-- The key of a request is no other request's: neither the text nor the one required term, which is
not empty, has a NUL; the provider is not a name, NUL and a target, alone or before a NUL; and
neither a part of the provider nor of the module id is an algorithm between two NULs such that what
is before and after it are valid. -/
structure RequestFields.KeyIsOwn (x : RequestFields targets) : Prop where
  text : '\x00' ∉ x.sourceText.toList
  required : ∃ term, x.requiredTerms = [term] ∧ term ≠ "" ∧ '\x00' ∉ term.toList
  provider_target : ∀ before target after, targets target → IsName before →
    x.providerId.toList ++ ['\x00'] ≠
      before ++ '\x00' :: ((toString target).toList ++ '\x00' :: after)
  provider_algorithm : ∀ before algorithm after, isSemanticAlgorithm algorithm = true →
    IsName after →
      '\x00' :: x.providerId.toList ≠ before ++ '\x00' :: (algorithm.toList ++ '\x00' :: after)
  module_algorithm : ∀ before algorithm after, isSemanticAlgorithm algorithm = true →
    ¬ Blank before →
      x.moduleId.toList ++ ['\x00'] = before ++ '\x00' :: (algorithm.toList ++ '\x00' :: after) →
        ∃ c ∈ after.head?, isWhitespace c = true

theorem RequestFields.eq_of_fields {x y : RequestFields targets} (hmodule : x.moduleId = y.moduleId)
    (halgorithm : x.algorithmId = y.algorithmId) (hprovider : x.providerId = y.providerId)
    (htarget : x.targetTokens = y.targetTokens) (hrequired : x.requiredTerms = y.requiredTerms)
    (htext : x.sourceText = y.sourceText) : x = y := by
  cases x
  cases y
  simp only at hmodule halgorithm hprovider htarget hrequired htext
  subst hmodule halgorithm hprovider htarget hrequired htext
  rfl

theorem RequestFields.toList_key (x : RequestFields targets) :
    x.key.toList = x.moduleId.toList ++ '\x00' :: (x.algorithmId.toList ++ '\x00' ::
      (x.providerId.toList ++ '\x00' :: ((toString x.targetTokens).toList ++ '\x00' ::
        (("\x00".intercalate x.requiredTerms).toList ++ '\x00' :: x.sourceText.toList)))) := by
  have hnul : ("\x00" : String).toList = ['\x00'] := by decide
  simp only [key, fingerprint, String.toList_append, hnul, List.append_assoc, List.cons_append,
    List.nil_append]

/-- Valid parts are the fields of a request. -/
theorem exists_requestFields {m p : List Char} {algorithm : String} {target : ℤ}
    (hm : ¬ Blank m) (hp : IsName p) (halgorithm : isSemanticAlgorithm algorithm = true)
    (htarget : targets target) {required : List String}
    (hrequired : ∃ terms, required = btreeSet terms) (text : List Char) :
    ∃ y : RequestFields targets, y.moduleId = String.ofList m ∧ y.algorithmId = algorithm ∧
      y.providerId = String.ofList p ∧ y.targetTokens = target ∧ y.requiredTerms = required ∧
      y.sourceText = String.ofList text := by
  have hmodule : isBlank (String.ofList m) = false := by
    rw [isBlank_eq_false, String.toList_ofList]
    exact hm
  have hprovider := (@exists_stepProviders_iff algorithm (String.ofList p)).2 (by
    rw [String.toList_ofList]
    exact hp)
  exact ⟨⟨_, _, _, _, _, String.ofList text, hmodule, halgorithm, hprovider, htarget, hrequired⟩,
    rfl, rfl, rfl, rfl, rfl, rfl⟩

/-- The ids of the semantic algorithms have no NUL and no white space. -/
theorem solid_of_semantic {algorithm : String} (h : isSemanticAlgorithm algorithm = true) :
    '\x00' ∉ algorithm.toList ∧ ∃ c rest, algorithm.toList = c :: rest ∧
      isWhitespace c = false := by
  rw [isSemanticAlgorithm, Bool.or_eq_true, beq_iff_eq, beq_iff_eq] at h
  rcases h with rfl | rfl
  · exact ⟨by decide +kernel, 'b', _, rfl, by decide⟩
  · exact ⟨by decide +kernel, 'b', _, rfl, by decide⟩

/-- A request whose key is its own shares the first fields with every other request whose first
fields it begins with, up to what follows them. -/
theorem RequestFields.KeyIsOwn.head_eq {x : RequestFields targets} (h : x.KeyIsOwn)
    {m rest : List Char} {algorithm : String} (hm : ¬ Blank m)
    (halgorithm : isSemanticAlgorithm algorithm = true) (hne : rest ≠ [])
    (hrest : ∀ c ∈ rest.head?, isWhitespace c = false)
    (heq : x.moduleId.toList ++ '\x00' :: (x.algorithmId.toList ++ '\x00' :: x.providerId.toList) =
      m ++ '\x00' :: (algorithm.toList ++ '\x00' :: rest)) :
    x.moduleId.toList = m ∧ x.algorithmId.toList = algorithm.toList ∧
      x.providerId.toList = rest := by
  have hname := exists_stepProviders_iff.1 x.provider_ok
  obtain ⟨hfree, -⟩ := solid_of_semantic x.algorithm_ok
  obtain ⟨hfree', -⟩ := solid_of_semantic halgorithm
  -- what ends the provider is a name, if it starts like one
  have hends (front : List Char) (hprovider : x.providerId.toList = front ++ rest) :
      IsName rest := by
    refine ⟨hne, hrest, ?_⟩
    have hlast := hname.last
    rwa [hprovider, List.getLast?_append_of_ne_nil _ hne] at hlast
  rcases Separated.split_cases heq with ⟨hmodule, hparts⟩ | ⟨u, -, hparts⟩ | ⟨u, hmodule, hparts⟩
  · exact ⟨hmodule, Separated.free_eq hfree hfree' hparts⟩
  · -- the other algorithm is a part of the provider
    rcases Separated.free_cases hfree hparts with ⟨-, hprovider⟩ | ⟨w, -, hprovider⟩
    · refine absurd ?_ (h.provider_algorithm [] algorithm rest halgorithm
        (hends (algorithm.toList ++ ['\x00']) (by simp [hprovider])))
      rw [hprovider]
      rfl
    · refine absurd ?_ (h.provider_algorithm ('\x00' :: w) algorithm rest halgorithm
        (hends (w ++ '\x00' :: (algorithm.toList ++ ['\x00'])) (by simp [hprovider])))
      rw [hprovider]
      rfl
  · -- the other algorithm is a part of the module id
    rcases Separated.free_cases hfree' hparts with ⟨rfl, -⟩ | ⟨w, rfl, hw⟩
    · obtain ⟨c, hc, -⟩ := h.module_algorithm m algorithm [] halgorithm hm (by simp [hmodule])
      cases hc
    · obtain ⟨c, hc, hspace⟩ := h.module_algorithm m algorithm (w ++ ['\x00']) halgorithm hm (by
        simp [hmodule])
      cases w with
      | nil =>
          obtain rfl : '\x00' = c := by simpa using hc
          exact absurd hspace (by decide)
      | cons d w =>
          obtain rfl : d = c := by simpa using hc
          rw [hrest d (by simp [hw])] at hspace
          cases hspace

/-- A target without NUL, required terms without NUL and a text without NUL are joined in one way
only. -/
theorem tail_eq {t r s t' r' s' : List Char} (ht : '\x00' ∉ t) (hr : '\x00' ∉ r)
    (hs : '\x00' ∉ s) (ht' : '\x00' ∉ t')
    (h : t ++ '\x00' :: (r ++ '\x00' :: s) = t' ++ '\x00' :: (r' ++ '\x00' :: s')) :
    t = t' ∧ r = r' ∧ s = s' := by
  obtain ⟨rfl, hrest⟩ := Separated.free_eq ht ht' h
  rcases Separated.free_cases hr hrest with hsame | ⟨u, -, rfl⟩
  · exact ⟨rfl, hsame⟩
  · exact absurd (by simp) hs

/-- Terms that are joined to one that is not empty and has no NUL are that one. -/
theorem eq_singleton_of_join {terms : List String} {term : String} (hne : term ≠ "")
    (hfree : '\x00' ∉ term.toList) (h : "\x00".intercalate terms = term) : terms = [term] := by
  cases terms with
  | nil => exact absurd h.symm hne
  | cons first terms =>
      cases terms with
      | nil =>
          rw [String.intercalate_singleton] at h
          rw [h]
      | cons second terms =>
          refine absurd ?_ hfree
          rw [← h, String.intercalate_cons_cons, String.toList_append, String.toList_append]
          exact List.mem_append_left _ (List.mem_append_right _ (by decide))

/-- A request whose key is its own shares it with no other request. -/
theorem RequestFields.KeyIsOwn.eq {x : RequestFields targets} (h : x.KeyIsOwn)
    {y : RequestFields targets} (hkey : y.key = x.key) : y = x := by
  obtain ⟨term, hrequired, hne, hfree⟩ := h.required
  have hjoined : "\x00".intercalate x.requiredTerms = term := by
    rw [hrequired, String.intercalate_singleton]
  have ht := nul_not_mem_toString x.targetTokens
  have ht' := nul_not_mem_toString y.targetTokens
  have hm' := isBlank_eq_false.1 y.module_ok
  have hname' := exists_stepProviders_iff.1 y.provider_ok
  have hlists := congrArg String.toList hkey.symm
  rw [toList_key, toList_key, hjoined] at hlists
  -- the first fields, and what follows them
  have hgroup : ∀ m a p r : List Char, m ++ '\x00' :: (a ++ '\x00' :: (p ++ '\x00' :: r)) =
      (m ++ '\x00' :: (a ++ '\x00' :: p)) ++ '\x00' :: r := by
    intro m a p r
    simp only [List.append_assoc, List.cons_append]
  rw [hgroup x.moduleId.toList, hgroup y.moduleId.toList] at hlists
  rcases Separated.split_cases hlists with ⟨hhead, htail⟩ | ⟨u, -, htail⟩ | ⟨u, hhead, htail⟩
  · obtain ⟨hmodule, halgorithm, hprovider⟩ :=
      h.head_eq hm' y.algorithm_ok hname'.ne_nil hname'.head hhead
    obtain ⟨htarget, hterms, htext⟩ := tail_eq ht hfree h.text ht' htail
    have hsame := eq_singleton_of_join hne hfree (String.toList_inj.1 hterms.symm)
    have hnumber : y.targetTokens = x.targetTokens := by
      refine Int.repr_injective ?_
      rw [← Int.toString_eq_repr, ← Int.toString_eq_repr]
      exact String.toList_inj.1 htarget.symm
    exact RequestFields.eq_of_fields (String.toList_inj.1 hmodule.symm)
      (String.toList_inj.1 halgorithm.symm) (String.toList_inj.1 hprovider.symm) hnumber
      (hsame.trans hrequired.symm) (String.toList_inj.1 htext.symm)
  · -- there are not enough fields left
    have hcount := congrArg (List.count '\x00') htail
    simp only [List.count_append, List.count_cons_self, List.count_eq_zero.2 ht,
      List.count_eq_zero.2 hfree, List.count_eq_zero.2 h.text] at hcount
    omega
  · -- the other request has its target within the first fields
    obtain ⟨z, hz⟩ : ∃ z, u ++ ['\x00'] = (toString y.targetTokens).toList ++ '\x00' :: z := by
      rcases Separated.free_cases ht' htail with ⟨rfl, -⟩ | ⟨v, rfl, -⟩
      · exact ⟨[], rfl⟩
      · exact ⟨v ++ ['\x00'], by simp⟩
    have hhead' : x.moduleId.toList ++ '\x00' :: (x.algorithmId.toList ++ '\x00' ::
        x.providerId.toList) = y.moduleId.toList ++ '\x00' :: (y.algorithmId.toList ++ '\x00' ::
          (y.providerId.toList ++ '\x00' :: u)) := by
      rw [hhead, hgroup y.moduleId.toList]
    have hstart : ∀ c ∈ (y.providerId.toList ++ '\x00' :: u).head?, isWhitespace c = false := by
      rw [List.head?_append_of_ne_nil _ hname'.ne_nil]
      exact hname'.head
    obtain ⟨-, -, hprovider⟩ := h.head_eq hm' y.algorithm_ok (by simp) hstart hhead'
    refine absurd ?_ (h.provider_target _ y.targetTokens z y.target_ok hname')
    rw [hprovider, ← hz]
    simp

/-- Another division of the key of a request into valid parts is the fields of another request, if
the key is not its own. -/
theorem RequestFields.parts_eq {x : RequestFields targets} (hown : ∀ y : RequestFields targets,
      y.key = x.key → y = x) {m p : List Char} {algorithm : String} {target : ℤ}
    {required : List String} (hm : ¬ Blank m) (hp : IsName p)
    (halgorithm : isSemanticAlgorithm algorithm = true) (htarget : targets target)
    (hrequired : ∃ terms, required = btreeSet terms) (text : List Char)
    (hkey : m ++ '\x00' :: (algorithm.toList ++ '\x00' :: (p ++ '\x00' ::
      ((toString target).toList ++ '\x00' :: (("\x00".intercalate required).toList ++
        '\x00' :: text)))) = x.key.toList) :
    x.moduleId.toList = m ∧ x.providerId.toList = p ∧ x.requiredTerms = required ∧
      x.sourceText.toList = text := by
  obtain ⟨y, hmodule, hsemantic, hprovider, hnumber, hterms, htext⟩ :=
    exists_requestFields hm hp halgorithm htarget hrequired text
  have hy : y = x := by
    refine hown y (String.toList_inj.1 ?_)
    rw [toList_key, hmodule, hsemantic, hprovider, hnumber, hterms, htext, String.toList_ofList,
      String.toList_ofList, String.toList_ofList]
    exact hkey
  rw [← hy, hmodule, hprovider, hterms, htext]
  exact ⟨String.toList_ofList, String.toList_ofList, rfl, String.toList_ofList⟩

/-- A list is not what follows its own elements. -/
theorem ne_append_cons {α : Type} (l front : List α) (a : α) : l ≠ front ++ a :: l := by
  intro h
  have hlength := congrArg List.length h
  simp only [List.length_append, List.length_cons] at hlength
  omega

/-- A single term is a set. -/
theorem exists_btreeSet_singleton (term : String) : ∃ terms, [term] = btreeSet terms :=
  ⟨[term], (btreeSet_singleton term).symm⟩

/-- The text of a request that shares its key with no other has no NUL. -/
theorem RequestFields.text_of_own {x : RequestFields targets}
    (hown : ∀ y : RequestFields targets, y.key = x.key → y = x) :
    '\x00' ∉ x.sourceText.toList := by
  intro hmem
  obtain ⟨u, v, htext⟩ := List.append_of_mem hmem
  have hparts := RequestFields.parts_eq hown (isBlank_eq_false.1 x.module_ok)
    (exists_stepProviders_iff.1 x.provider_ok) x.algorithm_ok x.target_ok
    (exists_btreeSet_singleton (String.ofList
      (("\x00".intercalate x.requiredTerms).toList ++ '\x00' :: u))) v (by
    rw [toList_key, htext, String.intercalate_singleton, String.toList_ofList]
    simp only [List.append_assoc, List.cons_append])
  exact ne_append_cons v u '\x00' (hparts.2.2.2.symm.trans htext)

/-- Its required terms are one that is not empty and has no NUL. -/
theorem RequestFields.required_of_own {x : RequestFields targets}
    (hown : ∀ y : RequestFields targets, y.key = x.key → y = x) :
    ∃ term, x.requiredTerms = [term] ∧ term ≠ "" ∧ '\x00' ∉ term.toList := by
  have hsame {required : List String} (hset : ∃ terms, required = btreeSet terms)
      (text : List Char) (hkey : ("\x00".intercalate required).toList ++ '\x00' :: text =
        ("\x00".intercalate x.requiredTerms).toList ++ '\x00' :: x.sourceText.toList) :
      x.requiredTerms = required ∧ x.sourceText.toList = text := by
    refine (RequestFields.parts_eq hown (isBlank_eq_false.1 x.module_ok)
      (exists_stepProviders_iff.1 x.provider_ok) x.algorithm_ok x.target_ok hset text ?_).2.2
    rw [toList_key, hkey]
  -- all terms in one would be another request
  have hjoined := (hsame (exists_btreeSet_singleton ("\x00".intercalate x.requiredTerms))
    x.sourceText.toList (by rw [String.intercalate_singleton])).1
  generalize "\x00".intercalate x.requiredTerms = term at hjoined
  refine ⟨term, hjoined, ?_, ?_⟩
  · rintro rfl
    have hnone := (hsame ⟨[], btreeSet_nil.symm⟩ x.sourceText.toList (by
      rw [hjoined]
      rfl)).1
    rw [hjoined] at hnone
    cases hnone
  · intro hmem
    obtain ⟨u, v, hterm⟩ := List.append_of_mem hmem
    have htext := (hsame (exists_btreeSet_singleton (String.ofList u))
      (v ++ '\x00' :: x.sourceText.toList) (by
        rw [hjoined, String.intercalate_singleton, String.intercalate_singleton,
          String.toList_ofList, hterm]
        simp only [List.append_assoc, List.cons_append])).2
    exact ne_append_cons _ v '\x00' htext

/-- Its provider is no name before NUL and a target. -/
theorem RequestFields.provider_target_of_own {x : RequestFields targets}
    (hown : ∀ y : RequestFields targets, y.key = x.key → y = x) {before : List Char} {target : ℤ}
    {after : List Char} (htarget : targets target) (hbefore : IsName before) :
    x.providerId.toList ++ ['\x00'] ≠
      before ++ '\x00' :: ((toString target).toList ++ '\x00' :: after) := by
  intro hprovider
  -- the rest of the provider, the target and the required terms would be one term
  have hother := (RequestFields.parts_eq hown (isBlank_eq_false.1 x.module_ok) hbefore
    x.algorithm_ok htarget
    (exists_btreeSet_singleton (String.ofList (after ++ ((toString x.targetTokens).toList ++
      '\x00' :: ("\x00".intercalate x.requiredTerms).toList))))
    x.sourceText.toList (by
      have hjoin := congrArg (· ++ ((toString x.targetTokens).toList ++ '\x00' ::
        (("\x00".intercalate x.requiredTerms).toList ++ '\x00' :: x.sourceText.toList))) hprovider
      simp only [List.append_assoc, List.cons_append, List.nil_append] at hjoin
      rw [toList_key, hjoin, String.intercalate_singleton, String.toList_ofList]
      simp only [List.append_assoc, List.cons_append])).2.1
  rw [hother] at hprovider
  simp at hprovider

/-- There is no algorithm in its provider with a name after it. -/
theorem RequestFields.provider_algorithm_of_own {x : RequestFields targets}
    (hown : ∀ y : RequestFields targets, y.key = x.key → y = x) {before after : List Char}
    {algorithm : String} (halgorithm : isSemanticAlgorithm algorithm = true)
    (hafter : IsName after) :
    '\x00' :: x.providerId.toList ≠ before ++ '\x00' :: (algorithm.toList ++ '\x00' :: after) := by
  intro hprovider
  -- what is before it would belong to the module id
  have hother := (RequestFields.parts_eq hown
    (m := x.moduleId.toList ++ '\x00' :: (x.algorithmId.toList ++ before))
    (not_blank_of_nul (by simp)) hafter halgorithm x.target_ok x.required_ok
    x.sourceText.toList (by
      have hjoin := congrArg (· ++ '\x00' :: ((toString x.targetTokens).toList ++ '\x00' ::
        (("\x00".intercalate x.requiredTerms).toList ++ '\x00' :: x.sourceText.toList))) hprovider
      simp only [List.append_assoc, List.cons_append] at hjoin
      rw [toList_key, hjoin]
      simp only [List.append_assoc, List.cons_append])).1
  simp at hother

/-- What follows an algorithm in its module id starts with white space, if what is before it is not
blank. -/
theorem RequestFields.module_algorithm_of_own {x : RequestFields targets}
    (hown : ∀ y : RequestFields targets, y.key = x.key → y = x) {before after : List Char}
    {algorithm : String} (halgorithm : isSemanticAlgorithm algorithm = true)
    (hbefore : ¬ Blank before)
    (hmodule : x.moduleId.toList ++ ['\x00'] =
      before ++ '\x00' :: (algorithm.toList ++ '\x00' :: after)) :
    ∃ c ∈ after.head?, isWhitespace c = true := by
  have hname := exists_stepProviders_iff.1 x.provider_ok
  by_contra hnone
  have hstart : ∀ c ∈ after.head?, isWhitespace c = false := by
    intro c hc
    rw [← Bool.not_eq_true]
    exact fun hspace => hnone ⟨c, hc, hspace⟩
  obtain ⟨-, d, rest, hd, hsolid⟩ := solid_of_semantic x.algorithm_ok
  -- what follows it, with the algorithm and the provider, would be a provider
  have hp : IsName (after ++ (x.algorithmId.toList ++ '\x00' :: x.providerId.toList)) := by
    refine ⟨by simp, ?_, ?_⟩
    · cases after with
      | nil =>
          rw [hd]
          intro c hc
          obtain rfl : d = c := by simpa using hc
          exact hsolid
      | cons e after => exact hstart
    · rw [← List.append_assoc, ← List.singleton_append, ← List.append_assoc,
        List.getLast?_append_of_ne_nil _ hname.ne_nil]
      exact hname.last
  have hother := (RequestFields.parts_eq hown hbefore hp halgorithm x.target_ok x.required_ok
    x.sourceText.toList (by
      have hjoin := congrArg (· ++ (x.algorithmId.toList ++ '\x00' :: (x.providerId.toList ++
        '\x00' :: ((toString x.targetTokens).toList ++ '\x00' ::
          (("\x00".intercalate x.requiredTerms).toList ++ '\x00' :: x.sourceText.toList)))))
            hmodule
      simp only [List.append_assoc, List.cons_append, List.nil_append] at hjoin
      rw [toList_key, hjoin]
      simp only [List.append_assoc, List.cons_append])).2.1
  have hlength := congrArg List.length hother
  simp only [List.length_append, List.length_cons] at hlength
  omega

/-- The requests whose key is no other request's. -/
theorem fingerprint_own_iff (x : RequestFields targets) :
    (∀ y : RequestFields targets, y.key = x.key → y = x) ↔ x.KeyIsOwn := by
  constructor
  · intro hown
    exact
      { text := RequestFields.text_of_own hown
        required := RequestFields.required_of_own hown
        provider_target := fun _ _ _ htarget hbefore =>
          RequestFields.provider_target_of_own hown htarget hbefore
        provider_algorithm := fun _ _ _ halgorithm hafter =>
          RequestFields.provider_algorithm_of_own hown halgorithm hafter
        module_algorithm := fun _ _ _ halgorithm hbefore hmodule =>
          RequestFields.module_algorithm_of_own hown halgorithm hbefore hmodule }
  · intro h y hkey
    exact h.eq hkey

end Requests

/-! ### Both keys -/

/-- A valid model is the only one whose calibrations are found under its key, and a request the only
one with its text to hash, exactly if every other division of the joined fields leaves a field that
is not valid. -/
theorem composite_keys_iff {model : ModelProfile} (h : validateModel model = .ok ())
    {targets : ℤ → Prop} (x : RequestFields targets) :
    ((∀ other, validateModel other = .ok () → calibrationKey other = calibrationKey model →
      other.modelProfileId = model.modelProfileId ∧ other.tokenizerId = model.tokenizerId ∧
        other.tokenizerVersion = model.tokenizerVersion) ↔ model.KeyIsOwn) ∧
    ((∀ y : RequestFields targets, y.key = x.key → y = x) ↔ x.KeyIsOwn) :=
  ⟨calibrationKey_own_iff h, fingerprint_own_iff x⟩

/-- A profile with a name for each of the fields in its key. -/
def namedModel (profile tokenizer version : String) : ModelProfile :=
  ⟨profile, 4096, 512, tokenizer, version, "estimated"⟩

/-- A request for a summary that has to keep one term. -/
def summaryRequest (term sourceText : String) : RequestFields Arith.release.Fits where
  moduleId := "history"
  algorithmId := "builtin.semantic.summary.v1"
  providerId := "summarizer"
  targetTokens := 64
  requiredTerms := [term]
  sourceText := sourceText
  module_ok := by decide +kernel
  algorithm_ok := by decide +kernel
  provider_ok := ⟨⟨_, [("provider", .string "summarizer")]⟩, rfl, by decide +kernel⟩
  target_ok := by decide
  required_ok := exists_btreeSet_singleton term

/-- A text without a NUL is not divided by one. -/
theorem not_divided {text before after : List Char} (h : '\x00' ∉ text) :
    text ≠ before ++ '\x00' :: after := by
  rintro rfl
  exact h (by simp)

/-- A text with one NUL is not divided by two. -/
theorem not_divided_twice {text before between after : List Char} (h : text.count '\x00' = 1) :
    text ≠ before ++ '\x00' :: (between ++ '\x00' :: after) := by
  rintro rfl
  simp only [List.count_append, List.count_cons_self] at h
  omega

/-- Fields without a NUL have a key of their own. -/
theorem composite_keys_iff_example :
    (∀ other, validateModel other = .ok () →
      calibrationKey other = calibrationKey (namedModel "small" "bpe" "1") →
        other.modelProfileId = "small" ∧ other.tokenizerId = "bpe" ∧
          other.tokenizerVersion = "1") ∧
    ∀ y : RequestFields Arith.release.Fits, y.key = (summaryRequest "Monday" "We met.").key →
      y = summaryRequest "Monday" "We met." := by
  have hkeys := @composite_keys_iff (namedModel "small" "bpe" "1") (by decide +kernel) _
    (summaryRequest "Monday" "We met.")
  refine ⟨hkeys.1.2 ⟨?_, ?_, ?_⟩, hkeys.2.2 ⟨by decide, ⟨"Monday", rfl, by decide, by decide⟩, ?_,
    ?_, ?_⟩⟩
  · exact fun before after h => absurd h (not_divided (by decide))
  · exact fun before after h => absurd h (not_divided (by decide))
  · exact fun before after h => absurd h (not_divided (by decide))
  · exact fun before target after _ _ => not_divided_twice (by decide)
  · exact fun before algorithm after _ _ => not_divided_twice (by decide)
  · exact fun before algorithm after _ _ h => absurd h (not_divided_twice (by decide))

/-- Two valid models share a key, and two requests the text that their ids are hashes of: the NUL in
the first field of the one is between the fields of the other. -/
theorem composite_keys_shared :
    (validateModel (namedModel "small\x00a" "bpe" "1") = .ok () ∧
      validateModel (namedModel "small" "a\x00bpe" "1") = .ok () ∧
      calibrationKey (namedModel "small\x00a" "bpe" "1") =
        calibrationKey (namedModel "small" "a\x00bpe" "1") ∧
      (namedModel "small\x00a" "bpe" "1").modelProfileId ≠
        (namedModel "small" "a\x00bpe" "1").modelProfileId) ∧
    (summaryRequest "Monday\x00noon" "We met.").key =
      (summaryRequest "Monday" "noon\x00We met.").key ∧
    (summaryRequest "Monday\x00noon" "We met.").sourceText ≠
      (summaryRequest "Monday" "noon\x00We met.").sourceText := by
  decide +kernel

end ContextLease
