/-
Selecting what fits.

Three algorithms of the package keep the parts of a content that fit into a target: the items of a
list by their priorities, the items of a list by their age, and the sentences of a text by their
scores.  Each looks at the parts in its own order, takes a part when it fits together with those
taken before, and keeps what it has taken in the order of the content.  The first part is taken
even when it does not fit.

Main definitions:

* `PythonItems`, `PythonSentences` — what the algorithms do with objects and with texts;
* `Host.prioritySelect`, `Host.recencySelect`, `Host.extractiveSentenceRank` — the algorithms;
* `Fitting` — a choice of places that takes what fits;
* `Uncountable` — a choice comes to an item that cannot be counted.

Main results:

* `select_fitsWith_iff`, `select_fitsWith_eq_error_iff` — what the loop of the three algorithms
  takes, and when it raises;
* `priority_selection_iff`, `recency_selection_iff`, `sentence_selection_iff` — what the algorithms
  return, and when they raise;
* `priority_selection_budget`, `recency_selection_budget` — what is kept is within the target, and
  nothing dropped would fit.
-/

import ContextLease.HostPipeline
import ContextLease.RankedSelection

set_option relaxedAutoImplicit false
set_option autoImplicit false

namespace ContextLease

open RustText RankedSelection

/-- What the selections do with objects.  The floats are numbers other than NaN. -/
structure PythonItems (O K : Type) extends Host.PythonObjects O where
  /-- The list that an object is, if it is one. -/
  asList : O → Option (List O)
  ofList : List O → O
  ofInt : ℤ → O
  /-- The dictionary that an object is, if it is one. -/
  asDict : O → Option (HashMap O)
  /-- `float(value)`, which may raise. -/
  float : O → Except Host.Raised K
  /-- `id(item)`. -/
  identity : O → ℕ

/-- What the ranking of sentences does with texts. -/
structure PythonSentences (K : Type) where
  /-- The pieces of `re.split` at white space behind a mark and at line ends, stripped, without the
  empty ones. -/
  sentences : String → List String
  /-- `re.findall(r"[\w]+", text)`. -/
  words : String → List String
  /-- `score / max(1, math.sqrt(length))`. -/
  weighed : ℤ → ℕ → K

namespace Host

variable {O K : Type}

/-! ### The loop -/

section Loop

variable (arrange : List (O × ℕ) → List (O × ℕ)) (count : List O → Except Raised ℤ) (target : ℤ)

/-- The test of the loops: an item fits together with those that are selected, when they are
arranged, or nothing is selected yet. -/
def fitsWith (selected : List (O × ℕ)) (pair : O × ℕ) : Except Raised Bool := do
  let tokens ← count ((arrange (selected ++ [pair])).map Prod.fst)
  return decide (tokens ≤ target) || selected.isEmpty

/-- The source's `sorted` for pairs of an item and its place; no two places are the same. -/
def byPlace (pairs : List (O × ℕ)) : List (O × ℕ) := pairs.insertionSort fun p q => p.2 ≤ q.2

end Loop

/-! ### The algorithms -/

variable [LinearOrder K]

/-- The order of the pairs of a key and a place. -/
def rankLe (e f : K × O × ℕ) : Prop := e.1 < f.1 ∨ e.1 = f.1 ∧ e.2.2 ≤ f.2.2

instance (e f : K × O × ℕ) : Decidable (rankLe e f) := inferInstanceAs (Decidable (_ ∨ _))

section Items

variable (py : PythonItems O K) (count : List O → Except Raised ℤ) (target : ℤ)

/-- The key of an item in `_priority_select`: `-float(item.get("priority", 0.0))` of a
dictionary. -/
def priorityKey [Zero K] [Neg K] (item : O) : Except Raised K :=
  match py.asDict item with
  | none => .ok 0
  | some entries =>
      match entries "priority" with
      | none => .ok (-0)
      | some value => (py.float value).map Neg.neg

/-- The source's `_priority_select` on a list: what is kept, and what is removed. -/
def selectByPriority [Zero K] [Neg K] (items : List O) : Except Raised (List O × List O) := do
  let keys ← items.mapM (priorityKey py)
  let ranked := ((keys.zip items.zipIdx).insertionSort rankLe).map Prod.snd
  let selected ← select (fitsWith byPlace count target) ranked []
  let selectedIds := selected.map Prod.snd
  return (itemsAt items fun i => selectedIds.contains i,
    itemsAt items fun i => !selectedIds.contains i)

/-- The test of `_recency_select`. -/
def fitsBefore (keptReversed : List O) (item : O) : Except Raised Bool := do
  let tokens ← count (keptReversed ++ [item]).reverse
  return decide (tokens ≤ target) || keptReversed.isEmpty

/-- The source's `_recency_select` on a list: what is kept, and what is removed. -/
def selectByRecency (items : List O) : Except Raised (List O × List O) := do
  let keptReversed ← select (fitsBefore count target) items.reverse []
  let kept := keptReversed.reverse
  let keptIds := kept.map py.identity
  return (kept, items.filter fun item => !keptIds.contains (py.identity item))

/-- An algorithm on a list, as a function of a request. -/
def onList (request : CompressionRequest O) (selection : String)
    (algorithm : List O → Except Raised (List O × List O)) :
    Except Raised (O × List O × HashMap O) :=
  match py.asList request.content with
  | none => .ok (request.content, [], HashMap.empty.insert "status" (py.ofText "unsupported_type"))
  | some items => do
      let (kept, removed) ← algorithm items
      return (py.ofList kept, removed, HashMap.empty.insert "selection" (py.ofText selection))

/-- The source's `_priority_select`. -/
def prioritySelect [Zero K] [Neg K] (request : CompressionRequest O) :
    Except Raised (O × List O × HashMap O) :=
  onList py request "priority"
    (selectByPriority py (fun items => request.countContent (py.ofList items))
      request.targetTokens)

/-- The source's `_recency_select`. -/
def recencySelect (request : CompressionRequest O) : Except Raised (O × List O × HashMap O) :=
  onList py request "recency"
    (selectByRecency py (fun items => request.countContent (py.ofList items))
      request.targetTokens)

end Items

section Sentences

variable (text : PythonSentences K) (casefold : String → String)

/-- The words whose frequencies count: those of more than two characters. -/
def frequentWords (content : String) : List String :=
  (text.words (casefold content)).filter fun word => decide (2 < word.length)

/-- The score of a sentence. -/
def sentenceScore (content : String) (requiredTerms : List String) (sentence : String) : K :=
  let folded := casefold sentence
  let frequencies := (text.words folded).map fun word =>
    (frequentWords text casefold content).count word
  let required := requiredTerms.filter fun term => contains folded (casefold term)
  text.weighed (frequencies.sum + 1000 * required.length) sentence.length

/-- The source's `" ".join`. -/
def joinSentences (sentences : List String) : String := String.intercalate " " sentences

variable (countText : String → Except Raised ℤ) (target : ℤ)

/-- The source's `_extractive_sentence_rank` on a text: what is kept, what is removed, and the
numbers of the sentences and of those selected. -/
def selectSentencesByScore (content : String) (requiredTerms : List String) :
    Except Raised (String × List String × ℕ × ℕ) := do
  let sentences := text.sentences content
  let keys := sentences.map (sentenceScore text casefold content requiredTerms)
  -- sorted backwards, so the highest score comes first, and of equal ones the last sentence
  let ranked := ((keys.zip sentences.zipIdx).insertionSort fun e f => rankLe f e).map Prod.snd
  let count := fun sentences => countText (joinSentences sentences)
  let selected ← select (fitsWith byPlace count target) ranked []
  let selectedIndices := selected.map Prod.snd
  return (joinSentences ((byPlace selected).map Prod.fst),
    itemsAt sentences fun i => !selectedIndices.contains i, sentences.length, selected.length)

/-- The source's `_extractive_sentence_rank`, with the counter's `count_text`. -/
def extractiveSentenceRank {K' : Type} (py : PythonItems O K') (request : CompressionRequest O) :
    Except Raised (O × List O × HashMap O) :=
  match py.asText request.content with
  | none => .ok (request.content, [], HashMap.empty.insert "status" (py.ofText "unsupported_type"))
  | some content => do
      let (result, removed, sentences, selected) ← selectSentencesByScore text py.casefold
        countText request.targetTokens content request.requiredTerms
      return (py.ofText result, removed.map py.ofText,
        (HashMap.empty.insert "sentences" (py.ofInt sentences)).insert "selected"
          (py.ofInt selected))

end Sentences

end Host

open Host

/-! ### What fits -/

section Fitting

variable {O : Type}

/-- The items that a choice takes before an item, and the item. -/
def upTo (items : List O) (precedes : ℕ → ℕ → Bool) (chosen : ℕ → Bool) (i : ℕ) : List O :=
  itemsAt items fun j => j == i || chosen j && precedes j i

/-- A choice does with an item what the loop does: the item is chosen when it fits together with
those chosen among the items that precede it, or none of them is chosen. -/
def FittingAt (count : List O → Except Raised ℤ) (target : ℤ) (items : List O)
    (precedes : ℕ → ℕ → Bool) (chosen : ℕ → Bool) (i : ℕ) : Prop :=
  ∃ tokens, count (upTo items precedes chosen i) = .ok tokens ∧
    (chosen i = true ↔
      tokens ≤ target ∨ ∀ j < items.length, precedes j i = true → chosen j = false)

/-- A choice of places that takes what fits. -/
def Fitting (count : List O → Except Raised ℤ) (target : ℤ) (items : List O)
    (precedes : ℕ → ℕ → Bool) (chosen : ℕ → Bool) : Prop :=
  ∀ i < items.length, FittingAt count target items precedes chosen i

/-- After a choice of what fits among the items that precede it, an item cannot be counted with
them. -/
def Uncountable (count : List O → Except Raised ℤ) (target : ℤ) (items : List O)
    (precedes : ℕ → ℕ → Bool) : Prop :=
  ∃ chosen, ∃ i < items.length,
    (∀ j < items.length, precedes j i = true → FittingAt count target items precedes chosen j) ∧
      ∃ e, count (upTo items precedes chosen i) = .error e

/-- The items of a list in the order in which they are looked at. -/
structure Ranked (items : List O) (precedes : ℕ → ℕ → Bool) (ranked : List (O × ℕ)) : Prop where
  perm : ranked.Perm items.zipIdx
  sorted : ranked.Pairwise fun p q => precedes p.2 q.2 = true
  asymm : ∀ i j, precedes i j = true → precedes j i = false

/-- An arrangement of the pairs that can be selected, by their places. -/
def Arranges (arrange : List (O × ℕ) → List (O × ℕ)) (ranked : List (O × ℕ)) : Prop :=
  ∀ l, l.Sublist ranked → (arrange l).Perm l ∧ (arrange l).Pairwise fun p q => p.2 ≤ q.2

variable {count : List O → Except Raised ℤ} {target : ℤ} {items : List O}
  {precedes : ℕ → ℕ → Bool} {ranked : List (O × ℕ)} {chosen : ℕ → Bool}
  {arrange : List (O × ℕ) → List (O × ℕ)}

theorem Ranked.nodup (h : Ranked items precedes ranked) : (ranked.map Prod.snd).Nodup := by
  rw [(h.perm.map Prod.snd).nodup_iff, List.zipIdx_map_snd]
  exact List.nodup_range'

theorem Ranked.mem (h : Ranked items precedes ranked) {i : ℕ} (hi : i < items.length) :
    (items[i], i) ∈ ranked :=
  h.perm.mem_iff.2 (List.mem_zipIdx_iff_getElem?.2 (List.getElem?_eq_getElem hi))

theorem fitsWith_eq_ok_iff {selected : List (O × ℕ)} {p : O × ℕ} {b : Bool} :
    fitsWith arrange count target selected p = .ok b ↔
      ∃ tokens, count ((arrange (selected ++ [p])).map Prod.fst) = .ok tokens ∧
        (b = true ↔ tokens ≤ target ∨ selected = []) := by
  rw [fitsWith, Except.bind_eq_ok]
  refine exists_congr fun tokens => and_congr_right fun _ => ?_
  have htest : (decide (tokens ≤ target) || selected.isEmpty) = true ↔
      tokens ≤ target ∨ selected = [] := by
    rw [Bool.or_eq_true, decide_eq_true_iff, List.isEmpty_iff]
  rw [← htest, ← Bool.eq_iff_iff]
  exact ⟨fun h => (Except.ok.inj h).symm, fun h => congrArg Except.ok h.symm⟩

theorem fitsWith_eq_error_iff {selected : List (O × ℕ)} {p : O × ℕ} :
    (∃ e, fitsWith arrange count target selected p = .error e) ↔
      ∃ e, count ((arrange (selected ++ [p])).map Prod.fst) = .error e := by
  rw [fitsWith]
  cases count ((arrange (selected ++ [p])).map Prod.fst) with
  | error e => exact iff_of_true ⟨e, rfl⟩ ⟨e, rfl⟩
  | ok tokens => exact iff_of_false (fun ⟨e, h⟩ => by cases h) (fun ⟨e, h⟩ => by cases h)

/-- The items before an item are those that precede it. -/
theorem Ranked.mem_before_iff (h : Ranked items precedes ranked) {before after : List (O × ℕ)}
    {p : O × ℕ} (hsplit : ranked = before ++ p :: after) {j : ℕ} (hj : j < items.length) :
    (items[j], j) ∈ before ↔ precedes j p.2 = true := by
  have hpairs := h.sorted
  rw [hsplit, List.pairwise_append, List.pairwise_cons] at hpairs
  refine ⟨fun hbefore => hpairs.2.2 _ hbefore p (List.mem_cons_self ..), fun hprecedes => ?_⟩
  have hmem := h.mem hj
  rw [hsplit, List.mem_append, List.mem_cons] at hmem
  rcases hmem with hbefore | rfl | hafter
  · exact hbefore
  · rw [h.asymm _ _ hprecedes] at hprecedes
    cases hprecedes
  · have hlater := hpairs.2.1.1 _ hafter
    rw [h.asymm _ _ hlater] at hprecedes
    cases hprecedes

/-- The pairs that a choice has taken before an item, and the item. -/
theorem Ranked.filter_split (h : Ranked items precedes ranked) {before after : List (O × ℕ)}
    {p : O × ℕ} (hsplit : ranked = before ++ p :: after) (chosen : ℕ → Bool) :
    (ranked.filter fun q => q.2 == p.2 || chosen q.2 && precedes q.2 p.2) =
      (before.filter fun q => chosen q.2) ++ [p] := by
  have hsorted := h.sorted
  rw [hsplit, List.pairwise_append, List.pairwise_cons] at hsorted
  obtain ⟨-, ⟨hlater, -⟩, hearlier⟩ := hsorted
  have hirrefl : precedes p.2 p.2 = false := by
    by_contra htrue
    rw [Bool.not_eq_false] at htrue
    rw [h.asymm _ _ htrue] at htrue
    cases htrue
  have hbefore : (before.filter fun q => q.2 == p.2 || chosen q.2 && precedes q.2 p.2) =
      before.filter fun q => chosen q.2 := by
    refine List.filter_congr ?_
    intro q hq
    have hprecedes := hearlier q hq p (List.mem_cons_self ..)
    have hne : (q.2 == p.2) = false := by
      rw [beq_eq_false_iff_ne]
      intro heq
      rw [heq, hirrefl] at hprecedes
      cases hprecedes
    rw [hne, hprecedes, Bool.false_or, Bool.and_true]
  have hafter : (after.filter fun q => q.2 == p.2 || chosen q.2 && precedes q.2 p.2) = [] := by
    rw [List.filter_eq_nil_iff]
    intro q hq
    have hprecedes := hlater q hq
    have hne : (q.2 == p.2) = false := by
      rw [beq_eq_false_iff_ne]
      intro heq
      rw [heq, hirrefl] at hprecedes
      cases hprecedes
    rw [hne, h.asymm _ _ hprecedes, Bool.and_false, Bool.or_false]
    exact Bool.false_ne_true
  rw [hsplit, List.filter_append, hbefore, List.filter_cons_of_pos (by simp), hafter]

/-- The items that a choice has taken before an item, and the item, as they are arranged. -/
theorem Ranked.arranged_eq (h : Ranked items precedes ranked) (harrange : Arranges arrange ranked)
    {before after : List (O × ℕ)} {p : O × ℕ} (hsplit : ranked = before ++ p :: after) :
    (arrange ((before.filter fun q => chosen q.2) ++ [p])).map Prod.fst =
      upTo items precedes chosen p.2 := by
  have htaken := h.filter_split hsplit chosen
  have hsublist : ((before.filter fun q => chosen q.2) ++ [p]).Sublist ranked :=
    htaken ▸ List.filter_sublist
  obtain ⟨hperm, hsorted⟩ := harrange _ hsublist
  have hplaces : ((before.filter fun q => chosen q.2) ++ [p]).Perm
      (items.zipIdx.filter fun q => q.2 == p.2 || chosen q.2 && precedes q.2 p.2) := by
    rw [← htaken]
    exact h.perm.filter _
  exact map_fst_eq_itemsAt (fun j => j == p.2 || chosen j && precedes j p.2) hplaces hperm hsorted

/-- The place of a pair is one of the list. -/
theorem Ranked.place_lt (h : Ranked items precedes ranked) {p : O × ℕ} (hp : p ∈ ranked) :
    p.2 < items.length := by
  have hlt := List.snd_lt_of_mem_zipIdx (h.perm.mem_iff.1 hp)
  omega

/-- What the test says of an item after those that a choice has taken before it. -/
theorem Ranked.fitsWith_iff (h : Ranked items precedes ranked) (harrange : Arranges arrange ranked)
    {before after : List (O × ℕ)} {p : O × ℕ} (hsplit : ranked = before ++ p :: after) :
    fitsWith arrange count target (before.filter fun q => chosen q.2) p = .ok (chosen p.2) ↔
      FittingAt count target items precedes chosen p.2 := by
  have hempty : (before.filter fun q => chosen q.2) = [] ↔
      ∀ j < items.length, precedes j p.2 = true → chosen j = false := by
    rw [List.filter_eq_nil_iff]
    constructor
    · intro hnone j hj hprecedes
      exact Bool.eq_false_iff.2 (hnone _ ((h.mem_before_iff hsplit hj).2 hprecedes))
    · intro hnone q hq
      have hlt := h.place_lt (hsplit ▸ List.mem_append_left _ hq)
      have hpairs := h.sorted
      rw [hsplit, List.pairwise_append] at hpairs
      rw [hnone q.2 hlt (hpairs.2.2 q hq p (List.mem_cons_self ..))]
      exact Bool.false_ne_true
  rw [fitsWith_eq_ok_iff, h.arranged_eq harrange hsplit, hempty, FittingAt]

/-- A choice that agrees with the test takes what fits. -/
theorem Ranked.selects_iff (h : Ranked items precedes ranked) (harrange : Arranges arrange ranked) :
    Selects (fitsWith arrange count target) [] ranked (fun p => chosen p.2) ↔
      Fitting count target items precedes chosen := by
  constructor
  · intro hselects i hi
    obtain ⟨before, after, hsplit⟩ := List.append_of_mem (h.mem hi)
    exact (h.fitsWith_iff harrange hsplit).1 (hselects before _ after hsplit)
  · intro hfitting before p after hsplit
    rw [List.nil_append]
    have hlt := h.place_lt (hsplit ▸ List.mem_append_right _ (List.mem_cons_self ..))
    exact (h.fitsWith_iff harrange hsplit).2 (hfitting p.2 hlt)

/-- What the loop takes. -/
theorem select_fitsWith_iff (h : Ranked items precedes ranked) (harrange : Arranges arrange ranked)
    {selected : List (O × ℕ)} :
    select (fitsWith arrange count target) ranked [] = .ok selected ↔
      ∃ chosen, Fitting count target items precedes chosen ∧
        selected = ranked.filter fun p => chosen p.2 := by
  rw [select_eq_ok_iff h.nodup]
  exact exists_congr fun chosen => and_congr_left fun _ => h.selects_iff harrange

/-- What the loop takes before an item. -/
theorem Ranked.selects_before_iff (h : Ranked items precedes ranked)
    (harrange : Arranges arrange ranked) {before after : List (O × ℕ)} {p : O × ℕ}
    (hsplit : ranked = before ++ p :: after) :
    Selects (fitsWith arrange count target) [] before (fun q => chosen q.2) ↔
      ∀ j < items.length, precedes j p.2 = true →
        FittingAt count target items precedes chosen j := by
  constructor
  · intro hselects j hj hprecedes
    obtain ⟨earlier, later, hplace⟩ := List.append_of_mem ((h.mem_before_iff hsplit hj).2 hprecedes)
    have hwhole : ranked = earlier ++ (items[j], j) :: (later ++ p :: after) := by
      rw [hsplit, hplace, List.append_assoc, List.cons_append]
    exact (h.fitsWith_iff harrange hwhole).1 (hselects earlier _ later hplace)
  · intro hfitting earlier q later hplace
    have hwhole : ranked = earlier ++ q :: (later ++ p :: after) := by
      rw [hsplit, hplace, List.append_assoc, List.cons_append]
    have hpairs := h.sorted
    rw [hsplit, List.pairwise_append] at hpairs
    rw [List.nil_append]
    refine (h.fitsWith_iff harrange hwhole).2 (hfitting q.2 (h.place_lt ?_) ?_)
    · rw [hwhole]
      exact List.mem_append_right _ (List.mem_cons_self ..)
    · refine hpairs.2.2 q ?_ p (List.mem_cons_self ..)
      rw [hplace]
      exact List.mem_append_right _ (List.mem_cons_self ..)

/-- When the loop raises. -/
theorem select_fitsWith_eq_error_iff (h : Ranked items precedes ranked)
    (harrange : Arranges arrange ranked) :
    (∃ e, select (fitsWith arrange count target) ranked [] = .error e) ↔
      Uncountable count target items precedes := by
  rw [select_eq_error_iff]
  constructor
  · rintro ⟨before, p, after, taken, hsplit, htaken, hraises⟩
    have hnodup := h.nodup
    rw [hsplit, List.map_append] at hnodup
    obtain ⟨chosen, hselects, rfl⟩ :=
      (select_eq_ok_iff (List.nodup_append.1 hnodup).1).1 htaken
    refine ⟨chosen, p.2, h.place_lt (hsplit ▸ List.mem_append_right _ (List.mem_cons_self ..)),
      (h.selects_before_iff harrange hsplit).1 hselects, ?_⟩
    rw [← h.arranged_eq harrange hsplit]
    exact fitsWith_eq_error_iff.1 hraises
  · rintro ⟨chosen, i, hi, hfitting, hraises⟩
    obtain ⟨before, after, hsplit⟩ := List.append_of_mem (h.mem hi)
    have hselects := (h.selects_before_iff harrange hsplit).2 hfitting
    refine ⟨before, _, after, _, hsplit, select_of_selects hselects, fitsWith_eq_error_iff.2 ?_⟩
    rw [List.nil_append, h.arranged_eq harrange hsplit]
    exact hraises

/-- The places of the pairs that a choice selects are those of the choice. -/
theorem Ranked.contains_eq (h : Ranked items precedes ranked) (chosen : ℕ → Bool) :
    ∀ i < items.length,
      ((ranked.filter fun p => chosen p.2).map Prod.snd).contains i = chosen i := by
  intro i hi
  rw [Bool.eq_iff_iff, List.contains_iff_mem, List.mem_map]
  constructor
  · rintro ⟨p, hp, rfl⟩
    exact (List.mem_filter.1 hp).2
  · intro hchosen
    exact ⟨_, List.mem_filter.2 ⟨h.mem hi, hchosen⟩, rfl⟩

theorem byPlace_perm (l : List (O × ℕ)) : (byPlace l).Perm l := List.perm_insertionSort _ l

theorem pairwise_byPlace (l : List (O × ℕ)) : (byPlace l).Pairwise fun p q => p.2 ≤ q.2 := by
  have htotal : Std.Total fun p q : O × ℕ => p.2 ≤ q.2 := ⟨fun p q => le_total p.2 q.2⟩
  have htrans : IsTrans (O × ℕ) fun p q => p.2 ≤ q.2 := ⟨fun _ _ _ => le_trans⟩
  exact List.pairwise_insertionSort _ l

theorem arranges_byPlace (ranked : List (O × ℕ)) : Arranges byPlace ranked :=
  fun l _ => ⟨byPlace_perm l, pairwise_byPlace l⟩

end Fitting

/-! ### The order of the keys -/

section Keys

variable {O K : Type} [LinearOrder K]

/-- The order of the places of items with keys: the least key comes first, and of equal keys the
first place. -/
def ranksBefore (keys : List K) (j i : ℕ) : Bool :=
  match keys[j]?, keys[i]? with
  | some a, some b => decide (a < b ∨ a = b ∧ j < i)
  | _, _ => false

theorem ranksBefore_asymm (keys : List K) (i j : ℕ) (h : ranksBefore keys i j = true) :
    ranksBefore keys j i = false := by
  rw [ranksBefore] at h ⊢
  cases hi : keys[i]? with
  | none =>
      rw [hi] at h
      cases h
  | some a =>
      cases hj : keys[j]? with
      | none => rfl
      | some b =>
          rw [hi, hj] at h
          simp only [decide_eq_true_eq] at h
          simp only [decide_eq_false_iff_not]
          rcases h with hlt | ⟨rfl, hlt⟩
          · rintro (hgt | ⟨rfl, -⟩)
            · exact lt_asymm hlt hgt
            · exact lt_irrefl _ hlt
          · rintro (hgt | ⟨-, hgt⟩)
            · exact lt_irrefl _ hgt
            · omega

theorem ranksBefore_of_rankLe {keys : List K} {e f : K × O × ℕ}
    (he : keys[e.2.2]? = some e.1) (hf : keys[f.2.2]? = some f.1) (hne : e.2.2 ≠ f.2.2)
    (hle : rankLe e f) : ranksBefore keys e.2.2 f.2.2 = true := by
  rw [ranksBefore, he, hf]
  simp only [decide_eq_true_eq]
  refine hle.imp_right ?_
  rintro ⟨heq, hplace⟩
  exact ⟨heq, by omega⟩

instance : Std.Total (rankLe : K × O × ℕ → K × O × ℕ → Prop) where
  total e f := by
    rcases lt_trichotomy e.1 f.1 with hlt | heq | hgt
    · exact Or.inl (Or.inl hlt)
    · rcases le_total e.2.2 f.2.2 with hle | hle
      · exact Or.inl (Or.inr ⟨heq, hle⟩)
      · exact Or.inr (Or.inr ⟨heq.symm, hle⟩)
    · exact Or.inr (Or.inl hgt)

instance : IsTrans (K × O × ℕ) rankLe where
  trans e f g hef hfg := by
    rcases hef with hlt | ⟨heq, hle⟩
    · rcases hfg with hlt' | ⟨heq', -⟩
      · exact Or.inl (hlt.trans hlt')
      · exact Or.inl (heq' ▸ hlt)
    · rcases hfg with hlt' | ⟨heq', hle'⟩
      · exact Or.inl (heq ▸ hlt')
      · exact Or.inr ⟨heq.trans heq', hle.trans hle'⟩

section Zip

variable {keys : List K} {items : List O} (hlength : keys.length = items.length)

include hlength

omit [LinearOrder K] in
theorem map_snd_zip_zipIdx : (keys.zip items.zipIdx).map Prod.snd = items.zipIdx :=
  List.map_snd_zip (by rw [List.length_zipIdx, hlength])

omit hlength [LinearOrder K] in
theorem getElem?_of_mem_zip {e : K × O × ℕ} (he : e ∈ keys.zip items.zipIdx) :
    keys[e.2.2]? = some e.1 := by
  obtain ⟨i, hi, rfl⟩ := List.getElem_of_mem he
  simp only [List.getElem_zip, List.getElem_zipIdx, Nat.zero_add]
  exact List.getElem?_eq_getElem _

omit [LinearOrder K] in
/-- Items sorted by a relation of their keys and places. -/
theorem ranked_of_sorted {r : K × O × ℕ → K × O × ℕ → Prop} {precedes : ℕ → ℕ → Bool}
    {sorted : List (K × O × ℕ)} (hperm : sorted.Perm (keys.zip items.zipIdx))
    (hsorted : sorted.Pairwise r)
    (hprecedes : ∀ e ∈ keys.zip items.zipIdx, ∀ f ∈ keys.zip items.zipIdx, e.2.2 ≠ f.2.2 →
      r e f → precedes e.2.2 f.2.2 = true)
    (hasymm : ∀ i j, precedes i j = true → precedes j i = false) :
    Ranked items precedes (sorted.map Prod.snd) where
  perm := by
    have hpairs := hperm.map Prod.snd
    rwa [map_snd_zip_zipIdx hlength] at hpairs
  sorted := by
    have hplaces : (sorted.map fun e => e.2.2).Nodup := by
      have hnodup := ((hperm.map Prod.snd).map Prod.snd).nodup_iff
      rw [map_snd_zip_zipIdx hlength, List.zipIdx_map_snd, List.map_map] at hnodup
      exact hnodup.2 List.nodup_range'
    rw [List.Nodup, List.pairwise_map] at hplaces
    rw [List.pairwise_map]
    refine List.Pairwise.imp_of_mem ?_ (hsorted.and hplaces)
    intro e f he hf hboth
    exact hprecedes e (hperm.mem_iff.1 he) f (hperm.mem_iff.1 hf) hboth.2 hboth.1
  asymm := hasymm

theorem ranked_by_key :
    Ranked items (ranksBefore keys)
      (((keys.zip items.zipIdx).insertionSort rankLe).map Prod.snd) := by
  refine ranked_of_sorted hlength (List.perm_insertionSort _ _) (List.pairwise_insertionSort _ _)
    ?_ (ranksBefore_asymm keys)
  intro e he f hf hne hle
  exact ranksBefore_of_rankLe (getElem?_of_mem_zip he) (getElem?_of_mem_zip hf) hne hle

theorem ranked_by_key_backwards :
    Ranked items (fun j i => ranksBefore keys i j)
      (((keys.zip items.zipIdx).insertionSort fun e f => rankLe f e).map Prod.snd) := by
  have htotal : Std.Total fun e f : K × O × ℕ => rankLe f e :=
    ⟨fun e f => Std.Total.total f e⟩
  have htrans : IsTrans (K × O × ℕ) fun e f => rankLe f e :=
    ⟨fun e f g hef hfg => IsTrans.trans g f e hfg hef⟩
  refine ranked_of_sorted hlength (List.perm_insertionSort _ _) (List.pairwise_insertionSort _ _)
    ?_ fun i j => ranksBefore_asymm keys j i
  intro e he f hf hne hle
  exact ranksBefore_of_rankLe (getElem?_of_mem_zip hf) (getElem?_of_mem_zip he) hne.symm hle

end Zip

end Keys

/-! ### What the algorithms return -/

section Items

variable {O K : Type} [LinearOrder K] (py : PythonItems O K) (count : List O → Except Raised ℤ)
  (target : ℤ) (items : List O)

theorem length_of_mapM {α β : Type} {f : α → Except Raised β} {l : List α} {l' : List β}
    (h : l.mapM f = .ok l') : l'.length = l.length := by
  induction l generalizing l' with
  | nil =>
      obtain rfl := Except.ok.inj h
      rfl
  | cons a l ih =>
      rw [List.mapM_cons] at h
      cases hfirst : f a with
      | error e =>
          rw [hfirst] at h
          cases h
      | ok b =>
          cases hrest : l.mapM f with
          | error e =>
              rw [hfirst, hrest] at h
              cases h
          | ok rest =>
              rw [hfirst, hrest] at h
              obtain rfl := Except.ok.inj h
              rw [List.length_cons, List.length_cons, ih hrest]

/-- A list of values that may raise raises exactly if one of them does. -/
theorem mapM_eq_error_iff {α β : Type} {f : α → Except Raised β} {l : List α} :
    (∃ e, l.mapM f = .error e) ↔ ∃ a ∈ l, ∃ e, f a = .error e := by
  induction l with
  | nil =>
      refine iff_of_false ?_ ?_
      · rintro ⟨e, h⟩
        cases h
      · rintro ⟨a, ha, -⟩
        cases ha
  | cons a l ih =>
      rw [List.mapM_cons, List.exists_mem_cons_iff, ← ih]
      cases hfirst : f a with
      | error e => exact iff_of_true ⟨e, rfl⟩ (Or.inl ⟨e, rfl⟩)
      | ok b =>
          cases hrest : l.mapM f with
          | error e => exact iff_of_true ⟨e, rfl⟩ (Or.inr ⟨e, rfl⟩)
          | ok rest =>
              refine iff_of_false ?_ ?_
              · rintro ⟨e, h⟩
                cases h
              · rintro (⟨e, h⟩ | ⟨e, h⟩) <;> cases h

/-- The selection by priority keeps what fits, highest priority first, and removes the rest. -/
theorem selectByPriority_iff [Zero K] [Neg K] (kept removed : List O) :
    selectByPriority py count target items = .ok (kept, removed) ↔
      ∃ keys chosen, items.mapM (priorityKey py) = .ok keys ∧
        Fitting count target items (ranksBefore keys) chosen ∧
        kept = itemsAt items chosen ∧ removed = itemsAt items fun i => !chosen i := by
  rw [selectByPriority, Except.bind_eq_ok]
  refine exists_congr fun keys => ?_
  rw [exists_and_left]
  refine and_congr_right fun hkeys => ?_
  have hranked := ranked_by_key (length_of_mapM hkeys)
  have hremoved : ∀ chosen : ℕ → Bool,
      (itemsAt items fun i => !(((((keys.zip items.zipIdx).insertionSort rankLe).map
        Prod.snd).filter fun p => chosen p.2).map Prod.snd).contains i) =
        itemsAt items fun i => !chosen i := by
    intro chosen
    refine itemsAt_congr fun i hi => ?_
    rw [hranked.contains_eq chosen i hi]
  simp only [Except.bind_eq_ok]
  constructor
  · rintro ⟨selected, hselected, hreturn⟩
    obtain ⟨chosen, hfitting, rfl⟩ :=
      (select_fitsWith_iff hranked (arranges_byPlace _)).1 hselected
    obtain ⟨rfl, rfl⟩ := Prod.mk.inj (Except.ok.inj hreturn)
    exact ⟨chosen, hfitting, itemsAt_congr (hranked.contains_eq chosen), hremoved chosen⟩
  · rintro ⟨chosen, hfitting, rfl, rfl⟩
    refine ⟨_, (select_fitsWith_iff hranked (arranges_byPlace _)).2 ⟨chosen, hfitting, rfl⟩, ?_⟩
    exact congrArg Except.ok (Prod.ext (itemsAt_congr (hranked.contains_eq chosen))
      (hremoved chosen))

/-- The selection by priority raises when a key cannot be computed or an item cannot be counted. -/
theorem selectByPriority_eq_error_iff [Zero K] [Neg K] :
    (∃ e, selectByPriority py count target items = .error e) ↔
      (∃ item ∈ items, ∃ e, priorityKey py item = .error e) ∨
        ∃ keys, items.mapM (priorityKey py) = .ok keys ∧
          Uncountable count target items (ranksBefore keys) := by
  rw [← mapM_eq_error_iff, selectByPriority]
  cases hkeys : items.mapM (priorityKey py) with
  | error e => exact iff_of_true ⟨e, rfl⟩ (Or.inl ⟨e, rfl⟩)
  | ok keys =>
      have hranked := ranked_by_key (length_of_mapM hkeys)
      have hraises : (∃ e, select (fitsWith byPlace count target) _ [] = .error e) ↔
          Uncountable count target items (ranksBefore keys) :=
        select_fitsWith_eq_error_iff hranked (arranges_byPlace _)
      simp only [Except.ok.injEq, exists_eq_left', reduceCtorEq, exists_false, false_or,
        Except.ok_bind']
      rw [← hraises]
      cases select (fitsWith byPlace count target)
        (((keys.zip items.zipIdx).insertionSort rankLe).map Prod.snd) [] with
      | error e => exact iff_of_true ⟨e, rfl⟩ ⟨e, rfl⟩
      | ok selected =>
          refine iff_of_false ?_ ?_
          · rintro ⟨e, h⟩
            cases h
          · rintro ⟨e, h⟩
            cases h

/-- The items from the last to the first. -/
theorem ranked_reverse :
    Ranked items (fun j i => decide (i < j)) items.zipIdx.reverse where
  perm := List.reverse_perm _
  sorted := by
    have hplaces := @List.pairwise_lt_range' 0 items.length 1 (by decide)
    rw [← List.zipIdx_map_snd 0 items, List.pairwise_map] at hplaces
    rw [List.pairwise_reverse]
    exact hplaces.imp fun h => decide_eq_true h
  asymm i j h := by
    rw [decide_eq_true_eq] at h
    rw [decide_eq_false_iff_not]
    omega

theorem arranges_reverse : Arranges List.reverse items.zipIdx.reverse := by
  intro l hl
  refine ⟨List.reverse_perm l, ?_⟩
  rw [List.pairwise_reverse]
  refine (ranked_reverse items).sorted.sublist hl |>.imp ?_
  intro p q h
  rw [decide_eq_true_eq] at h
  omega

/-- The loop of the selection by age, on pairs of an item and its place. -/
theorem select_fitsBefore (ranked selected : List (O × ℕ)) :
    select (fitsBefore count target) (ranked.map Prod.fst) (selected.map Prod.fst) =
      (select (fitsWith List.reverse count target) ranked selected).map (List.map Prod.fst) := by
  refine select_map (fun l p => ?_) ranked selected
  rw [fitsBefore, fitsWith, List.map_reverse, List.map_append, List.map_singleton]
  rw [List.isEmpty_map]

omit [LinearOrder K] in
/-- The selection by age raises when an item cannot be counted. -/
theorem selectByRecency_eq_error_iff :
    (∃ e, selectByRecency py count target items = .error e) ↔
      Uncountable count target items (fun j i => decide (i < j)) := by
  have hloop := select_fitsBefore count target items.zipIdx.reverse []
  rw [List.map_reverse, List.zipIdx_map_fst, List.map_nil] at hloop
  rw [← select_fitsWith_eq_error_iff (ranked_reverse items) (arranges_reverse items),
    selectByRecency, hloop]
  cases select (fitsWith List.reverse count target) items.zipIdx.reverse [] with
  | error e => exact iff_of_true ⟨e, rfl⟩ ⟨e, rfl⟩
  | ok selected => exact iff_of_false (fun ⟨e, h⟩ => by cases h) (fun ⟨e, h⟩ => by cases h)

omit [LinearOrder K] in
/-- The selection by age keeps what fits, the last item first.  It removes every item that is not
one of those it keeps. -/
theorem selectByRecency_iff (kept removed : List O) :
    selectByRecency py count target items = .ok (kept, removed) ↔
      ∃ chosen, Fitting count target items (fun j i => decide (i < j)) chosen ∧
        kept = itemsAt items chosen ∧
        removed = items.filter fun item => !(kept.map py.identity).contains (py.identity item) := by
  have hloop := select_fitsBefore count target items.zipIdx.reverse []
  rw [List.map_reverse, List.zipIdx_map_fst] at hloop
  have hkept : ∀ chosen : ℕ → Bool,
      ((items.zipIdx.reverse.filter fun p => chosen p.2).map Prod.fst).reverse =
        itemsAt items chosen := by
    intro chosen
    rw [itemsAt, ← List.map_reverse, ← List.filter_reverse, List.reverse_reverse]
  simp only [selectByRecency, Except.bind_eq_ok]
  constructor
  · rintro ⟨keptReversed, hselect, hreturn⟩
    obtain ⟨hkeep, hremove⟩ := Prod.mk.inj (Except.ok.inj hreturn)
    rw [hkeep] at hremove
    rw [List.map_nil] at hloop
    rw [hloop] at hselect
    cases hpairs : select (fitsWith List.reverse count target) items.zipIdx.reverse [] with
    | error e =>
        rw [hpairs] at hselect
        cases hselect
    | ok selected =>
        rw [hpairs] at hselect
        obtain rfl := Except.ok.inj hselect
        obtain ⟨chosen, hfitting, rfl⟩ :=
          (select_fitsWith_iff (ranked_reverse items) (arranges_reverse items)).1 hpairs
        exact ⟨chosen, hfitting, hkeep.symm.trans (hkept chosen), hremove.symm⟩
  · rintro ⟨chosen, hfitting, rfl, rfl⟩
    have hpairs := (select_fitsWith_iff (ranked_reverse items) (arranges_reverse items)).2
      ⟨chosen, hfitting, rfl⟩
    rw [List.map_nil, hpairs] at hloop
    refine ⟨_, hloop, ?_⟩
    rw [hkept]
    rfl

end Items

section Sentences

variable {K : Type} [LinearOrder K] (text : PythonSentences K) (casefold : String → String)
  (countText : String → Except Raised ℤ) (target : ℤ) (content : String)
  (requiredTerms : List String)

/-- The order of the sentences of a text: the highest score comes first, and of equal scores the
last sentence. -/
def sentencePrecedes (j i : ℕ) : Bool :=
  ranksBefore ((text.sentences content).map (sentenceScore text casefold content requiredTerms)) i j

/-- The ranking of sentences keeps those that fit, joined in the order of the text, and removes the
others. -/
theorem selectSentences_iff (result : String) (removed : List String) (total selected : ℕ) :
    selectSentencesByScore text casefold countText target content requiredTerms =
        .ok (result, removed, total, selected) ↔
      ∃ chosen, Fitting (fun sentences => countText (joinSentences sentences)) target
          (text.sentences content) (sentencePrecedes text casefold content requiredTerms) chosen ∧
        result = joinSentences (itemsAt (text.sentences content) chosen) ∧
        removed = itemsAt (text.sentences content) (fun i => !chosen i) ∧
        total = (text.sentences content).length ∧
        selected = (itemsAt (text.sentences content) chosen).length := by
  have hranked : Ranked (text.sentences content)
      (sentencePrecedes text casefold content requiredTerms) _ :=
    ranked_by_key_backwards (List.length_map
      (sentenceScore text casefold content requiredTerms))
  have hkept := fun chosen : ℕ → Bool =>
    map_fst_eq_itemsAt chosen (hranked.perm.filter fun p => chosen p.2) (byPlace_perm _)
      (pairwise_byPlace _)
  have hlength := fun chosen : ℕ → Bool =>
    ((hranked.perm.filter fun p => chosen p.2).map Prod.fst).length_eq
  have hremoved := fun chosen : ℕ → Bool =>
    @itemsAt_congr _ (text.sentences content) _ _
      fun i hi => congrArg not (hranked.contains_eq chosen i hi)
  simp only [selectSentencesByScore, Except.bind_eq_ok]
  constructor
  · rintro ⟨pairs, hselect, hreturn⟩
    obtain ⟨chosen, hfitting, rfl⟩ :=
      (select_fitsWith_iff hranked (arranges_byPlace _)).1 hselect
    have hvalues := Except.ok.inj hreturn
    simp only [Prod.mk.injEq] at hvalues
    obtain ⟨rfl, rfl, rfl, rfl⟩ := hvalues
    refine ⟨chosen, hfitting, ?_, hremoved chosen, rfl, ?_⟩
    · rw [hkept]
    · rw [itemsAt, ← hlength, List.length_map]
  · rintro ⟨chosen, hfitting, rfl, rfl, rfl, rfl⟩
    refine ⟨_, (select_fitsWith_iff hranked (arranges_byPlace _)).2 ⟨chosen, hfitting, rfl⟩, ?_⟩
    refine congrArg Except.ok (Prod.ext ?_ (Prod.ext (hremoved chosen) (Prod.ext rfl ?_)))
    · exact congrArg joinSentences (hkept chosen)
    · exact (List.length_map _).symm.trans (hlength chosen)

/-- The ranking of sentences raises when a sentence cannot be counted. -/
theorem selectSentences_eq_error_iff :
    (∃ e, selectSentencesByScore text casefold countText target content requiredTerms =
        .error e) ↔
      Uncountable (fun sentences => countText (joinSentences sentences)) target
        (text.sentences content) (sentencePrecedes text casefold content requiredTerms) := by
  have hranked : Ranked (text.sentences content)
      (sentencePrecedes text casefold content requiredTerms) _ :=
    ranked_by_key_backwards (List.length_map
      (sentenceScore text casefold content requiredTerms))
  rw [← select_fitsWith_eq_error_iff hranked (arranges_byPlace _), selectSentencesByScore]
  cases select (fitsWith byPlace (fun sentences => countText (joinSentences sentences)) target)
    _ [] with
  | error e => exact iff_of_true ⟨e, rfl⟩ ⟨e, rfl⟩
  | ok selected => exact iff_of_false (fun ⟨e, h⟩ => by cases h) (fun ⟨e, h⟩ => by cases h)

end Sentences

/-! ### The algorithms as functions of a request -/

section Requests

variable {O K : Type} {py : PythonItems O K} {request : CompressionRequest O} {items : List O}

/-- An algorithm on a list returns what it makes of the list, or raises as it does. -/
theorem onList_of_list (hitems : py.asList request.content = some items) (selection : String)
    (algorithm : List O → Except Raised (List O × List O)) :
    (∀ result, onList py request selection algorithm = .ok result ↔
      ∃ kept removed, algorithm items = .ok (kept, removed) ∧
        result = (py.ofList kept, removed,
          HashMap.empty.insert "selection" (py.ofText selection))) ∧
    ((∃ e, onList py request selection algorithm = .error e) ↔
      ∃ e, algorithm items = .error e) := by
  simp only [onList, hitems]
  rcases algorithm items with e | ⟨kept, removed⟩
  · refine ⟨fun result => iff_of_false (fun h => by cases h) ?_, iff_of_true ⟨e, rfl⟩ ⟨e, rfl⟩⟩
    rintro ⟨kept, removed, h, -⟩
    cases h
  · refine ⟨fun result => ⟨?_, ?_⟩, iff_of_false (fun ⟨e, h⟩ => by cases h)
      (fun ⟨e, h⟩ => by cases h)⟩
    · intro h
      exact ⟨kept, removed, rfl, (Except.ok.inj h).symm⟩
    · rintro ⟨kept', removed', h, rfl⟩
      obtain ⟨rfl, rfl⟩ := Prod.mk.inj (Except.ok.inj h)
      rfl

/-- Counting the list of some items. -/
def countItems (py : PythonItems O K) (request : CompressionRequest O) (items : List O) :
    Except Raised ℤ :=
  request.countContent (py.ofList items)

/-- Objects that are lists of numbers.  A list of one number is an item, with the number as its
priority. -/
def numberLists : PythonItems (List ℤ) ℤ where
  asText _ := none
  dumps l := .ok (toString l)
  ofText s := [s.length]
  casefold s := s
  asList l := some (l.map fun n => [n])
  ofList := List.flatten
  ofInt n := [n]
  asDict l := some (HashMap.empty.insert "priority" l)
  float l := .ok (l.headD 0)
  identity l := (l.headD 0).toNat

/-- A request to bring three items down to two. -/
def threeItems : CompressionRequest (List ℤ) where
  content := [1, 3, 2]
  targetTokens := 2
  countContent l := .ok l.length

/-- Objects that are strings. -/
def stringItems : PythonItems String ℤ where
  toPythonObjects := stringObjects
  asList _ := none
  ofList := String.join
  ofInt n := toString n
  asDict _ := none
  float _ := .error (.other "could not convert string to float")
  identity text := text.length

/-- Sentences that are lines, of which the shortest has the highest score. -/
def lineScores : PythonSentences ℤ where
  sentences text := (text.toList.splitOn '\n').map String.ofList
  words _ := []
  weighed score length := score - length

/-- A request to bring two lines down to nine characters. -/
def twoLines : CompressionRequest String where
  content := "first line\nsecond"
  targetTokens := 9
  countContent text := .ok text.length

end Requests

/-! ### Budgets -/

section Budget

variable {O : Type} {count : List O → Except Raised ℤ} {target : ℤ} {items : List O}
  {precedes : ℕ → ℕ → Bool} {ranked : List (O × ℕ)} {chosen : ℕ → Bool}

/-- A counter that counts no more in a part of a list. -/
def CountsSublists (count : List O → Except Raised ℤ) (items : List O) : Prop :=
  ∀ few many tokens tokens', few.Sublist many → many.Sublist items →
    count few = .ok tokens → count many = .ok tokens' → tokens ≤ tokens'

/-- What is kept is within the target, or is one item, which is looked at before all others. -/
def WithinTarget (count : List O → Except Raised ℤ) (target : ℤ) (items : List O)
    (precedes : ℕ → ℕ → Bool) (chosen : ℕ → Bool) : Prop :=
  ∃ tokens, count (itemsAt items chosen) = .ok tokens ∧
    (tokens ≤ target ∨ ∃ first item, items[first]? = some item ∧
      itemsAt items chosen = [item] ∧ ∀ j < items.length, precedes j first = false)

/-- Whatever is kept besides, the target is exceeded. -/
def Maximal (count : List O → Except Raised ℤ) (target : ℤ) (items : List O)
    (chosen : ℕ → Bool) : Prop :=
  ∀ larger tokens, (∀ j, chosen j = true → larger j = true) →
    (∃ i < items.length, larger i = true ∧ chosen i = false) →
    count (itemsAt items larger) = .ok tokens → target < tokens

theorem Fitting.withinTarget (h : Fitting count target items precedes chosen)
    (hranked : Ranked items precedes ranked) (hitems : items ≠ []) :
    WithinTarget count target items precedes chosen := by
  have hselects := (hranked.selects_iff (arranges_byPlace ranked)).2 h
  cases hfirst : ranked with
  | nil =>
      have hlength := hranked.perm.length_eq
      rw [hfirst, List.length_zipIdx, List.length_nil, eq_comm, List.length_eq_zero_iff] at hlength
      exact absurd hlength hitems
  | cons first rest =>
      -- the first item is always taken
      have hchosen : chosen first.2 = true := by
        obtain ⟨tokens, -, htaken⟩ := fitsWith_eq_ok_iff.1 (hselects [] first rest hfirst)
        exact htaken.2 (Or.inr rfl)
      have htaken : (ranked.filter fun p => chosen p.2) =
          first :: rest.filter fun p => chosen p.2 := by
        rw [hfirst, List.filter_cons_of_pos (by simpa using hchosen)]
      obtain hnil | ⟨taken, last, hlast⟩ :=
        List.eq_nil_or_concat (ranked.filter fun p => chosen p.2)
      · rw [htaken] at hnil
        cases hnil
      · rw [List.concat_eq_append] at hlast
        obtain ⟨tokens, htokens, hfits⟩ := fitsWith_eq_ok_iff.1 (hselects.last hlast)
        have hkept := map_fst_eq_itemsAt chosen (hranked.perm.filter fun p => chosen p.2)
          (byPlace_perm _) (pairwise_byPlace _)
        rw [← hlast, hkept] at htokens
        refine ⟨tokens, htokens, (hfits.1 rfl).imp_right ?_⟩
        rintro rfl
        rw [htaken, List.nil_append, List.cons.injEq] at hlast
        obtain ⟨rfl, hnone⟩ := hlast
        rw [htaken, hnone] at hkept
        have hmem : first ∈ items.zipIdx :=
          hranked.perm.mem_iff.1 (hfirst ▸ List.mem_cons_self ..)
        refine ⟨first.2, first.1, List.mem_zipIdx_iff_getElem?.1 hmem, hkept.symm, ?_⟩
        intro j hj
        have hsorted := hranked.sorted
        have hplace := hranked.mem hj
        rw [hfirst, List.pairwise_cons] at hsorted
        rw [hfirst, List.mem_cons] at hplace
        rcases hplace with heq | hrest
        · by_contra htrue
          rw [Bool.not_eq_false, ← heq] at htrue
          rw [hranked.asymm _ _ htrue] at htrue
          cases htrue
        · exact hranked.asymm _ _ (hsorted.1 _ hrest)

theorem Fitting.maximal (h : Fitting count target items precedes chosen)
    (hcount : CountsSublists count items) : Maximal count target items chosen := by
  intro larger tokens hlarger hmore hlargest
  obtain ⟨i, hi, hnew, hdropped⟩ := hmore
  obtain ⟨tokens', hwith, hchosen⟩ := h i hi
  have hover : target < tokens' := by
    by_contra hle
    have htaken := hchosen.2 (Or.inl (not_lt.1 hle))
    rw [hdropped] at htaken
    cases htaken
  have hpart : ∀ j, (j == i || chosen j && precedes j i) = true → larger j = true := by
    intro j hj
    rw [Bool.or_eq_true, beq_iff_eq, Bool.and_eq_true] at hj
    rcases hj with rfl | ⟨hkept, -⟩
    · exact hnew
    · exact hlarger j hkept
  exact hover.trans_le (hcount _ _ _ _ (itemsAt_mono hpart) (itemsAt_sublist larger) hwith hlargest)

theorem Fitting.whole (h : Fitting count target items precedes chosen)
    (hcount : CountsSublists count items) {tokens : ℤ} (htokens : count items = .ok tokens)
    (hle : tokens ≤ target) : itemsAt items chosen = items := by
  have hall : ∀ i < items.length, chosen i = true := by
    intro i hi
    obtain ⟨tokens', hpart, hchosen⟩ := h i hi
    refine hchosen.2 (Or.inl ?_)
    exact (hcount _ _ _ _ (itemsAt_sublist _) (List.Sublist.refl _) hpart htokens).trans hle
  rw [itemsAt_congr hall, itemsAt, List.filter_eq_self.2 (by simp),
    List.zipIdx_map_fst]

end Budget

section Kept

variable {O K : Type} {py : PythonItems O K} {request : CompressionRequest O} {items : List O}

/-- What the selection by priority keeps of a list is within the target, or is the one item of the
highest priority; whatever it might keep besides, the target would be exceeded; and a list that is
within the target is kept whole. -/
theorem priority_selection_budget [LinearOrder K] [Zero K] [Neg K]
    (hitems : py.asList request.content = some items) (hne : items ≠ [])
    (hcount : CountsSublists (countItems py request) items) {result : O × List O × HashMap O}
    (h : prioritySelect py request = .ok result) :
    ∃ keys chosen, items.mapM (priorityKey py) = .ok keys ∧
      result.1 = py.ofList (itemsAt items chosen) ∧
      result.2.1 = itemsAt items (fun i => !chosen i) ∧
      WithinTarget (countItems py request) request.targetTokens items (ranksBefore keys) chosen ∧
      Maximal (countItems py request) request.targetTokens items chosen ∧
      ∀ tokens, countItems py request items = .ok tokens → tokens ≤ request.targetTokens →
        itemsAt items chosen = items := by
  obtain ⟨kept, removed, hselect, rfl⟩ := ((onList_of_list hitems "priority" _).1 _).1 h
  obtain ⟨keys, chosen, hkeys, hfitting, rfl, rfl⟩ :=
    (selectByPriority_iff py _ request.targetTokens items kept removed).1 hselect
  refine ⟨keys, chosen, hkeys, rfl, rfl, ?_, hfitting.maximal hcount, ?_⟩
  · exact hfitting.withinTarget (ranked_by_key (length_of_mapM hkeys)) hne
  · intro tokens htokens hle
    exact hfitting.whole hcount htokens hle

theorem length_flatten_le {few many : List (List ℤ)} (h : few.Sublist many) :
    few.flatten.length ≤ many.flatten.length := by
  induction h with
  | slnil => exact le_refl _
  | cons l _ ih => exact ih.trans (by simp)
  | cons_cons l _ ih => simpa using ih

theorem countsSublists_numbers (items : List (List ℤ)) :
    CountsSublists (countItems numberLists threeItems) items := by
  intro few many tokens tokens' hsublist _ hfew hmany
  obtain rfl := Except.ok.inj hfew
  obtain rfl := Except.ok.inj hmany
  exact Int.ofNat_le.2 (length_flatten_le hsublist)

/-- The two items that are kept are within the target, and a third would exceed it. -/
theorem priority_selection_budget_of_three :
    ∃ chosen, [3, 2] = (itemsAt [[(1 : ℤ)], [3], [2]] chosen).flatten ∧
      Maximal (countItems numberLists threeItems) 2 [[1], [3], [2]] chosen := by
  have hselect : prioritySelect numberLists threeItems =
      .ok ([3, 2], [[1]], HashMap.empty.insert "selection" (numberLists.ofText "priority")) := rfl
  obtain ⟨keys, chosen, -, hkept, -, -, hmaximal, -⟩ :=
    @priority_selection_budget _ _ numberLists threeItems [[1], [3], [2]] _ _ _ rfl (by decide)
      (countsSublists_numbers _) _ hselect
  exact ⟨chosen, hkept, hmaximal⟩

/-- What the selection by age keeps of a list is within the target, or is the last item; whatever it
might keep besides, the target would be exceeded; and a list that is within the target is kept
whole. -/
theorem recency_selection_budget (hitems : py.asList request.content = some items)
    (hne : items ≠ []) (hcount : CountsSublists (countItems py request) items)
    {result : O × List O × HashMap O} (h : recencySelect py request = .ok result) :
    ∃ chosen, result.1 = py.ofList (itemsAt items chosen) ∧
      WithinTarget (countItems py request) request.targetTokens items
        (fun j i => decide (i < j)) chosen ∧
      Maximal (countItems py request) request.targetTokens items chosen ∧
      ∀ tokens, countItems py request items = .ok tokens → tokens ≤ request.targetTokens →
        itemsAt items chosen = items := by
  obtain ⟨kept, removed, hselect, rfl⟩ := ((onList_of_list hitems "recency" _).1 _).1 h
  obtain ⟨chosen, hfitting, rfl, -⟩ :=
    (selectByRecency_iff py _ request.targetTokens items kept removed).1 hselect
  refine ⟨chosen, rfl, hfitting.withinTarget (ranked_reverse items) hne, hfitting.maximal hcount,
    ?_⟩
  intro tokens htokens hle
  exact hfitting.whole hcount htokens hle

/-- The two items that are kept are within the target, and a third would exceed it. -/
theorem recency_selection_budget_of_three :
    ∃ chosen, [3, 2] = (itemsAt [[(1 : ℤ)], [3], [2]] chosen).flatten ∧
      Maximal (countItems numberLists threeItems) 2 [[1], [3], [2]] chosen := by
  have hselect : recencySelect numberLists threeItems =
      .ok ([3, 2], [[1]], HashMap.empty.insert "selection" (numberLists.ofText "recency")) := rfl
  obtain ⟨chosen, hkept, -, hmaximal, -⟩ :=
    @recency_selection_budget _ _ numberLists threeItems [[1], [3], [2]] rfl (by decide)
      (countsSublists_numbers _) _ hselect
  exact ⟨chosen, hkept, hmaximal⟩

end Kept

end ContextLease
