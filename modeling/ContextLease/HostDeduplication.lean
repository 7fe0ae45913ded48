/-
Deduplication of a list.

Two algorithms of the package leave out what a list has already.  The exact deduplication keeps the
first of the items with one JSON text; the similarity deduplication keeps an item whose text is
similar to none of those kept before.

Main definitions:

* `PythonKeys` — what the algorithms do with objects;
* `Host.exactDeduplicate`, `Host.similarityDeduplicate` — the algorithms, over
  `Host.deduplicateBy`;
* `Deduplicated` — what a deduplication makes of a list.

Main results:

* `separates_separate` — what the loop keeps and removes;
* `deduplicated_of_deduplicateBy` — a list that is deduplicated by some key;
* `deduplication_contract` — what the two algorithms return.
-/

import ContextLease.HostPipeline
import ContextLease.Flagged

set_option relaxedAutoImplicit false
set_option autoImplicit false

namespace ContextLease

open RustText

/-- What the deduplications do with objects.  `K` is the type of a threshold. -/
structure PythonKeys (O K : Type) extends Host.PythonObjects O where
  /-- The list that an object is, if it is one. -/
  asList : O → Option (List O)
  ofList : List O → O
  ofInt : ℤ → O
  /-- `json.dumps` with sorted keys, which raises for what is not JSON. -/
  dumpsSorted : O → Except Host.Raised String
  /-- The same without spaces after the separators. -/
  dumpsCompact : O → Except Host.Raised String
  /-- The blocks of a text between blank lines, stripped, without the empty ones. -/
  blocks : String → List String
  /-- `re.sub(r"\s+", " ", text).casefold()`. -/
  fingerprint : String → String
  /-- `float(options.get("threshold", 0.88))`, which may raise. -/
  threshold : HashMap O → Except Host.Raised K
  ofThreshold : K → O
  /-- `SequenceMatcher(None, text, prior).ratio() >= threshold`. -/
  isSimilar : K → String → String → Bool

namespace Host

variable {α β O K : Type}

section Loop

variable (like : β → β → Bool)

/-- The loop of the deduplications, over items with their keys: an item is removed when its key is
like the key of one that is kept. -/
def separate : List (α × β) → List β → List (α × β) × List (α × β)
  | [], _ => ([], [])
  | item :: rest, prior =>
      if prior.any (like item.2) then
        let (kept, removed) := separate rest prior
        (kept, item :: removed)
      else
        let (kept, removed) := separate rest (prior ++ [item.2])
        (item :: kept, removed)

/-- A deduplication of a list: what is kept, and what is removed. -/
def deduplicateBy (keyOf : α → Except Raised β) (items : List α) :
    Except Raised (List α × List α) := do
  let keys ← items.mapM keyOf
  let (kept, removed) := separate like (items.zip keys) []
  return (kept.map Prod.fst, removed.map Prod.fst)

end Loop

section Algorithms

variable (py : PythonKeys O K) (request : CompressionRequest O)

/-- The source's `_exact_deduplicate`.  All keys that were seen are keys of items that are kept. -/
def exactDeduplicate : Except Raised (O × List O × HashMap O) :=
  match py.asList request.content with
  | none => .ok (request.content, [], HashMap.empty.insert "status" (py.ofText "unsupported_type"))
  | some items => do
      let (kept, removed) ← deduplicateBy (· == ·) py.dumpsCompact items
      return (py.ofList kept, removed,
        HashMap.empty.insert "removed_items" (py.ofInt removed.length))

/-- The fingerprint of an item. -/
def itemFingerprint (item : O) : Except Raised String := do
  let text ← match py.asText item with
    | some text => .ok text
    | none => py.dumpsSorted item
  return py.fingerprint text

/-- The source's `_similarity_deduplicate`. -/
def similarityDeduplicate : Except Raised (O × List O × HashMap O) := do
  let threshold ← py.threshold request.options
  let trace := HashMap.empty.insert "threshold" (py.ofThreshold threshold)
  match py.asText request.content, py.asList request.content with
  | some text, _ =>
      let (kept, removed) ← deduplicateBy (py.isSimilar threshold)
        (fun block => .ok (py.fingerprint block)) (py.blocks text)
      return (py.ofText ("\n\n".intercalate kept), removed.map py.ofText, trace)
  | none, some items =>
      let (kept, removed) ←
        deduplicateBy (py.isSimilar threshold) (itemFingerprint py) items
      return (py.ofList kept, removed, trace)
  | none, none =>
      return (request.content, [], HashMap.empty.insert "status" (py.ofText "unsupported_type"))

end Algorithms

end Host

open Host

/-! ### The loop -/

section Loop

variable {α β : Type} {like : β → β → Bool}

/-- What the loop makes of items, when the keys of some have been kept before. -/
structure Separates (like : β → β → Bool) (items : List (α × β)) (prior : List β)
    (kept removed : List (α × β)) : Prop where
  sublist : kept.Sublist items
  perm : (kept ++ removed).Perm items
  apart : kept.Pairwise fun p q => like q.2 p.2 = false
  fresh : ∀ p ∈ kept, ∀ key ∈ prior, like p.2 key = false
  covered : ∀ r ∈ removed, (∃ key ∈ prior, like r.2 key = true) ∨
    ∃ p ∈ kept, [p, r].Sublist items ∧ like r.2 p.2 = true

theorem separates_separate (items : List (α × β)) (prior : List β) :
    Separates like items prior (separate like items prior).1 (separate like items prior).2 := by
  induction items generalizing prior with
  | nil => exact ⟨.slnil, .nil, .nil, nofun, nofun⟩
  | cons item rest ih =>
      rw [separate]
      by_cases hlike : prior.any (like item.2) = true
      · have h := ih prior
        rw [if_pos hlike]
        refine ⟨h.sublist.cons item, List.perm_middle.trans (h.perm.cons item), h.apart, h.fresh,
          ?_⟩
        intro r hr
        rcases List.mem_cons.1 hr with rfl | hr
        · obtain ⟨key, hkey, hsimilar⟩ := List.any_eq_true.1 hlike
          exact Or.inl ⟨key, hkey, hsimilar⟩
        · rcases h.covered r hr with hprior | ⟨p, hp, hsub, hsimilar⟩
          · exact Or.inl hprior
          · exact Or.inr ⟨p, hp, hsub.cons item, hsimilar⟩
      · have h := ih (prior ++ [item.2])
        rw [if_neg hlike]
        have hnew : ∀ key ∈ prior, like item.2 key = false := by
          intro key hkey
          by_contra hne
          exact hlike (List.any_eq_true.2 ⟨key, hkey, Bool.eq_true_of_not_eq_false hne⟩)
        refine ⟨h.sublist.cons_cons item, h.perm.cons item, List.pairwise_cons.2 ⟨?_, h.apart⟩, ?_,
          ?_⟩
        · intro p hp
          exact h.fresh p hp item.2 (by simp)
        · intro p hp key hkey
          rcases List.mem_cons.1 hp with rfl | hp
          · exact hnew key hkey
          · exact h.fresh p hp key (List.mem_append_left _ hkey)
        · intro r hr
          rcases h.covered r hr with ⟨key, hkey, hsimilar⟩ | ⟨p, hp, hsub, hsimilar⟩
          · rcases List.mem_append.1 hkey with hkey | hkey
            · exact Or.inl ⟨key, hkey, hsimilar⟩
            · obtain rfl := List.mem_singleton.1 hkey
              have hrest : r ∈ rest := h.perm.subset (List.mem_append_right _ hr)
              exact Or.inr ⟨item, List.mem_cons_self ..,
                (List.singleton_sublist.2 hrest).cons_cons item, hsimilar⟩
          · exact Or.inr ⟨p, List.mem_cons_of_mem _ hp, hsub.cons item, hsimilar⟩

/-- Items that are all unlike each other are kept. -/
theorem separate_eq_self {items : List (α × β)} {prior : List β}
    (hapart : items.Pairwise fun p q => like q.2 p.2 = false)
    (hfresh : ∀ p ∈ items, ∀ key ∈ prior, like p.2 key = false) :
    separate like items prior = (items, []) := by
  induction items generalizing prior with
  | nil => rfl
  | cons item rest ih =>
      obtain ⟨hitem, hrest⟩ := List.pairwise_cons.1 hapart
      have hlike : ¬ prior.any (like item.2) = true := by
        intro hany
        obtain ⟨key, hkey, hsimilar⟩ := List.any_eq_true.1 hany
        rw [hfresh item (List.mem_cons_self ..) key hkey] at hsimilar
        cases hsimilar
      rw [separate, if_neg hlike, ih hrest]
      intro p hp key hkey
      rcases List.mem_append.1 hkey with hkey | hkey
      · exact hfresh p (List.mem_cons_of_mem _ hp) key hkey
      · obtain rfl := List.mem_singleton.1 hkey
        exact hitem p hp

end Loop

/-! ### The keys -/

section Keys

variable {α β : Type} {keyOf : α → Except Raised β}

/-- The keys of a list are those of its items. -/
theorem key_of_mem_zip {items : List α} {keys : List β} (h : items.mapM keyOf = .ok keys) :
    (items.zip keys).map Prod.fst = items ∧ ∀ p ∈ items.zip keys, keyOf p.1 = .ok p.2 := by
  induction items generalizing keys with
  | nil => exact ⟨rfl, by simp⟩
  | cons item items ih =>
      rw [List.mapM_cons, Except.bind_eq_ok] at h
      obtain ⟨key, hkey, h⟩ := h
      rw [Except.bind_eq_ok] at h
      obtain ⟨rest, hrest, h⟩ := h
      obtain rfl : key :: rest = keys := Except.ok.inj h
      obtain ⟨hfst, hmem⟩ := ih hrest
      refine ⟨by rw [List.zip_cons_cons, List.map_cons, hfst], ?_⟩
      intro p hp
      rcases List.mem_cons.1 hp with rfl | hp
      · exact hkey
      · exact hmem p hp

theorem mapM_fst {pairs : List (α × β)} (h : ∀ p ∈ pairs, keyOf p.1 = .ok p.2) :
    (pairs.map Prod.fst).mapM keyOf = .ok (pairs.map Prod.snd) := by
  induction pairs with
  | nil => rfl
  | cons p pairs ih =>
      rw [List.map_cons, List.mapM_cons, h p (List.mem_cons_self ..),
        ih fun q hq => h q (List.mem_cons_of_mem _ hq)]
      rfl

variable {like : β → β → Bool} {items kept removed : List α}

/-- A deduplication keeps items in their order and loses none, no item that it keeps is like one
kept before it, each that it removes is like one that is kept, and a second deduplication removes
nothing. -/
structure Deduplicated (like : β → β → Bool) (keyOf : α → Except Raised β)
    (items kept removed : List α) : Prop where
  sublist : kept.Sublist items
  perm : (kept ++ removed).Perm items
  apart : kept.Pairwise fun p q => ∀ key key', keyOf p = .ok key → keyOf q = .ok key' →
    like key' key = false
  covered : ∀ r ∈ removed, ∃ p ∈ kept, [p, r].Sublist items ∧ ∃ key key', keyOf p = .ok key ∧
    keyOf r = .ok key' ∧ like key' key = true
  again : deduplicateBy like keyOf kept = .ok (kept, [])

theorem deduplicated_of_deduplicateBy
    (h : deduplicateBy like keyOf items = .ok (kept, removed)) :
    Deduplicated like keyOf items kept removed := by
  rw [deduplicateBy, Except.bind_eq_ok] at h
  obtain ⟨keys, hkeys, h⟩ := h
  obtain ⟨hfst, hkey⟩ := key_of_mem_zip hkeys
  have hseparates : Separates like (items.zip keys) [] _ _ :=
    separates_separate (items.zip keys) []
  generalize separate like (items.zip keys) [] = parts at h hseparates
  obtain ⟨keptPairs, removedPairs⟩ := parts
  obtain ⟨rfl, rfl⟩ := Prod.mk.inj (Except.ok.inj h)
  have hkeptKey : ∀ p ∈ keptPairs, keyOf p.1 = .ok p.2 :=
    fun p hp => hkey p (hseparates.sublist.subset hp)
  refine ⟨?_, ?_, ?_, ?_, ?_⟩
  · have hsub := hseparates.sublist.map Prod.fst
    rwa [hfst] at hsub
  · have hperm := hseparates.perm.map Prod.fst
    rwa [hfst, List.map_append] at hperm
  · rw [List.pairwise_map]
    refine hseparates.apart.imp_of_mem ?_
    intro p q hp hq hapart key key' hp' hq'
    rw [hkeptKey p hp, Except.ok.injEq] at hp'
    rw [hkeptKey q hq, Except.ok.injEq] at hq'
    rw [← hp', ← hq']
    exact hapart
  · intro r hr
    obtain ⟨pair, hpair, rfl⟩ := List.mem_map.1 hr
    rcases hseparates.covered pair hpair with ⟨key, hnone, -⟩ | ⟨p, hp, hsub, hsimilar⟩
    · cases hnone
    · have hsub' := hsub.map Prod.fst
      rw [hfst] at hsub'
      exact ⟨p.1, List.mem_map_of_mem hp, hsub', p.2, pair.2, hkeptKey p hp,
        hkey pair (hseparates.perm.subset (List.mem_append_right _ hpair)), hsimilar⟩
  · have hzip : (keptPairs.map Prod.fst).zip (keptPairs.map Prod.snd) = keptPairs :=
      (List.zip_of_prod rfl rfl).symm
    rw [deduplicateBy, mapM_fst hkeptKey, Except.ok_bind', hzip,
      separate_eq_self hseparates.apart fun p hp key hnone => by cases hnone]
    rfl

end Keys

/-! ### The algorithms -/

section Requests

variable {O K : Type} (py : PythonKeys O K) (request : CompressionRequest O)

/-- The exact deduplication of a list returns the deduplicated list; the similarity deduplication
does so with a list, by the texts of its items, and with a text, by its blocks. -/
theorem deduplication_contract (result : O × List O × HashMap O) :
    (exactDeduplicate py request = .ok result → ∀ items, py.asList request.content = some items →
      ∃ kept removed, Deduplicated (· == ·) py.dumpsCompact items kept removed ∧
        result = (py.ofList kept, removed,
          HashMap.empty.insert "removed_items" (py.ofInt removed.length))) ∧
    (similarityDeduplicate py request = .ok result →
      ∃ threshold, py.threshold request.options = .ok threshold ∧
        (∀ text, py.asText request.content = some text → ∃ kept removed,
          Deduplicated (py.isSimilar threshold) (fun block => .ok (py.fingerprint block))
            (py.blocks text) kept removed ∧
          result = (py.ofText ("\n\n".intercalate kept), removed.map py.ofText,
            HashMap.empty.insert "threshold" (py.ofThreshold threshold))) ∧
        ∀ items, py.asText request.content = none → py.asList request.content = some items →
          ∃ kept removed,
            Deduplicated (py.isSimilar threshold) (itemFingerprint py) items kept removed ∧
            result = (py.ofList kept, removed,
              HashMap.empty.insert "threshold" (py.ofThreshold threshold))) := by
  constructor
  · intro h items hitems
    simp only [exactDeduplicate, hitems, Except.bind_eq_ok] at h
    obtain ⟨⟨kept, removed⟩, hseparated, h⟩ := h
    exact ⟨kept, removed, deduplicated_of_deduplicateBy hseparated, (Except.ok.inj h).symm⟩
  · intro h
    rw [similarityDeduplicate, Except.bind_eq_ok] at h
    obtain ⟨threshold, hthreshold, h⟩ := h
    refine ⟨threshold, hthreshold, ?_, ?_⟩
    · intro text htext
      simp only [htext, Except.bind_eq_ok] at h
      obtain ⟨⟨kept, removed⟩, hseparated, h⟩ := h
      exact ⟨kept, removed, deduplicated_of_deduplicateBy hseparated, (Except.ok.inj h).symm⟩
    · intro items htext hitems
      simp only [htext, hitems, Except.bind_eq_ok] at h
      obtain ⟨⟨kept, removed⟩, hseparated, h⟩ := h
      exact ⟨kept, removed, deduplicated_of_deduplicateBy hseparated, (Except.ok.inj h).symm⟩

/-- Objects that are lists of numbers.  Numbers are similar when their last digits are the same. -/
def digitKeys : PythonKeys (List ℕ) Unit where
  asText _ := none
  dumps l := .ok (toString l)
  ofText s := [s.length]
  casefold s := s
  asList l := some (l.map fun n => [n])
  ofList := List.flatten
  ofInt n := [n.toNat]
  dumpsSorted l := .ok (toString (l.headD 0 % 10))
  dumpsCompact l := .ok (toString (l.headD 0))
  blocks _ := []
  fingerprint s := s
  threshold _ := .ok ()
  ofThreshold _ := []
  isSimilar _ text prior := text == prior

/-- A request to deduplicate four numbers. -/
def fourNumbers : CompressionRequest (List ℕ) where
  content := [11, 2, 31, 2]
  targetTokens := 0
  countContent l := .ok l.length

/-- The similarity deduplication removes a number with a last digit that it has kept. -/
theorem deduplication_of_numbers :
    ∃ kept removed, Deduplicated (digitKeys.isSimilar ()) (itemFingerprint digitKeys)
        [[11], [2], [31], [2]] kept removed ∧
      [11, 2] = kept.flatten ∧ [[31], [2]] = removed := by
  have hseparated : similarityDeduplicate digitKeys fourNumbers =
      .ok ([11, 2], [[31], [2]], HashMap.empty.insert "threshold" []) := rfl
  obtain ⟨threshold, -, -, hlist⟩ := (deduplication_contract digitKeys fourNumbers _).2 hseparated
  obtain ⟨kept, removed, hcontract, hresult⟩ := hlist [[11], [2], [31], [2]] rfl rfl
  simp only [Prod.mk.injEq] at hresult
  exact ⟨kept, removed, hcontract, hresult.1, hresult.2.1⟩

end Requests

end ContextLease
