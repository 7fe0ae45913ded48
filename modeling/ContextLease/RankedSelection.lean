/-
Selecting the elements of a list one after the other.

A loop looks at the elements of a list in some order, and takes each of them that is acceptable
after those it has taken before.  When no two elements have the same place, what the loop takes is
told by a choice of places alone: the choice takes an element exactly when it is acceptable after
what the choice has taken before it.  The test may fail, and the loop with it.

Main definitions:

* `RankedSelection.select` — the loop;
* `RankedSelection.Selects` — a choice that agrees with the test;
* `RankedSelection.itemsAt` — the elements of a list at the places of a choice.

Main results:

* `RankedSelection.select_eq_ok_iff` — what the loop returns;
* `RankedSelection.Selects.last` — the element that is taken last was acceptable after all others;
* `RankedSelection.map_fst_eq_itemsAt` — elements in the order of their places.
-/

import Mathlib.Data.List.Nodup
import Mathlib.Data.List.Sort
import Mathlib.Logic.Function.Basic

set_option relaxedAutoImplicit false
set_option autoImplicit false

namespace RankedSelection

variable {α ε ι : Type}

section Select

variable (accepts : List α → α → Except ε Bool)

/-- The loop, with what it has taken so far. -/
def select : List α → List α → Except ε (List α)
  | [], selected => .ok selected
  | a :: rest, selected => do
      if ← accepts selected a then select rest (selected ++ [a]) else select rest selected

/-- A choice takes the elements that are acceptable after those it has taken before. -/
def Selects (selected ranked : List α) (chosen : α → Bool) : Prop :=
  ∀ before a after, ranked = before ++ a :: after →
    accepts (selected ++ before.filter chosen) a = .ok (chosen a)

variable {accepts} {selected rest ranked : List α} {a : α} {chosen chosen' : α → Bool}

theorem selects_cons :
    Selects accepts selected (a :: rest) chosen ↔
      accepts selected a = .ok (chosen a) ∧
        Selects accepts (selected ++ [a].filter chosen) rest chosen := by
  constructor
  · intro h
    refine ⟨?_, ?_⟩
    · have hfirst := h [] a rest rfl
      rwa [List.filter_nil, List.append_nil] at hfirst
    · intro before b after heq
      have hlater := h (a :: before) b after (by rw [heq, List.cons_append])
      rwa [← List.singleton_append, List.filter_append, ← List.append_assoc] at hlater
  · rintro ⟨hfirst, hrest⟩ before b after heq
    cases before with
    | nil =>
        obtain ⟨rfl, -⟩ := List.cons.inj heq
        rwa [List.filter_nil, List.append_nil]
    | cons first before =>
        obtain ⟨rfl, hlater⟩ := List.cons.inj heq
        rw [← List.singleton_append, List.filter_append, ← List.append_assoc]
        exact hrest before b after hlater

/-- Choices that agree on the elements of a list. -/
theorem Selects.congr (h : Selects accepts selected ranked chosen)
    (hagree : ∀ b ∈ ranked, chosen b = chosen' b) :
    Selects accepts selected ranked chosen' := by
  intro before b after heq
  have hbefore : before.filter chosen' = before.filter chosen := by
    refine List.filter_congr ?_
    intro c hc
    exact (hagree c (heq ▸ List.mem_append_left _ hc)).symm
  have hb : b ∈ ranked := heq ▸ List.mem_append_right _ (List.mem_cons_self ..)
  rw [hbefore, ← hagree b hb]
  exact h before b after heq

theorem select_of_selects (h : Selects accepts selected ranked chosen) :
    select accepts ranked selected = .ok (selected ++ ranked.filter chosen) := by
  induction ranked generalizing selected with
  | nil => rw [select, List.filter_nil, List.append_nil]
  | cons a rest ih =>
      obtain ⟨hfirst, hrest⟩ := selects_cons.1 h
      have hloop := ih hrest
      rw [select, hfirst]
      cases hchosen : chosen a with
      | true =>
          rw [List.filter_cons_of_pos (by simp [hchosen]), List.filter_nil] at hloop
          rw [List.filter_cons_of_pos (by simp [hchosen])]
          refine Eq.trans hloop ?_
          rw [List.append_assoc, List.singleton_append]
      | false =>
          rw [List.filter_cons_of_neg (by simp [hchosen]), List.filter_nil, List.append_nil]
            at hloop
          rw [List.filter_cons_of_neg (by simp [hchosen])]
          exact hloop

/-- What the loop returns, when no two elements have the same place. -/
theorem select_eq_ok_iff [DecidableEq ι] {place : α → ι} (hplaces : (ranked.map place).Nodup)
    {result : List α} :
    select accepts ranked selected = .ok result ↔
      ∃ chosen : ι → Bool, Selects accepts selected ranked (fun a => chosen (place a)) ∧
        result = selected ++ ranked.filter fun a => chosen (place a) := by
  constructor
  · intro hselect
    induction ranked generalizing selected with
    | nil =>
        rw [select, Except.ok.injEq] at hselect
        refine ⟨fun _ => false, ?_, by rw [List.filter_nil, List.append_nil, hselect]⟩
        intro before a after heq
        cases before <;> cases heq
    | cons a rest ih =>
        rw [List.map_cons, List.nodup_cons] at hplaces
        obtain ⟨hnew, hplaces⟩ := hplaces
        rw [select] at hselect
        cases haccepts : accepts selected a with
        | error e =>
            rw [haccepts] at hselect
            cases hselect
        | ok b =>
            rw [haccepts] at hselect
            -- the choice for the rest does not look at the place of this element
            have hloop : select accepts rest (selected ++ [a].filter fun _ => b) = .ok result := by
              cases b with
              | true => exact hselect
              | false => rwa [List.filter_cons_of_neg (by simp), List.filter_nil, List.append_nil]
            obtain ⟨chosen, hrest, hresult⟩ := ih hplaces hloop
            have hself : Function.update chosen (place a) b (place a) = b :=
              Function.update_self ..
            have hothers : ∀ c ∈ rest, chosen (place c) =
                Function.update chosen (place a) b (place c) := by
              intro c hc
              have hne : place c ≠ place a := by
                intro heq
                exact hnew (heq ▸ List.mem_map_of_mem hc)
              rw [Function.update_of_ne hne]
            have hhead : [a].filter (fun c => Function.update chosen (place a) b (place c)) =
                [a].filter fun _ => b := by
              rw [List.filter_cons, List.filter_cons, hself]
              rfl
            refine ⟨Function.update chosen (place a) b, selects_cons.2 ⟨?_, ?_⟩, ?_⟩
            · rw [hself, haccepts]
            · rw [hhead]
              exact hrest.congr hothers
            · rw [← List.singleton_append, List.filter_append, hhead, hresult, List.append_assoc,
                List.filter_congr hothers]
  · rintro ⟨chosen, hselects, rfl⟩
    exact select_of_selects hselects

/-- The loop raises when it has taken something and cannot tell of the next element. -/
theorem select_eq_error_iff :
    (∃ e, select accepts ranked selected = .error e) ↔
      ∃ before a after taken, ranked = before ++ a :: after ∧
        select accepts before selected = .ok taken ∧ ∃ e, accepts taken a = .error e := by
  induction ranked generalizing selected with
  | nil =>
      refine iff_of_false (fun ⟨e, h⟩ => by cases h) ?_
      rintro ⟨before, a, after, taken, hsplit, -⟩
      simp at hsplit
  | cons first rest ih =>
      have hcons : (∃ before a after taken, first :: rest = before ++ a :: after ∧
          select accepts before selected = .ok taken ∧ ∃ e, accepts taken a = .error e) ↔
          (∃ e, accepts selected first = .error e) ∨
            ∃ before a after taken, rest = before ++ a :: after ∧
              select accepts (first :: before) selected = .ok taken ∧
              ∃ e, accepts taken a = .error e := by
        constructor
        · rintro ⟨before, a, after, taken, hsplit, htaken, hraises⟩
          cases before with
          | nil =>
              obtain ⟨rfl, -⟩ := List.cons.inj hsplit
              obtain rfl := Except.ok.inj htaken
              exact Or.inl hraises
          | cons b before =>
              obtain ⟨rfl, hrest⟩ := List.cons.inj hsplit
              exact Or.inr ⟨before, a, after, taken, hrest, htaken, hraises⟩
        · rintro (hraises | ⟨before, a, after, taken, hrest, htaken, hraises⟩)
          · exact ⟨[], first, rest, selected, rfl, rfl, hraises⟩
          · exact ⟨first :: before, a, after, taken, by rw [hrest, List.cons_append], htaken,
              hraises⟩
      rw [hcons]
      simp only [select]
      cases accepts selected first with
      | error e => exact iff_of_true ⟨e, rfl⟩ (Or.inl ⟨e, rfl⟩)
      | ok taken =>
          cases taken with
          | true => exact ih.trans (or_iff_right (fun ⟨e, h⟩ => by cases h)).symm
          | false => exact ih.trans (or_iff_right (fun ⟨e, h⟩ => by cases h)).symm

/-- A loop on images of elements. -/
theorem select_map {β : Type} {f : α → β} {accepts' : List β → β → Except ε Bool}
    (h : ∀ l a, accepts' (l.map f) (f a) = accepts l a) (ranked selected : List α) :
    select accepts' (ranked.map f) (selected.map f) =
      (select accepts ranked selected).map (List.map f) := by
  induction ranked generalizing selected with
  | nil => rfl
  | cons a rest ih =>
      have htaken := ih (selected ++ [a])
      rw [List.map_append, List.map_singleton] at htaken
      rw [List.map_cons, select, select, h]
      cases accepts selected a with
      | error e => rfl
      | ok b =>
          cases b with
          | true => exact htaken
          | false => exact ih selected

/-- The element that is taken last was acceptable after all the others. -/
theorem Selects.last (h : Selects accepts [] ranked chosen) {taken : List α}
    (htaken : ranked.filter chosen = taken ++ [a]) : accepts taken a = .ok true := by
  obtain ⟨before, later, rfl, hbefore, hlater⟩ := List.filter_eq_append_iff.1 htaken
  obtain ⟨skipped, after, rfl, hskipped, ha, -⟩ := List.filter_eq_cons_iff.1 hlater
  have hselects := h (before ++ skipped) a after (by rw [List.append_assoc])
  have hnone : skipped.filter chosen = [] := List.filter_eq_nil_iff.2 hskipped
  rwa [List.nil_append, List.filter_append, hbefore, hnone, List.append_nil, ha] at hselects

end Select

/-! ### Places -/

variable {items : List α}

/-- The elements of a list at the places of a choice. -/
def itemsAt (items : List α) (chosen : ℕ → Bool) : List α :=
  (items.zipIdx.filter fun p => chosen p.2).map Prod.fst

theorem itemsAt_congr {chosen chosen' : ℕ → Bool} (h : ∀ i < items.length, chosen i = chosen' i) :
    itemsAt items chosen = itemsAt items chosen' := by
  rw [itemsAt, itemsAt, List.filter_congr]
  intro p hp
  exact h p.2 (by have hlt := List.snd_lt_add_of_mem_zipIdx hp; omega)

theorem itemsAt_sublist (chosen : ℕ → Bool) : (itemsAt items chosen).Sublist items := by
  have hsublist := (List.filter_sublist (p := fun p => chosen p.2) (l := items.zipIdx)).map
    Prod.fst
  rwa [List.zipIdx_map_fst] at hsublist

theorem itemsAt_mono {chosen chosen' : ℕ → Bool} (h : ∀ i, chosen i = true → chosen' i = true) :
    (itemsAt items chosen).Sublist (itemsAt items chosen') :=
  (List.monotone_filter_right items.zipIdx fun p hp => h p.2 hp).map Prod.fst

/-- Elements in the order of their places are those at the places of a choice. -/
theorem map_fst_eq_itemsAt (chosen : ℕ → Bool) {pairs sorted : List (α × ℕ)}
    (hpairs : pairs.Perm (items.zipIdx.filter fun p => chosen p.2)) (hperm : sorted.Perm pairs)
    (hsorted : sorted.Pairwise fun p q => p.2 ≤ q.2) :
    sorted.map Prod.fst = itemsAt items chosen := by
  have hincreasing : (items.zipIdx.filter fun p => chosen p.2).Pairwise fun p q => p.2 < q.2 := by
    refine List.Pairwise.filter _ ?_
    have hplaces := @List.pairwise_lt_range' 0 items.length 1 (by decide)
    rw [← List.zipIdx_map_snd 0 items, List.pairwise_map] at hplaces
    exact hplaces
  have hplaces : ∀ p ∈ items.zipIdx.filter (fun p => chosen p.2),
      ∀ q ∈ items.zipIdx.filter (fun p => chosen p.2), p.2 = q.2 → p = q := by
    intro p hp q hq heq
    have hpitem := List.mem_zipIdx_iff_getElem?.1 (List.mem_filter.1 hp).1
    have hqitem := List.mem_zipIdx_iff_getElem?.1 (List.mem_filter.1 hq).1
    rw [heq, hqitem] at hpitem
    exact Prod.ext (Option.some_inj.1 hpitem).symm heq
  have heq : sorted = items.zipIdx.filter fun p => chosen p.2 := by
    refine (hperm.trans hpairs).eq_of_pairwise ?_ hsorted (hincreasing.imp fun h => h.le)
    intro p q hp hq hle hge
    exact hplaces p ((hperm.trans hpairs).mem_iff.1 hp) q hq (le_antisymm hle hge)
  rw [heq, itemsAt]

end RankedSelection
