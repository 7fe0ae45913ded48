/-
Runs of characters in a text.

Stripping takes the blank characters off both ends, collapsing puts one gap in the place of every
run of accepted characters, and keeping the first elements of every key drops the later ones.

Main definitions:

* `TextRuns.strip` — what is left when the blanks are taken off both ends;
* `TextRuns.collapse` — one gap for every run;
* `TextRuns.keepFirst`, `TextRuns.firsts` — the first element of every key, as a loop over those
  seen and as a filter.

Main results:

* `TextRuns.strip_pad`, `TextRuns.exists_pad` — stripping undoes padding with blanks, and is undone
  by it;
* `TextRuns.collapse_eq_iff` — when two classes collapse a text to the same;
* `TextRuns.sum_collapseFrom_le` — collapsing makes a text no heavier;
* `TextRuns.collapse_eq_self_iff` — when there is nothing to collapse;
* `TextRuns.nodup_keepFirst`, `TextRuns.keepFirst_eq_self` — what is kept has different keys, and is
  kept again;
* `TextRuns.keepFirst_eq_firsts` — the loop keeps the first elements.
-/

import Mathlib.Data.List.DropRight
import Mathlib.Data.List.Chain
import Mathlib.Algebra.Order.BigOperators.Group.List
import Mathlib.Algebra.Order.Group.Nat

set_option relaxedAutoImplicit false
set_option autoImplicit false

namespace TextRuns

variable {α : Type}

/-! ### Stripping -/

section Strip

variable (blank : α → Bool)

/-- A text without the blanks at its ends. -/
def strip (l : List α) : List α := (l.dropWhile blank).rdropWhile blank

variable {blank}

theorem dropWhile_blanks {u : List α} (hu : ∀ c ∈ u, blank c = true) (l : List α) :
    (u ++ l).dropWhile blank = l.dropWhile blank := by
  rw [List.dropWhile_append, List.dropWhile_eq_nil_iff.2 hu]
  rfl

theorem rdropWhile_blanks {v : List α} (hv : ∀ c ∈ v, blank c = true) (l : List α) :
    (l ++ v).rdropWhile blank = l.rdropWhile blank := by
  rw [List.rdropWhile, List.reverse_append,
    dropWhile_blanks (fun c hc => hv c (List.mem_reverse.1 hc)), ← List.rdropWhile]

theorem mem_takeWhile_append {l : List α} {c : α} (hc : c ∈ l.takeWhile blank) (r : List α) :
    c ∈ (l ++ r).takeWhile blank := by
  rw [List.takeWhile_append]
  split
  · exact List.mem_append_left _ ((List.takeWhile_prefix blank).subset hc)
  · exact hc

theorem strip_blanks {l : List α} (h : ∀ c ∈ l, blank c = true) : strip blank l = [] := by
  rw [strip, List.dropWhile_eq_nil_iff.2 h]
  rfl

/-- A text that begins and ends with a character that is not blank is stripped. -/
theorem strip_eq_self {l : List α} (hhead : ∀ c ∈ l.head?, blank c = false)
    (hlast : ∀ c ∈ l.getLast?, blank c = false) : strip blank l = l := by
  cases l with
  | nil => rfl
  | cons c rest =>
      have hdrop : (c :: rest).dropWhile blank = c :: rest :=
        List.dropWhile_cons_of_neg (by simpa using hhead c rfl)
      rw [strip, hdrop, List.rdropWhile_eq_self_iff]
      intro hne
      have := hlast _ (List.getLast?_eq_some_getLast hne)
      simpa using this

theorem head?_strip {l : List α} : ∀ c ∈ (strip blank l).head?, blank c = false := by
  intro c hc
  have hkept := List.rdropWhile_prefix blank (l.dropWhile blank)
  cases hdrop : l.dropWhile blank with
  | nil =>
      rw [strip, hdrop] at hc
      simp at hc
  | cons d rest =>
      obtain ⟨r, hr⟩ := hkept
      rw [← strip] at hr
      cases hstrip : strip blank l with
      | nil =>
          rw [hstrip] at hc
          cases hc
      | cons e kept =>
          rw [hstrip] at hc hr
          rw [hdrop, List.cons_append, List.cons.injEq] at hr
          obtain rfl : e = c := by simpa using hc
          rw [hr.1]
          have hne : l.dropWhile blank ≠ [] := by simp [hdrop]
          have := List.head_dropWhile_not blank hne
          simpa [hdrop] using this

theorem getLast?_strip {l : List α} : ∀ c ∈ (strip blank l).getLast?, blank c = false := by
  intro c hc
  have hne : strip blank l ≠ [] := by
    rintro hnil
    rw [hnil] at hc
    cases hc
  rw [List.getLast?_eq_some_getLast hne, Option.mem_some_iff] at hc
  have hlast := List.rdropWhile_last_not blank (l.dropWhile blank) hne
  rw [← hc]
  simpa [strip] using hlast

/-- Stripping undoes padding with blanks. -/
theorem strip_pad {u v : List α} (hu : ∀ c ∈ u, blank c = true) (hv : ∀ c ∈ v, blank c = true)
    (l : List α) : strip blank (u ++ l ++ v) = strip blank l := by
  rw [strip, List.append_assoc, dropWhile_blanks hu, strip]
  by_cases hl : ∀ c ∈ l, blank c = true
  · rw [dropWhile_blanks hl, List.dropWhile_eq_nil_iff.2 hl, List.dropWhile_eq_nil_iff.2 hv]
  · have hne : l.dropWhile blank ≠ [] := fun hnil => hl (List.dropWhile_eq_nil_iff.1 hnil)
    rw [List.dropWhile_append, if_neg (by simpa using hne), rdropWhile_blanks hv]

/-- A text is its stripped text between blanks. -/
theorem exists_pad (blank : α → Bool) (l : List α) : ∃ u v,
    l = u ++ strip blank l ++ v ∧ (∀ c ∈ u, blank c = true) ∧ ∀ c ∈ v, blank c = true := by
  refine ⟨l.takeWhile blank, (l.dropWhile blank).rtakeWhile blank, ?_,
    fun c hc => List.mem_takeWhile_imp hc, fun c hc => List.mem_rtakeWhile_imp hc⟩
  rw [List.append_assoc, strip, List.rdropWhile_append_rtakeWhile, List.takeWhile_append_dropWhile]

theorem strip_eq_nil_iff {l : List α} : strip blank l = [] ↔ ∀ c ∈ l, blank c = true := by
  refine ⟨fun h => ?_, strip_blanks⟩
  obtain ⟨u, v, hl, hu, hv⟩ := exists_pad blank l
  rw [h, List.append_nil] at hl
  rw [hl]
  intro c hc
  rcases List.mem_append.1 hc with hc | hc
  · exact hu c hc
  · exact hv c hc

theorem strip_strip (l : List α) : strip blank (strip blank l) = strip blank l :=
  strip_eq_self head?_strip getLast?_strip

end Strip

/-- What is in a joined text is in the separator or in a piece. -/
theorem mem_intercalate {sep : List α} {pieces : List (List α)} {c : α}
    (hc : c ∈ sep.intercalate pieces) : c ∈ sep ∨ ∃ p ∈ pieces, c ∈ p := by
  induction pieces with
  | nil => cases hc
  | cons p ps ih =>
      cases ps with
      | nil =>
          rw [List.intercalate_singleton] at hc
          exact .inr ⟨p, List.mem_cons_self, hc⟩
      | cons q qs =>
          rw [List.intercalate_cons_cons, List.append_assoc] at hc
          rcases List.mem_append.1 hc with hc | hc
          · exact .inr ⟨p, List.mem_cons_self, hc⟩
          · rcases List.mem_append.1 hc with hc | hc
            · exact .inl hc
            · rcases ih hc with hc | ⟨r, hr, hc⟩
              · exact .inl hc
              · exact .inr ⟨r, List.mem_cons_of_mem _ hr, hc⟩

theorem mem_intercalate_of_mem {sep p : List α} {pieces : List (List α)} {c : α}
    (hp : p ∈ pieces) (hc : c ∈ p) : c ∈ sep.intercalate pieces := by
  induction pieces with
  | nil => cases hp
  | cons q qs ih =>
      rcases List.mem_cons.1 hp with rfl | hp
      · cases qs with
        | nil =>
            rw [List.intercalate_singleton]
            exact hc
        | cons r qs =>
            rw [List.intercalate_cons_cons, List.append_assoc]
            exact List.mem_append_left _ hc
      · rw [List.intercalate_cons_of_ne_nil (List.ne_nil_of_mem hp)]
        exact List.mem_append_right _ (ih hp)

/-! ### Collapsing -/

section Collapse

variable (gap : α) (accepts : α → Bool)

/-- One gap for every run of accepted characters, when `inRun` tells whether one comes before. -/
def collapseFrom : Bool → List α → List α
  | _, [] => []
  | inRun, c :: rest =>
      if accepts c then
        if inRun then collapseFrom true rest else gap :: collapseFrom true rest
      else c :: collapseFrom false rest

/-- One gap for every run of accepted characters. -/
def collapse (l : List α) : List α := collapseFrom gap accepts false l

variable {gap accepts}

theorem collapseFrom_congr {accepts' : α → Bool} {l : List α}
    (h : ∀ c ∈ l, accepts c = accepts' c) (inRun : Bool) :
    collapseFrom gap accepts inRun l = collapseFrom gap accepts' inRun l := by
  induction l generalizing inRun with
  | nil => rfl
  | cons c rest ih =>
      have hc := h c List.mem_cons_self
      have hrest := ih fun d hd => h d (List.mem_cons_of_mem _ hd)
      simp only [collapseFrom, hc, hrest]

variable (gap) in
theorem mem_collapseFrom {c : α} {l : List α} (hc : c ∈ l) (hnot : accepts c = false)
    (inRun : Bool) : c ∈ collapseFrom gap accepts inRun l := by
  induction l generalizing inRun with
  | nil => cases hc
  | cons d rest ih =>
      rw [collapseFrom]
      rcases List.mem_cons.1 hc with rfl | hc
      · rw [if_neg (by simp [hnot])]
        exact List.mem_cons_self
      · split
        · split
          · exact ih hc true
          · exact List.mem_cons_of_mem _ (ih hc true)
        · exact List.mem_cons_of_mem _ (ih hc false)

theorem of_mem_collapseFrom {c : α} {l : List α} {inRun : Bool}
    (hc : c ∈ collapseFrom gap accepts inRun l) : c = gap ∨ c ∈ l ∧ accepts c = false := by
  induction l generalizing inRun with
  | nil => cases hc
  | cons d rest ih =>
      have hlift {b : Bool} (h : c ∈ collapseFrom gap accepts b rest) :
          c = gap ∨ c ∈ d :: rest ∧ accepts c = false :=
        (ih h).imp_right fun h => ⟨List.mem_cons_of_mem _ h.1, h.2⟩
      rw [collapseFrom] at hc
      split at hc
      · split at hc
        · exact hlift hc
        · rcases List.mem_cons.1 hc with hgap | hc
          · exact .inl hgap
          · exact hlift hc
      · rename_i hnot
        rcases List.mem_cons.1 hc with rfl | hc
        · exact .inr ⟨List.mem_cons_self, by simpa using hnot⟩
        · exact hlift hc

/-- A smaller class that has the gap collapses a text to the same exactly when the text has nothing
else of the larger class. -/
theorem collapse_eq_iff {accepts' : α → Bool} (hgap : accepts gap = true)
    (hle : ∀ c, accepts c = true → accepts' c = true) (l : List α) :
    collapse gap accepts l = collapse gap accepts' l ↔
      ∀ c ∈ l, accepts' c = true → accepts c = true := by
  constructor
  · intro h c hc haccepts'
    by_contra hnot
    rw [Bool.not_eq_true] at hnot
    have hmem := mem_collapseFrom gap hc hnot false
    rw [← collapse, h] at hmem
    rcases of_mem_collapseFrom hmem with rfl | hmem
    · rw [hgap] at hnot
      cases hnot
    · rw [haccepts'] at hmem
      cases hmem.2
  · intro h
    refine collapseFrom_congr (fun c hc => ?_) false
    rw [Bool.eq_iff_iff]
    exact ⟨hle c, h c hc⟩

/-- Collapsing makes a text no heavier, when no accepted character is lighter than the gap. -/
theorem sum_collapseFrom_le {M : Type} [AddCommMonoid M] [PartialOrder M] [IsOrderedAddMonoid M]
    {weight : α → M} (hnonneg : ∀ c, 0 ≤ weight c)
    (hgap : ∀ c, accepts c = true → weight gap ≤ weight c) (l : List α) (inRun : Bool) :
    ((collapseFrom gap accepts inRun l).map weight).sum ≤ (l.map weight).sum := by
  induction l generalizing inRun with
  | nil => exact le_refl _
  | cons c rest ih =>
      rw [collapseFrom, List.map_cons, List.sum_cons]
      split
      · rename_i hc
        split
        · exact (ih true).trans (le_add_of_nonneg_left (hnonneg c))
        · rw [List.map_cons, List.sum_cons]
          exact add_le_add (hgap c hc) (ih true)
      · rw [List.map_cons, List.sum_cons]
        exact add_le_add (le_refl _) (ih false)

variable (gap accepts) in
theorem length_collapseFrom_le (l : List α) (inRun : Bool) :
    (collapseFrom gap accepts inRun l).length ≤ l.length := by
  have hsum := @sum_collapseFrom_le α gap accepts ℕ _ _ _ (fun _ => 1) (fun _ => Nat.zero_le 1)
    (fun _ _ => le_refl 1) l inRun
  simpa using hsum

/-- There is nothing to collapse exactly when the text has no accepted character but the gap, and no
two of them in a row. -/
theorem collapseFrom_eq_self_iff (l : List α) (inRun : Bool) :
    collapseFrom gap accepts inRun l = l ↔ (∀ c ∈ l, accepts c = true → c = gap) ∧
      l.IsChain (fun c d => accepts c = true → accepts d = false) ∧
      (inRun = true → ∀ c ∈ l.head?, accepts c = false) := by
  induction l generalizing inRun with
  | nil => simp [collapseFrom]
  | cons c rest ih =>
      rw [collapseFrom, List.isChain_cons]
      cases haccepts : accepts c with
      | false => simp [ih, haccepts]
      | true =>
          cases inRun with
          | false =>
              simp only [if_true, Bool.false_eq_true, if_false, List.cons.injEq, ih]
              constructor
              · rintro ⟨rfl, hgap, hchain, hhead⟩
                refine ⟨?_, ⟨fun d hd _ => hhead trivial d hd, hchain⟩, by simp⟩
                intro d hd hd'
                rcases List.mem_cons.1 hd with rfl | hd
                · rfl
                · exact hgap d hd hd'
              · rintro ⟨hgap, ⟨hhead, hchain⟩, -⟩
                exact ⟨(hgap c List.mem_cons_self haccepts).symm,
                  fun d hd => hgap d (List.mem_cons_of_mem _ hd), hchain,
                  fun _ d hd => hhead d hd trivial⟩
          | true =>
              -- the character is dropped, so that the text gets shorter
              have hshort := length_collapseFrom_le gap accepts rest true
              constructor
              · intro h
                have hlength := congrArg List.length h
                simp only [if_true, List.length_cons] at hlength
                omega
              · rintro ⟨-, -, hhead⟩
                have := hhead rfl c rfl
                rw [haccepts] at this
                cases this

/-- Nothing is left of a text of accepted characters. -/
theorem rdropWhile_cons (c : α) (l : List α) : (c :: l).rdropWhile accepts =
    if accepts c = true ∧ l.rdropWhile accepts = [] then [] else c :: l.rdropWhile accepts := by
  induction l using List.reverseRecOn with
  | nil =>
      cases haccepts : accepts c with
      | true => simp [List.rdropWhile, haccepts]
      | false => simp [List.rdropWhile, haccepts]
  | append_singleton l d ih =>
      rw [← List.cons_append]
      by_cases hd : accepts d = true
      · rw [List.rdropWhile_concat_pos _ _ _ hd, List.rdropWhile_concat_pos _ _ _ hd, ih]
      · rw [List.rdropWhile_concat_neg _ _ _ hd, List.rdropWhile_concat_neg _ _ _ hd]
        simp

/-- A run ends before a character that is not accepted. -/
theorem collapseFrom_append {x : List α} (hx : ∀ c ∈ x.head?, accepts c = false) (l : List α)
    (inRun : Bool) : collapseFrom gap accepts inRun (l ++ x) =
      collapseFrom gap accepts inRun l ++ collapseFrom gap accepts false x := by
  induction l generalizing inRun with
  | nil =>
      cases x with
      | nil => cases inRun <;> rfl
      | cons c x =>
          have hc := hx c rfl
          simp [collapseFrom, hc]
  | cons c l ih =>
      rw [List.cons_append, collapseFrom, collapseFrom]
      split
      · split
        · exact ih true
        · rw [ih true, List.cons_append]
      · rw [ih false, List.cons_append]

/-- Collapsing keeps the first character, when that is not accepted. -/
theorem head?_collapse {l : List α} (h : ∀ c ∈ l.head?, accepts c = false) :
    (collapse gap accepts l).head? = l.head? := by
  cases l with
  | nil => rfl
  | cons c l => simp [collapse, collapseFrom, h c rfl]

/-- Collapsing keeps the last character, when that is not accepted. -/
theorem getLast?_collapse {l : List α} (h : ∀ c ∈ l.getLast?, accepts c = false) :
    (collapse gap accepts l).getLast? = l.getLast? := by
  induction l using List.reverseRecOn with
  | nil => rfl
  | append_singleton l c ih =>
      have hc : accepts c = false := h c (by simp)
      rw [collapse, collapseFrom_append (by simpa using hc)]
      simp [collapseFrom, hc]

/-- Collapsing between blanks. -/
theorem exists_collapse_pad {t : List α} (hhead : ∀ c ∈ t.head?, accepts c = false)
    (hlast : ∀ c ∈ t.getLast?, accepts c = false) (hne : t ≠ []) (u v : List α) (inRun : Bool) :
    collapseFrom gap accepts inRun (u ++ t ++ v) = collapseFrom gap accepts inRun u ++
      collapse gap accepts t ++ collapseFrom gap accepts false v := by
  obtain ⟨t, c, rfl⟩ := List.eq_nil_or_concat' t |>.resolve_left hne
  have hc : accepts c = false := hlast c (by simp)
  have hstart : ∀ d ∈ (t ++ [c] ++ v).head?, accepts d = false := by
    intro d hd
    refine hhead d ?_
    cases t with
    | nil => simpa using hd
    | cons e t => simpa using hd
  have hend : ∀ d ∈ ([c] ++ v).head?, accepts d = false := by simpa using hc
  have hone : collapseFrom gap accepts false ([c] ++ v) =
      [c] ++ collapseFrom gap accepts false v := by simp [collapseFrom, hc]
  rw [List.append_assoc u, collapseFrom_append hstart, List.append_assoc t,
    collapseFrom_append hend, hone, collapse, collapseFrom_append (by simpa using hc)]
  simp [collapseFrom, hc]

/-- The words of a text with one gap between neighbours; with a character in front of it, when that
is part of a word. -/
theorem intercalate_words (l : List α) :
    List.intercalate [gap] ((l.splitOnP accepts).filter fun w => !w.isEmpty) =
        collapseFrom gap accepts true (l.rdropWhile accepts) ∧
      ∀ c, List.intercalate [gap]
          (((l.splitOnP accepts).modifyHead (c :: ·)).filter fun w => !w.isEmpty) =
        c :: collapseFrom gap accepts false (l.rdropWhile accepts) := by
  induction l with
  | nil => exact ⟨rfl, fun c => rfl⟩
  | cons d rest ih =>
      obtain ⟨hwords, hopen⟩ := ih
      rw [List.splitOnP_cons_eq_if_modifyHead, rdropWhile_cons]
      cases haccepts : accepts d with
      | true =>
          simp only [if_true, List.modifyHead_cons, true_and]
          have hskip : List.filter (fun w => !w.isEmpty) ([] :: rest.splitOnP accepts) =
              (rest.splitOnP accepts).filter fun w => !w.isEmpty := rfl
          have hkeep (c : α) : List.filter (fun w => !w.isEmpty) ([c] :: rest.splitOnP accepts) =
              [c] :: (rest.splitOnP accepts).filter fun w => !w.isEmpty := rfl
          simp only [hskip, hkeep]
          by_cases hnil : rest.rdropWhile accepts = []
          · -- only accepted characters follow, and no word
            rw [hnil, collapseFrom] at hwords
            have hnone : ((rest.splitOnP accepts).filter fun w => !w.isEmpty) = [] := by
              cases hfilter : (rest.splitOnP accepts).filter fun w => !w.isEmpty with
              | nil => rfl
              | cons w ws =>
                  have hw := (List.mem_filter.1 (hfilter ▸ @List.mem_cons_self _ w ws)).2
                  rw [hfilter] at hwords
                  cases w with
                  | nil => cases hw
                  | cons e w =>
                      rw [List.intercalate_cons_cons_left] at hwords
                      cases hwords
            rw [if_pos hnil, hnone]
            exact ⟨rfl, fun c => rfl⟩
          · rw [if_neg hnil, collapseFrom, collapseFrom, haccepts, ← hwords]
            refine ⟨rfl, ?_⟩
            intro c
            cases hfilter : (rest.splitOnP accepts).filter fun w => !w.isEmpty with
            | nil =>
                -- what ends a trimmed text is in one of its words
                have hlast := List.rdropWhile_last_not accepts rest hnil
                rw [Bool.not_eq_true] at hlast
                have hmem := mem_collapseFrom gap (List.getLast_mem hnil) hlast true
                rw [← hwords, hfilter] at hmem
                cases hmem
            | cons w ws => rfl
      | false =>
          simp only [Bool.false_eq_true, if_false, false_and, hopen, collapseFrom, haccepts]
          refine ⟨trivial, ?_⟩
          intro c
          have hne := List.splitOnP_ne_nil accepts rest
          cases hsplit : rest.splitOnP accepts with
          | nil => exact absurd hsplit hne
          | cons w ws =>
              have hd := hopen d
              rw [hsplit] at hd
              simp only [List.modifyHead_cons] at hd ⊢
              rw [← hd]
              exact List.intercalate_cons_cons_left

/-- Joining the words of a text is collapsing what is left when it is stripped. -/
theorem intercalate_words_eq (l : List α) :
    List.intercalate [gap] ((l.splitOnP accepts).filter fun w => !w.isEmpty) =
      collapse gap accepts (strip accepts l) := by
  obtain ⟨u, v, hl, hu, hv⟩ := exists_pad accepts l
  have hhead := @head?_strip _ accepts l
  have hlast := @getLast?_strip _ accepts l
  rw [(intercalate_words l).1]
  generalize strip accepts l = t at hl hhead hlast ⊢
  -- blanks in front of the first word do not open a run
  have hdrop : ∀ (u : List α), (∀ c ∈ u, accepts c = true) → ∀ x,
      collapseFrom gap accepts true (u ++ x) = collapseFrom gap accepts true x := by
    intro u
    induction u with
    | nil => exact fun _ _ => rfl
    | cons c u ih =>
        intro hu x
        rw [List.cons_append, collapseFrom, if_pos (hu c List.mem_cons_self), if_pos rfl]
        exact ih (fun d hd => hu d (List.mem_cons_of_mem _ hd)) x
  rw [hl, rdropWhile_blanks hv]
  rcases List.eq_nil_or_concat' t with rfl | ⟨t, c, rfl⟩
  · rw [List.append_nil, List.rdropWhile_eq_nil_iff.2 hu]
    rfl
  · have hc : accepts c = false := hlast c (by simp)
    rw [← List.append_assoc, List.rdropWhile_concat_neg _ _ _ (by simp [hc]), List.append_assoc,
      hdrop u hu]
    exact collapseFrom_append hhead [] true

end Collapse

/-! ### First elements -/

section KeepFirst

variable {β γ : Type} [DecidableEq β] [DecidableEq γ] (key : α → β)

/-- The elements whose key is not that of an earlier one, nor among those seen before. -/
def keepFirst : List β → List α → List α
  | _, [] => []
  | seen, a :: rest =>
      if key a ∈ seen then keepFirst seen rest else a :: keepFirst (key a :: seen) rest

variable {key}

theorem keepFirst_sublist (seen : List β) (l : List α) : (keepFirst key seen l).Sublist l := by
  induction l generalizing seen with
  | nil => exact List.Sublist.refl _
  | cons a rest ih =>
      rw [keepFirst]
      split
      · exact (ih seen).cons a
      · exact (ih _).cons_cons a

theorem exists_mem_keepFirst_of_not_mem {seen : List β} {l : List α} {a : α} (ha : a ∈ l)
    (hseen : key a ∉ seen) : ∃ b ∈ keepFirst key seen l, key b = key a := by
  induction l generalizing seen with
  | nil => cases ha
  | cons b rest ih =>
      rw [keepFirst]
      by_cases hb : key b = key a
      · rw [if_neg (hb ▸ hseen)]
        exact ⟨b, List.mem_cons_self, hb⟩
      · have ha : a ∈ rest := by
          rcases List.mem_cons.1 ha with rfl | ha
          · exact absurd rfl hb
          · exact ha
        split
        · exact ih ha hseen
        · have hseen' : key a ∉ key b :: seen := by
            rw [List.mem_cons, not_or]
            exact ⟨fun h => hb h.symm, hseen⟩
          obtain ⟨kept, hkept, hkey⟩ := ih ha hseen'
          exact ⟨kept, List.mem_cons_of_mem _ hkept, hkey⟩

variable (key) in
/-- Of every key an element is kept. -/
theorem exists_mem_keepFirst {l : List α} {a : α} (ha : a ∈ l) :
    ∃ b ∈ keepFirst key [] l, key b = key a :=
  exists_mem_keepFirst_of_not_mem ha List.not_mem_nil

theorem keepFirst_fresh {seen : List β} {l : List α} {a : α} (ha : a ∈ keepFirst key seen l) :
    key a ∉ seen := by
  induction l generalizing seen with
  | nil => cases ha
  | cons b rest ih =>
      rw [keepFirst] at ha
      split at ha
      · exact ih ha
      · rename_i hseen
        rcases List.mem_cons.1 ha with rfl | ha
        · exact hseen
        · exact fun h => ih ha (List.mem_cons_of_mem _ h)

/-- No two of the elements kept have the same key. -/
theorem keepFirst_injective {seen : List β} {l : List α} {a b : α} (ha : a ∈ keepFirst key seen l)
    (hb : b ∈ keepFirst key seen l) (h : key a = key b) : a = b := by
  induction l generalizing seen with
  | nil => cases ha
  | cons c rest ih =>
      rw [keepFirst] at ha hb
      split at ha
      · rename_i hseen
        rw [if_pos hseen] at hb
        exact ih ha hb
      · rename_i hseen
        rw [if_neg hseen] at hb
        have hfresh {d : α} (hd : d ∈ keepFirst key (key c :: seen) rest) : key d ≠ key c :=
          fun hkey => keepFirst_fresh hd (hkey ▸ List.mem_cons_self)
        rcases List.mem_cons.1 ha with rfl | ha <;> rcases List.mem_cons.1 hb with rfl | hb
        · rfl
        · exact absurd h.symm (hfresh hb)
        · exact absurd h (hfresh ha)
        · exact ih ha hb

/-- Two keys that tell the same elements apart keep the same elements. -/
theorem keepFirst_congr {key' : α → γ} {seen : List β} {seen' : List γ} {l : List α}
    (hseen : ∀ a ∈ l, key a ∈ seen ↔ key' a ∈ seen')
    (h : ∀ a ∈ l, ∀ b ∈ l, key a = key b ↔ key' a = key' b) :
    keepFirst key seen l = keepFirst key' seen' l := by
  induction l generalizing seen seen' with
  | nil => rfl
  | cons a rest ih =>
      have hrest : ∀ b ∈ rest, ∀ c ∈ rest, key b = key c ↔ key' b = key' c :=
        fun b hb c hc => h b (List.mem_cons_of_mem _ hb) c (List.mem_cons_of_mem _ hc)
      rw [keepFirst, keepFirst]
      simp only [hseen a List.mem_cons_self]
      split
      · exact ih (fun b hb => hseen b (List.mem_cons_of_mem _ hb)) hrest
      · congr 1
        refine ih (fun b hb => ?_) hrest
        rw [List.mem_cons, List.mem_cons, hseen b (List.mem_cons_of_mem _ hb),
          h b (List.mem_cons_of_mem _ hb) a List.mem_cons_self]

/-- Keeping by a key and taking the keys is keeping among the keys. -/
theorem map_keepFirst (seen : List β) (l : List α) :
    (keepFirst key seen l).map key = keepFirst id seen (l.map key) := by
  induction l generalizing seen with
  | nil => rfl
  | cons a rest ih =>
      rw [keepFirst, List.map_cons, keepFirst, id]
      split
      · exact ih seen
      · rw [List.map_cons, ih]

theorem mem_keepFirst_append {before after : List α} {a : α} {seen : List β}
    (hseen : key a ∉ seen) (hfirst : ∀ b ∈ before, key b ≠ key a) :
    a ∈ keepFirst key seen (before ++ a :: after) := by
  induction before generalizing seen with
  | nil =>
      rw [List.nil_append, keepFirst, if_neg hseen]
      exact List.mem_cons_self
  | cons b rest ih =>
      have hrest := fun c hc => hfirst c (List.mem_cons_of_mem _ hc)
      rw [List.cons_append, keepFirst]
      split
      · exact ih hseen hrest
      · refine List.mem_cons_of_mem _ (ih ?_ hrest)
        rw [List.mem_cons, not_or]
        exact ⟨fun h => hfirst b List.mem_cons_self h.symm, hseen⟩

variable (key) in
/-- An element that comes after none with its key is kept. -/
theorem mem_keepFirst_of_first {before : List α} {a : α} (after : List α)
    (hfirst : ∀ b ∈ before, key b ≠ key a) : a ∈ keepFirst key [] (before ++ a :: after) :=
  mem_keepFirst_append List.not_mem_nil hfirst

/-- An element that is kept comes after none with its key. -/
theorem exists_first_of_mem_keepFirst {l : List α} {a : α} {seen : List β}
    (ha : a ∈ keepFirst key seen l) :
    ∃ before after, l = before ++ a :: after ∧ ∀ b ∈ before, key b ≠ key a := by
  induction l generalizing seen with
  | nil => cases ha
  | cons b rest ih =>
      rw [keepFirst] at ha
      by_cases hb : b = a
      · exact ⟨[], rest, by rw [hb]; rfl, by simp⟩
      · split at ha
        · rename_i hseen
          obtain ⟨before, after, rfl, hfirst⟩ := ih ha
          refine ⟨b :: before, after, rfl, ?_⟩
          intro c hc
          rcases List.mem_cons.1 hc with rfl | hc
          · exact fun h => keepFirst_fresh ha (h ▸ hseen)
          · exact hfirst c hc
        · rename_i hseen
          have ha : a ∈ keepFirst key (key b :: seen) rest :=
            (List.mem_cons.1 ha).resolve_left fun h => hb h.symm
          obtain ⟨before, after, rfl, hfirst⟩ := ih ha
          refine ⟨b :: before, after, rfl, ?_⟩
          intro c hc
          rcases List.mem_cons.1 hc with rfl | hc
          · exact fun h => keepFirst_fresh ha (h ▸ List.mem_cons_self)
          · exact hfirst c hc

/-- The keys of the elements kept are all different. -/
theorem nodup_keepFirst (seen : List β) (l : List α) : ((keepFirst key seen l).map key).Nodup := by
  induction l generalizing seen with
  | nil => exact List.nodup_nil
  | cons a rest ih =>
      rw [keepFirst]
      split
      · exact ih seen
      · refine List.nodup_cons.2 ⟨?_, ih _⟩
        intro hmem
        obtain ⟨b, hb, hkey⟩ := List.mem_map.1 hmem
        exact keepFirst_fresh hb (hkey ▸ List.mem_cons_self)

/-- Nothing is dropped when no two elements have the same key. -/
theorem keepFirst_eq_self {seen : List β} {l : List α} (h : (l.map key).Nodup)
    (hseen : ∀ a ∈ l, key a ∉ seen) : keepFirst key seen l = l := by
  induction l generalizing seen with
  | nil => rfl
  | cons a rest ih =>
      obtain ⟨ha, hrest⟩ := List.nodup_cons.1 h
      rw [keepFirst, if_neg (hseen a List.mem_cons_self), ih hrest]
      intro b hb hmem
      rcases List.mem_cons.1 hmem with hkey | hmem
      · exact ha (hkey ▸ List.mem_map_of_mem hb)
      · exact hseen b (List.mem_cons_of_mem _ hb) hmem

variable (key) in
/-- The elements whose key none of the elements before them has. -/
def firsts (l : List α) : List α :=
  (l.zipIdx.filter fun p => (l.take p.2).all fun b => key b != key p.1).map Prod.fst

theorem keepFirst_eq_filter {seen : List β} {before l : List α}
    (hseen : ∀ k, k ∈ seen ↔ k ∈ before.map key) :
    keepFirst key seen l = ((l.zipIdx before.length).filter fun p =>
      ((before ++ l).take p.2).all fun b => key b != key p.1).map Prod.fst := by
  induction l generalizing seen before with
  | nil => rfl
  | cons a rest ih =>
      have hfresh :
          (((before ++ a :: rest).take before.length).all fun b => key b != key a) = true ↔
            key a ∉ seen := by
        rw [List.take_left, List.all_eq_true, hseen, List.mem_map]
        simp
      have hsplit : before ++ a :: rest = (before ++ [a]) ++ rest := by simp
      rw [keepFirst, List.zipIdx_cons, List.filter_cons]
      simp only [hfresh]
      have hlength : before.length + 1 = (before ++ [a]).length := by simp
      by_cases ha : key a ∈ seen
      · rw [if_pos ha, if_neg (not_not.2 ha), hsplit, hlength]
        refine ih ?_
        intro k
        rw [List.map_append, List.mem_append, ← hseen, List.map_singleton, List.mem_singleton]
        constructor
        · exact Or.inl
        · rintro (hk | rfl)
          · exact hk
          · exact ha
      · rw [if_neg ha, if_pos ha, List.map_cons, hsplit, hlength]
        congr 1
        refine ih ?_
        intro k
        rw [List.map_append, List.mem_append, List.mem_cons, hseen, List.map_singleton,
          List.mem_singleton, or_comm]

/-- The elements kept are the first ones of their keys. -/
theorem keepFirst_eq_firsts (l : List α) : keepFirst key [] l = firsts key l :=
  @keepFirst_eq_filter α β _ key [] [] l (by simp)

end KeepFirst

end TextRuns
