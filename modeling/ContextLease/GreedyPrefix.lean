/-
The longest prefix that passes a test.

A loop that appends one element after another, as long as the list it has reached passes a test,
computes the longest prefix of its input all of whose own prefixes pass.  When one test is stricter
than another, its loop stops earlier, and what it drops can be told from the prefixes alone.

Main definitions:

* `GreedyPrefix.extend` — the loop;
* `GreedyPrefix.Within` — all prefixes of a list pass;
* `GreedyPrefix.Tips` — the place in a list where the next element is the first that does not pass.

Main results:

* `GreedyPrefix.prefix_extend_iff` — the prefixes of the result are those that are within the test;
* `GreedyPrefix.extend_eq_self_iff`, `GreedyPrefix.extend_eq_of_tips` — where the loop stops;
* `GreedyPrefix.extend_stricter` — what a stricter loop drops, and when it is all of one kind.
-/

import Mathlib.Data.List.Infix

set_option relaxedAutoImplicit false
set_option autoImplicit false

namespace GreedyPrefix

variable {α : Type}

/-- All prefixes of a list pass a test. -/
def Within (ok : List α → Prop) (l : List α) : Prop := ∀ p, p <+: l → ok p

theorem Within.of_prefix {ok : List α → Prop} {p l : List α} (h : Within ok l) (hp : p <+: l) :
    Within ok p := fun _ hq => h _ (hq.trans hp)

theorem Within.mono {ok ok' : List α → Prop} (himp : ∀ l, ok' l → ok l) {l : List α}
    (h : Within ok' l) : Within ok l := fun p hp => himp p (h p hp)

/-- A list is within a test when all of it but the last element is, and it passes itself. -/
theorem Within.concat {ok : List α → Prop} {l : List α} {a : α} (h : Within ok l)
    (ha : ok (l ++ [a])) : Within ok (l ++ [a]) := by
  intro p hp
  rcases List.prefix_concat_iff.1 hp with rfl | hp
  · exact ha
  · exact h p hp

/-- The test is passed up to this place, and no longer with the next element. -/
structure Tips (ok : List α → Prop) (before rest : List α) : Prop where
  within : Within ok before
  exceeds : ∃ a after, rest = a :: after ∧ ¬ ok (before ++ [a])

theorem Tips.ne_append {ok : List α → Prop} {before rest : List α} (h : Tips ok before rest) :
    before ≠ before ++ rest := by
  obtain ⟨a, after, rfl, -⟩ := h.exceeds
  simp

section Extend

variable (ok : List α → Prop) [DecidablePred ok]

/-- The loop: `acc` is the prefix reached so far. -/
def extend : List α → List α → List α
  | acc, [] => acc
  | acc, a :: rest => if ok (acc ++ [a]) then extend (acc ++ [a]) rest else acc

/-- Tests that agree stop at the same place. -/
theorem extend_congr {ok ok' : List α → Prop} [DecidablePred ok] [DecidablePred ok']
    (h : ∀ l, ok l ↔ ok' l) (acc rest : List α) : extend ok acc rest = extend ok' acc rest := by
  induction rest generalizing acc with
  | nil => rfl
  | cons a rest ih => simp only [extend, h, ih]

/-- The loop returns a prefix of its input. -/
theorem extend_prefix (acc rest : List α) : extend ok acc rest <+: acc ++ rest := by
  induction rest generalizing acc with
  | nil =>
      rw [List.append_nil]
      exact List.prefix_refl acc
  | cons a rest ih =>
      rw [extend]
      split
      · have hrest := ih (acc ++ [a])
        rwa [List.append_assoc] at hrest
      · exact List.prefix_append acc (a :: rest)

variable {ok}

/-- The loop stays within the test, and returns the longest prefix of its input that does. -/
theorem extend_spec {acc : List α} (h : Within ok acc) (rest : List α) :
    Within ok (extend ok acc rest) ∧
      ∀ p, p <+: acc ++ rest → Within ok p → p <+: extend ok acc rest := by
  induction rest generalizing acc with
  | nil =>
      rw [List.append_nil]
      exact ⟨h, fun p hp _ => hp⟩
  | cons a rest ih =>
      have hsplit : acc ++ a :: rest = (acc ++ [a]) ++ rest := by simp
      have hacc : acc ++ [a] <+: acc ++ a :: rest := hsplit ▸ List.prefix_append _ rest
      rw [extend]
      split
      · rename_i hok
        rw [hsplit]
        exact ih (h.concat hok)
      · rename_i hok
        refine ⟨h, ?_⟩
        intro p hp hwithin
        -- a longer prefix would contain the one that does not pass
        rcases List.prefix_or_prefix_of_prefix hp hacc with hshort | hlong
        · rcases List.prefix_concat_iff.1 hshort with rfl | hshort
          · exact absurd (hwithin _ (List.prefix_refl _)) hok
          · exact hshort
        · exact absurd (hwithin _ hlong) hok

variable (ok) in
/-- The prefixes of the result are the prefixes of the input that are within the test. -/
theorem prefix_extend_iff (h : ok []) (l p : List α) :
    p <+: extend ok [] l ↔ p <+: l ∧ Within ok p := by
  have hnil : Within ok [] := by
    intro q hq
    rw [List.prefix_nil.1 hq]
    exact h
  have hstarts := extend_prefix ok [] l
  obtain ⟨hwithin, hlongest⟩ := extend_spec hnil l
  rw [List.nil_append] at hstarts hlongest
  exact ⟨fun hp => ⟨hp.trans hstarts, hwithin.of_prefix hp⟩, fun hp => hlongest p hp.1 hp.2⟩

/-- The loop reaches the end of its input exactly when all prefixes pass. -/
theorem extend_eq_self_iff (h : ok []) {l : List α} : extend ok [] l = l ↔ Within ok l := by
  constructor
  · intro heq
    exact ((prefix_extend_iff ok h l l).1 (by rw [heq])).2
  · intro hwithin
    have hall := (prefix_extend_iff ok h l l).2 ⟨List.prefix_refl l, hwithin⟩
    have hstarts := ((prefix_extend_iff ok h l _).1 (List.prefix_refl _)).1
    exact hstarts.eq_of_length (le_antisymm hstarts.length_le hall.length_le)

/-- Otherwise it stops where the next element does not pass. -/
theorem extend_eq_of_tips (h : ok []) {before rest : List α} (htips : Tips ok before rest) :
    extend ok [] (before ++ rest) = before := by
  obtain ⟨a, after, rfl, hnot⟩ := htips.exceeds
  obtain ⟨hstarts, hwithin⟩ :=
    (prefix_extend_iff ok h (before ++ a :: after) _).1 (List.prefix_refl _)
  have hreach := (prefix_extend_iff ok h (before ++ a :: after) before).2
    ⟨List.prefix_append _ _, htips.within⟩
  obtain ⟨more, hmore⟩ := hreach
  cases more with
  | nil => rw [← hmore, List.append_nil]
  | cons b more =>
      -- the loop would have gone on to the element that does not pass
      rw [← hmore, List.prefix_append_right_inj, List.cons_prefix_cons] at hstarts
      obtain ⟨rfl, -⟩ := hstarts
      refine absurd (hwithin (before ++ [b]) ?_) hnot
      rw [← hmore]
      exact ⟨more, by simp⟩

theorem tips_extend (h : ok []) {l : List α} (hne : extend ok [] l ≠ l) :
    ∃ rest, l = extend ok [] l ++ rest ∧ Tips ok (extend ok [] l) rest := by
  obtain ⟨⟨rest, hrest⟩, hwithin⟩ := (prefix_extend_iff ok h l _).1 (List.prefix_refl _)
  refine ⟨rest, hrest.symm, hwithin, ?_⟩
  cases rest with
  | nil => exact absurd ((List.append_nil _).symm.trans hrest) hne
  | cons a after =>
      refine ⟨a, after, rfl, ?_⟩
      intro hok
      have hlonger := (prefix_extend_iff ok h l (extend ok [] l ++ [a])).2
        ⟨⟨after, by rw [List.append_assoc, List.singleton_append, hrest]⟩, hwithin.concat hok⟩
      have hlength := hlonger.length_le
      rw [List.length_append, List.length_singleton] at hlength
      omega

variable (ok) in
/-- What a stricter test drops from the end consists of `junk` exactly when every prefix that ends
in something else and is within the laxer test is within the stricter one. -/
theorem extend_stricter (ok' : List α → Prop) [DecidablePred ok'] (himp : ∀ l, ok' l → ok l)
    (h : ok' []) (junk : α → Prop) (l : List α) :
    ∃ dropped, extend ok [] l = extend ok' [] l ++ dropped ∧
      ((∀ a ∈ dropped, junk a) ↔
        ∀ p a, p ++ [a] <+: l → ¬ junk a → Within ok (p ++ [a]) → Within ok' (p ++ [a])) := by
  have hkept := (prefix_extend_iff ok' h l _).1 (List.prefix_refl _)
  obtain ⟨dropped, hdropped⟩ :=
    (prefix_extend_iff ok (himp _ h) l _).2 ⟨hkept.1, hkept.2.mono himp⟩
  refine ⟨dropped, hdropped.symm, ?_⟩
  constructor
  · intro hjunk p a hp ha hwithin
    have hlax := (prefix_extend_iff ok (himp _ h) l _).2 ⟨hp, hwithin⟩
    rw [← hdropped] at hlax
    refine ((prefix_extend_iff ok' h l _).1 ?_).2
    rcases List.prefix_or_prefix_of_prefix hlax (List.prefix_append _ dropped) with
      hshort | ⟨t, ht⟩
    · exact hshort
    · -- a longer prefix would end in something dropped
      rcases List.eq_nil_or_concat t with rfl | ⟨t, b, rfl⟩
      · rw [List.append_nil] at ht
        rw [← ht]
      · rw [List.concat_eq_append, ← List.append_assoc] at ht
        obtain ⟨rfl, hb⟩ := List.append_inj' ht rfl
        rw [List.append_assoc, List.prefix_append_right_inj] at hlax
        have hmem : a ∈ dropped := hlax.subset (by simp)
        exact absurd (hjunk a hmem) ha
  · intro hall a ha
    obtain ⟨before, after, rfl⟩ := List.append_of_mem ha
    by_contra hnot
    have hlax : extend ok' [] l ++ before ++ [a] <+: extend ok [] l := by
      rw [← hdropped]
      exact ⟨after, by simp⟩
    obtain ⟨hp, hwithin⟩ := (prefix_extend_iff ok (himp _ h) l _).1 hlax
    have hlength := ((prefix_extend_iff ok' h l _).2 ⟨hp, hall _ a hp hnot hwithin⟩).length_le
    simp only [List.length_append, List.length_singleton] at hlength
    omega

end Extend

end GreedyPrefix
