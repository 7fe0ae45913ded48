/-
Fields and separators.

Joining fields with a separator loses where they end as soon as a field may contain the separator
itself.  If only the field after the first is known to be free of it, two joins can still be equal
in no other way than that one first field continues with the separator and the second field of the
other.

Main results:

* `Separated.split_cases` — how two joins of two fields can be equal;
* `Separated.head_cases` — how two joins of three fields can be equal.
-/

import Mathlib.Data.List.Infix

set_option relaxedAutoImplicit false
set_option autoImplicit false

namespace Separated

variable {α : Type} {sep : α}

/-- How two joins of two fields can be equal: one first field may continue with the separator. -/
theorem split_cases {x x' r r' : List α} (h : x ++ sep :: r = x' ++ sep :: r') :
    (x = x' ∧ r = r') ∨ (∃ u, x' = x ++ sep :: u ∧ r = u ++ sep :: r') ∨
      ∃ u, x = x' ++ sep :: u ∧ r' = u ++ sep :: r := by
  rcases List.append_eq_append_iff.1 h with ⟨w, hx, hr⟩ | ⟨w, hx, hr⟩
  · cases w with
    | nil => exact Or.inl ⟨by simpa using hx.symm, by simpa using hr⟩
    | cons c w =>
        obtain ⟨rfl, hrest⟩ := List.cons.inj hr
        exact Or.inr (Or.inl ⟨w, hx, hrest⟩)
  · cases w with
    | nil => exact Or.inl ⟨by simpa using hx, by simpa using hr.symm⟩
    | cons c w =>
        obtain ⟨rfl, hrest⟩ := List.cons.inj hr
        exact Or.inr (Or.inr ⟨w, hx, hrest⟩)

/-- A first field without separators is the other first field, or the start of it. -/
theorem free_cases {x x' r r' : List α} (hx : sep ∉ x) (h : x ++ sep :: r = x' ++ sep :: r') :
    (x = x' ∧ r = r') ∨ ∃ u, x' = x ++ sep :: u ∧ r = u ++ sep :: r' := by
  rcases split_cases h with hsame | hlong | ⟨u, rfl, -⟩
  · exact Or.inl hsame
  · exact Or.inr hlong
  · exact absurd (by simp) hx

/-- First fields without separators are the same. -/
theorem free_eq {x x' r r' : List α} (hx : sep ∉ x) (hx' : sep ∉ x')
    (h : x ++ sep :: r = x' ++ sep :: r') : x = x' ∧ r = r' := by
  rcases free_cases hx h with hsame | ⟨u, rfl, -⟩
  · exact hsame
  · exact absurd (by simp) hx'

/-- A field without separators ends where the first separator stands. -/
theorem field_prefix {t v l : List α} (ht : sep ∉ t) (h : t ++ [sep] <+: l)
    (h' : v ++ [sep] <+: l) : t ++ [sep] <+: v ++ [sep] := by
  rcases List.prefix_or_prefix_of_prefix h h' with hshort | hlong
  · exact hshort
  · rcases List.prefix_concat_iff.1 hlong with heq | hlong
    · rw [heq]
    · exact absurd (hlong.subset (by simp)) ht

/-- If the first field is a prefix of the other first field, it is the same or the other one
continues with a separator and the second field. -/
theorem head_cases_of_prefix {h h' t r r' : List α} (ht : sep ∉ t) (hstarts : h <+: h')
    (heq : h ++ sep :: (t ++ sep :: r) = h' ++ sep :: r') :
    h = h' ∨ h ++ sep :: (t ++ [sep]) <+: h' ++ [sep] := by
  obtain ⟨w, rfl⟩ := hstarts
  rw [List.append_assoc, List.append_cancel_left_eq] at heq
  cases w with
  | nil => exact Or.inl (List.append_nil h).symm
  | cons c w =>
      rw [List.cons_append, List.cons.injEq] at heq
      obtain ⟨rfl, heq⟩ := heq
      right
      have hfield : t ++ [sep] <+: w ++ [sep] :=
        field_prefix ht (l := t ++ sep :: r) ⟨r, by simp⟩ (heq ▸ ⟨r', by simp⟩)
      rw [List.append_assoc, List.prefix_append_right_inj, List.cons_append, List.cons_prefix_cons]
      exact ⟨rfl, hfield⟩

/-- How two joins of three fields can be equal whose second fields are free of separators. -/
theorem head_cases {h h' t t' r r' : List α} (ht : sep ∉ t) (ht' : sep ∉ t')
    (heq : h ++ sep :: (t ++ sep :: r) = h' ++ sep :: (t' ++ sep :: r')) :
    h = h' ∨ h ++ sep :: (t ++ [sep]) <+: h' ++ [sep] ∨
      h' ++ sep :: (t' ++ [sep]) <+: h ++ [sep] := by
  have hleft : h <+: h ++ sep :: (t ++ sep :: r) := List.prefix_append _ _
  have hright : h' <+: h ++ sep :: (t ++ sep :: r) := heq ▸ List.prefix_append _ _
  rcases List.prefix_or_prefix_of_prefix hleft hright with hstarts | hstarts
  · rcases head_cases_of_prefix ht hstarts heq with hsame | hlong
    · exact Or.inl hsame
    · exact Or.inr (Or.inl hlong)
  · rcases head_cases_of_prefix ht' hstarts heq.symm with hsame | hlong
    · exact Or.inl hsame.symm
    · exact Or.inr (Or.inr hlong)

end Separated
