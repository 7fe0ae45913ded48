/-
Measures of joined texts.

A measure that adds up over a separator, with a fixed cost for the separator, adds up over a join
with one cost less than there are pieces.  Joining texts that are joins themselves is the same as
joining their pieces, so that the order in which a text was put together does not matter.

Main results:

* `Joined.sum_of_join` — the measure of a join;
* `Joined.join_le_of_sublist` — leaving pieces out makes a join no larger;
* `Joined.intercalate_flatten` — a join of joins.
-/

import Mathlib.Algebra.Order.BigOperators.Group.List
import Mathlib.Algebra.Order.Monoid.Unbundled.Pow
import Mathlib.Tactic.Abel

set_option relaxedAutoImplicit false
set_option autoImplicit false

namespace Joined

/-- The measure of a join, when each separator costs `cost`. -/
theorem sum_of_join {M : Type} [AddCommMonoid M] {measure : String → M} {sep : String} {cost : M}
    (hempty : measure "" = 0)
    (hjoin : ∀ x y, measure (x ++ sep ++ y) = measure x + cost + measure y) (l : List String) :
    measure (sep.intercalate l) = (l.map measure).sum + (l.length - 1) • cost := by
  induction l with
  | nil => simp [hempty]
  | cons x l ih =>
      cases l with
      | nil => simp
      | cons y l =>
          calc measure (sep.intercalate (x :: y :: l))
              = measure x + cost +
                  (((y :: l).map measure).sum + ((y :: l).length - 1) • cost) := by
                rw [String.intercalate_cons_of_ne_nil (List.cons_ne_nil y l), hjoin, ih]
            _ = measure x + ((y :: l).map measure).sum + ((y :: l).length - 1 + 1) • cost := by
                rw [succ_nsmul]
                abel
            _ = ((x :: y :: l).map measure).sum + ((x :: y :: l).length - 1) • cost := rfl

/-- Fewer pieces do not join to more, when neither a piece nor a separator counts less than
nothing. -/
theorem join_le_of_sublist {M : Type} [AddCommMonoid M] [PartialOrder M] [IsOrderedAddMonoid M]
    {measure : String → M} {sep : String} {cost : M} (hempty : measure "" = 0)
    (hjoin : ∀ x y, measure (x ++ sep ++ y) = measure x + cost + measure y)
    (hnonneg : ∀ x, 0 ≤ measure x) (hcost : 0 ≤ cost) {l l' : List String} (h : l.Sublist l') :
    measure (sep.intercalate l) ≤ measure (sep.intercalate l') := by
  rw [sum_of_join hempty hjoin, sum_of_join hempty hjoin]
  refine add_le_add ((h.map measure).sum_le_sum fun x hx => ?_)
    (nsmul_le_nsmul_left hcost (Nat.sub_le_sub_right h.length_le 1))
  obtain ⟨y, -, rfl⟩ := List.mem_map.1 hx
  exact hnonneg y

/-- A join of pieces is empty only if there are none, when no piece is empty. -/
theorem intercalate_ne_empty (sep : String) {l : List String} (hne : l ≠ [])
    (hpieces : ∀ x ∈ l, x ≠ "") : sep.intercalate l ≠ "" := by
  cases l with
  | nil => exact absurd rfl hne
  | cons x l =>
      have hx := hpieces x (List.mem_cons_self ..)
      cases l with
      | nil => rwa [String.intercalate_singleton]
      | cons y l =>
          rw [String.intercalate_cons_cons, String.append_assoc]
          intro hempty
          exact hx (String.append_eq_empty_iff.1 hempty).1

/-- Joining the joins that are not empty is joining all pieces. -/
theorem intercalate_flatten (sep : String) {groups : List (List String)}
    (hpieces : ∀ group ∈ groups, ∀ x ∈ group, x ≠ "") :
    sep.intercalate ((groups.map sep.intercalate).filter fun text => !text.isEmpty) =
      sep.intercalate groups.flatten := by
  induction groups with
  | nil => rfl
  | cons group groups ih =>
      have hgroup := hpieces group (List.mem_cons_self ..)
      have hrest : ∀ group ∈ groups, ∀ x ∈ group, x ≠ "" :=
        fun g hg => hpieces g (List.mem_cons_of_mem _ hg)
      specialize ih hrest
      rw [List.map_cons, List.flatten_cons]
      by_cases hnil : group = []
      · subst hnil
        simpa using ih
      · have htext := intercalate_ne_empty sep hnil hgroup
        rw [List.filter_cons_of_pos (by simpa using htext)]
        by_cases hflat : groups.flatten = []
        · -- no later group has a piece, so no separator follows
          have hnone : (groups.map sep.intercalate).filter (fun text => !text.isEmpty) = [] := by
            refine List.filter_eq_nil_iff.2 ?_
            intro text htext
            obtain ⟨g, hg, rfl⟩ := List.mem_map.1 htext
            rw [List.flatten_eq_nil_iff.1 hflat g hg]
            simp
          rw [hnone, hflat, List.append_nil, String.intercalate_singleton]
        · have hsome : (groups.map sep.intercalate).filter (fun text => !text.isEmpty) ≠ [] := by
            intro hnone
            rw [hnone, String.intercalate_nil] at ih
            refine intercalate_ne_empty sep hflat ?_ ih.symm
            intro x hx
            obtain ⟨g, hg, hx⟩ := List.mem_flatten.1 hx
            exact hrest g hg x hx
          rw [String.intercalate_cons_of_ne_nil hsome, ih,
            String.intercalate_append_of_ne_nil hnil hflat]

end Joined
