/-
Rationing: a supply handed out along a queue.

The members of a queue are served in turn, each as much of its need as is left of the supply.  Who
needs nothing gets nothing and changes nothing for the others; and if something is left at the end,
then everybody got what it needs.

Main definitions:

* `Rationing.serve` — what each member of the queue gets;
* `Rationing.left` — what is left of the supply.

Main results:

* `Rationing.left_eq` — a supply is used up as far as it is needed;
* `Rationing.serve_of_left_pos` — everybody got what it needs if something is left;
* `Rationing.serve_filter` — who needs nothing makes no difference.
-/

import Mathlib.Algebra.BigOperators.Group.List.Basic
import Mathlib.Algebra.Order.BigOperators.Group.List
import Mathlib.Tactic.Linarith

set_option relaxedAutoImplicit false
set_option autoImplicit false

namespace Rationing

variable {α : Type} (need : α → ℤ)

/-- What each member of a queue gets out of a supply. -/
def serve : List α → ℤ → List (α × ℤ)
  | [], _ => []
  | a :: queue, supply => (a, min (need a) supply) :: serve queue (supply - min (need a) supply)

/-- What is left of a supply after a queue. -/
def left : List α → ℤ → ℤ
  | [], supply => supply
  | a :: queue, supply => left queue (supply - min (need a) supply)

@[simp] theorem map_fst_serve (queue : List α) (supply : ℤ) :
    (serve need queue supply).map Prod.fst = queue := by
  induction queue generalizing supply with
  | nil => rfl
  | cons a queue ih => rw [serve, List.map_cons, ih]

variable {need}

/-- A supply is used up as far as it is needed. -/
theorem left_eq {queue : List α} (hneed : ∀ a ∈ queue, 0 ≤ need a) {supply : ℤ}
    (hsupply : 0 ≤ supply) :
    left need queue supply = max (supply - (queue.map need).sum) 0 := by
  induction queue generalizing supply with
  | nil =>
      rw [left, List.map_nil, List.sum_nil]
      omega
  | cons a queue ih =>
      have ha := hneed a (List.mem_cons_self ..)
      have hrest : ∀ b ∈ queue, 0 ≤ need b := fun b hb => hneed b (List.mem_cons_of_mem _ hb)
      have hsum : 0 ≤ (queue.map need).sum := by
        refine List.sum_nonneg ?_
        intro x hx
        obtain ⟨b, hb, rfl⟩ := List.mem_map.1 hx
        exact hrest b hb
      rw [left, ih hrest (by omega), List.map_cons, List.sum_cons]
      omega

/-- If something is left, everybody got what it needs. -/
theorem serve_of_left_pos {queue : List α} (hneed : ∀ a ∈ queue, 0 ≤ need a) {supply : ℤ}
    (hsupply : 0 ≤ supply) (hleft : 0 < left need queue supply) :
    ∀ e ∈ serve need queue supply, e.2 = need e.1 := by
  induction queue generalizing supply with
  | nil =>
      intro e he
      cases he
  | cons a queue ih =>
      have ha := hneed a (List.mem_cons_self ..)
      have hrest : ∀ b ∈ queue, 0 ≤ need b := fun b hb => hneed b (List.mem_cons_of_mem _ hb)
      rw [left] at hleft
      intro e he
      rw [serve, List.mem_cons] at he
      rcases he with rfl | he
      · have hsum := left_eq hrest (show 0 ≤ supply - min (need a) supply by omega)
        have hnonneg : 0 ≤ (queue.map need).sum := by
          refine List.sum_nonneg ?_
          intro x hx
          obtain ⟨b, hb, rfl⟩ := List.mem_map.1 hx
          exact hrest b hb
        change min (need a) supply = need a
        omega
      · exact ih hrest (by omega) hleft e he

/-- Out of nothing everybody gets nothing. -/
theorem serve_zero {queue : List α} (hneed : ∀ a ∈ queue, 0 ≤ need a) :
    ∀ e ∈ serve need queue 0, e.2 = 0 := by
  induction queue with
  | nil =>
      intro e he
      cases he
  | cons a queue ih =>
      have ha := hneed a (List.mem_cons_self ..)
      have hzero : min (need a) 0 = 0 := by omega
      intro e he
      rw [serve, hzero, sub_zero, List.mem_cons] at he
      rcases he with rfl | he
      · rfl
      · exact ih (fun b hb => hneed b (List.mem_cons_of_mem _ hb)) e he

/-- Who needs nothing makes no difference to the others, and gets nothing. -/
theorem serve_filter {queue : List α} (p : α → Bool) (hskip : ∀ a ∈ queue, p a = false → need a = 0)
    {supply : ℤ} (hsupply : 0 ≤ supply) :
    serve need (queue.filter p) supply = (serve need queue supply).filter (fun e => p e.1) ∧
      left need (queue.filter p) supply = left need queue supply ∧
      ∀ e ∈ serve need queue supply, p e.1 = false → e.2 = 0 := by
  induction queue generalizing supply with
  | nil =>
      refine ⟨rfl, rfl, ?_⟩
      intro e he
      cases he
  | cons a queue ih =>
      have hrest := @ih (fun b hb => hskip b (List.mem_cons_of_mem _ hb))
      cases ha : p a with
      | true =>
          obtain ⟨hserve, hleft, hzero⟩ := hrest
            (show 0 ≤ supply - min (need a) supply by omega)
          simp only [List.filter_cons, ha, if_true, serve, left, hserve, hleft, true_and]
          intro e he hskipped
          rcases List.mem_cons.1 he with rfl | he
          · rw [ha] at hskipped
            cases hskipped
          · exact hzero e he hskipped
      | false =>
          obtain ⟨hserve, hleft, hzero⟩ := hrest hsupply
          have hnone : min (need a) supply = 0 := by
            rw [hskip a (List.mem_cons_self ..) ha]
            omega
          simp only [List.filter_cons, ha, Bool.false_eq_true, if_false, serve, left, hnone,
            sub_zero]
          refine ⟨hserve, hleft, ?_⟩
          intro e he hp
          rcases List.mem_cons.1 he with rfl | he
          · rfl
          · exact hzero e he hp

/-- The needs of the members alone matter. -/
theorem serve_congr {need' : α → ℤ} {queue : List α} (h : ∀ a ∈ queue, need a = need' a)
    (supply : ℤ) : serve need queue supply = serve need' queue supply ∧
      left need queue supply = left need' queue supply := by
  induction queue generalizing supply with
  | nil => exact ⟨rfl, rfl⟩
  | cons a queue ih =>
      obtain ⟨hserve, hleft⟩ := ih (fun b hb => h b (List.mem_cons_of_mem _ hb))
        (supply - min (need' a) supply)
      rw [serve, serve, left, left, h a (List.mem_cons_self ..), hserve, hleft]
      exact ⟨rfl, rfl⟩

end Rationing
