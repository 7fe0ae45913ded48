/-
The head of a stable sort.

A stable sort by a key begins with the first of the elements with the least key.  When the elements
are what a partial function finds along a list, the head is found where the key is least, and
nothing with that key is found before.

Main definitions:

* `StableLeast.FoundAt`, `StableLeast.LeastAt` — what is found at a place, and the first place of
  the least key.

Main results:

* `StableLeast.head?_insertionSort_cons` — the head after one more element in front;
* `StableLeast.head?_eq_some` — what the head of the sorted findings is, and where it was found;
* `StableLeast.LeastAt.unique` — there is only one such place.
-/

import Mathlib.Data.List.Sort
import Mathlib.Order.Basic

set_option relaxedAutoImplicit false
set_option autoImplicit false

namespace StableLeast

variable {α β κ : Type} [LinearOrder κ] (key : β → κ)

/-- One more element in front stays there unless a smaller one follows. -/
theorem head?_insertionSort_cons (b : β) (l : List β) :
    ((b :: l).insertionSort fun x y => key x ≤ key y).head? =
      match (l.insertionSort fun x y => key x ≤ key y).head? with
      | some b' => if key b ≤ key b' then some b else some b'
      | none => some b := by
  rw [List.insertionSort_cons]
  cases l.insertionSort fun x y => key x ≤ key y with
  | nil => rfl
  | cons b' rest =>
      rw [List.orderedInsert]
      split
      · rename_i hle
        simp only [List.head?_cons, if_pos hle]
      · rename_i hle
        simp only [List.head?_cons, if_neg hle]

/-- What is found at a place of a list. -/
def FoundAt (find : α → Option β) (l : List α) (i : ℕ) (b : β) : Prop :=
  ∃ a, l[i]? = some a ∧ find a = some b

/-- The place where the least key is found first. -/
def LeastAt (find : α → Option β) (l : List α) (i : ℕ) (b : β) : Prop :=
  FoundAt find l i b ∧
    ∀ j b', FoundAt find l j b' → key b < key b' ∨ key b = key b' ∧ i ≤ j

variable {find : α → Option β}

theorem foundAt_zero {a : α} {l : List α} {b : β} :
    FoundAt find (a :: l) 0 b ↔ find a = some b := by
  constructor
  · rintro ⟨a', ha', hfound⟩
    obtain rfl : a = a' := Option.some_inj.1 ha'
    exact hfound
  · exact fun h => ⟨a, rfl, h⟩

theorem foundAt_succ {a : α} {l : List α} {i : ℕ} {b : β} :
    FoundAt find (a :: l) (i + 1) b ↔ FoundAt find l i b := Iff.rfl

/-- The head of the sorted findings is the first one with the least key. -/
theorem head?_eq_some {l : List α} {b : β}
    (h : ((l.filterMap find).insertionSort fun x y => key x ≤ key y).head? = some b) :
    ∃ i, LeastAt key find l i b := by
  induction l generalizing b with
  | nil => cases h
  | cons a l ih =>
      cases hfind : find a with
      | none =>
          rw [List.filterMap_cons_none hfind] at h
          obtain ⟨i, hfound, hleast⟩ := ih h
          refine ⟨i + 1, hfound, ?_⟩
          intro j b' hb'
          cases j with
          | zero =>
              rw [foundAt_zero, hfind] at hb'
              cases hb'
          | succ j =>
              rcases hleast j b' hb' with hlt | ⟨heq, hle⟩
              · exact Or.inl hlt
              · exact Or.inr ⟨heq, Nat.succ_le_succ hle⟩
      | some first =>
          rw [List.filterMap_cons_some hfind, head?_insertionSort_cons] at h
          cases hrest : ((l.filterMap find).insertionSort fun x y => key x ≤ key y).head? with
          | none =>
              -- nothing else is found
              rw [hrest] at h
              obtain rfl := Option.some_inj.1 h
              refine ⟨0, foundAt_zero.2 hfind, ?_⟩
              intro j b' hb'
              cases j with
              | zero =>
                  rw [foundAt_zero, hfind] at hb'
                  exact Or.inr ⟨congrArg key (Option.some_inj.1 hb'), le_refl 0⟩
              | succ j =>
                  obtain ⟨a', ha', hfound⟩ := foundAt_succ.1 hb'
                  have hmem : b' ∈ l.filterMap find :=
                    List.mem_filterMap.2 ⟨a', List.mem_of_getElem? ha', hfound⟩
                  rw [List.head?_eq_none_iff] at hrest
                  rw [← (List.perm_insertionSort (fun x y => key x ≤ key y)
                    (l.filterMap find)).mem_iff, hrest] at hmem
                  cases hmem
          | some least =>
              rw [hrest] at h
              obtain ⟨i, hfound, hleast⟩ := ih hrest
              by_cases hle : key first ≤ key least
              · simp only [if_pos hle] at h
                obtain rfl := Option.some_inj.1 h
                refine ⟨0, foundAt_zero.2 hfind, ?_⟩
                intro j b' hb'
                cases j with
                | zero =>
                    rw [foundAt_zero, hfind] at hb'
                    exact Or.inr ⟨congrArg key (Option.some_inj.1 hb'), le_refl 0⟩
                | succ j =>
                    have hkey : key first ≤ key b' := by
                      rcases hleast j b' hb' with hlt | ⟨heq, -⟩
                      · exact hle.trans hlt.le
                      · exact hle.trans heq.le
                    exact hkey.lt_or_eq.imp id fun heq => ⟨heq, Nat.zero_le _⟩
              · simp only [if_neg hle] at h
                obtain rfl := Option.some_inj.1 h
                refine ⟨i + 1, hfound, ?_⟩
                intro j b' hb'
                cases j with
                | zero =>
                    rw [foundAt_zero, hfind] at hb'
                    exact Or.inl (Option.some_inj.1 hb' ▸ not_le.1 hle)
                | succ j =>
                    rcases hleast j b' hb' with hlt | ⟨heq, hij⟩
                    · exact Or.inl hlt
                    · exact Or.inr ⟨heq, Nat.succ_le_succ hij⟩

/-- The least key is found first in one place. -/
theorem LeastAt.unique {l : List α} {i j : ℕ} {b b' : β} (h : LeastAt key find l i b)
    (h' : LeastAt key find l j b') : i = j ∧ b = b' := by
  have hplace : i = j := by
    rcases h.2 j b' h'.1 with hlt | ⟨-, hij⟩
    · rcases h'.2 i b h.1 with hlt' | ⟨heq, -⟩
      · exact absurd hlt (lt_asymm hlt')
      · exact absurd heq (ne_of_gt hlt)
    · rcases h'.2 i b h.1 with hlt' | ⟨-, hji⟩
      · rcases h.2 j b' h'.1 with hlt | ⟨heq, -⟩
        · exact absurd hlt (lt_asymm hlt')
        · exact absurd heq (ne_of_gt hlt')
      · exact le_antisymm hij hji
  subst hplace
  obtain ⟨a, ha, hfound⟩ := h.1
  obtain ⟨a', ha', hfound'⟩ := h'.1
  rw [ha] at ha'
  obtain rfl := Option.some_inj.1 ha'
  exact ⟨rfl, Option.some_inj.1 (hfound.symm.trans hfound')⟩

end StableLeast
