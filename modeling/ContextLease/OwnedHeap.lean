/-
Heaps of owned values.

A program that hands out addresses of values it owns relies on its callers: an address may be used
until it has been freed, it is freed once, and it is not forgotten.  A heap gives every value a new
address, so that an old address never stands for a new value, and refuses every use of an address
that has no value.  Callers keep to the rules when each value has exactly one of them as its holder.

Main definitions:

* `OwnedHeap`, `OwnedHeap.get`, `OwnedHeap.alloc`, `OwnedHeap.set`, `OwnedHeap.free` — heaps;
* `OwnedHeap.HeldBy` — every value has one holder, and a holder holds a value.

Main results:

* `OwnedHeap.get_alloc`, `OwnedHeap.get_of_set`, `OwnedHeap.get_of_free` — what a heap has;
* `OwnedHeap.HeldBy.alloc`, `OwnedHeap.HeldBy.set`, `OwnedHeap.HeldBy.free`,
  `OwnedHeap.HeldBy.replace` — holders that take what they allocate and let go of what they free.
-/

import Mathlib.Data.Nat.Basic
import Mathlib.Logic.Function.Basic
import Mathlib.Order.Basic

set_option relaxedAutoImplicit false
set_option autoImplicit false

/-- A heap: the values at the addresses that have been given out, as far as they are not freed. -/
structure OwnedHeap (α : Type) where
  cells : List (Option α) := []

namespace OwnedHeap

variable {α ι : Type}

section Heaps

variable (h : OwnedHeap α)

/-- The value at an address. -/
def get (p : ℕ) : Option α := h.cells[p]?.join

/-- The address of a new value. -/
def next : ℕ := h.cells.length

/-- The heap with a new value, at the next address. -/
def alloc (a : α) : OwnedHeap α := ⟨h.cells ++ [some a]⟩

/-- The heap with another value at an address, unless the address has none. -/
def set (p : ℕ) (a : α) : Option (OwnedHeap α) := (h.get p).map fun _ => ⟨h.cells.set p (some a)⟩

/-- The heap without the value at an address, unless the address has none. -/
def free (p : ℕ) : Option (OwnedHeap α) := (h.get p).map fun _ => ⟨h.cells.set p none⟩

/-- No value is left. -/
def IsEmpty : Prop := ∀ p, h.get p = none

end Heaps

variable {h h' : OwnedHeap α} {p : ℕ} {a : α}

@[simp] theorem get_empty (p : ℕ) : ({} : OwnedHeap α).get p = none := rfl

theorem isEmpty_empty : ({} : OwnedHeap α).IsEmpty := get_empty

theorem lt_of_get (hp : h.get p = some a) : p < h.cells.length := by
  by_contra hle
  rw [get, List.getElem?_eq_none (not_lt.1 hle)] at hp
  cases hp

/-- The next address has no value. -/
@[simp] theorem get_next : h.get h.next = none := by
  rw [get, next, List.getElem?_eq_none le_rfl]
  rfl

theorem ne_next_of_get (hp : h.get p = some a) : p ≠ h.next := by
  rintro rfl
  rw [get_next] at hp
  cases hp

theorem get_alloc (a : α) (q : ℕ) :
    (h.alloc a).get q = if q = h.next then some a else h.get q := by
  rw [alloc, get, get, next]
  rcases lt_trichotomy q h.cells.length with hlt | rfl | hgt
  · rw [List.getElem?_append_left hlt, if_neg hlt.ne]
  · rw [List.getElem?_concat_length, if_pos rfl]
    rfl
  · rw [List.getElem?_eq_none (by simp only [List.length_append, List.length_singleton]; omega),
      if_neg hgt.ne', List.getElem?_eq_none hgt.le]

@[simp] theorem get_alloc_next (a : α) : (h.alloc a).get h.next = some a := by
  rw [get_alloc, if_pos rfl]

theorem get_alloc_of_get (b : α) (hp : h.get p = some a) : (h.alloc b).get p = some a := by
  rw [get_alloc, if_neg (ne_next_of_get hp), hp]

/-- What the cell of a used address is replaced by is what the heap then has there. -/
theorem get_replace (hp : h.get p = some a) (cell : Option α) (q : ℕ) :
    OwnedHeap.get ⟨h.cells.set p cell⟩ q = if q = p then cell else h.get q := by
  rw [get, get, List.getElem?_set]
  by_cases hq : q = p
  · subst hq
    rw [if_pos rfl, if_pos rfl, if_pos (lt_of_get hp)]
    rfl
  · rw [if_neg (Ne.symm hq), if_neg hq]

/-- A used address can be given another value. -/
theorem exists_set (hp : h.get p = some a) (b : α) : ∃ h', h.set p b = some h' :=
  ⟨_, by rw [set, hp, Option.map_some]⟩

theorem get_of_set {b : α} (hset : h.set p b = some h') (q : ℕ) :
    h'.get q = if q = p then some b else h.get q := by
  obtain ⟨a, hp, rfl⟩ := Option.map_eq_some_iff.1 hset
  exact get_replace hp (some b) q

/-- A used address can be freed. -/
theorem exists_free (hp : h.get p = some a) : ∃ h', h.free p = some h' :=
  ⟨_, by rw [free, hp, Option.map_some]⟩

theorem get_of_free (hfree : h.free p = some h') (q : ℕ) :
    h'.get q = if q = p then none else h.get q := by
  obtain ⟨a, hp, rfl⟩ := Option.map_eq_some_iff.1 hfree
  exact get_replace hp none q

/-- A value that is freed at once leaves nothing behind. -/
theorem exists_free_alloc (hempty : h.IsEmpty) (a : α) :
    ∃ h', (h.alloc a).free h.next = some h' ∧ h'.IsEmpty := by
  obtain ⟨h', hfree⟩ := exists_free (h.get_alloc_next a)
  refine ⟨h', hfree, ?_⟩
  intro q
  rw [get_of_free hfree, get_alloc]
  split
  · rfl
  · exact hempty q

/-! ### Holders -/

/-- Every value has one holder, and a holder holds a value. -/
structure HeldBy (h : OwnedHeap α) (holds : ι → Option ℕ) : Prop where
  live : ∀ {i p}, holds i = some p → ∃ a, h.get p = some a
  unique : ∀ {i j p}, holds i = some p → holds j = some p → i = j
  held : ∀ {p a}, h.get p = some a → ∃ i, holds i = some p

theorem heldBy_empty : HeldBy ({} : OwnedHeap α) (fun _ : ι => none) where
  live hp := by cases hp
  unique hp := by cases hp
  held hp := by cases hp

namespace HeldBy

variable [DecidableEq ι] {holds : ι → Option ℕ} {i : ι}

/-- Someone without a value holds a new one. -/
theorem alloc (hheld : h.HeldBy holds) (hi : holds i = none) (a : α) :
    (h.alloc a).HeldBy (Function.update holds i (some h.next)) where
  live {j q} hq := by
    by_cases hj : j = i
    · subst hj
      rw [Function.update_self, Option.some_inj] at hq
      exact ⟨a, hq ▸ h.get_alloc_next a⟩
    · rw [Function.update_of_ne hj] at hq
      obtain ⟨b, hb⟩ := hheld.live hq
      exact ⟨b, get_alloc_of_get a hb⟩
  unique {j k q} hj hk := by
    -- the next address has no holder yet
    have hnext : ∀ l, holds l ≠ some h.next := by
      intro l hl
      obtain ⟨b, hb⟩ := hheld.live hl
      exact ne_next_of_get hb rfl
    by_cases hji : j = i <;> by_cases hki : k = i
    · rw [hji, hki]
    · rw [hji, Function.update_self, Option.some_inj] at hj
      rw [Function.update_of_ne hki, ← hj] at hk
      exact absurd hk (hnext k)
    · rw [hki, Function.update_self, Option.some_inj] at hk
      rw [Function.update_of_ne hji, ← hk] at hj
      exact absurd hj (hnext j)
    · rw [Function.update_of_ne hji] at hj
      rw [Function.update_of_ne hki] at hk
      exact hheld.unique hj hk
  held {q b} hq := by
    rw [get_alloc] at hq
    split at hq
    · rename_i hnext
      exact ⟨i, by rw [Function.update_self, hnext]⟩
    · obtain ⟨j, hj⟩ := hheld.held hq
      refine ⟨j, ?_⟩
      rw [Function.update_of_ne, hj]
      rintro rfl
      rw [hi] at hj
      cases hj

omit [DecidableEq ι] in
/-- Another value at an address changes no holder. -/
theorem set (hheld : h.HeldBy holds) {b : α} (hset : h.set p b = some h') : h'.HeldBy holds where
  live {j q} hq := by
    rw [get_of_set hset]
    split
    · exact ⟨b, rfl⟩
    · exact hheld.live hq
  unique := hheld.unique
  held {q c} hq := by
    rw [get_of_set hset] at hq
    split at hq
    · rename_i heq
      obtain ⟨a, hp, -⟩ := Option.map_eq_some_iff.1 hset
      exact hheld.held (heq ▸ hp)
    · exact hheld.held hq

/-- Who frees a value holds none. -/
theorem free (hheld : h.HeldBy holds) (hi : holds i = some p) (hfree : h.free p = some h') :
    h'.HeldBy (Function.update holds i none) where
  live {j q} hq := by
    by_cases hj : j = i
    · rw [hj, Function.update_self] at hq
      cases hq
    · rw [Function.update_of_ne hj] at hq
      obtain ⟨b, hb⟩ := hheld.live hq
      refine ⟨b, ?_⟩
      rw [get_of_free hfree, if_neg, hb]
      rintro rfl
      exact hj (hheld.unique hq hi)
  unique {j k q} hj hk := by
    by_cases hji : j = i
    · rw [hji, Function.update_self] at hj
      cases hj
    · by_cases hki : k = i
      · rw [hki, Function.update_self] at hk
        cases hk
      · rw [Function.update_of_ne hji] at hj
        rw [Function.update_of_ne hki] at hk
        exact hheld.unique hj hk
  held {q b} hq := by
    rw [get_of_free hfree] at hq
    split at hq
    · cases hq
    · rename_i hqp
      obtain ⟨j, hj⟩ := hheld.held hq
      refine ⟨j, ?_⟩
      rw [Function.update_of_ne, hj]
      rintro rfl
      rw [hi, Option.some_inj] at hj
      exact hqp hj.symm

/-- Who holds a value takes a new one, and the old one is freed. -/
theorem replace (hheld : h.HeldBy holds) (hi : holds i = some p) {a : α}
    (hfree : (h.alloc a).free p = some h') :
    h'.HeldBy (Function.update holds i (some h.next)) := by
  obtain ⟨b, hp⟩ := hheld.live hi
  have hne : p ≠ h.next := ne_next_of_get hp
  have hget : ∀ q, h'.get q = if q = p then none else if q = h.next then some a else h.get q := by
    intro q
    rw [get_of_free hfree, get_alloc]
  have hother : ∀ {j q}, j ≠ i → holds j = some q → q ≠ p ∧ q ≠ h.next := by
    intro j q hj hq
    obtain ⟨c, hc⟩ := hheld.live hq
    refine ⟨?_, ne_next_of_get hc⟩
    rintro rfl
    exact hj (hheld.unique hq hi)
  constructor
  · intro j q hq
    by_cases hj : j = i
    · rw [hj, Function.update_self, Option.some_inj] at hq
      exact ⟨a, by rw [hget, ← hq, if_neg hne.symm, if_pos rfl]⟩
    · rw [Function.update_of_ne hj] at hq
      obtain ⟨hqp, hqnext⟩ := hother hj hq
      rw [hget, if_neg hqp, if_neg hqnext]
      exact hheld.live hq
  · intro j k q hj hk
    by_cases hji : j = i <;> by_cases hki : k = i
    · rw [hji, hki]
    · rw [hji, Function.update_self, Option.some_inj] at hj
      rw [Function.update_of_ne hki] at hk
      exact absurd hj.symm (hother hki hk).2
    · rw [hki, Function.update_self, Option.some_inj] at hk
      rw [Function.update_of_ne hji] at hj
      exact absurd hk.symm (hother hji hj).2
    · rw [Function.update_of_ne hji] at hj
      rw [Function.update_of_ne hki] at hk
      exact hheld.unique hj hk
  · intro q c hq
    rw [hget] at hq
    split at hq
    · cases hq
    · rename_i hqp
      split at hq
      · rename_i hnext
        exact ⟨i, by rw [Function.update_self, hnext]⟩
      · obtain ⟨j, hj⟩ := hheld.held hq
        refine ⟨j, ?_⟩
        rw [Function.update_of_ne, hj]
        rintro rfl
        rw [hi, Option.some_inj] at hj
        exact hqp hj.symm

end HeldBy

end OwnedHeap
