/-
Queues of bounded length with one entry for each key.

Enqueuing a key that is already there replaces its entry and moves it to the end; what is then
beyond the capacity leaves at the front.  A queue can be held in two parts, a list of its keys in
order and a table of its values: then enqueuing and removing are a few updates of each part, and
the two parts go on holding the same queue.

Main definitions:

* `BoundedQueue`, `BoundedQueue.enqueue`, `BoundedQueue.remove`, `BoundedQueue.get` — queues;
* `BoundedQueue.HeldIn` — a table and a list of keys that hold a queue.

Main results:

* `BoundedQueue.get_enqueue_self`, `BoundedQueue.get_enqueue_of_ne` — what is found afterwards;
* `BoundedQueue.HeldIn.enqueue`, `BoundedQueue.HeldIn.remove` — the updates of the two parts.
-/

import Mathlib.Data.List.Nodup
import Mathlib.Data.List.Basic

set_option relaxedAutoImplicit false
set_option autoImplicit false

/-- At most `capacity` entries with distinct keys, the oldest one first. -/
structure BoundedQueue (κ α : Type) (capacity : ℕ) where
  entries : List (κ × α)
  distinct : (entries.map Prod.fst).Nodup
  bounded : entries.length ≤ capacity

namespace BoundedQueue

variable {κ α : Type} {capacity : ℕ}

/-- The queue without entries. -/
def empty : BoundedQueue κ α capacity := ⟨[], List.nodup_nil, Nat.zero_le _⟩

/-- The keys, in order. -/
def keys (q : BoundedQueue κ α capacity) : List κ := q.entries.map Prod.fst

theorem keys_nodup (q : BoundedQueue κ α capacity) : q.keys.Nodup := q.distinct

theorem length_keys_le (q : BoundedQueue κ α capacity) : q.keys.length ≤ capacity := by
  rw [keys, List.length_map]
  exact q.bounded

variable [DecidableEq κ]

/-- The value of a key. -/
def get (q : BoundedQueue κ α capacity) (k : κ) : Option α := q.entries.lookup k

/-! ### Lists of entries -/

/-- The entries with other keys. -/
def others (k : κ) (l : List (κ × α)) : List (κ × α) := l.filter fun entry => entry.1 != k

/-- The entries after `k` is enqueued, before the capacity is looked at. -/
def moved (k : κ) (a : α) (l : List (κ × α)) : List (κ × α) := others k l ++ [(k, a)]

theorem keys_others (k : κ) (l : List (κ × α)) :
    (others k l).map Prod.fst = (l.map Prod.fst).filter fun key => key != k := by
  rw [others, List.filter_map]
  rfl

theorem keys_moved (k : κ) (a : α) (l : List (κ × α)) :
    (moved k a l).map Prod.fst = (l.map Prod.fst).filter (fun key => key != k) ++ [k] := by
  rw [moved, List.map_append, keys_others, List.map_singleton]

theorem nodup_keys_others {l : List (κ × α)} (h : (l.map Prod.fst).Nodup) (k : κ) :
    ((others k l).map Prod.fst).Nodup := by
  rw [keys_others]
  exact h.filter _

theorem nodup_keys_moved {l : List (κ × α)} (h : (l.map Prod.fst).Nodup) (k : κ) (a : α) :
    ((moved k a l).map Prod.fst).Nodup := by
  rw [moved, List.map_append, List.map_singleton]
  refine (nodup_keys_others h k).append (List.nodup_singleton k) ?_
  rw [List.disjoint_singleton, keys_others, List.mem_filter]
  simp

theorem lookup_others_self (k : κ) (l : List (κ × α)) : (others k l).lookup k = none := by
  rw [List.lookup_eq_none_iff]
  intro entry hentry
  have hkey := (List.mem_filter.1 hentry).2
  rw [bne_iff_ne] at hkey ⊢
  exact fun h => hkey h.symm

theorem lookup_others_of_ne {k key : κ} (h : key ≠ k) (l : List (κ × α)) :
    (others k l).lookup key = l.lookup key := by
  induction l with
  | nil => rfl
  | cons entry l ih =>
      obtain ⟨name, value⟩ := entry
      rw [others] at ih ⊢
      by_cases hentry : name = k
      · have hgone : (name != k) = false := by rw [hentry, bne_self_eq_false]
        rw [List.filter_cons, hgone, if_neg Bool.false_ne_true, ih, List.lookup_cons,
          beq_false_of_ne (hentry ▸ h)]
      · have hkept : (name != k) = true := bne_iff_ne.2 hentry
        rw [List.filter_cons, hkept, if_pos rfl, List.lookup_cons, List.lookup_cons, ih]

theorem lookup_moved_self (k : κ) (a : α) (l : List (κ × α)) :
    (moved k a l).lookup k = some a := by
  rw [moved, List.lookup_append, lookup_others_self]
  simp

theorem lookup_moved_of_ne {k key : κ} (h : key ≠ k) (a : α) (l : List (κ × α)) :
    (moved k a l).lookup key = l.lookup key := by
  rw [moved, List.lookup_append, lookup_others_of_ne h]
  simp [List.lookup_cons, beq_false_of_ne h]

/-- A key that leaves at the front is not found any more. -/
theorem lookup_drop {l : List (κ × α)} (h : (l.map Prod.fst).Nodup) (n : ℕ) (key : κ) :
    (l.drop n).lookup key =
      if key ∈ (l.map Prod.fst).take n then none else l.lookup key := by
  induction n generalizing l with
  | zero => simp
  | succ n ih =>
      cases l with
      | nil => simp
      | cons entry l =>
          obtain ⟨name, value⟩ := entry
          rw [List.map_cons, List.nodup_cons] at h
          rw [List.drop_succ_cons, ih h.2, List.map_cons, List.take_succ_cons]
          by_cases hkey : key = name
          · -- the key was unique, so dropping its entry leaves none
            have hnone : l.lookup key = none := by
              rw [List.lookup_eq_none_iff]
              intro other hother
              rw [bne_iff_ne]
              intro heq
              have hmem : other.1 ∈ l.map Prod.fst := List.mem_map_of_mem hother
              rw [← heq, hkey] at hmem
              exact h.1 hmem
            rw [hnone, ite_self, if_pos (hkey ▸ List.mem_cons_self ..)]
          · rw [List.lookup_cons, beq_false_of_ne hkey]
            simp only [List.mem_cons, hkey, false_or]

/-! ### Operations -/

/-- What is left when an entry is taken out. -/
def remove (q : BoundedQueue κ α capacity) (k : κ) : BoundedQueue κ α capacity where
  entries := others k q.entries
  distinct := nodup_keys_others q.distinct k
  bounded := Nat.le_trans (List.length_filter_le _ _) q.bounded

/-- The key moves to the end with a new value, and what is beyond the capacity leaves at the
front. -/
def enqueue (q : BoundedQueue κ α capacity) (k : κ) (a : α) : BoundedQueue κ α capacity where
  entries := (moved k a q.entries).drop ((moved k a q.entries).length - capacity)
  distinct := by
    rw [List.map_drop]
    exact (nodup_keys_moved q.distinct k a).sublist (List.drop_sublist _ _)
  bounded := by
    rw [List.length_drop]
    omega

@[simp] theorem get_empty (k : κ) : (empty : BoundedQueue κ α capacity).get k = none := rfl

@[simp] theorem get_remove_self (q : BoundedQueue κ α capacity) (k : κ) :
    (q.remove k).get k = none := lookup_others_self k q.entries

theorem get_remove_of_ne (q : BoundedQueue κ α capacity) {k key : κ} (h : key ≠ k) :
    (q.remove k).get key = q.get key := lookup_others_of_ne h q.entries

theorem isSome_get (q : BoundedQueue κ α capacity) (k : κ) :
    (q.get k).isSome = true ↔ k ∈ q.keys := by
  rw [← Option.ne_none_iff_isSome, get, ne_eq, List.lookup_eq_none_iff, keys, List.mem_map]
  constructor
  · intro h
    by_contra hnone
    exact h fun entry hentry => bne_iff_ne.2 fun heq => hnone ⟨entry, hentry, heq.symm⟩
  · rintro ⟨entry, hentry, rfl⟩ h
    exact bne_iff_ne.1 (h entry hentry) rfl

/-- The key that was enqueued last is there, if there is room for anything. -/
theorem get_enqueue_self (hcapacity : 0 < capacity) (q : BoundedQueue κ α capacity) (k : κ)
    (a : α) : (q.enqueue k a).get k = some a := by
  have hothers : (moved k a q.entries).length = (others k q.entries).length + 1 := by
    rw [moved, List.length_append, List.length_singleton]
  rw [get, enqueue, lookup_drop (nodup_keys_moved q.distinct k a), lookup_moved_self, if_neg]
  rw [hothers, keys_moved, ← keys_others, List.take_append_of_le_length]
  · intro hmem
    have hkey := List.mem_of_mem_take hmem
    rw [keys_others, List.mem_filter] at hkey
    simp at hkey
  · rw [List.length_map]
    omega

/-- Another key is found with its old value, or it has just left. -/
theorem get_enqueue_of_ne (q : BoundedQueue κ α capacity) {k key : κ} (h : key ≠ k) (a : α) :
    (q.enqueue k a).get key = q.get key ∨ (q.enqueue k a).get key = none := by
  rw [get, enqueue, lookup_drop (nodup_keys_moved q.distinct k a), lookup_moved_of_ne h]
  split
  · exact Or.inr rfl
  · exact Or.inl rfl

/-! ### Queues in two parts -/

/-- The keys in order and the table of the values. -/
structure HeldIn (q : BoundedQueue κ α capacity) (table : κ → Option α) (order : List κ) :
    Prop where
  order : order = q.keys
  table : table = q.get

theorem HeldIn.empty :
    (empty : BoundedQueue κ α capacity).HeldIn (fun _ => none) [] := ⟨rfl, rfl⟩

/-- Clearing several keys of a table. -/
theorem foldl_clear (l : List κ) (table : κ → Option α) (key : κ) :
    l.foldl (fun table k => Function.update table k none) table key =
      if key ∈ l then none else table key := by
  induction l generalizing table with
  | nil => simp
  | cons k l ih =>
      rw [List.foldl_cons, ih]
      by_cases hmem : key ∈ l
      · simp [hmem]
      · by_cases hkey : key = k
        · subst hkey
          simp [hmem]
        · simp [hmem, hkey]

variable {q : BoundedQueue κ α capacity} {table : κ → Option α} {order : List κ}

/-- Clearing the key in the table and dropping it from the order takes its entry out. -/
theorem HeldIn.remove (h : q.HeldIn table order) (k : κ) :
    (q.remove k).HeldIn (Function.update table k none) (order.filter fun key => key != k) := by
  refine ⟨?_, funext fun key => ?_⟩
  · rw [h.order]
    exact (keys_others k q.entries).symm
  · rw [h.table]
    by_cases hkey : key = k
    · rw [hkey, Function.update_self, get_remove_self]
    · rw [Function.update_of_ne hkey, get_remove_of_ne q hkey]

/-- Writing the table, moving the key to the end of the order and clearing what leaves at the front
enqueues. -/
theorem HeldIn.enqueue (h : q.HeldIn table order) (k : κ) (a : α) :
    let order' := order.filter (fun key => key != k) ++ [k]
    (q.enqueue k a).HeldIn
      ((order'.take (order'.length - capacity)).foldl
        (fun table k => Function.update table k none) (Function.update table k (some a)))
      (order'.drop (order'.length - capacity)) := by
  intro order'
  have horder : order' = (moved k a q.entries).map Prod.fst := by
    rw [keys_moved]
    exact congrArg (fun keys => keys.filter (fun key => key != k) ++ [k]) h.order
  have hlength : order'.length = (moved k a q.entries).length := by
    rw [horder, List.length_map]
  refine ⟨?_, funext fun key => ?_⟩
  · rw [hlength, horder, ← List.map_drop]
    rfl
  · rw [foldl_clear, hlength, horder, get, BoundedQueue.enqueue,
      lookup_drop (nodup_keys_moved q.distinct k a)]
    congr 1
    by_cases hkey : key = k
    · rw [hkey, Function.update_self, lookup_moved_self]
    · rw [Function.update_of_ne hkey, lookup_moved_of_ne hkey, h.table]
      rfl

end BoundedQueue
