/-
Groups of a list by a key.

The entries of a list are grouped by their keys, the groups in the order of their first entries and
the entries of a group in the order of the list.  Whatever groups are kept, together they have the
entries of the kept keys.

Main definitions:

* `Grouped.keys`, `Grouped.group`, `Grouped.groups` — the keys of a list and its groups;
* `Grouped.restrict` — the entries of kept keys.

Main results:

* `Grouped.keys_concat`, `Grouped.groups_concat` — the groups of a list with one more entry;
* `Grouped.flatMap_group_perm` — kept groups have the entries of the kept keys;
* `Grouped.flatten_groups_perm` — all groups have the entries of the list.
-/

import Mathlib.Data.List.Dedup
import Mathlib.Data.List.Flatten
import Mathlib.Data.List.Perm.Lattice

set_option relaxedAutoImplicit false
set_option autoImplicit false

namespace Grouped

variable {κ α : Type} [DecidableEq κ]

/-- The keys of a list in the order of their first entries. -/
def keys (l : List (κ × α)) : List κ := (l.map Prod.fst).reverse.dedup.reverse

/-- The entries of a key. -/
def group (l : List (κ × α)) (k : κ) : List α := (l.filter fun e => e.1 = k).map Prod.snd

/-- The groups of a list. -/
def groups (l : List (κ × α)) : List (List α) := (keys l).map (group l)

/-- The entries of the keys that are kept. -/
def restrict (kept : κ → Bool) (l : List (κ × α)) : List α :=
  (l.filter fun e => kept e.1).map Prod.snd

/-! ### Keys -/

theorem mem_keys {l : List (κ × α)} {k : κ} : k ∈ keys l ↔ ∃ e ∈ l, e.1 = k := by
  rw [keys, List.mem_reverse, List.mem_dedup, List.mem_reverse, List.mem_map]

theorem nodup_keys (l : List (κ × α)) : (keys l).Nodup :=
  List.nodup_reverse.2 (List.nodup_dedup _)

theorem keys_concat (l : List (κ × α)) (k : κ) (a : α) :
    keys (l ++ [(k, a)]) = if k ∈ keys l then keys l else keys l ++ [k] := by
  have hmem : k ∈ (l.map Prod.fst).reverse ↔ k ∈ keys l := by
    rw [keys, List.mem_reverse, List.mem_reverse, List.mem_dedup, List.mem_reverse]
  rw [keys, List.map_append, List.map_singleton, List.reverse_append, List.reverse_singleton,
    List.singleton_append]
  split
  · rename_i h
    rw [List.dedup_cons_of_mem (hmem.2 h), keys]
  · rename_i h
    rw [List.dedup_cons_of_notMem (mt hmem.1 h), List.reverse_cons, keys]

/-! ### Groups -/

theorem group_concat (l : List (κ × α)) (k k' : κ) (a : α) :
    group (l ++ [(k, a)]) k' = if k' = k then group l k' ++ [a] else group l k' := by
  rw [group, List.filter_append, List.map_append, ← group]
  split
  · rename_i h
    rw [List.filter_singleton, h]
    simp
  · rename_i h
    rw [List.filter_singleton]
    simp [Ne.symm h]

theorem group_eq_nil {l : List (κ × α)} {k : κ} (h : k ∉ keys l) : group l k = [] := by
  rw [group, List.map_eq_nil_iff, List.filter_eq_nil_iff]
  intro e he hkey
  exact h (mem_keys.2 ⟨e, he, by simpa using hkey⟩)

theorem group_ne_nil {l : List (κ × α)} {k : κ} (h : k ∈ keys l) : group l k ≠ [] := by
  obtain ⟨e, he, rfl⟩ := mem_keys.1 h
  exact List.ne_nil_of_mem (List.mem_map_of_mem (List.mem_filter.2 ⟨he, by simp⟩))

/-- Changing the last element of a list. -/
theorem modify_length {β : Type} (l : List β) (b : β) (change : β → β) :
    (l ++ [b]).modify l.length change = l ++ [change b] := by
  induction l with
  | nil => rfl
  | cons c l ih =>
      rw [List.cons_append, List.length_cons, List.modify_succ_cons, ih, List.cons_append]

/-- The places of elements that differ. -/
theorem zipIdx_eq_map_idxOf {K : List κ} (hK : K.Nodup) :
    K.zipIdx = K.map fun k => (k, K.idxOf k) := by
  refine List.ext_getElem (by simp) ?_
  intro i hi hi'
  rw [List.getElem_zipIdx, List.getElem_map, hK.idxOf_getElem, Nat.zero_add]

/-- Changing a table at the place of one key. -/
theorem modify_idxOf {β : Type} {K : List κ} (hK : K.Nodup) {k : κ} (hk : k ∈ K) (f : κ → β)
    (change : β → β) : (K.map f).modify (K.idxOf k) change =
      K.map fun k' => if k' = k then change (f k') else f k' := by
  induction K with
  | nil => cases hk
  | cons k₀ K ih =>
      obtain ⟨hnot, hnodup⟩ := List.nodup_cons.1 hK
      rw [List.map_cons, List.map_cons]
      by_cases heq : k₀ = k
      · subst heq
        rw [List.idxOf_cons_self, List.modify_zero_cons, if_pos rfl]
        refine congrArg _ (List.map_congr_left ?_)
        intro k' hk'
        rw [if_neg fun h : k' = k₀ => hnot (h ▸ hk')]
      · have hmem : k ∈ K := (List.mem_cons.1 hk).resolve_left (Ne.symm heq)
        rw [List.idxOf_cons_ne _ heq, List.modify_succ_cons, if_neg heq, ih hnodup hmem]

/-- One more entry is appended to the group of its key, or begins a new group. -/
theorem groups_concat (l : List (κ × α)) (k : κ) (a : α) :
    groups (l ++ [(k, a)]) = if k ∈ keys l then
      (groups l).modify ((keys l).idxOf k) (· ++ [a]) else groups l ++ [[a]] := by
  rw [groups, keys_concat]
  split
  · rename_i h
    rw [groups, modify_idxOf (nodup_keys l) h]
    exact List.map_congr_left fun k' _ => group_concat l k k' a
  · rename_i h
    rw [List.map_append, List.map_singleton, group_concat, if_pos rfl, group_eq_nil h, groups]
    refine congrArg (· ++ _) (List.map_congr_left ?_)
    intro k' hk'
    rw [group_concat, if_neg fun heq : k' = k => h (heq ▸ hk')]

/-- The groups of some keys have the entries of these keys. -/
theorem flatMap_group_perm_of_nodup (l : List (κ × α)) {K : List κ} (hK : K.Nodup) :
    (K.flatMap (group l)).Perm ((l.filter fun e => e.1 ∈ K).map Prod.snd) := by
  induction K with
  | nil => simp
  | cons k K ih =>
      obtain ⟨hnot, hnodup⟩ := List.nodup_cons.1 hK
      rw [List.flatMap_cons]
      refine ((ih hnodup).append_left _).trans ?_
      rw [group, ← List.map_append]
      refine List.Perm.map _ ?_
      -- the entries of the keys are those of the first one and of the others
      have hfirst : (l.filter fun e => e.1 ∈ k :: K).filter (fun e => e.1 = k) =
          l.filter fun e => e.1 = k := by
        rw [List.filter_filter]
        refine List.filter_congr ?_
        intro e _
        by_cases he : e.1 = k <;> simp [he]
      have hothers : (l.filter fun e => e.1 ∈ k :: K).filter (fun e => !decide (e.1 = k)) =
          l.filter fun e => e.1 ∈ K := by
        rw [List.filter_filter]
        refine List.filter_congr ?_
        intro e _
        by_cases he : e.1 = k
        · simp [he, hnot]
        · simp [he]
      rw [← hfirst, ← hothers]
      exact List.filter_append_perm _ _

/-- Whatever groups are kept, together they have the entries of the kept keys. -/
theorem flatMap_group_perm (kept : κ → Bool) (l : List (κ × α)) :
    (((keys l).filter kept).flatMap (group l)).Perm (restrict kept l) := by
  refine (flatMap_group_perm_of_nodup l ((nodup_keys l).filter kept)).trans ?_
  rw [restrict]
  refine List.Perm.of_eq (congrArg _ (List.filter_congr ?_))
  intro e he
  have hmem : e.1 ∈ keys l := mem_keys.2 ⟨e, he, rfl⟩
  rw [Bool.eq_iff_iff, decide_eq_true_iff, List.mem_filter]
  exact and_iff_right hmem

/-- No group is empty. -/
theorem ne_nil_of_mem_groups {l : List (κ × α)} {g : List α} (h : g ∈ groups l) : g ≠ [] := by
  obtain ⟨k, hk, rfl⟩ := List.mem_map.1 h
  exact group_ne_nil hk

omit [DecidableEq κ] in
/-- Leaving out a piece that is not empty makes the pieces shorter. -/
theorem eq_of_flatMap_length {β : Type} {f : β → List α} {l' l : List β} (h : l'.Sublist l)
    (hne : ∀ b ∈ l, f b ≠ []) (hlength : (l.flatMap f).length ≤ (l'.flatMap f).length) :
    l' = l := by
  induction h with
  | slnil => rfl
  | cons b h _ =>
      have hle := (h.flatMap f).length_le
      have hpos := List.length_pos_of_ne_nil (hne b (List.mem_cons_self ..))
      rw [List.flatMap_cons, List.length_append] at hlength
      omega
  | cons_cons b h ih =>
      rw [List.flatMap_cons, List.flatMap_cons, List.length_append, List.length_append] at hlength
      rw [ih (fun c hc => hne c (List.mem_cons_of_mem _ hc)) (by omega)]

/-- The groups have the entries of the list. -/
theorem flatten_groups_perm (l : List (κ × α)) : (groups l).flatten.Perm (l.map Prod.snd) := by
  have hall := flatMap_group_perm (fun _ => true) l
  rw [restrict, List.filter_true, List.filter_true] at hall
  rwa [groups, ← List.flatMap_def]

end Grouped
