/-
Ledgers: a balance for each key, and the total over a list of keys.

An allocation algorithm moves integer amounts between accounts.  What its proofs need of the
accounts is how the total over the keys changes when one account is credited, and how totals and
single balances bound each other.

Main definitions:

* `Ledger.credit` — adding to one account;
* `Ledger.total` — the total over a list of keys;
* `Ledger.amountOf` — what a list of entries moves for one key;
* `Ledger.increases` — by how much some entries exceed others.

Main results:

* `Ledger.total_credit` — crediting one of distinct keys adds to the total;
* `Ledger.total_mono`, `Ledger.le_total` — totals and balances;
* `Ledger.increases_sub_increases` — the increases and decreases between two lists of entries make
  up the difference.
-/

import Mathlib.Algebra.BigOperators.Group.List.Basic
import Mathlib.Algebra.Order.BigOperators.Group.List
import Mathlib.Data.List.Nodup
import Mathlib.Tactic.Linarith

set_option relaxedAutoImplicit false
set_option autoImplicit false

namespace Ledger

/-! ### Totals -/

section Totals

variable {κ : Type}

/-- The total over a list of keys. -/
def total (keys : List κ) (ledger : κ → ℤ) : ℤ := (keys.map ledger).sum

@[simp] theorem total_nil (ledger : κ → ℤ) : total [] ledger = 0 := rfl

@[simp] theorem total_cons (key : κ) (keys : List κ) (ledger : κ → ℤ) :
    total (key :: keys) ledger = ledger key + total keys ledger := by
  simp [total]

theorem total_congr {keys : List κ} {ledger ledger' : κ → ℤ}
    (h : ∀ key ∈ keys, ledger key = ledger' key) : total keys ledger = total keys ledger' := by
  rw [total, total, List.map_congr_left h]

theorem total_mono {keys : List κ} {ledger ledger' : κ → ℤ}
    (h : ∀ key ∈ keys, ledger key ≤ ledger' key) : total keys ledger ≤ total keys ledger' := by
  induction keys with
  | nil => simp
  | cons k keys ih =>
      have h₁ := h k (List.mem_cons_self ..)
      have h₂ := ih fun key hkey => h key (List.mem_cons_of_mem _ hkey)
      rw [total_cons, total_cons]
      omega

theorem total_nonneg {keys : List κ} {ledger : κ → ℤ} (h : ∀ key ∈ keys, 0 ≤ ledger key) :
    0 ≤ total keys ledger := by
  have hzero : total keys (fun _ => 0) ≤ total keys ledger := total_mono h
  simpa [total] using hzero

/-- A balance is at most the total of nonnegative ones. -/
theorem le_total {keys : List κ} {ledger : κ → ℤ} (h : ∀ key ∈ keys, 0 ≤ ledger key) {key : κ}
    (hkey : key ∈ keys) : ledger key ≤ total keys ledger := by
  induction keys with
  | nil => simp at hkey
  | cons k keys ih =>
      have h₀ := h k (List.mem_cons_self ..)
      have hrest : ∀ key ∈ keys, 0 ≤ ledger key :=
        fun key hkey => h key (List.mem_cons_of_mem _ hkey)
      have h₁ := total_nonneg hrest
      rw [total_cons]
      rcases List.mem_cons.1 hkey with rfl | hkey
      · omega
      · have := ih hrest hkey
        omega

end Totals

/-! ### Credits -/

section Credits

variable {κ : Type} [DecidableEq κ]

/-- Adding `amount` to the account of `key`. -/
def credit (ledger : κ → ℤ) (key : κ) (amount : ℤ) : κ → ℤ :=
  Function.update ledger key (ledger key + amount)

@[simp] theorem credit_self (ledger : κ → ℤ) (key : κ) (amount : ℤ) :
    credit ledger key amount key = ledger key + amount := Function.update_self ..

theorem credit_of_ne (ledger : κ → ℤ) {key key' : κ} (amount : ℤ) (h : key' ≠ key) :
    credit ledger key amount key' = ledger key' := Function.update_of_ne h ..

theorem le_credit (ledger : κ → ℤ) (key key' : κ) {amount : ℤ} (h : 0 ≤ amount) :
    ledger key' ≤ credit ledger key amount key' := by
  by_cases hk : key' = key
  · subst hk; rw [credit_self]; omega
  · rw [credit_of_ne _ _ hk]

theorem total_credit_of_not_mem {keys : List κ} (ledger : κ → ℤ) {key : κ} (amount : ℤ)
    (h : key ∉ keys) : total keys (credit ledger key amount) = total keys ledger :=
  total_congr fun _ hmem => credit_of_ne _ _ fun heq => h (heq ▸ hmem)

/-- Crediting one of distinct keys adds to the total. -/
theorem total_credit {keys : List κ} (hnodup : keys.Nodup) (ledger : κ → ℤ) {key : κ}
    (amount : ℤ) (h : key ∈ keys) :
    total keys (credit ledger key amount) = total keys ledger + amount := by
  induction keys with
  | nil => simp at h
  | cons k keys ih =>
      rw [List.nodup_cons] at hnodup
      rcases List.mem_cons.1 h with rfl | h
      · rw [total_cons, total_cons, credit_self, total_credit_of_not_mem _ _ hnodup.1]
        omega
      · have hne : k ≠ key := fun heq => hnodup.1 (heq ▸ h)
        rw [total_cons, total_cons, credit_of_ne _ _ hne, ih hnodup.2 h]
        omega

end Credits

/-! ### Entries -/

section Entries

variable {κ : Type} [DecidableEq κ]

/-- What the entries of `key` add up to. -/
def amountOf (entries : List (κ × ℤ)) (key : κ) : ℤ :=
  ((entries.filter fun e => e.1 = key).map Prod.snd).sum

@[simp] theorem amountOf_nil (key : κ) : amountOf [] key = 0 := rfl

theorem amountOf_append (entries entries' : List (κ × ℤ)) (key : κ) :
    amountOf (entries ++ entries') key = amountOf entries key + amountOf entries' key := by
  simp [amountOf]

@[simp] theorem amountOf_singleton_self (key : κ) (amount : ℤ) :
    amountOf [(key, amount)] key = amount := by
  simp [amountOf]

theorem amountOf_singleton_of_ne {key key' : κ} (amount : ℤ) (h : key ≠ key') :
    amountOf [(key, amount)] key' = 0 := by
  simp [amountOf, h]

theorem amountOf_nonneg {entries : List (κ × ℤ)} (h : ∀ e ∈ entries, 0 ≤ e.2) (key : κ) :
    0 ≤ amountOf entries key := by
  refine List.sum_nonneg ?_
  intro x hx
  obtain ⟨e, he, rfl⟩ := List.mem_map.1 hx
  exact h e (List.mem_filter.1 he).1

theorem le_amountOf {entries : List (κ × ℤ)} (h : ∀ e ∈ entries, 0 ≤ e.2) {e : κ × ℤ}
    (he : e ∈ entries) : e.2 ≤ amountOf entries e.1 := by
  refine List.single_le_sum ?_ _ ?_
  · intro x hx
    obtain ⟨e', he', rfl⟩ := List.mem_map.1 hx
    exact h e' (List.mem_filter.1 he').1
  · exact List.mem_map_of_mem (List.mem_filter.2 ⟨he, by simp⟩)

/-- A key with a positive amount has a positive entry. -/
theorem exists_of_amountOf_ne_zero {entries : List (κ × ℤ)} {key : κ}
    (h : amountOf entries key ≠ 0) : ∃ e ∈ entries, e.1 = key := by
  by_contra hnone
  push Not at hnone
  have hfilter : entries.filter (fun e => e.1 = key) = [] := by
    rw [List.filter_eq_nil_iff]
    intro e he
    simpa using hnone e he
  exact h (by simp [amountOf, hfilter])

/-- Without an entry nothing is moved. -/
theorem amountOf_of_not_mem {entries : List (κ × ℤ)} {key : κ} (h : key ∉ entries.map Prod.fst) :
    amountOf entries key = 0 := by
  by_contra hne
  obtain ⟨e, he, rfl⟩ := exists_of_amountOf_ne_zero hne
  exact h (List.mem_map_of_mem he)

theorem amountOf_cons (e : κ × ℤ) (entries : List (κ × ℤ)) (key : κ) :
    amountOf (e :: entries) key = (if e.1 = key then e.2 else 0) + amountOf entries key := by
  by_cases h : e.1 = key
  · simp [amountOf, h]
  · simp [amountOf, h]

theorem amountOf_perm {entries entries' : List (κ × ℤ)} (h : entries.Perm entries') (key : κ) :
    amountOf entries key = amountOf entries' key :=
  ((h.filter _).map Prod.snd).sum_eq

/-- Entries that move nothing can be left out. -/
theorem amountOf_map_filter {α : Type} {p : α → Bool} {f : α → κ × ℤ} {l : List α}
    (h : ∀ a ∈ l, p a = false → (f a).2 = 0) (key : κ) :
    amountOf ((l.filter p).map f) key = amountOf (l.map f) key := by
  induction l with
  | nil => rfl
  | cons a l ih =>
      have hrest := ih fun b hb => h b (List.mem_cons_of_mem _ hb)
      rw [List.map_cons, amountOf_cons, ← hrest]
      cases ha : p a with
      | true =>
          rw [List.filter_cons_of_pos ha, List.map_cons, amountOf_cons]
      | false =>
          have hskip : ¬ p a = true := by
            rw [ha]
            exact Bool.false_ne_true
          rw [List.filter_cons_of_neg hskip, h a (List.mem_cons_self ..) ha, ite_self, zero_add]

/-- Under distinct keys an entry is all there is of its key. -/
theorem amountOf_of_mem {entries : List (κ × ℤ)} (hnodup : (entries.map Prod.fst).Nodup)
    {e : κ × ℤ} (he : e ∈ entries) : amountOf entries e.1 = e.2 := by
  induction entries with
  | nil => exact absurd he List.not_mem_nil
  | cons a entries ih =>
      rw [List.map_cons, List.nodup_cons] at hnodup
      rw [amountOf_cons]
      rcases List.mem_cons.1 he with rfl | he
      · rw [if_pos rfl, amountOf_of_not_mem hnodup.1, add_zero]
      · have hne : a.1 ≠ e.1 := fun heq => hnodup.1 (heq ▸ List.mem_map_of_mem he)
        rw [if_neg hne, zero_add, ih hnodup.2 he]

end Entries

/-! ### Differences -/

section Differences

variable {κ : Type} [DecidableEq κ]

/-- By how much the entries of `entries'` exceed those of `entries`. -/
def increases (entries entries' : List (κ × ℤ)) : List (κ × ℤ) :=
  (entries'.map fun e => (e.1, e.2 - amountOf entries e.1)).filter fun e => 0 < e.2

theorem increases_cons (entries : List (κ × ℤ)) (e : κ × ℤ) (entries' : List (κ × ℤ)) :
    increases entries (e :: entries') =
      (if 0 < e.2 - amountOf entries e.1 then [(e.1, e.2 - amountOf entries e.1)] else []) ++
        increases entries entries' := by
  simp only [increases, List.map_cons, List.filter_cons, decide_eq_true_eq]
  split <;> rfl

theorem increases_eq_flatMap (entries entries' : List (κ × ℤ)) :
    increases entries entries' = entries'.flatMap fun e =>
      if 0 < e.2 - amountOf entries e.1 then [(e.1, e.2 - amountOf entries e.1)] else [] := by
  induction entries' with
  | nil => rfl
  | cons e rest ih => rw [increases_cons, List.flatMap_cons, ih]

theorem increases_perm (entries : List (κ × ℤ)) {l l' : List (κ × ℤ)} (h : l.Perm l') :
    (increases entries l).Perm (increases entries l') := (h.map _).filter _

/-- Under distinct keys the increases of a key add up to the one there is. -/
theorem amountOf_increases {entries entries' : List (κ × ℤ)} (hnonneg : ∀ e ∈ entries, 0 ≤ e.2)
    (hnodup : (entries'.map Prod.fst).Nodup) (key : κ) :
    amountOf (increases entries entries') key =
      max (amountOf entries' key - amountOf entries key) 0 := by
  have hold := amountOf_nonneg hnonneg key
  induction entries' with
  | nil =>
      rw [increases, List.map_nil, List.filter_nil, amountOf_nil]
      omega
  | cons e rest ih =>
      rw [List.map_cons, List.nodup_cons] at hnodup
      rw [increases_cons, amountOf_append, ih hnodup.2, amountOf_cons]
      by_cases hkey : e.1 = key
      · subst hkey
        rw [if_pos rfl, amountOf_of_not_mem hnodup.1]
        split
        · rw [amountOf_singleton_self]
          omega
        · rw [amountOf_nil]
          omega
      · rw [if_neg hkey, zero_add]
        split
        · rw [amountOf_singleton_of_ne _ hkey, zero_add]
        · rw [amountOf_nil, zero_add]

/-- What is added by the increases and taken away by the decreases is the difference. -/
theorem increases_sub_increases {entries entries' : List (κ × ℤ)}
    (hnonneg : ∀ e ∈ entries, 0 ≤ e.2) (hnonneg' : ∀ e ∈ entries', 0 ≤ e.2)
    (hnodup : (entries.map Prod.fst).Nodup) (hnodup' : (entries'.map Prod.fst).Nodup) (key : κ) :
    amountOf (increases entries entries') key - amountOf (increases entries' entries) key =
      amountOf entries' key - amountOf entries key := by
  rw [amountOf_increases hnonneg hnodup', amountOf_increases hnonneg' hnodup]
  omega

end Differences

end Ledger
