/-
Logs of bounded length.

A bounded log keeps the entries that were pushed last and counts those it has dropped.  Pushing
many entries keeps the end of everything that was ever pushed, so it does not matter whether the
entries are pushed one by one or collected in a log of their own first.  A log whose entries carry
consecutive numbers can be asked for everything after a number, and the answer has no gap as long
as nothing after that number was dropped.

Main definitions:

* `BoundedLog`, `BoundedLog.push` — logs and what one more entry does to them;
* `BoundedLog.Numbered` — the entries carry consecutive numbers, up to a given one.

Main results:

* `BoundedLog.foldl_push` — many entries at once;
* `BoundedLog.foldl_push_staged` — collecting the entries in a log of their own makes no difference;
* `BoundedLog.Numbered.foldl_push` — pushing entries with the next numbers;
* `BoundedLog.Numbered.filter_gt` — the entries after a number.
-/

import Mathlib.Data.List.Basic

set_option relaxedAutoImplicit false
set_option autoImplicit false

/-- The entries that are kept, and the number of those that were dropped. -/
@[ext] structure BoundedLog (α : Type) where
  items : List α
  dropped : ℕ

namespace BoundedLog

variable {α : Type} (capacity : ℕ)

/-- One more entry: a full log drops its oldest one. -/
def push (log : BoundedLog α) (a : α) : BoundedLog α :=
  if log.items.length = capacity then ⟨log.items.drop 1 ++ [a], log.dropped + 1⟩
  else ⟨log.items ++ [a], log.dropped⟩

variable {capacity} (hcapacity : 0 < capacity)
include hcapacity

/-- Pushing many entries keeps the end of what there is, and drops the rest. -/
theorem foldl_push {log : BoundedLog α} (hlog : log.items.length ≤ capacity) (l : List α) :
    l.foldl (push capacity) log =
      ⟨(log.items ++ l).drop (log.items.length + l.length - capacity),
        log.dropped + (log.items.length + l.length - capacity)⟩ := by
  induction l generalizing log with
  | nil =>
      have hnone : log.items.length + ([] : List α).length - capacity = 0 := by
        simp only [List.length_nil]
        omega
      rw [hnone]
      simp
  | cons a l ih =>
      obtain ⟨items, dropped⟩ := log
      rw [List.foldl_cons, push]
      split
      · rename_i hfull
        cases items with
        | nil => simp only [List.length_nil] at hfull; omega
        | cons x items =>
            -- the entry dropped first is the oldest one
            simp only [List.length_cons] at hfull hlog ⊢
            have hcount : items.length + 1 + (l.length + 1) - capacity =
                ((items ++ [a]).length + l.length - capacity) + 1 := by
              simp only [List.length_append, List.length_cons, List.length_nil]
              omega
            rw [List.drop_one, List.tail_cons, ih (by simp; omega), hcount, List.cons_append,
              List.drop_succ_cons, List.append_assoc, List.singleton_append]
            ext1
            · rfl
            · simp only
              omega
      · rename_i hroom
        simp only at hroom hlog
        rw [ih (by simp; omega)]
        have hlength : (items ++ [a]).length + l.length = items.length + (a :: l).length := by
          simp only [List.length_append, List.length_cons, List.length_nil]
          omega
        rw [hlength, List.append_assoc, List.singleton_append]

/-- A log never holds more than its capacity. -/
theorem length_foldl_push {log : BoundedLog α} (hlog : log.items.length ≤ capacity) (l : List α) :
    (l.foldl (push capacity) log).items.length ≤ capacity := by
  rw [foldl_push hcapacity hlog, List.length_drop, List.length_append]
  omega

/-- Entries that are first collected in an empty log end up where they would have ended up without
it. -/
theorem foldl_push_staged {log : BoundedLog α} (hlog : log.items.length ≤ capacity) (l : List α) :
    let staged := l.foldl (push capacity) ⟨[], log.dropped⟩
    staged.items.foldl (push capacity) ⟨log.items, staged.dropped⟩ =
      l.foldl (push capacity) log := by
  intro staged
  have hstaged : staged = ⟨l.drop (l.length - capacity), log.dropped + (l.length - capacity)⟩ := by
    have hempty : (⟨[], log.dropped⟩ : BoundedLog α).items.length ≤ capacity := Nat.zero_le capacity
    simpa only [List.length_nil, Nat.zero_add, List.nil_append] using foldl_push hcapacity hempty l
  have hmerged : (⟨log.items, staged.dropped⟩ : BoundedLog α).items.length ≤ capacity := hlog
  rw [foldl_push hcapacity hmerged, foldl_push hcapacity hlog, hstaged, List.length_drop]
  simp only
  ext1
  · simp only
    rw [List.drop_append, List.drop_append, List.drop_drop]
    congr 1
    · -- more entries than the capacity leave nothing of the log, in either way
      by_cases hl : l.length ≤ capacity
      · congr 1
        omega
      · rw [List.drop_eq_nil_of_le (by omega), List.drop_eq_nil_of_le (by omega)]
    · congr 1
      omega
  · simp only
    omega

omit hcapacity

/-- How many entries a log keeps and drops depends on their number alone. -/
theorem foldl_push_counts {log log' : BoundedLog α} (hitems : log.items.length = log'.items.length)
    (hdropped : log.dropped = log'.dropped) {l l' : List α} (hlength : l.length = l'.length) :
    (l.foldl (push capacity) log).items.length = (l'.foldl (push capacity) log').items.length ∧
      (l.foldl (push capacity) log).dropped = (l'.foldl (push capacity) log').dropped := by
  induction l generalizing l' log log' with
  | nil =>
      obtain rfl := List.length_eq_zero_iff.1 hlength.symm
      exact ⟨hitems, hdropped⟩
  | cons a l ih =>
      cases l' with
      | nil => cases hlength
      | cons a' l' =>
          have hpushed : (push capacity log a).items.length = (push capacity log' a').items.length ∧
              (push capacity log a).dropped = (push capacity log' a').dropped := by
            rw [push, push, ← hitems, hdropped]
            split <;> simp [hitems]
          exact ih hpushed.1 hpushed.2 (Nat.succ.inj hlength)

/-! ### Numbered entries -/

/-- The entries carry consecutive numbers, the last of which is `last`, and the dropped ones carried
those from one on. -/
structure Numbered (number : α → ℕ) (last : ℕ) (log : BoundedLog α) : Prop where
  total : log.dropped + log.items.length = last
  numbers : log.items.map number = List.range' (log.dropped + 1) log.items.length

variable {number : α → ℕ} {last : ℕ} {log : BoundedLog α}

include hcapacity in
/-- Entries with the next numbers keep a log numbered. -/
theorem Numbered.foldl_push (h : Numbered number last log) (hlog : log.items.length ≤ capacity)
    {l : List α} (hl : l.map number = List.range' (last + 1) l.length) :
    Numbered number (last + l.length) (l.foldl (push capacity) log) := by
  rw [BoundedLog.foldl_push hcapacity hlog]
  have htotal := h.total
  have hnumbers : (log.items ++ l).map number =
      List.range' (log.dropped + 1) (log.items.length + l.length) := by
    rw [List.map_append, h.numbers, hl, ← List.range'_append_1]
    congr 2
    omega
  constructor
  · simp only [List.length_drop, List.length_append]
    omega
  · simp only
    rw [List.map_drop, hnumbers, List.drop_range', List.length_drop, List.length_append]
    congr 1
    omega

/-- What a numbered log holds after a number, if nothing after it was dropped: the consecutive
entries from the next number on. -/
theorem Numbered.filter_gt (h : Numbered number last log) {n : ℕ} (hn : log.dropped ≤ n) :
    (log.items.filter fun a => n < number a).map number = List.range' (n + 1) (last - n) := by
  have htotal := h.total
  have hmap : (log.items.filter fun a => n < number a).map number =
      (log.items.map number).filter fun k => n < k := by
    rw [List.filter_map]
    rfl
  rw [hmap, h.numbers]
  -- the numbers up to `n`, and those after it
  have hsplit : List.range' (log.dropped + 1) log.items.length =
      List.range' (log.dropped + 1) (min (n - log.dropped) log.items.length) ++
        List.range' (log.dropped + 1 + min (n - log.dropped) log.items.length)
          (log.items.length - min (n - log.dropped) log.items.length) := by
    rw [List.range'_append_1]
    congr 1
    omega
  rw [hsplit, List.filter_append, List.filter_eq_nil_iff.2, List.filter_eq_self.2, List.nil_append]
  · by_cases hlast : n ≤ last
    · congr 1 <;> omega
    · have hnone : last - n = 0 := by omega
      have hnone' : log.items.length - min (n - log.dropped) log.items.length = 0 := by omega
      rw [hnone, hnone', List.range'_zero, List.range'_zero]
  · intro k hk
    have := List.mem_range'_1.1 hk
    simp only [decide_eq_true_eq]
    omega
  · intro k hk
    have := List.mem_range'_1.1 hk
    simp only [decide_eq_true_eq]
    omega

end BoundedLog
