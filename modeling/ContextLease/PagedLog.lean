/-
Reading a log in pages.

A log grows at its end and may lose entries at its beginning; its entries are in the order of their
keys.  A reader keeps the key of the last entry it has read, and asks for the entries after it, as
many as a page has room for.  What it has read in the end are the entries of the log in their order,
each of them once, and what is missing in between had been lost when it was asked for.

Main definitions:

* `NextIn` — the first entry of a log after a key;
* `ReadsFrom`, `lastKey` — entries read one after the other, and the key of the last of them.

Main results:

* `readsFrom_page` — a page is read one entry after the other;
* `ReadsFrom.pairwise` — the keys that are read increase;
* `ReadsFrom.eq_filter` — a reader of a log that loses nothing reads each entry once.
-/

import Mathlib.Data.List.Basic
import Mathlib.Order.Lattice

set_option relaxedAutoImplicit false
set_option autoImplicit false

variable {α β : Type} {key : α → β}

/-- Entries that are read one after the other, each of them after the key of the one before. -/
def ReadsFrom (key : α → β) (next : β → α → Prop) : β → List α → Prop
  | _, [] => True
  | n, a :: l => next n a ∧ ReadsFrom key next (key a) l

/-- The key a reader goes on from. -/
def lastKey (key : α → β) (n : β) (l : List α) : β := (l.getLast?.map key).getD n

@[simp] theorem lastKey_nil (n : β) : lastKey key n [] = n := rfl

@[simp] theorem lastKey_cons (n : β) (a : α) (l : List α) :
    lastKey key n (a :: l) = lastKey key (key a) l := by
  cases l with
  | nil => rfl
  | cons b l =>
      rw [lastKey, lastKey, List.getLast?_cons_cons, List.getLast?_cons, Option.map_some,
        Option.getD_some, Option.getD_some]

theorem lastKey_concat (n : β) (l : List α) (a : α) : lastKey key n (l ++ [a]) = key a := by
  rw [lastKey, List.getLast?_concat, Option.map_some, Option.getD_some]

/-! ### Reading -/

section Reading

variable {next next' : β → α → Prop}

theorem readsFrom_append {n : β} {l l' : List α} :
    ReadsFrom key next n (l ++ l') ↔
      ReadsFrom key next n l ∧ ReadsFrom key next (lastKey key n l) l' := by
  induction l generalizing n with
  | nil => simp [ReadsFrom]
  | cons a l ih => rw [List.cons_append, ReadsFrom, ReadsFrom, ih, lastKey_cons, and_assoc]

/-- What has been read up to some entry has been read. -/
theorem ReadsFrom.take {n : β} {l : List α} (h : ReadsFrom key next n l) (k : ℕ) :
    ReadsFrom key next n (l.take k) := by
  rw [← List.take_append_drop k l, readsFrom_append] at h
  exact h.1

theorem ReadsFrom.mono {n : β} {l : List α} (h : ReadsFrom key next n l)
    (hnext : ∀ m a, next m a → next' m a) : ReadsFrom key next' n l := by
  induction l generalizing n with
  | nil => trivial
  | cons a l ih => exact ⟨hnext n a h.1, ih h.2⟩

/-- What holds of every entry that can be the next one holds of what is read. -/
theorem ReadsFrom.forall_mem {n : β} {l : List α} (h : ReadsFrom key next n l) {p : α → Prop}
    (hnext : ∀ m a, next m a → p a) : ∀ a ∈ l, p a := by
  induction l generalizing n with
  | nil =>
      intro a ha
      cases ha
  | cons b l ih =>
      intro a ha
      rcases List.mem_cons.1 ha with rfl | ha
      · exact hnext n _ h.1
      · exact ih h.2 a ha

variable [LinearOrder β]

/-- Whatever is read comes after the key the reader has started from. -/
theorem ReadsFrom.lt {n : β} {l : List α} (h : ReadsFrom key next n l)
    (hlt : ∀ m a, next m a → m < key a) : ∀ a ∈ l, n < key a := by
  induction l generalizing n with
  | nil =>
      intro a ha
      cases ha
  | cons b l ih =>
      intro a ha
      rcases List.mem_cons.1 ha with rfl | ha
      · exact hlt n _ h.1
      · exact (hlt n b h.1).trans (ih h.2 a ha)

/-- The keys that are read increase. -/
theorem ReadsFrom.pairwise {n : β} {l : List α} (h : ReadsFrom key next n l)
    (hlt : ∀ m a, next m a → m < key a) : l.Pairwise fun a b => key a < key b := by
  induction l generalizing n with
  | nil => exact .nil
  | cons a l ih => exact .cons (h.2.lt hlt) (ih h.2)

theorem ReadsFrom.le_lastKey {n : β} {l : List α} (h : ReadsFrom key next n l)
    (hlt : ∀ m a, next m a → m < key a) : n ≤ lastKey key n l := by
  induction l generalizing n with
  | nil => exact le_rfl
  | cons a l ih =>
      rw [lastKey_cons]
      exact (hlt n a h.1).le.trans (ih h.2)

end Reading

/-! ### Pages -/

variable [LinearOrder β]

/-- An entry is the first one of a log after a key. -/
structure NextIn (key : α → β) (l : List α) (n : β) (a : α) : Prop where
  mem : a ∈ l
  lt : n < key a
  le : ∀ b ∈ l, n < key b → key a ≤ key b

theorem NextIn.cons {l : List α} {n : β} {a b : α} (h : NextIn key l n a) (hb : key b ≤ n) :
    NextIn key (b :: l) n a where
  mem := List.mem_cons_of_mem b h.mem
  lt := h.lt
  le c hc hlt := by
    rcases List.mem_cons.1 hc with rfl | hc
    · exact absurd hb (not_le.2 hlt)
    · exact h.le c hc hlt

/-- The entries of a log that come after a key are read one after the other. -/
theorem readsFrom_filter {l : List α} (hl : l.Pairwise fun a b => key a < key b) (n : β) :
    ReadsFrom key (NextIn key l) n (l.filter fun a => n < key a) := by
  induction l generalizing n with
  | nil => trivial
  | cons b l ih =>
      obtain ⟨hb, hl⟩ := List.pairwise_cons.1 hl
      -- what is read of the rest after `m` is read of the whole, as `b` comes before
      have hrest : ∀ {m : β} {r : List α}, key b ≤ m → ReadsFrom key (NextIn key l) m r →
          ReadsFrom key (NextIn key (b :: l)) m r := by
        intro m r hm hr
        induction r generalizing m with
        | nil => trivial
        | cons a r ihr => exact ⟨hr.1.cons hm, ihr (hm.trans hr.1.lt.le) hr.2⟩
      by_cases hn : n < key b
      · have hall : l.filter (fun a => n < key a) = l.filter fun a => key b < key a := by
          refine List.filter_congr ?_
          intro a ha
          rw [decide_eq_decide]
          exact ⟨fun _ => hb a ha, hn.trans⟩
        rw [List.filter_cons_of_pos (p := fun a => n < key a) (decide_eq_true hn), hall]
        refine ⟨⟨List.mem_cons_self .., hn, ?_⟩, hrest le_rfl (ih hl (key b))⟩
        intro a ha _
        rcases List.mem_cons.1 ha with rfl | ha
        · exact le_rfl
        · exact (hb a ha).le
      · rw [List.filter_cons_of_neg (by simpa using hn)]
        exact hrest (not_lt.1 hn) (ih hl n)

/-- A page of a log is read one entry after the other. -/
theorem readsFrom_page {l : List α} (hl : l.Pairwise fun a b => key a < key b) (n : β) (k : ℕ) :
    ReadsFrom key (NextIn key l) n ((l.filter fun a => n < key a).take k) :=
  (readsFrom_filter hl n).take k

/-! ### A log that loses nothing -/

/-- The first entry after a key stays the first when the log grows. -/
theorem NextIn.of_earlier {l l' : List α} (hl' : l'.Pairwise fun a b => key a < key b)
    (hearlier : l <+: l') {n : β} {a : α} (h : NextIn key l n a) : NextIn key l' n a where
  mem := hearlier.subset h.mem
  lt := h.lt
  le b hb hlt := by
    obtain ⟨rest, rfl⟩ := hearlier
    rcases List.mem_append.1 hb with hb | hb
    · exact h.le b hb hlt
    · exact ((List.pairwise_append.1 hl').2.2 a h.mem b hb).le

/-- After the first entry after a key come the entries after that entry. -/
theorem NextIn.filter_eq {l : List α} (hl : l.Pairwise fun a b => key a < key b) {n : β} {a : α}
    (h : NextIn key l n a) :
    (l.filter fun b => n < key b) = a :: l.filter fun b => key a < key b := by
  induction l with
  | nil => cases h.mem
  | cons b l ih =>
      obtain ⟨hb, hl⟩ := List.pairwise_cons.1 hl
      by_cases hn : n < key b
      · -- `b` is the first entry after `n`
        have hab : a = b := by
          rcases List.mem_cons.1 h.mem with hab | ha
          · exact hab
          · exact absurd (h.le b (List.mem_cons_self ..) hn) (not_le.2 (hb a ha))
        subst hab
        rw [List.filter_cons_of_pos (p := fun b => n < key b) (decide_eq_true hn),
          List.filter_cons_of_neg (by simp)]
        refine congrArg _ (List.filter_congr ?_)
        intro c hc
        rw [decide_eq_decide]
        exact ⟨fun _ => hb c hc, hn.trans⟩
      · have hmem : a ∈ l := by
          rcases List.mem_cons.1 h.mem with rfl | ha
          · exact absurd h.lt hn
          · exact ha
        have hnext : NextIn key l n a :=
          ⟨hmem, h.lt, fun c hc => h.le c (List.mem_cons_of_mem b hc)⟩
        rw [List.filter_cons_of_neg (by simpa using hn), ih hl hnext,
          List.filter_cons_of_neg (by simpa using (hb a hmem).le)]

/-- A reader that always finds the log from its beginning on reads each entry once, up to the last
one it has read. -/
theorem ReadsFrom.eq_filter {all : List α} (hall : all.Pairwise fun a b => key a < key b) {n : β}
    {r : List α} (h : ReadsFrom key (fun m a => ∃ l, l <+: all ∧ NextIn key l m a) n r) :
    r = all.filter fun a => n < key a ∧ key a ≤ lastKey key n r := by
  induction r generalizing n with
  | nil =>
      refine (List.filter_eq_nil_iff.2 ?_).symm
      intro a _
      rw [decide_eq_true_eq, lastKey_nil]
      exact fun hlt => not_le.2 hlt.1 hlt.2
  | cons a r ih =>
      obtain ⟨⟨l, hearlier, hnext⟩, hrest⟩ := h
      have hfilter := (hnext.of_earlier hall hearlier).filter_eq hall
      have hle : key a ≤ lastKey key (key a) r := by
        refine hrest.le_lastKey ?_
        rintro m b ⟨l, -, hb⟩
        exact hb.lt
      calc a :: r
          = a :: all.filter fun b => key a < key b ∧ key b ≤ lastKey key (key a) r := by
            rw [← ih hrest]
        _ = (a :: all.filter fun b => key a < key b).filter
              fun b => key b ≤ lastKey key (key a) r := by
            rw [List.filter_cons_of_pos (p := fun b => key b ≤ lastKey key (key a) r)
              (decide_eq_true hle), List.filter_filter]
            simp only [Bool.decide_and, Bool.and_comm]
        _ = (all.filter fun b => n < key b).filter
              fun b => key b ≤ lastKey key (key a) r := by rw [hfilter]
        _ = all.filter fun b => n < key b ∧ key b ≤ lastKey key n (a :: r) := by
            rw [List.filter_filter, lastKey_cons]
            simp only [Bool.decide_and, Bool.and_comm]
