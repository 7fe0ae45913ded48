/-
Blocks in the kernel and in the package.

The kernel splits a text at every `"\\n\\n"` and compares the trimmed blocks; the package splits it
at blank lines, drops the blank blocks, strips the others and compares them without regard to case
and white space.  The results are the same exactly when the blocks of the kernel are those of the
package up to padding, and no two of them differ only in case and white space.

Main definitions:

* `Pieces` — blocks that splitting at `"\\n\\n"` gives back;
* `Trimmed`, `SameBlocks` — the texts on which the two passes agree.

Main results:

* `splitBlankLineChars_intercalate` — joining and splitting;
* `blocks_intercalate` — the blocks of the package, when the kernel's are padded blocks;
* `deduplicate_agrees_iff` — the two passes return the same exactly on `SameBlocks`.
-/

import ContextLease.HostPasses

set_option relaxedAutoImplicit false
set_option autoImplicit false

namespace ContextLease

open RustText TextRuns

/-! ### Splitting at two newlines -/

/-- Blocks without two newlines in a row, of which only the last may end in one. -/
structure Pieces (bs : List (List Char)) : Prop where
  single : ∀ b ∈ bs, b.IsChain fun c d => ¬ (c = '\n' ∧ d = '\n')
  ends : bs.Pairwise fun b _ => b.getLast? ≠ some '\n'

theorem splitBlankLineChars_ne_nil (l : List Char) : splitBlankLineChars l ≠ [] := by
  fun_induction splitBlankLineChars l with
  | case1 => exact List.cons_ne_nil _ _
  | case2 => exact List.cons_ne_nil _ _
  | case3 => exact List.cons_ne_nil _ _
  | case4 => exact List.cons_ne_nil _ _

/-- A character that does not start two newlines belongs to the first block. -/
theorem splitBlankLineChars_cons {c : Char} {rest : List Char}
    (h : ¬ (c = '\n' ∧ rest.head? = some '\n')) :
    splitBlankLineChars (c :: rest) = (splitBlankLineChars rest).modifyHead (c :: ·) := by
  have hne := splitBlankLineChars_ne_nil rest
  rw [splitBlankLineChars]
  · cases hsplit : splitBlankLineChars rest with
    | nil => exact absurd hsplit hne
    | cons b bs => rfl
  · rintro tail rfl rfl
    exact h ⟨rfl, rfl⟩

/-- The blocks joined again are the text. -/
theorem intercalate_splitBlankLineChars (l : List Char) :
    ['\n', '\n'].intercalate (splitBlankLineChars l) = l := by
  fun_induction splitBlankLineChars l with
  | case1 => rfl
  | case2 rest ih =>
      cases hsplit : splitBlankLineChars rest with
      | nil => exact absurd hsplit (splitBlankLineChars_ne_nil rest)
      | cons b bs =>
          rw [hsplit] at ih
          rw [← ih]
          rfl
  | case3 c rest hnot hsplit ih => exact absurd hsplit (splitBlankLineChars_ne_nil rest)
  | case4 c rest hnot b bs hsplit ih =>
      rw [hsplit] at ih
      rw [List.intercalate_cons_cons_left, ih]

/-- The first block is a prefix of the text. -/
theorem prefix_of_split {l b : List Char} {bs : List (List Char)}
    (h : splitBlankLineChars l = b :: bs) : b <+: l := by
  have hl := intercalate_splitBlankLineChars l
  rw [h] at hl
  cases bs with
  | nil =>
      rw [List.intercalate_singleton] at hl
      exact hl ▸ List.prefix_refl _
  | cons b' bs =>
      rw [List.intercalate_cons_cons, List.append_assoc] at hl
      exact hl ▸ List.prefix_append _ _

theorem pieces_splitBlankLineChars (l : List Char) : Pieces (splitBlankLineChars l) := by
  fun_induction splitBlankLineChars l with
  | case1 => exact ⟨by simp, by simp⟩
  | case2 rest ih =>
      refine ⟨?_, List.pairwise_cons.2 ⟨by simp, ih.ends⟩⟩
      intro b hb
      rcases List.mem_cons.1 hb with rfl | hb
      · exact List.isChain_nil
      · exact ih.single b hb
  | case3 c rest hnot hsplit ih => exact absurd hsplit (splitBlankLineChars_ne_nil rest)
  | case4 c rest hnot b bs hsplit ih =>
      rw [hsplit] at ih
      have hstart := prefix_of_split hsplit
      refine ⟨?_, ?_⟩
      · intro p hp
        rcases List.mem_cons.1 hp with rfl | hp
        · refine List.isChain_cons.2 ⟨?_, ih.single b List.mem_cons_self⟩
          rintro d hd ⟨rfl, rfl⟩
          -- two newlines in a row would have been split
          cases b with
          | nil => cases hd
          | cons e b =>
              obtain rfl : e = '\n' := by simpa using hd
              obtain ⟨t, rfl⟩ := hstart
              exact hnot (b ++ t) rfl rfl
        · exact ih.single p (List.mem_cons_of_mem _ hp)
      · obtain ⟨hb, hbs⟩ := List.pairwise_cons.1 ih.ends
        refine List.pairwise_cons.2 ⟨?_, hbs⟩
        intro p hp hlast
        cases b with
        | nil =>
            -- the rest of the text would start with the separator
            have hjoin := intercalate_splitBlankLineChars rest
            rw [hsplit] at hjoin
            cases bs with
            | nil => cases hp
            | cons b' bs =>
                rw [List.intercalate_cons_cons] at hjoin
                obtain rfl : c = '\n' := by simpa using hlast
                exact hnot _ rfl hjoin.symm
        | cons e b => exact hb p hp (by simpa using hlast)

theorem Pieces.sublist {bs bs' : List (List Char)} (h : Pieces bs) (hsub : bs'.Sublist bs) :
    Pieces bs' :=
  ⟨fun b hb => h.single b (hsub.subset hb), h.ends.sublist hsub⟩

theorem splitBlankLineChars_append {b : List Char}
    (hsingle : b.IsChain fun c d => ¬ (c = '\n' ∧ d = '\n')) (hend : b.getLast? ≠ some '\n')
    (r : List Char) :
    splitBlankLineChars (b ++ '\n' :: '\n' :: r) = b :: splitBlankLineChars r := by
  induction b with
  | nil => rfl
  | cons c b ih =>
      obtain ⟨hhead, hchain⟩ := List.isChain_cons.1 hsingle
      have hnot : ¬ (c = '\n' ∧ (b ++ '\n' :: '\n' :: r).head? = some '\n') := by
        rintro ⟨rfl, hnewline⟩
        cases b with
        | nil => exact hend rfl
        | cons d b => exact hhead d rfl ⟨rfl, by simpa using hnewline⟩
      have hend' : b.getLast? ≠ some '\n' := by
        cases b with
        | nil => simp
        | cons d b => simpa using hend
      rw [List.cons_append, splitBlankLineChars_cons hnot, ih hchain hend', List.modifyHead_cons]

theorem splitBlankLineChars_single {b : List Char}
    (hsingle : b.IsChain fun c d => ¬ (c = '\n' ∧ d = '\n')) : splitBlankLineChars b = [b] := by
  induction b with
  | nil => rfl
  | cons c b ih =>
      obtain ⟨hhead, hchain⟩ := List.isChain_cons.1 hsingle
      have hnot : ¬ (c = '\n' ∧ b.head? = some '\n') := by
        rintro ⟨rfl, hnewline⟩
        exact hhead _ hnewline ⟨rfl, rfl⟩
      rw [splitBlankLineChars_cons hnot, ih hchain, List.modifyHead_cons]

/-- Splitting what was joined gives the blocks back. -/
theorem splitBlankLineChars_intercalate {bs : List (List Char)} (h : Pieces bs) (hne : bs ≠ []) :
    splitBlankLineChars (['\n', '\n'].intercalate bs) = bs := by
  induction bs with
  | nil => exact absurd rfl hne
  | cons b bs ih =>
      have hb := h.single b List.mem_cons_self
      cases bs with
      | nil => rw [List.intercalate_singleton, splitBlankLineChars_single hb]
      | cons b' bs =>
          obtain ⟨hend, -⟩ := List.pairwise_cons.1 h.ends
          have hrest := ih (h.sublist (List.sublist_cons_self _ _)) (List.cons_ne_nil _ _)
          have hsplit := splitBlankLineChars_append hb (hend b' List.mem_cons_self)
            (['\n', '\n'].intercalate (b' :: bs))
          rw [hrest] at hsplit
          rw [List.intercalate_cons_cons, List.append_assoc]
          exact hsplit

/-! ### Splitting at blank lines -/

namespace Host

/-- What is left of a text after a match of the pattern that starts with a newline before it. -/
def afterBlankLine (rest : List Char) : List Char :=
  (rest.takeWhile isSpace).rtakeWhile (· != '\n') ++ rest.dropWhile isSpace

/-- A match takes white space only. -/
theorem exists_afterBlankLine (rest : List Char) :
    ∃ u, rest = u ++ afterBlankLine rest ∧ ∀ c ∈ u, isSpace c = true := by
  refine ⟨(rest.takeWhile isSpace).rdropWhile (· != '\n'), ?_, ?_⟩
  · rw [afterBlankLine, ← List.append_assoc, List.rdropWhile_append_rtakeWhile,
      List.takeWhile_append_dropWhile]
  · intro c hc
    exact List.mem_takeWhile_imp ((List.rdropWhile_prefix _ _).subset hc)

theorem length_afterBlankLine_le (rest : List Char) :
    (afterBlankLine rest).length ≤ rest.length := by
  obtain ⟨u, hu, -⟩ := exists_afterBlankLine rest
  have := congrArg List.length hu
  rw [List.length_append] at this
  omega

/-- The search does not depend on its number of steps. -/
theorem splitBlankLinesIn_eq {fuel : ℕ} {l : List Char} (h : l.length ≤ fuel) :
    splitBlankLinesIn fuel l = splitBlankLines l := by
  suffices hfuels : ∀ (n : ℕ) (l : List Char) (m : ℕ), l.length ≤ n → l.length ≤ m →
      splitBlankLinesIn n l = splitBlankLinesIn m l from hfuels fuel l l.length h (le_refl _)
  intro n
  induction n with
  | zero =>
      intro l m hn hm
      rw [List.length_eq_zero_iff.1 (Nat.le_zero.1 hn)]
      cases m <;> rfl
  | succ n ih =>
      intro l m hn hm
      cases l with
      | nil => cases m <;> rfl
      | cons c rest =>
          cases m with
          | zero => simp at hm
          | succ m =>
              rw [List.length_cons] at hn hm
              have hafter := length_afterBlankLine_le rest
              rw [splitBlankLinesIn, splitBlankLinesIn, ← afterBlankLine,
                ih rest m (by omega) (by omega), ih (afterBlankLine rest) m (by omega) (by omega)]

theorem splitBlankLines_match {rest : List Char}
    (h : (rest.takeWhile isSpace).contains '\n' = true) :
    splitBlankLines ('\n' :: rest) = [] :: splitBlankLines (afterBlankLine rest) := by
  rw [splitBlankLines, List.length_cons, splitBlankLinesIn, if_pos (by simpa using h),
    ← afterBlankLine, splitBlankLinesIn_eq (length_afterBlankLine_le rest)]

theorem splitBlankLines_cons {c : Char} {rest : List Char}
    (h : ¬ (c = '\n' ∧ (rest.takeWhile isSpace).contains '\n' = true)) :
    splitBlankLines (c :: rest) = (splitBlankLines rest).modifyHead (c :: ·) := by
  rw [splitBlankLines, List.length_cons, splitBlankLinesIn, if_neg (by simpa using h)]
  rfl

/-- By cases: a match, or a character of the first piece. -/
theorem splitBlankLines_cases (c : Char) (rest : List Char) :
    (c = '\n' ∧ (rest.takeWhile isSpace).contains '\n' = true ∧
        splitBlankLines (c :: rest) = [] :: splitBlankLines (afterBlankLine rest)) ∨
      ¬ (c = '\n' ∧ (rest.takeWhile isSpace).contains '\n' = true) ∧
        splitBlankLines (c :: rest) = (splitBlankLines rest).modifyHead (c :: ·) := by
  by_cases h : c = '\n' ∧ (rest.takeWhile isSpace).contains '\n' = true
  · obtain ⟨rfl, hrun⟩ := h
    exact .inl ⟨rfl, hrun, splitBlankLines_match hrun⟩
  · exact .inr ⟨h, splitBlankLines_cons h⟩

theorem splitBlankLines_ne_nil (l : List Char) : splitBlankLines l ≠ [] := by
  induction l with
  | nil => exact List.cons_ne_nil _ _
  | cons c rest ih =>
      rcases splitBlankLines_cases c rest with ⟨-, -, h⟩ | ⟨-, h⟩
      · rw [h]
        exact List.cons_ne_nil _ _
      · rw [h]
        simpa using ih

/-- The stripped pieces that are not blank. -/
def stripped (pieces : List (List Char)) : List (List Char) :=
  (pieces.map strip).filter fun block => !block.isEmpty

theorem stripped_nil_cons (pieces : List (List Char)) : stripped ([] :: pieces) = stripped pieces :=
  rfl

theorem strip_space_cons {c : Char} (hc : isSpace c = true) (l : List Char) :
    strip (c :: l) = strip l := by
  have hpad : ∀ d ∈ [c], isSpace d = true := by simpa using hc
  have := strip_pad hpad (List.forall_mem_nil _) l
  simpa [strip] using this

/-- White space in front of a text is in no block. -/
theorem blocks_pad {u : List Char} (hu : ∀ c ∈ u, isSpace c = true) (l : List Char) :
    blocks (u ++ l) = blocks l := by
  suffices hlong : ∀ (n : ℕ) (u l : List Char), u.length + l.length ≤ n →
      (∀ c ∈ u, isSpace c = true) → blocks (u ++ l) = blocks l from
    hlong _ u l (le_refl _) hu
  intro n
  induction n with
  | zero =>
      intro u l hn hu
      obtain rfl : u = [] := List.length_eq_zero_iff.1 (by omega)
      rfl
  | succ n ih =>
      intro u l hn hu
      cases u with
      | nil => rfl
      | cons c u =>
          have hrest : ∀ d ∈ u, isSpace d = true := fun d hd => hu d (List.mem_cons_of_mem _ hd)
          rw [List.length_cons] at hn
          rw [← ih u l (by omega) hrest, List.cons_append, blocks, blocks, ← stripped, ← stripped]
          rcases splitBlankLines_cases c (u ++ l) with ⟨-, -, h⟩ | ⟨-, h⟩
          · -- a match takes more white space, which is in no block either
            obtain ⟨w, hw, hblank⟩ := exists_afterBlankLine (u ++ l)
            have hlength := congrArg List.length hw
            simp only [List.length_append] at hlength
            have hafter := ih w (afterBlankLine (u ++ l)) (by omega) hblank
            rw [← hw, blocks, blocks, ← stripped, ← stripped] at hafter
            rw [h, stripped_nil_cons, hafter]
          · rw [h]
            cases hsplit : splitBlankLines (u ++ l) with
            | nil => exact absurd hsplit (splitBlankLines_ne_nil _)
            | cons p ps =>
                rw [List.modifyHead_cons, stripped, List.map_cons,
                  strip_space_cons (hu c List.mem_cons_self), ← List.map_cons, ← stripped]

/-- A text without blank line that ends in a solid character belongs to the first piece. -/
theorem splitBlankLines_append {c : List Char} (hblank : hasBlankLine c = false)
    (hlast : ∀ d ∈ c.getLast?, isSpace d = false) (x : List Char) :
    splitBlankLines (c ++ x) = (splitBlankLines x).modifyHead (c ++ ·) := by
  induction c with
  | nil =>
      cases hsplit : splitBlankLines x with
      | nil => exact absurd hsplit (splitBlankLines_ne_nil x)
      | cons p ps => rw [List.nil_append, hsplit, List.modifyHead_cons, List.nil_append]
  | cons d c ih =>
      rw [hasBlankLine, Bool.or_eq_false_iff] at hblank
      have hnot : ¬ (d = '\n' ∧ ((c ++ x).takeWhile isSpace).contains '\n' = true) := by
        rintro ⟨rfl, hrun⟩
        -- the run of white space ends before the last character of `c`
        have hrun' : (c ++ x).takeWhile isSpace = c.takeWhile isSpace := by
          have hne : c ≠ [] := by
            rintro rfl
            have := hlast _ rfl
            revert this
            decide
          have hsolid := hlast (c.getLast hne) (by
            rw [List.getLast?_cons_of_ne_nil hne, List.getLast?_eq_some_getLast hne]
            rfl)
          rw [List.takeWhile_append, if_neg]
          intro hall
          have hc := List.takeWhile_eq_self_iff.1
              ((List.takeWhile_prefix isSpace).eq_of_length hall)
          rw [hc _ (List.getLast_mem hne)] at hsolid
          cases hsolid
        rw [hrun'] at hrun
        have hnone := hblank.1
        rw [hrun] at hnone
        cases hnone
      have hlast' : ∀ e ∈ c.getLast?, isSpace e = false := by
        intro e he
        cases c with
        | nil => cases he
        | cons f c => exact hlast e (by simpa using he)
      rw [List.cons_append, splitBlankLines_cons hnot, ih hblank.2 hlast']
      cases splitBlankLines x with
      | nil => rfl
      | cons p ps => rfl

/-- Two newlines among the white space after a block end it. -/
theorem exists_split_of_newlines {v : List Char} (hv : ∀ c ∈ v, isSpace c = true)
    (hnewlines : ['\n', '\n'].Sublist v) (l : List Char) :
    ∃ w ps, splitBlankLines (v ++ l) = w :: ps ∧ (∀ c ∈ w, isSpace c = true) ∧
      stripped ps = blocks l := by
  induction v with
  | nil => cases hnewlines
  | cons d v ih =>
      have hrest : ∀ c ∈ v, isSpace c = true := fun c hc => hv c (List.mem_cons_of_mem _ hc)
      rw [List.cons_append]
      rcases splitBlankLines_cases d (v ++ l) with ⟨-, -, h⟩ | ⟨hnot, h⟩
      · refine ⟨[], _, h, by simp, ?_⟩
        obtain ⟨u, hu, hblank⟩ := exists_afterBlankLine (v ++ l)
        have hafter := blocks_pad hblank (afterBlankLine (v ++ l))
        rw [← hu, blocks_pad hrest] at hafter
        exact hafter.symm
      · have hlater : ['\n', '\n'].Sublist v := by
          by_cases hd : d = '\n'
          · subst hd
            have hmem : '\n' ∈ v := by
              have := List.cons_sublist_cons.1 hnewlines
              exact this.subset List.mem_cons_self
            refine absurd ⟨rfl, ?_⟩ hnot
            rw [List.contains_iff_mem, List.takeWhile_append_of_pos hrest]
            exact List.mem_append_left _ hmem
          · cases hnewlines with
            | cons _ hsub => exact hsub
            | cons_cons _ hsub => exact absurd rfl hd
        obtain ⟨w, ps, hsplit, hw, hps⟩ := ih hrest hlater
        refine ⟨d :: w, ps, by rw [h, hsplit, List.modifyHead_cons], ?_, hps⟩
        intro c hc
        rcases List.mem_cons.1 hc with rfl | hc
        · exact hv c List.mem_cons_self
        · exact hw c hc

/-- Induction along the search. -/
theorem splitBlankLines_induction {motive : List Char → Prop} (hnil : motive [])
    (hmatch : ∀ rest, splitBlankLines ('\n' :: rest) = [] :: splitBlankLines (afterBlankLine rest) →
      motive (afterBlankLine rest) → motive ('\n' :: rest))
    (hcons : ∀ c rest, ¬ (c = '\n' ∧ (rest.takeWhile isSpace).contains '\n' = true) →
      splitBlankLines (c :: rest) = (splitBlankLines rest).modifyHead (c :: ·) →
      motive rest → motive (c :: rest))
    (l : List Char) : motive l := by
  suffices hlong : ∀ (n : ℕ) (l : List Char), l.length ≤ n → motive l from hlong _ l (le_refl _)
  intro n
  induction n with
  | zero =>
      intro l hn
      obtain rfl : l = [] := List.length_eq_zero_iff.1 (by omega)
      exact hnil
  | succ n ih =>
      intro l hn
      cases l with
      | nil => exact hnil
      | cons c rest =>
          rw [List.length_cons] at hn
          have hafter := length_afterBlankLine_le rest
          rcases splitBlankLines_cases c rest with ⟨rfl, -, h⟩ | ⟨hnot, h⟩
          · exact hmatch rest h (ih _ (by omega))
          · exact hcons c rest hnot h (ih rest (by omega))

/-- The characters of the pieces are those of the text. -/
theorem mem_of_mem_split (l : List Char) : ∀ p ∈ splitBlankLines l, ∀ c ∈ p, c ∈ l := by
  induction l using splitBlankLines_induction with
  | hnil => simp [splitBlankLines, splitBlankLinesIn]
  | hmatch rest h ih =>
      intro p hp c hc
      rw [h] at hp
      rcases List.mem_cons.1 hp with rfl | hp
      · cases hc
      · obtain ⟨u, hu, -⟩ := exists_afterBlankLine rest
        rw [hu]
        exact List.mem_cons_of_mem _ (List.mem_append_right _ (ih p hp c hc))
  | hcons d rest hnot h ih =>
      intro p hp c hc
      rw [h] at hp
      cases hsplit : splitBlankLines rest with
      | nil => exact absurd hsplit (splitBlankLines_ne_nil rest)
      | cons q qs =>
          rw [hsplit] at ih hp
          rw [List.modifyHead_cons] at hp
          rcases List.mem_cons.1 hp with rfl | hp
          · rcases List.mem_cons.1 hc with rfl | hc
            · exact List.mem_cons_self
            · exact List.mem_cons_of_mem _ (ih q List.mem_cons_self c hc)
          · exact List.mem_cons_of_mem _ (ih p (List.mem_cons_of_mem _ hp) c hc)

/-- The first piece is a prefix of the text. -/
theorem prefix_of_splitBlankLines (l : List Char) :
    ∀ p ∈ (splitBlankLines l).head?, p <+: l := by
  induction l using splitBlankLines_induction with
  | hnil => simp [splitBlankLines, splitBlankLinesIn]
  | hmatch rest h ih =>
      rw [h]
      simp
  | hcons d rest hnot h ih =>
      rw [h]
      cases hsplit : splitBlankLines rest with
      | nil => exact absurd hsplit (splitBlankLines_ne_nil rest)
      | cons q qs =>
          rw [hsplit] at ih
          intro p hp
          obtain rfl : d :: q = p := by simpa using hp
          exact (List.prefix_cons_inj d).2 (ih q rfl)

theorem hasBlankLine_append {l r : List Char} (h : hasBlankLine (l ++ r) = false) :
    hasBlankLine l = false ∧ hasBlankLine r = false := by
  induction l with
  | nil => exact ⟨rfl, h⟩
  | cons c l ih =>
      rw [List.cons_append, hasBlankLine, Bool.or_eq_false_iff] at h
      obtain ⟨hl, hr⟩ := ih h.2
      refine ⟨?_, hr⟩
      rw [hasBlankLine, Bool.or_eq_false_iff]
      refine ⟨?_, hl⟩
      rw [← Bool.not_eq_true, Bool.and_eq_true, List.contains_iff_mem] at h ⊢
      rintro ⟨hc, hmem⟩
      exact h.1 ⟨hc, mem_takeWhile_append hmem r⟩

/-- No piece has a blank line. -/
theorem hasBlankLine_of_mem_split (l : List Char) :
    ∀ p ∈ splitBlankLines l, hasBlankLine p = false := by
  induction l using splitBlankLines_induction with
  | hnil => simp [splitBlankLines, splitBlankLinesIn, hasBlankLine]
  | hmatch rest h ih =>
      intro p hp
      rw [h] at hp
      rcases List.mem_cons.1 hp with rfl | hp
      · rfl
      · exact ih p hp
  | hcons d rest hnot h ih =>
      intro p hp
      rw [h] at hp
      have hstart := prefix_of_splitBlankLines rest
      cases hsplit : splitBlankLines rest with
      | nil => exact absurd hsplit (splitBlankLines_ne_nil rest)
      | cons q qs =>
          rw [hsplit] at ih hp hstart
          rw [List.modifyHead_cons] at hp
          rcases List.mem_cons.1 hp with rfl | hp
          · rw [hasBlankLine, ih q List.mem_cons_self, Bool.or_false, ← Bool.not_eq_true,
              Bool.and_eq_true, beq_iff_eq, List.contains_iff_mem]
            rintro ⟨rfl, hmem⟩
            obtain ⟨r, hr⟩ := hstart q rfl
            refine hnot ⟨rfl, List.contains_iff_mem.2 ?_⟩
            rw [← hr]
            exact mem_takeWhile_append hmem r
          · exact ih p (List.mem_cons_of_mem _ hp)

/-- A block of the package: stripped, not empty, and without blank line. -/
structure IsBlock (c : List Char) : Prop where
  ne_nil : c ≠ []
  stripped : strip c = c
  solid : hasBlankLine c = false

theorem IsBlock.getLast? {c : List Char} (h : IsBlock c) :
    ∀ d ∈ c.getLast?, isSpace d = false := by
  rw [← h.stripped]
  exact getLast?_strip

theorem stripped_cons {c : List Char} (h : IsBlock c) {w : List Char}
    (hw : ∀ d ∈ w, isSpace d = true) (ps : List (List Char)) :
    Host.stripped ((c ++ w) :: ps) = c :: Host.stripped ps := by
  have hstrip : strip (c ++ w) = c := by
    have := strip_pad (List.forall_mem_nil _) hw c
    rw [List.nil_append, ← strip, ← strip, h.stripped] at this
    exact this
  rw [Host.stripped, List.map_cons, hstrip, List.filter_cons_of_pos (by simp [h.ne_nil])]
  rfl

/-- A block with two newlines after it is the first block. -/
theorem blocks_append {u c v : List Char} (hu : ∀ d ∈ u, isSpace d = true) (h : IsBlock c)
    (hv : ∀ d ∈ v, isSpace d = true) (hnewlines : ['\n', '\n'].Sublist v) (l : List Char) :
    blocks (u ++ c ++ v ++ l) = c :: blocks l := by
  obtain ⟨w, ps, hsplit, hw, hps⟩ := exists_split_of_newlines hv hnewlines l
  rw [List.append_assoc, List.append_assoc, blocks_pad hu, blocks, ← Host.stripped,
    splitBlankLines_append h.solid h.getLast?, hsplit, List.modifyHead_cons, stripped_cons h hw,
      hps]

/-- A block between white space is the only block. -/
theorem blocks_single {u c v : List Char} (hu : ∀ d ∈ u, isSpace d = true) (h : IsBlock c)
    (hv : ∀ d ∈ v, isSpace d = true) : blocks (u ++ c ++ v) = [c] := by
  rw [List.append_assoc, blocks_pad hu, blocks, ← Host.stripped,
    splitBlankLines_append h.solid h.getLast?]
  have hpieces : ∀ p ∈ splitBlankLines v, ∀ d ∈ p, isSpace d = true := fun p hp d hd =>
    hv d (mem_of_mem_split v p hp d hd)
  cases hsplit : splitBlankLines v with
  | nil => exact absurd hsplit (splitBlankLines_ne_nil v)
  | cons w ps =>
      rw [hsplit] at hpieces
      rw [List.modifyHead_cons, stripped_cons h (hpieces w List.mem_cons_self)]
      congr 1
      refine List.filter_eq_nil_iff.2 ?_
      intro p hp
      obtain ⟨q, hq, rfl⟩ := List.mem_map.1 hp
      rw [strip, strip_blanks (hpieces q (List.mem_cons_of_mem _ hq))]
      simp

theorem isBlock_of_mem_blocks {l p : List Char} (hp : p ∈ blocks l) : IsBlock p := by
  obtain ⟨hmem, hne⟩ := List.mem_filter.1 hp
  obtain ⟨q, hq, rfl⟩ := List.mem_map.1 hmem
  refine ⟨by simpa using hne, strip_strip q, ?_⟩
  have hsolid := hasBlankLine_of_mem_split l q hq
  obtain ⟨u, v, hpad, -, -⟩ := exists_pad isSpace q
  rw [hpad] at hsolid
  exact (hasBlankLine_append (hasBlankLine_append hsolid).1).2

theorem IsBlock.single {c : List Char} (h : hasBlankLine c = false) :
    c.IsChain fun d e => ¬ (d = '\n' ∧ e = '\n') := by
  induction c with
  | nil => exact List.isChain_nil
  | cons d c ih =>
      rw [hasBlankLine, Bool.or_eq_false_iff] at h
      refine List.isChain_cons.2 ⟨?_, ih h.2⟩
      rintro e he ⟨rfl, rfl⟩
      cases c with
      | nil => cases he
      | cons f c =>
          obtain rfl : f = '\n' := by simpa using he
          have hspace : isSpace '\n' = true := by decide
          simp [List.takeWhile_cons_of_pos hspace] at h

/-- The blocks of the package are such that splitting at two newlines gives them back. -/
theorem pieces_of_blocks {bs : List (List Char)} (h : ∀ b ∈ bs, IsBlock b) : Pieces bs := by
  refine ⟨fun b hb => IsBlock.single (h b hb).solid, List.pairwise_of_forall_mem_list ?_⟩
  intro b hb _ _ hlast
  have := (h b hb).getLast? _ hlast
  revert this
  decide

end Host

/-! ### The two passes -/

theorem isSpace_of_isWhitespace {c : Char} (h : isWhitespace c = true) : Host.isSpace c = true := by
  rw [Host.isSpace, h, Bool.true_or]

/-- A block as the kernel trims it. -/
def trimmed (block : List Char) : List Char := TextRuns.strip isWhitespace block

/-- The blocks of the package are the trimmed blocks of the kernel, when these are blocks of the
package. -/
theorem blocks_intercalate {bs : List (List Char)} (hne : bs ≠ [])
    (h : ∀ b ∈ bs, Host.IsBlock (trimmed b)) :
    Host.blocks (['\n', '\n'].intercalate bs) = bs.map trimmed := by
  induction bs with
  | nil => exact absurd rfl hne
  | cons b bs ih =>
      obtain ⟨u, v, hpad, hu, hv⟩ := exists_pad isWhitespace b
      rw [← trimmed] at hpad
      have hu' : ∀ c ∈ u, Host.isSpace c = true := fun c hc => isSpace_of_isWhitespace (hu c hc)
      have hv' : ∀ c ∈ v, Host.isSpace c = true := fun c hc => isSpace_of_isWhitespace (hv c hc)
      have hb := h b List.mem_cons_self
      cases bs with
      | nil =>
          rw [List.intercalate_singleton, List.map_cons, List.map_nil]
          conv_lhs => rw [hpad]
          exact Host.blocks_single hu' hb hv'
      | cons b' bs =>
          have hrest := ih (List.cons_ne_nil _ _) fun d hd => h d (List.mem_cons_of_mem _ hd)
          have hseparated : ∀ c ∈ v ++ ['\n', '\n'], Host.isSpace c = true := by
            intro c hc
            rcases List.mem_append.1 hc with hc | hc
            · exact hv' c hc
            · obtain rfl : c = '\n' := by simpa using hc
              decide
          have hfirst := Host.blocks_append hu' hb hseparated (List.sublist_append_right _ _)
            (['\n', '\n'].intercalate (b' :: bs))
          rw [hrest, ← List.append_assoc (u ++ trimmed b), ← hpad] at hfirst
          rw [List.intercalate_cons_cons, hfirst]
          rfl

/-- The blocks of a text on which the two passes agree, when it is not blank: trimmed they are
blocks of the package; the first of each is not padded; and what the package takes for the same is
the same. -/
structure TrimmedBlocks (py : PythonStrings) (bs : List (List Char)) : Prop where
  block : ∀ b ∈ bs, Host.IsBlock (trimmed b)
  unpadded : ∀ before b after, bs = before ++ b :: after →
    (∀ a ∈ before, trimmed a ≠ trimmed b) → trimmed b = b
  keys : ∀ a ∈ bs, ∀ b ∈ bs,
    Host.blockKey py (trimmed a) = Host.blockKey py (trimmed b) → trimmed a = trimmed b

/-- The blocks of a text on which the two passes agree; a blank text has an empty first block. -/
def SameBlocks (py : PythonStrings) (bs : List (List Char)) : Prop :=
  ((∀ b ∈ bs, trimmed b = []) ∧ bs.head? = some []) ∨ TrimmedBlocks py bs

/-- What the package strips, the kernel does not trim. -/
theorem trimmed_of_strip {c : List Char} (h : Host.strip c = c) : trimmed c = c := by
  have hwhite (d : Char) (hd : Host.isSpace d = false) : isWhitespace d = false := by
    rw [Host.isSpace, Bool.or_eq_false_iff] at hd
    exact hd.1
  refine strip_eq_self (fun d hd => hwhite d ?_) fun d hd => hwhite d ?_
  · rw [← h] at hd
    exact head?_strip d hd
  · rw [← h] at hd
    exact getLast?_strip d hd

section Agree

variable (py : PythonStrings) (bs : List (List Char))

/-- A blank text: the kernel keeps the first block, the package none. -/
theorem keepFirst_of_blank (h : ∀ b ∈ bs, trimmed b = []) (hhead : bs.head? = some []) :
    keepFirst trimmed [] bs = [[]] := by
  obtain ⟨rest, rfl⟩ : ∃ rest, bs = [] :: rest := by
    cases bs with
    | nil => cases hhead
    | cons b rest => exact ⟨rest, by rw [Option.some.inj hhead]⟩
  rw [keepFirst, if_neg List.not_mem_nil, List.cons.injEq]
  refine ⟨rfl, List.eq_nil_iff_forall_not_mem.2 fun b hb => keepFirst_fresh hb ?_⟩
  rw [h b (List.mem_cons_of_mem _ ((keepFirst_sublist _ _).subset hb))]
  exact List.mem_cons_self

/-- Only a blank text leaves the kernel with nothing. -/
theorem blank_of_intercalate_eq_nil (hne : bs ≠ [])
    (h : ['\n', '\n'].intercalate (keepFirst trimmed [] bs) = []) :
    (∀ b ∈ bs, trimmed b = []) ∧ bs.head? = some [] := by
  cases bs with
  | nil => exact absurd rfl hne
  | cons b rest =>
      have hkept : keepFirst trimmed [] (b :: rest) = [[]] := by
        rw [keepFirst, if_neg List.not_mem_nil] at h ⊢
        cases hrest : keepFirst trimmed [trimmed b] rest with
        | nil =>
            rw [hrest, List.intercalate_singleton] at h
            rw [h]
        | cons b' kept =>
            rw [hrest, List.intercalate_cons_cons] at h
            simp at h
      refine ⟨fun a ha => ?_, ?_⟩
      · obtain ⟨k, hk, hkey⟩ := exists_mem_keepFirst trimmed ha
        rw [hkept, List.mem_singleton] at hk
        rw [← hkey, hk]
        rfl
      · rw [keepFirst, if_neg List.not_mem_nil, List.cons.injEq] at hkept
        rw [hkept.1]
        rfl

/-- Where the two keep the same blocks, these are blocks of the package with keys of their own. -/
theorem trimmedBlocks_of_eq {l : List Char}
    (h : keepFirst trimmed [] bs = keepFirst (Host.blockKey py) [] (Host.blocks l)) :
    TrimmedBlocks py bs := by
  have hblock : ∀ k ∈ keepFirst trimmed [] bs, Host.IsBlock k := by
    intro k hk
    rw [h] at hk
    exact Host.isBlock_of_mem_blocks ((keepFirst_sublist _ _).subset hk)
  -- every trimmed block is one that is kept
  have hkept : ∀ b ∈ bs, trimmed b ∈ keepFirst trimmed [] bs := by
    intro b hb
    obtain ⟨k, hk, hkey⟩ := exists_mem_keepFirst trimmed hb
    rw [← hkey, trimmed_of_strip (hblock k hk).stripped]
    exact hk
  refine ⟨fun b hb => hblock _ (hkept b hb), ?_, ?_⟩
  · rintro before b after rfl hfirst
    have hb := mem_keepFirst_of_first trimmed after hfirst
    exact trimmed_of_strip (hblock b hb).stripped
  · intro a ha b hb hkey
    have ha' := hkept a ha
    have hb' := hkept b hb
    rw [h] at ha' hb'
    exact keepFirst_injective ha' hb' hkey

/-- The two keep the same of such blocks. -/
theorem TrimmedBlocks.keepFirst_eq (h : TrimmedBlocks py bs) :
    keepFirst trimmed [] bs = keepFirst (Host.blockKey py) [] (bs.map trimmed) := by
  have hfixed : (keepFirst trimmed [] bs).map trimmed = keepFirst trimmed [] bs := by
    refine (List.map_congr_left fun b hb => ?_).trans (List.map_id _)
    obtain ⟨before, after, hsplit, hfirst⟩ := exists_first_of_mem_keepFirst hb
    exact h.unpadded before b after hsplit hfirst
  rw [← hfixed, map_keepFirst]
  refine keepFirst_congr (by simp) ?_
  intro a ha b hb
  obtain ⟨a, ha', rfl⟩ := List.mem_map.1 ha
  obtain ⟨b, hb', rfl⟩ := List.mem_map.1 hb
  exact ⟨fun heq => congrArg _ heq, h.keys a ha' b hb'⟩

end Agree

/-- The kernel and the package deduplicate a text to the same exactly when the text has the same
blocks for both. -/
theorem deduplicate_agrees_iff (py : PythonStrings) (l : List Char) :
    ['\n', '\n'].intercalate (keepFirst trimmed [] (splitBlankLineChars l)) =
        Host.deduplicateBlocks py l ↔ SameBlocks py (splitBlankLineChars l) := by
  have hne := splitBlankLineChars_ne_nil l
  have hl := intercalate_splitBlankLineChars l
  have hpieces := pieces_splitBlankLineChars l
  generalize splitBlankLineChars l = bs at hne hl hpieces ⊢
  rw [Host.deduplicateBlocks]
  constructor
  · intro h
    have hkept : ∀ k ∈ keepFirst (Host.blockKey py) [] (Host.blocks l), Host.IsBlock k :=
      fun k hk => Host.isBlock_of_mem_blocks ((keepFirst_sublist _ _).subset hk)
    cases hnone : keepFirst (Host.blockKey py) [] (Host.blocks l) with
    | nil =>
        rw [hnone] at h
        exact .inl (blank_of_intercalate_eq_nil bs hne h)
    | cons k ks =>
        -- splitting at two newlines gives back what either of them joined
        have hsome : keepFirst (Host.blockKey py) [] (Host.blocks l) ≠ [] := by
          rw [hnone]
          exact List.cons_ne_nil _ _
        have hback := splitBlankLineChars_intercalate (Host.pieces_of_blocks hkept) hsome
        have hkernel : keepFirst trimmed [] bs ≠ [] := by
          obtain ⟨b, hb⟩ := List.exists_mem_of_ne_nil bs hne
          obtain ⟨kept, hkept, -⟩ := exists_mem_keepFirst trimmed hb
          exact List.ne_nil_of_mem hkept
        rw [← h, splitBlankLineChars_intercalate (hpieces.sublist (keepFirst_sublist _ _)) hkernel]
          at hback
        exact .inr (trimmedBlocks_of_eq py bs hback)
  · rintro (⟨hblank, hhead⟩ | h)
    · have hwhite : ∀ c ∈ l, Host.isSpace c = true := by
        intro c hc
        rw [← hl] at hc
        rcases mem_intercalate hc with hc | ⟨b, hb, hc⟩
        · obtain rfl : c = '\n' := by simpa using hc
          decide
        · exact isSpace_of_isWhitespace (strip_eq_nil_iff.1 (hblank b hb) c hc)
      have hnone : Host.blocks l = [] := by
        rw [← List.append_nil l, Host.blocks_pad hwhite]
        rfl
      rw [keepFirst_of_blank bs hblank hhead, hnone]
      rfl
    · rw [h.keepFirst_eq, ← blocks_intercalate hne h.block, hl]

end ContextLease
