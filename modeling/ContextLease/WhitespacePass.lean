/-
White space in the kernel and in the package.

The kernel joins the words of a text by single blanks.  The package works line by line and leaves
fenced code as it is, so that line breaks, blanks within code and any white space but blanks and
tabs survive; on the other hand it takes the separators U+001C to U+001F off the ends.  The results
are the same exactly when nothing of this occurs.

Main definitions:

* `OneLine`, `OneBlank` — texts that the package leaves on one line, and that it leaves as they are;
* `SameWords` — the texts on which the two passes agree.

Main results:

* `Host.normalizeLines_one` — the package collapses the blanks and tabs of a line;
* `Host.newline_mem_normalizeLines` — a line break between solid characters survives;
* `normalize_agrees_iff` — the two passes return the same exactly on `SameWords`.
-/

import ContextLease.BlockPass

set_option relaxedAutoImplicit false
set_option autoImplicit false

namespace ContextLease

open RustText TextRuns

namespace Host

/-! ### Lines -/

theorem isSpace_of_isLineBoundary {c : Char} (h : isLineBoundary c = true) : isSpace c = true := by
  rw [isLineBoundary, List.contains_iff_mem] at h
  simp only [List.mem_cons, List.not_mem_nil, or_false] at h
  rcases h with rfl | rfl | rfl | rfl | rfl | rfl | rfl | rfl | rfl | rfl <;> decide

theorem isSpace_of_isBlankOrTab {c : Char} (h : isBlankOrTab c = true) : isSpace c = true := by
  rw [isBlankOrTab, Bool.or_eq_true, beq_iff_eq, beq_iff_eq] at h
  rcases h with rfl | rfl <;> decide

/-- A line break of one character. -/
theorem splitLines_break {c : Char} {rest : List Char} (h : isLineBoundary c = true)
    (hnot : ¬ (c = '\r' ∧ rest.head? = some '\n')) :
    splitLines (c :: rest) = [] :: splitLines rest := by
  rw [splitLines, if_pos h]
  rintro more rfl rfl
  exact hnot ⟨rfl, rfl⟩

/-- A character of the first line. -/
theorem splitLines_char {c : Char} (h : isLineBoundary c = false) (rest : List Char) :
    splitLines (c :: rest) = (c :: (splitLines rest).headD []) :: (splitLines rest).tail := by
  rw [splitLines, if_neg (by simp [h])]
  · cases splitLines rest <;> rfl
  · rintro more rfl rfl
    exact absurd h (by decide)

/-- Induction along the lines: a line break of two characters, one of one character, or a character
of the first line. -/
theorem splitLines_induction {motive : List Char → Prop} (hnil : motive [])
    (hpair : ∀ rest, motive rest → motive ('\r' :: '\n' :: rest))
    (hbreak : ∀ c rest, isLineBoundary c = true → ¬ (c = '\r' ∧ rest.head? = some '\n') →
      motive rest → motive (c :: rest))
    (hchar : ∀ c rest, isLineBoundary c = false → motive rest → motive (c :: rest))
    (l : List Char) : motive l := by
  fun_induction splitLines l with
  | case1 => exact hnil
  | case2 rest ih => exact hpair rest ih
  | case3 c rest hnot hboundary ih =>
      refine hbreak c rest hboundary ?_ ih
      rintro ⟨rfl, hhead⟩
      cases rest with
      | nil => cases hhead
      | cons d rest => exact hnot rest rfl (by rw [Option.some.inj hhead])
  | case4 c rest hnot hboundary hrest ih => exact hchar c rest (by simpa using hboundary) ih
  | case5 c rest hnot hboundary line lines hrest ih =>
      exact hchar c rest (by simpa using hboundary) ih

/-- The characters of the lines are those of the text, without the line breaks. -/
theorem mem_of_mem_splitLines (l : List Char) :
    ∀ line ∈ splitLines l, ∀ c ∈ line, c ∈ l ∧ isLineBoundary c = false := by
  induction l using splitLines_induction with
  | hnil => simp [splitLines]
  | hpair rest ih =>
      have h : splitLines ('\r' :: '\n' :: rest) = [] :: splitLines rest := by rw [splitLines]
      intro line hline c hc
      rw [h] at hline
      rcases List.mem_cons.1 hline with rfl | hline
      · cases hc
      · obtain ⟨hmem, hsolid⟩ := ih line hline c hc
        exact ⟨by simp [hmem], hsolid⟩
  | hbreak d rest hboundary hnot ih =>
      have h := splitLines_break hboundary hnot
      intro line hline c hc
      rw [h] at hline
      rcases List.mem_cons.1 hline with rfl | hline
      · cases hc
      · obtain ⟨hmem, hsolid⟩ := ih line hline c hc
        exact ⟨List.mem_cons_of_mem _ hmem, hsolid⟩
  | hchar d rest hboundary ih =>
      have h := splitLines_char hboundary rest
      intro line hline c hc
      rw [h] at hline
      have hlift {line : List Char} (hline : line ∈ splitLines rest) (hc : c ∈ line) :
          c ∈ d :: rest ∧ isLineBoundary c = false :=
        ⟨List.mem_cons_of_mem _ (ih line hline c hc).1, (ih line hline c hc).2⟩
      rcases List.mem_cons.1 hline with rfl | hline
      · rcases List.mem_cons.1 hc with rfl | hc
        · exact ⟨List.mem_cons_self, hboundary⟩
        · cases hsplit : splitLines rest with
          | nil => simp [hsplit] at hc
          | cons first more =>
              have hfirst : first ∈ splitLines rest := by
                rw [hsplit]
                exact List.mem_cons_self
              rw [hsplit] at hc
              exact hlift hfirst hc
      · exact hlift (List.mem_of_mem_tail hline) hc

/-- A solid character is in a line. -/
theorem exists_line (l : List Char) {b : Char} (hsolid : isSpace b = false) (hb : b ∈ l) :
    ∃ line ∈ splitLines l, b ∈ line := by
  have hne {c : Char} (hc : isLineBoundary c = true) : b ≠ c := by
    rintro rfl
    rw [isSpace_of_isLineBoundary hc] at hsolid
    cases hsolid
  induction l using splitLines_induction with
  | hnil => cases hb
  | hpair rest ih =>
      have h : splitLines ('\r' :: '\n' :: rest) = [] :: splitLines rest := by rw [splitLines]
      have hrest : b ∈ rest := by
        simpa [hne (c := '\r') (by decide), hne (c := '\n') (by decide)] using hb
      obtain ⟨line, hline, hmem⟩ := ih hrest
      exact ⟨line, h ▸ List.mem_cons_of_mem _ hline, hmem⟩
  | hbreak c rest hboundary hnot ih =>
      have h := splitLines_break hboundary hnot
      obtain ⟨line, hline, hmem⟩ := ih ((List.mem_cons.1 hb).resolve_left (hne hboundary))
      exact ⟨line, h ▸ List.mem_cons_of_mem _ hline, hmem⟩
  | hchar c rest hboundary ih =>
      have h := splitLines_char hboundary rest
      rw [h]
      rcases List.mem_cons.1 hb with rfl | hb
      · exact ⟨_, List.mem_cons_self, List.mem_cons_self⟩
      · obtain ⟨line, hline, hmem⟩ := ih hb
        cases hsplit : splitLines rest with
        | nil =>
            rw [hsplit] at hline
            cases hline
        | cons first more =>
            rw [hsplit] at hline
            rcases List.mem_cons.1 hline with rfl | hline
            · exact ⟨_, List.mem_cons_self, List.mem_cons_of_mem _ hmem⟩
            · exact ⟨line, List.mem_cons_of_mem _ hline, hmem⟩

/-- A solid character after a line break is in a later line. -/
theorem exists_later_line (l : List Char) {b c : Char} (hsolid : isSpace b = false)
    (hc : isLineBoundary c = true) (hsub : [c, b].Sublist l) :
    ∃ line ∈ (splitLines l).tail, b ∈ line := by
  induction l using splitLines_induction with
  | hnil => cases hsub
  | hpair rest ih =>
      have h : splitLines ('\r' :: '\n' :: rest) = [] :: splitLines rest := by rw [splitLines]
      have hmem : b ∈ rest := by
        have hb := hsub.tail.subset List.mem_cons_self
        rcases List.mem_cons.1 hb with rfl | hb
        · exact absurd hsolid (by decide)
        · exact hb
      rw [h]
      exact exists_line rest hsolid hmem
  | hbreak d rest hboundary hnot ih =>
      have h := splitLines_break hboundary hnot
      have hmem : b ∈ rest := hsub.tail.subset List.mem_cons_self
      rw [h]
      exact exists_line rest hsolid hmem
  | hchar d rest hboundary ih =>
      have h := splitLines_char hboundary rest
      have hrest : [c, b].Sublist rest := by
        cases hsub with
        | cons _ hsub => exact hsub
        | cons_cons _ hsub =>
            rw [hc] at hboundary
            cases hboundary
      rw [h]
      exact ih hrest

/-- Solid characters around a line break are in different lines. -/
theorem exists_two_lines (l : List Char) {a b c : Char} (ha : isSpace a = false)
    (hb : isSpace b = false) (hc : isLineBoundary c = true) (hsub : [a, c, b].Sublist l) :
    ∃ first second, [first, second].Sublist (splitLines l) ∧ a ∈ first ∧ b ∈ second := by
  have hne {d : Char} (hd : isLineBoundary d = true) : a ≠ d := by
    rintro rfl
    rw [isSpace_of_isLineBoundary hd] at ha
    cases ha
  induction l using splitLines_induction with
  | hnil => cases hsub
  | hpair rest ih =>
      have h : splitLines ('\r' :: '\n' :: rest) = [] :: splitLines rest := by rw [splitLines]
      have hrest : [a, c, b].Sublist rest := by
        rcases List.sublist_cons_iff.1 hsub with hsub | ⟨r, hr, -⟩
        · rcases List.sublist_cons_iff.1 hsub with hsub | ⟨r, hr, -⟩
          · exact hsub
          · exact absurd (List.cons.inj hr).1 (hne (by decide))
        · exact absurd (List.cons.inj hr).1 (hne (by decide))
      obtain ⟨first, second, hlines, hmem⟩ := ih hrest
      exact ⟨first, second, h ▸ hlines.cons _, hmem⟩
  | hbreak d rest hboundary hnot ih =>
      have h := splitLines_break hboundary hnot
      have hrest : [a, c, b].Sublist rest := by
        rcases List.sublist_cons_iff.1 hsub with hsub | ⟨r, hr, -⟩
        · exact hsub
        · exact absurd (List.cons.inj hr).1 (hne hboundary)
      obtain ⟨first, second, hlines, hmem⟩ := ih hrest
      exact ⟨first, second, h ▸ hlines.cons _, hmem⟩
  | hchar d rest hboundary ih =>
      have h := splitLines_char hboundary rest
      rw [h]
      rcases List.sublist_cons_iff.1 hsub with hsub | ⟨r, hr, hrest⟩
      · obtain ⟨first, second, hlines, hfirst, hsecond⟩ := ih hsub
        cases hsplit : splitLines rest with
        | nil =>
            rw [hsplit] at hlines
            cases hlines
        | cons line lines =>
            rw [hsplit] at hlines
            rcases List.sublist_cons_iff.1 hlines with hlines | ⟨r, hr, hlines⟩
            · exact ⟨first, second, hlines.cons _, hfirst, hsecond⟩
            · obtain ⟨rfl, rfl⟩ := List.cons.inj hr
              exact ⟨d :: first, second, hlines.cons_cons _, List.mem_cons_of_mem _ hfirst, hsecond⟩
      · obtain ⟨rfl, rfl⟩ := List.cons.inj hr
        obtain ⟨line, hline, hmem⟩ := exists_later_line rest hb hc hrest
        exact ⟨_, line, (List.singleton_sublist.2 hline).cons_cons _, List.mem_cons_self, hmem⟩

/-! ### Normalized lines -/

theorem of_mem_strip {l : List Char} {c : Char} (hc : c ∈ strip l) : c ∈ l :=
  ((List.rdropWhile_prefix _ _).sublist.trans (List.dropWhile_sublist _)).subset hc

/-- Stripping keeps solid characters. -/
theorem mem_strip {l : List Char} {c : Char} (hc : c ∈ l) (hsolid : isSpace c = false) :
    c ∈ strip l := by
  obtain ⟨u, v, hl, hu, hv⟩ := exists_pad isSpace l
  rw [← strip] at hl
  rw [hl] at hc
  rcases List.mem_append.1 hc with hc | hc
  · rcases List.mem_append.1 hc with hc | hc
    · rw [hu c hc] at hsolid
      cases hsolid
    · exact hc
  · rw [hv c hc] at hsolid
    cases hsolid

/-- Stripping keeps what is between solid characters. -/
theorem mem_strip_between {l : List Char} {a b c : Char} (ha : isSpace a = false)
    (hb : isSpace b = false) (hsub : [a, c, b].Sublist l) : c ∈ strip l := by
  obtain ⟨u, v, hl, hu, hv⟩ := exists_pad isSpace l
  rw [← strip] at hl
  rw [hl, List.append_assoc] at hsub
  obtain ⟨l₁, l₂, hsplit, hsub₁, hsub₂⟩ := List.sublist_append_iff.1 hsub
  -- nothing of it is among the blanks in front
  obtain rfl : l₁ = [] := by
    cases l₁ with
    | nil => rfl
    | cons d l₁ =>
        obtain ⟨rfl, -⟩ := List.cons.inj hsplit
        rw [hu a (hsub₁.subset List.mem_cons_self)] at ha
        cases ha
  rw [List.nil_append] at hsplit
  subst hsplit
  obtain ⟨m₁, m₂, hsplit, hsub₁, hsub₂⟩ := List.sublist_append_iff.1 hsub₂
  -- nor among those at the end
  obtain rfl : m₂ = [] := by
    rcases List.eq_nil_or_concat' m₂ with rfl | ⟨m, d, rfl⟩
    · rfl
    · rw [← List.append_assoc] at hsplit
      obtain rfl : b = d := by simpa using congrArg List.getLast? hsplit
      rw [hv b (hsub₂.subset (by simp))] at hb
      cases hb
  rw [List.append_nil] at hsplit
  rw [← hsplit] at hsub₁
  exact hsub₁.subset (by simp)

/-- Parts that follow each other are joined by a newline. -/
theorem newline_between {parts : List (List Char)} {first second : List Char} {a b : Char}
    (hparts : [first, second].Sublist parts) (ha : a ∈ first) (hb : b ∈ second) :
    [a, '\n', b].Sublist (['\n'].intercalate parts) := by
  induction parts with
  | nil => cases hparts
  | cons part parts ih =>
      have hne : parts ≠ [] := by
        rintro rfl
        have := hparts.length_le
        simp at this
      rw [List.intercalate_cons_of_ne_nil hne]
      rcases List.sublist_cons_iff.1 hparts with hparts | ⟨r, hr, hrest⟩
      · exact (ih hparts).trans (List.sublist_append_right _ _)
      · obtain ⟨rfl, rfl⟩ := List.cons.inj hr
        have hmem : b ∈ ['\n'].intercalate parts :=
          mem_intercalate_of_mem (List.singleton_sublist.1 hrest) hb
        have hfirst := (List.singleton_sublist.2 ha).append
          ((List.singleton_sublist.2 hmem).cons_cons '\n')
        rw [List.append_assoc]
        exact hfirst

theorem of_mem_limitNewlines {c : Char} {l : List Char} {seen : ℕ}
    (hc : c ∈ limitNewlines seen l) : c ∈ l := by
  induction l generalizing seen with
  | nil => cases hc
  | cons d l ih =>
      rw [limitNewlines] at hc
      split at hc
      · rename_i hd
        split at hc
        · rcases List.mem_cons.1 hc with rfl | hc
          · rw [hd]
            exact List.mem_cons_self
          · exact List.mem_cons_of_mem _ (ih hc)
        · exact List.mem_cons_of_mem _ (ih hc)
      · rcases List.mem_cons.1 hc with rfl | hc
        · exact List.mem_cons_self
        · exact List.mem_cons_of_mem _ (ih hc)

/-- Only newlines are dropped. -/
theorem mem_limitNewlines {c : Char} {l : List Char} (hc : c ∈ l) (hne : c ≠ '\n') (seen : ℕ) :
    c ∈ limitNewlines seen l := by
  induction l generalizing seen with
  | nil => cases hc
  | cons d l ih =>
      rw [limitNewlines]
      rcases List.mem_cons.1 hc with rfl | hc
      · rw [if_neg hne]
        exact List.mem_cons_self
      · split
        · split
          · exact List.mem_cons_of_mem _ (ih hc _)
          · exact ih hc _
        · exact List.mem_cons_of_mem _ (ih hc _)

/-- The first newline after another character is kept. -/
theorem newline_sublist_limit {b : Char} {l : List Char} (hb : b ≠ '\n')
    (hsub : ['\n', b].Sublist l) : ['\n', b].Sublist (limitNewlines 0 l) := by
  induction l with
  | nil => cases hsub
  | cons d l ih =>
      rw [limitNewlines]
      split
      · rename_i hd
        have hmem := mem_limitNewlines (hsub.tail.subset List.mem_cons_self) hb (0 + 1)
        rw [if_pos (by decide)]
        exact (List.singleton_sublist.2 hmem).cons_cons _
      · rename_i hd
        rcases List.sublist_cons_iff.1 hsub with hsub | ⟨r, hr, -⟩
        · exact (ih hsub).cons _
        · exact absurd (List.cons.inj hr).1.symm hd

/-- A newline between other characters is kept. -/
theorem between_sublist_limit {a b : Char} {l : List Char} (ha : a ≠ '\n') (hb : b ≠ '\n')
    (hsub : [a, '\n', b].Sublist l) (seen : ℕ) :
    [a, '\n', b].Sublist (limitNewlines seen l) := by
  induction l generalizing seen with
  | nil => cases hsub
  | cons d l ih =>
      rw [limitNewlines]
      rcases List.sublist_cons_iff.1 hsub with hsub | ⟨r, hr, hrest⟩
      · split
        · split
          · exact (ih hsub _).cons _
          · exact ih hsub _
        · exact (ih hsub _).cons _
      · obtain ⟨rfl, rfl⟩ := List.cons.inj hr
        rw [if_neg ha]
        exact (newline_sublist_limit hb hrest).cons_cons _

theorem ne_newline {c : Char} (h : isSpace c = false) : c ≠ '\n' := by
  rintro rfl
  exact absurd h (by decide)

/-- A line with single blanks. -/
def normalizeLine (line : List Char) : List Char := strip (collapse ' ' isBlankOrTab line)

theorem mem_normalizeLine {line : List Char} {c : Char} (hc : c ∈ line)
    (hsolid : isSpace c = false) : c ∈ normalizeLine line := by
  refine mem_strip (mem_collapseFrom ' ' hc ?_ false) hsolid
  rw [← Bool.not_eq_true]
  intro hblank
  rw [isSpace_of_isBlankOrTab hblank] at hsolid
  cases hsolid

theorem of_mem_normalizeLine {line : List Char} {c : Char} (hc : c ∈ normalizeLine line) :
    c = ' ' ∨ c ∈ line := (of_mem_collapseFrom (of_mem_strip hc)).imp_right And.left

/-- The lines of a text, joined again. -/
def joinLines (text : List Char) : List Char :=
  ['\n'].intercalate ((splitLines text).map normalizeLine)

theorem normalizeLines_eq (text : List Char) :
    normalizeLines text = strip (limitNewlines 0 (joinLines text)) := rfl

/-- Solid characters survive. -/
theorem mem_normalizeLines {l : List Char} {c : Char} (hc : c ∈ l) (hsolid : isSpace c = false) :
    c ∈ normalizeLines l := by
  obtain ⟨line, hline, hmem⟩ := exists_line l hsolid hc
  have hpart : c ∈ joinLines l :=
    mem_intercalate_of_mem (List.mem_map_of_mem hline) (mem_normalizeLine hmem hsolid)
  exact mem_strip (mem_limitNewlines hpart (ne_newline hsolid) 0) hsolid

/-- So does a line break between them. -/
theorem newline_mem_normalizeLines {l : List Char} {a b c : Char} (ha : isSpace a = false)
    (hb : isSpace b = false) (hc : isLineBoundary c = true) (hsub : [a, c, b].Sublist l) :
    '\n' ∈ normalizeLines l := by
  obtain ⟨first, second, hlines, hfirst, hsecond⟩ := exists_two_lines l ha hb hc hsub
  have hjoined : [a, '\n', b].Sublist (joinLines l) :=
    newline_between (hlines.map normalizeLine) (mem_normalizeLine hfirst ha)
      (mem_normalizeLine hsecond hb)
  exact mem_strip_between ha hb (between_sublist_limit (ne_newline ha) (ne_newline hb) hjoined 0)

/-- Nothing else does. -/
theorem normalizeLines_of_blank {l : List Char} (h : ∀ c ∈ l, isSpace c = true) :
    normalizeLines l = [] := by
  refine strip_blanks ?_
  intro c hc
  rcases mem_intercalate (of_mem_limitNewlines hc) with hc | ⟨part, hpart, hc⟩
  · obtain rfl : c = '\n' := by simpa using hc
    decide
  · obtain ⟨line, hline, rfl⟩ := List.mem_map.1 hpart
    rcases of_mem_normalizeLine hc with rfl | hc
    · decide
    · exact h c (mem_of_mem_splitLines l line hline c hc).1

/-! ### One line -/

/-- The lines of a text that starts with a line of its own. -/
theorem splitLines_append {t : List Char} (hne : t ≠ []) (h : ∀ c ∈ t, isLineBoundary c = false)
    (v : List Char) :
    splitLines (t ++ v) = (t ++ (splitLines v).headD []) :: (splitLines v).tail := by
  induction t with
  | nil => exact absurd rfl hne
  | cons c t ih =>
      rw [List.cons_append, splitLines_char (h c List.mem_cons_self)]
      cases t with
      | nil => rfl
      | cons d t =>
          rw [ih (List.cons_ne_nil _ _) fun e he => h e (List.mem_cons_of_mem _ he)]
          rfl

/-- White space around one line gives blank lines, and white space on the line. -/
theorem splitLines_pad {u t v : List Char} (hu : ∀ c ∈ u, isSpace c = true) (hne : t ≠ [])
    (hhead : ∀ c ∈ t.head?, isSpace c = false) (h : ∀ c ∈ t, isLineBoundary c = false)
    (hv : ∀ c ∈ v, isSpace c = true) :
    ∃ before u' v' after, splitLines (u ++ (t ++ v)) = before ++ (u' ++ t ++ v') :: after ∧
      (∀ line ∈ before ++ after, ∀ c ∈ line, isSpace c = true) ∧
      (∀ c ∈ u', isSpace c = true) ∧ ∀ c ∈ v', isSpace c = true := by
  induction u using splitLines_induction with
  | hnil =>
      have hlines : ∀ line ∈ splitLines v, ∀ c ∈ line, isSpace c = true := fun line hline c hc =>
        hv c (mem_of_mem_splitLines v line hline c hc).1
      refine ⟨[], [], (splitLines v).headD [], (splitLines v).tail, ?_, ?_, by simp, ?_⟩
      · rw [List.nil_append, splitLines_append hne h]
        rfl
      · intro line hline
        exact hlines line (List.mem_of_mem_tail hline)
      · cases hsplit : splitLines v with
        | nil => simp
        | cons line lines => exact hlines line (by simp [hsplit])
  | hpair u ih =>
      obtain ⟨before, u', v', after, hsplit, hlines, hrest⟩ :=
        ih fun c hc => hu c (by simp [hc])
      refine ⟨[] :: before, u', v', after, ?_, ?_, hrest⟩
      · rw [List.cons_append, List.cons_append, splitLines, hsplit, List.cons_append]
      · simpa using hlines
  | hbreak c u hboundary hnot ih =>
      obtain ⟨before, u', v', after, hsplit, hlines, hrest⟩ :=
        ih fun c hc => hu c (List.mem_cons_of_mem _ hc)
      have hnot' : ¬ (c = '\r' ∧ (u ++ (t ++ v)).head? = some '\n') := by
        rintro ⟨rfl, hnewline⟩
        cases u with
        | nil =>
            cases t with
            | nil => exact hne rfl
            | cons d t =>
                obtain rfl : d = '\n' := by simpa using hnewline
                exact absurd (hhead '\n' rfl) (by decide)
        | cons d u => exact hnot ⟨rfl, by simpa using hnewline⟩
      refine ⟨[] :: before, u', v', after, ?_, ?_, hrest⟩
      · rw [List.cons_append, splitLines_break hboundary hnot', hsplit, List.cons_append]
      · simpa using hlines
  | hchar c u hboundary ih =>
      obtain ⟨before, u', v', after, hsplit, hlines, hu', hv'⟩ :=
        ih fun c hc => hu c (List.mem_cons_of_mem _ hc)
      have hc := hu c List.mem_cons_self
      rw [List.cons_append, splitLines_char hboundary, hsplit]
      cases before with
      | nil =>
          refine ⟨[], c :: u', v', after, rfl, hlines, ?_, hv'⟩
          intro d hd
          rcases List.mem_cons.1 hd with rfl | hd
          · exact hc
          · exact hu' d hd
      | cons line before =>
          refine ⟨(c :: line) :: before, u', v', after, rfl, ?_, hu', hv'⟩
          intro first hfirst d hd
          rcases List.mem_cons.1 hfirst with rfl | hfirst
          · rcases List.mem_cons.1 hd with rfl | hd
            · exact hc
            · exact hlines line List.mem_cons_self d hd
          · exact hlines first (List.mem_cons_of_mem _ hfirst) d hd

theorem limitNewlines_append {x : List Char} (hne : x ≠ []) (hx : '\n' ∉ x) (l r : List Char)
    (seen : ℕ) :
    limitNewlines seen (l ++ (x ++ r)) = limitNewlines seen l ++ x ++ limitNewlines 0 r := by
  induction l generalizing seen with
  | nil =>
      rw [List.nil_append, limitNewlines, List.nil_append]
      induction x generalizing seen with
      | nil => exact absurd rfl hne
      | cons c x ih =>
          rw [List.mem_cons, not_or] at hx
          rw [List.cons_append, limitNewlines, if_neg (Ne.symm hx.1)]
          cases x with
          | nil => rfl
          | cons d x =>
              rw [ih (List.cons_ne_nil _ _) hx.2]
              rfl
  | cons c l ih =>
      rw [List.cons_append, limitNewlines, limitNewlines]
      split
      · split
        · rw [ih]
          rfl
        · exact ih _
      · rw [ih]
        rfl

theorem isBlankOrTab_of_solid {c : Char} (h : isSpace c = false) : isBlankOrTab c = false := by
  rw [← Bool.not_eq_true]
  intro hblank
  rw [isSpace_of_isBlankOrTab hblank] at h
  cases h

theorem normalizeLine_of_blank {line : List Char} (h : ∀ c ∈ line, isSpace c = true) :
    normalizeLine line = [] := by
  refine strip_blanks ?_
  intro c hc
  rcases of_mem_collapseFrom hc with rfl | ⟨hc, -⟩
  · decide
  · exact h c hc

/-- A text that neither begins nor ends with white space. -/
structure Flush (t : List Char) : Prop where
  head : ∀ c ∈ t.head?, isSpace c = false
  last : ∀ c ∈ t.getLast?, isSpace c = false

theorem flush_strip (l : List Char) : Flush (strip l) := ⟨head?_strip, getLast?_strip⟩

theorem Flush.strip_eq {t : List Char} (h : Flush t) : strip t = t := strip_eq_self h.head h.last

theorem Flush.collapse {t : List Char} (h : Flush t) : Flush (collapse ' ' isBlankOrTab t) where
  head := by
    rw [head?_collapse fun c hc => isBlankOrTab_of_solid (h.head c hc)]
    exact h.head
  last := by
    rw [getLast?_collapse fun c hc => isBlankOrTab_of_solid (h.last c hc)]
    exact h.last

theorem normalizeLine_pad {u t v : List Char} (hu : ∀ c ∈ u, isSpace c = true) (ht : Flush t)
    (hne : t ≠ []) (hv : ∀ c ∈ v, isSpace c = true) :
    normalizeLine (u ++ t ++ v) = TextRuns.collapse ' ' isBlankOrTab t := by
  have hblank {w : List Char} (hw : ∀ c ∈ w, isSpace c = true) (inRun : Bool) :
      ∀ c ∈ collapseFrom ' ' isBlankOrTab inRun w, isSpace c = true := by
    intro c hc
    rcases of_mem_collapseFrom hc with rfl | ⟨hc, -⟩
    · decide
    · exact hw c hc
  rw [normalizeLine, TextRuns.collapse,
    exists_collapse_pad (fun c hc => isBlankOrTab_of_solid (ht.head c hc))
      (fun c hc => isBlankOrTab_of_solid (ht.last c hc)) hne,
    strip, strip_pad (hblank hu _) (hblank hv _)]
  exact ht.collapse.strip_eq

/-- Empty parts leave newlines only. -/
theorem exists_join_empty {before after : List (List Char)} (x : List Char)
    (hbefore : ∀ part ∈ before, part = []) (hafter : ∀ part ∈ after, part = []) :
    ∃ p q, ['\n'].intercalate (before ++ x :: after) = p ++ (x ++ q) ∧
      (∀ c ∈ p, c = '\n') ∧ ∀ c ∈ q, c = '\n' := by
  induction before with
  | nil =>
      cases after with
      | nil => exact ⟨[], [], by simp, by simp, by simp⟩
      | cons part after =>
          refine ⟨[], '\n' :: ['\n'].intercalate (part :: after), ?_, by simp, ?_⟩
          · rw [List.nil_append, List.intercalate_cons_cons, List.append_assoc]
            rfl
          · intro c hc
            rcases List.mem_cons.1 hc with rfl | hc
            · rfl
            · rcases mem_intercalate hc with hc | ⟨part', hpart, hc⟩
              · simpa using hc
              · rw [hafter part' hpart] at hc
                cases hc
  | cons part before ih =>
      obtain ⟨p, q, hjoin, hp, hq⟩ := ih fun part' h => hbefore part' (List.mem_cons_of_mem _ h)
      refine ⟨'\n' :: p, q, ?_, by simpa using hp, hq⟩
      rw [List.cons_append, List.intercalate_cons_of_ne_nil (by simp), hjoin,
        hbefore part List.mem_cons_self]
      rfl

/-- A text of one line with white space around it: its blanks and tabs are collapsed. -/
theorem normalizeLines_one {u t v : List Char} (hu : ∀ c ∈ u, isSpace c = true) (ht : Flush t)
    (hne : t ≠ []) (h : ∀ c ∈ t, isLineBoundary c = false) (hv : ∀ c ∈ v, isSpace c = true) :
    normalizeLines (u ++ (t ++ v)) = collapse ' ' isBlankOrTab t := by
  obtain ⟨before, u', v', after, hsplit, hlines, hu', hv'⟩ := splitLines_pad hu hne ht.head h hv
  have hempty : ∀ lines ⊆ before ++ after, ∀ part ∈ lines.map normalizeLine, part = [] := by
    intro lines hsub part hpart
    obtain ⟨line, hline, rfl⟩ := List.mem_map.1 hpart
    exact normalizeLine_of_blank (hlines line (hsub hline))
  obtain ⟨p, q, hjoin, hp, hq⟩ := exists_join_empty (collapse ' ' isBlankOrTab t)
    (hempty before (List.subset_append_left _ _)) (hempty after (List.subset_append_right _ _))
  have hwhite {w : List Char} (hw : ∀ c ∈ w, c = '\n') (seen : ℕ) :
      ∀ c ∈ limitNewlines seen w, isSpace c = true := by
    intro c hc
    rw [hw c (of_mem_limitNewlines hc)]
    decide
  have hsome : collapse ' ' isBlankOrTab t ≠ [] := by
    obtain ⟨c, rest, rfl⟩ := List.exists_cons_of_ne_nil hne
    have hmem := mem_collapseFrom ' ' List.mem_cons_self
      (isBlankOrTab_of_solid (ht.head c rfl)) false (l := c :: rest)
    exact List.ne_nil_of_mem hmem
  have hnewline : '\n' ∉ collapse ' ' isBlankOrTab t := by
    intro hmem
    rcases of_mem_collapseFrom hmem with heq | ⟨hmem, -⟩
    · exact absurd heq (by decide)
    · exact absurd (h _ hmem) (by decide)
  rw [normalizeLines_eq, joinLines, hsplit, List.map_append, List.map_cons,
    normalizeLine_pad hu' ht hne hv', hjoin, limitNewlines_append hsome hnewline, strip,
    strip_pad (hwhite hp _) (hwhite hq _)]
  exact ht.collapse.strip_eq

/-! ### Segments -/

theorem closeFence_append {text block left : List Char} (h : closeFence text = some (block, left)) :
    block ++ left = text := by
  induction text generalizing block left with
  | nil => cases h
  | cons c rest ih =>
      rw [closeFence] at h
      split at h
      · rename_i hfence
        obtain ⟨rfl, rfl⟩ : fence = block ∧ (c :: rest).drop 3 = left := by simpa using h
        obtain ⟨r, hr⟩ := List.isPrefixOf_iff_prefix.1 hfence
        rw [← hr]
        rfl
      · obtain ⟨⟨block', left'⟩, hclose, heq⟩ := Option.map_eq_some_iff.1 h
        obtain ⟨rfl, rfl⟩ : c :: block' = block ∧ left' = left := by simpa using heq
        rw [List.cons_append, ih hclose]

theorem splitFencesIn_ne_nil (fuel : ℕ) (text : List Char) : splitFencesIn fuel text ≠ [] := by
  induction fuel generalizing text with
  | zero => exact List.cons_ne_nil _ _
  | succ fuel ih =>
      cases text with
      | nil => exact List.cons_ne_nil _ _
      | cons c rest =>
          simp only [splitFencesIn]
          split
          · exact List.cons_ne_nil _ _
          · simpa using ih rest

/-- The segments make up the text. -/
theorem flatten_splitFencesIn (fuel : ℕ) (text : List Char) :
    (splitFencesIn fuel text).flatten = text := by
  induction fuel generalizing text with
  | zero => simp [splitFencesIn]
  | succ fuel ih =>
      cases text with
      | nil => rfl
      | cons c rest =>
          have hplain : ((splitFencesIn fuel rest).modifyHead (c :: ·)).flatten = c :: rest := by
            have hrest := ih rest
            cases hsplit : splitFencesIn fuel rest with
            | nil => exact absurd hsplit (splitFencesIn_ne_nil fuel rest)
            | cons segment segments =>
                rw [hsplit, List.flatten_cons] at hrest
                rw [List.modifyHead_cons, List.flatten_cons, List.cons_append, hrest]
          simp only [splitFencesIn]
          split
          · rename_i block left hfound
            split at hfound
            · rename_i hfence
              obtain ⟨r, hr⟩ := List.isPrefixOf_iff_prefix.1 hfence
              have hclose := closeFence_append hfound
              rw [List.flatten_cons, List.flatten_cons, ih, List.nil_append, List.append_assoc,
                hclose, ← hr]
              rfl
            · cases hfound
          · exact hplain

theorem normalizeSegment_eq_nil_iff {preserveFences : Bool} {segment : List Char} :
    normalizeSegment preserveFences segment = [] ↔ ∀ c ∈ segment, isSpace c = true := by
  rw [normalizeSegment]
  split
  · exact strip_eq_nil_iff
  · refine ⟨fun h c hc => ?_, normalizeLines_of_blank⟩
    by_contra hsolid
    have hmem := mem_normalizeLines hc (by simpa using hsolid)
    rw [h] at hmem
    cases hmem

/-- A segment that is not blank. -/
def isSolid (segment : List Char) : Bool := !segment.all isSpace

theorem isSolid_eq_false {segment : List Char} :
    isSolid segment = false ↔ ∀ c ∈ segment, isSpace c = true := by
  rw [isSolid, Bool.not_eq_false', List.all_eq_true]

/-- Only the solid segments count. -/
theorem normalizeWhitespace_eq (text : List Char) : normalizeWhitespace true text =
    ['\n'].intercalate (((splitFences text).filter isSolid).map (normalizeSegment true)) := by
  rw [normalizeWhitespace, List.filter_map]
  have hsame : (fun part : List Char => !part.isEmpty) ∘ normalizeSegment true = isSolid := by
    funext segment
    rw [Bool.eq_iff_iff, ← not_iff_not, Bool.not_eq_true, Bool.not_eq_true, isSolid_eq_false,
      ← @normalizeSegment_eq_nil_iff true]
    simp
  rw [hsame]
  rfl

end Host

/-! ### The two passes -/

/-- What the package leaves on one line: no line break, and no white space but blanks and tabs. -/
def OneLine (t : List Char) : Prop :=
  ∀ c ∈ t, Host.isLineBoundary c = false ∧ (isWhitespace c = true → Host.isBlankOrTab c = true)

/-- What the kernel leaves as it is: no white space but single blanks. -/
def OneBlank (t : List Char) : Prop :=
  (∀ c ∈ t, isWhitespace c = true → c = ' ') ∧
    t.IsChain fun c d => isWhitespace c = true → isWhitespace d = false

/-- The texts on which the passes agree: what the kernel trims them to is empty; or it does not
begin or end with a separator, it lies in one segment, and that segment is a fenced block without
white space but single blanks, or else one line. -/
def SameWords (text : List Char) : Prop :=
  trimmed text = [] ∨
    Host.Flush (trimmed text) ∧
      ∃ segment, (Host.splitFences text).filter Host.isSolid = [segment] ∧
        if Host.fence.isPrefixOf segment then OneBlank (trimmed text) else OneLine (trimmed text)

/-- What the kernel normalizes a text to. -/
def kernelWords (text : List Char) : List Char := collapse ' ' isWhitespace (trimmed text)

theorem newline_not_mem_kernelWords (text : List Char) : '\n' ∉ kernelWords text := by
  intro hmem
  rcases of_mem_collapseFrom hmem with h | ⟨-, h⟩
  · exact absurd h (by decide)
  · exact absurd h (by decide)

theorem kernelWords_eq_nil {text : List Char} (h : kernelWords text = []) : trimmed text = [] := by
  cases htrim : trimmed text with
  | nil => rfl
  | cons c rest =>
      have hc : isWhitespace c = false := head?_strip (l := text) c (by
        rw [← trimmed, htrim]
        rfl)
      have hmem := mem_collapseFrom ' ' (@List.mem_cons_self _ c rest) hc false
      rw [← collapse, ← htrim, ← kernelWords, h] at hmem
      cases hmem

/-- The ends of what the kernel trims a text to are those of the result. -/
theorem flush_of_kernelWords {text : List Char} (h : Host.Flush (kernelWords text)) :
    Host.Flush (trimmed text) where
  head := by
    rw [← @head?_collapse _ ' ' isWhitespace (trimmed text) head?_strip]
    exact h.head
  last := by
    rw [← @getLast?_collapse _ ' ' isWhitespace (trimmed text) getLast?_strip]
    exact h.last

/-- The segment that is not blank holds what the kernel trims the text to. -/
theorem exists_segment_pad {text segment : List Char} (hflush : Host.Flush (trimmed text))
    (h : (Host.splitFences text).filter Host.isSolid = [segment]) :
    ∃ u v, segment = u ++ (trimmed text ++ v) ∧ (∀ c ∈ u, Host.isSpace c = true) ∧
      ∀ c ∈ v, Host.isSpace c = true := by
  obtain ⟨before, after, hsegments, hbefore, -, hafter⟩ := List.filter_eq_cons_iff.1 h
  have hblank {segments : List (List Char)}
      (hsegments : ∀ segment ∈ segments, ¬ Host.isSolid segment = true) :
      ∀ c ∈ segments.flatten, Host.isSpace c = true := by
    intro c hc
    obtain ⟨other, hother, hc⟩ := List.mem_flatten.1 hc
    exact Host.isSolid_eq_false.1 (Bool.not_eq_true _ ▸ hsegments other hother) c hc
  have htext : text = before.flatten ++ segment ++ after.flatten := by
    have hflatten := Host.flatten_splitFencesIn text.length text
    rw [← Host.splitFences, hsegments, List.flatten_append, List.flatten_cons] at hflatten
    rw [List.append_assoc, hflatten]
  -- stripped, the text and the segment are the same
  have hstrip : Host.strip segment = trimmed text := by
    obtain ⟨u, v, hpad, hu, hv⟩ := exists_pad isWhitespace text
    have hwhite {w : List Char} (hw : ∀ c ∈ w, isWhitespace c = true) :
        ∀ c ∈ w, Host.isSpace c = true := fun c hc => isSpace_of_isWhitespace (hw c hc)
    rw [← trimmed] at hpad
    calc Host.strip segment
        = Host.strip (before.flatten ++ segment ++ after.flatten) :=
          (strip_pad (hblank hbefore) (hblank (List.filter_eq_nil_iff.1 hafter)) segment).symm
      _ = Host.strip (u ++ trimmed text ++ v) := by rw [← htext, ← hpad]
      _ = Host.strip (trimmed text) := strip_pad (hwhite hu) (hwhite hv) _
      _ = trimmed text := hflush.strip_eq
  obtain ⟨u, v, hpad, hu, hv⟩ := exists_pad Host.isSpace segment
  rw [← Host.strip, hstrip, List.append_assoc] at hpad
  exact ⟨u, v, hpad, hu, hv⟩

/-- A character of white space within a text is between solid ones. -/
theorem Host.Flush.between {t : List Char} (h : Host.Flush t) {c : Char} (hc : c ∈ t)
    (hspace : Host.isSpace c = true) : ∃ a b, Host.isSpace a = false ∧ Host.isSpace b = false ∧
      [a, c, b].Sublist t := by
  obtain ⟨before, after, rfl⟩ := List.append_of_mem hc
  cases before with
  | nil =>
      rw [h.head c rfl] at hspace
      cases hspace
  | cons a before =>
      rcases List.eq_nil_or_concat' after with rfl | ⟨after, b, rfl⟩
      · rw [h.last c (by rw [List.getLast?_concat]; rfl)] at hspace
        cases hspace
      · refine ⟨a, b, h.head a rfl, h.last b ?_, ?_⟩
        · have hassoc :
              a :: before ++ c :: (after ++ [b]) = (a :: before ++ c :: after) ++ [b] := by
            simp
          rw [hassoc, List.getLast?_concat]
          rfl
        · rw [List.cons_append]
          refine List.Sublist.cons_cons a ?_
          have hend := (List.sublist_append_right after [b]).cons_cons c
          exact hend.trans (List.sublist_append_right before _)

theorem Host.flush_normalizeSegment (preserveFences : Bool) (segment : List Char) :
    Host.Flush (Host.normalizeSegment preserveFences segment) := by
  rw [Host.normalizeSegment]
  split
  · exact Host.flush_strip _
  · exact Host.flush_strip _

/-- The one segment that is not blank: a fenced block is left as it is, and of a line the blanks and
tabs are collapsed. -/
theorem segment_agrees_iff {text segment : List Char} (hne : trimmed text ≠ [])
    (hflush : Host.Flush (trimmed text))
    (h : (Host.splitFences text).filter Host.isSolid = [segment]) :
    kernelWords text = Host.normalizeSegment true segment ↔
      if Host.fence.isPrefixOf segment then OneBlank (trimmed text)
      else OneLine (trimmed text) := by
  obtain ⟨u, v, hpad, hu, hv⟩ := exists_segment_pad hflush h
  rw [Host.normalizeSegment, Bool.true_and]
  split
  · have hstrip : Host.strip segment = trimmed text := by
      rw [hpad, ← List.append_assoc, Host.strip, strip_pad hu hv]
      exact hflush.strip_eq
    rw [hstrip, kernelWords, collapse, collapseFrom_eq_self_iff, OneBlank]
    simp
  · by_cases hlines : ∀ c ∈ trimmed text, Host.isLineBoundary c = false
    · rw [hpad, Host.normalizeLines_one hu hflush hne hlines hv, eq_comm, kernelWords,
        collapse_eq_iff (by decide) ?_]
      · exact ⟨fun hwhite c hc => ⟨hlines c hc, hwhite c hc⟩, fun hline c hc => (hline c hc).2⟩
      · intro c hc
        rw [Host.isBlankOrTab, Bool.or_eq_true, beq_iff_eq, beq_iff_eq] at hc
        rcases hc with rfl | rfl <;> decide
    · refine iff_of_false (fun heq => ?_) fun hline => hlines fun c hc => (hline c hc).1
      push Not at hlines
      obtain ⟨c, hc, hboundary⟩ := hlines
      rw [ne_eq, Bool.not_eq_false] at hboundary
      obtain ⟨a, b, ha, hb, hsub⟩ :=
        hflush.between hc (Host.isSpace_of_isLineBoundary hboundary)
      have hlonger : (trimmed text).Sublist segment := by
        rw [hpad]
        exact (List.sublist_append_left _ v).trans (List.sublist_append_right u _)
      have hnewline := Host.newline_mem_normalizeLines ha hb hboundary (hsub.trans hlonger)
      exact newline_not_mem_kernelWords text (heq ▸ hnewline)

/-- The kernel and the package normalize a text to the same exactly when the text has the same words
for both. -/
theorem normalize_agrees_iff (text : List Char) :
    kernelWords text = Host.normalizeWhitespace true text ↔ SameWords text := by
  rw [Host.normalizeWhitespace_eq, SameWords]
  by_cases hnone : trimmed text = []
  · -- a blank text
    have hblank : (Host.splitFences text).filter Host.isSolid = [] := by
      refine List.filter_eq_nil_iff.2 ?_
      intro segment hsegment
      rw [Bool.not_eq_true, Host.isSolid_eq_false]
      intro c hc
      refine isSpace_of_isWhitespace (strip_eq_nil_iff.1 hnone c ?_)
      rw [← Host.flatten_splitFencesIn text.length text, ← Host.splitFences]
      exact List.mem_flatten.2 ⟨segment, hsegment, hc⟩
    rw [hblank, kernelWords, hnone]
    exact iff_of_true rfl (.inl rfl)
  · cases hsegments : (Host.splitFences text).filter Host.isSolid with
    | nil =>
        refine iff_of_false (fun h => hnone (kernelWords_eq_nil h)) ?_
        rintro (h | ⟨-, segment, h, -⟩)
        · exact hnone h
        · cases h
    | cons segment segments =>
        cases segments with
        | nil =>
            rw [List.map_cons, List.map_nil, List.intercalate_singleton]
            simp only [hnone, false_or, List.cons.injEq, and_true, exists_eq_left']
            constructor
            · intro h
              have hflush : Host.Flush (trimmed text) :=
                flush_of_kernelWords (h ▸ Host.flush_normalizeSegment true segment)
              exact ⟨hflush, (segment_agrees_iff hnone hflush hsegments).1 h⟩
            · rintro ⟨hflush, h⟩
              exact (segment_agrees_iff hnone hflush hsegments).2 h
        | cons other segments =>
            refine iff_of_false ?_ ?_
            · intro h
              refine newline_not_mem_kernelWords text ?_
              rw [h, List.map_cons, List.map_cons, List.intercalate_cons_cons]
              simp
            · rintro (h | ⟨-, segment', h, -⟩)
              · exact hnone h
              · simp at h

end ContextLease
