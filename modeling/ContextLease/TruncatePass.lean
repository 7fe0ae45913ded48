/-
Truncation in the kernel and in the package.

The kernel appends one character after another as long as the text counts as at most the target, and
trims the end of what it has reached.  The package returns a text within the target as it is, and
otherwise searches for the longest prefix by bisection and goes back to the last blank or newline of
that, when it lies beyond the middle.

Main definitions:

* `regexCounts` — counting in a call with the regular-expression estimator;
* `PassedTogether`, `PassedAfterGap` — where in a text the two counts pass the target;
* `SameCut` — the texts and targets on which the two passes agree.

Main results:

* `Host.searchLength_spec` — the bisection finds the greatest length that passes;
* `Host.boundaryTruncate_eq` — what the package returns;
* `truncations_agree_iff` — the two passes return the same exactly on `SameCut`.
-/

import ContextLease.WhitespacePass
import ContextLease.Truncation

set_option relaxedAutoImplicit false
set_option autoImplicit false

namespace ContextLease

open MachineNumbers RustText TextRuns GreedyPrefix

/-! ### Bisection -/

/-- The bisection finds the greatest length that passes, when lesser lengths pass with greater
ones. -/
theorem Host.searchLength_spec {fits : ℕ → Bool} (hfits : ∀ n m, n ≤ m → fits m → fits n)
    {bound : ℕ}
    {fuel low high : ℕ} (hfuel : high ≤ low + fuel) (hlow : fits low) (hle : low ≤ high)
    (hbound : high ≤ bound) (hhigh : ∀ n, high < n → n ≤ bound → ¬ fits n) :
    fits (searchLength fits fuel low high) ∧ searchLength fits fuel low high ≤ bound ∧
      ∀ n ≤ bound, fits n → n ≤ searchLength fits fuel low high := by
  have hdone {low high : ℕ} (heq : low = high) (hlow : fits low) (hbound : high ≤ bound)
      (hhigh : ∀ n, high < n → n ≤ bound → ¬ fits n) :
      fits low ∧ low ≤ bound ∧ ∀ n ≤ bound, fits n → n ≤ low := by
    subst heq
    refine ⟨hlow, hbound, ?_⟩
    intro n hn hpass
    by_contra hmore
    exact hhigh n (by omega) hn hpass
  induction fuel generalizing low high with
  | zero =>
      rw [searchLength]
      exact hdone (by omega) hlow hbound hhigh
  | succ fuel ih =>
      rw [searchLength]
      split
      · rename_i hmore
        dsimp only
        split
        · rename_i hmid
          exact ih (by omega) hmid (by omega) hbound hhigh
        · rename_i hmid
          refine ih (by omega) hlow (by omega) (by omega) ?_
          intro n hn hle hpass
          exact hmid (hfits _ n (by omega) hpass)
      · exact hdone (by omega) hlow hbound hhigh

/-! ### The package -/

namespace Host

variable (py : PythonStrings)

theorem countMatches_eq (l : List Char) :
    countMatches py l = WordScan.starts py.isWord isSpace false l := by
  rw [countMatches, regexCountText, String.toList_ofList, WordScan.length_findAll]

/-- A prefix has no more matches. -/
theorem countMatches_mono {p l : List Char} (h : p <+: l) :
    countMatches py p ≤ countMatches py l := by
  obtain ⟨r, rfl⟩ := h
  rw [countMatches_eq, countMatches_eq]
  exact WordScan.starts_le_append py.isWord isSpace p r false

/-- What the package counts is within a target. -/
def CountsWithin (target : ℤ) (text : List Char) : Prop := (countMatches py text : ℤ) ≤ target

instance instDecidableCountsWithin (target : ℤ) : DecidablePred (CountsWithin py target) :=
  fun _ => inferInstanceAs (Decidable (_ ≤ _))

/-- If a text is within the target, all its prefixes are. -/
theorem within_countsWithin_iff {target : ℤ} {text : List Char} :
    Within (CountsWithin py target) text ↔ CountsWithin py target text := by
  constructor
  · exact fun h => h text (List.prefix_refl text)
  · intro h p hp
    exact (Nat.cast_le.2 (countMatches_mono py hp)).trans h

/-- White space counts nothing. -/
theorem CountsWithin.concat {target : ℤ} {text : List Char} {c : Char}
    (h : CountsWithin py target text) (hc : isWhitespace c = true) :
    CountsWithin py target (text ++ [c]) := by
  have hspace : isSpace c = true := by rw [isSpace, hc, Bool.true_or]
  rw [CountsWithin, countMatches_eq, WordScan.starts_append_space py.isWord isSpace
    py.isWord_not_space hspace, ← countMatches_eq]
  exact h

/-- The test of the bisection. -/
def fitsLength (target : ℤ) (text : List Char) (mid : ℕ) : Bool :=
  (countMatches py (Keep.head.slice text mid) : ℤ) ≤ target

variable {py}

theorem fitsLength_iff {target : ℤ} {text : List Char} {mid : ℕ} :
    fitsLength py target text mid = true ↔ CountsWithin py target (text.take mid) :=
  decide_eq_true_iff

variable (py)

theorem countsWithin_nil {target : ℤ} (htarget : 0 ≤ target) : CountsWithin py target [] := by
  have hnone : countMatches py [] = 0 := rfl
  rw [CountsWithin, hnone]
  exact htarget

/-- The bisection finds the longest prefix. -/
theorem take_searchLength {target : ℤ} (htarget : 0 ≤ target) (text : List Char) :
    text.take (searchLength (fitsLength py target text) text.length 0 text.length) =
      extend (CountsWithin py target) [] text := by
  have hmono : ∀ n m, n ≤ m → fitsLength py target text m → fitsLength py target text n := by
    intro n m hnm hm
    rw [fitsLength_iff, ← within_countsWithin_iff] at hm ⊢
    exact hm.of_prefix (List.take_prefix_take_left hnm)
  have hempty : fitsLength py target text 0 := by
    rw [fitsLength_iff, List.take_zero]
    exact countsWithin_nil py htarget
  obtain ⟨hfits, -, hlongest⟩ := searchLength_spec hmono (Nat.le_add_left _ _) hempty
    (Nat.zero_le _) (le_refl text.length) fun n hn hle => absurd hle (by omega)
  have hreach := prefix_extend_iff (CountsWithin py target) (countsWithin_nil py htarget) text
  rw [fitsLength_iff, ← within_countsWithin_iff] at hfits
  have hle := (hreach _).2 ⟨List.take_prefix _ _, hfits⟩
  obtain ⟨hstarts, hwithin⟩ := (hreach _).1 (List.prefix_refl _)
  have htake := List.prefix_iff_eq_take.1 hstarts
  have hlength := hlongest _ hstarts.length_le (by
    rw [fitsLength_iff, ← htake, ← within_countsWithin_iff]
    exact hwithin)
  have hge := List.take_prefix_take_left (l := text) hlength
  rw [← htake] at hge
  exact hle.eq_of_length (le_antisymm hle.length_le hge.length_le)

/-! ### The last blank -/

/-- A blank or newline, at which the package truncates. -/
def isBreak (c : Char) : Bool := c == ' ' || c == '\n'

theorem lastBoundary_eq_none {p : List Char} (h : ∀ c ∈ p, isBreak c = false) :
    lastBoundary p = none := by
  have hnone : p.reverse.findIdx? (fun c => c == ' ' || c == '\n') = none :=
    List.findIdx?_eq_none_iff.2 fun c hc => h c (List.mem_reverse.1 hc)
  rw [lastBoundary, hnone]

theorem lastBoundary_append {before after : List Char} {c : Char} (hc : isBreak c = true)
    (hafter : ∀ d ∈ after, isBreak d = false) :
    lastBoundary (before ++ c :: after) = some before.length := by
  have hback : (before ++ c :: after).reverse.findIdx? (fun c => c == ' ' || c == '\n') =
      some after.length := by
    have hnone : after.reverse.findIdx? (fun c => c == ' ' || c == '\n') = none :=
      List.findIdx?_eq_none_iff.2 fun d hd => hafter d (List.mem_reverse.1 hd)
    rw [List.reverse_append, List.reverse_cons, List.append_assoc, List.findIdx?_append, hnone,
      List.singleton_append, List.findIdx?_cons, if_pos (by exact hc)]
    simp
  rw [lastBoundary, hback]
  simp only [List.length_append, List.length_cons, Option.some.injEq]
  omega

/-- A text without breaks, or split at its last one. -/
theorem exists_last_break (p : List Char) : (∀ c ∈ p, isBreak c = false) ∨
    ∃ before c after, p = before ++ c :: after ∧ isBreak c = true ∧
      ∀ d ∈ after, isBreak d = false := by
  induction p with
  | nil => exact .inl (by simp)
  | cons c p ih =>
      rcases ih with hnone | ⟨before, d, after, rfl, hd, hafter⟩
      · cases hc : isBreak c with
        | true => exact .inr ⟨[], c, p, rfl, hc, hnone⟩
        | false => exact .inl (by simpa [hc] using hnone)
      · exact .inr ⟨c :: before, d, after, rfl, hd, hafter⟩

/-- What the package keeps of the longest prefix: all of it, when no break lies beyond its middle;
else what is before its last break. -/
def KeptOf (p kept : List Char) : Prop :=
  (kept = p ∧ ∀ before c after, p = before ++ c :: after → isBreak c = true →
      (∀ d ∈ after, isBreak d = false) → before.length ≤ p.length / 2) ∨
    ∃ c after, p = kept ++ c :: after ∧ isBreak c = true ∧ (∀ d ∈ after, isBreak d = false) ∧
      p.length / 2 < kept.length

theorem backOff_eq_iff {p kept : List Char} : kept = Keep.head.backOff p ↔ KeptOf p kept := by
  rcases exists_last_break p with hnone | ⟨before, c, after, rfl, hc, hafter⟩
  · rw [Keep.backOff, lastBoundary_eq_none hnone]
    constructor
    · rintro rfl
      refine .inl ⟨rfl, ?_⟩
      rintro before c after rfl hc -
      rw [hnone c (by simp)] at hc
      cases hc
    · rintro (⟨rfl, -⟩ | ⟨c, after, rfl, hc, -⟩)
      · rfl
      · rw [hnone c (by simp)] at hc
        cases hc
  · have hlast : lastBoundary (before ++ c :: after) = some before.length :=
      lastBoundary_append hc hafter
    -- the last break is at one place only
    have hplace {kept : List Char} {d : Char} {rest : List Char}
        (heq : before ++ c :: after = kept ++ d :: rest) (hd : isBreak d = true)
        (hrest : ∀ e ∈ rest, isBreak e = false) : before.length = kept.length := by
      rw [heq, lastBoundary_append hd hrest] at hlast
      exact (Option.some.inj hlast).symm
    rw [Keep.backOff, hlast]
    dsimp only
    split
    · rename_i hlate
      rw [List.take_left]
      constructor
      · rintro rfl
        exact .inr ⟨c, after, rfl, hc, hafter, hlate⟩
      · rintro (⟨-, hearly⟩ | ⟨d, rest, heq, hd, hrest, -⟩)
        · exact absurd (hearly before c after rfl hc hafter) (by omega)
        · exact (List.append_inj_left heq (hplace heq hd hrest)).symm
    · rename_i hearly
      constructor
      · rintro rfl
        refine .inl ⟨rfl, ?_⟩
        intro before' d rest heq hd hrest
        rw [← hplace heq hd hrest]
        omega
      · rintro (⟨rfl, -⟩ | ⟨d, rest, heq, hd, hrest, hlate⟩)
        · rfl
        · rw [← hplace heq hd hrest] at hlate
          exact absurd hlate hearly

/-- What the package truncates a text to. -/
theorem boundaryTruncate_eq {target : ℤ} (htarget : 0 < target) (text : List Char) :
    boundaryTruncate py .head target text =
      if extend (CountsWithin py target) [] text = text then text
      else Keep.head.backOff (extend (CountsWithin py target) [] text) := by
  have hall : extend (CountsWithin py target) [] text = text ↔
      (countMatches py text : ℤ) ≤ target :=
    (extend_eq_self_iff (countsWithin_nil py htarget.le)).trans (within_countsWithin_iff py)
  rw [boundaryTruncate, truncateTextToTokens, if_neg (not_le.2 htarget)]
  simp only [hall]
  rw [← take_searchLength py htarget.le]
  rfl

end Host

/-! ### The kernel -/

/-- Counting in a call with the regular-expression estimator, whose multiplier is one. -/
def regexCounts : CountContext ℚ where
  tokenizerId := "regex-estimator-v1"
  external := none
  safetyMultiplier := 1

section Kernel

variable (P : Platform)

/-- What the kernel counts is within a target. -/
def CountsWithin (target : ℤ) (text : List Char) : Prop :=
  countText P (String.ofList text) ≤ target

instance instDecidableCountsWithin (target : ℤ) : DecidablePred (CountsWithin P target) :=
  fun _ => inferInstanceAs (Decidable (_ ≤ _))

theorem countText_eq_norm (text : List Char) :
    countText P (String.ofList text) =
      P.arith.norm (WordScan.starts P.isWord isWhitespace false text : ℕ) := by
  have hpass := countTextLoop_eq P text false 0
  rw [Arith.norm_of_fits P.arith.fits_zero, zero_add] at hpass
  rw [countText, String.toList_ofList, hpass]

/-- White space counts nothing. -/
theorem CountsWithin.concat {target : ℤ} {text : List Char} {c : Char}
    (h : CountsWithin P target text) (hc : isWhitespace c = true) :
    CountsWithin P target (text ++ [c]) := by
  rw [CountsWithin, countText_eq_norm, WordScan.starts_append_space P.isWord isWhitespace
    P.isWord_not_whitespace hc, ← countText_eq_norm]
  exact h

theorem countsWithin_nil {target : ℤ} (htarget : 0 ≤ target) : CountsWithin P target [] := htarget

theorem regexCounts_countText {target : ℤ} (htarget : 0 ≤ target) (text : String) :
    (regexCounts.countText P text).val ≤ target ↔ countText P text ≤ target := by
  have hraw : regexCounts.raw P text = countText P text := rfl
  have hfits : P.arith.Fits (countText P text) := by
    rw [← String.ofList_toList (s := text), countText_eq_norm]
    exact P.arith.fits_norm _
  rw [CountContext.countText, hraw]
  split
  · exact iff_of_true htarget (by omega)
  · simp only [regexCounts, Option.isSome_none, Bool.false_eq_true, if_false, FloatOps.ofInt_rat,
      FloatOps.mul_rat, mul_one, FloatOps.toInt_ceil_rat, Int.ceil_intCast,
      Arith.saturate_of_fits hfits]

/-- What the kernel truncates a text to. -/
theorem truncate_eq {target : ℤ} (htarget : 0 < target) (text : List Char) :
    (truncate P regexCounts target (String.ofList text)).val =
      String.ofList ((extend (CountsWithin P target) [] text).rdropWhile isWhitespace) := by
  have hsame := extend_congr
    (fun l => regexCounts_countText P htarget.le (String.ofList l)) [] text
  rw [truncate, if_neg (by decide), truncateByCount_val P target htarget, trimEnd,
    String.toList_ofList, String.toList_ofList, hsame]
  rfl

end Kernel

/-! ### The two passes -/

/-- A text does not end in white space. -/
def EndsSolid (text : List Char) : Prop := ∀ c ∈ text.getLast?, isWhitespace c = false

section Places

variable (P : Platform) (py : PythonStrings) (target : ℤ) (text : List Char)

/-- Both counts pass the target at one character of the text.  No white space comes right before it,
and no blank or newline lies beyond the middle of what precedes it. -/
def PassedTogether : Prop :=
  ∃ before rest, text = before ++ rest ∧ EndsSolid before ∧
    (∀ head c tail, before = head ++ c :: tail → Host.isBreak c = true →
      (∀ d ∈ tail, Host.isBreak d = false) → head.length ≤ before.length / 2) ∧
    Tips (CountsWithin P target) before rest ∧ Tips (Host.CountsWithin py target) before rest

/-- The count of the kernel passes the target right after a gap of white space, which begins with a
blank or newline; the count of the package passes it there or later, after no other blank or
newline; and the gap begins beyond the middle of what precedes that place. -/
def PassedAfterGap : Prop :=
  ∃ before c gap more rest, text = before ++ c :: (gap ++ (more ++ rest)) ∧ EndsSolid before ∧
    Host.isBreak c = true ∧ (∀ d ∈ gap, isWhitespace d = true) ∧
    (∀ d ∈ gap ++ more, Host.isBreak d = false) ∧
    (before ++ c :: (gap ++ more)).length / 2 < before.length ∧
    Tips (CountsWithin P target) (before ++ c :: gap) (more ++ rest) ∧
    Tips (Host.CountsWithin py target) (before ++ c :: (gap ++ more)) rest

/-- The texts and targets on which the two passes agree. -/
def SameCut : Prop :=
  target ≤ 0 ∨
    (EndsSolid text ∧ Within (CountsWithin P target) text ∧ Host.CountsWithin py target text) ∨
    PassedTogether P py target text ∨ PassedAfterGap P py target text

end Places

section Agree

variable {P : Platform} {py : PythonStrings} {target : ℤ} {text : List Char}

theorem endsSolid_iff {l : List Char} : EndsSolid l ↔ l.rdropWhile isWhitespace = l := by
  rw [List.rdropWhile_eq_self_iff, EndsSolid]
  constructor
  · intro h hne hwhite
    rw [h _ (List.getLast?_eq_some_getLast hne)] at hwhite
    cases hwhite
  · intro h c hc
    have hne : l ≠ [] := by
      rintro rfl
      cases hc
    rw [List.getLast?_eq_some_getLast hne, Option.mem_some_iff] at hc
    rw [← hc]
    exact Bool.eq_false_iff.2 (h hne)

theorem endsSolid_trimmed (l : List Char) : EndsSolid (l.rdropWhile isWhitespace) :=
  endsSolid_iff.2 (List.rdropWhile_idempotent _ l)

/-- White space after a text is trimmed. -/
theorem EndsSolid.trim_append {l : List Char} (h : EndsSolid l) {gap : List Char}
    (hgap : ∀ c ∈ gap, isWhitespace c = true) : (l ++ gap).rdropWhile isWhitespace = l := by
  induction gap using List.reverseRecOn with
  | nil => rw [List.append_nil, endsSolid_iff.1 h]
  | append_singleton gap c ih =>
      rw [← List.append_assoc, List.rdropWhile_concat_pos _ _ _ (hgap c (by simp))]
      exact ih fun d hd => hgap d (List.mem_append_left _ hd)

theorem isWhitespace_of_isBreak {c : Char} (h : Host.isBreak c = true) :
    isWhitespace c = true := by
  rw [Host.isBreak, Bool.or_eq_true, beq_iff_eq, beq_iff_eq] at h
  rcases h with rfl | rfl <;> decide

/-- If white space counts nothing, no white space passes the target. -/
theorem head_solid {ok : List Char → Prop} {before rest : List Char} (h : Tips ok before rest)
    (hwhite : ∀ l c, ok l → isWhitespace c = true → ok (l ++ [c])) :
    ∀ c ∈ rest.head?, isWhitespace c = false := by
  obtain ⟨a, after, rfl, hnot⟩ := h.exceeds
  rintro c ⟨⟩
  by_contra hc
  exact hnot (hwhite _ _ (h.within _ (List.prefix_refl _)) (Bool.not_eq_false _ ▸ hc))

/-- If the kernel keeps what the package keeps of a text that is not within the target, then both
counts pass the target at one character, or the kernel's does after a gap. -/
theorem passed_of_keptOf (htarget : 0 ≤ target)
    (hne : extend (Host.CountsWithin py target) [] text ≠ text)
    (h : Host.KeptOf (extend (Host.CountsWithin py target) [] text)
      ((extend (CountsWithin P target) [] text).rdropWhile isWhitespace)) :
    PassedTogether P py target text ∨ PassedAfterGap P py target text := by
  obtain ⟨rest, hsplit, htips⟩ := tips_extend (Host.countsWithin_nil py htarget) hne
  have hsolid := head_solid htips fun _ _ => Host.CountsWithin.concat py
  have hreach := extend_prefix (CountsWithin P target) [] text
  have hlast := fun hpass : extend (CountsWithin P target) [] text ≠ text =>
    tips_extend (countsWithin_nil P htarget) hpass
  have hkept := endsSolid_trimmed (extend (CountsWithin P target) [] text)
  have hpad := @List.rdropWhile_append_rtakeWhile _ isWhitespace
    (extend (CountsWithin P target) [] text)
  have hgap : ∀ c ∈ (extend (CountsWithin P target) [] text).rtakeWhile isWhitespace,
      isWhitespace c = true := fun c hc => List.mem_rtakeWhile_imp hc
  generalize (extend (CountsWithin P target) [] text).rtakeWhile isWhitespace = gap at hpad hgap
  generalize (extend (CountsWithin P target) [] text).rdropWhile isWhitespace = kept
    at h hkept hpad
  generalize extend (CountsWithin P target) [] text = reached at hreach hlast hpad
  generalize extend (Host.CountsWithin py target) [] text = p at h hne hsplit htips
  subst hpad
  rw [List.nil_append] at hreach
  -- what the kernel passes beyond the package's prefix is not white space
  have hshort : ∀ d more, p ++ d :: more <+: text → isWhitespace d = false := by
    intro d more hlonger
    rw [hsplit, List.prefix_append_right_inj] at hlonger
    obtain ⟨after, rfl⟩ := hlonger
    exact hsolid d rfl
  rcases h with ⟨rfl, hearly⟩ | ⟨c, after, rfl, hbreak, hafter, hlate⟩
  · cases gap with
    | nil =>
        rw [List.append_nil] at hlast
        obtain ⟨rest', hsplit', htips'⟩ := hlast hne
        obtain rfl := List.append_cancel_left (hsplit.symm.trans hsplit')
        exact Or.inl ⟨kept, rest, hsplit, hkept, hearly, htips', htips⟩
    | cons d gap =>
        have hwhite := hgap d (List.mem_cons_self ..)
        rw [hshort d gap hreach] at hwhite
        cases hwhite
  · right
    -- the kernel passes the target no later than the package
    have hgapAfter : gap <+: c :: after := by
      rcases List.prefix_or_prefix_of_prefix hreach ⟨rest, hsplit.symm⟩ with hle | hge
      · exact (List.prefix_append_right_inj kept).1 hle
      · rw [List.prefix_append_right_inj] at hge
        obtain ⟨more, rfl⟩ := hge
        cases more with
        | nil => rw [List.append_nil]
        | cons d more =>
            have hwhite := hgap d (by simp)
            rw [hshort d more (by simpa using hreach)] at hwhite
            cases hwhite
    obtain ⟨rest', hsplit', htips'⟩ := hlast (by
      intro heq
      refine hne (List.IsPrefix.eq_of_length ⟨rest, hsplit.symm⟩ (le_antisymm ?_ ?_))
      · rw [hsplit]
        simp
      · rw [← heq]
        simpa using hgapAfter.length_le)
    have hsolid' := head_solid htips' fun _ _ => CountsWithin.concat P
    cases gap with
    | nil =>
        -- a break does not pass the target
        rw [List.append_nil] at hsplit'
        have hrest : rest' = c :: (after ++ rest) := by
          have heq := hsplit'.symm.trans hsplit
          simpa using heq
        have hwhite := isWhitespace_of_isBreak hbreak
        rw [hsolid' c (by rw [hrest]; rfl)] at hwhite
        cases hwhite
    | cons d gap =>
        rw [List.cons_prefix_cons] at hgapAfter
        obtain ⟨rfl, more, rfl⟩ := hgapAfter
        have hall : text = kept ++ d :: (gap ++ (more ++ rest)) := by rw [hsplit]; simp
        have hrest : rest' = more ++ rest := by
          have heq := hsplit'.symm.trans hall
          simpa using heq
        exact ⟨kept, d, gap, more, rest, hall, hkept, hbreak,
          fun e he => hgap e (List.mem_cons_of_mem _ he), hafter, hlate, hrest ▸ htips', htips⟩

/-- Then the kernel keeps what the package keeps. -/
theorem keptOf_of_passed (htarget : 0 ≤ target)
    (h : PassedTogether P py target text ∨ PassedAfterGap P py target text) :
    extend (Host.CountsWithin py target) [] text ≠ text ∧
      Host.KeptOf (extend (Host.CountsWithin py target) [] text)
        ((extend (CountsWithin P target) [] text).rdropWhile isWhitespace) := by
  have hkernel := countsWithin_nil P htarget
  have hpackage := Host.countsWithin_nil py htarget
  rcases h with ⟨before, rest, rfl, hsolid, hearly, hpass, hpass'⟩ |
    ⟨before, c, gap, more, rest, rfl, hsolid, hbreak, hgap, hmore, hlate, hpass, hpass'⟩
  · rw [extend_eq_of_tips hkernel hpass, extend_eq_of_tips hpackage hpass', endsSolid_iff.1 hsolid]
    exact ⟨hpass'.ne_append, Or.inl ⟨rfl, hearly⟩⟩
  · have hreached : extend (CountsWithin P target) [] (before ++ c :: (gap ++ (more ++ rest))) =
        before ++ c :: gap := by
      rw [← extend_eq_of_tips hkernel hpass]
      simp
    have hprefix : extend (Host.CountsWithin py target) []
        (before ++ c :: (gap ++ (more ++ rest))) = before ++ c :: (gap ++ more) := by
      rw [← extend_eq_of_tips hpackage hpass']
      simp
    have htrim : (before ++ c :: gap).rdropWhile isWhitespace = before :=
      hsolid.trim_append (List.forall_mem_cons.2 ⟨isWhitespace_of_isBreak hbreak, hgap⟩)
    rw [hreached, hprefix, htrim]
    refine ⟨?_, Or.inr ⟨c, gap ++ more, rfl, hbreak, hmore, hlate⟩⟩
    have hne := hpass'.ne_append
    rwa [show (before ++ c :: (gap ++ more)) ++ rest = before ++ c :: (gap ++ (more ++ rest)) by
      simp] at hne

/-- The kernel and the package truncate a text to the same exactly on `SameCut`. -/
theorem truncations_agree_iff (P : Platform) (py : PythonStrings) (target : ℤ) (text : List Char) :
    (truncate P regexCounts target (String.ofList text)).val =
        String.ofList (Host.boundaryTruncate py .head target text) ↔
      SameCut P py target text := by
  by_cases htarget : target ≤ 0
  · refine iff_of_true ?_ (.inl htarget)
    rw [truncate, if_neg (by decide), truncateByCount, if_pos htarget, Host.boundaryTruncate,
      Host.truncateTextToTokens, if_pos htarget]
    rfl
  · have hpos := not_le.1 htarget
    have hkernel := countsWithin_nil P hpos.le
    have hall := (extend_eq_self_iff (Host.countsWithin_nil py hpos.le) (l := text)).trans
      (Host.within_countsWithin_iff py)
    rw [truncate_eq P hpos, Host.boundaryTruncate_eq py hpos, String.ofList_inj, SameCut,
      or_iff_right htarget]
    by_cases hfits : extend (Host.CountsWithin py target) [] text = text
    · -- the package keeps the text
      rw [if_pos hfits]
      constructor
      · intro heq
        have hreach : extend (CountsWithin P target) [] text = text := by
          have hstarts := extend_prefix (CountsWithin P target) [] text
          rw [List.nil_append] at hstarts
          have hle := (List.rdropWhile_prefix isWhitespace
            (extend (CountsWithin P target) [] text)).length_le
          rw [heq] at hle
          exact hstarts.eq_of_length (le_antisymm hstarts.length_le hle)
        rw [hreach] at heq
        exact Or.inl ⟨endsSolid_iff.2 heq, (extend_eq_self_iff hkernel).1 hreach, hall.1 hfits⟩
      · rintro (⟨hsolid, hwithin, -⟩ | hpassed)
        · rw [(extend_eq_self_iff hkernel).2 hwithin, endsSolid_iff.1 hsolid]
        · exact absurd hfits (keptOf_of_passed hpos.le hpassed).1
    · rw [if_neg hfits, Host.backOff_eq_iff]
      constructor
      · exact fun hkept => Or.inr (passed_of_keptOf hpos.le hfits hkept)
      · rintro (⟨-, -, hwithin⟩ | hpassed)
        · exact absurd (hall.2 hwithin) hfits
        · exact (keptOf_of_passed hpos.le hpassed).2

end Agree

end ContextLease
