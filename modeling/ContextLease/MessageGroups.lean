/-
Selecting groups of messages.

The package's algorithm for conversations keeps or drops the messages of a tool round together.  It
takes the groups with a system message first, then the other groups from the newest to the oldest as
long as they fit, and returns what it has taken group by group.  It looks for a group among those
taken with an equality test, so a group that repeats another one is dropped.

Main definitions:

* `PythonMessages` — what the algorithm does with messages;
* `Host.messageGroupSelect` — the algorithm, with `Host.groupKey`, `Host.Grouping` and
  `Host.selectGroups`;
* `SelectionContract` — order, atomicity and budget of a selection;
* `WholeSelectable` — the conversations that the algorithm can return whole.

Main results:

* `grouping_groups` — the loop builds the groups of the keys;
* `selectGroups_eq_append_iff` — when the loop takes all groups;
* `group_selection_iff` — which conversations are selected from as they should be, for all targets.
-/

import ContextLease.Grouped
import ContextLease.Validate

set_option relaxedAutoImplicit false
set_option autoImplicit false

namespace ContextLease

/-- What Python does with the dictionaries of a conversation and with their values.  Messages are
objects: two of them may be equal without being the same. -/
structure PythonMessages (M V : Type) where
  /-- `message.get(key)`, which is None for a missing key. -/
  get : M → String → V
  /-- `bool(value)`. -/
  truthy : V → Bool
  /-- `str(value)`. -/
  str : V → String
  /-- `value == text`. -/
  isText : V → String → Bool
  /-- `message is other or message == other`. -/
  same : M → M → Bool
  same_refl : ∀ message, same message message = true

namespace Host

variable {M V : Type} (py : PythonMessages M V)

/-! ### Groups -/

/-- The key of a message. -/
def groupKey (index : ℕ) (message : M) : String :=
  let dependencyGroup := py.get message "dependency_group"
  let toolCallId := py.get message "tool_call_id"
  let id := py.get message "id"
  if py.truthy dependencyGroup then py.str dependencyGroup
  else if py.truthy toolCallId then py.str toolCallId
  else if py.truthy id then py.str id
  else "message:" ++ toString index

/-- The source's `groups` and `group_index`. -/
structure Grouping (M : Type) where
  groups : List (List M)
  groupIndex : HashMap ℕ

/-- One step of the loop over the messages. -/
def Grouping.add (g : Grouping M) (key : String) (message : M) : Grouping M :=
  let g := match g.groupIndex key with
    | some _ => g
    | none => ⟨g.groups ++ [[]], g.groupIndex.insert key g.groups.length⟩
  { g with groups := g.groups.modify ((g.groupIndex key).getD 0) (· ++ [message]) }

/-- The loop over the messages; each comes with its key. -/
def groupMessages (keyed : List (String × M)) : Grouping M :=
  keyed.foldl (fun g e => g.add e.1 e.2) ⟨[], HashMap.empty⟩

/-- The messages of a conversation, each with its key. -/
def keyedMessages (messages : List M) : List (String × M) :=
  messages.zipIdx.map fun p => (groupKey py p.2 p.1, p.1)

/-! ### Selection -/

/-- A group with a system message. -/
def isPinned (group : List M) : Bool :=
  group.any fun item => py.isText (py.get item "role") "system"

/-- `group is other or group == other`: an equal list has the same length and equal items. -/
def sameGroup (group other : List M) : Bool :=
  group.length == other.length && (group.zip other).all fun p => py.same p.1 p.2

section Select

variable (count : List M → ℤ) (target : ℤ)

/-- The loop over the groups; each comes with its place, which stands for its identity. -/
def selectGroups : List (List M × ℕ) → List (List M × ℕ) → List (List M × ℕ)
  | [], selected => selected
  | group :: rest, selected =>
      if selected.any fun other => sameGroup py other.1 group.1 then selectGroups rest selected
      else if count ((selected ++ [group]).flatMap Prod.fst) ≤ target || selected.isEmpty then
        selectGroups rest (selected ++ [group])
      else selectGroups rest selected

/-- The source's `selected` after the loop. -/
def selectedGroups (groups : List (List M × ℕ)) : List (List M × ℕ) :=
  selectGroups py count target groups.reverse (groups.filter fun group => isPinned py group.1)

/-- The source's `_message_group_select` on a list of dictionaries: the messages that are kept, the
groups that are removed, and the number of groups. -/
def messageGroupSelect (messages : List M) : List M × List (List M) × ℕ :=
  let groups := (groupMessages (keyedMessages py messages)).groups.zipIdx
  let selectedIds := (selectedGroups py count target groups).map Prod.snd
  let keptGroups := groups.filter fun group => selectedIds.contains group.2
  let removedGroups := groups.filter fun group => !selectedIds.contains group.2
  (keptGroups.flatMap Prod.fst, removedGroups.map Prod.fst, groups.length)

end Select

end Host

open Host

variable {M V : Type}

/-! ### The groups of a conversation -/

/-- A grouping has the groups of the entries, and their places. -/
structure Host.Grouping.Represents (g : Grouping M) (keyed : List (String × M)) : Prop where
  groups : g.groups = Grouped.groups keyed
  groupIndex : ∀ k, g.groupIndex k =
    if k ∈ Grouped.keys keyed then some ((Grouped.keys keyed).idxOf k) else none

theorem Host.Grouping.Represents.add {g : Grouping M} {keyed : List (String × M)}
    (h : g.Represents keyed) (k : String) (message : M) :
    (g.add k message).Represents (keyed ++ [(k, message)]) := by
  have hlength : (Grouped.groups keyed).length = (Grouped.keys keyed).length :=
    List.length_map _
  by_cases hk : k ∈ Grouped.keys keyed
  · have hindex := h.groupIndex k
    rw [if_pos hk] at hindex
    simp only [Grouping.add, hindex, Option.getD_some]
    refine ⟨?_, fun k' => ?_⟩
    · rw [Grouped.groups_concat, if_pos hk, h.groups]
    · rw [Grouped.keys_concat, if_pos hk, h.groupIndex]
  · have hindex := h.groupIndex k
    rw [if_neg hk] at hindex
    simp only [Grouping.add, hindex, HashMap.insert_self, Option.getD_some]
    refine ⟨?_, fun k' => ?_⟩
    · rw [Grouped.groups_concat, if_neg hk, h.groups, Grouped.modify_length, List.nil_append]
    · rw [Grouped.keys_concat, if_neg hk]
      change g.groupIndex.insert k g.groups.length k' = _
      by_cases hkey : k' = k
      · subst hkey
        rw [HashMap.insert_self, if_pos (by simp), List.idxOf_append_of_notMem hk,
          List.idxOf_cons_self, h.groups, hlength]
        simp
      · rw [HashMap.insert_of_ne _ _ hkey, h.groupIndex]
        by_cases hmem : k' ∈ Grouped.keys keyed
        · rw [if_pos hmem, if_pos (List.mem_append_left _ hmem),
            List.idxOf_append_of_mem hmem]
        · rw [if_neg hmem, if_neg (by simp [hmem, hkey])]

/-- The loop builds the groups of the keys. -/
theorem groupMessages_groups (keyed : List (String × M)) :
    (groupMessages keyed).groups = Grouped.groups keyed := by
  have hloop : (groupMessages keyed).Represents keyed := by
    rw [groupMessages]
    induction keyed using List.reverseRecOn with
    | nil => exact ⟨rfl, fun k => rfl⟩
    | append_singleton keyed e ih =>
        rw [List.foldl_append, List.foldl_cons, List.foldl_nil]
        exact ih.add e.1 e.2
  exact hloop.groups

section Selection

variable {V : Type} (py : PythonMessages M V) (count : List M → ℤ) (target : ℤ)

/-! ### The groups that are taken -/

/-- A group is taken after others: it repeats none of them, and with them it fits, or there are
none. -/
def Takes (selected : List (List M)) (group : List M) : Prop :=
  (∀ other ∈ selected, sameGroup py other group = false) ∧
    (count (selected ++ [group]).flatten ≤ target ∨ selected = [])

/-- All groups of a list are taken one after the other. -/
def TakesAll (selected groups : List (List M)) : Prop :=
  ∀ newer group older, groups = newer ++ group :: older →
    Takes py count target (selected ++ newer) group

variable {py count target}

theorem takesAll_cons {selected rest : List (List M)} {group : List M} :
    TakesAll py count target selected (group :: rest) ↔
      Takes py count target selected group ∧
        TakesAll py count target (selected ++ [group]) rest := by
  constructor
  · intro h
    refine ⟨?_, fun newer other older heq => ?_⟩
    · have hfirst := h [] group rest rfl
      rwa [List.append_nil] at hfirst
    · have hlater := h (group :: newer) other older (by rw [heq, List.cons_append])
      rwa [List.append_cons] at hlater
  · rintro ⟨hfirst, hrest⟩ newer other older heq
    cases newer with
    | nil =>
        obtain ⟨rfl, -⟩ := List.cons.inj heq
        rwa [List.append_nil]
    | cons first newer =>
        obtain ⟨rfl, hlater⟩ := List.cons.inj heq
        rw [List.append_cons]
        exact hrest newer other older hlater

theorem selectGroups_of_takes {group : List M × ℕ} {selected : List (List M × ℕ)}
    (h : Takes py count target (selected.map Prod.fst) group.1) (rest : List (List M × ℕ)) :
    selectGroups py count target (group :: rest) selected =
      selectGroups py count target rest (selected ++ [group]) := by
  obtain ⟨hnew, hfits⟩ := h
  rw [selectGroups, if_neg, if_pos]
  · rw [Bool.or_eq_true, decide_eq_true_iff, List.isEmpty_iff]
    refine hfits.imp (fun hle => ?_) List.map_eq_nil_iff.1
    rwa [List.flatMap_def, List.map_append]
  · rw [List.any_eq_true]
    rintro ⟨other, hother, hsame⟩
    rw [hnew other.1 (List.mem_map_of_mem hother)] at hsame
    cases hsame

theorem selectGroups_of_not_takes {group : List M × ℕ} {selected : List (List M × ℕ)}
    (h : ¬ Takes py count target (selected.map Prod.fst) group.1) (rest : List (List M × ℕ)) :
    selectGroups py count target (group :: rest) selected =
      selectGroups py count target rest selected := by
  rw [selectGroups]
  split
  · rfl
  · rename_i hnew
    rw [if_neg]
    rw [Bool.or_eq_true, decide_eq_true_iff, List.isEmpty_iff]
    intro hfits
    refine h ⟨?_, hfits.imp (fun hle => ?_) fun hnil => by rw [hnil, List.map_nil]⟩
    · intro other hother
      obtain ⟨other, hmem, rfl⟩ := List.mem_map.1 hother
      rw [← Bool.not_eq_true]
      exact fun hsame => hnew (List.any_eq_true.2 ⟨other, hmem, hsame⟩)
    · rwa [List.flatMap_def, List.map_append] at hle

variable (py count target)

/-- The loop takes some of the groups it is given, in their order. -/
theorem exists_selectGroups (groups selected : List (List M × ℕ)) :
    ∃ taken, selectGroups py count target groups selected = selected ++ taken ∧
      taken.Sublist groups := by
  induction groups generalizing selected with
  | nil => exact ⟨[], (List.append_nil _).symm, List.Sublist.refl _⟩
  | cons group rest ih =>
      by_cases h : Takes py count target (selected.map Prod.fst) group.1
      · obtain ⟨taken, htaken, hsublist⟩ := ih (selected ++ [group])
        refine ⟨group :: taken, ?_, hsublist.cons_cons group⟩
        rw [selectGroups_of_takes h, htaken, List.append_assoc, List.singleton_append]
      · obtain ⟨taken, htaken, hsublist⟩ := ih selected
        exact ⟨taken, (selectGroups_of_not_takes h rest).trans htaken, hsublist.cons group⟩

/-- When the loop takes all groups. -/
theorem selectGroups_eq_append_iff (groups selected : List (List M × ℕ)) :
    selectGroups py count target groups selected = selected ++ groups ↔
      TakesAll py count target (selected.map Prod.fst) (groups.map Prod.fst) := by
  induction groups generalizing selected with
  | nil =>
      rw [List.append_nil]
      refine iff_of_true rfl ?_
      intro newer group older heq
      cases newer <;> cases heq
  | cons group rest ih =>
      rw [List.map_cons, takesAll_cons]
      by_cases h : Takes py count target (selected.map Prod.fst) group.1
      · have hrest := ih (selected ++ [group])
        rw [List.append_assoc, List.singleton_append, List.map_append, List.map_singleton] at hrest
        rw [selectGroups_of_takes h, hrest]
        exact (and_iff_right h).symm
      · -- a group that is left out is not made up for
        refine iff_of_false ?_ fun hall => h hall.1
        obtain ⟨taken, htaken, hsublist⟩ := exists_selectGroups py count target rest selected
        rw [selectGroups_of_not_takes h, htaken]
        intro heq
        have hlength := hsublist.length_le
        rw [List.append_cancel_left heq, List.length_cons] at hlength
        omega

omit count target in
/-- A group is the same as itself. -/
theorem sameGroup_self (group : List M) : sameGroup py group group = true := by
  have hitems : ((group.zip group).all fun p => py.same p.1 p.2) = true := by
    induction group with
    | nil => rfl
    | cons item group ih => rw [List.zip_cons_cons, List.all_cons, py.same_refl, ih, Bool.and_self]
  rw [sameGroup, hitems, beq_self_eq_true, Bool.and_self]

/-- The loop passes over the groups that are taken already. -/
theorem selectGroups_filter {pinned : List M × ℕ → Bool} (groups selected : List (List M × ℕ))
    (h : ∀ group ∈ groups, pinned group = true → group ∈ selected) :
    selectGroups py count target groups selected =
      selectGroups py count target (groups.filter fun group => !pinned group) selected := by
  induction groups generalizing selected with
  | nil => rfl
  | cons group rest ih =>
      have hrest : ∀ other ∈ rest, pinned other = true → other ∈ selected :=
        fun other hother => h other (List.mem_cons_of_mem _ hother)
      have hgrown : ∀ other ∈ rest, pinned other = true → other ∈ selected ++ [group] :=
        fun other hother hpinned => List.mem_append_left _ (hrest other hother hpinned)
      cases hpinned : pinned group with
      | true =>
          have hmem := h group (List.mem_cons_self ..) hpinned
          rw [selectGroups, if_pos (List.any_eq_true.2 ⟨group, hmem, sameGroup_self py group.1⟩),
            List.filter_cons_of_neg (by simp [hpinned])]
          exact ih selected hrest
      | false =>
          rw [List.filter_cons_of_pos (by simp [hpinned])]
          by_cases htakes : Takes py count target (selected.map Prod.fst) group.1
          · rw [selectGroups_of_takes htakes, selectGroups_of_takes htakes]
            exact ih _ hgrown
          · rw [selectGroups_of_not_takes htakes, selectGroups_of_not_takes htakes]
            exact ih _ hrest

/-! ### The groups that are kept -/

variable (messages : List M)

/-- The groups of a conversation. -/
def conversationGroups : List (List M) := Grouped.groups (keyedMessages py messages)

/-- The groups with a system message. -/
def systemGroups : List (List M) := (conversationGroups py messages).filter (isPinned py)

/-- The other groups, from the newest to the oldest. -/
def otherGroups : List (List M) :=
  (conversationGroups py messages).reverse.filter fun group => !isPinned py group

variable {py count target}

/-- The groups that are taken: those with a system message, and some of the others. -/
theorem exists_selectedGroups (groups : List (List M × ℕ)) :
    ∃ taken, selectedGroups py count target groups =
        (groups.filter fun group => isPinned py group.1) ++ taken ∧
      taken.Sublist (groups.reverse.filter fun group => !isPinned py group.1) ∧
      (taken = (groups.reverse.filter fun group => !isPinned py group.1) ↔
        TakesAll py count target ((groups.map Prod.fst).filter (isPinned py))
          ((groups.map Prod.fst).reverse.filter fun group => !isPinned py group)) := by
  have hpinned : ∀ group ∈ groups.reverse, isPinned py group.1 = true →
      group ∈ groups.filter fun group => isPinned py group.1 :=
    fun group hgroup h => List.mem_filter.2 ⟨List.mem_reverse.1 hgroup, h⟩
  rw [selectedGroups, selectGroups_filter py count target _ _ hpinned]
  obtain ⟨taken, htaken, hsublist⟩ := exists_selectGroups py count target
    (groups.reverse.filter fun group => !isPinned py group.1)
    (groups.filter fun group => isPinned py group.1)
  refine ⟨taken, htaken, hsublist, ?_⟩
  have hall := selectGroups_eq_append_iff py count target
    (groups.reverse.filter fun group => !isPinned py group.1)
    (groups.filter fun group => isPinned py group.1)
  rw [htaken, List.append_cancel_left_eq] at hall
  rw [hall, List.filter_map, ← List.map_reverse, List.filter_map]
  rfl

/-- All groups are kept exactly when all are taken. -/
theorem keptGroups_eq_self_iff {groups : List (List M × ℕ)} (hids : (groups.map Prod.snd).Nodup) :
    (groups.filter fun group => ((selectedGroups py count target groups).map Prod.snd).contains
        group.2) = groups ↔
      TakesAll py count target ((groups.map Prod.fst).filter (isPinned py))
        ((groups.map Prod.fst).reverse.filter fun group => !isPinned py group) := by
  obtain ⟨taken, htaken, hsublist, hall⟩ := @exists_selectedGroups M V py count target groups
  rw [← hall, List.filter_eq_self]
  simp only [List.contains_iff_mem]
  have hnodup := List.Nodup.of_map _ hids
  constructor
  · intro hkept
    -- identities differ, so each of the others is among those taken
    have hmem : ∀ group ∈ groups.reverse.filter fun group => !isPinned py group.1,
        group ∈ taken := by
      intro group hgroup
      obtain ⟨hgroups, hother⟩ := List.mem_filter.1 hgroup
      rw [List.mem_reverse] at hgroups
      obtain ⟨other, hselected, hid⟩ := List.mem_map.1 (hkept group hgroups)
      rw [htaken, List.mem_append] at hselected
      rcases hselected with hpinned | htook
      · obtain ⟨hmem, hpinned⟩ := List.mem_filter.1 hpinned
        obtain rfl := List.inj_on_of_nodup_map hids hmem hgroups hid
        rw [hpinned] at hother
        cases hother
      · have hmem := List.mem_reverse.1 (List.mem_filter.1 (hsublist.subset htook)).1
        obtain rfl := List.inj_on_of_nodup_map hids hmem hgroups hid
        exact htook
    have hothers : (groups.reverse.filter fun group => !isPinned py group.1).Nodup :=
      (List.nodup_reverse.2 hnodup).filter _
    exact hsublist.eq_of_length_le (List.subperm_of_subset hothers hmem).length_le
  · rintro rfl group hgroup
    refine List.mem_map_of_mem ?_
    rw [htaken, List.mem_append, List.mem_filter, List.mem_filter, List.mem_reverse]
    cases hpinned : isPinned py group.1 with
    | true => exact Or.inl ⟨hgroup, rfl⟩
    | false => exact Or.inr ⟨hgroup, rfl⟩

/-! ### The contract -/

variable (py count target) in
/-- A selection keeps the order of the messages, keeps or drops the messages of a key together,
keeps every group with a system message, and keeps everything if it fits. -/
structure SelectionContract (selection : List M) : Prop where
  order : selection.Sublist messages
  groups : ∃ kept : String → Bool,
    selection.Perm (Grouped.restrict kept (keyedMessages py messages)) ∧
      ∀ e ∈ keyedMessages py messages, py.isText (py.get e.2 "role") "system" = true →
        kept e.1 = true
  whole : count messages ≤ target → selection = messages

variable (py count) in
/-- A conversation that can be selected whole: written group by group it is itself, and when it
fits, the groups without a system message are taken from the newest to the oldest. -/
structure WholeSelectable : Prop where
  gathered : (conversationGroups py messages).flatten = messages
  taken : TakesAll py count (count messages) (systemGroups py messages) (otherGroups py messages)

variable {messages}

theorem map_snd_keyedMessages : (keyedMessages py messages).map Prod.snd = messages := by
  rw [keyedMessages, List.map_map]
  exact List.zipIdx_map_fst 0 messages

/-- The messages that are selected are those of the kept groups. -/
theorem messageGroupSelect_eq : (messageGroupSelect py count target messages).1 =
    ((conversationGroups py messages).zipIdx.filter fun group =>
      ((selectedGroups py count target (conversationGroups py messages).zipIdx).map
        Prod.snd).contains group.2).flatMap Prod.fst := by
  rw [conversationGroups, ← groupMessages_groups]
  rfl

/-- Every selection keeps or drops the messages of a key together, and keeps the groups with a
system message. -/
theorem selection_groups : ∃ kept : String → Bool,
    (messageGroupSelect py count target messages).1.Perm
        (Grouped.restrict kept (keyedMessages py messages)) ∧
      ∀ e ∈ keyedMessages py messages, py.isText (py.get e.2 "role") "system" = true →
        kept e.1 = true := by
  have hplaces : (conversationGroups py messages).zipIdx =
      (Grouped.keys (keyedMessages py messages)).map fun k =>
        (Grouped.group (keyedMessages py messages) k,
          (Grouped.keys (keyedMessages py messages)).idxOf k) := by
    rw [conversationGroups, Grouped.groups, List.zipIdx_map,
      Grouped.zipIdx_eq_map_idxOf (Grouped.nodup_keys _), List.map_map]
    rfl
  obtain ⟨taken, htaken, -⟩ :=
    @exists_selectedGroups M V py count target (conversationGroups py messages).zipIdx
  refine ⟨fun k => ((selectedGroups py count target (conversationGroups py messages).zipIdx).map
    Prod.snd).contains ((Grouped.keys (keyedMessages py messages)).idxOf k), ?_, ?_⟩
  · refine List.Perm.trans (List.Perm.of_eq ?_) (Grouped.flatMap_group_perm _ _)
    rw [messageGroupSelect_eq]
    generalize selectedGroups py count target (conversationGroups py messages).zipIdx = selected
    rw [hplaces, List.filter_map, List.flatMap_map]
    rfl
  · intro e he hsystem
    have hkey : e.1 ∈ Grouped.keys (keyedMessages py messages) := Grouped.mem_keys.2 ⟨e, he, rfl⟩
    have hpinned : isPinned py (Grouped.group (keyedMessages py messages) e.1) = true :=
      List.any_eq_true.2 ⟨e.2, List.mem_map_of_mem (List.mem_filter.2 ⟨he, by simp⟩), hsystem⟩
    rw [List.contains_iff_mem, htaken, List.map_append]
    refine List.mem_append_left _ (List.mem_map.2 ⟨(_, _), List.mem_filter.2 ⟨?_, hpinned⟩, rfl⟩)
    rw [hplaces]
    exact List.mem_map_of_mem hkey

/-- The messages are selected whole exactly when the conversation is gathered and all groups are
taken. -/
theorem selection_eq_self_iff : (messageGroupSelect py count target messages).1 = messages ↔
    (conversationGroups py messages).flatten = messages ∧
      TakesAll py count target (systemGroups py messages) (otherGroups py messages) := by
  have hids : ((conversationGroups py messages).zipIdx.map Prod.snd).Nodup := by
    rw [List.zipIdx_map_snd]
    exact List.nodup_range'
  have hkept := @keptGroups_eq_self_iff M V py count target _ hids
  rw [List.zipIdx_map_fst] at hkept
  have hflatten : (conversationGroups py messages).zipIdx.flatMap Prod.fst =
      (conversationGroups py messages).flatten := by
    rw [List.flatMap_def, List.zipIdx_map_fst]
  rw [messageGroupSelect_eq, systemGroups, otherGroups, ← hkept]
  constructor
  · intro hwhole
    -- the groups have as many messages as the conversation, so none is left out
    have hlength := (Grouped.flatten_groups_perm (keyedMessages py messages)).length_eq
    rw [map_snd_keyedMessages, ← conversationGroups, ← hflatten] at hlength
    have hne : ∀ group ∈ (conversationGroups py messages).zipIdx, group.1 ≠ [] :=
      fun group hgroup => Grouped.ne_nil_of_mem_groups (List.fst_mem_of_mem_zipIdx hgroup)
    have hall := Grouped.eq_of_flatMap_length List.filter_sublist hne
      (hlength.trans (congrArg List.length hwhole).symm).le
    rw [hall, hflatten] at hwhole
    exact ⟨hwhole, hall⟩
  · rintro ⟨hgathered, hall⟩
    rw [hall, hflatten, hgathered]

/-- The selections from a conversation meet their contract for all targets exactly when the
conversation can be selected whole. -/
theorem group_selection_iff (py : PythonMessages M V) (count : List M → ℤ) (messages : List M) :
    (∀ target, SelectionContract py count target messages
      (messageGroupSelect py count target messages).1) ↔ WholeSelectable py count messages := by
  constructor
  · intro hcontract
    obtain ⟨hgathered, htaken⟩ :=
      selection_eq_self_iff.1 ((hcontract (count messages)).whole (le_refl _))
    exact ⟨hgathered, htaken⟩
  · rintro ⟨hgathered, htaken⟩ target
    refine ⟨?_, selection_groups, fun hfits => ?_⟩
    · have hsublist := (List.filter_sublist (p := fun group : List M × ℕ =>
        ((selectedGroups py count target (conversationGroups py messages).zipIdx).map
          Prod.snd).contains group.2) (l := (conversationGroups py messages).zipIdx)).flatMap
            Prod.fst
      rw [← messageGroupSelect_eq, List.flatMap_def, List.zipIdx_map_fst, hgathered] at hsublist
      exact hsublist
    · refine selection_eq_self_iff.2 ⟨hgathered, ?_⟩
      intro newer group older heq
      obtain ⟨hnew, hroom⟩ := htaken newer group older heq
      exact ⟨hnew, hroom.imp_left fun hle => hle.trans hfits⟩

end Selection

/-- Messages whose values are texts. -/
def textMessages : PythonMessages (List (String × String)) (Option String) where
  get message key := message.lookup key
  truthy value := value.getD "" != ""
  str value := value.getD "None"
  isText value text := value == some text
  same message other := decide (message.Perm other)
  same_refl message := decide_eq_true (List.Perm.refl message)

/-- A user who says the same twice. -/
def repeatedPrompt : List (List (String × String)) :=
  [[("role", "user"), ("content", "Go on.")], [("role", "user"), ("content", "Go on.")]]

/-- The older of two equal messages is dropped, although both fit. -/
theorem repeated_message_dropped :
    ¬ SelectionContract textMessages (fun messages => messages.length) 2 repeatedPrompt
      (messageGroupSelect textMessages (fun messages => messages.length) 2 repeatedPrompt).1 := by
  have hselection : (messageGroupSelect textMessages (fun messages => messages.length) 2
      repeatedPrompt).1 = [[("role", "user"), ("content", "Go on.")]] := by decide +kernel
  intro hcontract
  have hwhole := hcontract.whole (by decide)
  rw [hselection] at hwhole
  exact absurd hwhole (by decide)

end ContextLease
