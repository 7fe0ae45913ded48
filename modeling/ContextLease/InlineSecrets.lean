/-
No secrets in a configuration.

A configuration is refused when it holds a secret: a key of a forbidden name, in whatever nesting of
objects and arrays it stands.  The error names the place of the key.

Main definitions:

* `Host.rejectInlineSecrets` — the check;
* `Host.keyPaths` — the keys of a value with their places, in the order of the document.

Main results:

* `inline_secrets_iff` — the check refuses with the place of the first forbidden key, and accepts
  when there is none.
-/

import ContextLease.HostConfig

set_option relaxedAutoImplicit false
set_option autoImplicit false

namespace ContextLease

variable {F : Type}

namespace Host

/-- The source's `_FORBIDDEN_SECRET_KEYS`. -/
def forbiddenSecretKeys : List String := ["api_key", "authorization", "secret", "token", "password"]

section Checks

variable (casefold : String → String)

/-- A name that no key may have. -/
def isForbidden (key : String) : Bool := forbiddenSecretKeys.contains (casefold key)

/-- The text of the error for a key of an object. -/
def secretMessage (path key : String) : String :=
  path ++ "." ++ key ++
    ": inline secrets are forbidden; use api_key_env or environment-backed headers"

mutual

/-- The source's `_reject_inline_secrets`. -/
def rejectInlineSecrets : HostValue F → String → HostResult Unit
  | .object entries, path => rejectEntries entries path
  | .array items, path => rejectItems items path 0
  | _, _ => .ok ()

/-- The loop over the entries of an object. -/
def rejectEntries : List (String × HostValue F) → String → HostResult Unit
  | [], _ => .ok ()
  | (key, child) :: entries, path =>
      if isForbidden casefold key then
        reject (secretMessage path key)
      else do
        rejectInlineSecrets child (path ++ "." ++ key)
        rejectEntries entries path

/-- The loop over the items of an array. -/
def rejectItems : List (HostValue F) → String → ℕ → HostResult Unit
  | [], _, _ => .ok ()
  | child :: items, path, index => do
      rejectInlineSecrets child (path ++ "[" ++ toString index ++ "]")
      rejectItems items path (index + 1)

end

end Checks

mutual

/-- The keys of a value with the places of the objects they stand in, in the order of the
document. -/
def keyPaths : HostValue F → String → List (String × String)
  | .object entries, path => entryPaths entries path
  | .array items, path => itemPaths items path 0
  | _, _ => []

/-- The keys of the entries of an object. -/
def entryPaths : List (String × HostValue F) → String → List (String × String)
  | [], _ => []
  | (key, child) :: entries, path =>
      (path, key) :: (keyPaths child (path ++ "." ++ key) ++ entryPaths entries path)

/-- The keys of the items of an array. -/
def itemPaths : List (HostValue F) → String → ℕ → List (String × String)
  | [], _, _ => []
  | child :: items, path, index =>
      keyPaths child (path ++ "[" ++ toString index ++ "]") ++ itemPaths items path (index + 1)

end

/-- What the check makes of keys in the order of the document. -/
def refuse (casefold : String → String) (found : List (String × String)) : HostResult Unit :=
  match found.find? fun e => isForbidden casefold e.2 with
  | none => .ok ()
  | some (path, key) => reject (secretMessage path key)

end Host

open Host

/-- A key stands somewhere in a value. -/
inductive HasKey (key : String) : HostValue F → Prop
  | here {entries : List (String × HostValue F)} {child : HostValue F}
      (h : (key, child) ∈ entries) : HasKey key (.object entries)
  | entry {entries : List (String × HostValue F)} {name : String} {child : HostValue F}
      (h : (name, child) ∈ entries) (hchild : HasKey key child) : HasKey key (.object entries)
  | item {items : List (HostValue F)} {child : HostValue F} (h : child ∈ items)
      (hchild : HasKey key child) : HasKey key (.array items)

section Secrets

variable (casefold : String → String)

theorem refuse_append (found found' : List (String × String)) :
    refuse casefold (found ++ found') =
      (refuse casefold found >>= fun _ => refuse casefold found') := by
  rw [refuse, refuse, List.find?_append]
  cases found.find? fun e => isForbidden casefold e.2 <;> rfl

theorem refuse_cons (path key : String) (found : List (String × String)) :
    refuse casefold ((path, key) :: found) =
      if isForbidden casefold key then reject (secretMessage path key)
      else refuse casefold found := by
  by_cases hkey : isForbidden casefold key = true
  · simp only [refuse, List.find?_cons, hkey, if_true]
  · simp only [refuse, List.find?_cons, hkey, Bool.false_eq_true, if_false]

mutual

/-- The check is a search in the keys of the value. -/
theorem rejectInlineSecrets_eq : ∀ (value : HostValue F) (path : String),
    rejectInlineSecrets casefold value path = refuse casefold (keyPaths value path)
  | .object entries, path => by
      rw [rejectInlineSecrets, keyPaths]
      exact rejectEntries_eq entries path
  | .array items, path => by
      rw [rejectInlineSecrets, keyPaths]
      exact rejectItems_eq items path 0
  | .null, path => by simp only [rejectInlineSecrets, keyPaths, refuse, List.find?_nil]
  | .bool b, path => by simp only [rejectInlineSecrets, keyPaths, refuse, List.find?_nil]
  | .number n, path => by simp only [rejectInlineSecrets, keyPaths, refuse, List.find?_nil]
  | .string s, path => by simp only [rejectInlineSecrets, keyPaths, refuse, List.find?_nil]

theorem rejectEntries_eq : ∀ (entries : List (String × HostValue F)) (path : String),
    rejectEntries casefold entries path = refuse casefold (entryPaths entries path)
  | [], path => by rw [rejectEntries, entryPaths, refuse, List.find?_nil]
  | (key, child) :: entries, path => by
      rw [rejectEntries, entryPaths, refuse_cons, refuse_append, rejectInlineSecrets_eq child,
        rejectEntries_eq entries]

theorem rejectItems_eq : ∀ (items : List (HostValue F)) (path : String) (index : ℕ),
    rejectItems casefold items path index = refuse casefold (itemPaths items path index)
  | [], path, index => by rw [rejectItems, itemPaths, refuse, List.find?_nil]
  | child :: items, path, index => by
      rw [rejectItems, itemPaths, refuse_append, rejectInlineSecrets_eq child,
        rejectItems_eq items]

end

mutual

/-- The keys that are found are those that stand somewhere in the value. -/
theorem mem_keyPaths (key : String) : ∀ (value : HostValue F) (path : String),
    (∃ place, (place, key) ∈ keyPaths value path) ↔ HasKey key value
  | .object entries, path => by
      rw [keyPaths, mem_entryPaths key entries path]
      constructor
      · rintro ⟨name, child, hmem, rfl | hchild⟩
        · exact .here hmem
        · exact .entry hmem hchild
      · intro h
        cases h with
        | here hmem => exact ⟨key, _, hmem, Or.inl rfl⟩
        | entry hmem hchild => exact ⟨_, _, hmem, Or.inr hchild⟩
  | .array items, path => by
      rw [keyPaths, mem_itemPaths key items path 0]
      constructor
      · rintro ⟨child, hmem, hchild⟩
        exact .item hmem hchild
      · intro h
        cases h with
        | item hmem hchild => exact ⟨_, hmem, hchild⟩
  | .null, path => by simp only [keyPaths, List.not_mem_nil, exists_false, false_iff]; nofun
  | .bool b, path => by simp only [keyPaths, List.not_mem_nil, exists_false, false_iff]; nofun
  | .number n, path => by simp only [keyPaths, List.not_mem_nil, exists_false, false_iff]; nofun
  | .string s, path => by simp only [keyPaths, List.not_mem_nil, exists_false, false_iff]; nofun

theorem mem_entryPaths (key : String) : ∀ (entries : List (String × HostValue F))
    (path : String),
    (∃ place, (place, key) ∈ entryPaths entries path) ↔
      ∃ name child, (name, child) ∈ entries ∧ (name = key ∨ HasKey key child)
  | [], path => by simp [entryPaths]
  | (name, child) :: entries, path => by
      have hchild := mem_keyPaths key child (path ++ "." ++ name)
      have hrest := mem_entryPaths key entries path
      simp only [entryPaths, List.mem_cons, List.mem_append, Prod.mk.injEq, exists_or, hchild,
        hrest]
      constructor
      · rintro (⟨place, -, rfl⟩ | hkey | ⟨n, c, hmem, hkey⟩)
        · exact ⟨key, child, Or.inl ⟨rfl, rfl⟩, Or.inl rfl⟩
        · exact ⟨name, child, Or.inl ⟨rfl, rfl⟩, Or.inr hkey⟩
        · exact ⟨n, c, Or.inr hmem, hkey⟩
      · rintro ⟨n, c, ⟨rfl, rfl⟩ | hmem, hkey⟩
        · rcases hkey with rfl | hkey
          · exact Or.inl ⟨path, rfl, rfl⟩
          · exact Or.inr (Or.inl hkey)
        · exact Or.inr (Or.inr ⟨n, c, hmem, hkey⟩)

theorem mem_itemPaths (key : String) : ∀ (items : List (HostValue F)) (path : String)
    (index : ℕ),
    (∃ place, (place, key) ∈ itemPaths items path index) ↔ ∃ child ∈ items, HasKey key child
  | [], path, index => by simp [itemPaths]
  | child :: items, path, index => by
      have hchild := mem_keyPaths key child (path ++ "[" ++ toString index ++ "]")
      have hrest := mem_itemPaths key items path (index + 1)
      simp only [itemPaths, List.mem_append, exists_or, hchild, hrest, List.mem_cons,
        exists_eq_or_imp]

end

/-- The check accepts a configuration exactly when no key of a forbidden name stands in it, however
deep, and otherwise refuses it with the place of the first one. -/
theorem inline_secrets_iff (value : HostValue F) (path : String) :
    (rejectInlineSecrets casefold value path = .ok () ↔
        ∀ key, HasKey key value → casefold key ∉ forbiddenSecretKeys) ∧
      ∀ error, rejectInlineSecrets casefold value path = .error error ↔
        ∃ before place key after, keyPaths value path = before ++ (place, key) :: after ∧
          (∀ e ∈ before, casefold e.2 ∉ forbiddenSecretKeys) ∧
          casefold key ∈ forbiddenSecretKeys ∧
          error = .configuration (secretMessage place key) := by
  have hforbidden : ∀ key, isForbidden casefold key = true ↔ casefold key ∈ forbiddenSecretKeys :=
    fun key => List.contains_iff_mem
  rw [rejectInlineSecrets_eq, refuse]
  cases hfound : (keyPaths value path).find? fun e => isForbidden casefold e.2 with
  | none =>
      rw [List.find?_eq_none] at hfound
      refine ⟨⟨fun _ key hkey hmem => ?_, fun _ => rfl⟩, fun error => ⟨nofun, ?_⟩⟩
      · obtain ⟨place, hplace⟩ := (mem_keyPaths key value path).2 hkey
        exact hfound _ hplace ((hforbidden key).2 hmem)
      · rintro ⟨before, place, key, after, heq, -, hmem, -⟩
        have hplace : (place, key) ∈ keyPaths value path := by rw [heq]; simp
        exact absurd ((hforbidden key).2 hmem) (hfound _ hplace)
  | some found =>
      obtain ⟨place, key⟩ := found
      obtain ⟨hkey, before, after, heq, hbefore⟩ := List.find?_eq_some_iff_append.1 hfound
      have hmem : casefold key ∈ forbiddenSecretKeys := (hforbidden key).1 hkey
      refine ⟨⟨nofun, fun hnone => ?_⟩, fun error => ⟨?_, ?_⟩⟩
      · refine absurd hmem (hnone key ((mem_keyPaths key value path).1 ⟨place, ?_⟩))
        rw [heq]
        simp
      · intro herror
        refine ⟨before, place, key, after, heq, ?_, hmem, (Except.error.inj herror).symm⟩
        intro e he hsecret
        exact absurd ((hforbidden e.2).2 hsecret) (by simpa using hbefore e he)
      · rintro ⟨before', place', key', after', heq', hbefore', hmem', rfl⟩
        have hsame : some (place, key) = some (place', key') := by
          rw [← hfound, heq']
          refine List.find?_eq_some_iff_append.2
            ⟨(hforbidden key').2 hmem', before', after', rfl, ?_⟩
          intro e he
          rw [Bool.not_eq_true', Bool.eq_false_iff]
          exact fun htrue => hbefore' e he ((hforbidden e.2).1 htrue)
        obtain ⟨rfl, rfl⟩ := Prod.mk.inj (Option.some.inj hsame)
        rfl

end Secrets

end ContextLease
