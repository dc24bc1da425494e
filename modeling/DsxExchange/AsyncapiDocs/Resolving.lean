import DsxExchange.AsyncapiDocs.Schema
import DsxExchange.Python.Parts

/-
  Where the keywords of a resolved schema come from: the
  schema itself or the specification.

  Key definitions include:
    * `AsyncapiDocs.IsPlain`, `AsyncapiDocs.PlainValues`
    * `AsyncapiDocs.Known`

  Key theorems include:
    * `AsyncapiDocs.resolveRef_under`
    * `AsyncapiDocs.plainValues_resolveLevels`
-/

------------------------------------------------------------
-- What Resolving Gives
------------------------------------------------------------

namespace AsyncapiDocs

open Python (Str Value PyError bind_eq_ok foldlM_ok
  mem_of_lookup)
open Python.Value (Child Below Under)
open Relation

variable {spec : Value}

theorem not_below_empty (value : Value) :
    ¬ Below (.dict []) value := by
  intro hBelow
  rcases TransGen.head'_iff.mp hBelow with ⟨child, hChild, _⟩
  cases hChild with
  | entry hMem => exact List.not_mem_nil hMem

/- Only a mapping has the value of a key. -/
theorem mem_of_item
    {schema value : Value}
    {key : Str}
    (hItem : schema.item key = .ok value) :
    ∃ entries, schema = .dict entries ∧ (key, value) ∈ entries := by
  cases schema with
  | dict entries =>
      refine ⟨entries, rfl, ?_⟩
      cases hLookup : entries.lookup key with
      | some found =>
          simp only [Value.item, hLookup] at hItem
          cases hItem
          exact mem_of_lookup hLookup
      | none =>
          simp only [Value.item, hLookup] at hItem
          cases hItem
  | _ => simp only [Value.item, reduceCtorEq] at hItem

theorem child_of_item
    {schema value : Value}
    {key : Str}
    (hItem : schema.item key = .ok value) :
    Child schema value := by
  rcases mem_of_item hItem with ⟨entries, hSchema, hMem⟩
  rw [hSchema]
  exact Child.entry hMem

/- Parts lead into the specification, or to nothing. -/
theorem resolvePart_under
    {parts : List Str}
    {node last : Value}
    (hNode : node = .dict [] ∨ Under spec node)
    (hParts : parts.foldlM resolvePart node = some last) :
    last = .dict [] ∨ Under spec last := by
  induction parts generalizing node with
  | nil =>
      rw [List.foldlM_nil] at hParts
      cases hParts
      exact hNode
  | cons part rest ih =>
      rw [List.foldlM_cons, Option.bind_eq_bind,
        Option.bind_eq_some_iff] at hParts
      rcases hParts with ⟨next, hNext, hRest⟩
      apply ih _ hRest
      cases node with
      | dict entries =>
          cases hLookup : entries.lookup part with
          | none =>
              simp only [resolvePart, hLookup] at hNext
              cases hNext
              exact Or.inl rfl
          | some value =>
              simp only [resolvePart, hLookup] at hNext
              cases hNext
              have hChild := Child.entry (mem_of_lookup hLookup)
              rcases hNode with hNil | hUnder
              · rw [hNil] at hChild
                exact absurd (TransGen.single hChild)
                  (not_below_empty value)
              · exact Or.inr (hUnder.tail hChild)
      | _ => cases hNext

theorem resolveRef_under
    {ref resolved : Value}
    (hResolve : resolveRef spec ref = .ok resolved) :
    resolved = .dict [] ∨ Under spec resolved := by
  rw [resolveRef, bind_eq_ok] at hResolve
  rcases hResolve with ⟨path, _, hPath⟩
  split at hPath
  · dsimp only at hPath
    split at hPath
    · next entries hParts =>
        cases hPath
        exact resolvePart_under (Or.inr ReflTransGen.refl)
          hParts
    · cases hPath
      exact Or.inl rfl
  · cases hPath
    exact Or.inl rfl

/- A text is not resolved any further. -/
theorem resolveLevels_str
    {levels : ℕ}
    {s : Str}
    {resolved : Value}
    (hResolve : resolveLevels spec levels (.str s) = .ok resolved) :
    resolved = .str s := by
  cases levels with
  | zero =>
      cases hResolve
      rfl
  | succ levels =>
      simp only [resolveLevels, Value.isNone,
        Bool.false_eq_true, if_false, Value.contains,
        Value.item] at hResolve
      rw [bind_eq_ok] at hResolve
      rcases hResolve with ⟨isRef, _, hResolve⟩
      split at hResolve
      · rw [bind_eq_ok] at hResolve
        rcases hResolve with ⟨ref, hRef, _⟩
        cases hRef
      · rw [bind_eq_ok] at hResolve
        rcases hResolve with ⟨isAll, _, hResolve⟩
        split at hResolve
        · rw [bind_eq_ok] at hResolve
          rcases hResolve with ⟨members, hMembers, _⟩
          cases hMembers
        · cases hResolve
          rfl

/- A keyword that is merged as it is. -/
def IsPlain (key : Str) : Prop :=
  key ≠ "properties".toList ∧ key ≠ "required".toList

/- Plain keywords have values with the property. -/
def PlainValues
    (Has : Value → Prop)
    (entries : List (Str × Value)) : Prop :=
  ∀ entry ∈ entries, IsPlain entry.1 → Has entry.2

theorem plainValues_keyword
    {Has : Value → Prop}
    {acc acc' : Merge}
    {entry : Str × Value}
    (hAcc : PlainValues Has acc.merged)
    (hEntry : IsPlain entry.1 → Has entry.2)
    (hKeyword : acc.keyword entry = .ok acc') :
    PlainValues Has acc'.merged := by
  unfold Merge.keyword at hKeyword
  split at hKeyword
  · unfold Merge.update at hKeyword
    split at hKeyword
    case h_2 =>
      rw [bind_eq_ok] at hKeyword
      rcases hKeyword with ⟨pairs, _, hPairs⟩
      cases hPairs
      exact hAcc
    all_goals
      cases hKeyword
      try exact hAcc
  · split at hKeyword
    · rw [bind_eq_ok] at hKeyword
      rcases hKeyword with ⟨names, _, hNames⟩
      cases hNames
      exact hAcc
    · cases hKeyword
      intro other hMem hPlain
      rcases Python.mem_of_mem_setEntry hMem with
        hNew | hOld
      · rw [hNew] at hPlain ⊢
        exact hEntry hPlain
      · exact hAcc other hOld hPlain

theorem plainValues_finish
    {Has : Value → Prop}
    {acc : Merge}
    {entries : List (Str × Value)}
    (hAcc : PlainValues Has acc.merged)
    (hFinish : acc.finish = .ok (.dict entries)) :
    PlainValues Has entries := by
  have hSet :
      ∀ {key : Str} {value : Value} {old : List (Str × Value)},
        ¬ IsPlain key → PlainValues Has old →
          PlainValues Has (Python.setEntry key value old) := by
    intro key value old hKey hOld entry hMem hPlain
    rcases Python.mem_of_mem_setEntry hMem with hNew | hMem
    · rw [hNew] at hPlain
      exact absurd hPlain hKey
    · exact hOld entry hMem hPlain
  have hProps :
      PlainValues Has
        (if acc.mergedProps ≠ [] then
          Python.setEntry "properties".toList
            (.dict acc.mergedProps) acc.merged
        else
          acc.merged) := by
    split
    · apply hSet _ hAcc
      intro hPlain
      exact hPlain.1 rfl
    · exact hAcc
  unfold Merge.finish at hFinish
  dsimp only at hFinish
  split at hFinish
  · rw [bind_eq_ok] at hFinish
    rcases hFinish with ⟨required, _, hRequired⟩
    cases hRequired
    apply hSet _ hProps
    intro hPlain
    exact hPlain.2 rfl
  · cases hFinish
    exact hProps

/- Inside the specification, or inside a schema. -/
def Known (spec schema value : Value) : Prop :=
  Below spec value ∨ Below schema value

theorem plainValues_self
    {entries : List (Str × Value)} :
    PlainValues (Known spec (.dict entries)) entries := by
  intro entry hMem _
  exact Or.inr (TransGen.single (Child.entry hMem))

theorem plainValues_ref
    {ref resolved schema : Value}
    {entries : List (Str × Value)}
    (hRef : resolveRef spec ref = .ok resolved)
    (hPlain : PlainValues (Known spec resolved) entries) :
    PlainValues (Known spec schema) entries := by
  intro entry hMem hKey
  rcases hPlain entry hMem hKey with hSpec | hResolved
  · exact Or.inl hSpec
  · rcases resolveRef_under hRef with hNil | hUnder
    · rw [hNil] at hResolved
      exact absurd hResolved (not_below_empty _)
    · exact Or.inl (TransGen.trans_right hUnder hResolved)

/- A member that is a part, or else a text. -/
theorem member_of_iter
    {allOf member : Value}
    {members : List Value}
    (hMembers : allOf.iter = .ok members)
    (hMem : member ∈ members) :
    Child allOf member ∨ ∃ s, member = .str s := by
  cases allOf with
  | list items =>
      cases hMembers
      exact Or.inl (Child.item hMem)
  | dict entries =>
      cases hMembers
      rcases List.mem_map.mp hMem with ⟨entry, _, hEntry⟩
      exact Or.inr ⟨entry.1, hEntry.symm⟩
  | str s =>
      cases hMembers
      rcases List.mem_map.mp hMem with ⟨c, _, hChar⟩
      exact Or.inr ⟨[c], hChar.symm⟩
  | _ => cases hMembers

/- The members of a schema, merged. -/
theorem plainValues_members
    {levels : ℕ}
    {schema allOf : Value}
    {members : List Value}
    {acc : Merge}
    (hResolved :
      ∀ {member : Value} {entries : List (Str × Value)},
        resolveLevels spec levels member =
            .ok (.dict entries) →
          PlainValues (Known spec member) entries)
    (hAllOf : schema.item "allOf".toList = .ok allOf)
    (hMembers : allOf.iter = .ok members)
    (hAcc :
      members.foldlM
          (fun (acc : Merge) member => do
            let sub ← resolveLevels spec levels member
            let keywords ← sub.items
            keywords.foldlM Merge.keyword acc)
          ⟨[], [], []⟩ =
        .ok acc) :
    PlainValues (Known spec schema) acc.merged := by
  apply foldlM_ok hAcc
  · intro entry hMem
    exact absurd hMem List.not_mem_nil
  · intro member hMem acc acc' hPlain hStep
    simp only [bind_eq_ok] at hStep
    rcases hStep with ⟨sub, hSub, keywords, hItems, hKeywords⟩
    cases sub with
    | dict entries =>
        cases hItems
        apply foldlM_ok hKeywords hPlain
        intro entry hEntry acc acc' hAcc hKeyword
        apply plainValues_keyword hAcc _ hKeyword
        intro hKey
        rcases hResolved hSub entry hEntry hKey with
          hSpec | hBelow
        · exact Or.inl hSpec
        · rcases member_of_iter hMembers hMem with
            hChild | ⟨s, hText⟩
          · have hMember : Below schema member :=
              (TransGen.single (child_of_item hAllOf)).tail
                hChild
            exact Or.inr (hMember.trans hBelow)
          · rw [hText] at hSub
            cases resolveLevels_str hSub
    | _ => cases hItems

/-
  The plain keywords of a resolved schema come from it or
  from the specification.
-/
theorem plainValues_resolveLevels
    {levels : ℕ}
    {schema : Value}
    {entries : List (Str × Value)}
    (hResolve :
      resolveLevels spec levels schema = .ok (.dict entries)) :
    PlainValues (Known spec schema) entries := by
  induction levels generalizing schema entries with
  | zero =>
      rw [resolveLevels] at hResolve
      split at hResolve
      · cases hResolve
        intro entry hMem
        exact absurd hMem List.not_mem_nil
      · cases hResolve
        exact plainValues_self
  | succ levels ih =>
      rw [resolveLevels] at hResolve
      split at hResolve
      · cases hResolve
        intro entry hMem
        exact absurd hMem List.not_mem_nil
      rw [bind_eq_ok] at hResolve
      rcases hResolve with ⟨isRef, _, hResolve⟩
      split at hResolve
      · simp only [bind_eq_ok] at hResolve
        rcases hResolve with ⟨ref, _, resolved, hRef, hRest⟩
        exact plainValues_ref hRef (ih hRest)
      · rw [bind_eq_ok] at hResolve
        rcases hResolve with ⟨isAll, _, hResolve⟩
        split at hResolve
        · simp only [bind_eq_ok] at hResolve
          rcases hResolve with
            ⟨allOf, hAllOf, members, hMembers, acc, hAcc,
              hFinish⟩
          have hMerged :=
            plainValues_members ih hAllOf hMembers hAcc
          exact plainValues_finish hMerged hFinish
        · cases hResolve
          exact plainValues_self

end AsyncapiDocs
