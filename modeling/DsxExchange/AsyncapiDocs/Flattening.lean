import DsxExchange.AsyncapiDocs.Resolving
import Mathlib.Data.List.Nodup

/-
  What a resolved schema has kept of the schema, of what it
  refers to and of their members.

  Key definitions include:
    * `AsyncapiDocs.Reached`, `AsyncapiDocs.IsSchema`
    * `AsyncapiDocs.leaves`, `AsyncapiDocs.lastOf`
    * `AsyncapiDocs.Summary`
    * `AsyncapiDocs.LosesNothing`, `AsyncapiDocs.Repeats`

  Key theorems include:
    * `AsyncapiDocs.summary_resolveLevels`
    * `AsyncapiDocs.losesNothing_iff`
-/

------------------------------------------------------------
-- Schemas
------------------------------------------------------------

namespace AsyncapiDocs

open Python (Str Value)
open Relation

/- The keywords of a schema, and none of a missing one. -/
def keywords : Value → List (Str × Value)
| .dict entries => entries
| _ => []

/- What a schema refers to, or has as a member. -/
inductive Next (spec : Value) : Value → Value → Prop where
  | target
      {schema ref target : Value}
      (hRef :
        (keywords schema).lookup "$ref".toList = some ref)
      (hTarget : resolveRef spec ref = .ok target) :
      Next spec schema target
  | member
      {schema member : Value}
      {members : List Value}
      (hAllOf :
        (keywords schema).lookup "allOf".toList =
          some (.list members))
      (hMem : member ∈ members) :
      Next spec schema member

/- A schema is met below another one, or is the same. -/
def Reached (spec : Value) : Value → Value → Prop :=
  ReflTransGen (Next spec)

/- No schema of the specification leads back to itself. -/
def Acyclic (spec : Value) : Prop :=
  ∀ schema, Value.Under spec schema →
    ¬ TransGen (Next spec) schema schema

def Texts (values : List Value) : Prop :=
  ∀ value ∈ values, ∃ s, value = .str s

/- The keywords that are merged have values of their types. -/
structure Shaped (entries : List (Str × Value)) : Prop where
  nodup : (entries.map Prod.fst).Nodup
  properties :
    ∀ value, ("properties".toList, value) ∈ entries →
      ∃ props, value = .dict props
  required :
    ∀ value, ("required".toList, value) ∈ entries →
      ∃ names, value = .list names ∧ Texts names

/- A mapping with values of the types of a schema, or none. -/
structure IsSchema (schema : Value) : Prop where
  kind : schema = .none ∨ ∃ entries, schema = .dict entries
  shaped : Shaped (keywords schema)
  ref :
    ∀ value,
      (keywords schema).lookup "$ref".toList = some value →
        ∃ s, value = .str s
  allOf :
    ∀ value,
      (keywords schema).lookup "allOf".toList = some value →
        ∃ members, value = .list members

def propertyNames (entries : List (Str × Value)) : List Str :=
  match entries.lookup "properties".toList with
  | some (.dict props) => props.map Prod.fst
  | _ => []

def requiredNames (entries : List (Str × Value)) : List Value :=
  match entries.lookup "required".toList with
  | some (.list names) => names
  | _ => []

/- The alternatives of `oneOf` or `anyOf`. -/
def alternatives : Option Value → List Value
| some (.list items) => items
| _ => []

/-
  The ends of references and members within so many levels:
  schemas with neither, and what is at the last level.
-/
def leaves (spec : Value) :
    ℕ → Value → List (List (Str × Value))
| 0, schema => [keywords schema]
| levels + 1, schema =>
    match (keywords schema).lookup "$ref".toList with
    | some ref =>
        match resolveRef spec ref with
        | .ok target => leaves spec levels target
        | .error _ => []
    | none =>
        match (keywords schema).lookup "allOf".toList with
        | some (.list members) =>
            members.flatMap (leaves spec levels)
        | _ => [keywords schema]

/- The value in the last of the schemas that has the key. -/
def lastOf
    (key : Str)
    (schemas : List (List (Str × Value))) : Option Value :=
  schemas.reverse.findSome? (fun entries => entries.lookup key)

theorem lastOf_append
    (key : Str)
    (schemas others : List (List (Str × Value))) :
    lastOf key (schemas ++ others) =
      (lastOf key others).or (lastOf key schemas) := by
  rw [lastOf, List.reverse_append, List.findSome?_append]
  rfl

theorem lastOf_eq_none_iff
    {key : Str}
    {schemas : List (List (Str × Value))} :
    lastOf key schemas = none ↔
      ∀ entries ∈ schemas, entries.lookup key = none := by
  rw [lastOf, List.findSome?_eq_none_iff]
  simp

theorem reached_of_mem_leaves
    {spec : Value}
    {levels : ℕ}
    {schema : Value}
    {entries : List (Str × Value)}
    (hMem : entries ∈ leaves spec levels schema) :
    ∃ part, Reached spec schema part ∧
      keywords part = entries := by
  induction levels generalizing schema with
  | zero =>
      rw [leaves, List.mem_singleton] at hMem
      exact ⟨schema, ReflTransGen.refl, hMem.symm⟩
  | succ levels ih =>
      rw [leaves] at hMem
      split at hMem
      next ref hRef =>
        split at hMem
        next target hTarget =>
          rcases ih hMem with ⟨part, hReached, hPart⟩
          exact ⟨part, hReached.head (.target hRef hTarget),
            hPart⟩
        next => exact absurd hMem List.not_mem_nil
      next =>
        split at hMem
        next members hAllOf =>
          rcases List.mem_flatMap.mp hMem with
            ⟨member, hMember, hLeaf⟩
          rcases ih hLeaf with ⟨part, hReached, hPart⟩
          exact ⟨part, hReached.head (.member hAllOf hMember),
            hPart⟩
        next =>
          rw [List.mem_singleton] at hMem
          exact ⟨schema, ReflTransGen.refl, hMem.symm⟩

end AsyncapiDocs

------------------------------------------------------------
-- Merging a Member
------------------------------------------------------------

namespace AsyncapiDocs

open Python (Str Value PyError lookup_setEntry
  lookup_cons_eq_ite mem_keys_setEntry)

theorem Shaped.tail
    {entry : Str × Value}
    {entries : List (Str × Value)}
    (hShaped : Shaped (entry :: entries)) :
    Shaped entries :=
  ⟨(List.nodup_cons.mp hShaped.nodup).2,
    fun value hMem =>
      hShaped.properties value (List.mem_cons_of_mem _ hMem),
    fun value hMem =>
      hShaped.required value (List.mem_cons_of_mem _ hMem)⟩

/- No other entry has the key of the first one. -/
theorem Shaped.lookup_tail
    {entry : Str × Value}
    {entries : List (Str × Value)}
    (hShaped : Shaped (entry :: entries)) :
    entries.lookup entry.1 = none := by
  rw [List.lookup_eq_none_iff]
  intro other hMem
  have hNew := (List.nodup_cons.mp hShaped.nodup).1
  rw [bne_iff_ne]
  intro hSame
  apply hNew
  rw [hSame]
  exact List.mem_map_of_mem hMem

/- What the merge of the entries of a member adds. -/
structure Merge.Extends
    (acc : Merge)
    (entries : List (Str × Value))
    (acc' : Merge) : Prop where
  plain :
    ∀ key, IsPlain key →
      acc'.merged.lookup key =
        (entries.lookup key).or (acc.merged.lookup key)
  other :
    ∀ key, ¬ IsPlain key →
      acc'.merged.lookup key = acc.merged.lookup key
  nodup :
    (acc.merged.map Prod.fst).Nodup →
      (acc'.merged.map Prod.fst).Nodup
  properties :
    ∀ name,
      name ∈ acc'.mergedProps.map Prod.fst ↔
        name ∈ acc.mergedProps.map Prod.fst ∨
          name ∈ propertyNames entries
  required :
    acc'.mergedRequired =
      acc.mergedRequired ++ requiredNames entries

theorem mem_keys_update
    {props entries : List (Str × Value)}
    {name : Str} :
    name ∈
        (props.foldl
          (fun kept entry =>
            Python.setEntry entry.1 entry.2 kept)
          entries).map Prod.fst ↔
      name ∈ entries.map Prod.fst ∨
        name ∈ props.map Prod.fst := by
  induction props generalizing entries with
  | nil => simp
  | cons entry rest ih =>
      rw [List.foldl_cons, ih, mem_keys_setEntry,
        List.map_cons, List.mem_cons, or_assoc, or_left_comm]

theorem nodup_keys_setEntry
    {key : Str}
    {value : Value}
    {entries : List (Str × Value)}
    (hNodup : (entries.map Prod.fst).Nodup) :
    ((Python.setEntry key value entries).map
      Prod.fst).Nodup := by
  induction entries with
  | nil => exact List.nodup_singleton key
  | cons entry rest ih =>
      rw [List.map_cons, List.nodup_cons] at hNodup
      by_cases hKey : entry.1 = key
      · rw [Python.setEntry, if_pos hKey, List.map_cons,
          List.nodup_cons, ← hKey]
        exact hNodup
      · rw [Python.setEntry, if_neg hKey, List.map_cons,
          List.nodup_cons, mem_keys_setEntry, not_or]
        exact ⟨⟨hKey, hNodup.1⟩, ih hNodup.2⟩

theorem keyword_properties
    (acc : Merge)
    (props : List (Str × Value)) :
    acc.keyword ("properties".toList, .dict props) =
      .ok
        { acc with
          mergedProps :=
            props.foldl
              (fun kept entry =>
                Python.setEntry entry.1 entry.2 kept)
              acc.mergedProps } :=
  if_pos rfl

theorem keyword_required
    (acc : Merge)
    {key : Str}
    (hKey : key = "required".toList)
    (names : List Value) :
    acc.keyword (key, .list names) =
      .ok
        { acc with
          mergedRequired := acc.mergedRequired ++ names } := by
  have hOther : key ≠ "properties".toList := by
    rw [hKey]
    decide
  rw [Merge.keyword, if_neg hOther, if_pos hKey]
  rfl

theorem keyword_plain
    (acc : Merge)
    {key : Str}
    (hPlain : IsPlain key)
    (value : Value) :
    acc.keyword (key, value) =
      .ok
        { acc with
          merged := Python.setEntry key value acc.merged } := by
  rw [Merge.keyword, if_neg hPlain.1, if_neg hPlain.2]

/- One keyword, from the values of its type. -/
theorem extends_keyword
    (acc : Merge)
    {key : Str}
    {value : Value}
    (hShaped : Shaped [(key, value)]) :
    ∃ acc', acc.keyword (key, value) = .ok acc' ∧
      acc.Extends [(key, value)] acc' := by
  have hLookup (other : Str) :
      List.lookup other [(key, value)] =
        if other = key then some value else none :=
    lookup_cons_eq_ite key other value []
  by_cases hProps : key = "properties".toList
  · subst hProps
    rcases hShaped.properties value List.mem_cons_self with
      ⟨props, rfl⟩
    refine ⟨_, keyword_properties acc props,
      ?_, fun _ _ => rfl, id, ?_, ?_⟩
    · intro other hPlain
      rw [hLookup, if_neg hPlain.1]
      rfl
    · intro name
      rw [mem_keys_update, propertyNames, hLookup, if_pos rfl]
    · rw [requiredNames, hLookup, if_neg (by decide),
        List.append_nil]
  by_cases hRequired : key = "required".toList
  · subst hRequired
    rcases hShaped.required value List.mem_cons_self with
      ⟨names, rfl, _⟩
    refine ⟨_, keyword_required acc rfl _,
      ?_, fun _ _ => rfl, id, ?_, ?_⟩
    · intro other hPlain
      rw [hLookup, if_neg hPlain.2]
      rfl
    · intro name
      rw [propertyNames, hLookup, if_neg (by decide)]
      simp
    · rw [requiredNames, hLookup, if_pos rfl]
  have hPlain : IsPlain key := ⟨hProps, hRequired⟩
  refine ⟨_, keyword_plain acc hPlain value,
    ?_, ?_, nodup_keys_setEntry, ?_, ?_⟩
  · intro other _
    rw [lookup_setEntry, hLookup]
    split <;> rfl
  · intro other hOther
    rw [lookup_setEntry, if_neg]
    rintro rfl
    exact hOther hPlain
  · intro name
    rw [propertyNames, hLookup, if_neg (Ne.symm hProps)]
    simp
  · rw [requiredNames, hLookup, if_neg (Ne.symm hRequired),
      List.append_nil]

/- The names of a schema are those of its two parts. -/
theorem propertyNames_cons
    {entry : Str × Value}
    {entries : List (Str × Value)}
    (hShaped : Shaped (entry :: entries))
    (name : Str) :
    name ∈ propertyNames (entry :: entries) ↔
      name ∈ propertyNames [entry] ∨
        name ∈ propertyNames entries := by
  rcases entry with ⟨key, value⟩
  have hTail := hShaped.lookup_tail
  unfold propertyNames
  rw [lookup_cons_eq_ite, lookup_cons_eq_ite]
  by_cases hKey : "properties".toList = key
  · rw [if_pos hKey, if_pos hKey, hKey, hTail]
    simp
  · rw [if_neg hKey, if_neg hKey]
    simp

theorem requiredNames_cons
    {entry : Str × Value}
    {entries : List (Str × Value)}
    (hShaped : Shaped (entry :: entries)) :
    requiredNames (entry :: entries) =
      requiredNames [entry] ++ requiredNames entries := by
  rcases entry with ⟨key, value⟩
  have hTail := hShaped.lookup_tail
  unfold requiredNames
  rw [lookup_cons_eq_ite, lookup_cons_eq_ite]
  by_cases hKey : "required".toList = key
  · rw [if_pos hKey, if_pos hKey, hKey, hTail,
      List.append_nil]
  · rw [if_neg hKey, if_neg hKey]
    rfl

/- All keywords of a member. -/
theorem extends_keywords
    (acc : Merge)
    {entries : List (Str × Value)}
    (hShaped : Shaped entries) :
    ∃ acc', entries.foldlM Merge.keyword acc = .ok acc' ∧
      acc.Extends entries acc' := by
  induction entries generalizing acc with
  | nil =>
      refine ⟨acc, rfl, fun _ _ => rfl, fun _ _ => rfl, id,
        ?_, ?_⟩
      · intro name
        simp [propertyNames]
      · exact (List.append_nil _).symm
  | cons entry rest ih =>
      have hFirst : Shaped [entry] := by
        refine ⟨List.nodup_singleton _, ?_, ?_⟩
        · intro value hMem
          apply hShaped.properties
          exact List.mem_cons.mpr
            (Or.inl (List.mem_singleton.mp hMem))
        · intro value hMem
          apply hShaped.required
          exact List.mem_cons.mpr
            (Or.inl (List.mem_singleton.mp hMem))
      rcases entry with ⟨key, value⟩
      rcases extends_keyword acc hFirst with
        ⟨next, hKeyword, hNext⟩
      rcases ih next hShaped.tail with ⟨acc', hRest, hAcc'⟩
      have hTail := hShaped.lookup_tail
      refine ⟨acc', ?_, ?_, ?_, ?_, ?_, ?_⟩
      · rw [List.foldlM_cons, hKeyword]
        exact hRest
      · intro other hPlain
        rw [hAcc'.plain other hPlain, hNext.plain other hPlain,
          lookup_cons_eq_ite, lookup_cons_eq_ite]
        by_cases hKey : other = key
        · rw [hKey, hTail]
          simp
        · rw [if_neg hKey, if_neg hKey]
          rfl
      · intro other hOther
        rw [hAcc'.other other hOther, hNext.other other hOther]
      · exact fun hNodup => hAcc'.nodup (hNext.nodup hNodup)
      · intro name
        rw [hAcc'.properties, hNext.properties,
          propertyNames_cons hShaped, or_assoc]
      · rw [hAcc'.required, hNext.required,
          requiredNames_cons hShaped, List.append_assoc]

end AsyncapiDocs

------------------------------------------------------------
-- The Merged Schema
------------------------------------------------------------

namespace AsyncapiDocs

open Python (Str Value lookup_setEntry)

/- The schema has what the last of the parts have. -/
structure Summary
    (parts : List (List (Str × Value)))
    (entries : List (Str × Value)) : Prop where
  shaped : Shaped entries
  plain :
    ∀ key, IsPlain key →
      entries.lookup key = lastOf key parts
  properties :
    ∀ name,
      name ∈ propertyNames entries ↔
        ∃ part ∈ parts, name ∈ propertyNames part
  required :
    ∀ name,
      name ∈ requiredNames entries ↔
        ∃ part ∈ parts, name ∈ requiredNames part

theorem summary_singleton
    {entries : List (Str × Value)}
    (hShaped : Shaped entries) :
    Summary [entries] entries := by
  refine ⟨hShaped, ?_, ?_, ?_⟩
  · intro key _
    rw [lastOf, List.reverse_singleton,
      List.findSome?_singleton]
  · simp
  · simp

/- The merge has what the last of the parts have. -/
structure Merged
    (parts : List (List (Str × Value)))
    (acc : Merge) : Prop where
  nodup : (acc.merged.map Prod.fst).Nodup
  plain :
    ∀ key, IsPlain key →
      acc.merged.lookup key = lastOf key parts
  other :
    ∀ key, ¬ IsPlain key → acc.merged.lookup key = none
  properties :
    ∀ name,
      name ∈ acc.mergedProps.map Prod.fst ↔
        ∃ part ∈ parts, name ∈ propertyNames part
  required :
    ∀ name,
      name ∈ acc.mergedRequired ↔
        ∃ part ∈ parts, name ∈ requiredNames part
  texts : Texts acc.mergedRequired

theorem merged_nil : Merged [] ⟨[], [], []⟩ :=
  ⟨List.nodup_nil, fun _ _ => rfl, fun _ _ => rfl,
    by simp, by simp, by simp [Texts]⟩

theorem Shaped.texts_requiredNames
    {entries : List (Str × Value)}
    (hShaped : Shaped entries) :
    Texts (requiredNames entries) := by
  unfold requiredNames
  cases hLookup : entries.lookup "required".toList with
  | none =>
      intro value hMem
      exact absurd hMem List.not_mem_nil
  | some value =>
      rcases hShaped.required value
          (Python.mem_of_lookup hLookup) with
        ⟨names, rfl, hTexts⟩
      exact hTexts

theorem Merged.extends
    {parts others : List (List (Str × Value))}
    {acc acc' : Merge}
    {entries : List (Str × Value)}
    (hMerged : Merged parts acc)
    (hSummary : Summary others entries)
    (hExtends : acc.Extends entries acc') :
    Merged (parts ++ others) acc' := by
  refine ⟨hExtends.nodup hMerged.nodup, ?_, ?_, ?_, ?_, ?_⟩
  · intro key hPlain
    rw [hExtends.plain key hPlain, hSummary.plain key hPlain,
      hMerged.plain key hPlain, lastOf_append]
  · intro key hOther
    rw [hExtends.other key hOther, hMerged.other key hOther]
  · intro name
    rw [hExtends.properties, hMerged.properties,
      hSummary.properties]
    simp only [List.mem_append, or_and_right, exists_or]
  · intro name
    rw [hExtends.required, List.mem_append,
      hMerged.required, hSummary.required]
    simp only [List.mem_append, or_and_right, exists_or]
  · intro value hMem
    rw [hExtends.required, List.mem_append] at hMem
    rcases hMem with hBefore | hNew
    · exact hMerged.texts value hBefore
    · exact hSummary.shaped.texts_requiredNames value hNew

/- The names without repetitions. -/
theorem mem_fromKeys
    {kept values : List Value}
    {value : Value} :
    value ∈
        values.foldl
          (fun kept value =>
            if kept.any (· == value) then
              kept
            else
              kept ++ [value])
          kept ↔
      value ∈ kept ∨ value ∈ values := by
  induction values generalizing kept with
  | nil => simp
  | cons first rest ih =>
      rw [List.foldl_cons, ih, List.mem_cons]
      split_ifs with hKept
      · rw [List.any_eq_true] at hKept
        rcases hKept with ⟨same, hMem, hSame⟩
        rw [beq_iff_eq] at hSame
        rw [hSame] at hMem
        constructor
        · exact Or.imp_right Or.inr
        · rintro (hOld | rfl | hRest)
          · exact Or.inl hOld
          · exact Or.inl hMem
          · exact Or.inr hRest
      · rw [List.mem_append, List.mem_singleton, or_assoc]

theorem fromKeys_texts
    {names : List Value}
    (hTexts : Texts names) :
    ∃ kept,
      fromKeys names = .ok (.list kept) ∧
        ∀ name, name ∈ kept ↔ name ∈ names := by
  have hHashable : names.all Value.hashable = true := by
    rw [List.all_eq_true]
    intro value hMem
    rcases hTexts value hMem with ⟨s, rfl⟩
    rfl
  refine ⟨_, if_pos hHashable, ?_⟩
  intro name
  rw [mem_fromKeys]
  simp

/- A keyword that is written when there is anything to it. -/
def setIf
    (wanted : Bool)
    (key : Str)
    (value : Value)
    (entries : List (Str × Value)) : List (Str × Value) :=
  if wanted then Python.setEntry key value entries else entries

theorem lookup_setIf
    (wanted : Bool)
    (key : Str)
    (value : Value)
    (entries : List (Str × Value))
    (other : Str) :
    (setIf wanted key value entries).lookup other =
      if wanted = true ∧ other = key then
        some value
      else
        entries.lookup other := by
  unfold setIf
  cases wanted with
  | false => simp
  | true => simp [lookup_setEntry]

theorem nodup_keys_setIf
    {wanted : Bool}
    {key : Str}
    {value : Value}
    {entries : List (Str × Value)}
    (hNodup : (entries.map Prod.fst).Nodup) :
    ((setIf wanted key value entries).map
      Prod.fst).Nodup := by
  unfold setIf
  split
  · exact nodup_keys_setEntry hNodup
  · exact hNodup

/- The entries of the merged schema. -/
def Merge.entries
    (acc : Merge)
    (required : List Value) : List (Str × Value) :=
  setIf (!acc.mergedRequired.isEmpty) "required".toList
    (.list required)
    (setIf (!acc.mergedProps.isEmpty) "properties".toList
      (.dict acc.mergedProps) acc.merged)

theorem finish_eq
    {acc : Merge}
    {kept : List Value}
    (hKept : fromKeys acc.mergedRequired = .ok (.list kept)) :
    acc.finish = .ok (.dict (acc.entries kept)) := by
  unfold Merge.finish
  rw [hKept]
  unfold Merge.entries setIf
  cases acc.mergedRequired <;> cases acc.mergedProps <;> rfl

/-
  The merge as a schema. Properties and names are written
  when there are any, and no other keyword has their keys.
-/
theorem Merged.finish
    {parts : List (List (Str × Value))}
    {acc : Merge}
    (hMerged : Merged parts acc) :
    ∃ entries, acc.finish = .ok (.dict entries) ∧
      Summary parts entries := by
  have hProps : ¬ IsPlain "properties".toList :=
    fun hPlain => hPlain.1 rfl
  have hRequired : ¬ IsPlain "required".toList :=
    fun hPlain => hPlain.2 rfl
  rcases fromKeys_texts hMerged.texts with
    ⟨kept, hKept, hSame⟩
  have hTexts : Texts kept :=
    fun name hMem => hMerged.texts name ((hSame name).mp hMem)
  have hNodup :
      ((acc.entries kept).map Prod.fst).Nodup :=
    nodup_keys_setIf (nodup_keys_setIf hMerged.nodup)
  have hLookupProps :
      (acc.entries kept).lookup "properties".toList =
        if acc.mergedProps = [] then
          none
        else
          some (.dict acc.mergedProps) := by
    rw [Merge.entries, lookup_setIf, lookup_setIf,
      hMerged.other _ hProps]
    cases acc.mergedProps <;> simp
  have hLookupRequired :
      (acc.entries kept).lookup "required".toList =
        if acc.mergedRequired = [] then
          none
        else
          some (.list kept) := by
    rw [Merge.entries, lookup_setIf, lookup_setIf,
      hMerged.other _ hRequired]
    cases acc.mergedRequired <;> simp
  refine ⟨_, finish_eq hKept, ⟨hNodup, ?_, ?_⟩, ?_, ?_, ?_⟩
  · intro value hMem
    have hLookup := Python.lookup_of_mem hNodup hMem
    rw [hLookupProps] at hLookup
    split at hLookup
    · cases hLookup
    · cases hLookup
      exact ⟨_, rfl⟩
  · intro value hMem
    have hLookup := Python.lookup_of_mem hNodup hMem
    rw [hLookupRequired] at hLookup
    split at hLookup
    · cases hLookup
    · cases hLookup
      exact ⟨_, rfl, hTexts⟩
  · intro key hPlain
    rw [Merge.entries, lookup_setIf, if_neg, lookup_setIf,
      if_neg, hMerged.plain key hPlain]
    · exact fun hKey => hPlain.1 hKey.2
    · exact fun hKey => hPlain.2 hKey.2
  · intro name
    rw [← hMerged.properties, propertyNames, hLookupProps]
    cases acc.mergedProps <;> simp
  · intro name
    rw [← hMerged.required, requiredNames, hLookupRequired,
      ← hSame]
    cases hNames : acc.mergedRequired with
    | nil =>
        simp [hSame, hNames]
    | cons first rest => simp

end AsyncapiDocs

------------------------------------------------------------
-- Resolved Schemas
------------------------------------------------------------

namespace AsyncapiDocs

open Python (Str Value bind_eq_ok)
open Relation

variable {spec : Value}

theorem resolveRef_str
    (spec : Value)
    (s : Str) :
    ∃ target, resolveRef spec (.str s) = .ok target := by
  unfold resolveRef
  simp only [Value.text]
  dsimp only [bind, Except.bind]
  split
  · split <;> exact ⟨_, rfl⟩
  · exact ⟨_, rfl⟩

/- The keywords of all members, one member after another. -/
theorem merged_members
    {levels : ℕ}
    {members : List Value}
    {parts : List (List (Str × Value))}
    {acc : Merge}
    (hMembers :
      ∀ member ∈ members,
        ∃ entries,
          resolveLevels spec levels member =
              .ok (.dict entries) ∧
            Summary (leaves spec levels member) entries)
    (hMerged : Merged parts acc) :
    ∃ acc',
      members.foldlM
          (fun (acc : Merge) member => do
            let sub ← resolveLevels spec levels member
            let keywords ← sub.items
            keywords.foldlM Merge.keyword acc)
          acc =
        .ok acc' ∧
      Merged
        (parts ++ members.flatMap (leaves spec levels))
        acc' := by
  induction members generalizing parts acc with
  | nil =>
      refine ⟨acc, rfl, ?_⟩
      rw [List.flatMap_nil, List.append_nil]
      exact hMerged
  | cons member rest ih =>
      rcases hMembers member List.mem_cons_self with
        ⟨entries, hResolve, hSummary⟩
      rcases extends_keywords acc hSummary.shaped with
        ⟨next, hKeywords, hExtends⟩
      rcases ih
          (fun other hMem =>
            hMembers other (List.mem_cons_of_mem _ hMem))
          (hMerged.extends hSummary hExtends) with
        ⟨acc', hRest, hAcc'⟩
      refine ⟨acc', ?_, ?_⟩
      · rw [List.foldlM_cons, hResolve]
        simp only [Value.items]
        dsimp only [bind, Except.bind]
        rw [hKeywords]
        exact hRest
      · rw [List.flatMap_cons, ← List.append_assoc]
        exact hAcc'

/-
  A resolved schema is a mapping with what its leaves have,
  the last of them for the keywords that are not merged.
-/
theorem summary_resolveLevels
    (levels : ℕ)
    {schema : Value}
    (hSchemas :
      ∀ part, Reached spec schema part → IsSchema part) :
    ∃ entries,
      resolveLevels spec levels schema = .ok (.dict entries) ∧
        Summary (leaves spec levels schema) entries := by
  induction levels generalizing schema with
  | zero =>
      have hSelf := hSchemas schema ReflTransGen.refl
      refine ⟨keywords schema, ?_,
        summary_singleton hSelf.shaped⟩
      rcases hSelf.kind with rfl | ⟨entries, rfl⟩ <;> rfl
  | succ levels ih =>
      have hSelf := hSchemas schema ReflTransGen.refl
      rcases hSelf.kind with rfl | ⟨entries, rfl⟩
      · exact ⟨[], rfl, summary_singleton hSelf.shaped⟩
      have hRef := hSelf.ref
      have hAllOf := hSelf.allOf
      rw [keywords] at hRef hAllOf
      rw [leaves, keywords, resolveLevels]
      simp only [Value.isNone, Bool.false_eq_true, if_false,
        Value.contains, Value.item]
      cases hRefLookup : entries.lookup "$ref".toList with
      | some ref =>
          rcases hRef ref hRefLookup with ⟨s, rfl⟩
          rcases resolveRef_str spec s with ⟨target, hTarget⟩
          have hNext : Next spec (.dict entries) target :=
            .target hRefLookup hTarget
          dsimp only [bind, Except.bind]
          rw [hTarget]
          exact ih fun part hPart =>
            hSchemas part (hPart.head hNext)
      | none =>
          cases hAllLookup : entries.lookup "allOf".toList with
          | none =>
              exact ⟨entries, rfl,
                summary_singleton hSelf.shaped⟩
          | some allOf =>
              rcases hAllOf allOf hAllLookup with
                ⟨members, rfl⟩
              rcases merged_members
                  (fun member hMem =>
                    ih fun part hPart =>
                      hSchemas part
                        (hPart.head
                          (.member hAllLookup hMem)))
                  merged_nil with ⟨acc, hAcc, hMerged⟩
              rcases hMerged.finish with
                ⟨merged, hFinish, hSummary⟩
              refine ⟨merged, ?_, hSummary⟩
              refine bind_eq_ok.mpr ⟨false, rfl, ?_⟩
              rw [if_neg Bool.false_ne_true]
              refine bind_eq_ok.mpr ⟨true, rfl, ?_⟩
              rw [if_pos rfl]
              refine bind_eq_ok.mpr ⟨.list members, rfl, ?_⟩
              refine bind_eq_ok.mpr ⟨members, rfl, ?_⟩
              exact bind_eq_ok.mpr ⟨acc, hAcc, hFinish⟩

end AsyncapiDocs

------------------------------------------------------------
-- Lost Constraints
------------------------------------------------------------

namespace AsyncapiDocs

open Python (Str Value)
open Python.Value (Under)
open Relation

def IsChoice (key : Str) : Prop :=
  key = "oneOf".toList ∨ key = "anyOf".toList

/- A keyword that is neither followed nor merged. -/
structure IsOther (key : Str) : Prop where
  plain : IsPlain key
  ref : key ≠ "$ref".toList
  allOf : key ≠ "allOf".toList
  choice : ¬ IsChoice key

/- A resolved schema with everything that its schema has. -/
structure Complete
    (spec schema : Value)
    (result : List (Str × Value)) : Prop where
  noRef : result.lookup "$ref".toList = none
  properties :
    ∀ name,
      name ∈ propertyNames result ↔
        ∃ part, Reached spec schema part ∧
          name ∈ propertyNames (keywords part)
  required :
    ∀ part, Reached spec schema part →
      ∀ name ∈ requiredNames (keywords part),
        name ∈ requiredNames result
  choices :
    ∀ part key, Reached spec schema part → IsChoice key →
      ∀ choice ∈ alternatives ((keywords part).lookup key),
        choice ∈ alternatives (result.lookup key)
  beside :
    ∀ part key value, Reached spec schema part →
      ((keywords part).lookup "allOf".toList).isSome = true →
        IsOther key → (key, value) ∈ keywords part →
          result.lookup key = some value

def LosesNothing (spec schema : Value) : Prop :=
  ∃ result,
    resolveSchema spec schema 0 = .ok (.dict result) ∧
      Complete spec schema result

/-
  No reference is left at the last level. The leaves repeat
  what is written elsewhere, and the last of those that have
  a keyword repeats it for all of them.
-/
structure Repeats
    (spec schema : Value)
    (ends : List (List (Str × Value))) : Prop where
  noRef : ∀ leaf ∈ ends, leaf.lookup "$ref".toList = none
  properties :
    ∀ part, Reached spec schema part →
      ∀ name ∈ propertyNames (keywords part),
        ∃ leaf ∈ ends, name ∈ propertyNames leaf
  required :
    ∀ part, Reached spec schema part →
      ∀ name ∈ requiredNames (keywords part),
        ∃ leaf ∈ ends, name ∈ requiredNames leaf
  choices :
    ∀ part key, Reached spec schema part → IsChoice key →
      ∀ choice ∈ alternatives ((keywords part).lookup key),
        choice ∈ alternatives (lastOf key ends)
  beside :
    ∀ part key value, Reached spec schema part →
      ((keywords part).lookup "allOf".toList).isSome = true →
        IsOther key → (key, value) ∈ keywords part →
          lastOf key ends = some value

theorem IsChoice.plain
    {key : Str}
    (hChoice : IsChoice key) :
    IsPlain key := by
  rcases hChoice with rfl | rfl <;> constructor <;> decide

theorem isPlain_ref : IsPlain "$ref".toList := by
  constructor <;> decide

theorem complete_iff
    {spec schema : Value}
    {levels : ℕ}
    {result : List (Str × Value)}
    (hSummary : Summary (leaves spec levels schema) result) :
    Complete spec schema result ↔
      Repeats spec schema (leaves spec levels schema) := by
  have hChoice {key : Str} (hKey : IsChoice key) :
      result.lookup key =
        lastOf key (leaves spec levels schema) :=
    hSummary.plain key hKey.plain
  constructor
  · intro hAll
    refine ⟨?_, ?_, ?_, ?_, ?_⟩
    · rw [← lastOf_eq_none_iff, ← hSummary.plain _ isPlain_ref]
      exact hAll.noRef
    · intro part hPart name hName
      rw [← hSummary.properties, hAll.properties]
      exact ⟨part, hPart, hName⟩
    · intro part hPart name hName
      rw [← hSummary.required]
      exact hAll.required part hPart name hName
    · intro part key hPart hKey choice hMem
      rw [← hChoice hKey]
      exact hAll.choices part key hPart hKey choice hMem
    · intro part key value hPart hAllOf hKey hMem
      rw [← hSummary.plain key hKey.plain]
      exact hAll.beside part key value hPart hAllOf hKey hMem
  · intro hAll
    refine ⟨?_, ?_, ?_, ?_, ?_⟩
    · rw [hSummary.plain _ isPlain_ref, lastOf_eq_none_iff]
      exact hAll.noRef
    · intro name
      rw [hSummary.properties]
      constructor
      · rintro ⟨leaf, hLeaf, hName⟩
        rcases reached_of_mem_leaves hLeaf with
          ⟨part, hPart, rfl⟩
        exact ⟨part, hPart, hName⟩
      · rintro ⟨part, hPart, hName⟩
        exact hAll.properties part hPart name hName
    · intro part hPart name hName
      rw [hSummary.required]
      exact hAll.required part hPart name hName
    · intro part key hPart hKey choice hMem
      rw [hChoice hKey]
      exact hAll.choices part key hPart hKey choice hMem
    · intro part key value hPart hAllOf hKey hMem
      rw [hSummary.plain key hKey.plain]
      exact hAll.beside part key value hPart hAllOf hKey hMem

/-
  Resolving loses nothing of a schema exactly if its leaves
  within the depth bound repeat everything.
-/
theorem losesNothing_iff
    {spec schema : Value}
    (hSchemas :
      ∀ part, Reached spec schema part → IsSchema part) :
    LosesNothing spec schema ↔
      Repeats spec schema (leaves spec 11 schema) := by
  rcases summary_resolveLevels 11 hSchemas with
    ⟨result, hResolve, hSummary⟩
  rw [← complete_iff hSummary]
  constructor
  · rintro ⟨other, hOther, hComplete⟩
    rw [resolveSchema, hResolve] at hOther
    cases hOther
    exact hComplete
  · exact fun hComplete => ⟨result, hResolve, hComplete⟩

/- A schema that merges members. -/
def merging (members : List Value) : Value :=
  .dict [("allOf".toList, .list members)]

/- A member that leaves a choice between required names. -/
def requiring (names : List String) : Value :=
  .dict
    [("oneOf".toList,
      .list
        (names.map fun name =>
          .dict
            [("required".toList, .list [.str name.toList])]))]

/- The keywords of members without members of their own. -/
def IsMember (member : Value) : Prop :=
  ∃ entries, member = .dict entries ∧ Shaped entries ∧
    entries.lookup "$ref".toList = none ∧
      entries.lookup "allOf".toList = none

theorem isMember_requiring (names : List String) :
    IsMember (requiring names) :=
  ⟨_, rfl, ⟨by simp, by simp, by simp⟩, by simp, by simp⟩

theorem reached_merging
    {spec part : Value}
    {members : List Value}
    (hMembers : ∀ member ∈ members, IsMember member)
    (hReached : Reached spec (merging members) part) :
    part = merging members ∨ part ∈ members := by
  induction hReached with
  | refl => exact Or.inl rfl
  | tail _ hNext ih =>
      cases hNext with
      | target hRef _ =>
          rcases ih with rfl | hMem
          · cases hRef
          · rcases hMembers _ hMem with
              ⟨entries, rfl, _, hNone, _⟩
            rw [keywords, hNone] at hRef
            cases hRef
      | member hAllOf hMember =>
          rcases ih with rfl | hMem
          · cases hAllOf
            exact Or.inr hMember
          · rcases hMembers _ hMem with
              ⟨entries, rfl, _, _, hNone⟩
            rw [keywords, hNone] at hAllOf
            cases hAllOf

theorem isSchema_of_reached_merging
    {spec part : Value}
    {members : List Value}
    (hMembers : ∀ member ∈ members, IsMember member)
    (hReached : Reached spec (merging members) part) :
    IsSchema part := by
  rcases reached_merging hMembers hReached with rfl | hMem
  · have hShaped : Shaped (keywords (merging members)) := by
      constructor <;> simp [merging, keywords]
    refine ⟨Or.inr ⟨_, rfl⟩, hShaped, ?_, ?_⟩
    · intro value hRef
      cases hRef
    · intro value hAllOf
      cases hAllOf
      exact ⟨members, rfl⟩
  · rcases hMembers part hMem with
      ⟨entries, rfl, hShaped, hRef, hAllOf⟩
    refine ⟨Or.inr ⟨_, rfl⟩, hShaped, ?_, ?_⟩
    · intro value hValue
      rw [keywords, hRef] at hValue
      cases hValue
    · intro value hValue
      rw [keywords, hAllOf] at hValue
      cases hValue

/- A unit, and the choice of it or of a text. -/
def unitMember : Value :=
  .dict
    [("properties".toList,
      .dict [("engUnit".toList, .dict [])]),
    ("required".toList, .list [.str "engUnit".toList])]

theorem isMember_unitMember : IsMember unitMember := by
  refine ⟨_, rfl, ⟨by decide, ?_, ?_⟩, by decide, by decide⟩
  · intro value hMem
    simp at hMem
    exact ⟨_, hMem⟩
  · intro value hMem
    simp at hMem
    exact ⟨_, hMem, by simp [Texts]⟩

/- One unit, which a choice of one name requires again. -/
def unitMode : Value :=
  merging [unitMember, requiring ["engUnit"]]

theorem losesNothing_iff_unitMode :
    LosesNothing (.dict []) unitMode := by
  have hMembers :
      ∀ member ∈ [unitMember, requiring ["engUnit"]],
        IsMember member := by
    simp [isMember_unitMember, isMember_requiring]
  have hEnds :
      leaves (.dict []) 11 unitMode =
        [keywords unitMember,
          keywords (requiring ["engUnit"])] :=
    rfl
  apply
    (losesNothing_iff fun part =>
      isSchema_of_reached_merging hMembers).mpr
  rw [← unitMode, hEnds]
  have hParts {part : Value} {P : Value → Prop}
      (hReached : Reached (.dict []) unitMode part)
      (hWhole : P unitMode)
      (hUnit : P unitMember)
      (hChoice : P (requiring ["engUnit"])) :
      P part := by
    rcases reached_merging hMembers hReached with rfl | hMem
    · exact hWhole
    · rw [List.mem_pair] at hMem
      rcases hMem with rfl | rfl
      · exact hUnit
      · exact hChoice
  refine ⟨by decide, ?_, ?_, ?_, ?_⟩
  · intro part hPart
    apply hParts hPart <;> decide
  · intro part hPart
    apply hParts hPart <;> decide
  · rintro part key hPart (rfl | rfl)
    · apply hParts hPart <;> decide
    · apply hParts hPart <;> decide
  · intro part key value hPart
    apply hParts hPart
    · intro _ hKey hMem
      have hEntry := List.mem_singleton.mp hMem
      exact absurd (congrArg Prod.fst hEntry) hKey.allOf
    · intro hAllOf
      cases hAllOf
    · intro hAllOf
      cases hAllOf

/- Two choices that hold independently of each other. -/
def modeSchema : Value :=
  merging
    [requiring ["objectName", "associateId"],
      requiring ["engUnit", "stateText"]]

def modeSpec : Value :=
  .dict
    [("components".toList,
      .dict
        [("schemas".toList,
          .dict [("ModeBase".toList, modeSchema)])])]

/- Without references no schema comes back to itself. -/
theorem acyclic_of_noRef
    {spec : Value}
    (hNone :
      ∀ part, Under spec part →
        (keywords part).lookup "$ref".toList = none) :
    Acyclic spec := by
  intro schema hUnder hCycle
  have hInside :
      ∀ last, TransGen (Next spec) schema last →
        Under spec last ∧ sizeOf last < sizeOf schema := by
    intro last hPath
    have hNext :
        ∀ {a b : Value}, Under spec a → Next spec a b →
          Under spec b ∧ sizeOf b < sizeOf a := by
      intro a b hA hStep
      cases hStep with
      | target hRef _ =>
          rw [hNone a hA] at hRef
          cases hRef
      | member hAllOf hMem =>
          cases a with
          | dict entries =>
              have hAll : Value.Child (.dict entries) _ :=
                .entry (Python.mem_of_lookup hAllOf)
              have hItem : Value.Child _ b := .item hMem
              exact ⟨(hA.tail hAll).tail hItem,
                hItem.sizeOf_lt.trans hAll.sizeOf_lt⟩
          | _ => cases hAllOf
    induction hPath with
    | single hStep => exact hNext hUnder hStep
    | tail _ hStep ih =>
        have hMore := hNext ih.1 hStep
        exact ⟨hMore.1, hMore.2.trans ih.2⟩
  exact (hInside schema hCycle).2.false

/- The first choice is overwritten by the second one. -/
theorem not_losesNothing_twoChoices :
    ¬ ∀ spec schema : Value,
      Acyclic spec → Under spec schema →
        (∀ part, Reached spec schema part → IsSchema part) →
          LosesNothing spec schema := by
  intro hClaim
  have hAcyclic : Acyclic modeSpec := by
    apply acyclic_of_noRef
    intro part hUnder
    have hPart :=
      Value.of_all
        (p := fun part =>
          ((keywords part).lookup "$ref".toList).isNone)
        (by decide) hUnder
    exact Option.isNone_iff_eq_none.mp hPart
  have hUnder : Under modeSpec modeSchema :=
    ((ReflTransGen.single
      (.entry List.mem_cons_self)).tail
        (.entry List.mem_cons_self)).tail
          (.entry List.mem_cons_self)
  have hMembers :
      ∀ member ∈
          [requiring ["objectName", "associateId"],
            requiring ["engUnit", "stateText"]],
        IsMember member := by
    simp [isMember_requiring]
  rcases hClaim modeSpec modeSchema hAcyclic hUnder
      (fun part => isSchema_of_reached_merging hMembers) with
    ⟨result, hResolve, hComplete⟩
  have hResult :
      result = keywords (requiring ["engUnit", "stateText"]) := by
    cases hResolve
    rfl
  have hMem :=
    hComplete.choices (requiring ["objectName", "associateId"])
      "oneOf".toList
      (ReflTransGen.single
        (.member rfl List.mem_cons_self))
      (Or.inl rfl)
      (.dict
        [("required".toList,
          .list [.str "objectName".toList])])
      (by decide)
  rw [hResult] at hMem
  revert hMem
  decide

end AsyncapiDocs
