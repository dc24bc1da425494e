import DsxExchange.AsyncapiDocs.Flattening
import DsxExchange.AsyncapiDocs.Termination

/-
  The names of properties that the tables show: a schema is
  shown either by rows or by its variants.

  Key definitions include:
    * `AsyncapiDocs.VariantName`
    * `AsyncapiDocs.Documented`
    * `AsyncapiDocs.HasRows`, `AsyncapiDocs.Laid`

  Key theorems include:
    * `AsyncapiDocs.collectLevels_rows`
    * `AsyncapiDocs.infix_renderLevels`
    * `AsyncapiDocs.documented_of_laid`
-/

------------------------------------------------------------
-- Names in Rows
------------------------------------------------------------

namespace AsyncapiDocs

open Python (Str Value PyError bind_eq_ok foldlM_grows)

variable {formats : Formats} {spec : Value}
variable {schemaDoc : Option Str}

/- What collects rows only adds to the rows before it. -/
def Grows (expand : Expand) : Prop :=
  ∀ props required start before after,
    expand props required start before = .ok after →
      before <+: after

theorem collectRow_grows
    {expand : Option Expand}
    {required : List Value}
    {start : Str}
    {before after : List Row}
    {prop : Str × Value}
    (hExpand : ∀ inner ∈ expand, Grows inner)
    (hCollect :
      collectRow formats spec schemaDoc expand required start
          before prop =
        .ok after) :
    before <+: after ∧
      ∃ row ∈ after, row.name = start ++ prop.1 := by
  unfold collectRow at hCollect
  simp only [bind_eq_ok] at hCollect
  rcases hCollect with
    ⟨resolved, _, isRef, _, type, _, desc, _, hRest⟩
  have hRow {rows : List Row} {row : Row}
      (hName : row.name = start ++ prop.1)
      (hGrows : before ++ [row] <+: rows) :
      before <+: rows ∧
        ∃ row ∈ rows, row.name = start ++ prop.1 :=
    ⟨(List.prefix_append before [row]).trans hGrows,
      row, hGrows.subset (by simp), hName⟩
  cases expand with
  | none =>
      cases hRest
      exact hRow rfl List.prefix_rfl
  | some inner =>
      simp only [bind_eq_ok] at hRest
      rcases hRest with ⟨kind, _, hRest⟩
      split at hRest
      · cases hRest
        exact hRow rfl List.prefix_rfl
      · rw [bind_eq_ok] at hRest
        rcases hRest with ⟨props, _, hRest⟩
        split at hRest
        · simp only [bind_eq_ok] at hRest
          rcases hRest with ⟨names, _, others, _, hInner⟩
          exact hRow rfl (hExpand inner rfl _ _ _ _ _ hInner)
        · cases hRest
          exact hRow rfl List.prefix_rfl

/- Every property of a mapping has a row. -/
theorem collectWith_grows
    {expand : Option Expand}
    {props : Value}
    {required : List Value}
    {start : Str}
    {before after : List Row}
    (hExpand : ∀ inner ∈ expand, Grows inner)
    (hCollect :
      collectWith formats spec schemaDoc expand props required
          start before =
        .ok after) :
    ∃ entries, props.items = .ok entries ∧
      before <+: after ∧
        ∀ prop ∈ entries,
          ∃ row ∈ after, row.name = start ++ prop.1 := by
  rw [collectWith, bind_eq_ok] at hCollect
  rcases hCollect with ⟨entries, hItems, hFold⟩
  exact ⟨entries, hItems,
    foldlM_grows hFold fun _ _ _ _ hRow =>
      collectRow_grows hExpand hRow⟩

theorem grows_collectLevels
    (levels : ℕ) :
    Grows (collectLevels formats spec schemaDoc levels) := by
  induction levels with
  | zero =>
      intro props required start before after hCollect
      rcases collectWith_grows (by simp) hCollect with
        ⟨_, _, hGrows, _⟩
      exact hGrows
  | succ levels ih =>
      intro props required start before after hCollect
      rcases collectWith_grows (by simpa using ih)
          hCollect with
        ⟨_, _, hGrows, _⟩
      exact hGrows

theorem collectLevels_rows
    {levels : ℕ}
    {props : List (Str × Value)}
    {required : List Value}
    {start : Str}
    {before after : List Row}
    (hCollect :
      collectLevels formats spec schemaDoc levels (.dict props)
          required start before =
        .ok after) :
    ∀ prop ∈ props,
      ∃ row ∈ after, row.name = start ++ prop.1 := by
  have hWith :
      ∃ expand : Option Expand,
        (∀ inner ∈ expand, Grows inner) ∧
          collectLevels formats spec schemaDoc levels =
            collectWith formats spec schemaDoc expand := by
    cases levels with
    | zero => exact ⟨none, by simp, rfl⟩
    | succ levels =>
        refine ⟨_, ?_, rfl⟩
        simpa using
          @grows_collectLevels formats spec schemaDoc levels
  rcases hWith with ⟨expand, hExpand, hEq⟩
  rw [hEq] at hCollect
  rcases collectWith_grows hExpand hCollect with
    ⟨entries, hItems, _, hRows⟩
  cases hItems
  exact hRows

theorem infix_rowLine
    {row : Row}
    {line : Str}
    (hLine : rowLine formats row = .ok line) :
    row.name <:+: line := by
  rw [rowLine, bind_eq_ok] at hLine
  rcases hLine with ⟨cell, _, hLine⟩
  cases hLine
  simp only [List.append_assoc]
  exact List.infix_append' _ _ _

/- The table of a schema has the names of its properties. -/
theorem infix_renderRows
    {levels : ℕ}
    {start text name : Str}
    {entries : List (Str × Value)}
    (hRender :
      renderRows formats schemaDoc
          (collectLevels formats spec schemaDoc levels) start
          (.dict entries) =
        .ok text)
    (hName : name ∈ propertyNames entries) :
    start ++ name <:+: text := by
  unfold propertyNames at hName
  split at hName
  next props hProps =>
    rcases List.mem_map.mp hName with ⟨prop, hProp, rfl⟩
    have hTruthy : (Value.dict props).truthy = true := by
      cases props with
      | nil => exact absurd hProp List.not_mem_nil
      | cons first rest => rfl
    unfold renderRows at hRender
    simp only [Value.get, hProps, Option.getD_some,
      bind_eq_ok] at hRender
    rcases hRender with
      ⟨_, hSame, names, _, required, _, hRender⟩
    cases hSame
    rw [if_pos hTruthy, bind_eq_ok] at hRender
    rcases hRender with ⟨rows, hCollect, hRender⟩
    rcases collectLevels_rows hCollect prop hProp with
      ⟨row, hRow, hRowName⟩
    have hSome : rows.isEmpty = false := by
      cases rows with
      | nil => exact absurd hRow List.not_mem_nil
      | cons first rest => rfl
    rw [hSome] at hRender
    simp only [Bool.false_eq_true, if_false,
      bind_eq_ok] at hRender
    rcases hRender with ⟨lines, hLines, hText⟩
    cases hText
    rcases Python.mapM_ok hLines row hRow with
      ⟨line, hLine, hRowLine⟩
    rw [← hRowName]
    apply (infix_rowLine hRowLine).trans
    apply List.infix_append_of_infix_left
    exact Python.infix_unlines
      (List.mem_append_right _ hLine)
  next => exact absurd hName List.not_mem_nil

end AsyncapiDocs

------------------------------------------------------------
-- Names in Variants
------------------------------------------------------------

namespace AsyncapiDocs

open Python (Str Value PyError bind_eq_ok foldlM_grows)

variable {formats : Formats} {spec : Value}
variable {schemaDoc : Option Str}

/- A schema is shown by rows, and not by its variants. -/
def HasRows (levels : ℕ) (schema : Value) : Prop :=
  levels = 0 ∨
    ∀ key, IsChoice key → (keywords schema).lookup key = none

theorem infix_renderLevels
    {levels : ℕ}
    {start text : Str}
    {schema resolved : Value}
    (hResolve : resolveSchema spec schema 0 = .ok resolved)
    (hRender :
      renderLevels formats spec schemaDoc levels start
          schema =
        .ok text)
    (hRows : HasRows levels resolved) :
    ∀ name ∈ propertyNames (keywords resolved),
      start ++ name <:+: text := by
  intro name hName
  cases resolved with
  | dict entries =>
      have hSome : schema.isNone = false := by
        cases schema with
        | none =>
            cases hResolve
            exact absurd hName List.not_mem_nil
        | _ => rfl
      cases levels with
      | zero =>
          rw [renderLevels, hSome] at hRender
          simp only [Bool.false_eq_true, if_false, hResolve,
            bind_eq_ok] at hRender
          rcases hRender with
            ⟨_, hSame, _, _, _, _, hRender⟩
          cases hSame
          exact infix_renderRows hRender hName
      | succ levels =>
          have hNone :=
            hRows.resolve_left (Nat.succ_ne_zero levels)
          have hOneOf := hNone _ (Or.inl rfl)
          have hAnyOf := hNone _ (Or.inr rfl)
          rw [keywords] at hOneOf hAnyOf
          rw [renderLevels, hSome] at hRender
          simp only [Bool.false_eq_true, if_false, hResolve,
            bind_eq_ok] at hRender
          rcases hRender with ⟨_, hSame, hRender⟩
          cases hSame
          simp only [Value.contains, hOneOf, hAnyOf] at hRender
          rcases hRender with ⟨_, hSame, hRender⟩
          cases hSame
          rw [Option.isSome_none,
            if_neg Bool.false_ne_true, bind_eq_ok] at hRender
          rcases hRender with ⟨_, hSame, hRender⟩
          cases hSame
          rw [if_neg Bool.false_ne_true] at hRender
          exact infix_renderRows hRender hName
  | _ => exact absurd hName List.not_mem_nil

/- A variant adds its table to the parts. -/
theorem renderVariant_grows
    {render : Value → Except PyError Str}
    {before after : List Str}
    {variant : ℕ × Value}
    (hRender :
      renderVariant formats spec render before variant =
        .ok after) :
    before <+: after ∧
      ∃ table ∈ after, ∃ resolved,
        resolveSchema spec variant.2 0 = .ok resolved ∧
          render resolved = .ok table := by
  unfold renderVariant at hRender
  simp only [bind_eq_ok] at hRender
  rcases hRender with
    ⟨resolved, hResolve, head, _, table, hTable, hRender⟩
  split at hRender
  · cases hRender
    refine ⟨?_, table, by simp, resolved, hResolve, hTable⟩
    rw [List.append_assoc]
    exact List.prefix_append _ _
  next hEmpty =>
    cases hRender
    refine ⟨?_, table, ?_, resolved, hResolve, hTable⟩
    · rw [List.append_assoc]
      exact List.prefix_append _ _
    · rw [not_ne_iff.mp hEmpty]
      simp

/- The table of each variant stands in the text. -/
theorem infix_renderOneof
    {render : Value → Except PyError Str}
    {key text : Str}
    {schema variant : Value}
    (hRender :
      renderOneof formats spec render key schema = .ok text)
    (hVariant :
      variant ∈ alternatives ((keywords schema).lookup key)) :
    ∃ table resolved,
      resolveSchema spec variant 0 = .ok resolved ∧
        render resolved = .ok table ∧ table <:+: text := by
  cases schema with
  | dict entries =>
      unfold alternatives keywords at hVariant
      split at hVariant
      next variants hVariants =>
        unfold renderOneof at hRender
        simp only [Value.get, hVariants, Option.getD_some,
          bind_eq_ok] at hRender
        rcases hRender with ⟨_, hSame, desc, _, hRender⟩
        cases hSame
        have hParts :
            ∃ head parts,
              (variants.zipIdx.map Prod.swap).foldlM
                  (renderVariant formats spec render) head =
                .ok parts ∧
              Python.unlines parts = text := by
          split at hRender
          · simp only [bind_eq_ok] at hRender
            rcases hRender with
              ⟨_, _, head, _, each, hEach, parts, hFold, hText⟩
            cases hEach
            cases hText
            exact ⟨head, parts, hFold, rfl⟩
          · simp only [bind_eq_ok] at hRender
            rcases hRender with
              ⟨head, _, each, hEach, parts, hFold, hText⟩
            cases hEach
            cases hText
            exact ⟨head, parts, hFold, rfl⟩
        rcases hParts with ⟨head, parts, hFold, rfl⟩
        have hGrown :=
          foldlM_grows hFold fun _ _ _ _ hStep =>
            renderVariant_grows hStep
        rcases List.getElem_of_mem hVariant with
          ⟨i, hIndex, hItem⟩
        have hMem :
            (i, variant) ∈ variants.zipIdx.map Prod.swap := by
          rw [List.mem_map]
          refine ⟨(variant, i), ?_, rfl⟩
          rw [List.mk_mem_zipIdx_iff_getElem?, ← hItem]
          exact List.getElem?_eq_getElem hIndex
        rcases hGrown.2 _ hMem with
          ⟨table, hTable, resolved, hResolve, hRendered⟩
        exact ⟨table, resolved, hResolve, hRendered,
          Python.infix_unlines hTable⟩
      next => exact absurd hVariant List.not_mem_nil
  | _ => exact absurd hVariant List.not_mem_nil

end AsyncapiDocs

------------------------------------------------------------
-- Documented Schemas
------------------------------------------------------------

namespace AsyncapiDocs

open Python (Str Value bind_eq_ok)

variable {formats : Formats} {spec : Value}
variable {schemaDoc : Option Str}

/- The name of a property of a variant. -/
def VariantName
    (spec schema : Value)
    (key name : Str) : Prop :=
  ∃ variant ∈ alternatives ((keywords schema).lookup key),
    ∃ resolved,
      resolveSchema spec variant 0 = .ok resolved ∧
        name ∈ propertyNames (keywords resolved)

/- The text of a schema has all names of properties. -/
def Documented
    (formats : Formats)
    (spec : Value)
    (schemaDoc : Option Str)
    (maxDepth : ℕ)
    (schema : Value) : Prop :=
  ∀ resolved text,
    resolveSchema spec schema 0 = .ok resolved →
      renderPropertyTable formats spec schemaDoc 0 maxDepth []
          schema =
        .ok text →
      (∀ name ∈ propertyNames (keywords resolved),
        name <:+: text) ∧
        ∀ key name, IsChoice key →
          VariantName spec resolved key name →
            name <:+: text

/- The variants of the keyword are those that are shown. -/
structure ShowsVariants
    (levels : ℕ)
    (schema : Value)
    (key : Str) : Prop where
  deep : 0 < levels
  present : ((keywords schema).lookup key).isSome = true
  first :
    key = "anyOf".toList →
      (keywords schema).lookup "oneOf".toList = none

/- Variants with properties are shown by rows. -/
def VariantsHaveRows
    (spec : Value)
    (levels : ℕ)
    (schema : Value)
    (key : Str) : Prop :=
  ∀ variant ∈ alternatives ((keywords schema).lookup key),
    ∀ resolved again,
      resolveSchema spec variant 0 = .ok resolved →
        resolveSchema spec resolved 0 = .ok again →
          propertyNames (keywords resolved) = [] ∨
            (HasRows levels again ∧
              ∀ name ∈ propertyNames (keywords resolved),
                name ∈ propertyNames (keywords again))

/-
  A resolved schema without properties beside the variants
  that are shown, or variants beside the rows.
-/
structure Laid
    (spec : Value)
    (maxDepth : ℕ)
    (resolved : Value) : Prop where
  rows :
    propertyNames (keywords resolved) = [] ∨
      HasRows maxDepth resolved
  variants :
    ∀ key, IsChoice key →
      (∀ name, ¬ VariantName spec resolved key name) ∨
        (ShowsVariants maxDepth resolved key ∧
          VariantsHaveRows spec (maxDepth - 1) resolved key)

theorem renderLevels_variants
    {levels : ℕ}
    {start key text : Str}
    {schema resolved : Value}
    (hResolve : resolveSchema spec schema 0 = .ok resolved)
    (hKey : IsChoice key)
    (hShows : ShowsVariants (levels + 1) resolved key)
    (hRender :
      renderLevels formats spec schemaDoc (levels + 1) start
          schema =
        .ok text) :
    renderOneof formats spec
        (renderLevels formats spec schemaDoc levels []) key
        resolved =
      .ok text := by
  have hPresent := hShows.present
  have hSome : schema.isNone = false := by
    cases schema with
    | none =>
        cases hResolve
        cases hPresent
    | _ => rfl
  rw [renderLevels, hSome] at hRender
  simp only [Bool.false_eq_true, if_false, hResolve,
    bind_eq_ok] at hRender
  rcases hRender with ⟨_, hSame, oneOf, hOneOf, hRender⟩
  cases hSame
  cases resolved with
  | dict entries =>
      rw [keywords] at hPresent
      cases hOneOf
      rcases hKey with rfl | rfl
      · rw [if_pos hPresent] at hRender
        exact hRender
      · have hNone := hShows.first rfl
        rw [keywords] at hNone
        rw [hNone, Option.isSome_none,
          if_neg Bool.false_ne_true, bind_eq_ok] at hRender
        rcases hRender with ⟨anyOf, hAnyOf, hRender⟩
        cases hAnyOf
        rw [if_pos hPresent] at hRender
        exact hRender
  | _ => cases hPresent

theorem resolves_of_renderLevels
    {levels : ℕ}
    {start text : Str}
    {schema : Value}
    (hRender :
      renderLevels formats spec schemaDoc levels start
          schema =
        .ok text) :
    ∃ resolved, resolveSchema spec schema 0 = .ok resolved := by
  cases hNone : schema.isNone with
  | true =>
      refine ⟨.dict [], ?_⟩
      rw [resolveSchema_eq, if_pos hNone]
  | false =>
      cases levels with
      | zero =>
          rw [renderLevels, hNone,
            if_neg Bool.false_ne_true, bind_eq_ok] at hRender
          exact hRender.imp fun _ hStep => hStep.1
      | succ levels =>
          rw [renderLevels, hNone,
            if_neg Bool.false_ne_true, bind_eq_ok] at hRender
          exact hRender.imp fun _ hStep => hStep.1

/-
  Every name of a property is in the text if the layout that
  is chosen leaves out no group of properties.
-/
theorem documented_of_laid
    (formats : Formats)
    (schemaDoc : Option Str)
    {spec schema : Value}
    {maxDepth : ℕ}
    (hLaid :
      ∀ resolved,
        resolveSchema spec schema 0 = .ok resolved →
          Laid spec maxDepth resolved) :
    Documented formats spec schemaDoc maxDepth schema := by
  intro resolved text hResolve hRender
  have hLayout := hLaid resolved hResolve
  rw [renderPropertyTable, Nat.sub_zero] at hRender
  constructor
  · intro name hName
    rcases hLayout.rows with hNone | hRows
    · rw [hNone] at hName
      exact absurd hName List.not_mem_nil
    · exact infix_renderLevels hResolve hRender hRows name hName
  · rintro key name hKey hVariantName
    rcases hLayout.variants key hKey with
      hNone | ⟨hShows, hHaveRows⟩
    · exact absurd hVariantName (hNone name)
    rcases hVariantName with
      ⟨variant, hVariant, found, hFound, hName⟩
    cases maxDepth with
    | zero => exact absurd hShows.deep (lt_irrefl 0)
    | succ levels =>
        have hOneof :=
          renderLevels_variants hResolve hKey hShows hRender
        rcases infix_renderOneof hOneof hVariant with
          ⟨table, same, hSame, hTable, hInfix⟩
        rw [hFound] at hSame
        cases hSame
        rcases resolves_of_renderLevels hTable with
          ⟨again, hAgain⟩
        rcases hHaveRows variant hVariant found again hFound
            hAgain with hNone | ⟨hRows, hKept⟩
        · rw [hNone] at hName
          exact absurd hName List.not_mem_nil
        · exact (infix_renderLevels hAgain hTable hRows name
            (hKept name hName)).trans hInfix

/- Only the variants and the description are shown. -/
theorem renderOneof_congr
    {render : Value → Except Python.PyError Str}
    {key : Str}
    {entries others : List (Str × Value)}
    (hVariants : entries.lookup key = others.lookup key)
    (hDesc :
      entries.lookup "description".toList =
        others.lookup "description".toList) :
    renderOneof formats spec render key (.dict entries) =
      renderOneof formats spec render key (.dict others) := by
  unfold renderOneof
  rw [Value.get, Value.get, Value.get, Value.get, hVariants,
    hDesc]

/- A schema with properties that are texts. -/
def reading (names : List String) : List (Str × Value) :=
  [("properties".toList,
    .dict
      (names.map fun name =>
        (name.toList,
          .dict [("type".toList, .str "string".toList)])))]

/- A schema with two variants, and with other keywords. -/
def unitOrState
    (entries : List (Str × Value)) : Value :=
  .dict
    (entries ++
      [("oneOf".toList,
        .list
          [.dict (reading ["engUnit"]),
            .dict (reading ["stateText"])])])

theorem documented_of_laid_unitOrState :
    ∃ text,
      renderPropertyTable plainFormats (.dict []) none 0 2 []
          (unitOrState []) =
        .ok text ∧
      "stateText".toList <:+: text := by
  suffices hDocumented :
      Documented plainFormats (.dict []) none 2
        (unitOrState []) by
    refine ⟨_, rfl, ?_⟩
    refine (hDocumented _ _ rfl rfl).2 "oneOf".toList _
      (Or.inl rfl) ?_
    exact ⟨_, List.mem_cons_of_mem _ List.mem_cons_self, _,
      rfl, List.mem_cons_self⟩
  apply documented_of_laid
  intro resolved hResolve
  cases hResolve
  refine ⟨Or.inl rfl, ?_⟩
  rintro key (rfl | rfl)
  · have hOther : "oneOf".toList ≠ "anyOf".toList := by
      decide
    refine Or.inr ⟨⟨Nat.zero_lt_two, rfl,
      fun hKey => absurd hKey hOther⟩, ?_⟩
    intro variant hVariant resolved again hResolve hAgain
    have hVariants :
        variant = .dict (reading ["engUnit"]) ∨
          variant = .dict (reading ["stateText"]) :=
      List.mem_pair.mp hVariant
    rcases hVariants with rfl | rfl
    all_goals
      cases hResolve
      cases hAgain
      refine Or.inr ⟨Or.inr ?_, fun _ hName => hName⟩
      rintro key (rfl | rfl) <;> rfl
  · refine Or.inl ?_
    rintro name ⟨variant, hVariant, _⟩
    cases hVariant

def readingSpec : Value :=
  .dict
    [("components".toList,
      .dict
        [("schemas".toList,
          .dict
            [("Reading".toList,
              unitOrState (reading ["sensorId"]))])])]

/- The property beside the variants is left out. -/
theorem not_documented_besideVariants :
    ¬ ∀ (formats : Formats) (spec schema : Value),
      Acyclic spec → Value.Under spec schema →
        Documented formats spec none 2 schema := by
  intro hClaim
  have hAcyclic : Acyclic readingSpec := by
    apply acyclic_of_noRef
    intro part hUnder
    have hPart :=
      Value.of_all
        (p := fun part =>
          ((keywords part).lookup "$ref".toList).isNone)
        (by decide) hUnder
    exact Option.isNone_iff_eq_none.mp hPart
  have hUnder :
      Value.Under readingSpec
        (unitOrState (reading ["sensorId"])) :=
    ((Relation.ReflTransGen.single
      (.entry List.mem_cons_self)).tail
        (.entry List.mem_cons_self)).tail
          (.entry List.mem_cons_self)
  have hText :
      (renderPropertyTable plainFormats readingSpec none 0 2
          [] (unitOrState (reading ["sensorId"]))).toOption.any
          (fun text => !decide ("sensorId".toList <:+: text)) =
        true := by
    decide +kernel
  cases hRender :
      renderPropertyTable plainFormats readingSpec none 0 2 []
        (unitOrState (reading ["sensorId"])) with
  | error error =>
      rw [hRender] at hText
      cases hText
  | ok text =>
      rw [hRender] at hText
      change (!decide ("sensorId".toList <:+: text)) = true
        at hText
      have hShown :=
        (hClaim plainFormats readingSpec _ hAcyclic hUnder _
          text rfl hRender).1 "sensorId".toList
          List.mem_cons_self
      rw [decide_eq_true hShown] at hText
      cases hText

end AsyncapiDocs
