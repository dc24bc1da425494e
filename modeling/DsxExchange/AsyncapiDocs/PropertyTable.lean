import DsxExchange.AsyncapiDocs.Schema

/-
  The tables of a schema's properties, and the sections of
  its alternatives, to a bounded depth.

  Key definitions include:
    * `AsyncapiDocs.collectRows`
    * `AsyncapiDocs.renderOneof`
    * `AsyncapiDocs.renderPropertyTable`

  Key theorems include:
    * `AsyncapiDocs.collectRows_eq`
    * `AsyncapiDocs.renderPropertyTable_eq`
-/

------------------------------------------------------------
-- Rows
------------------------------------------------------------

namespace AsyncapiDocs

open Python (Str Value PyError)

/- `value += text`, for a value that has it. -/
def addText (text : Str) : Value → Except PyError Value
| .str s => .ok (.str (s ++ text))
| .list items =>
    .ok (.list (items ++ text.map fun c => .str [c]))
| _ => .error .typeError

/- Values in backticks, with commas between them. -/
def quoted (formats : Formats) (values : List Value) : Str :=
  ", ".toList.intercalate
    (values.map fun value =>
      '`' :: formats.str value ++ "`".toList)

/- The first values of an enumeration, and their number. -/
def enumText
    (formats : Formats)
    (count : ℕ)
    (dots : Str)
    (values : Value) : Except PyError Str := do
  let shown ← values.sliceTo count
  let total ← values.len
  if total > count then
    return quoted formats shown ++ dots ++
      (toString total).toList ++ " total)".toList
  else
    return quoted formats shown

/- The name, the type, whether it is required, the text. -/
structure Row where
  name : Str
  type : Value
  required : Bool
  desc : Value

/- The description of a property in its row. -/
def rowDesc
    (formats : Formats)
    (resolved : Value) : Except PyError Value := do
  let given ← resolved.get "description".toList (.str [])
  let desc := if given.truthy then given else .str []
  let enum ← resolved.get "enum".toList .none
  let desc ←
    if enum.truthy then do
      let vals ←
        enumText formats 8 ", ... (".toList enum
      let text ← desc.text
      let text := Python.rstrip text
      let text := if text ≠ [] then text ++ [' '] else text
      .ok (.str (text ++ "Values: ".toList ++ vals))
    else
      .ok desc
  let const ← resolved.get "const".toList .none
  if const.isNone then
    return desc
  else
    addText
      (" Must be `".toList ++ formats.str const ++
        "`.".toList)
      desc

/- The properties below a property with their prefix. -/
abbrev Expand :=
  Value → List Value → Str → List Row →
    Except PyError (List Row)

/- One property of `_collect_rows`, and those below it. -/
def collectRow
    (formats : Formats)
    (spec : Value)
    (schemaDoc : Option Str)
    (expand : Option Expand)
    (required : List Value)
    (start : Str)
    (rows : List Row)
    (prop : Str × Value) : Except PyError (List Row) := do
  let fullName := start ++ prop.1
  let resolved ← resolveSchema spec prop.2 0
  let isRef ← prop.2.contains "$ref".toList
  let type ←
    typeStr formats schemaDoc
      (if isRef then prop.2 else resolved)
  let desc ← rowDesc formats resolved
  let rows :=
    rows ++
      [⟨fullName, type, required.any (· == .str prop.1), desc⟩]
  match expand with
  | none => return rows
  | some expand =>
      let type ← resolved.get "type".toList .none
      if !type.isText "object".toList then
        return rows
      else
        let inner ← resolved.get "properties".toList .none
        if inner.truthy then
          let names ← resolved.get "required".toList (.list [])
          let innerRequired ← names.toSet
          expand inner innerRequired (fullName ++ ['.']) rows
        else
          return rows

/- The loop of `_collect_rows`. -/
def collectWith
    (formats : Formats)
    (spec : Value)
    (schemaDoc : Option Str)
    (expand : Option Expand) : Expand :=
  fun props required start rows => do
    let entries ← props.items
    entries.foldlM
      (collectRow formats spec schemaDoc expand required start)
      rows

/- `_collect_rows`, with so many levels to its depth bound. -/
def collectLevels
    (formats : Formats)
    (spec : Value)
    (schemaDoc : Option Str) :
    ℕ → Expand
| 0 => collectWith formats spec schemaDoc none
| levels + 1 =>
    collectWith formats spec schemaDoc
      (some (collectLevels formats spec schemaDoc levels))

/- `_collect_rows`. -/
def collectRows
    (formats : Formats)
    (spec : Value)
    (schemaDoc : Option Str)
    (depth maxDepth : ℕ) : Expand :=
  collectLevels formats spec schemaDoc (maxDepth - depth)

/- The recursion of the source, with its guard. -/
theorem collectRows_eq
    (formats : Formats)
    (spec : Value)
    (schemaDoc : Option Str)
    (depth maxDepth : ℕ) :
    collectRows formats spec schemaDoc depth maxDepth =
      collectWith formats spec schemaDoc
        (if depth < maxDepth then
          some
            (collectRows formats spec schemaDoc (depth + 1)
              maxDepth)
        else
          none) := by
  unfold collectRows
  by_cases hDepth : depth < maxDepth
  · have hLevels :
        maxDepth - depth = maxDepth - (depth + 1) + 1 := by
      omega
    rw [hLevels, if_pos hDepth]
    rfl
  · have hLevels : maxDepth - depth = 0 := by omega
    rw [hLevels, if_neg hDepth]
    rfl

end AsyncapiDocs

------------------------------------------------------------
-- Alternatives
------------------------------------------------------------

namespace AsyncapiDocs

open Python (Str Value PyError)

/- The pattern `[*_]`. -/
def isMark (c : Char) : Bool :=
  c = '*' || c = '_'

/- The pattern `(.+?)[*_]`, and its group. -/
def emphasised : Str → Option Str
| [] => none
| c :: rest =>
    let text :=
      rest.takeWhile fun c => !isMark c && c ≠ '\n'
    if c ≠ '\n' ∧ (rest.drop text.length).head?.any isMark then
      some (c :: text)
    else
      none

/- The pattern `^[*_]{1,2}(.+?)[*_]{1,2}`, and its group. -/
def markedLabel : Str → Option Str
| a :: b :: rest =>
    if isMark a then
      if isMark b then
        emphasised rest <|> emphasised (b :: rest)
      else
        emphasised (b :: rest)
    else
      none
| _ => none

/-
  What stands after the first full stop that only white
  space parts from the end of its line.
-/
def afterSentence : Str → Option Str
| [] => none
| c :: rest =>
    if c = '.' ∧ '\n' ∈ rest.takeWhile Python.isSpace then
      some rest
    else
      afterSentence rest

/- A line at which the opening paragraph has ended. -/
def endsOpening (line : Str) : Bool :=
  let line := Python.strip line
  line = [] || line.head?.any fun c =>
    c = '-' || c = '|' || c = '#'

/- The description without the sentence in the heading. -/
def withoutOpening (body : Str) : Str :=
  match afterSentence body with
  | some rest => Python.strip rest
  | none =>
      Python.strip
        (Python.unlines
          ((Python.lines body).tail.dropWhile fun line =>
            !endsOpening line))

/- The only value that a field of a variant may have. -/
def discriminator
    (formats : Formats)
    (spec resolved : Value)
    (field : Str) : Except PyError (Option Str) := do
  let props ← resolved.get "properties".toList (.dict [])
  let schema ← props.get field (.dict [])
  let disc ← resolveSchema spec schema 0
  let enum ← disc.get "enum".toList .none
  if enum.truthy then
    let count ← enum.len
    if count = 1 then
      let value ← enum.first
      return some (formats.str value)
    else
      return none
  else
    return none

/- The label from the fields `state` and `type`. -/
def variantLabel
    (formats : Formats)
    (spec resolved : Value) :
    Except PyError (Option Str) := do
  match ← discriminator formats spec resolved "state".toList with
  | some label => return some label
  | none => discriminator formats spec resolved "type".toList

/- A text, or its start when it is long. -/
def shortened (limit : ℕ) (text : Str) : Str :=
  if text.length ≤ limit then
    text
  else
    text.take (limit - 3) ++ "...".toList

/- The label from the description. -/
def labelFromDesc (desc : Str) : Str :=
  match markedLabel (Python.strip desc) with
  | some label => label
  | none =>
      shortened 80
        (Python.strip
          ((Python.lines (Python.strip desc)).headD []))

/- The heading of a variant and the text below it. -/
def variantHead
    (formats : Formats)
    (spec : Value)
    (i : ℕ)
    (resolved : Value) : Except PyError (List Str) := do
  let variantDesc ←
    resolved.get "description".toList (.str [])
  let known ← variantLabel formats spec resolved
  let numbered := "Variant ".toList ++ (toString (i + 1)).toList
  let heading (label : Str) :=
    ["### ".toList ++ (if label ≠ [] then label else numbered),
      []]
  if variantDesc.truthy then
    let desc ← variantDesc.text
    let body := Python.strip desc
    let parts :=
      if (known.getD []) = [] then
        (heading (labelFromDesc desc), withoutOpening body)
      else
        (heading (known.getD []), body)
    if parts.2 ≠ [] then
      return parts.1 ++ [parts.2, []]
    else
      return parts.1
  else
    return heading (known.getD [])

/- One variant of `_render_oneof`. -/
def renderVariant
    (formats : Formats)
    (spec : Value)
    (render : Value → Except PyError Str)
    (parts : List Str)
    (variant : ℕ × Value) : Except PyError (List Str) := do
  let resolved ← resolveSchema spec variant.2 0
  let head ← variantHead formats spec variant.1 resolved
  let table ← render resolved
  if table ≠ [] then
    return parts ++ head ++ [table, []]
  else
    return parts ++ head ++ [[]]

/- `_render_oneof`, with what renders a variant's table. -/
def renderOneof
    (formats : Formats)
    (spec : Value)
    (render : Value → Except PyError Str)
    (key : Str)
    (schema : Value) : Except PyError Str := do
  let variants ← schema.get key (.list [])
  let desc ← schema.get "description".toList (.str [])
  let parts ←
    if desc.truthy then do
      let text ← desc.text
      .ok [Python.strip text, []]
    else
      .ok []
  let each ← variants.iter
  let parts ←
    (each.zipIdx.map Prod.swap).foldlM
      (renderVariant formats spec render) parts
  return Python.unlines parts

end AsyncapiDocs

------------------------------------------------------------
-- Tables
------------------------------------------------------------

namespace AsyncapiDocs

open Python (Str Value PyError)

/- A cell of the description. -/
def descCell (desc : Value) : Except PyError Str := do
  let text ← desc.text
  let flat := text.map fun c => if c = '\n' then ' ' else c
  let escaped :=
    flat.flatMap fun c => if c = '|' then ['\\', '|'] else [c]
  return shortened 200 (Python.strip escaped)

/- A line of the table. -/
def rowLine
    (formats : Formats)
    (row : Row) : Except PyError Str := do
  let cell ← descCell row.desc
  return "| `".toList ++ row.name ++ "` | ".toList ++
    formats.str row.type ++ " | ".toList ++
    (if row.required then "Yes" else "No").toList ++
    " | ".toList ++ cell ++ " |".toList

/- What stands for a schema without properties. -/
def renderBare
    (formats : Formats)
    (schemaDoc : Option Str)
    (schema : Value) : Except PyError Str := do
  let enum ← schema.get "enum".toList .none
  if enum.truthy then
    let values ← enum.iter
    return "**Allowed values:** ".toList ++
      quoted formats values ++ ['\n']
  else
    let desc ← schema.get "description".toList (.str [])
    let type ← typeStr formats schemaDoc schema
    if desc.truthy || type.truthy then
      return "**Type:** ".toList ++ formats.str type ++
        "\n\n".toList ++ formats.str desc ++ ['\n']
    else
      return []

/- The table of a resolved schema, without alternatives. -/
def renderRows
    (formats : Formats)
    (schemaDoc : Option Str)
    (collect : Expand)
    (start : Str)
    (schema : Value) : Except PyError Str := do
  let props ← schema.get "properties".toList (.dict [])
  let names ← schema.get "required".toList (.list [])
  let required ← names.toSet
  if props.truthy then
    let rows ← collect props required start []
    if rows.isEmpty then
      return []
    else
      let lines ← rows.mapM (rowLine formats)
      return Python.unlines
        (["| Name | Type | Required | Description |".toList,
          "|------|------|----------|-------------|".toList] ++
          lines) ++ ['\n']
  else
    renderBare formats schemaDoc schema

/-
  `render_property_table`, with so many levels to its depth
  bound.
-/
def renderLevels
    (formats : Formats)
    (spec : Value)
    (schemaDoc : Option Str) :
    ℕ → Str → Value → Except PyError Str
| 0, start, schema =>
    if schema.isNone then
      .ok []
    else do
      let resolved ← resolveSchema spec schema 0
      let _ ← resolved.contains "oneOf".toList
      let _ ← resolved.contains "anyOf".toList
      renderRows formats schemaDoc
        (collectLevels formats spec schemaDoc 0) start resolved
| levels + 1, start, schema =>
    if schema.isNone then
      .ok []
    else do
      let resolved ← resolveSchema spec schema 0
      let next := renderLevels formats spec schemaDoc levels []
      if ← resolved.contains "oneOf".toList then
        renderOneof formats spec next "oneOf".toList resolved
      else if ← resolved.contains "anyOf".toList then
        renderOneof formats spec next "anyOf".toList resolved
      else
        renderRows formats schemaDoc
          (collectLevels formats spec schemaDoc (levels + 1))
          start resolved

/- `render_property_table`. -/
def renderPropertyTable
    (formats : Formats)
    (spec : Value)
    (schemaDoc : Option Str)
    (depth maxDepth : ℕ)
    (start : Str)
    (schema : Value) : Except PyError Str :=
  renderLevels formats spec schemaDoc (maxDepth - depth) start
    schema

/- The recursion of the source, with its guards. -/
theorem renderPropertyTable_eq
    (formats : Formats)
    (spec : Value)
    (schemaDoc : Option Str)
    (depth maxDepth : ℕ)
    (start : Str)
    (schema : Value) :
    renderPropertyTable formats spec schemaDoc depth maxDepth
        start schema =
      if schema.isNone then
        .ok []
      else (do
        let resolved ← resolveSchema spec schema 0
        let next :=
          renderPropertyTable formats spec schemaDoc
            (depth + 1) maxDepth []
        let oneOf ← resolved.contains "oneOf".toList
        if oneOf && depth < maxDepth then
          renderOneof formats spec next "oneOf".toList resolved
        else
          let anyOf ← resolved.contains "anyOf".toList
          if anyOf && depth < maxDepth then
            renderOneof formats spec next "anyOf".toList
              resolved
          else
            renderRows formats schemaDoc
              (collectRows formats spec schemaDoc depth
                maxDepth)
              start resolved) := by
  unfold renderPropertyTable collectRows
  by_cases hDepth : depth < maxDepth
  · have hLevels :
        maxDepth - depth = maxDepth - (depth + 1) + 1 := by
      omega
    simp only [hLevels, hDepth, renderLevels, decide_true,
      Bool.and_true]
  · have hLevels : maxDepth - depth = 0 := by omega
    simp only [hLevels, hDepth, renderLevels, decide_false,
      Bool.and_false, Bool.false_eq_true, if_false]

end AsyncapiDocs
