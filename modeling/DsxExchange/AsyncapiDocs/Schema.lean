import DsxExchange.Python.Value

/-
  References and merged members of a specification's schemas,
  and the names of their types.

  Key definitions include:
    * `AsyncapiDocs.resolveRef`
    * `AsyncapiDocs.resolveSchema`
    * `AsyncapiDocs.Formats`
    * `AsyncapiDocs.typeStr`

  Key theorems include:
    * `AsyncapiDocs.resolveSchema_eq`
-/

------------------------------------------------------------
-- Resolving
------------------------------------------------------------

namespace AsyncapiDocs

open Python (Str Value PyError)

/- One part of a reference. -/
def resolvePart (node : Value) (part : Str) : Option Value :=
  match node with
  | .dict entries =>
      some ((entries.lookup part).getD (.dict []))
  | _ => none

/- `resolve_ref`. -/
def resolveRef (spec ref : Value) : Except PyError Value := do
  let path ← ref.text
  if "#/".toList.isPrefixOf path then
    let parts := (path.drop 2).splitOn '/'
    match parts.foldlM resolvePart spec with
    | some (.dict entries) => return .dict entries
    | _ => return .dict []
  else
    return .dict []

/- `merged`, `merged_props` and `merged_required`. -/
structure Merge where
  merged : List (Str × Value)
  mergedProps : List (Str × Value)
  mergedRequired : List Value

/-
  One element of a list that `dict.update` takes: a sequence
  of a key and a value. A key that is no text is refused, as
  one that cannot be hashed is.
-/
def pairOf : Value → Except PyError (Str × Value)
| .str [key, value] => .ok ([key], .str [value])
| .str _ => .error .valueError
| .list [.str key, value] => .ok (key, value)
| .list [_, _] => .error .typeError
| .list _ => .error .valueError
| .dict [(key, _), (value, _)] => .ok (key, .str value)
| .dict _ => .error .valueError
| _ => .error .typeError

/- The entries one after another. -/
def Merge.insert
    (acc : Merge)
    (entries : List (Str × Value)) : Merge :=
  { acc with
    mergedProps :=
      entries.foldl
        (fun props entry =>
          Python.setEntry entry.1 entry.2 props)
        acc.mergedProps }

/- `merged_props.update(v)`. -/
def Merge.update (acc : Merge) : Value → Except PyError Merge
| .dict entries => .ok (acc.insert entries)
| .list items => do
    let entries ← items.mapM pairOf
    .ok (acc.insert entries)
| .str [] => .ok acc
| .str _ => .error .valueError
| _ => .error .typeError

/- One keyword of a resolved member. -/
def Merge.keyword
    (acc : Merge)
    (entry : Str × Value) : Except PyError Merge := do
  if entry.1 = "properties".toList then
    acc.update entry.2
  else if entry.1 = "required".toList then
    let names ← entry.2.iter
    .ok
      { acc with
        mergedRequired := acc.mergedRequired ++ names }
  else
    .ok
      { acc with
        merged := Python.setEntry entry.1 entry.2 acc.merged }

/- `list(dict.fromkeys(values))`. -/
def fromKeys (values : List Value) : Except PyError Value :=
  if values.all Value.hashable then
    .ok
      (.list
        (values.foldl
          (fun kept value =>
            if kept.any (· == value) then
              kept
            else
              kept ++ [value])
          []))
  else
    .error .typeError

/- The merged schema. -/
def Merge.finish (acc : Merge) : Except PyError Value := do
  let merged :=
    if acc.mergedProps ≠ [] then
      Python.setEntry "properties".toList
        (.dict acc.mergedProps) acc.merged
    else
      acc.merged
  if acc.mergedRequired ≠ [] then
    let required ← fromKeys acc.mergedRequired
    return .dict
      (Python.setEntry "required".toList required merged)
  else
    return .dict merged

/- `resolve_schema`, with so many levels to its depth bound. -/
def resolveLevels (spec : Value) :
    ℕ → Value → Except PyError Value
| 0, schema =>
    if schema.isNone then .ok (.dict []) else .ok schema
| levels + 1, schema =>
    if schema.isNone then
      .ok (.dict [])
    else do
      if ← schema.contains "$ref".toList then
        let ref ← schema.item "$ref".toList
        let resolved ← resolveRef spec ref
        resolveLevels spec levels resolved
      else if ← schema.contains "allOf".toList then
        let allOf ← schema.item "allOf".toList
        let members ← allOf.iter
        let acc ← members.foldlM
          (fun (acc : Merge) member => do
            let sub ← resolveLevels spec levels member
            let keywords ← sub.items
            keywords.foldlM Merge.keyword acc)
          ⟨[], [], []⟩
        acc.finish
      else
        return schema

/- `resolve_schema`, whose depth may be ten at most. -/
def resolveSchema
    (spec schema : Value)
    (depth : ℕ) : Except PyError Value :=
  resolveLevels spec (11 - depth) schema

/- The recursion of the source, with its guard. -/
theorem resolveSchema_eq
    (spec schema : Value)
    (depth : ℕ) :
    resolveSchema spec schema depth =
      if schema.isNone then
        .ok (.dict [])
      else if 10 < depth then
        .ok schema
      else do
        if ← schema.contains "$ref".toList then
          let ref ← schema.item "$ref".toList
          let resolved ← resolveRef spec ref
          resolveSchema spec resolved (depth + 1)
        else if ← schema.contains "allOf".toList then
          let allOf ← schema.item "allOf".toList
          let members ← allOf.iter
          let acc ← members.foldlM
            (fun (acc : Merge) member => do
              let sub ← resolveSchema spec member (depth + 1)
              let keywords ← sub.items
              keywords.foldlM Merge.keyword acc)
            ⟨[], [], []⟩
          acc.finish
        else
          return schema := by
  unfold resolveSchema
  by_cases hDepth : 10 < depth
  · have hLevels : 11 - depth = 0 := by omega
    rw [hLevels, if_pos hDepth]
    rfl
  · have hLevels : 11 - depth = 11 - (depth + 1) + 1 := by
      omega
    rw [hLevels, if_neg hDepth]
    rfl

end AsyncapiDocs

------------------------------------------------------------
-- Types
------------------------------------------------------------

namespace AsyncapiDocs

open Python (Str Value PyError)

/- Texts of values: `repr`, `str.lower` and `json.dumps`. -/
structure Formats where
  repr : Value → Str
  lower : Str → Str
  dumps : Value → Except PyError Str

/- `str(value)`. -/
def Formats.str (formats : Formats) : Value → Str
| .str s => s
| value => formats.repr value

/- `separator.join(parts)`, of any values. -/
def joinTexts
    (separator : Str)
    (parts : List Value) : Except PyError Value := do
  let texts ← parts.mapM fun part =>
    match part with
    | .str s => .ok s
    | _ => .error .typeError
  return .str (separator.intercalate texts)

/- A backslash and the letters `s` after it, as a dash. -/
def dashRuns : Bool → Str → Str
| true, 's' :: rest => dashRuns true rest
| _, '\\' :: 's' :: rest => '-' :: dashRuns true rest
| _, c :: rest => c :: dashRuns false rest
| _, [] => []

/- `_schema_anchor`. -/
def schemaAnchor (formats : Formats) (name : Str) : Str :=
  let lowered := formats.lower name
  let kept := lowered.filter fun c =>
    ('a' ≤ c && c ≤ 'z') || ('0' ≤ c && c ≤ '9') ||
      c = '\\' || c = '-'
  let dashed := dashRuns false kept
  let slug :=
    (dashed.dropWhile (· = '-')).rdropWhile (· = '-')
  if slug ≠ [] then slug else lowered

/- The name of a referenced schema, as a link. -/
def typeOfRef
    (formats : Formats)
    (schemaDoc : Option Str)
    (ref : Value) : Except PyError Value := do
  let path ← ref.text
  let name := (path.splitOn '/').getLastD []
  if "#/components/schemas/".toList.isPrefixOf path then
    let anchor := schemaAnchor formats name
    let doc := schemaDoc.getD []
    return .str
      ("[".toList ++ name ++ "](".toList ++ doc ++
        "#".toList ++ anchor ++ ")".toList)
  else
    return .str name

/- A type with its format, or the type alone. -/
def typeWithFormat
    (formats : Formats)
    (entries : List (Str × Value))
    (type : Value) : Value :=
  let format :=
    (entries.lookup "format".toList).getD .none
  let formatted :=
    format.truthy &&
      (type.isText "string".toList ||
        type.isText "number".toList ||
        type.isText "integer".toList)
  if formatted then
    .str
      (formats.str type ++ " (".toList ++ formats.str format ++
        ")".toList)
  else if type.truthy then
    type
  else
    .str "any".toList

mutual

/- `_type_str`. -/
def typeStr
    (formats : Formats)
    (schemaDoc : Option Str) :
    Value → Except PyError Value
| .dict entries =>
    let type := (entries.lookup "type".toList).getD (.str [])
    let additional :=
      entries.lookup "additionalProperties".toList
    match entries.lookup "$ref".toList, type with
    | some ref, _ => typeOfRef formats schemaDoc ref
    | none, .list names =>
        .ok
          (.str
            (" or ".toList.intercalate
              (names.map formats.str)))
    | none, type =>
        if (entries.lookup "oneOf".toList).isSome then do
          let parts ←
            typesAt formats schemaDoc "oneOf".toList entries
          joinTexts " or ".toList parts
        else if (entries.lookup "allOf".toList).isSome then
          .ok (.str "object".toList)
        else if type.isText "array".toList then do
          let inner ←
            typeAt formats schemaDoc "items".toList
              (.str "any".toList) entries
          return .str
            ("array&lt;".toList ++ formats.str inner ++
              "&gt;".toList)
        else if type.isText "object".toList &&
            additional.isSome then do
          let inner ←
            if (additional.getD .none).isDict then
              typeAt formats schemaDoc
                "additionalProperties".toList
                (.str "any".toList) entries
            else
              .ok (.str "any".toList)
          return .str
            ("map&lt;string, ".toList ++ formats.str inner ++
              "&gt;".toList)
        else
          .ok (typeWithFormat formats entries type)
| .str s =>
    if "$ref".toList <:+: s then
      .error .typeError
    else
      .error .attributeError
| .list items =>
    if items.any (· == .str "$ref".toList) then
      .error .typeError
    else
      .error .attributeError
| _ => .error .typeError

/- The type of the value of a key, or a default. -/
def typeAt
    (formats : Formats)
    (schemaDoc : Option Str)
    (key : Str)
    (default : Value) :
    List (Str × Value) → Except PyError Value
| [] => .ok default
| (other, value) :: rest =>
    if other = key then
      typeStr formats schemaDoc value
    else
      typeAt formats schemaDoc key default rest

/- The types of what the value of a key goes through. -/
def typesAt
    (formats : Formats)
    (schemaDoc : Option Str)
    (key : Str) :
    List (Str × Value) → Except PyError (List Value)
| [] => .ok []
| (other, value) :: rest =>
    if other = key then
      match value with
      | .list items => typesOf formats schemaDoc items
      | .dict entries =>
          if entries.isEmpty then
            .ok []
          else
            .error .attributeError
      | .str s =>
          if s.isEmpty then .ok [] else .error .attributeError
      | _ => .error .typeError
    else
      typesAt formats schemaDoc key rest

def typesOf
    (formats : Formats)
    (schemaDoc : Option Str) :
    List Value → Except PyError (List Value)
| [] => .ok []
| item :: rest => do
    let type ← typeStr formats schemaDoc item
    let types ← typesOf formats schemaDoc rest
    return type :: types

end

end AsyncapiDocs
