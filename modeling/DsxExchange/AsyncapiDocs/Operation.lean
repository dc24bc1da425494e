import DsxExchange.AsyncapiDocs.PropertyTable
import DsxExchange.Python.Outcome

/-
  The page of an operation: its channel, its messages, which
  may be references to references, and the example of each
  payload.

  Key definitions include:
    * `AsyncapiDocs.generateExample`
    * `AsyncapiDocs.followRefs`
    * `AsyncapiDocs.genOperation`
-/

------------------------------------------------------------
-- Examples
------------------------------------------------------------

namespace AsyncapiDocs

open Python (Str Value PyError Outcome)

/- The example that is written in a schema. -/
def ownExample
    (schema : Value) : Except PyError (Option Value) := do
  if ← schema.contains "example".toList then
    let given ← schema.item "example".toList
    return some given
  else if ← schema.contains "examples".toList then
    let given ← schema.item "examples".toList
    if given.truthy then
      match given with
      | .list (first :: _) => return some first
      | other => return some other
    else
      return none
  else
    return none

/- The type of a schema, or the first of its types. -/
def exampleType (schema : Value) : Except PyError Value := do
  match ← schema.get "type".toList (.str []) with
  | .list [] => return .str "string".toList
  | .list (first :: _) => return first
  | type => return type

/- The first alternative of a schema. -/
def firstAlternative
    (schema : Value) : Except PyError (Option Value) := do
  if ← schema.contains "oneOf".toList then
    let alternatives ← schema.item "oneOf".toList
    let first ← alternatives.first
    return some first
  else
    return none

/- The example of an object, with what gives one of a part. -/
def objectExample
    (exampleOf : Value → Outcome Value)
    (schema : Value) : Outcome Value := do
  let props ←
    .of (schema.get "properties".toList (.dict []))
  if props.truthy then
    let entries ← .of props.items
    let obj ← entries.foldlM
      (fun obj prop => do
        let value ← exampleOf prop.2
        return Python.setEntry prop.1 value obj)
      []
    return .dict obj
  else
    let additional ←
      .of (schema.get "additionalProperties".toList .none)
    if additional.truthy then
      let inner ←
        exampleOf
          (if additional.isDict then additional else .dict [])
      return .dict [("key".toList, inner)]
    else
      return .dict []

/- The example of an array. -/
def arrayExample
    (exampleOf : Value → Outcome Value)
    (schema : Value) : Outcome Value := do
  let items ← .of (schema.get "items".toList (.dict []))
  let inner ← exampleOf items
  if inner.isNone then
    return .list []
  else
    return .list [inner]

/- A value, or a default in its place. -/
def orDefault (default value : Value) : Value :=
  if value.isNone then default else value

/- The example of a schema of another type. -/
def scalarExample
    (type schema : Value) : Except PyError Value := do
  let enum ← schema.get "enum".toList .none
  if enum.truthy then
    enum.first
  else
    let const ← schema.get "const".toList .none
    let format ← schema.get "format".toList (.str [])
    let minimum ← schema.get "minimum".toList .none
    let default ← schema.get "default".toList .none
    if !const.isNone then
      return const
    else if type.isText "string".toList then
      if format.isText "date-time".toList then
        return .str "2026-05-14T12:00:00Z".toList
      else if format.isText "uuid".toList then
        return .str
          "550e8400-e29b-41d4-a716-446655440000".toList
      else
        return .str "string".toList
    else if type.isText "number".toList ||
        type.isText "integer".toList then
      return orDefault (.int 0) minimum
    else if type.isText "boolean".toList then
      return orDefault (.bool false) default
    else
      return .none

/-
  `generate_example`. The depth stays as it is at the first
  alternative.
-/
def generateExample
    (spec : Value) :
    ℕ → Value → ℕ → ℕ → Outcome Value
| 0, _, _, _ => .unfinished
| fuel + 1, schema, depth, maxDepth =>
    if schema.isNone ∨ maxDepth < depth then
      .done .none
    else do
      let schema ← .of (resolveSchema spec schema 0)
      match ← .of (ownExample schema) with
      | some given => return given
      | none => do
          let type ← .of (exampleType schema)
          match ← .of (firstAlternative schema) with
          | some first =>
              generateExample spec fuel first depth maxDepth
          | none =>
              let exampleOf := fun value =>
                generateExample spec fuel value (depth + 1)
                  maxDepth
              if type.isText "object".toList then
                objectExample exampleOf schema
              else if type.isText "array".toList then
                arrayExample exampleOf schema
              else
                .of (scalarExample type schema)

end AsyncapiDocs

------------------------------------------------------------
-- Pages
------------------------------------------------------------

namespace AsyncapiDocs

open Python (Str Value PyError Outcome)

/- The lines of text, each followed by an empty one. -/
def paragraph (text : Str) : List Value :=
  [.str text, .str []]

/- A description and an empty line, when there is one. -/
def described (desc : Value) : Except PyError (List Value) :=
  if desc.truthy then do
    let text ← desc.text
    return paragraph (Python.strip text)
  else
    .ok []

/- `value.get(key, value.get(other, default))`. -/
def getEither
    (value : Value)
    (key other : Str)
    (default : Value) : Except PyError Value := do
  let fallback ← value.get other default
  value.get key fallback

/- The line of the quality of service. -/
def qosLines
    (formats : Formats)
    (bindings : Value) : Except PyError (List Value) := do
  let mqttBind ← bindings.get "mqtt".toList (.dict [])
  if mqttBind.truthy then
    let qos ← mqttBind.get "qos".toList .none
    if qos.isNone then
      return []
    else
      return paragraph
        ("**MQTT QoS:** ".toList ++ formats.str qos)
  else
    return []

/- The description of a parameter of the address. -/
def paramDesc
    (formats : Formats)
    (spec : Value) : Value → Except PyError Value
| .dict entries => do
    let resolved ← resolveSchema spec (.dict entries) 0
    let desc ← resolved.get "description".toList (.str [])
    let enum ← resolved.get "enum".toList .none
    if enum.truthy then
      let vals ← enumText formats 6 " ... (".toList enum
      let text ←
        if desc.truthy then do
          let text ← desc.text
          .ok (Python.rstrip text ++ [' '])
        else
          .ok []
      return .str (text ++ "Values: ".toList ++ vals)
    else
      return desc
| .str s => .ok (.str s)
| _ => .ok (.str [])

/- The line of a parameter. -/
def paramLine
    (formats : Formats)
    (spec : Value)
    (param : Str × Value) : Except PyError Value := do
  let desc ← paramDesc formats spec param.2
  let text ← desc.text
  let flat := text.map fun c => if c = '\n' then ' ' else c
  return .str
    ("| `".toList ++ param.1 ++ "` | ".toList ++
      Python.strip flat ++ " |".toList)

/- The table of the parameters. -/
def paramLines
    (formats : Formats)
    (spec params : Value) : Except PyError (List Value) :=
  if params.truthy then do
    let entries ← params.items
    let lines ← entries.mapM (paramLine formats spec)
    return paragraph "### Parameters".toList ++
      [.str "| Parameter | Description |".toList,
        .str "|-----------|-------------|".toList] ++
      lines ++ [.str []]
  else
    .ok []

/- The channel of an operation. -/
def operationChannel
    (spec op : Value) : Except PyError Value := do
  let channelRef ← op.get "channel".toList (.dict [])
  if ← channelRef.contains "$ref".toList then
    resolveSchema spec channelRef 0
  else
    return channelRef

/- The lines between the title and the messages. -/
def operationHead
    (formats : Formats)
    (spec op : Value) : Except PyError (List Value) := do
  let action ← op.get "action".toList (.str "send".toList)
  let direction :=
    if action.isText "send".toList then
      "Publish (send)"
    else
      "Subscribe (receive)"
  let desc ←
    getEither op "description".toList "summary".toList (.str [])
  let channel ← operationChannel spec op
  let address ← channel.get "address".toList (.str [])
  let chanDesc ← channel.get "description".toList (.str [])
  let params ← channel.get "parameters".toList (.dict [])
  let bindings ← channel.get "bindings".toList (.dict [])
  let descLines ← described desc
  let chanLines ← described chanDesc
  let qos ← qosLines formats bindings
  let table ← paramLines formats spec params
  return descLines ++
    paragraph
      ("**Direction:** ".toList ++ direction.toList) ++
    paragraph "## Channel".toList ++
    [.str "```text".toList, address, .str "```".toList,
      .str []] ++
    chanLines ++ qos ++ table

/- The reference of a value that is a reference alone. -/
def onlyRef : Value → Option Value
| .dict [(key, ref)] =>
    if key = "$ref".toList then some ref else none
| _ => none

/- The loop that follows references to references. -/
def followRefs (spec : Value) : ℕ → Value → Outcome Value
| 0, _ => .unfinished
| fuel + 1, message =>
    match onlyRef message with
    | some ref => do
        let next ← .of (resolveRef spec ref)
        followRefs spec fuel next
    | none => .done message

/- The messages of one entry of an operation. -/
def messageOf
    (spec : Value)
    (fuel : ℕ) : Value → Outcome (List Value)
| .dict entries =>
    match entries.lookup "$ref".toList with
    | some ref => do
        let resolved ← .of (resolveRef spec ref)
        let message ← followRefs spec fuel resolved
        return [message]
    | none => .done [.dict entries]
| _ => .done []

/- The messages of the entries of an operation. -/
def messagesOf
    (spec : Value)
    (fuel : ℕ) : List Value → Outcome (List Value)
| [] => .done []
| mref :: rest => do
    let first ← messageOf spec fuel mref
    let others ← messagesOf spec fuel rest
    return first ++ others

/- The lines of an example. -/
def exampleLines
    (formats : Formats)
    (example_ : Value) : Except PyError (List Value) :=
  if example_.truthy then do
    let text ← formats.dumps example_
    return paragraph
        "<Accordion title=\"Example payload\">".toList ++
      [.str "````json".toList, .str text] ++
      paragraph "````".toList ++
      paragraph "</Accordion>".toList
  else
    .ok []

/- The lines of the payload of a message. -/
def payloadLines
    (formats : Formats)
    (spec : Value)
    (schemaDoc : Option Str)
    (fuel : ℕ)
    (payload : Value) : Outcome (List Value) :=
  if payload.truthy then do
    let table ←
      .of
        (renderPropertyTable formats spec schemaDoc 0 2 []
          payload)
    let _ ← .of (resolveSchema spec payload 0)
    let value ← generateExample spec fuel payload 0 3
    let shown ← .of (exampleLines formats value)
    return paragraph "### Payload".toList ++
      (if table ≠ [] then paragraph table else []) ++ shown
  else
    .done []

/- The lines of a message without its payload. -/
def messageHead
    (formats : Formats)
    (spec message : Value) : Except PyError (List Value) := do
  let title ←
    getEither message "title".toList "name".toList
      (.str "Message".toList)
  let summary ←
    getEither message "summary".toList "description".toList
      (.str [])
  let usual ←
    spec.get "defaultContentType".toList
      (.str "application/json".toList)
  let contentType ← message.get "contentType".toList usual
  let text ← described summary
  return paragraph
      ("## Message: ".toList ++ formats.str title) ++
    paragraph
      ("**Content Type:** `".toList ++
        formats.str contentType ++ "`".toList) ++
    text

/- The lines of a message, after those before it. -/
def messageLines
    (formats : Formats)
    (spec : Value)
    (schemaDoc : Option Str)
    (fuel : ℕ)
    (lines : List Value)
    (message : Value) : Outcome (List Value) := do
  let head ← .of (messageHead formats spec message)
  let payload ← .of (message.get "payload".toList .none)
  let shown ← payloadLines formats spec schemaDoc fuel payload
  return lines ++ head ++ shown

/- The page of an operation that the specification has. -/
def operationPage
    (formats : Formats)
    (spec : Value)
    (schemaDoc : Option Str)
    (fuel : ℕ)
    (pageTitle : Str)
    (op : Value) : Outcome Value := do
  let head ← .of (operationHead formats spec op)
  let entries ← .of (op.get "messages".toList (.list []))
  let refs ← .of entries.iter
  let messages ← messagesOf spec fuel refs
  let lines ← messages.foldlM
    (messageLines formats spec schemaDoc fuel)
    (paragraph ("# ".toList ++ pageTitle) ++ head)
  let page ← .of (joinTexts ['\n'] lines)
  .of (addText ['\n'] page)

/- The operation of a name. -/
def operationOf
    (spec : Value)
    (opName : Str) : Except PyError Value := do
  let ops ← spec.get "operations".toList (.dict [])
  ops.get opName (.dict [])

/- `gen_operation`. -/
def genOperation
    (formats : Formats)
    (spec : Value)
    (schemaDoc : Option Str)
    (fuel : ℕ)
    (opName pageTitle : Str) : Outcome Value := do
  let op ← .of (operationOf spec opName)
  if op.truthy then
    operationPage formats spec schemaDoc fuel pageTitle op
  else
    return .str
      ("# ".toList ++ pageTitle ++ "\n\nOperation `".toList ++
        opName ++ "` not found.\n".toList)

end AsyncapiDocs
