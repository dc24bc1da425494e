import DsxExchange.Python.Value

/-
  The lines of a specification: their indents, comments and
  keys, and the values that are written on one line.

  Key definitions include:
    * `AsyncapiDocs.Yaml.splitLines`, `AsyncapiDocs.Yaml.indent`
    * `AsyncapiDocs.Yaml.stripComment`
    * `AsyncapiDocs.Yaml.isMappingKey`, `AsyncapiDocs.Yaml.keyMatch`
    * `AsyncapiDocs.Yaml.Scalars.scalar`
    * `AsyncapiDocs.Yaml.Scalars.inlineFlowSeq`,
      `AsyncapiDocs.Yaml.Scalars.inlineFlowMap`
-/

------------------------------------------------------------
-- Lines
------------------------------------------------------------

namespace AsyncapiDocs.Yaml

open Python (Str Value strip lstrip)

/- A character that `str.splitlines` breaks at. -/
def isLineBreak (c : Char) : Bool :=
  (0x0A ≤ c.toNat && c.toNat ≤ 0x0D) ||
    (0x1C ≤ c.toNat && c.toNat ≤ 0x1E) ||
    c.toNat ∈ [0x85, 0x2028, 0x2029]

/- `str.splitlines`. -/
def splitLines : Str → List Str
| [] => []
| '\r' :: '\n' :: rest => [] :: splitLines rest
| c :: rest =>
    if isLineBreak c then
      [] :: splitLines rest
    else
      match splitLines rest with
      | [] => [[c]]
      | line :: lines => (c :: line) :: lines

/- `_indent`. -/
def indent (line : Str) : ℕ :=
  line.length - (lstrip line).length

/- `text.startswith(c)`. -/
def startsWith (c : Char) (text : Str) : Bool :=
  text.head? == some c

/- A line that is blank or only a comment. -/
def isBlank (line : Str) : Bool :=
  strip line = [] || startsWith '#' (strip line)

/- The text starts with a dash and a space. -/
def startsDash (stripped : Str) : Bool :=
  "- ".toList.isPrefixOf stripped

/-
  What is before a comment, if there is one. The flags say
  whether the text is within quotes, single or double, and
  whether a comment may start here.
-/
def beforeComment : Bool → Bool → Bool → Str → Option Str
| _, _, _, [] => none
| inSingle, inDouble, starts, c :: rest =>
    if c = '\'' ∧ !inDouble then
      (beforeComment (!inSingle) inDouble false rest).map
        (c :: ·)
    else if c = '"' ∧ !inSingle then
      (beforeComment inSingle (!inDouble) false rest).map
        (c :: ·)
    else if c = '#' ∧ !inSingle ∧ !inDouble ∧ starts then
      some []
    else
      (beforeComment inSingle inDouble (c = ' ') rest).map
        (c :: ·)

/- A text with a comment in it. -/
def hasComment (text : Str) : Bool :=
  (beforeComment false false true text).isSome

/- `_strip_comment`. -/
def stripComment (text : Str) : Str :=
  strip ((beforeComment false false true text).getD text)

/- A colon outside quotes, at the end or before a space. -/
def hasKeyColon : Bool → Bool → Str → Bool
| _, _, [] => false
| inSingle, inDouble, c :: rest =>
    if c = '\'' ∧ !inDouble then
      hasKeyColon (!inSingle) inDouble rest
    else if c = '"' ∧ !inSingle then
      hasKeyColon inSingle (!inDouble) rest
    else if c = ':' ∧ !inSingle ∧ !inDouble ∧
        (rest = [] ∨ rest.head? = some ' ') then
      true
    else
      hasKeyColon inSingle inDouble rest

/- `_is_mapping_key`. -/
def isMappingKey (line : Str) : Bool :=
  let stripped := strip line
  !startsWith '-' stripped && !startsWith '\x7b' stripped &&
    !startsWith '[' stripped && hasKeyColon false false stripped

end AsyncapiDocs.Yaml

------------------------------------------------------------
-- Scalars
------------------------------------------------------------

namespace AsyncapiDocs.Yaml

open Python (Str Value strip lstrip)

/-
  Characters and numbers: `\w`, `str.lower`, and `int` and
  `float`, which may raise a `ValueError`.
-/
structure Scalars where
  isWord : Char → Bool
  lower : Str → Str
  toInt : Str → Option ℤ
  toFloat : Str → Option Str

/- `text[1:-1]`. -/
def inner (text : Str) : Str :=
  (text.drop 1).dropLast

/- The text starts and ends with the character. -/
def isWithin (c : Char) (text : Str) : Bool :=
  startsWith c text && text.getLast? == some c

/- A number, or else the text. -/
def Scalars.number (scalars : Scalars) (text : Str) : Value :=
  if '.' ∈ text then
    match scalars.toFloat text with
    | some float => .float float
    | none => .str text
  else
    match scalars.toInt text with
    | some n => .int n
    | none => .str text

/- `_scalar`. -/
def Scalars.scalar (scalars : Scalars) (text : Str) : Value :=
  let text := stripComment text
  let low := scalars.lower text
  if text = [] then
    .none
  else if isWithin '\'' text || isWithin '"' text then
    .str (inner text)
  else if low = "null".toList ∨ low = "~".toList then
    .none
  else if low = "true".toList then
    .bool true
  else if low = "false".toList then
    .bool false
  else
    scalars.number text

end AsyncapiDocs.Yaml

------------------------------------------------------------
-- Flow
------------------------------------------------------------

namespace AsyncapiDocs.Yaml

open Python (Str Value strip lstrip)

/- `_split_flow`, at a depth of brackets. -/
def splitFlowFrom : ℤ → Str → Str → List Str
| _, current, [] => if current ≠ [] then [current] else []
| depth, current, c :: rest =>
    if c = '\x7b' ∨ c = '[' then
      splitFlowFrom (depth + 1) (current ++ [c]) rest
    else if c = '\x7d' ∨ c = ']' then
      splitFlowFrom (depth - 1) (current ++ [c]) rest
    else if c = ',' ∧ depth = 0 then
      current :: splitFlowFrom depth [] rest
    else
      splitFlowFrom depth (current ++ [c]) rest

/- `_split_flow`. -/
def splitFlow (text : Str) : List Str :=
  splitFlowFrom 0 [] text

/- `_parse_inline_flow_seq`. -/
def Scalars.inlineFlowSeq
    (scalars : Scalars)
    (text : Str) : Value :=
  let text := strip text
  let items := strip (inner text)
  if startsWith '[' text && text.getLast? == some ']' then
    if items = [] then
      .list []
    else
      .list
        ((splitFlow items).map fun item =>
          scalars.scalar (strip item))
  else
    .list [scalars.scalar text]

/- `text.strip("'\"")`. -/
def stripQuotes (text : Str) : Str :=
  let isQuote := fun c => c = '\'' || c = '"'
  (text.dropWhile isQuote).rdropWhile isQuote

/- One pair of a flow mapping. -/
def Scalars.flowPair
    (scalars : Scalars)
    (result : List (Str × Value))
    (pair : Str) : List (Str × Value) :=
  if ':' ∈ pair then
    let key := pair.takeWhile (· ≠ ':')
    let value := pair.drop (key.length + 1)
    Python.setEntry (stripQuotes (strip key))
      (scalars.scalar (strip value)) result
  else
    result

/- `_parse_inline_flow_map`. -/
def Scalars.inlineFlowMap
    (scalars : Scalars)
    (text : Str) : Value :=
  let text := strip text
  let pairs := strip (inner text)
  if startsWith '\x7b' text && text.getLast? == some '\x7d' then
    if pairs = [] then
      .dict []
    else
      .dict ((splitFlow pairs).foldl scalars.flowPair [])
  else
    .dict []

end AsyncapiDocs.Yaml

------------------------------------------------------------
-- Keys
------------------------------------------------------------

namespace AsyncapiDocs.Yaml

open Python (Str Value strip lstrip)

/- The class `[\w$\-./]`. -/
def Scalars.isKeyChar (scalars : Scalars) (c : Char) : Bool :=
  scalars.isWord c || c = '$' || c = '-' || c = '.' || c = '/'

/- A quoted text at the start, and what is behind it. -/
def quotedToken (quote : Char) (text : Str) : Option (Str × Str) :=
  if startsWith quote text then
    let rest := text.drop 1
    let within := rest.takeWhile (· ≠ quote)
    if quote ∈ rest then
      some (quote :: within ++ [quote], rest.drop (within.length + 1))
    else
      none
  else
    none

/- The group of a key at the start, and what is behind it. -/
def Scalars.keyToken
    (scalars : Scalars)
    (text : Str) : Option (Str × Str) :=
  let word := text.takeWhile scalars.isKeyChar
  if word ≠ [] then
    some (word, text.drop word.length)
  else
    quotedToken '"' text <|> quotedToken '\'' text

/-
  The pattern of a line with a key: the key without its quotes
  and the text behind the colon.
-/
def Scalars.keyMatch
    (scalars : Scalars)
    (line : Str) : Option (Str × Str) :=
  match scalars.keyToken (lstrip line) with
  | some (token, rest) =>
      match lstrip rest with
      | ':' :: value => some (stripQuotes token, lstrip value)
      | _ => none
  | none => none

/- `|`, `>` and their chomping indicators. -/
def isBlockIndicator (rest : Str) : Bool :=
  (["|", ">", "|+", ">+", "|-", ">-"].map String.toList).contains
    rest

end AsyncapiDocs.Yaml
