import DsxExchange.AsyncapiDocs.YamlLines

/-
  The parser of a specification. Its methods share a position
  in the lines and call each other, to a depth that a bound
  is given for.

  Key definitions include:
    * `AsyncapiDocs.Yaml.Reader`, `AsyncapiDocs.Yaml.Use`
    * `AsyncapiDocs.Yaml.keyUse`, `AsyncapiDocs.Yaml.seqUses`,
      `AsyncapiDocs.Yaml.Scalars.mapUses`
    * `AsyncapiDocs.Yaml.blockScalar`, `AsyncapiDocs.Yaml.plainLines`
    * `AsyncapiDocs.Yaml.parseValue`, `AsyncapiDocs.Yaml.parseMapping`,
      `AsyncapiDocs.Yaml.parseSequence`,
      `AsyncapiDocs.Yaml.parseDashInlineMapping`
    * `AsyncapiDocs.Yaml.parse`
-/

------------------------------------------------------------
-- The Position
------------------------------------------------------------

namespace AsyncapiDocs.Yaml

open Python (Str Value strip)

/-
  What a part of the text was read as: a key, an item of a
  sequence, a mapping or a sequence written on one line, a
  text, the lines of a plain or of a block scalar, or something
  that is left out of the result.
-/
inductive Use where
  | key (name : Str)
  | item
  | mapping
  | sequence
  | text (text : Str)
  | plain (lines : List Str)
  | block (lines : List Str)
  | lost (text : Str)
deriving DecidableEq, Repr

/-
  The lines from the position on. The log is no part of the
  parser: it records what the lines before were read as.
-/
structure Reader where
  rest : List Str
  log : List Use
deriving DecidableEq, Repr

def Reader.notes (reader : Reader) (uses : List Use) : Reader :=
  { reader with log := reader.log ++ uses }

def Reader.note (reader : Reader) (use : Use) : Reader :=
  reader.notes [use]

/- `_skip_blanks_and_comments`. -/
def Reader.skip (reader : Reader) : Reader :=
  { reader with rest := reader.rest.dropWhile isBlank }

end AsyncapiDocs.Yaml

------------------------------------------------------------
-- What Is Written
------------------------------------------------------------

namespace AsyncapiDocs.Yaml

open Python (Str Value strip lstrip)

/- A text without the quotes that it stands in. -/
def unquoted (text : Str) : Str :=
  if 2 ≤ text.length ∧
      (isWithin '\'' text ∨ isWithin '"' text) then
    inner text
  else
    text

/- The key that is written on a line. -/
def Scalars.keyName (scalars : Scalars) (line : Str) : Str :=
  match scalars.keyToken (lstrip line) with
  | some (token, _) => unquoted token
  | none => []

/-
  The key of an entry. It may take another one's place, and
  `strip` may take more from it than its quotes.
-/
def keyUse
    (name key : Str)
    (result : List (Str × Value)) : Use :=
  if (result.lookup key).isSome ∨ name ≠ key then
    .lost name
  else
    .key key

/- A text of one quote, which is taken for a quoted one. -/
def isLoneQuote (text : Str) : Bool :=
  text = ['\''] || text = ['"']

/- A text that a scalar is made of. -/
def textUse (text : Str) : Use :=
  if isLoneQuote (stripComment text) then
    .lost text
  else
    .text text

/- The items of a sequence on one line. -/
def seqUses (text : Str) : List Use :=
  let text := strip text
  let items := strip (inner text)
  if startsWith '[' text && text.getLast? == some ']' then
    .sequence ::
      (splitFlow items).flatMap fun item =>
        [.item, textUse (strip item)]
  else
    [.sequence, .item, textUse text]

/- The key of a pair, with its quotes. -/
def pairKey (pair : Str) : Str :=
  strip (pair.takeWhile (· ≠ ':'))

def pairValue (pair : Str) : Str :=
  strip (pair.drop ((pair.takeWhile (· ≠ ':')).length + 1))

/- One pair of a mapping on one line, if it is one. -/
def pairUses
    (result : List (Str × Value))
    (pair : Str) : List Use :=
  if ':' ∈ pair then
    [keyUse (unquoted (pairKey pair)) (stripQuotes (pairKey pair))
        result,
      textUse (pairValue pair)]
  else if stripComment (strip pair) = [] then
    []
  else
    [.lost pair]

def Scalars.pairsUses
    (scalars : Scalars) :
    List (Str × Value) → List Str → List Use
| _, [] => []
| result, pair :: rest =>
    pairUses result pair ++
      pairsUses scalars (scalars.flowPair result pair) rest

/- There is nothing between the braces, or behind the first. -/
def isEmptyMap (text : Str) : Bool :=
  let content := (stripComment text).drop 1
  strip (content.rdropWhile (· = '\x7d')) = []

/- The pairs of a mapping on one line. -/
def Scalars.mapUses
    (scalars : Scalars)
    (text : Str) : List Use :=
  let text := strip text
  let pairs := strip (inner text)
  if startsWith '\x7b' text && text.getLast? == some '\x7d' then
    .mapping :: scalars.pairsUses [] (splitFlow pairs)
  else if isEmptyMap text then
    [.mapping]
  else
    [.mapping, .lost text]

/- A value on the line of its key or dash. -/
def Scalars.lineUses
    (scalars : Scalars)
    (text : Str) : List Use :=
  if startsWith '[' text then
    seqUses text
  else if startsWith '\x7b' text then
    scalars.mapUses text
  else
    [textUse text]

end AsyncapiDocs.Yaml

------------------------------------------------------------
-- Texts of Several Lines
------------------------------------------------------------

namespace AsyncapiDocs.Yaml

open Python (Str Value strip)

/- The loop of `_parse_block_scalar`, and the lines left. -/
def blockLines
    (base : ℕ) :
    Option ℕ → List Str → List Str × List Str
| _, [] => ([], [])
| blockIndent, raw :: rest =>
    if strip raw = [] then
      let after := blockLines base blockIndent rest
      ([] :: after.1, after.2)
    else
      let least := blockIndent.getD (indent raw)
      if indent raw ≤ base ∨ indent raw < least then
        ([], raw :: rest)
      else
        let after := blockLines base (some least) rest
        (raw.drop least :: after.1, after.2)

/- Paragraphs, each joined into one line. -/
def foldParagraphs : List Str → List Str → List Str
| current, [] =>
    if current ≠ [] then [[' '].intercalate current] else []
| current, line :: rest =>
    if line = [] then
      (if current ≠ [] then [[' '].intercalate current]
      else []) ++ [] :: foldParagraphs [] rest
    else
      foldParagraphs (current ++ [line]) rest

/- The text of the lines of a block scalar. -/
def blockText (indicator : Str) (lines : List Str) : Str :=
  let kept :=
    if indicator.getLast? = some '+' then
      lines
    else
      lines.rdropWhile (· = [])
  let shown :=
    if startsWith '>' indicator then
      foldParagraphs [] kept
    else
      kept
  if shown = [] then [] else Python.unlines shown ++ ['\n']

/- `_parse_block_scalar`. -/
def blockScalar
    (indicator : Str)
    (base : ℕ)
    (reader : Reader) : Value × Reader :=
  let read := blockLines base none reader.rest
  let lines := reader.rest.take read.1.length
  (.str (blockText indicator read.1),
    ⟨read.2, reader.log ++ [.block lines]⟩)

/- A line that a plain scalar stops at. -/
def endsPlain (base : ℕ) (parts : List Str) (line : Str) : Bool :=
  isBlank line || indent line < base ||
    (parts ≠ [] &&
      ((indent line = base && isMappingKey (strip line)) ||
        startsDash (strip line)))

/- A line of a plain scalar that is behind a comment. -/
def partUse (parts : List Str) (line : Str) : List Use :=
  if hasComment ([' '].intercalate parts) then
    [.lost line]
  else
    []

/- The loop of `_parse_plain_scalar`. -/
def plainLines
    (base : ℕ) :
    List Str → List Str → List Use → List Str × Reader
| parts, [], log => (parts, ⟨[], log⟩)
| parts, line :: rest, log =>
    if endsPlain base parts line then
      (parts, ⟨line :: rest, log⟩)
    else
      plainLines base (parts ++ [strip line]) rest
        (log ++ partUse parts line)

/- The text of a plain scalar, by the lines that it is on. -/
def plainUses (lines : List Str) : List Use :=
  let text := [' '].intercalate (lines.map strip)
  if isLoneQuote (stripComment text) then
    [.plain lines, .lost text]
  else
    [.plain lines]

/- `_parse_plain_scalar`. -/
def plainScalar
    (scalars : Scalars)
    (base : ℕ)
    (reader : Reader) : Value × Reader :=
  let read := plainLines base [] reader.rest reader.log
  let lines := reader.rest.take read.1.length
  (scalars.scalar ([' '].intercalate read.1),
    read.2.notes (plainUses lines))

end AsyncapiDocs.Yaml

------------------------------------------------------------
-- Blocks
------------------------------------------------------------

namespace AsyncapiDocs.Yaml

open Python (Str Value strip)

/- The value on the lines behind a key or a dash, if any. -/
def valueBelow
    (nested : Reader → Option (Value × Reader))
    (least : ℕ)
    (reader : Reader) : Option (Value × Reader) :=
  let reader := reader.skip
  match reader.rest with
  | [] => some (.none, reader)
  | line :: _ =>
      if least ≤ indent line then
        nested reader
      else
        some (.none, reader)

/- The value of a key, from the text behind its colon. -/
def keyValue
    (scalars : Scalars)
    (nested : Reader → Option (Value × Reader))
    (base : ℕ)
    (rest : Str)
    (reader : Reader) : Option (Value × Reader) :=
  if isBlockIndicator rest then
    some (blockScalar rest base reader)
  else if rest = [] then
    valueBelow nested (base + 1) reader
  else if startsWith '[' rest then
    some
      (scalars.inlineFlowSeq rest, reader.notes (seqUses rest))
  else if startsWith '\x7b' rest then
    some
      (scalars.inlineFlowMap rest,
        reader.notes (scalars.mapUses rest))
  else
    some (scalars.scalar rest, reader.note (textUse rest))

/- A dash with the first key of a mapping. -/
def isInlineMapping (afterDash : Str) : Bool :=
  ':' ∈ afterDash && !startsWith '\x7b' afterDash &&
    !startsWith '[' afterDash && !startsWith '\'' afterDash &&
    !startsWith '"' afterDash

/- The value on the line of a dash. -/
def dashScalar (scalars : Scalars) (afterDash : Str) : Value :=
  if startsWith '[' afterDash then
    scalars.inlineFlowSeq afterDash
  else if startsWith '\x7b' afterDash then
    scalars.inlineFlowMap afterDash
  else
    scalars.scalar afterDash

/- The value of the first key behind a dash. -/
def firstValue
    (scalars : Scalars)
    (nested : Reader → Option (Value × Reader))
    (continuation : ℕ)
    (rest : Str)
    (reader : Reader) : Option (Value × Reader) :=
  if rest ≠ [] then
    some (scalars.scalar rest, reader.note (textUse rest))
  else
    valueBelow nested continuation reader

/- A text behind a dash that there is no key in. -/
def firstUses (firstKv : Str) : List Use :=
  if stripComment firstKv = [] then [] else [.lost firstKv]

/- The first entry of a mapping behind a dash. -/
def dashFirst
    (scalars : Scalars)
    (nested : Reader → Option (Value × Reader))
    (continuation : ℕ)
    (firstKv : Str)
    (reader : Reader) : Option (List (Str × Value) × Reader) :=
  match scalars.keyMatch firstKv with
  | none => some ([], reader.notes (firstUses firstKv))
  | some (key, rest) => do
      let (value, after) ←
        firstValue scalars nested continuation
          (stripComment rest)
          (reader.note (keyUse (scalars.keyName firstKv) key []))
      return ([(key, value)], after)

/- The item behind a dash, with what reads further entries. -/
def itemValue
    (scalars : Scalars)
    (nested : Reader → Option (Value × Reader))
    (mapping :
      List (Str × Value) → Reader →
        Option (List (Str × Value) × Reader))
    (base : ℕ)
    (afterDash : Str)
    (reader : Reader) : Option (Value × Reader) :=
  if afterDash = [] then
    valueBelow nested (base + 1) reader
  else if isInlineMapping afterDash then do
    let (first, next) ←
      dashFirst scalars nested (base + 2) afterDash reader
    let (entries, after) ← mapping first next
    return (.dict entries, after)
  else
    some
      (dashScalar scalars afterDash,
        reader.notes (scalars.lineUses afterDash))

mutual

/- `_parse_value`. -/
def parseValue
    (scalars : Scalars) :
    ℕ → Reader → Option (Value × Reader)
| 0, _ => none
| fuel + 1, reader =>
    let reader := reader.skip
    match reader.rest with
    | [] => some (.none, reader)
    | line :: lines =>
        let base := indent line
        let stripped := strip line
        if startsDash stripped ∨ stripped = ['-'] then
          (parseSequence scalars fuel base [] reader).map
            fun read => (.list read.1, read.2)
        else if isMappingKey stripped then
          (parseMapping scalars fuel base [] reader).map
            fun read => (.dict read.1, read.2)
        else if startsWith '\x7b' stripped then
          some
            (scalars.inlineFlowMap stripped,
              ⟨lines, reader.log ++ scalars.mapUses stripped⟩)
        else if startsWith '[' stripped then
          some
            (scalars.inlineFlowSeq stripped,
              ⟨lines, reader.log ++ seqUses stripped⟩)
        else
          some (plainScalar scalars base reader)

/- `_parse_mapping`, from what it has read already. -/
def parseMapping
    (scalars : Scalars) :
    ℕ → ℕ → List (Str × Value) → Reader →
      Option (List (Str × Value) × Reader)
| 0, _, _, _ => none
| fuel + 1, base, result, reader =>
    let reader := reader.skip
    match reader.rest with
    | [] => some (result, reader)
    | line :: lines =>
        if indent line ≠ base ∨ startsDash (strip line) then
          some (result, reader)
        else
          match scalars.keyMatch line with
          | none =>
              parseMapping scalars fuel base result
                ⟨lines, reader.log ++ [.lost line]⟩
          | some (key, rest) => do
              let (value, after) ←
                keyValue scalars (parseValue scalars fuel) base
                  (stripComment rest)
                  ⟨lines,
                    reader.log ++
                      [keyUse (scalars.keyName line) key result]⟩
              parseMapping scalars fuel base
                (Python.setEntry key value result) after

/- `_parse_sequence`, from what it has read already. -/
def parseSequence
    (scalars : Scalars) :
    ℕ → ℕ → List Value → Reader →
      Option (List Value × Reader)
| 0, _, _, _ => none
| fuel + 1, base, result, reader =>
    let reader := reader.skip
    match reader.rest with
    | [] => some (result, reader)
    | line :: lines =>
        let stripped := strip line
        if indent line ≠ base ∨ !startsWith '-' stripped then
          some (result, reader)
        else do
          let (value, after) ←
            itemValue scalars (parseValue scalars fuel)
              (parseDashInlineMapping scalars fuel (base + 2))
              base (strip (stripped.drop 1))
              ⟨lines, reader.log ++ [.item]⟩
          parseSequence scalars fuel base (result ++ [value])
            after

/- The loop of `_parse_dash_inline_mapping`. -/
def parseDashInlineMapping
    (scalars : Scalars) :
    ℕ → ℕ → List (Str × Value) → Reader →
      Option (List (Str × Value) × Reader)
| 0, _, _, _ => none
| fuel + 1, continuation, result, reader =>
    let reader := reader.skip
    match reader.rest with
    | [] => some (result, reader)
    | line :: lines =>
        if indent line ≠ continuation then
          some (result, reader)
        else
          match scalars.keyMatch line with
          | none => some (result, reader)
          | some (key, rest) => do
              let (value, after) ←
                keyValue scalars (parseValue scalars fuel)
                  continuation (stripComment rest)
                  ⟨lines,
                    reader.log ++
                      [keyUse (scalars.keyName line) key result]⟩
              parseDashInlineMapping scalars fuel continuation
                (Python.setEntry key value result) after

end

/- `parse`. -/
def parse
    (scalars : Scalars)
    (fuel : ℕ)
    (text : Str) : Option (Value × Reader) :=
  parseValue scalars fuel ⟨splitLines text, []⟩

end AsyncapiDocs.Yaml
