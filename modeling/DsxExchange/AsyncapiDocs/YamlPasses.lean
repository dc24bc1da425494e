import DsxExchange.AsyncapiDocs.YamlParser

/-
  One pass of each loop of the parser: how it stops, and how
  it goes on.

  Key definitions include:
    * `AsyncapiDocs.Yaml.MappingPass`
    * `AsyncapiDocs.Yaml.SequencePass`
    * `AsyncapiDocs.Yaml.DashPass`

  Key theorems include:
    * `AsyncapiDocs.Yaml.parseMapping_pass`
    * `AsyncapiDocs.Yaml.parseSequence_pass`
    * `AsyncapiDocs.Yaml.parseDash_pass`
-/

------------------------------------------------------------
-- The Next Line
------------------------------------------------------------

namespace AsyncapiDocs.Yaml

open Python (Str Value strip)

variable {nested : Reader → Option (Value × Reader)}
variable {reader : Reader}
variable {line : Str}
variable {lines : List Str}

theorem Reader.skip_skip (reader : Reader) :
    reader.skip.skip = reader.skip := by
  simp only [Reader.skip, List.dropWhile_idempotent]

theorem isBlank_of_skip
    (hRest : reader.skip.rest = line :: lines) :
    isBlank line = false := by
  have hHead := List.head?_dropWhile_not isBlank reader.rest
  have hSkip :
      reader.rest.dropWhile isBlank = line :: lines := hRest
  rw [hSkip] at hHead
  exact hHead

theorem Reader.skip_suffix (reader : Reader) :
    reader.skip.rest <:+ reader.rest :=
  List.dropWhile_suffix _

/- The lines behind a line that is read. -/
theorem suffix_of_skip
    (hRest : reader.skip.rest = line :: lines) :
    lines <:+ reader.rest := by
  have hSuffix := reader.skip_suffix
  rw [hRest] at hSuffix
  exact (List.suffix_cons line lines).trans hSuffix

theorem mem_of_skip
    (hRest : reader.skip.rest = line :: lines) :
    line ∈ reader.rest := by
  apply reader.skip_suffix.subset
  rw [hRest]
  exact List.mem_cons_self

/- No line is there, or the next one is too far left. -/
theorem valueBelow_end
    {least : ℕ}
    (hEnd : ∀ line ∈ reader.skip.rest.head?, indent line < least) :
    valueBelow nested least reader =
      some (.none, reader.skip) := by
  unfold valueBelow
  dsimp only
  cases hRest : reader.skip.rest with
  | nil => rfl
  | cons line lines =>
      rw [hRest] at hEnd
      exact if_neg (Nat.not_le.mpr (hEnd line rfl))

theorem valueBelow_nested
    {least : ℕ}
    (hRest : reader.skip.rest = line :: lines)
    (hDeep : least ≤ indent line) :
    valueBelow nested least reader = nested reader.skip := by
  unfold valueBelow
  dsimp only
  rw [hRest]
  exact if_pos hDeep

end AsyncapiDocs.Yaml

------------------------------------------------------------
-- Passes
------------------------------------------------------------

namespace AsyncapiDocs.Yaml

open Python (Str Value strip)

variable {scalars : Scalars}
variable {fuel base : ℕ}
variable {reader : Reader}
variable {line : Str}
variable {lines : List Str}

theorem parseMapping_nil
    (hRest : reader.skip.rest = [])
    (result : List (Str × Value)) :
    parseMapping scalars (fuel + 1) base result reader =
      some (result, reader.skip) := by
  rw [parseMapping]
  simp only [hRest]

theorem parseMapping_stop
    (hRest : reader.skip.rest = line :: lines)
    (hStop : indent line ≠ base ∨ startsDash (strip line) = true)
    (result : List (Str × Value)) :
    parseMapping scalars (fuel + 1) base result reader =
      some (result, reader.skip) := by
  rw [parseMapping]
  simp only [hRest, if_pos hStop]

theorem parseMapping_lost
    (hRest : reader.skip.rest = line :: lines)
    (hGo : ¬ (indent line ≠ base ∨ startsDash (strip line) = true))
    (hMatch : scalars.keyMatch line = none)
    (result : List (Str × Value)) :
    parseMapping scalars (fuel + 1) base result reader =
      parseMapping scalars fuel base result
        ⟨lines, reader.skip.log ++ [.lost line]⟩ := by
  rw [parseMapping]
  simp only [hRest, if_neg hGo, hMatch]

theorem parseMapping_key
    {key rest : Str}
    {value : Value}
    {result : List (Str × Value)}
    {after : Reader}
    (hRest : reader.skip.rest = line :: lines)
    (hGo : ¬ (indent line ≠ base ∨ startsDash (strip line) = true))
    (hMatch : scalars.keyMatch line = some (key, rest))
    (hValue :
      keyValue scalars (parseValue scalars fuel) base
          (stripComment rest)
          ⟨lines,
            reader.skip.log ++
              [keyUse (scalars.keyName line) key result]⟩ =
        some (value, after)) :
    parseMapping scalars (fuel + 1) base result reader =
      parseMapping scalars fuel base
        (Python.setEntry key value result) after := by
  rw [parseMapping]
  simp only [hRest, if_neg hGo, hMatch, hValue,
    Option.bind_eq_bind, Option.bind_some]

theorem parseSequence_nil
    (hRest : reader.skip.rest = [])
    (result : List Value) :
    parseSequence scalars (fuel + 1) base result reader =
      some (result, reader.skip) := by
  rw [parseSequence]
  simp only [hRest]

theorem parseSequence_stop
    (hRest : reader.skip.rest = line :: lines)
    (hStop :
      indent line ≠ base ∨ (!startsWith '-' (strip line)) = true)
    (result : List Value) :
    parseSequence scalars (fuel + 1) base result reader =
      some (result, reader.skip) := by
  rw [parseSequence]
  simp only [hRest, if_pos hStop]

theorem parseSequence_item
    {value : Value}
    {result : List Value}
    {after : Reader}
    (hRest : reader.skip.rest = line :: lines)
    (hGo :
      ¬ (indent line ≠ base ∨
        (!startsWith '-' (strip line)) = true))
    (hValue :
      itemValue scalars (parseValue scalars fuel)
          (parseDashInlineMapping scalars fuel (base + 2))
          base (strip ((strip line).drop 1))
          ⟨lines, reader.skip.log ++ [.item]⟩ =
        some (value, after)) :
    parseSequence scalars (fuel + 1) base result reader =
      parseSequence scalars fuel base (result ++ [value])
        after := by
  rw [parseSequence]
  simp only [hRest, if_neg hGo, hValue, Option.bind_eq_bind,
    Option.bind_some]

theorem parseDash_nil
    (hRest : reader.skip.rest = [])
    (result : List (Str × Value)) :
    parseDashInlineMapping scalars (fuel + 1) base result
        reader =
      some (result, reader.skip) := by
  rw [parseDashInlineMapping]
  simp only [hRest]

theorem parseDash_stop
    (hRest : reader.skip.rest = line :: lines)
    (hStop : indent line ≠ base ∨ scalars.keyMatch line = none)
    (result : List (Str × Value)) :
    parseDashInlineMapping scalars (fuel + 1) base result
        reader =
      some (result, reader.skip) := by
  rw [parseDashInlineMapping]
  by_cases hIndent : indent line ≠ base
  · simp only [hRest, if_pos hIndent]
  · simp only [hRest, if_neg hIndent,
      hStop.resolve_left hIndent]

theorem parseDash_key
    {key rest : Str}
    {value : Value}
    {result : List (Str × Value)}
    {after : Reader}
    (hRest : reader.skip.rest = line :: lines)
    (hIndent : indent line = base)
    (hMatch : scalars.keyMatch line = some (key, rest))
    (hValue :
      keyValue scalars (parseValue scalars fuel) base
          (stripComment rest)
          ⟨lines,
            reader.skip.log ++
              [keyUse (scalars.keyName line) key result]⟩ =
        some (value, after)) :
    parseDashInlineMapping scalars (fuel + 1) base result
        reader =
      parseDashInlineMapping scalars fuel base
        (Python.setEntry key value result) after := by
  rw [parseDashInlineMapping]
  simp only [hRest, if_neg (not_not.mpr hIndent), hMatch, hValue,
    Option.bind_eq_bind, Option.bind_some]

/- Lines that are too far left end each of the loops. -/
theorem parseMapping_low
    (hLow : ∀ line ∈ reader.skip.rest.head?, indent line < base)
    (result : List (Str × Value)) :
    parseMapping scalars (fuel + 1) base result reader =
      some (result, reader.skip) := by
  cases hRest : reader.skip.rest with
  | nil => exact parseMapping_nil hRest result
  | cons line lines =>
      rw [hRest] at hLow
      have hIndent := Nat.ne_of_lt (hLow line rfl)
      exact parseMapping_stop hRest (Or.inl hIndent) result

theorem parseDash_low
    (hLow : ∀ line ∈ reader.skip.rest.head?, indent line < base)
    (result : List (Str × Value)) :
    parseDashInlineMapping scalars (fuel + 1) base result
        reader =
      some (result, reader.skip) := by
  cases hRest : reader.skip.rest with
  | nil => exact parseDash_nil hRest result
  | cons line lines =>
      rw [hRest] at hLow
      have hIndent := Nat.ne_of_lt (hLow line rfl)
      exact parseDash_stop hRest (Or.inl hIndent) result

theorem parseSequence_low
    (hLow : ∀ line ∈ reader.skip.rest.head?, indent line < base)
    (result : List Value) :
    parseSequence scalars (fuel + 1) base result reader =
      some (result, reader.skip) := by
  cases hRest : reader.skip.rest with
  | nil => exact parseSequence_nil hRest result
  | cons line lines =>
      rw [hRest] at hLow
      have hIndent := Nat.ne_of_lt (hLow line rfl)
      exact parseSequence_stop hRest (Or.inl hIndent) result

end AsyncapiDocs.Yaml

------------------------------------------------------------
-- Passes with a Result
------------------------------------------------------------

namespace AsyncapiDocs.Yaml

open Python (Str Value strip)

variable {scalars : Scalars}
variable {fuel base : ℕ}
variable {reader last : Reader}

theorem parseMapping_key_some
    {line key rest : Str}
    {lines : List Str}
    {result entries : List (Str × Value)}
    (hRest : reader.skip.rest = line :: lines)
    (hGo : ¬ (indent line ≠ base ∨ startsDash (strip line) = true))
    (hMatch : scalars.keyMatch line = some (key, rest))
    (hRun :
      parseMapping scalars (fuel + 1) base result reader =
        some (entries, last)) :
    ∃ value after,
      keyValue scalars (parseValue scalars fuel) base
          (stripComment rest)
          ⟨lines,
            reader.skip.log ++
              [keyUse (scalars.keyName line) key result]⟩ =
        some (value, after) ∧
      parseMapping scalars fuel base
          (Python.setEntry key value result) after =
        some (entries, last) := by
  rw [parseMapping] at hRun
  simp only [hRest, if_neg hGo, hMatch, Option.bind_eq_bind,
    Option.bind_eq_some_iff] at hRun
  rcases hRun with ⟨⟨value, after⟩, hValue, hMore⟩
  exact ⟨value, after, hValue, hMore⟩

theorem parseSequence_item_some
    {line : Str}
    {lines : List Str}
    {result items : List Value}
    (hRest : reader.skip.rest = line :: lines)
    (hGo :
      ¬ (indent line ≠ base ∨
        (!startsWith '-' (strip line)) = true))
    (hRun :
      parseSequence scalars (fuel + 1) base result reader =
        some (items, last)) :
    ∃ value after,
      itemValue scalars (parseValue scalars fuel)
          (parseDashInlineMapping scalars fuel (base + 2))
          base (strip ((strip line).drop 1))
          ⟨lines, reader.skip.log ++ [.item]⟩ =
        some (value, after) ∧
      parseSequence scalars fuel base (result ++ [value])
          after =
        some (items, last) := by
  rw [parseSequence] at hRun
  simp only [hRest, if_neg hGo, Option.bind_eq_bind,
    Option.bind_eq_some_iff] at hRun
  rcases hRun with ⟨⟨value, after⟩, hValue, hMore⟩
  exact ⟨value, after, hValue, hMore⟩

/- What a pass of `_parse_mapping` with a result has done. -/
inductive MappingPass
    (scalars : Scalars)
    (fuel base : ℕ)
    (result : List (Str × Value))
    (reader : Reader) :
    List (Str × Value) → Reader → Prop where
  | nil (hRest : reader.skip.rest = []) :
      MappingPass scalars fuel base result reader result
        reader.skip
  | stop
      {line : Str}
      {lines : List Str}
      (hRest : reader.skip.rest = line :: lines)
      (hStop :
        indent line ≠ base ∨ startsDash (strip line) = true) :
      MappingPass scalars fuel base result reader result
        reader.skip
  | lost
      {line : Str}
      {lines : List Str}
      {entries : List (Str × Value)}
      {last : Reader}
      (hRest : reader.skip.rest = line :: lines)
      (hGo :
        ¬ (indent line ≠ base ∨
          startsDash (strip line) = true))
      (hMatch : scalars.keyMatch line = none)
      (hMore :
        parseMapping scalars fuel base result
            ⟨lines, reader.skip.log ++ [.lost line]⟩ =
          some (entries, last)) :
      MappingPass scalars fuel base result reader entries last
  | key
      {line key rest : Str}
      {lines : List Str}
      {value : Value}
      {entries : List (Str × Value)}
      {after last : Reader}
      (hRest : reader.skip.rest = line :: lines)
      (hGo :
        ¬ (indent line ≠ base ∨
          startsDash (strip line) = true))
      (hMatch : scalars.keyMatch line = some (key, rest))
      (hValue :
        keyValue scalars (parseValue scalars fuel) base
            (stripComment rest)
            ⟨lines,
              reader.skip.log ++
                [keyUse (scalars.keyName line) key result]⟩ =
          some (value, after))
      (hMore :
        parseMapping scalars fuel base
            (Python.setEntry key value result) after =
          some (entries, last)) :
      MappingPass scalars fuel base result reader entries last

/- What a pass of `_parse_sequence` with a result has done. -/
inductive SequencePass
    (scalars : Scalars)
    (fuel base : ℕ)
    (result : List Value)
    (reader : Reader) :
    List Value → Reader → Prop where
  | nil (hRest : reader.skip.rest = []) :
      SequencePass scalars fuel base result reader result
        reader.skip
  | stop
      {line : Str}
      {lines : List Str}
      (hRest : reader.skip.rest = line :: lines)
      (hStop :
        indent line ≠ base ∨
          (!startsWith '-' (strip line)) = true) :
      SequencePass scalars fuel base result reader result
        reader.skip
  | item
      {line : Str}
      {lines : List Str}
      {value : Value}
      {items : List Value}
      {after last : Reader}
      (hRest : reader.skip.rest = line :: lines)
      (hGo :
        ¬ (indent line ≠ base ∨
          (!startsWith '-' (strip line)) = true))
      (hValue :
        itemValue scalars (parseValue scalars fuel)
            (parseDashInlineMapping scalars fuel (base + 2))
            base (strip ((strip line).drop 1))
            ⟨lines, reader.skip.log ++ [.item]⟩ =
          some (value, after))
      (hMore :
        parseSequence scalars fuel base (result ++ [value])
            after =
          some (items, last)) :
      SequencePass scalars fuel base result reader items last

/- What a pass behind a dash with a result has done. -/
inductive DashPass
    (scalars : Scalars)
    (fuel base : ℕ)
    (result : List (Str × Value))
    (reader : Reader) :
    List (Str × Value) → Reader → Prop where
  | nil (hRest : reader.skip.rest = []) :
      DashPass scalars fuel base result reader result
        reader.skip
  | stop
      {line : Str}
      {lines : List Str}
      (hRest : reader.skip.rest = line :: lines)
      (hStop :
        indent line ≠ base ∨ scalars.keyMatch line = none) :
      DashPass scalars fuel base result reader result
        reader.skip
  | key
      {line key rest : Str}
      {lines : List Str}
      {value : Value}
      {entries : List (Str × Value)}
      {after last : Reader}
      (hRest : reader.skip.rest = line :: lines)
      (hIndent : indent line = base)
      (hMatch : scalars.keyMatch line = some (key, rest))
      (hValue :
        keyValue scalars (parseValue scalars fuel) base
            (stripComment rest)
            ⟨lines,
              reader.skip.log ++
                [keyUse (scalars.keyName line) key result]⟩ =
          some (value, after))
      (hMore :
        parseDashInlineMapping scalars fuel base
            (Python.setEntry key value result) after =
          some (entries, last)) :
      DashPass scalars fuel base result reader entries last

theorem parseMapping_pass
    {result entries : List (Str × Value)}
    (hRun :
      parseMapping scalars (fuel + 1) base result reader =
        some (entries, last)) :
    MappingPass scalars fuel base result reader entries last := by
  cases hRest : reader.skip.rest with
  | nil =>
      rw [parseMapping_nil hRest] at hRun
      cases hRun
      exact .nil hRest
  | cons line lines =>
      by_cases hStop :
        indent line ≠ base ∨ startsDash (strip line) = true
      · rw [parseMapping_stop hRest hStop] at hRun
        cases hRun
        exact .stop hRest hStop
      · cases hMatch : scalars.keyMatch line with
        | none =>
            rw [parseMapping_lost hRest hStop hMatch] at hRun
            exact .lost hRest hStop hMatch hRun
        | some entry =>
            rcases parseMapping_key_some hRest hStop hMatch hRun
              with ⟨value, after, hValue, hMore⟩
            exact .key hRest hStop hMatch hValue hMore

theorem parseSequence_pass
    {result items : List Value}
    (hRun :
      parseSequence scalars (fuel + 1) base result reader =
        some (items, last)) :
    SequencePass scalars fuel base result reader items last := by
  cases hRest : reader.skip.rest with
  | nil =>
      rw [parseSequence_nil hRest] at hRun
      cases hRun
      exact .nil hRest
  | cons line lines =>
      by_cases hStop :
        indent line ≠ base ∨
          (!startsWith '-' (strip line)) = true
      · rw [parseSequence_stop hRest hStop] at hRun
        cases hRun
        exact .stop hRest hStop
      · rcases parseSequence_item_some hRest hStop hRun with
          ⟨value, after, hValue, hMore⟩
        exact .item hRest hStop hValue hMore

theorem parseDash_pass
    {result entries : List (Str × Value)}
    (hRun :
      parseDashInlineMapping scalars (fuel + 1) base result
          reader =
        some (entries, last)) :
    DashPass scalars fuel base result reader entries last := by
  cases hRest : reader.skip.rest with
  | nil =>
      rw [parseDash_nil hRest] at hRun
      cases hRun
      exact .nil hRest
  | cons line lines =>
      by_cases hIndent : indent line = base
      · cases hMatch : scalars.keyMatch line with
        | none =>
            rw [parseDash_stop hRest (Or.inr hMatch)] at hRun
            cases hRun
            exact .stop hRest (Or.inr hMatch)
        | some entry =>
            rw [parseDashInlineMapping] at hRun
            simp only [hRest, if_neg (not_not.mpr hIndent),
              hMatch, Option.bind_eq_bind,
              Option.bind_eq_some_iff] at hRun
            rcases hRun with ⟨⟨value, after⟩, hValue, hMore⟩
            exact .key hRest hIndent hMatch hValue hMore
      · rw [parseDash_stop hRest (Or.inl hIndent)] at hRun
        cases hRun
        exact .stop hRest (Or.inl hIndent)

end AsyncapiDocs.Yaml
