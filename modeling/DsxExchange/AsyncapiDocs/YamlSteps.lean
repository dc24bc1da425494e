import DsxExchange.AsyncapiDocs.YamlCoverage

/-
  The steps of the parser: its calls, and the passes of its
  loops over lines. Each of them can be paid for with the lines
  that it leaves behind.

  Key definitions include:
    * `AsyncapiDocs.Yaml.valueSteps`,
      `AsyncapiDocs.Yaml.mappingSteps`,
      `AsyncapiDocs.Yaml.sequenceSteps`,
      `AsyncapiDocs.Yaml.dashSteps`
    * `AsyncapiDocs.Yaml.EndsAt`, `AsyncapiDocs.Yaml.Progresses`

  Key theorems include:
    * `AsyncapiDocs.Yaml.endsAt`
    * `AsyncapiDocs.Yaml.parse_terminates`
-/

------------------------------------------------------------
-- Counting
------------------------------------------------------------

namespace AsyncapiDocs.Yaml

open Python (Str Value strip)

/- The passes of `_skip_blanks_and_comments`. -/
def Reader.skipSteps (reader : Reader) : ℕ :=
  (reader.rest.takeWhile isBlank).length + 1

/- The passes of the loop of `_parse_block_scalar`. -/
def blockPasses (base : ℕ) : Option ℕ → List Str → ℕ
| _, [] => 1
| blockIndent, raw :: rest =>
    if strip raw = [] then
      1 + blockPasses base blockIndent rest
    else
      let least := blockIndent.getD (indent raw)
      if indent raw ≤ base ∨ indent raw < least then
        1
      else
        1 + blockPasses base (some least) rest

/- The lines without the blank ones at the end. -/
def keptLines (indicator : Str) (lines : List Str) : List Str :=
  if indicator.getLast? = some '+' then
    lines
  else
    lines.rdropWhile (· = [])

/-
  The passes that take blank lines off the end, and those that
  fold what is left.
-/
def textPasses (indicator : Str) (lines : List Str) : ℕ :=
  let kept := keptLines indicator lines
  (lines.length - kept.length) + 1 +
    if startsWith '>' indicator then kept.length else 0

/- The passes of `_parse_block_scalar`. -/
def blockSteps
    (indicator : Str)
    (base : ℕ)
    (reader : Reader) : ℕ :=
  blockPasses base none reader.rest +
    textPasses indicator (blockLines base none reader.rest).1

/- The passes of the loop of `_parse_plain_scalar`. -/
def plainPasses (base : ℕ) : List Str → List Str → ℕ
| _, [] => 1
| parts, line :: rest =>
    if endsPlain base parts line then
      1
    else
      1 + plainPasses base (parts ++ [strip line]) rest

/- The steps of a value on the lines below, if there is one. -/
def belowSteps
    (nestedSteps : Reader → ℕ)
    (least : ℕ)
    (reader : Reader) : ℕ :=
  reader.skipSteps +
    match reader.skip.rest with
    | [] => 0
    | line :: _ =>
        if least ≤ indent line then
          nestedSteps reader.skip
        else
          0

/- The steps of the value of a key. -/
def keySteps
    (nestedSteps : Reader → ℕ)
    (base : ℕ)
    (rest : Str)
    (reader : Reader) : ℕ :=
  if isBlockIndicator rest then
    blockSteps rest base reader
  else if rest = [] then
    belowSteps nestedSteps (base + 1) reader
  else
    1

/- The steps of the first entry of a mapping behind a dash. -/
def firstSteps
    (scalars : Scalars)
    (nestedSteps : Reader → ℕ)
    (continuation : ℕ)
    (firstKv : Str)
    (reader : Reader) : ℕ :=
  match scalars.keyMatch firstKv with
  | none => 1
  | some (key, rest) =>
      if stripComment rest ≠ [] then
        1
      else
        belowSteps nestedSteps continuation
          (reader.note (keyUse (scalars.keyName firstKv) key []))

/- The steps of an item, with those of its further entries. -/
def itemSteps
    (scalars : Scalars)
    (nested : Reader → Option (Value × Reader))
    (nestedSteps : Reader → ℕ)
    (moreSteps : List (Str × Value) → Reader → ℕ)
    (base : ℕ)
    (afterDash : Str)
    (reader : Reader) : ℕ :=
  if afterDash = [] then
    belowSteps nestedSteps (base + 1) reader
  else if isInlineMapping afterDash then
    1 + firstSteps scalars nestedSteps (base + 2) afterDash
        reader +
      match dashFirst scalars nested (base + 2) afterDash
          reader with
      | none => 0
      | some (first, next) => moreSteps first next
  else
    1

mutual

/- The steps of `_parse_value`. -/
def valueSteps (scalars : Scalars) : ℕ → Reader → ℕ
| 0, _ => 0
| fuel + 1, reader =>
    let next := reader.skip
    1 + reader.skipSteps +
      match next.rest with
      | [] => 0
      | line :: lines =>
          let base := indent line
          let stripped := strip line
          if startsDash stripped ∨ stripped = ['-'] then
            sequenceSteps scalars fuel base [] next
          else if isMappingKey stripped then
            mappingSteps scalars fuel base [] next
          else if startsWith '\x7b' stripped then
            1
          else if startsWith '[' stripped then
            1
          else
            plainPasses base [] (line :: lines)

/- The passes of `_parse_mapping`, with what they call. -/
def mappingSteps
    (scalars : Scalars) :
    ℕ → ℕ → List (Str × Value) → Reader → ℕ
| 0, _, _, _ => 0
| fuel + 1, base, result, reader =>
    let next := reader.skip
    1 + reader.skipSteps +
      match next.rest with
      | [] => 0
      | line :: lines =>
          if indent line ≠ base ∨ startsDash (strip line) then
            0
          else
            match scalars.keyMatch line with
            | none =>
                mappingSteps scalars fuel base result
                  ⟨lines, next.log ++ [.lost line]⟩
            | some (key, rest) =>
                let reader :=
                  ⟨lines,
                    next.log ++
                      [keyUse (scalars.keyName line) key result]⟩
                keySteps (valueSteps scalars fuel) base
                    (stripComment rest) reader +
                  match keyValue scalars
                      (parseValue scalars fuel) base
                      (stripComment rest) reader with
                  | none => 0
                  | some (value, after) =>
                      mappingSteps scalars fuel base
                        (Python.setEntry key value result)
                        after

/- The passes of `_parse_sequence`, with what they call. -/
def sequenceSteps
    (scalars : Scalars) :
    ℕ → ℕ → List Value → Reader → ℕ
| 0, _, _, _ => 0
| fuel + 1, base, result, reader =>
    let next := reader.skip
    1 + reader.skipSteps +
      match next.rest with
      | [] => 0
      | line :: lines =>
          let stripped := strip line
          if indent line ≠ base ∨ !startsWith '-' stripped then
            0
          else
            let afterDash := strip (stripped.drop 1)
            let reader := ⟨lines, next.log ++ [.item]⟩
            itemSteps scalars (parseValue scalars fuel)
                (valueSteps scalars fuel)
                (dashSteps scalars fuel (base + 2))
                base afterDash reader +
              match itemValue scalars (parseValue scalars fuel)
                  (parseDashInlineMapping scalars fuel
                    (base + 2))
                  base afterDash reader with
              | none => 0
              | some (value, after) =>
                  sequenceSteps scalars fuel base
                    (result ++ [value]) after

/-
  The passes of the loop of `_parse_dash_inline_mapping`, with
  what they call.
-/
def dashSteps
    (scalars : Scalars) :
    ℕ → ℕ → List (Str × Value) → Reader → ℕ
| 0, _, _, _ => 0
| fuel + 1, continuation, result, reader =>
    let next := reader.skip
    1 + reader.skipSteps +
      match next.rest with
      | [] => 0
      | line :: lines =>
          if indent line ≠ continuation then
            0
          else
            match scalars.keyMatch line with
            | none => 0
            | some (key, rest) =>
                let reader :=
                  ⟨lines,
                    next.log ++
                      [keyUse (scalars.keyName line) key result]⟩
                keySteps (valueSteps scalars fuel) continuation
                    (stripComment rest) reader +
                  match keyValue scalars
                      (parseValue scalars fuel) continuation
                      (stripComment rest) reader with
                  | none => 0
                  | some (value, after) =>
                      dashSteps scalars fuel continuation
                        (Python.setEntry key value result)
                        after

end

/- The steps of `parse`. -/
def parseSteps (scalars : Scalars) (fuel : ℕ) (text : Str) : ℕ :=
  let reader : Reader := ⟨splitLines text, []⟩
  1 + reader.skipSteps +
    match reader.skip.rest with
    | [] => 0
    | _ :: _ => valueSteps scalars fuel reader.skip

end AsyncapiDocs.Yaml

------------------------------------------------------------
-- What Lines Pay For
------------------------------------------------------------

namespace AsyncapiDocs.Yaml

open Python (Str Value strip)

variable {α : Type}
variable {scalars : Scalars}
variable {nested : Reader → Option (Value × Reader)}
variable {nestedSteps : Reader → ℕ}

/-
  A method ends. It leaves at least so many lines behind, and
  twelve steps for each of them pay for what it does, but for
  an allowance.
-/
def Paid
    (run : Option (α × Reader))
    (steps behind allowance : ℕ)
    (reader : Reader) : Prop :=
  ∃ result after, run = some (result, after) ∧
    after.rest.length + behind ≤ reader.rest.length ∧
    steps + 12 * after.rest.length ≤
      12 * reader.rest.length + allowance

/- What is asked of `_parse_value` on so many lines at most. -/
def PaysValue
    (nested : Reader → Option (Value × Reader))
    (nestedSteps : Reader → ℕ)
    (most : ℕ) : Prop :=
  ∀ reader : Reader, reader.rest.length ≤ most →
    reader.skip.rest ≠ [] →
      Paid (nested reader) (nestedSteps reader) 1 0 reader

theorem Reader.skipSteps_add (reader : Reader) :
    reader.skipSteps + reader.skip.rest.length =
      reader.rest.length + 1 := by
  have hParts :=
    congrArg List.length
      (List.takeWhile_append_dropWhile
        (p := isBlank) (l := reader.rest))
  rw [List.length_append] at hParts
  unfold Reader.skipSteps Reader.skip
  dsimp only
  omega

theorem Reader.one_le_skipSteps (reader : Reader) :
    1 ≤ reader.skipSteps :=
  Nat.le_add_left 1 _

theorem blockLines_length
    (base : ℕ)
    (blockIndent : Option ℕ)
    (lines : List Str) :
    (blockLines base blockIndent lines).1.length +
        (blockLines base blockIndent lines).2.length =
      lines.length := by
  induction lines generalizing blockIndent with
  | nil => rfl
  | cons line lines ih =>
      rw [blockLines]
      split
      · have hRest := ih blockIndent
        simp only [List.length_cons]
        omega
      · dsimp only
        split
        · simp
        · have hRest :=
            ih (some (blockIndent.getD (indent line)))
          simp only [List.length_cons]
          omega

theorem blockPasses_add
    (base : ℕ)
    (blockIndent : Option ℕ)
    (lines : List Str) :
    blockPasses base blockIndent lines +
        (blockLines base blockIndent lines).2.length =
      lines.length + 1 := by
  induction lines generalizing blockIndent with
  | nil => rfl
  | cons line lines ih =>
      rw [blockLines, blockPasses]
      by_cases hEmpty : strip line = []
      · have hRest := ih blockIndent
        simp only [if_pos hEmpty, List.length_cons]
        omega
      · rw [if_neg hEmpty, if_neg hEmpty]
        dsimp only
        split
        · simp only [List.length_cons]
          omega
        · have hRest :=
            ih (some (blockIndent.getD (indent line)))
          simp only [List.length_cons]
          omega

theorem plainPasses_add
    (base : ℕ)
    (parts lines : List Str)
    (log : List Use) :
    plainPasses base parts lines +
        (plainLines base parts lines log).2.rest.length =
      lines.length + 1 := by
  induction lines generalizing parts log with
  | nil => rfl
  | cons line lines ih =>
      rw [plainLines, plainPasses]
      split
      · simp only [List.length_cons]
        omega
      · have hRest :=
          ih (parts ++ [strip line]) (log ++ partUse parts line)
        simp only [List.length_cons]
        omega

theorem one_le_plainPasses
    (base : ℕ)
    (parts lines : List Str) :
    1 ≤ plainPasses base parts lines := by
  cases lines with
  | nil => exact Nat.le_refl 1
  | cons line lines =>
      rw [plainPasses]
      split
      · exact Nat.le_refl 1
      · exact Nat.le_add_right 1 _

theorem textPasses_le
    (indicator : Str)
    (lines : List Str) :
    textPasses indicator lines ≤ lines.length + 1 := by
  have hKept : (keptLines indicator lines).length ≤ lines.length := by
    unfold keptLines
    split
    · exact Nat.le_refl _
    · exact (List.rdropWhile_prefix _ lines).length_le
  unfold textPasses
  dsimp only
  split <;> omega

/- What is only noted takes no line. -/
theorem paid_notes
    {steps allowance : ℕ}
    (hSteps : steps ≤ allowance)
    (result : α)
    (uses : List Use)
    (reader : Reader) :
    Paid (some (result, reader.notes uses)) steps 0 allowance
      reader := by
  refine ⟨result, reader.notes uses, rfl, Nat.le_refl _, ?_⟩
  dsimp only [Reader.notes]
  omega

theorem paid_blockScalar
    (indicator : Str)
    (base : ℕ)
    (reader : Reader) :
    Paid (some (blockScalar indicator base reader))
      (blockSteps indicator base reader) 0 2 reader := by
  have hPasses := blockPasses_add base none reader.rest
  have hLines := blockLines_length base none reader.rest
  have hText :=
    textPasses_le indicator (blockLines base none reader.rest).1
  refine ⟨_, _, rfl, ?_, ?_⟩
  · dsimp only
    omega
  · unfold blockSteps
    dsimp only
    omega

theorem paid_valueBelow
    {reader : Reader}
    (hNested :
      PaysValue nested nestedSteps reader.rest.length)
    (least : ℕ) :
    Paid (valueBelow nested least reader)
      (belowSteps nestedSteps least reader) 0 1 reader := by
  have hSkip := reader.skipSteps_add
  have hSkipped := reader.one_le_skipSteps
  unfold valueBelow belowSteps
  dsimp only
  cases hRest : reader.skip.rest with
  | nil =>
      rw [hRest, List.length_nil] at hSkip
      refine ⟨_, _, rfl, ?_, ?_⟩ <;>
        simp only [hRest, List.length_nil] <;> omega
  | cons line lines =>
      dsimp only
      split
      · have hContent : reader.skip.skip.rest ≠ [] := by
          rw [Reader.skip_skip, hRest]
          exact List.cons_ne_nil _ _
        rcases hNested reader.skip (by omega) hContent with
          ⟨value, after, hRead, hBehind, hSteps⟩
        exact ⟨value, after, hRead, by omega, by omega⟩
      · exact ⟨_, _, rfl, by omega, by omega⟩

theorem paid_keyValue
    (scalars : Scalars)
    (reader : Reader)
    (hNested :
      PaysValue nested nestedSteps reader.rest.length)
    (base : ℕ)
    (rest : Str) :
    Paid (keyValue scalars nested base rest reader)
      (keySteps nestedSteps base rest reader) 0 2 reader := by
  unfold keyValue keySteps
  by_cases hBlock : isBlockIndicator rest = true
  · rw [if_pos hBlock, if_pos hBlock]
    exact paid_blockScalar rest base reader
  rw [if_neg hBlock, if_neg hBlock]
  by_cases hEmpty : rest = []
  · rw [if_pos hEmpty, if_pos hEmpty]
    rcases paid_valueBelow hNested (base + 1) with
      ⟨value, after, hRead, hBehind, hSteps⟩
    exact ⟨value, after, hRead, hBehind, by omega⟩
  rw [if_neg hEmpty, if_neg hEmpty]
  split
  · exact paid_notes (by omega) _ _ reader
  · split
    · exact paid_notes (by omega) _ _ reader
    · exact paid_notes (by omega) _ _ reader

theorem paid_dashFirst
    (scalars : Scalars)
    {reader : Reader}
    (hNested :
      PaysValue nested nestedSteps reader.rest.length)
    (continuation : ℕ)
    (firstKv : Str) :
    Paid (dashFirst scalars nested continuation firstKv reader)
      (firstSteps scalars nestedSteps continuation firstKv
        reader) 0 1 reader := by
  unfold dashFirst firstSteps
  cases scalars.keyMatch firstKv with
  | none => exact paid_notes (Nat.le_refl 1) _ _ reader
  | some found =>
      rcases found with ⟨key, rest⟩
      dsimp only
      unfold firstValue
      by_cases hScalar : stripComment rest ≠ []
      · rw [if_pos hScalar, if_pos hScalar]
        exact ⟨_, _, rfl, Nat.le_refl _, by
          dsimp only [Reader.note, Reader.notes]; omega⟩
      · rw [if_neg hScalar, if_neg hScalar]
        have hNoted :
            PaysValue nested nestedSteps
              (reader.note
                (keyUse (scalars.keyName firstKv) key
                  [])).rest.length :=
          hNested
        rcases paid_valueBelow hNoted continuation with
          ⟨value, after, hRead, hBehind, hSteps⟩
        exact ⟨[(key, value)], after, by rw [hRead]; rfl,
          hBehind, hSteps⟩

theorem paid_itemValue
    (scalars : Scalars)
    (reader : Reader)
    {mapping :
      List (Str × Value) → Reader →
        Option (List (Str × Value) × Reader)}
    {moreSteps : List (Str × Value) → Reader → ℕ}
    (hNested :
      PaysValue nested nestedSteps reader.rest.length)
    (hMore :
      ∀ first next,
        next.rest.length ≤ reader.rest.length →
          Paid (mapping first next) (moreSteps first next) 0 2
            next)
    (base : ℕ)
    (afterDash : Str) :
    Paid (itemValue scalars nested mapping base afterDash reader)
      (itemSteps scalars nested nestedSteps moreSteps base
        afterDash reader) 0 4 reader := by
  unfold itemValue itemSteps
  by_cases hEmpty : afterDash = []
  · rw [if_pos hEmpty, if_pos hEmpty]
    rcases paid_valueBelow hNested (base + 1) with
      ⟨value, after, hRead, hBehind, hSteps⟩
    exact ⟨value, after, hRead, hBehind, by omega⟩
  rw [if_neg hEmpty, if_neg hEmpty]
  by_cases hInline : isInlineMapping afterDash = true
  · rw [if_pos hInline, if_pos hInline]
    rcases paid_dashFirst scalars hNested (base + 2) afterDash with
      ⟨first, next, hFirst, hFirstBehind, hFirstSteps⟩
    rcases hMore first next (by omega) with
      ⟨entries, after, hRead, hBehind, hSteps⟩
    refine ⟨.dict entries, after, ?_, by omega, ?_⟩
    · simp only [hFirst, Option.bind_eq_bind,
        Option.bind_some, hRead]
      rfl
    · rw [hFirst]
      dsimp only
      omega
  · rw [if_neg hInline, if_neg hInline]
    exact paid_notes (by omega) _ _ reader

end AsyncapiDocs.Yaml

------------------------------------------------------------
-- Passes of the Loops
------------------------------------------------------------

namespace AsyncapiDocs.Yaml

open Python (Str Value strip)

variable {σ : Type}
variable {scalars : Scalars}

/-
  Where a pass of `_parse_mapping` leads to: behind a line that
  it leaves out, or behind the value of a key.
-/
inductive MappingNext
    (scalars : Scalars)
    (base fuel : ℕ)
    (result : List (Str × Value))
    (reader : Reader) :
    List (Str × Value) → Reader → Prop where
  | lost
      {line : Str}
      {lines : List Str}
      (hRest : reader.skip.rest = line :: lines)
      (hMatch : scalars.keyMatch line = none) :
      MappingNext scalars base fuel result reader result
        ⟨lines, reader.skip.log ++ [.lost line]⟩
  | key
      {line key rest : Str}
      {lines : List Str}
      {value : Value}
      {after : Reader}
      (hRest : reader.skip.rest = line :: lines)
      (hMatch : scalars.keyMatch line = some (key, rest))
      (hValue :
        keyValue scalars (parseValue scalars fuel) base
            (stripComment rest)
            ⟨lines,
              reader.skip.log ++
                [keyUse (scalars.keyName line) key result]⟩ =
          some (value, after)) :
      MappingNext scalars base fuel result reader
        (Python.setEntry key value result) after

/- Where a pass behind a dash leads to. -/
inductive DashNext
    (scalars : Scalars)
    (base fuel : ℕ)
    (result : List (Str × Value))
    (reader : Reader) :
    List (Str × Value) → Reader → Prop where
  | key
      {line key rest : Str}
      {lines : List Str}
      {value : Value}
      {after : Reader}
      (hRest : reader.skip.rest = line :: lines)
      (hMatch : scalars.keyMatch line = some (key, rest))
      (hValue :
        keyValue scalars (parseValue scalars fuel) base
            (stripComment rest)
            ⟨lines,
              reader.skip.log ++
                [keyUse (scalars.keyName line) key result]⟩ =
          some (value, after)) :
      DashNext scalars base fuel result reader
        (Python.setEntry key value result) after

/- Where a pass of `_parse_sequence` leads to. -/
inductive SequenceNext
    (scalars : Scalars)
    (base fuel : ℕ)
    (result : List Value)
    (reader : Reader) :
    List Value → Reader → Prop where
  | item
      {line : Str}
      {lines : List Str}
      {value : Value}
      {after : Reader}
      (hRest : reader.skip.rest = line :: lines)
      (hValue :
        itemValue scalars (parseValue scalars fuel)
            (parseDashInlineMapping scalars fuel (base + 2))
            base (strip ((strip line).drop 1))
            ⟨lines, reader.skip.log ++ [.item]⟩ =
          some (value, after)) :
      SequenceNext scalars base fuel result reader
        (result ++ [value]) after

/-
  A pass of a loop that goes on, to where it leads. It leaves a
  line behind, which pays for the pass and more.
-/
def GoesOn
    (loop : ℕ → σ → Reader → Option (σ × Reader))
    (steps : ℕ → σ → Reader → ℕ)
    (leads : ℕ → σ → Reader → σ → Reader → Prop)
    (fuel : ℕ)
    (result : σ)
    (reader : Reader) : Prop :=
  ∃ result' next,
    leads fuel result reader result' next ∧
    loop (fuel + 1) result reader = loop fuel result' next ∧
      next.rest.length < reader.rest.length ∧
      steps (fuel + 1) result reader + 12 * next.rest.length + 5 ≤
        12 * reader.rest.length + steps fuel result' next

/- A pass of a loop, which goes on or is the last one. -/
def Passes
    (loop : ℕ → σ → Reader → Option (σ × Reader))
    (steps : ℕ → σ → Reader → ℕ)
    (leads : ℕ → σ → Reader → σ → Reader → Prop)
    (fuel : ℕ)
    (result : σ)
    (reader : Reader) : Prop :=
  (loop (fuel + 1) result reader =
      some (result, reader.skip) ∧
    steps (fuel + 1) result reader = 1 + reader.skipSteps) ∨
  GoesOn loop steps leads fuel result reader

/- A pass, and the passes behind it. -/
theorem paid_of_passes
    {loop : ℕ → σ → Reader → Option (σ × Reader)}
    {steps : ℕ → σ → Reader → ℕ}
    {leads : ℕ → σ → Reader → σ → Reader → Prop}
    {fuel : ℕ}
    {result : σ}
    {reader : Reader}
    (hBound : 2 * reader.rest.length + 1 ≤ fuel + 1)
    (hRest :
      ∀ result next, 2 * next.rest.length + 1 ≤ fuel →
        Paid (loop fuel result next) (steps fuel result next)
          0 2 next)
    (hPasses : Passes loop steps leads fuel result reader) :
    Paid (loop (fuel + 1) result reader)
      (steps (fuel + 1) result reader) 0 2 reader := by
  have hSkip := reader.skipSteps_add
  rcases hPasses with
    ⟨hLast, hSteps⟩ | ⟨result', next, _, hLoop, hLess, hSteps⟩
  · have hSkipped := reader.one_le_skipSteps
    exact ⟨result, reader.skip, hLast, by omega, by omega⟩
  · rcases hRest result' next (by omega) with
      ⟨entries, after, hRead, hBehind, hMore⟩
    exact ⟨entries, after, hLoop.trans hRead, by omega,
      by omega⟩

/- A loop that goes on leaves a line behind. -/
theorem paid_of_goesOn
    {loop : ℕ → σ → Reader → Option (σ × Reader)}
    {steps : ℕ → σ → Reader → ℕ}
    {leads : ℕ → σ → Reader → σ → Reader → Prop}
    {fuel : ℕ}
    {result : σ}
    {reader : Reader}
    (hBound : 2 * reader.rest.length + 1 ≤ fuel + 1)
    (hRest :
      ∀ result next, 2 * next.rest.length + 1 ≤ fuel →
        Paid (loop fuel result next) (steps fuel result next)
          0 2 next)
    (hGoesOn : GoesOn loop steps leads fuel result reader) :
    Paid (loop (fuel + 1) result reader)
      (steps (fuel + 1) result reader + 3) 1 0 reader := by
  rcases hGoesOn with ⟨result', next, _, hLoop, hLess, hSteps⟩
  rcases hRest result' next (by omega) with
    ⟨entries, after, hRead, hBehind, hMore⟩
  exact ⟨entries, after, hLoop.trans hRead, by omega, by omega⟩

/- The methods of the parser, called with a bound. -/
structure EndsAt (scalars : Scalars) (fuel : ℕ) : Prop where
  value :
    ∀ reader : Reader, 2 * reader.rest.length + 2 ≤ fuel →
      reader.skip.rest ≠ [] →
        Paid (parseValue scalars fuel reader)
          (valueSteps scalars fuel reader) 1 0 reader
  mapping :
    ∀ base result reader, 2 * reader.rest.length + 1 ≤ fuel →
      Paid (parseMapping scalars fuel base result reader)
        (mappingSteps scalars fuel base result reader) 0 2
        reader
  mappingOpen :
    ∀ base result reader line lines,
      2 * reader.rest.length + 1 ≤ fuel →
        reader.skip.rest = line :: lines →
          indent line = base → startsDash (strip line) = false →
            Paid (parseMapping scalars fuel base result reader)
              (mappingSteps scalars fuel base result reader + 3)
              1 0 reader
  sequence :
    ∀ base result reader, 2 * reader.rest.length + 1 ≤ fuel →
      Paid (parseSequence scalars fuel base result reader)
        (sequenceSteps scalars fuel base result reader) 0 2
        reader
  sequenceOpen :
    ∀ base result reader line lines,
      2 * reader.rest.length + 1 ≤ fuel →
        reader.skip.rest = line :: lines →
          indent line = base →
            startsWith '-' (strip line) = true →
              Paid (parseSequence scalars fuel base result reader)
                (sequenceSteps scalars fuel base result reader +
                  3)
                1 0 reader
  dash :
    ∀ continuation result reader,
      2 * reader.rest.length + 1 ≤ fuel →
        Paid
          (parseDashInlineMapping scalars fuel continuation
            result reader)
          (dashSteps scalars fuel continuation result reader)
          0 2 reader

theorem EndsAt.paysValue
    {fuel most : ℕ}
    (hEnds : EndsAt scalars fuel)
    (hMost : 2 * most + 2 ≤ fuel) :
    PaysValue (parseValue scalars fuel)
      (valueSteps scalars fuel) most :=
  fun reader hReader hContent =>
    hEnds.value reader (by omega) hContent

theorem mapping_goesOn
    {fuel base : ℕ}
    {reader : Reader}
    {line : Str}
    {lines : List Str}
    (hEnds : EndsAt scalars fuel)
    (hBound : 2 * reader.rest.length + 1 ≤ fuel + 1)
    (hRest : reader.skip.rest = line :: lines)
    (hGo : ¬ (indent line ≠ base ∨ startsDash (strip line) = true))
    (result : List (Str × Value)) :
    GoesOn (fun fuel => parseMapping scalars fuel base)
      (fun fuel => mappingSteps scalars fuel base)
      (MappingNext scalars base) fuel result reader := by
  have hSkip := reader.skipSteps_add
  have hSkipped := reader.one_le_skipSteps
  rw [hRest, List.length_cons] at hSkip
  cases hMatch : scalars.keyMatch line with
  | none =>
      refine ⟨result, _, .lost hRest hMatch,
        parseMapping_lost hRest hGo hMatch result, ?_, ?_⟩
      · dsimp only
        omega
      · simp only [mappingSteps, hRest, if_neg hGo, hMatch]
        omega
  | some found =>
      rcases found with ⟨key, rest⟩
      have hNested :
          PaysValue (parseValue scalars fuel)
            (valueSteps scalars fuel) lines.length :=
        hEnds.paysValue (by omega)
      rcases paid_keyValue scalars
        ⟨lines,
          reader.skip.log ++
            [keyUse (scalars.keyName line) key result]⟩
        hNested
        base (stripComment rest) with
        ⟨value, after, hRead, hBehind, hSteps⟩
      dsimp only at hBehind hSteps
      refine ⟨_, after, .key hRest hMatch hRead,
        parseMapping_key hRest hGo hMatch hRead, by omega, ?_⟩
      simp only [mappingSteps, hRest, if_neg hGo, hMatch, hRead]
      omega

theorem mapping_passes
    {fuel : ℕ}
    {reader : Reader}
    (hEnds : EndsAt scalars fuel)
    (hBound : 2 * reader.rest.length + 1 ≤ fuel + 1)
    (base : ℕ)
    (result : List (Str × Value)) :
    Passes (fun fuel => parseMapping scalars fuel base)
      (fun fuel => mappingSteps scalars fuel base)
      (MappingNext scalars base) fuel result reader := by
  cases hRest : reader.skip.rest with
  | nil =>
      left
      exact ⟨parseMapping_nil hRest result,
        by simp [mappingSteps, hRest]⟩
  | cons line lines =>
      by_cases hStop :
        indent line ≠ base ∨ startsDash (strip line) = true
      · left
        exact ⟨parseMapping_stop hRest hStop result,
          by simp only [mappingSteps, hRest, if_pos hStop,
            Nat.add_zero]⟩
      · right
        exact mapping_goesOn hEnds hBound hRest hStop result

theorem dash_passes
    {fuel : ℕ}
    {reader : Reader}
    (hEnds : EndsAt scalars fuel)
    (hBound : 2 * reader.rest.length + 1 ≤ fuel + 1)
    (continuation : ℕ)
    (result : List (Str × Value)) :
    Passes
      (fun fuel =>
        parseDashInlineMapping scalars fuel continuation)
      (fun fuel => dashSteps scalars fuel continuation)
      (DashNext scalars continuation) fuel result reader := by
  have hSkip := reader.skipSteps_add
  have hSkipped := reader.one_le_skipSteps
  cases hRest : reader.skip.rest with
  | nil =>
      left
      exact ⟨parseDash_nil hRest result,
        by simp [dashSteps, hRest]⟩
  | cons line lines =>
      rw [hRest, List.length_cons] at hSkip
      by_cases hIndent : indent line ≠ continuation
      · left
        exact ⟨parseDash_stop hRest (Or.inl hIndent) result,
          by simp only [dashSteps, hRest, if_pos hIndent,
            Nat.add_zero]⟩
      cases hMatch : scalars.keyMatch line with
      | none =>
          left
          exact ⟨parseDash_stop hRest (Or.inr hMatch) result,
            by simp only [dashSteps, hRest, if_neg hIndent,
              hMatch, Nat.add_zero]⟩
      | some found =>
          right
          rcases found with ⟨key, rest⟩
          have hNested :
              PaysValue (parseValue scalars fuel)
                (valueSteps scalars fuel) lines.length :=
            hEnds.paysValue (by omega)
          rcases paid_keyValue scalars
            ⟨lines,
              reader.skip.log ++
                [keyUse (scalars.keyName line) key result]⟩
            hNested continuation (stripComment rest) with
            ⟨value, after, hRead, hBehind, hSteps⟩
          dsimp only at hBehind hSteps
          refine ⟨_, after, .key hRest hMatch hRead,
            parseDash_key hRest (not_not.mp hIndent) hMatch
              hRead,
            by omega, ?_⟩
          simp only [dashSteps, hRest, if_neg hIndent, hMatch,
            hRead]
          omega

theorem sequence_goesOn
    {fuel base : ℕ}
    {reader : Reader}
    {line : Str}
    {lines : List Str}
    (hEnds : EndsAt scalars fuel)
    (hBound : 2 * reader.rest.length + 1 ≤ fuel + 1)
    (hRest : reader.skip.rest = line :: lines)
    (hGo :
      ¬ (indent line ≠ base ∨
        (!startsWith '-' (strip line)) = true))
    (result : List Value) :
    GoesOn (fun fuel => parseSequence scalars fuel base)
      (fun fuel => sequenceSteps scalars fuel base)
      (SequenceNext scalars base) fuel result reader := by
  have hSkip := reader.skipSteps_add
  have hSkipped := reader.one_le_skipSteps
  rw [hRest, List.length_cons] at hSkip
  have hNested :
      PaysValue (parseValue scalars fuel)
        (valueSteps scalars fuel) lines.length :=
    hEnds.paysValue (by omega)
  have hMore :
      ∀ first next,
        next.rest.length ≤ lines.length →
          Paid
            (parseDashInlineMapping scalars fuel (base + 2)
              first next)
            (dashSteps scalars fuel (base + 2) first next) 0 2
            next :=
    fun first next hNext =>
      hEnds.dash (base + 2) first next (by omega)
  rcases paid_itemValue scalars
    ⟨lines, reader.skip.log ++ [.item]⟩ hNested hMore base
    (strip ((strip line).drop 1)) with
    ⟨value, after, hRead, hBehind, hSteps⟩
  dsimp only at hBehind hSteps
  refine ⟨_, after, .item hRest hRead,
    parseSequence_item hRest hGo hRead, by omega, ?_⟩
  simp only [sequenceSteps, hRest, if_neg hGo, hRead]
  omega

theorem sequence_passes
    {fuel : ℕ}
    {reader : Reader}
    (hEnds : EndsAt scalars fuel)
    (hBound : 2 * reader.rest.length + 1 ≤ fuel + 1)
    (base : ℕ)
    (result : List Value) :
    Passes (fun fuel => parseSequence scalars fuel base)
      (fun fuel => sequenceSteps scalars fuel base)
      (SequenceNext scalars base) fuel result reader := by
  cases hRest : reader.skip.rest with
  | nil =>
      left
      exact ⟨parseSequence_nil hRest result,
        by simp [sequenceSteps, hRest]⟩
  | cons line lines =>
      by_cases hStop :
        indent line ≠ base ∨
          (!startsWith '-' (strip line)) = true
      · left
        exact ⟨parseSequence_stop hRest hStop result,
          by simp only [sequenceSteps, hRest, if_pos hStop,
            Nat.add_zero]⟩
      · right
        exact sequence_goesOn hEnds hBound hRest hStop result

end AsyncapiDocs.Yaml

------------------------------------------------------------
-- The End
------------------------------------------------------------

namespace AsyncapiDocs.Yaml

open Python (Str Value strip)

variable {scalars : Scalars}

/-
  A value that is there is read to its end. What opens a block
  is a line that the block takes.
-/
theorem paid_parseValue_succ
    {fuel : ℕ}
    {reader : Reader}
    (hEnds : EndsAt scalars fuel)
    (hBound : 2 * reader.rest.length + 2 ≤ fuel + 1)
    (hContent : reader.skip.rest ≠ []) :
    Paid (parseValue scalars (fuel + 1) reader)
      (valueSteps scalars (fuel + 1) reader) 1 0 reader := by
  have hSkip := reader.skipSteps_add
  have hSkipped := reader.one_le_skipSteps
  rcases List.exists_cons_of_ne_nil hContent with
    ⟨line, lines, hRest⟩
  have hLength : reader.skip.rest.length = lines.length + 1 := by
    rw [hRest, List.length_cons]
  have hAgain : reader.skip.skip.rest = line :: lines := by
    rw [Reader.skip_skip, hRest]
  have hBlank := isBlank_of_skip hRest
  rw [parseValue, valueSteps]
  simp only [hRest]
  by_cases hItem :
    startsDash (strip line) = true ∨ strip line = ['-']
  · rw [if_pos hItem, if_pos hItem]
    rcases hEnds.sequenceOpen (indent line) [] reader.skip line
      lines (by omega) hAgain rfl
      (startsWith_of_startsItem hItem) with
      ⟨items, after, hRead, hBehind, hSteps⟩
    exact ⟨.list items, after, by rw [hRead]; rfl, by omega,
      by omega⟩
  rw [if_neg hItem, if_neg hItem]
  by_cases hKey : isMappingKey (strip line) = true
  · rw [if_pos hKey, if_pos hKey]
    have hDash : startsDash (strip line) = false := by
      rw [not_or] at hItem
      simpa using hItem.1
    rcases hEnds.mappingOpen (indent line) [] reader.skip line
      lines (by omega) hAgain rfl hDash with
      ⟨entries, after, hRead, hBehind, hSteps⟩
    exact ⟨.dict entries, after, by rw [hRead]; rfl, by omega,
      by omega⟩
  rw [if_neg hKey, if_neg hKey]
  by_cases hBrace : startsWith '{' (strip line) = true
  · rw [if_pos hBrace, if_pos hBrace]
    refine ⟨_, _, rfl, ?_, ?_⟩ <;> dsimp only <;> omega
  rw [if_neg hBrace, if_neg hBrace]
  by_cases hBracket : startsWith '[' (strip line) = true
  · rw [if_pos hBracket, if_pos hBracket]
    refine ⟨_, _, rfl, ?_, ?_⟩ <;> dsimp only <;> omega
  rw [if_neg hBracket, if_neg hBracket]
  have hReader : reader.skip = ⟨line :: lines, reader.skip.log⟩ := by
    rw [← hRest]
  have hFirst : endsPlain (indent line) [] line = false := by
    simp [endsPlain, hBlank]
  have hPasses :=
    plainPasses_add (indent line) [strip line] lines
      reader.skip.log
  have hSome :=
    one_le_plainPasses (indent line) [strip line] lines
  rw [hReader, plainScalar_cons hBlank]
  simp only [plainPasses, hFirst, List.nil_append,
    Bool.false_eq_true, if_false, Reader.notes]
  refine ⟨_, _, rfl, ?_, ?_⟩ <;> dsimp only <;> omega

/- The induction is on the bound. -/
theorem endsAt (scalars : Scalars) (fuel : ℕ) :
    EndsAt scalars fuel := by
  induction fuel with
  | zero =>
      constructor <;> intros <;> omega
  | succ fuel ih =>
      constructor
      · intro reader hBound hContent
        exact paid_parseValue_succ ih hBound hContent
      · intro base result reader hBound
        exact paid_of_passes hBound (ih.mapping base)
          (mapping_passes ih hBound base result)
      · intro base result reader line lines hBound hRest
          hIndent hDash
        exact paid_of_goesOn hBound (ih.mapping base)
          (mapping_goesOn ih hBound hRest
            (by simp [hIndent, hDash]) result)
      · intro base result reader hBound
        exact paid_of_passes hBound (ih.sequence base)
          (sequence_passes ih hBound base result)
      · intro base result reader line lines hBound hRest
          hIndent hDash
        exact paid_of_goesOn hBound (ih.sequence base)
          (sequence_goesOn ih hBound hRest
            (by simp [hIndent, hDash]) result)
      · intro continuation result reader hBound
        exact paid_of_passes hBound (ih.dash continuation)
          (dash_passes ih hBound continuation result)

/-
  A pass of a loop ends it, or leaves a line behind and goes on
  from where the pass leads to.
-/
def Progresses
    {σ : Type}
    (loop : ℕ → σ → Reader → Option (σ × Reader))
    (leads : ℕ → σ → Reader → σ → Reader → Prop)
    (fuel : ℕ)
    (result : σ)
    (reader : Reader) : Prop :=
  loop (fuel + 1) result reader = some (result, reader.skip) ∨
    ∃ result' next,
      leads fuel result reader result' next ∧
        loop (fuel + 1) result reader = loop fuel result' next ∧
        next.rest.length < reader.rest.length

theorem Passes.progresses
    {σ : Type}
    {loop : ℕ → σ → Reader → Option (σ × Reader)}
    {steps : ℕ → σ → Reader → ℕ}
    {leads : ℕ → σ → Reader → σ → Reader → Prop}
    {fuel : ℕ}
    {result : σ}
    {reader : Reader}
    (hPasses : Passes loop steps leads fuel result reader) :
    Progresses loop leads fuel result reader := by
  rcases hPasses with
    ⟨hLast, _⟩ | ⟨result', next, hLeads, hLoop, hLess, _⟩
  · exact Or.inl hLast
  · exact Or.inr ⟨result', next, hLeads, hLoop, hLess⟩

/- The line that is read of a block, and the block's indent. -/
theorem blockLines_progresses
    (base : ℕ)
    (blockIndent : Option ℕ)
    (raw : Str)
    (rest : List Str) :
    blockLines base blockIndent (raw :: rest) =
        ([], raw :: rest) ∨
      blockLines base blockIndent (raw :: rest) =
        ([] :: (blockLines base blockIndent rest).1,
          (blockLines base blockIndent rest).2) ∨
      ∃ least, least = blockIndent.getD (indent raw) ∧
        blockLines base blockIndent (raw :: rest) =
          (raw.drop least ::
              (blockLines base (some least) rest).1,
            (blockLines base (some least) rest).2) := by
  rw [blockLines]
  split
  · exact Or.inr (Or.inl rfl)
  · dsimp only
    split
    · exact Or.inl rfl
    · exact Or.inr (Or.inr ⟨_, rfl, rfl⟩)

theorem plainLines_progresses
    (base : ℕ)
    (parts : List Str)
    (line : Str)
    (rest : List Str)
    (log : List Use) :
    plainLines base parts (line :: rest) log =
        (parts, ⟨line :: rest, log⟩) ∨
      plainLines base parts (line :: rest) log =
        plainLines base (parts ++ [strip line]) rest
          (log ++ partUse parts line) := by
  rw [plainLines]
  split
  · exact Or.inl rfl
  · exact Or.inr rfl

/- A bound on the calls, and on the steps, is enough. -/
theorem parse_ends
    (scalars : Scalars)
    (text : Str) :
    (∃ value after,
      parse scalars (2 * (splitLines text).length + 2) text =
        some (value, after)) ∧
      parseSteps scalars (2 * (splitLines text).length + 2)
          text ≤
        12 * (splitLines text).length + 2 := by
  have hSkip := Reader.skipSteps_add ⟨splitLines text, []⟩
  have hSkipped :=
    Reader.one_le_skipSteps ⟨splitLines text, []⟩
  have hEnds :=
    endsAt scalars (2 * (splitLines text).length + 2)
  unfold parse parseSteps
  dsimp only at hSkip ⊢
  cases hRest : (Reader.skip ⟨splitLines text, []⟩).rest with
  | nil =>
      rw [hRest, List.length_nil] at hSkip
      refine ⟨⟨.none, Reader.skip ⟨splitLines text, []⟩, ?_⟩, ?_⟩
      · rw [parseValue]
        simp only [hRest]
      · dsimp only
        omega
  | cons line lines =>
      have hContent :
          (Reader.skip ⟨splitLines text, []⟩).rest ≠ [] := by
        rw [hRest]
        exact List.cons_ne_nil _ _
      constructor
      · rcases hEnds.value ⟨splitLines text, []⟩ (by rfl)
          hContent with
          ⟨value, after, hRead, _⟩
        exact ⟨value, after, hRead⟩
      · rcases hEnds.value (Reader.skip ⟨splitLines text, []⟩)
          (by omega) (by rwa [Reader.skip_skip]) with
          ⟨value, after, _, _, hSteps⟩
        dsimp only
        omega

/-
  The parser ends on every text, after a number of steps that
  the number of lines bounds, since every value that is there
  and every pass of a loop but the last leaves a line behind.
-/
theorem parse_terminates (scalars : Scalars) :
    (∀ text,
      (∃ value after,
        parse scalars (2 * (splitLines text).length + 2) text =
          some (value, after)) ∧
        parseSteps scalars (2 * (splitLines text).length + 2)
            text ≤
          12 * (splitLines text).length + 2) ∧
      (∀ fuel reader, 2 * reader.rest.length + 2 ≤ fuel →
        reader.skip.rest ≠ [] →
          ∃ value after,
            parseValue scalars fuel reader =
                some (value, after) ∧
              after.rest.length < reader.rest.length) ∧
      (∀ fuel base reader, 2 * reader.rest.length ≤ fuel →
        (∀ result,
          Progresses
            (fun fuel => parseMapping scalars fuel base)
            (MappingNext scalars base) fuel result reader) ∧
          (∀ result,
            Progresses
              (fun fuel => parseSequence scalars fuel base)
              (SequenceNext scalars base) fuel result reader) ∧
          ∀ result,
            Progresses
              (fun fuel =>
                parseDashInlineMapping scalars fuel base)
              (DashNext scalars base) fuel result reader) ∧
      (∀ base blockIndent raw rest,
        blockLines base blockIndent (raw :: rest) =
            ([], raw :: rest) ∨
          blockLines base blockIndent (raw :: rest) =
            ([] :: (blockLines base blockIndent rest).1,
              (blockLines base blockIndent rest).2) ∨
          ∃ least, least = blockIndent.getD (indent raw) ∧
            blockLines base blockIndent (raw :: rest) =
              (raw.drop least ::
                  (blockLines base (some least) rest).1,
                (blockLines base (some least) rest).2)) ∧
      ∀ base parts line rest log,
        plainLines base parts (line :: rest) log =
            (parts, ⟨line :: rest, log⟩) ∨
          plainLines base parts (line :: rest) log =
            plainLines base (parts ++ [strip line]) rest
              (log ++ partUse parts line) := by
  refine ⟨parse_ends scalars, ?_, ?_, blockLines_progresses,
    plainLines_progresses⟩
  · intro fuel reader hBound hContent
    rcases (endsAt scalars fuel).value reader hBound hContent
      with ⟨value, after, hRead, hBehind, _⟩
    exact ⟨value, after, hRead, hBehind⟩
  · intro fuel base reader hBound
    have hEnds := endsAt scalars fuel
    have hBound' : 2 * reader.rest.length + 1 ≤ fuel + 1 := by
      omega
    exact
      ⟨fun result =>
          (mapping_passes hEnds hBound' base result).progresses,
        fun result =>
          (sequence_passes hEnds hBound' base result).progresses,
        fun result =>
          (dash_passes hEnds hBound' base result).progresses⟩

theorem parse_terminates_badIndent :
    ∃ value after,
      parseValue asciiScalars 6
          ⟨["  a:".toList, " b".toList], []⟩ =
          some (value, after) ∧
        after.rest.length < 2 :=
  (parse_terminates asciiScalars).2.1 6
    ⟨["  a:".toList, " b".toList], []⟩ (by decide) (by decide)

end AsyncapiDocs.Yaml
