import DsxExchange.AsyncapiDocs.YamlOneLine

/-
  The texts that the parser reads without leaving anything
  out: line by line, each line belongs to a block that is
  open, or opens one where a value is still missing.

  Key definitions include:
    * `AsyncapiDocs.Yaml.Frame`, `AsyncapiDocs.Yaml.Layout`
    * `AsyncapiDocs.Yaml.Layout.step`
    * `AsyncapiDocs.Yaml.LaidOut`
    * `AsyncapiDocs.Yaml.Reader.Fits`

  Key theorems include:
    * `AsyncapiDocs.Yaml.fits_plainLines`
    * `AsyncapiDocs.Yaml.fits_key`
    * `AsyncapiDocs.Yaml.fitsAt`
-/

------------------------------------------------------------
-- Layouts
------------------------------------------------------------

namespace AsyncapiDocs.Yaml

open Python (Str Value strip)

/-
  An open block: a mapping or a sequence at an indent, or a
  mapping that began behind a dash. Mappings come with the
  keys that they have.
-/
inductive Frame where
  | mapping (base : ℕ) (keys : List Str)
  | sequence (base : ℕ)
  | dash (base : ℕ) (keys : List Str)
deriving DecidableEq, Repr

/- What the next line may be. -/
inductive Mode where
  | next
  | value (least : ℕ)
  | plain (base : ℕ) (parts : List Str)
  | block (base : ℕ) (blockIndent : Option ℕ)
deriving DecidableEq, Repr

/- The open blocks, the innermost first. -/
structure Layout where
  mode : Mode
  frames : List Frame
deriving DecidableEq, Repr

/- The line belongs to the block. -/
def Frame.takes
    (scalars : Scalars)
    (line : Str) : Frame → Bool
| .mapping base _ =>
    indent line = base && !startsDash (strip line)
| .sequence base =>
    indent line = base && startsWith '-' (strip line)
| .dash base _ =>
    indent line = base && (scalars.keyMatch line).isSome

/- What may follow the text behind a colon. -/
def afterColon (base : ℕ) (rest : Str) : Mode :=
  if isBlockIndicator rest then
    .block base none
  else if rest = [] then
    .value (base + 1)
  else
    .next

/- What may follow the first key behind a dash. -/
def afterDashColon (continuation : ℕ) (rest : Str) : Mode :=
  if rest ≠ [] then .next else .value continuation

/-
  A line with a new key of a mapping, and with all of a value
  that it has.
-/
def Layout.takeKey
    (scalars : Scalars)
    (block : List Str → Frame)
    (base : ℕ)
    (keys : List Str)
    (frames : List Frame)
    (line : Str) : Option Layout :=
  match scalars.keyMatch line with
  | none => none
  | some (key, rest) =>
      if (key ∉ keys ∧ scalars.keyName line = key) ∧
          keepsLine (stripComment rest) then
        some
          ⟨afterColon base (stripComment rest),
            block (keys ++ [key]) :: frames⟩
      else
        none

/- A line with an item of a sequence. -/
def Layout.takeItem
    (scalars : Scalars)
    (base : ℕ)
    (frames : List Frame)
    (line : Str) : Option Layout :=
  let afterDash := strip ((strip line).drop 1)
  if afterDash = [] then
    some ⟨.value (base + 1), .sequence base :: frames⟩
  else if isInlineMapping afterDash then
    match scalars.keyMatch afterDash with
    | none =>
        if stripComment afterDash = [] then
          some
            ⟨.next,
              .dash (base + 2) [] :: .sequence base :: frames⟩
        else
          none
    | some (key, rest) =>
        if scalars.keyName afterDash = key ∧
            keepsText (stripComment rest) then
          some
            ⟨afterDashColon (base + 2) (stripComment rest),
              .dash (base + 2) [key] :: .sequence base ::
                frames⟩
        else
          none
  else if keepsLine afterDash then
    some ⟨.next, .sequence base :: frames⟩
  else
    none

/- The line, in the block that it belongs to. -/
def Layout.takeLine
    (scalars : Scalars)
    (frames : List Frame)
    (line : Str) : Frame → Option Layout
| .mapping base keys =>
    takeKey scalars (.mapping base) base keys frames line
| .sequence base => takeItem scalars base frames line
| .dash base keys =>
    takeKey scalars (.dash base) base keys frames line

/-
  A line between values closes the blocks that it does not
  belong to. Behind a lone value there is no line.
-/
def Layout.nextLine
    (scalars : Scalars)
    (line : Str) : List Frame → Option Layout
| [] => none
| frame :: frames =>
    if isBlank line then
      some ⟨.next, frame :: frames⟩
    else if frame.takes scalars line then
      takeLine scalars frames line frame
    else
      nextLine scalars line frames

/- A line that a value starts on. -/
def Layout.startValue
    (scalars : Scalars)
    (frames : List Frame)
    (line : Str) : Option Layout :=
  let base := indent line
  let stripped := strip line
  if startsDash stripped ∨ stripped = ['-'] then
    takeItem scalars base frames line
  else if isMappingKey stripped then
    takeKey scalars (.mapping base) base [] frames line
  else if startsWith '\x7b' stripped ∨
      startsWith '[' stripped then
    if keepsLine stripped then some ⟨.next, frames⟩ else none
  else
    some ⟨.plain base [stripped], frames⟩

/- One line, if there is a place for it. -/
def Layout.step
    (scalars : Scalars)
    (layout : Layout)
    (line : Str) : Option Layout :=
  match layout.mode with
  | .next => nextLine scalars line layout.frames
  | .value least =>
      if isBlank line then
        some layout
      else if least ≤ indent line then
        startValue scalars layout.frames line
      else
        nextLine scalars line layout.frames
  | .plain base parts =>
      if endsPlain base parts line then
        if keepsText ([' '].intercalate parts) then
          nextLine scalars line layout.frames
        else
          none
      else if hasComment ([' '].intercalate parts) then
        none
      else
        some
          ⟨.plain base (parts ++ [strip line]), layout.frames⟩
  | .block base blockIndent =>
      let least := blockIndent.getD (indent line)
      if strip line = [] then
        some layout
      else if indent line ≤ base ∨ indent line < least then
        nextLine scalars line layout.frames
      else
        some ⟨.block base (some least), layout.frames⟩

/- The lines may end here. -/
def Layout.closes (layout : Layout) : Bool :=
  match layout.mode with
  | .plain _ parts => keepsText ([' '].intercalate parts)
  | _ => true

/- There is a place for every line. -/
def Layout.fits
    (scalars : Scalars) :
    Layout → List Str → Bool
| layout, [] => layout.closes
| layout, line :: lines =>
    match layout.step scalars line with
    | some layout => fits scalars layout lines
    | none => false

/- The lines of a text, from a value that is missing. -/
def LaidOut (scalars : Scalars) (text : Str) : Prop :=
  Layout.fits scalars ⟨.value 0, []⟩ (splitLines text) = true

instance (scalars : Scalars) (text : Str) :
    Decidable (LaidOut scalars text) := by
  unfold LaidOut
  infer_instance

end AsyncapiDocs.Yaml

------------------------------------------------------------
-- Lines that Fit
------------------------------------------------------------

namespace AsyncapiDocs.Yaml

open Python (Str Value strip)

variable {scalars : Scalars}

/- Nothing that was read is left out. -/
def Reader.IsClean (reader : Reader) : Prop :=
  LosesNothing reader.log

/- The lines from the position on fit, and nothing is lost. -/
def Reader.Fits
    (scalars : Scalars)
    (layout : Layout)
    (reader : Reader) : Prop :=
  layout.fits scalars reader.rest = true ∧ reader.IsClean

/- Layouts that the line leads to the same place from. -/
theorem Layout.fits_congr
    {layout layout' : Layout}
    {line : Str}
    (hStep :
      layout.step scalars line = layout'.step scalars line)
    (lines : List Str) :
    layout.fits scalars (line :: lines) =
      layout'.fits scalars (line :: lines) := by
  rw [Layout.fits, Layout.fits, hStep]

theorem Layout.fits_of_step
    {layout after : Layout}
    {line : Str}
    (hStep : layout.step scalars line = some after)
    (lines : List Str) :
    layout.fits scalars (line :: lines) =
      after.fits scalars lines := by
  rw [Layout.fits, hStep]

theorem Layout.not_fits_of_step
    {layout : Layout}
    {line : Str}
    (hStep : layout.step scalars line = none)
    (lines : List Str) :
    layout.fits scalars (line :: lines) = false := by
  rw [Layout.fits, hStep]

/- Lines that a layout stays the same at. -/
theorem Layout.fits_dropWhile
    {layout : Layout}
    (hStay :
      ∀ line, isBlank line = true →
        layout.step scalars line = some layout)
    (lines : List Str) :
    layout.fits scalars (lines.dropWhile isBlank) =
      layout.fits scalars lines := by
  induction lines with
  | nil => rfl
  | cons line lines ih =>
      by_cases hBlank : isBlank line = true
      · rw [List.dropWhile_cons_of_pos hBlank, ih,
          Layout.fits_of_step (hStay line hBlank)]
      · rw [List.dropWhile_cons_of_neg hBlank]

theorem Reader.fits_skip_next
    (frame : Frame)
    (frames : List Frame)
    (reader : Reader) :
    reader.skip.Fits scalars ⟨.next, frame :: frames⟩ ↔
      reader.Fits scalars ⟨.next, frame :: frames⟩ := by
  unfold Reader.Fits
  rw [Reader.skip, Layout.fits_dropWhile]
  · rfl
  · intro line hBlank
    simp only [Layout.step, Layout.nextLine, hBlank, if_true]

theorem Reader.fits_skip_value
    (least : ℕ)
    (frames : List Frame)
    (reader : Reader) :
    reader.skip.Fits scalars ⟨.value least, frames⟩ ↔
      reader.Fits scalars ⟨.value least, frames⟩ := by
  unfold Reader.Fits
  rw [Reader.skip, Layout.fits_dropWhile]
  · rfl
  · intro line hBlank
    simp only [Layout.step, hBlank, if_true]

/- Between values everything fits at the end of the lines. -/
theorem Reader.fits_nil
    {reader : Reader}
    (hRest : reader.rest = [])
    (frames : List Frame) :
    reader.Fits scalars ⟨.next, frames⟩ ↔ reader.IsClean := by
  unfold Reader.Fits
  rw [hRest, Layout.fits]
  exact and_iff_right rfl

theorem Reader.fits_nil_value
    {reader : Reader}
    (hRest : reader.rest = [])
    (least : ℕ)
    (frames : List Frame) :
    reader.Fits scalars ⟨.value least, frames⟩ ↔
      reader.IsClean := by
  unfold Reader.Fits
  rw [hRest, Layout.fits]
  exact and_iff_right rfl

theorem isClean_notes
    (reader : Reader)
    (uses : List Use)
    (rest : List Str) :
    Reader.IsClean ⟨rest, reader.log ++ uses⟩ ↔
      reader.IsClean ∧ LosesNothing uses :=
  losesNothing_append

/- With more in the log nothing of it may be lost. -/
theorem Reader.fits_notes
    (uses : List Use)
    (layout : Layout)
    (reader : Reader) :
    (reader.notes uses).Fits scalars layout ↔
      reader.Fits scalars layout ∧ LosesNothing uses := by
  unfold Reader.Fits Reader.notes
  rw [isClean_notes, and_assoc]

/- A block is closed at a line that it does not take. -/
theorem fits_close
    {frame : Frame}
    {line : Str}
    {lines : List Str}
    {reader : Reader}
    (hRest : reader.rest = line :: lines)
    (hBlank : isBlank line = false)
    (hTakes : frame.takes scalars line = false)
    (frames : List Frame) :
    reader.Fits scalars ⟨.next, frame :: frames⟩ ↔
      reader.Fits scalars ⟨.next, frames⟩ := by
  have hStep :
      Layout.step scalars ⟨.next, frame :: frames⟩ line =
        Layout.step scalars ⟨.next, frames⟩ line := by
    simp only [Layout.step, Layout.nextLine, hBlank, hTakes,
      Bool.false_eq_true, if_false]
  unfold Reader.Fits
  rw [hRest, Layout.fits_congr hStep]

/- A block goes on at a line that it takes. -/
theorem step_next
    {frame : Frame}
    {line : Str}
    (hBlank : isBlank line = false)
    (hTakes : frame.takes scalars line = true)
    (frames : List Frame) :
    Layout.step scalars ⟨.next, frame :: frames⟩ line =
      Layout.takeLine scalars frames line frame := by
  simp only [Layout.step, Layout.nextLine, hBlank, hTakes,
    Bool.false_eq_true, if_false, if_true]

end AsyncapiDocs.Yaml

------------------------------------------------------------
-- Texts that Fit
------------------------------------------------------------

namespace AsyncapiDocs.Yaml

open Python (Str Value strip)

variable {scalars : Scalars}

/- A block scalar goes on to the line it stops at. -/
theorem fits_blockLines
    (base : ℕ)
    (blockIndent : Option ℕ)
    (frames : List Frame)
    (lines : List Str) :
    Layout.fits scalars ⟨.block base blockIndent, frames⟩
        lines =
      Layout.fits scalars ⟨.next, frames⟩
        (blockLines base blockIndent lines).2 := by
  induction lines generalizing blockIndent with
  | nil => rfl
  | cons line lines ih =>
      rw [blockLines]
      by_cases hEmpty : strip line = []
      · rw [if_pos hEmpty, Layout.fits_of_step, ih]
        simp only [Layout.step, hEmpty, if_true]
      · rw [if_neg hEmpty]
        dsimp only
        split
        · next hEnds =>
            apply Layout.fits_congr
            simp only [Layout.step, hEmpty, hEnds, if_true,
              if_false]
        · next hMore =>
            rw [Layout.fits_of_step, ih]
            simp only [Layout.step, hEmpty, hMore, if_false]

/-
  A plain scalar goes on to the line it stops at. A line
  behind a comment is lost, and so is a text of one quote.
-/
theorem fits_plainLines
    (base : ℕ)
    (parts : List Str)
    (frames : List Frame)
    (lines : List Str)
    (log : List Use) :
    Reader.Fits scalars ⟨.plain base parts, frames⟩
        ⟨lines, log⟩ ↔
      (plainLines base parts lines log).2.Fits scalars
          ⟨.next, frames⟩ ∧
        keepsText
            ([' '].intercalate
              (plainLines base parts lines log).1) =
          true := by
  induction lines generalizing parts log with
  | nil =>
      unfold Reader.Fits
      simp only [plainLines, Layout.fits, Layout.closes]
      tauto
  | cons line lines ih =>
      rw [plainLines]
      split
      · next hEnds =>
          unfold Reader.Fits
          dsimp only
          by_cases hKeeps :
            keepsText ([' '].intercalate parts) = true
          · rw [and_iff_left hKeeps, Layout.fits_congr]
            simp only [Layout.step, hEnds, hKeeps, if_true]
          · rw [Layout.not_fits_of_step]
            · simp [hKeeps]
            · simp only [Layout.step, hEnds, if_true, hKeeps,
                Bool.false_eq_true, if_false]
      · next hMore =>
          rw [← ih]
          unfold Reader.Fits
          dsimp only
          by_cases hComment :
            hasComment ([' '].intercalate parts) = true
          · have hLost :
                ¬ Reader.IsClean
                  ⟨lines, log ++ partUse parts line⟩ := by
              intro hClean
              apply hClean line
              simp [partUse, hComment]
            rw [Layout.not_fits_of_step]
            · simp [hLost]
            · simp only [Layout.step, hMore, hComment, if_true,
                Bool.false_eq_true, if_false]
          · rw [Layout.fits_of_step]
            · rw [partUse, if_neg hComment, List.append_nil]
              rfl
            · simp only [Layout.step, hMore, hComment,
                Bool.false_eq_true, if_false]

/- The lines that a plain scalar is on. -/
theorem plainLines_taken
    (base : ℕ)
    (parts lines : List Str)
    (log : List Use) :
    ∃ taken,
      lines = taken ++ (plainLines base parts lines log).2.rest ∧
        (plainLines base parts lines log).1 =
          parts ++ taken.map strip := by
  induction lines generalizing parts log with
  | nil => exact ⟨[], rfl, by simp [plainLines]⟩
  | cons line lines ih =>
      rw [plainLines]
      split
      · exact ⟨[], rfl, by simp⟩
      · rcases ih (parts ++ [strip line])
          (log ++ partUse parts line) with
          ⟨taken, hLines, hParts⟩
        refine ⟨line :: taken, ?_, ?_⟩
        · rw [List.cons_append, ← hLines]
        · rw [hParts, List.append_assoc, List.map_cons]
          rfl

/- The lines of a plain scalar by the number of its parts. -/
theorem take_plainLines
    (base : ℕ)
    (lines : List Str)
    (log : List Use) :
    (lines.take (plainLines base [] lines log).1.length).map
        strip =
      (plainLines base [] lines log).1 := by
  rcases plainLines_taken base [] lines log with
    ⟨taken, hLines, hParts⟩
  have hTaken :
      lines.take (plainLines base [] lines log).1.length =
        taken := by
    rw [hParts]
    conv_lhs => rw [hLines]
    simp
  rw [hTaken, hParts, List.nil_append]

theorem losesNothing_plainUses
    (lines : List Str) :
    LosesNothing (plainUses lines) ↔
      keepsText ([' '].intercalate (lines.map strip)) =
        true := by
  unfold plainUses keepsText
  dsimp only
  split
  · next hLone =>
      refine iff_of_false ?_ (by simp [hLone])
      intro hClean
      exact hClean ([' '].intercalate (lines.map strip)) (by simp)
  · next hText =>
      refine iff_of_true ?_ (by simpa using hText)
      rw [losesNothing_singleton]
      rintro text ⟨⟩

end AsyncapiDocs.Yaml

------------------------------------------------------------
-- Values that Fit
------------------------------------------------------------

namespace AsyncapiDocs.Yaml

open Python (Str Value strip)

variable {scalars : Scalars}
variable {nested : Reader → Option (Value × Reader)}

/- Where a value was missing, the parser has read one. -/
def ReadsValue
    (scalars : Scalars)
    (nested : Reader → Option (Value × Reader)) : Prop :=
  ∀ reader value after least frames,
    (∀ line lines, reader.skip.rest = line :: lines →
      least ≤ indent line) →
    nested reader = some (value, after) →
      (reader.Fits scalars ⟨.value least, frames⟩ ↔
        after.Fits scalars ⟨.next, frames⟩)

theorem fits_valueBelow
    {least : ℕ}
    {reader after : Reader}
    {value : Value}
    (hNested : ReadsValue scalars nested)
    (hRead :
      valueBelow nested least reader = some (value, after))
    (frame : Frame)
    (frames : List Frame) :
    reader.Fits scalars ⟨.value least, frame :: frames⟩ ↔
      after.Fits scalars ⟨.next, frame :: frames⟩ := by
  rw [← Reader.fits_skip_value]
  unfold valueBelow at hRead
  dsimp only at hRead
  cases hRest : reader.skip.rest with
  | nil =>
      rw [hRest] at hRead
      cases hRead
      rw [Reader.fits_nil_value hRest, Reader.fits_nil hRest]
  | cons line lines =>
      rw [hRest] at hRead
      dsimp only at hRead
      split at hRead
      · next hDeep =>
          apply hNested _ value after _ _ _ hRead
          intro other others hOther
          rw [Reader.skip_skip, hRest] at hOther
          cases hOther
          exact hDeep
      · next hFlat =>
          cases hRead
          have hStep :
              Layout.step scalars ⟨.value least, frame :: frames⟩
                  line =
                Layout.step scalars ⟨.next, frame :: frames⟩
                  line := by
            simp only [Layout.step, isBlank_of_skip hRest,
              hFlat, Bool.false_eq_true, if_false]
          unfold Reader.Fits
          rw [hRest, Layout.fits_congr hStep]

theorem keepsLine_of_isBlockIndicator
    {rest : Str}
    (hBlock : isBlockIndicator rest = true) :
    keepsLine rest = true := by
  have hKeeps :
      ∀ text ∈ ["|", ">", "|+", ">+", "|-", ">-"].map
        String.toList, keepsLine text = true := by
    decide
  exact hKeeps rest (List.contains_iff_mem.mp hBlock)

/- The value of a key has a place if it is kept. -/
theorem fits_keyValue
    {base : ℕ}
    {rest : Str}
    {reader after : Reader}
    {value : Value}
    (hNested : ReadsValue scalars nested)
    (hRead :
      keyValue scalars nested base rest reader =
        some (value, after))
    (frame : Frame)
    (frames : List Frame) :
    (reader.Fits scalars
          ⟨afterColon base rest, frame :: frames⟩ ∧
        keepsLine rest = true) ↔
      after.Fits scalars ⟨.next, frame :: frames⟩ := by
  unfold keyValue at hRead
  unfold afterColon
  by_cases hBlock : isBlockIndicator rest = true
  · rw [if_pos hBlock] at hRead ⊢
    cases hRead
    rw [and_iff_left (keepsLine_of_isBlockIndicator hBlock)]
    unfold Reader.Fits
    rw [fits_blockLines, isClean_notes, losesNothing_singleton]
    simp
  rw [if_neg hBlock] at hRead ⊢
  by_cases hEmpty : rest = []
  · have hKeeps : keepsLine rest = true := by
      rw [hEmpty]
      rfl
    rw [if_pos hEmpty] at hRead ⊢
    rw [and_iff_left hKeeps]
    exact fits_valueBelow hNested hRead frame frames
  rw [if_neg hEmpty] at hRead ⊢
  have hAfter : after = reader.notes (scalars.lineUses rest) := by
    unfold Scalars.lineUses
    split at hRead
    · next hSeq =>
        rw [if_pos hSeq]
        cases hRead
        rfl
    · next hSeq =>
        rw [if_neg hSeq]
        split at hRead
        · next hMap =>
            rw [if_pos hMap]
            cases hRead
            rfl
        · next hMap =>
            rw [if_neg hMap]
            cases hRead
            rfl
  rw [hAfter, Reader.fits_notes, losesNothing_lineUses]

/-
  A line with a key, and the entries after it. With a key that
  the mapping has already, something is lost.
-/
theorem fits_key
    {block : List Str → Frame}
    {base : ℕ}
    {result : List (Str × Value)}
    {line key rest : Str}
    {lines : List Str}
    {reader after last : Reader}
    {value : Value}
    {frames : List Frame}
    (hNested : ReadsValue scalars nested)
    (hMatch : scalars.keyMatch line = some (key, rest))
    (hRest : reader.rest = line :: lines)
    (hBlank : isBlank line = false)
    (hTakes :
      (block (result.map Prod.fst)).takes scalars line = true)
    (hLine :
      Layout.takeLine scalars frames line
          (block (result.map Prod.fst)) =
        Layout.takeKey scalars block base
          (result.map Prod.fst) frames line)
    (hRead :
      keyValue scalars nested base (stripComment rest)
          ⟨lines,
            reader.log ++
              [keyUse (scalars.keyName line) key result]⟩ =
        some (value, after))
    (hMore :
      after.Fits scalars
          ⟨.next,
            block
                ((Python.setEntry key value result).map
                  Prod.fst) ::
              frames⟩ ↔
        last.Fits scalars ⟨.next, frames⟩) :
    reader.Fits scalars
        ⟨.next, block (result.map Prod.fst) :: frames⟩ ↔
      last.Fits scalars ⟨.next, frames⟩ := by
  have hValue := fits_keyValue hNested hRead
  have hStep := step_next hBlank hTakes frames
  rw [hLine, Layout.takeKey, hMatch] at hStep
  dsimp only at hStep
  rw [← hMore, ← hValue]
  unfold Reader.Fits
  rw [hRest, isClean_notes, losesNothing_keyUse]
  by_cases hNew :
    key ∉ result.map Prod.fst ∧ scalars.keyName line = key
  · by_cases hKeeps : keepsLine (stripComment rest) = true
    · rw [if_pos ⟨hNew, hKeeps⟩] at hStep
      rw [Layout.fits_of_step hStep,
        Python.setEntry_of_not_mem hNew.1, List.map_append,
        and_iff_left hNew, and_iff_left hKeeps]
      rfl
    · rw [if_neg (fun hBoth => hKeeps hBoth.2)] at hStep
      rw [Layout.not_fits_of_step hStep]
      simp [hKeeps]
  · rw [if_neg (fun hBoth => hNew hBoth.1)] at hStep
    rw [Layout.not_fits_of_step hStep]
    exact iff_of_false (fun h => Bool.false_ne_true h.1)
      fun h => hNew h.1.2.2

end AsyncapiDocs.Yaml

------------------------------------------------------------
-- Blocks that Fit
------------------------------------------------------------

namespace AsyncapiDocs.Yaml

open Python (Str Value strip)

variable {scalars : Scalars}
variable {nested : Reader → Option (Value × Reader)}

/- The methods of the parser, called with a bound. -/
structure FitsAt (scalars : Scalars) (fuel : ℕ) : Prop where
  value : ReadsValue scalars (parseValue scalars fuel)
  mapping :
    ∀ base result entries reader after frames,
      parseMapping scalars fuel base result reader =
          some (entries, after) →
        (reader.Fits scalars
            ⟨.next,
              .mapping base (result.map Prod.fst) :: frames⟩ ↔
          after.Fits scalars ⟨.next, frames⟩)
  sequence :
    ∀ base result items reader after frames,
      parseSequence scalars fuel base result reader =
          some (items, after) →
        (reader.Fits scalars
            ⟨.next, .sequence base :: frames⟩ ↔
          after.Fits scalars ⟨.next, frames⟩)
  dash :
    ∀ base result entries reader after frames,
      parseDashInlineMapping scalars fuel base result reader =
          some (entries, after) →
        (reader.Fits scalars
            ⟨.next,
              .dash base (result.map Prod.fst) :: frames⟩ ↔
          after.Fits scalars ⟨.next, frames⟩)

theorem fits_parseMapping_succ
    {fuel base : ℕ}
    {result entries : List (Str × Value)}
    {reader after : Reader}
    (hFits : FitsAt scalars fuel)
    (hRead :
      parseMapping scalars (fuel + 1) base result reader =
        some (entries, after))
    (frames : List Frame) :
    reader.Fits scalars
        ⟨.next, .mapping base (result.map Prod.fst) :: frames⟩ ↔
      after.Fits scalars ⟨.next, frames⟩ := by
  rw [← Reader.fits_skip_next]
  cases parseMapping_pass hRead with
  | nil hRest =>
      rw [Reader.fits_nil hRest, Reader.fits_nil hRest]
  | stop hRest hStop =>
      apply fits_close hRest (isBlank_of_skip hRest)
      rw [Frame.takes]
      rcases hStop with hIndent | hDash
      · simp [hIndent]
      · simp [hDash]
  | @lost line lines _ _ hRest hGo hMatch hMore =>
      rw [not_or, not_not] at hGo
      have hTakes :
          Frame.takes scalars line
              (.mapping base (result.map Prod.fst)) =
            true := by
        simp [Frame.takes, hGo.1, hGo.2]
      have hNone :=
        step_next (isBlank_of_skip hRest) hTakes frames
      rw [Layout.takeLine, Layout.takeKey, hMatch] at hNone
      rw [← hFits.mapping _ _ _ _ _ frames hMore]
      unfold Reader.Fits
      rw [hRest, Layout.not_fits_of_step hNone, isClean_notes,
        losesNothing_singleton]
      simp
  | @key line _ _ _ _ _ _ _ hRest hGo hMatch hValue hMore =>
      rw [not_or, not_not] at hGo
      have hTakes :
          Frame.takes scalars line
              (.mapping base (result.map Prod.fst)) =
            true := by
        simp [Frame.takes, hGo.1, hGo.2]
      exact fits_key hFits.value hMatch hRest
        (isBlank_of_skip hRest) hTakes rfl hValue
        (hFits.mapping _ _ _ _ _ frames hMore)

theorem fits_parseDash_succ
    {fuel base : ℕ}
    {result entries : List (Str × Value)}
    {reader after : Reader}
    (hFits : FitsAt scalars fuel)
    (hRead :
      parseDashInlineMapping scalars (fuel + 1) base result
          reader =
        some (entries, after))
    (frames : List Frame) :
    reader.Fits scalars
        ⟨.next, .dash base (result.map Prod.fst) :: frames⟩ ↔
      after.Fits scalars ⟨.next, frames⟩ := by
  rw [← Reader.fits_skip_next]
  cases parseDash_pass hRead with
  | nil hRest =>
      rw [Reader.fits_nil hRest, Reader.fits_nil hRest]
  | stop hRest hStop =>
      apply fits_close hRest (isBlank_of_skip hRest)
      rw [Frame.takes]
      rcases hStop with hIndent | hMatch
      · simp [hIndent]
      · simp [hMatch]
  | @key line _ _ _ _ _ _ _ hRest hIndent hMatch hValue hMore =>
      have hTakes :
          Frame.takes scalars line
              (.dash base (result.map Prod.fst)) =
            true := by
        simp [Frame.takes, hIndent, hMatch]
      exact fits_key hFits.value hMatch hRest
        (isBlank_of_skip hRest) hTakes rfl hValue
        (hFits.dash _ _ _ _ _ frames hMore)

/- The first key behind a dash, with all of its value. -/
theorem fits_dashFirst
    {text key rest : Str}
    {continuation : ℕ}
    {reader after : Reader}
    {first : List (Str × Value)}
    (hNested : ReadsValue scalars nested)
    (hMatch : scalars.keyMatch text = some (key, rest))
    (hRead :
      dashFirst scalars nested continuation text reader =
        some (first, after))
    (frames : List Frame) :
    (reader.Fits scalars
          ⟨afterDashColon continuation (stripComment rest),
            .dash continuation [key] :: frames⟩ ∧
        scalars.keyName text = key ∧
        keepsText (stripComment rest) = true) ↔
      after.Fits scalars
        ⟨.next,
          .dash continuation (first.map Prod.fst) ::
            frames⟩ := by
  unfold dashFirst at hRead
  simp only [hMatch, Option.bind_eq_bind,
    Option.bind_eq_some_iff] at hRead
  rcases hRead with ⟨⟨value, next⟩, hValue, hFirst⟩
  cases hFirst
  have hKey :
      LosesNothing [keyUse (scalars.keyName text) key []] ↔
        scalars.keyName text = key := by
    rw [losesNothing_keyUse]
    simp
  rw [afterDashColon]
  unfold firstValue at hValue
  split at hValue
  · next hScalar =>
      cases hValue
      rw [if_pos hScalar, Reader.note, Reader.note,
        Reader.fits_notes, Reader.fits_notes, hKey,
        losesNothing_textUse, and_assoc]
      rfl
  · next hBelow =>
      have hKeeps : keepsText (stripComment rest) = true := by
        rw [not_not.mp hBelow]
        rfl
      rw [if_neg hBelow, and_iff_left hKeeps,
        ← fits_valueBelow hNested hValue, Reader.note,
        Reader.fits_notes, hKey]
      rfl

theorem losesNothing_firstUses (text : Str) :
    LosesNothing (firstUses text) ↔ stripComment text = [] := by
  unfold firstUses
  split
  · next hBlank => exact iff_of_true losesNothing_nil hBlank
  · next hText =>
      refine iff_of_false ?_ hText
      intro hClean
      exact hClean text List.mem_cons_self

/- The item behind a dash has a place. -/
theorem fits_itemValue
    {fuel base : ℕ}
    {line : Str}
    {reader after : Reader}
    {value : Value}
    (hFits : FitsAt scalars fuel)
    (hRead :
      itemValue scalars (parseValue scalars fuel)
          (parseDashInlineMapping scalars fuel (base + 2))
          base (strip ((strip line).drop 1)) reader =
        some (value, after))
    (frames : List Frame) :
    (∃ layout,
        Layout.takeItem scalars base frames line =
            some layout ∧
          reader.Fits scalars layout) ↔
      after.Fits scalars
        ⟨.next, .sequence base :: frames⟩ := by
  unfold itemValue at hRead
  unfold Layout.takeItem
  dsimp only
  by_cases hEmpty : strip ((strip line).drop 1) = []
  · rw [if_pos hEmpty] at hRead ⊢
    rw [← fits_valueBelow hFits.value hRead]
    simp
  rw [if_neg hEmpty] at hRead ⊢
  by_cases hInline :
    isInlineMapping (strip ((strip line).drop 1)) = true
  · rw [if_pos hInline] at hRead ⊢
    simp only [Option.bind_eq_bind,
      Option.bind_eq_some_iff] at hRead
    rcases hRead with
      ⟨⟨first, next⟩, hFirst, ⟨entries, last⟩, hMapping,
        hValue⟩
    cases hValue
    rw [← hFits.dash _ _ _ _ _ _ hMapping]
    cases hMatch :
        scalars.keyMatch (strip ((strip line).drop 1)) with
    | none =>
        simp only [dashFirst, hMatch] at hFirst
        cases hFirst
        rw [Reader.fits_notes, losesNothing_firstUses]
        simp [and_comm]
    | some found =>
        rcases found with ⟨key, rest⟩
        rw [← fits_dashFirst hFits.value hMatch hFirst]
        simp
        tauto
  · rw [if_neg hInline] at hRead ⊢
    cases hRead
    rw [Reader.fits_notes, losesNothing_lineUses]
    simp
    tauto

theorem fits_parseSequence_succ
    {fuel base : ℕ}
    {result items : List Value}
    {reader after : Reader}
    (hFits : FitsAt scalars fuel)
    (hRead :
      parseSequence scalars (fuel + 1) base result reader =
        some (items, after))
    (frames : List Frame) :
    reader.Fits scalars ⟨.next, .sequence base :: frames⟩ ↔
      after.Fits scalars ⟨.next, frames⟩ := by
  rw [← Reader.fits_skip_next]
  cases parseSequence_pass hRead with
  | nil hRest =>
      rw [Reader.fits_nil hRest, Reader.fits_nil hRest]
  | stop hRest hStop =>
      apply fits_close hRest (isBlank_of_skip hRest)
      rw [Frame.takes]
      rcases hStop with hIndent | hDash
      · simp [hIndent]
      · simpa using fun _ => hDash
  | @item line _ _ _ _ _ hRest hGo hValue hMore =>
      rw [not_or, not_not] at hGo
      have hTakes :
          Frame.takes scalars line (.sequence base) =
            true := by
        simpa [Frame.takes, hGo.1] using hGo.2
      have hStep :=
        step_next (isBlank_of_skip hRest) hTakes frames
      rw [← hFits.sequence _ _ _ _ _ _ hMore,
        ← fits_itemValue hFits hValue]
      unfold Reader.Fits
      rw [hRest, isClean_notes, losesNothing_singleton,
        Layout.fits, hStep, Layout.takeLine]
      cases Layout.takeItem scalars base frames line with
      | none => simp
      | some layout => simp

theorem startsWith_of_startsItem
    {stripped : Str}
    (hItem : startsDash stripped = true ∨ stripped = ['-']) :
    startsWith '-' stripped = true := by
  rcases hItem with hDash | hLone
  · rcases List.isPrefixOf_iff_prefix.mp hDash with
      ⟨rest, hRest⟩
    rw [← hRest]
    rfl
  · rw [hLone]
    rfl

theorem plainLines_first
    {line : Str}
    (hBlank : isBlank line = false)
    (lines : List Str)
    (log : List Use) :
    plainLines (indent line) [] (line :: lines) log =
      plainLines (indent line) [strip line] lines log := by
  have hFirst : endsPlain (indent line) [] line = false := by
    simp [endsPlain, hBlank]
  simp [plainLines, hFirst, partUse, hasComment, beforeComment]

/- The first line of a plain scalar. -/
theorem plainScalar_cons
    {line : Str}
    (hBlank : isBlank line = false)
    (lines : List Str)
    (log : List Use) :
    plainScalar scalars (indent line) ⟨line :: lines, log⟩ =
      (scalars.scalar
        ([' '].intercalate
          (plainLines (indent line) [strip line] lines log).1),
        (plainLines (indent line) [strip line] lines log).2.notes
          (plainUses
            ((line :: lines).take
              (plainLines (indent line) [strip line] lines
                log).1.length))) := by
  rw [plainScalar, plainLines_first hBlank]

theorem startsWith_of_startsWith
    {c other : Char}
    {text : Str}
    (hStart : startsWith c text = true)
    (hOther : c ≠ other) :
    ¬ startsWith other text = true := by
  simp only [startsWith, beq_iff_eq] at hStart ⊢
  rw [hStart]
  simpa using hOther

theorem fits_parseValue_succ
    {fuel : ℕ}
    (hFits : FitsAt scalars fuel) :
    ReadsValue scalars (parseValue scalars (fuel + 1)) := by
  intro reader value after least frames hLeast hRead
  rw [← Reader.fits_skip_value]
  rw [parseValue] at hRead
  dsimp only at hRead
  cases hRest : reader.skip.rest with
  | nil =>
      rw [hRest] at hRead
      cases hRead
      rw [Reader.fits_nil_value hRest, Reader.fits_nil hRest]
  | cons line lines =>
      rw [hRest] at hRead
      dsimp only at hRead
      have hBlank := isBlank_of_skip hRest
      have hStep :
          Layout.step scalars ⟨.value least, frames⟩ line =
            Layout.startValue scalars frames line := by
        simp only [Layout.step, hBlank, Bool.false_eq_true,
          if_false, hLeast line lines hRest, if_true]
      have hOpen :
          ∀ frame : Frame,
            Frame.takes scalars line frame = true →
              Layout.startValue scalars frames line =
                Layout.takeLine scalars frames line frame →
              (reader.skip.Fits scalars ⟨.value least, frames⟩ ↔
                reader.skip.Fits scalars
                  ⟨.next, frame :: frames⟩) := by
        intro frame hTakes hStart
        have hSame :=
          hStep.trans
            (hStart.trans (step_next hBlank hTakes frames).symm)
        unfold Reader.Fits
        rw [hRest, Layout.fits_congr hSame]
      have hLone :
          reader.skip.Fits scalars ⟨.value least, frames⟩ ↔
            ∃ layout,
              Layout.startValue scalars frames line =
                  some layout ∧
                Reader.Fits scalars layout
                  ⟨lines, reader.skip.log⟩ := by
        unfold Reader.Fits
        rw [hRest, Layout.fits, hStep]
        cases Layout.startValue scalars frames line with
        | none => simp
        | some layout => simp [Reader.IsClean]
      unfold Layout.startValue at hOpen hLone
      dsimp only at hOpen hLone
      by_cases hItem :
        startsDash (strip line) = true ∨ strip line = ['-']
      · rw [if_pos hItem, Option.map_eq_some_iff] at hRead
        rcases hRead with ⟨⟨items, last⟩, hItems, hValue⟩
        cases hValue
        rw [hOpen (.sequence (indent line)),
          hFits.sequence _ _ _ _ _ _ hItems]
        · simp [Frame.takes, startsWith_of_startsItem hItem]
        · rw [if_pos hItem, Layout.takeLine]
      rw [if_neg hItem] at hRead
      by_cases hKey : isMappingKey (strip line) = true
      · rw [if_pos hKey, Option.map_eq_some_iff] at hRead
        rcases hRead with ⟨⟨entries, last⟩, hEntries, hValue⟩
        cases hValue
        rw [hOpen (.mapping (indent line) []),
          ← hFits.mapping _ _ _ _ _ _ hEntries]
        · rfl
        · rw [not_or] at hItem
          simp [Frame.takes, hItem.1]
        · rw [if_neg hItem, if_pos hKey, Layout.takeLine]
      rw [if_neg hKey] at hRead
      by_cases hFlow :
        startsWith '\x7b' (strip line) = true ∨
          startsWith '[' (strip line) = true
      · have hAfter :
            after =
              ⟨lines,
                reader.skip.log ++
                  scalars.lineUses (strip line)⟩ := by
          split at hRead
          · next hBrace =>
              have hOther : ¬ startsWith '[' (strip line) = true :=
                startsWith_of_startsWith hBrace (by decide)
              rw [Scalars.lineUses, if_neg hOther, if_pos hBrace]
              cases hRead
              rfl
          · next hBrace =>
              have hBracket := hFlow.resolve_left hBrace
              rw [if_pos hBracket] at hRead
              rw [Scalars.lineUses, if_pos hBracket]
              cases hRead
              rfl
        rw [hLone, if_neg hItem, if_neg hKey, if_pos hFlow,
          hAfter]
        unfold Reader.Fits
        rw [isClean_notes, losesNothing_lineUses]
        simp
        tauto
      · have hOther := not_or.mp hFlow
        rw [if_neg hOther.1, if_neg hOther.2] at hRead
        have hReader :
            reader.skip = ⟨line :: lines, reader.skip.log⟩ := by
          rw [← hRest]
        have hParts :=
          take_plainLines (indent line) (line :: lines)
            reader.skip.log
        rw [plainLines_first hBlank] at hParts
        rw [hReader, plainScalar_cons hBlank] at hRead
        cases hRead
        rw [hLone, if_neg hItem, if_neg hKey, if_neg hFlow,
          Reader.fits_notes, losesNothing_plainUses, hParts]
        simp [fits_plainLines]

/- The induction is on the bound. -/
theorem fitsAt (scalars : Scalars) (fuel : ℕ) :
    FitsAt scalars fuel := by
  induction fuel with
  | zero =>
      constructor
      · intro reader value after least frames hLeast hRead
        cases hRead
      all_goals
        intro base result read reader after frames hRead
        cases hRead
  | succ fuel ih =>
      constructor
      · exact fits_parseValue_succ ih
      · intro base result entries reader after frames hRead
        exact fits_parseMapping_succ ih hRead frames
      · intro base result items reader after frames hRead
        exact fits_parseSequence_succ ih hRead frames
      · intro base result entries reader after frames hRead
        exact fits_parseDash_succ ih hRead frames

end AsyncapiDocs.Yaml
