import DsxExchange.AsyncapiDocs.YamlWriting

/-
  Lines that are indented further. The parser reads them as
  before, and stops where it did, whatever stands behind them
  at a lower indent.

  Key definitions include:
    * `AsyncapiDocs.Yaml.Closes`, `AsyncapiDocs.Yaml.Shifted`
    * `AsyncapiDocs.Yaml.Mirrors`
    * `AsyncapiDocs.Yaml.MirrorsAt`

  Key theorems include:
    * `AsyncapiDocs.Yaml.mirrors_keyValue`
    * `AsyncapiDocs.Yaml.mirrorsAt`
-/

------------------------------------------------------------
-- Indented Further
------------------------------------------------------------

namespace AsyncapiDocs.Yaml

open Python (Str Value strip)

variable {n : ℕ} {behind : List Str}

def indented (n : ℕ) (lines : List Str) : List Str :=
  lines.map (spaces n ++ ·)

/- Lines, if any, that start with a lower indent. -/
def Closes (n : ℕ) (behind : List Str) : Prop :=
  ∀ line ∈ behind.head?, isBlank line = false ∧ indent line < n

/- The second reader has the lines further to the right. -/
def Shifted
    (n : ℕ)
    (behind : List Str)
    (reader reader' : Reader) : Prop :=
  reader'.rest = indented n reader.rest ++ behind

theorem shifted_mk
    (lines : List Str)
    (log log' : List Use) :
    Shifted n behind ⟨lines, log⟩
      ⟨indented n lines ++ behind, log'⟩ :=
  rfl

theorem closes_nil (n : ℕ) : Closes n [] := by
  rintro line ⟨⟩

theorem Closes.cases
    (hCloses : Closes n behind) :
    behind = [] ∨
      ∃ line lines, behind = line :: lines ∧
        isBlank line = false ∧ indent line < n := by
  cases behind with
  | nil => exact Or.inl rfl
  | cons line lines =>
      exact Or.inr ⟨line, lines, rfl, hCloses line rfl⟩

theorem Closes.dropWhile_isBlank
    (hCloses : Closes n behind) :
    behind.dropWhile isBlank = behind := by
  rcases hCloses.cases with
    rfl | ⟨line, lines, rfl, hBlank, _⟩
  · rfl
  · exact List.dropWhile_cons_of_neg (by simp [hBlank])

theorem Shifted.skip
    {reader reader' : Reader}
    (hShifted : Shifted n behind reader reader')
    (hCloses : Closes n behind) :
    Shifted n behind reader.skip reader'.skip := by
  unfold Shifted Reader.skip at *
  dsimp only
  rw [hShifted]
  induction reader.rest with
  | nil => exact hCloses.dropWhile_isBlank
  | cons line lines ih =>
      rw [indented, List.map_cons, List.cons_append]
      cases hBlank : isBlank line with
      | true =>
          rw [List.dropWhile_cons_of_pos (by simp [hBlank]),
            List.dropWhile_cons_of_pos hBlank]
          exact ih
      | false =>
          rw [List.dropWhile_cons_of_neg (by simp [hBlank]),
            List.dropWhile_cons_of_neg (by simp [hBlank])]
          rfl

/- The shifted reader at the end of the lines, or at one. -/
theorem Shifted.rest_cons
    {reader reader' : Reader}
    {line : Str}
    {lines : List Str}
    (hShifted : Shifted n behind reader reader')
    (hRest : reader.rest = line :: lines) :
    reader'.rest =
      (spaces n ++ line) :: (indented n lines ++ behind) := by
  rw [hShifted, hRest]
  rfl

theorem Shifted.rest_nil
    {reader reader' : Reader}
    (hShifted : Shifted n behind reader reader')
    (hRest : reader.rest = []) :
    reader'.rest = behind := by
  rw [hShifted, hRest]
  rfl

end AsyncapiDocs.Yaml

------------------------------------------------------------
-- Texts of Several Lines
------------------------------------------------------------

namespace AsyncapiDocs.Yaml

open Python (Str Value strip)

variable {n : ℕ} {behind : List Str}

theorem drop_spaces (n least : ℕ) (line : Str) :
    (spaces n ++ line).drop (least + n) = line.drop least := by
  rw [Nat.add_comm, ← List.drop_drop]
  simp [spaces]

/- Literal and folded texts are cut at their own indent. -/
theorem blockLines_indented
    (hCloses : Closes n behind)
    (base : ℕ)
    (blockIndent : Option ℕ)
    (lines : List Str) :
    blockLines (base + n) (blockIndent.map (· + n))
        (indented n lines ++ behind) =
      ((blockLines base blockIndent lines).1,
        indented n (blockLines base blockIndent lines).2 ++
          behind) := by
  induction lines generalizing blockIndent with
  | nil =>
      rcases hCloses.cases with
        rfl | ⟨line, lines, rfl, hBlank, hIndent⟩
      · rfl
      · have hSome : strip line ≠ [] := by
          intro hNil
          simp [isBlank, hNil] at hBlank
        have hStop : indent line ≤ base + n := by omega
        simp only [indented, List.map_nil, List.nil_append,
          blockLines, if_neg hSome, if_pos (Or.inl hStop)]
  | cons raw rest ih =>
      have hCons :
          indented n (raw :: rest) ++ behind =
            (spaces n ++ raw) :: (indented n rest ++ behind) :=
        rfl
      rw [hCons, blockLines, blockLines, strip_spaces]
      by_cases hEmpty : strip raw = []
      · rw [if_pos hEmpty, if_pos hEmpty]
        dsimp only
        rw [ih]
      · rw [if_neg hEmpty, if_neg hEmpty]
        dsimp only
        have hLeast :
            (blockIndent.map (· + n)).getD
                (indent (spaces n ++ raw)) =
              blockIndent.getD (indent raw) + n := by
          rw [indent_spaces]
          cases blockIndent with
          | none => exact Nat.add_comm ..
          | some least => rfl
        rw [hLeast, indent_spaces]
        by_cases hStop :
            indent raw ≤ base ∨
              indent raw < blockIndent.getD (indent raw)
        · rw [if_pos hStop, if_pos (by omega)]
          rfl
        · rw [if_neg hStop, if_neg (by omega), drop_spaces]
          have hSome :=
            ih (some (blockIndent.getD (indent raw)))
          rw [Option.map_some] at hSome
          rw [hSome]

/- Plain texts of several lines go on to the same line. -/
theorem plainLines_indented
    (hCloses : Closes n behind)
    (base : ℕ)
    (parts lines : List Str)
    (log log' : List Use) :
    (plainLines (base + n) parts
        (indented n lines ++ behind) log').1 =
        (plainLines base parts lines log).1 ∧
      Shifted n behind (plainLines base parts lines log).2
        (plainLines (base + n) parts
          (indented n lines ++ behind) log').2 := by
  induction lines generalizing parts log log' with
  | nil =>
      rcases hCloses.cases with
        rfl | ⟨line, lines, rfl, hBlank, hIndent⟩
      · exact ⟨rfl, rfl⟩
      · have hEnds :
            endsPlain (base + n) parts line = true := by
          have hLess : indent line < base + n := by omega
          simp [endsPlain, hLess]
        simp only [indented, List.map_nil, List.nil_append,
          plainLines, if_pos hEnds]
        exact ⟨trivial, rfl⟩
  | cons line rest ih =>
      have hCons :
          indented n (line :: rest) ++ behind =
            (spaces n ++ line) :: (indented n rest ++ behind) :=
        rfl
      have hEnds :
          endsPlain (base + n) parts (spaces n ++ line) =
            endsPlain base parts line := by
        simp only [endsPlain, isBlank_spaces, indent_spaces,
          strip_spaces, Nat.add_comm n]
        simp
      rw [hCons, plainLines, plainLines, hEnds]
      cases hStop : endsPlain base parts line with
      | true => exact ⟨rfl, rfl⟩
      | false =>
          rw [strip_spaces]
          exact ih _ _ _

end AsyncapiDocs.Yaml

------------------------------------------------------------
-- Values and Items
------------------------------------------------------------

namespace AsyncapiDocs.Yaml

open Python (Str Value strip)

variable {α : Type}
variable {scalars : Scalars}
variable {n : ℕ} {behind : List Str}
variable {nested nested' : Reader → Option (Value × Reader)}

/-
  What is read is read as well from the shifted lines. It ends
  at the same line, which is one of those that were there.
-/
def Mirrors
    (n : ℕ)
    (behind : List Str)
    (reader : Reader)
    (run run' : Option (α × Reader)) : Prop :=
  ∀ result after, run = some (result, after) →
    after.rest <:+ reader.rest ∧
      ∃ after', run' = some (result, after') ∧
        Shifted n behind after after'

/- The same of what reads a value that is there. -/
def MirrorsValue
    (n : ℕ)
    (behind : List Str)
    (nested nested' : Reader → Option (Value × Reader)) :
    Prop :=
  ∀ reader reader', Shifted n behind reader reader' →
    reader.skip.rest ≠ [] →
      Mirrors n behind reader (nested reader) (nested' reader')

theorem Mirrors.of_some
    {reader after after' : Reader}
    {result : α}
    (hSuffix : after.rest <:+ reader.rest)
    (hShifted : Shifted n behind after after') :
    Mirrors n behind reader (some (result, after))
      (some (result, after')) := by
  intro result' last hRun
  cases hRun
  exact ⟨hSuffix, after', rfl, hShifted⟩

/- The lines of a reader are some of those of another one. -/
theorem Mirrors.of_suffix
    {reader first : Reader}
    {run run' : Option (α × Reader)}
    (hMirrors : Mirrors n behind reader run run')
    (hSuffix : reader.rest <:+ first.rest) :
    Mirrors n behind first run run' := by
  intro result after hRun
  rcases hMirrors result after hRun with ⟨hMore, hRun'⟩
  exact ⟨hMore.trans hSuffix, hRun'⟩

/- The lines behind do not reach the indent. -/
theorem Shifted.head_lt
    {reader reader' : Reader}
    (hShifted : Shifted n behind reader reader')
    (hCloses : Closes n behind)
    (hRest : reader.rest = []) :
    ∀ line ∈ reader'.rest.head?, indent line < n := by
  rw [hShifted.rest_nil hRest]
  exact fun line hMem => (hCloses line hMem).2

theorem Shifted.head_lt_add
    {reader reader' : Reader}
    (hShifted : Shifted n behind reader reader')
    (hCloses : Closes n behind)
    (hRest : reader.rest = [])
    (least : ℕ) :
    ∀ line ∈ reader'.rest.head?, indent line < least + n :=
  fun line hMem =>
    Nat.lt_add_left least
      (hShifted.head_lt hCloses hRest line hMem)

theorem mirrors_valueBelow
    {reader reader' : Reader}
    (hCloses : Closes n behind)
    (hNested : MirrorsValue n behind nested nested')
    (hShifted : Shifted n behind reader reader')
    (least : ℕ) :
    Mirrors n behind reader (valueBelow nested least reader)
      (valueBelow nested' (least + n) reader') := by
  have hSkip := hShifted.skip hCloses
  refine Mirrors.of_suffix ?_ reader.skip_suffix
  cases hRest : reader.skip.rest with
  | nil =>
      have hLow := hSkip.head_lt_add hCloses hRest least
      rw [valueBelow_end (by simp [hRest]), valueBelow_end hLow]
      exact Mirrors.of_some List.suffix_rfl hSkip
  | cons line lines =>
      have hRest' := hSkip.rest_cons hRest
      have hIndent := indent_spaces n line
      by_cases hDeep : least ≤ indent line
      · rw [valueBelow_nested hRest hDeep,
          valueBelow_nested hRest' (by omega)]
        apply hNested _ _ hSkip
        rw [Reader.skip_skip, hRest]
        exact List.cons_ne_nil _ _
      · rw [valueBelow_end, valueBelow_end]
        · exact Mirrors.of_some List.suffix_rfl hSkip
        · simp only [hRest', List.head?_cons, Option.mem_def,
            Option.some.injEq, forall_eq']
          omega
        · simp only [hRest, List.head?_cons, Option.mem_def,
            Option.some.injEq, forall_eq']
          omega

theorem blockLines_suffix
    (base : ℕ)
    (blockIndent : Option ℕ)
    (lines : List Str) :
    (blockLines base blockIndent lines).2 <:+ lines := by
  rcases blockLines_taken base blockIndent lines with
    ⟨taken, hLines, _⟩
  exact ⟨taken, hLines.symm⟩

theorem plainLines_suffix
    (base : ℕ)
    (parts lines : List Str)
    (log : List Use) :
    (plainLines base parts lines log).2.rest <:+ lines := by
  rcases plainLines_taken base parts lines log with
    ⟨taken, hLines, _⟩
  exact ⟨taken, hLines.symm⟩

theorem mirrors_keyValue
    {reader reader' : Reader}
    (hCloses : Closes n behind)
    (hNested : MirrorsValue n behind nested nested')
    (hShifted : Shifted n behind reader reader')
    (base : ℕ)
    (rest : Str) :
    Mirrors n behind reader
      (keyValue scalars nested base rest reader)
      (keyValue scalars nested' (base + n) rest reader') := by
  unfold keyValue
  split
  · unfold blockScalar
    dsimp only
    have hLines :=
      blockLines_indented hCloses base none reader.rest
    rw [Option.map_none, ← hShifted] at hLines
    rw [hLines]
    exact Mirrors.of_some (blockLines_suffix ..) rfl
  · split
    · have hBelow :=
        mirrors_valueBelow hCloses hNested hShifted (base + 1)
      rwa [Nat.add_right_comm] at hBelow
    · split
      · exact Mirrors.of_some List.suffix_rfl hShifted
      · split
        · exact Mirrors.of_some List.suffix_rfl hShifted
        · exact Mirrors.of_some List.suffix_rfl hShifted

theorem mirrors_dashFirst
    {reader reader' : Reader}
    (hCloses : Closes n behind)
    (hNested : MirrorsValue n behind nested nested')
    (hShifted : Shifted n behind reader reader')
    (continuation : ℕ)
    (firstKv : Str) :
    Mirrors n behind reader
      (dashFirst scalars nested continuation firstKv reader)
      (dashFirst scalars nested' (continuation + n) firstKv
        reader') := by
  unfold dashFirst
  cases scalars.keyMatch firstKv with
  | none => exact Mirrors.of_some List.suffix_rfl hShifted
  | some entry =>
      rcases entry with ⟨key, rest⟩
      have hValue :
          Mirrors n behind reader
            (firstValue scalars nested continuation
              (stripComment rest)
              (reader.note
                (keyUse (scalars.keyName firstKv) key [])))
            (firstValue scalars nested' (continuation + n)
              (stripComment rest)
              (reader'.note
                (keyUse (scalars.keyName firstKv) key
                  []))) := by
        unfold firstValue
        split
        · exact Mirrors.of_some List.suffix_rfl hShifted
        · have hNoted :
              Shifted n behind
                (reader.note
                  (keyUse (scalars.keyName firstKv) key []))
                (reader'.note
                  (keyUse (scalars.keyName firstKv) key [])) :=
            hShifted
          exact mirrors_valueBelow hCloses hNested hNoted
            continuation
      intro first after hRun
      rw [Option.bind_eq_bind, Option.bind_eq_some_iff] at hRun
      rcases hRun with ⟨⟨value, last⟩, hRead, hFirst⟩
      rcases hValue value last hRead with
        ⟨hSuffix, last', hRead', hLast⟩
      cases hFirst
      refine ⟨hSuffix, last', ?_, hLast⟩
      dsimp only
      rw [hRead']
      rfl

theorem mirrors_itemValue
    {mapping mapping' :
      List (Str × Value) → Reader →
        Option (List (Str × Value) × Reader)}
    {reader reader' : Reader}
    (hCloses : Closes n behind)
    (hNested : MirrorsValue n behind nested nested')
    (hMapping :
      ∀ result reader reader', Shifted n behind reader reader' →
        Mirrors n behind reader (mapping result reader)
          (mapping' result reader'))
    (hShifted : Shifted n behind reader reader')
    (base : ℕ)
    (afterDash : Str) :
    Mirrors n behind reader
      (itemValue scalars nested mapping base afterDash reader)
      (itemValue scalars nested' mapping' (base + n) afterDash
        reader') := by
  unfold itemValue
  split
  · have hBelow :=
      mirrors_valueBelow hCloses hNested hShifted (base + 1)
    rwa [Nat.add_right_comm] at hBelow
  · split
    · intro value after hRun
      simp only [Option.bind_eq_bind,
        Option.bind_eq_some_iff] at hRun
      rcases hRun with
        ⟨⟨first, next⟩, hFirst, ⟨entries, last⟩, hRest, hLast⟩
      rcases mirrors_dashFirst hCloses hNested hShifted
          (base + 2) afterDash first next hFirst with
        ⟨hSuffix, next', hFirst', hNext⟩
      rcases hMapping first next next' hNext entries last hRest
        with ⟨hMore, last', hRest', hShiftedLast⟩
      cases hLast
      refine ⟨hMore.trans hSuffix, last', ?_, hShiftedLast⟩
      rw [Nat.add_right_comm, hFirst', Option.bind_eq_bind,
        Option.bind_some]
      dsimp only
      rw [hRest']
      rfl
    · exact Mirrors.of_some List.suffix_rfl hShifted

end AsyncapiDocs.Yaml

------------------------------------------------------------
-- The Methods of the Parser
------------------------------------------------------------

namespace AsyncapiDocs.Yaml

open Python (Str Value strip)

variable {scalars : Scalars}
variable {n : ℕ} {behind : List Str}

/- The methods, called with a bound, and with a larger one. -/
structure MirrorsAt
    (scalars : Scalars)
    (n : ℕ)
    (behind : List Str)
    (fuel : ℕ) : Prop where
  value :
    ∀ fuel', fuel ≤ fuel' →
      MirrorsValue n behind (parseValue scalars fuel)
        (parseValue scalars fuel')
  mapping :
    ∀ fuel', fuel ≤ fuel' → ∀ base result reader reader',
      Shifted n behind reader reader' →
        Mirrors n behind reader
          (parseMapping scalars fuel base result reader)
          (parseMapping scalars fuel' (base + n) result
            reader')
  sequence :
    ∀ fuel', fuel ≤ fuel' → ∀ base result reader reader',
      Shifted n behind reader reader' →
        Mirrors n behind reader
          (parseSequence scalars fuel base result reader)
          (parseSequence scalars fuel' (base + n) result
            reader')
  dash :
    ∀ fuel', fuel ≤ fuel' → ∀ base result reader reader',
      Shifted n behind reader reader' →
        Mirrors n behind reader
          (parseDashInlineMapping scalars fuel base result
            reader)
          (parseDashInlineMapping scalars fuel' (base + n)
            result reader')

theorem mirrors_none
    {α : Type}
    {reader : Reader}
    {run' : Option (α × Reader)} :
    Mirrors n behind reader none run' := by
  intro result after hRun
  cases hRun

theorem mirrors_parseMapping_succ
    {fuel fuel' : ℕ}
    {reader reader' : Reader}
    (hCloses : Closes n behind)
    (ih : MirrorsAt scalars n behind fuel)
    (hFuel : fuel ≤ fuel')
    (hShifted : Shifted n behind reader reader')
    (base : ℕ)
    (result : List (Str × Value)) :
    Mirrors n behind reader
      (parseMapping scalars (fuel + 1) base result reader)
      (parseMapping scalars (fuel' + 1) (base + n) result
        reader') := by
  have hSkip := hShifted.skip hCloses
  intro entries last hRun
  cases parseMapping_pass hRun with
  | nil hRest =>
      have hLow := hSkip.head_lt_add hCloses hRest base
      exact ⟨reader.skip_suffix, reader'.skip,
        parseMapping_low hLow result, hSkip⟩
  | @stop line _ hRest hStop =>
      have hStop' :
          indent (spaces n ++ line) ≠ base + n ∨
            startsDash (strip (spaces n ++ line)) = true := by
        rw [indent_spaces, strip_spaces]
        exact hStop.imp_left (by omega)
      exact ⟨reader.skip_suffix, reader'.skip,
        parseMapping_stop (hSkip.rest_cons hRest) hStop' result,
        hSkip⟩
  | @lost line lines _ _ hRest hGo hMatch hMore =>
      have hGo' :
          ¬ (indent (spaces n ++ line) ≠ base + n ∨
            startsDash (strip (spaces n ++ line)) = true) := by
        rw [indent_spaces, strip_spaces]
        exact fun h => hGo (h.imp_left (by omega))
      rw [← keyMatch_spaces n] at hMatch
      rcases ih.mapping fuel' hFuel base result _ _
          (shifted_mk ..) entries last hMore with
        ⟨hSuffix, last', hMore', hLast⟩
      refine ⟨hSuffix.trans (suffix_of_skip hRest), last', ?_,
        hLast⟩
      rw [parseMapping_lost (hSkip.rest_cons hRest) hGo' hMatch]
      exact hMore'
  | @key line key rest lines value _ after _ hRest hGo hMatch
      hValue hMore =>
      have hGo' :
          ¬ (indent (spaces n ++ line) ≠ base + n ∨
            startsDash (strip (spaces n ++ line)) = true) := by
        rw [indent_spaces, strip_spaces]
        exact fun h => hGo (h.imp_left (by omega))
      rw [← keyMatch_spaces n] at hMatch
      rcases mirrors_keyValue hCloses (ih.value fuel' hFuel)
          (shifted_mk ..) base (stripComment rest) value after
          hValue with
        ⟨hSuffix, after', hValue', hAfter⟩
      rcases ih.mapping fuel' hFuel base
          (Python.setEntry key value result) after after' hAfter
          entries last hMore with
        ⟨hMoreSuffix, last', hMore', hLast⟩
      refine ⟨hMoreSuffix.trans
        (hSuffix.trans (suffix_of_skip hRest)), last', ?_,
        hLast⟩
      rw [parseMapping_key (hSkip.rest_cons hRest) hGo' hMatch
        hValue']
      exact hMore'

theorem mirrors_parseDash_succ
    {fuel fuel' : ℕ}
    {reader reader' : Reader}
    (hCloses : Closes n behind)
    (ih : MirrorsAt scalars n behind fuel)
    (hFuel : fuel ≤ fuel')
    (hShifted : Shifted n behind reader reader')
    (base : ℕ)
    (result : List (Str × Value)) :
    Mirrors n behind reader
      (parseDashInlineMapping scalars (fuel + 1) base result
        reader)
      (parseDashInlineMapping scalars (fuel' + 1) (base + n)
        result reader') := by
  have hSkip := hShifted.skip hCloses
  intro entries last hRun
  cases parseDash_pass hRun with
  | nil hRest =>
      have hLow := hSkip.head_lt_add hCloses hRest base
      exact ⟨reader.skip_suffix, reader'.skip,
        parseDash_low hLow result, hSkip⟩
  | @stop line _ hRest hStop =>
      have hStop' :
          indent (spaces n ++ line) ≠ base + n ∨
            scalars.keyMatch (spaces n ++ line) = none := by
        rw [indent_spaces, keyMatch_spaces]
        exact hStop.imp_left (by omega)
      exact ⟨reader.skip_suffix, reader'.skip,
        parseDash_stop (hSkip.rest_cons hRest) hStop' result,
        hSkip⟩
  | @key line key rest lines value _ after _ hRest hIndent
      hMatch hValue hMore =>
      have hIndent' : indent (spaces n ++ line) = base + n := by
        rw [indent_spaces, hIndent, Nat.add_comm]
      rw [← keyMatch_spaces n] at hMatch
      rcases mirrors_keyValue hCloses (ih.value fuel' hFuel)
          (shifted_mk ..) base (stripComment rest) value after
          hValue with
        ⟨hSuffix, after', hValue', hAfter⟩
      rcases ih.dash fuel' hFuel base
          (Python.setEntry key value result) after after' hAfter
          entries last hMore with
        ⟨hMoreSuffix, last', hMore', hLast⟩
      refine ⟨hMoreSuffix.trans
        (hSuffix.trans (suffix_of_skip hRest)), last', ?_,
        hLast⟩
      rw [parseDash_key (hSkip.rest_cons hRest) hIndent' hMatch
        hValue']
      exact hMore'

theorem mirrors_parseSequence_succ
    {fuel fuel' : ℕ}
    {reader reader' : Reader}
    (hCloses : Closes n behind)
    (ih : MirrorsAt scalars n behind fuel)
    (hFuel : fuel ≤ fuel')
    (hShifted : Shifted n behind reader reader')
    (base : ℕ)
    (result : List Value) :
    Mirrors n behind reader
      (parseSequence scalars (fuel + 1) base result reader)
      (parseSequence scalars (fuel' + 1) (base + n) result
        reader') := by
  have hSkip := hShifted.skip hCloses
  intro items last hRun
  cases parseSequence_pass hRun with
  | nil hRest =>
      have hLow := hSkip.head_lt_add hCloses hRest base
      exact ⟨reader.skip_suffix, reader'.skip,
        parseSequence_low hLow result, hSkip⟩
  | @stop line _ hRest hStop =>
      have hStop' :
          indent (spaces n ++ line) ≠ base + n ∨
            (!startsWith '-' (strip (spaces n ++ line))) =
              true := by
        rw [indent_spaces, strip_spaces]
        exact hStop.imp_left (by omega)
      exact ⟨reader.skip_suffix, reader'.skip,
        parseSequence_stop (hSkip.rest_cons hRest) hStop' result,
        hSkip⟩
  | @item line lines value _ after _ hRest hGo hValue hMore =>
      have hGo' :
          ¬ (indent (spaces n ++ line) ≠ base + n ∨
            (!startsWith '-' (strip (spaces n ++ line))) =
              true) := by
        rw [indent_spaces, strip_spaces]
        exact fun h => hGo (h.imp_left (by omega))
      have hMapping :
          ∀ result reader reader',
            Shifted n behind reader reader' →
              Mirrors n behind reader
                (parseDashInlineMapping scalars fuel
                  (base + 2) result reader)
                (parseDashInlineMapping scalars fuel'
                  (base + n + 2) result reader') := by
        intro result reader reader' hReader
        rw [Nat.add_right_comm base n 2]
        exact ih.dash fuel' hFuel (base + 2) result reader
          reader' hReader
      rw [← strip_spaces n line] at hValue
      rcases mirrors_itemValue hCloses (ih.value fuel' hFuel)
          hMapping (shifted_mk ..) base _ value after hValue with
        ⟨hSuffix, after', hValue', hAfter⟩
      rcases ih.sequence fuel' hFuel base (result ++ [value])
          after after' hAfter items last hMore with
        ⟨hMoreSuffix, last', hMore', hLast⟩
      refine ⟨hMoreSuffix.trans
        (hSuffix.trans (suffix_of_skip hRest)), last', ?_,
        hLast⟩
      rw [parseSequence_item (hSkip.rest_cons hRest) hGo'
        hValue']
      exact hMore'

/- A value of several lines, as a part of the whole value. -/
theorem Mirrors.map
    {α β : Type}
    {reader : Reader}
    {run run' : Option (α × Reader)}
    (hMirrors : Mirrors n behind reader run run')
    (f : α → β) :
    Mirrors n behind reader
      (run.map fun read => (f read.1, read.2))
      (run'.map fun read => (f read.1, read.2)) := by
  intro result after hRun
  rcases Option.map_eq_some_iff.mp hRun with
    ⟨⟨value, last⟩, hRead, hResult⟩
  rcases hMirrors value last hRead with
    ⟨hSuffix, last', hRead', hLast⟩
  cases hResult
  refine ⟨hSuffix, last', ?_, hLast⟩
  rw [hRead']
  rfl

theorem mirrors_parseValue_succ
    {fuel fuel' : ℕ}
    (hCloses : Closes n behind)
    (ih : MirrorsAt scalars n behind fuel)
    (hFuel : fuel ≤ fuel') :
    MirrorsValue n behind (parseValue scalars (fuel + 1))
      (parseValue scalars (fuel' + 1)) := by
  intro reader reader' hShifted hContent
  have hSkip := hShifted.skip hCloses
  refine Mirrors.of_suffix ?_ reader.skip_suffix
  cases hRest : reader.skip.rest with
  | nil => exact absurd hRest hContent
  | cons line lines =>
      have hRest' := hSkip.rest_cons hRest
      have hTail : lines <:+ reader.skip.rest := by
        rw [hRest]
        exact List.suffix_cons line lines
      rw [parseValue, parseValue]
      simp only [hRest, hRest', strip_spaces, indent_spaces]
      rw [Nat.add_comm n (indent line)]
      split_ifs
      · exact (ih.sequence fuel' hFuel (indent line) [] _ _
          hSkip).map Value.list
      · exact (ih.mapping fuel' hFuel (indent line) [] _ _
          hSkip).map Value.dict
      · exact Mirrors.of_some hTail (shifted_mk ..)
      · exact Mirrors.of_some hTail (shifted_mk ..)
      · have hPlain :=
          plainLines_indented hCloses (indent line) []
            reader.skip.rest reader.skip.log reader'.skip.log
        rw [← hSkip] at hPlain
        unfold plainScalar
        dsimp only
        rw [hPlain.1]
        exact Mirrors.of_some (plainLines_suffix ..) hPlain.2

/- The induction is on the bound. -/
theorem mirrorsAt
    (hCloses : Closes n behind)
    (scalars : Scalars)
    (fuel : ℕ) :
    MirrorsAt scalars n behind fuel := by
  induction fuel with
  | zero =>
      constructor
      · intro fuel' _ reader reader' _ _
        exact mirrors_none
      all_goals
        intros
        exact mirrors_none
  | succ fuel ih =>
      constructor
      all_goals
        intro fuel' hFuel
        obtain ⟨more, rfl⟩ :=
          Nat.exists_eq_add_one.mpr
            (Nat.zero_lt_of_lt (Nat.lt_of_succ_le hFuel))
        have hMore := Nat.le_of_succ_le_succ hFuel
      · exact mirrors_parseValue_succ hCloses ih hMore
      · intro base result reader reader' hShifted
        exact mirrors_parseMapping_succ hCloses ih hMore
          hShifted base result
      · intro base result reader reader' hShifted
        exact mirrors_parseSequence_succ hCloses ih hMore
          hShifted base result
      · intro base result reader reader' hShifted
        exact mirrors_parseDash_succ hCloses ih hMore hShifted
          base result

end AsyncapiDocs.Yaml
