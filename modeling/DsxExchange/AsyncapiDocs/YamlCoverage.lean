import DsxExchange.AsyncapiDocs.YamlLayout
import DsxExchange.AsyncapiDocs.YamlMarks

/-
  A text is read without leaving anything out just when there
  is a place for each of its lines.

  Key definitions include:
    * `AsyncapiDocs.Yaml.Shows`
    * `AsyncapiDocs.Yaml.DropsNothing`

  Key theorems include:
    * `AsyncapiDocs.Yaml.Shows.trans`
    * `AsyncapiDocs.Yaml.showsAt`
    * `AsyncapiDocs.Yaml.dropsNothing_iff`
-/

------------------------------------------------------------
-- Between Two Positions
------------------------------------------------------------

namespace AsyncapiDocs.Yaml

open Python (Str Value strip)

variable {scalars : Scalars}

/-
  Between two positions each line has been noted, and what was
  read is in a list of marks, unless something was lost.
-/
def Shows
    (scalars : Scalars)
    (reader after : Reader)
    (shown : List Mark) : Prop :=
  ∃ passed new,
    reader.rest = passed ++ after.rest ∧
      after.log = reader.log ++ new ∧
      Noted passed new ∧
      (after.IsClean → ShownIn scalars new shown)

theorem Shows.isClean
    {reader after : Reader}
    {shown : List Mark}
    (hShows : Shows scalars reader after shown)
    (hClean : after.IsClean) :
    reader.IsClean := by
  rcases hShows with ⟨_, new, _, hNew, _⟩
  unfold Reader.IsClean at hClean ⊢
  rw [hNew, losesNothing_append] at hClean
  exact hClean.1

theorem Shows.trans
    {reader middle after : Reader}
    {first second : List Mark}
    (hFirst : Shows scalars reader middle first)
    (hSecond : Shows scalars middle after second) :
    Shows scalars reader after (first ++ second) := by
  have hMiddle : after.IsClean → middle.IsClean :=
    hSecond.isClean
  rcases hFirst with ⟨passed, new, hPassed, hNew, hNoted, hShown⟩
  rcases hSecond with
    ⟨passedMore, more, hPassedMore, hMore, hNotedMore,
      hShownMore⟩
  refine ⟨passed ++ passedMore, new ++ more, ?_, ?_,
    hNoted.append hNotedMore, ?_⟩
  · rw [hPassed, hPassedMore, List.append_assoc]
  · rw [hMore, hNew, List.append_assoc]
  · intro hClean
    exact (hShown (hMiddle hClean)).append (hShownMore hClean)

theorem Shows.mono
    {reader after : Reader}
    {shown all : List Mark}
    (hShows : Shows scalars reader after shown)
    (hAll : after.IsClean → shown.Sublist all) :
    Shows scalars reader after all := by
  rcases hShows with ⟨passed, new, hPassed, hNew, hNoted, hShown⟩
  refine ⟨passed, new, hPassed, hNew, hNoted, ?_⟩
  intro hClean
  exact (hShown hClean).mono (hAll hClean)

/- Blank lines and comments are skipped. -/
theorem shows_skip (reader : Reader) (shown : List Mark) :
    Shows scalars reader reader.skip shown := by
  refine ⟨reader.rest.takeWhile isBlank, [], ?_, ?_, ?_, ?_⟩
  · exact (List.takeWhile_append_dropWhile).symm
  · exact (List.append_nil _).symm
  · intro line hMem hContent
    rw [List.mem_takeWhile_imp hMem] at hContent
    cases hContent
  · intro _
    exact shownIn_nil shown

/- Lines are passed, and it is noted what they were read as. -/
theorem shows_lines
    {passed rest : List Str}
    {reader : Reader}
    {uses : List Use}
    {shown : List Mark}
    (hRest : reader.rest = passed ++ rest)
    (hNoted : Noted passed uses)
    (hShown : LosesNothing uses → ShownIn scalars uses shown) :
    Shows scalars reader ⟨rest, reader.log ++ uses⟩ shown := by
  refine ⟨passed, uses, hRest, rfl, hNoted, ?_⟩
  intro hClean
  exact hShown (losesNothing_append.mp hClean).2

/- More is noted of lines that were passed already. -/
theorem shows_notes
    {uses : List Use}
    {shown : List Mark}
    (reader : Reader)
    (hShown : LosesNothing uses → ShownIn scalars uses shown) :
    Shows scalars reader (reader.notes uses) shown :=
  shows_lines rfl (noted_nil uses) hShown

/- A line with a key that is noted. -/
theorem shows_keyUse
    {line : Str}
    {lines : List Str}
    {reader : Reader}
    (hRest : reader.rest = line :: lines)
    (key : Str)
    (result : List (Str × Value)) :
    Shows scalars reader
      ⟨lines,
        reader.log ++ [keyUse (scalars.keyName line) key result]⟩
      [.key key] := by
  refine shows_lines (hRest.trans List.singleton_append.symm)
    (noted_singleton (isOf_keyUse line key result)) ?_
  intro hClean
  rw [keyUse_of_new (losesNothing_keyUse.mp hClean)]
  exact shownIn_singleton rfl

end AsyncapiDocs.Yaml

------------------------------------------------------------
-- Values
------------------------------------------------------------

namespace AsyncapiDocs.Yaml

open Python (Str Value strip)

variable {scalars : Scalars}
variable {nested : Reader → Option (Value × Reader)}

/- What is read of a value is in the value. -/
def ShowsValue
    (scalars : Scalars)
    (nested : Reader → Option (Value × Reader)) : Prop :=
  ∀ reader value after,
    nested reader = some (value, after) →
      Shows scalars reader after (marks value)

theorem plainLines_log
    (base : ℕ)
    (parts lines : List Str)
    (log : List Use) :
    ∃ new,
      (plainLines base parts lines log).2.log = log ++ new ∧
        (LosesNothing new → new = []) := by
  induction lines generalizing parts log with
  | nil => exact ⟨[], by simp [plainLines], fun _ => rfl⟩
  | cons line lines ih =>
      rw [plainLines]
      split
      · exact ⟨[], by simp, fun _ => rfl⟩
      · rcases ih (parts ++ [strip line])
          (log ++ partUse parts line) with ⟨new, hNew, hNone⟩
        refine ⟨partUse parts line ++ new, ?_, ?_⟩
        · rw [hNew, List.append_assoc]
        · intro hClean
          rw [losesNothing_append] at hClean
          have hPart := hClean.1
          rw [hNone hClean.2, List.append_nil]
          unfold partUse at hPart ⊢
          split
          · next hComment =>
              rw [if_pos hComment] at hPart
              exact absurd List.mem_cons_self (hPart line)
          · rfl

/- The text of a plain scalar is its value. -/
theorem shows_plainScalar
    (base : ℕ)
    (reader : Reader) :
    Shows scalars reader (plainScalar scalars base reader).2
      (marks (plainScalar scalars base reader).1) := by
  rcases plainLines_taken base [] reader.rest reader.log with
    ⟨taken, hLines, hParts⟩
  rw [List.nil_append] at hParts
  rcases plainLines_log base [] reader.rest reader.log with
    ⟨new, hNew, hNone⟩
  have hTaken :
      reader.rest.take
          (plainLines base [] reader.rest reader.log).1.length =
        taken := by
    rw [hParts]
    conv_lhs => rw [hLines]
    simp
  unfold plainScalar
  dsimp only
  rw [hTaken, hParts]
  refine ⟨taken, new ++ plainUses taken, hLines, ?_, ?_, ?_⟩
  · rw [Reader.notes, hNew, List.append_assoc]
  · have hOf : Noted taken (plainUses taken) := by
      intro line hMem _
      refine ⟨.plain taken, ?_, hMem⟩
      unfold plainUses
      dsimp only
      split <;> exact List.mem_cons_self
    exact (noted_nil new).append hOf
  · intro hClean
    rw [Reader.IsClean, Reader.notes, hNew, List.append_assoc,
      losesNothing_append, losesNothing_append] at hClean
    have hKeeps := (losesNothing_plainUses taken).mp hClean.2.2
    have hUses : plainUses taken = [.plain taken] := by
      rw [plainUses, if_neg]
      simpa [keepsText] using hKeeps
    rw [hNone hClean.2.1, hUses, marks_scalar]
    exact shownIn_singleton (tells_scalar hKeeps)

/- Each line of a block scalar is in its value. -/
theorem shows_blockScalar
    (indicator : Str)
    (base : ℕ)
    (reader : Reader) :
    Shows scalars reader (blockScalar indicator base reader).2
      (marks (blockScalar indicator base reader).1) := by
  rcases blockLines_taken base none reader.rest with
    ⟨taken, hLines, hTaken⟩
  have hSame :
      reader.rest.take
          (blockLines base none reader.rest).1.length =
        taken := by
    rw [← hTaken.length_eq]
    conv_lhs => rw [hLines]
    simp
  unfold blockScalar
  dsimp only
  rw [hSame]
  refine shows_lines hLines
    (noted_of_forall fun line hMem => hMem) ?_
  intro _
  apply shownIn_singleton
  intro raw hMem
  rcases List.mem_iff_get.mp hMem with ⟨i, hRaw⟩
  rcases List.forall₂_iff_get.mp hTaken with ⟨hLength, hGet⟩
  have hRead := hGet i i.isLt (hLength ▸ i.isLt)
  rw [← hRaw]
  exact hRead.trans (infix_blockText indicator (List.get_mem _ _))

theorem shows_valueBelow
    {least : ℕ}
    {reader after : Reader}
    {value : Value}
    (hNested : ShowsValue scalars nested)
    (hRead :
      valueBelow nested least reader = some (value, after)) :
    Shows scalars reader after (marks value) := by
  unfold valueBelow at hRead
  dsimp only at hRead
  split at hRead
  · cases hRead
    exact shows_skip reader _
  · split at hRead
    · exact (shows_skip reader []).trans
        (hNested reader.skip value after hRead)
    · cases hRead
      exact shows_skip reader _

theorem shows_keyValue
    {base : ℕ}
    {rest : Str}
    {reader after : Reader}
    {value : Value}
    (hNested : ShowsValue scalars nested)
    (hRead :
      keyValue scalars nested base rest reader =
        some (value, after)) :
    Shows scalars reader after (marks value) := by
  unfold keyValue at hRead
  split at hRead
  · cases hRead
    exact shows_blockScalar rest base reader
  split at hRead
  · exact shows_valueBelow hNested hRead
  split at hRead
  · cases hRead
    exact shows_notes reader shownIn_seqUses
  split at hRead
  · cases hRead
    exact shows_notes reader shownIn_mapUses
  · cases hRead
    exact shows_notes reader shownIn_textUse

end AsyncapiDocs.Yaml

------------------------------------------------------------
-- Blocks
------------------------------------------------------------

namespace AsyncapiDocs.Yaml

open Python (Str Value strip)

variable {scalars : Scalars}
variable {nested : Reader → Option (Value × Reader)}

/- The entries of a mapping, behind those it had before. -/
def ShowsEntries
    (scalars : Scalars)
    (reader after : Reader)
    (result entries : List (Str × Value)) : Prop :=
  ∃ shown,
    Shows scalars reader after shown ∧
      (after.IsClean →
        marksOfEntries entries =
          marksOfEntries result ++ shown)

/- The items of a sequence, behind those it had before. -/
def ShowsItems
    (scalars : Scalars)
    (reader after : Reader)
    (result items : List Value) : Prop :=
  ∃ shown,
    Shows scalars reader after shown ∧
      marksOfItems items = marksOfItems result ++ shown

/- The methods of the parser, called with a bound. -/
structure ShowsAt (scalars : Scalars) (fuel : ℕ) : Prop where
  value : ShowsValue scalars (parseValue scalars fuel)
  mapping :
    ∀ base result entries reader after,
      parseMapping scalars fuel base result reader =
          some (entries, after) →
        ShowsEntries scalars reader after result entries
  sequence :
    ∀ base result items reader after,
      parseSequence scalars fuel base result reader =
          some (items, after) →
        ShowsItems scalars reader after result items
  dash :
    ∀ base result entries reader after,
      parseDashInlineMapping scalars fuel base result reader =
          some (entries, after) →
        ShowsEntries scalars reader after result entries

theorem showsEntries_end
    (reader : Reader)
    (result : List (Str × Value)) :
    ShowsEntries scalars reader reader.skip result result :=
  ⟨[], shows_skip reader [], fun _ =>
    (List.append_nil _).symm⟩

/- A key with its value, and the entries after it. -/
theorem showsEntries_key
    {base : ℕ}
    {result entries : List (Str × Value)}
    {key rest line : Str}
    {lines : List Str}
    {reader next after : Reader}
    {value : Value}
    (hNested : ShowsValue scalars nested)
    (hRest : reader.skip.rest = line :: lines)
    (hRead :
      keyValue scalars nested base rest
          ⟨lines,
            reader.skip.log ++
              [keyUse (scalars.keyName line) key result]⟩ =
        some (value, next))
    (hMore :
      ShowsEntries scalars next after
        (Python.setEntry key value result) entries) :
    ShowsEntries scalars reader after result entries := by
  rcases hMore with ⟨shown, hShown, hEntries⟩
  have hSkip : Shows scalars reader reader.skip [] :=
    shows_skip reader []
  have hKey :
      Shows scalars reader.skip
        ⟨lines,
          reader.skip.log ++
            [keyUse (scalars.keyName line) key result]⟩
        [.key key] :=
    shows_keyUse hRest key result
  have hValue := (shows_keyValue hNested hRead).trans hShown
  refine ⟨[.key key] ++ (marks value ++ shown),
    hSkip.trans (hKey.trans hValue), ?_⟩
  intro hClean
  have hNew : key ∉ result.map Prod.fst := by
    have hUse := (losesNothing_append.mp (hValue.isClean hClean)).2
    exact (losesNothing_keyUse.mp hUse).1
  rw [hEntries hClean, Python.setEntry_of_not_mem hNew,
    marksOfEntries_append_singleton]
  simp

theorem shows_parseMapping_succ
    {fuel base : ℕ}
    {result entries : List (Str × Value)}
    {reader after : Reader}
    (hShows : ShowsAt scalars fuel)
    (hRead :
      parseMapping scalars (fuel + 1) base result reader =
        some (entries, after)) :
    ShowsEntries scalars reader after result entries := by
  cases parseMapping_pass hRead with
  | nil => exact showsEntries_end reader result
  | stop => exact showsEntries_end reader result
  | @lost line lines _ _ hRest _ _ hMore =>
      rcases hShows.mapping _ _ _ _ _ hMore with
        ⟨shown, hShown, _⟩
      have hLost :
          ¬ Reader.IsClean
            ⟨lines, reader.skip.log ++ [.lost line]⟩ := by
        intro hClean
        apply hClean line
        exact List.mem_append_right _ List.mem_cons_self
      have hLine :
          Shows scalars reader.skip
            ⟨lines, reader.skip.log ++ [.lost line]⟩ [] := by
        apply shows_lines (hRest.trans List.singleton_append.symm)
        · exact noted_singleton List.infix_rfl
        · intro hClean
          exact absurd List.mem_cons_self (hClean line)
      refine ⟨[] ++ ([] ++ shown),
        (shows_skip reader []).trans (hLine.trans hShown), ?_⟩
      intro hClean
      exact absurd (hShown.isClean hClean) hLost
  | key hRest _ _ hValue hMore =>
      exact showsEntries_key hShows.value hRest hValue
        (hShows.mapping _ _ _ _ _ hMore)

theorem shows_parseDash_succ
    {fuel base : ℕ}
    {result entries : List (Str × Value)}
    {reader after : Reader}
    (hShows : ShowsAt scalars fuel)
    (hRead :
      parseDashInlineMapping scalars (fuel + 1) base result
          reader =
        some (entries, after)) :
    ShowsEntries scalars reader after result entries := by
  cases parseDash_pass hRead with
  | nil => exact showsEntries_end reader result
  | stop => exact showsEntries_end reader result
  | key hRest _ _ hValue hMore =>
      exact showsEntries_key hShows.value hRest hValue
        (hShows.dash _ _ _ _ _ hMore)

theorem shows_dashFirst
    {text : Str}
    {continuation : ℕ}
    {reader after : Reader}
    {first : List (Str × Value)}
    (hNested : ShowsValue scalars nested)
    (hRead :
      dashFirst scalars nested continuation text reader =
        some (first, after)) :
    Shows scalars reader after (marksOfEntries first) := by
  unfold dashFirst at hRead
  cases hMatch : scalars.keyMatch text with
  | none =>
      simp only [hMatch] at hRead
      cases hRead
      apply shows_notes
      unfold firstUses
      split
      · intro _
        exact shownIn_nil _
      · intro hClean
        exact absurd List.mem_cons_self (hClean text)
  | some found =>
      rcases found with ⟨key, rest⟩
      simp only [hMatch, Option.bind_eq_bind,
        Option.bind_eq_some_iff] at hRead
      rcases hRead with ⟨⟨value, next⟩, hValue, hFirst⟩
      cases hFirst
      have hKey :
          Shows scalars reader
            (reader.note (keyUse (scalars.keyName text) key []))
            [.key key] := by
        apply shows_notes
        intro hClean
        rw [keyUse_of_new (losesNothing_keyUse.mp hClean)]
        exact shownIn_singleton rfl
      have hBelow :
          Shows scalars
            (reader.note (keyUse (scalars.keyName text) key []))
            next (marks value) := by
        unfold firstValue at hValue
        split at hValue
        · cases hValue
          exact shows_notes _ shownIn_textUse
        · exact shows_valueBelow hNested hValue
      rw [marksOfEntries, marksOfEntries, List.append_nil]
      exact hKey.trans hBelow

theorem shows_itemValue
    {fuel base : ℕ}
    {afterDash : Str}
    {reader after : Reader}
    {value : Value}
    (hShows : ShowsAt scalars fuel)
    (hRead :
      itemValue scalars (parseValue scalars fuel)
          (parseDashInlineMapping scalars fuel (base + 2))
          base afterDash reader =
        some (value, after)) :
    Shows scalars reader after (marks value) := by
  unfold itemValue at hRead
  split at hRead
  · exact shows_valueBelow hShows.value hRead
  split at hRead
  · simp only [Option.bind_eq_bind,
      Option.bind_eq_some_iff] at hRead
    rcases hRead with
      ⟨⟨first, next⟩, hFirst, ⟨entries, last⟩, hMapping,
        hValue⟩
    cases hValue
    have hShown := shows_dashFirst hShows.value hFirst
    rcases hShows.dash _ _ _ _ _ hMapping with
      ⟨more, hMore, hAll⟩
    apply (hShown.trans hMore).mono
    intro hClean
    rw [marks, hAll hClean]
    exact List.sublist_cons_self _ _
  · cases hRead
    exact shows_notes reader shownIn_lineUses

theorem shows_parseSequence_succ
    {fuel base : ℕ}
    {result items : List Value}
    {reader after : Reader}
    (hShows : ShowsAt scalars fuel)
    (hRead :
      parseSequence scalars (fuel + 1) base result reader =
        some (items, after)) :
    ShowsItems scalars reader after result items := by
  have hEnd : ShowsItems scalars reader reader.skip result result :=
    ⟨[], shows_skip reader [], (List.append_nil _).symm⟩
  cases parseSequence_pass hRead with
  | nil => exact hEnd
  | stop => exact hEnd
  | @item line lines value _ _ _ hRest hGo hValue hMore =>
      rw [not_or, not_not] at hGo
      have hDash : startsWith '-' (strip line) = true := by
        simpa using hGo.2
      rcases hShows.sequence _ _ _ _ _ hMore with
        ⟨shown, hShown, hItems⟩
      have hItem := shows_itemValue hShows hValue
      have hLine :
          Shows scalars reader.skip
            ⟨lines, reader.skip.log ++ [.item]⟩ [.item] := by
        apply shows_lines (hRest.trans List.singleton_append.symm)
        · exact noted_singleton (mem_of_startsWith_strip hDash)
        · intro _
          exact shownIn_singleton trivial
      refine ⟨[] ++ ([.item] ++ (marks value ++ shown)),
        (shows_skip reader []).trans
          (hLine.trans (hItem.trans hShown)), ?_⟩
      rw [hItems, marksOfItems_append_singleton]
      simp

/- A value that is a mapping or a sequence on one line. -/
theorem shows_flowLine
    {line : Str}
    {lines : List Str}
    {reader : Reader}
    (hRest : reader.rest = line :: lines)
    (hFlow :
      startsWith '\x7b' (strip line) = true ∨
        startsWith '[' (strip line) = true) :
    Shows scalars reader
      ⟨lines, reader.log ++ scalars.lineUses (strip line)⟩
      (marks (dashScalar scalars (strip line))) :=
  shows_lines (hRest.trans List.singleton_append.symm)
    (noted_lineUses hFlow) shownIn_lineUses

theorem shows_parseValue_succ
    {fuel : ℕ}
    (hShows : ShowsAt scalars fuel) :
    ShowsValue scalars (parseValue scalars (fuel + 1)) := by
  intro reader value after hRead
  have hSkip : Shows scalars reader reader.skip [] :=
    shows_skip reader []
  rw [parseValue] at hRead
  dsimp only at hRead
  split at hRead
  · cases hRead
    exact shows_skip reader _
  · next line lines hRest =>
      split at hRead
      · rw [Option.map_eq_some_iff] at hRead
        rcases hRead with ⟨⟨items, last⟩, hItems, hValue⟩
        cases hValue
        rcases hShows.sequence _ _ _ _ _ hItems with
          ⟨shown, hShown, hMarks⟩
        apply Shows.mono (hSkip.trans hShown)
        intro _
        rw [marks, hMarks]
        exact List.sublist_cons_self _ _
      split at hRead
      · rw [Option.map_eq_some_iff] at hRead
        rcases hRead with ⟨⟨entries, last⟩, hEntries, hValue⟩
        cases hValue
        rcases hShows.mapping _ _ _ _ _ hEntries with
          ⟨shown, hShown, hMarks⟩
        apply Shows.mono (hSkip.trans hShown)
        intro hClean
        rw [marks, hMarks hClean]
        exact List.sublist_cons_self _ _
      split at hRead
      · next hBrace =>
          have hLine :
              Shows scalars reader.skip
                ⟨lines,
                  reader.skip.log ++
                    scalars.lineUses (strip line)⟩
                (marks (dashScalar scalars (strip line))) :=
            shows_flowLine hRest (Or.inl hBrace)
          have hOther : ¬ startsWith '[' (strip line) = true :=
            startsWith_of_startsWith hBrace (by decide)
          rw [Scalars.lineUses, dashScalar, if_neg hOther,
            if_neg hOther, if_pos hBrace, if_pos hBrace] at hLine
          cases hRead
          exact hSkip.trans hLine
      split at hRead
      · next hBracket =>
          have hLine :
              Shows scalars reader.skip
                ⟨lines,
                  reader.skip.log ++
                    scalars.lineUses (strip line)⟩
                (marks (dashScalar scalars (strip line))) :=
            shows_flowLine hRest (Or.inr hBracket)
          rw [Scalars.lineUses, dashScalar, if_pos hBracket,
            if_pos hBracket] at hLine
          cases hRead
          exact hSkip.trans hLine
      · cases hRead
        exact hSkip.trans
          (shows_plainScalar (indent line) reader.skip)

/- The induction is on the bound. -/
theorem showsAt (scalars : Scalars) (fuel : ℕ) :
    ShowsAt scalars fuel := by
  induction fuel with
  | zero =>
      constructor
      · intro reader value after hRead
        cases hRead
      all_goals
        intro base result read reader after hRead
        cases hRead
  | succ fuel ih =>
      constructor
      · exact shows_parseValue_succ ih
      · intro base result entries reader after hRead
        exact shows_parseMapping_succ ih hRead
      · intro base result items reader after hRead
        exact shows_parseSequence_succ ih hRead
      · intro base result entries reader after hRead
        exact shows_parseDash_succ ih hRead

end AsyncapiDocs.Yaml

------------------------------------------------------------
-- Texts that Nothing is Dropped of
------------------------------------------------------------

namespace AsyncapiDocs.Yaml

open Python (Str Value strip)

/-
  No line is left behind the position, each line with a content
  has been noted, and what it was read as occurs in the value,
  in its order: keys, items, pairs and texts.
-/
structure DropsNothing
    (scalars : Scalars)
    (text : Str)
    (value : Value)
    (reader : Reader) : Prop where
  atEnd : reader.rest = []
  noted : Noted (splitLines text) reader.log
  shown : ShownIn scalars reader.log (marks value)

theorem fits_next_nil_iff
    {scalars : Scalars}
    {lines : List Str} :
    Layout.fits scalars ⟨.next, []⟩ lines = true ↔
      lines = [] := by
  cases lines with
  | nil => simp [Layout.fits, Layout.closes]
  | cons line lines =>
      simp [Layout.fits, Layout.step, Layout.nextLine]

/- Characters and numbers of ASCII, without signs. -/
def asciiScalars : Scalars where
  isWord := fun c => c.isAlphanum || c = '_'
  lower := fun text => text.map Char.toLower
  toInt := fun text =>
    if text.all Char.isDigit then
      some
        (text.foldl
          (fun n c => 10 * n + (c.toNat - '0'.toNat)) 0)
    else
      none
  toFloat := fun _ => none

end AsyncapiDocs.Yaml
