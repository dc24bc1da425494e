import DsxExchange.AsyncapiDocs.YamlOneLine

/-
  What a value has, and when that shows what the parts of a
  text were read as.

  Key definitions include:
    * `AsyncapiDocs.Yaml.Mark`, `AsyncapiDocs.Yaml.marks`
    * `AsyncapiDocs.Yaml.Scalars.Tells`
    * `AsyncapiDocs.Yaml.Use.ShownBy`, `AsyncapiDocs.Yaml.ShownIn`
    * `AsyncapiDocs.Yaml.Use.IsOf`, `AsyncapiDocs.Yaml.Noted`

  Key theorems include:
    * `AsyncapiDocs.Yaml.tells_scalar`
    * `AsyncapiDocs.Yaml.shownIn_lineUses`
    * `AsyncapiDocs.Yaml.infix_blockText`
-/

------------------------------------------------------------
-- What the Result Has
------------------------------------------------------------

namespace AsyncapiDocs.Yaml

open Python (Str Value strip)

/- A part of a value. -/
inductive Mark where
  | key (name : Str)
  | item
  | mapping
  | sequence
  | scalar (value : Value)

mutual

/- The parts of a value, in their order. -/
def marks : Value → List Mark
| .dict entries => .mapping :: marksOfEntries entries
| .list items => .sequence :: marksOfItems items
| value => [.scalar value]

def marksOfEntries : List (Str × Value) → List Mark
| [] => []
| (key, value) :: rest =>
    .key key :: (marks value ++ marksOfEntries rest)

def marksOfItems : List Value → List Mark
| [] => []
| value :: rest => .item :: (marks value ++ marksOfItems rest)

end

theorem marksOfEntries_append_singleton
    (entries : List (Str × Value))
    (key : Str)
    (value : Value) :
    marksOfEntries (entries ++ [(key, value)]) =
      marksOfEntries entries ++ .key key :: marks value := by
  induction entries with
  | nil => simp [marksOfEntries]
  | cons entry rest ih => simp [marksOfEntries, ih]

theorem marksOfItems_append_singleton
    (items : List Value)
    (value : Value) :
    marksOfItems (items ++ [value]) =
      marksOfItems items ++ .item :: marks value := by
  induction items with
  | nil => simp [marksOfItems]
  | cons item rest ih => simp [marksOfItems, ih]

end AsyncapiDocs.Yaml

------------------------------------------------------------
-- What Is Shown
------------------------------------------------------------

namespace AsyncapiDocs.Yaml

open Python (Str Value strip)

variable {scalars : Scalars}

/-
  A scalar has all of a text: the text without the quotes it
  stands in, or what the text is a name or a number of.
-/
def Scalars.Tells (scalars : Scalars) : Value → Str → Prop
| .none, text =>
    text = [] ∨ scalars.lower text = "null".toList ∨
      scalars.lower text = "~".toList
| .bool true, text => scalars.lower text = "true".toList
| .bool false, text => scalars.lower text = "false".toList
| .int n, text => scalars.toInt text = some n
| .float float, text => scalars.toFloat text = some float
| .str s, text => s = unquoted text
| .list _, _ => False
| .dict _, _ => False

/-
  What was read of a text is there: a comment does not count,
  and of a block scalar each line does without the space
  around it. What is lost is nowhere.
-/
def Use.ShownBy (scalars : Scalars) : Use → Mark → Prop
| .key name, .key name' => name = name'
| .item, .item => True
| .mapping, .mapping => True
| .sequence, .sequence => True
| .text written, .scalar value =>
    scalars.Tells value (stripComment written)
| .plain lines, .scalar value =>
    scalars.Tells value
      (stripComment ([' '].intercalate (lines.map strip)))
| .block lines, .scalar (.str s) =>
    ∀ line ∈ lines, strip line <:+: s
| _, _ => False

/- All that was read is there, in its order. -/
def ShownIn
    (scalars : Scalars)
    (uses : List Use)
    (shown : List Mark) : Prop :=
  ∃ read,
    List.Forall₂ (Use.ShownBy scalars) uses read ∧
      read.Sublist shown

theorem shownIn_nil (shown : List Mark) :
    ShownIn scalars [] shown :=
  ⟨[], .nil, List.nil_sublist shown⟩

theorem shownIn_of_forall₂
    {uses : List Use}
    {shown : List Mark}
    (hShown : List.Forall₂ (Use.ShownBy scalars) uses shown) :
    ShownIn scalars uses shown :=
  ⟨shown, hShown, List.Sublist.refl shown⟩

theorem shownIn_singleton
    {use : Use}
    {mark : Mark}
    (hShown : use.ShownBy scalars mark) :
    ShownIn scalars [use] [mark] :=
  shownIn_of_forall₂ (.cons hShown .nil)

theorem ShownIn.append
    {uses more : List Use}
    {shown others : List Mark}
    (hUses : ShownIn scalars uses shown)
    (hMore : ShownIn scalars more others) :
    ShownIn scalars (uses ++ more) (shown ++ others) := by
  rcases hUses with ⟨read, hRead, hShown⟩
  rcases hMore with ⟨readMore, hReadMore, hOthers⟩
  exact ⟨read ++ readMore, List.rel_append hRead hReadMore,
    hShown.append hOthers⟩

theorem ShownIn.cons
    {use : Use}
    {mark : Mark}
    {uses : List Use}
    {shown : List Mark}
    (hUse : use.ShownBy scalars mark)
    (hUses : ShownIn scalars uses shown) :
    ShownIn scalars (use :: uses) (mark :: shown) :=
  (shownIn_singleton hUse).append hUses

theorem ShownIn.mono
    {uses : List Use}
    {shown all : List Mark}
    (hUses : ShownIn scalars uses shown)
    (hAll : shown.Sublist all) :
    ShownIn scalars uses all := by
  rcases hUses with ⟨read, hRead, hShown⟩
  exact ⟨read, hRead, hShown.trans hAll⟩

/- What is lost is not shown. -/
theorem ShownIn.losesNothing
    {uses : List Use}
    {shown : List Mark}
    (hUses : ShownIn scalars uses shown) :
    LosesNothing uses := by
  rcases hUses with ⟨read, hRead, _⟩
  intro text hMem
  rcases List.forall₂_iff_get.mp hRead with ⟨hLength, hGet⟩
  rcases List.mem_iff_get.mp hMem with ⟨i, hUse⟩
  have hShown := hGet i i.isLt (hLength ▸ i.isLt)
  rw [hUse] at hShown
  exact hShown

end AsyncapiDocs.Yaml

------------------------------------------------------------
-- Values on One Line
------------------------------------------------------------

namespace AsyncapiDocs.Yaml

open Python (Str Value strip)

variable {scalars : Scalars}

theorem two_le_length_of_isWithin
    {quote : Char}
    {text : Str}
    (hWithin : isWithin quote text = true)
    (hSome : text ≠ [quote]) :
    2 ≤ text.length := by
  match text, hWithin, hSome with
  | [], hWithin, _ => simp [isWithin, startsWith] at hWithin
  | [c], hWithin, hSome =>
      simp [isWithin, startsWith] at hWithin
      exact absurd (congrArg (fun c => [c]) hWithin) hSome
  | _ :: _ :: _, _, _ => simp

theorem unquoted_of_isWithin
    {text : Str}
    (hWithin :
      isWithin '\'' text = true ∨ isWithin '"' text = true)
    (hLone : isLoneQuote text = false) :
    unquoted text = inner text := by
  simp only [isLoneQuote, Bool.or_eq_false_iff,
    decide_eq_false_iff_not] at hLone
  have hLength : 2 ≤ text.length := by
    rcases hWithin with hSingle | hDouble
    · exact two_le_length_of_isWithin hSingle hLone.1
    · exact two_le_length_of_isWithin hDouble hLone.2
  exact if_pos ⟨hLength, hWithin⟩

/- A scalar has all of its text, unless that is one quote. -/
theorem tells_scalar
    {text : Str}
    (hKeeps : keepsText text = true) :
    scalars.Tells (scalars.scalar text) (stripComment text) := by
  have hLone : isLoneQuote (stripComment text) = false := by
    simpa [keepsText] using hKeeps
  unfold Scalars.scalar
  dsimp only
  split
  · next hEmpty => exact Or.inl hEmpty
  split
  · next hWithin =>
      rw [Bool.or_eq_true] at hWithin
      exact (unquoted_of_isWithin hWithin hLone).symm
  next hPlain =>
  split
  · next hNull => exact Or.inr hNull
  split
  · next hTrue => exact hTrue
  split
  · next hFalse => exact hFalse
  have hText : stripComment text = unquoted (stripComment text) := by
    rw [Bool.or_eq_true] at hPlain
    exact (if_neg fun hBoth => hPlain hBoth.2).symm
  unfold Scalars.number
  split
  · split
    · next hFloat => exact hFloat
    · exact hText
  · split
    · next hInt => exact hInt
    · exact hText

theorem marks_scalar (text : Str) :
    marks (scalars.scalar text) =
      [.scalar (scalars.scalar text)] := by
  unfold Scalars.scalar Scalars.number
  dsimp only
  repeat' split
  all_goals rfl

theorem forall₂_textUse
    {text : Str}
    (hKeeps : keepsText text = true) :
    List.Forall₂ (Use.ShownBy scalars) [textUse text]
      (marks (scalars.scalar text)) := by
  have hText : textUse text = .text text := by
    rw [textUse, if_neg]
    simpa [keepsText] using hKeeps
  rw [hText, marks_scalar]
  exact .cons (tells_scalar hKeeps) .nil

theorem shownIn_textUse
    {text : Str}
    (hClean : LosesNothing [textUse text]) :
    ShownIn scalars [textUse text]
      (marks (scalars.scalar text)) :=
  shownIn_of_forall₂
    (forall₂_textUse (losesNothing_textUse.mp hClean))

/- The items of a sequence, one by one. -/
theorem shownIn_items
    {items : List Str}
    (hKeeps :
      ∀ item ∈ items, keepsText (strip item) = true) :
    ShownIn scalars
      (items.flatMap fun item => [.item, textUse (strip item)])
      (marksOfItems
        (items.map fun item => scalars.scalar (strip item))) := by
  induction items with
  | nil => exact shownIn_nil _
  | cons item items ih =>
      rw [List.forall_mem_cons] at hKeeps
      rw [List.flatMap_cons, List.map_cons, marksOfItems,
        List.cons_append]
      refine ShownIn.cons ?_ ?_
      · trivial
      · exact
          (shownIn_of_forall₂ (forall₂_textUse hKeeps.1)).append
            (ih hKeeps.2)

theorem shownIn_seqUses
    {text : Str}
    (hClean : LosesNothing (seqUses text)) :
    ShownIn scalars (seqUses text)
      (marks (scalars.inlineFlowSeq text)) := by
  rw [losesNothing_seqUses, keepsSeq] at hClean
  unfold seqUses Scalars.inlineFlowSeq
  dsimp only at hClean ⊢
  split at hClean
  · next hClosed =>
      rw [if_pos hClosed, if_pos hClosed]
      rw [List.all_eq_true] at hClean
      split
      · next hEmpty =>
          rw [hEmpty]
          exact shownIn_singleton trivial
      · rw [marks]
        exact ShownIn.cons trivial (shownIn_items hClean)
  · next hOpen =>
      rw [if_neg hOpen, if_neg hOpen, marks, marksOfItems,
        marksOfItems, List.append_nil]
      refine ShownIn.cons ?_ (ShownIn.cons ?_ ?_)
      · trivial
      · trivial
      · exact shownIn_of_forall₂ (forall₂_textUse hClean)

/- The pairs of a mapping, behind those it had before. -/
theorem shownIn_pairsUses
    (result : List (Str × Value))
    {pairs : List Str}
    (hClean : LosesNothing (scalars.pairsUses result pairs)) :
    ∃ shown,
      ShownIn scalars (scalars.pairsUses result pairs) shown ∧
        marksOfEntries (pairs.foldl scalars.flowPair result) =
          marksOfEntries result ++ shown := by
  induction pairs generalizing result with
  | nil =>
      exact ⟨[], shownIn_nil [], (List.append_nil _).symm⟩
  | cons pair pairs ih =>
      rw [Scalars.pairsUses, losesNothing_append] at hClean
      rcases ih (scalars.flowPair result pair) hClean.2 with
        ⟨shown, hShown, hMarks⟩
      have hPair := hClean.1
      rw [Scalars.pairsUses, List.foldl_cons, hMarks]
      by_cases hColon : ':' ∈ pair
      · rw [pairUses, if_pos hColon, losesNothing_cons,
          losesNothing_keyUse] at hPair
        rw [pairUses, if_pos hColon, flowPair_of_mem hColon,
          keyUse_of_new hPair.1,
          Python.setEntry_of_not_mem hPair.1.1,
          marksOfEntries_append_singleton]
        refine
          ⟨.key (stripQuotes (pairKey pair)) ::
              (marks (scalars.scalar (pairValue pair)) ++ shown),
            ?_, by simp⟩
        rw [flowPair_of_mem hColon,
          Python.setEntry_of_not_mem hPair.1.1] at hShown
        refine ShownIn.cons ?_ ?_
        · rfl
        · exact (shownIn_textUse hPair.2).append hShown
      · rw [flowPair_of_not_mem hColon] at hShown ⊢
        refine ⟨shown, ?_, rfl⟩
        rw [pairUses, if_neg hColon] at hPair ⊢
        split
        · exact hShown
        · next hText =>
            rw [if_neg hText] at hPair
            exact absurd List.mem_cons_self (hPair pair)

theorem shownIn_mapUses
    {text : Str}
    (hClean : LosesNothing (scalars.mapUses text)) :
    ShownIn scalars (scalars.mapUses text)
      (marks (scalars.inlineFlowMap text)) := by
  unfold Scalars.mapUses at hClean ⊢
  unfold Scalars.inlineFlowMap
  dsimp only at hClean ⊢
  split at hClean
  · next hClosed =>
      rw [if_pos hClosed, if_pos hClosed]
      rw [losesNothing_cons] at hClean
      split
      · next hEmpty =>
          rw [hEmpty]
          exact shownIn_singleton trivial
      · rcases shownIn_pairsUses [] hClean.2 with
          ⟨shown, hShown, hMarks⟩
        rw [marks, hMarks, marksOfEntries, List.nil_append]
        exact ShownIn.cons trivial hShown
  · next hOpen =>
      rw [if_neg hOpen, if_neg hOpen]
      split at hClean
      · next hEmpty =>
          rw [if_pos hEmpty]
          exact shownIn_singleton trivial
      · exact absurd (by simp) (hClean (strip text))

theorem shownIn_lineUses
    {text : Str}
    (hClean : LosesNothing (scalars.lineUses text)) :
    ShownIn scalars (scalars.lineUses text)
      (marks (dashScalar scalars text)) := by
  unfold Scalars.lineUses at hClean ⊢
  unfold dashScalar
  split at hClean
  · next hSeq =>
      rw [if_pos hSeq, if_pos hSeq]
      exact shownIn_seqUses hClean
  · next hSeq =>
      rw [if_neg hSeq, if_neg hSeq]
      split at hClean
      · next hMap =>
          rw [if_pos hMap, if_pos hMap]
          exact shownIn_mapUses hClean
      · next hMap =>
          rw [if_neg hMap, if_neg hMap]
          exact shownIn_textUse hClean

end AsyncapiDocs.Yaml

------------------------------------------------------------
-- Texts of Several Lines
------------------------------------------------------------

namespace AsyncapiDocs.Yaml

open Python (Str Value isSpace strip lstrip)

variable {scalars : Scalars}

/- Cutting off space in front leaves the rest of a line. -/
theorem strip_infix_drop
    {raw : Str}
    {least : ℕ}
    (hLeast : least ≤ indent raw) :
    strip raw <:+: raw.drop least := by
  have hParts :
      raw.takeWhile isSpace ++ lstrip raw = raw :=
    List.takeWhile_append_dropWhile
  have hLength := congrArg List.length hParts
  rw [List.length_append] at hLength
  have hShort : least ≤ (raw.takeWhile isSpace).length := by
    unfold indent at hLeast
    omega
  have hDrop :
      raw.drop least =
        (raw.takeWhile isSpace).drop least ++ lstrip raw := by
    conv_lhs => rw [← hParts]
    exact List.drop_append_of_le_length hShort
  have hStrip : strip raw <:+: lstrip raw :=
    (List.rdropWhile_prefix _ _).isInfix
  rw [hDrop]
  exact List.infix_append_of_infix_right hStrip

/- The lines that a block scalar is on, each in what is read. -/
theorem blockLines_taken
    (base : ℕ)
    (blockIndent : Option ℕ)
    (lines : List Str) :
    ∃ taken,
      lines = taken ++ (blockLines base blockIndent lines).2 ∧
        List.Forall₂ (fun raw line => strip raw <:+: line)
          taken (blockLines base blockIndent lines).1 := by
  induction lines generalizing blockIndent with
  | nil => exact ⟨[], rfl, .nil⟩
  | cons raw rest ih =>
      rw [blockLines]
      split
      · next hEmpty =>
          rcases ih blockIndent with ⟨taken, hLines, hTaken⟩
          refine ⟨raw :: taken, ?_, .cons ?_ hTaken⟩
          · rw [List.cons_append, ← hLines]
          · rw [hEmpty]
      · dsimp only
        split
        · exact ⟨[], rfl, .nil⟩
        · next hDeep =>
            rcases ih (some (blockIndent.getD (indent raw))) with
              ⟨taken, hLines, hTaken⟩
            refine ⟨raw :: taken, ?_, .cons ?_ hTaken⟩
            · rw [List.cons_append, ← hLines]
            · exact strip_infix_drop (by omega)

/- A line of a paragraph is in the line that it becomes. -/
theorem infix_paragraph
    {current : List Str}
    {line : Str}
    (hMem : line ∈ current) :
    ∃ paragraph ∈
        if current ≠ [] then [[' '].intercalate current] else [],
      line <:+: paragraph := by
  rw [if_pos (List.ne_nil_of_mem hMem)]
  exact ⟨_, List.mem_singleton_self _,
    Python.infix_intercalate [' '] hMem⟩

/- Each line of paragraphs that are folded is in one of them. -/
theorem infix_foldParagraphs
    {current lines : List Str}
    {line : Str}
    (hMem : line ∈ current ∨ line ∈ lines)
    (hSome : line ≠ []) :
    ∃ paragraph ∈ foldParagraphs current lines,
      line <:+: paragraph := by
  induction lines generalizing current with
  | nil =>
      exact infix_paragraph
        (hMem.resolve_right List.not_mem_nil)
  | cons next lines ih =>
      rw [foldParagraphs]
      rw [List.mem_cons] at hMem
      split
      · next hEmpty =>
          rcases hMem with hIn | rfl | hIn
          · rcases infix_paragraph hIn with
              ⟨paragraph, hParagraph, hInfix⟩
            exact ⟨paragraph,
              List.mem_append_left _ hParagraph, hInfix⟩
          · exact absurd hEmpty hSome
          · rcases ih (Or.inr hIn) with
              ⟨paragraph, hParagraph, hInfix⟩
            exact ⟨paragraph,
              List.mem_append_right _
                (List.mem_cons_of_mem _ hParagraph), hInfix⟩
      · apply ih
        rw [List.mem_append, List.mem_singleton, or_assoc]
        exact hMem

theorem mem_rdropWhile_of_ne_nil
    {lines : List Str}
    {line : Str}
    (hMem : line ∈ lines)
    (hSome : line ≠ []) :
    line ∈ lines.rdropWhile (· = []) := by
  rw [← List.rdropWhile_append_rtakeWhile
      (p := fun line => decide (line = [])) (l := lines),
    List.mem_append] at hMem
  refine hMem.resolve_right fun hBlank => ?_
  exact hSome (by simpa using List.mem_rtakeWhile_imp hBlank)

/- The text of a block scalar has each of its lines. -/
theorem infix_blockText
    (indicator : Str)
    {lines : List Str}
    {line : Str}
    (hMem : line ∈ lines) :
    line <:+: blockText indicator lines := by
  by_cases hSome : line = []
  · rw [hSome]
    exact List.nil_infix
  have hKept :
      line ∈
        if indicator.getLast? = some '+' then lines
        else lines.rdropWhile (· = []) := by
    split
    · exact hMem
    · exact mem_rdropWhile_of_ne_nil hMem hSome
  unfold blockText
  dsimp only
  generalize
    (if indicator.getLast? = some '+' then lines
      else lines.rdropWhile (· = [])) = kept at hKept ⊢
  have hShown :
      ∃ shown ∈
          if startsWith '>' indicator = true then
            foldParagraphs [] kept
          else
            kept,
        line <:+: shown := by
    split
    · exact infix_foldParagraphs (Or.inr hKept) hSome
    · exact ⟨line, hKept, List.infix_rfl⟩
  rcases hShown with ⟨shown, hIn, hInfix⟩
  rw [if_neg (List.ne_nil_of_mem hIn)]
  exact List.infix_append_of_infix_left
    (hInfix.trans (Python.infix_unlines hIn))

end AsyncapiDocs.Yaml

------------------------------------------------------------
-- Parts of a Line
------------------------------------------------------------

namespace AsyncapiDocs.Yaml

open Python (Str Value strip lstrip)

variable {scalars : Scalars}

/- What was read is a part of the line, or all of it. -/
def Use.IsOf (line : Str) : Use → Prop
| .key name => name <:+: line
| .item => '-' ∈ line
| .mapping => '\x7b' ∈ line
| .sequence => '[' ∈ line
| .text written => written <:+: line
| .plain lines => line ∈ lines
| .block lines => line ∈ lines
| .lost written => written <:+: line

/- Each line with a content has a part that was read. -/
def Noted (lines : List Str) (uses : List Use) : Prop :=
  ∀ line ∈ lines, isBlank line = false →
    ∃ use ∈ uses, use.IsOf line

theorem noted_nil (uses : List Use) : Noted [] uses := by
  intro line hMem
  cases hMem

theorem Noted.append
    {lines others : List Str}
    {uses more : List Use}
    (hLines : Noted lines uses)
    (hOthers : Noted others more) :
    Noted (lines ++ others) (uses ++ more) := by
  intro line hMem hContent
  rcases List.mem_append.mp hMem with hIn | hIn
  · rcases hLines line hIn hContent with ⟨use, hUse, hOf⟩
    exact ⟨use, List.mem_append_left _ hUse, hOf⟩
  · rcases hOthers line hIn hContent with ⟨use, hUse, hOf⟩
    exact ⟨use, List.mem_append_right _ hUse, hOf⟩

theorem noted_singleton
    {line : Str}
    {use : Use}
    (hOf : use.IsOf line) :
    Noted [line] [use] := by
  intro other hMem _
  rw [List.mem_singleton.mp hMem]
  exact ⟨use, List.mem_singleton_self use, hOf⟩

/- Lines that are all of one use. -/
theorem noted_of_forall
    {lines : List Str}
    {use : Use}
    (hOf : ∀ line ∈ lines, use.IsOf line) :
    Noted lines [use] :=
  fun line hMem _ =>
    ⟨use, List.mem_singleton_self use, hOf line hMem⟩

theorem isInfix_strip (text : Str) : strip text <:+: text :=
  (List.rdropWhile_prefix _ _).isInfix.trans
    (List.dropWhile_suffix _).isInfix

/- A character that the line starts with, behind the space. -/
theorem mem_of_startsWith_strip
    {c : Char}
    {line : Str}
    (hStart : startsWith c (strip line) = true) :
    c ∈ line := by
  apply (isInfix_strip line).subset
  exact List.mem_of_mem_head? (by simpa [startsWith] using hStart)

theorem isInfix_unquoted (text : Str) : unquoted text <:+: text := by
  unfold unquoted inner
  split
  · exact (List.dropLast_prefix _).isInfix.trans
      (List.drop_suffix 1 text).isInfix
  · exact List.infix_rfl

theorem quotedToken_prefix
    {quote : Char}
    {text token rest : Str}
    (hToken : quotedToken quote text = some (token, rest)) :
    token <+: text := by
  unfold quotedToken at hToken
  dsimp only at hToken
  split at hToken
  · next hStart =>
      split at hToken
      · next hMem =>
          cases hToken
          match text, hStart, hMem with
          | c :: text, hStart, hMem =>
              have hQuote : c = quote := by
                simpa [startsWith] using hStart
              rw [hQuote, List.cons_append]
              apply List.cons_prefix_cons.mpr
              refine ⟨rfl, ?_⟩
              rw [List.drop_one, List.tail_cons] at hMem ⊢
              have hRest :=
                List.takeWhile_append_dropWhile
                  (p := (· ≠ quote)) (l := text)
              cases hBehind : text.dropWhile (· ≠ quote) with
              | nil =>
                  rw [List.dropWhile_eq_nil_iff] at hBehind
                  simpa using hBehind quote hMem
              | cons d behind =>
                  have hHead :=
                    List.head?_dropWhile_not (· ≠ quote) text
                  rw [hBehind] at hHead
                  have hSame : d = quote := by
                    simpa using hHead
                  rw [hBehind, hSame] at hRest
                  exact ⟨behind, by simpa using hRest⟩
      · cases hToken
  · cases hToken

theorem isPrefix_keyToken
    {text token rest : Str}
    (hToken : scalars.keyToken text = some (token, rest)) :
    token <+: text := by
  unfold Scalars.keyToken at hToken
  dsimp only at hToken
  split at hToken
  · cases hToken
    exact List.takeWhile_prefix _
  · cases hDouble : quotedToken '"' text with
    | none =>
        rw [hDouble] at hToken
        exact quotedToken_prefix hToken
    | some found =>
        rw [hDouble] at hToken
        cases hToken
        exact quotedToken_prefix hDouble

theorem keyName_infix (line : Str) :
    scalars.keyName line <:+: line := by
  unfold Scalars.keyName
  split
  · next token rest hToken =>
      exact (isInfix_unquoted token).trans
        ((isPrefix_keyToken hToken).isInfix.trans
          (List.dropWhile_suffix _).isInfix)
  · exact List.nil_infix

theorem isOf_keyUse
    (line key : Str)
    (result : List (Str × Value)) :
    (keyUse (scalars.keyName line) key result).IsOf line := by
  unfold keyUse
  split
  · exact keyName_infix line
  · next hKept =>
      rw [not_or, not_not] at hKept
      rw [← hKept.2]
      exact keyName_infix line

/- A line that is a mapping or a sequence is noted as one. -/
theorem noted_lineUses
    {line : Str}
    (hFlow :
      startsWith '\x7b' (strip line) = true ∨
        startsWith '[' (strip line) = true) :
    Noted [line] (scalars.lineUses (strip line)) := by
  intro other hMem _
  rw [List.mem_singleton.mp hMem]
  unfold Scalars.lineUses
  split
  · next hSeq =>
      refine ⟨.sequence, ?_, mem_of_startsWith_strip hSeq⟩
      unfold seqUses
      dsimp only
      split <;> exact List.mem_cons_self
  · next hSeq =>
      have hMap := hFlow.resolve_right hSeq
      rw [if_pos hMap]
      refine ⟨.mapping, ?_, mem_of_startsWith_strip hMap⟩
      unfold Scalars.mapUses
      dsimp only
      split
      · exact List.mem_cons_self
      · split <;> exact List.mem_cons_self

end AsyncapiDocs.Yaml
