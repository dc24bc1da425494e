import DsxExchange.AsyncapiDocs.Escaping

/-
  The overview page: a header, and the raw specification in a
  fence of four backticks.

  The fence is longer than those of the text it holds, which
  MDX understands; the passes over the page take every fence
  of three and more backticks for its end.

  Key definitions include:
    * `AsyncapiDocs.genOverview`, `AsyncapiDocs.stored`
    * `AsyncapiDocs.shownSpec`
    * `AsyncapiDocs.RawYAML`

  Key theorems include:
    * `AsyncapiDocs.lines_stored_genOverview`
    * `AsyncapiDocs.shownSpec_eq_iff_survives`
-/

------------------------------------------------------------
-- The Page
------------------------------------------------------------

namespace AsyncapiDocs

open Python (Str)

/- What the page reads of a specification, as texts. -/
structure Spec where
  title : Option Str
  version : Option Str
  description : Option Str
  defaultContentType : Option Str

/- The items of the page before the raw specification. -/
def overviewHead
    (spec : Spec)
    (titleOverride : Option Str) : List Str :=
  let override := titleOverride.getD []
  let title :=
    if override ≠ [] then
      override
    else
      spec.title.getD "Schema".toList
  let version := spec.version.getD []
  let desc := spec.description.getD []
  let defaultCt := spec.defaultContentType.getD []
  ["# ".toList ++ title ++ " ".toList ++ version, []] ++
    (if desc ≠ [] then [Python.strip desc, []] else []) ++
      if defaultCt ≠ [] then
        ["**Default Content Type:** `".toList ++ defaultCt ++
          "`".toList, []]
      else
        []

def openingFence : Str := "````yaml".toList

def closingFence : Str := "````".toList

/- The items before the raw text, and those after it. -/
def rawIntro : List Str :=
  ["## Raw AsyncAPI Spec".toList, [],
    "<Accordion title=\"View / copy the raw AsyncAPI YAML\">"
      |>.toList,
    []]

def rawEnd : List Str :=
  [[], "</Accordion>".toList, []]

def genOverview
    (spec : Spec)
    (titleOverride rawYaml : Option Str) : Str :=
  let raw := rawYaml.getD []
  let items :=
    overviewHead spec titleOverride ++
      if raw ≠ [] then
        rawIntro ++ openingFence :: Python.strip raw ::
          closingFence :: rawEnd
      else
        []
  Python.unlines items ++ "\n".toList

/- The text that `_write` stores. -/
def stored (content : Str) : Str :=
  (collapseBlankLines (escapeMdx content)).rdropWhile
      (· = '\n') ++
    "\n".toList

/- The line starts with four backticks, after indentation. -/
def isLongFence (line : Str) : Bool :=
  closingFence.isPrefixOf (Python.lstrip line)

/-
  The raw specification that a page shows: what stands
  between the last opening fence of four backticks and the
  next line that closes it.
-/
def shownSpec (page : Str) : Str :=
  Python.unlines
    (((Python.lines page).rtakeWhile
        (fun line => line ≠ openingFence)).takeWhile
      (fun line => !isLongFence line))

end AsyncapiDocs

------------------------------------------------------------
-- Raw Texts
------------------------------------------------------------

namespace AsyncapiDocs

open Python (Str)

/- A text with something in it, and without long fences. -/
structure RawYAML where
  text : Str
  nonblank : Python.strip text ≠ []
  noLongFence :
    ∀ line ∈ Python.lines text, isLongFence line = false

theorem isLongFence_iff
    {line : Str} :
    isLongFence line = true ↔
      List.replicate 4 '`' <+: Python.lstrip line := by
  rw [isLongFence, List.isPrefixOf_iff_prefix]
  rfl

/- White space before a line does not change its fence. -/
theorem isLongFence_cons
    {c : Char}
    (hSpace : Python.isSpace c = true)
    (line : Str) :
    isLongFence (c :: line) = isLongFence line := by
  rw [isLongFence, isLongFence, Python.lstrip,
    List.dropWhile_cons_of_pos hSpace]
  rfl

/- White space behind a line takes no fence away. -/
theorem isLongFence_concat
    {line : Str}
    (c : Char)
    (hLong : isLongFence line = true) :
    isLongFence (line ++ [c]) = true := by
  rw [isLongFence_iff] at hLong ⊢
  have hSome : (line.dropWhile Python.isSpace) ≠ [] := by
    intro hNil
    rw [Python.lstrip, hNil] at hLong
    simp at hLong
  rw [Python.lstrip, List.dropWhile_append, if_neg]
  · exact hLong.trans (List.prefix_append _ _)
  · simpa using hSome

/- No line of the text has a long fence. -/
def NoLongFence (text : Str) : Prop :=
  ∀ line ∈ Python.lines text, isLongFence line = false

theorem noLongFence_of_cons
    {c : Char}
    {text : Str}
    (hSpace : Python.isSpace c = true)
    (hNone : NoLongFence (c :: text)) :
    NoLongFence text := by
  intro line hMem
  unfold NoLongFence Python.lines at hNone
  rw [List.splitOn_cons_eq_if_modifyHead] at hNone
  by_cases hChar : (c == '\n') = true
  · rw [if_pos hChar] at hNone
    exact hNone line (List.mem_cons_of_mem _ hMem)
  · rw [if_neg hChar] at hNone
    cases hLines : text.splitOn '\n' with
    | nil => exact absurd hLines (Python.lines_ne_nil text)
    | cons first rest =>
        rw [Python.lines, hLines] at hMem
        rw [hLines, List.modifyHead_cons] at hNone
        rcases List.mem_cons.mp hMem with rfl | hRest
        · rw [← isLongFence_cons hSpace]
          exact hNone _ List.mem_cons_self
        · exact hNone line (List.mem_cons_of_mem _ hRest)

theorem noLongFence_of_concat
    {c : Char}
    {text : Str}
    (hNone : NoLongFence (text ++ [c])) :
    NoLongFence text := by
  intro line hMem
  by_cases hChar : c = '\n'
  · rw [hChar] at hNone
    unfold NoLongFence at hNone
    rw [Python.lines_append] at hNone
    exact hNone line (List.mem_append_left _ hMem)
  · rcases Python.lines_concat hChar text with
      ⟨front, last, hOld, hNew⟩
    unfold NoLongFence at hNone
    rw [hNew] at hNone
    rw [hOld] at hMem
    rcases List.mem_append.mp hMem with hFront | hLast
    · exact hNone line (List.mem_append_left _ hFront)
    · have hShort :
          isLongFence (last ++ [c]) = false :=
        hNone _ (by simp)
      rw [List.mem_singleton.mp hLast]
      cases hLong : isLongFence last with
      | false => rfl
      | true =>
          rw [isLongFence_concat c hLong] at hShort
          cases hShort

/- The text without white space at its ends has none. -/
theorem noLongFence_strip
    {text : Str}
    (hNone : NoLongFence text) :
    NoLongFence (Python.strip text) := by
  have hFront : NoLongFence (Python.lstrip text) := by
    unfold Python.lstrip
    induction text with
    | nil => exact hNone
    | cons c text ih =>
        by_cases hSpace : Python.isSpace c = true
        · rw [List.dropWhile_cons_of_pos hSpace]
          exact ih (noLongFence_of_cons hSpace hNone)
        · rw [List.dropWhile_cons_of_neg hSpace]
          exact hNone
  unfold Python.strip
  generalize Python.lstrip text = front at hFront
  induction front using List.reverseRecOn with
  | nil => exact hFront
  | append_singleton front c ih =>
      by_cases hSpace : Python.isSpace c = true
      · rw [List.rdropWhile_concat_pos _ _ _ hSpace]
        exact ih (noLongFence_of_concat hFront)
      · rw [List.rdropWhile_concat_neg _ _ _ hSpace]
        exact hFront

end AsyncapiDocs

------------------------------------------------------------
-- The Stored Page
------------------------------------------------------------

namespace AsyncapiDocs

open Python (Str)

/- The lines of the page before the opening fence. -/
def linesBefore
    (spec : Spec)
    (titleOverride : Option Str) : List Str :=
  (overviewHead spec titleOverride ++ rawIntro).flatMap
    Python.lines

/- The lines of the page behind the closing fence. -/
def linesAfter : List Str :=
  [[], "</Accordion>".toList, [], []]

theorem lines_genOverview
    (spec : Spec)
    (titleOverride : Option Str)
    {raw : Str}
    (hRaw : raw ≠ []) :
    Python.lines
        (genOverview spec titleOverride (some raw)) =
      linesBefore spec titleOverride ++
        openingFence :: (Python.lines (Python.strip raw) ++
          closingFence :: linesAfter) := by
  have hItems :
      genOverview spec titleOverride (some raw) =
        Python.unlines
            ((overviewHead spec titleOverride ++ rawIntro) ++
              openingFence :: Python.strip raw ::
                closingFence :: rawEnd) ++
          '\n' :: [] := by
    unfold genOverview
    simp only [Option.getD_some, if_pos hRaw,
      List.append_assoc]
    rfl
  have hOpen : Python.lines openingFence = [openingFence] := by
    decide
  have hClose :
      Python.lines closingFence = [closingFence] := by
    decide
  have hEnd :
      rawEnd.flatMap Python.lines ++ Python.lines [] =
        linesAfter := by
    decide
  rw [hItems, Python.lines_append,
    Python.lines_unlines_flatMap (by simp),
    List.flatMap_append, List.flatMap_cons,
    List.flatMap_cons, List.flatMap_cons, hOpen, hClose,
    ← hEnd, linesBefore]
  simp only [List.append_assoc, List.cons_append,
    List.nil_append]

/- Whether the opening fence of the raw text opens a block. -/
def opensCode
    (spec : Spec)
    (titleOverride : Option Str) : Bool :=
  !leavesCode (linesBefore spec titleOverride)

/-
  The stored lines: what the passes leave of the lines before
  the raw text, of the raw text, and behind it.
-/
def storedLines
    (spec : Spec)
    (titleOverride : Option Str)
    (raw : List Str) : List Str :=
  collapseLines false
      (escapeLines false (linesBefore spec titleOverride)) ++
    openingFence ::
      (collapseLines false
          (escapeLines (opensCode spec titleOverride) raw) ++
        closingFence :: [[], "</Accordion>".toList, []])

/- Those up to the last line that is not empty. -/
def storedFront
    (spec : Spec)
    (titleOverride : Option Str)
    (raw : List Str) : List Str :=
  collapseLines false
      (escapeLines false (linesBefore spec titleOverride)) ++
    openingFence ::
      (collapseLines false
          (escapeLines (opensCode spec titleOverride) raw) ++
        [closingFence, []])

/- The passes keep the fences and treat the parts apart. -/
theorem passes_genOverview
    (spec : Spec)
    (titleOverride : Option Str)
    (raw : List Str) :
    collapseLines false
        (escapeLines false
          (linesBefore spec titleOverride ++
            openingFence :: (raw ++
              closingFence :: linesAfter))) =
      storedLines spec titleOverride raw := by
  have hOpen :
      ∀ b rest,
        escapeLines b (openingFence :: rest) =
          openingFence :: escapeLines (!b) rest := by
    intro b rest
    rw [escapeLines, if_pos (by decide)]
  have hClose :
      ∀ b rest,
        escapeLines b (closingFence :: rest) =
          closingFence :: escapeLines (!b) rest := by
    intro b rest
    rw [escapeLines, if_pos (by decide)]
  have hAfter :
      ∀ b,
        collapseLines false (escapeLines b linesAfter) =
          [[], "</Accordion>".toList, []] := by
    intro b
    cases b <;> decide
  rw [escapeLines_append, hOpen, escapeLines_append, hClose,
    collapseLines_append_cons _ _ _ (by decide),
    collapseLines_append_cons _ _ _ (by decide), hAfter]
  rw [Bool.false_xor]
  rfl

/- What escaping keeps of a line, it keeps of all lines. -/
theorem forall_mem_escapeLines
    (Has : Str → Prop)
    (hEscape : ∀ line, Has line → Has (escapeLine line))
    (inCodeBlock : Bool)
    {raw : List Str}
    (hRaw : ∀ line ∈ raw, Has line) :
    ∀ line ∈ escapeLines inCodeBlock raw, Has line := by
  induction raw generalizing inCodeBlock with
  | nil =>
      intro line hMem
      cases hMem
  | cons first rest ih =>
      rw [List.forall_mem_cons] at hRaw
      rw [escapeLines]
      split_ifs <;> rw [List.forall_mem_cons]
      · exact ⟨hRaw.1, ih _ hRaw.2⟩
      · exact ⟨hRaw.1, ih _ hRaw.2⟩
      · exact ⟨hEscape first hRaw.1, ih _ hRaw.2⟩

theorem forall_mem_collapseLines
    (Has : Str → Prop)
    (hEmpty : Has [])
    (prevBlank : Bool)
    {raw : List Str}
    (hRaw : ∀ line ∈ raw, Has line) :
    ∀ line ∈ collapseLines prevBlank raw, Has line := by
  induction raw generalizing prevBlank with
  | nil =>
      intro line hMem
      cases hMem
  | cons first rest ih =>
      rw [List.forall_mem_cons] at hRaw
      rw [collapseLines]
      split_ifs
      · exact ih _ hRaw.2
      · rw [List.forall_mem_cons]
        exact ⟨hEmpty, ih _ hRaw.2⟩
      · rw [List.forall_mem_cons]
        exact ⟨hRaw.1, ih _ hRaw.2⟩

theorem newline_not_mem_escapeLines
    (inCodeBlock : Bool)
    {raw : List Str}
    (hRaw : ∀ line ∈ raw, '\n' ∉ line) :
    ∀ line ∈ escapeLines inCodeBlock raw, '\n' ∉ line :=
  forall_mem_escapeLines (fun line => '\n' ∉ line)
    (fun _ => newline_not_mem_escapeFrom 0) inCodeBlock hRaw

theorem newline_not_mem_collapseLines
    (prevBlank : Bool)
    {raw : List Str}
    (hRaw : ∀ line ∈ raw, '\n' ∉ line) :
    ∀ line ∈ collapseLines prevBlank raw, '\n' ∉ line :=
  forall_mem_collapseLines (fun line => '\n' ∉ line)
    List.not_mem_nil prevBlank hRaw

/- The passes over the lines of a text, joined again. -/
theorem collapse_escapeMdx (content : Str) :
    collapseBlankLines (escapeMdx content) =
      Python.unlines
        (collapseLines false
          (escapeLines false (Python.lines content))) := by
  have hSome :
      escapeLines false (Python.lines content) ≠ [] := by
    rw [← List.length_pos_iff_ne_nil, length_escapeLines,
      List.length_pos_iff_ne_nil]
    exact Python.lines_ne_nil content
  have hLines :
      ∀ line ∈ Python.lines content, '\n' ∉ line :=
    fun line => Python.newline_not_mem_of_mem_lines
  rw [collapseBlankLines, escapeMdx,
    Python.lines_unlines hSome
      (newline_not_mem_escapeLines false hLines)]

/- What is stored of a page whose last line is solid. -/
theorem stored_eq_unlines
    {content : Str}
    {front : List Str}
    {line : Str}
    {c : Char}
    (hFront : front ≠ [])
    (hChar : c ≠ '\n')
    (hPasses :
      collapseLines false
          (escapeLines false (Python.lines content)) =
        front ++ [line ++ [c], []]) :
    stored content =
      Python.unlines (front ++ [line ++ [c], []]) := by
  have hSplit :
      front ++ [line ++ [c], []] =
        (front ++ [line ++ [c]]) ++ [[]] := by
    simp
  have hText :
      Python.unlines (front ++ [line ++ [c], []]) =
        (Python.unlines front ++ '\n' :: line ++ [c]) ++
          ['\n'] := by
    rw [hSplit, Python.unlines_append_singleton (by simp),
      Python.unlines_append_singleton hFront]
    simp
  rw [stored, collapse_escapeMdx, hPasses, hText,
    List.rdropWhile_concat_pos _ _ _ (by simp),
    List.rdropWhile_concat_neg _ _ _ (by simpa using hChar)]
  rfl

theorem lines_stored_genOverview
    (spec : Spec)
    (titleOverride : Option Str)
    {raw : Str}
    (hRaw : raw ≠ []) :
    Python.lines
        (stored (genOverview spec titleOverride (some raw))) =
      storedLines spec titleOverride
        (Python.lines (Python.strip raw)) := by
  have hPasses :
      collapseLines false
          (escapeLines false
            (Python.lines
              (genOverview spec titleOverride (some raw)))) =
        storedLines spec titleOverride
          (Python.lines (Python.strip raw)) := by
    rw [lines_genOverview spec titleOverride hRaw,
      passes_genOverview]
  have hEnds :
      storedLines spec titleOverride
          (Python.lines (Python.strip raw)) =
        storedFront spec titleOverride
            (Python.lines (Python.strip raw)) ++
          ["</Accordion".toList ++ ['>'], []] := by
    simp only [storedLines, storedFront, List.append_assoc,
      List.cons_append, List.nil_append]
    rfl
  have hLines :
      ∀ line ∈
          storedLines spec titleOverride
            (Python.lines (Python.strip raw)),
        '\n' ∉ line := by
    rw [← hPasses]
    apply newline_not_mem_collapseLines
    apply newline_not_mem_escapeLines
    exact fun line => Python.newline_not_mem_of_mem_lines
  have hFront :
      storedFront spec titleOverride
        (Python.lines (Python.strip raw)) ≠ [] := by
    simp [storedFront]
  have hStored :=
    stored_eq_unlines hFront (by decide)
      (hPasses.trans hEnds)
  rw [hStored, ← hEnds]
  apply Python.lines_unlines _ hLines
  rw [hEnds]
  simp

end AsyncapiDocs

------------------------------------------------------------
-- What The Page Shows
------------------------------------------------------------

namespace AsyncapiDocs

open Python (Str)

@[simp] theorem isLongFence_escapeLine (line : Str) :
    isLongFence (escapeLine line) = isLongFence line := by
  rcases lstrip_escapeFrom 0 line with ⟨next, hNext⟩
  rw [Bool.eq_iff_iff, isLongFence_iff, isLongFence_iff,
    escapeLine, hNext, ticks_prefix_escapeFrom_iff]

/- What stands behind the last of some lines. -/
theorem rtakeWhile_append_cons
    {α : Type}
    {p : α → Bool}
    (before : List α)
    {a : α}
    {after : List α}
    (hStop : p a = false)
    (hAfter : ∀ b ∈ after, p b = true) :
    (before ++ a :: after).rtakeWhile p = after := by
  have hReverse :
      (before ++ a :: after).reverse =
        after.reverse ++ a :: before.reverse := by
    simp
  rw [List.rtakeWhile, hReverse,
    List.takeWhile_append_of_pos (by simpa using hAfter),
    List.takeWhile_cons_of_neg (by simp [hStop]),
    List.append_nil, List.reverse_reverse]

/- The page shows what the passes leave of the raw text. -/
theorem shownSpec_stored
    (spec : Spec)
    (titleOverride : Option Str)
    (raw : RawYAML) :
    shownSpec
        (stored
          (genOverview spec titleOverride (some raw.text))) =
      Python.unlines
        (collapseLines false
          (escapeLines (opensCode spec titleOverride)
            (Python.lines (Python.strip raw.text)))) := by
  have hText : raw.text ≠ [] := by
    intro hNil
    apply raw.nonblank
    rw [hNil]
    rfl
  have hInner :
      ∀ line ∈
          collapseLines false
            (escapeLines (opensCode spec titleOverride)
              (Python.lines (Python.strip raw.text))),
        isLongFence line = false :=
    forall_mem_collapseLines
      (fun line => isLongFence line = false) rfl false
      (forall_mem_escapeLines
        (fun line => isLongFence line = false)
        (fun line hShort => by simpa using hShort)
        (opensCode spec titleOverride)
        (noLongFence_strip raw.noLongFence))
  have hNotOpening :
      ∀ line, isLongFence line = false →
        decide (line ≠ openingFence) = true := by
    intro line hShort
    apply decide_eq_true
    rintro rfl
    exact absurd hShort (by decide)
  have hBehind :
      ∀ line ∈
          collapseLines false
              (escapeLines (opensCode spec titleOverride)
                (Python.lines (Python.strip raw.text))) ++
            closingFence ::
              [[], "</Accordion>".toList, []],
        decide (line ≠ openingFence) = true := by
    intro line hMem
    rcases List.mem_append.mp hMem with hIn | hOut
    · exact hNotOpening line (hInner line hIn)
    · have hAll :
          ∀ line ∈
              [closingFence, [], "</Accordion>".toList, []],
            decide (line ≠ openingFence) = true := by
        decide
      exact hAll line hOut
  rw [shownSpec,
    lines_stored_genOverview spec titleOverride hText,
    storedLines,
    rtakeWhile_append_cons _ (by decide) hBehind,
    List.takeWhile_append_of_pos
      (by simpa using hInner),
    List.takeWhile_cons_of_neg (by decide), List.append_nil]

/-
  The stored page shows the raw text exactly when its lines
  survive the passes, in the block that its fence opens (or,
  behind an odd number of fences, closes).
-/
theorem shownSpec_eq_iff_survives
    (spec : Spec)
    (titleOverride : Option Str)
    (raw : RawYAML) :
    shownSpec
          (stored
            (genOverview spec titleOverride
              (some raw.text))) =
        Python.strip raw.text ↔
      Survives (opensCode spec titleOverride)
        (Python.lines (Python.strip raw.text)) := by
  rw [shownSpec_stored, ← collapse_escape_eq_self_iff]
  constructor
  · intro hText
    have hSome :
        collapseLines false
            (escapeLines (opensCode spec titleOverride)
              (Python.lines (Python.strip raw.text))) ≠
          [] := by
      intro hNil
      rw [hNil] at hText
      exact raw.nonblank hText.symm
    have hLines :
        ∀ line ∈
            collapseLines false
              (escapeLines (opensCode spec titleOverride)
                (Python.lines (Python.strip raw.text))),
          '\n' ∉ line := by
      apply newline_not_mem_collapseLines
      apply newline_not_mem_escapeLines
      exact fun line => Python.newline_not_mem_of_mem_lines
    rw [← Python.lines_unlines hSome hLines, hText]
  · intro hSame
    rw [hSame, Python.unlines_lines]

/- A specification without a header. -/
def bareSpec : Spec :=
  ⟨none, none, none, none⟩

/- A text with a code block of its own. -/
def fencedYAML : RawYAML where
  text := "a: |\n  ```\n  {b}\n  ```\n".toList
  nonblank := by decide +kernel
  noLongFence := by decide +kernel

/- The braces in the block are shown with backslashes. -/
theorem shownSpec_ne_fencedYAML :
    shownSpec
        (stored
          (genOverview bareSpec none
            (some fencedYAML.text))) ≠
      Python.strip fencedYAML.text := by
  decide +kernel

end AsyncapiDocs
