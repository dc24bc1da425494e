import DsxExchange.Python.Text
import Mathlib.Data.List.Chain

/-
  The passes over a page of the reference: escaping what MDX
  would read as markup outside code, and collapsing rows of
  blank lines.

  Key definitions include:
    * `AsyncapiDocs.escapeLine`, `AsyncapiDocs.Unescaped`
    * `AsyncapiDocs.escapeMdx`
    * `AsyncapiDocs.collapseBlankLines`

  Key theorems include:
    * `AsyncapiDocs.escapeLine_eq_self_iff`
    * `AsyncapiDocs.ticks_prefix_escapeFrom_iff`
    * `AsyncapiDocs.collapse_escape_eq_self_iff`
-/

------------------------------------------------------------
-- Lines
------------------------------------------------------------

namespace AsyncapiDocs

open Python (Str)

/- The names of tags that are left as they are. -/
def knownTags : List Str :=
  ["Accordion", "/Accordion", "details", "/details",
    "summary", "/summary", "iframe", "Note", "Warning",
    "Tip", "/Note", "/Warning", "/Tip"].map String.toList

/- The pattern `[\s>]` at the start of a text. -/
def endsName : Str → Bool
| [] => false
| c :: _ => Python.isSpace c || c = '>'

/- The pattern `\s*/?[\s>]`, tried with every length. -/
def endsBreak : Str → Bool
| [] => false
| c :: rest =>
    Python.isSpace c || c = '>' ||
      (Python.isSpace c && endsBreak rest) ||
        (c = '/' && endsName rest)

/- A known tag stands behind the angle bracket. -/
def isKnownTag (rest : Str) : Bool :=
  knownTags.any
      (fun tag =>
        tag.isPrefixOf rest &&
          endsName (rest.drop tag.length)) ||
    ("br".toList.isPrefixOf rest && endsBreak (rest.drop 2))

/- The pattern `[a-zA-Z]` at the start of a text. -/
def startsWithLetter : Str → Bool
| [] => false
| c :: _ => c.isAlpha

/- The angle bracket before the text is escaped. -/
def isBareTag (rest : Str) : Bool :=
  !isKnownTag rest && startsWithLetter rest && '>' ∈ rest

/-
  The loop of `_escape_line`. The counter is the number of
  characters that the last backtick span still covers.
-/
def escapeFrom : Nat → Str → Str
| _, [] => []
| skip + 1, c :: rest => c :: escapeFrom skip rest
| 0, c :: rest =>
    if c = '`' then
      if '`' ∈ rest then
        c :: escapeFrom (rest.idxOf '`' + 1) rest
      else
        c :: rest
    else if c = '\x7b' then
      '\\' :: c :: escapeFrom 0 rest
    else if c = '\x7d' then
      '\\' :: c :: escapeFrom 0 rest
    else if c = '<' ∧ isBareTag rest then
      '&' :: 'l' :: 't' :: ';' :: escapeFrom 0 rest
    else
      c :: escapeFrom 0 rest

/- `_escape_line`. -/
def escapeLine (line : Str) : Str :=
  escapeFrom 0 line

/- A line of a text that the escaping leaves as it is. -/
inductive Unescaped : Str → Prop where
  | nil : Unescaped []
  | open_span {rest : Str}
      (hOpen : '`' ∉ rest) :
      Unescaped ('`' :: rest)
  | span {code rest : Str}
      (hCode : '`' ∉ code)
      (hRest : Unescaped rest) :
      Unescaped ('`' :: (code ++ '`' :: rest))
  | plain {c : Char} {rest : Str}
      (hTick : c ≠ '`')
      (hOpen : c ≠ '\x7b')
      (hClose : c ≠ '\x7d')
      (hTag : ¬ (c = '<' ∧ isBareTag rest = true))
      (hRest : Unescaped rest) :
      Unescaped (c :: rest)

/- What a span still covers is copied. -/
theorem escapeFrom_append
    (code rest : Str) :
    escapeFrom code.length (code ++ rest) =
      code ++ escapeFrom 0 rest := by
  induction code with
  | nil => rfl
  | cons c code ih =>
      rw [List.length_cons, List.cons_append, escapeFrom, ih]
      rfl

/- A closed span is copied, and the loop goes on after it. -/
theorem escapeFrom_span
    {code : Str}
    (rest : Str)
    (hCode : '`' ∉ code) :
    escapeFrom 0 ('`' :: (code ++ '`' :: rest)) =
      '`' :: (code ++ '`' :: escapeFrom 0 rest) := by
  have hIndex :
      (code ++ '`' :: rest).idxOf '`' = code.length := by
    rw [List.idxOf_append_of_notMem hCode,
      List.idxOf_cons_self, Nat.add_zero]
  have hCopy := escapeFrom_append (code ++ ['`']) rest
  rw [List.length_append, List.length_singleton,
    List.append_assoc, List.singleton_append,
    List.append_assoc, List.singleton_append] at hCopy
  rw [escapeFrom, if_pos rfl, if_pos (by simp), hIndex,
    hCopy]

theorem escapeFrom_of_unescaped
    {line : Str}
    (hPlain : Unescaped line) :
    escapeFrom 0 line = line := by
  induction hPlain with
  | nil => rfl
  | open_span hOpen =>
      rw [escapeFrom, if_pos rfl, if_neg hOpen]
  | span hCode _ ih => rw [escapeFrom_span _ hCode, ih]
  | plain hTick hOpen hClose hTag _ ih =>
      rw [escapeFrom, if_neg hTick, if_neg hOpen,
        if_neg hClose, if_neg hTag, ih]

theorem unescaped_of_escapeFrom
    {line : Str}
    (hSame : escapeFrom 0 line = line) :
    Unescaped line := by
  induction hLength : line.length using Nat.strongRecOn
      generalizing line with
  | _ length ih =>
      cases line with
      | nil => exact .nil
      | cons c rest =>
          rw [List.length_cons] at hLength
          by_cases hTick : c = '`'
          · subst hTick
            by_cases hClosed : '`' ∈ rest
            · rcases List.eq_append_cons_of_mem hClosed with
                ⟨code, after, rfl, hCode⟩
              have hShorter : after.length < length := by
                simp only [List.length_append,
                  List.length_cons] at hLength
                omega
              rw [escapeFrom_span after hCode,
                List.cons_inj_right, List.append_cancel_left_eq,
                List.cons_inj_right] at hSame
              exact .span hCode (ih _ hShorter hSame rfl)
            · exact .open_span hClosed
          · rw [escapeFrom, if_neg hTick] at hSame
            have hEscaped :
                ∀ d s, d ≠ c → d :: s ≠ c :: rest := by
              intro d s hOther hEq
              exact hOther (List.cons.inj hEq).1
            split_ifs at hSame with hOpen hClose hTag
            · exact absurd hSame
                (hEscaped _ _ (by rw [hOpen]; decide))
            · exact absurd hSame
                (hEscaped _ _ (by rw [hClose]; decide))
            · exact absurd hSame
                (hEscaped _ _ (by rw [hTag.1]; decide))
            · rw [List.cons_inj_right] at hSame
              have hShorter : rest.length < length := by
                omega
              exact .plain hTick hOpen hClose hTag
                (ih _ hShorter hSame rfl)

/- A line is kept exactly when nothing in it is escaped. -/
theorem escapeLine_eq_self_iff
    {line : Str} :
    escapeLine line = line ↔ Unescaped line :=
  ⟨unescaped_of_escapeFrom, escapeFrom_of_unescaped⟩

example :
    escapeLine "`{a}` {b} <c> <br/>".toList =
      "`{a}` \\\x7bb\\\x7d &lt;c> <br/>".toList := by
  decide

end AsyncapiDocs

------------------------------------------------------------
-- What The Escaping Keeps
------------------------------------------------------------

namespace AsyncapiDocs

open Python (Str)

/- The end of a line is copied by a long enough span. -/
theorem escapeFrom_length (line : Str) :
    escapeFrom line.length line = line := by
  have hCopy := escapeFrom_append line []
  rwa [List.append_nil, escapeFrom, List.append_nil] at hCopy

/- White space and backticks are copied. -/
theorem escapeFrom_cons_copied
    {c : Char}
    (hCopied : Python.isSpace c = true ∨ c = '`')
    (skip : Nat)
    (rest : Str) :
    ∃ next,
      escapeFrom skip (c :: rest) =
        c :: escapeFrom next rest := by
  cases skip with
  | succ skip => exact ⟨skip, rfl⟩
  | zero =>
      by_cases hTick : c = '`'
      · by_cases hClosed : '`' ∈ rest
        · exact ⟨rest.idxOf '`' + 1, by
            rw [escapeFrom, if_pos hTick, if_pos hClosed]⟩
        · exact ⟨rest.length, by
            rw [escapeFrom, if_pos hTick, if_neg hClosed,
              escapeFrom_length]⟩
      · have hSpace : Python.isSpace c = true :=
          hCopied.resolve_right hTick
        have hOther :
            c ≠ '\x7b' ∧ c ≠ '\x7d' ∧ c ≠ '<' := by
          refine ⟨?_, ?_, ?_⟩ <;> rintro rfl <;>
            exact absurd hSpace (by decide)
        refine ⟨0, ?_⟩
        rw [escapeFrom, if_neg hTick, if_neg hOther.1,
          if_neg hOther.2.1, if_neg (fun h => hOther.2.2 h.1)]

/- Any other character is replaced by some other start. -/
theorem escapeFrom_cons_other
    {c : Char}
    (hSpace : Python.isSpace c = false)
    (hTick : c ≠ '`')
    (skip : Nat)
    (rest : Str) :
    ∃ d next,
      escapeFrom skip (c :: rest) = d :: next ∧
        Python.isSpace d = false ∧ d ≠ '`' := by
  cases skip with
  | succ skip => exact ⟨c, _, rfl, hSpace, hTick⟩
  | zero =>
      rw [escapeFrom, if_neg hTick]
      split_ifs
      · exact ⟨_, _, rfl, by decide, by decide⟩
      · exact ⟨_, _, rfl, by decide, by decide⟩
      · exact ⟨_, _, rfl, by decide, by decide⟩
      · exact ⟨c, _, rfl, hSpace, hTick⟩

theorem escapeFrom_cons_ne_nil
    (skip : Nat)
    (c : Char)
    (rest : Str) :
    escapeFrom skip (c :: rest) ≠ [] := by
  cases skip with
  | succ skip => simp [escapeFrom]
  | zero =>
      rw [escapeFrom]
      split_ifs <;> simp

/- The indentation is copied. -/
theorem lstrip_escapeFrom
    (skip : Nat)
    (line : Str) :
    ∃ next,
      Python.lstrip (escapeFrom skip line) =
        escapeFrom next (Python.lstrip line) := by
  induction line generalizing skip with
  | nil =>
      refine ⟨skip, ?_⟩
      cases skip <;> rfl
  | cons c rest ih =>
      by_cases hSpace : Python.isSpace c = true
      · rcases escapeFrom_cons_copied (Or.inl hSpace) skip
            rest with
          ⟨next, hNext⟩
        rcases ih next with ⟨last, hLast⟩
        refine ⟨last, ?_⟩
        rw [hNext, Python.lstrip, Python.lstrip,
          List.dropWhile_cons_of_pos hSpace,
          List.dropWhile_cons_of_pos hSpace]
        exact hLast
      · refine ⟨skip, ?_⟩
        have hKept : Python.lstrip (c :: rest) = c :: rest :=
          List.dropWhile_cons_of_neg hSpace
        rw [hKept]
        by_cases hTick : c = '`'
        · rcases escapeFrom_cons_copied (Or.inr hTick) skip
              rest with
            ⟨next, hNext⟩
          rw [hNext]
          exact List.dropWhile_cons_of_neg hSpace
        · rcases escapeFrom_cons_other
              (Bool.eq_false_iff.mpr hSpace) hTick skip
              rest with
            ⟨d, next, hNext, hSolid, _⟩
          rw [hNext]
          exact List.dropWhile_cons_of_neg
            (Bool.eq_false_iff.mp hSolid)

/- The escaping adds and takes away no leading backticks. -/
theorem ticks_prefix_escapeFrom_iff
    (n skip : Nat)
    (line : Str) :
    List.replicate n '`' <+: escapeFrom skip line ↔
      List.replicate n '`' <+: line := by
  induction n generalizing skip line with
  | zero => simp
  | succ n ih =>
      rw [List.replicate_succ]
      cases line with
      | nil => cases skip <;> rfl
      | cons c rest =>
          by_cases hTick : c = '`'
          · rcases escapeFrom_cons_copied (Or.inr hTick) skip
                rest with
              ⟨next, hNext⟩
            rw [hNext, List.cons_prefix_cons,
              List.cons_prefix_cons, ih next rest]
          · by_cases hSpace : Python.isSpace c = true
            · rcases escapeFrom_cons_copied
                  (Or.inl hSpace) skip rest with
                ⟨next, hNext⟩
              rw [hNext, List.cons_prefix_cons,
                List.cons_prefix_cons]
              simp [Ne.symm hTick]
            · rcases escapeFrom_cons_other
                  (Bool.eq_false_iff.mpr hSpace) hTick skip
                  rest with
                ⟨d, next, hNext, _, hOther⟩
              rw [hNext, List.cons_prefix_cons,
                List.cons_prefix_cons]
              simp [Ne.symm hTick, Ne.symm hOther]

/- The escaping adds no line break. -/
theorem newline_not_mem_escapeFrom
    (skip : Nat)
    {line : Str}
    (hLine : '\n' ∉ line) :
    '\n' ∉ escapeFrom skip line := by
  induction line generalizing skip with
  | nil => cases skip <;> exact List.not_mem_nil
  | cons c rest ih =>
      rw [List.mem_cons, not_or] at hLine
      have hRest := fun next => ih next hLine.2
      cases skip with
      | succ skip =>
          rw [escapeFrom, List.mem_cons, not_or]
          exact ⟨hLine.1, hRest skip⟩
      | zero =>
          rw [escapeFrom]
          split_ifs <;> simp [hLine, hRest]

end AsyncapiDocs

------------------------------------------------------------
-- Passes Over A Page
------------------------------------------------------------

namespace AsyncapiDocs

open Python (Str)

/- The line opens or closes a code block for the escaping. -/
def isFence (line : Str) : Bool :=
  "```".toList.isPrefixOf (Python.strip line)

/- The loop of `escape_mdx`. -/
def escapeLines : Bool → List Str → List Str
| _, [] => []
| inCodeBlock, line :: rest =>
    if isFence line then
      line :: escapeLines (!inCodeBlock) rest
    else if inCodeBlock then
      line :: escapeLines inCodeBlock rest
    else
      escapeLine line :: escapeLines inCodeBlock rest

def escapeMdx (text : Str) : Str :=
  Python.unlines (escapeLines false (Python.lines text))

def isBlank (line : Str) : Bool :=
  Python.strip line = []

/- The loop of `collapse_blank_lines`. -/
def collapseLines : Bool → List Str → List Str
| _, [] => []
| prevBlank, line :: rest =>
    if isBlank line then
      if prevBlank then
        collapseLines prevBlank rest
      else
        [] :: collapseLines true rest
    else
      line :: collapseLines false rest

def collapseBlankLines (text : Str) : Str :=
  Python.unlines (collapseLines false (Python.lines text))

/- An odd number of fences stands among the lines. -/
def leavesCode (lines : List Str) : Bool :=
  lines.countP isFence % 2 = 1

theorem leavesCode_cons (line : Str) (rest : List Str) :
    leavesCode (line :: rest) =
      (isFence line ^^ leavesCode rest) := by
  unfold leavesCode
  rw [List.countP_cons]
  cases isFence line with
  | false => simp
  | true =>
      simp only [if_true, Bool.true_xor]
      rw [← decide_not, decide_eq_decide]
      omega

theorem escapeLines_append
    (inCodeBlock : Bool)
    (lines rest : List Str) :
    escapeLines inCodeBlock (lines ++ rest) =
      escapeLines inCodeBlock lines ++
        escapeLines (inCodeBlock ^^ leavesCode lines)
          rest := by
  induction lines generalizing inCodeBlock with
  | nil => simp [escapeLines, leavesCode]
  | cons line lines ih =>
      rw [List.cons_append, escapeLines, escapeLines,
        leavesCode_cons]
      cases hFence : isFence line with
      | true => simp [ih]
      | false => cases inCodeBlock <;> simp [ih]

/- Behind a line that is not blank the loop starts anew. -/
theorem collapseLines_append_cons
    (prevBlank : Bool)
    (lines : List Str)
    {line : Str}
    (rest : List Str)
    (hSolid : isBlank line = false) :
    collapseLines prevBlank (lines ++ line :: rest) =
      collapseLines prevBlank lines ++
        line :: collapseLines false rest := by
  induction lines generalizing prevBlank with
  | nil => simp [collapseLines, hSolid]
  | cons first lines ih =>
      rw [List.cons_append, collapseLines, collapseLines]
      split_ifs <;> simp [ih]

theorem isBlank_iff
    {line : Str} :
    isBlank line = true ↔ Python.lstrip line = [] := by
  rw [isBlank, decide_eq_true_iff, Python.strip_eq_nil_iff,
    Python.lstrip_eq_nil_iff]

@[simp] theorem isBlank_escapeLine (line : Str) :
    isBlank (escapeLine line) = isBlank line := by
  rcases lstrip_escapeFrom 0 line with ⟨next, hNext⟩
  rw [Bool.eq_iff_iff, isBlank_iff, isBlank_iff, escapeLine,
    hNext]
  cases Python.lstrip line with
  | nil => cases next <;> simp [escapeFrom]
  | cons c rest => simp [escapeFrom_cons_ne_nil]

theorem length_escapeLines
    (inCodeBlock : Bool)
    (lines : List Str) :
    (escapeLines inCodeBlock lines).length =
      lines.length := by
  induction lines generalizing inCodeBlock with
  | nil => rfl
  | cons line rest ih =>
      rw [escapeLines]
      split_ifs <;> simp [ih]

theorem length_collapseLines_le
    (prevBlank : Bool)
    (lines : List Str) :
    (collapseLines prevBlank lines).length ≤
      lines.length := by
  induction lines generalizing prevBlank with
  | nil => exact Nat.zero_le _
  | cons line rest ih =>
      have hRest := fun prevBlank => ih prevBlank
      rw [collapseLines]
      split_ifs
      · exact Nat.le_succ_of_le (hRest prevBlank)
      · exact Nat.succ_le_succ (hRest true)
      · exact Nat.succ_le_succ (hRest false)

/-
  What both passes leave of the lines, line by line, behind a
  blank line or not and inside a code block or not.
-/
def Kept : Bool → Bool → List Str → Prop
| _, _, [] => True
| prevBlank, inCodeBlock, line :: rest =>
    (isBlank line = true → line = [] ∧ prevBlank = false) ∧
      (isFence line = false → inCodeBlock = false →
        Unescaped line) ∧
        Kept (isBlank line) (inCodeBlock ^^ isFence line) rest

theorem collapse_escape_eq_self_iff_kept
    (prevBlank inCodeBlock : Bool)
    (raw : List Str) :
    collapseLines prevBlank (escapeLines inCodeBlock raw) =
        raw ↔
      Kept prevBlank inCodeBlock raw := by
  induction raw generalizing prevBlank inCodeBlock with
  | nil => simp [escapeLines, collapseLines, Kept]
  | cons line rest ih =>
      -- The escaped line, and the block behind it.
      have hStep :
          ∃ escaped,
            escapeLines inCodeBlock (line :: rest) =
                escaped ::
                  escapeLines (inCodeBlock ^^ isFence line)
                    rest ∧
              isBlank escaped = isBlank line ∧
                (escaped = line ↔
                  (isFence line = false →
                    inCodeBlock = false →
                      Unescaped line)) := by
        rw [escapeLines]
        cases hFence : isFence line with
        | true => exact ⟨line, by simp, rfl, by simp⟩
        | false =>
            cases inCodeBlock with
            | true => exact ⟨line, by simp, rfl, by simp⟩
            | false =>
                exact ⟨escapeLine line, by simp, by simp,
                  by simp [escapeLine_eq_self_iff]⟩
      rcases hStep with ⟨escaped, hStep, hBlank, hSame⟩
      rw [hStep, Kept, collapseLines, hBlank, ← hSame, ← ih]
      cases hLine : isBlank line with
      | false => simp
      | true =>
          cases prevBlank with
          | true =>
              -- A line was dropped: too few are left.
              have hShort :
                  (collapseLines true
                      (escapeLines
                        (inCodeBlock ^^ isFence line)
                        rest)).length ≤ rest.length := by
                rw [← length_escapeLines
                  (inCodeBlock ^^ isFence line) rest]
                exact length_collapseLines_le _ _
              simp only [if_true]
              constructor
              · intro hEq
                rw [hEq, List.length_cons] at hShort
                omega
              · rintro ⟨hNone, _⟩
                cases (hNone trivial).2
          | false =>
              have hEmpty : line = [] → escaped = line := by
                intro hNil
                apply hSame.mpr
                intro _ _
                rw [hNil]
                exact .nil
              simp only [if_true, Bool.false_eq_true, if_false,
                List.cons.injEq, forall_const, and_true]
              constructor
              · rintro ⟨hNil, hRest⟩
                exact ⟨hNil.symm, hEmpty hNil.symm, hRest⟩
              · rintro ⟨hNil, _, hRest⟩
                exact ⟨hNil.symm, hRest⟩

/-
  The condition under which both passes leave the lines of a
  text alone, inside a code block at its start or not.
-/
structure Survives
    (inCodeBlock : Bool)
    (raw : List Str) : Prop where
  empty : ∀ line ∈ raw, isBlank line = true → line = []
  single :
    raw.IsChain
      (fun line next =>
        ¬ (isBlank line = true ∧ isBlank next = true))
  plain :
    ∀ before line after, raw = before ++ line :: after →
      isFence line = false →
        (inCodeBlock ^^ leavesCode before) = false →
          Unescaped line

theorem survives_cons_iff
    {inCodeBlock : Bool}
    {line : Str}
    {rest : List Str} :
    Survives inCodeBlock (line :: rest) ↔
      (isBlank line = true → line = []) ∧
        (isFence line = false → inCodeBlock = false →
          Unescaped line) ∧
          (∀ next ∈ rest.head?,
            ¬ (isBlank line = true ∧ isBlank next = true)) ∧
            Survives (inCodeBlock ^^ isFence line) rest := by
  constructor
  · intro hAll
    refine ⟨hAll.empty line List.mem_cons_self, ?_,
      (List.isChain_cons.mp hAll.single).1, ?_⟩
    · intro hFence hOutside
      apply hAll.plain [] line rest rfl hFence
      rw [hOutside]
      rfl
    · exact
        { empty := fun other hMem =>
            hAll.empty other (List.mem_cons_of_mem _ hMem)
          single := (List.isChain_cons.mp hAll.single).2
          plain := by
            intro before other after hRest hFence hOutside
            apply hAll.plain (line :: before) other after
              (by rw [hRest]; rfl) hFence
            rwa [leavesCode_cons, ← Bool.xor_assoc] }
  · rintro ⟨hEmpty, hPlain, hSingle, hRest⟩
    exact
      { empty := by
          intro other hMem
          rcases List.mem_cons.mp hMem with rfl | hMem
          · exact hEmpty
          · exact hRest.empty other hMem
        single := List.isChain_cons.mpr
          ⟨hSingle, hRest.single⟩
        plain := by
          intro before other after hSplit hFence hOutside
          cases before with
          | nil =>
              cases hSplit
              apply hPlain hFence
              simpa [leavesCode] using hOutside
          | cons first before =>
              cases hSplit
              apply hRest.plain before other after rfl hFence
              rwa [leavesCode_cons, ← Bool.xor_assoc]
                at hOutside }

theorem kept_iff
    (prevBlank inCodeBlock : Bool)
    (raw : List Str) :
    Kept prevBlank inCodeBlock raw ↔
      (∀ line ∈ raw.head?,
        ¬ (prevBlank = true ∧ isBlank line = true)) ∧
        Survives inCodeBlock raw := by
  induction raw generalizing prevBlank inCodeBlock with
  | nil =>
      simp only [Kept, true_iff]
      exact ⟨by simp, ⟨by simp, by simp, by simp⟩⟩
  | cons line rest ih =>
      rw [Kept, survives_cons_iff, ih]
      simp only [List.head?_cons, Option.mem_def,
        Option.some.injEq, forall_eq']
      cases prevBlank <;> cases hBlank : isBlank line <;>
        simp

/- Both passes leave the lines alone if they survive. -/
theorem collapse_escape_eq_self_iff
    (inCodeBlock : Bool)
    (raw : List Str) :
    collapseLines false (escapeLines inCodeBlock raw) =
        raw ↔
      Survives inCodeBlock raw := by
  rw [collapse_escape_eq_self_iff_kept, kept_iff]
  simp

end AsyncapiDocs
