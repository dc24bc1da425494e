import DsxExchange.AsyncapiDocs.YamlWriting

/-
  Literal block scalars: the lines that are written below a key
  are read back, up to the line that ends them.

  Key definitions include:
    * `AsyncapiDocs.Yaml.IsLiteral`
    * `AsyncapiDocs.Yaml.Written`

  Key theorems include:
    * `AsyncapiDocs.Yaml.blockScalar_written`
    * `AsyncapiDocs.Yaml.literal_roundTrip`
-/

------------------------------------------------------------
-- Written Lines
------------------------------------------------------------

namespace AsyncapiDocs.Yaml

open Python (Str Value isSpace strip lstrip)

variable {scalars : Scalars}

/-
  Lines that a literal block can hold. The first one tells how
  deep the block is, and blank lines at the end are not kept.
-/
structure IsLiteral (lines : List Str) : Prop where
  content :
    ∀ line ∈ lines, line = [] ∨ ∃ c ∈ line, isSpace c = false
  first :
    ∃ c rest, lines.head? = some (c :: rest) ∧
      isSpace c = false
  last : ∃ line, lines.getLast? = some line ∧ line ≠ []

/- A line at a depth. An empty one may be written as any blank. -/
def Written (depth : ℕ) (line raw : Str) : Prop :=
  if line = [] then
    strip raw = []
  else
    raw = spaces depth ++ line

/- The block ends with the text or at a line outside of it. -/
def EndsBlock (base : ℕ) (following : List Str) : Prop :=
  ∀ line ∈ following.head?,
    strip line ≠ [] ∧ indent line ≤ base

theorem blockLines_of_ends
    {base : ℕ}
    {following : List Str}
    (hEnds : EndsBlock base following)
    (blockIndent : Option ℕ) :
    blockLines base blockIndent following = ([], following) := by
  cases following with
  | nil => rfl
  | cons line following =>
      have hLine := hEnds line rfl
      rw [blockLines, if_neg hLine.1]
      dsimp only
      rw [if_pos (Or.inl hLine.2)]

theorem blockLines_blanks
    {base : ℕ}
    {blanks following : List Str}
    (hBlanks : ∀ raw ∈ blanks, strip raw = [])
    (hEnds : EndsBlock base following)
    (blockIndent : Option ℕ) :
    blockLines base blockIndent (blanks ++ following) =
      (List.replicate blanks.length [], following) := by
  induction blanks with
  | nil => exact blockLines_of_ends hEnds blockIndent
  | cons raw blanks ih =>
      have hRest :=
        ih fun raw' hMem =>
          hBlanks raw' (List.mem_cons_of_mem raw hMem)
      rw [List.cons_append, blockLines,
        if_pos (hBlanks raw List.mem_cons_self), hRest]
      rfl

/- A line of the block, once its depth is known. -/
theorem blockLines_line
    {base depth : ℕ}
    {line raw : Str}
    (hDeep : base < depth)
    (hContent : line = [] ∨ ∃ c ∈ line, isSpace c = false)
    (hWritten : Written depth line raw)
    (rest : List Str) :
    blockLines base (some depth) (raw :: rest) =
      (line :: (blockLines base (some depth) rest).1,
        (blockLines base (some depth) rest).2) := by
  unfold Written at hWritten
  rw [blockLines]
  split at hWritten
  · next hEmpty =>
      rw [if_pos hWritten, hEmpty]
  · next hSome =>
      have hStrip : strip raw ≠ [] := by
        rw [hWritten, strip_spaces]
        exact strip_ne_nil (hContent.resolve_left hSome)
      have hIndent : depth ≤ indent raw := by
        rw [hWritten, indent_spaces]
        exact Nat.le_add_right depth _
      have hDrop : raw.drop depth = line := by
        rw [hWritten]
        exact List.drop_left' (List.length_replicate ..)
      have hGo :
          ¬ (indent raw ≤ base ∨ indent raw < depth) := by
        omega
      rw [if_neg hStrip]
      simp only [Option.getD_some, if_neg hGo, hDrop]

theorem blockLines_written
    {base depth : ℕ}
    {lines written : List Str}
    (hDeep : base < depth)
    (hContent :
      ∀ line ∈ lines, line = [] ∨ ∃ c ∈ line, isSpace c = false)
    (hWritten : List.Forall₂ (Written depth) lines written)
    (rest : List Str) :
    blockLines base (some depth) (written ++ rest) =
      (lines ++ (blockLines base (some depth) rest).1,
        (blockLines base (some depth) rest).2) := by
  induction hWritten with
  | nil => rfl
  | cons hLine hLines ih =>
      have hRest :=
        ih fun line hMem =>
          hContent line (List.mem_cons_of_mem _ hMem)
      rw [List.cons_append,
        blockLines_line hDeep
          (hContent _ List.mem_cons_self) hLine,
        hRest]
      rfl

/- The first line tells the depth. -/
theorem blockLines_first
    {base depth : ℕ}
    {c : Char}
    {line raw : Str}
    (hChar : isSpace c = false)
    (hWritten : Written depth (c :: line) raw)
    (rest : List Str) :
    blockLines base none (raw :: rest) =
      blockLines base (some depth) (raw :: rest) := by
  rw [Written, if_neg (List.cons_ne_nil c line)] at hWritten
  have hStrip : strip raw ≠ [] := by
    rw [hWritten, strip_spaces]
    exact strip_ne_nil ⟨c, List.mem_cons_self, hChar⟩
  have hIndent : indent raw = depth := by
    rw [hWritten, indent_spaces, indent_cons hChar, Nat.add_zero]
  rw [blockLines, blockLines, if_neg hStrip, if_neg hStrip]
  simp only [Option.getD_none, Option.getD_some, hIndent]

/- The lines without the blank ones behind them. -/
theorem rdropWhile_blanks
    {lines : List Str}
    (hLast : ∃ line, lines.getLast? = some line ∧ line ≠ [])
    (n : ℕ) :
    (lines ++ List.replicate n []).rdropWhile (· = []) =
      lines := by
  induction n with
  | zero =>
      rcases hLast with ⟨line, hLine, hSome⟩
      rw [List.replicate_zero, List.append_nil,
        List.rdropWhile_eq_self_iff]
      intro hLines hEmpty
      rw [List.getLast?_eq_some_getLast hLines,
        Option.some_inj] at hLine
      exact hSome (hLine.symm.trans (by simpa using hEmpty))
  | succ n ih =>
      rw [List.replicate_succ', ← List.append_assoc,
        List.rdropWhile_concat_pos _ _ _ (by simp), ih]

theorem blockText_literal
    {lines : List Str}
    (hLast : ∃ line, lines.getLast? = some line ∧ line ≠ [])
    (n : ℕ) :
    blockText "|".toList (lines ++ List.replicate n []) =
      Python.unlines lines ++ ['\n'] := by
  have hSome : lines ≠ [] := by
    rintro rfl
    rcases hLast with ⟨line, hLine, _⟩
    cases hLine
  have hKept := rdropWhile_blanks hLast n
  have hLiteral : startsWith '>' "|".toList = false := rfl
  have hClip : "|".toList.getLast? ≠ some '+' := by decide
  simp only [blockText, hLiteral, if_neg hClip, hKept,
    if_neg hSome, Bool.false_eq_true, if_false]

end AsyncapiDocs.Yaml

------------------------------------------------------------
-- Reading Them Back
------------------------------------------------------------

namespace AsyncapiDocs.Yaml

open Python (Str Value isSpace strip lstrip)

variable {scalars : Scalars}
variable {base extra : ℕ}
variable {lines written blanks following : List Str}

theorem blockLines_literal
    (hExtra : 0 < extra)
    (hLiteral : IsLiteral lines)
    (hWritten :
      List.Forall₂ (Written (base + extra)) lines written)
    (hBlanks : ∀ raw ∈ blanks, strip raw = [])
    (hEnds : EndsBlock base following) :
    blockLines base none (written ++ (blanks ++ following)) =
      (lines ++ List.replicate blanks.length [],
        following) := by
  have hDeep : base < base + extra := by omega
  have hOpen :
      blockLines base none (written ++ (blanks ++ following)) =
        blockLines base (some (base + extra))
          (written ++ (blanks ++ following)) := by
    rcases hLiteral.first with ⟨c, rest, hHead, hChar⟩
    cases hWritten with
    | nil => cases hHead
    | cons hLine hLines =>
        rw [List.head?_cons, Option.some_inj] at hHead
        rw [hHead] at hLine
        exact blockLines_first hChar hLine _
  rw [hOpen, blockLines_written hDeep hLiteral.content hWritten,
    blockLines_blanks hBlanks hEnds]

/- The block that is written is read, and nothing else. -/
theorem blockScalar_written
    (hExtra : 0 < extra)
    (hLiteral : IsLiteral lines)
    (hWritten :
      List.Forall₂ (Written (base + extra)) lines written)
    (hBlanks : ∀ raw ∈ blanks, strip raw = [])
    (hEnds : EndsBlock base following)
    (log : List Use) :
    blockScalar "|".toList base
        ⟨written ++ (blanks ++ following), log⟩ =
      (.str (Python.unlines lines ++ ['\n']),
        ⟨following, log ++ [.block (written ++ blanks)]⟩) := by
  have hTake :
      (written ++ (blanks ++ following)).take
          (lines ++ List.replicate blanks.length []).length =
        written ++ blanks := by
    rw [List.length_append, List.length_replicate,
      hWritten.length_eq, ← List.length_append,
      ← List.append_assoc, List.take_left]
  rw [blockScalar]
  simp only [blockLines_literal hExtra hLiteral hWritten
    hBlanks hEnds, blockText_literal hLiteral.last, hTake]

theorem keyValue_literal
    (hExtra : 0 < extra)
    (hLiteral : IsLiteral lines)
    (hWritten :
      List.Forall₂ (Written (base + extra)) lines written)
    (hBlanks : ∀ raw ∈ blanks, strip raw = [])
    (hEnds : EndsBlock base following)
    (nested : Reader → Option (Value × Reader))
    (log : List Use) :
    keyValue scalars nested base (stripComment "|".toList)
        ⟨written ++ (blanks ++ following), log⟩ =
      some (.str (Python.unlines lines ++ ['\n']),
        ⟨following, log ++ [.block (written ++ blanks)]⟩) := by
  have hStrip : stripComment "|".toList = "|".toList := by
    decide
  have hBlock : isBlockIndicator "|".toList = true := by
    decide
  rw [hStrip, keyValue, if_pos hBlock,
    blockScalar_written hExtra hLiteral hWritten hBlanks hEnds]

/-
  Lines that are written below `key: |` are read as the value
  of the key, up to the line that ends them. A mapping of its
  own and one behind a dash get that value, and go on there.
-/
theorem literal_roundTrip
    {key text : Str}
    {before : List Str}
    (hWords : scalars.Words)
    (hKey : scalars.IsKey key)
    (hExtra : 0 < extra)
    (hLiteral : IsLiteral lines)
    (hWritten :
      List.Forall₂ (Written (base + extra)) lines written)
    (hBlanks : ∀ raw ∈ blanks, strip raw = [])
    (hEnds : EndsBlock base following)
    (hText :
      splitLines text =
        before ++
          keyLine base key " |".toList ::
            (written ++ (blanks ++ following)))
    (result : List (Str × Value))
    (log : List Use) :
    ∃ log',
      (∀ nested,
        keyValue scalars nested base (stripComment "|".toList)
            ⟨(splitLines text).drop (before.length + 1),
              log ++ [keyUse key key result]⟩ =
          some (.str (Python.unlines lines ++ ['\n']),
            ⟨following, log'⟩)) ∧
        Gets (parseMapping scalars) base key
          (.str (Python.unlines lines ++ ['\n'])) result
          ⟨(splitLines text).drop before.length, log⟩
          ⟨following, log'⟩ ∧
        Gets (parseDashInlineMapping scalars) base key
          (.str (Python.unlines lines ++ ['\n'])) result
          ⟨(splitLines text).drop before.length, log⟩
          ⟨following, log'⟩ ∧
        (splitLines text).drop
            (before.length + 1 + written.length +
              blanks.length) =
          following := by
  have hValue :
      ∀ nested : Reader → Option (Value × Reader),
        keyValue scalars nested base (stripComment "|".toList)
            ⟨written ++ (blanks ++ following),
              log ++ [keyUse key key result]⟩ =
          some (.str (Python.unlines lines ++ ['\n']),
            ⟨following,
              log ++ [keyUse key key result] ++
                [.block (written ++ blanks)]⟩) :=
    fun nested =>
      keyValue_literal hExtra hLiteral hWritten hBlanks hEnds
        nested _
  have hBelow :
      (splitLines text).drop (before.length + 1) =
        written ++ (blanks ++ following) := by
    rw [hText, List.drop_append]
    simp
  have hGets :=
    gets_keyLine hWords hKey hText fun fuel =>
      hValue (parseValue scalars fuel)
  refine ⟨_, ?_, hGets.1, hGets.2, ?_⟩
  · intro nested
    rw [hBelow]
    exact hValue nested
  · rw [hText, Nat.add_assoc, Nat.add_assoc, List.drop_append]
    simp [Nat.add_comm 1]

/- A block with a blank line, a comment and a key in it. -/
theorem literal_roundTrip_notes :
    ∃ log,
      parseMapping asciiScalars 2 2 []
          ⟨(splitLines
            "  a: |\n    # b\n\n      c: 1\n \nd: 2\n".toList).drop
            0, []⟩ =
        some
          ([("a".toList, .str "# b\n\n  c: 1\n".toList)],
            ⟨["d: 2".toList], log⟩) := by
  have hContent :
      ∀ line ∈ ["# b".toList, [], "  c: 1".toList],
        line = [] ∨ ∃ c ∈ line, isSpace c = false := by
    intro line hMem
    simp only [List.mem_cons, List.not_mem_nil, or_false]
      at hMem
    rcases hMem with rfl | rfl | rfl
    · exact Or.inr ⟨'#', List.mem_cons_self, rfl⟩
    · exact Or.inl rfl
    · exact Or.inr ⟨'c', by decide, rfl⟩
  have hLiteral :
      IsLiteral ["# b".toList, [], "  c: 1".toList] :=
    ⟨hContent, ⟨'#', " b".toList, rfl, rfl⟩,
      ⟨"  c: 1".toList, rfl, by decide⟩⟩
  have hWritten :
      List.Forall₂ (Written (2 + 2))
        ["# b".toList, [], "  c: 1".toList]
        ["    # b".toList, [], "      c: 1".toList] := by
    refine .cons ?_ (.cons ?_ (.cons ?_ .nil)) <;>
      unfold Written <;> decide
  have hBlanks : ∀ raw ∈ [" ".toList], strip raw = [] := by
    decide
  have hEnds : EndsBlock 2 ["d: 2".toList] := by
    unfold EndsBlock
    decide
  have hText :
      splitLines
          "  a: |\n    # b\n\n      c: 1\n \nd: 2\n".toList =
        [] ++
          keyLine 2 "a".toList " |".toList ::
            (["    # b".toList, [], "      c: 1".toList] ++
              ([" ".toList] ++ ["d: 2".toList])) := by
    decide
  rcases literal_roundTrip words_asciiScalars
    (isKey_of_all (by decide) rfl) (by decide)
    hLiteral hWritten hBlanks hEnds hText [] [] with
    ⟨log, _, hMapping, _⟩
  have hLow :
      ∀ line ∈ (Reader.skip ⟨["d: 2".toList], log⟩).rest.head?,
        indent line < 2 := by
    rintro line ⟨⟩
    decide
  exact ⟨log, hMapping.closes hLow 0⟩

end AsyncapiDocs.Yaml
