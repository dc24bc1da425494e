import DsxExchange.AsyncapiDocs.YamlFlow
import DsxExchange.AsyncapiDocs.YamlShifting

/-
  A mapping or a plain scalar as an item of a sequence: its
  first line stands behind the dash, and the others below it,
  two columns further to the right.

  Key definitions include:
    * `AsyncapiDocs.Yaml.Scalars.IsEntry`
    * `AsyncapiDocs.Yaml.IsMapping`, `AsyncapiDocs.Yaml.IsPlain`
    * `AsyncapiDocs.Yaml.ReadsAlike`
    * `AsyncapiDocs.Yaml.StartsPlainly`

  Key theorems include:
    * `AsyncapiDocs.Yaml.dash_of_mapping`
    * `AsyncapiDocs.Yaml.readsAlike_iff`
-/

------------------------------------------------------------
-- Comments Before White Space
------------------------------------------------------------

namespace AsyncapiDocs.Yaml

open Python (Str isSpace strip lstrip rstrip strip_rstrip
  rstrip_concat_space rstrip_concat)

/- White space at the end neither starts a comment. -/
theorem beforeComment_concat_space
    (inSingle inDouble starts : Bool)
    (s : Str)
    {c : Char}
    (hSpace : isSpace c = true) :
    beforeComment inSingle inDouble starts (s ++ [c]) =
      beforeComment inSingle inDouble starts s := by
  induction s generalizing inSingle inDouble starts with
  | nil =>
      have hOther : c ≠ '\'' ∧ c ≠ '"' ∧ c ≠ '#' := by
        refine ⟨?_, ?_, ?_⟩ <;> rintro rfl <;>
          exact absurd hSpace (by decide)
      simp [beforeComment, hOther]
  | cons d s ih =>
      rw [List.cons_append, beforeComment, beforeComment]
      simp only [ih]

theorem stripComment_rstrip (s : Str) :
    stripComment (rstrip s) = stripComment s := by
  induction s using List.reverseRecOn with
  | nil => rfl
  | append_singleton s c ih =>
      by_cases hSpace : isSpace c = true
      · rw [rstrip_concat_space s hSpace, ih]
        unfold stripComment
        rw [beforeComment_concat_space _ _ _ _ hSpace]
        cases beforeComment false false true s with
        | some front => rfl
        | none =>
            have hStrip :=
              congrArg strip (rstrip_concat_space s hSpace)
            rw [strip_rstrip, strip_rstrip] at hStrip
            exact hStrip.symm
      · rw [rstrip_concat s hSpace]

end AsyncapiDocs.Yaml

------------------------------------------------------------
-- Lines of a Mapping
------------------------------------------------------------

namespace AsyncapiDocs.Yaml

open Python (Str isSpace strip lstrip rstrip strip_append)

variable {scalars : Scalars}

/-
  What the language says of `\w`, of `str.lower`, and of `int`
  and `float` on a text with a space inside.
-/
structure Scalars.Standard (scalars : Scalars) : Prop
    extends scalars.Words where
  brace : scalars.isWord '\x7b' = false
  bracket : scalars.isWord '[' = false
  lower :
    ∀ text c, c = ' ' ∨ c = '-' → c ∈ text →
      c ∈ scalars.lower text
  toInt :
    ∀ text, strip text = text → ' ' ∈ text →
      scalars.toInt text = none
  toFloat :
    ∀ text, strip text = text → ' ' ∈ text →
      scalars.toFloat text = none

theorem standard_asciiScalars : asciiScalars.Standard where
  toWords := words_asciiScalars
  brace := rfl
  bracket := rfl
  lower := by
    rintro text c (rfl | rfl) hMem
    · exact List.mem_map.mpr ⟨_, hMem, rfl⟩
    · exact List.mem_map.mpr ⟨_, hMem, rfl⟩
  toInt := by
    intro text _ hMem
    have hDigits : ¬ text.all Char.isDigit = true := by
      rw [List.all_eq_true]
      intro hAll
      exact absurd (hAll ' ' hMem) (by decide)
    exact if_neg hDigits
  toFloat := fun _ _ _ => rfl

/- A key as it stands on a line, within quotes or without. -/
def Scalars.IsWrittenKey
    (scalars : Scalars)
    (key : Str) : Prop :=
  scalars.IsKey key ∨
    ∃ quote s, (quote = '\'' ∨ quote = '"') ∧ quote ∉ s ∧
      key = quote :: (s ++ [quote])

/- Nothing, or a space and more, is behind the colon. -/
def IsBehindColon (rest : Str) : Prop :=
  rest = [] ∨ rest.head? = some ' '

/- A line of a mapping, at the indent of the mapping. -/
def Scalars.IsEntry (scalars : Scalars) (line : Str) : Prop :=
  ∃ key rest, scalars.IsWrittenKey key ∧
    IsBehindColon rest ∧ line = key ++ ':' :: rest

theorem IsBehindColon.rstrip
    {rest : Str}
    (hRest : IsBehindColon rest) :
    IsBehindColon (Python.rstrip rest) := by
  have hPrefix : Python.rstrip rest <+: rest :=
    List.rdropWhile_prefix _ rest
  rcases hRest with rfl | hHead
  · exact Or.inl rfl
  · cases hBack : Python.rstrip rest with
    | nil => exact Or.inl rfl
    | cons c back =>
        rw [hBack] at hPrefix
        rcases hPrefix with ⟨tail, rfl⟩
        exact Or.inr hHead

theorem writtenKey_first
    (hStandard : scalars.Standard)
    {key : Str}
    (hKey : scalars.IsWrittenKey key) :
    ∃ c more, key = c :: more ∧ isSpace c = false ∧
      c ≠ '#' ∧ c ≠ '\x7b' ∧ c ≠ '[' := by
  rcases hKey with ⟨hSome, hChars⟩ | ⟨quote, s, hQuote, _, rfl⟩
  · cases key with
    | nil => exact absurd rfl hSome
    | cons c more =>
        have hChar := hChars c List.mem_cons_self
        refine ⟨c, more, rfl, ?_, ?_, ?_, ?_⟩
        · rw [Bool.eq_false_iff]
          intro hSpace
          rw [hStandard.isKeyChar_space hSpace] at hChar
          cases hChar
        all_goals
          rintro rfl
          simp [Scalars.isKeyChar, hStandard.hash,
            hStandard.brace, hStandard.bracket] at hChar
  · rcases hQuote with rfl | rfl <;>
      exact ⟨_, _, rfl, rfl, by decide, by decide, by decide⟩

theorem keyToken_writtenKey
    (hStandard : scalars.Standard)
    {key : Str}
    (hKey : scalars.IsWrittenKey key)
    (back : Str) :
    scalars.keyToken (key ++ ':' :: back) =
      some (key, ':' :: back) := by
  rcases hKey with hPlain | ⟨quote, s, hQuote, hWithin, rfl⟩
  · exact keyToken_key hStandard.toWords hPlain back
  · have hText :
        quote :: (s ++ [quote]) ++ ':' :: back =
          quote :: (s ++ quote :: ':' :: back) := by
      simp
    have hNone :
        (quote :: (s ++ quote :: ':' :: back)).takeWhile
          scalars.isKeyChar = [] :=
      List.takeWhile_cons_of_neg
        (by simp [hStandard.isKeyChar_quote hQuote])
    have hTake :
        (s ++ quote :: ':' :: back).takeWhile (· ≠ quote) =
          s := by
      rw [List.takeWhile_append_of_pos, List.takeWhile_cons_of_neg,
        List.append_nil]
      · simp
      · intro c hMem
        rw [decide_eq_true_eq]
        rintro rfl
        exact hWithin hMem
    have hToken :
        quotedToken quote
            (quote :: (s ++ quote :: ':' :: back)) =
          some (quote :: (s ++ [quote]), ':' :: back) := by
      rw [quotedToken, if_pos (by simp [startsWith])]
      have hDrop :
          (quote :: (s ++ quote :: ':' :: back)).drop 1 =
            s ++ quote :: ':' :: back :=
        rfl
      dsimp only
      rw [hDrop, hTake, if_pos (by simp)]
      simp [← List.drop_drop]
    rw [hText, Scalars.keyToken]
    simp only [hNone, ne_eq, not_true_eq_false, if_false]
    rcases hQuote with rfl | rfl
    · have hOther :
          quotedToken '"' ('\'' :: (s ++ '\'' :: ':' :: back)) =
            none := by
        simp [quotedToken, startsWith]
      rw [hOther, hToken]
      rfl
    · rw [hToken]
      rfl

theorem strip_entry
    (hStandard : scalars.Standard)
    {key : Str}
    (hKey : scalars.IsWrittenKey key)
    (rest : Str) :
    strip (key ++ ':' :: rest) = key ++ ':' :: rstrip rest := by
  rcases writtenKey_first hStandard hKey with
    ⟨c, more, rfl, hFirst, _⟩
  have hColon : isSpace ':' = false := rfl
  have hStrip :
      strip (c :: (more ++ [':']) ++ rest) =
        c :: (more ++ [':']) ++ rstrip rest :=
    strip_append hFirst hColon rest
  simpa using hStrip

theorem keyMatch_entry
    (hStandard : scalars.Standard)
    {key : Str}
    (hKey : scalars.IsWrittenKey key)
    (rest : Str) :
    scalars.keyMatch (key ++ ':' :: rest) =
      some (stripQuotes key, lstrip rest) := by
  have hStart :
      lstrip (key ++ ':' :: rest) = key ++ ':' :: rest := by
    rcases writtenKey_first hStandard hKey with
      ⟨c, more, rfl, hFirst, _⟩
    exact List.dropWhile_cons_of_neg (by simp [hFirst])
  have hColon : lstrip (':' :: rest) = ':' :: rest :=
    List.dropWhile_cons_of_neg (by decide)
  rw [Scalars.keyMatch, hStart,
    keyToken_writtenKey hStandard hKey]
  simp only [hColon]

theorem indent_entry
    (hStandard : scalars.Standard)
    {line : Str}
    (hEntry : scalars.IsEntry line) :
    indent line = 0 := by
  rcases hEntry with ⟨key, rest, hKey, _, rfl⟩
  rcases writtenKey_first hStandard hKey with
    ⟨c, more, rfl, hFirst, _⟩
  exact indent_cons hFirst _

theorem isBlank_entry
    (hStandard : scalars.Standard)
    {line : Str}
    (hEntry : scalars.IsEntry line) :
    isBlank line = false := by
  rcases hEntry with ⟨key, rest, hKey, _, rfl⟩
  rw [isBlank, strip_entry hStandard hKey]
  rcases writtenKey_first hStandard hKey with
    ⟨c, more, rfl, _, hHash, _⟩
  simp [startsWith, hHash]

theorem startsDash_entry
    (hStandard : scalars.Standard)
    {key : Str}
    (hKey : scalars.IsWrittenKey key)
    (rest : Str) :
    startsDash (key ++ ':' :: rest) = false := by
  rcases hKey with hPlain | ⟨quote, s, hQuote, _, rfl⟩
  · have hSpace : ∀ c ∈ key, ' ' ≠ c := by
      rintro c hMem rfl
      have hChar := hPlain.2 ' ' hMem
      rw [hStandard.isKeyChar_space rfl] at hChar
      cases hChar
    match key, hPlain, hSpace with
    | [], hPlain, _ => exact absurd rfl hPlain.1
    | [c], _, _ => simp [startsDash, List.isPrefixOf]
    | c :: d :: more, _, hSpace =>
        have hSecond := hSpace d (by simp)
        simp [startsDash, List.isPrefixOf, hSecond]
  · rcases hQuote with rfl | rfl <;>
      simp [startsDash, List.isPrefixOf]

/- Nothing in a plain text is a colon or opens quotes. -/
theorem hasKeyColon_plain
    {s : Str}
    (hPlain : ∀ c ∈ s, c ≠ '\'' ∧ c ≠ '"' ∧ c ≠ ':')
    (text : Str) :
    hasKeyColon false false (s ++ text) =
      hasKeyColon false false text := by
  induction s with
  | nil => rfl
  | cons c s ih =>
      have hChar := hPlain c List.mem_cons_self
      rw [List.cons_append, hasKeyColon,
        ih fun d hMem => hPlain d (List.mem_cons_of_mem c hMem)]
      simp [hChar]

/- Within quotes a colon is a character as any other. -/
theorem hasKeyColon_within
    {quote : Char}
    (hQuote : quote = '\'' ∨ quote = '"')
    {s : Str}
    (hWithin : quote ∉ s)
    (text : Str) :
    hasKeyColon (quote = '\'') (quote = '"')
        (s ++ quote :: text) =
      hasKeyColon false false text := by
  induction s with
  | nil => rcases hQuote with rfl | rfl <;> simp [hasKeyColon]
  | cons c s ih =>
      rw [List.mem_cons, not_or] at hWithin
      have hOther := Ne.symm hWithin.1
      rw [List.cons_append, hasKeyColon, ih hWithin.2]
      rcases hQuote with rfl | rfl <;> simp [hOther]

theorem hasKeyColon_entry
    (hStandard : scalars.Standard)
    {key rest : Str}
    (hKey : scalars.IsWrittenKey key)
    (hRest : IsBehindColon rest) :
    hasKeyColon false false (key ++ ':' :: rest) = true := by
  have hColon : hasKeyColon false false (':' :: rest) = true := by
    rw [hasKeyColon]
    rcases hRest with rfl | hHead
    · simp
    · simp [hHead]
  rcases hKey with hPlain | ⟨quote, s, hQuote, hWithin, rfl⟩
  · rw [hasKeyColon_plain, hColon]
    intro c hMem
    have hChar := hPlain.2 c hMem
    refine ⟨?_, ?_, ?_⟩ <;> rintro rfl
    · rw [hStandard.isKeyChar_quote (Or.inl rfl)] at hChar
      cases hChar
    · rw [hStandard.isKeyChar_quote (Or.inr rfl)] at hChar
      cases hChar
    · rw [hStandard.isKeyChar_colon] at hChar
      cases hChar
  · have hText :
        quote :: (s ++ [quote]) ++ ':' :: rest =
          quote :: (s ++ quote :: ':' :: rest) := by
      simp
    have hOpen :
        hasKeyColon false false
            (quote :: (s ++ quote :: ':' :: rest)) =
          hasKeyColon (quote = '\'') (quote = '"')
            (s ++ quote :: ':' :: rest) := by
      rcases hQuote with rfl | rfl <;> simp [hasKeyColon]
    rw [hText, hOpen, hasKeyColon_within hQuote hWithin, hColon]

/- Only a dash in front hides that a line has a key. -/
theorem isMappingKey_entry
    (hStandard : scalars.Standard)
    {key rest : Str}
    (hKey : scalars.IsWrittenKey key)
    (hRest : IsBehindColon rest) :
    isMappingKey (key ++ ':' :: rest) =
      !startsWith '-' key := by
  have hColon := hasKeyColon_entry hStandard hKey hRest.rstrip
  rw [isMappingKey, strip_entry hStandard hKey, hColon,
    Bool.and_true]
  rcases writtenKey_first hStandard hKey with
    ⟨c, more, rfl, _, _, hBrace, hBracket⟩
  have hNoBrace : (c == '\x7b') = false :=
    beq_eq_false_iff_ne.mpr hBrace
  have hNoBracket : (c == '[') = false :=
    beq_eq_false_iff_ne.mpr hBracket
  simp [startsWith, hNoBrace, hNoBracket]

end AsyncapiDocs.Yaml

------------------------------------------------------------
-- Both Readings
------------------------------------------------------------

namespace AsyncapiDocs.Yaml

open Python (Str Value isSpace strip lstrip rstrip)

variable {scalars : Scalars}

/- Lines of a mapping at no indent, and lines inside it. -/
def AreEntries (scalars : Scalars) (lines : List Str) : Prop :=
  ∀ line ∈ lines,
    isBlank line = true ∨ 0 < indent line ∨
      scalars.IsEntry line

/- The key of a line at no indent, if the line has one. -/
def entryKey (scalars : Scalars) (line : Str) : Option Str :=
  if isBlank line = false ∧ indent line = 0 then
    (scalars.keyMatch line).map Prod.fst
  else
    none

/- The lines of a mapping, whose keys are distinct. -/
structure IsMapping
    (scalars : Scalars)
    (first : Str)
    (more : List Str) : Prop where
  entry : scalars.IsEntry first
  entries : AreEntries scalars more
  distinct :
    ((first :: more).filterMap (entryKey scalars)).Nodup

/- The lines of a plain scalar, all of which are read. -/
structure IsPlainScalar
    (first : Str)
    (more : List Str) : Prop where
  start : indent first = 0
  blank : isBlank first = false
  dash : startsDash (strip first) = false
  lone : strip first ≠ ['-']
  key : isMappingKey (strip first) = false
  plain :
    ∀ c ∈ (strip first).head?,
      c ≠ '\'' ∧ c ≠ '"' ∧ c ≠ '\x7b' ∧ c ≠ '['
  goesOn :
    ∀ line ∈ more, endsPlain 0 [strip first] line = false

/- The lines as an item of a sequence at an indent. -/
def itemLines
    (base : ℕ)
    (first : Str)
    (more : List Str) : List Str :=
  (spaces base ++ '-' :: ' ' :: first) ::
    indented (base + 2) more

/-
  Lines are read alike on their own and as an item of a
  sequence, at any indent, behind any other items and before
  any lines further to the left.
-/
def ReadsAlike
    (scalars : Scalars)
    (first : Str)
    (more : List Str) : Prop :=
  ∀ base behind before log, Closes (base + 2) behind →
    ∃ enough, ∀ fuel, enough ≤ fuel →
      ∃ value after others last,
        parseValue scalars fuel ⟨first :: more, []⟩ =
            some (value, after) ∧
          parseSequence scalars fuel base before
              ⟨itemLines base first more ++ behind, log⟩ =
            some (before ++ value :: others, last)

/-
  A first entry without quotes around its key and a dash in
  front of it, whose value is a scalar or lies deeper.
-/
structure StartsPlainly
    (scalars : Scalars)
    (first : Str)
    (more : List Str) : Prop where
  single : startsWith '\'' first = false
  double : startsWith '"' first = false
  dash : startsWith '-' first = false
  block :
    ∀ key rest, scalars.keyMatch first = some (key, rest) →
      isBlockIndicator (stripComment rest) = false
  flow :
    ∀ key rest, scalars.keyMatch first = some (key, rest) →
      startsWith '[' (stripComment rest) = false ∧
        startsWith '\x7b' (stripComment rest) = false
  below :
    ∀ key rest, scalars.keyMatch first = some (key, rest) →
      stripComment rest = [] →
        ∀ line ∈ (more.dropWhile isBlank).head?,
          0 < indent line

/- A scalar without a colon, of one line but for a comment. -/
def StaysPlain (first : Str) (more : List Str) : Prop :=
  ':' ∉ strip first ∧
    (more = [] ∨ hasComment (strip first) = true)

end AsyncapiDocs.Yaml

------------------------------------------------------------
-- Behind a Dash
------------------------------------------------------------

namespace AsyncapiDocs.Yaml

open Python (Str Value isSpace strip lstrip rstrip)

variable {scalars : Scalars}
variable {n : ℕ} {behind : List Str}

/- A line of a mapping is not passed over. -/
theorem entry_goes
    (hStandard : scalars.Standard)
    {line : Str}
    (hEntry : scalars.IsEntry line) :
    ¬ (indent line ≠ 0 ∨ startsDash (strip line) = true) := by
  rw [not_or, not_not]
  refine ⟨indent_entry hStandard hEntry, ?_⟩
  rcases hEntry with ⟨key, rest, hKey, _, rfl⟩
  rw [strip_entry hStandard hKey, startsDash_entry hStandard hKey]
  exact Bool.false_ne_true

/- A line of the mapping itself is the next to be read. -/
theorem AreEntries.entry_of_skip
    {reader : Reader}
    (hLines : AreEntries scalars reader.rest)
    {line : Str}
    {lines : List Str}
    (hRest : reader.skip.rest = line :: lines)
    (hFlat : ¬ 0 < indent line) :
    scalars.IsEntry line := by
  rcases hLines line (mem_of_skip hRest) with
    hBlank | hDeep | hEntry
  · rw [isBlank_of_skip hRest] at hBlank
    cases hBlank
  · exact absurd hDeep hFlat
  · exact hEntry

/-
  The lines of a mapping behind a dash are read as those of a
  mapping on its own, from the second line on.
-/
theorem dash_of_mapping
    (hStandard : scalars.Standard)
    (hCloses : Closes n behind)
    {fuel fuel' : ℕ}
    (hFuel : fuel ≤ fuel')
    {result : List (Str × Value)}
    {reader reader' : Reader}
    (hLines : AreEntries scalars reader.rest)
    (hShifted : Shifted n behind reader reader') :
    Mirrors n behind reader
      (parseMapping scalars fuel 0 result reader)
      (parseDashInlineMapping scalars fuel' n result
        reader') := by
  induction fuel generalizing fuel' result reader reader' with
  | zero => exact mirrors_none
  | succ fuel ih =>
      obtain ⟨more, rfl⟩ :=
        Nat.exists_eq_add_one.mpr
          (Nat.zero_lt_of_lt (Nat.lt_of_succ_le hFuel))
      have hMore := Nat.le_of_succ_le_succ hFuel
      have hSkip := hShifted.skip hCloses
      intro entries last hRun
      cases parseMapping_pass hRun with
      | nil hRest =>
          have hLow := hSkip.head_lt hCloses hRest
          exact ⟨reader.skip_suffix, reader'.skip,
            parseDash_low hLow result, hSkip⟩
      | @stop line _ hRest hStop =>
          -- A line at no indent is an entry, which goes on.
          have hDeep : 0 < indent line := by
            by_contra hFlat
            exact entry_goes hStandard
              (hLines.entry_of_skip hRest hFlat) hStop
          have hStop' : indent (spaces n ++ line) ≠ n := by
            rw [indent_spaces]
            omega
          exact ⟨reader.skip_suffix, reader'.skip,
            parseDash_stop (hSkip.rest_cons hRest)
              (Or.inl hStop') result,
            hSkip⟩
      | @lost line _ _ _ hRest hGo hMatch =>
          rw [not_or, not_not] at hGo
          rcases hLines.entry_of_skip hRest (by omega) with
            ⟨key, rest, hKey, _, rfl⟩
          rw [keyMatch_entry hStandard hKey] at hMatch
          cases hMatch
      | @key line key rest lines value _ after _ hRest hGo
          hMatch hValue hNext =>
          rw [not_or, not_not] at hGo
          have hIndent : indent (spaces n ++ line) = n := by
            rw [indent_spaces, hGo.1, Nat.add_zero]
          rw [← keyMatch_spaces n] at hMatch
          have hNested :=
            (mirrorsAt hCloses scalars fuel).value more hMore
          rcases mirrors_keyValue hCloses hNested
              (shifted_mk ..) 0 (stripComment rest) value after
              hValue with
            ⟨hSuffix, after', hValue', hAfter⟩
          rw [Nat.zero_add] at hValue'
          have hTail := hSuffix.trans (suffix_of_skip hRest)
          have hLines' : AreEntries scalars after.rest :=
            fun line hMem => hLines line (hTail.subset hMem)
          rcases ih hMore hLines' hAfter entries last hNext with
            ⟨hLess, last', hNext', hLast⟩
          refine ⟨hLess.trans hTail, last', ?_, hLast⟩
          rw [parseDash_key (hSkip.rest_cons hRest) hIndent
            hMatch hValue']
          exact hNext'

end AsyncapiDocs.Yaml

------------------------------------------------------------
-- Items of a Sequence
------------------------------------------------------------

namespace AsyncapiDocs.Yaml

open Python (Str Value isSpace strip lstrip rstrip strip_cons
  strip_rstrip)

variable {scalars : Scalars}

/- The items that a sequence has read stay in front. -/
theorem parseSequence_extends
    {fuel base : ℕ}
    {result items : List Value}
    {reader last : Reader}
    (hRun :
      parseSequence scalars fuel base result reader =
        some (items, last)) :
    result <+: items := by
  induction fuel generalizing result reader with
  | zero => cases hRun
  | succ fuel ih =>
      cases parseSequence_pass hRun with
      | nil => exact List.prefix_rfl
      | stop => exact List.prefix_rfl
      | item _ _ _ hMore =>
          exact (List.prefix_append _ _).trans (ih hMore)

theorem strip_dashLine (base : ℕ) (first : Str) :
    strip (spaces base ++ '-' :: ' ' :: first) =
      '-' :: rstrip (' ' :: first) := by
  rw [strip_spaces, strip_cons (by rfl)]

theorem strip_behindDash (first : Str) :
    strip (('-' :: rstrip (' ' :: first)).drop 1) =
      strip first := by
  rw [List.drop_succ_cons, List.drop_zero, strip_rstrip,
    strip_space]

/- The item that the lines are, at the position behind it. -/
def itemOf
    (scalars : Scalars)
    (fuel base : ℕ)
    (first : Str)
    (more behind : List Str)
    (log : List Use) : Option (Value × Reader) :=
  itemValue scalars (parseValue scalars fuel)
    (parseDashInlineMapping scalars fuel (base + 2)) base
    (strip first)
    ⟨indented (base + 2) more ++ behind, log ++ [.item]⟩

theorem skip_itemLines
    (base : ℕ)
    (first : Str)
    (lines : List Str)
    (log : List Use) :
    let line := spaces base ++ '-' :: ' ' :: first
    Reader.skip ⟨line :: lines, log⟩ = ⟨line :: lines, log⟩ := by
  have hBlank :
      isBlank (spaces base ++ '-' :: ' ' :: first) = false := by
    rw [isBlank, strip_dashLine]
    simp [startsWith]
  dsimp only
  rw [Reader.skip, List.dropWhile_cons_of_neg (by simp [hBlank])]

/- A dash at the indent of the sequence starts an item. -/
theorem dashLine_goes (base : ℕ) (first : Str) :
    ¬ (indent (spaces base ++ '-' :: ' ' :: first) ≠ base ∨
      (!startsWith '-'
        (strip (spaces base ++ '-' :: ' ' :: first))) =
          true) := by
  rw [strip_dashLine, indent_spaces, indent_cons (by rfl)]
  simp [startsWith]

theorem parseSequence_itemLines
    {fuel base : ℕ}
    {first : Str}
    {more behind : List Str}
    {before items : List Value}
    {log : List Use}
    {last : Reader}
    (hRun :
      parseSequence scalars (fuel + 1) base before
          ⟨itemLines base first more ++ behind, log⟩ =
        some (items, last)) :
    ∃ value after,
      itemOf scalars fuel base first more behind log =
        some (value, after) ∧
      before ++ [value] <+: items := by
  have hSkip :=
    skip_itemLines base first
      (indented (base + 2) more ++ behind) log
  have hRest := congrArg Reader.rest hSkip
  rcases parseSequence_item_some hRest
      (dashLine_goes base first) hRun with
    ⟨value, after, hValue, hMore⟩
  rw [strip_dashLine, strip_behindDash] at hValue
  have hLog := congrArg Reader.log hSkip
  dsimp only at hLog
  refine ⟨value, after, ?_, parseSequence_extends hMore⟩
  rw [← hValue, itemOf, ← hLog]
  rfl

/- What is read alike is the item behind the dash. -/
theorem readsAlike_iff_itemOf
    (first : Str)
    (more : List Str) :
    ReadsAlike scalars first more ↔
      ∀ base behind log, Closes (base + 2) behind →
        ∃ enough, ∀ fuel, enough ≤ fuel →
          ∃ value after last,
            parseValue scalars (fuel + 1) ⟨first :: more, []⟩ =
                some (value, after) ∧
              itemOf scalars fuel base first more behind log =
                some (value, last) := by
  constructor
  · intro hAlike base behind log hCloses
    rcases hAlike base behind [] log hCloses with
      ⟨enough, hEnough⟩
    refine ⟨enough, fun fuel hFuel => ?_⟩
    rcases hEnough (fuel + 1) (by omega) with
      ⟨value, after, others, last, hOwn, hItems⟩
    rcases parseSequence_itemLines hItems with
      ⟨value', after', hItem, hFront⟩
    rw [List.nil_append, List.nil_append,
      List.cons_prefix_cons] at hFront
    rw [hFront.1] at hItem
    exact ⟨value, after, after', hOwn, hItem⟩
  · intro hAlike base behind before log hCloses
    rcases hAlike base behind log hCloses with
      ⟨enough, hEnough⟩
    let lines := itemLines base first more ++ behind
    refine ⟨max (enough + 1) (2 * lines.length + 1),
      fun fuel hFuel => ?_⟩
    obtain ⟨less, rfl⟩ :=
      Nat.exists_eq_add_one.mpr (show 0 < fuel by omega)
    rcases hEnough less (by omega) with
      ⟨value, after, last, hOwn, hItem⟩
    have hBound : 2 * lines.length + 1 ≤ less + 1 := by omega
    rcases (endsAt scalars (less + 1)).sequence base before
        ⟨lines, log⟩ hBound with
      ⟨items, final, hItems, _⟩
    rcases parseSequence_itemLines hItems with
      ⟨value', after', hItem', others, rfl⟩
    rw [hItem] at hItem'
    cases hItem'
    refine ⟨value, after, others, final, hOwn, ?_⟩
    rw [List.append_assoc] at hItems
    exact hItems

end AsyncapiDocs.Yaml

------------------------------------------------------------
-- The First Entry
------------------------------------------------------------

namespace AsyncapiDocs.Yaml

open Python (Str Value isSpace strip lstrip rstrip
  lstrip_rstrip)

variable {scalars : Scalars}
variable {n : ℕ} {behind : List Str}
variable {nested nested' : Reader → Option (Value × Reader)}

/-
  The value of the first key. Behind a dash it is a scalar, or
  lies deeper than the dash and the space.
-/
theorem mirrors_firstValue
    {more : List Str}
    {log log' : List Use}
    {text : Str}
    (hCloses : Closes n behind)
    (hNested : MirrorsValue n behind nested nested')
    (hBlock : isBlockIndicator text = false)
    (hFlow :
      startsWith '[' text = false ∧
        startsWith '\x7b' text = false)
    (hBelow :
      text = [] →
        ∀ line ∈ (more.dropWhile isBlank).head?,
          0 < indent line) :
    Mirrors n behind ⟨more, log⟩
      (keyValue scalars nested 0 text ⟨more, log⟩)
      (firstValue scalars nested' n text
        ⟨indented n more ++ behind, log'⟩) := by
  have hShifted :
      Shifted n behind ⟨more, log⟩
        ⟨indented n more ++ behind, log'⟩ :=
    shifted_mk more log log'
  unfold keyValue firstValue
  rw [if_neg (by simp [hBlock])]
  by_cases hEmpty : text = []
  · rw [if_pos hEmpty, if_neg (not_not.mpr hEmpty)]
    have hSkip := hShifted.skip hCloses
    refine Mirrors.of_suffix ?_ (Reader.skip_suffix ⟨more, log⟩)
    cases hRest : (Reader.skip ⟨more, log⟩).rest with
    | nil =>
        rw [valueBelow_end (by simp [hRest]),
          valueBelow_end (hSkip.head_lt hCloses hRest)]
        exact Mirrors.of_some List.suffix_rfl hSkip
    | cons line lines =>
        have hDeep : 0 < indent line := by
          apply hBelow hEmpty
          have hMore : more.dropWhile isBlank = line :: lines :=
            hRest
          rw [hMore]
          rfl
        have hIndent := indent_spaces n line
        rw [valueBelow_nested hRest (by omega),
          valueBelow_nested (hSkip.rest_cons hRest) (by omega)]
        apply hNested _ _ hSkip
        rw [Reader.skip_skip, hRest]
        exact List.cons_ne_nil _ _
  · rw [if_neg hEmpty, if_pos hEmpty, if_neg (by simp [hFlow]),
      if_neg (by simp [hFlow])]
    exact Mirrors.of_some List.suffix_rfl hShifted

theorem strip_entry_ne_dash
    (hStandard : scalars.Standard)
    {key : Str}
    (hKey : scalars.IsWrittenKey key)
    (rest : Str) :
    strip (key ++ ':' :: rest) ≠ ['-'] := by
  rw [strip_entry hStandard hKey]
  intro hLone
  have hColon : ':' ∈ ['-'] := by
    rw [← hLone]
    simp
  exact absurd hColon (by decide)

theorem skip_entry
    (hStandard : scalars.Standard)
    {first : Str}
    (hEntry : scalars.IsEntry first)
    (more : List Str)
    (log : List Use) :
    Reader.skip ⟨first :: more, log⟩ = ⟨first :: more, log⟩ := by
  have hBlank := isBlank_entry hStandard hEntry
  rw [Reader.skip, List.dropWhile_cons_of_neg (by simp [hBlank])]

/- Without a dash in front, an entry opens a mapping. -/
theorem parseValue_entry
    (hStandard : scalars.Standard)
    {first : Str}
    (hEntry : scalars.IsEntry first)
    (hDash : startsWith '-' first = false)
    (fuel : ℕ)
    (more : List Str)
    (log : List Use) :
    parseValue scalars (fuel + 1) ⟨first :: more, log⟩ =
      (parseMapping scalars fuel 0 [] ⟨first :: more, log⟩).map
        fun read => (.dict read.1, read.2) := by
  have hGo := entry_goes hStandard hEntry
  rw [not_or, not_not] at hGo
  have hSkip := skip_entry hStandard hEntry more log
  rcases hEntry with ⟨key, rest, hKey, hRest, rfl⟩
  have hStrip := strip_entry hStandard hKey rest
  have hStart : startsWith '-' key = false := by
    rcases writtenKey_first hStandard hKey with ⟨c, back, rfl, _⟩
    exact hDash
  have hLone := strip_entry_ne_dash hStandard hKey rest
  have hMapping :
      isMappingKey (strip (key ++ ':' :: rest)) = true := by
    rw [hStrip, isMappingKey_entry hStandard hKey hRest.rstrip,
      hStart]
    rfl
  rw [parseValue]
  simp only [hSkip, if_neg (not_or.mpr ⟨hGo.2, hLone⟩),
    if_pos hMapping, hGo.1]

/- Without quotes in front, an entry opens one behind a dash. -/
theorem isInlineMapping_entry
    (hStandard : scalars.Standard)
    {key : Str}
    (hKey : scalars.IsWrittenKey key)
    (rest : Str) :
    isInlineMapping (key ++ ':' :: rest) =
      (!startsWith '\'' key && !startsWith '"' key) := by
  rcases writtenKey_first hStandard hKey with
    ⟨c, more, rfl, _, _, hBrace, hBracket⟩
  have hNoBrace : (c == '\x7b') = false :=
    beq_eq_false_iff_ne.mpr hBrace
  have hNoBracket : (c == '[') = false :=
    beq_eq_false_iff_ne.mpr hBracket
  simp [isInlineMapping, startsWith, hNoBrace, hNoBracket]

theorem dashFirst_entry
    (hStandard : scalars.Standard)
    {key : Str}
    (hKey : scalars.IsWrittenKey key)
    (rest : Str)
    (nested : Reader → Option (Value × Reader))
    (continuation : ℕ)
    (reader : Reader) :
    dashFirst scalars nested continuation
        (strip (key ++ ':' :: rest)) reader =
      (firstValue scalars nested continuation
          (stripComment (lstrip rest))
          (reader.note
            (keyUse (scalars.keyName (strip (key ++ ':' :: rest)))
              (stripQuotes key) []))).map
        fun read => ([(stripQuotes key, read.1)], read.2) := by
  have hText :
      stripComment (lstrip (rstrip rest)) =
        stripComment (lstrip rest) := by
    rw [lstrip_rstrip, stripComment_rstrip]
  rw [strip_entry hStandard hKey, dashFirst,
    keyMatch_entry hStandard hKey]
  dsimp only
  rw [hText]
  cases firstValue scalars nested continuation
      (stripComment (lstrip rest))
      (reader.note
        (keyUse (scalars.keyName (key ++ ':' :: rstrip rest))
          (stripQuotes key) [])) <;>
    rfl

end AsyncapiDocs.Yaml

------------------------------------------------------------
-- Mappings That Are Read Alike
------------------------------------------------------------

namespace AsyncapiDocs.Yaml

open Python (Str Value isSpace strip lstrip rstrip)

variable {scalars : Scalars}
variable {behind : List Str}
variable {first : Str}
variable {more : List Str}

theorem itemOf_entry
    (hStandard : scalars.Standard)
    {key : Str}
    (hKey : scalars.IsWrittenKey key)
    (hSingle : startsWith '\'' key = false)
    (hDouble : startsWith '"' key = false)
    (rest : Str)
    (fuel base : ℕ)
    (more behind : List Str)
    (log : List Use) :
    itemOf scalars fuel base (key ++ ':' :: rest) more behind
        log =
      (firstValue scalars (parseValue scalars fuel) (base + 2)
          (stripComment (lstrip rest))
          ⟨indented (base + 2) more ++ behind,
            log ++ [.item] ++
              [keyUse
                (scalars.keyName (strip (key ++ ':' :: rest)))
                (stripQuotes key) []]⟩).bind
        fun read =>
          (parseDashInlineMapping scalars fuel (base + 2)
              [(stripQuotes key, read.1)] read.2).map
            fun entries => (.dict entries.1, entries.2) := by
  have hStrip := strip_entry hStandard hKey rest
  have hSome : strip (key ++ ':' :: rest) ≠ [] := by
    rw [hStrip]
    simp
  have hInline :
      isInlineMapping (strip (key ++ ':' :: rest)) = true := by
    rw [hStrip, isInlineMapping_entry hStandard hKey, hSingle,
      hDouble]
    rfl
  rw [itemOf, itemValue, if_neg hSome, if_pos hInline,
    dashFirst_entry hStandard hKey]
  unfold Reader.note Reader.notes
  dsimp only
  cases firstValue scalars (parseValue scalars fuel) (base + 2)
      (stripComment (lstrip rest))
      ⟨indented (base + 2) more ++ behind,
        log ++ [.item] ++
          [keyUse (scalars.keyName (strip (key ++ ':' :: rest)))
            (stripQuotes key) []]⟩ with
  | none => rfl
  | some read =>
      rw [Option.map_some, Option.bind_some]
      exact (Option.map_eq_bind ..).symm

theorem startsWith_append
    {key : Str}
    (hSome : key ≠ [])
    (c : Char)
    (rest : Str) :
    startsWith c (key ++ rest) = startsWith c key := by
  cases key with
  | nil => exact absurd rfl hSome
  | cons d key => rfl

theorem writtenKey_ne_nil
    (hStandard : scalars.Standard)
    {key : Str}
    (hKey : scalars.IsWrittenKey key) :
    key ≠ [] := by
  rcases writtenKey_first hStandard hKey with ⟨c, back, rfl, _⟩
  exact List.cons_ne_nil _ _

/- The item is read with one call less than the mapping. -/
theorem mirrors_itemOf
    (hStandard : scalars.Standard)
    (hMapping : IsMapping scalars first more)
    (hPlainly : StartsPlainly scalars first more)
    {base : ℕ}
    (hCloses : Closes (base + 2) behind)
    (fuel : ℕ)
    (log : List Use) :
    Mirrors (base + 2) behind ⟨first :: more, []⟩
      (parseValue scalars (fuel + 2) ⟨first :: more, []⟩)
      (itemOf scalars (fuel + 1) base first more behind log) := by
  have hEntry := hMapping.entry
  have hGo := entry_goes hStandard hEntry
  have hSkip := skip_entry hStandard hEntry more []
  rw [parseValue_entry hStandard hEntry hPlainly.dash]
  rcases hEntry with ⟨key, rest, hKey, _, rfl⟩
  have hMatch := keyMatch_entry hStandard hKey rest
  have hSome := writtenKey_ne_nil hStandard hKey
  have hSingle := hPlainly.single
  have hDouble := hPlainly.double
  rw [startsWith_append hSome] at hSingle hDouble
  rw [itemOf_entry hStandard hKey hSingle hDouble]
  intro value after hOwn
  rcases Option.map_eq_some_iff.mp hOwn with
    ⟨⟨entries, last⟩, hRun, hValue⟩
  cases hValue
  have hRest := congrArg Reader.rest hSkip
  rcases parseMapping_key_some hRest hGo hMatch hRun with
    ⟨firstRead, next, hFirst, hNext⟩
  have hNested :=
    (mirrorsAt hCloses scalars fuel).value (fuel + 1)
      (Nat.le_succ fuel)
  rcases mirrors_firstValue hCloses hNested
      (hPlainly.block _ _ hMatch) (hPlainly.flow _ _ hMatch)
      (hPlainly.below _ _ hMatch) firstRead next hFirst with
    ⟨hSuffix, next', hFirst', hShifted⟩
  have hLines : AreEntries scalars next.rest :=
    fun line hMem => hMapping.entries line (hSuffix.subset hMem)
  rcases dash_of_mapping hStandard hCloses (Nat.le_succ fuel)
      hLines hShifted entries last hNext with
    ⟨hLess, last', hNext', hLast⟩
  refine ⟨(hLess.trans hSuffix).trans (List.suffix_cons _ _),
    last', ?_, hLast⟩
  rw [hFirst', Option.bind_some]
  exact congrArg (Option.map _) hNext'

theorem readsAlike_of_startsPlainly
    (hStandard : scalars.Standard)
    (hMapping : IsMapping scalars first more)
    (hPlainly : StartsPlainly scalars first more) :
    ReadsAlike scalars first more := by
  rw [readsAlike_iff_itemOf]
  intro base behind log hCloses
  refine ⟨2 * more.length + 4, fun fuel hFuel => ?_⟩
  obtain ⟨less, rfl⟩ :=
    Nat.exists_eq_add_one.mpr (show 0 < fuel by omega)
  have hSkip := skip_entry hStandard hMapping.entry more []
  have hBound : 2 * (first :: more).length + 2 ≤ less + 2 := by
    rw [List.length_cons]
    omega
  rcases (endsAt scalars (less + 2)).value ⟨first :: more, []⟩
      hBound (by simp [hSkip]) with
    ⟨value, after, hOwn, _⟩
  rcases mirrors_itemOf hStandard hMapping hPlainly hCloses less
      log value after hOwn with
    ⟨_, last, hItem, _⟩
  exact ⟨value, after, last, hOwn, hItem⟩

end AsyncapiDocs.Yaml

------------------------------------------------------------
-- Plain Scalars
------------------------------------------------------------

namespace AsyncapiDocs.Yaml

open Python (Str Value isSpace strip lstrip rstrip)

variable {scalars : Scalars}
variable {first : Str}
variable {more : List Str}

/- All the parts of a plain scalar. -/
def plainText (first : Str) (more : List Str) : Str :=
  [' '].intercalate ((first :: more).map strip)

theorem plainLines_goesOn
    {parts lines : List Str}
    (hSome : parts ≠ [])
    (hLines :
      ∀ line ∈ lines, endsPlain 0 [strip first] line = false)
    (log : List Use) :
    (plainLines 0 parts lines log).1 =
      parts ++ lines.map strip := by
  induction lines generalizing parts log with
  | nil => rw [plainLines, List.map_nil, List.append_nil]
  | cons line lines ih =>
      have hLine := hLines line List.mem_cons_self
      have hGo : endsPlain 0 parts line = false := by
        rw [← hLine]
        simp [endsPlain, hSome]
      rw [plainLines, hGo, if_neg Bool.false_ne_true, ih]
      · simp
      · simp
      · exact fun line' hMem =>
          hLines line' (List.mem_cons_of_mem line hMem)

theorem IsPlainScalar.not_flow
    (hScalar : IsPlainScalar first more) :
    startsWith '[' (strip first) = false ∧
      startsWith '\x7b' (strip first) = false := by
  have hPlain := hScalar.plain
  unfold startsWith
  cases hHead : (strip first).head? with
  | none => exact ⟨rfl, rfl⟩
  | some c =>
      have hChar := hPlain c hHead
      simp [hChar]

theorem parseValue_plain
    (scalars : Scalars)
    (hScalar : IsPlainScalar first more)
    (fuel : ℕ)
    (log : List Use) :
    ∃ after,
      parseValue scalars (fuel + 1) ⟨first :: more, log⟩ =
        some (scalars.scalar (plainText first more), after) := by
  have hSkip :
      Reader.skip ⟨first :: more, log⟩ =
        ⟨first :: more, log⟩ := by
    rw [Reader.skip,
      List.dropWhile_cons_of_neg (by simp [hScalar.blank])]
  have hFront := hScalar.not_flow
  have hEnds : endsPlain 0 [] first = false := by
    simp [endsPlain, hScalar.blank]
  have hText :
      (plainLines 0 [] (first :: more) log).1 =
        strip first :: more.map strip := by
    rw [plainLines, hEnds, if_neg Bool.false_ne_true,
      List.nil_append]
    exact plainLines_goesOn (List.cons_ne_nil _ _)
      hScalar.goesOn _
  rw [parseValue]
  simp only [hSkip, hScalar.start, hScalar.dash, hScalar.key,
    hScalar.lone, hFront, Bool.false_eq_true, or_self, if_false]
  refine
    ⟨(plainScalar scalars 0 ⟨first :: more, log⟩).2, ?_⟩
  unfold plainScalar
  dsimp only
  rw [hText]
  rfl

/- What is a comment stays one before further text. -/
theorem beforeComment_append
    {inSingle inDouble starts : Bool}
    {s front : Str}
    (hBefore :
      beforeComment inSingle inDouble starts s = some front)
    (text : Str) :
    beforeComment inSingle inDouble starts (s ++ text) =
      some front := by
  induction s generalizing inSingle inDouble starts front with
  | nil => cases hBefore
  | cons c s ih =>
      rw [List.cons_append, beforeComment]
      rw [beforeComment] at hBefore
      split_ifs at hBefore ⊢
      · rcases Option.map_eq_some_iff.mp hBefore with
          ⟨back, hBack, rfl⟩
        rw [ih hBack]
        rfl
      · rcases Option.map_eq_some_iff.mp hBefore with
          ⟨back, hBack, rfl⟩
        rw [ih hBack]
        rfl
      · exact hBefore
      · rcases Option.map_eq_some_iff.mp hBefore with
          ⟨back, hBack, rfl⟩
        rw [ih hBack]
        rfl

theorem intercalate_cons_append
    (s : Str)
    (parts : List Str) :
    ∃ text, [' '].intercalate (s :: parts) = s ++ text := by
  cases parts with
  | nil => exact ⟨[], by simp⟩
  | cons part parts =>
      rw [List.intercalate_cons_cons, List.append_assoc]
      exact ⟨_, rfl⟩

/- Lines behind a comment say nothing. -/
theorem scalar_plainText
    (h : more = [] ∨ hasComment (strip first) = true) :
    scalars.scalar (plainText first more) =
      scalars.scalar (strip first) := by
  unfold plainText
  rcases h with rfl | hComment
  · simp
  · rcases Option.isSome_iff_exists.mp hComment with
      ⟨front, hFront⟩
    rcases intercalate_cons_append (strip first)
        (more.map strip) with
      ⟨text, hText⟩
    have hSame :
        stripComment (strip first ++ text) =
          stripComment (strip first) := by
      rw [stripComment, stripComment,
        beforeComment_append hFront, hFront]
      rfl
    rw [List.map_cons, hText, Scalars.scalar, Scalars.scalar,
      hSame]

theorem strip_ne_nil_of_isBlank
    (hBlank : isBlank first = false) :
    strip first ≠ [] := by
  intro hNil
  simp [isBlank, hNil] at hBlank

theorem itemOf_plain
    (scalars : Scalars)
    (hScalar : IsPlainScalar first more)
    (hColon : ':' ∉ strip first)
    (fuel base : ℕ)
    (behind : List Str)
    (log : List Use) :
    ∃ last,
      itemOf scalars fuel base first more behind log =
        some (scalars.scalar (strip first), last) := by
  have hSome := strip_ne_nil_of_isBlank hScalar.blank
  have hInline : isInlineMapping (strip first) = false := by
    simp [isInlineMapping, hColon]
  have hFront := hScalar.not_flow
  rw [itemOf, itemValue, if_neg hSome, hInline,
    if_neg Bool.false_ne_true, dashScalar, hFront.1, hFront.2,
    if_neg Bool.false_ne_true, if_neg Bool.false_ne_true]
  exact ⟨_, rfl⟩

theorem readsAlike_of_staysPlain
    (hScalar : IsPlainScalar first more)
    (hPlain : StaysPlain first more) :
    ReadsAlike scalars first more := by
  rw [readsAlike_iff_itemOf]
  intro base behind log _
  refine ⟨0, fun fuel _ => ?_⟩
  rcases parseValue_plain scalars hScalar fuel [] with
    ⟨after, hOwn⟩
  rcases itemOf_plain scalars hScalar hPlain.1 fuel base behind
      log with
    ⟨last, hItem⟩
  rw [scalar_plainText hPlain.2] at hOwn
  exact ⟨_, after, last, hOwn, hItem⟩

end AsyncapiDocs.Yaml
