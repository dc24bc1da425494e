import DsxExchange.AsyncapiDocs.YamlItems

/-
  The values that are read alike on their own and as items of
  a sequence: mappings whose first entry starts plainly, and
  plain scalars without a colon on one line.

  Key definitions include:
    * `AsyncapiDocs.Yaml.Lacks`

  Key theorems include:
    * `AsyncapiDocs.Yaml.exists_firstValue`
    * `AsyncapiDocs.Yaml.startsPlainly_of_readsAlike`,
      `AsyncapiDocs.Yaml.staysPlain_of_readsAlike`
    * `AsyncapiDocs.Yaml.readsAlike_iff`
-/

------------------------------------------------------------
-- What a Scalar Is Not
------------------------------------------------------------

namespace AsyncapiDocs.Yaml

open Python (Str Value isSpace strip lstrip rstrip)

variable {scalars : Scalars}

theorem scalar_ne_dict
    (text : Str)
    (entries : List (Str × Value)) :
    scalars.scalar text ≠ .dict entries := by
  unfold Scalars.scalar Scalars.number
  dsimp only
  repeat' split
  all_goals
    intro hDict
    cases hDict

/- A text that no quotes are around. -/
def Bare (text : Str) : Prop :=
  text ≠ [] ∧ ∀ c ∈ text.head?, c ≠ '\'' ∧ c ≠ '"'

theorem Bare.not_isWithin
    {text : Str}
    (hBare : Bare text) :
    (isWithin '\'' text || isWithin '"' text) = false := by
  cases text with
  | nil => exact absurd rfl hBare.1
  | cons c text =>
      have hChar := hBare.2 c rfl
      simp [isWithin, startsWith, hChar]

theorem scalar_bare
    {text : Str}
    (hBare : Bare (stripComment text))
    {s : Str}
    (hScalar : scalars.scalar text = .str s) :
    s = stripComment text := by
  unfold Scalars.scalar at hScalar
  dsimp only at hScalar
  rw [if_neg hBare.1, hBare.not_isWithin,
    if_neg Bool.false_ne_true] at hScalar
  split at hScalar
  · cases hScalar
  split at hScalar
  · cases hScalar
  split at hScalar
  · cases hScalar
  unfold Scalars.number at hScalar
  split at hScalar <;> split at hScalar <;> cases hScalar <;>
    rfl

/- A text with a space or a dash is none of the words. -/
theorem scalar_words
    (hStandard : scalars.Standard)
    {text : Str}
    (hBare : Bare (stripComment text))
    {c : Char}
    (hChar : c = ' ' ∨ c = '-')
    (hMem : c ∈ stripComment text) :
    scalars.scalar text =
      scalars.number (stripComment text) := by
  have hLower := hStandard.lower _ c hChar hMem
  have hWord :
      ∀ word, c ∉ word →
        scalars.lower (stripComment text) ≠ word := by
    rintro word hNot rfl
    exact hNot hLower
  have hWords :
      c ∉ "null".toList ∧ c ∉ "~".toList ∧
        c ∉ "true".toList ∧ c ∉ "false".toList := by
    rcases hChar with rfl | rfl <;> decide
  unfold Scalars.scalar
  dsimp only
  rw [if_neg hBare.1, hBare.not_isWithin,
    if_neg Bool.false_ne_true,
    if_neg (not_or.mpr
      ⟨hWord _ hWords.1, hWord _ hWords.2.1⟩),
    if_neg (hWord _ hWords.2.2.1),
    if_neg (hWord _ hWords.2.2.2)]

theorem number_ne_none (text : Str) :
    scalars.number text ≠ .none := by
  unfold Scalars.number
  split <;> split
  all_goals
    intro hNone
    cases hNone

/- No text with a space inside is a number. -/
theorem number_spaced
    (hStandard : scalars.Standard)
    {text : Str}
    (hStrip : strip text = text)
    (hMem : ' ' ∈ text) :
    scalars.number text = .str text := by
  unfold Scalars.number
  rw [hStandard.toInt text hStrip hMem,
    hStandard.toFloat text hStrip hMem]
  exact ite_self _

end AsyncapiDocs.Yaml

------------------------------------------------------------
-- The First Entry Stays
------------------------------------------------------------

namespace AsyncapiDocs.Yaml

open Python (Str Value isSpace strip lstrip rstrip)

variable {scalars : Scalars}
variable {fuel base : ℕ}
variable {key : Str} {value : Value}

/- No line at the indent has the key. -/
def Lacks
    (scalars : Scalars)
    (key : Str)
    (base : ℕ)
    (lines : List Str) : Prop :=
  ∀ line ∈ lines, isBlank line = false → indent line = base →
    ∀ rest, scalars.keyMatch line ≠ some (key, rest)

theorem Lacks.of_suffix
    {lines lines' : List Str}
    (hLacks : Lacks scalars key base lines)
    (hSuffix : lines' <:+ lines) :
    Lacks scalars key base lines' :=
  fun line hMem => hLacks line (hSuffix.subset hMem)

/- The key of a line that is read is not the first one. -/
theorem Lacks.ne
    {reader : Reader}
    {line other rest : Str}
    {lines : List Str}
    (hLacks : Lacks scalars key base reader.rest)
    (hRest : reader.skip.rest = line :: lines)
    (hIndent : indent line = base)
    (hMatch : scalars.keyMatch line = some (other, rest)) :
    key ≠ other := by
  rintro rfl
  exact hLacks line (mem_of_skip hRest) (isBlank_of_skip hRest)
    hIndent rest hMatch

theorem Lacks.indented
    {lines : List Str}
    (hLacks : Lacks scalars key base lines)
    (n : ℕ) :
    Lacks scalars key (n + base) (indented n lines) := by
  intro line hMem hBlank hIndent rest
  rcases List.mem_map.mp hMem with ⟨line', hLine, rfl⟩
  rw [isBlank_spaces] at hBlank
  rw [indent_spaces, Nat.add_left_cancel_iff] at hIndent
  rw [keyMatch_spaces]
  exact hLacks line' hLine hBlank hIndent rest

/- The value of a key leaves some of the lines. -/
theorem keyValue_suffix
    {rest : Str}
    {reader after : Reader}
    (hValue :
      keyValue scalars (parseValue scalars fuel) base rest
          reader =
        some (value, after)) :
    after.rest <:+ reader.rest := by
  have hShifted : Shifted 0 [] reader reader := by
    simp [Shifted, indented, spaces]
  have hNested :=
    (mirrorsAt (closes_nil 0) scalars fuel).value fuel
      (Nat.le_refl fuel)
  exact (mirrors_keyValue (closes_nil 0) hNested hShifted base rest
    value after hValue).1

theorem head_setEntry
    {other : Str}
    (hOther : key ≠ other)
    (new : Value)
    {result : List (Str × Value)}
    (hHead : result.head? = some (key, value)) :
    (Python.setEntry other new result).head? =
      some (key, value) := by
  cases result with
  | nil => cases hHead
  | cons entry result =>
      cases hHead
      rw [Python.setEntry, if_neg hOther]
      rfl

theorem parseMapping_head
    {result entries : List (Str × Value)}
    {reader last : Reader}
    (hHead : result.head? = some (key, value))
    (hLacks : Lacks scalars key base reader.rest)
    (hRun :
      parseMapping scalars fuel base result reader =
        some (entries, last)) :
    entries.head? = some (key, value) := by
  induction fuel generalizing result reader with
  | zero => cases hRun
  | succ fuel ih =>
      cases parseMapping_pass hRun with
      | nil => exact hHead
      | stop => exact hHead
      | lost hRest _ _ hMore =>
          exact ih hHead (hLacks.of_suffix (suffix_of_skip hRest))
            hMore
      | @key _ _ _ _ new _ _ _ hRest hGo hMatch hValue hMore =>
          rw [not_or, not_not] at hGo
          have hNew := hLacks.ne hRest hGo.1 hMatch
          have hSuffix :=
            (keyValue_suffix hValue).trans (suffix_of_skip hRest)
          exact ih (head_setEntry hNew new hHead)
            (hLacks.of_suffix hSuffix) hMore

theorem parseDash_head
    {result entries : List (Str × Value)}
    {reader last : Reader}
    (hHead : result.head? = some (key, value))
    (hLacks : Lacks scalars key base reader.rest)
    (hRun :
      parseDashInlineMapping scalars fuel base result reader =
        some (entries, last)) :
    entries.head? = some (key, value) := by
  induction fuel generalizing result reader with
  | zero => cases hRun
  | succ fuel ih =>
      cases parseDash_pass hRun with
      | nil => exact hHead
      | stop => exact hHead
      | @key _ _ _ _ new _ _ _ hRest hIndent hMatch hValue
          hMore =>
          have hNew := hLacks.ne hRest hIndent hMatch
          have hSuffix :=
            (keyValue_suffix hValue).trans (suffix_of_skip hRest)
          exact ih (head_setEntry hNew new hHead)
            (hLacks.of_suffix hSuffix) hMore

end AsyncapiDocs.Yaml

------------------------------------------------------------
-- The First Key in Both Readings
------------------------------------------------------------

namespace AsyncapiDocs.Yaml

open Python (Str Value isSpace strip lstrip rstrip)

variable {scalars : Scalars}
variable {fuel n : ℕ}
variable {key rest : Str}
variable {more : List Str}
variable {value : Value}

/- Distinct keys: that of the first line is on no other. -/
theorem lacks_of_distinct
    (hStandard : scalars.Standard)
    (hKey : scalars.IsWrittenKey key)
    (hMapping :
      IsMapping scalars (key ++ ':' :: rest) more) :
    Lacks scalars (stripQuotes key) 0 more := by
  have hEntry := hMapping.entry
  have hFirst :
      entryKey scalars (key ++ ':' :: rest) =
        some (stripQuotes key) := by
    rw [entryKey, if_pos ⟨isBlank_entry hStandard hEntry,
      indent_entry hStandard hEntry⟩,
      keyMatch_entry hStandard hKey]
    rfl
  have hDistinct := hMapping.distinct
  rw [List.filterMap_cons_some hFirst, List.nodup_cons]
    at hDistinct
  intro line hMem hBlank hIndent back hMatch
  apply hDistinct.1
  rw [List.mem_filterMap]
  refine ⟨line, hMem, ?_⟩
  rw [entryKey, if_pos ⟨hBlank, hIndent⟩, hMatch]
  rfl

theorem own_of_mapping
    (hStandard : scalars.Standard)
    (hKey : scalars.IsWrittenKey key)
    (hDash : startsWith '-' key = false)
    (hMapping :
      IsMapping scalars (key ++ ':' :: rest) more)
    {after : Reader}
    (hOwn :
      parseValue scalars (fuel + 2)
          ⟨(key ++ ':' :: rest) :: more, []⟩ =
        some (value, after)) :
    ∃ log first next entries,
      keyValue scalars (parseValue scalars fuel) 0
          (stripComment (lstrip rest)) ⟨more, log⟩ =
        some (first, next) ∧
      value = .dict entries ∧
      entries.head? = some (stripQuotes key, first) := by
  have hEntry := hMapping.entry
  have hSkip := skip_entry hStandard hEntry more []
  have hRest := congrArg Reader.rest hSkip
  have hSome := writtenKey_ne_nil hStandard hKey
  rw [parseValue_entry hStandard hEntry
    (by rwa [startsWith_append hSome])] at hOwn
  rcases Option.map_eq_some_iff.mp hOwn with
    ⟨⟨entries, last⟩, hRun, hValue⟩
  cases hValue
  rcases parseMapping_key_some hRest
      (entry_goes hStandard hEntry)
      (keyMatch_entry hStandard hKey rest) hRun with
    ⟨first, next, hFirst, hNext⟩
  rw [hSkip] at hFirst
  have hLacks :=
    (lacks_of_distinct hStandard hKey hMapping).of_suffix
      (keyValue_suffix hFirst)
  exact ⟨_, first, next, entries, hFirst, rfl,
    parseMapping_head (by rfl) hLacks hNext⟩

theorem firstValue_suffix
    {text : Str}
    {reader after : Reader}
    (hValue :
      firstValue scalars (parseValue scalars fuel) (n + 1) text
          reader =
        some (value, after)) :
    after.rest <:+ reader.rest := by
  unfold firstValue at hValue
  split at hValue
  · cases hValue
    exact List.suffix_rfl
  · have hBelow :
        keyValue scalars (parseValue scalars fuel) n [] reader =
          some (value, after) :=
      hValue
    exact keyValue_suffix hBelow

theorem item_of_mapping
    (hStandard : scalars.Standard)
    (hKey : scalars.IsWrittenKey key)
    (hSingle : startsWith '\'' key = false)
    (hDouble : startsWith '"' key = false)
    (hMapping :
      IsMapping scalars (key ++ ':' :: rest) more)
    {last : Reader}
    (hItem :
      itemOf scalars fuel 0 (key ++ ':' :: rest) more [] [] =
        some (value, last)) :
    ∃ log first next entries,
      firstValue scalars (parseValue scalars fuel) 2
          (stripComment (lstrip rest))
          ⟨indented 2 more, log⟩ =
        some (first, next) ∧
      value = .dict entries ∧
      entries.head? = some (stripQuotes key, first) := by
  rw [itemOf_entry hStandard hKey hSingle hDouble,
    List.append_nil] at hItem
  rcases Option.bind_eq_some_iff.mp hItem with
    ⟨⟨first, next⟩, hFirst, hMore⟩
  rcases Option.map_eq_some_iff.mp hMore with
    ⟨⟨entries, final⟩, hRun, hValue⟩
  cases hValue
  have hLacks :=
    ((lacks_of_distinct hStandard hKey hMapping).indented
      2).of_suffix (firstValue_suffix hFirst)
  exact ⟨_, first, next, entries, hFirst, rfl,
    parseDash_head (by rfl) hLacks hRun⟩

/- Both readings of lines, with a bound that is enough. -/
theorem exists_readings
    {first : Str}
    (hAlike : ReadsAlike scalars first more) :
    ∃ fuel value after last,
      parseValue scalars (fuel + 2) ⟨first :: more, []⟩ =
          some (value, after) ∧
        itemOf scalars (fuel + 1) 0 first more [] [] =
          some (value, last) := by
  rw [readsAlike_iff_itemOf] at hAlike
  rcases hAlike 0 [] [] (closes_nil 2) with ⟨enough, hEnough⟩
  rcases hEnough (enough + 1) (Nat.le_succ enough) with
    ⟨value, after, last, hOwn, hItem⟩
  exact ⟨enough, value, after, last, hOwn, hItem⟩

/- The first key has the same value in both readings. -/
theorem exists_firstValue
    (hStandard : scalars.Standard)
    (hKey : scalars.IsWrittenKey key)
    (hMapping :
      IsMapping scalars (key ++ ':' :: rest) more)
    (hDash : startsWith '-' key = false)
    (hSingle : startsWith '\'' key = false)
    (hDouble : startsWith '"' key = false)
    (hAlike :
      ReadsAlike scalars (key ++ ':' :: rest) more) :
    ∃ fuel log log' first next next',
      keyValue scalars (parseValue scalars fuel) 0
          (stripComment (lstrip rest)) ⟨more, log⟩ =
        some (first, next) ∧
      firstValue scalars (parseValue scalars (fuel + 1)) 2
          (stripComment (lstrip rest))
          ⟨indented 2 more, log'⟩ =
        some (first, next') := by
  rcases exists_readings hAlike with
    ⟨fuel, value, after, last, hOwn, hItem⟩
  rcases own_of_mapping hStandard hKey hDash hMapping hOwn with
    ⟨log, first, next, entries, hFirst, rfl, hHead⟩
  rcases item_of_mapping hStandard hKey hSingle hDouble hMapping
      hItem with
    ⟨log', first', next', entries', hFirst', hEntries, hHead'⟩
  cases hEntries
  rw [hHead] at hHead'
  cases hHead'
  exact ⟨fuel, log, log', first, next, next', hFirst, hFirst'⟩

end AsyncapiDocs.Yaml

------------------------------------------------------------
-- Mappings That Are Not Read Alike
------------------------------------------------------------

namespace AsyncapiDocs.Yaml

open Python (Str Value isSpace strip lstrip rstrip strip_cons)

variable {scalars : Scalars}
variable {key rest : Str}
variable {more : List Str}

theorem plainLines_extends
    (base : ℕ)
    (parts lines : List Str)
    (log : List Use) :
    parts <+: (plainLines base parts lines log).1 := by
  induction lines generalizing parts log with
  | nil => exact List.prefix_rfl
  | cons line lines ih =>
      rw [plainLines]
      split
      · exact List.prefix_rfl
      · exact (List.prefix_append _ _).trans (ih _ _)

/- An entry with a dash in front is read as a plain scalar. -/
theorem parseValue_dashed
    (hStandard : scalars.Standard)
    (hKey : scalars.IsWrittenKey key)
    (hBack : IsBehindColon rest)
    (hDash : startsWith '-' key = true)
    {reader : Reader}
    {n : ℕ}
    {lines : List Str}
    (hRest :
      reader.skip.rest =
        (spaces n ++ (key ++ ':' :: rest)) :: lines)
    (fuel : ℕ) :
    ∃ text after,
      parseValue scalars (fuel + 1) reader =
          some (scalars.scalar text, after) ∧
        text.head? = some '-' := by
  have hEntry : scalars.IsEntry (key ++ ':' :: rest) :=
    ⟨key, rest, hKey, hBack, rfl⟩
  have hGo := entry_goes hStandard hEntry
  rw [not_or, not_not] at hGo
  have hStrip := strip_entry hStandard hKey rest
  have hLone := strip_entry_ne_dash hStandard hKey rest
  have hMapping :
      isMappingKey (strip (key ++ ':' :: rest)) = false := by
    rw [hStrip, isMappingKey_entry hStandard hKey hBack.rstrip,
      hDash]
    rfl
  have hHead :
      (strip (key ++ ':' :: rest)).head? = some '-' := by
    rw [hStrip]
    rcases writtenKey_first hStandard hKey with ⟨c, back, rfl, _⟩
    simpa [startsWith] using hDash
  have hBrace :
      startsWith '\x7b' (strip (key ++ ':' :: rest)) = false := by
    rw [startsWith, hHead]
    rfl
  have hBracket :
      startsWith '[' (strip (key ++ ':' :: rest)) = false := by
    rw [startsWith, hHead]
    rfl
  have hBlank := isBlank_entry hStandard hEntry
  rw [parseValue]
  simp only [hRest, strip_spaces, indent_spaces, hGo, hLone,
    hMapping, hBrace, hBracket, Bool.false_eq_true, or_self,
    if_false]
  unfold plainScalar
  dsimp only
  have hEnds :
      endsPlain (n + 0) [] (spaces n ++ (key ++ ':' :: rest)) =
        false := by
    simp [endsPlain, hBlank, indent_spaces]
  rw [hRest, plainLines, hEnds, if_neg Bool.false_ne_true,
    strip_spaces, List.nil_append]
  refine ⟨_, _, rfl, ?_⟩
  rcases plainLines_extends (n + 0)
      [strip (key ++ ':' :: rest)] lines
      (reader.skip.log ++
        partUse [] (spaces n ++ (key ++ ':' :: rest))) with
    ⟨parts, hParts⟩
  rcases intercalate_cons_append (strip (key ++ ':' :: rest))
      parts with
    ⟨text, hText⟩
  rw [← hParts, List.singleton_append, hText]
  cases hLine : strip (key ++ ':' :: rest) with
  | nil =>
      rw [hLine] at hHead
      cases hHead
  | cons c back =>
      rw [hLine] at hHead
      exact hHead

/- A text that starts with a dash keeps it. -/
theorem stripComment_dashed
    {text : Str}
    (hHead : text.head? = some '-') :
    (stripComment text).head? = some '-' := by
  cases text with
  | nil => cases hHead
  | cons c text =>
      cases hHead
      unfold stripComment
      rw [beforeComment, if_neg (by decide), if_neg (by decide),
        if_neg (by decide)]
      cases beforeComment false false (decide ('-' = ' ')) text with
      | none =>
          rw [Option.map_none, Option.getD_none,
            strip_cons (by rfl)]
          rfl
      | some front =>
          rw [Option.map_some, Option.getD_some,
            strip_cons (by rfl)]
          rfl

theorem scalar_dashed_ne_none
    (hStandard : scalars.Standard)
    {text : Str}
    (hHead : text.head? = some '-') :
    scalars.scalar text ≠ .none := by
  have hStart := stripComment_dashed hHead
  have hMem : '-' ∈ stripComment text :=
    List.mem_of_head? hStart
  have hBare : Bare (stripComment text) := by
    refine ⟨List.ne_nil_of_mem hMem, ?_⟩
    rw [hStart]
    rintro c ⟨⟩
    decide
  rw [scalar_words hStandard hBare (Or.inr rfl) hMem]
  exact number_ne_none _

/- An entry, wherever it is, is read as something. -/
theorem parseValue_entry_ne_none
    (hStandard : scalars.Standard)
    {line : Str}
    (hEntry : scalars.IsEntry line)
    {reader : Reader}
    {n fuel : ℕ}
    {lines : List Str}
    {value : Value}
    {after : Reader}
    (hRest : reader.skip.rest = (spaces n ++ line) :: lines)
    (hValue :
      parseValue scalars fuel reader = some (value, after)) :
    value ≠ .none := by
  cases fuel with
  | zero => cases hValue
  | succ fuel =>
      have hGo := entry_goes hStandard hEntry
      rw [not_or, not_not] at hGo
      rcases hEntry with ⟨key, rest, hKey, hBack, rfl⟩
      cases hDash : startsWith '-' key with
      | true =>
          rcases parseValue_dashed hStandard hKey hBack hDash
              hRest fuel with
            ⟨text, last, hScalar, hHead⟩
          rw [hScalar] at hValue
          cases hValue
          exact scalar_dashed_ne_none hStandard hHead
      | false =>
          have hMapping :
              isMappingKey (strip (key ++ ':' :: rest)) =
                true := by
            rw [strip_entry hStandard hKey,
              isMappingKey_entry hStandard hKey hBack.rstrip,
              hDash]
            rfl
          rw [parseValue] at hValue
          simp only [hRest, strip_spaces, hGo, hMapping,
            if_true] at hValue
          split at hValue
          all_goals
            rcases Option.map_eq_some_iff.mp hValue with
              ⟨read, _, hRead⟩
            cases hRead
            intro hNone
            cases hNone

end AsyncapiDocs.Yaml

------------------------------------------------------------
-- Conditions for Mappings
------------------------------------------------------------

namespace AsyncapiDocs.Yaml

open Python (Str Value isSpace strip lstrip rstrip)

variable {scalars : Scalars}
variable {key rest : Str}
variable {more : List Str}

/- Behind a dash a quoted key is no key. -/
theorem not_quoted_of_readsAlike
    (hStandard : scalars.Standard)
    (hKey : scalars.IsWrittenKey key)
    (hBack : IsBehindColon rest)
    (hAlike :
      ReadsAlike scalars (key ++ ':' :: rest) more) :
    startsWith '\'' key = false ∧ startsWith '"' key = false := by
  rw [← Bool.or_eq_false_iff, Bool.eq_false_iff]
  intro hQuoted
  have hEntry : scalars.IsEntry (key ++ ':' :: rest) :=
    ⟨key, rest, hKey, hBack, rfl⟩
  have hSome := writtenKey_ne_nil hStandard hKey
  have hStrip := strip_entry hStandard hKey rest
  have hOther :
      startsWith '-' key = false ∧ startsWith '[' key = false ∧
        startsWith '\x7b' key = false := by
    cases key with
    | nil => exact absurd rfl hSome
    | cons c key =>
        rw [Bool.or_eq_true] at hQuoted
        simp only [startsWith, List.head?_cons, beq_iff_eq,
          Option.some_inj] at hQuoted
        rcases hQuoted with rfl | rfl <;> simp [startsWith]
  rcases exists_readings hAlike with
    ⟨fuel, value, after, last, hOwn, hItem⟩
  have hInline :
      isInlineMapping (strip (key ++ ':' :: rest)) = false := by
    rw [hStrip, isInlineMapping_entry hStandard hKey,
      ← Bool.not_or, hQuoted]
    rfl
  have hNone : strip (key ++ ':' :: rest) ≠ [] := by
    rw [hStrip]
    simp
  rw [itemOf, itemValue, if_neg hNone, hInline,
    if_neg Bool.false_ne_true, dashScalar, hStrip,
    startsWith_append hSome, startsWith_append hSome,
    hOther.2.1, hOther.2.2, if_neg Bool.false_ne_true,
    if_neg Bool.false_ne_true] at hItem
  cases hItem
  rw [parseValue_entry hStandard hEntry
    (by rw [startsWith_append hSome, hOther.1])] at hOwn
  rcases Option.map_eq_some_iff.mp hOwn with ⟨read, _, hRead⟩
  rw [Prod.mk.injEq] at hRead
  exact scalar_ne_dict _ _ hRead.1.symm

/- On its own an entry with a dash in front is no mapping. -/
theorem not_dashed_of_readsAlike
    (hStandard : scalars.Standard)
    (hKey : scalars.IsWrittenKey key)
    (hBack : IsBehindColon rest)
    (hAlike :
      ReadsAlike scalars (key ++ ':' :: rest) more) :
    startsWith '-' key = false := by
  rw [Bool.eq_false_iff]
  intro hDash
  have hEntry : scalars.IsEntry (key ++ ':' :: rest) :=
    ⟨key, rest, hKey, hBack, rfl⟩
  have hQuotes :=
    not_quoted_of_readsAlike hStandard hKey hBack hAlike
  rcases exists_readings hAlike with
    ⟨fuel, value, after, last, hOwn, hItem⟩
  have hSkip := skip_entry hStandard hEntry more []
  have hRest :
      (Reader.skip ⟨(key ++ ':' :: rest) :: more, []⟩).rest =
        (spaces 0 ++ (key ++ ':' :: rest)) :: more := by
    rw [hSkip]
    rfl
  rcases parseValue_dashed hStandard hKey hBack hDash hRest
      (fuel + 1) with
    ⟨text, after', hScalar, _⟩
  rw [hScalar] at hOwn
  cases hOwn
  rw [itemOf_entry hStandard hKey hQuotes.1 hQuotes.2] at hItem
  rcases Option.bind_eq_some_iff.mp hItem with ⟨_, _, hMore⟩
  rcases Option.map_eq_some_iff.mp hMore with ⟨_, _, hRead⟩
  rw [Prod.mk.injEq] at hRead
  exact scalar_ne_dict _ _ hRead.1.symm

theorem blockText_last
    (indicator : Str)
    (lines : List Str) :
    blockText indicator lines = [] ∨
      (blockText indicator lines).getLast? = some '\n' := by
  unfold blockText
  dsimp only
  split_ifs
  all_goals first
    | exact Or.inl rfl
    | exact Or.inr (List.getLast?_concat ..)

/- An indicator is a scalar that no block has as its text. -/
theorem isBlockIndicator_spec
    {text : Str}
    (hBlock : isBlockIndicator text = true) :
    stripComment text = text ∧ Bare text ∧
      text.getLast? ≠ some '\n' := by
  have hCases :
      text = ['|'] ∨ text = ['>'] ∨ text = ['|', '+'] ∨
        text = ['>', '+'] ∨ text = ['|', '-'] ∨
        text = ['>', '-'] := by
    simpa [isBlockIndicator] using hBlock
  rcases hCases with rfl | rfl | rfl | rfl | rfl | rfl <;>
    exact ⟨by decide, ⟨by decide, by rintro c ⟨⟩; decide⟩,
      by decide⟩

theorem not_block_of_firstValue
    {nested nested' : Reader → Option (Value × Reader)}
    {text : Str}
    {base n : ℕ}
    {first : Value}
    {reader reader' next next' : Reader}
    (hFirst :
      keyValue scalars nested base text reader =
        some (first, next))
    (hFirst' :
      firstValue scalars nested' n text reader' =
        some (first, next')) :
    isBlockIndicator text = false := by
  rw [Bool.eq_false_iff]
  intro hBlock
  rcases isBlockIndicator_spec hBlock with
    ⟨hText, hBare, hLast⟩
  rw [keyValue, if_pos hBlock, blockScalar, Option.some_inj,
    Prod.mk.injEq] at hFirst
  rw [firstValue, if_pos hBare.1, Option.some_inj, Prod.mk.injEq,
    ← hFirst.1] at hFirst'
  have hSame := scalar_bare (by rwa [hText]) hFirst'.1
  rw [hText] at hSame
  rcases blockText_last text
      (blockLines base none reader.rest).1 with hNone | hNewline
  · rw [hSame] at hNone
    exact hBare.1 hNone
  · rw [hSame] at hNewline
    exact hLast hNewline

theorem exists_inlineFlowSeq
    (scalars : Scalars)
    (text : Str) :
    ∃ items, scalars.inlineFlowSeq text = .list items := by
  unfold Scalars.inlineFlowSeq
  dsimp only
  split_ifs <;> exact ⟨_, rfl⟩

theorem exists_inlineFlowMap
    (scalars : Scalars)
    (text : Str) :
    ∃ entries, scalars.inlineFlowMap text = .dict entries := by
  unfold Scalars.inlineFlowMap
  dsimp only
  split_ifs <;> exact ⟨_, rfl⟩

theorem not_flow_of_firstValue
    {nested nested' : Reader → Option (Value × Reader)}
    {text : Str}
    {base n : ℕ}
    {first : Value}
    {reader reader' next next' : Reader}
    (hFirst :
      keyValue scalars nested base text reader =
        some (first, next))
    (hFirst' :
      firstValue scalars nested' n text reader' =
        some (first, next')) :
    startsWith '[' text = false ∧
      startsWith '\x7b' text = false := by
  have hBlock := not_block_of_firstValue hFirst hFirst'
  by_cases hEmpty : text = []
  · rw [hEmpty]
    exact ⟨rfl, rfl⟩
  rw [firstValue, if_pos hEmpty, Option.some_inj,
    Prod.mk.injEq] at hFirst'
  rw [keyValue, hBlock, if_neg Bool.false_ne_true,
    if_neg hEmpty, ← hFirst'.1] at hFirst
  cases hBracket : startsWith '[' text with
  | true =>
      rcases exists_inlineFlowSeq scalars text with
        ⟨items, hItems⟩
      rw [if_pos hBracket, hItems, Option.some_inj,
        Prod.mk.injEq] at hFirst
      exact absurd hFirst.1.symm (scalar_ne_list _ _)
  | false =>
      refine ⟨rfl, ?_⟩
      rw [Bool.eq_false_iff]
      intro hBrace
      rcases exists_inlineFlowMap scalars text with
        ⟨entries, hEntries⟩
      rw [hBracket, if_neg Bool.false_ne_true, if_pos hBrace,
        hEntries, Option.some_inj, Prod.mk.injEq] at hFirst
      exact scalar_ne_dict _ _ hFirst.1.symm

end AsyncapiDocs.Yaml

------------------------------------------------------------
-- Mappings
------------------------------------------------------------

namespace AsyncapiDocs.Yaml

open Python (Str Value isSpace strip lstrip rstrip)

variable {scalars : Scalars}
variable {first : Str}
variable {more : List Str}

/- Behind a dash the next entry is taken for the value. -/
theorem below_of_firstValue
    (hStandard : scalars.Standard)
    (hLines : AreEntries scalars more)
    {fuel : ℕ}
    {nested : Reader → Option (Value × Reader)}
    {log log' : List Use}
    {value : Value}
    {next next' : Reader}
    (hFirst :
      keyValue scalars nested 0 [] ⟨more, log⟩ =
        some (value, next))
    (hFirst' :
      firstValue scalars (parseValue scalars fuel) 2 []
          ⟨indented 2 more, log'⟩ =
        some (value, next')) :
    ∀ line ∈ (more.dropWhile isBlank).head?,
      0 < indent line := by
  intro line hHead
  by_contra hDeep
  have hRest :
      ∃ lines, (Reader.skip ⟨more, log⟩).rest = line :: lines := by
    rw [Option.mem_def, List.head?_eq_some_iff] at hHead
    exact hHead
  rcases hRest with ⟨lines, hRest⟩
  have hEntry := AreEntries.entry_of_skip hLines hRest hDeep
  have hLess : ∀ line' ∈ (Reader.skip ⟨more, log⟩).rest.head?,
      indent line' < 1 := by
    rw [hRest]
    rintro line' ⟨⟩
    omega
  have hNone :
      keyValue scalars nested 0 [] ⟨more, log⟩ =
        some (.none, Reader.skip ⟨more, log⟩) :=
    valueBelow_end hLess
  rw [hNone] at hFirst
  cases hFirst
  have hShifted :
      Shifted 2 [] ⟨more, log⟩ ⟨indented 2 more, log'⟩ :=
    (List.append_nil _).symm
  have hRest' := (hShifted.skip (closes_nil 2)).rest_cons hRest
  have hIndent := indent_spaces 2 line
  have hBelow :
      valueBelow (parseValue scalars fuel) 2
          ⟨indented 2 more, log'⟩ =
        some (.none, next') :=
    hFirst'
  rw [valueBelow_nested hRest' (by omega)] at hBelow
  rw [← Reader.skip_skip] at hRest'
  exact parseValue_entry_ne_none hStandard hEntry hRest' hBelow
    rfl

theorem startsPlainly_of_readsAlike
    (hStandard : scalars.Standard)
    (hMapping : IsMapping scalars first more)
    (hAlike : ReadsAlike scalars first more) :
    StartsPlainly scalars first more := by
  rcases hMapping.entry with ⟨key, rest, hKey, hBack, rfl⟩
  have hSome := writtenKey_ne_nil hStandard hKey
  have hQuotes :=
    not_quoted_of_readsAlike hStandard hKey hBack hAlike
  have hDash :=
    not_dashed_of_readsAlike hStandard hKey hBack hAlike
  rcases exists_firstValue hStandard hKey hMapping hDash
      hQuotes.1 hQuotes.2 hAlike with
    ⟨fuel, log, log', value, next, next', hFirst, hFirst'⟩
  have hMatch := keyMatch_entry hStandard hKey rest
  have hText :
      ∀ key' rest',
        scalars.keyMatch (key ++ ':' :: rest) =
            some (key', rest') →
          stripComment rest' = stripComment (lstrip rest) := by
    intro key' rest' hOther
    rw [hMatch] at hOther
    cases hOther
    rfl
  constructor
  case single => rw [startsWith_append hSome, hQuotes.1]
  case double => rw [startsWith_append hSome, hQuotes.2]
  case dash => rw [startsWith_append hSome, hDash]
  case block =>
    intro key' rest' hOther
    rw [hText key' rest' hOther]
    exact not_block_of_firstValue hFirst hFirst'
  case flow =>
    intro key' rest' hOther
    rw [hText key' rest' hOther]
    exact not_flow_of_firstValue hFirst hFirst'
  case below =>
    intro key' rest' hOther hEmpty
    rw [hText key' rest' hOther] at hEmpty
    rw [hEmpty] at hFirst hFirst'
    exact below_of_firstValue hStandard hMapping.entries hFirst
      hFirst'

end AsyncapiDocs.Yaml

------------------------------------------------------------
-- Plain Scalars
------------------------------------------------------------

namespace AsyncapiDocs.Yaml

open Python (Str Value isSpace strip lstrip rstrip
  strip_append)

variable {scalars : Scalars}
variable {first : Str}
variable {more : List Str}

/- A colon behind the dash is taken for that of a key. -/
theorem no_colon_of_readsAlike
    (hScalar : IsPlainScalar first more)
    (hAlike : ReadsAlike scalars first more) :
    ':' ∉ strip first := by
  intro hColon
  rcases exists_readings hAlike with
    ⟨fuel, value, after, last, hOwn, hItem⟩
  rcases parseValue_plain scalars hScalar (fuel + 1) [] with
    ⟨after', hPlain⟩
  rw [hPlain] at hOwn
  cases hOwn
  have hInline : isInlineMapping (strip first) = true := by
    have hFront := hScalar.plain
    cases hLine : strip first with
    | nil =>
        rw [hLine] at hColon
        cases hColon
    | cons c back =>
        rw [hLine] at hFront hColon
        have hChar := hFront c rfl
        simp [isInlineMapping, startsWith, hChar, hColon]
  rw [itemOf, itemValue,
    if_neg (strip_ne_nil_of_isBlank hScalar.blank),
    if_pos hInline, Option.bind_eq_bind] at hItem
  rcases Option.bind_eq_some_iff.mp hItem with ⟨_, _, hMore⟩
  rcases Option.bind_eq_some_iff.mp hMore with ⟨_, _, hRead⟩
  rw [Option.pure_def, Option.some_inj, Prod.mk.injEq] at hRead
  exact scalar_ne_dict _ _ hRead.1.symm

/- Without a comment, a text goes on behind it. -/
theorem beforeComment_goesOn
    {inSingle inDouble starts : Bool}
    {s : Str}
    (hNone : beforeComment inSingle inDouble starts s = none) :
    ∃ inSingle' inDouble' starts', ∀ text,
      beforeComment inSingle inDouble starts (s ++ text) =
        (beforeComment inSingle' inDouble' starts' text).map
          (s ++ ·) := by
  induction s generalizing inSingle inDouble starts with
  | nil =>
      refine ⟨inSingle, inDouble, starts, fun text => ?_⟩
      cases hText : beforeComment inSingle inDouble starts text <;>
        simp [hText]
  | cons c s ih =>
      rw [beforeComment] at hNone
      have hMap :
          ∀ inSingle' inDouble' starts',
            (beforeComment inSingle' inDouble' starts' s).map
                (c :: ·) =
              none →
            ∃ a b d, ∀ text,
              (beforeComment inSingle' inDouble' starts'
                  (s ++ text)).map (c :: ·) =
                (beforeComment a b d text).map
                  (c :: s ++ ·) := by
        intro inSingle' inDouble' starts' hRest
        rcases ih (Option.map_eq_none_iff.mp hRest) with
          ⟨a, b, d, hAll⟩
        refine ⟨a, b, d, fun text => ?_⟩
        rw [hAll, Option.map_map]
        rfl
      simp only [List.cons_append, beforeComment]
      split_ifs at hNone ⊢
      · exact hMap _ _ _ hNone
      · exact hMap _ _ _ hNone
      · exact hMap _ _ _ hNone

/- The next part of a text, behind a space, is none either. -/
theorem stripComment_next
    {s : Str}
    (hComment : hasComment s = false)
    (hFirst : ∀ c ∈ s.head?, isSpace c = false)
    (hSome : s ≠ [])
    {c : Char}
    (hHash : c ≠ '#')
    (hSpace : isSpace c = false)
    (text : Str) :
    ∃ back, rstrip back = back ∧
      stripComment (s ++ ' ' :: c :: text) =
        s ++ ' ' :: c :: back := by
  have hNone : beforeComment false false true s = none := by
    unfold hasComment at hComment
    rw [← Option.not_isSome_iff_eq_none, hComment]
    exact Bool.false_ne_true
  rcases beforeComment_goesOn hNone with
    ⟨inSingle, inDouble, starts, hAll⟩
  have hTwo :
      ∃ front,
        (beforeComment inSingle inDouble starts
            (' ' :: c :: text)).getD (' ' :: c :: text) =
          ' ' :: c :: front := by
    rw [beforeComment, if_neg (by simp), if_neg (by simp),
      if_neg (by simp), beforeComment]
    split_ifs
    · cases beforeComment (!inSingle) inDouble false text <;>
        exact ⟨_, rfl⟩
    · cases beforeComment inSingle (!inDouble) false text <;>
        exact ⟨_, rfl⟩
    · next hStart => exact absurd hStart.1 hHash
    · cases beforeComment inSingle inDouble (decide (c = ' '))
          text <;>
        exact ⟨_, rfl⟩
  rcases hTwo with ⟨front, hFront⟩
  have hText :
      (beforeComment false false true
          (s ++ ' ' :: c :: text)).getD
            (s ++ ' ' :: c :: text) =
        s ++ ' ' :: c :: front := by
    rw [hAll, ← hFront]
    cases beforeComment inSingle inDouble starts
        (' ' :: c :: text) <;>
      rfl
  refine ⟨rstrip front, List.rdropWhile_idempotent _ _, ?_⟩
  rw [stripComment, hText]
  cases s with
  | nil => exact absurd rfl hSome
  | cons d s =>
      have hStrip :
          strip (d :: ((s ++ [' ']) ++ [c]) ++ front) =
            d :: ((s ++ [' ']) ++ [c]) ++ rstrip front :=
        strip_append (hFirst d rfl) hSpace front
      simpa using hStrip

end AsyncapiDocs.Yaml

------------------------------------------------------------
-- Both Kinds of Values
------------------------------------------------------------

namespace AsyncapiDocs.Yaml

open Python (Str Value isSpace strip lstrip rstrip strip_strip
  isSpace_of_head_strip)

variable {scalars : Scalars}
variable {first : Str}
variable {more : List Str}

/- The second line of a plain scalar is one more word of it. -/
theorem scalar_plainText_ne
    (hStandard : scalars.Standard)
    {line : Str}
    (hScalar : IsPlainScalar first (line :: more))
    (hComment : hasComment (strip first) = false) :
    scalars.scalar (plainText first (line :: more)) ≠
      scalars.scalar (strip first) := by
  have hSome := strip_ne_nil_of_isBlank hScalar.blank
  have hBare : Bare (strip first) :=
    ⟨hSome, fun c hHead =>
      ⟨(hScalar.plain c hHead).1, (hScalar.plain c hHead).2.1⟩⟩
  have hBlank : isBlank line = false := by
    have hGo := hScalar.goesOn line List.mem_cons_self
    simp only [endsPlain, Bool.or_eq_false_iff] at hGo
    exact hGo.1.1
  cases hLine : strip line with
  | nil => exact absurd hLine (strip_ne_nil_of_isBlank hBlank)
  | cons c word =>
      have hSpace : isSpace c = false := by
        apply isSpace_of_head_strip (s := line)
        rw [hLine]
        rfl
      have hHash : c ≠ '#' := by
        rintro rfl
        rw [isBlank, hLine] at hBlank
        simp [startsWith] at hBlank
      rcases intercalate_cons_append (strip line)
          (more.map strip) with
        ⟨others, hOthers⟩
      have hText :
          plainText first (line :: more) =
            strip first ++ ' ' :: c :: (word ++ others) := by
        rw [plainText, List.map_cons, List.map_cons,
          List.intercalate_cons_cons, hOthers, hLine]
        simp
      rcases stripComment_next hComment
          (fun d hHead => isSpace_of_head_strip hHead) hSome
          hHash hSpace (word ++ others) with
        ⟨back, hBack, hNext⟩
      rw [← hText] at hNext
      have hWhole :
          Bare (stripComment (plainText first (line :: more))) := by
        rw [hNext]
        refine ⟨by simp, ?_⟩
        cases hStart : strip first with
        | nil => exact absurd hStart hSome
        | cons d text =>
            rw [hStart] at hBare
            exact hBare.2
      have hMem :
          ' ' ∈ stripComment (plainText first (line :: more)) := by
        rw [hNext]
        simp
      have hStrip :
          strip (stripComment (plainText first (line :: more))) =
            stripComment (plainText first (line :: more)) := by
        unfold stripComment
        exact strip_strip _
      have hFirst :
          stripComment (strip first) = strip first := by
        have hNone := Option.not_isSome_iff_eq_none.mp
          (Bool.eq_false_iff.mp hComment)
        rw [stripComment, hNone, Option.getD_none, strip_strip]
      rw [scalar_words hStandard hWhole (Or.inl rfl) hMem,
        number_spaced hStandard hStrip hMem]
      intro hSame
      have hLonger := scalar_bare (by rwa [hFirst]) hSame.symm
      rw [hFirst, hNext] at hLonger
      have hLength := congrArg List.length hLonger
      simp at hLength

theorem staysPlain_of_readsAlike
    (hStandard : scalars.Standard)
    (hScalar : IsPlainScalar first more)
    (hAlike : ReadsAlike scalars first more) :
    StaysPlain first more := by
  have hColon := no_colon_of_readsAlike hScalar hAlike
  refine ⟨hColon, ?_⟩
  rcases exists_readings hAlike with
    ⟨fuel, value, after, last, hOwn, hItem⟩
  rcases parseValue_plain scalars hScalar (fuel + 1) [] with
    ⟨after', hPlain⟩
  rcases itemOf_plain scalars hScalar hColon (fuel + 1) 0 [] []
    with ⟨last', hDash⟩
  rw [hPlain] at hOwn
  cases hOwn
  rw [hDash, Option.some_inj, Prod.mk.injEq] at hItem
  cases more with
  | nil => exact Or.inl rfl
  | cons line more =>
      right
      by_contra hComment
      rw [Bool.not_eq_true] at hComment
      exact scalar_plainText_ne hStandard hScalar hComment
        hItem.1.symm

/-
  The mappings and the plain scalars that are read alike on
  their own and as items.
-/
theorem readsAlike_iff
    (hStandard : scalars.Standard) :
    (∀ first more, IsMapping scalars first more →
      (ReadsAlike scalars first more ↔
        StartsPlainly scalars first more)) ∧
    (∀ first more, IsPlainScalar first more →
      (ReadsAlike scalars first more ↔
        StaysPlain first more)) := by
  constructor
  · intro first more hMapping
    exact ⟨startsPlainly_of_readsAlike hStandard hMapping,
      readsAlike_of_startsPlainly hStandard hMapping⟩
  · intro first more hScalar
    exact ⟨staysPlain_of_readsAlike hStandard hScalar,
      readsAlike_of_staysPlain hScalar⟩

/- A literal text as a later value, and a word. -/
theorem readsAlike_iff_noteAndWord :
    ReadsAlike asciiScalars "id: 1".toList
        ["note: |".toList, "  text".toList] ∧
      ReadsAlike asciiScalars "word".toList [] := by
  have hFirst :
      asciiScalars.keyMatch "id: 1".toList =
        some ("id".toList, "1".toList) := by
    decide
  have hId : asciiScalars.IsKey "id".toList :=
    isKey_of_all (by decide) rfl
  have hNote : asciiScalars.IsKey "note".toList :=
    isKey_of_all (by decide) rfl
  constructor
  · have hMapping :
        IsMapping asciiScalars "id: 1".toList
          ["note: |".toList, "  text".toList] := by
      refine ⟨⟨"id".toList, " 1".toList, Or.inl hId,
        Or.inr rfl, rfl⟩, ?_, by decide⟩
      intro line hMem
      rcases List.mem_pair.mp hMem with rfl | rfl
      · exact Or.inr (Or.inr ⟨"note".toList, " |".toList,
          Or.inl hNote, Or.inr rfl, rfl⟩)
      · exact Or.inr (Or.inl (by decide))
    rw [(readsAlike_iff standard_asciiScalars).1 _ _ hMapping]
    constructor
    case single => rfl
    case double => rfl
    case dash => rfl
    case block =>
      intro key rest hMatch
      rw [hFirst] at hMatch
      cases hMatch
      rfl
    case flow =>
      intro key rest hMatch
      rw [hFirst] at hMatch
      cases hMatch
      exact ⟨rfl, rfl⟩
    case below =>
      intro key rest hMatch hEmpty
      rw [hFirst] at hMatch
      cases hMatch
      cases hEmpty
  · have hScalar : IsPlainScalar "word".toList [] := by
      constructor
      case plain =>
        rintro c ⟨⟩
        decide
      case goesOn => exact fun line hMem => nomatch hMem
      all_goals decide
    rw [(readsAlike_iff standard_asciiScalars).2 _ _ hScalar]
    exact ⟨by decide, Or.inl rfl⟩

/- A literal text as the first value of a mapping. -/
theorem not_readsAlike_firstNote :
    ¬ ((∀ first more, IsMapping asciiScalars first more →
        ReadsAlike asciiScalars first more) ∧
      (∀ first more, IsPlainScalar first more →
        ReadsAlike asciiScalars first more)) := by
  rintro ⟨hAll, _⟩
  have hNote : asciiScalars.IsKey "note".toList :=
    isKey_of_all (by decide) rfl
  have hMapping :
      IsMapping asciiScalars "note: |".toList
        ["  text".toList] := by
    refine ⟨⟨"note".toList, " |".toList, Or.inl hNote,
      Or.inr rfl, rfl⟩, ?_, by decide⟩
    intro line hMem
    rw [List.mem_singleton.mp hMem]
    exact Or.inr (Or.inl (by decide))
  have hPlainly :=
    startsPlainly_of_readsAlike standard_asciiScalars hMapping
      (hAll _ _ hMapping)
  have hBlock :=
    hPlainly.block "note".toList "|".toList (by decide)
  cases hBlock

end AsyncapiDocs.Yaml
