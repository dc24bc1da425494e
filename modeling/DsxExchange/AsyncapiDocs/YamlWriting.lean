import DsxExchange.AsyncapiDocs.YamlSteps

/-
  Lines as they are written: below an indent, with a key, and
  as the lines of a text.

  Key definitions include:
    * `AsyncapiDocs.Yaml.spaces`, `AsyncapiDocs.Yaml.keyLine`
    * `AsyncapiDocs.Yaml.textOf`
    * `AsyncapiDocs.Yaml.Scalars.IsKey`
    * `AsyncapiDocs.Yaml.Gets`

  Key theorems include:
    * `AsyncapiDocs.Yaml.indent_spaces`
    * `AsyncapiDocs.Yaml.keyMatch_keyLine`,
      `AsyncapiDocs.Yaml.parse_keyLine`,
      `AsyncapiDocs.Yaml.gets_keyLine`
    * `AsyncapiDocs.Yaml.splitLines_textOf`
-/

------------------------------------------------------------
-- Indented Lines
------------------------------------------------------------

namespace AsyncapiDocs.Yaml

open Python (Str Value isSpace strip lstrip)

variable {scalars : Scalars}

def spaces (n : ℕ) : Str :=
  List.replicate n ' '

@[simp] theorem lstrip_spaces (n : ℕ) (line : Str) :
    lstrip (spaces n ++ line) = lstrip line := by
  apply List.dropWhile_append_of_pos
  intro c hMem
  rw [List.eq_of_mem_replicate hMem]
  rfl

@[simp] theorem strip_spaces (n : ℕ) (line : Str) :
    strip (spaces n ++ line) = strip line := by
  rw [strip, lstrip_spaces, strip]

theorem lstrip_length_le (line : Str) :
    (lstrip line).length ≤ line.length :=
  (List.dropWhile_suffix _).length_le

theorem indent_spaces (n : ℕ) (line : Str) :
    indent (spaces n ++ line) = n + indent line := by
  have hLess := lstrip_length_le line
  unfold indent
  rw [lstrip_spaces, List.length_append, spaces,
    List.length_replicate]
  omega

@[simp] theorem isBlank_spaces (n : ℕ) (line : Str) :
    isBlank (spaces n ++ line) = isBlank line := by
  rw [isBlank, strip_spaces, isBlank]

@[simp] theorem keyMatch_spaces (n : ℕ) (line : Str) :
    scalars.keyMatch (spaces n ++ line) =
      scalars.keyMatch line := by
  rw [Scalars.keyMatch, lstrip_spaces, Scalars.keyMatch]

/- A line that starts with a character that is no space. -/
theorem indent_cons
    {c : Char}
    (hChar : isSpace c = false)
    (line : Str) :
    indent (c :: line) = 0 := by
  rw [indent, lstrip, List.dropWhile_cons_of_neg (by simp [hChar]),
    Nat.sub_self]

theorem strip_ne_nil
    {line : Str}
    (hSome : ∃ c ∈ line, isSpace c = false) :
    strip line ≠ [] := by
  rcases hSome with ⟨c, hMem, hChar⟩
  intro hNil
  rw [Python.strip_eq_nil_iff.mp hNil c hMem] at hChar
  cases hChar

end AsyncapiDocs.Yaml

------------------------------------------------------------
-- Lines with a Key
------------------------------------------------------------

namespace AsyncapiDocs.Yaml

open Python (Str Value isSpace strip lstrip strip_append
  rstrip)

variable {scalars : Scalars}

/- What `\w` does not match. -/
structure Scalars.Words (scalars : Scalars) : Prop where
  space : ∀ c, isSpace c = true → scalars.isWord c = false
  colon : scalars.isWord ':' = false
  single : scalars.isWord '\'' = false
  double : scalars.isWord '"' = false
  hash : scalars.isWord '#' = false

/- The letters, the digits and the line between them. -/
theorem toNat_of_isWord_ascii
    {c : Char}
    (hWord : asciiScalars.isWord c = true) :
    48 ≤ c.toNat ∧ c.toNat ≤ 122 := by
  have hOneOf :
      (((c.isUpper || c.isLower) || c.isDigit) ||
        decide (c = '_')) = true :=
    hWord
  simp only [Bool.or_eq_true, decide_eq_true_eq] at hOneOf
  rcases hOneOf with ((hUpper | hLower) | hDigit) | rfl
  · have hBoth : 'A'.val ≤ c.val ∧ c.val ≤ 'Z'.val :=
      of_decide_eq_true hUpper
    have hLeast : 65 ≤ c.toNat := hBoth.1
    have hMost : c.toNat ≤ 90 := hBoth.2
    omega
  · have hBoth := Bool.and_eq_true_iff.mp hLower
    have hLeast : 97 ≤ c.toNat := of_decide_eq_true hBoth.1
    have hMost : c.toNat ≤ 122 := of_decide_eq_true hBoth.2
    omega
  · have hBoth := Bool.and_eq_true_iff.mp hDigit
    have hLeast : 48 ≤ c.toNat := of_decide_eq_true hBoth.1
    have hMost : c.toNat ≤ 57 := of_decide_eq_true hBoth.2
    omega
  · exact ⟨by decide, by decide⟩

theorem words_asciiScalars : asciiScalars.Words where
  space := by
    intro c hSpace
    rw [Bool.eq_false_iff]
    intro hWord
    have hRange := toNat_of_isWord_ascii hWord
    simp [isSpace] at hSpace
    omega
  colon := rfl
  single := rfl
  double := rfl
  hash := rfl

/- A key that needs no quotes. -/
def Scalars.IsKey (scalars : Scalars) (key : Str) : Prop :=
  key ≠ [] ∧ ∀ c ∈ key, scalars.isKeyChar c = true

theorem isKey_of_all
    {key : Str}
    (hSome : key ≠ [])
    (hAll : key.all scalars.isKeyChar = true) :
    scalars.IsKey key :=
  ⟨hSome, List.all_eq_true.mp hAll⟩

/- A key at an indent, with what is behind its colon. -/
def keyLine (base : ℕ) (key rest : Str) : Str :=
  spaces base ++ (key ++ ':' :: rest)

theorem Scalars.Words.isKeyChar_space
    (hWords : scalars.Words)
    {c : Char}
    (hSpace : isSpace c = true) :
    scalars.isKeyChar c = false := by
  have hWord := hWords.space c hSpace
  unfold Scalars.isKeyChar
  rw [hWord, Bool.false_or]
  simp only [Bool.or_eq_false_iff, decide_eq_false_iff_not]
  refine ⟨⟨⟨?_, ?_⟩, ?_⟩, ?_⟩ <;>
    rintro rfl <;> exact absurd hSpace (by decide)

theorem Scalars.Words.isKeyChar_colon
    (hWords : scalars.Words) :
    scalars.isKeyChar ':' = false := by
  simp [Scalars.isKeyChar, hWords.colon]

theorem Scalars.Words.isKeyChar_quote
    (hWords : scalars.Words)
    {c : Char}
    (hQuote : c = '\'' ∨ c = '"') :
    scalars.isKeyChar c = false := by
  rcases hQuote with rfl | rfl
  · simp [Scalars.isKeyChar, hWords.single]
  · simp [Scalars.isKeyChar, hWords.double]

theorem lstrip_key
    (hWords : scalars.Words)
    {key : Str}
    (hKey : scalars.IsKey key)
    (rest : Str) :
    lstrip (key ++ rest) = key ++ rest := by
  cases key with
  | nil => exact absurd rfl hKey.1
  | cons c key =>
      apply List.dropWhile_cons_of_neg
      intro hSpace
      have hFirst := hKey.2 c List.mem_cons_self
      rw [hWords.isKeyChar_space hSpace] at hFirst
      cases hFirst

theorem stripQuotes_key
    (hWords : scalars.Words)
    {key : Str}
    (hKey : scalars.IsKey key) :
    stripQuotes key = key := by
  have hNone :
      ∀ c ∈ key, ¬ (c = '\'' ∨ c = '"') := by
    intro c hMem hQuote
    have hChar := hKey.2 c hMem
    rw [hWords.isKeyChar_quote hQuote] at hChar
    cases hChar
  unfold stripQuotes
  dsimp only
  rw [List.dropWhile_eq_self_iff.mpr, List.rdropWhile_eq_self_iff]
  · intro hSome hQuote
    exact hNone _ (List.getLast_mem hSome) (by simpa using hQuote)
  · intro hSome hQuote
    exact hNone _ (List.getElem_mem hSome) (by simpa using hQuote)

theorem keyToken_key
    (hWords : scalars.Words)
    {key : Str}
    (hKey : scalars.IsKey key)
    (rest : Str) :
    scalars.keyToken (key ++ ':' :: rest) =
      some (key, ':' :: rest) := by
  have hTake :
      (key ++ ':' :: rest).takeWhile scalars.isKeyChar = key := by
    rw [List.takeWhile_append_of_pos hKey.2,
      List.takeWhile_cons_of_neg
        (by simp [hWords.isKeyChar_colon]),
      List.append_nil]
  unfold Scalars.keyToken
  simp only [hTake, if_pos hKey.1, List.drop_left]

/- The key of a line that is written with one. -/
theorem keyMatch_keyLine
    (hWords : scalars.Words)
    {key : Str}
    (hKey : scalars.IsKey key)
    (base : ℕ)
    (rest : Str) :
    scalars.keyMatch (keyLine base key rest) =
      some (key, lstrip rest) := by
  have hColon : lstrip (':' :: rest) = ':' :: rest :=
    List.dropWhile_cons_of_neg (by decide)
  rw [keyLine, keyMatch_spaces, Scalars.keyMatch,
    lstrip_key hWords hKey, keyToken_key hWords hKey]
  simp only [hColon, stripQuotes_key hWords hKey]

/- A key without quotes is its own name. -/
theorem keyName_keyLine
    (hWords : scalars.Words)
    {key : Str}
    (hKey : scalars.IsKey key)
    (base : ℕ)
    (rest : Str) :
    scalars.keyName (keyLine base key rest) = key := by
  have hNone :
      ∀ quote, quote = '\'' ∨ quote = '"' →
        ¬ isWithin quote key = true := by
    intro quote hQuote hWithin
    have hMem : quote ∈ key := by
      apply List.mem_of_mem_head?
      simpa [isWithin, startsWith] using
        (Bool.and_eq_true_iff.mp hWithin).1
    have hChar := hKey.2 quote hMem
    rw [hWords.isKeyChar_quote hQuote] at hChar
    cases hChar
  have hPlain : unquoted key = key := by
    refine if_neg ?_
    rintro ⟨_, hSingle | hDouble⟩
    · exact hNone '\'' (Or.inl rfl) hSingle
    · exact hNone '"' (Or.inr rfl) hDouble
  rw [Scalars.keyName, keyLine, lstrip_spaces,
    lstrip_key hWords hKey, keyToken_key hWords hKey]
  exact hPlain

theorem strip_key
    (hWords : scalars.Words)
    {key : Str}
    (hKey : scalars.IsKey key)
    (rest : Str) :
    ∃ back, strip (key ++ ':' :: rest) = key ++ ':' :: back := by
  cases key with
  | nil => exact absurd rfl hKey.1
  | cons c key =>
      have hFirst : isSpace c = false := by
        rw [Bool.eq_false_iff]
        intro hSpace
        have hChar := hKey.2 c List.mem_cons_self
        rw [hWords.isKeyChar_space hSpace] at hChar
        cases hChar
      have hStrip :
          strip (c :: (key ++ [':']) ++ rest) =
            c :: (key ++ [':']) ++ rstrip rest :=
        strip_append hFirst rfl rest
      exact ⟨rstrip rest, by simpa using hStrip⟩

theorem isBlank_keyLine
    (hWords : scalars.Words)
    {key : Str}
    (hKey : scalars.IsKey key)
    (base : ℕ)
    (rest : Str) :
    isBlank (keyLine base key rest) = false := by
  rcases strip_key hWords hKey rest with ⟨back, hStrip⟩
  rw [keyLine, isBlank_spaces, isBlank, hStrip]
  cases key with
  | nil => exact absurd rfl hKey.1
  | cons c key =>
      have hHash : c ≠ '#' := by
        rintro rfl
        have hChar := hKey.2 '#' List.mem_cons_self
        simp [Scalars.isKeyChar, hWords.hash] at hChar
      simp [startsWith, hHash]

theorem startsDash_keyLine
    (hWords : scalars.Words)
    {key : Str}
    (hKey : scalars.IsKey key)
    (base : ℕ)
    (rest : Str) :
    startsDash (strip (keyLine base key rest)) = false := by
  rcases strip_key hWords hKey rest with ⟨back, hStrip⟩
  have hSpace : ∀ c ∈ key, c ≠ ' ' := by
    rintro c hMem rfl
    have hChar := hKey.2 ' ' hMem
    rw [hWords.isKeyChar_space rfl] at hChar
    cases hChar
  rw [keyLine, strip_spaces, hStrip]
  match key, hKey, hSpace with
  | [], hKey, _ => exact absurd rfl hKey.1
  | [c], _, _ => simp [startsDash, List.isPrefixOf]
  | c :: c' :: key, _, hSpace =>
      have hSecond : ' ' ≠ c' :=
        (hSpace c' (by simp)).symm
      simp [startsDash, List.isPrefixOf, hSecond]

theorem indent_keyLine
    (hWords : scalars.Words)
    {key : Str}
    (hKey : scalars.IsKey key)
    (base : ℕ)
    (rest : Str) :
    indent (keyLine base key rest) = base := by
  rw [keyLine, indent_spaces, indent, lstrip_key hWords hKey,
    Nat.sub_self, Nat.add_zero]

end AsyncapiDocs.Yaml

------------------------------------------------------------
-- The Value of a Key
------------------------------------------------------------

namespace AsyncapiDocs.Yaml

open Python (Str Value isSpace strip lstrip)

variable {scalars : Scalars}

/-
  A line with a key, in a mapping of its own and in one behind
  a dash, once it is known what the value is.
-/
theorem parse_keyLine
    {fuel base : ℕ}
    {key rest text : Str}
    {before lines : List Str}
    {value : Value}
    {result : List (Str × Value)}
    {log : List Use}
    {after : Reader}
    (hWords : scalars.Words)
    (hKey : scalars.IsKey key)
    (hText :
      splitLines text =
        before ++ keyLine base key rest :: lines)
    (hValue :
      keyValue scalars (parseValue scalars fuel) base
          (stripComment (lstrip rest))
          ⟨lines, log ++ [keyUse key key result]⟩ =
        some (value, after)) :
    parseMapping scalars (fuel + 1) base result
          ⟨(splitLines text).drop before.length, log⟩ =
        parseMapping scalars fuel base
          (Python.setEntry key value result) after ∧
      parseDashInlineMapping scalars (fuel + 1) base result
          ⟨(splitLines text).drop before.length, log⟩ =
        parseDashInlineMapping scalars fuel base
          (Python.setEntry key value result) after := by
  have hRest :
      (Reader.skip
          ⟨(splitLines text).drop before.length, log⟩).rest =
        keyLine base key rest :: lines := by
    rw [Reader.skip, hText, List.drop_left,
      List.dropWhile_cons_of_neg
        (by simp [isBlank_keyLine hWords hKey])]
  have hIndent := indent_keyLine hWords hKey base rest
  have hDash := startsDash_keyLine hWords hKey base rest
  have hMatch := keyMatch_keyLine hWords hKey base rest
  have hRead :
      keyValue scalars (parseValue scalars fuel) base
          (stripComment (lstrip rest))
          ⟨lines,
            log ++
              [keyUse (scalars.keyName (keyLine base key rest))
                key result]⟩ =
        some (value, after) := by
    rw [keyName_keyLine hWords hKey]
    exact hValue
  constructor
  · exact parseMapping_key hRest (by rw [hIndent, hDash]; simp)
      hMatch hRead
  · exact parseDash_key hRest hIndent hMatch hRead

/- Nothing that is read later takes an entry's place. -/
theorem lookup_setEntry_of_isClean
    {nested : Reader → Option (Value × Reader)}
    {base : ℕ}
    {line key other rest : Str}
    {lines : List Str}
    {value read : Value}
    {result : List (Str × Value)}
    {log : List Use}
    {after : Reader}
    (hRead :
      keyValue scalars nested base rest
          ⟨lines,
            log ++ [keyUse (scalars.keyName line) other result]⟩ =
        some (read, after))
    (hNested : ShowsValue scalars nested)
    (hClean : after.IsClean)
    (hLookup : result.lookup key = some value) :
    (Python.setEntry other read result).lookup key =
      some value := by
  have hUse :=
    (losesNothing_append.mp
      ((shows_keyValue hNested hRead).isClean hClean)).2
  have hNew := (losesNothing_keyUse.mp hUse).1
  rw [Python.lookup_setEntry, if_neg]
  · exact hLookup
  · rintro rfl
    apply hNew
    rw [← lookup_isSome_iff, hLookup]
    rfl

theorem lookup_parseMapping
    {fuel base : ℕ}
    {key : Str}
    {value : Value}
    {result entries : List (Str × Value)}
    {reader last : Reader}
    (hRun :
      parseMapping scalars fuel base result reader =
        some (entries, last))
    (hClean : last.IsClean)
    (hLookup : result.lookup key = some value) :
    entries.lookup key = some value := by
  induction fuel generalizing result reader with
  | zero => cases hRun
  | succ fuel ih =>
      have hShows := showsAt scalars fuel
      cases parseMapping_pass hRun with
      | nil => exact hLookup
      | stop => exact hLookup
      | lost _ _ _ hMore => exact ih hMore hLookup
      | key _ _ _ hValue hMore =>
          rcases hShows.mapping _ _ _ _ _ hMore with
            ⟨_, hShown, _⟩
          exact ih hMore
            (lookup_setEntry_of_isClean hValue hShows.value
              (hShown.isClean hClean) hLookup)

theorem lookup_parseDash
    {fuel base : ℕ}
    {key : Str}
    {value : Value}
    {result entries : List (Str × Value)}
    {reader last : Reader}
    (hRun :
      parseDashInlineMapping scalars fuel base result reader =
        some (entries, last))
    (hClean : last.IsClean)
    (hLookup : result.lookup key = some value) :
    entries.lookup key = some value := by
  induction fuel generalizing result reader with
  | zero => cases hRun
  | succ fuel ih =>
      have hShows := showsAt scalars fuel
      cases parseDash_pass hRun with
      | nil => exact hLookup
      | stop => exact hLookup
      | key _ _ _ hValue hMore =>
          rcases hShows.dash _ _ _ _ _ hMore with
            ⟨_, hShown, _⟩
          exact ih hMore
            (lookup_setEntry_of_isClean hValue hShows.value
              (hShown.isClean hClean) hLookup)

/-
  A mapping gets a value for the key and goes on behind it. It
  ends, with the value at the key unless something is lost
  later, and it ends there where no line of it follows.
-/
structure Gets
    (loop :
      ℕ → ℕ → List (Str × Value) → Reader →
        Option (List (Str × Value) × Reader))
    (base : ℕ)
    (key : Str)
    (value : Value)
    (result : List (Str × Value))
    (reader after : Reader) : Prop where
  goesOn :
    ∀ fuel,
      loop (fuel + 1) base result reader =
        loop fuel base (Python.setEntry key value result) after
  ends :
    ∃ least, ∀ fuel, least ≤ fuel →
      ∃ entries last,
        loop fuel base result reader = some (entries, last) ∧
          (last.IsClean → entries.lookup key = some value)
  closes :
    (∀ line ∈ after.skip.rest.head?, indent line < base) →
      ∀ fuel,
        loop (fuel + 2) base result reader =
          some
            (Python.setEntry key value result, after.skip)

theorem gets_of_goesOn
    {loop :
      ℕ → ℕ → List (Str × Value) → Reader →
        Option (List (Str × Value) × Reader)}
    (hEnds :
      ∀ fuel base result reader,
        2 * reader.rest.length + 1 ≤ fuel →
          ∃ entries last,
            loop fuel base result reader = some (entries, last))
    (hKeeps :
      ∀ fuel base result reader entries last key value,
        loop fuel base result reader = some (entries, last) →
          last.IsClean → result.lookup key = some value →
            entries.lookup key = some value)
    (hLow :
      ∀ fuel base result (reader : Reader),
        (∀ line ∈ reader.skip.rest.head?, indent line < base) →
          loop (fuel + 1) base result reader =
            some (result, reader.skip))
    {base : ℕ}
    {key : Str}
    {value : Value}
    {result : List (Str × Value)}
    {reader after : Reader}
    (hGoesOn :
      ∀ fuel,
        loop (fuel + 1) base result reader =
          loop fuel base (Python.setEntry key value result)
            after) :
    Gets loop base key value result reader after := by
  refine ⟨hGoesOn, ⟨2 * reader.rest.length + 1, ?_⟩, ?_⟩
  · intro fuel hFuel
    rcases hEnds fuel base result reader hFuel with
      ⟨entries, last, hRun⟩
    refine ⟨entries, last, hRun, ?_⟩
    intro hClean
    obtain ⟨more, rfl⟩ : ∃ more, fuel = more + 1 :=
      Nat.exists_eq_succ_of_ne_zero (by omega)
    rw [hGoesOn] at hRun
    apply hKeeps _ _ _ _ _ _ _ _ hRun hClean
    rw [Python.lookup_setEntry, if_pos rfl]
  · intro hFollowing fuel
    rw [hGoesOn, hLow _ _ _ _ hFollowing]

theorem gets_parseMapping
    {base : ℕ}
    {key : Str}
    {value : Value}
    {result : List (Str × Value)}
    {reader after : Reader}
    (hGoesOn :
      ∀ fuel,
        parseMapping scalars (fuel + 1) base result reader =
          parseMapping scalars fuel base
            (Python.setEntry key value result) after) :
    Gets (parseMapping scalars) base key value result reader
      after := by
  refine gets_of_goesOn ?_ ?_ ?_ hGoesOn
  · intro fuel base result reader hFuel
    rcases (endsAt scalars fuel).mapping base result reader hFuel
      with ⟨entries, last, hRun, _⟩
    exact ⟨entries, last, hRun⟩
  · intro fuel base result reader entries last key value hRun
    exact lookup_parseMapping hRun
  · intro fuel base result reader hFollowing
    exact parseMapping_low hFollowing result

theorem gets_parseDash
    {base : ℕ}
    {key : Str}
    {value : Value}
    {result : List (Str × Value)}
    {reader after : Reader}
    (hGoesOn :
      ∀ fuel,
        parseDashInlineMapping scalars (fuel + 1) base result
            reader =
          parseDashInlineMapping scalars fuel base
            (Python.setEntry key value result) after) :
    Gets (parseDashInlineMapping scalars) base key value result
      reader after := by
  refine gets_of_goesOn ?_ ?_ ?_ hGoesOn
  · intro fuel base result reader hFuel
    rcases (endsAt scalars fuel).dash base result reader hFuel
      with ⟨entries, last, hRun, _⟩
    exact ⟨entries, last, hRun⟩
  · intro fuel base result reader entries last key value hRun
    exact lookup_parseDash hRun
  · intro fuel base result reader hFollowing
    exact parseDash_low hFollowing result

/- The same of a line with a key that is written in a text. -/
theorem gets_keyLine
    {base : ℕ}
    {key rest text : Str}
    {before lines : List Str}
    {value : Value}
    {result : List (Str × Value)}
    {log : List Use}
    {after : Reader}
    (hWords : scalars.Words)
    (hKey : scalars.IsKey key)
    (hText :
      splitLines text =
        before ++ keyLine base key rest :: lines)
    (hValue :
      ∀ fuel,
        keyValue scalars (parseValue scalars fuel) base
            (stripComment (lstrip rest))
            ⟨lines, log ++ [keyUse key key result]⟩ =
          some (value, after)) :
    Gets (parseMapping scalars) base key value result
        ⟨(splitLines text).drop before.length, log⟩ after ∧
      Gets (parseDashInlineMapping scalars) base key value result
        ⟨(splitLines text).drop before.length, log⟩ after :=
  ⟨gets_parseMapping fun fuel =>
      (parse_keyLine hWords hKey hText (hValue fuel)).1,
    gets_parseDash fun fuel =>
      (parse_keyLine hWords hKey hText (hValue fuel)).2⟩

end AsyncapiDocs.Yaml

------------------------------------------------------------
-- The Lines of a Text
------------------------------------------------------------

namespace AsyncapiDocs.Yaml

open Python (Str)

/- The lines, each with its end. -/
def textOf (lines : List Str) : Str :=
  lines.flatMap (· ++ ['\n'])

theorem splitLines_append
    {line : Str}
    (hLine : ∀ c ∈ line, isLineBreak c = false)
    (rest : Str) :
    splitLines (line ++ '\n' :: rest) =
      line :: splitLines rest := by
  induction line with
  | nil => simp [splitLines, isLineBreak]
  | cons c line ih =>
      have hFirst : isLineBreak c = false :=
        hLine c List.mem_cons_self
      have hRest :=
        ih fun c' hMem => hLine c' (List.mem_cons_of_mem c hMem)
      have hReturn : c ≠ '\r' := by
        rintro rfl
        exact absurd hFirst (by decide)
      rw [List.cons_append, splitLines, hRest]
      · simp [hFirst]
      · intro rest' hChar _
        exact hReturn hChar

/- The lines of a text that is written line by line. -/
theorem splitLines_textOf
    {lines : List Str}
    (hLines : ∀ line ∈ lines, ∀ c ∈ line, isLineBreak c = false) :
    splitLines (textOf lines) = lines := by
  induction lines with
  | nil => rfl
  | cons line lines ih =>
      have hRest :=
        ih fun line' hMem =>
          hLines line' (List.mem_cons_of_mem line hMem)
      rw [textOf, List.flatMap_cons, List.append_assoc,
        List.singleton_append,
        splitLines_append (hLines line List.mem_cons_self),
        ← textOf, hRest]

end AsyncapiDocs.Yaml
