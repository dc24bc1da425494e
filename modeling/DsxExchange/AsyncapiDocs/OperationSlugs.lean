import DsxExchange.Python.Value
import Mathlib.Data.Bool.AllAny

/-
  The slugs of operations: how the name of an operation is
  split at its capitals, and how the operation of a page is
  found again from the slug of the page.

  Key definitions include:
    * `AsyncapiDocs.operationSlug`
    * `AsyncapiDocs.buildBmsOpMap`
    * `AsyncapiDocs.matchBmsOperation`

  Key theorems include:
    * `AsyncapiDocs.dehyphenate_operationSlug`
    * `AsyncapiDocs.matchBmsOperation_iff`
-/

------------------------------------------------------------
-- Slugs
------------------------------------------------------------

namespace AsyncapiDocs

open Python (Str Value PyError)

/- `str.isupper` for one character, and `str.lower`. -/
structure Letters where
  isUpper : Char → Bool
  lower : Str → Str

def IsAscii (s : Str) : Prop :=
  ∀ c ∈ s, c.toNat < 128

/- What the two methods do on ASCII texts. -/
structure Letters.OnAscii (letters : Letters) : Prop where
  isUpper_eq :
    ∀ c : Char, c.toNat < 128 → letters.isUpper c = c.isUpper
  lower_eq :
    ∀ s, IsAscii s → letters.lower s = s.map Char.toLower

/- `name[len(prefix):]`, for the first prefix that it has. -/
def stripPrefixes (name : Str) : Str :=
  if "receive".toList.isPrefixOf name then
    name.drop "receive".toList.length
  else if "publish".toList.isPrefixOf name then
    name.drop "publish".toList.length
  else
    name

/- `"-" if slug else ""`. -/
def separator (slug : Str) : Str :=
  if slug ≠ [] then ['-'] else []

/- A slug with a run of capitals, and what is behind it. -/
def addRun
    (letters : Letters)
    (slug run after : Str) : Str :=
  if 1 < run.length ∧ after ≠ [] then
    slug ++ separator slug ++ letters.lower run.dropLast ++
      '-' :: letters.lower (run.drop (run.length - 1))
  else
    slug ++ separator slug ++ letters.lower run

/- The loop over a name without its prefix. -/
def slugFrom (letters : Letters) (slug : Str) : Str → Str
| [] => slug
| ch :: rest =>
    if letters.isUpper ch then
      let run := ch :: rest.takeWhile letters.isUpper
      let after := rest.dropWhile letters.isUpper
      slugFrom letters (addRun letters slug run after) after
    else
      slugFrom letters (slug ++ [ch]) rest
termination_by text => text.length
decreasing_by
  · exact Nat.lt_succ_of_le (List.dropWhile_suffix _).length_le
  · exact Nat.lt_succ_self _

/- The slug of an operation. -/
def operationSlug (letters : Letters) (name : Str) : Str :=
  slugFrom letters [] (stripPrefixes name)

end AsyncapiDocs

------------------------------------------------------------
-- The Map of Slugs
------------------------------------------------------------

namespace AsyncapiDocs

open Python (Str Value PyError)

/- The names that `for op_name in ops` goes through. -/
def operationNames (spec : Value) : Except PyError (List Str) := do
  let ops ← spec.get "operations".toList (.dict [])
  let names ← ops.iter
  names.mapM Value.text

/- The map, in which a later name takes a slug over. -/
def slugMap
    (letters : Letters)
    (names : List Str) : List (Str × Value) :=
  names.foldl
    (fun slugs name =>
      Python.setEntry (operationSlug letters name) (.str name)
        slugs)
    []

/- `_build_bms_op_map`. -/
def buildBmsOpMap
    (letters : Letters)
    (spec : Value) : Except PyError (List (Str × Value)) := do
  let names ← operationNames spec
  return slugMap letters names

/- `text.replace("-", "")`. -/
def dehyphenate (text : Str) : Str :=
  text.filter (· ≠ '-')

/- `_match_bms_operation`. -/
def matchBmsOperation
    (slugSuffix : Str)
    (opMap : List (Str × Value)) : Option Value :=
  match opMap.lookup slugSuffix with
  | some name => some name
  | none =>
      let nohyphen := dehyphenate slugSuffix
      (opMap.find? fun entry =>
        dehyphenate entry.1 = nohyphen).map Prod.snd

end AsyncapiDocs

------------------------------------------------------------
-- What Hyphens Do
------------------------------------------------------------

namespace AsyncapiDocs

open Python (Str Value PyError)

variable {letters : Letters}

@[simp] theorem dehyphenate_append (s t : Str) :
    dehyphenate (s ++ t) = dehyphenate s ++ dehyphenate t :=
  List.filter_append ..

@[simp] theorem dehyphenate_separator (slug : Str) :
    dehyphenate (separator slug) = [] := by
  unfold separator
  split <;> simp [dehyphenate]

@[simp] theorem dehyphenate_hyphen (s : Str) :
    dehyphenate ('-' :: s) = dehyphenate s := by
  simp [dehyphenate]

/- The name of an operation as a slug is compared with. -/
def normalized (letters : Letters) (name : Str) : Str :=
  dehyphenate (letters.lower (stripPrefixes name))

theorem IsAscii.sublist
    {s t : Str}
    (hAscii : IsAscii t)
    (hSublist : s.Sublist t) :
    IsAscii s :=
  fun c hMem => hAscii c (hSublist.subset hMem)

theorem isAscii_stripPrefixes
    {name : Str}
    (hAscii : IsAscii name) :
    IsAscii (stripPrefixes name) := by
  unfold stripPrefixes
  split
  · exact hAscii.sublist (List.drop_sublist _ _)
  · split
    · exact hAscii.sublist (List.drop_sublist _ _)
    · exact hAscii

/- Lowering an ASCII text lowers its parts. -/
theorem Letters.OnAscii.lower_append
    (hLetters : letters.OnAscii)
    {s t : Str}
    (hAscii : IsAscii (s ++ t)) :
    letters.lower (s ++ t) =
      letters.lower s ++ letters.lower t := by
  rw [hLetters.lower_eq _ hAscii,
    hLetters.lower_eq s
      (hAscii.sublist (List.sublist_append_left s t)),
    hLetters.lower_eq t
      (hAscii.sublist (List.sublist_append_right s t)),
    List.map_append]

/- A character that is no capital is kept by lowering it. -/
theorem Letters.OnAscii.lower_singleton
    (hLetters : letters.OnAscii)
    {c : Char}
    (hAscii : c.toNat < 128)
    (hUpper : letters.isUpper c = false) :
    letters.lower [c] = [c] := by
  have hOne : IsAscii [c] := by
    intro c' hMem
    rwa [List.mem_singleton.mp hMem]
  rw [hLetters.isUpper_eq c hAscii] at hUpper
  have hKept : c.toLower = c :=
    dif_neg (of_decide_eq_false hUpper)
  rw [hLetters.lower_eq _ hOne, List.map_singleton, hKept]

theorem dehyphenate_addRun
    (hLetters : letters.OnAscii)
    {run : Str}
    (hAscii : IsAscii run)
    (slug after : Str) :
    dehyphenate (addRun letters slug run after) =
      dehyphenate slug ++ dehyphenate (letters.lower run) := by
  have hParts :
      run.dropLast ++ run.drop (run.length - 1) = run := by
    rw [List.dropLast_eq_take, List.take_append_drop]
  unfold addRun
  split
  · have hLower :
        letters.lower run =
          letters.lower run.dropLast ++
            letters.lower (run.drop (run.length - 1)) := by
      rw [← hLetters.lower_append (by rwa [hParts]), hParts]
    simp [hLower]
  · simp

/- The loop only adds hyphens to the text in lower case. -/
theorem dehyphenate_slugFrom
    (hLetters : letters.OnAscii)
    {text : Str}
    (hAscii : IsAscii text)
    (slug : Str) :
    dehyphenate (slugFrom letters slug text) =
      dehyphenate slug ++ dehyphenate (letters.lower text) := by
  induction slug, text using slugFrom.induct letters with
  | case1 slug =>
      rw [slugFrom, hLetters.lower_eq _ hAscii]
      simp [dehyphenate]
  | case2 slug ch rest hUpper run after ih =>
      have hText : run ++ after = ch :: rest := by
        rw [List.cons_append, List.takeWhile_append_dropWhile]
      have hRun : IsAscii run :=
        hAscii.sublist (hText ▸ List.sublist_append_left _ _)
      have hAfter : IsAscii after :=
        hAscii.sublist (hText ▸ List.sublist_append_right _ _)
      rw [slugFrom, if_pos hUpper, ih hAfter,
        dehyphenate_addRun hLetters hRun, ← hText,
        hLetters.lower_append (by rwa [hText]),
        dehyphenate_append, List.append_assoc]
  | case3 slug ch rest hUpper ih =>
      have hRest : IsAscii rest :=
        hAscii.sublist (List.sublist_cons_self ch rest)
      have hLower :
          letters.lower (ch :: rest) =
            ch :: letters.lower rest := by
        rw [← List.singleton_append,
          hLetters.lower_append hAscii,
          hLetters.lower_singleton
            (hAscii ch List.mem_cons_self) (by simpa using hUpper)]
        rfl
      rw [slugFrom, if_neg hUpper, ih hRest, hLower,
        ← List.singleton_append (l := letters.lower rest)]
      simp only [dehyphenate_append, List.append_assoc]

theorem dehyphenate_operationSlug
    (hLetters : letters.OnAscii)
    {name : Str}
    (hAscii : IsAscii name) :
    dehyphenate (operationSlug letters name) =
      normalized letters name := by
  unfold operationSlug normalized
  rw [dehyphenate_slugFrom hLetters
    (isAscii_stripPrefixes hAscii)]
  rfl

end AsyncapiDocs

------------------------------------------------------------
-- The Operation of a Page
------------------------------------------------------------

namespace AsyncapiDocs

open Python (Str Value PyError mem_of_mem_setEntry
  mem_keys_setEntry mem_of_lookup)

variable {letters : Letters}

/- An entry has the slug of its operation. -/
theorem entry_slugMap
    {names : List Str}
    {entry : Str × Value}
    (hMem : entry ∈ slugMap letters names) :
    ∃ name ∈ names,
      entry = (operationSlug letters name, .str name) := by
  induction names using List.reverseRecOn with
  | nil => exact absurd hMem List.not_mem_nil
  | append_singleton names name ih =>
      rw [slugMap, List.foldl_concat] at hMem
      rcases mem_of_mem_setEntry hMem with hNew | hOld
      · exact ⟨name, by simp, hNew⟩
      · rcases ih hOld with ⟨other, hOther, hEntry⟩
        exact ⟨other, List.mem_append_left _ hOther, hEntry⟩

/- Another operation may take a slug over, but none is lost. -/
theorem slug_mem_slugMap
    {names : List Str}
    {name : Str}
    (hMem : name ∈ names) :
    operationSlug letters name ∈
      (slugMap letters names).map Prod.fst := by
  induction names using List.reverseRecOn with
  | nil => exact absurd hMem List.not_mem_nil
  | append_singleton names last ih =>
      rw [slugMap, List.foldl_concat, mem_keys_setEntry]
      rcases List.mem_append.mp hMem with hOld | hLast
      · exact Or.inr (ih hOld)
      · rw [List.mem_singleton.mp hLast]
        exact Or.inl rfl

/- What is found is an entry with the slug, but for hyphens. -/
theorem entry_of_matchBmsOperation
    {opMap : List (Str × Value)}
    {slugSuffix : Str}
    {op : Value}
    (hMatch : matchBmsOperation slugSuffix opMap = some op) :
    ∃ entry ∈ opMap,
      dehyphenate entry.1 = dehyphenate slugSuffix ∧
        entry.2 = op := by
  unfold matchBmsOperation at hMatch
  split at hMatch
  · rename_i name hLookup
    cases hMatch
    exact ⟨_, mem_of_lookup hLookup, rfl, rfl⟩
  · rcases Option.map_eq_some_iff.mp hMatch with
      ⟨entry, hFind, hOp⟩
    exact ⟨entry, List.mem_of_find?_eq_some hFind,
      by simpa using List.find?_some hFind, hOp⟩

theorem isSome_matchBmsOperation
    {opMap : List (Str × Value)}
    {slugSuffix : Str}
    {entry : Str × Value}
    (hMem : entry ∈ opMap)
    (hSlug : dehyphenate entry.1 = dehyphenate slugSuffix) :
    (matchBmsOperation slugSuffix opMap).isSome = true := by
  unfold matchBmsOperation
  split
  · rfl
  · rw [Option.isSome_map, List.find?_isSome]
    exact ⟨entry, hMem, by simpa using hSlug⟩

/-
  A page has an operation exactly when the name of one is the
  slug of the page but for prefix, case and hyphens.
-/
theorem matchBmsOperation_iff
    (hLetters : letters.OnAscii)
    {spec : Value}
    {names : List Str}
    (hNames : operationNames spec = .ok names)
    (hAscii : ∀ name ∈ names, IsAscii name) :
    (∀ name ∈ names,
      dehyphenate (operationSlug letters name) =
        normalized letters name) ∧
      ∃ opMap, buildBmsOpMap letters spec = .ok opMap ∧
        ∀ slugSuffix,
          ((matchBmsOperation slugSuffix opMap).isSome = true ↔
            ∃ name ∈ names,
              normalized letters name =
                dehyphenate slugSuffix) ∧
          ∀ op, matchBmsOperation slugSuffix opMap = some op →
            ∃ name ∈ names, op = .str name ∧
              normalized letters name =
                dehyphenate slugSuffix := by
  have hSlug :
      ∀ name ∈ names,
        dehyphenate (operationSlug letters name) =
          normalized letters name := fun name hMem =>
    dehyphenate_operationSlug hLetters (hAscii name hMem)
  have hFound :
      ∀ slugSuffix op,
        matchBmsOperation slugSuffix (slugMap letters names) =
            some op →
          ∃ name ∈ names, op = .str name ∧
            normalized letters name =
              dehyphenate slugSuffix := by
    intro slugSuffix op hMatch
    rcases entry_of_matchBmsOperation hMatch with
      ⟨entry, hEntry, hSame, hOp⟩
    rcases entry_slugMap hEntry with ⟨name, hMem, rfl⟩
    exact ⟨name, hMem, hOp.symm, (hSlug name hMem).symm.trans hSame⟩
  refine ⟨hSlug, slugMap letters names, ?_, ?_⟩
  · rw [buildBmsOpMap, hNames]
    rfl
  · refine fun slugSuffix => ⟨⟨?_, ?_⟩, hFound slugSuffix⟩
    · intro hSome
      rcases Option.isSome_iff_exists.mp hSome with ⟨op, hMatch⟩
      rcases hFound slugSuffix op hMatch with
        ⟨name, hMem, _, hName⟩
      exact ⟨name, hMem, hName⟩
    · rintro ⟨name, hMem, hName⟩
      rcases List.mem_map.mp (slug_mem_slugMap hMem) with
        ⟨entry, hEntry, hKey⟩
      apply isSome_matchBmsOperation hEntry
      rw [hKey, hSlug name hMem, hName]

/- The letters of ASCII alone. -/
def asciiLetters : Letters where
  isUpper := Char.isUpper
  lower := fun s => s.map Char.toLower

theorem onAscii_asciiLetters : asciiLetters.OnAscii where
  isUpper_eq := fun _ _ => rfl
  lower_eq := fun _ _ => rfl

/- Two names that share a slug, and a third one. -/
def threeOperations : Value :=
  .dict
    [("operations".toList,
      .dict
        [("receiveAHUMetadata".toList, .dict []),
          ("publishAHUMetadata".toList, .dict []),
          ("receiveUPSStatus2B".toList, .dict [])])]

theorem matchBmsOperation_threeOperations :
    ∃ opMap,
      buildBmsOpMap asciiLetters threeOperations = .ok opMap ∧
        (matchBmsOperation "ups-status2-b".toList
          opMap).isSome = true := by
  have hNames :
      operationNames threeOperations =
        .ok ["receiveAHUMetadata".toList,
          "publishAHUMetadata".toList,
          "receiveUPSStatus2B".toList] := rfl
  have hAscii :
      ∀ name ∈
        ["receiveAHUMetadata".toList,
          "publishAHUMetadata".toList,
          "receiveUPSStatus2B".toList],
        IsAscii name := by
    intro name hMem
    simp only [List.mem_cons, List.not_mem_nil, or_false]
      at hMem
    unfold IsAscii
    rcases hMem with rfl | rfl | rfl <;>
      exact List.all_iff_forall_prop.mp rfl
  have hAll :=
    matchBmsOperation_iff onAscii_asciiLetters hNames hAscii
  rcases hAll.2 with ⟨opMap, hMap, hMatch⟩
  refine ⟨opMap, hMap, ?_⟩
  rw [(hMatch _).1]
  exact ⟨"receiveUPSStatus2B".toList, by simp, by decide⟩

end AsyncapiDocs
