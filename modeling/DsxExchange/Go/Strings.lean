import Mathlib.Data.List.Basic
import Mathlib.Data.List.Infix

/-
  Splitting, joining and trimming of texts, as in the package
  `strings`.

  Key definitions include:
    * `Go.bytes`
    * `Go.split`, `Go.join`, `Go.joinWith`, `Go.cut`
    * `Go.hasPrefix`, `Go.hasSuffix`
    * `Go.trimPrefix`, `Go.trimSuffix`
    * `Go.contains`, `Go.replaceAll`

  Key theorems include:
    * `Go.join_split`, `Go.split_join`
    * `Go.hasPrefix_iff`
    * `Go.replaceAll_of_not_contains`
-/

------------------------------------------------------------
-- Prefixes And Suffixes
------------------------------------------------------------

namespace Go

/- A conversion `[]byte(s)`. -/
def bytes (s : String) : List UInt8 :=
  s.toList.flatMap String.utf8EncodeChar

/- `strings.HasPrefix`. -/
def hasPrefix (s start : String) : Bool :=
  start.toList.isPrefixOf s.toList

/- `strings.HasSuffix`. -/
def hasSuffix (s tail : String) : Bool :=
  tail.toList.isSuffixOf s.toList

/- `strings.TrimPrefix`. -/
def trimPrefix (s start : String) : String :=
  if hasPrefix s start then
    String.ofList (s.toList.drop start.toList.length)
  else
    s

/- `strings.TrimSuffix`. -/
def trimSuffix (s tail : String) : String :=
  if hasSuffix s tail then
    String.ofList
      (s.toList.take (s.toList.length - tail.toList.length))
  else
    s

theorem hasPrefix_iff
    {s start : String} :
    hasPrefix s start = true ↔
      ∃ rest, s = start ++ rest := by
  rw [hasPrefix, List.isPrefixOf_iff_prefix]
  constructor
  · rintro ⟨rest, hRest⟩
    refine ⟨String.ofList rest, ?_⟩
    apply String.toList_inj.mp
    rw [String.toList_append, String.toList_ofList, hRest]
  · rintro ⟨rest, rfl⟩
    rw [String.toList_append]
    exact List.prefix_append _ _

@[simp] theorem trimPrefix_append
    (start rest : String) :
    trimPrefix (start ++ rest) start = rest := by
  rw [trimPrefix, if_pos (hasPrefix_iff.mpr ⟨rest, rfl⟩),
    String.toList_append, List.drop_left,
    String.ofList_toList]

example :
    trimSuffix (trimPrefix "(a)" "(") ")" = "a" := by
  decide

end Go

------------------------------------------------------------
-- Parts
------------------------------------------------------------

namespace Go

/- `strings.Split` at a one-byte separator. -/
def split (s : String) (sep : Char) : List String :=
  (s.toList.splitOn sep).map String.ofList

/- `strings.Join` with a one-byte separator. -/
def join (parts : List String) (sep : Char) : String :=
  String.ofList
    ([sep].intercalate (parts.map String.toList))

/- `strings.Join`. -/
def joinWith (sep : String) (parts : List String) : String :=
  String.ofList
    (sep.toList.intercalate (parts.map String.toList))

theorem split_ne_nil (s : String) (sep : Char) :
    split s sep ≠ [] := by
  unfold split
  rw [Ne, List.map_eq_nil_iff]
  exact List.splitOn_ne_nil sep s.toList

/- The parts of a text make it up again. -/
theorem join_split (s : String) (sep : Char) :
    join (split s sep) sep = s := by
  have hParts :
      (split s sep).map String.toList =
        s.toList.splitOn sep := by
    simp [split, Function.comp_def]
  rw [join, hParts, List.intercalate_splitOn,
    String.ofList_toList]

/- Parts without the separator are found again. -/
theorem split_join
    {parts : List String}
    {sep : Char}
    (hSome : parts ≠ [])
    (hParts : ∀ part ∈ parts, sep ∉ part.toList) :
    split (join parts sep) sep = parts := by
  rw [split, join, String.toList_ofList,
    List.splitOn_intercalate]
  · simp [Function.comp_def]
  · intro chars hChars
    rcases List.mem_map.mp hChars with ⟨part, hPart, rfl⟩
    exact hParts part hPart
  · simpa using hSome

@[simp] theorem join_singleton
    (part : String)
    (sep : Char) :
    join [part] sep = part := by
  simp [join]

/- A text is split at its first separator. -/
theorem split_of_toList_eq
    {s part rest : String}
    {sep : Char}
    (hChars : s.toList = part.toList ++ sep :: rest.toList)
    (hPart : sep ∉ part.toList) :
    split s sep = part :: split rest sep := by
  rw [split, hChars,
    List.splitOn_append_cons_self_of_not_mem hPart]
  simp [split]

/- The first part ends at the first separator. -/
theorem split_join_cons
    {part : String}
    {rest : List String}
    {sep : Char}
    (hPart : sep ∉ part.toList)
    (hRest : rest ≠ []) :
    split (join (part :: rest) sep) sep =
      part :: split (join rest sep) sep := by
  have hChars :
      (join (part :: rest) sep).toList =
        part.toList ++ sep :: (join rest sep).toList := by
    rw [join, join, String.toList_ofList,
      String.toList_ofList, List.map_cons,
      List.intercalate_cons_of_ne_nil (by simpa using hRest)]
    simp
  exact split_of_toList_eq hChars hPart

/- Joined parts are empty only for one empty part. -/
theorem join_ne_empty
    {part : String}
    (hPart : part ≠ "")
    (rest : List String)
    (sep : Char) :
    join (part :: rest) sep ≠ "" := by
  intro hEmpty
  have hChars :
      [sep].intercalate
        ((part :: rest).map String.toList) = [] := by
    have hList := congrArg String.toList hEmpty
    rwa [join, String.toList_ofList] at hList
  apply hPart
  apply String.toList_inj.mp
  cases rest with
  | nil => simpa using hChars
  | cons next others =>
      simp [List.intercalate_cons_cons] at hChars

example : split "a//b" '/' = ["a", "", "b"] := by
  decide

end Go

------------------------------------------------------------
-- Replacement
------------------------------------------------------------

namespace Go

/- `strings.Contains`. -/
def contains (s old : String) : Bool :=
  decide (old.toList <:+: s.toList)

/-
  The loop of `strings.ReplaceAll` for a text that is not
  empty. The counter is the number of characters that the
  last match still covers.
-/
def replaceFrom (old new : List Char) :
    Nat → List Char → List Char
| _, [] => []
| skip + 1, _ :: rest => replaceFrom old new skip rest
| 0, c :: rest =>
    if old.isPrefixOf (c :: rest) then
      new ++ replaceFrom old new (old.length - 1) rest
    else
      c :: replaceFrom old new 0 rest

/- `strings.ReplaceAll`. -/
def replaceAll (s old new : String) : String :=
  String.ofList
    (replaceFrom old.toList new.toList 0 s.toList)

/- Without a match nothing is replaced. -/
theorem replaceAll_of_not_contains
    {s old : String}
    (hNone : contains s old = false)
    (new : String) :
    replaceAll s old new = s := by
  have hLoop :
      ∀ chars : List Char,
        ¬ old.toList <:+: chars →
          replaceFrom old.toList new.toList 0 chars =
            chars := by
    intro chars hChars
    induction chars with
    | nil => rfl
    | cons c rest ih =>
        have hHead :
            ¬ old.toList.isPrefixOf (c :: rest) = true := by
          intro hMatch
          have hPrefix := List.isPrefixOf_iff_prefix.mp hMatch
          exact hChars hPrefix.isInfix
        have hRest : ¬ old.toList <:+: rest :=
          fun h => hChars (List.infix_cons h)
        rw [replaceFrom, if_neg hHead, ih hRest]
  have hInfix : ¬ old.toList <:+: s.toList :=
    of_decide_eq_false hNone
  rw [replaceAll, hLoop _ hInfix, String.ofList_toList]

example : replaceAll "a{t}b{t}" "{t}" "7" = "a7b7" := by
  decide

end Go

------------------------------------------------------------
-- Cutting
------------------------------------------------------------

namespace Go

/- The characters before and after the first separator. -/
def cutChars (sep : Char) :
    List Char → Option (List Char × List Char)
| [] => none
| c :: rest =>
    if c = sep then
      some ([], rest)
    else
      (cutChars sep rest).map
        (fun parts => (c :: parts.1, parts.2))

/- `strings.Cut` at a one-byte separator. -/
def cut (s : String) (sep : Char) :
    Option (String × String) :=
  (cutChars sep s.toList).map
    (fun parts =>
      (String.ofList parts.1, String.ofList parts.2))

theorem cutChars_eq_none_iff
    {sep : Char}
    {chars : List Char} :
    cutChars sep chars = none ↔ sep ∉ chars := by
  induction chars with
  | nil => simp [cutChars]
  | cons c rest ih =>
      by_cases hSep : c = sep
      · simp [cutChars, hSep]
      · simp [cutChars, hSep, ih, Ne.symm hSep]

theorem splitOn_of_cutChars
    {sep : Char}
    {chars first rest : List Char}
    (hCut : cutChars sep chars = some (first, rest)) :
    sep ∉ first ∧
      chars.splitOn sep = first :: rest.splitOn sep := by
  induction chars generalizing first with
  | nil => cases hCut
  | cons c tail ih =>
      by_cases hSep : c = sep
      · simp only [cutChars, hSep, if_true,
          Option.some.injEq, Prod.mk.injEq] at hCut
        rw [hSep, ← hCut.1, ← hCut.2]
        refine ⟨List.not_mem_nil, ?_⟩
        rw [List.splitOn_cons_eq_if_modifyHead]
        simp
      · simp only [cutChars, hSep, if_false,
          Option.map_eq_some_iff] at hCut
        rcases hCut with ⟨⟨part, others⟩, hTail, hEq⟩
        cases hEq
        rcases ih hTail with ⟨hPart, hSplit⟩
        refine ⟨by simp [hPart, Ne.symm hSep], ?_⟩
        rw [List.splitOn_cons_eq_if_modifyHead, hSplit]
        simp [hSep]

/- Without the separator there is one part. -/
theorem split_of_cut_none
    {s : String}
    {sep : Char}
    (hCut : cut s sep = none) :
    split s sep = [s] := by
  have hNot : sep ∉ s.toList :=
    cutChars_eq_none_iff.mp (by simpa [cut] using hCut)
  rw [split, List.splitOn_eq_singleton hNot]
  simp

/- A cut takes the first part. -/
theorem split_of_cut_some
    {s first rest : String}
    {sep : Char}
    (hCut : cut s sep = some (first, rest)) :
    split s sep = first :: split rest sep := by
  unfold cut at hCut
  rcases Option.map_eq_some_iff.mp hCut with
    ⟨⟨before, after⟩, hChars, hEq⟩
  cases hEq
  simp [split, (splitOn_of_cutChars hChars).2]

/- The separators of a text are one fewer than its parts. -/
theorem length_split
    (s : String)
    (sep : Char) :
    (split s sep).length = s.toList.count sep + 1 := by
  have hLength :
      ∀ chars : List Char,
        (chars.splitOn sep).length =
          chars.count sep + 1 := by
    intro chars
    induction chars with
    | nil => simp
    | cons c rest ih =>
        rw [List.splitOn_cons_eq_if_modifyHead]
        by_cases hSep : c = sep
        · simp [hSep, ih]
        · simp [hSep, ih]
  simp [split, hLength]

example : cut "a.b.c" '.' = some ("a", "b.c") := by
  decide

end Go
