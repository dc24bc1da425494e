import DsxExchange.Go.Strings
import Mathlib.Data.List.Basic

/-
  The parts of the Go standard library on texts that the
  services call, on lists of characters.

  Key definitions include:
    * `Go.getShellName`, `Go.expand`, `Go.expandEnv`
    * `Go.quote`, `Go.countByte`
    * `Go.fields`, `Go.IsWord`
    * `Go.decodeRawURL`

  Key theorems include:
    * `Go.mem_fields_iff_isWord`
-/

------------------------------------------------------------
-- Environment Expansion
------------------------------------------------------------

namespace Go

/-
  A process environment. `none` is an unset variable, which
  `os.Getenv` does not tell apart from an empty one.
-/
abbrev Env := String → Option String

/- `os.Getenv`. -/
def getenv (env : Env) (key : String) : String :=
  (env key).getD ""

/- `os.isShellSpecialVar`. -/
def isShellSpecialVar (c : Char) : Bool :=
  c ∈ ['*', '#', '$', '@', '!', '?', '-'] || c.isDigit

/- `os.isAlphaNum`. -/
def isAlphaNum (c : Char) : Bool :=
  c = '_' || c.isAlphanum

/-
  `os.getShellName`: the variable named at the start of a
  text that follows a dollar sign, and how many characters
  the name takes there. An empty name with a positive width
  is bad syntax, which the caller eats.
-/
def getShellName : List Char → List Char × Nat
| [] => ([], 0)
| '{' :: rest =>
    match rest with
    | c :: '}' :: _ =>
        if isShellSpecialVar c then
          ([c], 3)
        else
          scanBrace rest
    | _ => scanBrace rest
| c :: rest =>
    if isShellSpecialVar c then
      ([c], 1)
    else
      let name := (c :: rest).takeWhile isAlphaNum
      (name, name.length)
where
  /- Scan to the closing brace. -/
  scanBrace (rest : List Char) : List Char × Nat :=
    let name := rest.takeWhile (· ≠ '}')
    if name.length = rest.length then
      ([], 1)
    else if name = [] then
      ([], 2)
    else
      (name, name.length + 2)

/-
  The loop of `os.Expand`. The counter is the number of
  characters that the last name still covers.
-/
def expandFrom (mapping : List Char → List Char) :
    Nat → List Char → List Char
| _, [] => []
| skip + 1, _ :: rest => expandFrom mapping skip rest
| 0, c :: rest =>
    if c = '$' ∧ rest ≠ [] then
      let (name, width) := getShellName rest
      if name = [] ∧ 0 < width then
        expandFrom mapping width rest
      else if name = [] then
        c :: expandFrom mapping width rest
      else
        mapping name ++ expandFrom mapping width rest
    else
      c :: expandFrom mapping 0 rest

/- `os.Expand`. -/
def expand
    (s : String)
    (mapping : String → String) : String :=
  String.ofList
    (expandFrom
      (fun name => (mapping (String.ofList name)).toList)
      0 s.toList)

/- `os.ExpandEnv`. -/
def expandEnv (env : Env) (s : String) : String :=
  expand s (getenv env)

example :
    expandEnv
        (fun key => if key = "A" then some "x" else none)
        "${A}-$A-${B}-$" = "x-x--$" := by
  decide

end Go

------------------------------------------------------------
-- Strings
------------------------------------------------------------

namespace Go

/- The escape of a character in a quoted text. -/
def quoteChar (c : Char) : List Char :=
  match c.toNat with
  | 0x07 => ['\\', 'a']
  | 0x08 => ['\\', 'b']
  | 0x09 => ['\\', 't']
  | 0x0A => ['\\', 'n']
  | 0x0B => ['\\', 'v']
  | 0x0C => ['\\', 'f']
  | 0x0D => ['\\', 'r']
  | n =>
      if c = '"' ∨ c = '\\' then
        ['\\', c]
      else if n < 0x20 ∨ n = 0x7F then
        ['\\', 'x', Nat.digitChar (n / 16),
          Nat.digitChar (n % 16)]
      else
        [c]

/-
  The `%q` form of a text. Characters beyond ASCII are all
  taken as printable.
-/
def quote (s : String) : String :=
  String.ofList
    ('"' :: s.toList.flatMap quoteChar ++ ['"'])

/- `strings.Count` for a one-byte separator. -/
def countByte (s : String) (c : Char) : Nat :=
  s.toList.count c

/- `unicode.IsSpace`. -/
def isSpace (c : Char) : Bool :=
  c.toNat ∈
      [0x09, 0x0A, 0x0B, 0x0C, 0x0D, 0x20, 0x85, 0xA0,
        0x1680, 0x2028, 0x2029, 0x202F, 0x205F, 0x3000] ||
    (0x2000 ≤ c.toNat && c.toNat ≤ 0x200A)

/- `strings.Fields`: the maximal runs without white space. -/
def fields (s : String) : List String :=
  ((s.toList.splitOnP isSpace).filter
    (fun word => !word.isEmpty)).map String.ofList

/-
  The word is a whole run without white space: what stands
  before it ends in white space, what follows starts so.
-/
structure IsWord (chars word : List Char) : Prop where
  nonempty : word ≠ []
  solid : ∀ c ∈ word, isSpace c = false
  bounded :
    ∃ before after,
      chars = before ++ word ++ after ∧
        (∀ c ∈ before.getLast?, isSpace c = true) ∧
          ∀ c ∈ after.head?, isSpace c = true

/- A part of a text lies between two of its separators. -/
theorem mem_splitOnP_iff
    {α : Type}
    {isSep : α → Bool}
    {chars part : List α} :
    part ∈ chars.splitOnP isSep ↔
      (∀ c ∈ part, isSep c = false) ∧
        ∃ before after,
          chars = before ++ part ++ after ∧
            (∀ c ∈ before.getLast?, isSep c = true) ∧
              ∀ c ∈ after.head?, isSep c = true := by
  constructor
  · intro hPart
    induction hLength : chars.length using
      Nat.strongRecOn generalizing chars with
    | _ length ih =>
        -- Cut the text at its first separator.
        cases hFind : chars.find? isSep with
        | none =>
            have hSolid : ∀ c ∈ chars, isSep c = false := by
              simpa using hFind
            rw [List.splitOnP_eq_singleton hSolid,
              List.mem_singleton] at hPart
            subst hPart
            exact
              ⟨hSolid, [], [], by simp, by simp, by simp⟩
        | some sep =>
            rcases List.find?_eq_some_iff_append.mp hFind with
              ⟨hSep, first, rest, rfl, hNone⟩
            have hFirst : ∀ c ∈ first, isSep c = false := by
              simpa using hNone
            rw [List.splitOnP_append_cons_of_forall_mem
              hFirst sep hSep, List.mem_cons] at hPart
            rcases hPart with rfl | hPart
            · exact ⟨hFirst, [], sep :: rest, by simp,
                by simp, by simpa using hSep⟩
            · have hShorter : rest.length < length := by
                rw [← hLength, List.length_append,
                  List.length_cons]
                omega
              rcases ih _ hShorter hPart rfl with
                ⟨hSolid, before, after, rfl, hBefore,
                  hAfter⟩
              refine ⟨hSolid, first ++ sep :: before, after,
                by simp, ?_, hAfter⟩
              intro c hLast
              cases before with
              | nil =>
                  have hEq : sep = c := by simpa using hLast
                  rw [← hEq]
                  exact hSep
              | cons b others =>
                  apply hBefore
                  simpa using hLast
  · rintro ⟨hSolid, before, after, rfl, hBefore, hAfter⟩
    have hTail :
        part ∈ (part ++ after).splitOnP isSep := by
      cases after with
      | nil =>
          rw [List.append_nil,
            List.splitOnP_eq_singleton hSolid]
          exact List.mem_singleton_self part
      | cons sep rest =>
          rw [List.splitOnP_append_cons_of_forall_mem hSolid
            sep (hAfter sep rfl)]
          exact List.mem_cons_self
    rcases List.eq_nil_or_concat before with
      rfl | ⟨front, sep, rfl⟩
    · simpa using hTail
    · rw [List.concat_eq_append, List.append_assoc,
        List.append_assoc, List.singleton_append,
        List.splitOnP_append_cons front (part ++ after)
          (hBefore sep (by simp))]
      exact List.mem_append_right _ hTail

/- The fields of a text are its words. -/
theorem mem_fields_iff_isWord
    {s word : String} :
    word ∈ fields s ↔ IsWord s.toList word.toList := by
  have hMem :
      word ∈ fields s ↔
        word.toList ∈ s.toList.splitOnP isSpace ∧
          word.toList ≠ [] := by
    simp only [fields, List.mem_map, List.mem_filter]
    constructor
    · rintro ⟨chars, ⟨hPart, hSome⟩, rfl⟩
      simpa using And.intro hPart hSome
    · rintro ⟨hPart, hSome⟩
      exact ⟨word.toList, ⟨hPart, by simpa using hSome⟩,
        String.ofList_toList⟩
  rw [hMem, mem_splitOnP_iff]
  constructor
  · rintro ⟨⟨hSolid, hBounded⟩, hSome⟩
    exact ⟨hSome, hSolid, hBounded⟩
  · rintro ⟨hSome, hSolid, hBounded⟩
    exact ⟨⟨hSolid, hBounded⟩, hSome⟩

example : fields " mqtt  openid" = ["mqtt", "openid"] := by
  decide

/- No part of a text holds the separator. -/
theorem not_mem_of_mem_split
    {s part : String}
    {sep : Char}
    (hPart : part ∈ split s sep) :
    sep ∉ part.toList := by
  rcases List.mem_map.mp hPart with ⟨chars, hChars, rfl⟩
  intro hSep
  rw [String.toList_ofList] at hSep
  have hFree := (mem_splitOnP_iff.mp hChars).1 sep hSep
  rw [beq_self_eq_true] at hFree
  cases hFree

end Go

------------------------------------------------------------
-- Base64
------------------------------------------------------------

namespace Go

/- The URL-safe base64 alphabet. -/
def base64URLValue? (c : Char) : Option Nat :=
  if c.isUpper then
    some (c.toNat - 65)
  else if c.isLower then
    some (c.toNat - 97 + 26)
  else if c.isDigit then
    some (c.toNat - 48 + 52)
  else if c = '-' then
    some 62
  else if c = '_' then
    some 63
  else
    none

/-
  The six-bit values of a text, with line breaks dropped. A
  character outside the alphabet fails at its own position.
-/
def base64Sextets :
    Nat → List Char → Except Nat (List Nat)
| _, [] => .ok []
| position, c :: rest =>
    if c = '\r' ∨ c = '\n' then
      base64Sextets (position + 1) rest
    else
      match base64URLValue? c with
      | none => .error position
      | some value =>
          (base64Sextets (position + 1) rest).map
            (value :: ·)

/-
  The bytes of a row of six-bit values. The spare bits of a
  last, partial group are dropped without a check, as outside
  strict mode.
-/
def base64Bytes : List Nat → List UInt8
| a :: b :: c :: d :: rest =>
    UInt8.ofNat (a * 4 + b / 16) ::
      UInt8.ofNat (b % 16 * 16 + c / 4) ::
        UInt8.ofNat (c % 4 * 64 + d) :: base64Bytes rest
| [a, b, c] =>
    [UInt8.ofNat (a * 4 + b / 16),
      UInt8.ofNat (b % 16 * 16 + c / 4)]
| [a, b] => [UInt8.ofNat (a * 4 + b / 16)]
| _ => []

/- `base64.CorruptInputError`. -/
def corruptInputError (position : Nat) : String :=
  "illegal base64 data at input byte " ++ toString position

/- `base64.RawURLEncoding.DecodeString`. -/
def decodeRawURL (s : String) : Except String (List UInt8) :=
  match base64Sextets 0 s.toList with
  | .error position => .error (corruptInputError position)
  | .ok sextets =>
      if sextets.length % 4 = 1 then
        .error (corruptInputError (s.toList.length - 1))
      else
        .ok (base64Bytes sextets)

example : decodeRawURL "AQ_-" = .ok [1, 15, 254] := by
  decide

end Go

------------------------------------------------------------
-- Expansion Of One Variable
------------------------------------------------------------

namespace Go

variable {mapping : List Char → List Char}

/- Characters that the last name covers are left out. -/
theorem expandFrom_skip
    (skip : Nat)
    (chars : List Char) :
    expandFrom mapping skip chars =
      expandFrom mapping 0 (chars.drop skip) := by
  induction skip generalizing chars with
  | zero => simp
  | succ skip ih =>
      cases chars with
      | nil => simp [expandFrom]
      | cons c rest =>
          rw [expandFrom, ih, List.drop_succ_cons]

theorem expandFrom_of_not_mem
    {chars : List Char}
    (hDollar : '$' ∉ chars) :
    expandFrom mapping 0 chars = chars := by
  induction chars with
  | nil => simp [expandFrom]
  | cons c rest ih =>
      rw [List.mem_cons, not_or] at hDollar
      have hOther : ¬ (c = '$' ∧ rest ≠ []) := by
        intro hBoth
        exact hDollar.1 hBoth.1.symm
      rw [expandFrom, if_neg hOther, ih hDollar.2]

/- A text without a dollar sign expands to itself. -/
theorem expandEnv_of_not_mem
    (env : Env)
    {s : String}
    (hDollar : '$' ∉ s.toList) :
    expandEnv env s = s := by
  apply String.toList_inj.mp
  rw [expandEnv, expand, String.toList_ofList,
    expandFrom_of_not_mem hDollar]

/- The name between braces is taken whole. -/
theorem getShellName_braces
    {name : List Char}
    (hNonempty : name ≠ [])
    (hBrace : '}' ∉ name)
    (hSpecial : ∀ c, name = [c] → isShellSpecialVar c = false) :
    getShellName ('{' :: (name ++ ['}'])) =
      (name, name.length + 2) := by
  have hTake :
      (name ++ ['}']).takeWhile (· ≠ '}') = name := by
    rw [List.takeWhile_append_of_pos]
    · simp
    · intro c hMem
      have hNe : c ≠ '}' := by
        intro hEq
        rw [hEq] at hMem
        exact hBrace hMem
      simpa using hNe
  have hScan :
      getShellName.scanBrace (name ++ ['}']) =
        (name, name.length + 2) := by
    unfold getShellName.scanBrace
    rw [hTake]
    simp [hNonempty]
  cases name with
  | nil => exact absurd rfl hNonempty
  | cons first others =>
      cases others with
      | nil =>
          have hPlain := hSpecial first rfl
          simp only [List.cons_append, List.nil_append]
            at hScan ⊢
          rw [getShellName, hPlain]
          exact hScan
      | cons second rest =>
          have hSecond : second ≠ '}' := by
            intro hEq
            apply hBrace
            rw [hEq]
            simp
          simp only [List.cons_append] at hScan ⊢
          rw [getShellName]
          · exact hScan
          · intro c tail hEq
            simp only [List.cons.injEq] at hEq
            exact hSecond hEq.2.1

/- A text that is one variable in braces is its value. -/
theorem expandEnv_braces
    (env : Env)
    {name : String}
    (hNonempty : name ≠ "")
    (hBrace : '}' ∉ name.toList)
    (hSpecial :
      ∀ c, name.toList = [c] → isShellSpecialVar c = false) :
    expandEnv env ("$\x7b" ++ name ++ "\x7d") =
      getenv env name := by
  have hList : name.toList ≠ [] := by
    intro hNil
    exact hNonempty (String.toList_inj.mp (by simpa using hNil))
  have hName :=
    getShellName_braces hList hBrace hSpecial
  apply String.toList_inj.mp
  unfold expandEnv expand
  rw [String.toList_ofList]
  have hChars :
      ("$\x7b" ++ name ++ "\x7d").toList =
        '$' :: '{' :: (name.toList ++ ['}']) := by
    simp
  rw [hChars, expandFrom, if_pos ⟨rfl, by simp⟩, hName]
  simp only [hList, false_and, if_false]
  rw [expandFrom_skip]
  simp [expandFrom]

end Go
