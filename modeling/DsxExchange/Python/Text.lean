import Mathlib.Data.List.DropRight

/-
  Python strings as lists of characters: white space, lines,
  and the methods of `str` on them.

  Key definitions include:
    * `Python.Str`, `Python.isSpace`
    * `Python.lstrip`, `Python.strip`
    * `Python.lines`, `Python.unlines`

  Key theorems include:
    * `Python.lines_unlines`, `Python.lines_append`
    * `Python.strip_eq_nil_iff`
    * `Python.lstrip_rstrip`, `Python.strip_append`
-/

------------------------------------------------------------
-- White Space
------------------------------------------------------------

namespace Python

abbrev Str := List Char

/- `str.isspace` for one character. -/
def isSpace (c : Char) : Bool :=
  (0x09 ≤ c.toNat && c.toNat ≤ 0x0D) ||
    (0x1C ≤ c.toNat && c.toNat ≤ 0x20) ||
    (0x2000 ≤ c.toNat && c.toNat ≤ 0x200A) ||
    c.toNat ∈
      [0x85, 0xA0, 0x1680, 0x2028, 0x2029, 0x202F, 0x205F,
        0x3000]

/- `str.lstrip`. -/
def lstrip (s : Str) : Str :=
  s.dropWhile isSpace

/- `str.rstrip`. -/
def rstrip (s : Str) : Str :=
  s.rdropWhile isSpace

/- `str.strip`. -/
def strip (s : Str) : Str :=
  (lstrip s).rdropWhile isSpace

theorem lstrip_eq_nil_iff
    {s : Str} :
    lstrip s = [] ↔ ∀ c ∈ s, isSpace c = true := by
  rw [lstrip, List.dropWhile_eq_nil_iff]

theorem strip_eq_nil_iff
    {s : Str} :
    strip s = [] ↔ ∀ c ∈ s, isSpace c = true := by
  rw [strip, List.rdropWhile_eq_nil_iff]
  constructor
  · intro hAll c hMem
    rw [← List.takeWhile_append_dropWhile
      (p := isSpace) (l := s)] at hMem
    rcases List.mem_append.mp hMem with hFront | hBack
    · exact List.mem_takeWhile_imp hFront
    · exact hAll c hBack
  · intro hAll c hMem
    exact hAll c ((List.dropWhile_suffix _).mem hMem)

end Python

------------------------------------------------------------
-- Stripping
------------------------------------------------------------

namespace Python

theorem rstrip_lstrip (s : Str) :
    rstrip (lstrip s) = strip s :=
  rfl

theorem rstrip_length_le (s : Str) :
    (rstrip s).length ≤ s.length :=
  (List.rdropWhile_prefix _ s).length_le

theorem rstrip_concat_space
    (s : Str)
    {c : Char}
    (hSpace : isSpace c = true) :
    rstrip (s ++ [c]) = rstrip s :=
  List.rdropWhile_concat_pos _ _ _ hSpace

theorem rstrip_concat
    (s : Str)
    {c : Char}
    (hChar : ¬ isSpace c = true) :
    rstrip (s ++ [c]) = s ++ [c] :=
  List.rdropWhile_concat_neg _ _ _ hChar

/- What ends with a character that is no space is kept. -/
theorem rstrip_append
    {front : Str}
    {c : Char}
    (hLast : isSpace c = false)
    (back : Str) :
    rstrip (front ++ [c] ++ back) =
      front ++ [c] ++ rstrip back := by
  induction back using List.reverseRecOn with
  | nil =>
      have hChar : ¬ isSpace c = true := by simp [hLast]
      rw [List.append_nil, rstrip_concat front hChar]
      exact (List.append_nil _).symm
  | append_singleton back d ih =>
      rw [← List.append_assoc]
      by_cases hSpace : isSpace d = true
      · rw [rstrip_concat_space _ hSpace,
          rstrip_concat_space _ hSpace, ih]
      · rw [rstrip_concat _ hSpace, rstrip_concat _ hSpace,
          List.append_assoc]

/- The two ends of a text are stripped in any order. -/
theorem lstrip_rstrip (s : Str) :
    lstrip (rstrip s) = rstrip (lstrip s) := by
  induction s using List.reverseRecOn with
  | nil => rfl
  | append_singleton s c ih =>
      have hFront :
          lstrip (s ++ [c]) =
            if (lstrip s).isEmpty then
              lstrip [c]
            else
              lstrip s ++ [c] :=
        List.dropWhile_append
      by_cases hSpace : isSpace c = true
      · have hNone : lstrip [c] = [] :=
          List.dropWhile_cons_of_pos hSpace
        rw [rstrip_concat_space s hSpace, ih, hFront, hNone]
        split
        next hEmpty =>
          rw [List.isEmpty_iff.mp hEmpty]
        next => rw [rstrip_concat_space _ hSpace]
      · have hSome : lstrip [c] = [c] :=
          List.dropWhile_cons_of_neg hSpace
        rw [rstrip_concat s hSpace, hFront, hSome]
        split
        · exact (rstrip_concat [] hSpace).symm
        · exact (rstrip_concat _ hSpace).symm

theorem strip_rstrip (s : Str) : strip (rstrip s) = strip s := by
  rw [← rstrip_lstrip, ← rstrip_lstrip, lstrip_rstrip]
  exact List.rdropWhile_idempotent _ _

theorem strip_lstrip (s : Str) : strip (lstrip s) = strip s :=
  congrArg rstrip (List.dropWhile_idempotent _ _)

theorem strip_strip (s : Str) : strip (strip s) = strip s := by
  rw [← rstrip_lstrip s, strip_rstrip, strip_lstrip]
  rfl

/- What a text starts with, up to no space, is kept. -/
theorem strip_append
    {c d : Char}
    {front : Str}
    (hFirst : isSpace c = false)
    (hLast : isSpace d = false)
    (back : Str) :
    strip (c :: (front ++ [d]) ++ back) =
      c :: (front ++ [d]) ++ rstrip back := by
  have hStart :
      lstrip (c :: (front ++ [d]) ++ back) =
        c :: (front ++ [d]) ++ back :=
    List.dropWhile_cons_of_neg (by simp [hFirst])
  rw [← rstrip_lstrip, hStart, ← List.cons_append,
    rstrip_append hLast]

theorem strip_wrapped
    {c d : Char}
    (hFirst : isSpace c = false)
    (hLast : isSpace d = false)
    (s : Str) :
    strip (c :: (s ++ [d])) = c :: (s ++ [d]) := by
  have hStrip :
      strip (c :: (s ++ [d]) ++ []) =
        c :: (s ++ [d]) ++ rstrip [] :=
    strip_append hFirst hLast []
  rwa [List.append_nil, rstrip, List.rdropWhile_nil,
    List.append_nil] at hStrip

/- The first character, if it is no space, is kept. -/
theorem strip_cons
    {c : Char}
    (hFirst : isSpace c = false)
    (back : Str) :
    strip (c :: back) = c :: rstrip back := by
  have hStart : lstrip (c :: back) = [] ++ [c] ++ back :=
    List.dropWhile_cons_of_neg (by simp [hFirst])
  rw [← rstrip_lstrip, hStart, rstrip_append hFirst]
  rfl

theorem isSpace_of_head_strip
    {s : Str}
    {c : Char}
    (hHead : c ∈ (strip s).head?) :
    isSpace c = false := by
  have hFront : strip s <+: lstrip s :=
    List.rdropWhile_prefix _ _
  have hNot := List.head?_dropWhile_not isSpace s
  rcases hFront with ⟨back, hBack⟩
  cases hStrip : strip s with
  | nil =>
      rw [hStrip] at hHead
      cases hHead
  | cons d text =>
      rw [hStrip] at hHead hBack
      cases hHead
      have hLine : s.dropWhile isSpace = c :: (text ++ back) :=
        hBack.symm
      rw [hLine] at hNot
      exact hNot

end Python

------------------------------------------------------------
-- Lines
------------------------------------------------------------

namespace Python

/- `s.split("\n")`. -/
def lines (s : Str) : List Str :=
  s.splitOn '\n'

/- `"\n".join(parts)`. -/
def unlines (parts : List Str) : Str :=
  ['\n'].intercalate parts

theorem lines_ne_nil (s : Str) : lines s ≠ [] :=
  List.splitOn_ne_nil _ _

theorem unlines_lines (s : Str) : unlines (lines s) = s :=
  List.intercalate_splitOn _

theorem lines_unlines
    {parts : List Str}
    (hSome : parts ≠ [])
    (hParts : ∀ part ∈ parts, '\n' ∉ part) :
    lines (unlines parts) = parts :=
  List.splitOn_intercalate _ hParts hSome

theorem lines_append (s rest : Str) :
    lines (s ++ '\n' :: rest) = lines s ++ lines rest :=
  List.splitOn_append_cons_self _ _

theorem newline_not_mem_of_mem_lines
    {s line : Str}
    (hMem : line ∈ lines s) :
    '\n' ∉ line := by
  unfold lines at hMem
  induction s generalizing line with
  | nil =>
      rw [List.splitOn_nil, List.mem_singleton] at hMem
      rw [hMem]
      exact List.not_mem_nil
  | cons c s ih =>
      rw [List.splitOn_cons_eq_if_modifyHead] at hMem
      by_cases hChar : (c == '\n') = true
      · rw [if_pos hChar, List.mem_cons] at hMem
        rcases hMem with rfl | hMem
        · exact List.not_mem_nil
        · exact ih hMem
      · rw [if_neg hChar] at hMem
        cases hParts : s.splitOn '\n' with
        | nil => exact absurd hParts (lines_ne_nil s)
        | cons part parts =>
            rw [hParts] at hMem ih
            rw [List.modifyHead_cons, List.mem_cons] at hMem
            rcases hMem with rfl | hMem
            · have hPart : '\n' ∉ part :=
                ih List.mem_cons_self
              intro hNewline
              rcases List.mem_cons.mp hNewline with rfl | hIn
              · exact hChar rfl
              · exact hPart hIn
            · exact ih (List.mem_cons_of_mem _ hMem)

theorem unlines_append_singleton
    {parts : List Str}
    (hSome : parts ≠ [])
    (line : Str) :
    unlines (parts ++ [line]) =
      unlines parts ++ '\n' :: line := by
  unfold unlines
  induction parts with
  | nil => exact absurd rfl hSome
  | cons part parts ih =>
      cases parts with
      | nil => simp [List.intercalate_cons_cons]
      | cons next others =>
          have hMore : next :: others ++ [line] ≠ [] := by simp
          rw [List.cons_append,
            List.intercalate_cons_of_ne_nil hMore,
            ih (by simp), List.intercalate_cons_cons]
          simp

@[simp] theorem unlines_singleton (line : Str) :
    unlines [line] = line := by
  simp [unlines]

/- A part of what is joined occurs in it. -/
theorem infix_intercalate
    {parts : List Str}
    {line : Str}
    (separator : Str)
    (hMem : line ∈ parts) :
    line <:+: separator.intercalate parts := by
  induction parts with
  | nil => exact absurd hMem List.not_mem_nil
  | cons part rest ih =>
      cases rest with
      | nil =>
          have hSame := List.mem_singleton.mp hMem
          subst hSame
          simp
      | cons next others =>
          rw [List.intercalate_cons_cons, List.append_assoc]
          rcases List.mem_cons.mp hMem with rfl | hMem
          · exact List.infix_append_of_infix_left List.infix_rfl
          · exact List.infix_append_of_infix_right
              (List.infix_append_of_infix_right (ih hMem))

theorem infix_unlines
    {parts : List Str}
    {line : Str}
    (hMem : line ∈ parts) :
    line <:+: unlines parts :=
  infix_intercalate ['\n'] hMem

/- A character at the end belongs to the last line. -/
theorem lines_concat
    {c : Char}
    (hChar : c ≠ '\n')
    (s : Str) :
    ∃ front last,
      lines s = front ++ [last] ∧
        lines (s ++ [c]) = front ++ [last ++ [c]] := by
  rcases List.eq_nil_or_concat (lines s) with
    hNil | ⟨front, last, hLines⟩
  · exact absurd hNil (lines_ne_nil s)
  · rw [List.concat_eq_append] at hLines
    refine ⟨front, last, hLines, ?_⟩
    have hText : unlines (front ++ [last]) = s := by
      rw [← hLines, unlines_lines]
    have hLonger :
        unlines (front ++ [last ++ [c]]) = s ++ [c] := by
      rw [← hText]
      by_cases hFront : front = []
      · simp [hFront]
      · simp [unlines_append_singleton hFront]
    rw [← hLonger]
    apply lines_unlines (by simp)
    intro line hMem
    have hOld :
        ∀ line ∈ front ++ [last], '\n' ∉ line := by
      rw [← hLines]
      exact fun line => newline_not_mem_of_mem_lines
    rcases List.mem_append.mp hMem with hFront | hLast
    · exact hOld line (List.mem_append_left _ hFront)
    · rw [List.mem_singleton.mp hLast, List.mem_append,
        List.mem_singleton, not_or]
      exact ⟨hOld last (by simp), hChar.symm⟩

/- Lines of joined parts are those of the parts. -/
theorem lines_unlines_flatMap
    {parts : List Str}
    (hSome : parts ≠ []) :
    lines (unlines parts) = parts.flatMap lines := by
  induction parts with
  | nil => exact absurd rfl hSome
  | cons part parts ih =>
      by_cases hParts : parts = []
      · simp [hParts]
      · rw [unlines, List.intercalate_cons_of_ne_nil hParts,
          List.append_assoc, List.singleton_append,
          lines_append, List.flatMap_cons, ← ih hParts]
        rfl

end Python
