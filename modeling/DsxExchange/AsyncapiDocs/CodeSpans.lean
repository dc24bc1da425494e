import DsxExchange.AsyncapiDocs.Escaping
import Mathlib.Data.List.Basic

/-
  The escaping against the inline code of a line. A code span
  is opened by a run of backticks and closed by a later run of
  the same length; the escaping counts single backticks.

  Key definitions include:
    * `AsyncapiDocs.closing`, `AsyncapiDocs.spans`
    * `AsyncapiDocs.Renders`
    * `AsyncapiDocs.escapeInside`
    * `AsyncapiDocs.Agrees`

  Key theorems include:
    * `AsyncapiDocs.escapeFrom_eq_escapeInside`
    * `AsyncapiDocs.renders_escapeInside_iff`
    * `AsyncapiDocs.renders_escapeLine_iff`
-/

------------------------------------------------------------
-- Code Spans
------------------------------------------------------------

namespace AsyncapiDocs

open Python (Str)

/-
  Where the next run of exactly `n` backticks ends, after a
  run that has begun.
-/
def closing (n : ℕ) : ℕ → Str → Option ℕ
| run, [] => if run = n then some 0 else none
| run, c :: rest =>
    if c = '`' then
      (closing n (run + 1) rest).map (· + 1)
    else if run = n then
      some 0
    else
      (closing n 0 rest).map (· + 1)

/- The length of the run of backticks at the start. -/
def ticks (line : Str) : ℕ :=
  (line.takeWhile (· = '`')).length

/-
  Which characters stand in a closed span. The counters are
  what a run that nothing closes and what a span still cover.
-/
def spansFrom : ℕ → ℕ → Str → List Bool
| _, _, [] => []
| run, span + 1, _ :: rest => true :: spansFrom run span rest
| run + 1, 0, _ :: rest => false :: spansFrom run 0 rest
| 0, 0, c :: rest =>
    if c = '`' then
      let more := ticks rest
      match closing (more + 1) 0 (rest.drop more) with
      | some covered =>
          true :: spansFrom 0 (more + covered) rest
      | none => false :: spansFrom more 0 rest
    else
      false :: spansFrom 0 0 rest

def spans (line : Str) : List Bool :=
  spansFrom 0 0 line

@[simp] theorem length_spansFrom
    (run span : ℕ)
    (line : Str) :
    (spansFrom run span line).length = line.length := by
  induction line generalizing run span with
  | nil => simp [spansFrom]
  | cons c rest ih =>
      cases span with
      | succ span => simp [spansFrom, ih]
      | zero =>
          cases run with
          | succ run => simp [spansFrom, ih]
          | zero =>
              rw [spansFrom]
              split_ifs
              · dsimp only
                split <;> simp [ih]
              · simp [ih]

example :
    spans "`a``b` ``c` d``".toList =
      List.replicate 6 true ++ [false] ++
        List.replicate 8 true := by
  decide

end AsyncapiDocs

------------------------------------------------------------
-- Escaped Lines
------------------------------------------------------------

namespace AsyncapiDocs

open Python (Str)

def isBrace (c : Char) : Bool :=
  c = '\x7b' || c = '\x7d'

/-
  What may stand for a character: in a span the character,
  for a brace the escaped brace, and for an angle bracket
  also its entity.
-/
def Stands (inSpan : Bool) (c : Char) (out : Str) : Prop :=
  if inSpan then
    out = [c]
  else if isBrace c then
    out = ['\\', c]
  else
    out = [c] ∨ (c = '<' ∧ out = "&lt;".toList)

/- A line with the braces outside of its spans escaped. -/
inductive Renders : Str → List Bool → Str → Prop where
  | nil : Renders [] [] []
  | cons {c : Char} {inSpan : Bool} {line out written : Str}
      {marks : List Bool}
      (hStands : Stands inSpan c written)
      (hRest : Renders line marks out) :
      Renders (c :: line) (inSpan :: marks) (written ++ out)

/- What the loop writes for a character. -/
def written (inside : Bool) (c : Char) (rest : Str) : Str :=
  if inside then
    [c]
  else if isBrace c then
    ['\\', c]
  else if c = '<' ∧ isBareTag rest then
    "&lt;".toList
  else
    [c]

/-
  The loop with the parity of the backticks that it has read
  in place of what a span still covers.
-/
def escapeInside : Bool → Str → Str
| _, [] => []
| inside, c :: rest =>
    written inside c rest ++
      escapeInside (inside ^^ (c = '`')) rest

theorem escapeInside_of_notMem
    {line : Str}
    (hLine : '`' ∉ line) :
    escapeInside true line = line := by
  induction line with
  | nil => rfl
  | cons c rest ih =>
      rw [List.mem_cons, not_or] at hLine
      have hOther : decide (c = '`') = false :=
        decide_eq_false (Ne.symm hLine.1)
      rw [escapeInside, hOther, Bool.xor_false, ih hLine.2]
      rfl

/-
  Both forms of the loop, before a span and in a span that a
  backtick closes.
-/
theorem escapeFrom_eq_escapeInside
    (line : Str) :
    escapeFrom 0 line = escapeInside false line ∧
      ('`' ∈ line →
        escapeFrom (line.idxOf '`' + 1) line =
          escapeInside true line) := by
  induction line with
  | nil => exact ⟨rfl, fun hMem => absurd hMem (by simp)⟩
  | cons c rest ih =>
      by_cases hTick : c = '`'
      · subst hTick
        refine ⟨?_, fun _ => ?_⟩
        · rw [escapeFrom, if_pos rfl, escapeInside]
          by_cases hClosed : '`' ∈ rest
          · rw [if_pos hClosed, ih.2 hClosed]
            rfl
          · have hKept := escapeInside_of_notMem hClosed
            rw [if_neg hClosed]
            exact congrArg _ hKept.symm
        · rw [List.idxOf_cons_self, escapeFrom, ih.1]
          rfl
      · have hOther : decide (c = '`') = false :=
          decide_eq_false hTick
        refine ⟨?_, fun hMem => ?_⟩
        · rw [escapeFrom, if_neg hTick, escapeInside, hOther,
            Bool.xor_false, ← ih.1, written, isBrace]
          by_cases hOpen : c = '\x7b'
          · simp [hOpen]
          · by_cases hClose : c = '\x7d'
            · simp [hClose]
            · rw [if_neg hOpen, if_neg hClose]
              split_ifs with hTag <;> simp_all
        · have hRest : '`' ∈ rest :=
            (List.mem_cons.mp hMem).resolve_left
              (Ne.symm hTick)
          rw [List.idxOf_cons_ne _ hTick, escapeFrom,
            escapeInside, hOther, Bool.xor_false, ih.2 hRest]
          rfl

/- What is written for a character in either reading. -/
def Emitted (c : Char) (out : Str) : Prop :=
  out = [c] ∨ (isBrace c = true ∧ out = ['\\', c]) ∨
    (c = '<' ∧ out = "&lt;".toList)

theorem Stands.emitted
    {inSpan : Bool}
    {c : Char}
    {out : Str}
    (hStands : Stands inSpan c out) :
    Emitted c out := by
  unfold Stands at hStands
  split_ifs at hStands with hSpan hBrace
  · exact Or.inl hStands
  · exact Or.inr (Or.inl ⟨hBrace, hStands⟩)
  · exact hStands.imp_right Or.inr

theorem emitted_written
    (inside : Bool)
    (c : Char)
    (rest : Str) :
    Emitted c (written inside c rest) := by
  unfold written
  split_ifs with hInside hBrace hTag
  · exact Or.inl rfl
  · exact Or.inr (Or.inl ⟨hBrace, rfl⟩)
  · exact Or.inr (Or.inr ⟨hTag.1, rfl⟩)
  · exact Or.inl rfl

/- What is written for a character can be read back. -/
theorem Emitted.cancel
    {c : Char}
    {out out' rest rest' : Str}
    (hOut : Emitted c out)
    (hOut' : Emitted c out')
    (hSame : out ++ rest = out' ++ rest') :
    out = out' ∧ rest = rest' := by
  have hSlash : isBrace c = true → '\\' ≠ c := by
    rintro hBrace rfl
    exact absurd hBrace (by decide)
  rcases hOut with rfl | ⟨hBrace, rfl⟩ | ⟨rfl, rfl⟩ <;>
    rcases hOut' with rfl | ⟨hBrace', rfl⟩ | ⟨hTag, rfl⟩ <;>
    simp_all [isBrace]

end AsyncapiDocs

------------------------------------------------------------
-- Where Both Readings Agree
------------------------------------------------------------

namespace AsyncapiDocs

open Python (Str)

def oddTicks (line : Str) : Bool :=
  line.count '`' % 2 = 1

theorem oddTicks_cons (c : Char) (rest : Str) :
    oddTicks (c :: rest) =
      ((c = '`') ^^ oddTicks rest) := by
  unfold oddTicks
  rw [List.count_cons]
  by_cases hTick : c = '`'
  · simp only [hTick, beq_self_eq_true, if_true,
      decide_true, Bool.true_xor]
    rw [← decide_not, decide_eq_decide]
    omega
  · simp [hTick]

/-
  A brace stands in a span exactly if an odd number of
  backticks stands before it, and a bare tag in a span has an
  odd number of them before it.
-/
structure Agrees
    (inside : Bool)
    (marks : List Bool)
    (line : Str) : Prop where
  braces :
    ∀ before c after, line = before ++ c :: after →
      isBrace c = true →
        marks[before.length]? =
          some (inside ^^ oddTicks before)
  tags :
    ∀ before after, line = before ++ '<' :: after →
      isBareTag after = true →
        marks[before.length]? = some true →
          (inside ^^ oddTicks before) = true

theorem agrees_cons_iff
    {inside inSpan : Bool}
    {marks : List Bool}
    {c : Char}
    {rest : Str} :
    Agrees inside (inSpan :: marks) (c :: rest) ↔
      ((isBrace c = true → inSpan = inside) ∧
        (c = '<' → isBareTag rest = true → inSpan = true →
          inside = true)) ∧
        Agrees (inside ^^ (c = '`')) marks rest := by
  constructor
  · intro hAll
    refine ⟨⟨?_, ?_⟩, ?_, ?_⟩
    · intro hBrace
      have hMark := hAll.braces [] c rest rfl hBrace
      simpa [oddTicks] using hMark
    · rintro rfl hTag hSpan
      have hInside := hAll.tags [] rest rfl hTag
      simpa [oddTicks, hSpan] using hInside
    · rintro before d after rfl hBrace
      have hMark :=
        hAll.braces (c :: before) d after rfl hBrace
      rwa [oddTicks_cons, ← Bool.xor_assoc] at hMark
    · rintro before after rfl hTag hSpan
      have hInside :=
        hAll.tags (c :: before) after rfl hTag hSpan
      rwa [oddTicks_cons, ← Bool.xor_assoc] at hInside
  · rintro ⟨⟨hBrace, hTag⟩, hRest⟩
    constructor
    · intro before d after hSplit hOther
      cases before with
      | nil =>
          cases hSplit
          simpa [oddTicks] using hBrace hOther
      | cons first before =>
          cases hSplit
          have hMark :=
            hRest.braces before d after rfl hOther
          rwa [oddTicks_cons, ← Bool.xor_assoc]
    · intro before after hSplit hOther hSpan
      cases before with
      | nil =>
          cases hSplit
          simp only [List.length_nil, List.getElem?_cons_zero,
            Option.some.injEq] at hSpan
          simpa [oddTicks] using hTag rfl hOther hSpan
      | cons first before =>
          cases hSplit
          have hInside :=
            hRest.tags before after rfl hOther hSpan
          rwa [oddTicks_cons, ← Bool.xor_assoc]

theorem stands_written_iff
    {inSpan inside : Bool}
    {c : Char}
    {rest : Str} :
    Stands inSpan c (written inside c rest) ↔
      (isBrace c = true → inSpan = inside) ∧
        (c = '<' → isBareTag rest = true → inSpan = true →
          inside = true) := by
  have hBracket : isBrace '<' = false := rfl
  unfold Stands written
  cases inSpan <;> cases inside <;>
    by_cases hBrace : isBrace c = true <;>
    by_cases hTag : c = '<' ∧ isBareTag rest = true <;>
    simp_all

theorem renders_escapeInside_iff
    {inside : Bool}
    {marks : List Bool}
    {line : Str}
    (hLength : marks.length = line.length) :
    Renders line marks (escapeInside inside line) ↔
      Agrees inside marks line := by
  induction line generalizing inside marks with
  | nil =>
      rw [List.length_eq_zero_iff.mp hLength]
      exact ⟨fun _ => ⟨by simp, by simp⟩, fun _ => .nil⟩
  | cons c rest ih =>
      cases marks with
      | nil => cases hLength
      | cons inSpan marks =>
          rw [agrees_cons_iff, ← stands_written_iff,
            ← ih (Nat.succ.inj hLength), escapeInside]
          constructor
          · intro hRenders
            generalize hOut : written inside c rest ++
              escapeInside (inside ^^ (c = '`')) rest = out
              at hRenders
            cases hRenders with
            | cons hStands hRest =>
                rcases (emitted_written inside c rest).cancel
                    hStands.emitted hOut with ⟨hHead, hTail⟩
                rw [hHead, hTail]
                exact ⟨hStands, hRest⟩
          · rintro ⟨hStands, hRest⟩
            exact .cons hStands hRest

/-
  A line is rendered with its braces escaped and its spans
  kept exactly if the count of the backticks agrees with the
  spans at its braces and bare tags.
-/
theorem renders_escapeLine_iff
    (line : Str) :
    Renders line (spans line) (escapeLine line) ↔
      Agrees false (spans line) line := by
  rw [escapeLine, (escapeFrom_eq_escapeInside line).1]
  exact renders_escapeInside_iff (length_spansFrom 0 0 line)

/- Two backticks on each side do not protect a brace. -/
theorem not_renders_doubleTicks :
    ¬ ∀ line : Str, isFence line = false →
      Renders line (spans line) (escapeLine line) := by
  intro hClaim
  have hRenders := hClaim "``\x7ba``".toList (by decide)
  rw [escapeLine, (escapeFrom_eq_escapeInside _).1,
    renders_escapeInside_iff (by decide)] at hRenders
  have hMark :=
    hRenders.braces "``".toList '\x7b' "a``".toList rfl
      (by decide)
  revert hMark
  decide

end AsyncapiDocs
