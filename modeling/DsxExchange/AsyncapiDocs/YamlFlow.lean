import DsxExchange.AsyncapiDocs.YamlWriting
import Mathlib.Data.Bool.AllAny

/-
  Flow sequences of quoted strings and of further sequences,
  and which of them are read back. The parser splits at commas
  by the depth of brackets, within quotes as well, and reads
  each part as a scalar.

  Key definitions include:
    * `AsyncapiDocs.Yaml.FlowItem`
    * `AsyncapiDocs.Yaml.flowDepth`
    * `AsyncapiDocs.Yaml.SplitsAtCommas`

  Key theorems include:
    * `AsyncapiDocs.Yaml.inlineFlowSeq_eq_iff`
    * `AsyncapiDocs.Yaml.flowSeq_roundTrip_iff`
-/

------------------------------------------------------------
-- Written Sequences
------------------------------------------------------------

namespace AsyncapiDocs.Yaml

open Python (Str Value isSpace strip lstrip)

/- A string, or a sequence of items. -/
inductive FlowItem where
  | str (s : Str)
  | list (items : List FlowItem)

def quoted (s : Str) : Str :=
  '\'' :: (s ++ ['\''])

mutual

/- The text of an item, with each string in single quotes. -/
def FlowItem.written : FlowItem → Str
| .str s => quoted s
| .list items => '[' :: (writtenItems items ++ [']'])

def writtenItems : List FlowItem → Str
| [] => []
| item :: rest => item.written ++ writtenRest rest

/- Further items, each behind a comma. -/
def writtenRest : List FlowItem → Str
| [] => []
| item :: rest => ',' :: ' ' :: (item.written ++ writtenRest rest)

end

mutual

/- The value that an item stands for. -/
def FlowItem.value : FlowItem → Value
| .str s => .str s
| .list items => .list (valuesOf items)

def valuesOf : List FlowItem → List Value
| [] => []
| item :: rest => item.value :: valuesOf rest

end

mutual

/- The characters of the strings. -/
def FlowItem.chars : FlowItem → Str
| .str s => s
| .list items => charsOf items

def charsOf : List FlowItem → Str
| [] => []
| item :: rest => item.chars ++ charsOf rest

end

/- Strings without quotes and line breaks. -/
def PlainItems (items : List FlowItem) : Prop :=
  ∀ c ∈ charsOf items,
    c ≠ '\'' ∧ c ≠ '"' ∧ isLineBreak c = false

/-
  The brackets and braces that are open behind a text, unless
  there is a comma outside of them.
-/
def flowDepth : ℤ → Str → Option ℤ
| depth, [] => some depth
| depth, c :: rest =>
    if c = '\x7b' ∨ c = '[' then
      flowDepth (depth + 1) rest
    else if c = '\x7d' ∨ c = ']' then
      flowDepth (depth - 1) rest
    else if c = ',' ∧ depth = 0 then
      none
    else
      flowDepth depth rest

/-
  All items are strings. None has a comma outside of its
  brackets, and each but the last closes as many as it opens.
-/
def SplitsAtCommas : List FlowItem → Prop
| [] => True
| [.str s] => flowDepth 0 s ≠ none
| .str s :: rest => flowDepth 0 s = some 0 ∧ SplitsAtCommas rest
| .list _ :: _ => False

end AsyncapiDocs.Yaml

------------------------------------------------------------
-- Stripping
------------------------------------------------------------

namespace AsyncapiDocs.Yaml

open Python (Str Value isSpace strip lstrip rstrip
  strip_append strip_wrapped)

theorem strip_quoted_append (s back : Str) :
    strip (quoted s ++ back) = quoted s ++ rstrip back :=
  strip_append rfl rfl back

theorem strip_quoted (s : Str) : strip (quoted s) = quoted s :=
  strip_wrapped rfl rfl s

theorem strip_space (s : Str) : strip (' ' :: s) = strip s :=
  strip_spaces 1 s

end AsyncapiDocs.Yaml

------------------------------------------------------------
-- Comments and Quotes
------------------------------------------------------------

namespace AsyncapiDocs.Yaml

open Python (Str Value isSpace strip lstrip rstrip strip_cons
  rstrip_length_le)

variable {scalars : Scalars}

/- A text without quotes. -/
def NoQuotes (s : Str) : Prop :=
  ∀ c ∈ s, c ≠ '\'' ∧ c ≠ '"'

/- No comment starts within quotes. -/
theorem beforeComment_quoted
    {s : Str}
    (hQuotes : NoQuotes s)
    (starts : Bool)
    (back : Str) :
    beforeComment false false starts (quoted s ++ back) =
      (beforeComment false false false back).map
        (quoted s ++ ·) := by
  have hWithin :
      ∀ starts,
        beforeComment true false starts (s ++ '\'' :: back) =
          (beforeComment false false false back).map
            (s ++ '\'' :: ·) := by
    induction s with
    | nil =>
        intro starts
        simp [beforeComment]
    | cons c s ih =>
        intro starts
        have hChar := hQuotes c List.mem_cons_self
        have hRest :=
          ih (fun d hMem => hQuotes d (List.mem_cons_of_mem c hMem))
            (c = ' ')
        rw [List.cons_append, beforeComment,
          if_neg (by simp [hChar.1]), if_neg (by simp),
          if_neg (by simp), hRest, Option.map_map]
        rfl
  have hText :
      quoted s ++ back = '\'' :: (s ++ '\'' :: back) := by
    simp [quoted]
  rw [hText, beforeComment, if_pos (by simp), Bool.not_false,
    hWithin, Option.map_map]
  simp [quoted, Function.comp_def]

theorem beforeComment_length_le
    {inSingle inDouble starts : Bool}
    {text front : Str}
    (hBefore :
      beforeComment inSingle inDouble starts text = some front) :
    front.length ≤ text.length := by
  induction text generalizing inSingle inDouble starts front with
  | nil => cases hBefore
  | cons c text ih =>
      rw [beforeComment] at hBefore
      split at hBefore
      · rcases Option.map_eq_some_iff.mp hBefore with
          ⟨more, hMore, rfl⟩
        exact Nat.succ_le_succ (ih hMore)
      · split at hBefore
        · rcases Option.map_eq_some_iff.mp hBefore with
            ⟨more, hMore, rfl⟩
          exact Nat.succ_le_succ (ih hMore)
        · split at hBefore
          · cases hBefore
            exact Nat.zero_le _
          · rcases Option.map_eq_some_iff.mp hBefore with
              ⟨more, hMore, rfl⟩
            exact Nat.succ_le_succ (ih hMore)

/- A comment starts behind the first quote, if at all. -/
theorem stripComment_quote (back : Str) :
    ∃ more, stripComment ('\'' :: back) = '\'' :: more ∧
      more.length ≤ back.length := by
  unfold stripComment
  rw [beforeComment, if_pos (by simp), Bool.not_false]
  cases hBefore : beforeComment true false false back with
  | none =>
      rw [Option.map_none, Option.getD_none,
        strip_cons (by rfl)]
      exact ⟨_, rfl, rstrip_length_le back⟩
  | some front =>
      rw [Option.map_some, Option.getD_some,
        strip_cons (by rfl)]
      refine ⟨_, rfl, (rstrip_length_le front).trans ?_⟩
      exact beforeComment_length_le hBefore

theorem stripComment_quoted
    {s : Str}
    (hQuotes : NoQuotes s) :
    stripComment (quoted s) = quoted s := by
  have hNone := beforeComment_quoted hQuotes true []
  rw [List.append_nil, beforeComment, Option.map_none] at hNone
  rw [stripComment, hNone, Option.getD_none, strip_quoted]

theorem eq_of_isWithin
    {c : Char}
    {text : Str}
    (hWithin : isWithin c text = true) :
    (inner text = [] ∧ text.length = 1) ∨
      text = c :: (inner text ++ [c]) := by
  simp only [isWithin, startsWith, Bool.and_eq_true,
    beq_iff_eq] at hWithin
  cases text with
  | nil => cases hWithin.1
  | cons d rest =>
      rw [List.head?_cons, Option.some_inj] at hWithin
      rcases List.eq_nil_or_concat rest with
        rfl | ⟨mid, e, rfl⟩
      · exact Or.inl ⟨rfl, rfl⟩
      · right
        have hLast := hWithin.2
        rw [List.concat_eq_append, ← List.cons_append,
          List.getLast?_concat, Option.some_inj] at hLast
        simp [inner, hWithin.1, hLast]

/- A scalar that is a text has it as it is, or within quotes. -/
theorem stripComment_of_scalar
    {text s : Str}
    (hScalar : scalars.scalar text = .str s) :
    stripComment text = quoted s ∨
      stripComment text = '"' :: (s ++ ['"']) ∨
      stripComment text = s ∨
      (s = [] ∧ (stripComment text).length = 1) := by
  unfold Scalars.scalar at hScalar
  dsimp only at hScalar
  generalize stripComment text = text at hScalar ⊢
  by_cases hEmpty : text = []
  · rw [if_pos hEmpty] at hScalar
    cases hScalar
  rw [if_neg hEmpty] at hScalar
  by_cases hQuoted :
    (isWithin '\'' text || isWithin '"' text) = true
  · rw [if_pos hQuoted] at hScalar
    cases hScalar
    rw [Bool.or_eq_true] at hQuoted
    rcases hQuoted with hSingle | hDouble
    · rcases eq_of_isWithin hSingle with hOne | hText
      · exact Or.inr (Or.inr (Or.inr hOne))
      · exact Or.inl hText
    · rcases eq_of_isWithin hDouble with hOne | hText
      · exact Or.inr (Or.inr (Or.inr hOne))
      · exact Or.inr (Or.inl hText)
  rw [if_neg hQuoted] at hScalar
  refine Or.inr (Or.inr (Or.inl ?_))
  split at hScalar
  · cases hScalar
  split at hScalar
  · cases hScalar
  split at hScalar
  · cases hScalar
  unfold Scalars.number at hScalar
  split at hScalar <;> split at hScalar <;> cases hScalar <;>
    rfl

theorem scalar_quoted
    {s : Str}
    (hQuotes : NoQuotes s) :
    scalars.scalar (quoted s) = .str s := by
  have hWithin : isWithin '\'' (quoted s) = true := by
    simp [isWithin, startsWith, quoted, List.getLast?_cons]
  have hInner : inner (quoted s) = s := by
    simp [inner, quoted]
  unfold Scalars.scalar
  have hSome : quoted s ≠ [] := List.cons_ne_nil _ _
  simp only [stripComment_quoted hQuotes, hWithin, hInner,
    Bool.true_or, if_true, if_neg hSome]

end AsyncapiDocs.Yaml

------------------------------------------------------------
-- Splitting
------------------------------------------------------------

namespace AsyncapiDocs.Yaml

open Python (Str Value isSpace strip lstrip rstrip)

variable {scalars : Scalars}

/- A text without a comma to split at goes to one part. -/
theorem splitFlowFrom_append
    {depth depth' : ℤ}
    {s : Str}
    (hDepth : flowDepth depth s = some depth')
    (current back : Str) :
    splitFlowFrom depth current (s ++ back) =
      splitFlowFrom depth' (current ++ s) back := by
  induction s generalizing depth current with
  | nil =>
      cases hDepth
      rw [List.nil_append, List.append_nil]
  | cons c s ih =>
      rw [flowDepth] at hDepth
      rw [List.cons_append, splitFlowFrom]
      split at hDepth
      · next hOpen =>
          rw [if_pos hOpen, ih hDepth, List.append_assoc]
          rfl
      · next hOpen =>
          rw [if_neg hOpen]
          split at hDepth
          · next hClose =>
              rw [if_pos hClose, ih hDepth, List.append_assoc]
              rfl
          · next hClose =>
              rw [if_neg hClose]
              split at hDepth
              · cases hDepth
              · next hComma =>
                  rw [if_neg hComma, ih hDepth,
                    List.append_assoc]
                  rfl

/- A comma outside of brackets ends the part within a text. -/
theorem splitFlowFrom_comma
    {depth : ℤ}
    {s : Str}
    (hDepth : flowDepth depth s = none)
    (current back : Str) :
    ∃ front, front.length < s.length ∧
      ∃ parts,
        splitFlowFrom depth current (s ++ back) =
          (current ++ front) :: parts := by
  induction s generalizing depth current with
  | nil => cases hDepth
  | cons c s ih =>
      rw [flowDepth] at hDepth
      rw [List.cons_append, splitFlowFrom]
      have hMore :
          ∀ depth,
            flowDepth depth s = none →
              ∃ front, front.length < (c :: s).length ∧
                ∃ parts,
                  splitFlowFrom depth (current ++ [c])
                      (s ++ back) =
                    (current ++ front) :: parts := by
        intro depth hNone
        rcases ih hNone (current ++ [c]) with
          ⟨front, hLess, parts, hParts⟩
        refine ⟨c :: front, Nat.succ_lt_succ hLess, parts, ?_⟩
        rw [hParts, List.append_assoc, List.singleton_append]
      split at hDepth
      · next hOpen =>
          rw [if_pos hOpen]
          exact hMore _ hDepth
      · next hOpen =>
          rw [if_neg hOpen]
          split at hDepth
          · next hClose =>
              rw [if_pos hClose]
              exact hMore _ hDepth
          · next hClose =>
              rw [if_neg hClose]
              split at hDepth
              · next hComma =>
                  rw [if_pos hComma]
                  exact ⟨[], Nat.succ_pos _, _,
                    by rw [List.append_nil]⟩
              · next hComma =>
                  rw [if_neg hComma]
                  exact hMore _ hDepth

/- What is in the current part stays there. -/
theorem splitFlowFrom_head
    (depth : ℤ)
    {current : Str}
    (hSome : current ≠ [])
    (back : Str) :
    ∃ more parts,
      splitFlowFrom depth current back =
        (current ++ more) :: parts := by
  induction back generalizing depth current with
  | nil =>
      refine ⟨[], [], ?_⟩
      rw [splitFlowFrom, if_pos hSome, List.append_nil]
  | cons c back ih =>
      have hMore :
          ∀ depth,
            ∃ more parts,
              splitFlowFrom depth (current ++ [c]) back =
                (current ++ more) :: parts := by
        intro depth
        rcases ih depth (List.concat_ne_nil c current) with
          ⟨more, parts, hParts⟩
        refine ⟨c :: more, parts, ?_⟩
        rw [hParts, List.append_assoc, List.singleton_append]
      rw [splitFlowFrom]
      split
      · exact hMore _
      · split
        · exact hMore _
        · split
          · exact ⟨[], _, by rw [List.append_nil]⟩
          · exact hMore _

theorem flowDepth_append
    (depth : ℤ)
    (s back : Str) :
    flowDepth depth (s ++ back) =
      (flowDepth depth s).bind (flowDepth · back) := by
  induction s generalizing depth with
  | nil => rfl
  | cons c s ih =>
      rw [List.cons_append, flowDepth, flowDepth]
      split
      · exact ih _
      · split
        · exact ih _
        · split
          · rfl
          · exact ih _

/- Quotes make no difference. -/
theorem flowDepth_quoted (depth : ℤ) (s : Str) :
    flowDepth depth (quoted s) = flowDepth depth s := by
  have hOpen :
      flowDepth depth (quoted s) =
        flowDepth depth (s ++ ['\'']) := by
    simp [quoted, flowDepth]
  rw [hOpen, flowDepth_append]
  cases flowDepth depth s with
  | none => rfl
  | some depth' => simp [flowDepth]

end AsyncapiDocs.Yaml

------------------------------------------------------------
-- Reading Them Back
------------------------------------------------------------

namespace AsyncapiDocs.Yaml

open Python (Str Value isSpace strip lstrip rstrip
  strip_append strip_cons rstrip_length_le)

variable {scalars : Scalars}

/- A part that is not the quoted string is another scalar. -/
theorem scalar_quote_ne
    {s back : Str}
    (hQuotes : NoQuotes s)
    (hScalar : scalars.scalar ('\'' :: back) = .str s) :
    stripComment ('\'' :: back) = quoted s ∨
      (s = [] ∧ (stripComment ('\'' :: back)).length = 1) := by
  rcases stripComment_quote back with ⟨more, hText, _⟩
  rcases stripComment_of_scalar hScalar with
    hSingle | hDouble | hBare | hOne
  · exact Or.inl hSingle
  · rw [hText] at hDouble
    cases hDouble
  · rw [hText] at hBare
    have hQuote := hQuotes '\'' (hBare ▸ List.mem_cons_self)
    exact absurd rfl hQuote.1
  · exact Or.inr hOne

/- A part that ends within the string. -/
theorem scalar_front_ne
    {s front : Str}
    (hQuotes : NoQuotes s)
    (hLess : front.length < s.length) :
    scalars.scalar (strip ('\'' :: front)) ≠ .str s := by
  intro hScalar
  rw [strip_cons (by rfl)] at hScalar
  rcases stripComment_quote (rstrip front) with
    ⟨more, hText, hMore⟩
  have hRstrip := rstrip_length_le front
  rcases scalar_quote_ne hQuotes hScalar with hWhole | hOne
  · rw [hText] at hWhole
    have hLength := congrArg List.length hWhole
    simp only [quoted, List.length_cons, List.length_append,
      List.length_nil] at hLength
    omega
  · rw [hOne.1] at hLess
    exact Nat.not_lt_zero _ hLess

/- A quoted string and the start of the next one. -/
def quotedTwo (s back : Str) : Str :=
  quoted s ++ ',' :: ' ' :: '\'' :: back

theorem strip_quotedTwo (s back : Str) :
    strip (quotedTwo s back) = quotedTwo s (rstrip back) := by
  have hFront :
      ∀ back,
        quotedTwo s back =
          '\'' :: ((s ++ "\', ".toList) ++ ['\'']) ++ back := by
    intro back
    simp [quotedTwo, quoted]
  rw [hFront, hFront, strip_append (by rfl) (by rfl)]

theorem stripComment_quotedTwo
    {s : Str}
    (hQuotes : NoQuotes s)
    (back : Str) :
    ∃ more, stripComment (quotedTwo s back) = quotedTwo s more := by
  have hBefore :
      beforeComment false false true (quotedTwo s back) =
        (beforeComment true false false back).map
          (quotedTwo s ·) := by
    rw [quotedTwo, beforeComment_quoted hQuotes]
    simp [beforeComment, quotedTwo, Function.comp_def]
  unfold stripComment
  rw [hBefore]
  cases beforeComment true false false back with
  | none => exact ⟨_, strip_quotedTwo s back⟩
  | some front => exact ⟨_, strip_quotedTwo s front⟩

/- A part that goes on with the next string. -/
theorem scalar_two_ne
    {s : Str}
    (hQuotes : NoQuotes s)
    (back : Str) :
    scalars.scalar (strip (quotedTwo s back)) ≠ .str s := by
  intro hScalar
  rw [strip_quotedTwo] at hScalar
  rcases stripComment_quotedTwo hQuotes (rstrip back) with
    ⟨more, hText⟩
  rcases scalar_quote_ne hQuotes hScalar with hWhole | hOne
  · have hLength :=
      congrArg List.length (hText.symm.trans hWhole)
    simp [quotedTwo, quoted] at hLength
  · have hLength := (congrArg List.length hText).symm.trans hOne.2
    simp [quotedTwo, quoted] at hLength

/- The value of each part. -/
def Scalars.flowValues
    (scalars : Scalars)
    (parts : List Str) : List Value :=
  parts.map fun part => scalars.scalar (strip part)

/- A comma in the string is where its part ends. -/
theorem flowValues_comma
    {current s : Str}
    (hStrip : ∀ text, strip (current ++ text) = strip text)
    (hQuotes : NoQuotes s)
    (hDepth : flowDepth 0 s = none)
    (back : Str)
    (values : List Value) :
    scalars.flowValues
        (splitFlowFrom 0 current (quoted s ++ back)) ≠
      .str s :: values := by
  intro hValues
  have hQuote : flowDepth 0 ['\''] = some 0 := rfl
  have hText :
      quoted s ++ back = ['\''] ++ (s ++ ('\'' :: back)) := by
    simp [quoted]
  rw [hText, splitFlowFrom_append hQuote] at hValues
  rcases splitFlowFrom_comma hDepth (current ++ ['\''])
    ('\'' :: back) with
    ⟨front, hLess, parts, hParts⟩
  rw [hParts, Scalars.flowValues, List.map_cons,
    List.append_assoc, hStrip] at hValues
  exact scalar_front_ne hQuotes hLess (List.cons.inj hValues).1

/- Brackets that are open let the part go on. -/
theorem flowValues_open
    {current s : Str}
    {depth : ℤ}
    (hStrip : ∀ text, strip (current ++ text) = strip text)
    (hQuotes : NoQuotes s)
    (hDepth : depth ≠ 0)
    (next back : Str)
    (values : List Value) :
    scalars.flowValues
        (splitFlowFrom depth (current ++ quoted s)
          (',' :: ' ' :: (quoted next ++ back))) ≠
      .str s :: values := by
  intro hValues
  have hComma : flowDepth depth ", '".toList = some depth := by
    simp [flowDepth, hDepth]
  have hText :
      ',' :: ' ' :: (quoted next ++ back) =
        ", '".toList ++ (next ++ '\'' :: back) := by
    simp [quoted]
  have hSome : current ++ quoted s ++ ", '".toList ≠ [] := by
    simp
  rw [hText, splitFlowFrom_append hComma] at hValues
  rcases splitFlowFrom_head depth hSome (next ++ '\'' :: back)
    with ⟨more, parts, hParts⟩
  have hHead :
      current ++ quoted s ++ ", '".toList ++ more =
        current ++ quotedTwo s more := by
    simp [quotedTwo]
  rw [hParts, hHead, Scalars.flowValues, List.map_cons,
    hStrip] at hValues
  exact scalar_two_ne hQuotes more (List.cons.inj hValues).1

/- A comma outside of brackets ends the part of the string. -/
theorem flowValues_closed
    {current s : Str}
    (hStrip : ∀ text, strip (current ++ text) = strip text)
    (hQuotes : NoQuotes s)
    (back : Str) :
    scalars.flowValues
        (splitFlowFrom 0 (current ++ quoted s)
          (',' :: ' ' :: back)) =
      .str s :: scalars.flowValues (splitFlowFrom 0 [' '] back) := by
  have hSpace : flowDepth 0 [' '] = some 0 := rfl
  have hBack :
      splitFlowFrom 0 [] (' ' :: back) =
        splitFlowFrom 0 [' '] back :=
    splitFlowFrom_append hSpace [] back
  rw [splitFlowFrom, if_neg (by decide), if_neg (by decide),
    if_pos (by decide), hBack, Scalars.flowValues,
    List.map_cons, hStrip, strip_quoted, scalar_quoted hQuotes]
  rfl

/-
  The parts of written strings, the first of which may be
  behind a space. The induction is on the strings.
-/
theorem flowValues_eq_iff
    {strings : List Str}
    (hSome : strings ≠ [])
    (hQuotes : ∀ s ∈ strings, NoQuotes s)
    {current : Str}
    (hStrip : ∀ text, strip (current ++ text) = strip text) :
    scalars.flowValues
          (splitFlowFrom 0 current
            (writtenItems (strings.map .str))) =
        strings.map Value.str ↔
      SplitsAtCommas (strings.map .str) := by
  induction strings generalizing current with
  | nil => exact absurd rfl hSome
  | cons s rest ih =>
      have hFirst : NoQuotes s := hQuotes s List.mem_cons_self
      rw [List.map_cons, List.map_cons, writtenItems,
        FlowItem.written]
      cases hDepth : flowDepth 0 s with
      | none =>
          refine iff_of_false
            (flowValues_comma hStrip hFirst hDepth _ _) ?_
          cases rest <;> simp [SplitsAtCommas, hDepth]
      | some depth =>
          have hQuoted : flowDepth 0 (quoted s) = some depth := by
            rw [flowDepth_quoted, hDepth]
          rw [splitFlowFrom_append hQuoted]
          cases rest with
          | nil =>
              have hKept : current ++ quoted s ≠ [] := by
                simp [quoted]
              rw [List.map_nil, writtenRest, splitFlowFrom,
                if_pos hKept]
              simp [Scalars.flowValues, hStrip, strip_quoted,
                scalar_quoted hFirst, SplitsAtCommas, hDepth]
          | cons next rest =>
              by_cases hZero : depth = 0
              · have hSpace :
                    ∀ text, strip ([' '] ++ text) = strip text :=
                  strip_space
                have hMore :=
                  ih (List.cons_ne_nil next rest)
                    (fun t hMem =>
                      hQuotes t (List.mem_cons_of_mem s hMem))
                    hSpace
                have hRest :
                    writtenRest ((next :: rest).map .str) =
                      ',' :: ' ' ::
                        writtenItems ((next :: rest).map .str) := by
                  rw [List.map_cons, writtenRest, writtenItems]
                rw [hZero, hRest,
                  flowValues_closed hStrip hFirst,
                  List.cons_inj_right, hMore]
                simp [SplitsAtCommas, hDepth, hZero]
              · rw [List.map_cons, writtenRest, FlowItem.written]
                refine iff_of_false
                  (flowValues_open hStrip hFirst hZero _ _ _) ?_
                simp [SplitsAtCommas, hDepth, hZero]

end AsyncapiDocs.Yaml

------------------------------------------------------------
-- Sequences of Strings
------------------------------------------------------------

namespace AsyncapiDocs.Yaml

open Python (Str Value isSpace strip lstrip rstrip
  strip_wrapped)

variable {scalars : Scalars}

theorem beforeComment_writtenRest
    {strings : List Str}
    (hQuotes : ∀ s ∈ strings, NoQuotes s) :
    beforeComment false false false
        (writtenRest (strings.map .str) ++ [']']) =
      none := by
  induction strings with
  | nil => simp [writtenRest, beforeComment]
  | cons s rest ih =>
      have hRest :=
        ih fun t hMem => hQuotes t (List.mem_cons_of_mem s hMem)
      have hFirst := hQuotes s List.mem_cons_self
      rw [List.map_cons, writtenRest, FlowItem.written,
        List.cons_append, List.cons_append, List.append_assoc]
      simp [beforeComment, beforeComment_quoted hFirst, hRest]

/- There is no comment in a written sequence of strings. -/
theorem stripComment_written
    {strings : List Str}
    (hQuotes : ∀ s ∈ strings, NoQuotes s) :
    stripComment (FlowItem.list (strings.map .str)).written =
      (FlowItem.list (strings.map .str)).written := by
  have hNone :
      beforeComment false false true
          (FlowItem.list (strings.map .str)).written =
        none := by
    cases strings with
    | nil =>
        simp [FlowItem.written, writtenItems, beforeComment]
    | cons s rest =>
        have hFirst := hQuotes s List.mem_cons_self
        have hRest :=
          beforeComment_writtenRest
            fun t hMem => hQuotes t (List.mem_cons_of_mem s hMem)
        rw [List.map_cons, FlowItem.written, writtenItems,
          FlowItem.written, List.append_assoc]
        simp [beforeComment, beforeComment_quoted hFirst, hRest]
  rw [stripComment, hNone, Option.getD_none, FlowItem.written,
    strip_wrapped (by rfl) (by rfl)]

theorem writtenRest_last (strings : List Str) :
    writtenRest (strings.map .str) = [] ∨
      ∃ front, writtenRest (strings.map .str) = front ++ ['\''] := by
  induction strings with
  | nil => exact Or.inl rfl
  | cons s rest ih =>
      right
      rw [List.map_cons, writtenRest, FlowItem.written]
      rcases ih with hNil | ⟨front, hFront⟩
      · exact ⟨',' :: ' ' :: '\'' :: s, by simp [hNil, quoted]⟩
      · exact ⟨',' :: ' ' :: (quoted s ++ front),
          by simp [hFront]⟩

theorem strip_writtenItems (strings : List Str) :
    strip (writtenItems (strings.map .str)) =
      writtenItems (strings.map .str) := by
  cases strings with
  | nil => rfl
  | cons s rest =>
      rw [List.map_cons, writtenItems, FlowItem.written,
        strip_quoted_append]
      rcases writtenRest_last rest with hNil | ⟨front, hFront⟩
      · rw [hNil]
        rfl
      · rw [hFront, rstrip,
          List.rdropWhile_concat_neg _ _ _ (by decide)]

/- A written sequence of strings is split into its parts. -/
theorem inlineFlowSeq_strings
    {strings : List Str}
    (hQuotes : ∀ s ∈ strings, NoQuotes s) :
    scalars.inlineFlowSeq
        (stripComment
          (FlowItem.list (strings.map .str)).written) =
      .list
        (scalars.flowValues
          (splitFlowFrom 0 []
            (writtenItems (strings.map .str)))) := by
  have hText :
      strip (FlowItem.list (strings.map .str)).written =
        (FlowItem.list (strings.map .str)).written := by
    rw [FlowItem.written, strip_wrapped (by rfl) (by rfl)]
  have hInner :
      inner (FlowItem.list (strings.map .str)).written =
        writtenItems (strings.map .str) := by
    simp [inner, FlowItem.written]
  have hOpen :
      startsWith '['
          (FlowItem.list (strings.map .str)).written =
        true := by
    simp [startsWith, FlowItem.written]
  have hClose :
      (FlowItem.list (strings.map .str)).written.getLast? =
        some ']' := by
    rw [FlowItem.written, ← List.cons_append,
      List.getLast?_concat]
  unfold Scalars.inlineFlowSeq
  simp only [stripComment_written hQuotes, hText, hInner, hOpen,
    hClose, strip_writtenItems, BEq.rfl, Bool.and_true, if_true]
  cases strings with
  | nil =>
      rw [List.map_nil, writtenItems, if_pos rfl]
      rfl
  | cons s rest =>
      have hSome : writtenItems ((s :: rest).map .str) ≠ [] := by
        simp [writtenItems, FlowItem.written, quoted]
      rw [if_neg hSome]
      rfl

end AsyncapiDocs.Yaml

------------------------------------------------------------
-- Sequences of Items
------------------------------------------------------------

namespace AsyncapiDocs.Yaml

open Python (Str Value isSpace strip lstrip rstrip)

variable {scalars : Scalars}

theorem scalar_ne_list
    (text : Str)
    (items : List Value) :
    scalars.scalar text ≠ .list items := by
  unfold Scalars.scalar Scalars.number
  dsimp only
  repeat' split
  all_goals
    intro hList
    cases hList

/- The parts of a flow sequence are never lists. -/
theorem not_mem_inlineFlowSeq
    {text : Str}
    {values items : List Value}
    (hRead : scalars.inlineFlowSeq text = .list values) :
    .list items ∉ values := by
  intro hMem
  unfold Scalars.inlineFlowSeq at hRead
  dsimp only at hRead
  split at hRead
  · split at hRead
    · cases hRead
      cases hMem
    · cases hRead
      rcases List.mem_map.mp hMem with ⟨part, _, hPart⟩
      exact scalar_ne_list _ _ hPart
  · cases hRead
    exact scalar_ne_list _ _ (List.mem_singleton.mp hMem).symm

/- Items are all strings, or there is a list among them. -/
theorem strings_or_list (items : List FlowItem) :
    (∃ strings : List Str, items = strings.map .str) ∨
      ∃ sub, FlowItem.list sub ∈ items := by
  induction items with
  | nil => exact Or.inl ⟨[], rfl⟩
  | cons item rest ih =>
      cases item with
      | list sub => exact Or.inr ⟨sub, List.mem_cons_self⟩
      | str s =>
          rcases ih with ⟨strings, rfl⟩ | ⟨sub, hMem⟩
          · exact Or.inl ⟨s :: strings, rfl⟩
          · exact Or.inr ⟨sub, List.mem_cons_of_mem _ hMem⟩

theorem valuesOf_strings (strings : List Str) :
    valuesOf (strings.map .str) = strings.map .str := by
  induction strings with
  | nil => rfl
  | cons s rest ih =>
      rw [List.map_cons, valuesOf, ih]
      rfl

theorem list_mem_valuesOf
    {items sub : List FlowItem}
    (hMem : .list sub ∈ items) :
    .list (valuesOf sub) ∈ valuesOf items := by
  induction items with
  | nil => cases hMem
  | cons item rest ih =>
      rw [valuesOf]
      rcases List.mem_cons.mp hMem with rfl | hRest
      · exact List.mem_cons_self
      · exact List.mem_cons_of_mem _ (ih hRest)

theorem not_splitsAtCommas
    {items sub : List FlowItem}
    (hMem : .list sub ∈ items) :
    ¬ SplitsAtCommas items := by
  induction items with
  | nil => cases hMem
  | cons item rest ih =>
      rcases List.mem_cons.mp hMem with rfl | hRest
      · exact id
      · cases item with
        | list sub => exact id
        | str s =>
            cases rest with
            | nil => cases hRest
            | cons next rest => exact fun hSplits => ih hRest hSplits.2

theorem noQuotes_of_plain
    {strings : List Str}
    (hPlain : PlainItems (strings.map .str)) :
    ∀ s ∈ strings, NoQuotes s := by
  induction strings with
  | nil => exact fun s hMem => absurd hMem List.not_mem_nil
  | cons first rest ih =>
      intro s hMem
      rcases List.mem_cons.mp hMem with rfl | hRest
      · intro c hChar
        have hBoth :=
          hPlain c (List.mem_append_left _ hChar)
        exact ⟨hBoth.1, hBoth.2.1⟩
      · apply ih _ s hRest
        intro c hChar
        exact hPlain c (List.mem_append_right _ hChar)

/- A written sequence is read back when its commas split it. -/
theorem inlineFlowSeq_eq_iff
    (scalars : Scalars)
    {items : List FlowItem}
    (hPlain : PlainItems items) :
    scalars.inlineFlowSeq
          (stripComment (FlowItem.list items).written) =
        .list (valuesOf items) ↔
      SplitsAtCommas items := by
  rcases strings_or_list items with
    ⟨strings, rfl⟩ | ⟨sub, hMem⟩
  · have hQuotes := noQuotes_of_plain hPlain
    rw [inlineFlowSeq_strings hQuotes, Value.list.injEq,
      valuesOf_strings]
    by_cases hSome : strings = []
    · rw [hSome]
      simp [writtenItems, splitFlowFrom, Scalars.flowValues,
        SplitsAtCommas]
    · exact flowValues_eq_iff hSome hQuotes fun _ => rfl
  · refine iff_of_false ?_ (not_splitsAtCommas hMem)
    intro hRead
    exact not_mem_inlineFlowSeq hRead (list_mem_valuesOf hMem)

end AsyncapiDocs.Yaml

------------------------------------------------------------
-- Sequences in a Text
------------------------------------------------------------

namespace AsyncapiDocs.Yaml

open Python (Str Value isSpace strip lstrip rstrip strip_cons)

variable {scalars : Scalars}

/-
  Wherever the sequence is written as the value of the key, a
  mapping gets exactly that list, and reads on behind it.
-/
def ReadsBack
    (scalars : Scalars)
    (key : Str)
    (items : List FlowItem) : Prop :=
  ∀ text before base following,
    splitLines text =
        before ++
          keyLine base key
              (' ' :: (FlowItem.list items).written) ::
            following →
      ∀ result log, ∃ log',
        Gets (parseMapping scalars) base key
            (.list (valuesOf items)) result
            ⟨(splitLines text).drop before.length, log⟩
            ⟨following, log'⟩ ∧
          Gets (parseDashInlineMapping scalars) base key
            (.list (valuesOf items)) result
            ⟨(splitLines text).drop before.length, log⟩
            ⟨following, log'⟩

/- The value of the key, whatever it is. -/
theorem keyValue_written
    (nested : Reader → Option (Value × Reader))
    (base : ℕ)
    (items : List FlowItem)
    (reader : Reader) :
    keyValue scalars nested base
        (stripComment (FlowItem.list items).written) reader =
      some
        (scalars.inlineFlowSeq
            (stripComment (FlowItem.list items).written),
          reader.notes
            (seqUses
              (stripComment (FlowItem.list items).written))) := by
  have hOpen :
      ∃ more,
        stripComment (FlowItem.list items).written =
          '[' :: more := by
    rw [FlowItem.written, stripComment, beforeComment,
      if_neg (by decide), if_neg (by decide),
      if_neg (by decide)]
    cases beforeComment false false ('[' = ' ')
        (writtenItems items ++ [']']) with
    | none => exact ⟨_, strip_cons (by rfl) _⟩
    | some front => exact ⟨_, strip_cons (by rfl) _⟩
  rcases hOpen with ⟨more, hMore⟩
  have hBlock : isBlockIndicator ('[' :: more) = false := by
    simp [isBlockIndicator]
  rw [hMore, keyValue]
  simp [hBlock, startsWith]

theorem lstrip_written (items : List FlowItem) :
    lstrip (' ' :: (FlowItem.list items).written) =
      (FlowItem.list items).written := by
  rw [FlowItem.written]
  rfl

mutual

/- What is written besides the characters of the strings. -/
theorem mem_written
    (item : FlowItem)
    {c : Char}
    (hMem : c ∈ item.written) :
    c ∈ item.chars ∨ c ∈ "[], '".toList := by
  cases item with
  | str s =>
      rw [FlowItem.written, quoted, List.mem_cons,
        List.mem_append, List.mem_singleton] at hMem
      rcases hMem with rfl | hIn | rfl
      · exact Or.inr (by simp)
      · exact Or.inl hIn
      · exact Or.inr (by simp)
  | list items =>
      rw [FlowItem.written, List.mem_cons, List.mem_append,
        List.mem_singleton] at hMem
      rcases hMem with rfl | hIn | rfl
      · exact Or.inr (by simp)
      · exact mem_writtenItems items hIn
      · exact Or.inr (by simp)

theorem mem_writtenItems
    (items : List FlowItem)
    {c : Char}
    (hMem : c ∈ writtenItems items) :
    c ∈ charsOf items ∨ c ∈ "[], '".toList := by
  cases items with
  | nil => cases hMem
  | cons item rest =>
      rw [writtenItems, List.mem_append] at hMem
      rcases hMem with hFirst | hRest
      · exact (mem_written item hFirst).imp_left
          (List.mem_append_left _)
      · exact (mem_writtenRest rest hRest).imp_left
          (List.mem_append_right _)

theorem mem_writtenRest
    (items : List FlowItem)
    {c : Char}
    (hMem : c ∈ writtenRest items) :
    c ∈ charsOf items ∨ c ∈ "[], '".toList := by
  cases items with
  | nil => cases hMem
  | cons item rest =>
      rw [writtenRest, List.mem_cons, List.mem_cons,
        List.mem_append] at hMem
      rcases hMem with rfl | rfl | hFirst | hRest
      · exact Or.inr (by simp)
      · exact Or.inr (by simp)
      · exact (mem_written item hFirst).imp_left
          (List.mem_append_left _)
      · exact (mem_writtenRest rest hRest).imp_left
          (List.mem_append_right _)

end

/- The line of a sequence is one line. -/
theorem isLineBreak_keyLine
    {key : Str}
    {items : List FlowItem}
    (hWords : scalars.Words)
    (hKey : scalars.IsKey key)
    (hPlain : PlainItems items) :
    ∀ c ∈ keyLine 0 key (' ' :: (FlowItem.list items).written),
      isLineBreak c = false := by
  intro c hMem
  have hParts :
      c ∈ key ∨ c ∈ ": ".toList ++ "[], '".toList ∨
        c ∈ charsOf items := by
    simp only [keyLine, spaces, List.replicate_zero,
      List.nil_append, List.mem_append, List.mem_cons] at hMem
    rcases hMem with hIn | rfl | rfl | hWritten
    · exact Or.inl hIn
    · exact Or.inr (Or.inl (by simp))
    · exact Or.inr (Or.inl (by simp))
    · rcases mem_written (.list items) hWritten with
        hChar | hMark
      · exact Or.inr (Or.inr hChar)
      · exact Or.inr (Or.inl (List.mem_append_right _ hMark))
  rcases hParts with hIn | hMark | hChar
  · by_contra hBreak
    have hSpace : isSpace c = true := by
      simp [isLineBreak, isSpace] at hBreak ⊢
      omega
    have hKeyChar := hKey.2 c hIn
    rw [hWords.isKeyChar_space hSpace] at hKeyChar
    cases hKeyChar
  · simp at hMark
    rcases hMark with
      rfl | rfl | rfl | rfl | rfl | rfl | rfl <;>
      rfl
  · exact (hPlain c hChar).2.2

/-
  A sequence is read back exactly when its items are strings
  that the commas between them split.
-/
theorem flowSeq_roundTrip_iff
    {key : Str}
    {items : List FlowItem}
    (hWords : scalars.Words)
    (hKey : scalars.IsKey key)
    (hPlain : PlainItems items) :
    ReadsBack scalars key items ↔ SplitsAtCommas items := by
  rw [← inlineFlowSeq_eq_iff scalars hPlain]
  have hRead :
      ∀ nested base reader,
        keyValue scalars nested base
            (stripComment
              (lstrip (' ' :: (FlowItem.list items).written)))
            reader =
          some
            (scalars.inlineFlowSeq
                (stripComment (FlowItem.list items).written),
              reader.notes
                (seqUses
                  (stripComment
                    (FlowItem.list items).written))) := by
    intro nested base reader
    rw [lstrip_written, keyValue_written]
  constructor
  · intro hBack
    have hText :
        splitLines
            (textOf
              [keyLine 0 key
                (' ' :: (FlowItem.list items).written)]) =
          [] ++
            keyLine 0 key
                (' ' :: (FlowItem.list items).written) :: [] := by
      apply splitLines_textOf
      intro line hMem
      rw [List.mem_singleton.mp hMem]
      exact isLineBreak_keyLine hWords hKey hPlain
    rcases hBack _ _ _ _ hText [] [] with ⟨log, hGets, _⟩
    have hGiven := hGets.goesOn 1
    rw [(parse_keyLine hWords hKey hText (hRead _ _ _)).1]
      at hGiven
    have hValues := congrArg (Option.map Prod.fst) hGiven
    simpa [parseMapping, Reader.skip, Reader.notes,
      Python.setEntry] using hValues
  · intro hValue text before base following hText result log
    rw [← hValue]
    exact ⟨_, gets_keyLine hWords hKey hText fun fuel =>
      hRead _ _ _⟩

theorem flowSeq_roundTrip_iff_brackets :
    ReadsBack asciiScalars "k".toList
      [.str "a # b: \x7bc, d\x7d".toList, .str [],
        .str "e[".toList] := by
  have hLast : flowDepth 0 "e[".toList ≠ none := by decide
  have hSplits :
      SplitsAtCommas
        [.str "a # b: \x7bc, d\x7d".toList, .str [],
          .str "e[".toList] :=
    ⟨by decide, by decide, hLast⟩
  exact
    (flowSeq_roundTrip_iff words_asciiScalars
      (isKey_of_all (by decide) rfl)
      (List.all_iff_forall_prop.mp rfl)).mpr hSplits

/- A comma within quotes splits the string. -/
theorem not_readsBack_comma :
    PlainItems [.str "a,b".toList] ∧
      ¬ ReadsBack asciiScalars "k".toList
          [.str "a,b".toList] := by
  refine ⟨List.all_iff_forall_prop.mp rfl, ?_⟩
  intro hBack
  have hText :
      splitLines "k: ['a,b']\n".toList =
        [] ++
          keyLine 0 "k".toList
              (' ' ::
                (FlowItem.list [.str "a,b".toList]).written) ::
            [] := by
    decide
  rcases hBack _ _ _ _ hText [] [] with ⟨log, hGets, _⟩
  have hEnd :
      ∀ line ∈ (Reader.skip ⟨[], log⟩).rest.head?,
        indent line < 0 := by
    rintro line ⟨⟩
  have hRead :=
    congrArg (Option.map Prod.fst) (hGets.closes hEnd 0)
  rw [Option.map_some] at hRead
  dsimp only at hRead
  revert hRead
  decide +kernel

end AsyncapiDocs.Yaml
