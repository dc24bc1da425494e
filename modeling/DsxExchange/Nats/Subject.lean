import DsxExchange.Go.Strings
import Mathlib.Data.List.Basic
import Mathlib.Logic.Relation

/-
  Subjects, patterns with wildcards, and the routes that the
  stream imports of accounts make of them.

  A subject is a row of tokens between dots. In a pattern the
  token `*` stands for one token, and `>` at the end for all
  that remain, of which there is at least one.

  Key definitions include:
    * `Nats.Subject`, `Nats.tokens`, `Nats.Concrete`
    * `Nats.captures`, `Nats.Matches`, `Nats.mapSubject`
    * `Nats.follows`
    * `Nats.StreamImport`, `Nats.Hop`, `Nats.LoopFree`

  Key theorems include:
    * `Nats.mapSubject_addPrefix`
    * `Nats.mapSubject_dropPrefix`
    * `Nats.matches_of_follows`, `Nats.follows_of_matches`
-/

------------------------------------------------------------
-- Subjects And Patterns
------------------------------------------------------------

namespace Nats

/- A subject or a pattern, as its tokens. -/
abbrev Subject := List String

def tokens (subject : String) : Subject :=
  Go.split subject '.'

/- A token of a subject that messages are published on. -/
structure ConcreteToken (token : String) : Prop where
  nonempty : token ≠ ""
  noDot : '.' ∉ token.toList
  noSpace : ∀ c ∈ token.toList, c.isWhitespace = false
  notStar : token ≠ "*"
  notFull : token ≠ ">"

/- A subject that messages are published on. -/
structure Concrete (subject : Subject) : Prop where
  nonempty : subject ≠ []
  token : ∀ token ∈ subject, ConcreteToken token

/- The first token of a pattern is a wildcard. -/
def isWildcard (part : String) (parts : Subject) : Bool :=
  part = "*" || (part = ">" && parts = [])

/-
  What the wildcards of a pattern take from a subject, from
  left to right, when the pattern matches.
-/
def captures : Subject → Subject → Option (List Subject)
| [], [] => some []
| [], _ :: _ => none
| _ :: _, [] => none
| part :: parts, token :: rest =>
    if part = ">" ∧ parts = [] then
      some [token :: rest]
    else if part = "*" then
      (captures parts rest).map (fun taken => [token] :: taken)
    else if part = token then
      captures parts rest
    else
      none

def Matches (pattern subject : Subject) : Prop :=
  (captures pattern subject).isSome

instance (pattern subject : Subject) :
    Decidable (Matches pattern subject) :=
  inferInstanceAs (Decidable ((captures pattern subject).isSome = true))

/- A subject is matched by one of the patterns of a list. -/
def MatchesAny
    (patterns : List String)
    (subject : Subject) : Prop :=
  ∃ pattern ∈ patterns, Matches (tokens pattern) subject

/- The wildcards of a pattern are replaced from left to right. -/
def fill : Subject → List Subject → Option Subject
| [], [] => some []
| [], _ :: _ => none
| part :: parts, taken =>
    if isWildcard part parts then
      match taken with
      | [] => none
      | first :: rest =>
          (fill parts rest).map (fun tail => first ++ tail)
    else
      (fill parts taken).map (fun tail => part :: tail)

/-
  The mapping of a subject: what the wildcards of the source
  take stands for the wildcards of the target.
-/
def mapSubject
    (source target : Subject)
    (subject : Subject) : Option Subject :=
  (captures source subject).bind (fill target)

end Nats

------------------------------------------------------------
-- Prefixes Under A Mapping
------------------------------------------------------------

namespace Nats

variable {pattern subject start : Subject}

/- A pattern without tokens matches only no tokens. -/
theorem subject_ne_nil_of_matches
    (hPattern : pattern ≠ [])
    (hMatches : Matches pattern subject) :
    subject ≠ [] := by
  rcases pattern with _ | ⟨part, parts⟩
  · exact absurd rfl hPattern
  · rcases subject with _ | ⟨token, rest⟩
    · simp [Matches, captures] at hMatches
    · simp

/- What a pattern takes fills it up to the subject again. -/
theorem fill_captures
    {taken : List Subject}
    (hCaptures : captures pattern subject = some taken) :
    fill pattern taken = some subject := by
  induction pattern generalizing subject taken with
  | nil =>
      cases subject with
      | nil =>
          have hTaken : taken = [] := by
            simpa [captures] using hCaptures.symm
          simp [hTaken, fill]
      | cons token rest => simp [captures] at hCaptures
  | cons part parts ih =>
      cases subject with
      | nil => simp [captures] at hCaptures
      | cons token rest =>
          unfold captures at hCaptures
          by_cases hFull : part = ">" ∧ parts = []
          · have hTaken : taken = [token :: rest] := by
              simpa [hFull] using hCaptures.symm
            simp [hTaken, hFull.1, hFull.2, fill, isWildcard]
          · rw [if_neg hFull] at hCaptures
            by_cases hStar : part = "*"
            · rw [if_pos hStar] at hCaptures
              rcases Option.map_eq_some_iff.mp hCaptures with
                ⟨tail, hTail, hTaken⟩
              simp [← hTaken, fill, isWildcard, hStar,
                ih hTail]
            · rw [if_neg hStar] at hCaptures
              have hWildcard : isWildcard part parts = false := by
                simpa [isWildcard, hStar] using hFull
              by_cases hToken : part = token
              · rw [if_pos hToken] at hCaptures
                simp only [fill, hWildcard, ih hCaptures]
                simp [hToken]
              · simp [hToken] at hCaptures

/- A pattern mapped to itself keeps the subject. -/
theorem mapSubject_self
    (pattern subject : Subject) :
    mapSubject pattern pattern subject =
      if Matches pattern subject then
        some subject
      else
        none := by
  cases hCaptures : captures pattern subject with
  | none => simp [mapSubject, Matches, hCaptures]
  | some taken =>
      simp [mapSubject, Matches, hCaptures,
        fill_captures hCaptures]

/- Tokens that are no wildcards in any pattern. -/
def Literal (start : Subject) : Prop :=
  ∀ token ∈ start, token ≠ "*" ∧ token ≠ ">"

theorem Concrete.literal
    (hConcrete : Concrete subject) :
    Literal subject := by
  intro token hMem
  exact ⟨(hConcrete.token token hMem).notStar,
    (hConcrete.token token hMem).notFull⟩

theorem fill_append
    (hLiteral : Literal start)
    (pattern : Subject)
    (taken : List Subject) :
    fill (start ++ pattern) taken =
      (fill pattern taken).map (fun tail => start ++ tail) := by
  induction start with
  | nil => simp
  | cons token rest ih =>
      have hToken := hLiteral token List.mem_cons_self
      have hRest : Literal rest := by
        intro other hMem
        exact hLiteral other (List.mem_cons_of_mem _ hMem)
      simp [fill, isWildcard, hToken.1, hToken.2, ih hRest,
        Function.comp_def]

/- A pattern behind literal tokens asks for those tokens. -/
theorem captures_append_eq_some_iff
    (hLiteral : Literal start)
    (pattern subject : Subject)
    (taken : List Subject) :
    captures (start ++ pattern) subject = some taken ↔
      ∃ tail,
        subject = start ++ tail ∧
          captures pattern tail = some taken := by
  induction start generalizing subject with
  | nil => simp
  | cons token rest ih =>
      have hToken := hLiteral token List.mem_cons_self
      have hRest : Literal rest := by
        intro other hMem
        exact hLiteral other (List.mem_cons_of_mem _ hMem)
      cases subject with
      | nil => simp [captures]
      | cons first others =>
          by_cases hFirst : token = first
          · have hNext := ih hRest others
            simpa [captures, hToken.1, hToken.2, ← hFirst]
              using hNext
          · simp [captures, hToken.1, hToken.2, hFirst,
              Ne.symm hFirst]

theorem matches_append_iff
    (hLiteral : Literal start) :
    Matches (start ++ pattern) subject ↔
      ∃ tail, subject = start ++ tail ∧ Matches pattern tail := by
  simp only [Matches, Option.isSome_iff_exists,
    captures_append_eq_some_iff hLiteral]
  constructor
  · intro hSome
    rcases hSome with ⟨taken, tail, hSubject, hTaken⟩
    exact ⟨tail, hSubject, taken, hTaken⟩
  · intro hTail
    rcases hTail with ⟨tail, hSubject, taken, hTaken⟩
    exact ⟨taken, tail, hSubject, hTaken⟩

/- A mapping can add literal tokens in front. -/
theorem mapSubject_addPrefix
    (hLiteral : Literal start)
    (pattern subject target : Subject) :
    mapSubject pattern (start ++ pattern) subject = some target ↔
      Matches pattern subject ∧ target = start ++ subject := by
  cases hCaptures : captures pattern subject with
  | none => simp [mapSubject, Matches, hCaptures]
  | some taken =>
      simp [mapSubject, Matches, hCaptures,
        fill_append hLiteral, fill_captures hCaptures,
        eq_comm]

/- A mapping can take literal tokens away in front. -/
theorem mapSubject_dropPrefix
    (hLiteral : Literal start)
    (pattern subject target : Subject) :
    mapSubject (start ++ pattern) pattern subject = some target ↔
      subject = start ++ target ∧ Matches pattern target := by
  unfold mapSubject
  rw [Option.bind_eq_some_iff]
  constructor
  · intro hMapped
    rcases hMapped with ⟨taken, hTaken, hFill⟩
    rcases (captures_append_eq_some_iff hLiteral _ _ _).mp
        hTaken with ⟨tail, hSubject, hTail⟩
    have hTarget : tail = target := by
      simpa [fill_captures hTail] using hFill
    rw [← hTarget]
    exact ⟨hSubject, by simp [Matches, hTail]⟩
  · intro hMatched
    rcases Option.isSome_iff_exists.mp hMatched.2 with
      ⟨taken, hTaken⟩
    exact ⟨taken,
      (captures_append_eq_some_iff hLiteral _ _ _).mpr
        ⟨target, hMatched.1, hTaken⟩,
      fill_captures hTaken⟩

end Nats

------------------------------------------------------------
-- Patterns Along A Word
------------------------------------------------------------

namespace Nats

/-
  The pattern ends with `>`, and its other tokens match an
  endless word from its beginning.
-/
def follows : (ℕ → String) → Subject → Bool
| _, [] => false
| word, part :: parts =>
    (part = ">" && parts = []) ||
      ((part = "*" || part = word 0) &&
        follows (fun i => word (i + 1)) parts)

/- A subject starts with that many tokens of a word. -/
def StartsWith
    (word : ℕ → String)
    (count : ℕ)
    (subject : Subject) : Prop :=
  ∀ i < count, subject[i]? = some (word i)

theorem StartsWith.tail
    {word : ℕ → String}
    {count : ℕ}
    {token : String}
    {rest : Subject}
    (hStart : StartsWith word (count + 1) (token :: rest)) :
    token = word 0 ∧
      StartsWith (fun i => word (i + 1)) count rest := by
  constructor
  · simpa using hStart 0 (by omega)
  · intro i hLt
    simpa using hStart (i + 1) (by omega)

/- A pattern that follows a word matches what starts with it. -/
theorem matches_of_follows
    {word : ℕ → String}
    {pattern subject : Subject}
    (hFollows : follows word pattern = true)
    (hStart : StartsWith word pattern.length subject) :
    Matches pattern subject := by
  induction pattern generalizing word subject with
  | nil => simp [follows] at hFollows
  | cons part parts ih =>
      cases subject with
      | nil =>
          have hFirst := hStart 0 (by simp)
          simp at hFirst
      | cons token rest =>
          have hTail := StartsWith.tail hStart
          unfold Matches captures
          by_cases hFull : part = ">" ∧ parts = []
          · simp [hFull]
          · have hNext :
                (part = "*" ∨ part = word 0) ∧
                  follows (fun i => word (i + 1)) parts =
                    true := by
              simpa [follows, hFull] using hFollows
            have hRest := ih hNext.2 hTail.2
            rw [if_neg hFull]
            rcases hNext.1 with hStar | hLiteral
            · simpa [hStar, Matches] using hRest
            · by_cases hStar : part = "*"
              · simpa [hStar, Matches] using hRest
              · rw [if_neg hStar,
                  if_pos (hLiteral.trans hTail.1.symm)]
                exact hRest

/-
  A pattern that matches a longer subject along the word
  follows the word.
-/
theorem follows_of_matches
    {word : ℕ → String}
    {pattern subject : Subject}
    (hMatches : Matches pattern subject)
    (hLength : pattern.length < subject.length)
    (hStart : StartsWith word pattern.length subject) :
    follows word pattern = true := by
  induction pattern generalizing word subject with
  | nil =>
      cases subject with
      | nil => simp at hLength
      | cons token rest => simp [Matches, captures] at hMatches
  | cons part parts ih =>
      cases subject with
      | nil => simp at hLength
      | cons token rest =>
          have hTail := StartsWith.tail hStart
          have hShorter : parts.length < rest.length := by
            simpa using hLength
          unfold Matches captures at hMatches
          by_cases hFull : part = ">" ∧ parts = []
          · simp [follows, hFull]
          · rw [if_neg hFull] at hMatches
            by_cases hStar : part = "*"
            · have hRest : Matches parts rest := by
                simpa [hStar, Matches] using hMatches
              simp [follows, hStar,
                ih hRest hShorter hTail.2]
            · rw [if_neg hStar] at hMatches
              by_cases hToken : part = token
              · rw [if_pos hToken] at hMatches
                simp [follows, hToken, hTail.1,
                  ih hMatches hShorter hTail.2]
              · simp [hToken] at hMatches

end Nats

------------------------------------------------------------
-- Routes Between Accounts
------------------------------------------------------------

namespace Nats

/-
  A stream import: messages of another account on a subject
  arrive under a local one, the same when none is given.
-/
structure StreamImport (Account : Type) where
  account : Account
  subject : Subject
  toSubject : Option Subject

variable {Account : Type}

def StreamImport.deliver
    (streamImport : StreamImport Account)
    (subject : Subject) : Option Subject :=
  mapSubject streamImport.subject
    (streamImport.toSubject.getD streamImport.subject) subject

/- A message on a subject arrives in an account under another. -/
def Hop
    (imports : Account → List (StreamImport Account))
    (source target : Account × Subject) : Prop :=
  ∃ streamImport ∈ imports target.1,
    streamImport.account = source.1 ∧
      streamImport.deliver source.2 = some target.2

/-
  Following the imports from a node never comes back to it,
  and every such walk ends.
-/
structure LoopFree
    (imports : Account → List (StreamImport Account))
    (node : Account × Subject) : Prop where
  noReturn : ¬ Relation.TransGen (Hop imports) node node
  ends : Acc (flip (Hop imports)) node

/- A walk that comes back never ends. -/
theorem not_transGen_self_of_acc
    {imports : Account → List (StreamImport Account)}
    {node : Account × Subject}
    (hAcc : Acc (flip (Hop imports)) node) :
    ¬ Relation.TransGen (Hop imports) node node := by
  intro hCycle
  have hSwap :
      Relation.TransGen (flip (Hop imports)) node node :=
    Relation.transGen_swap.mp hCycle
  have hAccTrans := hAcc.transGen
  clear hAcc hCycle
  induction hAccTrans with
  | intro current _ ih => exact ih current hSwap hSwap

end Nats
