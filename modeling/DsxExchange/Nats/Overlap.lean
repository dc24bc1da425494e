import DsxExchange.Nats.Subject

/-
  Whether two patterns have a subject in common.

  The subjects under two patterns are again the subjects under
  one pattern, or there are none. A pattern has a subject that
  messages are published on when each of its tokens allows for
  one.

  Key definitions include:
    * `Nats.isConcrete`, `Nats.satisfiable`
    * `Nats.meet`, `Nats.overlap`

  Key theorems include:
    * `Nats.matches_meet_iff`
    * `Nats.satisfiable_iff`
    * `Nats.overlap_iff`
-/

------------------------------------------------------------
-- Patterns With A Subject
------------------------------------------------------------

namespace Nats

/- A token that messages are published on, as a check. -/
def isConcrete (token : String) : Bool :=
  token ≠ "" &&
    token.toList.all (fun c => c ≠ '.' && !c.isWhitespace) &&
    token ≠ "*" && token ≠ ">"

theorem isConcrete_iff (token : String) :
    isConcrete token = true ↔ ConcreteToken token := by
  constructor
  · intro hCheck
    simp only [isConcrete, Bool.and_eq_true, decide_eq_true_eq,
      List.all_eq_true, Bool.not_eq_true'] at hCheck
    rcases hCheck with ⟨⟨⟨hNonempty, hChars⟩, hStar⟩, hFull⟩
    exact
      { nonempty := hNonempty
        noDot := fun hDot => (hChars '.' hDot).1 rfl
        noSpace := fun c hMem => (hChars c hMem).2
        notStar := hStar
        notFull := hFull }
  · intro hToken
    have hChars :
        ∀ c ∈ token.toList,
          c ≠ '.' ∧ c.isWhitespace = false := by
      intro c hMem
      refine ⟨?_, hToken.noSpace c hMem⟩
      intro hDot
      rw [hDot] at hMem
      exact hToken.noDot hMem
    simp only [isConcrete, Bool.and_eq_true, decide_eq_true_eq,
      List.all_eq_true, Bool.not_eq_true']
    exact ⟨⟨⟨hToken.nonempty, hChars⟩, hToken.notStar⟩,
      hToken.notFull⟩

/- What one token of a pattern asks of a subject. -/
theorem matches_cons_iff
    {part token : String}
    {parts rest : Subject} :
    Matches (part :: parts) (token :: rest) ↔
      (part = ">" ∧ parts = []) ∨
        ((part = "*" ∨ part = token) ∧ Matches parts rest) := by
  unfold Matches
  rw [captures]
  by_cases hFull : part = ">" ∧ parts = []
  · simp [hFull]
  · rw [if_neg hFull]
    by_cases hStar : part = "*"
    · simp [hStar]
    · rw [if_neg hStar]
      by_cases hToken : part = token
      · rw [if_pos hToken]
        constructor
        · intro hRest
          exact .inr ⟨.inr hToken, hRest⟩
        · intro hEither
          rcases hEither with hEnd | hTail
          · exact absurd hEnd hFull
          · exact hTail.2
      · simp [hFull, hStar, hToken]

theorem matches_nil_iff {subject : Subject} :
    Matches [] subject ↔ subject = [] := by
  cases subject <;> simp [Matches, captures]

theorem not_matches_nil
    {part : String}
    {parts : Subject} :
    ¬ Matches (part :: parts) [] := by
  simp [Matches, captures]

/- Some published subject is under the pattern. -/
def satisfiable : Subject → Bool
| [] => true
| part :: parts =>
    (part = ">" && parts = []) ||
      ((part = "*" || isConcrete part) && satisfiable parts)

theorem concreteToken_a : ConcreteToken "a" :=
  (isConcrete_iff "a").mp (by decide)

theorem satisfiable_iff (pattern : Subject) :
    satisfiable pattern = true ↔
      ∃ subject,
        (∀ token ∈ subject, ConcreteToken token) ∧
          Matches pattern subject := by
  induction pattern with
  | nil =>
      simp only [satisfiable, true_iff]
      exact ⟨[], by simp, matches_nil_iff.mpr rfl⟩
  | cons part parts ih =>
      simp only [satisfiable, Bool.or_eq_true,
        Bool.and_eq_true, decide_eq_true_eq, ih,
        isConcrete_iff]
      constructor
      · intro hPart
        rcases hPart with
          hFull | ⟨hToken, rest, hRest, hMatches⟩
        · exact ⟨["a"], by simpa using concreteToken_a,
            matches_cons_iff.mpr (.inl hFull)⟩
        · rcases hToken with hStar | hToken
          · refine ⟨"a" :: rest, ?_,
              matches_cons_iff.mpr
                (.inr ⟨.inl hStar, hMatches⟩)⟩
            simpa using ⟨concreteToken_a, hRest⟩
          · refine ⟨part :: rest, ?_,
              matches_cons_iff.mpr
                (.inr ⟨.inr rfl, hMatches⟩)⟩
            simpa using ⟨hToken, hRest⟩
      · intro hSome
        rcases hSome with ⟨subject, hConcrete, hMatches⟩
        cases subject with
        | nil => exact absurd hMatches not_matches_nil
        | cons token rest =>
            rcases matches_cons_iff.mp hMatches with
              hFull | ⟨hToken, hRest⟩
            · exact .inl hFull
            · right
              refine ⟨?_, rest, ?_, hRest⟩
              · rcases hToken with hStar | hSame
                · exact .inl hStar
                · right
                  rw [hSame]
                  exact hConcrete token List.mem_cons_self
              · intro other hMem
                exact hConcrete other
                  (List.mem_cons_of_mem _ hMem)

end Nats

------------------------------------------------------------
-- The Meet Of Two Patterns
------------------------------------------------------------

namespace Nats

/- The pattern of what is under two patterns at once. -/
def meet : Subject → Subject → Option Subject
| [], [] => some []
| [], _ :: _ => none
| _ :: _, [] => none
| left :: lefts, right :: rights =>
    if left = ">" ∧ lefts = [] then
      some (right :: rights)
    else if right = ">" ∧ rights = [] then
      some (left :: lefts)
    else if left = "*" then
      (meet lefts rights).map (fun common => right :: common)
    else if right = "*" ∨ left = right then
      (meet lefts rights).map (fun common => left :: common)
    else
      none

/- Only patterns without tokens meet in one without tokens. -/
theorem nil_of_meet_eq_nil
    {lefts rights : Subject}
    (hMeet : meet lefts rights = some []) :
    lefts = [] ∧ rights = [] := by
  unfold meet at hMeet
  split at hMeet
  · exact ⟨rfl, rfl⟩
  · cases hMeet
  · cases hMeet
  · split_ifs at hMeet <;> simp at hMeet

/- A token of the meet asks for what both tokens ask for. -/
theorem exists_meet_cons_iff
    {part left right : String}
    {lefts rights : Subject}
    (hPart :
      ∀ token,
        (part = "*" ∨ part = token) ↔
          (left = "*" ∨ left = token) ∧
            (right = "*" ∨ right = token))
    (hLeft : ¬ (left = ">" ∧ lefts = []))
    (hRight : ¬ (right = ">" ∧ rights = []))
    (hOne : part = left ∨ part = right)
    (ih :
      ∀ rest,
        (∃ common,
          meet lefts rights = some common ∧
            Matches common rest) ↔
          Matches lefts rest ∧ Matches rights rest)
    (subject : Subject) :
    (∃ common,
      (meet lefts rights).map (fun tail => part :: tail) =
          some common ∧
        Matches common subject) ↔
      Matches (left :: lefts) subject ∧
        Matches (right :: rights) subject := by
  have hNotFull :
      ∀ common,
        meet lefts rights = some common →
          ¬ (part = ">" ∧ common = []) := by
    intro common hMeet hFull
    rw [hFull.2] at hMeet
    have hNil := nil_of_meet_eq_nil hMeet
    rcases hOne with hOne | hOne
    · exact hLeft ⟨hOne.symm.trans hFull.1, hNil.1⟩
    · exact hRight ⟨hOne.symm.trans hFull.1, hNil.2⟩
  cases subject with
  | nil =>
      constructor
      · intro hSome
        rcases hSome with ⟨common, hCommon, hMatches⟩
        rcases Option.map_eq_some_iff.mp hCommon with
          ⟨tail, _, hEq⟩
        rw [← hEq] at hMatches
        exact absurd hMatches not_matches_nil
      · intro hBoth
        exact absurd hBoth.1 not_matches_nil
  | cons token rest =>
      simp only [matches_cons_iff, hLeft, hRight, false_or]
      rw [and_and_and_comm, ← hPart token, ← ih rest]
      constructor
      · intro hSome
        rcases hSome with ⟨common, hCommon, hMatches⟩
        rcases Option.map_eq_some_iff.mp hCommon with
          ⟨tail, hMeet, hEq⟩
        rw [← hEq, matches_cons_iff] at hMatches
        rcases hMatches with hFull | hTail
        · exact absurd hFull (hNotFull tail hMeet)
        · exact ⟨hTail.1, tail, hMeet, hTail.2⟩
      · intro hTail
        rcases hTail with ⟨hToken, tail, hMeet, hMatches⟩
        exact ⟨part :: tail, by rw [hMeet]; rfl,
          matches_cons_iff.mpr (.inr ⟨hToken, hMatches⟩)⟩

/- The meet is exactly what is under both patterns. -/
theorem matches_meet_iff
    (lefts rights subject : Subject) :
    (∃ common,
      meet lefts rights = some common ∧
        Matches common subject) ↔
      Matches lefts subject ∧ Matches rights subject := by
  induction lefts, rights using meet.induct
    generalizing subject with
  | case1 => simp [meet, matches_nil_iff]
  | case2 right rights =>
      simp only [meet, matches_nil_iff]
      constructor
      · simp
      · intro hBoth
        rw [hBoth.1] at hBoth
        exact absurd hBoth.2 not_matches_nil
  | case3 left lefts =>
      simp only [meet, matches_nil_iff]
      constructor
      · simp
      · intro hBoth
        rw [hBoth.2] at hBoth
        exact absurd hBoth.1 not_matches_nil
  | case4 left lefts right rights hLeft =>
      rw [meet, if_pos hLeft]
      cases subject with
      | nil => simp [not_matches_nil]
      | cons token rest =>
          have hAll : Matches (left :: lefts) (token :: rest) :=
            matches_cons_iff.mpr (.inl hLeft)
          simp [hAll]
  | case5 left lefts right rights hLeft hRight =>
      rw [meet, if_neg hLeft, if_pos hRight]
      cases subject with
      | nil => simp [not_matches_nil]
      | cons token rest =>
          have hAll :
              Matches (right :: rights) (token :: rest) :=
            matches_cons_iff.mpr (.inl hRight)
          simp [hAll]
  | case6 lefts right rights hRight hLeft ih =>
      rw [meet, if_neg hLeft, if_neg hRight, if_pos rfl]
      exact exists_meet_cons_iff (by simp) hLeft hRight
        (.inr rfl) ih subject
  | case7 left lefts right rights hLeft hRight hStar hSame ih =>
      rw [meet, if_neg hLeft, if_neg hRight, if_neg hStar,
        if_pos hSame]
      have hPart :
          ∀ token,
            (left = "*" ∨ left = token) ↔
              (left = "*" ∨ left = token) ∧
                (right = "*" ∨ right = token) := by
        intro token
        rcases hSame with hSame | hSame
        · simp [hSame]
        · simp [hSame]
      exact exists_meet_cons_iff hPart hLeft hRight (.inl rfl)
        ih subject
  | case8 left lefts right rights hLeft hRight hStar hOther =>
      rw [meet, if_neg hLeft, if_neg hRight, if_neg hStar,
        if_neg hOther]
      cases subject with
      | nil => simp [not_matches_nil]
      | cons token rest =>
          simp only [matches_cons_iff, hLeft, hRight,
            false_or]
          grind

/- Two patterns have a published subject in common. -/
def overlap (left right : Subject) : Bool :=
  match meet left right with
  | none => false
  | some common => satisfiable common

theorem overlap_iff (left right : Subject) :
    overlap left right = true ↔
      ∃ subject,
        (∀ token ∈ subject, ConcreteToken token) ∧
          Matches left subject ∧ Matches right subject := by
  simp only [← matches_meet_iff]
  cases hMeet : meet left right with
  | none => simp [overlap, hMeet]
  | some common =>
      simpa [overlap, hMeet] using satisfiable_iff common

end Nats
