import DsxExchange.EventBus.Validation
import DsxExchange.Nats.Subject

/-
  The accounts of a CPC cluster, and where their imports take
  a message.

  Nothing checks the three lists of subjects, so a message can
  go round between the two accounts. It does so exactly when a
  subject is copied up and down again, or when it can climb
  without end, one prefix more in every round.

  Key definitions include:
    * `EventBus.streamExports`, `EventBus.streamImports`
    * `EventBus.NoShuttle`, `EventBus.NoClimb`

  Key theorems include:
    * `EventBus.hop_cpc_iff`, `EventBus.hop_csc_iff`
    * `EventBus.routesEnd_iff`
    * `EventBus.routesEnd_of_listsDisjoint`
-/

------------------------------------------------------------
-- The Rendered Accounts
------------------------------------------------------------

namespace EventBus

/- The accounts that the cross-layer lists connect. -/
inductive DcAccount where
  | csc
  | cpc
deriving DecidableEq, Repr

/- A stream import as the configuration file has it. -/
structure ImportLine where
  account : DcAccount
  subject : String
  toSubject : Option String
deriving DecidableEq, Repr

/- `printf "cpc.%s.%s"` with the id of the cluster. -/
def cpcSubject (clusterId : Scalar) (subject : String) : String :=
  "cpc." ++ clusterId.printfText ++ "." ++ subject

def csc2cpcSubject (clusterId : Scalar) : String :=
  "csc2cpc." ++ clusterId.printfText ++ ".>"

/- The subjects of the streams that an account exports. -/
def streamExports (values : Values) : DcAccount → List String
| .csc =>
    values.crossLayer.cscExports ++
      values.crossLayer.cscPrefixedExports ++
      [cpcSubject values.clusterId ">",
        csc2cpcSubject values.clusterId]
| .cpc => values.crossLayer.cpcExports

/- The stream imports of an account, in their order. -/
def streamImports (values : Values) :
    DcAccount → List ImportLine
| .csc =>
    values.crossLayer.cpcExports.map (fun subject =>
      { account := .cpc
        subject := subject
        toSubject :=
          some (cpcSubject values.clusterId subject) })
| .cpc =>
    values.crossLayer.cscExports.map (fun subject =>
      { account := .csc
        subject := subject
        toSubject := none }) ++
      values.crossLayer.cscPrefixedExports.map (fun subject =>
        { account := .csc
          subject := cpcSubject values.clusterId subject
          toSubject := some subject }) ++
      [{ account := .csc
         subject := csc2cpcSubject values.clusterId
         toSubject := none }]

/- What the server reads in a line. -/
def ImportLine.parse
    (line : ImportLine) : Nats.StreamImport DcAccount :=
  { account := line.account
    subject := Nats.tokens line.subject
    toSubject := line.toSubject.map Nats.tokens }

def parsedImports (values : Values) (account : DcAccount) :
    List (Nats.StreamImport DcAccount) :=
  (streamImports values account).map ImportLine.parse

/- One message of one account in a rendered configuration. -/
abbrev Node := DcAccount × Nats.Subject

def Hop (values : Values) : Node → Node → Prop :=
  Nats.Hop (parsedImports values)

end EventBus

------------------------------------------------------------
-- The Token Of A Cluster
------------------------------------------------------------

namespace EventBus

/- The tokens in front of a subject of one CPC cluster. -/
def cpcStart (clusterId : Scalar) : Nats.Subject :=
  ["cpc", clusterId.printfText]

def csc2cpcStart (clusterId : Scalar) : Nats.Subject :=
  ["csc2cpc", clusterId.printfText]

/- A character that is not special in a subject. -/
def isPlain (c : Char) : Bool :=
  c ≠ '.' && !c.isWhitespace

theorem isPlain_of_isLowerAlnum
    {c : Char}
    (hChar : isLowerAlnum c = true) :
    isPlain c = true := by
  apply of_forall_ascii
    (p := fun c => isLowerAlnum c = true → isPlain c = true)
  · decide
  · exact toNat_lt_of_isAlphanum
      (isAlphanum_of_isLowerAlnum hChar)
  · exact hChar

theorem concreteToken_of_forall
    {token : String}
    (hNonempty : token ≠ "")
    (hPlain : token.toList.all isPlain = true)
    (hStar : token ≠ "*")
    (hFull : token ≠ ">") :
    Nats.ConcreteToken token := by
  have hChar :
      ∀ c ∈ token.toList,
        c ≠ '.' ∧ c.isWhitespace = false := by
    intro c hMem
    have hOne := List.all_eq_true.mp hPlain c hMem
    simpa [isPlain] using hOne
  exact
    { nonempty := hNonempty
      noDot := fun hDot => (hChar '.' hDot).1 rfl
      noSpace := fun c hMem => (hChar c hMem).2
      notStar := hStar
      notFull := hFull }

/- The report on a bad verb is one token. -/
theorem concreteToken_badVerb
    {goType text : String}
    (hType : goType.toList.all isPlain = true)
    (hText : text.toList.all isPlain = true) :
    Nats.ConcreteToken ("%!s(" ++ goType ++ "=" ++ text ++ ")") := by
  have hStart :
      '%' ∈ ("%!s(" ++ goType ++ "=" ++ text ++ ")").toList := by
    simp
  apply concreteToken_of_forall
  · intro hEmpty
    rw [hEmpty] at hStart
    simp at hStart
  · simp only [String.toList_append, List.all_append, hType,
      hText, Bool.and_true]
    decide
  · intro hStar
    rw [hStar] at hStart
    simp at hStart
  · intro hFull
    rw [hFull] at hStart
    simp at hStart

/- The text of an accepted id is a token of a subject. -/
theorem concreteToken_printfText
    {value : Scalar}
    (hId : isCpcId value.toText = true) :
    Nats.ConcreteToken value.printfText := by
  have hToken := isLowerToken_of_isCpcId hId
  have hPlain : value.toText.toList.all isPlain = true := by
    apply List.all_eq_true.mpr
    intro c hMem
    exact isPlain_of_isLowerAlnum (hToken.2 c hMem)
  cases value with
  | null =>
      exact absurd hId (by decide)
  | bool value =>
      exact @concreteToken_badVerb "bool"
        (Scalar.boolText value) (by decide) hPlain
  | number type text =>
      apply concreteToken_badVerb _ hPlain
      cases type <;> decide
  | string text =>
      apply concreteToken_of_forall hToken.1 hPlain
      · intro hStar
        have hLower := hToken.2 '*' (by
          simpa [Scalar.toText] using
            congrArg (fun s => '*' ∈ s.toList) hStar)
        exact absurd hLower (by decide)
      · intro hFull
        have hLower := hToken.2 '>' (by
          simpa [Scalar.toText] using
            congrArg (fun s => '>' ∈ s.toList) hFull)
        exact absurd hLower (by decide)

end EventBus

------------------------------------------------------------
-- What One Hop Does
------------------------------------------------------------

namespace EventBus

variable {clusterId : Scalar}

theorem tokens_cpcSubject
    (hToken : Nats.ConcreteToken clusterId.printfText)
    (subject : String) :
    Nats.tokens (cpcSubject clusterId subject) =
      cpcStart clusterId ++ Nats.tokens subject := by
  have hOuter :
      Nats.tokens (cpcSubject clusterId subject) =
        "cpc" ::
          Nats.tokens
            (clusterId.printfText ++ "." ++ subject) := by
    apply Go.split_of_toList_eq _ (by decide)
    simp [cpcSubject]
  have hInner :
      Nats.tokens (clusterId.printfText ++ "." ++ subject) =
        clusterId.printfText :: Nats.tokens subject := by
    apply Go.split_of_toList_eq _ hToken.noDot
    simp
  rw [hOuter, hInner]
  rfl

theorem tokens_csc2cpcSubject
    (hToken : Nats.ConcreteToken clusterId.printfText) :
    Nats.tokens (csc2cpcSubject clusterId) =
      csc2cpcStart clusterId ++ [">"] := by
  have hOuter :
      Nats.tokens (csc2cpcSubject clusterId) =
        "csc2cpc" ::
          Nats.tokens (clusterId.printfText ++ ".>") := by
    apply Go.split_of_toList_eq _ (by decide)
    simp [csc2cpcSubject]
  have hInner :
      Nats.tokens (clusterId.printfText ++ ".>") =
        clusterId.printfText :: Nats.tokens ">" := by
    apply Go.split_of_toList_eq _ hToken.noDot
    simp
  rw [hOuter, hInner]
  rfl

theorem concreteToken_cpc : Nats.ConcreteToken "cpc" :=
  concreteToken_of_forall (by decide) (by decide) (by decide)
    (by decide)

/- A prefixed subject is again one to publish on. -/
theorem concrete_cpcStart_append
    (hToken : Nats.ConcreteToken clusterId.printfText)
    {subject : Nats.Subject}
    (hSubject : ∀ token ∈ subject, Nats.ConcreteToken token) :
    Nats.Concrete (cpcStart clusterId ++ subject) := by
  constructor
  · simp [cpcStart]
  · intro token hMem
    simp only [cpcStart, List.cons_append, List.nil_append,
      List.mem_cons] at hMem
    rcases hMem with hCpc | hId | hRest
    · rw [hCpc]
      exact concreteToken_cpc
    · rw [hId]
      exact hToken
    · exact hSubject token hRest

theorem literal_cpcStart
    (hToken : Nats.ConcreteToken clusterId.printfText) :
    Nats.Literal (cpcStart clusterId) := by
  have hConcrete :
      Nats.Concrete (cpcStart clusterId ++ []) :=
    concrete_cpcStart_append hToken (by simp)
  simpa using hConcrete.literal

variable {values : Values}
variable {subject : Nats.Subject}

theorem hop_iff (source target : Node) :
    Hop values source target ↔
      ∃ line ∈ streamImports values target.1,
        line.account = source.1 ∧
          line.parse.deliver source.2 = some target.2 := by
  simp [Hop, Nats.Hop, parsedImports, ImportLine.parse]

/- A line without a local subject keeps the subject. -/
theorem deliver_same
    {account : DcAccount}
    {pattern : String}
    {arrived : Nats.Subject} :
    (ImportLine.parse ⟨account, pattern, none⟩).deliver
        subject = some arrived ↔
      Nats.Matches (Nats.tokens pattern) subject ∧
        arrived = subject := by
  have hSame :=
    Nats.mapSubject_self (Nats.tokens pattern) subject
  by_cases hMatches :
      Nats.Matches (Nats.tokens pattern) subject
  · simp [ImportLine.parse, Nats.StreamImport.deliver, hSame,
      hMatches, eq_comm]
  · simp [ImportLine.parse, Nats.StreamImport.deliver, hSame,
      hMatches]

theorem deliver_up
    (hToken : Nats.ConcreteToken clusterId.printfText)
    {account : DcAccount}
    {pattern : String}
    {arrived : Nats.Subject} :
    (ImportLine.parse
        ⟨account, pattern,
          some (cpcSubject clusterId pattern)⟩).deliver
        subject = some arrived ↔
      Nats.Matches (Nats.tokens pattern) subject ∧
        arrived = cpcStart clusterId ++ subject := by
  simpa [ImportLine.parse, Nats.StreamImport.deliver,
    tokens_cpcSubject hToken] using
    Nats.mapSubject_addPrefix (literal_cpcStart hToken)
      (Nats.tokens pattern) subject arrived

theorem deliver_down
    (hToken : Nats.ConcreteToken clusterId.printfText)
    {account : DcAccount}
    {pattern : String}
    {arrived : Nats.Subject} :
    (ImportLine.parse
        ⟨account, cpcSubject clusterId pattern,
          some pattern⟩).deliver subject = some arrived ↔
      subject = cpcStart clusterId ++ arrived ∧
        Nats.Matches (Nats.tokens pattern) arrived := by
  simpa [ImportLine.parse, Nats.StreamImport.deliver,
    tokens_cpcSubject hToken] using
    Nats.mapSubject_dropPrefix (literal_cpcStart hToken)
      (Nats.tokens pattern) subject arrived

/- A message of CPC goes up when it is exported there. -/
theorem hop_cpc_iff
    (hToken : Nats.ConcreteToken values.clusterId.printfText)
    (target : Node) :
    Hop values (.cpc, subject) target ↔
      Nats.MatchesAny values.crossLayer.cpcExports subject ∧
        target =
          (.csc, cpcStart values.clusterId ++ subject) := by
  rcases target with ⟨account, arrived⟩
  rw [hop_iff]
  constructor
  · intro hHop
    rcases hHop with ⟨line, hLine, hAccount, hDeliver⟩
    cases account with
    | csc =>
        rcases List.mem_map.mp hLine with
          ⟨pattern, hPattern, hEq⟩
        rw [← hEq, deliver_up hToken] at hDeliver
        exact ⟨⟨pattern, hPattern, hDeliver.1⟩,
          Prod.ext rfl hDeliver.2⟩
    | cpc =>
        have hOther : line.account = .csc := by
          simp only [streamImports, List.mem_append,
            List.mem_map, List.mem_singleton] at hLine
          rcases hLine with (hSame | hDown) | hFixed
          · rcases hSame with ⟨pattern, _, hEq⟩
            rw [← hEq]
          · rcases hDown with ⟨pattern, _, hEq⟩
            rw [← hEq]
          · rw [hFixed]
        rw [hOther] at hAccount
        cases hAccount
  · intro hUp
    rcases hUp with ⟨⟨pattern, hPattern, hMatches⟩, hTarget⟩
    cases hTarget
    exact ⟨_, List.mem_map.mpr ⟨pattern, hPattern, rfl⟩, rfl,
      (deliver_up hToken).mpr ⟨hMatches, rfl⟩⟩

/-
  A message of CSC goes down as it is, or without the prefix
  of the cluster.
-/
theorem hop_csc_iff
    (hToken : Nats.ConcreteToken values.clusterId.printfText)
    (target : Node) :
    Hop values (.csc, subject) target ↔
      ((Nats.MatchesAny values.crossLayer.cscExports subject ∨
          Nats.Matches
            (csc2cpcStart values.clusterId ++ [">"])
            subject) ∧
        target = (.cpc, subject)) ∨
      ∃ arrived,
        Nats.MatchesAny values.crossLayer.cscPrefixedExports
            arrived ∧
          subject = cpcStart values.clusterId ++ arrived ∧
          target = (.cpc, arrived) := by
  rcases target with ⟨account, arrived⟩
  rw [hop_iff]
  constructor
  · intro hHop
    rcases hHop with ⟨line, hLine, hAccount, hDeliver⟩
    cases account with
    | csc =>
        rcases List.mem_map.mp hLine with ⟨pattern, _, hEq⟩
        rw [← hEq] at hAccount
        cases hAccount
    | cpc =>
        simp only [streamImports, List.mem_append,
          List.mem_map, List.mem_singleton] at hLine
        rcases hLine with (hSame | hDown) | hFixed
        · rcases hSame with ⟨pattern, hPattern, hEq⟩
          rw [← hEq, deliver_same] at hDeliver
          exact .inl ⟨.inl ⟨pattern, hPattern, hDeliver.1⟩,
            Prod.ext rfl hDeliver.2⟩
        · rcases hDown with ⟨pattern, hPattern, hEq⟩
          rw [← hEq, deliver_down hToken] at hDeliver
          exact .inr ⟨arrived,
            ⟨pattern, hPattern, hDeliver.2⟩, hDeliver.1, rfl⟩
        · rw [hFixed, deliver_same,
            tokens_csc2cpcSubject hToken] at hDeliver
          exact .inl ⟨.inr hDeliver.1, Prod.ext rfl hDeliver.2⟩
  · intro hDown
    rcases hDown with
      ⟨hMatches | hFixed, hTarget⟩ |
        ⟨tail, hMatches, hSubject, hTarget⟩
    · rcases hMatches with ⟨pattern, hPattern, hMatches⟩
      cases hTarget
      refine ⟨_, List.mem_append_left _
        (List.mem_append_left _
          (List.mem_map.mpr ⟨pattern, hPattern, rfl⟩)),
        rfl, ?_⟩
      exact deliver_same.mpr ⟨hMatches, rfl⟩
    · cases hTarget
      refine ⟨_, List.mem_append_right _
        (List.mem_singleton.mpr rfl), rfl, ?_⟩
      rw [deliver_same, tokens_csc2cpcSubject hToken]
      exact ⟨hFixed, rfl⟩
    · rcases hMatches with ⟨pattern, hPattern, hMatches⟩
      cases hTarget
      refine ⟨_, List.mem_append_left _
        (List.mem_append_right _
          (List.mem_map.mpr ⟨pattern, hPattern, rfl⟩)),
        rfl, ?_⟩
      exact (deliver_down hToken).mpr ⟨hSubject, hMatches⟩

end EventBus

------------------------------------------------------------
-- Climbing
------------------------------------------------------------

namespace EventBus

/- A subject with the prefix of the cluster a number of times. -/
def climb (clusterId : Scalar) : ℕ → Nats.Subject → Nats.Subject
| 0, subject => subject
| rounds + 1, subject =>
    cpcStart clusterId ++ climb clusterId rounds subject

/- The tokens that a subject climbs along. -/
def climbWord (clusterId : Scalar) (i : ℕ) : String :=
  if i % 2 = 0 then "cpc" else clusterId.printfText

/- A pattern for every subject that has climbed far enough. -/
def Climbs (clusterId : Scalar) (patterns : List String) : Prop :=
  ∃ pattern ∈ patterns,
    Nats.follows (climbWord clusterId)
      (Nats.tokens pattern) = true

/- No subject is copied up and taken down again. -/
def NoShuttle (values : Values) : Prop :=
  ∀ subject,
    Nats.Concrete subject →
      ¬ (Nats.MatchesAny values.crossLayer.cpcExports subject ∧
        Nats.MatchesAny values.crossLayer.cscPrefixedExports
          subject)

/-
  The lists do not both take what has climbed: not both have
  a pattern that ends with `>` and whose other tokens match
  `cpc`, the id, `cpc`, the id, and so on.
-/
def NoClimb (values : Values) : Prop :=
  ¬ (Climbs values.clusterId values.crossLayer.cpcExports ∧
    Climbs values.clusterId values.crossLayer.cscExports)

instance (values : Values) : Decidable (NoClimb values) := by
  unfold NoClimb Climbs
  infer_instance

variable {clusterId : Scalar}

theorem climb_start
    (rounds : ℕ)
    (subject : Nats.Subject) :
    climb clusterId rounds (cpcStart clusterId ++ subject) =
      climb clusterId (rounds + 1) subject := by
  induction rounds with
  | zero => rfl
  | succ rounds ih =>
      rw [climb, ih]
      rfl

theorem climb_climb
    (outer inner : ℕ)
    (subject : Nats.Subject) :
    climb clusterId outer (climb clusterId inner subject) =
      climb clusterId (outer + inner) subject := by
  induction outer with
  | zero => simp [climb]
  | succ outer ih =>
      rw [Nat.succ_add, climb, climb, ih]

theorem length_climb
    (rounds : ℕ)
    (subject : Nats.Subject) :
    (climb clusterId rounds subject).length =
      2 * rounds + subject.length := by
  induction rounds with
  | zero => simp [climb]
  | succ rounds ih =>
      simp only [climb, cpcStart, List.length_append, ih,
        List.length_cons, List.length_nil]
      omega

/- A subject that has climbed starts with the word. -/
theorem startsWith_climb
    (rounds : ℕ)
    (subject : Nats.Subject) :
    Nats.StartsWith (climbWord clusterId) (2 * rounds)
      (climb clusterId rounds subject) := by
  induction rounds with
  | zero =>
      intro i hLt
      omega
  | succ rounds ih =>
      intro i hLt
      rcases i with _ | _ | i
      · rfl
      · rfl
      · have hNext := ih i (by omega)
        have hParity : (i + 2) % 2 = i % 2 := by omega
        simpa [climb, cpcStart, climbWord, hParity]
          using hNext

theorem concrete_climb
    (hToken : Nats.ConcreteToken clusterId.printfText)
    {subject : Nats.Subject}
    (hConcrete : Nats.Concrete subject)
    (rounds : ℕ) :
    Nats.Concrete (climb clusterId rounds subject) := by
  induction rounds with
  | zero => exact hConcrete
  | succ rounds ih =>
      exact concrete_cpcStart_append hToken ih.token

/- More tokens than any of some patterns has. -/
def longest : List String → ℕ
| [] => 0
| pattern :: rest =>
    (Nats.tokens pattern).length + longest rest

theorem length_le_longest
    {patterns : List String}
    {pattern : String}
    (hMem : pattern ∈ patterns) :
    (Nats.tokens pattern).length ≤ longest patterns := by
  induction patterns with
  | nil => simp at hMem
  | cons first rest ih =>
      unfold longest
      rcases List.mem_cons.mp hMem with hFirst | hRest
      · rw [hFirst]
        omega
      · have hLe := ih hRest
        omega

/- What has climbed far is matched by a pattern that climbs. -/
theorem climbs_of_matchesAny
    {patterns : List String}
    {rounds : ℕ}
    {subject : Nats.Subject}
    (hSubject : subject ≠ [])
    (hFar : longest patterns ≤ rounds)
    (hMatches :
      Nats.MatchesAny patterns
        (climb clusterId rounds subject)) :
    Climbs clusterId patterns := by
  rcases hMatches with ⟨pattern, hMem, hMatches⟩
  have hLength := length_le_longest hMem
  have hPositive : 0 < subject.length :=
    List.length_pos_iff.mpr hSubject
  refine ⟨pattern, hMem, Nats.follows_of_matches hMatches ?_ ?_⟩
  · rw [length_climb]
    omega
  · intro i hLt
    exact startsWith_climb rounds subject i (by omega)

/- A pattern that climbs matches all that has climbed far. -/
theorem matchesAny_of_climbs
    {patterns : List String}
    (hClimbs : Climbs clusterId patterns)
    {rounds : ℕ}
    (hFar : longest patterns ≤ rounds)
    (subject : Nats.Subject) :
    Nats.MatchesAny patterns
      (climb clusterId rounds subject) := by
  rcases hClimbs with ⟨pattern, hMem, hFollows⟩
  have hLength := length_le_longest hMem
  refine ⟨pattern, hMem, Nats.matches_of_follows hFollows ?_⟩
  intro i hLt
  exact startsWith_climb rounds subject i (by omega)

end EventBus

------------------------------------------------------------
-- Loops
------------------------------------------------------------

namespace EventBus

variable {values : Values}

/-
  One round: a message of CPC goes up, and comes down with
  one prefix more.
-/
theorem acc_cpc_of_round
    (hToken : Nats.ConcreteToken values.clusterId.printfText)
    (hShuttle : NoShuttle values)
    {subject : Nats.Subject}
    (hConcrete : Nats.Concrete subject)
    (hRound :
      Nats.MatchesAny values.crossLayer.cpcExports subject →
        Nats.MatchesAny values.crossLayer.cscExports
            (cpcStart values.clusterId ++ subject) →
          Acc (flip (Hop values))
            (.cpc, cpcStart values.clusterId ++ subject)) :
    Acc (flip (Hop values)) (.cpc, subject) := by
  constructor
  intro above hUp
  rcases (hop_cpc_iff hToken above).mp hUp with
    ⟨hExported, hAbove⟩
  rw [hAbove]
  constructor
  intro below hDown
  rcases (hop_csc_iff hToken below).mp hDown with
    ⟨hExported' | hFixed, hBelow⟩ |
      ⟨arrived, hPrefixed, hSubject, hBelow⟩
  · rw [hBelow]
    exact hRound hExported hExported'
  · simp [Nats.Matches, Nats.captures, csc2cpcStart, cpcStart]
      at hFixed
  · have hSame : subject = arrived :=
      List.append_cancel_left hSubject
    rw [← hSame] at hPrefixed
    exact absurd ⟨hExported, hPrefixed⟩
      (hShuttle subject hConcrete)

/- A subject that is stopped after some rounds comes to an end. -/
theorem acc_cpc_of_stopped
    (hToken : Nats.ConcreteToken values.clusterId.printfText)
    (hShuttle : NoShuttle values)
    {rounds : ℕ}
    {subject : Nats.Subject}
    (hConcrete : Nats.Concrete subject)
    (hStopped :
      ¬ (Nats.MatchesAny values.crossLayer.cpcExports
          (climb values.clusterId rounds subject) ∧
        Nats.MatchesAny values.crossLayer.cscExports
          (climb values.clusterId (rounds + 1) subject))) :
    Acc (flip (Hop values)) (.cpc, subject) := by
  induction rounds generalizing subject with
  | zero =>
      apply acc_cpc_of_round hToken hShuttle hConcrete
      intro hUp hDown
      exact absurd ⟨hUp, hDown⟩ hStopped
  | succ rounds ih =>
      apply acc_cpc_of_round hToken hShuttle hConcrete
      intro hUp hDown
      apply ih (concrete_cpcStart_append hToken
        hConcrete.token)
      rw [climb_start, climb_start]
      exact hStopped

/- Without a climb every subject is stopped in the end. -/
theorem exists_stopped
    (hClimb : NoClimb values)
    {subject : Nats.Subject}
    (hSubject : subject ≠ []) :
    ∃ rounds,
      ¬ (Nats.MatchesAny values.crossLayer.cpcExports
          (climb values.clusterId rounds subject) ∧
        Nats.MatchesAny values.crossLayer.cscExports
          (climb values.clusterId (rounds + 1) subject)) := by
  by_contra hNever
  push Not at hNever
  have hBoth :=
    hNever (longest values.crossLayer.cpcExports +
      longest values.crossLayer.cscExports)
  apply hClimb
  constructor
  · exact climbs_of_matchesAny hSubject (by omega) hBoth.1
  · exact climbs_of_matchesAny hSubject (by omega) hBoth.2

/- Every walk from a message of CPC ends. -/
theorem acc_cpc
    (hToken : Nats.ConcreteToken values.clusterId.printfText)
    (hShuttle : NoShuttle values)
    (hClimb : NoClimb values)
    {subject : Nats.Subject}
    (hConcrete : Nats.Concrete subject) :
    Acc (flip (Hop values)) (.cpc, subject) := by
  rcases exists_stopped hClimb hConcrete.nonempty with
    ⟨rounds, hStopped⟩
  exact acc_cpc_of_stopped hToken hShuttle hConcrete hStopped

/- A message of CSC goes down first. -/
theorem acc_csc
    (hToken : Nats.ConcreteToken values.clusterId.printfText)
    (hShuttle : NoShuttle values)
    (hClimb : NoClimb values)
    {subject : Nats.Subject}
    (hConcrete : Nats.Concrete subject) :
    Acc (flip (Hop values)) (.csc, subject) := by
  constructor
  intro below hDown
  rcases (hop_csc_iff hToken below).mp hDown with
    ⟨_, hBelow⟩ | ⟨arrived, hPrefixed, hSubject, hBelow⟩
  · rw [hBelow]
    exact acc_cpc hToken hShuttle hClimb hConcrete
  · rw [hBelow]
    apply acc_cpc hToken hShuttle hClimb
    rcases hPrefixed with ⟨pattern, _, hMatches⟩
    constructor
    · exact Nats.subject_ne_nil_of_matches
        (Go.split_ne_nil _ _) hMatches
    · intro token hMem
      apply hConcrete.token token
      rw [hSubject]
      exact List.mem_append_right _ hMem

/- A subject under both lists comes back at once. -/
theorem transGen_of_shuttle
    (hToken : Nats.ConcreteToken values.clusterId.printfText)
    {subject : Nats.Subject}
    (hUp :
      Nats.MatchesAny values.crossLayer.cpcExports subject)
    (hDown :
      Nats.MatchesAny values.crossLayer.cscPrefixedExports
        subject) :
    Relation.TransGen (Hop values) (.cpc, subject)
      (.cpc, subject) := by
  have hFirst :
      Hop values (.cpc, subject)
        (.csc, cpcStart values.clusterId ++ subject) :=
    (hop_cpc_iff hToken _).mpr ⟨hUp, rfl⟩
  have hSecond :
      Hop values
        (.csc, cpcStart values.clusterId ++ subject)
        (.cpc, subject) :=
    (hop_csc_iff hToken _).mpr
      (.inr ⟨subject, hDown, rfl, rfl⟩)
  exact (Relation.TransGen.single hFirst).tail hSecond

/- A subject that climbs under both lists never stops. -/
theorem not_acc_of_climb
    (hToken : Nats.ConcreteToken values.clusterId.printfText)
    {subject : Nats.Subject}
    (hBoth :
      ∀ rounds,
        Nats.MatchesAny values.crossLayer.cpcExports
            (climb values.clusterId rounds subject) ∧
          Nats.MatchesAny values.crossLayer.cscExports
            (climb values.clusterId rounds subject)) :
    ¬ Acc (flip (Hop values)) (.cpc, subject) := by
  intro hAcc
  have hRound :
      ∀ rounds,
        Relation.TransGen (flip (Hop values))
          (.cpc, climb values.clusterId (rounds + 1) subject)
          (.cpc, climb values.clusterId rounds subject) := by
    intro rounds
    have hUp :
        flip (Hop values)
          (.csc, climb values.clusterId (rounds + 1) subject)
          (.cpc, climb values.clusterId rounds subject) :=
      (hop_cpc_iff hToken _).mpr ⟨(hBoth rounds).1, rfl⟩
    have hDown :
        flip (Hop values)
          (.cpc, climb values.clusterId (rounds + 1) subject)
          (.csc,
            climb values.clusterId (rounds + 1) subject) :=
      (hop_csc_iff hToken _).mpr
        (.inl ⟨.inl (hBoth (rounds + 1)).2, rfl⟩)
    exact (Relation.TransGen.single hDown).tail hUp
  have hNever :
      ∀ node,
        Acc (Relation.TransGen (flip (Hop values))) node →
          ∀ rounds,
            node ≠
              (.cpc, climb values.clusterId rounds subject) := by
    intro node hNode
    induction hNode with
    | intro node _ ih =>
        intro rounds hEq
        rw [hEq] at ih
        exact ih _ (hRound rounds) (rounds + 1) rfl
  exact hNever _ hAcc.transGen 0 rfl

/-
  What an account imports is exported by the other one, so
  that the server lets every line through.
-/
theorem exported_of_mem_streamImports
    (hToken : Nats.ConcreteToken values.clusterId.printfText)
    {account : DcAccount}
    {line : ImportLine}
    (hLine : line ∈ streamImports values account) :
    ∃ pattern ∈ streamExports values line.account,
      ∀ subject,
        Nats.Matches (Nats.tokens line.subject) subject →
          Nats.Matches (Nats.tokens pattern) subject := by
  cases account with
  | csc =>
      rcases List.mem_map.mp hLine with
        ⟨pattern, hPattern, hEq⟩
      rw [← hEq]
      exact ⟨pattern, hPattern, fun _ hMatches => hMatches⟩
  | cpc =>
      simp only [streamImports, List.mem_append, List.mem_map,
        List.mem_singleton] at hLine
      rcases hLine with (hSame | hDown) | hFixed
      · rcases hSame with ⟨pattern, hPattern, hEq⟩
        rw [← hEq]
        exact ⟨pattern, by simp [streamExports, hPattern],
          fun _ hMatches => hMatches⟩
      · rcases hDown with ⟨pattern, _, hEq⟩
        rw [← hEq]
        refine ⟨cpcSubject values.clusterId ">",
          by simp [streamExports], ?_⟩
        intro subject hMatches
        rw [tokens_cpcSubject hToken,
          Nats.matches_append_iff (literal_cpcStart hToken)]
          at hMatches ⊢
        rcases hMatches with ⟨tail, hSubject, hTail⟩
        refine ⟨tail, hSubject, ?_⟩
        have hSome : tail ≠ [] :=
          Nats.subject_ne_nil_of_matches
            (Go.split_ne_nil _ _) hTail
        cases tail with
        | nil => exact absurd rfl hSome
        | cons token rest => rfl
      · rw [hFixed]
        exact ⟨csc2cpcSubject values.clusterId,
          by simp [streamExports], fun _ hMatches => hMatches⟩

/- The routes of a configuration lead nowhere for ever. -/
def RoutesEnd (values : Values) : Prop :=
  ∀ account subject,
    Nats.Concrete subject →
      Nats.LoopFree (parsedImports values) (account, subject)

theorem concreteToken_of_accepted
    (hAccepted : validation values = .ok ())
    (hRole : values.clusterType = "cpc") :
    Nats.ConcreteToken values.clusterId.printfText :=
  concreteToken_printfText
    (((validation_ok_iff_accepted values).mp
      hAccepted).clusterId hRole).2

theorem routesEnd_of_noClimb
    (hToken : Nats.ConcreteToken values.clusterId.printfText)
    (hShuttle : NoShuttle values)
    (hClimb : NoClimb values) :
    RoutesEnd values := by
  intro account subject hConcrete
  have hAcc : Acc (flip (Hop values)) (account, subject) := by
    cases account with
    | cpc => exact acc_cpc hToken hShuttle hClimb hConcrete
    | csc => exact acc_csc hToken hShuttle hClimb hConcrete
  exact ⟨Nats.not_transGen_self_of_acc hAcc, hAcc⟩

/- Both lists climb, so one subject is under both of them. -/
theorem exists_concrete_under_both
    (hToken : Nats.ConcreteToken values.clusterId.printfText)
    (hClimbs : ¬ NoClimb values) :
    ∃ subject,
      Nats.Concrete subject ∧
        ∀ rounds,
          Nats.MatchesAny values.crossLayer.cpcExports
              (climb values.clusterId rounds subject) ∧
            Nats.MatchesAny values.crossLayer.cscExports
              (climb values.clusterId rounds subject) := by
  have hBoth := not_not.mp hClimbs
  have hCpc : Nats.Concrete ["cpc"] :=
    ⟨by simp, by simpa using concreteToken_cpc⟩
  refine ⟨_, concrete_climb hToken hCpc
    (longest values.crossLayer.cpcExports +
      longest values.crossLayer.cscExports), ?_⟩
  intro rounds
  rw [climb_climb]
  exact ⟨matchesAny_of_climbs hBoth.1 (by omega) _,
    matchesAny_of_climbs hBoth.2 (by omega) _⟩

/-
  The routes of accepted values end exactly when no subject
  is taken up and down again, and none climbs for ever.
-/
theorem routesEnd_iff
    (values : Values)
    (hAccepted : validation values = .ok ())
    (hRole : values.clusterType = "cpc") :
    RoutesEnd values ↔ NoShuttle values ∧ NoClimb values := by
  have hToken := concreteToken_of_accepted hAccepted hRole
  constructor
  · intro hEnd
    constructor
    · intro subject hConcrete hBoth
      exact (hEnd .cpc subject hConcrete).noReturn
        (transGen_of_shuttle hToken hBoth.1 hBoth.2)
    · by_contra hClimbs
      rcases exists_concrete_under_both hToken hClimbs with
        ⟨subject, hConcrete, hBoth⟩
      exact not_acc_of_climb hToken hBoth
        (hEnd .cpc subject hConcrete).ends
  · intro hNo
    exact routesEnd_of_noClimb hToken hNo.1 hNo.2

/- Values of a CPC cluster with the given lists. -/
def cpcValues (crossLayer : CrossLayer) : Values where
  clusterType := "cpc"
  clusterId := .string "1"
  cscEndpoint := "nats://csc:7422"
  cpcIds := []
  crossLayer := crossLayer
  mtlsEnabled := true
  extraAccounts := ∅
  nkeyPermissions := ∅
  nkeySecretRefOverrides := some ∅
  authCalloutExtraEnvs := ∅

theorem validation_cpcValues (crossLayer : CrossLayer) :
    validation (cpcValues crossLayer) = .ok () := by
  rw [validation_ok_iff_accepted]
  exact
    { clusterType := .inr rfl
      clusterId := fun _ => ⟨rfl, by
        simp [cpcValues, Scalar.toText, isCpcId,
          isLowerAlnum]⟩
      cscEndpoint := fun _ => by simp [cpcValues]
      cpcIds := by simp [cpcValues]
      distinctCpcIds := by simp [cpcValues]
      accounts := by
        simp [cpcValues, Values.enabledAccounts, enabledNames]
      distinctEnvNames := by
        simp [cpcValues, Values.enabledAccounts, enabledNames]
      distinctSecretNames := by
        simp [cpcValues, Values.enabledAccounts, enabledNames]
      nkeyNames := by simp [cpcValues]
      envNames := by simp [cpcValues] }

/- One subject in two lists. -/
def loopingValues : Values :=
  cpcValues
    { cscExports := []
      cscPrefixedExports := ["telemetry.temp"]
      cpcExports := ["telemetry.temp"] }

/- Values with a loop are accepted. -/
theorem accepted_loopingValues :
    ¬ ∀ values : Values,
      validation values = .ok () →
        values.clusterType = "cpc" →
          RoutesEnd values := by
  intro hAll
  have hAccepted : validation loopingValues = .ok () :=
    validation_cpcValues _
  have hEnd := hAll loopingValues hAccepted rfl
  have hConcrete : Nats.Concrete ["telemetry", "temp"] := by
    constructor
    · simp
    · intro token hMem
      simp only [List.mem_cons, List.not_mem_nil, or_false]
        at hMem
      rcases hMem with hFirst | hSecond
      · rw [hFirst]
        exact concreteToken_of_forall (by decide) (by decide)
          (by decide) (by decide)
      · rw [hSecond]
        exact concreteToken_of_forall (by decide) (by decide)
          (by decide) (by decide)
  apply (hEnd .cpc ["telemetry", "temp"] hConcrete).noReturn
  apply transGen_of_shuttle
    (concreteToken_of_accepted hAccepted rfl)
  · exact ⟨"telemetry.temp", by decide, by decide +kernel⟩
  · exact ⟨"telemetry.temp", by decide, by decide +kernel⟩

/- Lists with wildcards that do not meet. -/
def routedValues : Values :=
  cpcValues
    { cscExports := ["broadcast.>"]
      cscPrefixedExports := ["command.*.set"]
      cpcExports := ["telemetry.>"] }

theorem routesEnd_routedValues : RoutesEnd routedValues := by
  apply (routesEnd_iff routedValues
    (validation_cpcValues _) rfl).mpr
  constructor
  · intro subject _ hBoth
    rcases hBoth with
      ⟨⟨up, hUp, hMatchesUp⟩, ⟨down, hDown, hMatchesDown⟩⟩
    have hUpTokens : Nats.tokens up = ["telemetry", ">"] := by
      rw [List.mem_singleton.mp hUp]
      decide +kernel
    have hDownTokens :
        Nats.tokens down = ["command", "*", "set"] := by
      rw [List.mem_singleton.mp hDown]
      decide +kernel
    rw [hUpTokens] at hMatchesUp
    rw [hDownTokens] at hMatchesDown
    cases subject with
    | nil => simp [Nats.Matches, Nats.captures] at hMatchesUp
    | cons token rest =>
        by_cases hToken : "telemetry" = token
        · rw [← hToken] at hMatchesDown
          simp [Nats.Matches, Nats.captures] at hMatchesDown
        · simp [Nats.Matches, Nats.captures, hToken]
            at hMatchesUp
  · decide +kernel

/- No subject is under two of the lists. -/
structure ListsDisjoint (crossLayer : CrossLayer) : Prop where
  upAndDown :
    ∀ subject,
      Nats.Concrete subject →
        ¬ (Nats.MatchesAny crossLayer.cpcExports subject ∧
          Nats.MatchesAny crossLayer.cscPrefixedExports
            subject)
  upAndAcross :
    ∀ subject,
      Nats.Concrete subject →
        ¬ (Nats.MatchesAny crossLayer.cpcExports subject ∧
          Nats.MatchesAny crossLayer.cscExports subject)

/- Lists that the documentation asks for have no loops. -/
theorem routesEnd_of_listsDisjoint
    {values : Values}
    (hAccepted : validation values = .ok ())
    (hRole : values.clusterType = "cpc")
    (hDisjoint : ListsDisjoint values.crossLayer) :
    RoutesEnd values := by
  have hToken := concreteToken_of_accepted hAccepted hRole
  apply routesEnd_of_noClimb hToken hDisjoint.upAndDown
  by_contra hClimbs
  rcases exists_concrete_under_both hToken hClimbs with
    ⟨subject, hConcrete, hBoth⟩
  exact hDisjoint.upAndAcross subject hConcrete (hBoth 0)

end EventBus
