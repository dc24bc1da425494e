import DsxExchange.EventBus.Federation

/-
  The streams that keep MQTT messages, and what those of a CPC
  cluster take over from the CSC cluster.

  A stored message has the subject it was published on behind
  `$MQTT.msgs.`, a retained one behind `$MQTT.rmsgs.`. The
  sources of the streams repeat the imports of the account CPC
  for these subjects, in a template of their own.

  Key definitions include:
    * `EventBus.SubjectTransform`, `EventBus.StreamSource`
    * `EventBus.mqttMsgs`, `EventBus.mqttRmsgs`
    * `EventBus.Stream.TakesOver`

  Key theorems include:
    * `EventBus.takesOver_iff`
    * `EventBus.takesOver_iff_reaches`
    * `EventBus.deliveries_arrive_iff`
-/

------------------------------------------------------------
-- The Rendered Streams
------------------------------------------------------------

namespace EventBus

/- An empty destination keeps the subject. -/
structure SubjectTransform where
  source : String
  dest : String
deriving DecidableEq, Repr

structure StreamSource where
  name : String
  externalApiPrefix : String
  externalDeliverPrefix : String
  subjectTransforms : List SubjectTransform
deriving DecidableEq, Repr

structure Stream where
  name : String
  subjects : List String
  sources : List StreamSource
deriving DecidableEq, Repr

def mqttSubject (kind subject : String) : String :=
  "$MQTT." ++ kind ++ "." ++ subject

def subjectTransforms
    (values : Values)
    (kind : String) : List SubjectTransform :=
  values.crossLayer.cscExports.map (fun subject =>
    { source := mqttSubject kind subject
      dest := "" }) ++
    values.crossLayer.cscPrefixedExports.map (fun subject =>
      { source :=
          mqttSubject kind (cpcSubject values.clusterId subject)
        dest := mqttSubject kind subject })

/- The id stands in the template without `printf`. -/
def externalDeliverPrefix (values : Values) : String :=
  "csc2cpc." ++ values.clusterId.toText

/- A stream with a source on a CPC cluster. -/
def sourcedStream (values : Values) (kind : String) : Stream where
  name := "$MQTT_" ++ kind
  subjects := [mqttSubject kind ">"]
  sources :=
    if values.clusterType = "cpc" then
      [{ name := "$MQTT_" ++ kind
         externalApiPrefix := "$JS.CSC.API"
         externalDeliverPrefix := externalDeliverPrefix values
         subjectTransforms := subjectTransforms values kind }]
    else
      []

def mqttMsgs (values : Values) : Stream :=
  sourcedStream values "msgs"

def mqttRmsgs (values : Values) : Stream :=
  sourcedStream values "rmsgs"

def mqttSess : Stream where
  name := "$MQTT_sess"
  subjects := ["$MQTT.sess.>"]
  sources := []

def mqttQos2in : Stream where
  name := "$MQTT_qos2in"
  subjects := ["$MQTT.qos2.in.>"]
  sources := []

def mqttOut : Stream where
  name := "$MQTT_out"
  subjects := ["$MQTT.out.>"]
  sources := []

def streams (values : Values) : List Stream :=
  [mqttMsgs values, mqttRmsgs values, mqttSess, mqttQos2in,
    mqttOut]

end EventBus

------------------------------------------------------------
-- What A Source Takes
------------------------------------------------------------

namespace EventBus

/- The subject under which a transform stores a message. -/
def SubjectTransform.apply
    (transform : SubjectTransform)
    (subject : Nats.Subject) : Option Nats.Subject :=
  Nats.mapSubject (Nats.tokens transform.source)
    (if transform.dest = "" then
      Nats.tokens transform.source
    else
      Nats.tokens transform.dest)
    subject

/-
  A stream takes a message over from the stream of the same
  name, and stores it under another subject.
-/
def Stream.TakesOver
    (stream : Stream)
    (subject stored : Nats.Subject) : Prop :=
  ∃ source ∈ stream.sources,
    ∃ transform ∈ source.subjectTransforms,
      transform.apply subject = some stored

/- The tokens in front of a stored message. -/
def mqttStart (kind : String) : Nats.Subject :=
  ["$MQTT", kind]

variable {kind : String}

theorem tokens_mqttSubject
    (hKind : '.' ∉ kind.toList)
    (subject : String) :
    Nats.tokens (mqttSubject kind subject) =
      mqttStart kind ++ Nats.tokens subject := by
  have hOuter :
      Nats.tokens (mqttSubject kind subject) =
        "$MQTT" :: Nats.tokens (kind ++ "." ++ subject) := by
    apply Go.split_of_toList_eq _ (by decide)
    simp [mqttSubject]
  have hInner :
      Nats.tokens (kind ++ "." ++ subject) =
        kind :: Nats.tokens subject := by
    apply Go.split_of_toList_eq _ hKind
    simp
  rw [hOuter, hInner]
  rfl

theorem mqttSubject_ne_empty (subject : String) :
    mqttSubject kind subject ≠ "" := by
  intro hEmpty
  have hList := congrArg String.toList hEmpty
  simp [mqttSubject] at hList

theorem literal_mqttStart
    (hStar : kind ≠ "*")
    (hFull : kind ≠ ">") :
    Nats.Literal (mqttStart kind) := by
  intro token hMem
  simp only [mqttStart, List.mem_cons, List.not_mem_nil,
    or_false] at hMem
  rcases hMem with hFirst | hSecond
  · rw [hFirst]
    decide
  · rw [hSecond]
    exact ⟨hStar, hFull⟩

/- Both sides of a mapping behind the same literal tokens. -/
theorem mapSubject_behind
    {start : Nats.Subject}
    (hLiteral : Nats.Literal start)
    (source target subject stored : Nats.Subject) :
    Nats.mapSubject (start ++ source) (start ++ target)
        (start ++ subject) = some stored ↔
      ∃ arrived,
        Nats.mapSubject source target subject = some arrived ∧
          stored = start ++ arrived := by
  have hCaptures :
      Nats.captures (start ++ source) (start ++ subject) =
        Nats.captures source subject := by
    apply Option.ext
    intro taken
    rw [Nats.captures_append_eq_some_iff hLiteral]
    constructor
    · intro hTail
      rcases hTail with ⟨tail, hSubject, hTaken⟩
      rw [List.append_cancel_left hSubject]
      exact hTaken
    · intro hTaken
      exact ⟨subject, rfl, hTaken⟩
  unfold Nats.mapSubject
  rw [hCaptures]
  cases Nats.captures source subject with
  | none => simp
  | some taken =>
      simp only [Option.bind_some, Nats.fill_append hLiteral,
        Option.map_eq_some_iff]
      constructor
      · intro hFill
        rcases hFill with ⟨arrived, hArrived, hStored⟩
        exact ⟨arrived, hArrived, hStored.symm⟩
      · intro hFill
        rcases hFill with ⟨arrived, hArrived, hStored⟩
        exact ⟨arrived, hArrived, hStored.symm⟩

end EventBus

------------------------------------------------------------
-- Stored Messages And Live Ones
------------------------------------------------------------

namespace EventBus

variable {values : Values}
variable {kind : String}

theorem apply_keep
    (hKind : Nats.ConcreteToken kind)
    (pattern : String)
    (subject stored : Nats.Subject) :
    (SubjectTransform.mk (mqttSubject kind pattern) "").apply
        (mqttStart kind ++ subject) = some stored ↔
      Nats.Matches (Nats.tokens pattern) subject ∧
        stored = mqttStart kind ++ subject := by
  simp only [SubjectTransform.apply, if_pos,
    tokens_mqttSubject hKind.noDot]
  rw [mapSubject_behind
    (literal_mqttStart hKind.notStar hKind.notFull),
    Nats.mapSubject_self]
  by_cases hMatches : Nats.Matches (Nats.tokens pattern) subject
  · simp [hMatches]
  · simp [hMatches]

theorem apply_drop
    (hKind : Nats.ConcreteToken kind)
    {clusterId : Scalar}
    (hToken : Nats.ConcreteToken clusterId.printfText)
    (pattern : String)
    (subject stored : Nats.Subject) :
    (SubjectTransform.mk
        (mqttSubject kind (cpcSubject clusterId pattern))
        (mqttSubject kind pattern)).apply
        (mqttStart kind ++ subject) = some stored ↔
      ∃ arrived,
        (subject = cpcStart clusterId ++ arrived ∧
          Nats.Matches (Nats.tokens pattern) arrived) ∧
        stored = mqttStart kind ++ arrived := by
  simp only [SubjectTransform.apply,
    if_neg (mqttSubject_ne_empty pattern),
    tokens_mqttSubject hKind.noDot, tokens_cpcSubject hToken]
  rw [mapSubject_behind
    (literal_mqttStart hKind.notStar hKind.notFull)]
  simp only [Nats.mapSubject_dropPrefix
    (literal_cpcStart hToken)]

/- The sources of the streams of a CPC cluster. -/
theorem takesOver_iff
    (hToken : Nats.ConcreteToken values.clusterId.printfText)
    (hRole : values.clusterType = "cpc")
    (hKind : Nats.ConcreteToken kind)
    (subject stored : Nats.Subject) :
    (sourcedStream values kind).TakesOver
        (mqttStart kind ++ subject) stored ↔
      ∃ arrived,
        stored = mqttStart kind ++ arrived ∧
          ((arrived = subject ∧
              Nats.MatchesAny values.crossLayer.cscExports
                subject) ∨
            (subject =
                cpcStart values.clusterId ++ arrived ∧
              Nats.MatchesAny
                values.crossLayer.cscPrefixedExports
                arrived)) := by
  have hSources :
      (sourcedStream values kind).TakesOver
          (mqttStart kind ++ subject) stored ↔
        ∃ transform ∈ subjectTransforms values kind,
          transform.apply (mqttStart kind ++ subject) =
            some stored := by
    simp [Stream.TakesOver, sourcedStream, hRole]
  rw [hSources]
  simp only [subjectTransforms, List.mem_append, List.mem_map]
  constructor
  · intro hTakes
    rcases hTakes with
      ⟨transform, ⟨pattern, hPattern, hEq⟩ |
        ⟨pattern, hPattern, hEq⟩, hApply⟩
    · rw [← hEq, apply_keep hKind] at hApply
      exact ⟨subject, hApply.2,
        .inl ⟨rfl, pattern, hPattern, hApply.1⟩⟩
    · rw [← hEq, apply_drop hKind hToken] at hApply
      rcases hApply with
        ⟨arrived, ⟨hSubject, hMatches⟩, hStored⟩
      exact ⟨arrived, hStored,
        .inr ⟨hSubject, pattern, hPattern, hMatches⟩⟩
  · intro hArrived
    rcases hArrived with
      ⟨arrived, hStored,
        ⟨hSame, pattern, hPattern, hMatches⟩ |
          ⟨hSubject, pattern, hPattern, hMatches⟩⟩
    · rw [hSame] at hStored
      exact ⟨_, .inl ⟨pattern, hPattern, rfl⟩,
        (apply_keep hKind _ _ _).mpr ⟨hMatches, hStored⟩⟩
    · exact ⟨_, .inr ⟨pattern, hPattern, rfl⟩,
        (apply_drop hKind hToken _ _ _).mpr
          ⟨arrived, ⟨hSubject, hMatches⟩, hStored⟩⟩

theorem concreteToken_kind
    (hKind : kind ∈ ["msgs", "rmsgs"]) :
    Nats.ConcreteToken kind := by
  apply (Nats.isConcrete_iff kind).mp
  simp only [List.mem_cons, List.not_mem_nil, or_false] at hKind
  rcases hKind with hMsgs | hRmsgs
  · rw [hMsgs]
    decide
  · rw [hRmsgs]
    decide

/-
  A stream of a CPC cluster stores a message of the CSC
  cluster exactly as the live one arrives: under the same
  subjects, and when nothing returns also over all other
  clusters.
-/
theorem takesOver_iff_reaches
    {Site : Type}
    (federation : Federation Site)
    (hStays :
      ∀ site, staysDown (federation.values site) = true)
    (site : Site)
    (hKind : kind ∈ ["msgs", "rmsgs"])
    {subject : Nats.Subject}
    (hConcrete : Nats.Concrete subject)
    (hNoDelivery :
      ¬ Nats.Matches
        (csc2cpcStart (federation.values site).clusterId ++
          [">"])
        subject)
    (stored : Nats.Subject) :
    (sourcedStream (federation.values site) kind).TakesOver
        (mqttStart kind ++ subject) stored ↔
      ∃ arrived,
        stored = mqttStart kind ++ arrived ∧
          federation.Reaches (.hub, subject)
            (.account site .cpc, arrived) := by
  rw [takesOver_iff (federation.concreteToken site)
    (federation.role site) (concreteToken_kind hKind)]
  apply exists_congr
  intro arrived
  apply and_congr_right
  intro _
  rw [Federation.reaches_iff_delivered, joined, joined]
  simp only [Place.joined]
  rw [Federation.delivered_hub_iff_of_staysDown hStays
    hConcrete, Federation.delivers_hub_iff]
  constructor
  · intro hTakes
    right
    refine ⟨site, arrived, ?_, rfl⟩
    rcases hTakes with ⟨hSame, hAcross⟩ | hTargeted
    · exact .inl ⟨hSame, .inl hAcross⟩
    · exact .inr hTargeted
  · intro hDelivered
    rcases hDelivered with hSame | ⟨other, taken, hDown, hEq⟩
    · cases hSame
    · cases hEq
      rcases hDown with ⟨hSame, hAcross | hStreamed⟩ |
        hTargeted
      · exact .inl ⟨hSame, hAcross⟩
      · exact absurd hStreamed hNoDelivery
      · exact .inr hTargeted

/- A command to the first cluster is stored there. -/
theorem takesOver_twoClusters :
    (sourcedStream (Federation.twoClusters.values false)
        "rmsgs").TakesOver
      (mqttStart "rmsgs" ++ ["cpc", "1", "commands", "stop"])
      (mqttStart "rmsgs" ++ ["commands", "stop"]) :=
  (@takesOver_iff_reaches _ _ Federation.twoClusters
    (by
      intro site
      cases site
      · decide +kernel
      · decide +kernel)
    false (by decide) ["cpc", "1", "commands", "stop"]
    ⟨by simp, by
      have hAll :
          ["cpc", "1", "commands", "stop"].all
            Nats.isConcrete = true := by
        decide
      intro token hMem
      exact (Nats.isConcrete_iff token).mp
        (List.all_eq_true.mp hAll token hMem)⟩
    (by decide +kernel)
    (mqttStart "rmsgs" ++ ["commands", "stop"])).mpr
    ⟨["commands", "stop"], rfl,
      Federation.reaches_of_delivers
        (Federation.Delivers.targeted false
          ["commands", "stop"]
          ⟨"commands.*", by decide, by decide +kernel⟩)⟩

end EventBus

------------------------------------------------------------
-- The Deliveries Of A Source
------------------------------------------------------------

namespace EventBus

theorem printfText_ne_toText_of_not_isString
    {value : Scalar}
    (hOther : ¬ value.IsString) :
    value.printfText ≠ value.toText := by
  have hLonger :
      value.toText.toList.length <
        value.printfText.toList.length := by
    cases value with
    | null => decide
    | bool value =>
        simp only [Scalar.printfText, Scalar.toText,
          String.toList_append, List.length_append]
        have hOpened : ("%!s(bool=".toList).length = 9 := rfl
        omega
    | number type text =>
        simp only [Scalar.printfText, Scalar.toText,
          String.toList_append, List.length_append]
        have hOpened : ("%!s(".toList).length = 4 := rfl
        omega
    | string text => exact absurd trivial hOther
  intro hEq
  rw [hEq] at hLonger
  omega

theorem noDot_of_isCpcId
    {text : String}
    (hId : isCpcId text = true) :
    '.' ∉ text.toList := by
  intro hDot
  have hLower := (isLowerToken_of_isCpcId hId).2 '.' hDot
  exact absurd hLower (by decide)

theorem tokens_externalDeliverPrefix
    (hId : isCpcId values.clusterId.toText = true) :
    Nats.tokens (externalDeliverPrefix values) =
      ["csc2cpc", values.clusterId.toText] := by
  have hOuter :
      Nats.tokens (externalDeliverPrefix values) =
        "csc2cpc" :: Nats.tokens values.clusterId.toText := by
    apply Go.split_of_toList_eq _ (by decide)
    simp [externalDeliverPrefix]
  have hInner :
      Go.split (Go.join [values.clusterId.toText] '.') '.' =
        [values.clusterId.toText] :=
    Go.split_join (by simp)
      (by simpa using noDot_of_isCpcId hId)
  rw [Go.join_singleton] at hInner
  rw [hOuter, Nats.tokens, hInner]

/-
  What a stream is sent for its source has a subject behind
  the prefix. It comes through the import that is there for it
  exactly when the id of the cluster is given as a string: in
  the import the id went through `printf`, in the prefix not.
-/
theorem deliveries_arrive_iff
    {values : Values}
    (hAccepted : validation values = .ok ())
    (hRole : values.clusterType = "cpc") :
    (∀ rest,
      rest ≠ [] →
        (ImportLine.parse
            ⟨.csc, csc2cpcSubject values.clusterId,
              none⟩).deliver
            (Nats.tokens (externalDeliverPrefix values) ++
              rest) =
          some
            (Nats.tokens (externalDeliverPrefix values) ++
              rest)) ↔
      values.clusterId.IsString := by
  have hToken := concreteToken_of_accepted hAccepted hRole
  have hId :=
    (((validation_ok_iff_accepted values).mp
      hAccepted).clusterId hRole).2
  simp only [deliver_same, and_true,
    tokens_csc2cpcSubject hToken,
    tokens_externalDeliverPrefix hId]
  have hLiteral :
      Nats.Literal (csc2cpcStart values.clusterId) := by
    intro token hMem
    simp only [csc2cpcStart, List.mem_cons, List.not_mem_nil,
      or_false] at hMem
    rcases hMem with hFirst | hSecond
    · rw [hFirst]
      decide
    · rw [hSecond]
      exact ⟨hToken.notStar, hToken.notFull⟩
  constructor
  · intro hAll
    by_contra hOther
    rcases (Nats.matches_append_iff hLiteral).mp
        (hAll ["a"] (by simp)) with
      ⟨tail, hEq, _⟩
    simp only [csc2cpcStart, List.cons_append, List.nil_append,
      List.cons.injEq, true_and] at hEq
    exact printfText_ne_toText_of_not_isString hOther
      hEq.1.symm
  · intro hString rest hRest
    apply (Nats.matches_append_iff hLiteral).mpr
    refine ⟨rest, ?_, ?_⟩
    · rw [csc2cpcStart,
        Scalar.printfText_eq_toText_of_isString hString]
    · cases rest with
      | nil => exact absurd rfl hRest
      | cons token others =>
          exact Nats.matches_cons_iff.mpr (.inl ⟨rfl, rfl⟩)

/- A delivery to a cluster with the id `1`, as a string. -/
theorem deliveries_arrive_stringId :
    (ImportLine.parse
        ⟨.csc, csc2cpcSubject (.string "1"), none⟩).deliver
        (Nats.tokens
            (externalDeliverPrefix
              (clusterValues "1" ⟨[], [], []⟩)) ++
          ["mqtt-msgs"]) =
      some
        (Nats.tokens
            (externalDeliverPrefix
              (clusterValues "1" ⟨[], [], []⟩)) ++
          ["mqtt-msgs"]) :=
  (@deliveries_arrive_iff (clusterValues "1" ⟨[], [], []⟩)
    (validation_clusterValues (by decide) _) rfl).mpr
      trivial ["mqtt-msgs"] (by simp)

end EventBus
