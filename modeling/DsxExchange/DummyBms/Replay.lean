import DsxExchange.DummyBms.Scenario

/-
  Publishing a scenario: every entry is rendered, and its
  message validated again, at the moment it is published.

  An entry that holds the placeholder is another message at
  that moment than the one that was validated when the
  scenario was read, and need not be valid.

  Key definitions include:
    * `DummyBms.Surroundings`
    * `DummyBms.publishOnce`
    * `DummyBms.PassSpec`
    * `DummyBms.RendersAlways`, `DummyBms.ReplaySpec`

  Key theorems include:
    * `DummyBms.passSpec_publishEntries`
    * `DummyBms.replaySpec_of_readScenario`
    * `DummyBms.not_rendersAlways_echoScenario`
-/

------------------------------------------------------------
-- Publishing
------------------------------------------------------------

namespace DummyBms

structure Message where
  topic : String
  payload : List UInt8
  qos : UInt8
  retain : Bool

/-
  What one pass meets: the clock at its start and at each
  entry, the results of waiting and of publishing for each
  entry, and the orders of the loops of each validation.
-/
structure Surroundings where
  startedAt : Time
  now : Nat → Time
  waitUntil : Nat → Time → Except String Unit
  publish : Nat → Message → Except String Unit
  orders : Nat → Orders

/- The failures of a pass. -/
inductive PublishError where
  | noScenario
  | noPublisher
  | waiting (i : Nat) (err : String)
  | rendering (i : Nat) (err : String)
  | publishing (i : Nat) (topic err : String)

def PublishError.text : PublishError → String
| .noScenario => "scenario is required"
| .noPublisher => "publisher is required"
| .waiting i err =>
    "failed waiting for entry " ++ toString i ++ ": " ++ err
| .rendering i err =>
    "failed to render entry " ++ toString i ++
      " payload: " ++ err
| .publishing i topic err =>
    "failed to publish entry " ++ toString i ++ " to " ++
      Go.quote topic ++ ": " ++ err

variable {Schema : Type} {libs : Libraries Schema}

/- A pass: its result, and what the publisher was given. -/
structure Pass (libs : Libraries Schema) where
  result : Except PublishError Unit
  given : List Message
  validator : BMSSchema libs

def publishEntries
    (env : Surroundings)
    (qos : UInt8) :
    Nat → List Entry → BMSSchema libs → Pass libs
| _, [], s => ⟨.ok (), [], s⟩
| i, entry :: entries, s =>
    let publishAt := env.startedAt + entry.offset
    match env.waitUntil i publishAt with
    | .error err => ⟨.error (.waiting i err), [], s⟩
    | .ok () =>
        match entry.renderPayload (env.orders i) (env.now i)
            s with
        | (.error err, s) =>
            ⟨.error (.rendering i err), [], s⟩
        | (.ok payload, s) =>
            let message : Message :=
              ⟨entry.topic, payload, qos, entry.retain⟩
            match env.publish i message with
            | .error err =>
                ⟨.error (.publishing i entry.topic err),
                  [message], s⟩
            | .ok () =>
                let rest :=
                  publishEntries env qos (i + 1) entries s
                { rest with given := message :: rest.given }

/-
  The scenario may be nil, and the publisher, too: that one
  is given by the surroundings when it is there.
-/
def publishOnce
    (env : Surroundings)
    (scenario : Option Scenario)
    (publisher : Bool)
    (qos : UInt8)
    (s : BMSSchema libs) : Pass libs :=
  match scenario with
  | none => ⟨.error .noScenario, [], s⟩
  | some scenario =>
      if publisher = false then
        ⟨.error .noPublisher, [], s⟩
      else
        publishEntries env qos 0 scenario.entries s

/- The message of an entry at the clock's instant. -/
def messageAt
    (env : Surroundings)
    (qos : UInt8)
    (i : Nat)
    (entry : Entry) : Message :=
  ⟨entry.topic, entry.rendering (env.now i), qos,
    entry.retain⟩

/-
  How one entry goes in a pass: it ends the pass in one of
  three ways, or its valid message is published and the
  other entries follow.
-/
inductive EntryCase
    (env : Surroundings)
    (qos : UInt8)
    (i : Nat)
    (entry : Entry)
    (entries : List Entry)
    (s : BMSSchema libs)
    (pass : Pass libs) : Prop where
  | waiting (err : String)
      (hWait :
        env.waitUntil i (env.startedAt + entry.offset) =
          .error err)
      (hResult : pass.result = .error (.waiting i err))
      (hGiven : pass.given = [])
  | rendering (err : String)
      (hInvalid : ¬ entry.ValidAt libs s.spec (env.now i))
      (hResult : pass.result = .error (.rendering i err))
      (hGiven : pass.given = [])
  | publishing (err : String)
      (hValid : entry.ValidAt libs s.spec (env.now i))
      (hPublish :
        env.publish i (messageAt env qos i entry) =
          .error err)
      (hResult :
        pass.result =
          .error (.publishing i entry.topic err))
      (hGiven : pass.given = [messageAt env qos i entry])
  | published (next : BMSSchema libs)
      (hValid : entry.ValidAt libs s.spec (env.now i))
      (hSpec : next.spec = s.spec)
      (hResult :
        pass.result =
          (publishEntries env qos (i + 1) entries
            next).result)
      (hGiven :
        pass.given =
          messageAt env qos i entry ::
            (publishEntries env qos (i + 1) entries
              next).given)

theorem publishEntries_cons_cases
    (env : Surroundings)
    (qos : UInt8)
    (i : Nat)
    (entry : Entry)
    (entries : List Entry)
    (s : BMSSchema libs) :
    EntryCase env qos i entry entries s
      (publishEntries env qos i (entry :: entries) s) := by
  cases hWait :
      env.waitUntil i (env.startedAt + entry.offset) with
  | error err =>
      apply EntryCase.waiting err hWait <;>
        simp [publishEntries, hWait]
  | ok done =>
      have hSpec :=
        entry.renderPayload_spec (env.orders i) (env.now i) s
      rcases hRender :
          entry.renderPayload (env.orders i) (env.now i) s with
        ⟨err | payload, next⟩
      · have hErr :
            (entry.renderPayload (env.orders i) (env.now i)
                s).1 = .error err := by
          rw [hRender]
        apply EntryCase.rendering err
          (Entry.renderPayload_error hErr) <;>
          simp [publishEntries, hWait, hRender]
      · have hOk :
            (entry.renderPayload (env.orders i) (env.now i)
                s).1 = .ok payload := by
          rw [hRender]
        rcases Entry.renderPayload_ok_iff.mp hOk with
          ⟨rfl, hValid⟩
        rw [hRender] at hSpec
        cases hPublish :
            env.publish i (messageAt env qos i entry) with
        | error err =>
            have hCall := hPublish
            unfold messageAt at hCall
            apply EntryCase.publishing err hValid hPublish <;>
              simp [publishEntries, hWait, hRender, hCall,
                messageAt]
        | ok done =>
            have hCall := hPublish
            unfold messageAt at hCall
            apply EntryCase.published next hValid hSpec <;>
              simp [publishEntries, hWait, hRender, hCall,
                messageAt]

end DummyBms

------------------------------------------------------------
-- Whole Passes
------------------------------------------------------------

namespace DummyBms

variable {Schema : Type}

/-
  What ended a pass over entries that were valid at time
  zero. The number of the first entry is given.
-/
inductive Explains
    (libs : Libraries Schema)
    (document : Go.Map Go.Any)
    (env : Surroundings)
    (qos : UInt8)
    (first : Nat)
    (entries : List Entry) : PublishError → Prop where
  | waiting {j entry err}
      (hEntry : entries[j]? = some entry)
      (hWait :
        env.waitUntil (first + j)
            (env.startedAt + entry.offset) =
          .error err) :
      Explains libs document env qos first entries
        (.waiting (first + j) err)
  | rendering {j entry err}
      (hEntry : entries[j]? = some entry)
      (hPlaceholder :
        Go.contains entry.payloadTemplate
            timestampPlaceholder = true)
      (hInvalid :
        ¬ entry.ValidAt libs document (env.now (first + j))) :
      Explains libs document env qos first entries
        (.rendering (first + j) err)
  | publishing {j entry err}
      (hEntry : entries[j]? = some entry)
      (hPublish :
        env.publish (first + j)
            (messageAt env qos (first + j) entry) =
          .error err) :
      Explains libs document env qos first entries
        (.publishing (first + j) entry.topic err)

/- The messages of the entries, in their order. -/
def messagesFrom
    (env : Surroundings)
    (qos : UInt8) : Nat → List Entry → List Message
| _, [] => []
| i, entry :: entries =>
    messageAt env qos i entry ::
      messagesFrom env qos (i + 1) entries

/- What is known of a pass over such entries. -/
structure PassSpec
    {libs : Libraries Schema}
    (document : Go.Map Go.Any)
    (env : Surroundings)
    (qos : UInt8)
    (first : Nat)
    (entries : List Entry)
    (pass : Pass libs) : Prop where
  valid :
    ∀ message ∈ pass.given,
      Accepts libs document message.topic message.payload
  inOrder : pass.given <+: messagesFrom env qos first entries
  complete :
    pass.result = .ok () →
      pass.given = messagesFrom env qos first entries
  explained :
    ∀ {failure}, pass.result = .error failure →
      Explains libs document env qos first entries failure

variable {libs : Libraries Schema}

/- Valid at time zero, an entry is so without placeholder. -/
theorem validAt_of_not_contains
    {document : Go.Map Go.Any}
    {entry : Entry}
    (hZero :
      entry.ValidAt libs document (fromUnixMilli 0))
    (hNone :
      Go.contains entry.payloadTemplate
          timestampPlaceholder = false)
    (now : Time) :
    entry.ValidAt libs document now := by
  unfold Entry.ValidAt at hZero ⊢
  rwa [Entry.rendering_of_not_contains hNone] at hZero ⊢

/- The failures of a pass are those of its later entries. -/
theorem Explains.cons
    {document : Go.Map Go.Any}
    {env : Surroundings}
    {qos : UInt8}
    {first : Nat}
    {entry : Entry}
    {entries : List Entry}
    {failure : PublishError}
    (hRest :
      Explains libs document env qos (first + 1) entries
        failure) :
    Explains libs document env qos first (entry :: entries)
      failure := by
  have hIndex : ∀ j, first + 1 + j = first + (j + 1) := by
    intro j
    omega
  cases hRest with
  | waiting hEntry hWait =>
      rw [hIndex] at hWait ⊢
      exact .waiting hEntry hWait
  | rendering hEntry hPlaceholder hInvalid =>
      rw [hIndex] at hInvalid ⊢
      exact .rendering hEntry hPlaceholder hInvalid
  | publishing hEntry hPublish =>
      rw [hIndex] at hPublish ⊢
      exact .publishing hEntry hPublish

theorem passSpec_publishEntries
    (env : Surroundings)
    (qos : UInt8)
    (first : Nat)
    {entries : List Entry}
    {s : BMSSchema libs}
    (hZero :
      ∀ e ∈ entries,
        e.ValidAt libs s.spec (fromUnixMilli 0)) :
    PassSpec s.spec env qos first entries
      (publishEntries env qos first entries s) := by
  induction entries generalizing first s with
  | nil =>
      exact
        { valid := by simp [publishEntries]
          inOrder := by simp [publishEntries]
          complete := fun _ => rfl
          explained := by
            intro failure hFailure
            cases hFailure }
  | cons entry entries ih =>
      have hHead := hZero entry List.mem_cons_self
      have hTail :
          ∀ e ∈ entries,
            e.ValidAt libs s.spec (fromUnixMilli 0) :=
        fun e hMem => hZero e (List.mem_cons_of_mem _ hMem)
      cases publishEntries_cons_cases env qos first entry
          entries s with
      | waiting err hWait hResult hGiven =>
          exact
            { valid := by simp [hGiven]
              inOrder := by simp [hGiven]
              complete := by simp [hResult]
              explained := by
                intro failure hFailure
                rw [hResult] at hFailure
                cases hFailure
                exact Explains.waiting (j := 0) rfl hWait }
      | rendering err hInvalid hResult hGiven =>
          exact
            { valid := by simp [hGiven]
              inOrder := by simp [hGiven]
              complete := by simp [hResult]
              explained := by
                intro failure hFailure
                rw [hResult] at hFailure
                cases hFailure
                have hPlaceholder :
                    Go.contains entry.payloadTemplate
                        timestampPlaceholder = true := by
                  apply Bool.of_not_eq_false
                  intro hNone
                  exact hInvalid
                    (validAt_of_not_contains hHead hNone _)
                exact Explains.rendering (j := 0) rfl
                  hPlaceholder hInvalid }
      | publishing err hValid hPublish hResult hGiven =>
          exact
            { valid := by
                intro message hMem
                rw [hGiven, List.mem_singleton] at hMem
                rw [hMem]
                exact hValid
              inOrder := by
                rw [hGiven]
                exact List.prefix_append _ _
              complete := by simp [hResult]
              explained := by
                intro failure hFailure
                rw [hResult] at hFailure
                cases hFailure
                exact Explains.publishing (j := 0) rfl
                  hPublish }
      | published next hValid hSpec hResult hGiven =>
          rw [← hSpec] at hTail
          have hRest := ih (first + 1) hTail
          rw [hSpec] at hRest
          exact
            { valid := by
                intro message hMem
                rw [hGiven, List.mem_cons] at hMem
                rcases hMem with rfl | hMem
                · exact hValid
                · exact hRest.valid message hMem
              inOrder := by
                rw [hGiven]
                exact List.cons_prefix_cons.mpr
                  ⟨rfl, hRest.inOrder⟩
              complete := by
                intro hOk
                rw [hResult] at hOk
                rw [hGiven, hRest.complete hOk]
                rfl
              explained := by
                intro failure hFailure
                rw [hResult] at hFailure
                exact (hRest.explained hFailure).cons }

end DummyBms

------------------------------------------------------------
-- Scenarios That Were Read
------------------------------------------------------------

namespace DummyBms

variable {Schema : Type} {libs : Libraries Schema}

/- Every entry renders, at every instant since 1970. -/
def RendersAlways
    (s : BMSSchema libs)
    (scenario : Scenario) : Prop :=
  ∀ e ∈ scenario.entries, ∀ ms : Nat, ∀ orders,
    ∃ payload,
      (e.renderPayload orders (fromUnixMilli ms) s).1 =
        .ok payload

/-
  What is known of a scenario that was read: an entry renders
  exactly when its message of that instant is valid, always
  so without the placeholder, and a pass publishes nothing
  that is not valid.
-/
structure ReplaySpec
    (document : Go.Map Go.Any)
    (s : BMSSchema libs)
    (scenario : Scenario) : Prop where
  renders :
    ∀ e ∈ scenario.entries, ∀ now orders payload,
      (e.renderPayload orders now s).1 = .ok payload ↔
        payload = e.rendering now ∧
          e.ValidAt libs document now
  constant :
    ∀ e ∈ scenario.entries,
      Go.contains e.payloadTemplate timestampPlaceholder =
          false →
        ∀ now orders,
          (e.renderPayload orders now s).1 =
            .ok (Go.bytes e.payloadTemplate)
  publishes :
    ∀ env qos,
      PassSpec document env qos 0 scenario.entries
        (publishOnce env (some scenario) true qos s)

/-
  For any validator, any rows it accepts as a scenario and
  anything that it validates afterwards.
-/
theorem replaySpec_of_readScenario
    {durations : Durations}
    {orders : Nat → Orders}
    {reads : List CSVRead}
    {s : BMSSchema libs}
    {scenario : Scenario}
    (hRead :
      (readScenario durations orders reads s).1 =
        .ok scenario)
    (history : List Validation) :
    ReplaySpec s.spec
      ((readScenario durations orders reads s).2.after
        history)
      scenario := by
  have hZero := validAt_zero_of_readScenario hRead
  have hSpec :
      ((readScenario durations orders reads s).2.after
          history).spec = s.spec := by
    rw [BMSSchema.after_spec, readScenario_spec]
  exact
    { renders := by
        intro e hMem now order payload
        rw [Entry.renderPayload_ok_iff, hSpec]
      constant := by
        intro e hMem hNone now order
        rw [Entry.renderPayload_ok_iff, hSpec]
        exact ⟨(Entry.rendering_of_not_contains hNone
          now).symm, validAt_of_not_contains
            (hZero e hMem) hNone now⟩
      publishes := by
        intro env qos
        rw [← hSpec] at hZero ⊢
        exact passSpec_publishEntries env qos 0 hZero }

end DummyBms

------------------------------------------------------------
-- A Scenario That Breaks
------------------------------------------------------------

namespace DummyBms

open Go (Any)

/- An object with a single text field. -/
def echoText (n : String) : String :=
  "\x7b\"n\":\"" ++ n ++ "\"\x7d"

/-
  The libraries on what is validated here: the two payloads
  are parsed, and the schema takes every value.
-/
def echoLibraries : Libraries Unit where
  unmarshalYAML := fun _ => .error "no YAML"
  unmarshalJSON := fun payload =>
    if payload = Go.bytes (echoText "0") then
      .ok (.map [("n", .string "0")])
    else if payload = Go.bytes (echoText "1") then
      .ok (.map [("n", .string "1")])
    else
      .error "unexpected text"
  addResource := fun _ _ => .ok ()
  compile := fun _ _ _ => .ok ()
  validate := fun _ _ => .ok ()

/- One channel, whose last level is a parameter. -/
def echoDocument : Go.Map Any :=
  ([⟨"channels", .map
      [("echo", .map
        [("address", .string "BMS/v1/PUB/Value/{n}"),
          ("messages", .map
            [("echo", .map
              [("$ref",
                .string "#/components/messages/Echo")])])])]⟩
    ] : List (Go.Entry Any)).toAList

/- A payload that repeats the time as the parameter. -/
def echoEntry : Entry where
  offset := 0
  topic := "BMS/v1/PUB/Value/0"
  retain := false
  payloadTemplate := echoText timestampPlaceholder

def echoReads : List CSVRead :=
  [.record 1 ["offset", "topic", "payload"],
    .record 2
      ["0s", "BMS/v1/PUB/Value/0",
        echoText timestampPlaceholder]]

def echoDurations : Durations where
  parse := fun raw =>
    if raw = "0s" then .ok 0 else .error "invalid"
  format := fun _ => "0s"

def echoSchema : BMSSchema echoLibraries :=
  newBMSSchema echoLibraries echoDocument

theorem readScenario_echo :
    (readScenario echoDurations (fun _ => listedOrders)
        echoReads echoSchema).1 =
      .ok ⟨[echoEntry]⟩ := by
  decide +kernel

theorem replaySpec_echoScenario :
    ReplaySpec echoSchema.spec
      ((readScenario echoDurations (fun _ => listedOrders)
        echoReads echoSchema).2.after [])
      ⟨[echoEntry]⟩ :=
  replaySpec_of_readScenario readScenario_echo []

/- A millisecond after 1970 the payload is another one. -/
theorem not_rendersAlways_echoScenario :
    (readScenario echoDurations (fun _ => listedOrders)
          echoReads echoSchema).1 =
        .ok ⟨[echoEntry]⟩ ∧
      ¬ RendersAlways
        (readScenario echoDurations (fun _ => listedOrders)
          echoReads echoSchema).2
        ⟨[echoEntry]⟩ := by
  refine ⟨readScenario_echo, ?_⟩
  intro hAlways
  rcases hAlways echoEntry List.mem_cons_self 1
      listedOrders with
    ⟨payload, hOk⟩
  have hErr :
      (echoEntry.renderPayload listedOrders
          (fromUnixMilli (1 : Nat))
          (readScenario echoDurations (fun _ => listedOrders)
            echoReads echoSchema).2).1.toOption = none := by
    decide +kernel
  rw [hOk] at hErr
  cases hErr

end DummyBms
