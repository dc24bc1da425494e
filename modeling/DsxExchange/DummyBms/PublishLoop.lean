import DsxExchange.DummyBms.Replay

/-
  Publishing again and again: the calls that passes make, in
  their order, and what has been published at any moment of
  a loop over passes.

  Key definitions include:
    * `DummyBms.Call`, `DummyBms.tracedOnce`
    * `DummyBms.TraceSpec`
    * `DummyBms.publishLoop`, `DummyBms.WholePasses`

  Key theorems include:
    * `DummyBms.pass_tracedOnce`
    * `DummyBms.traceSpec_tracedEntries`
    * `DummyBms.publishes_in_order`
-/

------------------------------------------------------------
-- The Calls Of A Pass
------------------------------------------------------------

namespace DummyBms

/- A call that a pass has made for an entry, as it went. -/
inductive Call where
  | waitUntil
      (i : Nat)
      (publishAt : Time)
      (result : Except String Unit)
  | publish
      (i : Nat)
      (message : Message)
      (result : Except String Unit)

namespace Call

/- What the publisher was given, and by which entry. -/
def handed? : Call → Option Message
| waitUntil _ _ _ => none
| publish _ message _ => some message

def entry? : Call → Option Nat
| waitUntil _ _ _ => none
| publish i _ _ => some i

/- A message that the publisher has taken. -/
def published? : Call → Option Message
| publish _ message (.ok ()) => some message
| _ => none

end Call

def handed (calls : List Call) : List Message :=
  calls.filterMap Call.handed?

def handedEntries (calls : List Call) : List Nat :=
  calls.filterMap Call.entry?

def published (calls : List Call) : List Message :=
  calls.filterMap Call.published?

variable (i : Nat) (message : Message)
variable (publishAt : Time) (outcome : Except String Unit)
variable (calls : List Call)

@[simp] theorem handed_nil : handed [] = [] :=
  rfl

@[simp] theorem handedEntries_nil : handedEntries [] = [] :=
  rfl

@[simp] theorem published_nil : published [] = [] :=
  rfl

@[simp] theorem handed_waitUntil :
    handed (.waitUntil i publishAt outcome :: calls) =
      handed calls :=
  rfl

@[simp] theorem handedEntries_waitUntil :
    handedEntries (.waitUntil i publishAt outcome :: calls) =
      handedEntries calls :=
  rfl

@[simp] theorem published_waitUntil :
    published (.waitUntil i publishAt outcome :: calls) =
      published calls :=
  rfl

@[simp] theorem handed_publish :
    handed (.publish i message outcome :: calls) =
      message :: handed calls :=
  rfl

@[simp] theorem handedEntries_publish :
    handedEntries (.publish i message outcome :: calls) =
      i :: handedEntries calls :=
  rfl

@[simp] theorem published_publish_ok :
    published (.publish i message (.ok ()) :: calls) =
      message :: published calls :=
  rfl

@[simp] theorem published_publish_error (err : String) :
    published (.publish i message (.error err) :: calls) =
      published calls :=
  rfl

theorem published_append (first second : List Call) :
    published (first ++ second) =
      published first ++ published second :=
  List.filterMap_append

end DummyBms

namespace DummyBms

variable {Schema : Type} {libs : Libraries Schema}

/- A pass with all its calls. -/
structure TracedPass (libs : Libraries Schema) where
  result : Except PublishError Unit
  calls : List Call
  validator : BMSSchema libs

def TracedPass.pass (traced : TracedPass libs) : Pass libs where
  result := traced.result
  given := handed traced.calls
  validator := traced.validator

def tracedEntries
    (env : Surroundings)
    (qos : UInt8) :
    Nat → List Entry → BMSSchema libs → TracedPass libs
| _, [], s => ⟨.ok (), [], s⟩
| i, entry :: entries, s =>
    let publishAt := env.startedAt + entry.offset
    match env.waitUntil i publishAt with
    | .error err =>
        ⟨.error (.waiting i err),
          [.waitUntil i publishAt (.error err)], s⟩
    | .ok () =>
        let waited := Call.waitUntil i publishAt (.ok ())
        match entry.renderPayload (env.orders i) (env.now i)
            s with
        | (.error err, s) =>
            ⟨.error (.rendering i err), [waited], s⟩
        | (.ok payload, s) =>
            let message : Message :=
              ⟨entry.topic, payload, qos, entry.retain⟩
            match env.publish i message with
            | .error err =>
                ⟨.error (.publishing i entry.topic err),
                  [waited, .publish i message (.error err)],
                  s⟩
            | .ok () =>
                let rest :=
                  tracedEntries env qos (i + 1) entries s
                { rest with
                  calls :=
                    waited :: .publish i message (.ok ()) ::
                      rest.calls }

def tracedOnce
    (env : Surroundings)
    (scenario : Option Scenario)
    (publisher : Bool)
    (qos : UInt8)
    (s : BMSSchema libs) : TracedPass libs :=
  match scenario with
  | none => ⟨.error .noScenario, [], s⟩
  | some scenario =>
      if publisher = false then
        ⟨.error .noPublisher, [], s⟩
      else
        tracedEntries env qos 0 scenario.entries s

/- The call that waits for an entry, without an error. -/
def waitedFor
    (env : Surroundings)
    (i : Nat)
    (entry : Entry) : Call :=
  .waitUntil i (env.startedAt + entry.offset) (.ok ())

/- How one entry goes, with the calls that are made. -/
inductive TracedCase
    (env : Surroundings)
    (qos : UInt8)
    (i : Nat)
    (entry : Entry)
    (entries : List Entry)
    (s : BMSSchema libs)
    (traced : TracedPass libs) : Prop where
  | waiting (err : String)
      (hWait :
        env.waitUntil i (env.startedAt + entry.offset) =
          .error err)
      (hTraced :
        traced =
          ⟨.error (.waiting i err),
            [.waitUntil i (env.startedAt + entry.offset)
              (.error err)], s⟩)
  | rendering (err : String) (next : BMSSchema libs)
      (hWait :
        env.waitUntil i (env.startedAt + entry.offset) =
          .ok ())
      (hRender :
        entry.renderPayload (env.orders i) (env.now i) s =
          (.error err, next))
      (hTraced :
        traced =
          ⟨.error (.rendering i err),
            [waitedFor env i entry], next⟩)
  | publishing (err : String) (next : BMSSchema libs)
      (hWait :
        env.waitUntil i (env.startedAt + entry.offset) =
          .ok ())
      (hRender :
        entry.renderPayload (env.orders i) (env.now i) s =
          (.ok (entry.rendering (env.now i)), next))
      (hPublish :
        env.publish i (messageAt env qos i entry) =
          .error err)
      (hTraced :
        traced =
          ⟨.error (.publishing i entry.topic err),
            [waitedFor env i entry,
              .publish i (messageAt env qos i entry)
                (.error err)], next⟩)
  | published (next : BMSSchema libs)
      (hWait :
        env.waitUntil i (env.startedAt + entry.offset) =
          .ok ())
      (hRender :
        entry.renderPayload (env.orders i) (env.now i) s =
          (.ok (entry.rendering (env.now i)), next))
      (hPublish :
        env.publish i (messageAt env qos i entry) = .ok ())
      (hTraced :
        traced =
          { tracedEntries env qos (i + 1) entries next with
            calls :=
              waitedFor env i entry ::
                .publish i (messageAt env qos i entry)
                  (.ok ()) ::
                (tracedEntries env qos (i + 1) entries
                  next).calls })

theorem tracedEntries_cons_cases
    (env : Surroundings)
    (qos : UInt8)
    (i : Nat)
    (entry : Entry)
    (entries : List Entry)
    (s : BMSSchema libs) :
    TracedCase env qos i entry entries s
      (tracedEntries env qos i (entry :: entries) s) := by
  cases hWait :
      env.waitUntil i (env.startedAt + entry.offset) with
  | error err =>
      apply TracedCase.waiting err hWait
      simp [tracedEntries, hWait]
  | ok done =>
      rcases hRender :
          entry.renderPayload (env.orders i) (env.now i) s with
        ⟨err | payload, next⟩
      · apply TracedCase.rendering err next hWait hRender
        simp [tracedEntries, hWait, hRender, waitedFor]
      · have hOk :
            (entry.renderPayload (env.orders i) (env.now i)
                s).1 = .ok payload := by
          rw [hRender]
        have hPayload := (Entry.renderPayload_ok_iff.mp hOk).1
        rw [hPayload] at hRender
        cases hPublish :
            env.publish i (messageAt env qos i entry) with
        | error err =>
            have hCall := hPublish
            unfold messageAt at hCall
            apply TracedCase.publishing err next hWait hRender
              hPublish
            simp [tracedEntries, hWait, hRender, hCall,
              waitedFor, messageAt]
        | ok done =>
            have hCall := hPublish
            unfold messageAt at hCall
            apply TracedCase.published next hWait hRender
              hPublish
            simp [tracedEntries, hWait, hRender, hCall,
              waitedFor, messageAt]

theorem pass_tracedEntries
    (env : Surroundings)
    (qos : UInt8)
    (i : Nat)
    (entries : List Entry)
    (s : BMSSchema libs) :
    (tracedEntries env qos i entries s).pass =
      publishEntries env qos i entries s := by
  induction entries generalizing i s with
  | nil => rfl
  | cons entry entries ih =>
      cases tracedEntries_cons_cases env qos i entry entries
          s with
      | waiting err hWait hTraced =>
          rw [hTraced]
          simp [publishEntries, hWait, TracedPass.pass]
      | rendering err next hWait hRender hTraced =>
          rw [hTraced]
          simp [publishEntries, hWait, hRender,
            TracedPass.pass, waitedFor]
      | publishing err next hWait hRender hPublish hTraced =>
          unfold messageAt at hPublish
          rw [hTraced]
          simp [publishEntries, hWait, hRender, hPublish,
            TracedPass.pass, waitedFor, messageAt]
      | published next hWait hRender hPublish hTraced =>
          have hRest := ih (i + 1) next
          unfold messageAt at hPublish
          rw [hTraced]
          simp [publishEntries, hWait, hRender, hPublish,
            ← hRest, TracedPass.pass, waitedFor, messageAt]

/- The calls are those of the pass without them. -/
theorem pass_tracedOnce
    (env : Surroundings)
    (scenario : Option Scenario)
    (publisher : Bool)
    (qos : UInt8)
    (s : BMSSchema libs) :
    (tracedOnce env scenario publisher qos s).pass =
      publishOnce env scenario publisher qos s := by
  unfold tracedOnce publishOnce
  cases scenario with
  | none => rfl
  | some scenario =>
      cases publisher with
      | false => rfl
      | true => exact pass_tracedEntries env qos 0 _ s

end DummyBms

------------------------------------------------------------
-- What A Pass Does
------------------------------------------------------------

namespace DummyBms

variable {Schema : Type} {libs : Libraries Schema}

/- The entry because of which a pass has failed. -/
def PublishError.entry? : PublishError → Option Nat
| .noScenario => none
| .noPublisher => none
| .waiting i _ => some i
| .rendering i _ => some i
| .publishing i _ _ => some i

/-
  The calls of a pass over entries that are numbered from the
  first one on. What is handed to the publisher are the
  entries in their order, each at most once and each after
  its own wait.
-/
structure TraceSpec
    (env : Surroundings)
    (qos : UInt8)
    (first : Nat)
    (entries : List Entry)
    (result : Except PublishError Unit)
    (calls : List Call) : Prop where
  inOrder : handed calls <+: messagesFrom env qos first entries
  taken : published calls <+: messagesFrom env qos first entries
  numbered :
    handedEntries calls =
      List.range' first (handed calls).length
  afterWait :
    ∀ before i message outcome after,
      calls = before ++ .publish i message outcome :: after →
        ∃ j entry,
          i = first + j ∧ entries[j]? = some entry ∧
            waitedFor env i entry ∈ before
  failed :
    ∀ failure i,
      result = .error failure →
        failure.entry? = some i →
          ∃ j,
            i = first + j ∧ j < entries.length ∧
              published calls =
                (messagesFrom env qos first entries).take j
  complete :
    result = .ok () →
      published calls = messagesFrom env qos first entries

/- A failure at the first entry, with nothing published. -/
theorem failed_at_first
    {env : Surroundings}
    {qos : UInt8}
    {first : Nat}
    {entry : Entry}
    {entries : List Entry}
    {failure : PublishError}
    {calls : List Call}
    (hFirst : failure.entry? = some first)
    (hNone : published calls = [])
    {i : Nat}
    (hEntry : failure.entry? = some i) :
    ∃ j,
      i = first + j ∧ j < (entry :: entries).length ∧
        published calls =
          (messagesFrom env qos first (entry :: entries)).take
            j := by
  rw [hFirst] at hEntry
  have hSame : first = i := Option.some.inj hEntry
  exact ⟨0, hSame.symm, by simp, hNone⟩

/- No call of a publisher is among calls that only wait. -/
theorem not_publish_of_wait
    {i i' : Nat}
    {publishAt : Time}
    {outcome outcome' : Except String Unit}
    {message : Message}
    {before after : List Call} :
    [.waitUntil i publishAt outcome] ≠
      before ++ .publish i' message outcome' :: after := by
  intro hCalls
  cases before with
  | nil => simp at hCalls
  | cons call before => simp at hCalls

/- Where a publish can be, after the first entry's calls. -/
theorem afterWait_cons
    {env : Surroundings}
    {first i : Nat}
    {entry : Entry}
    {message message' : Message}
    {outcome outcome' : Except String Unit}
    {calls before after : List Call}
    (hCalls :
      waitedFor env first entry ::
          .publish first message outcome :: calls =
        before ++ .publish i message' outcome' :: after) :
    (i = first ∧ waitedFor env i entry ∈ before) ∨
      ∃ later,
        calls = later ++ .publish i message' outcome' :: after ∧
          ∀ call ∈ later, call ∈ before := by
  cases before with
  | nil => simp [waitedFor] at hCalls
  | cons call before =>
      rw [List.cons_append, List.cons.injEq] at hCalls
      rcases hCalls with ⟨hCall, hRest⟩
      cases before with
      | nil =>
          rw [List.nil_append, List.cons.injEq] at hRest
          have hSame : first = i :=
            Option.some.inj (congrArg Call.entry? hRest.1)
          apply Or.inl
          rw [← hSame, ← hCall]
          exact ⟨rfl, List.mem_cons_self⟩
      | cons other before =>
          rw [List.cons_append, List.cons.injEq] at hRest
          apply Or.inr
          refine ⟨before, hRest.2, ?_⟩
          intro later hMem
          exact List.mem_cons_of_mem _
            (List.mem_cons_of_mem _ hMem)

theorem traceSpec_tracedEntries
    (env : Surroundings)
    (qos : UInt8)
    (first : Nat)
    (entries : List Entry)
    (s : BMSSchema libs) :
    TraceSpec env qos first entries
      (tracedEntries env qos first entries s).result
      (tracedEntries env qos first entries s).calls := by
  induction entries generalizing first s with
  | nil =>
      exact
        { inOrder := by simp [tracedEntries]
          taken := by simp [tracedEntries]
          numbered := by simp [tracedEntries]
          afterWait := by simp [tracedEntries]
          failed := by simp [tracedEntries]
          complete := by simp [tracedEntries, messagesFrom] }
  | cons entry entries ih =>
      cases tracedEntries_cons_cases env qos first entry
          entries s with
      | waiting err hWait hTraced =>
          rw [hTraced]
          exact
            { inOrder := by simp
              taken := by simp
              numbered := by simp
              afterWait := by
                intro before i message outcome after hCalls
                exact absurd hCalls not_publish_of_wait
              failed := by
                intro failure i hFailure hEntry
                have hSame := Except.error.inj hFailure
                rw [← hSame] at hEntry
                exact failed_at_first rfl (by simp) hEntry
              complete := by simp }
      | rendering err next hWait hRender hTraced =>
          rw [hTraced]
          exact
            { inOrder := by simp [waitedFor]
              taken := by simp [waitedFor]
              numbered := by simp [waitedFor]
              afterWait := by
                intro before i message outcome after hCalls
                exact absurd hCalls not_publish_of_wait
              failed := by
                intro failure i hFailure hEntry
                have hSame := Except.error.inj hFailure
                rw [← hSame] at hEntry
                exact failed_at_first rfl
                  (by simp [waitedFor]) hEntry
              complete := by simp }
      | publishing err next hWait hRender hPublish hTraced =>
          rw [hTraced]
          exact
            { inOrder := by simp [waitedFor, messagesFrom]
              taken := by simp [waitedFor]
              numbered := by simp [waitedFor]
              afterWait := by
                intro before i message outcome after hCalls
                rcases afterWait_cons hCalls with
                  ⟨hFirst, hWaited⟩ | ⟨later, hLater, _⟩
                · exact ⟨0, entry, hFirst, rfl, hWaited⟩
                · simp at hLater
              failed := by
                intro failure i hFailure hEntry
                have hSame := Except.error.inj hFailure
                rw [← hSame] at hEntry
                exact failed_at_first rfl
                  (by simp [waitedFor]) hEntry
              complete := by simp }
      | published next hWait hRender hPublish hTraced =>
          have hRest := ih (first + 1) next
          rw [hTraced]
          exact
            { inOrder := by
                simp only [waitedFor, handed_waitUntil,
                  handed_publish, messagesFrom]
                exact List.cons_prefix_cons.mpr
                  ⟨rfl, hRest.inOrder⟩
              taken := by
                simp only [waitedFor, published_waitUntil,
                  published_publish_ok, messagesFrom]
                exact List.cons_prefix_cons.mpr
                  ⟨rfl, hRest.taken⟩
              numbered := by
                simp only [waitedFor, handedEntries_waitUntil,
                  handedEntries_publish, handed_waitUntil,
                  handed_publish, List.length_cons,
                  List.range'_succ]
                rw [hRest.numbered]
              afterWait := by
                intro before i message outcome after hCalls
                rcases afterWait_cons hCalls with
                  ⟨hFirst, hWaited⟩ | ⟨later, hLater, hSub⟩
                · exact ⟨0, entry, hFirst, rfl, hWaited⟩
                · rcases hRest.afterWait later i message
                      outcome after hLater with
                    ⟨j, other, hIndex, hOther, hWaited⟩
                  refine ⟨j + 1, other, by omega, hOther, ?_⟩
                  exact hSub _ hWaited
              failed := by
                intro failure i hFailure hEntry
                rcases hRest.failed failure i hFailure hEntry
                  with ⟨j, hIndex, hLess, hPublished⟩
                refine ⟨j + 1, by omega, by simpa using hLess,
                  ?_⟩
                simp only [waitedFor, published_waitUntil,
                  published_publish_ok, messagesFrom,
                  List.take_succ_cons]
                rw [hPublished]
              complete := by
                intro hOk
                simp only [waitedFor, published_waitUntil,
                  published_publish_ok, messagesFrom]
                rw [hRest.complete hOk] }

/- The entries of a scenario, none when it is nil. -/
def entriesOf (scenario : Option Scenario) : List Entry :=
  match scenario with
  | none => []
  | some scenario => scenario.entries

/- A pass that is refused makes no call. -/
theorem traceSpec_refused
    {env : Surroundings}
    {qos : UInt8}
    {entries : List Entry}
    {failure : PublishError}
    (hNone : failure.entry? = none) :
    TraceSpec env qos 0 entries (.error failure) [] :=
  { inOrder := by simp
    taken := by simp
    numbered := by simp
    afterWait := by simp
    failed := by
      intro other i hFailure hEntry
      rw [← Except.error.inj hFailure, hNone] at hEntry
      cases hEntry
    complete := by simp }

theorem traceSpec_tracedOnce
    (env : Surroundings)
    (scenario : Option Scenario)
    (publisher : Bool)
    (qos : UInt8)
    (s : BMSSchema libs) :
    TraceSpec env qos 0 (entriesOf scenario)
      (tracedOnce env scenario publisher qos s).result
      (tracedOnce env scenario publisher qos s).calls := by
  cases scenario with
  | none => exact traceSpec_refused rfl
  | some scenario =>
      cases publisher with
      | false => exact traceSpec_refused rfl
      | true => exact traceSpec_tracedEntries env qos 0 _ s

end DummyBms

------------------------------------------------------------
-- The Loop
------------------------------------------------------------

namespace DummyBms

variable {Schema : Type} {libs : Libraries Schema}

/- Why a loop has returned. -/
inductive LoopError where
  | pass (failure : PublishError)
  | cancelled (err : String)

/-
  A loop that has returned, or is still going after a number
  of passes, with the calls of each pass.
-/
structure LoopRun where
  result : Option LoopError
  passes : List (List Call)

/-
  At most the given number of passes, from the pass with the
  given number on. After each the loop looks whether the
  context is cancelled.
-/
def publishLoop
    (envs : Nat → Surroundings)
    (cancelled : Nat → Option String)
    (scenario : Option Scenario)
    (publisher : Bool)
    (qos : UInt8) :
    Nat → Nat → BMSSchema libs → LoopRun
| 0, _, _ => ⟨none, []⟩
| more + 1, k, s =>
    let traced := tracedOnce (envs k) scenario publisher qos s
    match traced.result with
    | .error failure => ⟨some (.pass failure), [traced.calls]⟩
    | .ok () =>
        match cancelled k with
        | some err => ⟨some (.cancelled err), [traced.calls]⟩
        | none =>
            let rest :=
              publishLoop envs cancelled scenario publisher
                qos more (k + 1) traced.validator
            { rest with passes := traced.calls :: rest.passes }

/- The messages of whole passes, from one pass on. -/
def passesFrom
    (envs : Nat → Surroundings)
    (qos : UInt8)
    (entries : List Entry) : Nat → Nat → List Message
| _, 0 => []
| k, n + 1 =>
    messagesFrom (envs k) qos 0 entries ++
      passesFrom envs qos entries (k + 1) n

/- Whole passes, and then the beginning of one or nothing. -/
def WholePasses
    (envs : Nat → Surroundings)
    (qos : UInt8)
    (entries : List Entry)
    (k : Nat)
    (messages : List Message) : Prop :=
  ∃ n last,
    messages = passesFrom envs qos entries k n ++ last ∧
      (last = [] ∨
        (last <+: messagesFrom (envs (k + n)) qos 0 entries ∧
          last.length < entries.length))

variable {envs : Nat → Surroundings}
variable {qos : UInt8}
variable {entries : List Entry}
variable {k : Nat}

theorem length_messagesFrom
    (env : Surroundings)
    (qos : UInt8)
    (i : Nat)
    (entries : List Entry) :
    (messagesFrom env qos i entries).length =
      entries.length := by
  induction entries generalizing i with
  | nil => rfl
  | cons entry entries ih => simp [messagesFrom, ih]

/- A part of one pass is a whole one or the beginning. -/
theorem wholePasses_of_prefix
    {messages : List Message}
    (hPrefix :
      messages <+: messagesFrom (envs k) qos 0 entries) :
    WholePasses envs qos entries k messages := by
  have hLength := length_messagesFrom (envs k) qos 0 entries
  by_cases hLess : messages.length < entries.length
  · exact ⟨0, messages, rfl, Or.inr ⟨hPrefix, hLess⟩⟩
  · have hWhole :
        messages = messagesFrom (envs k) qos 0 entries :=
      hPrefix.eq_of_length_le (by omega)
    refine ⟨1, [], ?_, Or.inl rfl⟩
    simp [passesFrom, hWhole]

theorem WholePasses.cons
    {messages : List Message}
    (hRest : WholePasses envs qos entries (k + 1) messages) :
    WholePasses envs qos entries k
      (messagesFrom (envs k) qos 0 entries ++ messages) := by
  rcases hRest with ⟨n, last, hMessages, hLast⟩
  refine ⟨n + 1, last, ?_, ?_⟩
  · rw [hMessages, passesFrom, List.append_assoc]
  · have hIndex : k + 1 + n = k + (n + 1) := by
      omega
    rw [hIndex] at hLast
    exact hLast

/- What has been published at any moment of a loop. -/
theorem wholePasses_publishLoop
    (envs : Nat → Surroundings)
    (cancelled : Nat → Option String)
    (scenario : Option Scenario)
    (publisher : Bool)
    (qos : UInt8)
    (more k : Nat)
    (s : BMSSchema libs)
    {seen : List Call}
    (hSeen :
      seen <+:
        (publishLoop envs cancelled scenario publisher qos more
          k s).passes.flatten) :
    WholePasses envs qos (entriesOf scenario) k
      (published seen) := by
  induction more generalizing k s seen with
  | zero =>
      have hNone : seen = [] := by
        simpa [publishLoop] using hSeen
      rw [hNone]
      exact ⟨0, [], rfl, Or.inl rfl⟩
  | succ more ih =>
      have hSpec :=
        traceSpec_tracedOnce (envs k) scenario publisher qos s
      have hPart :
          ∀ {part : List Call},
            part <+: (tracedOnce (envs k) scenario publisher
              qos s).calls →
              WholePasses envs qos (entriesOf scenario) k
                (published part) := by
        intro part hPrefix
        exact wholePasses_of_prefix
          ((hPrefix.filterMap _).trans hSpec.taken)
      unfold publishLoop at hSeen
      cases hResult :
          (tracedOnce (envs k) scenario publisher qos
            s).result with
      | error failure =>
          simp only [hResult, List.flatten_singleton] at hSeen
          exact hPart hSeen
      | ok done =>
          cases hCancelled : cancelled k with
          | some err =>
              simp only [hResult, hCancelled,
                List.flatten_singleton] at hSeen
              exact hPart hSeen
          | none =>
              simp only [hResult, hCancelled,
                List.flatten_cons] at hSeen
              rcases List.prefix_or_prefix_of_prefix hSeen
                  (List.prefix_append _ _) with
                hFirst | hWhole
              · exact hPart hFirst
              · rcases hWhole with ⟨later, hSplit⟩
                rw [← hSplit, List.prefix_append_right_inj]
                  at hSeen
                rw [← hSplit, published_append,
                  hSpec.complete hResult]
                exact (ih (k + 1) _ hSeen).cons

/-
  A pass hands the entries to the publisher in their order,
  each at most once and after its wait, and fails at an entry
  with exactly those before it published; at any moment of a
  loop whole passes have been published, and the beginning of
  one more.
-/
theorem publishes_in_order
    (libs : Libraries Schema)
    (scenario : Option Scenario)
    (publisher : Bool)
    (qos : UInt8) :
    (∀ (env : Surroundings) (s : BMSSchema libs),
      TraceSpec env qos 0 (entriesOf scenario)
        (tracedOnce env scenario publisher qos s).result
        (tracedOnce env scenario publisher qos s).calls) ∧
      ∀ (envs : Nat → Surroundings)
        (cancelled : Nat → Option String)
        (more : Nat) (s : BMSSchema libs) (seen : List Call),
        seen <+:
            (publishLoop envs cancelled scenario publisher qos
              more 0 s).passes.flatten →
          WholePasses envs qos (entriesOf scenario) 0
            (published seen) := by
  constructor
  · intro env s
    exact traceSpec_tracedOnce env scenario publisher qos s
  · intro envs cancelled more s seen hSeen
    exact wholePasses_publishLoop envs cancelled scenario
      publisher qos more 0 s hSeen

end DummyBms
