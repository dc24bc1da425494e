import DsxExchange.DummyBms.Acceptance

/-
  Reading a scenario: every row becomes an entry, whose
  payload is rendered and validated once, at time zero.

  The rows are those of the CSV reader, and the functions on
  durations are given.

  Key definitions include:
    * `DummyBms.readScenario`
    * `DummyBms.Entry.renderPayload`
    * `DummyBms.Entry.ValidAt`
    * `DummyBms.ScenarioTopic`, `DummyBms.RecordOf`,
      `DummyBms.RowOf`

  Key theorems include:
    * `DummyBms.Entry.renderPayload_ok_iff`
    * `DummyBms.validAt_zero_of_readScenario`
    * `DummyBms.readScenario_strict`
-/

------------------------------------------------------------
-- Entries
------------------------------------------------------------

namespace DummyBms

def timestampPlaceholder : String :=
  "\x7b\x7btimestamp_ms\x7d\x7d"

/- An instant, in nanoseconds of Unix time. -/
abbrev Time := Int

/- `time.UnixMilli`. -/
def fromUnixMilli (ms : Int) : Time :=
  ms * 1000000

/- The `UnixMilli` of an instant. -/
def unixMilli (t : Time) : Int :=
  t / 1000000

/-
  A row of a scenario. All entries of a scenario share one
  validator, which is handed to them when they render.
-/
structure Entry where
  offset : Int
  topic : String
  retain : Bool
  payloadTemplate : String
deriving DecidableEq

structure Scenario where
  entries : List Entry
deriving DecidableEq

/- The payload of an entry at an instant. -/
def Entry.rendering (e : Entry) (now : Time) : List UInt8 :=
  Go.bytes
    (Go.replaceAll e.payloadTemplate timestampPlaceholder
      (toString (unixMilli now)))

variable {Schema : Type} {libs : Libraries Schema}

def Entry.renderPayload
    (e : Entry)
    (orders : Orders)
    (now : Time)
    (s : BMSSchema libs) :
    Except String (List UInt8) × BMSSchema libs :=
  match s.validateMessage orders e.topic
      (e.rendering now) with
  | (.error err, s) => (.error err, s)
  | (.ok (), s) => (.ok (e.rendering now), s)

/- The entry's message of an instant is a valid one. -/
def Entry.ValidAt
    (libs : Libraries Schema)
    (document : Go.Map Go.Any)
    (e : Entry)
    (now : Time) : Prop :=
  Accepts libs document e.topic (e.rendering now)

namespace Entry

@[simp] theorem renderPayload_spec
    (e : Entry)
    (orders : Orders)
    (now : Time)
    (s : BMSSchema libs) :
    (e.renderPayload orders now s).2.spec = s.spec := by
  have hSpec :=
    s.validateMessage_spec orders e.topic (e.rendering now)
  unfold renderPayload
  split <;> simp_all

/- Rendering gives the valid message of the instant. -/
theorem renderPayload_ok_iff
    {e : Entry}
    {orders : Orders}
    {now : Time}
    {s : BMSSchema libs}
    {payload : List UInt8} :
    (e.renderPayload orders now s).1 = .ok payload ↔
      payload = e.rendering now ∧
        e.ValidAt libs s.spec now := by
  have hVerdict :=
    @BMSSchema.validateMessage_ok_iff _ _ s orders e.topic
      (e.rendering now)
  unfold renderPayload ValidAt
  rw [← hVerdict]
  rcases s.validateMessage orders e.topic
      (e.rendering now) with
    ⟨err | done, next⟩
  · simp
  · simp [eq_comm]

theorem renderPayload_error
    {e : Entry}
    {orders : Orders}
    {now : Time}
    {s : BMSSchema libs}
    {err : String}
    (hErr : (e.renderPayload orders now s).1 = .error err) :
    ¬ e.ValidAt libs s.spec now := by
  intro hValid
  have hOk :
      (e.renderPayload orders now s).1 =
        .ok (e.rendering now) :=
    renderPayload_ok_iff.mpr ⟨rfl, hValid⟩
  rw [hErr] at hOk
  cases hOk

/- Without the placeholder all renderings are the same. -/
theorem rendering_of_not_contains
    {e : Entry}
    (hNone :
      Go.contains e.payloadTemplate timestampPlaceholder =
        false)
    (now : Time) :
    e.rendering now = Go.bytes e.payloadTemplate := by
  rw [rendering, Go.replaceAll_of_not_contains hNone]

end Entry

end DummyBms

------------------------------------------------------------
-- Reading
------------------------------------------------------------

namespace DummyBms

/- What the CSV reader finds next, before its end. -/
inductive CSVRead where
  | record (line : Nat) (fields : List String)
  | failed (err : String)

/- `Read` of a reader with the given `FieldsPerRecord`. -/
def csvRead
    (fieldsPerRecord : Int) :
    CSVRead → Except String (List String)
| .failed err => .error err
| .record line fields =>
    if 0 < fieldsPerRecord ∧
        (fields.length : Int) ≠ fieldsPerRecord then
      .error ("record on line " ++ toString line ++
        ": wrong number of fields")
    else
      .ok fields

/- `time.ParseDuration` and `Duration.String`. -/
structure Durations where
  parse : String → Except String Int
  format : Int → String

def validateScenarioHeader
    (header : List String) : Except String Unit :=
  if header.length ≠ 3 ∨ header[0]? ≠ some "offset" ∨
      header[1]? ≠ some "topic" ∨
        header[2]? ≠ some "payload" then
    .error "header must be exactly offset,topic,payload"
  else
    .ok ()

def parseOffset
    (durations : Durations)
    (raw : String) : Except String Int :=
  if raw = "" then
    .error "offset is required"
  else
    match durations.parse raw with
    | .error _ =>
        .error ("invalid offset " ++ Go.quote raw ++
          ": use a Go duration like 500ms or 1s")
    | .ok duration =>
        if duration < 0 then
          .error "offset must be non-negative"
        else
          .ok duration

/- The check of one segment of a topic. -/
def checkSegment
    (raw segment : String) : Except String Unit :=
  if segment = "" then
    .error ("topic " ++ Go.quote raw ++
      " contains an empty segment")
  else if containsMQTTWildcard segment then
    .error ("topic " ++ Go.quote raw ++
      " contains MQTT wildcard characters")
  else
    .ok ()

def parseTopicType (raw : String) : Except String String :=
  if raw = "" then
    .error "topic is required"
  else
    match Go.split raw '/' with
    | root :: version :: publisher :: topicType :: rest =>
        match Go.rangeCheck (checkSegment raw)
            (root :: version :: publisher :: topicType ::
              rest) with
        | .error err => .error err
        | .ok () =>
            if root ≠ "BMS" ∨ version ≠ "v1" then
              .error ("topic " ++ Go.quote raw ++
                " must start with BMS/v1")
            else if topicType ≠ "Value" ∧
                topicType ≠ "Metadata" then
              .error ("topic " ++ Go.quote raw ++
                " must use Value or Metadata topic type")
            else if topicType = "Metadata" ∧
                publisher ≠ "PUB" then
              .error ("metadata topic " ++ Go.quote raw ++
                " must use PUB publisher")
            else
              .ok topicType
    | _ =>
        .error ("topic " ++ Go.quote raw ++
          " does not match BMS/v1/\x7bpublisher\x7d/" ++
          "\x7bValue|Metadata\x7d/...")

/- The reader has checked that there are three fields. -/
def entryFromRecord
    (durations : Durations)
    (record : List String) : Except String Entry :=
  match parseOffset durations (record.getD 0 "") with
  | .error err => .error err
  | .ok offset =>
      match parseTopicType (record.getD 1 "") with
      | .error err => .error err
      | .ok topicType =>
          let payloadTemplate := record.getD 2 ""
          if payloadTemplate = "" then
            .error "payload is required"
          else
            .ok
              { offset := offset
                topic := record.getD 1 ""
                retain := topicType = "Metadata"
                payloadTemplate := payloadTemplate }

variable {Schema : Type} {libs : Libraries Schema}

/-
  The loop over the rows after the header. The orders are
  those of the validation of each row.
-/
def readRows
    (durations : Durations)
    (orders : Nat → Orders)
    (fieldsPerRecord : Int) :
    Nat → List Entry → Int → List CSVRead →
      BMSSchema libs →
        Except String (List Entry) × BMSSchema libs
| _, entries, _, [], s => (.ok entries, s)
| rowNumber, entries, previousOffset, row :: rows, s =>
    let failed := fun err =>
      "row " ++ toString rowNumber ++ ": " ++ err
    match csvRead fieldsPerRecord row with
    | .error err =>
        (.error (failed ("failed to read record: " ++ err)), s)
    | .ok record =>
        match entryFromRecord durations record with
        | .error err => (.error (failed err), s)
        | .ok entry =>
            if entries ≠ [] ∧
                entry.offset < previousOffset then
              (.error (failed ("offset " ++
                durations.format entry.offset ++
                " is before previous offset " ++
                durations.format previousOffset)), s)
            else
              match entry.renderPayload (orders rowNumber)
                  (fromUnixMilli 0) s with
              | (.error err, s) => (.error (failed err), s)
              | (.ok _, s) =>
                  readRows durations orders fieldsPerRecord
                    (rowNumber + 1) (entries ++ [entry])
                    entry.offset rows s

def readScenario
    (durations : Durations)
    (orders : Nat → Orders)
    (reads : List CSVRead)
    (s : BMSSchema libs) :
    Except String Scenario × BMSSchema libs :=
  match reads with
  | [] => (.error "scenario CSV is empty", s)
  | first :: rows =>
      match csvRead (-1) first with
      | .error err =>
          (.error ("failed to read header: " ++ err), s)
      | .ok header =>
          match validateScenarioHeader header with
          | .error err => (.error err, s)
          | .ok () =>
              match readRows durations orders header.length 2
                  [] 0 rows s with
              | (.error err, s) => (.error err, s)
              | (.ok entries, s) =>
                  if entries = [] then
                    (.error "scenario CSV has no data rows",
                      s)
                  else
                    (.ok ⟨entries⟩, s)

end DummyBms

------------------------------------------------------------
-- What Reading Checks
------------------------------------------------------------

namespace DummyBms

variable {Schema : Type} {libs : Libraries Schema}
variable {durations : Durations} {orders : Nat → Orders}

/- A row ends the loop, or adds an entry valid at time zero. -/
theorem readRows_cons_cases
    (fieldsPerRecord : Int)
    (rowNumber : Nat)
    (entries : List Entry)
    (previousOffset : Int)
    (row : CSVRead)
    (rows : List CSVRead)
    (s : BMSSchema libs) :
    (∃ err next,
      readRows durations orders fieldsPerRecord rowNumber
          entries previousOffset (row :: rows) s =
        (.error err, next) ∧
          next.spec = s.spec) ∨
      ∃ entry next,
        readRows durations orders fieldsPerRecord rowNumber
            entries previousOffset (row :: rows) s =
          readRows durations orders fieldsPerRecord
            (rowNumber + 1) (entries ++ [entry])
            entry.offset rows next ∧
          next.spec = s.spec ∧
            entry.ValidAt libs s.spec (fromUnixMilli 0) := by
  simp only [readRows]
  cases csvRead fieldsPerRecord row with
  | error err => exact Or.inl ⟨_, s, rfl, rfl⟩
  | ok record =>
      dsimp only
      cases entryFromRecord durations record with
      | error err => exact Or.inl ⟨_, s, rfl, rfl⟩
      | ok entry =>
          dsimp only
          split
          · exact Or.inl ⟨_, s, rfl, rfl⟩
          · have hSpec :=
              entry.renderPayload_spec (orders rowNumber)
                (fromUnixMilli 0) s
            cases hRender :
                entry.renderPayload (orders rowNumber)
                  (fromUnixMilli 0) s with
            | mk result next =>
                rw [hRender] at hSpec
                cases result with
                | error err =>
                    exact Or.inl ⟨_, next, rfl, hSpec⟩
                | ok payload =>
                    refine Or.inr
                      ⟨entry, next, rfl, hSpec, ?_⟩
                    have hOk :
                        (entry.renderPayload
                            (orders rowNumber)
                            (fromUnixMilli 0) s).1 =
                          .ok payload := by
                      rw [hRender]
                    exact
                      (Entry.renderPayload_ok_iff.mp hOk).2

theorem readRows_spec
    {fieldsPerRecord : Int}
    {rowNumber : Nat}
    {entries : List Entry}
    {previousOffset : Int}
    {rows : List CSVRead}
    {s : BMSSchema libs} :
    (readRows durations orders fieldsPerRecord rowNumber
        entries previousOffset rows s).2.spec = s.spec := by
  induction rows generalizing
      rowNumber entries previousOffset s with
  | nil => rfl
  | cons row rows ih =>
      rcases @readRows_cons_cases _ _ durations orders
          fieldsPerRecord rowNumber entries previousOffset
          row rows s with
        ⟨err, next, hRun, hSpec⟩ |
          ⟨entry, next, hRun, hSpec, _⟩
      · rw [hRun, hSpec]
      · rw [hRun, ih, hSpec]

/- All entries that are read are valid at time zero. -/
theorem validAt_zero_of_readRows
    {fieldsPerRecord : Int}
    {rowNumber : Nat}
    {entries result : List Entry}
    {previousOffset : Int}
    {rows : List CSVRead}
    {s : BMSSchema libs}
    (hEntries :
      ∀ e ∈ entries, e.ValidAt libs s.spec (fromUnixMilli 0))
    (hRun :
      (readRows durations orders fieldsPerRecord rowNumber
          entries previousOffset rows s).1 = .ok result) :
    ∀ e ∈ result,
      e.ValidAt libs s.spec (fromUnixMilli 0) := by
  induction rows generalizing
      rowNumber entries previousOffset s with
  | nil =>
      have hSame : entries = result := by
        simpa [readRows] using hRun
      rwa [← hSame]
  | cons row rows ih =>
      rcases @readRows_cons_cases _ _ durations orders
          fieldsPerRecord rowNumber entries previousOffset
          row rows s with
        ⟨err, next, hStep, _⟩ |
          ⟨entry, next, hStep, hSpec, hValid⟩
      · rw [hStep] at hRun
        cases hRun
      · rw [hStep] at hRun
        rw [← hSpec] at hEntries hValid ⊢
        apply ih _ hRun
        intro e hMem
        rcases List.mem_append.mp hMem with hOld | hNew
        · exact hEntries e hOld
        · rw [List.mem_singleton.mp hNew]
          exact hValid

@[simp] theorem readScenario_spec
    (reads : List CSVRead)
    (s : BMSSchema libs) :
    (readScenario durations orders reads s).2.spec =
      s.spec := by
  cases reads with
  | nil => rfl
  | cons first rows =>
      simp only [readScenario]
      cases csvRead (-1) first with
      | error err => rfl
      | ok header =>
          dsimp only
          cases validateScenarioHeader header with
          | error err => rfl
          | ok done =>
              have hSpec :=
                @readRows_spec _ _ durations orders
                  header.length 2 [] 0 rows s
              dsimp only
              rcases hRun :
                  readRows durations orders header.length 2
                    [] 0 rows s with
                ⟨err | entries, next⟩
              · rw [hRun] at hSpec
                exact hSpec
              · rw [hRun] at hSpec
                dsimp only
                split <;> exact hSpec

/- The entries of a scenario are all valid at time zero. -/
theorem validAt_zero_of_readScenario
    {reads : List CSVRead}
    {s : BMSSchema libs}
    {scenario : Scenario}
    (hRead :
      (readScenario durations orders reads s).1 =
        .ok scenario) :
    ∀ e ∈ scenario.entries,
      e.ValidAt libs s.spec (fromUnixMilli 0) := by
  cases reads with
  | nil => cases hRead
  | cons first rows =>
      simp only [readScenario] at hRead
      cases hHeader : csvRead (-1) first with
      | error err => simp [hHeader] at hRead
      | ok header =>
          rw [hHeader] at hRead
          dsimp only at hRead
          cases hValid : validateScenarioHeader header with
          | error err => simp [hValid] at hRead
          | ok done =>
              rw [hValid] at hRead
              dsimp only at hRead
              rcases hRun :
                  readRows durations orders header.length 2
                    [] 0 rows s with
                ⟨err | entries, next⟩
              · simp [hRun] at hRead
              · rw [hRun] at hRead
                dsimp only at hRead
                split at hRead
                · cases hRead
                · have hSame : ⟨entries⟩ = scenario :=
                    Except.ok.inj hRead
                  have hNone :
                      ∀ e ∈ ([] : List Entry),
                        e.ValidAt libs s.spec
                          (fromUnixMilli 0) := by
                    intro e hMem
                    cases hMem
                  have hOk :
                      (readRows durations orders
                          header.length 2 [] 0 rows s).1 =
                        .ok entries := by
                    rw [hRun]
                  rw [← hSame]
                  exact validAt_zero_of_readRows hNone hOk

end DummyBms

------------------------------------------------------------
-- What Is Accepted
------------------------------------------------------------

namespace DummyBms

/-
  A topic that a scenario may publish on: it starts with
  BMS/v1, has its type as the fourth segment, and no segment
  is empty or holds a wildcard.
-/
structure ScenarioTopic (topic topicType : String) : Prop where
  segments :
    ∃ publisher rest,
      Go.split topic '/' =
          "BMS" :: "v1" :: publisher :: topicType :: rest ∧
        (topicType = "Metadata" → publisher = "PUB")
  concrete :
    ∀ segment ∈ Go.split topic '/', ConcreteLevel segment
  type : topicType = "Value" ∨ topicType = "Metadata"

/- A record of three fields, and the entry it stands for. -/
structure RecordOf
    (durations : Durations)
    (record : List String)
    (entry : Entry) : Prop where
  fields :
    ∃ raw,
      record = [raw, entry.topic, entry.payloadTemplate] ∧
        raw ≠ "" ∧ durations.parse raw = .ok entry.offset
  offset : 0 ≤ entry.offset
  topic :
    ∃ topicType,
      ScenarioTopic entry.topic topicType ∧
        (entry.retain = true ↔ topicType = "Metadata")
  payload : entry.payloadTemplate ≠ ""

variable {Schema : Type}

/- A row that is read as an entry, valid at time zero. -/
structure RowOf
    (libs : Libraries Schema)
    (document : Go.Map Go.Any)
    (durations : Durations)
    (row : CSVRead)
    (entry : Entry) : Prop where
  record :
    ∃ line fields,
      row = .record line fields ∧
        RecordOf durations fields entry
  valid : entry.ValidAt libs document (fromUnixMilli 0)

variable {durations : Durations}

theorem checkSegment_ok_iff
    {raw segment : String} :
    checkSegment raw segment = .ok () ↔
      ConcreteLevel segment := by
  rw [concreteLevel_iff]
  unfold checkSegment
  by_cases hEmpty : segment = ""
  · simp [hEmpty]
  · cases hWild : containsMQTTWildcard segment with
    | true => simp [hEmpty]
    | false => simp [hEmpty]

/- The form of a topic whose segments are known. -/
theorem scenarioTopic_iff
    {raw root version publisher found topicType : String}
    {rest : List String}
    (hSplit :
      Go.split raw '/' =
        root :: version :: publisher :: found :: rest)
    (hConcrete :
      ∀ segment ∈ Go.split raw '/', ConcreteLevel segment) :
    ScenarioTopic raw topicType ↔
      root = "BMS" ∧ version = "v1" ∧ found = topicType ∧
        (found = "Value" ∨ found = "Metadata") ∧
        (found = "Metadata" → publisher = "PUB") := by
  constructor
  · intro hTopic
    rcases hTopic.segments with
      ⟨other, others, hForm, hPub⟩
    rw [hSplit] at hForm
    simp only [List.cons.injEq] at hForm
    rcases hForm with ⟨hRoot, hVersion, hOther, hFound, _⟩
    rw [hOther, hFound]
    exact ⟨hRoot, hVersion, rfl, hTopic.type, hPub⟩
  · intro hAll
    rcases hAll with ⟨hRoot, hVersion, hFound, hType, hPub⟩
    rw [hRoot, hVersion, hFound] at hSplit
    rw [hFound] at hType hPub
    exact
      { segments := ⟨publisher, rest, hSplit, hPub⟩
        concrete := hConcrete
        type := hType }

theorem parseTopicType_ok_iff
    {raw topicType : String} :
    parseTopicType raw = .ok topicType ↔
      ScenarioTopic raw topicType := by
  unfold parseTopicType
  by_cases hEmpty : raw = ""
  · rw [if_pos hEmpty]
    simp only [reduceCtorEq, false_iff]
    intro hTopic
    rcases hTopic.segments with ⟨publisher, rest, hSplit, _⟩
    rw [hEmpty] at hSplit
    have hLength := congrArg List.length hSplit
    simp [Go.split] at hLength
  · rw [if_neg hEmpty]
    split
    · rename_i root version publisher found rest hSplit
      rw [← hSplit]
      cases hCheck :
          Go.rangeCheck (checkSegment raw)
            (Go.split raw '/') with
      | error err =>
          simp only [reduceCtorEq, false_iff]
          intro hTopic
          have hAll :
              Go.rangeCheck (checkSegment raw)
                (Go.split raw '/') = .ok () := by
            rw [Go.rangeCheck_ok_iff]
            intro segment hMem
            exact checkSegment_ok_iff.mpr
              (hTopic.concrete segment hMem)
          rw [hCheck] at hAll
          cases hAll
      | ok done =>
          have hConcrete :
              ∀ segment ∈ Go.split raw '/',
                ConcreteLevel segment := by
            intro segment hMem
            exact checkSegment_ok_iff.mp
              (Go.rangeCheck_ok_iff.mp hCheck segment hMem)
          dsimp only
          rw [scenarioTopic_iff hSplit hConcrete]
          by_cases hRoot : root ≠ "BMS" ∨ version ≠ "v1"
          · rw [if_pos hRoot]
            simp only [reduceCtorEq, false_iff]
            intro hAll
            rcases hRoot with hBms | hVersion
            · exact hBms hAll.1
            · exact hVersion hAll.2.1
          · rw [if_neg hRoot]
            rw [not_or, not_not, not_not] at hRoot
            by_cases hType : found ≠ "Value" ∧ found ≠ "Metadata"
            · rw [if_pos hType]
              simp only [reduceCtorEq, false_iff]
              intro hAll
              rcases hAll.2.2.2.1 with hValue | hMetadata
              · exact hType.1 hValue
              · exact hType.2 hMetadata
            · rw [if_neg hType]
              rw [not_and_or, not_not, not_not] at hType
              by_cases hPub :
                  found = "Metadata" ∧ publisher ≠ "PUB"
              · rw [if_pos hPub]
                simp only [reduceCtorEq, false_iff]
                intro hAll
                exact hPub.2 (hAll.2.2.2.2 hPub.1)
              · rw [if_neg hPub, Except.ok.injEq]
                constructor
                · intro hFound
                  refine ⟨hRoot.1, hRoot.2, hFound, hType, ?_⟩
                  intro hMetadata
                  by_contra hOther
                  exact hPub ⟨hMetadata, hOther⟩
                · intro hAll
                  exact hAll.2.2.1
    · rename_i hShort
      simp only [reduceCtorEq, false_iff]
      intro hTopic
      rcases hTopic.segments with ⟨publisher, rest, hSplit, _⟩
      exact hShort "BMS" "v1" publisher topicType rest hSplit

theorem parseOffset_ok_iff
    {raw : String}
    {offset : Int} :
    parseOffset durations raw = .ok offset ↔
      raw ≠ "" ∧ durations.parse raw = .ok offset ∧
        0 ≤ offset := by
  unfold parseOffset
  by_cases hEmpty : raw = ""
  · simp [hEmpty]
  · rw [if_neg hEmpty]
    cases hParse : durations.parse raw with
    | error err => simp
    | ok duration =>
        dsimp only
        by_cases hNegative : duration < 0
        · rw [if_pos hNegative]
          simp only [reduceCtorEq, Except.ok.injEq, false_iff]
          omega
        · rw [if_neg hNegative]
          simp only [Except.ok.injEq]
          constructor
          · intro hSame
            exact ⟨hEmpty, hSame, by omega⟩
          · intro hAll
            exact hAll.2.1

theorem scenarioTopic_unique
    {topic first second : String}
    (hFirst : ScenarioTopic topic first)
    (hSecond : ScenarioTopic topic second) :
    first = second := by
  rcases hFirst.segments with ⟨_, _, hSplit, _⟩
  rcases hSecond.segments with ⟨_, _, hOther, _⟩
  rw [hSplit] at hOther
  simp only [List.cons.injEq] at hOther
  exact hOther.2.2.2.1

theorem entryFromRecord_ok_iff
    {record : List String}
    (hLength : record.length = 3)
    {entry : Entry} :
    entryFromRecord durations record = .ok entry ↔
      RecordOf durations record entry := by
  rcases List.length_eq_three.mp hLength with
    ⟨raw, topic, payload, hRecord⟩
  rw [hRecord]
  unfold entryFromRecord
  simp only [List.getD_cons_zero, List.getD_cons_succ]
  constructor
  · intro hOk
    cases hOffset : parseOffset durations raw with
    | error err => simp [hOffset] at hOk
    | ok offset =>
        cases hTopic : parseTopicType topic with
        | error err => simp [hOffset, hTopic] at hOk
        | ok topicType =>
            by_cases hPayload : payload = ""
            · simp [hOffset, hTopic, hPayload] at hOk
            · have hEntry :
                  ⟨offset, topic, topicType = "Metadata",
                    payload⟩ = entry := by
                simpa [hOffset, hTopic, hPayload] using hOk
              rw [← hEntry]
              have hChecked := parseOffset_ok_iff.mp hOffset
              exact
                { fields :=
                    ⟨raw, rfl, hChecked.1, hChecked.2.1⟩
                  offset := hChecked.2.2
                  topic :=
                    ⟨topicType,
                      parseTopicType_ok_iff.mp hTopic,
                      by simp⟩
                  payload := hPayload }
  · intro hEntry
    rcases entry with ⟨offset, entryTopic, retain, template⟩
    rcases hEntry.fields with ⟨text, hFields, hSome, hParse⟩
    simp only [List.cons.injEq, and_true] at hFields
    rcases hFields with ⟨hRaw, hTopic, hPayload⟩
    rcases hEntry.topic with ⟨topicType, hForm, hRetain⟩
    simp only at hForm hRetain
    have hOffset : parseOffset durations raw = .ok offset := by
      rw [hRaw]
      exact parseOffset_ok_iff.mpr
        ⟨hSome, hParse, hEntry.offset⟩
    have hType : parseTopicType topic = .ok topicType := by
      rw [hTopic]
      exact parseTopicType_ok_iff.mpr hForm
    have hTemplate : payload ≠ "" := by
      rw [hPayload]
      exact hEntry.payload
    have hSame : decide (topicType = "Metadata") = retain := by
      by_cases hMetadata : topicType = "Metadata"
      · rw [hRetain.mpr hMetadata]
        simp [hMetadata]
      · have hNot : ¬ retain = true := by
          intro hTrue
          exact hMetadata (hRetain.mp hTrue)
        rw [Bool.eq_false_iff.mpr hNot]
        simp [hMetadata]
    rw [hTopic] at hType
    rw [hPayload] at hTemplate
    simp [hOffset, hTopic, hType, hPayload, hTemplate, hSame]

variable {libs : Libraries Schema}
variable {orders : Nat → Orders}

/- The reader's fields of a row, when there are three. -/
theorem csvRead_ok_iff
    {row : CSVRead}
    {record : List String} :
    csvRead 3 row = .ok record ↔
      record.length = 3 ∧
        ∃ line, row = .record line record := by
  cases row with
  | failed err => simp [csvRead]
  | record line fields =>
      unfold csvRead
      dsimp only
      by_cases hLength : fields.length = 3
      · have hFields :
            ¬ ((0 : Int) < 3 ∧ (fields.length : Int) ≠ 3) := by
          omega
        rw [if_neg hFields]
        simp only [Except.ok.injEq, CSVRead.record.injEq]
        constructor
        · intro hSame
          rw [← hSame]
          exact ⟨hLength, line, rfl, rfl⟩
        · intro hRow
          rcases hRow.2 with ⟨_, _, hSame⟩
          exact hSame
      · have hFields :
            (0 : Int) < 3 ∧ (fields.length : Int) ≠ 3 := by
          omega
        rw [if_pos hFields]
        simp only [reduceCtorEq, CSVRead.record.injEq,
          false_iff]
        intro hRow
        rcases hRow.2 with ⟨_, _, hSame⟩
        rw [hSame] at hLength
        exact hLength hRow.1

theorem RecordOf.length_eq
    {record : List String}
    {entry : Entry}
    (hRecord : RecordOf durations record entry) :
    record.length = 3 := by
  rcases hRecord.fields with ⟨raw, hFields, _⟩
  rw [hFields]
  rfl

/- One more row: it is an entry, and not before the last. -/
theorem readRows_cons_ok_iff
    {rowNumber : Nat}
    {entries result : List Entry}
    {previousOffset : Int}
    {row : CSVRead}
    {rows : List CSVRead}
    {s : BMSSchema libs} :
    (readRows durations orders 3 rowNumber entries
        previousOffset (row :: rows) s).1 = .ok result ↔
      ∃ entry,
        RowOf libs s.spec durations row entry ∧
          (entries ≠ [] → previousOffset ≤ entry.offset) ∧
          (readRows durations orders 3 (rowNumber + 1)
            (entries ++ [entry]) entry.offset rows
            (entry.renderPayload (orders rowNumber)
              (fromUnixMilli 0) s).2).1 = .ok result := by
  simp only [readRows]
  constructor
  · intro hOk
    cases hRead : csvRead 3 row with
    | error err => simp [hRead] at hOk
    | ok record =>
        rcases csvRead_ok_iff.mp hRead with
          ⟨hLength, line, hRow⟩
        cases hEntry : entryFromRecord durations record with
        | error err => simp [hRead, hEntry] at hOk
        | ok entry =>
            simp only [hRead, hEntry] at hOk
            by_cases hBefore :
                entries ≠ [] ∧ entry.offset < previousOffset
            · simp [hBefore] at hOk
            · rw [if_neg hBefore] at hOk
              refine ⟨entry, ?_⟩
              rcases hRender :
                  entry.renderPayload (orders rowNumber)
                    (fromUnixMilli 0) s with
                ⟨err | payload, next⟩
              · simp [hRender] at hOk
              · have hValid :
                    (entry.renderPayload (orders rowNumber)
                        (fromUnixMilli 0) s).1 =
                      .ok payload := by
                  rw [hRender]
                rw [hRender] at hOk
                refine ⟨?_, ?_, hOk⟩
                · exact
                    { record :=
                        ⟨line, record, hRow,
                          (entryFromRecord_ok_iff
                            hLength).mp hEntry⟩
                      valid :=
                        (Entry.renderPayload_ok_iff.mp
                          hValid).2 }
                · intro hSome
                  by_contra hLess
                  exact hBefore ⟨hSome, by omega⟩
  · intro hNext
    rcases hNext with ⟨entry, hRowOf, hOrder, hOk⟩
    rcases hRowOf.record with ⟨line, record, hRow, hRecord⟩
    have hRead : csvRead 3 row = .ok record :=
      csvRead_ok_iff.mpr ⟨hRecord.length_eq, line, hRow⟩
    have hEntry :
        entryFromRecord durations record = .ok entry :=
      (entryFromRecord_ok_iff hRecord.length_eq).mpr hRecord
    have hNotBefore :
        ¬ (entries ≠ [] ∧ entry.offset < previousOffset) := by
      intro hBefore
      have hAtLeast := hOrder hBefore.1
      omega
    have hValid :
        (entry.renderPayload (orders rowNumber)
            (fromUnixMilli 0) s).1 =
          .ok (entry.rendering (fromUnixMilli 0)) :=
      Entry.renderPayload_ok_iff.mpr ⟨rfl, hRowOf.valid⟩
    rcases hRender :
        entry.renderPayload (orders rowNumber)
          (fromUnixMilli 0) s with
      ⟨err | payload, next⟩
    · rw [hRender] at hValid
      cases hValid
    · rw [hRender] at hOk
      simpa only [hRead, hEntry, if_neg hNotBefore, hRender]
        using hOk

/- The rows are read one by one as the entries. -/
theorem readRows_ok_iff
    {rowNumber : Nat}
    {entries result : List Entry}
    {previousOffset : Int}
    {rows : List CSVRead}
    {s : BMSSchema libs} :
    (readRows durations orders 3 rowNumber entries
        previousOffset rows s).1 = .ok result ↔
      ∃ added,
        result = entries ++ added ∧
          List.Forall₂ (RowOf libs s.spec durations) rows
            added ∧
          added.Pairwise
            (fun first second =>
              first.offset ≤ second.offset) ∧
          (entries ≠ [] →
            ∀ entry ∈ added,
              previousOffset ≤ entry.offset) := by
  induction rows generalizing
      rowNumber entries previousOffset s with
  | nil =>
      simp only [readRows, Except.ok.injEq,
        List.forall₂_nil_left_iff]
      constructor
      · intro hSame
        exact ⟨[], by simp [hSame]⟩
      · intro hAdded
        rcases hAdded with ⟨added, hResult, hNil, _⟩
        rw [hResult, hNil, List.append_nil]
  | cons row rows ih =>
      rw [readRows_cons_ok_iff]
      constructor
      · intro hNext
        rcases hNext with ⟨entry, hRow, hOrder, hOk⟩
        rcases ih.mp hOk with
          ⟨added, hResult, hRows, hSorted, hAfter⟩
        rw [Entry.renderPayload_spec] at hRows
        have hLater := hAfter (by simp)
        refine ⟨entry :: added, ?_, hRows.cons hRow, ?_, ?_⟩
        · rw [hResult, List.append_assoc]
          rfl
        · exact List.pairwise_cons.mpr ⟨hLater, hSorted⟩
        · intro hSome other hMem
          have hFirst := hOrder hSome
          rcases List.mem_cons.mp hMem with hSelf | hOther
          · rw [hSelf]
            exact hFirst
          · have hNotBefore := hLater other hOther
            omega
      · intro hAdded
        rcases hAdded with
          ⟨added, hResult, hRows, hSorted, hAfter⟩
        cases hRows with
        | cons hRow hRest =>
            rename_i entry others
            rw [List.pairwise_cons] at hSorted
            refine ⟨entry, hRow, ?_, ?_⟩
            · intro hSome
              exact hAfter hSome entry List.mem_cons_self
            · apply ih.mpr
              refine ⟨others, ?_, ?_, hSorted.2, ?_⟩
              · rw [hResult, List.append_assoc]
                rfl
              · rw [Entry.renderPayload_spec]
                exact hRest
              · intro _
                exact hSorted.1

def scenarioHeader : List String :=
  ["offset", "topic", "payload"]

theorem validateScenarioHeader_ok_iff
    {header : List String} :
    validateScenarioHeader header = .ok () ↔
      header = scenarioHeader := by
  unfold validateScenarioHeader scenarioHeader
  constructor
  · intro hOk
    by_cases hBad :
        header.length ≠ 3 ∨ header[0]? ≠ some "offset" ∨
          header[1]? ≠ some "topic" ∨
            header[2]? ≠ some "payload"
    · simp [hBad] at hOk
    · simp only [not_or, not_not] at hBad
      rcases hBad with ⟨hLength, hFirst, hSecond, hThird⟩
      rcases List.length_eq_three.mp hLength with
        ⟨offset, topic, payload, hHeader⟩
      rw [hHeader] at hFirst hSecond hThird ⊢
      simp only [List.getElem?_cons_zero, Option.some.injEq,
        List.getElem?_cons_succ] at hFirst hSecond hThird
      rw [hFirst, hSecond, hThird]
  · intro hHeader
    rw [hHeader]
    simp

/- What a read has to begin with for there to be rows. -/
theorem readScenario_ok_iff_rows
    {reads : List CSVRead}
    {s : BMSSchema libs}
    {scenario : Scenario} :
    (readScenario durations orders reads s).1 =
        .ok scenario ↔
      ∃ line rows,
        reads = .record line scenarioHeader :: rows ∧
          scenario.entries ≠ [] ∧
          (readRows durations orders 3 2 [] 0 rows s).1 =
            .ok scenario.entries := by
  constructor
  · intro hOk
    cases reads with
    | nil => cases hOk
    | cons first rows =>
        simp only [readScenario] at hOk
        cases first with
        | failed err => simp [csvRead] at hOk
        | record line header =>
            have hRead :
                csvRead (-1) (.record line header) =
                  .ok header := by
              simp [csvRead]
            simp only [hRead] at hOk
            cases hCheck : validateScenarioHeader header with
            | error err => simp [hCheck] at hOk
            | ok done =>
                have hHeader :=
                  validateScenarioHeader_ok_iff.mp hCheck
                rw [hHeader] at hOk hCheck ⊢
                simp only [hCheck] at hOk
                refine ⟨line, rows, rfl, ?_⟩
                rcases hRun :
                    readRows durations orders
                      scenarioHeader.length 2 [] 0 rows s with
                  ⟨err | entries, next⟩
                · simp [hRun] at hOk
                · by_cases hNone : entries = []
                  · simp [hRun, hNone] at hOk
                  · have hSame : ⟨entries⟩ = scenario := by
                      simpa [hRun, hNone] using hOk
                    rw [← hSame]
                    refine ⟨hNone, ?_⟩
                    have hThree :
                        ((scenarioHeader.length : ℕ) : Int) =
                          3 :=
                      rfl
                    rw [hThree] at hRun
                    rw [hRun]
  · intro hRows
    rcases hRows with ⟨line, rows, hReads, hSome, hRun⟩
    have hCheck :=
      validateScenarioHeader_ok_iff.mpr
        (rfl : scenarioHeader = scenarioHeader)
    have hRead :
        csvRead (-1) (.record line scenarioHeader) =
          .ok scenarioHeader := by
      simp [csvRead]
    have hThree :
        ((scenarioHeader.length : ℕ) : Int) = 3 :=
      rfl
    rw [hReads]
    simp only [readScenario, hRead, hCheck, hThree]
    rcases hResult :
        readRows durations orders 3 2 [] 0 rows s with
      ⟨err | entries, next⟩
    · rw [hResult] at hRun
      cases hRun
    · rw [hResult] at hRun
      have hSame : entries = scenario.entries :=
        Except.ok.inj hRun
      simp [hSame, hSome]

theorem readScenario_ok_iff
    {reads : List CSVRead}
    {s : BMSSchema libs}
    {scenario : Scenario} :
    (readScenario durations orders reads s).1 =
        .ok scenario ↔
      ∃ line rows,
        reads = .record line scenarioHeader :: rows ∧
          scenario.entries ≠ [] ∧
          List.Forall₂ (RowOf libs s.spec durations) rows
            scenario.entries ∧
          scenario.entries.Pairwise
            (fun first second =>
              first.offset ≤ second.offset) := by
  rw [readScenario_ok_iff_rows]
  simp only [readRows_ok_iff]
  constructor
  · intro hRows
    rcases hRows with
      ⟨line, rows, hReads, hSome, added, hAdded, hAll,
        hSorted, _⟩
    rw [List.nil_append] at hAdded
    rw [← hAdded] at hAll hSorted
    exact ⟨line, rows, hReads, hSome, hAll, hSorted⟩
  · intro hRows
    rcases hRows with
      ⟨line, rows, hReads, hSome, hAll, hSorted⟩
    exact ⟨line, rows, hReads, hSome, scenario.entries,
      rfl, hAll, hSorted, by simp⟩

theorem exists_error_of_not_ok
    {ε α : Type}
    {result : Except ε α}
    (hNever : ∀ value, result ≠ .ok value) :
    ∃ err, result = .error err := by
  cases result with
  | error err => exact ⟨err, rfl⟩
  | ok value => exact absurd rfl (hNever value)

/- The entry of one row among others. -/
theorem exists_of_forall₂
    {α β : Type}
    {R : α → β → Prop}
    {before after : List α}
    {row : α}
    {entries : List β}
    (hAll : List.Forall₂ R (before ++ row :: after) entries) :
    ∃ front entry rest,
      entries = front ++ entry :: rest ∧
        R row entry ∧ List.Forall₂ R after rest := by
  induction before generalizing entries with
  | nil =>
      rcases List.forall₂_cons_left_iff.mp hAll with
        ⟨entry, rest, hRow, hRest, hEq⟩
      exact ⟨[], entry, rest, hEq, hRow, hRest⟩
  | cons first before ih =>
      rcases List.forall₂_cons_left_iff.mp hAll with
        ⟨other, others, _, hOthers, hEq⟩
      rcases ih hOthers with
        ⟨front, entry, rest, hFront, hRow, hRest⟩
      refine ⟨other :: front, entry, rest, ?_, hRow, hRest⟩
      rw [hEq, hFront]
      rfl

theorem rowOf_unique
    {document : Go.Map Go.Any}
    {row : CSVRead}
    {first second : Entry}
    (hFirst : RowOf libs document durations row first)
    (hSecond : RowOf libs document durations row second) :
    first.offset = second.offset := by
  rcases hFirst.record with ⟨line, fields, hRow, hRecord⟩
  rcases hSecond.record with
    ⟨other, others, hSame, hOther⟩
  rw [hRow] at hSame
  simp only [CSVRead.record.injEq] at hSame
  rcases hRecord.fields with ⟨raw, hFields, _, hParse⟩
  rcases hOther.fields with ⟨text, hTexts, _, hOffset⟩
  rw [← hSame.2, hFields] at hTexts
  simp only [List.cons.injEq] at hTexts
  rw [hTexts.1, hOffset] at hParse
  exact (Except.ok.inj hParse).symm

/-
  Reading gives a scenario exactly when every row is an entry
  and no offset is before an earlier one, and then the rows'
  entries; one bad row, or one that steps back, is enough for
  an error, wherever it is.
-/
theorem readScenario_strict
    (libs : Libraries Schema)
    (durations : Durations)
    (orders : Nat → Orders)
    (reads : List CSVRead)
    (s : BMSSchema libs) :
    (∀ scenario,
      (readScenario durations orders reads s).1 =
          .ok scenario ↔
        ∃ line rows,
          reads = .record line scenarioHeader :: rows ∧
            scenario.entries ≠ [] ∧
            List.Forall₂ (RowOf libs s.spec durations) rows
              scenario.entries ∧
            scenario.entries.Pairwise
              (fun first second =>
                first.offset ≤ second.offset)) ∧
      (∀ row ∈ reads.tail,
        (∀ entry, ¬ RowOf libs s.spec durations row entry) →
          ∃ err,
            (readScenario durations orders reads s).1 =
              .error err) ∧
      ∀ before first between second after earlier later,
        reads.tail =
            before ++ first :: (between ++ second :: after) →
          RowOf libs s.spec durations first earlier →
            RowOf libs s.spec durations second later →
              later.offset < earlier.offset →
                ∃ err,
                  (readScenario durations orders reads s).1 =
                    .error err := by
  refine ⟨fun scenario => readScenario_ok_iff, ?_, ?_⟩
  · intro row hMem hBad
    apply exists_error_of_not_ok
    intro scenario hOk
    rcases readScenario_ok_iff.mp hOk with
      ⟨line, rows, hReads, _, hAll, _⟩
    rw [hReads] at hMem
    rcases List.append_of_mem hMem with
      ⟨before, after, hRows⟩
    rw [List.tail_cons] at hRows
    rw [hRows] at hAll
    rcases exists_of_forall₂ hAll with
      ⟨front, entry, rest, _, hRow, _⟩
    exact hBad entry hRow
  · intro before first between second after earlier later
      hRows hFirst hSecond hLess
    apply exists_error_of_not_ok
    intro scenario hOk
    rcases readScenario_ok_iff.mp hOk with
      ⟨line, rows, hReads, _, hAll, hSorted⟩
    rw [hReads, List.tail_cons] at hRows
    rw [hRows] at hAll
    rcases exists_of_forall₂ hAll with
      ⟨front, entry, rest, hEntries, hEntry, hRest⟩
    rcases exists_of_forall₂ hRest with
      ⟨middle, other, others, hOthers, hOther, _⟩
    rw [hEntries, hOthers] at hSorted
    have hTail := (List.pairwise_append.mp hSorted).2.1
    have hOrder :=
      (List.pairwise_cons.mp hTail).1 other (by simp)
    rw [rowOf_unique hEntry hFirst,
      rowOf_unique hOther hSecond] at hOrder
    omega

end DummyBms
