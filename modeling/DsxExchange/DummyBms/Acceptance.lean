import DsxExchange.DummyBms.Schema

/-
  What `validateMessage` decides: some channel takes the
  topic, and some message of that channel the payload.

  Neither the orders of the loops nor the messages that were
  validated before have a part in the verdict.

  Key definitions include:
    * `DummyBms.ChannelMatches`, `DummyBms.MessageTakes`
    * `DummyBms.FieldsAgree`
    * `DummyBms.Accepts`
    * `DummyBms.BMSSchema.after`

  Key theorems include:
    * `DummyBms.BMSSchema.validateMessage_ok_iff`
    * `DummyBms.validateMessage_ok_iff_accepts`
-/

------------------------------------------------------------
-- Accepted Messages
------------------------------------------------------------

namespace DummyBms

open Go (Any)

/-
  The channel's address matches the topic, and each value is
  one of those that the channel declares for its parameter.
-/
structure ChannelMatches
    (channel : Go.Map Any)
    (topic : String)
    (values : List (String × String)) : Prop where
  address :
    ∃ address,
      stringField channel "address" = some address ∧
        AddressMatch address topic values
  declared :
    ∀ {name value}, ParamValue values name value →
      ∀ {enumValues}, DeclaredEnum channel name enumValues →
        Any.string value ∈ enumValues

/-
  The node refers to a message among the components, whose
  payload schema is at the location.
-/
def PayloadSchema (node : Any) (location : String) : Prop :=
  ∃ message name,
    asMap node = some message ∧
      stringField message "$ref" =
          some ("#/components/messages/" ++ name) ∧
        location =
          bmsSchemaResource ++
            "#/components/messages/" ++ name ++ "/payload"

variable {Schema : Type}

/- The node's payload schema compiles, and takes the value. -/
def NodeTakes
    (libs : Libraries Schema)
    (document : Go.Map Any)
    (node : Any)
    (value : Any) : Prop :=
  ∃ location schema,
    PayloadSchema node location ∧
      libs.compile bmsSchemaResource document location =
          .ok schema ∧
        libs.validate schema value = .ok ()

/- Some message of the channel takes the value. -/
def MessageTakes
    (libs : Libraries Schema)
    (document : Go.Map Any)
    (channel : Go.Map Any)
    (value : Any) : Prop :=
  ∃ messages name node,
    mapField channel "messages" = some messages ∧
      messages.lookup name = some node ∧
        NodeTakes libs document node value

/-
  Where an object payload has a field named like a parameter
  of the topic, the field is the parameter's value.
-/
def FieldsAgree
    (values : List (String × String))
    (value : Any) : Prop :=
  ∀ object, asMap value = some object →
    ∀ name want, ParamValue values name want →
      ∀ field, object.lookup name = some field →
        field = .string want

/- The channel takes the topic and the value. -/
def AcceptsThrough
    (libs : Libraries Schema)
    (document : Go.Map Any)
    (channel : Go.Map Any)
    (topic : String)
    (value : Any) : Prop :=
  ∃ values,
    ChannelMatches channel topic values ∧
      MessageTakes libs document channel value ∧
        FieldsAgree values value

/- Some channel of the document takes topic and payload. -/
def Accepts
    (libs : Libraries Schema)
    (document : Go.Map Any)
    (topic : String)
    (payload : List UInt8) : Prop :=
  ∃ value channels name channel,
    libs.unmarshalJSON payload = .ok value ∧
      mapField document "channels" = some channels ∧
        mapField channels name = some channel ∧
          AcceptsThrough libs document channel topic value

end DummyBms

------------------------------------------------------------
-- The Loops
------------------------------------------------------------

namespace DummyBms

open Go (Any)

theorem messagePayloadSchemaLocation_ok_iff
    {node : Any}
    {location : String} :
    messagePayloadSchemaLocation node = .ok location ↔
      PayloadSchema node location := by
  have hTrim :
      ∀ name,
        Go.trimPrefix ("#/components/messages/" ++ name) "#" =
          "/components/messages/" ++ name := by
    intro name
    have hForm :
        "#/components/messages/" ++ name =
          "#" ++ ("/components/messages/" ++ name) := by
      rw [← String.append_assoc]
      rfl
    rw [hForm, Go.trimPrefix_append]
  have hLocation :
      ∀ name,
        bmsSchemaResource ++ "#" ++
            ("/components/messages/" ++ name) ++ "/payload" =
          bmsSchemaResource ++
            "#/components/messages/" ++ name ++
            "/payload" := by
    intro name
    apply String.toList_inj.mp
    simp
  unfold messagePayloadSchemaLocation PayloadSchema
  cases hMessage : asMap node with
  | none => simp
  | some message =>
      dsimp only
      cases hRef : stringField message "$ref" with
      | none => simp [hRef]
      | some ref =>
          by_cases hPrefix :
              Go.hasPrefix ref "#/components/messages/" =
                true
          · rcases Go.hasPrefix_iff.mp hPrefix with
              ⟨name, rfl⟩
            simp only [hPrefix, if_true, hTrim, hLocation,
              Except.ok.injEq]
            constructor
            · intro hEq
              exact ⟨message, name, rfl, hRef, hEq.symm⟩
            · rintro ⟨other, found, hOther, hFound, hEq⟩
              cases hOther
              rw [hRef] at hFound
              have hSame :
                  "#/components/messages/" ++ name =
                    "#/components/messages/" ++ found :=
                Option.some.inj hFound
              rw [String.append_right_inj] at hSame
              rw [hSame]
              exact hEq.symm
          · simp only [hPrefix, Bool.false_eq_true, if_false,
              reduceCtorEq, false_iff]
            rintro ⟨other, found, hOther, hFound, _⟩
            cases hOther
            rw [hRef] at hFound
            cases hFound
            exact hPrefix (Go.hasPrefix_iff.mpr ⟨found, rfl⟩)

variable {Schema : Type} {libs : Libraries Schema}

namespace BMSSchema

@[simp] theorem tryMessage_spec
    (orders : MessageOrders)
    (params : Params)
    (value : Any)
    (s : BMSSchema libs)
    (message : Go.Entry Any) :
    (tryMessage orders params value s message).2.spec =
      s.spec := by
  unfold tryMessage
  cases messagePayloadSchemaLocation message.2 with
  | error err => rfl
  | ok location =>
      have hSpec := s.compile_spec location
      cases hCompile : s.compile location with
      | mk result next =>
          rw [hCompile] at hSpec
          cases result with
          | error err => simpa [hCompile] using hSpec
          | ok schema =>
              simp only [hCompile]
              split
              · exact hSpec
              · split <;> exact hSpec

/- The body of the loop over the messages succeeds. -/
theorem tryMessage_ok_iff
    {orders : MessageOrders}
    {values : List (String × String)}
    {value : Any}
    {s : BMSSchema libs}
    {message : Go.Entry Any} :
    (tryMessage orders (paramsOf ∅ values) value s
        message).1 = .ok () ↔
      NodeTakes libs s.spec message.2 value ∧
        FieldsAgree values value := by
  have hFields :
      validatePayloadTopicParameters
            (orders.payloadParams message.1)
            (paramsOf ∅ values) value = .ok () ↔
        FieldsAgree values value := by
    simp only [validatePayloadTopicParameters_ok_iff,
      mem_paramsOf_iff, FieldsAgree]
  have hNode :
      NodeTakes libs s.spec message.2 value ↔
        ∃ location schema,
          messagePayloadSchemaLocation message.2 =
              .ok location ∧
            (s.compile location).1 = .ok schema ∧
              libs.validate schema value = .ok () := by
    simp only [NodeTakes, compile_ok_iff,
      messagePayloadSchemaLocation_ok_iff]
  rw [hNode]
  unfold tryMessage
  cases hLocation :
      messagePayloadSchemaLocation message.2 with
  | error err => simp
  | ok location =>
      dsimp only
      rcases hCompile : s.compile location with
        ⟨err | schema, next⟩
      · simp [hCompile]
      · dsimp only
        cases hValid : libs.validate schema value with
        | error err => simp [hCompile, hValid]
        | ok done =>
            rw [← hFields]
            dsimp only
            split <;> simp_all

@[simp] theorem validateChannelMessages_spec
    (s : BMSSchema libs)
    (orders : MessageOrders)
    (channel : Go.Map Any)
    (params : Params)
    (value : Any) :
    (s.validateChannelMessages orders channel params
        value).2.spec = s.spec := by
  unfold validateChannelMessages
  cases mapField channel "messages" with
  | none => rfl
  | some messages =>
      rw [Go.reportFailures_snd]
      exact Go.rangeUntil_preserves
        (fun next : BMSSchema libs => next.spec = s.spec)
        (fun next message hNext => by
          rw [tryMessage_spec, hNext])
        rfl

/- Some message of the channel takes the payload. -/
theorem validateChannelMessages_ok_iff
    {s : BMSSchema libs}
    {orders : MessageOrders}
    {channel : Go.Map Any}
    {values : List (String × String)}
    {value : Any} :
    (s.validateChannelMessages orders channel
        (paramsOf ∅ values) value).1 = .ok () ↔
      MessageTakes libs s.spec channel value ∧
        FieldsAgree values value := by
  unfold validateChannelMessages MessageTakes
  cases hMessages : mapField channel "messages" with
  | none => simp
  | some messages =>
      dsimp only
      rw [Go.reportFailures_ok_iff,
        Go.rangeUntil_ok_iff
          (fun next : BMSSchema libs => next.spec = s.spec)
          (fun message : Go.Entry Any =>
            NodeTakes libs s.spec message.2 value ∧
              FieldsAgree values value)
          (fun next message hNext => by
            rw [tryMessage_spec, hNext])
          (fun next message hNext => by
            rw [tryMessage_ok_iff, hNext])
          rfl]
      simp only [Go.Iteration.mem_entries]
      constructor
      · rintro ⟨⟨name, node⟩, hMem, hNode, hFields⟩
        exact ⟨⟨messages, name, node, rfl,
          AList.mem_lookup_iff.mpr hMem, hNode⟩, hFields⟩
      · rintro ⟨⟨others, name, node, hOthers, hFound, hNode⟩,
          hFields⟩
        cases hOthers
        exact ⟨⟨name, node⟩, AList.mem_lookup_iff.mp hFound,
          hNode, hFields⟩

@[simp] theorem tryChannel_spec
    (orders : Orders)
    (topic : String)
    (value : Any)
    (s : BMSSchema libs)
    (entry : Go.Entry Any) :
    (tryChannel orders topic value s entry).2.spec =
      s.spec := by
  unfold tryChannel
  cases asMap entry.2 with
  | none => rfl
  | some channel =>
      dsimp only
      cases stringField channel "address" with
      | none => rfl
      | some address =>
          dsimp only
          cases matchTopicAddress address topic with
          | none => rfl
          | some params =>
              dsimp only
              split
              · rfl
              · have hSpec :=
                  s.validateChannelMessages_spec
                    (orders.ofChannel entry.1) channel params
                    value
                split <;> simp_all

/- What follows a match of the channel's address. -/
theorem tryChannel_of_match
    {orders : Orders}
    {topic address : String}
    {value : Any}
    {s : BMSSchema libs}
    {entry : Go.Entry Any}
    {channel : Go.Map Any}
    {values : List (String × String)}
    (hChannel : asMap entry.2 = some channel)
    (hAddress :
      stringField channel "address" = some address)
    (hMatch : AddressMatch address topic values) :
    (tryChannel orders topic value s entry).1 = .ok () ↔
      ChannelMatches channel topic values ∧
        MessageTakes libs s.spec channel value ∧
          FieldsAgree values value := by
  have hParams :
      matchTopicAddress address topic =
        some (paramsOf ∅ values) :=
    matchTopicAddress_eq_some_iff.mpr ⟨values, hMatch, rfl⟩
  have hDeclared :
      validateChannelParams (orders.channelParams entry.1)
            channel (paramsOf ∅ values) = .ok () ↔
        ChannelMatches channel topic values := by
    simp only [validateChannelParams_ok_iff,
      mem_paramsOf_iff]
    constructor
    · intro hAll
      exact
        { address := ⟨address, hAddress, hMatch⟩
          declared := by
            intro name found hValue enumValues hEnum
            exact hAll name found hValue enumValues hEnum }
    · intro hMatches name found hValue enumValues hEnum
      exact hMatches.declared hValue hEnum
  have hMessages :=
    @validateChannelMessages_ok_iff _ _ s
      (orders.ofChannel entry.1) channel values value
  unfold tryChannel
  simp only [hChannel, hAddress, hParams]
  rw [← hDeclared, ← hMessages]
  split
  next err hErr => simp [hErr]
  next hOk =>
    rcases hCall :
        s.validateChannelMessages (orders.ofChannel entry.1)
          channel (paramsOf ∅ values) value with
      ⟨err | done, next⟩ <;>
      simp [hOk]

/- The body of the loop over the channels succeeds. -/
theorem tryChannel_ok_iff
    {orders : Orders}
    {topic : String}
    {value : Any}
    {s : BMSSchema libs}
    {entry : Go.Entry Any} :
    (tryChannel orders topic value s entry).1 = .ok () ↔
      ∃ channel,
        asMap entry.2 = some channel ∧
          AcceptsThrough libs s.spec channel topic value := by
  constructor
  · intro hOk
    have hRun := hOk
    unfold tryChannel at hRun
    cases hChannel : asMap entry.2 with
    | none => simp [hChannel] at hRun
    | some channel =>
        cases hAddress : stringField channel "address" with
        | none => simp [hChannel, hAddress] at hRun
        | some address =>
            cases hParams :
                matchTopicAddress address topic with
            | none =>
                simp [hChannel, hAddress, hParams] at hRun
            | some params =>
                rcases matchTopicAddress_eq_some_iff.mp
                    hParams with
                  ⟨values, hMatch, _⟩
                exact ⟨channel, rfl, values,
                  (tryChannel_of_match hChannel hAddress
                    hMatch).mp hOk⟩
  · rintro ⟨channel, hChannel, values, hTakes⟩
    rcases hTakes.1.address with ⟨address, hAddress, hMatch⟩
    exact (tryChannel_of_match hChannel hAddress hMatch).mpr
      hTakes

@[simp] theorem validateMessage_spec
    (s : BMSSchema libs)
    (orders : Orders)
    (topic : String)
    (payload : List UInt8) :
    (s.validateMessage orders topic payload).2.spec =
      s.spec := by
  unfold validateMessage
  cases libs.unmarshalJSON payload with
  | error err => rfl
  | ok value =>
      dsimp only
      cases mapField s.spec "channels" with
      | none => rfl
      | some channels =>
          dsimp only
          rw [Go.reportFailures_snd]
          exact Go.rangeUntil_preserves
            (fun next : BMSSchema libs => next.spec = s.spec)
            (fun next entry hNext => by
              rw [tryChannel_spec, hNext])
            rfl

/- A validator in any state accepts as its document says. -/
theorem validateMessage_ok_iff
    {s : BMSSchema libs}
    {orders : Orders}
    {topic : String}
    {payload : List UInt8} :
    (s.validateMessage orders topic payload).1 = .ok () ↔
      Accepts libs s.spec topic payload := by
  unfold validateMessage Accepts
  cases hValue : libs.unmarshalJSON payload with
  | error err => simp
  | ok value =>
      cases hChannels : mapField s.spec "channels" with
      | none => simp
      | some channels =>
          dsimp only
          rw [Go.reportFailures_ok_iff,
            Go.rangeUntil_ok_iff
              (fun next : BMSSchema libs =>
                next.spec = s.spec)
              (fun entry : Go.Entry Any => ∃ channel,
                asMap entry.2 = some channel ∧
                  AcceptsThrough libs s.spec channel topic
                    value)
              (fun next entry hNext => by
                rw [tryChannel_spec, hNext])
              (fun next entry hNext => by
                rw [tryChannel_ok_iff, hNext])
              rfl]
          simp only [Go.Iteration.mem_entries]
          constructor
          · rintro ⟨⟨name, node⟩, hMem, channel, hChannel,
              hThrough⟩
            have hFound :
                mapField channels name = some channel := by
              rw [mapField, AList.mem_lookup_iff.mpr hMem]
              exact hChannel
            exact ⟨value, channels, name, channel, rfl, rfl,
              hFound, hThrough⟩
          · rintro ⟨found, others, name, channel, hFound,
              hOthers, hChannel, hThrough⟩
            cases hFound
            cases hOthers
            rcases Option.bind_eq_some_iff.mp hChannel with
              ⟨node, hNode, hMap⟩
            exact ⟨⟨name, node⟩,
              AList.mem_lookup_iff.mp hNode, channel, hMap,
              hThrough⟩

end BMSSchema

end DummyBms

------------------------------------------------------------
-- Histories
------------------------------------------------------------

namespace DummyBms

/- One call of the validator. -/
structure Validation where
  orders : Orders
  topic : String
  payload : List UInt8

variable {Schema : Type} {libs : Libraries Schema}

namespace BMSSchema

/- The validator after a row of calls. -/
def after (s : BMSSchema libs) :
    List Validation → BMSSchema libs
| [] => s
| call :: calls =>
    after
      (s.validateMessage call.orders call.topic
        call.payload).2
      calls

@[simp] theorem after_spec
    (s : BMSSchema libs)
    (history : List Validation) :
    (s.after history).spec = s.spec := by
  induction history generalizing s with
  | nil => rfl
  | cons call calls ih =>
      rw [after, ih, validateMessage_spec]

end BMSSchema

/-
  A validator that was loaded with a document, and has
  validated any messages since, accepts a message if and only
  if the document does, in whatever orders its loops range.
-/
theorem validateMessage_ok_iff_accepts
    (libs : Libraries Schema)
    (document : Go.Map Go.Any)
    (topic : String)
    (payload : List UInt8)
    (history : List Validation)
    (orders : Orders) :
    ((((newBMSSchema libs document).after
          history).validateMessage orders topic payload).1 =
        .ok ()) ↔
      Accepts libs document topic payload := by
  rw [BMSSchema.validateMessage_ok_iff, BMSSchema.after_spec]
  rfl

end DummyBms
