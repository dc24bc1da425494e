import DsxExchange.DummyBms.Acceptance
import DsxExchange.DummyBms.BmsDocument

/-
  Which channels of the BMS specification take a message that
  is sent under the BMS's own publisher segment.

  The channels of the integrations have a parameter there,
  and nothing keeps it from taking the BMS's segment.

  Key definitions include:
    * `DummyBms.Level`, `DummyBms.valueTopic`
    * `DummyBms.BmsPublished`, `DummyBms.IntegrationPublished`
    * `DummyBms.IntegrationTakes`
    * `DummyBms.AcceptedThrough`

  Key theorems include:
    * `DummyBms.acceptedThrough_iff`
    * `DummyBms.integration_accepts_iff`
    * `DummyBms.publishersSeparated_iff`
-/

------------------------------------------------------------
-- Topics Of Values
------------------------------------------------------------

namespace DummyBms

/- A text that is one level of a topic. -/
structure Level where
  text : String
  noSlash : '/' ∉ text.toList

/- The topic of a value under the BMS's own segment. -/
def valueTopic
    (objectType pointType : Level)
    (tagPath : String) : String :=
  Go.join
    ["BMS", "v1", "PUB", "Value", objectType.text,
      pointType.text, tagPath]
    '/'

theorem split_valueTopic
    (objectType pointType : Level)
    (tagPath : String) :
    Go.split (valueTopic objectType pointType tagPath) '/' =
      "BMS" :: "v1" :: "PUB" :: "Value" ::
        objectType.text :: pointType.text ::
          Go.split tagPath '/' := by
  unfold valueTopic
  rw [Go.split_join_cons (by decide) (by simp),
    Go.split_join_cons (by decide) (by simp),
    Go.split_join_cons (by decide) (by simp),
    Go.split_join_cons (by decide) (by simp),
    Go.split_join_cons objectType.noSlash (by simp),
    Go.split_join_cons pointType.noSlash (by simp),
    Go.join_singleton]

end DummyBms

------------------------------------------------------------
-- Addresses
------------------------------------------------------------

namespace DummyBms

open Go (Any)

/- The levels that the address of a kind starts with. -/
def ChannelKind.front : ChannelKind → List String
| .value => ["BMS", "v1", "PUB", "Value"]
| .metadata => ["BMS", "v1", "PUB", "Metadata"]
| .integration =>
    ["BMS", "v1", param "integration", "Value"]

/- Object types are plain levels. -/
theorem plain_objectType
    {name : String}
    {c : Channel}
    (hMem : (name, c) ∈ bmsChannels) :
    '/' ∉ c.objectType.toList ∧
      '\x7b' ∉ c.objectType.toList := by
  have hAll :
      ∀ c ∈ bmsChannels,
        '/' ∉ c.2.objectType.toList ∧
          '\x7b' ∉ c.2.objectType.toList := by
    decide +kernel
  exact hAll _ hMem

theorem split_address
    {c : Channel}
    (hPlain : '/' ∉ c.objectType.toList) :
    Go.split c.address '/' =
      c.kind.front ++
        [c.objectType, param "pointType",
          param "tagPath"] := by
  have hRoot :
      ∀ kind : ChannelKind,
        kind.root.toList =
          ['/'].intercalate
            ((kind.front ++ [""]).map String.toList) := by
    intro kind
    cases kind <;> decide +kernel
  have hTail :
      "/{pointType}/{tagPath}".toList =
        ['/'].intercalate
          (["", param "pointType", param "tagPath"].map
            String.toList) := by
    decide +kernel
  have hJoin :
      c.address =
        Go.join
          (c.kind.front ++
            [c.objectType, param "pointType",
              param "tagPath"])
          '/' := by
    apply String.toList_inj.mp
    rw [Channel.address, String.toList_append,
      String.toList_append, hRoot, hTail, Go.join,
      String.toList_ofList]
    cases c.kind <;>
      simp [ChannelKind.front, List.intercalate_cons_cons]
  rw [hJoin, Go.split_join (by simp)]
  intro part hPart
  rcases List.mem_append.mp hPart with hFront | hBack
  · have hAll :
        ∀ part ∈ c.kind.front, '/' ∉ part.toList := by
      cases c.kind <;> decide +kernel
    exact hAll part hFront
  · simp only [List.mem_cons, List.not_mem_nil, or_false]
      at hBack
    rcases hBack with rfl | rfl | rfl
    · exact hPlain
    · decide
    · decide

end DummyBms

------------------------------------------------------------
-- Matches Of Topics Of Values
------------------------------------------------------------

namespace DummyBms

theorem levelsMatch_literal_iff
    {part level : String}
    {parts levels : List String}
    {values : List (String × String)}
    (hLiteral : '\x7b' ∉ part.toList) :
    LevelsMatch (part :: parts) (level :: levels) values ↔
      level = part ∧ LevelsMatch parts levels values := by
  have hParam : ∀ name, part ≠ param name := by
    rintro name rfl
    simp at hLiteral
  constructor
  · intro hMatch
    cases hMatch with
    | literal _ hRest => exact ⟨rfl, hRest⟩
    | level => exact absurd rfl (hParam _)
    | path => exact absurd rfl (hParam _)
  · rintro ⟨rfl, hRest⟩
    exact .literal hParam hRest

theorem levelsMatch_level_iff
    {name level : String}
    {parts levels : List String}
    {values : List (String × String)}
    (hMore : parts ≠ []) :
    LevelsMatch (param name :: parts) (level :: levels)
        values ↔
      ∃ rest,
        values = (name, level) :: rest ∧
          LevelsMatch parts levels rest := by
  constructor
  · intro hMatch
    generalize hPart : param name = part at hMatch
    cases hMatch with
    | literal hLiteral _ =>
        exact absurd hPart.symm (hLiteral name)
    | level _ hRest =>
        have hName := congrArg paramName hPart
        simp only [paramName_param] at hName
        subst hName
        exact ⟨_, rfl, hRest⟩
    | path => exact absurd rfl hMore
  · rintro ⟨rest, rfl, hRest⟩
    exact .level hMore hRest

theorem levelsMatch_path_iff
    {name level : String}
    {levels : List String}
    {values : List (String × String)} :
    LevelsMatch [param name] (level :: levels) values ↔
      values = [(name, Go.join (level :: levels) '/')] := by
  constructor
  · intro hMatch
    generalize hPart : param name = part at hMatch
    cases hMatch with
    | literal hLiteral _ =>
        exact absurd hPart.symm (hLiteral name)
    | level hMore _ => exact absurd rfl hMore
    | path =>
        have hName := congrArg paramName hPart
        simp only [paramName_param] at hName
        subst hName
        rfl
  · rintro rfl
    exact .path

/- The values that a topic of a value gives. -/
def topicValues
    (pointType : Level)
    (tagPath : String) : List (String × String) :=
  [("pointType", pointType.text), ("tagPath", tagPath)]

/- What follows the front of an address. -/
theorem levelsMatch_rest_iff
    {objectType : String}
    {found pointType : Level}
    {tagPath : String}
    {values : List (String × String)}
    (hPlain : '\x7b' ∉ objectType.toList) :
    LevelsMatch
        [objectType, param "pointType", param "tagPath"]
        (found.text :: pointType.text ::
          Go.split tagPath '/')
        values ↔
      found.text = objectType ∧
        values = topicValues pointType tagPath := by
  rcases hSplit : Go.split tagPath '/' with _ | ⟨level, levels⟩
  · exact absurd hSplit (Go.split_ne_nil _ _)
  · have hPath : Go.join (level :: levels) '/' = tagPath := by
      rw [← hSplit, Go.join_split]
    rw [levelsMatch_literal_iff hPlain,
      levelsMatch_level_iff (by simp)]
    simp only [levelsMatch_path_iff, hPath, topicValues]
    constructor
    · rintro ⟨hFound, rest, rfl, rfl⟩
      exact ⟨hFound, rfl⟩
    · rintro ⟨hFound, rfl⟩
      exact ⟨hFound, _, rfl, rfl⟩

/-
  The values of the front of an address under the BMS's own
  segment, if it fits there.
-/
def ChannelKind.frontValues :
    ChannelKind → Option (List (String × String))
| .value => some []
| .metadata => none
| .integration => some [("integration", "PUB")]

/- The levels of the topic are those of a concrete one. -/
def ConcreteTopic
    (objectType pointType : Level)
    (tagPath : String) : Prop :=
  ∀ level ∈
      Go.split (valueTopic objectType pointType tagPath) '/',
    ConcreteLevel level

variable {objectType pointType : Level} {tagPath : String}
variable {name : String} {c : Channel}

theorem addressMatch_iff
    {values : List (String × String)}
    (hMem : (name, c) ∈ bmsChannels) :
    AddressMatch c.address
        (valueTopic objectType pointType tagPath) values ↔
      ConcreteTopic objectType pointType tagPath ∧
        objectType.text = c.objectType ∧
          ∃ front,
            c.kind.frontValues = some front ∧
              values =
                front ++ topicValues pointType tagPath := by
  rcases plain_objectType hMem with ⟨hSlash, hBrace⟩
  have hLevels :
      LevelsMatch (Go.split c.address '/')
          (Go.split
            (valueTopic objectType pointType tagPath) '/')
          values ↔
        objectType.text = c.objectType ∧
          ∃ front,
            c.kind.frontValues = some front ∧
              values =
                front ++ topicValues pointType tagPath := by
    rw [split_address hSlash, split_valueTopic]
    cases c.kind with
    | value =>
        simp only [ChannelKind.front, List.cons_append,
          List.nil_append, ChannelKind.frontValues]
        rw [levelsMatch_literal_iff (by decide),
          levelsMatch_literal_iff (by decide),
          levelsMatch_literal_iff (by decide),
          levelsMatch_literal_iff (by decide),
          levelsMatch_rest_iff hBrace]
        simp
    | metadata =>
        simp only [ChannelKind.front, List.cons_append,
          List.nil_append, ChannelKind.frontValues]
        rw [levelsMatch_literal_iff (by decide),
          levelsMatch_literal_iff (by decide),
          levelsMatch_literal_iff (by decide),
          levelsMatch_literal_iff (by decide)]
        simp
    | integration =>
        simp only [ChannelKind.front, List.cons_append,
          List.nil_append, ChannelKind.frontValues]
        rw [levelsMatch_literal_iff (by decide),
          levelsMatch_literal_iff (by decide),
          levelsMatch_level_iff (by simp)]
        constructor
        · rintro ⟨_, _, others, rfl, hOthers⟩
          rw [levelsMatch_literal_iff (by decide),
            levelsMatch_rest_iff hBrace] at hOthers
          rcases hOthers with ⟨_, hFound, rfl⟩
          exact ⟨hFound, _, rfl, rfl⟩
        · rintro ⟨hFound, front, hFront, rfl⟩
          cases hFront
          refine ⟨rfl, rfl, _, rfl, ?_⟩
          rw [levelsMatch_literal_iff (by decide),
            levelsMatch_rest_iff hBrace]
          exact ⟨rfl, hFound, rfl⟩
  constructor
  · intro hMatch
    exact ⟨hMatch.concrete, hLevels.mp hMatch.levels⟩
  · rintro ⟨hConcrete, hRest⟩
    exact ⟨hConcrete, hLevels.mpr hRest⟩

end DummyBms

------------------------------------------------------------
-- Channels That Take A Value
------------------------------------------------------------

namespace DummyBms

open Go (Any)

variable {Schema : Type} {libs : Libraries Schema}
variable {document : Go.Map Any}
variable {objectType pointType : Level} {tagPath : String}
variable {name : String} {c : Channel} {value : Any}

/- The payload schema of value messages takes the value. -/
def ValueMessageTakes
    (libs : Libraries Schema)
    (document : Go.Map Any)
    (value : Any) : Prop :=
  ∃ schema,
    libs.compile bmsSchemaResource document
          (bmsSchemaResource ++
            "#/components/messages/ValueMessage/payload") =
        .ok schema ∧
      libs.validate schema value = .ok ()

/- Channels of values have this one message. -/
theorem messageTakes_iff
    (hMem : (name, c) ∈ bmsChannels)
    (hKind : c.kind ≠ .metadata) :
    MessageTakes libs document c.object value ↔
      ValueMessageTakes libs document value := by
  have hAll :
      ∀ c ∈ bmsChannels, c.2.kind ≠ .metadata →
        c.2.messages =
          [("valueMessage", "ValueMessage")] := by
    decide +kernel
  have hMessages :
      c.messages = [("valueMessage", "ValueMessage")] :=
    hAll _ hMem hKind
  have hField :
      mapField c.object "messages" =
        some (mapOf
          [("valueMessage", .map
            [("$ref", .string
              "#/components/messages/ValueMessage")])]) := by
    simp [mapField, Channel.object, Channel.fields, asMap,
      hMessages]
  have hLocation :
      bmsSchemaResource ++ "#/components/messages/" ++
          "ValueMessage" ++ "/payload" =
        bmsSchemaResource ++
          "#/components/messages/ValueMessage/payload" := by
    decide +kernel
  have hRef :
      ∀ other,
        "#/components/messages/ValueMessage" =
            "#/components/messages/" ++ other →
          other = "ValueMessage" := by
    intro other hSame
    have hForm :
        "#/components/messages/ValueMessage" =
          "#/components/messages/" ++ "ValueMessage" := by
      decide +kernel
    rw [hForm, String.append_right_inj] at hSame
    exact hSame.symm
  constructor
  · rintro ⟨messages, key, node, hSome, hNode, location,
      schema, ⟨message, other, hMessage, hString, hEq⟩,
      hTakes⟩
    rw [hField] at hSome
    cases hSome
    have hFound := mem_of_lookup_mapOf hNode
    simp only [List.mem_singleton, Prod.mk.injEq] at hFound
    rcases hFound with ⟨_, rfl⟩
    cases hMessage
    have hSame : other = "ValueMessage" := by
      apply hRef
      simpa [stringField, asString] using hString
    subst hSame
    rw [hEq, hLocation] at hTakes
    exact ⟨schema, hTakes⟩
  · rintro ⟨schema, hTakes⟩
    refine ⟨_, "valueMessage", _, hField, by simp; rfl, _,
      schema, ⟨_, "ValueMessage", rfl, ?_, hLocation.symm⟩,
      hTakes⟩
    simp [stringField, asString]

/-
  A channel takes a value under the BMS's own segment if its
  address fits there, it lists the point type, and the value
  is that of a value message which repeats the parameters.
-/
theorem acceptsThrough_iff
    (hMem : (name, c) ∈ bmsChannels) :
    AcceptsThrough libs document c.object
        (valueTopic objectType pointType tagPath) value ↔
      ConcreteTopic objectType pointType tagPath ∧
        objectType.text = c.objectType ∧
          pointType.text ∈ c.pointTypes ∧
            ValueMessageTakes libs document value ∧
              ∃ front,
                c.kind.frontValues = some front ∧
                  FieldsAgree
                    (front ++
                      topicValues pointType tagPath)
                    value := by
  have hDeclared :
      ∀ front, c.kind.frontValues = some front →
        ((∀ {name found},
          ParamValue
              (front ++ topicValues pointType tagPath)
              name found →
            ∀ {enumValues},
              DeclaredEnum c.object name enumValues →
                Any.string found ∈ enumValues) ↔
          pointType.text ∈ c.pointTypes) := by
    intro front hFront
    have hDistinct :
        ((front ++ topicValues pointType tagPath).map
          Prod.fst).Nodup := by
      cases hKind : c.kind <;> rw [hKind] at hFront <;>
        cases hFront <;> simp [topicValues]
    have hInjective :
        ∀ found : String,
          Any.string found ∈ c.pointTypes.map .string ↔
            found ∈ c.pointTypes := by
      intro found
      simp
    have hValue :
        ∀ found,
          ("pointType", found) ∈
              front ++ topicValues pointType tagPath ↔
            found = pointType.text := by
      intro found
      cases hKind : c.kind <;> rw [hKind] at hFront <;>
        cases hFront <;> simp [topicValues]
    simp only [paramValue_iff_mem hDistinct,
      Channel.declaredEnum_iff]
    constructor
    · intro hAll
      exact (hInjective _).mp
        (hAll ((hValue _).mpr rfl) ⟨rfl, rfl⟩)
    · rintro hPoint key found hFound enumValues ⟨rfl, rfl⟩
      rw [hInjective, (hValue _).mp hFound]
      exact hPoint
  have hKind :
      ∀ front, c.kind.frontValues = some front →
        c.kind ≠ .metadata := by
    intro front hFront hMetadata
    rw [hMetadata] at hFront
    cases hFront
  constructor
  · rintro ⟨values, hMatches, hMessage, hFields⟩
    rcases hMatches.address with ⟨address, hAddress, hMatch⟩
    rw [Channel.stringField_address] at hAddress
    cases hAddress
    rcases (addressMatch_iff hMem).mp hMatch with
      ⟨hConcrete, hObject, front, hFront, rfl⟩
    exact ⟨hConcrete, hObject,
      (hDeclared front hFront).mp hMatches.declared,
      (messageTakes_iff hMem (hKind front hFront)).mp
        hMessage,
      front, hFront, hFields⟩
  · rintro ⟨hConcrete, hObject, hPoint, hMessage, front,
      hFront, hFields⟩
    refine ⟨front ++ topicValues pointType tagPath, ?_,
      (messageTakes_iff hMem (hKind front hFront)).mpr
        hMessage,
      hFields⟩
    exact
      { address :=
          ⟨c.address, c.stringField_address,
            (addressMatch_iff hMem).mpr
              ⟨hConcrete, hObject, front, hFront, rfl⟩⟩
        declared := (hDeclared front hFront).mpr hPoint }

end DummyBms

------------------------------------------------------------
-- Publisher Separation
------------------------------------------------------------

namespace DummyBms

open Go (Any)

/- The point types of an object type that the BMS publishes. -/
def BmsPublished (objectType pointType : Level) : Prop :=
  ∃ c ∈ bmsChannels,
    c.2.kind = .value ∧
      c.2.objectType = objectType.text ∧
        pointType.text ∈ c.2.pointTypes

/- Those that the specification lets integrations publish. -/
def IntegrationPublished
    (objectType pointType : Level) : Prop :=
  ∃ c ∈ bmsChannels,
    c.2.kind = .integration ∧
      c.2.objectType = objectType.text ∧
        pointType.text ∈ c.2.pointTypes

instance (objectType pointType : Level) :
    Decidable (BmsPublished objectType pointType) :=
  inferInstanceAs (Decidable (∃ c ∈ bmsChannels, _))

instance (objectType pointType : Level) :
    Decidable (IntegrationPublished objectType pointType) :=
  inferInstanceAs (Decidable (∃ c ∈ bmsChannels, _))

variable {Schema : Type}

/-
  The payload is a value message for an integration named
  like the BMS's own segment: any of its fields that is named
  like a parameter repeats the topic.
-/
def IntegrationTakes
    (libs : Libraries Schema)
    (document : Go.Map Any)
    (objectType pointType : Level)
    (tagPath : String)
    (payload : List UInt8) : Prop :=
  ConcreteTopic objectType pointType tagPath ∧
    ∃ value,
      libs.unmarshalJSON payload = .ok value ∧
        ValueMessageTakes libs document value ∧
          FieldsAgree
            (("integration", "PUB") ::
              topicValues pointType tagPath)
            value

variable {libs : Libraries Schema}

/- Some execution of the loop's body accepts the message. -/
def AcceptedThrough
    (s : BMSSchema libs)
    (topic : String)
    (payload : List UInt8)
    (channel : Go.Map Any) : Prop :=
  ∃ orders value channels name node,
    libs.unmarshalJSON payload = .ok value ∧
      mapField s.spec "channels" = some channels ∧
        ⟨name, node⟩ ∈ channels.entries ∧
          asMap node = some channel ∧
            (BMSSchema.tryChannel orders topic value s
              ⟨name, node⟩).1 = .ok ()

/- The publisher segment of the address is the BMS's own. -/
def HasLiteralPUB (channel : Go.Map Any) : Prop :=
  ∃ address,
    stringField channel "address" = some address ∧
      (Go.split address '/')[2]? = some "PUB"

/- Only such channels accept the message. -/
def OnlyThroughPUB
    (s : BMSSchema libs)
    (topic : String)
    (payload : List UInt8) : Prop :=
  ∀ channel, AcceptedThrough s topic payload channel →
    HasLiteralPUB channel

variable {document : Go.Map Any}
variable {objectType pointType : Level} {tagPath : String}
variable {payload : List UInt8}

theorem acceptedThrough_iff
    {s : BMSSchema libs}
    {rest : List (String × Any)}
    {topic : String}
    {channel : Go.Map Any}
    (hSpec : s.spec = bmsDocument rest) :
    AcceptedThrough s topic payload channel ↔
      ∃ value name c,
        libs.unmarshalJSON payload = .ok value ∧
          (name, c) ∈ bmsChannels ∧
            channel = c.object ∧
              AcceptsThrough libs (bmsDocument rest) c.object
                topic value := by
  constructor
  · rintro ⟨orders, value, channels, name, node, hValue,
      hChannels, hEntry, hMap, hTry⟩
    have hFound : mapField channels name = some channel := by
      rw [mapField, AList.mem_lookup_iff.mpr hEntry]
      exact hMap
    rw [hSpec] at hChannels
    rcases mem_channels_bmsDocument_iff.mp
        ⟨channels, hChannels, hFound⟩ with
      ⟨c, hMem, rfl⟩
    rcases BMSSchema.tryChannel_ok_iff.mp hTry with
      ⟨other, hOther, hThrough⟩
    have hSame : c.object = other :=
      Option.some.inj (hMap.symm.trans hOther)
    rw [hSpec, ← hSame] at hThrough
    exact ⟨value, name, c, hValue, hMem, rfl, hThrough⟩
  · rintro ⟨value, name, c, hValue, hMem, rfl, hThrough⟩
    rcases mem_channels_bmsDocument_iff.mpr
        ⟨c, hMem, rfl⟩ with
      ⟨channels, hChannels, hFound⟩
    rcases Option.bind_eq_some_iff.mp hFound with
      ⟨node, hNode, hMap⟩
    rw [← hSpec] at hChannels hThrough
    exact ⟨listedOrders, value, channels, name, node, hValue,
      hChannels, AList.mem_lookup_iff.mp hNode, hMap,
      BMSSchema.tryChannel_ok_iff.mpr
        ⟨c.object, hMap, hThrough⟩⟩

/- The third level of an address tells the publisher. -/
theorem hasLiteralPUB_iff
    {name : String}
    {c : Channel}
    (hMem : (name, c) ∈ bmsChannels) :
    HasLiteralPUB c.object ↔ c.kind ≠ .integration := by
  unfold HasLiteralPUB
  simp only [Channel.stringField_address, Option.some.injEq,
    exists_eq_left', split_address (plain_objectType hMem).1]
  have hParam : param "integration" ≠ "PUB" := by decide
  cases c.kind <;> simp [ChannelKind.front, hParam]

/- An integration's channel accepts exactly such messages. -/
theorem integration_accepts_iff
    {rest : List (String × Any)} :
    (∃ value name c,
      libs.unmarshalJSON payload = .ok value ∧
        (name, c) ∈ bmsChannels ∧
          c.kind = .integration ∧
            AcceptsThrough libs (bmsDocument rest) c.object
              (valueTopic objectType pointType tagPath)
              value) ↔
      IntegrationPublished objectType pointType ∧
        IntegrationTakes libs (bmsDocument rest) objectType
          pointType tagPath payload := by
  constructor
  · rintro ⟨value, name, c, hValue, hMem, hKind, hThrough⟩
    rcases (acceptsThrough_iff hMem).mp hThrough with
      ⟨hConcrete, hObject, hPoint, hMessage, front, hFront,
        hFields⟩
    rw [hKind] at hFront
    cases hFront
    exact ⟨⟨(name, c), hMem, hKind, hObject.symm, hPoint⟩,
      hConcrete, value, hValue, hMessage, hFields⟩
  · rintro ⟨⟨⟨name, c⟩, hMem, hKind, hObject, hPoint⟩,
      hConcrete, value, hValue, hMessage, hFields⟩
    refine ⟨value, name, c, hValue, hMem, hKind, ?_⟩
    rw [acceptsThrough_iff hMem]
    exact ⟨hConcrete, hObject.symm, hPoint, hMessage,
      [("integration", "PUB")], by rw [hKind]; rfl, hFields⟩

/-
  Under the BMS's own segment, a message of a value is
  accepted only through the BMS's channels exactly when the
  integrations' channels do not list its point type or the
  payload is not for them; and only with a point type that
  the BMS publishes exactly when it is not one of those that
  are left to integrations, or the payload is not for them.
-/
theorem publishersSeparated_iff
    (libs : Libraries Schema)
    (rest : List (String × Any))
    (history : List Validation)
    (objectType pointType : Level)
    (tagPath : String)
    (payload : List UInt8) :
    (OnlyThroughPUB
          ((newBMSSchema libs (bmsDocument rest)).after
            history)
          (valueTopic objectType pointType tagPath)
          payload ↔
        ¬ (IntegrationPublished objectType pointType ∧
          IntegrationTakes libs (bmsDocument rest) objectType
            pointType tagPath payload)) ∧
      ((∀ orders,
          (((newBMSSchema libs (bmsDocument rest)).after
                history).validateMessage orders
              (valueTopic objectType pointType tagPath)
              payload).1 = .ok () →
            BmsPublished objectType pointType) ↔
        ¬ (IntegrationPublished objectType pointType ∧
          ¬ BmsPublished objectType pointType ∧
            IntegrationTakes libs (bmsDocument rest)
              objectType pointType tagPath payload)) := by
  have hSpec :
      ((newBMSSchema libs (bmsDocument rest)).after
          history).spec = bmsDocument rest := by
    rw [BMSSchema.after_spec]
    rfl
  constructor
  · rw [← integration_accepts_iff]
    constructor
    · rintro hOnly ⟨value, name, c, hValue, hMem, hKind,
        hThrough⟩
      have hAccepted :=
        (acceptedThrough_iff hSpec).mpr
          ⟨value, name, c, hValue, hMem, rfl, hThrough⟩
      exact (hasLiteralPUB_iff hMem).mp
        (hOnly _ hAccepted) hKind
    · intro hNone channel hAccepted
      rcases (acceptedThrough_iff hSpec).mp hAccepted with
        ⟨value, name, c, hValue, hMem, rfl, hThrough⟩
      rw [hasLiteralPUB_iff hMem]
      intro hKind
      exact hNone
        ⟨value, name, c, hValue, hMem, hKind, hThrough⟩
  · simp only [BMSSchema.validateMessage_ok_iff, hSpec]
    constructor
    · rintro hOnly ⟨hPublished, hNotBms, hTakes⟩
      rcases integration_accepts_iff.mpr
          ⟨hPublished, hTakes⟩ with
        ⟨value, name, c, hValue, hMem, _, hThrough⟩
      rcases mem_channels_bmsDocument_iff.mpr
          ⟨c, hMem, rfl⟩ with
        ⟨channels, hChannels, hFound⟩
      exact hNotBms
        (hOnly listedOrders ⟨value, channels, name, c.object,
          hValue, hChannels, hFound, hThrough⟩)
    · rintro hNone orders ⟨value, channels, name, channel,
        hValue, hChannels, hFound, hThrough⟩
      rcases mem_channels_bmsDocument_iff.mp
          ⟨channels, hChannels, hFound⟩ with
        ⟨c, hMem, rfl⟩
      rcases (acceptsThrough_iff hMem).mp hThrough with
        ⟨hConcrete, hObject, hPoint, hMessage, front, hFront,
          hFields⟩
      cases hKind : c.kind with
      | value =>
          exact ⟨(name, c), hMem, hKind, hObject.symm, hPoint⟩
      | metadata =>
          rw [hKind] at hFront
          cases hFront
      | integration =>
          by_contra hNotBms
          rcases integration_accepts_iff.mp
              ⟨value, name, c, hValue, hMem, hKind,
                hThrough⟩ with
            ⟨hPublished, hTakes⟩
          exact hNone ⟨hPublished, hNotBms, hTakes⟩

/- A level without separators. -/
def level
    (text : String)
    (hText : '/' ∉ text.toList := by decide) : Level :=
  ⟨text, hText⟩

/- A value message, and libraries that take it as one. -/
def readingText : String :=
  "\x7b\"value\":1,\"timestamp\":1,\"quality\":1\x7d"

def readingLibraries : Libraries Unit where
  unmarshalYAML := fun _ => .error "no YAML"
  unmarshalJSON := fun payload =>
    if payload = Go.bytes readingText then
      .ok (.map
        [("value", .other "1"), ("timestamp", .other "1"),
          ("quality", .other "1")])
    else
      .error "unexpected text"
  addResource := fun _ _ => .ok ()
  compile := fun _ _ _ => .ok ()
  validate := fun _ _ => .ok ()

/-
  The leak detection of a tray is left to integrations, and
  accepted as a value that the BMS itself publishes.
-/
theorem not_separated_rackLeakDetectTray :
    ¬ OnlyThroughPUB
          (newBMSSchema readingLibraries (bmsDocument []))
          (valueTopic (level "Rack")
            (level "RackLeakDetectTray") "tray-1")
          (Go.bytes readingText) ∧
      ((newBMSSchema readingLibraries
            (bmsDocument [])).validateMessage listedOrders
          (valueTopic (level "Rack")
            (level "RackLeakDetectTray") "tray-1")
          (Go.bytes readingText)).1 = .ok () ∧
        ¬ BmsPublished (level "Rack")
          (level "RackLeakDetectTray") := by
  have hConcrete :
      ConcreteTopic (level "Rack")
        (level "RackLeakDetectTray") "tray-1" := by
    unfold ConcreteTopic
    simp only [concreteLevel_iff]
    decide +kernel
  have hParsed :
      readingLibraries.unmarshalJSON (Go.bytes readingText) =
        .ok (.map
          [("value", .other "1"), ("timestamp", .other "1"),
            ("quality", .other "1")]) := by
    simp [readingLibraries]
  have hFields :
      FieldsAgree
        (("integration", "PUB") ::
          topicValues (level "RackLeakDetectTray") "tray-1")
        (.map
          [("value", .other "1"), ("timestamp", .other "1"),
            ("quality", .other "1")]) := by
    intro object hObject name want hWant field hField
    cases hObject
    rw [paramValue_iff_mem (by decide)] at hWant
    have hName :
        name ∈ ["integration", "pointType", "tagPath"] := by
      simp only [topicValues, List.mem_cons, Prod.mk.injEq]
        at hWant
      grind
    simp at hField
    grind
  have hTakes :
      IntegrationTakes readingLibraries (bmsDocument [])
        (level "Rack") (level "RackLeakDetectTray") "tray-1"
        (Go.bytes readingText) :=
    ⟨hConcrete, _, hParsed, ⟨(), rfl, rfl⟩, hFields⟩
  rcases integration_accepts_iff.mpr
      ⟨by decide +kernel, hTakes⟩ with
    ⟨value, name, c, hValue, hMem, hKind, hThrough⟩
  refine ⟨?_, ?_, by decide +kernel⟩
  · intro hOnly
    have hAccepted :
        AcceptedThrough
          (newBMSSchema readingLibraries (bmsDocument []))
          (valueTopic (level "Rack")
            (level "RackLeakDetectTray") "tray-1")
          (Go.bytes readingText) c.object :=
      (acceptedThrough_iff rfl).mpr
        ⟨value, name, c, hValue, hMem, rfl, hThrough⟩
    exact (hasLiteralPUB_iff hMem).mp
      (hOnly _ hAccepted) hKind
  · rcases mem_channels_bmsDocument_iff.mpr
        ⟨c, hMem, rfl⟩ with
      ⟨channels, hChannels, hFound⟩
    rw [BMSSchema.validateMessage_ok_iff]
    exact ⟨value, channels, name, c.object, hValue,
      hChannels, hFound, hThrough⟩

end DummyBms
