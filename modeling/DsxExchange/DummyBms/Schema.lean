import DsxExchange.DummyBms.TopicAddress
import DsxExchange.Go.Text

/-
  The validator of BMS messages: it holds an AsyncAPI
  document, and the schemas that it compiled from it so far.

  Loading JSON and YAML, compiling a schema and validating a
  value with it are libraries, and appear as a record of
  functions.

  Key definitions include:
    * `Go.Any`
    * `DummyBms.Libraries`, `DummyBms.BMSSchema`
    * `DummyBms.loadBMSSchema`
    * `DummyBms.BMSSchema.validateMessage`

  Key theorems include:
    * `DummyBms.validateChannelParams_ok_iff`
    * `DummyBms.validatePayloadTopicParameters_ok_iff`
    * `DummyBms.BMSSchema.compile_ok_iff`
-/

------------------------------------------------------------
-- Dynamic Values
------------------------------------------------------------

namespace Go

/-
  A value of type `any`, as decoders of JSON and YAML build
  it. Numbers, booleans, null and the rarer types are kept by
  a text only.
-/
inductive Any where
  | string (value : String)
  | slice (items : List Any)
  | map (fields : List (String × Any))
  | other (text : String)

end Go

namespace DummyBms

open Go (Any)

def asString : Any → Option String
| .string value => some value
| _ => none

def asSlice : Any → Option (List Any)
| .slice items => some items
| _ => none

/- The map of the given fields. -/
def mapOf (fields : List (String × Any)) : Go.Map Any :=
  (fields.map
    (fun f => (⟨f.1, f.2⟩ : Go.Entry Any))).toAList

def asMap : Any → Option (Go.Map Any)
| .map fields => some (mapOf fields)
| _ => none

@[simp] theorem lookup_mapOf_nil (key : String) :
    (mapOf []).lookup key = none :=
  rfl

@[simp] theorem lookup_mapOf_cons
    (name key : String)
    (value : Any)
    (fields : List (String × Any)) :
    (mapOf ((name, value) :: fields)).lookup key =
      if key = name then
        some value
      else
        (mapOf fields).lookup key := by
  unfold mapOf
  rw [AList.lookup_to_alist, AList.lookup_to_alist,
    List.map_cons]
  by_cases hKey : key = name
  · subst hKey
    rw [if_pos rfl, List.dlookup_cons_eq]
  · rw [if_neg hKey, List.dlookup_cons_ne _ _ hKey]

/- A field that is found is among those given. -/
theorem mem_of_lookup_mapOf
    {fields : List (String × Any)}
    {key : String}
    {value : Any}
    (hFound : (mapOf fields).lookup key = some value) :
    (key, value) ∈ fields := by
  induction fields with
  | nil => cases hFound
  | cons field fields ih =>
      rcases field with ⟨name, found⟩
      rw [lookup_mapOf_cons] at hFound
      by_cases hKey : key = name
      · rw [if_pos hKey] at hFound
        cases hFound
        rw [hKey]
        exact List.mem_cons_self
      · rw [if_neg hKey] at hFound
        exact List.mem_cons_of_mem _ (ih hFound)

/- With distinct names every field is found. -/
theorem lookup_mapOf_of_mem
    {fields : List (String × Any)}
    {key : String}
    {value : Any}
    (hDistinct : (fields.map Prod.fst).Nodup)
    (hMem : (key, value) ∈ fields) :
    (mapOf fields).lookup key = some value := by
  induction fields with
  | nil => cases hMem
  | cons field fields ih =>
      rcases field with ⟨name, found⟩
      rw [List.map_cons, List.nodup_cons] at hDistinct
      rw [lookup_mapOf_cons]
      rcases List.mem_cons.mp hMem with hHead | hTail
      · cases hHead
        rw [if_pos rfl]
      · have hKey : key ≠ name := by
          intro hSame
          apply hDistinct.1
          have hKeys :=
            List.mem_map_of_mem (f := Prod.fst) hTail
          rwa [hSame] at hKeys
        rw [if_neg hKey]
        exact ih hDistinct.2 hTail

/- `asMap(object[key])`, where a missing key gives nil. -/
def mapField
    (object : Go.Map Any)
    (key : String) : Option (Go.Map Any) :=
  (object.lookup key).bind asMap

/- `asSlice(object[key])`. -/
def sliceField
    (object : Go.Map Any)
    (key : String) : Option (List Any) :=
  (object.lookup key).bind asSlice

/- `asString(object[key])`. -/
def stringField
    (object : Go.Map Any)
    (key : String) : Option String :=
  (object.lookup key).bind asString

def joinErrors (validationErrors : List String) : String :=
  if validationErrors = [] then
    "no details"
  else if 3 < validationErrors.length then
    Go.joinWith "; "
      (validationErrors.take 3 ++
        ["... " ++ toString (validationErrors.length - 3) ++
          " more"])
  else
    Go.joinWith "; " validationErrors

end DummyBms

------------------------------------------------------------
-- Parameters
------------------------------------------------------------

namespace DummyBms

open Go (Any)

def enumContains
    (enumValues : List Any)
    (value : String) : Bool :=
  enumValues.any
    (fun enumValue => asString enumValue = some value)

/- The check of one parameter of the topic. -/
def checkChannelParam
    (parameters : Go.Map Any)
    (param : Go.Entry String) : Except String Unit :=
  match mapField parameters param.1 with
  | none => .ok ()
  | some parameter =>
      match sliceField parameter "enum" with
      | none => .ok ()
      | some enumValues =>
          if enumContains enumValues param.2 then
            .ok ()
          else
            .error ("topic parameter " ++ param.1 ++ "=" ++
              Go.quote param.2 ++ " is not in enum")

def validateChannelParams
    (order : Go.Iteration)
    (channel : Go.Map Any)
    (params : Params) : Except String Unit :=
  match mapField channel "parameters" with
  | none => .ok ()
  | some parameters =>
      Go.rangeCheck (checkChannelParam parameters)
        (order.entries params)

/- The check of the payload's field of one parameter. -/
def checkPayloadField
    (object : Go.Map Any)
    (param : Go.Entry String) : Except String Unit :=
  match object.lookup param.1 with
  | none => .ok ()
  | some value =>
      match asString value with
      | none =>
          .error ("payload " ++ param.1 ++
            " must be a string to match topic parameter")
      | some got =>
          if got ≠ param.2 then
            .error ("payload " ++ param.1 ++ " " ++
              Go.quote got ++
              " does not match topic parameter " ++
              Go.quote param.2)
          else
            .ok ()

def validatePayloadTopicParameters
    (order : Go.Iteration)
    (params : Params)
    (value : Any) : Except String Unit :=
  match asMap value with
  | none => .ok ()
  | some object =>
      Go.rangeCheck (checkPayloadField object)
        (order.entries params)

theorem enumContains_iff
    {enumValues : List Any}
    {value : String} :
    enumContains enumValues value = true ↔
      Any.string value ∈ enumValues := by
  rw [enumContains, List.any_eq_true]
  constructor
  · rintro ⟨enumValue, hMem, hValue⟩
    have hString := of_decide_eq_true hValue
    cases enumValue with
    | string text =>
        cases hString
        exact hMem
    | slice items => cases hString
    | map fields => cases hString
    | other text => cases hString
  · intro hMem
    exact ⟨_, hMem, by simp [asString]⟩

/- The values that a channel declares for a parameter. -/
def DeclaredEnum
    (channel : Go.Map Any)
    (name : String)
    (enumValues : List Any) : Prop :=
  ∃ parameters parameter,
    mapField channel "parameters" = some parameters ∧
      mapField parameters name = some parameter ∧
        sliceField parameter "enum" = some enumValues

theorem checkChannelParam_ok_iff
    {parameters : Go.Map Any}
    {param : Go.Entry String} :
    checkChannelParam parameters param = .ok () ↔
      ∀ parameter,
        mapField parameters param.1 = some parameter →
          ∀ enumValues,
            sliceField parameter "enum" = some enumValues →
              Any.string param.2 ∈ enumValues := by
  unfold checkChannelParam
  cases hParameter : mapField parameters param.1 with
  | none => simp
  | some parameter =>
      simp only [Option.some.injEq, forall_eq']
      cases hEnum : sliceField parameter "enum" with
      | none => simp
      | some enumValues =>
          simp only [Option.some.injEq, forall_eq',
            ← enumContains_iff]
          split <;> simp_all

/- Every value is among those its channel declares for it. -/
theorem validateChannelParams_ok_iff
    {order : Go.Iteration}
    {channel : Go.Map Any}
    {params : Params} :
    validateChannelParams order channel params = .ok () ↔
      ∀ name value, ⟨name, value⟩ ∈ params.entries →
        ∀ enumValues, DeclaredEnum channel name enumValues →
          Any.string value ∈ enumValues := by
  unfold validateChannelParams
  cases hParameters : mapField channel "parameters" with
  | none => simp [DeclaredEnum, hParameters]
  | some parameters =>
      simp only [Go.rangeCheck_ok_iff,
        Go.Iteration.mem_entries, checkChannelParam_ok_iff]
      constructor
      · rintro hAll name value hMem enumValues
          ⟨others, parameter, hOthers, hParameter, hEnum⟩
        rw [hParameters] at hOthers
        cases hOthers
        exact hAll _ hMem parameter hParameter enumValues
          hEnum
      · intro hAll param hMem parameter hParameter
          enumValues hEnum
        exact hAll _ _ hMem enumValues
          ⟨parameters, parameter, hParameters, hParameter,
            hEnum⟩

theorem checkPayloadField_ok_iff
    {object : Go.Map Any}
    {param : Go.Entry String} :
    checkPayloadField object param = .ok () ↔
      ∀ field, object.lookup param.1 = some field →
        field = .string param.2 := by
  unfold checkPayloadField
  cases hField : object.lookup param.1 with
  | none => simp
  | some field =>
      cases field with
      | string got =>
          by_cases hGot : got = param.2 <;>
            simp [asString, hGot]
      | slice items => simp [asString]
      | map fields => simp [asString]
      | other text => simp [asString]

/-
  Every field of an object payload that is named like a
  parameter of the topic has the parameter's value.
-/
theorem validatePayloadTopicParameters_ok_iff
    {order : Go.Iteration}
    {params : Params}
    {value : Any} :
    validatePayloadTopicParameters order params value =
        .ok () ↔
      ∀ object, asMap value = some object →
        ∀ name want, ⟨name, want⟩ ∈ params.entries →
          ∀ field, object.lookup name = some field →
            field = .string want := by
  unfold validatePayloadTopicParameters
  cases hObject : asMap value with
  | none => simp
  | some object =>
      simp only [Go.rangeCheck_ok_iff,
        Go.Iteration.mem_entries, checkPayloadField_ok_iff]
      constructor
      · rintro hAll other hSame name want hMem
        cases hSame
        exact hAll ⟨name, want⟩ hMem
      · intro hAll param hMem
        exact hAll object rfl param.1 param.2 hMem

end DummyBms

------------------------------------------------------------
-- The Validator
------------------------------------------------------------

namespace DummyBms

open Go (Any)

def defaultBMSSchemaPath : String :=
  "../../schemas/asyncapi/bms/bms.yaml"

def bmsSchemaResource : String :=
  "https://dsx.local/schemas/asyncapi/bms.yaml"

/- What the code calls in the YAML and JSON libraries. -/
structure Libraries (Schema : Type) where
  /- `yaml.Unmarshal` into a map. -/
  unmarshalYAML : List UInt8 → Except String (Go.Map Any)
  /- `jsonschema.UnmarshalJSON`. -/
  unmarshalJSON : List UInt8 → Except String Any
  /- `AddResource` of a new compiler. -/
  addResource : String → Go.Map Any → Except String Unit
  /- `Compile` of a compiler that holds one resource. -/
  compile :
    String → Go.Map Any → String → Except String Schema
  /- `Schema.Validate`. -/
  validate : Schema → Any → Except String Unit

variable {Schema : Type}

/-
  A validator. The compiler is the one that holds the
  document, and what is cached is what it compiles.
-/
structure BMSSchema (libs : Libraries Schema) where
  spec : Go.Map Any
  compiled : Go.Table String Schema
  coherent :
    ∀ {location schema},
      compiled location = some schema →
        libs.compile bmsSchemaResource spec location =
          .ok schema

variable {libs : Libraries Schema}

/- A validator that has compiled nothing yet. -/
def newBMSSchema
    (libs : Libraries Schema)
    (spec : Go.Map Any) : BMSSchema libs where
  spec := spec
  compiled := .empty
  coherent := by
    intro location schema hFound
    cases hFound

def loadBMSSchema
    (libs : Libraries Schema)
    (readFile : String → Except String (List UInt8))
    (path : String) : Except String (BMSSchema libs) :=
  match readFile path with
  | .error err =>
      .error ("failed to read BMS schema " ++
        Go.quote path ++ ": " ++ err)
  | .ok data =>
      match libs.unmarshalYAML data with
      | .error err =>
          .error ("failed to parse BMS schema " ++
            Go.quote path ++ ": " ++ err)
      | .ok spec =>
          match libs.addResource bmsSchemaResource spec with
          | .error err =>
              .error ("failed to add BMS schema resource: " ++
                err)
          | .ok () => .ok (newBMSSchema libs spec)

namespace BMSSchema

/- The validator with one more schema in its cache. -/
def store
    (s : BMSSchema libs)
    (location : String)
    (schema : Schema)
    (hCompile :
      libs.compile bmsSchemaResource s.spec location =
        .ok schema) : BMSSchema libs where
  spec := s.spec
  compiled :=
    Function.update s.compiled location (some schema)
  coherent := by
    intro other found hFound
    by_cases hOther : other = location
    · subst hOther
      rw [Function.update_self] at hFound
      cases hFound
      exact hCompile
    · rw [Function.update_of_ne hOther] at hFound
      exact s.coherent hFound

def compile
    (s : BMSSchema libs)
    (location : String) :
    Except String Schema × BMSSchema libs :=
  match s.compiled location with
  | some schema => (.ok schema, s)
  | none =>
      match hCompile :
          libs.compile bmsSchemaResource s.spec location with
      | .error err =>
          (.error ("failed to compile " ++ location ++ ": " ++
            err), s)
      | .ok schema =>
          (.ok schema, s.store location schema hCompile)

/- What is compiled does not depend on the cache. -/
theorem compile_ok_iff
    {s : BMSSchema libs}
    {location : String}
    {schema : Schema} :
    (s.compile location).1 = .ok schema ↔
      libs.compile bmsSchemaResource s.spec location =
        .ok schema := by
  unfold compile
  split
  next found hCached => rw [s.coherent hCached]
  next =>
    split
    next err hCompile => simp [hCompile]
    next found hCompile => simp [hCompile]

@[simp] theorem compile_spec
    (s : BMSSchema libs)
    (location : String) :
    (s.compile location).2.spec = s.spec := by
  unfold compile
  split
  · rfl
  · split <;> rfl

end BMSSchema

end DummyBms

------------------------------------------------------------
-- Messages
------------------------------------------------------------

namespace DummyBms

open Go (Any)

def messagePayloadSchemaLocation
    (messageNode : Any) : Except String String :=
  match asMap messageNode with
  | none => .error "message node is not an object"
  | some message =>
      match stringField message "$ref" with
      | none => .error "message node has no $ref"
      | some ref =>
          if Go.hasPrefix ref "#/components/messages/" then
            .ok (bmsSchemaResource ++ "#" ++
              Go.trimPrefix ref "#" ++ "/payload")
          else
            .error ("unsupported message ref " ++
              Go.quote ref)

/-
  The orders in which the loops of one call range over the
  maps: every execution of a loop has its own.
-/
structure MessageOrders where
  messages : Go.Iteration
  payloadParams : String → Go.Iteration

structure Orders where
  channels : Go.Iteration
  channelParams : String → Go.Iteration
  ofChannel : String → MessageOrders

/- All loops range over the maps as they are listed. -/
def listedOrders : Orders where
  channels := .listed
  channelParams := fun _ => .listed
  ofChannel := fun _ =>
    { messages := .listed
      payloadParams := fun _ => .listed }

variable {Schema : Type} {libs : Libraries Schema}

namespace BMSSchema

/- The body of the loop over the messages of a channel. -/
def tryMessage
    (orders : MessageOrders)
    (params : Params)
    (value : Any)
    (s : BMSSchema libs)
    (message : Go.Entry Any) :
    Except String Unit × BMSSchema libs :=
  let failed := fun err => message.1 ++ ": " ++ err
  match messagePayloadSchemaLocation message.2 with
  | .error err => (.error (failed err), s)
  | .ok location =>
      match s.compile location with
      | (.error err, s) => (.error (failed err), s)
      | (.ok schema, s) =>
          match libs.validate schema value with
          | .error err => (.error (failed err), s)
          | .ok () =>
              match validatePayloadTopicParameters
                  (orders.payloadParams message.1) params
                  value with
              | .error err => (.error (failed err), s)
              | .ok () => (.ok (), s)

def validateChannelMessages
    (s : BMSSchema libs)
    (orders : MessageOrders)
    (channel : Go.Map Any)
    (params : Params)
    (value : Any) : Except String Unit × BMSSchema libs :=
  match mapField channel "messages" with
  | none => (.error "channel has no messages", s)
  | some messages =>
      Go.reportFailures
        (fun validationErrors =>
          "no channel message matched: " ++
            joinErrors validationErrors)
        (Go.rangeUntil (tryMessage orders params value) s
          (orders.messages.entries messages))

end BMSSchema

/- How one channel does not take a message. -/
inductive Refusal where
  /- Passed over: the topic is not for this channel. -/
  | skipped
  /- The address matches, but not the parameters. -/
  | unmatched (err : String)
  /- The channel is counted as a match. -/
  | invalid (err : String)

/- The text recorded for a refusal, if any. -/
def Refusal.text? : Refusal → Option String
| .skipped => none
| .unmatched err => some err
| .invalid err => some err

/- The refusal of a channel that counts as a match. -/
def Refusal.isMatch : Refusal → Bool
| .invalid _ => true
| _ => false

namespace BMSSchema

/- The body of the loop over the channels. -/
def tryChannel
    (orders : Orders)
    (topic : String)
    (value : Any)
    (s : BMSSchema libs)
    (entry : Go.Entry Any) :
    Except Refusal Unit × BMSSchema libs :=
  let failed := fun err => entry.1 ++ ": " ++ err
  match asMap entry.2 with
  | none => (.error .skipped, s)
  | some channel =>
      match stringField channel "address" with
      | none => (.error .skipped, s)
      | some address =>
          match matchTopicAddress address topic with
          | none => (.error .skipped, s)
          | some params =>
              match validateChannelParams
                  (orders.channelParams entry.1) channel
                  params with
              | .error err =>
                  (.error (.unmatched (failed err)), s)
              | .ok () =>
                  match s.validateChannelMessages
                      (orders.ofChannel entry.1) channel
                      params value with
                  | (.ok (), s) => (.ok (), s)
                  | (.error err, s) =>
                      (.error (.invalid (failed err)), s)

/- The error for a topic that no channel took. -/
def refusalText
    (topic : String)
    (refusals : List Refusal) : String :=
  let validationErrors := refusals.filterMap Refusal.text?
  let matchedChannels := refusals.countP Refusal.isMatch
  if matchedChannels = 0 then
    "topic " ++ Go.quote topic ++
      " does not match any BMS schema channel: " ++
      joinErrors validationErrors
  else
    "payload for topic " ++ Go.quote topic ++
      " does not match BMS schema: " ++
      joinErrors validationErrors

def validateMessage
    (s : BMSSchema libs)
    (orders : Orders)
    (topic : String)
    (payload : List UInt8) :
    Except String Unit × BMSSchema libs :=
  match libs.unmarshalJSON payload with
  | .error err => (.error ("payload must be JSON: " ++ err), s)
  | .ok value =>
      match mapField s.spec "channels" with
      | none => (.error "BMS schema has no channels", s)
      | some channels =>
          Go.reportFailures (refusalText topic)
            (Go.rangeUntil (tryChannel orders topic value) s
              (orders.channels.entries channels))

end BMSSchema

end DummyBms
