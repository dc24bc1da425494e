import DsxExchange.Go.Routines

/-
  The benchmark scenarios, as goroutines whose turns depend
  on the brokers' answers, on tickers and on the user.

  Key definitions include:
    * `Mqttbs.Config`, `Mqttbs.validate`
    * `Mqttbs.Event`
    * `Mqttbs.connection10K`
    * `Mqttbs.fanOut1K`
    * `Mqttbs.Publishing`, `Mqttbs.fanIn1K`,
      `Mqttbs.pointToPoint1K`
    * `Mqttbs.Scenario.Panics`
-/

------------------------------------------------------------
-- Configuration
------------------------------------------------------------

namespace Mqttbs

open Go

/- The numbers among the flags of `run`. -/
structure Config where
  publishRate : ℤ
  messageSize : ℤ
  connectionClients : ℤ
  connectionRate : ℤ
  fanOutSubscribers : ℤ
  p2pClients : ℤ
  fanInPublishers : ℤ
  fanInSubscribers : ℤ
  fanInTopics : ℤ
deriving DecidableEq, Repr

/- The validation of `runCmd`. -/
def validate (config : Config) : Except String Unit :=
  if config.messageSize < 8 then
    .error "message size must be at least 8 bytes"
  else if config.connectionClients ≤ 0 ∨
      config.connectionRate ≤ 0 ∨
      config.fanOutSubscribers ≤ 0 ∨
      config.p2pClients ≤ 0 ∨
      config.fanInPublishers ≤ 0 ∨
      config.fanInSubscribers ≤ 0 ∨
      config.fanInTopics ≤ 0 then
    .error "scenario scale values must be positive"
  else
    .ok ()

/- `time.Second`. -/
def second : ℤ := 1000000000

/-
  What a goroutine is told next. A tick says whether the end
  time has passed and whether the message that is published
  then is taken.
-/
inductive Event where
  | cancelled
  | ready
  | connected (ok : Bool)
  | subscribed (ok : Bool)
  | tick (late published : Bool)
  | message (payload : List UInt8)
deriving DecidableEq, Repr

/- The test for a note after every hundredth client. -/
def progress (i : ℤ) : Except Panic Unit :=
  (remainder (i + 1) 100).map fun _ => ()

/-
  `make([]mqtt.Client, n)`, where `false` is `nil`. A slice
  that is too long for the memory is taken to be made.
-/
def makeClients (n : ℤ) : List Bool :=
  List.replicate n.toNat false

/-
  A payload, up to the slice that takes the time stamp. Its
  size is taken to fit into the memory, too.
-/
def makePayload (messageSize : ℤ) :
    Except Panic (List UInt8) := do
  let payload := List.replicate messageSize.toNat 0
  let _ ← sliceTo payload 8
  return payload

/- The message handler of a subscriber. -/
def handleMessage (payload : List UInt8) :
    Except Panic Unit := do
  if payload.length ≥ 8 then
    let _ ← sliceTo payload 8

end Mqttbs

------------------------------------------------------------
-- Connections
------------------------------------------------------------

namespace Mqttbs

open Go

namespace Connection10K

/- The client list and the pending dials. -/
structure Shared where
  clients : List Bool
  pending : ℕ

inductive Point where
  | begin
  | connecting (i : ℤ)
  | dialing (clientID : ℤ)
  | waiting
  | holding
  | disconnecting (i : ℤ)

/- One turn of `Connection10K.Run` or of a dial. -/
def step (config : Config) (s : Shared) :
    Point → Event → Except Panic (Shared × List Point)
| .begin, _ => do
    let period ← quotient second config.connectionRate
    newTicker period
    return (s, [.connecting 0])
| .connecting i, event =>
    if i < config.connectionClients then
      match event with
      | .cancelled => .ok (s, [])
      | .tick _ _ => do
          progress i
          return ({ s with pending := s.pending + 1 },
            [.connecting (i + 1), .dialing i])
      | _ => .ok (s, [.connecting i])
    else
      .ok (s, [.waiting])
| .dialing clientID, .connected true => do
    let clients ← setAt s.clients clientID true
    return ({ clients := clients, pending := s.pending - 1 },
      [])
| .dialing _, .connected false =>
    .ok ({ s with pending := s.pending - 1 }, [])
| .dialing clientID, _ => .ok (s, [.dialing clientID])
| .waiting, _ =>
    if s.pending = 0 then
      .ok (s, [.holding])
    else
      .ok (s, [.waiting])
| .holding, .cancelled => .ok (s, [.disconnecting 0])
| .holding, .tick _ _ => .ok (s, [.disconnecting 0])
| .holding, _ => .ok (s, [.holding])
| .disconnecting i, _ =>
    if i < s.clients.length then do
      let _ ← getAt s.clients i
      progress i
      return (s, [.disconnecting (i + 1)])
    else
      .ok (s, [])

def start (config : Config) : Shared × List Point :=
  (⟨makeClients config.connectionClients, 0⟩, [.begin])

end Connection10K

/- `Connection10K`. -/
def connection10K (config : Config) :
    Routines Connection10K.Shared Connection10K.Point Event :=
  ⟨Connection10K.step config⟩

end Mqttbs

------------------------------------------------------------
-- One Publisher
------------------------------------------------------------

namespace Mqttbs

open Go

namespace FanOut1K

structure Shared where
  subscribers : List Bool

inductive Point where
  | connectSubscriber (i : ℤ)
  | subscribe (i : ℤ)
  | handler
  | connectPublisher
  | startTicker
  | publishing (messageCount : ℤ)
  | draining
  | disconnecting (i : ℤ)

/- One turn of `FanOut1K.Run` or of a message handler. -/
def step (config : Config) (s : Shared) :
    Point → Event → Except Panic (Shared × List Point)
| .connectSubscriber i, event =>
    if i < config.fanOutSubscribers then
      match event with
      | .cancelled => .ok (s, [])
      | .connected false => .ok (s, [])
      | .connected true => do
          let subscribers ← setAt s.subscribers i true
          return (⟨subscribers⟩, [.subscribe i, .handler])
      | _ => .ok (s, [.connectSubscriber i])
    else
      .ok (s, [.connectPublisher])
| .subscribe _, .subscribed false => .ok (s, [])
| .subscribe i, .subscribed true => do
    progress i
    return (s, [.connectSubscriber (i + 1)])
| .subscribe i, _ => .ok (s, [.subscribe i])
| .handler, .message payload => do
    handleMessage payload
    return (s, [.handler])
| .handler, _ => .ok (s, [.handler])
| .connectPublisher, .connected false => .ok (s, [])
| .connectPublisher, .connected true =>
    .ok (s, [.startTicker])
| .connectPublisher, _ => .ok (s, [.connectPublisher])
| .startTicker, _ => do
    let period ← quotient second config.publishRate
    newTicker period
    return (s, [.publishing 0])
| .publishing _, .cancelled => .ok (s, [.draining])
| .publishing _, .tick true _ => .ok (s, [.draining])
| .publishing messageCount, .tick false published => do
    let _ ← makePayload config.messageSize
    let count :=
      if published then messageCount + 1 else messageCount
    let _ ← remainder count 100
    return (s, [.publishing count])
| .publishing messageCount, _ =>
    .ok (s, [.publishing messageCount])
| .draining, .ready => .ok (s, [.disconnecting 0])
| .draining, _ => .ok (s, [.draining])
| .disconnecting i, _ =>
    if i < s.subscribers.length then do
      let _ ← getAt s.subscribers i
      progress i
      return (s, [.disconnecting (i + 1)])
    else
      .ok (s, [])

def start (config : Config) : Shared × List Point :=
  (⟨makeClients config.fanOutSubscribers⟩,
    [.connectSubscriber 0])

end FanOut1K

/- `FanOut1K`. -/
def fanOut1K (config : Config) :
    Routines FanOut1K.Shared FanOut1K.Point Event :=
  ⟨FanOut1K.step config⟩

end Mqttbs

------------------------------------------------------------
-- Many Publishers
------------------------------------------------------------

namespace Mqttbs

open Go

/-
  What the two scenarios with a goroutine for each publisher
  take from the flags: the topic of a publisher, and what is
  noted after a subscriber.
-/
structure Publishing where
  numSubscribers : ℤ
  numPublishers : ℤ
  msgRate : ℤ
  messageSize : ℤ
  topicNumber : ℤ → Except Panic ℤ
  noteSubscriber : ℤ → Except Panic Unit

namespace Publishing

structure Shared where
  subscribers : List Bool
  publishers : List Bool
  pending : ℕ

inductive Point where
  | connectSubscriber (i : ℤ)
  | subscribe (i : ℤ)
  | handler
  | connectPublisher (i : ℤ)
  | startPublisher (i : ℤ)
  | publisher (pubIdx : ℤ)
  | publishing (pubIdx messageCount : ℤ)
  | monitoring
  | waiting
  | draining
  | disconnectPublisher (i : ℤ)
  | disconnectSubscriber (i : ℤ)

/-
  One turn of `Run`, of a message handler or of the goroutine
  of a publisher.
-/
def step (values : Publishing) (s : Shared) :
    Point → Event → Except Panic (Shared × List Point)
| .connectSubscriber i, event =>
    if i < values.numSubscribers then
      match event with
      | .cancelled => .ok (s, [])
      | .connected false => .ok (s, [])
      | .connected true => do
          let subscribers ← setAt s.subscribers i true
          return ({ s with subscribers := subscribers },
            [.subscribe i, .handler])
      | _ => .ok (s, [.connectSubscriber i])
    else
      .ok (s, [.connectPublisher 0])
| .subscribe _, .subscribed false => .ok (s, [])
| .subscribe i, .subscribed true => do
    values.noteSubscriber i
    return (s, [.connectSubscriber (i + 1)])
| .subscribe i, _ => .ok (s, [.subscribe i])
| .handler, .message payload => do
    handleMessage payload
    return (s, [.handler])
| .handler, _ => .ok (s, [.handler])
| .connectPublisher i, event =>
    if i < values.numPublishers then
      match event with
      | .cancelled => .ok (s, [])
      | .connected false => .ok (s, [])
      | .connected true => do
          let publishers ← setAt s.publishers i true
          progress i
          return ({ s with publishers := publishers },
            [.connectPublisher (i + 1)])
      | _ => .ok (s, [.connectPublisher i])
    else
      .ok (s, [.startPublisher 0])
| .startPublisher i, _ =>
    if i < values.numPublishers then
      .ok ({ s with pending := s.pending + 1 },
        [.startPublisher (i + 1), .publisher i])
    else do
      newTicker (10 * second)
      return (s, [.monitoring])
| .publisher pubIdx, _ => do
    let _ ← values.topicNumber pubIdx
    let period ← quotient second values.msgRate
    newTicker period
    return (s, [.publishing pubIdx 0])
| .publishing _ _, .cancelled =>
    .ok ({ s with pending := s.pending - 1 }, [])
| .publishing _ _, .tick true _ =>
    .ok ({ s with pending := s.pending - 1 }, [])
| .publishing pubIdx messageCount, .tick false published => do
    let _ ← makePayload values.messageSize
    let _ ← getAt s.publishers pubIdx
    let count :=
      if published then messageCount + 1 else messageCount
    return (s, [.publishing pubIdx count])
| .publishing pubIdx messageCount, _ =>
    .ok (s, [.publishing pubIdx messageCount])
| .monitoring, .cancelled => .ok (s, [.waiting])
| .monitoring, .tick true _ => .ok (s, [.waiting])
| .monitoring, _ => .ok (s, [.monitoring])
| .waiting, _ =>
    if s.pending = 0 then
      .ok (s, [.draining])
    else
      .ok (s, [.waiting])
| .draining, .ready => .ok (s, [.disconnectPublisher 0])
| .draining, _ => .ok (s, [.draining])
| .disconnectPublisher i, _ =>
    if i < s.publishers.length then do
      let _ ← getAt s.publishers i
      progress i
      return (s, [.disconnectPublisher (i + 1)])
    else
      .ok (s, [.disconnectSubscriber 0])
| .disconnectSubscriber i, _ =>
    if i < s.subscribers.length then do
      let _ ← getAt s.subscribers i
      values.noteSubscriber i
      return (s, [.disconnectSubscriber (i + 1)])
    else
      .ok (s, [])

def start (values : Publishing) : Shared × List Point :=
  ({ subscribers := makeClients values.numSubscribers
     publishers := makeClients values.numPublishers
     pending := 0 },
    [.connectSubscriber 0])

def routines (values : Publishing) :
    Routines Shared Point Event :=
  ⟨step values⟩

end Publishing

/- `FanIn1K`. -/
def fanIn1K (config : Config) : Publishing where
  numSubscribers := config.fanInSubscribers
  numPublishers := config.fanInPublishers
  msgRate := config.publishRate
  messageSize := config.messageSize
  topicNumber := fun pubIdx =>
    (remainder pubIdx config.fanInTopics).map (· + 1)
  noteSubscriber := fun _ => .ok ()

/- `PointToPoint1K`. -/
def pointToPoint1K (config : Config) : Publishing where
  numSubscribers := config.p2pClients
  numPublishers := config.p2pClients
  msgRate := config.publishRate
  messageSize := config.messageSize
  topicNumber := fun pubIdx => .ok (pubIdx + 1)
  noteSubscriber := progress

end Mqttbs

------------------------------------------------------------
-- The Scenarios
------------------------------------------------------------

namespace Mqttbs

open Go

/- The scenarios that `runScenario` selects from. -/
inductive Scenario where
  | connection10K
  | fanOut1K
  | pointToPoint1K
  | fanIn1K
deriving DecidableEq, Repr

/- Some run of the scenario comes to panic. -/
def Scenario.Panics (config : Config) : Scenario → Prop
| .connection10K =>
    (Mqttbs.connection10K config).Crashes
      (Connection10K.start config)
| .fanOut1K =>
    (Mqttbs.fanOut1K config).Crashes (FanOut1K.start config)
| .pointToPoint1K =>
    (Mqttbs.pointToPoint1K config).routines.Crashes
      (Mqttbs.pointToPoint1K config).start
| .fanIn1K =>
    (Mqttbs.fanIn1K config).routines.Crashes
      (Mqttbs.fanIn1K config).start

end Mqttbs
