import DsxExchange.Mqttbs.Scenarios
import Mathlib.Algebra.Group.Int.Defs
import Mathlib.Algebra.Group.Nat.Defs
import Mathlib.Data.List.Induction
import Mathlib.Data.List.Nodup
import Mathlib.Data.List.Perm.Subperm
import Mathlib.Logic.Relation

/-
  The end of a benchmark: messages that are published, the
  deliveries of the broker in any order, and the loop that
  waits for them and compares two counters.

  Key definitions include:
    * `Mqttbs.Traffic`, `Mqttbs.Traffic.Step`
    * `Mqttbs.Traffic.BreaksEarly`, `Mqttbs.Traffic.Complete`
    * `Mqttbs.drainFanOut`, `Mqttbs.drainPointToPoint`,
      `Mqttbs.drainFanIn`

  Key theorems include:
    * `Mqttbs.Traffic.neverShort_iff`
    * `Mqttbs.drain_iff`
-/

------------------------------------------------------------
-- The Drain Loop
------------------------------------------------------------

namespace Mqttbs

/- A `uint64` counter after so many increments. -/
def counter (n : ℕ) : ℕ :=
  n % 2 ^ 64

/-
  What a scenario subscribes to and publishes, and what its
  drain loop expects to receive for a number of messages.
-/
structure Traffic where
  publishers : ℕ
  subscribers : ℕ
  subscription : ℕ → List Char
  topic : ℕ → List Char
  expected : ℕ → ℕ

namespace Traffic

/-
  The publisher of each message, the deliveries as a message
  and a subscriber, and the last snapshot of the drain loop,
  as published and received messages.
-/
structure State where
  published : List ℕ
  delivered : List (ℕ × ℕ)
  draining : Bool
  snap : Option (ℕ × ℕ)
deriving DecidableEq, Repr

def start : State :=
  ⟨[], [], false, none⟩

/- The subscription of the subscriber matches the message. -/
def Due
    (traffic : Traffic)
    (matching : List Char → List Char → Bool)
    (published : List ℕ)
    (delivery : ℕ × ℕ) : Prop :=
  ∃ publisher, published[delivery.1]? = some publisher ∧
    delivery.2 < traffic.subscribers ∧
    matching (traffic.subscription delivery.2)
      (traffic.topic publisher) = true

/- The drain loop breaks before its time is over. -/
def BreaksEarly (traffic : Traffic) (s : State) : Prop :=
  ∃ snap, s.snap = some snap ∧
    traffic.expected snap.1 ≤ snap.2

/- Every message has come to every subscriber that it matches. -/
def Complete
    (traffic : Traffic)
    (matching : List Char → List Char → Bool)
    (s : State) : Prop :=
  ∀ delivery, traffic.Due matching s.published delivery →
    delivery ∈ s.delivered

/-
  A message is published, a message is delivered, publishing
  comes to its end, or the drain loop takes a snapshot.
-/
inductive Step
    (traffic : Traffic)
    (matching : List Char → List Char → Bool) :
    State → State → Prop
  | publish
      {s : State}
      {publisher : ℕ}
      (hPublishing : s.draining = false)
      (hPublisher : publisher < traffic.publishers) :
      Step traffic matching s
        { s with published := s.published ++ [publisher] }
  | deliver
      {s : State}
      {delivery : ℕ × ℕ}
      (hDue : traffic.Due matching s.published delivery)
      (hNew : delivery ∉ s.delivered) :
      Step traffic matching s
        { s with delivered := s.delivered ++ [delivery] }
  | drain
      {s : State}
      (hPublishing : s.draining = false) :
      Step traffic matching s { s with draining := true }
  | poll
      {s : State}
      (hDraining : s.draining = true)
      (hRuns : ¬ traffic.BreaksEarly s) :
      Step traffic matching s
        { s with
          snap :=
            some (counter s.published.length,
              counter s.delivered.length) }

def Reachable
    (traffic : Traffic)
    (matching : List Char → List Char → Bool)
    (s : State) : Prop :=
  Relation.ReflTransGen (Step traffic matching) start s

/-
  However the messages are delivered, the drain loop breaks
  only when all of them are.
-/
def NeverShort
    (traffic : Traffic)
    (matching : List Char → List Char → Bool)
    (published : List ℕ) : Prop :=
  ∀ s, traffic.Reachable matching s →
    s.published = published →
      traffic.BreaksEarly s → traffic.Complete matching s

end Traffic

end Mqttbs

------------------------------------------------------------
-- The Scenarios
------------------------------------------------------------

namespace Mqttbs

/- `fmt.Sprintf("test/%s/%s", runID, name)`. -/
def topicOf (runID name : List Char) : List Char :=
  "test/".toList ++ runID ++ '/' :: name

/- `%d`, for a number that is not negative. -/
def decimal (n : ℕ) : List Char :=
  Nat.toDigits 10 n

/- `uint64(n)`. -/
def toUint64 (n : ℤ) : ℕ :=
  (n % 2 ^ 64).toNat

/- The drain loop of `FanOut1K.Run`. -/
def drainFanOut (config : Config) (runID : List Char) : Traffic where
  publishers := 1
  subscribers := config.fanOutSubscribers.toNat
  subscription := fun _ => topicOf runID "fanout".toList
  topic := fun _ => topicOf runID "fanout".toList
  expected := fun published =>
    published * toUint64 config.fanOutSubscribers % 2 ^ 64

/- The drain loop of `PointToPoint1K.Run`. -/
def drainPointToPoint
    (config : Config)
    (runID : List Char) : Traffic where
  publishers := config.p2pClients.toNat
  subscribers := config.p2pClients.toNat
  subscription := fun i => topicOf runID (decimal (i + 1))
  topic := fun pubIdx => topicOf runID (decimal (pubIdx + 1))
  expected := fun published => published

/- The drain loop of `FanIn1K.Run`. -/
def drainFanIn (config : Config) (runID : List Char) : Traffic where
  publishers := config.fanInPublishers.toNat
  subscribers := config.fanInSubscribers.toNat
  subscription := fun _ => topicOf runID "#".toList
  topic := fun pubIdx =>
    topicOf runID
      (decimal
        ((pubIdx : ℤ).tmod config.fanInTopics + 1).toNat)
  expected := fun published => published

/- The scenarios with a drain loop. -/
inductive Drained where
  | fanOut
  | pointToPoint
  | fanIn
deriving DecidableEq, Repr

def Drained.traffic
    (config : Config)
    (runID : List Char) : Drained → Traffic
| .fanOut => drainFanOut config runID
| .pointToPoint => drainPointToPoint config runID
| .fanIn => drainFanIn config runID

/-
  The numbers of messages at which what the loop expects is
  what is due.
-/
def Drained.ExpectsAll (config : Config) (n : ℕ) : Drained → Prop
| .fanOut => n * config.fanOutSubscribers.toNat < 2 ^ 64
| .pointToPoint => n < 2 ^ 64
| .fanIn =>
    n = 0 ∨ config.fanInSubscribers ≤ 0 ∨
      (config.fanInSubscribers = 1 ∧ n < 2 ^ 64)

end Mqttbs

------------------------------------------------------------
-- What Is Due
------------------------------------------------------------

namespace Mqttbs.Traffic

variable {traffic : Traffic}
variable {matching : List Char → List Char → Bool}

/- The subscribers that a message is due at. -/
def receivers
    (traffic : Traffic)
    (matching : List Char → List Char → Bool)
    (publisher : ℕ) : List ℕ :=
  (List.range traffic.subscribers).filter fun subscriber =>
    matching (traffic.subscription subscriber)
      (traffic.topic publisher)

/- All deliveries that are due. -/
def due
    (traffic : Traffic)
    (matching : List Char → List Char → Bool)
    (published : List ℕ) : List (ℕ × ℕ) :=
  published.zipIdx.flatMap fun message =>
    (traffic.receivers matching message.1).map fun subscriber =>
      (message.2, subscriber)

theorem mem_due_iff
    {published : List ℕ}
    {delivery : ℕ × ℕ} :
    delivery ∈ traffic.due matching published ↔
      traffic.Due matching published delivery := by
  rcases delivery with ⟨message, subscriber⟩
  unfold due Due receivers
  simp only [List.mem_flatMap, List.mem_map, List.mem_filter,
    List.mem_range, Prod.mk.injEq, Prod.exists,
    List.mem_zipIdx_iff_getElem?]
  constructor
  · rintro ⟨publisher, index, hMessage, subscriber', hMatch, rfl, rfl⟩
    exact ⟨publisher, hMessage, hMatch⟩
  · rintro ⟨publisher, hMessage, hMatch⟩
    exact ⟨publisher, message, hMessage, subscriber, hMatch,
      rfl, rfl⟩

theorem nodup_due
    (traffic : Traffic)
    (matching : List Char → List Char → Bool)
    (published : List ℕ) :
    (traffic.due matching published).Nodup := by
  unfold due
  rw [List.nodup_flatMap]
  constructor
  · intro message _
    apply List.Nodup.map
    · intro subscriber subscriber' hSame
      exact (Prod.mk.inj hSame).2
    · exact List.nodup_range.filter _
  · have hIndices : (published.zipIdx.map Prod.snd).Nodup := by
      rw [List.zipIdx_map_snd]
      exact List.nodup_range'
    apply (List.pairwise_map.mp hIndices).imp
    intro message message' hDiffers delivery hMem hMem'
    rcases List.mem_map.mp hMem with ⟨_, _, rfl⟩
    rcases List.mem_map.mp hMem' with ⟨_, _, hSame⟩
    exact hDiffers (Prod.mk.inj hSame).1.symm

/- Messages with as many receivers each are due so often. -/
theorem length_due
    {published : List ℕ}
    {n : ℕ}
    (hReceivers :
      ∀ publisher ∈ published,
        (traffic.receivers matching publisher).length = n) :
    (traffic.due matching published).length =
      published.length * n := by
  have hEach :
      published.zipIdx.map
          (fun message =>
            ((traffic.receivers matching message.1).map
              fun subscriber => (message.2, subscriber)).length) =
        List.replicate published.length n := by
    rw [← List.length_zipIdx (l := published) (i := 0),
      ← List.map_const']
    apply List.map_congr_left
    intro message hMem
    rw [List.length_map]
    exact hReceivers _ (List.fst_mem_of_mem_zipIdx hMem)
  rw [due, List.length_flatMap, hEach, List.sum_replicate_nat]

end Mqttbs.Traffic

------------------------------------------------------------
-- When the Loop Breaks
------------------------------------------------------------

namespace Mqttbs.Traffic

variable {traffic : Traffic}
variable {matching : List Char → List Char → Bool}

theorem counter_le (n : ℕ) : counter n ≤ n :=
  Nat.mod_le n _

/-
  What holds in every state of a run. A snapshot is taken when
  all is published, and some of the deliveries are made.
-/
structure Sound
    (traffic : Traffic)
    (matching : List Char → List Char → Bool)
    (s : State) : Prop where
  once : s.delivered.Nodup
  asDue : ∀ delivery ∈ s.delivered,
    traffic.Due matching s.published delivery
  snapshot :
    ∀ snap, s.snap = some snap →
      s.draining = true ∧
        snap.1 = counter s.published.length ∧
        snap.2 ≤ s.delivered.length

/- A message stays due when others are published. -/
theorem Due.append
    {published : List ℕ}
    {delivery : ℕ × ℕ}
    (hDue : traffic.Due matching published delivery)
    (publisher : ℕ) :
    traffic.Due matching (published ++ [publisher]) delivery := by
  rcases hDue with ⟨publisher', hMessage, hMatch⟩
  have hBound := (List.getElem?_eq_some_iff.mp hMessage).1
  exact ⟨publisher',
    by rw [List.getElem?_append_left hBound, hMessage], hMatch⟩

theorem Sound.step
    {s s' : State}
    (hSound : traffic.Sound matching s)
    (hStep : Step traffic matching s s') :
    traffic.Sound matching s' := by
  cases hStep with
  | publish hPublishing hPublisher =>
      refine ⟨hSound.once, ?_, ?_⟩
      · exact fun delivery hMem =>
          (hSound.asDue delivery hMem).append _
      · intro snap hSnap
        have hDraining := (hSound.snapshot snap hSnap).1
        rw [hPublishing] at hDraining
        cases hDraining
  | deliver hDue hNew =>
      refine ⟨?_, ?_, ?_⟩
      · rw [← List.concat_eq_append]
        exact hSound.once.concat hNew
      · intro delivery hMem
        rcases List.mem_append.mp hMem with hOld | hLast
        · exact hSound.asDue delivery hOld
        · rw [List.mem_singleton.mp hLast]
          exact hDue
      · intro snap hSnap
        rcases hSound.snapshot snap hSnap with
          ⟨hDraining, hPublished, hReceived⟩
        refine ⟨hDraining, hPublished,
          Nat.le_trans hReceived ?_⟩
        simp
  | drain hPublishing =>
      refine ⟨hSound.once, hSound.asDue, ?_⟩
      intro snap hSnap
      exact ⟨rfl, (hSound.snapshot snap hSnap).2⟩
  | poll hDraining hRuns =>
      refine ⟨hSound.once, hSound.asDue, ?_⟩
      intro snap hSnap
      cases hSnap
      exact ⟨hDraining, rfl, counter_le _⟩

theorem sound_of_reachable
    {s : State}
    (hReach : traffic.Reachable matching s) :
    traffic.Sound matching s := by
  induction hReach with
  | refl =>
      exact ⟨List.nodup_nil,
        fun delivery hMem => absurd hMem List.not_mem_nil,
        fun snap hSnap => by cases hSnap⟩
  | tail _ hStep ih => exact ih.step hStep

/- All is delivered once as much is delivered as is due. -/
theorem Sound.complete
    {s : State}
    (hSound : traffic.Sound matching s)
    (hAll :
      (traffic.due matching s.published).length ≤
        s.delivered.length) :
    traffic.Complete matching s := by
  have hSubset :
      s.delivered ⊆ traffic.due matching s.published :=
    fun delivery hMem =>
      mem_due_iff.mpr (hSound.asDue delivery hMem)
  have hPerm :=
    (hSound.once.subperm hSubset).perm_of_length_le hAll
  intro delivery hDue
  exact hPerm.mem_iff.mpr (mem_due_iff.mpr hDue)

/- The messages are published before the loop is entered. -/
theorem reachable_published
    {published : List ℕ}
    (hPublishers :
      ∀ publisher ∈ published, publisher < traffic.publishers) :
    traffic.Reachable matching ⟨published, [], false, none⟩ := by
  induction published using List.reverseRecOn with
  | nil => exact .refl
  | append_singleton published publisher ih =>
      have hBefore :=
        ih fun p hMem =>
          hPublishers p (List.mem_append_left _ hMem)
      have hLast : publisher < traffic.publishers :=
        hPublishers publisher (by simp)
      exact hBefore.tail (.publish rfl hLast)

/- Of what is due, any first part can be what is delivered. -/
theorem reachable_delivered
    {published : List ℕ}
    (hPublishers :
      ∀ publisher ∈ published, publisher < traffic.publishers)
    {delivered : List (ℕ × ℕ)}
    (hPrefix :
      delivered <+: traffic.due matching published) :
    traffic.Reachable matching
      ⟨published, delivered, true, none⟩ := by
  induction delivered using List.reverseRecOn with
  | nil =>
      exact (reachable_published hPublishers).tail (.drain rfl)
  | append_singleton delivered delivery ih =>
      have hBefore :=
        ih ((List.prefix_append _ _).trans hPrefix)
      have hDue :
          traffic.Due matching published delivery :=
        mem_due_iff.mp (hPrefix.subset (by simp))
      have hNew : delivery ∉ delivered := by
        have hNodup :=
          hPrefix.sublist.nodup
            (nodup_due traffic matching published)
        rw [List.nodup_append] at hNodup
        intro hMem
        exact hNodup.2.2 delivery hMem delivery (by simp) rfl
      exact hBefore.tail (.deliver hDue hNew)

/-
  The loop never breaks too soon exactly when it expects at
  least what is due.
-/
theorem neverShort_iff
    {published : List ℕ}
    (hPublishers :
      ∀ publisher ∈ published, publisher < traffic.publishers)
    (hExpected :
      traffic.expected (counter published.length) < 2 ^ 64) :
    traffic.NeverShort matching published ↔
      (traffic.due matching published).length ≤
        traffic.expected (counter published.length) := by
  constructor
  · intro hNever
    by_contra hLess
    rw [Nat.not_le] at hLess
    have hLength :
        ((traffic.due matching published).take
          (traffic.expected
            (counter published.length))).length =
          traffic.expected (counter published.length) :=
      List.length_take_of_le (Nat.le_of_lt hLess)
    have hBefore :
        traffic.Reachable matching
          ⟨published,
            (traffic.due matching published).take
              (traffic.expected (counter published.length)),
            true, none⟩ :=
      reachable_delivered hPublishers (List.take_prefix _ _)
    have hRuns :
        ¬ traffic.BreaksEarly
          ⟨published,
            (traffic.due matching published).take
              (traffic.expected (counter published.length)),
            true, none⟩ := by
      rintro ⟨snap, hSnap, _⟩
      cases hSnap
    have hBreaks :=
      hNever _ (hBefore.tail (.poll rfl hRuns)) rfl
        ⟨_, rfl, by
          rw [hLength, counter, counter]
          exact Nat.le_of_eq (Nat.mod_eq_of_lt hExpected).symm⟩
    have hAll :
        traffic.due matching published ⊆
          (traffic.due matching published).take
            (traffic.expected (counter published.length)) :=
      fun delivery hMem => hBreaks delivery (mem_due_iff.mp hMem)
    have hMost :=
      ((nodup_due traffic matching published).subperm
        hAll).length_le
    omega
  · rintro hMost s hReach rfl ⟨snap, hSnap, hBreaks⟩
    have hSound := sound_of_reachable hReach
    rcases hSound.snapshot snap hSnap with
      ⟨_, hPublished, hReceived⟩
    rw [hPublished] at hBreaks
    exact hSound.complete
      (Nat.le_trans hMost (Nat.le_trans hBreaks hReceived))

end Mqttbs.Traffic

------------------------------------------------------------
-- Topics
------------------------------------------------------------

namespace Mqttbs

/- A topic that is no pattern. -/
def NoWildcard (topic : List Char) : Prop :=
  '+' ∉ topic ∧ '#' ∉ topic

/-
  How a broker matches a subscription to a topic: without a
  wildcard only to itself, and with `#` to all that is below.
-/
structure TopicRules
    (matching : List Char → List Char → Bool) : Prop where
  exact :
    ∀ subscription topic, NoWildcard subscription →
      (matching subscription topic = true ↔
        topic = subscription)
  below :
    ∀ level name, NoWildcard level → NoWildcard name →
      matching (level ++ "/#".toList) (level ++ '/' :: name) =
        true

theorem noWildcard_append
    {s t : List Char} :
    NoWildcard (s ++ t) ↔ NoWildcard s ∧ NoWildcard t := by
  unfold NoWildcard
  simp only [List.mem_append, not_or]
  exact ⟨fun h => ⟨⟨h.1.1, h.2.1⟩, h.1.2, h.2.2⟩,
    fun h => ⟨⟨h.1.1, h.2.1⟩, h.1.2, h.2.2⟩⟩

theorem noWildcard_decimal (n : ℕ) : NoWildcard (decimal n) := by
  constructor <;>
    intro hMem <;>
    have hDigit := Nat.isDigit_of_mem_toDigits (by decide) (by decide) hMem <;>
    cases hDigit

theorem decimal_inj
    {n m : ℕ} :
    decimal n = decimal m ↔ n = m := by
  constructor
  · intro hSame
    have hValue := congrArg (Nat.ofDigitChars 10 · 0) hSame
    simpa [decimal] using hValue
  · exact congrArg decimal

theorem topicOf_inj
    {runID name name' : List Char} :
    topicOf runID name = topicOf runID name' ↔ name = name' := by
  constructor
  · intro hSame
    exact List.tail_eq_of_cons_eq (List.append_cancel_left hSame)
  · exact congrArg (topicOf runID)

theorem noWildcard_topicOf
    {runID name : List Char}
    (hRun : NoWildcard runID)
    (hName : NoWildcard name) :
    NoWildcard (topicOf runID name) := by
  have hSlash : NoWildcard ('/' :: name) := by
    simpa [NoWildcard] using hName
  have hFront : NoWildcard ("test/".toList ++ runID) :=
    noWildcard_append.mpr
      ⟨by unfold NoWildcard; decide, hRun⟩
  exact noWildcard_append.mpr ⟨hFront, hSlash⟩

end Mqttbs

------------------------------------------------------------
-- The Loop of Each Scenario
------------------------------------------------------------

namespace Mqttbs

variable {matching : List Char → List Char → Bool}
variable {config : Config}
variable {runID : List Char}

/- Where all subscriptions match, all subscribers receive. -/
theorem receivers_of_all
    {traffic : Traffic}
    {publisher : ℕ}
    (hAll :
      ∀ subscriber,
        matching (traffic.subscription subscriber)
          (traffic.topic publisher) = true) :
    (traffic.receivers matching publisher).length =
      traffic.subscribers := by
  unfold Traffic.receivers
  rw [List.filter_eq_self.mpr fun subscriber _ => hAll subscriber,
    List.length_range]

theorem receivers_fanOut
    (hRules : TopicRules matching)
    (hRun : NoWildcard runID)
    (publisher : ℕ) :
    ((drainFanOut config runID).receivers matching
        publisher).length =
      config.fanOutSubscribers.toNat := by
  apply receivers_of_all
  intro subscriber
  have hTopic : NoWildcard (topicOf runID "fanout".toList) :=
    noWildcard_topicOf hRun (by unfold NoWildcard; decide)
  exact (hRules.exact _ _ hTopic).mpr rfl

theorem receivers_fanIn
    (hRules : TopicRules matching)
    (hRun : NoWildcard runID)
    (publisher : ℕ) :
    ((drainFanIn config runID).receivers matching
        publisher).length =
      config.fanInSubscribers.toNat := by
  apply receivers_of_all
  intro subscriber
  have hLevel : NoWildcard ("test/".toList ++ runID) :=
    noWildcard_append.mpr ⟨by unfold NoWildcard; decide, hRun⟩
  exact hRules.below _ _ hLevel (noWildcard_decimal _)

/- The topic of a publisher is that of one subscriber. -/
theorem receivers_pointToPoint
    (hRules : TopicRules matching)
    (hRun : NoWildcard runID)
    {publisher : ℕ}
    (hPublisher : publisher < config.p2pClients.toNat) :
    ((drainPointToPoint config runID).receivers matching
        publisher).length =
      1 := by
  have hMatch :
      ∀ subscriber,
        matching
            ((drainPointToPoint config runID).subscription
              subscriber)
            ((drainPointToPoint config runID).topic publisher) =
          true ↔
          subscriber = publisher := by
    intro subscriber
    have hTopic :
        NoWildcard
          ((drainPointToPoint config runID).subscription
            subscriber) :=
      noWildcard_topicOf hRun (noWildcard_decimal _)
    rw [hRules.exact _ _ hTopic]
    simp only [drainPointToPoint, topicOf_inj, decimal_inj]
    omega
  have hOne :
      ((drainPointToPoint config runID).receivers matching
          publisher).Perm [publisher] := by
    unfold Traffic.receivers
    rw [List.perm_ext_iff_of_nodup
      (List.nodup_range.filter _) (List.nodup_singleton _)]
    intro subscriber
    rw [List.mem_filter, List.mem_range, hMatch,
      List.mem_singleton]
    constructor
    · exact And.right
    · rintro rfl
      exact ⟨hPublisher, rfl⟩
  exact hOne.length_eq

theorem le_mod_iff
    {n : ℕ} :
    n ≤ n % 2 ^ 64 ↔ n < 2 ^ 64 := by
  have hMod := Nat.mod_lt n (by decide : 0 < 2 ^ 64)
  constructor
  · intro hLess
    omega
  · intro hLess
    exact Nat.le_of_eq (Nat.mod_eq_of_lt hLess).symm

theorem fanOut_due_le_iff
    (n : ℕ)
    (clients : ℤ) :
    n * clients.toNat ≤
        counter n * toUint64 clients % 2 ^ 64 ↔
      n * clients.toNat < 2 ^ 64 := by
  by_cases hNegative : clients ≤ 0
  · rw [Int.toNat_of_nonpos hNegative, Nat.mul_zero]
    simp
  · have hClients :
        toUint64 clients = clients.toNat % 2 ^ 64 := by
      unfold toUint64
      omega
    rw [hClients, counter, ← Nat.mul_mod, le_mod_iff]

theorem fanIn_due_le_iff
    (n : ℕ)
    (clients : ℤ) :
    n * clients.toNat ≤ counter n ↔
      n = 0 ∨ clients ≤ 0 ∨ (clients = 1 ∧ n < 2 ^ 64) := by
  have hMod := Traffic.counter_le n
  by_cases hNone : n = 0
  · simp [hNone]
  by_cases hNegative : clients ≤ 0
  · simp [hNegative, Int.toNat_of_nonpos hNegative]
  by_cases hOne : clients = 1
  · rw [hOne, Int.toNat_one, Nat.mul_one, counter, le_mod_iff]
    omega
  · have hTwo : 2 ≤ clients.toNat := by omega
    have hMore : n * 2 ≤ n * clients.toNat :=
      Nat.mul_le_mul_left n hTwo
    simp only [hNone, hNegative, hOne, false_and, or_false,
      iff_false, Nat.not_le]
    omega

/-
  In no order of deliveries does a drain loop break before all
  is received, exactly at these numbers of messages.
-/
theorem drain_iff
    (hRules : TopicRules matching)
    (hRun : NoWildcard runID)
    (scenario : Drained)
    {published : List ℕ}
    (hPublishers :
      ∀ publisher ∈ published,
        publisher < (scenario.traffic config runID).publishers) :
    (scenario.traffic config runID).NeverShort matching
        published ↔
      scenario.ExpectsAll config published.length := by
  have hCounter : counter published.length < 2 ^ 64 :=
    Nat.mod_lt _ (by decide)
  cases scenario <;>
    dsimp only [Drained.traffic] at hPublishers ⊢
  case fanOut =>
      rw [Traffic.neverShort_iff hPublishers
          (Nat.mod_lt _ (by decide)),
        Traffic.length_due fun publisher _ =>
          receivers_fanOut hRules hRun publisher]
      exact fanOut_due_le_iff _ _
  case pointToPoint =>
      rw [Traffic.neverShort_iff hPublishers hCounter,
        Traffic.length_due fun publisher hMem =>
          receivers_pointToPoint hRules hRun
            (hPublishers publisher hMem),
        Nat.mul_one]
      exact le_mod_iff
  case fanIn =>
      rw [Traffic.neverShort_iff hPublishers hCounter,
        Traffic.length_due fun publisher _ =>
          receivers_fanIn hRules hRun publisher]
      exact fanIn_due_le_iff _ _

end Mqttbs

------------------------------------------------------------
-- A Broker
------------------------------------------------------------

namespace Mqttbs

/- Level by level, with `+` for one and `#` for all others. -/
def matchesLevels : List (List Char) → List (List Char) → Bool
| [['#']], _ => true
| [], [] => true
| pattern :: patterns, level :: levels =>
    (pattern == ['+'] || pattern == level) &&
      matchesLevels patterns levels
| _, _ => false

def mqttMatching (subscription topic : List Char) : Bool :=
  matchesLevels (subscription.splitOn '/') (topic.splitOn '/')

theorem mem_of_mem_splitOn
    {s part : List Char}
    {c : Char}
    (hPart : part ∈ s.splitOn '/')
    (hChar : c ∈ part) :
    c ∈ s := by
  have hJoined :
      ∀ parts : List (List Char),
        part ∈ parts → c ∈ ['/'].intercalate parts := by
    intro parts hMem
    induction parts with
    | nil => cases hMem
    | cons first rest ih =>
        cases rest with
        | nil =>
            rw [← List.mem_singleton.mp hMem]
            simpa using hChar
        | cons next others =>
            rw [List.intercalate_cons_cons]
            rcases List.mem_cons.mp hMem with rfl | hRest
            · simp [hChar]
            · exact List.mem_append_right _ (ih hRest)
  have hText : ['/'].intercalate (s.splitOn '/') = s :=
    List.intercalate_splitOn '/'
  rw [← hText]
  exact hJoined _ hPart

theorem matchesLevels_iff
    {patterns levels : List (List Char)}
    (hPatterns : ∀ pattern ∈ patterns, NoWildcard pattern) :
    matchesLevels patterns levels = true ↔ levels = patterns := by
  induction patterns generalizing levels with
  | nil => cases levels <;> simp [matchesLevels]
  | cons pattern patterns ih =>
      have hFirst := hPatterns pattern List.mem_cons_self
      have hPlus : pattern ≠ ['+'] := by
        rintro rfl
        exact hFirst.1 List.mem_cons_self
      have hHash : pattern ≠ ['#'] := by
        rintro rfl
        exact hFirst.2 List.mem_cons_self
      cases levels with
      | nil => simp [matchesLevels, hHash]
      | cons level levels =>
          have hRest :
              matchesLevels patterns levels = true ↔
                levels = patterns :=
            ih fun p hMem =>
              hPatterns p (List.mem_cons_of_mem _ hMem)
          rw [matchesLevels]
          · rw [Bool.and_eq_true, hRest, Bool.or_eq_true,
              beq_iff_eq, beq_iff_eq, or_iff_right hPlus,
              List.cons.injEq, eq_comm]
          · intro hSame
            exact absurd hSame hHash

theorem matchesLevels_below
    {patterns : List (List Char)}
    (hPatterns : ∀ pattern ∈ patterns, NoWildcard pattern)
    (levels : List (List Char)) :
    matchesLevels (patterns ++ [['#']]) (patterns ++ levels) =
      true := by
  induction patterns with
  | nil => rfl
  | cons pattern patterns ih =>
      rw [List.cons_append, List.cons_append, matchesLevels]
      · simp [ih fun p hMem =>
          hPatterns p (List.mem_cons_of_mem _ hMem)]
      · intro _ hNil
        simp at hNil

theorem topicRules_mqttMatching : TopicRules mqttMatching where
  exact := by
    intro subscription topic hPlain
    have hParts :
        ∀ part ∈ subscription.splitOn '/', NoWildcard part :=
      fun part hPart =>
        ⟨fun hMem => hPlain.1 (mem_of_mem_splitOn hPart hMem),
          fun hMem => hPlain.2 (mem_of_mem_splitOn hPart hMem)⟩
    rw [mqttMatching, matchesLevels_iff hParts]
    constructor
    · intro hSame
      have hText : ['/'].intercalate (topic.splitOn '/') = topic :=
        List.intercalate_splitOn '/'
      rw [← hText, hSame, List.intercalate_splitOn]
    · rintro rfl
      rfl
  below := by
    intro level name hPlain _
    have hParts :
        ∀ part ∈ level.splitOn '/', NoWildcard part :=
      fun part hPart =>
        ⟨fun hMem => hPlain.1 (mem_of_mem_splitOn hPart hMem),
          fun hMem => hPlain.2 (mem_of_mem_splitOn hPart hMem)⟩
    have hBelow :
        (level ++ "/#".toList).splitOn '/' =
          level.splitOn '/' ++ [['#']] :=
      List.splitOn_append_cons_self _ _
    rw [mqttMatching, hBelow, List.splitOn_append_cons_self]
    exact matchesLevels_below hParts _

/- The flags of `NewConfig`. -/
def newConfig : Config where
  publishRate := 1
  messageSize := 16
  connectionClients := 10000
  connectionRate := 100
  fanOutSubscribers := 1000
  p2pClients := 1000
  fanInPublishers := 1000
  fanInSubscribers := 5
  fanInTopics := 1000

theorem drain_iff_twoMessages :
    (Drained.pointToPoint.traffic newConfig
        "5f0c-9a".toList).NeverShort mqttMatching [0, 999] ↔
      Drained.pointToPoint.ExpectsAll newConfig 2 := by
  have hPublishers :
      ∀ publisher ∈ [0, 999],
        publisher <
          (Drained.pointToPoint.traffic newConfig
            "5f0c-9a".toList).publishers := by
    decide
  exact drain_iff topicRules_mqttMatching
    (by unfold NoWildcard; decide) .pointToPoint hPublishers

/-
  With five subscribers the loop of the fan-in breaks when the
  first of them has received the only message.
-/
theorem not_neverShort_fanIn :
    ¬ (Drained.fanIn.traffic newConfig
        "5f0c-9a".toList).NeverShort mqttMatching [0] := by
  have hPublishers :
      ∀ publisher ∈ [0],
        publisher <
          (drainFanIn newConfig "5f0c-9a".toList).publishers := by
    decide
  have hRun : NoWildcard "5f0c-9a".toList := by
    unfold NoWildcard
    decide
  intro hNever
  have hMost :=
    (Traffic.neverShort_iff hPublishers (by decide)).mp hNever
  rw [Traffic.length_due fun publisher _ =>
    receivers_fanIn topicRules_mqttMatching hRun publisher]
    at hMost
  revert hMost
  decide

end Mqttbs
