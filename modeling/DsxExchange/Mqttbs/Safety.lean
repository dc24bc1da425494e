import DsxExchange.Mqttbs.Scenarios

/-
  Which of the runs that the command line accepts are free
  of panics.

  Key definitions include:
    * `Mqttbs.Config.rate`

  Key theorems include:
    * `Mqttbs.Connection10K.not_crashes`
    * `Mqttbs.FanOut1K.not_crashes`
    * `Mqttbs.Publishing.not_crashes`
    * `Mqttbs.not_panics_iff`
-/

------------------------------------------------------------
-- Single Operations
------------------------------------------------------------

namespace Mqttbs

open Go

/- The rate by which a scenario divides the second. -/
def Config.rate (config : Config) : Scenario → ℤ
| .connection10K => config.connectionRate
| .fanOut1K => config.publishRate
| .pointToPoint1K => config.publishRate
| .fanIn1K => config.publishRate

theorem progress_ok (i : ℤ) : progress i = .ok () := by
  unfold progress
  rw [remainder_of_ne_zero (by omega)]
  rfl

theorem length_makeClients (n : ℤ) :
    (makeClients n).length = n.toNat :=
  List.length_replicate

theorem makePayload_ok
    {messageSize : ℤ}
    (hSize : 8 ≤ messageSize) :
    ∃ payload, makePayload messageSize = .ok payload := by
  have hBound :
      8 ≤ (List.replicate messageSize.toNat
        (0 : UInt8)).length := by
    rw [List.length_replicate]
    omega
  refine ⟨List.replicate messageSize.toNat 0, ?_⟩
  simp only [makePayload, sliceTo_of_le hBound]
  rfl

/- The handler slices a payload only when it is long enough. -/
theorem handleMessage_ok (payload : List UInt8) :
    handleMessage payload = .ok () := by
  unfold handleMessage
  split
  · rename_i hBound
    rw [sliceTo_of_le hBound]
    rfl
  · rfl

/- The period of a rate between one and a thousand million. -/
theorem ticker_ok
    {rate : ℤ}
    (hRate : 0 < rate ∧ rate ≤ second) :
    quotient second rate = .ok (second.tdiv rate) ∧
      newTicker (second.tdiv rate) = .ok () := by
  have hBoth := (tdiv_pos_iff (by decide)).mpr hRate
  exact ⟨quotient_of_ne_zero hBoth.1,
    newTicker_of_pos hBoth.2⟩

/- Any other rate panics before or at the ticker. -/
theorem ticker_error
    {rate : ℤ}
    (hRate : ¬ (0 < rate ∧ rate ≤ second))
    {α : Type}
    (next : Except Panic α) :
    ∃ panic,
      (do
        let period ← quotient second rate
        newTicker period
        next) = .error panic := by
  rw [← tdiv_pos_iff (by decide), not_and_or, not_not] at hRate
  by_cases hZero : rate = 0
  · refine ⟨.divideByZero, ?_⟩
    rw [hZero]
    rfl
  · rcases hRate with hEq | hPeriod
    · exact absurd hEq hZero
    · refine ⟨.nonPositiveInterval, ?_⟩
      rw [quotient_of_ne_zero hZero]
      have hTicker :
          newTicker (second.tdiv rate) =
            .error .nonPositiveInterval :=
        if_pos (by omega)
      change (newTicker (second.tdiv rate) >>= fun _ => next) =
        _
      rw [hTicker]
      rfl

/- What the validation lets through. -/
structure Valid (config : Config) : Prop where
  messageSize : 8 ≤ config.messageSize
  connectionClients : 0 < config.connectionClients
  connectionRate : 0 < config.connectionRate
  fanOutSubscribers : 0 < config.fanOutSubscribers
  p2pClients : 0 < config.p2pClients
  fanInPublishers : 0 < config.fanInPublishers
  fanInSubscribers : 0 < config.fanInSubscribers
  fanInTopics : 0 < config.fanInTopics

theorem valid_of_ok
    {config : Config}
    (hOk : validate config = .ok ()) :
    Valid config := by
  unfold validate at hOk
  split at hOk
  · cases hOk
  · split at hOk
    · cases hOk
    · rename_i hSize hScale
      simp only [not_or, Int.not_le] at hScale
      constructor <;> omega

end Mqttbs

------------------------------------------------------------
-- Connections
------------------------------------------------------------

namespace Mqttbs

open Go

namespace Connection10K

variable {config : Config}

/- The client list has its length. -/
def Allocated (config : Config) (s : Shared) : Prop :=
  s.clients.length = config.connectionClients.toNat

/- A client's index is in the list. -/
def Fine (config : Config) : Point → Prop
| .connecting i => 0 ≤ i
| .dialing clientID =>
    0 ≤ clientID ∧ clientID < config.connectionClients
| .disconnecting i => 0 ≤ i
| _ => True

theorem keeps_step
    (hRate :
      0 < config.connectionRate ∧
        config.connectionRate ≤ second)
    (s : Shared)
    (point : Point)
    (event : Event)
    (hShared : Allocated config s)
    (hPoint : Fine config point) :
    Keeps (Allocated config) (Fine config)
      (step config s point event) := by
  cases point with
  | begin =>
      apply keeps_bind (ticker_ok hRate).1
      apply keeps_bind (ticker_ok hRate).2
      exact keeps_ok hShared (by simp [Fine])
  | connecting i =>
      have hLow : 0 ≤ i := hPoint
      simp only [step]
      split
      · rename_i hHigh
        split
        · exact keeps_ok hShared (by simp)
        · apply keeps_bind (progress_ok i)
          have hNext :
              Allocated config ⟨s.clients, s.pending + 1⟩ :=
            hShared
          apply keeps_ok hNext
          simp only [List.forall_mem_cons]
          exact ⟨by simp only [Fine]; omega,
            ⟨hLow, hHigh⟩, by simp⟩
        · exact keeps_ok hShared (by simpa [Fine] using hLow)
      · exact keeps_ok hShared (by simp [Fine])
  | dialing clientID =>
      have hShared' := hShared
      unfold Allocated at hShared'
      have hHigh : clientID < s.clients.length := by
        have hIndex := hPoint.2
        omega
      cases event with
      | connected ok =>
          cases ok with
          | false => exact keeps_ok hShared (by simp)
          | true =>
              apply keeps_bind
                (setAt_of_lt hPoint.1 hHigh true)
              apply keeps_ok
              · unfold Allocated
                rw [List.length_set]
                exact hShared
              · simp
      | cancelled => exact keeps_ok hShared (by simpa)
      | ready => exact keeps_ok hShared (by simpa)
      | subscribed ok => exact keeps_ok hShared (by simpa)
      | tick late published =>
          exact keeps_ok hShared (by simpa)
      | message payload => exact keeps_ok hShared (by simpa)
  | waiting =>
      simp only [step]
      split
      · exact keeps_ok hShared (by simp [Fine])
      · exact keeps_ok hShared (by simp [Fine])
  | holding =>
      cases event <;> exact keeps_ok hShared (by simp [Fine])
  | disconnecting i =>
      have hLow : 0 ≤ i := hPoint
      simp only [step]
      split
      · rename_i hHigh
        rcases getAt_of_lt hLow hHigh with ⟨client, hClient⟩
        apply keeps_bind hClient
        apply keeps_bind (progress_ok i)
        apply keeps_ok hShared
        simp only [List.forall_mem_cons]
        exact ⟨by simp only [Fine]; omega, by simp⟩
      · exact keeps_ok hShared (by simp)

theorem not_crashes
    (hRate :
      0 < config.connectionRate ∧
        config.connectionRate ≤ second) :
    ¬ (connection10K config).Crashes (start config) := by
  have hStart : Allocated config (start config).1 :=
    length_makeClients _
  have hPoints : ∀ point ∈ (start config).2, Fine config point := by
    simp [start, Fine]
  exact Routines.not_crashes hStart hPoints (keeps_step hRate)

/- With another rate the first turn panics. -/
theorem crashes
    (hRate :
      ¬ (0 < config.connectionRate ∧
        config.connectionRate ≤ second)) :
    (connection10K config).Crashes (start config) := by
  rcases ticker_error hRate
      (.ok ((start config).1, [Point.connecting 0])) with
    ⟨panic, hPanic⟩
  exact ⟨_, _, .begin, .ready, panic, .refl,
    List.mem_singleton_self _, hPanic⟩

end Connection10K

end Mqttbs

------------------------------------------------------------
-- One Publisher
------------------------------------------------------------

namespace Mqttbs

open Go

namespace FanOut1K

variable {config : Config}

def Allocated (config : Config) (s : Shared) : Prop :=
  s.subscribers.length = config.fanOutSubscribers.toNat

def Fine : Point → Prop
| .connectSubscriber i => 0 ≤ i
| .subscribe i => 0 ≤ i
| .disconnecting i => 0 ≤ i
| _ => True

theorem keeps_step
    (hSize : 8 ≤ config.messageSize)
    (hRate :
      0 < config.publishRate ∧ config.publishRate ≤ second)
    (s : Shared)
    (point : Point)
    (event : Event)
    (hShared : Allocated config s)
    (hPoint : Fine point) :
    Keeps (Allocated config) Fine (step config s point event) := by
  cases point with
  | connectSubscriber i =>
      have hLow : 0 ≤ i := hPoint
      simp only [step]
      split
      · rename_i hHigh
        have hIndex : i < s.subscribers.length := by
          unfold Allocated at hShared
          omega
        split
        · exact keeps_ok hShared (by simp)
        · exact keeps_ok hShared (by simp)
        · apply keeps_bind (setAt_of_lt hLow hIndex true)
          apply keeps_ok
          · unfold Allocated
            rw [List.length_set]
            exact hShared
          · simpa [Fine] using hLow
        · exact keeps_ok hShared (by simpa [Fine] using hLow)
      · exact keeps_ok hShared (by simp [Fine])
  | subscribe i =>
      have hLow : 0 ≤ i := hPoint
      cases event with
      | subscribed ok =>
          cases ok with
          | false => exact keeps_ok hShared (by simp)
          | true =>
              apply keeps_bind (progress_ok i)
              apply keeps_ok hShared
              simp only [List.forall_mem_cons, Fine]
              exact ⟨by omega, by simp⟩
      | cancelled => exact keeps_ok hShared (by simpa)
      | ready => exact keeps_ok hShared (by simpa)
      | connected ok => exact keeps_ok hShared (by simpa)
      | tick late published =>
          exact keeps_ok hShared (by simpa)
      | message payload => exact keeps_ok hShared (by simpa)
  | handler =>
      cases event with
      | message payload =>
          apply keeps_bind (handleMessage_ok payload)
          exact keeps_ok hShared (by simp [Fine])
      | _ => exact keeps_ok hShared (by simp [Fine])
  | connectPublisher =>
      cases event with
      | connected ok =>
          cases ok <;> exact keeps_ok hShared (by simp [Fine])
      | _ => exact keeps_ok hShared (by simp [Fine])
  | startTicker =>
      apply keeps_bind (ticker_ok hRate).1
      apply keeps_bind (ticker_ok hRate).2
      exact keeps_ok hShared (by simp [Fine])
  | publishing messageCount =>
      cases event with
      | tick late published =>
          cases late with
          | true => exact keeps_ok hShared (by simp [Fine])
          | false =>
              rcases makePayload_ok hSize with
                ⟨payload, hPayload⟩
              apply keeps_bind hPayload
              apply keeps_bind (remainder_of_ne_zero (by decide))
              exact keeps_ok hShared (by simp [Fine])
      | _ => exact keeps_ok hShared (by simp [Fine])
  | draining =>
      cases event <;> exact keeps_ok hShared (by simp [Fine])
  | disconnecting i =>
      have hLow : 0 ≤ i := hPoint
      simp only [step]
      split
      · rename_i hHigh
        rcases getAt_of_lt hLow hHigh with ⟨client, hClient⟩
        apply keeps_bind hClient
        apply keeps_bind (progress_ok i)
        apply keeps_ok hShared
        simp only [List.forall_mem_cons, Fine]
        exact ⟨by omega, by simp⟩
      · exact keeps_ok hShared (by simp)

theorem not_crashes
    (hSize : 8 ≤ config.messageSize)
    (hRate :
      0 < config.publishRate ∧ config.publishRate ≤ second) :
    ¬ (fanOut1K config).Crashes (start config) := by
  have hStart : Allocated config (start config).1 :=
    length_makeClients _
  have hPoints : ∀ point ∈ (start config).2, Fine point := by
    simp [start, Fine]
  exact Routines.not_crashes hStart hPoints
    (keeps_step hSize hRate)

/- With a broker that answers, subscriber after subscriber. -/
theorem reaches_connectSubscriber
    {k : ℕ}
    (hBound : k ≤ config.fanOutSubscribers.toNat) :
    ∃ s others,
      (fanOut1K config).Reaches (start config) s
          (.connectSubscriber k :: others) ∧
        Allocated config s := by
  induction k with
  | zero =>
      exact ⟨_, _, .refl, length_makeClients _⟩
  | succ k ih =>
      rcases ih (by omega) with
        ⟨s, others, hReaches, hShared⟩
      have hIndex : (k : ℤ) < s.subscribers.length := by
        unfold Allocated at hShared
        omega
      have hTurn :
          (fanOut1K config).step s (.connectSubscriber k)
              (.connected true) =
            .ok (⟨s.subscribers.set k true⟩,
              [.subscribe k, .handler]) := by
        have hHigh : (k : ℤ) < config.fanOutSubscribers := by
          omega
        simp only [fanOut1K, step, if_pos hHigh,
          setAt_of_lt (Int.natCast_nonneg k) hIndex]
        rfl
      have hSubscribed :
          (fanOut1K config).step ⟨s.subscribers.set k true⟩
              (.subscribe k) (.subscribed true) =
            .ok (⟨s.subscribers.set k true⟩,
              [.connectSubscriber (k + 1 : ℕ)]) := by
        simp only [fanOut1K, step, progress_ok]
        rfl
      refine ⟨_, _, (hReaches.head hTurn).head hSubscribed, ?_⟩
      unfold Allocated
      rw [List.length_set]
      exact hShared

/- With another rate the publisher panics. -/
theorem crashes
    (hRate :
      ¬ (0 < config.publishRate ∧
        config.publishRate ≤ second)) :
    (fanOut1K config).Crashes (start config) := by
  rcases @reaches_connectSubscriber config _
      (Nat.le_refl _) with
    ⟨s, others, hReaches, _⟩
  have hConnected :
      (fanOut1K config).step s
          (.connectSubscriber config.fanOutSubscribers.toNat)
          .ready =
        .ok (s, [.connectPublisher]) := by
    have hHigh :
        ¬ (config.fanOutSubscribers.toNat : ℤ) <
          config.fanOutSubscribers := by
      omega
    simp only [fanOut1K, step, if_neg hHigh]
  have hPublisher :
      (fanOut1K config).step s .connectPublisher
          (.connected true) =
        .ok (s, [.startTicker]) :=
    rfl
  rcases ticker_error hRate
      (.ok (s, [Point.publishing 0])) with
    ⟨panic, hPanic⟩
  exact ⟨_, _, .startTicker, .ready, panic,
    (hReaches.head hConnected).head hPublisher, by simp,
    hPanic⟩

end FanOut1K

end Mqttbs

------------------------------------------------------------
-- Many Publishers
------------------------------------------------------------

namespace Mqttbs

open Go

namespace Publishing

variable {values : Publishing}

/- Values for which every operation but the ticker's works. -/
structure Sound (values : Publishing) : Prop where
  numPublishers : 0 < values.numPublishers
  messageSize : 8 ≤ values.messageSize
  topicNumber :
    ∀ pubIdx, ∃ number, values.topicNumber pubIdx = .ok number
  noteSubscriber : ∀ i, values.noteSubscriber i = .ok ()

structure Allocated
    (values : Publishing)
    (s : Shared) : Prop where
  subscribers :
    s.subscribers.length = values.numSubscribers.toNat
  publishers :
    s.publishers.length = values.numPublishers.toNat

def Fine (values : Publishing) : Point → Prop
| .connectSubscriber i => 0 ≤ i
| .subscribe i => 0 ≤ i
| .connectPublisher i => 0 ≤ i
| .startPublisher i => 0 ≤ i
| .publisher pubIdx =>
    0 ≤ pubIdx ∧ pubIdx < values.numPublishers
| .publishing pubIdx _ =>
    0 ≤ pubIdx ∧ pubIdx < values.numPublishers
| .disconnectPublisher i => 0 ≤ i
| .disconnectSubscriber i => 0 ≤ i
| _ => True

theorem Allocated.setSubscriber
    {s : Shared}
    (hShared : Allocated values s)
    (i : ℕ) :
    Allocated values
      { s with subscribers := s.subscribers.set i true } :=
  ⟨by rw [List.length_set]; exact hShared.subscribers,
    hShared.publishers⟩

theorem Allocated.setPublisher
    {s : Shared}
    (hShared : Allocated values s)
    (i : ℕ) :
    Allocated values
      { s with publishers := s.publishers.set i true } :=
  ⟨hShared.subscribers,
    by rw [List.length_set]; exact hShared.publishers⟩

/- How many goroutines are pending does not matter. -/
theorem Allocated.setPending
    {s : Shared}
    (hShared : Allocated values s)
    (pending : ℕ) :
    Allocated values { s with pending := pending } :=
  ⟨hShared.subscribers, hShared.publishers⟩

theorem keeps_connect
    (hSound : Sound values)
    {s : Shared}
    (hShared : Allocated values s)
    (event : Event)
    {i : ℤ}
    (hLow : 0 ≤ i) :
    Keeps (Allocated values) (Fine values)
        (step values s (.connectSubscriber i) event) ∧
      Keeps (Allocated values) (Fine values)
        (step values s (.subscribe i) event) ∧
      Keeps (Allocated values) (Fine values)
        (step values s (.connectPublisher i) event) := by
  refine ⟨?_, ?_, ?_⟩
  · simp only [step]
    split
    · rename_i hHigh
      have hIndex : i < s.subscribers.length := by
        rw [hShared.subscribers]
        omega
      split
      · exact keeps_ok hShared (by simp)
      · exact keeps_ok hShared (by simp)
      · apply keeps_bind (setAt_of_lt hLow hIndex true)
        apply keeps_ok (hShared.setSubscriber i.toNat)
        simpa [Fine] using hLow
      · exact keeps_ok hShared (by simpa [Fine] using hLow)
    · exact keeps_ok hShared (by simp [Fine])
  · cases event with
    | subscribed ok =>
        cases ok with
        | false => exact keeps_ok hShared (by simp)
        | true =>
            apply keeps_bind (hSound.noteSubscriber i)
            apply keeps_ok hShared
            simp only [List.forall_mem_cons, Fine]
            exact ⟨by omega, by simp⟩
    | _ => exact keeps_ok hShared (by simpa [Fine] using hLow)
  · simp only [step]
    split
    · rename_i hHigh
      have hIndex : i < s.publishers.length := by
        rw [hShared.publishers]
        omega
      split
      · exact keeps_ok hShared (by simp)
      · exact keeps_ok hShared (by simp)
      · apply keeps_bind (setAt_of_lt hLow hIndex true)
        apply keeps_bind (progress_ok i)
        apply keeps_ok (hShared.setPublisher i.toNat)
        simp only [List.forall_mem_cons, Fine]
        exact ⟨by omega, by simp⟩
      · exact keeps_ok hShared (by simpa [Fine] using hLow)
    · exact keeps_ok hShared (by simp [Fine])

/- The goroutine of one publisher. -/
theorem keeps_publisher
    (hSound : Sound values)
    (hRate : 0 < values.msgRate ∧ values.msgRate ≤ second)
    {s : Shared}
    (hShared : Allocated values s)
    (event : Event)
    {pubIdx : ℤ}
    (hLow : 0 ≤ pubIdx)
    (hHigh : pubIdx < values.numPublishers)
    (messageCount : ℤ) :
    Keeps (Allocated values) (Fine values)
        (step values s (.publisher pubIdx) event) ∧
      Keeps (Allocated values) (Fine values)
        (step values s (.publishing pubIdx messageCount)
          event) := by
  constructor
  · rcases hSound.topicNumber pubIdx with ⟨number, hNumber⟩
    apply keeps_bind hNumber
    apply keeps_bind (ticker_ok hRate).1
    apply keeps_bind (ticker_ok hRate).2
    exact keeps_ok hShared (by simp [Fine, hLow, hHigh])
  · cases event with
    | cancelled =>
        exact keeps_ok (hShared.setPending _) (by simp)
    | tick late published =>
        cases late with
        | true =>
            exact keeps_ok (hShared.setPending _) (by simp)
        | false =>
            have hIndex : pubIdx < s.publishers.length := by
              rw [hShared.publishers]
              omega
            rcases makePayload_ok hSound.messageSize with
              ⟨payload, hPayload⟩
            rcases getAt_of_lt hLow hIndex with
              ⟨client, hClient⟩
            apply keeps_bind hPayload
            apply keeps_bind hClient
            exact keeps_ok hShared (by simp [Fine, hLow, hHigh])
    | _ =>
        exact keeps_ok hShared (by simp [Fine, hLow, hHigh])

theorem keeps_disconnect
    (hSound : Sound values)
    {s : Shared}
    (hShared : Allocated values s)
    (event : Event)
    {i : ℤ}
    (hLow : 0 ≤ i) :
    Keeps (Allocated values) (Fine values)
        (step values s (.disconnectPublisher i) event) ∧
      Keeps (Allocated values) (Fine values)
        (step values s (.disconnectSubscriber i) event) := by
  constructor
  · simp only [step]
    split
    · rename_i hHigh
      rcases getAt_of_lt hLow hHigh with ⟨client, hClient⟩
      apply keeps_bind hClient
      apply keeps_bind (progress_ok i)
      apply keeps_ok hShared
      simp only [List.forall_mem_cons, Fine]
      exact ⟨by omega, by simp⟩
    · exact keeps_ok hShared (by simp [Fine])
  · simp only [step]
    split
    · rename_i hHigh
      rcases getAt_of_lt hLow hHigh with ⟨client, hClient⟩
      apply keeps_bind hClient
      apply keeps_bind (hSound.noteSubscriber i)
      apply keeps_ok hShared
      simp only [List.forall_mem_cons, Fine]
      exact ⟨by omega, by simp⟩
    · exact keeps_ok hShared (by simp)

theorem keeps_step
    (hSound : Sound values)
    (hRate : 0 < values.msgRate ∧ values.msgRate ≤ second)
    (s : Shared)
    (point : Point)
    (event : Event)
    (hShared : Allocated values s)
    (hPoint : Fine values point) :
    Keeps (Allocated values) (Fine values)
      (step values s point event) := by
  cases point with
  | connectSubscriber i =>
      exact (keeps_connect hSound hShared event hPoint).1
  | subscribe i =>
      exact (keeps_connect hSound hShared event hPoint).2.1
  | connectPublisher i =>
      exact (keeps_connect hSound hShared event hPoint).2.2
  | handler =>
      cases event with
      | message payload =>
          apply keeps_bind (handleMessage_ok payload)
          exact keeps_ok hShared (by simp [Fine])
      | _ => exact keeps_ok hShared (by simp [Fine])
  | startPublisher i =>
      have hLow : 0 ≤ i := hPoint
      simp only [step]
      split
      · rename_i hHigh
        apply keeps_ok (hShared.setPending _)
        simp only [List.forall_mem_cons, Fine]
        exact ⟨by omega, ⟨hLow, hHigh⟩, by simp⟩
      · apply keeps_bind (newTicker_of_pos (by decide))
        exact keeps_ok hShared (by simp [Fine])
  | publisher pubIdx =>
      exact (keeps_publisher hSound hRate hShared event
        hPoint.1 hPoint.2 0).1
  | publishing pubIdx messageCount =>
      exact (keeps_publisher hSound hRate hShared event
        hPoint.1 hPoint.2 messageCount).2
  | monitoring =>
      cases event with
      | tick late published =>
          cases late <;>
            exact keeps_ok hShared (by simp [Fine])
      | _ => exact keeps_ok hShared (by simp [Fine])
  | waiting =>
      simp only [step]
      split
      · exact keeps_ok hShared (by simp [Fine])
      · exact keeps_ok hShared (by simp [Fine])
  | draining =>
      cases event <;> exact keeps_ok hShared (by simp [Fine])
  | disconnectPublisher i =>
      exact (keeps_disconnect hSound hShared event hPoint).1
  | disconnectSubscriber i =>
      exact (keeps_disconnect hSound hShared event hPoint).2

theorem allocated_start (values : Publishing) :
    Allocated values values.start.1 :=
  ⟨length_makeClients _, length_makeClients _⟩

theorem not_crashes
    (hSound : Sound values)
    (hRate : 0 < values.msgRate ∧ values.msgRate ≤ second) :
    ¬ values.routines.Crashes values.start := by
  have hPoints :
      ∀ point ∈ values.start.2, Fine values point := by
    simp [start, Fine]
  exact Routines.not_crashes (allocated_start values) hPoints
    (keeps_step hSound hRate)

/- With a broker that answers, subscriber after subscriber. -/
theorem reaches_connectSubscriber
    (hSound : Sound values)
    {k : ℕ}
    (hBound : k ≤ values.numSubscribers.toNat) :
    ∃ s others,
      values.routines.Reaches values.start s
          (.connectSubscriber k :: others) ∧
        Allocated values s := by
  induction k with
  | zero => exact ⟨_, _, .refl, allocated_start values⟩
  | succ k ih =>
      rcases ih (by omega) with
        ⟨s, others, hReaches, hShared⟩
      have hHigh : (k : ℤ) < values.numSubscribers := by
        omega
      have hIndex : (k : ℤ) < s.subscribers.length := by
        rw [hShared.subscribers]
        omega
      have hTurn :
          values.routines.step s (.connectSubscriber k)
              (.connected true) =
            .ok
              ({ s with
                  subscribers := s.subscribers.set k true },
                [.subscribe k, .handler]) := by
        simp only [routines, step, if_pos hHigh,
          setAt_of_lt (Int.natCast_nonneg k) hIndex]
        rfl
      have hSubscribed :
          values.routines.step
              { s with
                subscribers := s.subscribers.set k true }
              (.subscribe k) (.subscribed true) =
            .ok
              ({ s with
                  subscribers := s.subscribers.set k true },
                [.connectSubscriber (k + 1 : ℕ)]) := by
        simp only [routines, step, hSound.noteSubscriber]
        rfl
      exact ⟨_, _, (hReaches.head hTurn).head hSubscribed,
        hShared.setSubscriber k⟩

/- Then publisher after publisher. -/
theorem reaches_connectPublisher
    (hSound : Sound values)
    {k : ℕ}
    (hBound : k ≤ values.numPublishers.toNat) :
    ∃ s others,
      values.routines.Reaches values.start s
          (.connectPublisher k :: others) ∧
        Allocated values s := by
  induction k with
  | zero =>
      rcases reaches_connectSubscriber hSound
          (Nat.le_refl _) with
        ⟨s, others, hReaches, hShared⟩
      have hTurn :
          values.routines.step s
              (.connectSubscriber values.numSubscribers.toNat)
              .ready =
            .ok (s, [.connectPublisher 0]) := by
        have hHigh :
            ¬ (values.numSubscribers.toNat : ℤ) <
              values.numSubscribers := by
          omega
        simp only [routines, step, if_neg hHigh]
      exact ⟨_, _, hReaches.head hTurn, hShared⟩
  | succ k ih =>
      rcases ih (by omega) with
        ⟨s, others, hReaches, hShared⟩
      have hHigh : (k : ℤ) < values.numPublishers := by
        omega
      have hIndex : (k : ℤ) < s.publishers.length := by
        rw [hShared.publishers]
        omega
      have hTurn :
          values.routines.step s (.connectPublisher k)
              (.connected true) =
            .ok
              ({ s with
                  publishers := s.publishers.set k true },
                [.connectPublisher (k + 1 : ℕ)]) := by
        simp only [routines, step, if_pos hHigh, progress_ok,
          setAt_of_lt (Int.natCast_nonneg k) hIndex]
        rfl
      exact ⟨_, _, hReaches.head hTurn,
        hShared.setPublisher k⟩

/- With another rate the first publisher panics. -/
theorem crashes
    (hSound : Sound values)
    (hRate : ¬ (0 < values.msgRate ∧ values.msgRate ≤ second)) :
    values.routines.Crashes values.start := by
  rcases reaches_connectPublisher hSound (Nat.le_refl _) with
    ⟨s, others, hReaches, _⟩
  have hConnected :
      values.routines.step s
          (.connectPublisher values.numPublishers.toNat)
          .ready =
        .ok (s, [.startPublisher 0]) := by
    have hHigh :
        ¬ (values.numPublishers.toNat : ℤ) <
          values.numPublishers := by
      omega
    simp only [routines, step, if_neg hHigh]
  have hStarted :
      values.routines.step s (.startPublisher 0) .ready =
        .ok ({ s with pending := s.pending + 1 },
          [.startPublisher (0 + 1), .publisher 0]) := by
    simp only [routines, step, if_pos hSound.numPublishers]
  rcases hSound.topicNumber 0 with ⟨number, hNumber⟩
  rcases ticker_error hRate
      (.ok ({ s with pending := s.pending + 1 },
        [Point.publishing 0 0])) with
    ⟨panic, hPanic⟩
  have hPublisher :
      values.routines.step { s with pending := s.pending + 1 }
          (.publisher 0) .ready =
        .error panic := by
    simp only [routines, step, hNumber]
    exact hPanic
  exact ⟨_, _, .publisher 0, .ready, panic,
    (hReaches.head hConnected).head hStarted, by simp,
    hPublisher⟩

end Publishing

variable {config : Config}

theorem sound_fanIn1K
    (hValid : Valid config) :
    (fanIn1K config).Sound where
  numPublishers := hValid.fanInPublishers
  messageSize := hValid.messageSize
  topicNumber := by
    intro pubIdx
    have hTopics : config.fanInTopics ≠ 0 := by
      have hPos := hValid.fanInTopics
      omega
    refine ⟨pubIdx.tmod config.fanInTopics + 1, ?_⟩
    simp only [fanIn1K, remainder_of_ne_zero hTopics]
    rfl
  noteSubscriber := fun _ => rfl

theorem sound_pointToPoint1K
    (hValid : Valid config) :
    (pointToPoint1K config).Sound where
  numPublishers := hValid.p2pClients
  messageSize := hValid.messageSize
  topicNumber := fun _ => ⟨_, rfl⟩
  noteSubscriber := progress_ok

end Mqttbs

------------------------------------------------------------
-- Accepted Runs
------------------------------------------------------------

namespace Mqttbs

open Go

/-
  A scenario whose flags are accepted can come to panic
  exactly when its rate has no whole number of nanoseconds
  as its period, which the validation does not ask for.
-/
theorem not_panics_iff
    {config : Config}
    (hOk : validate config = .ok ())
    (scenario : Scenario) :
    ¬ scenario.Panics config ↔
      0 < config.rate scenario ∧
        config.rate scenario ≤ second := by
  have hValid := valid_of_ok hOk
  cases scenario with
  | connection10K =>
      constructor
      · intro hSafe
        by_contra hRate
        exact hSafe (Connection10K.crashes hRate)
      · exact Connection10K.not_crashes
  | fanOut1K =>
      constructor
      · intro hSafe
        by_contra hRate
        exact hSafe (FanOut1K.crashes hRate)
      · exact FanOut1K.not_crashes hValid.messageSize
  | pointToPoint1K =>
      have hSound := sound_pointToPoint1K hValid
      constructor
      · intro hSafe
        by_contra hRate
        exact hSafe (Publishing.crashes hSound hRate)
      · exact Publishing.not_crashes hSound
  | fanIn1K =>
      have hSound := sound_fanIn1K hValid
      constructor
      · intro hSafe
        by_contra hRate
        exact hSafe (Publishing.crashes hSound hRate)
      · exact Publishing.not_crashes hSound

/- The defaults of the flags, with a smaller fan-out. -/
def smokeConfig (publishRate : ℤ) : Config where
  publishRate := publishRate
  messageSize := 16
  connectionClients := 10000
  connectionRate := 100
  fanOutSubscribers := 1
  p2pClients := 1000
  fanInPublishers := 1000
  fanInSubscribers := 5
  fanInTopics := 1000

theorem not_panics_iff_smokeConfig :
    validate (smokeConfig 1) = .ok () ∧
      (¬ Scenario.fanIn1K.Panics (smokeConfig 1) ↔
        0 < (smokeConfig 1).rate .fanIn1K ∧
          (smokeConfig 1).rate .fanIn1K ≤ second) :=
  ⟨by decide, not_panics_iff (by decide) .fanIn1K⟩

/- No message a second is accepted, and divides by zero. -/
theorem panics_smokeConfig_zero :
    validate (smokeConfig 0) = .ok () ∧
      Scenario.fanOut1K.Panics (smokeConfig 0) :=
  ⟨by decide, FanOut1K.crashes (by decide)⟩

end Mqttbs
