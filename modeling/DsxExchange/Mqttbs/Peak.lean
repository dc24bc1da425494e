import Mathlib.Algebra.Group.Nat.Defs
import Mathlib.Data.List.Basic
import Mathlib.Data.Nat.Basic
import Mathlib.Logic.Function.Basic
import Mathlib.Order.MinMax

/-
  The peak of the concurrent connections: a counter that
  clients count up and down, and a gauge that each of them
  raises after it has compared the two.

  Key definitions include:
    * `Mqttbs.Metrics.Call`, `Mqttbs.Metrics.Point`
    * `Mqttbs.Metrics.State`, `Mqttbs.Metrics.State.step`
    * `Mqttbs.Metrics.State.peak`
    * `Mqttbs.Metrics.State.undisturbed`

  Key theorems include:
    * `Mqttbs.Metrics.Covered.step`
    * `Mqttbs.Metrics.gauge_eq_peak`
-/

------------------------------------------------------------
-- Calls
------------------------------------------------------------

namespace Mqttbs.Metrics

/- `float64(n)`, rounded to 53 bits, halves to even. -/
def float64 (n : ℕ) : ℕ :=
  if n < 2 ^ 53 then
    n
  else
    let unit := 2 ^ (n.log2 - 52)
    let quotient := n / unit
    let rest := n % unit
    if 2 * rest < unit ∨ (2 * rest = unit ∧ quotient % 2 = 0) then
      quotient * unit
    else
      (quotient + 1) * unit

/- `RecordConnection(success)` and `RecordDisconnection()`. -/
inductive Call where
  | connection (success : Bool)
  | disconnection
deriving DecidableEq, Repr

/-
  Where a client is: between two calls, or before the next
  atomic operation of `RecordConnection`. What the counter was
  after the client's own increment is no part of the program.
-/
inductive Point where
  | between
  | readCounter (own : ℕ)
  | readGauge (current : ℕ)
  | write (current : ℕ)
deriving DecidableEq, Repr

/- A client, and the calls that it has not begun. -/
structure Client where
  point : Point
  calls : List Call
deriving DecidableEq, Repr

variable {τ : Type} [DecidableEq τ]

/-
  The two metrics and the clients. The values of the counter
  after each increment are no part of the program.
-/
structure State (τ : Type) where
  currentConns : ℕ
  maxConcurrentConns : ℕ
  values : List ℕ
  clients : τ → Client

namespace State

def start (calls : τ → List Call) : State τ :=
  ⟨0, 0, [], fun t => ⟨.between, calls t⟩⟩

def move (s : State τ) (t : τ) (client : Client) : State τ :=
  { s with clients := Function.update s.clients t client }

/- The next atomic operation of a client, on its metrics. -/
def step (s : State τ) (t : τ) : State τ :=
  let calls := (s.clients t).calls
  match (s.clients t).point with
  | .between =>
      match calls with
      | [] => s
      | .connection false :: rest => s.move t ⟨.between, rest⟩
      | .connection true :: rest =>
          let value := (s.currentConns + 1) % 2 ^ 64
          { s.move t ⟨.readCounter value, rest⟩ with
            currentConns := value
            values := s.values ++ [value] }
      | .disconnection :: rest =>
          { s.move t ⟨.between, rest⟩ with
            currentConns :=
              (s.currentConns + (2 ^ 64 - 1)) % 2 ^ 64 }
  | .readCounter _ =>
      s.move t ⟨.readGauge (float64 s.currentConns), calls⟩
  | .readGauge current =>
      if s.maxConcurrentConns < current then
        s.move t ⟨.write current, calls⟩
      else
        s.move t ⟨.between, calls⟩
  | .write current =>
      { s.move t ⟨.between, calls⟩ with
        maxConcurrentConns := current }

/- Clients take their turns in the order of a schedule. -/
def run (s : State τ) (schedule : List τ) : State τ :=
  schedule.foldl step s

def Finished (s : State τ) : Prop :=
  ∀ t, s.clients t = ⟨.between, []⟩

/- The largest value after an increment. -/
def peak (s : State τ) : ℕ :=
  s.values.foldr max 0

/-
  The step of a client is not disturbed. The counter is in the
  range of exact floats and does not go below zero. When it is
  read, it or the gauge is as high as after the client's own
  increment, and no gauge is lowered.
-/
def undisturbed (s : State τ) (t : τ) : Bool :=
  match (s.clients t).point with
  | .between =>
      match (s.clients t).calls with
      | .connection true :: _ => s.currentConns + 1 ≤ 2 ^ 53
      | .disconnection :: _ => 0 < s.currentConns
      | _ => true
  | .readCounter own =>
      own ≤ s.currentConns || own ≤ s.maxConcurrentConns
  | .readGauge _ => true
  | .write current => s.maxConcurrentConns ≤ current

/- All steps of a schedule are undisturbed. -/
def allUndisturbed : State τ → List τ → Bool
| _, [] => true
| s, t :: schedule =>
    s.undisturbed t && (s.step t).allUndisturbed schedule

end State

end Mqttbs.Metrics

------------------------------------------------------------
-- The Invariant
------------------------------------------------------------

namespace Mqttbs.Metrics

variable {τ : Type}

theorem float64_of_le
    {n : ℕ}
    (hSmall : n ≤ 2 ^ 53) :
    float64 n = n := by
  rcases Nat.lt_or_eq_of_le hSmall with hLess | rfl
  · exact if_pos hLess
  · decide +kernel

/- The value that a client has for the gauge, or will read. -/
def Point.value : Point → ℕ
| .between => 0
| .readCounter own => own
| .readGauge current => current
| .write current => current

/-
  The gauge, or a client that will still raise it, has the
  peak, and nothing is above the peak.
-/
structure Covered (s : State τ) : Prop where
  small : s.peak ≤ 2 ^ 53
  counter : s.currentConns ≤ s.peak
  gauge : s.maxConcurrentConns ≤ s.peak
  client : ∀ t, (s.clients t).point.value ≤ s.peak
  covered :
    s.peak ≤ s.maxConcurrentConns ∨
      ∃ t, s.peak ≤ (s.clients t).point.value

theorem peak_append
    (s : State τ)
    (value : ℕ)
    (client : τ → Client)
    (counter gauge : ℕ) :
    State.peak ⟨counter, gauge, s.values ++ [value], client⟩ =
      max s.peak value := by
  unfold State.peak
  dsimp only
  induction s.values with
  | nil => simp
  | cons first rest ih =>
      rw [List.cons_append, List.foldr_cons, ih, List.foldr_cons,
        Nat.max_assoc]

theorem covered_start
    (calls : τ → List Call) :
    Covered (State.start calls) := by
  refine ⟨?_, le_rfl, le_rfl, fun _ => le_rfl, ?_⟩
  · exact Nat.zero_le _
  · exact Or.inl le_rfl

/- A lower counter concerns neither the peak nor the gauge. -/
theorem Covered.decrement
    {s : State τ}
    {counter : ℕ}
    (hCovered : Covered s)
    (hLower : counter ≤ s.currentConns) :
    Covered { s with currentConns := counter } :=
  ⟨hCovered.small, hLower.trans hCovered.counter,
    hCovered.gauge, hCovered.client, hCovered.covered⟩

/- No client is left that could still raise the gauge. -/
theorem Covered.finished
    {s : State τ}
    (hCovered : Covered s)
    (hFinished : s.Finished) :
    s.maxConcurrentConns = s.peak := by
  refine le_antisymm hCovered.gauge ?_
  rcases hCovered.covered with hGauge | ⟨t, hClient⟩
  · exact hGauge
  · rw [hFinished t] at hClient
    exact hClient.trans (Nat.zero_le _)

variable [DecidableEq τ]

theorem move_clients_self
    (s : State τ)
    (t : τ)
    (client : Client) :
    (s.move t client).clients t = client :=
  Function.update_self ..

theorem move_clients_of_ne
    {s : State τ}
    {t t' : τ}
    {client : Client}
    (hOther : t' ≠ t) :
    (s.move t client).clients t' = s.clients t' :=
  Function.update_of_ne hOther ..

/-
  A client moves on with the metrics as they are. If it had
  the peak, it keeps it or the gauge has it.
-/
theorem Covered.move
    {s : State τ}
    {t : τ}
    {client : Client}
    (hCovered : Covered s)
    (hValue : client.point.value ≤ s.peak)
    (hKeeps :
      s.peak ≤ (s.clients t).point.value →
        s.peak ≤ client.point.value ∨
          s.peak ≤ s.maxConcurrentConns) :
    Covered (s.move t client) := by
  refine ⟨hCovered.small, hCovered.counter, hCovered.gauge,
    ?_, ?_⟩
  · intro t'
    by_cases hSame : t' = t
    · rw [hSame, move_clients_self]
      exact hValue
    · rw [move_clients_of_ne hSame]
      exact hCovered.client t'
  · rcases hCovered.covered with hGauge | ⟨t', hPeak⟩
    · exact Or.inl hGauge
    · by_cases hSame : t' = t
      · rw [hSame] at hPeak
        rcases hKeeps hPeak with hClient | hGauge
        · refine Or.inr ⟨t, ?_⟩
          rw [move_clients_self]
          exact hClient
        · exact Or.inl hGauge
      · refine Or.inr ⟨t', ?_⟩
        rw [move_clients_of_ne hSame]
        exact hPeak

/- A new value of the counter; its client has it. -/
theorem Covered.increment
    {s : State τ}
    {t : τ}
    {value : ℕ}
    {rest : List Call}
    (hCovered : Covered s)
    (hPoint : (s.clients t).point = .between)
    (hSmall : value ≤ 2 ^ 53) :
    Covered
      { s.move t ⟨.readCounter value, rest⟩ with
        currentConns := value
        values := s.values ++ [value] } := by
  have hPeak :
      State.peak
        { s.move t ⟨.readCounter value, rest⟩ with
          currentConns := value
          values := s.values ++ [value] } =
        max s.peak value :=
    peak_append ..
  refine ⟨?_, ?_, ?_, ?_, ?_⟩ <;> rw [hPeak]
  · exact max_le hCovered.small hSmall
  · exact le_max_right ..
  · exact le_max_of_le_left hCovered.gauge
  · intro t'
    by_cases hSame : t' = t
    · rw [hSame, move_clients_self]
      exact le_max_right ..
    · rw [move_clients_of_ne hSame]
      exact le_max_of_le_left (hCovered.client t')
  · by_cases hNew : s.peak ≤ value
    · refine Or.inr ⟨t, ?_⟩
      rw [move_clients_self, max_eq_right hNew]
      exact le_rfl
    · rw [max_eq_left (Nat.le_of_not_le hNew)]
      rcases hCovered.covered with hGauge | ⟨t', hClient⟩
      · exact Or.inl hGauge
      · refine Or.inr ⟨t', ?_⟩
        have hOther : t' ≠ t := by
          intro hSame
          rw [hSame, hPoint] at hClient
          exact hNew (hClient.trans (Nat.zero_le value))
        rw [move_clients_of_ne hOther]
        exact hClient

/- The gauge is raised to what a client has. -/
theorem Covered.write
    {s : State τ}
    {t : τ}
    {current : ℕ}
    {calls : List Call}
    (hCovered : Covered s)
    (hPoint : (s.clients t).point = .write current)
    (hRaised : s.maxConcurrentConns ≤ current) :
    Covered
      { s.move t ⟨.between, calls⟩ with
        maxConcurrentConns := current } := by
  have hValue : (s.clients t).point.value = current := by
    rw [hPoint, Point.value]
  refine ⟨hCovered.small, hCovered.counter, ?_, ?_, ?_⟩
  · exact hValue ▸ hCovered.client t
  · intro t'
    by_cases hSame : t' = t
    · rw [hSame, move_clients_self]
      exact Nat.zero_le _
    · rw [move_clients_of_ne hSame]
      exact hCovered.client t'
  · rcases hCovered.covered with hGauge | ⟨t', hClient⟩
    · exact Or.inl (hGauge.trans hRaised)
    · by_cases hSame : t' = t
      · rw [hSame, hValue] at hClient
        exact Or.inl hClient
      · refine Or.inr ⟨t', ?_⟩
        rw [move_clients_of_ne hSame]
        exact hClient

end Mqttbs.Metrics

------------------------------------------------------------
-- Steps and Runs
------------------------------------------------------------

namespace Mqttbs.Metrics

variable {τ : Type} [DecidableEq τ]

theorem Covered.step
    {s : State τ}
    {t : τ}
    (hCovered : Covered s)
    (hUndisturbed : s.undisturbed t = true) :
    Covered (s.step t) := by
  have hClient := hCovered.client t
  rw [State.step]
  rw [State.undisturbed] at hUndisturbed
  cases hPoint : (s.clients t).point with
  | between =>
      rw [hPoint] at hUndisturbed hClient
      have hMove (rest : List Call) :
          Covered (s.move t ⟨.between, rest⟩) :=
        hCovered.move (Nat.zero_le _) (by
          rw [hPoint]
          exact Or.inl)
      cases hCalls : (s.clients t).calls with
      | nil => exact hCovered
      | cons call rest =>
          rw [hCalls] at hUndisturbed
          match call with
          | .connection false => exact hMove rest
          | .connection true =>
              have hSmall := of_decide_eq_true hUndisturbed
              refine hCovered.increment hPoint ?_
              exact (Nat.mod_le ..).trans hSmall
          | .disconnection =>
              have hPositive := of_decide_eq_true hUndisturbed
              refine (hMove rest).decrement ?_
              have hCounter := hCovered.counter
              have hPeak := hCovered.small
              change (s.currentConns + (2 ^ 64 - 1)) % 2 ^ 64 ≤
                s.currentConns
              omega
  | readCounter own =>
      have hCounter := hCovered.counter
      rw [hPoint] at hUndisturbed hClient
      rw [float64_of_le (hCounter.trans hCovered.small)]
      refine hCovered.move hCounter ?_
      rw [hPoint]
      intro hPeak
      rcases (Bool.or_eq_true ..).mp hUndisturbed with h | h
      · exact Or.inl (hPeak.trans (of_decide_eq_true h))
      · exact Or.inr (hPeak.trans (of_decide_eq_true h))
  | readGauge current =>
      rw [hPoint] at hClient
      dsimp only
      split
      · refine hCovered.move hClient ?_
        rw [hPoint]
        exact Or.inl
      next hNot =>
        refine hCovered.move (Nat.zero_le _) ?_
        rw [hPoint]
        intro hPeak
        exact Or.inr (hPeak.trans (Nat.le_of_not_lt hNot))
  | write current =>
      rw [hPoint] at hUndisturbed
      exact hCovered.write hPoint
        (of_decide_eq_true hUndisturbed)

theorem Covered.run
    {s : State τ}
    {schedule : List τ}
    (hCovered : Covered s)
    (hUndisturbed : s.allUndisturbed schedule = true) :
    Covered (s.run schedule) := by
  induction schedule generalizing s with
  | nil => exact hCovered
  | cons t schedule ih =>
      rw [State.allUndisturbed, Bool.and_eq_true]
        at hUndisturbed
      exact ih (hCovered.step hUndisturbed.1) hUndisturbed.2

/-
  In every run whose steps are undisturbed, the gauge is the
  peak of the counter in each state where all calls are done.
-/
theorem gauge_eq_peak
    (calls : τ → List Call)
    (schedule : List τ)
    (hUndisturbed :
      (State.start calls).allUndisturbed schedule = true)
    (hFinished : ((State.start calls).run schedule).Finished) :
    ((State.start calls).run schedule).maxConcurrentConns =
      ((State.start calls).run schedule).peak :=
  ((covered_start calls).run hUndisturbed).finished hFinished

/-
  The first client reads the counter after the second one
  has connected, and both raise the gauge to two.
-/
theorem gauge_eq_peak_twoClients :
    ((State.start
      (fun _ : Fin 2 => [.connection true])).run
        [0, 1, 0, 1, 0, 1, 0, 1]).maxConcurrentConns = 2 := by
  have hFinished :
      ((State.start
        (fun _ : Fin 2 => [.connection true])).run
          [0, 1, 0, 1, 0, 1, 0, 1]).Finished := by
    unfold State.Finished
    decide
  exact gauge_eq_peak _ _ (by decide) hFinished

/-
  The first client compares the gauge before the second one
  connects, and lowers it afterwards.
-/
theorem not_gauge_eq_peak_lostUpdate :
    ¬ ∀ (calls : Fin 2 → List Call) (schedule : List (Fin 2)),
      ((State.start calls).run schedule).Finished →
      ((State.start calls).run schedule).maxConcurrentConns =
        ((State.start calls).run schedule).peak := by
  intro hClaim
  have hFinished :
      ((State.start
        (fun _ : Fin 2 => [.connection true])).run
          [0, 0, 0, 1, 1, 1, 1, 0]).Finished := by
    unfold State.Finished
    decide
  have hGauge := hClaim _ _ hFinished
  revert hGauge
  decide

end Mqttbs.Metrics
