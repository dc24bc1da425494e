import Mathlib.Data.Int.Notation
import Mathlib.Data.List.Basic

/-
  Operations that panic, and goroutines that take turns in
  any order, where a panic of one stops the program.

  Key definitions include:
    * `Go.Panic`, `Go.quotient`, `Go.remainder`,
      `Go.newTicker`, `Go.sliceTo`, `Go.getAt`, `Go.setAt`
    * `Go.Routines`, `Go.Routines.Reaches`,
      `Go.Routines.Crashes`
    * `Go.Keeps`

  Key theorems include:
    * `Go.Routines.not_crashes`
    * `Go.Routines.Reaches.head`
-/

------------------------------------------------------------
-- Operations That Panic
------------------------------------------------------------

namespace Go

/- Why a program stops. -/
inductive Panic where
  | divideByZero
  | nonPositiveInterval
  | sliceBounds
  | indexRange
deriving DecidableEq, Repr

/- `a / b`, which rounds towards zero. -/
def quotient (a b : ℤ) : Except Panic ℤ :=
  if b = 0 then
    .error .divideByZero
  else
    .ok (a.tdiv b)

/- `a % b`, with the sign of `a`. -/
def remainder (a b : ℤ) : Except Panic ℤ :=
  if b = 0 then
    .error .divideByZero
  else
    .ok (a.tmod b)

/- `time.NewTicker`. -/
def newTicker (period : ℤ) : Except Panic Unit :=
  if period ≤ 0 then
    .error .nonPositiveInterval
  else
    .ok ()

variable {α : Type}

/- `xs[:n]`. -/
def sliceTo (xs : List α) (n : ℕ) : Except Panic (List α) :=
  if n ≤ xs.length then
    .ok (xs.take n)
  else
    .error .sliceBounds

/- `xs[i]`. -/
def getAt (xs : List α) (i : ℤ) : Except Panic α :=
  if i < 0 then
    .error .indexRange
  else
    match xs[i.toNat]? with
    | some x => .ok x
    | none => .error .indexRange

/- `xs[i] = x`. -/
def setAt (xs : List α) (i : ℤ) (x : α) :
    Except Panic (List α) :=
  if 0 ≤ i ∧ i < xs.length then
    .ok (xs.set i.toNat x)
  else
    .error .indexRange

theorem quotient_of_ne_zero {a b : ℤ} (hNonzero : b ≠ 0) :
    quotient a b = .ok (a.tdiv b) :=
  if_neg hNonzero

theorem remainder_of_ne_zero {a b : ℤ} (hNonzero : b ≠ 0) :
    remainder a b = .ok (a.tmod b) :=
  if_neg hNonzero

theorem newTicker_of_pos {period : ℤ} (hPos : 0 < period) :
    newTicker period = .ok () :=
  if_neg (by omega)

theorem sliceTo_of_le
    {xs : List α}
    {n : ℕ}
    (hBound : n ≤ xs.length) :
    sliceTo xs n = .ok (xs.take n) :=
  if_pos hBound

theorem getAt_of_lt
    {xs : List α}
    {i : ℤ}
    (hLow : 0 ≤ i)
    (hHigh : i < xs.length) :
    ∃ x, getAt xs i = .ok x := by
  have hIndex : i.toNat < xs.length := by omega
  refine ⟨xs[i.toNat], ?_⟩
  unfold getAt
  rw [if_neg (by omega), List.getElem?_eq_getElem hIndex]

theorem setAt_of_lt
    {xs : List α}
    {i : ℤ}
    (hLow : 0 ≤ i)
    (hHigh : i < xs.length)
    (x : α) :
    setAt xs i x = .ok (xs.set i.toNat x) :=
  if_pos ⟨hLow, hHigh⟩

/-
  The period of so many ticks in a time is one that a ticker
  takes exactly when there is a tick, and no more than the
  time has units.
-/
theorem tdiv_pos_iff {time rate : ℤ} (hTime : 0 < time) :
    (rate ≠ 0 ∧ 0 < time.tdiv rate) ↔
      0 < rate ∧ rate ≤ time := by
  constructor
  · intro hBoth
    have hPeriod := hBoth.2
    by_cases hRate : 0 < rate
    · refine ⟨hRate, ?_⟩
      by_contra hLarge
      rw [Int.tdiv_eq_zero_of_lt (by omega) (by omega)]
        at hPeriod
      omega
    · have hNegative : 0 < -rate := by omega
      have hQuotient : 0 ≤ time.tdiv (-rate) :=
        Int.tdiv_nonneg (by omega) (by omega)
      rw [Int.tdiv_neg] at hQuotient
      omega
  · intro hBoth
    refine ⟨by omega, ?_⟩
    rw [Int.tdiv_eq_ediv_of_nonneg (by omega)]
    have hOne : 1 ≤ time / rate :=
      Int.le_ediv_of_mul_le hBoth.1 (by omega)
    omega

end Go

------------------------------------------------------------
-- Goroutines
------------------------------------------------------------

namespace Go

/-
  The code of goroutines on a shared state. Given what the
  outside answers, a goroutine at a point changes the state
  and leaves the points where it and those it has started
  go on; with none it has returned.
-/
structure Routines (σ τ ε : Type) where
  step : σ → τ → ε → Except Panic (σ × List τ)

namespace Routines

variable {σ τ ε : Type}

/- Turns of goroutines in any order. -/
inductive Reaches (r : Routines σ τ ε) (start : σ × List τ) :
    σ → List τ → Prop
| refl : Reaches r start start.1 start.2
| turn
    {s s' : σ}
    {before after started : List τ}
    {t : τ}
    {e : ε} :
    Reaches r start s (before ++ t :: after) →
      r.step s t e = .ok (s', started) →
        Reaches r start s' (before ++ started ++ after)

/- Some goroutine can come to panic. -/
def Crashes
    (r : Routines σ τ ε)
    (start : σ × List τ) : Prop :=
  ∃ s ts t e panic,
    Reaches r start s ts ∧
      t ∈ ts ∧
      r.step s t e = .error panic

end Routines

variable {σ τ ε α : Type}

/- No panic, and an invariant of the state and the points. -/
def Keeps
    (invariant : σ → Prop)
    (fine : τ → Prop)
    (result : Except Panic (σ × List τ)) : Prop :=
  ∃ s ts,
    result = .ok (s, ts) ∧
      invariant s ∧
      ∀ t ∈ ts, fine t

theorem keeps_ok
    {invariant : σ → Prop}
    {fine : τ → Prop}
    {s : σ}
    {ts : List τ}
    (hState : invariant s)
    (hPoints : ∀ t ∈ ts, fine t) :
    Keeps invariant fine (.ok (s, ts)) :=
  ⟨s, ts, rfl, hState, hPoints⟩

theorem keeps_bind
    {invariant : σ → Prop}
    {fine : τ → Prop}
    {first : Except Panic α}
    {x : α}
    {next : α → Except Panic (σ × List τ)}
    (hFirst : first = .ok x)
    (hNext : Keeps invariant fine (next x)) :
    Keeps invariant fine (first >>= next) := by
  rw [hFirst]
  exact hNext

namespace Routines

variable {r : Routines σ τ ε}
variable {start : σ × List τ}
variable {invariant : σ → Prop}
variable {fine : τ → Prop}

/- What every turn keeps holds in every state. -/
theorem Reaches.kept
    (hState : invariant start.1)
    (hPoints : ∀ t ∈ start.2, fine t)
    (hStep :
      ∀ s t e,
        invariant s →
          fine t → Keeps invariant fine (r.step s t e))
    {s : σ}
    {ts : List τ}
    (hReaches : Reaches r start s ts) :
    invariant s ∧ ∀ t ∈ ts, fine t := by
  induction hReaches with
  | refl => exact ⟨hState, hPoints⟩
  | @turn s s' before after started t e _ hTurn ih =>
      rcases hStep s t e ih.1 (ih.2 t (by simp)) with
        ⟨s'', ts, hOk, hState', hPoints'⟩
      rw [hTurn] at hOk
      cases hOk
      refine ⟨hState', ?_⟩
      intro u hMem
      simp only [List.mem_append] at hMem
      rcases hMem with (hBefore | hStarted) | hAfter
      · exact ih.2 u (by simp [hBefore])
      · exact hPoints' u hStarted
      · exact ih.2 u (by simp [hAfter])

/- Where every turn is without a panic, so is every run. -/
theorem not_crashes
    (hState : invariant start.1)
    (hPoints : ∀ t ∈ start.2, fine t)
    (hStep :
      ∀ s t e,
        invariant s →
          fine t → Keeps invariant fine (r.step s t e)) :
    ¬ Crashes r start := by
  intro hCrashes
  rcases hCrashes with
    ⟨s, ts, t, e, panic, hReaches, hMem, hPanic⟩
  have hBoth :=
    Reaches.kept hState hPoints hStep hReaches
  rcases hStep s t e hBoth.1 (hBoth.2 t hMem) with
    ⟨s', ts', hOk, _⟩
  rw [hPanic] at hOk
  cases hOk

/- A turn of the goroutine that is listed first. -/
theorem Reaches.head
    {s s' : σ}
    {t : τ}
    {others started : List τ}
    {e : ε}
    (hReaches : Reaches r start s (t :: others))
    (hTurn : r.step s t e = .ok (s', started)) :
    Reaches r start s' (started ++ others) := by
  have hNext : Reaches r start s' ([] ++ started ++ others) :=
    Reaches.turn hReaches hTurn
  exact hNext

end Routines

end Go
