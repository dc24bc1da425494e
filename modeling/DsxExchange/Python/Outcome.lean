import DsxExchange.Python.Value

/-
  Functions that may call themselves without an end: what
  they come to within a bound on the depth of their calls.

  Key definitions include:
    * `Python.Outcome`
    * `Python.Settles`, `Python.Ends`, `Python.Diverges`

  Key theorems include:
    * `Python.Ends.bind`
    * `Python.ends_foldlM`
    * `Python.Settles.diverges_bind`
-/

------------------------------------------------------------
-- Outcomes
------------------------------------------------------------

namespace Python

/-
  What calls come to within a bound on their depth: a result,
  an exception, or neither so far.
-/
inductive Outcome (α : Type) where
  | done (result : α)
  | raised (error : PyError)
  | unfinished

namespace Outcome

variable {α β : Type}

def bind : Outcome α → (α → Outcome β) → Outcome β
| .done result, next => next result
| .raised error, _ => .raised error
| .unfinished, _ => .unfinished

instance : Monad Outcome where
  pure := .done
  bind := bind

/- A call that needs no bound. -/
def of : Except PyError α → Outcome α
| .ok result => .done result
| .error error => .raised error

@[simp] theorem done_bind
    (result : α)
    (next : α → Outcome β) :
    (Outcome.done result >>= next) = next result :=
  rfl

@[simp] theorem raised_bind
    (error : PyError)
    (next : α → Outcome β) :
    (Outcome.raised error >>= next) = .raised error :=
  rfl

@[simp] theorem unfinished_bind
    (next : α → Outcome β) :
    (Outcome.unfinished >>= next) = .unfinished :=
  rfl

theorem of_ne_unfinished (result : Except PyError α) :
    of result ≠ .unfinished := by
  cases result <;> simp [of]

end Outcome

/-
  With a large enough bound there is a result or exception,
  and it stays the same.
-/
def Settles
    {α : Type}
    (run : ℕ → Outcome α)
    (outcome : Outcome α) : Prop :=
  outcome ≠ .unfinished ∧
    ∃ bound, ∀ fuel, bound ≤ fuel → run fuel = outcome

/- The call returns or raises. -/
def Ends {α : Type} (run : ℕ → Outcome α) : Prop :=
  ∃ outcome, Settles run outcome

end Python

------------------------------------------------------------
-- Calls that End
------------------------------------------------------------

namespace Python

variable {α β σ : Type}

theorem ends_of_eq
    {run : ℕ → Outcome α}
    {outcome : Outcome α}
    (hOutcome : outcome ≠ .unfinished)
    (hRun : ∀ fuel, run fuel = outcome) :
    Ends run :=
  ⟨outcome, hOutcome, 0, fun fuel _ => hRun fuel⟩

theorem ends_of (result : Except PyError α) :
    Ends fun _ => Outcome.of result :=
  ends_of_eq (Outcome.of_ne_unfinished result) fun _ => rfl

theorem ends_done (result : α) :
    Ends fun _ => Outcome.done result :=
  ends_of_eq (by simp) fun _ => rfl

/- A call that has one more call around it. -/
theorem ends_succ
    {run inner : ℕ → Outcome α}
    (hInner : Ends inner)
    (hRun : ∀ fuel, run (fuel + 1) = inner fuel) :
    Ends run := by
  rcases hInner with ⟨outcome, hOutcome, bound, hBound⟩
  refine ⟨outcome, hOutcome, bound + 1, ?_⟩
  intro fuel hFuel
  cases fuel with
  | zero => omega
  | succ fuel =>
      rw [hRun]
      exact hBound fuel (by omega)

/- A call and, if it returns, the calls after it. -/
theorem Ends.bind
    {run : ℕ → Outcome α}
    {next : α → ℕ → Outcome β}
    (hRun : Ends run)
    (hNext :
      ∀ result, Settles run (.done result) → Ends (next result)) :
    Ends fun fuel => run fuel >>= fun result => next result fuel := by
  rcases hRun with ⟨outcome, hOutcome, bound, hBound⟩
  cases outcome with
  | done result =>
      rcases hNext result ⟨hOutcome, bound, hBound⟩ with
        ⟨last, hLast, lastBound, hLastBound⟩
      refine ⟨last, hLast, max bound lastBound, ?_⟩
      intro fuel hFuel
      dsimp only
      rw [hBound fuel (by omega), Outcome.done_bind]
      exact hLastBound fuel (by omega)
  | raised error =>
      refine ⟨.raised error, by simp, bound, ?_⟩
      intro fuel hFuel
      dsimp only
      rw [hBound fuel hFuel, Outcome.raised_bind]
  | unfinished => exact absurd rfl hOutcome

/- Steps that need no bound. -/
theorem Ends.of_bind
    {result : Except PyError α}
    {next : α → ℕ → Outcome β}
    (hNext : ∀ x, result = .ok x → Ends (next x)) :
    Ends fun fuel =>
      Outcome.of result >>= fun x => next x fuel := by
  cases result with
  | ok x => exact hNext x rfl
  | error error =>
      exact ⟨.raised error, by simp, 0, fun _ _ => rfl⟩

/- A loop whose passes end. -/
theorem ends_foldlM
    {step : ℕ → σ → α → Outcome σ}
    {xs : List α}
    (hStep : ∀ x ∈ xs, ∀ s, Ends fun fuel => step fuel s x)
    (s : σ) :
    Ends fun fuel => xs.foldlM (step fuel) s := by
  induction xs generalizing s with
  | nil => exact ends_done s
  | cons x rest ih =>
      have hRest :
          ∀ y ∈ rest, ∀ s, Ends fun fuel => step fuel s y := by
        intro y hMem
        exact hStep y (List.mem_cons_of_mem _ hMem)
      have hBind :
          Ends fun fuel =>
            step fuel s x >>= fun s' =>
              rest.foldlM (step fuel) s' :=
        (hStep x List.mem_cons_self s).bind fun s' _ =>
          ih hRest s'
      exact hBind

end Python

------------------------------------------------------------
-- Calls that do not End
------------------------------------------------------------

namespace Python

variable {α β : Type}

/- With every large bound a call comes to nothing. -/
def Diverges (run : ℕ → Outcome α) : Prop :=
  ∃ bound, ∀ fuel, bound ≤ fuel → run fuel = .unfinished

theorem Diverges.not_ends
    {run : ℕ → Outcome α}
    (hRun : Diverges run) :
    ¬ Ends run := by
  rcases hRun with ⟨bound, hRun⟩
  rintro ⟨outcome, hOutcome, last, hLast⟩
  apply hOutcome
  rw [← hLast (max bound last) (by omega),
    hRun (max bound last) (by omega)]

theorem Diverges.bind
    {run : ℕ → Outcome α}
    {next : α → ℕ → Outcome β}
    (hRun : Diverges run) :
    Diverges fun fuel =>
      run fuel >>= fun result => next result fuel := by
  rcases hRun with ⟨bound, hRun⟩
  refine ⟨bound, ?_⟩
  intro fuel hFuel
  dsimp only
  rw [hRun fuel hFuel, Outcome.unfinished_bind]

/- A call that returns, before calls that do not. -/
theorem Settles.diverges_bind
    {run : ℕ → Outcome α}
    {next : α → ℕ → Outcome β}
    {result : α}
    (hRun : Settles run (.done result))
    (hNext : Diverges (next result)) :
    Diverges fun fuel =>
      run fuel >>= fun result => next result fuel := by
  rcases hRun with ⟨_, bound, hRun⟩
  rcases hNext with ⟨last, hNext⟩
  refine ⟨max bound last, ?_⟩
  intro fuel hFuel
  dsimp only
  rw [hRun fuel (by omega), Outcome.done_bind]
  exact hNext fuel (by omega)

end Python
