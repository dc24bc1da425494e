import Mathlib.Data.Nat.Notation
import Mathlib.Data.List.Basic

/-
  Scripts of commands, and what holds when they end.

  Every command asks the environment how it went. The
  environment can also kill the script before any command, so
  what is shown for the end of every run covers every state in
  the middle of one.

  Key definitions include:
    * `Shell.Environment`, `Shell.Machine`, `Shell.Script`
    * `Shell.Script.command`, `Shell.Script.subshell`,
      `Shell.Script.forEach`, `Shell.Script.trapExit`
    * `Shell.wp`, `Shell.Uses`

  Key theorems include:
    * `Shell.wp_bind`, `Shell.wp_command`
    * `Shell.wp_subshell`, `Shell.wp_forEach`,
      `Shell.wp_trapExit`
    * `Shell.wp_elim`, `Shell.wp_elim_done`
    * `Shell.wp_of_uses`
-/

------------------------------------------------------------
-- Scripts
------------------------------------------------------------

namespace Shell

/-
  How every command goes, by its number, and the number of
  commands after which the script is killed, if it is.
-/
structure Environment (ι : Type) where
  answer : ℕ → ι
  stop : Option ℕ

/- The script is killed instead of running that command. -/
def Environment.kills
    {ι : Type}
    (env : Environment ι)
    (number : ℕ) : Bool :=
  match env.stop with
  | none => false
  | some last => decide (last ≤ number)

/-
  The world outside, the variables of the shell, and the
  commands run so far with their answers.
-/
structure Machine (κ ι ω ν : Type) where
  world : ω
  vars : ν
  trace : List (κ × ι)

/- Why a script does not go on. -/
inductive Stop where
  | exited (code : ℕ)
  | killed
deriving DecidableEq, Repr

inductive Ending (α : Type) where
  | done (value : α)
  | stopped (how : Stop)
deriving DecidableEq, Repr

def Script (κ ι ω ν α : Type) : Type :=
  Environment ι → Machine κ ι ω ν →
    Ending α × Machine κ ι ω ν

namespace Script

variable {κ ι ω ν α β : Type}

instance : Monad (Script κ ι ω ν) where
  pure value := fun _ m => (.done value, m)
  bind script next := fun env m =>
    match script env m with
    | (.done value, m) => next value env m
    | (.stopped how, m) => (.stopped how, m)

/- Record a command with its answer, after its effect. -/
def record
    (m : Machine κ ι ω ν)
    (name : κ)
    (answer : ι)
    (world : ω) : Machine κ ι ω ν :=
  { world := world
    vars := m.vars
    trace := m.trace ++ [(name, answer)] }

/- One command: its effect depends on its answer. -/
def command
    (name : κ)
    (effect : ι → ω → α × ω) : Script κ ι ω ν α :=
  fun env m =>
    if env.kills m.trace.length then
      (.stopped .killed, m)
    else
      let answer := env.answer m.trace.length
      let result := effect answer m.world
      (.done result.1, record m name answer result.2)

def exit (code : ℕ) : Script κ ι ω ν α :=
  fun _ m => (.stopped (.exited code), m)

/- A look at the world that is not a command. -/
def inspect (look : ω → α) : Script κ ι ω ν α :=
  fun _ m => (.done (look m.world), m)

def modifyVars (change : ν → ν) : Script κ ι ω ν Unit :=
  fun _ m => (.done (), { m with vars := change m.vars })

/-
  A script in a subshell: its variables are lost, and leaving
  it leaves the subshell only.
-/
def subshell
    (script : Script κ ι ω ν α) : Script κ ι ω ν (Option α) :=
  fun env m =>
    match script env m with
    | (.done value, inner) =>
        (.done (some value), { inner with vars := m.vars })
    | (.stopped (.exited _), inner) =>
        (.done none, { inner with vars := m.vars })
    | (.stopped .killed, inner) =>
        (.stopped .killed, { inner with vars := m.vars })

def forEach
    (items : List α)
    (body : α → Script κ ι ω ν Unit) : Script κ ι ω ν Unit :=
  match items with
  | [] => pure ()
  | item :: rest => do
      body item
      forEach rest body

/- What a trap does when the script ends by itself. -/
def trapExit
    (handler : ν → ω → ω)
    (script : Script κ ι ω ν α) : Script κ ι ω ν α :=
  fun env m =>
    match script env m with
    | (.stopped .killed, m) => (.stopped .killed, m)
    | (ending, m) =>
        (ending, { m with world := handler m.vars m.world })

end Script

end Shell

------------------------------------------------------------
-- What Holds At The End
------------------------------------------------------------

namespace Shell

variable {κ ι ω ν α β : Type}
variable {env : Environment ι}
variable {m : Machine κ ι ω ν}

/-
  The script goes on with a value and a machine that are in
  `Q`, or stops with a machine that is in `E`.
-/
def wp
    (env : Environment ι)
    (script : Script κ ι ω ν α)
    (Q : α → Machine κ ι ω ν → Prop)
    (E : Stop → Machine κ ι ω ν → Prop)
    (m : Machine κ ι ω ν) : Prop :=
  match script env m with
  | (.done value, m') => Q value m'
  | (.stopped how, m') => E how m'

variable {Q : α → Machine κ ι ω ν → Prop}
variable {E : Stop → Machine κ ι ω ν → Prop}

theorem wp_bind
    {script : Script κ ι ω ν β}
    {next : β → Script κ ι ω ν α}
    (hScript :
      wp env script (fun value => wp env (next value) Q E) E m) :
    wp env (script >>= next) Q E m := by
  unfold wp at hScript
  simp only [wp, bind]
  cases hRun : script env m with
  | mk ending m' =>
      rw [hRun] at hScript
      cases ending with
      | done value => exact hScript
      | stopped how => exact hScript

/- Both results can be weakened. -/
theorem wp_mono
    {script : Script κ ι ω ν α}
    {Q' : α → Machine κ ι ω ν → Prop}
    {E' : Stop → Machine κ ι ω ν → Prop}
    (hScript : wp env script Q E m)
    (hQ : ∀ value m', Q value m' → Q' value m')
    (hE : ∀ how m', E how m' → E' how m') :
    wp env script Q' E' m := by
  unfold wp at hScript ⊢
  cases hRun : script env m with
  | mk ending m' =>
      rw [hRun] at hScript
      cases ending with
      | done value => exact hQ value m' hScript
      | stopped how => exact hE how m' hScript

/- One script after another, each with its own result. -/
theorem wp_seq
    {script : Script κ ι ω ν β}
    {next : β → Script κ ι ω ν α}
    {R : β → Machine κ ι ω ν → Prop}
    (hScript : wp env script R E m)
    (hNext :
      ∀ value m', R value m' → wp env (next value) Q E m') :
    wp env (script >>= next) Q E m :=
  wp_bind (wp_mono hScript hNext (fun _ _ hE => hE))

theorem wp_command
    {name : κ}
    {effect : ι → ω → α × ω}
    (hKilled :
      env.kills m.trace.length = true → E .killed m)
    (hStep :
      ∀ answer,
        answer = env.answer m.trace.length →
          Q (effect answer m.world).1
            (Script.record m name answer
              (effect answer m.world).2)) :
    wp env (Script.command name effect) Q E m := by
  unfold wp Script.command
  cases hKills : env.kills m.trace.length with
  | true =>
      simp only [if_true]
      exact hKilled hKills
  | false =>
      simp only [Bool.false_eq_true, if_false]
      exact hStep _ rfl

theorem wp_inspect
    {look : ω → α}
    (hLook : Q (look m.world) m) :
    wp env (Script.inspect look) Q E m :=
  hLook

theorem wp_modifyVars
    {change : ν → ν}
    {Q : Unit → Machine κ ι ω ν → Prop}
    (hChange : Q () { m with vars := change m.vars }) :
    wp env (Script.modifyVars change) Q E m :=
  hChange

/- A subshell goes on, with or without a value. -/
theorem wp_subshell
    {script : Script κ ι ω ν α}
    {Q : Option α → Machine κ ι ω ν → Prop}
    {R : α → Machine κ ι ω ν → Prop}
    {S : Stop → Machine κ ι ω ν → Prop}
    (hScript : wp env script R S m)
    (hDone :
      ∀ value m',
        R value m' →
          Q (some value) { m' with vars := m.vars })
    (hExited :
      ∀ code m',
        S (.exited code) m' →
          Q none { m' with vars := m.vars })
    (hKilled :
      ∀ m',
        S .killed m' →
          E .killed { m' with vars := m.vars }) :
    wp env (Script.subshell script) Q E m := by
  unfold wp at hScript
  unfold wp Script.subshell
  cases hRun : script env m with
  | mk ending m' =>
      rw [hRun] at hScript
      cases ending with
      | done value => exact hDone value m' hScript
      | stopped how =>
          cases how with
          | exited code => exact hExited code m' hScript
          | killed => exact hKilled m' hScript

/-
  A loop keeps an invariant about the items it has passed;
  the induction is on the items that remain.
-/
theorem wp_forEach
    {β : Type}
    {items : List β}
    {body : β → Script κ ι ω ν Unit}
    (I : List β → Machine κ ι ω ν → Prop)
    (hStart : I [] m)
    (hStep :
      ∀ passed item rest m,
        items = passed ++ item :: rest →
          I passed m →
            wp env (body item)
              (fun _ => I (passed ++ [item])) E m) :
    wp env (Script.forEach items body)
      (fun _ => I items) E m := by
  have hLoop :
      ∀ rest passed m,
        items = passed ++ rest →
          I passed m →
            wp env (Script.forEach rest body)
              (fun _ => I items) E m := by
    intro rest
    induction rest with
    | nil =>
        intro passed m hItems hPassed
        rw [List.append_nil] at hItems
        rw [← hItems] at hPassed
        exact hPassed
    | cons item rest ih =>
        intro passed m hItems hPassed
        apply wp_seq (hStep passed item rest m hItems hPassed)
        intro _ m' hNext
        apply ih (passed ++ [item]) m' _ hNext
        rw [hItems, List.append_assoc]
        rfl
  exact hLoop items [] m rfl hStart

theorem wp_trapExit
    {script : Script κ ι ω ν α}
    {handler : ν → ω → ω}
    {R : α → Machine κ ι ω ν → Prop}
    {S : Stop → Machine κ ι ω ν → Prop}
    (hScript : wp env script R S m)
    (hDone :
      ∀ value m',
        R value m' →
          Q value
            { m' with world := handler m'.vars m'.world })
    (hExited :
      ∀ code m',
        S (.exited code) m' →
          E (.exited code)
            { m' with world := handler m'.vars m'.world })
    (hKilled : ∀ m', S .killed m' → E .killed m') :
    wp env (Script.trapExit handler script) Q E m := by
  unfold wp at hScript
  unfold wp Script.trapExit
  cases hRun : script env m with
  | mk ending m' =>
      rw [hRun] at hScript
      cases ending with
      | done value => exact hDone value m' hScript
      | stopped how =>
          cases how with
          | exited code => exact hExited code m' hScript
          | killed => exact hKilled m' hScript

/- What holds of the machine however the script ends. -/
theorem wp_elim
    {script : Script κ ι ω ν α}
    {P : Machine κ ι ω ν → Prop}
    (hScript : wp env script (fun _ => P) (fun _ => P) m) :
    P (script env m).2 := by
  unfold wp at hScript
  cases hRun : script env m with
  | mk ending m' =>
      rw [hRun] at hScript
      cases ending with
      | done value => exact hScript
      | stopped how => exact hScript

theorem wp_elim_done
    {script : Script κ ι ω ν α}
    {value : α}
    (hScript : wp env script Q E m)
    (hDone : (script env m).1 = .done value) :
    Q value (script env m).2 := by
  unfold wp at hScript
  cases hRun : script env m with
  | mk ending m' =>
      rw [hRun] at hScript hDone
      cases hDone
      exact hScript

theorem wp_elim_stopped
    {script : Script κ ι ω ν α}
    {how : Stop}
    (hScript : wp env script Q E m)
    (hStopped : (script env m).1 = .stopped how) :
    E how (script env m).2 := by
  unfold wp at hScript
  cases hRun : script env m with
  | mk ending m' =>
      rw [hRun] at hScript hStopped
      cases hStopped
      exact hScript

theorem bind_assoc
    {β γ : Type}
    (script : Script κ ι ω ν β)
    (next : β → Script κ ι ω ν γ)
    (last : γ → Script κ ι ω ν α) :
    script >>= next >>= last =
      script >>= fun value => next value >>= last := by
  funext env m
  simp only [bind]
  cases hRun : script env m with
  | mk ending m' =>
      cases ending with
      | done value => rfl
      | stopped how => rfl

theorem forEach_map
    {β : Type}
    (items : List β)
    (f : β → α)
    (body : α → Script κ ι ω ν Unit) :
    Script.forEach (items.map f) body =
      Script.forEach items (fun item => body (f item)) := by
  induction items with
  | nil => rfl
  | cons item rest ih =>
      simp only [List.map_cons, Script.forEach, ih]

end Shell

------------------------------------------------------------
-- Scripts Of Certain Commands
------------------------------------------------------------

namespace Shell

variable {κ ι ω ν : Type}

/-
  A script that changes the world by the allowed effects of
  commands only, and its variables in subshells only. The
  index tells whether the script itself is in one.
-/
inductive Uses
    (Allowed : κ → (ι → ω → ω) → Prop) :
    Bool → {α : Type} → Script κ ι ω ν α → Prop
| pure {inner : Bool} {α : Type} (value : α) :
    Uses Allowed inner (pure value)
| bind {inner : Bool} {α β : Type}
    {script : Script κ ι ω ν β}
    {next : β → Script κ ι ω ν α}
    (hScript : Uses Allowed inner script)
    (hNext : ∀ value, Uses Allowed inner (next value)) :
    Uses Allowed inner (script >>= next)
| command {inner : Bool} {α : Type}
    {name : κ}
    {effect : ι → ω → α × ω}
    (hAllowed :
      Allowed name
        (fun answer world => (effect answer world).2)) :
    Uses Allowed inner (Script.command name effect)
| exit {inner : Bool} {α : Type} (code : ℕ) :
    Uses Allowed inner
      (Script.exit code : Script κ ι ω ν α)
| inspect {inner : Bool} {α : Type} (look : ω → α) :
    Uses Allowed inner (Script.inspect look)
| modifyVars (change : ν → ν) :
    Uses Allowed true (Script.modifyVars change)
| subshell {inner : Bool} {α : Type}
    {script : Script κ ι ω ν α}
    (hScript : Uses Allowed true script) :
    Uses Allowed inner (Script.subshell script)

variable {Allowed : κ → (ι → ω → ω) → Prop}

theorem Uses.forEach
    {inner : Bool}
    {β : Type}
    {items : List β}
    {body : β → Script κ ι ω ν Unit}
    (hBody : ∀ item, Uses Allowed inner (body item)) :
    Uses Allowed inner (Script.forEach items body) := by
  induction items with
  | nil => exact Uses.pure ()
  | cons item rest ih =>
      exact Uses.bind (hBody item) (fun _ => ih)

/-
  What every allowed command preserves holds at the end,
  whichever way the script ends; outside of subshells the
  variables are the same there.
-/
theorem wp_of_uses
    {I : ω → List (κ × ι) → Prop}
    (hStep :
      ∀ name effect answer world trace,
        Allowed name effect →
          I world trace →
            I (effect answer world)
              (trace ++ [(name, answer)]))
    {inner : Bool}
    {α : Type}
    {script : Script κ ι ω ν α}
    (hUses : Uses Allowed inner script)
    (env : Environment ι)
    (m : Machine κ ι ω ν)
    (hStart : I m.world m.trace) :
    wp env script
      (fun _ m' =>
        I m'.world m'.trace ∧ (inner = false → m'.vars = m.vars))
      (fun _ m' =>
        I m'.world m'.trace ∧ (inner = false → m'.vars = m.vars))
      m := by
  induction hUses generalizing m with
  | pure value => exact ⟨hStart, fun _ => rfl⟩
  | bind hScript hNext ihScript ihNext =>
      apply wp_seq
      · apply wp_mono (ihScript m hStart)
        · intro value m' hAt
          exact hAt
        · intro how m' hAt
          exact hAt
      intro value m' hAt
      apply wp_mono (ihNext value m' hAt.1)
      · intro _ last hLast
        exact ⟨hLast.1,
          fun hOuter => (hLast.2 hOuter).trans (hAt.2 hOuter)⟩
      · intro _ last hLast
        exact ⟨hLast.1,
          fun hOuter => (hLast.2 hOuter).trans (hAt.2 hOuter)⟩
  | command hAllowed =>
      apply wp_command
      · intro _
        exact ⟨hStart, fun _ => rfl⟩
      intro answer _
      exact ⟨hStep _ _ answer _ _ hAllowed hStart,
        fun _ => rfl⟩
  | exit code => exact ⟨hStart, fun _ => rfl⟩
  | inspect look => exact ⟨hStart, fun _ => rfl⟩
  | modifyVars change => exact ⟨hStart, nofun⟩
  | subshell hScript ih =>
      apply wp_subshell (ih m hStart)
      · intro value m' hAt
        exact ⟨hAt.1, fun _ => rfl⟩
      · intro code m' hAt
        exact ⟨hAt.1, fun _ => rfl⟩
      · intro m' hAt
        exact ⟨hAt.1, fun _ => rfl⟩

end Shell
