import DsxExchange.AuthCallout.Reload.Overlap

/-
  A permissions manager and its file watcher: the initial
  load, the start of the watcher, and its callbacks, while
  the file is written over and over again.

  Assumed of the watcher: it takes the version of the file at
  `WatchFile` as its baseline, and it calls back once for
  every change against the baseline that it observes, without
  a retry.

  Key definitions include:
    * `AuthCallout.Execution`, `AuthCallout.Progress`
    * `AuthCallout.OneStoring`
    * `AuthCallout.Manager`, `AuthCallout.Event`
    * `AuthCallout.Manager.step`, `AuthCallout.Manager.run`
    * `AuthCallout.Manager.Quiescent`
    * `AuthCallout.Manager.Current`

  Key theorems include:
    * `AuthCallout.advance_cases`
    * `AuthCallout.oneStoring_middle_iff`
-/

------------------------------------------------------------
-- Executions Of Load
------------------------------------------------------------

namespace AuthCallout

open Cells Config

/- What is left of an execution of `load`. -/
abbrev Execution :=
  Program Cell.Contents (Except Go.Fault Unit)

/- The execution is about to read the file. -/
def aboutToRead : Execution → Bool
| .load _ _ => true
| _ => false

/- The stores that the execution has still to perform. -/
def pendingStores :
    Execution → List (Item Cell.Contents)
| .store cell value next =>
    ⟨cell, value⟩ :: pendingStores next
| _ => []

/- The forms that an execution takes on its way. -/
inductive Progress (env : Go.Env) : Execution → Prop
| waiting (order : Go.Iteration) :
    Progress env (load env order)
| storing
    (result : Except Go.Fault Unit)
    (rest : List (Item Cell.Contents))
    (hPointers : ∀ item ∈ rest, item.1 ≠ .configFile) :
    Progress env (.storeAll result rest)

theorem pendingStores_storeAll
    (result : Except Go.Fault Unit)
    (items : List (Item Cell.Contents)) :
    pendingStores (.storeAll result items) = items := by
  induction items with
  | nil => rfl
  | cons item rest ih => exact congrArg (item :: ·) ih

theorem progress_loadContent
    (env : Go.Env)
    (order : Go.Iteration)
    (content : FileContent) :
    Progress env (loadContent env order content) := by
  rw [loadContent_eq_storeAll]
  apply Progress.storing
  intro item hMem
  rcases loadStores_cases env order content with
    ⟨hNone, _⟩ | ⟨config, _, _, hStores⟩
  · rw [hNone] at hMem
    cases hMem
  · rw [hStores] at hMem
    have hCell :=
      List.mem_map_of_mem (f := Sigma.fst) hMem
    rw [storesOf_fst] at hCell
    rintro hFile
    rw [hFile] at hCell
    revert hCell
    decide

/- Only an execution that has not begun is about to read. -/
theorem exists_order_of_reads
    {env : Go.Env}
    {p : Execution}
    (hProgress : Progress env p)
    (hReads : aboutToRead p = true) :
    ∃ order, p = load env order := by
  cases hProgress with
  | waiting order => exact ⟨order, rfl⟩
  | storing result rest hPointers =>
      cases rest with
      | nil => cases hReads
      | cons item rest => cases hReads

/- The stores of a configuration install its tables. -/
theorem lookups_writeAll_storesOf
    (w : World)
    (tables : Lookups) :
    lookups (writeAll w (storesOf tables)) = tables :=
  rfl

/-
  A step of an execution is its read, or it performs one of
  the pending stores if there is any left.
-/
theorem advance_cases
    {env : Go.Env}
    {p : Execution}
    (hProgress : Progress env p)
    (w : World) :
    (aboutToRead p = true ∧ pendingStores p = [] ∧
        ∃ order,
          p.advance w =
            (loadContent env order (w .configFile), w)) ∨
      (aboutToRead p = false ∧
        Progress env (p.advance w).1 ∧
          (p.advance w).2 .configFile = w .configFile ∧
            pendingStores (p.advance w).1 =
                (pendingStores p).tail ∧
              writeAll (p.advance w).2
                  (pendingStores p).tail =
                writeAll w (pendingStores p)) := by
  cases hProgress with
  | waiting order => exact Or.inl ⟨rfl, rfl, order, rfl⟩
  | storing result rest hPointers =>
      right
      cases rest with
      | nil =>
          exact ⟨rfl, .storing result [] hPointers, rfl,
            rfl, rfl⟩
      | cons item rest =>
          have hItem :=
            hPointers item List.mem_cons_self
          refine ⟨rfl, .storing result rest ?_, ?_, rfl, ?_⟩
          · intro other hMem
            exact hPointers other
              (List.mem_cons_of_mem _ hMem)
          · exact Function.update_of_ne (Ne.symm hItem) ..
          · rfl

end AuthCallout

------------------------------------------------------------
-- Executions Side By Side
------------------------------------------------------------

namespace AuthCallout

open Cells Config

/- The stores that a list of executions has still to do. -/
def pendingOf (running : List Execution) :
    List (Item Cell.Contents) :=
  running.flatMap pendingStores

/- At most one execution has stores left to perform. -/
def OneStoring (running : List Execution) : Prop :=
  running.Pairwise (fun p q =>
    pendingStores p = [] ∨ pendingStores q = [])

variable {early late : List Execution} {p : Execution}

theorem pendingOf_middle_of_idle
    (hIdle : pendingStores p = []) :
    pendingOf (early ++ p :: late) =
      pendingOf (early ++ late) := by
  simp [pendingOf, hIdle]

theorem pendingOf_middle_of_alone
    (hAlone : pendingOf (early ++ late) = []) :
    pendingOf (early ++ p :: late) = pendingStores p := by
  unfold pendingOf at hAlone ⊢
  rw [List.flatMap_append,
    List.append_eq_nil_iff] at hAlone
  rw [List.flatMap_append, List.flatMap_cons, hAlone.1,
    hAlone.2, List.nil_append, List.append_nil]

theorem oneStoring_middle_iff :
    OneStoring (early ++ p :: late) ↔
      (pendingStores p = [] ∨
          pendingOf (early ++ late) = []) ∧
        OneStoring (early ++ late) := by
  have hSymm :
      ∀ {p q : Execution},
        pendingStores p = [] ∨ pendingStores q = [] →
          pendingStores q = [] ∨ pendingStores p = [] :=
    Or.symm
  have hAlone :
      pendingOf (early ++ late) = [] ↔
        ∀ q ∈ early ++ late, pendingStores q = [] :=
    List.flatMap_eq_nil_iff
  unfold OneStoring
  rw [List.pairwise_middle hSymm, List.pairwise_cons, hAlone]
  by_cases hIdle : pendingStores p = []
  · simp [hIdle]
  · simp [hIdle]

/- If nothing is left to store, it holds. -/
theorem oneStoring_of_pendingOf_nil
    {running : List Execution}
    (hNone : pendingOf running = []) :
    OneStoring running := by
  have hIdle :
      ∀ q ∈ running, pendingStores q = [] :=
    List.flatMap_eq_nil_iff.mp hNone
  exact List.pairwise_of_forall_mem_list
    (fun q hMem _ _ => Or.inl (hIdle q hMem))

theorem mem_middle
    {q : Execution}
    (hMem : q ∈ early ++ p :: late) :
    q = p ∨ q ∈ early ++ late := by
  simp only [List.mem_append, List.mem_cons] at hMem ⊢
  rcases hMem with hEarly | hSame | hLate
  · exact Or.inr (Or.inl hEarly)
  · exact Or.inl hSame
  · exact Or.inr (Or.inr hLate)

/- One that is past its read is not about to read. -/
theorem mem_others_of_reads
    {q : Execution}
    (hPast : aboutToRead p = false)
    (hMem : q ∈ early ++ p :: late)
    (hReads : aboutToRead q = true) :
    q ∈ early ++ late := by
  rcases mem_middle hMem with rfl | hOther
  · rw [hPast] at hReads
    cases hReads
  · exact hOther

theorem mem_middle_of_mem_others
    {q : Execution}
    (hMem : q ∈ early ++ late) :
    q ∈ early ++ p :: late := by
  simp only [List.mem_append, List.mem_cons] at hMem ⊢
  rcases hMem with hEarly | hLate
  · exact Or.inl hEarly
  · exact Or.inr (Or.inr hLate)

/- A list around one of its members. -/
theorem exists_split_of_getElem?
    {running : List Execution}
    {i : Nat}
    (hMember : running[i]? = some p) :
    ∃ early late,
      running = early ++ p :: late ∧
        (∀ q, running.set i q = early ++ q :: late) ∧
          running.eraseIdx i = early ++ late := by
  rcases List.getElem?_eq_some_iff.mp hMember with
    ⟨hBound, rfl⟩
  refine ⟨running.take i, running.drop (i + 1), ?_, ?_, ?_⟩
  · rw [List.getElem_cons_drop, List.take_append_drop]
  · intro q
    rw [List.set_eq_take_append_cons_drop, if_pos hBound]
  · exact List.eraseIdx_eq_take_drop_succ running i

end AuthCallout

------------------------------------------------------------
-- The Manager And Its Watcher
------------------------------------------------------------

namespace AuthCallout

open Cells Config

/-
  The state of the manager and of its watcher. The versions
  number the writes to the file. The last four fields record
  the history: the version of the last successful read,
  whether no execution had a store left to perform then, the
  version at `WatchFile`, and that of the last failed read.
-/
structure Manager where
  world : World
  watching : Bool
  running : List Execution
  version : Nat
  baseline : Nat
  pending : Nat
  seen : Option Nat
  seenAlone : Bool
  watchedAt : Option Nat
  failedAt : Option Nat

/- What can happen next. -/
inductive Event where
  | write (config : PermissionsConfig)
  | advance (i : Nat)
  | watch
  | observe
  | start (order : Go.Iteration)
  | readFails (i : Nat) (err : String)
  | finish (i : Nat)

namespace Manager

/- `NewPermissionsManager` has been called. -/
def initial
    (env : Go.Env)
    (order : Go.Iteration)
    (config : PermissionsConfig) : Manager where
  world := Config.world (.decoded config) Lookups.fresh
  watching := false
  running := [load env order]
  version := 0
  baseline := 0
  pending := 0
  seen := none
  seenAlone := true
  watchedAt := none
  failedAt := none

/-
  One event, if it is possible. The initial load is the first
  execution, and only once it has returned nil is the file
  watched. A failing read makes a callback end with an error.
-/
def step (env : Go.Env) (s : Manager) :
    Event → Option Manager
| .write config =>
    some
      { s with
        world :=
          Function.update s.world .configFile
            (.decoded config)
        version := s.version + 1 }
| .advance i =>
    match s.running[i]? with
    | none => none
    | some p =>
        some
          { s with
            world := (p.advance s.world).2
            running :=
              s.running.set i (p.advance s.world).1
            seen :=
              if aboutToRead p then
                some s.version
              else
                s.seen
            seenAlone :=
              if aboutToRead p then
                (pendingOf s.running).isEmpty
              else
                s.seenAlone }
| .watch =>
    match s.watching, s.running with
    | false, [.done (.ok ())] =>
        some
          { s with
            watching := true
            running := []
            baseline := s.version
            watchedAt := some s.version }
    | _, _ => none
| .observe =>
    if s.watching ∧ s.baseline ≠ s.version then
      some
        { s with
          baseline := s.version
          pending := s.pending + 1 }
    else
      none
| .start order =>
    match s.pending with
    | 0 => none
    | n + 1 =>
        some
          { s with
            pending := n
            running := s.running ++ [load env order] }
| .readFails i err =>
    match s.watching, s.running[i]? with
    | true, some (.load .configFile next) =>
        some
          { s with
            running := s.running.set i
              (next (.unreadable err))
            failedAt := some s.version }
    | _, _ => none
| .finish i =>
    match s.watching, s.running[i]? with
    | true, some (.done _) =>
        some { s with running := s.running.eraseIdx i }
    | _, _ => none

/- A sequence of events, if all are possible. -/
def run (env : Go.Env) (s : Manager) :
    List Event → Option Manager
| [] => some s
| event :: rest =>
    (s.step env event).bind (fun next => next.run env rest)

/-
  The watcher has seen every change, and no notification is
  pending or running.
-/
structure Quiescent (s : Manager) : Prop where
  watching : s.watching = true
  observed : s.baseline = s.version
  pending : s.pending = 0
  running : s.running = []

/- The tables are those `load` builds from the file. -/
def Current (env : Go.Env) (s : Manager) : Prop :=
  ∃ order config,
    s.world .configFile = .decoded config ∧
      buildLookups env order config =
        .ok (lookups s.world)

end Manager

/- Each write leaves a content that `load` accepts. -/
def Event.LeavesValid (env : Go.Env) : Event → Prop
| .write config => Loadable env config
| _ => True

end AuthCallout
