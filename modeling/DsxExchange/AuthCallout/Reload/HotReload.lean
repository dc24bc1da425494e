import DsxExchange.AuthCallout.Reload.Manager

/-
  Whether hot reload converges: what the tables are once the
  watcher has nothing left to notify.

  Key definitions include:
    * `AuthCallout.Manager.Settled`
    * `AuthCallout.Manager.Explained`
    * `AuthCallout.Manager.Inv`
    * `AuthCallout.Manager.Converges`

  Key theorems include:
    * `AuthCallout.Manager.inv_step`
    * `AuthCallout.Manager.inv_run`
    * `AuthCallout.Manager.current_unless_missed`
-/

------------------------------------------------------------
-- The Invariant Of The Manager
------------------------------------------------------------

namespace AuthCallout

open Cells Config

namespace Manager

/-
  Once all stores left are performed, the tables are those
  of the file.
-/
def Settled (env : Go.Env) (s : Manager) : Prop :=
  ∃ order config,
    s.world .configFile = .decoded config ∧
      Loadable env config ∧
        lookups (writeAll s.world (pendingOf s.running)) =
          lookupsOf env order config

/-
  The current version is still to be read, or it has been
  read, or one of the two reasons why it never will be.
-/
def Explained (s : Manager) : Prop :=
  s.baseline < s.version ∨
    0 < s.pending ∨
      (∃ p ∈ s.running, aboutToRead p = true) ∨
        s.seen = some s.version ∨
          s.watchedAt = some s.version ∨
            s.failedAt = some s.version

/- What holds in every state of a run. -/
structure Inv (env : Go.Env) (s : Manager) : Prop where
  file :
    ∃ config,
      s.world .configFile = .decoded config ∧
        Loadable env config
  baseline : s.baseline ≤ s.version
  seen : ∀ v, s.seen = some v → v ≤ s.version
  programs : ∀ p ∈ s.running, Progress env p
  oneStoring : s.seenAlone = true → OneStoring s.running
  settled :
    s.seenAlone = true →
      s.seen = some s.version →
        s.Settled env
  explained : s.watching = true → s.Explained

variable {env : Go.Env} {s s' : Manager}

theorem inv_initial
    (order : Go.Iteration)
    {config : PermissionsConfig}
    (hLoadable : Loadable env config) :
    (initial env order config).Inv env where
  file := ⟨config, rfl, hLoadable⟩
  baseline := Nat.le_refl _
  seen := by
    intro v hSeen
    cases hSeen
  programs := by
    intro p hMem
    rw [List.mem_singleton.mp hMem]
    exact .waiting order
  oneStoring := fun _ => List.pairwise_singleton ..
  settled := by
    intro _ hSeen
    cases hSeen
  explained := by
    intro hWatching
    cases hWatching

/- One execution is replaced by another. -/
theorem programs_middle
    {early late : List Execution}
    {p next : Execution}
    (hInv : s.Inv env)
    (hRunning : s.running = early ++ p :: late)
    (hNext : Progress env next) :
    ∀ q ∈ early ++ next :: late, Progress env q := by
  intro q hMem
  rcases mem_middle hMem with rfl | hOther
  · exact hNext
  · apply hInv.programs q
    rw [hRunning]
    exact mem_middle_of_mem_others hOther

/- Executions that are past their read explain nothing. -/
theorem explained_of_reads
    (hOld : s.Explained)
    (hVersion : s'.version = s.version)
    (hBaseline : s'.baseline = s.baseline)
    (hPending : s'.pending = s.pending)
    (hSeen : s'.seen = s.seen)
    (hWatched : s'.watchedAt = s.watchedAt)
    (hFailed : s'.failedAt = s.failedAt)
    (hReads :
      (∃ p ∈ s.running, aboutToRead p = true) →
        ∃ p ∈ s'.running, aboutToRead p = true) :
    s'.Explained := by
  unfold Explained at hOld ⊢
  rw [hVersion, hBaseline, hPending, hSeen, hWatched,
    hFailed]
  rcases hOld with hChange | hNotice | hRunning | hRest
  · exact Or.inl hChange
  · exact Or.inr (Or.inl hNotice)
  · exact Or.inr (Or.inr (Or.inl (hReads hRunning)))
  · exact Or.inr (Or.inr (Or.inr hRest))

/- A write is a change that the watcher has yet to see. -/
theorem inv_write
    {config : PermissionsConfig}
    (hInv : s.Inv env)
    (hLoadable : Loadable env config)
    (hStep : s.step env (.write config) = some s') :
    s'.Inv env := by
  simp only [step, Option.some.injEq] at hStep
  subst hStep
  have hBaseline := hInv.baseline
  refine
    { file := ⟨config, rfl, hLoadable⟩
      baseline := ?_
      seen := ?_
      programs := hInv.programs
      oneStoring := hInv.oneStoring
      settled := ?_
      explained := ?_ }
  · dsimp only
    omega
  · intro v hSeen
    have hOld := hInv.seen v hSeen
    dsimp only
    omega
  · -- The new version has not been read.
    intro _ hSeen
    have hOld := hInv.seen (s.version + 1) hSeen
    omega
  · intro _
    unfold Explained
    dsimp only
    omega

/- The read of an execution settles the tables. -/
theorem inv_read
    {i : Nat}
    {p : Execution}
    (hInv : s.Inv env)
    (hMember : s.running[i]? = some p)
    (hRead : aboutToRead p = true)
    (hStep : s.step env (.advance i) = some s') :
    s'.Inv env := by
  rcases exists_split_of_getElem? hMember with
    ⟨early, late, hRunning, hSet, _⟩
  have hProgress :=
    hInv.programs p (List.mem_of_getElem? hMember)
  rcases advance_cases hProgress s.world with
    ⟨_, hIdle, order, hAdvance⟩ | ⟨hNot, _⟩
  · simp only [step, hMember, hRead, if_true, hAdvance,
      hSet, Option.some.injEq] at hStep
    subst hStep
    rcases hInv.file with ⟨config, hFile, hLoadable⟩
    have hOthers :
        pendingOf s.running = pendingOf (early ++ late) := by
      rw [hRunning, pendingOf_middle_of_idle hIdle]
    refine
      { file := ⟨config, hFile, hLoadable⟩
        baseline := hInv.baseline
        seen := ?_
        programs := ?_
        oneStoring := ?_
        settled := ?_
        explained := ?_ }
    · intro v hSeen
      cases hSeen
      exact Nat.le_refl _
    · apply programs_middle hInv hRunning
      exact progress_loadContent env order _
    · intro hAlone
      have hNone : pendingOf (early ++ late) = [] :=
        hOthers.symm.trans (List.isEmpty_iff.mp hAlone)
      exact oneStoring_middle_iff.mpr
        ⟨Or.inr hNone, oneStoring_of_pendingOf_nil hNone⟩
    · intro hAlone _
      have hNone : pendingOf (early ++ late) = [] :=
        hOthers.symm.trans (List.isEmpty_iff.mp hAlone)
      refine ⟨order, config, hFile, hLoadable, ?_⟩
      rw [pendingOf_middle_of_alone hNone, hFile,
        loadContent_eq_storeAll, pendingStores_storeAll,
        loadStores_of_loadable env order hLoadable,
        lookups_writeAll_storesOf]
    · intro _
      unfold Explained
      simp
  · rw [hRead] at hNot
    cases hNot

/- Any other step performs a store, or nothing is left. -/
theorem inv_store
    {i : Nat}
    {p : Execution}
    (hInv : s.Inv env)
    (hMember : s.running[i]? = some p)
    (hRead : aboutToRead p = false)
    (hStep : s.step env (.advance i) = some s') :
    s'.Inv env := by
  rcases exists_split_of_getElem? hMember with
    ⟨early, late, hRunning, hSet, _⟩
  have hProgress :=
    hInv.programs p (List.mem_of_getElem? hMember)
  rcases advance_cases hProgress s.world with
    ⟨hYes, _⟩ | ⟨_, hNext, hFile, hTail, hWrite⟩
  · rw [hRead] at hYes
    cases hYes
  · simp only [step, hMember, hRead, hSet,
      Option.some.injEq] at hStep
    subst hStep
    refine
      { file := ?_
        baseline := hInv.baseline
        seen := hInv.seen
        programs := ?_
        oneStoring := ?_
        settled := ?_
        explained := ?_ }
    · rcases hInv.file with ⟨config, hOld, hLoadable⟩
      exact ⟨config, hFile.trans hOld, hLoadable⟩
    · exact programs_middle hInv hRunning hNext
    · intro hAlone
      have hOld := hInv.oneStoring hAlone
      rw [hRunning, oneStoring_middle_iff] at hOld
      rw [oneStoring_middle_iff, hTail]
      refine ⟨?_, hOld.2⟩
      rcases hOld.1 with hIdle | hNone
      · exact Or.inl (by rw [hIdle, List.tail_nil])
      · exact Or.inr hNone
    · intro hAlone hSeen
      rcases hInv.settled hAlone hSeen with
        ⟨order, config, hOld, hLoadable, hTables⟩
      refine ⟨order, config, hFile.trans hOld, hLoadable, ?_⟩
      rw [← hTables]
      have hOne := hInv.oneStoring hAlone
      rw [hRunning, oneStoring_middle_iff] at hOne
      dsimp only
      rw [hRunning]
      rcases hOne.1 with hIdle | hNone
      · -- Nothing was left to store.
        rw [hIdle, List.tail_nil] at hTail hWrite
        rw [pendingOf_middle_of_idle hTail,
          pendingOf_middle_of_idle hIdle]
        exact congrArg (fun w => lookups (writeAll w _))
          hWrite
      · rw [pendingOf_middle_of_alone hNone,
          pendingOf_middle_of_alone hNone, hTail, hWrite]
    · intro hWatching
      refine explained_of_reads (hInv.explained hWatching)
        rfl rfl rfl rfl rfl rfl ?_
      rintro ⟨q, hMem, hReads⟩
      rw [hRunning] at hMem
      have hOther := mem_others_of_reads hRead hMem hReads
      exact ⟨q, mem_middle_of_mem_others hOther, hReads⟩

/- An event that stores and reads nothing. -/
theorem inv_frame
    (hInv : s.Inv env)
    (hWorld : s'.world = s.world)
    (hVersion : s'.version = s.version)
    (hSeen : s'.seen = s.seen)
    (hAlone : s'.seenAlone = s.seenAlone)
    (hBaseline : s'.baseline ≤ s'.version)
    (hPrograms : ∀ p ∈ s'.running, Progress env p)
    (hPending : pendingOf s'.running = pendingOf s.running)
    (hOne : OneStoring s.running → OneStoring s'.running)
    (hExplained : s'.watching = true → s'.Explained) :
    s'.Inv env where
  file := by
    rw [hWorld]
    exact hInv.file
  baseline := hBaseline
  seen := by
    rw [hSeen, hVersion]
    exact hInv.seen
  programs := hPrograms
  oneStoring := by
    rw [hAlone]
    exact fun h => hOne (hInv.oneStoring h)
  settled := by
    unfold Settled
    rw [hAlone, hSeen, hVersion, hWorld, hPending]
    exact hInv.settled
  explained := hExplained

/- The baseline of the watcher is the current version. -/
theorem inv_watch
    (hInv : s.Inv env)
    (hStep : s.step env .watch = some s') :
    s'.Inv env := by
  simp only [step] at hStep
  split at hStep
  · rename_i hWatching hRunning
    cases hStep
    refine inv_frame hInv rfl rfl rfl rfl
      ?_ ?_ ?_ ?_ ?_
    · exact Nat.le_refl _
    · intro p hMem
      cases hMem
    · rw [hRunning]
      rfl
    · exact fun _ => List.Pairwise.nil
    · intro _
      unfold Explained
      simp
  · cases hStep

/- An observed change is notified. -/
theorem inv_observe
    (hInv : s.Inv env)
    (hStep : s.step env .observe = some s') :
    s'.Inv env := by
  simp only [step] at hStep
  split at hStep
  · cases hStep
    refine inv_frame hInv rfl rfl rfl rfl
      ?_ ?_ ?_ ?_ ?_
    · exact Nat.le_refl _
    · exact hInv.programs
    · rfl
    · exact id
    · intro _
      exact Or.inr (Or.inl (Nat.succ_pos _))
  · cases hStep

/- A notification becomes an execution about to read. -/
theorem inv_start
    {order : Go.Iteration}
    (hInv : s.Inv env)
    (hStep : s.step env (.start order) = some s') :
    s'.Inv env := by
  simp only [step] at hStep
  split at hStep
  · cases hStep
  · cases hStep
    have hIdle : pendingStores (load env order) = [] := rfl
    refine inv_frame hInv rfl rfl rfl rfl
      ?_ ?_ ?_ ?_ ?_
    · exact hInv.baseline
    · intro p hMem
      rcases mem_middle hMem with rfl | hOther
      · exact .waiting order
      · rw [List.append_nil] at hOther
        exact hInv.programs p hOther
    · dsimp only
      rw [pendingOf_middle_of_idle hIdle, List.append_nil]
    · intro hOne
      apply oneStoring_middle_iff.mpr
      rw [List.append_nil]
      exact ⟨Or.inl hIdle, hOne⟩
    · intro _
      exact Or.inr (Or.inr (Or.inl
        ⟨load env order, by simp, rfl⟩))

/- An execution whose read fails ends without a store. -/
theorem inv_readFails
    {i : Nat}
    {err : String}
    (hInv : s.Inv env)
    (hStep : s.step env (.readFails i err) = some s') :
    s'.Inv env := by
  simp only [step] at hStep
  split at hStep
  · rename_i next hWatching hMember
    rcases exists_split_of_getElem? hMember with
      ⟨early, late, hRunning, hSet, _⟩
    have hProgress :=
      hInv.programs _ (List.mem_of_getElem? hMember)
    have hNext :
        Progress env (next (.unreadable err)) ∧
          pendingStores (next (.unreadable err)) = [] := by
      rcases exists_order_of_reads hProgress rfl with
        ⟨order, hLoad⟩
      cases hLoad
      exact ⟨progress_loadContent env order _, rfl⟩
    rw [hSet] at hStep
    cases hStep
    refine inv_frame hInv rfl rfl rfl rfl
      ?_ ?_ ?_ ?_ ?_
    · exact hInv.baseline
    · exact programs_middle hInv hRunning hNext.1
    · dsimp only
      rw [hRunning, pendingOf_middle_of_idle hNext.2,
        pendingOf_middle_of_idle rfl]
    · intro hOne
      rw [hRunning, oneStoring_middle_iff] at hOne
      exact oneStoring_middle_iff.mpr
        ⟨Or.inl hNext.2, hOne.2⟩
    · intro _
      unfold Explained
      simp
  · cases hStep

/- An execution that has returned is removed. -/
theorem inv_finish
    {i : Nat}
    (hInv : s.Inv env)
    (hStep : s.step env (.finish i) = some s') :
    s'.Inv env := by
  simp only [step] at hStep
  split at hStep
  · rename_i result hWatching hMember
    rcases exists_split_of_getElem? hMember with
      ⟨early, late, hRunning, _, hErase⟩
    rw [hErase] at hStep
    cases hStep
    refine inv_frame hInv rfl rfl rfl rfl
      ?_ ?_ ?_ ?_ ?_
    · exact hInv.baseline
    · intro p hMem
      apply hInv.programs p
      rw [hRunning]
      exact mem_middle_of_mem_others hMem
    · dsimp only
      rw [hRunning, pendingOf_middle_of_idle rfl]
    · intro hOne
      rw [hRunning, oneStoring_middle_iff] at hOne
      exact hOne.2
    · intro _
      refine explained_of_reads (hInv.explained hWatching)
        rfl rfl rfl rfl rfl rfl ?_
      rintro ⟨q, hMem, hReads⟩
      rw [hRunning] at hMem
      exact ⟨q, mem_others_of_reads rfl hMem hReads, hReads⟩
  · cases hStep

/- What one event preserves. -/
theorem inv_step
    {event : Event}
    (hInv : s.Inv env)
    (hValid : event.LeavesValid env)
    (hStep : s.step env event = some s') :
    s'.Inv env := by
  cases event with
  | write config => exact inv_write hInv hValid hStep
  | advance i =>
      cases hMember : s.running[i]? with
      | none =>
          simp only [step, hMember] at hStep
          cases hStep
      | some p =>
          cases hRead : aboutToRead p with
          | true => exact inv_read hInv hMember hRead hStep
          | false =>
              exact inv_store hInv hMember hRead hStep
  | watch => exact inv_watch hInv hStep
  | observe => exact inv_observe hInv hStep
  | start order => exact inv_start hInv hStep
  | readFails i err => exact inv_readFails hInv hStep
  | finish i => exact inv_finish hInv hStep

/- What a run preserves. -/
theorem inv_run
    {events : List Event}
    (hInv : s.Inv env)
    (hValid : ∀ e ∈ events, e.LeavesValid env)
    (hRun : s.run env events = some s') :
    s'.Inv env := by
  induction events generalizing s with
  | nil =>
      cases hRun
      exact hInv
  | cons event rest ih =>
      unfold run at hRun
      rcases Option.bind_eq_some_iff.mp hRun with
        ⟨next, hStep, hRest⟩
      have hHead := hValid event List.mem_cons_self
      apply ih (inv_step hInv hHead hStep) _ hRest
      intro e hMem
      exact hValid e (List.mem_cons_of_mem _ hMem)

end Manager

end AuthCallout

------------------------------------------------------------
-- Convergence
------------------------------------------------------------

namespace AuthCallout

open Cells Config

namespace Manager

/-
  In every quiescent state of every run the tables are those
  of the file.
-/
def Converges (env : Go.Env) : Prop :=
  ∀ (order : Go.Iteration) (config : PermissionsConfig)
    (events : List Event) (s : Manager),
      Loadable env config →
        (∀ e ∈ events, e.LeavesValid env) →
        (initial env order config).run env events = some s →
        s.Quiescent →
          s.Current env

variable {env : Go.Env} {order : Go.Iteration}
variable {config : PermissionsConfig}
variable {events : List Event} {s : Manager}

/-
  In every quiescent state the tables are those of the file
  if some execution has read its current version, the last
  one while no other had stores left to perform. Some has,
  unless that version was there before `WatchFile`, or a
  read of it has failed.
-/
theorem current_unless_missed
    (hInitial : Loadable env config)
    (hWrites : ∀ e ∈ events, e.LeavesValid env)
    (hRun :
      (initial env order config).run env events = some s)
    (hQuiet : s.Quiescent) :
    (s.seen = some s.version →
        s.seenAlone = true →
          s.Current env) ∧
      (s.seen = some s.version ∨
        s.watchedAt = some s.version ∨
          s.failedAt = some s.version) := by
  have hInv : s.Inv env :=
    inv_run (inv_initial order hInitial) hWrites hRun
  constructor
  · intro hSeen hAlone
    rcases hInv.settled hAlone hSeen with
      ⟨order, config, hFile, hLoadable, hTables⟩
    rw [hQuiet.running] at hTables
    exact ⟨order, config, hFile,
      buildLookups_ok_iff.mpr ⟨hLoadable, hTables⟩⟩
  · rcases hInv.explained hQuiet.watching with
      hChange | hNotice | ⟨p, hMem, _⟩ | hRest
    · have hObserved := hQuiet.observed
      omega
    · have hNone := hQuiet.pending
      omega
    · rw [hQuiet.running] at hMem
      cases hMem
    · exact hRest

/- One configuration for each account can be loaded. -/
theorem loadable_ordersConfig
    (env : Go.Env)
    (account : String) :
    Loadable env (ordersConfig account) where
  oauth2 := by
    intro entry hMem
    cases hMem
  identity := by
    intro name entry hMem
    cases hMem
  mtls := by
    intro entry hMem
    rw [List.mem_singleton.mp hMem]
    simp
  nkey := by
    intro entry hMem
    cases hMem

/- Tables of another account are not those of the file. -/
theorem not_current_of_noauth
    {account : String}
    (hFile :
      s.world .configFile =
        .decoded (ordersConfig account))
    (hNoauth :
      s.world .noauthProfile ≠
        some (noauthItem env ⟨account, .zero⟩)) :
    ¬ s.Current env := by
  rintro ⟨order, config, hContent, hBuild⟩
  rw [hFile] at hContent
  cases hContent
  have hTables := (buildLookups_ok_iff.mp hBuild).2
  exact hNoauth (congrArg Lookups.noauth hTables)

/- The read and the four stores of an execution. -/
def wholeLoad (i : Nat) : List Event :=
  List.replicate 5 (.advance i)

/- The initial load, the watcher, and one reload. -/
def reloadRun : List Event :=
  wholeLoad 0 ++
    [.watch, .write (ordersConfig "B"), .observe,
      .start .listed] ++
    wholeLoad 0 ++ [.finish 0]

/- The file is written between the load and `WatchFile`. -/
def lateWatchRun : List Event :=
  [.advance 0, .write (ordersConfig "B")] ++
    List.replicate 4 (.advance 0) ++ [.watch]

/- The only read of the new version fails. -/
def droppedReadRun : List Event :=
  wholeLoad 0 ++
    [.watch, .write (ordersConfig "B"), .observe,
      .start .listed, .readFails 0 "EIO", .finish 0]

/- A reload of an older version performs its stores last. -/
def lateStoreRun : List Event :=
  wholeLoad 0 ++
    [.watch, .write (ordersConfig "B"), .observe,
      .start .listed, .advance 0,
      .write (ordersConfig "C"), .observe,
      .start .listed] ++
    wholeLoad 1 ++ [.finish 1] ++
    List.replicate 4 (.advance 0) ++ [.finish 0]

/- A reload that nothing disturbs installs the file. -/
theorem current_reloadRun :
    ∃ s,
      (initial (fun _ => none) .listed
          (ordersConfig "A")).run (fun _ => none)
          reloadRun = some s ∧
        s.Quiescent ∧ s.Current (fun _ => none) := by
  have hWrites :
      ∀ e ∈ reloadRun, e.LeavesValid (fun _ => none) := by
    simp [reloadRun, wholeLoad, Event.LeavesValid,
      loadable_ordersConfig]
  refine ⟨_, rfl, ⟨rfl, rfl, rfl, rfl⟩, ?_⟩
  exact
    (@current_unless_missed (fun _ => none) .listed
      (ordersConfig "A") reloadRun _
      (loadable_ordersConfig (fun _ => none) "A")
      hWrites rfl ⟨rfl, rfl, rfl, rfl⟩).1 rfl rfl

/- A run that ends quiescent, with the tables of the past. -/
def Diverges
    (env : Go.Env)
    (order : Go.Iteration)
    (config : PermissionsConfig)
    (events : List Event) : Prop :=
  (∀ e ∈ events, e.LeavesValid env) ∧
    ∃ s,
      (initial env order config).run env events = some s ∧
        s.Quiescent ∧ ¬ s.Current env

/- Each of the three ways to miss a version occurs. -/
theorem not_converges_ordersConfig :
    ¬ Converges (fun _ => none) ∧
      ∀ events ∈
          [lateWatchRun, droppedReadRun, lateStoreRun],
        Diverges (fun _ => none) .listed
          (ordersConfig "A") events := by
  have hLateWatch :
      Diverges (fun _ => none) .listed
        (ordersConfig "A") lateWatchRun := by
    constructor
    · simp [lateWatchRun, Event.LeavesValid,
        loadable_ordersConfig]
    · refine ⟨_, rfl, ⟨rfl, rfl, rfl, rfl⟩, ?_⟩
      exact @not_current_of_noauth _ _ "B" rfl (by decide)
  have hDroppedRead :
      Diverges (fun _ => none) .listed
        (ordersConfig "A") droppedReadRun := by
    constructor
    · simp [droppedReadRun, wholeLoad, Event.LeavesValid,
        loadable_ordersConfig]
    · refine ⟨_, rfl, ⟨rfl, rfl, rfl, rfl⟩, ?_⟩
      exact @not_current_of_noauth _ _ "B" rfl (by decide)
  have hLateStore :
      Diverges (fun _ => none) .listed
        (ordersConfig "A") lateStoreRun := by
    constructor
    · simp [lateStoreRun, wholeLoad, Event.LeavesValid,
        loadable_ordersConfig]
    · refine ⟨_, rfl, ⟨rfl, rfl, rfl, rfl⟩, ?_⟩
      exact @not_current_of_noauth _ _ "C" rfl (by decide)
  constructor
  · intro hConverges
    rcases hLateWatch with ⟨hValid, s, hRun, hQuiet, hNot⟩
    exact hNot
      (hConverges .listed (ordersConfig "A") lateWatchRun s
        (loadable_ordersConfig _ "A") hValid hRun hQuiet)
  · simp only [List.forall_mem_cons]
    exact ⟨hLateWatch, hDroppedRead, hLateStore, by simp⟩

end Manager

end AuthCallout
