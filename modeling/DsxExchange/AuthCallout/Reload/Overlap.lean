import DsxExchange.AuthCallout.Reload.Snapshot

/-
  Executions of `load` that overlap.

  Nothing serializes the callbacks of the file watcher, so
  any number of executions may run at once, while the file
  is written over and over again.

  Key definitions include:
    * `AuthCallout.overlapPool`
    * `AuthCallout.ReadsLast`
    * `AuthCallout.LeavesOneVersion`

  Key theorems include:
    * `AuthCallout.pointer_of_lastWriter`
    * `AuthCallout.lookups_of_last_alone`
    * `AuthCallout.pointers_after_overlap`
-/

------------------------------------------------------------
-- Concurrent Loads
------------------------------------------------------------

namespace AuthCallout

open Cells Config

/- Write a content to the file. -/
def writeFile (content : FileContent) :
    Program Cell.Contents (Except Go.Fault Unit) :=
  .readThenStore .configFile
    (fun _ => [⟨.configFile, content⟩])
    (fun _ => .ok ())

/-
  One thread for each execution of `load`, and one for each
  content that is written to the file.
-/
def overlapPool
    {τ σ : Type}
    (env : τ → Go.Env)
    (order : τ → Go.Iteration)
    (writes : σ → FileContent)
    (w : World) :
    Pool Cell.Contents
      (fun _ : τ ⊕ σ => Except Go.Fault Unit) where
  memory := w
  threads := fun t =>
    match t with
    | .inl t => load (env t) (order t)
    | .inr s => writeFile (writes s)

variable {τ σ : Type} [DecidableEq τ] [DecidableEq σ]
variable {env : τ → Go.Env} {order : τ → Go.Iteration}
variable {writes : σ → FileContent} {w : World}

/- What the stores of an execution put in a pointer. -/
theorem stored_of_mem_loadStores
    {env : Go.Env}
    {order : Go.Iteration}
    {content : FileContent}
    {cell : Cell}
    {value : cell.Contents}
    (hMem : ⟨cell, value⟩ ∈ loadStores env order content) :
    ∃ config,
      content = .decoded config ∧
        Loadable env config ∧
          value =
            world (.decoded config)
              (lookupsOf env order config) cell := by
  rcases loadStores_cases env order content with
    ⟨hNone, _⟩ | ⟨config, hContent, hLoadable, hStores⟩
  · rw [hNone] at hMem
    cases hMem
  · refine ⟨config, hContent, hLoadable, ?_⟩
    rw [hStores] at hMem
    simp only [storesOf, List.mem_cons, List.not_mem_nil,
      or_false] at hMem
    rcases hMem with h | h | h | h <;> cases h <;> rfl

/-
  A pointer that some execution has stored is that of the
  version read by the execution that stored it last.
-/
theorem pointer_of_lastWriter
    {schedule : List (τ ⊕ σ)}
    {cell : Cell}
    (hPointer : cell ≠ .configFile)
    {t : τ ⊕ σ}
    (hLast :
      (overlapPool env order writes w).lastWriter cell
        schedule = some t) :
    ∃ u config,
      t = .inl u ∧
        (overlapPool env order writes w).firstSeen
            .configFile t schedule =
          some (.decoded config) ∧
        Loadable (env u) config ∧
        ((overlapPool env order writes w).run
            schedule).memory cell =
          world (.decoded config)
            (lookupsOf (env u) (order u) config) cell := by
  cases t with
  | inl u =>
      have hForm :
          (overlapPool env order writes w).threads
              (.inl u) =
            .readThenStore .configFile
              (loadStores (env u) (order u))
              (loadResult (env u) (order u)) :=
        load_eq_readThenStore _ _
      rcases Pool.memory_of_lastWriter hForm hLast with
        ⟨content, hSeen, hMem⟩
      rcases stored_of_mem_loadStores hMem with
        ⟨config, rfl, hLoadable, hValue⟩
      exact ⟨u, config, rfl, hSeen, hLoadable, hValue⟩
  | inr s =>
      -- A write to the file stores no pointer.
      have hForm :
          (overlapPool env order writes w).threads
              (.inr s) =
            .readThenStore .configFile
              (fun _ => [⟨.configFile, writes s⟩])
              (fun _ => .ok ()) :=
        rfl
      rcases Pool.memory_of_lastWriter hForm hLast with
        ⟨content, _, hMem⟩
      have hItem := List.mem_singleton.mp hMem
      exact absurd (congrArg Sigma.fst hItem) hPointer

/-
  An execution that starts after all others have ended, and
  that returns nil, leaves all four pointers of the version
  it has read.
-/
theorem lookups_of_last_alone
    {early late : List (τ ⊕ σ)}
    {t : τ}
    (hStart : Sum.inl t ∉ early)
    (hOthers :
      ∀ u, u ≠ t → ∃ result,
        ((overlapPool env order writes w).run
            early).threads (.inl u) = .done result)
    (hDone :
      ((overlapPool env order writes w).run
          (early ++ late)).threads (.inl t) =
        .done (.ok ())) :
    ∃ config,
      (overlapPool env order writes w).firstSeen
          .configFile (.inl t) (early ++ late) =
        some (.decoded config) ∧
      lookups
          ((overlapPool env order writes w).run
            (early ++ late)).memory =
        lookupsOf (env t) (order t) config := by
  have hForm :
      ((overlapPool env order writes w).run
          early).threads (.inl t) =
        .readThenStore .configFile
          (loadStores (env t) (order t))
          (loadResult (env t) (order t)) :=
    (Pool.run_threads_of_not_mem _ hStart).trans
      (load_eq_readThenStore _ _)
  rw [Pool.run_append] at hDone
  rcases Pool.stored_of_done hForm hDone with
    ⟨content, _, hResult, hStored⟩
  rcases loadStores_of_ok _ _ hResult.symm with
    ⟨_, _, hStores⟩
  -- The execution is the last one to store each pointer.
  have hLast :
      ∀ cell, cell ≠ .configFile →
        (overlapPool env order writes w).lastWriter cell
            (early ++ late) = some (.inl t) := by
    intro cell hPointer
    have hSome :
        ((overlapPool env order writes w).run
          early).lastWriter cell late ≠ none := by
      apply hStored ⟨cell, world content _ cell⟩
      rw [hStores]
      exact mem_storesOf content _ hPointer
    rcases Option.ne_none_iff_exists'.mp hSome with
      ⟨u, hLate⟩
    have hWhole :
        (overlapPool env order writes w).lastWriter cell
            (early ++ late) = some u := by
      rw [Pool.lastWriter_append, hLate, Option.some_or]
    rcases pointer_of_lastWriter hPointer hWhole with
      ⟨v, _, rfl, _⟩
    by_cases hSame : v = t
    · rw [hWhole, hSame]
    · rcases hOthers v hSame with ⟨result, hEnded⟩
      exact absurd hLate
        (Pool.lastWriter_ne_of_done hEnded cell late)
  rcases pointer_of_lastWriter (by decide)
      (hLast .noauthProfile (by decide)) with
    ⟨u, config, hThread, hSeen, _, _⟩
  cases hThread
  refine ⟨config, hSeen, ?_⟩
  rw [← lookups_world (.decoded config)
    (lookupsOf (env t) (order t) config)]
  apply lookups_congr
  intro cell hPointer
  rcases pointer_of_lastWriter hPointer
      (hLast cell hPointer) with
    ⟨v, other, hThread, hOther, _, hValue⟩
  cases hThread
  rw [hSeen] at hOther
  cases hOther
  exact hValue

end AuthCallout

------------------------------------------------------------
-- Versions After An Overlap
------------------------------------------------------------

namespace AuthCallout

open Cells Config

section

variable {τ σ : Type} [DecidableEq τ] [DecidableEq σ]

/- All other executions have read the file before this one. -/
def ReadsLast
    (t : τ)
    (schedule : List (τ ⊕ σ)) : Prop :=
  ∃ early late,
    schedule = early ++ .inl t :: late ∧
      .inl t ∉ early ∧ ∀ u, u ≠ t → .inl u ∈ early

/-
  Once all executions have returned nil, all four pointers
  are of the version that was read last.
-/
def LeavesOneVersion
    (env : τ → Go.Env)
    (order : τ → Go.Iteration)
    (writes : σ → FileContent)
    (w : World) : Prop :=
  ∀ schedule,
    (∀ t,
      ((overlapPool env order writes w).run
          schedule).threads (.inl t) = .done (.ok ())) →
      ∃ t config,
        ReadsLast t schedule ∧
          (overlapPool env order writes w).firstSeen
              .configFile (.inl t) schedule =
            some (.decoded config) ∧
          lookups
              ((overlapPool env order writes w).run
                schedule).memory =
            lookupsOf (env t) (order t) config

/-
  The pointer is as it was if no execution has stored it, and
  else that of the version which the last one to store it had
  read.
-/
def ComesFromLastStore
    (env : τ → Go.Env)
    (order : τ → Go.Iteration)
    (writes : σ → FileContent)
    (w : World)
    (schedule : List (τ ⊕ σ))
    (cell : Cell) : Prop :=
  ((overlapPool env order writes w).lastWriter cell
        schedule = none ∧
      ((overlapPool env order writes w).run
        schedule).memory cell = w cell) ∨
    ∃ t config,
      (overlapPool env order writes w).lastWriter cell
          schedule = some (.inl t) ∧
        (overlapPool env order writes w).firstSeen
            .configFile (.inl t) schedule =
          some (.decoded config) ∧
        ((overlapPool env order writes w).run
            schedule).memory cell =
          world (.decoded config)
            (lookupsOf (env t) (order t) config) cell

end

/-
  However the executions overlap, each pointer on its own
  comes from the execution that stored it last. All four come
  from one version, the one read last, if the execution that
  read it started after all others had ended.
-/
theorem pointers_after_overlap
    {τ σ : Type}
    [DecidableEq τ]
    [DecidableEq σ]
    (env : τ → Go.Env)
    (order : τ → Go.Iteration)
    (writes : σ → FileContent)
    (w : World)
    (schedule : List (τ ⊕ σ)) :
    (∀ cell, cell ≠ .configFile →
        ComesFromLastStore env order writes w schedule
          cell) ∧
      ∀ early late t,
        schedule = early ++ late →
          .inl t ∉ early →
          (∀ u, u ≠ t → ∃ result,
            ((overlapPool env order writes w).run
              early).threads (.inl u) = .done result) →
          ((overlapPool env order writes w).run
              schedule).threads (.inl t) =
            .done (.ok ()) →
          ∃ config,
            (overlapPool env order writes w).firstSeen
                .configFile (.inl t) schedule =
              some (.decoded config) ∧
            lookups
                ((overlapPool env order writes w).run
                  schedule).memory =
              lookupsOf (env t) (order t) config := by
  constructor
  · intro cell hPointer
    cases hLast :
        (overlapPool env order writes w).lastWriter cell
          schedule with
    | none =>
        exact Or.inl
          ⟨hLast, Pool.memory_of_lastWriter_none hLast⟩
    | some t =>
        rcases pointer_of_lastWriter hPointer hLast with
          ⟨u, config, rfl, hSeen, _, hValue⟩
        exact Or.inr ⟨u, config, hLast, hSeen, hValue⟩
  · rintro early late t rfl hStart hOthers hDone
    exact lookups_of_last_alone hStart hOthers hDone

/- The two versions of a file, one after the other. -/
def ordersConfig (account : String) : PermissionsConfig where
  oauth2 := ∅
  mtls :=
    AList.singleton "gateway"
      (some ⟨"CN=gateway", account, .zero⟩)
  nkey := ∅
  noauth := some ⟨account, .zero⟩

/- An old reader that ends late leaves a mixture. -/
theorem not_leavesOneVersion_ordersConfig :
    ¬ LeavesOneVersion
        (fun _ : Bool => fun _ => none)
        (fun _ => .listed)
        (fun _ : Unit => .decoded (ordersConfig "B"))
        (world (.decoded (ordersConfig "A")) .fresh) := by
  intro hOne
  -- The first reader stores one pointer, then the second
  -- one stores all four, then the first one the others.
  rcases hOne
      [.inl false, .inl false, .inr (), .inr (),
        .inl true, .inl true, .inl true, .inl true,
        .inl true, .inl false, .inl false, .inl false]
      (by intro t; cases t <;> rfl) with
    ⟨t, config, _, hSeen, hTables⟩
  cases t with
  | false =>
      have hConfig : config = ordersConfig "A" := by
        cases hSeen
        rfl
      subst hConfig
      have hNoauth := congrArg Lookups.noauth hTables
      revert hNoauth
      decide
  | true =>
      have hConfig : config = ordersConfig "B" := by
        cases hSeen
        rfl
      subst hConfig
      have hGateway :=
        congrArg
          (fun tables : Lookups =>
            tables.mtls.bind (fun table =>
              table "CN=gateway"))
          hTables
      revert hGateway
      decide

end AuthCallout
