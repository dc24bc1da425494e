import DsxExchange.AuthCallout.Reload.Overlap

/-
  The service in operation: the file is written, the watcher
  starts executions of `load`, and clients are answered, all
  at once and any number of times.

  Key definitions include:
    * `AuthCallout.Actor`, `AuthCallout.livePool`
    * `AuthCallout.WasInFile`
    * `AuthCallout.answerUnder`

  Key theorems include:
    * `AuthCallout.pointer_of_lastWriter_live`
    * `AuthCallout.answer_of_one_version`
    * `AuthCallout.answer_after_last_load`
-/

------------------------------------------------------------
-- All Threads Of The Service
------------------------------------------------------------

namespace AuthCallout

open Cells Auth Config

/- What can take a step while the service runs. -/
inductive Actor (τ σ ρ : Type) where
  | load (t : τ)
  | write (s : σ)
  | call (r : ρ)
deriving DecidableEq

abbrev LiveResult {τ σ ρ : Type} : Actor τ σ ρ → Type
| .load _ => Except Go.Fault Unit
| .write _ => Except Go.Fault Unit
| .call _ => Except Go.Fault UserJWT

/-
  One thread for each execution of `load`, one for each
  content that is written to the file, and one for each call.
-/
def livePool
    {τ σ ρ : Type}
    (env : τ → Go.Env)
    (order : τ → Go.Iteration)
    (writes : σ → FileContent)
    (w : World)
    (issuer : Issuer)
    (authenticators : List Authenticator)
    (calls : ρ → Call) :
    Pool Cell.Contents
      (LiveResult (τ := τ) (σ := σ) (ρ := ρ)) where
  memory := w
  threads := fun t =>
    match t with
    | .load t => load (env t) (order t)
    | .write s => writeFile (writes s)
    | .call r =>
        (answer issuer authenticators (calls r)).toProgram

/- The answer under the tables of one configuration. -/
def answerUnder
    (env : Go.Env)
    (order : Go.Iteration)
    (config : PermissionsConfig)
    (issuer : Issuer)
    (authenticators : List Authenticator)
    (call : Call) : Except Go.Fault UserJWT :=
  (answer issuer authenticators call).eval
    (world (.decoded config) (lookupsOf env order config))

/-
  The file held the content after some part of the schedule:
  it had it at first, or it was written.
-/
structure WasInFile
    {τ σ ρ : Type}
    [DecidableEq τ] [DecidableEq σ] [DecidableEq ρ]
    (pool :
      Pool Cell.Contents
        (LiveResult (τ := τ) (σ := σ) (ρ := ρ)))
    (writes : σ → FileContent)
    (schedule : List (Actor τ σ ρ))
    (content : FileContent) : Prop where
  put :
    content = pool.memory .configFile ∨ ∃ s, content = writes s
  held :
    ∃ early late,
      schedule = early ++ late ∧
        (pool.run early).memory .configFile = content

theorem WasInFile.append
    {τ σ ρ : Type}
    [DecidableEq τ] [DecidableEq σ] [DecidableEq ρ]
    {pool :
      Pool Cell.Contents
        (LiveResult (τ := τ) (σ := σ) (ρ := ρ))}
    {writes : σ → FileContent}
    {early : List (Actor τ σ ρ)}
    {content : FileContent}
    (hWas : WasInFile pool writes early content)
    (late : List (Actor τ σ ρ)) :
    WasInFile pool writes (early ++ late) content := by
  rcases hWas.held with ⟨before, after, hSplit, hHeld⟩
  refine ⟨hWas.put, before, after ++ late, ?_, hHeld⟩
  rw [hSplit, List.append_assoc]

/- A call reads one of the pointers at most. -/
theorem exists_pointer_answer
    (issuer : Issuer)
    (authenticators : List Authenticator)
    (call : Call) :
    ∃ cell,
      cell ≠ .configFile ∧
        (answer issuer authenticators call).LoadsOnly
          cell := by
  unfold answer
  cases hFirst : firstAccepting authenticators call.req with
  | none =>
      rw [handleAuthRequest_of_none call.libs issuer hFirst]
      exact ⟨.noauthProfile, by decide, loadsOnly_fail _ _⟩
  | some a =>
      refine ⟨a.cell, ?_,
        loadsOnly_handleAuthRequest call.libs issuer hFirst⟩
      cases a <;> simp [Authenticator.cell]

variable {τ σ ρ : Type}
variable {env : τ → Go.Env} {order : τ → Go.Iteration}
variable {writes : σ → FileContent} {w : World}
variable {issuer : Issuer}
variable {authenticators : List Authenticator}
variable {calls : ρ → Call}

theorem load_livePool (t : τ) :
    (livePool env order writes w issuer authenticators
        calls).threads (.load t) =
      .readThenStore .configFile
        (loadStores (env t) (order t))
        (loadResult (env t) (order t)) :=
  load_eq_readThenStore _ _

/- A write stores the file and nothing else. -/
theorem write_livePool (s : σ) :
    (livePool env order writes w issuer authenticators
        calls).threads (.write s) =
      .readThenStore .configFile
        (fun _ => [⟨.configFile, writes s⟩])
        (fun _ => .ok ()) :=
  rfl

theorem reads_livePool (r : ρ) :
    (livePool env order writes w issuer authenticators
        calls).Reads (.call r) :=
  ⟨_, rfl⟩

end AuthCallout

------------------------------------------------------------
-- What The Cells Hold
------------------------------------------------------------

namespace AuthCallout

open Cells Auth Config

variable {τ σ ρ : Type}
variable [DecidableEq τ] [DecidableEq σ] [DecidableEq ρ]
variable {env : τ → Go.Env} {order : τ → Go.Iteration}
variable {writes : σ → FileContent} {w : World}
variable {issuer : Issuer}
variable {authenticators : List Authenticator}
variable {calls : ρ → Call}
variable {schedule : List (Actor τ σ ρ)}

/- The file holds what it had at first or what was written. -/
theorem put_run (schedule : List (Actor τ σ ρ)) :
    ((livePool env order writes w issuer authenticators
          calls).run schedule).memory .configFile =
        w .configFile ∨
      ∃ s,
        ((livePool env order writes w issuer authenticators
            calls).run schedule).memory .configFile =
          writes s := by
  cases hLast :
      (livePool env order writes w issuer authenticators
        calls).lastWriter .configFile schedule with
  | none => exact .inl (Pool.memory_of_lastWriter_none hLast)
  | some t =>
      cases t with
      | load t =>
          rcases Pool.memory_of_lastWriter (load_livePool t)
              hLast with
            ⟨content, _, hMem⟩
          rcases loadStores_cases (env t) (order t)
              content with
            ⟨hNone, _⟩ | ⟨config, _, _, hStores⟩
          · rw [hNone] at hMem
            cases hMem
          · rw [hStores] at hMem
            simp [storesOf] at hMem
      | write s =>
          rcases Pool.memory_of_lastWriter (write_livePool s)
              hLast with
            ⟨content, _, hMem⟩
          right
          refine ⟨s, ?_⟩
          have hItem := List.mem_singleton.mp hMem
          simpa using hItem
      | call r =>
          exact absurd hLast
            (Pool.lastWriter_ne_of_reads (reads_livePool r)
              _ _)

/-
  A pointer that has been stored is that of the version read
  by the execution of `load` that stored it last.
-/
theorem pointer_of_lastWriter_live
    {cell : Cell}
    (hPointer : cell ≠ .configFile)
    {t : Actor τ σ ρ}
    (hLast :
      (livePool env order writes w issuer authenticators
        calls).lastWriter cell schedule = some t) :
    ∃ u config,
      t = .load u ∧
        (livePool env order writes w issuer authenticators
            calls).firstSeen .configFile t schedule =
          some (.decoded config) ∧
        Loadable (env u) config ∧
        ((livePool env order writes w issuer authenticators
            calls).run schedule).memory cell =
          world (.decoded config)
            (lookupsOf (env u) (order u) config) cell := by
  cases t with
  | load u =>
      rcases Pool.memory_of_lastWriter (load_livePool u)
          hLast with
        ⟨content, hSeen, hMem⟩
      rcases stored_of_mem_loadStores hMem with
        ⟨config, hContent, hLoadable, hValue⟩
      rw [hContent] at hSeen
      exact ⟨u, config, rfl, hSeen, hLoadable, hValue⟩
  | write s =>
      rcases Pool.memory_of_lastWriter (write_livePool s)
          hLast with
        ⟨content, _, hMem⟩
      have hItem := List.mem_singleton.mp hMem
      exact absurd (congrArg Sigma.fst hItem) hPointer
  | call r =>
      exact absurd hLast
        (Pool.lastWriter_ne_of_reads (reads_livePool r) _ _)

/- What an execution of `load` has read was in the file. -/
theorem wasInFile_of_firstSeen
    {t : Actor τ σ ρ}
    {content : FileContent}
    (hSeen :
      (livePool env order writes w issuer authenticators
          calls).firstSeen .configFile t schedule =
        some content) :
    WasInFile
      (livePool env order writes w issuer authenticators calls)
      writes schedule content := by
  rcases Pool.exists_of_firstSeen hSeen with
    ⟨early, late, hSplit, hContent⟩
  refine ⟨?_, early, _, hSplit, hContent⟩
  rw [← hContent]
  exact put_run early

end AuthCallout

------------------------------------------------------------
-- The Answers
------------------------------------------------------------

namespace AuthCallout

open Cells Auth Config

variable {τ σ ρ : Type}
variable [DecidableEq τ] [DecidableEq σ] [DecidableEq ρ]
variable {env : τ → Go.Env} {order : τ → Go.Iteration}
variable {writes : σ → FileContent} {w : World}
variable {issuer : Issuer}
variable {authenticators : List Authenticator}
variable {calls : ρ → Call}

/-
  However the writes, the loads and the calls interleave, a
  call that has finished is answered under one version: the
  tables from the start, or those of one content that was in
  the file and that `load` accepts.
-/
theorem answer_of_one_version
    {schedule : List (Actor τ σ ρ)}
    {r : ρ}
    {result : Except Go.Fault UserJWT}
    (hDone :
      ((livePool env order writes w issuer authenticators
          calls).run schedule).threads (.call r) =
        .done result) :
    result =
        (answer issuer authenticators (calls r)).eval w ∨
      ∃ t config,
        WasInFile
            (livePool env order writes w issuer authenticators
              calls)
            writes schedule (.decoded config) ∧
          Loadable (env t) config ∧
          result =
            answerUnder (env t) (order t) config issuer
              authenticators (calls r) := by
  rcases exists_pointer_answer issuer authenticators
      (calls r) with
    ⟨cell, hPointer, hOnly⟩
  rcases Pool.exists_read_of_done hOnly rfl hDone with
    ⟨early, late, hSplit, hResult⟩
  cases hLast :
      (livePool env order writes w issuer authenticators
        calls).lastWriter cell early with
  | none =>
      left
      rw [hResult]
      exact hOnly.eval_congr
        (Pool.memory_of_lastWriter_none hLast)
  | some t =>
      rcases pointer_of_lastWriter_live hPointer hLast with
        ⟨u, config, _, hSeen, hLoadable, hValue⟩
      right
      refine ⟨u, config, ?_, hLoadable, ?_⟩
      · rw [hSplit]
        exact (wasInFile_of_firstSeen hSeen).append late
      rw [hResult]
      exact hOnly.eval_congr hValue

/-
  The execution of `load` that is left when all others have
  ended, or never run, is the last one to store a pointer
  once it has returned nil.
-/
theorem lastWriter_of_last_load
    {early late rest : List (Actor τ σ ρ)}
    {t : τ}
    (hStart : Actor.load t ∉ early)
    (hOthers :
      ∀ u,
        u ≠ t →
          (∃ result,
            ((livePool env order writes w issuer
                authenticators calls).run
              early).threads (.load u) = .done result) ∨
            Actor.load u ∉ early ++ late ++ rest)
    (hDone :
      ((livePool env order writes w issuer authenticators
          calls).run (early ++ late)).threads (.load t) =
        .done (.ok ()))
    {cell : Cell}
    (hPointer : cell ≠ .configFile) :
    (livePool env order writes w issuer authenticators
        calls).lastWriter cell (early ++ (late ++ rest)) =
      some (.load t) := by
  have hForm :
      ((livePool env order writes w issuer authenticators
          calls).run early).threads (.load t) =
        .readThenStore .configFile
          (loadStores (env t) (order t))
          (loadResult (env t) (order t)) :=
    (Pool.run_threads_of_not_mem _ hStart).trans
      (load_livePool t)
  rw [Pool.run_append] at hDone
  rcases Pool.stored_of_done hForm hDone with
    ⟨content, _, hResult, hStored⟩
  rcases loadStores_of_ok _ _ hResult.symm with
    ⟨_, _, hStores⟩
  have hLate :
      ((livePool env order writes w issuer authenticators
        calls).run early).lastWriter cell late ≠ none := by
    apply hStored ⟨cell, world content _ cell⟩
    rw [hStores]
    exact mem_storesOf content _ hPointer
  have hSome :
      ((livePool env order writes w issuer authenticators
          calls).run early).lastWriter cell
        (late ++ rest) ≠ none := by
    rw [Pool.lastWriter_append]
    intro hNone
    exact hLate (Option.or_eq_none_iff.mp hNone).2
  rcases Option.ne_none_iff_exists'.mp hSome with ⟨v, hLast⟩
  have hWhole :
      (livePool env order writes w issuer authenticators
          calls).lastWriter cell
        (early ++ (late ++ rest)) = some v := by
    rw [Pool.lastWriter_append, hLast, Option.some_or]
  rcases pointer_of_lastWriter_live hPointer hWhole with
    ⟨u, _, hLoad, _⟩
  rw [hLoad] at hLast hWhole
  by_cases hSame : u = t
  · rw [hWhole, hSame]
  · rcases hOthers u hSame with ⟨result, hEnded⟩ | hNever
    · exact absurd hLast
        (Pool.lastWriter_ne_of_done hEnded cell _)
    · rw [List.append_assoc] at hNever
      exact absurd (Pool.mem_of_lastWriter hWhole) hNever

/-
  A call that starts after an execution of `load` has returned
  nil is answered under the version which that execution has
  read, if all others had ended before it and none starts
  again: a user that is gone from the file is gone.
-/
theorem answer_after_last_load
    {early late rest : List (Actor τ σ ρ)}
    {t : τ}
    {r : ρ}
    {result : Except Go.Fault UserJWT}
    (hStart : Actor.load t ∉ early)
    (hOthers :
      ∀ u,
        u ≠ t →
          (∃ result,
            ((livePool env order writes w issuer
                authenticators calls).run
              early).threads (.load u) = .done result) ∨
            Actor.load u ∉ early ++ late ++ rest)
    (hDone :
      ((livePool env order writes w issuer authenticators
          calls).run (early ++ late)).threads (.load t) =
        .done (.ok ()))
    (hCall : Actor.call r ∉ early ++ late)
    (hAnswer :
      ((livePool env order writes w issuer authenticators
          calls).run (early ++ late ++ rest)).threads
          (.call r) =
        .done result) :
    ∃ config,
      (livePool env order writes w issuer authenticators
          calls).firstSeen .configFile (.load t)
          (early ++ late) =
        some (.decoded config) ∧
      result =
        answerUnder (env t) (order t) config issuer
          authenticators (calls r) := by
  rcases exists_pointer_answer issuer authenticators
      (calls r) with
    ⟨cell, hPointer, hOnly⟩
  have hWaiting :
      ((livePool env order writes w issuer authenticators
          calls).run (early ++ late)).threads (.call r) =
        (answer issuer authenticators
          (calls r)).toProgram :=
    Pool.run_threads_of_not_mem _ hCall
  rw [Pool.run_append] at hAnswer
  rcases Pool.exists_read_of_done hOnly hWaiting hAnswer with
    ⟨between, after, hRest, hResult⟩
  have hNever :
      ∀ u,
        u ≠ t →
          (∃ result,
            ((livePool env order writes w issuer
                authenticators calls).run
              early).threads (.load u) = .done result) ∨
            Actor.load u ∉ early ++ late ++ between := by
    intro u hOther
    rcases hOthers u hOther with hEnded | hNever
    · exact .inl hEnded
    · right
      intro hMem
      apply hNever
      rw [hRest, ← List.append_assoc]
      exact List.mem_append_left _ hMem
  have hLast :=
    lastWriter_of_last_load hStart hNever hDone hPointer
  rcases pointer_of_lastWriter_live hPointer hLast with
    ⟨u, config, hLoad, hSeen, _, hValue⟩
  cases hLoad
  -- What the execution has read it had read by then.
  have hEarlier :
      (livePool env order writes w issuer authenticators
          calls).firstSeen .configFile (.load t)
          (early ++ late) =
        some (.decoded config) := by
    rcases Pool.stored_of_done (load_livePool t) hDone with
      ⟨content, hContent, _⟩
    have hLater :=
      Pool.firstSeen_append_of_some hContent between
    rw [List.append_assoc, hSeen] at hLater
    rw [hContent, hLater]
  refine ⟨config, hEarlier, ?_⟩
  rw [hResult, ← Pool.run_append, List.append_assoc]
  exact hOnly.eval_congr hValue

/- The user file is replaced while the service runs. -/
def liveGuests :
    Pool Cell.Contents
      (LiveResult (τ := Unit) (σ := Unit) (ρ := Bool)) :=
  livePool (fun _ => clientEnv) (fun _ => .listed)
    (fun _ => .decoded guestsConfig)
    (reloads [⟨.decoded uiConfig, clientEnv, .listed⟩])
    plainIssuer [.oauth2 oauth2Client, .nkey, .noauth]
    twoGuests

/- A guest that asks in the middle of the reload. -/
theorem guest_of_one_version :
    .ok (plainToken ⟨"anonymous", "guests", .zero⟩) =
        (answer plainIssuer
          [.oauth2 oauth2Client, .nkey, .noauth]
          (twoGuests false)).eval
          (reloads [⟨.decoded uiConfig, clientEnv, .listed⟩]) ∨
      ∃ (_ : Unit) (config : PermissionsConfig),
        WasInFile liveGuests
            (fun _ : Unit => .decoded guestsConfig)
            [.write (), .write (), .load (), .load (),
              .call false]
            (.decoded config) ∧
          Loadable clientEnv config ∧
          .ok (plainToken ⟨"anonymous", "guests", .zero⟩) =
            answerUnder clientEnv .listed config plainIssuer
              [.oauth2 oauth2Client, .nkey, .noauth]
              (twoGuests false) :=
  @answer_of_one_version Unit Unit Bool _ _ _
    (fun _ => clientEnv) (fun _ => .listed)
    (fun _ => .decoded guestsConfig)
    (reloads [⟨.decoded uiConfig, clientEnv, .listed⟩])
    plainIssuer [.oauth2 oauth2Client, .nkey, .noauth]
    twoGuests
    [.write (), .write (), .load (), .load (), .call false]
    false _ rfl

/- A guest that asks after it. -/
theorem guest_after_last_load :
    ∃ config,
      liveGuests.firstSeen .configFile (.load ())
          ([.write (), .write ()] ++
            List.replicate 5 (.load ())) =
        some (.decoded config) ∧
      .ok (plainToken ⟨"anonymous", "guests", .zero⟩) =
        answerUnder clientEnv .listed config plainIssuer
          [.oauth2 oauth2Client, .nkey, .noauth]
          (twoGuests true) :=
  @answer_after_last_load Unit Unit Bool _ _ _
    (fun _ => clientEnv) (fun _ => .listed)
    (fun _ => .decoded guestsConfig)
    (reloads [⟨.decoded uiConfig, clientEnv, .listed⟩])
    plainIssuer [.oauth2 oauth2Client, .nkey, .noauth]
    twoGuests
    [.write (), .write ()] (List.replicate 5 (.load ()))
    [.call true] () true _ (by decide)
    (fun u hOther => absurd rfl hOther) rfl (by decide) rfl

end AuthCallout
