import DsxExchange.Cells.Program
import Mathlib.Data.List.Induction

/-
  Threads that share a memory of atomic cells.

  A schedule is the list of the threads that take the next
  step, one atomic step each, so a statement about every
  interleaving is one about every schedule.

  Key definitions include:
    * `Cells.Pool`, `Cells.Pool.step`, `Cells.Pool.run`
    * `Cells.Pool.turns`
    * `Cells.Pool.Reads`
    * `Cells.Pool.lastWriter`, `Cells.Pool.firstSeen`
    * `Cells.Program.Meets`, `Cells.Pool.Meets`

  Key theorems include:
    * `Cells.Pool.run_singleWriter`
    * `Cells.Pool.memory_of_readThenStore`
    * `Cells.Pool.exists_read_of_done`
    * `Cells.Pool.memory_of_lastWriter_none`
    * `Cells.Pool.memory_of_lastWriter`
    * `Cells.Pool.stored_of_done`
    * `Cells.Pool.post_of_done`
-/

------------------------------------------------------------
-- Pools And Schedules
------------------------------------------------------------

namespace Cells

variable {ι τ : Type} [DecidableEq ι] [DecidableEq τ]
variable {κ : ι → Type} {α : τ → Type}

/- A shared memory and the rest of each thread's program. -/
structure Pool (κ : ι → Type) (α : τ → Type) where
  memory : Memory κ
  threads : ∀ t, Program κ (α t)

namespace Pool

/- One thread performs its next atomic step. -/
def step (pool : Pool κ α) (t : τ) : Pool κ α :=
  let next := (pool.threads t).advance pool.memory
  { memory := next.2
    threads := Function.update pool.threads t next.1 }

/- Threads step in the order of a schedule. -/
def run (pool : Pool κ α) (schedule : List τ) :
    Pool κ α :=
  schedule.foldl step pool

/- How often a schedule lets a thread step. -/
def turns (t : τ) (schedule : List τ) : Nat :=
  schedule.countP (fun u => u = t)

theorem turns_append
    (t : τ)
    (early late : List τ) :
    turns t (early ++ late) = turns t early + turns t late :=
  List.countP_append

theorem turns_singleton (t u : τ) :
    turns t [u] = if u = t then 1 else 0 := by
  simp [turns, List.countP_singleton]

@[simp] theorem run_nil (pool : Pool κ α) :
    pool.run [] = pool :=
  rfl

theorem run_append
    (pool : Pool κ α)
    (early late : List τ) :
    pool.run (early ++ late) = (pool.run early).run late :=
  List.foldl_append

theorem run_concat
    (pool : Pool κ α)
    (schedule : List τ)
    (t : τ) :
    pool.run (schedule ++ [t]) = (pool.run schedule).step t :=
  run_append pool schedule [t]

@[simp] theorem step_threads_self
    (pool : Pool κ α)
    (t : τ) :
    (pool.step t).threads t =
      ((pool.threads t).advance pool.memory).1 :=
  Function.update_self ..

theorem step_threads_of_ne
    (pool : Pool κ α)
    {t u : τ}
    (hNe : u ≠ t) :
    (pool.step t).threads u = pool.threads u :=
  Function.update_of_ne hNe ..

theorem step_memory
    (pool : Pool κ α)
    (t : τ) :
    (pool.step t).memory =
      ((pool.threads t).advance pool.memory).2 :=
  rfl

/- A thread that is not scheduled does not move. -/
theorem run_threads_of_not_mem
    (pool : Pool κ α)
    {schedule : List τ}
    {t : τ}
    (hNot : t ∉ schedule) :
    (pool.run schedule).threads t = pool.threads t := by
  induction schedule generalizing pool with
  | nil => rfl
  | cons u rest ih =>
      rw [List.mem_cons, not_or] at hNot
      exact (ih (pool.step u) hNot.2).trans
        (step_threads_of_ne pool hNot.1)

/- A finished thread stays finished. -/
theorem run_threads_of_done
    {pool : Pool κ α}
    {t : τ}
    {result : α t}
    (hDone : pool.threads t = .done result)
    (schedule : List τ) :
    (pool.run schedule).threads t = .done result := by
  induction schedule generalizing pool with
  | nil => exact hDone
  | cons u rest ih =>
      have hStep : (pool.step u).threads t = .done result := by
        by_cases hEq : t = u
        · subst hEq
          rw [step_threads_self, hDone]
          rfl
        · rw [step_threads_of_ne pool hEq, hDone]
      exact ih hStep

end Pool

end Cells

------------------------------------------------------------
-- Readers And A Single Writer
------------------------------------------------------------

namespace Cells

namespace Pool

variable {ι τ : Type} [DecidableEq ι] [DecidableEq τ]
variable {κ : ι → Type} {α : τ → Type}

/- The rest of the thread's program is a query. -/
def Reads (pool : Pool κ α) (t : τ) : Prop :=
  ∃ query : Query κ (α t),
    pool.threads t = query.toProgram

/- A reader's step leaves the memory alone. -/
theorem step_memory_of_reads
    {pool : Pool κ α}
    {t : τ}
    (hReads : pool.Reads t) :
    (pool.step t).memory = pool.memory := by
  rcases hReads with ⟨query, hQuery⟩
  rw [step_memory, hQuery]
  cases query <;> rfl

/- A reader stays a reader. -/
theorem Reads.step
    {pool : Pool κ α}
    {t : τ}
    (hReads : pool.Reads t)
    (u : τ) :
    (pool.step u).Reads t := by
  by_cases hEq : t = u
  · subst hEq
    rcases hReads with ⟨query, hQuery⟩
    cases query with
    | done result =>
        refine ⟨.done result, ?_⟩
        rw [step_threads_self, hQuery]
        rfl
    | load i next =>
        refine ⟨next (pool.memory i), ?_⟩
        rw [step_threads_self, hQuery]
        rfl
  · rcases hReads with ⟨query, hQuery⟩
    exact ⟨query,
      (step_threads_of_ne pool hEq).trans hQuery⟩

/-
  With one writer and any number of readers, the memory and
  the writer are those of the writer running alone for as
  many steps as the schedule gives it.
-/
theorem run_singleWriter
    {pool : Pool κ α}
    {writer : τ}
    (hReads : ∀ t, t ≠ writer → pool.Reads t)
    (schedule : List τ) :
    ((pool.run schedule).threads writer,
        (pool.run schedule).memory) =
      (pool.threads writer).after
        (turns writer schedule) pool.memory ∧
      ∀ t, t ≠ writer → (pool.run schedule).Reads t := by
  induction schedule using List.reverseRecOn with
  | nil => exact ⟨rfl, hReads⟩
  | append_singleton schedule t ih =>
      rcases ih with ⟨hAlone, hReaders⟩
      rw [run_concat]
      refine ⟨?_, fun u hNe => (hReaders u hNe).step t⟩
      by_cases hWriter : t = writer
      · subst hWriter
        rw [step_threads_self, step_memory, turns_append,
          turns_singleton, if_pos rfl, Program.after_succ,
          ← hAlone]
      · rw [step_threads_of_ne _ (Ne.symm hWriter),
          step_memory_of_reads (hReaders t hWriter),
          hAlone, turns_append, turns_singleton,
          if_neg hWriter, Nat.add_zero]

/-
  When the writer reads a cell and then stores a row, the
  memory is that of a part of the row.
-/
theorem memory_of_readThenStore
    {pool : Pool κ α}
    {writer : τ}
    {i : ι}
    {items : κ i → List (Item κ)}
    {result : κ i → α writer}
    (hWriter :
      pool.threads writer =
        .readThenStore i items result)
    (hReads : ∀ t, t ≠ writer → pool.Reads t)
    (schedule : List τ) :
    (pool.run schedule).memory =
      writeAll pool.memory
        ((items (pool.memory i)).take
          (turns writer schedule - 1)) := by
  have hAlone := (run_singleWriter hReads schedule).1
  rw [hWriter] at hAlone
  have hMemory := congrArg Prod.snd hAlone
  cases hCount : turns writer schedule with
  | zero =>
      rw [hCount] at hMemory
      exact hMemory
  | succ n =>
      rw [hCount, Program.after_readThenStore] at hMemory
      exact hMemory

/-
  A query of one cell that has finished did its load in some
  memory of the run: its result is that of running alone
  there.
-/
theorem exists_read_of_done
    {pool : Pool κ α}
    {t : τ}
    {query : Query κ (α t)}
    {i : ι}
    (hQuery : query.LoadsOnly i)
    (hStart : pool.threads t = query.toProgram)
    {schedule : List τ}
    {result : α t}
    (hDone :
      (pool.run schedule).threads t = .done result) :
    ∃ early late,
      schedule = early ++ late ∧
        result = query.eval (pool.run early).memory := by
  rcases hQuery with ⟨value, rfl⟩ | ⟨answer, rfl⟩
  · refine ⟨[], schedule, rfl, ?_⟩
    have hSame := run_threads_of_done hStart schedule
    rw [hSame] at hDone
    exact (Program.done.inj hDone).symm
  · by_cases hMem : t ∈ schedule
    · -- The first step of the thread is its load.
      rcases List.eq_append_cons_of_mem hMem with
        ⟨early, late, rfl, hEarly⟩
      refine ⟨early, t :: late, rfl, ?_⟩
      have hBefore :
          (pool.run early).threads t =
            (Query.load i (fun value =>
              .done (answer value))).toProgram :=
        (run_threads_of_not_mem pool hEarly).trans hStart
      have hAfter :
          ((pool.run early).step t).threads t =
            .done (answer ((pool.run early).memory i)) := by
        rw [step_threads_self, hBefore]
        rfl
      rw [run_append] at hDone
      have hSame := run_threads_of_done hAfter late
      exact (Program.done.inj
        (hDone.symm.trans hSame))
    · rw [run_threads_of_not_mem pool hMem, hStart] at hDone
      cases hDone

end Pool

end Cells

------------------------------------------------------------
-- Last Stores And First Steps
------------------------------------------------------------

namespace Cells

variable {ι τ : Type} [DecidableEq ι] [DecidableEq τ]
variable {κ : ι → Type} {α : τ → Type}

/- The cell that the next step stores to, if it is a store. -/
def Program.target? {β : Type} : Program κ β → Option ι
| .store i _ _ => some i
| _ => none

/- A step changes at most the cell it stores to. -/
theorem Program.advance_memory_of_ne
    {β : Type}
    {program : Program κ β}
    {i : ι}
    (hTarget : program.target? ≠ some i)
    (memory : Memory κ) :
    (program.advance memory).2 i = memory i := by
  cases program with
  | done result => rfl
  | load j next => rfl
  | store j value next =>
      have hNe : i ≠ j := by
        rintro rfl
        exact hTarget rfl
      exact Function.update_of_ne hNe ..

namespace Pool

/- The thread whose store to a cell came last. -/
def lastWriter
    (pool : Pool κ α)
    (i : ι) :
    List τ → Option τ
| [] => none
| t :: rest =>
    ((pool.step t).lastWriter i rest).or
      (if (pool.threads t).target? = some i then
        some t
      else
        none)

/- What a cell held when a thread took its first step. -/
def firstSeen
    (pool : Pool κ α)
    (i : ι)
    (t : τ) :
    List τ → Option (κ i)
| [] => none
| u :: rest =>
    if u = t then
      some (pool.memory i)
    else
      (pool.step u).firstSeen i t rest

theorem lastWriter_concat
    (pool : Pool κ α)
    (i : ι)
    (schedule : List τ)
    (t : τ) :
    pool.lastWriter i (schedule ++ [t]) =
      if ((pool.run schedule).threads t).target? =
          some i then
        some t
      else
        pool.lastWriter i schedule := by
  induction schedule generalizing pool with
  | nil => rfl
  | cons u rest ih =>
      simp only [List.cons_append, lastWriter, ih]
      rw [show pool.run (u :: rest) =
        (pool.step u).run rest from rfl]
      split
      · rfl
      · rfl

theorem firstSeen_concat
    (pool : Pool κ α)
    (i : ι)
    (t : τ)
    (schedule : List τ)
    (u : τ) :
    pool.firstSeen i t (schedule ++ [u]) =
      (pool.firstSeen i t schedule).or
        (if u = t then
          some ((pool.run schedule).memory i)
        else
          none) := by
  induction schedule generalizing pool with
  | nil => simp [firstSeen]
  | cons v rest ih =>
      simp only [List.cons_append, firstSeen, ih]
      split
      · rfl
      · rfl

/- A cell that no thread stored to is unchanged. -/
theorem memory_of_lastWriter_none
    {pool : Pool κ α}
    {i : ι}
    {schedule : List τ}
    (hNone : pool.lastWriter i schedule = none) :
    (pool.run schedule).memory i = pool.memory i := by
  induction schedule using List.reverseRecOn with
  | nil => rfl
  | append_singleton schedule t ih =>
      rw [lastWriter_concat] at hNone
      split at hNone
      · cases hNone
      · rename_i hTarget
        rw [run_concat, step_memory,
          Program.advance_memory_of_ne hTarget, ih hNone]

end Pool

end Cells

------------------------------------------------------------
-- Threads That Read And Then Store
------------------------------------------------------------

namespace Cells

namespace Pool

variable {ι τ : Type} [DecidableEq ι] [DecidableEq τ]
variable {κ : ι → Type} {α : τ → Type}

/- A thread that has not been scheduled has seen nothing. -/
theorem not_mem_of_firstSeen_none
    {pool : Pool κ α}
    {i : ι}
    {t : τ}
    {schedule : List τ}
    (hNone : pool.firstSeen i t schedule = none) :
    t ∉ schedule := by
  induction schedule generalizing pool with
  | nil => simp
  | cons u rest ih =>
      unfold firstSeen at hNone
      split at hNone
      · cases hNone
      · rename_i hNe
        rw [List.mem_cons, not_or]
        exact ⟨fun h => hNe h.symm, ih hNone⟩

/- What a thread has seen first does not change. -/
theorem firstSeen_concat_of_some
    {pool : Pool κ α}
    {i : ι}
    {t : τ}
    {schedule : List τ}
    {value : κ i}
    (hSeen : pool.firstSeen i t schedule = some value)
    (u : τ) :
    pool.firstSeen i t (schedule ++ [u]) = some value := by
  rw [firstSeen_concat, hSeen, Option.some_or]

/- A cell that has been stored has a last writer. -/
theorem lastWriter_concat_ne_none
    {pool : Pool κ α}
    {i : ι}
    {schedule : List τ}
    (hStored : pool.lastWriter i schedule ≠ none)
    (u : τ) :
    pool.lastWriter i (schedule ++ [u]) ≠ none := by
  rw [lastWriter_concat]
  split
  · simp
  · exact hStored

/- The last writer was about to store in the schedule. -/
theorem target_of_lastWriter
    {pool : Pool κ α}
    {i : ι}
    {schedule : List τ}
    {t : τ}
    (hLast : pool.lastWriter i schedule = some t) :
    ∃ early late,
      schedule = early ++ late ∧
        ((pool.run early).threads t).target? = some i := by
  induction schedule using List.reverseRecOn with
  | nil => cases hLast
  | append_singleton schedule u ih =>
      rw [lastWriter_concat] at hLast
      split at hLast
      · rename_i hTarget
        cases hLast
        exact ⟨schedule, [t], rfl, hTarget⟩
      · rcases ih hLast with ⟨early, late, rfl, hTarget⟩
        exact ⟨early, late ++ [u], by simp, hTarget⟩

/- A finished thread stores nothing any more. -/
theorem lastWriter_ne_of_done
    {pool : Pool κ α}
    {t : τ}
    {result : α t}
    (hDone : pool.threads t = .done result)
    (i : ι)
    (schedule : List τ) :
    pool.lastWriter i schedule ≠ some t := by
  intro hLast
  rcases target_of_lastWriter hLast with
    ⟨early, late, _, hTarget⟩
  rw [run_threads_of_done hDone early] at hTarget
  cases hTarget

/- The last writer of a whole run, from that of its parts. -/
theorem lastWriter_append
    (pool : Pool κ α)
    (i : ι)
    (early late : List τ) :
    pool.lastWriter i (early ++ late) =
      ((pool.run early).lastWriter i late).or
        (pool.lastWriter i early) := by
  induction late using List.reverseRecOn with
  | nil => simp [lastWriter]
  | append_singleton late u ih =>
      rw [← List.append_assoc, lastWriter_concat,
        lastWriter_concat, run_append, ih]
      split
      · rfl
      · rfl

variable {pool : Pool κ α} {t : τ} {i : ι}
variable {items : κ i → List (Item κ)}
variable {result : κ i → α t}

/-
  A thread that has taken its first step has stored a part of
  its row, and the rest of its program is the rest of it.
-/
theorem progress_of_firstSeen
    (hForm :
      pool.threads t = .readThenStore i items result)
    {schedule : List τ}
    {value : κ i}
    (hSeen : pool.firstSeen i t schedule = some value) :
    ∃ stored rest,
      items value = stored ++ rest ∧
        (pool.run schedule).threads t =
          .storeAll (result value) rest ∧
        ∀ item ∈ stored,
          pool.lastWriter item.1 schedule ≠ none := by
  induction schedule using List.reverseRecOn with
  | nil => cases hSeen
  | append_singleton schedule u ih =>
      rw [run_concat]
      cases hBefore : pool.firstSeen i t schedule with
      | none =>
          -- The step is the thread's first one.
          rw [firstSeen_concat, hBefore,
            Option.none_or] at hSeen
          split at hSeen
          · rename_i hSelf
            subst hSelf
            cases hSeen
            refine ⟨[], _, rfl, ?_, by simp⟩
            rw [step_threads_self,
              run_threads_of_not_mem pool
                (not_mem_of_firstSeen_none hBefore), hForm]
            rfl
          · cases hSeen
      | some seen =>
          rw [firstSeen_concat_of_some hBefore u] at hSeen
          cases hSeen
          rcases ih hBefore with
            ⟨stored, rest, hItems, hThread, hStored⟩
          have hKept :
              ∀ item ∈ stored,
                pool.lastWriter item.1 (schedule ++ [u]) ≠
                  none :=
            fun item hMem =>
              lastWriter_concat_ne_none (hStored item hMem) u
          by_cases hSelf : t = u
          · subst hSelf
            rw [step_threads_self, hThread]
            cases rest with
            | nil =>
                exact ⟨stored, [], hItems, rfl, hKept⟩
            | cons item rest =>
                refine ⟨stored ++ [item], rest, by simp
                  [hItems], rfl, ?_⟩
                intro other hMem
                rcases List.mem_append.mp hMem with
                  hMem | hMem
                · exact hKept other hMem
                · rw [List.mem_singleton.mp hMem,
                    lastWriter_concat, hThread]
                  simp [Program.storeAll, Program.target?]
          · rw [step_threads_of_ne _ hSelf]
            exact ⟨stored, rest, hItems, hThread, hKept⟩

/-
  A cell holds what the thread that stored it last had to
  store in it, after what that thread has read.
-/
theorem memory_of_lastWriter
    (hForm :
      pool.threads t = .readThenStore i items result)
    {schedule : List τ}
    {j : ι}
    (hLast : pool.lastWriter j schedule = some t) :
    ∃ value,
      pool.firstSeen i t schedule = some value ∧
        ⟨j, (pool.run schedule).memory j⟩ ∈
          items value := by
  induction schedule using List.reverseRecOn with
  | nil => cases hLast
  | append_singleton schedule u ih =>
      rw [lastWriter_concat] at hLast
      rw [run_concat, step_memory]
      split at hLast
      · rename_i hTarget
        cases hLast
        cases hSeen : pool.firstSeen i t schedule with
        | none =>
            rw [run_threads_of_not_mem pool
              (not_mem_of_firstSeen_none hSeen), hForm]
              at hTarget
            cases hTarget
        | some value =>
            rcases progress_of_firstSeen hForm hSeen with
              ⟨stored, rest, hItems, hThread, _⟩
            rw [hThread] at hTarget ⊢
            cases rest with
            | nil => cases hTarget
            | cons item rest =>
                have hCell : item.1 = j :=
                  Option.some.inj hTarget
                subst hCell
                refine ⟨value,
                  firstSeen_concat_of_some hSeen t, ?_⟩
                simp only [Program.storeAll,
                  Program.advance, Function.update_self,
                  hItems]
                exact List.mem_append_right _
                  List.mem_cons_self
      · rename_i hTarget
        rcases ih hLast with ⟨value, hSeen, hMem⟩
        refine ⟨value, firstSeen_concat_of_some hSeen u, ?_⟩
        rw [Program.advance_memory_of_ne hTarget]
        exact hMem

/- A thread that has finished has stored its whole row. -/
theorem stored_of_done
    (hForm :
      pool.threads t = .readThenStore i items result)
    {schedule : List τ}
    {returned : α t}
    (hDone :
      (pool.run schedule).threads t = .done returned) :
    ∃ value,
      pool.firstSeen i t schedule = some value ∧
        returned = result value ∧
        ∀ item ∈ items value,
          pool.lastWriter item.1 schedule ≠ none := by
  cases hSeen : pool.firstSeen i t schedule with
  | none =>
      rw [run_threads_of_not_mem pool
        (not_mem_of_firstSeen_none hSeen), hForm] at hDone
      cases hDone
  | some value =>
      rcases progress_of_firstSeen hForm hSeen with
        ⟨stored, rest, hItems, hThread, hStored⟩
      rw [hThread] at hDone
      cases rest with
      | nil =>
          rw [List.append_nil] at hItems
          refine ⟨value, rfl, ?_, ?_⟩
          · exact (Program.done.inj hDone).symm
          · rw [hItems]
            exact hStored
      | cons item rest => cases hDone

end Pool

end Cells

------------------------------------------------------------
-- Readers Among Writers
------------------------------------------------------------

namespace Cells

namespace Pool

variable {ι τ : Type} [DecidableEq ι] [DecidableEq τ]
variable {κ : ι → Type} {α : τ → Type}
variable {pool : Pool κ α} {t : τ} {i : ι}

theorem reads_run
    (hReads : pool.Reads t)
    (schedule : List τ) :
    (pool.run schedule).Reads t := by
  induction schedule generalizing pool with
  | nil => exact hReads
  | cons u rest ih => exact ih (hReads.step u)

/- A reader stores nothing. -/
theorem lastWriter_ne_of_reads
    (hReads : pool.Reads t)
    (i : ι)
    (schedule : List τ) :
    pool.lastWriter i schedule ≠ some t := by
  intro hLast
  rcases target_of_lastWriter hLast with
    ⟨early, late, _, hTarget⟩
  rcases reads_run hReads early with ⟨query, hQuery⟩
  rw [hQuery] at hTarget
  cases query with
  | done result => cases hTarget
  | load j next => cases hTarget

/- The last writer was scheduled. -/
theorem mem_of_lastWriter
    {schedule : List τ}
    (hLast : pool.lastWriter i schedule = some t) :
    t ∈ schedule := by
  induction schedule using List.reverseRecOn with
  | nil => cases hLast
  | append_singleton schedule u ih =>
      rw [lastWriter_concat] at hLast
      split at hLast
      · rw [Option.some.inj hLast]
        simp
      · exact List.mem_append_left _ (ih hLast)

/- What a thread has seen was in the cell at some time. -/
theorem exists_of_firstSeen
    {schedule : List τ}
    {value : κ i}
    (hSeen : pool.firstSeen i t schedule = some value) :
    ∃ early late,
      schedule = early ++ late ∧
        (pool.run early).memory i = value := by
  induction schedule using List.reverseRecOn with
  | nil => cases hSeen
  | append_singleton schedule u ih =>
      rw [firstSeen_concat] at hSeen
      rcases Option.or_eq_some_iff.mp hSeen with
        hBefore | ⟨_, hNow⟩
      · rcases ih hBefore with ⟨early, late, hEq, hValue⟩
        exact ⟨early, late ++ [u], by simp [hEq], hValue⟩
      · split at hNow
        · exact ⟨schedule, [u], rfl, Option.some.inj hNow⟩
        · cases hNow

/- What a thread has seen in a part it has seen in the whole. -/
theorem firstSeen_append_of_some
    {early : List τ}
    {value : κ i}
    (hSeen : pool.firstSeen i t early = some value)
    (late : List τ) :
    pool.firstSeen i t (early ++ late) = some value := by
  induction late using List.reverseRecOn with
  | nil => simpa using hSeen
  | append_singleton late u ih =>
      rw [← List.append_assoc]
      exact firstSeen_concat_of_some ih u

end Pool

end Cells

------------------------------------------------------------
-- Invariants Of Cells
------------------------------------------------------------

namespace Cells

variable {ι : Type} {κ : ι → Type} {α β : Type}

/-
  As long as every cell it loads holds what it should, the
  program stores only what the cell should hold, and its
  result satisfies the postcondition.
-/
def Program.Meets
    (holds : ∀ i, κ i → Prop)
    (post : α → Prop) : Program κ α → Prop
| .done result => post result
| .load i next =>
    ∀ value, holds i value → (next value).Meets holds post
| .store i value next =>
    holds i value ∧ next.Meets holds post

variable {holds : ∀ i, κ i → Prop}

/- The continuation may rely on the first postcondition. -/
theorem Program.Meets.bind
    {program : Program κ α}
    {next : α → Program κ β}
    {between : α → Prop}
    {post : β → Prop}
    (hMeets : program.Meets holds between)
    (hNext :
      ∀ result,
        between result → (next result).Meets holds post) :
    (program.bind next).Meets holds post := by
  induction program with
  | done result => exact hNext result hMeets
  | load i rest ih =>
      intro value hValue
      exact ih value (hMeets value hValue)
  | store i value rest ih =>
      exact ⟨hMeets.1, ih hMeets.2⟩

variable [DecidableEq ι]

/- One step keeps the cells and the program in order. -/
theorem Program.Meets.advance
    {program : Program κ α}
    {post : α → Prop}
    (hMeets : program.Meets holds post)
    {memory : Memory κ}
    (hMemory : ∀ i, holds i (memory i)) :
    (program.advance memory).1.Meets holds post ∧
      ∀ i, holds i ((program.advance memory).2 i) := by
  cases program with
  | done result => exact ⟨hMeets, hMemory⟩
  | load j next => exact ⟨hMeets _ (hMemory j), hMemory⟩
  | store j value next =>
      refine ⟨hMeets.2, fun i => ?_⟩
      by_cases hCell : i = j
      · subst hCell
        simpa [Program.advance] using hMeets.1
      · simpa [Program.advance, hCell] using hMemory i

namespace Pool

variable {τ : Type} [DecidableEq τ] {γ : τ → Type}

/- All threads keep to what the cells should hold. -/
structure Meets
    (pool : Pool κ γ)
    (holds : ∀ i, κ i → Prop)
    (post : ∀ t, γ t → Prop) : Prop where
  memory : ∀ i, holds i (pool.memory i)
  threads :
    ∀ t, (pool.threads t).Meets holds (post t)

variable {pool : Pool κ γ} {post : ∀ t, γ t → Prop}

theorem Meets.step
    (hMeets : pool.Meets holds post)
    (t : τ) :
    (pool.step t).Meets holds post := by
  have hNext := (hMeets.threads t).advance hMeets.memory
  refine ⟨hNext.2, fun u => ?_⟩
  by_cases hSelf : u = t
  · subst hSelf
    rw [step_threads_self]
    exact hNext.1
  · rw [step_threads_of_ne pool hSelf]
    exact hMeets.threads u

theorem Meets.run
    (hMeets : pool.Meets holds post)
    (schedule : List τ) :
    (pool.run schedule).Meets holds post := by
  induction schedule generalizing pool with
  | nil => exact hMeets
  | cons t rest ih => exact ih (hMeets.step t)

/- However the threads interleave, results are as promised. -/
theorem post_of_done
    (hMeets : pool.Meets holds post)
    {schedule : List τ}
    {t : τ}
    {result : γ t}
    (hDone :
      (pool.run schedule).threads t = .done result) :
    post t result := by
  have hThread := (hMeets.run schedule).threads t
  rw [hDone] at hThread
  exact hThread

end Pool

end Cells
