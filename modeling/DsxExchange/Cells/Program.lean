import Mathlib.Data.List.Basic

/-
  Programs over atomic cells.

  A memory holds one value for each cell. A `Query` reads
  cells one at a time and returns a result; a `Program` may
  also store. Each load and each store is one atomic step,
  and everything between two of them is pure.

  Key definitions include:
    * `Cells.Memory`
    * `Cells.Query`, `Cells.Query.eval`
    * `Cells.Query.LoadsOnly`
    * `Cells.Program`, `Cells.Program.advance`,
      `Cells.Program.run`, `Cells.Program.after`
    * `Cells.Program.storeAll`
    * `Cells.Program.readThenStore`
    * `Cells.Program.bind`, `Cells.Program.map`

  Key theorems include:
    * `Cells.Query.eval_bind`
    * `Cells.Query.LoadsOnly.bind_pure`
    * `Cells.Query.LoadsOnly.eval_congr`
    * `Cells.writeAll_take`
    * `Cells.Program.after_readThenStore`
    * `Cells.Program.run_bind`
-/

------------------------------------------------------------
-- Memories And Queries
------------------------------------------------------------

namespace Cells

variable {ι : Type}

/- One value for each cell. -/
abbrev Memory (κ : ι → Type) := ∀ i, κ i

/- A computation that only reads. -/
inductive Query (κ : ι → Type) (α : Type) where
  | done (result : α)
  | load (i : ι) (next : κ i → Query κ α)

namespace Query

variable {κ : ι → Type} {α β : Type}

/- Run a query and continue with its result. -/
def bind : Query κ α → (α → Query κ β) → Query κ β
| .done result, next => next result
| .load i rest, next =>
    .load i (fun value => (rest value).bind next)

instance : Monad (Query κ) where
  pure := .done
  bind := bind

/- Run a query alone. -/
def eval : Query κ α → Memory κ → α
| .done result, _ => result
| .load i next, memory => (next (memory i)).eval memory

@[simp] theorem eval_done
    (result : α)
    (memory : Memory κ) :
    (Query.done result : Query κ α).eval memory = result :=
  rfl

@[simp] theorem eval_load
    (i : ι)
    (next : κ i → Query κ α)
    (memory : Memory κ) :
    (Query.load i next).eval memory =
      (next (memory i)).eval memory :=
  rfl

@[simp] theorem eval_bind
    (query : Query κ α)
    (next : α → Query κ β)
    (memory : Memory κ) :
    (query.bind next).eval memory =
      (next (query.eval memory)).eval memory := by
  induction query with
  | done result => rfl
  | load i rest ih => exact ih (memory i)

end Query

end Cells

------------------------------------------------------------
-- Queries Of One Cell
------------------------------------------------------------

namespace Cells

namespace Query

variable {ι : Type} {κ : ι → Type} {α β : Type}

/-
  The query loads the given cell at most once, and no other
  cell.
-/
def LoadsOnly (i : ι) (query : Query κ α) : Prop :=
  (∃ result, query = .done result) ∨
    ∃ answer : κ i → α,
      query = .load i (fun value => .done (answer value))

theorem LoadsOnly.done
    (i : ι)
    (result : α) :
    (Query.done result : Query κ α).LoadsOnly i :=
  Or.inl ⟨result, rfl⟩

theorem LoadsOnly.load
    (i : ι)
    (answer : κ i → α) :
    (Query.load i (fun value => .done (answer value)) :
      Query κ α).LoadsOnly i :=
  Or.inr ⟨answer, rfl⟩

/- Pure work after the load changes nothing. -/
theorem LoadsOnly.bind_pure
    {i : ι}
    {query : Query κ α}
    (hQuery : query.LoadsOnly i)
    {next : α → Query κ β}
    {answer : α → β}
    (hNext : ∀ result, next result = .done (answer result)) :
    (query.bind next).LoadsOnly i := by
  rcases hQuery with ⟨result, rfl⟩ | ⟨value, rfl⟩
  · exact Or.inl ⟨answer result, hNext result⟩
  · refine Or.inr ⟨fun v => answer (value v), ?_⟩
    simp only [bind, hNext]

/- The result depends on the one cell only. -/
theorem LoadsOnly.eval_congr
    {i : ι}
    {query : Query κ α}
    (hQuery : query.LoadsOnly i)
    {left right : Memory κ}
    (hCell : left i = right i) :
    query.eval left = query.eval right := by
  rcases hQuery with ⟨result, rfl⟩ | ⟨answer, rfl⟩
  · rfl
  · simp only [eval_load, eval_done, hCell]

end Query

end Cells

------------------------------------------------------------
-- Programs
------------------------------------------------------------

namespace Cells

/- A computation that reads and stores. -/
inductive Program {ι : Type} (κ : ι → Type) (α : Type) where
  | done (result : α)
  | load (i : ι) (next : κ i → Program κ α)
  | store (i : ι) (value : κ i) (next : Program κ α)

/- A query is a program without stores. -/
def Query.toProgram {ι : Type} {κ : ι → Type} {α : Type} :
    Query κ α → Program κ α
| .done result => .done result
| .load i next => .load i (fun v => (next v).toProgram)

namespace Program

variable {ι : Type} [DecidableEq ι]
variable {κ : ι → Type} {α : Type}

/- Perform the next atomic step. -/
def advance :
    Program κ α → Memory κ → Program κ α × Memory κ
| .done result, memory => (.done result, memory)
| .load i next, memory => (next (memory i), memory)
| .store i value next, memory =>
    (next, Function.update memory i value)

/- Run a program alone to its end. -/
def run : Program κ α → Memory κ → α × Memory κ
| .done result, memory => (result, memory)
| .load i next, memory => (next (memory i)).run memory
| .store i value next, memory =>
    next.run (Function.update memory i value)

/- Perform a number of atomic steps. -/
def after (n : Nat) (program : Program κ α)
    (memory : Memory κ) : Program κ α × Memory κ :=
  match n with
  | 0 => (program, memory)
  | n + 1 =>
      let before := program.after n memory
      before.1.advance before.2

theorem after_succ
    (n : Nat)
    (program : Program κ α)
    (memory : Memory κ) :
    program.after (n + 1) memory =
      (program.after n memory).1.advance
        (program.after n memory).2 :=
  rfl

end Program

end Cells

------------------------------------------------------------
-- Rows Of Stores
------------------------------------------------------------

namespace Cells

variable {ι : Type} [DecidableEq ι]
variable {κ : ι → Type} {α : Type}

/- A value for one cell. -/
abbrev Item (κ : ι → Type) := (i : ι) × κ i

/- The memory after a row of stores. -/
def writeAll (memory : Memory κ) :
    List (Item κ) → Memory κ
| [] => memory
| item :: rest =>
    writeAll (Function.update memory item.1 item.2) rest

theorem writeAll_concat
    (memory : Memory κ)
    (items : List (Item κ))
    (item : Item κ) :
    writeAll memory (items ++ [item]) =
      Function.update (writeAll memory items)
        item.1 item.2 := by
  induction items generalizing memory with
  | nil => rfl
  | cons first rest ih => exact ih _

/- A cell without a store keeps its value. -/
theorem writeAll_of_not_mem
    {memory : Memory κ}
    {items : List (Item κ)}
    {i : ι}
    (hNot : i ∉ items.map Sigma.fst) :
    writeAll memory items i = memory i := by
  induction items generalizing memory with
  | nil => rfl
  | cons item rest ih =>
      rw [List.map_cons, List.mem_cons, not_or] at hNot
      rw [writeAll, ih hNot.2,
        Function.update_of_ne hNot.1]

/-
  When each cell is stored once, the first stores leave the
  later cells alone, and they settle the others.
-/
theorem writeAll_take
    {items : List (Item κ)}
    (hDistinct : (items.map Sigma.fst).Nodup)
    (memory : Memory κ)
    (n : Nat)
    (i : ι) :
    writeAll memory (items.take n) i =
      if (items.map Sigma.fst).idxOf i < n then
        writeAll memory items i
      else
        memory i := by
  induction items generalizing memory n with
  | nil => simp [writeAll]
  | cons item rest ih =>
      rw [List.map_cons, List.nodup_cons] at hDistinct
      cases n with
      | zero => simp [writeAll]
      | succ n =>
          rw [List.take_succ_cons, writeAll,
            ih hDistinct.2, writeAll, List.map_cons]
          by_cases hEq : item.1 = i
          · subst hEq
            rw [List.idxOf_cons_self,
              writeAll_of_not_mem hDistinct.1]
            simp
          · rw [List.idxOf_cons_ne _ hEq,
              Function.update_of_ne (Ne.symm hEq)]
            simp only [Nat.succ_lt_succ_iff]

namespace Program

/- Store a row of values, and return. -/
def storeAll (result : α) :
    List (Item κ) → Program κ α
| [] => .done result
| item :: rest =>
    .store item.1 item.2 (storeAll result rest)

/- Read one cell, and store what follows from it. -/
def readThenStore
    (i : ι)
    (items : κ i → List (Item κ))
    (result : κ i → α) : Program κ α :=
  .load i (fun value =>
    storeAll (result value) (items value))

theorem run_storeAll
    (result : α)
    (items : List (Item κ))
    (memory : Memory κ) :
    (storeAll result items).run memory =
      (result, writeAll memory items) := by
  induction items generalizing memory with
  | nil => rfl
  | cons item rest ih => exact ih _

theorem run_readThenStore
    (i : ι)
    (items : κ i → List (Item κ))
    (result : κ i → α)
    (memory : Memory κ) :
    (readThenStore i items result).run memory =
      (result (memory i),
        writeAll memory (items (memory i))) :=
  run_storeAll _ _ memory

/- After some steps the first stores have been performed. -/
theorem after_readThenStore
    (i : ι)
    (items : κ i → List (Item κ))
    (result : κ i → α)
    (n : Nat)
    (memory : Memory κ) :
    (readThenStore i items result).after (n + 1) memory =
      (storeAll (result (memory i))
          ((items (memory i)).drop n),
        writeAll memory ((items (memory i)).take n)) := by
  induction n with
  | zero => rfl
  | succ n ih =>
      rw [after_succ, ih]
      cases hDrop : (items (memory i)).drop n with
      | nil =>
          have hLength :
              (items (memory i)).length ≤ n :=
            List.drop_eq_nil_iff.mp hDrop
          rw [List.drop_eq_nil_of_le (by omega),
            List.take_of_length_le hLength,
            List.take_of_length_le (by omega)]
          rfl
      | cons item rest =>
          have hRest :
              (items (memory i)).drop (n + 1) = rest := by
            rw [← List.drop_drop, hDrop]
            rfl
          have hItem :
              (items (memory i))[n]? = some item := by
            rw [← List.head?_drop, hDrop]
            rfl
          rw [hRest, List.take_add_one, hItem,
            Option.toList_some, writeAll_concat]
          rfl

end Program

end Cells

------------------------------------------------------------
-- Programs In Sequence
------------------------------------------------------------

namespace Cells

namespace Program

variable {ι : Type} [DecidableEq ι]
variable {κ : ι → Type} {α β : Type}

/- Run a program and continue with its result. -/
def bind : Program κ α → (α → Program κ β) → Program κ β
| .done result, next => next result
| .load i rest, next =>
    .load i (fun value => (rest value).bind next)
| .store i value rest, next =>
    .store i value (rest.bind next)

/- Pure work after a program. -/
def map (finish : α → β) (program : Program κ α) :
    Program κ β :=
  program.bind (fun result => .done (finish result))

theorem run_bind
    (program : Program κ α)
    (next : α → Program κ β)
    (memory : Memory κ) :
    (program.bind next).run memory =
      (next (program.run memory).1).run
        (program.run memory).2 := by
  induction program generalizing memory with
  | done result => rfl
  | load i rest ih => exact ih (memory i) memory
  | store i value rest ih => exact ih _

end Program

end Cells
