import Mathlib.Data.List.AList
import Mathlib.Logic.Function.Basic

/-
  Maps with string keys, the order in which a loop ranges
  over them, and the lookup tables such a loop fills.

  A Go map has no order of its own: every execution of a
  range loop picks one. `Iteration` is that choice, for every
  map at once, and results that must not depend on it are
  stated for two of them.

  Key definitions include:
    * `Go.Map`, `Go.Iteration`
    * `Go.Table`, `Go.Table.insertAll`, `Go.Table.Collects`
    * `Go.rangeInto`
    * `Go.collected`, `Go.DistinctKeys`
    * `Go.rangeCheck`, `Go.rangeUntil`

  Key theorems include:
    * `Go.Table.insertAll_eq_of_perm`
    * `Go.rangeInto_ok_iff`, `Go.rangeInto_error`
    * `Go.collects_collected`
    * `Go.collected_eq_iff_distinctKeys`
    * `Go.rangeCheck_ok_iff`, `Go.rangeUntil_ok_iff`
-/

------------------------------------------------------------
-- Failures
------------------------------------------------------------

namespace Go

/- How a call ends without a result. -/
inductive Fault where
  | error (message : String)
  | panic
deriving DecidableEq, Repr

/- `fmt.Errorf` with a text before the wrapped error. -/
def wrapError
    {α : Type}
    (context : String) :
    Except Fault α → Except Fault α
| .ok value => .ok value
| .error (.error message) => .error (.error (context ++ message))
| .error .panic => .error .panic

@[simp] theorem wrapError_eq_ok_iff
    {α : Type}
    {context : String}
    {result : Except Fault α}
    {value : α} :
    wrapError context result = .ok value ↔
      result = .ok value := by
  rcases result with (_ | _) | _ <;> simp [wrapError]

end Go

------------------------------------------------------------
-- Maps And Iteration Orders
------------------------------------------------------------

namespace Go

/- A map with string keys. -/
abbrev Map (ν : Type) := AList (fun _ : String => ν)

/- One entry of a map. -/
abbrev Entry (ν : Type) := (_ : String) × ν

/- The order in which one execution ranges over each map. -/
structure Iteration where
  entries : {ν : Type} → Map ν → List (Entry ν)
  perm :
    ∀ {ν : Type} (m : Map ν), (entries m).Perm m.entries

namespace Iteration

variable {ν : Type}

@[simp] theorem mem_entries
    (order : Iteration)
    (m : Map ν)
    (e : Entry ν) :
    e ∈ order.entries m ↔ e ∈ m.entries :=
  (order.perm m).mem_iff

/- Entries with the same name are the same entry. -/
theorem eq_of_mem_of_name
    {m : Map ν}
    {left right : Entry ν}
    (hLeft : left ∈ m.entries)
    (hRight : right ∈ m.entries)
    (hName : left.1 = right.1) :
    left = right :=
  List.NodupKeys.eq_of_fst_eq m.nodupKeys hLeft hRight
    hName

/- The order in which the entries are listed. -/
def listed : Iteration where
  entries := fun m => m.entries
  perm := fun m => .refl m.entries

/- The order that visits the chosen names first. -/
def leading (first : String → Bool) : Iteration where
  entries := fun m =>
    m.entries.filter (fun e => first e.1) ++
      m.entries.filter (fun e => !first e.1)
  perm := fun m =>
    List.filter_append_perm (fun e => first e.1) m.entries

/- Every entry is the first one in some order. -/
theorem exists_entries_eq_cons
    {m : Map ν}
    {e : Entry ν}
    (hMem : e ∈ m.entries) :
    ∃ (order : Iteration) (rest : List (Entry ν)),
      order.entries m = e :: rest := by
  have hHead :
      e ∈ m.entries.filter (fun x => x.1 = e.1) := by
    simpa using hMem
  cases hFilter :
      m.entries.filter (fun x => x.1 = e.1) with
  | nil =>
      rw [hFilter] at hHead
      cases hHead
  | cons first rest =>
      have hFirst : first ∈ m.entries ∧ first.1 = e.1 := by
        have hMemFirst :
            first ∈ m.entries.filter
              (fun x => x.1 = e.1) := by
          rw [hFilter]
          exact List.mem_cons_self
        simpa using List.mem_filter.mp hMemFirst
      have hEq : first = e :=
        eq_of_mem_of_name hFirst.1 hMem hFirst.2
      refine ⟨leading (fun name => name = e.1),
        rest ++ m.entries.filter (fun x => x.1 ≠ e.1), ?_⟩
      simp [leading, hFilter, hEq]

/- Every entry is the last one in some order. -/
theorem exists_entries_eq_concat
    {m : Map ν}
    {e : Entry ν}
    (hMem : e ∈ m.entries) :
    ∃ (order : Iteration) (rest : List (Entry ν)),
      order.entries m = rest ++ [e] := by
  have hSingle :
      m.entries.filter (fun x => x.1 = e.1) = [e] := by
    have hNodup := m.nodupKeys.nodup.filter
      (fun x => decide (x.1 = e.1))
    apply List.perm_singleton.mp
    apply (List.perm_ext_iff_of_nodup hNodup
      (List.nodup_singleton e)).mpr
    intro x
    simp only [List.mem_filter, decide_eq_true_eq,
      List.mem_singleton]
    constructor
    · rintro ⟨hx, hName⟩
      exact eq_of_mem_of_name hx hMem hName
    · rintro rfl
      exact ⟨hMem, rfl⟩
  refine ⟨leading (fun name => name ≠ e.1),
    m.entries.filter (fun x => x.1 ≠ e.1), ?_⟩
  simp [leading, hSingle]

end Iteration

end Go

------------------------------------------------------------
-- Lookup Tables
------------------------------------------------------------

namespace Go

/- A table that is filled by assignments to its keys. -/
abbrev Table (κ ν : Type) := κ → Option ν

namespace Table

variable {κ ν : Type} [DecidableEq κ]

/- The table without entries. -/
def empty : Table κ ν :=
  fun _ => none

/- Assign in turn; a later assignment to a key wins. -/
def insertAll
    (table : Table κ ν) :
    List (κ × ν) → Table κ ν
| [] => table
| (key, value) :: rest =>
    insertAll (Function.update table key (some value)) rest

/- The last assignment is the one that is found. -/
theorem insertAll_concat
    (table : Table κ ν)
    (items : List (κ × ν))
    (key : κ)
    (value : ν) :
    insertAll table (items ++ [(key, value)]) key =
      some value := by
  induction items generalizing table with
  | nil => simp [insertAll]
  | cons item rest ih => exact ih _

/- What is found was assigned, or was there before. -/
theorem mem_of_insertAll_eq_some
    {table : Table κ ν}
    {items : List (κ × ν)}
    {key : κ}
    {value : ν}
    (hFound : insertAll table items key = some value) :
    (key, value) ∈ items ∨ table key = some value := by
  induction items generalizing table with
  | nil => exact Or.inr hFound
  | cons item rest ih =>
      rcases ih hFound with hRest | hTable
      · exact Or.inl (List.mem_cons_of_mem _ hRest)
      · by_cases hKey : key = item.1
        · rw [hKey, Function.update_self] at hTable
          have hItem : (key, value) = item :=
            Prod.ext hKey (Option.some.inj hTable).symm
          exact Or.inl (hItem ▸ List.mem_cons_self)
        · rw [Function.update_of_ne hKey] at hTable
          exact Or.inr hTable

/- A key that is not assigned keeps its value. -/
theorem insertAll_of_not_mem
    {table : Table κ ν}
    {items : List (κ × ν)}
    {key : κ}
    (hKey : key ∉ items.map Prod.fst) :
    insertAll table items key = table key := by
  induction items generalizing table with
  | nil => rfl
  | cons item rest ih =>
      rw [List.map_cons, List.mem_cons, not_or] at hKey
      rw [insertAll, ih hKey.2,
        Function.update_of_ne hKey.1]

/- An assigned key is found. -/
theorem exists_insertAll_of_mem
    (table : Table κ ν)
    {items : List (κ × ν)}
    {key : κ}
    (hKey : key ∈ items.map Prod.fst) :
    ∃ value,
      insertAll table items key = some value ∧
        (key, value) ∈ items := by
  induction items generalizing table with
  | nil => simp at hKey
  | cons item rest ih =>
      by_cases hRest : key ∈ rest.map Prod.fst
      · rcases ih _ hRest with ⟨value, hFound, hMem⟩
        exact ⟨value, hFound,
          List.mem_cons_of_mem _ hMem⟩
      · have hHead : key = item.1 := by
          simpa [hRest] using hKey
        refine ⟨item.2, ?_, ?_⟩
        · rw [insertAll, insertAll_of_not_mem hRest,
            hHead, Function.update_self]
        · rw [hHead]
          exact List.mem_cons_self

/- With distinct keys every assignment is found. -/
theorem insertAll_of_mem
    {table : Table κ ν}
    {items : List (κ × ν)}
    {key : κ}
    {value : ν}
    (hDistinct : (items.map Prod.fst).Nodup)
    (hMem : (key, value) ∈ items) :
    insertAll table items key = some value := by
  rcases exists_insertAll_of_mem table
      (List.mem_map_of_mem (f := Prod.fst) hMem) with
    ⟨other, hFound, hOther⟩
  have hSame : (key, other) = (key, value) :=
    List.inj_on_of_nodup_map hDistinct hOther hMem rfl
  have hValue : other = value := (Prod.ext_iff.mp hSame).2
  exact hFound.trans (congrArg some hValue)

/- With distinct keys the order does not matter. -/
theorem insertAll_eq_of_perm
    {left right : List (κ × ν)}
    (hPerm : left.Perm right)
    (hDistinct : (left.map Prod.fst).Nodup)
    (table : Table κ ν) :
    insertAll table left = insertAll table right := by
  have hRight : (right.map Prod.fst).Nodup :=
    (hPerm.map Prod.fst).nodup_iff.mp hDistinct
  funext key
  by_cases hKey : key ∈ left.map Prod.fst
  · rcases List.mem_map.mp hKey with ⟨item, hItem, rfl⟩
    rw [insertAll_of_mem hDistinct hItem,
      insertAll_of_mem hRight (hPerm.mem_iff.mp hItem)]
  · have hKeyRight : key ∉ right.map Prod.fst :=
      fun h => hKey ((hPerm.map Prod.fst).mem_iff.mpr h)
    rw [insertAll_of_not_mem hKey,
      insertAll_of_not_mem hKeyRight]

/-
  A table of the assignments in a list: it holds no others,
  and it holds one for each key in the list.
-/
structure Collects
    (table : Table κ ν)
    (items : List (κ × ν)) : Prop where
  sound :
    ∀ {key value},
      table key = some value → (key, value) ∈ items
  complete :
    ∀ {key value},
      (key, value) ∈ items → ∃ found, table key = some found

theorem collects_insertAll_empty
    (items : List (κ × ν)) :
    (empty.insertAll items).Collects items where
  sound := by
    intro key value hFound
    rcases mem_of_insertAll_eq_some hFound with hMem | hNone
    · exact hMem
    · cases hNone
  complete := by
    intro key value hMem
    rcases exists_insertAll_of_mem empty
        (List.mem_map_of_mem (f := Prod.fst) hMem) with
      ⟨found, hFound, _⟩
    exact ⟨found, hFound⟩

end Table

end Go

------------------------------------------------------------
-- Range Loops That Fill A Table
------------------------------------------------------------

namespace Go

variable {ε κ ν : Type}

/-
  The assignment one entry of a map of pointers makes.
  Reading a field through a nil pointer panics.
-/
def resolve
    (item : String → ε → Except Fault (κ × ν)) :
    Entry (Option ε) → Except Fault (κ × ν)
| ⟨_, none⟩ => .error .panic
| ⟨name, some entry⟩ => item name entry

/- The assignments of the entries that make one. -/
def resolved
    (item : String → ε → Except Fault (κ × ν))
    (entries : List (Entry (Option ε))) :
    List (κ × ν) :=
  entries.filterMap (fun e => (resolve item e).toOption)

theorem toOption_eq_some_iff
    {α β : Type}
    {result : Except α β}
    {value : β} :
    result.toOption = some value ↔ result = .ok value := by
  cases result <;> simp [Except.toOption]

theorem mem_resolved_iff
    {item : String → ε → Except Fault (κ × ν)}
    {entries : List (Entry (Option ε))}
    {assignment : κ × ν} :
    assignment ∈ resolved item entries ↔
      ∃ e ∈ entries, resolve item e = .ok assignment := by
  simp only [resolved, List.mem_filterMap,
    toOption_eq_some_iff]

theorem resolved_concat_of_ok
    {item : String → ε → Except Fault (κ × ν)}
    {e : Entry (Option ε)}
    (before : List (Entry (Option ε)))
    {assignment : κ × ν}
    (hResolve : resolve item e = .ok assignment) :
    resolved item (before ++ [e]) =
      resolved item before ++ [assignment] := by
  simp [resolved, hResolve, Except.toOption]

theorem resolved_cons_of_ok
    {item : String → ε → Except Fault (κ × ν)}
    {e : Entry (Option ε)}
    {rest : List (Entry (Option ε))}
    {assignment : κ × ν}
    (hResolve : resolve item e = .ok assignment) :
    resolved item (e :: rest) =
      assignment :: resolved item rest := by
  simp [resolved, hResolve, Except.toOption]

variable [DecidableEq κ]

/-
  A loop `for name, entry := range m` that assigns to a table
  and returns at the first entry that fails.
-/
def rangeInto
    (item : String → ε → Except Fault (κ × ν)) :
    List (Entry (Option ε)) → Table κ ν →
      Except Fault (Table κ ν)
| [], table => .ok table
| e :: rest, table =>
    match resolve item e with
    | .error fault => .error fault
    | .ok (key, value) =>
        rangeInto item rest
          (Function.update table key (some value))

/-
  The loop returns a table when every entry makes its
  assignment, and the table holds exactly these.
-/
theorem rangeInto_ok_iff
    {item : String → ε → Except Fault (κ × ν)}
    {entries : List (Entry (Option ε))}
    {table result : Table κ ν} :
    rangeInto item entries table = .ok result ↔
      (∀ e ∈ entries, ∃ assignment,
        resolve item e = .ok assignment) ∧
        result =
          table.insertAll (resolved item entries) := by
  induction entries generalizing table with
  | nil =>
      simp [rangeInto, resolved, Table.insertAll, eq_comm]
  | cons e rest ih =>
      cases hResolve : resolve item e with
      | error fault =>
          simp [rangeInto, hResolve]
      | ok assignment =>
          rw [rangeInto, hResolve, ih,
            resolved_cons_of_ok hResolve]
          simp only [Table.insertAll, List.mem_cons,
            forall_eq_or_imp, hResolve]
          simp

/- A failing loop fails with the fault of an entry. -/
theorem rangeInto_error
    {item : String → ε → Except Fault (κ × ν)}
    {entries : List (Entry (Option ε))}
    {table : Table κ ν}
    {fault : Fault}
    (hFault : rangeInto item entries table = .error fault) :
    ∃ e ∈ entries, resolve item e = .error fault := by
  induction entries generalizing table with
  | nil => simp [rangeInto] at hFault
  | cons e rest ih =>
      cases hResolve : resolve item e with
      | error other =>
          rw [rangeInto, hResolve] at hFault
          cases hFault
          exact ⟨e, List.mem_cons_self, hResolve⟩
      | ok assignment =>
          rw [rangeInto, hResolve] at hFault
          rcases ih hFault with ⟨found, hMem, hFound⟩
          exact ⟨found, List.mem_cons_of_mem _ hMem,
            hFound⟩

end Go

------------------------------------------------------------
-- Loops Over Whole Maps
------------------------------------------------------------

namespace Go

variable {ε κ ν : Type} [DecidableEq κ]

/- The map holds no nil pointer. -/
def NoNil (m : Map (Option ε)) : Prop :=
  ∀ e ∈ m.entries, e.2 ≠ none

/- The table that a loop over a map leaves at its end. -/
def collected
    (item : String → ε → Except Fault (κ × ν))
    (order : Iteration)
    (m : Map (Option ε)) : Table κ ν :=
  Table.empty.insertAll (resolved item (order.entries m))

/- No two entries of the map are assigned to one key. -/
def DistinctKeys
    (item : String → ε → Except Fault (κ × ν))
    (m : Map (Option ε)) : Prop :=
  ((resolved item m.entries).map Prod.fst).Nodup

variable {item : String → ε → Except Fault (κ × ν)}
variable {m : Map (Option ε)}

/-
  A loop over the map ends, with the collected table, when
  there is no nil pointer and the body never fails.
-/
theorem rangeInto_map_ok_iff
    {order : Iteration}
    {table : Table κ ν} :
    rangeInto item (order.entries m) Table.empty =
        .ok table ↔
      (NoNil m ∧
        ∀ name entry, ⟨name, some entry⟩ ∈ m.entries →
          ∃ assignment, item name entry = .ok assignment) ∧
        table = collected item order m := by
  rw [rangeInto_ok_iff]
  apply and_congr_left
  intro _
  simp only [Iteration.mem_entries]
  constructor
  · intro hAll
    constructor
    · rintro ⟨name, pointer⟩ hMem rfl
      rcases hAll _ hMem with ⟨assignment, hResolve⟩
      cases hResolve
    · intro name entry hMem
      exact hAll _ hMem
  · rintro ⟨hNoNil, hBody⟩ ⟨name, pointer⟩ hMem
    cases pointer with
    | none => exact absurd rfl (hNoNil _ hMem)
    | some entry => exact hBody name entry hMem

/- A nil pointer panics in an order that visits it first. -/
theorem exists_rangeInto_panic
    (item : String → ε → Except Fault (κ × ν))
    (hNil : ¬ NoNil m)
    (table : Table κ ν) :
    ∃ order : Iteration,
      rangeInto item (order.entries m) table =
        .error .panic := by
  simp only [NoNil, not_forall, not_not] at hNil
  rcases hNil with ⟨⟨name, pointer⟩, hMem, rfl⟩
  rcases Iteration.exists_entries_eq_cons hMem with
    ⟨order, rest, hOrder⟩
  refine ⟨order, ?_⟩
  rw [hOrder]
  rfl

/- Without nil pointers a fault is one of the loop's body. -/
theorem exists_item_error
    (hNoNil : NoNil m)
    {order : Iteration}
    {table : Table κ ν}
    {fault : Fault}
    (hFault :
      rangeInto item (order.entries m) table =
        .error fault) :
    ∃ name entry, item name entry = .error fault := by
  rcases rangeInto_error hFault with
    ⟨⟨name, pointer⟩, hMem, hError⟩
  cases pointer with
  | none =>
      rw [Iteration.mem_entries] at hMem
      exact absurd rfl (hNoNil _ hMem)
  | some entry => exact ⟨name, entry, hError⟩

theorem collects_collected
    (item : String → ε → Except Fault (κ × ν))
    (order : Iteration)
    (m : Map (Option ε)) :
    (collected item order m).Collects
      (resolved item m.entries) := by
  have hPerm :=
    (order.perm m).filterMap
      (fun e => (resolve item e).toOption)
  have hCollects := Table.collects_insertAll_empty
    (resolved item (order.entries m))
  exact
    { sound := fun hFound =>
        hPerm.mem_iff.mp (hCollects.sound hFound)
      complete := fun hMem =>
        hCollects.complete (hPerm.mem_iff.mpr hMem) }

/- What the table holds comes from an entry. -/
theorem exists_entry_of_collected
    {order : Iteration}
    {key : κ}
    {value : ν}
    (hFound : collected item order m key = some value) :
    ∃ name entry,
      ⟨name, some entry⟩ ∈ m.entries ∧
        item name entry = .ok (key, value) := by
  have hMem := (collects_collected item order m).sound hFound
  rcases mem_resolved_iff.mp hMem with
    ⟨⟨name, pointer⟩, hEntry, hResolve⟩
  cases pointer with
  | none => cases hResolve
  | some entry => exact ⟨name, entry, hEntry, hResolve⟩

/- Two entries of a map with one name are the same. -/
theorem entry_unique
    {ε : Type}
    {m : Map (Option ε)}
    {name : String}
    {left right : ε}
    (hLeft : ⟨name, some left⟩ ∈ m.entries)
    (hRight : ⟨name, some right⟩ ∈ m.entries) :
    left = right := by
  have hSame :=
    Iteration.eq_of_mem_of_name hLeft hRight rfl
  cases hSame
  rfl

/- The order does not change which keys are found. -/
theorem collected_eq_none_iff
    {left right : Iteration}
    {key : κ} :
    collected item left m key = none ↔
      collected item right m key = none := by
  have hSome :
      ∀ order order' : Iteration,
        collected item order m key = none →
          collected item order' m key = none := by
    intro order order' hNone
    cases hFound : collected item order' m key with
    | none => rfl
    | some value =>
        have hMem :=
          (collects_collected item order' m).sound hFound
        rcases (collects_collected item order m).complete
            hMem with
          ⟨found, hOther⟩
        rw [hNone] at hOther
        cases hOther
  exact ⟨hSome left right, hSome right left⟩

/- Every entry's assignment is the last one in some order. -/
theorem exists_collected_eq
    {e : Entry (Option ε)}
    (hMem : e ∈ m.entries)
    {key : κ}
    {value : ν}
    (hResolve : resolve item e = .ok (key, value)) :
    ∃ order, collected item order m key = some value := by
  rcases Iteration.exists_entries_eq_concat hMem with
    ⟨order, rest, hOrder⟩
  refine ⟨order, ?_⟩
  rw [collected, hOrder,
    resolved_concat_of_ok rest hResolve]
  exact Table.insertAll_concat _ _ key value

/-
  When the body tells the entries apart by name, the order
  does not matter exactly when no two entries share a key.
-/
theorem collected_eq_iff_distinctKeys
    (item : String → ε → Except Fault (κ × ν))
    (m : Map (Option ε))
    (hNamed :
      ∀ {left right : Entry (Option ε)} {assignment},
        resolve item left = .ok assignment →
          resolve item right = .ok assignment →
            left.1 = right.1) :
    (∀ left right,
        collected item left m = collected item right m) ↔
      DistinctKeys item m := by
  constructor
  · intro hSame
    unfold DistinctKeys resolved List.Nodup
    rw [List.pairwise_map, List.pairwise_filterMap]
    apply m.nodupKeys.nodup.pairwise_of_forall_ne
    -- Each of two entries with one key can come last.
    rintro e hMem e' hMem' hNe ⟨key, value⟩ hOption
      ⟨key', value'⟩ hOption' hKey
    have hResolve := toOption_eq_some_iff.mp hOption
    have hResolve' := toOption_eq_some_iff.mp hOption'
    have hKeys : key = key' := hKey
    subst hKeys
    rcases exists_collected_eq hMem hResolve with
      ⟨order, hLast⟩
    rcases exists_collected_eq hMem' hResolve' with
      ⟨order', hLast'⟩
    rw [hSame order order', hLast'] at hLast
    cases hLast
    exact hNe (Iteration.eq_of_mem_of_name hMem hMem'
      (hNamed hResolve hResolve'))
  · intro hDistinct left right
    have hPerm :
        (resolved item (left.entries m)).Perm
          (resolved item (right.entries m)) :=
      ((left.perm m).trans (right.perm m).symm).filterMap _
    have hLeft :
        ((resolved item (left.entries m)).map
          Prod.fst).Nodup :=
      ((((left.perm m).filterMap _).map _).nodup_iff).mpr
        hDistinct
    exact Table.insertAll_eq_of_perm hPerm hLeft _

end Go

------------------------------------------------------------
-- Range Loops That Check Or Search
------------------------------------------------------------

namespace Go

variable {ι φ σ : Type}

/-
  A loop that returns the failure of the first item whose
  check fails.
-/
def rangeCheck (check : ι → Except φ Unit) :
    List ι → Except φ Unit
| [] => .ok ()
| item :: rest =>
    match check item with
    | .error failure => .error failure
    | .ok () => rangeCheck check rest

/- The loop ends without a failure if every check does. -/
theorem rangeCheck_ok_iff
    {check : ι → Except φ Unit}
    {items : List ι} :
    rangeCheck check items = .ok () ↔
      ∀ item ∈ items, check item = .ok () := by
  induction items with
  | nil => simp [rangeCheck]
  | cons item rest ih =>
      cases hCheck : check item with
      | error failure => simp [rangeCheck, hCheck]
      | ok done => simp [rangeCheck, hCheck, ih]

/-
  A loop over a state that returns at the first item whose
  attempt succeeds, and collects the failures before it.
-/
def rangeUntil (attempt : σ → ι → Except φ Unit × σ) :
    σ → List ι → Except (List φ) Unit × σ
| s, [] => (.error [], s)
| s, item :: rest =>
    match attempt s item with
    | (.ok (), s) => (.ok (), s)
    | (.error failure, s) =>
        match rangeUntil attempt s rest with
        | (.ok (), s) => (.ok (), s)
        | (.error failures, s) =>
            (.error (failure :: failures), s)

variable {attempt : σ → ι → Except φ Unit × σ}

/- What every attempt preserves holds after the loop. -/
theorem rangeUntil_preserves
    (Inv : σ → Prop)
    (hAttempt :
      ∀ s item, Inv s → Inv (attempt s item).2)
    {items : List ι}
    {s : σ}
    (hInv : Inv s) :
    Inv (rangeUntil attempt s items).2 := by
  induction items generalizing s with
  | nil => exact hInv
  | cons item rest ih =>
      have hNext := hAttempt s item hInv
      cases hTry : attempt s item with
      | mk result next =>
          rw [hTry] at hNext
          cases result with
          | ok done => simpa [rangeUntil, hTry] using hNext
          | error failure =>
              have hRest := ih hNext
              cases hLoop : rangeUntil attempt next rest with
              | mk outcome last =>
                  rw [hLoop] at hRest
                  cases outcome <;>
                    simpa [rangeUntil, hTry, hLoop] using hRest

/-
  When the verdict of an attempt does not depend on the
  state, the loop succeeds for an item that does.
-/
theorem rangeUntil_ok_iff
    (Inv : σ → Prop)
    (Good : ι → Prop)
    (hAttempt :
      ∀ s item, Inv s → Inv (attempt s item).2)
    (hGood :
      ∀ s item, Inv s →
        ((attempt s item).1 = .ok () ↔ Good item))
    {items : List ι}
    {s : σ}
    (hInv : Inv s) :
    (rangeUntil attempt s items).1 = .ok () ↔
      ∃ item ∈ items, Good item := by
  induction items generalizing s with
  | nil => simp [rangeUntil]
  | cons item rest ih =>
      have hNext := hAttempt s item hInv
      have hHead := hGood s item hInv
      cases hTry : attempt s item with
      | mk result next =>
          rw [hTry] at hNext hHead
          cases result with
          | ok done =>
              have hItem : Good item := hHead.mp rfl
              simp [rangeUntil, hTry, hItem]
          | error failure =>
              have hItem : ¬ Good item := by
                intro hItem
                cases hHead.mpr hItem
              have hRest := ih hNext
              cases hLoop : rangeUntil attempt next rest with
              | mk outcome last =>
                  rw [hLoop] at hRest
                  cases outcome <;>
                    simp_all [rangeUntil]

/- What follows a search: its failures become one error. -/
def reportFailures {ε : Type} (report : List φ → ε) :
    Except (List φ) Unit × σ → Except ε Unit × σ
| (.ok (), s) => (.ok (), s)
| (.error failures, s) => (.error (report failures), s)

@[simp] theorem reportFailures_ok_iff
    {ε : Type}
    {report : List φ → ε}
    {outcome : Except (List φ) Unit × σ} :
    (reportFailures report outcome).1 = .ok () ↔
      outcome.1 = .ok () := by
  rcases outcome with ⟨failures | done, s⟩ <;>
    simp [reportFailures]

@[simp] theorem reportFailures_snd
    {ε : Type}
    (report : List φ → ε)
    (outcome : Except (List φ) Unit × σ) :
    (reportFailures report outcome).2 = outcome.2 := by
  rcases outcome with ⟨failures | done, s⟩ <;> rfl

end Go
