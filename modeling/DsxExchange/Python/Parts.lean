import DsxExchange.Python.Value
import Mathlib.Data.Set.Finite.Lattice
import Mathlib.Data.Set.Finite.List
import Mathlib.Logic.Relation

/-
  The values inside a value are finitely many, and a relation
  between finitely many things that has no cycle has no
  endless path.

  Key definitions include:
    * `Python.Value.Child`, `Python.Value.Below`
    * `Python.Value.Under`, `Python.Value.all`

  Key theorems include:
    * `Python.Value.finite_under`
    * `Python.Value.of_all`
    * `Python.acc_of_acyclic`
-/

------------------------------------------------------------
-- Parts
------------------------------------------------------------

namespace Python

open Relation

namespace Value

/- A value of a mapping, or an item of a sequence. -/
inductive Child : Value → Value → Prop where
  | entry
      {entries : List (Str × Value)}
      {key : Str}
      {value : Value}
      (hMem : (key, value) ∈ entries) :
      Child (.dict entries) value
  | item
      {items : List Value}
      {value : Value}
      (hMem : value ∈ items) :
      Child (.list items) value

/- Inside a value, at any depth. -/
def Below : Value → Value → Prop :=
  TransGen Child

/- A value, or inside it. -/
def Under : Value → Value → Prop :=
  ReflTransGen Child

theorem Child.sizeOf_lt
    {whole part : Value}
    (hChild : Child whole part) :
    sizeOf part < sizeOf whole := by
  cases hChild with
  | entry hMem =>
      have hEntry := List.sizeOf_lt_of_mem hMem
      simp at hEntry ⊢
      omega
  | item hMem =>
      have hItem := List.sizeOf_lt_of_mem hMem
      simp
      omega

theorem finite_child (whole : Value) :
    {part | Child whole part}.Finite := by
  cases whole with
  | list items =>
      apply (List.finite_toSet items).subset
      intro part hChild
      cases hChild with
      | item hMem => exact hMem
  | dict entries =>
      apply (List.finite_toSet (entries.map Prod.snd)).subset
      intro part hChild
      cases hChild with
      | entry hMem => exact List.mem_map.mpr ⟨_, hMem, rfl⟩
  | _ =>
      apply Set.finite_empty.subset
      intro part hChild
      cases hChild

/- The induction is on the size of the value. -/
theorem finite_under (whole : Value) :
    {part | Under whole part}.Finite := by
  have hParts :
      ∀ part ∈ {part | Child whole part},
        {inner | Under part inner}.Finite := by
    intro part hChild
    have hSize := Child.sizeOf_lt hChild
    exact finite_under part
  have hUnion := (finite_child whole).biUnion hParts
  apply (hUnion.insert whole).subset
  intro part hUnder
  rcases ReflTransGen.cases_head hUnder with
    hSelf | ⟨child, hChild, hRest⟩
  · exact Set.mem_insert_iff.mpr (Or.inl hSelf.symm)
  · apply Set.mem_insert_of_mem
    exact Set.mem_biUnion hChild hRest
termination_by sizeOf whole

mutual

/- A property of a value and of all values inside it. -/
def all (p : Value → Bool) : Value → Bool
| .list items => p (.list items) && allItems p items
| .dict entries => p (.dict entries) && allEntries p entries
| value => p value

def allItems (p : Value → Bool) : List Value → Bool
| [] => true
| value :: rest => all p value && allItems p rest

def allEntries
    (p : Value → Bool) : List (Str × Value) → Bool
| [] => true
| (_, value) :: rest => all p value && allEntries p rest

end

variable {p : Value → Bool}

theorem allItems_iff
    {items : List Value} :
    allItems p items = true ↔
      ∀ value ∈ items, all p value = true := by
  induction items with
  | nil => simp [allItems]
  | cons value rest ih => simp [allItems, ih]

theorem allEntries_iff
    {entries : List (Str × Value)} :
    allEntries p entries = true ↔
      ∀ entry ∈ entries, all p entry.2 = true := by
  induction entries with
  | nil => simp [allEntries]
  | cons entry rest ih =>
      rcases entry with ⟨key, value⟩
      simp [allEntries, ih]

theorem all_self
    {value : Value}
    (hAll : all p value = true) :
    p value = true := by
  cases value with
  | list items =>
      rw [all, Bool.and_eq_true] at hAll
      exact hAll.1
  | dict entries =>
      rw [all, Bool.and_eq_true] at hAll
      exact hAll.1
  | _ => exact hAll

theorem Child.all
    {whole part : Value}
    (hChild : Child whole part)
    (hAll : all p whole = true) :
    Value.all p part = true := by
  cases hChild with
  | entry hMem =>
      rw [Value.all, Bool.and_eq_true, allEntries_iff] at hAll
      exact hAll.2 _ hMem
  | item hMem =>
      rw [Value.all, Bool.and_eq_true, allItems_iff] at hAll
      exact hAll.2 _ hMem

/- The property holds of every value inside. -/
theorem of_all
    {whole part : Value}
    (hAll : all p whole = true)
    (hUnder : Under whole part) :
    p part = true := by
  apply all_self
  induction hUnder with
  | refl => exact hAll
  | tail _ hChild ih => exact hChild.all ih

end Value

------------------------------------------------------------
-- Relations without Cycles
------------------------------------------------------------

variable {α : Type}

/-
  Every path ends that stays within finitely many things, none
  of which leads back to itself, until a last thing.
-/
theorem acc_of_acyclic
    {Next : α → α → Prop}
    {within : Set α}
    (hFinite : within.Finite)
    (hWithin :
      ∀ a ∈ within, ∀ b, Next a b →
        b ∈ within ∨ ∀ c, ¬ Next b c)
    (hAcyclic : ∀ a ∈ within, ¬ TransGen Next a a)
    {a : α}
    (hMem : a ∈ within) :
    Acc (fun b a => Next a b) a := by
  have : Finite within := hFinite
  let After (b a : within) : Prop := TransGen Next a.1 b.1
  have : IsTrans within After :=
    ⟨fun _ _ _ hFirst hSecond => hSecond.trans hFirst⟩
  have : Std.Irrefl After := ⟨fun a => hAcyclic a.1 a.2⟩
  have hFounded : WellFounded After :=
    Finite.wellFounded_of_trans_of_irrefl After
  have hAll :
      ∀ a : within, Acc (fun b a => Next a b) a.1 := by
    intro a
    induction a using hFounded.induction with
    | _ a ih =>
        constructor
        intro b hNext
        rcases hWithin a.1 a.2 b hNext with hIn | hLast
        · exact ih ⟨b, hIn⟩ (TransGen.single hNext)
        · constructor
          intro c hMore
          exact absurd hMore (hLast c)
  exact hAll ⟨a, hMem⟩

/- A thing that leads back to itself leads on to another. -/
theorem next_of_cycle
    {Next : α → α → Prop}
    {a : α}
    (hCycle : TransGen Next a a) :
    ∃ b, Next a b ∧ TransGen Next b b := by
  rcases TransGen.head'_iff.mp hCycle with
    ⟨b, hNext, hBack⟩
  exact ⟨b, hNext, TransGen.tail' hBack hNext⟩

end Python
