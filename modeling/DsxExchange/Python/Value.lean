import DsxExchange.Python.Text
import Mathlib.Data.List.Infix

/-
  The values that are read from YAML, and the operations of
  Python on them, which raise an exception on a value of the
  wrong type.

  Key definitions include:
    * `Python.Value`, `Python.PyError`
    * `Python.Value.contains`, `Python.Value.item`,
      `Python.Value.get`, `Python.Value.iter`
    * `Python.Value.truthy`

  Key theorems include:
    * `Python.bind_eq_ok`, `Python.foldlM_ok`,
      `Python.foldlM_grows`
    * `Python.lookup_setEntry`, `Python.mem_keys_setEntry`
-/

------------------------------------------------------------
-- Values
------------------------------------------------------------

namespace Python

/- A float is kept as its text. -/
inductive Value where
  | none
  | bool (b : Bool)
  | int (n : ℤ)
  | float (text : Str)
  | str (s : Str)
  | list (items : List Value)
  | dict (entries : List (Str × Value))

mutual

/- The two values are written the same. -/
def Value.same : Value → Value → Bool
| .none, .none => true
| .bool b, .bool b' => b = b'
| .int n, .int n' => n = n'
| .float text, .float text' => text = text'
| .str s, .str s' => s = s'
| .list items, .list items' => sameItems items items'
| .dict entries, .dict entries' => sameEntries entries entries'
| _, _ => false

def sameItems : List Value → List Value → Bool
| [], [] => true
| value :: rest, value' :: rest' =>
    value.same value' && sameItems rest rest'
| _, _ => false

def sameEntries :
    List (Str × Value) → List (Str × Value) → Bool
| [], [] => true
| (key, value) :: rest, (key', value') :: rest' =>
    key = key' && value.same value' && sameEntries rest rest'
| _, _ => false

end

mutual

theorem Value.same_iff
    (value value' : Value) :
    value.same value' = true ↔ value = value' := by
  cases value with
  | list items =>
      cases value' with
      | list items' => simp [Value.same, sameItems_iff items]
      | _ => simp [Value.same]
  | dict entries =>
      cases value' with
      | dict entries' =>
          simp [Value.same, sameEntries_iff entries]
      | _ => simp [Value.same]
  | _ => cases value' <;> simp [Value.same]

theorem sameItems_iff
    (items items' : List Value) :
    sameItems items items' = true ↔ items = items' := by
  cases items with
  | nil => cases items' <;> simp [sameItems]
  | cons value rest =>
      cases items' with
      | nil => simp [sameItems]
      | cons value' rest' =>
          simp [sameItems, Value.same_iff value,
            sameItems_iff rest]

theorem sameEntries_iff
    (entries entries' : List (Str × Value)) :
    sameEntries entries entries' = true ↔
      entries = entries' := by
  cases entries with
  | nil => cases entries' <;> simp [sameEntries]
  | cons entry rest =>
      rcases entry with ⟨key, value⟩
      cases entries' with
      | nil => simp [sameEntries]
      | cons entry' rest' =>
          simp [sameEntries, Value.same_iff value,
            sameEntries_iff rest, Prod.ext_iff]

end

instance : DecidableEq Value := fun value value' =>
  decidable_of_iff _ (Value.same_iff value value')

/- The kinds of exceptions. -/
inductive PyError where
  | typeError
  | attributeError
  | keyError
  | indexError
  | valueError
deriving DecidableEq, Repr

/- `d[key] = value`, in place or at the end. -/
def setEntry (key : Str) (value : Value) :
    List (Str × Value) → List (Str × Value)
| [] => [(key, value)]
| (other, old) :: rest =>
    if other = key then
      (key, value) :: rest
    else
      (other, old) :: setEntry key value rest

namespace Value

/- `key in value`. -/
def contains (key : Str) : Value → Except PyError Bool
| .dict entries => .ok (entries.lookup key).isSome
| .str s => .ok (key <:+: s)
| .list items => .ok (items.any (· == .str key))
| _ => .error .typeError

/- `value[key]`. -/
def item (key : Str) : Value → Except PyError Value
| .dict entries =>
    match entries.lookup key with
    | some value => .ok value
    | Option.none => .error .keyError
| _ => .error .typeError

/- `value[0]`. -/
def first : Value → Except PyError Value
| .list (value :: _) => .ok value
| .list [] => .error .indexError
| .str (c :: _) => .ok (.str [c])
| .str [] => .error .indexError
| .dict _ => .error .keyError
| _ => .error .typeError

/- `value.get(key, default)`. -/
def get : Value → Str → Value → Except PyError Value
| .dict entries, key, default =>
    .ok ((entries.lookup key).getD default)
| _, _, _ => .error .attributeError

/- What `for` goes through. -/
def iter : Value → Except PyError (List Value)
| .list items => .ok items
| .dict entries => .ok (entries.map fun entry => .str entry.1)
| .str s => .ok (s.map fun c => .str [c])
| _ => .error .typeError

/- `value.items()`. -/
def items : Value → Except PyError (List (Str × Value))
| .dict entries => .ok entries
| _ => .error .attributeError

/- `len(value)`. -/
def len : Value → Except PyError ℕ
| .list items => .ok items.length
| .dict entries => .ok entries.length
| .str s => .ok s.length
| _ => .error .typeError

/- `value[:n]`, as what it has. -/
def sliceTo (n : ℕ) : Value → Except PyError (List Value)
| .list items => .ok (items.take n)
| .str s => .ok ((s.take n).map fun c => .str [c])
| _ => .error .typeError

/- The value, when a method of texts is called on it. -/
def text : Value → Except PyError Str
| .str s => .ok s
| _ => .error .attributeError

/- `bool(value)`. -/
def truthy : Value → Bool
| .none => false
| .bool b => b
| .int n => n ≠ 0
| .float text =>
    (text.takeWhile fun c => c ≠ 'e' && c ≠ 'E').any fun c =>
      c.isDigit && c ≠ '0'
| .str s => s ≠ []
| .list items => !items.isEmpty
| .dict entries => !entries.isEmpty

/- `value is None`. -/
def isNone : Value → Bool
| .none => true
| _ => false

/- `isinstance(value, dict)`. -/
def isDict : Value → Bool
| .dict _ => true
| _ => false

/- `value == text`, for a text. -/
def isText (text : Str) : Value → Bool
| .str s => s = text
| _ => false

/- Values that can be the elements of a set. -/
def hashable : Value → Bool
| .list _ => false
| .dict _ => false
| _ => true

/- `set(value)`, as its elements in their order. -/
def toSet (value : Value) : Except PyError (List Value) := do
  let elements ← value.iter
  if elements.all hashable then
    return elements
  else
    throw .typeError

end Value

end Python

------------------------------------------------------------
-- Results
------------------------------------------------------------

namespace Python

variable {ε α β σ : Type}

/- A result comes from a result of what is before it. -/
theorem bind_eq_ok
    {first : Except ε α}
    {next : α → Except ε β}
    {result : β} :
    (first >>= next) = .ok result ↔
      ∃ a, first = .ok a ∧ next a = .ok result := by
  cases first with
  | error error => simp [bind, Except.bind]
  | ok a => simp [bind, Except.bind]

/- What each pass of a loop keeps, the loop keeps. -/
theorem foldlM_ok
    {step : σ → α → Except ε σ}
    {Keeps : σ → Prop}
    {xs : List α}
    {s s' : σ}
    (hRun : xs.foldlM step s = .ok s')
    (hStart : Keeps s)
    (hStep :
      ∀ x ∈ xs, ∀ s s', Keeps s → step s x = .ok s' →
        Keeps s') :
    Keeps s' := by
  induction xs generalizing s with
  | nil =>
      rw [List.foldlM_nil] at hRun
      cases hRun
      exact hStart
  | cons x rest ih =>
      rw [List.foldlM_cons, bind_eq_ok] at hRun
      rcases hRun with ⟨next, hFirst, hRest⟩
      apply ih hRest
      · exact hStep x List.mem_cons_self s next hStart hFirst
      · intro y hMem
        exact hStep y (List.mem_cons_of_mem x hMem)

/-
  A loop that only adds to a list, and adds something for each
  thing that it goes through.
-/
theorem foldlM_grows
    {step : List β → α → Except ε (List β)}
    {Adds : α → β → Prop}
    {xs : List α}
    {before after : List β}
    (hRun : xs.foldlM step before = .ok after)
    (hStep :
      ∀ x ∈ xs, ∀ before after, step before x = .ok after →
        before <+: after ∧ ∃ y ∈ after, Adds x y) :
    before <+: after ∧ ∀ x ∈ xs, ∃ y ∈ after, Adds x y := by
  induction xs generalizing before with
  | nil =>
      rw [List.foldlM_nil] at hRun
      cases hRun
      exact ⟨List.prefix_rfl, by simp⟩
  | cons x rest ih =>
      rw [List.foldlM_cons, bind_eq_ok] at hRun
      rcases hRun with ⟨next, hFirst, hRest⟩
      rcases hStep x List.mem_cons_self before next hFirst with
        ⟨hGrows, y, hMem, hAdds⟩
      rcases ih hRest
          (fun z hZ => hStep z (List.mem_cons_of_mem x hZ)) with
        ⟨hMore, hAll⟩
      refine ⟨hGrows.trans hMore, ?_⟩
      intro z hZ
      rcases List.mem_cons.mp hZ with rfl | hZ
      · exact ⟨y, hMore.subset hMem, hAdds⟩
      · exact hAll z hZ

/- Every result of a list of results. -/
theorem mapM_ok
    {f : α → Except ε β}
    {xs : List α}
    {ys : List β}
    (hRun : xs.mapM f = .ok ys) :
    ∀ x ∈ xs, ∃ y ∈ ys, f x = .ok y := by
  induction xs generalizing ys with
  | nil => simp
  | cons x rest ih =>
      rw [List.mapM_cons, bind_eq_ok] at hRun
      rcases hRun with ⟨y, hFirst, hRun⟩
      rw [bind_eq_ok] at hRun
      rcases hRun with ⟨others, hRest, hLast⟩
      cases hLast
      intro z hZ
      rcases List.mem_cons.mp hZ with rfl | hZ
      · exact ⟨y, List.mem_cons_self, hFirst⟩
      · rcases ih hRest z hZ with ⟨other, hMem, hOther⟩
        exact ⟨other, List.mem_cons_of_mem y hMem, hOther⟩

theorem mem_of_mem_setEntry
    {key : Str}
    {value : Value}
    {entries : List (Str × Value)}
    {entry : Str × Value}
    (hMem : entry ∈ setEntry key value entries) :
    entry = (key, value) ∨ entry ∈ entries := by
  induction entries with
  | nil => exact Or.inl (List.mem_singleton.mp hMem)
  | cons first rest ih =>
      rw [setEntry] at hMem
      split at hMem
      · rcases List.mem_cons.mp hMem with hNew | hOld
        · exact Or.inl hNew
        · exact Or.inr (List.mem_cons_of_mem _ hOld)
      · rcases List.mem_cons.mp hMem with hFirst | hRest
        · rw [hFirst]
          exact Or.inr List.mem_cons_self
        · rcases ih hRest with hNew | hOld
          · exact Or.inl hNew
          · exact Or.inr (List.mem_cons_of_mem _ hOld)

theorem mem_of_lookup
    {entries : List (Str × Value)}
    {key : Str}
    {value : Value}
    (hLookup : entries.lookup key = some value) :
    (key, value) ∈ entries := by
  rcases List.lookup_eq_some_iff.mp hLookup with
    ⟨front, back, hEntries, _⟩
  rw [hEntries]
  simp

theorem lookup_cons_eq_ite
    (key other : Str)
    (value : Value)
    (entries : List (Str × Value)) :
    ((key, value) :: entries).lookup other =
      if other = key then some value else entries.lookup other := by
  by_cases hOther : other = key
  · rw [hOther, List.lookup_cons_self, if_pos rfl]
  · have hFalse : (other == key) = false :=
      beq_eq_false_iff_ne.mpr hOther
    rw [List.lookup_cons, hFalse, if_neg hOther]

/- Each key of a mapping has one value. -/
theorem lookup_of_mem
    {entries : List (Str × Value)}
    {key : Str}
    {value : Value}
    (hNodup : (entries.map Prod.fst).Nodup)
    (hMem : (key, value) ∈ entries) :
    entries.lookup key = some value := by
  induction entries with
  | nil => exact absurd hMem List.not_mem_nil
  | cons entry rest ih =>
      rcases entry with ⟨first, old⟩
      rw [List.map_cons, List.nodup_cons] at hNodup
      rw [lookup_cons_eq_ite]
      rcases List.mem_cons.mp hMem with hFirst | hRest
      · cases hFirst
        exact if_pos rfl
      · rw [if_neg, ih hNodup.2 hRest]
        rintro rfl
        exact hNodup.1 (List.mem_map.mpr ⟨_, hRest, rfl⟩)

theorem lookup_setEntry
    (key : Str)
    (value : Value)
    (entries : List (Str × Value))
    (other : Str) :
    (setEntry key value entries).lookup other =
      if other = key then some value else entries.lookup other := by
  induction entries with
  | nil => exact lookup_cons_eq_ite key other value []
  | cons entry rest ih =>
      rcases entry with ⟨first, old⟩
      rw [lookup_cons_eq_ite first]
      by_cases hKey : first = key
      · rw [setEntry, if_pos hKey, lookup_cons_eq_ite]
        by_cases hOther : other = key
        · rw [if_pos hOther, if_pos hOther]
        · rw [if_neg hOther, if_neg hOther,
            if_neg (hKey ▸ hOther)]
      · rw [setEntry, if_neg hKey, lookup_cons_eq_ite, ih]
        by_cases hOther : other = first
        · rw [if_pos hOther, if_pos hOther,
            if_neg (hOther ▸ hKey)]
        · rw [if_neg hOther, if_neg hOther]

theorem mem_keys_setEntry
    {key : Str}
    {value : Value}
    {entries : List (Str × Value)}
    {other : Str} :
    other ∈ (setEntry key value entries).map Prod.fst ↔
      other = key ∨ other ∈ entries.map Prod.fst := by
  induction entries with
  | nil => simp [setEntry]
  | cons entry rest ih =>
      by_cases hKey : entry.1 = key
      · simp [setEntry, hKey]
      · rw [setEntry, if_neg hKey, List.map_cons,
          List.mem_cons, ih, List.map_cons, List.mem_cons]
        exact or_left_comm

theorem setEntry_of_not_mem
    {key : Str}
    {entries : List (Str × Value)}
    (hNew : key ∉ entries.map Prod.fst)
    (value : Value) :
    setEntry key value entries = entries ++ [(key, value)] := by
  induction entries with
  | nil => rfl
  | cons entry rest ih =>
      rw [List.map_cons, List.mem_cons, not_or] at hNew
      rw [setEntry, if_neg (Ne.symm hNew.1), ih hNew.2,
        List.cons_append]

end Python
