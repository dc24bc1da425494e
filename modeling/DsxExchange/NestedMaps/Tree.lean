import Mathlib.Data.List.Basic

/-
  Maps of maps.

  A `Tree` is a map by its entries, in the order in which they
  are ranged over: each holds a value or another map. A path
  of keys leads to a value, to a map or nowhere; what stands
  at each path is all that the order of entries leaves open.

  Key definitions include:
    * `NestedMaps.Tree`, `NestedMaps.Item`
    * `NestedMaps.Tree.find`, `NestedMaps.Tree.put`
    * `NestedMaps.Tree.Distinct`
    * `NestedMaps.Kind`
    * `NestedMaps.Tree.report`, `NestedMaps.Tree.kind`
    * `NestedMaps.Tree.merge`

  Key theorems include:
    * `NestedMaps.Tree.find_put`
    * `NestedMaps.Tree.report_put`
    * `NestedMaps.Tree.kind_merge`
    * `NestedMaps.Tree.distinct_merge`
-/

------------------------------------------------------------
-- Entries
------------------------------------------------------------

namespace NestedMaps

variable {κ ν : Type}

/- The entries of a map. -/
inductive Tree (κ ν : Type) where
  | nil
  | value (key : κ) (v : ν) (rest : Tree κ ν)
  | map (key : κ) (under rest : Tree κ ν)
deriving DecidableEq, Repr

/- What an entry holds. -/
inductive Item (κ ν : Type) where
  | value (v : ν)
  | map (under : Tree κ ν)
deriving DecidableEq, Repr

/- What stands at a path. -/
inductive Kind (ν : Type) where
  | absent
  | map
  | value (v : ν)
deriving DecidableEq, Repr

/- The entry of a key with an item. -/
def Item.entry (key : κ) (rest : Tree κ ν) :
    Item κ ν → Tree κ ν
| .value v => .value key v rest
| .map under => .map key under rest

namespace Tree

variable [DecidableEq κ]

/- What the map holds under the key. -/
def find : Tree κ ν → κ → Option (Item κ ν)
| .nil, _ => none
| .value key v rest, k =>
    if key = k then some (.value v) else rest.find k
| .map key under rest, k =>
    if key = k then some (.map under) else rest.find k

/- The map with the item under the key. -/
def put : Tree κ ν → κ → Item κ ν → Tree κ ν
| .nil, k, item => item.entry k .nil
| .value key v rest, k, item =>
    if key = k then
      item.entry k rest
    else
      .value key v (rest.put k item)
| .map key under rest, k, item =>
    if key = k then
      item.entry k rest
    else
      .map key under (rest.put k item)

/- No map within has two entries of one key. -/
def Distinct : Tree κ ν → Prop
| .nil => True
| .value key _ rest => rest.find key = none ∧ rest.Distinct
| .map key under rest =>
    rest.find key = none ∧ under.Distinct ∧ rest.Distinct

@[simp] theorem find_entry
    (key k : κ)
    (rest : Tree κ ν)
    (item : Item κ ν) :
    (item.entry key rest).find k =
      if key = k then some item else rest.find k := by
  cases item <;> rfl

theorem find_put
    (t : Tree κ ν)
    (key k : κ)
    (item : Item κ ν) :
    (t.put key item).find k =
      if key = k then some item else t.find k := by
  induction t with
  | nil => simp [put, find]
  | value own v rest ih =>
      by_cases hOwn : own = key
      · subst own
        by_cases hKey : key = k <;> simp [put, find, hKey]
      · by_cases hKey : own = k
        · subst hKey
          simp [put, find, hOwn, Ne.symm hOwn]
        · simp [put, find, hOwn, hKey, ih]
  | map own under rest ihUnder ih =>
      by_cases hOwn : own = key
      · subst own
        by_cases hKey : key = k <;> simp [put, find, hKey]
      · by_cases hKey : own = k
        · subst hKey
          simp [put, find, hOwn, Ne.symm hOwn]
        · simp [put, find, hOwn, hKey, ih]

@[simp] theorem find_put_self
    (t : Tree κ ν)
    (key : κ)
    (item : Item κ ν) :
    (t.put key item).find key = some item := by
  simp [find_put]

end Tree

end NestedMaps

------------------------------------------------------------
-- Maps Without Two Entries Of One Key
------------------------------------------------------------

namespace NestedMaps

variable {κ ν : Type} [DecidableEq κ]

/- Every map within the item has distinct keys. -/
def Item.Distinct : Item κ ν → Prop
| .value _ => True
| .map under => under.Distinct

namespace Tree

theorem distinct_entry
    {key : κ}
    {rest : Tree κ ν}
    {item : Item κ ν}
    (hFind : rest.find key = none)
    (hItem : item.Distinct)
    (hRest : rest.Distinct) :
    (item.entry key rest).Distinct := by
  cases item with
  | value v => exact ⟨hFind, hRest⟩
  | map under => exact ⟨hFind, hItem, hRest⟩

theorem distinct_put
    {t : Tree κ ν}
    (key : κ)
    {item : Item κ ν}
    (hTree : t.Distinct)
    (hItem : item.Distinct) :
    (t.put key item).Distinct := by
  induction t with
  | nil => exact distinct_entry rfl hItem trivial
  | value own v rest ih =>
      rcases hTree with ⟨hFind, hRest⟩
      by_cases hOwn : own = key
      · subst own
        rw [put, if_pos rfl]
        exact distinct_entry hFind hItem hRest
      · rw [put, if_neg hOwn]
        refine ⟨?_, ih hRest⟩
        rw [find_put, if_neg (Ne.symm hOwn)]
        exact hFind
  | map own under rest ihUnder ih =>
      rcases hTree with ⟨hFind, hUnder, hRest⟩
      by_cases hOwn : own = key
      · subst own
        rw [put, if_pos rfl]
        exact distinct_entry hFind hItem hRest
      · rw [put, if_neg hOwn]
        refine ⟨?_, hUnder, ih hRest⟩
        rw [find_put, if_neg (Ne.symm hOwn)]
        exact hFind

theorem Distinct.find
    {t : Tree κ ν}
    {key : κ}
    {item : Item κ ν}
    (hTree : t.Distinct)
    (hFind : t.find key = some item) : item.Distinct := by
  induction t with
  | nil => cases hFind
  | value own v rest ih =>
      rw [Tree.find] at hFind
      split at hFind
      · cases hFind
        trivial
      · exact ih hTree.2 hFind
  | map own under rest ihUnder ih =>
      rw [Tree.find] at hFind
      split at hFind
      · cases hFind
        exact hTree.2.1
      · exact ih hTree.2.2 hFind

end Tree

end NestedMaps

------------------------------------------------------------
-- Paths
------------------------------------------------------------

namespace NestedMaps

variable {κ ν : Type} [DecidableEq κ]

/-
  What the item says of a path below it. A value says of all
  paths below that nothing is there, and a map says nothing
  of the keys it does not hold.
-/
def Item.report : Item κ ν → List κ → Option (Kind ν)
| .value v, [] => some (.value v)
| .value _, _ :: _ => some .absent
| .map _, [] => some .map
| .map under, k :: p =>
    match under.find k with
    | none => none
    | some item => item.report p

namespace Tree

def report (t : Tree κ ν) (p : List κ) : Option (Kind ν) :=
  (Item.map t).report p

/- What stands at a path of the map. -/
def kind (t : Tree κ ν) (p : List κ) : Kind ν :=
  (t.report p).getD .absent

end Tree

@[simp] theorem Item.report_map
    (t : Tree κ ν)
    (p : List κ) :
    (Item.map t).report p = t.report p :=
  rfl

theorem Item.report_value_isSome
    (v : ν)
    (p : List κ) :
    ∃ kind, (Item.value v : Item κ ν).report p = some kind := by
  cases p with
  | nil => exact ⟨.value v, rfl⟩
  | cons k p => exact ⟨.absent, rfl⟩

namespace Tree

@[simp] theorem report_root (t : Tree κ ν) :
    t.report [] = some .map :=
  rfl

@[simp] theorem report_nil (k : κ) (p : List κ) :
    (nil : Tree κ ν).report (k :: p) = none :=
  rfl

/- A map says of a key what its item does. -/
theorem report_cons
    (t : Tree κ ν)
    (k : κ)
    (p : List κ) :
    t.report (k :: p) = (t.find k).bind (·.report p) := by
  rw [report, Item.report]
  cases t.find k <;> rfl

/- An entry says nothing of the other keys. -/
theorem report_entry
    (key k : κ)
    (rest : Tree κ ν)
    (item : Item κ ν)
    (p : List κ) :
    (item.entry key rest).report (k :: p) =
      if key = k then item.report p else rest.report (k :: p) := by
  rw [report_cons, find_entry, report_cons]
  split <;> rfl

theorem report_put
    (t : Tree κ ν)
    (key k : κ)
    (item : Item κ ν)
    (p : List κ) :
    (t.put key item).report (k :: p) =
      if key = k then item.report p else t.report (k :: p) := by
  rw [report_cons, find_put, report_cons]
  split <;> rfl

end Tree

end NestedMaps

------------------------------------------------------------
-- Merging
------------------------------------------------------------

namespace NestedMaps

variable {κ ν : Type} [DecidableEq κ]

namespace Tree

/-
  Every entry of the first map goes into the second: a map
  into a map, and in all other cases in place of what is
  there.
-/
def merge : Tree κ ν → Tree κ ν → Tree κ ν
| .nil, into => into
| .value key v rest, into =>
    rest.merge (into.put key (.value v))
| .map key under rest, into =>
    match into.find key with
    | some (.map own) =>
        rest.merge (into.put key (.map (under.merge own)))
    | _ => rest.merge (into.put key (.map under))

/- A map in place of nothing or of a value. -/
theorem getD_report_of_no_map
    {under into : Tree κ ν}
    {key : κ}
    (hOwn : ∀ own, into.find key ≠ some (.map own))
    (p : List κ) :
    (under.report p).getD .absent =
      (under.report p).getD (into.kind (key :: p)) := by
  cases hReport : under.report p with
  | some kind => rfl
  | none =>
      rw [Option.getD_none, Option.getD_none, kind, report_cons]
      cases hFind : into.find key with
      | none => rfl
      | some item =>
          cases item with
          | map own => exact absurd hFind (hOwn own)
          | value v =>
              cases p with
              | nil => cases hReport
              | cons k p => rfl

/- Where the first map says nothing the second one stays. -/
theorem kind_merge
    {t : Tree κ ν}
    (hTree : t.Distinct)
    (into : Tree κ ν)
    (p : List κ) :
    (t.merge into).kind p =
      (t.report p).getD (into.kind p) := by
  induction t generalizing into p with
  | nil => cases p <;> rfl
  | value key v rest ih =>
      rcases hTree with ⟨hFind, hRest⟩
      cases p with
      | nil => rfl
      | cons k p =>
          have hReport := report_entry key k rest (.value v) p
          rw [Item.entry] at hReport
          rw [merge, ih hRest, hReport, kind, report_put, report_cons]
          by_cases hKey : key = k
          · subst hKey
            rcases @Item.report_value_isSome κ ν _ v p with
              ⟨kind, hKind⟩
            simp [hFind, hKind]
          · simp [hKey, kind]
  | map key under rest ihUnder ih =>
      rcases hTree with ⟨hFind, hUnder, hRest⟩
      cases p with
      | nil => rfl
      | cons k p =>
          have hReport := report_entry key k rest (.map under) p
          rw [Item.entry] at hReport
          rw [merge, hReport]
          split
          · rename_i own hOwn
            have hJoined := ihUnder hUnder own p
            rw [ih hRest, kind, report_put, report_cons]
            by_cases hKey : key = k
            · subst hKey
              rw [kind] at hJoined
              simp [hFind, hJoined, kind, report_cons, hOwn]
            · simp [hKey, kind, report_cons]
          · rename_i hOwn
            rw [ih hRest, kind, report_put, report_cons]
            by_cases hKey : key = k
            · subst hKey
              simpa [hFind] using getD_report_of_no_map hOwn p
            · simp [hKey, kind, report_cons]

/- Merging keeps the keys of every map distinct. -/
theorem distinct_merge
    {t into : Tree κ ν}
    (hTree : t.Distinct)
    (hInto : into.Distinct) :
    (t.merge into).Distinct := by
  induction t generalizing into with
  | nil => exact hInto
  | value key v rest ih =>
      exact ih hTree.2 (distinct_put key hInto trivial)
  | map key under rest ihUnder ih =>
      rcases hTree with ⟨_, hUnder, hRest⟩
      rw [merge]
      split
      · rename_i own hOwn
        have hJoined : (under.merge own).Distinct :=
          ihUnder hUnder (hInto.find hOwn)
        exact ih hRest (distinct_put key hInto hJoined)
      · exact ih hRest (distinct_put key hInto hUnder)

end Tree

end NestedMaps
