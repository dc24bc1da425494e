import DsxExchange.NestedMaps.Tree
import Mathlib.Data.List.Induction
import Mathlib.Data.Set.Insert

/-
  Maps of maps from values by paths.

  A value is assigned at a path by walking down from the root:
  missing maps are made, and a part of the path that holds a
  value is passed over. Where a value ends up then depends on
  the order of the assignments. A path is settled when that
  cannot touch it; if no path begins another one all are.

  Key definitions include:
    * `NestedMaps.Near`, `NestedMaps.placed`
    * `NestedMaps.Tree.assign`, `NestedMaps.Tree.Open`
    * `NestedMaps.Ends`, `NestedMaps.Settled`
    * `NestedMaps.unflatten`, `NestedMaps.Map`

  Key theorems include:
    * `NestedMaps.Tree.exists_ends`
    * `NestedMaps.report_unflatten`
    * `NestedMaps.Map.kind_merge`
    * `NestedMaps.Map.kind_set`
-/

------------------------------------------------------------
-- Paths
------------------------------------------------------------

namespace NestedMaps

variable {κ ν : Type}

/- One of the paths begins the other one. -/
def Near (q p : List κ) : Prop :=
  q <+: p ∨ p <+: q

instance [DecidableEq κ] (q p : List κ) :
    Decidable (Near q p) :=
  inferInstanceAs (Decidable (_ ∨ _))

theorem Near.symm
    {q p : List κ}
    (hNear : Near q p) : Near p q :=
  Or.symm hNear

theorem near_nil (q : List κ) : Near q [] :=
  Or.inr List.nil_prefix

theorem near_cons
    (k k' : κ)
    (q p : List κ) :
    Near (k :: q) (k' :: p) ↔ k = k' ∧ Near q p := by
  unfold Near
  rw [List.cons_prefix_cons, List.cons_prefix_cons,
    eq_comm (a := k') (b := k), ← and_or_left]

/- The beginnings of a path near another one are near it. -/
theorem near_of_begins
    {r q p : List κ}
    (hPrefix : r <+: q)
    (hNear : Near q p) : Near r p := by
  rcases hNear with hBelow | hAbove
  · exact Or.inl (hPrefix.trans hBelow)
  · exact List.prefix_or_prefix_of_prefix hPrefix hAbove

/- What a value at a path makes of the paths near it. -/
def placed [DecidableEq κ]
    (path : List κ)
    (v : ν)
    (p : List κ) : Kind ν :=
  if p = path then
    .value v
  else if p <+: path then
    .map
  else
    .absent

theorem placed_cons [DecidableEq κ]
    (k : κ)
    (path p : List κ)
    (v : ν) :
    placed (k :: path) v (k :: p) = placed path v p := by
  unfold placed
  simp

theorem placed_nil [DecidableEq κ]
    (k : κ)
    (path : List κ)
    (v : ν) : placed (k :: path) v [] = .map := by
  simp [placed]

/- A value stands at its own path only. -/
theorem eq_of_placed_eq_value [DecidableEq κ]
    {path p : List κ}
    {v w : ν}
    (hPlaced : placed path v p = .value w) : p = path := by
  unfold placed at hPlaced
  split at hPlaced
  · assumption
  · split at hPlaced <;> cases hPlaced

/- Near two paths that are not near each other is above. -/
theorem placed_of_above [DecidableEq κ]
    {q q' p : List κ}
    {v : ν}
    (hNear : Near q p)
    (hNear' : Near q' p)
    (hFar : ¬ Near q q') : placed q v p = .map := by
  have hAbove : p <+: q := by
    rcases hNear with hBelow | hAbove
    · exact absurd (near_of_begins hBelow hNear'.symm) hFar
    · exact hAbove
  have hNe : p ≠ q := by
    intro hEq
    subst hEq
    exact hFar hNear'.symm
  rw [placed, if_neg hNe, if_pos hAbove]

end NestedMaps

------------------------------------------------------------
-- Where Values End
------------------------------------------------------------

namespace NestedMaps

variable {κ : Type}

/-
  Where the value of a path can end when the values of some
  paths are assigned in any order, on a walk that has come to
  the map at `above`. A part of the path leads into the map
  under it, or is passed over where a value can stand there.
-/
inductive Ends (paths : Set (List κ)) :
    List κ → List κ → List κ → Prop
| last (above : List κ) (k : κ) :
    Ends paths above [k] (above ++ [k])
| into {above path q : List κ} {k k' : κ}
    (hEnds : Ends paths (above ++ [k]) (k' :: path) q) :
    Ends paths above (k :: k' :: path) q
| past {above path other q : List κ} {k k' : κ}
    (hOther : other ∈ paths)
    (hThere : Ends paths [] other (above ++ [k]))
    (hEnds : Ends paths above (k' :: path) q) :
    Ends paths above (k :: k' :: path) q

/-
  A value ends near the path only where it belongs, and of
  the paths near it none begins another one.
-/
structure Settled
    (paths : Set (List κ))
    (p : List κ) : Prop where
  own :
    ∀ path ∈ paths, ∀ q,
      Ends paths [] path q → Near q p → q = path
  apart :
    ∀ path ∈ paths, ∀ path' ∈ paths,
      Near path p → Near path' p → path <+: path' →
        path = path'

/- None of the paths begins another one. -/
def Independent (paths : Set (List κ)) : Prop :=
  ∀ path ∈ paths, ∀ path' ∈ paths,
    path <+: path' → path = path'

variable {paths : Set (List κ)}

/- Then every value ends where it belongs. -/
theorem Independent.eq_of_ends
    (hPaths : Independent paths)
    {above path q : List κ}
    (hEnds : Ends paths above path q)
    (hMem : above ++ path ∈ paths) : q = above ++ path := by
  induction hEnds with
  | last above k => rfl
  | into hEnds ih => simpa using ih (by simpa using hMem)
  | past hOther hThere hEnds ihThere ih =>
      -- a value on the way would be at the path of another
      have hOwn := ihThere hOther
      rw [List.nil_append] at hOwn
      rw [← hOwn] at hOther
      have hSame := hPaths _ hOther _ hMem (by simp)
      simp at hSame

theorem Independent.settled
    (hPaths : Independent paths)
    (p : List κ) : Settled paths p where
  own := by
    intro path hMem q hEnds _
    exact hPaths.eq_of_ends hEnds hMem
  apart := by
    intro path hMem path' hMem' _ _ hPrefix
    exact hPaths path hMem path' hMem' hPrefix

theorem independent_singleton (path : List κ) :
    Independent {path} := by
  rintro _ rfl _ rfl _
  rfl

end NestedMaps

------------------------------------------------------------
-- Assignments
------------------------------------------------------------

namespace NestedMaps

variable {κ ν : Type} [DecidableEq κ]

namespace Tree

/- Assign the value at the path. -/
def assign : List κ → ν → Tree κ ν → Tree κ ν
| [], _, t => t
| [k], v, t => t.put k (.value v)
| k :: k' :: path, v, t =>
    match t.find k with
    | none => t.put k (.map (assign (k' :: path) v .nil))
    | some (.map under) =>
        t.put k (.map (assign (k' :: path) v under))
    | some (.value _) => assign (k' :: path) v t

/- No value is in the way to the path. -/
def Open (t : Tree κ ν) (path : List κ) : Prop :=
  ∀ q v, q <+: path → q ≠ path → t.report q ≠ some (.value v)

theorem open_nil (path : List κ) :
    (nil : Tree κ ν).Open path := by
  intro q v _ _ hValue
  cases q <;> cases hValue

/- A map goes into the map that stands under its key. -/
theorem report_put_map
    {t under after : Tree κ ν}
    {k : κ}
    {q : List κ}
    {v : ν}
    (hUnder : ∀ p, p ≠ [] → under.report p = t.report (k :: p))
    (hAfter :
      ∀ p,
        after.report p =
          if Near q p then
            some (placed q v p)
          else
            under.report p)
    (p : List κ) :
    (t.put k (.map after)).report p =
      if Near (k :: q) p then
        some (placed (k :: q) v p)
      else
        t.report p := by
  cases p with
  | nil =>
      rw [if_pos (near_nil _), placed_nil]
      rfl
  | cons first p =>
      have hNear := near_cons k first q p
      rw [report_put]
      by_cases hKey : k = first
      · subst hKey
        rw [if_pos rfl, Item.report_map, hAfter, placed_cons]
        by_cases hBelow : Near q p
        · rw [if_pos hBelow, if_pos (hNear.mpr ⟨rfl, hBelow⟩)]
        · rw [if_neg hBelow,
            if_neg fun h => hBelow (hNear.mp h).2]
          apply hUnder
          intro hNil
          subst hNil
          exact hBelow (near_nil _)
      · rw [if_neg hKey, if_neg fun h => hKey (hNear.mp h).1]

/-
  The value ends somewhere, at its own path if the way is
  open, and changes what is reported near that place only.
-/
theorem exists_ends_above
    {paths : Set (List κ)}
    {t : Tree κ ν}
    {above path : List κ}
    (hPath : path ≠ [])
    (hValues :
      ∀ r w, t.report r = some (.value w) →
        ∃ other ∈ paths, Ends paths [] other (above ++ r))
    (v : ν) :
    ∃ q,
      Ends paths above path (above ++ q) ∧
        (t.Open path → q = path) ∧
          ∀ p,
            (assign path v t).report p =
              if Near q p then
                some (placed q v p)
              else
                t.report p := by
  induction path generalizing t above with
  | nil => exact absurd rfl hPath
  | cons k path ih =>
      cases path with
      | nil =>
          refine ⟨[k], .last above k, fun _ => rfl, ?_⟩
          intro p
          rw [assign]
          cases p with
          | nil =>
              rw [if_pos (near_nil _), placed_nil]
              rfl
          | cons first p =>
              have hNear := near_cons k first [] p
              rw [report_put]
              by_cases hKey : k = first
              · subst hKey
                rw [if_pos rfl,
                  if_pos (hNear.mpr ⟨rfl, (near_nil p).symm⟩),
                  placed_cons]
                cases p <;> rfl
              · rw [if_neg hKey,
                  if_neg fun h => hKey (hNear.mp h).1]
      | cons k' path =>
          rw [assign]
          cases hFind : t.find k with
          | none =>
              have hUnder :
                  ∀ p, p ≠ [] →
                    (nil : Tree κ ν).report p =
                      t.report (k :: p) := by
                intro p hNe
                cases p with
                | nil => exact absurd rfl hNe
                | cons first p =>
                    rw [report_cons t, hFind]
                    rfl
              have hNoValue :
                  ∀ r w,
                    (nil : Tree κ ν).report r =
                        some (.value w) →
                      ∃ other ∈ paths,
                        Ends paths [] other
                          ((above ++ [k]) ++ r) := by
                intro r w hValue
                cases r <;> cases hValue
              rcases ih (List.cons_ne_nil k' path) hNoValue with
                ⟨q, hEnds, hOwn, hReport⟩
              refine ⟨k :: q, .into (by simpa using hEnds), ?_,
                report_put_map hUnder hReport⟩
              intro _
              rw [hOwn (open_nil _)]
          | some item =>
              cases item with
              | value w =>
                  have hValue : t.report [k] = some (.value w) := by
                    rw [report_cons, hFind]
                    rfl
                  rcases hValues [k] w hValue with
                    ⟨other, hOther, hThere⟩
                  rcases ih (List.cons_ne_nil k' path) hValues with
                    ⟨q, hEnds, _, hReport⟩
                  refine ⟨q, .past hOther hThere hEnds, ?_,
                    hReport⟩
                  intro hOpen
                  have hPrefix : [k] <+: k :: k' :: path := by
                    simp
                  exact absurd hValue
                    (hOpen [k] w hPrefix (by simp))
              | map under =>
                  have hUnder :
                      ∀ p, under.report p = t.report (k :: p) := by
                    intro p
                    rw [report_cons, hFind]
                    rfl
                  have hBelow :
                      ∀ r w,
                        under.report r = some (.value w) →
                          ∃ other ∈ paths,
                            Ends paths [] other
                              ((above ++ [k]) ++ r) := by
                    intro r w hValue
                    rw [hUnder] at hValue
                    simpa using hValues (k :: r) w hValue
                  rcases ih (List.cons_ne_nil k' path) hBelow with
                    ⟨q, hEnds, hOwn, hReport⟩
                  refine ⟨k :: q, .into (by simpa using hEnds),
                    ?_, report_put_map (fun p _ => hUnder p)
                      hReport⟩
                  intro hOpen
                  rw [hOwn]
                  intro r w hPrefix hNe hValue
                  rw [hUnder] at hValue
                  exact hOpen (k :: r) w
                    (List.cons_prefix_cons.mpr ⟨rfl, hPrefix⟩)
                    (by simpa using hNe) hValue

/- From the root. -/
theorem exists_ends
    {paths : Set (List κ)}
    {t : Tree κ ν}
    {path : List κ}
    (hPath : path ≠ [])
    (hValues :
      ∀ r w, t.report r = some (.value w) →
        ∃ other ∈ paths, Ends paths [] other r)
    (v : ν) :
    ∃ q,
      Ends paths [] path q ∧
        (t.Open path → q = path) ∧
          ∀ p,
            (assign path v t).report p =
              if Near q p then
                some (placed q v p)
              else
                t.report p :=
  exists_ends_above hPath hValues v

theorem distinct_assign
    (path : List κ)
    (v : ν)
    {t : Tree κ ν}
    (hTree : t.Distinct) :
    (assign path v t).Distinct := by
  induction path generalizing t with
  | nil => exact hTree
  | cons k path ih =>
      cases path with
      | nil => exact distinct_put k hTree trivial
      | cons k' path =>
          rw [assign]
          split
          · exact distinct_put k hTree (ih trivial)
          · rename_i under hFind
            exact distinct_put k hTree (ih (hTree.find hFind))
          · exact ih hTree

end Tree

end NestedMaps

------------------------------------------------------------
-- Lists Of Assignments
------------------------------------------------------------

namespace NestedMaps

variable {κ ν : Type} [DecidableEq κ]

/- The map that the values make, one after another. -/
def unflatten (entries : List (List κ × ν)) : Tree κ ν :=
  entries.foldl (fun t e => t.assign e.1 e.2) .nil

theorem unflatten_concat
    (entries : List (List κ × ν))
    (e : List κ × ν) :
    unflatten (entries ++ [e]) =
      (unflatten entries).assign e.1 e.2 := by
  rw [unflatten, List.foldl_append]
  rfl

theorem distinct_unflatten (entries : List (List κ × ν)) :
    (unflatten entries).Distinct := by
  induction entries using List.reverseRecOn with
  | nil => trivial
  | append_singleton entries e ih =>
      rw [unflatten_concat]
      exact Tree.distinct_assign e.1 e.2 ih

end NestedMaps

------------------------------------------------------------
-- What Assignments Make Of A Settled Path
------------------------------------------------------------

namespace NestedMaps

variable {κ ν : Type}
variable {paths : Set (List κ)}
variable {entries : List (List κ × ν)}

/- Values for some of the paths, one for each. -/
structure Assigns
    (paths : Set (List κ))
    (entries : List (List κ × ν)) : Prop where
  mem : ∀ e ∈ entries, e.1 ∈ paths
  nonempty : ∀ e ∈ entries, e.1 ≠ []
  single : ∀ e ∈ entries, ∀ e' ∈ entries, e.1 = e'.1 → e = e'

theorem Assigns.of_subset
    {others : List (List κ × ν)}
    (hEntries : Assigns paths entries)
    (hSubset : ∀ e ∈ others, e ∈ entries) :
    Assigns paths others where
  mem := fun e hMem => hEntries.mem e (hSubset e hMem)
  nonempty := fun e hMem =>
    hEntries.nonempty e (hSubset e hMem)
  single := fun e hMem e' hMem' =>
    hEntries.single e (hSubset e hMem) e' (hSubset e' hMem')

variable [DecidableEq κ]

/- Values stand only where they can end. -/
theorem exists_ends_of_value
    (hEntries : Assigns paths entries) :
    ∀ r w,
      (unflatten entries).report r = some (.value w) →
        ∃ path ∈ paths, Ends paths [] path r := by
  induction entries using List.reverseRecOn with
  | nil =>
      intro r w hValue
      cases r <;> cases hValue
  | append_singleton entries last ih =>
      have hLast : last ∈ entries ++ [last] := by simp
      have hBefore :=
        ih (hEntries.of_subset
          fun e hMem => List.mem_append_left _ hMem)
      rcases Tree.exists_ends
        (hEntries.nonempty last hLast) hBefore last.2 with
        ⟨q, hEnds, _, hReport⟩
      intro r w hValue
      rw [unflatten_concat, hReport] at hValue
      split at hValue
      · rw [Option.some.injEq] at hValue
        rw [eq_of_placed_eq_value hValue]
        exact ⟨last.1, hEntries.mem last hLast, hEnds⟩
      · exact hBefore r w hValue

variable {p : List κ}

/- Entries near a settled path make the same of it. -/
theorem placed_eq_of_near
    (hEntries : Assigns paths entries)
    (hSettled : Settled paths p)
    {e e' : List κ × ν}
    (hMem : e ∈ entries)
    (hMem' : e' ∈ entries)
    (hNear : Near e.1 p)
    (hNear' : Near e'.1 p) :
    placed e.1 e.2 p = placed e'.1 e'.2 p := by
  have hPath := hEntries.mem e hMem
  have hPath' := hEntries.mem e' hMem'
  by_cases hSame : Near e.1 e'.1
  · have hEq : e.1 = e'.1 := by
      rcases hSame with hLeft | hRight
      · exact hSettled.apart _ hPath _ hPath' hNear hNear' hLeft
      · exact (hSettled.apart _ hPath' _ hPath hNear' hNear
          hRight).symm
    rw [hEntries.single e hMem e' hMem' hEq]
  · -- the path is above both, since they begin no third one
    rw [placed_of_above hNear hNear' hSame,
      placed_of_above hNear' hNear fun h => hSame h.symm]

/-
  An entry near a settled path decides it, and without one
  nothing is reported there.
-/
theorem report_unflatten
    (hEntries : Assigns paths entries)
    (hSettled : Settled paths p) :
    (∀ e ∈ entries, Near e.1 p →
        (unflatten entries).report p =
          some (placed e.1 e.2 p)) ∧
      ((∀ e ∈ entries, ¬ Near e.1 p) → p ≠ [] →
        (unflatten entries).report p = none) := by
  induction entries using List.reverseRecOn with
  | nil =>
      refine ⟨by simp, ?_⟩
      intro _ hPath
      cases p with
      | nil => exact absurd rfl hPath
      | cons k p => rfl
  | append_singleton entries last ih =>
      have hLast : last ∈ entries ++ [last] := by simp
      have hBefore : Assigns paths entries :=
        hEntries.of_subset
          fun e hMem => List.mem_append_left _ hMem
      have hOwnPath := hEntries.mem last hLast
      have hValues := exists_ends_of_value hBefore
      rcases Tree.exists_ends
        (hEntries.nonempty last hLast) hValues last.2 with
        ⟨q, hEnds, hOpen, hReport⟩
      -- near the path the value ends where it belongs
      have hOwn : Near last.1 p → q = last.1 := by
        intro hNear
        apply hOpen
        intro r w hPrefix hNe hValue
        rcases hValues r w hValue with ⟨path, hPath, hThere⟩
        have hNearPath := near_of_begins hPrefix hNear
        have hEq := hSettled.own path hPath r hThere hNearPath
        rw [hEq] at hPrefix hNe hNearPath
        exact hNe
          (hSettled.apart path hPath last.1 hOwnPath hNearPath
            hNear hPrefix)
      rw [unflatten_concat, hReport]
      by_cases hNear : Near last.1 p
      · rw [hOwn hNear, if_pos hNear]
        refine ⟨?_, fun hFar => absurd hNear (hFar last hLast)⟩
        intro e hMem hNearEntry
        rw [placed_eq_of_near hEntries hSettled hLast hMem hNear
          hNearEntry]
      · have hFarEnd : ¬ Near q p := by
          intro hNearEnd
          rw [hSettled.own _ hOwnPath q hEnds hNearEnd]
            at hNearEnd
          exact hNear hNearEnd
        rw [if_neg hFarEnd]
        refine ⟨?_, ?_⟩
        · intro e hMem hNearEntry
          rcases List.mem_append.mp hMem with hOld | hSelf
          · exact (ih hBefore).1 e hOld hNearEntry
          · rw [List.mem_singleton.mp hSelf] at hNearEntry
            exact absurd hNearEntry hNear
        · intro hFar hPath
          apply (ih hBefore).2 _ hPath
          intro e hMem
          exact hFar e (List.mem_append_left _ hMem)

end NestedMaps

------------------------------------------------------------
-- Maps With Distinct Keys
------------------------------------------------------------

namespace NestedMaps

variable {κ ν : Type} [DecidableEq κ]

/- A map of maps, none with two entries of one key. -/
structure Map (κ ν : Type) [DecidableEq κ] where
  tree : Tree κ ν
  distinct : tree.Distinct

namespace Map

def empty : Map κ ν where
  tree := .nil
  distinct := trivial

def kind (m : Map κ ν) (p : List κ) : Kind ν :=
  m.tree.kind p

/- The entries of the later map over those of this one. -/
def merge (m later : Map κ ν) : Map κ ν where
  tree := later.tree.merge m.tree
  distinct := Tree.distinct_merge later.distinct m.distinct

def unflatten (entries : List (List κ × ν)) : Map κ ν where
  tree := NestedMaps.unflatten entries
  distinct := distinct_unflatten entries

/- The value at the path, over what the map holds. -/
def set (m : Map κ ν) (path : List κ) (v : ν) : Map κ ν :=
  m.merge (unflatten [(path, v)])

theorem kind_merge (m later : Map κ ν) (p : List κ) :
    (m.merge later).kind p =
      (later.tree.report p).getD (m.kind p) :=
  Tree.kind_merge later.distinct m.tree p

theorem kind_set
    (m : Map κ ν)
    {path : List κ}
    (hPath : path ≠ [])
    (v : ν)
    (p : List κ) :
    (m.set path v).kind p =
      if Near path p then placed path v p else m.kind p := by
  have hEntries : Assigns {path} [(path, v)] :=
    { mem := by simp
      nonempty := by simpa using hPath
      single := by simp }
  have hReport :=
    report_unflatten hEntries
      ((independent_singleton path).settled p)
  rw [set, kind_merge]
  by_cases hNear : Near path p
  · have hOwn := hReport.1 (path, v) (by simp) hNear
    rw [if_pos hNear]
    exact congrArg (·.getD (m.kind p)) hOwn
  · rw [if_neg hNear]
    cases p with
    | nil => exact absurd (near_nil path) hNear
    | cons k p =>
        have hNone := hReport.2 (by simpa using hNear) (by simp)
        exact congrArg (·.getD (m.kind (k :: p))) hNone

end Map

end NestedMaps
