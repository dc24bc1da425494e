import DsxExchange.AsyncapiDocs.YamlPasses
import Mathlib.Data.List.Nodup

/-
  Values on one line: which texts, sequences and mappings are
  read without leaving anything out.

  Key definitions include:
    * `AsyncapiDocs.Yaml.LosesNothing`
    * `AsyncapiDocs.Yaml.keepsText`, `AsyncapiDocs.Yaml.keepsSeq`,
      `AsyncapiDocs.Yaml.keepsMap`

  Key theorems include:
    * `AsyncapiDocs.Yaml.losesNothing_pairsUses`
    * `AsyncapiDocs.Yaml.losesNothing_lineUses`
-/

------------------------------------------------------------
-- Texts that Are Kept
------------------------------------------------------------

namespace AsyncapiDocs.Yaml

open Python (Str Value strip)

/- No text is one quote, once its comment is cut off. -/
def keepsText (text : Str) : Bool :=
  !isLoneQuote (stripComment text)

/- Each item is kept, or the whole text is one item. -/
def keepsSeq (text : Str) : Bool :=
  let text := strip text
  if startsWith '[' text && text.getLast? == some ']' then
    (splitFlow (strip (inner text))).all fun item =>
      keepsText (strip item)
  else
    keepsText text

/- A pair has a key, or else it is blank or only a comment. -/
def keepsPair (pair : Str) : Bool :=
  if ':' ∈ pair then
    unquoted (pairKey pair) = stripQuotes (pairKey pair) &&
      keepsText (pairValue pair)
  else
    stripComment (strip pair) = []

/- The keys of the pairs that have one. -/
def pairKeys (pairs : List Str) : List Str :=
  (pairs.filter (':' ∈ ·)).map fun pair =>
    stripQuotes (pairKey pair)

/- The mapping ends on its line, and each pair is kept. -/
def keepsMap (text : Str) : Bool :=
  let text := strip text
  if startsWith '\x7b' text && text.getLast? == some '\x7d' then
    let pairs := splitFlow (strip (inner text))
    pairs.all keepsPair && decide (pairKeys pairs).Nodup
  else
    isEmptyMap text

/- A value on the line of its key or dash. -/
def keepsLine (text : Str) : Bool :=
  if startsWith '[' text then
    keepsSeq text
  else if startsWith '\x7b' text then
    keepsMap text
  else
    keepsText text

end AsyncapiDocs.Yaml

------------------------------------------------------------
-- Uses Without a Loss
------------------------------------------------------------

namespace AsyncapiDocs.Yaml

open Python (Str Value strip)

variable {scalars : Scalars}

/- Nothing of what was read is left out. -/
def LosesNothing (uses : List Use) : Prop :=
  ∀ text, Use.lost text ∉ uses

theorem losesNothing_nil : LosesNothing [] := by
  intro text hMem
  cases hMem

theorem losesNothing_append {uses more : List Use} :
    LosesNothing (uses ++ more) ↔
      LosesNothing uses ∧ LosesNothing more := by
  unfold LosesNothing
  simp only [List.mem_append, not_or, forall_and]

theorem losesNothing_cons {use : Use} {uses : List Use} :
    LosesNothing (use :: uses) ↔
      LosesNothing [use] ∧ LosesNothing uses :=
  @losesNothing_append [use] uses

theorem losesNothing_singleton {use : Use} :
    LosesNothing [use] ↔ ∀ text, use ≠ .lost text := by
  unfold LosesNothing
  simp only [List.mem_singleton, ne_eq, eq_comm]

/- An entry of a list of uses that each come with an item. -/
theorem losesNothing_flatMap
    {α : Type}
    {items : List α}
    {uses : α → List Use} :
    LosesNothing (items.flatMap uses) ↔
      ∀ item ∈ items, LosesNothing (uses item) := by
  induction items with
  | nil => simp [losesNothing_nil]
  | cons item items ih =>
      rw [List.flatMap_cons, losesNothing_append, ih,
        List.forall_mem_cons]

theorem lookup_isSome_iff
    {key : Str}
    {result : List (Str × Value)} :
    (result.lookup key).isSome = true ↔
      key ∈ result.map Prod.fst := by
  rw [List.lookup_isSome_iff, List.mem_map]
  constructor
  · rintro ⟨entry, hMem, hKey⟩
    exact ⟨entry, hMem, (eq_of_beq hKey).symm⟩
  · rintro ⟨entry, hMem, hKey⟩
    exact ⟨entry, hMem, beq_iff_eq.mpr hKey.symm⟩

theorem losesNothing_keyUse
    {name key : Str}
    {result : List (Str × Value)} :
    LosesNothing [keyUse name key result] ↔
      key ∉ result.map Prod.fst ∧ name = key := by
  rw [losesNothing_singleton, keyUse]
  split
  · next hLost =>
      rw [lookup_isSome_iff] at hLost
      refine iff_of_false (fun hUse => hUse name rfl) ?_
      rintro ⟨hNew, hName⟩
      exact hLost.elim hNew fun hDiffer => hDiffer hName
  · next hKept =>
      rw [not_or, not_not, lookup_isSome_iff] at hKept
      refine iff_of_true ?_ hKept
      rintro text ⟨⟩

theorem keyUse_of_new
    {name key : Str}
    {result : List (Str × Value)}
    (hNew : key ∉ result.map Prod.fst ∧ name = key) :
    keyUse name key result = .key key := by
  rw [keyUse, if_neg]
  rw [lookup_isSome_iff, not_or, not_not]
  exact hNew

theorem losesNothing_textUse {text : Str} :
    LosesNothing [textUse text] ↔ keepsText text = true := by
  rw [losesNothing_singleton, textUse, keepsText]
  split
  · next hLone =>
      refine iff_of_false (fun hUse => hUse text rfl) ?_
      simp [hLone]
  · next hText =>
      refine iff_of_true ?_ (by simpa using hText)
      rintro text ⟨⟩

theorem losesNothing_seqUses (text : Str) :
    LosesNothing (seqUses text) ↔ keepsSeq text = true := by
  have hMark : ∀ use, use = .sequence ∨ use = .item →
      LosesNothing [use] := by
    rintro use (rfl | rfl) other hMem <;> simp at hMem
  unfold seqUses keepsSeq
  dsimp only
  split
  · rw [losesNothing_cons, losesNothing_flatMap,
      and_iff_right (hMark _ (Or.inl rfl)), List.all_eq_true]
    refine forall₂_congr fun item hMem => ?_
    rw [losesNothing_cons,
      and_iff_right (hMark _ (Or.inr rfl)), losesNothing_textUse]
  · rw [losesNothing_cons, and_iff_right (hMark _ (Or.inl rfl)),
      losesNothing_cons, and_iff_right (hMark _ (Or.inr rfl)),
      losesNothing_textUse]

end AsyncapiDocs.Yaml

------------------------------------------------------------
-- Mappings
------------------------------------------------------------

namespace AsyncapiDocs.Yaml

open Python (Str Value strip)

variable {scalars : Scalars}

theorem flowPair_of_mem
    {pair : Str}
    (hColon : ':' ∈ pair)
    (result : List (Str × Value)) :
    scalars.flowPair result pair =
      Python.setEntry (stripQuotes (pairKey pair))
        (scalars.scalar (pairValue pair)) result := by
  rw [Scalars.flowPair, if_pos hColon]
  rfl

theorem flowPair_of_not_mem
    {pair : Str}
    (hColon : ':' ∉ pair)
    (result : List (Str × Value)) :
    scalars.flowPair result pair = result :=
  if_neg hColon

/-
  Going through the pairs, each is kept and has a key that is
  new just when the keys differ.
-/
theorem losesNothing_pairsUses
    (result : List (Str × Value))
    (pairs : List Str) :
    LosesNothing (scalars.pairsUses result pairs) ↔
      (∀ pair ∈ pairs, keepsPair pair = true) ∧
        (pairKeys pairs).Nodup ∧
        ∀ key ∈ pairKeys pairs, key ∉ result.map Prod.fst := by
  induction pairs generalizing result with
  | nil => simp [Scalars.pairsUses, losesNothing_nil, pairKeys]
  | cons pair pairs ih =>
      rw [Scalars.pairsUses, losesNothing_append, ih,
        List.forall_mem_cons]
      by_cases hColon : ':' ∈ pair
      · have hKeys :
            pairKeys (pair :: pairs) =
              stripQuotes (pairKey pair) :: pairKeys pairs := by
          simp [pairKeys, hColon]
        rw [pairUses, if_pos hColon, losesNothing_cons,
          losesNothing_keyUse, losesNothing_textUse, keepsPair,
          if_pos hColon, flowPair_of_mem hColon, hKeys,
          List.nodup_cons, List.forall_mem_cons,
          Bool.and_eq_true, decide_eq_true_iff]
        by_cases hNew :
          stripQuotes (pairKey pair) ∈ result.map Prod.fst
        · exact iff_of_false (fun h => h.1.1.1 hNew)
            fun h => h.2.2.1 hNew
        · have hFresh :
              (∀ key ∈ pairKeys pairs,
                key ∉ (result ++
                  [(stripQuotes (pairKey pair),
                    scalars.scalar (pairValue pair))]).map
                      Prod.fst) ↔
                stripQuotes (pairKey pair) ∉ pairKeys pairs ∧
                  ∀ key ∈ pairKeys pairs,
                    key ∉ result.map Prod.fst := by
            simp only [List.map_append, List.map_cons,
              List.map_nil, List.mem_append, List.mem_singleton,
              not_or]
            constructor
            · intro hAll
              exact ⟨fun hMem => (hAll _ hMem).2 rfl,
                fun key hMem => (hAll key hMem).1⟩
            · rintro ⟨hOther, hAll⟩ key hMem
              refine ⟨hAll key hMem, ?_⟩
              rintro rfl
              exact hOther hMem
          rw [Python.setEntry_of_not_mem hNew, hFresh]
          tauto
      · have hKeys :
            pairKeys (pair :: pairs) = pairKeys pairs := by
          simp [pairKeys, hColon]
        rw [pairUses, if_neg hColon, keepsPair, if_neg hColon,
          flowPair_of_not_mem hColon, hKeys,
          decide_eq_true_iff]
        split
        · next hBlank => simp [losesNothing_nil, hBlank]
        · next hText =>
            have hLost : ¬ LosesNothing [Use.lost pair] := by
              intro hClean
              exact hClean pair List.mem_cons_self
            simp [hLost, hText]

theorem losesNothing_mapUses (text : Str) :
    LosesNothing (scalars.mapUses text) ↔
      keepsMap text = true := by
  have hMark : LosesNothing [Use.mapping] := by
    intro other hMem
    simp at hMem
  unfold Scalars.mapUses keepsMap
  dsimp only
  split
  · rw [losesNothing_cons, and_iff_right hMark,
      losesNothing_pairsUses]
    simp
  · split
    · next hEmpty => exact iff_of_true hMark hEmpty
    · next hText =>
        refine iff_of_false ?_ hText
        intro hClean
        exact hClean (strip text) (by simp)

theorem losesNothing_lineUses (text : Str) :
    LosesNothing (scalars.lineUses text) ↔
      keepsLine text = true := by
  unfold Scalars.lineUses keepsLine
  split
  · exact losesNothing_seqUses text
  · split
    · exact losesNothing_mapUses text
    · exact losesNothing_textUse

end AsyncapiDocs.Yaml
