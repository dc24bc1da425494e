import DsxExchange.AsyncapiDocs.Operation
import DsxExchange.AsyncapiDocs.Resolving

/-
  When the generation of pages ends. A depth bounds the
  resolving of schemas and the rendering of tables, but not
  the first alternatives of an example or the references of
  a message, which may go round in a circle.

  Key definitions include:
    * `AsyncapiDocs.FirstAlternative`
    * `AsyncapiDocs.NextRef`, `AsyncapiDocs.MeetsCircle`
    * `AsyncapiDocs.PagesEnd`

  Key theorems include:
    * `AsyncapiDocs.ends_generateExample`
    * `AsyncapiDocs.ends_messagesOf`
    * `AsyncapiDocs.pagesEnd_iff`
-/

------------------------------------------------------------
-- First Alternatives
------------------------------------------------------------

namespace AsyncapiDocs

open Python (Str Value PyError Outcome Ends bind_eq_ok)
open Python.Value (Child Below Under)
open Relation

variable {spec : Value}

/- The schema whose example is that of another one. -/
def FirstAlternative (spec schema next : Value) : Prop :=
  schema.isNone = false ∧
    ∃ resolved type,
      resolveSchema spec schema 0 = .ok resolved ∧
        ownExample resolved = .ok none ∧
        exampleType resolved = .ok type ∧
        firstAlternative resolved = .ok (some next)

theorem not_firstAlternative_str
    {s : Str}
    (next : Value) :
    ¬ FirstAlternative spec (.str s) next := by
  rintro ⟨_, resolved, type, hResolve, _, hType, _⟩
  rw [resolveLevels_str hResolve] at hType
  cases hType

theorem isPlain_oneOf : IsPlain "oneOf".toList := by
  constructor <;> decide

theorem child_of_first
    {value first : Value}
    (hFirst : value.first = .ok first) :
    Child value first ∨ ∃ s, first = .str s := by
  cases value with
  | list items =>
      cases items with
      | nil => cases hFirst
      | cons item items =>
          cases hFirst
          exact Or.inl (Child.item List.mem_cons_self)
  | str s =>
      cases s with
      | nil => cases hFirst
      | cons c s =>
          cases hFirst
          exact Or.inr ⟨[c], rfl⟩
  | _ => cases hFirst

/- The first alternative is a part, or else a text. -/
theorem firstAlternative_known
    {schema next : Value}
    (hFirst : FirstAlternative spec schema next) :
    Known spec schema next ∨ ∃ s, next = .str s := by
  rcases hFirst with
    ⟨_, resolved, type, hResolve, _, _, hNext⟩
  rw [firstAlternative, bind_eq_ok] at hNext
  rcases hNext with ⟨isOneOf, _, hNext⟩
  split at hNext
  · simp only [bind_eq_ok] at hNext
    rcases hNext with
      ⟨alternatives, hItem, first, hFirst, hLast⟩
    cases hLast
    rcases mem_of_item hItem with ⟨entries, hDict, hMem⟩
    rw [hDict] at hResolve
    have hKnown :=
      plainValues_resolveLevels hResolve _ hMem isPlain_oneOf
    rcases child_of_first hFirst with hChild | hText
    · rcases hKnown with hSpec | hBelow
      · exact Or.inl (Or.inl (hSpec.tail hChild))
      · exact Or.inl (Or.inr (hBelow.tail hChild))
    · exact Or.inr hText
  · cases hNext

/- Without a circle, first alternatives come to an end. -/
theorem acc_firstAlternative
    (hAcyclic :
      ∀ schema,
        ¬ TransGen (FirstAlternative spec) schema schema)
    (schema : Value) :
    Acc (fun b a => FirstAlternative spec a b) schema := by
  have hFinite :
      ({v | Under spec v} ∪ {v | Under schema v}).Finite :=
    (Value.finite_under spec).union (Value.finite_under schema)
  apply Python.acc_of_acyclic hFinite
  · intro a hIn b hFirst
    rcases firstAlternative_known hFirst with
      (hSpec | hBelow) | ⟨s, hText⟩
    · exact Or.inl (Or.inl hSpec.to_reflTransGen)
    · left
      rcases hIn with hUnder | hUnder
      · exact Or.inl (hUnder.trans hBelow.to_reflTransGen)
      · exact Or.inr (hUnder.trans hBelow.to_reflTransGen)
    · right
      rw [hText]
      exact not_firstAlternative_str
  · intro a _
    exact hAcyclic a
  · exact Or.inr ReflTransGen.refl

/- The example of a schema is that of its alternative. -/
theorem generateExample_first
    {schema next : Value}
    {depth maxDepth : ℕ}
    (hFirst : FirstAlternative spec schema next)
    (hDepth : depth ≤ maxDepth)
    (fuel : ℕ) :
    generateExample spec (fuel + 1) schema depth maxDepth =
      generateExample spec fuel next depth maxDepth := by
  rcases hFirst with
    ⟨hSome, resolved, type, hResolve, hOwn, hType, hNext⟩
  have hGuard :
      ¬ (schema.isNone = true ∨ maxDepth < depth) := by
    rw [hSome, not_or]
    exact ⟨Bool.false_ne_true, by omega⟩
  rw [generateExample, if_neg hGuard, hResolve]
  simp only [Outcome.of, Outcome.done_bind, hOwn, hType, hNext]

/- A circle of first alternatives is never left. -/
theorem unfinished_generateExample
    {schema : Value}
    {depth maxDepth : ℕ}
    (hCycle : TransGen (FirstAlternative spec) schema schema)
    (hDepth : depth ≤ maxDepth)
    (fuel : ℕ) :
    generateExample spec fuel schema depth maxDepth =
      .unfinished := by
  induction fuel generalizing schema with
  | zero => rfl
  | succ fuel ih =>
      rcases Python.next_of_cycle hCycle with
        ⟨next, hNext, hBack⟩
      rw [generateExample_first hNext hDepth]
      exact ih hBack

theorem ends_objectExample
    {exampleOf : ℕ → Value → Outcome Value}
    (hExample : ∀ value, Ends fun fuel => exampleOf fuel value)
    (schema : Value) :
    Ends fun fuel => objectExample (exampleOf fuel) schema := by
  unfold objectExample
  apply Ends.of_bind
  intro props _
  split
  · apply Ends.of_bind
    intro entries _
    apply Ends.bind
    · apply Python.ends_foldlM
      intro prop _ obj
      apply Ends.bind (hExample prop.2)
      intro value _
      exact Python.ends_done _
    · intro obj _
      exact Python.ends_done _
  · apply Ends.of_bind
    intro additional _
    split
    · apply Ends.bind (hExample _)
      intro inner _
      exact Python.ends_done _
    · exact Python.ends_done _

theorem ends_arrayExample
    {exampleOf : ℕ → Value → Outcome Value}
    (hExample : ∀ value, Ends fun fuel => exampleOf fuel value)
    (schema : Value) :
    Ends fun fuel => arrayExample (exampleOf fuel) schema := by
  unfold arrayExample
  apply Ends.of_bind
  intro items _
  apply Ends.bind (hExample items)
  intro inner _
  split
  · exact Python.ends_done _
  · exact Python.ends_done _

/- One call, from the calls that it may make. -/
theorem ends_example_step
    {schema : Value}
    {depth maxDepth : ℕ}
    (hDeeper :
      ∀ value,
        Ends fun fuel =>
          generateExample spec fuel value (depth + 1) maxDepth)
    (hFirst :
      ∀ next, FirstAlternative spec schema next →
        Ends fun fuel =>
          generateExample spec fuel next depth maxDepth) :
    Ends fun fuel =>
      generateExample spec fuel schema depth maxDepth := by
  by_cases hGuard : schema.isNone = true ∨ maxDepth < depth
  · apply Python.ends_succ (Python.ends_done Value.none)
    intro fuel
    rw [generateExample, if_pos hGuard]
  · refine Python.ends_succ ?_ fun fuel => by
      rw [generateExample, if_neg hGuard]
    apply Ends.of_bind
    intro resolved hResolve
    apply Ends.of_bind
    intro own hOwn
    cases own with
    | some given => exact Python.ends_done given
    | none =>
        apply Ends.of_bind
        intro type hType
        apply Ends.of_bind
        intro first hNext
        cases first with
        | some next =>
            apply hFirst next
            have hSome : schema.isNone = false := by
              cases hNone : schema.isNone with
              | true => exact absurd (Or.inl hNone) hGuard
              | false => rfl
            exact ⟨hSome, resolved, type, hResolve, hOwn, hType,
              hNext⟩
        | none =>
            dsimp only
            split
            · exact ends_objectExample hDeeper resolved
            · split
              · exact ends_arrayExample hDeeper resolved
              · exact Python.ends_of _

/-
  The outer induction is on the levels to the bound, the inner
  one on the first alternatives at one depth.
-/
theorem ends_generateExample
    (hAcyclic :
      ∀ schema,
        ¬ TransGen (FirstAlternative spec) schema schema)
    (schema : Value)
    (depth maxDepth : ℕ) :
    Ends fun fuel =>
      generateExample spec fuel schema depth maxDepth := by
  have hLevels :
      ∀ levels depth schema, maxDepth < depth + levels →
        Ends fun fuel =>
          generateExample spec fuel schema depth maxDepth := by
    intro levels
    induction levels with
    | zero =>
        intro depth schema hDepth
        apply Python.ends_succ (Python.ends_done Value.none)
        intro fuel
        rw [generateExample, if_pos (Or.inr (by omega))]
    | succ levels ih =>
        intro depth schema hDepth
        induction acc_firstAlternative hAcyclic schema with
        | intro schema _ hAlternative =>
            apply ends_example_step
            · intro value
              exact ih (depth + 1) value (by omega)
            · exact hAlternative
  exact hLevels (maxDepth + 1) depth schema (by omega)

end AsyncapiDocs

------------------------------------------------------------
-- References to References
------------------------------------------------------------

namespace AsyncapiDocs

open Python (Str Value PyError Outcome Ends Diverges Settles)
open Python.Value (Under)
open Relation

variable {spec : Value}

/- What a message that is a reference alone stands for. -/
def NextRef (spec message next : Value) : Prop :=
  ∃ ref,
    onlyRef message = some ref ∧
      resolveRef spec ref = .ok next

/- The references of a message lead into a circle. -/
def Circling (spec message : Value) : Prop :=
  ∃ last,
    ReflTransGen (NextRef spec) message last ∧
      TransGen (NextRef spec) last last

/- The reference of an entry of an operation. -/
def entryRef : Value → Option Value
| .dict entries => entries.lookup "$ref".toList
| _ => none

/- An entry whose references lead into a circle. -/
def EntryCircles (spec mref : Value) : Prop :=
  ∃ ref first,
    entryRef mref = some ref ∧
      resolveRef spec ref = .ok first ∧
      Circling spec first

/- An entry whose references, if any, lead to a message. -/
def EntryAnswers (spec mref : Value) : Prop :=
  ∀ ref, entryRef mref = some ref →
    ∃ first last,
      resolveRef spec ref = .ok first ∧
        ReflTransGen (NextRef spec) first last ∧
        onlyRef last = none

/- A circle is met behind entries that have messages. -/
inductive MeetsCircle (spec : Value) : List Value → Prop where
  | here
      {mref : Value}
      {rest : List Value}
      (hCircles : EntryCircles spec mref) :
      MeetsCircle spec (mref :: rest)
  | later
      {mref : Value}
      {rest : List Value}
      (hAnswers : EntryAnswers spec mref)
      (hRest : MeetsCircle spec rest) :
      MeetsCircle spec (mref :: rest)

theorem followRefs_next
    {message next : Value}
    (hNext : NextRef spec message next)
    (fuel : ℕ) :
    followRefs spec (fuel + 1) message =
      followRefs spec fuel next := by
  rcases hNext with ⟨ref, hOnly, hResolve⟩
  simp only [followRefs, hOnly, hResolve, Outcome.of,
    Outcome.done_bind]

theorem Circling.next
    {message : Value}
    (hCircling : Circling spec message) :
    ∃ next, NextRef spec message next ∧ Circling spec next := by
  rcases hCircling with ⟨last, hPath, hCycle⟩
  rcases ReflTransGen.cases_head hPath with
    hSelf | ⟨next, hNext, hRest⟩
  · rw [hSelf]
    rcases Python.next_of_cycle hCycle with
      ⟨next, hNext, hBack⟩
    exact ⟨next, hNext, next, ReflTransGen.refl, hBack⟩
  · exact ⟨next, hNext, last, hRest, hCycle⟩

/- A circle of references is never left. -/
theorem unfinished_followRefs
    {message : Value}
    (hCircling : Circling spec message)
    (fuel : ℕ) :
    followRefs spec fuel message = .unfinished := by
  induction fuel generalizing message with
  | zero => rfl
  | succ fuel ih =>
      rcases hCircling.next with ⟨next, hNext, hMore⟩
      rw [followRefs_next hNext]
      exact ih hMore

/- What is found at the end of the references. -/
theorem followRefs_done
    {message last : Value}
    {fuel : ℕ}
    (hDone : followRefs spec fuel message = .done last) :
    ReflTransGen (NextRef spec) message last ∧
      onlyRef last = none := by
  induction fuel generalizing message with
  | zero => cases hDone
  | succ fuel ih =>
      cases hOnly : onlyRef message with
      | none =>
          simp only [followRefs, hOnly] at hDone
          cases hDone
          exact ⟨ReflTransGen.refl, hOnly⟩
      | some ref =>
          simp only [followRefs, hOnly] at hDone
          cases hResolve : resolveRef spec ref with
          | error error =>
              rw [hResolve] at hDone
              cases hDone
          | ok next =>
              rw [hResolve] at hDone
              rcases ih hDone with ⟨hPath, hLast⟩
              exact ⟨hPath.head ⟨ref, hOnly, hResolve⟩, hLast⟩

theorem settles_followRefs
    {message last : Value}
    (hPath : ReflTransGen (NextRef spec) message last)
    (hLast : onlyRef last = none) :
    Settles (fun fuel => followRefs spec fuel message)
      (.done last) := by
  induction hPath using ReflTransGen.head_induction_on with
  | refl =>
      refine ⟨by simp, 1, ?_⟩
      intro fuel hFuel
      cases fuel with
      | zero => omega
      | succ fuel => simp only [followRefs, hLast]
  | head hNext _ ih =>
      rcases ih with ⟨hDone, bound, hBound⟩
      refine ⟨hDone, bound + 1, ?_⟩
      intro fuel hFuel
      cases fuel with
      | zero => omega
      | succ fuel =>
          dsimp only at hBound ⊢
          rw [followRefs_next hNext]
          exact hBound fuel (by omega)

/- References lead to finitely many places. -/
theorem acc_nextRef
    {message : Value}
    (hNone : ¬ Circling spec message) :
    Acc (fun b a => NextRef spec a b) message := by
  have hFinite :
      ({message, .dict []} ∪ {v | Under spec v}).Finite :=
    (Set.toFinite _).union (Value.finite_under spec)
  have hReached :=
    hFinite.inter_of_left
      {v | ReflTransGen (NextRef spec) message v}
  apply Python.acc_of_acyclic hReached
  · rintro a ⟨_, hPath⟩ b hNext
    left
    refine ⟨?_, hPath.tail hNext⟩
    rcases hNext with ⟨ref, _, hResolve⟩
    rcases resolveRef_under hResolve with hNil | hUnder
    · exact Or.inl (Or.inr hNil)
    · exact Or.inr hUnder
  · rintro a ⟨_, hPath⟩ hCycle
    exact hNone ⟨a, hPath, hCycle⟩
  · exact ⟨Or.inl (Or.inl rfl), ReflTransGen.refl⟩

theorem ends_followRefs
    {message : Value}
    (hNone : ¬ Circling spec message) :
    Ends fun fuel => followRefs spec fuel message := by
  induction acc_nextRef hNone with
  | intro message _ ih =>
      cases hOnly : onlyRef message with
      | none =>
          apply Python.ends_succ (Python.ends_done message)
          intro fuel
          simp only [followRefs, hOnly]
      | some ref =>
          have hInner :
              Ends fun fuel =>
                Outcome.of (resolveRef spec ref) >>= fun next =>
                  followRefs spec fuel next := by
            apply Ends.of_bind
            intro next hResolve
            have hNext : NextRef spec message next :=
              ⟨ref, hOnly, hResolve⟩
            apply ih next hNext
            rintro ⟨last, hPath, hCycle⟩
            exact hNone ⟨last, hPath.head hNext, hCycle⟩
          apply Python.ends_succ hInner
          intro fuel
          simp only [followRefs, hOnly]

theorem messageOf_ref
    {mref ref : Value}
    (hRef : entryRef mref = some ref)
    (fuel : ℕ) :
    messageOf spec fuel mref =
      (.of (resolveRef spec ref) >>= fun first =>
        followRefs spec fuel first >>= fun last =>
          .done [last]) := by
  cases mref with
  | dict entries =>
      unfold entryRef at hRef
      simp only [messageOf, hRef]
      rfl
  | _ => cases hRef

theorem messageOf_none
    (spec : Value)
    {mref : Value}
    (hRef : entryRef mref = none) :
    ∃ messages,
      ∀ fuel, messageOf spec fuel mref = .done messages := by
  cases mref with
  | dict entries =>
      unfold entryRef at hRef
      refine ⟨[.dict entries], ?_⟩
      intro fuel
      simp only [messageOf, hRef]
  | _ => exact ⟨[], fun _ => rfl⟩

theorem diverges_messageOf
    {mref : Value}
    (hCircles : EntryCircles spec mref) :
    Diverges fun fuel => messageOf spec fuel mref := by
  rcases hCircles with ⟨ref, first, hRef, hResolve, hCircling⟩
  refine ⟨0, ?_⟩
  intro fuel _
  dsimp only
  rw [messageOf_ref hRef, hResolve]
  simp only [Outcome.of, Outcome.done_bind,
    unfinished_followRefs hCircling, Outcome.unfinished_bind]

theorem settles_messageOf
    {mref : Value}
    (hAnswers : EntryAnswers spec mref) :
    ∃ messages,
      Settles (fun fuel => messageOf spec fuel mref)
        (.done messages) := by
  cases hRef : entryRef mref with
  | none =>
      rcases messageOf_none spec hRef with
        ⟨messages, hMessages⟩
      exact ⟨messages, by simp, 0, fun fuel _ => hMessages fuel⟩
  | some ref =>
      rcases hAnswers ref hRef with
        ⟨first, last, hResolve, hPath, hLast⟩
      rcases settles_followRefs hPath hLast with
        ⟨_, bound, hBound⟩
      refine ⟨[last], by simp, bound, ?_⟩
      intro fuel hFuel
      have hFollow := hBound fuel hFuel
      dsimp only at hFollow ⊢
      rw [messageOf_ref hRef, hResolve]
      simp only [Outcome.of, Outcome.done_bind, hFollow]

theorem ends_messageOf
    {mref : Value}
    (hNone : ¬ EntryCircles spec mref) :
    Ends fun fuel => messageOf spec fuel mref := by
  cases hRef : entryRef mref with
  | none =>
      rcases messageOf_none spec hRef with
        ⟨messages, hMessages⟩
      exact Python.ends_of_eq (by simp) hMessages
  | some ref =>
      simp only [messageOf_ref hRef]
      apply Ends.of_bind
      intro first hResolve
      apply Ends.bind
      · apply ends_followRefs
        intro hCircling
        exact hNone ⟨ref, first, hRef, hResolve, hCircling⟩
      · intro last _
        exact Python.ends_done [last]

theorem entryAnswers_of_settles
    {mref : Value}
    {messages : List Value}
    (hSettles :
      Settles (fun fuel => messageOf spec fuel mref)
        (.done messages)) :
    EntryAnswers spec mref := by
  intro ref hRef
  rcases hSettles with ⟨_, bound, hBound⟩
  have hDone := hBound bound (le_refl bound)
  dsimp only at hDone
  rw [messageOf_ref hRef] at hDone
  cases hResolve : resolveRef spec ref with
  | error error =>
      rw [hResolve] at hDone
      cases hDone
  | ok first =>
      rw [hResolve] at hDone
      simp only [Outcome.of, Outcome.done_bind] at hDone
      cases hFollow : followRefs spec bound first with
      | done last =>
          rcases followRefs_done hFollow with ⟨hPath, hLast⟩
          exact ⟨first, last, rfl, hPath, hLast⟩
      | raised error =>
          rw [hFollow] at hDone
          cases hDone
      | unfinished =>
          rw [hFollow] at hDone
          cases hDone

theorem diverges_messagesOf
    {refs : List Value}
    (hMeets : MeetsCircle spec refs) :
    Diverges fun fuel => messagesOf spec fuel refs := by
  induction hMeets with
  | here hCircles => exact (diverges_messageOf hCircles).bind
  | later hAnswers _ ih =>
      rcases settles_messageOf hAnswers with
        ⟨messages, hSettles⟩
      exact hSettles.diverges_bind ih.bind

/- The messages of an operation, unless a circle is met. -/
theorem ends_messagesOf
    {refs : List Value}
    (hNone : ¬ MeetsCircle spec refs) :
    Ends fun fuel => messagesOf spec fuel refs := by
  induction refs with
  | nil => exact Python.ends_done []
  | cons mref rest ih =>
      have hFirst : ¬ EntryCircles spec mref := by
        intro hCircles
        exact hNone (.here hCircles)
      apply Ends.bind (ends_messageOf hFirst)
      intro messages hSettles
      have hAnswers := entryAnswers_of_settles hSettles
      have hRest : ¬ MeetsCircle spec rest := by
        intro hMeets
        exact hNone (.later hAnswers hMeets)
      apply Ends.bind (ih hRest)
      intro others _
      exact Python.ends_done (messages ++ others)

end AsyncapiDocs

------------------------------------------------------------
-- Pages
------------------------------------------------------------

namespace AsyncapiDocs

open Python (Str Value PyError Outcome Ends Diverges)
open Relation

variable {formats : Formats} {spec : Value}

/-
  An operation is shown up to its messages, and following
  their references meets a circle.
-/
def OperationCircles
    (formats : Formats)
    (spec : Value)
    (opName : Str) : Prop :=
  ∃ op head entries refs,
    operationOf spec opName = .ok op ∧
      op.truthy = true ∧
      operationHead formats spec op = .ok head ∧
      op.get "messages".toList (.list []) = .ok entries ∧
      entries.iter = .ok refs ∧
      MeetsCircle spec refs

/- Every example and every page of an operation ends. -/
def PagesEnd (formats : Formats) (spec : Value) : Prop :=
  (∀ schema depth maxDepth,
    Ends fun fuel =>
      generateExample spec fuel schema depth maxDepth) ∧
    ∀ schemaDoc opName pageTitle,
      Ends fun fuel =>
        genOperation formats spec schemaDoc fuel opName
          pageTitle

theorem diverges_genOperation
    {schemaDoc : Option Str}
    {opName pageTitle : Str}
    (hCircles : OperationCircles formats spec opName) :
    Diverges fun fuel =>
      genOperation formats spec schemaDoc fuel opName
        pageTitle := by
  rcases hCircles with
    ⟨op, head, entries, refs, hOp, hSome, hHead, hEntries,
      hRefs, hMeets⟩
  simp only [genOperation, operationPage, hOp, hSome, hHead,
    hEntries, hRefs, Outcome.of, Outcome.done_bind, if_true]
  exact (diverges_messagesOf hMeets).bind

theorem ends_messageLines
    (hExample :
      ∀ schema depth maxDepth,
        Ends fun fuel =>
          generateExample spec fuel schema depth maxDepth)
    (schemaDoc : Option Str)
    (lines : List Value)
    (message : Value) :
    Ends fun fuel =>
      messageLines formats spec schemaDoc fuel lines
        message := by
  unfold messageLines
  apply Ends.of_bind
  intro head _
  apply Ends.of_bind
  intro payload _
  apply Ends.bind
  · unfold payloadLines
    split
    · apply Ends.of_bind
      intro table _
      apply Ends.of_bind
      intro resolved _
      apply Ends.bind (hExample payload 0 3)
      intro value _
      apply Ends.of_bind
      intro shown _
      exact Python.ends_done _
    · exact Python.ends_done []
  · intro shown _
    exact Python.ends_done _

theorem ends_genOperation
    (hExample :
      ∀ schema depth maxDepth,
        Ends fun fuel =>
          generateExample spec fuel schema depth maxDepth)
    (schemaDoc : Option Str)
    {opName : Str}
    (pageTitle : Str)
    (hNone : ¬ OperationCircles formats spec opName) :
    Ends fun fuel =>
      genOperation formats spec schemaDoc fuel opName
        pageTitle := by
  unfold genOperation
  apply Ends.of_bind
  intro op hOp
  split
  · next hSome =>
      unfold operationPage
      apply Ends.of_bind
      intro head hHead
      apply Ends.of_bind
      intro entries hEntries
      apply Ends.of_bind
      intro refs hRefs
      apply Ends.bind
      · apply ends_messagesOf
        intro hMeets
        exact hNone
          ⟨op, head, entries, refs, hOp, hSome, hHead,
            hEntries, hRefs, hMeets⟩
      · intro messages _
        apply Ends.bind
        · apply Python.ends_foldlM
          intro message _ lines
          exact ends_messageLines hExample schemaDoc lines
            message
        · intro lines _
          apply Ends.of_bind
          intro page _
          exact Python.ends_of _
  · exact Python.ends_done _

/-
  Pages end just when no first alternative comes back to a
  schema and no messages lead into a circle.
-/
theorem pagesEnd_iff
    (formats : Formats)
    (spec : Value) :
    PagesEnd formats spec ↔
      (∀ schema,
        ¬ TransGen (FirstAlternative spec) schema schema) ∧
        ∀ opName, ¬ OperationCircles formats spec opName := by
  constructor
  · rintro ⟨hExamples, hPages⟩
    constructor
    · intro schema hCycle
      have hNever :
          Diverges fun fuel =>
            generateExample spec fuel schema 0 0 :=
        ⟨0, fun fuel _ =>
          unfinished_generateExample hCycle (le_refl 0) fuel⟩
      exact hNever.not_ends (hExamples schema 0 0)
    · intro opName hCircles
      exact (diverges_genOperation hCircles).not_ends
        (hPages none opName [])
  · rintro ⟨hAcyclic, hNone⟩
    have hExamples := ends_generateExample hAcyclic
    constructor
    · exact hExamples
    · intro schemaDoc opName pageTitle
      exact ends_genOperation hExamples schemaDoc pageTitle
        (hNone opName)

/- A message that is a reference to itself. -/
def loopRef : Value :=
  .dict
    [("$ref".toList, .str "#/components/messages/Loop".toList)]

def loopOperation : Value :=
  .dict [("messages".toList, .list [loopRef])]

def circularSpec : Value :=
  .dict
    [("operations".toList,
      .dict [("loop".toList, loopOperation)]),
    ("components".toList,
      .dict
        [("messages".toList,
          .dict [("Loop".toList, loopRef)])])]

/- Formats, which no line before the messages needs. -/
def plainFormats : Formats where
  repr := fun _ => []
  lower := fun s => s.map Char.toLower
  dumps := fun _ => .ok []

theorem nextRef_loopRef : NextRef circularSpec loopRef loopRef :=
  ⟨_, rfl, rfl⟩

theorem not_pagesEnd_circularSpec :
    ¬ PagesEnd plainFormats circularSpec := by
  intro hEnds
  have hCircling : Circling circularSpec loopRef :=
    ⟨loopRef, ReflTransGen.refl,
      TransGen.single nextRef_loopRef⟩
  have hEntry : EntryCircles circularSpec loopRef := by
    rcases nextRef_loopRef with ⟨ref, hOnly, hResolve⟩
    cases hOnly
    exact ⟨_, loopRef, rfl, hResolve, hCircling⟩
  have hCircles :
      OperationCircles plainFormats circularSpec
        "loop".toList :=
    ⟨loopOperation, _, .list [loopRef], [loopRef], rfl, rfl,
      rfl, rfl, rfl, .here hEntry⟩
  exact (diverges_genOperation hCircles).not_ends
    (hEnds.2 none "loop".toList [])

end AsyncapiDocs
