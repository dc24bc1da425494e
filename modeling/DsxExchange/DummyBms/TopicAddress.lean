import DsxExchange.Go.Maps
import DsxExchange.Go.Strings

/-
  Matching a topic with the address of a channel.

  An address is a row of parts between slashes. A part in
  braces is a parameter: it takes one level of the topic, and
  all that remains when it is the last part.

  Key definitions include:
    * `DummyBms.matchTopicAddress`
    * `DummyBms.LevelsMatch`, `DummyBms.AddressMatch`
    * `DummyBms.ParamValue`
    * `DummyBms.FitsByPosition`, `DummyBms.fillAddress`

  Key theorems include:
    * `DummyBms.matchTopicAddress_eq_some_iff`
    * `DummyBms.mem_paramsOf_iff`
    * `DummyBms.matchTopicAddress_fits`
-/

------------------------------------------------------------
-- Matching
------------------------------------------------------------

namespace DummyBms

/- The values of the parameters, by name. -/
abbrev Params := Go.Map String

def containsMQTTWildcard (value : String) : Bool :=
  value.toList.any (fun c => c = '+' || c = '#')

def isAddressParam (value : String) : Bool :=
  Go.hasPrefix value "\x7b" && Go.hasSuffix value "\x7d"

/- The name between the braces of a parameter. -/
def paramName (addressPart : String) : String :=
  Go.trimSuffix (Go.trimPrefix addressPart "\x7b") "\x7d"

/-
  The loop over the parts of an address, next to the levels
  of the topic that are not matched yet.
-/
def matchParts :
    List String → List String → Params → Option Params
| [], [], params => some params
| [], _ :: _, _ => none
| _ :: _, [], _ => none
| part :: parts, level :: levels, params =>
    if isAddressParam part then
      if parts = [] then
        let value := Go.join (level :: levels) '/'
        if value ≠ "" then
          some (params.insert (paramName part) value)
        else
          none
      else
        matchParts parts levels
          (params.insert (paramName part) level)
    else if part ≠ level then
      none
    else
      matchParts parts levels params

def matchTopicAddress
    (address topic : String) : Option Params :=
  let topicParts := Go.split topic '/'
  if topicParts.any
      (fun part => part = "" || containsMQTTWildcard part) then
    none
  else
    matchParts (Go.split address '/') topicParts ∅

end DummyBms

------------------------------------------------------------
-- What A Match Is
------------------------------------------------------------

namespace DummyBms

/- The part of an address for a parameter. -/
def param (name : String) : String :=
  "\x7b" ++ name ++ "\x7d"

/-
  The levels of a topic fit the parts of an address, with the
  values that its parameters take from left to right.
-/
inductive LevelsMatch :
    List String → List String → List (String × String) →
      Prop where
  | done : LevelsMatch [] [] []
  | literal {part parts levels values}
      (hLiteral : ∀ name, part ≠ param name)
      (hRest : LevelsMatch parts levels values) :
      LevelsMatch (part :: parts) (part :: levels) values
  | level {name level parts levels values}
      (hMore : parts ≠ [])
      (hRest : LevelsMatch parts levels values) :
      LevelsMatch (param name :: parts) (level :: levels)
        ((name, level) :: values)
  | path {name level levels} :
      LevelsMatch [param name] (level :: levels)
        [(name, Go.join (level :: levels) '/')]

/- A level of a topic that messages are published on. -/
structure ConcreteLevel (level : String) : Prop where
  nonempty : level ≠ ""
  noPlus : '+' ∉ level.toList
  noHash : '#' ∉ level.toList

/- The topic fits the address, with the given values. -/
structure AddressMatch
    (address topic : String)
    (values : List (String × String)) : Prop where
  concrete :
    ∀ level ∈ Go.split topic '/', ConcreteLevel level
  levels :
    LevelsMatch (Go.split address '/') (Go.split topic '/')
      values

/-
  The value of a parameter: the last one, for a name that
  stands in the address more than once.
-/
def ParamValue
    (values : List (String × String))
    (name value : String) : Prop :=
  ∃ before after,
    values = before ++ (name, value) :: after ∧
      name ∉ after.map Prod.fst

end DummyBms

------------------------------------------------------------
-- Matching Finds The Matches
------------------------------------------------------------

namespace DummyBms

theorem concreteLevel_iff
    {level : String} :
    ConcreteLevel level ↔
      (level = "" || containsMQTTWildcard level) = false := by
  constructor
  · intro hLevel
    have hWild : containsMQTTWildcard level = false := by
      rw [containsMQTTWildcard, List.any_eq_false]
      intro c hChar hMeta
      rcases Bool.or_eq_true_iff.mp hMeta with hPlus | hHash
      · exact hLevel.noPlus
          (of_decide_eq_true hPlus ▸ hChar)
      · exact hLevel.noHash
          (of_decide_eq_true hHash ▸ hChar)
    simp [hLevel.nonempty, hWild]
  · intro hLevel
    rw [Bool.or_eq_false_iff] at hLevel
    rcases hLevel with ⟨hSome, hWild⟩
    rw [containsMQTTWildcard, List.any_eq_false] at hWild
    exact
      { nonempty := of_decide_eq_false hSome
        noPlus := fun hMem => hWild _ hMem rfl
        noHash := fun hMem => hWild _ hMem rfl }

@[simp] theorem toList_param (name : String) :
    (param name).toList = '{' :: (name.toList ++ ['}']) := by
  simp [param]

@[simp] theorem isAddressParam_param (name : String) :
    isAddressParam (param name) = true := by
  have hSuffix :
      ['}'] <:+ '{' :: (name.toList ++ ['}']) :=
    ⟨'{' :: name.toList, by simp⟩
  simp [isAddressParam, Go.hasPrefix, Go.hasSuffix,
    List.isPrefixOf, List.isSuffixOf_iff_suffix, hSuffix]

@[simp] theorem paramName_param (name : String) :
    paramName (param name) = name := by
  have hTrim :
      Go.trimPrefix (param name) "\x7b" = name ++ "\x7d" := by
    have hForm : param name = "\x7b" ++ (name ++ "\x7d") := by
      apply String.toList_inj.mp
      simp
    rw [hForm, Go.trimPrefix_append]
  have hSuffix : Go.hasSuffix (name ++ "\x7d") "\x7d" = true := by
    rw [Go.hasSuffix, List.isSuffixOf_iff_suffix,
      String.toList_append]
    exact List.suffix_append _ _
  rw [paramName, hTrim, Go.trimSuffix, if_pos hSuffix]
  apply String.toList_inj.mp
  simp

/- The parts in braces are those of parameters. -/
theorem isAddressParam_iff
    {part : String} :
    isAddressParam part = true ↔ ∃ name, part = param name := by
  constructor
  · intro hParam
    rw [isAddressParam, Bool.and_eq_true, Go.hasPrefix,
      Go.hasSuffix, List.isPrefixOf_iff_prefix,
      List.isSuffixOf_iff_suffix] at hParam
    rcases hParam with ⟨⟨rest, hFront⟩, hBack⟩
    have hFront' : '{' :: rest = part.toList := hFront
    rcases hBack with ⟨front, hBack⟩
    have hBack' : front ++ ['}'] = part.toList := hBack
    -- The two braces are not the same character.
    cases front with
    | nil =>
        rw [← hFront'] at hBack'
        simp at hBack'
    | cons c name =>
        refine ⟨String.ofList name, ?_⟩
        apply String.toList_inj.mp
        rw [← hFront'] at hBack'
        rw [toList_param, String.toList_ofList, ← hFront',
          ← hBack']
        have hHead : c = '{' := by
          simpa using (List.cons.inj hBack').1
        rw [hHead]
        rfl
  · rintro ⟨name, rfl⟩
    exact isAddressParam_param name

/- The parameters that a row of values fills in. -/
def paramsOf
    (params : Params)
    (values : List (String × String)) : Params :=
  values.foldl
    (fun params value => params.insert value.1 value.2) params

/-
  The loop finds exactly the matches. The levels have to be
  non-empty for what remains to be so.
-/
theorem matchParts_eq_some_iff
    {parts levels : List String}
    {params result : Params}
    (hLevels : ∀ level ∈ levels, level ≠ "") :
    matchParts parts levels params = some result ↔
      ∃ values,
        LevelsMatch parts levels values ∧
          result = paramsOf params values := by
  induction parts generalizing levels params with
  | nil =>
      cases levels with
      | nil =>
          simp only [matchParts, Option.some.injEq]
          constructor
          · intro hEq
            exact ⟨[], .done, hEq.symm⟩
          · rintro ⟨values, hMatch, hResult⟩
            cases hMatch
            exact hResult.symm
      | cons level levels =>
          simp only [matchParts, reduceCtorEq, false_iff]
          rintro ⟨values, hMatch, _⟩
          cases hMatch
  | cons part parts ih =>
      cases levels with
      | nil =>
          simp only [matchParts, reduceCtorEq, false_iff]
          rintro ⟨values, hMatch, _⟩
          cases hMatch
      | cons level levels =>
          have hRest : ∀ level ∈ levels, level ≠ "" :=
            fun other hMem =>
              hLevels other (List.mem_cons_of_mem _ hMem)
          by_cases hParam : isAddressParam part = true
          · rcases isAddressParam_iff.mp hParam with
              ⟨name, rfl⟩
            have hNotLiteral :
                ¬ ∀ other, param name ≠ param other :=
              fun h => h name rfl
            by_cases hLast : parts = []
            · subst hLast
              have hValue :
                  Go.join (level :: levels) '/' ≠ "" :=
                Go.join_ne_empty
                  (hLevels _ List.mem_cons_self) levels '/'
              rw [matchParts, if_pos hParam, if_pos rfl,
                if_pos hValue, paramName_param,
                Option.some.injEq]
              constructor
              · intro hEq
                exact ⟨_, .path, hEq.symm⟩
              · rintro ⟨values, hMatch, hResult⟩
                generalize hPart : param name = part at *
                cases hMatch with
                | literal hLiteral _ =>
                    exact absurd hPart.symm (hLiteral name)
                | level hMore _ => exact absurd rfl hMore
                | path =>
                    have hName := congrArg paramName hPart
                    simp only [paramName_param] at hName
                    subst hName
                    exact hResult.symm
            · rw [matchParts, if_pos hParam, if_neg hLast,
                ih hRest, paramName_param]
              constructor
              · rintro ⟨values, hMatch, hResult⟩
                exact ⟨_, .level hLast hMatch, hResult⟩
              · rintro ⟨values, hMatch, hResult⟩
                generalize hPart : param name = part at *
                cases hMatch with
                | literal hLiteral _ =>
                    exact absurd hPart.symm (hLiteral name)
                | level _ hMatch =>
                    have hName := congrArg paramName hPart
                    simp only [paramName_param] at hName
                    subst hName
                    exact ⟨_, hMatch, hResult⟩
                | path => exact absurd rfl hLast
          · have hLiteral : ∀ name, part ≠ param name := by
              rintro name rfl
              exact hParam (isAddressParam_param name)
            rw [matchParts, if_neg hParam]
            by_cases hLevel : part = level
            · subst hLevel
              rw [if_neg (not_not.mpr rfl), ih hRest]
              constructor
              · rintro ⟨values, hMatch, hResult⟩
                exact ⟨_, .literal hLiteral hMatch, hResult⟩
              · rintro ⟨values, hMatch, hResult⟩
                cases hMatch with
                | literal _ hMatch =>
                    exact ⟨_, hMatch, hResult⟩
                | level hMore _ =>
                    exact absurd rfl (hLiteral _)
                | path => exact absurd rfl (hLiteral _)
            · rw [if_pos hLevel]
              simp only [reduceCtorEq, false_iff]
              rintro ⟨values, hMatch, _⟩
              cases hMatch with
              | literal => exact hLevel rfl
              | level hMore _ => exact hLiteral _ rfl
              | path => exact hLiteral _ rfl

theorem matchTopicAddress_eq_some_iff
    {address topic : String}
    {params : Params} :
    matchTopicAddress address topic = some params ↔
      ∃ values,
        AddressMatch address topic values ∧
          params = paramsOf ∅ values := by
  unfold matchTopicAddress
  by_cases hAny :
      (Go.split topic '/').any
        (fun part =>
          part = "" || containsMQTTWildcard part) = true
  · rw [if_pos hAny]
    simp only [reduceCtorEq, false_iff]
    rintro ⟨values, hMatch, _⟩
    rcases List.any_eq_true.mp hAny with ⟨level, hMem, hBad⟩
    rw [concreteLevel_iff.mp (hMatch.concrete level hMem)]
      at hBad
    cases hBad
  · rw [if_neg hAny]
    have hConcrete :
        ∀ level ∈ Go.split topic '/', ConcreteLevel level := by
      intro level hMem
      rw [concreteLevel_iff]
      rw [Bool.not_eq_true, List.any_eq_false] at hAny
      exact Bool.eq_false_iff.mpr (hAny level hMem)
    rw [matchParts_eq_some_iff
      (fun level hMem => (hConcrete level hMem).nonempty)]
    constructor
    · rintro ⟨values, hLevels, hParams⟩
      exact ⟨values, ⟨hConcrete, hLevels⟩, hParams⟩
    · rintro ⟨values, hMatch, hParams⟩
      exact ⟨values, hMatch.levels, hParams⟩

end DummyBms

------------------------------------------------------------
-- Values Of Parameters
------------------------------------------------------------

namespace DummyBms

theorem paramsOf_concat
    (params : Params)
    (values : List (String × String))
    (name value : String) :
    paramsOf params (values ++ [(name, value)]) =
      (paramsOf params values).insert name value := by
  simp [paramsOf]

/- The filled-in parameters are the last values. -/
theorem mem_paramsOf_iff
    {values : List (String × String)}
    {name value : String} :
    ⟨name, value⟩ ∈ (paramsOf ∅ values).entries ↔
      ParamValue values name value := by
  rw [← AList.mem_lookup_iff]
  induction values using List.reverseRecOn with
  | nil =>
      simp [paramsOf, ParamValue]
  | append_singleton values last ih =>
      rcases last with ⟨other, found⟩
      rw [paramsOf_concat]
      by_cases hName : name = other
      · subst hName
        rw [AList.lookup_insert]
        constructor
        · intro hFound
          cases hFound
          exact ⟨values, [], rfl, by simp⟩
        · rintro ⟨before, after, hEq, hLast⟩
          rcases List.eq_nil_or_concat after with
            rfl | ⟨front, final, rfl⟩
          · have hSame := List.append_inj_right' hEq rfl
            cases hSame
            rfl
          · rw [List.concat_eq_append, ← List.cons_append,
              ← List.append_assoc] at hEq
            have hSame := List.append_inj_right' hEq rfl
            cases hSame
            exact absurd (by simp) hLast
      · rw [AList.lookup_insert_ne hName, ih]
        constructor
        · rintro ⟨before, after, rfl, hLast⟩
          refine ⟨before, after ++ [(other, found)],
            by simp, ?_⟩
          simpa [hName] using hLast
        · rintro ⟨before, after, hEq, hLast⟩
          rcases List.eq_nil_or_concat after with
            rfl | ⟨front, final, rfl⟩
          · have hSame := List.append_inj_right' hEq rfl
            cases hSame
            exact absurd rfl hName
          · rw [List.concat_eq_append, ← List.cons_append,
              ← List.append_assoc] at hEq
            refine ⟨before, front,
              List.append_inj_left' hEq rfl, ?_⟩
            intro hMem
            apply hLast
            rw [List.concat_eq_append, List.map_append]
            exact List.mem_append_left _ hMem

/- With distinct names every value is the last of its name. -/
theorem paramValue_iff_mem
    {values : List (String × String)}
    {name value : String}
    (hDistinct : (values.map Prod.fst).Nodup) :
    ParamValue values name value ↔
      (name, value) ∈ values := by
  constructor
  · rintro ⟨before, after, rfl, _⟩
    exact List.mem_append_right _ List.mem_cons_self
  · intro hMem
    rcases List.append_of_mem hMem with ⟨before, after, rfl⟩
    refine ⟨before, after, rfl, ?_⟩
    rw [List.map_append, List.map_cons] at hDistinct
    exact (List.nodup_cons.mp
      (List.nodup_append.mp hDistinct).2.1).1

example :
    (matchTopicAddress "a/{x}/{y}" "a/b/c/d").map
        (fun params =>
          (params.lookup "x", params.lookup "y")) =
      some (some "b", some "c/d") := by
  decide

end DummyBms

------------------------------------------------------------
-- Matching By Position
------------------------------------------------------------

namespace DummyBms

/-
  The parts and the levels agree at the literal parts, and in
  number, where a parameter at the end takes what remains.
-/
structure FitsByPosition (parts levels : List String) :
    Prop where
  literals :
    ∀ (i : ℕ) (part : String),
      parts[i]? = some part →
        (∀ name, part ≠ param name) →
          levels[i]? = some part
  lengths :
    levels.length = parts.length ∨
      ((∃ name, parts.getLast? = some (param name)) ∧
        parts.length ≤ levels.length)

/- What fits from the second part on, after a literal. -/
theorem FitsByPosition.tail
    {part level : String}
    {parts levels : List String}
    (hMore : parts ≠ [])
    (hFits : FitsByPosition (part :: parts) (level :: levels)) :
    FitsByPosition parts levels := by
  constructor
  · intro i other hPart hLiteral
    exact hFits.literals (i + 1) other hPart hLiteral
  · rcases hFits.lengths with hEqual | ⟨hLast, hAtLeast⟩
    · apply Or.inl
      simpa using hEqual
    · apply Or.inr
      constructor
      · rcases hLast with ⟨name, hName⟩
        rw [List.getLast?_cons_of_ne_nil hMore] at hName
        exact ⟨name, hName⟩
      · simpa using hAtLeast

theorem LevelsMatch.nil_iff
    {parts levels : List String}
    {values : List (String × String)}
    (hMatch : LevelsMatch parts levels values) :
    parts = [] ↔ levels = [] := by
  cases hMatch with
  | done => simp
  | literal hLiteral hRest => simp
  | level hMore hRest => simp
  | path => simp

theorem fitsByPosition_of_levelsMatch
    {parts levels : List String}
    {values : List (String × String)}
    (hMatch : LevelsMatch parts levels values) :
    FitsByPosition parts levels := by
  induction hMatch with
  | done => exact ⟨by simp, Or.inl rfl⟩
  | @literal part parts levels values hLiteral hRest ih =>
      constructor
      · intro i other hPart hOther
        cases i with
        | zero => simpa using hPart
        | succ i => exact ih.literals i other hPart hOther
      · rcases ih.lengths with hEqual | ⟨hLast, hAtLeast⟩
        · apply Or.inl
          simp [hEqual]
        · apply Or.inr
          refine ⟨?_, by simpa using hAtLeast⟩
          rcases hLast with ⟨name, hName⟩
          refine ⟨name, ?_⟩
          rw [List.getLast?_cons, hName]
          rfl
  | @level name level parts levels values hMore hRest ih =>
      constructor
      · intro i other hPart hOther
        cases i with
        | zero =>
            have hSame : param name = other := by
              simpa using hPart
            exact absurd hSame.symm (hOther name)
        | succ i => exact ih.literals i other hPart hOther
      · rcases ih.lengths with hEqual | ⟨hLast, hAtLeast⟩
        · apply Or.inl
          simp [hEqual]
        · apply Or.inr
          refine ⟨?_, by simpa using hAtLeast⟩
          rcases hLast with ⟨last, hName⟩
          refine ⟨last, ?_⟩
          rw [List.getLast?_cons, hName]
          rfl
  | @path name level levels =>
      constructor
      · intro i other hPart hOther
        cases i with
        | zero =>
            have hSame : param name = other := by
              simpa using hPart
            exact absurd hSame.symm (hOther name)
        | succ i => simp at hPart
      · apply Or.inr
        exact ⟨⟨name, rfl⟩, by simp⟩

/- Every such fit is a match, with some values. -/
theorem exists_levelsMatch_of_fits
    {parts levels : List String}
    (hSome : parts ≠ [])
    (hFits : FitsByPosition parts levels) :
    ∃ values, LevelsMatch parts levels values := by
  induction parts generalizing levels with
  | nil => exact absurd rfl hSome
  | cons part parts ih =>
      cases levels with
      | nil =>
          rcases hFits.lengths with hEqual | ⟨_, hAtLeast⟩
          · simp at hEqual
          · simp at hAtLeast
      | cons level levels =>
          by_cases hParam : isAddressParam part = true
          · rcases isAddressParam_iff.mp hParam with
              ⟨name, hName⟩
            rw [hName] at hFits ⊢
            by_cases hLast : parts = []
            · rw [hLast]
              exact ⟨_, .path⟩
            · rcases ih hLast (hFits.tail hLast) with
                ⟨values, hMatch⟩
              exact ⟨_, .level hLast hMatch⟩
          · have hLiteral : ∀ name, part ≠ param name := by
              intro name hName
              apply hParam
              rw [hName]
              exact isAddressParam_param name
            have hLevel : level = part := by
              have hFirst := hFits.literals 0 part rfl hLiteral
              simpa using hFirst
            rw [hLevel]
            by_cases hLast : parts = []
            · have hLevels : levels = [] := by
                rcases hFits.lengths with
                  hEqual | ⟨⟨name, hName⟩, _⟩
                · simpa [hLast] using hEqual
                · rw [hLast] at hName
                  have hPart : part = param name := by
                    simpa using hName
                  exact absurd hPart (hLiteral name)
              rw [hLast, hLevels]
              exact ⟨_, .literal hLiteral .done⟩
            · rcases ih hLast (hFits.tail hLast) with
                ⟨values, hMatch⟩
              exact ⟨_, .literal hLiteral hMatch⟩

end DummyBms

------------------------------------------------------------
-- Filling In An Address
------------------------------------------------------------

namespace DummyBms

/- The names of the parameters of an address, in order. -/
def addressParamNames (address : String) : List String :=
  ((Go.split address '/').filter isAddressParam).map paramName

/- A part with the value of its parameter, if it is one. -/
def fillPart (params : Params) (part : String) : String :=
  if isAddressParam part then
    (params.lookup (paramName part)).getD ""
  else
    part

def fillAddress (address : String) (params : Params) : String :=
  Go.join ((Go.split address '/').map (fillPart params)) '/'

theorem fillPart_param
    {params : Params}
    {name value : String}
    (hValue : params.lookup name = some value) :
    fillPart params (param name) = value := by
  unfold fillPart
  rw [if_pos (isAddressParam_param name), paramName_param,
    hValue]
  rfl

theorem fillPart_literal
    {params : Params}
    {part : String}
    (hLiteral : ∀ name, part ≠ param name) :
    fillPart params part = part := by
  unfold fillPart
  rw [if_neg]
  intro hParam
  rcases isAddressParam_iff.mp hParam with ⟨name, hName⟩
  exact hLiteral name hName

/- The values come under the names of the parameters. -/
theorem LevelsMatch.names
    {parts levels : List String}
    {values : List (String × String)}
    (hMatch : LevelsMatch parts levels values) :
    values.map Prod.fst =
      (parts.filter isAddressParam).map paramName := by
  induction hMatch with
  | done => rfl
  | @literal part parts levels values hLiteral hRest ih =>
      have hNoParam : ¬ isAddressParam part = true := by
        intro hParam
        rcases isAddressParam_iff.mp hParam with ⟨name, hName⟩
        exact hLiteral name hName
      rw [List.filter_cons_of_neg hNoParam]
      exact ih
  | level hMore hRest ih => simp [ih]
  | path => simp

theorem join_cons_congr
    {first : String}
    {left right : List String}
    (hJoin : Go.join left '/' = Go.join right '/')
    (hNil : left = [] ↔ right = []) :
    Go.join (first :: left) '/' =
      Go.join (first :: right) '/' := by
  cases left with
  | nil => rw [hNil.mp rfl]
  | cons second left =>
      cases right with
      | nil => simp at hNil
      | cons other right =>
          have hChars := congrArg String.toList hJoin
          apply String.toList_inj.mp
          simpa [Go.join, List.intercalate] using hChars

/- Filled in, the parts make the topic again. -/
theorem LevelsMatch.join_fill
    {parts levels : List String}
    {values : List (String × String)}
    (hMatch : LevelsMatch parts levels values)
    {params : Params}
    (hParams :
      ∀ entry ∈ values,
        params.lookup entry.1 = some entry.2) :
    Go.join (parts.map (fillPart params)) '/' =
      Go.join levels '/' := by
  induction hMatch with
  | done => rfl
  | @literal part parts levels values hLiteral hRest ih =>
      rw [List.map_cons, fillPart_literal hLiteral]
      apply join_cons_congr (ih hParams)
      rw [List.map_eq_nil_iff]
      exact hRest.nil_iff
  | @level name level parts levels values hMore hRest ih =>
      have hValue := hParams (name, level) List.mem_cons_self
      have hOthers :
          ∀ entry ∈ values,
            params.lookup entry.1 = some entry.2 := by
        intro entry hMem
        exact hParams entry (List.mem_cons_of_mem _ hMem)
      rw [List.map_cons, fillPart_param hValue]
      apply join_cons_congr (ih hOthers)
      rw [List.map_eq_nil_iff]
      exact hRest.nil_iff
  | path =>
      have hValue := hParams _ List.mem_cons_self
      rw [List.map_singleton, fillPart_param hValue,
        Go.join_singleton]

/-
  With distinct names of its parameters, an address is matched
  by exactly the concrete topics that agree with its literal
  parts and in length, and the parameters that are returned
  make the topic of the address.
-/
theorem matchTopicAddress_fits
    (address topic : String)
    (hDistinct : (addressParamNames address).Nodup) :
    ((matchTopicAddress address topic).isSome ↔
        (∀ level ∈ Go.split topic '/', ConcreteLevel level) ∧
          FitsByPosition (Go.split address '/')
            (Go.split topic '/')) ∧
      ∀ params,
        matchTopicAddress address topic = some params →
          fillAddress address params = topic := by
  constructor
  · rw [Option.isSome_iff_exists]
    constructor
    · intro hSome
      rcases hSome with ⟨params, hMatch⟩
      rcases matchTopicAddress_eq_some_iff.mp hMatch with
        ⟨values, hAddress, _⟩
      exact ⟨hAddress.concrete,
        fitsByPosition_of_levelsMatch hAddress.levels⟩
    · intro hFits
      rcases exists_levelsMatch_of_fits
          (Go.split_ne_nil address '/') hFits.2 with
        ⟨values, hLevels⟩
      exact ⟨_, matchTopicAddress_eq_some_iff.mpr
        ⟨values, ⟨hFits.1, hLevels⟩, rfl⟩⟩
  · intro params hMatch
    rcases matchTopicAddress_eq_some_iff.mp hMatch with
      ⟨values, hAddress, hParams⟩
    have hNames : (values.map Prod.fst).Nodup := by
      rw [hAddress.levels.names]
      exact hDistinct
    have hLookup :
        ∀ entry ∈ values,
          params.lookup entry.1 = some entry.2 := by
      intro entry hMem
      rw [hParams]
      apply AList.mem_lookup_iff.mpr
      exact mem_paramsOf_iff.mpr
        ((paramValue_iff_mem hNames).mpr hMem)
    unfold fillAddress
    rw [hAddress.levels.join_fill hLookup, Go.join_split]

theorem matchTopicAddress_fits_path :
    ∃ params,
      matchTopicAddress "a/{x}/{y}" "a/b/c/d" = some params ∧
        fillAddress "a/{x}/{y}" params = "a/b/c/d" := by
  have hBoth :=
    matchTopicAddress_fits "a/{x}/{y}" "a/b/c/d" (by decide)
  have hSome :
      (matchTopicAddress "a/{x}/{y}" "a/b/c/d").isSome := by
    decide
  rcases Option.isSome_iff_exists.mp hSome with
    ⟨params, hMatch⟩
  exact ⟨params, hMatch, hBoth.2 params hMatch⟩

end DummyBms
