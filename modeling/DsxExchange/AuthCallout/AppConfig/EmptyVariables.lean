import DsxExchange.AuthCallout.AppConfig.Manager

/-
  Variables that are set to the empty text, against the same
  variables left unset.

  Key definitions include:
    * `AuthCallout.AppConfig.unset`
    * `AuthCallout.AppConfig.Empties`
    * `AuthCallout.AppConfig.givenPaths`
    * `AuthCallout.AppConfig.NoAlias`
    * `AuthCallout.AppConfig.Erases`
    * `AuthCallout.AppConfig.SameConfiguration`

  Key theorems include:
    * `AuthCallout.AppConfig.getenv_unset`
    * `AuthCallout.AppConfig.lookup_envValues_unset`
    * `AuthCallout.AppConfig.report_envProvider_of_near`
    * `AuthCallout.AppConfig.kind_applyAliases_of_noAlias`
    * `AuthCallout.AppConfig.sameConfiguration_iff`
-/

------------------------------------------------------------
-- Two Environments
------------------------------------------------------------

namespace AuthCallout

namespace AppConfig

open NestedMaps

/- The variables that the service reads. -/
def IsServiceVariable (name : String) : Prop :=
  Go.hasPrefix name envPrefix = true ∨
    ∃ call ∈ aliases, name ∈ call.names

/- The environment without some of its variables. -/
def unset
    (names : List String)
    (environ : Environ) : Environ :=
  environ.filter fun entry => entry.1 ∉ names

/- Those variables are the service's, and set but empty. -/
def Empties
    (names : List String)
    (environ : Environ) : Prop :=
  ∀ entry ∈ environ,
    entry.1 ∈ names →
      IsServiceVariable entry.1 ∧ entry.2 = ""

/- The last variable that gives the key has this name. -/
def LastGives
    (libs : Libraries)
    (environ : Environ)
    (name key : String) : Prop :=
  ∃ before value after,
    environ = before ++ (name, value) :: after ∧
      Gives libs name key ∧
      ∀ entry ∈ after, ¬ Gives libs entry.1 key

/- The paths of the keys that the variables give. -/
def givenPaths
    (libs : Libraries)
    (environ : Environ) : Set (List String) :=
  fun p =>
    ∃ entry ∈ environ, ∃ key,
      Gives libs entry.1 key ∧ path key = p

/- No alias at, above or below the path has a value. -/
def NoAlias
    (environ : Environ)
    (calls : List Alias)
    (p : List String) : Prop :=
  ∀ call ∈ calls,
    Near (path call.key) p →
      envValue environ call.names = ""

/-
  Decoding the two configurations finds the same at every
  path, or neither is loaded. The decoder stands for the
  fields that the configuration is unmarshalled into.
-/
def SameConfiguration
    {δ : Type}
    (decode : List String → Kind Value → δ) :
    Except String Conf → Except String Conf → Prop
| .ok left, .ok right =>
    ∀ p, decode p (left.kind p) = decode p (right.kind p)
| .error _, .error _ => True
| _, _ => False

/-
  An empty variable is the last to give a key, at, above or
  below a path for which no alias has a value: the path then
  holds the empty text if it is the key's, a map if the key is
  below it, and nothing if the key is above it. What the other
  layers give the path is decoded otherwise.
-/
structure Erases
    {δ : Type}
    (libs : Libraries)
    (decode : List String → Kind Value → δ)
    (order : Go.Iteration)
    (names : List String)
    (environ : Environ)
    (files : Conf)
    (name key : String)
    (p : List String) : Prop where
  settled : Settled (givenPaths libs environ) p
  emptied : name ∈ names
  last : LastGives libs environ name key
  near : Near (path key) p
  noAlias : NoAlias environ aliases p
  visible :
    decode p (placed (path key) (.text "") p) ≠
      decode p
        ((files.merge
          (envProvider libs order (unset names environ))).kind
          p)

/-
  A path near which a value can end that does not belong
  there, or two keys clash, has no alias with a value. What
  the loops make of it in their orders is decoded differently.
-/
structure Disagrees
    {δ : Type}
    (libs : Libraries)
    (decode : List String → Kind Value → δ)
    (order order' : Go.Iteration)
    (names : List String)
    (environ : Environ)
    (files : Conf)
    (p : List String) : Prop where
  unsettled : ¬ Settled (givenPaths libs environ) p
  noAlias : NoAlias environ aliases p
  visible :
    decode p
        ((files.merge (envProvider libs order environ)).kind
          p) ≠
      decode p
        ((files.merge
          (envProvider libs order' (unset names environ))).kind
          p)

end AppConfig

end AuthCallout

------------------------------------------------------------
-- Reading The Environments
------------------------------------------------------------

namespace AuthCallout

namespace AppConfig

variable {libs : Libraries}
variable {names : List String}
variable {environ : Environ}

theorem empties_of_prefix
    (hPrefix :
      ∀ name ∈ names, Go.hasPrefix name envPrefix = true)
    (hEmpty :
      ∀ entry ∈ environ, entry.1 ∈ names → entry.2 = "") :
    Empties names environ := by
  intro entry hMem hName
  exact ⟨Or.inl (hPrefix entry.1 hName),
    hEmpty entry hMem hName⟩

theorem Empties.unset
    (hEmpties : Empties names environ) :
    Empties names (unset names environ) := by
  intro entry hMem
  exact hEmpties entry (List.mem_of_mem_filter hMem)

theorem getenv_of_mem
    (hEmpties : Empties names environ)
    {name : String}
    (hName : name ∈ names) :
    getenv environ name = "" := by
  unfold getenv
  cases hLookup : environ.lookup name with
  | none => rfl
  | some value =>
      rcases List.lookup_eq_some_iff.mp hLookup with
        ⟨before, after, hSplit, _⟩
      have hMem : (name, value) ∈ environ := by
        rw [hSplit]
        simp
      exact (hEmpties (name, value) hMem hName).2

theorem lookup_unset
    {name : String}
    (hName : name ∉ names) :
    (AppConfig.unset names environ).lookup name =
      environ.lookup name := by
  unfold AppConfig.unset
  induction environ with
  | nil => rfl
  | cons entry rest ih =>
      rcases entry with ⟨other, value⟩
      by_cases hOther : other ∈ names
      · have hBeq : (name == other) = false := by
          apply beq_false_of_ne
          intro hSame
          rw [hSame] at hName
          exact hName hOther
        rw [List.filter_cons_of_neg (by simpa using hOther),
          ih, List.lookup_cons, hBeq]
      · rw [List.filter_cons_of_pos (by simpa using hOther),
          List.lookup_cons, List.lookup_cons, ih]

/- A variable that is unset is read as an empty one. -/
theorem getenv_unset
    (hEmpties : Empties names environ) :
    getenv (unset names environ) = getenv environ := by
  funext name
  by_cases hName : name ∈ names
  · rw [getenv_of_mem hEmpties hName,
      getenv_of_mem hEmpties.unset hName]
  · unfold getenv
    rw [lookup_unset hName]

/- So the aliases are the same in both environments. -/
theorem envValue_unset
    (hEmpties : Empties names environ)
    (aliasNames : List String) :
    envValue (unset names environ) aliasNames =
      envValue environ aliasNames := by
  unfold envValue
  rw [getenv_unset hEmpties]

theorem applyAliases_unset
    (hEmpties : Empties names environ)
    (conf : Conf) :
    applyAliases (unset names environ) conf =
      applyAliases environ conf := by
  have hApply :
      Alias.apply (unset names environ) =
        Alias.apply environ := by
    funext conf call
    unfold Alias.apply
    rw [envValue_unset hEmpties]
  unfold applyAliases
  rw [hApply]

/- And so are the files that are loaded. -/
theorem loadFiles_unset
    (hEmpties : Empties names environ)
    (m : Manager) :
    m.loadFiles libs (unset names environ) =
      m.loadFiles libs environ := by
  unfold Manager.loadFiles
  rw [getenv_unset hEmpties]

end AppConfig

end AuthCallout

------------------------------------------------------------
-- The Environment's Layer
------------------------------------------------------------

namespace AuthCallout

namespace AppConfig

variable {libs : Libraries}
variable {names : List String}
variable {environ : Environ}
variable {key : String}

/- One more variable replaces the value of its key. -/
theorem lookup_envValues_concat
    (environ : Environ)
    (name value : String) :
    (envValues libs (environ ++ [(name, value)])).lookup key =
      if Gives libs name key then
        some value
      else
        (envValues libs environ).lookup key := by
  unfold envValues
  rw [List.foldl_append, List.foldl_cons, List.foldl_nil]
  dsimp only
  by_cases hGives : Gives libs name key
  · rw [if_pos hGives, hGives.2.1, if_pos hGives,
      AList.lookup_insert]
  · rw [if_neg hGives]
    split
    · rename_i hOther
      apply AList.lookup_insert_ne
      intro hSame
      rw [← hSame] at hOther
      exact hGives hOther
    · rfl

/- The last of the variables that give the key decides. -/
theorem lookup_envValues_of_lastGives
    {name value : String}
    {before after : Environ}
    (hGives : Gives libs name key)
    (hAfter : ∀ entry ∈ after, ¬ Gives libs entry.1 key) :
    (envValues libs (before ++ (name, value) :: after)).lookup
        key =
      some value := by
  induction after using List.reverseRecOn with
  | nil => rw [lookup_envValues_concat, if_pos hGives]
  | append_singleton after entry ih =>
      have hEntry : ¬ Gives libs entry.1 key :=
        hAfter entry (by simp)
      rw [← List.cons_append, ← List.append_assoc,
        lookup_envValues_concat, if_neg hEntry]
      apply ih
      intro other hMem
      exact hAfter other (List.mem_append_left _ hMem)

/- A key with a value is given by a variable. -/
theorem exists_gives_of_lookup
    {value : String}
    (hLookup :
      (envValues libs environ).lookup key = some value) :
    ∃ entry ∈ environ, Gives libs entry.1 key := by
  induction environ using List.reverseRecOn with
  | nil => cases hLookup
  | append_singleton environ entry ih =>
      rcases entry with ⟨name, text⟩
      rw [lookup_envValues_concat] at hLookup
      split at hLookup
      · rename_i hGives
        exact ⟨(name, text), by simp, hGives⟩
      · rcases ih hLookup with ⟨other, hMem, hGives⟩
        exact ⟨other, List.mem_append_left _ hMem, hGives⟩

/-
  Without the emptied variables a key has the same value,
  unless one of them is the last to give it.
-/
theorem lookup_envValues_unset
    (names : List String)
    (environ : Environ)
    (key : String) :
    (envValues libs (unset names environ)).lookup key =
        (envValues libs environ).lookup key ∨
      ∃ name ∈ names, LastGives libs environ name key := by
  unfold unset
  induction environ using List.reverseRecOn with
  | nil => exact Or.inl rfl
  | append_singleton environ entry ih =>
      rcases entry with ⟨name, value⟩
      rw [List.filter_append]
      by_cases hGives : Gives libs name key
      · by_cases hName : name ∈ names
        · refine Or.inr ⟨name, hName, environ, value, [], rfl,
            hGives, by simp⟩
        · rw [List.filter_cons_of_pos (by simpa using hName),
            List.filter_nil, lookup_envValues_concat,
            lookup_envValues_concat, if_pos hGives,
            if_pos hGives]
          exact Or.inl rfl
      · have hSame :
            (envValues libs
                (environ.filter (fun entry => entry.1 ∉ names) ++
                  [(name, value)].filter
                    (fun entry => entry.1 ∉ names))).lookup
                key =
              (envValues libs
                (environ.filter
                  fun entry => entry.1 ∉ names)).lookup
                key := by
          by_cases hName : name ∈ names
          · rw [List.filter_cons_of_neg (by simpa using hName),
              List.filter_nil, List.append_nil]
          · rw [List.filter_cons_of_pos (by simpa using hName),
              List.filter_nil, lookup_envValues_concat,
              if_neg hGives]
        rw [hSame, lookup_envValues_concat, if_neg hGives]
        rcases ih with hEq | ⟨other, hOther, hLast⟩
        · exact Or.inl hEq
        · rcases hLast with
            ⟨before, last, after, hSplit, hLastGives, hAfter⟩
          refine Or.inr ⟨other, hOther, before, last,
            after ++ [(name, value)], ?_, hLastGives, ?_⟩
          · rw [hSplit]
            simp
          · intro entry hMem
            rcases List.mem_append.mp hMem with hOld | hNew
            · exact hAfter entry hOld
            · rw [List.mem_singleton.mp hNew]
              exact hGives

end AppConfig

end AuthCallout

------------------------------------------------------------
-- Settled Paths
------------------------------------------------------------

namespace AuthCallout

namespace AppConfig

open NestedMaps

variable {libs : Libraries}
variable {order : Go.Iteration}
variable {names : List String}
variable {environ : Environ}

/- The entries that are unflattened. -/
def envEntries
    (libs : Libraries)
    (order : Go.Iteration)
    (environ : Environ) : List (List String × Value) :=
  (order.entries (envValues libs environ)).map
    fun entry => (path entry.1, .text entry.2)

theorem mem_envEntries
    {e : List String × Value} :
    e ∈ envEntries libs order environ ↔
      ∃ key value,
        (envValues libs environ).lookup key = some value ∧
          e = (path key, .text value) := by
  unfold envEntries
  rw [List.mem_map]
  constructor
  · rintro ⟨⟨key, value⟩, hMem, rfl⟩
    rw [Go.Iteration.mem_entries] at hMem
    exact ⟨key, value, AList.mem_lookup_iff.mpr hMem, rfl⟩
  · rintro ⟨key, value, hLookup, rfl⟩
    refine ⟨⟨key, value⟩, ?_, rfl⟩
    rw [Go.Iteration.mem_entries]
    exact AList.mem_lookup_iff.mp hLookup

/- A key is its parts with dots between them. -/
theorem path_injective : Function.Injective path := by
  intro key key' hPath
  rw [← Go.join_split key '.', ← Go.join_split key' '.']
  exact congrArg (Go.join · '.') hPath

theorem assigns_envEntries :
    Assigns (givenPaths libs environ)
      (envEntries libs order environ) where
  mem := by
    intro e hMem
    rcases mem_envEntries.mp hMem with
      ⟨key, value, hLookup, rfl⟩
    rcases exists_gives_of_lookup hLookup with
      ⟨entry, hEntry, hGives⟩
    exact ⟨entry, hEntry, key, hGives, rfl⟩
  nonempty := by
    intro e hMem
    rcases mem_envEntries.mp hMem with ⟨key, value, _, rfl⟩
    exact Go.split_ne_nil key '.'
  single := by
    intro e hMem e' hMem' hPath
    rcases mem_envEntries.mp hMem with
      ⟨key, value, hLookup, rfl⟩
    rcases mem_envEntries.mp hMem' with
      ⟨key', value', hLookup', rfl⟩
    have hKey := path_injective hPath
    subst hKey
    rw [hLookup] at hLookup'
    cases hLookup'
    rfl

/- Fewer variables give fewer paths. -/
theorem assigns_envEntries_unset :
    Assigns (givenPaths libs environ)
      (envEntries libs order (unset names environ)) where
  mem := by
    intro e hMem
    rcases assigns_envEntries.mem e hMem with
      ⟨entry, hEntry, hGiven⟩
    exact ⟨entry, List.mem_of_mem_filter hEntry, hGiven⟩
  nonempty := assigns_envEntries.nonempty
  single := assigns_envEntries.single

variable {paths : Set (List String)}
variable {p : List String}

/- A key that has a value decides a settled path near it. -/
theorem report_envProvider_of_near
    (hEntries : Assigns paths (envEntries libs order environ))
    (hSettled : Settled paths p)
    {key value : String}
    (hLookup :
      (envValues libs environ).lookup key = some value)
    (hNear : Near (path key) p) :
    (envProvider libs order environ).tree.report p =
      some (placed (path key) (.text value) p) := by
  have hMem :
      (path key, Value.text value) ∈
        envEntries libs order environ :=
    mem_envEntries.mpr ⟨key, value, hLookup, rfl⟩
  exact (report_unflatten hEntries hSettled).1 _ hMem hNear

/- Where no key is near the layer says nothing. -/
theorem report_envProvider_of_far
    (hEntries : Assigns paths (envEntries libs order environ))
    (hSettled : Settled paths p)
    (hFar :
      ∀ key value,
        (envValues libs environ).lookup key = some value →
          ¬ Near (path key) p)
    (hPath : p ≠ []) :
    (envProvider libs order environ).tree.report p = none := by
  apply (report_unflatten hEntries hSettled).2 _ hPath
  intro e hMem
  rcases mem_envEntries.mp hMem with ⟨key, value, hLookup, rfl⟩
  exact hFar key value hLookup

/-
  A layer without the emptied variables is the same at a
  settled path that none of the keys they are the last to
  give is near.
-/
theorem report_envProvider_unset
    {order' : Go.Iteration}
    (hSettled : Settled (givenPaths libs environ) p)
    (hNone :
      ∀ name ∈ names, ∀ key,
        LastGives libs environ name key →
          ¬ Near (path key) p) :
    (envProvider libs order environ).tree.report p =
      (envProvider libs order' (unset names environ)).tree.report
        p := by
  have hSame :
      ∀ key, Near (path key) p →
        (envValues libs (unset names environ)).lookup key =
          (envValues libs environ).lookup key := by
    intro key hNear
    rcases lookup_envValues_unset names environ key with
      hEq | ⟨name, hName, hLast⟩
    · exact hEq
    · exact absurd hNear (hNone name hName key hLast)
  by_cases hSome :
      ∃ key value,
        (envValues libs environ).lookup key = some value ∧
          Near (path key) p
  · rcases hSome with ⟨key, value, hLookup, hNear⟩
    rw [report_envProvider_of_near assigns_envEntries hSettled
      hLookup hNear]
    rw [← hSame key hNear] at hLookup
    rw [report_envProvider_of_near assigns_envEntries_unset
      hSettled hLookup hNear]
  · by_cases hPath : p = []
    · subst hPath
      rfl
    · rw [report_envProvider_of_far assigns_envEntries hSettled
          _ hPath,
        report_envProvider_of_far assigns_envEntries_unset
          hSettled _ hPath]
      · intro key value hLookup hNear
        rw [hSame key hNear] at hLookup
        exact hSome ⟨key, value, hLookup, hNear⟩
      · intro key value hLookup hNear
        exact hSome ⟨key, value, hLookup, hNear⟩

end AppConfig

end AuthCallout

------------------------------------------------------------
-- The Aliases
------------------------------------------------------------

namespace AuthCallout

namespace AppConfig

open NestedMaps

variable {environ : Environ}
variable {p : List String}

/- One alias decides the paths near its key. -/
theorem Alias.kind_apply
    (call : Alias)
    (conf : Conf)
    (p : List String) :
    (call.apply environ conf).kind p =
      if envValue environ call.names ≠ "" ∧
          Near (path call.key) p then
        placed (path call.key)
          (call.setter.value (envValue environ call.names)) p
      else
        conf.kind p := by
  unfold Alias.apply
  dsimp only
  by_cases hValue : envValue environ call.names = ""
  · rw [if_pos hValue, if_neg fun h => h.1 hValue]
  · have hPath : path call.key ≠ [] :=
      Go.split_ne_nil call.key '.'
    rw [if_neg hValue, Map.kind_set conf hPath]
    by_cases hNear : Near (path call.key) p
    · rw [if_pos hNear, if_pos ⟨hValue, hNear⟩]
    · rw [if_neg hNear, if_neg fun h => hNear h.2]

/- Without such an alias a path keeps what it holds. -/
theorem kind_foldl_apply_of_noAlias
    {calls : List Alias}
    (hNone : NoAlias environ calls p)
    (conf : Conf) :
    (calls.foldl (fun conf call => call.apply environ conf)
        conf).kind p =
      conf.kind p := by
  induction calls generalizing conf with
  | nil => rfl
  | cons call rest ih =>
      have hRest : NoAlias environ rest p := by
        intro other hMem
        exact hNone other (List.mem_cons_of_mem _ hMem)
      have hQuiet := hNone call List.mem_cons_self
      rw [List.foldl_cons, ih hRest, Alias.kind_apply, if_neg]
      intro hCall
      exact hCall.1 (hQuiet hCall.2)

/- With one the layers below do not matter. -/
theorem kind_foldl_apply_of_alias
    {calls : List Alias}
    (hSome : ¬ NoAlias environ calls p)
    (conf other : Conf) :
    (calls.foldl (fun conf call => call.apply environ conf)
        conf).kind p =
      (calls.foldl (fun conf call => call.apply environ conf)
        other).kind p := by
  induction calls using List.reverseRecOn with
  | nil =>
      have hNone : NoAlias environ [] p := by
        intro call hMem
        cases hMem
      exact absurd hNone hSome
  | append_singleton calls call ih =>
      rw [List.foldl_append, List.foldl_append,
        List.foldl_cons, List.foldl_cons, List.foldl_nil,
        List.foldl_nil, Alias.kind_apply, Alias.kind_apply]
      by_cases hCall :
          envValue environ call.names ≠ "" ∧
            Near (path call.key) p
      · rw [if_pos hCall, if_pos hCall]
      · rw [if_neg hCall, if_neg hCall]
        apply ih
        intro hNone
        apply hSome
        intro other hMem hNear
        rcases List.mem_append.mp hMem with hOld | hNew
        · exact hNone other hOld hNear
        · rw [List.mem_singleton.mp hNew] at hNear ⊢
          by_contra hValue
          exact hCall ⟨hValue, hNear⟩

theorem kind_applyAliases_of_noAlias
    (hNone : NoAlias environ aliases p)
    (conf : Conf) :
    (applyAliases environ conf).kind p = conf.kind p :=
  kind_foldl_apply_of_noAlias hNone conf

theorem kind_applyAliases_of_alias
    (hSome : ¬ NoAlias environ aliases p)
    (conf other : Conf) :
    (applyAliases environ conf).kind p =
      (applyAliases environ other).kind p :=
  kind_foldl_apply_of_alias hSome conf other

end AppConfig

end AuthCallout

------------------------------------------------------------
-- Empty Against Unset
------------------------------------------------------------

namespace AuthCallout

namespace AppConfig

open NestedMaps

variable {δ : Type}
variable {libs : Libraries}
variable {decode : List String → Kind Value → δ}
variable {order order' : Go.Iteration}
variable {names : List String}
variable {environ : Environ}

variable {files : Conf}
variable {p : List String}

/- An emptied variable hides the layers below near its key. -/
theorem kind_merge_of_lastGives
    (hEmpties : Empties names environ)
    (hSettled : Settled (givenPaths libs environ) p)
    {name key : String}
    (hName : name ∈ names)
    (hLast : LastGives libs environ name key)
    (hNear : Near (path key) p) :
    (files.merge (envProvider libs order environ)).kind p =
      placed (path key) (.text "") p := by
  rcases hLast with
    ⟨before, value, after, hSplit, hGives, hAfter⟩
  have hMem : (name, value) ∈ environ := by
    rw [hSplit]
    simp
  have hEmpty : value = "" :=
    (hEmpties (name, value) hMem hName).2
  have hLookup :
      (envValues libs environ).lookup key = some "" := by
    rw [hSplit, lookup_envValues_of_lastGives hGives hAfter,
      hEmpty]
  rw [Map.kind_merge,
    report_envProvider_of_near assigns_envEntries hSettled
      hLookup hNear]
  rfl

/- Without an alias the layers decide a settled path. -/
theorem eq_iff_not_erases
    (hEmpties : Empties names environ)
    (hSettled : Settled (givenPaths libs environ) p)
    (hAlias : NoAlias environ aliases p) :
    decode p
          ((files.merge
            (envProvider libs order environ)).kind p) =
        decode p
          ((files.merge
            (envProvider libs order'
              (unset names environ))).kind p) ↔
      ∀ name key,
        ¬ Erases libs decode order' names environ files name
          key p := by
  by_cases hLast :
      ∃ name ∈ names, ∃ key,
        LastGives libs environ name key ∧ Near (path key) p
  · rcases hLast with ⟨name, hName, key, hLast, hNear⟩
    constructor
    · intro hSame name' key' hErases
      apply hErases.visible
      rw [← hSame, kind_merge_of_lastGives hEmpties hSettled
        hErases.emptied hErases.last hErases.near]
    · intro hNone
      by_contra hDiffer
      rw [kind_merge_of_lastGives hEmpties hSettled hName hLast
        hNear] at hDiffer
      exact hNone name key
        ⟨hSettled, hName, hLast, hNear, hAlias, hDiffer⟩
  · have hFar :
        ∀ name ∈ names, ∀ key,
          LastGives libs environ name key →
            ¬ Near (path key) p := by
      intro name hName key hGives hNear
      exact hLast ⟨name, hName, key, hGives, hNear⟩
    rw [Map.kind_merge, Map.kind_merge,
      report_envProvider_unset hSettled hFar]
    refine iff_of_true rfl ?_
    intro name key hErases
    exact hFar name hErases.emptied key hErases.last
      hErases.near

/- A path is decoded alike unless it is erased or disagreed on. -/
theorem decode_eq_iff
    (hEmpties : Empties names environ) :
    decode p
          ((applyAliases environ
            (files.merge
              (envProvider libs order environ))).kind p) =
        decode p
          ((applyAliases environ
            (files.merge
              (envProvider libs order'
                (unset names environ)))).kind p) ↔
      (∀ name key,
          ¬ Erases libs decode order' names environ files name
            key p) ∧
        ¬ Disagrees libs decode order order' names environ
          files p := by
  by_cases hAlias : NoAlias environ aliases p
  · rw [kind_applyAliases_of_noAlias hAlias,
      kind_applyAliases_of_noAlias hAlias]
    by_cases hSettled : Settled (givenPaths libs environ) p
    · rw [eq_iff_not_erases hEmpties hSettled hAlias]
      refine (and_iff_left ?_).symm
      intro hDisagrees
      exact hDisagrees.unsettled hSettled
    · constructor
      · intro hSame
        refine ⟨?_, fun hDisagrees => hDisagrees.visible hSame⟩
        intro name key hErases
        exact hSettled hErases.settled
      · rintro ⟨_, hNone⟩
        by_contra hDiffer
        exact hNone ⟨hSettled, hAlias, hDiffer⟩
  · rw [kind_applyAliases_of_alias hAlias _
      (files.merge
        (envProvider libs order' (unset names environ)))]
    refine iff_of_true rfl ⟨?_, ?_⟩
    · intro name key hErases
      exact hAlias hErases.noAlias
    · intro hDisagrees
      exact hAlias hDisagrees.noAlias

/- The same is decoded at each path of the two. -/
theorem SameConfiguration.map_eq
    {left right : Except String Conf}
    (hSame : SameConfiguration decode left right)
    (p : List String) :
    (left.map fun conf => decode p (conf.kind p)).toOption =
      (right.map fun conf =>
        decode p (conf.kind p)).toOption := by
  cases left with
  | error err =>
      cases right with
      | error err' => rfl
      | ok conf => exact hSame.elim
  | ok conf =>
      cases right with
      | error err => exact hSame.elim
      | ok conf' => exact congrArg some (hSame p)

/- A default configuration, and no other files. -/
def jwksLibraries : Libraries where
  stat := fun _ =>
    .error (.notExist "no such file or directory")
  readFile := fun _ => .error "no such file or directory"
  parseYAML := fun content =>
    if content = "jwks: \x7burl: https://idp/jwks\x7d" then
      .ok (.unflatten
        [(["jwks", "url"], .text "https://idp/jwks")])
    else
      .error "yaml: unknown content"
  toLower := fun s => String.ofList (s.toList.map Char.toLower)

def jwksManager : Manager where
  defaultYAML := "jwks: \x7burl: https://idp/jwks\x7d"
  configPath := ""

/- The alias gives the key that the empty variable empties. -/
def aliasedEnviron : Environ :=
  [("NATS_URL", "nats://bus:4222"),
    ("AUTH_CALLOUT_NATS_URL", "")]

theorem empties_aliasedEnviron :
    Empties ["AUTH_CALLOUT_NATS_URL"] aliasedEnviron :=
  empties_of_prefix (by decide +kernel) (by decide +kernel)

theorem key_of_gives_aliasedEnviron
    {entry : String × String}
    {key : String}
    (hMem : entry ∈ aliasedEnviron)
    (hGives : Gives jwksLibraries entry.1 key) :
    key = "nats.url" := by
  unfold aliasedEnviron at hMem
  simp only [List.mem_cons, List.not_mem_nil, or_false] at hMem
  rcases hMem with rfl | rfl
  · have hPrefix :
        Go.hasPrefix "NATS_URL" envPrefix ≠ true := by
      decide +kernel
    exact absurd hGives.1 hPrefix
  · have hKey :
        envKey jwksLibraries "AUTH_CALLOUT_NATS_URL" =
          "nats.url" := by
      decide +kernel
    rw [← hGives.2.1, hKey]

theorem independent_aliasedEnviron :
    Independent (givenPaths jwksLibraries aliasedEnviron) := by
  rintro _ ⟨left, hLeft, key, hGives, rfl⟩ _
    ⟨right, hRight, key', hGives', rfl⟩ _
  rw [key_of_gives_aliasedEnviron hLeft hGives,
    key_of_gives_aliasedEnviron hRight hGives']

def emptyJWKSEnviron : Environ :=
  [("HOME", "/root"), ("AUTH_CALLOUT_JWKS_URL", "")]

theorem empties_emptyJWKSEnviron :
    Empties ["AUTH_CALLOUT_JWKS_URL"] emptyJWKSEnviron :=
  empties_of_prefix (by decide +kernel) (by decide +kernel)

/- An empty variable for a section erases all that it holds. -/
example :
    (jwksManager.load jwksLibraries .listed
        [("AUTH_CALLOUT_JWKS", "")]).map
      (fun conf =>
        (conf.kind ["jwks"], conf.kind ["jwks", "url"])) =
      .ok (.value (.text ""), .absent) := by
  decide +kernel

end AppConfig

end AuthCallout
