import DsxExchange.AuthCallout.Config.Permissions

/-
  What one execution of `load` does, and on which contents
  of the permissions file it keeps its promises.

  Key definitions include:
    * `AuthCallout.Config.Loadable`
    * `AuthCallout.Config.lookupsOf`
    * `AuthCallout.Config.loadStores`
    * `AuthCallout.Config.Describes`
    * `AuthCallout.Config.LoadsAtomically`
    * `AuthCallout.Config.SafeContent`

  Key theorems include:
    * `AuthCallout.Config.buildLookups_ok_iff`
    * `AuthCallout.Config.load_run_cases`
    * `AuthCallout.Config.load_eq_readThenStore`
    * `AuthCallout.Config.loadsAtomically_iff_safeContent`
-/

------------------------------------------------------------
-- Building The Tables
------------------------------------------------------------

namespace AuthCallout

namespace Config

/- A constraint of the entry is left after expansion. -/
def OAuth2Entry.HasIdentity
    (env : Go.Env)
    (entry : OAuth2Entry) : Prop :=
  Go.expandEnv env entry.subject ≠ "" ∨
    Go.expandEnv env entry.azp ≠ ""

/- The configurations that `load` accepts. -/
structure Loadable
    (env : Go.Env)
    (config : PermissionsConfig) : Prop where
  oauth2 : Go.NoNil config.oauth2
  identity :
    ∀ name entry,
      ⟨name, some entry⟩ ∈ config.oauth2.entries →
        entry.HasIdentity env
  mtls : Go.NoNil config.mtls
  nkey : Go.NoNil config.nkey

/- The tables of a configuration in an iteration order. -/
def lookupsOf
    (env : Go.Env)
    (order : Go.Iteration)
    (config : PermissionsConfig) : Lookups where
  noauth := config.noauth.map (noauthItem env)
  oauth2 :=
    some (Go.collected (oauth2Item env) order config.oauth2)
  mtls :=
    some (Go.collected (mtlsItem env) order config.mtls)
  nkey :=
    some (Go.collected (nkeyItem env) order config.nkey)

variable {env : Go.Env} {order : Go.Iteration}
variable {config : PermissionsConfig} {tables : Lookups}

/- An entry without a constraint is an error. -/
theorem oauth2Item_error
    (name : String)
    {entry : OAuth2Entry}
    (hIdentity : ¬ entry.HasIdentity env) :
    ∃ message,
      oauth2Item env name entry =
        .error (.error message) := by
  simp only [OAuth2Entry.HasIdentity, not_or,
    not_not] at hIdentity
  exact ⟨_, if_pos hIdentity⟩

/- Any other is stored under its expanded constraints. -/
theorem oauth2Item_ok
    (name : String)
    {entry : OAuth2Entry}
    (hIdentity : entry.HasIdentity env) :
    ∃ scope,
      scope ≠ "" ∧
        oauth2Item env name entry =
          .ok
            (⟨Go.expandEnv env entry.subject,
                Go.expandEnv env entry.azp⟩,
              ⟨⟨name, Go.expandEnv env entry.account,
                  entry.permissions⟩,
                scope⟩) := by
  have hSome :
      ¬ (Go.expandEnv env entry.subject = "" ∧
        Go.expandEnv env entry.azp = "") := by
    rw [not_and_or]
    exact hIdentity
  refine ⟨_, ?_, if_neg hSome⟩
  split
  · decide
  · assumption

theorem oauth2Item_ok_iff
    {name : String}
    {entry : OAuth2Entry} :
    (∃ assignment,
        oauth2Item env name entry = .ok assignment) ↔
      entry.HasIdentity env := by
  constructor
  · rintro ⟨assignment, hItem⟩
    by_contra hIdentity
    rcases oauth2Item_error name hIdentity with
      ⟨message, hError⟩
    rw [hItem] at hError
    cases hError
  · intro hIdentity
    rcases oauth2Item_ok name hIdentity with
      ⟨scope, _, hItem⟩
    exact ⟨_, hItem⟩

theorem rangeInto_oauth2_ok_iff
    {table : Go.Table OAuth2Key OAuth2UserProfile} :
    Go.rangeInto (oauth2Item env)
        (order.entries config.oauth2) Go.Table.empty =
        .ok table ↔
      (Go.NoNil config.oauth2 ∧
        ∀ name entry,
          ⟨name, some entry⟩ ∈ config.oauth2.entries →
            entry.HasIdentity env) ∧
        table =
          Go.collected (oauth2Item env) order
            config.oauth2 := by
  rw [Go.rangeInto_map_ok_iff]
  simp only [oauth2Item_ok_iff]

theorem rangeInto_mtls_ok_iff
    {table : Go.Table String UserProfile} :
    Go.rangeInto (mtlsItem env)
        (order.entries config.mtls) Go.Table.empty =
        .ok table ↔
      Go.NoNil config.mtls ∧
        table =
          Go.collected (mtlsItem env) order
            config.mtls := by
  rw [Go.rangeInto_map_ok_iff]
  simp [mtlsItem, keyedItem]

theorem rangeInto_nkey_ok_iff
    {table : Go.Table String UserProfile} :
    Go.rangeInto (nkeyItem env)
        (order.entries config.nkey) Go.Table.empty =
        .ok table ↔
      Go.NoNil config.nkey ∧
        table =
          Go.collected (nkeyItem env) order
            config.nkey := by
  rw [Go.rangeInto_map_ok_iff]
  simp [nkeyItem, keyedItem]

/- The loops end exactly on the loadable configurations. -/
theorem buildLookups_ok_iff :
    buildLookups env order config = .ok tables ↔
      Loadable env config ∧
        tables = lookupsOf env order config := by
  constructor
  · intro hBuild
    unfold buildLookups at hBuild
    split at hBuild
    · cases hBuild
    rename_i oauth2 hOAuth2
    split at hBuild
    · cases hBuild
    rename_i mtls hMTLS
    split at hBuild
    · cases hBuild
    rename_i nkey hNKey
    cases hBuild
    rcases rangeInto_oauth2_ok_iff.mp hOAuth2 with
      ⟨⟨hNoNil, hIdentity⟩, rfl⟩
    rcases rangeInto_mtls_ok_iff.mp hMTLS with
      ⟨hMTLSNoNil, rfl⟩
    rcases rangeInto_nkey_ok_iff.mp hNKey with
      ⟨hNKeyNoNil, rfl⟩
    exact
      ⟨⟨hNoNil, hIdentity, hMTLSNoNil, hNKeyNoNil⟩, rfl⟩
  · rintro ⟨hLoadable, rfl⟩
    unfold buildLookups
    rw [rangeInto_oauth2_ok_iff.mpr
      ⟨⟨hLoadable.oauth2, hLoadable.identity⟩, rfl⟩]
    dsimp only
    rw [rangeInto_mtls_ok_iff.mpr ⟨hLoadable.mtls, rfl⟩]
    dsimp only
    rw [rangeInto_nkey_ok_iff.mpr ⟨hLoadable.nkey, rfl⟩]
    rfl

end Config

end AuthCallout

------------------------------------------------------------
-- Running The Load
------------------------------------------------------------

namespace AuthCallout

namespace Config

open Cells

variable (env : Go.Env) (order : Go.Iteration)

/- Publishing alone installs all four tables. -/
theorem publish_run
    (tables : Lookups)
    (w : World) :
    (publish tables).run w =
      (.ok (), world (w .configFile) tables) := by
  simp only [publish, Program.run]
  congr 1
  funext cell
  cases cell <;> rfl

/- A loadable configuration is installed. -/
theorem load_run_of_loadable
    {config : PermissionsConfig}
    (hLoadable : Loadable env config)
    {w : World}
    (hContent : w .configFile = .decoded config) :
    (load env order).run w =
      (.ok (),
        world (.decoded config)
          (lookupsOf env order config)) := by
  have hBuild :
      buildLookups env order config =
        .ok (lookupsOf env order config) :=
    buildLookups_ok_iff.mpr ⟨hLoadable, rfl⟩
  simp only [load, Program.run, hContent, loadContent,
    hBuild, publish_run]

/-
  One execution ends before the loops, or with a fault of
  the loops, or it installs the tables of the content it has
  read. Only the last one stores.
-/
theorem load_run_cases (w : World) :
    (∃ message,
        (load env order).run w =
          (.error (.error message), w)) ∨
      (∃ config fault,
        w .configFile = .decoded config ∧
          buildLookups env order config = .error fault ∧
            (load env order).run w = (.error fault, w)) ∨
      ∃ config,
        w .configFile = .decoded config ∧
          Loadable env config ∧
            (load env order).run w =
              (.ok (),
                world (.decoded config)
                  (lookupsOf env order config)) := by
  have hRun :
      (load env order).run w =
        (loadContent env order (w .configFile)).run w :=
    rfl
  rw [hRun]
  cases hContent : w .configFile with
  | unreadable err => exact Or.inl ⟨_, rfl⟩
  | malformed err => exact Or.inl ⟨_, rfl⟩
  | decoded config =>
      right
      cases hBuild : buildLookups env order config with
      | error fault =>
          refine Or.inl ⟨config, fault, rfl, hBuild, ?_⟩
          simp only [loadContent, hBuild, Program.run]
      | ok tables =>
          rcases buildLookups_ok_iff.mp hBuild with
            ⟨hLoadable, rfl⟩
          have hLoaded :=
            load_run_of_loadable env order hLoadable hContent
          rw [hRun, hContent] at hLoaded
          exact Or.inr ⟨config, rfl, hLoadable, hLoaded⟩

end Config

end AuthCallout

------------------------------------------------------------
-- The Load As A Row Of Stores
------------------------------------------------------------

namespace AuthCallout

namespace Config

open Cells

/- The pointers in the order in which `load` stores them. -/
def storeOrder : List Cell :=
  [.noauthProfile, .oauth2Lookup, .mtlsLookup, .nkeyLookup]

/- The stores of a set of tables. -/
def storesOf (tables : Lookups) :
    List (Item Cell.Contents) :=
  [⟨.noauthProfile, tables.noauth⟩,
    ⟨.oauth2Lookup, tables.oauth2⟩,
    ⟨.mtlsLookup, tables.mtls⟩,
    ⟨.nkeyLookup, tables.nkey⟩]

theorem storesOf_fst (tables : Lookups) :
    (storesOf tables).map Sigma.fst = storeOrder :=
  rfl

/- The stores put each pointer of the new world in place. -/
theorem mem_storesOf
    (content : FileContent)
    (tables : Lookups)
    {cell : Cell}
    (hPointer : cell ≠ .configFile) :
    ⟨cell, world content tables cell⟩ ∈ storesOf tables := by
  cases cell with
  | configFile => exact absurd rfl hPointer
  | noauthProfile => simp [storesOf, world]
  | oauth2Lookup => simp [storesOf, world]
  | mtlsLookup => simp [storesOf, world]
  | nkeyLookup => simp [storesOf, world]

/- Each pointer is stored once. -/
theorem nodup_storesOf (tables : Lookups) :
    ((storesOf tables).map Sigma.fst).Nodup := by
  rw [storesOf_fst]
  decide

/- The stores of an execution that reads a content. -/
def loadStores
    (env : Go.Env)
    (order : Go.Iteration) :
    FileContent → List (Item Cell.Contents)
| .unreadable _ => []
| .malformed _ => []
| .decoded config =>
    match buildLookups env order config with
    | .error _ => []
    | .ok tables => storesOf tables

/- What an execution that reads a content returns. -/
def loadResult
    (env : Go.Env)
    (order : Go.Iteration)
    (content : FileContent) : Except Go.Fault Unit :=
  ((loadContent env order content).run
    (world content .fresh)).1

variable (env : Go.Env) (order : Go.Iteration)

theorem loadContent_eq_storeAll (content : FileContent) :
    loadContent env order content =
      .storeAll (loadResult env order content)
        (loadStores env order content) := by
  cases content with
  | unreadable err => rfl
  | malformed err => rfl
  | decoded config =>
      cases hBuild : buildLookups env order config with
      | error fault =>
          simp only [loadResult, loadContent, loadStores,
            hBuild]
          rfl
      | ok tables =>
          simp only [loadResult, loadContent, loadStores,
            hBuild]
          rfl

theorem load_eq_readThenStore :
    load env order =
      .readThenStore .configFile (loadStores env order)
        (loadResult env order) := by
  unfold load Program.readThenStore
  congr 1
  funext content
  exact loadContent_eq_storeAll env order content

/- What an execution that reads a loadable file stores. -/
theorem loadStores_of_loadable
    {config : PermissionsConfig}
    (hLoadable : Loadable env config) :
    loadStores env order (.decoded config) =
      storesOf (lookupsOf env order config) := by
  have hBuild :
      buildLookups env order config =
        .ok (lookupsOf env order config) :=
    buildLookups_ok_iff.mpr ⟨hLoadable, rfl⟩
  simp only [loadStores, hBuild]

/-
  An execution stores nothing and returns a fault, or it
  stores all four pointers.
-/
theorem loadStores_cases (content : FileContent) :
    (loadStores env order content = [] ∧
        loadResult env order content ≠ .ok ()) ∨
      ∃ config,
        content = .decoded config ∧
          Loadable env config ∧
            loadStores env order content =
              storesOf (lookupsOf env order config) := by
  cases content with
  | unreadable err =>
      refine Or.inl ⟨rfl, ?_⟩
      intro hOk
      cases hOk
  | malformed err =>
      refine Or.inl ⟨rfl, ?_⟩
      intro hOk
      cases hOk
  | decoded config =>
      cases hBuild : buildLookups env order config with
      | error fault =>
          left
          simp only [loadStores, loadResult, loadContent,
            hBuild]
          refine ⟨trivial, ?_⟩
          intro hOk
          cases hOk
      | ok tables =>
          have hLoadable := (buildLookups_ok_iff.mp hBuild).1
          exact Or.inr ⟨config, rfl, hLoadable,
            loadStores_of_loadable env order hLoadable⟩

/- An execution that returns nil stores all four pointers. -/
theorem loadStores_of_ok
    {content : FileContent}
    (hOk : loadResult env order content = .ok ()) :
    ∃ config,
      content = .decoded config ∧
        loadStores env order content =
          storesOf (lookupsOf env order config) := by
  rcases loadStores_cases env order content with
    ⟨_, hFault⟩ | ⟨config, hContent, _, hStores⟩
  · exact absurd hOk hFault
  · exact ⟨config, hContent, hStores⟩

end Config

end AuthCallout

------------------------------------------------------------
-- Contents That Load Without A Panic
------------------------------------------------------------

namespace AuthCallout

namespace Config

open Cells

/- The four tables are those of a configuration. -/
structure Describes
    (env : Go.Env)
    (config : PermissionsConfig)
    (tables : Lookups) : Prop where
  noauth :
    tables.noauth = config.noauth.map (noauthItem env)
  oauth2 :
    ∃ table, tables.oauth2 = some table ∧
      table.Collects
        (Go.resolved (oauth2Item env) config.oauth2.entries)
  mtls :
    ∃ table, tables.mtls = some table ∧
      table.Collects
        (Go.resolved (mtlsItem env) config.mtls.entries)
  nkey :
    ∃ table, tables.nkey = some table ∧
      table.Collects
        (Go.resolved (nkeyItem env) config.nkey.entries)

/-
  One execution does not panic, and it leaves all tables as
  they were or installs all those of the content.
-/
def LoadsAtomically
    (env : Go.Env)
    (order : Go.Iteration)
    (w : World) : Prop :=
  match (load env order).run w with
  | (.error .panic, _) => False
  | (.error (.error _), after) => lookups after = lookups w
  | (.ok (), after) =>
      ∃ config,
        w .configFile = .decoded config ∧
          Describes env config (lookups after)

/-
  A null OAuth2 entry is never safe. A null mTLS or NKey
  entry is safe only when an OAuth2 entry without any
  constraint ends the load before it is reached.
-/
def SafeContent (env : Go.Env) : FileContent → Prop
| .unreadable _ => True
| .malformed _ => True
| .decoded config =>
    Go.NoNil config.oauth2 ∧
      ((∃ name entry,
          ⟨name, some entry⟩ ∈ config.oauth2.entries ∧
            ¬ entry.HasIdentity env) ∨
        Go.NoNil config.mtls ∧ Go.NoNil config.nkey)

variable {env : Go.Env} {order : Go.Iteration}
variable {config : PermissionsConfig}

theorem describes_lookupsOf
    (env : Go.Env)
    (order : Go.Iteration)
    (config : PermissionsConfig) :
    Describes env config (lookupsOf env order config) where
  noauth := rfl
  oauth2 := ⟨_, rfl, Go.collects_collected _ order _⟩
  mtls := ⟨_, rfl, Go.collects_collected _ order _⟩
  nkey := ⟨_, rfl, Go.collects_collected _ order _⟩

/- Safe contents never panic. -/
theorem buildLookups_ne_panic
    (hSafe : SafeContent env (.decoded config)) :
    buildLookups env order config ≠ .error .panic := by
  rcases hSafe with ⟨hNoNil, hRest⟩
  intro hBuild
  unfold buildLookups at hBuild
  split at hBuild
  · -- The OAuth2 loop fails with an error only.
    rename_i fault hLoop
    cases hBuild
    rcases Go.exists_item_error hNoNil hLoop with
      ⟨name, entry, hItem⟩
    by_cases hIdentity : entry.HasIdentity env
    · rcases oauth2Item_ok name hIdentity with
        ⟨scope, _, hOk⟩
      rw [hItem] at hOk
      cases hOk
    · rcases oauth2Item_error name hIdentity with
        ⟨message, hError⟩
      rw [hItem] at hError
      cases hError
  · rename_i table hLoop
    have hIdentity :=
      (rangeInto_oauth2_ok_iff.mp hLoop).1.2
    have hPointers :
        Go.NoNil config.mtls ∧ Go.NoNil config.nkey := by
      rcases hRest with ⟨name, entry, hMem, hNone⟩ | hBoth
      · exact absurd (hIdentity name entry hMem) hNone
      · exact hBoth
    rw [rangeInto_mtls_ok_iff.mpr ⟨hPointers.1, rfl⟩,
      rangeInto_nkey_ok_iff.mpr ⟨hPointers.2, rfl⟩] at hBuild
    cases hBuild

/- Every other content panics in some order. -/
theorem exists_buildLookups_panic
    (hUnsafe : ¬ SafeContent env (.decoded config)) :
    ∃ order,
      buildLookups env order config = .error .panic := by
  by_cases hOAuth2 : Go.NoNil config.oauth2
  · have hRest :
        (∀ name entry,
          ⟨name, some entry⟩ ∈ config.oauth2.entries →
            entry.HasIdentity env) ∧
          (Go.NoNil config.mtls →
            ¬ Go.NoNil config.nkey) := by
      simpa [SafeContent, hOAuth2] using hUnsafe
    rcases hRest with ⟨hIdentity, hPointers⟩
    by_cases hMTLS : Go.NoNil config.mtls
    · rcases Go.exists_rangeInto_panic
          (nkeyItem env) (hPointers hMTLS)
          Go.Table.empty with
        ⟨order, hPanic⟩
      refine ⟨order, ?_⟩
      rw [buildLookups,
        rangeInto_oauth2_ok_iff.mpr
          ⟨⟨hOAuth2, hIdentity⟩, rfl⟩]
      dsimp only
      rw [rangeInto_mtls_ok_iff.mpr ⟨hMTLS, rfl⟩]
      dsimp only
      rw [hPanic]
    · rcases Go.exists_rangeInto_panic
          (mtlsItem env) hMTLS
          Go.Table.empty with
        ⟨order, hPanic⟩
      refine ⟨order, ?_⟩
      rw [buildLookups,
        rangeInto_oauth2_ok_iff.mpr
          ⟨⟨hOAuth2, hIdentity⟩, rfl⟩]
      dsimp only
      rw [hPanic]
  · rcases Go.exists_rangeInto_panic
        (oauth2Item env) hOAuth2
        Go.Table.empty with
      ⟨order, hPanic⟩
    refine ⟨order, ?_⟩
    rw [buildLookups, hPanic]

/-
  Every execution on a content keeps the promise exactly
  when the content is safe.
-/
theorem loadsAtomically_iff_safeContent
    (env : Go.Env)
    (content : FileContent) :
    (∀ order (w : World), w .configFile = content →
        LoadsAtomically env order w) ↔
      SafeContent env content := by
  constructor
  · intro hLoads
    cases content with
    | unreadable err => trivial
    | malformed err => trivial
    | decoded config =>
        by_contra hUnsafe
        rcases exists_buildLookups_panic hUnsafe with
          ⟨order, hPanic⟩
        have hLoad := hLoads order
          (world (.decoded config) Lookups.fresh) rfl
        simp only [LoadsAtomically, load, Program.run,
          world_configFile, loadContent, hPanic] at hLoad
  · intro hSafe order w hContent
    rcases load_run_cases env order w with
      ⟨message, hRun⟩ |
        ⟨config, fault, hDecoded, hBuild, hRun⟩ |
          ⟨config, hDecoded, _, hRun⟩
    · simp only [LoadsAtomically, hRun]
    · rw [hContent] at hDecoded
      subst hDecoded
      cases fault with
      | error message =>
          simp only [LoadsAtomically, hRun]
      | panic =>
          exact absurd hBuild (buildLookups_ne_panic hSafe)
    · simp only [LoadsAtomically, hRun, lookups_world]
      exact ⟨config, hDecoded,
        describes_lookupsOf env order config⟩

/- A file whose only NKey entry is null. -/
def nullEntryConfig : PermissionsConfig where
  oauth2 := ∅
  mtls := ∅
  nkey := AList.singleton "sensor" none
  noauth := none

/- A manager that serves an anonymous profile only. -/
def anonymousLookups : Lookups where
  noauth := some ⟨noauthName, "guests", .zero⟩
  oauth2 := some Go.Table.empty
  mtls := some Go.Table.empty
  nkey := some Go.Table.empty

/- Reloading that file ends a running service. -/
theorem not_loadsAtomically_nullEntryConfig :
    ¬ LoadsAtomically (fun _ => none) .listed
      (world (.decoded nullEntryConfig)
        anonymousLookups) :=
  fun hLoads => hLoads

end Config

end AuthCallout
