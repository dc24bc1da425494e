import DsxExchange.AuthCallout.Config.LoadSpec

/-
  Whether the profiles that clients get depend on the order
  in which `load` ranges over the maps of the file.

  Key definitions include:
    * `AuthCallout.Config.Accepts`
    * `AuthCallout.Config.SameProfiles`
    * `AuthCallout.Config.PermissionsConfig.DistinctKeys`

  Key theorems include:
    * `AuthCallout.Config.loadable_of_accepts`
    * `AuthCallout.Config.sameProfiles_lookupsOf_iff`
    * `AuthCallout.Config.sameProfiles_iff_distinctKeys`
-/

------------------------------------------------------------
-- Accepted Contents
------------------------------------------------------------

namespace AuthCallout

namespace Config

open Cells

/- Some execution of `load` ends without an error. -/
def Accepts
    (env : Go.Env)
    (config : PermissionsConfig) : Prop :=
  ∃ order, ∃ w : World,
    w .configFile = .decoded config ∧
      ((load env order).run w).1 = .ok ()

/- Then every execution does, in any order. -/
theorem loadable_of_accepts
    {env : Go.Env}
    {config : PermissionsConfig}
    (hAccepts : Accepts env config) :
    Loadable env config := by
  rcases hAccepts with ⟨order, w, hContent, hOk⟩
  rcases load_run_cases env order w with
    ⟨message, hRun⟩ | ⟨other, fault, _, _, hRun⟩ |
      ⟨other, hDecoded, hLoadable, _⟩
  · rw [hRun] at hOk
    cases hOk
  · rw [hRun] at hOk
    cases hOk
  · rw [hContent] at hDecoded
    cases hDecoded
    exact hLoadable

end Config

end AuthCallout

------------------------------------------------------------
-- Profiles In Two Orders
------------------------------------------------------------

namespace AuthCallout

namespace Config

open Cells

/- Two managers answer every lookup alike. -/
structure SameProfiles (left right : World) : Prop where
  oauth2 :
    ∀ subject azp,
      (getOAuth2Profile subject azp).eval left =
        (getOAuth2Profile subject azp).eval right
  mtls :
    ∀ identity,
      (getMTLSProfile identity).eval left =
        (getMTLSProfile identity).eval right
  nkey :
    ∀ publicKey,
      (getNKeyProfile publicKey).eval left =
        (getNKeyProfile publicKey).eval right

/- No two entries of a section share an expanded key. -/
structure PermissionsConfig.DistinctKeys
    (env : Go.Env)
    (config : PermissionsConfig) : Prop where
  oauth2 : Go.DistinctKeys (oauth2Item env) config.oauth2
  mtls : Go.DistinctKeys (mtlsItem env) config.mtls
  nkey : Go.DistinctKeys (nkeyItem env) config.nkey

variable {env : Go.Env} {config : PermissionsConfig}

/- An OAuth2 profile carries the name of its entry. -/
theorem oauth2Item_named
    {left right : Go.Entry (Option OAuth2Entry)}
    {assignment : OAuth2Key × OAuth2UserProfile}
    (hLeft :
      Go.resolve (oauth2Item env) left = .ok assignment)
    (hRight :
      Go.resolve (oauth2Item env) right = .ok assignment) :
    left.1 = right.1 := by
  have hName :
      ∀ {e : Go.Entry (Option OAuth2Entry)},
        Go.resolve (oauth2Item env) e = .ok assignment →
          assignment.2.profile.name = e.1 := by
    rintro ⟨name, pointer⟩ hResolve
    cases pointer with
    | none => cases hResolve
    | some entry =>
        rcases oauth2Item_ok name
            (oauth2Item_ok_iff.mp ⟨_, hResolve⟩) with
          ⟨scope, _, hItem⟩
        have hSame := hItem.symm.trans hResolve
        cases hSame
        rfl
  exact (hName hLeft).symm.trans (hName hRight)

/- The profile of any other entry carries its name, too. -/
theorem keyedItem_named
    {ε : Type}
    {key account : ε → String}
    {permissions : ε → Permissions}
    {left right : Go.Entry (Option ε)}
    {assignment : String × UserProfile}
    (hLeft :
      Go.resolve
          (fun name entry =>
            keyedItem env (key entry) (account entry)
              (permissions entry) name)
          left = .ok assignment)
    (hRight :
      Go.resolve
          (fun name entry =>
            keyedItem env (key entry) (account entry)
              (permissions entry) name)
          right = .ok assignment) :
    left.1 = right.1 := by
  rcases left with ⟨leftName, leftPointer⟩
  rcases right with ⟨rightName, rightPointer⟩
  cases leftPointer with
  | none => cases hLeft
  | some leftEntry =>
      cases rightPointer with
      | none => cases hRight
      | some rightEntry =>
          cases hLeft
          simp only [Go.resolve, keyedItem, Except.ok.injEq,
            Prod.mk.injEq, UserProfile.mk.injEq] at hRight
          exact hRight.2.1.symm

/- The exact probe tells two tables with equal keys apart. -/
theorem table_eq_of_probeOAuth2_eq
    {left right : Go.Table OAuth2Key OAuth2UserProfile}
    (hKeys : ∀ key, left key = none ↔ right key = none)
    (hProbes :
      ∀ subject azp,
        probeOAuth2 left subject azp =
          probeOAuth2 right subject azp) :
    left = right := by
  funext key
  cases hLeft : left key with
  | none => exact ((hKeys key).mp hLeft).symm
  | some entry =>
      cases hRight : right key with
      | none =>
          rw [(hKeys key).mpr hRight] at hLeft
          cases hLeft
      | some other =>
          have hProbe := hProbes key.subject key.azp
          simpa [probeOAuth2, hLeft, hRight] using hProbe

/-
  The tables of two orders answer alike, for any two orders,
  exactly when the keys are distinct.
-/
theorem sameProfiles_lookupsOf_iff
    (env : Go.Env)
    (config : PermissionsConfig) :
    (∀ left right,
        SameProfiles
          (world (.decoded config)
            (lookupsOf env left config))
          (world (.decoded config)
            (lookupsOf env right config))) ↔
      config.DistinctKeys env := by
  have hOAuth2 :=
    Go.collected_eq_iff_distinctKeys
      (oauth2Item env) config.oauth2
      oauth2Item_named
  have hMTLS :=
    Go.collected_eq_iff_distinctKeys
      (mtlsItem env) config.mtls
      keyedItem_named
  have hNKey :=
    Go.collected_eq_iff_distinctKeys
      (nkeyItem env) config.nkey
      keyedItem_named
  constructor
  · intro hSame
    refine
      ⟨hOAuth2.mp fun left right => ?_,
        hMTLS.mp fun left right => ?_,
        hNKey.mp fun left right => ?_⟩
    · apply table_eq_of_probeOAuth2_eq
      · intro key
        exact Go.collected_eq_none_iff
      · intro subject azp
        have hEval := (hSame left right).oauth2 subject azp
        exact Except.ok.inj hEval
    · funext identity
      exact Except.ok.inj ((hSame left right).mtls identity)
    · funext publicKey
      exact Except.ok.inj ((hSame left right).nkey publicKey)
  · intro hDistinct left right
    have hTables :
        lookupsOf env left config =
          lookupsOf env right config := by
      simp only [lookupsOf,
        hOAuth2.mpr hDistinct.oauth2 left right,
        hMTLS.mpr hDistinct.mtls left right,
        hNKey.mpr hDistinct.nkey left right]
    rw [hTables]
    exact ⟨fun _ _ => rfl, fun _ => rfl, fun _ => rfl⟩

/-
  On an accepted file every two managers answer alike,
  whatever they held before and in whatever order they read,
  exactly when the keys are distinct.
-/
theorem sameProfiles_iff_distinctKeys
    {env : Go.Env}
    {config : PermissionsConfig}
    (hAccepts : Accepts env config) :
    (∀ left right, ∀ w w' : World,
        w .configFile = .decoded config →
          w' .configFile = .decoded config →
            SameProfiles ((load env left).run w).2
              ((load env right).run w').2) ↔
      config.DistinctKeys env := by
  have hLoadable := loadable_of_accepts hAccepts
  rw [← sameProfiles_lookupsOf_iff]
  constructor
  · intro hSame left right
    have hPair :=
      hSame left right
        (world (.decoded config) .fresh)
        (world (.decoded config) .fresh) rfl rfl
    rwa [load_run_of_loadable env left hLoadable rfl,
      load_run_of_loadable env right hLoadable rfl]
      at hPair
  · intro hSame left right w w' hContent hContent'
    rw [load_run_of_loadable env left hLoadable hContent,
      load_run_of_loadable env right hLoadable hContent']
    exact hSame left right

/- A gateway that a file lists in two accounts. -/
def twoAccountsConfig : PermissionsConfig where
  oauth2 := ∅
  mtls :=
    (AList.singleton "b"
      (some ⟨"CN=gateway", "B", .zero⟩)).insert "a"
        (some ⟨"CN=gateway", "A", .zero⟩)
  nkey := ∅
  noauth := none

theorem accepts_twoAccountsConfig :
    Accepts (fun _ => none) twoAccountsConfig :=
  ⟨.listed, world (.decoded twoAccountsConfig) .fresh,
    rfl, rfl⟩

/- Its two entries have one key, so the order matters. -/
theorem order_matters_twoAccountsConfig :
    ¬ ∀ left right, ∀ w w' : World,
        w .configFile = .decoded twoAccountsConfig →
          w' .configFile = .decoded twoAccountsConfig →
            SameProfiles
              ((load (fun _ => none) left).run w).2
              ((load (fun _ => none) right).run w').2 := by
  rw [sameProfiles_iff_distinctKeys
    accepts_twoAccountsConfig]
  intro hDistinct
  have hKeys := hDistinct.mtls
  revert hKeys
  unfold Go.DistinctKeys
  decide

/- Its account depends on the entry that is visited last. -/
theorem not_sameProfiles_twoAccountsConfig :
    Accepts (fun _ => none) twoAccountsConfig ∧
      ¬ SameProfiles
        ((load (fun _ => none) .listed).run
          (world (.decoded twoAccountsConfig) .fresh)).2
        ((load (fun _ => none) (.leading (· = "b"))).run
          (world (.decoded twoAccountsConfig) .fresh)).2 := by
  refine ⟨accepts_twoAccountsConfig, fun hSame => ?_⟩
  have hGateway := hSame.mtls "CN=gateway"
  revert hGateway
  decide

end Config

end AuthCallout
