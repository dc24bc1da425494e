import DsxExchange.AuthCallout.FailClosed

/-
  What every manager state guarantees about the tokens that
  the OAuth2 authenticator accepts, after any reloads.

  Key definitions include:
    * `AuthCallout.Reload`, `AuthCallout.reload`
    * `AuthCallout.reloads`
    * `AuthCallout.ScopesRequired`

  Key theorems include:
    * `AuthCallout.scopesRequired_reloads`
    * `AuthCallout.accepted_token_lists_scope`
-/

------------------------------------------------------------
-- Histories Of Loads
------------------------------------------------------------

namespace AuthCallout

open Auth Config

/- The content and the environment that one load meets. -/
structure Reload where
  content : FileContent
  env : Go.Env
  order : Go.Iteration

/- The file changes, and it is loaded. -/
def reload (w : World) (r : Reload) : World :=
  ((load r.env r.order).run
    (Function.update w .configFile r.content)).2

/- The state of a manager after a sequence of loads. -/
def reloads (history : List Reload) : World :=
  history.foldl reload
    (world (.unreadable "no such file or directory")
      .fresh)

/- Either the tables are kept, or a new file is installed. -/
theorem reload_cases (w : World) (r : Reload) :
    lookups (reload w r) = lookups w ∨
      ∃ config,
        Loadable r.env config ∧
          lookups (reload w r) =
            lookupsOf r.env r.order config := by
  unfold reload
  rcases load_run_cases r.env r.order
      (Function.update w .configFile r.content) with
    ⟨message, hRun⟩ | ⟨config, fault, _, _, hRun⟩ |
      ⟨config, _, hLoadable, hRun⟩
  · rw [hRun]
    exact Or.inl rfl
  · rw [hRun]
    exact Or.inl rfl
  · rw [hRun]
    exact Or.inr ⟨config, hLoadable, rfl⟩

end AuthCallout

------------------------------------------------------------
-- Required Scopes
------------------------------------------------------------

namespace AuthCallout

open Auth Config

/-
  Every OAuth2 entry requires some scope, and no entry is
  stored under the key without constraints.
-/
def ScopesRequired (tables : Lookups) : Prop :=
  ∀ table, tables.oauth2 = some table →
    table ⟨"", ""⟩ = none ∧
      ∀ key entry, table key = some entry →
        entry.requiredScope ≠ ""

theorem scopesRequired_lookupsOf
    {env : Go.Env}
    {order : Go.Iteration}
    {config : PermissionsConfig} :
    ScopesRequired (lookupsOf env order config) := by
  have hEntry :
      ∀ {key value},
        Go.collected (oauth2Item env) order config.oauth2
            key = some value →
          key ≠ ⟨"", ""⟩ ∧ value.requiredScope ≠ "" := by
    intro key value hFound
    rcases Go.exists_entry_of_collected hFound with
      ⟨name, entry, _, hItem⟩
    have hIdentity := oauth2Item_ok_iff.mp ⟨_, hItem⟩
    rcases oauth2Item_ok name hIdentity with
      ⟨scope, hScope, hOk⟩
    rw [hItem] at hOk
    cases hOk
    refine ⟨?_, hScope⟩
    intro hKey
    rw [OAuth2Key.mk.injEq] at hKey
    rcases hIdentity with hSubject | hAzp
    · exact hSubject hKey.1
    · exact hAzp hKey.2
  intro table hTable
  cases hTable
  constructor
  · cases hFound :
        Go.collected (oauth2Item env) order config.oauth2
          ⟨"", ""⟩ with
    | none => rfl
    | some value => exact absurd rfl (hEntry hFound).1
  · intro key entry hFound
    exact (hEntry hFound).2

/- One more load keeps the invariant. -/
theorem scopesRequired_reload
    {w : World}
    (hScopes : ScopesRequired (lookups w))
    (r : Reload) :
    ScopesRequired (lookups (reload w r)) := by
  rcases reload_cases w r with hKept | ⟨config, _, hNew⟩
  · rw [hKept]
    exact hScopes
  · rw [hNew]
    exact scopesRequired_lookupsOf

/- It holds after any sequence of loads. -/
theorem scopesRequired_reloads (history : List Reload) :
    ScopesRequired (lookups (reloads history)) := by
  have hRun :
      ∀ w : World, ScopesRequired (lookups w) →
        ScopesRequired
          (lookups (history.foldl reload w)) := by
    induction history with
    | nil =>
        intro w hScopes
        exact hScopes
    | cons r rest ih =>
        intro w hScopes
        exact ih _ (scopesRequired_reload hScopes r)
  apply hRun
  intro table hTable
  cases hTable

/- Claims that select an entry name a subject or a party. -/
theorem claims_nonempty_of_matched
    {table : Go.Table OAuth2Key OAuth2UserProfile}
    {subject azp : String}
    {entry : OAuth2UserProfile}
    (hNone : table ⟨"", ""⟩ = none)
    (hMatched : Matched table subject azp entry) :
    subject ≠ "" ∨ azp ≠ "" := by
  by_contra hEmpty
  simp only [not_or, not_not] at hEmpty
  rcases hEmpty with ⟨rfl, rfl⟩
  have hFound : table ⟨"", ""⟩ = some entry := by
    cases hMatched with
    | both hBoth => exact hBoth
    | subjectOnly _ hSubject => exact hSubject
    | azpOnly _ _ hAzp => exact hAzp
  rw [hNone] at hFound
  cases hFound

/-
  After any loads, an accepted token names a subject or an
  authorized party, and it lists the non-empty scope that the
  matched entry requires.
-/
theorem accepted_token_lists_scope
    (history : List Reload)
    {libs : Libraries}
    {o : OAuth2Authenticator}
    {req : AuthorizationRequest}
    {profile : UserProfile}
    (hAccepted :
      (OAuth2Authenticator.tryAuthenticate libs o
          req).eval (reloads history) = .ok profile) :
    ∃ token claims table entry,
      o.Presents libs req token claims ∧
      (claims.subject ≠ "" ∨ claims.azp ≠ "") ∧
      reloads history .oauth2Lookup = some table ∧
      Matched table claims.subject claims.azp entry ∧
      entry.requiredScope ≠ "" ∧
      claims.Lists entry.requiredScope ∧
      profile = entry.profile := by
  rcases OAuth2Authenticator.tryAuthenticate_ok_iff.mp
      hAccepted with
    ⟨token, claims, table, entry, hPresents, hTable,
      hMatched, hLists, hProfile⟩
  rcases scopesRequired_reloads history table hTable with
    ⟨hNone, hScopes⟩
  have hScope : entry.requiredScope ≠ "" := by
    cases hMatched with
    | both hBoth => exact hScopes _ _ hBoth
    | subjectOnly _ hSubject => exact hScopes _ _ hSubject
    | azpOnly _ _ hAzp => exact hScopes _ _ hAzp
  exact ⟨token, claims, table, entry, hPresents,
    claims_nonempty_of_matched hNone hMatched, hTable,
    hMatched, hScope, hLists, hProfile⟩

/- The user's token from the configured client. -/
theorem accepted_token_uiConfig :
    ∃ token claims table entry,
      oauth2Client.Presents
        (tokenLibraries ⟨"alice", "mqtt x", [], "ui"⟩)
        tokenRequest token claims ∧
      (claims.subject ≠ "" ∨ claims.azp ≠ "") ∧
      reloads [⟨.decoded uiConfig, clientEnv, .listed⟩]
          .oauth2Lookup = some table ∧
      Matched table claims.subject claims.azp entry ∧
      entry.requiredScope ≠ "" ∧
      claims.Lists entry.requiredScope ∧
      ⟨"ui", "A", .zero⟩ = entry.profile :=
  accepted_token_lists_scope
    [⟨.decoded uiConfig, clientEnv, .listed⟩] rfl

end AuthCallout
