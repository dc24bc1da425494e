import DsxExchange.AuthCallout.Config.IterationOrder
import DsxExchange.AuthCallout.Decision

/-
  Whether a missing environment variable can widen the set
  of clients that an entry of the permissions file admits.

  Key definitions include:
    * `AuthCallout.Constrains`, `AuthCallout.Respects`
    * `AuthCallout.FailsClosed`
    * `AuthCallout.ConstraintsSurvive`

  Key theorems include:
    * `AuthCallout.oauth2Entry_of_matched`
    * `AuthCallout.failsClosed_iff_constraintsSurvive`
-/

------------------------------------------------------------
-- Constraints Of The File
------------------------------------------------------------

namespace AuthCallout

open Auth Config

/-
  A constraint that the file writes as some text holds of a
  verified value: the value is not empty, and it is the
  expanded text.
-/
def Constrains
    (env : Go.Env)
    (written value : String) : Prop :=
  written ≠ "" →
    value ≠ "" ∧ value = Go.expandEnv env written

/-
  The constraints of the entry with the granted profile hold
  of what the request proves to the authenticator.
-/
def Respects
    (env : Go.Env)
    (config : PermissionsConfig)
    (libs : Libraries)
    (req : AuthorizationRequest)
    (profile : UserProfile) : Authenticator → Prop
| .oauth2 o =>
    ∀ entry token claims,
      ⟨profile.name, some entry⟩ ∈ config.oauth2.entries →
        o.Presents libs req token claims →
          Constrains env entry.subject claims.subject ∧
            Constrains env entry.azp claims.azp
| .mtls m =>
    ∀ entry cert,
      ⟨profile.name, some entry⟩ ∈ config.mtls.entries →
        m.Presents libs req cert →
          Constrains env entry.identity
            (extractIdentity cert)
| .nkey =>
    ∀ entry,
      ⟨profile.name, some entry⟩ ∈ config.nkey.entries →
        Constrains env entry.publicKey
          req.connectOptions.nkey
| .noauth => True

/-
  After a load of the configuration, in any order, every
  granted request respects the constraints.
-/
def FailsClosed
    (env : Go.Env)
    (config : PermissionsConfig) : Prop :=
  ∀ (order : Go.Iteration) (w : World) (libs : Libraries)
    (authenticators : List Authenticator)
    (req : AuthorizationRequest)
    (a : Authenticator) (profile : UserProfile),
      w .configFile = .decoded config →
        (authorizeRequest libs authenticators req).eval
            ((load env order).run w).2 =
          .ok (a, profile) →
            Respects env config libs req profile a

/-
  No constraint of an OAuth2 entry that the file writes as
  some text is lost by its expansion.
-/
def ConstraintsSurvive
    (env : Go.Env)
    (config : PermissionsConfig) : Prop :=
  ∀ name entry,
    ⟨name, some entry⟩ ∈ config.oauth2.entries →
      (entry.subject ≠ "" →
        Go.expandEnv env entry.subject ≠ "") ∧
      (entry.azp ≠ "" → Go.expandEnv env entry.azp ≠ "")

end AuthCallout

------------------------------------------------------------
-- Entries Behind The Tables
------------------------------------------------------------

namespace AuthCallout

open Auth Config

variable {env : Go.Env} {order : Go.Iteration}
variable {config : PermissionsConfig}

/- A request presents one token. -/
theorem claims_unique
    {libs : Libraries}
    {o : OAuth2Authenticator}
    {req : AuthorizationRequest}
    {token token' : String}
    {claims claims' : Claims}
    (hPresents : o.Presents libs req token claims)
    (hPresents' : o.Presents libs req token' claims') :
    claims = claims' := by
  rw [OAuth2Authenticator.presents_iff] at hPresents
  rw [OAuth2Authenticator.presents_iff] at hPresents'
  rcases hPresents with ⟨rfl, _, _, hVerified⟩
  rcases hPresents' with ⟨rfl, _, _, hVerified'⟩
  have hSame := hVerified.symm.trans hVerified'
  cases hSame
  rfl

/- A request presents one certificate. -/
theorem certificate_unique
    {libs : Libraries}
    {m : MTLSAuthenticator}
    {req : AuthorizationRequest}
    {cert cert' : Certificate}
    (hPresents : m.Presents libs req cert)
    (hPresents' : m.Presents libs req cert') :
    cert = cert' := by
  rcases hPresents.leaf with
    ⟨tls, certPEM, _, _, block, hTLS, hChains, hBlock,
      hCert⟩
  rcases hPresents'.leaf with
    ⟨tls', certPEM', _, _, block', hTLS', hChains',
      hBlock', hCert'⟩
  rw [hTLS] at hTLS'
  cases hTLS'
  rw [hChains] at hChains'
  cases hChains'
  rw [hBlock] at hBlock'
  cases hBlock'
  rw [hCert] at hCert'
  cases hCert'
  rfl

/-
  The entry that claims select is one whose two expanded
  constraints are each empty or the claim, and not both lost.
-/
theorem oauth2Entry_of_matched
    {subject azp : String}
    {found : OAuth2UserProfile}
    (hMatched :
      Matched
        (Go.collected (oauth2Item env) order config.oauth2)
        subject azp found) :
    ∃ entry,
      ⟨found.profile.name, some entry⟩ ∈
          config.oauth2.entries ∧
        (Go.expandEnv env entry.subject = "" ∨
          Go.expandEnv env entry.subject = subject) ∧
        (Go.expandEnv env entry.azp = "" ∨
          Go.expandEnv env entry.azp = azp) := by
  have hEntry :
      ∀ {key : OAuth2Key},
        Go.collected (oauth2Item env) order config.oauth2
            key = some found →
          ∃ entry,
            ⟨found.profile.name, some entry⟩ ∈
                config.oauth2.entries ∧
              key =
                ⟨Go.expandEnv env entry.subject,
                  Go.expandEnv env entry.azp⟩ := by
    intro key hFound
    rcases Go.exists_entry_of_collected hFound with
      ⟨name, entry, hMem, hItem⟩
    rcases oauth2Item_ok name
        (oauth2Item_ok_iff.mp ⟨_, hItem⟩) with
      ⟨scope, _, hOk⟩
    rw [hItem] at hOk
    cases hOk
    exact ⟨entry, hMem, rfl⟩
  cases hMatched with
  | both hBoth =>
      rcases hEntry hBoth with ⟨entry, hMem, hKey⟩
      cases hKey
      exact ⟨entry, hMem, Or.inr rfl, Or.inr rfl⟩
  | subjectOnly _ hSubject =>
      rcases hEntry hSubject with ⟨entry, hMem, hKey⟩
      rw [OAuth2Key.mk.injEq] at hKey
      exact ⟨entry, hMem, Or.inr hKey.1.symm,
        Or.inl hKey.2.symm⟩
  | azpOnly _ _ hAzp =>
      rcases hEntry hAzp with ⟨entry, hMem, hKey⟩
      rw [OAuth2Key.mk.injEq] at hKey
      exact ⟨entry, hMem, Or.inl hKey.1.symm,
        Or.inr hKey.2.symm⟩

/- An mTLS or NKey profile is found under its own key. -/
theorem keyedEntry_of_found
    {ε : Type}
    {key account : ε → String}
    {permissions : ε → Permissions}
    {m : Go.Map (Option ε)}
    {value : String}
    {profile : UserProfile}
    (hFound :
      Go.collected
          (fun name entry =>
            keyedItem env (key entry) (account entry)
              (permissions entry) name)
          order m value = some profile) :
    ∃ entry,
      ⟨profile.name, some entry⟩ ∈ m.entries ∧
        value = Go.expandEnv env (key entry) := by
  rcases Go.exists_entry_of_collected hFound with
    ⟨name, entry, hMem, hItem⟩
  cases hItem
  exact ⟨entry, hMem, rfl⟩

/- Libraries that verify every token with the claims. -/
def tokenLibraries (claims : Claims) : Libraries :=
  { offlineLibraries with
    parseWithClaims := fun _ _ _ _ _ =>
      .ok ⟨true, some claims⟩ }

/- An authenticator for the tokens of one issuer. -/
def oauth2Client : OAuth2Authenticator where
  jwks := ⟨"https://idp/jwks"⟩
  issuer := "https://idp"
  audience := "nats"
  signingAlgorithms := ["RS256"]

/- A client that sends a connect token. -/
def tokenRequest : AuthorizationRequest where
  userNkey := passwordRequest.userNkey
  clientInformation := ⟨""⟩
  connectOptions := ⟨"eyJ.e30.sig", "", "", "", ""⟩
  tls := none

theorem presents_tokenRequest (claims : Claims) :
    oauth2Client.Presents (tokenLibraries claims)
      tokenRequest "eyJ.e30.sig" claims where
  carried := Or.inl rfl
  nonempty := by decide
  dots := by decide
  verified := rfl

/-
  An accepted file fails closed exactly when no constraint of
  an OAuth2 entry is lost by its expansion.
-/
theorem failsClosed_iff_constraintsSurvive
    {env : Go.Env}
    {config : PermissionsConfig}
    (hAccepts : Accepts env config) :
    FailsClosed env config ↔
      ConstraintsSurvive env config := by
  have hLoadable := loadable_of_accepts hAccepts
  constructor
  · intro hFails name entry hMem
    -- A client that the entry admits when it comes last.
    rcases oauth2Item_ok name
        (hLoadable.identity name entry hMem) with
      ⟨scope, _, hItem⟩
    have hResolve :
        Go.resolve (oauth2Item env) ⟨name, some entry⟩ =
          .ok _ :=
      hItem
    rcases Go.exists_collected_eq hMem hResolve with
      ⟨order, hFound⟩
    let claims : Claims :=
      { subject := Go.expandEnv env entry.subject
        scope := ""
        scopes := [scope]
        azp := Go.expandEnv env entry.azp }
    have hPresents :
        OAuth2Authenticator.Presents (tokenLibraries claims)
          oauth2Client tokenRequest "eyJ.e30.sig" claims :=
      presents_tokenRequest claims
    have hGranted :
        (authorizeRequest (tokenLibraries claims)
            [.oauth2 oauth2Client, .nkey, .noauth]
            tokenRequest).eval
            ((load env order).run
              (world (.decoded config) .fresh)).2 =
          .ok (.oauth2 oauth2Client,
            ⟨name, Go.expandEnv env entry.account,
              entry.permissions⟩) := by
      rw [load_run_of_loadable env order hLoadable rfl,
        authorizeRequest_ok_iff]
      exact ⟨rfl, _, _, _, _, hPresents, rfl,
        .both hFound,
        Or.inr ⟨rfl, List.mem_singleton_self _⟩, rfl⟩
    have hRespects :=
      hFails order _ _ _ _ _ _ rfl hGranted entry _ _ hMem
        hPresents
    exact ⟨fun hSome => (hRespects.1 hSome).1,
      fun hSome => (hRespects.2 hSome).1⟩
  · intro hSurvive order w libs authenticators req a
      profile hContent hGranted
    rw [load_run_of_loadable env order hLoadable hContent,
      authorizeRequest_ok_iff] at hGranted
    rcases hGranted with ⟨_, hGrants⟩
    cases a with
    | oauth2 o =>
        rcases hGrants with
          ⟨token, claims, table, found, hPresents, hTable,
            hMatched, _, rfl⟩
        cases hTable
        rcases oauth2Entry_of_matched hMatched with
          ⟨entry, hMem, hSubject, hAzp⟩
        intro other token' claims' hMem' hPresents'
        rw [claims_unique hPresents' hPresents,
          Go.entry_unique hMem' hMem]
        have hBoth := hSurvive _ entry hMem
        constructor
        · intro hSome
          have hExpanded := hBoth.1 hSome
          have hEq := hSubject.resolve_left hExpanded
          exact ⟨hEq ▸ hExpanded, hEq.symm⟩
        · intro hSome
          have hExpanded := hBoth.2 hSome
          have hEq := hAzp.resolve_left hExpanded
          exact ⟨hEq ▸ hExpanded, hEq.symm⟩
    | mtls m =>
        rcases hGrants with
          ⟨cert, table, hPresents, hTable, hFound⟩
        cases hTable
        rcases keyedEntry_of_found hFound with
          ⟨entry, hMem, hKey⟩
        intro other cert' hMem' hPresents' _
        rw [certificate_unique hPresents' hPresents,
          Go.entry_unique hMem' hMem]
        exact ⟨hPresents.identity, hKey⟩
    | nkey =>
        rcases hGrants with
          ⟨table, hSigns, hTable, hFound⟩
        cases hTable
        rcases keyedEntry_of_found hFound with
          ⟨entry, hMem, hKey⟩
        intro other hMem' _
        rw [Go.entry_unique hMem' hMem]
        exact ⟨hSigns.key, hKey⟩
    | noauth => trivial

/- A file that admits one user from one client only. -/
def uiConfig : PermissionsConfig where
  oauth2 :=
    AList.singleton "ui"
      (some ⟨"alice", "${CLIENT}", "A", .zero, ""⟩)
  mtls := ∅
  nkey := ∅
  noauth := none

/- An environment that sets the variable of the file. -/
def clientEnv : Go.Env :=
  fun key => if key = "CLIENT" then some "ui" else none

/- With the variable set the file fails closed. -/
theorem failsClosed_uiConfig :
    FailsClosed clientEnv uiConfig := by
  have hAccepts : Accepts clientEnv uiConfig :=
    ⟨.listed, world (.decoded uiConfig) .fresh, rfl, rfl⟩
  apply (failsClosed_iff_constraintsSurvive hAccepts).mpr
  intro name entry hMem
  have hEntry :
      entry = ⟨"alice", "${CLIENT}", "A", .zero, ""⟩ := by
    have hSingle := List.mem_singleton.mp hMem
    cases hSingle
    rfl
  subst hEntry
  decide

/- The user from some other client. -/
def otherClientClaims : Claims where
  subject := "alice"
  scope := ""
  scopes := ["mqtt"]
  azp := "other"

/- Without it the file admits the user from any client. -/
theorem not_failsClosed_uiConfig :
    Accepts (fun _ => none) uiConfig ∧
      ¬ FailsClosed (fun _ => none) uiConfig := by
  refine
    ⟨⟨.listed, world (.decoded uiConfig) .fresh, rfl, rfl⟩,
      fun hFails => ?_⟩
  have hRespects :=
    hFails .listed (world (.decoded uiConfig) .fresh)
      (tokenLibraries otherClientClaims)
      [.oauth2 oauth2Client, .nkey, .noauth] tokenRequest
      (.oauth2 oauth2Client) ⟨"ui", "A", .zero⟩ rfl rfl
  have hAzp :=
    (hRespects _ _ _ (List.mem_singleton_self _)
      (presents_tokenRequest _)).2 (by decide)
  exact absurd hAzp.2 (by decide)

end AuthCallout
