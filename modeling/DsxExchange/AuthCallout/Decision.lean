import DsxExchange.AuthCallout.Service

/-
  The authorization decision: when a request gets a user
  token, and when it gets the anonymous one.

  Key definitions include:
    * `AuthCallout.AuthorizationRequest.HasCredential`
    * `AuthCallout.NeverAnonymous`
    * `AuthCallout.Downgraded`

  Key theorems include:
    * `AuthCallout.handleAuthRequest_ok_iff`
    * `AuthCallout.firstAccepting_noauth_iff`
    * `AuthCallout.neverAnonymous_iff_not_downgraded`
-/

------------------------------------------------------------
-- The Whole Decision
------------------------------------------------------------

namespace AuthCallout

open Auth Config

/-
  A request gets a token exactly when the first authenticator
  that can handle it grants a profile, and the token is one
  issued for that profile.
-/
theorem handleAuthRequest_ok_iff
    {libs : Libraries}
    {issuer : Issuer}
    {authenticators : List Authenticator}
    {req : AuthorizationRequest}
    {w : World}
    {token : UserJWT} :
    (handleAuthRequest libs issuer authenticators req).eval
        w = .ok token ↔
      ∃ a profile,
        firstAccepting authenticators req = some a ∧
          a.Grants libs w req profile ∧
            Issued issuer req.userNkey profile token := by
  rw [handleAuthRequest_ok_iff_issued]
  simp only [authorizeRequest_ok_iff, and_assoc]

end AuthCallout

------------------------------------------------------------
-- Assembled Authenticators
------------------------------------------------------------

namespace AuthCallout

open Auth Config

variable {libs : Libraries} {config : ServiceConfig}
variable {authenticators : List Authenticator}

theorem newOAuth2_ok
    {found : List Authenticator}
    (hNew : newOAuth2 libs config.jwks = .ok found) :
    (config.jwks.url = "" ∧ found = []) ∨
      config.jwks.url ≠ "" ∧
        ∃ o, found = [.oauth2 o] := by
  unfold newOAuth2 at hNew
  split at hNew
  · rename_i hURL
    split at hNew
    · cases hNew
    · rename_i o _
      cases hNew
      exact Or.inr ⟨hURL, o, rfl⟩
  · rename_i hURL
    cases hNew
    exact Or.inl ⟨not_not.mp hURL, rfl⟩

theorem newMTLS_ok
    {found : List Authenticator}
    (hNew : newMTLS libs config.mtls = .ok found) :
    found = [] ∨ ∃ m, found = [.mtls m] := by
  unfold newMTLS at hNew
  split at hNew
  · split at hNew
    · cases hNew
    · split at hNew
      · cases hNew
      · rename_i m _
        cases hNew
        exact Or.inr ⟨m, rfl⟩
  · cases hNew
    exact Or.inl rfl

/- The last authenticator decides if no other accepts. -/
theorem firstAccepting_concat_noauth
    {before : List Authenticator}
    (hNot : .noauth ∉ before)
    (req : AuthorizationRequest) :
    firstAccepting (before ++ [.noauth]) req =
        some .noauth ↔
      (∀ a ∈ before, a.canAuthenticate req = false) ∧
        NoAuthAuthenticator.canAuthenticate req = true := by
  unfold firstAccepting
  rw [List.find?_append]
  cases hFind :
      before.find? (·.canAuthenticate req) with
  | none =>
      have hRejects :
          ∀ a ∈ before, a.canAuthenticate req = false := by
        simpa using hFind
      rw [Option.none_or]
      have hLast :
          Authenticator.noauth.canAuthenticate req =
            NoAuthAuthenticator.canAuthenticate req :=
        rfl
      rw [List.find?_cons, hLast, and_iff_right hRejects]
      cases NoAuthAuthenticator.canAuthenticate req <;> simp
  | some a =>
      have hMem := List.mem_of_find?_eq_some hFind
      have hAccepts := List.find?_some hFind
      rw [Option.some_or, Option.some.injEq]
      constructor
      · rintro rfl
        exact absurd hMem hNot
      · rintro ⟨hRejects, _⟩
        rw [hRejects a hMem] at hAccepts
        cases hAccepts

/-
  The anonymous fallback decides exactly when the request
  carries no connect token, chain or key, and no password
  that an enabled OAuth2 authenticator takes.
-/
theorem firstAccepting_noauth_iff
    (hNew :
      newAuthenticators libs config = .ok authenticators)
    (req : AuthorizationRequest) :
    firstAccepting authenticators req = some .noauth ↔
      req.connectOptions.token = "" ∧
        req.hasVerifiedChain = false ∧
          req.connectOptions.nkey = "" ∧
            (config.jwks.url = "" ∨
              ¬ (req.connectOptions.username =
                  oauthTokenUsername ∧
                req.connectOptions.password ≠ "")) := by
  unfold newAuthenticators at hNew
  split at hNew
  · cases hNew
  rename_i oauth2Auth hOAuth2
  split at hNew
  · cases hNew
  rename_i mtlsAuth hMTLS
  have hOthers :
      oauth2Auth ++ mtlsAuth ++ [.nkey, .noauth] =
        (oauth2Auth ++ mtlsAuth ++ [.nkey]) ++
          [.noauth] := by
    simp
  rw [hOthers] at hNew
  cases hNew
  have hNot :
      Authenticator.noauth ∉
        oauth2Auth ++ mtlsAuth ++ [.nkey] := by
    rcases newOAuth2_ok hOAuth2 with
      ⟨_, rfl⟩ | ⟨_, o, rfl⟩ <;>
    rcases newMTLS_ok hMTLS with rfl | ⟨m, rfl⟩ <;>
    simp
  rw [firstAccepting_concat_noauth hNot,
    NoAuthAuthenticator.canAuthenticate_iff]
  constructor
  · rintro ⟨hRejects, hToken, hChain, hKey⟩
    refine ⟨hToken, hChain, hKey, ?_⟩
    rcases newOAuth2_ok hOAuth2 with
      ⟨hURL, _⟩ | ⟨_, o, rfl⟩
    · exact Or.inl hURL
    · have hOAuth2Rejects :=
        hRejects (.oauth2 o) (by simp)
      right
      simpa [Authenticator.canAuthenticate,
        OAuth2Authenticator.canAuthenticate, hToken]
        using hOAuth2Rejects
  · rintro ⟨hToken, hChain, hKey, hPassword⟩
    refine ⟨?_, hToken, hChain, hKey⟩
    intro a hMem
    rw [List.mem_append, List.mem_append,
      List.mem_singleton] at hMem
    rcases hMem with (hMem | hMem) | rfl
    · rcases newOAuth2_ok hOAuth2 with
        ⟨_, rfl⟩ | ⟨hURL, o, rfl⟩
      · cases hMem
      · rw [List.mem_singleton] at hMem
        subst hMem
        have hNone := hPassword.resolve_left hURL
        simpa [Authenticator.canAuthenticate,
          OAuth2Authenticator.canAuthenticate, hToken]
          using hNone
    · rcases newMTLS_ok hMTLS with rfl | ⟨m, rfl⟩
      · cases hMem
      · rw [List.mem_singleton] at hMem
        subst hMem
        exact hChain
    · simpa [Authenticator.canAuthenticate,
        NKeyAuthenticator.canAuthenticate] using hKey

end AuthCallout

------------------------------------------------------------
-- Presented Credentials
------------------------------------------------------------

namespace AuthCallout

open Auth Config

/- The request carries a credential of a known kind. -/
def HasCredential (req : AuthorizationRequest) : Prop :=
  req.connectOptions.token ≠ "" ∨
    (req.connectOptions.username = oauthTokenUsername ∧
      req.connectOptions.password ≠ "") ∨
    req.hasVerifiedChain = true ∨
    req.connectOptions.nkey ≠ ""

/- A token is issued from the anonymous profile. -/
def IssuesAnonymous
    (libs : Libraries)
    (issuer : Issuer)
    (authenticators : List Authenticator)
    (req : AuthorizationRequest)
    (w : World) : Prop :=
  ∃ profile token,
    (authorizeRequest libs authenticators req).eval w =
        .ok (.noauth, profile) ∧
      (handleAuthRequest libs issuer authenticators
          req).eval w = .ok token

/-
  The service has no OAuth2 authenticator, the password of an
  OAuth2 client is the only credential of the request, and a
  token can be issued for the anonymous profile.
-/
structure Downgraded
    (issuer : Issuer)
    (config : ServiceConfig)
    (req : AuthorizationRequest)
    (w : World) : Prop where
  disabled : config.jwks.url = ""
  password :
    req.connectOptions.username = oauthTokenUsername ∧
      req.connectOptions.password ≠ ""
  noToken : req.connectOptions.token = ""
  noChain : req.hasVerifiedChain = false
  noKey : req.connectOptions.nkey = ""
  issued :
    ∃ profile token,
      w .noauthProfile = some profile ∧
        Issued issuer req.userNkey profile token

/- A credential is never answered with anonymous access. -/
def NeverAnonymous
    (libs : Libraries)
    (issuer : Issuer)
    (authenticators : List Authenticator)
    (req : AuthorizationRequest)
    (w : World) : Prop :=
  HasCredential req →
    ¬ IssuesAnonymous libs issuer authenticators req w

variable {libs : Libraries} {config : ServiceConfig}
variable {authenticators : List Authenticator}

/- The fallback decides, and its token can be issued. -/
theorem issuesAnonymous_iff
    {issuer : Issuer}
    {req : AuthorizationRequest}
    {w : World} :
    IssuesAnonymous libs issuer authenticators req w ↔
      firstAccepting authenticators req = some .noauth ∧
        NoAuthAuthenticator.canAuthenticate req = true ∧
          ∃ profile token,
            w .noauthProfile = some profile ∧
              Issued issuer req.userNkey profile token := by
  unfold IssuesAnonymous
  constructor
  · rintro ⟨profile, token, hFound, hHandled⟩
    rcases handleAuthRequest_ok_iff_issued.mp hHandled with
      ⟨a, other, hOther, hIssued⟩
    have hSame := hFound.symm.trans hOther
    cases hSame
    rcases authorizeRequest_ok_iff.mp hFound with
      ⟨hFirst, hAccepts, hProfile⟩
    exact ⟨hFirst, hAccepts, profile, token, hProfile,
      hIssued⟩
  · rintro ⟨hFirst, hAccepts, profile, token, hProfile,
      hIssued⟩
    have hFound :
        (authorizeRequest libs authenticators req).eval w =
          .ok (.noauth, profile) :=
      authorizeRequest_ok_iff.mpr
        ⟨hFirst, hAccepts, hProfile⟩
    exact ⟨profile, token, hFound,
      handleAuthRequest_ok_iff_issued.mpr
        ⟨.noauth, profile, hFound, hIssued⟩⟩

/-
  Whatever `New` assembles, a request with a credential gets
  anonymous access exactly when it is downgraded.
-/
theorem neverAnonymous_iff_not_downgraded
    (hNew :
      newAuthenticators libs config = .ok authenticators)
    (issuer : Issuer)
    (req : AuthorizationRequest)
    (w : World) :
    NeverAnonymous libs issuer authenticators req w ↔
      ¬ Downgraded issuer config req w := by
  unfold NeverAnonymous
  rw [issuesAnonymous_iff,
    firstAccepting_noauth_iff hNew req,
    NoAuthAuthenticator.canAuthenticate_iff]
  constructor
  · rintro hNever ⟨hURL, hPassword, hToken, hChain, hKey,
      hIssued⟩
    exact hNever (Or.inr (Or.inl hPassword))
      ⟨⟨hToken, hChain, hKey, Or.inl hURL⟩,
        ⟨hToken, hChain, hKey⟩, hIssued⟩
  · rintro hSafe hCredential
      ⟨⟨hToken, hChain, hKey, hDisabled⟩, _, hIssued⟩
    -- Only the password of an OAuth2 client is left.
    have hPassword :
        req.connectOptions.username = oauthTokenUsername ∧
          req.connectOptions.password ≠ "" := by
      rcases hCredential with h | h | h | h
      · exact absurd hToken h
      · exact h
      · rw [hChain] at h
        cases h
      · exact absurd hKey h
    rcases hDisabled with hURL | hNone
    · exact hSafe
        ⟨hURL, hPassword, hToken, hChain, hKey, hIssued⟩
    · exact hNone hPassword

/- Libraries without files, keys or valid credentials. -/
def offlineLibraries : Libraries where
  readFile := fun _ => .error "no such file or directory"
  newKeyfunc := fun url => .ok ⟨url⟩
  parseWithClaims := fun _ _ _ _ _ =>
    .error "token is unverifiable"
  pemDecode := fun _ => none
  parseCertificate := fun _ =>
    .error "x509: malformed certificate"
  certsFromPEM := fun _ => []
  verify := fun _ _ =>
    .error "x509: certificate signed by unknown authority"
  fromPublicKey := fun _ =>
    .error "nkeys: invalid public key"
  ed25519Verify := fun _ _ _ => false

/- An issuer that finds no errors. -/
def plainIssuer : Issuer where
  validationErrors := fun _ => []
  encode := fun claims => .ok claims.name

/- A service without OAuth2 and without mTLS. -/
def nkeyOnlyConfig : ServiceConfig where
  jwks := ⟨"", "", "", []⟩
  mtls := ⟨""⟩

/- A service with OAuth2. -/
def oauth2Config : ServiceConfig where
  jwks :=
    ⟨"https://idp/jwks", "https://idp", "nats", ["RS256"]⟩
  mtls := ⟨""⟩

/- A client that sends its OAuth2 token as the password. -/
def passwordRequest : AuthorizationRequest where
  userNkey :=
    "UDXU4RCSJNZOIQHZNWXHXORDPRTGNJAHAHFRGZNEEJCPQTT2M7NLCNF4"
  clientInformation := ⟨""⟩
  connectOptions :=
    ⟨"", "oauthtoken", "eyJ.e30.sig", "", ""⟩
  tls := none

/- A manager that serves anonymous clients. -/
def anonymousWorld : World :=
  world (.malformed "")
    { noauth := some ⟨"anonymous", "guests", .zero⟩
      oauth2 := some Go.Table.empty
      mtls := some Go.Table.empty
      nkey := some Go.Table.empty }

/- With OAuth2 the client is not downgraded. -/
theorem neverAnonymous_passwordRequest :
    NeverAnonymous offlineLibraries plainIssuer
      [.oauth2
          ⟨⟨"https://idp/jwks"⟩, "https://idp", "nats",
            ["RS256"]⟩,
        .nkey, .noauth]
      passwordRequest anonymousWorld := by
  have hNew :
      newAuthenticators offlineLibraries oauth2Config =
        .ok
          [.oauth2
              ⟨⟨"https://idp/jwks"⟩, "https://idp",
                "nats", ["RS256"]⟩,
            .nkey, .noauth] := by
    decide
  rw [neverAnonymous_iff_not_downgraded hNew]
  intro hDowngraded
  exact absurd hDowngraded.disabled (by decide)

/- Without OAuth2 it becomes an anonymous one. -/
theorem not_neverAnonymous_passwordRequest :
    newAuthenticators offlineLibraries nkeyOnlyConfig =
        .ok [.nkey, .noauth] ∧
      ¬ NeverAnonymous offlineLibraries plainIssuer
        [.nkey, .noauth] passwordRequest
        anonymousWorld := by
  refine ⟨by decide, fun hNever => ?_⟩
  apply hNever (Or.inr (Or.inl ⟨rfl, by decide⟩))
  exact ⟨⟨"anonymous", "guests", .zero⟩, _, rfl, rfl⟩

end AuthCallout
