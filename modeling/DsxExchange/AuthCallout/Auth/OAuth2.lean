import DsxExchange.AuthCallout.Auth.Request

/-
  Authentication by an OAuth2 token.

  Key definitions include:
    * `AuthCallout.Auth.OAuth2Authenticator`
    * `AuthCallout.Auth.OAuth2Authenticator.tryAuthenticate`
    * `AuthCallout.Auth.Claims.Lists`
    * `AuthCallout.Auth.Matched`
    * `AuthCallout.Auth.OAuth2Authenticator.Presents`

  Key theorems include:
    * `AuthCallout.Auth.hasScope_iff`
    * `AuthCallout.Auth.matched_iff`
    * `AuthCallout.Auth.OAuth2Authenticator.tryAuthenticate_ok_iff`
-/

------------------------------------------------------------
-- The Authenticator
------------------------------------------------------------

namespace AuthCallout

namespace Auth

open Cells Config

/- Checks tokens against the keys of a JWKS endpoint. -/
structure OAuth2Authenticator where
  jwks : Keyfunc
  issuer : String
  audience : String
  signingAlgorithms : List String
deriving DecidableEq, Repr

/- The algorithms a token may be signed with. -/
def supportedOAuth2SigningAlgorithms : List String :=
  ["RS256", "RS384", "RS512",
    "ES256", "ES384", "ES512",
    "PS256", "PS384", "PS512", "EdDSA"]

/- The loop over the configured algorithms. -/
def checkSigningAlgorithms :
    List String → Except String Unit
| [] => .ok ()
| algorithm :: rest =>
    if algorithm ∈ supportedOAuth2SigningAlgorithms then
      checkSigningAlgorithms rest
    else
      .error
        ("unsupported OAuth2 signing algorithm " ++
          Go.quote algorithm)

/- `validateOAuth2SigningAlgorithms`. -/
def validateOAuth2SigningAlgorithms
    (configured : List String) : Except String Unit :=
  if configured = [] then
    .error "OAuth2 signing algorithms are required"
  else
    checkSigningAlgorithms configured

/- `NewOAuth2Authenticator`. -/
def newOAuth2Authenticator
    (libs : Libraries)
    (jwksURL issuer audience : String)
    (signingAlgorithms : List String) :
    Except String OAuth2Authenticator :=
  if issuer = "" then
    .error "OAuth2 issuer is required"
  else if audience = "" then
    .error "OAuth2 audience is required"
  else
    match validateOAuth2SigningAlgorithms
        signingAlgorithms with
    | .error err => .error err
    | .ok () =>
        match libs.newKeyfunc jwksURL with
        | .error err =>
            .error ("failed to create JWKS client: " ++ err)
        | .ok jwks =>
            .ok
              { jwks := jwks
                issuer := issuer
                audience := audience
                signingAlgorithms := signingAlgorithms }

/- The user name that announces a token as the password. -/
def oauthTokenUsername : String := "oauthtoken"

/- `hasScope`. -/
def hasScope
    (scopeStr : String)
    (scopes : List String)
    (required : String) : Bool :=
  if scopeStr ≠ "" then
    (Go.fields scopeStr).contains required
  else
    scopes.contains required

/- The end of `Authenticate`, after its lookup. -/
def checkScope (claims : Claims) :
    Except Go.Fault (Option OAuth2UserProfile) →
      Except Go.Fault UserProfile
| .error fault => .error fault
| .ok none =>
    .error (.error
      ("user not found in permissions config: sub=" ++
        claims.subject ++ ", azp=" ++ claims.azp))
| .ok (some entry) =>
    if hasScope claims.scope claims.scopes
        entry.requiredScope then
      .ok entry.profile
    else
      .error (.error
        ("missing required scope: " ++ entry.requiredScope))

namespace OAuth2Authenticator

/- `CanAuthenticate`. -/
def canAuthenticate (rc : AuthorizationRequest) : Bool :=
  rc.connectOptions.token ≠ "" ||
    (rc.connectOptions.username = oauthTokenUsername &&
      rc.connectOptions.password ≠ "")

/- `Authenticate`. -/
def authenticate
    (libs : Libraries)
    (o : OAuth2Authenticator)
    (token : String) : Lookup UserProfile :=
  match libs.parseWithClaims token o.jwks
      o.signingAlgorithms o.issuer o.audience with
  | .error err => fail ("failed to parse JWT: " ++ err)
  | .ok parsed =>
      if parsed.valid = false then
        fail "invalid JWT token"
      else
        match parsed.claims with
        | none => fail "invalid claims type"
        | some claims =>
            thenReturn
              (getOAuth2Profile claims.subject claims.azp)
              (checkScope claims)

/- The token of a request, empty if there is none. -/
def tokenOf (rc : AuthorizationRequest) : String :=
  if rc.connectOptions.token = "" ∧
      rc.connectOptions.username = oauthTokenUsername then
    rc.connectOptions.password
  else
    rc.connectOptions.token

/- `TryAuthenticate`. -/
def tryAuthenticate
    (libs : Libraries)
    (o : OAuth2Authenticator)
    (rc : AuthorizationRequest) : Lookup UserProfile :=
  let token := tokenOf rc
  if token = "" then
    fail "no OAuth2 token provided"
  else if Go.countByte token '.' ≠ 2 then
    fail "invalid token format"
  else
    thenReturn (authenticate libs o token)
      (Go.wrapError "OAuth2 authentication failed: ")

end OAuth2Authenticator

end Auth

end AuthCallout

------------------------------------------------------------
-- What The Authenticator Accepts
------------------------------------------------------------

namespace AuthCallout

namespace Auth

open Cells Config

/-
  The scope is an element of the token's list: a word of the
  scope claim, or of the scopes claim if that one is empty.
-/
def Claims.Lists (claims : Claims) (scope : String) : Prop :=
  (claims.scope ≠ "" ∧
      Go.IsWord claims.scope.toList scope.toList) ∨
    (claims.scope = "" ∧ scope ∈ claims.scopes)

/-
  The entry that a pair of claims selects: one that names
  both, else one that names the subject only, else one that
  names the authorized party only.
-/
inductive Matched
    (table : Go.Table OAuth2Key OAuth2UserProfile)
    (subject azp : String) : OAuth2UserProfile → Prop
| both {entry}
    (hBoth : table ⟨subject, azp⟩ = some entry) :
    Matched table subject azp entry
| subjectOnly {entry}
    (hBoth : table ⟨subject, azp⟩ = none)
    (hSubject : table ⟨subject, ""⟩ = some entry) :
    Matched table subject azp entry
| azpOnly {entry}
    (hBoth : table ⟨subject, azp⟩ = none)
    (hSubject : table ⟨subject, ""⟩ = none)
    (hAzp : table ⟨"", azp⟩ = some entry) :
    Matched table subject azp entry

/-
  The request carries a token of three parts that verifies
  with these claims.
-/
structure OAuth2Authenticator.Presents
    (libs : Libraries)
    (o : OAuth2Authenticator)
    (rc : AuthorizationRequest)
    (token : String)
    (claims : Claims) : Prop where
  carried :
    token = rc.connectOptions.token ∨
      (rc.connectOptions.token = "" ∧
        rc.connectOptions.username = oauthTokenUsername ∧
          token = rc.connectOptions.password)
  nonempty : token ≠ ""
  dots : Go.countByte token '.' = 2
  verified :
    libs.parseWithClaims token o.jwks o.signingAlgorithms
        o.issuer o.audience =
      .ok ⟨true, some claims⟩

theorem hasScope_iff
    (claims : Claims)
    (required : String) :
    hasScope claims.scope claims.scopes required = true ↔
      claims.Lists required := by
  unfold hasScope Claims.Lists
  by_cases hScope : claims.scope = ""
  · simp [hScope]
  · simp [hScope, Go.mem_fields_iff_isWord]

/- The probes find the selected entry. -/
theorem matched_iff
    {table : Go.Table OAuth2Key OAuth2UserProfile}
    {subject azp : String}
    {entry : OAuth2UserProfile} :
    Matched table subject azp entry ↔
      probeOAuth2 table subject azp = some entry := by
  unfold probeOAuth2
  constructor
  · intro hMatched
    cases hMatched with
    | both hBoth => rw [hBoth]
    | subjectOnly hBoth hSubject => rw [hBoth, hSubject]
    | azpOnly hBoth hSubject hAzp =>
        rw [hBoth, hSubject, hAzp]
  · intro hProbe
    split at hProbe
    · rename_i found hBoth
      cases hProbe
      exact .both hBoth
    · rename_i hBoth
      split at hProbe
      · rename_i found hSubject
        cases hProbe
        exact .subjectOnly hBoth hSubject
      · rename_i hSubject
        exact .azpOnly hBoth hSubject hProbe

theorem checkScope_ok_iff
    {claims : Claims}
    {found : Except Go.Fault (Option OAuth2UserProfile)}
    {profile : UserProfile} :
    checkScope claims found = .ok profile ↔
      ∃ entry,
        found = .ok (some entry) ∧
          claims.Lists entry.requiredScope ∧
            profile = entry.profile := by
  rcases found with fault | (_ | entry)
  · simp [checkScope]
  · simp [checkScope]
  · simp only [checkScope, ← hasScope_iff, Except.ok.injEq,
      Option.some.injEq, exists_eq_left']
    by_cases hScope :
        hasScope claims.scope claims.scopes
          entry.requiredScope = true
    · rw [if_pos hScope, Except.ok.injEq]
      constructor
      · intro hProfile
        exact ⟨hScope, hProfile.symm⟩
      · intro hBoth
        exact hBoth.2.symm
    · rw [if_neg hScope]
      constructor
      · intro hError
        cases hError
      · intro hBoth
        exact absurd hBoth.1 hScope

/- A lookup succeeds in a table that has been stored. -/
theorem getOAuth2Profile_eval_iff
    {subject azp : String}
    {w : World}
    {entry : OAuth2UserProfile} :
    (getOAuth2Profile subject azp).eval w =
        .ok (some entry) ↔
      ∃ table,
        w .oauth2Lookup = some table ∧
          Matched table subject azp entry := by
  simp only [getOAuth2Profile, Query.eval_load,
    Query.eval_done, matched_iff]
  cases w .oauth2Lookup with
  | none => simp
  | some table => simp

namespace OAuth2Authenticator

variable {libs : Libraries} {o : OAuth2Authenticator}
variable {rc : AuthorizationRequest} {w : World}
variable {profile : UserProfile}

theorem authenticate_ok_iff
    {token : String} :
    (authenticate libs o token).eval w = .ok profile ↔
      ∃ claims table entry,
        libs.parseWithClaims token o.jwks
            o.signingAlgorithms o.issuer o.audience =
          .ok ⟨true, some claims⟩ ∧
        w .oauth2Lookup = some table ∧
        Matched table claims.subject claims.azp entry ∧
        claims.Lists entry.requiredScope ∧
        profile = entry.profile := by
  unfold authenticate
  cases hParse :
      libs.parseWithClaims token o.jwks
        o.signingAlgorithms o.issuer o.audience with
  | error err => simp
  | ok parsed =>
      rcases parsed with ⟨_ | _, _ | claims⟩
      · simp
      · simp
      · simp
      · simp only [Bool.true_eq_false, if_false,
          eval_thenReturn, checkScope_ok_iff,
          getOAuth2Profile_eval_iff]
        constructor
        · rintro ⟨entry, ⟨table, hTable, hMatched⟩,
            hLists, hProfile⟩
          exact ⟨claims, table, entry, rfl, hTable,
            hMatched, hLists, hProfile⟩
        · rintro ⟨_, table, entry, ⟨⟩, hTable, hMatched,
            hLists, hProfile⟩
          exact ⟨entry, ⟨table, hTable, hMatched⟩,
            hLists, hProfile⟩

/- The token is the connect token, or else the password. -/
theorem presents_iff
    {token : String}
    {claims : Claims} :
    Presents libs o rc token claims ↔
      token = tokenOf rc ∧ token ≠ "" ∧
        Go.countByte token '.' = 2 ∧
        libs.parseWithClaims token o.jwks
            o.signingAlgorithms o.issuer o.audience =
          .ok ⟨true, some claims⟩ := by
  have hCarried :
      token ≠ "" →
        ((token = rc.connectOptions.token ∨
            (rc.connectOptions.token = "" ∧
              rc.connectOptions.username =
                oauthTokenUsername ∧
              token = rc.connectOptions.password)) ↔
          token = tokenOf rc) := by
    intro hSome
    unfold tokenOf
    split
    · rename_i hPassword
      constructor
      · rintro (hEq | ⟨_, _, hEq⟩)
        · exact absurd (hEq.trans hPassword.1) hSome
        · exact hEq
      · intro hEq
        exact Or.inr ⟨hPassword.1, hPassword.2, hEq⟩
    · rename_i hToken
      constructor
      · rintro (hEq | ⟨hNone, hUser, _⟩)
        · exact hEq
        · exact absurd ⟨hNone, hUser⟩ hToken
      · exact Or.inl
  constructor
  · rintro ⟨hCarries, hSome, hDots, hVerified⟩
    exact ⟨(hCarried hSome).mp hCarries, hSome, hDots,
      hVerified⟩
  · rintro ⟨hToken, hSome, hDots, hVerified⟩
    exact ⟨(hCarried hSome).mpr hToken, hSome, hDots,
      hVerified⟩

/-
  A request is accepted when its token verifies, its claims
  select an entry, and it lists the entry's scope.
-/
theorem tryAuthenticate_ok_iff :
    (tryAuthenticate libs o rc).eval w = .ok profile ↔
      ∃ token claims table entry,
        Presents libs o rc token claims ∧
        w .oauth2Lookup = some table ∧
        Matched table claims.subject claims.azp entry ∧
        claims.Lists entry.requiredScope ∧
        profile = entry.profile := by
  simp only [presents_iff]
  unfold tryAuthenticate
  by_cases hSome : tokenOf rc = ""
  · simp [hSome]
  · by_cases hDots : Go.countByte (tokenOf rc) '.' = 2
    · simp only [hSome, hDots, not_true_eq_false, if_false,
        ne_eq, eval_thenReturn, Go.wrapError_eq_ok_iff,
        authenticate_ok_iff]
      constructor
      · rintro ⟨claims, table, entry, hVerified, hRest⟩
        exact ⟨_, claims, table, entry,
          ⟨rfl, hSome, hDots, hVerified⟩, hRest⟩
      · rintro ⟨_, claims, table, entry,
          ⟨rfl, _, _, hVerified⟩, hRest⟩
        exact ⟨claims, table, entry, hVerified, hRest⟩
    · simp only [hSome, hDots, not_false_eq_true, if_true,
        if_false, ne_eq, eval_fail]
      constructor
      · intro hFail
        cases hFail
      · rintro ⟨_, _, _, _, ⟨rfl, _, hCount, _⟩, _⟩
        exact absurd hCount hDots

/- One request reads the OAuth2 table, once. -/
theorem loadsOnly_tryAuthenticate
    (libs : Libraries)
    (o : OAuth2Authenticator)
    (rc : AuthorizationRequest) :
    (tryAuthenticate libs o rc).LoadsOnly
      .oauth2Lookup := by
  have hAuthenticate :
      ∀ token,
        (authenticate libs o token).LoadsOnly
          .oauth2Lookup := by
    intro token
    unfold authenticate
    split
    · exact loadsOnly_fail _ _
    · split
      · exact loadsOnly_fail _ _
      · split
        · exact loadsOnly_fail _ _
        · apply loadsOnly_thenReturn
          exact Query.LoadsOnly.load _ _
  unfold tryAuthenticate
  dsimp only
  split
  · exact loadsOnly_fail _ _
  · split
    · exact loadsOnly_fail _ _
    · exact loadsOnly_thenReturn (hAuthenticate _) _

end OAuth2Authenticator

end Auth

end AuthCallout
