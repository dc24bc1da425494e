import DsxExchange.AuthCallout.Auth.Authenticator

/-
  The auth-callout service: which authenticators it starts
  with, and how it answers one authorization request.

  Key definitions include:
    * `AuthCallout.newAuthenticators`
    * `AuthCallout.UserClaims`, `AuthCallout.Issuer`
    * `AuthCallout.authorizeRequest`
    * `AuthCallout.handleAuthRequest`
    * `AuthCallout.Issued`

  Key theorems include:
    * `AuthCallout.authorizeRequest_ok_iff`
    * `AuthCallout.issue_ok_iff`
    * `AuthCallout.handleAuthRequest_ok_iff_issued`
    * `AuthCallout.loadsOnly_handleAuthRequest`
-/

------------------------------------------------------------
-- Enabled Authenticators
------------------------------------------------------------

namespace AuthCallout

open Auth

/- The `jwks` section of the service configuration. -/
structure JWKSConfig where
  url : String
  issuer : String
  audience : String
  signingAlgorithms : List String

/- The `mtls` section of the service configuration. -/
structure MTLSConfig where
  caPath : String

/- The sections that decide on the authenticators. -/
structure ServiceConfig where
  jwks : JWKSConfig
  mtls : MTLSConfig

/- A fatal log entry, which ends the process. -/
structure Fatal where
  message : String
  err : String
deriving DecidableEq, Repr

/- The OAuth2 authenticator, if there is a JWKS URL. -/
def newOAuth2
    (libs : Libraries)
    (config : JWKSConfig) :
    Except Fatal (List Authenticator) :=
  if config.url ≠ "" then
    match newOAuth2Authenticator libs config.url
        config.issuer config.audience
        config.signingAlgorithms with
    | .error err =>
        .error
          ⟨"error initializing OAuth2 authenticator", err⟩
    | .ok oauth2Auth => .ok [.oauth2 oauth2Auth]
  else
    .ok []

/- The mTLS authenticator, if there is a CA path. -/
def newMTLS
    (libs : Libraries)
    (config : MTLSConfig) :
    Except Fatal (List Authenticator) :=
  if config.caPath ≠ "" then
    match libs.readFile config.caPath with
    | .error err =>
        .error ⟨"error reading CA certificate", err⟩
    | .ok caPEM =>
        match newMTLSAuthenticator libs caPEM with
        | .error err =>
            .error
              ⟨"error initializing mTLS authenticator", err⟩
        | .ok mtlsAuth => .ok [.mtls mtlsAuth]
  else
    .ok []

/-
  The list of authenticators that `New` builds, in priority
  order, unless it ends the process.
-/
def newAuthenticators
    (libs : Libraries)
    (config : ServiceConfig) :
    Except Fatal (List Authenticator) :=
  match newOAuth2 libs config.jwks with
  | .error err => .error err
  | .ok oauth2Auth =>
      match newMTLS libs config.mtls with
      | .error err => .error err
      | .ok mtlsAuth =>
          .ok (oauth2Auth ++ mtlsAuth ++ [.nkey, .noauth])

end AuthCallout

------------------------------------------------------------
-- User Tokens
------------------------------------------------------------

namespace AuthCallout

open Auth Config

/- The claims of a user token that the service sets. -/
structure UserClaims where
  subject : String
  name : String
  audience : String
  permissions : Permissions
  subs : Int
  data : Int
  payload : Int
deriving DecidableEq, Repr

/- The encoded token, together with its claims. -/
structure UserJWT where
  claims : UserClaims
  encoded : String
deriving DecidableEq, Repr

/-
  The validation of claims, which lists the errors it finds,
  and the encoding with the issuer's key.
-/
structure Issuer where
  validationErrors : UserClaims → List String
  encode : UserClaims → Except String String

/- `jwt.NoLimit`. -/
def noLimit : Int := -1

/- `jwt.NewUserClaims`, which returns nil for no subject. -/
def newUserClaims (subject : String) : Option UserClaims :=
  if subject = "" then
    none
  else
    some
      { subject := subject
        name := ""
        audience := ""
        permissions := .zero
        subs := noLimit
        data := noLimit
        payload := noLimit }

/- The `%v` form of a list of errors. -/
def formatErrors (errs : List String) : String :=
  "[" ++ String.intercalate " " errs ++ "]"

/-
  The end of `handleAuthRequest`: build the claims of a
  profile, validate them and sign them. Setting a field of
  nil claims panics.
-/
def issue
    (issuer : Issuer)
    (userNkey : String)
    (userProfile : UserProfile) :
    Except Go.Fault UserJWT :=
  match newUserClaims userNkey with
  | none => .error .panic
  | some fresh =>
      let uc : UserClaims :=
        { fresh with
          name := userProfile.name
          audience := userProfile.account
          permissions := userProfile.permissions
          subs := -1
          data := -1
          payload := -1 }
      let errs := issuer.validationErrors uc
      if errs.length > 0 then
        .error (.error
          ("error validating claims: " ++
            formatErrors errs))
      else
        match issuer.encode uc with
        | .error err =>
            .error (.error
              ("error signing user JWT: " ++ err))
        | .ok ejwt => .ok ⟨uc, ejwt⟩

end AuthCallout

------------------------------------------------------------
-- Requests
------------------------------------------------------------

namespace AuthCallout

open Auth Config

/-
  The loop over the authenticators. The first one that can
  handle the request decides; its profile is returned with
  the authenticator it came from.
-/
def authorizeRequest (libs : Libraries) :
    List Authenticator → AuthorizationRequest →
      Lookup (Authenticator × UserProfile)
| [], _ =>
    fail
      "no valid authenticator available for provided credentials"
| authenticator :: rest, rc =>
    if authenticator.canAuthenticate rc then
      thenReturn (authenticator.tryAuthenticate libs rc)
        (fun result =>
          (Go.wrapError "authentication failed: "
            result).map (authenticator, ·))
    else
      authorizeRequest libs rest rc

/- `handleAuthRequest`. -/
def handleAuthRequest
    (libs : Libraries)
    (issuer : Issuer)
    (authenticators : List Authenticator)
    (req : AuthorizationRequest) : Lookup UserJWT :=
  thenReturn (authorizeRequest libs authenticators req)
    (fun result =>
      match result with
      | .error fault => .error fault
      | .ok (_, userProfile) =>
          issue issuer req.userNkey userProfile)

end AuthCallout

------------------------------------------------------------
-- What The Service Answers
------------------------------------------------------------

namespace AuthCallout

open Auth Config

/-
  The token names the user's key and carries the name, the
  account and the permissions of the profile, its claims pass
  the validation, and the issuer has encoded them.
-/
structure Issued
    (issuer : Issuer)
    (userNkey : String)
    (profile : UserProfile)
    (token : UserJWT) : Prop where
  subject : userNkey ≠ ""
  claims :
    token.claims =
      { subject := userNkey
        name := profile.name
        audience := profile.account
        permissions := profile.permissions
        subs := -1
        data := -1
        payload := -1 }
  valid : issuer.validationErrors token.claims = []
  signed : issuer.encode token.claims = .ok token.encoded

/- The first authenticator that can handle the request. -/
def firstAccepting
    (authenticators : List Authenticator)
    (req : AuthorizationRequest) : Option Authenticator :=
  authenticators.find? (·.canAuthenticate req)

variable {libs : Libraries} {issuer : Issuer}
variable {authenticators : List Authenticator}
variable {req : AuthorizationRequest} {w : World}

theorem issue_ok_iff
    {userNkey : String}
    {profile : UserProfile}
    {token : UserJWT} :
    issue issuer userNkey profile = .ok token ↔
      Issued issuer userNkey profile token := by
  constructor
  · intro hIssue
    unfold issue newUserClaims at hIssue
    by_cases hSubject : userNkey = ""
    · simp [hSubject] at hIssue
    · simp only [hSubject, if_false] at hIssue
      split at hIssue
      · cases hIssue
      · rename_i hValid
        split at hIssue
        · cases hIssue
        · rename_i ejwt hEncode
          cases hIssue
          exact ⟨hSubject, rfl, by simpa using hValid,
            hEncode⟩
  · rcases token with ⟨claims, encoded⟩
    rintro ⟨hSubject, hClaims, hValid, hSigned⟩
    dsimp only at hClaims
    subst hClaims
    simp only [issue, newUserClaims, hSubject, if_false,
      hValid, hSigned, List.length_nil, gt_iff_lt,
      Nat.lt_irrefl]

theorem map_pair_ok_iff
    {α β ε : Type}
    {result : Except ε β}
    {x a : α}
    {b : β} :
    result.map (x, ·) = .ok (a, b) ↔
      x = a ∧ result = .ok b := by
  cases result <;> simp [Except.map]

/- The first accepting authenticator alone decides. -/
theorem authorizeRequest_ok_iff
    {a : Authenticator}
    {profile : UserProfile} :
    (authorizeRequest libs authenticators req).eval w =
        .ok (a, profile) ↔
      firstAccepting authenticators req = some a ∧
        a.Grants libs w req profile := by
  induction authenticators with
  | nil => simp [authorizeRequest, firstAccepting]
  | cons b rest ih =>
      rw [authorizeRequest, firstAccepting, List.find?_cons]
      cases hAccepts : b.canAuthenticate req with
      | false =>
          rw [if_neg Bool.false_ne_true]
          exact ih
      | true =>
          simp only [if_true, eval_thenReturn,
            map_pair_ok_iff, Go.wrapError_eq_ok_iff,
            Authenticator.tryAuthenticate_ok_iff,
            Option.some.injEq]
          constructor
          · rintro ⟨rfl, hGrants⟩
            exact ⟨rfl, hGrants⟩
          · rintro ⟨rfl, hGrants⟩
            exact ⟨rfl, hGrants⟩

/- A token is issued for what the loop has found. -/
theorem handleAuthRequest_ok_iff_issued
    {token : UserJWT} :
    (handleAuthRequest libs issuer authenticators req).eval
        w = .ok token ↔
      ∃ a profile,
        (authorizeRequest libs authenticators req).eval w =
            .ok (a, profile) ∧
          Issued issuer req.userNkey profile token := by
  rw [handleAuthRequest, eval_thenReturn]
  cases (authorizeRequest libs authenticators req).eval w
    with
  | error fault => simp
  | ok found =>
      simp only [issue_ok_iff, Except.ok.injEq]
      constructor
      · intro hIssued
        exact ⟨found.1, found.2, rfl, hIssued⟩
      · rintro ⟨a, profile, rfl, hIssued⟩
        exact hIssued

/-
  One request reads the pointer of the authenticator that
  decides on it, once, and no other.
-/
theorem loadsOnly_handleAuthRequest
    (libs : Libraries)
    (issuer : Issuer)
    {a : Authenticator}
    (hFirst : firstAccepting authenticators req = some a) :
    (handleAuthRequest libs issuer authenticators
      req).LoadsOnly a.cell := by
  apply loadsOnly_thenReturn
  induction authenticators with
  | nil => cases hFirst
  | cons b rest ih =>
      rw [firstAccepting, List.find?_cons] at hFirst
      unfold authorizeRequest
      cases hAccepts : b.canAuthenticate req with
      | false =>
          rw [hAccepts] at hFirst
          rw [if_neg Bool.false_ne_true]
          exact ih hFirst
      | true =>
          rw [hAccepts] at hFirst
          cases hFirst
          rw [if_pos rfl]
          exact loadsOnly_thenReturn
            (Authenticator.loadsOnly_tryAuthenticate libs _ req) _

/- A request that no authenticator accepts reads nothing. -/
theorem handleAuthRequest_of_none
    (libs : Libraries)
    (issuer : Issuer)
    (hNone : firstAccepting authenticators req = none) :
    handleAuthRequest libs issuer authenticators req =
      fail
        "no valid authenticator available for provided credentials" := by
  have hLoop :
      authorizeRequest libs authenticators req =
        fail
          "no valid authenticator available for provided credentials" := by
    induction authenticators with
    | nil => rfl
    | cons b rest ih =>
        rw [firstAccepting, List.find?_cons] at hNone
        cases hAccepts : b.canAuthenticate req with
        | false =>
            rw [hAccepts] at hNone
            rw [authorizeRequest, hAccepts,
              if_neg Bool.false_ne_true]
            exact ih hNone
        | true =>
            rw [hAccepts] at hNone
            cases hNone
  rw [handleAuthRequest, hLoop]
  rfl

end AuthCallout
