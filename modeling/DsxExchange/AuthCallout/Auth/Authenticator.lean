import DsxExchange.AuthCallout.Auth.OAuth2
import DsxExchange.AuthCallout.Auth.MTLS
import DsxExchange.AuthCallout.Auth.NKey

/-
  The fallback for requests without credentials, and the
  interface that all four authenticators implement.

  Key definitions include:
    * `AuthCallout.Auth.NoAuthAuthenticator.tryAuthenticate`
    * `AuthCallout.Auth.Authenticator`
    * `AuthCallout.Auth.Authenticator.cell`
    * `AuthCallout.Auth.Authenticator.Grants`

  Key theorems include:
    * `AuthCallout.Auth.Authenticator.tryAuthenticate_ok_iff`
    * `AuthCallout.Auth.Authenticator.loadsOnly_tryAuthenticate`
-/

------------------------------------------------------------
-- Requests Without Credentials
------------------------------------------------------------

namespace AuthCallout

namespace Auth

open Cells Config

namespace NoAuthAuthenticator

/- `CanAuthenticate`. -/
def canAuthenticate (rc : AuthorizationRequest) : Bool :=
  let hasOAuth2 := rc.connectOptions.token ≠ ""
  let hasMTLS := rc.hasVerifiedChain
  let hasNKey := rc.connectOptions.nkey ≠ ""
  !hasOAuth2 && !hasMTLS && !hasNKey

/- The end of `TryAuthenticate`, after its lookup. -/
def checkNoAuthUser :
    Option UserProfile → Except Go.Fault UserProfile
| none => .error (.error "noauth not configured")
| some profile => .ok profile

/- `TryAuthenticate`. -/
def tryAuthenticate
    (rc : AuthorizationRequest) : Lookup UserProfile :=
  let hasOAuth2 : Bool := rc.connectOptions.token ≠ ""
  let hasMTLS := rc.hasVerifiedChain
  let hasNKey : Bool := rc.connectOptions.nkey ≠ ""
  if hasOAuth2 || hasMTLS || hasNKey then
    fail "credentials provided but noauth was attempted"
  else
    thenReturn getNoAuthProfile checkNoAuthUser

/- The guard accepts requests without these three fields. -/
theorem canAuthenticate_iff
    {rc : AuthorizationRequest} :
    canAuthenticate rc = true ↔
      rc.connectOptions.token = "" ∧
        rc.hasVerifiedChain = false ∧
          rc.connectOptions.nkey = "" := by
  simp [canAuthenticate, and_assoc]

/- Both copies of the guard agree. -/
theorem tryAuthenticate_ok_iff
    {rc : AuthorizationRequest}
    {w : World}
    {profile : UserProfile} :
    (tryAuthenticate rc).eval w = .ok profile ↔
      canAuthenticate rc = true ∧
        w .noauthProfile = some profile := by
  have hCheck :
      ∀ found,
        checkNoAuthUser found = .ok profile ↔
          found = some profile := by
    intro found
    cases found <;> simp [checkNoAuthUser]
  rw [canAuthenticate_iff]
  unfold tryAuthenticate
  dsimp only
  split
  · rename_i hPresent
    constructor
    · intro hFail
      cases hFail
    · rintro ⟨⟨hToken, hChain, hKey⟩, _⟩
      simp [hToken, hChain, hKey] at hPresent
  · rename_i hAbsent
    rw [eval_thenReturn, hCheck]
    simp only [Bool.or_eq_true, decide_eq_true_eq,
      not_or, ne_eq, not_not, Bool.not_eq_true] at hAbsent
    simp [hAbsent, getNoAuthProfile]

/- One request reads the anonymous profile, once. -/
theorem loadsOnly_tryAuthenticate
    (rc : AuthorizationRequest) :
    (tryAuthenticate rc).LoadsOnly .noauthProfile := by
  unfold tryAuthenticate
  dsimp only
  split
  · exact loadsOnly_fail _ _
  · apply loadsOnly_thenReturn
    exact Query.LoadsOnly.load Cell.noauthProfile _

end NoAuthAuthenticator

end Auth

end AuthCallout

------------------------------------------------------------
-- The Interface
------------------------------------------------------------

namespace AuthCallout

namespace Auth

open Cells Config

/- The implementations of the interface. -/
inductive Authenticator where
  | oauth2 (o : OAuth2Authenticator)
  | mtls (m : MTLSAuthenticator)
  | nkey
  | noauth
deriving DecidableEq, Repr

namespace Authenticator

/- `CanAuthenticate`. -/
def canAuthenticate :
    Authenticator → AuthorizationRequest → Bool
| .oauth2 _, rc => OAuth2Authenticator.canAuthenticate rc
| .mtls _, rc => MTLSAuthenticator.canAuthenticate rc
| .nkey, rc => NKeyAuthenticator.canAuthenticate rc
| .noauth, rc => NoAuthAuthenticator.canAuthenticate rc

/- `TryAuthenticate`. -/
def tryAuthenticate (libs : Libraries) :
    Authenticator → AuthorizationRequest →
      Lookup UserProfile
| .oauth2 o, rc =>
    OAuth2Authenticator.tryAuthenticate libs o rc
| .mtls m, rc => MTLSAuthenticator.tryAuthenticate libs m rc
| .nkey, rc => NKeyAuthenticator.tryAuthenticate libs rc
| .noauth, rc => NoAuthAuthenticator.tryAuthenticate rc

/- The pointer that the authenticator reads. -/
def cell : Authenticator → Cell
| .oauth2 _ => .oauth2Lookup
| .mtls _ => .mtlsLookup
| .nkey => .nkeyLookup
| .noauth => .noauthProfile

/-
  The request proves an identity to the authenticator, and
  this is the profile configured for it.
-/
def Grants
    (libs : Libraries)
    (w : World)
    (rc : AuthorizationRequest)
    (profile : UserProfile) : Authenticator → Prop
| .oauth2 o =>
    ∃ token claims table entry,
      o.Presents libs rc token claims ∧
      w .oauth2Lookup = some table ∧
      Matched table claims.subject claims.azp entry ∧
      claims.Lists entry.requiredScope ∧
      profile = entry.profile
| .mtls m =>
    ∃ cert table,
      m.Presents libs rc cert ∧
      w .mtlsLookup = some table ∧
      table (extractIdentity cert) = some profile
| .nkey =>
    ∃ table,
      NKeyAuthenticator.Signs libs rc ∧
      w .nkeyLookup = some table ∧
      table rc.connectOptions.nkey = some profile
| .noauth =>
    NoAuthAuthenticator.canAuthenticate rc = true ∧
      w .noauthProfile = some profile

theorem tryAuthenticate_ok_iff
    {libs : Libraries}
    {a : Authenticator}
    {rc : AuthorizationRequest}
    {w : World}
    {profile : UserProfile} :
    (a.tryAuthenticate libs rc).eval w = .ok profile ↔
      a.Grants libs w rc profile := by
  cases a with
  | oauth2 o =>
      exact OAuth2Authenticator.tryAuthenticate_ok_iff
  | mtls m =>
      exact MTLSAuthenticator.tryAuthenticate_ok_iff
  | nkey => exact NKeyAuthenticator.tryAuthenticate_ok_iff
  | noauth =>
      exact NoAuthAuthenticator.tryAuthenticate_ok_iff

/- An authenticator reads one pointer, once. -/
theorem loadsOnly_tryAuthenticate
    (libs : Libraries)
    (a : Authenticator)
    (rc : AuthorizationRequest) :
    (a.tryAuthenticate libs rc).LoadsOnly a.cell := by
  cases a with
  | oauth2 o =>
      exact
        OAuth2Authenticator.loadsOnly_tryAuthenticate
          libs o rc
  | mtls m =>
      exact
        MTLSAuthenticator.loadsOnly_tryAuthenticate
          libs m rc
  | nkey =>
      exact
        NKeyAuthenticator.loadsOnly_tryAuthenticate libs rc
  | noauth =>
      exact
        NoAuthAuthenticator.loadsOnly_tryAuthenticate rc

end Authenticator

end Auth

end AuthCallout
