import DsxExchange.AuthCallout.Auth.Request

/-
  Authentication by a TLS client certificate.

  Key definitions include:
    * `AuthCallout.Auth.MTLSAuthenticator`
    * `AuthCallout.Auth.extractIdentity`
    * `AuthCallout.Auth.MTLSAuthenticator.tryAuthenticate`
    * `AuthCallout.Auth.MTLSAuthenticator.Presents`

  Key theorems include:
    * `AuthCallout.Auth.MTLSAuthenticator.tryAuthenticate_ok_iff`
-/

------------------------------------------------------------
-- The Authenticator
------------------------------------------------------------

namespace AuthCallout

namespace Auth

open Cells Config

/- Checks client certificates against a pool of CAs. -/
structure MTLSAuthenticator where
  caPool : CertPool
deriving DecidableEq, Repr

/- `NewMTLSAuthenticator`. -/
def newMTLSAuthenticator
    (libs : Libraries)
    (caPEM : String) : Except String MTLSAuthenticator :=
  if caPEM ≠ "" then
    let caPool := libs.certsFromPEM caPEM
    if caPool = [] then
      .error "failed to parse CA certificate"
    else
      .ok ⟨caPool⟩
  else
    .ok ⟨[]⟩

/- `formatDN`. -/
def formatDN (field value : String) : String :=
  field ++ "=" ++ value

/- `extractIdentity`. -/
def extractIdentity (cert : Certificate) : String :=
  if cert.commonName ≠ "" then
    formatDN "CN" cert.commonName
  else
    match cert.emailAddresses with
    | email :: _ => email
    | [] =>
        match cert.dnsNames with
        | dnsName :: _ => dnsName
        | [] =>
            match cert.organization with
            | organization :: _ => formatDN "O" organization
            | [] =>
                match cert.organizationalUnit with
                | unit :: _ => formatDN "OU" unit
                | [] => ""

/- `parseCertificate`. -/
def parseCertificate
    (libs : Libraries)
    (certPEM : String) : Except String Certificate :=
  match libs.pemDecode certPEM with
  | none => .error "failed to decode PEM block"
  | some block =>
      match libs.parseCertificate block with
      | .error err =>
          .error ("failed to parse certificate: " ++ err)
      | .ok cert => .ok cert

/- The end of `Authenticate`, after its lookup. -/
def checkMTLSUser (identity : String) :
    Except Go.Fault (Option UserProfile) →
      Except Go.Fault UserProfile
| .error fault => .error fault
| .ok none =>
    .error (.error
      ("user not found in permissions config: " ++
        identity))
| .ok (some profile) => .ok profile

namespace MTLSAuthenticator

/- `CanAuthenticate`. -/
def canAuthenticate (rc : AuthorizationRequest) : Bool :=
  rc.hasVerifiedChain

/- The check of the certificate, if there is a pool. -/
def verifyCertificate
    (libs : Libraries)
    (m : MTLSAuthenticator)
    (cert : Certificate) : Except String Unit :=
  if m.caPool.length > 0 then
    libs.verify cert m.caPool
  else
    .ok ()

/- `Authenticate`. -/
def authenticate
    (libs : Libraries)
    (m : MTLSAuthenticator)
    (certPEM : String) : Lookup UserProfile :=
  match parseCertificate libs certPEM with
  | .error err =>
      fail ("failed to parse certificate: " ++ err)
  | .ok cert =>
      match verifyCertificate libs m cert with
      | .error err =>
          fail ("certificate validation failed: " ++ err)
      | .ok () =>
          let identity := extractIdentity cert
          if identity = "" then
            fail
              "could not extract identity from certificate"
          else
            thenReturn (getMTLSProfile identity)
              (checkMTLSUser identity)

/- `TryAuthenticate`. -/
def tryAuthenticate
    (libs : Libraries)
    (m : MTLSAuthenticator)
    (rc : AuthorizationRequest) : Lookup UserProfile :=
  match rc.tls with
  | none => fail "no TLS client certificate provided"
  | some tls =>
      match tls.verifiedChains with
      | [] => fail "no TLS client certificate provided"
      | [] :: _ => fail "empty certificate chain"
      | (certPEM :: _) :: _ =>
          thenReturn (authenticate libs m certPEM)
            (Go.wrapError "mTLS authentication failed: ")

end MTLSAuthenticator

end Auth

end AuthCallout

------------------------------------------------------------
-- What The Authenticator Accepts
------------------------------------------------------------

namespace AuthCallout

namespace Auth

open Cells Config

/-
  The leaf of the first verified chain parses, verifies
  against the pool unless that is empty, and has an identity.
-/
structure MTLSAuthenticator.Presents
    (libs : Libraries)
    (m : MTLSAuthenticator)
    (rc : AuthorizationRequest)
    (cert : Certificate) : Prop where
  leaf :
    ∃ tls certPEM intermediates chains block,
      rc.tls = some tls ∧
      tls.verifiedChains =
        (certPEM :: intermediates) :: chains ∧
      libs.pemDecode certPEM = some block ∧
      libs.parseCertificate block = .ok cert
  verified :
    m.caPool ≠ [] → libs.verify cert m.caPool = .ok ()
  identity : extractIdentity cert ≠ ""

theorem parseCertificate_ok_iff
    {libs : Libraries}
    {certPEM : String}
    {cert : Certificate} :
    parseCertificate libs certPEM = .ok cert ↔
      ∃ block,
        libs.pemDecode certPEM = some block ∧
          libs.parseCertificate block = .ok cert := by
  unfold parseCertificate
  cases hBlock : libs.pemDecode certPEM with
  | none => simp
  | some block =>
      cases hCert : libs.parseCertificate block <;>
        simp [hCert]

theorem checkMTLSUser_ok_iff
    {identity : String}
    {found : Except Go.Fault (Option UserProfile)}
    {profile : UserProfile} :
    checkMTLSUser identity found = .ok profile ↔
      found = .ok (some profile) := by
  rcases found with fault | (_ | other) <;>
    simp [checkMTLSUser]

/- A lookup succeeds in a table that has been stored. -/
theorem getMTLSProfile_eval_iff
    {identity : String}
    {w : World}
    {profile : UserProfile} :
    (getMTLSProfile identity).eval w =
        .ok (some profile) ↔
      ∃ table,
        w .mtlsLookup = some table ∧
          table identity = some profile := by
  simp only [getMTLSProfile, Query.eval_load,
    Query.eval_done]
  cases w .mtlsLookup with
  | none => simp
  | some table => simp

namespace MTLSAuthenticator

variable {libs : Libraries} {m : MTLSAuthenticator}
variable {rc : AuthorizationRequest} {w : World}
variable {profile : UserProfile}

theorem verifyCertificate_ok_iff
    {cert : Certificate} :
    verifyCertificate libs m cert = .ok () ↔
      (m.caPool ≠ [] →
        libs.verify cert m.caPool = .ok ()) := by
  unfold verifyCertificate
  by_cases hPool : m.caPool = []
  · simp [hPool]
  · simp [List.length_pos_iff, hPool]

theorem authenticate_ok_iff
    {certPEM : String} :
    (authenticate libs m certPEM).eval w = .ok profile ↔
      ∃ cert table,
        parseCertificate libs certPEM = .ok cert ∧
        (m.caPool ≠ [] →
          libs.verify cert m.caPool = .ok ()) ∧
        extractIdentity cert ≠ "" ∧
        w .mtlsLookup = some table ∧
        table (extractIdentity cert) = some profile := by
  unfold authenticate
  cases hParse : parseCertificate libs certPEM with
  | error err => simp
  | ok cert =>
      simp only [← verifyCertificate_ok_iff,
        Except.ok.injEq, exists_and_left, exists_eq_left']
      cases hVerify : verifyCertificate libs m cert with
      | error err => simp
      | ok _ =>
          by_cases hIdentity : extractIdentity cert = ""
          · simp [hIdentity]
          · simp [hIdentity, checkMTLSUser_ok_iff,
              getMTLSProfile_eval_iff]

/-
  A request is accepted when its leaf certificate passes and
  the table has an entry for its identity.
-/
theorem tryAuthenticate_ok_iff :
    (tryAuthenticate libs m rc).eval w = .ok profile ↔
      ∃ cert table,
        Presents libs m rc cert ∧
        w .mtlsLookup = some table ∧
        table (extractIdentity cert) = some profile := by
  constructor
  · intro hOk
    unfold tryAuthenticate at hOk
    split at hOk
    · cases hOk
    · rename_i tls hTLS
      split at hOk
      · cases hOk
      · cases hOk
      · rename_i certPEM intermediates chains hChains
        rw [eval_thenReturn, Go.wrapError_eq_ok_iff,
          authenticate_ok_iff] at hOk
        rcases hOk with
          ⟨cert, table, hParse, hVerified, hIdentity,
            hTable, hProfile⟩
        rcases parseCertificate_ok_iff.mp hParse with
          ⟨block, hBlock, hCert⟩
        exact ⟨cert, table,
          ⟨⟨tls, certPEM, intermediates, chains, block,
              hTLS, hChains, hBlock, hCert⟩,
            hVerified, hIdentity⟩,
          hTable, hProfile⟩
  · rintro ⟨cert, table, hPresents, hTable, hProfile⟩
    rcases hPresents.leaf with
      ⟨tls, certPEM, intermediates, chains, block, hTLS,
        hChains, hBlock, hCert⟩
    simp only [tryAuthenticate, hTLS, hChains,
      eval_thenReturn, Go.wrapError_eq_ok_iff,
      authenticate_ok_iff]
    exact ⟨cert, table,
      parseCertificate_ok_iff.mpr ⟨block, hBlock, hCert⟩,
      hPresents.verified, hPresents.identity, hTable,
      hProfile⟩

/- One request reads the mTLS table, once. -/
theorem loadsOnly_tryAuthenticate
    (libs : Libraries)
    (m : MTLSAuthenticator)
    (rc : AuthorizationRequest) :
    (tryAuthenticate libs m rc).LoadsOnly .mtlsLookup := by
  have hAuthenticate :
      ∀ certPEM,
        (authenticate libs m certPEM).LoadsOnly
          .mtlsLookup := by
    intro certPEM
    unfold authenticate
    split
    · exact loadsOnly_fail _ _
    · split
      · exact loadsOnly_fail _ _
      · dsimp only
        split
        · exact loadsOnly_fail _ _
        · apply loadsOnly_thenReturn
          exact Query.LoadsOnly.load _ _
  unfold tryAuthenticate
  split
  · exact loadsOnly_fail _ _
  · split
    · exact loadsOnly_fail _ _
    · exact loadsOnly_fail _ _
    · exact loadsOnly_thenReturn (hAuthenticate _) _

end MTLSAuthenticator

end Auth

end AuthCallout
