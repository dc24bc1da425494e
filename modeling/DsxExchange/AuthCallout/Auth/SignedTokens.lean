import DsxExchange.AuthCallout.Decision
import DsxExchange.Go.Base64
import DsxExchange.Jwt.KeySet

/-
  Which signed tokens the OAuth2 authenticator accepts: the
  call into the library, with the options it is given, and
  the keys of the endpoint.

  Key definitions include:
    * `AuthCallout.Auth.TokenClaims`
    * `AuthCallout.Auth.OAuth2Authenticator.parser`
    * `AuthCallout.Auth.TokenWorld`
    * `AuthCallout.Auth.OAuth2Authenticator.Allows`
    * `AuthCallout.Auth.OAuth2Authenticator.Bears`

  Key theorems include:
    * `AuthCallout.Auth.OAuth2Authenticator.validate_parser_iff`
    * `AuthCallout.Auth.OAuth2Authenticator.bearer_ok_iff`
    * `AuthCallout.Auth.OAuth2Authenticator.signed_of_parsed`
-/

------------------------------------------------------------
-- The Call Into The Library
------------------------------------------------------------

namespace AuthCallout

namespace Auth

/- `Claims`, with the registered claims it embeds. -/
structure TokenClaims where
  registered : Jwt.RegisteredClaims
  scope : String
  scopes : List String
  azp : String
deriving DecidableEq, Repr

instance : Jwt.Claims TokenClaims :=
  Jwt.embeddedClaims TokenClaims.registered

/- The claims that are read after the validation. -/
def TokenClaims.toClaims (claims : TokenClaims) : Claims where
  subject := claims.registered.subject
  scope := claims.scope
  scopes := claims.scopes
  azp := claims.azp

/- The options that `Authenticate` gives. -/
def tokenParser
    (signingAlgorithms : List String)
    (issuer audience : String) : Jwt.Parser :=
  Jwt.newParser
    [Jwt.withValidMethods signingAlgorithms,
      Jwt.withExpirationRequired, Jwt.withIssuer issuer,
      Jwt.withAudience [audience]]

def OAuth2Authenticator.parser
    (o : OAuth2Authenticator) : Jwt.Parser :=
  tokenParser o.signingAlgorithms o.issuer o.audience

/- What a call of the library depends on besides. -/
structure TokenWorld where
  decoders : Jwt.Decoders TokenClaims
  crypto : Jwt.Crypto
  memory : Keyfunc → Cells.Memory Jwt.KeyCell.Contents
  limiter : Except String Unit
  now : ℤ

/- The fields of the library's token that are read. -/
def parsedToken :
    Except String (Jwt.Token TokenClaims) → Except String Token
| .error err => .error err
| .ok token => .ok ⟨token.valid, some token.claims.toClaims⟩

/- `jwt.ParseWithClaims`, as `Authenticate` calls it. -/
def TokenWorld.parseWithClaims
    (world : TokenWorld)
    (tokenString : String)
    (jwks : Keyfunc)
    (signingAlgorithms : List String)
    (issuer audience : String) : Except String Token :=
  parsedToken
    ((Jwt.parseProgram
      (tokenParser signingAlgorithms issuer audience)
      world.decoders world.crypto
      ⟨world.limiter, world.now, tokenString⟩).run
        (world.memory jwks)).1

end Auth

end AuthCallout

------------------------------------------------------------
-- Validated Claims
------------------------------------------------------------

namespace AuthCallout

namespace Auth

namespace OAuth2Authenticator

/-
  The claims of a token that is valid at a time: it has not
  expired, has begun, and is for the configured issuer and
  audience.
-/
structure Allows
    (o : OAuth2Authenticator)
    (now : ℤ)
    (claims : Jwt.RegisteredClaims) : Prop where
  expires : ∃ exp, claims.expiresAt = some exp ∧ now < exp
  begun : ∀ nbf, claims.notBefore = some nbf → nbf ≤ now
  issuer : claims.issuer = o.issuer
  audience : o.audience ∈ claims.audience

variable {o : OAuth2Authenticator}

theorem verifyExpiresAt_ok_iff
    {claims : TokenClaims}
    {now : ℤ} :
    o.parser.validator.verifyExpiresAt claims now true =
        .ok () ↔
      ∃ exp,
        claims.registered.expiresAt = some exp ∧
          now < exp := by
  have hGet :
      Jwt.Claims.getExpirationTime claims =
        .ok claims.registered.expiresAt :=
    rfl
  unfold Jwt.Validator.verifyExpiresAt
  rw [hGet]
  cases claims.registered.expiresAt with
  | none => simp [Jwt.errorIfRequired]
  | some exp =>
      simp [Jwt.errorIfFalse, parser, tokenParser,
        Jwt.newParser, Jwt.withValidMethods,
        Jwt.withExpirationRequired, Jwt.withIssuer,
        Jwt.withAudience]

theorem verifyNotBefore_ok_iff
    {claims : TokenClaims}
    {now : ℤ} :
    o.parser.validator.verifyNotBefore claims now false =
        .ok () ↔
      ∀ nbf,
        claims.registered.notBefore = some nbf →
          nbf ≤ now := by
  have hGet :
      Jwt.Claims.getNotBefore claims =
        .ok claims.registered.notBefore :=
    rfl
  unfold Jwt.Validator.verifyNotBefore
  rw [hGet]
  cases claims.registered.notBefore with
  | none => simp [Jwt.errorIfRequired]
  | some nbf =>
      simp [Jwt.errorIfFalse, parser, tokenParser,
        Jwt.newParser, Jwt.withValidMethods,
        Jwt.withExpirationRequired, Jwt.withIssuer,
        Jwt.withAudience]

theorem verifyIssuer_ok_iff
    (hIssuer : o.issuer ≠ "")
    {claims : TokenClaims} :
    Jwt.Validator.verifyIssuer claims o.issuer true =
        .ok () ↔
      claims.registered.issuer = o.issuer := by
  have hGet :
      Jwt.Claims.getIssuer claims =
        .ok claims.registered.issuer :=
    rfl
  unfold Jwt.Validator.verifyIssuer
  rw [hGet]
  by_cases hMissing : claims.registered.issuer = ""
  · simp [hMissing, Jwt.errorIfRequired, Ne.symm hIssuer]
  · simp [hMissing, Jwt.errorIfFalse]

theorem verifyAudience_ok_iff
    (hAudience : o.audience ≠ "")
    {claims : TokenClaims} :
    o.parser.validator.verifyAudience claims [o.audience]
        false = .ok () ↔
      o.audience ∈ claims.registered.audience := by
  have hGet :
      Jwt.Claims.getAudience claims =
        .ok claims.registered.audience :=
    rfl
  have hExpected :
      o.parser.validator.expectedAud = [o.audience] :=
    rfl
  unfold Jwt.Validator.verifyAudience
  rw [hGet, hExpected]
  dsimp only
  split
  · rename_i hMissing
    rcases hMissing with hNone | hEmpty
    · simp [hNone, Jwt.errorIfRequired]
    · simp [hEmpty, Jwt.errorIfRequired, hAudience]
  · simp

/- All checks of the parser that `Authenticate` builds. -/
theorem validate_parser_iff
    (hIssuer : o.issuer ≠ "")
    (hAudience : o.audience ≠ "")
    (now : ℤ)
    (claims : TokenClaims) :
    o.parser.validator.validate now claims = .ok () ↔
      o.Allows now claims.registered := by
  have hChecks :
      o.parser.validator.checks now claims =
        [o.parser.validator.verifyExpiresAt claims now true,
          o.parser.validator.verifyNotBefore claims now false,
          o.parser.validator.verifyAudience claims
            [o.audience] false,
          Jwt.Validator.verifyIssuer claims o.issuer true] := by
    simp [Jwt.Validator.checks, parser, tokenParser,
      Jwt.newParser, Jwt.withValidMethods,
      Jwt.withExpirationRequired, Jwt.withIssuer,
      Jwt.withAudience, hIssuer, Jwt.Claims.validate?]
  rw [Jwt.Validator.validate_ok_iff, hChecks]
  simp only [List.forall_mem_cons, List.not_mem_nil,
    false_imp_iff, implies_true, and_true,
    verifyExpiresAt_ok_iff, verifyNotBefore_ok_iff,
    verifyAudience_ok_iff hAudience,
    verifyIssuer_ok_iff hIssuer]
  constructor
  · intro hAll
    exact ⟨hAll.1, hAll.2.1, hAll.2.2.2, hAll.2.2.1⟩
  · intro hAllows
    exact ⟨hAllows.expires, hAllows.begun, hAllows.audience,
      hAllows.issuer⟩

end OAuth2Authenticator

end Auth

end AuthCallout

------------------------------------------------------------
-- What A Constructed Authenticator Has
------------------------------------------------------------

namespace AuthCallout

namespace Auth

/- The settings that the constructor has checked. -/
structure OAuth2Authenticator.Checked
    (o : OAuth2Authenticator) : Prop where
  issuer : o.issuer ≠ ""
  audience : o.audience ≠ ""
  algorithms :
    ∀ algorithm ∈ o.signingAlgorithms,
      algorithm ∈ supportedOAuth2SigningAlgorithms

theorem checkSigningAlgorithms_ok
    {configured : List String}
    (hOk : checkSigningAlgorithms configured = .ok ()) :
    ∀ algorithm ∈ configured,
      algorithm ∈ supportedOAuth2SigningAlgorithms := by
  induction configured with
  | nil => simp
  | cons algorithm rest ih =>
      unfold checkSigningAlgorithms at hOk
      split at hOk
      · rename_i hSupported
        exact List.forall_mem_cons.mpr ⟨hSupported, ih hOk⟩
      · cases hOk

theorem checked_of_new
    {libs : Libraries}
    {jwksURL issuer audience : String}
    {signingAlgorithms : List String}
    {o : OAuth2Authenticator}
    (hNew :
      newOAuth2Authenticator libs jwksURL issuer audience
        signingAlgorithms = .ok o) :
    o.Checked := by
  unfold newOAuth2Authenticator at hNew
  split at hNew
  · cases hNew
  rename_i hIssuer
  split at hNew
  · cases hNew
  rename_i hAudience
  split at hNew
  · cases hNew
  rename_i hAlgorithms
  split at hNew
  · cases hNew
  cases hNew
  refine ⟨hIssuer, hAudience, ?_⟩
  unfold validateOAuth2SigningAlgorithms at hAlgorithms
  split at hAlgorithms
  · cases hAlgorithms
  · exact checkSigningAlgorithms_ok hAlgorithms

/- None of the supported algorithms shares a secret. -/
theorem not_hmac_of_supported
    {method : Jwt.SigningMethod}
    (hSupported :
      method.alg ∈ supportedOAuth2SigningAlgorithms)
    (hash : Jwt.Hash) :
    method ≠ .hmac hash := by
  intro hEq
  rw [hEq] at hSupported
  cases hash with
  | sha256 => exact absurd hSupported (by decide)
  | sha384 => exact absurd hSupported (by decide)
  | sha512 => exact absurd hSupported (by decide)

end Auth

end AuthCallout

------------------------------------------------------------
-- Accepted Bearers
------------------------------------------------------------

namespace AuthCallout

namespace Auth

open Cells Config

namespace OAuth2Authenticator

/-
  The request carries the token, a key that is offered for its
  header has signed it with a configured algorithm, and its
  claims are valid at the time.
-/
structure Bears
    (o : OAuth2Authenticator)
    (world : TokenWorld)
    (rc : AuthorizationRequest)
    (token : Jwt.Token TokenClaims) : Prop where
  carried : token.raw = tokenOf rc
  listed : token.method.alg ∈ o.signingAlgorithms
  signed :
    ∃ parts key,
      Jwt.Parser.Decodes world.decoders parts token ∧
        Jwt.Offered world.limiter (world.memory o.jwks)
          token.header key ∧
        key.isPublic = true ∧
        token.method.Accepts world.crypto
          (Go.join [parts.1, parts.2.1] '.') token.signature
          key
  allowed : o.Allows world.now token.claims.registered

variable {o : OAuth2Authenticator} {world : TokenWorld}

/- What `ParseWithClaims` returns to the authenticator. -/
theorem parseWithClaims_ok_iff
    {tokenString : String}
    {claims : Claims} :
    world.parseWithClaims tokenString o.jwks
        o.signingAlgorithms o.issuer o.audience =
      .ok ⟨true, some claims⟩ ↔
      ∃ token : Jwt.Token TokenClaims,
        token.raw = tokenString ∧
          token.claims.toClaims = claims ∧
          ∃ parts,
            o.parser.Verifies world.decoders world.crypto
              world.now
              (fun header =>
                ((Jwt.keyfunc world.limiter header).run
                  (world.memory o.jwks)).1)
              parts token := by
  unfold TokenWorld.parseWithClaims
  rw [Jwt.run_parseProgram]
  change parsedToken (o.parser.parseWithClaims _ _ _ _ _) =
    _ ↔ _
  constructor
  · intro hParsed
    cases hParse :
        o.parser.parseWithClaims world.decoders world.crypto
          world.now
          (fun header =>
            ((Jwt.keyfunc world.limiter header).run
              (world.memory o.jwks)).1)
          tokenString with
    | error err =>
        rw [hParse] at hParsed
        cases hParsed
    | ok token =>
        have hClaims : token.claims.toClaims = claims := by
          rw [hParse] at hParsed
          have hSame := Except.ok.inj hParsed
          exact Option.some.inj (congrArg Token.claims hSame)
        rcases Jwt.Parser.parseWithClaims_ok_iff.mp hParse with
          ⟨hRaw, hVerifies⟩
        exact ⟨token, hRaw, hClaims, hVerifies⟩
  · intro hToken
    rcases hToken with
      ⟨token, hRaw, hClaims, parts, hVerifies⟩
    rw [Jwt.Parser.parseWithClaims_ok_iff.mpr
      ⟨hRaw, parts, hVerifies⟩]
    simp [parsedToken, hVerifies.marked, hClaims]

/- A token that verifies is one that a request can bear. -/
theorem bears_iff
    (hChecked : o.Checked)
    {rc : AuthorizationRequest}
    {token : Jwt.Token TokenClaims} :
    o.Bears world rc token ∧ token.valid = true ↔
      token.raw = tokenOf rc ∧
        ∃ parts,
          o.parser.Verifies world.decoders world.crypto
            world.now
            (fun header =>
              ((Jwt.keyfunc world.limiter header).run
                (world.memory o.jwks)).1)
            parts token := by
  have hMethods :
      o.parser.validMethods = some o.signingAlgorithms :=
    rfl
  have hValidates : o.parser.skipClaimsValidation = false :=
    rfl
  have hAllows :=
    validate_parser_iff hChecked.issuer hChecked.audience
      world.now token.claims
  constructor
  · intro hBoth
    rcases hBoth with ⟨hBears, hValid⟩
    rcases hBears.signed with
      ⟨parts, key, hDecodes, hOffered, _, hAccepts⟩
    rcases Jwt.keyfunc_iff_offered.mpr hOffered with
      ⟨answer, hAnswer, hKey⟩
    refine ⟨hBears.carried, parts,
      { decodes := hDecodes
        listed := ?_
        signed := ⟨answer, hAnswer, key, hKey, hAccepts⟩
        allowed := fun _ => hAllows.mpr hBears.allowed
        marked := hValid }⟩
    intro methods hSome
    rw [hMethods] at hSome
    cases hSome
    exact hBears.listed
  · intro hBoth
    rcases hBoth with ⟨hCarried, parts, hVerifies⟩
    rcases hVerifies.signed with
      ⟨answer, hAnswer, key, hKey, hAccepts⟩
    have hListed := hVerifies.listed _ hMethods
    have hPublic : key.isPublic = true :=
      Jwt.SigningMethod.isPublic_of_accepts
        (not_hmac_of_supported
          (hChecked.algorithms _ hListed))
        hAccepts
    refine ⟨⟨hCarried, hListed,
      ⟨parts, key, hVerifies.decodes, ?_, hPublic,
        hAccepts⟩, ?_⟩, hVerifies.marked⟩
    · exact Jwt.keyfunc_iff_offered.mp
        ⟨answer, hAnswer, hKey⟩
    · exact hAllows.mp (hVerifies.allowed hValidates)

/- A token of three segments has two dots and is not empty. -/
theorem segments_of_decodes
    {parts : String × String × String}
    {token : Jwt.Token TokenClaims}
    (hDecodes :
      Jwt.Parser.Decodes world.decoders parts token) :
    token.raw ≠ "" ∧ Go.countByte token.raw '.' = 2 := by
  have hLength := Go.length_split token.raw '.'
  rw [hDecodes.segments] at hLength
  have hCount : token.raw.toList.count '.' = 2 := by
    simp at hLength
    omega
  refine ⟨?_, hCount⟩
  intro hEmpty
  rw [hEmpty] at hCount
  exact absurd hCount (by decide)

/-
  A constructed authenticator accepts exactly the requests
  that bear a signed token with an entry for its claims and
  the scope of that entry: its own checks of the token's form
  reject nothing that the library would not.
-/
theorem bearer_ok_iff
    {libs : Libraries}
    {jwksURL issuer audience : String}
    {signingAlgorithms : List String}
    (hNew :
      newOAuth2Authenticator libs jwksURL issuer audience
        signingAlgorithms = .ok o)
    (hLibs : libs.parseWithClaims = world.parseWithClaims)
    {rc : AuthorizationRequest}
    {w : World}
    {profile : UserProfile} :
    (tryAuthenticate libs o rc).eval w = .ok profile ↔
      ∃ token table entry,
        o.Bears world rc token ∧
          w .oauth2Lookup = some table ∧
          Matched table token.claims.registered.subject
            token.claims.azp entry ∧
          token.claims.toClaims.Lists entry.requiredScope ∧
          profile = entry.profile := by
  have hChecked := checked_of_new hNew
  rw [tryAuthenticate_ok_iff]
  simp only [presents_iff, hLibs,
    parseWithClaims_ok_iff]
  constructor
  · intro hAccepted
    rcases hAccepted with
      ⟨tokenString, claims, table, entry,
        ⟨hCarried, _, _, token, hRaw, hClaims, parts,
          hVerifies⟩,
        hTable, hMatched, hLists, hProfile⟩
    have hBears :=
      ((bears_iff hChecked).mpr
        ⟨hRaw.trans hCarried, parts, hVerifies⟩).1
    rw [← hClaims] at hMatched hLists
    exact ⟨token, table, entry, hBears, hTable, hMatched,
      hLists, hProfile⟩
  · intro hAccepted
    rcases hAccepted with
      ⟨token, table, entry, hBears, hTable, hMatched, hLists,
        hProfile⟩
    -- The same token, marked as valid.
    have hMarked :
        o.Bears world rc { token with valid := true } := by
      refine ⟨hBears.carried, hBears.listed, ?_,
        hBears.allowed⟩
      rcases hBears.signed with
        ⟨parts, key, hDecodes, hRest⟩
      exact ⟨parts, key,
        ⟨hDecodes.segments, hDecodes.header,
          hDecodes.claims, hDecodes.signature,
          hDecodes.alg⟩, hRest⟩
    rcases (bears_iff hChecked).mp ⟨hMarked, rfl⟩ with
      ⟨hRaw, parts, hVerifies⟩
    rcases segments_of_decodes hVerifies.decodes with
      ⟨hSome, hDots⟩
    exact ⟨token.raw, token.claims.toClaims, table, entry,
      ⟨hRaw, hSome, hDots, { token with valid := true }, rfl,
        rfl, parts, hVerifies⟩,
      hTable, hMatched, hLists, hProfile⟩

end OAuth2Authenticator

end Auth

end AuthCallout

------------------------------------------------------------
-- Tokens While Keys Change
------------------------------------------------------------

namespace AuthCallout

namespace Auth

open Cells

variable {o : OAuth2Authenticator}
variable {τ σ ρ : Type}
variable [DecidableEq τ] [DecidableEq σ] [DecidableEq ρ]
variable {decoders : Jwt.Decoders TokenClaims}
variable {crypto : Jwt.Crypto}
variable {memory : Memory Jwt.KeyCell.Contents}
variable {publications : σ → Except String (List Jwt.JWK)}
variable {calls : ρ → Jwt.ParseCall}
variable {Known : Jwt.JWK → Prop}

/-
  A token that the parser of an authenticator has accepted
  with a known JWK.
-/
structure OAuth2Authenticator.Signed
    (o : OAuth2Authenticator)
    (decoders : Jwt.Decoders TokenClaims)
    (crypto : Jwt.Crypto)
    (Known : Jwt.JWK → Prop)
    (call : Jwt.ParseCall)
    (token : Jwt.Token TokenClaims) : Prop where
  raw : token.raw = call.tokenString
  listed : token.method.alg ∈ o.signingAlgorithms
  signed :
    ∃ parts jwk,
      Jwt.Parser.Decodes decoders parts token ∧
        Jwt.Serves Known token.header jwk ∧
        (Jwt.publicKey jwk.key).isPublic = true ∧
        token.method.Accepts crypto
          (Go.join [parts.1, parts.2.1] '.') token.signature
          (Jwt.publicKey jwk.key)
  allowed : o.Allows call.now token.claims.registered

/-
  Whatever the endpoint serves, and however fetches of its set
  interleave with tokens, a constructed authenticator's parser
  accepts a token only when it is valid at the time and signed
  with a configured algorithm for a public key that was stored
  at first or has been served. A secret is never used.
-/
theorem OAuth2Authenticator.signed_of_parsed
    {libs : Libraries}
    {jwksURL issuer audience : String}
    {signingAlgorithms : List String}
    (hNew :
      newOAuth2Authenticator libs jwksURL issuer audience
        signingAlgorithms = .ok o)
    (hMemory : ∀ cell, Jwt.Holds Known cell (memory cell))
    (hPublished :
      ∀ s, Jwt.Holds Known .endpoint (publications s))
    {schedule : List (Jwt.KeyActor τ σ ρ)}
    {r : ρ}
    {token : Jwt.Token TokenClaims}
    (hParsed :
      ((Jwt.keyPool o.parser decoders crypto memory
          publications calls).run schedule).threads
          (.parse r) =
        .done (.ok token)) :
    o.Signed decoders crypto Known (calls r) token := by
  have hChecked := checked_of_new hNew
  have hTrusted :=
    Jwt.trusted_of_parsed hMemory hPublished hParsed
  have hListed := hTrusted.listed _ rfl
  have hMethod :=
    not_hmac_of_supported (hChecked.algorithms _ hListed)
  rcases hTrusted.signed with
    ⟨parts, jwk, hDecodes, hServes, hAccepts⟩
  refine
    { raw := hTrusted.raw
      listed := hListed
      signed := ?_
      allowed := ?_ }
  · exact ⟨parts, jwk, hDecodes, hServes,
      Jwt.SigningMethod.isPublic_of_accepts hMethod hAccepts,
      hAccepts⟩
  · exact (OAuth2Authenticator.validate_parser_iff
      hChecked.issuer hChecked.audience _ _).mp
        (hTrusted.allowed rfl)

end Auth

end AuthCallout

------------------------------------------------------------
-- A Signed Token
------------------------------------------------------------

namespace AuthCallout

namespace Auth

open Cells Config

/- The key of an issuer, and its signature of a token. -/
def idpPublicKey : List UInt8 :=
  [62, 11, 168, 141, 190, 67, 111, 74, 174, 190, 170, 130, 43,
    73, 49, 250, 111, 71, 252, 87, 30, 41, 22, 25, 50, 17,
    143, 81, 29, 162, 73, 193]

def uiSignature : List UInt8 :=
  [101, 31, 152, 68, 231, 231, 124, 80, 144, 193, 209, 19,
    120, 138, 177, 132, 11, 163, 20, 83, 23, 2, 21, 134, 130,
    54, 8, 0, 41, 82, 79, 176, 252, 250, 94, 102, 236, 68,
    158, 121, 46, 232, 159, 59, 150, 91, 93, 168, 20, 25, 206,
    52, 63, 187, 192, 198, 39, 48, 82, 154, 95, 98, 238, 4]

/-
  The header `{"alg":"EdDSA","kid":"k1"}` and the claims of a
  client at an issuer.
-/
def uiTokenText : String :=
  "eyJhbGciOiJFZERTQSIsImtpZCI6ImsxIn0" ++ "." ++
    "eyJpc3MiOiJodHRwczovL2lkcCIsImF1ZCI6Im5hdHMiLCJzdWIi" ++
    "OiJ1aSIsInNjb3BlIjoibXF0dCIsImV4cCI6MjAwMDAwMDAwMH0" ++
    "." ++ Go.encodeRawURL uiSignature

def uiTokenClaims : TokenClaims where
  registered :=
    { issuer := "https://idp"
      subject := "ui"
      audience := ["nats"]
      expiresAt := some 2000000000000000000
      notBefore := none
      issuedAt := none }
  scope := "mqtt"
  scopes := []
  azp := ""

def uiDecoders : Jwt.Decoders TokenClaims where
  header := fun _ =>
    .ok ⟨some (.text "EdDSA"), some (.text "k1")⟩
  claims := fun _ => .ok uiTokenClaims

def idpKey : Jwt.JWK :=
  ⟨"k1", "EdDSA", .ed25519 idpPublicKey⟩

/- One signature is the right one. -/
def uiCrypto : Jwt.Crypto where
  available := fun _ => true
  hmac := fun _ _ _ => []
  verifyPKCS1v15 := fun _ _ _ _ =>
    .error "crypto/rsa: verification error"
  verifyPSS := fun _ _ _ _ =>
    .error "crypto/rsa: verification error"
  ecdsaVerify := fun _ _ _ _ _ => false
  ed25519Verify := fun key _ sig =>
    key = idpPublicKey ∧ sig = uiSignature

/- The endpoint serves a key that is not stored yet. -/
def idpMemory : Memory Jwt.KeyCell.Contents
| .endpoint => .ok [idpKey]
| .storage => []

def idpWorld : TokenWorld where
  decoders := uiDecoders
  crypto := uiCrypto
  memory := fun _ => idpMemory
  limiter := .ok ()
  now := 1900000000000000000

def idpLibraries : Libraries :=
  { offlineLibraries with
    parseWithClaims := idpWorld.parseWithClaims }

def idpAuthenticator : OAuth2Authenticator where
  jwks := ⟨"https://idp/jwks"⟩
  issuer := "https://idp"
  audience := "nats"
  signingAlgorithms := ["EdDSA"]

def uiToken : Jwt.Token TokenClaims where
  raw := uiTokenText
  method := .ed25519
  header := ⟨some (.text "EdDSA"), some (.text "k1")⟩
  claims := uiTokenClaims
  signature := uiSignature
  valid := true

def uiProfile : UserProfile := ⟨"ui", "CSC", .zero⟩

/- The manager knows the client by its subject. -/
def uiWorld : World :=
  world (.malformed "")
    { noauth := none
      oauth2 :=
        some (fun key =>
          if key = ⟨"ui", ""⟩ then
            some ⟨uiProfile, "mqtt"⟩
          else
            none)
      mtls := none
      nkey := none }

def uiRequest : AuthorizationRequest where
  userNkey := passwordRequest.userNkey
  clientInformation := ⟨""⟩
  connectOptions := ⟨uiTokenText, "", "", "", ""⟩
  tls := none

/- The segments of the token. -/
def uiParts : String × String × String :=
  ("eyJhbGciOiJFZERTQSIsImtpZCI6ImsxIn0",
    "eyJpc3MiOiJodHRwczovL2lkcCIsImF1ZCI6Im5hdHMiLCJzdWIi" ++
      "OiJ1aSIsInNjb3BlIjoibXF0dCIsImV4cCI6MjAwMDAwMDAwMH0",
    Go.encodeRawURL uiSignature)

theorem not_mem_of_chars
    {text : String}
    {chars : List Char}
    {c : Char}
    (hText : text = String.ofList chars)
    (hChars : c ∉ chars) : c ∉ text.toList := by
  rw [hText, String.toList_ofList]
  exact hChars

theorem split_at_dot
    {part : String}
    (rest : String)
    (hPart : '.' ∉ part.toList) :
    Go.split (part ++ "." ++ rest) '.' =
      part :: Go.split rest '.' := by
  have hChars :
      (part ++ "." ++ rest).toList =
        part.toList ++ '.' :: rest.toList := by
    rw [String.toList_append, String.toList_append,
      List.append_assoc]
    rfl
  exact Go.split_of_toList_eq hChars hPart

theorem split_uiTokenText :
    Go.split uiTokenText '.' =
      [uiParts.1, uiParts.2.1, uiParts.2.2] := by
  have hText :
      uiTokenText =
        uiParts.1 ++ "." ++
          (uiParts.2.1 ++ "." ++ uiParts.2.2) := by
    unfold uiTokenText uiParts
    simp only [String.append_assoc]
  have hNoDot : '.' ∉ uiParts.2.2.toList :=
    Go.not_mem_encodeRawURL (by decide) uiSignature
  have hLast : Go.split uiParts.2.2 '.' = [uiParts.2.2] := by
    have hJoin :=
      @Go.split_join [uiParts.2.2] '.' (by simp)
        (by simpa using hNoDot)
    rw [Go.join_singleton] at hJoin
    exact hJoin
  have hFirst : '.' ∉ uiParts.1.toList :=
    not_mem_of_chars rfl (by decide)
  have hSecond : '.' ∉ uiParts.2.1.toList :=
    not_mem_of_chars (@String.ofList_append _ _).symm
      (by decide)
  rw [hText, split_at_dot _ hFirst, split_at_dot _ hSecond,
    hLast]

/- Only the characters of a segment are looked at. -/
theorem exists_bytes
    {segment : String}
    {chars : List Char}
    (hSegment : segment = String.ofList chars)
    (hDecodes :
      (Go.base64Sextets 0 chars).toOption.map
          (fun sextets => decide (sextets.length % 4 = 1)) =
        some false) :
    ∃ bytes, Go.decodeRawURL segment = .ok bytes := by
  unfold Go.decodeRawURL
  rw [hSegment, String.toList_ofList]
  cases hSextets : Go.base64Sextets 0 chars with
  | error position =>
      rw [hSextets] at hDecodes
      cases hDecodes
  | ok sextets =>
      rw [hSextets] at hDecodes
      have hLength : ¬ sextets.length % 4 = 1 := by
        simpa [Except.toOption] using hDecodes
      dsimp only
      rw [if_neg hLength]
      exact ⟨_, rfl⟩

theorem decodes_uiToken :
    Jwt.Parser.Decodes uiDecoders uiParts uiToken where
  segments := split_uiTokenText
  header := by
    have hDecodes :
        ∃ bytes, Go.decodeRawURL uiParts.1 = .ok bytes :=
      exists_bytes rfl (by decide +kernel)
    rcases hDecodes with ⟨bytes, hBytes⟩
    exact ⟨bytes, hBytes, rfl⟩
  claims := by
    have hDecodes :
        ∃ bytes, Go.decodeRawURL uiParts.2.1 = .ok bytes :=
      exists_bytes (@String.ofList_append _ _).symm
        (by decide +kernel)
    rcases hDecodes with ⟨bytes, hBytes⟩
    exact ⟨bytes, hBytes, rfl⟩
  signature := Go.decodeRawURL_encodeRawURL uiSignature
  alg := rfl

theorem beforeKey_uiToken :
    idpAuthenticator.parser.beforeKey uiDecoders uiTokenText =
      .ok
        (⟨uiParts, uiToken.header, uiTokenClaims, .ed25519⟩,
          uiSignature) := by
  apply Jwt.Parser.beforeKey_ok_iff.mpr
  refine ⟨Jwt.Parser.parseUnverified_ok_iff.mpr ?_, ?_,
    decodes_uiToken.signature⟩
  · exact
      ⟨Jwt.splitToken_eq_some_iff.mpr
          decodes_uiToken.segments,
        decodes_uiToken.header, decodes_uiToken.claims,
        decodes_uiToken.alg⟩
  · intro methods hMethods
    cases hMethods
    decide

theorem offered_idpKey :
    Jwt.Offered (.ok ()) idpMemory uiToken.header
      (Jwt.publicKey idpKey.key) :=
  .named rfl rfl (.fetched rfl rfl rfl rfl) (.inr rfl)

/- The client is accepted with a key that is fetched for it. -/
theorem tryAuthenticate_uiRequest :
    (OAuth2Authenticator.tryAuthenticate idpLibraries
        idpAuthenticator uiRequest).eval uiWorld =
      .ok uiProfile := by
  apply (@OAuth2Authenticator.bearer_ok_iff idpAuthenticator
    idpWorld idpLibraries "https://idp/jwks" "https://idp"
    "nats" ["EdDSA"] rfl rfl uiRequest uiWorld uiProfile).mpr
  refine ⟨uiToken, _, ⟨uiProfile, "mqtt"⟩, ?_, rfl, .both rfl,
    (hasScope_iff _ _).mp (by decide), rfl⟩
  exact
    { carried := rfl
      listed := by decide
      signed :=
        ⟨uiParts, _, decodes_uiToken, offered_idpKey, rfl,
          .ed25519 rfl (by decide)⟩
      allowed :=
        { expires := ⟨2000000000000000000, rfl, by decide⟩
          begun := by
            intro nbf hNone
            cases hNone
          issuer := rfl
          audience := by decide } }

/- Nothing is stored, and the endpoint does not answer. -/
def unreachableMemory : Memory Jwt.KeyCell.Contents
| .endpoint => .error "connection refused"
| .storage => []

def uiCall : Jwt.ParseCall :=
  ⟨.ok (), 1900000000000000000, uiTokenText⟩

theorem parseProgram_uiCall :
    Jwt.parseProgram idpAuthenticator.parser uiDecoders uiCrypto
        uiCall =
      (Jwt.keyfunc (.ok ()) uiToken.header).map
        (idpAuthenticator.parser.afterKey uiCrypto
          1900000000000000000 uiTokenText
          (⟨uiParts, uiToken.header, uiTokenClaims, .ed25519⟩,
            uiSignature)) := by
  have hBefore :
      idpAuthenticator.parser.beforeKey uiDecoders
          uiCall.tokenString =
        .ok
          (⟨uiParts, uiToken.header, uiTokenClaims, .ed25519⟩,
            uiSignature) :=
    beforeKey_uiToken
  exact Jwt.parseProgram_of_beforeKey hBefore

/- The same token, parsed while the endpoint changes. -/
theorem signed_uiToken :
    idpAuthenticator.Signed uiDecoders uiCrypto
      (fun jwk => jwk = idpKey) uiCall uiToken :=
  @OAuth2Authenticator.signed_of_parsed idpAuthenticator
    Unit Unit Unit _ _ _ uiDecoders uiCrypto
    unreachableMemory (fun _ => .ok [idpKey]) (fun _ => uiCall)
    (fun jwk => jwk = idpKey) idpLibraries
    "https://idp/jwks" "https://idp" "nats" ["EdDSA"] rfl
    (by
      intro cell
      cases cell with
      | endpoint =>
          intro newSet hServed
          cases hServed
      | storage =>
          intro jwk hMem
          cases hMem)
    (by
      intro s newSet hServed jwk hMem
      cases hServed
      exact List.mem_singleton.mp hMem)
    [.refresh (), .parse (), .publish (), .refresh (),
      .parse (), .parse (), .parse ()]
    () uiToken
    (by
      simp only [Jwt.keyPool, parseProgram_uiCall]
      rfl)

end Auth

end AuthCallout
