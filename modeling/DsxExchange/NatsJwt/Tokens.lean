import DsxExchange.Go.Base64
import DsxExchange.NatsJwt.Claims

/-
  Tokens of the vendored package `nats-io/jwt`: how claims are
  encoded and signed, how a token is decoded and verified, and
  the round trip.

  Key definitions include:
    * `NatsJwt.Json`, `NatsJwt.Package`
    * `NatsJwt.decode`, `NatsJwt.decodeUserClaims`
    * `NatsJwt.SigningPair`, `NatsJwt.doEncode`
    * `NatsJwt.Stamped`

  Key theorems include:
    * `NatsJwt.decode_of_stamped`
    * `NatsJwt.stamped_of_doEncode`
    * `NatsJwt.claims_of_signingInput`
-/

------------------------------------------------------------
-- Claims Of Any Kind
------------------------------------------------------------

namespace NatsJwt

open AuthCallout.Auth

def libVersion : Int := 2

/- The kinds of claims that the service never asks for. -/
inductive OtherKind where
| operator
| account
| activation
| generic
deriving DecidableEq, Repr

/- `Claims`. -/
inductive Claims where
| user (claims : UserClaims)
| request (claims : AuthorizationRequestClaims)
| response (claims : AuthorizationResponseClaims)
| other (kind : OtherKind) (claimsData : ClaimsData)
deriving DecidableEq, Repr

/- `Claims()`. -/
def Claims.data : Claims → ClaimsData
| .user claims => claims.claimsData
| .request claims => claims.claimsData
| .response claims => claims.claimsData
| .other _ claimsData => claimsData

def Claims.withData (data : ClaimsData) : Claims → Claims
| .user claims => .user { claims with claimsData := data }
| .request claims =>
    .request { claims with claimsData := data }
| .response claims =>
    .response { claims with claimsData := data }
| .other kind _ => .other kind data

/- `ExpectedPrefixes`, nil for any. -/
def Claims.expectedPrefixes : Claims → Option (List UInt8)
| .user _ => some [prefixByteAccount]
| .request _ => some [prefixByteServer]
| .response _ => some [prefixByteAccount]
| .other .operator _ => some [prefixByteOperator]
| .other .account _ =>
    some [prefixByteAccount, prefixByteOperator]
| .other .activation _ =>
    some [prefixByteAccount, prefixByteOperator]
| .other .generic _ => none

/- The generic fields of the kinds that are encoded. -/
def Claims.fields : Claims → GenericFields
| .user claims => claims.nats.fields
| .request claims => claims.nats.fields
| .response claims => claims.nats.fields
| .other _ _ => .zero

/- `updateVersion`. -/
def Claims.updateVersion : Claims → Claims
| .user ⟨data, nats⟩ =>
    .user ⟨data,
      { nats with
        fields := { nats.fields with version := libVersion } }⟩
| .request ⟨data, nats⟩ =>
    .request ⟨data,
      { nats with
        fields := { nats.fields with version := libVersion } }⟩
| .response ⟨data, nats⟩ =>
    .response ⟨data,
      { nats with
        fields := { nats.fields with version := libVersion } }⟩
| .other kind data => .other kind data

end NatsJwt

------------------------------------------------------------
-- JSON
------------------------------------------------------------

namespace NatsJwt

/- `Header`. -/
structure Header where
  type : String
  algorithm : String
deriving DecidableEq, Repr

def tokenTypeJwt : String := "JWT"
def algorithmNkeyOld : String := "ed25519"
def algorithmNkey : String := "ed25519-nkey"

/- The one header that is written. -/
def nkeyHeader : Header := ⟨tokenTypeJwt, algorithmNkey⟩

/- Its JSON text. -/
def nkeyHeaderText : List UInt8 :=
  Go.bytes
    "\x7b\"typ\":\"JWT\",\"alg\":\"ed25519-nkey\"\x7d"

/- `identifier`. -/
structure Identifier where
  type : String
  fields : GenericFields
deriving DecidableEq, Repr

/- `Kind`. -/
def Identifier.kind (i : Identifier) : String :=
  if i.type ≠ "" then i.type else i.fields.type

/- `Version`. -/
def Identifier.version (i : Identifier) : Int :=
  if i.type ≠ "" then 1 else i.fields.version

/-
  `encoding/json` on the types of the package, with the two
  case mappings of `strings`. `migrateUser` reads the claims
  of a user of version 1 and migrates them.
-/
structure Json where
  toUpper : String → String
  toLower : String → String
  unmarshalHeader : List UInt8 → Except String Header
  unmarshalIdentifier : List UInt8 → Except String Identifier
  unmarshalUser : List UInt8 → Except String UserClaims
  migrateUser : List UInt8 → Except String UserClaims
  unmarshalRequest :
    List UInt8 → Except String AuthorizationRequestClaims
  unmarshalResponse :
    List UInt8 → Except String AuthorizationResponseClaims
  unmarshalOther :
    OtherKind → List UInt8 → Except String ClaimsData
  marshal : Claims → Except String (List UInt8)
  hash : ClaimsData → Except String String

/- The reader of claims of one kind. -/
def Json.unmarshal
    (json : Json)
    (data : List UInt8) : Claims → Except String Claims
| .user _ => (json.unmarshalUser data).map .user
| .request _ => (json.unmarshalRequest data).map .request
| .response _ => (json.unmarshalResponse data).map .response
| .other kind _ =>
    (json.unmarshalOther kind data).map (.other kind)

end NatsJwt

------------------------------------------------------------
-- Decoding
------------------------------------------------------------

namespace NatsJwt

open AuthCallout.Auth

def operatorClaim : String := "operator"
def accountClaim : String := "account"
def userClaim : String := "user"
def activationClaim : String := "activation"
def authorizationRequestClaim : String :=
  "authorization_request"
def authorizationResponseClaim : String :=
  "authorization_response"

/- `Header.Valid`. -/
def Header.valid
    (json : Json)
    (h : Header) : Except String Unit :=
  if tokenTypeJwt ≠ json.toUpper h.type then
    .error ("not supported type " ++ Go.quote h.type)
  else
    let alg := json.toLower h.algorithm
    if !Go.hasPrefix alg algorithmNkeyOld then
      .error
        ("unexpected " ++ Go.quote h.algorithm ++ " algorithm")
    else if algorithmNkeyOld ≠ alg ∧ algorithmNkey ≠ alg then
      .error
        ("unexpected " ++ Go.quote h.algorithm ++ " algorithm")
    else
      .ok ()

/- `parseHeaders`. -/
def parseHeaders
    (json : Json)
    (s : String) : Except String Header :=
  match Go.decodeRawURL s with
  | .error err => .error err
  | .ok h =>
      match json.unmarshalHeader h with
      | .error err => .error err
      | .ok header =>
          match header.valid json with
          | .error err => .error err
          | .ok () => .ok header

/- `loadUser`. -/
def loadUser
    (json : Json)
    (data : List UInt8)
    (version : Int) : Except String UserClaims :=
  if version = 1 then
    json.migrateUser data
  else if version = 2 then
    json.unmarshalUser data
  else
    .error
      ("library supports version 2 or less - received " ++
        toString version)

/- `loadClaims`. -/
def loadClaims
    (json : Json)
    (data : List UInt8) : Except String (Int × Claims) :=
  match json.unmarshalIdentifier data with
  | .error err => .error err
  | .ok id =>
      if id.version > libVersion then
        .error "JWT was generated by a newer version "
      else if id.kind = operatorClaim then
        (json.unmarshalOther .operator data).map
          (fun claim => (id.version, .other .operator claim))
      else if id.kind = accountClaim then
        (json.unmarshalOther .account data).map
          (fun claim => (id.version, .other .account claim))
      else if id.kind = userClaim then
        (loadUser json data id.version).map
          (fun claim => (id.version, .user claim))
      else if id.kind = activationClaim then
        (json.unmarshalOther .activation data).map
          (fun claim =>
            (id.version, .other .activation claim))
      else if id.kind = authorizationRequestClaim then
        (json.unmarshalRequest data).map
          (fun claim => (id.version, .request claim))
      else if id.kind = authorizationResponseClaim then
        (json.unmarshalResponse data).map
          (fun claim => (id.version, .response claim))
      else if id.kind = "cluster" then
        .error "ClusterClaims are not supported"
      else if id.kind = "server" then
        .error "ServerClaims are not supported"
      else
        (json.unmarshalOther .generic data).map
          (fun claim => (-1, .other .generic claim))

/- `PrefixByte.String`. -/
def prefixName (kind : UInt8) : String :=
  if kind = prefixByteOperator then "operator"
  else if kind = prefixByteServer then "server"
  else if kind = prefixByteCluster then "cluster"
  else if kind = prefixByteAccount then "account"
  else if kind = prefixByteUser then "user"
  else if kind = prefixByteSeed then "seed"
  else if kind = prefixBytePrivate then "private"
  else if kind = prefixByteCurve then "x25519"
  else "unknown"

/- The check of the issuer's kind, on both ways. -/
def checkPrefixes
    (claim : Claims)
    (issuer : String) : Except String Unit :=
  match claim.expectedPrefixes with
  | none => .ok ()
  | some prefixes =>
      if prefixes.any (isValidPublicKey · issuer) then
        .ok ()
      else
        .error
          ("unable to validate expected prefixes - [" ++
            Go.joinWith " " (prefixes.map prefixName) ++ "]")

/- The package, and what it calls for a signature. -/
structure Package where
  json : Json
  libs : Libraries

/- `ClaimsData.verify`. -/
def ClaimsData.verify
    (package : Package)
    (c : ClaimsData)
    (payload : String)
    (sig : List UInt8) : Except Go.Fault Bool :=
  match fromPublicKey c.issuer with
  | .error _ => .ok false
  | .ok kp =>
      match kp.verify package.libs (bytesOf payload) sig with
      | .error .panic => .error .panic
      | .error (.error _) => .ok false
      | .ok () => .ok true

/- The text that is signed, which depends on the version. -/
def signingInput
    (ver : Int)
    (header payload : String) : String :=
  if ver ≤ 1 then payload else header ++ "." ++ payload

/- `Decode`, once the token is in three chunks. -/
def decodeChunks
    (package : Package)
    (header payload signature : String) :
    Except Go.Fault Claims :=
  match parseHeaders package.json header with
  | .error err => .error (.error err)
  | .ok _ =>
      match Go.decodeRawURL payload with
      | .error err => .error (.error err)
      | .ok data =>
          match loadClaims package.json data with
          | .error err => .error (.error err)
          | .ok (ver, claim) =>
              match Go.decodeRawURL signature with
              | .error err => .error (.error err)
              | .ok sig =>
                  match claim.data.verify package
                      (signingInput ver header payload)
                      sig with
                  | .error fault => .error fault
                  | .ok false =>
                      if ver ≤ 1 then
                        .error (.error
                          ("claim failed V1 signature " ++
                            "verification"))
                      else
                        .error (.error
                          ("claim failed V2 signature " ++
                            "verification"))
                  | .ok true =>
                      match checkPrefixes claim
                          claim.data.issuer with
                      | .error err => .error (.error err)
                      | .ok () => .ok claim

/- `Decode`. -/
def decode
    (package : Package)
    (token : String) : Except Go.Fault Claims :=
  match Go.split token '.' with
  | [header, payload, signature] =>
      decodeChunks package header payload signature
  | _ => .error (.error "expected 3 chunks")

/- `DecodeUserClaims`. -/
def decodeUserClaims
    (package : Package)
    (token : String) : Except Go.Fault UserClaims :=
  match decode package token with
  | .error fault => .error fault
  | .ok (.user ac) => .ok ac
  | .ok _ => .error (.error "not user claim")

/- `DecodeAuthorizationRequestClaims`. -/
def decodeAuthorizationRequestClaims
    (package : Package)
    (token : String) :
    Except Go.Fault AuthorizationRequestClaims :=
  match decode package token with
  | .error fault => .error fault
  | .ok (.request ac) => .ok ac
  | .ok _ =>
      .error (.error "not an authorization request claim")

/- `DecodeAuthorizationResponseClaims`. -/
def decodeAuthorizationResponseClaims
    (package : Package)
    (token : String) :
    Except Go.Fault AuthorizationResponseClaims :=
  match decode package token with
  | .error fault => .error fault
  | .ok (.response ac) => .ok ac
  | .ok _ =>
      .error (.error "not an authorization request claim")

end NatsJwt

------------------------------------------------------------
-- Encoding
------------------------------------------------------------

namespace NatsJwt

open AuthCallout.Auth

/- A key pair with its private half. -/
structure SigningPair where
  pair : KeyPair
  sign : List UInt8 → Except String (List UInt8)

/- `doEncode`, with the header of `encode`. -/
def doEncode
    (json : Json)
    (kp : SigningPair)
    (now : Int)
    (claim : Claims) : Except String String :=
  if claim.data.subject = "" then
    .error "subject is not set"
  else
    let h := Go.encodeRawURL nkeyHeaderText
    match kp.pair.publicKey with
    | .error err => .error err
    | .ok issuer =>
        match checkPrefixes claim issuer with
        | .error err => .error err
        | .ok () =>
            let c : ClaimsData :=
              { claim.data with
                issuer := issuer
                issuedAt := now
                id := "" }
            match json.hash c with
            | .error err => .error err
            | .ok id =>
                let stamped :=
                  (claim.withData
                    { c with id := id }).updateVersion
                match json.marshal stamped with
                | .error err => .error err
                | .ok data =>
                    let toSign :=
                      h ++ "." ++ Go.encodeRawURL data
                    match kp.sign (bytesOf toSign) with
                    | .error err => .error err
                    | .ok sig =>
                        .ok (toSign ++ "." ++
                          Go.encodeRawURL sig)

/- `UserClaims.Encode`. -/
def UserClaims.encode
    (json : Json)
    (kp : SigningPair)
    (now : Int)
    (u : UserClaims) : Except String String :=
  if !isValidPublicKey prefixByteUser u.claimsData.subject then
    .error "expected subject to be user public key"
  else
    doEncode json kp now
      (.user
        { u with
          nats :=
            { u.nats with
              fields :=
                { u.nats.fields with type := userClaim } } })

/- `AuthorizationRequestClaims.Encode`. -/
def AuthorizationRequestClaims.encode
    (json : Json)
    (kp : SigningPair)
    (now : Int)
    (ac : AuthorizationRequestClaims) :
    Except String String :=
  doEncode json kp now
    (.request
      { ac with
        nats :=
          { ac.nats with
            fields :=
              { ac.nats.fields with
                type := authorizationRequestClaim } } })

/- `AuthorizationResponseClaims.Encode`. -/
def AuthorizationResponseClaims.encode
    (json : Json)
    (kp : SigningPair)
    (now : Int)
    (ar : AuthorizationResponseClaims) :
    Except String String :=
  doEncode json kp now
    (.response
      { ar with
        nats :=
          { ar.nats with
            fields :=
              { ar.nats.fields with
                type := authorizationResponseClaim } } })

end NatsJwt

------------------------------------------------------------
-- The Round Trip
------------------------------------------------------------

namespace NatsJwt

open AuthCallout.Auth

/- The type that the encoding gives to claims of a kind. -/
def Claims.typeName : Claims → Option String
| .user _ => some userClaim
| .request _ => some authorizationRequestClaim
| .response _ => some authorizationResponseClaim
| .other _ _ => none

/-
  What is written can be read: the header, and the claims of
  the kinds that the service and the server exchange.
-/
structure Json.RoundTrips (json : Json) : Prop where
  upper : json.toUpper tokenTypeJwt = tokenTypeJwt
  lower : json.toLower algorithmNkey = algorithmNkey
  header :
    json.unmarshalHeader nkeyHeaderText = .ok nkeyHeader
  identifier :
    ∀ claims data,
      claims.typeName ≠ none →
        json.marshal claims = .ok data →
          json.unmarshalIdentifier data =
            .ok ⟨"", claims.fields⟩
  claims :
    ∀ claims data,
      claims.typeName ≠ none →
        json.marshal claims = .ok data →
          json.unmarshal data claims = .ok claims

/- What the encoding makes of claims. -/
def Claims.stamp
    (issuer : String)
    (now : Int)
    (id : String)
    (claims : Claims) : Claims :=
  (claims.withData
    { claims.data with
      issuer := issuer
      issuedAt := now
      id := id }).updateVersion

/- The text in front of the signature. -/
def inputOf (data : List UInt8) : String :=
  Go.encodeRawURL nkeyHeaderText ++ "." ++
    Go.encodeRawURL data

/-
  The token holds these claims, as the package writes them,
  and a signature of the pair that they name as the issuer.
-/
structure Stamped
    (json : Json)
    (kp : SigningPair)
    (claims : Claims)
    (token : String) : Prop where
  issuer : kp.pair.publicKey = .ok claims.data.issuer
  prefixes :
    checkPrefixes claims claims.data.issuer = .ok ()
  type : claims.typeName = some claims.fields.type
  version : claims.fields.version = libVersion
  written :
    ∃ data sig,
      json.marshal claims = .ok data ∧
        kp.sign (bytesOf (inputOf data)) = .ok sig ∧
          token =
            inputOf data ++ "." ++ Go.encodeRawURL sig

/- The public half accepts what the private half signs. -/
structure SigningPair.Verifies
    (libs : Libraries)
    (kp : SigningPair) : Prop where
  body : kp.pair.pub.length = publicKeySize
  isPublic :
    checkValidPublicPrefixByte kp.pair.prefixByte = .ok ()
  signs :
    ∀ input sig,
      kp.sign input = .ok sig →
        libs.ed25519Verify kp.pair.pub input sig = true

variable {json : Json} {kp : SigningPair} {claims : Claims}
variable {token : String}

theorem data_stamp
    (issuer : String)
    (now : Int)
    (id : String) :
    (claims.stamp issuer now id).data =
      { claims.data with
        issuer := issuer
        issuedAt := now
        id := id } := by
  cases claims <;> rfl

theorem typeName_stamp
    (issuer : String)
    (now : Int)
    (id : String) :
    (claims.stamp issuer now id).typeName =
      claims.typeName := by
  cases claims <;> rfl

theorem type_stamp
    (issuer : String)
    (now : Int)
    (id : String) :
    (claims.stamp issuer now id).fields.type =
      claims.fields.type := by
  cases claims <;> rfl

theorem checkPrefixes_stamp
    (issuer : String)
    (now : Int)
    (id : String) :
    checkPrefixes (claims.stamp issuer now id) issuer =
      checkPrefixes claims issuer := by
  have hSame :
      (claims.stamp issuer now id).expectedPrefixes =
        claims.expectedPrefixes := by
    cases claims with
    | other kind data => cases kind <;> rfl
    | _ => rfl
  unfold checkPrefixes
  rw [hSame]

theorem version_stamp
    {issuer : String}
    {now : Int}
    {id : String}
    {type : String}
    (hType : claims.typeName = some type) :
    (claims.stamp issuer now id).fields.version =
      libVersion := by
  cases claims with
  | other kind data => cases hType
  | _ => rfl

/- A token that is encoded holds the stamped claims. -/
theorem stamped_of_doEncode
    {now : Int}
    (hType : claims.typeName = some claims.fields.type)
    (hEncode : doEncode json kp now claims = .ok token) :
    claims.data.subject ≠ "" ∧
      ∃ issuer id,
        kp.pair.publicKey = .ok issuer ∧
          Stamped json kp (claims.stamp issuer now id)
            token := by
  unfold doEncode at hEncode
  split at hEncode
  · cases hEncode
  · rename_i hSubject
    refine ⟨hSubject, ?_⟩
    dsimp only at hEncode
    split at hEncode
    · cases hEncode
    · rename_i issuer hIssuer
      split at hEncode
      · cases hEncode
      · rename_i _ hPrefixes
        split at hEncode
        · cases hEncode
        · rename_i id hHash
          split at hEncode
          · cases hEncode
          · rename_i data hMarshal
            split at hEncode
            · cases hEncode
            · rename_i sig hSign
              refine ⟨issuer, id, hIssuer, ?_⟩
              exact
                { issuer := by rw [data_stamp, hIssuer]
                  prefixes := by
                    rw [data_stamp]
                    exact (checkPrefixes_stamp _ _ _).trans
                      hPrefixes
                  type := by
                    rw [typeName_stamp, type_stamp, hType]
                  version := version_stamp hType
                  written :=
                    ⟨data, sig, hMarshal, hSign,
                      (Except.ok.inj hEncode).symm⟩ }

theorem noDot_encodeRawURL (src : List UInt8) :
    '.' ∉ (Go.encodeRawURL src).toList :=
  Go.not_mem_encodeRawURL (by decide) src

/- A token is in three chunks, as it has been put together. -/
theorem split_token
    (header payload sig : List UInt8) :
    Go.split
        (Go.encodeRawURL header ++ "." ++
            Go.encodeRawURL payload ++ "." ++
          Go.encodeRawURL sig) '.' =
      [Go.encodeRawURL header, Go.encodeRawURL payload,
        Go.encodeRawURL sig] := by
  have hJoined :
      Go.encodeRawURL header ++ "." ++
            Go.encodeRawURL payload ++ "." ++
          Go.encodeRawURL sig =
        Go.join
          [Go.encodeRawURL header, Go.encodeRawURL payload,
            Go.encodeRawURL sig] '.' := by
    apply String.toList_inj.mp
    simp [Go.join, List.intercalate]
  rw [hJoined]
  apply Go.split_join
  · simp
  · intro part hPart
    simp only [List.mem_cons, List.not_mem_nil, or_false]
      at hPart
    rcases hPart with rfl | rfl | rfl
    all_goals exact noDot_encodeRawURL _

theorem parseHeaders_nkeyHeader
    (hJson : json.RoundTrips) :
    parseHeaders json (Go.encodeRawURL nkeyHeaderText) =
      .ok nkeyHeader := by
  have hValid : nkeyHeader.valid json = .ok () := by
    unfold Header.valid nkeyHeader
    dsimp only
    rw [hJson.upper, hJson.lower]
    rfl
  unfold parseHeaders
  rw [Go.decodeRawURL_encodeRawURL]
  dsimp only
  rw [hJson.header]
  dsimp only
  rw [hValid]

/- Claims that have been written are loaded again. -/
theorem loadClaims_of_marshal
    (hJson : json.RoundTrips)
    (hType : claims.typeName = some claims.fields.type)
    (hVersion : claims.fields.version = libVersion)
    {data : List UInt8}
    (hMarshal : json.marshal claims = .ok data) :
    loadClaims json data = .ok (libVersion, claims) := by
  have hKnown : claims.typeName ≠ none := by
    rw [hType]
    exact Option.some_ne_none _
  have hIdentifier :=
    hJson.identifier claims data hKnown hMarshal
  have hClaims := hJson.claims claims data hKnown hMarshal
  unfold loadClaims
  rw [hIdentifier]
  cases claims with
  | user claims =>
      have hKind := (Option.some.inj hType).symm
      change (json.unmarshalUser data).map Claims.user =
        .ok (.user claims) at hClaims
      have hUser :
          json.unmarshalUser data = .ok claims := by
        cases hRead : json.unmarshalUser data with
        | error err =>
            rw [hRead] at hClaims
            cases hClaims
        | ok read =>
            rw [hRead] at hClaims
            cases hClaims
            rfl
      simp [Identifier.version, Identifier.kind, hKind,
        hVersion, libVersion, userClaim, operatorClaim,
        accountClaim, loadUser, hUser, Except.map]
  | request claims =>
      have hKind := (Option.some.inj hType).symm
      change (json.unmarshalRequest data).map
        Claims.request = .ok (.request claims) at hClaims
      have hRequest :
          json.unmarshalRequest data = .ok claims := by
        cases hRead : json.unmarshalRequest data with
        | error err =>
            rw [hRead] at hClaims
            cases hClaims
        | ok read =>
            rw [hRead] at hClaims
            cases hClaims
            rfl
      simp [Identifier.version, Identifier.kind, hKind,
        hVersion, libVersion, userClaim, operatorClaim,
        accountClaim, activationClaim,
        authorizationRequestClaim, hRequest, Except.map]
  | response claims =>
      have hKind := (Option.some.inj hType).symm
      change (json.unmarshalResponse data).map
        Claims.response = .ok (.response claims) at hClaims
      have hResponse :
          json.unmarshalResponse data = .ok claims := by
        cases hRead : json.unmarshalResponse data with
        | error err =>
            rw [hRead] at hClaims
            cases hClaims
        | ok read =>
            rw [hRead] at hClaims
            cases hClaims
            rfl
      simp [Identifier.version, Identifier.kind, hKind,
        hVersion, libVersion, userClaim, operatorClaim,
        accountClaim, activationClaim,
        authorizationRequestClaim,
        authorizationResponseClaim, hResponse, Except.map]
  | other kind data => cases hType

/- Only the pair's own public half is named as issuer. -/
theorem fromPublicKey_issuer
    {libs : Libraries}
    (hVerifies : kp.Verifies libs)
    (hStamped : Stamped json kp claims token) :
    fromPublicKey claims.data.issuer = .ok kp.pair := by
  have hBody : kp.pair.pub ≠ [] := by
    intro hNil
    have hLength := hVerifies.body
    rw [hNil] at hLength
    cases hLength
  exact fromPublicKey_of_encode hStamped.issuer hBody
    hVerifies.isPublic

/- A stamped token is decoded as its claims. -/
theorem decode_of_stamped
    {package : Package}
    (hJson : package.json.RoundTrips)
    (hVerifies : kp.Verifies package.libs)
    (hStamped : Stamped package.json kp claims token) :
    decode package token = .ok claims := by
  rcases hStamped.written with
    ⟨data, sig, hMarshal, hSign, hToken⟩
  have hInput :
      signingInput libVersion
          (Go.encodeRawURL nkeyHeaderText)
          (Go.encodeRawURL data) =
        inputOf data :=
    rfl
  have hVerify :
      claims.data.verify package (inputOf data) sig =
        .ok true := by
    unfold ClaimsData.verify
    rw [fromPublicKey_issuer hVerifies hStamped]
    dsimp only
    rw [KeyPair.verify_ok_iff.mpr
      ⟨hVerifies.body, hVerifies.signs _ _ hSign⟩]
  unfold decode
  rw [hToken, inputOf, split_token]
  dsimp only
  unfold decodeChunks
  rw [parseHeaders_nkeyHeader hJson,
    Go.decodeRawURL_encodeRawURL]
  dsimp only
  rw [loadClaims_of_marshal hJson hStamped.type
    hStamped.version hMarshal]
  dsimp only
  rw [Go.decodeRawURL_encodeRawURL]
  dsimp only
  rw [hInput, hVerify]
  dsimp only
  rw [hStamped.prefixes]

end NatsJwt

------------------------------------------------------------
-- Tokens With A Known Signed Text
------------------------------------------------------------

namespace NatsJwt

open AuthCallout.Auth

/- What a token must hold to be decoded. -/
structure Decodes
    (package : Package)
    (token : String)
    (claims : Claims) : Prop where
  chunks :
    ∃ header payload signature data sig ver,
      Go.split token '.' = [header, payload, signature] ∧
        Go.decodeRawURL payload = .ok data ∧
          loadClaims package.json data = .ok (ver, claims) ∧
            Go.decodeRawURL signature = .ok sig ∧
              claims.data.verify package
                  (signingInput ver header payload) sig =
                .ok true

theorem decodes_of_decode
    {package : Package}
    {token : String}
    {claims : Claims}
    (hDecode : decode package token = .ok claims) :
    Decodes package token claims := by
  unfold decode at hDecode
  split at hDecode
  · rename_i header payload signature hSplit
    unfold decodeChunks at hDecode
    split at hDecode
    · cases hDecode
    · split at hDecode
      · cases hDecode
      · rename_i data hData
        split at hDecode
        · cases hDecode
        · rename_i ver claim hLoad
          split at hDecode
          · cases hDecode
          · rename_i sig hSig
            split at hDecode
            · cases hDecode
            · split at hDecode
              · cases hDecode
              · cases hDecode
            · rename_i hVerify
              split at hDecode
              · cases hDecode
              · cases hDecode
                exact ⟨header, payload, signature, data, sig,
                  ver, hSplit, hData, hLoad, hSig, hVerify⟩
  · cases hDecode

/- A signed text with a delimiter has a header. -/
theorem parts_of_signingInput
    {ver : Int}
    {header payload : String}
    {data : List UInt8}
    (hHeader : '.' ∉ header.toList)
    (hPayload : '.' ∉ payload.toList)
    (hInput :
      signingInput ver header payload = inputOf data) :
    payload = Go.encodeRawURL data := by
  unfold signingInput at hInput
  split at hInput
  · exfalso
    apply hPayload
    rw [hInput, inputOf]
    simp
  · have hLeft :
        Go.split (header ++ "." ++ payload) '.' =
          [header, payload] := by
      have hJoined :
          header ++ "." ++ payload =
            Go.join [header, payload] '.' := by
        apply String.toList_inj.mp
        simp [Go.join, List.intercalate]
      rw [hJoined]
      apply Go.split_join
      · simp
      · intro part hPart
        simp only [List.mem_cons, List.not_mem_nil, or_false]
          at hPart
        rcases hPart with rfl | rfl
        · exact hHeader
        · exact hPayload
    have hRight :
        Go.split (inputOf data) '.' =
          [Go.encodeRawURL nkeyHeaderText,
            Go.encodeRawURL data] := by
      have hJoined :
          inputOf data =
            Go.join
              [Go.encodeRawURL nkeyHeaderText,
                Go.encodeRawURL data] '.' := by
        apply String.toList_inj.mp
        simp [inputOf, Go.join, List.intercalate]
      rw [hJoined]
      apply Go.split_join
      · simp
      · intro part hPart
        simp only [List.mem_cons, List.not_mem_nil, or_false]
          at hPart
        rcases hPart with rfl | rfl
        · exact noDot_encodeRawURL _
        · exact noDot_encodeRawURL _
    rw [hInput, hRight] at hLeft
    exact ((List.cons.inj (List.cons.inj hLeft).2).1).symm

/-
  A token that is verified over the signed text of some
  claims holds those very claims.
-/
theorem claims_of_signingInput
    {json : Json}
    (hJson : json.RoundTrips)
    {claims read : Claims}
    (hType : claims.typeName = some claims.fields.type)
    (hVersion : claims.fields.version = libVersion)
    {written bytes : List UInt8}
    (hMarshal : json.marshal claims = .ok written)
    {token header payload signature : String}
    (hSplit :
      Go.split token '.' = [header, payload, signature])
    (hBytes : Go.decodeRawURL payload = .ok bytes)
    {ver : Int}
    (hLoad : loadClaims json bytes = .ok (ver, read))
    (hInput :
      signingInput ver header payload = inputOf written) :
    read = claims := by
  have hHeader : '.' ∉ header.toList :=
    Go.not_mem_of_mem_split (by rw [hSplit]; simp)
  have hPayload : '.' ∉ payload.toList :=
    Go.not_mem_of_mem_split (by rw [hSplit]; simp)
  rw [parts_of_signingInput hHeader hPayload hInput,
    Go.decodeRawURL_encodeRawURL] at hBytes
  cases hBytes
  rw [loadClaims_of_marshal hJson hType hVersion hMarshal]
    at hLoad
  cases hLoad
  rfl

end NatsJwt

------------------------------------------------------------
-- JSON By A Table
------------------------------------------------------------

namespace NatsJwt

/- The claims that are written as these bytes. -/
def claimsAt
    (rows : List (Claims × List UInt8))
    (data : List UInt8) : Except String Claims :=
  match rows.find? (·.2 = data) with
  | some row => .ok row.1
  | none => .error "invalid character"

/- JSON for the claims of a table, and for nothing else. -/
def Json.ofTable
    (rows : List (Claims × List UInt8))
    (hash : ClaimsData → Except String String) : Json where
  toUpper := fun s => .ofList (s.toList.map Char.toUpper)
  toLower := fun s => .ofList (s.toList.map Char.toLower)
  unmarshalHeader := fun data =>
    if data = nkeyHeaderText then
      .ok nkeyHeader
    else
      .error "invalid character"
  unmarshalIdentifier := fun data =>
    (claimsAt rows data).map
      (fun claims => ⟨"", claims.fields⟩)
  unmarshalUser := fun data =>
    match claimsAt rows data with
    | .ok (.user claims) => .ok claims
    | _ => .error "invalid character"
  migrateUser := fun _ => .error "invalid character"
  unmarshalRequest := fun data =>
    match claimsAt rows data with
    | .ok (.request claims) => .ok claims
    | _ => .error "invalid character"
  unmarshalResponse := fun data =>
    match claimsAt rows data with
    | .ok (.response claims) => .ok claims
    | _ => .error "invalid character"
  unmarshalOther := fun kind data =>
    match claimsAt rows data with
    | .ok (.other written claims) =>
        if written = kind then
          .ok claims
        else
          .error "invalid character"
    | _ => .error "invalid character"
  marshal := fun claims =>
    match rows.find? (·.1 = claims) with
    | some row => .ok row.2
    | none => .error "unsupported type"
  hash := hash

/- Claims whose bytes are not those of others are found. -/
theorem claimsAt_of_mem
    {rows : List (Claims × List UInt8)}
    (hDistinct : (rows.map (·.2)).Nodup)
    {claims : Claims}
    {data : List UInt8}
    (hMem : (claims, data) ∈ rows) :
    claimsAt rows data = .ok claims := by
  unfold claimsAt
  induction rows with
  | nil => cases hMem
  | cons row rest ih =>
      rw [List.map_cons, List.nodup_cons] at hDistinct
      rcases List.mem_cons.mp hMem with rfl | hRest
      · rw [List.find?_cons_of_pos (by simp)]
      · have hOther : row.2 ≠ data := by
          intro hSame
          apply hDistinct.1
          rw [hSame]
          exact List.mem_map_of_mem hRest
        rw [List.find?_cons_of_neg (by simpa using hOther)]
        exact ih hDistinct.2 hRest

/- Claims of a table are written as they stand there. -/
theorem marshal_ofTable
    {rows : List (Claims × List UInt8)}
    (hDistinct : (rows.map (·.1)).Nodup)
    (hash : ClaimsData → Except String String)
    {claims : Claims}
    {data : List UInt8}
    (hMem : (claims, data) ∈ rows) :
    (Json.ofTable rows hash).marshal claims = .ok data := by
  unfold Json.ofTable
  dsimp only
  induction rows with
  | nil => cases hMem
  | cons row rest ih =>
      rw [List.map_cons, List.nodup_cons] at hDistinct
      rcases List.mem_cons.mp hMem with rfl | hRest
      · rw [List.find?_cons_of_pos (by simp)]
      · have hOther : row.1 ≠ claims := by
          intro hSame
          apply hDistinct.1
          rw [hSame]
          exact List.mem_map_of_mem hRest
        rw [List.find?_cons_of_neg (by simpa using hOther)]
        exact ih hDistinct.2 hRest

/- A table of different texts is read as it is written. -/
theorem roundTrips_ofTable
    {rows : List (Claims × List UInt8)}
    (hDistinct : (rows.map (·.2)).Nodup)
    (hash : ClaimsData → Except String String) :
    (Json.ofTable rows hash).RoundTrips := by
  have hRead :
      ∀ claims data,
        (Json.ofTable rows hash).marshal claims = .ok data →
          claimsAt rows data = .ok claims := by
    intro claims data hMarshal
    unfold Json.ofTable at hMarshal
    dsimp only at hMarshal
    split at hMarshal
    · rename_i row hRow
      cases hMarshal
      have hSame := List.find?_some hRow
      rw [decide_eq_true_eq] at hSame
      rw [← hSame]
      exact claimsAt_of_mem hDistinct
        (List.mem_of_find?_eq_some hRow)
    · cases hMarshal
  have hUpper :
      String.ofList (tokenTypeJwt.toList.map Char.toUpper) =
        tokenTypeJwt := by
    decide
  have hLower :
      String.ofList (algorithmNkey.toList.map Char.toLower) =
        algorithmNkey := by
    decide
  exact
    { upper := hUpper
      lower := hLower
      header := by
        unfold Json.ofTable
        dsimp only
        rw [if_pos rfl]
      identifier := by
        intro claims data _ hMarshal
        change (claimsAt rows data).map _ = _
        rw [hRead claims data hMarshal]
        rfl
      claims := by
        intro claims data hKnown hMarshal
        have hClaims := hRead claims data hMarshal
        unfold Json.unmarshal Json.ofTable
        cases claims with
        | other kind data => exact absurd rfl hKnown
        | _ => simp [hClaims, Except.map] }

end NatsJwt

------------------------------------------------------------
-- Signatures By A Table
------------------------------------------------------------

namespace NatsJwt

open AuthCallout.Auth

/- A key pair, the bytes of some claims and a signature. -/
structure Signed where
  pair : KeyPair
  data : List UInt8
  sig : List UInt8
deriving DecidableEq, Repr

/- The bytes that are signed. -/
def Signed.input (row : Signed) : List UInt8 :=
  bytesOf (inputOf row.data)

/- A pair that signs what a table has for it. -/
def SigningPair.ofTable
    (rows : List Signed)
    (pair : KeyPair) : SigningPair where
  pair := pair
  sign := fun input =>
    match rows.find? (fun row =>
        row.pair = pair ∧ row.input = input) with
    | some row => .ok row.sig
    | none =>
        .error "nkeys: cannot sign, no private key available"

/- Whether the table has this signature. -/
def verifyAt
    (rows : List Signed)
    (pub input sig : List UInt8) : Bool :=
  rows.any (fun row =>
    row.pair.pub = pub && row.input = input && row.sig = sig)

/- The signatures of a table are verified by it. -/
theorem verifies_ofTable
    {libs : Libraries}
    {rows : List Signed}
    {pair : KeyPair}
    (hLibs : libs.ed25519Verify = verifyAt rows)
    (hBody : pair.pub.length = publicKeySize)
    (hPublic :
      checkValidPublicPrefixByte pair.prefixByte = .ok ()) :
    (SigningPair.ofTable rows pair).Verifies libs where
  body := hBody
  isPublic := hPublic
  signs := by
    intro input sig hSign
    unfold SigningPair.ofTable at hSign ⊢
    dsimp only at hSign ⊢
    split at hSign
    · rename_i row hRow
      cases hSign
      have hSame := List.find?_some hRow
      rw [decide_eq_true_eq] at hSame
      rw [hLibs, verifyAt, List.any_eq_true]
      refine ⟨row, List.mem_of_find?_eq_some hRow, ?_⟩
      simp [hSame]
    · cases hSign

/- The loop that lists bytes goes on behind those it has. -/
theorem toList_loop
    (bytes : ByteArray)
    (left : ℕ) :
    ∀ i seen,
      bytes.size - i = left →
        ByteArray.toList.loop bytes i seen =
          seen.reverse ++ bytes.data.toList.drop i := by
  induction left with
  | zero =>
      intro i seen hLeft
      have hEnd : bytes.data.toList.length ≤ i := by
        rw [Array.length_toList]
        exact Nat.le_of_sub_eq_zero hLeft
      rw [ByteArray.toList.loop,
        if_neg (by
          intro hMore
          rw [Array.length_toList] at hEnd
          exact absurd hMore (Nat.not_lt.mpr hEnd)),
        List.drop_of_length_le hEnd, List.append_nil]
  | succ left ih =>
      intro i seen hLeft
      have hMore : i < bytes.data.size := by
        have hPos : 0 < bytes.size - i := by omega
        exact Nat.lt_of_sub_pos hPos
      have hGet : bytes.get! i = bytes.data[i] :=
        getElem!_pos bytes.data i hMore
      have hSize : i < bytes.size := hMore
      have hDrop :
          bytes.data.toList.drop i =
            bytes.data[i] :: bytes.data.toList.drop (i + 1) :=
        List.drop_eq_getElem_cons
          (by rw [Array.length_toList]; exact hMore)
      rw [ByteArray.toList.loop, if_pos hSize,
        ih (i + 1) _ (by omega), hGet, hDrop,
        List.reverse_cons, List.append_assoc,
        List.singleton_append]

/- Different texts have different bytes. -/
theorem bytesOf_inj
    {s t : String}
    (hBytes : bytesOf s = bytesOf t) :
    s = t := by
  have hList :
      ∀ bytes : ByteArray, bytes.toList = bytes.data.toList := by
    intro bytes
    have hLoop := toList_loop bytes _ 0 [] rfl
    rw [List.reverse_nil, List.nil_append, List.drop_zero]
      at hLoop
    exact hLoop
  unfold bytesOf at hBytes
  rw [hList, hList] at hBytes
  exact
    String.toByteArray_inj.mp
      (ByteArray.ext (Array.toList_inj.mp hBytes))

theorem encodeRawURL_inj
    {data other : List UInt8}
    (hText : Go.encodeRawURL data = Go.encodeRawURL other) :
    data = other := by
  have hRead := Go.decodeRawURL_encodeRawURL data
  rw [hText, Go.decodeRawURL_encodeRawURL] at hRead
  exact (Except.ok.inj hRead).symm

/- Different claims have different bytes to be signed. -/
theorem Signed.data_of_input
    {row other : Signed}
    (hInput : row.input = other.input) :
    row.data = other.data := by
  have hText := congrArg String.toList (bytesOf_inj hInput)
  simp only [inputOf, String.toList_append] at hText
  exact
    encodeRawURL_inj
      (String.toList_inj.mp (List.append_cancel_left hText))

/- A table with different claims has all its signatures. -/
theorem sign_ofTable
    {rows : List Signed}
    (hDistinct : (rows.map (·.data)).Nodup)
    {pair : KeyPair}
    {data sig : List UInt8}
    (hMem : ⟨pair, data, sig⟩ ∈ rows) :
    (SigningPair.ofTable rows pair).sign
        (bytesOf (inputOf data)) =
      .ok sig := by
  unfold SigningPair.ofTable
  dsimp only
  induction rows with
  | nil => cases hMem
  | cons first rest ih =>
      rw [List.map_cons, List.nodup_cons] at hDistinct
      rcases List.mem_cons.mp hMem with rfl | hRest
      · rw [List.find?_cons_of_pos (by simp [Signed.input])]
      · have hOther :
            ¬ (first.pair = pair ∧
              first.input = bytesOf (inputOf data)) := by
          rintro ⟨_, hInput⟩
          apply hDistinct.1
          have hSame :
              first.input = Signed.input ⟨pair, data, sig⟩ :=
            hInput
          rw [Signed.data_of_input hSame]
          exact List.mem_map_of_mem hRest
        rw [List.find?_cons_of_neg (by simpa using hOther)]
        exact ih hDistinct.2 hRest

/- The token that is encoded, from its parts. -/
theorem doEncode_of_signed
    {json : Json}
    {kp : SigningPair}
    {now : Int}
    {claims : Claims}
    {issuer id : String}
    {data sig : List UInt8}
    (hSubject : claims.data.subject ≠ "")
    (hIssuer : kp.pair.publicKey = .ok issuer)
    (hPrefixes : checkPrefixes claims issuer = .ok ())
    (hHash :
      json.hash
          { claims.data with
            issuer := issuer
            issuedAt := now
            id := "" } =
        .ok id)
    (hMarshal :
      json.marshal (claims.stamp issuer now id) = .ok data)
    (hSign : kp.sign (bytesOf (inputOf data)) = .ok sig) :
    doEncode json kp now claims =
      .ok (inputOf data ++ "." ++ Go.encodeRawURL sig) := by
  unfold doEncode
  rw [if_neg hSubject, hIssuer]
  dsimp only
  rw [hPrefixes]
  dsimp only
  rw [hHash]
  dsimp only
  unfold Claims.stamp at hMarshal
  rw [hMarshal]
  dsimp only
  unfold inputOf at hSign ⊢
  rw [hSign]

end NatsJwt
