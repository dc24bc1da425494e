import DsxExchange.AuthCallout.Callout.Handler

/-
  The other side of the exchange: how the vendored NATS server
  asks the service about a client, and what it makes of a
  reply. The server has no operator; its callout is set up in
  its configuration file.

  Key definitions include:
    * `NatsServer.Client`, `NatsServer.Server`
    * `NatsServer.sendRequest`
    * `NatsServer.decodeResponse`
    * `NatsServer.processReply`
-/

------------------------------------------------------------
-- Accounts And Users
------------------------------------------------------------

namespace NatsServer

open AuthCallout AuthCallout.Config NatsJwt

/- `SubjectPermission`. A nil `allow` allows everything. -/
structure SubjectPermission where
  allow : Option (List String)
  deny : Option (List String)
deriving DecidableEq, Repr

/- `Permissions`. -/
structure Permissions where
  publish : Option SubjectPermission
  subscribe : Option SubjectPermission
  response : Option ResponsePermission
deriving DecidableEq, Repr

/- `Account`, as far as a login reads it. -/
structure Account where
  name : String
  defaultPerms : Option Permissions
deriving DecidableEq, Repr

/- `NkeyUser`. -/
structure NkeyUser where
  nkey : String
  account : Account
  permissions : Option Permissions
  allowedConnectionTypes : List String
  issued : Int
  signingKey : String
deriving DecidableEq, Repr

def defaultAllowResponseMaxMsgs : Int := 1

/- Two minutes, in nanoseconds. -/
def defaultAllowResponseExpiration : Int := 120000000000

/- A list of a token, which is nil when it is empty. -/
def nonNil (subjects : List String) :
    Option (List String) :=
  if subjects = [] then none else some subjects

/- The permissions for one direction, if there are any. -/
def buildSubjectPermission
    (p : Permission) : Option SubjectPermission :=
  if p.allow.length > 0 ∨ p.deny.length > 0 then
    some ⟨nonNil p.allow, nonNil p.deny⟩
  else
    none

/- `validateResponsePermissions`, for a response. -/
def validateResponsePermissions
    (publish : Option SubjectPermission)
    (response : ResponsePermission) :
    Option SubjectPermission × ResponsePermission :=
  let publish := publish.getD ⟨none, none⟩
  (some { publish with allow := some (publish.allow.getD []) },
    { maxMsgs :=
        if response.maxMsgs = 0 then
          defaultAllowResponseMaxMsgs
        else
          response.maxMsgs
      expires :=
        if response.expires = 0 then
          defaultAllowResponseExpiration
        else
          response.expires })

/- `buildPermissionsFromJwt`, nil for no permissions. -/
def buildPermissionsFromJwt
    (uc : Config.Permissions) : Option Permissions :=
  let publish := buildSubjectPermission uc.pub
  let subscribe := buildSubjectPermission uc.sub
  match uc.resp with
  | some resp =>
      let checked := validateResponsePermissions publish resp
      some ⟨checked.1, subscribe, some checked.2⟩
  | none =>
      if publish.isSome ∨ subscribe.isSome then
        some ⟨publish, subscribe, none⟩
      else
        none

/- `buildInternalNkeyUser`. -/
def buildInternalNkeyUser
    (uc : NatsJwt.UserClaims)
    (acts : List String)
    (acc : Account) : NkeyUser where
  nkey := uc.claimsData.subject
  account := acc
  permissions :=
    (buildPermissionsFromJwt uc.nats.permissions).or
      acc.defaultPerms
  allowedConnectionTypes := acts
  issued := uc.claimsData.issuedAt
  signingKey :=
    if uc.nats.issuerAccount ≠ "" then
      uc.claimsData.issuer
    else
      ""

/- The known connection types. -/
def connectionTypes : List String :=
  ["STANDARD", "WEBSOCKET", "LEAFNODE", "LEAFNODE_WS", "MQTT",
    "MQTT_WS", "IN_PROCESS"]

/-
  `convertAllowedConnectionTypes`: the known types, and
  whether there was any other.
-/
def convertAllowedConnectionTypes
    (toUpper : String → String)
    (cts : List String) : List String × Bool :=
  let upper := cts.map toUpper
  (upper.filter (· ∈ connectionTypes),
    upper.any (· ∉ connectionTypes))

end NatsServer

------------------------------------------------------------
-- The Server
------------------------------------------------------------

namespace NatsServer

open AuthCallout AuthCallout.Callout NatsJwt

/- The section `auth_callout` of the configuration. -/
structure AuthCalloutOptions where
  issuer : String
  account : String
  xkey : String
deriving DecidableEq, Repr

/- The state of a client's TLS connection, with PEM texts. -/
structure ConnectionState where
  version : String
  cipher : String
  verifiedChains : List (List String)
  peerCertificates : List String
deriving DecidableEq, Repr

/- What a request tells about a client. -/
structure Client where
  information : NatsJwt.ClientInformation
  options : NatsJwt.ConnectOptions
  nonce : String
  connectionState : Option ConnectionState
deriving DecidableEq, Repr

/-
  `Server`, without an operator. Its times are those of its
  own clock; `allowsTimes` stands for `validateTimes` on
  limits that name times of day.
-/
structure Server where
  info : ServerID
  kp : SigningPair
  xkp : CurveKey
  authCallout : AuthCalloutOptions
  lookupAccount : String → Except String Account
  registerWithAccount : Account → Except String Unit
  allowsTimes : Limits → Bool
  checks : LimitChecks

/- Whether the server has been asked to encrypt. -/
def Server.encrypts (s : Server) : Bool :=
  s.authCallout.xkey ≠ ""

end NatsServer

------------------------------------------------------------
-- The Request
------------------------------------------------------------

namespace NatsServer

open AuthCallout AuthCallout.Callout NatsJwt

/- Certificates are given as chains only if verified. -/
def clientTLS (cs : ConnectionState) : NatsJwt.ClientTLS where
  version := cs.version
  cipher := cs.cipher
  certs :=
    if cs.verifiedChains.length = 0 then
      cs.peerCertificates
    else
      []
  verifiedChains := cs.verifiedChains

/- The request about a client, for a fresh user key. -/
def authorizationRequest
    (s : Server)
    (c : Client)
    (pub : String) : NatsJwt.AuthorizationRequest where
  server :=
    { s.info with
      xkey := if s.encrypts then s.info.xkey else "" }
  userNkey := pub
  clientInformation :=
    { c.information with
      nonce :=
        if c.options.signedNonce ≠ "" then c.nonce else "" }
  connectOptions := c.options
  tls := c.connectionState.map clientTLS
  requestNonce := ""
  fields := .zero

/- Its claims, whose subject is the expected issuer. -/
def requestClaims
    (s : Server)
    (c : Client)
    (pub : String)
    (expires : Int) : AuthorizationRequestClaims where
  claimsData :=
    { ClaimsData.ofSubject s.authCallout.issuer with
      audience := expectedAudience
      expires := expires }
  nats := authorizationRequest s c pub

/-
  The message of the request: signed by the server, and sealed
  for the service if it has to be.
-/
def sendRequest
    (package : Package)
    (s : Server)
    (c : Client)
    (pub reply : String)
    (now expires : Int) : Except String Message :=
  match s.lookupAccount s.authCallout.account with
  | .error err =>
      .error
        ("No valid account " ++
          Go.quote s.authCallout.account ++
          " for auth callout request: " ++ err)
  | .ok acc =>
      match (requestClaims s c pub expires).encode package.json
          s.kp now with
      | .error err =>
          .error
            ("Error encoding auth request claim on account " ++
              Go.quote acc.name ++ ": " ++ err)
      | .ok b =>
          if s.encrypts then
            match s.xkp.sealBox b s.authCallout.xkey with
            | .error err =>
                .error
                  ("Error encrypting auth request claim on " ++
                    "account " ++ Go.quote acc.name ++ ": " ++
                    err)
            | .ok req => .ok ⟨req, s.info.xkey, reply⟩
          else
            .ok ⟨b, "", reply⟩

end NatsServer

------------------------------------------------------------
-- The Reply
------------------------------------------------------------

namespace NatsServer

open AuthCallout AuthCallout.Callout NatsJwt

def jwtPrefix : String := "eyJ"

/- The payload of a reply as a token's text. -/
def readReply
    (s : Server)
    (msg : String) : Except String String :=
  if msg = "" then
    .error
      ("auth callout violation: \"no reason supplied\" on " ++
        "account " ++ Go.quote s.authCallout.account)
  else if s.encrypts && !Go.hasPrefix msg jwtPrefix then
    match s.xkp.openBox msg s.authCallout.xkey with
    | .error err =>
        .error
          ("error decrypting auth callout response on " ++
            "account " ++ Go.quote s.authCallout.account ++
            ": " ++ err)
    | .ok msg => .ok msg
  else
    .ok msg

/- The checks of `decodeResponse` on the response's claims. -/
def checkResponse
    (s : Server)
    (pub : String)
    (now : Int)
    (cr : AuthorizationResponseClaims) :
    Except String Unit :=
  match cr.validate now with
  | issue :: _ =>
      .error
        ("authorization response had validation errors: " ++
          issue.description)
  | [] =>
      if cr.claimsData.subject ≠ pub then
        .error
          ("auth callout violation: auth callout response " ++
            "is not for expected user")
      else if cr.claimsData.audience ≠ s.info.id then
        .error
          ("auth callout violation: auth callout response " ++
            "is not for server")
      else if cr.nats.error ≠ "" then
        .error
          ("auth callout service returned an error: " ++
            cr.nats.error)
      else
        .ok ()

/- `decodeResponse`. -/
def decodeResponse
    (package : Package)
    (s : Server)
    (pub : String)
    (now : Int)
    (rmsg : String) : Except Go.Fault NatsJwt.UserClaims :=
  match readReply s rmsg with
  | .error err => .error (.error err)
  | .ok msg =>
      match decodeAuthorizationResponseClaims package msg with
      | .error fault => .error fault
      | .ok cr =>
          match checkResponse s pub now cr with
          | .error err => .error (.error err)
          | .ok () => decodeUserClaims package cr.nats.jwt

/- `getIssuerAccount`. -/
def getIssuerAccount
    (s : Server)
    (arc : NatsJwt.UserClaims) : Except String String :=
  if arc.nats.issuerAccount ≠ "" then
    .error
      ("error non operator mode account " ++
        Go.quote s.authCallout.account ++
        ": attempted to use issuer_account")
  else if arc.claimsData.issuer ≠ s.authCallout.issuer then
    .error
      ("wrong issuer for auth callout response on account " ++
        Go.quote s.authCallout.account ++ ", expected " ++
        Go.quote s.authCallout.issuer ++ " got " ++
        Go.quote arc.claimsData.issuer)
  else
    .ok arc.claimsData.issuer

/- `getExpirationAndAllowedConnections`, without the time. -/
def getAllowedConnections
    (package : Package)
    (s : Server)
    (arc : NatsJwt.UserClaims) :
    Except String (List String) :=
  if arc.nats.limits.times ≠ [] ∧
      s.allowsTimes arc.nats.limits = false then
    .error
      ("authorized user on account " ++
        Go.quote s.authCallout.account ++
        " outside of valid connect times")
  else
    match convertAllowedConnectionTypes package.json.toUpper
        arc.nats.allowedConnectionTypes with
    | ([], true) =>
        .error
          ("authorized user on account " ++
            Go.quote s.authCallout.account ++
            " using invalid connection type")
    | (allowed, _) => .ok allowed

/- `assignAccountAndPermissions`: the audience is the place. -/
def assignAccountAndPermissions
    (s : Server)
    (arc : NatsJwt.UserClaims) : Except String Account :=
  match getIssuerAccount s arc with
  | .error err => .error err
  | .ok _ =>
      match s.lookupAccount arc.claimsData.audience with
      | .error err =>
          .error
            ("no valid account " ++
              Go.quote arc.claimsData.audience ++
              " for auth callout response on account " ++
              Go.quote s.authCallout.account ++ ": " ++ err)
      | .ok targetAcc => .ok targetAcc

/-
  `titleCase`: the first letter of an error's text is made
  upper case. An empty text has no first letter.
-/
def titleCase (m : String) : Go.Fault :=
  match m.toList with
  | [] => .panic
  | c :: rest => .error (String.ofList (c.toUpper :: rest))

/- What a client has become: a user, perhaps with a name. -/
structure Bound where
  user : NkeyUser
  username : Option String
deriving DecidableEq, Repr

/- `processReply`, from the claims of the user on. -/
def bindUser
    (package : Package)
    (s : Server)
    (pub : String)
    (now : Int)
    (arc : NatsJwt.UserClaims) : Except Go.Fault Bound :=
  match arc.validate s.checks now with
  | issue :: _ =>
      .error (.error
        ("Error validating user JWT: " ++ issue.description))
  | [] =>
      if arc.claimsData.subject ≠ pub then
        .error (.error
          ("Expected authorized user of " ++ Go.quote pub ++
            " but got " ++ Go.quote arc.claimsData.subject ++
            " on account " ++
            Go.quote s.authCallout.account))
      else
        match getAllowedConnections package s arc with
        | .error err => .error (titleCase err)
        | .ok acts =>
            match assignAccountAndPermissions s arc with
            | .error err => .error (titleCase err)
            | .ok targetAcc =>
                match s.registerWithAccount targetAcc with
                | .error err =>
                    .error (.error
                      ("Could not register auth callout " ++
                        "user: " ++ err))
                | .ok () =>
                    .ok
                      { user :=
                          buildInternalNkeyUser arc acts
                            targetAcc
                        username :=
                          if arc.claimsData.name ≠ "" then
                            some arc.claimsData.name
                          else
                            none }

/- `processReply`: the user, or the reason for refusing. -/
def processReply
    (package : Package)
    (s : Server)
    (pub : String)
    (now : Int)
    (rmsg : String) : Except Go.Fault Bound :=
  match decodeResponse package s pub now rmsg with
  | .error .panic => .error .panic
  | .error (.error err) => .error (titleCase err)
  | .ok arc => bindUser package s pub now arc

end NatsServer
