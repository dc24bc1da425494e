import DsxExchange.AuthCallout.Service
import DsxExchange.NatsJwt.Tokens

/-
  The vendored package `callout.go`, as the service runs it:
  how a request message is taken apart, and what is replied.

  The bytes of a message are a text with one character for
  each byte; a token is its own bytes.

  Key definitions include:
    * `AuthCallout.Callout.CurveKey`,
      `AuthCallout.Callout.CurveKey.ofTable`
    * `AuthCallout.Callout.Options`
    * `AuthCallout.Callout.decode`
    * `AuthCallout.Callout.serviceHandler`
    * `AuthCallout.Callout.Service`
    * `AuthCallout.Callout.Service.answer`

  Key theorems include:
    * `AuthCallout.Callout.CurveKey.authentic_ofTable`
    * `AuthCallout.Callout.serviceHandler_ok_some_iff`
-/

------------------------------------------------------------
-- Options
------------------------------------------------------------

namespace AuthCallout

namespace Callout

open NatsJwt

/- `XKeyVersionV1`. -/
def xKeyVersionV1 : String := "xkv1"

/- A curve key pair: `Open` from a sender, `Seal` for one. -/
structure CurveKey where
  openBox : String → String → Except String String
  sealBox : String → String → Except String String

/- What is sealed has the version in front. -/
def CurveKey.Versioned (sealer : CurveKey) : Prop :=
  ∀ input recipient data,
    sealer.sealBox input recipient = .ok data →
      ∃ body, data = xKeyVersionV1 ++ body

/- Opening gives back what was sealed, or fails. -/
def CurveKey.Authentic (sealer opener : CurveKey) : Prop :=
  ∀ input recipient data sender output,
    sealer.sealBox input recipient = .ok data →
      opener.openBox data sender = .ok output →
        output = input

/- A sealed message, and the keys of the two sides. -/
structure Sealed where
  sender : String
  recipient : String
  input : String
  data : String
deriving DecidableEq, Repr

/- The pair of a key, for the messages of a table. -/
def CurveKey.ofTable
    (table : List Sealed)
    (own : String) : CurveKey where
  openBox := fun data sender =>
    match table.find? (fun row =>
        row.recipient = own ∧ row.sender = sender ∧
          row.data = data) with
    | some row => .ok row.input
    | none => .error "nkeys: could not decrypt input"
  sealBox := fun input recipient =>
    match table.find? (fun row =>
        row.sender = own ∧ row.recipient = recipient ∧
          row.input = input) with
    | some row => .ok row.data
    | none =>
        .error
          "nkeys: not a valid recipient public curve key"

/- The options that `Run` gives. -/
structure Options where
  responseSignerKey : SigningPair
  responseSignerIssuer : String
  encryptionKey : Option CurveKey

/- A request message, with the header that is read. -/
structure Message where
  data : String
  serverXKey : String
  reply : String
deriving DecidableEq, Repr

/- What is published on the reply subject. -/
structure Reply where
  unauthorized : Bool
  data : String
deriving DecidableEq, Repr

def expectedAudience : String := "nats-authorization-request"

end Callout

end AuthCallout

------------------------------------------------------------
-- Keys Of A Table
------------------------------------------------------------

namespace AuthCallout

namespace Callout

namespace CurveKey

variable {table : List Sealed} {own other : String}
variable {input data : String}

theorem sealBox_ofTable
    (hSeal :
      (ofTable table own).sealBox input other = .ok data) :
    ⟨own, other, input, data⟩ ∈ table := by
  unfold ofTable at hSeal
  dsimp only at hSeal
  split at hSeal
  · rename_i row hFind
    have hRow := List.find?_some hFind
    have hMem := List.mem_of_find?_eq_some hFind
    rcases of_decide_eq_true hRow with
      ⟨rfl, rfl, rfl⟩
    cases hSeal
    exact hMem
  · cases hSeal

theorem openBox_ofTable
    (hOpen :
      (ofTable table own).openBox data other = .ok input) :
    ⟨other, own, input, data⟩ ∈ table := by
  unfold ofTable at hOpen
  dsimp only at hOpen
  split at hOpen
  · rename_i row hFind
    have hRow := List.find?_some hFind
    have hMem := List.mem_of_find?_eq_some hFind
    rcases of_decide_eq_true hRow with
      ⟨rfl, rfl, rfl⟩
    cases hOpen
    exact hMem
  · cases hOpen

/- What has been sealed is found only once. -/
theorem eq_of_data
    (hDistinct : (table.map (·.data)).Nodup)
    {row row' : Sealed}
    (hMem : row ∈ table)
    (hMem' : row' ∈ table)
    (hData : row.data = row'.data) : row = row' :=
  List.inj_on_of_nodup_map hDistinct hMem hMem' hData

theorem openBox_of_mem
    (hDistinct : (table.map (·.data)).Nodup)
    (hMem : ⟨other, own, input, data⟩ ∈ table) :
    (ofTable table own).openBox data other = .ok input := by
  unfold ofTable
  dsimp only
  split
  · rename_i row hFind
    have hRow := List.find?_some hFind
    have hSame :=
      eq_of_data hDistinct (List.mem_of_find?_eq_some hFind)
        hMem (of_decide_eq_true hRow).2.2
    rw [hSame]
  · rename_i hFind
    have hNone := List.find?_eq_none.mp hFind _ hMem
    exact absurd (decide_eq_true ⟨rfl, rfl, rfl⟩) hNone

theorem sealBox_of_mem
    (hDistinct :
      (table.map fun row => (row.sender, row.input)).Nodup)
    (hMem : ⟨own, other, input, data⟩ ∈ table) :
    (ofTable table own).sealBox input other = .ok data := by
  unfold ofTable
  dsimp only
  split
  · rename_i row hFind
    have hRow := List.find?_some hFind
    rcases of_decide_eq_true hRow with ⟨hOwn, _, hInput⟩
    have hSame : row = ⟨own, other, input, data⟩ := by
      apply List.inj_on_of_nodup_map hDistinct
        (List.mem_of_find?_eq_some hFind) hMem
      rw [hOwn, hInput]
    rw [hSame]
  · rename_i hFind
    have hNone := List.find?_eq_none.mp hFind _ hMem
    exact absurd (decide_eq_true ⟨rfl, rfl, rfl⟩) hNone

theorem authentic_ofTable
    (hDistinct : (table.map (·.data)).Nodup) :
    (ofTable table own).Authentic (ofTable table other) := by
  intro input recipient data sender output hSeal hOpen
  have hSame :=
    eq_of_data hDistinct (openBox_ofTable hOpen)
      (sealBox_ofTable hSeal) rfl
  exact (Sealed.mk.inj hSame).2.2.1

theorem versioned_ofTable
    (hVersion :
      ∀ row ∈ table, ∃ body, row.data = xKeyVersionV1 ++ body) :
    (ofTable table own).Versioned := by
  intro input recipient data hSeal
  exact hVersion _ (sealBox_ofTable hSeal)

end CurveKey

end Callout

end AuthCallout

------------------------------------------------------------
-- Requests
------------------------------------------------------------

namespace AuthCallout

namespace Callout

open NatsJwt

/- The checks of `decode` on the claims of a request. -/
def checkRequest
    (arc : AuthorizationRequestClaims) :
    Except String AuthorizationRequest :=
  if !Go.hasPrefix arc.claimsData.issuer "N" then
    .error
      ("bad request: expected server: " ++
        Go.quote arc.claimsData.issuer)
  else if arc.claimsData.issuer ≠ arc.nats.server.id then
    .error
      ("bad request: issuers don't match: " ++
        Go.quote arc.claimsData.audience ++ " != " ++
        Go.quote arc.nats.server.id)
  else if arc.claimsData.audience ≠ expectedAudience then
    .error
      ("bad request: unexpected audience: " ++
        Go.quote arc.claimsData.audience)
  else
    .ok arc.nats

/-
  The payload of a message as a token's text, if it is sealed
  exactly when the service has a key.
-/
def readPayload
    (o : Options)
    (msg : Message) : Except String String :=
  if msg.data.length < 4 then
    .error
      ("bad request: payload too short: " ++
        toString msg.data.length)
  else
    let isEncrypted := !Go.hasPrefix msg.data "eyJ0"
    match o.encryptionKey with
    | some key =>
        if !isEncrypted then
          .error
            ("bad request: encryption mismatch: payload is " ++
              "not encrypted")
        else
          match key.openBox msg.data msg.serverXKey with
          | .error err =>
              .error
                ("bad request: error decrypting message: " ++
                  err)
          | .ok data => .ok data
    | none =>
        if isEncrypted then
          .error
            ("bad request: encryption mismatch: payload is " ++
              "encrypted")
        else
          .ok msg.data

/-
  `decode`. Each of its errors is joined with
  `ErrAbortRequest`.
-/
def decode
    (package : Package)
    (o : Options)
    (msg : Message) :
    Except Go.Fault AuthorizationRequest :=
  match readPayload o msg with
  | .error err => .error (.error err)
  | .ok data =>
      match decodeAuthorizationRequestClaims package data with
      | .error .panic => .error .panic
      | .error (.error err) =>
          .error (.error
            ("bad request: error decoding auth request: " ++
              err))
      | .ok arc =>
          match checkRequest arc with
          | .error err => .error (.error err)
          | .ok req => .ok req

end Callout

end AuthCallout

------------------------------------------------------------
-- Responses
------------------------------------------------------------

namespace AuthCallout

namespace Callout

open NatsJwt

/- The response to a request, without an answer in it. -/
def prepareResponse
    (o : Options)
    (req : AuthorizationRequest) :
    Option AuthorizationResponseClaims :=
  match newAuthorizationResponseClaims req.userNkey with
  | none => none
  | some resp =>
      some
        { claimsData :=
            { resp.claimsData with audience := req.server.id }
          nats :=
            { resp.nats with
              issuerAccount := o.responseSignerIssuer } }

/-
  `sendResponse`. A request was encrypted exactly when the
  service has a key.
-/
def sendResponse
    (package : Package)
    (o : Options)
    (now : Int)
    (req : AuthorizationRequest)
    (resp : AuthorizationResponseClaims) :
    Except String Reply :=
  match resp.encode package.json o.responseSignerKey now with
  | .error err => .error err
  | .ok token =>
      match o.encryptionKey with
      | none => .ok ⟨resp.nats.error ≠ "", token⟩
      | some key =>
          match key.sealBox token req.server.xkey with
          | .error err => .error err
          | .ok data => .ok ⟨resp.nats.error ≠ "", data⟩

/-
  `ServiceHandler`. Setting a field of a nil response panics,
  and what cannot be sent is logged.
-/
def serviceHandler
    (package : Package)
    (o : Options)
    (authorize :
      AuthorizationRequest → Except Go.Fault String)
    (now : Int)
    (msg : Message) : Except Go.Fault (Option Reply) :=
  match decode package o msg with
  | .error .panic => .error .panic
  | .error (.error _) => .ok none
  | .ok req =>
      match prepareResponse o req with
      | none => .error .panic
      | some resp =>
          match authorize req with
          | .error .panic => .error .panic
          | .error (.error err) =>
              .ok (sendResponse package o now req
                { resp with
                  nats :=
                    { resp.nats with error := err } }).toOption
          | .ok user =>
              if user = "" then
                .ok none
              else
                .ok (sendResponse package o now req
                  { resp with
                    nats :=
                      { resp.nats with jwt := user } }).toOption

end Callout

end AuthCallout

------------------------------------------------------------
-- The Authorizer
------------------------------------------------------------

namespace AuthCallout

namespace Callout

open Auth Config NatsJwt

/- What the handler of the service reads of a request. -/
def requestOf
    (req : NatsJwt.AuthorizationRequest) :
    Auth.AuthorizationRequest where
  userNkey := req.userNkey
  clientInformation := ⟨req.clientInformation.nonce⟩
  connectOptions :=
    { token := req.connectOptions.token
      username := req.connectOptions.username
      password := req.connectOptions.password
      nkey := req.connectOptions.nkey
      signedNonce := req.connectOptions.signedNonce }
  tls := req.tls.map (fun tls => ⟨tls.verifiedChains⟩)

/-
  The claims that `handleAuthRequest` builds: what it does not
  set is as `NewUserClaims` leaves it.
-/
def userClaimsOf
    (uc : UserClaims) : NatsJwt.UserClaims where
  claimsData :=
    { ClaimsData.ofSubject uc.subject with
      name := uc.name
      audience := uc.audience }
  nats :=
    { permissions := uc.permissions
      limits :=
        { src := []
          times := []
          locale := ""
          subs := uc.subs
          data := uc.data
          payload := uc.payload }
      bearerToken := false
      proxyRequired := false
      allowedConnectionTypes := []
      issuerAccount := ""
      fields := .zero }

/- How `handleAuthRequest` validates and encodes a user. -/
def userIssuer
    (package : Package)
    (checks : LimitChecks)
    (kp : SigningPair)
    (now : Int) : Issuer where
  validationErrors := fun uc =>
    errorsOf ((userClaimsOf uc).validate checks now)
  encode := fun uc =>
    (userClaimsOf uc).encode package.json kp now

/- The keys and the authenticators of the running service. -/
structure Service where
  package : Package
  checks : LimitChecks
  issuerKeyPair : SigningPair
  issuerPubKey : String
  curveKeyPair : Option CurveKey
  authenticators : List Authenticator

/- The options of `Run`. -/
def Service.options (s : Service) : Options where
  responseSignerKey := s.issuerKeyPair
  responseSignerIssuer := s.issuerPubKey
  encryptionKey := s.curveKeyPair

/- `handleAuthRequest`, with the tables of the moment. -/
def Service.handle
    (s : Service)
    (now : Int)
    (w : World)
    (req : NatsJwt.AuthorizationRequest) :
    Except Go.Fault UserJWT :=
  (handleAuthRequest s.package.libs
    (userIssuer s.package s.checks s.issuerKeyPair now)
    s.authenticators (requestOf req)).eval w

/- The handler of one message, as `Run` sets it up. -/
def Service.answer
    (s : Service)
    (now : Int)
    (w : World)
    (msg : Message) : Except Go.Fault (Option Reply) :=
  serviceHandler s.package s.options
    (fun req => (s.handle now w req).map (·.encoded)) now msg

end Callout

end AuthCallout

------------------------------------------------------------
-- What Is Replied
------------------------------------------------------------

namespace AuthCallout

namespace Callout

open NatsJwt

/- The response with the answer of the authorizer. -/
def responseOf
    (o : Options)
    (req : AuthorizationRequest)
    (jwt err : String) : AuthorizationResponseClaims where
  claimsData :=
    { ClaimsData.ofSubject req.userNkey with
      audience := req.server.id }
  nats :=
    { jwt := jwt
      error := err
      issuerAccount := o.responseSignerIssuer
      fields := .zero }

/- An authorizer grants a token or refuses with an error. -/
inductive Answers
    (authorize :
      AuthorizationRequest → Except Go.Fault String)
    (req : AuthorizationRequest) :
    String → String → Prop where
| granted
    {user : String}
    (hUser : authorize req = .ok user)
    (hSome : user ≠ "") :
    Answers authorize req user ""
| refused
    {err : String}
    (hErr : authorize req = .error (.error err)) :
    Answers authorize req "" err

variable {package : Package} {o : Options} {now : Int}
variable
  {authorize : AuthorizationRequest → Except Go.Fault String}

theorem prepareResponse_of_ne
    {req : AuthorizationRequest}
    (hNkey : req.userNkey ≠ "") :
    prepareResponse o req = some (responseOf o req "" "") := by
  unfold prepareResponse newAuthorizationResponseClaims
  rw [if_neg hNkey]
  rfl

theorem prepareResponse_eq_none
    {req : AuthorizationRequest}
    (hNkey : req.userNkey = "") :
    prepareResponse o req = none := by
  unfold prepareResponse newAuthorizationResponseClaims
  rw [if_pos hNkey]

/-
  There is a reply to a message with a request in it, if the
  authorizer answers it and the response can be sent.
-/
theorem serviceHandler_ok_some_iff
    {msg : Message}
    {reply : Reply} :
    serviceHandler package o authorize now msg =
        .ok (some reply) ↔
      ∃ req jwt err,
        decode package o msg = .ok req ∧
          req.userNkey ≠ "" ∧
            Answers authorize req jwt err ∧
              sendResponse package o now req
                  (responseOf o req jwt err) =
                .ok reply := by
  unfold serviceHandler
  constructor
  · intro hReply
    split at hReply
    · cases hReply
    · cases hReply
    · rename_i req hDecode
      by_cases hNkey : req.userNkey = ""
      · rw [prepareResponse_eq_none hNkey] at hReply
        cases hReply
      · rw [prepareResponse_of_ne hNkey] at hReply
        dsimp only at hReply
        split at hReply
        · cases hReply
        · rename_i err hErr
          refine ⟨req, "", err, hDecode, hNkey,
            .refused hErr, ?_⟩
          exact Go.toOption_eq_some_iff.mp
            (Except.ok.inj hReply)
        · rename_i user hUser
          split at hReply
          · cases hReply
          · rename_i hSome
            refine ⟨req, user, "", hDecode, hNkey,
              .granted hUser hSome, ?_⟩
            exact Go.toOption_eq_some_iff.mp
              (Except.ok.inj hReply)
  · rintro ⟨req, jwt, err, hDecode, hNkey, hAnswers, hSend⟩
    rw [hDecode]
    dsimp only
    rw [prepareResponse_of_ne hNkey]
    dsimp only
    cases hAnswers with
    | granted hUser hSome =>
        rw [hUser]
        dsimp only
        rw [if_neg hSome]
        exact congrArg Except.ok
          (Go.toOption_eq_some_iff.mpr hSend)
    | refused hErr =>
        rw [hErr]
        exact congrArg Except.ok
          (Go.toOption_eq_some_iff.mpr hSend)

end Callout

end AuthCallout
