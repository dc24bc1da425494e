import DsxExchange.AuthCallout.Callout.Exchange
import Mathlib.Logic.Relation
import Mathlib.Logic.Function.Basic

/-
  Runs of the whole exchange: any number of servers and of
  clients, one issuer, tables that change, and messages that
  are lost, repeated, reordered or made up.

  Key definitions include:
    * `AuthCallout.Callout.Attempt`
    * `AuthCallout.Callout.State`, `AuthCallout.Callout.Step`
    * `AuthCallout.Callout.Unforged`
    * `AuthCallout.Callout.Inv`

  Key theorems include:
    * `AuthCallout.Callout.inv_step`
    * `AuthCallout.Callout.granted_of_bound`
    * `AuthCallout.Callout.unbound_of_mismatch`
-/

------------------------------------------------------------
-- The System
------------------------------------------------------------

namespace AuthCallout

namespace Callout

open NatsJwt NatsServer

/-
  A client that a server asks about: its request, the user it
  has become, what has been put into the channel that the
  server waits on, and the outcome once the wait is over.
-/
structure Attempt where
  server : Server
  client : Client
  message : Message
  bound : Option Bound
  respCh : Option String
  outcome : Option (Bool × String)

/-
  The tables of the service, the attempts by their user keys,
  the replies on the way with their subjects, and all tokens
  that the issuer has signed.
-/
structure State where
  world : Config.World
  attempts : String → Option Attempt
  replies : List (String × String)
  signed : List String

/- The state before the first client. -/
def State.initial (w : Config.World) : State where
  world := w
  attempts := fun _ => none
  replies := []
  signed := []

def State.set
    (s : State)
    (pub : String)
    (a : Attempt) : State :=
  { s with
    attempts := Function.update s.attempts pub (some a) }

end Callout

end AuthCallout

------------------------------------------------------------
-- Signatures
------------------------------------------------------------

namespace AuthCallout

namespace Callout

open NatsJwt NatsServer

/- The text over which a token is verified. -/
def verifiedText
    (package : Package)
    (token : String) : Option String :=
  match Go.split token '.' with
  | [header, payload, _] =>
      match Go.decodeRawURL payload with
      | .error _ => none
      | .ok data =>
          match loadClaims package.json data with
          | .error _ => none
          | .ok (ver, _) =>
              some (signingInput ver header payload)
  | _ => none

/- The text that has been signed for a token. -/
def signedText (token : String) : Option String :=
  match Go.split token '.' with
  | [header, payload, _] => some (header ++ "." ++ payload)
  | _ => none

/-
  If the token is verified under the issuer's key, then over a
  text that the issuer has signed.
-/
def Genuine
    (svc : Service)
    (signed : List String)
    (token : String) : Prop :=
  ∀ claims,
    NatsJwt.decode svc.package token = .ok claims →
      claims.data.issuer = svc.issuerPubKey →
        ∃ t ∈ signed,
          verifiedText svc.package token = signedText t

/- The user's token that a server finds in a reply is. -/
def Unforged
    (svc : Service)
    (signed : List String)
    (server : Server)
    (data : String) : Prop :=
  ∀ text cr,
    readReply server data = .ok text →
      decodeAuthorizationResponseClaims svc.package text =
          .ok cr →
        Genuine svc signed cr.nats.jwt

end Callout

end AuthCallout

------------------------------------------------------------
-- Steps
------------------------------------------------------------

namespace AuthCallout

namespace Callout

open NatsJwt NatsServer

/-
  A server that may ask the service: it has its own key and
  takes users of this issuer. What one of the two opens is what
  the other has sealed, and what the service seals is no token
  for a server that does not open it.
-/
structure Fits
    (svc : Service)
    (server : Server) : Prop where
  sound : ServerSound svc.package server
  issuer : server.authCallout.issuer = svc.issuerPubKey
  versioned : server.xkp.Versioned
  request :
    ∀ key,
      svc.curveKeyPair = some key →
        server.encrypts = true → server.xkp.Authentic key
  response :
    ∀ key,
      svc.curveKeyPair = some key →
        server.encrypts = true →
          key.Versioned ∧ key.Authentic server.xkp
  unread :
    ∀ key,
      svc.curveKeyPair = some key →
        server.encrypts = false →
          ∀ input recipient data claims,
            key.sealBox input recipient = .ok data →
              NatsJwt.decode svc.package data ≠ .ok claims

/- The token of the response to a request, if it is made. -/
def Service.responseToken
    (svc : Service)
    (now : Int)
    (req : NatsJwt.AuthorizationRequest)
    (jwt err : String) : List String :=
  match (responseOf svc.options req jwt err).encode
      svc.package.json svc.issuerKeyPair now with
  | .ok token => [token]
  | .error _ => []

/- The tokens that are signed for one message. -/
def Service.tokens
    (svc : Service)
    (now : Int)
    (w : Config.World)
    (msg : Message) : List String :=
  match decode svc.package svc.options msg with
  | .error _ => []
  | .ok req =>
      match svc.handle now w req with
      | .ok token =>
          token.encoded ::
            svc.responseToken now req token.encoded ""
      | .error (.error err) =>
          svc.responseToken now req "" err
      | .error .panic => []

/- The service takes a message and may publish a reply. -/
def State.served
    (svc : Service)
    (now : Int)
    (msg : Message)
    (s : State) : State :=
  { s with
    signed := svc.tokens now s.world msg ++ s.signed
    replies :=
      match svc.answer now s.world msg with
      | .ok (some reply) =>
          (msg.reply, reply.data) :: s.replies
      | _ => s.replies }

/-
  The service hears the request of an attempt, any number of
  times, or one of someone else, who does not know the user
  keys that servers have made.
-/
def Heard
    (svc : Service)
    (s : State)
    (msg : Message) : Prop :=
  (∃ pub a, s.attempts pub = some a ∧ a.message = msg) ∨
    ∀ req,
      decode svc.package svc.options msg = .ok req →
        s.attempts req.userNkey = none

/- `processReply` on an attempt. The channel holds one. -/
def Attempt.received
    (a : Attempt) : Except Go.Fault Bound → Attempt
| .ok bound =>
    { a with
      bound := some bound
      respCh := a.respCh.or (some "") }
| .error (.error err) =>
    { a with respCh := a.respCh.or (some err) }
| .error .panic => a

/-
  One step. A reply may reach a server late, again or in any
  order; what others publish on its subject forges nothing.
-/
inductive Step (svc : Service) : State → State → Prop where
| reload
    {s : State}
    (w : Config.World) :
    Step svc s { s with world := w }
| connect
    {s : State}
    {server : Server}
    {client : Client}
    {pub reply : String}
    {now expires : Int}
    {msg : Message}
    (hFits : Fits svc server)
    (hFresh : IsFreshUserKey pub)
    (hNew : s.attempts pub = none)
    (hUnused :
      ∀ t ∈ s.signed,
        ∀ uc,
          decodeUserClaims svc.package t = .ok uc →
            uc.claimsData.subject ≠ pub)
    (hSend :
      sendRequest svc.package server client pub reply now
        expires = .ok msg) :
    Step svc s
      (s.set pub ⟨server, client, msg, none, none, none⟩)
| serve
    {s : State}
    (now : Int)
    {msg : Message}
    (hHeard : Heard svc s msg) :
    Step svc s (s.served svc now msg)
| receive
    {s : State}
    {pub data : String}
    {a : Attempt}
    (arrival : Int)
    (hAttempt : s.attempts pub = some a)
    (hArrives :
      (a.message.reply, data) ∈ s.replies ∨
        Unforged svc s.signed a.server data) :
    Step svc s
      (s.set pub
        (a.received
          (processReply svc.package a.server pub arrival
            data)))
| finish
    {s : State}
    {pub errStr : String}
    {a : Attempt}
    (hAttempt : s.attempts pub = some a)
    (hWaits : a.outcome = none)
    (hErr : a.respCh = some errStr) :
    Step svc s
      (s.set pub
        { a with outcome := some (errStr = "", errStr) })
| timeout
    {s : State}
    {pub : String}
    {a : Attempt}
    (hAttempt : s.attempts pub = some a)
    (hWaits : a.outcome = none) :
    Step svc s
      (s.set pub { a with outcome := some (false, "") })

/- Any number of steps. -/
abbrev Run (svc : Service) : State → State → Prop :=
  Relation.ReflTransGen (Step svc)

end Callout

end AuthCallout

------------------------------------------------------------
-- What Signed Tokens Are
------------------------------------------------------------

namespace AuthCallout

namespace Callout

open Auth NatsJwt NatsServer

variable {svc : Service}

/- A stamped token is verified over what was signed. -/
theorem verifiedText_of_stamped
    (hSound : svc.Sound)
    {claims : NatsJwt.Claims}
    {token : String}
    (hStamped :
      Stamped svc.package.json svc.issuerKeyPair claims
        token) :
    verifiedText svc.package token = signedText token := by
  rcases hStamped.written with
    ⟨data, sig, hMarshal, _, hToken⟩
  unfold verifiedText signedText
  rw [hToken, inputOf, split_token]
  dsimp only
  rw [Go.decodeRawURL_encodeRawURL]
  dsimp only
  rw [loadClaims_of_marshal hSound.json hStamped.type
    hStamped.version hMarshal]
  rfl

/-
  A user's token that is verified under the issuer's key over
  a signed text holds the claims of that token.
-/
theorem exists_signed_of_genuine
    (hSound : svc.Sound)
    {signed : List String}
    (hSigned :
      ∀ t ∈ signed,
        ∃ claims,
          Stamped svc.package.json svc.issuerKeyPair claims t)
    {token : String}
    (hGenuine : Genuine svc signed token)
    {uc : NatsJwt.UserClaims}
    (hDecode : decodeUserClaims svc.package token = .ok uc)
    (hIssuer : uc.claimsData.issuer = svc.issuerPubKey) :
    ∃ t ∈ signed,
      decodeUserClaims svc.package t = .ok uc := by
  have hUser :
      NatsJwt.decode svc.package token = .ok (.user uc) := by
    unfold decodeUserClaims at hDecode
    split at hDecode
    · cases hDecode
    · rename_i hRead
      cases hDecode
      exact hRead
    · cases hDecode
  rcases hGenuine (.user uc) hUser hIssuer with
    ⟨t, hMem, hText⟩
  rcases hSigned t hMem with ⟨claims, hStamped⟩
  refine ⟨t, hMem, ?_⟩
  rcases (decodes_of_decode hUser).chunks with
    ⟨header, payload, signature, data, sig, ver, hSplit,
      hData, hLoad, _, _⟩
  rcases hStamped.written with
    ⟨written, own, hMarshal, _, hToken⟩
  have hInput :
      signingInput ver header payload = inputOf written := by
    unfold verifiedText signedText at hText
    rw [hToken, inputOf, split_token, hSplit] at hText
    dsimp only at hText
    rw [hData] at hText
    dsimp only at hText
    rw [hLoad] at hText
    exact Option.some.inj hText
  have hSame :
      Claims.user uc = claims :=
    claims_of_signingInput hSound.json hStamped.type
      hStamped.version hMarshal hSplit hData hLoad hInput
  unfold decodeUserClaims
  rw [decode_of_stamped hSound.json hSound.issuer hStamped,
    ← hSame]

/- An empty text is no token. -/
theorem genuine_empty
    (signed : List String) :
    Genuine svc signed "" := by
  intro claims hDecode
  cases hDecode

theorem Genuine.mono
    {signed more : List String}
    {token : String}
    (hGenuine : Genuine svc signed token)
    (hMore : ∀ t ∈ signed, t ∈ more) :
    Genuine svc more token := by
  intro claims hDecode hIssuer
  rcases hGenuine claims hDecode hIssuer with
    ⟨t, hMem, hText⟩
  exact ⟨t, hMore t hMem, hText⟩

theorem Unforged.mono
    {signed more : List String}
    {server : Server}
    {data : String}
    (hUnforged : Unforged svc signed server data)
    (hMore : ∀ t ∈ signed, t ∈ more) :
    Unforged svc more server data := by
  intro text cr hRead hDecode
  exact (hUnforged text cr hRead hDecode).mono hMore

/- All tokens of one message are stamped. -/
theorem stamped_of_mem_tokens
    (hSound : svc.Sound)
    {now : Int}
    {w : Config.World}
    {msg : Message}
    {t : String}
    (hMem : t ∈ svc.tokens now w msg) :
    ∃ claims,
      Stamped svc.package.json svc.issuerKeyPair claims
        t := by
  have hResponse :
      ∀ {req jwt err},
        t ∈ svc.responseToken now req jwt err →
          ∃ claims,
            Stamped svc.package.json svc.issuerKeyPair
              claims t := by
    intro req jwt err hToken
    unfold Service.responseToken at hToken
    split at hToken
    · rename_i token hEncode
      rw [List.mem_singleton.mp hToken]
      rcases stamped_of_response hSound hEncode with
        ⟨id, hStamped⟩
      exact ⟨_, hStamped⟩
    · cases hToken
  unfold Service.tokens at hMem
  split at hMem
  · cases hMem
  · split at hMem
    · rename_i token hHandle
      rcases List.mem_cons.mp hMem with rfl | hToken
      · rcases stamped_of_handle hSound hHandle with
          ⟨id, hStamped⟩
        exact ⟨_, hStamped⟩
      · exact hResponse hToken
    · exact hResponse hMem
    · cases hMem

/- What the handler grants is among them. -/
theorem mem_tokens_of_handle
    {now : Int}
    {w : Config.World}
    {msg : Message}
    {req : NatsJwt.AuthorizationRequest}
    {token : UserJWT}
    (hDecode : decode svc.package svc.options msg = .ok req)
    (hHandle : svc.handle now w req = .ok token) :
    token.encoded ∈ svc.tokens now w msg := by
  unfold Service.tokens
  rw [hDecode]
  dsimp only
  rw [hHandle]
  exact List.mem_cons_self

/- A token of a user comes from what the handler granted. -/
theorem handle_of_mem_tokens
    (hSound : svc.Sound)
    {now : Int}
    {w : Config.World}
    {msg : Message}
    {t : String}
    (hMem : t ∈ svc.tokens now w msg)
    {uc : NatsJwt.UserClaims}
    (hUser : decodeUserClaims svc.package t = .ok uc) :
    ∃ req id token,
      decode svc.package svc.options msg = .ok req ∧
        svc.handle now w req = .ok token ∧
          uc = grantedClaims svc now id token.claims := by
  have hResponse :
      ∀ {req jwt err},
        t ∉ svc.responseToken now req jwt err := by
    intro req jwt err hToken
    unfold Service.responseToken at hToken
    split at hToken
    · rename_i token hEncode
      rw [List.mem_singleton.mp hToken] at hUser
      rcases stamped_of_response hSound hEncode with
        ⟨id, hStamped⟩
      unfold decodeUserClaims at hUser
      rw [decode_of_stamped hSound.json hSound.issuer
        hStamped] at hUser
      cases hUser
    · cases hToken
  unfold Service.tokens at hMem
  split at hMem
  · cases hMem
  · rename_i req hDecode
    split at hMem
    · rename_i token hHandle
      rcases List.mem_cons.mp hMem with rfl | hToken
      · rcases stamped_of_handle hSound hHandle with
          ⟨id, hStamped⟩
        refine ⟨req, id, token, hDecode, hHandle, ?_⟩
        unfold decodeUserClaims at hUser
        rw [decode_of_stamped hSound.json hSound.issuer
          hStamped] at hUser
        cases hUser
        rfl
      · exact absurd hToken hResponse
    · exact absurd hMem hResponse
    · cases hMem

end Callout

end AuthCallout

------------------------------------------------------------
-- Messages Between The Parties
------------------------------------------------------------

namespace AuthCallout

namespace Callout

open Auth NatsJwt NatsServer

variable {svc : Service} {server : Server}

/- What the service reads of a request is what was sent. -/
theorem request_of_decode
    (hSound : svc.Sound)
    (hFits : Fits svc server)
    {client : Client}
    {pub reply : String}
    {now expires : Int}
    {msg : Message}
    (hSend :
      sendRequest svc.package server client pub reply now
        expires = .ok msg)
    {req : NatsJwt.AuthorizationRequest}
    (hDecode :
      decode svc.package svc.options msg = .ok req) :
    ∃ id,
      req = (sentClaims server client pub now expires id).nats := by
  rcases sendRequest_cases hSend with
    ⟨b, hEncode, _, hData⟩
  rcases stamped_request hFits.sound hEncode with
    ⟨id, hStamped⟩
  rcases exists_rest_of_stamped hStamped with
    ⟨rest, hRest⟩
  have hRead :
      ∀ data,
        readPayload svc.options msg = .ok data →
          data = b := by
    intro data hPayload
    unfold readPayload Service.options at hPayload
    dsimp only at hPayload
    split at hPayload
    · cases hPayload
    · cases hKey : svc.curveKeyPair with
      | none =>
          rw [hKey] at hPayload
          rcases hData with
            ⟨_, hMsg⟩ | ⟨_, _, hSeal⟩
          · rw [hMsg, hRest, hasPrefix_append] at hPayload
            rw [hRest]
            exact (Except.ok.inj hPayload).symm
          · rcases hFits.versioned _ _ _ hSeal with
              ⟨body, hBody⟩
            rw [hBody, not_hasPrefix_sealed rfl] at hPayload
            cases hPayload
      | some key =>
          rw [hKey] at hPayload
          rcases hData with
            ⟨_, hMsg⟩ | ⟨hEncrypts, _, hSeal⟩
          · rw [hMsg, hRest, hasPrefix_append] at hPayload
            cases hPayload
          · rcases hFits.versioned _ _ _ hSeal with
              ⟨body, hBody⟩
            have hSealed :
                Go.hasPrefix msg.data "eyJ0" = false := by
              rw [hBody]
              exact not_hasPrefix_sealed rfl
            rw [hSealed] at hPayload
            dsimp only [Bool.not_false] at hPayload
            rw [if_neg (by simp)] at hPayload
            split at hPayload
            · cases hPayload
            · rename_i opened hOpen
              cases hPayload
              exact hFits.request key hKey hEncrypts _ _ _ _ _
                hSeal hOpen
  refine ⟨id, ?_⟩
  unfold decode at hDecode
  split at hDecode
  · cases hDecode
  · rename_i data hPayload
    rw [hRead data hPayload] at hDecode
    unfold decodeAuthorizationRequestClaims at hDecode
    rw [decode_of_stamped hSound.json hFits.sound.key
      hStamped] at hDecode
    dsimp only at hDecode
    rw [checkRequest_sentClaims hFits.sound] at hDecode
    exact (Except.ok.inj hDecode).symm

/-
  A server reads a reply of the service as its token, or it
  does not open what the service has sealed.
-/
theorem token_of_readReply
    (hSound : svc.Sound)
    (hFits : Fits svc server)
    {now : Int}
    {req : NatsJwt.AuthorizationRequest}
    {jwt err text : String}
    {reply : Reply}
    (hSend :
      sendResponse svc.package svc.options now req
          (responseOf svc.options req jwt err) =
        .ok reply)
    (hRead : readReply server reply.data = .ok text) :
    (responseOf svc.options req jwt err).encode
        svc.package.json svc.issuerKeyPair now =
      .ok text ∨
        ∀ claims, NatsJwt.decode svc.package text ≠
          .ok claims := by
  unfold sendResponse at hSend
  split at hSend
  · cases hSend
  · rename_i token hEncode
    have hToken :
        (responseOf svc.options req jwt err).encode
            svc.package.json svc.issuerKeyPair now =
          .ok token :=
      hEncode
    rcases stamped_of_response hSound hEncode with
      ⟨id, hStamped⟩
    rcases exists_rest_of_stamped hStamped with
      ⟨rest, hRest⟩
    rw [hToken]
    unfold readReply at hRead
    split at hRead
    · cases hRead
    · split at hSend
      · -- In the plain, a token is not opened.
        left
        cases hSend
        have hPlain :
            Go.hasPrefix token jwtPrefix = true := by
          have hLetters :
              token = jwtPrefix ++ ("0" ++ rest) := by
            rw [hRest, ← String.append_assoc]
            rfl
          rw [hLetters]
          exact hasPrefix_append _ _
        dsimp only at hRead
        rw [hPlain, Bool.not_true, Bool.and_false,
          if_neg Bool.false_ne_true] at hRead
        exact hRead
      · rename_i key hKey
        split at hSend
        · cases hSend
        · rename_i data hSeal
          cases hSend
          dsimp only at hRead
          cases hEncrypts : server.encrypts with
          | false =>
              right
              rw [hEncrypts, Bool.false_and,
                if_neg Bool.false_ne_true] at hRead
              rw [← Except.ok.inj hRead]
              intro claims
              exact hFits.unread key hKey hEncrypts _ _ _
                claims hSeal
          | true =>
              left
              rcases hFits.response key hKey hEncrypts with
                ⟨hVersioned, hAuthentic⟩
              rcases hVersioned _ _ _ hSeal with
                ⟨body, hBody⟩
              have hSealed :
                  Go.hasPrefix data jwtPrefix = false := by
                rw [hBody]
                exact not_hasPrefix_sealed rfl
              rw [hSealed, hEncrypts, Bool.not_false,
                Bool.and_true, if_pos rfl] at hRead
              split at hRead
              · cases hRead
              · rename_i opened hOpen
                rw [← hAuthentic _ _ _ _ _ hSeal hOpen]
                exact hRead

/- The replies of the service forge nothing. -/
theorem unforged_of_answer
    (hSound : svc.Sound)
    (hFits : Fits svc server)
    {now : Int}
    {w : Config.World}
    {msg : Message}
    {reply : Reply}
    (hAnswer : svc.answer now w msg = .ok (some reply)) :
    Unforged svc (svc.tokens now w msg) server reply.data := by
  rcases serviceHandler_ok_some_iff.mp hAnswer with
    ⟨req, jwt, err, hDecode, _, hAnswers, hSend⟩
  intro text cr hRead hClaims
  unfold decodeAuthorizationResponseClaims at hClaims
  rcases token_of_readReply hSound hFits hSend hRead with
    hEncode | hUnread
  case inr =>
    cases hDecoded : NatsJwt.decode svc.package text with
    | ok claims => exact absurd hDecoded (hUnread claims)
    | error fault =>
        rw [hDecoded] at hClaims
        cases hClaims
  rcases stamped_of_response hSound hEncode with
    ⟨id, hStamped⟩
  rw [decode_of_stamped hSound.json hSound.issuer
    hStamped] at hClaims
  have hJwt : cr.nats.jwt = jwt := by
    cases hClaims
    rfl
  rw [hJwt]
  cases hAnswers with
  | refused hErr => exact genuine_empty _
  | granted hUser hSome =>
      cases hHandle : svc.handle now w req with
      | error fault =>
          rw [hHandle] at hUser
          cases hUser
      | ok token =>
          rw [hHandle] at hUser
          have hEncoded : token.encoded = jwt :=
            Except.ok.inj hUser
          rcases stamped_of_handle hSound hHandle with
            ⟨userID, hGranted⟩
          rw [hEncoded] at hGranted
          intro claims _ _
          refine ⟨jwt, ?_, verifiedText_of_stamped hSound
            hGranted⟩
          rw [← hEncoded]
          exact mem_tokens_of_handle hDecode hHandle

end Callout

end AuthCallout

------------------------------------------------------------
-- What A Server Accepts
------------------------------------------------------------

namespace AuthCallout

namespace Callout

open NatsJwt NatsServer

variable {package : Package} {server : Server}
variable {pub data : String} {arrival : Int}

theorem titleCase_ne_empty
    {m err : String}
    (hTitle : titleCase m = .error err) :
    err ≠ "" := by
  unfold titleCase at hTitle
  split at hTitle
  · cases hTitle
  · cases hTitle
    intro hEmpty
    have hChars := congrArg String.toList hEmpty
    rw [String.toList_ofList] at hChars
    cases hChars

theorem append_ne_empty
    {start : String}
    (hStart : start ≠ "")
    (rest : String) :
    start ++ rest ≠ "" := by
  intro hEmpty
  have hChars := congrArg String.toList hEmpty
  rw [String.toList_append, String.toList_empty,
    List.append_eq_nil_iff] at hChars
  exact hStart (String.toList_eq_nil_iff.mp hChars.1)

/- A bound user has the key and the issuer asked for. -/
theorem of_bindUser_ok
    {uc : NatsJwt.UserClaims}
    {b : Bound}
    (hBind :
      bindUser package server pub arrival uc = .ok b) :
    uc.claimsData.subject = pub ∧
      uc.claimsData.issuer = server.authCallout.issuer := by
  unfold bindUser at hBind
  split at hBind
  · cases hBind
  · split at hBind
    · cases hBind
    · rename_i hSubject
      refine ⟨not_not.mp hSubject, ?_⟩
      split at hBind
      · cases hBind
      · split at hBind
        · cases hBind
        · rename_i targetAcc hAssign
          unfold assignAccountAndPermissions getIssuerAccount
            at hAssign
          split at hAssign
          · cases hAssign
          · rename_i hIssuer
            split at hIssuer
            · cases hIssuer
            · split at hIssuer
              · cases hIssuer
              · rename_i hSame
                exact not_not.mp hSame

/- The user in a reply that a server takes. -/
theorem of_processReply_ok
    {b : Bound}
    (hReply :
      processReply package server pub arrival data =
        .ok b) :
    ∃ text cr uc,
      readReply server data = .ok text ∧
        decodeAuthorizationResponseClaims package text =
            .ok cr ∧
          decodeUserClaims package cr.nats.jwt = .ok uc ∧
            bindUser package server pub arrival uc = .ok b := by
  unfold processReply at hReply
  split at hReply
  · cases hReply
  · rename_i err _
    unfold titleCase at hReply
    cases hReply
  · rename_i uc hResponse
    unfold decodeResponse at hResponse
    split at hResponse
    · cases hResponse
    · rename_i text hRead
      split at hResponse
      · cases hResponse
      · rename_i cr hClaims
        split at hResponse
        · cases hResponse
        · exact ⟨text, cr, uc, hRead, hClaims, hResponse,
            hReply⟩

/- The reason for refusing a client is never empty. -/
theorem error_ne_empty_of_processReply
    {err : String}
    (hReply :
      processReply package server pub arrival data =
        .error (.error err)) :
    err ≠ "" := by
  unfold processReply at hReply
  split at hReply
  · cases hReply
  · exact titleCase_ne_empty (Except.error.inj hReply)
  · unfold bindUser at hReply
    split at hReply
    · cases hReply
      exact append_ne_empty (by decide) _
    · split at hReply
      · cases hReply
        simp only [String.append_assoc]
        exact append_ne_empty (by decide) _
      · split at hReply
        · exact titleCase_ne_empty (Except.error.inj hReply)
        · split at hReply
          · exact
              titleCase_ne_empty (Except.error.inj hReply)
          · split at hReply
            · cases hReply
              exact append_ne_empty (by decide) _
            · cases hReply

end Callout

end AuthCallout

------------------------------------------------------------
-- The Invariant
------------------------------------------------------------

namespace AuthCallout

namespace Callout

open Auth NatsJwt NatsServer

/-
  At some time after the client came, the service took the
  message of its request, decided on the client and signed this
  token.
-/
def Granted
    (svc : Service)
    (init s : State)
    (pub : String)
    (a : Attempt)
    (now : Int)
    (token : UserJWT) : Prop :=
  ∃ earlier,
    Run svc init earlier ∧
      (earlier.attempts pub).isSome = true ∧
        svc.handle now earlier.world
              (authorizationRequest a.server a.client pub) =
            .ok token ∧
          token.encoded ∈
              svc.tokens now earlier.world a.message ∧
            Step svc earlier
                (earlier.served svc now a.message) ∧
              Run svc (earlier.served svc now a.message) s

/-
  An attempt has sent its request. What it is bound to was
  granted for it, and it is let in only if it is bound.
-/
structure AttemptInv
    (svc : Service)
    (init s : State)
    (pub : String)
    (a : Attempt) : Prop where
  fits : Fits svc a.server
  sent :
    ∃ reply now expires,
      sendRequest svc.package a.server a.client pub reply now
        expires = .ok a.message
  bound :
    ∀ b,
      a.bound = some b →
        ∃ now token,
          Granted svc init s pub a now token ∧
            place a.server now token.claims = .ok b
  channel : a.respCh = some "" → a.bound.isSome = true
  decided :
    ∀ errStr,
      a.outcome = some (true, errStr) → a.respCh = some ""

/-
  Each token that was signed for a user key of an attempt was
  granted to it, and no reply forges one.
-/
structure Inv
    (svc : Service)
    (init s : State) : Prop where
  attempts :
    ∀ pub a,
      s.attempts pub = some a → AttemptInv svc init s pub a
  stamped :
    ∀ t ∈ s.signed,
      ∃ claims,
        Stamped svc.package.json svc.issuerKeyPair claims t
  granted :
    ∀ t ∈ s.signed,
      ∀ uc a,
        decodeUserClaims svc.package t = .ok uc →
          s.attempts uc.claimsData.subject = some a →
            ∃ now id token,
              Granted svc init s uc.claimsData.subject a now
                  token ∧
                uc = grantedClaims svc now id token.claims
  unforged :
    ∀ p ∈ s.replies,
      ∀ server,
        Fits svc server → Unforged svc s.signed server p.2

variable {svc : Service} {init s s' : State} {pub : String}
variable {a a' : Attempt}

theorem State.set_attempts_self
    (s : State)
    (pub : String)
    (a : Attempt) :
    (s.set pub a).attempts pub = some a :=
  Function.update_self _ _ _

theorem State.set_attempts_of_ne
    {other : String}
    (s : State)
    (a : Attempt)
    (hOther : other ≠ pub) :
    (s.set pub a).attempts other = s.attempts other :=
  Function.update_of_ne hOther _ _

theorem Granted.later
    {now : Int}
    {token : UserJWT}
    (hGranted : Granted svc init s pub a now token)
    (hStep : Step svc s s') :
    Granted svc init s' pub a now token := by
  rcases hGranted with
    ⟨earlier, hInit, hSome, hHandle, hMem, hServe, hRun⟩
  exact ⟨earlier, hInit, hSome, hHandle, hMem, hServe,
    hRun.tail hStep⟩

/- The attempt is about the same client, and its request. -/
structure SameRequest (a a' : Attempt) : Prop where
  server : a'.server = a.server
  client : a'.client = a.client
  message : a'.message = a.message

theorem Granted.congr
    {now : Int}
    {token : UserJWT}
    (hGranted : Granted svc init s pub a now token)
    (hSame : SameRequest a a') :
    Granted svc init s pub a' now token := by
  unfold Granted
  rw [hSame.server, hSame.client, hSame.message]
  exact hGranted

theorem AttemptInv.later
    (hAttempt : AttemptInv svc init s pub a)
    (hStep : Step svc s s') :
    AttemptInv svc init s' pub a := by
  refine { hAttempt with bound := ?_ }
  intro b hBound
  rcases hAttempt.bound b hBound with
    ⟨now, token, hGranted, hPlace⟩
  exact ⟨now, token, hGranted.later hStep, hPlace⟩

theorem inv_initial (w : Config.World) :
    Inv svc (.initial w) (.initial w) where
  attempts := by
    intro pub a hAttempt
    cases hAttempt
  stamped := by
    intro t hMem
    cases hMem
  granted := by
    intro t hMem
    cases hMem
  unforged := by
    intro p hMem
    cases hMem

/-
  A change of one attempt keeps the invariant if the attempt
  itself keeps its own, for the same server and client.
-/
theorem inv_set
    (hInv : Inv svc init s)
    (hStep : Step svc s (s.set pub a'))
    (hAttempt : s.attempts pub = some a)
    (hSame : SameRequest a a')
    (hNew : AttemptInv svc init (s.set pub a') pub a') :
    Inv svc init (s.set pub a') where
  attempts := by
    intro other b hOther
    by_cases hOwn : other = pub
    · subst hOwn
      rw [State.set_attempts_self] at hOther
      cases hOther
      exact hNew
    · rw [State.set_attempts_of_ne _ _ hOwn] at hOther
      exact (hInv.attempts other b hOther).later hStep
  stamped := hInv.stamped
  granted := by
    intro t hMem uc b hUser hOther
    by_cases hOwn : uc.claimsData.subject = pub
    · rw [hOwn, State.set_attempts_self] at hOther
      cases hOther
      rw [← hOwn] at hAttempt
      rcases hInv.granted t hMem uc a hUser hAttempt with
        ⟨now, id, token, hGranted, hClaims⟩
      exact
        ⟨now, id, token, (hGranted.later hStep).congr hSame,
          hClaims⟩
    · rw [State.set_attempts_of_ne _ _ hOwn] at hOther
      rcases hInv.granted t hMem uc b hUser hOther with
        ⟨now, id, token, hGranted, hClaims⟩
      exact ⟨now, id, token, hGranted.later hStep, hClaims⟩
  unforged := hInv.unforged

/- A new client has a key for which nothing was signed. -/
theorem inv_connect
    (hInv : Inv svc init s)
    {server : Server}
    {client : Client}
    {reply : String}
    {now expires : Int}
    {msg : Message}
    (hFits : Fits svc server)
    (hUnused :
      ∀ t ∈ s.signed,
        ∀ uc,
          decodeUserClaims svc.package t = .ok uc →
            uc.claimsData.subject ≠ pub)
    (hSend :
      sendRequest svc.package server client pub reply now
        expires = .ok msg)
    (hStep :
      Step svc s
        (s.set pub ⟨server, client, msg, none, none, none⟩)) :
    Inv svc init
      (s.set pub ⟨server, client, msg, none, none, none⟩) where
  attempts := by
    intro other b hOther
    by_cases hSame : other = pub
    · subst hSame
      rw [State.set_attempts_self] at hOther
      cases hOther
      exact
        { fits := hFits
          sent := ⟨reply, now, expires, hSend⟩
          bound := by
            intro b hBound
            cases hBound
          channel := by
            intro hChannel
            cases hChannel
          decided := by
            intro errStr hOver
            cases hOver }
    · rw [State.set_attempts_of_ne _ _ hSame] at hOther
      exact (hInv.attempts other b hOther).later hStep
  stamped := hInv.stamped
  granted := by
    intro t hMem uc b hUser hOther
    have hOld := hUnused t hMem uc hUser
    rw [State.set_attempts_of_ne _ _ hOld] at hOther
    rcases hInv.granted t hMem uc b hUser hOther with
      ⟨now, id, token, hGranted, hClaims⟩
    exact ⟨now, id, token, hGranted.later hStep, hClaims⟩
  unforged := hInv.unforged

/- What the service signs and sends keeps the invariant. -/
theorem inv_serve
    (hSound : svc.Sound)
    (hRun : Run svc init s)
    (hInv : Inv svc init s)
    {now : Int}
    {msg : Message}
    (hHeard : Heard svc s msg)
    (hStep : Step svc s (s.served svc now msg)) :
    Inv svc init (s.served svc now msg) where
  attempts := by
    intro other b hOther
    exact (hInv.attempts other b hOther).later hStep
  stamped := by
    intro t hMem
    rcases List.mem_append.mp hMem with hNew | hOld
    · exact stamped_of_mem_tokens hSound hNew
    · exact hInv.stamped t hOld
  granted := by
    intro t hMem uc b hUser hOther
    rcases List.mem_append.mp hMem with hNew | hOld
    · rcases handle_of_mem_tokens hSound hNew hUser with
        ⟨req, id, token, hDecode, hHandle, hClaims⟩
      have hSubject :
          uc.claimsData.subject = req.userNkey := by
        rw [hClaims]
        exact subject_of_handle hHandle
      change s.attempts uc.claimsData.subject = some b
        at hOther
      rw [hSubject] at hOther ⊢
      rcases hHeard with ⟨pub, a, hAttempt, hMsg⟩ | hOutside
      · rcases (hInv.attempts pub a hAttempt).sent with
          ⟨reply, sentAt, expires, hSend⟩
        rw [hMsg] at hSend
        rcases request_of_decode hSound
            (hInv.attempts pub a hAttempt).fits hSend
            hDecode with
          ⟨requestID, hReq⟩
        have hPub : req.userNkey = pub := by
          rw [hReq]
          rfl
        rw [hPub, hAttempt] at hOther
        cases hOther
        rw [hPub]
        refine ⟨now, id, token, ?_, hClaims⟩
        subst hMsg
        refine ⟨s, hRun, ?_, ?_, ?_, hStep, .refl⟩
        · rw [hAttempt]
          rfl
        · rw [← hHandle, hReq]
          rfl
        · exact mem_tokens_of_handle hDecode hHandle
      · rw [hOutside req hDecode] at hOther
        cases hOther
    · rcases hInv.granted t hOld uc b hUser hOther with
        ⟨at', id, token, hGranted, hClaims⟩
      exact ⟨at', id, token, hGranted.later hStep, hClaims⟩
  unforged := by
    intro p hMem server hFits
    have hOld :
        p ∈ s.replies →
          Unforged svc (s.served svc now msg).signed server
            p.2 := by
      intro hReply
      exact (hInv.unforged p hReply server hFits).mono
        (fun t hSigned => List.mem_append_right _ hSigned)
    unfold State.served at hMem
    dsimp only at hMem
    split at hMem
    · rename_i reply hAnswer
      rcases List.mem_cons.mp hMem with rfl | hReply
      · exact (unforged_of_answer hSound hFits hAnswer).mono
          (fun t hSigned => List.mem_append_left _ hSigned)
      · exact hOld hReply
    · exact hOld hMem

end Callout

end AuthCallout

------------------------------------------------------------
-- A Reply Arrives
------------------------------------------------------------

namespace AuthCallout

namespace Callout

open Auth NatsJwt NatsServer

variable {svc : Service} {init s s' : State}
variable {pub data : String} {a : Attempt} {arrival : Int}

/-
  What a server makes of a message that forges nothing was
  granted to the client, and for this very request.
-/
theorem exists_granted_of_processReply
    (hSound : svc.Sound)
    (hInv : Inv svc init s)
    (hAttempt : s.attempts pub = some a)
    (hUnforged : Unforged svc s.signed a.server data)
    {b : Bound}
    (hReply :
      processReply svc.package a.server pub arrival data =
        .ok b) :
    ∃ now token,
      Granted svc init s pub a now token ∧
        place a.server now token.claims = .ok b := by
  have hFits := (hInv.attempts pub a hAttempt).fits
  rcases of_processReply_ok hReply with
    ⟨text, cr, uc, hRead, hClaims, hUser, hBind⟩
  rcases of_bindUser_ok hBind with ⟨hSubject, hIssuer⟩
  rw [hFits.issuer] at hIssuer
  -- The user's token is one that the service has signed.
  rcases exists_signed_of_genuine hSound hInv.stamped
      (hUnforged text cr hRead hClaims) hUser hIssuer with
    ⟨t, hMem, hSigned⟩
  have hOwn :
      s.attempts uc.claimsData.subject = some a := by
    rw [hSubject]
    exact hAttempt
  rcases hInv.granted t hMem uc a hSigned hOwn with
    ⟨now, id, token, hGranted, hSame⟩
  rw [hSubject] at hGranted
  refine ⟨now, token, hGranted, ?_⟩
  rcases hGranted with ⟨earlier, _, _, hHandle, _⟩
  rw [← hBind, hSame]
  exact (bindUser_grantedClaims hFits.issuer hHandle id).symm

/- What arrives changes an attempt as the invariant allows. -/
theorem AttemptInv.received
    (hSound : svc.Sound)
    (hInv : Inv svc init s)
    (hAttempt : s.attempts pub = some a)
    (hUnforged : Unforged svc s.signed a.server data)
    (hStep : Step svc s s') :
    AttemptInv svc init s' pub
      (a.received
        (processReply svc.package a.server pub arrival
          data)) := by
  have hOld :=
    (hInv.attempts pub a hAttempt).later hStep
  cases hReply :
      processReply svc.package a.server pub arrival data with
  | ok b =>
      rcases exists_granted_of_processReply hSound hInv
          hAttempt hUnforged hReply with
        ⟨now, token, hGranted, hPlace⟩
      exact
        { fits := hOld.fits
          sent := hOld.sent
          bound := by
            intro b' hBound
            cases hBound
            exact
              ⟨now, token,
                (hGranted.later hStep).congr ⟨rfl, rfl, rfl⟩,
                hPlace⟩
          channel := fun _ => rfl
          decided := by
            intro errStr hOver
            have hChannel := hOld.decided errStr hOver
            change a.respCh.or _ = _
            rw [hChannel]
            rfl }
  | error fault =>
      cases fault with
      | panic => exact hOld
      | error err =>
          exact
            { fits := hOld.fits
              sent := hOld.sent
              bound := hOld.bound
              channel := by
                intro hChannel
                change a.respCh.or (some err) = some ""
                  at hChannel
                cases hCh : a.respCh with
                | none =>
                    rw [hCh] at hChannel
                    cases hChannel
                    exact
                      absurd rfl
                        (error_ne_empty_of_processReply hReply)
                | some first =>
                    rw [hCh] at hChannel
                    cases hChannel
                    exact hOld.channel hCh
              decided := by
                intro errStr hOver
                have hChannel := hOld.decided errStr hOver
                change a.respCh.or _ = _
                rw [hChannel]
                rfl }

theorem sameRequest_received
    (outcome : Except Go.Fault Bound) :
    SameRequest a (a.received outcome) := by
  rcases outcome with (err | _) | b <;> exact ⟨rfl, rfl, rfl⟩

end Callout

end AuthCallout

------------------------------------------------------------
-- Every Run
------------------------------------------------------------

namespace AuthCallout

namespace Callout

open Auth NatsJwt NatsServer

variable {svc : Service} {init s s' : State}

theorem inv_step
    (hSound : svc.Sound)
    (hRun : Run svc init s)
    (hInv : Inv svc init s)
    (hStep : Step svc s s') :
    Inv svc init s' := by
  have hStep' := hStep
  cases hStep with
  | reload w =>
      exact
        { attempts := fun pub a hAttempt =>
            (hInv.attempts pub a hAttempt).later hStep'
          stamped := hInv.stamped
          granted := by
            intro t hMem uc a hUser hAttempt
            rcases hInv.granted t hMem uc a hUser hAttempt with
              ⟨now, id, token, hGranted, hClaims⟩
            exact
              ⟨now, id, token, hGranted.later hStep', hClaims⟩
          unforged := hInv.unforged }
  | connect hFits hFresh hNew hUnused hSend =>
      exact inv_connect hInv hFits hUnused hSend hStep'
  | serve now hHeard =>
      exact inv_serve hSound hRun hInv hHeard hStep'
  | @receive pub data a arrival hAttempt hArrives =>
      have hFits := (hInv.attempts pub a hAttempt).fits
      have hUnforged :
          Unforged svc s.signed a.server data := by
        rcases hArrives with hReply | hForged
        · exact hInv.unforged _ hReply _ hFits
        · exact hForged
      exact
        inv_set hInv hStep' hAttempt (sameRequest_received _)
          (.received hSound hInv hAttempt hUnforged hStep')
  | finish hAttempt hWaits hErr =>
      refine inv_set hInv hStep' hAttempt ⟨rfl, rfl, rfl⟩ ?_
      have hOld :=
        (hInv.attempts _ _ hAttempt).later hStep'
      refine { hOld with decided := ?_ }
      intro text hOver
      injection hOver with hOver
      injection hOver with hEmpty _
      rw [hErr, of_decide_eq_true hEmpty]
  | timeout hAttempt hWaits =>
      refine inv_set hInv hStep' hAttempt ⟨rfl, rfl, rfl⟩ ?_
      have hOld :=
        (hInv.attempts _ _ hAttempt).later hStep'
      refine { hOld with decided := ?_ }
      intro text hOver
      cases hOver

theorem inv_run
    (hSound : svc.Sound)
    {w : Config.World}
    (hRun : Run svc (.initial w) s) :
    Inv svc (.initial w) s := by
  induction hRun with
  | refl => exact inv_initial w
  | tail hBefore hStep ih =>
      exact inv_step hSound hBefore ih hStep

/-
  In every run, a server has bound a client only to a user
  that the service granted for this very client, after it came
  and under the tables of one moment, and has let it in only
  if it is bound.
-/
theorem granted_of_bound
    (hSound : svc.Sound)
    {w : Config.World}
    (hRun : Run svc (.initial w) s)
    {pub : String}
    {a : Attempt}
    (hAttempt : s.attempts pub = some a) :
    (∀ b,
      a.bound = some b →
        ∃ now token,
          Granted svc (.initial w) s pub a now token ∧
            place a.server now token.claims = .ok b) ∧
      ∀ errStr,
        a.outcome = some (true, errStr) →
          a.bound.isSome = true := by
  have hInv := (inv_run hSound hRun).attempts pub a hAttempt
  refine ⟨hInv.bound, ?_⟩
  intro errStr hOver
  exact hInv.channel (hInv.decided errStr hOver)

/-
  When only one of a server and the service encrypts, then in
  every run the service leaves each request of the server
  without a reply, no client of it is bound to a user and none
  is let in.
-/
theorem unbound_of_mismatch
    (hSound : svc.Sound)
    {w : Config.World}
    (hRun : Run svc (.initial w) s)
    {pub : String}
    {a : Attempt}
    (hAttempt : s.attempts pub = some a)
    (hMixed : svc.curveKeyPair.isSome ≠ a.server.encrypts) :
    (∀ now w',
        svc.answer now w' a.message = .ok none) ∧
      a.bound = none ∧
        ∀ errStr, a.outcome ≠ some (true, errStr) := by
  have hInv := (inv_run hSound hRun).attempts pub a hAttempt
  rcases hInv.sent with ⟨reply, sentAt, expires, hSend⟩
  rcases readPayload_of_mismatch hMixed hInv.fits.versioned
      hSend with
    ⟨err, hUnread⟩
  -- A user would have been granted for a request that is read.
  have hUnbound : a.bound = none := by
    cases hBound : a.bound with
    | none => rfl
    | some b =>
        rcases hInv.bound b hBound with
          ⟨now, token, ⟨earlier, _, _, _, hMem, _⟩, _⟩
        unfold Service.tokens decode at hMem
        rw [hUnread] at hMem
        cases hMem
  refine ⟨answer_of_unread hUnread, hUnbound, ?_⟩
  intro errStr hOver
  have hSome := hInv.channel (hInv.decided errStr hOver)
  rw [hUnbound] at hSome
  cases hSome

end Callout

end AuthCallout

------------------------------------------------------------
-- A Run With A Guest
------------------------------------------------------------

namespace AuthCallout

namespace Callout

open Auth NatsJwt NatsServer

variable {svc : Service} {s : State}

/- The reply to a message is on the way. -/
theorem mem_replies_served
    {now : Int}
    {msg : Message}
    {reply : Reply}
    (hAnswer :
      svc.answer now s.world msg = .ok (some reply)) :
    (msg.reply, reply.data) ∈
      (s.served svc now msg).replies := by
  unfold State.served
  rw [hAnswer]
  exact List.mem_cons_self

theorem versioned_hub : hub.xkp.Versioned :=
  CurveKey.versioned_ofTable versioned_sealings

theorem fits_hub : Fits guestService hub where
  sound := serverSound_hub
  issuer := rfl
  versioned := versioned_hub
  request := by
    intro key hKey _
    cases hKey
    exact CurveKey.authentic_ofTable distinct_sealings
  response := by
    intro key hKey _
    cases hKey
    exact ⟨CurveKey.versioned_ofTable versioned_sealings,
      CurveKey.authentic_ofTable distinct_sealings⟩
  unread := by
    intro _ _ hPlain
    rw [encrypts_hub] at hPlain
    cases hPlain

def guestMessage : Message :=
  ⟨sealedRequest, hubXKey, "_INBOX.1"⟩

/- The guest, once it has been let in. -/
def guestAttempt : Attempt where
  server := hub
  client := guest
  message := guestMessage
  bound := some guestBound
  respCh := some ""
  outcome := some (true, "")

theorem run_guest :
    ∃ s,
      Run guestService (.initial guestWorld) s ∧
        s.attempts guestKey = some guestAttempt := by
  let first : State := .initial guestWorld
  let asked : State :=
    first.set guestKey
      ⟨hub, guest, guestMessage, none, none, none⟩
  let answered : State :=
    asked.served guestService 1760000000 guestMessage
  let bound : State :=
    answered.set guestKey
      { guestAttempt with outcome := none }
  let ended : State := bound.set guestKey guestAttempt
  have hPackage : guestService.package = guestPackage := rfl
  have hSend :
      sendRequest guestService.package hub guest guestKey
          "_INBOX.1" 1760000000 1760000002 =
        .ok guestMessage := by
    rw [hPackage]
    exact sendRequest_guest
  have hConnect : Step guestService first asked := by
    refine
      .connect fits_hub isFreshUserKey_guestKey rfl ?_ hSend
    intro t hMem
    cases hMem
  have hAsked :
      asked.attempts guestKey =
        some ⟨hub, guest, guestMessage, none, none, none⟩ :=
    State.set_attempts_self _ _ _
  have hServe : Step guestService asked answered :=
    .serve 1760000000 (.inl ⟨guestKey, _, hAsked, rfl⟩)
  have hWorld : asked.world = guestWorld := rfl
  have hAnswer :
      guestService.answer 1760000000 asked.world
          guestMessage =
        .ok (some ⟨false, sealedResponse⟩) := by
    rw [hWorld]
    exact answer_guest
  have hReply :
      (guestMessage.reply, sealedResponse) ∈
        answered.replies :=
    mem_replies_served hAnswer
  have hReceive : Step guestService answered bound := by
    have hStep :=
      @Step.receive guestService answered guestKey
        sealedResponse
        ⟨hub, guest, guestMessage, none, none, none⟩
        1760000000 hAsked (.inl hReply)
    dsimp only at hStep
    rw [processReply_guest] at hStep
    exact hStep
  have hFinish : Step guestService bound ended :=
    @Step.finish guestService bound guestKey ""
      { guestAttempt with outcome := none }
      (State.set_attempts_self _ _ _) rfl rfl
  exact
    ⟨ended,
      (((Relation.ReflTransGen.single hConnect).tail
        hServe).tail hReceive).tail hFinish,
      State.set_attempts_self _ _ _⟩

/-
  The service without a curve key takes the guest's request,
  and the guest waits for the reply.
-/
theorem run_unbound :
    ∃ s,
      Run plainService (.initial guestWorld) s ∧
        s.attempts guestKey =
          some ⟨hub, guest, guestMessage, none, none, none⟩ := by
  let first : State := .initial guestWorld
  let asked : State :=
    first.set guestKey
      ⟨hub, guest, guestMessage, none, none, none⟩
  have hPackage : plainService.package = guestPackage := rfl
  have hSend :
      sendRequest plainService.package hub guest guestKey
          "_INBOX.1" 1760000000 1760000002 =
        .ok guestMessage := by
    rw [hPackage]
    exact sendRequest_guest
  have hFits : Fits plainService hub :=
    { sound := serverSound_hub
      issuer := rfl
      versioned := versioned_hub
      request := fun _ hKey => by cases hKey
      response := fun _ hKey => by cases hKey
      unread := fun _ hKey => by cases hKey }
  have hConnect : Step plainService first asked := by
    refine
      .connect hFits isFreshUserKey_guestKey rfl ?_ hSend
    intro t hMem
    cases hMem
  have hAsked :
      asked.attempts guestKey =
        some ⟨hub, guest, guestMessage, none, none, none⟩ :=
    State.set_attempts_self _ _ _
  have hServe :
      Step plainService asked
        (asked.served plainService 1760000000 guestMessage) :=
    .serve 1760000000 (.inl ⟨guestKey, _, hAsked, rfl⟩)
  exact ⟨_, (Relation.ReflTransGen.single hConnect).tail hServe,
    hAsked⟩

theorem unbound_guest :
    ∃ s,
      Run plainService (.initial guestWorld) s ∧
        (∀ now w,
          plainService.answer now w guestMessage = .ok none) ∧
          ∃ a,
            s.attempts guestKey = some a ∧
              a.bound = none ∧
                ∀ errStr, a.outcome ≠ some (true, errStr) := by
  have hSound : plainService.Sound :=
    { json := sound_guestService.json
      issuer := sound_guestService.issuer
      account := sound_guestService.account
      publicKey := sound_guestService.publicKey }
  have hMixed :
      plainService.curveKeyPair.isSome ≠ hub.encrypts := by
    rw [encrypts_hub]
    decide
  rcases run_unbound with ⟨s, hRun, hAttempt⟩
  rcases unbound_of_mismatch hSound hRun hAttempt hMixed with
    ⟨hSilent, hUnbound, hOut⟩
  exact ⟨s, hRun, hSilent, _, hAttempt, hUnbound, hOut⟩

/- The guest has got what it was granted. -/
theorem granted_of_guest :
    ∃ s,
      Run guestService (.initial guestWorld) s ∧
        ∃ now token,
          Granted guestService (.initial guestWorld) s guestKey
              guestAttempt now token ∧
            place hub now token.claims = .ok guestBound := by
  rcases run_guest with ⟨s, hRun, hAttempt⟩
  have hInv :=
    granted_of_bound sound_guestService hRun hAttempt
  exact ⟨s, hRun, hInv.1 guestBound rfl⟩

end Callout

end AuthCallout
