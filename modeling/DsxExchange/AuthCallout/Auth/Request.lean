import DsxExchange.AuthCallout.Config.Permissions

/-
  Authorization requests, and the libraries that the
  authenticators call on them.

  What the libraries compute is left open: every statement
  about an authenticator is one for all of them.

  Key definitions include:
    * `AuthCallout.Auth.AuthorizationRequest`
    * `AuthCallout.Auth.Claims`
    * `AuthCallout.Auth.Certificate`
    * `AuthCallout.Auth.KeyPair`
    * `AuthCallout.Auth.Libraries`
    * `AuthCallout.Auth.Lookup`
-/

------------------------------------------------------------
-- Requests
------------------------------------------------------------

namespace AuthCallout

namespace Auth

/- What a client presents when it connects. -/
structure ConnectOptions where
  token : String
  username : String
  password : String
  nkey : String
  signedNonce : String
deriving DecidableEq, Repr

/- What the server knows of the client. -/
structure ClientInformation where
  nonce : String
deriving DecidableEq, Repr

/- The chains of PEM texts the server has verified. -/
structure ClientTLS where
  verifiedChains : List (List String)
deriving DecidableEq, Repr

/- `jwt.AuthorizationRequest`. -/
structure AuthorizationRequest where
  userNkey : String
  clientInformation : ClientInformation
  connectOptions : ConnectOptions
  tls : Option ClientTLS
deriving DecidableEq, Repr

/- `rc.TLS != nil && len(rc.TLS.VerifiedChains) > 0`. -/
def AuthorizationRequest.hasVerifiedChain
    (rc : AuthorizationRequest) : Bool :=
  match rc.tls with
  | none => false
  | some tls => !tls.verifiedChains.isEmpty

end Auth

end AuthCallout

------------------------------------------------------------
-- Libraries
------------------------------------------------------------

namespace AuthCallout

namespace Auth

/- The claims of an OAuth2 token. -/
structure Claims where
  subject : String
  scope : String
  scopes : List String
  azp : String
deriving DecidableEq, Repr

/-
  A parsed token. Its claims are `none` when they are not of
  the expected type.
-/
structure Token where
  valid : Bool
  claims : Option Claims
deriving DecidableEq, Repr

/- The client of a JWKS endpoint. -/
structure Keyfunc where
  jwksURL : String
deriving DecidableEq, Repr

/- `x509.Certificate`, with its encoding. -/
structure Certificate where
  raw : List UInt8
  commonName : String
  emailAddresses : List String
  dnsNames : List String
  organization : List String
  organizationalUnit : List String
deriving DecidableEq, Repr

/- `x509.CertPool`. -/
abbrev CertPool := List Certificate

/- A decoded NKey public key. -/
structure KeyPair where
  prefixByte : UInt8
  pub : List UInt8
deriving DecidableEq, Repr

/-
  The calls that leave the service. `parseWithClaims` stands
  for one call with the claims' type, the key function, the
  valid methods, a required expiration, the issuer and the
  audience; the clock and the keys served at the time are
  part of it. `verify` is `cert.Verify` for client
  authentication with the pool as its roots.
-/
structure Libraries where
  readFile : String → Except String String
  newKeyfunc : String → Except String Keyfunc
  parseWithClaims :
    String → Keyfunc → List String → String → String →
      Except String Token
  pemDecode : String → Option (List UInt8)
  parseCertificate :
    List UInt8 → Except String Certificate
  certsFromPEM : String → List Certificate
  verify : Certificate → CertPool → Except String Unit
  fromPublicKey : String → Except String KeyPair
  ed25519Verify :
    List UInt8 → List UInt8 → List UInt8 → Bool

end Auth

end AuthCallout

------------------------------------------------------------
-- Lookups That May Fail
------------------------------------------------------------

namespace AuthCallout

namespace Auth

open Cells Config

/- A call that reads the manager and may fail. -/
abbrev Lookup (α : Type) :=
  Query Cell.Contents (Except Go.Fault α)

/- Return an error. -/
def fail {α : Type} (message : String) : Lookup α :=
  .done (.error (.error message))

/- Return what a lookup returns, after some pure work. -/
def thenReturn
    {α β : Type}
    (query : Query Cell.Contents α)
    (finish : α → Except Go.Fault β) : Lookup β :=
  query.bind (fun result => .done (finish result))

variable {α β : Type}

@[simp] theorem eval_fail
    (message : String)
    (w : World) :
    (fail message : Lookup α).eval w =
      .error (.error message) :=
  rfl

@[simp] theorem eval_thenReturn
    (query : Query Cell.Contents α)
    (finish : α → Except Go.Fault β)
    (w : World) :
    (thenReturn query finish).eval w =
      finish (query.eval w) :=
  Query.eval_bind query _ w

theorem loadsOnly_fail
    (cell : Cell)
    (message : String) :
    (fail message : Lookup α).LoadsOnly cell :=
  Query.LoadsOnly.done cell _

theorem loadsOnly_thenReturn
    {cell : Cell}
    {query : Query Cell.Contents α}
    (hQuery : query.LoadsOnly cell)
    (finish : α → Except Go.Fault β) :
    (thenReturn query finish).LoadsOnly cell :=
  hQuery.bind_pure (fun _ => rfl)

end Auth

end AuthCallout
