import DsxExchange.AuthCallout.Auth.Request

/-
  Authentication by an NKey and a signed nonce.

  Key definitions include:
    * `AuthCallout.Auth.KeyPair.verify`
    * `AuthCallout.Auth.NKeyAuthenticator.tryAuthenticate`
    * `AuthCallout.Auth.NKeyAuthenticator.Signs`

  Key theorems include:
    * `AuthCallout.Auth.NKeyAuthenticator.tryAuthenticate_ok_iff`
-/

------------------------------------------------------------
-- The Authenticator
------------------------------------------------------------

namespace AuthCallout

namespace Auth

open Cells Config

/- The length of an Ed25519 public key. -/
def publicKeySize : Nat := 32

/-
  `KeyPair.Verify`. The Ed25519 package panics on a key that
  does not have its length.
-/
def KeyPair.verify
    (libs : Libraries)
    (kp : KeyPair)
    (input sig : List UInt8) : Except Go.Fault Unit :=
  if kp.pub.length ≠ publicKeySize then
    .error .panic
  else if libs.ed25519Verify kp.pub input sig then
    .ok ()
  else
    .error (.error "nkeys: signature verification failed")

/- The bytes of a text. -/
def bytesOf (s : String) : List UInt8 :=
  s.toByteArray.toList

namespace NKeyAuthenticator

/- `CanAuthenticate`. -/
def canAuthenticate (rc : AuthorizationRequest) : Bool :=
  rc.connectOptions.nkey ≠ ""

/- The checks of `TryAuthenticate` on the signature. -/
def checkSignature
    (libs : Libraries)
    (rc : AuthorizationRequest) : Except Go.Fault Unit :=
  let signedNonce := rc.connectOptions.signedNonce
  if signedNonce = "" then
    .error (.error "no signed nonce provided")
  else
    match libs.fromPublicKey rc.connectOptions.nkey with
    | .error err =>
        .error (.error ("invalid public key: " ++ err))
    | .ok kp =>
        match Go.decodeRawURL signedNonce with
        | .error err =>
            .error (.error
              ("failed to decode signature: " ++ err))
        | .ok signature =>
            Go.wrapError "signature verification failed: "
              (kp.verify libs
                (bytesOf rc.clientInformation.nonce)
                signature)

/- The end of `TryAuthenticate`, after its lookup. -/
def checkNKeyUser
    (libs : Libraries)
    (rc : AuthorizationRequest) :
    Except Go.Fault (Option UserProfile) →
      Except Go.Fault UserProfile
| .error fault => .error fault
| .ok none =>
    .error (.error "NKey not found in permissions config")
| .ok (some profile) =>
    match checkSignature libs rc with
    | .error fault => .error fault
    | .ok () => .ok profile

/- `TryAuthenticate`. -/
def tryAuthenticate
    (libs : Libraries)
    (rc : AuthorizationRequest) : Lookup UserProfile :=
  let userNKey := rc.connectOptions.nkey
  if userNKey = "" then
    fail "no NKey provided"
  else
    thenReturn (getNKeyProfile userNKey)
      (checkNKeyUser libs rc)

end NKeyAuthenticator

end Auth

end AuthCallout

------------------------------------------------------------
-- What The Authenticator Accepts
------------------------------------------------------------

namespace AuthCallout

namespace Auth

open Cells Config

namespace NKeyAuthenticator

/-
  The request's signature over its own client nonce verifies
  under its key.
-/
structure Signs
    (libs : Libraries)
    (rc : AuthorizationRequest) : Prop where
  key : rc.connectOptions.nkey ≠ ""
  signed : rc.connectOptions.signedNonce ≠ ""
  verified :
    ∃ kp signature,
      libs.fromPublicKey rc.connectOptions.nkey = .ok kp ∧
      Go.decodeRawURL rc.connectOptions.signedNonce =
        .ok signature ∧
      kp.pub.length = publicKeySize ∧
      libs.ed25519Verify kp.pub
        (bytesOf rc.clientInformation.nonce) signature = true

end NKeyAuthenticator

theorem KeyPair.verify_ok_iff
    {libs : Libraries}
    {kp : KeyPair}
    {input sig : List UInt8} :
    kp.verify libs input sig = .ok () ↔
      kp.pub.length = publicKeySize ∧
        libs.ed25519Verify kp.pub input sig = true := by
  unfold verify
  by_cases hSize : kp.pub.length = publicKeySize
  · cases hVerify : libs.ed25519Verify kp.pub input sig <;>
      simp [hSize]
  · simp [hSize]

/- A lookup succeeds in a table that has been stored. -/
theorem getNKeyProfile_eval_iff
    {publicKey : String}
    {w : World}
    {profile : UserProfile} :
    (getNKeyProfile publicKey).eval w =
        .ok (some profile) ↔
      ∃ table,
        w .nkeyLookup = some table ∧
          table publicKey = some profile := by
  simp only [getNKeyProfile, Query.eval_load,
    Query.eval_done]
  cases w .nkeyLookup with
  | none => simp
  | some table => simp

namespace NKeyAuthenticator

variable {libs : Libraries} {rc : AuthorizationRequest}
variable {w : World} {profile : UserProfile}

theorem checkSignature_ok_iff :
    checkSignature libs rc = .ok () ↔
      rc.connectOptions.signedNonce ≠ "" ∧
        ∃ kp signature,
          libs.fromPublicKey rc.connectOptions.nkey =
            .ok kp ∧
          Go.decodeRawURL rc.connectOptions.signedNonce =
            .ok signature ∧
          kp.pub.length = publicKeySize ∧
          libs.ed25519Verify kp.pub
            (bytesOf rc.clientInformation.nonce)
            signature = true := by
  unfold checkSignature
  by_cases hSigned : rc.connectOptions.signedNonce = ""
  · simp [hSigned]
  · cases hKey :
        libs.fromPublicKey rc.connectOptions.nkey with
    | error err => simp [hSigned]
    | ok kp =>
        cases hDecode :
            Go.decodeRawURL
              rc.connectOptions.signedNonce with
        | error err => simp [hSigned, hDecode]
        | ok signature =>
            simp [hSigned, hDecode, KeyPair.verify_ok_iff]

theorem checkNKeyUser_ok_iff
    {found : Except Go.Fault (Option UserProfile)} :
    checkNKeyUser libs rc found = .ok profile ↔
      found = .ok (some profile) ∧
        checkSignature libs rc = .ok () := by
  rcases found with fault | (_ | other)
  · simp [checkNKeyUser]
  · simp [checkNKeyUser]
  · cases hCheck : checkSignature libs rc <;>
      simp [checkNKeyUser, hCheck]

/-
  A request is accepted when the table has an entry for its
  key and its signature verifies under that key.
-/
theorem tryAuthenticate_ok_iff :
    (tryAuthenticate libs rc).eval w = .ok profile ↔
      ∃ table,
        Signs libs rc ∧
        w .nkeyLookup = some table ∧
        table rc.connectOptions.nkey = some profile := by
  unfold tryAuthenticate
  by_cases hKey : rc.connectOptions.nkey = ""
  · simp only [hKey, if_true, eval_fail]
    constructor
    · intro hFail
      cases hFail
    · rintro ⟨table, hSigns, _⟩
      exact absurd hKey hSigns.key
  · simp only [hKey, if_false, eval_thenReturn,
      checkNKeyUser_ok_iff, getNKeyProfile_eval_iff,
      checkSignature_ok_iff]
    constructor
    · rintro ⟨⟨table, hTable, hProfile⟩, hSigned, hVerified⟩
      exact ⟨table, ⟨hKey, hSigned, hVerified⟩, hTable,
        hProfile⟩
    · rintro ⟨table, hSigns, hTable, hProfile⟩
      exact ⟨⟨table, hTable, hProfile⟩, hSigns.signed,
        hSigns.verified⟩

/- One request reads the NKey table, once. -/
theorem loadsOnly_tryAuthenticate
    (libs : Libraries)
    (rc : AuthorizationRequest) :
    (tryAuthenticate libs rc).LoadsOnly .nkeyLookup := by
  unfold tryAuthenticate
  dsimp only
  split
  · exact loadsOnly_fail _ _
  · apply loadsOnly_thenReturn
    exact Query.LoadsOnly.load _ _

end NKeyAuthenticator

end Auth

end AuthCallout
