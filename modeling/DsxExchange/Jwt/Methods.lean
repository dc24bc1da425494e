import DsxExchange.Go.Strings

/-
  Signing methods of the vendored package `jwt`, and which
  signatures each of them accepts.

  Key definitions include:
    * `Jwt.newError`, `Jwt.joinErrors`
    * `Jwt.Key`, `Jwt.Crypto`
    * `Jwt.SigningMethod`, `Jwt.getSigningMethod`
    * `Jwt.SigningMethod.verify`
    * `Jwt.SigningMethod.Accepts`

  Key theorems include:
    * `Jwt.getSigningMethod_eq_some_iff`
    * `Jwt.SigningMethod.verify_ok_iff`
    * `Jwt.SigningMethod.isPublic_of_accepts`
-/

------------------------------------------------------------
-- Errors
------------------------------------------------------------

namespace Jwt

def errInvalidKey : String := "key is invalid"
def errInvalidKeyType : String := "key is of invalid type"
def errHashUnavailable : String :=
  "the requested hash function is unavailable"
def errTokenMalformed : String := "token is malformed"
def errTokenUnverifiable : String := "token is unverifiable"
def errTokenSignatureInvalid : String :=
  "token signature is invalid"
def errTokenRequiredClaimMissing : String :=
  "token is missing required claim"
def errTokenInvalidAudience : String :=
  "token has invalid audience"
def errTokenExpired : String := "token is expired"
def errTokenUsedBeforeIssued : String :=
  "token used before issued"
def errTokenInvalidIssuer : String :=
  "token has invalid issuer"
def errTokenInvalidSubject : String :=
  "token has invalid subject"
def errTokenNotValidYet : String := "token is not valid yet"
def errTokenInvalidClaims : String :=
  "token has invalid claims"
def errSignatureInvalid : String := "signature is invalid"
def errEd25519Verification : String :=
  "ed25519: verification error"
def errECDSAVerification : String :=
  "crypto/ecdsa: verification error"

/- `newError`. -/
def newError
    (message err : String)
    (more : List String) : String :=
  (if message ≠ "" then err ++ ": " ++ message else err) ++
    String.join (more.map (fun e => ": " ++ e))

/- `joinErrors`, by its text. -/
def joinErrors (errs : List String) : String :=
  Go.joinWith ", " errs

end Jwt

------------------------------------------------------------
-- Keys
------------------------------------------------------------

namespace Jwt

/- `rsa.PublicKey`. -/
structure RSAPublicKey where
  modulus : ℕ
  exponent : ℕ
deriving DecidableEq, Repr

/- `ecdsa.PublicKey`. -/
structure ECDSAPublicKey where
  curve : String
  x : ℕ
  y : ℕ
deriving DecidableEq, Repr

/-
  A key by its dynamic type. A private key of any kind has a
  public half; a secret of a symmetric method is bytes.
-/
inductive Key where
  | rsa (key : RSAPublicKey)
  | ecdsa (key : ECDSAPublicKey)
  | ed25519 (key : List UInt8)
  | secret (key : List UInt8)
  | privateKey (publicHalf : Key)
  | other (type : String)
deriving DecidableEq, Repr

/- The key is the public half of a key pair. -/
def Key.isPublic : Key → Bool
| .rsa _ => true
| .ecdsa _ => true
| .ed25519 _ => true
| _ => false

/- The hashes of the methods. -/
inductive Hash where
  | sha256
  | sha384
  | sha512
deriving DecidableEq, Repr

/- What the methods use of the cryptographic packages. -/
structure Crypto where
  available : Hash → Bool
  hmac : Hash → List UInt8 → List UInt8 → List UInt8
  verifyPKCS1v15 :
    RSAPublicKey → Hash → List UInt8 → List UInt8 →
      Except String Unit
  verifyPSS :
    RSAPublicKey → Hash → List UInt8 → List UInt8 →
      Except String Unit
  ecdsaVerify :
    ECDSAPublicKey → Hash → List UInt8 → ℕ → ℕ → Bool
  ed25519Verify :
    List UInt8 → List UInt8 → List UInt8 → Bool

/- `big.Int.SetBytes`. -/
def setBytes (bytes : List UInt8) : ℕ :=
  bytes.foldl (fun n byte => n * 256 + byte.toNat) 0

end Jwt

------------------------------------------------------------
-- Signing Methods
------------------------------------------------------------

namespace Jwt

/- The methods that the package registers. -/
inductive SigningMethod where
  | hmac (hash : Hash)
  | rsa (hash : Hash)
  | rsaPSS (hash : Hash)
  | ecdsa (hash : Hash)
  | ed25519
  | noSignature
deriving DecidableEq, Repr

def Hash.digits : Hash → String
| .sha256 => "256"
| .sha384 => "384"
| .sha512 => "512"

/- `ed25519.PublicKeySize`. -/
def ed25519PublicKeySize : ℕ := 32

namespace SigningMethod

/- `Alg`. -/
def alg : SigningMethod → String
| .hmac hash => "HS" ++ hash.digits
| .rsa hash => "RS" ++ hash.digits
| .rsaPSS hash => "PS" ++ hash.digits
| .ecdsa hash => "ES" ++ hash.digits
| .ed25519 => "EdDSA"
| .noSignature => "none"

/- The size of each half of an ECDSA signature. -/
def keySize : Hash → ℕ
| .sha256 => 32
| .sha384 => 48
| .sha512 => 66

/- `Verify`. -/
def verify
    (crypto : Crypto)
    (signingString : String)
    (sig : List UInt8)
    (key : Key) : SigningMethod → Except String Unit
| .hmac hash =>
    match key with
    | .secret keyBytes =>
        if ¬ crypto.available hash then
          .error errHashUnavailable
        else if sig ≠
            crypto.hmac hash keyBytes
              (Go.bytes signingString) then
          .error errSignatureInvalid
        else
          .ok ()
    | _ =>
        .error
          (newError "HMAC verify expects []byte"
            errInvalidKeyType [])
| .rsa hash =>
    match key with
    | .rsa rsaKey =>
        if ¬ crypto.available hash then
          .error errHashUnavailable
        else
          crypto.verifyPKCS1v15 rsaKey hash
            (Go.bytes signingString) sig
    | _ =>
        .error
          (newError "RSA verify expects *rsa.PublicKey"
            errInvalidKeyType [])
| .rsaPSS hash =>
    match key with
    | .rsa rsaKey =>
        if ¬ crypto.available hash then
          .error errHashUnavailable
        else
          crypto.verifyPSS rsaKey hash
            (Go.bytes signingString) sig
    | _ =>
        .error
          (newError "RSA-PSS verify expects *rsa.PublicKey"
            errInvalidKeyType [])
| .ecdsa hash =>
    match key with
    | .ecdsa ecdsaKey =>
        if sig.length ≠ 2 * keySize hash then
          .error errECDSAVerification
        else if ¬ crypto.available hash then
          .error errHashUnavailable
        else if
            crypto.ecdsaVerify ecdsaKey hash
              (Go.bytes signingString)
              (setBytes (sig.take (keySize hash)))
              (setBytes (sig.drop (keySize hash))) then
          .ok ()
        else
          .error errECDSAVerification
    | _ =>
        .error
          (newError "ECDSA verify expects *ecdsa.PublicKey"
            errInvalidKeyType [])
| .ed25519 =>
    match key with
    | .ed25519 ed25519Key =>
        if ed25519Key.length ≠ ed25519PublicKeySize then
          .error errInvalidKey
        else if ¬ crypto.ed25519Verify ed25519Key
            (Go.bytes signingString) sig then
          .error errEd25519Verification
        else
          .ok ()
    | _ =>
        .error
          (newError "Ed25519 verify expects ed25519.PublicKey"
            errInvalidKeyType [])
-- No key of a key set is the constant that allows it.
| .noSignature =>
    .error
      (newError "'none' signature type is not allowed"
        errTokenUnverifiable [])

end SigningMethod

/- The methods in the order of their registration. -/
def signingMethods : List SigningMethod :=
  [.ecdsa .sha256, .ecdsa .sha384, .ecdsa .sha512, .ed25519,
    .hmac .sha256, .hmac .sha384, .hmac .sha512,
    .noSignature, .rsa .sha256, .rsa .sha384, .rsa .sha512,
    .rsaPSS .sha256, .rsaPSS .sha384, .rsaPSS .sha512]

/- `GetSigningMethod`. -/
def getSigningMethod (alg : String) : Option SigningMethod :=
  signingMethods.find? (fun method => method.alg = alg)

end Jwt

------------------------------------------------------------
-- Accepted Signatures
------------------------------------------------------------

namespace Jwt

/- Every method is registered under its own name. -/
theorem getSigningMethod_alg (method : SigningMethod) :
    getSigningMethod method.alg = some method := by
  rcases method with hash | hash | hash | hash | _ | _
  · cases hash <;> rfl
  · cases hash <;> rfl
  · cases hash <;> rfl
  · cases hash <;> rfl
  · rfl
  · rfl

theorem getSigningMethod_eq_some_iff
    {alg : String}
    {method : SigningMethod} :
    getSigningMethod alg = some method ↔
      method.alg = alg := by
  constructor
  · intro hFound
    simpa using List.find?_some hFound
  · intro hAlg
    rw [← hAlg, getSigningMethod_alg]

namespace SigningMethod

/-
  The signatures of a text that a method accepts for a key. A
  key of another type has none, and the method `none` accepts
  no signature at all.
-/
inductive Accepts
    (crypto : Crypto)
    (signingString : String)
    (sig : List UInt8) : SigningMethod → Key → Prop
| hmac {hash keyBytes}
    (hAvailable : crypto.available hash = true)
    (hCode :
      sig =
        crypto.hmac hash keyBytes
          (Go.bytes signingString)) :
    Accepts crypto signingString sig (.hmac hash)
      (.secret keyBytes)
| rsa {hash rsaKey}
    (hAvailable : crypto.available hash = true)
    (hVerified :
      crypto.verifyPKCS1v15 rsaKey hash
        (Go.bytes signingString) sig = .ok ()) :
    Accepts crypto signingString sig (.rsa hash) (.rsa rsaKey)
| rsaPSS {hash rsaKey}
    (hAvailable : crypto.available hash = true)
    (hVerified :
      crypto.verifyPSS rsaKey hash
        (Go.bytes signingString) sig = .ok ()) :
    Accepts crypto signingString sig (.rsaPSS hash)
      (.rsa rsaKey)
| ecdsa {hash ecdsaKey}
    (hAvailable : crypto.available hash = true)
    (hLength : sig.length = 2 * keySize hash)
    (hVerified :
      crypto.ecdsaVerify ecdsaKey hash
        (Go.bytes signingString)
        (setBytes (sig.take (keySize hash)))
        (setBytes (sig.drop (keySize hash))) = true) :
    Accepts crypto signingString sig (.ecdsa hash)
      (.ecdsa ecdsaKey)
| ed25519 {ed25519Key}
    (hLength : ed25519Key.length = ed25519PublicKeySize)
    (hVerified :
      crypto.ed25519Verify ed25519Key
        (Go.bytes signingString) sig = true) :
    Accepts crypto signingString sig .ed25519
      (.ed25519 ed25519Key)

variable {crypto : Crypto} {signingString : String}
variable {sig : List UInt8} {key : Key}

theorem verify_of_accepts
    {method : SigningMethod}
    (hAccepts :
      method.Accepts crypto signingString sig key) :
    method.verify crypto signingString sig key = .ok () := by
  cases hAccepts with
  | hmac hAvailable hCode =>
      simp [verify, hAvailable, ← hCode]
  | rsa hAvailable hVerified =>
      simp [verify, hAvailable, hVerified]
  | rsaPSS hAvailable hVerified =>
      simp [verify, hAvailable, hVerified]
  | ecdsa hAvailable hLength hVerified =>
      simp [verify, hAvailable, hLength, hVerified]
  | ed25519 hLength hVerified =>
      simp [verify, hLength, hVerified]

/- `Verify` returns nil for the accepted signatures only. -/
theorem verify_ok_iff
    (method : SigningMethod) :
    method.verify crypto signingString sig key = .ok () ↔
      method.Accepts crypto signingString sig key := by
  refine ⟨fun hVerify => ?_, verify_of_accepts⟩
  cases method with
  | hmac hash =>
      cases key with
      | secret keyBytes =>
          simp only [verify] at hVerify
          split at hVerify
          · cases hVerify
          rename_i hAvailable
          split at hVerify
          · cases hVerify
          rename_i hCode
          exact .hmac (by simpa using hAvailable)
            (by simpa using hCode)
      | _ => cases hVerify
  | rsa hash =>
      cases key with
      | rsa rsaKey =>
          simp only [verify] at hVerify
          split at hVerify
          · cases hVerify
          rename_i hAvailable
          exact .rsa (by simpa using hAvailable) hVerify
      | _ => cases hVerify
  | rsaPSS hash =>
      cases key with
      | rsa rsaKey =>
          simp only [verify] at hVerify
          split at hVerify
          · cases hVerify
          rename_i hAvailable
          exact .rsaPSS (by simpa using hAvailable) hVerify
      | _ => cases hVerify
  | ecdsa hash =>
      cases key with
      | ecdsa ecdsaKey =>
          simp only [verify] at hVerify
          split at hVerify
          · cases hVerify
          rename_i hLength
          split at hVerify
          · cases hVerify
          rename_i hAvailable
          split at hVerify
          · rename_i hVerified
            exact .ecdsa (by simpa using hAvailable)
              (by simpa using hLength) hVerified
          · cases hVerify
      | _ => cases hVerify
  | ed25519 =>
      cases key with
      | ed25519 ed25519Key =>
          simp only [verify] at hVerify
          split at hVerify
          · cases hVerify
          rename_i hLength
          split at hVerify
          · cases hVerify
          rename_i hVerified
          exact .ed25519 (by simpa using hLength)
            (by simpa using hVerified)
      | _ => cases hVerify
  | noSignature => cases hVerify

/- A method that shares no secret verifies with public keys. -/
theorem isPublic_of_accepts
    {method : SigningMethod}
    (hMethod : ∀ hash, method ≠ .hmac hash)
    (hAccepts :
      method.Accepts crypto signingString sig key) :
    key.isPublic = true := by
  cases hAccepts with
  | hmac _ _ => exact absurd rfl (hMethod _)
  | rsa _ _ => rfl
  | rsaPSS _ _ => rfl
  | ecdsa _ _ _ => rfl
  | ed25519 _ _ => rfl

end SigningMethod

end Jwt
