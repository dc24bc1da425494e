import DsxExchange.Jwt.Methods
import DsxExchange.Go.Text

/-
  Parsing of signed tokens by the vendored package `jwt`:
  the three segments, the key for the header, the signature
  and the validation of the claims.

  Key definitions include:
    * `Jwt.Claims`, `Jwt.Validator.validate`
    * `Jwt.Parser`, `Jwt.newParser`
    * `Jwt.splitToken`, `Jwt.Parser.parseUnverified`
    * `Jwt.Parser.parseWithClaims`
    * `Jwt.Parser.Verifies`

  Key theorems include:
    * `Jwt.Validator.validate_ok_iff`
    * `Jwt.splitToken_eq_some_iff`
    * `Jwt.Parser.parseWithClaims_ok_iff`
-/

------------------------------------------------------------
-- Claims
------------------------------------------------------------

namespace Jwt

/-
  The interface `Claims`, with times in nanoseconds. A type
  of claims may validate itself in addition.
-/
class Claims (γ : Type) where
  getExpirationTime : γ → Except String (Option ℤ)
  getIssuedAt : γ → Except String (Option ℤ)
  getNotBefore : γ → Except String (Option ℤ)
  getIssuer : γ → Except String String
  getSubject : γ → Except String String
  getAudience : γ → Except String (List String)
  validate? : γ → Option (Except String Unit)

/- `RegisteredClaims`, without the id of the token. -/
structure RegisteredClaims where
  issuer : String
  subject : String
  audience : List String
  expiresAt : Option ℤ
  notBefore : Option ℤ
  issuedAt : Option ℤ
deriving DecidableEq, Repr

/- A type that embeds the registered claims. -/
@[reducible] def embeddedClaims
    {γ : Type}
    (registered : γ → RegisteredClaims) : Claims γ where
  getExpirationTime claims :=
    .ok (registered claims).expiresAt
  getIssuedAt claims := .ok (registered claims).issuedAt
  getNotBefore claims := .ok (registered claims).notBefore
  getIssuer claims := .ok (registered claims).issuer
  getSubject claims := .ok (registered claims).subject
  getAudience claims := .ok (registered claims).audience
  validate? _ := none

end Jwt

------------------------------------------------------------
-- Validation Of Claims
------------------------------------------------------------

namespace Jwt

/- `errorIfFalse`. -/
def errorIfFalse
    (value : Bool)
    (err : String) : Except String Unit :=
  if value then .ok () else .error err

/- `errorIfRequired`. -/
def errorIfRequired
    (required : Bool)
    (claim : String) : Except String Unit :=
  if required then
    .error
      (newError (claim ++ " claim is required")
        errTokenRequiredClaimMissing [])
  else
    .ok ()

/- `Validator`, without its source of the time. -/
structure Validator where
  leeway : ℤ
  requireExp : Bool
  verifyIat : Bool
  expectedAud : List String
  expectAllAud : Bool
  expectedIss : String
  expectedSub : String
deriving DecidableEq, Repr

namespace Validator

variable {γ : Type} [Claims γ]

/- `verifyExpiresAt`. -/
def verifyExpiresAt
    (v : Validator)
    (claims : γ)
    (cmp : ℤ)
    (required : Bool) : Except String Unit :=
  match Claims.getExpirationTime claims with
  | .error err => .error err
  | .ok none => errorIfRequired required "exp"
  | .ok (some exp) =>
      errorIfFalse (cmp < exp + v.leeway) errTokenExpired

/- `verifyIssuedAt`. -/
def verifyIssuedAt
    (v : Validator)
    (claims : γ)
    (cmp : ℤ)
    (required : Bool) : Except String Unit :=
  match Claims.getIssuedAt claims with
  | .error err => .error err
  | .ok none => errorIfRequired required "iat"
  | .ok (some iat) =>
      errorIfFalse (¬ cmp < iat - v.leeway)
        errTokenUsedBeforeIssued

/- `verifyNotBefore`. -/
def verifyNotBefore
    (v : Validator)
    (claims : γ)
    (cmp : ℤ)
    (required : Bool) : Except String Unit :=
  match Claims.getNotBefore claims with
  | .error err => .error err
  | .ok none => errorIfRequired required "nbf"
  | .ok (some nbf) =>
      errorIfFalse (¬ cmp < nbf - v.leeway)
        errTokenNotValidYet

/- `verifyAudience`. -/
def verifyAudience
    (v : Validator)
    (claims : γ)
    (cmp : List String)
    (expectAllAud : Bool) : Except String Unit :=
  match Claims.getAudience claims with
  | .error err => .error err
  | .ok aud =>
      if aud = [] ∨ aud = [""] then
        errorIfRequired (v.expectedAud ≠ []) "aud"
      else if ¬ expectAllAud then
        if aud.any cmp.contains then
          .ok ()
        else
          .error errTokenInvalidAudience
      else if cmp.all aud.contains then
        .ok ()
      else
        .error errTokenInvalidAudience

/- `verifyIssuer`. -/
def verifyIssuer
    (claims : γ)
    (cmp : String)
    (required : Bool) : Except String Unit :=
  match Claims.getIssuer claims with
  | .error err => .error err
  | .ok iss =>
      if iss = "" then
        errorIfRequired required "iss"
      else
        errorIfFalse (iss = cmp) errTokenInvalidIssuer

/- `verifySubject`. -/
def verifySubject
    (claims : γ)
    (cmp : String)
    (required : Bool) : Except String Unit :=
  match Claims.getSubject claims with
  | .error err => .error err
  | .ok sub =>
      if sub = "" then
        errorIfRequired required "sub"
      else
        errorIfFalse (sub = cmp) errTokenInvalidSubject

/- The checks that `Validate` makes, in its order. -/
def checks
    (v : Validator)
    (now : ℤ)
    (claims : γ) : List (Except String Unit) :=
  [v.verifyExpiresAt claims now v.requireExp,
    v.verifyNotBefore claims now false] ++
  (if v.verifyIat then
    [v.verifyIssuedAt claims now false]
  else []) ++
  (if v.expectedAud ≠ [] then
    [v.verifyAudience claims v.expectedAud v.expectAllAud]
  else []) ++
  (if v.expectedIss ≠ "" then
    [verifyIssuer claims v.expectedIss true]
  else []) ++
  (if v.expectedSub ≠ "" then
    [verifySubject claims v.expectedSub true]
  else []) ++
  (Claims.validate? claims).toList

/- The errors that are collected. -/
def errorsOf :
    List (Except String Unit) → List String
| [] => []
| .ok () :: rest => errorsOf rest
| .error err :: rest => err :: errorsOf rest

/- `Validate`. -/
def validate
    (v : Validator)
    (now : ℤ)
    (claims : γ) : Except String Unit :=
  match errorsOf (v.checks now claims) with
  | [] => .ok ()
  | errs => .error (joinErrors errs)

theorem errorsOf_eq_nil_iff
    {results : List (Except String Unit)} :
    errorsOf results = [] ↔
      ∀ result ∈ results, result = .ok () := by
  induction results with
  | nil => simp [errorsOf]
  | cons result rest ih =>
      cases result with
      | error err => simp [errorsOf]
      | ok done => simp [errorsOf, ih]

/- No check may fail. -/
theorem validate_ok_iff
    (v : Validator)
    (now : ℤ)
    (claims : γ) :
    v.validate now claims = .ok () ↔
      ∀ result ∈ v.checks now claims, result = .ok () := by
  rw [← errorsOf_eq_nil_iff]
  unfold validate
  split
  · rename_i hNone
    simp [hNone]
  · rename_i hSome
    simp only [reduceCtorEq, false_iff]
    exact hSome

end Validator

end Jwt

------------------------------------------------------------
-- Parsers
------------------------------------------------------------

namespace Jwt

/- `Parser`, with the usual decoding of segments. -/
structure Parser where
  validMethods : Option (List String)
  skipClaimsValidation : Bool
  validator : Validator
deriving DecidableEq, Repr

abbrev ParserOption := Parser → Parser

/- `NewParser`. -/
def newParser (options : List ParserOption) : Parser :=
  options.foldl (fun p option => option p)
    { validMethods := none
      skipClaimsValidation := false
      validator :=
        { leeway := 0
          requireExp := false
          verifyIat := false
          expectedAud := []
          expectAllAud := false
          expectedIss := ""
          expectedSub := "" } }

/- `WithValidMethods`, for a slice that is not nil. -/
def withValidMethods (methods : List String) : ParserOption :=
  fun p => { p with validMethods := some methods }

/- `WithExpirationRequired`. -/
def withExpirationRequired : ParserOption :=
  fun p =>
    { p with
      validator := { p.validator with requireExp := true } }

/- `WithIssuer`. -/
def withIssuer (iss : String) : ParserOption :=
  fun p =>
    { p with
      validator := { p.validator with expectedIss := iss } }

/- `WithAudience`. -/
def withAudience (aud : List String) : ParserOption :=
  fun p =>
    { p with
      validator := { p.validator with expectedAud := aud } }

/- A value of the header, as far as its type matters. -/
inductive HeaderValue where
  | text (value : String)
  | other
deriving DecidableEq, Repr

/- The entries of a header that are read. -/
structure Header where
  alg : Option HeaderValue
  kid : Option HeaderValue
deriving DecidableEq, Repr

/- `Token`. -/
structure Token (γ : Type) where
  raw : String
  method : SigningMethod
  header : Header
  claims : γ
  signature : List UInt8
  valid : Bool
deriving DecidableEq, Repr

/- What `json.Unmarshal` makes of the first two segments. -/
structure Decoders (γ : Type) where
  header : List UInt8 → Except String Header
  claims : List UInt8 → Except String γ

/- What a key function returns: one key, or a set of them. -/
inductive KeyAnswer where
  | one (key : Key)
  | set (keys : List Key)
deriving DecidableEq, Repr

def KeyAnswer.keys : KeyAnswer → List Key
| .one key => [key]
| .set keys => keys

/- `splitToken`. -/
def splitToken (token : String) :
    Option (String × String × String) :=
  match Go.cut token '.' with
  | none => none
  | some (header, remain) =>
      match Go.cut remain '.' with
      | none => none
      | some (claims, remain) =>
          match Go.cut remain '.' with
          | none => some (header, claims, remain)
          | some _ => none

/- A token that is not verified yet, with its segments. -/
structure Unverified (γ : Type) where
  parts : String × String × String
  header : Header
  claims : γ
  method : SigningMethod

namespace Parser

variable {γ : Type} [Claims γ]

/- `ParseUnverified`. -/
def parseUnverified
    (decoders : Decoders γ)
    (tokenString : String) : Except String (Unverified γ) :=
  match splitToken tokenString with
  | none =>
      .error
        (newError "token contains an invalid number of segments"
          errTokenMalformed [])
  | some parts =>
      match Go.decodeRawURL parts.1 with
      | .error err =>
          .error
            (newError "could not base64 decode header"
              errTokenMalformed [err])
      | .ok headerBytes =>
      match decoders.header headerBytes with
      | .error err =>
          .error
            (newError "could not JSON decode header"
              errTokenMalformed [err])
      | .ok header =>
      match Go.decodeRawURL parts.2.1 with
      | .error err =>
          .error
            (newError "could not base64 decode claim"
              errTokenMalformed [err])
      | .ok claimBytes =>
      match decoders.claims claimBytes with
      | .error err =>
          .error
            (newError "could not JSON decode claim"
              errTokenMalformed [err])
      | .ok claims =>
      match header.alg with
      | some (.text alg) =>
          match getSigningMethod alg with
          | none =>
              .error
                (newError "signing method (alg) is unavailable"
                  errTokenUnverifiable [])
          | some method =>
              .ok ⟨parts, header, claims, method⟩
      | _ =>
          .error
            (newError "signing method (alg) is unspecified"
              errTokenUnverifiable [])

/- The part of `ParseWithClaims` before the key function. -/
def beforeKey
    (p : Parser)
    (decoders : Decoders γ)
    (tokenString : String) :
    Except String (Unverified γ × List UInt8) :=
  match parseUnverified decoders tokenString with
  | .error err => .error err
  | .ok token =>
      if p.validMethods.any
          (fun methods =>
            !methods.contains token.method.alg) then
        .error
          (newError
            ("signing method " ++ token.method.alg ++
              " is invalid")
            errTokenSignatureInvalid [])
      else
        match Go.decodeRawURL token.parts.2.2 with
        | .error err =>
            .error
              (newError "could not base64 decode signature"
                errTokenMalformed [err])
        | .ok signature => .ok (token, signature)

/- The keys are tried until one verifies the signature. -/
def verifyAny
    (crypto : Crypto)
    (method : SigningMethod)
    (text : String)
    (signature : List UInt8) :
    List Key → Except String Unit
| [] => .ok ()
| key :: rest =>
    match method.verify crypto text signature key with
    | .ok () => .ok ()
    | .error err =>
        if rest = [] then
          .error err
        else
          verifyAny crypto method text signature rest

/- `switch have := got.(type)`. -/
def verifySignature
    (crypto : Crypto)
    (method : SigningMethod)
    (text : String)
    (signature : List UInt8) :
    KeyAnswer → Except String Unit
| .set [] =>
    .error
      (newError "keyfunc returned empty verification key set"
        errTokenUnverifiable [])
| .set keys =>
    match verifyAny crypto method text signature keys with
    | .error err =>
        .error (newError "" errTokenSignatureInvalid [err])
    | .ok () => .ok ()
| .one key =>
    match method.verify crypto text signature key with
    | .error err =>
        .error (newError "" errTokenSignatureInvalid [err])
    | .ok () => .ok ()

/- The part of `ParseWithClaims` after the key function. -/
def afterKey
    (p : Parser)
    (crypto : Crypto)
    (now : ℤ)
    (tokenString : String)
    (before : Unverified γ × List UInt8)
    (got : Except String KeyAnswer) :
    Except String (Token γ) :=
  let token := before.1
  let signature := before.2
  let text := Go.join [token.parts.1, token.parts.2.1] '.'
  match got with
  | .error err =>
      .error
        (newError "error while executing keyfunc"
          errTokenUnverifiable [err])
  | .ok answer =>
      match verifySignature crypto token.method text signature
          answer with
      | .error err => .error err
      | .ok () =>
          let parsed : Token γ :=
            { raw := tokenString
              method := token.method
              header := token.header
              claims := token.claims
              signature := signature
              valid := true }
          if p.skipClaimsValidation then
            .ok parsed
          else
            match p.validator.validate now token.claims with
            | .error err =>
                .error
                  (newError "" errTokenInvalidClaims [err])
            | .ok () => .ok parsed

/- `ParseWithClaims`. -/
def parseWithClaims
    (p : Parser)
    (decoders : Decoders γ)
    (crypto : Crypto)
    (now : ℤ)
    (keyFunc : Header → Except String KeyAnswer)
    (tokenString : String) : Except String (Token γ) :=
  match p.beforeKey decoders tokenString with
  | .error err => .error err
  | .ok before =>
      p.afterKey crypto now tokenString before
        (keyFunc before.1.header)

end Parser

end Jwt

------------------------------------------------------------
-- Segments
------------------------------------------------------------

namespace Jwt

/- A token is split when it has exactly three parts. -/
theorem splitToken_eq_some_iff
    {token first second third : String} :
    splitToken token = some (first, second, third) ↔
      Go.split token '.' = [first, second, third] := by
  unfold splitToken
  cases hFirst : Go.cut token '.' with
  | none => simp [Go.split_of_cut_none hFirst]
  | some cutFirst =>
      rcases cutFirst with ⟨start, rest⟩
      rw [Go.split_of_cut_some hFirst]
      dsimp only
      cases hSecond : Go.cut rest '.' with
      | none => simp [Go.split_of_cut_none hSecond]
      | some cutSecond =>
          rcases cutSecond with ⟨middle, last⟩
          rw [Go.split_of_cut_some hSecond]
          dsimp only
          cases hThird : Go.cut last '.' with
          | none =>
              rw [Go.split_of_cut_none hThird]
              simp only [Option.some.injEq, Prod.mk.injEq,
                List.cons.injEq, and_true]
          | some cutThird =>
              rw [Go.split_of_cut_some hThird]
              simp [Go.split_ne_nil]

/- Other numbers of delimiters are an error. -/
theorem splitToken_eq_none_iff
    {token : String} :
    splitToken token = none ↔
      token.toList.count '.' ≠ 2 := by
  have hLength := Go.length_split token '.'
  constructor
  · intro hNone hCount
    rw [hCount] at hLength
    rcases List.length_eq_three.mp hLength with
      ⟨first, second, third, hParts⟩
    rw [splitToken_eq_some_iff.mpr hParts] at hNone
    cases hNone
  · intro hCount
    by_contra hSome
    rcases Option.ne_none_iff_exists'.mp hSome with
      ⟨⟨first, second, third⟩, hParts⟩
    rw [splitToken_eq_some_iff.mp hParts] at hLength
    simp at hLength
    omega

end Jwt

------------------------------------------------------------
-- Accepted Tokens
------------------------------------------------------------

namespace Jwt

namespace Parser

variable {γ : Type} [Claims γ]
variable {p : Parser} {decoders : Decoders γ}
variable {crypto : Crypto} {now : ℤ}

/-
  The segments decode to the parts of the token, and its
  header names its method.
-/
structure Decodes
    (decoders : Decoders γ)
    (parts : String × String × String)
    (token : Token γ) : Prop where
  segments :
    Go.split token.raw '.' = [parts.1, parts.2.1, parts.2.2]
  header :
    ∃ bytes,
      Go.decodeRawURL parts.1 = .ok bytes ∧
        decoders.header bytes = .ok token.header
  claims :
    ∃ bytes,
      Go.decodeRawURL parts.2.1 = .ok bytes ∧
        decoders.claims bytes = .ok token.claims
  signature :
    Go.decodeRawURL parts.2.2 = .ok token.signature
  alg : token.header.alg = some (.text token.method.alg)

/-
  A token that is accepted: it is signed, as its first two
  segments, with a listed method and one of the keys found
  for its header, and its claims pass every check.
-/
structure Verifies
    (p : Parser)
    (decoders : Decoders γ)
    (crypto : Crypto)
    (now : ℤ)
    (keyFunc : Header → Except String KeyAnswer)
    (parts : String × String × String)
    (token : Token γ) : Prop where
  decodes : Decodes decoders parts token
  listed :
    ∀ methods,
      p.validMethods = some methods →
        token.method.alg ∈ methods
  signed :
    ∃ answer,
      keyFunc token.header = .ok answer ∧
        ∃ key ∈ answer.keys,
          token.method.Accepts crypto
            (Go.join [parts.1, parts.2.1] '.')
            token.signature key
  allowed :
    p.skipClaimsValidation = false →
      p.validator.validate now token.claims = .ok ()
  marked : token.valid = true

theorem verifyAny_ok_iff
    (crypto : Crypto)
    (method : SigningMethod)
    (text : String)
    (signature : List UInt8)
    {keys : List Key}
    (hSome : keys ≠ []) :
    verifyAny crypto method text signature keys = .ok () ↔
      ∃ key ∈ keys,
        method.Accepts crypto text signature key := by
  induction keys with
  | nil => exact absurd rfl hSome
  | cons key rest ih =>
      have hKey :
          method.verify crypto text signature key = .ok () ↔
            method.Accepts crypto text signature key :=
        SigningMethod.verify_ok_iff method
      cases hVerify :
          method.verify crypto text signature key with
      | ok done => simp [verifyAny, hVerify, hKey.mp hVerify]
      | error err =>
          have hNot :
              ¬ method.Accepts crypto text signature key := by
            intro hAccepts
            rw [hKey.mpr hAccepts] at hVerify
            cases hVerify
          by_cases hRest : rest = []
          · simp [verifyAny, hVerify, hRest, hNot]
          · simp [verifyAny, hVerify, hRest, hNot, ih hRest]

/- Some key of the answer must verify the signature. -/
theorem verifySignature_ok_iff
    (crypto : Crypto)
    (method : SigningMethod)
    (text : String)
    (signature : List UInt8)
    (answer : KeyAnswer) :
    verifySignature crypto method text signature answer =
        .ok () ↔
      ∃ key ∈ answer.keys,
        method.Accepts crypto text signature key := by
  cases answer with
  | one key =>
      have hKey :
          method.verify crypto text signature key = .ok () ↔
            method.Accepts crypto text signature key :=
        SigningMethod.verify_ok_iff method
      cases hVerify :
          method.verify crypto text signature key with
      | ok done =>
          simp [verifySignature, hVerify, KeyAnswer.keys,
            hKey.mp hVerify]
      | error err =>
          rw [hVerify] at hKey
          simpa [verifySignature, hVerify, KeyAnswer.keys]
            using hKey
  | set keys =>
      cases keys with
      | nil => simp [verifySignature, KeyAnswer.keys]
      | cons key rest =>
          have hAny :=
            verifyAny_ok_iff crypto method text signature
              (List.cons_ne_nil key rest)
          cases hVerify :
              verifyAny crypto method text signature
                (key :: rest) with
          | ok done =>
              simp only [verifySignature, hVerify,
                KeyAnswer.keys, true_iff]
              exact hAny.mp hVerify
          | error err =>
              rw [hVerify] at hAny
              simpa [verifySignature, hVerify,
                KeyAnswer.keys] using hAny

/- What is known of a token before its key is looked up. -/
omit [Claims γ] in
theorem parseUnverified_ok_iff
    {tokenString : String}
    {found : Unverified γ} :
    parseUnverified decoders tokenString = .ok found ↔
      splitToken tokenString = some found.parts ∧
        (∃ bytes,
          Go.decodeRawURL found.parts.1 = .ok bytes ∧
            decoders.header bytes = .ok found.header) ∧
        (∃ bytes,
          Go.decodeRawURL found.parts.2.1 = .ok bytes ∧
            decoders.claims bytes = .ok found.claims) ∧
        found.header.alg =
          some (.text found.method.alg) := by
  constructor
  · intro hParse
    unfold parseUnverified at hParse
    split at hParse
    · cases hParse
    rename_i parts hParts
    split at hParse
    · cases hParse
    rename_i headerBytes hHeaderBytes
    split at hParse
    · cases hParse
    rename_i header hHeader
    split at hParse
    · cases hParse
    rename_i claimBytes hClaimBytes
    split at hParse
    · cases hParse
    rename_i claims hClaims
    split at hParse
    · rename_i alg hAlg
      split at hParse
      · cases hParse
      · rename_i method hMethod
        cases hParse
        refine ⟨hParts, ⟨_, hHeaderBytes, hHeader⟩,
          ⟨_, hClaimBytes, hClaims⟩, ?_⟩
        rw [hAlg, getSigningMethod_eq_some_iff.mp hMethod]
    · cases hParse
  · intro hKnown
    rcases hKnown with
      ⟨hParts, ⟨headerBytes, hHeaderBytes, hHeader⟩,
        ⟨claimBytes, hClaimBytes, hClaims⟩, hAlg⟩
    simp [parseUnverified, hParts, hHeaderBytes, hHeader,
      hClaimBytes, hClaims, hAlg, getSigningMethod_alg]

omit [Claims γ] in
theorem beforeKey_ok_iff
    {tokenString : String}
    {found : Unverified γ}
    {signature : List UInt8} :
    p.beforeKey decoders tokenString =
        .ok (found, signature) ↔
      parseUnverified decoders tokenString = .ok found ∧
        (∀ methods,
          p.validMethods = some methods →
            found.method.alg ∈ methods) ∧
        Go.decodeRawURL found.parts.2.2 =
          .ok signature := by
  constructor
  · intro hBefore
    unfold beforeKey at hBefore
    split at hBefore
    · cases hBefore
    rename_i parsed hParsed
    split at hBefore
    · cases hBefore
    rename_i hListed
    split at hBefore
    · cases hBefore
    rename_i bytes hBytes
    cases hBefore
    refine ⟨hParsed, ?_, hBytes⟩
    intro methods hMethods
    simpa [hMethods] using hListed
  · intro hKnown
    rcases hKnown with ⟨hParsed, hListed, hBytes⟩
    have hValid :
        p.validMethods.any
            (fun methods =>
              !methods.contains found.method.alg) =
          false := by
      cases hMethods : p.validMethods with
      | none => rfl
      | some methods =>
          simpa using hListed methods hMethods
    rw [beforeKey, hParsed]
    dsimp only
    rw [hValid, hBytes]
    rfl

theorem afterKey_ok_iff
    {tokenString : String}
    {found : Unverified γ}
    {signature : List UInt8}
    {got : Except String KeyAnswer}
    {token : Token γ} :
    p.afterKey crypto now tokenString (found, signature) got =
        .ok token ↔
      (∃ answer,
        got = .ok answer ∧
          ∃ key ∈ answer.keys,
            found.method.Accepts crypto
              (Go.join [found.parts.1, found.parts.2.1] '.')
              signature key) ∧
        (p.skipClaimsValidation = false →
          p.validator.validate now found.claims = .ok ()) ∧
        token =
          { raw := tokenString
            method := found.method
            header := found.header
            claims := found.claims
            signature := signature
            valid := true } := by
  cases got with
  | error err => simp [afterKey]
  | ok answer =>
      have hSigned :=
        verifySignature_ok_iff crypto found.method
          (Go.join [found.parts.1, found.parts.2.1] '.')
          signature answer
      cases hVerify :
          verifySignature crypto found.method
            (Go.join [found.parts.1, found.parts.2.1] '.')
            signature answer with
      | error err =>
          rw [hVerify] at hSigned
          have hNot := fun h => hSigned.mpr h
          simp only [afterKey, hVerify, reduceCtorEq,
            false_iff]
          rintro ⟨⟨other, hOther, hKeys⟩, _⟩
          cases hOther
          cases hNot hKeys
      | ok done =>
          have hKeys := hSigned.mp hVerify
          by_cases hSkip : p.skipClaimsValidation = true
          · simp [afterKey, hVerify, hSkip, hKeys, eq_comm]
          · cases hValidate :
                p.validator.validate now found.claims with
            | error err =>
                simp [afterKey, hVerify, hSkip, hValidate]
            | ok done =>
                simp [afterKey, hVerify, hSkip, hValidate,
                  hKeys, eq_comm]

/- `ParseWithClaims` accepts what verifies, and no more. -/
theorem parseWithClaims_ok_iff
    {keyFunc : Header → Except String KeyAnswer}
    {tokenString : String}
    {token : Token γ} :
    p.parseWithClaims decoders crypto now keyFunc
        tokenString = .ok token ↔
      token.raw = tokenString ∧
        ∃ parts,
          p.Verifies decoders crypto now keyFunc parts
            token := by
  constructor
  · intro hParse
    unfold parseWithClaims at hParse
    split at hParse
    · cases hParse
    rename_i before hBefore
    rcases before with ⟨found, signature⟩
    rcases beforeKey_ok_iff.mp hBefore with
      ⟨hFound, hListed, hSignature⟩
    rcases parseUnverified_ok_iff.mp hFound with
      ⟨hParts, hHeader, hClaims, hAlg⟩
    rcases afterKey_ok_iff.mp hParse with
      ⟨hSigned, hAllowed, hToken⟩
    rw [hToken]
    exact
      ⟨rfl, found.parts,
        { decodes :=
            { segments := splitToken_eq_some_iff.mp hParts
              header := hHeader
              claims := hClaims
              signature := hSignature
              alg := hAlg }
          listed := hListed
          signed := hSigned
          allowed := hAllowed
          marked := rfl }⟩
  · intro hBoth
    rcases hBoth with ⟨hRaw, parts, hVerifies⟩
    rcases token with
      ⟨raw, method, header, claims, signature, valid⟩
    have hValid : valid = true := hVerifies.marked
    have hSegments := hVerifies.decodes.segments
    dsimp only at hRaw hSegments
    subst hRaw hValid
    have hFound :
        parseUnverified decoders raw =
          .ok ⟨parts, header, claims, method⟩ :=
      parseUnverified_ok_iff.mpr
        ⟨splitToken_eq_some_iff.mpr hSegments,
          hVerifies.decodes.header,
          hVerifies.decodes.claims, hVerifies.decodes.alg⟩
    have hBefore :
        p.beforeKey decoders raw =
          .ok (⟨parts, header, claims, method⟩, signature) :=
      beforeKey_ok_iff.mpr
        ⟨hFound, hVerifies.listed,
          hVerifies.decodes.signature⟩
    rw [parseWithClaims, hBefore]
    exact afterKey_ok_iff.mpr
      ⟨hVerifies.signed, hVerifies.allowed, rfl⟩

end Parser

end Jwt
