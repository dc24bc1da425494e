import DsxExchange.AuthCallout.Auth.NKeyText

/-
  The claims of the vendored package `nats-io/jwt`, and their
  validation.

  Key definitions include:
    * `NatsJwt.ClaimsData`
    * `NatsJwt.AuthorizationRequestClaims`
    * `NatsJwt.AuthorizationResponseClaims`
    * `NatsJwt.UserClaims`, `NatsJwt.Claims`
    * `NatsJwt.AuthorizationResponseClaims.validate`
    * `NatsJwt.UserClaims.validate`
-/

------------------------------------------------------------
-- Claims
------------------------------------------------------------

namespace NatsJwt

open AuthCallout.Config

/- `ClaimsData`. -/
structure ClaimsData where
  audience : String
  expires : Int
  id : String
  issuedAt : Int
  issuer : String
  name : String
  notBefore : Int
  subject : String
deriving DecidableEq, Repr

/- `ClaimsData`, with a subject alone. -/
def ClaimsData.ofSubject (subject : String) : ClaimsData where
  audience := ""
  expires := 0
  id := ""
  issuedAt := 0
  issuer := ""
  name := ""
  notBefore := 0
  subject := subject

/- `GenericFields`. -/
structure GenericFields where
  tags : List String
  type : String
  version : Int
deriving DecidableEq, Repr

def GenericFields.zero : GenericFields where
  tags := []
  type := ""
  version := 0

/- `ServerID`. -/
structure ServerID where
  name : String
  host : String
  id : String
  version : String
  cluster : String
  tags : List String
  xkey : String
deriving DecidableEq, Repr

def ServerID.zero : ServerID where
  name := ""
  host := ""
  id := ""
  version := ""
  cluster := ""
  tags := []
  xkey := ""

/- `ClientInformation`. -/
structure ClientInformation where
  host : String
  id : ℕ
  user : String
  name : String
  tags : List String
  nameTag : String
  kind : String
  type : String
  mqtt : String
  nonce : String
deriving DecidableEq, Repr

/- `ConnectOptions`. -/
structure ConnectOptions where
  jwt : String
  nkey : String
  signedNonce : String
  token : String
  username : String
  password : String
  name : String
  lang : String
  version : String
  protocol : Int
deriving DecidableEq, Repr

/- `ClientTLS`. -/
structure ClientTLS where
  version : String
  cipher : String
  certs : List String
  verifiedChains : List (List String)
deriving DecidableEq, Repr

/- `AuthorizationRequest`. -/
structure AuthorizationRequest where
  server : ServerID
  userNkey : String
  clientInformation : ClientInformation
  connectOptions : ConnectOptions
  tls : Option ClientTLS
  requestNonce : String
  fields : GenericFields
deriving DecidableEq, Repr

/- `AuthorizationRequestClaims`. -/
structure AuthorizationRequestClaims where
  claimsData : ClaimsData
  nats : AuthorizationRequest
deriving DecidableEq, Repr

/- `AuthorizationResponse`. -/
structure AuthorizationResponse where
  jwt : String
  error : String
  issuerAccount : String
  fields : GenericFields
deriving DecidableEq, Repr

/- `AuthorizationResponseClaims`. -/
structure AuthorizationResponseClaims where
  claimsData : ClaimsData
  nats : AuthorizationResponse
deriving DecidableEq, Repr

/- `NewAuthorizationResponseClaims`, nil for no subject. -/
def newAuthorizationResponseClaims (subject : String) :
    Option AuthorizationResponseClaims :=
  if subject = "" then
    none
  else
    some
      { claimsData := .ofSubject subject
        nats := ⟨"", "", "", .zero⟩ }

/- `TimeRange`. -/
structure TimeRange where
  start : String
  stop : String
deriving DecidableEq, Repr

/- `Limits`, with the limits of users and of NATS in it. -/
structure Limits where
  src : List String
  times : List TimeRange
  locale : String
  subs : Int
  data : Int
  payload : Int
deriving DecidableEq, Repr

/- `User`. -/
structure User where
  permissions : Permissions
  limits : Limits
  bearerToken : Bool
  proxyRequired : Bool
  allowedConnectionTypes : List String
  issuerAccount : String
  fields : GenericFields
deriving DecidableEq, Repr

/- `UserClaims`. -/
structure UserClaims where
  claimsData : ClaimsData
  nats : User
deriving DecidableEq, Repr

end NatsJwt

------------------------------------------------------------
-- Validation
------------------------------------------------------------

namespace NatsJwt

open AuthCallout.Auth AuthCallout.Config

/- `ValidationIssue`, with its kind. -/
structure ValidationIssue where
  description : String
  blocking : Bool
  timeCheck : Bool
deriving DecidableEq, Repr

/- `AddError`. -/
def addError (description : String) : ValidationIssue where
  description := description
  blocking := true
  timeCheck := false

/- `AddTimeCheck`. -/
def addTimeCheck (description : String) : ValidationIssue where
  description := description
  blocking := false
  timeCheck := true

/- An issue if a check fails. -/
def issueIf
    (failed : Bool)
    (issue : ValidationIssue) : List ValidationIssue :=
  if failed then [issue] else []

/- `Errors`, by their texts. -/
def errorsOf (issues : List ValidationIssue) : List String :=
  (issues.filter (·.blocking)).map (·.description)

/- `ClaimsData.Validate`, at a time in seconds. -/
def ClaimsData.validate
    (now : Int)
    (c : ClaimsData) : List ValidationIssue :=
  issueIf (c.expires > 0 && now > c.expires)
      (addTimeCheck "claim is expired") ++
    issueIf (c.notBefore > 0 && c.notBefore > now)
      (addTimeCheck "claim is not yet valid")

/- `AuthorizationResponseClaims.Validate`. -/
def AuthorizationResponseClaims.validate
    (now : Int)
    (ar : AuthorizationResponseClaims) :
    List ValidationIssue :=
  issueIf
      (!isValidPublicKey prefixByteUser ar.claimsData.subject)
      (addError "Subject must be a user public key") ++
    issueIf
      (!isValidPublicKey prefixByteServer
        ar.claimsData.audience)
      (addError "Audience must be a server public key") ++
    issueIf (ar.nats.error = "" && ar.nats.jwt = "")
      (addError "Error or Jwt is required") ++
    issueIf (ar.nats.error ≠ "" && ar.nats.jwt ≠ "")
      (addError "Only Error or Jwt can be set") ++
    issueIf
      (ar.nats.issuerAccount ≠ "" &&
        !isValidPublicKey prefixByteAccount
          ar.nats.issuerAccount)
      (addError
        "issuer_account is not an account public key") ++
    ar.claimsData.validate now

/- `Subject.Validate`. -/
def validateSubject (s : String) : List ValidationIssue :=
  if s = "" then
    [addError "subject cannot be empty"]
  else
    issueIf (Go.contains s " ")
        (addError
          ("subject " ++ Go.quote s ++
            " cannot have spaces")) ++
      issueIf (Go.hasPrefix s "." || Go.hasSuffix s ".")
        (addError
          ("subject " ++ Go.quote s ++
            " cannot start or end with a \x60.\x60")) ++
      issueIf (Go.contains s "..")
        (addError
          ("subject " ++ Go.quote s ++
            " cannot contain consecutive \x60.\x60"))

/- `checkPermission`. -/
def checkPermission
    (permitQueue : Bool)
    (subj : String) : List ValidationIssue :=
  match Go.split subj ' ' with
  | [subject] => validateSubject subject
  | [subject, queue] =>
      validateSubject subject ++ validateSubject queue ++
        issueIf (!permitQueue)
          (addError
            ("Permission Subject \"" ++ subj ++
              "\" is not allowed to contain queue"))
  | _ =>
      [addError
        ("Permission Subject \"" ++ subj ++
          "\" contains too many spaces")]

/- `Permission.Validate`. -/
def validatePermission
    (permitQueue : Bool)
    (p : Permission) : List ValidationIssue :=
  p.allow.flatMap (checkPermission permitQueue) ++
    p.deny.flatMap (checkPermission permitQueue)

/- `Permissions.Validate`. Any response will do. -/
def validatePermissions
    (p : Permissions) : List ValidationIssue :=
  validatePermission true p.sub ++
    validatePermission false p.pub

/- The checks of addresses, times of day and time zones. -/
structure LimitChecks where
  parseCIDR : String → Bool
  parseTime : String → Option String
  loadLocation : String → Option String

/- `TimeRange.Validate`. -/
def TimeRange.validate
    (checks : LimitChecks)
    (tr : TimeRange) : List ValidationIssue :=
  (if tr.start = "" then
      [addError "time ranges start must contain a start"]
    else
      issueIf (checks.parseTime tr.start).isSome
        (addError
          ("start in time range is invalid " ++
            Go.quote tr.start))) ++
    (if tr.stop = "" then
      [addError "time ranges end must contain an end"]
    else
      issueIf (checks.parseTime tr.stop).isSome
        (addError
          ("end in time range is invalid " ++
            Go.quote tr.stop)))

/- `Limits.Validate`. -/
def Limits.validate
    (checks : LimitChecks)
    (l : Limits) : List ValidationIssue :=
  l.src.flatMap
      (fun cidr =>
        issueIf (!checks.parseCIDR cidr)
          (addError
            ("invalid cidr " ++ Go.quote cidr ++
              " in user src limits"))) ++
    l.times.flatMap (TimeRange.validate checks) ++
    (if l.locale ≠ "" then
      match checks.loadLocation l.locale with
      | none => []
      | some err =>
          [addError
            ("could not parse iana time zone by name: " ++
              err)]
    else
      [])

/- `UserClaims.Validate`. -/
def UserClaims.validate
    (checks : LimitChecks)
    (now : Int)
    (u : UserClaims) : List ValidationIssue :=
  u.claimsData.validate now ++
    validatePermissions u.nats.permissions ++
    u.nats.limits.validate checks ++
    issueIf
      (u.nats.issuerAccount ≠ "" &&
        !isValidPublicKey prefixByteAccount
          u.nats.issuerAccount)
      (addError "account_id is not an account public key")

end NatsJwt

------------------------------------------------------------
-- Claims Without Times And Limits
------------------------------------------------------------

namespace NatsJwt

open AuthCallout.Auth AuthCallout.Config

variable {now : Int} {checks : LimitChecks}

theorem ClaimsData.validate_of_untimed
    {c : ClaimsData}
    (hExpires : c.expires = 0)
    (hNotBefore : c.notBefore = 0) :
    c.validate now = [] := by
  simp [ClaimsData.validate, issueIf, hExpires, hNotBefore]

theorem blocking_validateSubject
    {s : String}
    {issue : ValidationIssue}
    (hMem : issue ∈ validateSubject s) :
    issue.blocking = true := by
  unfold validateSubject issueIf at hMem
  split at hMem
  · rw [List.mem_singleton.mp hMem]
    rfl
  · simp only [List.mem_append] at hMem
    rcases hMem with (hMem | hMem) | hMem
    all_goals
      split at hMem
      · rw [List.mem_singleton.mp hMem]
        rfl
      · cases hMem

theorem blocking_checkPermission
    {permitQueue : Bool}
    {subj : String}
    {issue : ValidationIssue}
    (hMem : issue ∈ checkPermission permitQueue subj) :
    issue.blocking = true := by
  unfold checkPermission at hMem
  split at hMem
  · exact blocking_validateSubject hMem
  · simp only [List.mem_append] at hMem
    rcases hMem with (hMem | hMem) | hMem
    · exact blocking_validateSubject hMem
    · exact blocking_validateSubject hMem
    · unfold issueIf at hMem
      split at hMem
      · rw [List.mem_singleton.mp hMem]
        rfl
      · cases hMem
  · rw [List.mem_singleton.mp hMem]
    rfl

theorem blocking_validatePermission
    {permitQueue : Bool}
    {p : Permission}
    {issue : ValidationIssue}
    (hMem : issue ∈ validatePermission permitQueue p) :
    issue.blocking = true := by
  rcases List.mem_append.mp hMem with hMem | hMem
  · rcases List.mem_flatMap.mp hMem with ⟨subj, _, hIssue⟩
    exact blocking_checkPermission hIssue
  · rcases List.mem_flatMap.mp hMem with ⟨subj, _, hIssue⟩
    exact blocking_checkPermission hIssue

/- What the validation finds in permissions are errors. -/
theorem blocking_validatePermissions
    {p : Permissions}
    {issue : ValidationIssue}
    (hMem : issue ∈ validatePermissions p) :
    issue.blocking = true := by
  rcases List.mem_append.mp hMem with hMem | hMem
  · exact blocking_validatePermission hMem
  · exact blocking_validatePermission hMem

/- Issues that all block are none if there are no errors. -/
theorem eq_nil_of_errorsOf
    {issues : List ValidationIssue}
    (hBlocking : ∀ issue ∈ issues, issue.blocking = true)
    (hErrors : errorsOf issues = []) :
    issues = [] := by
  rw [errorsOf, List.map_eq_nil_iff] at hErrors
  rw [List.filter_eq_self.mpr hBlocking] at hErrors
  exact hErrors

end NatsJwt
