import DsxExchange.Go.Text
import DsxExchange.Go.Maps
import DsxExchange.Cells.Program

/-
  The permissions manager of the auth-callout service: the
  permissions file, `load`, and the four lookup tables that
  requests read.

  Each lookup table is an atomic pointer of its own, and so
  is a cell of its own. Reading the file is one more cell:
  its content is what reading and decoding the file give.

  Key definitions include:
    * `AuthCallout.Config.PermissionsConfig`
    * `AuthCallout.Config.FileContent`
    * `AuthCallout.Config.Cell`, `AuthCallout.Config.World`
    * `AuthCallout.Config.buildLookups`
    * `AuthCallout.Config.load`
    * `AuthCallout.Config.getOAuth2Profile`
-/

------------------------------------------------------------
-- Configuration Types
------------------------------------------------------------

namespace AuthCallout

namespace Config

/- `jwt.Permission`. -/
structure Permission where
  allow : List String
  deny : List String
deriving DecidableEq, Repr

/- `jwt.ResponsePermission`. -/
structure ResponsePermission where
  maxMsgs : Int
  expires : Int
deriving DecidableEq, Repr

/- `jwt.Permissions`. -/
structure Permissions where
  pub : Permission
  sub : Permission
  resp : Option ResponsePermission
deriving DecidableEq, Repr

/- The zero value of `jwt.Permissions`. -/
def Permissions.zero : Permissions where
  pub := ⟨[], []⟩
  sub := ⟨[], []⟩
  resp := none

/- The account and the permissions of a user. -/
structure UserProfile where
  name : String
  account : String
  permissions : Permissions
deriving DecidableEq, Repr

/- An OAuth2 user of the file. -/
structure OAuth2Entry where
  subject : String
  azp : String
  account : String
  permissions : Permissions
  requiredScope : String
deriving DecidableEq, Repr

/- An mTLS user of the file. -/
structure MTLSEntry where
  identity : String
  account : String
  permissions : Permissions
deriving DecidableEq, Repr

/- An NKey user of the file. -/
structure NKeyEntry where
  publicKey : String
  account : String
  permissions : Permissions
deriving DecidableEq, Repr

/- The user without credentials. -/
structure NoAuthEntry where
  account : String
  permissions : Permissions
deriving DecidableEq, Repr

/-
  The decoded file. The entries of a section are pointers, so
  that a JSON `null` among them is a nil pointer.
-/
structure PermissionsConfig where
  oauth2 : Go.Map (Option OAuth2Entry)
  mtls : Go.Map (Option MTLSEntry)
  nkey : Go.Map (Option NKeyEntry)
  noauth : Option NoAuthEntry

/-
  What `os.ReadFile` and `json.Unmarshal` make of the file.
-/
inductive FileContent where
  | unreadable (err : String)
  | malformed (err : String)
  | decoded (config : PermissionsConfig)

end Config

end AuthCallout

------------------------------------------------------------
-- Manager State
------------------------------------------------------------

namespace AuthCallout

namespace Config

/- The lookup key of an OAuth2 profile. -/
structure OAuth2Key where
  subject : String
  azp : String
deriving DecidableEq, Repr

/- A profile with the scope that a token must carry. -/
structure OAuth2UserProfile where
  profile : UserProfile
  requiredScope : String
deriving DecidableEq, Repr

/- The file, and the atomic pointers of the manager. -/
inductive Cell where
  | configFile
  | noauthProfile
  | oauth2Lookup
  | mtlsLookup
  | nkeyLookup
deriving DecidableEq, Repr

/- What each cell holds. A pointer may be nil. -/
abbrev Cell.Contents : Cell → Type
| .configFile => FileContent
| .noauthProfile => Option UserProfile
| .oauth2Lookup =>
    Option (Go.Table OAuth2Key OAuth2UserProfile)
| .mtlsLookup => Option (Go.Table String UserProfile)
| .nkeyLookup => Option (Go.Table String UserProfile)

/- The file together with the state of the manager. -/
abbrev World := Cells.Memory Cell.Contents

/- The values of the four pointers of the manager. -/
structure Lookups where
  noauth : Option UserProfile
  oauth2 : Option (Go.Table OAuth2Key OAuth2UserProfile)
  mtls : Option (Go.Table String UserProfile)
  nkey : Option (Go.Table String UserProfile)

/- A fresh manager, whose pointers are all nil. -/
def Lookups.fresh : Lookups :=
  ⟨none, none, none, none⟩

/- The file with the given content and the manager. -/
def world
    (content : FileContent)
    (lookups : Lookups) : World
| .configFile => content
| .noauthProfile => lookups.noauth
| .oauth2Lookup => lookups.oauth2
| .mtlsLookup => lookups.mtls
| .nkeyLookup => lookups.nkey

/- The four pointers. -/
def lookups (w : World) : Lookups where
  noauth := w .noauthProfile
  oauth2 := w .oauth2Lookup
  mtls := w .mtlsLookup
  nkey := w .nkeyLookup

@[simp] theorem lookups_world
    (content : FileContent)
    (tables : Lookups) :
    lookups (world content tables) = tables :=
  rfl

@[simp] theorem world_configFile
    (content : FileContent)
    (tables : Lookups) :
    world content tables .configFile = content :=
  rfl

/- Worlds with equal pointers have equal lookups. -/
theorem lookups_congr
    {left right : World}
    (hPointers :
      ∀ cell, cell ≠ .configFile → left cell = right cell) :
    lookups left = lookups right := by
  unfold lookups
  rw [hPointers .noauthProfile (by decide),
    hPointers .oauth2Lookup (by decide),
    hPointers .mtlsLookup (by decide),
    hPointers .nkeyLookup (by decide)]

end Config

end AuthCallout

------------------------------------------------------------
-- Loading
------------------------------------------------------------

namespace AuthCallout

namespace Config

open Cells

/- The scope an entry requires when it names none. -/
def defaultRequiredScope : String := "mqtt"

/- The name of the profile of unauthenticated clients. -/
def noauthName : String := "anonymous"

/- The body of the loop over the OAuth2 entries. -/
def oauth2Item
    (env : Go.Env)
    (name : String)
    (entry : OAuth2Entry) :
    Except Go.Fault (OAuth2Key × OAuth2UserProfile) :=
  let subject := Go.expandEnv env entry.subject
  let azp := Go.expandEnv env entry.azp
  let account := Go.expandEnv env entry.account
  let requiredScope := Go.expandEnv env entry.requiredScope
  if subject = "" ∧ azp = "" then
    .error (.error
      ("OAuth2 entry '" ++ name ++
        "' must have either 'subject' or 'azp' field"))
  else
    .ok
      (⟨subject, azp⟩,
        { profile := ⟨name, account, entry.permissions⟩
          requiredScope :=
            if requiredScope = "" then
              defaultRequiredScope
            else
              requiredScope })

/-
  The body that the loops over the mTLS and over the NKey
  entries have in common.
-/
def keyedItem
    (env : Go.Env)
    (key account : String)
    (permissions : Permissions)
    (name : String) :
    Except Go.Fault (String × UserProfile) :=
  .ok
    (Go.expandEnv env key,
      ⟨name, Go.expandEnv env account, permissions⟩)

/- The body of the loop over the mTLS entries. -/
def mtlsItem
    (env : Go.Env)
    (name : String)
    (entry : MTLSEntry) :
    Except Go.Fault (String × UserProfile) :=
  keyedItem env entry.identity entry.account
    entry.permissions name

/- The body of the loop over the NKey entries. -/
def nkeyItem
    (env : Go.Env)
    (name : String)
    (entry : NKeyEntry) :
    Except Go.Fault (String × UserProfile) :=
  keyedItem env entry.publicKey entry.account
    entry.permissions name

/- The profile of the `noauth` section. -/
def noauthItem
    (env : Go.Env)
    (entry : NoAuthEntry) : UserProfile :=
  ⟨noauthName, Go.expandEnv env entry.account,
    entry.permissions⟩

/- The three loops of `load`, before anything is stored. -/
def buildLookups
    (env : Go.Env)
    (order : Go.Iteration)
    (config : PermissionsConfig) :
    Except Go.Fault Lookups :=
  match Go.rangeInto (oauth2Item env)
      (order.entries config.oauth2) Go.Table.empty with
  | .error fault => .error fault
  | .ok oauth2 =>
      match Go.rangeInto (mtlsItem env)
          (order.entries config.mtls) Go.Table.empty with
      | .error fault => .error fault
      | .ok mtls =>
          match Go.rangeInto (nkeyItem env)
              (order.entries config.nkey)
              Go.Table.empty with
          | .error fault => .error fault
          | .ok nkey =>
              .ok
                { noauth :=
                    config.noauth.map (noauthItem env)
                  oauth2 := some oauth2
                  mtls := some mtls
                  nkey := some nkey }

/- The four stores of `load`, in its order. -/
def publish
    (tables : Lookups) :
    Program Cell.Contents (Except Go.Fault Unit) :=
  .store .noauthProfile tables.noauth
    (.store .oauth2Lookup tables.oauth2
      (.store .mtlsLookup tables.mtls
        (.store .nkeyLookup tables.nkey
          (.done (.ok ())))))

/- What `load` does with the content it has read. -/
def loadContent
    (env : Go.Env)
    (order : Go.Iteration) :
    FileContent →
      Program Cell.Contents (Except Go.Fault Unit)
| .unreadable err =>
    .done (.error (.error
      ("failed to read config file: " ++ err)))
| .malformed err =>
    .done (.error (.error
      ("failed to parse config JSON: " ++ err)))
| .decoded config =>
    match buildLookups env order config with
    | .error fault => .done (.error fault)
    | .ok tables => publish tables

/- `load`. -/
def load
    (env : Go.Env)
    (order : Go.Iteration) :
    Program Cell.Contents (Except Go.Fault Unit) :=
  .load .configFile (loadContent env order)

end Config

end AuthCallout

------------------------------------------------------------
-- Lookups
------------------------------------------------------------

namespace AuthCallout

namespace Config

open Cells

/- The three probes of `GetOAuth2Profile`. -/
def probeOAuth2
    (table : Go.Table OAuth2Key OAuth2UserProfile)
    (subject azp : String) : Option OAuth2UserProfile :=
  match table ⟨subject, azp⟩ with
  | some entry => some entry
  | none =>
      match table ⟨subject, ""⟩ with
      | some entry => some entry
      | none => table ⟨"", azp⟩

/- `GetOAuth2Profile`. -/
def getOAuth2Profile (subject azp : String) :
    Query Cell.Contents
      (Except Go.Fault (Option OAuth2UserProfile)) :=
  .load .oauth2Lookup fun lookup =>
    .done
      (match lookup with
      | none => .error .panic
      | some table => .ok (probeOAuth2 table subject azp))

/- `GetMTLSProfile`. -/
def getMTLSProfile (identity : String) :
    Query Cell.Contents
      (Except Go.Fault (Option UserProfile)) :=
  .load .mtlsLookup fun lookup =>
    .done
      (match lookup with
      | none => .error .panic
      | some table => .ok (table identity))

/- `GetNKeyProfile`. -/
def getNKeyProfile (publicKey : String) :
    Query Cell.Contents
      (Except Go.Fault (Option UserProfile)) :=
  .load .nkeyLookup fun lookup =>
    .done
      (match lookup with
      | none => .error .panic
      | some table => .ok (table publicKey))

/- `GetNoAuthProfile`. -/
def getNoAuthProfile :
    Query Cell.Contents (Option UserProfile) :=
  .load .noauthProfile .done

end Config

end AuthCallout
