import DsxExchange.Go.Maps
import DsxExchange.Go.Strings
import DsxExchange.Go.Text
import DsxExchange.NestedMaps.Unflatten

/-
  The configuration manager: defaults, files, environment
  variables and their aliases, each over the ones before.

  A loaded configuration is a map of maps. A later layer is
  merged into it: its maps are joined with the maps that are
  there, and its values replace what is there, maps included.

  Key definitions include:
    * `AuthCallout.AppConfig.Value`,
      `AuthCallout.AppConfig.Conf`
    * `AuthCallout.AppConfig.Libraries`
    * `AuthCallout.AppConfig.path`
    * `AuthCallout.AppConfig.envKey`,
      `AuthCallout.AppConfig.envValues`,
      `AuthCallout.AppConfig.envProvider`
    * `AuthCallout.AppConfig.applyAliases`
    * `AuthCallout.AppConfig.Manager.load`
-/

------------------------------------------------------------
-- Values And Variables
------------------------------------------------------------

namespace AuthCallout

namespace AppConfig

/- A value that is no map; other scalars by their text. -/
inductive Value where
  | text (value : String)
  | number (value : ℤ)
  | texts (values : List String)
  | scalar (value : String)
deriving DecidableEq, Repr

/- The nested map of a `koanf.Koanf`. -/
abbrev Conf := NestedMaps.Map String Value

/- The parts of a key, with the delimiter of `koanf.New`. -/
def path (key : String) : List String :=
  Go.split key '.'

/- `os.Environ`: variables that are set, by name and value. -/
abbrev Environ := List (String × String)

/- `os.Getenv`. -/
def getenv (environ : Environ) (name : String) : String :=
  (environ.lookup name).getD ""

/- Why a file cannot be examined. -/
inductive StatError where
  | notExist (message : String)
  | other (message : String)
deriving DecidableEq, Repr

def StatError.message : StatError → String
| .notExist message => message
| .other message => message

/-
  What lies outside: the file system, the parser of YAML,
  with every key as a text, and lower case.
-/
structure Libraries where
  stat : String → Except StatError Unit
  readFile : String → Except String String
  parseYAML : String → Except String Conf
  toLower : String → String

def envPrefix : String := "AUTH_CALLOUT_"

/- `Manager`, before it has loaded anything. -/
structure Manager where
  defaultYAML : String
  configPath : String

/- `firstNonEmpty`. -/
def firstNonEmpty (values : List String) : String :=
  (values.find? (· ≠ "")).getD ""

/- `envValue`. -/
def envValue
    (environ : Environ)
    (names : List String) : String :=
  firstNonEmpty (names.map (getenv environ))

end AppConfig

end AuthCallout

------------------------------------------------------------
-- Files
------------------------------------------------------------

namespace AuthCallout

namespace AppConfig

/- `loadOptionalFile`. -/
def loadOptionalFile
    (libs : Libraries)
    (conf : Conf)
    (path : String)
    (isOptional : Bool) : Except String Conf :=
  match libs.stat path with
  | .error (.notExist message) =>
      if isOptional then
        .ok conf
      else
        .error ("stat config file " ++ Go.quote path ++ ": " ++
          message)
  | .error (.other message) =>
      .error ("stat config file " ++ Go.quote path ++ ": " ++
        message)
  | .ok () =>
      match libs.readFile path with
      | .error err =>
          .error ("load config file " ++ Go.quote path ++
            ": " ++ err)
      | .ok content =>
          match libs.parseYAML content with
          | .error err =>
              .error ("load config file " ++ Go.quote path ++
                ": " ++ err)
          | .ok later => .ok (conf.merge later)

/- The layers of `Load` below the environment. -/
def Manager.loadFiles
    (libs : Libraries)
    (m : Manager)
    (environ : Environ) : Except String Conf :=
  match libs.parseYAML m.defaultYAML with
  | .error err => .error ("load defaults: " ++ err)
  | .ok defaults => do
      let conf := NestedMaps.Map.empty.merge defaults
      let configPath :=
        firstNonEmpty
          [m.configPath, getenv environ (envPrefix ++ "CONFIG"),
            getenv environ (envPrefix ++ "CONFIG_FILE")]
      let conf ←
        if configPath ≠ "" then
          loadOptionalFile libs conf configPath false
        else
          .ok conf
      let hotConfig :=
        getenv environ (envPrefix ++ "HOT_CONFIG")
      if hotConfig ≠ "" then
        loadOptionalFile libs conf hotConfig true
      else
        .ok conf

end AppConfig

end AuthCallout

------------------------------------------------------------
-- Environment
------------------------------------------------------------

namespace AuthCallout

namespace AppConfig

/- `envKey`. -/
def envKey (libs : Libraries) (s : String) : String :=
  let key := libs.toLower (Go.trimPrefix s envPrefix)
  let key := Go.replaceAll key "__" "-"
  Go.replaceAll key "_" "."

/- The variable is one that the provider reports the key of. -/
def Gives (libs : Libraries) (name key : String) : Prop :=
  Go.hasPrefix name envPrefix = true ∧
    envKey libs name = key ∧ key ≠ ""

instance (libs : Libraries) (name key : String) :
    Decidable (Gives libs name key) :=
  inferInstanceAs (Decidable (_ ∧ _ ∧ _))

/- The values by key that `Read` of `env.Env` collects. -/
def envValues
    (libs : Libraries)
    (environ : Environ) : Go.Map String :=
  environ.foldl
    (fun mp entry =>
      let key := envKey libs entry.1
      if Gives libs entry.1 key then
        mp.insert key entry.2
      else
        mp)
    ∅

/- `Unflatten` of the values, in the order of its loop. -/
def envProvider
    (libs : Libraries)
    (order : Go.Iteration)
    (environ : Environ) : Conf :=
  .unflatten ((order.entries (envValues libs environ)).map
    fun entry => (path entry.1, .text entry.2))

/- Digits of a number, after its sign. -/
def digits? : ℕ → List Char → Option ℕ
| value, [] => some value
| value, c :: rest =>
    if c.isDigit then
      digits? (value * 10 + (c.toNat - 48)) rest
    else
      none

/- `strconv.Atoi`. -/
def atoi (s : String) : Option ℤ :=
  let signed : Option ℤ :=
    match s.toList with
    | '-' :: c :: rest =>
        (digits? 0 (c :: rest)).map fun n => -(n : ℤ)
    | '+' :: c :: rest =>
        (digits? 0 (c :: rest)).map fun n => (n : ℤ)
    | c :: rest =>
        (digits? 0 (c :: rest)).map fun n => (n : ℤ)
    | [] => none
  signed.filter fun n =>
    decide (-9223372036854775808 ≤ n ∧ n ≤ 9223372036854775807)

/- How an alias becomes a value. -/
inductive Setter where
  | setString
  | setStringSlice
  | setInt
deriving DecidableEq, Repr

/- What the setter sets for a value that is not empty. -/
def Setter.value (value : String) : Setter → Value
| .setString => .text value
| .setStringSlice => .texts (Go.split value ',')
| .setInt =>
    match atoi value with
    | none => .text value
    | some parsed => .number parsed

/- One call of `applyAliases`. -/
structure Alias where
  setter : Setter
  key : String
  names : List String
deriving DecidableEq, Repr

/- The calls of `applyAliases`. -/
def aliases : List Alias :=
  [⟨.setString, "nats.url",
      ["NATS_URL", envPrefix ++ "NATS_URL"]⟩,
    ⟨.setString, "nats.nkey-seed",
      ["NATS_NKEY_SEED", envPrefix ++ "NATS_NKEY_SEED"]⟩,
    ⟨.setString, "nats.issuer-seed",
      ["NATS_ISSUER_SEED", envPrefix ++ "NATS_ISSUER_SEED"]⟩,
    ⟨.setString, "nats.xkey-seed",
      ["NATS_XKEY_SEED", envPrefix ++ "NATS_XKEY_SEED"]⟩,
    ⟨.setString, "jwks.url",
      ["JWKS_URL", envPrefix ++ "JWKS_URL"]⟩,
    ⟨.setString, "jwks.issuer",
      ["JWKS_ISSUER", envPrefix ++ "JWKS_ISSUER"]⟩,
    ⟨.setString, "jwks.audience",
      ["JWKS_AUDIENCE", envPrefix ++ "JWKS_AUDIENCE"]⟩,
    ⟨.setStringSlice, "jwks.signing-algorithms",
      ["JWKS_SIGNING_ALGORITHMS",
        envPrefix ++ "JWKS_SIGNING_ALGORITHMS"]⟩,
    ⟨.setString, "mtls.ca-path",
      ["MTLS_CA_PATH", envPrefix ++ "MTLS_CA_PATH"]⟩,
    ⟨.setString, "permissions.file",
      ["PERMISSIONS_FILE", envPrefix ++ "PERMISSIONS_FILE"]⟩,
    ⟨.setString, "observability.telemetry.service-name",
      [envPrefix ++ "SERVICE_NAME"]⟩,
    ⟨.setInt, "host.port",
      [envPrefix ++ "HOST_PORT",
        envPrefix ++ "SERVICE_SERVER_PORT"]⟩]

/- `setString`, `setStringSlice` or `setInt`. -/
def Alias.apply
    (environ : Environ)
    (conf : Conf)
    (call : Alias) : Conf :=
  let value := envValue environ call.names
  if value = "" then
    conf
  else
    conf.set (path call.key) (call.setter.value value)

/- `applyAliases`. -/
def applyAliases (environ : Environ) (conf : Conf) : Conf :=
  aliases.foldl (Alias.apply environ) conf

/- `Load`. -/
def Manager.load
    (libs : Libraries)
    (order : Go.Iteration)
    (m : Manager)
    (environ : Environ) : Except String Conf := do
  let conf ← m.loadFiles libs environ
  return applyAliases environ
    (conf.merge (envProvider libs order environ))

end AppConfig

end AuthCallout
