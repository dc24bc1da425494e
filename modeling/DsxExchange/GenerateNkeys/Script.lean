import DsxExchange.GenerateNkeys.Names
import DsxExchange.Shell.Script
import Mathlib.Data.List.Infix

/-
  The key generator: what it does to the tree of secrets and
  with its temporary directories.

  Every command asks the environment whether it succeeds, and
  the script can be killed before any of them. A failing
  command ends the script in the main shell; in a command
  substitution, where errexit is off, it goes on.

  Key definitions include:
    * `GenerateNkeys.World`, `GenerateNkeys.Command`,
      `GenerateNkeys.Answer`
    * `GenerateNkeys.generateNkeyPair`
    * `GenerateNkeys.writeSecretValue`
    * `GenerateNkeys.generateCluster`,
      `GenerateNkeys.generateLeafOutputsPair`
    * `GenerateNkeys.run`
-/

------------------------------------------------------------
-- The World
------------------------------------------------------------

namespace GenerateNkeys

/- The names on the way from the output root to an entry. -/
abbrev Path := List String

inductive Node where
  | dir
  | file (content : String)
deriving DecidableEq, Repr

abbrev Tree := Path → Option Node

/-
  The tree under the output root, the entries of it that do
  not have mode 600 or 700, and the directories that
  `make_temp_dir` has made and nobody has removed.
-/
structure World where
  tree : Tree
  wrongModes : List Path
  tempDirs : List String

inductive KeyType where
  | account
  | curve
  | user
deriving DecidableEq, Repr

def KeyType.seedPrefix : KeyType → String
| .account => "SA"
| .curve => "SX"
| .user => "SU"

def KeyType.pubkeyPrefix : KeyType → String
| .account => "A"
| .curve => "X"
| .user => "U"

inductive Command where
  | lookup (tool : String)
  | mkdir (path : Path)
  | chmod (path : Path)
  | mktemp (directory : Path)
  | write (path : Path)
  | move (source target : Path)
  | remove (path : Path)
  | find (directory : Path)
  | list
  | mktempDir
  | chmodTemp
  | nsc (type : KeyType)
  | cat
  | readLine (line : ℕ)
  | read
  | readPubkey
  | nk
deriving DecidableEq, Repr

/-
  How a command went: whether it succeeded, the name that
  `mktemp` chose, and the two lines that `nsc` printed for a
  key of the type that was asked for.
-/
structure Answer where
  ok : Bool
  name : String
  printed : KeyType → String × String

/- The variables of a shell: the array `TEMP_DIRS`. -/
abbrev Vars := List String

abbrev Machine := Shell.Machine Command Answer World Vars

abbrev Script := Shell.Script Command Answer World Vars

/- A command that changes the world, and its status. -/
def attempt
    (name : Command)
    (effect : World → Option World) : Script Bool :=
  Shell.Script.command name (fun answer world =>
    if answer.ok then
      match effect world with
      | some changed => (true, changed)
      | none => (false, world)
    else
      (false, world))

/- The same in the main shell, where errexit is on. -/
def must
    (name : Command)
    (effect : World → Option World) : Script Unit := do
  let ok ← attempt name effect
  if ok then
    pure ()
  else
    Shell.Script.exit 1

end GenerateNkeys

------------------------------------------------------------
-- Commands On The Tree
------------------------------------------------------------

namespace GenerateNkeys

def isFile : Option Node → Bool
| some (.file _) => true
| _ => false

/- `mkdir -p`: the missing directories on a path. -/
def mkdir (path : Path) (world : World) : Option World :=
  if path.inits.any (fun p => isFile (world.tree p)) then
    none
  else
    some
      { world with
        tree := fun p =>
          match world.tree p with
          | some node => some node
          | none => if p <+: path then some .dir else none }

def chmod (path : Path) (world : World) : Option World :=
  if world.tree path = none then
    none
  else
    some
      { world with
        wrongModes := world.wrongModes.filter (· ≠ path) }

/- The tree with one entry set, or removed. -/
def setNode
    (path : Path)
    (node : Option Node)
    (tree : Tree) : Tree :=
  fun p => if p = path then node else tree p

/- `printf '%s'` into a file. -/
def write
    (path : Path)
    (value : String)
    (world : World) : Option World :=
  if world.tree path = some .dir then
    none
  else
    some
      { world with
        tree := setNode path (some (.file value)) world.tree }

/- `mv`: into the target when that is a directory. -/
def move (source target : Path) (world : World) :
    Option World :=
  let target' :=
    if world.tree target = some .dir then
      target ++ [source.getLastD ""]
    else
      target
  if world.tree source = none ∨
      world.tree target' = some .dir then
    none
  else
    some
      { world with
        tree :=
          setNode target' (world.tree source)
            (setNode source none world.tree)
        wrongModes :=
          (world.wrongModes.filter (· ≠ target')).map
            (fun p => if p = source then target' else p) }

/- `rm -f`. -/
def remove (path : Path) (world : World) : Option World :=
  if world.tree path = some .dir then
    none
  else
    some
      { world with
        tree := setNode path none world.tree
        wrongModes := world.wrongModes.filter (· ≠ path) }

/-
  `mktemp` in a secret's directory: a new empty file with a
  hidden name. An unused name is what `mktemp` promises.
-/
def mktemp
    (directory : Path)
    (key : String) : Script (Option Path) :=
  Shell.Script.command (.mktemp directory)
    (fun answer world =>
      let path := directory ++ ["." ++ key ++ "." ++ answer.name]
      if answer.ok ∧ world.tree directory = some .dir ∧
          world.tree path = none then
        (some path,
          { world with
            tree := setNode path (some (.file "")) world.tree })
      else
        (none, world))

/- `[ -d path ]`. -/
def directoryExists (path : Path) (tree : Tree) : Bool :=
  tree path = some .dir

/- `[ -s path ]`: an entry that is not empty. -/
def hasContent (path : Path) (tree : Tree) : Bool :=
  match tree path with
  | none => false
  | some .dir => true
  | some (.file content) => content ≠ ""

def contentOf (path : Path) (tree : Tree) : String :=
  match tree path with
  | some (.file content) => content
  | _ => ""

/- `tr -d '[:space:]'`. -/
def strip (s : String) : String :=
  String.ofList (s.toList.filter (fun c => !c.isWhitespace))

/- The entries of a kind under a directory with a wrong mode. -/
def findWrong
    (directory : Path)
    (files : Bool)
    (world : World) : List Path :=
  world.wrongModes.filter (fun p =>
    decide (directory <+: p) &&
      (if files then
        isFile (world.tree p)
      else
        directoryExists p world.tree))

/- `bad=$(find ...)`, and the error when something is found. -/
def requireModes
    (directory : Path)
    (files : Bool) : Script Unit := do
  let bad ←
    Shell.Script.command (.find directory)
      (fun answer world =>
        if answer.ok ∧ directoryExists directory world.tree then
          (some (findWrong directory files world), world)
        else
          (none, world))
  match bad with
  | some [] => pure ()
  | _ => Shell.Script.exit 1

def nkeysDir (cluster : String) : Path :=
  [cluster, "nkeys"]

def auditSecretPermissions (cluster : String) :
    Script Unit := do
  requireModes (nkeysDir cluster) true
  requireModes (nkeysDir cluster) false

end GenerateNkeys

------------------------------------------------------------
-- Key Pairs
------------------------------------------------------------

namespace GenerateNkeys

/-
  `make_temp_dir`. Its callers run it in a command
  substitution, so the array that it extends is a copy.
-/
def makeTempDir : Script String := do
  let dir ←
    Shell.Script.command .mktempDir (fun answer world =>
      let dir := "/tmp/tmp." ++ answer.name
      if answer.ok ∧ dir ∉ world.tempDirs then
        (dir, { world with tempDirs := world.tempDirs ++ [dir] })
      else
        ("", world))
  let _ ← attempt .chmodTemp some
  Shell.Script.modifyVars (fun tempDirs => tempDirs ++ [dir])
  pure dir

def readNkeyLine (line : ℕ) (text : String) : Script String := do
  let ok ← attempt (.readLine line) some
  pure (if ok then strip text else "")

/- What `validate_nkey_pair` lets through. -/
def isNkeyPair (type : KeyType) (seed pubkey : String) : Bool :=
  seed ≠ "" && pubkey ≠ "" &&
    Go.hasPrefix seed type.seedPrefix &&
    Go.hasPrefix pubkey type.pubkeyPrefix

def validateNkeyPair
    (type : KeyType)
    (seed pubkey : String) : Script Unit :=
  if isNkeyPair type seed pubkey then
    pure ()
  else
    Shell.Script.exit 1

def generateNkeyPair (type : KeyType) :
    Script (String × String) := do
  -- The directory's name is empty when it was not made.
  let _ ← Shell.Script.subshell makeTempDir
  let printed ←
    Shell.Script.command (.nsc type) (fun answer world =>
      (if answer.ok then some (answer.printed type) else none,
        world))
  match printed with
  | none =>
      let _ ← attempt .cat some
      Shell.Script.exit 1
  | some lines =>
      let _ ← attempt .chmodTemp some
      let seed ← readNkeyLine 1 lines.1
      let pubkey ← readNkeyLine 2 lines.2
      validateNkeyPair type seed pubkey
      pure (seed, pubkey)

/-
  `read -r seed pubkey` from a command substitution: both are
  empty when the subshell has failed, and `read` does not see
  that it has.
-/
def readNkeyPair (type : KeyType) :
    Script (String × String) := do
  let pair ← Shell.Script.subshell (generateNkeyPair type)
  must .read some
  pure (pair.getD ("", ""))

end GenerateNkeys

------------------------------------------------------------
-- Secrets
------------------------------------------------------------

namespace GenerateNkeys

def secretDir (cluster secretName : String) : Path :=
  [cluster, "nkeys", secretName]

def secretFile (cluster secretName key : String) : Path :=
  [cluster, "nkeys", secretName, key]

def prepareOutputRoot (outputRoot : String) : Script Unit := do
  if outputRoot = "" ∨ outputRoot = "/" then
    Shell.Script.exit 1
  else
    must (.mkdir []) (mkdir [])
    must (.chmod []) (chmod [])

def prepareOutputDir (cluster : String) : Script Unit := do
  must (.mkdir [cluster]) (mkdir [cluster])
  must (.chmod [cluster]) (chmod [cluster])
  must (.mkdir (nkeysDir cluster)) (mkdir (nkeysDir cluster))
  must (.chmod (nkeysDir cluster)) (chmod (nkeysDir cluster))

def writeSecretValue
    (cluster secretName key value : String) : Script Unit := do
  let dir := secretDir cluster secretName
  let target := secretFile cluster secretName key
  must (.mkdir dir) (mkdir dir)
  must (.chmod dir) (chmod dir)
  let tmp ← mktemp dir key
  match tmp with
  | none => Shell.Script.exit 1
  | some tmp =>
      must (.write tmp) (write tmp value)
      must (.chmod tmp) (chmod tmp)
      must (.move tmp target) (move tmp target)

/- The key pairs of one cluster. -/
structure BaseKeys where
  authSigning : String × String
  xkey : String × String
  authxUser : String × String
  nackUser : String × String
  mtlsLeaf : String × String
  mtlsAuthxLeaf : String × String
  mtlsSysLeaf : String × String
  surveyor : String × String

def generateBaseKeys : Script BaseKeys := do
  let authSigning ← readNkeyPair .account
  let xkey ← readNkeyPair .curve
  let authxUser ← readNkeyPair .user
  let nackUser ← readNkeyPair .user
  let mtlsLeaf ← readNkeyPair .user
  let mtlsAuthxLeaf ← readNkeyPair .user
  let mtlsSysLeaf ← readNkeyPair .user
  let surveyor ← readNkeyPair .user
  pure
    { authSigning, xkey, authxUser, nackUser, mtlsLeaf,
      mtlsAuthxLeaf, mtlsSysLeaf, surveyor }

/- One value to be written under a secret. -/
structure SecretValue where
  secretName : String
  key : String
  value : String

def keyPairSecret
    (secretName : String)
    (pair : String × String) : List SecretValue :=
  [⟨secretName, "seed", pair.1⟩, ⟨secretName, "pubkey", pair.2⟩]

/- The values of a cluster's own secrets, in their order. -/
def baseSecretValues (keys : BaseKeys) : List SecretValue :=
  keyPairSecret "nats-auth-signing" keys.authSigning ++
    keyPairSecret "nats-xkey" keys.xkey ++
    keyPairSecret "nats-authx-user" keys.authxUser ++
    keyPairSecret "nats-nack-user" keys.nackUser ++
    [⟨"nats-nack-user", "nack-user.nk", keys.nackUser.1⟩] ++
    keyPairSecret "nats-mtls-leaf" keys.mtlsLeaf ++
    keyPairSecret "nats-mtls-authx-leaf" keys.mtlsAuthxLeaf ++
    keyPairSecret "nats-mtls-sys-leaf" keys.mtlsSysLeaf ++
    keyPairSecret "nats-surveyor" keys.surveyor ++
    [⟨"auth-callout-keys", "nkey-seed", keys.authxUser.1⟩,
      ⟨"auth-callout-keys", "issuer-seed", keys.authSigning.1⟩,
      ⟨"auth-callout-keys", "xkey-seed", keys.xkey.1⟩]

def generateBaseClusterSecrets (cluster : String) :
    Script Unit := do
  let keys ← generateBaseKeys
  Shell.Script.forEach (baseSecretValues keys) (fun entry =>
    writeSecretValue cluster entry.secretName entry.key
      entry.value)

def generateCluster (cluster : String) : Script Unit := do
  let started ←
    Shell.Script.inspect (fun world : World =>
      directoryExists (nkeysDir cluster) world.tree)
  if started then
    auditSecretPermissions cluster
  else
    prepareOutputDir cluster
    generateBaseClusterSecrets cluster
    auditSecretPermissions cluster

end GenerateNkeys

------------------------------------------------------------
-- Leaf Secrets
------------------------------------------------------------

namespace GenerateNkeys

def removeUnusedLeafKeys
    (cscSecretName cpcId cpcSecretName : String) :
    Script Unit := do
  let cscSeed := secretFile "csc" cscSecretName "seed"
  let cpcPubkey :=
    secretFile (cpcCluster cpcId) cpcSecretName "pubkey"
  must (.remove cscSeed) (remove cscSeed)
  must (.remove cpcPubkey) (remove cpcPubkey)

def generateNamedLeafSecretPair
    (cpcId cscSecretName cpcSecretName : String) :
    Script Unit := do
  let pair ← readNkeyPair .user
  writeSecretValue "csc" cscSecretName "pubkey" pair.2
  writeSecretValue (cpcCluster cpcId) cpcSecretName "seed"
    pair.1
  removeUnusedLeafKeys cscSecretName cpcId cpcSecretName

/-
  Whether the public key of the CPC's seed, which the tool
  `nk` derives, is the one that CSC has. A key that cannot be
  read counts as empty.
-/
def leafOutputsMatch
    (publicKey : String → String)
    (cpcId cscSecretName cpcSecretName : String) :
    Script Bool := do
  let cscPubkey ←
    Shell.Script.command .readPubkey (fun answer world =>
      (if answer.ok then
        strip (contentOf
          (secretFile "csc" cscSecretName "pubkey")
          world.tree)
      else "", world))
  let cpcPubkey ←
    Shell.Script.command .nk (fun answer world =>
      (if answer.ok then
        strip (publicKey (contentOf
          (secretFile (cpcCluster cpcId) cpcSecretName "seed")
          world.tree))
      else "", world))
  pure (cscPubkey = cpcPubkey)

/- What there is of a pair of leaf secrets. -/
inductive LeafOutputs where
  | complete
  | fresh
  | inconsistent
deriving DecidableEq, Repr

def leafOutputs
    (cpcId cscSecretName cpcSecretName : String)
    (tree : Tree) : LeafOutputs :=
  let cscLeafExists :=
    hasContent (secretFile "csc" cscSecretName "pubkey") tree
  let cpcLeafExists :=
    hasContent
      (secretFile (cpcCluster cpcId) cpcSecretName "seed") tree
  let started :=
    (tree (secretDir "csc" cscSecretName)).isSome ||
      (tree (secretDir (cpcCluster cpcId)
        cpcSecretName)).isSome
  if cscLeafExists && cpcLeafExists then
    .complete
  else if !cscLeafExists && !cpcLeafExists && !started then
    .fresh
  else
    .inconsistent

def generateLeafOutputsPair
    (publicKey : String → String)
    (cpcId cscSecretName cpcSecretName : String) :
    Script Unit := do
  let outputs ←
    Shell.Script.inspect (fun world : World =>
      leafOutputs cpcId cscSecretName cpcSecretName world.tree)
  match outputs with
  | .complete =>
      let same ←
        leafOutputsMatch publicKey cpcId cscSecretName
          cpcSecretName
      if same then
        removeUnusedLeafKeys cscSecretName cpcId cpcSecretName
      else
        Shell.Script.exit 1
  | .fresh =>
      generateNamedLeafSecretPair cpcId cscSecretName
        cpcSecretName
  | .inconsistent => Shell.Script.exit 1
  auditSecretPermissions "csc"
  auditSecretPermissions (cpcCluster cpcId)

def generateCpcLeafOutputs
    (publicKey : String → String)
    (cpcId : CpcId) : Script Unit :=
  generateLeafOutputsPair publicKey cpcId.val
    ("nats-leaf-cpc-" ++ cpcId.val) "nats-leaf-csc"

def generateExtraAccountLeafOutputs
    (publicKey : String → String)
    (account : AccountName)
    (cpcId : CpcId) : Script Unit :=
  let accountToken := extraAccountSecretToken account.val
  generateLeafOutputsPair publicKey cpcId.val
    ("nats-leaf-" ++ accountToken ++ "-cpc-" ++ cpcId.val)
    ("nats-leaf-" ++ accountToken ++ "-csc")

end GenerateNkeys

------------------------------------------------------------
-- The Run
------------------------------------------------------------

namespace GenerateNkeys

def checkPrerequisites : Script Unit := do
  let nsc ← attempt (.lookup "nsc") some
  let nk ← attempt (.lookup "nk") some
  if nsc && nk then
    pure ()
  else
    Shell.Script.exit 1

/- `cleanup`: the directories that the main shell knows of. -/
def cleanup (tempDirs : Vars) (world : World) : World :=
  { world with
    tempDirs :=
      world.tempDirs.filter (fun dir => dir ∉ tempDirs) }

/- One CPC: its own secrets, then its leaves. -/
def generateCpc
    (publicKey : String → String)
    (request : Request)
    (cpcId : CpcId) : Script Unit := do
  generateCluster (cpcCluster cpcId.val)
  generateCpcLeafOutputs publicKey cpcId
  Shell.Script.forEach request.extraAccounts (fun account =>
    generateExtraAccountLeafOutputs publicKey account cpcId)

/- What `main` does once the arguments are parsed. -/
def generate
    (publicKey : String → String)
    (outputRoot : String)
    (request : Request) : Script Unit := do
  prepareOutputRoot outputRoot
  generateCluster "csc"
  Shell.Script.forEach request.cpcIds
    (generateCpc publicKey request)
  must .list some

def run
    (publicKey : String → String)
    (outputRoot : String)
    (request : Request) : Script Unit := do
  checkPrerequisites
  Shell.Script.trapExit cleanup
    (generate publicKey outputRoot request)

/- A new shell, before a tree of secrets. -/
def start (tree : Tree) (wrongModes : List Path) : Machine where
  world :=
    { tree := tree
      wrongModes := wrongModes
      tempDirs := [] }
  vars := []
  trace := []

end GenerateNkeys
