import DsxExchange.GenerateNkeys.Script

/-
  The files that the key generator is responsible for.

  Key definitions include:
    * `GenerateNkeys.BaseFile`, `GenerateNkeys.baseFiles`
    * `GenerateNkeys.Leaf.cscPubkey`,
      `GenerateNkeys.Leaf.cpcSeed`
    * `GenerateNkeys.Usable`, `GenerateNkeys.Complete`
    * `GenerateNkeys.generateLeaf`

  Key theorems include:
    * `GenerateNkeys.baseSecretValues_eq`
    * `GenerateNkeys.generateCpc_eq`
    * `GenerateNkeys.cscSecret_ne_base`,
      `GenerateNkeys.cpcSecret_ne_base`
-/

------------------------------------------------------------
-- A Cluster's Own Files
------------------------------------------------------------

namespace GenerateNkeys

/- The fields of `BaseKeys`. -/
inductive BaseKey where
  | authSigning
  | xkey
  | authxUser
  | nackUser
  | mtlsLeaf
  | mtlsAuthxLeaf
  | mtlsSysLeaf
  | surveyor
deriving DecidableEq, Repr

def BaseKey.type : BaseKey → KeyType
| .authSigning => .account
| .xkey => .curve
| _ => .user

def BaseKeys.get (keys : BaseKeys) : BaseKey → String × String
| .authSigning => keys.authSigning
| .xkey => keys.xkey
| .authxUser => keys.authxUser
| .nackUser => keys.nackUser
| .mtlsLeaf => keys.mtlsLeaf
| .mtlsAuthxLeaf => keys.mtlsAuthxLeaf
| .mtlsSysLeaf => keys.mtlsSysLeaf
| .surveyor => keys.surveyor

inductive Half where
  | seed
  | pubkey
deriving DecidableEq, Repr

def Half.of : Half → String × String → String
| .seed, pair => pair.1
| .pubkey, pair => pair.2

/- What `validate_nkey_pair` requires a half to begin with. -/
def KeyType.keyPrefix (type : KeyType) : Half → String
| .seed => type.seedPrefix
| .pubkey => type.pubkeyPrefix

/- A file of a cluster's own secrets, and what it is for. -/
structure BaseFile where
  secretName : String
  key : String
  baseKey : BaseKey
  half : Half
deriving DecidableEq, Repr

def BaseFile.path (cluster : String) (file : BaseFile) : Path :=
  secretFile cluster file.secretName file.key

def BaseFile.keyPrefix (file : BaseFile) : String :=
  file.baseKey.type.keyPrefix file.half

def BaseFile.value
    (file : BaseFile)
    (keys : BaseKeys) : String :=
  file.half.of (keys.get file.baseKey)

def keyPairFiles
    (secretName : String)
    (baseKey : BaseKey) : List BaseFile :=
  [⟨secretName, "seed", baseKey, .seed⟩,
    ⟨secretName, "pubkey", baseKey, .pubkey⟩]

def baseFiles : List BaseFile :=
  keyPairFiles "nats-auth-signing" .authSigning ++
    keyPairFiles "nats-xkey" .xkey ++
    keyPairFiles "nats-authx-user" .authxUser ++
    keyPairFiles "nats-nack-user" .nackUser ++
    [⟨"nats-nack-user", "nack-user.nk", .nackUser, .seed⟩] ++
    keyPairFiles "nats-mtls-leaf" .mtlsLeaf ++
    keyPairFiles "nats-mtls-authx-leaf" .mtlsAuthxLeaf ++
    keyPairFiles "nats-mtls-sys-leaf" .mtlsSysLeaf ++
    keyPairFiles "nats-surveyor" .surveyor ++
    [⟨"auth-callout-keys", "nkey-seed", .authxUser, .seed⟩,
      ⟨"auth-callout-keys", "issuer-seed",
        .authSigning, .seed⟩,
      ⟨"auth-callout-keys", "xkey-seed", .xkey, .seed⟩]

theorem baseSecretValues_eq (keys : BaseKeys) :
    baseSecretValues keys =
      baseFiles.map (fun file =>
        ⟨file.secretName, file.key, file.value keys⟩) :=
  rfl

/- Every key pair ends up in a seed file and a public one. -/
theorem exists_baseFile (baseKey : BaseKey) (half : Half) :
    ∃ file ∈ baseFiles,
      file.baseKey = baseKey ∧ file.half = half := by
  cases baseKey <;> cases half <;> decide

theorem nodup_baseFiles : baseFiles.Nodup := by
  decide +kernel

/- A file is told by its secret and its key. -/
theorem baseFile_eq_of_path
    {first second : BaseFile}
    (hFirst : first ∈ baseFiles)
    (hSecond : second ∈ baseFiles)
    {cluster cluster' : String}
    (hPath : first.path cluster = second.path cluster') :
    first = second := by
  have hParts :
      first.secretName = second.secretName ∧
        first.key = second.key := by
    simp only [BaseFile.path, secretFile, List.cons.injEq]
      at hPath
    exact ⟨hPath.2.2.1, hPath.2.2.2.1⟩
  have hNodup :
      (baseFiles.map
        (fun file => (file.secretName, file.key))).Nodup := by
    decide +kernel
  apply List.inj_on_of_nodup_map hNodup hFirst hSecond
  rw [hParts.1, hParts.2]

end GenerateNkeys

------------------------------------------------------------
-- The Files Of Leaves
------------------------------------------------------------

namespace GenerateNkeys

namespace Leaf

variable (leaf : Leaf)

def cscDir : Path :=
  secretDir "csc" leaf.cscSecret

def cpcDir : Path :=
  secretDir leaf.cluster leaf.cpcSecret

/- The two files of a pair. -/
def cscPubkey : Path :=
  secretFile "csc" leaf.cscSecret "pubkey"

def cpcSeed : Path :=
  secretFile leaf.cluster leaf.cpcSecret "seed"

/- The files that `remove_unused_leaf_keys` removes. -/
def cscSeed : Path :=
  secretFile "csc" leaf.cscSecret "seed"

def cpcPubkey : Path :=
  secretFile leaf.cluster leaf.cpcSecret "pubkey"

def outputs (tree : Tree) : LeafOutputs :=
  leafOutputs leaf.cpcId leaf.cscSecret leaf.cpcSecret tree

end Leaf

def generateLeaf
    (publicKey : String → String)
    (leaf : Leaf) : Script Unit :=
  generateLeafOutputsPair publicKey leaf.cpcId leaf.cscSecret
    leaf.cpcSecret

/- One CPC is its cluster and then its leaves. -/
theorem generateCpc_eq
    (publicKey : String → String)
    (request : Request)
    (cpcId : CpcId) :
    generateCpc publicKey request cpcId = (do
      generateCluster (cpcCluster cpcId.val)
      Shell.Script.forEach (request.leavesOf cpcId)
        (generateLeaf publicKey)) := by
  unfold generateCpc Request.leavesOf
  rw [Shell.Script.forEach, Shell.forEach_map]
  rfl

theorem cluster_of_mem_leavesOf
    {request : Request}
    {cpcId : CpcId}
    {leaf : Leaf}
    (hMem : leaf ∈ request.leavesOf cpcId) :
    leaf.cluster = cpcCluster cpcId.val := by
  rcases List.mem_cons.mp hMem with hBuiltIn | hAccount
  · rw [hBuiltIn]
    rfl
  · rcases List.mem_map.mp hAccount with ⟨account, _, hEq⟩
    rw [← hEq]
    rfl

/- No secret of a cluster's own is named like a leaf's. -/
theorem ne_base_of_split
    {secretName : String}
    {rest : List String}
    (hParts :
      Go.split secretName '-' = "nats" :: "leaf" :: rest)
    {file : BaseFile}
    (hMem : file ∈ baseFiles) :
    secretName ≠ file.secretName := by
  intro hEq
  have hOther :
      baseFiles.all (fun file =>
        (Go.split file.secretName '-').take 2 ≠
          ["nats", "leaf"]) = true := by
    decide +kernel
  have hFile := List.all_eq_true.mp hOther file hMem
  rw [← hEq, hParts] at hFile
  simp at hFile

theorem cscSecret_ne_base
    (leaf : Leaf)
    {file : BaseFile}
    (hMem : file ∈ baseFiles) :
    leaf.cscSecret ≠ file.secretName :=
  ne_base_of_split (split_cscSecret leaf) hMem

theorem cpcSecret_ne_base
    (leaf : Leaf)
    {file : BaseFile}
    (hMem : file ∈ baseFiles) :
    leaf.cpcSecret ≠ file.secretName :=
  ne_base_of_split (split_cpcSecret leaf) hMem

end GenerateNkeys

------------------------------------------------------------
-- The Files Of A Request
------------------------------------------------------------

namespace GenerateNkeys

/- A secret that is there and begins as it must. -/
def Usable (tree : Tree) (path : Path) (begin : String) : Prop :=
  ∃ content,
    tree path = some (.file content) ∧ content ≠ "" ∧
      Go.hasPrefix content begin = true

/- A cluster has all of its own secrets. -/
def BaseComplete (cluster : String) (tree : Tree) : Prop :=
  ∀ file ∈ baseFiles,
    Usable tree (file.path cluster) file.keyPrefix

/- Both sides of a leaf have their half of the pair. -/
def LeafComplete (leaf : Leaf) (tree : Tree) : Prop :=
  Usable tree leaf.cscPubkey KeyType.user.pubkeyPrefix ∧
    Usable tree leaf.cpcSeed KeyType.user.seedPrefix

/- The files that a request makes the script responsible for. -/
def Complete (request : Request) (tree : Tree) : Prop :=
  (∀ cluster ∈ request.clusters, BaseComplete cluster tree) ∧
    ∀ leaf ∈ request.leaves, LeafComplete leaf tree

end GenerateNkeys
