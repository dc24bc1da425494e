import DsxExchange.GenerateNkeys.Steps

/-
  What every tree holds that runs have left: which entries
  there can be, and what the files begin with.

  Key definitions include:
    * `GenerateNkeys.FileOk`, `GenerateNkeys.Sound`
    * `GenerateNkeys.UnderBase`, `GenerateNkeys.UnderLeaf`
    * `GenerateNkeys.BaseNew`, `GenerateNkeys.LeafNew`,
      `GenerateNkeys.RunNew`

  Key theorems include:
    * `GenerateNkeys.Sound.grows`
    * `GenerateNkeys.eq_of_underLeaf`
    * `GenerateNkeys.nodeOk_of_runNew`
    * `GenerateNkeys.not_runNew_underLeaf`,
      `GenerateNkeys.not_runNew_underBase`
-/

------------------------------------------------------------
-- Sound Trees
------------------------------------------------------------

namespace GenerateNkeys

/- A content is empty or begins as it must. -/
def Begins (content begin : String) : Prop :=
  content ≠ "" → Go.hasPrefix content begin = true

structure FileOk (p : Path) (content : String) : Prop where
  depth : p.length = 4
  base :
    ∀ cluster, ∀ file ∈ baseFiles,
      p = file.path cluster → Begins content file.keyPrefix
  cscPubkey :
    ∀ leaf : Leaf,
      p = leaf.cscPubkey →
        Begins content KeyType.user.pubkeyPrefix
  cpcSeed :
    ∀ leaf : Leaf,
      p = leaf.cpcSeed →
        Begins content KeyType.user.seedPrefix
  unused :
    ∀ leaf : Leaf, p ≠ leaf.cscSeed ∧ p ≠ leaf.cpcPubkey

def NodeOk (p : Path) : Node → Prop
| .dir => p.length ≤ 3
| .file content => FileOk p content

structure Sound (tree : Tree) : Prop where
  rooted : Rooted tree
  nodes : ∀ p node, tree p = some node → NodeOk p node

theorem sound_empty : Sound (fun _ => none) := by
  constructor
  · intro path name hEntry
    exact absurd rfl hEntry
  · intro p node hNode
    simp at hNode

/- A sound tree grows into a sound one by sound entries. -/
theorem Sound.grows
    {New : Path → Node → Prop}
    {before after : Tree}
    (hSound : Sound before)
    (hGrows : Grows New before after)
    (hNew : ∀ p node, New p node → NodeOk p node) :
    Sound after := by
  constructor
  · exact hGrows.rooted hSound.rooted
  · intro p node hNode
    rcases hGrows.adds p with hSame | ⟨_, other, hOther, hAt⟩
    · rw [hSame] at hNode
      exact hSound.nodes p node hNode
    · rw [hOther] at hNode
      rw [← Option.some.inj hNode]
      exact hNew p other hAt

namespace Sound

variable {tree : Tree}

/- Above three names there are no files. -/
theorem dir_of_length
    (hSound : Sound tree)
    {p : Path}
    (hLength : p.length ≤ 3) :
    tree p = none ∨ tree p = some .dir := by
  cases hNode : tree p with
  | none => exact Or.inl rfl
  | some node =>
      cases node with
      | dir => exact Or.inr rfl
      | file content =>
          have hOk := hSound.nodes p _ hNode
          have hDepth := hOk.depth
          omega

/- At four names there are no directories. -/
theorem file_of_length
    (hSound : Sound tree)
    {p : Path}
    (hLength : p.length = 4)
    {node : Node}
    (hNode : tree p = some node) :
    ∃ content, node = .file content ∧ FileOk p content := by
  have hOk := hSound.nodes p node hNode
  cases node with
  | dir =>
      have hDepth : p.length ≤ 3 := hOk
      omega
  | file content => exact ⟨content, rfl, hOk⟩

theorem unused_none
    (hSound : Sound tree)
    (leaf : Leaf) :
    tree leaf.cscSeed = none ∧ tree leaf.cpcPubkey = none := by
  constructor
  · cases hNode : tree leaf.cscSeed with
    | none => rfl
    | some node =>
        rcases hSound.file_of_length rfl hNode with
          ⟨content, _, hOk⟩
        exact absurd rfl (hOk.unused leaf).1
  · cases hNode : tree leaf.cpcPubkey with
    | none => rfl
    | some node =>
        rcases hSound.file_of_length rfl hNode with
          ⟨content, _, hOk⟩
        exact absurd rfl (hOk.unused leaf).2

/- Nothing is below a secret's directory that is not there. -/
theorem below_none
    (hSound : Sound tree)
    {cluster secretName : String}
    (hNone : tree (secretDir cluster secretName) = none)
    (key : String) :
    tree (secretFile cluster secretName key) = none := by
  by_contra hEntry
  have hDir :=
    hSound.rooted (secretDir cluster secretName) key hEntry
  rw [hNone] at hDir
  simp at hDir

theorem secretDir_none
    (hSound : Sound tree)
    {cluster : String}
    (hNone : tree (nkeysDir cluster) = none)
    (secretName : String) :
    tree (secretDir cluster secretName) = none := by
  by_contra hEntry
  have hDir :=
    hSound.rooted (nkeysDir cluster) secretName hEntry
  rw [hNone] at hDir
  simp at hDir

/- A cluster that has been started has its directories. -/
theorem ready
    (hSound : Sound tree)
    {cluster : String}
    (hStarted : tree (nkeysDir cluster) ≠ none) :
    Ready cluster tree := by
  have hDir : tree (nkeysDir cluster) = some .dir := by
    rcases hSound.dir_of_length
        (p := nkeysDir cluster) (by simp [nkeysDir]) with
      hNone | hDir
    · exact absurd hNone hStarted
    · exact hDir
  have hCluster : tree [cluster] = some .dir :=
    hSound.rooted [cluster] "nkeys" hStarted
  have hRoot : tree [] = some .dir := by
    apply hSound.rooted [] cluster
    rw [List.nil_append, hCluster]
    simp
  intro p hPrefix
  have hSplit : nkeysDir cluster = ([] ++ [cluster]) ++ ["nkeys"] :=
    rfl
  rw [hSplit] at hPrefix
  rcases List.prefix_concat_iff.mp hPrefix with hAt | hAbove
  · rw [hAt]
    exact hDir
  · rcases List.prefix_concat_iff.mp hAbove with hAt | hTop
    · rw [hAt]
      exact hCluster
    · rw [List.prefix_nil.mp hTop]
      exact hRoot

end Sound

end GenerateNkeys

------------------------------------------------------------
-- Regions Of The Tree
------------------------------------------------------------

namespace GenerateNkeys

theorem secretFile_inj
    {cluster secretName key : String}
    {cluster' secretName' key' : String}
    (hEq :
      secretFile cluster secretName key =
        secretFile cluster' secretName' key') :
    cluster = cluster' ∧ secretName = secretName' ∧
      key = key' := by
  simp only [secretFile, List.cons.injEq] at hEq
  exact ⟨hEq.1, hEq.2.2.1, hEq.2.2.2.1⟩

/- A path is under one secret's directory only. -/
theorem secretDir_eq_of_under
    {cluster secretName : String}
    {cluster' secretName' : String}
    {p : Path}
    (hFirst : secretDir cluster secretName <+: p)
    (hSecond : secretDir cluster' secretName' <+: p) :
    cluster = cluster' ∧ secretName = secretName' := by
  have hPrefix :=
    List.prefix_of_prefix_length_le hFirst hSecond
      (by simp [secretDir])
  have hEq := hPrefix.eq_of_length (by simp [secretDir])
  simp only [secretDir, List.cons.injEq] at hEq
  exact ⟨hEq.1, hEq.2.2.1⟩

def UnderBase (cluster : String) (p : Path) : Prop :=
  ∃ file ∈ baseFiles,
    secretDir cluster file.secretName <+: p

def UnderLeaf (leaf : Leaf) (p : Path) : Prop :=
  leaf.cscDir <+: p ∨ leaf.cpcDir <+: p

theorem leaf_cluster_ne_csc (leaf : Leaf) :
    leaf.cluster ≠ "csc" :=
  cpcCluster_ne_csc leaf.cpcId

theorem cluster_eq_of_underBase
    {cluster cluster' : String}
    {p : Path}
    (hFirst : UnderBase cluster p)
    (hSecond : UnderBase cluster' p) :
    cluster = cluster' := by
  rcases hFirst with ⟨file, _, hFile⟩
  rcases hSecond with ⟨other, _, hOther⟩
  exact (secretDir_eq_of_under hFile hOther).1

/- The secrets of two leaves lie apart. -/
theorem eq_of_underLeaf
    {leaf other : Leaf}
    {p : Path}
    (hLeaf : UnderLeaf leaf p)
    (hOther : UnderLeaf other p) :
    leaf = other := by
  rcases hLeaf with hLeaf | hLeaf
  · rcases hOther with hOther | hOther
    · exact cscSecret_injective
        (secretDir_eq_of_under hLeaf hOther).2
    · have hCluster := (secretDir_eq_of_under hLeaf hOther).1
      exact absurd hCluster.symm (leaf_cluster_ne_csc other)
  · rcases hOther with hOther | hOther
    · have hCluster := (secretDir_eq_of_under hLeaf hOther).1
      exact absurd hCluster (leaf_cluster_ne_csc leaf)
    · have hBoth := secretDir_eq_of_under hLeaf hOther
      exact Leaf.ext_of_eq (cpcCluster_injective hBoth.1)
        (cpcSecret_injective hBoth.2)

theorem not_underLeaf_of_underBase
    {cluster : String}
    {leaf : Leaf}
    {p : Path}
    (hBase : UnderBase cluster p) :
    ¬ UnderLeaf leaf p := by
  intro hLeaf
  rcases hBase with ⟨file, hMem, hFile⟩
  rcases hLeaf with hLeaf | hLeaf
  · exact cscSecret_ne_base leaf hMem
      (secretDir_eq_of_under hLeaf hFile).2
  · exact cpcSecret_ne_base leaf hMem
      (secretDir_eq_of_under hLeaf hFile).2

theorem underBase_path
    {file : BaseFile}
    (hMem : file ∈ baseFiles)
    (cluster : String) :
    UnderBase cluster (file.path cluster) :=
  ⟨file, hMem, ⟨[file.key], rfl⟩⟩

theorem underLeaf_cscPubkey (leaf : Leaf) :
    UnderLeaf leaf leaf.cscPubkey :=
  Or.inl ⟨["pubkey"], rfl⟩

theorem underLeaf_cpcSeed (leaf : Leaf) :
    UnderLeaf leaf leaf.cpcSeed :=
  Or.inr ⟨["seed"], rfl⟩

/- A region lies below the directory of its cluster. -/
theorem not_underBase_of_above
    {cluster cluster' : String}
    {p : Path}
    (hPrefix : p <+: nkeysDir cluster') :
    ¬ UnderBase cluster p := by
  intro hBase
  rcases hBase with ⟨file, _, hFile⟩
  have hLow := hFile.length_le
  have hHigh := hPrefix.length_le
  simp only [secretDir, nkeysDir, List.length_cons,
    List.length_nil] at hLow hHigh
  omega

theorem not_underLeaf_of_above
    {cluster : String}
    {leaf : Leaf}
    {p : Path}
    (hPrefix : p <+: nkeysDir cluster) :
    ¬ UnderLeaf leaf p := by
  intro hLeaf
  have hHigh := hPrefix.length_le
  rcases hLeaf with hLeaf | hLeaf
  · have hLow := hLeaf.length_le
    simp only [Leaf.cscDir, secretDir, nkeysDir,
      List.length_cons, List.length_nil] at hLow hHigh
    omega
  · have hLow := hLeaf.length_le
    simp only [Leaf.cpcDir, secretDir, nkeysDir,
      List.length_cons, List.length_nil] at hLow hHigh
    omega

end GenerateNkeys

------------------------------------------------------------
-- What Is New
------------------------------------------------------------

namespace GenerateNkeys

open Shell (Environment)

variable {publicKey : String → String}
variable {env : Environment Answer}

/- What a cluster's own secrets add. -/
def BaseNew (cluster : String) (p : Path) (node : Node) : Prop :=
  DirsOf (nkeysDir cluster) p node ∨
    ∃ file ∈ baseFiles, ∃ value,
      Begins value file.keyPrefix ∧
        SecretNew cluster file.secretName file.key value p node

/- What the secrets of a leaf add, from one pair. -/
def LeafNew
    (leaf : Leaf)
    (pair : String × String)
    (p : Path)
    (node : Node) : Prop :=
  SecretNew "csc" leaf.cscSecret "pubkey" pair.2 p node ∨
    SecretNew leaf.cluster leaf.cpcSecret "seed" pair.1 p node

/- Nothing has been written for the leaf. -/
def Fresh (leaf : Leaf) (tree : Tree) : Prop :=
  tree leaf.cscDir = none ∧ tree leaf.cpcDir = none

/- What a run adds to the tree that it starts with. -/
def RunNew
    (publicKey : String → String)
    (env : Environment Answer)
    (tree : Tree)
    (p : Path)
    (node : Node) : Prop :=
  DirsOf [] p node ∨
    (∃ cluster,
      tree (nkeysDir cluster) = none ∧
        BaseNew cluster p node) ∨
    ∃ leaf pair,
      Fresh leaf tree ∧
        PairRead publicKey env .user pair ∧
        LeafNew leaf pair p node

theorem under_of_secretNew
    {cluster secretName key value : String}
    {p : Path}
    {node : Node}
    (hNew : SecretNew cluster secretName key value p node) :
    secretDir cluster secretName <+: p := by
  rcases hNew with hDir | hFile | ⟨name, content, hTemp⟩
  · rw [hDir.1]
  · rw [hFile.1]
    exact ⟨[key], rfl⟩
  · rw [hTemp.1]
    exact ⟨["." ++ name], rfl⟩

theorem region_of_baseNew
    {cluster : String}
    {p : Path}
    {node : Node}
    (hNew : BaseNew cluster p node) :
    p <+: nkeysDir cluster ∨ UnderBase cluster p := by
  rcases hNew with hDir | ⟨file, hMem, value, _, hSecret⟩
  · exact Or.inl hDir.1
  · exact Or.inr ⟨file, hMem, under_of_secretNew hSecret⟩

theorem underLeaf_of_leafNew
    {leaf : Leaf}
    {pair : String × String}
    {p : Path}
    {node : Node}
    (hNew : LeafNew leaf pair p node) :
    UnderLeaf leaf p := by
  rcases hNew with hCsc | hCpc
  · exact Or.inl (under_of_secretNew hCsc)
  · exact Or.inr (under_of_secretNew hCpc)

theorem not_baseNew_underLeaf
    {cluster : String}
    {leaf : Leaf}
    {p : Path}
    (hLeaf : UnderLeaf leaf p)
    (node : Node) :
    ¬ BaseNew cluster p node := by
  intro hNew
  rcases region_of_baseNew hNew with hPrefix | hBase
  · exact not_underLeaf_of_above hPrefix hLeaf
  · exact not_underLeaf_of_underBase hBase hLeaf

/- A leaf that has been started stays as it is. -/
theorem not_runNew_underLeaf
    {tree : Tree}
    {leaf : Leaf}
    {p : Path}
    (hStarted : ¬ Fresh leaf tree)
    (hLeaf : UnderLeaf leaf p)
    (node : Node) :
    ¬ RunNew publicKey env tree p node := by
  intro hNew
  rcases hNew with hRoot | ⟨cluster, _, hBase⟩ | hOther
  · have hPrefix : p <+: nkeysDir "csc" :=
      hRoot.1.trans (List.nil_prefix)
    exact not_underLeaf_of_above hPrefix hLeaf
  · exact not_baseNew_underLeaf hLeaf node hBase
  · rcases hOther with ⟨other, pair, hFresh, _, hAt⟩
    have hEq := eq_of_underLeaf hLeaf (underLeaf_of_leafNew hAt)
    rw [← hEq] at hFresh
    exact hStarted hFresh

/- So do the secrets of a cluster that has been started. -/
theorem not_runNew_underBase
    {tree : Tree}
    {cluster : String}
    {p : Path}
    (hStarted : tree (nkeysDir cluster) ≠ none)
    (hBase : UnderBase cluster p)
    (node : Node) :
    ¬ RunNew publicKey env tree p node := by
  intro hNew
  rcases hNew with hRoot | ⟨other, hNone, hAt⟩ | hLeaf
  · have hPrefix : p <+: nkeysDir "csc" :=
      hRoot.1.trans (List.nil_prefix)
    exact not_underBase_of_above hPrefix hBase
  · rcases region_of_baseNew hAt with hPrefix | hUnder
    · exact not_underBase_of_above hPrefix hBase
    · rw [← cluster_eq_of_underBase hBase hUnder] at hNone
      exact hStarted hNone
  · rcases hLeaf with ⟨leaf, pair, _, _, hAt⟩
    exact not_underLeaf_of_underBase hBase
      (underLeaf_of_leafNew hAt)

end GenerateNkeys

------------------------------------------------------------
-- What Is New Is Sound
------------------------------------------------------------

namespace GenerateNkeys

open Shell (Environment)

variable {publicKey : String → String}
variable {env : Environment Answer}

theorem dot_ne
    {key : String}
    (hKey : key.toList.head? ≠ some '.')
    (name : String) :
    "." ++ name ≠ key := by
  intro hEq
  apply hKey
  rw [← hEq]
  simp

/- No key of a cluster's own secrets begins with a dot. -/
theorem dot_ne_baseKey
    {file : BaseFile}
    (hMem : file ∈ baseFiles)
    (name : String) :
    "." ++ name ≠ file.key := by
  have hAll :
      baseFiles.all (fun file =>
        file.key.toList.head? ≠ some '.') = true := by
    decide +kernel
  apply dot_ne
  simpa using List.all_eq_true.mp hAll file hMem

theorem dot_ne_seed (name : String) : "." ++ name ≠ "seed" :=
  dot_ne (by decide) name

theorem dot_ne_pubkey (name : String) :
    "." ++ name ≠ "pubkey" :=
  dot_ne (by decide) name

theorem not_hidden_of_dot_ne
    {cluster secretName key : String}
    (hKey : ∀ name, "." ++ name ≠ key) :
    ¬ Hidden (secretFile cluster secretName key) := by
  intro hHidden
  rcases hHidden with ⟨cluster', secretName', name, hEq⟩
  exact hKey name (secretFile_inj hEq).2.2.symm

theorem fileOk_temp
    (cluster secretName name content : String) :
    FileOk (secretFile cluster secretName ("." ++ name))
      content := by
  constructor
  · rfl
  · intro other file hMem hEq
    exact absurd (secretFile_inj hEq).2.2
      (dot_ne_baseKey hMem name)
  · intro leaf hEq
    exact absurd (secretFile_inj hEq).2.2 (dot_ne_pubkey name)
  · intro leaf hEq
    exact absurd (secretFile_inj hEq).2.2 (dot_ne_seed name)
  · intro leaf
    constructor
    · intro hEq
      exact dot_ne_seed name (secretFile_inj hEq).2.2
    · intro hEq
      exact dot_ne_pubkey name (secretFile_inj hEq).2.2

theorem nodeOk_of_secretNew
    {cluster secretName key value : String}
    {p : Path}
    {node : Node}
    (hOk : FileOk (secretFile cluster secretName key) value)
    (hNew : SecretNew cluster secretName key value p node) :
    NodeOk p node := by
  rcases hNew with hDir | hFile | ⟨name, content, hTemp⟩
  · rw [hDir.1, hDir.2]
    simp [NodeOk, secretDir]
  · rw [hFile.1, hFile.2]
    exact hOk
  · rw [hTemp.1, hTemp.2]
    exact fileOk_temp cluster secretName name content

theorem fileOk_base
    {file : BaseFile}
    (hMem : file ∈ baseFiles)
    (cluster : String)
    {value : String}
    (hBegins : Begins value file.keyPrefix) :
    FileOk (file.path cluster) value := by
  constructor
  · rfl
  · intro other file' hMem' hEq
    rw [← baseFile_eq_of_path hMem hMem' hEq]
    exact hBegins
  · intro leaf hEq
    exact absurd (secretFile_inj hEq).2.1.symm
      (cscSecret_ne_base leaf hMem)
  · intro leaf hEq
    exact absurd (secretFile_inj hEq).2.1.symm
      (cpcSecret_ne_base leaf hMem)
  · intro leaf
    constructor
    · intro hEq
      exact cscSecret_ne_base leaf hMem
        (secretFile_inj hEq).2.1.symm
    · intro hEq
      exact cpcSecret_ne_base leaf hMem
        (secretFile_inj hEq).2.1.symm

theorem fileOk_cscPubkey
    (leaf : Leaf)
    {value : String}
    (hBegins : Begins value KeyType.user.pubkeyPrefix) :
    FileOk leaf.cscPubkey value := by
  constructor
  · rfl
  · intro cluster file hMem hEq
    exact absurd (secretFile_inj hEq).2.1
      (cscSecret_ne_base leaf hMem)
  · intro _ _
    exact hBegins
  · intro other hEq
    exact absurd (secretFile_inj hEq).2.2 (by decide)
  · intro other
    constructor
    · intro hEq
      exact absurd (secretFile_inj hEq).2.2 (by decide)
    · intro hEq
      exact leaf_cluster_ne_csc other
        (secretFile_inj hEq).1.symm

theorem fileOk_cpcSeed
    (leaf : Leaf)
    {value : String}
    (hBegins : Begins value KeyType.user.seedPrefix) :
    FileOk leaf.cpcSeed value := by
  constructor
  · rfl
  · intro cluster file hMem hEq
    exact absurd (secretFile_inj hEq).2.1
      (cpcSecret_ne_base leaf hMem)
  · intro other hEq
    exact absurd (secretFile_inj hEq).2.2 (by decide)
  · intro _ _
    exact hBegins
  · intro other
    constructor
    · intro hEq
      exact leaf_cluster_ne_csc leaf (secretFile_inj hEq).1
    · intro hEq
      exact absurd (secretFile_inj hEq).2.2 (by decide)

/- Both halves of a pair that has been read begin well. -/
theorem begins_of_pairRead
    {type : KeyType}
    {pair : String × String}
    (hPair : PairRead publicKey env type pair)
    (half : Half) :
    Begins (half.of pair) (type.keyPrefix half) := by
  intro hSome
  rcases hPair with hOk | hEmpty
  · have hValid := hOk.1
    simp only [isNkeyPair, Bool.and_eq_true] at hValid
    cases half with
    | seed => exact hValid.1.2
    | pubkey => exact hValid.2
  · rw [hEmpty] at hSome
    cases half with
    | seed => exact absurd rfl hSome
    | pubkey => exact absurd rfl hSome

theorem nodeOk_of_baseNew
    {cluster : String}
    {p : Path}
    {node : Node}
    (hNew : BaseNew cluster p node) :
    NodeOk p node := by
  rcases hNew with hDir | ⟨file, hMem, value, hBegins, hSecret⟩
  · rw [hDir.2]
    have hLength := hDir.1.length_le
    simp only [nkeysDir, List.length_cons, List.length_nil]
      at hLength
    unfold NodeOk
    omega
  · exact nodeOk_of_secretNew
      (fileOk_base hMem cluster hBegins) hSecret

theorem nodeOk_of_leafNew
    {leaf : Leaf}
    {pair : String × String}
    {p : Path}
    {node : Node}
    (hPair : PairRead publicKey env .user pair)
    (hNew : LeafNew leaf pair p node) :
    NodeOk p node := by
  rcases hNew with hCsc | hCpc
  · exact nodeOk_of_secretNew
      (fileOk_cscPubkey leaf (begins_of_pairRead hPair .pubkey))
      hCsc
  · exact nodeOk_of_secretNew
      (fileOk_cpcSeed leaf (begins_of_pairRead hPair .seed))
      hCpc

theorem nodeOk_of_runNew
    {tree : Tree}
    (p : Path)
    (node : Node)
    (hNew : RunNew publicKey env tree p node) :
    NodeOk p node := by
  rcases hNew with hRoot | ⟨cluster, _, hBase⟩ | hLeaf
  · rw [hRoot.2, List.prefix_nil.mp hRoot.1]
    simp [NodeOk]
  · exact nodeOk_of_baseNew hBase
  · rcases hLeaf with ⟨leaf, pair, _, hPair, hAt⟩
    exact nodeOk_of_leafNew hPair hAt

end GenerateNkeys
