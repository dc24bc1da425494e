import DsxExchange.GenerateNkeys.Clusters

/-
  The pair of one leaf: it is generated once, on both sides,
  and neither side is generated again.

  Key definitions include:
    * `GenerateNkeys.Matched`, `GenerateNkeys.Safely`
    * `GenerateNkeys.LeafEmpty`

  Key theorems include:
    * `GenerateNkeys.matched_of_leafNew`
    * `GenerateNkeys.grown_generateLeaf`
-/

------------------------------------------------------------
-- What There Is Of A Pair
------------------------------------------------------------

namespace GenerateNkeys

variable {tree : Tree}
variable {leaf : Leaf}

theorem hasContent_iff
    (hSound : Sound tree)
    {p : Path}
    (hLength : p.length = 4) :
    hasContent p tree = true ↔
      ∃ content,
        tree p = some (.file content) ∧ content ≠ "" := by
  unfold hasContent
  cases hNode : tree p with
  | none => simp
  | some node =>
      rcases hSound.file_of_length hLength hNode with
        ⟨content, hFile, _⟩
      rw [hFile]
      simp

theorem outputs_fresh
    (hOutputs : leaf.outputs tree = .fresh) :
    Fresh leaf tree := by
  simp only [Leaf.outputs, leafOutputs] at hOutputs
  split at hOutputs
  · simp at hOutputs
  · split at hOutputs
    · rename_i hNothing
      simp only [Bool.and_eq_true, Bool.not_eq_true',
        Bool.or_eq_false_iff, Option.isSome_eq_false_iff,
        Option.isNone_iff_eq_none] at hNothing
      exact hNothing.2
    · simp at hOutputs

theorem hasContent_of_complete
    (hOutputs : leaf.outputs tree = .complete) :
    hasContent leaf.cscPubkey tree = true ∧
      hasContent leaf.cpcSeed tree = true := by
  simp only [Leaf.outputs, leafOutputs] at hOutputs
  split at hOutputs
  · rename_i hBoth
    exact Bool.and_eq_true_iff.mp hBoth
  · split at hOutputs
    · simp at hOutputs
    · simp at hOutputs

theorem outputs_of_hasContent
    (hCsc : hasContent leaf.cscPubkey tree = true)
    (hCpc : hasContent leaf.cpcSeed tree = true) :
    leaf.outputs tree = .complete := by
  have hBoth :
      (hasContent (secretFile "csc" leaf.cscSecret "pubkey")
          tree &&
        hasContent
          (secretFile (cpcCluster leaf.cpcId) leaf.cpcSecret
            "seed") tree) = true :=
    Bool.and_eq_true_iff.mpr ⟨hCsc, hCpc⟩
  simp only [Leaf.outputs, leafOutputs]
  rw [if_pos hBoth]

/- Both halves of a complete pair are usable. -/
theorem leafComplete_of_outputs
    (hSound : Sound tree)
    (hOutputs : leaf.outputs tree = .complete) :
    LeafComplete leaf tree := by
  have hBoth := hasContent_of_complete hOutputs
  constructor
  · rcases (hasContent_iff hSound rfl).mp hBoth.1 with
      ⟨content, hFile, hSome⟩
    have hOk : FileOk leaf.cscPubkey content :=
      hSound.nodes _ _ hFile
    exact ⟨content, hFile, hSome,
      hOk.cscPubkey leaf rfl hSome⟩
  · rcases (hasContent_iff hSound rfl).mp hBoth.2 with
      ⟨content, hFile, hSome⟩
    have hOk : FileOk leaf.cpcSeed content :=
      hSound.nodes _ _ hFile
    exact ⟨content, hFile, hSome, hOk.cpcSeed leaf rfl hSome⟩

theorem outputs_of_leafComplete
    (hComplete : LeafComplete leaf tree) :
    leaf.outputs tree = .complete := by
  rcases hComplete with
    ⟨⟨pubkey, hPubkey, hSomePubkey, _⟩, seed, hSeed,
      hSomeSeed, _⟩
  apply outputs_of_hasContent
  · simp [hasContent, hPubkey, hSomePubkey]
  · simp [hasContent, hSeed, hSomeSeed]

end GenerateNkeys

------------------------------------------------------------
-- Matching Pairs
------------------------------------------------------------

namespace GenerateNkeys

open Shell (Environment)

/- The two halves of every leaf are of one key pair. -/
def Matched
    (publicKey : String → String)
    (tree : Tree) : Prop :=
  ∀ (leaf : Leaf) (seed pubkey : String),
    tree leaf.cpcSeed = some (.file seed) →
      tree leaf.cscPubkey = some (.file pubkey) →
        seed ≠ "" → pubkey ≠ "" → publicKey seed = pubkey

/- Growing without a pair that does not match. -/
def Safely
    (publicKey : String → String)
    (env : Environment Answer)
    (New : Path → Node → Prop)
    (before after : Tree) : Prop :=
  Grows New before after ∧
    (Honest publicKey env →
      Matched publicKey before → Matched publicKey after)

instance
    (publicKey : String → String)
    (env : Environment Answer)
    (New : Path → Node → Prop) :
    Growth (Safely publicKey env New) where
  refl tree :=
    ⟨Grows.refl tree, fun _ hMatched => hMatched⟩
  trans hFirst hSecond :=
    ⟨hFirst.1.trans hSecond.1,
      fun hHonest hMatched =>
        hSecond.2 hHonest (hFirst.2 hHonest hMatched)⟩

variable {publicKey : String → String}
variable {env : Environment Answer}

/- Where no leaf has a new file, the pairs stay the same. -/
theorem matched_of_same
    {New : Path → Node → Prop}
    {before after : Tree}
    (hGrows : Grows New before after)
    (hNot :
      ∀ (leaf : Leaf) p node,
        UnderLeaf leaf p → ¬ New p node)
    (hMatched : Matched publicKey before) :
    Matched publicKey after := by
  intro leaf seed pubkey hSeed hPubkey
  apply hMatched leaf seed pubkey
  · rw [← hSeed, hGrows.same]
    intro node
    exact hNot leaf _ node (underLeaf_cpcSeed leaf)
  · rw [← hPubkey, hGrows.same]
    intro node
    exact hNot leaf _ node (underLeaf_cscPubkey leaf)

/- A new file of a leaf holds its half of the pair. -/
theorem pubkey_of_leafNew
    {leaf : Leaf}
    {pair : String × String}
    {pubkey : String}
    (hNew : LeafNew leaf pair leaf.cscPubkey (.file pubkey)) :
    pubkey = pair.2 := by
  rcases hNew with hCsc | hCpc
  · rcases hCsc with hDir | hFile | ⟨name, content, hTemp⟩
    · exact absurd hDir.2 (by simp)
    · exact Node.file.inj hFile.2
    · exact absurd (secretFile_inj hTemp.1).2.2.symm
        (dot_ne_pubkey name)
  · have hUnder := under_of_secretNew hCpc
    have hCsc :
        secretDir "csc" leaf.cscSecret <+: leaf.cscPubkey :=
      ⟨["pubkey"], rfl⟩
    have hCluster := (secretDir_eq_of_under hUnder hCsc).1
    exact absurd hCluster (leaf_cluster_ne_csc leaf)

theorem seed_of_leafNew
    {leaf : Leaf}
    {pair : String × String}
    {seed : String}
    (hNew : LeafNew leaf pair leaf.cpcSeed (.file seed)) :
    seed = pair.1 := by
  rcases hNew with hCsc | hCpc
  · have hUnder := under_of_secretNew hCsc
    have hCpc :
        secretDir leaf.cluster leaf.cpcSecret <+: leaf.cpcSeed :=
      ⟨["seed"], rfl⟩
    have hCluster := (secretDir_eq_of_under hUnder hCpc).1
    exact absurd hCluster.symm (leaf_cluster_ne_csc leaf)
  · rcases hCpc with hDir | hFile | ⟨name, content, hTemp⟩
    · exact absurd hDir.2 (by simp)
    · exact Node.file.inj hFile.2
    · exact absurd (secretFile_inj hTemp.1).2.2.symm
        (dot_ne_seed name)

/- Both sides of a fresh leaf come from one pair. -/
theorem matched_of_leafNew
    {leaf : Leaf}
    {pair : String × String}
    {before after : Tree}
    (hSound : Sound before)
    (hFresh : Fresh leaf before)
    (hPair : PairRead publicKey env .user pair)
    (hGrows : Grows (LeafNew leaf pair) before after)
    (hHonest : Honest publicKey env)
    (hMatched : Matched publicKey before) :
    Matched publicKey after := by
  intro other seed pubkey hSeed hPubkey hSomeSeed hSomePubkey
  by_cases hSame : other = leaf
  · rw [hSame] at hSeed hPubkey
    have hSeedIs : seed = pair.1 := by
      rcases hGrows.adds leaf.cpcSeed with
        hOld | ⟨_, node, hNode, hNew⟩
      · rw [hOld, Leaf.cpcSeed, hSound.below_none hFresh.2]
          at hSeed
        simp at hSeed
      · rw [hSeed] at hNode
        rw [← Option.some.inj hNode] at hNew
        exact seed_of_leafNew hNew
    have hPubkeyIs : pubkey = pair.2 := by
      rcases hGrows.adds leaf.cscPubkey with
        hOld | ⟨_, node, hNode, hNew⟩
      · rw [hOld, Leaf.cscPubkey, hSound.below_none hFresh.1]
          at hPubkey
        simp at hPubkey
      · rw [hPubkey] at hNode
        rw [← Option.some.inj hNode] at hNew
        exact pubkey_of_leafNew hNew
    rcases hPair with hOk | hEmpty
    · rw [hSeedIs, hPubkeyIs]
      exact hOk.2 hHonest
    · rw [hSeedIs, hEmpty] at hSomeSeed
      exact absurd rfl hSomeSeed
  · have hNot :
        ∀ p node, UnderLeaf other p →
          ¬ LeafNew leaf pair p node := by
      intro p node hUnder hNew
      exact hSame
        (eq_of_underLeaf hUnder (underLeaf_of_leafNew hNew))
    rw [hGrows.same
      (fun node => hNot _ node (underLeaf_cpcSeed other))]
      at hSeed
    rw [hGrows.same
      (fun node => hNot _ node (underLeaf_cscPubkey other))]
      at hPubkey
    exact hMatched other seed pubkey hSeed hPubkey hSomeSeed
      hSomePubkey

end GenerateNkeys

------------------------------------------------------------
-- One Leaf
------------------------------------------------------------

namespace GenerateNkeys

open Shell (Environment wp)

variable {publicKey : String → String}
variable {env : Environment Answer}
variable {leaf : Leaf}
variable {m : Machine}

/- The half on the CSC side is empty. -/
def LeafEmpty (leaf : Leaf) (tree : Tree) : Prop :=
  tree leaf.cscPubkey = some (.file "")

/- What is new of a leaf that was fresh. -/
def LeafAdds
    (publicKey : String → String)
    (env : Environment Answer)
    (leaf : Leaf)
    (tree : Tree)
    (p : Path)
    (node : Node) : Prop :=
  Fresh leaf tree ∧
    ∃ pair,
      PairRead publicKey env .user pair ∧
        LeafNew leaf pair p node

theorem remove_absent
    {path : Path}
    {world : World}
    (hNone : world.tree path = none) :
    ∃ changed,
      remove path world = some changed ∧
        changed.tree = world.tree ∧
        (world.wrongModes = [] → changed.wrongModes = []) := by
  refine ⟨{ world with
      tree := setNode path none world.tree
      wrongModes := world.wrongModes.filter (· ≠ path) },
    ?_, ?_, ?_⟩
  · simp [remove, hNone]
  · exact setNode_eq_self hNone
  · intro hModes
    simp [hModes]

theorem grown_removeAbsent
    {G : Tree → Tree → Prop}
    [Growth G]
    {Tame : Prop}
    {path : Path}
    (hNone : m.world.tree path = none) :
    Grown env (must (.remove path) (remove path)) G Tame
      (fun _ m' =>
        m'.world.tree = m.world.tree ∧ Quiet m m') m := by
  rcases remove_absent hNone with ⟨removed, hRemove, hTree, hModes⟩
  apply grown_must
  · intro answer changed hChanged
    rw [hRemove] at hChanged
    rw [← Option.some.inj hChanged]
    refine ⟨?_, hTree,
      quiet_record (fun hSpoils => hSpoils) hModes⟩
    rw [hTree]
    exact Growth.refl _
  · intro _
    rw [hRemove]
    simp

/- There never are unused halves to be removed. -/
theorem grown_removeUnusedLeafKeys
    (leaf : Leaf)
    {G : Tree → Tree → Prop}
    [Growth G]
    {Tame : Prop}
    (hSound : Sound m.world.tree) :
    Grown env
      (removeUnusedLeafKeys leaf.cscSecret leaf.cpcId
        leaf.cpcSecret) G Tame
      (fun _ m' =>
        m'.world.tree = m.world.tree ∧ Quiet m m') m := by
  have hNone := hSound.unused_none leaf
  unfold removeUnusedLeafKeys
  apply grown_seq (grown_removeAbsent hNone.1)
  intro _ m1 _ hFirst
  have hStill : m1.world.tree leaf.cpcPubkey = none := by
    rw [hFirst.1, hNone.2]
  apply grown_post (grown_removeAbsent hStill)
  intro _ m2 _ hSecond
  exact ⟨hSecond.1.trans hFirst.1, hFirst.2.trans hSecond.2⟩

theorem tidy_of_same
    {first second : Machine}
    (hTree : second.world.tree = first.world.tree)
    (hQuiet : Quiet first second)
    (hTidy : Tidy first.world) :
    Tidy second.world := by
  constructor
  · exact hQuiet.modes hTidy.modes
  · intro p hHidden
    rw [hTree, hTidy.names p hHidden]

/- The two secrets of a pair that has been read. -/
theorem grown_writePair
    (pair : String × String)
    (hPair : PairRead publicKey env .user pair)
    (hSound : Sound m.world.tree)
    (hFresh : Fresh leaf m.world.tree)
    (hCsc : Ready "csc" m.world.tree)
    (hCpc : Ready leaf.cluster m.world.tree) :
    Grown env
      (do
        writeSecretValue "csc" leaf.cscSecret "pubkey" pair.2
        writeSecretValue leaf.cluster leaf.cpcSecret "seed"
          pair.1
        removeUnusedLeafKeys leaf.cscSecret leaf.cpcId
          leaf.cpcSecret)
      (Grows (LeafNew leaf pair))
      (Tidy m.world)
      (fun _ m' =>
        m'.world.tree leaf.cscPubkey = some (.file pair.2) ∧
          m'.world.tree leaf.cpcSeed = some (.file pair.1) ∧
          Quiet m m' ∧ (Tidy m.world → Tidy m'.world))
      m := by
  have hApart :
      ∀ p node, leaf.cpcDir <+: p →
        ¬ SecretNew "csc" leaf.cscSecret "pubkey" pair.2 p
          node := by
    intro p node hPrefix hNew
    have hCluster :=
      (secretDir_eq_of_under hPrefix
        (under_of_secretNew hNew)).1
    exact leaf_cluster_ne_csc leaf hCluster
  apply grown_seq
    (R := fun _ m' =>
      m'.world.tree leaf.cscPubkey = some (.file pair.2) ∧
        m'.world.tree leaf.cpcSeed = none ∧
        m'.world.tree leaf.cpcDir = none ∧
        Quiet m m' ∧ (Tidy m.world → Tidy m'.world))
  · apply grown_mono
      (grown_writeSecretValue hCsc
        (hSound.below_none hFresh.1 "pubkey")
        (not_hidden_of_dot_ne dot_ne_pubkey))
    · intro tree hGrows
      apply hGrows.mono
      intro p node _ _ hNew
      exact Or.inl hNew
    · intro hTidy
      have hNone :
          m.world.tree (secretDir "csc" leaf.cscSecret) =
            none :=
        hFresh.1
      exact ⟨hTidy, by rw [hNone]; rfl⟩
    · intro _ m1 hGrows hDone
      refine ⟨hDone.1, ?_, ?_, hDone.2⟩
      · have hBelow : leaf.cpcDir <+: leaf.cpcSeed :=
          ⟨["seed"], rfl⟩
        rw [hGrows.same (fun node => hApart _ node hBelow)]
        exact hSound.below_none hFresh.2 "seed"
      · rw [hGrows.same
          (fun node => hApart _ node List.prefix_rfl)]
        exact hFresh.2
  intro _ m1 hGrows1 hFirst
  rcases hFirst with ⟨hPubkey, hNoSeed, hNoDir, hQuiet1, hTidy1⟩
  apply grown_seq
    (R := fun _ m' =>
      m'.world.tree leaf.cscPubkey = some (.file pair.2) ∧
        m'.world.tree leaf.cpcSeed = some (.file pair.1) ∧
        Sound m'.world.tree ∧
        Quiet m m' ∧ (Tidy m.world → Tidy m'.world))
  · apply grown_mono
      (grown_writeSecretValue (hCpc.grows hGrows1) hNoSeed
        (not_hidden_of_dot_ne dot_ne_seed))
    · intro tree hGrows
      apply hGrows.mono
      intro p node _ _ hNew
      exact Or.inr hNew
    · intro hTidy
      have hNone :
          m1.world.tree
              (secretDir leaf.cluster leaf.cpcSecret) =
            none :=
        hNoDir
      exact ⟨hTidy1 hTidy, by rw [hNone]; rfl⟩
    · intro _ m2 hGrows2 hDone
      have hBoth :
          Grows (LeafNew leaf pair) m.world.tree
            m2.world.tree :=
        hGrows1.trans
          (hGrows2.mono (fun _ _ _ _ hNew => Or.inr hNew))
      exact ⟨hGrows2.keeps hPubkey, hDone.1,
        hSound.grows hBoth
          (fun _ _ hNew => nodeOk_of_leafNew hPair hNew),
        hQuiet1.trans hDone.2.1,
        fun hTidy => hDone.2.2 (hTidy1 hTidy)⟩
  intro _ m2 _ hSecond
  rcases hSecond with
    ⟨hPubkey2, hSeed2, hSound2, hQuiet2, hTidy2⟩
  apply grown_post (grown_removeUnusedLeafKeys leaf hSound2)
  intro _ m3 _ hRemoved
  rw [hRemoved.1]
  exact ⟨hPubkey2, hSeed2, hQuiet2.trans hRemoved.2,
    fun hTidy =>
      tidy_of_same hRemoved.1 hRemoved.2 (hTidy2 hTidy)⟩

/- A fresh leaf gets its pair, or two empty files. -/
theorem grown_generateNamedLeafSecretPair
    (publicKey : String → String)
    (hSound : Sound m.world.tree)
    (hFresh : Fresh leaf m.world.tree)
    (hCsc : Ready "csc" m.world.tree)
    (hCpc : Ready leaf.cluster m.world.tree) :
    Grown env
      (generateNamedLeafSecretPair leaf.cpcId leaf.cscSecret
        leaf.cpcSecret)
      (Safely publicKey env
        (LeafAdds publicKey env leaf m.world.tree))
      (Tidy m.world)
      (fun _ m' =>
        Progress env (LeafComplete leaf) (LeafEmpty leaf) m m')
      m := by
  unfold generateNamedLeafSecretPair
  apply grown_seq (grown_readNkeyPair publicKey .user)
  intro pair m1 _ hRead
  rcases hRead with ⟨hPair, hLoses⟩
  have hTree := hLoses.tree
  apply grown_mono
    (grown_writePair pair hPair (by rw [hTree]; exact hSound)
      (by rw [hTree]; exact hFresh)
      (by rw [hTree]; exact hCsc)
      (by rw [hTree]; exact hCpc))
  · intro tree hGrows
    constructor
    · apply hGrows.mono
      intro p node _ _ hNew
      exact ⟨hFresh, pair, hPair, hNew⟩
    · intro hHonest hMatched
      rw [hTree] at hGrows hMatched
      exact matched_of_leafNew hSound hFresh hPair hGrows
        hHonest hMatched
  · exact hLoses.tidy
  · intro _ m2 _ hDone
    rcases hDone with ⟨hPubkey, hSeed, hQuiet, hTidy⟩
    constructor
    · intro hClean
      rw [hQuiet.spoiled, hLoses.spoiled] at hClean
      have hOk : PairOk publicKey env .user pair := by
        rcases hPair with hOk | hEmpty
        · exact hOk
        · exact absurd (Or.inr hEmpty) hClean
      exact ⟨usable_of_pairOk hOk .pubkey hPubkey,
        usable_of_pairOk hOk .seed hSeed⟩
    · intro hSpoiled
      rw [hQuiet.spoiled, hLoses.spoiled] at hSpoiled
      rcases hSpoiled with hBefore | hEmpty
      · exact Or.inl hBefore
      · rw [hEmpty] at hPubkey
        exact Or.inr hPubkey
    · intro hBefore
      rw [hQuiet.spoiled, hLoses.spoiled]
      exact Or.inl hBefore
    · intro hWorks hSpoiled
      rw [hQuiet.spoiled, hLoses.spoiled] at hSpoiled
      rcases hSpoiled with hBefore | hEmpty
      · exact hBefore
      · exact absurd hWorks (hLoses.rough hEmpty)
    · intro hStart
      exact hTidy (hLoses.tidy hStart)

/- The halves of a complete pair are compared. -/
theorem grown_leafOutputsMatch
    (leaf : Leaf)
    {G : Tree → Tree → Prop}
    [Growth G]
    {Tame : Prop}
    (hTame :
      Tame →
        strip (contentOf leaf.cscPubkey m.world.tree) =
          strip (publicKey
            (contentOf leaf.cpcSeed m.world.tree))) :
    Grown env
      (leafOutputsMatch publicKey leaf.cpcId leaf.cscSecret
        leaf.cpcSecret) G Tame
      (fun same m' =>
        m'.world = m.world ∧ Quiet m m' ∧
          (same = false → Tame → ¬ Works env))
      m := by
  unfold leafOutputsMatch
  apply grown_seq
    (R := fun cscPubkey m' =>
      m'.world = m.world ∧ Quiet m m' ∧
        (Works env →
          cscPubkey =
            strip (contentOf leaf.cscPubkey m.world.tree)))
  · apply grown_command
    intro answer hAnswer
    refine ⟨Growth.refl _, rfl,
      quiet_record (fun hSpoils => hSpoils)
        (fun hModes => hModes), ?_⟩
    intro hWorks
    rw [hAnswer, hWorks.ok]
    rfl
  intro cscPubkey m1 _ hFirst
  apply grown_seq
    (R := fun cpcPubkey m' =>
      m'.world = m.world ∧ Quiet m m' ∧
        (Works env →
          cpcPubkey =
            strip (publicKey
              (contentOf leaf.cpcSeed m.world.tree))))
  · apply grown_command
    intro answer hAnswer
    refine ⟨Growth.refl _, hFirst.1,
      hFirst.2.1.trans
        (quiet_record (fun hSpoils => hSpoils)
          (fun hModes => hModes)), ?_⟩
    intro hWorks
    rw [hAnswer, hWorks.ok, hFirst.1]
    rfl
  intro cpcPubkey m2 _ hSecond
  apply grown_pure
  refine ⟨hSecond.1, hSecond.2.1, ?_⟩
  intro hDiffer hAt hWorks
  rw [hFirst.2.2 hWorks, hSecond.2.2 hWorks] at hDiffer
  simp [hTame hAt] at hDiffer

/- The modes on both sides, at the end. -/
theorem grown_auditBoth
    (leaf : Leaf)
    {G : Tree → Tree → Prop}
    [Growth G]
    {Tame : Prop}
    (hTidy : Tame → Tidy m.world)
    (hCsc : Ready "csc" m.world.tree)
    (hCpc : Ready leaf.cluster m.world.tree) :
    Grown env
      (do
        auditSecretPermissions "csc"
        auditSecretPermissions leaf.cluster) G Tame
      (fun _ m' => m'.world = m.world ∧ Quiet m m') m := by
  apply grown_seq
    (grown_auditSecretPermissions (fun hTame =>
      ⟨(hTidy hTame).modes, hCsc _ List.prefix_rfl⟩))
  intro _ m1 _ hFirst
  apply grown_post
    (grown_auditSecretPermissions (fun hTame => by
      rw [hFirst.1]
      exact ⟨(hTidy hTame).modes, hCpc _ List.prefix_rfl⟩))
  intro _ m2 _ hSecond
  exact ⟨hSecond.1.trans hFirst.1, hFirst.2.trans hSecond.2⟩

/-
  The script goes on after a leaf only when its two halves are
  there or were fresh, and an inconsistent leaf is not touched.
-/
theorem grown_generateLeaf
    (hSound : Sound m.world.tree)
    (hCsc : Ready "csc" m.world.tree)
    (hCpc : Ready leaf.cluster m.world.tree) :
    Grown env (generateLeaf publicKey leaf)
      (Safely publicKey env
        (LeafAdds publicKey env leaf m.world.tree))
      (Tidy m.world ∧
        leaf.outputs m.world.tree ≠ .inconsistent ∧
        Matched publicKey m.world.tree)
      (fun _ m' =>
        leaf.outputs m.world.tree ≠ .inconsistent ∧
          Progress env (LeafComplete leaf) (LeafEmpty leaf)
            m m')
      m := by
  unfold generateLeaf generateLeafOutputsPair
  apply grown_seq
    (R := fun outputs m' =>
      m' = m ∧ outputs = leaf.outputs m.world.tree)
  · exact grown_inspect ⟨rfl, rfl⟩
  intro outputs m' _ hLook
  rcases hLook with ⟨hSame, hOutputs⟩
  subst hSame
  cases outputs with
  | complete =>
      have hComplete :=
        leafComplete_of_outputs hSound hOutputs.symm
      apply grown_seq
        (grown_leafOutputsMatch leaf ?_)
      · intro same m1 _ hCompared
        rcases hCompared with ⟨hWorld, hQuiet, hDiffer⟩
        cases same with
        | false =>
            apply grown_seq (R := fun _ _ => False)
            · exact grown_exit (hDiffer rfl)
            · intro _ _ _ hFalse
              exact hFalse.elim
        | true =>
            apply grown_seq
              (grown_removeUnusedLeafKeys leaf
                (by rw [hWorld]; exact hSound))
            intro _ m2 _ hRemoved
            have hTree :
                m2.world.tree = m'.world.tree := by
              rw [hRemoved.1, hWorld]
            have hQuiet2 := hQuiet.trans hRemoved.2
            apply grown_post
              (grown_auditBoth leaf
                (fun hTame =>
                  tidy_of_same hTree hQuiet2 hTame.1)
                (by rw [hTree]; exact hCsc)
                (by rw [hTree]; exact hCpc))
            intro _ m3 _ hLooked
            have hTree3 :
                m3.world.tree = m'.world.tree := by
              rw [hLooked.1, hTree]
            have hQuiet3 := hQuiet2.trans hLooked.2
            refine ⟨by rw [← hOutputs]; simp, ?_⟩
            apply Progress.of_quiet hQuiet3
            · exact tidy_of_same hTree3 hQuiet3
            · rw [hTree3]
              exact hComplete
      · intro hTame
        rcases hComplete with
          ⟨⟨pubkey, hPubkey, hSomePubkey, _⟩, seed, hSeed,
            hSomeSeed, _⟩
        rw [contentOf, hPubkey, contentOf, hSeed,
          hTame.2.2 leaf seed pubkey hSeed hPubkey hSomeSeed
            hSomePubkey]
  | fresh =>
      have hFresh := outputs_fresh hOutputs.symm
      apply grown_seq
        (R := fun _ m1 =>
          Ready "csc" m1.world.tree ∧
            Ready leaf.cluster m1.world.tree ∧
            Progress env (LeafComplete leaf) (LeafEmpty leaf)
              m' m1)
      · apply grown_mono
          (grown_generateNamedLeafSecretPair publicKey hSound
            hFresh hCsc hCpc)
        · intro tree hSafely
          exact hSafely
        · intro hTame
          exact hTame.1
        · intro _ m1 hSafely hDone
          exact ⟨hCsc.grows hSafely.1, hCpc.grows hSafely.1,
            hDone⟩
      intro _ m1 _ hWritten
      apply grown_post
        (grown_auditBoth leaf
          (fun hTame => hWritten.2.2.tidy hTame.1)
          hWritten.1 hWritten.2.1)
      intro _ m2 _ hLooked
      exact ⟨by rw [← hOutputs]; simp,
        hWritten.2.2.then_same hLooked.1 hLooked.2⟩
  | inconsistent =>
      apply grown_seq
        (R := fun _ _ => False)
      · apply grown_exit
        intro hTame
        exact absurd hOutputs.symm hTame.2.1
      · intro _ _ _ hFalse
        exact hFalse.elim

end GenerateNkeys
