import DsxExchange.GenerateNkeys.Leaves

/-
  A whole run, from any sound tree: the loops over the CPCs
  and their leaves keep one invariant.

  Key definitions include:
    * `GenerateNkeys.Passed`
    * `GenerateNkeys.RunTame`

  Key theorems include:
    * `GenerateNkeys.passed_cluster`,
      `GenerateNkeys.passed_leaf`
    * `GenerateNkeys.grown_run`
-/

------------------------------------------------------------
-- The Invariant Of The Loops
------------------------------------------------------------

namespace GenerateNkeys

open Shell (Environment wp)

/-
  What holds after some clusters and leaves, in a run that has
  started with the world.
-/
structure Passed
    (publicKey : String → String)
    (env : Environment Answer)
    (world : World)
    (clusters : List String)
    (leaves : List Leaf)
    (m : Machine) : Prop where
  grows :
    Safely publicKey env (RunNew publicKey env world.tree)
      world.tree m.world.tree
  ready : ∀ cluster ∈ clusters, Ready cluster m.world.tree
  started :
    ∀ cluster,
      m.world.tree (nkeysDir cluster) ≠ none →
        world.tree (nkeysDir cluster) ≠ none ∨
          cluster ∈ clusters
  startedLeaves :
    ∀ leaf,
      ¬ Fresh leaf m.world.tree →
        ¬ Fresh leaf world.tree ∨ leaf ∈ leaves
  complete :
    ¬ Spoiled m →
      ∀ cluster ∈ clusters,
        world.tree (nkeysDir cluster) = none →
          BaseComplete cluster m.world.tree
  completeLeaves :
    ¬ Spoiled m →
      ∀ leaf ∈ leaves, LeafComplete leaf m.world.tree
  lost :
    Spoiled m →
      (∃ cluster ∈ clusters,
        BaseEmpty cluster m.world.tree) ∨
      ∃ leaf ∈ leaves, LeafEmpty leaf m.world.tree
  works : Works env → ¬ Spoiled m
  tidy : Tidy world → Tidy m.world
  consistent :
    ∀ leaf ∈ leaves,
      leaf.outputs world.tree ≠ .inconsistent

variable {publicKey : String → String}
variable {env : Environment Answer}
variable {world : World}
variable {clusters : List String}
variable {leaves : List Leaf}
variable {m m' : Machine}

theorem Usable.grows
    {New : Path → Node → Prop}
    {before after : Tree}
    {path : Path}
    {begin : String}
    (hUsable : Usable before path begin)
    (hGrows : Grows New before after) :
    Usable after path begin := by
  rcases hUsable with ⟨content, hFile, hRest⟩
  exact ⟨content, hGrows.keeps hFile, hRest⟩

theorem BaseComplete.grows
    {New : Path → Node → Prop}
    {before after : Tree}
    {cluster : String}
    (hComplete : BaseComplete cluster before)
    (hGrows : Grows New before after) :
    BaseComplete cluster after :=
  fun file hMem => (hComplete file hMem).grows hGrows

theorem LeafComplete.grows
    {New : Path → Node → Prop}
    {before after : Tree}
    {leaf : Leaf}
    (hComplete : LeafComplete leaf before)
    (hGrows : Grows New before after) :
    LeafComplete leaf after :=
  ⟨hComplete.1.grows hGrows, hComplete.2.grows hGrows⟩

theorem BaseEmpty.grows
    {New : Path → Node → Prop}
    {before after : Tree}
    {cluster : String}
    (hEmpty : BaseEmpty cluster before)
    (hGrows : Grows New before after) :
    BaseEmpty cluster after := by
  rcases hEmpty with ⟨file, hMem, hFile⟩
  exact ⟨file, hMem, hGrows.keeps hFile⟩

/- The same tree, after something that loses nothing. -/
theorem Passed.of_quiet
    (hPassed : Passed publicKey env world clusters leaves m)
    (hTree : m'.world.tree = m.world.tree)
    (hQuiet : Quiet m m') :
    Passed publicKey env world clusters leaves m' := by
  constructor
  · rw [hTree]
    exact hPassed.grows
  · rw [hTree]
    exact hPassed.ready
  · rw [hTree]
    exact hPassed.started
  · rw [hTree]
    exact hPassed.startedLeaves
  · rw [hTree, hQuiet.spoiled]
    exact hPassed.complete
  · rw [hTree, hQuiet.spoiled]
    exact hPassed.completeLeaves
  · rw [hTree, hQuiet.spoiled]
    exact hPassed.lost
  · rw [hQuiet.spoiled]
    exact hPassed.works
  · intro hTidy
    exact tidy_of_same hTree hQuiet (hPassed.tidy hTidy)
  · exact hPassed.consistent

theorem Passed.sound
    (hSound : Sound world.tree)
    (hPassed : Passed publicKey env world clusters leaves m) :
    Sound m.world.tree :=
  hSound.grows hPassed.grows.1 nodeOk_of_runNew

theorem outputs_of_fresh
    {tree : Tree}
    {leaf : Leaf}
    (hSound : Sound tree)
    (hFresh : Fresh leaf tree) :
    leaf.outputs tree = .fresh := by
  have hCsc :
      hasContent (secretFile "csc" leaf.cscSecret "pubkey")
        tree = false := by
    rw [hasContent, hSound.below_none hFresh.1]
  have hSeed :
      tree (secretFile (cpcCluster leaf.cpcId) leaf.cpcSecret
        "seed") = none :=
    hSound.below_none hFresh.2 "seed"
  have hCpc :
      hasContent
        (secretFile (cpcCluster leaf.cpcId) leaf.cpcSecret
          "seed") tree = false := by
    rw [hasContent, hSeed]
  have hCscDir :
      tree (secretDir "csc" leaf.cscSecret) = none :=
    hFresh.1
  have hCpcDir :
      tree (secretDir (cpcCluster leaf.cpcId)
        leaf.cpcSecret) = none :=
    hFresh.2
  simp [Leaf.outputs, leafOutputs, hCsc, hCpc, hCscDir, hCpcDir]

/- A leaf is judged by four entries. -/
theorem outputs_eq_of_same
    {before after : Tree}
    {leaf : Leaf}
    (hPubkey : after leaf.cscPubkey = before leaf.cscPubkey)
    (hSeed : after leaf.cpcSeed = before leaf.cpcSeed)
    (hCscDir : after leaf.cscDir = before leaf.cscDir)
    (hCpcDir : after leaf.cpcDir = before leaf.cpcDir) :
    leaf.outputs after = leaf.outputs before := by
  have hCscContent :
      hasContent (secretFile "csc" leaf.cscSecret "pubkey")
          after =
        hasContent (secretFile "csc" leaf.cscSecret "pubkey")
          before := by
    unfold Leaf.cscPubkey at hPubkey
    unfold hasContent
    rw [hPubkey]
  have hCpcContent :
      hasContent (secretFile (cpcCluster leaf.cpcId)
          leaf.cpcSecret "seed") after =
        hasContent (secretFile (cpcCluster leaf.cpcId)
          leaf.cpcSecret "seed") before := by
    unfold Leaf.cpcSeed Leaf.cluster at hSeed
    unfold hasContent
    rw [hSeed]
  unfold Leaf.cscDir at hCscDir
  unfold Leaf.cpcDir Leaf.cluster at hCpcDir
  unfold Leaf.outputs leafOutputs
  rw [hCscContent, hCpcContent, hCscDir, hCpcDir]

/- A started leaf is judged as at the start of the run. -/
theorem outputs_eq_start
    {before after : Tree}
    {leaf : Leaf}
    (hGrows :
      Grows (RunNew publicKey env before) before after)
    (hStarted : ¬ Fresh leaf before) :
    leaf.outputs after = leaf.outputs before := by
  have hSame :
      ∀ p, UnderLeaf leaf p → after p = before p := by
    intro p hUnder
    exact hGrows.same (not_runNew_underLeaf hStarted hUnder)
  exact outputs_eq_of_same
    (hSame _ (underLeaf_cscPubkey leaf))
    (hSame _ (underLeaf_cpcSeed leaf))
    (hSame _ (Or.inl List.prefix_rfl))
    (hSame _ (Or.inr List.prefix_rfl))

theorem nkeysDir_inj
    {cluster cluster' : String}
    (hPrefix : nkeysDir cluster <+: nkeysDir cluster') :
    cluster = cluster' := by
  have hEq := hPrefix.eq_of_length (by simp [nkeysDir])
  simp only [nkeysDir, List.cons.injEq] at hEq
  exact hEq.1

/- A run adds what one of its clusters adds. -/
theorem safely_of_clusterNew
    {cluster : String}
    (hBefore :
      Grows (RunNew publicKey env world.tree) world.tree
        m.world.tree)
    {tree : Tree}
    (hGrows :
      Grows (ClusterNew cluster m.world.tree)
        m.world.tree tree) :
    Safely publicKey env (RunNew publicKey env world.tree)
      m.world.tree tree := by
  constructor
  · apply hGrows.mono
    intro p node _ _ hNew
    exact Or.inr (Or.inl
      ⟨cluster, hBefore.none_of_none hNew.1, hNew.2⟩)
  · intro _ hMatched
    apply matched_of_same hGrows _ hMatched
    intro leaf p node hUnder hNew
    exact not_baseNew_underLeaf hUnder node hNew.2

theorem safely_of_leafAdds
    {leaf : Leaf}
    (hBefore :
      Grows (RunNew publicKey env world.tree) world.tree
        m.world.tree)
    {tree : Tree}
    (hSafely :
      Safely publicKey env
        (LeafAdds publicKey env leaf m.world.tree)
        m.world.tree tree) :
    Safely publicKey env (RunNew publicKey env world.tree)
      m.world.tree tree := by
  refine ⟨?_, hSafely.2⟩
  apply hSafely.1.mono
  intro p node _ _ hNew
  rcases hNew with ⟨hFresh, pair, hPair, hLeaf⟩
  exact Or.inr (Or.inr
    ⟨leaf, pair,
      ⟨hBefore.none_of_none hFresh.1,
        hBefore.none_of_none hFresh.2⟩,
      hPair, hLeaf⟩)

theorem safely_of_root
    {start before after : Tree}
    (hGrows : Grows (DirsOf []) before after) :
    Safely publicKey env (RunNew publicKey env start)
      before after := by
  constructor
  · exact hGrows.mono (fun _ _ _ _ hNew => Or.inl hNew)
  · intro _ hMatched
    apply matched_of_same hGrows _ hMatched
    intro leaf p node hUnder hNew
    have hPrefix : p <+: nkeysDir "csc" :=
      hNew.1.trans List.nil_prefix
    exact not_underLeaf_of_above hPrefix hUnder

/- What one cluster does to the invariant. -/
theorem passed_cluster
    {cluster : String}
    (hPassed : Passed publicKey env world clusters leaves m)
    (hGrows :
      Grows (ClusterNew cluster m.world.tree)
        m.world.tree m'.world.tree)
    (hReady : Ready cluster m'.world.tree)
    (hProgress :
      Progress env
        (fun tree =>
          m.world.tree (nkeysDir cluster) = none →
            BaseComplete cluster tree)
        (BaseEmpty cluster) m m') :
    Passed publicKey env world (clusters ++ [cluster]) leaves
      m' := by
  constructor
  · exact Growth.trans hPassed.grows
      (safely_of_clusterNew hPassed.grows.1 hGrows)
  · intro other hMem
    rcases List.mem_append.mp hMem with hOld | hNew
    · exact (hPassed.ready other hOld).grows hGrows
    · rw [List.mem_singleton.mp hNew]
      exact hReady
  · intro other hStarted
    rcases hGrows.adds (nkeysDir other) with
      hSame | ⟨_, node, _, hNew⟩
    · rw [hSame] at hStarted
      exact (hPassed.started other hStarted).imp_right
        (List.mem_append_left _)
    · rcases region_of_baseNew hNew.2 with hPrefix | hBase
      · rw [nkeysDir_inj hPrefix]
        simp
      · exact absurd hBase
          (not_underBase_of_above List.prefix_rfl)
  · intro leaf hStarted
    apply hPassed.startedLeaves leaf
    intro hFresh
    apply hStarted
    have hSame :
        ∀ p, UnderLeaf leaf p →
          m'.world.tree p = m.world.tree p := by
      intro p hUnder
      apply hGrows.same
      intro node hNew
      exact not_baseNew_underLeaf hUnder node hNew.2
    exact ⟨(hSame _ (Or.inl List.prefix_rfl)).trans hFresh.1,
      (hSame _ (Or.inr List.prefix_rfl)).trans hFresh.2⟩
  · intro hClean other hMem hNone
    have hBefore : ¬ Spoiled m := fun hSpoiled =>
      hClean (hProgress.spoiled hSpoiled)
    have hOld := hPassed.complete hBefore
    rcases List.mem_append.mp hMem with hIn | hNew
    · exact (hOld other hIn hNone).grows hGrows
    · rw [List.mem_singleton.mp hNew] at hNone ⊢
      by_cases hAbsent : m.world.tree (nkeysDir cluster) = none
      · exact hProgress.complete hClean hAbsent
      · rcases hPassed.started cluster hAbsent with
          hStarted | hIn
        · exact absurd hNone hStarted
        · exact (hOld cluster hIn hNone).grows hGrows
  · intro hClean leaf hMem
    have hBefore : ¬ Spoiled m := fun hSpoiled =>
      hClean (hProgress.spoiled hSpoiled)
    exact (hPassed.completeLeaves hBefore leaf hMem).grows hGrows
  · intro hSpoiled
    rcases hProgress.lost hSpoiled with hBefore | hEmpty
    · rcases hPassed.lost hBefore with
        ⟨other, hMem, hOther⟩ | ⟨leaf, hMem, hLeaf⟩
      · exact Or.inl
          ⟨other, List.mem_append_left _ hMem,
            hOther.grows hGrows⟩
      · exact Or.inr ⟨leaf, hMem, hGrows.keeps hLeaf⟩
    · exact Or.inl
        ⟨cluster,
          List.mem_append_right _ (List.mem_singleton_self _),
          hEmpty⟩
  · intro hWorks hSpoiled
    exact hPassed.works hWorks (hProgress.works hWorks hSpoiled)
  · intro hTidy
    exact hProgress.tidy (hPassed.tidy hTidy)
  · exact hPassed.consistent

/- What one leaf does to the invariant. -/
theorem passed_leaf
    {leaf : Leaf}
    (hSound : Sound world.tree)
    (hPassed : Passed publicKey env world clusters leaves m)
    (hSafely :
      Safely publicKey env
        (LeafAdds publicKey env leaf m.world.tree)
        m.world.tree m'.world.tree)
    (hConsistent :
      leaf.outputs m.world.tree ≠ .inconsistent)
    (hProgress :
      Progress env (LeafComplete leaf) (LeafEmpty leaf) m m') :
    Passed publicKey env world clusters (leaves ++ [leaf])
      m' := by
  have hGrows := hSafely.1
  have hUnder :
      ∀ p node,
        LeafAdds publicKey env leaf m.world.tree p node →
          UnderLeaf leaf p := by
    intro p node hNew
    rcases hNew with ⟨_, pair, _, hLeaf⟩
    exact underLeaf_of_leafNew hLeaf
  constructor
  · exact Growth.trans hPassed.grows
      (safely_of_leafAdds hPassed.grows.1 hSafely)
  · intro cluster hMem
    exact (hPassed.ready cluster hMem).grows hGrows
  · intro cluster hStarted
    apply hPassed.started cluster
    rw [hGrows.same] at hStarted
    · exact hStarted
    · intro node hNew
      exact not_underLeaf_of_above List.prefix_rfl
        (hUnder _ node hNew)
  · intro other hStarted
    by_cases hSame : other = leaf
    · rw [hSame]
      simp
    · have hStill :
          ∀ p, UnderLeaf other p →
            m'.world.tree p = m.world.tree p := by
        intro p hOther
        apply hGrows.same
        intro node hNew
        exact hSame (eq_of_underLeaf hOther (hUnder p node hNew))
      apply (hPassed.startedLeaves other _).imp_right
        (List.mem_append_left _)
      intro hFresh
      apply hStarted
      exact
        ⟨(hStill _ (Or.inl List.prefix_rfl)).trans hFresh.1,
          (hStill _ (Or.inr List.prefix_rfl)).trans hFresh.2⟩
  · intro hClean cluster hMem hNone
    have hBefore : ¬ Spoiled m := fun hSpoiled =>
      hClean (hProgress.spoiled hSpoiled)
    exact (hPassed.complete hBefore cluster hMem hNone).grows
      hGrows
  · intro hClean other hMem
    have hBefore : ¬ Spoiled m := fun hSpoiled =>
      hClean (hProgress.spoiled hSpoiled)
    rcases List.mem_append.mp hMem with hOld | hNew
    · exact (hPassed.completeLeaves hBefore other hOld).grows
        hGrows
    · rw [List.mem_singleton.mp hNew]
      exact hProgress.complete hClean
  · intro hSpoiled
    rcases hProgress.lost hSpoiled with hBefore | hEmpty
    · rcases hPassed.lost hBefore with
        ⟨cluster, hMem, hOld⟩ | ⟨other, hMem, hOld⟩
      · exact Or.inl ⟨cluster, hMem, hOld.grows hGrows⟩
      · exact Or.inr
          ⟨other, List.mem_append_left _ hMem,
            hGrows.keeps hOld⟩
    · exact Or.inr
        ⟨leaf,
          List.mem_append_right _ (List.mem_singleton_self _),
          hEmpty⟩
  · intro hWorks hSpoiled
    exact hPassed.works hWorks (hProgress.works hWorks hSpoiled)
  · intro hTidy
    exact hProgress.tidy (hPassed.tidy hTidy)
  · intro other hMem
    rcases List.mem_append.mp hMem with hOld | hNew
    · exact hPassed.consistent other hOld
    · rw [List.mem_singleton.mp hNew]
      by_cases hFresh : Fresh leaf world.tree
      · rw [outputs_of_fresh hSound hFresh]
        simp
      · rw [← outputs_eq_start hPassed.grows.1 hFresh]
        exact hConsistent

end GenerateNkeys

------------------------------------------------------------
-- The Loops
------------------------------------------------------------

namespace GenerateNkeys

open Shell (Environment wp)

variable {publicKey : String → String}
variable {env : Environment Answer}
variable {world : World}
variable {m : Machine}

/-
  Where everything works the run goes on: the start is tidy,
  no requested leaf is inconsistent, all pairs match.
-/
structure RunTame
    (publicKey : String → String)
    (env : Environment Answer)
    (outputRoot : String)
    (request : Request)
    (world : World) : Prop where
  root : outputRoot ≠ "" ∧ outputRoot ≠ "/"
  tidy : Tidy world
  honest : Honest publicKey env
  matched : Matched publicKey world.tree
  consistent :
    ∀ leaf ∈ request.leaves,
      leaf.outputs world.tree ≠ .inconsistent

/- On the way, too, no requested leaf is inconsistent. -/
theorem Passed.outputs_consistent
    {clusters : List String}
    {leaves : List Leaf}
    (hSound : Sound world.tree)
    (hPassed : Passed publicKey env world clusters leaves m)
    (hWorks : Works env)
    {leaf : Leaf}
    (hConsistent :
      leaf.outputs world.tree ≠ .inconsistent) :
    leaf.outputs m.world.tree ≠ .inconsistent := by
  by_cases hStarted : Fresh leaf world.tree
  · by_cases hFresh : Fresh leaf m.world.tree
    · rw [outputs_of_fresh (hPassed.sound hSound) hFresh]
      simp
    · rcases hPassed.startedLeaves leaf hFresh with
        hBefore | hMem
      · exact absurd hStarted hBefore
      · have hComplete :=
          hPassed.completeLeaves (hPassed.works hWorks) leaf hMem
        rw [outputs_of_leafComplete hComplete]
        simp
  · rw [outputs_eq_start hPassed.grows.1 hStarted]
    exact hConsistent

variable {outputRoot : String}
variable {request : Request}

theorem grown_passedCluster
    (cluster : String)
    {clusters : List String}
    {leaves : List Leaf}
    (hSound : Sound world.tree)
    (hPassed : Passed publicKey env world clusters leaves m) :
    Grown env (generateCluster cluster)
      (Safely publicKey env (RunNew publicKey env world.tree))
      (RunTame publicKey env outputRoot request world)
      (fun _ =>
        Passed publicKey env world (clusters ++ [cluster])
          leaves)
      m := by
  apply grown_mono
    (grown_generateCluster (hPassed.sound hSound))
  · intro tree hGrows
    exact safely_of_clusterNew hPassed.grows.1 hGrows
  · intro hTame
    exact hPassed.tidy hTame.tidy
  · intro _ m' hGrows hDone
    exact passed_cluster hPassed hGrows hDone.1 hDone.2

theorem grown_passedLeaf
    {leaf : Leaf}
    {clusters : List String}
    {leaves : List Leaf}
    (hSound : Sound world.tree)
    (hPassed : Passed publicKey env world clusters leaves m)
    (hCsc : "csc" ∈ clusters)
    (hCpc : leaf.cluster ∈ clusters)
    (hMem : leaf ∈ request.leaves) :
    Grown env (generateLeaf publicKey leaf)
      (Safely publicKey env (RunNew publicKey env world.tree))
      (RunTame publicKey env outputRoot request world)
      (fun _ =>
        Passed publicKey env world clusters (leaves ++ [leaf]))
      m := by
  apply grown_of_works
  apply grown_mono
    (grown_generateLeaf (hPassed.sound hSound)
      (hPassed.ready "csc" hCsc) (hPassed.ready _ hCpc))
  · intro tree hSafely
    exact safely_of_leafAdds hPassed.grows.1 hSafely
  · intro hTame
    exact ⟨hPassed.tidy hTame.1.tidy,
      hPassed.outputs_consistent hSound hTame.2
        (hTame.1.consistent leaf hMem),
      hPassed.grows.2 hTame.1.honest hTame.1.matched⟩
  · intro _ m' hSafely hDone
    exact passed_leaf hSound hPassed hSafely hDone.1 hDone.2

/- One CPC: its cluster, then one leaf after another. -/
theorem grown_passedCpc
    {cpcId : CpcId}
    {clusters : List String}
    {leaves : List Leaf}
    (hSound : Sound world.tree)
    (hPassed : Passed publicKey env world clusters leaves m)
    (hCsc : "csc" ∈ clusters)
    (hMem : cpcId ∈ request.cpcIds) :
    Grown env (generateCpc publicKey request cpcId)
      (Safely publicKey env (RunNew publicKey env world.tree))
      (RunTame publicKey env outputRoot request world)
      (fun _ =>
        Passed publicKey env world
          (clusters ++ [cpcCluster cpcId.val])
          (leaves ++ request.leavesOf cpcId))
      m := by
  rw [generateCpc_eq]
  apply grown_seq
    (grown_passedCluster (cpcCluster cpcId.val) hSound hPassed)
  intro _ m1 _ hCluster
  apply grown_forEach
    (fun passed =>
      Passed publicKey env world
        (clusters ++ [cpcCluster cpcId.val])
        (leaves ++ passed))
  · rw [List.append_nil]
    exact hCluster
  intro passed leaf rest m2 hItems _ hPassed2
  have hLeaf : leaf ∈ request.leavesOf cpcId := by
    rw [hItems]
    simp
  rw [← List.append_assoc]
  apply grown_passedLeaf hSound hPassed2
  · exact List.mem_append_left _ hCsc
  · rw [cluster_of_mem_leavesOf hLeaf]
    simp
  · exact List.mem_flatMap.mpr ⟨cpcId, hMem, hLeaf⟩

/- The clusters and leaves of some requested CPCs. -/
theorem grown_passedCpcs
    {clusters : List String}
    (hSound : Sound world.tree)
    (hPassed : Passed publicKey env world clusters [] m)
    (hCsc : "csc" ∈ clusters) :
    Grown env
      (Shell.Script.forEach request.cpcIds
        (generateCpc publicKey request))
      (Safely publicKey env (RunNew publicKey env world.tree))
      (RunTame publicKey env outputRoot request world)
      (fun _ =>
        Passed publicKey env world
          (clusters ++
            request.cpcIds.map
              (fun cpcId => cpcCluster cpcId.val))
          request.leaves)
      m := by
  apply grown_forEach
    (fun passed =>
      Passed publicKey env world
        (clusters ++
          passed.map (fun cpcId => cpcCluster cpcId.val))
        (passed.flatMap request.leavesOf))
  · simpa using hPassed
  intro passed cpcId rest m1 hItems _ hPassed1
  have hMem : cpcId ∈ request.cpcIds := by
    rw [hItems]
    simp
  rw [List.map_append, ← List.append_assoc,
    List.flatMap_append, List.flatMap_singleton]
  exact grown_passedCpc hSound hPassed1
    (List.mem_append_left _ hCsc) hMem

end GenerateNkeys

------------------------------------------------------------
-- The Run
------------------------------------------------------------

namespace GenerateNkeys

open Shell (Environment wp)

variable {publicKey : String → String}
variable {env : Environment Answer}
variable {outputRoot : String}
variable {request : Request}
variable {world : World}
variable {m : Machine}

/- At the start of a run nothing has been passed. -/
theorem passed_start
    (hWorld : m.world = world)
    (hClean : ¬ Spoiled m) :
    Passed publicKey env world [] [] m := by
  constructor
  · rw [hWorld]
    exact Growth.refl _
  · simp
  · intro cluster hStarted
    rw [hWorld] at hStarted
    exact Or.inl hStarted
  · intro leaf hStarted
    rw [hWorld] at hStarted
    exact Or.inl hStarted
  · simp
  · simp
  · intro hSpoiled
    exact absurd hSpoiled hClean
  · exact fun _ => hClean
  · intro hTidy
    rw [hWorld]
    exact hTidy
  · simp

/- The root of the tree is not the beginning of anything. -/
theorem passed_root
    {m' : Machine}
    (hPassed : Passed publicKey env world [] [] m)
    (hGrows :
      Grows (DirsOf []) m.world.tree m'.world.tree)
    (hQuiet : Quiet m m')
    (hTidy : Tidy m.world → Tidy m'.world) :
    Passed publicKey env world [] [] m' := by
  have hSame :
      ∀ p, p ≠ [] → m'.world.tree p = m.world.tree p := by
    intro p hSome
    apply hGrows.same
    intro node hNew
    exact hSome (List.prefix_nil.mp hNew.1)
  constructor
  · exact Growth.trans hPassed.grows (safely_of_root hGrows)
  · simp
  · intro cluster hStarted
    rw [hSame _ (by simp [nkeysDir])] at hStarted
    exact hPassed.started cluster hStarted
  · intro leaf hStarted
    apply hPassed.startedLeaves leaf
    intro hFresh
    apply hStarted
    exact
      ⟨(hSame _ (by simp [Leaf.cscDir, secretDir])).trans
          hFresh.1,
        (hSame _ (by simp [Leaf.cpcDir, secretDir])).trans
          hFresh.2⟩
  · simp
  · simp
  · intro hSpoiled
    exact (hPassed.lost (hQuiet.spoiled.mp hSpoiled)).imp
      (by simp) (by simp)
  · intro hWorks hSpoiled
    exact hPassed.works hWorks (hQuiet.spoiled.mp hSpoiled)
  · intro hStart
    exact hTidy (hPassed.tidy hStart)
  · simp

theorem grown_generate
    (hSound : Sound world.tree)
    (hPassed : Passed publicKey env world [] [] m) :
    Grown env (generate publicKey outputRoot request)
      (Safely publicKey env (RunNew publicKey env world.tree))
      (RunTame publicKey env outputRoot request world)
      (fun _ =>
        Passed publicKey env world request.clusters
          request.leaves)
      m := by
  unfold generate
  apply grown_seq
    (R := fun _ => Passed publicKey env world [] [])
  · unfold prepareOutputRoot
    split
    · rename_i hUnsafe
      apply grown_exit
      intro hTame
      rcases hUnsafe with hEmpty | hRoot
      · exact absurd hEmpty hTame.root.1
      · exact absurd hRoot hTame.root.2
    · apply grown_mono (grown_makeDir (by simp))
      · intro tree hGrows
        exact safely_of_root hGrows
      · intro _ p hPrefix
        rw [List.prefix_nil.mp hPrefix]
        rcases (hPassed.sound hSound).dir_of_length
            (p := []) (by simp) with
          hNone | hDir
        · rw [hNone]
          rfl
        · rw [hDir]
          rfl
      · intro _ m' hGrows hDone
        exact passed_root hPassed hGrows hDone.2.1 hDone.2.2
  intro _ m1 _ hRoot
  apply grown_seq (grown_passedCluster "csc" hSound hRoot)
  intro _ m2 _ hCsc
  apply grown_seq (grown_passedCpcs hSound hCsc (by simp))
  intro _ m3 _ hAll
  apply grown_must
  · intro answer changed hSome
    rw [← Option.some.inj hSome]
    refine ⟨Growth.refl _, ?_⟩
    exact hAll.of_quiet rfl
      (quiet_record (fun hSpoils => hSpoils)
        (fun hModes => hModes))
  · intro _
    simp

theorem grown_lookup
    {G : Tree → Tree → Prop}
    [Growth G]
    {Tame : Prop}
    (tool : String) :
    Grown env (attempt (.lookup tool) some) G Tame
      (fun ok m' =>
        m'.world = m.world ∧ Quiet m m' ∧
          (ok = false → ¬ Works env))
      m := by
  apply wp_attempt_some
  · intro hKills
    exact halts_killed hKills
  intro answer hAnswer
  refine ⟨Growth.refl _, rfl,
    quiet_record (fun hSpoils => hSpoils)
      (fun hModes => hModes), ?_⟩
  intro hFailed hWorks
  rw [hAnswer, hWorks.ok] at hFailed
  simp at hFailed

theorem grown_checkPrerequisites
    {G : Tree → Tree → Prop}
    [Growth G]
    {Tame : Prop} :
    Grown env checkPrerequisites G Tame
      (fun _ m' => m'.world = m.world ∧ Quiet m m') m := by
  unfold checkPrerequisites
  apply grown_seq (grown_lookup "nsc")
  intro nsc m1 _ hNsc
  apply grown_seq (grown_lookup "nk")
  intro nk m2 _ hNk
  have hBoth : m2.world = m.world ∧ Quiet m m2 :=
    ⟨hNk.1.trans hNsc.1, hNsc.2.1.trans hNk.2.1⟩
  cases nsc with
  | false => exact grown_exit (fun _ => hNsc.2.2 rfl)
  | true =>
      cases nk with
      | false => exact grown_exit (fun _ => hNk.2.2 rfl)
      | true => exact grown_pure hBoth

/- The trap is no matter of the tree. -/
theorem grown_trapExit
    {script : Script Unit}
    {G : Tree → Tree → Prop}
    {Tame : Prop}
    {clusters : List String}
    {leaves : List Leaf}
    (hScript :
      Grown env script G Tame
        (fun _ =>
          Passed publicKey env world clusters leaves) m) :
    Grown env (Shell.Script.trapExit cleanup script) G Tame
      (fun _ =>
        Passed publicKey env world clusters leaves) m := by
  apply Shell.wp_trapExit hScript
  · intro _ m' hAt
    refine ⟨hAt.1, hAt.2.of_quiet rfl ?_⟩
    exact
      { modes := fun hModes => hModes
        spoiled := Iff.rfl }
  · intro code m' hHalts
    exact
      { stopped := hHalts.stopped
        grows := hHalts.grows
        rough := hHalts.rough }
  · intro m' hHalts
    exact hHalts

/-
  A run from any sound tree, whichever way it ends: what it
  adds, what it has reached, and when it goes to the end.
-/
theorem grown_run
    (publicKey : String → String)
    (outputRoot : String)
    (request : Request)
    (env : Environment Answer)
    (wrongModes : List Path)
    {tree : Tree}
    (hSound : Sound tree) :
    Grown env (run publicKey outputRoot request)
      (Safely publicKey env (RunNew publicKey env tree))
      (RunTame publicKey env outputRoot request
        (start tree wrongModes).world)
      (fun _ =>
        Passed publicKey env (start tree wrongModes).world
          request.clusters request.leaves)
      (start tree wrongModes) := by
  unfold run
  apply grown_seq grown_checkPrerequisites
  intro _ m1 _ hChecked
  have hNew : ¬ Spoiled (start tree wrongModes) := by
    simp [Spoiled, start]
  have hClean : ¬ Spoiled m1 := by
    rw [hChecked.2.spoiled]
    exact hNew
  apply grown_trapExit
  exact grown_generate hSound
    (passed_start hChecked.1 hClean)

end GenerateNkeys
