import DsxExchange.GenerateNkeys.Run

/-
  The trees that runs can leave, each with any request, ended
  by any failure and interrupted anywhere.

  Key definitions include:
    * `GenerateNkeys.Reached`
    * `GenerateNkeys.Leaf.Broken`
    * `GenerateNkeys.StartComplete`

  Key theorems include:
    * `GenerateNkeys.safely_run`
    * `GenerateNkeys.complete_of_works`
    * `GenerateNkeys.secrets_kept_of_reached`
    * `GenerateNkeys.complete_iff_of_reached`
-/

------------------------------------------------------------
-- Runs After Runs
------------------------------------------------------------

namespace GenerateNkeys

open Shell (Environment)

/- The trees that some runs leave, from an empty one. -/
inductive Reached
    (publicKey : String → String)
    (outputRoot : String)
    (Behaves : Environment Answer → Prop) : Tree → Prop
| empty : Reached publicKey outputRoot Behaves (fun _ => none)
| run {tree : Tree}
    (hTree : Reached publicKey outputRoot Behaves tree)
    (request : Request)
    (env : Environment Answer)
    (hBehaves : Behaves env)
    (wrongModes : List Path) :
    Reached publicKey outputRoot Behaves
      (GenerateNkeys.run publicKey outputRoot request env
        (start tree wrongModes)).2.world.tree

variable {publicKey : String → String}
variable {outputRoot : String}
variable {Behaves : Environment Answer → Prop}
variable {request : Request}
variable {env : Environment Answer}
variable {tree : Tree}

/- What a run has added by its end. -/
theorem safely_run
    (publicKey : String → String)
    (outputRoot : String)
    (request : Request)
    (env : Environment Answer)
    (wrongModes : List Path)
    (hSound : Sound tree) :
    Safely publicKey env (RunNew publicKey env tree) tree
      (run publicKey outputRoot request env
        (start tree wrongModes)).2.world.tree := by
  have hRun :=
    grown_run publicKey outputRoot request env wrongModes hSound
  have hEither :
      Shell.wp env (run publicKey outputRoot request)
        (fun _ m' =>
          Safely publicKey env (RunNew publicKey env tree)
            tree m'.world.tree)
        (fun _ m' =>
          Safely publicKey env (RunNew publicKey env tree)
            tree m'.world.tree)
        (start tree wrongModes) := by
    apply Shell.wp_mono hRun
    · intro _ m' hAt
      exact hAt.1
    · intro how m' hHalts
      exact hHalts.grows
  exact Shell.wp_elim hEither

theorem sound_of_reached
    (hTree : Reached publicKey outputRoot Behaves tree) :
    Sound tree := by
  induction hTree with
  | empty => exact sound_empty
  | run hTree request env hBehaves wrongModes ih =>
      have hSafely :=
        safely_run publicKey outputRoot request env wrongModes
          ih
      exact ih.grows hSafely.1 nodeOk_of_runNew

/- Pairs match in every tree that is reached. -/
theorem matched_of_reached
    (hTree :
      Reached publicKey outputRoot (Honest publicKey) tree) :
    Matched publicKey tree := by
  induction hTree with
  | empty =>
      intro leaf seed pubkey hSeed
      simp at hSeed
  | run hTree request env hBehaves wrongModes ih =>
      have hSafely :=
        safely_run publicKey outputRoot request env wrongModes
          (sound_of_reached hTree)
      exact hSafely.2 hBehaves ih

end GenerateNkeys

------------------------------------------------------------
-- Runs Where Everything Works
------------------------------------------------------------

namespace GenerateNkeys

open Shell (Environment)

variable {publicKey : String → String}
variable {outputRoot : String}
variable {request : Request}
variable {env : Environment Answer}

/- Such a run goes to its end and loses no pair. -/
theorem done_of_tame
    {tree : Tree}
    {wrongModes : List Path}
    (hSound : Sound tree)
    (hTame :
      RunTame publicKey env outputRoot request
        (start tree wrongModes).world)
    (hWorks : Works env) :
    let last :=
      run publicKey outputRoot request env
        (start tree wrongModes)
    last.1 = .done () ∧ ∀ step ∈ last.2.trace, ¬ Spoils step := by
  intro last
  have hRun :=
    grown_run publicKey outputRoot request env wrongModes hSound
  cases hEnding : last.1 with
  | stopped how =>
      have hHalts := Shell.wp_elim_stopped hRun hEnding
      exact absurd hWorks (hHalts.rough hTame)
  | done value =>
      have hDone := Shell.wp_elim_done hRun hEnding
      refine ⟨rfl, ?_⟩
      intro step hStep hSpoils
      exact hDone.2.works hWorks ⟨step, hStep, hSpoils⟩

/- And it has been through all that it was asked for. -/
theorem passed_of_tame
    {tree : Tree}
    {wrongModes : List Path}
    (hSound : Sound tree)
    (hTame :
      RunTame publicKey env outputRoot request
        (start tree wrongModes).world)
    (hWorks : Works env) :
    Passed publicKey env (start tree wrongModes).world
      request.clusters request.leaves
      (run publicKey outputRoot request env
        (start tree wrongModes)).2 := by
  have hRun :=
    grown_run publicKey outputRoot request env wrongModes hSound
  have hDone := done_of_tame hSound hTame hWorks
  exact (Shell.wp_elim_done hRun hDone.1).2

theorem consistent_empty (leaf : Leaf) :
    leaf.outputs (fun _ => none) ≠ .inconsistent := by
  rw [outputs_of_fresh sound_empty ⟨rfl, rfl⟩]
  simp

/- The empty tree is as good a start as there is. -/
theorem runTame_empty
    (request : Request)
    (outputRoot : String)
    (hRoot : outputRoot ≠ "" ∧ outputRoot ≠ "/")
    (hHonest : Honest publicKey env) :
    RunTame publicKey env outputRoot request
      (start (fun _ => none) []).world := by
  constructor
  · exact hRoot
  · exact
      { modes := rfl
        names := fun _ _ => rfl }
  · exact hHonest
  · intro leaf seed pubkey hSeed
    simp [start] at hSeed
  · intro leaf _
    exact consistent_empty leaf

/- So is what one such run leaves, for the next request. -/
theorem runTame_next
    {tree : Tree}
    {wrongModes : List Path}
    (hSound : Sound tree)
    (hTame :
      RunTame publicKey env outputRoot request
        (start tree wrongModes).world)
    (hWorks : Works env)
    (next : Request)
    (hConsistent :
      ∀ leaf ∈ next.leaves,
        leaf.outputs tree ≠ .inconsistent) :
    RunTame publicKey env outputRoot next
      (start
        (run publicKey outputRoot request env
          (start tree wrongModes)).2.world.tree
        []).world := by
  have hPassed := passed_of_tame hSound hTame hWorks
  constructor
  · exact hTame.root
  · exact
      { modes := rfl
        names := (hPassed.tidy hTame.tidy).names }
  · exact hTame.honest
  · exact hPassed.grows.2 hTame.honest hTame.matched
  · intro leaf hMem
    exact hPassed.outputs_consistent hSound hWorks
      (hConsistent leaf hMem)

/- From nothing, such a run makes all that is asked for. -/
theorem complete_of_works
    (request : Request)
    (outputRoot : String)
    (hRoot : outputRoot ≠ "" ∧ outputRoot ≠ "/")
    (hHonest : Honest publicKey env)
    (hWorks : Works env) :
    let last :=
      run publicKey outputRoot request env
        (start (fun _ => none) [])
    last.1 = .done () ∧ Complete request last.2.world.tree := by
  intro last
  have hTame :=
    runTame_empty request outputRoot hRoot hHonest
  have hDone := done_of_tame sound_empty hTame hWorks
  have hPassed := passed_of_tame sound_empty hTame hWorks
  have hClean : ¬ Spoiled last.2 := hPassed.works hWorks
  refine ⟨hDone.1, ?_, ?_⟩
  · intro cluster hMem
    exact hPassed.complete hClean cluster hMem rfl
  · intro leaf hMem
    exact hPassed.completeLeaves hClean leaf hMem

end GenerateNkeys

------------------------------------------------------------
-- A Concrete Environment
------------------------------------------------------------

namespace GenerateNkeys

open Shell (Environment)

/- The lines of `nsc`, and what `nk` derives from the first. -/
def samplePair (type : KeyType) : String × String :=
  (type.seedPrefix ++ "AB", type.pubkeyPrefix ++ "AB")

def sampleKey (seed : String) : String :=
  String.ofList (seed.toList.drop 1)

/- All commands succeed but those with the given numbers. -/
def sampleEnv
    (stop : Option ℕ)
    (failing : List ℕ) : Environment Answer where
  answer n :=
    { ok := n ∉ failing
      name := toString n
      printed := samplePair }
  stop := stop

def onlyCsc : Request where
  cpcIds := []
  extraAccounts := []
  distinctTokens := List.nodup_nil

def cpcOne : CpcId :=
  ⟨"1", (validateCpcId_ok_iff _).mpr (by decide)⟩

def withCpcOne : Request where
  cpcIds := [cpcOne]
  extraAccounts := []
  distinctTokens := List.nodup_nil

theorem samplePair_ok (type : KeyType) :
    isNkeyPair type (strip (samplePair type).1)
        (strip (samplePair type).2) = true ∧
      sampleKey (strip (samplePair type).1) =
        strip (samplePair type).2 := by
  cases type with
  | account => decide
  | curve => decide
  | user => decide

theorem honest_sampleEnv
    (stop : Option ℕ)
    (failing : List ℕ) :
    Honest sampleKey (sampleEnv stop failing) :=
  fun _ type _ => (samplePair_ok type).2

theorem works_sampleEnv : Works (sampleEnv none []) where
  goesOn := rfl
  ok _ := rfl
  valid _ type := (samplePair_ok type).1

/- The tree after one more run with the sample keys. -/
def nextTree
    (request : Request)
    (stop : Option ℕ)
    (tree : Tree) : Tree :=
  (run sampleKey "secrets" request (sampleEnv stop [])
    (start tree [])).2.world.tree

/- What a whole run for the CSC leaves. -/
def cscTree : Tree :=
  nextTree onlyCsc none (fun _ => none)

/- Two runs, killed before the first secret of their cluster. -/
def startedTree : Tree :=
  nextTree withCpcOne (some 10)
    (nextTree onlyCsc (some 8) (fun _ => none))

/- One more, killed between the two halves of a leaf. -/
def halfDoneTree : Tree :=
  nextTree withCpcOne (some 21) startedTree

theorem reached_nextTree
    {tree : Tree}
    (hTree :
      Reached sampleKey "secrets" (Honest sampleKey) tree)
    (request : Request)
    (stop : Option ℕ) :
    Reached sampleKey "secrets" (Honest sampleKey)
      (nextTree request stop tree) :=
  Reached.run hTree request _ (honest_sampleEnv _ _) []

theorem reached_cscTree :
    Reached sampleKey "secrets" (Honest sampleKey) cscTree :=
  reached_nextTree Reached.empty onlyCsc none

theorem reached_halfDoneTree :
    Reached sampleKey "secrets" (Honest sampleKey)
      halfDoneTree :=
  reached_nextTree
    (reached_nextTree
      (reached_nextTree Reached.empty onlyCsc (some 8))
      withCpcOne (some 10))
    withCpcOne (some 21)

end GenerateNkeys

------------------------------------------------------------
-- Secrets Are Kept
------------------------------------------------------------

namespace GenerateNkeys

open Shell (Environment)

variable {publicKey : String → String}
variable {outputRoot : String}
variable {tree : Tree}

def HasHalf (tree : Tree) (path : Path) : Prop :=
  ∃ content, tree path = some (.file content) ∧ content ≠ ""

/-
  Only one half of the pair is there, or none is although the
  directory of a secret exists.
-/
def Leaf.Broken (leaf : Leaf) (tree : Tree) : Prop :=
  (HasHalf tree leaf.cscPubkey ∧
      ¬ HasHalf tree leaf.cpcSeed) ∨
    (¬ HasHalf tree leaf.cscPubkey ∧
      HasHalf tree leaf.cpcSeed) ∨
    (¬ HasHalf tree leaf.cscPubkey ∧
      ¬ HasHalf tree leaf.cpcSeed ∧
      (tree leaf.cscDir ≠ none ∨ tree leaf.cpcDir ≠ none))

/- The script recognizes every broken leaf. -/
theorem outputs_of_broken
    {leaf : Leaf}
    (hSound : Sound tree)
    (hBroken : leaf.Broken tree) :
    leaf.outputs tree = .inconsistent := by
  have hCsc :
      hasContent leaf.cscPubkey tree = true ↔
        HasHalf tree leaf.cscPubkey :=
    hasContent_iff hSound rfl
  have hCpc :
      hasContent leaf.cpcSeed tree = true ↔
        HasHalf tree leaf.cpcSeed :=
    hasContent_iff hSound rfl
  cases hOutputs : leaf.outputs tree with
  | inconsistent => rfl
  | complete =>
      have hBoth := hasContent_of_complete hOutputs
      rw [hCsc, hCpc] at hBoth
      rcases hBroken with hOne | hOther | hNone
      · exact absurd hBoth.2 hOne.2
      · exact absurd hBoth.1 hOther.1
      · exact absurd hBoth.1 hNone.1
  | fresh =>
      have hFresh := outputs_fresh hOutputs
      have hNoCsc : ¬ HasHalf tree leaf.cscPubkey := by
        intro hHalf
        rcases hHalf with ⟨content, hFile, _⟩
        rw [Leaf.cscPubkey, hSound.below_none hFresh.1] at hFile
        simp at hFile
      have hNoCpc : ¬ HasHalf tree leaf.cpcSeed := by
        intro hHalf
        rcases hHalf with ⟨content, hFile, _⟩
        rw [Leaf.cpcSeed, hSound.below_none hFresh.2] at hFile
        simp at hFile
      rcases hBroken with hOne | hOther | hNone
      · exact absurd hOne.1 hNoCsc
      · exact absurd hOther.2 hNoCpc
      · rcases hNone.2.2 with hStarted | hStarted
        · exact absurd hFresh.1 hStarted
        · exact absurd hFresh.2 hStarted

/- A run that goes to its end has met no broken leaf. -/
theorem stops_of_broken
    (hSound : Sound tree)
    (request : Request)
    (env : Environment Answer)
    (wrongModes : List Path)
    {leaf : Leaf}
    (hMem : leaf ∈ request.leaves)
    (hBroken : leaf.Broken tree) :
    let last :=
      run publicKey outputRoot request env
        (start tree wrongModes)
    last.1 = .stopped (.exited 1) ∨
      (last.1 = .stopped .killed ∧ env.stop ≠ none) := by
  intro last
  have hRun :=
    grown_run publicKey outputRoot request env wrongModes hSound
  cases hEnding : last.1 with
  | done value =>
      have hDone := Shell.wp_elim_done hRun hEnding
      exact absurd (outputs_of_broken hSound hBroken)
        (hDone.2.consistent leaf hMem)
  | stopped how =>
      have hHalts := Shell.wp_elim_stopped hRun hEnding
      rcases hHalts.stopped with ⟨hHow, hStop⟩ | hHow
      · rw [hHow]
        exact Or.inr ⟨rfl, hStop⟩
      · rw [hHow]
        exact Or.inl rfl

theorem broken_unchanged
    {after : Tree}
    {env : Environment Answer}
    {leaf : Leaf}
    (hSound : Sound tree)
    (hBroken : leaf.Broken tree)
    (hSafely :
      Safely publicKey env (RunNew publicKey env tree)
        tree after)
    {p : Path}
    (hUnder : UnderLeaf leaf p) :
    after p = tree p := by
  have hStarted : ¬ Fresh leaf tree := by
    intro hFresh
    have hOutputs := outputs_of_broken hSound hBroken
    rw [outputs_of_fresh hSound hFresh] at hOutputs
    simp at hOutputs
  exact hSafely.1.same (not_runNew_underLeaf hStarted hUnder)

/-
  After any runs the pairs match, and one more run keeps every
  content, and neither goes on with a broken leaf nor changes
  anything of it.
-/
theorem secrets_kept_of_reached
    (hTree :
      Reached publicKey outputRoot (Honest publicKey) tree) :
    Matched publicKey tree ∧
      ∀ (request : Request) (env : Environment Answer)
        (wrongModes : List Path),
        Honest publicKey env →
          let last :=
            run publicKey outputRoot request env
              (start tree wrongModes)
          (∀ p content,
            tree p = some (.file content) →
              content ≠ "" →
                last.2.world.tree p = some (.file content)) ∧
          ∀ leaf ∈ request.leaves,
            leaf.Broken tree →
              (last.1 = .stopped (.exited 1) ∨
                (last.1 = .stopped .killed ∧
                  env.stop ≠ none)) ∧
              ∀ p,
                UnderLeaf leaf p →
                  last.2.world.tree p = tree p := by
  have hSound := sound_of_reached hTree
  refine ⟨matched_of_reached hTree, ?_⟩
  intro request env wrongModes _ last
  have hSafely :=
    safely_run publicKey outputRoot request env wrongModes
      hSound
  constructor
  · intro p content hFile _
    exact hSafely.1.keeps hFile
  · intro leaf hMem hBroken
    refine ⟨stops_of_broken hSound request env wrongModes hMem
      hBroken, ?_⟩
    intro p hUnder
    exact broken_unchanged hSound hBroken hSafely hUnder

/- The next run finds one half and stops. -/
theorem secrets_kept_halfDoneTree :
    halfDoneTree (builtInLeaf cpcOne).cscPubkey =
        some (.file "UAB") ∧
      (run sampleKey "secrets" withCpcOne (sampleEnv none [])
        (start halfDoneTree [])).1 = .stopped (.exited 1) := by
  have hPubkey :
      halfDoneTree (builtInLeaf cpcOne).cscPubkey =
        some (.file "UAB") := by
    decide +kernel
  have hSeed :
      halfDoneTree (builtInLeaf cpcOne).cpcSeed = none := by
    decide +kernel
  have hBroken : (builtInLeaf cpcOne).Broken halfDoneTree := by
    apply Or.inl
    constructor
    · exact ⟨"UAB", hPubkey, by decide⟩
    · intro hHalf
      rcases hHalf with ⟨content, hFile, _⟩
      rw [hSeed] at hFile
      simp at hFile
  refine ⟨hPubkey, ?_⟩
  have hKept :=
    (secrets_kept_of_reached reached_halfDoneTree).2 withCpcOne
      (sampleEnv none []) [] (honest_sampleEnv _ _)
  have hStops :=
    (hKept.2 (builtInLeaf cpcOne)
      (by simp [Request.leaves, Request.leavesOf, withCpcOne])
      hBroken).1
  rcases hStops with hExited | hKilled
  · exact hExited
  · exact absurd rfl hKilled.2

end GenerateNkeys

------------------------------------------------------------
-- Success And Completeness
------------------------------------------------------------

namespace GenerateNkeys

open Shell (Environment)

variable {publicKey : String → String}
variable {outputRoot : String}
variable {Behaves : Environment Answer → Prop}
variable {tree : Tree}

/- No requested cluster has been started and not finished. -/
def StartComplete (request : Request) (tree : Tree) : Prop :=
  ∀ cluster ∈ request.clusters,
    tree (nkeysDir cluster) = none ∨ BaseComplete cluster tree

theorem not_baseEmpty_of_baseComplete
    {cluster : String}
    (hComplete : BaseComplete cluster tree) :
    ¬ BaseEmpty cluster tree := by
  intro hEmpty
  rcases hEmpty with ⟨file, hMem, hFile⟩
  rcases hComplete file hMem with ⟨content, hContent, hSome, _⟩
  rw [hFile] at hContent
  have hEq := Node.file.inj (Option.some.inj hContent)
  exact hSome hEq.symm

theorem not_leafEmpty_of_leafComplete
    {leaf : Leaf}
    (hComplete : LeafComplete leaf tree) :
    ¬ LeafEmpty leaf tree := by
  intro hFile
  rcases hComplete.1 with ⟨content, hContent, hSome, _⟩
  unfold LeafEmpty at hFile
  rw [hFile] at hContent
  have hEq := Node.file.inj (Option.some.inj hContent)
  exact hSome hEq.symm

/-
  A run that reports success, after any runs, has left all the
  secrets of its request exactly when it has found no cluster
  half finished and has lost no key pair.
-/
theorem complete_iff_of_reached
    (hTree : Reached publicKey outputRoot Behaves tree)
    (request : Request)
    (env : Environment Answer)
    (wrongModes : List Path)
    (hDone :
      (run publicKey outputRoot request env
        (start tree wrongModes)).1 = .done ()) :
    Complete request
        (run publicKey outputRoot request env
          (start tree wrongModes)).2.world.tree ↔
      StartComplete request tree ∧
        ∀ step ∈
          (run publicKey outputRoot request env
            (start tree wrongModes)).2.trace,
          ¬ Spoils step := by
  have hSound := sound_of_reached hTree
  have hRun :=
    grown_run publicKey outputRoot request env wrongModes hSound
  have hPassed := (Shell.wp_elim_done hRun hDone).2
  have hGrows := hPassed.grows.1
  constructor
  · intro hComplete
    constructor
    · intro cluster hMem
      by_cases hNone : tree (nkeysDir cluster) = none
      · exact Or.inl hNone
      · apply Or.inr
        intro file hFile
        have hUsable := hComplete.1 cluster hMem file hFile
        unfold Usable at hUsable
        rw [hGrows.same
          (not_runNew_underBase hNone
            (underBase_path hFile cluster))] at hUsable
        exact hUsable
    · intro step hStep hSpoils
      rcases hPassed.lost ⟨step, hStep, hSpoils⟩ with
        ⟨cluster, hMem, hEmpty⟩ | ⟨leaf, hMem, hEmpty⟩
      · exact not_baseEmpty_of_baseComplete
          (hComplete.1 cluster hMem) hEmpty
      · exact not_leafEmpty_of_leafComplete
          (hComplete.2 leaf hMem) hEmpty
  · intro hBoth
    have hClean :
        ¬ Spoiled
          (run publicKey outputRoot request env
            (start tree wrongModes)).2 := by
      intro hSpoiled
      rcases hSpoiled with ⟨step, hStep, hSpoils⟩
      exact hBoth.2 step hStep hSpoils
    constructor
    · intro cluster hMem
      rcases hBoth.1 cluster hMem with hNone | hComplete
      · exact hPassed.complete hClean cluster hMem hNone
      · exact hComplete.grows hGrows
    · intro leaf hMem
      exact hPassed.completeLeaves hClean leaf hMem

/- One that works, after one for another list, leaves them all. -/
theorem complete_withCpcOne :
    Complete withCpcOne
      (run sampleKey "secrets" withCpcOne (sampleEnv none [])
        (start cscTree [])).2.world.tree := by
  have hRoot : "secrets" ≠ "" ∧ "secrets" ≠ "/" := by
    decide
  have hHonest := honest_sampleEnv none []
  have hFirst :=
    runTame_empty onlyCsc "secrets" hRoot hHonest
  have hPassed := passed_of_tame sound_empty hFirst works_sampleEnv
  have hCsc : Complete onlyCsc cscTree :=
    (complete_of_works onlyCsc "secrets" hRoot hHonest
      works_sampleEnv).2
  have hTame :=
    runTame_next sound_empty hFirst works_sampleEnv withCpcOne
      (fun leaf _ => consistent_empty leaf)
  have hRun :=
    done_of_tame (sound_of_reached reached_cscTree) hTame
      works_sampleEnv
  apply
    (complete_iff_of_reached reached_cscTree withCpcOne
      (sampleEnv none []) [] hRun.1).mpr
  constructor
  · intro cluster hMem
    by_cases hOld : cluster ∈ onlyCsc.clusters
    · exact Or.inr (hCsc.1 cluster hOld)
    · apply Or.inl
      by_contra hSome
      rcases hPassed.started cluster hSome with hEmpty | hStarted
      · exact hEmpty rfl
      · exact hOld hStarted
  · exact hRun.2

theorem not_complete_of_empty
    {request : Request}
    {cluster : String}
    {file : BaseFile}
    (hCluster : cluster ∈ request.clusters)
    (hFile : file ∈ baseFiles)
    (hEmpty :
      ∀ content,
        tree (file.path cluster) = some (.file content) →
          content = "") :
    ¬ Complete request tree := by
  intro hComplete
  rcases hComplete.1 cluster hCluster file hFile with
    ⟨content, hContent, hSome, _⟩
  exact hSome (hEmpty content hContent)

/- The first call of `nsc` fails. -/
def failedRun : Shell.Ending Unit × Machine :=
  run sampleKey "secrets" onlyCsc (sampleEnv none [10])
    (start (fun _ => none) [])

/- A run after one that was killed before its first secret. -/
def laterRun : Shell.Ending Unit × Machine :=
  run sampleKey "secrets" onlyCsc (sampleEnv none [])
    (start (nextTree onlyCsc (some 8) (fun _ => none)) [])

/- Both report success without all the secrets. -/
theorem not_complete_failedRun_laterRun :
    (failedRun.1 = .done () ∧
        ¬ Complete onlyCsc failedRun.2.world.tree) ∧
      laterRun.1 = .done () ∧
        ¬ Complete onlyCsc laterRun.2.world.tree := by
  let file : BaseFile :=
    ⟨"nats-auth-signing", "seed", .authSigning, .seed⟩
  have hFile : file ∈ baseFiles := by
    decide
  have hFailed :
      failedRun.2.world.tree (file.path "csc") =
        some (.file "") := by
    decide +kernel
  have hLater :
      laterRun.2.world.tree (file.path "csc") = none := by
    decide +kernel
  refine ⟨⟨by decide +kernel, ?_⟩, by decide +kernel, ?_⟩
  · apply not_complete_of_empty List.mem_cons_self hFile
    intro content hContent
    rw [hFailed] at hContent
    simpa using hContent.symm
  · apply not_complete_of_empty List.mem_cons_self hFile
    intro content hContent
    rw [hLater] at hContent
    simp at hContent

end GenerateNkeys
