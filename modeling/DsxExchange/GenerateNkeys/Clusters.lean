import DsxExchange.GenerateNkeys.Sound

/-
  One cluster's own secrets: what `generate_cluster` leaves,
  wherever it ends.

  Key definitions include:
    * `GenerateNkeys.Progress`
    * `GenerateNkeys.BaseEmpty`

  Key theorems include:
    * `GenerateNkeys.grown_generateBaseKeys`
    * `GenerateNkeys.grown_generateBaseClusterSecrets`
    * `GenerateNkeys.grown_generateCluster`
-/

------------------------------------------------------------
-- The Directories Of A Cluster
------------------------------------------------------------

namespace GenerateNkeys

open Shell (Environment wp)

variable {env : Environment Answer}
variable {m : Machine}

/- No directory on the way to an entry is hidden. -/
theorem not_hidden_of_length
    {p : Path}
    (hLength : p.length ≤ 3) :
    ¬ Hidden p := by
  intro hHidden
  rcases hHidden with ⟨cluster, secretName, name, hEq⟩
  rw [hEq] at hLength
  simp [secretFile] at hLength

/- A directory made in the main shell, with mode 700. -/
theorem grown_makeDir
    {path : Path}
    (hLength : path.length ≤ 3) :
    Grown env
      (do
        must (.mkdir path) (mkdir path)
        must (.chmod path) (chmod path))
      (Grows (DirsOf path))
      (∀ p, p <+: path → isFile (m.world.tree p) = false)
      (fun _ m' =>
        (∀ p, p <+: path → m'.world.tree p = some .dir) ∧
          Quiet m m' ∧ (Tidy m.world → Tidy m'.world))
      m := by
  apply grown_seq
    (R := fun _ m' =>
      (∀ p, p <+: path → m'.world.tree p = some .dir) ∧
        Quiet m m' ∧ (Tidy m.world → Tidy m'.world))
  · apply grown_must
    · intro answer changed hMkdir
      rcases mkdir_some hMkdir with ⟨hGrows, hDirs, hModes⟩
      refine ⟨hGrows, hDirs, ?_, ?_⟩
      · refine quiet_record (fun hSpoils => hSpoils) ?_
        intro hNone
        rw [hModes, hNone]
      · intro hTidy
        constructor
        · dsimp only [Shell.Script.record]
          rw [hModes, hTidy.modes]
        · intro p hHidden
          dsimp only [Shell.Script.record]
          rw [hGrows.same, hTidy.names p hHidden]
          intro node hNew
          have hShort := hNew.1.length_le
          exact not_hidden_of_length (by omega) hHidden
    · intro hTame
      exact mkdir_ne_none hTame
  intro _ m1 _ hMade
  apply grown_must
  · intro answer changed hChmod
    have hBoth := chmod_some hChmod
    refine ⟨?_, ?_, ?_, ?_⟩
    · rw [hBoth.1]
      exact Growth.refl _
    · intro p hPrefix
      dsimp only [Shell.Script.record]
      rw [hBoth.1, hMade.1 p hPrefix]
    · exact hMade.2.1.trans
        (quiet_record (fun hSpoils => hSpoils) hBoth.2)
    · intro hTidy
      have hBefore := hMade.2.2 hTidy
      constructor
      · exact hBoth.2 hBefore.modes
      · intro p hHidden
        dsimp only [Shell.Script.record]
        rw [hBoth.1, hBefore.names p hHidden]
  · intro _
    apply chmod_ne_none
    rw [hMade.1 path List.prefix_rfl]
    simp

theorem grown_prepareOutputDir (cluster : String) :
    Grown env (prepareOutputDir cluster)
      (Grows (DirsOf (nkeysDir cluster)))
      (∀ p, p <+: nkeysDir cluster →
        isFile (m.world.tree p) = false)
      (fun _ m' =>
        Ready cluster m'.world.tree ∧
          Quiet m m' ∧ (Tidy m.world → Tidy m'.world))
      m := by
  have hAbove : [cluster] <+: nkeysDir cluster :=
    ⟨["nkeys"], rfl⟩
  have hSplit :
      prepareOutputDir cluster = (do
        (do
          must (.mkdir [cluster]) (mkdir [cluster])
          must (.chmod [cluster]) (chmod [cluster]))
        must (.mkdir (nkeysDir cluster))
          (mkdir (nkeysDir cluster))
        must (.chmod (nkeysDir cluster))
          (chmod (nkeysDir cluster))) := by
    unfold prepareOutputDir
    rw [Shell.bind_assoc]
  rw [hSplit]
  apply grown_seq
    (R := fun _ m' =>
      ((∀ p, p <+: nkeysDir cluster →
          isFile (m.world.tree p) = false) →
        ∀ p, p <+: nkeysDir cluster →
          isFile (m'.world.tree p) = false) ∧
        Quiet m m' ∧ (Tidy m.world → Tidy m'.world))
  · apply grown_mono (grown_makeDir (by simp))
    · intro tree hGrows
      apply hGrows.mono
      intro p node _ _ hNew
      exact ⟨hNew.1.trans hAbove, hNew.2⟩
    · intro hTame p hPrefix
      exact hTame p (hPrefix.trans hAbove)
    · intro _ m' hGrows hAt
      refine ⟨?_, hAt.2⟩
      intro hTame p hPrefix
      rcases hGrows.adds p with hSame | ⟨_, node, hNode, hNew⟩
      · rw [hSame, hTame p hPrefix]
      · rw [hNode, hNew.2]
        rfl
  intro _ m1 _ hFirst
  apply grown_mono (grown_makeDir (by simp [nkeysDir]))
  · intro tree hGrows
    exact hGrows
  · intro hTame
    exact hFirst.1 hTame
  · intro _ m2 _ hSecond
    exact ⟨hSecond.1, hFirst.2.1.trans hSecond.2.1,
      fun hTidy => hSecond.2.2 (hFirst.2.2 hTidy)⟩

end GenerateNkeys

------------------------------------------------------------
-- The Key Pairs Of A Cluster
------------------------------------------------------------

namespace GenerateNkeys

open Shell (Environment wp)

variable {env : Environment Answer}
variable {G : Tree → Tree → Prop} [Growth G]
variable {Tame : Prop}
variable {m : Machine}

/- One more pair after some that may have been lost. -/
theorem grown_readNext
    (publicKey : String → String)
    {α : Type}
    {type : KeyType}
    {next : String × String → Script α}
    {lost : Prop}
    {first : Machine}
    {Q : α → Machine → Prop}
    (hBefore : Loses env lost first m)
    (hNext :
      ∀ pair m',
        PairRead publicKey env type pair →
          Loses env (lost ∨ pair = ("", "")) first m' →
            Grown env (next pair) G Tame Q m') :
    Grown env (readNkeyPair type >>= next) G Tame Q m := by
  apply grown_seq (grown_readNkeyPair publicKey type)
  intro pair m' _ hPair
  exact hNext pair m' hPair.1 (hBefore.trans hPair.2)

/- Every pair has been read, or is lost and empty. -/
theorem grown_generateBaseKeys
    (publicKey : String → String) :
    Grown env generateBaseKeys G Tame
      (fun keys m' =>
        (∀ baseKey,
          PairRead publicKey env baseKey.type
            (keys.get baseKey)) ∧
          Loses env
            (∃ baseKey, keys.get baseKey = ("", "")) m m')
      m := by
  unfold generateBaseKeys
  apply grown_readNext publicKey (Loses.refl m)
  intro authSigning m1 hAuthSigning hLost
  apply grown_readNext publicKey hLost
  intro xkey m2 hXkey hLost
  apply grown_readNext publicKey hLost
  intro authxUser m3 hAuthxUser hLost
  apply grown_readNext publicKey hLost
  intro nackUser m4 hNackUser hLost
  apply grown_readNext publicKey hLost
  intro mtlsLeaf m5 hMtlsLeaf hLost
  apply grown_readNext publicKey hLost
  intro mtlsAuthxLeaf m6 hMtlsAuthxLeaf hLost
  apply grown_readNext publicKey hLost
  intro mtlsSysLeaf m7 hMtlsSysLeaf hLost
  apply grown_readNext publicKey hLost
  intro surveyor m8 hSurveyor hLost
  apply grown_pure
  constructor
  · intro baseKey
    cases baseKey with
    | authSigning => exact hAuthSigning
    | xkey => exact hXkey
    | authxUser => exact hAuthxUser
    | nackUser => exact hNackUser
    | mtlsLeaf => exact hMtlsLeaf
    | mtlsAuthxLeaf => exact hMtlsAuthxLeaf
    | mtlsSysLeaf => exact hMtlsSysLeaf
    | surveyor => exact hSurveyor
  · apply hLost.congr
    constructor
    · intro hAny
      rcases hAny with
        (((((((hFalse | hAt) | hAt) | hAt) | hAt) | hAt) | hAt)
          | hAt) | hAt
      · exact hFalse.elim
      · exact ⟨.authSigning, hAt⟩
      · exact ⟨.xkey, hAt⟩
      · exact ⟨.authxUser, hAt⟩
      · exact ⟨.nackUser, hAt⟩
      · exact ⟨.mtlsLeaf, hAt⟩
      · exact ⟨.mtlsAuthxLeaf, hAt⟩
      · exact ⟨.mtlsSysLeaf, hAt⟩
      · exact ⟨.surveyor, hAt⟩
    · intro hAny
      rcases hAny with ⟨baseKey, hAt⟩
      cases baseKey with
      | authSigning =>
          have hEmpty : authSigning = ("", "") := hAt
          simp [hEmpty]
      | xkey =>
          have hEmpty : xkey = ("", "") := hAt
          simp [hEmpty]
      | authxUser =>
          have hEmpty : authxUser = ("", "") := hAt
          simp [hEmpty]
      | nackUser =>
          have hEmpty : nackUser = ("", "") := hAt
          simp [hEmpty]
      | mtlsLeaf =>
          have hEmpty : mtlsLeaf = ("", "") := hAt
          simp [hEmpty]
      | mtlsAuthxLeaf =>
          have hEmpty : mtlsAuthxLeaf = ("", "") := hAt
          simp [hEmpty]
      | mtlsSysLeaf =>
          have hEmpty : mtlsSysLeaf = ("", "") := hAt
          simp [hEmpty]
      | surveyor =>
          have hEmpty : surveyor = ("", "") := hAt
          simp [hEmpty]

end GenerateNkeys

------------------------------------------------------------
-- The Secrets Of A Cluster
------------------------------------------------------------

namespace GenerateNkeys

open Shell (Environment wp)

variable {publicKey : String → String}
variable {env : Environment Answer}
variable {m : Machine}
variable {cluster : String}

/-
  What a part of a run has reached: `Done` when no pair has
  been lost, and an empty file for a pair that has.
-/
structure Progress
    (env : Environment Answer)
    (Done Empty : Tree → Prop)
    (m m' : Machine) : Prop where
  complete : ¬ Spoiled m' → Done m'.world.tree
  lost : Spoiled m' → Spoiled m ∨ Empty m'.world.tree
  spoiled : Spoiled m → Spoiled m'
  works : Works env → Spoiled m' → Spoiled m
  tidy : Tidy m.world → Tidy m'.world

/- A file of the cluster's own secrets is empty. -/
def BaseEmpty (cluster : String) (tree : Tree) : Prop :=
  ∃ file ∈ baseFiles,
    tree (file.path cluster) = some (.file "")

/- Nothing of the cluster's own secrets is there. -/
def Bare (cluster : String) (tree : Tree) : Prop :=
  ∀ file ∈ baseFiles,
    tree (file.path cluster) = none ∧
      isFile (tree (secretDir cluster file.secretName)) = false

theorem usable_of_pairOk
    {tree : Tree}
    {path : Path}
    {type : KeyType}
    {pair : String × String}
    (hPair : PairOk publicKey env type pair)
    (half : Half)
    (hFile : tree path = some (.file (half.of pair))) :
    Usable tree path (type.keyPrefix half) := by
  have hValid := hPair.1
  simp only [isNkeyPair, Bool.and_eq_true, decide_eq_true_eq]
    at hValid
  have hSome : half.of pair ≠ "" := by
    cases half with
    | seed => exact hValid.1.1.1
    | pubkey => exact hValid.1.1.2
  exact ⟨half.of pair, hFile, hSome,
    begins_of_pairRead (Or.inl hPair) half hSome⟩

/- Writing one file leaves the others as they are. -/
theorem same_of_secretNew
    {file other : BaseFile}
    (hFile : file ∈ baseFiles)
    (hOther : other ∈ baseFiles)
    (hNe : other ≠ file)
    {value : String}
    (node : Node) :
    ¬ SecretNew cluster file.secretName file.key value
      (other.path cluster) node := by
  intro hNew
  rcases hNew with hDir | hSame | ⟨name, content, hTemp⟩
  · have hLength := congrArg List.length hDir.1
    simp [BaseFile.path, secretFile, secretDir] at hLength
  · exact hNe (baseFile_eq_of_path hOther hFile hSame.1)
  · exact dot_ne_baseKey hOther name
      (secretFile_inj hTemp.1).2.2.symm

theorem dir_of_secretNew
    {secretName key value : String}
    {before after : Tree}
    (hGrows :
      Grows (SecretNew cluster secretName key value)
        before after)
    {other : String}
    (hBefore :
      isFile (before (secretDir cluster other)) = false) :
    isFile (after (secretDir cluster other)) = false := by
  rcases hGrows.adds (secretDir cluster other) with
    hSame | ⟨_, node, hNode, hNew⟩
  · rw [hSame, hBefore]
  · rcases hNew with hDir | hFile | ⟨name, content, hTemp⟩
    · rw [hNode, hDir.2]
      rfl
    · have hLength := congrArg List.length hFile.1
      simp [secretFile, secretDir] at hLength
    · have hLength := congrArg List.length hTemp.1
      simp [secretFile, secretDir] at hLength

/-
  On the way through the files: those that have been passed
  hold their values, and the others are not there.
-/
structure Writing
    (cluster : String)
    (keys : BaseKeys)
    (passed : List BaseFile)
    (m m' : Machine) : Prop where
  written :
    ∀ file ∈ passed,
      m'.world.tree (file.path cluster) =
        some (.file (file.value keys))
  absent :
    ∀ file ∈ baseFiles,
      file ∉ passed →
        m'.world.tree (file.path cluster) = none
  dirs :
    ∀ file ∈ baseFiles,
      isFile
        (m'.world.tree (secretDir cluster file.secretName)) =
          false
  quiet : Quiet m m'
  tidy : Tidy m.world → Tidy m'.world

theorem grown_writeBaseFile
    {keys : BaseKeys}
    {passed rest : List BaseFile}
    {file : BaseFile}
    {m' : Machine}
    (hItems : baseFiles = passed ++ file :: rest)
    (hReady : Ready cluster m'.world.tree)
    (hAt : Writing cluster keys passed m m')
    (hBegins : Begins (file.value keys) file.keyPrefix) :
    Grown env
      (writeSecretValue cluster file.secretName file.key
        (file.value keys))
      (Grows (BaseNew cluster))
      (Tidy m.world)
      (fun _ => Writing cluster keys (passed ++ [file]) m)
      m' := by
  have hMem : file ∈ baseFiles := by
    rw [hItems]
    simp
  have hNew : file ∉ passed := by
    have hNodup := nodup_baseFiles
    rw [hItems, List.nodup_append] at hNodup
    intro hIn
    exact hNodup.2.2 file hIn file List.mem_cons_self rfl
  apply grown_mono
    (grown_writeSecretValue hReady (hAt.absent file hMem hNew)
      (not_hidden_of_dot_ne (dot_ne_baseKey hMem)))
  · intro tree hWritten
    apply hWritten.mono
    intro p node _ _ hSecret
    exact Or.inr
      ⟨file, hMem, file.value keys, hBegins, hSecret⟩
  · intro hStart
    exact ⟨hAt.tidy hStart, hAt.dirs file hMem⟩
  · intro _ last hWritten hDone
    constructor
    · intro other hOther
      rcases List.mem_append.mp hOther with hOld | hLast
      · exact hWritten.keeps (hAt.written other hOld)
      · rw [List.mem_singleton.mp hLast]
        exact hDone.1
    · intro other hOther hAbsent
      have hBoth : other ∉ passed ∧ other ≠ file := by
        simpa using hAbsent
      rw [hWritten.same
        (same_of_secretNew hMem hOther hBoth.2)]
      exact hAt.absent other hOther hBoth.1
    · intro other hOther
      exact dir_of_secretNew hWritten (hAt.dirs other hOther)
    · exact hAt.quiet.trans hDone.2.1
    · intro hStart
      exact hDone.2.2 (hAt.tidy hStart)

/- All files of a cluster are written with their values. -/
theorem grown_writeBaseFiles
    {keys : BaseKeys}
    (hBegins :
      ∀ file ∈ baseFiles,
        Begins (file.value keys) file.keyPrefix)
    (hReady : Ready cluster m.world.tree)
    (hBare : Bare cluster m.world.tree) :
    Grown env
      (Shell.Script.forEach (baseSecretValues keys)
        (fun entry =>
          writeSecretValue cluster entry.secretName entry.key
            entry.value))
      (Grows (BaseNew cluster))
      (Tidy m.world)
      (fun _ => Writing cluster keys baseFiles m)
      m := by
  rw [baseSecretValues_eq, Shell.forEach_map]
  apply grown_forEach
    (fun passed m' => Writing cluster keys passed m m')
  · exact
      { written := nofun
        absent := fun file hMem _ => (hBare file hMem).1
        dirs := fun file hMem => (hBare file hMem).2
        quiet := Quiet.refl m
        tidy := fun hTidy => hTidy }
  intro passed file rest m1 hItems hGrows hAt
  have hMem : file ∈ baseFiles := by
    rw [hItems]
    simp
  exact grown_writeBaseFile hItems (hReady.grows hGrows) hAt
    (hBegins file hMem)

/- The keys are generated first, then written. -/
theorem grown_generateBaseClusterSecrets
    (publicKey : String → String)
    (hReady : Ready cluster m.world.tree)
    (hBare : Bare cluster m.world.tree) :
    Grown env (generateBaseClusterSecrets cluster)
      (Grows (BaseNew cluster))
      (Tidy m.world)
      (fun _ m' =>
        Progress env (BaseComplete cluster) (BaseEmpty cluster)
          m m')
      m := by
  unfold generateBaseClusterSecrets
  apply grown_seq (grown_generateBaseKeys publicKey)
  intro keys m1 hGrows hKeys
  rcases hKeys with ⟨hPairs, hLoses⟩
  have hBegins :
      ∀ file ∈ baseFiles,
        Begins (file.value keys) file.keyPrefix :=
    fun file _ => begins_of_pairRead (hPairs file.baseKey) file.half
  apply grown_mono
    (grown_writeBaseFiles hBegins (hReady.grows hGrows)
      (by unfold Bare; rw [hLoses.tree]; exact hBare))
  · intro tree hWritten
    exact hWritten
  · exact hLoses.tidy
  · intro _ m2 _ hDone
    have hQuiet := hDone.quiet
    have hFiles := hDone.written
    constructor
    · intro hClean file hMem
      rw [hQuiet.spoiled, hLoses.spoiled] at hClean
      have hPair :
          PairOk publicKey env file.baseKey.type
            (keys.get file.baseKey) := by
        rcases hPairs file.baseKey with hOk | hEmpty
        · exact hOk
        · exact absurd (Or.inr ⟨file.baseKey, hEmpty⟩) hClean
      exact usable_of_pairOk hPair file.half (hFiles file hMem)
    · intro hSpoiled
      rw [hQuiet.spoiled, hLoses.spoiled] at hSpoiled
      rcases hSpoiled with hBefore | ⟨baseKey, hEmpty⟩
      · exact Or.inl hBefore
      · rcases exists_baseFile baseKey .seed with
          ⟨file, hMem, hKey, hHalf⟩
        refine Or.inr ⟨file, hMem, ?_⟩
        rw [hFiles file hMem, BaseFile.value, hKey, hHalf,
          hEmpty]
        rfl
    · intro hBefore
      rw [hQuiet.spoiled, hLoses.spoiled]
      exact Or.inl hBefore
    · intro hWorks hSpoiled
      rw [hQuiet.spoiled, hLoses.spoiled] at hSpoiled
      rcases hSpoiled with hBefore | hLost
      · exact hBefore
      · exact absurd hWorks (hLoses.rough hLost)
    · intro hStart
      exact hDone.tidy (hLoses.tidy hStart)

end GenerateNkeys

------------------------------------------------------------
-- One Cluster
------------------------------------------------------------

namespace GenerateNkeys

open Shell (Environment wp)

variable {env : Environment Answer}
variable {cluster : String}

namespace Progress

variable {Done Done' Empty Empty' : Tree → Prop}
variable {first second third : Machine}

/- A part that loses nothing before another one. -/
theorem after_quiet
    (hQuiet : Quiet first second)
    (hTidy : Tidy first.world → Tidy second.world)
    (hProgress : Progress env Done Empty second third) :
    Progress env Done Empty first third := by
  constructor
  · exact hProgress.complete
  · intro hSpoiled
    rcases hProgress.lost hSpoiled with hBefore | hEmpty
    · exact Or.inl (hQuiet.spoiled.mp hBefore)
    · exact Or.inr hEmpty
  · intro hSpoiled
    exact hProgress.spoiled (hQuiet.spoiled.mpr hSpoiled)
  · intro hWorks hSpoiled
    exact hQuiet.spoiled.mp (hProgress.works hWorks hSpoiled)
  · intro hStart
    exact hProgress.tidy (hTidy hStart)

/- The same world is looked at after it. -/
theorem then_same
    (hProgress : Progress env Done Empty first second)
    (hWorld : third.world = second.world)
    (hQuiet : Quiet second third) :
    Progress env Done Empty first third := by
  constructor
  · intro hClean
    rw [hQuiet.spoiled] at hClean
    rw [hWorld]
    exact hProgress.complete hClean
  · intro hSpoiled
    rw [hWorld]
    exact hProgress.lost (hQuiet.spoiled.mp hSpoiled)
  · intro hSpoiled
    exact hQuiet.spoiled.mpr (hProgress.spoiled hSpoiled)
  · intro hWorks hSpoiled
    exact hProgress.works hWorks (hQuiet.spoiled.mp hSpoiled)
  · intro hStart
    rw [hWorld]
    exact hProgress.tidy hStart

theorem mono
    (hProgress : Progress env Done Empty first second)
    (hDone : ∀ tree, Done tree → Done' tree)
    (hEmpty : ∀ tree, Empty tree → Empty' tree) :
    Progress env Done' Empty' first second :=
  { complete := fun hClean =>
      hDone _ (hProgress.complete hClean)
    lost := fun hSpoiled =>
      (hProgress.lost hSpoiled).imp_right (hEmpty _)
    spoiled := hProgress.spoiled
    works := hProgress.works
    tidy := hProgress.tidy }

theorem of_quiet
    (hQuiet : Quiet first second)
    (hTidy : Tidy first.world → Tidy second.world)
    (hDone : Done second.world.tree) :
    Progress env Done Empty first second :=
  { complete := fun _ => hDone
    lost := fun hSpoiled =>
      Or.inl (hQuiet.spoiled.mp hSpoiled)
    spoiled := hQuiet.spoiled.mpr
    works := fun _ hSpoiled => hQuiet.spoiled.mp hSpoiled
    tidy := hTidy }

end Progress

/- What is new of a cluster that had not been started. -/
def ClusterNew
    (cluster : String)
    (tree : Tree)
    (p : Path)
    (node : Node) : Prop :=
  tree (nkeysDir cluster) = none ∧ BaseNew cluster p node

theorem bare_of_dirs
    {before after : Tree}
    (hSound : Sound before)
    (hNone : before (nkeysDir cluster) = none)
    (hGrows : Grows (DirsOf (nkeysDir cluster)) before after) :
    Bare cluster after := by
  intro file hMem
  have hDir := hSound.secretDir_none hNone file.secretName
  constructor
  · rw [hGrows.same]
    · exact hSound.below_none hDir file.key
    · intro node hNew
      exact not_underBase_of_above hNew.1
        (underBase_path hMem cluster)
  · rw [hGrows.same, hDir]
    · rfl
    · intro node hNew
      exact not_underBase_of_above hNew.1
        ⟨file, hMem, List.prefix_rfl⟩

theorem grown_newCluster
    {m : Machine}
    (hSound : Sound m.world.tree)
    (hNone : m.world.tree (nkeysDir cluster) = none) :
    Grown env
      (do
        prepareOutputDir cluster
        generateBaseClusterSecrets cluster
        auditSecretPermissions cluster)
      (Grows (ClusterNew cluster m.world.tree))
      (Tidy m.world)
      (fun _ m' =>
        Ready cluster m'.world.tree ∧
          Progress env (BaseComplete cluster)
            (BaseEmpty cluster) m m')
      m := by
  have hNoFile :
      ∀ p, p <+: nkeysDir cluster →
        isFile (m.world.tree p) = false := by
    intro p hPrefix
    have hShort := hPrefix.length_le
    simp only [nkeysDir, List.length_cons, List.length_nil]
      at hShort
    rcases hSound.dir_of_length (p := p) (by omega) with
      hAbsent | hDir
    · rw [hAbsent]
      rfl
    · rw [hDir]
      rfl
  apply grown_seq
    (R := fun _ m' =>
      Bare cluster m'.world.tree ∧
        Ready cluster m'.world.tree ∧
        Quiet m m' ∧ (Tidy m.world → Tidy m'.world))
  · apply grown_mono (grown_prepareOutputDir cluster)
    · intro tree hGrows
      apply hGrows.mono
      intro p node _ _ hNew
      exact ⟨hNone, Or.inl hNew⟩
    · intro _
      exact hNoFile
    · intro _ m1 hGrows hAt
      exact ⟨bare_of_dirs hSound hNone hGrows, hAt⟩
  intro _ m1 _ hPrepared
  rcases hPrepared with ⟨hBare, hReady, hQuiet, hTidy⟩
  apply grown_seq
    (R := fun _ m' =>
      Ready cluster m'.world.tree ∧
        Progress env (BaseComplete cluster)
          (BaseEmpty cluster) m m')
  · apply grown_mono
      (grown_generateBaseClusterSecrets id hReady hBare)
    · intro tree hGrows
      apply hGrows.mono
      intro p node _ _ hNew
      exact ⟨hNone, hNew⟩
    · exact hTidy
    · intro _ m2 hGrows hDone
      exact ⟨hReady.grows hGrows, hDone.after_quiet hQuiet hTidy⟩
  intro _ m2 _ hWritten
  apply grown_post
    (grown_auditSecretPermissions (fun hStart =>
      ⟨(hWritten.2.tidy hStart).modes,
        hWritten.1 _ List.prefix_rfl⟩))
  intro _ m3 _ hLooked
  refine ⟨?_, hWritten.2.then_same hLooked.1 hLooked.2⟩
  rw [hLooked.1]
  exact hWritten.1

/-
  A cluster that has been started stays as it is. Otherwise it
  has its directories when the script goes on, and all of its
  secrets unless a pair has been lost.
-/
theorem grown_generateCluster
    {m : Machine}
    (hSound : Sound m.world.tree) :
    Grown env (generateCluster cluster)
      (Grows (ClusterNew cluster m.world.tree))
      (Tidy m.world)
      (fun _ m' =>
        Ready cluster m'.world.tree ∧
          Progress env
            (fun tree =>
              m.world.tree (nkeysDir cluster) = none →
                BaseComplete cluster tree)
            (BaseEmpty cluster) m m')
      m := by
  unfold generateCluster
  apply grown_seq
    (R := fun started m' =>
      m' = m ∧
        started =
          directoryExists (nkeysDir cluster) m.world.tree)
  · exact grown_inspect ⟨rfl, rfl⟩
  intro started m' _ hLook
  rcases hLook with ⟨hSame, hStarted⟩
  subst hSame
  rcases hSound.dir_of_length
      (p := nkeysDir cluster) (by simp [nkeysDir]) with
    hNone | hDir
  · have hNot : started = false := by
      rw [hStarted, directoryExists, hNone]
      rfl
    rw [hNot]
    apply grown_post (grown_newCluster hSound hNone)
    intro _ last _ hDone
    refine ⟨hDone.1, hDone.2.mono ?_ ?_⟩
    · intro tree hComplete _
      exact hComplete
    · intro tree hEmpty
      exact hEmpty
  · have hYes : started = true := by
      rw [hStarted, directoryExists, hDir]
      rfl
    rw [hYes]
    apply grown_post
      (grown_auditSecretPermissions (fun hStart =>
        ⟨hStart.modes, hDir⟩))
    intro _ last _ hLooked
    constructor
    · rw [hLooked.1]
      apply hSound.ready
      rw [hDir]
      simp
    · apply Progress.of_quiet hLooked.2
      · intro hStart
        rw [hLooked.1]
        exact hStart
      · intro hNone
        rw [hDir] at hNone
        simp at hNone

end GenerateNkeys
