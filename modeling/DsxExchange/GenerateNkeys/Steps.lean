import DsxExchange.GenerateNkeys.Growth

/-
  What the steps of the key generator do: one secret written,
  one key pair read, the modes looked at.

  Key definitions include:
    * `GenerateNkeys.Tidy`, `GenerateNkeys.Ready`
    * `GenerateNkeys.SecretNew`
    * `GenerateNkeys.PairOk`

  Key theorems include:
    * `GenerateNkeys.grown_auditSecretPermissions`
    * `GenerateNkeys.grown_writeSecretValue`
    * `GenerateNkeys.grown_readNkeyPair`
-/

------------------------------------------------------------
-- Rules For Commands
------------------------------------------------------------

namespace GenerateNkeys

open Shell (Environment wp)

variable {env : Environment Answer}
variable {m : Machine}

theorem wp_must
    {name : Command}
    {effect : World → Option World}
    {Q : Unit → Machine → Prop}
    {E : Shell.Stop → Machine → Prop}
    (hKilled :
      env.kills m.trace.length = true → E .killed m)
    (hFailed :
      ∀ answer,
        (Works env → effect m.world = none) →
          E (.exited 1)
            (Shell.Script.record m name answer m.world))
    (hDone :
      ∀ answer changed,
        effect m.world = some changed →
          Q () (Shell.Script.record m name answer changed)) :
    wp env (must name effect) Q E m := by
  unfold must attempt
  apply Shell.wp_seq
    (R := fun ok m' =>
      (ok = true → Q () m') ∧ (ok = false → E (.exited 1) m'))
  · apply Shell.wp_command hKilled
    intro answer hAnswer
    cases hOk : answer.ok with
    | false =>
        refine ⟨nofun, fun _ => hFailed answer ?_⟩
        intro hWorks
        rw [hAnswer, hWorks.ok] at hOk
        simp at hOk
    | true =>
        cases hEffect : effect m.world with
        | none =>
            exact ⟨nofun,
              fun _ => hFailed answer (fun _ => hEffect)⟩
        | some changed =>
            exact ⟨fun _ => hDone answer changed hEffect, nofun⟩
  intro ok m' hAt
  cases ok with
  | true => exact hAt.1 rfl
  | false => exact hAt.2 rfl

/- A command that only asks whether it succeeds. -/
theorem wp_attempt_some
    {name : Command}
    {Q : Bool → Machine → Prop}
    {E : Shell.Stop → Machine → Prop}
    (hKilled :
      env.kills m.trace.length = true → E .killed m)
    (hStep :
      ∀ answer,
        answer = env.answer m.trace.length →
          Q answer.ok
            (Shell.Script.record m name answer m.world)) :
    wp env (attempt name some) Q E m := by
  apply Shell.wp_command hKilled
  intro answer hAnswer
  have hAt := hStep answer hAnswer
  cases hOk : answer.ok with
  | true =>
      rw [hOk] at hAt
      exact hAt
  | false =>
      rw [hOk] at hAt
      exact hAt

end GenerateNkeys

------------------------------------------------------------
-- Modes
------------------------------------------------------------

namespace GenerateNkeys

open Shell (Environment wp)

variable {env : Environment Answer}
variable {G : Tree → Tree → Prop} [Growth G]
variable {Tame : Prop}
variable {m : Machine}

theorem grown_requireModes
    {directory : Path}
    {files : Bool}
    (hTame :
      Tame →
        m.world.wrongModes = [] ∧
          m.world.tree directory = some .dir) :
    Grown env (requireModes directory files) G Tame
      (fun _ m' => m'.world = m.world ∧ Quiet m m') m := by
  unfold requireModes
  apply grown_seq
    (R := fun bad m' =>
      (m'.world = m.world ∧ Quiet m m') ∧
        (bad ≠ some [] → Tame → ¬ Works env))
  · apply grown_command
    intro answer hAnswer
    have hQuiet :
        Quiet m
          (Shell.Script.record m (.find directory) answer
            m.world) :=
      quiet_record (fun hSpoils => hSpoils) (fun hModes => hModes)
    split
    · refine ⟨Growth.refl _, ⟨rfl, hQuiet⟩, ?_⟩
      intro hBad hAt
      refine absurd ?_ hBad
      simp [findWrong, (hTame hAt).1]
    · rename_i hFails
      refine ⟨Growth.refl _, ⟨rfl, hQuiet⟩, ?_⟩
      intro _ hAt hWorks
      apply hFails
      refine ⟨by rw [hAnswer, hWorks.ok], ?_⟩
      simp [directoryExists, (hTame hAt).2]
  intro bad m' _ hAt
  cases bad with
  | none => exact grown_exit (hAt.2 nofun)
  | some paths =>
      cases paths with
      | nil => exact grown_pure hAt.1
      | cons path rest => exact grown_exit (hAt.2 (by simp))

/- Nothing changes when the modes are looked at. -/
theorem grown_auditSecretPermissions
    {cluster : String}
    (hTame :
      Tame →
        m.world.wrongModes = [] ∧
          m.world.tree (nkeysDir cluster) = some .dir) :
    Grown env (auditSecretPermissions cluster) G Tame
      (fun _ m' => m'.world = m.world ∧ Quiet m m') m := by
  unfold auditSecretPermissions
  apply grown_seq (grown_requireModes hTame)
  intro _ m' _ hFirst
  apply grown_post
    (grown_requireModes (by rw [hFirst.1]; exact hTame))
  intro _ last _ hSecond
  exact ⟨hSecond.1.trans hFirst.1,
    hFirst.2.trans hSecond.2⟩

end GenerateNkeys

------------------------------------------------------------
-- One Secret
------------------------------------------------------------

namespace GenerateNkeys

open Shell (Environment wp)

/- A file of `mktemp` next to the values of a secret. -/
def Hidden (p : Path) : Prop :=
  ∃ cluster secretName name,
    p = secretFile cluster secretName ("." ++ name)

/- Nothing has a wrong mode, and no temporary file is left. -/
structure Tidy (world : World) : Prop where
  modes : world.wrongModes = []
  names : ∀ p, Hidden p → world.tree p = none

/- The directories of a cluster are there. -/
def Ready (cluster : String) (tree : Tree) : Prop :=
  ∀ p, p <+: nkeysDir cluster → tree p = some .dir

theorem Ready.grows
    {cluster : String}
    {New : Path → Node → Prop}
    {before after : Tree}
    (hReady : Ready cluster before)
    (hGrows : Grows New before after) :
    Ready cluster after := by
  intro p hPrefix
  exact hGrows.keeps (hReady p hPrefix)

/- What there can be new while one value is written. -/
def SecretNew
    (cluster secretName key value : String)
    (p : Path)
    (node : Node) : Prop :=
  (p = secretDir cluster secretName ∧ node = .dir) ∨
    (p = secretFile cluster secretName key ∧
      node = .file value) ∨
    ∃ name content,
      p = secretFile cluster secretName ("." ++ name) ∧
        node = .file content

theorem prefix_secretDir
    {cluster secretName : String}
    {p : Path}
    (hPrefix : p <+: secretDir cluster secretName) :
    p = secretDir cluster secretName ∨
      p <+: nkeysDir cluster := by
  have hSplit :
      secretDir cluster secretName =
        nkeysDir cluster ++ [secretName] :=
    rfl
  rw [hSplit] at hPrefix ⊢
  exact List.prefix_concat_iff.mp hPrefix

theorem not_prefix_secretDir
    (cluster secretName : String)
    (cluster' secretName' key : String) :
    ¬ secretFile cluster' secretName' key <+:
      secretDir cluster secretName := by
  intro hPrefix
  have hLength := hPrefix.length_le
  simp [secretFile, secretDir] at hLength

theorem tempName_eq (key name : String) :
    "." ++ key ++ "." ++ name = "." ++ (key ++ "." ++ name) := by
  simp [String.append_assoc]

/- Moving a temporary file onto an absent target. -/
theorem move_eq
    {source target : Path}
    {tree : Tree}
    {value : String}
    {world : World}
    (hTree :
      world.tree = setNode source (some (.file value)) tree)
    (hSource : tree source = none)
    (hTarget : tree target = none)
    (hNe : target ≠ source) :
    ∃ changed,
      move source target world = some changed ∧
        changed.tree =
          setNode target (some (.file value)) tree ∧
        (world.wrongModes = [] → changed.wrongModes = []) := by
  have hAtTarget : world.tree target = none := by
    rw [hTree, setNode_of_ne _ _ hNe, hTarget]
  have hAtSource : world.tree source = some (.file value) := by
    rw [hTree, setNode_self]
  have hMove :
      move source target world =
        some
          { world with
            tree :=
              setNode target (world.tree source)
                (setNode source none world.tree)
            wrongModes :=
              (world.wrongModes.filter (· ≠ target)).map
                (fun p => if p = source then target else p) } := by
    simp [move, hAtTarget, hAtSource]
  refine ⟨_, hMove, ?_, ?_⟩
  · dsimp only
    rw [hAtSource, hTree, setNode_setNode,
      setNode_eq_self hSource]
  · intro hModes
    simp [hModes]

variable {env : Environment Answer}
variable {m : Machine}
variable {cluster secretName key value : String}

theorem tidy_setNode
    {world changed : World}
    {p : Path}
    {node : Option Node}
    (hTree : changed.tree = setNode p node world.tree)
    (hModes :
      world.wrongModes = [] → changed.wrongModes = [])
    (hShown : ¬ Hidden p)
    (hTidy : Tidy world) :
    Tidy changed := by
  constructor
  · exact hModes hTidy.modes
  · intro other hHidden
    have hNe : other ≠ p := by
      intro hEq
      rw [hEq] at hHidden
      exact hShown hHidden
    rw [hTree, setNode_of_ne _ _ hNe]
    exact hTidy.names other hHidden

/-
  On the way from `m`, the temporary file of the name is there
  with some content, and nothing else is new.
-/
structure HoldsTemp
    (cluster secretName name content : String)
    (m m' : Machine) : Prop where
  absent :
    m.world.tree
      (secretFile cluster secretName ("." ++ name)) = none
  tree :
    m'.world.tree =
      setNode (secretFile cluster secretName ("." ++ name))
        (some (.file content)) m.world.tree
  quiet : Quiet m m'

variable {name content : String}

/- Being stopped there leaves the temporary file. -/
theorem HoldsTemp.halts
    {m' : Machine}
    {how : Shell.Stop}
    (hTemp : HoldsTemp cluster secretName name content m m')
    (hDir :
      m.world.tree (secretDir cluster secretName) = some .dir)
    (hStopped :
      (how = .killed ∧ env.stop ≠ none) ∨ how = .exited 1)
    (hRough : ¬ Works env) :
    Halts env (Grows (SecretNew cluster secretName key value)) m
      (Tidy m.world) how m' := by
  refine
    { stopped := hStopped
      grows := ?_
      rough := fun _ => hRough }
  rw [hTemp.tree]
  exact Grows.setNode
    (secretDir cluster secretName) hTemp.absent hDir
    (Or.inr (Or.inr ⟨name, content, rfl, rfl⟩))

/- A command that is possible next to the temporary file. -/
theorem wp_must_temp
    {m' : Machine}
    {command : Command}
    {effect : World → Option World}
    {changed : World}
    {Q : Unit → Machine → Prop}
    (hTemp : HoldsTemp cluster secretName name content m m')
    (hDir :
      m.world.tree (secretDir cluster secretName) = some .dir)
    (hHarmless : ∀ answer, ¬ Spoils (command, answer))
    (hEffect : effect m'.world = some changed)
    (hDone :
      ∀ answer,
        Q () (Shell.Script.record m' command answer changed)) :
    wp env (must command effect) Q
      (Halts env (Grows (SecretNew cluster secretName key value)) m
        (Tidy m.world)) m' := by
  apply wp_must
  · intro hKills
    have hStop := stop_ne_none hKills
    exact hTemp.halts hDir (Or.inl ⟨rfl, hStop⟩)
      (fun hWorks => hStop hWorks.goesOn)
  · intro answer hNone
    have hStill :
        HoldsTemp cluster secretName name content m
          (Shell.Script.record m' command answer m'.world) :=
      { absent := hTemp.absent
        tree := hTemp.tree
        quiet :=
          hTemp.quiet.trans
            (quiet_record (hHarmless answer)
              (fun hModes => hModes)) }
    apply hStill.halts hDir (Or.inr rfl)
    intro hWorks
    rw [hEffect] at hNone
    exact absurd (hNone hWorks) (by simp)
  · intro answer other hOther
    rw [hEffect] at hOther
    rw [← Option.some.inj hOther]
    exact hDone answer

/- The temporary file is there and empty. -/
theorem wp_mktemp
    (hDir :
      m.world.tree (secretDir cluster secretName) =
        some .dir) :
    wp env (mktemp (secretDir cluster secretName) key)
      (fun tmp m' =>
        match tmp with
        | none =>
            m'.world = m.world ∧ (Tidy m.world → ¬ Works env)
        | some path =>
            ∃ name,
              path =
                  secretFile cluster secretName
                    ("." ++ name) ∧
                HoldsTemp cluster secretName name "" m m')
      (Halts env (Grows (SecretNew cluster secretName key value)) m
        (Tidy m.world)) m := by
  apply Shell.wp_command
  · intro hKills
    exact halts_killed hKills
  intro answer hAnswer
  dsimp only
  by_cases hMade :
      answer.ok = true ∧
        m.world.tree (secretDir cluster secretName) =
          some .dir ∧
        m.world.tree
          (secretDir cluster secretName ++
            ["." ++ key ++ "." ++ answer.name]) = none
  · rw [if_pos hMade]
    rw [tempName_eq] at hMade ⊢
    exact ⟨key ++ "." ++ answer.name, rfl,
      { absent := hMade.2.2
        tree := rfl
        quiet :=
          quiet_record (fun hSpoils => hSpoils)
            (fun hModes => hModes) }⟩
  · rw [if_neg hMade]
    refine ⟨rfl, ?_⟩
    intro hTidy hWorks
    apply hMade
    refine ⟨by rw [hAnswer, hWorks.ok], hDir, ?_⟩
    apply hTidy.names
    rw [tempName_eq]
    exact ⟨cluster, secretName, key ++ "." ++ answer.name, rfl⟩

/-
  The temporary file, its value and its new name: the states
  between the first and the last command are `HoldsTemp`.
-/
theorem wp_writeTemp
    (hDir :
      m.world.tree (secretDir cluster secretName) = some .dir)
    (hTarget :
      m.world.tree (secretFile cluster secretName key) = none)
    (hShown : ¬ Hidden (secretFile cluster secretName key))
    {m' : Machine}
    (hEmpty : HoldsTemp cluster secretName name "" m m') :
    let tmp := secretFile cluster secretName ("." ++ name)
    let target := secretFile cluster secretName key
    wp env
      (do
        must (.write tmp) (write tmp value)
        must (.chmod tmp) (chmod tmp)
        must (.move tmp target) (move tmp target))
      (fun _ last =>
        last.world.tree =
            setNode target (some (.file value)) m.world.tree ∧
          Quiet m last)
      (Halts env (Grows (SecretNew cluster secretName key value)) m
        (Tidy m.world)) m' := by
  intro tmp target
  have hNe : target ≠ tmp := by
    intro hEq
    exact hShown ⟨cluster, secretName, name, hEq⟩
  apply Shell.wp_seq
    (R := fun _ =>
      HoldsTemp cluster secretName name value m)
  · have hWrite :
        write tmp value m'.world =
          some
            { m'.world with
              tree :=
                setNode tmp (some (.file value))
                  m'.world.tree } := by
      simp [write, hEmpty.tree, tmp, setNode_self]
    refine wp_must_temp hEmpty hDir (fun _ hSpoils => hSpoils)
      hWrite ?_
    intro answer
    refine
      { absent := hEmpty.absent
        tree := ?_
        quiet :=
          hEmpty.quiet.trans
            (quiet_record (fun hSpoils => hSpoils)
              (fun hModes => hModes)) }
    dsimp only [Shell.Script.record]
    rw [hEmpty.tree, setNode_setNode]
  intro _ m1 hWritten
  apply Shell.wp_seq
    (R := fun _ =>
      HoldsTemp cluster secretName name value m)
  · have hNode : m1.world.tree tmp ≠ none := by
      simp [hWritten.tree, tmp, setNode_self]
    rcases Option.ne_none_iff_exists'.mp
        (chmod_ne_none hNode) with
      ⟨changed, hChmod⟩
    have hBoth := chmod_some hChmod
    refine wp_must_temp hWritten hDir
      (fun _ hSpoils => hSpoils) hChmod ?_
    intro answer
    refine
      { absent := hWritten.absent
        tree := ?_
        quiet :=
          hWritten.quiet.trans
            (quiet_record (fun hSpoils => hSpoils) hBoth.2) }
    dsimp only [Shell.Script.record]
    rw [hBoth.1, hWritten.tree]
  intro _ m2 hSafe
  rcases move_eq hSafe.tree hSafe.absent hTarget hNe with
    ⟨moved, hMove, hTree, hModes⟩
  refine wp_must_temp hSafe hDir (fun _ hSpoils => hSpoils)
    hMove ?_
  intro answer
  exact ⟨hTree,
    hSafe.quiet.trans
      (quiet_record (fun hSpoils => hSpoils) hModes)⟩

/-
  One value written where there was none. The crash states
  hold its directory and perhaps a temporary file.
-/
theorem grown_writeSecretValue
    (hReady : Ready cluster m.world.tree)
    (hTarget :
      m.world.tree (secretFile cluster secretName key) = none)
    (hShown : ¬ Hidden (secretFile cluster secretName key)) :
    Grown env (writeSecretValue cluster secretName key value)
      (Grows (SecretNew cluster secretName key value))
      (Tidy m.world ∧
        isFile (m.world.tree (secretDir cluster secretName)) =
          false)
      (fun _ m' =>
        m'.world.tree (secretFile cluster secretName key) =
            some (.file value) ∧
          Quiet m m' ∧ (Tidy m.world → Tidy m'.world))
      m := by
  have hNotPrefix :
      ∀ p, Hidden p → ¬ p <+: secretDir cluster secretName := by
    intro p hHidden
    rcases hHidden with ⟨cluster', secretName', name, hEq⟩
    rw [hEq]
    exact not_prefix_secretDir _ _ _ _ _
  unfold writeSecretValue
  apply grown_seq
    (R := fun _ m' =>
      m'.world.tree (secretDir cluster secretName) =
          some .dir ∧
        m'.world.tree (secretFile cluster secretName key) =
          none ∧
        Quiet m m' ∧ (Tidy m.world → Tidy m'.world))
  · apply grown_must
    · intro answer changed hMkdir
      rcases mkdir_some hMkdir with ⟨hGrows, hDirs, hModes⟩
      refine ⟨hGrows.mono ?_, ?_, ?_, ?_, ?_⟩
      · intro p node hNone _ hNew
        rcases prefix_secretDir hNew.1 with hAt | hAbove
        · exact Or.inl ⟨hAt, hNew.2⟩
        · rw [hReady p hAbove] at hNone
          simp at hNone
      · exact hDirs _ List.prefix_rfl
      · dsimp only [Shell.Script.record]
        rw [hGrows.same, hTarget]
        intro node hNew
        exact not_prefix_secretDir _ _ _ _ _ hNew.1
      · refine quiet_record (fun hSpoils => hSpoils) ?_
        intro hNone
        rw [hModes, hNone]
      · intro hTidy
        constructor
        · dsimp only [Shell.Script.record]
          rw [hModes, hTidy.modes]
        · intro p hHidden
          dsimp only [Shell.Script.record]
          rw [hGrows.same, hTidy.names p hHidden]
          intro node hNew
          exact hNotPrefix p hHidden hNew.1
    · intro hTame
      apply mkdir_ne_none
      intro p hPrefix
      rcases prefix_secretDir hPrefix with hAt | hAbove
      · rw [hAt, hTame.2]
      · rw [hReady p hAbove]
        rfl
  intro _ m1 _ hDir
  apply grown_seq
    (R := fun _ m' =>
      m'.world.tree = m1.world.tree ∧
        Quiet m m' ∧ (Tidy m.world → Tidy m'.world))
  · apply grown_must
    · intro answer changed hChmod
      have hBoth := chmod_some hChmod
      refine ⟨?_, hBoth.1, ?_, ?_⟩
      · rw [hBoth.1]
        exact Grows.refl _
      · exact hDir.2.2.1.trans
          (quiet_record (fun hSpoils => hSpoils) hBoth.2)
      · intro hTidy
        have hBefore := hDir.2.2.2 hTidy
        constructor
        · exact hBoth.2 hBefore.modes
        · intro p hHidden
          dsimp only [Shell.Script.record]
          rw [hBoth.1, hBefore.names p hHidden]
    · intro _
      apply chmod_ne_none
      rw [hDir.1]
      simp
  intro _ m2 _ hSame
  have hDir2 :
      m2.world.tree (secretDir cluster secretName) =
        some .dir := by
    rw [hSame.1, hDir.1]
  have hTarget2 :
      m2.world.tree (secretFile cluster secretName key) =
        none := by
    rw [hSame.1, hDir.2.1]
  have hTemp :
      wp env
        (do
          let tmp ← mktemp (secretDir cluster secretName) key
          match tmp with
          | none => Shell.Script.exit 1
          | some tmp =>
              must (.write tmp) (write tmp value)
              must (.chmod tmp) (chmod tmp)
              must (.move tmp
                  (secretFile cluster secretName key))
                (move tmp
                  (secretFile cluster secretName key)))
        (fun _ last =>
          last.world.tree =
              setNode (secretFile cluster secretName key)
                (some (.file value)) m2.world.tree ∧
            Quiet m2 last)
        (Halts env (Grows (SecretNew cluster secretName key value))
          m2 (Tidy m2.world)) m2 := by
    apply Shell.wp_seq (wp_mktemp hDir2)
    intro tmp m3 hAt
    cases tmp with
    | none =>
        refine
          { stopped := Or.inr rfl
            grows := ?_
            rough := hAt.2 }
        rw [hAt.1]
        exact Grows.refl _
    | some path =>
        rcases hAt with ⟨name, hPath, hEmpty⟩
        subst hPath
        exact wp_writeTemp hDir2 hTarget2 hShown hEmpty
  apply Shell.wp_mono hTemp
  · intro _ last hAt
    refine ⟨?_, ?_, ?_, ?_⟩
    · rw [hAt.1]
      exact Grows.setNode
        (secretDir cluster secretName) hTarget2 hDir2
        (Or.inr (Or.inl ⟨rfl, rfl⟩))
    · rw [hAt.1, setNode_self]
    · exact hSame.2.1.trans hAt.2
    · intro hTidy
      exact tidy_setNode hAt.1 hAt.2.modes hShown
        (hSame.2.2 hTidy)
  · intro how last hHalts
    exact
      { stopped := hHalts.stopped
        grows := hHalts.grows
        rough := fun hTame =>
          hHalts.rough (hSame.2.2 hTame.1) }

end GenerateNkeys

------------------------------------------------------------
-- One Key Pair
------------------------------------------------------------

namespace GenerateNkeys

open Shell (Environment wp)

variable {publicKey : String → String}
variable {env : Environment Answer}
variable {m : Machine}

/-
  A stretch of the script without an effect on the tree, in
  which a key pair is lost or not.
-/
structure Loses
    (env : Environment Answer)
    (lost : Prop)
    (m m' : Machine) : Prop where
  tree : m'.world.tree = m.world.tree
  modes : m'.world.wrongModes = m.world.wrongModes
  spoiled : Spoiled m' ↔ Spoiled m ∨ lost
  rough : lost → ¬ Works env

namespace Loses

variable {lost lost' : Prop}
variable {first second third : Machine}

theorem refl (m : Machine) : Loses env False m m :=
  { tree := rfl
    modes := rfl
    spoiled := by simp
    rough := False.elim }

theorem trans
    (hFirst : Loses env lost first second)
    (hSecond : Loses env lost' second third) :
    Loses env (lost ∨ lost') first third := by
  constructor
  · exact hSecond.tree.trans hFirst.tree
  · exact hSecond.modes.trans hFirst.modes
  · rw [hSecond.spoiled, hFirst.spoiled, or_assoc]
  · intro hLost
    rcases hLost with hLost | hLost
    · exact hFirst.rough hLost
    · exact hSecond.rough hLost

theorem congr
    (hLoses : Loses env lost first second)
    (hIff : lost ↔ lost') :
    Loses env lost' first second := by
  rwa [← propext hIff]

theorem quiet
    (hLoses : Loses env False first second) :
    Quiet first second := by
  constructor
  · intro hModes
    rw [hLoses.modes, hModes]
  · rw [hLoses.spoiled]
    simp

/- The variables play no part. -/
theorem withVars
    (hLoses : Loses env lost first second)
    (vars : Vars) :
    Loses env lost first { second with vars := vars } :=
  { tree := hLoses.tree
    modes := hLoses.modes
    spoiled := hLoses.spoiled
    rough := hLoses.rough }

theorem tidy
    (hLoses : Loses env lost first second)
    (hTidy : Tidy first.world) :
    Tidy second.world := by
  constructor
  · rw [hLoses.modes, hTidy.modes]
  · intro p hHidden
    rw [hLoses.tree, hTidy.names p hHidden]

end Loses

theorem loses_record
    {name : Command}
    {answer : Answer}
    {world : World}
    {lost : Prop}
    (hTree : world.tree = m.world.tree)
    (hModes : world.wrongModes = m.world.wrongModes)
    (hLost : Spoils (name, answer) ↔ lost)
    (hRough : lost → ¬ Works env) :
    Loses env lost m
      (Shell.Script.record m name answer world) := by
  constructor
  · exact hTree
  · exact hModes
  · rw [spoiled_record, hLost]
  · exact hRough

/- A pair that has passed the validation, of one key. -/
def PairOk
    (publicKey : String → String)
    (env : Environment Answer)
    (type : KeyType)
    (pair : String × String) : Prop :=
  isNkeyPair type pair.1 pair.2 = true ∧
    (Honest publicKey env → publicKey pair.1 = pair.2)

/- Why the script of a subshell has stopped. -/
def SubshellStops
    (env : Environment Answer)
    (lost : Prop)
    (m : Machine)
    (how : Shell.Stop)
    (m' : Machine) : Prop :=
  (how = .killed ∧ env.stop ≠ none ∧
      m'.world.tree = m.world.tree) ∨
    (how ≠ .killed ∧ Loses env lost m m')

theorem subshellStops_killed
    {lost lost' : Prop}
    {m' : Machine}
    (hLoses : Loses env lost' m m')
    (hKills : env.kills m'.trace.length = true) :
    SubshellStops env lost m .killed m' :=
  Or.inl ⟨rfl, stop_ne_none hKills, hLoses.tree⟩

theorem wp_makeTempDir :
    wp env (Shell.Script.subshell makeTempDir)
      (fun _ m' => Loses env False m m')
      (SubshellStops env True m) m := by
  have hInside :
      wp env makeTempDir
        (fun _ m' => Loses env False m m')
        (SubshellStops env False m) m := by
    unfold makeTempDir
    apply Shell.wp_seq (R := fun _ => Loses env False m)
    · apply Shell.wp_command
      · intro hKills
        exact subshellStops_killed (Loses.refl m) hKills
      intro answer _
      dsimp only
      split
      · exact loses_record rfl rfl Iff.rfl False.elim
      · exact loses_record rfl rfl Iff.rfl False.elim
    intro dir m1 hFirst
    apply Shell.wp_seq (R := fun _ => Loses env False m)
    · apply wp_attempt_some
      · intro hKills
        exact subshellStops_killed hFirst hKills
      intro answer _
      have hStep :
          Loses env False m1
            (Shell.Script.record m1 .chmodTemp answer
              m1.world) :=
        loses_record rfl rfl Iff.rfl False.elim
      exact (hFirst.trans hStep).congr (by simp)
    intro _ m2 hSecond
    apply Shell.wp_seq (R := fun _ => Loses env False m)
    · apply Shell.wp_modifyVars
      exact hSecond.withVars _
    intro _ m3 hThird
    exact hThird
  apply Shell.wp_subshell hInside
  · intro _ m' hAt
    exact hAt.withVars _
  · intro _ m' hAt
    rcases hAt with hKilled | ⟨_, hLoses⟩
    · simp at hKilled
    · exact hLoses.withVars _
  · intro m' hAt
    rcases hAt with hKilled | hExited
    · exact Or.inl hKilled
    · exact absurd rfl hExited.1

/- A line is read, or lost and empty. -/
theorem wp_readNkeyLine
    {line : ℕ}
    {text : String}
    {first : Machine}
    {lost : Prop}
    (hBefore : Loses env lost first m) :
    wp env (readNkeyLine line text)
      (fun value m' =>
        (value = strip text ∧ Loses env False m m') ∨
          (value = "" ∧ Loses env True m m'))
      (SubshellStops env True first) m := by
  unfold readNkeyLine
  apply Shell.wp_seq
    (R := fun ok m' =>
      (ok = true ∧ Loses env False m m') ∨
        (ok = false ∧ Loses env True m m'))
  · apply wp_attempt_some
    · intro hKills
      exact subshellStops_killed hBefore hKills
    intro answer hAnswer
    cases hOk : answer.ok with
    | true =>
        refine Or.inl ⟨rfl, loses_record rfl rfl ?_ False.elim⟩
        simp [Spoils, hOk]
    | false =>
        refine Or.inr ⟨rfl, loses_record rfl rfl ?_ ?_⟩
        · simp [Spoils, hOk]
        · intro _ hWorks
          rw [hAnswer, hWorks.ok] at hOk
          simp at hOk
  intro ok m' hAt
  rcases hAt with ⟨hOk, hLoses⟩ | ⟨hOk, hLoses⟩
  · rw [hOk]
    exact Or.inl ⟨rfl, hLoses⟩
  · rw [hOk]
    exact Or.inr ⟨rfl, hLoses⟩

theorem not_isNkeyPair_of_empty
    {type : KeyType}
    {seed pubkey : String}
    (hEmpty : seed = "" ∨ pubkey = "") :
    isNkeyPair type seed pubkey = false := by
  rcases hEmpty with hEmpty | hEmpty
  · simp [isNkeyPair, hEmpty]
  · simp [isNkeyPair, hEmpty]

/-
  A pair comes out of the subshell exactly when nothing in it
  has gone wrong.
-/
theorem wp_generateNkeyPair
    (publicKey : String → String)
    (type : KeyType) :
    wp env (generateNkeyPair type)
      (fun pair m' =>
        PairOk publicKey env type pair ∧
          Loses env False m m')
      (SubshellStops env True m) m := by
  unfold generateNkeyPair
  apply Shell.wp_seq wp_makeTempDir
  intro _ m1 hDir
  apply Shell.wp_seq
    (R := fun printed m' =>
      (printed = none → Loses env True m m') ∧
        ∀ lines, printed = some lines →
          Loses env
              (isNkeyPair type (strip lines.1)
                (strip lines.2) = false) m m' ∧
            (Honest publicKey env →
              publicKey (strip lines.1) = strip lines.2))
  · apply Shell.wp_command
    · intro hKills
      exact subshellStops_killed hDir hKills
    intro answer hAnswer
    cases hOk : answer.ok with
    | false =>
        have hStep :
            Loses env True m1
              (Shell.Script.record m1 (.nsc type) answer
                m1.world) := by
          apply loses_record rfl rfl
          · simp [Spoils, hOk]
          · intro _ hWorks
            rw [hAnswer, hWorks.ok] at hOk
            simp at hOk
        refine ⟨fun _ => ?_, by simp⟩
        exact (hDir.trans hStep).congr (by simp)
    | true =>
        have hStep :
            Loses env
              (isNkeyPair type (strip (answer.printed type).1)
                (strip (answer.printed type).2) = false) m1
              (Shell.Script.record m1 (.nsc type) answer
                m1.world) := by
          apply loses_record rfl rfl
          · simp [Spoils, hOk]
          · intro hInvalid hWorks
            rw [hAnswer, hWorks.valid] at hInvalid
            simp at hInvalid
        refine ⟨by simp, ?_⟩
        intro lines hLines
        have hEq : lines = answer.printed type := by
          simpa using hLines.symm
        rw [hEq]
        refine ⟨(hDir.trans hStep).congr (by simp), ?_⟩
        intro hHonest
        rw [hAnswer] at hOk ⊢
        exact hHonest _ type hOk
  intro printed m2 hPrinted
  cases printed with
  | none =>
      apply Shell.wp_seq (R := fun _ => Loses env True m)
      · have hBefore := hPrinted.1 rfl
        apply wp_attempt_some
        · intro hKills
          exact subshellStops_killed hBefore hKills
        intro answer _
        have hStep :
            Loses env False m2
              (Shell.Script.record m2 .cat answer m2.world) :=
          loses_record rfl rfl Iff.rfl False.elim
        exact (hBefore.trans hStep).congr (by simp)
      intro _ m3 hLost
      exact Or.inr ⟨by simp, hLost⟩
  | some lines =>
      rcases hPrinted.2 lines rfl with ⟨hPrinted, hSame⟩
      apply Shell.wp_seq
        (R := fun _ =>
          Loses env
            (isNkeyPair type (strip lines.1)
              (strip lines.2) = false) m)
      · apply wp_attempt_some
        · intro hKills
          exact subshellStops_killed hPrinted hKills
        intro answer _
        have hStep :
            Loses env False m2
              (Shell.Script.record m2 .chmodTemp answer
                m2.world) :=
          loses_record rfl rfl Iff.rfl False.elim
        exact (hPrinted.trans hStep).congr (by simp)
      intro _ m3 hSafe
      apply Shell.wp_seq (wp_readNkeyLine hSafe)
      intro seed m4 hSeed
      -- What is lost by now, with the first line.
      have hBySeed :
          ∃ lost, Loses env lost m m4 := by
        rcases hSeed with ⟨_, hLoses⟩ | ⟨_, hLoses⟩
        · exact ⟨_, hSafe.trans hLoses⟩
        · exact ⟨_, hSafe.trans hLoses⟩
      rcases hBySeed with ⟨lost, hBySeed⟩
      apply Shell.wp_seq (wp_readNkeyLine hBySeed)
      intro pubkey m5 hPubkey
      by_cases hPair : isNkeyPair type seed pubkey = true
      · have hNotEmpty : ¬ (seed = "" ∨ pubkey = "") := by
          intro hEmpty
          rw [not_isNkeyPair_of_empty hEmpty] at hPair
          simp at hPair
        rcases hSeed with ⟨hSeed, hFirst⟩ | ⟨hSeed, _⟩
        · rcases hPubkey with ⟨hPubkey, hSecond⟩ | ⟨hPubkey, _⟩
          · apply Shell.wp_seq
              (R := fun _ m' => m' = m5)
            · rw [validateNkeyPair, if_pos hPair]
              rfl
            intro _ m6 hLast
            rw [hLast]
            rw [hSeed, hPubkey] at hPair ⊢
            refine ⟨⟨hPair, hSame⟩, ?_⟩
            apply ((hSafe.trans hFirst).trans hSecond).congr
            simp [hPair]
          · exact absurd (Or.inr hPubkey) hNotEmpty
        · exact absurd (Or.inl hSeed) hNotEmpty
      · apply Shell.wp_seq (R := fun _ _ => False)
        · rw [validateNkeyPair, if_neg hPair]
          refine Or.inr ⟨by simp, ?_⟩
          rcases hSeed with ⟨hSeed, hFirst⟩ | ⟨_, hFirst⟩
          · rcases hPubkey with ⟨hPubkey, hSecond⟩ | ⟨_, hSecond⟩
            · apply ((hSafe.trans hFirst).trans hSecond).congr
              rw [hSeed, hPubkey] at hPair
              simpa using hPair
            · exact ((hSafe.trans hFirst).trans hSecond).congr
                (by simp)
          · rcases hPubkey with ⟨_, hSecond⟩ | ⟨_, hSecond⟩
            · exact ((hSafe.trans hFirst).trans hSecond).congr
                (by simp)
            · exact ((hSafe.trans hFirst).trans hSecond).congr
                (by simp)
        intro _ _ hFalse
        exact hFalse.elim

/- A pair of one key, or two empty texts. -/
def PairRead
    (publicKey : String → String)
    (env : Environment Answer)
    (type : KeyType)
    (pair : String × String) : Prop :=
  PairOk publicKey env type pair ∨ pair = ("", "")

theorem pair_ne_empty
    {type : KeyType}
    {pair : String × String}
    (hPair : PairOk publicKey env type pair) :
    pair ≠ ("", "") := by
  intro hEmpty
  have hValid := hPair.1
  rw [hEmpty] at hValid
  simp [isNkeyPair] at hValid

/- The pair is empty exactly when it has been lost. -/
theorem grown_readNkeyPair
    {G : Tree → Tree → Prop}
    [Growth G]
    {Tame : Prop}
    (publicKey : String → String)
    (type : KeyType) :
    Grown env (readNkeyPair type) G Tame
      (fun pair m' =>
        PairRead publicKey env type pair ∧
          Loses env (pair = ("", "")) m m')
      m := by
  unfold readNkeyPair
  apply grown_seq
    (R := fun pair m' =>
      (pair = none → Loses env True m m') ∧
        ∀ value, pair = some value →
          PairOk publicKey env type value ∧
            Loses env False m m')
  · apply Shell.wp_subshell
      (wp_generateNkeyPair publicKey type)
    · intro pair m' hAt
      refine ⟨?_, by simp, ?_⟩
      · dsimp only
        rw [hAt.2.tree]
        exact Growth.refl _
      · intro value hValue
        rw [← Option.some.inj hValue]
        exact ⟨hAt.1, hAt.2.withVars _⟩
    · intro code m' hAt
      rcases hAt with hKilled | ⟨_, hLoses⟩
      · simp at hKilled
      refine ⟨?_, fun _ => hLoses.withVars _, by simp⟩
      dsimp only
      rw [hLoses.tree]
      exact Growth.refl _
    · intro m' hAt
      rcases hAt with ⟨_, hStop, hTree⟩ | hExited
      · refine
          { stopped := Or.inl ⟨rfl, hStop⟩
            grows := ?_
            rough := fun _ hWorks => hStop hWorks.goesOn }
        dsimp only
        rw [hTree]
        exact Growth.refl _
      · exact absurd rfl hExited.1
  intro pair m1 _ hPair
  apply grown_seq
    (R := fun _ => Loses env False m1)
  · apply grown_must
    · intro answer changed hSome
      rw [← Option.some.inj hSome]
      exact ⟨Growth.refl _,
        loses_record rfl rfl Iff.rfl False.elim⟩
    · intro _
      simp
  intro _ m2 _ hRead
  apply grown_pure
  cases pair with
  | none =>
      have hLost := hPair.1 rfl
      exact ⟨Or.inr rfl, (hLost.trans hRead).congr (by simp)⟩
  | some pair =>
      rcases hPair.2 pair rfl with ⟨hOk, hLoses⟩
      refine ⟨Or.inl hOk, (hLoses.trans hRead).congr ?_⟩
      simpa using pair_ne_empty hOk

end GenerateNkeys
