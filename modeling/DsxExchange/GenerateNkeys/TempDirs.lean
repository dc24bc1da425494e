import DsxExchange.GenerateNkeys.Histories

/-
  What becomes of the temporary directories of a run.

  The helper that makes them runs in subshells only, so the
  list that `cleanup` goes through is empty in the main shell.

  Key definitions include:
    * `GenerateNkeys.MadeTempDir`
    * `GenerateNkeys.TempDirEffect`
    * `GenerateNkeys.NothingToMake`

  Key theorems include:
    * `GenerateNkeys.mem_tempDirs_run`
    * `GenerateNkeys.tempDirs_removed_iff`
-/

------------------------------------------------------------
-- The Effects Of Commands
------------------------------------------------------------

namespace GenerateNkeys

open Shell (Uses)

/- A command of the trace has made the directory. -/
def MadeTempDir
    (trace : List (Command × Answer))
    (dir : String) : Prop :=
  ∃ answer,
    (Command.mktempDir, answer) ∈ trace ∧
      answer.ok = true ∧ dir = "/tmp/tmp." ++ answer.name

/- All that a command does to the temporary directories. -/
def TempDirEffect
    (name : Command)
    (effect : Answer → World → World) : Prop :=
  ∀ answer world dir,
    dir ∈ (effect answer world).tempDirs ↔
      dir ∈ world.tempDirs ∨
        (name = .mktempDir ∧ answer.ok = true ∧
          dir = "/tmp/tmp." ++ answer.name)

def KeepsTempDirs (effect : World → Option World) : Prop :=
  ∀ world changed,
    effect world = some changed →
      changed.tempDirs = world.tempDirs

theorem keepsTempDirs_some : KeepsTempDirs some := by
  intro world changed hEq
  rw [Option.some.inj hEq]

theorem keepsTempDirs_mkdir (path : Path) :
    KeepsTempDirs (mkdir path) := by
  intro world changed hEq
  unfold mkdir at hEq
  split at hEq
  · simp at hEq
  · rw [← Option.some.inj hEq]

theorem keepsTempDirs_chmod (path : Path) :
    KeepsTempDirs (chmod path) := by
  intro world changed hEq
  unfold chmod at hEq
  split at hEq
  · simp at hEq
  · rw [← Option.some.inj hEq]

theorem keepsTempDirs_write (path : Path) (value : String) :
    KeepsTempDirs (write path value) := by
  intro world changed hEq
  unfold write at hEq
  split at hEq
  · simp at hEq
  · rw [← Option.some.inj hEq]

theorem keepsTempDirs_move (source target : Path) :
    KeepsTempDirs (move source target) := by
  intro world changed hEq
  simp only [move] at hEq
  split at hEq
  · split at hEq
    · simp at hEq
    · rw [← Option.some.inj hEq]
  · split at hEq
    · simp at hEq
    · rw [← Option.some.inj hEq]

theorem keepsTempDirs_remove (path : Path) :
    KeepsTempDirs (remove path) := by
  intro world changed hEq
  unfold remove at hEq
  split at hEq
  · simp at hEq
  · rw [← Option.some.inj hEq]

theorem tempDirEffect_of_eq
    {name : Command}
    {effect : Answer → World → World}
    (hName : name ≠ .mktempDir)
    (hSame :
      ∀ answer world,
        (effect answer world).tempDirs = world.tempDirs) :
    TempDirEffect name effect := by
  intro answer world dir
  rw [hSame answer world]
  constructor
  · intro hMem
    exact Or.inl hMem
  · intro hMem
    rcases hMem with hMem | hMade
    · exact hMem
    · exact absurd hMade.1 hName

end GenerateNkeys

------------------------------------------------------------
-- The Commands Of Scripts
------------------------------------------------------------

namespace GenerateNkeys

open Shell (Uses)

variable {Allowed : Command → (Answer → World → World) → Prop}
variable {inner : Bool}

/- What a command with a status does to the world. -/
def effectOf
    (effect : World → Option World)
    (answer : Answer)
    (world : World) : World :=
  if answer.ok then (effect world).getD world else world

theorem uses_attempt_of
    {name : Command}
    {effect : World → Option World}
    (hAllowed : Allowed name (effectOf effect)) :
    Uses Allowed inner (attempt name effect) := by
  apply Uses.command
  refine Eq.mpr (congrArg (Allowed name) ?_) hAllowed
  funext answer world
  unfold effectOf
  cases answer.ok with
  | false => rfl
  | true =>
      cases effect world with
      | none => rfl
      | some changed => rfl

theorem uses_must_of
    {name : Command}
    {effect : World → Option World}
    (hAllowed : Allowed name (effectOf effect)) :
    Uses Allowed inner (must name effect) := by
  unfold must
  apply Uses.bind (uses_attempt_of hAllowed)
  intro ok
  cases ok with
  | true => exact Uses.pure ()
  | false => exact Uses.exit 1

theorem uses_look_of
    {α : Type}
    {name : Command}
    {look : Answer → World → α}
    (hAllowed : Allowed name (fun _ world => world)) :
    Uses Allowed inner
      (Shell.Script.command name
        (fun answer world => (look answer world, world)) :
          Script α) :=
  Uses.command hAllowed

theorem uses_requireModes_of
    {directory : Path}
    {files : Bool}
    (hAllowed :
      Allowed (.find directory) (fun _ world => world)) :
    Uses Allowed inner (requireModes directory files) := by
  unfold requireModes
  apply Uses.bind
  · apply Uses.command
    have hSame :
        (fun (answer : Answer) (world : World) =>
          (if answer.ok = true ∧
              directoryExists directory world.tree = true then
            (some (findWrong directory files world), world)
          else
            (none, world)).2) = fun _ world => world := by
      funext answer world
      split
      · rfl
      · rfl
    rw [hSame]
    exact hAllowed
  intro bad
  cases bad with
  | none => exact Uses.exit 1
  | some paths =>
      cases paths with
      | nil => exact Uses.pure ()
      | cons path rest => exact Uses.exit 1

theorem uses_auditSecretPermissions_of
    {cluster : String}
    (hAllowed :
      Allowed (.find (nkeysDir cluster))
        (fun _ world => world)) :
    Uses Allowed inner (auditSecretPermissions cluster) :=
  Uses.bind (uses_requireModes_of hAllowed)
    (fun _ => uses_requireModes_of hAllowed)

end GenerateNkeys

------------------------------------------------------------
-- The Scripts
------------------------------------------------------------

namespace GenerateNkeys

open Shell (Uses)

variable {inner : Bool}

theorem tempDirEffect_look
    {name : Command}
    (hName : name ≠ .mktempDir) :
    TempDirEffect name (fun _ world => world) :=
  tempDirEffect_of_eq hName (fun _ _ => rfl)

theorem tempDirEffect_effectOf
    {name : Command}
    {effect : World → Option World}
    (hName : name ≠ .mktempDir)
    (hKeeps : KeepsTempDirs effect) :
    TempDirEffect name (effectOf effect) := by
  apply tempDirEffect_of_eq hName
  intro answer world
  unfold effectOf
  cases answer.ok with
  | false => rfl
  | true =>
      cases hEffect : effect world with
      | none => rfl
      | some changed => exact hKeeps world changed hEffect

theorem uses_attempt
    {name : Command}
    {effect : World → Option World}
    (hName : name ≠ .mktempDir)
    (hKeeps : KeepsTempDirs effect) :
    Uses TempDirEffect inner (attempt name effect) :=
  uses_attempt_of (tempDirEffect_effectOf hName hKeeps)

theorem uses_must
    {name : Command}
    {effect : World → Option World}
    (hName : name ≠ .mktempDir)
    (hKeeps : KeepsTempDirs effect) :
    Uses TempDirEffect inner (must name effect) :=
  uses_must_of (tempDirEffect_effectOf hName hKeeps)

theorem uses_look
    {α : Type}
    {name : Command}
    {look : Answer → World → α}
    (hName : name ≠ .mktempDir) :
    Uses TempDirEffect inner
      (Shell.Script.command name
        (fun answer world => (look answer world, world)) :
          Script α) :=
  uses_look_of (tempDirEffect_look hName)

theorem uses_mktemp (directory : Path) (key : String) :
    Uses TempDirEffect inner (mktemp directory key) := by
  apply Uses.command
  refine tempDirEffect_of_eq nofun ?_
  intro answer world
  dsimp only
  split
  · rfl
  · rfl

theorem uses_auditSecretPermissions (cluster : String) :
    Uses TempDirEffect inner
      (auditSecretPermissions cluster) :=
  uses_auditSecretPermissions_of (tempDirEffect_look nofun)

/- The one helper that makes a directory. -/
theorem uses_makeTempDir :
    Uses TempDirEffect true makeTempDir := by
  unfold makeTempDir
  apply Uses.bind
  · apply Uses.command
    intro answer world dir
    dsimp only
    split
    · rename_i hMade
      simp [hMade.1]
    · rename_i hNotMade
      constructor
      · intro hMem
        exact Or.inl hMem
      · intro hMem
        rcases hMem with hMem | hMade
        · exact hMem
        · rw [hMade.2.2]
          by_contra hAbsent
          exact hNotMade ⟨hMade.2.1, hAbsent⟩
  intro dir
  refine Uses.bind (uses_attempt nofun keepsTempDirs_some) ?_
  intro ok
  apply Uses.bind (Uses.modifyVars _)
  intro _
  exact Uses.pure dir

theorem uses_readNkeyLine (line : ℕ) (text : String) :
    Uses TempDirEffect inner (readNkeyLine line text) :=
  Uses.bind (uses_attempt nofun keepsTempDirs_some)
    (fun _ => Uses.pure _)

theorem uses_validateNkeyPair
    (type : KeyType)
    (seed pubkey : String) :
    Uses TempDirEffect inner
      (validateNkeyPair type seed pubkey) := by
  unfold validateNkeyPair
  split
  · exact Uses.pure ()
  · exact Uses.exit 1

theorem uses_generateNkeyPair (type : KeyType) :
    Uses TempDirEffect inner (generateNkeyPair type) := by
  unfold generateNkeyPair
  apply Uses.bind (Uses.subshell uses_makeTempDir)
  intro _
  refine Uses.bind (uses_look nofun) ?_
  intro printed
  cases printed with
  | none =>
      refine Uses.bind (uses_attempt nofun keepsTempDirs_some) ?_
      intro _
      exact Uses.exit 1
  | some lines =>
      refine Uses.bind (uses_attempt nofun keepsTempDirs_some) ?_
      intro _
      apply Uses.bind (uses_readNkeyLine _ _)
      intro seed
      apply Uses.bind (uses_readNkeyLine _ _)
      intro pubkey
      apply Uses.bind (uses_validateNkeyPair _ _ _)
      intro _
      exact Uses.pure _

theorem uses_readNkeyPair (type : KeyType) :
    Uses TempDirEffect inner (readNkeyPair type) := by
  unfold readNkeyPair
  apply Uses.bind (Uses.subshell (uses_generateNkeyPair type))
  intro pair
  refine Uses.bind (uses_must nofun keepsTempDirs_some) ?_
  intro _
  exact Uses.pure _

theorem uses_prepareOutputRoot (outputRoot : String) :
    Uses TempDirEffect inner (prepareOutputRoot outputRoot) := by
  unfold prepareOutputRoot
  split
  · exact Uses.exit 1
  · exact Uses.bind (uses_must nofun (keepsTempDirs_mkdir _))
      (fun _ => uses_must nofun (keepsTempDirs_chmod _))

theorem uses_prepareOutputDir (cluster : String) :
    Uses TempDirEffect inner (prepareOutputDir cluster) := by
  unfold prepareOutputDir
  refine Uses.bind (uses_must nofun (keepsTempDirs_mkdir _)) ?_
  intro _
  refine Uses.bind (uses_must nofun (keepsTempDirs_chmod _)) ?_
  intro _
  refine Uses.bind (uses_must nofun (keepsTempDirs_mkdir _)) ?_
  intro _
  exact uses_must nofun (keepsTempDirs_chmod _)

theorem uses_writeSecretValue
    (cluster secretName key value : String) :
    Uses TempDirEffect inner
      (writeSecretValue cluster secretName key value) := by
  unfold writeSecretValue
  refine Uses.bind (uses_must nofun (keepsTempDirs_mkdir _)) ?_
  intro _
  refine Uses.bind (uses_must nofun (keepsTempDirs_chmod _)) ?_
  intro _
  apply Uses.bind (uses_mktemp _ _)
  intro tmp
  cases tmp with
  | none => exact Uses.exit 1
  | some tmp =>
      refine Uses.bind (uses_must nofun (keepsTempDirs_write _ _)) ?_
      intro _
      refine Uses.bind (uses_must nofun (keepsTempDirs_chmod _)) ?_
      intro _
      exact uses_must nofun (keepsTempDirs_move _ _)

theorem uses_generateBaseKeys :
    Uses TempDirEffect inner generateBaseKeys := by
  unfold generateBaseKeys
  apply Uses.bind (uses_readNkeyPair _)
  intro authSigning
  apply Uses.bind (uses_readNkeyPair _)
  intro xkey
  apply Uses.bind (uses_readNkeyPair _)
  intro authxUser
  apply Uses.bind (uses_readNkeyPair _)
  intro nackUser
  apply Uses.bind (uses_readNkeyPair _)
  intro mtlsLeaf
  apply Uses.bind (uses_readNkeyPair _)
  intro mtlsAuthxLeaf
  apply Uses.bind (uses_readNkeyPair _)
  intro mtlsSysLeaf
  apply Uses.bind (uses_readNkeyPair _)
  intro surveyor
  exact Uses.pure _

theorem uses_generateCluster (cluster : String) :
    Uses TempDirEffect inner (generateCluster cluster) := by
  unfold generateCluster
  apply Uses.bind (Uses.inspect _)
  intro started
  cases started with
  | true => exact uses_auditSecretPermissions cluster
  | false =>
      apply Uses.bind (uses_prepareOutputDir cluster)
      intro _
      apply Uses.bind
      · apply Uses.bind uses_generateBaseKeys
        intro keys
        exact Uses.forEach
          (fun entry => uses_writeSecretValue _ _ _ _)
      intro _
      exact uses_auditSecretPermissions cluster

theorem uses_removeUnusedLeafKeys
    (cscSecretName cpcId cpcSecretName : String) :
    Uses TempDirEffect inner
      (removeUnusedLeafKeys cscSecretName cpcId
        cpcSecretName) :=
  Uses.bind (uses_must nofun (keepsTempDirs_remove _))
    (fun _ => uses_must nofun (keepsTempDirs_remove _))

theorem uses_generateLeafOutputsPair
    (publicKey : String → String)
    (cpcId cscSecretName cpcSecretName : String) :
    Uses TempDirEffect inner
      (generateLeafOutputsPair publicKey cpcId cscSecretName
        cpcSecretName) := by
  have hAudits :
      Uses TempDirEffect inner (do
        auditSecretPermissions "csc"
        auditSecretPermissions (cpcCluster cpcId)) :=
    Uses.bind (uses_auditSecretPermissions _)
      (fun _ => uses_auditSecretPermissions _)
  unfold generateLeafOutputsPair
  apply Uses.bind (Uses.inspect _)
  intro outputs
  cases outputs with
  | complete =>
      apply Uses.bind
      · exact Uses.bind (uses_look nofun) (fun _ =>
          Uses.bind (uses_look nofun) (fun _ => Uses.pure _))
      intro same
      cases same with
      | true =>
          exact Uses.bind (uses_removeUnusedLeafKeys _ _ _)
            (fun _ => hAudits)
      | false => exact Uses.bind (Uses.exit 1) (fun _ => hAudits)
  | fresh =>
      apply Uses.bind
      · apply Uses.bind (uses_readNkeyPair _)
        intro pair
        apply Uses.bind (uses_writeSecretValue _ _ _ _)
        intro _
        apply Uses.bind (uses_writeSecretValue _ _ _ _)
        intro _
        exact uses_removeUnusedLeafKeys _ _ _
      intro _
      exact hAudits
  | inconsistent =>
      exact Uses.bind (Uses.exit 1) (fun _ => hAudits)

theorem uses_generateCpc
    (publicKey : String → String)
    (request : Request)
    (cpcId : CpcId) :
    Uses TempDirEffect inner
      (generateCpc publicKey request cpcId) := by
  unfold generateCpc
  apply Uses.bind (uses_generateCluster _)
  intro _
  apply Uses.bind (uses_generateLeafOutputsPair _ _ _ _)
  intro _
  exact Uses.forEach
    (fun account => uses_generateLeafOutputsPair _ _ _ _)

theorem uses_generate
    (publicKey : String → String)
    (outputRoot : String)
    (request : Request) :
    Uses TempDirEffect inner
      (generate publicKey outputRoot request) := by
  unfold generate
  apply Uses.bind (uses_prepareOutputRoot _)
  intro _
  apply Uses.bind (uses_generateCluster _)
  intro _
  apply Uses.bind
    (Uses.forEach (fun cpcId => uses_generateCpc _ _ cpcId))
  intro _
  exact uses_must nofun keepsTempDirs_some

theorem uses_checkPrerequisites :
    Uses TempDirEffect inner checkPrerequisites := by
  unfold checkPrerequisites
  refine Uses.bind (uses_attempt nofun keepsTempDirs_some) ?_
  intro nsc
  refine Uses.bind (uses_attempt nofun keepsTempDirs_some) ?_
  intro nk
  split
  · exact Uses.pure ()
  · exact Uses.exit 1

end GenerateNkeys

------------------------------------------------------------
-- What Is Left
------------------------------------------------------------

namespace GenerateNkeys

open Shell (wp Uses)

variable {publicKey : String → String}
variable {outputRoot : String}
variable {request : Request}
variable {env : Shell.Environment Answer}
variable {tree : Tree}
variable {wrongModes : List Path}

/- The directories of the world are those of the trace. -/
def TempDirsMade
    (world : World)
    (trace : List (Command × Answer)) : Prop :=
  ∀ dir, dir ∈ world.tempDirs ↔ MadeTempDir trace dir

theorem madeTempDir_concat
    (trace : List (Command × Answer))
    (name : Command)
    (answer : Answer)
    (dir : String) :
    MadeTempDir (trace ++ [(name, answer)]) dir ↔
      MadeTempDir trace dir ∨
        (name = .mktempDir ∧ answer.ok = true ∧
          dir = "/tmp/tmp." ++ answer.name) := by
  unfold MadeTempDir
  constructor
  · intro hMade
    rcases hMade with ⟨other, hMem, hOk, hDir⟩
    rcases List.mem_append.mp hMem with hOld | hNew
    · exact Or.inl ⟨other, hOld, hOk, hDir⟩
    · have hStep := Prod.mk.inj (List.mem_singleton.mp hNew)
      rw [hStep.2] at hOk hDir
      exact Or.inr ⟨hStep.1.symm, hOk, hDir⟩
  · intro hEither
    rcases hEither with hOld | hNew
    · rcases hOld with ⟨other, hMem, hOk, hDir⟩
      exact ⟨other, List.mem_append_left _ hMem, hOk, hDir⟩
    · refine ⟨answer, ?_, hNew.2.1, hNew.2.2⟩
      rw [← hNew.1]
      exact List.mem_append_right _ (List.mem_singleton_self _)

theorem tempDirsMade_step
    {name : Command}
    {effect : Answer → World → World}
    (answer : Answer)
    {world : World}
    {trace : List (Command × Answer)}
    (hEffect : TempDirEffect name effect)
    (hMade : TempDirsMade world trace) :
    TempDirsMade (effect answer world)
      (trace ++ [(name, answer)]) := by
  intro dir
  rw [hEffect answer world dir, madeTempDir_concat, hMade dir]

theorem cleanup_nil (world : World) : cleanup [] world = world := by
  simp [cleanup]

/-
  The main shell never knows of a directory, so `cleanup`
  removes none.
-/
theorem wp_trapExit_tempDirs
    {m : Machine}
    (hVars : m.vars = [])
    (hStart : TempDirsMade m.world m.trace) :
    wp env
      (Shell.Script.trapExit cleanup
        (generate publicKey outputRoot request))
      (fun _ m' => TempDirsMade m'.world m'.trace)
      (fun _ m' => TempDirsMade m'.world m'.trace) m := by
  have hGenerate :
      Uses TempDirEffect false
        (generate publicKey outputRoot request) :=
    uses_generate publicKey outputRoot request
  have hUses :=
    Shell.wp_of_uses
      (fun _ _ answer _ _ => tempDirsMade_step answer)
      hGenerate env m hStart
  apply Shell.wp_trapExit hUses
  · intro _ m' hAt
    rw [hAt.2 rfl, hVars, cleanup_nil]
    exact hAt.1
  · intro _ m' hAt
    rw [hAt.2 rfl, hVars, cleanup_nil]
    exact hAt.1
  · intro m' hAt
    exact hAt.1

/- Every directory that a run makes is there at its end. -/
theorem mem_tempDirs_run
    (publicKey : String → String)
    (outputRoot : String)
    (request : Request)
    (env : Shell.Environment Answer)
    (tree : Tree)
    (wrongModes : List Path)
    (dir : String) :
    let last :=
      (run publicKey outputRoot request env
        (start tree wrongModes)).2
    dir ∈ last.world.tempDirs ↔ MadeTempDir last.trace dir := by
  have hStart :
      TempDirsMade (start tree wrongModes).world
        (start tree wrongModes).trace := by
    intro dir
    simp [start, MadeTempDir]
  have hCheck :
      Uses TempDirEffect false checkPrerequisites :=
    uses_checkPrerequisites
  have hRun :
      wp env (run publicKey outputRoot request)
        (fun _ m => TempDirsMade m.world m.trace)
        (fun _ m => TempDirsMade m.world m.trace)
        (start tree wrongModes) := by
    apply Shell.wp_seq
    · apply Shell.wp_mono
        (Shell.wp_of_uses
          (fun _ _ answer _ _ => tempDirsMade_step answer)
          hCheck env (start tree wrongModes) hStart)
      · intro _ m' hAt
        exact And.intro hAt.1 (hAt.2 rfl)
      · intro _ m' hAt
        exact hAt.1
    intro _ m' hAt
    exact wp_trapExit_tempDirs hAt.2 hAt.1
  exact Shell.wp_elim hRun dir

end GenerateNkeys

------------------------------------------------------------
-- Runs That Make Nothing
------------------------------------------------------------

namespace GenerateNkeys

open Shell (wp Uses Environment)

/- The files that are removed when a leaf is complete. -/
def UnusedFile (p : Path) : Prop :=
  ∃ leaf : Leaf, p = leaf.cscSeed ∨ p = leaf.cpcPubkey

/- No key pair is missing of what is requested. -/
def NothingToMake (request : Request) (tree : Tree) : Prop :=
  (∀ cluster ∈ request.clusters,
    tree (nkeysDir cluster) = some .dir) ∧
    ∀ leaf ∈ request.leaves, leaf.outputs tree ≠ .fresh

/- A command that makes no key, and no directory for one. -/
def IdleEffect
    (name : Command)
    (effect : Answer → World → World) : Prop :=
  name ≠ .mktempDir ∧
    ∀ answer world p,
      p ≠ [] →
        ¬ UnusedFile p →
          (effect answer world).tree p = world.tree p

/- The tree has stayed, and no directory has been made. -/
def Idle
    (tree : Tree)
    (world : World)
    (trace : List (Command × Answer)) : Prop :=
  (∀ p, p ≠ [] → ¬ UnusedFile p → world.tree p = tree p) ∧
    ∀ step ∈ trace, step.1 ≠ .mktempDir

variable {publicKey : String → String}
variable {env : Environment Answer}
variable {outputRoot : String}
variable {request : Request}
variable {tree : Tree}
variable {inner : Bool}
variable {m : Machine}

theorem idle_step
    (tree : Tree)
    {name : Command}
    {effect : Answer → World → World}
    (answer : Answer)
    {world : World}
    {trace : List (Command × Answer)}
    (hEffect : IdleEffect name effect)
    (hIdle : Idle tree world trace) :
    Idle tree (effect answer world)
      (trace ++ [(name, answer)]) := by
  constructor
  · intro p hSome hUsed
    rw [hEffect.2 answer world p hSome hUsed]
    exact hIdle.1 p hSome hUsed
  · intro step hStep
    rcases List.mem_append.mp hStep with hOld | hNew
    · exact hIdle.2 step hOld
    · rw [List.mem_singleton.mp hNew]
      exact hEffect.1

/- A script of idle commands leaves everything idle. -/
theorem wp_idle
    {α : Type}
    {script : Script α}
    (hUses : Uses IdleEffect true script)
    (hIdle : Idle tree m.world m.trace) :
    wp env script
      (fun _ m' => Idle tree m'.world m'.trace)
      (fun _ m' => Idle tree m'.world m'.trace) m := by
  have hBoth :=
    Shell.wp_of_uses
      (fun _ _ answer _ _ => idle_step tree answer)
      hUses env m hIdle
  apply Shell.wp_mono hBoth
  · intro _ m' hAt
    exact hAt.1
  · intro _ m' hAt
    exact hAt.1

theorem idleEffect_look
    {name : Command}
    (hName : name ≠ .mktempDir) :
    IdleEffect name (fun _ world => world) :=
  ⟨hName, fun _ _ _ _ _ => rfl⟩

theorem idleEffect_effectOf
    {name : Command}
    {effect : World → Option World}
    (hName : name ≠ .mktempDir)
    (hSame :
      ∀ world changed p,
        effect world = some changed →
          p ≠ [] →
            ¬ UnusedFile p →
              changed.tree p = world.tree p) :
    IdleEffect name (effectOf effect) := by
  refine ⟨hName, ?_⟩
  intro answer world p hSome hUsed
  unfold effectOf
  cases answer.ok with
  | false => rfl
  | true =>
      cases hEffect : effect world with
      | none => rfl
      | some changed =>
          exact hSame world changed p hEffect hSome hUsed

theorem idleEffect_some
    {name : Command}
    (hName : name ≠ .mktempDir) :
    IdleEffect name (effectOf some) := by
  apply idleEffect_effectOf hName
  intro world changed p hEq _ _
  rw [Option.some.inj hEq]

theorem idleEffect_remove
    {path : Path}
    (hUnused : UnusedFile path) :
    IdleEffect (.remove path) (effectOf (remove path)) := by
  refine idleEffect_effectOf nofun ?_
  intro world changed p hRemove _ hUsed
  unfold remove at hRemove
  split at hRemove
  · simp at hRemove
  · rw [← Option.some.inj hRemove]
    apply setNode_of_ne
    intro hEq
    rw [hEq] at hUsed
    exact hUsed hUnused

theorem idle_checkPrerequisites :
    Uses IdleEffect inner checkPrerequisites := by
  unfold checkPrerequisites
  refine Uses.bind
    (uses_attempt_of (idleEffect_some nofun)) ?_
  intro nsc
  refine Uses.bind
    (uses_attempt_of (idleEffect_some nofun)) ?_
  intro nk
  split
  · exact Uses.pure ()
  · exact Uses.exit 1

theorem idle_prepareOutputRoot (outputRoot : String) :
    Uses IdleEffect inner (prepareOutputRoot outputRoot) := by
  have hMkdir :
      IdleEffect (.mkdir []) (effectOf (mkdir [])) := by
    refine idleEffect_effectOf nofun ?_
    intro world changed p hChanged hSome _
    apply (mkdir_some hChanged).1.same
    intro node hNew
    exact hSome (List.prefix_nil.mp hNew.1)
  have hChmod :
      IdleEffect (.chmod []) (effectOf (chmod [])) := by
    refine idleEffect_effectOf nofun ?_
    intro world changed p hChanged _ _
    rw [(chmod_some hChanged).1]
  unfold prepareOutputRoot
  split
  · exact Uses.exit 1
  · exact Uses.bind (uses_must_of hMkdir)
      (fun _ => uses_must_of hChmod)

theorem idle_auditSecretPermissions (cluster : String) :
    Uses IdleEffect inner (auditSecretPermissions cluster) :=
  uses_auditSecretPermissions_of (idleEffect_look nofun)

theorem idle_removeUnusedLeafKeys (leaf : Leaf) :
    Uses IdleEffect inner
      (removeUnusedLeafKeys leaf.cscSecret leaf.cpcId
        leaf.cpcSecret) :=
  Uses.bind
    (uses_must_of
      (idleEffect_remove ⟨leaf, Or.inl rfl⟩))
    (fun _ =>
      uses_must_of (idleEffect_remove ⟨leaf, Or.inr rfl⟩))

theorem not_unusedFile_of_length
    {p : Path}
    (hLength : p.length ≤ 3) :
    ¬ UnusedFile p := by
  intro hUnused
  rcases hUnused with ⟨leaf, hEq | hEq⟩
  · rw [hEq] at hLength
    simp [Leaf.cscSeed, secretFile] at hLength
  · rw [hEq] at hLength
    simp [Leaf.cpcPubkey, secretFile] at hLength

theorem not_unusedFile_cscPubkey (leaf : Leaf) :
    ¬ UnusedFile leaf.cscPubkey := by
  intro hUnused
  rcases hUnused with ⟨other, hEq | hEq⟩
  · exact absurd (secretFile_inj hEq).2.2 (by decide)
  · exact leaf_cluster_ne_csc other
      (secretFile_inj hEq).1.symm

theorem not_unusedFile_cpcSeed (leaf : Leaf) :
    ¬ UnusedFile leaf.cpcSeed := by
  intro hUnused
  rcases hUnused with ⟨other, hEq | hEq⟩
  · exact leaf_cluster_ne_csc leaf (secretFile_inj hEq).1
  · exact absurd (secretFile_inj hEq).2.2 (by decide)

/- What is requested is judged as at the start of the run. -/
theorem nothingToMake_of_idle
    {world : World}
    {trace : List (Command × Answer)}
    (hNothing : NothingToMake request tree)
    (hIdle : Idle tree world trace) :
    NothingToMake request world.tree := by
  constructor
  · intro cluster hMem
    rw [hIdle.1 _ (by simp [nkeysDir])
      (not_unusedFile_of_length (by simp [nkeysDir]))]
    exact hNothing.1 cluster hMem
  · intro leaf hMem hFresh
    apply hNothing.2 leaf hMem
    rw [← hFresh]
    symm
    apply outputs_eq_of_same
    · exact hIdle.1 _ (by simp [Leaf.cscPubkey, secretFile])
        (not_unusedFile_cscPubkey leaf)
    · exact hIdle.1 _ (by simp [Leaf.cpcSeed, secretFile])
        (not_unusedFile_cpcSeed leaf)
    · exact hIdle.1 _ (by simp [Leaf.cscDir, secretDir])
        (not_unusedFile_of_length
          (by simp [Leaf.cscDir, secretDir]))
    · exact hIdle.1 _ (by simp [Leaf.cpcDir, secretDir])
        (not_unusedFile_of_length
          (by simp [Leaf.cpcDir, secretDir]))

/- A cluster and a leaf that there is nothing to make of. -/
theorem idle_generateCluster
    {cluster : String}
    (hNothing : NothingToMake request tree)
    (hMem : cluster ∈ request.clusters)
    (hIdle : Idle tree m.world m.trace) :
    wp env (generateCluster cluster)
      (fun _ m' => Idle tree m'.world m'.trace)
      (fun _ m' => Idle tree m'.world m'.trace) m := by
  have hDir :=
    (nothingToMake_of_idle hNothing hIdle).1 cluster hMem
  unfold generateCluster
  apply Shell.wp_bind
  apply Shell.wp_inspect
  have hStarted :
      directoryExists (nkeysDir cluster) m.world.tree = true := by
    simp [directoryExists, hDir]
  rw [if_pos hStarted]
  exact wp_idle (idle_auditSecretPermissions cluster) hIdle

theorem idle_generateLeaf
    {leaf : Leaf}
    (hNothing : NothingToMake request tree)
    (hMem : leaf ∈ request.leaves)
    (hIdle : Idle tree m.world m.trace) :
    wp env (generateLeaf publicKey leaf)
      (fun _ m' => Idle tree m'.world m'.trace)
      (fun _ m' => Idle tree m'.world m'.trace) m := by
  have hStarted :=
    (nothingToMake_of_idle hNothing hIdle).2 leaf hMem
  have hAudits :
      Uses IdleEffect true (do
        auditSecretPermissions "csc"
        auditSecretPermissions leaf.cluster) :=
    Uses.bind (idle_auditSecretPermissions _)
      (fun _ => idle_auditSecretPermissions _)
  unfold generateLeaf generateLeafOutputsPair
  apply Shell.wp_bind
  apply Shell.wp_inspect
  cases hOutputs : leaf.outputs m.world.tree with
  | fresh => exact absurd hOutputs hStarted
  | complete =>
      unfold Leaf.outputs at hOutputs
      rw [hOutputs]
      apply wp_idle _ hIdle
      apply Uses.bind
      · exact Uses.bind
          (uses_look_of (idleEffect_look nofun)) (fun _ =>
            Uses.bind (uses_look_of (idleEffect_look nofun))
              (fun _ => Uses.pure _))
      intro same
      cases same with
      | true =>
          exact Uses.bind (idle_removeUnusedLeafKeys leaf)
            (fun _ => hAudits)
      | false => exact Uses.bind (Uses.exit 1) (fun _ => hAudits)
  | inconsistent =>
      unfold Leaf.outputs at hOutputs
      rw [hOutputs]
      apply wp_idle _ hIdle
      exact Uses.bind (Uses.exit 1) (fun _ => hAudits)

theorem idle_generateCpc
    {cpcId : CpcId}
    (hNothing : NothingToMake request tree)
    (hMem : cpcId ∈ request.cpcIds)
    (hIdle : Idle tree m.world m.trace) :
    wp env (generateCpc publicKey request cpcId)
      (fun _ m' => Idle tree m'.world m'.trace)
      (fun _ m' => Idle tree m'.world m'.trace) m := by
  have hCluster : cpcCluster cpcId.val ∈ request.clusters :=
    List.mem_cons_of_mem _ (List.mem_map.mpr ⟨cpcId, hMem, rfl⟩)
  rw [generateCpc_eq]
  apply Shell.wp_seq
    (idle_generateCluster hNothing hCluster hIdle)
  intro _ m1 hAt
  apply Shell.wp_forEach
    (fun _ m' => Idle tree m'.world m'.trace) hAt
  intro passed leaf rest m2 hItems hBefore
  have hLeaf : leaf ∈ request.leavesOf cpcId := by
    rw [hItems]
    simp
  exact idle_generateLeaf hNothing
    (List.mem_flatMap.mpr ⟨cpcId, hMem, hLeaf⟩) hBefore

/- Where nothing is to be made, no directory is made. -/
theorem idle_run
    (hNothing : NothingToMake request tree)
    (wrongModes : List Path) :
    wp env (run publicKey outputRoot request)
      (fun _ m' => Idle tree m'.world m'.trace)
      (fun _ m' => Idle tree m'.world m'.trace)
      (start tree wrongModes) := by
  have hStart :
      Idle tree (start tree wrongModes).world
        (start tree wrongModes).trace := by
    refine ⟨fun _ _ _ => rfl, ?_⟩
    intro step hMem
    cases hMem
  unfold run
  apply Shell.wp_seq (wp_idle idle_checkPrerequisites hStart)
  intro _ m1 hAt
  have hGenerate :
      wp env (generate publicKey outputRoot request)
        (fun _ m' => Idle tree m'.world m'.trace)
        (fun _ m' => Idle tree m'.world m'.trace) m1 := by
    unfold generate
    apply Shell.wp_seq
      (wp_idle (idle_prepareOutputRoot outputRoot) hAt)
    intro _ m2 hAt2
    apply Shell.wp_seq
      (idle_generateCluster hNothing (by simp [Request.clusters])
        hAt2)
    intro _ m3 hAt3
    apply Shell.wp_seq
      (Shell.wp_forEach
        (fun _ m' => Idle tree m'.world m'.trace) hAt3
        (fun passed cpcId rest m4 hItems hBefore =>
          idle_generateCpc hNothing (by rw [hItems]; simp)
            hBefore))
    intro _ m5 hAt5
    exact wp_idle
      (uses_must_of (idleEffect_some (by simp))) hAt5
  apply Shell.wp_trapExit hGenerate
  · intro _ m' hLast
    exact hLast
  · intro _ m' hLast
    exact hLast
  · intro m' hLast
    exact hLast

end GenerateNkeys

------------------------------------------------------------
-- What Is Removed
------------------------------------------------------------

namespace GenerateNkeys

open Shell (Environment)

/-
  All directories that a run makes are removed exactly when it
  makes none, which is so where nothing is to be made.
-/
theorem tempDirs_removed_iff
    (publicKey : String → String)
    (outputRoot : String)
    (request : Request)
    (env : Environment Answer)
    (tree : Tree)
    (wrongModes : List Path) :
    let last :=
      (run publicKey outputRoot request env
        (start tree wrongModes)).2
    ((∀ dir,
        MadeTempDir last.trace dir →
          dir ∉ last.world.tempDirs) ↔
      ∀ step ∈ last.trace,
        step.1 = .mktempDir → step.2.ok = false) ∧
    (NothingToMake request tree →
      ∀ step ∈ last.trace, step.1 ≠ .mktempDir) := by
  intro last
  constructor
  · constructor
    · intro hRemoved step hStep hName
      by_contra hOk
      have hMade :
          MadeTempDir last.trace
            ("/tmp/tmp." ++ step.2.name) := by
        refine ⟨step.2, ?_, by simpa using hOk, rfl⟩
        rw [← hName]
        exact hStep
      exact hRemoved _ hMade
        ((mem_tempDirs_run publicKey outputRoot request env tree
          wrongModes _).mpr hMade)
    · intro hNone dir hMade
      rcases hMade with ⟨answer, hStep, hOk, _⟩
      rw [hNone _ hStep rfl] at hOk
      simp at hOk
  · intro hNothing
    exact (Shell.wp_elim (idle_run hNothing wrongModes)).2

/- A run that makes the pair of a leaf leaves a directory. -/
theorem not_tempDirs_removed_startedTree :
    let last :=
      run sampleKey "secrets" withCpcOne (sampleEnv none [])
        (start startedTree [])
    last.1 = .done () ∧
      ∃ dir,
        MadeTempDir last.2.trace dir ∧
          dir ∈ last.2.world.tempDirs := by
  have hMade :=
    mem_tempDirs_run sampleKey "secrets" withCpcOne
      (sampleEnv none []) startedTree [] "/tmp/tmp.8"
  have hLeft :
      "/tmp/tmp.8" ∈
        (run sampleKey "secrets" withCpcOne (sampleEnv none [])
          (start startedTree [])).2.world.tempDirs := by
    decide +kernel
  have hDone :
      (run sampleKey "secrets" withCpcOne (sampleEnv none [])
        (start startedTree [])).1 = .done () := by
    decide +kernel
  exact ⟨hDone, "/tmp/tmp.8", hMade.mp hLeft, hLeft⟩

end GenerateNkeys
