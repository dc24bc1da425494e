import DsxExchange.GenerateNkeys.Files

/-
  How a tree of secrets grows, and the rules for scripts that
  only let it grow.

  A script that stops says why, has still only grown the tree,
  and would not have stopped where everything works.

  Key definitions include:
    * `GenerateNkeys.Rooted`, `GenerateNkeys.Grows`
    * `GenerateNkeys.Spoils`, `GenerateNkeys.Works`
    * `GenerateNkeys.Halts`, `GenerateNkeys.Grown`

  Key theorems include:
    * `GenerateNkeys.Grows.trans`
    * `GenerateNkeys.grown_seq`, `GenerateNkeys.grown_must`
-/

------------------------------------------------------------
-- Growing Trees
------------------------------------------------------------

namespace GenerateNkeys

/- What has an entry below it is a directory. -/
def Rooted (tree : Tree) : Prop :=
  ∀ path name,
    tree (path ++ [name]) ≠ none → tree path = some .dir

/- Entries stay as they are, and what is added is `New`. -/
structure Grows
    (New : Path → Node → Prop)
    (before after : Tree) : Prop where
  adds :
    ∀ p,
      after p = before p ∨
        (before p = none ∧
          ∃ node, after p = some node ∧ New p node)
  rooted : Rooted before → Rooted after

namespace Grows

variable {New New' : Path → Node → Prop}
variable {first second third : Tree}

theorem refl (tree : Tree) : Grows New tree tree :=
  { adds := fun _ => Or.inl rfl
    rooted := fun hRooted => hRooted }

theorem keeps
    (hGrows : Grows New first second)
    {p : Path}
    {node : Node}
    (hNode : first p = some node) :
    second p = some node := by
  rcases hGrows.adds p with hSame | hNew
  · rw [hSame, hNode]
  · rw [hNode] at hNew
    simp at hNew

theorem mono
    (hGrows : Grows New first second)
    (hNew :
      ∀ p node,
        first p = none → second p = some node →
          New p node → New' p node) :
    Grows New' first second := by
  constructor
  · intro p
    rcases hGrows.adds p with hSame | ⟨hNone, node, hNode, hAt⟩
    · exact Or.inl hSame
    · exact Or.inr
        ⟨hNone, node, hNode, hNew p node hNone hNode hAt⟩
  · exact hGrows.rooted

theorem trans
    (hFirst : Grows New first second)
    (hSecond : Grows New second third) :
    Grows New first third := by
  constructor
  · intro p
    rcases hSecond.adds p with hSame | ⟨hNone, hNew⟩
    · rw [hSame]
      exact hFirst.adds p
    · rcases hFirst.adds p with hOld | ⟨_, node, hNode, _⟩
      · rw [← hOld]
        exact Or.inr ⟨hNone, hNew⟩
      · rw [hNode] at hNone
        simp at hNone
  · intro hRooted
    exact hSecond.rooted (hFirst.rooted hRooted)

/- Where nothing can be new, nothing is. -/
theorem same
    (hGrows : Grows New first second)
    {p : Path}
    (hNot : ∀ node, ¬ New p node) :
    second p = first p := by
  rcases hGrows.adds p with hSame | ⟨_, node, _, hNew⟩
  · exact hSame
  · exact absurd hNew (hNot node)

theorem none_of_none
    (hGrows : Grows New first second)
    {p : Path}
    (hNone : second p = none) :
    first p = none := by
  rcases hGrows.adds p with hSame | ⟨_, node, hNode, _⟩
  · rw [← hSame, hNone]
  · rw [hNode] at hNone
    simp at hNone

/- One entry more, in a directory. -/
theorem setNode
    {tree : Tree}
    (path : Path)
    {name : String}
    {node : Node}
    (hNone : tree (path ++ [name]) = none)
    (hParent : tree path = some .dir)
    (hNew : New (path ++ [name]) node) :
    Grows New tree
      (GenerateNkeys.setNode (path ++ [name]) (some node)
        tree) := by
  constructor
  · intro p
    by_cases hAt : p = path ++ [name]
    · refine Or.inr ⟨by rw [hAt, hNone], node, ?_, ?_⟩
      · simp [GenerateNkeys.setNode, hAt]
      · rw [hAt]
        exact hNew
    · simp [GenerateNkeys.setNode, hAt]
  · intro hRooted other entry hEntry
    unfold GenerateNkeys.setNode at hEntry ⊢
    by_cases hAt : other ++ [entry] = path ++ [name]
    · have hOther : other = path :=
        (List.append_inj' hAt rfl).1
      rw [hOther, if_neg]
      · exact hParent
      · intro hEq
        have hLength := congrArg List.length hEq
        simp at hLength
    · rw [if_neg hAt] at hEntry
      have hDir := hRooted other entry hEntry
      rw [if_neg]
      · exact hDir
      · intro hEq
        rw [hEq, hNone] at hDir
        simp at hDir

end Grows

theorem setNode_self
    (path : Path)
    (node : Option Node)
    (tree : Tree) :
    setNode path node tree path = node := by
  simp [setNode]

theorem setNode_of_ne
    {path p : Path}
    (node : Option Node)
    (tree : Tree)
    (hNe : p ≠ path) :
    setNode path node tree p = tree p := by
  simp [setNode, hNe]

/- Setting what is already so changes nothing. -/
theorem setNode_eq_self
    {path : Path}
    {node : Option Node}
    {tree : Tree}
    (hNode : tree path = node) :
    setNode path node tree = tree := by
  funext p
  by_cases hAt : p = path
  · rw [hAt, setNode_self, hNode]
  · exact setNode_of_ne node tree hAt

theorem setNode_setNode
    (path : Path)
    (first second : Option Node)
    (tree : Tree) :
    setNode path second (setNode path first tree) =
      setNode path second tree := by
  funext p
  by_cases hAt : p = path
  · rw [hAt, setNode_self, setNode_self]
  · rw [setNode_of_ne _ _ hAt, setNode_of_ne _ _ hAt,
      setNode_of_ne _ _ hAt]

/- The directories of a path. -/
def DirsOf (path p : Path) (node : Node) : Prop :=
  p <+: path ∧ node = .dir

theorem mkdir_some
    {path : Path}
    {world changed : World}
    (hMkdir : mkdir path world = some changed) :
    Grows (DirsOf path) world.tree changed.tree ∧
      (∀ p, p <+: path → changed.tree p = some .dir) ∧
      changed.wrongModes = world.wrongModes := by
  unfold mkdir at hMkdir
  split at hMkdir
  · simp at hMkdir
  rename_i hNoFile
  have hDir :
      ∀ p, p <+: path →
        world.tree p = none ∨ world.tree p = some .dir := by
    intro p hPrefix
    have hNot :
        isFile (world.tree p) = false := by
      simp only [List.any_eq_true, not_exists, not_and,
        Bool.not_eq_true] at hNoFile
      exact hNoFile p ((List.mem_inits p path).mpr hPrefix)
    cases hNode : world.tree p with
    | none => exact Or.inl rfl
    | some node =>
        cases node with
        | dir => exact Or.inr rfl
        | file content =>
            rw [hNode] at hNot
            simp [isFile] at hNot
  have hChanged := (Option.some.inj hMkdir).symm
  have hAll :
      ∀ p, p <+: path → changed.tree p = some .dir := by
    intro p hPrefix
    rw [hChanged]
    rcases hDir p hPrefix with hNone | hSome
    · simp [hNone, hPrefix]
    · simp [hSome]
  have hKept :
      ∀ p, world.tree p ≠ none →
        changed.tree p = world.tree p := by
    intro p hSome
    rw [hChanged]
    rcases Option.ne_none_iff_exists'.mp hSome with
      ⟨node, hNode⟩
    simp [hNode]
  have hOther :
      ∀ p, world.tree p = none → ¬ p <+: path →
        changed.tree p = none := by
    intro p hNone hNot
    rw [hChanged]
    simp [hNone, hNot]
  refine ⟨?_, hAll, by rw [hChanged]⟩
  constructor
  · intro p
    by_cases hNone : world.tree p = none
    · by_cases hPrefix : p <+: path
      · exact Or.inr
          ⟨hNone, .dir, hAll p hPrefix, hPrefix, rfl⟩
      · rw [hNone]
        exact Or.inl (hOther p hNone hPrefix)
    · exact Or.inl (hKept p hNone)
  · intro hRooted other entry hEntry
    by_cases hNone : world.tree (other ++ [entry]) = none
    · by_cases hPrefix : other ++ [entry] <+: path
      · exact hAll other
          ((List.prefix_append other [entry]).trans hPrefix)
      · exact absurd (hOther _ hNone hPrefix) hEntry
    · have hParent := hRooted other entry hNone
      rw [hKept other (by simp [hParent])]
      exact hParent

theorem mkdir_ne_none
    {path : Path}
    {world : World}
    (hNoFile :
      ∀ p, p <+: path → isFile (world.tree p) = false) :
    mkdir path world ≠ none := by
  unfold mkdir
  rw [if_neg]
  · simp
  · simp only [List.any_eq_true, not_exists, not_and,
      Bool.not_eq_true]
    intro p hMem
    exact hNoFile p ((List.mem_inits p path).mp hMem)

theorem chmod_some
    {path : Path}
    {world changed : World}
    (hChmod : chmod path world = some changed) :
    changed.tree = world.tree ∧
      (world.wrongModes = [] → changed.wrongModes = []) := by
  unfold chmod at hChmod
  split at hChmod
  · simp at hChmod
  · rw [← Option.some.inj hChmod]
    refine ⟨rfl, ?_⟩
    intro hModes
    simp [hModes]

theorem chmod_ne_none
    {path : Path}
    {world : World}
    (hNode : world.tree path ≠ none) :
    chmod path world ≠ none := by
  simp [chmod, hNode]

end GenerateNkeys

------------------------------------------------------------
-- Steps That Go Wrong
------------------------------------------------------------

namespace GenerateNkeys

open Shell (Environment)

/-
  A call of `nsc` that fails or prints no valid pair, and a
  line of what it printed that cannot be read.
-/
def Spoils : Command × Answer → Prop
| (.nsc type, answer) =>
    answer.ok = false ∨
      isNkeyPair type (strip (answer.printed type).1)
        (strip (answer.printed type).2) = false
| (.readLine _, answer) => answer.ok = false
| _ => False

def Spoiled (m : Machine) : Prop :=
  ∃ step ∈ m.trace, Spoils step

/- Nothing fails, and `nsc` prints valid pairs. -/
structure Works (env : Environment Answer) : Prop where
  goesOn : env.stop = none
  ok : ∀ n, (env.answer n).ok = true
  valid :
    ∀ n type,
      isNkeyPair type (strip ((env.answer n).printed type).1)
        (strip ((env.answer n).printed type).2) = true

/- The pairs that `nsc` prints are pairs of one key. -/
def Honest
    (publicKey : String → String)
    (env : Environment Answer) : Prop :=
  ∀ n type,
    (env.answer n).ok = true →
      publicKey (strip ((env.answer n).printed type).1) =
        strip ((env.answer n).printed type).2

/- What later steps leave as it is. -/
structure Quiet (m m' : Machine) : Prop where
  modes : m.world.wrongModes = [] → m'.world.wrongModes = []
  spoiled : Spoiled m' ↔ Spoiled m

theorem Quiet.refl (m : Machine) : Quiet m m :=
  { modes := fun hModes => hModes
    spoiled := Iff.rfl }

theorem Quiet.trans
    {first second third : Machine}
    (hFirst : Quiet first second)
    (hSecond : Quiet second third) :
    Quiet first third :=
  { modes := fun hModes => hSecond.modes (hFirst.modes hModes)
    spoiled := hSecond.spoiled.trans hFirst.spoiled }

theorem spoiled_record
    (m : Machine)
    (name : Command)
    (answer : Answer)
    (world : World) :
    Spoiled (Shell.Script.record m name answer world) ↔
      Spoiled m ∨ Spoils (name, answer) := by
  unfold Spoiled Shell.Script.record
  constructor
  · intro hSpoiled
    rcases hSpoiled with ⟨step, hMem, hSpoils⟩
    rcases List.mem_append.mp hMem with hOld | hNew
    · exact Or.inl ⟨step, hOld, hSpoils⟩
    · rw [List.mem_singleton.mp hNew] at hSpoils
      exact Or.inr hSpoils
  · intro hEither
    rcases hEither with ⟨step, hMem, hSpoils⟩ | hSpoils
    · exact ⟨step, List.mem_append_left _ hMem, hSpoils⟩
    · exact ⟨(name, answer),
        List.mem_append_right _ (List.mem_singleton_self _),
        hSpoils⟩

theorem quiet_record
    {m : Machine}
    {name : Command}
    {answer : Answer}
    {world : World}
    (hHarmless : ¬ Spoils (name, answer))
    (hModes :
      m.world.wrongModes = [] → world.wrongModes = []) :
    Quiet m (Shell.Script.record m name answer world) := by
  constructor
  · exact hModes
  · rw [spoiled_record]
    simp [hHarmless]

end GenerateNkeys

------------------------------------------------------------
-- Scripts That Grow The Tree
------------------------------------------------------------

namespace GenerateNkeys

open Shell (Environment wp)

/- A way for the tree to change, over any number of steps. -/
class Growth (G : Tree → Tree → Prop) : Prop where
  refl : ∀ tree, G tree tree
  trans :
    ∀ {first second third},
      G first second → G second third → G first third

instance (New : Path → Node → Prop) : Growth (Grows New) where
  refl := Grows.refl
  trans := Grows.trans

/- How a script stops. -/
structure Halts
    (env : Environment Answer)
    (G : Tree → Tree → Prop)
    (m : Machine)
    (Tame : Prop)
    (how : Shell.Stop)
    (m' : Machine) : Prop where
  stopped :
    (how = .killed ∧ env.stop ≠ none) ∨ how = .exited 1
  grows : G m.world.tree m'.world.tree
  rough : Tame → ¬ Works env

/-
  The script changes the tree by `G` only, has `Q` when it
  goes on, and does go on from a tame start where everything
  works.
-/
def Grown
    {α : Type}
    (env : Environment Answer)
    (script : Script α)
    (G : Tree → Tree → Prop)
    (Tame : Prop)
    (Q : α → Machine → Prop)
    (m : Machine) : Prop :=
  wp env script
    (fun value m' =>
      G m.world.tree m'.world.tree ∧ Q value m')
    (Halts env G m Tame) m

variable {α β : Type}
variable {env : Environment Answer}
variable {G G' : Tree → Tree → Prop}
variable {Tame Tame' : Prop}
variable {m : Machine}

theorem grown_pure
    [Growth G]
    {value : α}
    {Q : α → Machine → Prop}
    (hValue : Q value m) :
    Grown env (pure value) G Tame Q m :=
  ⟨Growth.refl _, hValue⟩

/- All four parts of a result can be weakened. -/
theorem grown_mono
    {script : Script α}
    {Q Q' : α → Machine → Prop}
    (hScript : Grown env script G Tame Q m)
    (hG :
      ∀ tree, G m.world.tree tree → G' m.world.tree tree)
    (hTame : Tame' → Tame)
    (hQ :
      ∀ value m',
        G m.world.tree m'.world.tree →
          Q value m' → Q' value m') :
    Grown env script G' Tame' Q' m := by
  apply Shell.wp_mono hScript
  · intro value m' hAt
    exact ⟨hG _ hAt.1, hQ value m' hAt.1 hAt.2⟩
  · intro how m' hHalts
    exact
      { stopped := hHalts.stopped
        grows := hG _ hHalts.grows
        rough := fun hTame' => hHalts.rough (hTame hTame') }

theorem grown_post
    {script : Script α}
    {Q Q' : α → Machine → Prop}
    (hScript : Grown env script G Tame Q m)
    (hQ :
      ∀ value m',
        G m.world.tree m'.world.tree →
          Q value m' → Q' value m') :
    Grown env script G Tame Q' m :=
  grown_mono hScript (fun _ hGrows => hGrows)
    (fun hTame => hTame) hQ

/- A tame start is one where everything works. -/
theorem grown_of_works
    {script : Script α}
    {Q : α → Machine → Prop}
    (hScript : Grown env script G (Tame ∧ Works env) Q m) :
    Grown env script G Tame Q m := by
  apply Shell.wp_mono hScript
  · intro value m' hAt
    exact hAt
  · intro how m' hHalts
    exact
      { stopped := hHalts.stopped
        grows := hHalts.grows
        rough := fun hTame hWorks =>
          hHalts.rough ⟨hTame, hWorks⟩ hWorks }

theorem grown_seq
    [Growth G]
    {script : Script β}
    {next : β → Script α}
    {R : β → Machine → Prop}
    {Q : α → Machine → Prop}
    (hScript : Grown env script G Tame R m)
    (hNext :
      ∀ value m',
        G m.world.tree m'.world.tree →
          R value m' →
            Grown env (next value) G Tame Q m') :
    Grown env (script >>= next) G Tame Q m := by
  apply Shell.wp_seq hScript
  intro value m' hAt
  apply Shell.wp_mono (hNext value m' hAt.1 hAt.2)
  · intro _ last hLast
    exact ⟨Growth.trans hAt.1 hLast.1, hLast.2⟩
  · intro how last hHalts
    exact
      { stopped := hHalts.stopped
        grows := Growth.trans hAt.1 hHalts.grows
        rough := hHalts.rough }

/- Stopping is only for a start that is not tame. -/
theorem grown_exit
    [Growth G]
    {Q : α → Machine → Prop}
    (hWild : Tame → ¬ Works env) :
    Grown env (Shell.Script.exit 1 : Script α) G Tame Q m :=
  { stopped := Or.inr rfl
    grows := Growth.refl _
    rough := hWild }

theorem grown_inspect
    [Growth G]
    {look : World → α}
    {Q : α → Machine → Prop}
    (hLook : Q (look m.world) m) :
    Grown env (Shell.Script.inspect look) G Tame Q m :=
  ⟨Growth.refl _, hLook⟩

theorem stop_ne_none
    {number : ℕ}
    (hKills : env.kills number = true) :
    env.stop ≠ none := by
  intro hNone
  simp [Environment.kills, hNone] at hKills

theorem halts_killed
    [Growth G]
    (hKills : env.kills m.trace.length = true) :
    Halts env G m Tame .killed m :=
  { stopped := Or.inl ⟨rfl, stop_ne_none hKills⟩
    grows := Growth.refl _
    rough := fun _ hWorks =>
      stop_ne_none hKills hWorks.goesOn }

theorem grown_command
    [Growth G]
    {name : Command}
    {effect : Answer → World → α × World}
    {Q : α → Machine → Prop}
    (hStep :
      ∀ answer,
        answer = env.answer m.trace.length →
          G m.world.tree (effect answer m.world).2.tree ∧
            Q (effect answer m.world).1
              (Shell.Script.record m name answer
                (effect answer m.world).2)) :
    Grown env (Shell.Script.command name effect) G Tame
      Q m := by
  apply Shell.wp_command
  · intro hKills
    exact halts_killed hKills
  · exact hStep

/-
  A command of the main shell: its effect only grows the tree,
  and is possible from a tame start.
-/
theorem grown_must
    [Growth G]
    {name : Command}
    {effect : World → Option World}
    {Q : Unit → Machine → Prop}
    (hDone :
      ∀ answer changed,
        effect m.world = some changed →
          G m.world.tree changed.tree ∧
            Q () (Shell.Script.record m name answer changed))
    (hRough : Tame → effect m.world ≠ none) :
    Grown env (must name effect) G Tame Q m := by
  unfold must attempt
  apply grown_seq
    (R := fun ok m' =>
      (ok = true → Q () m') ∧
        (ok = false → Tame → ¬ Works env))
  · apply grown_command
    intro answer hAnswer
    cases hOk : answer.ok with
    | false =>
        refine ⟨Growth.refl _, nofun, ?_⟩
        intro _ _ hWorks
        rw [hAnswer, hWorks.ok] at hOk
        simp at hOk
    | true =>
        cases hEffect : effect m.world with
        | none =>
            refine ⟨Growth.refl _, nofun, ?_⟩
            intro _ hTame
            exact absurd hEffect (hRough hTame)
        | some changed =>
            have hBoth := hDone answer changed hEffect
            exact ⟨hBoth.1, fun _ => hBoth.2, nofun⟩
  intro ok m' _ hAt
  cases ok with
  | true => exact grown_pure (hAt.1 rfl)
  | false => exact grown_exit (hAt.2 rfl)

/- A loop keeps an invariant about the items it has passed. -/
theorem grown_forEach
    [Growth G]
    {items : List β}
    {body : β → Script Unit}
    (I : List β → Machine → Prop)
    (hStart : I [] m)
    (hStep :
      ∀ passed item rest m',
        items = passed ++ item :: rest →
          G m.world.tree m'.world.tree →
            I passed m' →
              Grown env (body item) G Tame
                (fun _ => I (passed ++ [item])) m') :
    Grown env (Shell.Script.forEach items body) G Tame
      (fun _ => I items) m := by
  apply Shell.wp_forEach
    (fun passed m' =>
      G m.world.tree m'.world.tree ∧ I passed m')
  · exact ⟨Growth.refl _, hStart⟩
  intro passed item rest m' hItems hAt
  apply Shell.wp_mono
    (hStep passed item rest m' hItems hAt.1 hAt.2)
  · intro _ last hLast
    exact ⟨Growth.trans hAt.1 hLast.1, hLast.2⟩
  · intro how last hHalts
    exact
      { stopped := hHalts.stopped
        grows := Growth.trans hAt.1 hHalts.grows
        rough := hHalts.rough }

end GenerateNkeys
