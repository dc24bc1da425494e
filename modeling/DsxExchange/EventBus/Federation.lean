import DsxExchange.EventBus.CrossLayer
import DsxExchange.Nats.Overlap

/-
  The routes through a CSC cluster and the CPC clusters that
  are connected to it.

  The leaf node connection of a CPC cluster joins its account
  CSC to the account CSC of the other cluster, so that a
  message can go up in one cluster and down in another one.
  The documentation has three rules for all of this, and says
  nothing about what follows when they are used one after the
  other.

  Key definitions include:
    * `EventBus.Federation`, `EventBus.Federation.Step`
    * `EventBus.Federation.Delivers`
    * `EventBus.Federation.Isolated`
    * `EventBus.upMeetsAcross`, `EventBus.staysDown`

  Key theorems include:
    * `EventBus.Federation.reaches_iff_delivered`
    * `EventBus.Federation.isolated_iff`
    * `EventBus.Federation.neverReturns_iff`
    * `EventBus.Federation.reaches_cpc_iff_of_staysDown`
-/

------------------------------------------------------------
-- Connected Clusters
------------------------------------------------------------

namespace EventBus

/-
  CPC clusters that are connected to one CSC cluster, each
  with accepted values and an id of its own.
-/
structure Federation (Site : Type) where
  values : Site → Values
  accepted : ∀ site, validation (values site) = .ok ()
  role : ∀ site, (values site).clusterType = "cpc"
  distinctIds :
    ∀ left right,
      (values left).clusterId.printfText =
          (values right).clusterId.printfText →
        left = right

/-
  The accounts of all clusters: the account CSC of the CSC
  cluster, and the two accounts of each CPC cluster.
-/
inductive Place (Site : Type) where
  | hub
  | account (site : Site) (account : DcAccount)
deriving DecidableEq

variable {Site : Type}

/- A message on a subject at a place. -/
abbrev Message (Site : Type) := Place Site × Nats.Subject

namespace Federation

variable (federation : Federation Site)

/- The tokens in front of what a cluster sends up. -/
def start (site : Site) : Nats.Subject :=
  cpcStart (federation.values site).clusterId

def lists (site : Site) : CrossLayer :=
  (federation.values site).crossLayer

/-
  One step of a message: through an import of a CPC cluster,
  or over a leaf node connection.
-/
inductive Step : Message Site → Message Site → Prop
  | inside
      {site : Site}
      {source target : Node}
      (hHop : Hop (federation.values site) source target) :
      Step (.account site source.1, source.2)
        (.account site target.1, target.2)
  | leafUp (site : Site) (subject : Nats.Subject) :
      Step (.account site .csc, subject) (.hub, subject)
  | leafDown (site : Site) (subject : Nats.Subject) :
      Step (.hub, subject) (.account site .csc, subject)

def Reaches : Message Site → Message Site → Prop :=
  Relation.ReflTransGen federation.Step

/-
  What the documentation says of the three lists, and the
  subjects that are kept for deliveries of streams.
-/
inductive Delivers : Message Site → Message Site → Prop
  | raised
      (site : Site)
      (subject : Nats.Subject)
      (hUp :
        Nats.MatchesAny (federation.lists site).cpcExports
          subject) :
      Delivers (.account site .cpc, subject)
        (.hub, federation.start site ++ subject)
  | broadcast
      (site : Site)
      (subject : Nats.Subject)
      (hAcross :
        Nats.MatchesAny (federation.lists site).cscExports
          subject) :
      Delivers (.hub, subject) (.account site .cpc, subject)
  | targeted
      (site : Site)
      (subject : Nats.Subject)
      (hDown :
        Nats.MatchesAny
          (federation.lists site).cscPrefixedExports
          subject) :
      Delivers (.hub, federation.start site ++ subject)
        (.account site .cpc, subject)
  | streamed
      (site : Site)
      (subject : Nats.Subject)
      (hStreamed :
        Nats.Matches
          (csc2cpcStart (federation.values site).clusterId ++
            [">"])
          subject) :
      Delivers (.hub, subject) (.account site .cpc, subject)

/- Any number of deliveries. -/
def Delivered : Message Site → Message Site → Prop :=
  Relation.ReflTransGen federation.Delivers

end Federation

/-
  The account CSC is one account for all clusters: a message
  in it is a message of the CSC cluster.
-/
def Place.joined : Place Site → Place Site
| .hub => .hub
| .account _ .csc => .hub
| .account site .cpc => .account site .cpc

def joined (message : Message Site) : Message Site :=
  (message.1.joined, message.2)

end EventBus

------------------------------------------------------------
-- Steps And Deliveries
------------------------------------------------------------

namespace EventBus

namespace Federation

variable {Site : Type}
variable {federation : Federation Site}

theorem concreteToken
    (federation : Federation Site)
    (site : Site) :
    Nats.ConcreteToken
      (federation.values site).clusterId.printfText :=
  concreteToken_of_accepted (federation.accepted site)
    (federation.role site)

/- A hop inside a cluster is one delivery. -/
theorem delivers_of_hop
    {site : Site}
    {source target : Node}
    (hHop : Hop (federation.values site) source target) :
    federation.Delivers
      (joined (.account site source.1, source.2))
      (joined (.account site target.1, target.2)) := by
  have hToken := federation.concreteToken site
  rcases source with ⟨account, subject⟩
  cases account with
  | cpc =>
      rcases (hop_cpc_iff hToken target).mp hHop with
        ⟨hUp, hTarget⟩
      rw [hTarget]
      exact Delivers.raised site subject hUp
  | csc =>
      rcases (hop_csc_iff hToken target).mp hHop with
        ⟨hAcross | hStreamed, hTarget⟩ |
          ⟨arrived, hDown, hSubject, hTarget⟩
      · rw [hTarget]
        exact Delivers.broadcast site subject hAcross
      · rw [hTarget]
        exact Delivers.streamed site subject hStreamed
      · rw [hTarget, hSubject]
        exact Delivers.targeted site arrived hDown

/- A step is a delivery, or stays in the joined account. -/
theorem delivered_of_step
    {source target : Message Site}
    (hStep : federation.Step source target) :
    federation.Delivered (joined source) (joined target) := by
  cases hStep with
  | inside hHop =>
      exact Relation.ReflTransGen.single
        (delivers_of_hop hHop)
  | leafUp site subject => exact Relation.ReflTransGen.refl
  | leafDown site subject => exact Relation.ReflTransGen.refl

theorem delivered_of_reaches
    {source target : Message Site}
    (hReaches : federation.Reaches source target) :
    federation.Delivered (joined source) (joined target) := by
  induction hReaches with
  | refl => exact Relation.ReflTransGen.refl
  | tail _ hStep ih =>
      exact ih.trans (delivered_of_step hStep)

/- A delivery to a CPC cluster goes through its account CSC. -/
theorem reaches_of_hop_down
    {site : Site}
    {subject arrived : Nats.Subject}
    (hHop :
      Hop (federation.values site) (.csc, subject)
        (.cpc, arrived)) :
    federation.Reaches (.hub, subject)
      (.account site .cpc, arrived) :=
  (Relation.ReflTransGen.single
    (Step.leafDown site subject)).tail (Step.inside hHop)

theorem reaches_of_delivers
    {source target : Message Site}
    (hDelivers : federation.Delivers source target) :
    federation.Reaches source target := by
  cases hDelivers with
  | raised site subject hUp =>
      have hHop :
          Hop (federation.values site) (.cpc, subject)
            (.csc, federation.start site ++ subject) :=
        (hop_cpc_iff (federation.concreteToken site) _).mpr
          ⟨hUp, rfl⟩
      exact (Relation.ReflTransGen.single
        (Step.inside hHop)).tail (Step.leafUp site _)
  | broadcast site subject hAcross =>
      apply reaches_of_hop_down
      exact (hop_csc_iff (federation.concreteToken site) _).mpr
        (.inl ⟨.inl hAcross, rfl⟩)
  | targeted site subject hDown =>
      apply reaches_of_hop_down
      exact (hop_csc_iff (federation.concreteToken site) _).mpr
        (.inr ⟨subject, hDown, rfl, rfl⟩)
  | streamed site subject hStreamed =>
      apply reaches_of_hop_down
      exact (hop_csc_iff (federation.concreteToken site) _).mpr
        (.inl ⟨.inr hStreamed, rfl⟩)

theorem reaches_of_delivered
    {source target : Message Site}
    (hDelivered : federation.Delivered source target) :
    federation.Reaches source target := by
  induction hDelivered with
  | refl => exact Relation.ReflTransGen.refl
  | tail _ hDelivers ih =>
      exact ih.trans (reaches_of_delivers hDelivers)

/- A message and its form in the joined account are one. -/
theorem reaches_joined (message : Message Site) :
    federation.Reaches message (joined message) ∧
      federation.Reaches (joined message) message := by
  rcases message with ⟨place, subject⟩
  cases place with
  | hub =>
      exact ⟨Relation.ReflTransGen.refl,
        Relation.ReflTransGen.refl⟩
  | account site account =>
      cases account with
      | cpc =>
          exact ⟨Relation.ReflTransGen.refl,
            Relation.ReflTransGen.refl⟩
      | csc =>
          exact
            ⟨Relation.ReflTransGen.single
                (Step.leafUp site subject),
              Relation.ReflTransGen.single
                (Step.leafDown site subject)⟩

/-
  The imports of all clusters and the connections between
  them take a message exactly where the documented rules do.
-/
theorem reaches_iff_delivered
    (federation : Federation Site)
    (source target : Message Site) :
    federation.Reaches source target ↔
      federation.Delivered (joined source)
        (joined target) := by
  constructor
  · exact delivered_of_reaches
  · intro hDelivered
    exact ((reaches_joined source).1.trans
      (reaches_of_delivered hDelivered)).trans
        (reaches_joined target).2

end Federation

end EventBus

------------------------------------------------------------
-- What A Delivery Does
------------------------------------------------------------

namespace EventBus

namespace Federation

variable {Site : Type}
variable {federation : Federation Site}

theorem delivers_cpc_iff
    {site : Site}
    {subject : Nats.Subject}
    {target : Message Site} :
    federation.Delivers (.account site .cpc, subject) target ↔
      Nats.MatchesAny (federation.lists site).cpcExports
          subject ∧
        target = (.hub, federation.start site ++ subject) := by
  constructor
  · intro hDelivers
    cases hDelivers with
    | raised _ _ hUp => exact ⟨hUp, rfl⟩
  · intro hUp
    rw [hUp.2]
    exact Delivers.raised site subject hUp.1

theorem not_delivers_csc
    {site : Site}
    {subject : Nats.Subject}
    {target : Message Site} :
    ¬ federation.Delivers (.account site .csc, subject)
      target := by
  intro hDelivers
  cases hDelivers

/- What comes down in a cluster, and under which subject. -/
def ComesDown
    (federation : Federation Site)
    (site : Site)
    (subject arrived : Nats.Subject) : Prop :=
  (arrived = subject ∧
      (Nats.MatchesAny (federation.lists site).cscExports
          subject ∨
        Nats.Matches
          (csc2cpcStart (federation.values site).clusterId ++
            [">"])
          subject)) ∨
    (subject = federation.start site ++ arrived ∧
      Nats.MatchesAny
        (federation.lists site).cscPrefixedExports arrived)

theorem delivers_hub_iff
    {subject : Nats.Subject}
    {target : Message Site} :
    federation.Delivers (.hub, subject) target ↔
      ∃ site arrived,
        federation.ComesDown site subject arrived ∧
          target = (.account site .cpc, arrived) := by
  constructor
  · intro hDelivers
    cases hDelivers with
    | broadcast site _ hAcross =>
        exact ⟨site, subject, .inl ⟨rfl, .inl hAcross⟩, rfl⟩
    | targeted site arrived hDown =>
        exact ⟨site, arrived, .inr ⟨rfl, hDown⟩, rfl⟩
    | streamed site _ hStreamed =>
        exact ⟨site, subject, .inl ⟨rfl, .inr hStreamed⟩, rfl⟩
  · intro hDown
    rcases hDown with ⟨site, arrived, hComes, hTarget⟩
    rw [hTarget]
    rcases hComes with ⟨hSame, hAcross | hStreamed⟩ |
      ⟨hSubject, hTargeted⟩
    · rw [hSame]
      exact Delivers.broadcast site subject hAcross
    · rw [hSame]
      exact Delivers.streamed site subject hStreamed
    · rw [hSubject]
      exact Delivers.targeted site arrived hTargeted

theorem ne_nil_of_matchesAny
    {patterns : List String}
    {subject : Nats.Subject}
    (hMatches : Nats.MatchesAny patterns subject) :
    subject ≠ [] := by
  rcases hMatches with ⟨pattern, _, hPattern⟩
  exact Nats.subject_ne_nil_of_matches (Go.split_ne_nil _ _)
    hPattern

theorem concrete_start_append
    (federation : Federation Site)
    (site : Site)
    {subject : Nats.Subject}
    (hConcrete : Nats.Concrete subject) :
    Nats.Concrete (federation.start site ++ subject) :=
  concrete_cpcStart_append (federation.concreteToken site)
    hConcrete.token

/- What comes down is again a subject to publish on. -/
theorem concrete_of_comesDown
    {site : Site}
    {subject arrived : Nats.Subject}
    (hConcrete : Nats.Concrete subject)
    (hDown : federation.ComesDown site subject arrived) :
    Nats.Concrete arrived := by
  rcases hDown with ⟨hSame, _⟩ | ⟨hSubject, hMatches⟩
  · rw [hSame]
    exact hConcrete
  · constructor
    · exact ne_nil_of_matchesAny hMatches
    · intro token hMem
      apply hConcrete.token token
      rw [hSubject]
      exact List.mem_append_right _ hMem

theorem concrete_of_delivers
    {source target : Message Site}
    (hConcrete : Nats.Concrete source.2)
    (hDelivers : federation.Delivers source target) :
    Nats.Concrete target.2 := by
  rcases source with ⟨place, subject⟩
  cases place with
  | hub =>
      rcases delivers_hub_iff.mp hDelivers with
        ⟨site, arrived, hDown, hTarget⟩
      rw [hTarget]
      exact concrete_of_comesDown hConcrete hDown
  | account site account =>
      cases account with
      | csc => exact absurd hDelivers not_delivers_csc
      | cpc =>
          rw [(delivers_cpc_iff.mp hDelivers).2]
          exact federation.concrete_start_append site hConcrete

theorem concrete_of_delivered
    {source target : Message Site}
    (hConcrete : Nats.Concrete source.2)
    (hDelivered : federation.Delivered source target) :
    Nats.Concrete target.2 := by
  induction hDelivered with
  | refl => exact hConcrete
  | tail _ hDelivers ih =>
      exact concrete_of_delivers ih hDelivers

end Federation

end EventBus

------------------------------------------------------------
-- Isolation
------------------------------------------------------------

namespace EventBus

/-
  What a cluster sends up has a subject that another one
  takes down without a look at its start.
-/
def upMeetsAcross (up across : Values) : Bool :=
  up.crossLayer.cpcExports.any (fun raised =>
    across.crossLayer.cscExports.any (fun taken =>
      Nats.overlap
        (cpcStart up.clusterId ++ Nats.tokens raised)
        (Nats.tokens taken)))

theorem concreteToken_of_mem_cpcStart
    {clusterId : Scalar}
    (hToken : Nats.ConcreteToken clusterId.printfText) :
    ∀ token ∈ cpcStart clusterId, Nats.ConcreteToken token := by
  intro token hMem
  simp only [cpcStart, List.mem_cons, List.not_mem_nil,
    or_false] at hMem
  rcases hMem with hCpc | hId
  · rw [hCpc]
    exact concreteToken_cpc
  · rw [hId]
    exact hToken

/- An overlap with a pattern behind the start of a cluster. -/
theorem overlap_cpcStart_iff
    {clusterId : Scalar}
    (hToken : Nats.ConcreteToken clusterId.printfText)
    (raised : String)
    (taken : Nats.Subject) :
    Nats.overlap (cpcStart clusterId ++ Nats.tokens raised)
        taken = true ↔
      ∃ subject,
        Nats.Concrete subject ∧
          Nats.Matches (Nats.tokens raised) subject ∧
          Nats.Matches taken
            (cpcStart clusterId ++ subject) := by
  rw [Nats.overlap_iff]
  constructor
  · intro hCommon
    rcases hCommon with ⟨whole, hConcrete, hUp, hTaken⟩
    rcases (Nats.matches_append_iff
        (literal_cpcStart hToken)).mp hUp with
      ⟨subject, hWhole, hRaised⟩
    rw [hWhole] at hConcrete hTaken
    refine ⟨subject, ⟨?_, ?_⟩, hRaised, hTaken⟩
    · exact Nats.subject_ne_nil_of_matches
        (Go.split_ne_nil _ _) hRaised
    · intro token hMem
      exact hConcrete token (List.mem_append_right _ hMem)
  · intro hSubject
    rcases hSubject with ⟨subject, hConcrete, hRaised, hTaken⟩
    refine ⟨cpcStart clusterId ++ subject, ?_, ?_, hTaken⟩
    · intro token hMem
      rcases List.mem_append.mp hMem with hStart | hRest
      · exact concreteToken_of_mem_cpcStart hToken token hStart
      · exact hConcrete.token token hRest
    · exact (Nats.matches_append_iff
        (literal_cpcStart hToken)).mpr ⟨subject, rfl, hRaised⟩

theorem upMeetsAcross_iff
    {up across : Values}
    (hToken : Nats.ConcreteToken up.clusterId.printfText) :
    upMeetsAcross up across = true ↔
      ∃ subject,
        Nats.Concrete subject ∧
          Nats.MatchesAny up.crossLayer.cpcExports subject ∧
          Nats.MatchesAny across.crossLayer.cscExports
            (cpcStart up.clusterId ++ subject) := by
  simp only [upMeetsAcross, List.any_eq_true,
    overlap_cpcStart_iff hToken]
  constructor
  · intro hMeets
    rcases hMeets with
      ⟨raised, hRaised, taken, hTaken, subject, hConcrete,
        hUp, hAcross⟩
    exact ⟨subject, hConcrete, ⟨raised, hRaised, hUp⟩,
      taken, hTaken, hAcross⟩
  · intro hSubject
    rcases hSubject with
      ⟨subject, hConcrete, ⟨raised, hRaised, hUp⟩, taken,
        hTaken, hAcross⟩
    exact ⟨raised, hRaised, taken, hTaken, subject, hConcrete,
      hUp, hAcross⟩

namespace Federation

variable {Site : Type}
variable {federation : Federation Site}

/- A message of one CPC cluster never gets to another one. -/
def Isolated (federation : Federation Site) : Prop :=
  ∀ origin other subject arrived,
    origin ≠ other →
      Nats.Concrete subject →
        ¬ federation.Reaches (.account origin .cpc, subject)
          (.account other .cpc, arrived)

/- What a cluster sends up comes down in two ways only. -/
theorem comesDown_start_append
    {origin site : Site}
    {sent arrived : Nats.Subject}
    (hDown :
      federation.ComesDown site
        (federation.start origin ++ sent) arrived) :
    (arrived = federation.start origin ++ sent ∧
        Nats.MatchesAny (federation.lists site).cscExports
          (federation.start origin ++ sent)) ∨
      (origin = site ∧ arrived = sent ∧
        Nats.MatchesAny
          (federation.lists site).cscPrefixedExports sent) := by
  rcases hDown with ⟨hSame, hAcross | hStreamed⟩ |
    ⟨hSubject, hTargeted⟩
  · exact .inl ⟨hSame, hAcross⟩
  · simp [start, cpcStart, csc2cpcStart, Nats.Matches,
      Nats.captures] at hStreamed
  · right
    have hEq :
        (federation.values origin).clusterId.printfText =
            (federation.values site).clusterId.printfText ∧
          sent = arrived := by
      simpa [start, cpcStart] using hSubject
    refine ⟨federation.distinctIds origin site hEq.1,
      hEq.2.symm, ?_⟩
    rw [hEq.2]
    exact hTargeted

/-
  Where a message of one cluster can be: in its own CPC
  account, or in the joined account behind its own start.
-/
inductive From
    (federation : Federation Site)
    (origin : Site) : Message Site → Prop
  | atHome
      (subject : Nats.Subject)
      (hConcrete : Nats.Concrete subject) :
      From federation origin (.account origin .cpc, subject)
  | sentUp
      (sent : Nats.Subject)
      (hConcrete : Nats.Concrete sent)
      (hUp :
        Nats.MatchesAny (federation.lists origin).cpcExports
          sent) :
      From federation origin
        (.hub, federation.start origin ++ sent)

theorem from_of_delivers
    {origin : Site}
    (hApart :
      ∀ other,
        origin ≠ other →
          upMeetsAcross (federation.values origin)
            (federation.values other) = false)
    {source target : Message Site}
    (hFrom : From federation origin source)
    (hDelivers : federation.Delivers source target) :
    From federation origin target := by
  cases hFrom with
  | atHome subject hConcrete =>
      rcases delivers_cpc_iff.mp hDelivers with ⟨hUp, hTarget⟩
      rw [hTarget]
      exact From.sentUp subject hConcrete hUp
  | sentUp sent hConcrete hUp =>
      rcases delivers_hub_iff.mp hDelivers with
        ⟨site, arrived, hDown, hTarget⟩
      have hArrived : Nats.Concrete arrived :=
        concrete_of_comesDown
          (federation.concrete_start_append origin hConcrete)
          hDown
      have hHome : origin = site := by
        rcases comesDown_start_append hDown with
          ⟨_, hAcross⟩ | ⟨hSame, _⟩
        · by_contra hOther
          have hMeets :=
            (upMeetsAcross_iff
              (federation.concreteToken origin)).mpr
              ⟨sent, hConcrete, hUp, hAcross⟩
          rw [hApart site hOther] at hMeets
          cases hMeets
        · exact hSame
      rw [hTarget, ← hHome]
      exact From.atHome arrived hArrived

theorem from_of_delivered
    {origin : Site}
    (hApart :
      ∀ other,
        origin ≠ other →
          upMeetsAcross (federation.values origin)
            (federation.values other) = false)
    {source target : Message Site}
    (hFrom : From federation origin source)
    (hDelivered : federation.Delivered source target) :
    From federation origin target := by
  induction hDelivered with
  | refl => exact hFrom
  | tail _ hDelivers ih =>
      exact from_of_delivers hApart ih hDelivers

/-
  The topic spaces of the CPC clusters are kept apart, over
  any number of steps, exactly when no cluster takes down
  unchanged what another one sends up.
-/
theorem isolated_iff (federation : Federation Site) :
    federation.Isolated ↔
      ∀ origin other,
        origin ≠ other →
          upMeetsAcross (federation.values origin)
            (federation.values other) = false := by
  constructor
  · intro hIsolated origin other hOther
    by_contra hMeets
    rcases (upMeetsAcross_iff
        (federation.concreteToken origin)).mp
        (Bool.eq_true_of_not_eq_false hMeets) with
      ⟨subject, hConcrete, hUp, hAcross⟩
    apply hIsolated origin other subject
      (federation.start origin ++ subject) hOther hConcrete
    exact (reaches_of_delivers
      (Delivers.raised origin subject hUp)).trans
        (reaches_of_delivers
          (Delivers.broadcast other _ hAcross))
  · intro hApart origin other subject arrived hOther hConcrete
      hReaches
    have hFrom :
        From federation origin
          (.account other .cpc, arrived) :=
      from_of_delivered (hApart origin)
        (From.atHome subject hConcrete)
        (delivered_of_reaches hReaches)
    cases hFrom with
    | atHome _ _ => exact hOther rfl

end Federation

end EventBus

------------------------------------------------------------
-- No Way Back
------------------------------------------------------------

namespace EventBus

/- All that a CPC account takes from the account CSC. -/
def takenDown (values : Values) : List String :=
  values.crossLayer.cscExports ++
    values.crossLayer.cscPrefixedExports ++
    [csc2cpcSubject values.clusterId]

/- Nothing that was taken down is sent up. -/
def staysDown (values : Values) : Bool :=
  values.crossLayer.cpcExports.all (fun raised =>
    (takenDown values).all (fun taken =>
      !Nats.overlap (Nats.tokens raised) (Nats.tokens taken)))

theorem staysDown_iff (values : Values) :
    staysDown values = true ↔
      ∀ subject,
        Nats.Concrete subject →
          Nats.MatchesAny values.crossLayer.cpcExports
              subject →
            ¬ Nats.MatchesAny (takenDown values) subject := by
  simp only [staysDown, List.all_eq_true, Bool.not_eq_true']
  constructor
  · intro hApart subject hConcrete hUp hDown
    rcases hUp with ⟨raised, hRaised, hUp⟩
    rcases hDown with ⟨taken, hTaken, hDown⟩
    have hOverlap :=
      (Nats.overlap_iff _ _).mpr
        ⟨subject, hConcrete.token, hUp, hDown⟩
    rw [hApart raised hRaised taken hTaken] at hOverlap
    cases hOverlap
  · intro hApart raised hRaised taken hTaken
    by_contra hOverlap
    rcases (Nats.overlap_iff _ _).mp
        (Bool.eq_true_of_not_eq_false hOverlap) with
      ⟨subject, hTokens, hUp, hDown⟩
    have hConcrete : Nats.Concrete subject :=
      ⟨Nats.subject_ne_nil_of_matches (Go.split_ne_nil _ _)
        hUp, hTokens⟩
    exact hApart subject hConcrete ⟨raised, hRaised, hUp⟩
      ⟨taken, hTaken, hDown⟩

theorem matchesAny_takenDown_iff
    {values : Values}
    (hToken : Nats.ConcreteToken values.clusterId.printfText)
    (subject : Nats.Subject) :
    Nats.MatchesAny (takenDown values) subject ↔
      Nats.MatchesAny values.crossLayer.cscExports subject ∨
        Nats.MatchesAny values.crossLayer.cscPrefixedExports
          subject ∨
        Nats.Matches (csc2cpcStart values.clusterId ++ [">"])
          subject := by
  rw [← tokens_csc2cpcSubject hToken]
  unfold Nats.MatchesAny takenDown
  simp only [List.mem_append, List.mem_singleton]
  constructor
  · intro hTaken
    rcases hTaken with
      ⟨pattern, (hAcross | hDown) | hStreamed, hMatches⟩
    · exact .inl ⟨pattern, hAcross, hMatches⟩
    · exact .inr (.inl ⟨pattern, hDown, hMatches⟩)
    · rw [hStreamed] at hMatches
      exact .inr (.inr hMatches)
  · intro hTaken
    rcases hTaken with
      ⟨pattern, hAcross, hMatches⟩ |
        ⟨pattern, hDown, hMatches⟩ | hStreamed
    · exact ⟨pattern, .inl (.inl hAcross), hMatches⟩
    · exact ⟨pattern, .inl (.inr hDown), hMatches⟩
    · exact ⟨_, .inr rfl, hStreamed⟩

namespace Federation

variable {Site : Type}
variable {federation : Federation Site}

/-
  What a CPC account has from the account CSC never gets back
  there.
-/
def NeverReturns (federation : Federation Site) : Prop :=
  ∀ site subject arrived back,
    Nats.Concrete subject →
      federation.Reaches (.hub, subject)
          (.account site .cpc, arrived) →
        ¬ federation.Reaches (.account site .cpc, arrived)
          (.hub, back)

theorem matchesAny_takenDown_of_comesDown
    {site : Site}
    {subject arrived : Nats.Subject}
    (hDown : federation.ComesDown site subject arrived) :
    Nats.MatchesAny (takenDown (federation.values site))
      arrived := by
  rw [matchesAny_takenDown_iff
    (federation.concreteToken site)]
  rcases hDown with ⟨hSame, hAcross | hStreamed⟩ |
    ⟨_, hTargeted⟩
  · rw [hSame]
    exact .inl hAcross
  · rw [hSame]
    exact .inr (.inr hStreamed)
  · exact .inr (.inl hTargeted)

theorem exists_comesDown
    {site : Site}
    {arrived : Nats.Subject}
    (hConcrete : Nats.Concrete arrived)
    (hTaken :
      Nats.MatchesAny (takenDown (federation.values site))
        arrived) :
    ∃ subject,
      Nats.Concrete subject ∧
        federation.ComesDown site subject arrived := by
  rcases (matchesAny_takenDown_iff
      (federation.concreteToken site) arrived).mp hTaken with
    hAcross | hTargeted | hStreamed
  · exact ⟨arrived, hConcrete, .inl ⟨rfl, .inl hAcross⟩⟩
  · exact ⟨federation.start site ++ arrived,
      federation.concrete_start_append site hConcrete,
      .inr ⟨rfl, hTargeted⟩⟩
  · exact ⟨arrived, hConcrete, .inl ⟨rfl, .inr hStreamed⟩⟩

/- The last delivery to a CPC account from elsewhere. -/
theorem exists_comesDown_of_delivered
    {site : Site}
    {source : Message Site}
    {arrived : Nats.Subject}
    (hDelivered :
      federation.Delivered source
        (.account site .cpc, arrived))
    (hElsewhere : source ≠ (.account site .cpc, arrived)) :
    ∃ subject,
      federation.Delivered source (.hub, subject) ∧
        federation.ComesDown site subject arrived := by
  rcases Relation.ReflTransGen.cases_tail hDelivered with
    hSame | ⟨⟨place, subject⟩, hBefore, hLast⟩
  · exact absurd hSame.symm hElsewhere
  · cases place with
    | hub =>
        rcases delivers_hub_iff.mp hLast with
          ⟨other, other', hDown, hTarget⟩
        cases hTarget
        exact ⟨subject, hBefore, hDown⟩
    | account other account =>
        cases account with
        | csc => exact absurd hLast not_delivers_csc
        | cpc => cases (delivers_cpc_iff.mp hLast).2

/- A message of a CPC account stays, or is sent up first. -/
theorem delivered_cpc_iff
    {site : Site}
    {subject : Nats.Subject}
    {target : Message Site} :
    federation.Delivered (.account site .cpc, subject) target ↔
      target = (.account site .cpc, subject) ∨
        (Nats.MatchesAny (federation.lists site).cpcExports
            subject ∧
          federation.Delivered
            (.hub, federation.start site ++ subject)
            target) := by
  constructor
  · intro hDelivered
    rcases Relation.ReflTransGen.cases_head hDelivered with
      hSame | ⟨next, hFirst, hRest⟩
    · exact .inl hSame.symm
    · rcases delivers_cpc_iff.mp hFirst with ⟨hUp, hNext⟩
      rw [hNext] at hRest
      exact .inr ⟨hUp, hRest⟩
  · intro hEither
    rcases hEither with hSame | ⟨hUp, hRest⟩
    · rw [hSame]
      exact Relation.ReflTransGen.refl
    · exact Relation.ReflTransGen.head
        (Delivers.raised site subject hUp) hRest

/-
  What comes down from the account CSC stays down exactly
  when in no cluster the subjects that are sent up meet those
  that are taken down.
-/
theorem neverReturns_iff (federation : Federation Site) :
    federation.NeverReturns ↔
      ∀ site, staysDown (federation.values site) = true := by
  constructor
  · intro hNever site
    rw [staysDown_iff]
    intro arrived hConcrete hUp hTaken
    rcases exists_comesDown hConcrete hTaken with
      ⟨subject, hSubject, hDown⟩
    apply hNever site subject arrived
      (federation.start site ++ arrived) hSubject
    · exact reaches_of_delivers
        (delivers_hub_iff.mpr ⟨site, arrived, hDown, rfl⟩)
    · exact reaches_of_delivers
        (Delivers.raised site arrived hUp)
  · intro hStays site subject arrived back hConcrete hDown hUp
    rcases exists_comesDown_of_delivered
        (delivered_of_reaches hDown) (by
          intro hSame
          cases hSame) with
      ⟨last, hBefore, hLast⟩
    have hLastConcrete : Nats.Concrete last :=
      concrete_of_delivered hConcrete hBefore
    have hArrived : Nats.Concrete arrived :=
      concrete_of_comesDown hLastConcrete hLast
    rcases delivered_cpc_iff.mp
        (delivered_of_reaches hUp) with hSame | hSent
    · cases hSame
    · exact (staysDown_iff _).mp (hStays site) arrived hArrived
        hSent.1 (matchesAny_takenDown_of_comesDown hLast)

/- A message of the CSC cluster is delivered once at most. -/
theorem delivered_hub_iff_of_staysDown
    (hStays :
      ∀ site, staysDown (federation.values site) = true)
    {subject : Nats.Subject}
    (hConcrete : Nats.Concrete subject)
    (target : Message Site) :
    federation.Delivered (.hub, subject) target ↔
      target = (.hub, subject) ∨
        federation.Delivers (.hub, subject) target := by
  constructor
  · intro hDelivered
    induction hDelivered with
    | refl => exact .inl rfl
    | tail _ hLast ih =>
        rcases ih with hSame | hOnce
        · rw [hSame] at hLast
          exact .inr hLast
        · rcases delivers_hub_iff.mp hOnce with
            ⟨site, arrived, hDown, hMiddle⟩
          rw [hMiddle] at hLast
          exact absurd
            (matchesAny_takenDown_of_comesDown hDown)
            ((staysDown_iff _).mp (hStays site) arrived
              (concrete_of_comesDown hConcrete hDown)
              (delivers_cpc_iff.mp hLast).1)
  · intro hEither
    rcases hEither with hSame | hOnce
    · rw [hSame]
      exact Relation.ReflTransGen.refl
    · exact Relation.ReflTransGen.single hOnce

/-
  When nothing returns, a message of one CPC account gets to
  the account of a cluster only as it is sent up, and only
  where it is taken down unchanged.
-/
theorem reaches_cpc_iff_of_staysDown
    (federation : Federation Site)
    (hStays :
      ∀ site, staysDown (federation.values site) = true)
    (origin other : Site)
    {subject : Nats.Subject}
    (hConcrete : Nats.Concrete subject)
    (arrived : Nats.Subject) :
    federation.Reaches (.account origin .cpc, subject)
        (.account other .cpc, arrived) ↔
      (origin = other ∧ arrived = subject) ∨
        (arrived = federation.start origin ++ subject ∧
          Nats.MatchesAny (federation.lists origin).cpcExports
            subject ∧
          Nats.MatchesAny (federation.lists other).cscExports
            arrived) := by
  rw [reaches_iff_delivered, joined, joined]
  simp only [Place.joined]
  rw [delivered_cpc_iff,
    delivered_hub_iff_of_staysDown hStays
      (federation.concrete_start_append origin hConcrete),
    delivers_hub_iff]
  constructor
  · intro hEither
    rcases hEither with hSame | ⟨hUp, hSame | hDown⟩
    · cases hSame
      exact .inl ⟨rfl, rfl⟩
    · cases hSame
    · rcases hDown with ⟨site, subject', hDown, hTarget⟩
      cases hTarget
      right
      rcases comesDown_start_append hDown with
        ⟨hSame, hAcross⟩ | ⟨hHome, _, hTargeted⟩
      · rw [hSame]
        exact ⟨rfl, hUp, hAcross⟩
      · rw [← hHome] at hTargeted
        have hTaken :=
          (matchesAny_takenDown_iff
            (federation.concreteToken origin) subject).mpr
            (.inr (.inl hTargeted))
        exact absurd hTaken
          ((staysDown_iff _).mp (hStays origin) subject
            hConcrete hUp)
  · intro hEither
    rcases hEither with
      ⟨hSame, hArrived⟩ | ⟨hArrived, hUp, hAcross⟩
    · rw [hSame, hArrived]
      exact .inl rfl
    · rw [hArrived] at hAcross ⊢
      exact .inr ⟨hUp, .inr
        ⟨other, _, .inl ⟨rfl, .inl hAcross⟩, rfl⟩⟩

end Federation

end EventBus

------------------------------------------------------------
-- Two Clusters
------------------------------------------------------------

namespace EventBus

/- Values of a CPC cluster with an id of its own. -/
def clusterValues
    (clusterId : String)
    (crossLayer : CrossLayer) : Values :=
  { cpcValues crossLayer with clusterId := .string clusterId }

theorem validation_clusterValues
    {clusterId : String}
    (hId : isCpcId clusterId = true)
    (crossLayer : CrossLayer) :
    validation (clusterValues clusterId crossLayer) =
      .ok () := by
  have hAccepted :=
    (validation_ok_iff_accepted _).mp
      (validation_cpcValues crossLayer)
  have hNonempty : clusterId ≠ "" :=
    (isLowerToken_of_isCpcId hId).1
  rw [validation_ok_iff_accepted]
  exact
    { hAccepted with
      clusterId := fun _ => ⟨by
        simpa [clusterValues, Scalar.isMissing] using
          hNonempty, hId⟩ }

namespace Federation

/- The second cluster asks for the readings of the first. -/
def twoClusters : Federation Bool where
  values
  | false =>
      clusterValues "1"
        { cscExports := ["events.>"]
          cscPrefixedExports := ["commands.*"]
          cpcExports := ["telemetry.>"] }
  | true =>
      clusterValues "2"
        { cscExports := ["cpc.1.telemetry.>"]
          cscPrefixedExports := ["commands.*"]
          cpcExports := ["alerts"] }
  accepted site := by
    cases site
    · exact validation_clusterValues (by decide) _
    · exact validation_clusterValues (by decide) _
  role site := by
    cases site
    · rfl
    · rfl
  distinctIds left right hEq := by
    cases left <;> cases right
    · rfl
    · exact absurd hEq (by decide)
    · exact absurd hEq (by decide)
    · rfl

/- They arrive there under the prefix of the first. -/
theorem reaches_twoClusters :
    twoClusters.Reaches
      (.account false .cpc, ["telemetry", "rack"])
      (.account true .cpc, ["cpc", "1", "telemetry", "rack"]) :=
  (@reaches_cpc_iff_of_staysDown _ twoClusters
    (by
      intro site
      cases site
      · decide +kernel
      · decide +kernel)
    false true ["telemetry", "rack"]
    ⟨by simp, fun token hMem =>
      (Nats.isConcrete_iff token).mp (by
        simp only [List.mem_cons, List.not_mem_nil, or_false]
          at hMem
        rcases hMem with hFirst | hSecond
        · rw [hFirst]
          decide
        · rw [hSecond]
          decide)⟩
    ["cpc", "1", "telemetry", "rack"]).mpr
    (.inr ⟨rfl, ⟨"telemetry.>", by decide, by decide +kernel⟩,
      "cpc.1.telemetry.>", by decide, by decide +kernel⟩)

end Federation

end EventBus
