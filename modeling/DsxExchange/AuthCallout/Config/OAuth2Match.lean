import DsxExchange.AuthCallout.Config.IterationOrder

/-
  The lookup of an OAuth2 profile as the search for the most
  specific entry that a token matches.

  Key definitions include:
    * `AuthCallout.Config.OAuth2Entry.Matches`,
      `AuthCallout.Config.OAuth2Entry.rank`
    * `AuthCallout.Config.DistinctPairs`
    * `AuthCallout.Config.MatchesBest`,
      `AuthCallout.Config.AnswersBest`

  Key theorems include:
    * `AuthCallout.Config.collected_oauth2_iff`
    * `AuthCallout.Config.getOAuth2Profile_matches`
-/

------------------------------------------------------------
-- Matching
------------------------------------------------------------

namespace AuthCallout

namespace Config

/- The entry of the given name. -/
def PermissionsConfig.HasOAuth2
    (config : PermissionsConfig)
    (name : String)
    (entry : OAuth2Entry) : Prop :=
  ⟨name, some entry⟩ ∈ config.oauth2.entries

/- The constraints that an entry has after expansion. -/
def OAuth2Entry.key
    (env : Go.Env)
    (entry : OAuth2Entry) : OAuth2Key :=
  ⟨Go.expandEnv env entry.subject, Go.expandEnv env entry.azp⟩

/- Every constraint that is not empty is the token's value. -/
structure OAuth2Entry.Matches
    (env : Go.Env)
    (entry : OAuth2Entry)
    (subject azp : String) : Prop where
  subject :
    (entry.key env).subject ≠ "" →
      (entry.key env).subject = subject
  azp : (entry.key env).azp ≠ "" → (entry.key env).azp = azp

/- Both constraints, the subject only, or the azp only. -/
def OAuth2Key.rank (key : OAuth2Key) : ℕ :=
  (if key.subject = "" then 0 else 2) +
    (if key.azp = "" then 0 else 1)

def OAuth2Entry.rank
    (env : Go.Env)
    (entry : OAuth2Entry) : ℕ :=
  (entry.key env).rank

/- What a request is given for an entry. -/
def oauth2Profile
    (env : Go.Env)
    (name : String)
    (entry : OAuth2Entry) : OAuth2UserProfile where
  profile :=
    ⟨name, Go.expandEnv env entry.account, entry.permissions⟩
  requiredScope :=
    if Go.expandEnv env entry.requiredScope = "" then
      defaultRequiredScope
    else
      Go.expandEnv env entry.requiredScope

/- No two entries have the same constraints. -/
def DistinctPairs
    (env : Go.Env)
    (config : PermissionsConfig) : Prop :=
  ∀ name entry other otherEntry,
    config.HasOAuth2 name entry →
      config.HasOAuth2 other otherEntry →
        entry.key env = otherEntry.key env → name = other

/- A matching entry, and none is more specific. -/
structure MatchesBest
    (env : Go.Env)
    (config : PermissionsConfig)
    (subject azp name : String)
    (entry : OAuth2Entry) : Prop where
  configured : config.HasOAuth2 name entry
  fits : entry.Matches env subject azp
  best :
    ∀ other otherEntry,
      config.HasOAuth2 other otherEntry →
        otherEntry.Matches env subject azp →
          otherEntry.rank env ≤ entry.rank env

end Config

end AuthCallout

------------------------------------------------------------
-- The Table
------------------------------------------------------------

namespace AuthCallout

namespace Config

variable {env : Go.Env}
variable {config : PermissionsConfig}
variable {order : Go.Iteration}

theorem oauth2Item_eq_ok_iff
    {name : String}
    {entry : OAuth2Entry}
    {assignment : OAuth2Key × OAuth2UserProfile} :
    oauth2Item env name entry = .ok assignment ↔
      entry.HasIdentity env ∧
        assignment =
          (entry.key env, oauth2Profile env name entry) := by
  by_cases hIdentity : entry.HasIdentity env
  · have hSome :
        ¬ (Go.expandEnv env entry.subject = "" ∧
          Go.expandEnv env entry.azp = "") := by
      rw [not_and_or]
      exact hIdentity
    have hItem :
        oauth2Item env name entry =
          .ok (entry.key env, oauth2Profile env name entry) :=
      if_neg hSome
    rw [hItem, Except.ok.injEq]
    constructor
    · intro hSame
      exact ⟨hIdentity, hSame.symm⟩
    · intro hBoth
      exact hBoth.2.symm
  · rcases oauth2Item_error name hIdentity with
      ⟨message, hError⟩
    rw [hError]
    simp [hIdentity]

/- The table has the entry of a key, and no others. -/
theorem collected_oauth2_iff
    (hLoadable : Loadable env config)
    (hDistinct : DistinctPairs env config)
    {key : OAuth2Key}
    {found : OAuth2UserProfile} :
    Go.collected (oauth2Item env) order config.oauth2 key =
        some found ↔
      ∃ name entry,
        config.HasOAuth2 name entry ∧ entry.key env = key ∧
          found = oauth2Profile env name entry := by
  constructor
  · intro hFound
    rcases Go.exists_entry_of_collected hFound with
      ⟨name, entry, hEntry, hItem⟩
    have hBoth := (oauth2Item_eq_ok_iff.mp hItem).2
    rw [Prod.mk.injEq] at hBoth
    exact ⟨name, entry, hEntry, hBoth.1.symm, hBoth.2⟩
  · intro hEntry
    rcases hEntry with ⟨name, entry, hHas, hKey, hProfile⟩
    have hItem :
        Go.resolve (oauth2Item env) ⟨name, some entry⟩ =
          .ok (key, found) := by
      apply oauth2Item_eq_ok_iff.mpr
      rw [hKey, hProfile]
      exact ⟨hLoadable.identity name entry hHas, rfl⟩
    have hMem :=
      Go.mem_resolved_iff.mpr ⟨⟨name, some entry⟩, hHas, hItem⟩
    rcases (Go.collects_collected (oauth2Item env) order
        config.oauth2).complete hMem with
      ⟨other, hOther⟩
    rcases Go.exists_entry_of_collected hOther with
      ⟨otherName, otherEntry, hOtherHas, hOtherItem⟩
    have hOtherBoth := (oauth2Item_eq_ok_iff.mp hOtherItem).2
    rw [Prod.mk.injEq] at hOtherBoth
    have hName : name = otherName := by
      apply hDistinct name entry otherName otherEntry hHas
        hOtherHas
      rw [hKey, hOtherBoth.1]
    rw [← hName] at hOtherHas hOtherBoth
    have hSame := Go.entry_unique hHas hOtherHas
    rw [hOther, hOtherBoth.2, hProfile, hSame]

end Config

end AuthCallout

------------------------------------------------------------
-- The Probes
------------------------------------------------------------

namespace AuthCallout

namespace Config

variable {env : Go.Env}
variable {config : PermissionsConfig}
variable {order : Go.Iteration}
variable {subject azp : String}

/- A probe that finds something, and those before it. -/
theorem probeOAuth2_some
    {table : Go.Table OAuth2Key OAuth2UserProfile}
    {found : OAuth2UserProfile}
    (hFound : probeOAuth2 table subject azp = some found) :
    table ⟨subject, azp⟩ = some found ∨
      (table ⟨subject, azp⟩ = none ∧
        table ⟨subject, ""⟩ = some found) ∨
      (table ⟨subject, azp⟩ = none ∧
        table ⟨subject, ""⟩ = none ∧
        table ⟨"", azp⟩ = some found) := by
  unfold probeOAuth2 at hFound
  cases hBoth : table ⟨subject, azp⟩ with
  | some entry =>
      rw [hBoth] at hFound
      exact Or.inl hFound
  | none =>
      rw [hBoth] at hFound
      cases hSubject : table ⟨subject, ""⟩ with
      | some entry =>
          rw [hSubject] at hFound
          exact Or.inr (Or.inl ⟨rfl, hFound⟩)
      | none =>
          rw [hSubject] at hFound
          exact Or.inr (Or.inr ⟨rfl, rfl, hFound⟩)

theorem probeOAuth2_none
    {table : Go.Table OAuth2Key OAuth2UserProfile}
    (hNone : probeOAuth2 table subject azp = none) :
    table ⟨subject, azp⟩ = none ∧
      table ⟨subject, ""⟩ = none ∧
      table ⟨"", azp⟩ = none := by
  unfold probeOAuth2 at hNone
  cases hBoth : table ⟨subject, azp⟩ with
  | some entry =>
      rw [hBoth] at hNone
      cases hNone
  | none =>
      rw [hBoth] at hNone
      cases hSubject : table ⟨subject, ""⟩ with
      | some entry =>
          rw [hSubject] at hNone
          cases hNone
      | none =>
          rw [hSubject] at hNone
          exact ⟨rfl, rfl, hNone⟩

/- An entry that a token matches is where a probe looks. -/
theorem key_cases_of_matches
    {entry : OAuth2Entry}
    (hIdentity : entry.HasIdentity env)
    (hMatches : entry.Matches env subject azp) :
    (subject ≠ "" ∧ azp ≠ "" ∧
        entry.key env = ⟨subject, azp⟩) ∨
      (subject ≠ "" ∧ entry.key env = ⟨subject, ""⟩) ∨
      (azp ≠ "" ∧ entry.key env = ⟨"", azp⟩) := by
  have hEta :
      entry.key env =
        ⟨(entry.key env).subject, (entry.key env).azp⟩ :=
    rfl
  by_cases hSubject : (entry.key env).subject = ""
  · have hAzp : (entry.key env).azp ≠ "" := by
      rcases hIdentity with hSome | hSome
      · exact absurd hSubject hSome
      · exact hSome
    have hSame := hMatches.azp hAzp
    rw [hEta, hSubject, hSame]
    rw [hSame] at hAzp
    exact Or.inr (Or.inr ⟨hAzp, rfl⟩)
  · have hSame := hMatches.subject hSubject
    by_cases hAzp : (entry.key env).azp = ""
    · rw [hEta, hAzp, hSame]
      rw [hSame] at hSubject
      exact Or.inr (Or.inl ⟨hSubject, rfl⟩)
    · have hSameAzp := hMatches.azp hAzp
      rw [hEta, hSame, hSameAzp]
      rw [hSame] at hSubject
      rw [hSameAzp] at hAzp
      exact Or.inl ⟨hSubject, hAzp, rfl⟩

/- At any of the three places the entry matches the token. -/
theorem matches_of_key
    {entry : OAuth2Entry}
    (hKey :
      entry.key env = ⟨subject, azp⟩ ∨
        entry.key env = ⟨subject, ""⟩ ∨
        entry.key env = ⟨"", azp⟩) :
    entry.Matches env subject azp := by
  rcases hKey with hBoth | hSubject | hAzp
  · constructor
    · simp [hBoth]
    · simp [hBoth]
  · constructor
    · simp [hSubject]
    · simp [hSubject]
  · constructor
    · simp [hAzp]
    · simp [hAzp]

theorem rank_eq (key : OAuth2Key) :
    key.rank =
      (if key.subject = "" then 0 else 2) +
        (if key.azp = "" then 0 else 1) :=
  rfl

theorem rank_subject_le :
    OAuth2Key.rank ⟨subject, ""⟩ ≤
      OAuth2Key.rank ⟨subject, azp⟩ := by
  simp [rank_eq]

theorem rank_azp_le :
    OAuth2Key.rank ⟨"", azp⟩ ≤
      OAuth2Key.rank ⟨subject, azp⟩ := by
  simp [rank_eq]

theorem rank_azp_le_subject (hSubject : subject ≠ "") :
    OAuth2Key.rank ⟨"", azp⟩ ≤
      OAuth2Key.rank ⟨subject, ""⟩ := by
  simp only [rank_eq, if_neg hSubject, if_true]
  split <;> omega

theorem identity_of_loadable
    (hLoadable : Loadable env config)
    {name : String}
    {entry : OAuth2Entry}
    (hHas : config.HasOAuth2 name entry) :
    entry.HasIdentity env :=
  hLoadable.identity name entry hHas

/- A place of the table with no entry has none configured. -/
theorem collected_ne_none
    (hLoadable : Loadable env config)
    (hDistinct : DistinctPairs env config)
    {name : String}
    {entry : OAuth2Entry}
    (hHas : config.HasOAuth2 name entry) :
    Go.collected (oauth2Item env) order config.oauth2
      (entry.key env) ≠ none := by
  have hFound :
      Go.collected (oauth2Item env) order config.oauth2
          (entry.key env) =
        some (oauth2Profile env name entry) :=
    (collected_oauth2_iff hLoadable hDistinct).mpr
      ⟨name, entry, hHas, rfl, rfl⟩
  rw [hFound]
  simp

/- The probes find the most specific entry. -/
theorem probeOAuth2_best
    (hLoadable : Loadable env config)
    (hDistinct : DistinctPairs env config)
    {found : OAuth2UserProfile}
    (hFound :
      probeOAuth2
        (Go.collected (oauth2Item env) order config.oauth2)
        subject azp = some found) :
    ∃ name entry,
      MatchesBest env config subject azp name entry ∧
        found = oauth2Profile env name entry := by
  rcases probeOAuth2_some hFound with
    hBoth | ⟨hNoBoth, hSubject⟩ | ⟨hNoBoth, hNoSubject, hAzp⟩
  · -- The key of both fields bounds the rank of any match.
    rcases (collected_oauth2_iff hLoadable hDistinct).mp hBoth
      with ⟨name, entry, hHas, hKey, hProfile⟩
    refine ⟨name, entry, ⟨hHas, ?_, ?_⟩, hProfile⟩
    · exact matches_of_key (Or.inl hKey)
    · intro other otherEntry hOther hMatches
      unfold OAuth2Entry.rank
      rw [hKey]
      rcases key_cases_of_matches
          (identity_of_loadable hLoadable hOther) hMatches with
        ⟨_, _, hSame⟩ | ⟨_, hSame⟩ | ⟨_, hSame⟩
      · rw [hSame]
      · rw [hSame]
        exact rank_subject_le
      · rw [hSame]
        exact rank_azp_le
  · rcases (collected_oauth2_iff hLoadable hDistinct).mp
        hSubject with
      ⟨name, entry, hHas, hKey, hProfile⟩
    have hNonempty : subject ≠ "" := by
      rcases identity_of_loadable hLoadable hHas with
        hSome | hSome
      · have hField : (entry.key env).subject = subject := by
          rw [hKey]
        rw [← hField]
        exact hSome
      · have hField : (entry.key env).azp = "" := by
          rw [hKey]
        exact absurd hField hSome
    refine ⟨name, entry, ⟨hHas, ?_, ?_⟩, hProfile⟩
    · exact matches_of_key (Or.inr (Or.inl hKey))
    · intro other otherEntry hOther hMatches
      have hPlaced :=
        @collected_ne_none env config order hLoadable hDistinct
          other otherEntry hOther
      unfold OAuth2Entry.rank
      rw [hKey]
      rcases key_cases_of_matches
          (identity_of_loadable hLoadable hOther) hMatches with
        ⟨_, _, hSame⟩ | ⟨_, hSame⟩ | ⟨_, hSame⟩
      · rw [hSame] at hPlaced
        exact absurd hNoBoth hPlaced
      · rw [hSame]
      · rw [hSame]
        exact rank_azp_le_subject hNonempty
  · -- No entry that names the subject can match here.
    rcases (collected_oauth2_iff hLoadable hDistinct).mp hAzp
      with ⟨name, entry, hHas, hKey, hProfile⟩
    refine ⟨name, entry, ⟨hHas, ?_, ?_⟩, hProfile⟩
    · exact matches_of_key (Or.inr (Or.inr hKey))
    · intro other otherEntry hOther hMatches
      have hPlaced :=
        @collected_ne_none env config order hLoadable hDistinct
          other otherEntry hOther
      unfold OAuth2Entry.rank
      rw [hKey]
      rcases key_cases_of_matches
          (identity_of_loadable hLoadable hOther) hMatches with
        ⟨_, _, hSame⟩ | ⟨_, hSame⟩ | ⟨_, hSame⟩
      · rw [hSame] at hPlaced
        exact absurd hNoBoth hPlaced
      · rw [hSame] at hPlaced
        exact absurd hNoSubject hPlaced
      · rw [hSame]

end Config

end AuthCallout

------------------------------------------------------------
-- The Lookup
------------------------------------------------------------

namespace AuthCallout

namespace Config

/- What a lookup of a token has to answer. -/
structure AnswersBest
    (env : Go.Env)
    (config : PermissionsConfig)
    (subject azp : String)
    (answer : Option OAuth2UserProfile) : Prop where
  found_iff :
    answer.isSome ↔
      ∃ name entry,
        config.HasOAuth2 name entry ∧
          entry.Matches env subject azp
  best :
    ∀ found,
      answer = some found →
        ∃ name entry,
          MatchesBest env config subject azp name entry ∧
            found = oauth2Profile env name entry ∧
            (subject = "" → (entry.key env).subject = "") ∧
            (azp = "" → (entry.key env).azp = "")
  anonymous : subject = "" → azp = "" → answer = none

variable {env : Go.Env}
variable {config : PermissionsConfig}
variable {order : Go.Iteration}
variable {subject azp : String}

/- An empty field is no value of a constraint. -/
theorem OAuth2Entry.Matches.unconstrained
    {entry : OAuth2Entry}
    (hMatches : entry.Matches env subject azp) :
    (subject = "" → (entry.key env).subject = "") ∧
      (azp = "" → (entry.key env).azp = "") := by
  constructor
  · intro hEmpty
    by_contra hSome
    exact hSome ((hMatches.subject hSome).trans hEmpty)
  · intro hEmpty
    by_contra hSome
    exact hSome ((hMatches.azp hSome).trans hEmpty)

/- A match is at one of the places that are probed. -/
theorem probeOAuth2_isSome_of_matches
    (hLoadable : Loadable env config)
    (hDistinct : DistinctPairs env config)
    {name : String}
    {entry : OAuth2Entry}
    (hHas : config.HasOAuth2 name entry)
    (hMatches : entry.Matches env subject azp) :
    (probeOAuth2
      (Go.collected (oauth2Item env) order config.oauth2)
      subject azp).isSome := by
  rw [Option.isSome_iff_ne_none]
  intro hNone
  rcases probeOAuth2_none hNone with
    ⟨hNoBoth, hNoSubject, hNoAzp⟩
  have hPlaced :=
    @collected_ne_none env config order hLoadable hDistinct
      name entry hHas
  rcases key_cases_of_matches
      (identity_of_loadable hLoadable hHas) hMatches with
    ⟨_, _, hSame⟩ | ⟨_, hSame⟩ | ⟨_, hSame⟩
  · rw [hSame] at hPlaced
    exact hPlaced hNoBoth
  · rw [hSame] at hPlaced
    exact hPlaced hNoSubject
  · rw [hSame] at hPlaced
    exact hPlaced hNoAzp

theorem answersBest_probeOAuth2
    (hLoadable : Loadable env config)
    (hDistinct : DistinctPairs env config) :
    AnswersBest env config subject azp
      (probeOAuth2
        (Go.collected (oauth2Item env) order config.oauth2)
        subject azp) := by
  constructor
  · constructor
    · intro hSome
      rcases Option.isSome_iff_exists.mp hSome with
        ⟨found, hFound⟩
      rcases probeOAuth2_best hLoadable hDistinct hFound with
        ⟨name, entry, hBest, _⟩
      exact ⟨name, entry, hBest.configured, hBest.fits⟩
    · intro hEntry
      rcases hEntry with ⟨name, entry, hHas, hMatches⟩
      exact probeOAuth2_isSome_of_matches hLoadable hDistinct
        hHas hMatches
  · intro found hFound
    rcases probeOAuth2_best hLoadable hDistinct hFound with
      ⟨name, entry, hBest, hProfile⟩
    exact
      ⟨name, entry, hBest, hProfile, hBest.fits.unconstrained⟩
  · intro hSubject hAzp
    rw [Option.eq_none_iff_forall_ne_some]
    intro found hFound
    rcases probeOAuth2_best hLoadable hDistinct hFound with
      ⟨name, entry, hBest, _⟩
    have hFree := hBest.fits.unconstrained
    rcases identity_of_loadable hLoadable hBest.configured with
      hSome | hSome
    · exact hSome (hFree.1 hSubject)
    · exact hSome (hFree.2 hAzp)

/-
  After a configuration is loaded, in whatever order its
  entries are visited, a token is answered with the most
  specific entry that it matches.
-/
theorem getOAuth2Profile_matches
    (hAccepts : Accepts env config)
    (hDistinct : DistinctPairs env config)
    {w : World}
    (hContent : w .configFile = .decoded config)
    (order : Go.Iteration)
    (subject azp : String) :
    ∃ answer,
      (getOAuth2Profile subject azp).eval
          ((load env order).run w).2 = .ok answer ∧
        AnswersBest env config subject azp answer := by
  have hLoadable := loadable_of_accepts hAccepts
  rw [load_run_of_loadable env order hLoadable hContent]
  exact ⟨_, rfl, answersBest_probeOAuth2 hLoadable hDistinct⟩

/- An entry for each kind of constraint. -/
def threeKindsConfig : PermissionsConfig where
  oauth2 :=
    ((AList.singleton "both"
      (some ⟨"alice", "app", "A", .zero, ""⟩)).insert
        "subject" (some ⟨"alice", "", "B", .zero, ""⟩)).insert
          "azp" (some ⟨"", "app", "C", .zero, ""⟩)
  mtls := ∅
  nkey := ∅
  noauth := none

theorem accepts_threeKindsConfig :
    Accepts (fun _ => none) threeKindsConfig :=
  ⟨.listed, world (.decoded threeKindsConfig) .fresh,
    rfl, rfl⟩

theorem distinctPairs_threeKindsConfig :
    DistinctPairs (fun _ => none) threeKindsConfig := by
  have hDistinct :
      ∀ left ∈ threeKindsConfig.oauth2.entries,
        ∀ right ∈ threeKindsConfig.oauth2.entries,
          left.2.map (OAuth2Entry.key fun _ => none) =
              right.2.map (OAuth2Entry.key fun _ => none) →
            left.1 = right.1 := by
    decide
  intro name entry other otherEntry hHas hOther hKey
  apply hDistinct _ hHas _ hOther
  exact congrArg some hKey

/- Such a configuration, for a token with both fields. -/
theorem getOAuth2Profile_matches_threeKinds :
    Accepts (fun _ => none) threeKindsConfig ∧
      ∃ answer,
        (getOAuth2Profile "alice" "app").eval
            ((load (fun _ => none) .listed).run
              (world (.decoded threeKindsConfig) .fresh)).2 =
          .ok answer ∧
        AnswersBest (fun _ => none) threeKindsConfig "alice"
          "app" answer :=
  ⟨accepts_threeKindsConfig,
    getOAuth2Profile_matches accepts_threeKindsConfig
      distinctPairs_threeKindsConfig rfl .listed "alice"
      "app"⟩

end Config

end AuthCallout
