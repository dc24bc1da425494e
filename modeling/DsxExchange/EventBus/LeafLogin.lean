import DsxExchange.EventBus.Secrets
import DsxExchange.EventBus.CrossLayer
import DsxExchange.AuthCallout.Decision
import DsxExchange.AuthCallout.Config.IterationOrder

/-
  How a CPC cluster gets in at the CSC cluster.

  The key pair of a leaf node is made by the key generator,
  its halves get into the containers of two clusters through
  the charts, and auth-callout decides on it. Each part names
  the pair in a way of its own.

  Key definitions include:
    * `EventBus.LeafRemote`, `EventBus.leafRemotes`
    * `EventBus.natsContainerEnv`
    * `EventBus.containerEnv`, `EventBus.secretsOf`
    * `EventBus.permissionsFile`
    * `EventBus.Installation`

  Key theorems include:
    * `EventBus.Installation.siteEnv_of_secret`
    * `EventBus.Installation.hubEnv_of_secret`
    * `EventBus.Installation.leaf_token_iff`
-/

------------------------------------------------------------
-- The Remotes Of A CPC Cluster
------------------------------------------------------------

namespace EventBus

/- An outbound leaf node connection of a NATS server. -/
structure LeafRemote where
  url : String
  nkeyEnv : String
  account : String
deriving DecidableEq, Repr

def leafRemotes (values : Values) : List LeafRemote :=
  if values.clusterType = "cpc" ∧ values.cscEndpoint ≠ "" then
    { url := values.cscEndpoint
      nkeyEnv := "LEAF_USER_SEED"
      account := "CSC" } ::
      values.enabledAccounts.map (fun accountName =>
        { url := values.cscEndpoint
          nkeyEnv :=
            "LEAF_" ++ extraAccountEnvName accountName ++
              "_USER_SEED"
          account := accountName })
  else
    []

/- The environment of the NATS container. -/
def natsContainerEnv
    (values : Values) : Except String (List EnvVar) := do
  let eventBusEnv ←
    renderEnv values (natsEventBusEnvRefs values false true)
  return [⟨"GOMEMLIMIT", .text "1638MiB"⟩] ++ eventBusEnv ++
    [⟨"NATS_CLUSTER_NAME",
        .verbatim "configMapKeyRef: nats-env-config"⟩,
      ⟨"NATS_JS_DOMAIN",
        .verbatim "configMapKeyRef: nats-env-config"⟩]

/- The account that both ends of a connection name. -/
def Connection.accountName (connection : Connection) : String :=
  connection.account.getD "CSC"

/- The permission that lets a connection in. -/
def Connection.owner : Connection → Owner
| ⟨cpcId, none⟩ => .cpcLeaf cpcId
| ⟨cpcId, some accountName⟩ => .accountLeaf accountName cpcId

variable {values : Values}

/- Every remote is one of the connections. -/
theorem exists_connection_of_remote
    (hRole : values.clusterType = "cpc")
    {remote : LeafRemote}
    (hRemote : remote ∈ leafRemotes values) :
    ∃ connection ∈ values.connections,
      remote.nkeyEnv = connection.cpcRef.env ∧
        remote.account = connection.accountName := by
  have hSelf : values.clusterId ∈ values.leafIds := by
    simp [Values.leafIds, hRole]
  unfold leafRemotes at hRemote
  split at hRemote
  · rcases List.mem_cons.mp hRemote with hFirst | hOther
    · refine ⟨⟨values.clusterId, none⟩, ?_, ?_⟩
      · exact mem_connections.mpr ⟨hSelf, by simp⟩
      · rw [hFirst]
        exact ⟨rfl, rfl⟩
    · rcases List.mem_map.mp hOther with
        ⟨accountName, hEnabled, hEq⟩
      refine ⟨⟨values.clusterId, some accountName⟩, ?_, ?_⟩
      · exact mem_connections.mpr ⟨hSelf, by simpa using hEnabled⟩
      · rw [← hEq]
        exact ⟨rfl, rfl⟩
  · cases hRemote

theorem envRef_owner (connection : Connection) :
    connection.owner.envRef = connection.cscRef := by
  rcases connection with ⟨cpcId, account⟩
  cases account with
  | none => rfl
  | some accountName => rfl

/- The generated permission is for the account of the remote. -/
theorem account_owner
    (values : Values)
    (connection : Connection) :
    (generatedNkey values connection.owner).2.account =
      connection.accountName := by
  rcases connection with ⟨cpcId, account⟩
  cases account with
  | none => rfl
  | some accountName => rfl

theorem owner_mem_owners
    (hRole : values.clusterType = "csc")
    {connection : Connection}
    (hMem : connection ∈ values.connections) :
    connection.owner ∈ owners values := by
  rcases mem_connections.mp hMem with ⟨hId, hAccount⟩
  unfold Values.leafIds at hId
  rw [if_pos hRole] at hId
  unfold owners
  rw [if_pos hRole]
  apply List.mem_append_right
  rcases connection with ⟨cpcId, account⟩
  cases account with
  | none =>
      exact List.mem_append_left _
        (List.mem_map_of_mem (f := Owner.cpcLeaf) hId)
  | some accountName =>
      apply List.mem_append_right
      exact List.mem_flatMap.mpr
        ⟨accountName, hAccount accountName rfl,
          List.mem_map.mpr ⟨cpcId, hId, rfl⟩⟩

end EventBus

------------------------------------------------------------
-- The Environment Of A Process
------------------------------------------------------------

namespace EventBus

open GenerateNkeys (Tree secretFile)

/- Where the values of a container's variables come from. -/
structure Sources where
  secret : String → String → Option String
  other : ValueTree → Option String

def Sources.value (sources : Sources) : ValueTree → Option String
| .text value => some value
| .secretKeyRef name key => sources.secret name key
| .fieldRef path => sources.other (.fieldRef path)
| .verbatim yaml => sources.other (.verbatim yaml)

/- Of several entries with one name the last one counts. -/
def containerEnv
    (sources : Sources)
    (entries : List EnvVar) : Go.Env :=
  fun name =>
    (entries.filter (fun entry => entry.name = name)).getLast?
      >>= fun entry => sources.value entry.value

/- The secrets made from the generator's files of a cluster. -/
def secretsOf
    (tree : Tree)
    (cluster name key : String) : Option String :=
  match tree (secretFile cluster name key) with
  | some (.file content) => some content
  | _ => none

theorem containerEnv_of_filter
    {sources : Sources}
    {entries : List EnvVar}
    {name : String}
    {value : ValueTree}
    (hFilter :
      entries.filter (fun entry => entry.name = name) =
        [⟨name, value⟩]) :
    containerEnv sources entries name = sources.value value := by
  simp [containerEnv, hFilter]

variable {values : Values}

theorem nodup_connections_of_cpc
    (hRole : values.clusterType = "cpc") :
    values.connections.Nodup := by
  have hLeafIds : values.leafIds = [values.clusterId] := by
    simp [Values.leafIds, hRole]
  unfold Values.connections
  rw [hLeafIds, List.flatMap_singleton]
  rw [List.nodup_cons]
  constructor
  · simp
  · apply List.Nodup.map _ values.nodup_enabledAccounts
    intro left right hEq
    simpa using hEq

/- The NATS container of a CPC has no variable twice. -/
theorem nodup_natsEventBusEnvRefs
    (hAccepted : Accepted values)
    (hRole : values.clusterType = "cpc") :
    ((natsEventBusEnvRefs values false true).map
      EnvRef.env).Nodup := by
  have hNoCsc : values.clusterType ≠ "csc" := by
    rw [hRole]
    decide
  have hStrings :
      values.clusterType = "csc" →
        ∀ cpcId ∈ values.cpcIds, cpcId.IsString :=
    fun hCsc => absurd hCsc hNoCsc
  have hLeaves :
      ((values.connections.map (Connection.ref values)).map
        EnvRef.env).Nodup := by
    rw [List.map_map]
    apply List.Nodup.map_on _
      (nodup_connections_of_cpc hRole)
    intro first hFirst second hSecond hSame
    exact eq_of_env_eq hAccepted hStrings hFirst hSecond hSame
  have hRefs :
      natsEventBusEnvRefs values false true =
        natsFixedEnvRefs.take 3 ++
          values.connections.map (Connection.ref values) := by
    rw [← cpcLeafEnvRefs_eq hRole]
    simp [natsEventBusEnvRefs, natsFixedEnvRefs, hRole]
  rw [hRefs, List.map_append]
  apply List.nodup_append'.mpr
  refine ⟨by decide, hLeaves, ?_⟩
  intro name hFixed hLeaf
  rw [List.map_map] at hLeaf
  rcases List.mem_map.mp hLeaf with
    ⟨connection, hConnection, hName⟩
  apply (apartFromFixed hAccepted hStrings hConnection).env
  have hAll :
      ∀ name ∈ (natsFixedEnvRefs.take 3).map EnvRef.env,
        name ∈ fixedEnvNames := by
    decide
  have hIn := hAll name hFixed
  rw [← hName] at hIn
  exact hIn

/- A leaf's variable of the NATS container has one entry. -/
theorem filter_natsContainerEnv
    (hAccepted : Accepted values)
    (hRole : values.clusterType = "cpc")
    {entries : List EnvVar}
    (hEntries : natsContainerEnv values = .ok entries)
    {connection : Connection}
    (hMem : connection ∈ values.connections) :
    ∃ value,
      nkeySecretEnvValue values connection.cpcRef = .ok value ∧
        entries.filter
            (fun entry =>
              entry.name = connection.cpcRef.env) =
          [⟨connection.cpcRef.env, value⟩] := by
  have hNoCsc : values.clusterType ≠ "csc" := by
    rw [hRole]
    decide
  have hRef : connection.ref values = connection.cpcRef := by
    simp [Connection.ref, hNoCsc]
  have hIn :
      connection.cpcRef ∈
        natsEventBusEnvRefs values false true := by
    unfold natsEventBusEnvRefs
    apply List.mem_append_right
    rw [if_pos ⟨rfl, hRole⟩, cpcLeafEnvRefs_eq hRole, ← hRef]
    exact List.mem_map_of_mem hMem
  have hApart :
      connection.cpcRef.env ∉ fixedEnvNames := by
    rw [← hRef]
    exact (apartFromFixed hAccepted
      (fun hCsc => absurd hCsc hNoCsc) hMem).env
  unfold natsContainerEnv at hEntries
  cases hRendered :
      renderEnv values
        (natsEventBusEnvRefs values false true) with
  | error message =>
      simp [hRendered, bind, Except.bind] at hEntries
  | ok eventBusEnv =>
      have hParts :
          entries =
            [⟨"GOMEMLIMIT", .text "1638MiB"⟩] ++
              eventBusEnv ++
              [⟨"NATS_CLUSTER_NAME",
                  .verbatim
                    "configMapKeyRef: nats-env-config"⟩,
                ⟨"NATS_JS_DOMAIN",
                  .verbatim
                    "configMapKeyRef: nats-env-config"⟩] := by
        simpa [hRendered, bind, Except.bind, pure,
          Except.pure] using hEntries.symm
      rcases filter_renderEnv hRendered
          (nodup_natsEventBusEnvRefs hAccepted hRole) hIn with
        ⟨value, hValue, hFilter⟩
      refine ⟨value, hValue, ?_⟩
      have hOther :
          ∀ name ∈ fixedEnvNames,
            name ≠ connection.cpcRef.env := by
        intro name hName hSame
        rw [hSame] at hName
        exact hApart hName
      have hLimit := hOther "GOMEMLIMIT" (by decide)
      have hCluster := hOther "NATS_CLUSTER_NAME" (by decide)
      have hDomain := hOther "NATS_JS_DOMAIN" (by decide)
      rw [hParts]
      simp [List.filter_append, hFilter, hLimit, hCluster,
        hDomain]

end EventBus

------------------------------------------------------------
-- The Permissions File
------------------------------------------------------------

namespace EventBus

open AuthCallout.Config (PermissionsConfig NKeyEntry Permissions
  UserProfile nkeyItem)

/-
  What the file has for a permission of the chart. A generated
  one has an account and nothing else.
-/
def fileEntry
    (values : Values)
    (permissions : String → Permissions)
    (entry : Go.Entry NkeyPermission) :
    Go.Entry (Option NKeyEntry) :=
  ⟨entry.1,
    some
      { publicKey := entry.2.publicKey
        account := entry.2.account
        permissions :=
          if entry.1 ∈ values.nkeyPermissions then
            permissions entry.1
          else
            .zero }⟩

def nkeySection
    (values : Values)
    (permissions : String → Permissions) :
    Go.Map (Option NKeyEntry) where
  entries :=
    (mergedNkeys values).entries.map
      (fileEntry values permissions)
  nodupKeys := by
    have hKeys :
        ((mergedNkeys values).entries.map
            (fileEntry values permissions)).map Sigma.fst =
          (mergedNkeys values).entries.map Sigma.fst := by
      rw [List.map_map]
      rfl
    have hNodup :
        ((mergedNkeys values).entries.map Sigma.fst).Nodup :=
      (mergedNkeys values).nodupKeys
    rw [← hKeys] at hNodup
    exact hNodup

/-
  The file of the ConfigMap: the operator's sections, with the
  merged permissions for keys.
-/
def permissionsFile
    (values : Values)
    (permissions : String → Permissions)
    (operator : PermissionsConfig) : PermissionsConfig :=
  { operator with nkey := nkeySection values permissions }

variable {values : Values}

/- An owner's permission is in the file as it was generated. -/
theorem mem_nkeySection
    (hAccepted : Accepted values)
    (hStrings :
      values.clusterType = "csc" →
        ∀ cpcId ∈ values.cpcIds, cpcId.IsString)
    (permissions : String → Permissions)
    {owner : Owner}
    (hMem : owner ∈ owners values) :
    ⟨(generatedNkey values owner).1,
        some
          { publicKey := (generatedNkey values owner).2.publicKey
            account := (generatedNkey values owner).2.account
            permissions := .zero }⟩ ∈
      (nkeySection values permissions).entries := by
  have hString : owner.HasStringId :=
    (acceptedOwner_of_mem hMem).hasStringId hStrings
  have hFree :
      (generatedNkey values owner).1 ∉
        values.nkeyPermissions :=
    hAccepted.nkeyNames _
      (name_mem_generatedNkeyNames hMem hString)
  have hEntry :
      ⟨(generatedNkey values owner).1,
          (generatedNkey values owner).2⟩ ∈
        (mergedNkeys values).entries :=
    AList.mem_lookup_iff.mp
      (lookup_mergedNkeys hAccepted hStrings hMem)
  apply List.mem_map.mpr
  exact ⟨_, hEntry, by simp [fileEntry, hFree]⟩

/- A legal name in braces expands to the variable's value. -/
theorem expandEnv_placeholder
    (env : Go.Env)
    {name : String}
    (hName : IsEnvName name) :
    Go.expandEnv env (placeholder name) = Go.getenv env name := by
  apply Go.expandEnv_braces env hName.1
  · intro hBrace
    have hChar := hName.2.1 _ hBrace
    exact absurd hChar (by decide)
  · intro c hSingle
    have hChar : isEnvNameChar c = true :=
      hName.2.1 c (by rw [hSingle]; simp)
    have hDigit : c.isDigit = false :=
      hName.2.2 c (by rw [hSingle]; simp)
    have hOther :
        ['*', '#', '$', '@', '!', '?', '-'].all
            (isEnvNameChar · = false) = true := by
      decide
    unfold Go.isShellSpecialVar
    rw [hDigit, Bool.or_false, decide_eq_false_iff_not]
    intro hSpecial
    have hFree := List.all_eq_true.mp hOther c hSpecial
    rw [decide_eq_true_eq, hChar] at hFree
    cases hFree

/- The account of an accepted connection is no variable. -/
theorem expandEnv_accountName
    (hAccepted : Accepted values)
    (env : Go.Env)
    {connection : Connection}
    (hMem : connection ∈ values.connections) :
    Go.expandEnv env connection.accountName =
      connection.accountName := by
  apply Go.expandEnv_of_not_mem
  have hAccount := (mem_connections.mp hMem).2
  rcases connection with ⟨cpcId, account⟩
  cases account with
  | none =>
      simp only [Connection.accountName, Option.getD_none]
      decide
  | some accountName =>
      intro hDollar
      have hForm :=
        (hAccepted.accounts accountName
          (hAccount accountName rfl)).form
      have hAlphanum :=
        isAlphanum_of_mem_accountName hForm hDollar
      exact absurd hAlphanum (by decide)

/-
  When the key has one entry, the table has the profile of
  that entry under it.
-/
theorem collected_nkey_of_mem
    {env : Go.Env}
    (order : Go.Iteration)
    {nkeys : Go.Map (Option NKeyEntry)}
    {name key : String}
    {entry : NKeyEntry}
    (hEntry : ⟨name, some entry⟩ ∈ nkeys.entries)
    (hKey : Go.expandEnv env entry.publicKey = key)
    (hOne :
      ∀ other otherEntry,
        ⟨other, some otherEntry⟩ ∈ nkeys.entries →
          Go.expandEnv env otherEntry.publicKey = key →
            other = name) :
    Go.collected (nkeyItem env) order nkeys key =
      some
        ⟨name, Go.expandEnv env entry.account,
          entry.permissions⟩ := by
  have hItem :
      (key,
          (⟨name, Go.expandEnv env entry.account,
            entry.permissions⟩ : UserProfile)) ∈
        Go.resolved (nkeyItem env) nkeys.entries := by
    apply Go.mem_resolved_iff.mpr
    refine ⟨_, hEntry, ?_⟩
    rw [← hKey]
    rfl
  rcases (Go.collects_collected (nkeyItem env) order
      nkeys).complete hItem with
    ⟨profile, hFound⟩
  rcases Go.exists_entry_of_collected hFound with
    ⟨other, otherEntry, hOther, hAssigned⟩
  have hBoth :
      Go.expandEnv env otherEntry.publicKey = key ∧
        (⟨other, Go.expandEnv env otherEntry.account,
          otherEntry.permissions⟩ : UserProfile) = profile := by
    simpa [nkeyItem, AuthCallout.Config.keyedItem]
      using hAssigned
  have hName := hOne other otherEntry hOther hBoth.1
  rw [hName] at hOther hBoth
  rw [Go.entry_unique hOther hEntry] at hBoth
  rw [hFound, hBoth.2]

end EventBus

------------------------------------------------------------
-- The Authenticator Of A Leaf
------------------------------------------------------------

namespace AuthCallout

open Auth Config

/- The request has a key and no other credential. -/
structure PresentsOnlyNkey
    (req : AuthorizationRequest)
    (nkey : String) : Prop where
  nkey : req.connectOptions.nkey = nkey
  noToken : req.connectOptions.token = ""
  noPassword :
    ¬ (req.connectOptions.username = oauthTokenUsername ∧
      req.connectOptions.password ≠ "")
  noChain : req.hasVerifiedChain = false

/- Then no authenticator comes before the one for keys. -/
theorem firstAccepting_nkey
    {libs : Libraries}
    {config : ServiceConfig}
    {authenticators : List Authenticator}
    (hNew :
      newAuthenticators libs config = .ok authenticators)
    {req : AuthorizationRequest}
    {nkey : String}
    (hRequest : PresentsOnlyNkey req nkey)
    (hNonempty : nkey ≠ "") :
    firstAccepting authenticators req = some .nkey := by
  have hKey : Authenticator.nkey.canAuthenticate req = true := by
    simpa [Authenticator.canAuthenticate,
      NKeyAuthenticator.canAuthenticate, hRequest.nkey]
      using hNonempty
  have hOAuth2 :
      ∀ o, (Authenticator.oauth2 o).canAuthenticate req =
        false := by
    intro o
    have hPassword := hRequest.noPassword
    simp only [Authenticator.canAuthenticate,
      OAuth2Authenticator.canAuthenticate]
    simp only [hRequest.noToken]
    simpa using hPassword
  have hMTLS :
      ∀ m, (Authenticator.mtls m).canAuthenticate req =
        false := by
    intro m
    simpa [Authenticator.canAuthenticate,
      MTLSAuthenticator.canAuthenticate] using hRequest.noChain
  unfold newAuthenticators at hNew
  split at hNew
  · cases hNew
  rename_i oauth2Auth hOAuth2Auth
  split at hNew
  · cases hNew
  rename_i mtlsAuth hMTLSAuth
  cases hNew
  have hBefore :
      ∀ a ∈ oauth2Auth ++ mtlsAuth,
        a.canAuthenticate req = false := by
    intro a hMem
    rcases List.mem_append.mp hMem with hFirst | hSecond
    · rcases newOAuth2_ok hOAuth2Auth with
        ⟨_, hNone⟩ | ⟨_, o, hOne⟩
      · rw [hNone] at hFirst
        cases hFirst
      · rw [hOne] at hFirst
        rw [List.mem_singleton.mp hFirst]
        exact hOAuth2 o
    · rcases newMTLS_ok hMTLSAuth with hNone | ⟨m, hOne⟩
      · rw [hNone] at hSecond
        cases hSecond
      · rw [hOne] at hSecond
        rw [List.mem_singleton.mp hSecond]
        exact hMTLS m
  have hNotBefore :
      (oauth2Auth ++ mtlsAuth).find?
          (fun a => a.canAuthenticate req) = none := by
    rw [List.find?_eq_none]
    intro a hMem
    simp [hBefore a hMem]
  unfold firstAccepting
  rw [List.find?_append, hNotBefore, Option.none_or,
    List.find?_cons, hKey]

end AuthCallout

------------------------------------------------------------
-- Both Ends Of A Connection
------------------------------------------------------------

namespace EventBus

open GenerateNkeys (Tree Request Reached Honest Complete
  secretFile)
open AuthCallout AuthCallout.Auth AuthCallout.Config

/-
  A CSC cluster and a CPC cluster that it lists, with the
  accounts of the CPC, both rendered by the chart without
  replaced references to the leaves, and with the secrets that
  some runs of the key generator have left.
-/
structure Installation (publicKey : String → String) where
  hub : Values
  site : Values
  hubAccepted : validation hub = .ok ()
  siteAccepted : validation site = .ok ()
  hubRole : hub.clusterType = "csc"
  siteRole : site.clusterType = "cpc"
  hubStrings : ∀ cpcId ∈ hub.cpcIds, cpcId.IsString
  listed :
    ∃ cpcId ∈ hub.cpcIds,
      cpcId.toText = site.clusterId.toText
  accounts :
    ∀ accountName ∈ site.enabledAccounts,
      accountName ∈ hub.enabledAccounts
  hubDefaults :
    ∀ connection ∈ hub.connections,
      override hub connection.cscRef.secretName
        connection.cscRef.key = none
  siteDefaults :
    ∀ connection ∈ site.connections,
      override site connection.cpcRef.secretName
        connection.cpcRef.key = none
  outputRoot : String
  tree : Tree
  reached : Reached publicKey outputRoot (Honest publicKey) tree
  request : Request
  serves : Serves site request
  complete : Complete request tree
  deployment : Deployment
  hubEntries : List EnvVar
  hubRendered : authCalloutEnv deployment hub = .ok hubEntries
  siteEntries : List EnvVar
  siteRendered : natsContainerEnv site = .ok siteEntries
  otherSource : ValueTree → Option String

namespace Installation

variable {publicKey : String → String}
variable (installation : Installation publicKey)

/- The environment of the auth-callout of the CSC cluster. -/
def hubEnv : Go.Env :=
  containerEnv
    { secret := secretsOf installation.tree "csc"
      other := installation.otherSource }
    installation.hubEntries

/- The environment of the NATS server of the CPC cluster. -/
def siteEnv : Go.Env :=
  containerEnv
    { secret :=
        secretsOf installation.tree installation.site.cluster
      other := installation.otherSource }
    installation.siteEntries

theorem accepted_hub : Accepted installation.hub :=
  (validation_ok_iff_accepted _).mp installation.hubAccepted

theorem accepted_site : Accepted installation.site :=
  (validation_ok_iff_accepted _).mp installation.siteAccepted

/- The CSC cluster has a connection for each one of the CPC. -/
theorem exists_hubConnection
    {connection : Connection}
    (hMem : connection ∈ installation.site.connections) :
    ∃ other ∈ installation.hub.connections,
      other.account = connection.account ∧
        other.cpcId.toText = connection.cpcId.toText := by
  rcases installation.listed with ⟨cpcId, hListed, hText⟩
  have hNoCsc : installation.site.clusterType ≠ "csc" := by
    rw [installation.siteRole]
    decide
  refine ⟨⟨cpcId, connection.account⟩, ?_, rfl, ?_⟩
  · apply mem_connections.mpr
    constructor
    · unfold Values.leafIds
      rw [if_pos installation.hubRole]
      exact hListed
    · intro accountName hAccount
      exact installation.accounts accountName
        ((mem_connections.mp hMem).2 accountName hAccount)
  · rw [cpcId_eq_of_cpc hNoCsc hMem]
    exact hText

/- The tree has one pair for both ends. -/
theorem exists_pair
    {connection : Connection}
    (hMem : connection ∈ installation.site.connections) :
    ∃ other ∈ installation.hub.connections,
      other.account = connection.account ∧
        other.cpcId.toText =
          installation.site.clusterId.toText ∧
        ∃ seed,
          secretsOf installation.tree
              installation.site.cluster
              connection.cpcRef.secretName "seed" =
            some seed ∧
          secretsOf installation.tree "csc"
              other.cscRef.secretName "pubkey" =
            some (publicKey seed) ∧
          publicKey seed ≠ "" := by
  rcases installation.exists_hubConnection hMem with
    ⟨other, hOther, hAccount, hText⟩
  rcases exists_leaf installation.accepted_site
      installation.serves hMem with
    ⟨leaf, hRequested, hLeaf⟩
  have hHubLeaf : other.IsLeaf leaf :=
    ⟨hLeaf.cpcId.trans hText.symm,
      by rw [hAccount]; exact hLeaf.account⟩
  have hStrings : other.cpcId.IsString :=
    isString_of_csc (fun _ => installation.hubStrings)
      installation.hubRole hOther
  have hNoCsc : installation.site.clusterType ≠ "csc" := by
    rw [installation.siteRole]
    decide
  have hCluster :
      installation.site.cluster = leaf.cluster := by
    unfold Values.cluster GenerateNkeys.Leaf.cluster
    rw [if_neg hNoCsc, hLeaf.cpcId,
      cpcId_eq_of_cpc hNoCsc hMem]
  rcases installation.complete.2 leaf hRequested with
    ⟨⟨pubkey, hPubkey, hPubkeySome, _⟩,
      ⟨seed, hSeed, hSeedSome, _⟩⟩
  have hMatched :
      publicKey seed = pubkey :=
    GenerateNkeys.matched_of_reached installation.reached leaf
      seed pubkey hSeed hPubkey hSeedSome hPubkeySome
  have hSite :
      other.cpcId.toText =
        installation.site.clusterId.toText := by
    rw [hText, cpcId_eq_of_cpc hNoCsc hMem]
  refine ⟨other, hOther, hAccount, hSite, seed, ?_, ?_, ?_⟩
  · rw [cpcSecret_eq hLeaf, hCluster]
    have hFile :
        installation.tree
            (secretFile leaf.cluster leaf.cpcSecret "seed") =
          some (.file seed) :=
      hSeed
    simp [secretsOf, hFile]
  · rw [cscSecret_eq hHubLeaf hStrings, hMatched]
    have hFile :
        installation.tree
            (secretFile "csc" leaf.cscSecret "pubkey") =
          some (.file pubkey) :=
      hPubkey
    simp [secretsOf, hFile]
  · rw [hMatched]
    exact hPubkeySome

/- The variable of a remote holds the seed. -/
theorem siteEnv_of_secret
    {connection : Connection}
    (hMem : connection ∈ installation.site.connections)
    {seed : String}
    (hSecret :
      secretsOf installation.tree installation.site.cluster
          connection.cpcRef.secretName "seed" =
        some seed) :
    installation.siteEnv connection.cpcRef.env = some seed := by
  rcases filter_natsContainerEnv installation.accepted_site
      installation.siteRole installation.siteRendered hMem with
    ⟨value, hValue, hFilter⟩
  have hRef :
      value =
        .secretKeyRef connection.cpcRef.secretName "seed" := by
    have hKey : connection.cpcRef.key = "seed" := by
      rcases connection with ⟨cpcId, account⟩
      cases account with
      | none => rfl
      | some accountName => rfl
    rw [nkeySecretEnvValue_ok hValue,
      installation.siteDefaults connection hMem, hKey]
    rfl
  rw [siteEnv, containerEnv_of_filter hFilter, hRef]
  exact hSecret

/- The variable of a permission holds the public key. -/
theorem hubEnv_of_secret
    {connection : Connection}
    (hMem : connection ∈ installation.hub.connections)
    {pubkey : String}
    (hSecret :
      secretsOf installation.tree "csc"
          connection.cscRef.secretName "pubkey" =
        some pubkey) :
    installation.hubEnv connection.cscRef.env = some pubkey := by
  have hStrings := isString_of_csc
    (fun _ => installation.hubStrings) installation.hubRole
    hMem
  have hIn :
      connection.cscRef ∈
        authCalloutEnvRefs installation.hub := by
    rw [← envRef_owner]
    exact envRef_mem (owner_mem_owners installation.hubRole hMem)
  have hName :
      (Go.split connection.cscRef.env '_').head? =
        some "NKEY" := by
    rw [split_cscRef_env installation.accepted_hub hMem
      hStrings]
    rfl
  rcases filter_authCalloutEnv installation.accepted_hub
      (fun _ => installation.hubStrings)
      installation.hubRendered hIn hName with
    ⟨value, hValue, hFilter⟩
  have hRef :
      value =
        .secretKeyRef connection.cscRef.secretName
          "pubkey" := by
    have hKey : connection.cscRef.key = "pubkey" := by
      rcases connection with ⟨cpcId, account⟩
      cases account with
      | none => rfl
      | some accountName => rfl
    rw [nkeySecretEnvValue_ok hValue,
      installation.hubDefaults connection hMem, hKey]
    rfl
  rw [hubEnv, containerEnv_of_filter hFilter, hRef]
  exact hSecret

/- The placeholder of a connection expands to its key. -/
theorem expandEnv_publicKey
    {connection : Connection}
    (hMem : connection ∈ installation.hub.connections)
    {pubkey : String}
    (hEnv :
      installation.hubEnv connection.cscRef.env =
        some pubkey) :
    Go.expandEnv installation.hubEnv
        (generatedNkey installation.hub
          connection.owner).2.publicKey =
      pubkey := by
  have hOwner :=
    owner_mem_owners installation.hubRole hMem
  have hAcceptedOwner := acceptedOwner_of_mem hOwner
  have hString :=
    hAcceptedOwner.hasStringId
      (fun _ => installation.hubStrings)
  have hLegal :=
    (legal_envRef installation.accepted_hub hAcceptedOwner
      hString).1
  rw [publicKey_eq_placeholder hString,
    expandEnv_placeholder _ hLegal, envRef_owner, Go.getenv,
    hEnv]
  rfl

/-
  Every remote of the CPC cluster is known at the CSC cluster.
  Its server has the seed of a pair, and whoever proves to
  have that key gets the token of the leaf's permission, for
  the account of the remote, as far as tokens can be issued,
  and no other.
-/
theorem leaf_token_iff
    {remote : LeafRemote}
    (hRemote : remote ∈ leafRemotes installation.site) :
    ∃ seed, ∃ connection ∈ installation.hub.connections,
      connection.cpcId.toText =
          installation.site.clusterId.toText ∧
        connection.accountName = remote.account ∧
        installation.siteEnv remote.nkeyEnv = some seed ∧
        ∀ (permissions : String → Permissions)
          (operator : PermissionsConfig)
          (order : Go.Iteration) (w : World)
          (libs : Libraries) (config : ServiceConfig)
          (authenticators : List Authenticator)
          (issuer : Issuer) (req : AuthorizationRequest)
          (token : UserJWT),
          let file :=
            permissionsFile installation.hub permissions
              operator
          let name :=
            (generatedNkey installation.hub
              connection.owner).1
          w .configFile = .decoded file →
            Loadable installation.hubEnv file →
            (∀ other entry,
              ⟨other, some entry⟩ ∈ file.nkey.entries →
                Go.expandEnv installation.hubEnv
                    entry.publicKey = publicKey seed →
                  other = name) →
            newAuthenticators libs config =
              .ok authenticators →
            PresentsOnlyNkey req (publicKey seed) →
            NKeyAuthenticator.Signs libs req →
              ((handleAuthRequest libs issuer authenticators
                    req).eval
                  ((load installation.hubEnv order).run
                    w).2 = .ok token ↔
                Issued issuer req.userNkey
                  ⟨name, remote.account, .zero⟩ token) := by
  rcases exists_connection_of_remote installation.siteRole
      hRemote with
    ⟨connection, hMem, hNkeyEnv, hAccountName⟩
  rcases installation.exists_pair hMem with
    ⟨other, hOther, hAccount, hText, seed, hSeed, hPubkey,
      hSome⟩
  have hSameAccount :
      other.accountName = remote.account := by
    rw [hAccountName, Connection.accountName, hAccount]
    rfl
  refine ⟨seed, other, hOther, hText, hSameAccount, ?_, ?_⟩
  · rw [hNkeyEnv]
    exact installation.siteEnv_of_secret hMem hSeed
  · intro permissions operator order w libs config
      authenticators issuer req token file name hFile
      hLoadable hOne hNew hRequest hSigns
    have hKey :=
      installation.expandEnv_publicKey hOther
        (installation.hubEnv_of_secret hOther hPubkey)
    have hEntry :=
      mem_nkeySection installation.accepted_hub
        (fun _ => installation.hubStrings) permissions
        (owner_mem_owners installation.hubRole hOther)
    have hTable :
        Go.collected (nkeyItem installation.hubEnv) order
            file.nkey (publicKey seed) =
          some ⟨name, remote.account, .zero⟩ := by
      have hFound :=
        collected_nkey_of_mem order hEntry hKey hOne
      rw [account_owner,
        expandEnv_accountName installation.accepted_hub _
          hOther, hSameAccount] at hFound
      exact hFound
    rw [load_run_of_loadable _ order hLoadable hFile,
      handleAuthRequest_ok_iff_issued]
    simp only [authorizeRequest_ok_iff,
      firstAccepting_nkey hNew hRequest hSome]
    constructor
    · intro hIssued
      rcases hIssued with
        ⟨a, profile, ⟨hFirst, hGrants⟩, hToken⟩
      cases hFirst
      rcases hGrants with ⟨table, _, hStored, hProfile⟩
      cases hStored
      rw [hRequest.nkey, hTable] at hProfile
      cases hProfile
      exact hToken
    · intro hToken
      refine ⟨.nkey, _, ⟨rfl, _, hSigns, rfl, ?_⟩, hToken⟩
      rw [hRequest.nkey]
      exact hTable

end Installation

end EventBus

------------------------------------------------------------
-- A Leaf That Logs In
------------------------------------------------------------

namespace EventBus

open GenerateNkeys (sampleKey sampleEnv withCpcOne
  honest_sampleEnv works_sampleEnv complete_of_works Reached)
open AuthCallout AuthCallout.Auth AuthCallout.Config

/- The public key of a secret given as a text. -/
def givenKey (pubkey : String) :
    Option (Go.Map ValueTree) :=
  some ((∅ : Go.Map ValueTree).insert "pubkey" (.text pubkey))

/- A CSC cluster with one CPC and keys of its own. -/
def hubOfOne : Values :=
  { cscValues [.string "1"] with
    mtlsEnabled := false
    extraAccounts := ∅
    nkeySecretRefOverrides :=
      some
        (((∅ : Go.Map (Option (Go.Map ValueTree))).insert
            "nats-nack-user" (givenKey "UNACK")).insert
          "nats-surveyor" (givenKey "USURVEYOR")) }

def siteOne : Values :=
  cpcValues
    { cscExports := []
      cscPrefixedExports := []
      cpcExports := [] }

def generatedTree : GenerateNkeys.Tree :=
  (GenerateNkeys.run sampleKey "secrets" withCpcOne
    (sampleEnv none [])
    (GenerateNkeys.start (fun _ => none) [])).2.world.tree

def oneSite : Installation sampleKey where
  hub := hubOfOne
  site := siteOne
  hubAccepted := by decide +kernel
  siteAccepted := validation_cpcValues _
  hubRole := rfl
  siteRole := rfl
  hubStrings := by decide
  listed := ⟨.string "1", by decide, rfl⟩
  accounts := by decide
  hubDefaults := by decide +kernel
  siteDefaults := by decide +kernel
  outputRoot := "secrets"
  tree := generatedTree
  reached :=
    Reached.run Reached.empty withCpcOne _
      (honest_sampleEnv none []) []
  request := withCpcOne
  serves := ⟨by decide, by decide⟩
  complete :=
    (complete_of_works withCpcOne "secrets" (by decide)
      (honest_sampleEnv none []) works_sampleEnv).2
  deployment := plainDeployment
  hubEntries := _
  hubRendered := rfl
  siteEntries := _
  siteRendered := rfl
  otherSource := fun _ => none

/- Libraries for which every signature is the right one. -/
def signingLibraries : Libraries :=
  { offlineLibraries with
    fromPublicKey := fun _ => .ok ⟨0, List.replicate 32 0⟩
    ed25519Verify := fun _ _ _ => true }

def leafRequest : AuthorizationRequest where
  userNkey := passwordRequest.userNkey
  clientInformation := ⟨"nonce"⟩
  connectOptions := ⟨"", "", "", "UAB", "AQ_-"⟩
  tls := none

def noProfiles : PermissionsConfig where
  oauth2 := ∅
  mtls := ∅
  nkey := ∅
  noauth := none

def hubFile : PermissionsConfig :=
  permissionsFile hubOfOne (fun _ => .zero) noProfiles

/- The key of its one leaf is in the file once. -/
theorem distinct_hubFile :
    ∀ other entry,
      ⟨other, some entry⟩ ∈ hubFile.nkey.entries →
        Go.expandEnv oneSite.hubEnv entry.publicKey = "UAB" →
          other = "leaf-cpc-1" := by
  have hEntries :
      hubFile.nkey.entries =
        [⟨"leaf-cpc-1",
            some ⟨"$\x7bNKEY_LEAF_CPC_1_PUBKEY\x7d", "CSC",
              .zero⟩⟩,
          ⟨"surveyor",
            some ⟨"$\x7bNKEY_SURVEYOR_PUBKEY\x7d", "SYS",
              .zero⟩⟩,
          ⟨"nack-controller",
            some ⟨"$\x7bNKEY_NACK_USER_PUBKEY\x7d", "CSC",
              .zero⟩⟩] := by
    rfl
  intro other entry hMem hKey
  rw [hEntries] at hMem
  rcases List.mem_cons.mp hMem with hLeaf | hMem
  · cases hLeaf
    rfl
  rcases List.mem_cons.mp hMem with hSurveyor | hMem
  · cases hSurveyor
    exact absurd hKey (by decide +kernel)
  · cases List.mem_singleton.mp hMem
    exact absurd hKey (by decide +kernel)

theorem loadable_hubFile :
    Loadable oneSite.hubEnv hubFile where
  oauth2 := by
    intro entry hMem
    cases hMem
  identity := by
    intro name entry hMem
    cases hMem
  mtls := by
    intro entry hMem
    cases hMem
  nkey := by
    intro entry hMem
    rcases List.mem_map.mp hMem with ⟨_, _, hEntry⟩
    rw [← hEntry]
    simp [fileEntry]

def leafToken : UserJWT where
  claims :=
    { subject := leafRequest.userNkey
      name := "leaf-cpc-1"
      audience := "CSC"
      permissions := .zero
      subs := -1
      data := -1
      payload := -1 }
  encoded := "leaf-cpc-1"

/- The leaf of the CPC gets in at the account `CSC`. -/
theorem token_of_oneSite :
    (handleAuthRequest signingLibraries plainIssuer
        [.nkey, .noauth] leafRequest).eval
      ((load oneSite.hubEnv .listed).run
        (world (.decoded hubFile)
          ⟨none, none, none, none⟩)).2 =
      .ok leafToken := by
  rcases @Installation.leaf_token_iff _ oneSite
      ⟨"nats://csc:7422", "LEAF_USER_SEED", "CSC"⟩
      (by decide +kernel) with
    ⟨seed, connection, hMem, _, _, hSeed, hTokens⟩
  have hAnswers :
      oneSite.siteEnv "LEAF_USER_SEED" = some "SUAB" := by
    decide +kernel
  have hOneLeaf :
      oneSite.hub.connections = [⟨.string "1", none⟩] := by
    decide +kernel
  rw [hAnswers] at hSeed
  cases hSeed
  rw [hOneLeaf] at hMem
  cases List.mem_singleton.mp hMem
  apply (hTokens (fun _ => .zero) noProfiles .listed _
    signingLibraries nkeyOnlyConfig [.nkey, .noauth]
    plainIssuer leafRequest leafToken rfl loadable_hubFile
    distinct_hubFile (by decide) ?_ ?_).mpr
  · exact ⟨by decide, rfl, rfl, rfl⟩
  · exact
      { nkey := by decide
        noToken := rfl
        noPassword := by decide
        noChain := rfl }
  · exact
      { key := by decide
        signed := by decide
        verified :=
          ⟨⟨0, List.replicate 32 0⟩, [1, 15, 254], rfl,
            by decide, by decide, rfl⟩ }

end EventBus
