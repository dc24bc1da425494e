import DsxExchange.EventBus.Placeholders
import DsxExchange.GenerateNkeys.Histories

/-
  The chart and the key generator: the secrets that rendered
  environments refer to are among the files that a run makes
  for the same values.

  Key definitions include:
    * `EventBus.Values.generatorArgs`, `EventBus.Serves`
    * `EventBus.Connection`, `EventBus.Values.connections`
    * `EventBus.TakenFrom`, `EventBus.ApartFromFixed`

  Key theorems include:
    * `EventBus.parseArgs_generatorArgs`
    * `EventBus.exists_leaf`
    * `EventBus.generator_agrees`
-/

------------------------------------------------------------
-- What The Generator Is Asked For
------------------------------------------------------------

namespace EventBus

open GenerateNkeys (Request cpcCluster)

/- The CPCs whose leaves the values describe. -/
def Values.leafIds (values : Values) : List Scalar :=
  if values.clusterType = "csc" then
    values.cpcIds
  else
    [values.clusterId]

/- All ids of the values, with that of a CPC itself. -/
def Values.ids (values : Values) : List Scalar :=
  if values.clusterType = "cpc" then
    values.clusterId :: values.cpcIds
  else
    values.cpcIds

def Values.generatorArgs (values : Values) : List String :=
  values.enabledAccounts.flatMap
      (fun accountName => ["--extra-account", accountName]) ++
    values.ids.map Scalar.toText

/- The directory of the cluster among the generator's files. -/
def Values.cluster (values : Values) : String :=
  if values.clusterType = "csc" then
    "csc"
  else
    cpcCluster values.clusterId.toText

/- A request for at least the leaves of the values. -/
structure Serves
    (values : Values)
    (request : Request) : Prop where
  cpcIds :
    ∀ cpcId ∈ values.leafIds,
      ∃ requested ∈ request.cpcIds,
        requested.val = cpcId.toText
  accounts :
    ∀ accountName ∈ values.enabledAccounts,
      ∃ requested ∈ request.extraAccounts,
        requested.val = accountName

end EventBus

------------------------------------------------------------
-- The Arguments Are Accepted
------------------------------------------------------------

namespace GenerateNkeys

open EventBus (isCpcId isLowerAlnum)

/- An id does not begin like an option. -/
theorem not_option_of_isCpcId
    {cpcId : String}
    (hId : isCpcId cpcId = true) :
    Go.hasPrefix cpcId "-" = false := by
  have hToken := EventBus.isLowerToken_of_isCpcId hId
  by_contra hOption
  have hTrue : Go.hasPrefix cpcId "-" = true := by
    simpa using hOption
  rcases Go.hasPrefix_iff.mp hTrue with ⟨rest, hEq⟩
  have hDash : '-' ∈ cpcId.toList := by
    rw [hEq]
    simp
  exact hToken.not_mem (by decide) hDash

theorem ne_of_not_option
    {arg option : String}
    (hArg : Go.hasPrefix arg "-" = false)
    (hOption : Go.hasPrefix option "-" = true) :
    arg ≠ option := by
  intro hEq
  rw [hEq, hOption] at hArg
  cases hArg

variable {defaultRoot outputRoot : String}
variable {cpcIds : List CpcId}
variable {accounts : List AccountName}

/- One id of a CPC. -/
theorem parseArgs_cpcId
    {cpcId : String}
    {rest : List String}
    (hValid : validateCpcId cpcId = .ok ()) :
    parseArgs defaultRoot outputRoot cpcIds accounts
        (cpcId :: rest) =
      parseArgs defaultRoot outputRoot
        (cpcIds ++ [⟨cpcId, hValid⟩]) accounts rest := by
  have hId := (validateCpcId_ok_iff cpcId).mp hValid
  have hNoOption := not_option_of_isCpcId hId
  have hOutput : ¬ (cpcId = "-o" ∨ cpcId = "--output") := by
    rw [not_or]
    exact ⟨ne_of_not_option hNoOption (by decide),
      ne_of_not_option hNoOption (by decide)⟩
  have hHelp : ¬ (cpcId = "-h" ∨ cpcId = "--help") := by
    rw [not_or]
    exact ⟨ne_of_not_option hNoOption (by decide),
      ne_of_not_option hNoOption (by decide)⟩
  have hAccount : cpcId ≠ "--extra-account" :=
    ne_of_not_option hNoOption (by decide)
  rw [parseArgs.eq_def]
  dsimp only
  rw [if_neg hOutput, if_neg hHelp, if_neg hAccount,
    if_neg (by simp [hNoOption])]
  split
  · rename_i message hError
    rw [hValid] at hError
    cases hError
  · rfl

/- The name of one extra account. -/
theorem parseArgs_extraAccount
    {accountName : String}
    {rest : List String}
    (hValid : validateExtraAccountName accountName = .ok ()) :
    parseArgs defaultRoot outputRoot cpcIds accounts
        ("--extra-account" :: accountName :: rest) =
      parseArgs defaultRoot outputRoot cpcIds
        (accounts ++ [⟨accountName, hValid⟩]) rest := by
  rw [parseArgs, if_neg (by decide), if_neg (by decide),
    if_pos rfl]
  split
  · rename_i message hError
    rw [hValid] at hError
    cases hError
  · rfl

/- The loop takes one id after another. -/
theorem parseArgs_ids
    (defaultRoot outputRoot : String)
    (accounts : List AccountName)
    {ids : List String}
    (hIds : ∀ cpcId ∈ ids, validateCpcId cpcId = .ok ())
    (cpcIds : List CpcId) :
    ∃ taken : List CpcId,
      taken.map Subtype.val = ids ∧
        parseArgs defaultRoot outputRoot cpcIds accounts ids =
          finishArgs defaultRoot outputRoot (cpcIds ++ taken)
            accounts := by
  induction ids generalizing cpcIds with
  | nil => exact ⟨[], rfl, by simp [parseArgs]⟩
  | cons cpcId rest ih =>
      have hValid := hIds cpcId List.mem_cons_self
      have hRest :
          ∀ other ∈ rest, validateCpcId other = .ok () := by
        intro other hMem
        exact hIds other (List.mem_cons_of_mem _ hMem)
      rcases ih hRest (cpcIds ++ [⟨cpcId, hValid⟩]) with
        ⟨taken, hTaken, hParse⟩
      refine ⟨⟨cpcId, hValid⟩ :: taken, by simp [hTaken], ?_⟩
      rw [parseArgs_cpcId hValid, hParse, List.append_assoc,
        List.singleton_append]

/- Before the ids it takes one account after another. -/
theorem parseArgs_extraAccounts
    (defaultRoot outputRoot : String)
    (cpcIds : List CpcId)
    {names : List String}
    (hNames :
      ∀ name ∈ names, validateExtraAccountName name = .ok ())
    (accounts : List AccountName)
    (rest : List String) :
    ∃ taken : List AccountName,
      taken.map Subtype.val = names ∧
        parseArgs defaultRoot outputRoot cpcIds accounts
            (names.flatMap
              (fun name => ["--extra-account", name]) ++
                rest) =
          parseArgs defaultRoot outputRoot cpcIds
            (accounts ++ taken) rest := by
  induction names generalizing accounts with
  | nil => exact ⟨[], rfl, by simp⟩
  | cons name others ih =>
      have hValid := hNames name List.mem_cons_self
      have hOthers :
          ∀ other ∈ others,
            validateExtraAccountName other = .ok () := by
        intro other hMem
        exact hNames other (List.mem_cons_of_mem _ hMem)
      rcases ih hOthers (accounts ++ [⟨name, hValid⟩]) with
        ⟨taken, hTaken, hParse⟩
      refine ⟨⟨name, hValid⟩ :: taken, by simp [hTaken], ?_⟩
      simp only [List.flatMap_cons, List.cons_append,
        List.nil_append]
      rw [parseArgs_extraAccount hValid, hParse,
        List.append_assoc, List.singleton_append]

/- What is asked for when the tokens are distinct. -/
theorem finishArgs_eq_run
    (hTokens :
      validateExtraAccountTokens []
        (accounts.map Subtype.val) = .ok ()) :
    finishArgs defaultRoot outputRoot cpcIds accounts =
      .run (if outputRoot = "" then defaultRoot else outputRoot)
        { cpcIds := cpcIds
          extraAccounts := accounts
          distinctTokens := distinctTokens_of_ok hTokens } := by
  unfold finishArgs
  split
  · rename_i message hError
    rw [hTokens] at hError
    cases hError
  · rfl

end GenerateNkeys

namespace EventBus

open GenerateNkeys (Request CpcId AccountName
  validateCpcId validateExtraAccountName
  validateExtraAccountTokens extraAccountSecretToken
  parseArgs)

variable {values : Values}

theorem validate_of_mem_ids
    (hAccepted : Accepted values)
    {cpcId : Scalar}
    (hMem : cpcId ∈ values.ids) :
    validateCpcId cpcId.toText = .ok () := by
  apply (GenerateNkeys.validateCpcId_ok_iff _).mpr
  unfold Values.ids at hMem
  by_cases hRole : values.clusterType = "cpc"
  · rw [if_pos hRole] at hMem
    rcases List.mem_cons.mp hMem with hSelf | hOther
    · rw [hSelf]
      exact (hAccepted.clusterId hRole).2
    · exact hAccepted.cpcIds cpcId hOther
  · rw [if_neg hRole] at hMem
    exact hAccepted.cpcIds cpcId hMem

theorem validate_of_accepted
    {accountName : String}
    (hAccount : AcceptedAccount accountName) :
    validateExtraAccountName accountName = .ok () :=
  (GenerateNkeys.validateExtraAccountName_ok_iff _).mpr
    ⟨hAccount.form, hAccount.notReserved, hAccount.notCpc⟩

/- Both sides make the same token of an account. -/
theorem secretToken_eq
    {accountName : String}
    (hAccount : AcceptedAccount accountName) :
    extraAccountSecretToken accountName =
      extraAccountSecretName accountName := by
  rw [GenerateNkeys.extraAccountSecretToken_eq_lower
      hAccount.form,
    extraAccountSecretName_of_isAccountName hAccount.form]

theorem validateTokens_of_accepted
    (hAccepted : Accepted values) :
    validateExtraAccountTokens [] values.enabledAccounts =
      .ok () := by
  apply (GenerateNkeys.validateExtraAccountTokens_ok_iff
    List.nodup_nil _).mpr
  · rw [List.nil_append,
      List.map_congr_left (g := extraAccountSecretName)]
    · exact hAccepted.distinctSecretNames
    · intro accountName hEnabled
      exact secretToken_eq
        (hAccepted.accounts accountName hEnabled)
  · intro accountName hEnabled
    exact (hAccepted.accounts accountName hEnabled).form

/- The generator accepts what the chart has accepted. -/
theorem parseArgs_generatorArgs
    (hAccepted : Accepted values)
    (defaultRoot outputRoot : String) :
    ∃ request : Request,
      parseArgs defaultRoot outputRoot [] []
          values.generatorArgs =
        .run
          (if outputRoot = "" then defaultRoot else outputRoot)
          request ∧
      request.cpcIds.map Subtype.val =
        values.ids.map Scalar.toText ∧
      request.extraAccounts.map Subtype.val =
        values.enabledAccounts := by
  have hIds :
      ∀ cpcId ∈ values.ids.map Scalar.toText,
        validateCpcId cpcId = .ok () := by
    intro cpcId hMem
    rcases List.mem_map.mp hMem with ⟨scalar, hScalar, hEq⟩
    rw [← hEq]
    exact validate_of_mem_ids hAccepted hScalar
  have hNames :
      ∀ name ∈ values.enabledAccounts,
        validateExtraAccountName name = .ok () := by
    intro name hEnabled
    exact validate_of_accepted (hAccepted.accounts name hEnabled)
  rcases GenerateNkeys.parseArgs_extraAccounts defaultRoot
      outputRoot [] hNames [] (values.ids.map Scalar.toText)
    with ⟨accounts, hAccounts, hParseAccounts⟩
  rcases GenerateNkeys.parseArgs_ids defaultRoot outputRoot
      accounts hIds []
    with ⟨cpcIds, hCpcIds, hParseIds⟩
  have hTokens :
      validateExtraAccountTokens []
        (accounts.map Subtype.val) = .ok () := by
    rw [hAccounts]
    exact validateTokens_of_accepted hAccepted
  refine ⟨⟨cpcIds, accounts,
    GenerateNkeys.distinctTokens_of_ok hTokens⟩, ?_, hCpcIds,
    hAccounts⟩
  unfold Values.generatorArgs
  rw [hParseAccounts, List.nil_append, hParseIds,
    List.nil_append]
  exact GenerateNkeys.finishArgs_eq_run hTokens

theorem leafIds_subset
    (hAccepted : Accepted values) :
    values.leafIds ⊆ values.ids := by
  unfold Values.leafIds Values.ids
  rcases hAccepted.clusterType with hCsc | hCpc
  · simp [hCsc]
  · simp [hCpc]

/- A request for exactly these ids and accounts is enough. -/
theorem serves_of_eq
    (hAccepted : Accepted values)
    {request : Request}
    (hCpcIds :
      request.cpcIds.map Subtype.val =
        values.ids.map Scalar.toText)
    (hAccounts :
      request.extraAccounts.map Subtype.val =
        values.enabledAccounts) :
    Serves values request := by
  constructor
  · intro cpcId hMem
    have hText :
        cpcId.toText ∈ request.cpcIds.map Subtype.val := by
      rw [hCpcIds]
      exact List.mem_map_of_mem (leafIds_subset hAccepted hMem)
    exact List.mem_map.mp hText
  · intro accountName hEnabled
    rw [← hAccounts] at hEnabled
    exact List.mem_map.mp hEnabled

end EventBus

------------------------------------------------------------
-- Leaf Connections
------------------------------------------------------------

namespace EventBus

open GenerateNkeys (Request Leaf)

/- A CPC's connection, of the built-in or an extra account. -/
structure Connection where
  cpcId : Scalar
  account : Option String
deriving DecidableEq, Repr

def Values.connections (values : Values) : List Connection :=
  values.leafIds.flatMap (fun cpcId =>
    ⟨cpcId, none⟩ ::
      values.enabledAccounts.map
        (fun accountName => ⟨cpcId, some accountName⟩))

/- What a connection is called on a CSC cluster. -/
def Connection.cscRef : Connection → EnvRef
| ⟨cpcId, none⟩ => leafEnvRef cpcId
| ⟨cpcId, some accountName⟩ =>
    accountLeafEnvRef cpcId accountName

/- What it is called on its own CPC cluster. -/
def Connection.cpcRef : Connection → EnvRef
| ⟨_, none⟩ => ⟨"LEAF_USER_SEED", "nats-leaf-csc", "seed"⟩
| ⟨_, some accountName⟩ =>
    { env :=
        "LEAF_" ++ extraAccountEnvName accountName ++
          "_USER_SEED"
      secretName :=
        "nats-leaf-" ++ extraAccountSecretName accountName ++
          "-csc"
      key := "seed" }

def Connection.ref
    (values : Values)
    (connection : Connection) : EnvRef :=
  if values.clusterType = "csc" then
    connection.cscRef
  else
    connection.cpcRef

variable {values : Values}

theorem mem_connections
    {connection : Connection} :
    connection ∈ values.connections ↔
      connection.cpcId ∈ values.leafIds ∧
        ∀ accountName ∈ connection.account,
          accountName ∈ values.enabledAccounts := by
  rcases connection with ⟨cpcId, account⟩
  unfold Values.connections
  rw [List.mem_flatMap]
  cases account with
  | none => simp
  | some accountName => simp [and_comm]

/- The references of a CSC cluster to its leaves. -/
theorem cscLeafEnvRefs_eq
    (hRole : values.clusterType = "csc") :
    cscLeafEnvRefs values =
      values.connections.map (Connection.ref values) := by
  unfold cscLeafEnvRefs Values.connections Values.leafIds
  rw [if_pos hRole, List.map_flatMap]
  congr 1
  funext cpcId
  simp [Connection.ref, Connection.cscRef, hRole]

/- The references of a CPC cluster to its own leaf. -/
theorem cpcLeafEnvRefs_eq
    (hRole : values.clusterType = "cpc") :
    ⟨"LEAF_USER_SEED", "nats-leaf-csc", "seed"⟩ ::
        values.enabledAccounts.map (fun accountName =>
          (⟨"LEAF_" ++ extraAccountEnvName accountName ++
              "_USER_SEED",
            "nats-leaf-" ++
              extraAccountSecretName accountName ++ "-csc",
            "seed"⟩ : EnvRef)) =
      values.connections.map (Connection.ref values) := by
  unfold Values.connections Values.leafIds
  simp [Connection.ref, Connection.cpcRef, hRole]

/- The leaf that the generator makes for a connection. -/
structure Connection.IsLeaf
    (connection : Connection)
    (leaf : Leaf) : Prop where
  cpcId : leaf.cpcId = connection.cpcId.toText
  account :
    leaf.account =
      connection.account.map extraAccountSecretName

theorem toText_of_mem_leafIds
    (hAccepted : Accepted values)
    {cpcId : Scalar}
    (hMem : cpcId ∈ values.leafIds) :
    isCpcId cpcId.toText = true :=
  (GenerateNkeys.validateCpcId_ok_iff _).mp
    (validate_of_mem_ids hAccepted
      (leafIds_subset hAccepted hMem))

theorem exists_isLeaf
    (hAccepted : Accepted values)
    {connection : Connection}
    (hMem : connection ∈ values.connections) :
    ∃ leaf, connection.IsLeaf leaf := by
  rcases mem_connections.mp hMem with ⟨hId, hAccount⟩
  refine ⟨⟨connection.cpcId.toText,
    connection.account.map extraAccountSecretName, ?_, ?_⟩,
    ⟨rfl, rfl⟩⟩
  · exact isLowerToken_of_isCpcId
      (toText_of_mem_leafIds hAccepted hId)
  · intro token hToken
    rcases Option.map_eq_some_iff.mp hToken with
      ⟨accountName, hName, hEq⟩
    rw [← hEq]
    exact isLowerToken_secretName
      (hAccepted.accounts accountName
        (hAccount accountName hName))

/- A request that serves the values has such a leaf. -/
theorem exists_leaf
    (hAccepted : Accepted values)
    {request : Request}
    (hServes : Serves values request)
    {connection : Connection}
    (hMem : connection ∈ values.connections) :
    ∃ leaf ∈ request.leaves, connection.IsLeaf leaf := by
  rcases mem_connections.mp hMem with ⟨hId, hAccount⟩
  rcases hServes.cpcIds connection.cpcId hId with
    ⟨cpcId, hRequested, hVal⟩
  cases hName : connection.account with
  | none =>
      refine ⟨GenerateNkeys.builtInLeaf cpcId, ?_, hVal, ?_⟩
      · exact List.mem_flatMap.mpr
          ⟨cpcId, hRequested, List.mem_cons_self⟩
      · rw [hName]
        rfl
  | some accountName =>
      have hEnabled := hAccount accountName hName
      rcases hServes.accounts accountName hEnabled with
        ⟨account, hAsked, hSame⟩
      refine ⟨GenerateNkeys.accountLeaf cpcId account, ?_,
        hVal, ?_⟩
      · apply List.mem_flatMap.mpr
        exact ⟨cpcId, hRequested,
          List.mem_cons_of_mem _ (List.mem_map_of_mem hAsked)⟩
      · have hToken :=
          secretToken_eq (hAccepted.accounts _ hEnabled)
        rw [hName, Option.map_some, ← hToken, ← hSame]
        rfl

theorem cscSecret_eq
    {connection : Connection}
    {leaf : Leaf}
    (hLeaf : connection.IsLeaf leaf)
    (hString : connection.cpcId.IsString) :
    connection.cscRef.secretName = leaf.cscSecret := by
  have hText :=
    Scalar.printfText_eq_toText_of_isString hString
  rcases connection with ⟨cpcId, account⟩
  unfold Leaf.cscSecret
  rw [hLeaf.cpcId, hLeaf.account]
  cases account with
  | none =>
      simp [Connection.cscRef, leafEnvRef, hText]
  | some accountName =>
      simp [Connection.cscRef, accountLeafEnvRef, hText]

theorem cpcSecret_eq
    {connection : Connection}
    {leaf : Leaf}
    (hLeaf : connection.IsLeaf leaf) :
    connection.cpcRef.secretName = leaf.cpcSecret := by
  rcases connection with ⟨cpcId, account⟩
  unfold Leaf.cpcSecret
  rw [hLeaf.account]
  cases account with
  | none => simp [Connection.cpcRef]
  | some accountName => simp [Connection.cpcRef]

end EventBus

------------------------------------------------------------
-- Distinct Names
------------------------------------------------------------

namespace EventBus

open GenerateNkeys (Leaf baseFiles)

/- The references of a NATS container besides the leaves. -/
def natsFixedEnvRefs : List EnvRef :=
  [⟨"AUTHX_USER_NKEY", "nats-authx-user", "pubkey"⟩,
    ⟨"AUTH_SIGNING_KEY", "nats-auth-signing", "pubkey"⟩,
    ⟨"XKEY_PUBKEY", "nats-xkey", "pubkey"⟩,
    ⟨"MTLS_LEAF_USER_SEED", "nats-mtls-leaf", "seed"⟩,
    ⟨"AUTHX_LEAF_USER_SEED", "nats-mtls-authx-leaf", "seed"⟩,
    ⟨"MTLS_SYS_LEAF_USER_SEED",
      "nats-mtls-sys-leaf", "seed"⟩]

def allFixedEnvRefs : List EnvRef :=
  generatedEnvRefs ++ mtlsEnvRefs ++ natsFixedEnvRefs

/- The variables of the containers that name no secret. -/
def plainEnvNames : List String :=
  ["AUTH_CALLOUT_SERVICE_NAME",
    "AUTH_CALLOUT_SERVICE_SERVER_PORT", "POD_NAME",
    "POD_NAMESPACE", "NODE_NAME", "AUTH_CALLOUT_HOT_CONFIG",
    "AUTH_CALLOUT_HOT_CONFIG_INTERVAL",
    "AUTH_CALLOUT_MTLS_CA_PATH", "GOMEMLIMIT",
    "NATS_CLUSTER_NAME", "NATS_JS_DOMAIN",
    "NATS_MTLS_SERVER_NAME", "MTLS_LEAF_ACCOUNT"]

def fixedEnvNames : List String :=
  allFixedEnvRefs.map EnvRef.env ++ plainEnvNames

/- A reference that shares no name with a fixed one. -/
structure ApartFromFixed (ref : EnvRef) : Prop where
  secret :
    ∀ fixed ∈ allFixedEnvRefs,
      ref.secretName ≠ fixed.secretName
  env : ref.env ∉ fixedEnvNames

/- The parts of the variable of a connection. -/
def Connection.cscParts (connection : Connection) :
    List String :=
  "NKEY" :: "LEAF" ::
    ((connection.account.map extraAccountEnvName).toList ++
      ["CPC", connection.cpcId.printfText, "PUBKEY"])

def Connection.cpcParts (connection : Connection) :
    List String :=
  "LEAF" ::
    ((connection.account.map extraAccountEnvName).toList ++
      ["USER", "SEED"])

/- Every fixed reference is to a file of the generator. -/
theorem exists_baseFile_of_fixed
    {ref : EnvRef}
    (hMem : ref ∈ allFixedEnvRefs) :
    ∃ file ∈ baseFiles,
      file.secretName = ref.secretName ∧
        file.key = ref.key := by
  have hAll :
      allFixedEnvRefs.all (fun ref =>
        baseFiles.any (fun file =>
          file.secretName = ref.secretName ∧
            file.key = ref.key)) = true := by
    decide +kernel
  have hAny := List.all_eq_true.mp hAll ref hMem
  simpa using hAny

variable {values : Values}

theorem split_cscRef_env
    (hAccepted : Accepted values)
    {connection : Connection}
    (hMem : connection ∈ values.connections)
    (hString : connection.cpcId.IsString) :
    Go.split connection.cscRef.env '_' =
      connection.cscParts := by
  rcases mem_connections.mp hMem with ⟨hLeafId, hAccount⟩
  have hToken :=
    isLowerToken_printfText hString
      (toText_of_mem_leafIds hAccepted hLeafId)
  have hId : '_' ∉ connection.cpcId.printfText.toList :=
    hToken.not_mem (by decide)
  rcases connection with ⟨cpcId, account⟩
  cases account with
  | none => exact split_leafEnv hId
  | some accountName =>
      have hUpper :=
        isUpperToken_envName
          (hAccepted.accounts accountName
            (hAccount accountName rfl))
      exact split_accountLeafEnv
        (hUpper.not_mem (by decide)) hId

theorem split_cpcRef_env
    (hAccepted : Accepted values)
    {connection : Connection}
    (hMem : connection ∈ values.connections) :
    Go.split connection.cpcRef.env '_' =
      connection.cpcParts := by
  have hAccount := (mem_connections.mp hMem).2
  rcases connection with ⟨cpcId, account⟩
  cases account with
  | none =>
      have hSplit :
          Go.split "LEAF_USER_SEED" '_' =
            ["LEAF", "USER", "SEED"] := by
        decide +kernel
      exact hSplit
  | some accountName =>
      have hUpper :=
        isUpperToken_envName
          (hAccepted.accounts accountName
            (hAccount accountName rfl))
      have hName :
          '_' ∉ (extraAccountEnvName accountName).toList :=
        hUpper.not_mem (by decide)
      have hJoin :
          "LEAF_" ++ extraAccountEnvName accountName ++
              "_USER_SEED" =
            Go.join
              ["LEAF", extraAccountEnvName accountName,
                "USER", "SEED"] '_' := by
        apply String.toList_inj.mp
        simp [Go.join, List.intercalate, List.intersperse]
      simp only [Connection.cpcRef, Connection.cpcParts,
        Option.map_some, Option.toList_some]
      rw [hJoin]
      exact Go.split_join (by simp) (by simp [hName])

/- An account is told by its variable and by its secret. -/
theorem account_eq_of_map
    {token : String → String}
    (hDistinct : (values.enabledAccounts.map token).Nodup)
    {first second : Connection}
    (hFirst : first ∈ values.connections)
    (hSecond : second ∈ values.connections)
    (hTokens :
      first.account.map token = second.account.map token) :
    first.account = second.account := by
  have hInFirst := (mem_connections.mp hFirst).2
  have hInSecond := (mem_connections.mp hSecond).2
  cases hName : first.account with
  | none =>
      rw [hName] at hTokens
      cases hOther : second.account with
      | none => rfl
      | some accountName =>
          rw [hOther] at hTokens
          simp at hTokens
  | some accountName =>
      rw [hName] at hTokens
      cases hOther : second.account with
      | none =>
          rw [hOther] at hTokens
          simp at hTokens
      | some other =>
          rw [hOther] at hTokens
          have hSame : token accountName = token other := by
            simpa using hTokens
          rw [List.inj_on_of_nodup_map hDistinct
            (hInFirst accountName hName)
            (hInSecond other hOther) hSame]

/- On a CSC cluster the ids of the connections are strings. -/
theorem isString_of_csc
    (hStrings :
      values.clusterType = "csc" →
        ∀ cpcId ∈ values.cpcIds, cpcId.IsString)
    (hRole : values.clusterType = "csc")
    {connection : Connection}
    (hMem : connection ∈ values.connections) :
    connection.cpcId.IsString := by
  have hLeafId := (mem_connections.mp hMem).1
  unfold Values.leafIds at hLeafId
  rw [if_pos hRole] at hLeafId
  exact hStrings hRole connection.cpcId hLeafId

/- On a CPC cluster there is one id. -/
theorem cpcId_eq_of_cpc
    (hRole : values.clusterType ≠ "csc")
    {connection : Connection}
    (hMem : connection ∈ values.connections) :
    connection.cpcId = values.clusterId := by
  have hLeafId := (mem_connections.mp hMem).1
  unfold Values.leafIds at hLeafId
  rw [if_neg hRole] at hLeafId
  exact List.mem_singleton.mp hLeafId

theorem connection_eq
    {first second : Connection}
    (hIds : first.cpcId = second.cpcId)
    (hAccount : first.account = second.account) :
    first = second := by
  rcases first with ⟨cpcId, account⟩
  rcases second with ⟨cpcId', account'⟩
  simp only at hIds hAccount
  rw [hIds, hAccount]

theorem cpcId_eq_of_toText
    (hAccepted : Accepted values)
    (hRole : values.clusterType = "csc")
    {first second : Connection}
    (hFirst : first ∈ values.connections)
    (hSecond : second ∈ values.connections)
    (hText : first.cpcId.toText = second.cpcId.toText) :
    first.cpcId = second.cpcId := by
  have hInFirst := (mem_connections.mp hFirst).1
  have hInSecond := (mem_connections.mp hSecond).1
  unfold Values.leafIds at hInFirst hInSecond
  rw [if_pos hRole] at hInFirst hInSecond
  exact List.inj_on_of_nodup_map hAccepted.distinctCpcIds
    hInFirst hInSecond hText

/- A secret belongs to one connection. -/
theorem eq_of_secretName_eq
    (hAccepted : Accepted values)
    (hStrings :
      values.clusterType = "csc" →
        ∀ cpcId ∈ values.cpcIds, cpcId.IsString)
    {first second : Connection}
    (hFirst : first ∈ values.connections)
    (hSecond : second ∈ values.connections)
    (hSecret :
      (first.ref values).secretName =
        (second.ref values).secretName) :
    first = second := by
  rcases exists_isLeaf hAccepted hFirst with ⟨leaf, hLeaf⟩
  rcases exists_isLeaf hAccepted hSecond with ⟨other, hOther⟩
  unfold Connection.ref at hSecret
  by_cases hRole : values.clusterType = "csc"
  · rw [if_pos hRole, if_pos hRole,
      cscSecret_eq hLeaf (isString_of_csc hStrings hRole hFirst),
      cscSecret_eq hOther
        (isString_of_csc hStrings hRole hSecond)] at hSecret
    have hSame := GenerateNkeys.cscSecret_injective hSecret
    apply connection_eq
    · apply cpcId_eq_of_toText hAccepted hRole hFirst hSecond
      rw [← hLeaf.cpcId, ← hOther.cpcId, hSame]
    · apply account_eq_of_map hAccepted.distinctSecretNames
        hFirst hSecond
      rw [← hLeaf.account, ← hOther.account, hSame]
  · rw [if_neg hRole, if_neg hRole, cpcSecret_eq hLeaf,
      cpcSecret_eq hOther] at hSecret
    apply connection_eq
    · rw [cpcId_eq_of_cpc hRole hFirst,
        cpcId_eq_of_cpc hRole hSecond]
    · apply account_eq_of_map hAccepted.distinctSecretNames
        hFirst hSecond
      rw [← hLeaf.account, ← hOther.account]
      exact GenerateNkeys.cpcSecret_injective hSecret

/- A variable belongs to one connection. -/
theorem eq_of_env_eq
    (hAccepted : Accepted values)
    (hStrings :
      values.clusterType = "csc" →
        ∀ cpcId ∈ values.cpcIds, cpcId.IsString)
    {first second : Connection}
    (hFirst : first ∈ values.connections)
    (hSecond : second ∈ values.connections)
    (hEnv : (first.ref values).env = (second.ref values).env) :
    first = second := by
  have hParts := congrArg (fun name => Go.split name '_') hEnv
  unfold Connection.ref at hParts
  by_cases hRole : values.clusterType = "csc"
  · have hString :=
      isString_of_csc hStrings hRole hFirst
    have hOther := isString_of_csc hStrings hRole hSecond
    simp only [if_pos hRole] at hParts
    rw [split_cscRef_env hAccepted hFirst hString,
      split_cscRef_env hAccepted hSecond hOther] at hParts
    simp only [Connection.cscParts, List.cons.injEq, true_and]
      at hParts
    have hTails := List.append_inj' hParts rfl
    apply connection_eq
    · apply cpcId_eq_of_toText hAccepted hRole hFirst hSecond
      rw [← Scalar.printfText_eq_toText_of_isString hString,
        ← Scalar.printfText_eq_toText_of_isString hOther]
      simpa using hTails.2
    · exact account_eq_of_map hAccepted.distinctEnvNames
        hFirst hSecond
        (GenerateNkeys.option_eq_of_toList_eq hTails.1)
  · simp only [if_neg hRole] at hParts
    rw [split_cpcRef_env hAccepted hFirst,
      split_cpcRef_env hAccepted hSecond] at hParts
    simp only [Connection.cpcParts, List.cons.injEq, true_and]
      at hParts
    have hTails := List.append_inj' hParts rfl
    apply connection_eq
    · rw [cpcId_eq_of_cpc hRole hFirst,
        cpcId_eq_of_cpc hRole hSecond]
    · exact account_eq_of_map hAccepted.distinctEnvNames
        hFirst hSecond
        (GenerateNkeys.option_eq_of_toList_eq hTails.1)

/- No fixed variable begins like one of a leaf. -/
theorem not_leaf_of_fixed
    {name : String}
    (hMem : name ∈ fixedEnvNames) :
    (Go.split name '_').take 2 ≠ ["NKEY", "LEAF"] ∧
      (Go.split name '_').head? ≠ some "LEAF" := by
  have hAll :
      fixedEnvNames.all (fun name =>
        (Go.split name '_').take 2 ≠ ["NKEY", "LEAF"] ∧
          (Go.split name '_').head? ≠ some "LEAF") = true := by
    decide +kernel
  simpa using List.all_eq_true.mp hAll name hMem

theorem apartFromFixed
    (hAccepted : Accepted values)
    (hStrings :
      values.clusterType = "csc" →
        ∀ cpcId ∈ values.cpcIds, cpcId.IsString)
    {connection : Connection}
    (hMem : connection ∈ values.connections) :
    ApartFromFixed (connection.ref values) := by
  rcases exists_isLeaf hAccepted hMem with ⟨leaf, hLeaf⟩
  unfold Connection.ref
  by_cases hRole : values.clusterType = "csc"
  · have hString := isString_of_csc hStrings hRole hMem
    rw [if_pos hRole]
    constructor
    · intro fixed hFixed
      rcases exists_baseFile_of_fixed hFixed with
        ⟨file, hFile, hName, _⟩
      rw [cscSecret_eq hLeaf hString, ← hName]
      exact GenerateNkeys.cscSecret_ne_base leaf hFile
    · intro hIn
      apply (not_leaf_of_fixed hIn).1
      rw [split_cscRef_env hAccepted hMem hString]
      rfl
  · rw [if_neg hRole]
    constructor
    · intro fixed hFixed
      rcases exists_baseFile_of_fixed hFixed with
        ⟨file, hFile, hName, _⟩
      rw [cpcSecret_eq hLeaf, ← hName]
      exact GenerateNkeys.cpcSecret_ne_base leaf hFile
    · intro hIn
      apply (not_leaf_of_fixed hIn).2
      rw [split_cpcRef_env hAccepted hMem]
      rfl

end EventBus

------------------------------------------------------------
-- References And Files
------------------------------------------------------------

namespace EventBus

open GenerateNkeys (Request Tree HasHalf secretFile Works
  Honest run start parseArgs)

/-
  An entry for a reference: when it is not replaced it names
  the default secret, and the tree has that secret.
-/
structure TakenFrom
    (values : Values)
    (tree : Tree)
    (ref : EnvRef)
    (entry : EnvVar) : Prop where
  name : entry.name = ref.env
  value :
    override values ref.secretName ref.key = none →
      entry.value = .secretKeyRef ref.secretName ref.key
  file :
    HasHalf tree
      (secretFile values.cluster ref.secretName ref.key)

/- The references of the auth-callout, or of a NATS container. -/
def IsEnvironment
    (values : Values)
    (refs : List EnvRef) : Prop :=
  refs = authCalloutEnvRefs values ∨
    ∃ includeMtlsLeafSeeds includeCpcLeafSeeds,
      refs =
        natsEventBusEnvRefs values includeMtlsLeafSeeds
          includeCpcLeafSeeds

variable {values : Values}
variable {request : Request}
variable {tree : Tree}

theorem mem_of_mem_authCalloutEnvRefs
    {ref : EnvRef}
    (hMem : ref ∈ authCalloutEnvRefs values) :
    ref ∈ allFixedEnvRefs ∨
      ∃ connection ∈ values.connections,
        ref = connection.ref values := by
  unfold authCalloutEnvRefs at hMem
  rcases List.mem_append.mp hMem with hFixed | hLeaf
  · exact Or.inl
      (List.mem_append_left _ (mem_of_mem_fixedEnvRefs hFixed))
  · by_cases hRole : values.clusterType = "csc"
    · rw [if_pos hRole, cscLeafEnvRefs_eq hRole] at hLeaf
      rcases List.mem_map.mp hLeaf with
        ⟨connection, hConnection, hEq⟩
      exact Or.inr ⟨connection, hConnection, hEq.symm⟩
    · simp [hRole] at hLeaf

theorem mem_of_mem_natsEventBusEnvRefs
    {includeMtlsLeafSeeds includeCpcLeafSeeds : Bool}
    {ref : EnvRef}
    (hMem :
      ref ∈ natsEventBusEnvRefs values includeMtlsLeafSeeds
        includeCpcLeafSeeds) :
    ref ∈ allFixedEnvRefs ∨
      ∃ connection ∈ values.connections,
        ref = connection.ref values := by
  unfold natsEventBusEnvRefs at hMem
  rcases List.mem_append.mp hMem with hFixed | hLeaf
  · apply Or.inl
    apply List.mem_append_right
    unfold natsFixedEnvRefs
    cases includeMtlsLeafSeeds with
    | true => simpa using hFixed
    | false =>
        have hFirst := List.mem_append.mp hFixed
        simp only [Bool.false_eq_true, if_false,
          List.not_mem_nil, or_false] at hFirst
        exact List.mem_append_left
          [⟨"MTLS_LEAF_USER_SEED", "nats-mtls-leaf", "seed"⟩,
            ⟨"AUTHX_LEAF_USER_SEED",
              "nats-mtls-authx-leaf", "seed"⟩,
            ⟨"MTLS_SYS_LEAF_USER_SEED",
              "nats-mtls-sys-leaf", "seed"⟩] hFirst
  · by_cases hIncluded :
        includeCpcLeafSeeds = true ∧ values.clusterType = "cpc"
    · rw [if_pos hIncluded, cpcLeafEnvRefs_eq hIncluded.2]
        at hLeaf
      rcases List.mem_map.mp hLeaf with
        ⟨connection, hConnection, hEq⟩
      exact Or.inr ⟨connection, hConnection, hEq.symm⟩
    · rw [if_neg hIncluded] at hLeaf
      simp at hLeaf

theorem cluster_mem_clusters
    (hServes : Serves values request) :
    values.cluster ∈ request.clusters := by
  unfold Values.cluster Request.clusters
  by_cases hRole : values.clusterType = "csc"
  · rw [if_pos hRole]
    exact List.mem_cons_self
  · rw [if_neg hRole]
    have hSelf : values.clusterId ∈ values.leafIds := by
      simp [Values.leafIds, hRole]
    rcases hServes.cpcIds values.clusterId hSelf with
      ⟨cpcId, hRequested, hVal⟩
    apply List.mem_cons_of_mem
    exact List.mem_map.mpr ⟨cpcId, hRequested, by rw [hVal]⟩

theorem hasHalf_of_usable
    {path : GenerateNkeys.Path}
    {begin : String}
    (hUsable : GenerateNkeys.Usable tree path begin) :
    HasHalf tree path := by
  rcases hUsable with ⟨content, hFile, hSome, _⟩
  exact ⟨content, hFile, hSome⟩

/- A complete tree has what a connection refers to. -/
theorem hasHalf_of_connection
    (hAccepted : Accepted values)
    (hStrings :
      values.clusterType = "csc" →
        ∀ cpcId ∈ values.cpcIds, cpcId.IsString)
    (hServes : Serves values request)
    (hComplete : GenerateNkeys.Complete request tree)
    {connection : Connection}
    (hMem : connection ∈ values.connections) :
    HasHalf tree
      (secretFile values.cluster
        (connection.ref values).secretName
        (connection.ref values).key) := by
  rcases exists_leaf hAccepted hServes hMem with
    ⟨leaf, hRequested, hLeaf⟩
  have hBoth := hComplete.2 leaf hRequested
  unfold Connection.ref Values.cluster
  by_cases hRole : values.clusterType = "csc"
  · have hKey : connection.cscRef.key = "pubkey" := by
      rcases connection with ⟨cpcId, account⟩
      cases account with
      | none => rfl
      | some accountName => rfl
    simp only [if_pos hRole]
    rw [cscSecret_eq hLeaf (isString_of_csc hStrings hRole hMem),
      hKey]
    exact hasHalf_of_usable hBoth.1
  · have hKey : connection.cpcRef.key = "seed" := by
      rcases connection with ⟨cpcId, account⟩
      cases account with
      | none => rfl
      | some accountName => rfl
    simp only [if_neg hRole]
    rw [cpcSecret_eq hLeaf, hKey,
      ← cpcId_eq_of_cpc hRole hMem, ← hLeaf.cpcId]
    exact hasHalf_of_usable hBoth.2

theorem hasHalf_of_fixed
    (hServes : Serves values request)
    (hComplete : GenerateNkeys.Complete request tree)
    {ref : EnvRef}
    (hFixed : ref ∈ allFixedEnvRefs) :
    HasHalf tree
      (secretFile values.cluster ref.secretName ref.key) := by
  rcases exists_baseFile_of_fixed hFixed with
    ⟨file, hFile, hName, hKey⟩
  have hUsable :=
    hComplete.1 values.cluster (cluster_mem_clusters hServes)
      file hFile
  rw [← hName, ← hKey]
  exact hasHalf_of_usable hUsable

theorem hasHalf_of_environment
    (hAccepted : Accepted values)
    (hStrings :
      values.clusterType = "csc" →
        ∀ cpcId ∈ values.cpcIds, cpcId.IsString)
    (hServes : Serves values request)
    (hComplete : GenerateNkeys.Complete request tree)
    {refs : List EnvRef}
    (hRefs : IsEnvironment values refs)
    {ref : EnvRef}
    (hMem : ref ∈ refs) :
    HasHalf tree
      (secretFile values.cluster ref.secretName ref.key) := by
  have hEither :
      ref ∈ allFixedEnvRefs ∨
        ∃ connection ∈ values.connections,
          ref = connection.ref values := by
    rcases hRefs with hAuth | hNats
    · rw [hAuth] at hMem
      exact mem_of_mem_authCalloutEnvRefs hMem
    · rcases hNats with ⟨mtls, cpc, hEq⟩
      rw [hEq] at hMem
      exact mem_of_mem_natsEventBusEnvRefs hMem
  rcases hEither with hFixed | hLeaf
  · exact hasHalf_of_fixed hServes hComplete hFixed
  · rcases hLeaf with ⟨connection, hConnection, hEq⟩
    rw [hEq]
    exact hasHalf_of_connection hAccepted hStrings hServes
      hComplete hConnection

/- The entries follow the references. -/
theorem takenFrom_renderEnv
    {refs : List EnvRef}
    (hFiles :
      ∀ ref ∈ refs,
        HasHalf tree
          (secretFile values.cluster ref.secretName ref.key))
    {rendered : List EnvVar}
    (hRendered : renderEnv values refs = .ok rendered) :
    List.Forall₂ (TakenFrom values tree) refs rendered := by
  induction refs generalizing rendered with
  | nil =>
      have hNil : rendered = [] := by
        simpa [renderEnv] using hRendered.symm
      rw [hNil]
      exact List.Forall₂.nil
  | cons ref rest ih =>
      rcases renderEnv_cons hRendered with
        ⟨value, entries, hValue, hRest, hEq⟩
      rw [hEq]
      apply List.Forall₂.cons
      · constructor
        · rfl
        · intro hKept
          rw [nkeySecretEnvValue_ok hValue, hKept]
          rfl
        · exact hFiles ref List.mem_cons_self
      · apply ih _ hRest
        intro other hMem
        exact hFiles other (List.mem_cons_of_mem _ hMem)

/-
  The generator accepts the ids and accounts of accepted
  values, its run makes every secret that the environments of
  the cluster name by default, and no two leaf connections
  share a name with each other or with anything fixed.
-/
theorem generator_agrees
    (hOk : validation values = .ok ())
    (hStrings :
      values.clusterType = "csc" →
        ∀ cpcId ∈ values.cpcIds, cpcId.IsString) :
    (∀ defaultRoot outputRoot,
      ∃ request,
        parseArgs defaultRoot outputRoot [] []
            values.generatorArgs =
          .run
            (if outputRoot = "" then defaultRoot
            else outputRoot)
            request ∧
        request.cpcIds.map Subtype.val =
          values.ids.map Scalar.toText ∧
        request.extraAccounts.map Subtype.val =
          values.enabledAccounts ∧
        Serves values request) ∧
    (∀ request publicKey outputRoot env,
      Serves values request →
        outputRoot ≠ "" ∧ outputRoot ≠ "/" →
          Works env →
            Honest publicKey env →
              let last :=
                run publicKey outputRoot request env
                  (start (fun _ => none) [])
              last.1 = .done () ∧
                ∀ refs rendered,
                  IsEnvironment values refs →
                    renderEnv values refs = .ok rendered →
                      List.Forall₂
                        (TakenFrom values last.2.world.tree)
                        refs rendered) ∧
    ∀ connection ∈ values.connections,
      ApartFromFixed (connection.ref values) ∧
        ∀ other ∈ values.connections,
          connection ≠ other →
            (connection.ref values).secretName ≠
                (other.ref values).secretName ∧
              (connection.ref values).env ≠
                (other.ref values).env := by
  have hAccepted := (validation_ok_iff_accepted values).mp hOk
  refine ⟨?_, ?_, ?_⟩
  · intro defaultRoot outputRoot
    rcases parseArgs_generatorArgs hAccepted defaultRoot
        outputRoot with
      ⟨request, hParse, hCpcIds, hAccounts⟩
    exact ⟨request, hParse, hCpcIds, hAccounts,
      serves_of_eq hAccepted hCpcIds hAccounts⟩
  · intro request publicKey outputRoot env hServes hRoot
      hWorks hHonest last
    have hRun :=
      GenerateNkeys.complete_of_works request outputRoot hRoot
        hHonest hWorks
    refine ⟨hRun.1, ?_⟩
    intro refs rendered hRefs hRendered
    apply takenFrom_renderEnv _ hRendered
    intro ref hMem
    exact hasHalf_of_environment hAccepted hStrings hServes
      hRun.2 hRefs hMem
  · intro connection hMem
    refine ⟨apartFromFixed hAccepted hStrings hMem, ?_⟩
    intro other hOther hDifferent
    constructor
    · intro hSame
      exact hDifferent
        (eq_of_secretName_eq hAccepted hStrings hMem hOther
          hSame)
    · intro hSame
      exact hDifferent
        (eq_of_env_eq hAccepted hStrings hMem hOther hSame)

theorem generator_agrees_cscValues :
    let values := cscValues [.string "1", .string "dc2"]
    ∃ request rendered,
      parseArgs "secrets" "" [] []
          ["--extra-account", "LaunchLayer", "1", "dc2"] =
        .run "secrets" request ∧
      renderEnv values (authCalloutEnvRefs values) =
        .ok rendered ∧
      List.Forall₂
        (TakenFrom values
          (run GenerateNkeys.sampleKey "secrets" request
            (GenerateNkeys.sampleEnv none [])
            (start (fun _ => none) [])).2.world.tree)
        (authCalloutEnvRefs values) rendered := by
  intro values
  have hAgrees :=
    @generator_agrees values (by decide +kernel) (by decide)
  rcases hAgrees.1 "secrets" "" with
    ⟨request, hParse, _, _, hServes⟩
  refine ⟨request, _, hParse, rfl, ?_⟩
  have hRun :=
    hAgrees.2.1 request GenerateNkeys.sampleKey "secrets"
      (GenerateNkeys.sampleEnv none []) hServes (by decide)
      GenerateNkeys.works_sampleEnv
      (GenerateNkeys.honest_sampleEnv none [])
  exact hRun.2 _ _ (Or.inl rfl) rfl

end EventBus
