import DsxExchange.EventBus.Validation

/-
  The environment variables that take their values from the
  secrets of the event bus.

  Key definitions include:
    * `EventBus.EnvRef`, `EventBus.nkeySecretEnvValue`
    * `EventBus.authCalloutEnvRefs`,
      `EventBus.natsEventBusEnvRefs`
    * `EventBus.authCalloutEnv`

  Key theorems include:
    * `EventBus.nodup_authCalloutEnvRefs`
    * `EventBus.nkeySecretEnvValue_ok`
    * `EventBus.filter_authCalloutEnv`
-/

------------------------------------------------------------
-- References To Secrets
------------------------------------------------------------

namespace EventBus

/- A variable with the secret and the key it is taken from. -/
structure EnvRef where
  env : String
  secretName : String
  key : String
deriving DecidableEq, Repr

/- One entry of the environment of a container. -/
structure EnvVar where
  name : String
  value : ValueTree
deriving DecidableEq, Repr

/- The replacement of a secret reference, if there is one. -/
def override
    (values : Values)
    (secretName key : String) : Option ValueTree := do
  let overrides ← values.nkeySecretRefOverrides
  let secretOverrides ← overrides.lookup secretName
  let byKey ← secretOverrides
  byKey.lookup key

def nkeySecretEnvValue
    (values : Values)
    (ref : EnvRef) : Except String ValueTree :=
  let default := ValueTree.secretKeyRef ref.secretName ref.key
  if ref.secretName = "" then
    .error "nkey secretName is required"
  else if ref.key = "" then
    .error "nkey key is required"
  else
    match values.nkeySecretRefOverrides with
    | none =>
        .error ("global.eventBus.nkeySecretRefOverrides " ++
          "must be a map keyed by default secret name and " ++
          "key.")
    | some overrides =>
        match overrides.lookup ref.secretName with
        | none => .ok default
        | some none =>
            .error ("global.eventBus.nkeySecretRefOverrides." ++
              ref.secretName ++
              " must be a map keyed by default secret key.")
        | some (some secretOverrides) =>
            .ok ((secretOverrides.lookup ref.key).getD default)

def nkeySecretEnv
    (values : Values)
    (ref : EnvRef) : Except String EnvVar := do
  let value ← nkeySecretEnvValue values ref
  return { name := ref.env, value := value }

/- A rendered value is the default or its replacement. -/
theorem nkeySecretEnvValue_ok
    {values : Values}
    {ref : EnvRef}
    {value : ValueTree}
    (hValue : nkeySecretEnvValue values ref = .ok value) :
    value =
      (override values ref.secretName ref.key).getD
        (.secretKeyRef ref.secretName ref.key) := by
  unfold nkeySecretEnvValue at hValue
  by_cases hName : ref.secretName = ""
  · simp [hName] at hValue
  · by_cases hKey : ref.key = ""
    · simp [hName, hKey] at hValue
    · simp only [hName, hKey, if_false] at hValue
      cases hOverrides : values.nkeySecretRefOverrides with
      | none => simp [hOverrides] at hValue
      | some overrides =>
          cases hSecret : overrides.lookup ref.secretName with
          | none =>
              simpa [override, hOverrides, hSecret]
                using hValue.symm
          | some entry =>
              cases entry with
              | none => simp [hOverrides, hSecret] at hValue
              | some byKey =>
                  simpa [override, hOverrides, hSecret]
                    using hValue.symm

end EventBus

------------------------------------------------------------
-- The Rendered Environments
------------------------------------------------------------

namespace EventBus

def leafEnvRef (cpcId : Scalar) : EnvRef :=
  { env := "NKEY_LEAF_CPC_" ++ cpcId.printfText ++ "_PUBKEY"
    secretName := "nats-leaf-cpc-" ++ cpcId.printfText
    key := "pubkey" }

def accountLeafEnvRef
    (cpcId : Scalar)
    (accountName : String) : EnvRef :=
  { env :=
      "NKEY_LEAF_" ++ extraAccountEnvName accountName ++
        "_CPC_" ++ cpcId.printfText ++ "_PUBKEY"
    secretName :=
      "nats-leaf-" ++ extraAccountSecretName accountName ++
        "-cpc-" ++ cpcId.printfText
    key := "pubkey" }

/- The list `generatedEnvRefs`. -/
def generatedEnvRefs : List EnvRef :=
  [⟨"AUTH_CALLOUT_NATS_NKEY_SEED",
      "auth-callout-keys", "nkey-seed"⟩,
    ⟨"AUTH_CALLOUT_NATS_ISSUER_SEED",
      "auth-callout-keys", "issuer-seed"⟩,
    ⟨"AUTH_CALLOUT_NATS_XKEY_SEED",
      "auth-callout-keys", "xkey-seed"⟩,
    ⟨"NKEY_NACK_USER_PUBKEY", "nats-nack-user", "pubkey"⟩,
    ⟨"NKEY_SURVEYOR_PUBKEY", "nats-surveyor", "pubkey"⟩]

def mtlsEnvRefs : List EnvRef :=
  [⟨"NKEY_MTLS_LEAF_PUBKEY", "nats-mtls-leaf", "pubkey"⟩,
    ⟨"NKEY_MTLS_AUTHX_LEAF_PUBKEY",
      "nats-mtls-authx-leaf", "pubkey"⟩,
    ⟨"NKEY_MTLS_SYS_LEAF_PUBKEY",
      "nats-mtls-sys-leaf", "pubkey"⟩]

/- The leaves that a CSC cluster lets in, one CPC at a time. -/
def cscLeafEnvRefs (values : Values) : List EnvRef :=
  values.cpcIds.flatMap (fun cpcId =>
    leafEnvRef cpcId ::
      values.enabledAccounts.map (accountLeafEnvRef cpcId))

/- The variables that do not depend on the leaves. -/
def fixedEnvRefs (values : Values) : List EnvRef :=
  generatedEnvRefs ++
    (if values.mtlsEnabled then mtlsEnvRefs else [])

/- What `authCalloutEventBusEnv` refers to. -/
def authCalloutEnvRefs (values : Values) : List EnvRef :=
  fixedEnvRefs values ++
    (if values.clusterType = "csc" then
      cscLeafEnvRefs values
    else [])

/- What `natsEventBusEnv` refers to. -/
def natsEventBusEnvRefs
    (values : Values)
    (includeMtlsLeafSeeds includeCpcLeafSeeds : Bool) :
    List EnvRef :=
  [⟨"AUTHX_USER_NKEY", "nats-authx-user", "pubkey"⟩,
    ⟨"AUTH_SIGNING_KEY", "nats-auth-signing", "pubkey"⟩,
    ⟨"XKEY_PUBKEY", "nats-xkey", "pubkey"⟩] ++
    (if includeMtlsLeafSeeds then
      [⟨"MTLS_LEAF_USER_SEED", "nats-mtls-leaf", "seed"⟩,
        ⟨"AUTHX_LEAF_USER_SEED",
          "nats-mtls-authx-leaf", "seed"⟩,
        ⟨"MTLS_SYS_LEAF_USER_SEED",
          "nats-mtls-sys-leaf", "seed"⟩]
    else []) ++
    (if includeCpcLeafSeeds ∧ values.clusterType = "cpc" then
      ⟨"LEAF_USER_SEED", "nats-leaf-csc", "seed"⟩ ::
        values.enabledAccounts.map (fun accountName =>
          { env :=
              "LEAF_" ++ extraAccountEnvName accountName ++
                "_USER_SEED"
            secretName :=
              "nats-leaf-" ++
                extraAccountSecretName accountName ++ "-csc"
            key := "seed" })
    else [])

/- The template, with the entries in their order. -/
def renderEnv
    (values : Values) :
    List EnvRef → Except String (List EnvVar)
| [] => .ok []
| ref :: rest => do
    let entry ← nkeySecretEnv values ref
    let entries ← renderEnv values rest
    return entry :: entries

/- The settings of the deployment besides the event bus. -/
structure Deployment where
  releaseName : String
  servicePort : String
  vaultEnabled : Bool
  hotConfigInterval : String

def deploymentEnv (deployment : Deployment) : List EnvVar :=
  [⟨"AUTH_CALLOUT_SERVICE_NAME", .text deployment.releaseName⟩,
    ⟨"AUTH_CALLOUT_SERVICE_SERVER_PORT",
      .text deployment.servicePort⟩,
    ⟨"POD_NAME", .fieldRef "metadata.name"⟩,
    ⟨"POD_NAMESPACE", .fieldRef "metadata.namespace"⟩,
    ⟨"NODE_NAME", .fieldRef "spec.nodeName"⟩] ++
    (if deployment.vaultEnabled then
      [⟨"AUTH_CALLOUT_HOT_CONFIG",
          .text "/vault/secrets/config-secrets.yaml"⟩,
        ⟨"AUTH_CALLOUT_HOT_CONFIG_INTERVAL",
          .text deployment.hotConfigInterval⟩]
    else [])

def mtlsCaEnv (values : Values) : List EnvVar :=
  if values.mtlsEnabled then
    [⟨"AUTH_CALLOUT_MTLS_CA_PATH", .text "/etc/mtls-ca/ca.crt"⟩]
  else []

/- The environment of the auth-callout container. -/
def authCalloutEnv
    (deployment : Deployment)
    (values : Values) : Except String (List EnvVar) := do
  let eventBusEnv ← renderEnv values (authCalloutEnvRefs values)
  return deploymentEnv deployment ++ eventBusEnv ++
    mtlsCaEnv values ++
    values.authCalloutExtraEnvs.entries.map
      (fun entry => { name := entry.1, value := entry.2 })

end EventBus

------------------------------------------------------------
-- The Parts Of The Names
------------------------------------------------------------

namespace EventBus

theorem split_leafEnv
    {cpcId : String}
    (hId : '_' ∉ cpcId.toList) :
    Go.split ("NKEY_LEAF_CPC_" ++ cpcId ++ "_PUBKEY") '_' =
      ["NKEY", "LEAF", "CPC", cpcId, "PUBKEY"] := by
  have hJoin :
      "NKEY_LEAF_CPC_" ++ cpcId ++ "_PUBKEY" =
        Go.join ["NKEY", "LEAF", "CPC", cpcId, "PUBKEY"]
          '_' := by
    apply String.toList_inj.mp
    simp [Go.join, List.intercalate, List.intersperse]
  rw [hJoin]
  exact Go.split_join (by simp) (by simp [hId])

theorem split_accountLeafEnv
    {account cpcId : String}
    (hAccount : '_' ∉ account.toList)
    (hId : '_' ∉ cpcId.toList) :
    Go.split ("NKEY_LEAF_" ++ account ++ "_CPC_" ++ cpcId ++
        "_PUBKEY") '_' =
      ["NKEY", "LEAF", account, "CPC", cpcId, "PUBKEY"] := by
  have hJoin :
      "NKEY_LEAF_" ++ account ++ "_CPC_" ++ cpcId ++
          "_PUBKEY" =
        Go.join
          ["NKEY", "LEAF", account, "CPC", cpcId, "PUBKEY"]
          '_' := by
    apply String.toList_inj.mp
    simp [Go.join, List.intercalate, List.intersperse]
  rw [hJoin]
  exact Go.split_join (by simp) (by simp [hAccount, hId])

end EventBus

------------------------------------------------------------
-- Distinct Names
------------------------------------------------------------

namespace EventBus

variable {values : Values}

/- The text of an accepted id that is a string. -/
theorem isLowerToken_printfText
    {cpcId : Scalar}
    (hString : cpcId.IsString)
    (hId : isCpcId cpcId.toText = true) :
    IsLowerToken cpcId.printfText := by
  rw [Scalar.printfText_eq_toText_of_isString hString]
  exact isLowerToken_of_isCpcId hId

theorem isUpperToken_envName
    {accountName : String}
    (hAccount : AcceptedAccount accountName) :
    IsUpperToken (extraAccountEnvName accountName) := by
  rw [extraAccountEnvName_of_isAccountName hAccount.form]
  exact isUpperToken_upper hAccount.form

theorem isLowerToken_secretName
    {accountName : String}
    (hAccount : AcceptedAccount accountName) :
    IsLowerToken (extraAccountSecretName accountName) := by
  rw [extraAccountSecretName_of_isAccountName hAccount.form]
  exact isLowerToken_lower hAccount.form

/- The variables that one CPC has on a CSC cluster. -/
def leafEnvNames
    (values : Values)
    (cpcId : Scalar) : List String :=
  (leafEnvRef cpcId ::
    values.enabledAccounts.map (accountLeafEnvRef cpcId)).map
      EnvRef.env

/- The parts of such a name end with the id. -/
theorem split_of_mem_leafEnvNames
    (hAccepted : Accepted values)
    {cpcId : Scalar}
    (hMem : cpcId ∈ values.cpcIds)
    (hString : cpcId.IsString)
    {name : String}
    (hName : name ∈ leafEnvNames values cpcId) :
    ∃ middle,
      Go.split name '_' =
        "NKEY" :: "LEAF" :: (middle ++
          ["CPC", cpcId.printfText, "PUBKEY"]) := by
  have hToken :=
    isLowerToken_printfText hString
      (hAccepted.cpcIds cpcId hMem)
  have hId : '_' ∉ cpcId.printfText.toList :=
    hToken.not_mem (by decide)
  rcases List.mem_map.mp hName with ⟨ref, hRef, hEnv⟩
  rw [← hEnv]
  rcases List.mem_cons.mp hRef with hLeaf | hAccount
  · rw [hLeaf]
    exact ⟨[], split_leafEnv hId⟩
  · rcases List.mem_map.mp hAccount with
      ⟨accountName, hEnabled, hEq⟩
    rw [← hEq]
    have hUpper :=
      isUpperToken_envName
        (hAccepted.accounts accountName hEnabled)
    exact ⟨[extraAccountEnvName accountName],
      split_accountLeafEnv (hUpper.not_mem (by decide)) hId⟩

theorem nodup_leafEnvNames
    (hAccepted : Accepted values)
    {cpcId : Scalar}
    (hMem : cpcId ∈ values.cpcIds)
    (hString : cpcId.IsString) :
    (leafEnvNames values cpcId).Nodup := by
  have hToken :=
    isLowerToken_printfText hString
      (hAccepted.cpcIds cpcId hMem)
  have hId : '_' ∉ cpcId.printfText.toList :=
    hToken.not_mem (by decide)
  have hAccount :
      ∀ accountName ∈ values.enabledAccounts,
        Go.split (accountLeafEnvRef cpcId accountName).env
            '_' =
          ["NKEY", "LEAF", extraAccountEnvName accountName,
            "CPC", cpcId.printfText, "PUBKEY"] := by
    intro accountName hEnabled
    have hUpper :=
      isUpperToken_envName
        (hAccepted.accounts accountName hEnabled)
    exact split_accountLeafEnv (hUpper.not_mem (by decide)) hId
  unfold leafEnvNames
  rw [List.map_cons, List.nodup_cons, List.map_map]
  constructor
  · intro hSame
    rcases List.mem_map.mp hSame with
      ⟨accountName, hEnabled, hEq⟩
    have hSplit := congrArg (fun name => Go.split name '_') hEq
    dsimp only [Function.comp_apply] at hSplit
    rw [hAccount accountName hEnabled] at hSplit
    have hLeaf := split_leafEnv hId
    rw [leafEnvRef, hLeaf] at hSplit
    simp at hSplit
  · apply List.Nodup.map_on _ values.nodup_enabledAccounts
    intro first hFirst second hSecond hEq
    have hSplit := congrArg (fun name => Go.split name '_') hEq
    dsimp only [Function.comp_apply] at hSplit
    rw [hAccount first hFirst, hAccount second hSecond]
      at hSplit
    have hTokens :
        extraAccountEnvName first =
          extraAccountEnvName second := by
      simpa using hSplit
    exact List.inj_on_of_nodup_map
      hAccepted.distinctEnvNames hFirst hSecond hTokens

/- Two CPCs have no variable in common. -/
theorem disjoint_leafEnvNames
    (hAccepted : Accepted values)
    (hStrings : ∀ cpcId ∈ values.cpcIds, cpcId.IsString)
    {first second : Scalar}
    (hFirst : first ∈ values.cpcIds)
    (hSecond : second ∈ values.cpcIds)
    (hDifferent : first.toText ≠ second.toText) :
    (leafEnvNames values first).Disjoint
      (leafEnvNames values second) := by
  intro name hInFirst hInSecond
  rcases split_of_mem_leafEnvNames hAccepted hFirst
      (hStrings first hFirst) hInFirst with
    ⟨left, hLeft⟩
  rcases split_of_mem_leafEnvNames hAccepted hSecond
      (hStrings second hSecond) hInSecond with
    ⟨right, hRight⟩
  rw [hLeft] at hRight
  have hTails :
      left ++ ["CPC", first.printfText, "PUBKEY"] =
        right ++ ["CPC", second.printfText, "PUBKEY"] := by
    simpa using hRight
  have hIds := (List.append_inj' hTails rfl).2
  apply hDifferent
  rw [← Scalar.printfText_eq_toText_of_isString
      (hStrings first hFirst),
    ← Scalar.printfText_eq_toText_of_isString
      (hStrings second hSecond)]
  simpa using hIds

theorem map_env_cscLeafEnvRefs (values : Values) :
    (cscLeafEnvRefs values).map EnvRef.env =
      values.cpcIds.flatMap (leafEnvNames values) := by
  rw [cscLeafEnvRefs, List.map_flatMap]
  rfl

theorem nodup_cscLeafEnvRefs
    (hAccepted : Accepted values)
    (hStrings : ∀ cpcId ∈ values.cpcIds, cpcId.IsString) :
    ((cscLeafEnvRefs values).map EnvRef.env).Nodup := by
  rw [map_env_cscLeafEnvRefs, List.nodup_flatMap]
  constructor
  · intro cpcId hMem
    exact nodup_leafEnvNames hAccepted hMem
      (hStrings cpcId hMem)
  · have hPairs :
        values.cpcIds.Pairwise
          (fun first second =>
            first.toText ≠ second.toText) :=
      List.pairwise_map.mp hAccepted.distinctCpcIds
    apply hPairs.imp_of_mem
    intro first second hFirst hSecond hDifferent
    exact disjoint_leafEnvNames hAccepted hStrings hFirst
      hSecond hDifferent

theorem mem_of_mem_fixedEnvRefs
    {ref : EnvRef}
    (hMem : ref ∈ fixedEnvRefs values) :
    ref ∈ generatedEnvRefs ++ mtlsEnvRefs := by
  unfold fixedEnvRefs at hMem
  cases hMtls : values.mtlsEnabled with
  | true => simpa [hMtls] using hMem
  | false =>
      have hFixed : ref ∈ generatedEnvRefs := by
        simpa [hMtls] using hMem
      exact List.mem_append_left _ hFixed

theorem nodup_fixedEnvRefs (values : Values) :
    ((fixedEnvRefs values).map EnvRef.env).Nodup := by
  unfold fixedEnvRefs
  cases values.mtlsEnabled with
  | true => decide
  | false => decide

/- No variable is set twice by the event bus. -/
theorem nodup_authCalloutEnvRefs
    (hAccepted : Accepted values)
    (hStrings :
      values.clusterType = "csc" →
        ∀ cpcId ∈ values.cpcIds, cpcId.IsString) :
    ((authCalloutEnvRefs values).map EnvRef.env).Nodup := by
  have hFixed := nodup_fixedEnvRefs values
  by_cases hRole : values.clusterType = "csc"
  · have hLeaves :=
      nodup_cscLeafEnvRefs hAccepted (hStrings hRole)
    have hApart :
        ((fixedEnvRefs values).map EnvRef.env).Disjoint
          ((cscLeafEnvRefs values).map EnvRef.env) := by
      intro name hInFixed hInLeaves
      rw [map_env_cscLeafEnvRefs] at hInLeaves
      rcases List.mem_flatMap.mp hInLeaves with
        ⟨cpcId, hMem, hName⟩
      rcases split_of_mem_leafEnvNames hAccepted hMem
          (hStrings hRole cpcId hMem) hName with
        ⟨middle, hSplit⟩
      rcases List.mem_map.mp hInFixed with ⟨ref, hRef, hEnv⟩
      have hNoLeaf :
          ∀ ref ∈ generatedEnvRefs ++ mtlsEnvRefs,
            (Go.split ref.env '_')[1]? ≠ some "LEAF" := by
        decide
      apply hNoLeaf ref (mem_of_mem_fixedEnvRefs hRef)
      rw [hEnv, hSplit]
      rfl
    have hAll :=
      List.nodup_append'.mpr ⟨hFixed, hLeaves, hApart⟩
    simpa [authCalloutEnvRefs, hRole] using hAll
  · simpa [authCalloutEnvRefs, hRole] using hFixed

end EventBus

------------------------------------------------------------
-- One Entry For Each Reference
------------------------------------------------------------

namespace EventBus

variable {values : Values}

theorem renderEnv_cons
    {ref : EnvRef}
    {rest : List EnvRef}
    {env : List EnvVar}
    (hEnv : renderEnv values (ref :: rest) = .ok env) :
    ∃ value entries,
      nkeySecretEnvValue values ref = .ok value ∧
        renderEnv values rest = .ok entries ∧
          env = ⟨ref.env, value⟩ :: entries := by
  unfold renderEnv nkeySecretEnv at hEnv
  cases hValue : nkeySecretEnvValue values ref with
  | error message =>
      simp [hValue, bind, Except.bind] at hEnv
  | ok value =>
      cases hRest : renderEnv values rest with
      | error message =>
          simp [hValue, hRest, bind, Except.bind, pure,
            Except.pure] at hEnv
      | ok entries =>
          have hEq : env = ⟨ref.env, value⟩ :: entries := by
            simpa [hValue, hRest, bind, Except.bind, pure,
              Except.pure] using hEnv.symm
          exact ⟨value, entries, rfl, rfl, hEq⟩

theorem filter_renderEnv_of_not_mem
    {refs : List EnvRef}
    {env : List EnvVar}
    (hEnv : renderEnv values refs = .ok env)
    {name : String}
    (hAbsent : name ∉ refs.map EnvRef.env) :
    env.filter (fun entry => entry.name = name) = [] := by
  induction refs generalizing env with
  | nil =>
      have hNil : env = [] := by
        simpa [renderEnv] using hEnv.symm
      simp [hNil]
  | cons ref rest ih =>
      rcases renderEnv_cons hEnv with
        ⟨value, entries, _, hRest, hEq⟩
      rw [List.map_cons, List.mem_cons, not_or] at hAbsent
      rw [hEq, List.filter_cons_of_neg]
      · exact ih hRest hAbsent.2
      · simpa using Ne.symm hAbsent.1

/- A reference has one entry, with the rendered value. -/
theorem filter_renderEnv
    {refs : List EnvRef}
    {env : List EnvVar}
    (hEnv : renderEnv values refs = .ok env)
    (hNodup : (refs.map EnvRef.env).Nodup)
    {ref : EnvRef}
    (hMem : ref ∈ refs) :
    ∃ value,
      nkeySecretEnvValue values ref = .ok value ∧
        env.filter (fun entry => entry.name = ref.env) =
          [⟨ref.env, value⟩] := by
  induction refs generalizing env with
  | nil => simp at hMem
  | cons first rest ih =>
      rcases renderEnv_cons hEnv with
        ⟨value, entries, hValue, hRest, hEq⟩
      rw [List.map_cons, List.nodup_cons] at hNodup
      rcases List.mem_cons.mp hMem with hFirst | hLater
      · refine ⟨value, by rw [hFirst]; exact hValue, ?_⟩
        rw [hEq, hFirst, List.filter_cons_of_pos (by simp),
          filter_renderEnv_of_not_mem hRest hNodup.1]
      · rcases ih hRest hNodup.2 hLater with
          ⟨found, hFound, hFilter⟩
        refine ⟨found, hFound, ?_⟩
        have hOther : first.env ≠ ref.env := by
          intro hSame
          apply hNodup.1
          rw [hSame]
          exact List.mem_map_of_mem hLater
        rw [hEq, List.filter_cons_of_neg (by simpa using hOther)]
        exact hFilter

/- The variables of the event bus are the generated ones. -/
theorem mem_generatedAuthCalloutEnvNames
    {ref : EnvRef}
    (hMem : ref ∈ authCalloutEnvRefs values) :
    ref.env ∈ generatedAuthCalloutEnvNames values := by
  unfold authCalloutEnvRefs fixedEnvRefs at hMem
  unfold generatedAuthCalloutEnvNames
  rcases List.mem_append.mp hMem with hFixed | hLeaves
  · apply List.mem_append_left
    rcases List.mem_append.mp hFixed with hAlways | hMtls
    · exact List.mem_append_left _
        (List.mem_map_of_mem (f := EnvRef.env) hAlways)
    · apply List.mem_append_right
      cases hEnabled : values.mtlsEnabled with
      | true =>
          rw [hEnabled] at hMtls
          exact List.mem_map_of_mem (f := EnvRef.env) hMtls
      | false => simp [hEnabled] at hMtls
  · apply List.mem_append_right
    by_cases hRole : values.clusterType = "csc"
    · rw [if_pos hRole] at hLeaves ⊢
      rcases List.mem_flatMap.mp hLeaves with
        ⟨cpcId, hId, hRef⟩
      rcases List.mem_cons.mp hRef with hLeaf | hAccount
      · rw [hLeaf]
        exact List.mem_append_left _
          (List.mem_map.mpr ⟨cpcId, hId, rfl⟩)
      · rcases List.mem_map.mp hAccount with
          ⟨accountName, hEnabled, hEq⟩
        rw [← hEq]
        exact List.mem_append_right _
          (List.mem_flatMap.mpr ⟨accountName, hEnabled,
            List.mem_map.mpr ⟨cpcId, hId, rfl⟩⟩)
    · simp [hRole] at hLeaves

/- The other entries of the container have other names. -/
theorem filter_deploymentEnv
    (deployment : Deployment)
    {name : String}
    (hName : (Go.split name '_').head? = some "NKEY") :
    (deploymentEnv deployment).filter
      (fun entry => entry.name = name) = [] := by
  have hOthers :
      ∀ other ∈
        ["AUTH_CALLOUT_SERVICE_NAME",
          "AUTH_CALLOUT_SERVICE_SERVER_PORT", "POD_NAME",
          "POD_NAMESPACE", "NODE_NAME",
          "AUTH_CALLOUT_HOT_CONFIG",
          "AUTH_CALLOUT_HOT_CONFIG_INTERVAL"],
        (Go.split other '_').head? ≠ some "NKEY" := by
    decide
  rw [List.filter_eq_nil_iff]
  intro entry hMem hSame
  have hEq : entry.name = name := by simpa using hSame
  apply hOthers entry.name _ (by rw [hEq]; exact hName)
  have hNames :
      entry.name ∈ (deploymentEnv deployment).map EnvVar.name :=
    List.mem_map_of_mem hMem
  unfold deploymentEnv at hNames
  cases hVault : deployment.vaultEnabled with
  | true => simpa [hVault] using hNames
  | false =>
      simp only [hVault, Bool.false_eq_true, if_false,
        List.append_nil, List.map_cons, List.map_nil,
        List.mem_cons, List.not_mem_nil, or_false] at hNames
      simp only [List.mem_cons]
      tauto

theorem filter_mtlsCaEnv
    (values : Values)
    {name : String}
    (hName : (Go.split name '_').head? = some "NKEY") :
    (mtlsCaEnv values).filter
      (fun entry => entry.name = name) = [] := by
  have hOther :
      (Go.split "AUTH_CALLOUT_MTLS_CA_PATH" '_').head? ≠
        some "NKEY" := by
    decide
  rw [List.filter_eq_nil_iff]
  intro entry hMem hSame
  have hEq : entry.name = name := by simpa using hSame
  unfold mtlsCaEnv at hMem
  cases hMtls : values.mtlsEnabled with
  | true =>
      have hEntry : entry.name = "AUTH_CALLOUT_MTLS_CA_PATH" := by
        rw [hMtls] at hMem
        rw [List.mem_singleton.mp hMem]
      apply hOther
      rw [← hEntry, hEq]
      exact hName
  | false => simp [hMtls] at hMem

/-
  A reference of the event bus has exactly one entry in the
  environment of the container.
-/
theorem filter_authCalloutEnv
    (hAccepted : Accepted values)
    (hStrings :
      values.clusterType = "csc" →
        ∀ cpcId ∈ values.cpcIds, cpcId.IsString)
    {deployment : Deployment}
    {env : List EnvVar}
    (hEnv : authCalloutEnv deployment values = .ok env)
    {ref : EnvRef}
    (hMem : ref ∈ authCalloutEnvRefs values)
    (hName : (Go.split ref.env '_').head? = some "NKEY") :
    ∃ value,
      nkeySecretEnvValue values ref = .ok value ∧
        env.filter (fun entry => entry.name = ref.env) =
          [⟨ref.env, value⟩] := by
  unfold authCalloutEnv at hEnv
  cases hRendered :
      renderEnv values (authCalloutEnvRefs values) with
  | error message =>
      simp [hRendered, bind, Except.bind] at hEnv
  | ok eventBusEnv =>
      have hParts :
          env =
            deploymentEnv deployment ++ eventBusEnv ++
              mtlsCaEnv values ++
              values.authCalloutExtraEnvs.entries.map
                (fun entry => ⟨entry.1, entry.2⟩) := by
        simpa [hRendered, bind, Except.bind, pure,
          Except.pure] using hEnv.symm
      rcases filter_renderEnv hRendered
          (nodup_authCalloutEnvRefs hAccepted hStrings)
          hMem with
        ⟨value, hValue, hFilter⟩
      refine ⟨value, hValue, ?_⟩
      have hExtra :
          (values.authCalloutExtraEnvs.entries.map
            (fun entry =>
              (⟨entry.1, entry.2⟩ : EnvVar))).filter
              (fun entry => entry.name = ref.env) = [] := by
        rw [List.filter_eq_nil_iff]
        intro entry hEntry hSame
        rcases List.mem_map.mp hEntry with
          ⟨defined, hDefined, hEq⟩
        apply hAccepted.envNames ref.env
          (mem_generatedAuthCalloutEnvNames hMem)
        have hKey : defined.1 = ref.env := by
          rw [← hEq] at hSame
          simpa using hSame
        rw [← hKey, AList.mem_keys]
        exact List.mem_map_of_mem hDefined
      rw [hParts]
      simp only [List.filter_append,
        filter_deploymentEnv deployment hName, hFilter,
        filter_mtlsCaEnv values hName, hExtra,
        List.nil_append, List.append_nil]

end EventBus
