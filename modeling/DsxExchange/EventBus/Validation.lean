import DsxExchange.EventBus.Values
import DsxExchange.Go.Strings
import Mathlib.Data.List.Nodup
import Mathlib.Data.List.Sort

/-
  The template that checks the values before anything else is
  rendered, and what accepted values are.

  Key definitions include:
    * `EventBus.validation`
    * `EventBus.AcceptedAccount`, `EventBus.Accepted`

  Key theorems include:
    * `EventBus.validation_ok_iff_accepted`
-/

------------------------------------------------------------
-- The Checks
------------------------------------------------------------

namespace EventBus

def validateClusterType
    (values : Values) : Except String Unit :=
  if values.clusterType = "" then
    .error ("global.eventBus.clusterType is required and " ++
      "must be either csc or cpc.")
  else if
      ¬ (values.clusterType = "csc" ∨
        values.clusterType = "cpc") then
    .error ("global.eventBus.clusterType must be either " ++
      "csc or cpc, got " ++ Go.quote values.clusterType ++ ".")
  else
    .ok ()

def validateClusterIdentity
    (values : Values) : Except String Unit :=
  if values.clusterType = "cpc" then
    if values.clusterId.isMissing then
      .error ("global.eventBus.clusterId is required when " ++
        "global.eventBus.clusterType is cpc.")
    else if ¬ isCpcId values.clusterId.toText then
      .error ("global.eventBus.clusterId must use " ++
        "lower-case letters and numbers only, got " ++
        Go.quote values.clusterId.toText ++ ".")
    else if values.cscEndpoint = "" then
      .error ("global.eventBus.cscEndpoint is required when " ++
        "global.eventBus.clusterType is cpc.")
    else
      .ok ()
  else
    .ok ()

/- The loop over the CPC ids, next to those already seen. -/
def validateCpcIds :
    List String → List Scalar → Except String Unit
| _, [] => .ok ()
| seen, cpcId :: rest =>
    if ¬ isCpcId cpcId.toText then
      .error ("global.eventBus.cpcIds includes " ++
        Go.quote cpcId.toText ++ ", but CPC IDs must use " ++
        "lower-case letters and numbers only so generated " ++
        "secret names and env vars are valid.")
    else if cpcId.toText ∈ seen then
      .error ("global.eventBus.cpcIds includes duplicate ID " ++
        Go.quote cpcId.toText ++ ".")
    else
      validateCpcIds (cpcId.toText :: seen) rest

def reservedAccountNames : List String :=
  ["SYS", "AUTH", "AUTHX", "CSC", "CPC"]

/-
  The loop over the extra accounts, next to the tokens taken
  so far and the accounts that took them.
-/
def validateExtraAccounts :
    List (String × String) → List (String × String) →
      List (Go.Entry ExtraAccount) → Except String Unit
| _, _, [] => .ok ()
| envNames, secretNames, ⟨accountName, config⟩ :: rest =>
    let failed := fun text =>
      .error ("global.eventBus.extraAccounts." ++
        accountName ++ " " ++ text)
    if config.isEnabled then
      let envToken := extraAccountEnvName accountName
      let secretToken := extraAccountSecretName accountName
      if ¬ isAccountName accountName then
        failed ("is not a valid NATS account name. Use " ++
          "letters and numbers only, starting with a letter.")
      else if upper accountName ∈ reservedAccountNames then
        failed "conflicts with a built-in NATS account name."
      else if Go.hasPrefix (upper accountName) "CPC" then
        failed ("is not allowed because extra account names " ++
          "must not start with cpc.")
      else if envToken = "" then
        .error ("global.eventBus.extraAccounts includes " ++
          Go.quote accountName ++ ", but its env token is " ++
          "empty after normalization.")
      else if secretToken = "" then
        .error ("global.eventBus.extraAccounts includes " ++
          Go.quote accountName ++ ", but its secret-name " ++
          "token is empty after normalization.")
      else
        match envNames.lookup envToken with
        | some other =>
            failed ("normalizes to env token " ++ envToken ++
              ", which is already used by " ++
              "global.eventBus.extraAccounts." ++ other ++ ".")
        | none =>
            match secretNames.lookup secretToken with
            | some other =>
                failed ("normalizes to secret token " ++
                  secretToken ++
                  ", which is already used by " ++
                  "global.eventBus.extraAccounts." ++ other ++
                  ".")
            | none =>
                validateExtraAccounts
                  ((envToken, accountName) :: envNames)
                  ((secretToken, accountName) :: secretNames)
                  rest
    else
      validateExtraAccounts envNames secretNames rest

/- The names of the permissions that the chart generates. -/
def generatedNkeyNames (values : Values) : List String :=
  ["nack-controller", "surveyor"] ++
    (if values.mtlsEnabled then
      ["mtls-leaf", "mtls-authx-leaf", "mtls-sys-leaf"]
    else []) ++
    (if values.clusterType = "csc" then
      values.cpcIds.map
        (fun cpcId => "leaf-cpc-" ++ cpcId.printfText) ++
      values.enabledAccounts.flatMap (fun accountName =>
        values.cpcIds.map (fun cpcId =>
          "leaf-" ++ extraAccountSecretName accountName ++
            "-cpc-" ++ cpcId.printfText))
    else [])

def generatedAuthCalloutEnvNames
    (values : Values) : List String :=
  ["AUTH_CALLOUT_NATS_NKEY_SEED",
    "AUTH_CALLOUT_NATS_ISSUER_SEED",
    "AUTH_CALLOUT_NATS_XKEY_SEED",
    "NKEY_NACK_USER_PUBKEY",
    "NKEY_SURVEYOR_PUBKEY"] ++
    (if values.mtlsEnabled then
      ["NKEY_MTLS_LEAF_PUBKEY",
        "NKEY_MTLS_AUTHX_LEAF_PUBKEY",
        "NKEY_MTLS_SYS_LEAF_PUBKEY"]
    else []) ++
    (if values.clusterType = "csc" then
      values.cpcIds.map (fun cpcId =>
        "NKEY_LEAF_CPC_" ++ cpcId.printfText ++ "_PUBKEY") ++
      values.enabledAccounts.flatMap (fun accountName =>
        values.cpcIds.map (fun cpcId =>
          "NKEY_LEAF_" ++ extraAccountEnvName accountName ++
            "_CPC_" ++ cpcId.printfText ++ "_PUBKEY"))
    else [])

/-
  The loop over generated names, in their order, fails on the
  first that the operator has defined as well.
-/
def validateNotDefined
    {ν : Type}
    (defined : Go.Map ν)
    (conflict : String → String)
    (names : List String) : Except String Unit :=
  match (names.insertionSort (· ≤ ·)).find?
      (fun name => decide (name ∈ defined)) with
  | some name => .error (conflict name)
  | none => .ok ()

def nkeyConflict (name : String) : String :=
  "global.eventBus.auth.permissions.nkey." ++ name ++
    " conflicts with a chart-generated NKey permission. " ++
    "Use a different operator-defined NKey permission name."

def extraEnvConflict (name : String) : String :=
  "auth-callout.extraEnvs." ++ name ++
    " conflicts with a chart-generated auth-callout env " ++
    "var. Use a different operator-defined env var name."

def validation (values : Values) : Except String Unit := do
  validateClusterType values
  validateClusterIdentity values
  validateCpcIds [] values.cpcIds
  validateExtraAccounts [] [] values.extraAccounts.entries
  validateNotDefined values.nkeyPermissions nkeyConflict
    (generatedNkeyNames values)
  validateNotDefined values.authCalloutExtraEnvs
    extraEnvConflict (generatedAuthCalloutEnvNames values)

end EventBus

------------------------------------------------------------
-- Accepted Values
------------------------------------------------------------

namespace EventBus

structure AcceptedAccount (accountName : String) : Prop where
  form : isAccountName accountName = true
  notReserved : upper accountName ∉ reservedAccountNames
  notCpc : Go.hasPrefix (upper accountName) "CPC" = false

structure Accepted (values : Values) : Prop where
  clusterType :
    values.clusterType = "csc" ∨ values.clusterType = "cpc"
  clusterId :
    values.clusterType = "cpc" →
      values.clusterId.isMissing = false ∧
        isCpcId values.clusterId.toText = true
  cscEndpoint :
    values.clusterType = "cpc" → values.cscEndpoint ≠ ""
  cpcIds :
    ∀ cpcId ∈ values.cpcIds, isCpcId cpcId.toText = true
  distinctCpcIds : (values.cpcIds.map Scalar.toText).Nodup
  accounts :
    ∀ accountName ∈ values.enabledAccounts,
      AcceptedAccount accountName
  distinctEnvNames :
    (values.enabledAccounts.map extraAccountEnvName).Nodup
  distinctSecretNames :
    (values.enabledAccounts.map extraAccountSecretName).Nodup
  nkeyNames :
    ∀ name ∈ generatedNkeyNames values,
      name ∉ values.nkeyPermissions
  envNames :
    ∀ name ∈ generatedAuthCalloutEnvNames values,
      name ∉ values.authCalloutExtraEnvs

/- One check after another. -/
theorem andThen_ok_iff
    {first second : Except String Unit} :
    (first >>= fun _ => second) = .ok () ↔
      first = .ok () ∧ second = .ok () := by
  cases first with
  | error message => simp [bind, Except.bind]
  | ok value => simp [bind, Except.bind]

theorem validateClusterType_ok_iff (values : Values) :
    validateClusterType values = .ok () ↔
      values.clusterType = "csc" ∨
        values.clusterType = "cpc" := by
  unfold validateClusterType
  by_cases hEmpty : values.clusterType = ""
  · simp [hEmpty]
  · rw [if_neg hEmpty]
    by_cases hRole :
        values.clusterType = "csc" ∨
          values.clusterType = "cpc"
    · simp [hRole]
    · simp [hRole]

theorem validateClusterIdentity_ok_iff (values : Values) :
    validateClusterIdentity values = .ok () ↔
      (values.clusterType = "cpc" →
        (values.clusterId.isMissing = false ∧
          isCpcId values.clusterId.toText = true) ∧
          values.cscEndpoint ≠ "") := by
  unfold validateClusterIdentity
  by_cases hRole : values.clusterType = "cpc"
  · by_cases hMissing : values.clusterId.isMissing = true
    · simp [hRole, hMissing]
    · by_cases hId : isCpcId values.clusterId.toText = true
      · by_cases hEndpoint : values.cscEndpoint = ""
        · simp [hRole, hMissing, hId, hEndpoint]
        · simp [hRole, hMissing, hId, hEndpoint]
      · simp [hRole, hMissing, hId]
  · simp [hRole]

/- The loop checks every id and that none comes twice. -/
theorem validateCpcIds_ok_iff
    {seen : List String}
    (hSeen : seen.Nodup)
    (cpcIds : List Scalar) :
    validateCpcIds seen cpcIds = .ok () ↔
      (∀ cpcId ∈ cpcIds, isCpcId cpcId.toText = true) ∧
        (seen ++ cpcIds.map Scalar.toText).Nodup := by
  induction cpcIds generalizing seen with
  | nil => simp [validateCpcIds, hSeen]
  | cons cpcId rest ih =>
      unfold validateCpcIds
      by_cases hId : isCpcId cpcId.toText = true
      · by_cases hMem : cpcId.toText ∈ seen
        · simp [hId, hMem, List.nodup_middle]
        · have hNext : (cpcId.toText :: seen).Nodup :=
            List.nodup_cons.mpr ⟨hMem, hSeen⟩
          simp [hId, hMem, ih hNext, List.nodup_middle]
      · simp [hId]

/- A key that is not found is not among the keys. -/
theorem lookup_eq_none_iff_not_mem
    {pairs : List (String × String)}
    {key : String} :
    pairs.lookup key = none ↔ key ∉ pairs.map Prod.fst := by
  rw [List.lookup_eq_none_iff]
  constructor
  · intro hNone hMem
    rcases List.mem_map.mp hMem with ⟨pair, hPair, hKey⟩
    have hDiffers := hNone pair hPair
    simp [hKey] at hDiffers
  · intro hAbsent pair hPair
    have hDiffers : key ≠ pair.1 := by
      intro hKey
      exact hAbsent (List.mem_map.mpr ⟨pair, hPair, hKey.symm⟩)
    simpa using hDiffers

/- A key that is found is among the keys. -/
theorem mem_of_lookup_eq_some
    {pairs : List (String × String)}
    {key found : String}
    (hFound : pairs.lookup key = some found) :
    key ∈ pairs.map Prod.fst := by
  by_contra hAbsent
  rw [lookup_eq_none_iff_not_mem.mpr hAbsent] at hFound
  cases hFound

/-
  The loop checks every enabled account and that no two have
  the same token.
-/
theorem validateExtraAccounts_ok_iff
    {envNames secretNames : List (String × String)}
    (hEnv : (envNames.map Prod.fst).Nodup)
    (hSecret : (secretNames.map Prod.fst).Nodup)
    (entries : List (Go.Entry ExtraAccount)) :
    validateExtraAccounts envNames secretNames entries =
        .ok () ↔
      (∀ accountName ∈ enabledNames entries,
        AcceptedAccount accountName) ∧
        (envNames.map Prod.fst ++
          (enabledNames entries).map
            extraAccountEnvName).Nodup ∧
        (secretNames.map Prod.fst ++
          (enabledNames entries).map
            extraAccountSecretName).Nodup := by
  induction entries generalizing envNames secretNames with
  | nil =>
      simp [validateExtraAccounts, enabledNames, hEnv, hSecret]
  | cons entry rest ih =>
      rcases entry with ⟨accountName, config⟩
      unfold validateExtraAccounts
      by_cases hEnabled : config.isEnabled = true
      · have hNames :
            enabledNames (⟨accountName, config⟩ :: rest) =
              accountName :: enabledNames rest := by
          simp [enabledNames, hEnabled]
        rw [hNames, if_pos hEnabled]
        dsimp only
        by_cases hAccepted : AcceptedAccount accountName
        · have hEnvToken :
              extraAccountEnvName accountName ≠ "" := by
            rw [extraAccountEnvName_of_isAccountName
              hAccepted.form]
            exact (isUpperToken_upper hAccepted.form).1
          have hSecretToken :
              extraAccountSecretName accountName ≠ "" := by
            rw [extraAccountSecretName_of_isAccountName
              hAccepted.form]
            exact (isLowerToken_lower hAccepted.form).1
          rw [if_neg (by simp [hAccepted.form]),
            if_neg hAccepted.notReserved,
            if_neg (by simp [hAccepted.notCpc]),
            if_neg hEnvToken, if_neg hSecretToken]
          cases hEnvLookup :
              envNames.lookup
                (extraAccountEnvName accountName) with
          | some other =>
              have hMem := mem_of_lookup_eq_some hEnvLookup
              simp only [List.map_cons, List.nodup_middle,
                List.nodup_cons, List.mem_append, hMem,
                true_or, not_true_eq_false, false_and,
                and_false, reduceCtorEq]
          | none =>
              cases hSecretLookup :
                  secretNames.lookup
                    (extraAccountSecretName accountName) with
              | some other =>
                  have hMem :=
                    mem_of_lookup_eq_some hSecretLookup
                  simp only [List.map_cons,
                    List.nodup_middle, List.nodup_cons,
                    List.mem_append, hMem, true_or,
                    not_true_eq_false, false_and, and_false,
                    reduceCtorEq]
              | none =>
                  have hNextEnv :=
                    List.nodup_cons.mpr
                      ⟨lookup_eq_none_iff_not_mem.mp
                        hEnvLookup, hEnv⟩
                  have hNextSecret :=
                    List.nodup_cons.mpr
                      ⟨lookup_eq_none_iff_not_mem.mp
                        hSecretLookup, hSecret⟩
                  dsimp only
                  rw [ih (by simpa using hNextEnv)
                    (by simpa using hNextSecret)]
                  simp only [List.map_cons,
                    List.nodup_middle, List.cons_append,
                    List.forall_mem_cons, hAccepted,
                    true_and]
        · have hRefused :
              ¬ ∀ name ∈ accountName :: enabledNames rest,
                AcceptedAccount name := by
            intro hAll
            exact hAccepted (hAll _ List.mem_cons_self)
          simp only [hRefused, false_and, iff_false]
          by_cases hForm : isAccountName accountName = true
          · by_cases hReserved :
                upper accountName ∈ reservedAccountNames
            · simp [hForm, hReserved]
            · have hCpc :
                  Go.hasPrefix (upper accountName) "CPC" =
                    true := by
                by_contra hNotCpc
                exact hAccepted
                  ⟨hForm, hReserved, by simpa using hNotCpc⟩
              simp [hForm, hReserved, hCpc]
          · simp [hForm]
      · have hNames :
            enabledNames (⟨accountName, config⟩ :: rest) =
              enabledNames rest := by
          simp [enabledNames, hEnabled]
        rw [hNames, if_neg hEnabled]
        exact ih hEnv hSecret

theorem validateNotDefined_ok_iff
    {ν : Type}
    (defined : Go.Map ν)
    (conflict : String → String)
    (names : List String) :
    validateNotDefined defined conflict names = .ok () ↔
      ∀ name ∈ names, name ∉ defined := by
  unfold validateNotDefined
  cases hFound :
      (names.insertionSort (· ≤ ·)).find?
        (fun name => decide (name ∈ defined)) with
  | some name =>
      have hMem : name ∈ names := by
        simpa using List.mem_of_find?_eq_some hFound
      have hDefined : name ∈ defined := by
        simpa using List.find?_some hFound
      simp only [reduceCtorEq, false_iff]
      intro hNone
      exact hNone name hMem hDefined
  | none =>
      simpa using hFound

/- The template accepts exactly the values described above. -/
theorem validation_ok_iff_accepted (values : Values) :
    validation values = .ok () ↔ Accepted values := by
  unfold validation
  simp only [andThen_ok_iff, validateClusterType_ok_iff,
    validateClusterIdentity_ok_iff,
    validateCpcIds_ok_iff List.nodup_nil,
    @validateExtraAccounts_ok_iff [] [] List.nodup_nil
      List.nodup_nil,
    validateNotDefined_ok_iff]
  constructor
  · intro hChecks
    rcases hChecks with
      ⟨hRole, hIdentity, ⟨hIds, hDistinct⟩,
        ⟨hAccounts, hEnv, hSecret⟩, hNkeys, hEnvs⟩
    exact
      { clusterType := hRole
        clusterId := fun hCpc => (hIdentity hCpc).1
        cscEndpoint := fun hCpc => (hIdentity hCpc).2
        cpcIds := hIds
        distinctCpcIds := by simpa using hDistinct
        accounts := hAccounts
        distinctEnvNames := hEnv
        distinctSecretNames := hSecret
        nkeyNames := hNkeys
        envNames := hEnvs }
  · intro hAccepted
    exact ⟨hAccepted.clusterType,
      fun hCpc =>
        ⟨hAccepted.clusterId hCpc, hAccepted.cscEndpoint hCpc⟩,
      ⟨hAccepted.cpcIds,
        by simpa using hAccepted.distinctCpcIds⟩,
      ⟨hAccepted.accounts, hAccepted.distinctEnvNames,
        hAccepted.distinctSecretNames⟩,
      hAccepted.nkeyNames, hAccepted.envNames⟩

end EventBus
