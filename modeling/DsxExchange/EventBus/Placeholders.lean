import DsxExchange.EventBus.Environment

/-
  The placeholders that the chart writes into the permissions
  of auth-callout, and the variables they stand for.

  Three templates write the id of a CPC, two of them with
  `printf` and one with `toString`. They agree on ids that are
  strings and on no others.

  Key definitions include:
    * `EventBus.Owner`, `EventBus.owners`
    * `EventBus.generatedNkey`, `EventBus.autoNkeys`
    * `EventBus.PlaceholderClosure`

  Key theorems include:
    * `EventBus.placeholderClosure_iff`
-/

------------------------------------------------------------
-- Generated Permissions
------------------------------------------------------------

namespace EventBus

/- Whom a generated permission lets in. -/
inductive Owner where
  | nackController
  | surveyor
  | mtlsLeaf
  | mtlsAuthxLeaf
  | mtlsSysLeaf
  | cpcLeaf (cpcId : Scalar)
  | accountLeaf (accountName : String) (cpcId : Scalar)
deriving DecidableEq, Repr

def dcAccount (values : Values) : String :=
  if values.clusterType = "csc" then "CSC" else "CPC"

/- The owners in the order of the template. -/
def owners (values : Values) : List Owner :=
  [.nackController, .surveyor] ++
    (if values.mtlsEnabled then
      [.mtlsLeaf, .mtlsAuthxLeaf, .mtlsSysLeaf]
    else []) ++
    (if values.clusterType = "csc" then
      values.cpcIds.map .cpcLeaf ++
      values.enabledAccounts.flatMap (fun accountName =>
        values.cpcIds.map (.accountLeaf accountName))
    else [])

/- The name and the permission that are set for an owner. -/
def generatedNkey
    (values : Values) : Owner → String × NkeyPermission
| .nackController =>
    ("nack-controller",
      { publicKey := "${NKEY_NACK_USER_PUBKEY}"
        account := dcAccount values })
| .surveyor =>
    ("surveyor",
      { publicKey := "${NKEY_SURVEYOR_PUBKEY}"
        account := "SYS" })
| .mtlsLeaf =>
    ("mtls-leaf",
      { publicKey := "${NKEY_MTLS_LEAF_PUBKEY}"
        account := dcAccount values })
| .mtlsAuthxLeaf =>
    ("mtls-authx-leaf",
      { publicKey := "${NKEY_MTLS_AUTHX_LEAF_PUBKEY}"
        account := "AUTHX" })
| .mtlsSysLeaf =>
    ("mtls-sys-leaf",
      { publicKey := "${NKEY_MTLS_SYS_LEAF_PUBKEY}"
        account := "SYS" })
| .cpcLeaf cpcId =>
    ("leaf-cpc-" ++ cpcId.printfText,
      { publicKey :=
          "$\x7bNKEY_LEAF_CPC_" ++ cpcId.printfText ++
            "_PUBKEY\x7d"
        account := "CSC" })
| .accountLeaf accountName cpcId =>
    let pubkeyEnvPrefix :=
      "NKEY_LEAF_" ++ extraAccountEnvName accountName ++ "_CPC"
    let pubkeyEnv :=
      pubkeyEnvPrefix ++ "_" ++ cpcId.toText ++ "_PUBKEY"
    ("leaf-" ++ extraAccountSecretName accountName ++
        "-cpc-" ++ cpcId.toText,
      { publicKey := "$\x7b" ++ pubkeyEnv ++ "\x7d"
        account := accountName })

/- The permissions by name; a later one replaces an earlier. -/
def autoNkeys (values : Values) : Go.Map NkeyPermission :=
  (owners values).foldl
    (fun nkeys owner =>
      nkeys.insert (generatedNkey values owner).1
        (generatedNkey values owner).2) ∅

/- The permissions of the ConfigMap: the operator's come first. -/
def mergedNkeys (values : Values) : Go.Map NkeyPermission :=
  values.nkeyPermissions ∪ autoNkeys values

end EventBus

------------------------------------------------------------
-- What A Placeholder Stands For
------------------------------------------------------------

namespace EventBus

/- The secret and the key made for an owner. -/
def Owner.secret : Owner → String × String
| .nackController => ("nats-nack-user", "pubkey")
| .surveyor => ("nats-surveyor", "pubkey")
| .mtlsLeaf => ("nats-mtls-leaf", "pubkey")
| .mtlsAuthxLeaf => ("nats-mtls-authx-leaf", "pubkey")
| .mtlsSysLeaf => ("nats-mtls-sys-leaf", "pubkey")
| .cpcLeaf cpcId =>
    ("nats-leaf-cpc-" ++ cpcId.toText, "pubkey")
| .accountLeaf accountName cpcId =>
    ("nats-leaf-" ++ extraAccountSecretName accountName ++
      "-cpc-" ++ cpcId.toText, "pubkey")

def isEnvNameChar (c : Char) : Bool :=
  c.isAlphanum || c = '_'

/- A legal name of an environment variable. -/
def IsEnvName (name : String) : Prop :=
  name ≠ "" ∧
    (∀ c ∈ name.toList, isEnvNameChar c = true) ∧
    ∀ c ∈ name.toList.head?, c.isDigit = false

def placeholder (name : String) : String :=
  "$\x7b" ++ name ++ "\x7d"

/-
  The variable is legal, is set by exactly one entry, and the
  entry is taken from the secret of the owner, unless that
  reference is replaced.
-/
structure Backed
    (values : Values)
    (env : List EnvVar)
    (owner : Owner)
    (name : String) : Prop where
  legal : IsEnvName name
  entry :
    ∃ value,
      env.filter (fun entry => entry.name = name) =
          [⟨name, value⟩] ∧
        (override values owner.secret.1 owner.secret.2 = none →
          value =
            .secretKeyRef owner.secret.1 owner.secret.2)

/- Every generated placeholder stands for a backed variable. -/
def PlaceholderClosure
    (values : Values)
    (env : List EnvVar) : Prop :=
  ∀ owner ∈ owners values,
    ∃ name,
      (generatedNkey values owner).2.publicKey =
          placeholder name ∧
        Backed values env owner name

end EventBus

------------------------------------------------------------
-- Closure
------------------------------------------------------------

namespace EventBus

variable {values : Values}

/- The reference whose variable an owner's key comes from. -/
def Owner.envRef : Owner → EnvRef
| .nackController =>
    ⟨"NKEY_NACK_USER_PUBKEY", "nats-nack-user", "pubkey"⟩
| .surveyor =>
    ⟨"NKEY_SURVEYOR_PUBKEY", "nats-surveyor", "pubkey"⟩
| .mtlsLeaf =>
    ⟨"NKEY_MTLS_LEAF_PUBKEY", "nats-mtls-leaf", "pubkey"⟩
| .mtlsAuthxLeaf =>
    ⟨"NKEY_MTLS_AUTHX_LEAF_PUBKEY",
      "nats-mtls-authx-leaf", "pubkey"⟩
| .mtlsSysLeaf =>
    ⟨"NKEY_MTLS_SYS_LEAF_PUBKEY",
      "nats-mtls-sys-leaf", "pubkey"⟩
| .cpcLeaf cpcId => leafEnvRef cpcId
| .accountLeaf accountName cpcId =>
    accountLeafEnvRef cpcId accountName

/- The id of the CPC that an owner belongs to is a string. -/
def Owner.HasStringId : Owner → Prop
| .cpcLeaf cpcId => cpcId.IsString
| .accountLeaf _ cpcId => cpcId.IsString
| _ => True

theorem envRef_mem
    {owner : Owner}
    (hMem : owner ∈ owners values) :
    owner.envRef ∈ authCalloutEnvRefs values := by
  unfold owners at hMem
  unfold authCalloutEnvRefs fixedEnvRefs
  rcases List.mem_append.mp hMem with hFixed | hLeaves
  · apply List.mem_append_left
    rcases List.mem_append.mp hFixed with hAlways | hMtls
    · apply List.mem_append_left
      simp only [List.mem_cons, List.not_mem_nil, or_false]
        at hAlways
      rcases hAlways with hNack | hSurveyor
      · rw [hNack]
        decide
      · rw [hSurveyor]
        decide
    · apply List.mem_append_right
      cases hEnabled : values.mtlsEnabled with
      | true =>
          rw [hEnabled] at hMtls
          exact List.mem_map_of_mem (f := Owner.envRef) hMtls
      | false => simp [hEnabled] at hMtls
  · apply List.mem_append_right
    by_cases hRole : values.clusterType = "csc"
    · rw [if_pos hRole] at hLeaves ⊢
      rcases List.mem_append.mp hLeaves with
        hLeaf | hAccount
      · rcases List.mem_map.mp hLeaf with ⟨cpcId, hId, hEq⟩
        rw [← hEq]
        exact List.mem_flatMap.mpr
          ⟨cpcId, hId, List.mem_cons_self⟩
      · rcases List.mem_flatMap.mp hAccount with
          ⟨accountName, hEnabled, hOwner⟩
        rcases List.mem_map.mp hOwner with ⟨cpcId, hId, hEq⟩
        rw [← hEq]
        exact List.mem_flatMap.mpr
          ⟨cpcId, hId, List.mem_cons_of_mem _
            (List.mem_map.mpr ⟨accountName, hEnabled, rfl⟩)⟩
    · simp [hRole] at hLeaves

/- The placeholder names the variable of the owner. -/
theorem publicKey_eq_placeholder
    {owner : Owner}
    (hString : owner.HasStringId) :
    (generatedNkey values owner).2.publicKey =
      placeholder owner.envRef.env := by
  cases owner with
  | nackController => rfl
  | surveyor => rfl
  | mtlsLeaf => rfl
  | mtlsAuthxLeaf => rfl
  | mtlsSysLeaf => rfl
  | cpcLeaf cpcId =>
      apply String.toList_inj.mp
      simp [generatedNkey, placeholder, Owner.envRef,
        leafEnvRef]
  | accountLeaf accountName cpcId =>
      have hText : cpcId.printfText = cpcId.toText :=
        Scalar.printfText_eq_toText_of_isString hString
      apply String.toList_inj.mp
      simp [generatedNkey, placeholder, Owner.envRef,
        accountLeafEnvRef, hText]

theorem secret_eq_envRef
    {owner : Owner}
    (hString : owner.HasStringId) :
    owner.secret =
      (owner.envRef.secretName, owner.envRef.key) := by
  cases owner with
  | nackController => rfl
  | surveyor => rfl
  | mtlsLeaf => rfl
  | mtlsAuthxLeaf => rfl
  | mtlsSysLeaf => rfl
  | cpcLeaf cpcId =>
      have hText : cpcId.printfText = cpcId.toText :=
        Scalar.printfText_eq_toText_of_isString hString
      simp [Owner.secret, Owner.envRef, leafEnvRef, hText]
  | accountLeaf accountName cpcId =>
      have hText : cpcId.printfText = cpcId.toText :=
        Scalar.printfText_eq_toText_of_isString hString
      simp [Owner.secret, Owner.envRef, accountLeafEnvRef,
        hText]

/- Names of capital letters around tokens are legal. -/
theorem isEnvName_of_forall
    {name : String}
    (hChars : name.toList.all isEnvNameChar = true)
    (hFirst : name.toList.head? = some 'N') :
    IsEnvName name := by
  refine ⟨?_, List.all_eq_true.mp hChars, ?_⟩
  · intro hEmpty
    simp [hEmpty] at hFirst
  · simp [hFirst]

theorem isEnvNameChar_of_isLowerAlnum
    {c : Char}
    (hChar : isLowerAlnum c = true) :
    isEnvNameChar c = true := by
  simp [isEnvNameChar, isAlphanum_of_isLowerAlnum hChar]

theorem isEnvNameChar_of_isUpperAlnum
    {c : Char}
    (hChar : isUpperAlnum c = true) :
    isEnvNameChar c = true := by
  simp [isEnvNameChar, isAlphanum_of_isUpperAlnum hChar]

/- What an owner among the owners of accepted values is. -/
structure AcceptedOwner
    (values : Values)
    (owner : Owner) : Prop where
  cpcLeaf :
    ∀ cpcId,
      owner = .cpcLeaf cpcId →
        values.clusterType = "csc" ∧ cpcId ∈ values.cpcIds
  accountLeaf :
    ∀ accountName cpcId,
      owner = .accountLeaf accountName cpcId →
        values.clusterType = "csc" ∧
          accountName ∈ values.enabledAccounts ∧
          cpcId ∈ values.cpcIds

theorem acceptedOwner_of_mem
    {owner : Owner}
    (hMem : owner ∈ owners values) :
    AcceptedOwner values owner := by
  unfold owners at hMem
  rcases List.mem_append.mp hMem with hFixed | hLeaves
  · have hNoLeaf :
        (∀ cpcId, owner ≠ .cpcLeaf cpcId) ∧
          ∀ accountName cpcId,
            owner ≠ .accountLeaf accountName cpcId := by
      cases hEnabled : values.mtlsEnabled with
      | true =>
          simp only [hEnabled, if_true, List.cons_append,
            List.nil_append, List.mem_cons,
            List.not_mem_nil, or_false] at hFixed
          rcases hFixed with h | h | h | h | h <;> simp [h]
      | false =>
          simp only [hEnabled, Bool.false_eq_true, if_false,
            List.append_nil, List.mem_cons,
            List.not_mem_nil, or_false] at hFixed
          rcases hFixed with h | h <;> simp [h]
    exact ⟨fun cpcId hEq => absurd hEq (hNoLeaf.1 cpcId),
      fun accountName cpcId hEq =>
        absurd hEq (hNoLeaf.2 accountName cpcId)⟩
  · by_cases hRole : values.clusterType = "csc"
    · rw [if_pos hRole] at hLeaves
      constructor
      · intro cpcId hEq
        rw [hEq] at hLeaves
        have hId : cpcId ∈ values.cpcIds := by
          simpa using hLeaves
        exact ⟨hRole, hId⟩
      · intro accountName cpcId hEq
        rw [hEq] at hLeaves
        have hBoth :
            accountName ∈ values.enabledAccounts ∧
              cpcId ∈ values.cpcIds := by
          simpa using hLeaves
        exact ⟨hRole, hBoth⟩
    · simp [hRole] at hLeaves

theorem AcceptedOwner.hasStringId
    {owner : Owner}
    (hOwner : AcceptedOwner values owner)
    (hStrings :
      values.clusterType = "csc" →
        ∀ cpcId ∈ values.cpcIds, cpcId.IsString) :
    owner.HasStringId := by
  cases owner with
  | nackController => trivial
  | surveyor => trivial
  | mtlsLeaf => trivial
  | mtlsAuthxLeaf => trivial
  | mtlsSysLeaf => trivial
  | cpcLeaf cpcId =>
      have hLeaf := hOwner.cpcLeaf cpcId rfl
      exact hStrings hLeaf.1 cpcId hLeaf.2
  | accountLeaf accountName cpcId =>
      have hLeaf := hOwner.accountLeaf accountName cpcId rfl
      exact hStrings hLeaf.1 cpcId hLeaf.2.2

/- The variable of an owner is legal and one of its kind. -/
theorem legal_envRef
    (hAccepted : Accepted values)
    {owner : Owner}
    (hOwner : AcceptedOwner values owner)
    (hString : owner.HasStringId) :
    IsEnvName owner.envRef.env ∧
      (Go.split owner.envRef.env '_').head? = some "NKEY" := by
  cases owner with
  | nackController =>
      exact ⟨isEnvName_of_forall (by decide) rfl, by decide⟩
  | surveyor =>
      exact ⟨isEnvName_of_forall (by decide) rfl, by decide⟩
  | mtlsLeaf =>
      exact ⟨isEnvName_of_forall (by decide) rfl, by decide⟩
  | mtlsAuthxLeaf =>
      exact ⟨isEnvName_of_forall (by decide) rfl, by decide⟩
  | mtlsSysLeaf =>
      exact ⟨isEnvName_of_forall (by decide) rfl, by decide⟩
  | cpcLeaf cpcId =>
      have hLeaf := hOwner.cpcLeaf cpcId rfl
      have hToken :=
        isLowerToken_printfText hString
          (hAccepted.cpcIds cpcId hLeaf.2)
      constructor
      · apply isEnvName_of_forall
        · have hId :
              cpcId.printfText.toList.all isEnvNameChar =
                true := by
            apply List.all_eq_true.mpr
            intro c hMem
            exact isEnvNameChar_of_isLowerAlnum
              (hToken.2 c hMem)
          simp only [Owner.envRef, leafEnvRef,
            String.toList_append, List.all_append, hId,
            Bool.and_true]
          decide
        · simp [Owner.envRef, leafEnvRef]
      · simp only [Owner.envRef, leafEnvRef]
        rw [split_leafEnv (hToken.not_mem (by decide))]
        rfl
  | accountLeaf accountName cpcId =>
      have hLeaf := hOwner.accountLeaf accountName cpcId rfl
      have hToken :=
        isLowerToken_printfText hString
          (hAccepted.cpcIds cpcId hLeaf.2.2)
      have hUpper :=
        isUpperToken_envName
          (hAccepted.accounts accountName hLeaf.2.1)
      constructor
      · apply isEnvName_of_forall
        · have hId :
              cpcId.printfText.toList.all isEnvNameChar =
                true := by
            apply List.all_eq_true.mpr
            intro c hMem
            exact isEnvNameChar_of_isLowerAlnum
              (hToken.2 c hMem)
          have hAccount :
              (extraAccountEnvName accountName).toList.all
                isEnvNameChar = true := by
            apply List.all_eq_true.mpr
            intro c hMem
            exact isEnvNameChar_of_isUpperAlnum
              (hUpper.2 c hMem)
          simp only [Owner.envRef, accountLeafEnvRef,
            String.toList_append, List.all_append, hId,
            hAccount, Bool.and_true]
          decide
        · simp [Owner.envRef, accountLeafEnvRef]
      · simp only [Owner.envRef, accountLeafEnvRef]
        rw [split_accountLeafEnv (hUpper.not_mem (by decide))
          (hToken.not_mem (by decide))]
        rfl

theorem closure_of_strings
    (hAccepted : Accepted values)
    {deployment : Deployment}
    {env : List EnvVar}
    (hEnv : authCalloutEnv deployment values = .ok env)
    (hStrings :
      values.clusterType = "csc" →
        ∀ cpcId ∈ values.cpcIds, cpcId.IsString) :
    PlaceholderClosure values env := by
  intro owner hMem
  have hOwner := acceptedOwner_of_mem hMem
  have hString := hOwner.hasStringId hStrings
  have hLegal := legal_envRef hAccepted hOwner hString
  rcases filter_authCalloutEnv hAccepted hStrings hEnv
      (envRef_mem hMem) hLegal.2 with
    ⟨value, hValue, hFilter⟩
  refine ⟨owner.envRef.env, publicKey_eq_placeholder hString,
    hLegal.1, value, hFilter, ?_⟩
  intro hDefault
  rw [secret_eq_envRef hString] at hDefault ⊢
  rw [nkeySecretEnvValue_ok hValue, hDefault]
  rfl

/- The report on a bad verb makes no legal name. -/
theorem percent_mem_printfText
    {value : Scalar}
    (hOther : ¬ value.IsString) :
    '%' ∈ value.printfText.toList := by
  cases value with
  | null => decide
  | bool value => simp [Scalar.printfText]
  | number type text => simp [Scalar.printfText]
  | string text => exact absurd trivial hOther

theorem not_closure_of_not_string
    {env : List EnvVar}
    {cpcId : Scalar}
    (hRole : values.clusterType = "csc")
    (hMem : cpcId ∈ values.cpcIds)
    (hOther : ¬ cpcId.IsString) :
    ¬ PlaceholderClosure values env := by
  intro hClosure
  have hOwner : Owner.cpcLeaf cpcId ∈ owners values := by
    simp [owners, hRole, hMem]
  rcases hClosure _ hOwner with ⟨name, hKey, hBacked⟩
  have hPercent :
      '%' ∈ (placeholder name).toList := by
    rw [← hKey]
    simp [generatedNkey, percent_mem_printfText hOther]
  have hName : '%' ∈ name.toList := by
    simpa [placeholder] using hPercent
  have hLegal := hBacked.legal.2.1 '%' hName
  exact absurd hLegal (by decide)

/-
  Every generated placeholder is backed exactly when no CPC
  id of a CSC cluster is written as something other than a
  string.
-/
theorem placeholderClosure_iff
    (deployment : Deployment)
    (values : Values)
    (env : List EnvVar)
    (hAccepted : validation values = .ok ())
    (hEnv : authCalloutEnv deployment values = .ok env) :
    PlaceholderClosure values env ↔
      (values.clusterType = "csc" →
        ∀ cpcId ∈ values.cpcIds, cpcId.IsString) := by
  constructor
  · intro hClosure hRole cpcId hMem
    by_contra hOther
    exact not_closure_of_not_string hRole hMem hOther hClosure
  · intro hStrings
    exact closure_of_strings
      ((validation_ok_iff_accepted values).mp hAccepted) hEnv
      hStrings

/- Values of a CSC cluster with one extra account. -/
def cscValues (cpcIds : List Scalar) : Values where
  clusterType := "csc"
  clusterId := .string ""
  cscEndpoint := ""
  cpcIds := cpcIds
  crossLayer :=
    { cscExports := []
      cscPrefixedExports := []
      cpcExports := [] }
  mtlsEnabled := true
  extraAccounts :=
    (∅ : Go.Map ExtraAccount).insert "LaunchLayer" ⟨none⟩
  nkeyPermissions := ∅
  nkeySecretRefOverrides := some ∅
  authCalloutExtraEnvs := ∅

def plainDeployment : Deployment where
  releaseName := "dsx"
  servicePort := "8080"
  vaultEnabled := false
  hotConfigInterval := "5s"

theorem closure_cscValues :
    ∃ env,
      authCalloutEnv plainDeployment
          (cscValues [.string "1", .string "dc2"]) =
        .ok env ∧
      PlaceholderClosure
        (cscValues [.string "1", .string "dc2"]) env := by
  refine ⟨_, rfl, ?_⟩
  apply (placeholderClosure_iff plainDeployment _ _
    (by decide +kernel) rfl).mpr
  decide

/- An id that is written as a number is accepted. -/
theorem not_closure_numericId :
    ¬ ∀ (deployment : Deployment) (values : Values)
        (env : List EnvVar),
      validation values = .ok () →
        authCalloutEnv deployment values = .ok env →
          PlaceholderClosure values env := by
  intro hAll
  have hClosure :=
    hAll plainDeployment (cscValues [.number .float64 "1"])
      _ (by decide +kernel) rfl
  exact not_closure_of_not_string rfl List.mem_cons_self id
    hClosure

end EventBus

------------------------------------------------------------
-- The Rendered Permissions
------------------------------------------------------------

namespace EventBus

variable {values : Values}

/- The parts of the name of an owner's permission. -/
def Owner.parts : Owner → List String
| .nackController => ["nack", "controller"]
| .surveyor => ["surveyor"]
| .mtlsLeaf => ["mtls", "leaf"]
| .mtlsAuthxLeaf => ["mtls", "authx", "leaf"]
| .mtlsSysLeaf => ["mtls", "sys", "leaf"]
| .cpcLeaf cpcId => ["leaf", "cpc", cpcId.toText]
| .accountLeaf accountName cpcId =>
    ["leaf", extraAccountSecretName accountName, "cpc",
      cpcId.toText]

theorem split_generatedNkey
    (hAccepted : Accepted values)
    {owner : Owner}
    (hOwner : AcceptedOwner values owner)
    (hString : owner.HasStringId) :
    Go.split (generatedNkey values owner).1 '-' =
      owner.parts := by
  cases owner with
  | nackController =>
      simp only [generatedNkey, Owner.parts]
      decide
  | surveyor =>
      simp only [generatedNkey, Owner.parts]
      decide
  | mtlsLeaf =>
      simp only [generatedNkey, Owner.parts]
      decide
  | mtlsAuthxLeaf =>
      simp only [generatedNkey, Owner.parts]
      decide
  | mtlsSysLeaf =>
      simp only [generatedNkey, Owner.parts]
      decide
  | cpcLeaf cpcId =>
      have hLeaf := hOwner.cpcLeaf cpcId rfl
      have hToken :=
        isLowerToken_of_isCpcId
          (hAccepted.cpcIds cpcId hLeaf.2)
      have hId : '-' ∉ cpcId.toText.toList :=
        hToken.not_mem (by decide)
      have hJoin :
          (generatedNkey values (.cpcLeaf cpcId)).1 =
            Go.join ["leaf", "cpc", cpcId.toText] '-' := by
        apply String.toList_inj.mp
        simp [generatedNkey, Go.join, List.intercalate,
          List.intersperse,
          Scalar.printfText_eq_toText_of_isString hString]
      rw [hJoin]
      exact Go.split_join (by simp) (by simp [hId])
  | accountLeaf accountName cpcId =>
      have hLeaf := hOwner.accountLeaf accountName cpcId rfl
      have hToken :=
        isLowerToken_of_isCpcId
          (hAccepted.cpcIds cpcId hLeaf.2.2)
      have hId : '-' ∉ cpcId.toText.toList :=
        hToken.not_mem (by decide)
      have hAccount :
          '-' ∉ (extraAccountSecretName accountName).toList :=
        (isLowerToken_secretName
          (hAccepted.accounts accountName hLeaf.2.1)).not_mem
            (by decide)
      have hJoin :
          (generatedNkey values
              (.accountLeaf accountName cpcId)).1 =
            Go.join
              ["leaf", extraAccountSecretName accountName,
                "cpc", cpcId.toText] '-' := by
        apply String.toList_inj.mp
        simp [generatedNkey, Go.join, List.intercalate,
          List.intersperse]
      rw [hJoin]
      exact Go.split_join (by simp) (by simp [hAccount, hId])

/- Owners with the same parts are the same. -/
theorem owner_eq_of_parts_eq
    (hAccepted : Accepted values)
    {first second : Owner}
    (hFirst : AcceptedOwner values first)
    (hSecond : AcceptedOwner values second)
    (hParts : first.parts = second.parts) :
    first = second := by
  have hIds :
      ∀ left ∈ values.cpcIds, ∀ right ∈ values.cpcIds,
        left.toText = right.toText → left = right := by
    intro left hLeft right hRight hText
    exact List.inj_on_of_nodup_map hAccepted.distinctCpcIds
      hLeft hRight hText
  cases first with
  | cpcLeaf left =>
      cases second with
      | cpcLeaf right =>
          have hText : left.toText = right.toText := by
            simpa [Owner.parts] using hParts
          rw [hIds left (hFirst.cpcLeaf left rfl).2 right
            (hSecond.cpcLeaf right rfl).2 hText]
      | _ => simp [Owner.parts] at hParts
  | accountLeaf leftAccount left =>
      cases second with
      | accountLeaf rightAccount right =>
          have hBoth :
              extraAccountSecretName leftAccount =
                  extraAccountSecretName rightAccount ∧
                left.toText = right.toText := by
            simpa [Owner.parts] using hParts
          have hLeft :=
            hFirst.accountLeaf leftAccount left rfl
          have hRight :=
            hSecond.accountLeaf rightAccount right rfl
          have hAccounts : leftAccount = rightAccount :=
            List.inj_on_of_nodup_map
              hAccepted.distinctSecretNames hLeft.2.1
              hRight.2.1 hBoth.1
          rw [hAccounts, hIds left hLeft.2.2 right
            hRight.2.2 hBoth.2]
      | _ => simp [Owner.parts] at hParts
  | _ =>
      cases second
      all_goals first
        | rfl
        | simp [Owner.parts] at hParts

/-
  Entries set one after the other are all found, when entries
  with the same name are the same.
-/
theorem lookup_foldl_insert
    {ι : Type}
    (entry : ι → String × NkeyPermission)
    (items : List ι)
    (start : Go.Map NkeyPermission)
    (hSame :
      ∀ first ∈ items, ∀ second ∈ items,
        (entry first).1 = (entry second).1 → first = second)
    {item : ι}
    (hMem : item ∈ items) :
    (items.foldl
      (fun nkeys item =>
        nkeys.insert (entry item).1 (entry item).2)
      start).lookup (entry item).1 = some (entry item).2 := by
  induction items using List.reverseRecOn with
  | nil => simp at hMem
  | append_singleton rest last ih =>
      rw [List.foldl_append, List.foldl_cons, List.foldl_nil]
      by_cases hLast : (entry item).1 = (entry last).1
      · have hEq : item = last :=
          hSame item hMem last (by simp) hLast
        rw [hEq, AList.lookup_insert]
      · rw [AList.lookup_insert_ne hLast]
        apply ih
        · intro first hFirst second hSecond hName
          exact hSame first (List.mem_append_left _ hFirst)
            second (List.mem_append_left _ hSecond) hName
        · rcases List.mem_append.mp hMem with hRest | hEnd
          · exact hRest
          · exact absurd
              (by rw [List.mem_singleton.mp hEnd]) hLast

theorem name_mem_generatedNkeyNames
    {owner : Owner}
    (hMem : owner ∈ owners values)
    (hString : owner.HasStringId) :
    (generatedNkey values owner).1 ∈
      generatedNkeyNames values := by
  unfold owners at hMem
  unfold generatedNkeyNames
  rcases List.mem_append.mp hMem with hFixed | hLeaves
  · apply List.mem_append_left
    rcases List.mem_append.mp hFixed with hAlways | hMtls
    · exact List.mem_append_left _
        (List.mem_map_of_mem
          (f := fun owner => (generatedNkey values owner).1)
          hAlways)
    · apply List.mem_append_right
      cases hEnabled : values.mtlsEnabled with
      | true =>
          rw [hEnabled] at hMtls
          exact List.mem_map_of_mem
            (f := fun owner => (generatedNkey values owner).1)
            hMtls
      | false => simp [hEnabled] at hMtls
  · apply List.mem_append_right
    by_cases hRole : values.clusterType = "csc"
    · rw [if_pos hRole] at hLeaves ⊢
      rcases List.mem_append.mp hLeaves with hLeaf | hAccount
      · rcases List.mem_map.mp hLeaf with ⟨cpcId, hId, hEq⟩
        rw [← hEq]
        exact List.mem_append_left _
          (List.mem_map.mpr ⟨cpcId, hId, rfl⟩)
      · rcases List.mem_flatMap.mp hAccount with
          ⟨accountName, hEnabled, hOwner⟩
        rcases List.mem_map.mp hOwner with ⟨cpcId, hId, hEq⟩
        rw [← hEq] at hString ⊢
        refine List.mem_append_right _
          (List.mem_flatMap.mpr ⟨accountName, hEnabled,
            List.mem_map.mpr ⟨cpcId, hId, ?_⟩⟩)
        rw [Scalar.printfText_eq_toText_of_isString hString]
        rfl
    · simp [hRole] at hLeaves

/-
  The ConfigMap holds every generated permission as it was
  generated: no operator's entry and no other generated one
  has its name.
-/
theorem lookup_mergedNkeys
    (hAccepted : Accepted values)
    (hStrings :
      values.clusterType = "csc" →
        ∀ cpcId ∈ values.cpcIds, cpcId.IsString)
    {owner : Owner}
    (hMem : owner ∈ owners values) :
    (mergedNkeys values).lookup (generatedNkey values owner).1 =
      some (generatedNkey values owner).2 := by
  have hString : ∀ other ∈ owners values, other.HasStringId := by
    intro other hOther
    exact (acceptedOwner_of_mem hOther).hasStringId hStrings
  have hFree :
      (generatedNkey values owner).1 ∉
        values.nkeyPermissions :=
    hAccepted.nkeyNames _
      (name_mem_generatedNkeyNames hMem (hString owner hMem))
  have hSame :
      ∀ first ∈ owners values, ∀ second ∈ owners values,
        (generatedNkey values first).1 =
            (generatedNkey values second).1 →
          first = second := by
    intro first hFirst second hSecond hName
    have hFirstOwner := acceptedOwner_of_mem hFirst
    have hSecondOwner := acceptedOwner_of_mem hSecond
    apply owner_eq_of_parts_eq hAccepted hFirstOwner
      hSecondOwner
    rw [← split_generatedNkey hAccepted hFirstOwner
        (hString first hFirst), hName,
      split_generatedNkey hAccepted hSecondOwner
        (hString second hSecond)]
  rw [mergedNkeys, AList.lookup_union_right hFree]
  exact lookup_foldl_insert (generatedNkey values)
    (owners values) ∅ hSame hMem

end EventBus
