import DsxExchange.EventBus.Values
import DsxExchange.Go.Strings

/-
  The arguments of the key generator, and the names of the
  secrets that it makes of them.

  Key definitions include:
    * `GenerateNkeys.validateCpcId`,
      `GenerateNkeys.validateExtraAccountName`
    * `GenerateNkeys.extraAccountSecretToken`
    * `GenerateNkeys.Request`, `GenerateNkeys.parseArgs`
    * `GenerateNkeys.Leaf`

  Key theorems include:
    * `GenerateNkeys.extraAccountSecretToken_eq_lower`
    * `GenerateNkeys.cscSecret_injective`
-/

------------------------------------------------------------
-- Validation
------------------------------------------------------------

namespace GenerateNkeys

open EventBus (isCpcId isAccountName upper lower isLowerAlnum
  IsLowerToken)

def validateCpcId (cpcId : String) : Except String Unit :=
  if isCpcId cpcId then
    .ok ()
  else
    .error ("ERROR: Invalid CPC ID: " ++ cpcId ++
      " (use lower-case letters and numbers only)")

/- The names of the accounts that every cluster has. -/
def builtInAccounts : List String :=
  ["SYS", "AUTH", "AUTHX", "CSC", "CPC"]

def validateExtraAccountName
    (accountName : String) : Except String Unit :=
  let accountUpper := upper accountName
  if ¬ isAccountName accountName then
    .error ("ERROR: Invalid extra account name: " ++
      accountName ++ " (use letters and numbers only, " ++
      "starting with a letter)")
  else if accountUpper ∈ builtInAccounts then
    .error ("ERROR: Invalid extra account name: " ++
      accountName ++ " conflicts with a built-in NATS account")
  else if Go.hasPrefix accountUpper "CPC" then
    .error ("ERROR: Invalid extra account name: " ++
      accountName ++ " must not start with the cpc prefix")
  else
    .ok ()

/- A run of replaced characters becomes one new character. -/
def replaceRuns
    (replaced : Char → Bool)
    (new : Char) : Bool → List Char → List Char
| _, [] => []
| inRun, c :: rest =>
    if replaced c then
      if inRun then
        replaceRuns replaced new true rest
      else
        new :: replaceRuns replaced new true rest
    else
      c :: replaceRuns replaced new false rest

/- The token of an account in the names of its secrets. -/
def extraAccountSecretToken (accountName : String) : String :=
  EventBus.trimAll '-'
    (String.ofList
      (replaceRuns (fun c => !(isLowerAlnum c || c = '-')) '-'
        false (lower accountName).toList))

/- The loop over the accounts, next to the tokens seen. -/
def validateExtraAccountTokens :
    List String → List String → Except String Unit
| _, [] => .ok ()
| seen, accountName :: rest =>
    let token := extraAccountSecretToken accountName
    if token = "" then
      .error ("ERROR: extra account name " ++ accountName ++
        " normalizes to an empty secret token")
    else if token ∈ seen then
      .error ("ERROR: extra account " ++ accountName ++
        " normalizes to duplicate secret token " ++ token)
    else
      validateExtraAccountTokens (token :: seen) rest

theorem validateCpcId_ok_iff (cpcId : String) :
    validateCpcId cpcId = .ok () ↔ isCpcId cpcId = true := by
  unfold validateCpcId
  cases isCpcId cpcId with
  | true => simp
  | false => simp

theorem validateExtraAccountName_ok_iff
    (accountName : String) :
    validateExtraAccountName accountName = .ok () ↔
      isAccountName accountName = true ∧
        upper accountName ∉ builtInAccounts ∧
        Go.hasPrefix (upper accountName) "CPC" = false := by
  unfold validateExtraAccountName
  by_cases hForm : isAccountName accountName = true
  · by_cases hBuiltIn : upper accountName ∈ builtInAccounts
    · simp [hForm, hBuiltIn]
    · by_cases hCpc :
          Go.hasPrefix (upper accountName) "CPC" = true
      · simp [hForm, hBuiltIn, hCpc]
      · simp [hForm, hBuiltIn, hCpc]
  · simp [hForm]

/- Nothing is replaced in a text of other characters. -/
theorem replaceRuns_of_forall
    {replaced : Char → Bool}
    {new : Char}
    {chars : List Char}
    (hNone : ∀ c ∈ chars, replaced c = false)
    (inRun : Bool) :
    replaceRuns replaced new inRun chars = chars := by
  induction chars generalizing inRun with
  | nil => rfl
  | cons c rest ih =>
      have hFirst := hNone c List.mem_cons_self
      have hRest : ∀ c ∈ rest, replaced c = false := by
        intro other hMem
        exact hNone other (List.mem_cons_of_mem _ hMem)
      simp [replaceRuns, hFirst, ih hRest]

theorem extraAccountSecretToken_eq_lower
    {accountName : String}
    (hName : isAccountName accountName = true) :
    extraAccountSecretToken accountName =
      lower accountName := by
  have hToken := EventBus.isLowerToken_lower hName
  unfold extraAccountSecretToken
  rw [replaceRuns_of_forall, String.ofList_toList]
  · exact EventBus.trimAll_of_not_mem
      (hToken.not_mem (by decide))
  · intro c hMem
    simp [hToken.2 c hMem]

theorem isLowerToken_extraAccountSecretToken
    {accountName : String}
    (hName : isAccountName accountName = true) :
    IsLowerToken (extraAccountSecretToken accountName) := by
  rw [extraAccountSecretToken_eq_lower hName]
  exact EventBus.isLowerToken_lower hName

/- The loop finds every token that comes twice. -/
theorem validateExtraAccountTokens_ok_iff
    {seen : List String}
    (hSeen : seen.Nodup)
    {accounts : List String}
    (hNames :
      ∀ account ∈ accounts, isAccountName account = true) :
    validateExtraAccountTokens seen accounts = .ok () ↔
      (seen ++ accounts.map extraAccountSecretToken).Nodup := by
  induction accounts generalizing seen with
  | nil => simp [validateExtraAccountTokens, hSeen]
  | cons account rest ih =>
      have hToken :=
        (isLowerToken_extraAccountSecretToken
          (hNames account List.mem_cons_self)).1
      have hRest :
          ∀ other ∈ rest, isAccountName other = true := by
        intro other hMem
        exact hNames other (List.mem_cons_of_mem _ hMem)
      unfold validateExtraAccountTokens
      by_cases hMem : extraAccountSecretToken account ∈ seen
      · simp [hToken, hMem, List.nodup_middle]
      · have hNext :
            (extraAccountSecretToken account :: seen).Nodup :=
          List.nodup_cons.mpr ⟨hMem, hSeen⟩
        simp [hToken, hMem, ih hNext hRest,
          List.nodup_middle]

end GenerateNkeys

------------------------------------------------------------
-- Arguments
------------------------------------------------------------

namespace GenerateNkeys

open EventBus (isCpcId isAccountName IsLowerToken)

/- An id and an account name that the script has accepted. -/
abbrev CpcId :=
  { cpcId : String // validateCpcId cpcId = .ok () }

abbrev AccountName :=
  { name : String // validateExtraAccountName name = .ok () }

theorem isAccountName_val (account : AccountName) :
    isAccountName account.val = true :=
  ((validateExtraAccountName_ok_iff _).mp account.property).1

/- What one run of the script is asked for. -/
structure Request where
  cpcIds : List CpcId
  extraAccounts : List AccountName
  distinctTokens :
    (extraAccounts.map
      (fun account => extraAccountSecretToken account.val)).Nodup

/- What the arguments lead to. -/
inductive ParseResult where
  | help
  | refused (message : String)
  | run (outputRoot : String) (request : Request)

theorem distinctTokens_of_ok
    {accounts : List AccountName}
    (hOk :
      validateExtraAccountTokens []
        (accounts.map Subtype.val) = .ok ()) :
    (accounts.map
      (fun account =>
        extraAccountSecretToken account.val)).Nodup := by
  have hNames :
      ∀ name ∈ accounts.map Subtype.val,
        isAccountName name = true := by
    intro name hMem
    rcases List.mem_map.mp hMem with ⟨account, _, hEq⟩
    rw [← hEq]
    exact isAccountName_val account
  have hNodup :=
    (validateExtraAccountTokens_ok_iff List.nodup_nil
      hNames).mp hOk
  simpa [Function.comp_def] using hNodup

/- The end of `parse_args`, when no argument is left. -/
def finishArgs
    (defaultRoot outputRoot : String)
    (cpcIds : List CpcId)
    (accounts : List AccountName) : ParseResult :=
  match hTokens :
      validateExtraAccountTokens []
        (accounts.map Subtype.val) with
  | .error message => .refused message
  | .ok () =>
      .run (if outputRoot = "" then defaultRoot else outputRoot)
        { cpcIds := cpcIds
          extraAccounts := accounts
          distinctTokens := distinctTokens_of_ok hTokens }

/- The loop over the arguments. -/
def parseArgs
    (defaultRoot : String) :
    String → List CpcId → List AccountName → List String →
      ParseResult
| outputRoot, cpcIds, accounts, [] =>
    finishArgs defaultRoot outputRoot cpcIds accounts
| outputRoot, cpcIds, accounts, arg :: rest =>
    if arg = "-o" ∨ arg = "--output" then
      match rest with
      | [] => .refused ("ERROR: " ++ arg ++ " requires a value")
      | value :: rest =>
          parseArgs defaultRoot value cpcIds accounts rest
    else if arg = "-h" ∨ arg = "--help" then
      .help
    else if arg = "--extra-account" then
      match rest with
      | [] => .refused ("ERROR: " ++ arg ++ " requires a value")
      | value :: rest =>
          match hName : validateExtraAccountName value with
          | .error message => .refused message
          | .ok () =>
              parseArgs defaultRoot outputRoot cpcIds
                (accounts ++ [⟨value, hName⟩]) rest
    else if Go.hasPrefix arg "-" then
      .refused ("ERROR: Unknown option: " ++ arg)
    else
      match hId : validateCpcId arg with
      | .error message => .refused message
      | .ok () =>
          parseArgs defaultRoot outputRoot
            (cpcIds ++ [⟨arg, hId⟩]) accounts rest

end GenerateNkeys

------------------------------------------------------------
-- Leaf Connections
------------------------------------------------------------

namespace GenerateNkeys

open EventBus (IsLowerToken)

/-
  A leaf connection: of a CPC, for the built-in account or for
  the token of an extra one.
-/
structure Leaf where
  cpcId : String
  account : Option String
  cpcIdToken : IsLowerToken cpcId
  accountToken : ∀ token ∈ account, IsLowerToken token

/- The cluster of a CPC, as the name of its directory. -/
def cpcCluster (cpcId : String) : String :=
  "cpc-" ++ cpcId

def Leaf.cluster (leaf : Leaf) : String :=
  cpcCluster leaf.cpcId

/- The secrets of a leaf: on the CSC side, and on the CPC's. -/
def Leaf.cscSecret (leaf : Leaf) : String :=
  match leaf.account with
  | none => "nats-leaf-cpc-" ++ leaf.cpcId
  | some token => "nats-leaf-" ++ token ++ "-cpc-" ++ leaf.cpcId

def Leaf.cpcSecret (leaf : Leaf) : String :=
  match leaf.account with
  | none => "nats-leaf-csc"
  | some token => "nats-leaf-" ++ token ++ "-csc"

def builtInLeaf (cpcId : CpcId) : Leaf where
  cpcId := cpcId.val
  account := none
  cpcIdToken :=
    EventBus.isLowerToken_of_isCpcId
      ((validateCpcId_ok_iff _).mp cpcId.property)
  accountToken := by simp

def accountLeaf
    (cpcId : CpcId)
    (account : AccountName) : Leaf where
  cpcId := cpcId.val
  account := some (extraAccountSecretToken account.val)
  cpcIdToken :=
    EventBus.isLowerToken_of_isCpcId
      ((validateCpcId_ok_iff _).mp cpcId.property)
  accountToken := by
    intro token hToken
    rw [← Option.mem_some.mp hToken]
    exact isLowerToken_extraAccountSecretToken
      (isAccountName_val account)

/- The leaves of one requested CPC, in their order. -/
def Request.leavesOf
    (request : Request)
    (cpcId : CpcId) : List Leaf :=
  builtInLeaf cpcId ::
    request.extraAccounts.map (accountLeaf cpcId)

def Request.leaves (request : Request) : List Leaf :=
  request.cpcIds.flatMap request.leavesOf

/- The clusters that a run is asked for. -/
def Request.clusters (request : Request) : List String :=
  "csc" :: request.cpcIds.map (fun cpcId => cpcCluster cpcId.val)

/- The parts of a secret's name between its dashes. -/
def Leaf.cscParts (leaf : Leaf) : List String :=
  "nats" :: "leaf" :: (leaf.account.toList ++
    ["cpc", leaf.cpcId])

def Leaf.cpcParts (leaf : Leaf) : List String :=
  "nats" :: "leaf" :: (leaf.account.toList ++ ["csc"])

theorem split_cscSecret (leaf : Leaf) :
    Go.split leaf.cscSecret '-' = leaf.cscParts := by
  have hId : '-' ∉ leaf.cpcId.toList :=
    leaf.cpcIdToken.not_mem (by decide)
  have hJoin :
      leaf.cscSecret = Go.join leaf.cscParts '-' := by
    apply String.toList_inj.mp
    cases hAccount : leaf.account with
    | none =>
        simp [Leaf.cscSecret, Leaf.cscParts, hAccount, Go.join,
          List.intercalate, List.intersperse]
    | some token =>
        simp [Leaf.cscSecret, Leaf.cscParts, hAccount, Go.join,
          List.intercalate, List.intersperse]
  rw [hJoin]
  apply Go.split_join
  · simp [Leaf.cscParts]
  · cases hAccount : leaf.account with
    | none => simp [Leaf.cscParts, hAccount, hId]
    | some token =>
        have hToken : '-' ∉ token.toList :=
          (leaf.accountToken token hAccount).not_mem
            (by decide)
        simp [Leaf.cscParts, hAccount, hId, hToken]

theorem split_cpcSecret (leaf : Leaf) :
    Go.split leaf.cpcSecret '-' = leaf.cpcParts := by
  have hJoin :
      leaf.cpcSecret = Go.join leaf.cpcParts '-' := by
    apply String.toList_inj.mp
    cases hAccount : leaf.account with
    | none =>
        simp [Leaf.cpcSecret, Leaf.cpcParts, hAccount, Go.join,
          List.intercalate, List.intersperse]
    | some token =>
        simp [Leaf.cpcSecret, Leaf.cpcParts, hAccount, Go.join,
          List.intercalate, List.intersperse]
  rw [hJoin]
  apply Go.split_join
  · simp [Leaf.cpcParts]
  · cases hAccount : leaf.account with
    | none => simp [Leaf.cpcParts, hAccount]
    | some token =>
        have hToken : '-' ∉ token.toList :=
          (leaf.accountToken token hAccount).not_mem
            (by decide)
        simp [Leaf.cpcParts, hAccount, hToken]

theorem Leaf.ext_of_eq
    {first second : Leaf}
    (hId : first.cpcId = second.cpcId)
    (hAccount : first.account = second.account) :
    first = second := by
  rcases first with ⟨id, account, hIdToken, hToken⟩
  rcases second with ⟨id', account', hIdToken', hToken'⟩
  cases hId
  cases hAccount
  rfl

theorem option_eq_of_toList_eq
    {α : Type}
    {first second : Option α}
    (hList : first.toList = second.toList) :
    first = second := by
  have hHead := congrArg List.head? hList
  cases first with
  | none =>
      cases second with
      | none => rfl
      | some value => simp at hHead
  | some value =>
      cases second with
      | none => simp at hHead
      | some other => simpa using hHead

/- The secret on the CSC side tells the leaf. -/
theorem cscSecret_injective
    {first second : Leaf}
    (hSecret : first.cscSecret = second.cscSecret) :
    first = second := by
  have hParts : first.cscParts = second.cscParts := by
    rw [← split_cscSecret, ← split_cscSecret, hSecret]
  have hTails :
      first.account.toList ++ ["cpc", first.cpcId] =
        second.account.toList ++ ["cpc", second.cpcId] := by
    simpa [Leaf.cscParts] using hParts
  have hSplit := List.append_inj' hTails rfl
  apply Leaf.ext_of_eq
  · simpa using hSplit.2
  · exact option_eq_of_toList_eq hSplit.1

/- The secret on the CPC side tells the account. -/
theorem cpcSecret_injective
    {first second : Leaf}
    (hSecret : first.cpcSecret = second.cpcSecret) :
    first.account = second.account := by
  have hParts : first.cpcParts = second.cpcParts := by
    rw [← split_cpcSecret, ← split_cpcSecret, hSecret]
  have hTails :
      first.account.toList ++ ["csc"] =
        second.account.toList ++ ["csc"] := by
    simpa [Leaf.cpcParts] using hParts
  exact option_eq_of_toList_eq
    (List.append_inj' hTails rfl).1

theorem cpcCluster_injective
    {first second : String}
    (hCluster : cpcCluster first = cpcCluster second) :
    first = second := by
  have hChars := congrArg String.toList hCluster
  apply String.toList_inj.mp
  simpa [cpcCluster] using hChars

theorem cpcCluster_ne_csc (cpcId : String) :
    cpcCluster cpcId ≠ "csc" := by
  intro hEq
  have hChars := congrArg String.toList hEq
  simp [cpcCluster] at hChars

end GenerateNkeys
