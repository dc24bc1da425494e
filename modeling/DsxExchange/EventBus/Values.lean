import DsxExchange.Go.Maps
import DsxExchange.Go.Text

/-
  The values of the chart as its templates read them, and the
  tokens that names are made of.

  Key definitions include:
    * `EventBus.Scalar`, `EventBus.Scalar.toText`,
      `EventBus.Scalar.printfText`
    * `EventBus.Values`
    * `EventBus.extraAccountEnvName`,
      `EventBus.extraAccountSecretName`
    * `EventBus.isCpcId`, `EventBus.isAccountName`

  Key theorems include:
    * `EventBus.extraAccountEnvName_of_isAccountName`
    * `EventBus.extraAccountSecretName_of_isAccountName`
-/

------------------------------------------------------------
-- Scalars
------------------------------------------------------------

namespace EventBus

/- The Go types in which numbers arrive in a template. -/
inductive NumericType where
  | int
  | int64
  | float64
deriving DecidableEq, Repr

def NumericType.name : NumericType → String
| .int => "int"
| .int64 => "int64"
| .float64 => "float64"

/- A scalar of the values; a number has its text under `%v`. -/
inductive Scalar where
  | null
  | bool (value : Bool)
  | number (type : NumericType) (text : String)
  | string (value : String)
deriving DecidableEq, Repr

namespace Scalar

def boolText : Bool → String
| true => "true"
| false => "false"

/- The function `toString` of the templates. -/
def toText : Scalar → String
| null => "<nil>"
| bool value => boolText value
| number _ text => text
| string value => value

/-
  The text of a value under the verb `%s`, with the report on
  a bad verb for one that is not a string.
-/
def printfText : Scalar → String
| null => "%!s(<nil>)"
| bool value => "%!s(bool=" ++ boolText value ++ ")"
| number type text => "%!s(" ++ type.name ++ "=" ++ text ++ ")"
| string value => value

def IsString : Scalar → Prop
| string _ => True
| _ => False

instance (value : Scalar) : Decidable value.IsString := by
  cases value <;> unfold IsString <;> infer_instance

/- The value does not pass the function `required`. -/
def isMissing (value : Scalar) : Bool :=
  value = null || value = string ""

theorem printfText_eq_toText_of_isString
    {value : Scalar}
    (hString : value.IsString) :
    value.printfText = value.toText := by
  cases value with
  | string text => rfl
  | null => exact absurd hString id
  | bool text => exact absurd hString id
  | number type text => exact absurd hString id

end Scalar

end EventBus

------------------------------------------------------------
-- Values
------------------------------------------------------------

namespace EventBus

/- The key `enabled` by its truth, when the key is there. -/
structure ExtraAccount where
  enabled : Option Bool

def ExtraAccount.isEnabled (config : ExtraAccount) : Bool :=
  config.enabled.getD true

structure CrossLayer where
  cscExports : List String
  cscPrefixedExports : List String
  cpcExports : List String

structure NkeyPermission where
  publicKey : String
  account : String
deriving DecidableEq, Repr

/- The value of an environment variable of a container. -/
inductive ValueTree where
  | text (value : String)
  | fieldRef (path : String)
  | secretKeyRef (name key : String)
  | verbatim (yaml : String)
deriving DecidableEq, Repr

/-
  The replacements of secret references, by default secret
  name and key. Without a value the entry is not a map.
-/
abbrev Overrides := Option (Go.Map (Option (Go.Map ValueTree)))

/-
  The values that the templates read. A missing map or list
  is empty, a missing text the empty one; the entries of a map
  are listed in the order of their names, as `range` takes
  them.
-/
structure Values where
  clusterType : String
  clusterId : Scalar
  cscEndpoint : String
  cpcIds : List Scalar
  crossLayer : CrossLayer
  mtlsEnabled : Bool
  extraAccounts : Go.Map ExtraAccount
  nkeyPermissions : Go.Map NkeyPermission
  nkeySecretRefOverrides : Overrides
  authCalloutExtraEnvs : Go.Map ValueTree

/- The names of the enabled accounts among entries. -/
def enabledNames
    (entries : List (Go.Entry ExtraAccount)) : List String :=
  (entries.filter (fun entry => entry.2.isEnabled)).map
    Sigma.fst

def Values.enabledAccounts (values : Values) : List String :=
  enabledNames values.extraAccounts.entries

theorem Values.nodup_enabledAccounts (values : Values) :
    values.enabledAccounts.Nodup := by
  have hKeys :
      (values.extraAccounts.entries.map Sigma.fst).Nodup :=
    values.extraAccounts.nodupKeys
  exact hKeys.sublist (List.filter_sublist.map _)

end EventBus

------------------------------------------------------------
-- Tokens Of Names
------------------------------------------------------------

namespace EventBus

/- The case mappings of the templates on ASCII names. -/
def upper (s : String) : String :=
  String.ofList (s.toList.map Char.toUpper)

def lower (s : String) : String :=
  String.ofList (s.toList.map Char.toLower)

/- `regexReplaceAll` of a class of single characters. -/
def replaceChars
    (replaced : Char → Bool)
    (new : Char)
    (s : String) : String :=
  String.ofList
    (s.toList.map (fun c => if replaced c then new else c))

/- `trimAll` of a single character. -/
def trimAll (c : Char) (s : String) : String :=
  String.ofList
    (((s.toList.dropWhile (· = c)).reverse.dropWhile
      (· = c)).reverse)

def isLowerAlnum (c : Char) : Bool :=
  c.isLower || c.isDigit

def isUpperAlnum (c : Char) : Bool :=
  c.isUpper || c.isDigit

/- The expression `^[a-z0-9]+$`. -/
def isCpcId (s : String) : Bool :=
  s ≠ "" && s.toList.all isLowerAlnum

/- The expression `^[A-Za-z][A-Za-z0-9]*$`. -/
def isAccountName (s : String) : Bool :=
  match s.toList with
  | [] => false
  | first :: rest =>
      first.isAlpha && rest.all Char.isAlphanum

def extraAccountEnvName (accountName : String) : String :=
  replaceChars (fun c => !isUpperAlnum c) '_'
    (upper accountName)

def extraAccountSecretName (accountName : String) : String :=
  trimAll '-'
    (replaceChars (fun c => !(isLowerAlnum c || c = '-')) '-'
      (lower accountName))

end EventBus

------------------------------------------------------------
-- Tokens Of Accepted Names
------------------------------------------------------------

namespace EventBus

@[simp] theorem toList_upper (s : String) :
    (upper s).toList = s.toList.map Char.toUpper := by
  simp [upper]

@[simp] theorem toList_lower (s : String) :
    (lower s).toList = s.toList.map Char.toLower := by
  simp [lower]

/- A decidable property of every ASCII character. -/
theorem of_forall_ascii
    {p : Char → Prop}
    (hAll : ∀ n : Fin 128, p (Char.ofNat n))
    {c : Char}
    (hAscii : c.toNat < 128) :
    p c := by
  have hChar := hAll ⟨c.toNat, hAscii⟩
  rwa [Char.ofNat_toNat] at hChar

theorem isAlphanum_eq (c : Char) :
    c.isAlphanum = ((c.isUpper || c.isLower) || c.isDigit) :=
  rfl

theorem isAlphanum_of_isLowerAlnum
    {c : Char}
    (hChar : isLowerAlnum c = true) :
    c.isAlphanum = true := by
  rw [isAlphanum_eq]
  rcases Bool.or_eq_true_iff.mp hChar with hLower | hDigit
  · simp [hLower]
  · simp [hDigit]

theorem isAlphanum_of_isUpperAlnum
    {c : Char}
    (hChar : isUpperAlnum c = true) :
    c.isAlphanum = true := by
  rw [isAlphanum_eq]
  rcases Bool.or_eq_true_iff.mp hChar with hUpper | hDigit
  · simp [hUpper]
  · simp [hDigit]

theorem toNat_lt_of_isAlphanum
    {c : Char}
    (hChar : c.isAlphanum = true) :
    c.toNat < 128 := by
  have hUpper :
      c.isUpper =
        decide ('A'.val ≤ c.val ∧ c.val ≤ 'Z'.val) :=
    rfl
  have hLower :
      c.isLower =
        (decide ('a'.val ≤ c.val) && decide (c.val ≤ 'z'.val)) :=
    rfl
  have hDigit :
      c.isDigit =
        (decide ('0'.val ≤ c.val) && decide (c.val ≤ '9'.val)) :=
    rfl
  rw [isAlphanum_eq, hUpper, hLower, hDigit] at hChar
  simp only [Bool.or_eq_true, Bool.and_eq_true,
    decide_eq_true_eq, UInt32.le_iff_toNat_le] at hChar
  have hNat : c.toNat = c.val.toNat := rfl
  have hZ : 'Z'.val.toNat = 90 := rfl
  have hSmallZ : 'z'.val.toNat = 122 := rfl
  have hNine : '9'.val.toNat = 57 := rfl
  omega

theorem isUpperAlnum_toUpper
    {c : Char}
    (hChar : c.isAlphanum = true) :
    isUpperAlnum c.toUpper = true := by
  apply of_forall_ascii
    (p := fun c =>
      c.isAlphanum = true → isUpperAlnum c.toUpper = true)
  · decide
  · exact toNat_lt_of_isAlphanum hChar
  · exact hChar

theorem isLowerAlnum_toLower
    {c : Char}
    (hChar : c.isAlphanum = true) :
    isLowerAlnum c.toLower = true := by
  apply of_forall_ascii
    (p := fun c =>
      c.isAlphanum = true → isLowerAlnum c.toLower = true)
  · decide
  · exact toNat_lt_of_isAlphanum hChar
  · exact hChar

/- The characters of an account name are letters and digits. -/
theorem isAlphanum_of_mem_accountName
    {accountName : String}
    (hName : isAccountName accountName = true)
    {c : Char}
    (hMem : c ∈ accountName.toList) :
    c.isAlphanum = true := by
  unfold isAccountName at hName
  cases hChars : accountName.toList with
  | nil =>
      rw [hChars] at hMem
      simp at hMem
  | cons first rest =>
      rw [hChars] at hName hMem
      have hBoth :
          first.isAlpha = true ∧
            ∀ other ∈ rest, other.isAlphanum = true := by
        simpa using hName
      rcases List.mem_cons.mp hMem with hFirst | hRest
      · simp [hFirst, Char.isAlphanum, hBoth.1]
      · exact hBoth.2 c hRest

theorem accountName_ne_empty
    {accountName : String}
    (hName : isAccountName accountName = true) :
    accountName.toList ≠ [] := by
  intro hNil
  simp [isAccountName, hNil] at hName

/- Nothing is replaced when no character is in the class. -/
theorem replaceChars_of_forall
    {replaced : Char → Bool}
    {new : Char}
    {s : String}
    (hNone : ∀ c ∈ s.toList, replaced c = false) :
    replaceChars replaced new s = s := by
  have hMap :
      s.toList.map (fun c => if replaced c then new else c) =
        s.toList := by
    rw [List.map_congr_left (g := id), List.map_id]
    intro c hMem
    simp [hNone c hMem]
  rw [replaceChars, hMap, String.ofList_toList]

theorem dropWhile_eq_of_not_mem
    {c : Char}
    {chars : List Char}
    (hAbsent : c ∉ chars) :
    chars.dropWhile (· = c) = chars := by
  cases chars with
  | nil => rfl
  | cons first rest =>
      have hFirst : first ≠ c := by
        intro hEq
        exact hAbsent (by simp [hEq])
      simp [hFirst]

theorem trimAll_of_not_mem
    {c : Char}
    {s : String}
    (hAbsent : c ∉ s.toList) :
    trimAll c s = s := by
  have hReverse : c ∉ s.toList.reverse := by
    simpa using hAbsent
  rw [trimAll, dropWhile_eq_of_not_mem hAbsent,
    dropWhile_eq_of_not_mem hReverse,
    List.reverse_reverse, String.ofList_toList]

/- A text of the small letters and the digits. -/
def IsLowerToken (token : String) : Prop :=
  token ≠ "" ∧
    ∀ c ∈ token.toList, isLowerAlnum c = true

/- A text of the capital letters and the digits. -/
def IsUpperToken (token : String) : Prop :=
  token ≠ "" ∧
    ∀ c ∈ token.toList, isUpperAlnum c = true

theorem isLowerToken_of_isCpcId
    {s : String}
    (hId : isCpcId s = true) :
    IsLowerToken s := by
  have hBoth :
      s ≠ "" ∧ ∀ c ∈ s.toList, isLowerAlnum c = true := by
    simpa [isCpcId] using hId
  exact hBoth

/- A token has no characters of other kinds. -/
theorem IsLowerToken.not_mem
    {token : String}
    (hToken : IsLowerToken token)
    {c : Char}
    (hOther : isLowerAlnum c = false) :
    c ∉ token.toList := by
  intro hMem
  rw [hToken.2 c hMem] at hOther
  cases hOther

theorem IsUpperToken.not_mem
    {token : String}
    (hToken : IsUpperToken token)
    {c : Char}
    (hOther : isUpperAlnum c = false) :
    c ∉ token.toList := by
  intro hMem
  rw [hToken.2 c hMem] at hOther
  cases hOther

theorem isLowerToken_lower
    {accountName : String}
    (hName : isAccountName accountName = true) :
    IsLowerToken (lower accountName) := by
  constructor
  · intro hEmpty
    have hChars := congrArg String.toList hEmpty
    exact accountName_ne_empty hName (by simpa using hChars)
  intro c hMem
  rw [toList_lower] at hMem
  rcases List.mem_map.mp hMem with ⟨original, hOriginal, hChar⟩
  rw [← hChar]
  exact isLowerAlnum_toLower
    (isAlphanum_of_mem_accountName hName hOriginal)

theorem isUpperToken_upper
    {accountName : String}
    (hName : isAccountName accountName = true) :
    IsUpperToken (upper accountName) := by
  constructor
  · intro hEmpty
    have hChars := congrArg String.toList hEmpty
    exact accountName_ne_empty hName (by simpa using hChars)
  intro c hMem
  rw [toList_upper] at hMem
  rcases List.mem_map.mp hMem with ⟨original, hOriginal, hChar⟩
  rw [← hChar]
  exact isUpperAlnum_toUpper
    (isAlphanum_of_mem_accountName hName hOriginal)

/- The tokens of an account name differ from it in case only. -/
theorem extraAccountEnvName_of_isAccountName
    {accountName : String}
    (hName : isAccountName accountName = true) :
    extraAccountEnvName accountName = upper accountName := by
  apply replaceChars_of_forall
  intro c hMem
  simp [(isUpperToken_upper hName).2 c hMem]

theorem extraAccountSecretName_of_isAccountName
    {accountName : String}
    (hName : isAccountName accountName = true) :
    extraAccountSecretName accountName =
      lower accountName := by
  have hToken := isLowerToken_lower hName
  rw [extraAccountSecretName, replaceChars_of_forall]
  · exact trimAll_of_not_mem (hToken.not_mem (by decide))
  · intro c hMem
    simp [hToken.2 c hMem]

end EventBus
