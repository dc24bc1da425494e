import DsxExchange.AuthCallout.Auth.NKey
import DsxExchange.Go.Strings

/-
  The form of NKeys, and whether the two ways of
  authenticating by one agree.

  Key definitions include:
    * `AuthCallout.Auth.crc16`, `AuthCallout.Auth.encode`
    * `AuthCallout.Auth.validateNKey`
    * `AuthCallout.Auth.NKeyAuthenticator.authenticate`
    * `AuthCallout.Auth.NKeyAuthenticator.Agrees`

  Key theorems include:
    * `AuthCallout.Auth.validateNKey_ok_iff`
    * `AuthCallout.Auth.NKeyAuthenticator.agrees_iff`
-/

------------------------------------------------------------
-- The Encoding Of Keys
------------------------------------------------------------

namespace AuthCallout

namespace Auth

/- `crc16tab`. -/
def crc16tab : List UInt16 :=
  [0x0000, 0x1021, 0x2042, 0x3063, 0x4084, 0x50a5, 0x60c6,
    0x70e7, 0x8108, 0x9129, 0xa14a, 0xb16b, 0xc18c, 0xd1ad,
    0xe1ce, 0xf1ef, 0x1231, 0x0210, 0x3273, 0x2252, 0x52b5,
    0x4294, 0x72f7, 0x62d6, 0x9339, 0x8318, 0xb37b, 0xa35a,
    0xd3bd, 0xc39c, 0xf3ff, 0xe3de, 0x2462, 0x3443, 0x0420,
    0x1401, 0x64e6, 0x74c7, 0x44a4, 0x5485, 0xa56a, 0xb54b,
    0x8528, 0x9509, 0xe5ee, 0xf5cf, 0xc5ac, 0xd58d, 0x3653,
    0x2672, 0x1611, 0x0630, 0x76d7, 0x66f6, 0x5695, 0x46b4,
    0xb75b, 0xa77a, 0x9719, 0x8738, 0xf7df, 0xe7fe, 0xd79d,
    0xc7bc, 0x48c4, 0x58e5, 0x6886, 0x78a7, 0x0840, 0x1861,
    0x2802, 0x3823, 0xc9cc, 0xd9ed, 0xe98e, 0xf9af, 0x8948,
    0x9969, 0xa90a, 0xb92b, 0x5af5, 0x4ad4, 0x7ab7, 0x6a96,
    0x1a71, 0x0a50, 0x3a33, 0x2a12, 0xdbfd, 0xcbdc, 0xfbbf,
    0xeb9e, 0x9b79, 0x8b58, 0xbb3b, 0xab1a, 0x6ca6, 0x7c87,
    0x4ce4, 0x5cc5, 0x2c22, 0x3c03, 0x0c60, 0x1c41, 0xedae,
    0xfd8f, 0xcdec, 0xddcd, 0xad2a, 0xbd0b, 0x8d68, 0x9d49,
    0x7e97, 0x6eb6, 0x5ed5, 0x4ef4, 0x3e13, 0x2e32, 0x1e51,
    0x0e70, 0xff9f, 0xefbe, 0xdfdd, 0xcffc, 0xbf1b, 0xaf3a,
    0x9f59, 0x8f78, 0x9188, 0x81a9, 0xb1ca, 0xa1eb, 0xd10c,
    0xc12d, 0xf14e, 0xe16f, 0x1080, 0x00a1, 0x30c2, 0x20e3,
    0x5004, 0x4025, 0x7046, 0x6067, 0x83b9, 0x9398, 0xa3fb,
    0xb3da, 0xc33d, 0xd31c, 0xe37f, 0xf35e, 0x02b1, 0x1290,
    0x22f3, 0x32d2, 0x4235, 0x5214, 0x6277, 0x7256, 0xb5ea,
    0xa5cb, 0x95a8, 0x8589, 0xf56e, 0xe54f, 0xd52c, 0xc50d,
    0x34e2, 0x24c3, 0x14a0, 0x0481, 0x7466, 0x6447, 0x5424,
    0x4405, 0xa7db, 0xb7fa, 0x8799, 0x97b8, 0xe75f, 0xf77e,
    0xc71d, 0xd73c, 0x26d3, 0x36f2, 0x0691, 0x16b0, 0x6657,
    0x7676, 0x4615, 0x5634, 0xd94c, 0xc96d, 0xf90e, 0xe92f,
    0x99c8, 0x89e9, 0xb98a, 0xa9ab, 0x5844, 0x4865, 0x7806,
    0x6827, 0x18c0, 0x08e1, 0x3882, 0x28a3, 0xcb7d, 0xdb5c,
    0xeb3f, 0xfb1e, 0x8bf9, 0x9bd8, 0xabbb, 0xbb9a, 0x4a75,
    0x5a54, 0x6a37, 0x7a16, 0x0af1, 0x1ad0, 0x2ab3, 0x3a92,
    0xfd2e, 0xed0f, 0xdd6c, 0xcd4d, 0xbdaa, 0xad8b, 0x9de8,
    0x8dc9, 0x7c26, 0x6c07, 0x5c64, 0x4c45, 0x3ca2, 0x2c83,
    0x1ce0, 0x0cc1, 0xef1f, 0xff3e, 0xcf5d, 0xdf7c, 0xaf9b,
    0xbfba, 0x8fd9, 0x9ff8, 0x6e17, 0x7e36, 0x4e55, 0x5e74,
    0x2e93, 0x3eb2, 0x0ed1, 0x1ef0]

/- One round of `crc16`. -/
def crc16Step (crc : UInt16) (b : UInt8) : UInt16 :=
  let index : UInt16 :=
    ((crc >>> 8) ^^^ b.toUInt16) &&& 0x00FF
  ((crc <<< 8) &&& (0xffff : UInt16)) ^^^
    crc16tab.getD index.toNat 0

/- `crc16`. -/
def crc16 (data : List UInt8) : UInt16 :=
  data.foldl crc16Step 0

def prefixByteSeed : UInt8 := 144
def prefixBytePrivate : UInt8 := 120
def prefixByteServer : UInt8 := 104
def prefixByteCluster : UInt8 := 16
def prefixByteOperator : UInt8 := 112
def prefixByteAccount : UInt8 := 0
def prefixByteUser : UInt8 := 160
def prefixByteCurve : UInt8 := 184

/- `checkValidPrefixByte`. -/
def checkValidPrefixByte (kind : UInt8) :
    Except String Unit :=
  if kind ∈
      [prefixByteOperator, prefixByteServer,
        prefixByteCluster, prefixByteAccount,
        prefixByteUser, prefixByteSeed, prefixBytePrivate,
        prefixByteCurve] then
    .ok ()
  else
    .error "nkeys: invalid prefix byte"

/- A digit of `base32.StdEncoding`. -/
def base32Digit (value : ℕ) : Char :=
  if value < 26 then
    Char.ofNat (value + 65)
  else
    Char.ofNat (value - 26 + 50)

/- `b32Enc.Encode`, five bytes after another. -/
def base32Chars : List ℕ → List Char
| a :: b :: c :: d :: e :: rest =>
    base32Digit (a / 8) ::
      base32Digit (a % 8 * 4 + b / 64) ::
      base32Digit (b / 2 % 32) ::
      base32Digit (b % 2 * 16 + c / 16) ::
      base32Digit (c % 16 * 2 + d / 128) ::
      base32Digit (d / 4 % 32) ::
      base32Digit (d % 4 * 8 + e / 32) ::
      base32Digit (e % 32) :: base32Chars rest
| [a, b, c, d] =>
    [base32Digit (a / 8),
      base32Digit (a % 8 * 4 + b / 64),
      base32Digit (b / 2 % 32),
      base32Digit (b % 2 * 16 + c / 16),
      base32Digit (c % 16 * 2 + d / 128),
      base32Digit (d / 4 % 32),
      base32Digit (d % 4 * 8)]
| [a, b, c] =>
    [base32Digit (a / 8),
      base32Digit (a % 8 * 4 + b / 64),
      base32Digit (b / 2 % 32),
      base32Digit (b % 2 * 16 + c / 16),
      base32Digit (c % 16 * 2)]
| [a, b] =>
    [base32Digit (a / 8),
      base32Digit (a % 8 * 4 + b / 64),
      base32Digit (b / 2 % 32),
      base32Digit (b % 2 * 16)]
| [a] => [base32Digit (a / 8), base32Digit (a % 8 * 4)]
| [] => []

/- `Encode`: the prefix byte, the key and a checksum. -/
def encode (kind : UInt8) (src : List UInt8) :
    Except String String :=
  match checkValidPrefixByte kind with
  | .error err => .error err
  | .ok () =>
      let raw := kind :: src
      let crc := crc16 raw
      let data := raw ++ [crc.toUInt8, (crc >>> 8).toUInt8]
      .ok (String.ofList (base32Chars (data.map UInt8.toNat)))

/- `PublicKey`, of a key pair without its private half. -/
def KeyPair.publicKey (kp : KeyPair) : Except String String :=
  encode kp.prefixByte kp.pub

/- `validateNKey`. -/
def validateNKey
    (libs : Libraries)
    (publicKey : String) : Except Go.Fault Unit :=
  match libs.fromPublicKey publicKey with
  | .error err =>
      .error (.error ("failed to parse NKey: " ++ err))
  | .ok kp =>
      match Go.bytes publicKey with
      | [] => .error .panic
      | first :: _ =>
          if first ≠ 85 then
            .error (.error
              ("NKey must be a user key (start with 'U'), " ++
                "got: " ++
                String.singleton (Char.ofNat first.toNat)))
          else
            match kp.publicKey with
            | .error err =>
                .error (.error
                  ("invalid NKey public key: " ++ err))
            | .ok pubKey =>
                if pubKey ≠ publicKey then
                  .error (.error "NKey public key mismatch")
                else
                  .ok ()

end Auth

end AuthCallout

------------------------------------------------------------
-- Valid Keys
------------------------------------------------------------

namespace AuthCallout

namespace Auth

/-
  The text decodes to a user key, and is the one text that
  the user key is encoded as.
-/
structure IsUserKey
    (libs : Libraries)
    (publicKey : String) : Prop where
  canonical :
    ∃ pub,
      libs.fromPublicKey publicKey =
          .ok ⟨prefixByteUser, pub⟩ ∧
        encode prefixByteUser pub = .ok publicKey

/- A row of digits starts with the first five bits. -/
theorem base32Chars_cons (first : ℕ) (rest : List ℕ) :
    ∃ digits,
      base32Chars (first :: rest) =
        base32Digit (first / 8) :: digits := by
  unfold base32Chars
  split
  all_goals simp_all

theorem mem_of_checkValidPrefixByte
    {kind : UInt8}
    (hValid : checkValidPrefixByte kind = .ok ()) :
    kind ∈
      [prefixByteOperator, prefixByteServer,
        prefixByteCluster, prefixByteAccount,
        prefixByteUser, prefixByteSeed, prefixBytePrivate,
        prefixByteCurve] := by
  unfold checkValidPrefixByte at hValid
  split at hValid
  · rename_i hMem
    exact hMem
  · cases hValid

theorem encode_ok
    {kind : UInt8}
    {src : List UInt8}
    {text : String}
    (hEncode : encode kind src = .ok text) :
    checkValidPrefixByte kind = .ok () ∧
      ∃ digits,
        text.toList = base32Digit (kind.toNat / 8) :: digits := by
  unfold encode at hEncode
  cases hValid : checkValidPrefixByte kind with
  | error err =>
      rw [hValid] at hEncode
      cases hEncode
  | ok _ =>
      rw [hValid] at hEncode
      have hText := Except.ok.inj hEncode
      refine ⟨rfl, ?_⟩
      rw [← hText, String.toList_ofList, List.cons_append,
        List.map_cons]
      exact base32Chars_cons _ _

/- The letter of a key is 'U' if it is a user key. -/
theorem bytes_of_encode
    {kind : UInt8}
    {src : List UInt8}
    {text : String}
    (hEncode : encode kind src = .ok text) :
    ∃ first rest,
      Go.bytes text = first :: rest ∧
        (first = 85 ↔ kind = prefixByteUser) := by
  rcases encode_ok hEncode with ⟨hValid, digits, hDigits⟩
  have hMem := mem_of_checkValidPrefixByte hValid
  unfold Go.bytes
  rw [hDigits, List.flatMap_cons]
  simp only [List.mem_cons, List.not_mem_nil, or_false]
    at hMem
  rcases hMem with
    rfl | rfl | rfl | rfl | rfl | rfl | rfl | rfl <;>
    exact ⟨_, _, rfl, by decide⟩

/- A key pair whose text starts with 'U' is a user's. -/
theorem isUserKey_of_first
    {libs : Libraries}
    {publicKey : String}
    {kp : KeyPair}
    (hKey : libs.fromPublicKey publicKey = .ok kp)
    (hPublic : kp.publicKey = .ok publicKey)
    {rest : List UInt8}
    (hBytes : Go.bytes publicKey = 85 :: rest) :
    IsUserKey libs publicKey := by
  rcases kp with ⟨kind, pub⟩
  change encode kind pub = .ok publicKey at hPublic
  rcases bytes_of_encode hPublic with
    ⟨first, others, hOthers, hFirst⟩
  rw [hBytes, List.cons.injEq] at hOthers
  have hUser : kind = prefixByteUser :=
    hFirst.mp hOthers.1.symm
  rw [hUser] at hKey hPublic
  exact ⟨pub, hKey, hPublic⟩

/- What is accepted are user keys in their one form. -/
theorem validateNKey_ok_iff
    {libs : Libraries}
    {publicKey : String} :
    validateNKey libs publicKey = .ok () ↔
      IsUserKey libs publicKey := by
  constructor
  · intro hOk
    unfold validateNKey at hOk
    cases hKey : libs.fromPublicKey publicKey with
    | error err =>
        rw [hKey] at hOk
        cases hOk
    | ok kp =>
        rw [hKey] at hOk
        dsimp only at hOk
        split at hOk
        · cases hOk
        · rename_i first rest hBytes
          split at hOk
          · cases hOk
          · rename_i hFirst
            split at hOk
            · cases hOk
            · rename_i pubKey hPublic
              split at hOk
              · cases hOk
              · rename_i hCanonical
                rw [not_not] at hFirst hCanonical
                rw [hCanonical] at hPublic
                exact isUserKey_of_first hKey hPublic
                  (hFirst ▸ hBytes)
  · intro hUser
    rcases hUser.canonical with ⟨pub, hKey, hEncode⟩
    rcases bytes_of_encode hEncode with
      ⟨first, rest, hBytes, hFirst⟩
    have hLetter : first = 85 := hFirst.mpr rfl
    unfold validateNKey
    rw [hKey, hBytes]
    simp [hLetter, KeyPair.publicKey, hEncode]

end Auth

end AuthCallout

------------------------------------------------------------
-- The Two Paths
------------------------------------------------------------

namespace AuthCallout

namespace Auth

open Cells Config

namespace NKeyAuthenticator

/- The end of `Authenticate`, after its lookup. -/
def checkListed :
    Except Go.Fault (Option UserProfile) →
      Except Go.Fault UserProfile
| .error fault => .error fault
| .ok none =>
    .error (.error "NKey not found in permissions config")
| .ok (some profile) => .ok profile

/- `Authenticate`. -/
def authenticate
    (libs : Libraries)
    (publicKey : String) : Lookup UserProfile :=
  match Go.wrapError "invalid NKey: "
      (validateNKey libs publicKey) with
  | .error fault => .done (.error fault)
  | .ok () =>
      thenReturn (getNKeyProfile publicKey) checkListed

/-
  What `TryAuthenticate` accepts a request with,
  `Authenticate` accepts its key with.
-/
def Agrees
    (libs : Libraries)
    (w : World)
    (rc : AuthorizationRequest) : Prop :=
  ∀ profile,
    (tryAuthenticate libs rc).eval w = .ok profile →
      (authenticate libs rc.connectOptions.nkey).eval w =
        .ok profile

/- The permissions have an entry for the key. -/
def Lists (w : World) (publicKey : String) : Prop :=
  ∃ table profile,
    w .nkeyLookup = some table ∧
      table publicKey = some profile

variable {libs : Libraries} {rc : AuthorizationRequest}
variable {w : World} {profile : UserProfile}

theorem checkListed_ok_iff
    {found : Except Go.Fault (Option UserProfile)} :
    checkListed found = .ok profile ↔
      found = .ok (some profile) := by
  rcases found with fault | (_ | other) <;>
    simp [checkListed]

/- A valid key that the permissions list is accepted. -/
theorem authenticate_ok_iff
    {publicKey : String} :
    (authenticate libs publicKey).eval w = .ok profile ↔
      IsUserKey libs publicKey ∧
        ∃ table,
          w .nkeyLookup = some table ∧
            table publicKey = some profile := by
  rw [← validateNKey_ok_iff, ← getNKeyProfile_eval_iff]
  unfold authenticate
  cases hValid : validateNKey libs publicKey with
  | error fault =>
      cases fault <;> simp [Go.wrapError]
  | ok _ =>
      simp only [Go.wrapError, eval_thenReturn,
        checkListed_ok_iff, true_and]

/-
  The paths differ on the keys that are listed and signed
  with, but are not the one form of a user key.
-/
theorem agrees_iff
    (libs : Libraries)
    (w : World)
    (rc : AuthorizationRequest) :
    Agrees libs w rc ↔
      (Lists w rc.connectOptions.nkey →
        Signs libs rc →
          IsUserKey libs rc.connectOptions.nkey) := by
  constructor
  · intro hAgrees hLists hSigns
    rcases hLists with ⟨table, profile, hTable, hProfile⟩
    have hAccepted :=
      hAgrees profile
        (tryAuthenticate_ok_iff.mpr
          ⟨table, hSigns, hTable, hProfile⟩)
    exact (authenticate_ok_iff.mp hAccepted).1
  · intro hUser profile hAccepted
    rcases tryAuthenticate_ok_iff.mp hAccepted with
      ⟨table, hSigns, hTable, hProfile⟩
    exact authenticate_ok_iff.mpr
      ⟨hUser ⟨table, profile, hTable, hProfile⟩ hSigns,
        table, hTable, hProfile⟩

/- An account key that a client may sign with. -/
def accountPublicKey : String :=
  "ADLVVGABQKYQVN6VJP7NHSLEA45A5YLS6PNKMIZFV4BBU2HXA5IRVRTU"

def accountPair : KeyPair where
  prefixByte := prefixByteAccount
  pub :=
    [215, 90, 152, 1, 130, 177, 10, 183, 213, 75, 254, 211,
      201, 100, 7, 58, 14, 225, 114, 243, 218, 166, 35, 37,
      175, 2, 26, 104, 247, 7, 81, 26]

example : accountPair.publicKey = .ok accountPublicKey := by
  decide +kernel

/- The signature of a nonce under that key. -/
def accountSignature : List UInt8 :=
  [73, 20, 164, 34, 46, 212, 172, 22, 28, 100, 113, 188, 233,
    19, 231, 124, 187, 87, 108, 198, 172, 230, 110, 176, 226,
    69, 244, 238, 142, 253, 165, 224, 0, 241, 219, 178, 134,
    206, 19, 242, 241, 5, 0, 34, 173, 254, 140, 159, 127, 128,
    132, 9, 204, 162, 0, 55, 253, 173, 251, 159, 77, 19, 13,
    5]

/- Libraries as they act on the account key. -/
def accountLibraries : Libraries where
  readFile := fun _ => .error "no such file or directory"
  newKeyfunc := fun url => .ok ⟨url⟩
  parseWithClaims := fun _ _ _ _ _ =>
    .error "token is unverifiable"
  pemDecode := fun _ => none
  parseCertificate := fun _ =>
    .error "x509: malformed certificate"
  certsFromPEM := fun _ => []
  verify := fun _ _ =>
    .error "x509: certificate signed by unknown authority"
  fromPublicKey := fun publicKey =>
    if publicKey = accountPublicKey then
      .ok accountPair
    else
      .error "nkeys: invalid encoded key"
  ed25519Verify := fun pub input sig =>
    pub = accountPair.pub ∧ input = bytesOf "nonce" ∧
      sig = accountSignature

/- Permissions that list the account key. -/
def accountWorld : World :=
  world (.malformed "")
    { noauth := none
      oauth2 := some Go.Table.empty
      mtls := some Go.Table.empty
      nkey :=
        some fun publicKey =>
          if publicKey = accountPublicKey then
            some ⟨"service", "APP", .zero⟩
          else
            none }

def accountRequest : AuthorizationRequest where
  userNkey :=
    "UDXU4RCSJNZOIQHZNWXHXORDPRTGNJAHAHFRGZNEEJCPQTT2M7NLCNF4"
  clientInformation := ⟨"nonce"⟩
  connectOptions :=
    ⟨"", "", "", accountPublicKey,
      "SRSkIi7UrBYcZHG86RPnfLtXbMas5m6w4kX07o79peAA8duyhs4T8vEFACKt_oyff4CECcyiADf9rfufTRMNBQ"⟩
  tls := none

/- The service takes the account key, the check does not. -/
theorem not_agrees_accountKey :
    (tryAuthenticate accountLibraries accountRequest).eval
        accountWorld = .ok ⟨"service", "APP", .zero⟩ ∧
      validateNKey accountLibraries accountPublicKey =
        .error (.error
          "NKey must be a user key (start with 'U'), got: A") ∧
      ¬ Agrees accountLibraries accountWorld
        accountRequest := by
  have hSigned :
      Go.decodeRawURL
          accountRequest.connectOptions.signedNonce =
        .ok accountSignature := by
    decide +kernel
  have hAccepted :
      (tryAuthenticate accountLibraries accountRequest).eval
          accountWorld = .ok ⟨"service", "APP", .zero⟩ := by
    apply tryAuthenticate_ok_iff.mpr
    refine ⟨_, ⟨by decide, by decide, ?_⟩, rfl, ?_⟩
    · refine ⟨accountPair, accountSignature, ?_, hSigned, ?_,
        ?_⟩
      · simp [accountLibraries, accountRequest]
      · decide
      · simp [accountLibraries, accountRequest]
    · exact if_pos rfl
  have hRejected :
      validateNKey accountLibraries accountPublicKey =
        .error (.error
          "NKey must be a user key (start with 'U'), got: A") := by
    decide +kernel
  refine ⟨hAccepted, hRejected, fun hAgrees => ?_⟩
  have hUser :=
    (authenticate_ok_iff.mp (hAgrees _ hAccepted)).1
  rw [← validateNKey_ok_iff] at hUser
  change validateNKey accountLibraries accountPublicKey = _
    at hUser
  rw [hRejected] at hUser
  cases hUser

end NKeyAuthenticator

end Auth

end AuthCallout
