import DsxExchange.NatsServer.AuthCallout

/-
  One exchange between a server and the service: what the
  server makes of the reply to its own request is what the
  service decided, and nothing else.

  Key definitions include:
    * `AuthCallout.Callout.Service.Sound`
    * `AuthCallout.Callout.ServerSound`
    * `AuthCallout.Callout.Paired`
    * `AuthCallout.Callout.decision`

  Key theorems include:
    * `AuthCallout.Callout.decode_sendRequest`
    * `AuthCallout.Callout.processReply_eq_decision`
    * `AuthCallout.Callout.readPayload_of_mismatch`
-/

------------------------------------------------------------
-- Keys And Texts
------------------------------------------------------------

namespace AuthCallout

namespace Callout

open Auth NatsJwt

/- Keys of these kinds pass the check of their own kind. -/
theorem isValidPublicKey_of_encode
    {kind : UInt8}
    {src : List UInt8}
    {text : String}
    (hEncode : encode kind src = .ok text)
    (hSrc : src ≠ [])
    (hPlain : kind &&& 248 = kind) :
    isValidPublicKey kind text = true := by
  unfold isValidPublicKey decodePrefixed
  rw [(encode_ok hEncode).1]
  dsimp only
  rw [decodeText_of_encode hEncode hSrc]
  simp only [List.headD_cons, hPlain, ne_eq,
    not_true_eq_false, if_false]
  rfl

/- The key of a server starts with an `N`. -/
theorem hasPrefix_of_encode_server
    {src : List UInt8}
    {text : String}
    (hEncode : encode prefixByteServer src = .ok text) :
    Go.hasPrefix text "N" = true := by
  rcases encode_ok hEncode with ⟨_, digits, hDigits⟩
  unfold Go.hasPrefix
  rw [hDigits]
  rfl

theorem hasPrefix_append
    (start rest : String) :
    Go.hasPrefix (start ++ rest) start = true :=
  Go.hasPrefix_iff.mpr ⟨rest, rfl⟩

def nkeyHeaderBase64 : String :=
  "eyJ0eXAiOiJKV1QiLCJhbGciOiJlZDI1NTE5LW5rZXkifQ"

theorem encodeRawURL_nkeyHeaderText :
    Go.encodeRawURL nkeyHeaderText = nkeyHeaderBase64 := by
  decide +kernel

variable {json : Json} {kp : SigningPair}
variable {claims : NatsJwt.Claims} {token : String}

/- Each token starts with the text of its header. -/
theorem exists_rest_of_stamped
    (hStamped : Stamped json kp claims token) :
    ∃ rest, token = "eyJ0" ++ rest := by
  rcases hStamped.written with ⟨data, sig, _, _, hToken⟩
  refine
    ⟨"eXAiOiJKV1QiLCJhbGciOiJlZDI1NTE5LW5rZXkifQ" ++ "." ++
      Go.encodeRawURL data ++ "." ++ Go.encodeRawURL sig, ?_⟩
  have hHeader :
      nkeyHeaderBase64 =
        "eyJ0" ++
          "eXAiOiJKV1QiLCJhbGciOiJlZDI1NTE5LW5rZXkifQ" := by
    decide
  rw [hToken, inputOf, encodeRawURL_nkeyHeaderText, hHeader]
  simp only [String.append_assoc]

theorem length_of_start
    {start rest data : String}
    (hFour : start.length = 4)
    (hData : data = start ++ rest) :
    ¬ data.length < 4 := by
  rw [hData, String.length_append, hFour]
  omega

/- What has been sealed does not look like a token. -/
theorem not_hasPrefix_sealed
    {body start : String}
    (hStart : start.toList.head? = some 'e') :
    Go.hasPrefix (xKeyVersionV1 ++ body) start = false := by
  by_contra hPrefix
  rw [Bool.not_eq_false, Go.hasPrefix_iff] at hPrefix
  rcases hPrefix with ⟨rest, hEq⟩
  have hHead := congrArg (fun s => s.toList.head?) hEq
  simp only [String.toList_append, xKeyVersionV1] at hHead
  cases hChars : start.toList with
  | nil =>
      rw [hChars] at hStart
      cases hStart
  | cons c rest =>
      rw [hChars] at hStart hHead
      cases hStart
      simp at hHead

end Callout

end AuthCallout

------------------------------------------------------------
-- A Hub And Its Guest
------------------------------------------------------------

namespace AuthCallout

namespace Callout

open Auth Auth.NKeyAuthenticator NatsJwt NatsServer

/- The claims of a request, as the token carries them. -/
def sentClaims
    (s : Server)
    (c : Client)
    (pub : String)
    (now expires : Int)
    (id : String) : AuthorizationRequestClaims where
  claimsData :=
    { (requestClaims s c pub expires).claimsData with
      issuer := s.info.id
      issuedAt := now
      id := id }
  nats :=
    { authorizationRequest s c pub with
      fields :=
        ⟨[], authorizationRequestClaim, libVersion⟩ }

def hubKey : String :=
  "NA6UAF6D5BBYSWUSW4FKOTI3P26JZGBMZ4XMJFUMYDGVL4JK6RTAYN7G"

def hubPair : KeyPair where
  prefixByte := prefixByteServer
  pub :=
    [61, 64, 23, 195, 232, 67, 137, 90, 146, 183, 10, 167, 77,
      27, 126, 188, 156, 152, 44, 207, 46, 196, 150, 140, 192,
      205, 85, 241, 42, 244, 102, 12]

/- The public curve keys of the hub and of the service. -/
def hubXKey : String :=
  "XB2UCMTX2RR5PHG4OGER5C3YM3HK7NVYNLI7QKALQFF4MUWKEIGXD357"

def serviceXKey : String :=
  "XD4OXGLO4EXAALFWURY7UKJDV2GHJAINUPEZ2XQS327AK2VZE6JHTYQ2"

/- The user key of the guest, and its bytes. -/
def guestKey : String :=
  "UDXU4RCSJNZOIQHZNWXHXORDPRTGNJAHAHFRGZNEEJCPQTT2M7NLCNF4"

def guestBytes : List UInt8 :=
  [239, 78, 68, 82, 75, 114, 228, 64, 249, 109, 174, 123, 186,
    35, 124, 102, 102, 164, 7, 1, 203, 19, 101, 164, 34, 68,
    248, 78, 122, 103, 218, 177]

/- The hashes of the claims of the three tokens. -/
def requestID : String :=
  "PFWV3CQJW6TR5WZ4YJID5SFUXI4P5EGVE7R5IKJIVVYN34B5QVQA"

def guestID : String :=
  "3INXZMRCJMDHM4LZRZBDQL4TRT6DWFYNIBV4XCSGXWLLGDBSXCCQ"

def responseID : String :=
  "WBZ3ECSW3KHDPTMQHYGTUSCM5TRFKKCEHI2DB3OZF5TGEHBPRFZQ"

/- The JSON text of the request, in pieces. -/
def requestText : List UInt8 :=
  [ "\x7b\"aud\":\"nats-authorization-request\",",
    "\"exp\":1760000002,\"jti\":\"", requestID,
    "\",\"iat\":1760000000,\"iss\":\"", hubKey,
    "\",\"sub\":\"", accountPublicKey,
    "\",\"nats\":\x7b\"server_id\":\x7b\"name\":\"hub\",",
    "\"host\":\"0.0.0.0\",\"id\":\"", hubKey,
    "\",\"xkey\":\"", hubXKey,
    "\"\x7d,\"user_nkey\":\"", guestKey,
    "\",\"client_info\":\x7b\"host\":\"127.0.0.1\",",
    "\"id\":7,\"kind\":\"Client\",\"type\":\"nats\"\x7d,",
    "\"connect_opts\":\x7b\"protocol\":1\x7d,",
    "\"type\":\"authorization_request\",",
    "\"version\":2\x7d\x7d"].flatMap Go.bytes

/- The JSON text of the guest's user. -/
def guestText : List UInt8 :=
  [ "\x7b\"aud\":\"APP\",\"jti\":\"", guestID,
    "\",\"iat\":1760000000,\"iss\":\"", accountPublicKey,
    "\",\"name\":\"guest\",\"sub\":\"", guestKey,
    "\",\"nats\":\x7b\"pub\":\x7b\x7d,\"sub\":\x7b\x7d,",
    "\"subs\":-1,\"data\":-1,\"payload\":-1,",
    "\"type\":\"user\",\"version\":2\x7d\x7d"].flatMap
    Go.bytes

def requestSignature : List UInt8 :=
  [127, 33, 255, 51, 112, 100, 146, 139, 179, 190, 220, 90,
    85, 158, 254, 187, 138, 221, 137, 119, 206, 81, 66, 62,
    208, 72, 106, 60, 89, 10, 168, 127, 90, 10, 22, 228, 249,
    145, 172, 58, 117, 226, 249, 209, 21, 55, 169, 75, 122,
    135, 119, 50, 43, 155, 214, 88, 118, 127, 148, 86, 143,
    195, 87, 5]

def guestSignature : List UInt8 :=
  [215, 223, 106, 248, 21, 246, 32, 152, 147, 204, 20, 171,
    170, 136, 107, 16, 170, 99, 206, 57, 130, 144, 165, 176,
    227, 162, 180, 146, 121, 253, 160, 150, 167, 19, 175, 74,
    98, 54, 221, 138, 38, 127, 120, 30, 228, 26, 4, 192, 101,
    107, 140, 172, 85, 2, 245, 47, 194, 155, 21, 134, 95, 66,
    113, 5]

def responseSignature : List UInt8 :=
  [53, 35, 226, 118, 38, 145, 209, 112, 95, 217, 254, 109,
    125, 150, 97, 96, 157, 44, 7, 179, 13, 85, 93, 93, 56,
    249, 186, 47, 203, 235, 96, 43, 220, 23, 224, 82, 24, 50,
    65, 32, 120, 19, 60, 30, 53, 219, 78, 62, 61, 89, 20, 33,
    129, 117, 162, 243, 71, 100, 71, 127, 27, 29, 178, 5]

def requestToken : String :=
  inputOf requestText ++ "." ++
    Go.encodeRawURL requestSignature

def guestToken : String :=
  inputOf guestText ++ "." ++ Go.encodeRawURL guestSignature

/- The JSON text of the response. -/
def responseText : List UInt8 :=
  [ "\x7b\"aud\":\"", hubKey, "\",\"jti\":\"", responseID,
    "\",\"iat\":1760000000,\"iss\":\"", accountPublicKey,
    "\",\"sub\":\"", guestKey,
    "\",\"nats\":\x7b\"jwt\":\"", guestToken,
    "\",\"issuer_account\":\"", accountPublicKey,
    "\",\"type\":\"authorization_response\",",
    "\"version\":2\x7d\x7d"].flatMap Go.bytes

def responseToken : String :=
  inputOf responseText ++ "." ++
    Go.encodeRawURL responseSignature

/- One character for each byte of a number of some bytes. -/
def bytesOfWord : ℕ → ℕ → List Char
| 0, _ => []
| n + 1, word =>
    Char.ofNat (word / 256 ^ n % 256) :: bytesOfWord n word

/- A sealed message, from its size and words of 28 bytes. -/
def sealedText (size : ℕ) (words : List ℕ) : String :=
  xKeyVersionV1 ++
    String.ofList ((words.flatMap (bytesOfWord 28)).take size)

/- The request, sealed by the hub for the service. -/
def sealedRequest : String :=
  sealedText 1054 [
    0x674c5a2751799806538f24623bcc50852434ad81a16b3b96a356f167,
    0x7a3e2563bc62ca93503f8d897ee709cbddefea128cc4dce96b5921b1,
    0x87ea9ceddb07948539be0627fa6473f40ffd5654b2b817863ba88d6a,
    0x3ef10d88161b205c9d57ab74f6f021373664510519f59fc76a935506,
    0x7e75fd00954538e0516c57f0658427404b83e840c71209231941324a,
    0xd28b67959aec3324709de557d732c0be4a41711dd2d8e0302b801fe2,
    0xc2782b3267f71b831a3aec37d793701cf4cfce1d51e8b35564bf48b2,
    0xd67f79a14fd22133fb520479ec592c64a177d6f75901c0c82589dd81,
    0x172afa4a055197e2723921996d4094f8294713fd58dfa379f44eb25b,
    0xf4966721bdeacfcd04fd4fd51853d3ad39b245c7d4f9ac07ddba607f,
    0x2d023d5965f0f7186117d7cc51a1ace4300cf321cf82c6714b8b8c90,
    0x6f926a1fd24be0eeb96cd1cb5a3848c44c12e0592f237834a5e6ae0c,
    0x591f1f5763ffc3bd0c1fc52a32dda3eb0ac1d3a4b8ffb3749c456fed,
    0x047e261c7ffa293a59547447beea7a829846d244b9a6ed654f0df9f0,
    0xcd2063ff4b9e9acfbdf0ea76a21d18d70d5d90812ffb86d5890483fe,
    0x763554b82e93505f192b099476eeeccadef47969013dc1374505e925,
    0x00b84913fa47e75e30f4b9daba834042473c300bc89add3e6f9ec5ca,
    0x33ffb1cc675fef0694d763ae5af573727382501d0181f67f27152eac,
    0xe8d64f2ddb958ef25ad47a0a476dcf9575bcb54fa1ab7ddd43dc0d42,
    0x599bbc5f5a0570663c41f51ae012bcea9aae030f909b07a75292cc68,
    0x35c33b130ff97c222b95111cfd240920fb81665712a3c2d6c03d6064,
    0x6cc328d68ad3115c3f64be82f7fc4ef3127202d2820c2258bf4eb19c,
    0x8ef4d438187634833ac9ca272701fca9e39ef42589f4c35da42ddc2f,
    0x02be218d83a6785e1bfdcc445cfb312301648409a21086f631a297b7,
    0x0fa3f6aedf80d1f54b99e7fc62651199c72370181f4a93004efa7638,
    0xf1014e835855a7d13665c586e46ec586b11dd2aafb665ec8efcc73e8,
    0x1288bf472b551880ac31a8292d3838b2dc9f82806eb468301588544e,
    0xddebdf2a3ac18ec8beebc44d912ee6d9ae47b4d89c80f9cf0a9ccaeb,
    0x0e03a165c60cdd847ce08df1e885f3c19a45c2f39b7df7226ca9732f,
    0x29b3258c8fd550a28ac3aea3476b9fd28293c0dced1b5273aa03ea28,
    0x873f269c69f6f7ff844a8f19b3557d67a834740dc099e515a7d71f39,
    0xb8618bb80d9ddfd8738fbc4a8da889f9589d306697303da9892fa91e,
    0x1c3d8d65436c4df173b3fc512605648917089af604b3ebb4b412145b,
    0x38c6b2df64645b8660bd8c4c13d3655e8ae8449760777dfa0cab783c,
    0x9945038a87bc31a9b9ef135c80155abc51e29100d92aff376dff8ed1,
    0x27eda9fa414a3a6a16846724f7af1fb8c4bf454754e94bf9db5365cd,
    0xb63c86f8314ca6d56259fd3f6bb5eb88aad2ad90859427eddba62244,
    0x4f50b1cc75bbfb7a68144242f65d39bfaa0400000000000000000000]

/- The response, sealed by the service for the hub. -/
def sealedResponse : String :=
  sealedText 1476 [
    0xf92c7a2846c0f8481aa755e9e3943bf4560e8b16b467c857d5f85792,
    0xc5e17ea5dbbe5288c6058935f3b32b2cc3e72164cdea4fa5cae79d26,
    0xcdbecda56c807186fec8171d4a003b5adb9945d2ff9ad162d6870758,
    0x9ed8792407d1163c8528058ce2c96ea61ffba5b3d78711524f8e6b5d,
    0x241891516f43c81de70a918f0ba019315e334942329e8f104200549b,
    0x85ffe7b040d9a46017da7409fa57d0e99d24f098b607472776526334,
    0x68813242042d126eb6ef05e78e4634c496824d59cd0bebbd878ffc02,
    0x8e2b1e43a3ba78628aac1f22e6d0a7189b6d55cb2e55256a6198b2c9,
    0xe9eb964ada0a97ad4ccd83fb402064b3dfb4a8c9a7487ebaabfbcbe6,
    0xeaa5f3a5c8f5962abcdb134990d74b1bd15aef583affb50c016e9519,
    0xd3315e47b1efa5d4cec5158f86f840a92cdc00578ae306416a88d91f,
    0xb16d3de1f247637d2a4683b93871104656f4a7d150ba94983a05026f,
    0xfc12acaabde2cc803e7dd888d0cda18d550e59157aa5218714beb610,
    0x9c96a891e7ff470f7a25a6cbb2b29f6675e1442f61de89949d52929f,
    0x3a6997e4cfc2cfa253cc79d34908803068aa54cf3b1a8d27eeeef996,
    0x35ac4b073deb5c58e0d4043e68283da64704b50d9236ccbbfe304f63,
    0x020a00ec7920b9a31d63e17286e5593e08c7fa61f3a5c070e317611c,
    0x608bf932cb5f73159acc6586d6a144a14d3863c3a5368fffdea0142a,
    0xcfc7b8d7861c0e0b5993c36d4b43c3088786aa2fedc88ed87d320b40,
    0x747ce7803b10afd27b448c495baca4ea37d4221ddeac3cddbc072bc9,
    0x9247edcd4ca3ceca77c6b64ebde1823ec8c70ccdfb9e1b0018dbec7a,
    0x9a4e47b5da228e043118c2833b33a3971417fa07a2594c86aa5c0b4f,
    0xae3c482a30c4536a6c5e42b0144f5aca3e22dbe64bc9cb7c8d2af1dc,
    0x97e2ae8149eb3f2bfa7b927cc35dbe138cc2dfe371b09876358212fc,
    0xf84c536a962355f2e8668c90f63360aae599eb9425714d75612cca52,
    0x4411a1aafb47060440cbabb577bd88d30819c3f078244be53227c3e8,
    0x87f9f923b35c33d7308f27b1ab5102614f28362160d4698a889e45f7,
    0xc791c83bd83b7b9bb631c63d76bbd56be41fe89ff009afb0a640fa45,
    0x7870c261c088a594bf88c71593e0c3b1827c7246269410ced700c592,
    0x67a8b7ad0cdf5d8ceea6e9ab510c3ea3635f8d1945e284e439e5a39b,
    0x8806888f991a0c0752371eb068c021e6e88e98362c439b9f30986389,
    0xdb9db5b6194ec168b86ae13bd90a3287651471f867488ada45a9e52d,
    0xe0ef8f4e64e68c4613be830815c78bc59fe36f6d45455df25d4226d0,
    0xba15b8590eca28842c15064767e4ab31c2ee3be4d6a640d120338b18,
    0x6e96bfed5a254245114fe15ed7c36b0bc1d477e3a6839df15ce0c9f7,
    0x679a467d22d2ca8076d4be642e399c1c5c3e8ec07ce666e63e2c244c,
    0x50537d4c36a8320819d38be10059b0e5053a8e5be629fccbd0c62e45,
    0xe2bfc81553af94018cc0adf7570365fbd32b64e572788ab8f3688a00,
    0x12958320d6314c0867a5c499ad1472825ad95145db0ca40099463278,
    0xae1c49a4d87bf08af7136564772e1839e25b179794682a99d5cb7565,
    0xece5ec44c930b7871aa0bafbba237cf2e6534723b31a259017b66c48,
    0x3e99e7d4d9329a42d7752a77274686dfc268fa63bca304cdfbc78ef9,
    0x5d9228b0ac5e95baa7128bde747e78d6f68652de8d0a0f1d21ce991b,
    0xd54934cc5919f5aaa695015d826fc06d93a49ebf289733882e7d7480,
    0x27dbc2b64a6e2fc789ac2e4a41bc061748bdcd66bcbc7744d41d1bc5,
    0x11a526c79294178713c211987637f13a4a835a4a02c8f7446833d14d,
    0x6170ecd5b8644216732c79cb0b509e8604e21313319c144c9cbfeff6,
    0x75f639fb61b9ede4e1b137b9cf011101194f6667c3915f8c0215c27f,
    0xc12db18ffb67786b35c18021362030e48632f6449627179865bfa252,
    0x2bab5e65831527c9626f8c37e3313fadde45436293ed65b41871fe0a,
    0xa20e871dc3835421851c24befc350d31398adb19dd74af400ed1ac47,
    0xb29911dac001e8d91123490c4cfdbb0b724ef57b132bc079c3a15138,
    0x4ead482e090873b0a9a9326512337feaac72d8e60000000000000000]

/- All that the two parties have sealed. -/
def sealings : List Sealed :=
  [⟨hubXKey, serviceXKey, requestToken, sealedRequest⟩,
    ⟨serviceXKey, hubXKey, responseToken, sealedResponse⟩]

/- All that the two parties have signed. -/
def signatures : List Signed :=
  [⟨hubPair, requestText, requestSignature⟩,
    ⟨accountPair, guestText, guestSignature⟩,
    ⟨accountPair, responseText, responseSignature⟩]

/- The configuration of the hub, and the guest. -/
def hub : Server where
  info := ⟨"hub", "0.0.0.0", hubKey, "", "", [], hubXKey⟩
  kp := .ofTable signatures hubPair
  xkp := .ofTable sealings hubXKey
  authCallout := ⟨accountPublicKey, "AUTH", serviceXKey⟩
  lookupAccount := fun name =>
    if name = "AUTH" ∨ name = "APP" then
      .ok ⟨name, none⟩
    else
      .error "account missing"
  registerWithAccount := fun _ => .ok ()
  allowsTimes := fun _ => true
  checks := ⟨fun _ => true, fun _ => none, fun _ => none⟩

def guest : Client where
  information :=
    ⟨"127.0.0.1", 7, "", "", [], "", "Client", "nats", "", ""⟩
  options := ⟨"", "", "", "", "", "", "", "", "", 1⟩
  nonce := ""
  connectionState := none

def guestUser : NatsJwt.UserClaims where
  claimsData :=
    { ClaimsData.ofSubject guestKey with
      audience := "APP"
      id := guestID
      issuedAt := 1760000000
      issuer := accountPublicKey
      name := "guest" }
  nats :=
    { permissions := .zero
      limits := ⟨[], [], "", -1, -1, -1⟩
      bearerToken := false
      proxyRequired := false
      allowedConnectionTypes := []
      issuerAccount := ""
      fields := ⟨[], userClaim, libVersion⟩ }

def guestResponse : AuthorizationResponseClaims where
  claimsData :=
    { ClaimsData.ofSubject guestKey with
      audience := hubKey
      id := responseID
      issuedAt := 1760000000
      issuer := accountPublicKey }
  nats :=
    ⟨guestToken, "", accountPublicKey,
      ⟨[], authorizationResponseClaim, libVersion⟩⟩

/- The claims of the three tokens. -/
def guestRows : List (NatsJwt.Claims × List UInt8) :=
  [(.request
      (sentClaims hub guest guestKey 1760000000 1760000002
        requestID),
      requestText),
    (.user guestUser, guestText),
    (.response guestResponse, responseText)]

/- The hash of claims, for those of the three tokens. -/
def guestHash (c : ClaimsData) : Except String String :=
  match guestRows.find? (fun row =>
      { row.1.data with id := "" } = c) with
  | some row => .ok row.1.data.id
  | none => .error "unsupported value"

def guestPackage : Package where
  json := .ofTable guestRows guestHash
  libs :=
    { accountLibraries with
      fromPublicKey := fromPublicKey
      ed25519Verify := verifyAt signatures }

def guestService : Service where
  package := guestPackage
  checks := ⟨fun _ => true, fun _ => none, fun _ => none⟩
  issuerKeyPair := .ofTable signatures accountPair
  issuerPubKey := accountPublicKey
  curveKeyPair := some (.ofTable sealings serviceXKey)
  authenticators := [.nkey, .noauth]

def guestWorld : Config.World :=
  Config.world (.malformed "")
    { noauth := some ⟨"guest", "APP", .zero⟩
      oauth2 := some Go.Table.empty
      mtls := some Go.Table.empty
      nkey := some Go.Table.empty }

def guestClaims : UserClaims where
  subject := guestKey
  name := "guest"
  audience := "APP"
  permissions := .zero
  subs := -1
  data := -1
  payload := -1

/- What is computed on these keys, texts and hashes. -/
structure GuestFacts : Prop where
  texts : [requestText, guestText, responseText].Nodup
  curveKeys : [hubXKey, serviceXKey].Nodup
  claims : (guestRows.map (·.1)).Nodup
  hubID : hub.kp.pair.publicKey = .ok hub.info.id
  account :
    guestService.issuerKeyPair.pair.publicKey =
      .ok guestService.issuerPubKey
  user : encode prefixByteUser guestBytes = .ok guestKey
  subject :
    isValidPublicKey prefixByteUser
        (userClaimsOf guestClaims).claimsData.subject =
      true
  requestIssuer :
    checkPrefixes
        (.request
          (requestClaims hub guest guestKey 1760000002))
        hub.info.id =
      .ok ()
  userIssuer :
    checkPrefixes (.user (userClaimsOf guestClaims))
        guestService.issuerPubKey =
      .ok ()
  requestHash :
    guestHash
        { (requestClaims hub guest guestKey
              1760000002).claimsData with
          issuer := hubKey
          issuedAt := 1760000000
          id := "" } =
      .ok requestID
  userHash :
    guestHash
        { (userClaimsOf guestClaims).claimsData with
          issuer := accountPublicKey
          issuedAt := 1760000000
          id := "" } =
      .ok guestID
  responseHash :
    guestService.package.json.hash
        { (responseOf guestService.options
              (authorizationRequest hub guest guestKey)
              guestToken "").claimsData with
          issuer := guestService.issuerPubKey
          issuedAt := 1760000000
          id := "" } =
      .ok responseID

/- Computed once, for all that follows on the guest. -/
theorem guestFacts : GuestFacts where
  texts := by decide +kernel
  curveKeys := by decide +kernel
  claims := by decide +kernel
  hubID := by decide +kernel
  account := by decide +kernel
  user := by decide +kernel
  subject := by decide +kernel
  requestIssuer := by decide +kernel
  userIssuer := by decide +kernel
  requestHash := by decide +kernel
  userHash := by decide +kernel
  responseHash := by decide +kernel

end Callout

end AuthCallout

------------------------------------------------------------
-- The Two Parties
------------------------------------------------------------

namespace AuthCallout

namespace Callout

open Auth NatsJwt NatsServer

/- The service signs with an account key, whose public half
   it knows. -/
structure Service.Sound (svc : Service) : Prop where
  json : svc.package.json.RoundTrips
  issuer : svc.issuerKeyPair.Verifies svc.package.libs
  account :
    svc.issuerKeyPair.pair.prefixByte = prefixByteAccount
  publicKey :
    svc.issuerKeyPair.pair.publicKey = .ok svc.issuerPubKey

/- A server signs with the server key that is its ID. -/
structure ServerSound
    (package : Package)
    (s : Server) : Prop where
  key : s.kp.Verifies package.libs
  server : s.kp.pair.prefixByte = prefixByteServer
  id : s.kp.pair.publicKey = .ok s.info.id

/- A message sealed for one side is opened by the other. -/
structure Boxes
    (key xkp : CurveKey)
    (keyPub xkpPub : String) : Prop where
  request :
    ∀ input data,
      xkp.sealBox input keyPub = .ok data →
        key.openBox data xkpPub = .ok input ∧
          ∃ body, data = xKeyVersionV1 ++ body
  response :
    ∀ input data,
      key.sealBox input xkpPub = .ok data →
        xkp.openBox data keyPub = .ok input ∧
          ∃ body, data = xKeyVersionV1 ++ body

theorem boxes_ofTable
    {table : List Sealed}
    (hDistinct : (table.map (·.data)).Nodup)
    (hVersion :
      ∀ row ∈ table, ∃ body, row.data = xKeyVersionV1 ++ body)
    (keyPub xkpPub : String) :
    Boxes (.ofTable table keyPub) (.ofTable table xkpPub)
      keyPub xkpPub where
  request := by
    intro input data hSeal
    have hMem := CurveKey.sealBox_ofTable hSeal
    exact ⟨CurveKey.openBox_of_mem hDistinct hMem,
      hVersion _ hMem⟩
  response := by
    intro input data hSeal
    have hMem := CurveKey.sealBox_ofTable hSeal
    exact ⟨CurveKey.openBox_of_mem hDistinct hMem,
      hVersion _ hMem⟩

/-
  The server takes users of the service's issuer, and both
  sides encrypt or neither does.
-/
structure Paired
    (svc : Service)
    (s : Server) : Prop where
  issuer : s.authCallout.issuer = svc.issuerPubKey
  plain : svc.curveKeyPair = none → s.encrypts = false
  boxes :
    ∀ key,
      svc.curveKeyPair = some key →
        s.encrypts = true ∧
          Boxes key s.xkp s.authCallout.xkey s.info.xkey

/- A key that `nkeys.CreateUser` may have made. -/
def IsFreshUserKey (pub : String) : Prop :=
  ∃ src, src ≠ [] ∧ encode prefixByteUser src = .ok pub

end Callout

end AuthCallout

------------------------------------------------------------
-- The Request Is Read Back
------------------------------------------------------------

namespace AuthCallout

namespace Callout

open Auth NatsJwt NatsServer

variable {svc : Service} {s : Server} {c : Client}
variable {pub reply : String} {now expires : Int}
variable {msg : Message}

theorem ne_nil_of_verifies
    {libs : Libraries}
    {kp : SigningPair}
    (hVerifies : kp.Verifies libs) :
    kp.pair.pub ≠ [] := by
  intro hNil
  have hLength := hVerifies.body
  rw [hNil] at hLength
  cases hLength

/- What a server sends is its token, sealed if need be. -/
theorem sendRequest_cases
    {package : Package}
    (hSend :
      sendRequest package s c pub reply now expires =
        .ok msg) :
    ∃ b,
      (requestClaims s c pub expires).encode package.json
          s.kp now = .ok b ∧
        msg.reply = reply ∧
          ((s.encrypts = false ∧ msg.data = b) ∨
            (s.encrypts = true ∧
              msg.serverXKey = s.info.xkey ∧
                s.xkp.sealBox b s.authCallout.xkey =
                  .ok msg.data)) := by
  unfold sendRequest at hSend
  split at hSend
  · cases hSend
  · split at hSend
    · cases hSend
    · rename_i b hEncode
      refine ⟨b, hEncode, ?_⟩
      split at hSend
      · rename_i hEncrypts
        split at hSend
        · cases hSend
        · rename_i req hSeal
          cases hSend
          exact ⟨rfl, .inr ⟨hEncrypts, rfl, hSeal⟩⟩
      · rename_i hEncrypts
        cases hSend
        exact ⟨rfl,
          .inl ⟨Bool.eq_false_iff.mpr hEncrypts, rfl⟩⟩

theorem sendRequest_of_sealed
    {package : Package}
    {account : Account}
    {b data : String}
    (hAccount :
      s.lookupAccount s.authCallout.account = .ok account)
    (hEncode :
      (requestClaims s c pub expires).encode package.json s.kp
        now = .ok b)
    (hEncrypts : s.encrypts = true)
    (hSeal :
      s.xkp.sealBox b s.authCallout.xkey = .ok data) :
    sendRequest package s c pub reply now expires =
      .ok ⟨data, s.info.xkey, reply⟩ := by
  unfold sendRequest
  rw [hAccount]
  dsimp only
  rw [hEncode]
  dsimp only
  rw [if_pos hEncrypts, hSeal]

/- The token of a request, and the claims in it. -/
theorem stamped_request
    {package : Package}
    (hServer : ServerSound package s)
    {b : String}
    (hEncode :
      (requestClaims s c pub expires).encode package.json
        s.kp now = .ok b) :
    ∃ id,
      Stamped package.json s.kp
        (.request (sentClaims s c pub now expires id)) b := by
  rcases stamped_of_doEncode rfl hEncode with
    ⟨_, issuer, id, hIssuer, hStamped⟩
  rw [hServer.id] at hIssuer
  cases hIssuer
  exact ⟨id, hStamped⟩

/- The checks pass what a server puts into its request. -/
theorem checkRequest_sentClaims
    {package : Package}
    (hServer : ServerSound package s)
    (id : String) :
    checkRequest (sentClaims s c pub now expires id) =
      .ok (sentClaims s c pub now expires id).nats := by
  have hKey := hServer.id
  unfold KeyPair.publicKey at hKey
  rw [hServer.server] at hKey
  have hLetter := hasPrefix_of_encode_server hKey
  unfold checkRequest
  simp [sentClaims, requestClaims, authorizationRequest,
    hLetter]

/- What is sealed or plain is read as the token it was. -/
theorem readPayload_sendRequest
    (hPaired : Paired svc s)
    {b : String}
    (hToken : ∃ rest, b = "eyJ0" ++ rest)
    (hData :
      (s.encrypts = false ∧ msg.data = b) ∨
        (s.encrypts = true ∧
          msg.serverXKey = s.info.xkey ∧
            s.xkp.sealBox b s.authCallout.xkey =
              .ok msg.data)) :
    readPayload svc.options msg = .ok b := by
  unfold readPayload Service.options
  dsimp only
  rcases hToken with ⟨rest, hRest⟩
  rcases hData with
    ⟨hPlain, hMsg⟩ | ⟨hEncrypts, hHeader, hSeal⟩
  · cases hKey : svc.curveKeyPair with
    | some key =>
        rw [(hPaired.boxes key hKey).1] at hPlain
        cases hPlain
    | none =>
        rw [hMsg, if_neg (length_of_start rfl hRest), hRest,
          hasPrefix_append]
        rfl
  · cases hKey : svc.curveKeyPair with
    | none =>
        rw [hPaired.plain hKey] at hEncrypts
        cases hEncrypts
    | some key =>
        rcases (hPaired.boxes key hKey).2.request b msg.data
            hSeal with
          ⟨hOpen, body, hBody⟩
        rw [if_neg (length_of_start rfl hBody)]
        have hSealed :
            Go.hasPrefix msg.data "eyJ0" = false := by
          rw [hBody]
          exact not_hasPrefix_sealed rfl
        rw [hSealed, hHeader]
        dsimp only [Bool.not_false]
        rw [if_neg (by simp), hOpen]

/- The service reads the request that the server sent. -/
theorem decode_sendRequest
    (hSound : svc.Sound)
    (hServer : ServerSound svc.package s)
    (hPaired : Paired svc s)
    (hSend :
      sendRequest svc.package s c pub reply now expires =
        .ok msg) :
    ∃ id,
      decode svc.package svc.options msg =
        .ok (sentClaims s c pub now expires id).nats := by
  rcases sendRequest_cases hSend with
    ⟨b, hEncode, _, hData⟩
  rcases stamped_request hServer hEncode with
    ⟨id, hStamped⟩
  refine ⟨id, ?_⟩
  unfold decode
  rw [readPayload_sendRequest hPaired
    (exists_rest_of_stamped hStamped) hData]
  dsimp only
  have hDecode :=
    decode_of_stamped hSound.json hServer.key hStamped
  unfold decodeAuthorizationRequestClaims
  rw [hDecode]
  dsimp only
  rw [checkRequest_sentClaims hServer]

end Callout

end AuthCallout

------------------------------------------------------------
-- What The Service Signs
------------------------------------------------------------

namespace AuthCallout

namespace Callout

open Auth NatsJwt NatsServer

variable {svc : Service} {now : Int} {w : Config.World}
variable {req : NatsJwt.AuthorizationRequest}

/- The claims of a granted user, as the token carries them. -/
def grantedClaims
    (svc : Service)
    (now : Int)
    (id : String)
    (uc : UserClaims) : NatsJwt.UserClaims where
  claimsData :=
    { (userClaimsOf uc).claimsData with
      issuer := svc.issuerPubKey
      issuedAt := now
      id := id }
  nats :=
    { (userClaimsOf uc).nats with
      fields := ⟨[], userClaim, libVersion⟩ }

/- The claims of a response, as the token carries them. -/
def answeredClaims
    (svc : Service)
    (now : Int)
    (id : String)
    (req : NatsJwt.AuthorizationRequest)
    (jwt err : String) : AuthorizationResponseClaims where
  claimsData :=
    { (responseOf svc.options req jwt err).claimsData with
      issuer := svc.issuerPubKey
      issuedAt := now
      id := id }
  nats :=
    { (responseOf svc.options req jwt err).nats with
      fields :=
        ⟨[], authorizationResponseClaim, libVersion⟩ }

/- What the encoding adds to a request decides nothing. -/
theorem handle_sentClaims
    {s : Server}
    {c : Client}
    {pub id : String}
    {sentAt expires : Int} :
    svc.handle now w (sentClaims s c pub sentAt expires id).nats =
      svc.handle now w (authorizationRequest s c pub) :=
  rfl

/- What is granted is a valid token for the user's key. -/
theorem issued_of_handle
    {token : UserJWT}
    (hHandle : svc.handle now w req = .ok token) :
    ∃ profile,
      Issued
        (userIssuer svc.package svc.checks
          svc.issuerKeyPair now)
        req.userNkey profile token := by
  rcases handleAuthRequest_ok_iff_issued.mp hHandle with
    ⟨_, profile, _, hIssued⟩
  exact ⟨profile, hIssued⟩

theorem subject_of_handle
    {token : UserJWT}
    (hHandle : svc.handle now w req = .ok token) :
    token.claims.subject = req.userNkey := by
  rcases issued_of_handle hHandle with ⟨profile, hIssued⟩
  rw [hIssued.claims]

/- A granted token carries the claims that were granted. -/
theorem stamped_of_handle
    (hSound : svc.Sound)
    {token : UserJWT}
    (hHandle : svc.handle now w req = .ok token) :
    ∃ id,
      Stamped svc.package.json svc.issuerKeyPair
        (.user (grantedClaims svc now id token.claims))
        token.encoded := by
  rcases issued_of_handle hHandle with ⟨profile, hIssued⟩
  have hEncode :
      (userClaimsOf token.claims).encode svc.package.json
        svc.issuerKeyPair now = .ok token.encoded :=
    hIssued.signed
  unfold NatsJwt.UserClaims.encode at hEncode
  split at hEncode
  · cases hEncode
  · rcases stamped_of_doEncode rfl hEncode with
      ⟨_, issuer, id, hIssuer, hStamped⟩
    rw [hSound.publicKey] at hIssuer
    cases hIssuer
    exact ⟨id, hStamped⟩

theorem stamped_of_response
    (hSound : svc.Sound)
    {jwt err token : String}
    (hEncode :
      (responseOf svc.options req jwt err).encode
        svc.package.json svc.issuerKeyPair now = .ok token) :
    ∃ id,
      Stamped svc.package.json svc.issuerKeyPair
        (.response (answeredClaims svc now id req jwt err))
        token := by
  rcases stamped_of_doEncode rfl hEncode with
    ⟨_, issuer, id, hIssuer, hStamped⟩
  rw [hSound.publicKey] at hIssuer
  cases hIssuer
  exact ⟨id, hStamped⟩

theorem sendResponse_of_sealed
    {package : Package}
    {o : Options}
    {resp : AuthorizationResponseClaims}
    {key : CurveKey}
    {token data : String}
    (hKey : o.encryptionKey = some key)
    (hEncode :
      resp.encode package.json o.responseSignerKey now =
        .ok token)
    (hSeal : key.sealBox token req.server.xkey = .ok data) :
    sendResponse package o now req resp =
      .ok ⟨resp.nats.error ≠ "", data⟩ := by
  unfold sendResponse
  rw [hEncode]
  dsimp only
  rw [hKey]
  dsimp only
  rw [hSeal]

/- No error of the handler has an empty text. -/
theorem error_ne_empty_of_handle
    {err : String}
    (hHandle :
      svc.handle now w req = .error (.error err)) :
    err ≠ "" := by
  have hAppend :
      ∀ start rest : String,
        start ≠ "" → start ++ rest ≠ "" := by
    intro start rest hStart hEmpty
    have hChars := congrArg String.toList hEmpty
    rw [String.toList_append, String.toList_empty,
      List.append_eq_nil_iff] at hChars
    exact hStart (String.toList_eq_nil_iff.mp hChars.1)
  have hLoop :
      ∀ authenticators err,
        (authorizeRequest svc.package.libs authenticators
            (requestOf req)).eval w = .error (.error err) →
          err ≠ "" := by
    intro authenticators
    induction authenticators with
    | nil =>
        intro err hErr
        cases hErr
        decide
    | cons authenticator rest ih =>
        intro err hErr
        unfold authorizeRequest at hErr
        split at hErr
        · rw [eval_thenReturn] at hErr
          unfold Go.wrapError at hErr
          split at hErr
          · cases hErr
          · cases hErr
            exact hAppend _ _ (by decide)
          · cases hErr
        · exact ih err hErr
  unfold Service.handle handleAuthRequest at hHandle
  rw [eval_thenReturn] at hHandle
  split at hHandle
  · rename_i fault hFault
    cases hHandle
    exact hLoop _ _ hFault
  · unfold issue at hHandle
    split at hHandle
    · cases hHandle
    · dsimp only at hHandle
      split at hHandle
      · cases hHandle
        exact hAppend _ _ (by decide)
      · split at hHandle
        · cases hHandle
          exact hAppend _ _ (by decide)
        · cases hHandle

end Callout

end AuthCallout

------------------------------------------------------------
-- What The Server Makes Of It
------------------------------------------------------------

namespace AuthCallout

namespace Callout

open Auth NatsJwt NatsServer

/- A granted user, at a server and without any messages. -/
def place
    (s : Server)
    (now : Int)
    (claims : UserClaims) : Except Go.Fault Bound :=
  match s.lookupAccount claims.audience with
  | .error err =>
      .error
        (titleCase
          ("no valid account " ++ Go.quote claims.audience ++
            " for auth callout response on account " ++
            Go.quote s.authCallout.account ++ ": " ++ err))
  | .ok account =>
      match s.registerWithAccount account with
      | .error err =>
          .error (.error
            ("Could not register auth callout user: " ++ err))
      | .ok () =>
          .ok
            { user :=
                { nkey := claims.subject
                  account := account
                  permissions :=
                    (buildPermissionsFromJwt
                        claims.permissions).or
                      account.defaultPerms
                  allowedConnectionTypes := []
                  issued := now
                  signingKey := "" }
              username :=
                if claims.name ≠ "" then
                  some claims.name
                else
                  none }

/- The decision of the service on a client of a server. -/
def decision
    (svc : Service)
    (s : Server)
    (c : Client)
    (pub : String)
    (now : Int)
    (w : Config.World) : Except Go.Fault Bound :=
  match svc.handle now w (authorizationRequest s c pub) with
  | .error .panic => .error .panic
  | .error (.error err) =>
      .error
        (titleCase
          ("auth callout service returned an error: " ++ err))
  | .ok token => place s now token.claims

variable {svc : Service} {s : Server} {now arrival : Int}
variable {w : Config.World}
variable {req : NatsJwt.AuthorizationRequest}

/- The server finds no fault with claims without errors. -/
theorem validate_grantedClaims
    {checks other : LimitChecks}
    {uc : UserClaims}
    {id : String}
    (hValid :
      errorsOf ((userClaimsOf uc).validate checks now) = []) :
    (grantedClaims svc now id uc).validate other arrival =
      [] := by
  have hShape :
      ∀ (u : NatsJwt.UserClaims) (some : LimitChecks)
        (time : Int),
        u.claimsData.expires = 0 →
          u.claimsData.notBefore = 0 →
            u.nats.limits.src = [] →
              u.nats.limits.times = [] →
                u.nats.limits.locale = "" →
                  u.nats.issuerAccount = "" →
                    u.validate some time =
                      validatePermissions
                        u.nats.permissions := by
    intro u some time hExpires hNotBefore hSrc hTimes hLocale
      hAccount
    unfold NatsJwt.UserClaims.validate Limits.validate
    rw [ClaimsData.validate_of_untimed hExpires hNotBefore,
      hSrc, hTimes, hLocale, hAccount]
    simp [issueIf]
  rw [hShape _ checks now rfl rfl rfl rfl rfl rfl] at hValid
  rw [hShape _ other arrival rfl rfl rfl rfl rfl rfl]
  exact
    eq_nil_of_errorsOf (fun _ => blocking_validatePermissions)
      hValid

/- A granted user is placed as it was granted. -/
theorem bindUser_grantedClaims
    (hIssuer : s.authCallout.issuer = svc.issuerPubKey)
    {token : UserJWT}
    (hHandle : svc.handle now w req = .ok token)
    (id : String) :
    bindUser svc.package s req.userNkey arrival
        (grantedClaims svc now id token.claims) =
      place s now token.claims := by
  rcases issued_of_handle hHandle with ⟨profile, hIssued⟩
  have hValid :
      (grantedClaims svc now id token.claims).validate
        s.checks arrival = [] :=
    validate_grantedClaims hIssued.valid
  have hSubject :
      (grantedClaims svc now id
          token.claims).claimsData.subject =
        req.userNkey :=
    subject_of_handle hHandle
  have hAllowed :
      getAllowedConnections svc.package s
        (grantedClaims svc now id token.claims) = .ok [] := by
    unfold getAllowedConnections
    rw [if_neg (by
      rintro ⟨hTimes, _⟩
      exact hTimes rfl)]
    rfl
  have hAssign :
      assignAccountAndPermissions s
          (grantedClaims svc now id token.claims) =
        match s.lookupAccount token.claims.audience with
        | .error err =>
            .error
              ("no valid account " ++
                Go.quote token.claims.audience ++
                " for auth callout response on account " ++
                Go.quote s.authCallout.account ++ ": " ++ err)
        | .ok targetAcc => .ok targetAcc := by
    have hSame :
        (grantedClaims svc now id
            token.claims).claimsData.issuer =
          s.authCallout.issuer :=
      hIssuer.symm
    unfold assignAccountAndPermissions getIssuerAccount
    rw [if_neg (by
        intro hSome
        exact hSome rfl),
      if_neg (not_not_intro hSame)]
    rfl
  unfold bindUser place
  rw [hValid]
  dsimp only
  rw [if_neg (not_not_intro hSubject), hAllowed]
  dsimp only
  rw [hAssign]
  cases s.lookupAccount token.claims.audience with
  | error err => rfl
  | ok account =>
      dsimp only
      cases s.registerWithAccount account with
      | error err => rfl
      | ok _ => rfl

/- The reply of the service is read as the token it was. -/
theorem readReply_of_sendResponse
    {jwt err : String}
    {reply : Reply}
    (hPaired : Paired svc s)
    (hXKey : req.server.xkey = s.info.xkey ∨ s.encrypts = false)
    (hSound : svc.Sound)
    (hSend :
      sendResponse svc.package svc.options now req
          (responseOf svc.options req jwt err) =
        .ok reply) :
    ∃ token,
      (responseOf svc.options req jwt err).encode
          svc.package.json svc.issuerKeyPair now =
        .ok token ∧
        readReply s reply.data = .ok token := by
  unfold sendResponse at hSend
  split at hSend
  · cases hSend
  · rename_i token hEncode
    refine ⟨token, hEncode, ?_⟩
    rcases stamped_of_response hSound hEncode with
      ⟨id, hStamped⟩
    rcases exists_rest_of_stamped hStamped with
      ⟨rest, hRest⟩
    unfold readReply
    split at hSend
    · rename_i hKey
      cases hSend
      have hPlain := hPaired.plain hKey
      have hSome : token ≠ "" := by
        intro hEmpty
        have hLength := congrArg String.length hRest
        rw [hEmpty, String.length_append] at hLength
        have hFour : "eyJ0".length = 4 := rfl
        rw [hFour, String.length_empty] at hLength
        omega
      rw [if_neg hSome, hPlain]
      rfl
    · rename_i key hKey
      split at hSend
      · cases hSend
      · rename_i data hSeal
        cases hSend
        rcases hPaired.boxes key hKey with
          ⟨hEncrypts, hBoxes⟩
        have hServerXKey : req.server.xkey = s.info.xkey := by
          rcases hXKey with hSame | hPlain
          · exact hSame
          · rw [hEncrypts] at hPlain
            cases hPlain
        rw [hServerXKey] at hSeal
        rcases hBoxes.response token data hSeal with
          ⟨hOpen, body, hBody⟩
        have hSome : data ≠ "" := by
          intro hEmpty
          have hLength := congrArg String.length hBody
          rw [hEmpty, String.length_append] at hLength
          have hFour : xKeyVersionV1.length = 4 := rfl
          rw [hFour, String.length_empty] at hLength
          omega
        have hSealed :
            Go.hasPrefix data jwtPrefix = false := by
          rw [hBody]
          exact not_hasPrefix_sealed rfl
        dsimp only
        rw [if_neg hSome, hEncrypts, hSealed, hOpen]
        rfl

end Callout

end AuthCallout

------------------------------------------------------------
-- One Exchange
------------------------------------------------------------

namespace AuthCallout

namespace Callout

open Auth NatsJwt NatsServer

variable {svc : Service} {s : Server} {c : Client}
variable {pub reply : String}
variable {now expires later arrival : Int}
variable {w : Config.World} {msg : Message}

/- The service's own key is one of an account. -/
theorem isValidPublicKey_issuer
    (hSound : svc.Sound) :
    isValidPublicKey prefixByteAccount svc.issuerPubKey =
      true := by
  have hKey := hSound.publicKey
  unfold KeyPair.publicKey at hKey
  rw [hSound.account] at hKey
  exact isValidPublicKey_of_encode hKey
    (ne_nil_of_verifies hSound.issuer) (by decide)

/- The token of a response, from its parts. -/
theorem response_of_signed
    (hSound : svc.Sound)
    {req : NatsJwt.AuthorizationRequest}
    {jwt err id : String}
    {data sig : List UInt8}
    (hNkey : req.userNkey ≠ "")
    (hMarshal :
      svc.package.json.marshal
          (.response (answeredClaims svc now id req jwt err)) =
        .ok data)
    (hHash :
      svc.package.json.hash
          { (responseOf svc.options req jwt err).claimsData with
            issuer := svc.issuerPubKey
            issuedAt := now
            id := "" } =
        .ok id)
    (hSign :
      svc.issuerKeyPair.sign (bytesOf (inputOf data)) =
        .ok sig) :
    (responseOf svc.options req jwt err).encode
        svc.package.json svc.issuerKeyPair now =
      .ok (inputOf data ++ "." ++ Go.encodeRawURL sig) := by
  have hPrefixes :
      ∀ claims,
        checkPrefixes (.response claims) svc.issuerPubKey =
          .ok () := by
    intro claims
    unfold checkPrefixes Claims.expectedPrefixes
    dsimp only
    rw [List.any_cons, isValidPublicKey_issuer hSound]
    rfl
  exact
    doEncode_of_signed hNkey hSound.publicKey (hPrefixes _)
      hHash hMarshal hSign

theorem isValidPublicKey_server
    {package : Package}
    (hServer : ServerSound package s) :
    isValidPublicKey prefixByteServer s.info.id = true := by
  have hKey := hServer.id
  unfold KeyPair.publicKey at hKey
  rw [hServer.server] at hKey
  exact isValidPublicKey_of_encode hKey
    (ne_nil_of_verifies hServer.key) (by decide)

/- A response passes all checks but the one of its error. -/
theorem checkResponse_answeredClaims
    (hSound : svc.Sound)
    (hServer : ServerSound svc.package s)
    (hFresh : IsFreshUserKey pub)
    {req : NatsJwt.AuthorizationRequest}
    (hNkey : req.userNkey = pub)
    (hID : req.server.id = s.info.id)
    {jwt err id : String}
    (hOne : (jwt = "") ↔ (err ≠ "")) :
    checkResponse s pub arrival
        (answeredClaims svc now id req jwt err) =
      if err ≠ "" then
        .error
          ("auth callout service returned an error: " ++ err)
      else
        .ok () := by
  rcases hFresh with ⟨src, hSrc, hEncode⟩
  have hUser : isValidPublicKey prefixByteUser pub = true :=
    isValidPublicKey_of_encode hEncode hSrc (by decide)
  have hValid :
      (answeredClaims svc now id req jwt err).validate
        arrival = [] := by
    unfold AuthorizationResponseClaims.validate
    rw [ClaimsData.validate_of_untimed rfl rfl]
    simp only [answeredClaims, responseOf,
      ClaimsData.ofSubject, Service.options, hNkey, hID,
      hUser, isValidPublicKey_server hServer,
      isValidPublicKey_issuer hSound]
    by_cases hErr : err = ""
    · have hJwt : jwt ≠ "" := fun hEmpty =>
        hOne.mp hEmpty hErr
      simp [issueIf, hErr, hJwt]
    · have hJwt : jwt = "" := hOne.mpr hErr
      simp [issueIf, hErr, hJwt]
  have hSubject :
      (answeredClaims svc now id req jwt
          err).claimsData.subject = pub :=
    hNkey
  have hAudience :
      (answeredClaims svc now id req jwt
          err).claimsData.audience = s.info.id :=
    hID
  unfold checkResponse
  rw [hValid]
  dsimp only
  rw [if_neg (not_not_intro hSubject),
    if_neg (not_not_intro hAudience)]
  rfl

/- What a server makes of a response of the service. -/
theorem processReply_of_response
    (hSound : svc.Sound)
    (hServer : ServerSound svc.package s)
    (hPaired : Paired svc s)
    (hFresh : IsFreshUserKey pub)
    {req : NatsJwt.AuthorizationRequest}
    (hNkey : req.userNkey = pub)
    (hID : req.server.id = s.info.id)
    (hXKey :
      req.server.xkey = s.info.xkey ∨ s.encrypts = false)
    {jwt err : String}
    (hOne : (jwt = "") ↔ (err ≠ ""))
    {answered : Reply}
    (hResponse :
      sendResponse svc.package svc.options now req
          (responseOf svc.options req jwt err) =
        .ok answered) :
    processReply svc.package s pub arrival answered.data =
      if err ≠ "" then
        .error
          (titleCase
            ("auth callout service returned an error: " ++
              err))
      else
        match decodeUserClaims svc.package jwt with
        | .error .panic => .error .panic
        | .error (.error err) => .error (titleCase err)
        | .ok uc =>
            bindUser svc.package s pub arrival uc := by
  rcases readReply_of_sendResponse hPaired hXKey hSound
      hResponse with
    ⟨token, hEncode, hReply⟩
  rcases stamped_of_response hSound hEncode with
    ⟨id, hStamped⟩
  have hClaims :
      decodeAuthorizationResponseClaims svc.package token =
        .ok (answeredClaims svc now id req jwt err) := by
    unfold decodeAuthorizationResponseClaims
    rw [decode_of_stamped hSound.json hSound.issuer hStamped]
  unfold processReply decodeResponse
  rw [hReply]
  dsimp only
  rw [hClaims]
  dsimp only
  rw [checkResponse_answeredClaims hSound hServer hFresh hNkey
    hID hOne]
  by_cases hErr : err = ""
  · rw [if_neg (not_not_intro hErr),
      if_neg (not_not_intro hErr)]
    rfl
  · rw [if_pos hErr, if_pos hErr]

/- What the service granted is what the client becomes. -/
theorem processReply_of_granted
    (hSound : svc.Sound)
    (hServer : ServerSound svc.package s)
    (hPaired : Paired svc s)
    (hFresh : IsFreshUserKey pub)
    {req : NatsJwt.AuthorizationRequest}
    (hNkey : req.userNkey = pub)
    (hID : req.server.id = s.info.id)
    (hXKey :
      req.server.xkey = s.info.xkey ∨ s.encrypts = false)
    {claims : UserClaims}
    {jwt : String}
    (hHandle : svc.handle now w req = .ok ⟨claims, jwt⟩)
    (hSome : jwt ≠ "")
    {answered : Reply}
    (hResponse :
      sendResponse svc.package svc.options now req
          (responseOf svc.options req jwt "") =
        .ok answered) :
    processReply svc.package s pub arrival answered.data =
      place s now claims := by
  rcases stamped_of_handle hSound hHandle with
    ⟨id, hStamped⟩
  have hUser :
      decodeUserClaims svc.package jwt =
        .ok (grantedClaims svc now id claims) := by
    unfold decodeUserClaims
    rw [decode_of_stamped hSound.json hSound.issuer hStamped]
  rw [processReply_of_response hSound hServer hPaired hFresh
      hNkey hID hXKey (by simp [hSome]) hResponse,
    if_neg (not_not_intro rfl), hUser]
  dsimp only
  rw [← hNkey, bindUser_grantedClaims hPaired.issuer hHandle]

/-
  What a server makes of the reply to its own request is the
  decision of the service on its client: the granted account,
  permissions and name, or the reason for refusing. Tokens,
  signatures and sealing change nothing about it.
-/
theorem processReply_eq_decision
    (hSound : svc.Sound)
    (hServer : ServerSound svc.package s)
    (hPaired : Paired svc s)
    (hFresh : IsFreshUserKey pub)
    (hSend :
      sendRequest svc.package s c pub reply now expires =
        .ok msg)
    {answered : Reply}
    (hAnswer :
      svc.answer later w msg = .ok (some answered)) :
    processReply svc.package s pub arrival answered.data =
      decision svc s c pub later w := by
  rcases decode_sendRequest hSound hServer hPaired hSend with
    ⟨requestID, hDecode⟩
  rcases serviceHandler_ok_some_iff.mp hAnswer with
    ⟨req, jwt, err, hRead, _, hAnswers, hResponse⟩
  rw [hDecode] at hRead
  have hReq := Except.ok.inj hRead
  have hNkey : req.userNkey = pub := by rw [← hReq]; rfl
  have hID : req.server.id = s.info.id := by
    rw [← hReq]
    rfl
  have hXKey :
      req.server.xkey = s.info.xkey ∨
        s.encrypts = false := by
    cases hEncrypts : s.encrypts with
    | false => exact .inr rfl
    | true =>
        left
        rw [← hReq]
        simp [sentClaims, authorizationRequest, hEncrypts]
  unfold decision
  rw [← @handle_sentClaims svc later w s c pub requestID now
    expires, hReq]
  cases hAnswers with
  | granted hUser hSome =>
      -- The user's own token is in the response.
      cases hHandle : svc.handle later w req with
      | error fault =>
          rw [hHandle] at hUser
          cases hUser
      | ok token =>
          rw [hHandle] at hUser
          have hEncoded : token.encoded = jwt :=
            Except.ok.inj hUser
          rw [← hEncoded] at hSome hResponse
          exact
            processReply_of_granted hSound hServer hPaired
              hFresh hNkey hID hXKey hHandle hSome hResponse
  | refused hErr =>
      -- The text of the error is in the response.
      cases hHandle : svc.handle later w req with
      | ok token =>
          rw [hHandle] at hErr
          cases hErr
      | error fault =>
          rw [hHandle] at hErr
          cases hErr
          have hSome := error_ne_empty_of_handle hHandle
          rw [processReply_of_response hSound hServer hPaired
              hFresh hNkey hID hXKey (by simp [hSome])
              hResponse,
            if_pos hSome]

end Callout

end AuthCallout

------------------------------------------------------------
-- What The Hub Makes Of Its Guest
------------------------------------------------------------

namespace AuthCallout

namespace Callout

open Auth Auth.NKeyAuthenticator NatsJwt NatsServer

theorem verifies_guest
    {pair : KeyPair}
    (hPair : pair = hubPair ∨ pair = accountPair) :
    (SigningPair.ofTable signatures pair).Verifies
      guestPackage.libs := by
  rcases hPair with rfl | rfl
  · exact verifies_ofTable rfl rfl rfl
  · exact verifies_ofTable rfl rfl rfl

theorem sound_guestService : guestService.Sound where
  json := by
    have hDistinct : (guestRows.map (·.2)).Nodup :=
      guestFacts.texts
    exact roundTrips_ofTable hDistinct guestHash
  issuer := verifies_guest (.inr rfl)
  account := rfl
  publicKey := guestFacts.account

theorem serverSound_hub : ServerSound guestPackage hub where
  key := verifies_guest (.inl rfl)
  server := rfl
  id := guestFacts.hubID

theorem marshal_guest
    {claims : NatsJwt.Claims}
    {data : List UInt8}
    (hMem : (claims, data) ∈ guestRows) :
    guestPackage.json.marshal claims = .ok data :=
  marshal_ofTable guestFacts.claims guestHash hMem

theorem sign_guest
    {pair : KeyPair}
    {data sig : List UInt8}
    (hMem : ⟨pair, data, sig⟩ ∈ signatures) :
    (SigningPair.ofTable signatures pair).sign
        (bytesOf (inputOf data)) =
      .ok sig := by
  have hDistinct : (signatures.map (·.data)).Nodup :=
    guestFacts.texts
  exact sign_ofTable hDistinct hMem

theorem encode_request :
    (requestClaims hub guest guestKey 1760000002).encode
        guestPackage.json hub.kp 1760000000 =
      .ok requestToken := by
  have hKey : hub.kp = .ofTable signatures hubPair := rfl
  have hMarshal :
      guestPackage.json.marshal
          (.request
            (sentClaims hub guest guestKey 1760000000
              1760000002 requestID)) =
        .ok requestText :=
    marshal_guest List.mem_cons_self
  rw [hKey]
  exact
    doEncode_of_signed (by decide) serverSound_hub.id
      guestFacts.requestIssuer guestFacts.requestHash hMarshal
      (sign_guest List.mem_cons_self)

/- The two boxes differ in the first byte of the nonce. -/
theorem distinct_sealings : (sealings.map (·.data)).Nodup := by
  have hDiffer : sealedRequest ≠ sealedResponse := by
    intro hEq
    have hChars := congrArg String.toList hEq
    unfold sealedRequest sealedResponse sealedText at hChars
    rw [String.toList_append, String.toList_append,
      String.toList_ofList, String.toList_ofList] at hChars
    have hFirst := congrArg List.head?
      (List.append_cancel_left hChars)
    revert hFirst
    decide +kernel
  simpa [sealings] using hDiffer

theorem sealBox_guest
    {own other input data : String}
    (hMem : ⟨own, other, input, data⟩ ∈ sealings) :
    (CurveKey.ofTable sealings own).sealBox input other =
      .ok data := by
  apply CurveKey.sealBox_of_mem _ hMem
  have hKeys := guestFacts.curveKeys
  simp only [sealings, List.map_cons, List.map_nil,
    List.nodup_cons, List.mem_singleton, Prod.mk.injEq]
    at hKeys ⊢
  refine ⟨fun hSame => hKeys.1 hSame.1, ?_⟩
  simp

theorem sealBox_request :
    hub.xkp.sealBox requestToken hub.authCallout.xkey =
      .ok sealedRequest := by
  have hMem :
      ⟨hubXKey, serviceXKey, requestToken, sealedRequest⟩ ∈
        sealings := by
    unfold sealings
    exact List.mem_cons_self
  have hKey : hub.xkp = .ofTable sealings hubXKey := rfl
  have hOther : hub.authCallout.xkey = serviceXKey := rfl
  rw [hKey, hOther]
  exact sealBox_guest hMem

theorem sealBox_response :
    (CurveKey.ofTable sealings serviceXKey).sealBox
        responseToken hubXKey =
      .ok sealedResponse := by
  have hMem :
      ⟨serviceXKey, hubXKey, responseToken, sealedResponse⟩ ∈
        sealings := by
    unfold sealings
    exact List.mem_cons_of_mem _ List.mem_cons_self
  exact sealBox_guest hMem

theorem versioned_sealings :
    ∀ row ∈ sealings,
      ∃ body, row.data = xKeyVersionV1 ++ body := by
  intro row hMem
  unfold sealings at hMem
  simp only [List.mem_cons, List.not_mem_nil, or_false] at hMem
  rcases hMem with rfl | rfl
  · exact ⟨_, rfl⟩
  · exact ⟨_, rfl⟩

theorem encrypts_hub : hub.encrypts = true := by
  decide

theorem sendRequest_guest :
    sendRequest guestPackage hub guest guestKey "_INBOX.1"
        1760000000 1760000002 =
      .ok ⟨sealedRequest, hubXKey, "_INBOX.1"⟩ := by
  have hAccount :
      hub.lookupAccount hub.authCallout.account =
        .ok ⟨"AUTH", none⟩ :=
    rfl
  exact sendRequest_of_sealed hAccount encode_request
    encrypts_hub sealBox_request

theorem paired_guestService : Paired guestService hub where
  issuer := rfl
  plain := by
    intro hNone
    cases hNone
  boxes := by
    intro key hKey
    cases hKey
    exact ⟨encrypts_hub,
      boxes_ofTable distinct_sealings versioned_sealings
        serviceXKey hubXKey⟩

theorem isFreshUserKey_guestKey : IsFreshUserKey guestKey :=
  ⟨guestBytes, by decide, guestFacts.user⟩

theorem guestKey_ne_empty : guestKey ≠ "" := by
  decide

theorem encode_guest :
    (userClaimsOf guestClaims).encode
        guestService.package.json guestService.issuerKeyPair
        1760000000 =
      .ok guestToken := by
  have hKey :
      guestService.issuerKeyPair =
        .ofTable signatures accountPair :=
    rfl
  have hMarshal :
      guestPackage.json.marshal (.user guestUser) =
        .ok guestText :=
    marshal_guest (List.mem_cons_of_mem _ List.mem_cons_self)
  have hSign :
      (SigningPair.ofTable signatures accountPair).sign
          (bytesOf (inputOf guestText)) =
        .ok guestSignature :=
    sign_guest (List.mem_cons_of_mem _ List.mem_cons_self)
  unfold NatsJwt.UserClaims.encode
  rw [guestFacts.subject, if_neg (by decide), hKey]
  exact
    doEncode_of_signed guestKey_ne_empty
      sound_guestService.publicKey guestFacts.userIssuer
      guestFacts.userHash hMarshal hSign

/- The service grants the guest its profile. -/
theorem handle_guest :
    guestService.handle 1760000000 guestWorld
        (authorizationRequest hub guest guestKey) =
      .ok ⟨guestClaims, guestToken⟩ := by
  have hSigned :
      (userIssuer guestService.package guestService.checks
            guestService.issuerKeyPair
            1760000000).encode guestClaims =
        .ok guestToken := by
    unfold userIssuer
    dsimp only
    exact encode_guest
  apply handleAuthRequest_ok_iff_issued.mpr
  refine ⟨.noauth, ⟨"guest", "APP", .zero⟩, rfl, ?_⟩
  exact
    { subject := guestKey_ne_empty
      claims := rfl
      valid := by decide
      signed := hSigned }

theorem encode_response :
    (responseOf guestService.options
          (authorizationRequest hub guest guestKey) guestToken
          "").encode
        guestService.package.json guestService.issuerKeyPair
        1760000000 =
      .ok responseToken := by
  have hKey :
      guestService.issuerKeyPair =
        .ofTable signatures accountPair :=
    rfl
  have hPackage : guestService.package = guestPackage := rfl
  have hSame :
      answeredClaims guestService 1760000000 responseID
          (authorizationRequest hub guest guestKey)
          guestToken "" =
        guestResponse :=
    rfl
  have hSign :
      (SigningPair.ofTable signatures accountPair).sign
          (bytesOf (inputOf responseText)) =
        .ok responseSignature :=
    sign_guest
      (List.mem_cons_of_mem _
        (List.mem_cons_of_mem _ List.mem_cons_self))
  have hMarshal :
      guestService.package.json.marshal
          (.response
            (answeredClaims guestService 1760000000 responseID
              (authorizationRequest hub guest guestKey)
              guestToken "")) =
        .ok responseText := by
    rw [hSame, hPackage]
    exact
      marshal_guest
        (List.mem_cons_of_mem _
          (List.mem_cons_of_mem _ List.mem_cons_self))
  rw [← hKey] at hSign
  have hToken :=
    response_of_signed sound_guestService guestKey_ne_empty
      hMarshal guestFacts.responseHash hSign
  exact hToken

theorem guestToken_ne_empty : guestToken ≠ "" := by
  intro hEmpty
  have hLength := congrArg String.length hEmpty
  have hDot : ".".length = 1 := rfl
  unfold guestToken at hLength
  rw [String.length_append, String.length_append, hDot,
    String.length_empty] at hLength
  omega

theorem send_guest
    {req : NatsJwt.AuthorizationRequest}
    (hXKey : req.server.xkey = hubXKey) :
    sendResponse guestService.package guestService.options
        1760000000 req
        (responseOf guestService.options
          (authorizationRequest hub guest guestKey) guestToken
          "") =
      .ok ⟨false, sealedResponse⟩ := by
  have hSeal := sealBox_response
  rw [← hXKey] at hSeal
  exact sendResponse_of_sealed rfl encode_response hSeal

theorem xkey_guest :
    (authorizationRequest hub guest guestKey).server.xkey =
      hubXKey := by
  unfold authorizationRequest
  dsimp only
  rw [if_pos encrypts_hub]
  rfl

/- The service replies with the guest's token. -/
theorem answer_guest :
    guestService.answer 1760000000 guestWorld
        ⟨sealedRequest, hubXKey, "_INBOX.1"⟩ =
      .ok (some ⟨false, sealedResponse⟩) := by
  rcases decode_sendRequest sound_guestService
      serverSound_hub paired_guestService
      sendRequest_guest with
    ⟨id, hDecode⟩
  have hUser :
      (guestService.handle 1760000000 guestWorld
            (sentClaims hub guest guestKey 1760000000
              1760000002 id).nats).map (·.encoded) =
        .ok guestToken := by
    rw [handle_sentClaims, handle_guest]
    rfl
  exact
    serviceHandler_ok_some_iff.mpr
      ⟨_, guestToken, "", hDecode, guestKey_ne_empty,
        .granted hUser guestToken_ne_empty,
        send_guest xkey_guest⟩

/- What the guest becomes. -/
def guestBound : Bound where
  user :=
    { nkey := guestKey
      account := ⟨"APP", none⟩
      permissions := none
      allowedConnectionTypes := []
      issued := 1760000000
      signingKey := "" }
  username := some "guest"

theorem place_guest :
    place hub 1760000000 guestClaims = .ok guestBound :=
  rfl

theorem processReply_guest :
    processReply guestService.package hub guestKey 1760000000
        sealedResponse =
      .ok guestBound := by
  have hReply :=
    @processReply_of_granted guestService hub guestKey
      1760000000 1760000000 guestWorld sound_guestService
      serverSound_hub paired_guestService
      isFreshUserKey_guestKey
      (authorizationRequest hub guest guestKey) rfl rfl
      (.inl xkey_guest) guestClaims guestToken handle_guest
      guestToken_ne_empty ⟨false, sealedResponse⟩
      (send_guest xkey_guest)
  rw [place_guest] at hReply
  exact hReply

/- The hub does with the guest what the service decided. -/
theorem decided_guest :
    processReply guestService.package hub guestKey 1760000000
        sealedResponse =
      decision guestService hub guest guestKey 1760000000
        guestWorld := by
  have hPackage : guestService.package = guestPackage := rfl
  have hSend :
      sendRequest guestService.package hub guest guestKey
          "_INBOX.1" 1760000000 1760000002 =
        .ok ⟨sealedRequest, hubXKey, "_INBOX.1"⟩ := by
    rw [hPackage]
    exact sendRequest_guest
  exact
    @processReply_eq_decision guestService hub guest guestKey
      "_INBOX.1" 1760000000 1760000002 1760000000 1760000000
      guestWorld ⟨sealedRequest, hubXKey, "_INBOX.1"⟩
      sound_guestService serverSound_hub paired_guestService
      isFreshUserKey_guestKey hSend ⟨false, sealedResponse⟩
      answer_guest

end Callout

end AuthCallout

------------------------------------------------------------
-- One Side Without Encryption
------------------------------------------------------------

namespace AuthCallout

namespace Callout

open Auth NatsJwt NatsServer

/-
  When only one side encrypts, the service cannot read the
  requests of the server, whoever the client is.
-/
theorem readPayload_of_mismatch
    {svc : Service}
    {s : Server}
    {c : Client}
    {pub reply : String}
    {now expires : Int}
    {msg : Message}
    (hMixed : svc.curveKeyPair.isSome ≠ s.encrypts)
    (hSealed : s.xkp.Versioned)
    (hSend :
      sendRequest svc.package s c pub reply now expires =
        .ok msg) :
    ∃ err, readPayload svc.options msg = .error err := by
  rcases sendRequest_cases hSend with
    ⟨b, hEncode, _, hData⟩
  unfold readPayload Service.options
  dsimp only
  split
  · exact ⟨_, rfl⟩
  · rcases hData with
      ⟨hPlain, hMsg⟩ | ⟨hEncrypts, _, hSeal⟩
    · cases hKey : svc.curveKeyPair with
      | none =>
          rw [hKey, hPlain] at hMixed
          exact absurd rfl hMixed
      | some key =>
          rcases stamped_of_doEncode rfl hEncode with
            ⟨_, issuer, id, _, hStamped⟩
          rcases exists_rest_of_stamped hStamped with
            ⟨rest, hRest⟩
          rw [hMsg, hRest, hasPrefix_append]
          exact ⟨_, rfl⟩
    · cases hKey : svc.curveKeyPair with
      | some key =>
          rw [hKey, hEncrypts] at hMixed
          exact absurd rfl hMixed
      | none =>
          rcases hSealed _ _ _ hSeal with ⟨body, hBody⟩
          rw [hBody, not_hasPrefix_sealed rfl]
          exact ⟨_, rfl⟩

/- It leaves them without a reply. -/
theorem answer_of_unread
    {svc : Service}
    {msg : Message}
    {err : String}
    (hUnread : readPayload svc.options msg = .error err)
    (now : Int)
    (w : Config.World) :
    svc.answer now w msg = .ok none := by
  unfold Service.answer serviceHandler decode
  rw [hUnread]

/- The hub encrypts, and this service does not. -/
def plainService : Service :=
  { guestService with curveKeyPair := none }

end Callout

end AuthCallout
