import DsxExchange.AuthCallout.Auth.NKeyFormat
import DsxExchange.Go.Base32

/-
  The texts of NKeys: how the vendored package `nkeys` reads
  what it has written, and which texts the service takes.

  Key definitions include:
    * `AuthCallout.Auth.decodeText`
    * `AuthCallout.Auth.decodePrefixed`
    * `AuthCallout.Auth.isValidPublicKey`
    * `AuthCallout.Auth.fromPublicKey`

  Key theorems include:
    * `AuthCallout.Auth.decodeText_of_encode`
    * `AuthCallout.Auth.fromPublicKey_of_encode`
    * `AuthCallout.Auth.validateNKey_text_iff`
-/

------------------------------------------------------------
-- Reading Keys
------------------------------------------------------------

namespace AuthCallout

namespace Auth

/- `binary.LittleEndian.Uint16`. -/
def uint16 : List UInt8 → UInt16
| [low, high] => UInt16.ofNat (low.toNat + high.toNat * 256)
| _ => 0

/- `validate`. -/
def validate
    (data : List UInt8)
    (expected : UInt16) : Except String Unit :=
  if crc16 data ≠ expected then
    .error "nkeys: invalid checksum"
  else
    .ok ()

/- `decode`: the bytes in front of a matching checksum. -/
def decodeText (src : String) :
    Except String (List UInt8) :=
  match Go.decodeBase32 src.toList with
  | .error err => .error err
  | .ok raw =>
      if raw.length < 4 then
        .error "nkeys: invalid encoded key"
      else
        let n := raw.length
        let crc := uint16 (raw.drop (n - 2))
        match validate (raw.take (n - 2)) crc with
        | .error err => .error err
        | .ok () => .ok (raw.take (n - 2))

/- `Decode`. Only the first five bits of a prefix count. -/
def decodePrefixed
    (expectedPrefix : UInt8)
    (src : String) : Except String (List UInt8) :=
  match checkValidPrefixByte expectedPrefix with
  | .error err => .error err
  | .ok () =>
      match decodeText src with
      | .error err => .error err
      | .ok raw =>
          if raw.headD 0 &&& 248 ≠ expectedPrefix then
            .error "nkeys: invalid prefix byte"
          else
            .ok raw.tail

/- `IsValidPublicUserKey` and the others of its kind. -/
def isValidPublicKey
    (expectedPrefix : UInt8)
    (src : String) : Bool :=
  (decodePrefixed expectedPrefix src).isOk

/- `checkValidPublicPrefixByte`. -/
def checkValidPublicPrefixByte (kind : UInt8) :
    Except String Unit :=
  if kind ∈
      [prefixByteOperator, prefixByteServer,
        prefixByteCluster, prefixByteAccount,
        prefixByteUser, prefixByteCurve] then
    .ok ()
  else
    .error "nkeys: invalid prefix byte"

/- `FromPublicKey`. -/
def fromPublicKey (publicKey : String) :
    Except String KeyPair :=
  match decodeText publicKey with
  | .error err => .error err
  | .ok raw =>
      match checkValidPublicPrefixByte (raw.headD 0) with
      | .error _ => .error "nkeys: invalid public key"
      | .ok () => .ok ⟨raw.headD 0, raw.tail⟩

end Auth

end AuthCallout

------------------------------------------------------------
-- The Round Trip
------------------------------------------------------------

namespace AuthCallout

namespace Auth

/- The digits are those of the encoding. -/
theorem base32Value?_digit
    {value : ℕ}
    (hValue : value < 32) :
    Go.base32Value? (base32Digit value) = some value := by
  have hAll :
      ∀ v < 32,
        Go.base32Value? (base32Digit v) = some v := by
    decide
  exact hAll value hValue

theorem base32Chars_eq_map (data : List UInt8) :
    base32Chars (data.map UInt8.toNat) =
      (Go.base32Groups data).map base32Digit := by
  induction data using Go.base32Groups.induct with
  | case1 a b c d e rest ih =>
      rw [Go.base32Groups, List.map_cons, List.map_cons,
        List.map_cons, List.map_cons, List.map_cons,
        base32Chars, ih]
      rfl
  | case2 a b c d => rfl
  | case3 a b c => rfl
  | case4 a b => rfl
  | case5 a => rfl
  | case6 => rfl

/- The low byte of a checksum is written first. -/
theorem uint16_bytes (crc : UInt16) :
    uint16 [crc.toUInt8, (crc >>> 8).toUInt8] = crc := by
  have hCrc := crc.toNat_lt
  apply UInt16.toNat_inj.mp
  rw [uint16, UInt16.toNat_ofNat', UInt16.toNat_toUInt8,
    UInt16.toNat_toUInt8, UInt16.toNat_shiftRight]
  have hShift : (8 : UInt16).toNat % 16 = 8 := rfl
  rw [hShift, Nat.shiftRight_eq_div_pow]
  omega

theorem take_append_pair
    (data : List UInt8)
    (low high : UInt8) :
    (data ++ [low, high]).take
        ((data ++ [low, high]).length - 2) = data := by
  rw [List.length_append, List.length_cons,
    List.length_singleton, Nat.add_sub_cancel,
    List.take_left]

theorem drop_append_pair
    (data : List UInt8)
    (low high : UInt8) :
    (data ++ [low, high]).drop
        ((data ++ [low, high]).length - 2) = [low, high] := by
  rw [List.length_append, List.length_cons,
    List.length_singleton, Nat.add_sub_cancel,
    List.drop_left]

/- What `Encode` writes for some bytes is read as them. -/
theorem decodeText_of_encode
    {kind : UInt8}
    {src : List UInt8}
    {text : String}
    (hEncode : encode kind src = .ok text)
    (hSrc : src ≠ []) :
    decodeText text = .ok (kind :: src) := by
  unfold encode at hEncode
  cases hValid : checkValidPrefixByte kind with
  | error err =>
      rw [hValid] at hEncode
      cases hEncode
  | ok _ =>
      rw [hValid] at hEncode
      have hText := Except.ok.inj hEncode
      have hLength :
          ¬ (kind :: src ++
            [(crc16 (kind :: src)).toUInt8,
              (crc16 (kind :: src) >>> 8).toUInt8]).length <
            4 := by
        have hPos := List.length_pos_of_ne_nil hSrc
        simp only [List.length_append, List.length_cons,
          List.length_nil]
        omega
      unfold decodeText
      rw [← hText, String.toList_ofList, base32Chars_eq_map,
        Go.decodeBase32_map (fun _ => base32Value?_digit)]
      dsimp only
      rw [if_neg hLength, take_append_pair,
        drop_append_pair, uint16_bytes, validate,
        if_neg (not_not_intro rfl)]

/- A text that `Encode` writes is read as its key pair. -/
theorem fromPublicKey_of_encode
    {kind : UInt8}
    {src : List UInt8}
    {text : String}
    (hEncode : encode kind src = .ok text)
    (hSrc : src ≠ [])
    (hPublic : checkValidPublicPrefixByte kind = .ok ()) :
    fromPublicKey text = .ok ⟨kind, src⟩ := by
  unfold fromPublicKey
  rw [decodeText_of_encode hEncode hSrc]
  dsimp only [List.headD_cons, List.tail_cons]
  rw [hPublic]

/- What is read has a checksum, and so a body. -/
theorem length_of_decodeText
    {src : String}
    {raw : List UInt8}
    (hDecode : decodeText src = .ok raw) :
    2 ≤ raw.length := by
  unfold decodeText at hDecode
  split at hDecode
  · cases hDecode
  · split at hDecode
    · cases hDecode
    · rename_i hLength
      dsimp only at hDecode
      split at hDecode
      · cases hDecode
      · have hRaw := Except.ok.inj hDecode
        rw [← hRaw, List.length_take]
        omega

/- The key pair of a text has a key. -/
theorem pub_ne_nil_of_fromPublicKey
    {publicKey : String}
    {kp : KeyPair}
    (hKey : fromPublicKey publicKey = .ok kp) :
    kp.pub ≠ [] := by
  unfold fromPublicKey at hKey
  cases hDecode : decodeText publicKey with
  | error err =>
      rw [hDecode] at hKey
      cases hKey
  | ok raw =>
      have hLength := length_of_decodeText hDecode
      rw [hDecode] at hKey
      dsimp only at hKey
      split at hKey
      · cases hKey
      · have hPair := Except.ok.inj hKey
        rw [← hPair]
        apply List.ne_nil_of_length_pos
        rw [List.length_tail]
        omega

end Auth

end AuthCallout

------------------------------------------------------------
-- The Texts That Are Taken
------------------------------------------------------------

namespace AuthCallout

namespace Auth

/-
  With the package as it is, `validateNKey` takes the texts
  that `Encode` writes for user keys and no others: not the
  ones with line breaks, spare digits or other spare bits that
  the package reads as well.
-/
theorem validateNKey_text_iff
    {libs : Libraries}
    (hLibs : libs.fromPublicKey = fromPublicKey)
    {publicKey : String} :
    validateNKey libs publicKey = .ok () ↔
      ∃ pub,
        pub ≠ [] ∧
          encode prefixByteUser pub = .ok publicKey := by
  rw [validateNKey_ok_iff]
  constructor
  · intro hUser
    rcases hUser.canonical with ⟨pub, hKey, hEncode⟩
    rw [hLibs] at hKey
    exact ⟨pub, pub_ne_nil_of_fromPublicKey hKey, hEncode⟩
  · rintro ⟨pub, hPub, hEncode⟩
    refine ⟨pub, ?_, hEncode⟩
    rw [hLibs]
    exact fromPublicKey_of_encode hEncode hPub (by decide)

/- The package `nkeys` as it is, and a user key. -/
def nkeysLibraries : Libraries :=
  { NKeyAuthenticator.accountLibraries with
    fromPublicKey := fromPublicKey }

theorem validateNKey_userKey :
    validateNKey nkeysLibraries
        "UDXU4RCSJNZOIQHZNWXHXORDPRTGNJAHAHFRGZNEEJCPQTT2M7NLCNF4" =
      .ok () := by
  apply (validateNKey_text_iff rfl).mpr
  refine
    ⟨[239, 78, 68, 82, 75, 114, 228, 64, 249, 109, 174, 123,
      186, 35, 124, 102, 102, 164, 7, 1, 203, 19, 101, 164,
      34, 68, 248, 78, 122, 103, 218, 177], by decide, ?_⟩
  decide +kernel

end Auth

end AuthCallout
