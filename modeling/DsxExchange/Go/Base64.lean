import DsxExchange.Go.Text

/-
  The raw URL encoding of base64, and its round trip.

  Key definitions include:
    * `Go.base64URLDigit`
    * `Go.base64Groups`
    * `Go.encodeRawURL`

  Key theorems include:
    * `Go.base64URLValue?_digit`
    * `Go.decodeRawURL_encodeRawURL`
    * `Go.not_mem_encodeRawURL`
-/

------------------------------------------------------------
-- Encoding
------------------------------------------------------------

namespace Go

/- The digit of a six-bit value. -/
def base64URLDigit (value : ℕ) : Char :=
  if value < 26 then
    Char.ofNat (value + 65)
  else if value < 52 then
    Char.ofNat (value - 26 + 97)
  else if value < 62 then
    Char.ofNat (value - 52 + 48)
  else if value = 62 then
    '-'
  else
    '_'

/- Three bytes are four values, and a rest is not padded. -/
def base64Groups : List UInt8 → List ℕ
| a :: b :: c :: rest =>
    a.toNat / 4 ::
      (a.toNat % 4 * 16 + b.toNat / 16) ::
        (b.toNat % 16 * 4 + c.toNat / 64) ::
          c.toNat % 64 :: base64Groups rest
| [a, b] =>
    [a.toNat / 4, a.toNat % 4 * 16 + b.toNat / 16,
      b.toNat % 16 * 4]
| [a] => [a.toNat / 4, a.toNat % 4 * 16]
| [] => []

/- `base64.RawURLEncoding.EncodeToString`. -/
def encodeRawURL (src : List UInt8) : String :=
  String.ofList ((base64Groups src).map base64URLDigit)

end Go

------------------------------------------------------------
-- The Round Trip
------------------------------------------------------------

namespace Go

/- Each digit is read as the value it was written for. -/
theorem base64URLValue?_digit
    {value : ℕ}
    (hValue : value < 64) :
    base64URLValue? (base64URLDigit value) = some value := by
  have hAll :
      ∀ v < 64,
        base64URLValue? (base64URLDigit v) = some v := by
    decide +kernel
  exact hAll value hValue

theorem base64URLDigit_ne
    {value : ℕ}
    {c : Char}
    (hValue : value < 64)
    (hOther : base64URLValue? c = none) :
    base64URLDigit value ≠ c := by
  intro hEq
  have hRead := base64URLValue?_digit hValue
  rw [hEq, hOther] at hRead
  cases hRead

theorem lt_of_mem_base64Groups
    {src : List UInt8}
    {value : ℕ}
    (hMem : value ∈ base64Groups src) :
    value < 64 := by
  induction src using base64Groups.induct with
  | case1 a b c rest ih =>
      have hA := a.toNat_lt
      have hB := b.toNat_lt
      have hC := c.toNat_lt
      simp only [base64Groups, List.mem_cons] at hMem
      rcases hMem with rfl | rfl | rfl | rfl | hRest
      · omega
      · omega
      · omega
      · omega
      · exact ih hRest
  | case2 a b =>
      have hA := a.toNat_lt
      have hB := b.toNat_lt
      simp only [base64Groups, List.mem_cons,
        List.not_mem_nil, or_false] at hMem
      omega
  | case3 a =>
      have hA := a.toNat_lt
      simp only [base64Groups, List.mem_cons,
        List.not_mem_nil, or_false] at hMem
      omega
  | case4 => cases hMem

/- A row of digits holds no line breaks and no other text. -/
theorem base64Sextets_map
    {values : List ℕ}
    (hValues : ∀ value ∈ values, value < 64)
    (position : ℕ) :
    base64Sextets position (values.map base64URLDigit) =
      .ok values := by
  induction values generalizing position with
  | nil => rfl
  | cons value rest ih =>
      have hValue := hValues value List.mem_cons_self
      have hReturn : base64URLDigit value ≠ '\r' :=
        base64URLDigit_ne hValue (by decide)
      have hNewline : base64URLDigit value ≠ '\n' :=
        base64URLDigit_ne hValue (by decide)
      rw [List.map_cons, base64Sextets,
        if_neg (by simp [hReturn, hNewline]),
        base64URLValue?_digit hValue]
      dsimp only
      rw [ih (fun v hMem =>
        hValues v (List.mem_cons_of_mem _ hMem))]
      rfl

/- The values of some bytes are read as those bytes. -/
theorem base64Bytes_base64Groups (src : List UInt8) :
    base64Bytes (base64Groups src) = src := by
  induction src using base64Groups.induct with
  | case1 a b c rest ih =>
      have hA := a.toNat_lt
      have hB := b.toNat_lt
      have hC := c.toNat_lt
      rw [base64Groups, base64Bytes, ih]
      congr 1
      · apply UInt8.toNat_inj.mp
        rw [UInt8.toNat_ofNat']
        omega
      congr 1
      · apply UInt8.toNat_inj.mp
        rw [UInt8.toNat_ofNat']
        omega
      congr 1
      · apply UInt8.toNat_inj.mp
        rw [UInt8.toNat_ofNat']
        omega
  | case2 a b =>
      have hA := a.toNat_lt
      have hB := b.toNat_lt
      rw [base64Groups, base64Bytes]
      congr 1
      · apply UInt8.toNat_inj.mp
        rw [UInt8.toNat_ofNat']
        omega
      congr 1
      · apply UInt8.toNat_inj.mp
        rw [UInt8.toNat_ofNat']
        omega
  | case3 a =>
      have hA := a.toNat_lt
      rw [base64Groups, base64Bytes]
      congr 1
      · apply UInt8.toNat_inj.mp
        rw [UInt8.toNat_ofNat']
        omega
  | case4 => rfl

theorem length_base64Groups (src : List UInt8) :
    (base64Groups src).length % 4 ≠ 1 := by
  induction src using base64Groups.induct with
  | case1 a b c rest ih =>
      simp only [base64Groups, List.length_cons]
      omega
  | case2 a b => simp [base64Groups]
  | case3 a => simp [base64Groups]
  | case4 => simp [base64Groups]

/- What is encoded is decoded as the same bytes. -/
theorem decodeRawURL_encodeRawURL (src : List UInt8) :
    decodeRawURL (encodeRawURL src) = .ok src := by
  unfold decodeRawURL encodeRawURL
  rw [String.toList_ofList,
    base64Sextets_map (fun _ => lt_of_mem_base64Groups)]
  dsimp only
  rw [if_neg (length_base64Groups src),
    base64Bytes_base64Groups]

/- Only digits are written. -/
theorem not_mem_encodeRawURL
    {c : Char}
    (hOther : base64URLValue? c = none)
    (src : List UInt8) :
    c ∉ (encodeRawURL src).toList := by
  rw [encodeRawURL, String.toList_ofList]
  intro hMem
  rcases List.mem_map.mp hMem with ⟨value, hValue, hDigit⟩
  exact base64URLDigit_ne (lt_of_mem_base64Groups hValue)
    hOther hDigit

example : encodeRawURL [1, 15, 254] = "AQ_-" := by
  decide

end Go
