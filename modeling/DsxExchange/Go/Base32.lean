import Mathlib.Data.List.Basic

/-
  The standard encoding of base32 without padding, and its
  round trip.

  Key definitions include:
    * `Go.base32Value?`
    * `Go.base32Values`, `Go.base32Bytes`
    * `Go.base32Groups`
    * `Go.decodeBase32`

  Key theorems include:
    * `Go.base32Bytes_base32Groups`
    * `Go.decodeBase32_map`
-/

------------------------------------------------------------
-- Decoding
------------------------------------------------------------

namespace Go

/- The alphabet of `base32.StdEncoding`. -/
def base32Value? (c : Char) : Option ℕ :=
  if c.isUpper then
    some (c.toNat - 65)
  else if 50 ≤ c.toNat ∧ c.toNat ≤ 55 then
    some (c.toNat - 50 + 26)
  else
    none

/-
  The five-bit values of a text without line breaks. A
  character outside the alphabet fails at its own position.
-/
def base32Values :
    ℕ → List Char → Except ℕ (List ℕ)
| _, [] => .ok []
| position, c :: rest =>
    match base32Value? c with
    | none => .error position
    | some value =>
        (base32Values (position + 1) rest).map (value :: ·)

/-
  The bytes of a row of five-bit values. A last group of one,
  three or six values gives none, and the spare bits of the
  others are dropped without a check.
-/
def base32Bytes : List ℕ → List UInt8
| a :: b :: c :: d :: e :: f :: g :: h :: rest =>
    UInt8.ofNat (a * 8 + b / 4) ::
      UInt8.ofNat (b % 4 * 64 + c * 2 + d / 16) ::
      UInt8.ofNat (d % 16 * 16 + e / 2) ::
      UInt8.ofNat (e % 2 * 128 + f * 4 + g / 8) ::
      UInt8.ofNat (g % 8 * 32 + h) :: base32Bytes rest
| [a, b, c, d, e, f, g] =>
    [UInt8.ofNat (a * 8 + b / 4),
      UInt8.ofNat (b % 4 * 64 + c * 2 + d / 16),
      UInt8.ofNat (d % 16 * 16 + e / 2),
      UInt8.ofNat (e % 2 * 128 + f * 4 + g / 8)]
| [a, b, c, d, e] =>
    [UInt8.ofNat (a * 8 + b / 4),
      UInt8.ofNat (b % 4 * 64 + c * 2 + d / 16),
      UInt8.ofNat (d % 16 * 16 + e / 2)]
| [a, b, c, d] =>
    [UInt8.ofNat (a * 8 + b / 4),
      UInt8.ofNat (b % 4 * 64 + c * 2 + d / 16)]
| [a, b] => [UInt8.ofNat (a * 8 + b / 4)]
| _ => []

/- `Decode`, which drops the line breaks first. -/
def decodeBase32 (src : List Char) :
    Except String (List UInt8) :=
  match base32Values 0
      (src.filter (fun c => c ≠ '\r' ∧ c ≠ '\n')) with
  | .error position =>
      .error
        ("illegal base32 data at input byte " ++
          toString position)
  | .ok values => .ok (base32Bytes values)

end Go

------------------------------------------------------------
-- The Round Trip
------------------------------------------------------------

namespace Go

/- Five bytes are eight values, and a rest is not padded. -/
def base32Groups : List UInt8 → List ℕ
| a :: b :: c :: d :: e :: rest =>
    a.toNat / 8 ::
      (a.toNat % 8 * 4 + b.toNat / 64) ::
      (b.toNat / 2 % 32) ::
      (b.toNat % 2 * 16 + c.toNat / 16) ::
      (c.toNat % 16 * 2 + d.toNat / 128) ::
      (d.toNat / 4 % 32) ::
      (d.toNat % 4 * 8 + e.toNat / 32) ::
      (e.toNat % 32) :: base32Groups rest
| [a, b, c, d] =>
    [a.toNat / 8, a.toNat % 8 * 4 + b.toNat / 64,
      b.toNat / 2 % 32, b.toNat % 2 * 16 + c.toNat / 16,
      c.toNat % 16 * 2 + d.toNat / 128, d.toNat / 4 % 32,
      d.toNat % 4 * 8]
| [a, b, c] =>
    [a.toNat / 8, a.toNat % 8 * 4 + b.toNat / 64,
      b.toNat / 2 % 32, b.toNat % 2 * 16 + c.toNat / 16,
      c.toNat % 16 * 2]
| [a, b] =>
    [a.toNat / 8, a.toNat % 8 * 4 + b.toNat / 64,
      b.toNat / 2 % 32, b.toNat % 2 * 16]
| [a] => [a.toNat / 8, a.toNat % 8 * 4]
| [] => []

theorem lt_of_mem_base32Groups
    {src : List UInt8}
    {value : ℕ}
    (hMem : value ∈ base32Groups src) :
    value < 32 := by
  induction src using base32Groups.induct with
  | case1 a b c d e rest ih =>
      have hA := a.toNat_lt
      have hB := b.toNat_lt
      have hC := c.toNat_lt
      have hD := d.toNat_lt
      have hE := e.toNat_lt
      simp only [base32Groups, List.mem_cons] at hMem
      rcases hMem with
        rfl | rfl | rfl | rfl | rfl | rfl | rfl | rfl | hRest
      all_goals first | omega | exact ih hRest
  | case2 a b c d =>
      have hA := a.toNat_lt
      have hB := b.toNat_lt
      have hC := c.toNat_lt
      have hD := d.toNat_lt
      simp only [base32Groups, List.mem_cons,
        List.not_mem_nil, or_false] at hMem
      omega
  | case3 a b c =>
      have hA := a.toNat_lt
      have hB := b.toNat_lt
      have hC := c.toNat_lt
      simp only [base32Groups, List.mem_cons,
        List.not_mem_nil, or_false] at hMem
      omega
  | case4 a b =>
      have hA := a.toNat_lt
      have hB := b.toNat_lt
      simp only [base32Groups, List.mem_cons,
        List.not_mem_nil, or_false] at hMem
      omega
  | case5 a =>
      have hA := a.toNat_lt
      simp only [base32Groups, List.mem_cons,
        List.not_mem_nil, or_false] at hMem
      omega
  | case6 => cases hMem

theorem ofNat_eq_of_toNat
    {a : UInt8}
    {n : ℕ}
    (hEq : n = a.toNat) :
    UInt8.ofNat n = a := by
  rw [hEq, UInt8.ofNat_toNat]

/- The values of some bytes are read as those bytes. -/
theorem base32Bytes_base32Groups (src : List UInt8) :
    base32Bytes (base32Groups src) = src := by
  induction src using base32Groups.induct with
  | case1 a b c d e rest ih =>
      have hA := a.toNat_lt
      have hB := b.toNat_lt
      have hC := c.toNat_lt
      have hD := d.toNat_lt
      have hE := e.toNat_lt
      rw [base32Groups, base32Bytes, ih,
        ofNat_eq_of_toNat (a := a) (by omega),
        ofNat_eq_of_toNat (a := b) (by omega),
        ofNat_eq_of_toNat (a := c) (by omega),
        ofNat_eq_of_toNat (a := d) (by omega),
        ofNat_eq_of_toNat (a := e) (by omega)]
  | case2 a b c d =>
      have hA := a.toNat_lt
      have hB := b.toNat_lt
      have hC := c.toNat_lt
      have hD := d.toNat_lt
      rw [base32Groups, base32Bytes,
        ofNat_eq_of_toNat (a := a) (by omega),
        ofNat_eq_of_toNat (a := b) (by omega),
        ofNat_eq_of_toNat (a := c) (by omega),
        ofNat_eq_of_toNat (a := d) (by omega)]
  | case3 a b c =>
      have hA := a.toNat_lt
      have hB := b.toNat_lt
      have hC := c.toNat_lt
      rw [base32Groups, base32Bytes,
        ofNat_eq_of_toNat (a := a) (by omega),
        ofNat_eq_of_toNat (a := b) (by omega),
        ofNat_eq_of_toNat (a := c) (by omega)]
  | case4 a b =>
      have hA := a.toNat_lt
      have hB := b.toNat_lt
      rw [base32Groups, base32Bytes,
        ofNat_eq_of_toNat (a := a) (by omega),
        ofNat_eq_of_toNat (a := b) (by omega)]
  | case5 a =>
      have hA := a.toNat_lt
      rw [base32Groups, base32Bytes,
        ofNat_eq_of_toNat (a := a) (by omega)]
  | case6 => rfl

/- A row of digits is read as the values behind them. -/
theorem base32Values_map
    {digit : ℕ → Char}
    (hDigit :
      ∀ value < 32, base32Value? (digit value) = some value)
    {values : List ℕ}
    (hValues : ∀ value ∈ values, value < 32)
    (position : ℕ) :
    base32Values position (values.map digit) =
      .ok values := by
  induction values generalizing position with
  | nil => rfl
  | cons value rest ih =>
      rw [List.map_cons, base32Values,
        hDigit value (hValues value List.mem_cons_self)]
      dsimp only
      rw [ih (fun v hMem =>
        hValues v (List.mem_cons_of_mem _ hMem))]
      rfl

/- What is written with these digits is read back. -/
theorem decodeBase32_map
    {digit : ℕ → Char}
    (hDigit :
      ∀ value < 32, base32Value? (digit value) = some value)
    (src : List UInt8) :
    decodeBase32 ((base32Groups src).map digit) =
      .ok src := by
  have hSolid :
      ((base32Groups src).map digit).filter
          (fun c => c ≠ '\r' ∧ c ≠ '\n') =
        (base32Groups src).map digit := by
    apply List.filter_eq_self.mpr
    intro c hMem
    rcases List.mem_map.mp hMem with ⟨value, hValue, rfl⟩
    have hRead :=
      hDigit value (lt_of_mem_base32Groups hValue)
    have hReturn : digit value ≠ '\r' := by
      intro hEq
      rw [hEq] at hRead
      cases hRead
    have hNewline : digit value ≠ '\n' := by
      intro hEq
      rw [hEq] at hRead
      cases hRead
    simp [hReturn, hNewline]
  rw [decodeBase32, hSolid,
    base32Values_map hDigit (fun _ => lt_of_mem_base32Groups)]
  dsimp only
  rw [base32Bytes_base32Groups]

end Go
