import EnergyChain.Go.Bytes

/-!
# Hexadecimal texts

`encoding/hex`, and `strings.ToUpper` on the texts that it writes. A node prints the data of a response
in upper case; the decoder takes both cases, so the bytes come back (`hexDecode_toUpper`).
-/

set_option autoImplicit false

namespace EnergyChain.Go

/-- `hextable[d]`. -/
def hexDigit (d : Nat) : UInt8 := if d < 10 then UInt8.ofNat (48 + d) else UInt8.ofNat (87 + d)

/-- `hex.EncodeToString`. -/
def hexEncode (src : GoString) : GoString :=
  src.flatMap fun v => [hexDigit (v.toNat / 16), hexDigit (v.toNat % 16)]

/-- `unicode.ToUpper` on ASCII. -/
def upperByte (b : UInt8) : UInt8 := if 97 ≤ b ∧ b ≤ 122 then b - 32 else b

/-- `strings.ToUpper` of an ASCII text. -/
def toUpper (s : GoString) : GoString := s.map upperByte

/-- The errors of `hex.DecodeString`: `InvalidByteError` and `ErrLength`. -/
inductive HexError where
  | invalidByte (b : UInt8)
  | length
  deriving DecidableEq, Repr

/-- `reverseHexTable`, where a byte above `0x0f` is an error. -/
def fromHexChar (b : UInt8) : Except HexError Nat :=
  if 48 ≤ b ∧ b ≤ 57 then .ok (b.toNat - 48)
  else if 97 ≤ b ∧ b ≤ 102 then .ok (b.toNat - 87)
  else if 65 ≤ b ∧ b ≤ 70 then .ok (b.toNat - 55)
  else .error (.invalidByte b)

/-- `hex.DecodeString`. A last character without a partner is checked before the length is. -/
def hexDecode : GoString → Except HexError GoString
  | [] => .ok []
  | [p] => do
      let _ ← fromHexChar p
      .error .length
  | p :: q :: src => do
      let a ← fromHexChar p
      let b ← fromHexChar q
      let dst ← hexDecode src
      pure (UInt8.ofNat (a * 16 + b) :: dst)

theorem fromHexChar_upperByte {d : Nat} (hd : d < 16) :
    fromHexChar (upperByte (hexDigit d)) = .ok d := by
  rcases d with _ | _ | _ | _ | _ | _ | _ | _ | _ | _ | _ | _ | _ | _ | _ | _ | d
  all_goals first | rfl | omega

/-- The upper-case text of some bytes is decoded to them. -/
theorem hexDecode_toUpper (bz : GoString) : hexDecode (toUpper (hexEncode bz)) = .ok bz := by
  induction bz with
  | nil => rfl
  | cons v bz ih =>
      have hv := v.toNat_lt
      have hhigh := fromHexChar_upperByte (show v.toNat / 16 < 16 by omega)
      have hlow := fromHexChar_upperByte (show v.toNat % 16 < 16 by omega)
      have hbyte : UInt8.ofNat (v.toNat / 16 * 16 + v.toNat % 16) = v := by
        rw [Nat.div_add_mod']
        exact UInt8.ofNat_toNat
      show hexDecode (upperByte (hexDigit (v.toNat / 16)) :: upperByte (hexDigit (v.toNat % 16)) ::
        toUpper (hexEncode bz)) = _
      rw [hexDecode, hhigh, hlow, ih]
      show Except.ok (UInt8.ofNat (v.toNat / 16 * 16 + v.toNat % 16) :: bz) = _
      rw [hbyte]

/-- A text that is decoded has two characters for each byte. -/
theorem length_hexDecode {s bz : GoString} (h : hexDecode s = .ok bz) : s.length = 2 * bz.length := by
  induction s using hexDecode.induct generalizing bz with
  | case1 =>
      cases h
      rfl
  | case2 p =>
      rw [hexDecode] at h
      cases hp : fromHexChar p with
      | error e =>
          rw [hp] at h
          cases h
      | ok a =>
          rw [hp] at h
          cases h
  | case3 p q src ih =>
      rw [hexDecode] at h
      cases hp : fromHexChar p with
      | error e =>
          rw [hp] at h
          cases h
      | ok a =>
          cases hq : fromHexChar q with
          | error e =>
              rw [hp, hq] at h
              cases h
          | ok b =>
              cases hsrc : hexDecode src with
              | error e =>
                  rw [hp, hq, hsrc] at h
                  cases h
              | ok dst =>
                  rw [hp, hq, hsrc] at h
                  cases h
                  have := ih hsrc
                  simp only [List.length_cons]
                  omega

theorem toUpper_hexEncode_eq_nil {bz : GoString} : toUpper (hexEncode bz) = [] ↔ bz = [] := by
  cases bz with
  | nil => simp [toUpper, hexEncode]
  | cons v bz => simp [toUpper, hexEncode]

end EnergyChain.Go
