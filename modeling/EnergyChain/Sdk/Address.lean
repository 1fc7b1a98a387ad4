import EnergyChain.Go.Outcome

/-!
# Account addresses

An account address is a byte string of 1 to 255 bytes, written in messages as a bech32 text with the
prefix `cosmos`. The bech32 library is a parameter: its decoder returns the human-readable prefix and
the bytes, or an error text.
-/

set_option autoImplicit false

namespace EnergyChain.Sdk

open EnergyChain.Go

/-- `sdk.AccAddress`. -/
abbrev AccAddress := List UInt8

/-- The two directions of the bech32 library: `bech32.DecodeAndConvert` and `AccAddress.String`. -/
structure Bech32 where
  decodeAndConvert : GoString → Except GoString (GoString × AccAddress)
  addrString : AccAddress → GoString

/-- `VerifyAddressFormat`. -/
def verifyAddressFormat (bz : AccAddress) : Outcome Unit := do
  require (bz ≠ []) (.error (bytes "addresses cannot be empty: unknown address"))
  require (bz.length ≤ 255)
    (.error (bytes "address max length is 255, got " ++ formatNat bz.length ++
      bytes ": unknown address"))

/-- `sdk.AccAddressFromBech32`. -/
def accAddressFromBech32 (lib : Bech32) (address : GoString) : Outcome AccAddress := do
  require (trimSpace address ≠ []) (.error (bytes "empty address string is not allowed"))
  match lib.decodeAndConvert address with
  | .error err => fail err
  | .ok (hrp, bz) =>
      require (hrp = bytes "cosmos")
        (.error (bytes "invalid Bech32 prefix; expected cosmos, got " ++ hrp))
      verifyAddressFormat bz
      return bz

end EnergyChain.Sdk
