import EnergyChain.Go.BigInt
import EnergyChain.Go.Numeric
import EnergyChain.Go.Outcome

/-!
# `sdk.Int` and `sdk.Dec`

`sdk.Int` is an integer of at most 256 bits; the operations that can leave the range panic.
`sdk.Dec` is a fixed-point number with 18 decimals, stored as the integer `d * 10 ^ 18` of at most
316 bits. An uninitialised `sdk.Int` (the first result of a failed `NewIntFromString`) is the absent
value of `newIntFromString`.
-/

set_option autoImplicit false

namespace EnergyChain.Sdk

open EnergyChain.Go

/-! ## Integers -/

/-- `BitLen() <= maxBitLen`. -/
def fits256 (z : Int) : Prop := z.natAbs < 2 ^ 256

instance (z : Int) : Decidable (fits256 z) := inferInstanceAs (Decidable (z.natAbs < 2 ^ 256))

/-- `sdk.NewIntFromString`. -/
def newIntFromString (s : GoString) : Option Int :=
  match setString s 0 with
  | some z => if fits256 z then some z else none
  | none => none

/-- The use of an `sdk.Int` that was never set dereferences nil. -/
def nilInt : Fault := .panic (bytes "runtime error: invalid memory address or nil pointer dereference")

/-- `Int.Add`. -/
def intAdd (a b : Int) : Outcome Int := do
  require (fits256 (a + b)) (.panic (bytes "Int overflow"))
  return a + b

/-- `Int.Sub`. -/
def intSub (a b : Int) : Outcome Int := do
  require (fits256 (a - b)) (.panic (bytes "Int overflow"))
  return a - b

/-- `Int.Mul`. -/
def intMul (a b : Int) : Outcome Int := do
  -- the bit lengths are compared first, so that no huge product is computed
  require (a.natAbs.size + b.natAbs.size - 1 ≤ 256) (.panic (bytes "Int overflow"))
  require (fits256 (a * b)) (.panic (bytes "Int overflow"))
  return a * b

/-- `Int.Quo`: division truncated towards zero. -/
def intQuo (a b : Int) : Outcome Int := do
  require (b ≠ 0) (.panic (bytes "Division by zero"))
  return a.tdiv b

/-- `Int.Int64`. -/
def int64 (a : Int) : Outcome Int := do
  require (isInt64 a = true) (.panic (bytes "Int64() out of bound"))
  return a

/-- The text of a number in range is read back as the number. -/
theorem newIntFromString_formatInt {z : Int} (h : fits256 z) :
    newIntFromString (formatInt z) = some z := by
  simp only [newIntFromString, setString_formatInt, if_pos h]

theorem fits256_of_newIntFromString {s : GoString} {z : Int} (h : newIntFromString s = some z) :
    fits256 z := by
  unfold newIntFromString at h
  split at h
  · split at h
    · cases h
      assumption
    · simp at h
  · simp at h

@[simp]
theorem intAdd_eq_ok {a b c : Int} : intAdd a b = .ok c ↔ fits256 (a + b) ∧ c = a + b := by
  simp only [intAdd, require_bind_eq_ok, pure_eq_ok]

@[simp]
theorem intSub_eq_ok {a b c : Int} : intSub a b = .ok c ↔ fits256 (a - b) ∧ c = a - b := by
  simp only [intSub, require_bind_eq_ok, pure_eq_ok]

@[simp]
theorem intQuo_eq_ok {a b c : Int} : intQuo a b = .ok c ↔ b ≠ 0 ∧ c = a.tdiv b := by
  simp only [intQuo, require_bind_eq_ok, pure_eq_ok]

@[simp]
theorem int64_eq_ok {a b : Int} : int64 a = .ok b ↔ isInt64 a = true ∧ b = a := by
  simp only [int64, require_bind_eq_ok, pure_eq_ok]

@[simp]
theorem noPanic_intAdd {x y : Int} : NoPanic (intAdd x y) ↔ fits256 (x + y) := by
  rw [intAdd, noPanic_require_panic]
  exact and_iff_left (noPanic_pure _)

@[simp]
theorem noPanic_intSub {x y : Int} : NoPanic (intSub x y) ↔ fits256 (x - y) := by
  rw [intSub, noPanic_require_panic]
  exact and_iff_left (noPanic_pure _)

@[simp]
theorem noPanic_int64 {x : Int} : NoPanic (int64 x) ↔ isInt64 x = true := by
  rw [int64, noPanic_require_panic]
  exact and_iff_left (noPanic_pure _)

/-! ## Decimals -/

/-- `Precision`. -/
def precision : Nat := 18

/-- `precisionReuse`. -/
def precisionReuse : Nat := 10 ^ precision

/-- `BitLen() <= maxDecBitLen`. -/
def fitsDec (d : Int) : Prop := d.natAbs < 2 ^ 316

instance (d : Int) : Decidable (fitsDec d) := inferInstanceAs (Decidable (d.natAbs < 2 ^ 316))

/-- `Int.ToDec`. -/
def toDec (a : Int) : Int := a * precisionReuse

/-- `sdk.NewDecWithPrec`. -/
def newDecWithPrec (i : Int) (prec : Nat) : Int := i * (10 ^ (precision - prec) : Nat)

/-- `chopPrecisionAndRound` of a non-negative number: banker's rounding. -/
def chopNat (d : Nat) : Nat :=
  let quo := d / precisionReuse
  let rem := d % precisionReuse
  if rem = 0 then quo
  else if rem < precisionReuse / 2 then quo
  else if precisionReuse / 2 < rem then quo + 1
  else if quo % 2 = 0 then quo
  else quo + 1

/-- `chopPrecisionAndRound`. -/
def chopPrecisionAndRound (d : Int) : Int :=
  if d < 0 then -(chopNat d.natAbs : Int) else chopNat d.natAbs

/-- `Dec.Mul`. -/
def decMul (a b : Int) : Outcome Int := do
  let chopped := chopPrecisionAndRound (a * b)
  require (fitsDec chopped) (.panic (bytes "Int overflow"))
  return chopped

/-- `Dec.Sub`. -/
def decSub (a b : Int) : Outcome Int := do
  require (fitsDec (a - b)) (.panic (bytes "Int overflow"))
  return a - b

/-- `Dec.TruncateInt`. -/
def truncateInt (d : Int) : Outcome Int := do
  let chopped := d.tdiv precisionReuse
  require (fits256 chopped) (.panic (bytes "NewIntFromBigInt() out of bound"))
  return chopped

/-- `Dec.String`. -/
def decString (d : Int) : GoString :=
  let digits := formatNat d.natAbs
  -- a number below one is filled up with zeros to one digit before the point
  let padded := List.replicate (precision + 1 - digits.length) 48 ++ digits
  let place := padded.length - precision
  let sign : GoString := if d < 0 then [45] else []
  sign ++ padded.take place ++ [46] ++ padded.drop place

/-- The text before and after the decimal point. -/
def decimalParts (str : GoString) : Outcome (GoString × GoString) :=
  match str.splitOn 46 with
  | [whole] => .ok (whole, [])
  | [whole, decs] =>
      -- `1.` and `.5` are refused
      if decs = [] ∨ whole = [] then fail (bytes "invalid decimal length") else .ok (whole, decs)
  | _ => fail (bytes "invalid decimal string")

/-- The digits on both sides of the point, filled up to 18 decimals and read as one integer. -/
def combineDec (whole decs : GoString) : Outcome Int := do
  require (decs.length ≤ precision)
    (.error (bytes "invalid precision; max: 18, got: " ++ formatNat decs.length))
  let combinedStr := whole ++ decs ++ List.replicate (precision - decs.length) 48
  let combined ←
    orFail (.error (bytes "failed to set decimal string: " ++ combinedStr)) (setString combinedStr 10)
  require (fitsDec combined)
    (.error (bytes "decimal out of range; bitLen: got " ++ formatNat combined.natAbs.size ++
      bytes ", max 316"))
  return combined

/-- `sdk.NewDecFromStr` after the sign. -/
def decAfterSign (str : GoString) : Outcome Int := do
  require (str ≠ []) (.error (bytes "decimal string cannot be empty"))
  let parts ← decimalParts str
  combineDec parts.1 parts.2

/-- `sdk.NewDecFromStr`. -/
def newDecFromStr (str : GoString) : Outcome Int := do
  require (str ≠ []) (.error (bytes "decimal string cannot be empty"))
  if str.head? = some 45 then
    let combined ← decAfterSign str.tail
    return -combined
  else decAfterSign str

theorem decimalParts_of_notMem {s : GoString} (h : (46 : UInt8) ∉ s) :
    decimalParts s = .ok (s, []) := by
  have e : s.splitOn 46 = [s] := by
    rw [List.splitOn_eq_splitOnP]
    refine List.splitOnP_eq_singleton fun b hb => ?_
    have : b ≠ 46 := fun hb46 => h (hb46 ▸ hb)
    simpa using this
  simp only [decimalParts, e]

/-- Trailing zeros multiply a decimal text by a power of ten. -/
theorem decimalValue_append_zeros (s : GoString) (n : Nat) :
    decimalValue 0 (s ++ List.replicate n 48) = decimalValue 0 s * 10 ^ n := by
  induction n with
  | zero => simp
  | succ n ih =>
      -- each zero that is appended shifts the digits by one place
      have h48 : UInt8.toNat 48 - 48 = 0 := rfl
      rw [List.replicate_succ', ← List.append_assoc]
      simp only [decimalValue] at ih ⊢
      rw [List.foldl_append, ih, List.foldl_cons, List.foldl_nil, h48, pow_succ, mul_assoc, add_zero]

theorem fitsDec_toDec {a : Nat} (h : a < 2 ^ 256) : fitsDec (toDec a) := by
  have hp : precisionReuse ≤ 2 ^ 60 := by decide
  have e : (toDec a).natAbs = a * precisionReuse := by
    simp [toDec, Int.natAbs_mul]
  rw [fitsDec, e]
  calc a * precisionReuse < 2 ^ 256 * 2 ^ 60 := Nat.mul_lt_mul_of_lt_of_le h hp (by positivity)
    _ = 2 ^ 316 := by rw [← pow_add]

/-- Digits that are filled up with zeros are read as a multiple of a power of ten. -/
theorem setString_append_zeros {s : GoString} (hs : ∀ b ∈ s, isDigit b = true) (hne : s ≠ [])
    (n : Nat) : setString (s ++ List.replicate n 48) 10 =
      some ((decimalValue 0 s * 10 ^ n : Nat) : Int) := by
  have hdigits : ∀ b ∈ s ++ List.replicate n 48, isDigit b = true := by
    intro b hb
    rcases List.mem_append.1 hb with hb | hb
    · exact hs b hb
    · rw [List.eq_of_mem_replicate hb]
      rfl
  have hne' : s ++ List.replicate n 48 ≠ [] := by
    intro h
    exact hne (List.append_eq_nil_iff.1 h).1
  rw [setString_ten_digits hdigits hne', decimalValue_append_zeros]

theorem combineDec_digits {s : GoString} (hs : ∀ b ∈ s, isDigit b = true) (hne : s ≠ []) {d : Int} :
    combineDec s [] = .ok d ↔ fitsDec (toDec (decimalValue 0 s)) ∧ d = toDec (decimalValue 0 s) := by
  have hlen : ([] : GoString).length ≤ precision := Nat.zero_le precision
  have hdec : ((decimalValue 0 s * 10 ^ precision : Nat) : Int) = toDec (decimalValue 0 s) :=
    Nat.cast_mul _ (10 ^ precision)
  rw [combineDec, require_bind_of hlen]
  dsimp only
  rw [List.append_nil, List.length_nil, Nat.sub_zero, setString_append_zeros hs hne, orFail, ok_bind,
    hdec, require_bind_eq_ok, pure_eq_ok]

/-- Digits without a point are read as a whole number, if it has at most 316 bits with its decimals. -/
theorem newDecFromStr_digits {s : GoString} (hs : ∀ b ∈ s, isDigit b = true) (hne : s ≠ [])
    {d : Int} : newDecFromStr s = .ok d ↔
      fitsDec (toDec (decimalValue 0 s)) ∧ d = toDec (decimalValue 0 s) := by
  have hdot : (46 : UInt8) ∉ s := by
    intro hb
    have := hs 46 hb
    simp [isDigit] at this
  have hminus : s.head? ≠ some 45 := by
    intro hhead
    have := hs 45 (List.mem_of_mem_head? hhead)
    simp [isDigit] at this
  rw [newDecFromStr, require_bind_of hne, if_neg hminus, decAfterSign, require_bind_of hne,
    decimalParts_of_notMem hdot]
  exact combineDec_digits hs hne

end EnergyChain.Sdk
