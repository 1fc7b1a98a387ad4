import EnergyChain.Go.BigInt
import EnergyChain.Go.Numeric

/-!
# Decoders of the standard library

`base64.StdEncoding.DecodeString` and `strconv.ParseFloat`. The base64 decoder is the non-strict one:
it skips line breaks anywhere, requires the padding, and does not look at the bits the padding stands
for. `parseFloat` reads decimal and hexadecimal floating-point literals, the names of the infinities
and of NaN, and rounds once.
-/

set_option autoImplicit false

namespace EnergyChain.Go

/-! ## Base64 -/

/-- The six bits of a character of the standard alphabet. -/
def base64Value (ch : UInt8) : Option Nat :=
  if 65 ≤ ch ∧ ch ≤ 90 then some (ch.toNat - 65)
  else if 97 ≤ ch ∧ ch ≤ 122 then some (ch.toNat - 97 + 26)
  else if 48 ≤ ch ∧ ch ≤ 57 then some (ch.toNat - 48 + 52)
  else if ch = 43 then some 62
  else if ch = 47 then some 63
  else none

/-- Decode groups of four characters. Padding ends the text. -/
def decodeQuanta : GoString → Option GoString
  | [] => some []
  | ch₀ :: ch₁ :: ch₂ :: ch₃ :: rest => do
      let v₀ ← base64Value ch₀
      let v₁ ← base64Value ch₁
      let b₀ := UInt8.ofNat (v₀ * 4 + v₁ / 16)
      -- two characters and two paddings carry one byte
      if ch₂ = 61 then
        if ch₃ = 61 ∧ rest = [] then some [b₀] else none
      else
        let v₂ ← base64Value ch₂
        let b₁ := UInt8.ofNat (v₁ % 16 * 16 + v₂ / 4)
        -- three characters and one padding carry two bytes
        if ch₃ = 61 then
          if rest = [] then some [b₀, b₁] else none
        else
          let v₃ ← base64Value ch₃
          let b₂ := UInt8.ofNat (v₂ % 4 * 64 + v₃)
          let tail ← decodeQuanta rest
          some (b₀ :: b₁ :: b₂ :: tail)
  | _ => none

/-- `base64.StdEncoding.DecodeString`; `none` for a `CorruptInputError`. -/
def decodeString (s : GoString) : Option GoString :=
  decodeQuanta (s.filter fun ch => ch ≠ 13 ∧ ch ≠ 10)

example : decodeString (bytes "Z29s\r\nYW5nIQ==") = some (bytes "golang!") := by decide +kernel

/-! ## Floating-point literals -/

/-- A letter in lower case; other bytes are changed too, but into no letter. -/
def lower (ch : UInt8) : UInt8 := ch ||| 32

/-- The mantissa read so far: its digits as a number, how many of them follow the point, and whether
a point and a digit were seen. -/
structure Mantissa where
  value : Nat
  fraction : Nat
  sawDot : Bool
  sawDigits : Bool

/-- Read digits of the base, one point and underscores up to the first other byte. -/
def readMantissa (base : Nat) : Mantissa → GoString → Mantissa × GoString
  | m, [] => (m, [])
  | m, ch :: rest =>
      if ch = 95 then readMantissa base m rest
      else if ch = 46 then
        -- a second point ends the mantissa
        if m.sawDot then (m, ch :: rest) else readMantissa base { m with sawDot := true } rest
      else if digitVal ch < base then
        readMantissa base
          ⟨m.value * base + digitVal ch, if m.sawDot then m.fraction + 1 else 0, m.sawDot, true⟩ rest
      else (m, ch :: rest)

/-- The digits of an exponent; its magnitude stops growing at five digits. -/
def exponentDigits (s : GoString) : Nat :=
  s.foldl (fun e ch => if ch = 95 ∨ 10000 ≤ e then e else e * 10 + digitVal ch) 0

/-- The exponent after the mantissa, up to the end of the text. A hexadecimal mantissa needs one. -/
def readExponent (hex : Bool) : GoString → Option Int
  | [] => if hex then none else some 0
  | ch :: rest =>
      if lower ch = (if hex then 112 else 101) then
        -- the exponent needs a digit right after its sign
        let digits := if rest.head? = some 43 ∨ rest.head? = some 45 then rest.tail else rest
        if digits.head?.any isDigit ∧ ∀ b ∈ digits, isDigit b ∨ b = 95 then
          some (if rest.head? = some 45 then -exponentDigits digits else exponentDigits digits)
        else none
      else none

/-- What `underscoreOK` last saw. -/
inductive Saw where
  | start | digit | underscore | other
  deriving DecidableEq

/-- The scan of `underscoreOK`: an underscore follows a digit and is followed by one. -/
def underscoresSeparate (hex : Bool) : Saw → GoString → Bool
  | saw, [] => saw != .underscore
  | saw, ch :: rest =>
      if isDigit ch || (hex && decide (97 ≤ lower ch ∧ lower ch ≤ 102)) then
        underscoresSeparate hex .digit rest
      else if ch = 95 then saw == .digit && underscoresSeparate hex .underscore rest
      else saw != .underscore && underscoresSeparate hex .other rest

/-- `underscoreOK` on a text without its sign; a base prefix counts as a digit. -/
def underscoreOK : GoString → Bool
  | 48 :: ch :: rest =>
      if lower ch = 98 ∨ lower ch = 111 ∨ lower ch = 120 then
        underscoresSeparate (lower ch == 120) .digit rest
      else underscoresSeparate false .start (48 :: ch :: rest)
  | s => underscoresSeparate false .start s

/-- The value of an unsigned literal. -/
def literalValue (s : GoString) : Option ℚ :=
  let hex := match s with
    | 48 :: ch :: _ :: _ => lower ch == 120
    | _ => false
  let base := if hex then 16 else 10
  match readMantissa base ⟨0, 0, false, false⟩ (if hex then s.drop 2 else s) with
  | (m, rest) =>
      match readExponent hex rest with
      | some e =>
          -- underscores are skipped while reading and checked at the end
          if m.sawDigits && (!s.contains 95 || underscoreOK s) then
            some ((m.value : ℚ) / base ^ m.fraction * (if hex then 2 else 10 : ℚ) ^ e)
          else none
      | none => none

/-- `strconv.ParseFloat(s, 64)`; `none` for a syntax error. A value out of range is an infinity. -/
def parseFloat (s : GoString) : Option Float64 :=
  let neg := s.head? = some 45
  let unsigned := if s.head? = some 43 ∨ neg then s.tail else s
  let word := unsigned.map lower
  if word = bytes "inf" ∨ word = bytes "infinity" then some (.inf neg)
  else if s.map lower = bytes "nan" then some .nan
  else (literalValue unsigned).map fun q => .round (if neg then -q else q)

example : parseFloat (bytes "-1_2.5e-1") = some (.round (-5 / 4)) := by decide +kernel

/-! ## Decimal integers as floating-point literals -/

theorem lower_of_isDigit {b : UInt8} (h : isDigit b = true) : lower b = b := by
  have hall : ∀ c : UInt8, isDigit c = true → lower c = c := by decide +kernel
  exact hall b h

theorem ne_of_digits {s t : GoString} (hs : ∀ b ∈ s, isDigit b = true) {b : UInt8} (hb : b ∈ t)
    (hdigit : isDigit b = false) : s ≠ t := by
  rintro rfl
  rw [hs b hb] at hdigit
  cases hdigit

/-- Decimal digits are read into the mantissa to the end of the text. -/
theorem readMantissa_digits {s : GoString} (hs : ∀ b ∈ s, isDigit b = true) (v : Nat) (saw : Bool) :
    readMantissa 10 ⟨v, 0, false, saw⟩ s =
      (⟨decimalValue v s, 0, false, saw || !s.isEmpty⟩, []) := by
  induction s generalizing v saw with
  | nil => simp [readMantissa, decimalValue]
  | cons b s ih =>
      have hb := hs b List.mem_cons_self
      obtain ⟨hval, hlt⟩ := digitVal_of_isDigit hb
      have hdot : b ≠ 46 := by
        rintro rfl
        simp [isDigit] at hb
      rw [readMantissa, if_neg (ne_underscore_of_isDigit hb), if_neg hdot, if_pos hlt]
      simp only [Bool.false_eq_true, if_false]
      rw [ih fun c hc => hs c (List.mem_cons_of_mem b hc)]
      simp [decimalValue, hval]

theorem literalValue_digits {s : GoString} (hs : ∀ b ∈ s, isDigit b = true) (hne : s ≠ []) :
    literalValue s = some (decimalValue 0 s : ℚ) := by
  have hunder : s.contains 95 = false := by
    rw [List.contains_eq_mem, decide_eq_false_iff_not]
    intro hmem
    exact ne_underscore_of_isDigit (hs 95 hmem) rfl
  have hempty : s.isEmpty = false := by simpa using hne
  unfold literalValue
  split
  · -- the second digit is not the `x` of a hexadecimal literal
    rename_i ch _ _
    have hch := hs ch (by simp)
    have hx : (lower ch == 120) = false := by
      rw [lower_of_isDigit hch, beq_eq_false_iff_ne]
      rintro rfl
      simp [isDigit] at hch
    simp only [hx, Bool.false_eq_true, if_false, readMantissa_digits hs, readExponent, hunder]
    simp
  · simp only [Bool.false_eq_true, if_false, readMantissa_digits hs, readExponent, hunder, hempty]
    simp

/-- The decimal text of an integer is read as the integer, rounded to a `float64`. -/
theorem parseFloat_formatInt (z : Int) : parseFloat (formatInt z) = some (.ofInt z) := by
  have hdigits : ∀ b ∈ formatNat z.natAbs, isDigit b = true := fun b hb => isDigit_of_mem_formatNat hb
  have hvalue := literalValue_digits hdigits (formatNat_ne_nil _)
  rw [decimalValue_formatNat] at hvalue
  have hlower : (formatNat z.natAbs).map lower = formatNat z.natAbs := by
    rw [List.map_congr_left fun b hb => lower_of_isDigit (hdigits b hb), List.map_id']
  have hinf : formatNat z.natAbs ≠ bytes "inf" := ne_of_digits hdigits (b := 105) (by decide) rfl
  have hinfinity : formatNat z.natAbs ≠ bytes "infinity" :=
    ne_of_digits hdigits (b := 105) (by decide) rfl
  unfold formatInt
  split
  · rename_i hneg
    have hnan : (45 :: formatNat z.natAbs).map lower ≠ bytes "nan" := by
      intro h
      have hhead := congrArg List.head? h
      revert hhead
      rw [List.map_cons, List.head?_cons]
      decide
    have hz : (z : ℚ) = -((z.natAbs : Nat) : ℚ) := by
      rw [← Int.cast_natCast, ← Int.cast_neg, Int.ofNat_natAbs_of_nonpos hneg.le, neg_neg]
    simp only [parseFloat, List.head?_cons, List.tail_cons, decide_true, or_true, if_true, if_false, hlower,
      hnan]
    rw [if_neg (not_or.2 ⟨hinf, hinfinity⟩), hvalue, Option.map_some, Float64.ofInt, hz]
  · rename_i hnonneg
    have hnan : formatNat z.natAbs ≠ bytes "nan" := ne_of_digits hdigits (b := 110) (by decide) rfl
    have hhead : ∀ b : UInt8, isDigit b = false → (formatNat z.natAbs).head? ≠ some b := by
      intro b hb hhead
      rw [hdigits b (List.mem_of_mem_head? hhead)] at hb
      cases hb
    have hz : (z : ℚ) = ((z.natAbs : Nat) : ℚ) := by
      rw [← Int.cast_natCast, Int.natAbs_of_nonneg (not_lt.1 hnonneg)]
    simp only [parseFloat, hhead 45 rfl, hhead 43 rfl, or_self, if_false, hlower, hnan]
    rw [if_neg (not_or.2 ⟨hinf, hinfinity⟩), hvalue, Option.map_some, Float64.ofInt, hz]

end EnergyChain.Go
