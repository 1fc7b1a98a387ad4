import EnergyChain.Go.Bytes

/-!
# Machine numbers

Go's `int64` and `float64`. An `int64` is an integer with wrapping arithmetic. A `float64` is a
rational, an infinity or NaN; every operation computes the exact rational result and rounds it to
the nearest binary64 value, ties to even. The sign of a zero is not kept. The program can print it, as
`-0`, but what it computes from a number it has read does not depend on it.
-/

set_option autoImplicit false

namespace EnergyChain.Go

/-! ## 64-bit integers -/

/-- The `int64` with the low 64 bits of `z`. -/
def wrap64 (z : Int) : Int := z.bmod (2 ^ 64)

/-- `big.Int.IsInt64`. -/
def isInt64 (z : Int) : Bool := decide (-2 ^ 63 ≤ z) && decide (z < 2 ^ 63)

theorem isInt64_iff {z : Int} : isInt64 z = true ↔ -2 ^ 63 ≤ z ∧ z < 2 ^ 63 := by
  simp [isInt64]

theorem wrap64_of_isInt64 {z : Int} (h : isInt64 z = true) : wrap64 z = z := by
  obtain ⟨hlo, hhi⟩ := isInt64_iff.1 h
  simp only [wrap64, Int.bmod]
  omega

theorem isInt64_wrap64 (z : Int) : isInt64 (wrap64 z) = true := by
  rw [isInt64_iff]
  simp only [wrap64, Int.bmod]
  omega

/-- A counter that wrapped never exceeds the number of increments. -/
theorem wrap64_natCast_le (n : Nat) : wrap64 n ≤ n := by
  simp only [wrap64, Int.bmod]
  omega

/-! ## Rounding -/

/-- The nearest integer, ties to even. -/
def roundHalfEven (q : ℚ) : Int :=
  let below := q.floor
  let frac := q - below
  if frac < 1 / 2 then below
  else if 1 / 2 < frac then below + 1
  else if below % 2 = 0 then below
  else below + 1

theorem roundHalfEven_intCast (z : Int) : roundHalfEven z = z := by
  simp [roundHalfEven]

/-- Integer power of two. -/
def pow2 (e : Int) : ℚ :=
  if 0 ≤ e then ((2 ^ e.toNat : Nat) : ℚ) else 1 / ((2 ^ (-e).toNat : Nat) : ℚ)

/-- The exponent `e` with `2 ^ e ≤ |q| < 2 ^ (e + 1)`, for `q ≠ 0`. The difference of the bit
lengths of numerator and denominator is `e` or `e + 1`. -/
def binExponent (q : ℚ) : Int :=
  let e : Int := (Nat.log2 q.num.natAbs : Int) - Nat.log2 q.den
  if |q| < pow2 e then e - 1 else e

/-- A `float64` value. Both zeros are `fin 0`, so a negative zero is printed here without its sign. -/
inductive Float64 where
  | fin (q : ℚ)
  | inf (neg : Bool)
  | nan
  deriving DecidableEq

namespace Float64

/-- The binary64 value nearest to a rational, ties to even: 53 significant bits, least exponent
`-1074`, infinity from `2 ^ 1024` on. -/
def round (q : ℚ) : Float64 :=
  if q = 0 then .fin 0
  else
    -- below the normal range the unit stays that of the subnormals
    let ulp := pow2 (max (binExponent q - 52) (-1074))
    let r := roundHalfEven (q / ulp) * ulp
    if |r| < pow2 1024 then .fin r else .inf (decide (q < 0))

/-- The conversion `float64(n)` of an integer. -/
def ofInt (n : Int) : Float64 := round n

/-- `x + y`. -/
def add : Float64 → Float64 → Float64
  | .fin a, .fin b => round (a + b)
  | .inf s, .inf t => if s = t then .inf s else .nan
  | .inf s, .fin _ => .inf s
  | .fin _, .inf t => .inf t
  | .nan, _ => .nan
  | _, .nan => .nan

/-- `-x`. -/
def neg : Float64 → Float64
  | .fin a => .fin (-a)
  | .inf s => .inf (!s)
  | .nan => .nan

/-- `x - y`. -/
def sub (x y : Float64) : Float64 := add x y.neg

/-- `x * y`. -/
def mul : Float64 → Float64 → Float64
  | .fin a, .fin b => round (a * b)
  | .inf s, .inf t => .inf (s != t)
  | .inf s, .fin b => if b = 0 then .nan else .inf (s != decide (b < 0))
  | .fin a, .inf t => if a = 0 then .nan else .inf (t != decide (a < 0))
  | .nan, _ => .nan
  | _, .nan => .nan

/-- `x / b` for a non-zero constant `b`. -/
def divConst (x : Float64) (b : ℚ) : Float64 :=
  match x with
  | .fin a => round (a / b)
  | .inf s => .inf (s != decide (b < 0))
  | .nan => .nan

/-- The conversion `int64(x)`: truncation towards zero. A value outside `int64` gives the smallest
`int64`, as the amd64 instruction does. -/
def toInt64 : Float64 → Int
  | .fin a =>
      -- `floor` rounds down, so a negative number is truncated through its negation
      let t := if a < 0 then -((-a).floor) else a.floor
      if isInt64 t then t else -2 ^ 63
  | _ => -2 ^ 63

theorem isInt64_toInt64 (x : Float64) : isInt64 x.toInt64 = true := by
  unfold toInt64
  split
  · rename_i a
    dsimp only
    generalize (if a < 0 then -((-a).floor) else a.floor) = t
    split
    · assumption
    · decide
  · decide

/-- `math.Round`: the nearest integer, halves away from zero. -/
def mathRound : Float64 → Float64
  | .fin a => .fin (if a < 0 then -((-a + 1 / 2).floor) else (a + 1 / 2).floor : Int)
  | .inf s => .inf s
  | .nan => .nan

/-- `x <= 0`, false for NaN. -/
def nonpos : Float64 → Bool
  | .fin a => decide (a ≤ 0)
  | .inf s => s
  | .nan => false

/-- `x < y`, false if one of the two is NaN. -/
def lt : Float64 → Float64 → Bool
  | .fin a, .fin b => decide (a < b)
  | .fin _, .inf t => !t
  | .inf s, .fin _ => s
  | .inf s, .inf t => s && !t
  | .nan, _ => false
  | _, .nan => false

/-- Six decimal digits of a number below a million. -/
def sixDigits (n : Nat) : GoString :=
  let text := formatNat n
  List.replicate (6 - text.length) 48 ++ text

/-- `fmt.Sprintf("%f", x)`: six decimals, ties to even. -/
def format : Float64 → GoString
  | .fin a =>
      let scaled := (roundHalfEven (|a| * 1000000)).toNat
      let sign : GoString := if a < 0 then [45] else []
      sign ++ formatNat (scaled / 1000000) ++ [46] ++ sixDigits (scaled % 1000000)
  | .inf false => bytes "+Inf"
  | .inf true => bytes "-Inf"
  | .nan => bytes "NaN"

/-- The text of an integer is its decimal text with six zeros. -/
theorem format_intCast (z : Int) : (fin z).format = formatInt z ++ bytes ".000000" := by
  -- scaled by a million the integer needs no rounding
  have hscaled : |(z : ℚ)| * 1000000 = ((z.natAbs * 1000000 : Nat) : Int) := by
    push_cast
    rfl
  have hquo : z.natAbs * 1000000 / 1000000 = z.natAbs := Nat.mul_div_cancel _ (by decide)
  have hrem : z.natAbs * 1000000 % 1000000 = 0 := Nat.mul_mod_left _ _
  have hzeros : [46] ++ sixDigits 0 = bytes ".000000" := by decide
  have hneg : ((z : ℚ) < 0) ↔ z < 0 := by exact_mod_cast Iff.rfl
  simp only [format, hscaled, roundHalfEven_intCast, Int.toNat_natCast, hquo, hrem, hneg, formatInt,
    List.append_assoc, hzeros]
  split <;> rfl

end Float64

/-- The first double above 2^53 that an odd integer rounds to, and a printed sum. -/
example : Float64.ofInt 9007199254740993 = .fin 9007199254740992 ∧
    ((Float64.ofInt 700000).add (.ofInt (-1))).format = bytes "699999.000000" := by decide +kernel

end EnergyChain.Go
