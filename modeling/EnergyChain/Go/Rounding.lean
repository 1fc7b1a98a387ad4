import Mathlib.Algebra.Order.Field.Power
import EnergyChain.Go.Numeric

/-!
# Rounding of machine numbers

How far `Float64.round` moves a number: by at most half of the last of 53 bits (`round_near`), and
not at all if the number is an integer up to `2 ^ 53` (`round_intCast`). So sums and differences of
integers in that range are exact, and a division by a million followed by a truncation gives the
integer quotient (`toInt64_divConst_million`).

Beyond that range a sum is no longer exact, but it stays bounded: a number that exceeds a power of two
by less than half an ulp is rounded back to it (`round_abs_le`), so a sum of bounded parts never grows
past such a power.
-/

set_option autoImplicit false

namespace EnergyChain.Go

theorem pow2_eq_zpow (e : Int) : pow2 e = (2 : ℚ) ^ e := by
  unfold pow2
  split
  · rename_i he
    obtain ⟨n, rfl⟩ := Int.eq_ofNat_of_zero_le he
    simp
  · rename_i he
    obtain ⟨n, hn⟩ := Int.eq_ofNat_of_zero_le (show 0 ≤ -e by omega)
    have he' : e = -(n : Int) := by omega
    subst he'
    simp

/-- Rounding to an integer moves a number by at most one half. -/
theorem abs_roundHalfEven_sub_le (q : ℚ) : |(roundHalfEven q : ℚ) - q| ≤ 1 / 2 := by
  have hlo : ((q.floor : Int) : ℚ) ≤ q := Int.floor_le q
  have hhi : q < (q.floor : Int) + 1 := Int.lt_floor_add_one q
  unfold roundHalfEven
  dsimp only
  -- each case picks a neighbour that is at most one half away
  split
  · rw [abs_sub_le_iff]
    constructor <;> linarith
  · split
    · push_cast
      rw [abs_sub_le_iff]
      constructor <;> linarith
    · split
      · rw [abs_sub_le_iff]
        constructor <;> linarith
      · push_cast
        rw [abs_sub_le_iff]
        constructor <;> linarith

/-- The binary exponent is that of a power of two below the number. -/
theorem zpow_binExponent_le {q : ℚ} (hq : q ≠ 0) : (2 : ℚ) ^ binExponent q ≤ |q| := by
  have hnum : q.num.natAbs ≠ 0 := by simpa using hq
  have hden : 0 < (q.den : ℚ) := by exact_mod_cast q.den_pos
  have habs : |q| = (q.num.natAbs : ℚ) / q.den := by
    conv_lhs => rw [← Rat.num_div_den q]
    rw [abs_div, abs_of_pos hden, Nat.cast_natAbs, Int.cast_abs]
  unfold binExponent
  dsimp only
  split
  · -- the numerator is at least its leading power, the denominator less than twice its own
    have hn : (2 : ℚ) ^ q.num.natAbs.log2 ≤ q.num.natAbs := by
      exact_mod_cast Nat.log2_self_le hnum
    have hd : (q.den : ℚ) ≤ 2 ^ (q.den.log2 + 1) := by
      exact_mod_cast (Nat.lt_log2_self (n := q.den)).le
    have hsplit : (2 : ℚ) ^ ((q.num.natAbs.log2 : Int) - q.den.log2 - 1) =
        2 ^ q.num.natAbs.log2 / 2 ^ (q.den.log2 + 1) := by
      rw [show (q.num.natAbs.log2 : Int) - q.den.log2 - 1 =
        (q.num.natAbs.log2 : Int) - ((q.den.log2 + 1 : Nat) : Int) by push_cast; ring,
        zpow_sub₀ (by norm_num), zpow_natCast, zpow_natCast]
    rw [hsplit, habs]
    gcongr
  · rename_i hle
    rw [← pow2_eq_zpow]
    exact not_lt.1 hle

theorem binExponent_lt {q : ℚ} (hq : q ≠ 0) {n : Int} (h : |q| < 2 ^ n) : binExponent q < n :=
  (zpow_lt_zpow_iff_right₀ (by norm_num)).1 ((zpow_binExponent_le hq).trans_lt h)

/-- The number is below twice the power of two of its exponent. -/
theorem lt_zpow_binExponent (q : ℚ) : |q| < 2 ^ (binExponent q + 1) := by
  have hden : 0 < (q.den : ℚ) := by exact_mod_cast q.den_pos
  have habs : |q| = (q.num.natAbs : ℚ) / q.den := by
    conv_lhs => rw [← Rat.num_div_den q]
    rw [abs_div, abs_of_pos hden, Nat.cast_natAbs, Int.cast_abs]
  unfold binExponent
  dsimp only
  split
  · rename_i hlt
    rw [sub_add_cancel, ← pow2_eq_zpow]
    exact hlt
  · -- the numerator is below twice its leading power, the denominator at least its own
    have hn : (q.num.natAbs : ℚ) < 2 ^ (q.num.natAbs.log2 + 1) := by
      exact_mod_cast Nat.lt_log2_self (n := q.num.natAbs)
    have hd : (2 : ℚ) ^ q.den.log2 ≤ q.den := by
      exact_mod_cast Nat.log2_self_le q.den_nz
    have hsplit : (2 : ℚ) ^ ((q.num.natAbs.log2 : Int) - q.den.log2 + 1) =
        2 ^ (q.num.natAbs.log2 + 1) / 2 ^ q.den.log2 := by
      rw [show (q.num.natAbs.log2 : Int) - q.den.log2 + 1 =
        ((q.num.natAbs.log2 + 1 : Nat) : Int) - (q.den.log2 : Int) by push_cast; ring,
        zpow_sub₀ (by norm_num), zpow_natCast, zpow_natCast]
    rw [hsplit, habs]
    calc (q.num.natAbs : ℚ) / q.den ≤ q.num.natAbs / 2 ^ q.den.log2 := by gcongr
      _ < 2 ^ (q.num.natAbs.log2 + 1) / 2 ^ q.den.log2 := by gcongr

/-- Rounding to an integer stays within integer bounds, also slightly exceeded ones. -/
theorem abs_roundHalfEven_le {q : ℚ} {n : Nat} (h : |q| < n + 1 / 2) :
    |(roundHalfEven q : ℚ)| ≤ n := by
  have hnear := abs_roundHalfEven_sub_le q
  have hlt : |(roundHalfEven q : ℚ)| < n + 1 := by
    have htri := abs_add_le ((roundHalfEven q : ℚ) - q) q
    rw [sub_add_cancel] at htri
    linarith
  have hint : |roundHalfEven q| < (n : Int) + 1 := by exact_mod_cast hlt
  exact_mod_cast Int.lt_add_one_iff.1 hint

namespace Float64

/-- Below `2 ^ n` a number is rounded to a finite one at a distance of at most half an ulp. -/
theorem round_near {q : ℚ} {n : Int} (hlo : -1021 ≤ n) (hhi : n ≤ 1023) (h : |q| < 2 ^ n) :
    ∃ r, round q = .fin r ∧ |r - q| ≤ 2 ^ (n - 54) := by
  by_cases hq : q = 0
  · refine ⟨0, by simp [round, hq], ?_⟩
    rw [hq, sub_zero, abs_zero]
    positivity
  · have hexp := binExponent_lt hq h
    set ulp := pow2 (max (binExponent q - 52) (-1074)) with hulp
    have hpos : 0 < ulp := by
      rw [hulp, pow2_eq_zpow]
      positivity
    -- the unit of the last place is at most `2 ^ (n - 53)`, and half of it is the error
    have hsmall : ulp ≤ 2 ^ (n - 53) := by
      rw [hulp, pow2_eq_zpow]
      exact zpow_le_zpow_right₀ (by norm_num) (by omega)
    have hhalf : (2 : ℚ) ^ (n - 53) = 2 * 2 ^ (n - 54) := by
      rw [← zpow_one_add₀ (by norm_num)]
      congr 1
      omega
    have herr : |roundHalfEven (q / ulp) * ulp - q| ≤ 2 ^ (n - 54) := by
      have hstep : roundHalfEven (q / ulp) * ulp - q = (roundHalfEven (q / ulp) - q / ulp) * ulp := by
        field_simp
      rw [hstep, abs_mul, abs_of_pos hpos]
      have := mul_le_mul_of_nonneg_right (abs_roundHalfEven_sub_le (q / ulp)) hpos.le
      linarith
    -- the rounded number cannot overflow from below `2 ^ 1023`
    have hfinite : |roundHalfEven (q / ulp) * ulp| < pow2 1024 := by
      have hle : |roundHalfEven (q / ulp) * ulp| ≤ |q| + 2 ^ (n - 54) := by
        have := abs_add_le (roundHalfEven (q / ulp) * ulp - q) q
        rw [sub_add_cancel] at this
        linarith
      have hn : (2 : ℚ) ^ (n - 54) ≤ 2 ^ n := zpow_le_zpow_right₀ (by norm_num) (by omega)
      have hdouble : (2 : ℚ) * 2 ^ n ≤ 2 ^ (1024 : Int) := by
        rw [← zpow_one_add₀ (by norm_num)]
        exact zpow_le_zpow_right₀ (by norm_num) (by omega)
      rw [pow2_eq_zpow]
      linarith
    refine ⟨_, ?_, herr⟩
    rw [round, if_neg hq]
    exact if_pos hfinite

/-- The unit of the last place divides an integer up to `2 ^ 53`. -/
theorem exists_mul_ulp {z : Int} (hz : z ≠ 0) (h : z.natAbs ≤ 2 ^ 53) :
    ∃ m : Int, (z : ℚ) = m * pow2 (max (binExponent z - 52) (-1074)) := by
  have hne : (z : ℚ) ≠ 0 := by exact_mod_cast hz
  have habs : |(z : ℚ)| = (z.natAbs : ℚ) := by rw [Nat.cast_natAbs, Int.cast_abs]
  have hlt : |(z : ℚ)| < 2 ^ (54 : Int) := by
    rw [habs]
    have : (z.natAbs : ℚ) ≤ 2 ^ 53 := by exact_mod_cast h
    refine this.trans_lt ?_
    norm_num
  have hexp := binExponent_lt hne hlt
  by_cases hsmall : binExponent z ≤ 52
  · -- the unit is a power of one half
    obtain ⟨n, hn⟩ := Int.eq_ofNat_of_zero_le
      (show 0 ≤ -(max (binExponent (z : ℚ) - 52) (-1074)) by omega)
    refine ⟨z * 2 ^ n, ?_⟩
    rw [pow2_eq_zpow, show max (binExponent (z : ℚ) - 52) (-1074) = -(n : Int) by omega, zpow_neg,
      zpow_natCast]
    push_cast
    field_simp
  · -- only the two powers of two at the end of the range have the unit 2
    have h53 : binExponent (z : ℚ) = 53 := by omega
    have hge := zpow_binExponent_le hne
    rw [h53, habs] at hge
    have hge' : 2 ^ 53 ≤ z.natAbs := by exact_mod_cast hge
    have htwo : pow2 (max ((53 : Int) - 52) (-1074)) = 2 := by
      rw [pow2_eq_zpow]
      norm_num
    rw [h53, htwo]
    refine ⟨z / 2, ?_⟩
    have heven : z = z / 2 * 2 := by omega
    exact_mod_cast heven

/-- An integer up to `2 ^ 53` is a `float64`. -/
theorem round_intCast {z : Int} (h : z.natAbs ≤ 2 ^ 53) : round z = .fin z := by
  by_cases hz : z = 0
  · simp [round, hz]
  · obtain ⟨m, hm⟩ := exists_mul_ulp hz h
    have hne : (z : ℚ) ≠ 0 := by exact_mod_cast hz
    set ulp := pow2 (max (binExponent z - 52) (-1074)) with hulp
    have hpos : 0 < ulp := by
      rw [hulp, pow2_eq_zpow]
      positivity
    -- the quotient by the unit is an integer, so there is nothing to round
    have hquo : (z : ℚ) / ulp = m := by
      rw [hm]
      field_simp
    have hfinite : |(z : ℚ)| < pow2 1024 := by
      have habs : |(z : ℚ)| = (z.natAbs : ℚ) := by rw [Nat.cast_natAbs, Int.cast_abs]
      have hle : (z.natAbs : ℚ) ≤ 2 ^ 53 := by exact_mod_cast h
      rw [habs, pow2_eq_zpow]
      refine hle.trans_lt ?_
      rw [← zpow_natCast]
      exact zpow_lt_zpow_right₀ (by norm_num) (by norm_num)
    rw [round, if_neg hne]
    dsimp only
    rw [← hulp, hquo, roundHalfEven_intCast, ← hm, if_pos hfinite]

/-- A number that exceeds a power of two by less than half an ulp is rounded to one that does not
exceed it. -/
theorem round_abs_le {q : ℚ} {n : Nat} (hn : n ≤ 1023) (h : |q| < 2 ^ n + 2 ^ ((n : Int) - 53)) :
    ∃ r, round q = .fin r ∧ |r| ≤ 2 ^ n := by
  by_cases hq : q = 0
  · refine ⟨0, by simp [round, hq], ?_⟩
    rw [abs_zero]
    positivity
  · set e := max (binExponent q - 52) (-1074) with he
    have hpos : (0 : ℚ) < 2 ^ e := by positivity
    have hsmall : (2 : ℚ) ^ ((n : Int) - 53) < 2 ^ n := by
      rw [← zpow_natCast]
      exact zpow_lt_zpow_right₀ (by norm_num) (by omega)
    have hexp : binExponent q < n + 1 := by
      apply binExponent_lt hq
      rw [zpow_add_one₀ (by norm_num), zpow_natCast]
      linarith
    -- the unit divides the power of two, and the excess is less than half of it
    obtain ⟨j, hj⟩ := Int.eq_ofNat_of_zero_le (show 0 ≤ (n : Int) - e by omega)
    have hunits : (2 : ℚ) ^ n = 2 ^ j * 2 ^ e := by
      rw [← zpow_natCast, ← zpow_natCast, ← zpow_add₀ (by norm_num)]
      congr 1
      omega
    have hquo : |q / 2 ^ e| < (2 ^ j : Nat) + 1 / 2 := by
      rw [abs_div, abs_of_pos hpos, div_lt_iff₀ hpos, add_mul]
      push_cast
      rw [← hunits]
      by_cases hlow : |q| < 2 ^ n
      · have : (0 : ℚ) < 1 / 2 * 2 ^ e := by positivity
        linarith
      · have hupper : (n : Int) < binExponent q + 1 := by
          have hlt := lt_zpow_binExponent q
          rw [← zpow_lt_zpow_iff_right₀ (show (1 : ℚ) < 2 by norm_num), zpow_natCast]
          linarith
        have hhalf : (1 : ℚ) / 2 * 2 ^ e = 2 ^ ((n : Int) - 53) := by
          have hen : e = (n : Int) - 53 + 1 := by omega
          rw [hen, zpow_add_one₀ (by norm_num)]
          ring
        rw [hhalf]
        exact h
    have hround := mul_le_mul_of_nonneg_right (abs_roundHalfEven_le hquo) hpos.le
    push_cast at hround
    have hle : |roundHalfEven (q / 2 ^ e) * (2 : ℚ) ^ e| ≤ 2 ^ n := by
      rw [abs_mul, abs_of_pos hpos, hunits]
      exact hround
    refine ⟨_, ?_, hle⟩
    have hfinite : |roundHalfEven (q / 2 ^ e) * (2 : ℚ) ^ e| < 2 ^ (1024 : Int) := by
      refine hle.trans_lt ?_
      rw [← zpow_natCast]
      exact zpow_lt_zpow_right₀ (by norm_num) (by omega)
    rw [round, if_neg hq]
    simp only [pow2_eq_zpow, ← he]
    exact if_pos hfinite

/-- An integer is rounded to an integer. -/
theorem round_intCast_whole {z : Int} {r : ℚ} (h : round z = .fin r) : ∃ w : Int, r = w := by
  by_cases hsmall : z.natAbs ≤ 2 ^ 53
  · rw [round_intCast hsmall] at h
    cases h
    exact ⟨z, rfl⟩
  · have hne : (z : ℚ) ≠ 0 := by
      have : z ≠ 0 := by omega
      exact_mod_cast this
    -- above `2 ^ 53` the unit is a power of two that is an integer
    have hexp : 53 < binExponent (z : ℚ) + 1 := by
      have habs : |(z : ℚ)| = (z.natAbs : ℚ) := by rw [Nat.cast_natAbs, Int.cast_abs]
      have hbig : (2 : ℚ) ^ (53 : Int) < z.natAbs := by exact_mod_cast not_le.1 hsmall
      have hlt := lt_zpow_binExponent (z : ℚ)
      rw [habs] at hlt
      exact (zpow_lt_zpow_iff_right₀ (by norm_num)).1 (hbig.trans hlt)
    obtain ⟨j, hj⟩ := Int.eq_ofNat_of_zero_le
      (show 0 ≤ max (binExponent (z : ℚ) - 52) (-1074) by omega)
    rw [round, if_neg hne] at h
    simp only [pow2_eq_zpow, hj, zpow_natCast] at h
    split at h
    · cases h
      exact ⟨roundHalfEven ((z : ℚ) / 2 ^ j) * 2 ^ j, by push_cast; rfl⟩
    · cases h

/-- The conversion of an integer that exceeds a power of two by less than half an ulp. -/
theorem exists_ofInt_eq_fin {z : Int} {n : Nat} (hn : n ≤ 1023)
    (h : |(z : ℚ)| < 2 ^ n + 2 ^ ((n : Int) - 53)) :
    ∃ w : Int, ofInt z = .fin w ∧ |(w : ℚ)| ≤ 2 ^ n := by
  obtain ⟨r, hr, hle⟩ := round_abs_le hn h
  obtain ⟨w, rfl⟩ := round_intCast_whole hr
  exact ⟨w, hr, hle⟩

theorem ofInt_eq_fin {z : Int} (h : z.natAbs ≤ 2 ^ 53) : ofInt z = .fin z := round_intCast h

/-- A sum of integers is exact if it stays in the range. -/
theorem fin_add_fin {a b : Int} (h : (a + b).natAbs ≤ 2 ^ 53) :
    (fin a).add (.fin b) = .fin (a + b : Int) := by
  rw [add, ← Int.cast_add, round_intCast h]

/-- A difference of integers is exact if it stays in the range. -/
theorem fin_sub_fin {a b : Int} (h : (a - b).natAbs ≤ 2 ^ 53) :
    (fin a).sub (.fin b) = .fin (a - b : Int) := by
  rw [sub, neg, add, ← sub_eq_add_neg, ← Int.cast_sub, round_intCast h]

theorem toInt64_fin_of_floor {r : ℚ} {q : Int} (hq : 0 ≤ q) (hbound : q < 2 ^ 63) (hlo : (q : ℚ) ≤ r)
    (hhi : r < q + 1) : (fin r).toInt64 = q := by
  have hfloor : r.floor = q := Int.floor_eq_iff.2 ⟨hlo, hhi⟩
  have hnonneg : ¬ r < 0 := by
    have : (0 : ℚ) ≤ q := by exact_mod_cast hq
    linarith
  have hint : isInt64 q = true := isInt64_iff.2 ⟨by omega, hbound⟩
  simp [toInt64, hnonneg, hfloor, hint]

/-- The quotient by a million is rounded to a number less than a millionth away. -/
theorem divConst_million_near {t : Int} (h : t.natAbs ≤ 2 ^ 53) :
    ∃ r, (fin t).divConst 1000000 = .fin r ∧ |r - (t : ℚ) / 1000000| < 1 / 1000000 := by
  have habs : |(t : ℚ) / 1000000| < 2 ^ (34 : Int) := by
    have hcast : |(t : ℚ)| = (t.natAbs : ℚ) := by rw [Nat.cast_natAbs, Int.cast_abs]
    have hle : (t.natAbs : ℚ) ≤ 2 ^ 53 := by exact_mod_cast h
    rw [abs_div, hcast, abs_of_pos (by norm_num : (0 : ℚ) < 1000000), div_lt_iff₀ (by norm_num)]
    refine hle.trans_lt ?_
    norm_num
  obtain ⟨r, hr, herr⟩ := round_near (by norm_num) (by norm_num) habs
  refine ⟨r, hr, herr.trans_lt ?_⟩
  norm_num

/-- The truncated quotient by a million is the integer quotient. -/
theorem toInt64_divConst_million {t : Int} (hnonneg : 0 ≤ t) (h : t ≤ 2 ^ 53) :
    ((fin t).divConst 1000000).toInt64 = t / 1000000 := by
  have hdiv : t = t / 1000000 * 1000000 + t % 1000000 := by omega
  set q := t / 1000000 with hq
  set m := t % 1000000 with hm
  have hx : (t : ℚ) / 1000000 = q + (m : ℚ) / 1000000 := by
    rw [hdiv]
    push_cast
    field_simp
  -- a multiple of a million is exact; otherwise the quotient is a millionth away from an integer,
  -- which is more than the rounding error
  by_cases hzero : m = 0
  · have hexact : (fin t).divConst 1000000 = .fin q := by
      rw [divConst, hx, hzero, Int.cast_zero, zero_div, add_zero, round_intCast (by omega)]
    rw [hexact]
    exact toInt64_fin_of_floor (by omega) (by omega) le_rfl (lt_add_one _)
  · obtain ⟨r, hr, herr⟩ := divConst_million_near (t := t) (by omega)
    rw [hr]
    rw [hx, abs_sub_lt_iff] at herr
    have hm1 : (1 : ℚ) ≤ m := by exact_mod_cast (show (1 : Int) ≤ m by omega)
    have hm2 : (m : ℚ) ≤ 999999 := by exact_mod_cast (show m ≤ (999999 : Int) by omega)
    refine toInt64_fin_of_floor (by omega) (by omega) ?_ ?_
    · linarith
    · linarith

/-- A negative number has no positive quotient. -/
theorem toInt64_divConst_million_nonpos {t : Int} (hneg : t < 0) (h : t.natAbs ≤ 2 ^ 53) :
    ((fin t).divConst 1000000).toInt64 ≤ 0 := by
  obtain ⟨r, hr, herr⟩ := divConst_million_near h
  have ht : (t : ℚ) ≤ -1 := by exact_mod_cast (show t ≤ -1 by omega)
  rw [abs_sub_lt_iff] at herr
  have hr0 : r < 0 := by linarith
  have hfloor : 0 ≤ (-r).floor := (Int.floor_nonneg (a := -r)).2 (by linarith)
  rw [hr]
  simp only [toInt64, if_pos hr0]
  split
  · omega
  · norm_num

end Float64

end EnergyChain.Go
