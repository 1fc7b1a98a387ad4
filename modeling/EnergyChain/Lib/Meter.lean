import Mathlib.Algebra.Order.Ring.Int
import Mathlib.Tactic.Linarith
import EnergyChain.Lib.Run

/-!
# Meters

A meter adds up amounts and pays out one token for each full unit; what does not fill a unit stays as
the remainder. Over a run the tokens and the remainder are quotient and remainder of the sum
(`sum_paid`, `run_accrue`), so they do not depend on the order of the amounts.
-/

set_option autoImplicit false

namespace EnergyChain.Meter

/-- The remainder after an amount. -/
def accrue (unit remainder amount : Int) : Int := (remainder + amount) % unit

/-- The tokens that an amount pays out. -/
def paid (unit remainder amount : Int) : Int := (remainder + amount) / unit

variable {unit remainder : Int}

theorem accrue_mem_range (hunit : 0 < unit) (remainder amount : Int) :
    0 ≤ accrue unit remainder amount ∧ accrue unit remainder amount < unit :=
  ⟨Int.emod_nonneg _ hunit.ne', Int.emod_lt_of_pos _ hunit⟩

/-- One amount is split without loss. -/
theorem unit_mul_paid_add_accrue (unit remainder amount : Int) :
    unit * paid unit remainder amount + accrue unit remainder amount = remainder + amount :=
  Int.mul_ediv_add_emod _ _

/-- The remainder of a run is that of the sum. -/
theorem run_accrue (h0 : 0 ≤ remainder) (hlt : remainder < unit) (amounts : List Int) :
    run (accrue unit) remainder amounts = (remainder + amounts.sum) % unit := by
  induction amounts using List.reverseRecOn with
  | nil =>
      -- the remainder lies within the unit, so it is its own remainder
      rw [run_nil, List.sum_nil, add_zero]
      exact (Int.emod_eq_of_lt h0 hlt).symm
  | append_singleton amounts amount ih =>
      rw [run_concat, ih, accrue, List.sum_append, List.sum_singleton, ← add_assoc, Int.emod_add_emod]

/-- The tokens of a run and its remainder hold the whole sum. -/
theorem unit_mul_sum_paid (unit remainder : Int) (amounts : List Int) :
    unit * (trace (accrue unit) (paid unit) remainder amounts).sum +
      run (accrue unit) remainder amounts = remainder + amounts.sum := by
  induction amounts using List.reverseRecOn with
  | nil => simp
  | append_singleton amounts amount ih =>
      -- the last amount is split between its tokens and the new remainder
      have hlast :=
        unit_mul_paid_add_accrue unit (run (accrue unit) remainder amounts) amount
      rw [trace_concat, run_concat, List.sum_append, List.sum_append, List.sum_singleton,
        List.sum_singleton, mul_add]
      linarith

/-- The tokens of a run are the full units of the sum. -/
theorem sum_paid (h0 : 0 ≤ remainder) (hlt : remainder < unit) (amounts : List Int) :
    (trace (accrue unit) (paid unit) remainder amounts).sum = (remainder + amounts.sum) / unit := by
  have hunit : unit ≠ 0 := by omega
  have hsplit := unit_mul_sum_paid unit remainder amounts
  rw [run_accrue h0 hlt] at hsplit
  have hdiv := Int.mul_ediv_add_emod (remainder + amounts.sum) unit
  exact mul_left_cancel₀ hunit (by linarith)

end EnergyChain.Meter
