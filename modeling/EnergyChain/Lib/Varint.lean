import Mathlib.Data.Nat.Bitwise
import Mathlib.Tactic.Ring

/-!
# Numbers in groups of seven bits

A number is written in base 128, lowest group first, one byte for each group; every byte but the last
has its highest bit set. `Groups` are the byte strings that are read as one number, `value` is the number,
and `encode` is the shortest of the strings with that value. Longer strings with the same value are
groups too, with zeros in the high groups.
-/

set_option autoImplicit false

namespace EnergyChain.Varint

/-- The shortest groups of a number. -/
def encode (v : Nat) : List UInt8 :=
  if v < 128 then [UInt8.ofNat v] else UInt8.ofNat (v % 128 + 128) :: encode (v / 128)

/-- The number that groups denote. -/
def value : List UInt8 → Nat
  | [] => 0
  | b :: g => b.toNat % 128 + 128 * value g

/-- Byte strings with the highest bit set in every byte but the last. -/
inductive Groups : List UInt8 → Prop
  | last {b : UInt8} (h : b.toNat < 128) : Groups [b]
  | more {b : UInt8} {g : List UInt8} (h : 128 ≤ b.toNat) (rest : Groups g) : Groups (b :: g)

theorem Groups.ne_nil {g : List UInt8} (h : Groups g) : g ≠ [] := by
  cases h with
  | last => exact List.cons_ne_nil _ _
  | more => exact List.cons_ne_nil _ _

theorem encode_of_lt {v : Nat} (h : v < 128) : encode v = [UInt8.ofNat v] := by
  rw [encode, if_pos h]

theorem encode_of_ge {v : Nat} (h : 128 ≤ v) :
    encode v = UInt8.ofNat (v % 128 + 128) :: encode (v / 128) := by
  rw [encode, if_neg (by omega)]

theorem groups_encode (v : Nat) : Groups (encode v) := by
  induction v using Nat.strongRecOn with
  | ind v ih =>
      by_cases h : v < 128
      · rw [encode_of_lt h]
        apply Groups.last
        simp only [UInt8.toNat_ofNat']
        omega
      · rw [encode_of_ge (by omega)]
        apply Groups.more
        · simp only [UInt8.toNat_ofNat']
          omega
        · exact ih (v / 128) (by omega)

theorem value_encode (v : Nat) : value (encode v) = v := by
  induction v using Nat.strongRecOn with
  | ind v ih =>
      by_cases h : v < 128
      · rw [encode_of_lt h]
        simp only [value, UInt8.toNat_ofNat']
        omega
      · rw [encode_of_ge (by omega), value, ih (v / 128) (by omega)]
        simp only [UInt8.toNat_ofNat']
        omega

theorem length_encode_le {v n : Nat} (h : v < 128 ^ (n + 1)) : (encode v).length ≤ n + 1 := by
  induction n generalizing v with
  | zero =>
      rw [encode_of_lt (by omega)]
      exact Nat.le_refl 1
  | succ n ih =>
      by_cases hv : v < 128
      · rw [encode_of_lt hv]
        exact Nat.le_add_left 1 (n + 1)
      · rw [encode_of_ge (by omega), List.length_cons]
        apply Nat.succ_le_succ
        apply ih
        rw [Nat.div_lt_iff_lt_mul (by omega), ← pow_succ]
        exact h

theorem log2_div_128 {v : Nat} (h : 128 ≤ v) : v.log2 = (v / 128).log2 + 7 := by
  have hq : v / 128 ≠ 0 := by omega
  obtain ⟨hlo, hhi⟩ := (Nat.log2_eq_iff hq).1 rfl
  have hpow : 2 ^ ((v / 128).log2 + 7) = 2 ^ (v / 128).log2 * 128 := pow_add 2 _ 7
  rw [Nat.log2_eq_iff (by omega), pow_succ _ ((v / 128).log2 + 7), hpow]
  rw [pow_succ] at hhi
  omega

/-- The number of groups, from the number of bits. -/
theorem length_encode (v : Nat) : (encode v).length = (v.log2 + 7) / 7 := by
  induction v using Nat.strongRecOn with
  | ind v ih =>
      by_cases h : v < 128
      · have hlog : v.log2 < 7 := by
          by_cases h0 : v = 0
          · subst h0
            decide
          · exact (Nat.log2_lt h0).2 h
        rw [encode_of_lt h, List.length_singleton]
        omega
      · have hv : 128 ≤ v := by omega
        rw [encode_of_ge hv, List.length_cons, ih (v / 128) (by omega), log2_div_128 hv]
        omega

/-- The lowest bit does not change the number of bits. -/
theorem log2_or_one (v : Nat) : (v ||| 1).log2 = v.log2 := by
  by_cases h0 : v = 0
  · subst h0
    decide
  · obtain ⟨hlo, hhi⟩ := (Nat.log2_eq_iff h0).1 rfl
    have hle : v ≤ v ||| 1 := Nat.left_le_or
    rw [Nat.log2_eq_iff (by omega)]
    refine ⟨hlo.trans hle, Nat.or_lt_two_pow hhi ?_⟩
    exact Nat.one_lt_two_pow (by omega)

end EnergyChain.Varint
