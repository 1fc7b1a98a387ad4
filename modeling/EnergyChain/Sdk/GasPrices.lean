import EnergyChain.Sdk.Coin

/-!
# Gas prices

A node asks for a price for each unit of gas, in one or more denominations. The fee that it requires in a
denomination is the price times the gas, rounded up to a whole coin, and one denomination is enough.

`AmountOf` looks for a denomination by bisection, so it finds the coin only in a sorted list
(`searchAmount_eq`). The prices carry the proof that they are sorted, and the required fees inherit their
order. So a fee is found to be enough exactly if one of its coins is worth the price of the gas in its
denomination (`covers_of_isAnyGTE`, `isAnyGTE_of_covers`); for a transaction without gas no fee is enough.
-/

set_option autoImplicit false

namespace EnergyChain.Sdk

open EnergyChain.Go

/-! ## Amounts of a coin set -/

/-- `AmountOfNoDenomValidation`; every call halves the list, so that its length bounds the calls. -/
def searchAmount (denom : GoString) : Nat → List Coin → Int
  | 0, _ => 0
  | fuel + 1, coins =>
      match coins with
      | [] => 0
      | [coin] => if coin.denom = denom then coin.amount else 0
      | coins =>
          match coins.drop (coins.length / 2) with
          | [] => 0
          | coin :: above =>
              if denom < coin.denom then searchAmount denom fuel (coins.take (coins.length / 2))
              else if denom = coin.denom then coin.amount
              else searchAmount denom fuel above

/-- `Coins.AmountOf`. -/
def coinsAmountOf (coins : List Coin) (denom : GoString) : Outcome Int := do
  panicOnErr id (validateDenom denom)
  return searchAmount denom coins.length coins

/-- The loop of `Coins.IsAnyGTE`. -/
def anyGTE (coinsB : List Coin) : List Coin → Outcome Bool
  | [] => .ok false
  | coin :: coins => do
      let amt ← coinsAmountOf coinsB coin.denom
      if amt ≤ coin.amount ∧ amt ≠ 0 then return true else anyGTE coinsB coins

/-- `Coins.IsAnyGTE`. -/
def isAnyGTE (coins coinsB : List Coin) : Outcome Bool :=
  if coinsB = [] then .ok false else anyGTE coinsB coins

/-- `Coins.IsZero`. -/
def coinsIsZero (coins : List Coin) : Bool := coins.all fun c => decide (c.amount = 0)

/-! ## Prices -/

/-- `Dec.Ceil`. -/
def decCeil (d : Int) : Int :=
  let quo := d.tdiv precisionReuse
  let rem := d.tmod precisionReuse
  if rem ≤ 0 then toDec quo else toDec (quo + 1)

/-- `Dec.RoundInt`. -/
def roundInt (d : Int) : Outcome Int := do
  let chopped := chopPrecisionAndRound d
  require (fits256 chopped) (.panic (bytes "NewIntFromBigInt() out of bound"))
  return chopped

/-- The prices of a node for a unit of gas, as `ParseDecCoins` leaves them: sorted by denomination, with
positive amounts. -/
structure GasPrices where
  prices : List (GoString × Int)
  sorted : prices.Pairwise fun p q => p.1 < q.1
  pos : ∀ p ∈ prices, 0 < p.2

/-- A node that asks for no minimum. -/
def GasPrices.none : GasPrices := ⟨[], .nil, nofun⟩

/-- There is gas to pay for, and one coin of the fee is worth its price. -/
def GasPrices.Covers (prices : GasPrices) (gas : UInt64) (fee : List Coin) : Prop :=
  0 < gas.toNat ∧ ∃ coin ∈ fee, ∃ price ∈ prices.prices,
    price.1 = coin.denom ∧ price.2 * gas.toNat ≤ coin.amount * precisionReuse

/-- `fee.Ceil().RoundInt()` as a coin, for the price of one denomination. -/
def requiredFee (gas : UInt64) (price : GoString × Int) : Outcome Coin := do
  let fee ← decMul price.2 (toDec (wrap64 gas.toNat))
  let amount ← roundInt (decCeil fee)
  newCoin price.1 amount

/-- The loop over the prices in `MempoolFeeDecorator`. -/
def requiredFees (gas : UInt64) (prices : List (GoString × Int)) : Outcome (List Coin) :=
  prices.mapM (requiredFee gas)

/-! ## The search -/

/-- The amount of the coin with the denomination, and zero if there is none. -/
def heldAmount (denom : GoString) (coins : List Coin) : Int :=
  ((coins.find? fun c => decide (c.denom = denom)).map Coin.amount).getD 0

section

variable {denom : GoString} {coins : List Coin}

theorem heldAmount_append_of_forall_ne {below above : List Coin} (h : ∀ c ∈ above, c.denom ≠ denom) :
    heldAmount denom (below ++ above) = heldAmount denom below := by
  have hnone : above.find? (fun c => decide (c.denom = denom)) = none := by
    apply List.find?_eq_none.2
    intro c hc
    simpa using h c hc
  rw [heldAmount, List.find?_append, hnone, Option.or_none, heldAmount]

theorem heldAmount_append_right {below above : List Coin} (h : ∀ c ∈ below, c.denom ≠ denom) :
    heldAmount denom (below ++ above) = heldAmount denom above := by
  have hnone : below.find? (fun c => decide (c.denom = denom)) = none := by
    apply List.find?_eq_none.2
    intro c hc
    simpa using h c hc
  rw [heldAmount, List.find?_append, hnone, Option.none_or, heldAmount]

theorem heldAmount_cons (coin : Coin) :
    heldAmount denom (coin :: coins) = if coin.denom = denom then coin.amount else heldAmount denom coins := by
  by_cases hdenom : coin.denom = denom
  · simp [heldAmount, hdenom]
  · simp [heldAmount, hdenom]

/-- A list of two coins or more is cut at a coin, and one of the shorter parts is searched. -/
theorem exists_cut (denom : GoString) (fuel : Nat) (h : 2 ≤ coins.length) :
    ∃ below coin above, coins = below ++ coin :: above ∧
      searchAmount denom (fuel + 1) coins =
        if denom < coin.denom then searchAmount denom fuel below
        else if denom = coin.denom then coin.amount
        else searchAmount denom fuel above := by
  rcases hdrop : coins.drop (coins.length / 2) with _ | ⟨coin, above⟩
  · have hlength := congrArg List.length hdrop
    rw [List.length_drop, List.length_nil] at hlength
    omega
  · refine ⟨coins.take (coins.length / 2), coin, above, ?_, ?_⟩
    · rw [← hdrop, List.take_append_drop]
    · rcases coins with _ | ⟨first, _ | ⟨second, rest⟩⟩
      · cases hdrop
      · simp at h
      · rw [searchAmount, hdrop]
        · nofun
        · nofun

/-- In a sorted list the search finds the coin of the denomination, if there is one. -/
theorem searchAmount_eq {fuel : Nat} (hsorted : coins.Pairwise fun c d => c.denom < d.denom)
    (hfuel : coins.length ≤ fuel) : searchAmount denom fuel coins = heldAmount denom coins := by
  induction fuel generalizing coins with
  | zero =>
      rw [List.length_eq_zero_iff.1 (Nat.le_zero.1 hfuel)]
      rfl
  | succ fuel ih =>
      by_cases htwo : 2 ≤ coins.length
      · obtain ⟨below, coin, above, rfl, hcut⟩ := exists_cut denom fuel htwo
        rw [List.length_append, List.length_cons] at hfuel htwo
        obtain ⟨hbelow, hright, hacross⟩ := List.pairwise_append.1 hsorted
        obtain ⟨hcoin, habove⟩ := List.pairwise_cons.1 hright
        rw [hcut]
        split
        · -- everything from the cut on is larger
          rename_i hlt
          rw [ih hbelow (by omega), heldAmount_append_of_forall_ne]
          intro c hc
          rcases List.mem_cons.1 hc with rfl | hc
          · exact (ne_of_lt hlt).symm
          · exact (ne_of_lt (hlt.trans (hcoin c hc))).symm
        · -- everything before the cut is smaller
          rename_i hnlt
          rw [heldAmount_append_right fun c hc =>
            ne_of_lt ((hacross c hc coin List.mem_cons_self).trans_le (not_lt.1 hnlt)), heldAmount_cons]
          split
          · rename_i heq
            rw [if_pos heq.symm]
          · rename_i hne
            rw [if_neg (Ne.symm hne), ih habove (by omega)]
      · rcases coins with _ | ⟨coin, _ | ⟨second, rest⟩⟩
        · rfl
        · rw [heldAmount_cons]
          rfl
        · simp at htwo

end

/-! ## The required fees -/

theorem chopNat_mul (n : Nat) : chopNat (n * precisionReuse) = n := by
  have hpos : 0 < precisionReuse := by decide
  simp [chopNat, hpos]

theorem chopPrecisionAndRound_toDec (z : Int) : chopPrecisionAndRound (toDec z) = z := by
  have hpos : (0 : Int) < precisionReuse := by decide
  have hnat : chopNat (toDec z).natAbs = z.natAbs := by
    rw [toDec, Int.natAbs_mul, Int.natAbs_natCast, chopNat_mul]
  rw [chopPrecisionAndRound, hnat]
  by_cases hz : z < 0
  · have hneg : toDec z < 0 := mul_neg_of_neg_of_pos hz hpos
    rw [if_pos hneg]
    omega
  · have hnonneg : ¬ toDec z < 0 := not_lt.2 (mul_nonneg (not_lt.1 hz) hpos.le)
    rw [if_neg hnonneg]
    omega

/-- The amount rounded up to whole coins: the least number of coins that is worth it. -/
theorem exists_decCeil {d : Int} (hd : 0 ≤ d) :
    ∃ z, decCeil d = toDec z ∧ 0 ≤ z ∧ (z = 0 ↔ d = 0) ∧ ∀ n : Int, z ≤ n ↔ d ≤ n * precisionReuse := by
  have hquo : d.tdiv precisionReuse = d / precisionReuse := Int.tdiv_eq_ediv_of_nonneg hd
  have hrem : d.tmod precisionReuse = d % precisionReuse := Int.tmod_eq_emod_of_nonneg hd
  have hprecision : (precisionReuse : Int) = 1000000000000000000 := by decide
  rw [decCeil, hquo, hrem, hprecision]
  split
  · exact ⟨_, rfl, by omega, by omega, fun n => by omega⟩
  · exact ⟨_, rfl, by omega, by omega, fun n => by omega⟩

/-- The fee that a price requires: the least number of coins that is worth the price of the gas. -/
theorem requiredFee_spec {gas : UInt64} {price : GoString × Int} {coin : Coin}
    (hgas : gas.toNat < 2 ^ 63) (hprice : 0 < price.2) (h : requiredFee gas price = .ok coin) :
    coin.denom = price.1 ∧ (coin.amount = 0 ↔ gas.toNat = 0) ∧
      ∀ n : Int, coin.amount ≤ n ↔ price.2 * gas.toNat ≤ n * precisionReuse := by
  have hwrap : wrap64 gas.toNat = gas.toNat := by
    apply wrap64_of_isInt64
    rw [isInt64_iff]
    omega
  rw [requiredFee, hwrap] at h
  obtain ⟨fee, hfee, h⟩ := bind_eq_ok.1 h
  obtain ⟨amount, hamount, hcoin⟩ := bind_eq_ok.1 h
  obtain ⟨-, rfl⟩ := newCoin_eq_ok.1 hcoin
  -- the product of a price and a whole number is not rounded
  have hexact : fee = price.2 * gas.toNat := by
    rw [decMul, require_bind_eq_ok] at hfee
    cases hfee.2
    rw [toDec, ← mul_assoc]
    exact chopPrecisionAndRound_toDec _
  have hnonneg : 0 ≤ fee := by
    rw [hexact]
    exact mul_nonneg hprice.le (Int.natCast_nonneg _)
  obtain ⟨z, hz, -, hzero, hle⟩ := exists_decCeil hnonneg
  have hround : amount = z := by
    rw [roundInt, hz, chopPrecisionAndRound_toDec, require_bind_eq_ok] at hamount
    cases hamount.2
    rfl
  rw [hround]
  refine ⟨rfl, ?_, fun n => by rw [hle, hexact]⟩
  rw [hzero, hexact, mul_eq_zero, or_iff_right hprice.ne', Int.natCast_eq_zero]

/-- The required fees are those of the prices, one by one. -/
theorem forall₂_requiredFees {gas : UInt64} {prices : List (GoString × Int)} {required : List Coin}
    (h : requiredFees gas prices = .ok required) :
    List.Forall₂ (fun price coin => requiredFee gas price = .ok coin) prices required := by
  induction prices generalizing required with
  | nil =>
      cases h
      exact .nil
  | cons price prices ih =>
      rw [requiredFees, List.mapM_cons] at h
      obtain ⟨coin, hcoin, h⟩ := bind_eq_ok.1 h
      obtain ⟨coins, hcoins, hpure⟩ := bind_eq_ok.1 h
      cases hpure
      exact .cons hcoin (ih hcoins)

section

variable {gas : UInt64} {prices : GasPrices} {required : List Coin} (hgas : gas.toNat < 2 ^ 63)
  (hrequired : requiredFees gas prices.prices = .ok required)

include hgas hrequired

/-- The required fees are in the order of the prices. -/
theorem sorted_requiredFees : required.Pairwise fun c d => c.denom < d.denom := by
  have hdenoms : required.map Coin.denom = prices.prices.map Prod.fst := by
    have hpos := prices.pos
    have hall := forall₂_requiredFees hrequired
    clear hrequired
    generalize prices.prices = list at hpos hall
    induction hall with
    | nil => rfl
    | cons hcoin _ ih =>
        rw [List.map_cons, List.map_cons, ih fun p hp => hpos p (List.mem_cons_of_mem _ hp),
          (requiredFee_spec hgas (hpos _ List.mem_cons_self) hcoin).1]
  have hsorted : (prices.prices.map Prod.fst).Pairwise (· < ·) := List.pairwise_map.2 prices.sorted
  rw [← hdenoms] at hsorted
  exact List.pairwise_map.1 hsorted

/-- What is required in a denomination is what its price requires. -/
theorem heldAmount_requiredFees (denom : GoString) :
    (∃ price ∈ prices.prices, price.1 = denom ∧
      requiredFee gas price = .ok ⟨denom, heldAmount denom required⟩) ∨
    (∀ price ∈ prices.prices, price.1 ≠ denom) ∧ heldAmount denom required = 0 := by
  have hpos := prices.pos
  have hall := forall₂_requiredFees hrequired
  clear hrequired
  generalize prices.prices = list at hpos hall
  induction hall with
  | nil => exact .inr ⟨nofun, rfl⟩
  | @cons price coin list required hcoin _ ih =>
      obtain ⟨hdenom, -⟩ := requiredFee_spec hgas (hpos _ List.mem_cons_self) hcoin
      rw [heldAmount_cons]
      by_cases hfirst : coin.denom = denom
      · rw [if_pos hfirst]
        subst hfirst
        exact .inl ⟨price, List.mem_cons_self, hdenom.symm, hcoin⟩
      · rw [if_neg hfirst]
        rcases ih fun p hp => hpos p (List.mem_cons_of_mem _ hp) with ⟨p, hp, hrest⟩ | ⟨hnone, hzero⟩
        · exact .inl ⟨p, List.mem_cons_of_mem _ hp, hrest⟩
        · refine .inr ⟨fun p hp => ?_, hzero⟩
          rcases List.mem_cons.1 hp with rfl | hp
          · rw [← hdenom]
            exact hfirst
          · exact hnone p hp

/-- A coin that covers what is required in its denomination covers the price of the gas, and there is gas
to pay for. -/
theorem covers_iff (coin : Coin) :
    heldAmount coin.denom required ≤ coin.amount ∧ heldAmount coin.denom required ≠ 0 ↔
      0 < gas.toNat ∧ ∃ price ∈ prices.prices, price.1 = coin.denom ∧
        price.2 * gas.toNat ≤ coin.amount * precisionReuse := by
  rcases heldAmount_requiredFees hgas hrequired coin.denom with ⟨price, hprice, hdenom, hfee⟩ | ⟨hnone, hzero⟩
  · obtain ⟨-, hzero, hle⟩ := requiredFee_spec hgas (prices.pos price hprice) hfee
    rw [hle, ne_eq, hzero, ← ne_eq, ← Nat.pos_iff_ne_zero, and_comm]
    constructor
    · rintro ⟨hpos, hcovers⟩
      exact ⟨hpos, price, hprice, hdenom, hcovers⟩
    · rintro ⟨hpos, price', hprice', hdenom', hcovers⟩
      -- a denomination has one price
      have hnodup : (prices.prices.map Prod.fst).Nodup :=
        List.pairwise_map.2 (prices.sorted.imp fun hlt => ne_of_lt hlt)
      have hsame : price' = price :=
        List.inj_on_of_nodup_map hnodup hprice' hprice (hdenom'.trans hdenom.symm)
      rw [hsame] at hcovers
      exact ⟨hpos, hcovers⟩
  · constructor
    · rintro ⟨-, hne⟩
      exact absurd hzero hne
    · rintro ⟨-, price, hprice, hdenom, -⟩
      exact absurd hdenom (hnone price hprice)

theorem coinsAmountOf_eq (denom : GoString) :
    coinsAmountOf required denom = (do
      panicOnErr id (validateDenom denom)
      return heldAmount denom required) := by
  rw [coinsAmountOf, searchAmount_eq (sorted_requiredFees hgas hrequired) le_rfl]

/-- A fee that is found to be enough covers the prices. -/
theorem covers_of_isAnyGTE {fee : List Coin} (h : isAnyGTE fee required = .ok true) :
    prices.Covers gas fee := by
  have hloop : anyGTE required fee = .ok true := by
    rw [isAnyGTE] at h
    split at h
    · cases h
    · exact h
  have hcoin : ∃ coin ∈ fee,
      heldAmount coin.denom required ≤ coin.amount ∧ heldAmount coin.denom required ≠ 0 := by
    clear h
    induction fee with
    | nil => cases hloop
    | cons coin fee ih =>
        rw [anyGTE, coinsAmountOf_eq hgas hrequired] at hloop
        obtain ⟨amt, hamt, hloop⟩ := bind_eq_ok.1 hloop
        obtain ⟨-, -, hpure⟩ := bind_eq_ok.1 hamt
        cases hpure
        split at hloop
        · rename_i hcovers
          exact ⟨coin, List.mem_cons_self, hcovers⟩
        · obtain ⟨c, hc, hcovers⟩ := ih hloop
          exact ⟨c, List.mem_cons_of_mem _ hc, hcovers⟩
  obtain ⟨coin, hmem, hcovers⟩ := hcoin
  obtain ⟨hpos, hprice⟩ := (covers_iff hgas hrequired coin).1 hcovers
  exact ⟨hpos, coin, hmem, hprice⟩

/-- And a fee in valid denominations that covers the prices is found to be enough. -/
theorem isAnyGTE_of_covers {fee : List Coin} (hdenoms : ∀ c ∈ fee, matchDenom c.denom = true)
    (h : prices.Covers gas fee) : isAnyGTE fee required = .ok true := by
  obtain ⟨hpos, coin, hcoin, price, hprice, hcovers⟩ := h
  have hheld := (covers_iff hgas hrequired coin).2 ⟨hpos, price, hprice, hcovers⟩
  have hrequired' : required ≠ [] := by
    rintro rfl
    exact hheld.2 rfl
  rw [isAnyGTE, if_neg hrequired']
  induction fee with
  | nil => cases hcoin
  | cons first fee ih =>
      have hvalid : validateDenom first.denom = .ok () :=
        validateDenom_eq_ok.2 (hdenoms first List.mem_cons_self)
      rw [anyGTE, coinsAmountOf_eq hgas hrequired, hvalid]
      show (if _ then _ else _) = _
      split
      · rfl
      · rename_i hfirst
        rcases List.mem_cons.1 hcoin with rfl | hmem
        · exact absurd hheld hfirst
        · exact ih (fun c hc => hdenoms c (List.mem_cons_of_mem _ hc)) hmem

end

end EnergyChain.Sdk
