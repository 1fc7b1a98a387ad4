import EnergyChain.Auth.Ante
import EnergyChain.Reward.SupplyLedger

/-!
# Admission to the mempool

`CheckTx` runs the ante handler with the minimum gas prices of the node. The prices decide the admission in
one way only: a node admits the transactions that it would admit without prices and whose fee covers the
price of their gas, and leaves the state as it would without them (`admitted_iff_covers`).
-/

set_option autoImplicit false

namespace EnergyChain.Auth

open EnergyChain.Go
open EnergyChain.Sdk

/-- The context of a node that asks for no minimum. -/
def TxContext.withoutPrices (ctx : TxContext) : TxContext := { ctx with minGasPrices := .none }

section

variable {V K M D F : Type} {o : HandlerOptions V K M D F} {ctx : TxContext} {tx : Tx K M}
  {gas : Decorator → GasFault} {s paid keyed s' : State V K F}

/-- The chain reads the prices in one place. -/
theorem passed_withoutPrices_iff :
    Passed o ctx false tx gas s paid keyed s' ↔
      Passed o ctx.withoutPrices false tx gas s paid keyed s' ∧ mempoolFee ctx false tx = .ok () := by
  have hnone : mempoolFee ctx.withoutPrices false tx = .ok () := by
    rw [mempoolFee, if_neg (by simp [TxContext.withoutPrices, GasPrices.none])]
    rfl
  constructor
  · intro h
    exact ⟨⟨h.gas, h.extensions, hnone, h.basic, h.timeout, h.memo, h.txSize, h.fee, h.keys, h.sigCount,
      h.sigGas, h.verified, h.incremented⟩, h.minimumFee⟩
  · rintro ⟨h, hminimum⟩
    exact ⟨h.gas, h.extensions, hminimum, h.basic, h.timeout, h.memo, h.txSize, h.fee, h.keys, h.sigCount,
      h.sigGas, h.verified, h.incremented⟩

/-- A fee that covers a price is not zero. -/
theorem coinsIsZero_of_covers {prices : GasPrices} {gasLimit : UInt64} {fee : List Coin}
    (h : prices.Covers gasLimit fee) : coinsIsZero fee = false := by
  obtain ⟨hpos, coin, hcoin, price, hprice, -, hcovers⟩ := h
  refine Bool.eq_false_iff.2 fun hzero => ?_
  have hamount : coin.amount = 0 := by simpa using List.all_eq_true.1 hzero coin hcoin
  have hcost : 0 < price.2 * (gasLimit.toNat : Int) :=
    mul_pos (prices.pos price hprice) (Int.natCast_pos.2 hpos)
  rw [hamount, zero_mul] at hcovers
  omega

/-- For every transaction and every state: a node with minimum prices admits the transaction exactly if it
would admit it without them and one coin of the fee is worth the price of the gas. -/
theorem admitted_iff_covers (o : HandlerOptions V K M D F) (ctx : TxContext) (tx : Tx K M)
    (gas : Decorator → GasFault) (s s' : State V K F) (hcheck : ctx.isCheckTx = true)
    (hrecheck : ctx.isReCheckTx = false) (hprices : ctx.minGasPrices.prices ≠ []) (required : List Coin)
    (hrequired : requiredFees tx.fee.gasLimit ctx.minGasPrices.prices = .ok required) :
    anteHandler o ctx false tx gas s = .ok s' ↔
      anteHandler o ctx.withoutPrices false tx gas s = .ok s' ∧
        ctx.minGasPrices.Covers tx.fee.gasLimit tx.fee.amount := by
  have hmempool : mempoolFee ctx false tx = .ok () ↔ isAnyGTE tx.fee.amount required = .ok true := by
    rw [mempoolFee, if_pos ⟨hcheck, Bool.false_ne_true, hprices⟩, hrequired, ok_bind, bind_eq_ok]
    constructor
    · rintro ⟨enough, henough, hpassed⟩
      rw [henough, require_eq_ok.1 hpassed]
    · intro henough
      exact ⟨true, henough, require_eq_ok.2 rfl⟩
  have hgas : ∀ {paid keyed}, Passed o ctx.withoutPrices false tx gas s paid keyed s' →
      tx.fee.gasLimit.toNat < 2 ^ 63 := fun h => by
    have hbasic := h.basic
    rw [validateBasicDecorator, if_neg (by simp [TxContext.withoutPrices, hrecheck])] at hbasic
    exact gasLimit_of_validateBasic hbasic
  rw [anteHandler_eq_ok, anteHandler_eq_ok]
  constructor
  · rintro ⟨paid, keyed, h⟩
    obtain ⟨hwithout, hminimum⟩ := passed_withoutPrices_iff.1 h
    exact ⟨⟨paid, keyed, hwithout⟩,
      covers_of_isAnyGTE (hgas hwithout) hrequired (hmempool.1 hminimum)⟩
  · rintro ⟨⟨paid, keyed, h⟩, hcovers⟩
    obtain ⟨-, collector, source, hpaid⟩ := deductFee_spec h.fee
    -- the fee was taken, so its coins are valid
    have hvalid := valid_of_coinsIsValid (hpaid.valid (coinsIsZero_of_covers hcovers))
    exact ⟨paid, keyed, passed_withoutPrices_iff.2 ⟨h, hmempool.2
      (isAnyGTE_of_covers (hgas h) hrequired (fun c hc => (hvalid c hc).1) hcovers)⟩⟩

end

/-- A check by a node that asks for a coin for every thousand units of gas. -/
def thriftyContext : TxContext where
  block := Reward.smallCtx 1
  chainID := bytes "energy"
  isCheckTx := true
  isReCheckTx := false
  minGasPrices := ⟨[(bytes "stake", 1000000000000000)], List.pairwise_singleton _ _, by decide⟩

/-- Alice sends 100 of her 500 coins for a fee of 200, which is the price of her gas. -/
theorem admitted_iff_covers_send :
    ∃ s', anteHandler smallOptions thriftyContext false
      (aliceTx 0 [⟨bytes "stake", 200⟩] (.send ⟨Reward.alice, Reward.mallory, [⟨bytes "stake", 100⟩]⟩))
      (fun _ => none) (smallState (Reward.onlyHolder Reward.aliceAddr (bytes "stake"))) = .ok s' := by
  obtain ⟨s', hs'⟩ := isOk_iff.1 (show (anteHandler smallOptions thriftyContext.withoutPrices false
    (aliceTx 0 [⟨bytes "stake", 200⟩] (.send ⟨Reward.alice, Reward.mallory, [⟨bytes "stake", 100⟩]⟩))
    (fun _ => none) (smallState (Reward.onlyHolder Reward.aliceAddr (bytes "stake")))).isOk = true by
      decide +kernel)
  refine ⟨s', (admitted_iff_covers smallOptions thriftyContext _ _ _ s' rfl rfl (by decide)
    [⟨bytes "stake", 200⟩] (by decide +kernel)).2 ⟨hs', ?_⟩⟩
  exact ⟨by decide, _, List.mem_cons_self, _, List.mem_cons_self, rfl, by decide⟩

end EnergyChain.Auth
