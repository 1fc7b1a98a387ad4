import EnergyChain.Reward.Effects

/-!
# Who can lower a balance

A reward message names several addresses and is signed by its creator only. Of the nine messages only
`BurnStableCoin` takes coins from an account other than the module account, and it takes them from
its `target_addr`, whoever signed it (`balance_lt_only_for_burn_target`). The target does not have to
sign: any account can burn the coins of any other (`mallory_burns_alice`).
-/

set_option autoImplicit false

namespace EnergyChain.Reward

open EnergyChain.Go
open EnergyChain.Sdk
open EnergyChain.Bank

section

variable {V : Type} {k : Keeper V} {ctx : Context}

/-- A transfer out of the module account lowers no other balance. -/
theorem balance_le_transfer_of_ne {b : BankState} {f : GoString → Nat} {fromAddr addr : AccAddress}
    (hne : addr ≠ fromAddr) (toAddr : AccAddress) (denom : GoString) :
    b.balance addr denom ≤ ((b.debit fromAddr f).credit toAddr f).balance addr denom := by
  rw [Ledger.balance_credit, Ledger.balance_debit, if_neg hne, Nat.sub_zero]
  exact Nat.le_add_right _ _

/-- If a reward message lowers the balance of an account other than the module account, it is a burn
whose target is that account. -/
theorem burn_target_of_balance_lt {s s' : State V} {r : Result} {msg : Msg} {addr : AccAddress}
    {denom : GoString} (h : handle k ctx s msg = .ok (s', r))
    (hne : addr ≠ k.bankKeeper.moduleAddr)
    (hlt : s'.bank.balance addr denom < s.bank.balance addr denom) :
    ∃ burn, msg = .burnStableCoin burn ∧
      accAddressFromBech32 k.bankKeeper.bech32 burn.targetAddr = .ok addr := by
  cases msg with
  | rewardSolarPower msg =>
      obtain ⟨a, u, m, toAddr, -, -, -, -, -, -, -, -, hbank⟩ :=
        rewardSolarPower_spec (handle_rewardSolarPower h)
      -- the mint goes to the module account, the payment leaves it
      have hpay := balance_le_transfer_of_ne
        (b := (s.bank.credit k.bankKeeper.moduleAddr (Ledger.only aeil a)).issue (Ledger.only aeil a))
        (f := Ledger.only aeil u) hne toAddr denom
      rw [← hbank, Ledger.balance_issue, Ledger.balance_credit, if_neg hne] at hpay
      omega
  | burnStableCoin msg =>
      obtain ⟨resp, hburn⟩ := handle_burnStableCoin h
      obtain ⟨d, a, target, store₁, -, htarget, -, -, hbank, -, -⟩ := burnStableCoin_spec hburn
      rw [hbank, Ledger.balance_retire, Ledger.balance_debit] at hlt
      by_cases haddr : addr = target
      · exact ⟨msg, rfl, haddr ▸ htarget⟩
      · rw [if_neg haddr] at hlt
        omega
  | burnModuleStable msg =>
      rcases burnModuleStableCoins_spec (handle_burnModuleStable h) with
        ⟨rfl, -⟩ | ⟨a, -, -, hbank, -, -⟩
      · omega
      · rw [hbank, Ledger.balance_retire, Ledger.balance_debit, if_neg hne] at hlt
        omega
  | distributeRewardPercent msg =>
      obtain ⟨-, toAddr, -, -, hbank⟩ :=
        distributeRewardPercent_spec (handle_distributeRewardPercent h)
      have hpay := balance_le_transfer_of_ne (b := s.bank) (f := Ledger.only aeil 10000) hne toAddr
        denom
      rw [← hbank] at hpay
      omega
  | _ =>
      rw [handle_bank_eq rfl h] at hlt
      omega

/-- In every state, if a reward message that succeeds lowers the balance of an account other than the
module account, then the account is a signer of the message, or the message is a burn and the account
its target. -/
theorem balance_lt_only_for_burn_target (k : Keeper V) (ctx : Context) (s s' : State V) (r : Result)
    (msg : Msg) (addr : AccAddress) (denom : GoString) (h : handle k ctx s msg = .ok (s', r))
    (hne : addr ≠ k.bankKeeper.moduleAddr)
    (hlt : s'.bank.balance addr denom < s.bank.balance addr denom) :
    (∃ signers, msg.getSigners k.bankKeeper.bech32 = .ok signers ∧ addr ∈ signers) ∨
      ∃ burn, msg = .burnStableCoin burn ∧
        accAddressFromBech32 k.bankKeeper.bech32 burn.targetAddr = .ok addr :=
  Or.inr (burn_target_of_balance_lt h hne hlt)

end

/-- A burn that mallory signs and that names alice as its target. -/
def malloryBurn : MsgBurnStableCoin := ⟨mallory, alice, bytes "630000"⟩

/-- The state in which alice holds nine tenths of a mint of 700000. -/
def aliceHolds : State Document := run (deliver smallKeeper) (genesis emptyBank) depositThenMint

/-- The state after the burn. -/
def aliceBurned : State Document :=
  deliver smallKeeper aliceHolds (smallTx 3 (.burnStableCoin malloryBurn))

/-- The result of the burn: less than a whole REC is redeemed, so none is returned. -/
def malloryBurnResult : Result :=
  ⟨.burn ⟨[], []⟩, [⟨bytes "burn_stable_coin",
    [(bytes "target", alice), (bytes "amount", bytes "630000"), (bytes "returned_records", bytes "0"),
      (bytes "returned_metas", bytes "0")]⟩]⟩

theorem handle_malloryBurn :
    handle smallKeeper (smallCtx 3) aliceHolds (.burnStableCoin malloryBurn) =
      .ok (aliceBurned, malloryBurnResult) := by
  rfl

theorem balance_lt_only_for_burn_target_alice :
    (∃ signers, (Msg.burnStableCoin malloryBurn).getSigners smallBech32 = .ok signers ∧
        aliceAddr ∈ signers) ∨
      ∃ burn, Msg.burnStableCoin malloryBurn = .burnStableCoin burn ∧
        accAddressFromBech32 smallBech32 burn.targetAddr = .ok aliceAddr :=
  balance_lt_only_for_burn_target smallKeeper (smallCtx 3) aliceHolds aliceBurned malloryBurnResult
    (.burnStableCoin malloryBurn) aliceAddr aeil handle_malloryBurn (by decide) (by decide +kernel)

/-- In a state the chain reaches, the message passes its checks and succeeds, the balance of alice
drops to zero, and mallory is its only signer. -/
theorem mallory_burns_alice :
    (Msg.burnStableCoin malloryBurn).validateBasic smallBech32 = .ok () ∧
    handle smallKeeper (smallCtx 3) aliceHolds (.burnStableCoin malloryBurn) =
      .ok (aliceBurned, malloryBurnResult) ∧
    aliceHolds.bank.balance aliceAddr aeil = 630000 ∧
    aliceBurned.bank.balance aliceAddr aeil = 0 ∧ aliceAddr ≠ rewardAddr ∧
    (Msg.burnStableCoin malloryBurn).getSigners smallBech32 = .ok [malloryAddr] ∧
    aliceAddr ∉ [malloryAddr] :=
  ⟨by decide +kernel, handle_malloryBurn, by decide +kernel, by decide +kernel, by decide,
    by decide +kernel, by decide⟩

end EnergyChain.Reward
