import EnergyChain.Reward.Effects

/-!
# The fee pool

The module account keeps a tenth of every mint and pays 10000 out of it to block creators. It is also
the account through which mints and burns pass, so each message moves its balance several times; the
moves of a message add up to `poolChange` (`feePool_deliver`). The exception is a burn that names the
module account itself as its target: the coins do not only pass through, they are taken from the pool
(`burn_takes_from_pool`). Where no burn does that, the balance is the sum of the changes of the
messages that succeeded (`feePool_eq_sum`).

The module account has no key, so it signs no send.
-/

set_option autoImplicit false

namespace EnergyChain.Reward

open EnergyChain.Go
open EnergyChain.Sdk
open EnergyChain.Bank

section

variable {V : Type} {k : Keeper V} {s s' : State V} {r : Result} {tx : Tx}

/-- The fee pool: the stable coins of the module account. -/
def feePool (k : Keeper V) (s : State V) : Int := s.bank.balance k.bankKeeper.moduleAddr aeil

/-- What the ledger of fees says of a message that succeeded: a mint of `a` adds `a / 10`, a payment
to a block creator takes 10000, a module burn takes the stable coins it burned. -/
def Msg.poolChange (s s' : State V) : Msg → Int
  | .rewardSolarPower msg => (newIntFromString msg.amount).getD 0 / 10
  | .distributeRewardPercent _ => -10000
  | .burnModuleStable _ => (s'.bank.supply aeil : Int) - s.bank.supply aeil
  | _ => 0

/-- The change of the fee pool by a transaction: nothing if it failed, and nothing for a send. -/
def poolChange (k : Keeper V) (s : State V) (tx : Tx) : Int :=
  match handleTx k s tx, tx.msg with
  | .ok (s', _), .reward msg => msg.poolChange s s'
  | _, _ => 0

/-- A burn leaves the fee pool alone: its target is not the module account, or it takes no stable
coins, or it cannot go through, for want of coins or of RECs. -/
def sparesPool (k : Keeper V) (s : State V) (tx : Tx) : Bool :=
  match tx.msg with
  | .reward (.burnStableCoin msg) =>
      match parseCoinNormalized (withAeilSuffix msg.amount),
        accAddressFromBech32 k.bankKeeper.bech32 msg.targetAddr with
      | .ok coin, .ok addr =>
          addr != k.bankKeeper.moduleAddr || coin.denom != aeil || coin.amount == 0 ||
            decide (s.bank.balance addr coin.denom < coin.amount.toNat) ||
            decide (numRecs s.store < coin.amount.toNat / 1000000)
      | _, _ => true
  | _ => true

/-- A send is not signed by the module account. -/
def signedByAccount (k : Keeper V) (tx : Tx) : Bool :=
  match tx.msg with
  | .send msg =>
      match accAddressFromBech32 k.bankKeeper.bech32 msg.fromAddress with
      | .ok addr => addr != k.bankKeeper.moduleAddr
      | .error _ => true
  | _ => true

/-- A mint leaves a tenth with the module account. -/
theorem feePool_rewardSolarPower {ctx : Context} {msg : MsgRewardSolarPower}
    (h : handle k ctx s (.rewardSolarPower msg) = .ok (s', r)) :
    feePool k s' = feePool k s + (newIntFromString msg.amount).getD 0 / 10 := by
  obtain ⟨a, u, m, addr, hamount, -, -, -, hu, -, hblocked, -, hbank⟩ :=
    rewardSolarPower_spec (handle_rewardSolarPower h)
  -- the recipient is not blocked, so it is not the module account
  have hne := (ne_moduleAddr_of_not_blocked hblocked).symm
  rw [feePool, feePool, hbank, Ledger.balance_credit, if_neg hne, Ledger.balance_debit, if_pos rfl,
    Ledger.balance_issue, Ledger.balance_credit, if_pos rfl, Ledger.only_self, Ledger.only_self,
    hamount, Option.getD_some]
  omega

/-- A payment to a block creator takes its amount. -/
theorem feePool_distributeRewardPercent {ctx : Context} {msg : MsgDistributeRewardPercent}
    (h : handle k ctx s (.distributeRewardPercent msg) = .ok (s', r)) :
    feePool k s' = feePool k s - 10000 := by
  obtain ⟨-, addr, hblocked, hle, hbank⟩ :=
    distributeRewardPercent_spec (handle_distributeRewardPercent h)
  have hne := (ne_moduleAddr_of_not_blocked hblocked).symm
  rw [feePool, feePool, hbank, Ledger.balance_credit, if_neg hne, Ledger.balance_debit, if_pos rfl,
    Ledger.only_self]
  omega

/-- A module burn takes the other coin, so both the pool and the supply of stable coins stay. -/
theorem feePool_burnModuleStable {ctx : Context} {msg : MsgBurnModuleStable}
    (h : handle k ctx s (.burnModuleStable msg) = .ok (s', r)) :
    feePool k s' = feePool k s ∧ s'.bank.supply aeil = s.bank.supply aeil := by
  have hdenom : mcnl ≠ aeil := by decide
  rcases burnModuleStableCoins_spec (handle_burnModuleStable h) with ⟨rfl, -⟩ | ⟨a, -, -, hbank, -⟩
  · exact ⟨rfl, rfl⟩
  · rw [feePool, feePool, hbank, Ledger.balance_retire, Ledger.balance_debit, if_pos rfl,
      Ledger.supply_retire, Ledger.supply_debit, Ledger.only_of_ne hdenom]
    exact ⟨rfl, rfl⟩

/-- A burn that spares the pool. -/
theorem feePool_burnStableCoin {ctx : Context} {msg : MsgBurnStableCoin}
    (hspares : sparesPool k s ⟨ctx, .reward (.burnStableCoin msg)⟩ = true)
    (h : handle k ctx s (.burnStableCoin msg) = .ok (s', r)) : feePool k s' = feePool k s := by
  obtain ⟨resp, hburn⟩ := handle_burnStableCoin h
  obtain ⟨denom, a, addr, store₁, hparse, haddr, hle, -, hbank, hrecs, -⟩ := burnStableCoin_spec hburn
  have hcount := (returnRecs_spec (Int.natCast_nonneg _) hrecs).2
  rw [Int.toNat_natCast] at hcount
  rw [feePool, feePool, hbank, Ledger.balance_retire, Ledger.balance_debit]
  by_cases htarget : k.bankKeeper.moduleAddr = addr
  · -- the coins that went through were there, and so were the RECs
    rw [if_pos htarget]
    have hnone : Ledger.only denom a aeil = 0 := by
      simp only [sparesPool, hparse, haddr, Int.toNat_natCast, ← htarget, bne_self_eq_false,
        Bool.false_or, Bool.or_eq_true, bne_iff_ne, beq_iff_eq, decide_eq_true_eq] at hspares
      rw [← htarget] at hle
      rcases hspares with ((hdenom | hzero) | hlow) | hfew
      · exact Ledger.only_of_ne hdenom a
      · have ha : a = 0 := by exact_mod_cast hzero
        subst ha
        simp [Ledger.only]
      · omega
      · omega
    rw [hnone, Nat.sub_zero]
  · rw [if_neg htarget, Nat.sub_zero]

theorem feePool_of_bank_eq (h : s'.bank = s.bank) : feePool k s' = feePool k s := by
  rw [feePool, feePool, h]

/-- A message that succeeds changes the pool as the ledger of fees says. -/
theorem feePool_handle {ctx : Context} {msg : Msg}
    (hspares : sparesPool k s ⟨ctx, .reward msg⟩ = true)
    (h : handle k ctx s msg = .ok (s', r)) : feePool k s' = feePool k s + msg.poolChange s s' := by
  cases msg with
  | rewardSolarPower msg => exact feePool_rewardSolarPower h
  | distributeRewardPercent msg => exact feePool_distributeRewardPercent h
  | burnModuleStable msg =>
      obtain ⟨hpool, hsupply⟩ := feePool_burnModuleStable h
      rw [hpool, Msg.poolChange, hsupply, sub_self, add_zero]
  | burnStableCoin msg =>
      exact (feePool_burnStableCoin hspares h).trans (add_zero _).symm
  | _ => exact (feePool_of_bank_eq (handle_bank_eq rfl h)).trans (add_zero _).symm

/-- A send of another account does not touch the pool. -/
theorem feePool_send {ctx : Context} {msg : MsgSend} {bank : BankState}
    (hsigned : signedByAccount k ⟨ctx, .send msg⟩ = true)
    (h : send k.bankKeeper ctx msg s.bank = .ok bank) :
    feePool k { s with bank := bank } = feePool k s := by
  obtain ⟨fromAddr, toAddr, hfrom, hblocked, rfl, -⟩ := send_spec h
  simp only [signedByAccount, hfrom, bne_iff_ne] at hsigned
  change ((Ledger.credit _ toAddr _).balance k.bankKeeper.moduleAddr aeil : Int) = feePool k s
  rw [Ledger.balance_credit, if_neg (ne_moduleAddr_of_not_blocked hblocked).symm, Ledger.balance_debit,
    if_neg (Ne.symm hsigned)]
  rfl

/-- One transaction. -/
theorem feePool_deliver (hsigned : signedByAccount k tx = true) (hspares : sparesPool k s tx = true) :
    feePool k (deliver k s tx) = feePool k s + poolChange k s tx := by
  unfold poolChange
  rw [deliver]
  cases hres : handleTx k s tx with
  | error fault => simp
  | ok p =>
      obtain ⟨s', r⟩ := p
      rw [commit_ok]
      obtain ⟨ctx, msg⟩ := tx
      cases msg with
      | reward msg => exact feePool_handle hspares hres
      | send msg =>
          obtain ⟨bank, hsend, rfl, -⟩ := handleTx_send hres
          rw [feePool_send hsigned hsend, add_zero]

/-- From a bank in which the module account holds no stable coins, the fee pool is the sum of the
changes of the messages that succeeded, in every run in which no burn takes from it. -/
theorem feePool_eq_sum (k : Keeper V) (bank : BankState) (txs : List Tx)
    (hbank : bank.balance k.bankKeeper.moduleAddr aeil = 0)
    (hsigned : ∀ tx ∈ txs, signedByAccount k tx = true)
    (hspares : Along (deliver k) (fun s tx => sparesPool k s tx = true) (genesis bank) txs) :
    feePool k (run (deliver k) (genesis bank) txs) =
      (trace (deliver k) (poolChange k) (genesis bank) txs).sum := by
  induction txs using List.reverseRecOn with
  | nil =>
      rw [run_nil, trace_nil, List.sum_nil, feePool, genesis, hbank]
      rfl
  | append_singleton txs tx ih =>
      obtain ⟨hpre, hlast⟩ := (along_concat _ _ _ _ _).1 hspares
      rw [run_concat, trace_concat, List.sum_append, List.sum_singleton,
        feePool_deliver (hsigned tx (by simp)) hlast,
        ih (fun tx' htx' => hsigned tx' (by simp [htx'])) hpre]

end

/-! ## The pool of the small chain -/

/-- A mint, a payment to mallory, and a burn of alice's coins. -/
def mintPayBurn : List Tx :=
  depositThenMint ++ [smallTx 3 (.distributeRewardPercent ⟨alice, mallory, bytes "0.1"⟩),
    smallTx 4 (.burnStableCoin ⟨alice, alice, bytes "1000"⟩)]

theorem feePool_mintPayBurn :
    feePool smallKeeper (run (deliver smallKeeper) (genesis emptyBank) mintPayBurn) =
      (trace (deliver smallKeeper) (poolChange smallKeeper) (genesis emptyBank) mintPayBurn).sum :=
  feePool_eq_sum smallKeeper emptyBank mintPayBurn rfl (by decide +kernel) (by decide +kernel)

/-- A burn that names the module account takes 50000 from the 70000 that a mint left there. -/
theorem burn_takes_from_pool :
    feePool smallKeeper (run (deliver smallKeeper) (genesis emptyBank) depositThenMint) = 70000 ∧
      (handleTx smallKeeper (run (deliver smallKeeper) (genesis emptyBank) depositThenMint)
        (smallTx 3 (.burnStableCoin ⟨mallory, rewardAccount, bytes "50000"⟩))).isOk = true ∧
      feePool smallKeeper (run (deliver smallKeeper) (genesis emptyBank)
        (depositThenMint ++
          [smallTx 3 (.burnStableCoin ⟨mallory, rewardAccount, bytes "50000"⟩)])) = 20000 ∧
      (trace (deliver smallKeeper) (poolChange smallKeeper) (genesis emptyBank)
        (depositThenMint ++
          [smallTx 3 (.burnStableCoin ⟨mallory, rewardAccount, bytes "50000"⟩)])).sum = 70000 := by
  refine ⟨?_, ?_, ?_, ?_⟩
  · decide +kernel
  · decide +kernel
  · decide +kernel
  · decide +kernel

end EnergyChain.Reward
