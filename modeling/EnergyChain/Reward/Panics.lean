import EnergyChain.Reward.Amounts
import EnergyChain.Reward.Mint
import EnergyChain.Sdk.Panics

/-!
# Panics of the reward messages

A handler of the reward module panics where a partial operation meets a value that `ValidateBasic` let
through: an `int64` of a larger number, a coin of a negative amount, a sum that leaves the 256 bits of
`sdk.Int`, or one of the panics of the bank. `Msg.PanicFree` states for each message what has to hold
of its fields and of the state, and `noPanic_handle` says that the handler of a validated message
panics exactly if it does not hold. Deposits, new records and appended hashes never panic.
-/

set_option autoImplicit false

namespace EnergyChain.Reward

open EnergyChain.Go
open EnergyChain.Sdk
open EnergyChain.Bank

section

variable {V : Type} {k : Keeper V} {ctx : Context} {s : State V}

/-! ## The conditions -/

/-- The whole part of a coin text fits an `sdk.Int`. -/
def CoinFits (text : GoString) : Prop :=
  ∀ denom amount, parseDecCoin text = .ok (denom, amount) → fits256 (amount / precisionReuse)

/-- A mint does not panic: the new total is in range, and if the collateral covers it, the amount is
not negative and no balance and no supply leaves the range. -/
def MsgRewardSolarPower.PanicFree (k : Keeper V) (s : State V) (msg : MsgRewardSolarPower) : Prop :=
  ∀ z, newIntFromString msg.amount = some z → ∀ m, minted k s.store = some m →
    fits256 (m + z) ∧ (m + z ≤ getTotalCollateral s.store * 1000000 → 0 ≤ z ∧
      ∀ addr, accAddressFromBech32 k.bankKeeper.bech32 msg.address = .ok addr → z ≠ 0 →
        fits256 (s.bank.balance k.bankKeeper.moduleAddr aeil + z) ∧
        fits256 (s.bank.supply aeil + z) ∧
        (k.bankKeeper.blockedAddr addr = false → fits256 (s.bank.balance addr aeil + (z - z / 10))))

/-- A burn does not panic: the coin is in range; and if it is not zero, the target holds its locked
coins, and if it holds the amount beside them, the module account can take it, the supply covers it and
the number of RECs is an `int64`. -/
def MsgBurnStableCoin.PanicFree (k : Keeper V) (ctx : Context) (s : State V) (msg : MsgBurnStableCoin) :
    Prop :=
  CoinFits (withAeilSuffix msg.amount) ∧
  ∀ coin target, parseCoinNormalized (withAeilSuffix msg.amount) = .ok coin →
    accAddressFromBech32 k.bankKeeper.bech32 msg.targetAddr = .ok target → coin.amount ≠ 0 →
      lockedCoins k.bankKeeper ctx target coin.denom ≤ s.bank.balance target coin.denom ∧
      (coin.amount.toNat + lockedCoins k.bankKeeper ctx target coin.denom ≤
          s.bank.balance target coin.denom →
        fits256 ((s.bank.debit target (Ledger.only coin.denom coin.amount.toNat)).balance
          k.bankKeeper.moduleAddr coin.denom + coin.amount) ∧
        coin.amount ≤ s.bank.supply coin.denom ∧ isInt64 (coin.amount / 1000000) = true)

/-- A burn of the module's `mcnl` does not panic: the supply covers the balance, and the issued total
minus the balance is in range. -/
def BurnModulePanicFree (k : Keeper V) (s : State V) : Prop :=
  ∀ m, minted k s.store = some m → s.bank.balance k.bankKeeper.moduleAddr mcnl ≠ 0 →
    s.bank.balance k.bankKeeper.moduleAddr mcnl ≤ s.bank.supply mcnl ∧
    fits256 (m - s.bank.balance k.bankKeeper.moduleAddr mcnl)

/-- A withdrawal does not panic: the coin is in range, and the number of RECs is an `int64`. -/
def MsgRemoveCollateral.PanicFree (msg : MsgRemoveCollateral) : Prop :=
  CoinFits msg.amount ∧
  ∀ coin, parseCoinNormalized msg.amount = .ok coin → coin.denom = mcnl →
    isInt64 (coin.amount / 1000) = true

/-- A payout does not panic: the recipient's balance stays in range. -/
def MsgDistributeRewardPercent.PanicFree (k : Keeper V) (s : State V)
    (msg : MsgDistributeRewardPercent) : Prop :=
  ∀ addr, accAddressFromBech32 k.bankKeeper.bech32 msg.address = .ok addr →
    10000 ≤ s.bank.balance k.bankKeeper.moduleAddr aeil → k.bankKeeper.blockedAddr addr = false →
      fits256 (s.bank.balance addr aeil + 10000)

/-- What has to hold so that the handler of a message does not panic. -/
def Msg.PanicFree (k : Keeper V) (ctx : Context) (s : State V) : Msg → Prop
  | .rewardSolarPower msg => msg.PanicFree k s
  | .burnStableCoin msg => msg.PanicFree k ctx s
  | .burnModuleStable _ => BurnModulePanicFree k s
  | .removeCollateral msg => msg.PanicFree
  | .addEnergy msg => ∀ z, newIntFromString msg.amount = some z → isInt64 z = true
  | .distributeRewardPercent msg => msg.PanicFree k s
  | .depositCollateral _ => True
  | .createRECRecord _ => True
  | .appendTxHash _ => True

/-! ## Minting -/

/-- The bank calls of a mint, from the two coin sets on. -/
def payMint (k : Keeper V) (ctx : Context) (to_ : GoString) (total user : List Coin) (newTotal : Int)
    (s : State V) : Outcome (State V) := do
  let toAddr ← accAddressFromBech32 k.bankKeeper.bech32 to_
  let bank ← mintCoins k.bankKeeper total s.bank
  let bank ← sendCoinsFromModuleToAccount k.bankKeeper ctx toAddr user bank
  return ⟨setSupply k ⟨formatInt newTotal⟩ s.store, bank⟩

theorem noPanic_payMint {to_ : GoString} {a : Nat} {total user : List Coin} {newTotal : Int}
    (htotal : newCoins [⟨aeil, a⟩] = .ok total)
    (huser : newCoins [⟨aeil, (a - a / 10 : Nat)⟩] = .ok user) :
    NoPanic (payMint k ctx to_ total user newTotal s) ↔
      ∀ addr, accAddressFromBech32 k.bankKeeper.bech32 to_ = .ok addr → a ≠ 0 →
        fits256 (s.bank.balance k.bankKeeper.moduleAddr aeil + a) ∧
        fits256 (s.bank.supply aeil + a) ∧
        (k.bankKeeper.blockedAddr addr = false →
          fits256 (s.bank.balance addr aeil + (a - a / 10 : Nat))) := by
  have hlt : ((a - a / 10 : Nat) : Int) ≠ 0 ↔ a ≠ 0 := by omega
  -- what was minted covers the payment
  have hheld : ∀ bank₁, mintCoins k.bankKeeper total s.bank = .ok bank₁ →
      ((a - a / 10 : Nat) : Int) ≤ bank₁.balance k.bankKeeper.moduleAddr aeil := by
    intro bank₁ hbank₁
    have := le_balance_of_mintCoins htotal hbank₁
    omega
  rw [payMint, noPanic_bind, and_iff_right (noPanic_accAddressFromBech32 _ _)]
  refine forall_congr' fun addr => forall_congr' fun _ => ?_
  rw [noPanic_bind, noPanic_mintCoins htotal]
  constructor
  · rintro ⟨hmint, hsend⟩ hne
    obtain ⟨hmodule, hsupply⟩ := hmint (by simpa using hne)
    obtain ⟨bank₁, hbank₁⟩ := (exists_mintCoins_iff htotal).2 hmint
    refine ⟨hmodule, hsupply, ?_⟩
    intro hblocked
    have hpay := (noPanic_bind.1 (hsend bank₁ hbank₁)).1
    rw [noPanic_sendCoinsFromModuleToAccount huser (hheld bank₁ hbank₁),
      balance_of_mintCoins hbank₁ hblocked] at hpay
    exact hpay hblocked (hlt.2 hne)
  · intro hsafe
    constructor
    · intro hne
      obtain ⟨hmodule, hsupply, -⟩ := hsafe (by simpa using hne)
      exact ⟨hmodule, hsupply⟩
    · intro bank₁ hbank₁
      rw [noPanic_bind]
      refine ⟨?_, fun _ _ => noPanic_pure _⟩
      rw [noPanic_sendCoinsFromModuleToAccount huser (hheld bank₁ hbank₁)]
      intro hblocked hne
      rw [balance_of_mintCoins hbank₁ hblocked]
      exact (hsafe (hlt.1 hne)).2.2 hblocked

theorem noPanic_rewardSolarPower {msg : MsgRewardSolarPower} {m : Int}
    (hm : minted k s.store = some m) :
    NoPanic (rewardSolarPower k ctx msg.address msg.amount s) ↔ msg.PanicFree k s := by
  have hdenom : matchDenom aeil = true := by decide
  obtain ⟨supply, hsupply, hparse⟩ := minted_eq_some.1 hm
  have hminted : orFail nilInt (newIntFromString supply.minted) = .ok m := orFail_eq_ok.2 hparse
  rw [rewardSolarPower, noPanic_bind, and_iff_right (noPanic_orFail _ _), MsgRewardSolarPower.PanicFree]
  simp only [orFail_eq_ok, hm, Option.some_inj, forall_eq']
  refine forall_congr' fun z => forall_congr' fun hz => ?_
  have hquo : intQuo z 1 = .ok z := intQuo_eq_ok.2 ⟨one_ne_zero, (Int.tdiv_one z).symm⟩
  rw [hquo, ok_bind, hsupply, ok_bind, hminted, ok_bind,
    noPanic_bind_of noPanic_intAdd fun hfit => intAdd_eq_ok.2 ⟨hfit, rfl⟩,
    intMul_getTotalCollateral, ok_bind, noPanic_require_error,
    noPanic_bind_of noPanic_newCoin fun hvalid => newCoin_eq_ok.2 ⟨hvalid, rfl⟩]
  refine and_congr_right fun _ => forall_congr' fun _ => ?_
  rw [and_iff_right hdenom]
  refine and_congr_right fun hnonneg => ?_
  -- from here on everything up to the bank calls succeeds
  obtain ⟨a, rfl⟩ := Int.eq_ofNat_of_zero_le hnonneg
  have hamount : (a : Int).natAbs < 2 ^ 256 := fits256_of_newIntFromString hz
  rw [Int.natAbs_natCast] at hamount
  obtain ⟨total, htotal⟩ := exists_newCoins_singleton (c := ⟨aeil, a⟩) hdenom hnonneg
  obtain ⟨feeDec, hfeeDec, hfee⟩ := exists_fee hamount
  obtain ⟨feeCoins, hfeeCoins⟩ := exists_newCoins_singleton (c := ⟨aeil, (a / 10 : Nat)⟩) hdenom
    (Int.natCast_nonneg _)
  obtain ⟨user, huser⟩ := exists_newCoins_singleton (c := ⟨aeil, (a - a / 10 : Nat)⟩) hdenom
    (Int.natCast_nonneg _)
  have hfeeCoin := newCoin_eq_ok.2 ⟨⟨hdenom, Int.natCast_nonneg (a / 10)⟩, rfl⟩
  have hrest : intSub a (a / 10 : Nat) = .ok ((a - a / 10 : Nat) : Int) := by
    refine intSub_eq_ok.2 ⟨?_, by omega⟩
    unfold fits256
    omega
  have huserCoin := newCoin_eq_ok.2 ⟨⟨hdenom, Int.natCast_nonneg (a - a / 10)⟩, rfl⟩
  simp only [htotal, ok_bind, hfeeDec, hfee, hfeeCoin, hfeeCoins, hrest, huserCoin, huser]
  have hthird : (a : Int) - a / 10 = (a - a / 10 : Nat) := by omega
  rw [hthird]
  change NoPanic (payMint k ctx msg.address total user (m + a) s) ↔ _
  rw [noPanic_payMint htotal huser]
  simp only [ne_eq, Int.natCast_eq_zero]

/-! ## Burning -/

/-- The issued total can be lowered unless the difference leaves the range. -/
theorem noPanic_lowerSupply {store : Store V} {m amount : Int} (hm : minted k store = some m) :
    NoPanic (lowerSupply k amount store) ↔ fits256 (m - amount) := by
  obtain ⟨supply, hsupply, hparse⟩ := minted_eq_some.1 hm
  simp only [lowerSupply, hsupply, ok_bind, hparse, orFail]
  rw [noPanic_bind, noPanic_intSub]
  exact and_iff_left fun _ _ => noPanic_pure _

theorem noPanic_returnRecs {n : Int} (hn : 0 ≤ n) (store : Store V) :
    NoPanic (returnRecs k n store) ↔ isInt64 n = true := by
  unfold returnRecs
  split
  -- too few RECs is an error and not a panic
  · rw [noPanic_bind, noPanic_int64]
    refine and_iff_left ?_
    intro limit _
    rw [noPanic_require_error]
    exact fun _ => noPanic_pure _
  · obtain rfl : n = 0 := by omega
    exact iff_of_true (noPanic_ok _) (by decide)

/-- A coin text is read into an amount in range. -/
theorem fits256_of_parseCoinNormalized {text : GoString} {coin : Coin}
    (h : parseCoinNormalized text = .ok coin) : fits256 coin.amount := by
  simp only [parseCoinNormalized, truncateDecimal, truncateInt, bind_eq_ok, newCoin_eq_ok, pure_eq_ok,
    require_eq_ok, exists_const] at h
  obtain ⟨_, -, _, ⟨hfit, rfl⟩, _, -, _, ⟨-, rfl⟩, -, -, rfl⟩ := h
  exact hfit

/-- What a burn does after its bank calls does not panic if the number of RECs is an `int64`. -/
theorem noPanic_redeem {a : Int} (hnonneg : 0 ≤ a) (hfit : fits256 a) (hm : MintedNat k s.store)
    (bank : BankState) :
    NoPanic (do
      let recToReturn ← intQuo a 1000000
      let (store, resp) ← returnRecs k recToReturn s.store
      let store ← lowerSupply k a store
      return ((⟨store, bank⟩ : State V), resp)) ↔ isInt64 (a / 1000000) = true := by
  have hquo : intQuo a 1000000 = .ok (a / 1000000) :=
    intQuo_eq_ok.2 ⟨by decide, (Int.tdiv_eq_ediv_of_nonneg hnonneg).symm⟩
  have hrecs : 0 ≤ a / 1000000 := Int.ediv_nonneg hnonneg (by decide)
  rw [hquo, ok_bind, noPanic_bind, noPanic_returnRecs hrecs]
  refine and_iff_left ?_
  rintro ⟨store, resp⟩ hreturn
  -- the issued total is in range and not negative, so that the difference is in range
  obtain ⟨m, hm⟩ := (returnRecs_spec hrecs hreturn).1.mintedNat (by decide) hm
  have hmfit := fits256_of_minted hm
  dsimp only
  rw [noPanic_bind, noPanic_lowerSupply hm]
  refine ⟨?_, fun _ _ => noPanic_pure _⟩
  unfold fits256 at hfit hmfit ⊢
  omega

theorem noPanic_burnStableCoin {msg : MsgBurnStableCoin} (hm : MintedNat k s.store) :
    NoPanic (burnStableCoin k ctx msg.targetAddr msg.amount s) ↔ msg.PanicFree k ctx s := by
  rw [burnStableCoin, noPanic_bind, noPanic_mapErr, noPanic_parseCoinNormalized]
  simp only [mapErr_eq_ok]
  refine and_congr_right fun _ => forall_congr' fun coin => ?_
  rw [forall_comm]
  refine forall_congr' fun hcoin => ?_
  obtain ⟨hdenom, hnonneg⟩ := valid_of_parseCoinNormalized hcoin
  obtain ⟨coins, hcoins⟩ := exists_newCoins_singleton hdenom hnonneg
  rw [noPanic_bind, noPanic_mapErr, and_iff_right (noPanic_accAddressFromBech32 _ _)]
  refine forall_congr' fun target => ?_
  rw [mapErr_eq_ok]
  refine forall_congr' fun _ => ?_
  rw [hcoins, ok_bind]
  refine (noPanic_send_burn hcoins
    (noPanic_redeem hnonneg (fits256_of_parseCoinNormalized hcoin) hm) s.bank).trans ?_
  -- a burn of nothing returns nothing
  refine and_iff_right ?_
  intro hz
  rw [hz]
  decide

theorem noPanic_burnModuleStableCoins (hm : MintedNat k s.store) :
    NoPanic (burnModuleStableCoins k ctx s) ↔ BurnModulePanicFree k s := by
  obtain ⟨m, hm⟩ := hm
  simp only [BurnModulePanicFree, hm, Option.some_inj, forall_eq']
  unfold burnModuleStableCoins
  generalize hbalance : s.bank.balance k.bankKeeper.moduleAddr mcnl = balance
  dsimp only
  by_cases hz : balance = 0
  · rw [if_pos hz]
    exact iff_of_true (noPanic_ok _) fun hne => absurd hz hne
  · have hdenom : matchDenom mcnl = true := by decide
    obtain ⟨coins, hcoins⟩ := exists_newCoins_singleton (c := ⟨mcnl, balance⟩) hdenom
      (Int.natCast_nonneg balance)
    have hne : (balance : Int) ≠ 0 := by simpa using hz
    have hheld : (balance : Int) ≤ s.bank.balance k.bankKeeper.moduleAddr mcnl := by rw [hbalance]
    rw [if_neg hz, hcoins, ok_bind, noPanic_bind, noPanic_mapErr, noPanic_burnCoins hcoins]
    simp only [mapErr_eq_ok]
    constructor
    · rintro ⟨hsupply, hafter⟩ -
      have hcovered := hsupply hne hheld
      obtain ⟨bank, hbank⟩ : ∃ bank, burnCoins k.bankKeeper ctx coins s.bank = .ok bank :=
        exists_burnCoins hcoins hheld hcovered
      refine ⟨Int.ofNat_le.1 hcovered, ?_⟩
      rw [← noPanic_lowerSupply hm]
      exact (noPanic_bind.1 (hafter bank hbank)).1
    · intro hsafe
      obtain ⟨hcovered, hfit⟩ := hsafe hz
      refine ⟨fun _ _ => Int.ofNat_le.2 hcovered, ?_⟩
      intro bank _
      rw [noPanic_bind, noPanic_lowerSupply hm]
      exact ⟨hfit, fun _ _ => noPanic_pure _⟩

/-! ## The other messages -/

theorem noPanic_removeCollateral {msg : MsgRemoveCollateral} (store : Store V) :
    NoPanic (removeCollateral msg.amount store) ↔ msg.PanicFree := by
  rw [removeCollateral, noPanic_bind, noPanic_mapErr, noPanic_parseCoinNormalized]
  refine and_congr_right fun _ => forall_congr' fun coin => ?_
  rw [mapErr_eq_ok]
  refine forall_congr' fun hcoin => ?_
  have hquo : intQuo coin.amount 1000 = .ok (coin.amount / 1000) :=
    intQuo_eq_ok.2 ⟨by decide,
      (Int.tdiv_eq_ediv_of_nonneg (valid_of_parseCoinNormalized hcoin).2).symm⟩
  rw [noPanic_require_error, hquo, ok_bind, noPanic_require_error, noPanic_bind, noPanic_int64]
  refine forall_congr' fun _ => ?_
  constructor
  · intro h
    -- an amount below one REC is refused before the conversion
    by_cases hz : coin.amount / 1000 = 0
    · rw [hz]
      decide
    · exact (h hz).1
  · intro h _
    refine ⟨h, ?_⟩
    intro limit _
    rw [noPanic_require_error]
    exact fun _ => noPanic_pure _

theorem noPanic_handleAddEnergy {msg : MsgAddEnergy} :
    NoPanic (handleAddEnergy k msg s) ↔
      ∀ z, newIntFromString msg.amount = some z → isInt64 z = true := by
  rw [handleAddEnergy, noPanic_bind, and_iff_right (noPanic_orFail _ _)]
  refine forall_congr' fun z => ?_
  rw [orFail_eq_ok]
  refine forall_congr' fun _ => ?_
  rw [noPanic_bind, noPanic_int64]
  exact and_iff_left fun _ _ => noPanic_pure _

theorem noPanic_distributeRewardPercent {msg : MsgDistributeRewardPercent}
    (hcreator : ∃ creator, accAddressFromBech32 k.bankKeeper.bech32 msg.creator = .ok creator) :
    NoPanic (distributeRewardPercent k ctx msg s) ↔ msg.PanicFree k s := by
  have hdenom : matchDenom aeil = true := by decide
  obtain ⟨creator, hcreator⟩ := hcreator
  have hcoin : newCoin aeil 10000 = .ok ⟨aeil, 10000⟩ := newCoin_eq_ok.2 ⟨⟨hdenom, by decide⟩, rfl⟩
  obtain ⟨coins, hcoins⟩ := exists_newCoins_singleton (c := ⟨aeil, 10000⟩) hdenom (by decide)
  rw [distributeRewardPercent, hcreator, mapErr, ok_bind, noPanic_require_error, hcoin, ok_bind, hcoins,
    ok_bind, noPanic_bind, noPanic_mapErr, and_iff_right (noPanic_accAddressFromBech32 _ _),
    MsgDistributeRewardPercent.PanicFree, forall_comm]
  refine forall_congr' fun addr => ?_
  rw [forall_comm, mapErr_eq_ok]
  refine forall_congr' fun _ => forall_congr' fun hheld => ?_
  rw [noPanic_bind, and_iff_left fun _ _ => noPanic_pure _,
    noPanic_sendCoinsFromModuleToAccount hcoins (Int.ofNat_le.2 hheld)]
  simp

theorem noPanic_depositCollateral (msg : MsgDepositCollateral) (store : Store V) :
    NoPanic (depositCollateral k msg store) := by
  rw [depositCollateral, noPanic_bind, noPanic_mapErr]
  refine ⟨noPanic_accAddressFromBech32 _ _, ?_⟩
  intro _ _
  split
  · exact noPanic_pure _
  · exact noPanic_pure _
  · exact noPanic_fail _

theorem noPanic_appendTxNode (node : TxNodeTx) (store : Store V) :
    NoPanic (appendTxNode k node store) := by
  unfold appendTxNode
  dsimp only
  split
  · exact noPanic_ok _
  · split
    · exact noPanic_fail _
    · split
      · exact noPanic_fail _
      · exact noPanic_ok _

/-- A positive count gives a first identifier. -/
theorem noPanic_handleCreateRECRecord {msg : MsgCreateRECRecord} (h : 0 < msg.count) :
    NoPanic (handleCreateRECRecord k ctx msg s) := by
  obtain ⟨n, hn⟩ : ∃ n, msg.count.toNat = n + 1 := ⟨msg.count.toNat - 1, by omega⟩
  rw [handleCreateRECRecord, createRECRecord, hn, List.range_succ_eq_map]
  exact noPanic_ok _

/-! ## Validated messages -/

theorem exists_of_checkAddress {lib : Bech32} {address : GoString} {wrap : GoString → GoString}
    {rest : Unit → Outcome Unit} (h : (checkAddress lib address wrap >>= rest) = .ok ()) :
    ∃ addr, accAddressFromBech32 lib address = .ok addr := by
  simp only [checkAddress, bind_eq_ok, mapErr_eq_ok] at h
  obtain ⟨-, ⟨addr, haddr, -⟩, -⟩ := h
  exact ⟨addr, haddr⟩

/-- The creator of a validated message decodes: every `ValidateBasic` checks it first. -/
theorem exists_creator {lib : Bech32} {msg : Msg} (h : msg.validateBasic lib = .ok ()) :
    ∃ creator, accAddressFromBech32 lib msg.creator = .ok creator := by
  cases msg <;> exact exists_of_checkAddress h

/-- `GetSigners` of a validated message returns. -/
theorem noPanic_getSigners {lib : Bech32} {msg : Msg} (h : msg.validateBasic lib = .ok ()) :
    NoPanic (msg.getSigners lib) := by
  obtain ⟨creator, hcreator⟩ := exists_creator h
  rw [Msg.getSigners, hcreator]
  exact noPanic_ok _

/-- The handler of a validated message panics exactly if the condition of the message fails. -/
theorem noPanic_handle {msg : Msg} (hm : MintedNat k s.store)
    (h : msg.validateBasic k.bankKeeper.bech32 = .ok ()) :
    NoPanic (handle k ctx s msg) ↔ msg.PanicFree k ctx s := by
  cases msg with
  | rewardSolarPower msg =>
      obtain ⟨m, hm⟩ := hm
      rw [handle, noPanic_bind, noPanic_rewardSolarPower hm]
      exact and_iff_left fun _ _ => noPanic_pure _
  | burnStableCoin msg =>
      rw [handle, handleBurnStableCoin, noPanic_bind, noPanic_burnStableCoin hm]
      exact and_iff_left fun _ _ => noPanic_pure _
  | burnModuleStable msg =>
      rw [handle, noPanic_bind, noPanic_mapErr, noPanic_burnModuleStableCoins hm]
      exact and_iff_left fun _ _ => noPanic_pure _
  | depositCollateral msg =>
      refine iff_of_true ?_ trivial
      rw [handle, noPanic_bind]
      exact ⟨noPanic_depositCollateral msg s.store, fun _ _ => noPanic_pure _⟩
  | removeCollateral msg =>
      rw [handle, noPanic_bind, noPanic_removeCollateral]
      exact and_iff_left fun _ _ => noPanic_pure _
  | addEnergy msg => exact noPanic_handleAddEnergy
  -- the check of the count is what keeps the event from reading an empty list
  | createRECRecord msg =>
      refine iff_of_true ?_ trivial
      simp only [Msg.validateBasic, MsgCreateRECRecord.validateBasic, bind_eq_ok, require_eq_ok] at h
      obtain ⟨_, -, hcount⟩ := h
      exact noPanic_handleCreateRECRecord hcount
  | appendTxHash msg =>
      refine iff_of_true ?_ trivial
      rw [handle, handleAppendTxHash, noPanic_bind]
      exact ⟨noPanic_appendTxNode _ s.store, fun _ _ => noPanic_pure _⟩
  | distributeRewardPercent msg =>
      rw [handle, handleDistributeRewardPercent, noPanic_bind,
        noPanic_distributeRewardPercent (exists_creator h)]
      exact and_iff_left fun _ _ => noPanic_pure _

end

end EnergyChain.Reward
