import EnergyChain.Reward.Effects

/-!
# A mint from end to end

`RewardSolarPower` parses an amount, compares the new issued total with the value of the collateral,
mints the coins into the module account, keeps a tenth there and pays the rest out. `mint_end_to_end`
says exactly when the message succeeds (`MintAdmitted`), everything it then changes (`MintEffect`),
that a failed message changes nothing, and that the fee which the `sdk.Dec` arithmetic computes is the
tenth rounded down, for every amount of at most 256 bits.

The conditions are those of the module and one of the bank: no balance and no supply may leave the 256
bits of `sdk.Int`. A mint that the collateral covers can still run into that bound
(`covered_mint_overflows`).
-/

set_option autoImplicit false

namespace EnergyChain.Reward

open EnergyChain.Go
open EnergyChain.Sdk
open EnergyChain.Bank

section

variable {V : Type} {k : Keeper V} {ctx : Context}

/-- The message mints `a` coins for `addr`, with `m` coins issued so far, and every check passes. -/
structure MintAdmitted (k : Keeper V) (msg : MsgRewardSolarPower) (s : State V) (a : Nat) (m : Int)
    (addr : AccAddress) : Prop where
  amount : newIntFromString msg.amount = some (a : Int)
  issued : minted k s.store = some m
  recipient : accAddressFromBech32 k.bankKeeper.bech32 msg.address = .ok addr
  notBlocked : k.bankKeeper.blockedAddr addr = false
  covered : m + a ≤ 1000000 * getTotalCollateral s.store
  inRange : a ≠ 0 → fits256 (s.bank.balance k.bankKeeper.moduleAddr aeil + a) ∧
    fits256 (s.bank.supply aeil + a) ∧ fits256 (s.bank.balance addr aeil + (a - a / 10 : Nat))

/-- What a mint of `a` coins for `addr` changes: the recipient gets nine tenths, the module account the
rest, the supply and the issued total grow by `a`, and nothing else changes. -/
structure MintEffect (k : Keeper V) (a : Nat) (m : Int) (addr : AccAddress) (s s' : State V) :
    Prop where
  paid : s'.bank.balance addr aeil = s.bank.balance addr aeil + (a - a / 10)
  fee : s'.bank.balance k.bankKeeper.moduleAddr aeil =
    s.bank.balance k.bankKeeper.moduleAddr aeil + a / 10
  balances : ∀ acc d, ¬ (d = aeil ∧ (acc = addr ∨ acc = k.bankKeeper.moduleAddr)) →
    s'.bank.balance acc d = s.bank.balance acc d
  supply : s'.bank.supply aeil = s.bank.supply aeil + a
  supplies : ∀ d, d ≠ aeil → s'.bank.supply d = s.bank.supply d
  issued : minted k s'.store = some (m + a)
  entries : ∀ key, key ≠ supplyKey → s'.store.get key = s.store.get key

section

variable {bank bank₁ : BankState} {a : Nat} {addr : AccAddress} {total user : List Coin}

/-- What was minted is in the module account. -/
theorem le_balance_of_mintCoins (htotal : newCoins [⟨aeil, a⟩] = .ok total)
    (h : mintCoins k.bankKeeper total bank = .ok bank₁) :
    a ≤ bank₁.balance k.bankKeeper.moduleAddr aeil := by
  rw [mintCoins_spec h, amountOf_eq_only htotal, Ledger.balance_issue, Ledger.balance_credit,
    if_pos rfl]
  simp only [Int.toNat_natCast, Ledger.only_self]
  omega

/-- Minting leaves the balance of the recipient alone. -/
theorem balance_of_mintCoins (h : mintCoins k.bankKeeper total bank = .ok bank₁)
    (hblocked : k.bankKeeper.blockedAddr addr = false) :
    bank₁.balance addr aeil = bank.balance addr aeil := by
  rw [mintCoins_spec h, Ledger.balance_issue, Ledger.balance_credit,
    if_neg (ne_moduleAddr_of_not_blocked hblocked), Nat.add_zero]

/-- The bank calls of an admitted mint succeed exactly if no sum leaves the range. -/
theorem exists_mint_and_pay_iff (ctx : Context) (htotal : newCoins [⟨aeil, a⟩] = .ok total)
    (huser : newCoins [⟨aeil, (a - a / 10 : Nat)⟩] = .ok user) :
    (∃ bank₁ bank₂, mintCoins k.bankKeeper total bank = .ok bank₁ ∧
        sendCoinsFromModuleToAccount k.bankKeeper ctx addr user bank₁ = .ok bank₂) ↔
      k.bankKeeper.blockedAddr addr = false ∧
        (a ≠ 0 → fits256 (bank.balance k.bankKeeper.moduleAddr aeil + a) ∧
          fits256 (bank.supply aeil + a) ∧
          fits256 (bank.balance addr aeil + (a - a / 10 : Nat))) := by
  have hmint := exists_mintCoins_iff (k := k.bankKeeper) (b := bank) htotal
  -- what was minted covers the payment
  have hpay : ∀ bank₁, mintCoins k.bankKeeper total bank = .ok bank₁ →
      ((∃ bank₂, sendCoinsFromModuleToAccount k.bankKeeper ctx addr user bank₁ = .ok bank₂) ↔
        k.bankKeeper.blockedAddr addr = false ∧ (((a - a / 10 : Nat) : Int) ≠ 0 →
          fits256 (bank₁.balance addr aeil + (a - a / 10 : Nat)))) := by
    intro bank₁ hbank₁
    have hheld := le_balance_of_mintCoins htotal hbank₁
    exact exists_sendCoinsFromModuleToAccount_iff huser (by dsimp only; omega)
  constructor
  · rintro ⟨bank₁, bank₂, hbank₁, hbank₂⟩
    obtain ⟨hblocked, hfit⟩ := (hpay bank₁ hbank₁).1 ⟨bank₂, hbank₂⟩
    refine ⟨hblocked, ?_⟩
    intro hne
    obtain ⟨hmodule, hsupply⟩ := hmint.1 ⟨bank₁, hbank₁⟩ (by simpa using hne)
    refine ⟨hmodule, hsupply, ?_⟩
    rw [← balance_of_mintCoins hbank₁ hblocked]
    exact hfit (by omega)
  · rintro ⟨hblocked, hfit⟩
    obtain ⟨bank₁, hbank₁⟩ := hmint.2 fun hne =>
      ⟨(hfit (by simpa using hne)).1, (hfit (by simpa using hne)).2.1⟩
    obtain ⟨bank₂, hbank₂⟩ := (hpay bank₁ hbank₁).2 ⟨hblocked, fun hne => by
      rw [balance_of_mintCoins hbank₁ hblocked]
      exact (hfit (by omega)).2.2⟩
    exact ⟨bank₁, bank₂, hbank₁, hbank₂⟩

end

/-- The keeper function succeeds exactly for an admitted mint. -/
theorem exists_rewardSolarPower_iff (ctx : Context) {msg : MsgRewardSolarPower} {s : State V} :
    (∃ s', rewardSolarPower k ctx msg.address msg.amount s = .ok s') ↔
      ∃ a m addr, MintAdmitted k msg s a m addr := by
  constructor
  · rintro ⟨s', hok⟩
    obtain ⟨a, m, addr, total, user, bank₁, bank₂, hz, hm, hle, haddr, htotal, huser, hmint, hsend, -⟩ :=
      rewardSolarPower_eq_ok.1 hok
    obtain ⟨hblocked, hrange⟩ := (exists_mint_and_pay_iff ctx htotal huser).1 ⟨bank₁, bank₂, hmint, hsend⟩
    exact ⟨a, m, addr, hz, hm, haddr, hblocked, by rwa [mul_comm], hrange⟩
  · rintro ⟨a, m, addr, h⟩
    have hdenom : matchDenom aeil = true := by decide
    obtain ⟨total, htotal⟩ := exists_newCoins_singleton (c := ⟨aeil, a⟩) hdenom (Int.natCast_nonneg a)
    obtain ⟨user, huser⟩ := exists_newCoins_singleton (c := ⟨aeil, (a - a / 10 : Nat)⟩) hdenom
      (Int.natCast_nonneg _)
    obtain ⟨bank₁, bank₂, hmint, hsend⟩ :=
      (exists_mint_and_pay_iff ctx htotal huser).2 ⟨h.notBlocked, h.inRange⟩
    exact ⟨_, rewardSolarPower_eq_ok.2 ⟨a, m, addr, total, user, bank₁, bank₂, h.amount, h.issued,
      by rw [mul_comm]; exact h.covered, h.recipient, htotal, huser, hmint, hsend, rfl⟩⟩

/-- A successful mint was admitted and did what an admitted mint does. -/
theorem rewardSolarPower_effect {msg : MsgRewardSolarPower} {s s' : State V}
    (hok : rewardSolarPower k ctx msg.address msg.amount s = .ok s') :
    ∃ a m addr, MintAdmitted k msg s a m addr ∧ MintEffect k a m addr s s' := by
  obtain ⟨a, m, addr, hadmitted⟩ := (exists_rewardSolarPower_iff ctx).1 ⟨s', hok⟩
  obtain ⟨a', u, m', addr', hz, hm, hfit, -, rfl, haddr, hblocked, hstore, hbank⟩ :=
    rewardSolarPower_spec hok
  -- the amount, the total and the recipient are those of the message and the state
  obtain rfl : a = a' := by
    have := hadmitted.amount.symm.trans hz
    simpa using this
  obtain rfl : m = m' := Option.some_inj.1 (hadmitted.issued.symm.trans hm)
  obtain rfl : addr = addr' := Except.ok.inj (hadmitted.recipient.symm.trans haddr)
  have hne := ne_moduleAddr_of_not_blocked hblocked
  refine ⟨a, m, addr, hadmitted, ?_⟩
  constructor
  · simp [hbank, Ledger.balance_credit, Ledger.balance_debit, hne]
  · simp [hbank, Ledger.balance_credit, Ledger.balance_debit, hne.symm]
    omega
  · intro acc d hother
    by_cases hd : d = aeil
    · subst hd
      have hacc : acc ≠ addr ∧ acc ≠ k.bankKeeper.moduleAddr := by
        constructor
        · rintro rfl
          exact hother ⟨rfl, Or.inl rfl⟩
        · rintro rfl
          exact hother ⟨rfl, Or.inr rfl⟩
      simp [hbank, Ledger.balance_credit, Ledger.balance_debit, hacc.1, hacc.2]
    · have hzero : ∀ n : Nat, Ledger.only aeil n d = 0 := fun n => Ledger.only_of_ne (Ne.symm hd) n
      simp [hbank, Ledger.balance_credit, Ledger.balance_debit, hzero]
  · simp [hbank, Ledger.supply_issue]
  · intro d hd
    simp [hbank, Ledger.supply_issue, Ledger.only_of_ne (Ne.symm hd)]
  · rw [hstore]
    exact minted_setSupply hfit s.store
  · intro key hkey
    rw [hstore]
    exact SortedMap.get_set_of_ne s.store _ hkey

/-- The message succeeds exactly if it is admitted; then it has the effect of a mint; if it fails, the
state stays as it was; and the fee is the tenth rounded down for every amount of at most 256 bits. -/
theorem mint_end_to_end (k : Keeper V) (ctx : Context) (msg : MsgRewardSolarPower) (s : State V) :
    ((∃ s' r, handle k ctx s (.rewardSolarPower msg) = .ok (s', r)) ↔
      ∃ a m addr, MintAdmitted k msg s a m addr) ∧
    (∀ s' r, handle k ctx s (.rewardSolarPower msg) = .ok (s', r) →
      deliver k s ⟨ctx, .reward (.rewardSolarPower msg)⟩ = s' ∧
        ∃ a m addr, MintAdmitted k msg s a m addr ∧ MintEffect k a m addr s s') ∧
    (∀ fault, handle k ctx s (.rewardSolarPower msg) = .error fault →
      deliver k s ⟨ctx, .reward (.rewardSolarPower msg)⟩ = s) ∧
    (∀ a : Nat, fits256 a → ∃ d, decMul (toDec a) (newDecWithPrec 1 1) = .ok d ∧
      truncateInt d = .ok ((a / 10 : Nat) : Int)) := by
  refine ⟨?_, ?_, fun fault => deliver_reward_error, fun a ha => exists_fee ha⟩
  · rw [← exists_rewardSolarPower_iff ctx]
    constructor
    · rintro ⟨s', r, hok⟩
      exact ⟨s', handle_rewardSolarPower hok⟩
    · rintro ⟨s', hok⟩
      refine ⟨s', .empty, ?_⟩
      simp only [handle, hok, ok_bind]
      rfl
  · intro s' r hok
    exact ⟨deliver_reward_ok hok, rewardSolarPower_effect (handle_rewardSolarPower hok)⟩

end

/-! ## A mint of the small chain -/

/-- A bank in which mallory holds as many stable coins as 256 bits can count. -/
def fullBank : BankState where
  balance addr denom := if addr = malloryAddr ∧ denom = aeil then 2 ^ 256 - 1 else 0
  supply denom := if denom = aeil then 2 ^ 256 - 1 else 0

/-- One REC over that bank. -/
def fullState : State Document :=
  run (deliver smallKeeper) (genesis fullBank)
    [smallTx 1 (.depositCollateral ⟨alice, some (.recRecord (smallRecord (bytes "r1")))⟩)]

/-- The collateral covers one more coin and alice may receive it, but the supply cannot count it. -/
theorem covered_mint_overflows :
    newIntFromString (bytes "1") = some 1 ∧
      accAddressFromBech32 smallBech32 alice = .ok aliceAddr ∧
      smallKeeper.bankKeeper.blockedAddr aliceAddr = false ∧
      minted smallKeeper fullState.store = some 0 ∧
      0 + 1 ≤ 1000000 * getTotalCollateral fullState.store ∧
      handle smallKeeper (smallCtx 2) fullState (.rewardSolarPower ⟨alice, alice, bytes "1"⟩) =
        .error (.panic (bytes "Int overflow")) := by
  refine ⟨by decide +kernel, by decide +kernel, by decide +kernel, by decide +kernel,
    by decide +kernel, ?_⟩
  have hfails : (handle smallKeeper (smallCtx 2) fullState
      (.rewardSolarPower ⟨alice, alice, bytes "1"⟩)).map (·.2.response) =
        .error (.panic (bytes "Int overflow")) := by decide +kernel
  cases hres : handle smallKeeper (smallCtx 2) fullState
      (.rewardSolarPower ⟨alice, alice, bytes "1"⟩) with
  | ok p =>
      rw [hres] at hfails
      cases hfails
  | error fault =>
      rw [hres] at hfails
      rw [Except.error.inj hfails]

end EnergyChain.Reward
