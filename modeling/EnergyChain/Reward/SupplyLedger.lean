import EnergyChain.Reward.Effects

/-!
# Two records of one supply

The reward keeper counts the stable coins it issued (`minted`), and the bank counts the supply of
`aeil`. The two numbers agree as long as whatever is subtracted from the first is burned from the
second.

Two operations can burn another coin. `BurnStableCoin` accepts any amount text that ends in `aeil`,
so `5xaeil` burns the coin `xaeil`; `BurnModuleStable` burns the module's `mcnl`. Both subtract the
amount from the issued total. One transaction keeps the agreement exactly when it succeeds with
neither, unless nothing is subtracted (`deliver_ledgersAgree_iff`). `takesStable` is a condition on
the message and the state before it that excludes both; where it holds along a run, the two records
agree in every state of the run (`minted_eq_supply`). Without it they drift apart
(`minted_ne_supply`).
-/

set_option autoImplicit false

namespace EnergyChain.Reward

open EnergyChain.Go
open EnergyChain.Sdk
open EnergyChain.Bank

section

variable {V : Type} {k : Keeper V}

/-- The keeper's issued total is the bank's supply of the stable coin. -/
def LedgersAgree (k : Keeper V) (s : State V) : Prop :=
  minted k s.store = some (s.bank.supply aeil : Int)

/-- If the transaction succeeds, what it subtracts from the issued total are stable coins that it
burns, or nothing: the amount is zero or the issued total is zero already. -/
def burnsAeil (k : Keeper V) (s : State V) (tx : Tx) : Bool :=
  match handleTx k s tx with
  | .error _ => true
  | .ok _ =>
      match tx.msg with
      | .reward (.burnStableCoin msg) =>
          match parseCoinNormalized (withAeilSuffix msg.amount) with
          | .ok coin => coin.denom == aeil || coin.amount == 0 || minted k s.store == some 0
          | .error _ => true
      | .reward (.burnModuleStable _) =>
          s.bank.balance k.bankKeeper.moduleAddr mcnl == 0 || minted k s.store == some 0
      | _ => true

theorem LedgersAgree.of_supply_eq {fs : List Family} {s s' : State V} (h : LedgersAgree k s)
    (hframe : ChangesOnly fs s.store s'.store) (hfs : Family.supply ∉ fs)
    (hbank : s'.bank.supply = s.bank.supply) : LedgersAgree k s' := by
  rw [LedgersAgree, hframe.minted_eq hfs, hbank]
  exact h

/-- A burn of `a` coins of some denomination keeps the agreement exactly if the coins are stable
coins or nothing is subtracted. -/
theorem ledgersAgree_burn_iff {s s' : State V} {denom : GoString} {a : Nat} {store₁ : Store V}
    (h : LedgersAgree k s) (hframe : ChangesOnly [.recRecord, .recMeta] s.store store₁)
    (hle : a ≤ s.bank.supply denom)
    (hbank : s'.bank.supply aeil = s.bank.supply aeil - Ledger.only denom a aeil)
    (hlower : lowerSupply k a store₁ = .ok s'.store) :
    LedgersAgree k s' ↔ denom = aeil ∨ a = 0 ∨ s.bank.supply aeil = 0 := by
  have hm₁ : minted k store₁ = some (s.bank.supply aeil : Int) := by
    rw [hframe.minted_eq (by decide)]
    exact h
  rw [LedgersAgree, minted_lowerSupply hm₁ hlower, Option.some.injEq, hbank]
  -- stable coins leave both sides; other coins leave the issued total alone
  by_cases hd : denom = aeil
  · subst hd
    simp only [Ledger.only, if_true, true_or, iff_true]
    omega
  · have honly : Ledger.only denom a aeil = 0 := if_neg hd
    rw [honly]
    simp only [hd, false_or]
    omega

theorem mcnl_ne_aeil : mcnl ≠ aeil := by decide

theorem beq_minted_zero {s : State V} (h : LedgersAgree k s) :
    (minted k s.store == some 0) = true ↔ s.bank.supply aeil = 0 := by
  rw [h, beq_iff_eq, Option.some.injEq]
  omega

/-- A successful reward message keeps the agreement exactly if it burns stable coins only. -/
theorem handle_ledgersAgree_iff {ctx : Context} {s s' : State V} {r : Result} {msg : Msg}
    (h : LedgersAgree k s) (hok : handle k ctx s msg = .ok (s', r)) :
    LedgersAgree k s' ↔ burnsAeil k s ⟨ctx, .reward msg⟩ = true := by
  have hframe := handle_changesOnly hok
  have htx : handleTx k s ⟨ctx, .reward msg⟩ = .ok (s', r) := hok
  simp only [burnsAeil, htx]
  cases msg with
  | rewardSolarPower msg =>
      obtain ⟨a, u, m, addr, -, hm, hfit, -, -, -, -, hstore, hbank⟩ :=
        rewardSolarPower_spec (handle_rewardSolarPower hok)
      rw [h, Option.some.injEq] at hm
      subst hm
      simp only [iff_true]
      rw [LedgersAgree, hstore, minted_setSupply hfit, hbank]
      simp [Ledger.only]
  | burnStableCoin msg =>
      obtain ⟨resp, hburn⟩ := handle_burnStableCoin hok
      obtain ⟨denom, a, addr, store₁, hparse, -, -, hle, hbank, hrecs, hlower⟩ :=
        burnStableCoin_spec hburn
      have hframe₁ := (returnRecs_spec (Int.natCast_nonneg _) hrecs).1
      rw [ledgersAgree_burn_iff h hframe₁ hle (by rw [hbank]; rfl) hlower]
      -- the condition is the right side, as the message states it
      simp only [hparse, Bool.or_eq_true, beq_iff_eq (a := denom), beq_minted_zero h, or_assoc]
      simp
  | burnModuleStable msg =>
      rcases burnModuleStableCoins_spec (handle_burnModuleStable hok) with
        ⟨rfl, hzero⟩ | ⟨a, ha, -, hbank, hle, hlower⟩
      · simp [hzero, h]
      · rw [ledgersAgree_burn_iff h (.refl _ _) hle (by rw [hbank]; rfl) hlower]
        simp only [← ha, Bool.or_eq_true, beq_minted_zero h, mcnl_ne_aeil, false_or, beq_iff_eq]
  | distributeRewardPercent msg =>
      simp only [iff_true]
      obtain ⟨-, addr, -, -, hbank⟩ :=
        distributeRewardPercent_spec (handle_distributeRewardPercent hok)
      exact h.of_supply_eq hframe (by simp) (by rw [hbank]; rfl)
  | _ =>
      simp only [iff_true]
      exact h.of_supply_eq hframe (by simp) (by rw [handle_bank_eq rfl hok])

/-- A transaction keeps the agreement exactly if it burns stable coins only. -/
theorem deliver_ledgersAgree_iff {s : State V} {tx : Tx} (h : LedgersAgree k s) :
    LedgersAgree k (deliver k s tx) ↔ burnsAeil k s tx = true := by
  cases hok : handleTx k s tx with
  | error e =>
      rw [deliver, hok, commit_error]
      simp [burnsAeil, hok, h]
  | ok p =>
      obtain ⟨s', r⟩ := p
      rw [deliver, hok, commit_ok]
      obtain ⟨ctx, msg⟩ := tx
      cases msg with
      | reward msg => exact handle_ledgersAgree_iff h hok
      | send msg =>
          have htrue : burnsAeil k s ⟨ctx, .send msg⟩ = true := by simp [burnsAeil, hok]
          obtain ⟨bank, hsend, rfl, -⟩ := handleTx_send hok
          obtain ⟨fromAddr, toAddr, -, -, rfl, -⟩ := send_spec hsend
          simp only [htrue, iff_true]
          exact h.of_supply_eq (ChangesOnly.refl [] _) (by simp) rfl

/-- The condition on the message and the state before it. A burn names the stable coin, or nothing is
subtracted (a zero amount, a zero total), or it cannot go through (an address that does not decode, a
holder without that many spendable coins, too few RECs). A module burn finds no `mcnl`, or nothing is
subtracted. -/
def takesStable (k : Keeper V) (s : State V) (tx : Tx) : Bool :=
  match tx.msg with
  | .reward (.burnStableCoin msg) =>
      match parseCoinNormalized (withAeilSuffix msg.amount),
        accAddressFromBech32 k.bankKeeper.bech32 msg.targetAddr with
      | .ok coin, .ok addr =>
          coin.denom == aeil || coin.amount == 0 || minted k s.store == some 0 ||
            decide (s.bank.balance addr coin.denom <
              coin.amount.toNat + lockedCoins k.bankKeeper tx.ctx addr coin.denom) ||
            decide (numRecs s.store < coin.amount.toNat / 1000000)
      | _, _ => true
  | .reward (.burnModuleStable _) =>
      s.bank.balance k.bankKeeper.moduleAddr mcnl == 0 || minted k s.store == some 0
  | _ => true

/-- A burn that goes through under the condition takes stable coins. -/
theorem burnsAeil_of_takesStable {s : State V} {tx : Tx} (h : takesStable k s tx = true) :
    burnsAeil k s tx = true := by
  cases hok : handleTx k s tx with
  | error e => simp [burnsAeil, hok]
  | ok p =>
      obtain ⟨s', r⟩ := p
      obtain ⟨ctx, msg⟩ := tx
      simp only [burnsAeil, hok]
      split
      · rename_i msg
        obtain ⟨resp, hburn⟩ := handle_burnStableCoin (r := r) hok
        obtain ⟨denom, a, addr, store₁, hparse, haddr, -, -, -, hrecs, -⟩ := burnStableCoin_spec hburn
        have hcount := (returnRecs_spec (Int.natCast_nonneg _) hrecs).2
        rw [Int.toNat_natCast] at hcount
        simp only [takesStable, hparse, haddr, Int.toNat_natCast, Bool.or_eq_true,
          decide_eq_true_eq] at h ⊢
        rcases h with (h | hlow) | hfew
        · exact h
        · -- the holder could pay, so the amount is zero
          by_cases hpos : 0 < a
          · have := spendable_of_burnStableCoin hburn hparse haddr (Int.natCast_pos.2 hpos)
            simp only [Int.toNat_natCast] at this
            omega
          · left; right
            simpa using Nat.le_zero.1 (not_lt.1 hpos)
        · omega
      · exact h
      · rfl

/-- From an empty reward store and a bank without stable coins, in every run whose burns all take
stable coins, the issued total is the bank's supply of the stable coin in every state reached. -/
theorem minted_eq_supply (k : Keeper V) (bank : BankState) (hbank : bank.supply aeil = 0)
    (txs : List Tx)
    (htxs : Along (deliver k) (fun s tx => takesStable k s tx = true) (genesis bank) txs) :
    ∀ pre, pre <+: txs → minted k (run (deliver k) (genesis bank) pre).store =
      some ((run (deliver k) (genesis bank) pre).bank.supply aeil : Int) := by
  rintro pre ⟨rest, rfl⟩
  refine run_invariant (I := LedgersAgree k)
    (fun s tx hs htx => (deliver_ledgersAgree_iff hs).2 (burnsAeil_of_takesStable htx)) ?_
    htxs.of_append
  rw [LedgersAgree, genesis, minted_empty, hbank]
  rfl

end

/-! ## Runs that agree and runs that drift -/

/-- A bank in which one account holds 500 of a coin and nothing else is held. -/
def onlyHolder (addr : AccAddress) (denom : GoString) : BankState :=
  ⟨fun a d => if a = addr ∧ d = denom then 500 else 0, fun d => if d = denom then 500 else 0⟩

/-- Alice burns 100 stable coins, and the module has none to burn. -/
def burnStable : List Tx :=
  depositThenMint ++ [smallTx 3 (.burnStableCoin ⟨alice, alice, bytes "100"⟩),
    smallTx 4 (.burnModuleStable ⟨alice, bytes "1"⟩)]

theorem minted_eq_supply_burnStable :
    (onlyHolder malloryAddr mcnl).supply aeil = 0 ∧
    Along (deliver smallKeeper) (fun s tx => takesStable smallKeeper s tx = true)
      (genesis (onlyHolder malloryAddr mcnl)) burnStable ∧
    ∀ pre, pre <+: burnStable →
      minted smallKeeper (run (deliver smallKeeper) (genesis (onlyHolder malloryAddr mcnl)) pre).store =
        some ((run (deliver smallKeeper) (genesis (onlyHolder malloryAddr mcnl)) pre).bank.supply aeil :
          Int) := by
  have hbank : (onlyHolder malloryAddr mcnl).supply aeil = 0 := by decide
  have halong : Along (deliver smallKeeper) (fun s tx => takesStable smallKeeper s tx = true)
      (genesis (onlyHolder malloryAddr mcnl)) burnStable := by decide +kernel
  exact ⟨hbank, halong, minted_eq_supply smallKeeper _ hbank burnStable halong⟩

/-- Mallory burns 100 of the coin `xaeil`; or the module burns the 500 `mcnl` it holds. The issued
total drops, the supply of the stable coin does not. -/
theorem minted_ne_supply :
    ((onlyHolder malloryAddr (bytes "xaeil")).supply aeil = 0 ∧
      let s := run (deliver smallKeeper) (genesis (onlyHolder malloryAddr (bytes "xaeil")))
        (depositThenMint ++ [smallTx 3 (.burnStableCoin ⟨mallory, mallory, bytes "100xaeil"⟩)])
      minted smallKeeper s.store = some 699900 ∧ s.bank.supply aeil = 700000) ∧
    ((onlyHolder rewardAddr mcnl).supply aeil = 0 ∧
      let s := run (deliver smallKeeper) (genesis (onlyHolder rewardAddr mcnl))
        (depositThenMint ++ [smallTx 3 (.burnModuleStable ⟨mallory, bytes "1"⟩)])
      minted smallKeeper s.store = some 699500 ∧ s.bank.supply aeil = 700000) := by
  decide +kernel

end EnergyChain.Reward
