import EnergyChain.Reward.Amounts
import EnergyChain.Reward.Collateralisation
import EnergyChain.Reward.SupplyLedger

/-!
# Every holder can redeem

A burn debits the holder first and looks for the RECs it owes afterwards, so a holder can redeem only
if the RECs are there. `Solvent` joins what this needs: the two supply records agree, the issued
total is backed by RECs, the balances stay within the supply, and no other coin exists that a burn
could take for the stable coin. It holds in every state of a run without withdrawals that starts
without such coins, and in a solvent state a burn of any amount up to the holder's spendable balance
succeeds (`exists_burn_of_solvent`, `redeemable`).
-/

set_option autoImplicit false

namespace EnergyChain.Reward

open EnergyChain.Go
open EnergyChain.Sdk
open EnergyChain.Bank

section

variable {V : Type} {k : Keeper V}

/-- The coins the two burns can take: `mcnl`, and every denomination that ends in `aeil`. -/
def Burnable (denom : GoString) : Prop := denom = mcnl ∨ aeil <:+ denom

/-- No burnable coin but the stable coin is held by anyone. -/
def OnlyStable (b : BankState) : Prop :=
  ∀ denom, Burnable denom → denom ≠ aeil → ∀ addr, b.balance addr denom = 0

/-- What redeeming rests on. -/
structure Solvent (k : Keeper V) (s : State V) : Prop where
  agree : LedgersAgree k s
  backed : Collateralised k s.store
  covered : s.bank.Covers aeil
  onlyStable : OnlyStable s.bank

/-! ## The invariant -/

theorem aeil_suffix_withAeilSuffix (amount : GoString) : aeil <:+ withAeilSuffix amount := by
  unfold withAeilSuffix
  split
  · rename_i h
    exact List.isSuffixOf_iff_suffix.1 h
  · exact List.suffix_append _ _

/-- The coin a burn takes has a denomination that ends in `aeil`. -/
theorem burnable_of_parse {amount : GoString} {c : Coin}
    (h : parseCoinNormalized (withAeilSuffix amount) = .ok c) : Burnable c.denom := by
  have hne : aeil ≠ [] := by decide
  -- the digits of the amount end before the letters `aeil`
  have hletters : ∀ b ∈ aeil, isLetter b = true := by decide +kernel
  exact Or.inr
    (suffix_denom_of_parseCoinNormalized hne hletters (aeil_suffix_withAeilSuffix amount) h)

/-- Where no other burnable coin is held, every burn takes stable coins or nothing. -/
theorem burnsAeil_of_onlyStable {s : State V} (h : OnlyStable s.bank) (tx : Tx) :
    burnsAeil k s tx = true := by
  obtain ⟨ctx, msg⟩ := tx
  unfold burnsAeil
  split
  · rfl
  · rename_i p hok
    split
    · rename_i msg hmsg
      obtain ⟨s', r⟩ := p
      obtain rfl : _ = TxMsg.reward (.burnStableCoin msg) := hmsg
      obtain ⟨resp, hburn⟩ := handle_burnStableCoin (r := r) hok
      obtain ⟨denom, a, addr, store₁, hparse, -, hle, -⟩ := burnStableCoin_spec hburn
      rw [hparse]
      by_cases hd : denom = aeil
      · simp [hd]
      · -- another burnable coin, of which nobody holds any: the amount was zero
        rw [h denom (burnable_of_parse hparse) hd addr] at hle
        simp [Nat.le_zero.1 hle]
    · rw [h mcnl (Or.inl rfl) mcnl_ne_aeil]
      rfl
    · rfl

theorem OnlyStable.transfer {b : BankState} (h : OnlyStable b) {f : GoString → Nat}
    {fromAddr : AccAddress} (hle : ∀ d, d ≠ aeil → f d ≤ b.balance fromAddr d)
    (toAddr : AccAddress) : OnlyStable ((b.debit fromAddr f).credit toAddr f) := by
  intro denom hburn hne addr
  have hzero : f denom = 0 := by
    have := hle denom hne
    rw [h denom hburn hne] at this
    omega
  rw [Ledger.balance_credit, Ledger.balance_debit, h denom hburn hne, hzero]
  simp

theorem OnlyStable.burn {b : BankState} (h : OnlyStable b) (addr : AccAddress)
    (f : GoString → Nat) : OnlyStable ((b.debit addr f).retire f) := by
  intro denom hburn hne addr'
  rw [Ledger.balance_retire, Ledger.balance_debit, h denom hburn hne, Nat.zero_sub]

/-- The bank part of the invariant is kept by every reward message. -/
theorem handle_bank_solvent {ctx : Context} {s s' : State V} {r : Result} {msg : Msg}
    (hcov : s.bank.Covers aeil) (honly : OnlyStable s.bank)
    (h : handle k ctx s msg = .ok (s', r)) : s'.bank.Covers aeil ∧ OnlyStable s'.bank := by
  cases msg with
  | rewardSolarPower msg =>
      obtain ⟨a, u, m, addr, -, -, -, -, hu, -, -, -, hbank⟩ :=
        rewardSolarPower_spec (handle_rewardSolarPower h)
      rw [hbank]
      refine ⟨Ledger.Covers.transfer hcov.mint ?_, ?_⟩
      · rw [Ledger.balance_issue, Ledger.balance_credit, if_pos rfl, Ledger.only_self,
          Ledger.only_self]
        omega
      · -- stable coins are minted, so the other coins are where they were
        have hminted : OnlyStable ((s.bank.credit k.bankKeeper.moduleAddr (Ledger.only aeil a)).issue
            (Ledger.only aeil a)) := by
          intro denom hburn hne addr'
          rw [Ledger.balance_issue, Ledger.balance_credit, honly denom hburn hne,
            Ledger.only_of_ne hne.symm]
          simp
        refine hminted.transfer (fun d hd => ?_) addr
        rw [Ledger.only_of_ne hd.symm]
        exact Nat.zero_le _
  | burnStableCoin msg =>
      obtain ⟨resp, hburn⟩ := handle_burnStableCoin h
      obtain ⟨denom, a, addr, store₁, -, -, hle, -, hbank, -, -⟩ := burnStableCoin_spec hburn
      rw [hbank]
      exact ⟨hcov.burn (Ledger.only_le hle aeil), honly.burn addr _⟩
  | burnModuleStable msg =>
      rcases burnModuleStableCoins_spec (handle_burnModuleStable h) with
        ⟨rfl, -⟩ | ⟨a, ha, -, hbank, -, -⟩
      · exact ⟨hcov, honly⟩
      · rw [hbank]
        exact ⟨hcov.burn (Ledger.only_le ha.le aeil), honly.burn _ _⟩
  | distributeRewardPercent msg =>
      obtain ⟨-, addr, -, hle, hbank⟩ :=
        distributeRewardPercent_spec (handle_distributeRewardPercent h)
      rw [hbank]
      refine ⟨hcov.transfer (by rwa [Ledger.only_self]), honly.transfer (fun d hd => ?_) addr⟩
      rw [Ledger.only_of_ne hd.symm]
      exact Nat.zero_le _
  | _ =>
      rw [handle_bank_eq rfl h]
      exact ⟨hcov, honly⟩

/-- Every transaction but a withdrawal keeps a state solvent. -/
theorem deliver_solvent {s : State V} {tx : Tx} (hs : Solvent k s)
    (htx : tx.msg.isRemoveCollateral = false) : Solvent k (deliver k s tx) := by
  have hagree := (deliver_ledgersAgree_iff hs.agree).2 (burnsAeil_of_onlyStable hs.onlyStable tx)
  have hbacked := deliver_collateralised hs.backed htx
  have hbank : (deliver k s tx).bank.Covers aeil ∧ OnlyStable (deliver k s tx).bank := by
    refine commit_cases (P := fun s : State V => s.bank.Covers aeil ∧ OnlyStable s.bank)
      ⟨hs.covered, hs.onlyStable⟩ ?_
    intro s' r h
    obtain ⟨ctx, msg⟩ := tx
    cases msg with
    | reward msg => exact handle_bank_solvent hs.covered hs.onlyStable h
    | send msg =>
        obtain ⟨bank, hsend, rfl, -⟩ := handleTx_send h
        obtain ⟨fromAddr, toAddr, -, -, rfl, hle⟩ := send_spec hsend
        exact ⟨hs.covered.transfer (hle aeil), hs.onlyStable.transfer (fun d _ => hle d) toAddr⟩
  exact ⟨hagree, hbacked, hbank.1, hbank.2⟩

/-! ## Redeeming -/

/-- In a solvent state, a burn of at most the spendable balance succeeds. -/
theorem exists_burn_of_solvent {s : State V} (hs : Solvent k s) (hcount : numRecs s.store < 2 ^ 63)
    {ctx : Context} {target : GoString} {addr : AccAddress}
    (haddr : accAddressFromBech32 k.bankKeeper.bech32 target = .ok addr) {a : Nat}
    (ha : a ≤ s.bank.balance addr aeil - lockedCoins k.bankKeeper ctx addr aeil) :
    ∃ r, burnStableCoin k ctx target (formatNat a) s = .ok r := by
  obtain ⟨m, hm, -, hbound⟩ := hs.backed
  -- the issued total is the supply, and the supply bounds every balance
  have hsupply : m = s.bank.supply aeil := by
    have := hs.agree
    rw [LedgersAgree, hm, Option.some.injEq] at this
    exact this
  subst hsupply
  have hbalance := hs.covered.balance_le addr
  have hrange : s.bank.supply aeil < 2 ^ 256 := fits256_of_minted hm
  have hmax : a < 2 ^ 256 := by omega
  obtain ⟨coins, hcoins⟩ := exists_newCoins_singleton (c := ⟨aeil, a⟩) matchDenom_aeil
    (Int.natCast_nonneg a)
  have hamount : amountOf coins = Ledger.only aeil a := amountOf_eq_only hcoins
  -- the debit leaves room for the credit, since all balances together are in range
  have hroom := Ledger.sum_debit_add_le (f := Ledger.only aeil a) (a := addr) (d := aeil)
    (by rw [Ledger.only_self]; omega) hs.covered {k.bankKeeper.moduleAddr}
  rw [Finset.sum_singleton, Ledger.only_self] at hroom
  obtain ⟨b₁, hsend⟩ : ∃ b₁, sendCoins k.bankKeeper ctx addr k.bankKeeper.moduleAddr coins s.bank =
      .ok b₁ := by
    have hfit : fits256 (((s.bank.debit addr (Ledger.only aeil a)).balance
        k.bankKeeper.moduleAddr aeil : Int) + a) := by
      rw [fits256]
      omega
    refine exists_sendCoins hcoins (Int.ofNat_le.2 ha) ?_
    rw [hamount]
    exact hfit
  obtain ⟨rfl, -⟩ := sendCoins_spec hsend
  obtain ⟨b₂, hburn⟩ : ∃ b₂, burnCoins k.bankKeeper ctx coins
      ((s.bank.debit addr (amountOf coins)).credit k.bankKeeper.moduleAddr (amountOf coins)) =
        .ok b₂ := by
    refine exists_burnCoins hcoins (Int.ofNat_le.2 ?_) (Int.ofNat_le.2 ?_)
    · rw [Ledger.balance_credit, if_pos rfl, hamount, Ledger.only_self]
      exact Nat.le_add_left _ _
    · rw [Ledger.supply_credit, Ledger.supply_debit]
      show a ≤ s.bank.supply aeil
      omega
  have hquo : ((a : Int).tdiv 1000000) = (a / 1000000 : Nat) := (Int.ofNat_tdiv a 1000000).symm
  -- a million coins are backed by one REC, so the RECs to return are there
  obtain ⟨⟨store₁, resp⟩, hrecs⟩ : ∃ r, returnRecs k ((a / 1000000 : Nat) : Int) s.store = .ok r :=
    returnRecs_of_le (by omega) (by omega)
  have hframe := (returnRecs_spec (Int.natCast_nonneg _) hrecs).1
  obtain ⟨store₂, hlower⟩ : ∃ store₂, lowerSupply k (a : Int) store₁ = .ok store₂ := by
    refine ⟨_, lowerSupply_eq_ok.2 ⟨_, (hframe.minted_eq (by decide)).trans hm, ?_, rfl⟩⟩
    rw [fits256]
    omega
  refine ⟨(⟨store₂, b₂⟩, resp), ?_⟩
  simp only [burnStableCoin, bind_eq_ok, mapErr_eq_ok, intQuo_eq_ok, pure_eq_ok]
  exact ⟨_, parse_withAeilSuffix_formatNat hmax, addr, haddr, coins, hcoins, _, hsend, b₂, hburn, _,
    ⟨by decide, rfl⟩, (store₁, resp), by rw [hquo]; exact hrecs, store₂, hlower, rfl⟩

/-- Redeemability: from an empty reward store and a bank without burnable coins, in every state of a
run without withdrawals of collateral, every account can burn any amount up to its spendable balance
of stable coins. -/
theorem redeemable (k : Keeper V) (bank : BankState)
    (hbank : ∀ denom, Burnable denom → bank.supply denom = 0 ∧ ∀ addr, bank.balance addr denom = 0)
    (txs : List Tx) (htxs : ∀ tx ∈ txs, tx.msg.isRemoveCollateral = false)
    (hcount : numRecs (run (deliver k) (genesis bank) txs).store < 2 ^ 63)
    (ctx : Context) (creator target : GoString) (addr : AccAddress)
    (haddr : accAddressFromBech32 k.bankKeeper.bech32 target = .ok addr) (a : Nat)
    (ha : a ≤ (run (deliver k) (genesis bank) txs).bank.balance addr aeil -
      lockedCoins k.bankKeeper ctx addr aeil) :
    ∃ s' r, handle k ctx (run (deliver k) (genesis bank) txs)
      (.burnStableCoin ⟨creator, target, formatNat a⟩) = .ok (s', r) := by
  have hgenesis : Solvent k (genesis bank) := by
    have hstable := hbank aeil (Or.inr (List.suffix_refl _))
    refine ⟨?_, collateralised_empty k, fun accounts => ?_, fun d hd _ => (hbank d hd).2⟩
    · rw [LedgersAgree, genesis, minted_empty, hstable.1]
      rfl
    · simp [genesis, hstable.2]
  have hsolvent : Solvent k (run (deliver k) (genesis bank) txs) :=
    run_invariant (I := Solvent k) (C := fun _ tx => tx.msg.isRemoveCollateral = false)
      (fun _ _ hs htx => deliver_solvent hs htx) hgenesis
      (along_of_forall _ fun _ tx htx => htxs tx htx)
  obtain ⟨⟨s', resp⟩, hburn⟩ := exists_burn_of_solvent hsolvent hcount haddr ha
  refine ⟨s', ?_⟩
  rw [handle, handleBurnStableCoin, hburn, ok_bind]
  exact ⟨_, rfl⟩

end

/-- Two deposits, and a mint that both have to cover. -/
def depositTwiceThenMint : List Tx :=
  [smallTx 1 (.depositCollateral ⟨alice, some (.recRecord (smallRecord (bytes "r1")))⟩),
    smallTx 1 (.depositCollateral ⟨alice, some (.recRecord (smallRecord (bytes "r2")))⟩),
    smallTx 2 (.rewardSolarPower ⟨alice, alice, bytes "1200000"⟩)]

/-- Alice redeems a million of the 1080000 that a mint of 1200000 gave her, for which a REC is returned. -/
theorem redeemable_alice :
    (run (deliver smallKeeper) (genesis emptyBank) depositTwiceThenMint).bank.balance aliceAddr aeil =
        1080000 ∧
      ∃ s' r, handle smallKeeper (smallCtx 3)
        (run (deliver smallKeeper) (genesis emptyBank) depositTwiceThenMint)
        (.burnStableCoin ⟨alice, alice, formatNat 1000000⟩) = .ok (s', r) :=
  ⟨by decide +kernel,
    redeemable smallKeeper emptyBank (fun _ _ => ⟨rfl, fun _ => rfl⟩) depositTwiceThenMint (by decide)
      (by decide +kernel) (smallCtx 3) alice alice aliceAddr (by decide +kernel) 1000000
      (by decide +kernel)⟩

end EnergyChain.Reward
