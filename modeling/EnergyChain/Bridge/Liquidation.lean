import EnergyChain.Go.Decode
import EnergyChain.Go.Rounding
import EnergyChain.Reward.Collateralisation
import EnergyChain.Reward.Queries

/-!
# The liquidation check of the bridge

`CheckLiquidation` asks the API of the chain for the collateral and the supply, reads both as
floating-point numbers and, if the first is below the second, has `simd` send a message that burns
what the module account holds. The collateral is a number of RECs and the supply a number of coins:
the check compares them one to one (`checkLiquidation_formatInt`), where the minting rule counts a
million coins for each REC. The message burns the `mcnl` of the module account
(`backed_burnModuleStable_iff`), where the fees it collected are `aeil`.

`liquidates_iff` says for which balances the check and the burn do what the minting rule asks for.
-/

set_option autoImplicit false

namespace EnergyChain.Bridge

open EnergyChain.Go
open EnergyChain.Sdk
open EnergyChain.Bank
open EnergyChain.Reward

/-- What a GET of the API gives: no response, a body that is not the expected JSON, or the text of the
field that is read from it. -/
inductive Answer where
  | failed
  | malformed
  | field (text : GoString)

/-- `strconv.ParseFloat` where the error is dropped: a text that does not parse counts as zero. -/
def parseFloatOrZero (text : GoString) : Float64 := (parseFloat text).getD (.fin 0)

/-- `MinCollateralRatio`. -/
def minCollateralRatio : ℚ := 1

/-- The arguments of the `simd` that sends the burn. -/
def burnModuleStableArgs : List GoString :=
  [bytes "tx", bytes "reward", bytes "burn-module-stable", bytes "0", bytes "--from", bytes "alice",
    bytes "--chain-id", bytes "learning-chain-1", bytes "--home", bytes "./private/.simapp",
    bytes "--keyring-backend", bytes "test", bytes "--yes", bytes "--broadcast-mode", bytes "block"]

/-- `CheckLiquidation`: the arguments of the command it starts, if it starts one. -/
def checkLiquidation (collateral supply : Answer) : Option (List GoString) :=
  match collateral, supply with
  | .field totalAmount, .field minted =>
      let totalCollateral := parseFloatOrZero totalAmount
      let totalSupply := parseFloatOrZero minted
      if (totalCollateral.divConst minCollateralRatio).lt totalSupply then some burnModuleStableArgs
      else none
  -- an error of the API or of its JSON is only logged
  | _, _ => none

theorem parseFloatOrZero_formatInt {z : Int} (h : z.natAbs ≤ 2 ^ 53) :
    parseFloatOrZero (formatInt z) = .fin z := by
  rw [parseFloatOrZero, parseFloat_formatInt, Option.getD_some, Float64.ofInt_eq_fin h]

/-- On the texts of two integers the check compares the integers. -/
theorem checkLiquidation_formatInt {c m : Int} (hc : c.natAbs ≤ 2 ^ 53) (hm : m.natAbs ≤ 2 ^ 53) :
    checkLiquidation (.field (formatInt c)) (.field (formatInt m)) =
      if c < m then some burnModuleStableArgs else none := by
  have hratio : (Float64.fin c).divConst minCollateralRatio = .fin c := by
    rw [Float64.divConst, minCollateralRatio, div_one, Float64.round_intCast hc]
  have hlt : (Float64.fin c).lt (.fin m) = decide (c < m) := by
    rw [Float64.lt, decide_eq_decide, Int.cast_lt]
  simp only [checkLiquidation, parseFloatOrZero_formatInt hc, parseFloatOrZero_formatInt hm, hratio,
    hlt, decide_eq_true_eq]

section

variable {V : Type} {k : Reward.Keeper V} {s : Reward.State V} {c m : Nat}

/-- The check starts the command on what the `Collateral` and `Supply` queries serve. -/
def SubmitsBurn (k : Reward.Keeper V) (s : Reward.State V) : Prop :=
  ∃ supply, supplyQuery k s.store = .ok supply ∧
    (checkLiquidation (.field (collateralQuery s.store)) (.field supply.minted)).isSome = true

/-- The `aeil` of the module account. -/
def fees (k : Reward.Keeper V) (s : Reward.State V) : Nat :=
  s.bank.balance k.bankKeeper.moduleAddr aeil

/-- The check and the message it sends follow the minting rule for `c` RECs and an issued total of `m`:
the message is sent exactly if the rule is broken, and if the fees cover what is missing the rule holds
after it. -/
structure Liquidates (k : Reward.Keeper V) (ctx : Context) (msg : MsgBurnModuleStable)
    (s : Reward.State V) (c m : Nat) : Prop where
  agrees : SubmitsBurn k s ↔ 1000000 * c < m
  restores : SubmitsBurn k s → (m : Int) - 1000000 * c ≤ fees k s →
    Backed k (deliver k s ⟨ctx, .reward (.burnModuleStable msg)⟩).store

/-- The module account can burn its `mcnl`, and they are worth the missing `n` coins. -/
structure Covers (k : Reward.Keeper V) (s : Reward.State V) (m : Nat) (n : Int) : Prop where
  held : n ≤ s.bank.balance k.bankKeeper.moduleAddr mcnl
  supplied : s.bank.balance k.bankKeeper.moduleAddr mcnl ≤ s.bank.supply mcnl
  fits : fits256 ((m : Int) - s.bank.balance k.bankKeeper.moduleAddr mcnl)

theorem submitsBurn_iff (hc : getTotalCollateral s.store = c)
    (hm : supplyQuery k s.store = .ok ⟨formatInt m⟩) (hcb : c < 2 ^ 53) (hmb : m < 2 ^ 53) :
    SubmitsBurn k s ↔ c < m := by
  have hcheck := checkLiquidation_formatInt (c := c) (m := m) (by omega) (by omega)
  constructor
  · rintro ⟨supply, hsupply, hsome⟩
    rw [hm, Except.ok.injEq] at hsupply
    rw [← hsupply, collateralQuery, hc, hcheck] at hsome
    by_contra hle
    rw [if_neg (by omega)] at hsome
    cases hsome
  · intro hlt
    refine ⟨_, hm, ?_⟩
    rw [collateralQuery, hc, hcheck, if_pos (by omega)]
    rfl

theorem minted_of_supplyQuery (hm : supplyQuery k s.store = .ok ⟨formatInt m⟩) (hmb : m < 2 ^ 53) :
    minted k s.store = some (m : Int) := by
  have hfits : fits256 (m : Int) := by
    unfold fits256
    omega
  exact minted_eq_some.2 ⟨_, hm, newIntFromString_formatInt hfits⟩

/-- The burn of the module account goes through if the supply of `mcnl` covers it. -/
theorem exists_burnModuleStableCoins (ctx : Context) (hm : minted k s.store = some (m : Int))
    (hsupplied : s.bank.balance k.bankKeeper.moduleAddr mcnl ≤ s.bank.supply mcnl)
    (hfits : fits256 ((m : Int) - s.bank.balance k.bankKeeper.moduleAddr mcnl)) :
    ∃ s', burnModuleStableCoins k ctx s = .ok s' := by
  rw [burnModuleStableCoins]
  split
  · exact ⟨s, rfl⟩
  · rename_i hne
    have hdenom : matchDenom mcnl = true := by decide
    have hcoins : newCoins [⟨mcnl, (s.bank.balance k.bankKeeper.moduleAddr mcnl : Int)⟩] =
        .ok [⟨mcnl, (s.bank.balance k.bankKeeper.moduleAddr mcnl : Int)⟩] :=
      newCoins_singleton_eq_ok.2
        (.inr ⟨hdenom, Int.natCast_pos.2 (Nat.pos_of_ne_zero hne), rfl⟩)
    obtain ⟨bank, hburn⟩ : ∃ bank, burnCoins k.bankKeeper ctx _ s.bank = .ok bank :=
      exists_burnCoins hcoins le_rfl (Int.ofNat_le.2 hsupplied)
    obtain ⟨store, hlower⟩ : ∃ store, lowerSupply k
        (s.bank.balance k.bankKeeper.moduleAddr mcnl) s.store = .ok store :=
      ⟨_, lowerSupply_eq_ok.2 ⟨m, hm, hfits, rfl⟩⟩
    refine ⟨⟨store, bank⟩, ?_⟩
    simp only [hcoins, hburn, hlower, mapErr, ok_bind]
    rfl

/-- After the burn the coins are backed if they were, or if the `mcnl` of the module account are worth
what was missing. -/
theorem backed_burnModuleStable_iff (ctx : Context) (msg : MsgBurnModuleStable)
    (hc : getTotalCollateral s.store = c) (hm : minted k s.store = some (m : Int)) :
    Backed k (deliver k s ⟨ctx, .reward (.burnModuleStable msg)⟩).store ↔
      m ≤ 1000000 * c ∨ Covers k s m ((m : Int) - 1000000 * c) := by
  have hunchanged : Backed k s.store ↔ m ≤ 1000000 * c := by
    simp only [Backed, hm, hc, Option.some.injEq, exists_eq_left']
    omega
  cases hres : handle k ctx s (.burnModuleStable msg) with
  | error fault =>
      rw [deliver_reward_error hres, hunchanged]
      refine (or_iff_left ?_).symm
      intro hcovers
      obtain ⟨s', hburn⟩ := exists_burnModuleStableCoins ctx hm hcovers.supplied hcovers.fits
      simp only [handle, hburn, mapErr, ok_bind] at hres
      cases hres
  | ok p =>
      rw [deliver_reward_ok hres]
      rcases burnModuleStableCoins_spec (handle_burnModuleStable hres) with
        ⟨hs', hzero⟩ | ⟨a, rfl, -, -, hsupplied, hlower⟩
      · -- nothing to burn
        rw [hs', hunchanged]
        refine (or_iff_left_of_imp ?_).symm
        intro hcovers
        have hheld := hcovers.held
        omega
      · have hminted := minted_lowerSupply hm hlower
        have hframe : ChangesOnly [.supply] s.store p.1.store :=
          lowerSupply_changesOnly List.mem_cons_self hlower
        have hcount : getTotalCollateral p.1.store = c := by
          rw [← hc, getTotalCollateral, getTotalCollateral, hframe.countKeys_eq (by decide),
            hframe.countKeys_eq (by decide)]
        obtain ⟨_, hm', hfits, -⟩ := lowerSupply_eq_ok.1 hlower
        rw [hm, Option.some.injEq] at hm'
        subst hm'
        simp only [Backed, hminted, hcount, Option.some.injEq, exists_eq_left']
        constructor
        · intro hle
          by_cases hm₁ : m ≤ 1000000 * c
          · exact .inl hm₁
          · exact .inr ⟨by omega, hsupplied, hfits⟩
        · rintro (hle | hcovers)
          · omega
          · have hheld := hcovers.held
            omega

/-- The check and the burn follow the minting rule exactly if the check does not mistake a million RECs
for one and the module account has the `mcnl` for every shortfall that its fees would cover. -/
theorem liquidates_iff (k : Reward.Keeper V) (ctx : Context) (msg : MsgBurnModuleStable)
    (s : Reward.State V) (c m : Nat) (hc : getTotalCollateral s.store = c)
    (hm : supplyQuery k s.store = .ok ⟨formatInt m⟩) (hcb : c < 2 ^ 53) (hmb : m < 2 ^ 53) :
    Liquidates k ctx msg s c m ↔
      (m ≤ c ∨ 1000000 * c < m) ∧
        (1000000 * c < m → m - 1000000 * c ≤ fees k s → Covers k s m ((m : Int) - 1000000 * c)) := by
  have hsubmits := submitsBurn_iff hc hm hcb hmb
  have hbacked := backed_burnModuleStable_iff ctx msg hc (minted_of_supplyQuery hm hmb)
  constructor
  · rintro ⟨hagrees, hrestores⟩
    rw [hsubmits] at hagrees hrestores
    refine ⟨by omega, ?_⟩
    intro hbroken hfees
    rcases hbacked.1 (hrestores (by omega) (by omega)) with hle | hcovers
    · omega
    · exact hcovers
  · rintro ⟨hagrees, hcovers⟩
    constructor
    · rw [hsubmits]
      omega
    · intro _ hfees
      rw [hbacked]
      by_cases hbroken : 1000000 * c < m
      · exact .inr (hcovers hbroken (by omega))
      · exact .inl (by omega)

end

/-! ## The small chain -/

/-- A module account with a million `aeil` before the first message. -/
def feesBank : BankState :=
  ⟨fun addr denom => if addr = rewardAddr ∧ denom = aeil then 1000000 else 0,
    fun denom => if denom = aeil then 1000000 else 0⟩

/-- One REC, 700000 coins, and then no REC. -/
def withdrawnState : Reward.State Document :=
  run (deliver smallKeeper) (genesis feesBank)
    (depositThenMint ++ [smallTx 3 (.removeCollateral ⟨alice, bytes "1000mcnl"⟩)])

/-- With one REC behind 700000 coins the check sends the burn, although the minting rule holds; and
without a REC the burn leaves 700000 coins, although the fees would cover them. -/
theorem liquidation_misjudges :
    Backed smallKeeper mintedState.store ∧ SubmitsBurn smallKeeper mintedState ∧
      ¬ Liquidates smallKeeper (smallCtx 3) ⟨alice, bytes "0"⟩ mintedState 1 700000 ∧
      getTotalCollateral withdrawnState.store = 0 ∧ 700000 ≤ fees smallKeeper withdrawnState ∧
      ¬ Liquidates smallKeeper (smallCtx 4) ⟨alice, bytes "0"⟩ withdrawnState 0 700000 := by
  have hsubmits : SubmitsBurn smallKeeper mintedState :=
    ⟨⟨bytes "700000"⟩, by decide +kernel, by decide +kernel⟩
  refine ⟨⟨700000, by decide +kernel, by decide +kernel⟩, hsubmits, ?_, by decide +kernel,
    by decide +kernel, ?_⟩
  · intro h
    have hbroken := h.agrees.1 hsubmits
    omega
  · intro h
    obtain ⟨m, hm, hle⟩ := h.restores (h.agrees.2 (by omega)) (by decide +kernel)
    have hminted : minted smallKeeper (deliver smallKeeper withdrawnState
        ⟨smallCtx 4, .reward (.burnModuleStable ⟨alice, bytes "0"⟩)⟩).store = some 700000 := by
      decide +kernel
    have hcollateral : getTotalCollateral (deliver smallKeeper withdrawnState
        ⟨smallCtx 4, .reward (.burnModuleStable ⟨alice, bytes "0"⟩)⟩).store = 0 := by
      decide +kernel
    rw [hminted, Option.some_inj] at hm
    omega

/-- A module account with a million `aeil` and 700000 `mcnl` before the first message. -/
def remedyBank : BankState :=
  ⟨fun addr denom => if addr = rewardAddr then
      (if denom = aeil then 1000000 else if denom = mcnl then 700000 else 0) else 0,
    fun denom => if denom = aeil then 1000000 else if denom = mcnl then 700000 else 0⟩

/-- One REC, 700000 coins, and then no REC, over that bank. -/
def remediedState : Reward.State Document :=
  run (deliver smallKeeper) (genesis remedyBank)
    (depositThenMint ++ [smallTx 3 (.removeCollateral ⟨alice, bytes "1000mcnl"⟩)])

/-- 700000 coins without a REC, and the `mcnl` to make up for them: the check sends the burn, and the burn
leaves nothing unbacked. -/
theorem liquidates_remediedState :
    SubmitsBurn smallKeeper remediedState ∧
      Liquidates smallKeeper (smallCtx 4) ⟨alice, bytes "0"⟩ remediedState 0 700000 ∧
      Backed smallKeeper (deliver smallKeeper remediedState
        ⟨smallCtx 4, .reward (.burnModuleStable ⟨alice, bytes "0"⟩)⟩).store := by
  have hsubmits : SubmitsBurn smallKeeper remediedState :=
    ⟨⟨bytes "700000"⟩, by decide +kernel, by decide +kernel⟩
  have hliquidates := (liquidates_iff smallKeeper (smallCtx 4) ⟨alice, bytes "0"⟩ remediedState 0 700000
    (by decide +kernel) (by decide +kernel) (by decide) (by decide)).2
      ⟨.inr (by decide), fun _ _ => ⟨by decide +kernel, by decide +kernel, by decide +kernel⟩⟩
  exact ⟨hsubmits, hliquidates, hliquidates.restores hsubmits (by decide +kernel)⟩

end EnergyChain.Bridge
