import EnergyChain.Reward.Effects

/-!
# Every coin is backed by a REC

One REC backs a million stable coins. A mint checks the bound against the stored RECs, a burn of `a`
coins takes `a / 1000000` RECs away and lowers the issued total by `a`, deposits and issued records
only add keys or overwrite them. So `0 ≤ minted ≤ 1000000 * numRecs` holds in every state of every
run without withdrawals of collateral (`minted_le_collateral_value`).

A withdrawal converts at another rate, a thousand `mcnl` for a REC, and does not look at the issued
total. `withdrawal_keeps_backed_iff` says exactly when it leaves the coins backed; one that takes the
last REC under 700000 coins does not (`withdrawal_unbacks`).
-/

set_option autoImplicit false

namespace EnergyChain.Reward

open EnergyChain.Go
open EnergyChain.Sdk
open EnergyChain.Bank

section

variable {V : Type} {k : Keeper V}

/-- The issued total is a number between zero and a million per REC. -/
def Collateralised (k : Keeper V) (store : Store V) : Prop :=
  ∃ m : Int, minted k store = some m ∧ 0 ≤ m ∧ m ≤ 1000000 * (numRecs store : Int)

theorem collateralised_empty (k : Keeper V) : Collateralised k .empty :=
  ⟨0, minted_empty k, le_rfl, by positivity⟩

/-- What leaves the issued total alone and loses no REC keeps the bound. -/
theorem Collateralised.of_numRecs_le {fs : List Family} {store store' : Store V}
    (hc : Collateralised k store) (hframe : ChangesOnly fs store store')
    (hfs : Family.supply ∉ fs) (hle : numRecs store ≤ numRecs store') :
    Collateralised k store' := by
  obtain ⟨m, hm, hpos, hbound⟩ := hc
  exact ⟨m, by rw [hframe.minted_eq hfs, hm], hpos, by omega⟩

/-- Lowering the issued total by `a` after `a / 1000000` RECs were taken keeps the bound. -/
theorem Collateralised.lowerSupply {store store₁ store' : Store V} {a q : Nat}
    (hc : Collateralised k store) (hframe : ChangesOnly [.recRecord, .recMeta] store store₁)
    (hcount : numRecs store₁ + q = numRecs store) (hq : 1000000 * q ≤ a)
    (h : lowerSupply k a store₁ = .ok store') : Collateralised k store' := by
  obtain ⟨m, hm, hpos, hbound⟩ := hc
  have hm₁ : minted k store₁ = some m := by rw [hframe.minted_eq (by decide), hm]
  have hsame := (lowerSupply_changesOnly List.mem_cons_self h : ChangesOnly [.supply] _ _).numRecs_eq
    (by decide) (by decide)
  refine ⟨max (m - a) 0, minted_lowerSupply hm₁ h, le_max_right _ _, ?_⟩
  rw [hsame]
  omega

/-- Every message but a withdrawal keeps the bound. -/
theorem handle_collateralised {ctx : Context} {s s' : State V} {r : Result} {msg : Msg}
    (hc : Collateralised k s.store) (hmsg : (TxMsg.reward msg).isRemoveCollateral = false)
    (h : handle k ctx s msg = .ok (s', r)) : Collateralised k s'.store := by
  have hframe := handle_changesOnly h
  cases msg with
  | rewardSolarPower msg =>
      obtain ⟨a, u, m, addr, -, hm, hfit, hle, -, -, -, hstore, -⟩ :=
        rewardSolarPower_spec (handle_rewardSolarPower h)
      obtain ⟨m', hm', hpos, -⟩ := hc
      rw [hm, Option.some.injEq] at hm'
      subst hm'
      have hcount := hframe.numRecs_eq (by simp) (by simp)
      -- the check reads a wrapped count, which is never above the real one
      have hcollateral := getTotalCollateral_le s.store
      refine ⟨m + a, ?_, by omega, by omega⟩
      rw [hstore]
      exact minted_setSupply hfit _
  | burnStableCoin msg =>
      obtain ⟨resp, hburn⟩ := handle_burnStableCoin h
      obtain ⟨denom, a, addr, store₁, -, -, -, -, -, hrecs, hlower⟩ := burnStableCoin_spec hburn
      obtain ⟨hframe₁, hcount⟩ := returnRecs_spec (Int.natCast_nonneg _) hrecs
      rw [Int.toNat_natCast] at hcount
      -- `a / 1000000` RECs leave, and at least a million times as many coins
      exact hc.lowerSupply hframe₁ hcount (Nat.mul_div_le a 1000000) hlower
  | burnModuleStable msg =>
      rcases burnModuleStableCoins_spec (handle_burnModuleStable h) with
        ⟨rfl, -⟩ | ⟨a, -, -, -, -, hlower⟩
      · exact hc
      · exact hc.lowerSupply (q := 0) (.refl _ _) rfl (Nat.zero_le a) hlower
  | depositCollateral msg =>
      refine hc.of_numRecs_le hframe (by simp) ?_
      -- a deposit sets one key, under whichever identifier the caller chose
      have hset : ∀ (f : Family) (key : GoString) (v : V),
          countKeys f s.store ≤ countKeys f (s.store.set key v) :=
        fun f key v => SortedMap.card_le_card_set _ _ _ _
      rcases depositCollateral_spec (handle_depositCollateral h).2 with ⟨rc, -, hst⟩ | ⟨m, -, hst⟩
      · rw [hst]
        exact Nat.add_le_add (hset _ _ _) (hset _ _ _)
      · rw [hst]
        exact Nat.add_le_add (hset _ _ _) (hset _ _ _)
  | removeCollateral msg => simp [TxMsg.isRemoveCollateral] at hmsg
  | addEnergy msg =>
      exact hc.of_numRecs_le hframe (by simp) (hframe.numRecs_eq (by simp) (by simp)).ge
  | createRECRecord msg =>
      refine hc.of_numRecs_le hframe (by simp) ?_
      obtain ⟨-, hstore, -, -⟩ := handle_createRECRecord h
      rw [hstore]
      exact numRecs_le_foldl_issueRecord _ _
  | appendTxHash msg =>
      exact hc.of_numRecs_le hframe (by simp) (hframe.numRecs_eq (by simp) (by simp)).ge
  | distributeRewardPercent msg =>
      exact hc.of_numRecs_le hframe (by simp) (hframe.numRecs_eq (by simp) (by simp)).ge

/-- Every transaction but a withdrawal keeps the bound. -/
theorem deliver_collateralised {s : State V} {tx : Tx} (hc : Collateralised k s.store)
    (htx : tx.msg.isRemoveCollateral = false) : Collateralised k (deliver k s tx).store := by
  refine commit_cases (P := fun s : State V => Collateralised k s.store) hc ?_
  intro s' r h
  obtain ⟨ctx, msg⟩ := tx
  cases msg with
  | reward msg => exact handle_collateralised hc htx h
  | send msg =>
      obtain ⟨bank, -, rfl, -⟩ := handleTx_send h
      exact hc

/-- In every run without withdrawals of collateral, the issued total is at least zero and at most a
million per stored REC. -/
theorem minted_le_collateral_value (k : Keeper V) (bank : BankState) (txs : List Tx)
    (h : ∀ tx ∈ txs, tx.msg.isRemoveCollateral = false) :
    ∃ m : Int, minted k (run (deliver k) (genesis bank) txs).store = some m ∧ 0 ≤ m ∧
      m ≤ 1000000 * ((countKeys .recRecord (run (deliver k) (genesis bank) txs).store +
        countKeys .recMeta (run (deliver k) (genesis bank) txs).store : Nat) : Int) :=
  run_invariant (I := fun s : State V => Collateralised k s.store)
    (C := fun _ tx => tx.msg.isRemoveCollateral = false)
    (fun _ _ hc htx => deliver_collateralised hc htx) (collateralised_empty k)
    (along_of_forall _ fun _ tx htx => h tx htx)

/-! ## Withdrawals -/

/-- The issued total is at most a million per REC, as the keeper counts them. -/
def Backed (k : Keeper V) (store : Store V) : Prop :=
  ∃ m : Int, minted k store = some m ∧ m ≤ 1000000 * getTotalCollateral store

/-- The amount asks for at least one REC and for no more than are stored, in an `int64`. -/
structure Withdraws (amount : GoString) (store : Store V) (a : Nat) : Prop where
  coin : parseCoinNormalized amount = .ok ⟨mcnl, a⟩
  pos : 0 < a / 1000
  stored : a / 1000 ≤ numRecs store
  int64 : a / 1000 < 2 ^ 63

theorem removeCollateral_eq_ok {amount : GoString} {store store' : Store V} :
    removeCollateral amount store = .ok store' ↔
      ∃ a, Withdraws amount store a ∧ store' = (deleteRecs (a / 1000 : Nat) store).1 := by
  have hquo : ∀ a : Nat, (a : Int).tdiv 1000 = (a / 1000 : Nat) := fun a => (Int.ofNat_tdiv a 1000).symm
  have hdone : ∀ n : Nat, (deleteRecs n store).2.2.2 = min (n : Int) (numRecs store) := fun n =>
    (deleteRecs_spec (Int.natCast_nonneg n) store).2.2
  simp only [removeCollateral, bind_eq_ok, mapErr_eq_ok, require_eq_ok, intQuo_eq_ok, int64_eq_ok,
    pure_eq_ok, exists_const, isInt64_iff]
  constructor
  · rintro ⟨⟨denom, z⟩, hcoin, rfl, _, ⟨-, rfl⟩, hne, _, ⟨⟨-, hint⟩, rfl⟩, hdeleted, rfl⟩
    obtain ⟨a, rfl⟩ := Int.eq_ofNat_of_zero_le (valid_of_parseCoinNormalized hcoin).2
    simp only [hquo, hdone] at hne hint hdeleted ⊢
    exact ⟨a, ⟨hcoin, by omega, by omega, by omega⟩, rfl⟩
  · rintro ⟨a, h, rfl⟩
    obtain ⟨hcoin, hpos, hstored, hint⟩ := h
    refine ⟨_, hcoin, rfl, (a / 1000 : Nat), ⟨by decide, (hquo a).symm⟩, by omega, (a / 1000 : Nat),
      ⟨⟨by omega, by omega⟩, rfl⟩, ?_, rfl⟩
    rw [hdone]
    omega

/-- What a withdrawal leaves: the issued total as it was, and that many RECs less. -/
theorem Withdraws.deleteRecs {amount : GoString} {store : Store V} {a : Nat}
    (h : Withdraws amount store a) :
    minted k (deleteRecs (a / 1000 : Nat) store).1 = minted k store ∧
      getTotalCollateral (deleteRecs (a / 1000 : Nat) store).1 =
        wrap64 (getTotalCollateral store - (a / 1000 : Nat)) := by
  obtain ⟨hframe, hcount, -⟩ := deleteRecs_spec (Int.natCast_nonneg (a / 1000)) store
  rw [Int.toNat_natCast] at hcount
  refine ⟨hframe.minted_eq (by decide), ?_⟩
  have hstored := h.stored
  change wrap64 (numRecs (Reward.deleteRecs (a / 1000 : Nat) store).1) =
    wrap64 (wrap64 (numRecs store) - (a / 1000 : Nat))
  -- the counter wraps around 64 bits, and the difference of two counts wraps the same way
  rw [hcount, Nat.cast_sub hstored, wrap64, wrap64, wrap64, Int.bmod_sub_bmod]

/-- A withdrawal that succeeds leaves the coins backed exactly if what the remaining RECs are worth, at
a million each, covers the issued total. -/
theorem withdrawal_keeps_backed_iff (k : Keeper V) (ctx : Context) (msg : MsgRemoveCollateral)
    (s : State V) (m : Int) (hm : minted k s.store = some m) :
    (∀ s' r, handle k ctx s (.removeCollateral msg) = .ok (s', r) → Backed k s'.store) ↔
      ∀ a, Withdraws msg.amount s.store a →
        m ≤ 1000000 * wrap64 (getTotalCollateral s.store - (a / 1000 : Nat)) := by
  constructor
  · intro hkeeps a hwithdraws
    have hok := removeCollateral_eq_ok.2 ⟨a, hwithdraws, rfl⟩
    have hhandle : handle k ctx s (.removeCollateral msg) =
        .ok (⟨(deleteRecs (a / 1000 : Nat) s.store).1, s.bank⟩, .empty) := by
      simp only [handle, hok, ok_bind]
      rfl
    obtain ⟨m', hm', hle⟩ := hkeeps _ _ hhandle
    obtain ⟨hminted, hcollateral⟩ := hwithdraws.deleteRecs (k := k)
    rw [hminted, hm, Option.some_inj] at hm'
    rwa [hcollateral, ← hm'] at hle
  · intro hcovered s' r hok
    obtain ⟨a, hwithdraws, hstore⟩ := removeCollateral_eq_ok.1 (handle_removeCollateral hok).2
    obtain ⟨hminted, hcollateral⟩ := hwithdraws.deleteRecs (k := k)
    refine ⟨m, ?_, ?_⟩
    · rw [hstore, hminted, hm]
    · rw [hstore, hcollateral]
      exact hcovered a hwithdraws

end

/-- After the deposit and the mint, a mint that the bound refuses and a burn of 100. -/
def refusedMintThenBurn : List Tx :=
  depositThenMint ++ [smallTx 3 (.rewardSolarPower ⟨alice, alice, bytes "400000"⟩),
    smallTx 4 (.burnStableCoin ⟨alice, alice, bytes "100"⟩)]

theorem minted_le_collateral_value_refusedMintThenBurn :
    (∀ tx ∈ refusedMintThenBurn, tx.msg.isRemoveCollateral = false) ∧
    minted smallKeeper (run (deliver smallKeeper) (genesis emptyBank) refusedMintThenBurn).store =
      some 699900 ∧
    ∃ m : Int, minted smallKeeper
        (run (deliver smallKeeper) (genesis emptyBank) refusedMintThenBurn).store = some m ∧ 0 ≤ m ∧
      m ≤ 1000000 * ((countKeys .recRecord
          (run (deliver smallKeeper) (genesis emptyBank) refusedMintThenBurn).store +
        countKeys .recMeta
          (run (deliver smallKeeper) (genesis emptyBank) refusedMintThenBurn).store : Nat) : Int) := by
  have hmsgs : ∀ tx ∈ refusedMintThenBurn, tx.msg.isRemoveCollateral = false := by decide
  exact ⟨hmsgs, by decide +kernel,
    minted_le_collateral_value smallKeeper emptyBank refusedMintThenBurn hmsgs⟩

/-- One REC and 700000 coins. -/
def mintedState : State Document := run (deliver smallKeeper) (genesis emptyBank) depositThenMint

/-- A withdrawal of the one REC: 700000 coins are left on no collateral. -/
theorem withdrawal_unbacks :
    Backed smallKeeper mintedState.store ∧
      (handle smallKeeper (smallCtx 3) mintedState
        (.removeCollateral ⟨alice, bytes "1000mcnl"⟩)).isOk = true ∧
      ¬ Backed smallKeeper (deliver smallKeeper mintedState
        (smallTx 3 (.removeCollateral ⟨alice, bytes "1000mcnl"⟩))).store := by
  refine ⟨⟨700000, by decide +kernel, by decide +kernel⟩, by decide +kernel, ?_⟩
  rintro ⟨m, hm, hle⟩
  have hminted : minted smallKeeper (deliver smallKeeper mintedState
      (smallTx 3 (.removeCollateral ⟨alice, bytes "1000mcnl"⟩))).store = some 700000 := by
    decide +kernel
  have hcollateral : getTotalCollateral (deliver smallKeeper mintedState
      (smallTx 3 (.removeCollateral ⟨alice, bytes "1000mcnl"⟩))).store = 0 := by
    decide +kernel
  rw [hminted, Option.some_inj] at hm
  omega

/-- Two RECs behind 700000 coins. -/
def twiceBackedState : State Document :=
  deliver smallKeeper mintedState
    (smallTx 3 (.depositCollateral ⟨alice, some (.recRecord (smallRecord (bytes "r2")))⟩))

/-- With two RECs behind 700000 coins, a withdrawal of one succeeds and leaves the coins backed. -/
theorem withdrawal_keeps_backed_iff_twiceBacked :
    ∃ s' r, handle smallKeeper (smallCtx 4) twiceBackedState
        (.removeCollateral ⟨alice, bytes "1000mcnl"⟩) = .ok (s', r) ∧ Backed smallKeeper s'.store := by
  have hm : minted smallKeeper twiceBackedState.store = some 700000 := by decide +kernel
  have hcoin : parseCoinNormalized (bytes "1000mcnl") = .ok ⟨mcnl, (1000 : Nat)⟩ := by decide +kernel
  have hcollateral : getTotalCollateral twiceBackedState.store = 2 := by decide +kernel
  obtain ⟨⟨s', r⟩, hok⟩ := isOk_iff.1 (show (handle smallKeeper (smallCtx 4) twiceBackedState
    (.removeCollateral ⟨alice, bytes "1000mcnl"⟩)).isOk = true by decide +kernel)
  refine ⟨s', r, hok, (withdrawal_keeps_backed_iff smallKeeper (smallCtx 4) ⟨alice, bytes "1000mcnl"⟩
    twiceBackedState 700000 hm).2 ?_ s' r hok⟩
  intro a hwithdraws
  have hsame := hwithdraws.coin
  rw [hcoin] at hsame
  have ha : a = 1000 := by
    have := congrArg Coin.amount (Except.ok.inj hsame)
    exact (Int.ofNat_inj.1 this).symm
  subst ha
  rw [hcollateral]
  decide

end EnergyChain.Reward
