import EnergyChain.Bank.Keeper

/-!
# The bank functions on one coin

Every coin set that the reward module hands to the bank is `NewCoins` of a single coin, so each loop of
the bank makes one turn, or none if the amount is zero (`foldlM_newCoins`). The lemmas below say for
such a set exactly when a bank function succeeds and exactly when it returns without a panic: a
balance or a supply that leaves the 256 bits, an account that holds less than its locked coins, and a
supply below the burned amount panic; everything else is an error.
-/

set_option autoImplicit false

namespace EnergyChain.Bank

open EnergyChain.Go
open EnergyChain.Sdk

section

variable {k : Keeper} {ctx : Context} {b b' : BankState} {c : Coin} {coins : List Coin}

theorem nonneg_of_newCoins (h : newCoins [c] = .ok coins) : 0 ≤ c.amount := by
  rcases newCoins_singleton_eq_ok.1 h with ⟨hz, -⟩ | ⟨-, hpos, -⟩
  · exact hz.ge
  · exact hpos.le

theorem coinsIsValid_of_newCoins (h : newCoins [c] = .ok coins) : coinsIsValid coins = true := by
  rcases newCoins_singleton_eq_ok.1 h with ⟨-, rfl⟩ | ⟨hd, hpos, rfl⟩
  · rfl
  · exact coinsIsValid_eq_true.2 (coinsValidate_singleton.2 ⟨hd, hpos⟩)

/-- The amounts of a set made of one coin. -/
theorem amountOf_eq_only (h : newCoins [c] = .ok coins) :
    amountOf coins = Ledger.only c.denom c.amount.toNat :=
  funext fun d => amountOf_newCoins_singleton h d

/-- A loop over a set made of one coin. -/
theorem foldlM_newCoins (h : newCoins [c] = .ok coins) (step : BankState → Coin → Outcome BankState)
    (b : BankState) : coins.foldlM step b = if c.amount = 0 then .ok b else step b c := by
  rcases newCoins_singleton_eq_ok.1 h with ⟨hz, rfl⟩ | ⟨-, hpos, rfl⟩
  · rw [if_pos hz]
    rfl
  · rw [if_neg hpos.ne', List.foldlM_cons]
    cases step b c with
    | error fault => rfl
    | ok b' => rfl

theorem subUnlockedCoins_newCoins (h : newCoins [c] = .ok coins) (addr : AccAddress) (b : BankState) :
    subUnlockedCoins k ctx addr coins b =
      if c.amount = 0 then .ok b else subUnlockedCoin k ctx addr b c := by
  rw [subUnlockedCoins, require_bind_of (coinsIsValid_of_newCoins h), foldlM_newCoins h]

theorem addCoins_newCoins (h : newCoins [c] = .ok coins) (addr : AccAddress) (b : BankState) :
    addCoins addr coins b = if c.amount = 0 then .ok b else addCoin addr b c := by
  rw [addCoins, require_bind_of (coinsIsValid_of_newCoins h), foldlM_newCoins h]

/-! ## Success -/

theorem exists_addCoin_iff {addr : AccAddress} :
    (∃ b', addCoin addr b c = .ok b') ↔ fits256 (b.balance addr c.denom + c.amount) := by
  simp only [addCoin, bind_eq_ok, intAdd_eq_ok, pure_eq_ok]
  constructor
  · rintro ⟨-, -, ⟨hfit, -⟩, -⟩
    exact hfit
  · intro hfit
    exact ⟨_, _, ⟨hfit, rfl⟩, rfl⟩

theorem exists_addSupply_iff :
    (∃ b', addSupply b c = .ok b') ↔ fits256 (b.supply c.denom + c.amount) := by
  simp only [addSupply, bind_eq_ok, intAdd_eq_ok, pure_eq_ok]
  constructor
  · rintro ⟨-, -, ⟨hfit, -⟩, -⟩
    exact hfit
  · intro hfit
    exact ⟨_, _, ⟨hfit, rfl⟩, rfl⟩

/-- A loop over one coin succeeds if its turn does. -/
theorem exists_ite_iff {x : Outcome BankState} (b : BankState) :
    (∃ b', (if c.amount = 0 then .ok b else x) = .ok b') ↔ (c.amount ≠ 0 → ∃ b', x = .ok b') := by
  by_cases hz : c.amount = 0
  · simp [hz]
  · simp [hz]

theorem subUnlockedCoin_eq_ok (hpos : 0 < c.amount) {addr : AccAddress} :
    subUnlockedCoin k ctx addr b c = .ok b' ↔
      c.amount.toNat + lockedCoins k ctx addr c.denom ≤ b.balance addr c.denom ∧
        b' = b.debit addr (Ledger.only c.denom c.amount.toNat) := by
  have hone : amountOf [c] = Ledger.only c.denom c.amount.toNat := by
    funext d
    simp [Ledger.only]
  rw [subUnlockedCoin, require_bind_eq_ok, require_bind_eq_ok, pure_eq_ok, setBalance_sub, hone,
    ← and_assoc]
  refine and_congr_left fun _ => ?_
  omega

/-- Coins that were taken off an account were spendable. -/
theorem spendable_of_subUnlockedCoins {addr : AccAddress} (h : newCoins [c] = .ok coins)
    (hpos : 0 < c.amount) (hsub : subUnlockedCoins k ctx addr coins b = .ok b') :
    c.amount.toNat + lockedCoins k ctx addr c.denom ≤ b.balance addr c.denom := by
  rw [subUnlockedCoins_newCoins h, if_neg hpos.ne', subUnlockedCoin_eq_ok hpos] at hsub
  exact hsub.1

theorem exists_subUnlockedCoins {addr : AccAddress} (h : newCoins [c] = .ok coins)
    (hle : c.amount ≤ ((b.balance addr c.denom - lockedCoins k ctx addr c.denom : Nat) : Int)) :
    ∃ b', subUnlockedCoins k ctx addr coins b = .ok b' := by
  rw [subUnlockedCoins_newCoins h, exists_ite_iff]
  intro hz
  have hpos : 0 < c.amount := lt_of_le_of_ne (nonneg_of_newCoins h) (Ne.symm hz)
  exact ⟨_, (subUnlockedCoin_eq_ok hpos).2 ⟨by omega, rfl⟩⟩

theorem exists_addCoins_iff {addr : AccAddress} (h : newCoins [c] = .ok coins) :
    (∃ b', addCoins addr coins b = .ok b') ↔
      (c.amount ≠ 0 → fits256 (b.balance addr c.denom + c.amount)) := by
  rw [addCoins_newCoins h, exists_ite_iff, exists_addCoin_iff]

/-- A send of spendable coins succeeds if the recipient's balance stays in range. -/
theorem exists_sendCoins {fromAddr toAddr : AccAddress} (h : newCoins [c] = .ok coins)
    (hle : c.amount ≤
      ((b.balance fromAddr c.denom - lockedCoins k ctx fromAddr c.denom : Nat) : Int))
    (hfit : fits256 ((b.debit fromAddr (amountOf coins)).balance toAddr c.denom + c.amount)) :
    ∃ b', sendCoins k ctx fromAddr toAddr coins b = .ok b' := by
  obtain ⟨b₁, hsub⟩ := exists_subUnlockedCoins h hle
  obtain ⟨rfl, -⟩ := subUnlockedCoins_spec hsub
  rw [sendCoins, hsub, ok_bind]
  exact (exists_addCoins_iff h).2 fun _ => hfit

/-- A burn of coins that the module account holds and the supply covers succeeds. -/
theorem exists_burnCoins (h : newCoins [c] = .ok coins)
    (hle : c.amount ≤ b.balance k.moduleAddr c.denom) (hsupply : c.amount ≤ b.supply c.denom) :
    ∃ b', burnCoins k ctx coins b = .ok b' := by
  -- a module account does not vest
  have hlocked : lockedCoins k ctx k.moduleAddr c.denom = 0 := if_pos rfl
  obtain ⟨b₁, hsub⟩ : ∃ b₁, subUnlockedCoins k ctx k.moduleAddr coins b = .ok b₁ :=
    exists_subUnlockedCoins h (by rw [hlocked, Nat.sub_zero]; exact hle)
  obtain ⟨rfl, -⟩ := subUnlockedCoins_spec hsub
  rw [burnCoins, hsub, ok_bind, foldlM_newCoins h, exists_ite_iff]
  intro _
  rw [subSupply, Ledger.supply_debit, require_bind_of hsupply]
  exact ⟨_, rfl⟩

/-- A mint succeeds if the balance of the module account and the supply stay in range. -/
theorem exists_mintCoins_iff (h : newCoins [c] = .ok coins) :
    (∃ b', mintCoins k coins b = .ok b') ↔
      (c.amount ≠ 0 → fits256 (b.balance k.moduleAddr c.denom + c.amount) ∧
        fits256 (b.supply c.denom + c.amount)) := by
  have hsupply : ∀ b₁, addCoins k.moduleAddr coins b = .ok b₁ →
      ((∃ b', coins.foldlM addSupply b₁ = .ok b') ↔
        (c.amount ≠ 0 → fits256 (b.supply c.denom + c.amount))) := by
    intro b₁ hadd
    rw [addCoins_spec hadd, foldlM_newCoins h, exists_ite_iff, exists_addSupply_iff,
      Ledger.supply_credit]
  constructor
  · rintro ⟨b', hmint⟩ hne
    obtain ⟨b₁, hadd, hloop⟩ := bind_eq_ok.1 hmint
    exact ⟨(exists_addCoins_iff h).1 ⟨b₁, hadd⟩ hne, (hsupply b₁ hadd).1 ⟨b', hloop⟩ hne⟩
  · intro hfit
    obtain ⟨b₁, hadd⟩ := (exists_addCoins_iff h).2 fun hne => (hfit hne).1
    obtain ⟨b', hloop⟩ := (hsupply b₁ hadd).2 fun hne => (hfit hne).2
    exact ⟨b', by rw [mintCoins, hadd, ok_bind, hloop]⟩

/-- A payment of the module account succeeds if the account holds the coins, the recipient is not
blocked, and the recipient's balance stays in range. -/
theorem exists_sendCoinsFromModuleToAccount_iff {addr : AccAddress} (h : newCoins [c] = .ok coins)
    (hheld : c.amount ≤ b.balance k.moduleAddr c.denom) :
    (∃ b', sendCoinsFromModuleToAccount k ctx addr coins b = .ok b') ↔
      k.blockedAddr addr = false ∧
        (c.amount ≠ 0 → fits256 (b.balance addr c.denom + c.amount)) := by
  have hlocked : lockedCoins k ctx k.moduleAddr c.denom = 0 := if_pos rfl
  obtain ⟨b₁, hsub⟩ : ∃ b₁, subUnlockedCoins k ctx k.moduleAddr coins b = .ok b₁ :=
    exists_subUnlockedCoins h (by rw [hlocked, Nat.sub_zero]; exact hheld)
  have hb₁ := (subUnlockedCoins_spec hsub).1
  -- a recipient that is not blocked is not the module account
  have hbalance : k.blockedAddr addr = false → b₁.balance addr c.denom = b.balance addr c.denom := by
    intro hblocked
    rw [hb₁, Ledger.balance_debit, if_neg (ne_moduleAddr_of_not_blocked hblocked), Nat.sub_zero]
  constructor
  · rintro ⟨b', hsend⟩
    rw [sendCoinsFromModuleToAccount, require_bind_eq_ok, sendCoins, hsub, ok_bind] at hsend
    refine ⟨hsend.1, ?_⟩
    rw [← hbalance hsend.1]
    exact (exists_addCoins_iff h).1 ⟨b', hsend.2⟩
  · rintro ⟨hblocked, hfit⟩
    rw [← hbalance hblocked] at hfit
    obtain ⟨b', hadd⟩ := (exists_addCoins_iff h).2 hfit
    exact ⟨b', by rw [sendCoinsFromModuleToAccount, require_bind_of hblocked, sendCoins, hsub, ok_bind,
      hadd]⟩

/-! ## Panics -/

/-- A loop over one coin panics only if its turn does. -/
theorem noPanic_ite {x : Outcome BankState} (b : BankState) :
    NoPanic (if c.amount = 0 then .ok b else x) ↔ (c.amount ≠ 0 → NoPanic x) := by
  by_cases hz : c.amount = 0
  · simp [hz]
  · simp [hz]

theorem noPanic_subUnlockedCoin {addr : AccAddress} :
    NoPanic (subUnlockedCoin k ctx addr b c) ↔
      lockedCoins k ctx addr c.denom ≤ b.balance addr c.denom := by
  rw [subUnlockedCoin, noPanic_require_panic, noPanic_require_error]
  exact and_iff_left fun _ => noPanic_pure _

theorem noPanic_addCoin {addr : AccAddress} :
    NoPanic (addCoin addr b c) ↔ fits256 (b.balance addr c.denom + c.amount) := by
  rw [addCoin, noPanic_bind, noPanic_intAdd]
  exact and_iff_left fun _ _ => noPanic_pure _

theorem noPanic_addSupply : NoPanic (addSupply b c) ↔ fits256 (b.supply c.denom + c.amount) := by
  rw [addSupply, noPanic_bind, noPanic_intAdd]
  exact and_iff_left fun _ _ => noPanic_pure _

theorem noPanic_subSupply : NoPanic (subSupply b c) ↔ c.amount ≤ b.supply c.denom := by
  rw [subSupply, noPanic_require_panic]
  exact and_iff_left (noPanic_pure _)

/-- A transfer of one coin panics if the sender holds less than its locked coins, and if the
recipient's balance leaves the 256 bits. -/
theorem noPanic_sendCoins {fromAddr toAddr : AccAddress} (h : newCoins [c] = .ok coins) :
    NoPanic (sendCoins k ctx fromAddr toAddr coins b) ↔ (c.amount ≠ 0 →
      lockedCoins k ctx fromAddr c.denom ≤ b.balance fromAddr c.denom ∧
      (c.amount.toNat + lockedCoins k ctx fromAddr c.denom ≤ b.balance fromAddr c.denom →
        fits256 ((b.debit fromAddr (Ledger.only c.denom c.amount.toNat)).balance toAddr c.denom +
          c.amount))) := by
  rw [sendCoins, noPanic_bind, subUnlockedCoins_newCoins h, noPanic_ite]
  by_cases hz : c.amount = 0
  · have hadd : ∀ b₁, NoPanic (addCoins toAddr coins b₁) := by
      intro b₁
      rw [addCoins_newCoins h, noPanic_ite]
      exact fun hne => absurd hz hne
    simp [hz, hadd]
  · have hpos : 0 < c.amount := lt_of_le_of_ne (nonneg_of_newCoins h) (Ne.symm hz)
    rw [if_neg hz, noPanic_subUnlockedCoin]
    simp only [subUnlockedCoin_eq_ok hpos, addCoins_newCoins h, if_neg hz, noPanic_addCoin]
    constructor
    · rintro ⟨hlocked, hadd⟩ -
      exact ⟨hlocked hz, fun hle => hadd _ ⟨hle, rfl⟩⟩
    · intro hsafe
      refine ⟨fun _ => (hsafe hz).1, ?_⟩
      rintro b₁ ⟨hle, rfl⟩
      exact (hsafe hz).2 hle

theorem noPanic_mintCoins (h : newCoins [c] = .ok coins) :
    NoPanic (mintCoins k coins b) ↔
      (c.amount ≠ 0 → fits256 (b.balance k.moduleAddr c.denom + c.amount) ∧
        fits256 (b.supply c.denom + c.amount)) := by
  rw [mintCoins, noPanic_bind, addCoins_newCoins h, noPanic_ite, noPanic_addCoin]
  by_cases hz : c.amount = 0
  · have hloop : ∀ b₁, NoPanic (coins.foldlM addSupply b₁) := by
      intro b₁
      rw [foldlM_newCoins h, noPanic_ite]
      exact fun hne => absurd hz hne
    simp [hz, hloop]
  · have hpos : 0 < c.amount := lt_of_le_of_ne (nonneg_of_newCoins h) (Ne.symm hz)
    rw [if_neg hz]
    simp only [foldlM_newCoins h, if_neg hz, noPanic_addSupply]
    constructor
    · rintro ⟨hfit, hloop⟩ -
      obtain ⟨b₁, hadd⟩ := exists_addCoin_iff.2 (hfit hz)
      have hsupply := hloop b₁ hadd
      rw [addCoin_spec hpos hadd, Ledger.supply_credit] at hsupply
      exact ⟨hfit hz, hsupply⟩
    · intro hsafe
      refine ⟨fun _ => (hsafe hz).1, ?_⟩
      intro b₁ hadd
      rw [addCoin_spec hpos hadd, Ledger.supply_credit]
      exact (hsafe hz).2

/-- A burn from the module account panics if the account holds the coins and the supply does not. -/
theorem noPanic_burnCoins (h : newCoins [c] = .ok coins) :
    NoPanic (burnCoins k ctx coins b) ↔
      (c.amount ≠ 0 → c.amount ≤ b.balance k.moduleAddr c.denom → c.amount ≤ b.supply c.denom) := by
  have hlocked : lockedCoins k ctx k.moduleAddr c.denom = 0 := if_pos rfl
  rw [burnCoins, noPanic_bind, subUnlockedCoins_newCoins h, noPanic_ite, noPanic_subUnlockedCoin,
    hlocked]
  by_cases hz : c.amount = 0
  · have hloop : ∀ b₁, NoPanic (coins.foldlM subSupply b₁) := by
      intro b₁
      rw [foldlM_newCoins h, noPanic_ite]
      exact fun hne => absurd hz hne
    simp [hz, hloop]
  · have hpos : 0 < c.amount := lt_of_le_of_ne (nonneg_of_newCoins h) (Ne.symm hz)
    rw [if_neg hz]
    simp only [subUnlockedCoin_eq_ok hpos, hlocked, foldlM_newCoins h, if_neg hz, noPanic_subSupply]
    constructor
    · rintro ⟨-, hloop⟩ - hle
      have hsupply := hloop (b.debit k.moduleAddr _) ⟨by omega, rfl⟩
      exact hsupply
    · intro hsafe
      refine ⟨fun _ => Nat.zero_le _, ?_⟩
      rintro b₁ ⟨hle, rfl⟩
      exact hsafe hz (by omega)

/-- What is known after a coin was sent to the module account. -/
theorem sendCoins_module_spec {addr : AccAddress} (h : newCoins [c] = .ok coins) (hz : c.amount ≠ 0)
    (hsend : sendCoins k ctx addr k.moduleAddr coins b = .ok b') :
    c.amount.toNat + lockedCoins k ctx addr c.denom ≤ b.balance addr c.denom ∧
      c.amount ≤ b'.balance k.moduleAddr c.denom ∧ b'.supply c.denom = b.supply c.denom := by
  have hpos : 0 < c.amount := lt_of_le_of_ne (nonneg_of_newCoins h) (Ne.symm hz)
  rw [sendCoins, bind_eq_ok] at hsend
  obtain ⟨b₁, hsub, hadd⟩ := hsend
  rw [subUnlockedCoins_newCoins h, if_neg hz, subUnlockedCoin_eq_ok hpos] at hsub
  obtain ⟨hle, rfl⟩ := hsub
  rw [addCoins_newCoins h, if_neg hz] at hadd
  rw [addCoin_spec hpos hadd, Ledger.balance_credit, if_pos rfl, Ledger.supply_credit]
  have hone : amountOf [c] c.denom = c.amount.toNat := by simp
  refine ⟨hle, ?_, rfl⟩
  rw [hone]
  omega

/-- A coin that goes to the module account and is burned there, in front of a computation that does
not depend on the balances. -/
theorem noPanic_send_burn {β : Type} {addr : AccAddress} {safe : Prop} (h : newCoins [c] = .ok coins)
    {rest : BankState → Outcome β} (hrest : ∀ b, NoPanic (rest b) ↔ safe) (b : BankState) :
    NoPanic (do
      let b ← sendCoinsFromAccountToModule k ctx addr coins b
      let b ← burnCoins k ctx coins b
      rest b) ↔
    (c.amount = 0 → safe) ∧ (c.amount ≠ 0 →
      lockedCoins k ctx addr c.denom ≤ b.balance addr c.denom ∧
      (c.amount.toNat + lockedCoins k ctx addr c.denom ≤ b.balance addr c.denom →
        fits256 ((b.debit addr (Ledger.only c.denom c.amount.toNat)).balance k.moduleAddr c.denom +
          c.amount) ∧ c.amount ≤ b.supply c.denom ∧ safe)) := by
  by_cases hz : c.amount = 0
  · have hsend : sendCoinsFromAccountToModule k ctx addr coins b = .ok b := by
      rw [sendCoinsFromAccountToModule, sendCoins, subUnlockedCoins_newCoins h, if_pos hz, ok_bind,
        addCoins_newCoins h, if_pos hz]
    have hburn : burnCoins k ctx coins b = .ok b := by
      rw [burnCoins, subUnlockedCoins_newCoins h, if_pos hz, ok_bind, foldlM_newCoins h, if_pos hz]
    rw [hsend, ok_bind, hburn, ok_bind, hrest]
    simp [hz]
  · rw [noPanic_bind, sendCoinsFromAccountToModule, noPanic_sendCoins h]
    constructor
    · rintro ⟨hsend, hburn⟩
      refine ⟨fun h0 => absurd h0 hz, fun _ => ?_⟩
      obtain ⟨hlocked, hcredit⟩ := hsend hz
      refine ⟨hlocked, ?_⟩
      intro hle
      have hfit := hcredit hle
      obtain ⟨b₁, hb₁⟩ : ∃ b₁, sendCoins k ctx addr k.moduleAddr coins b = .ok b₁ :=
        exists_sendCoins h (by omega) (by rw [amountOf_eq_only h]; exact hfit)
      obtain ⟨-, hheld, hsame⟩ := sendCoins_module_spec h hz hb₁
      obtain ⟨hsupply, hafter⟩ := noPanic_bind.1 (hburn b₁ hb₁)
      rw [noPanic_burnCoins h] at hsupply
      obtain ⟨b₂, hb₂⟩ : ∃ b₂, burnCoins k ctx coins b₁ = .ok b₂ :=
        exists_burnCoins h hheld (hsupply hz hheld)
      refine ⟨hfit, ?_, (hrest b₂).1 (hafter b₂ hb₂)⟩
      rw [← hsame]
      exact hsupply hz hheld
    · rintro ⟨-, hsafe⟩
      obtain ⟨hlocked, hcovered⟩ := hsafe hz
      refine ⟨fun _ => ⟨hlocked, fun hle => (hcovered hle).1⟩, ?_⟩
      intro b₁ hb₁
      obtain ⟨hle, -, hsame⟩ := sendCoins_module_spec h hz hb₁
      obtain ⟨-, hsupply, hsafe⟩ := hcovered hle
      rw [noPanic_bind, noPanic_burnCoins h, hsame]
      exact ⟨fun _ _ => hsupply, fun b₂ _ => (hrest b₂).2 hsafe⟩

theorem noPanic_sendCoinsFromModuleToAccount {addr : AccAddress} (h : newCoins [c] = .ok coins)
    (hheld : c.amount ≤ b.balance k.moduleAddr c.denom) :
    NoPanic (sendCoinsFromModuleToAccount k ctx addr coins b) ↔
      (k.blockedAddr addr = false → c.amount ≠ 0 →
        fits256 (b.balance addr c.denom + c.amount)) := by
  have hlocked : lockedCoins k ctx k.moduleAddr c.denom = 0 := if_pos rfl
  have hnonneg := nonneg_of_newCoins h
  rw [sendCoinsFromModuleToAccount, noPanic_require_error]
  refine forall_congr' fun hblocked => ?_
  rw [noPanic_sendCoins h, hlocked, Ledger.balance_debit,
    if_neg (ne_moduleAddr_of_not_blocked hblocked), Nat.sub_zero]
  refine forall_congr' fun _ => ?_
  constructor
  · rintro ⟨-, hfit⟩
    exact hfit (by omega)
  · intro hfit
    exact ⟨Nat.zero_le _, fun _ => hfit⟩

end

end EnergyChain.Bank
