import EnergyChain.Lib.Ledger
import EnergyChain.Sdk.Address
import EnergyChain.Sdk.Coin

/-!
# The bank keeper

The part of `x/bank` that the reward module and ordinary sends use. The bank is a ledger of account
balances and recorded supplies. Each keeper function loops over a coin set; its successful result is
one or two ledger moves (`sendCoins_spec`, `mintCoins_spec`, `burnCoins_spec`), so the bank creates,
destroys and moves exactly the coins it is given.

Vesting accounts hold locked coins, which the bank does not let them spend; the module account of
`x/reward` is not a vesting account. Module accounts are blocked recipients of sends.
-/

set_option autoImplicit false

namespace EnergyChain.Bank

open EnergyChain.Go
open EnergyChain.Sdk

/-- Balances by account and denomination, and the supply of every denomination. -/
abbrev BankState := Ledger AccAddress GoString

/-- What a message handler reads from its `sdk.Context` besides the stores: the block height, the
block time in RFC 3339, the coins that vesting accounts hold locked at that time, and the
denominations that may be sent. -/
structure Context where
  blockHeight : Int
  blockTime : GoString
  vesting : AccAddress → GoString → Nat
  sendEnabled : GoString → Bool

/-- The configuration of the bank: the bech32 library, the address of the reward module account, and
the blocked recipients, among which is the module account. -/
structure Keeper where
  bech32 : Bech32
  moduleAddr : AccAddress
  blockedAddr : AccAddress → Bool
  module_blocked : blockedAddr moduleAddr = true

theorem ne_moduleAddr_of_not_blocked {k : Keeper} {addr : AccAddress}
    (h : k.blockedAddr addr = false) : addr ≠ k.moduleAddr := by
  rintro rfl
  rw [k.module_blocked] at h
  cases h

section

variable (k : Keeper) (ctx : Context)

/-- `LockedCoins`. -/
def lockedCoins (addr : AccAddress) (denom : GoString) : Nat :=
  if addr = k.moduleAddr then 0 else ctx.vesting addr denom

/-- `setBalance`. -/
def setBalance (b : BankState) (addr : AccAddress) (denom : GoString) (amount : Nat) : BankState :=
  { b with balance := fun a d => if a = addr ∧ d = denom then amount else b.balance a d }

/-- `setSupply`. -/
def setSupply (b : BankState) (denom : GoString) (amount : Nat) : BankState :=
  { b with supply := fun d => if d = denom then amount else b.supply d }

/-- One turn of the loop of `subUnlockedCoins`. -/
def subUnlockedCoin (addr : AccAddress) (b : BankState) (coin : Coin) : Outcome BankState := do
  let balance := b.balance addr coin.denom
  let locked := lockedCoins k ctx addr coin.denom
  -- `balance.Sub(locked)` panics if the account has lost locked coins
  require (locked ≤ balance) (.panic (bytes "negative coin amount"))
  let spendable := balance - locked
  require (coin.amount ≤ spendable)
    (.error (coinString ⟨coin.denom, spendable⟩ ++ bytes " is smaller than " ++ coinString coin ++
      bytes ": insufficient funds"))
  return setBalance b addr coin.denom (balance - coin.amount.toNat)

/-- `subUnlockedCoins`. -/
def subUnlockedCoins (addr : AccAddress) (amt : List Coin) (b : BankState) : Outcome BankState := do
  require (coinsIsValid amt = true) (.error (coinsString amt ++ bytes ": invalid coins"))
  amt.foldlM (subUnlockedCoin k ctx addr) b

/-- One turn of the loop of `addCoins`. -/
def addCoin (addr : AccAddress) (b : BankState) (coin : Coin) : Outcome BankState := do
  let newBalance ← intAdd (b.balance addr coin.denom) coin.amount
  return setBalance b addr coin.denom newBalance.toNat

/-- `addCoins`. -/
def addCoins (addr : AccAddress) (amt : List Coin) (b : BankState) : Outcome BankState := do
  require (coinsIsValid amt = true) (.error (coinsString amt ++ bytes ": invalid coins"))
  amt.foldlM (addCoin addr) b

/-- `SendCoins`. -/
def sendCoins (fromAddr toAddr : AccAddress) (amt : List Coin) (b : BankState) : Outcome BankState := do
  let b ← subUnlockedCoins k ctx fromAddr amt b
  addCoins toAddr amt b

/-- `SendCoinsFromModuleToAccount`, from the reward module account. -/
def sendCoinsFromModuleToAccount (recipientAddr : AccAddress) (amt : List Coin) (b : BankState) :
    Outcome BankState := do
  require (k.blockedAddr recipientAddr = false)
    (.error (k.bech32.addrString recipientAddr ++
      bytes " is not allowed to receive funds: unauthorized"))
  sendCoins k ctx k.moduleAddr recipientAddr amt b

/-- `SendCoinsFromAccountToModule`, to the reward module account. -/
def sendCoinsFromAccountToModule (senderAddr : AccAddress) (amt : List Coin) (b : BankState) :
    Outcome BankState :=
  sendCoins k ctx senderAddr k.moduleAddr amt b

/-- One turn of the supply loop of `MintCoins`. -/
def addSupply (b : BankState) (coin : Coin) : Outcome BankState := do
  let supply ← intAdd (b.supply coin.denom) coin.amount
  return setSupply b coin.denom supply.toNat

/-- One turn of the supply loop of `BurnCoins`. -/
def subSupply (b : BankState) (coin : Coin) : Outcome BankState := do
  require (coin.amount ≤ b.supply coin.denom) (.panic (bytes "negative coin amount"))
  return setSupply b coin.denom (b.supply coin.denom - coin.amount.toNat)

/-- `MintCoins`, into the reward module account. -/
def mintCoins (amounts : List Coin) (b : BankState) : Outcome BankState := do
  let b ← addCoins k.moduleAddr amounts b
  amounts.foldlM addSupply b

/-- `BurnCoins`, from the reward module account. -/
def burnCoins (amounts : List Coin) (b : BankState) : Outcome BankState := do
  let b ← subUnlockedCoins k ctx k.moduleAddr amounts b
  amounts.foldlM subSupply b

/-- `bank.MsgSend`. -/
structure MsgSend where
  fromAddress : GoString
  toAddress : GoString
  amount : List Coin

/-- `IsSendEnabledCoins`. -/
def isSendEnabledCoins (ctx : Context) : List Coin → Outcome Unit
  | [] => .ok ()
  | coin :: rest => do
      require (ctx.sendEnabled coin.denom = true)
        (.error (coin.denom ++
          bytes " transfers are currently disabled: send transactions are disabled"))
      isSendEnabledCoins ctx rest

/-- The bank's `Send` handler. -/
def send (msg : MsgSend) (b : BankState) : Outcome BankState := do
  isSendEnabledCoins ctx msg.amount
  let fromAddr ← accAddressFromBech32 k.bech32 msg.fromAddress
  let toAddr ← accAddressFromBech32 k.bech32 msg.toAddress
  -- only this handler asks for blocked recipients; `SendCoins` does not
  require (k.blockedAddr toAddr = false)
    (.error (msg.toAddress ++ bytes " is not allowed to receive funds: unauthorized"))
  sendCoins k ctx fromAddr toAddr msg.amount b

end

/-! ## What the loops compute -/

section Loops

variable {step : BankState → Coin → Outcome BankState}
  (move : BankState → (GoString → Nat) → BankState)

/-- A loop whose turns each make a move by one coin makes the move by the whole set. -/
theorem foldlM_eq_move (hzero : ∀ b, (move b fun _ => 0) = b)
    (hadd : ∀ b f g, move (move b f) g = move b fun d => f d + g d)
    (hstep : ∀ b b' c, 0 < c.amount → step b c = .ok b' → b' = move b (amountOf [c]))
    {amt : List Coin} (hpos : ∀ c ∈ amt, 0 < c.amount) {b b' : BankState}
    (h : amt.foldlM step b = .ok b') : b' = move b (amountOf amt) := by
  induction amt generalizing b with
  | nil =>
      rw [List.foldlM_nil, pure_eq_ok] at h
      subst h
      exact (hzero b').symm
  | cons c rest ih =>
      rw [List.foldlM_cons, bind_eq_ok] at h
      obtain ⟨b₁, h₁, hrest⟩ := h
      -- the first coin, then the rest: together the amounts of the whole set
      have e₁ := hstep b b₁ c (hpos c List.mem_cons_self) h₁
      have e₂ := ih (fun c' hc' => hpos c' (List.mem_cons_of_mem c hc')) hrest
      rw [e₂, e₁, hadd]
      congr 1

/-- A loop whose turns each take a coin that is held takes a set that is held. -/
theorem foldlM_amountOf_le (held : BankState → GoString → Nat)
    (hheld : ∀ b f d, held (move b f) d = held b d - f d)
    (hstep : ∀ b b' c, 0 < c.amount → step b c = .ok b' →
      b' = move b (amountOf [c]) ∧ c.amount.toNat ≤ held b c.denom)
    {amt : List Coin} (hpos : ∀ c ∈ amt, 0 < c.amount) {b b' : BankState}
    (h : amt.foldlM step b = .ok b') (d : GoString) : amountOf amt d ≤ held b d := by
  induction amt generalizing b with
  | nil => exact Nat.zero_le _
  | cons c rest ih =>
      rw [List.foldlM_cons, bind_eq_ok] at h
      obtain ⟨b₁, h₁, hrest⟩ := h
      obtain ⟨rfl, hle⟩ := hstep b b₁ c (hpos c List.mem_cons_self) h₁
      have hih := ih (fun c' hc' => hpos c' (List.mem_cons_of_mem c hc')) hrest
      rw [hheld] at hih
      simp only [amountOf_cons, amountOf_nil, Nat.add_zero] at hih ⊢
      -- what the later turns find held is what the first one left
      by_cases hd : c.denom = d
      · subst hd
        rw [if_pos rfl] at hih ⊢
        omega
      · rw [if_neg hd] at hih ⊢
        omega

end Loops

section Specs

variable {k : Keeper} {ctx : Context} {b b' : BankState}

theorem setBalance_sub (addr : AccAddress) (b : BankState) (c : Coin) :
    setBalance b addr c.denom (b.balance addr c.denom - c.amount.toNat) =
      b.debit addr (amountOf [c]) := by
  ext a d
  · simp only [setBalance, Ledger.debit, amountOf_cons, amountOf_nil, Nat.add_zero]
    by_cases ha : a = addr <;> by_cases hd : d = c.denom <;> simp [ha, hd, eq_comm]
  · rfl

theorem setBalance_add (addr : AccAddress) (b : BankState) (c : Coin) :
    setBalance b addr c.denom (b.balance addr c.denom + c.amount.toNat) =
      b.credit addr (amountOf [c]) := by
  ext a d
  · simp only [setBalance, Ledger.credit, amountOf_cons, amountOf_nil, Nat.add_zero]
    by_cases ha : a = addr <;> by_cases hd : d = c.denom <;> simp [ha, hd, eq_comm]
  · rfl

theorem setSupply_sub (b : BankState) (c : Coin) :
    setSupply b c.denom (b.supply c.denom - c.amount.toNat) = b.retire (amountOf [c]) := by
  ext d
  · rfl
  · simp only [setSupply, Ledger.retire, amountOf_cons, amountOf_nil, Nat.add_zero]
    by_cases hd : d = c.denom <;> simp [hd, eq_comm]

theorem setSupply_add (b : BankState) (c : Coin) :
    setSupply b c.denom (b.supply c.denom + c.amount.toNat) = b.issue (amountOf [c]) := by
  ext d
  · rfl
  · simp only [setSupply, Ledger.issue, amountOf_cons, amountOf_nil, Nat.add_zero]
    by_cases hd : d = c.denom <;> simp [hd, eq_comm]

theorem toNat_natCast_add {n : Nat} {z : Int} (h : 0 < z) : ((n : Int) + z).toNat = n + z.toNat := by
  omega

theorem subUnlockedCoin_spec {addr : AccAddress} {c : Coin}
    (h : subUnlockedCoin k ctx addr b c = .ok b') :
    b' = b.debit addr (amountOf [c]) ∧ c.amount.toNat ≤ b.balance addr c.denom := by
  simp only [subUnlockedCoin, require_bind_eq_ok, pure_eq_ok] at h
  obtain ⟨hlocked, hle, rfl⟩ := h
  exact ⟨setBalance_sub addr b c, by omega⟩

theorem addCoin_spec {addr : AccAddress} {c : Coin} (hpos : 0 < c.amount)
    (h : addCoin addr b c = .ok b') : b' = b.credit addr (amountOf [c]) := by
  simp only [addCoin, bind_eq_ok, intAdd_eq_ok, pure_eq_ok] at h
  obtain ⟨_, ⟨-, rfl⟩, rfl⟩ := h
  rw [toNat_natCast_add hpos]
  exact setBalance_add addr b c

theorem addSupply_spec {c : Coin} (hpos : 0 < c.amount) (h : addSupply b c = .ok b') :
    b' = b.issue (amountOf [c]) := by
  simp only [addSupply, bind_eq_ok, intAdd_eq_ok, pure_eq_ok] at h
  obtain ⟨_, ⟨-, rfl⟩, rfl⟩ := h
  rw [toNat_natCast_add hpos]
  exact setSupply_add b c

theorem subSupply_spec {c : Coin} (h : subSupply b c = .ok b') :
    b' = b.retire (amountOf [c]) ∧ c.amount.toNat ≤ b.supply c.denom := by
  simp only [subSupply, require_bind_eq_ok, pure_eq_ok] at h
  obtain ⟨hle, rfl⟩ := h
  exact ⟨setSupply_sub b c, by omega⟩

/-- `subUnlockedCoins` takes exactly the coins off the account, which held them. -/
theorem subUnlockedCoins_spec {addr : AccAddress} {amt : List Coin}
    (h : subUnlockedCoins k ctx addr amt b = .ok b') :
    b' = b.debit addr (amountOf amt) ∧ ∀ d, amountOf amt d ≤ b.balance addr d := by
  rw [subUnlockedCoins, require_bind_eq_ok] at h
  have hpos := pos_of_coinsIsValid h.1
  refine ⟨?_, ?_⟩
  · exact foldlM_eq_move (fun b f => b.debit addr f) (fun b => b.debit_zero addr)
      (fun b f g => b.debit_debit addr f g) (fun _ _ _ _ hc => (subUnlockedCoin_spec hc).1) hpos h.2
  · refine foldlM_amountOf_le (fun b f => b.debit addr f) (fun b d => b.balance addr d)
      ?_ (fun _ _ _ _ hc => subUnlockedCoin_spec hc) hpos h.2
    intro b f d
    simp [Ledger.balance_debit]

/-- `addCoins` adds exactly the coins to the account. -/
theorem addCoins_spec {addr : AccAddress} {amt : List Coin} (h : addCoins addr amt b = .ok b') :
    b' = b.credit addr (amountOf amt) := by
  rw [addCoins, require_bind_eq_ok] at h
  exact foldlM_eq_move (fun b f => b.credit addr f) (fun b => b.credit_zero addr)
    (fun b f g => b.credit_credit addr f g) (fun _ _ _ hc hadd => addCoin_spec hc hadd)
    (pos_of_coinsIsValid h.1) h.2

/-- `SendCoins` is a transfer. -/
theorem sendCoins_spec {fromAddr toAddr : AccAddress} {amt : List Coin}
    (h : sendCoins k ctx fromAddr toAddr amt b = .ok b') :
    b' = (b.debit fromAddr (amountOf amt)).credit toAddr (amountOf amt) ∧
      ∀ d, amountOf amt d ≤ b.balance fromAddr d := by
  rw [sendCoins, bind_eq_ok] at h
  obtain ⟨b₁, hsub, hadd⟩ := h
  obtain ⟨rfl, hle⟩ := subUnlockedCoins_spec hsub
  exact ⟨addCoins_spec hadd, hle⟩

/-- `SendCoinsFromModuleToAccount` is a transfer to an account that is not blocked. -/
theorem sendCoinsFromModuleToAccount_spec {addr : AccAddress} {amt : List Coin}
    (h : sendCoinsFromModuleToAccount k ctx addr amt b = .ok b') :
    k.blockedAddr addr = false ∧
      b' = (b.debit k.moduleAddr (amountOf amt)).credit addr (amountOf amt) ∧
      ∀ d, amountOf amt d ≤ b.balance k.moduleAddr d := by
  rw [sendCoinsFromModuleToAccount, require_bind_eq_ok] at h
  exact ⟨h.1, sendCoins_spec h.2⟩

/-- `MintCoins` is a mint into the module account. -/
theorem mintCoins_spec {amt : List Coin} (h : mintCoins k amt b = .ok b') :
    b' = (b.credit k.moduleAddr (amountOf amt)).issue (amountOf amt) := by
  rw [mintCoins, bind_eq_ok] at h
  obtain ⟨b₁, hadd, hsupply⟩ := h
  have hpos : ∀ c ∈ amt, 0 < c.amount := by
    rw [addCoins, require_bind_eq_ok] at hadd
    exact pos_of_coinsIsValid hadd.1
  rw [← addCoins_spec hadd]
  exact foldlM_eq_move (fun b f => b.issue f) (fun b => b.issue_zero)
    (fun b f g => b.issue_issue f g) (fun _ _ _ hc hs => addSupply_spec hc hs) hpos hsupply

/-- `BurnCoins` is a burn from the module account, which held the coins. -/
theorem burnCoins_spec {amt : List Coin} (h : burnCoins k ctx amt b = .ok b') :
    b' = (b.debit k.moduleAddr (amountOf amt)).retire (amountOf amt) ∧
      (∀ d, amountOf amt d ≤ b.balance k.moduleAddr d) ∧ ∀ d, amountOf amt d ≤ b.supply d := by
  rw [burnCoins, bind_eq_ok] at h
  obtain ⟨b₁, hsub, hsupply⟩ := h
  have hpos : ∀ c ∈ amt, 0 < c.amount := by
    rw [subUnlockedCoins, require_bind_eq_ok] at hsub
    exact pos_of_coinsIsValid hsub.1
  obtain ⟨rfl, hle⟩ := subUnlockedCoins_spec hsub
  refine ⟨?_, hle, ?_⟩
  · exact foldlM_eq_move (fun b f => b.retire f) (fun b => b.retire_zero)
      (fun b f g => b.retire_retire f g) (fun _ _ _ _ hs => (subSupply_spec hs).1) hpos hsupply
  · intro d
    exact foldlM_amountOf_le (fun b f => b.retire f) (fun b d => b.supply d)
      (fun _ _ _ => rfl) (fun _ _ _ _ hs => subSupply_spec hs) hpos hsupply d

/-- An ordinary send is a transfer to an account that is not blocked. -/
theorem send_spec {msg : MsgSend} (h : send k ctx msg b = .ok b') :
    ∃ fromAddr toAddr, accAddressFromBech32 k.bech32 msg.fromAddress = .ok fromAddr ∧
      k.blockedAddr toAddr = false ∧
      b' = (b.debit fromAddr (amountOf msg.amount)).credit toAddr (amountOf msg.amount) ∧
      ∀ d, amountOf msg.amount d ≤ b.balance fromAddr d := by
  simp only [send, bind_eq_ok, require_eq_ok, exists_const] at h
  obtain ⟨-, -, fromAddr, hfrom, toAddr, -, hblocked, hsend⟩ := h
  exact ⟨fromAddr, toAddr, hfrom, hblocked, sendCoins_spec hsend⟩

end Specs

end EnergyChain.Bank
