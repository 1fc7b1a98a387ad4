import EnergyChain.Lib.Run
import EnergyChain.Reward.Keeper

/-!
# The message server and the runs of the chain

`handle` dispatches a reward message to its handler, which calls the keeper, emits the module's
events and builds the response. `deliver` is the atomic transaction around a handler: the writes of a
message that returns an error or panics are discarded. A run of the chain is a list of transactions,
each with the context of its block; a transaction holds a reward message or an ordinary bank send.
-/

set_option autoImplicit false

namespace EnergyChain.Reward

open EnergyChain.Go
open EnergyChain.Sdk
open EnergyChain.Bank

/-- An `sdk.Event` with its attributes. -/
structure Event where
  kind : GoString
  attributes : List (GoString × GoString)
  deriving DecidableEq, Repr

/-- The responses that carry data. -/
inductive Response where
  | empty
  | burn (resp : BurnResponse)
  | addEnergy (recs : Int)
  | createRECRecord (recIds : List GoString)
  | appendTxHash (node : TxNodeTx)
  deriving DecidableEq, Repr

/-- The response of a message and the events of the module's own message server. -/
structure Result where
  response : Response
  events : List Event
  deriving DecidableEq, Repr

/-- The result of a handler that returns nothing and emits nothing. -/
def Result.empty : Result := ⟨.empty, []⟩

section

variable {V : Type} (k : Keeper V) (ctx : Context)

/-- `msgServer.BurnStableCoin`. -/
def handleBurnStableCoin (msg : MsgBurnStableCoin) (s : State V) : Outcome (State V × Result) := do
  let (s', resp) ← burnStableCoin k ctx msg.targetAddr msg.amount s
  let burned : Event := ⟨bytes "burn_stable_coin",
    [(bytes "target", msg.targetAddr), (bytes "amount", msg.amount),
      (bytes "returned_records", formatNat resp.recRecords.length),
      (bytes "returned_metas", formatNat resp.recMetas.length)]⟩
  let records := resp.recRecords.map fun r => (⟨bytes "rec_record_returned",
    [(bytes "rec_id", r.recId), (bytes "data", k.cdc.recordJson r)]⟩ : Event)
  let metas := resp.recMetas.map fun m => (⟨bytes "rec_meta_returned",
    [(bytes "certified_id", m.certifiedId), (bytes "data", k.cdc.metaJson m)]⟩ : Event)
  return (s', ⟨.burn resp, burned :: records ++ metas⟩)

/-- `msgServer.DistributeRewardPercent`, with the event of the keeper function. -/
def handleDistributeRewardPercent (msg : MsgDistributeRewardPercent) (s : State V) :
    Outcome (State V × Result) := do
  let s' ← distributeRewardPercent k ctx msg s
  -- the keeper sends a fixed amount, and the percentage of the message is not used
  return (s', ⟨.empty, [⟨bytes "message",
    [(bytes "module", bytes "reward"), (bytes "sender", msg.creator),
      (bytes "recipient", msg.address), (bytes "distributed_amount", bytes "10000aeil")]⟩]⟩)

/-- `msgServer.AddEnergy`. -/
def handleAddEnergy (msg : MsgAddEnergy) (s : State V) : Outcome (State V × Result) := do
  let whAmt ←
    orFail (.error (bytes "invalid amount: " ++ msg.amount)) (newIntFromString msg.amount)
  -- `Int64` panics outside of its range
  let wh ← int64 whAmt
  let (store, recs) := addEnergy k msg.toAddr (.ofInt wh) msg.txHash s.store
  return ({ s with store := store }, ⟨.addEnergy recs, [⟨bytes "add_energy",
    [(bytes "creator", msg.creator), (bytes "to", msg.toAddr), (bytes "amount", msg.amount),
      (bytes "tx_hash", msg.txHash), (bytes "recs", formatInt recs),
      (bytes "contributors", k.cdc.contributorsJson (contributors k store))]⟩]⟩)

/-- `msgServer.CreateRECRecord`. The event reads the first identifier, which a count of zero or less
does not provide. -/
def handleCreateRECRecord (msg : MsgCreateRECRecord) (s : State V) :
    Outcome (State V × Result) :=
  let (store, recIDs) := createRECRecord k ctx msg.count s.store
  match recIDs with
  | [] => throwPanic (bytes "runtime error: index out of range [0] with length 0")
  | first :: _ =>
      .ok ({ s with store := store }, ⟨.createRECRecord recIDs, [⟨bytes "create_rec_record",
        [(bytes "creator", msg.creator), (bytes "count", formatInt msg.count),
          (bytes "rec_id", first)]⟩]⟩)

/-- `msgServer.AppendTxHash`. The response carries the node as the message gave it. -/
def handleAppendTxHash (msg : MsgAppendTxHash) (s : State V) : Outcome (State V × Result) := do
  let node : TxNodeTx := ⟨msg.txHashes, msg.nodeCreator, msg.recId, msg.next⟩
  let store ← appendTxNode k node s.store
  return ({ s with store := store }, ⟨.appendTxHash node, [⟨bytes "append_tx_hash",
    [(bytes "signer", msg.creator), (bytes "node_creator", msg.nodeCreator),
      (bytes "rec_id", msg.recId), (bytes "hashes", [44].intercalate msg.txHashes)]⟩]⟩)

/-- The message server: one handler per message. -/
def handle (s : State V) : Msg → Outcome (State V × Result)
  | .rewardSolarPower msg => do
      let s' ← rewardSolarPower k ctx msg.address msg.amount s
      return (s', .empty)
  | .burnStableCoin msg => handleBurnStableCoin k ctx msg s
  | .burnModuleStable _ => do
      let s' ← mapErr (bytes "burn failed: " ++ ·) (burnModuleStableCoins k ctx s)
      return (s', .empty)
  | .depositCollateral msg => do
      let store ← depositCollateral k msg s.store
      return ({ s with store := store }, .empty)
  | .removeCollateral msg => do
      let store ← removeCollateral msg.amount s.store
      return ({ s with store := store }, .empty)
  | .addEnergy msg => handleAddEnergy k msg s
  | .createRECRecord msg => handleCreateRECRecord k ctx msg s
  | .appendTxHash msg => handleAppendTxHash k msg s
  | .distributeRewardPercent msg => handleDistributeRewardPercent k ctx msg s

end

/-! ## Transactions and runs -/

/-- What a transaction carries: a reward message or an ordinary send. -/
inductive TxMsg where
  | reward (msg : Msg)
  | send (msg : MsgSend)

/-- A transaction with the context of its block. -/
structure Tx where
  ctx : Context
  msg : TxMsg

/-- The handler of a transaction. -/
def handleTx {V : Type} (k : Keeper V) (s : State V) (tx : Tx) : Outcome (State V × Result) :=
  match tx.msg with
  | .reward msg => handle k tx.ctx s msg
  | .send msg => do
      let bank ← send k.bankKeeper tx.ctx msg s.bank
      return ({ s with bank := bank }, .empty)

/-- The state after an atomic transaction. `ValidateBasic` is not part of the step: `runTx` makes that check
before any handler runs, so the runs of a chain are among the runs of `deliver`. -/
def deliver {V : Type} (k : Keeper V) (s : State V) (tx : Tx) : State V :=
  commit s (handleTx k s tx)

/-- The state before the first reward message: an empty store over a bank. -/
def genesis {V : Type} (bank : BankState) : State V := ⟨.empty, bank⟩

/-- The message withdraws collateral. -/
def TxMsg.isRemoveCollateral : TxMsg → Bool
  | .reward (.removeCollateral _) => true
  | _ => false

/-- The append message, if it is one. -/
def TxMsg.appendTxHash? : TxMsg → Option MsgAppendTxHash
  | .reward (.appendTxHash msg) => some msg
  | _ => none

/-- The energy report, if it is one. -/
def TxMsg.addEnergy? : TxMsg → Option MsgAddEnergy
  | .reward (.addEnergy msg) => some msg
  | _ => none

theorem TxMsg.appendTxHash?_eq_some {msg : TxMsg} {append : MsgAppendTxHash} :
    msg.appendTxHash? = some append ↔ msg = .reward (.appendTxHash append) := by
  constructor
  · intro h
    unfold TxMsg.appendTxHash? at h
    split at h
    · rw [Option.some_inj.1 h]
    · cases h
  · rintro rfl
    rfl

theorem TxMsg.addEnergy?_eq_some {msg : TxMsg} {report : MsgAddEnergy} :
    msg.addEnergy? = some report ↔ msg = .reward (.addEnergy report) := by
  constructor
  · intro h
    unfold TxMsg.addEnergy? at h
    split at h
    · rw [Option.some_inj.1 h]
    · cases h
  · rintro rfl
    rfl

/-- The message passes its `ValidateBasic`; a send is not checked here. -/
def TxMsg.passesBasic (lib : Bech32) : TxMsg → Bool
  | .reward msg => (msg.validateBasic lib).isOk
  | .send _ => true

/-! ## A small chain

Two accounts and the module account, with their bech32 texts, over the free encoding. The module
address is the first 20 bytes of the SHA-256 of `reward`. -/

def aliceAddr : AccAddress := List.replicate 20 1

def malloryAddr : AccAddress := List.replicate 20 2

def rewardAddr : AccAddress :=
  [118, 150, 255, 248, 79, 38, 71, 42, 151, 55, 152, 28, 14, 244, 134, 0, 115, 30, 123, 42]

def alice : GoString := bytes "cosmos1qyqszqgpqyqszqgpqyqszqgpqyqszqgpjnp7du"

def mallory : GoString := bytes "cosmos1qgpqyqszqgpqyqszqgpqyqszqgpqyqszrh8mx2"

def rewardAccount : GoString := bytes "cosmos1w6t0l7z0yerj49ehnqwqaayxqpe3u7e23edgma"

/-- The bech32 library at these three texts. -/
def smallBech32 : Bech32 where
  decodeAndConvert address :=
    if address = alice then .ok (bytes "cosmos", aliceAddr)
    else if address = mallory then .ok (bytes "cosmos", malloryAddr)
    else if address = rewardAccount then .ok (bytes "cosmos", rewardAddr)
    else .error (bytes "decoding bech32 failed")
  addrString addr :=
    if addr = aliceAddr then alice
    else if addr = malloryAddr then mallory
    else if addr = rewardAddr then rewardAccount
    else []

def smallKeeper : Keeper Document where
  cdc := documents
  bankKeeper :=
    { bech32 := smallBech32
      moduleAddr := rewardAddr
      blockedAddr := fun addr => addr == rewardAddr
      module_blocked := rfl }

/-- A block without vesting accounts in which every denomination may be sent. -/
def smallCtx (height : Int) : Context where
  blockHeight := height
  blockTime := bytes "2025-01-01T00:00:00Z"
  vesting _ _ := 0
  sendEnabled _ := true

/-- A reward message in a block of that height. -/
def smallTx (height : Int) (msg : Msg) : Tx := ⟨smallCtx height, .reward msg⟩

/-- A record with the given identifier and no other data. -/
def smallRecord (recId : GoString) : RECRecord := ⟨recId, [], 0, bytes "1000000", [], []⟩

/-- A deposit of one REC and a mint of 700000 stable coins for alice. -/
def depositThenMint : List Tx :=
  [smallTx 1 (.depositCollateral ⟨alice, some (.recRecord (smallRecord (bytes "r1")))⟩),
    smallTx 2 (.rewardSolarPower ⟨alice, alice, bytes "700000"⟩)]

/-- A bank in which nothing is held. -/
def emptyBank : BankState := ⟨fun _ _ => 0, fun _ => 0⟩

end EnergyChain.Reward
