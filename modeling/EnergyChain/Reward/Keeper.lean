import EnergyChain.Reward.Codec

/-!
# The reward keeper

The keeper functions of `x/reward`, over a store of encoded values and the bank. A function that can
fail returns an `Outcome`; what it wrote before it failed is lost with the transaction. A prefix
iterator visits the entries that were stored when it was opened, in key order, also while the loop
deletes them.

The two loops that delete collateral (a redeeming burn and a withdrawal) are one definition,
`deleteRecs`.
-/

set_option autoImplicit false

namespace EnergyChain.Reward

open EnergyChain.Go
open EnergyChain.Sdk
open EnergyChain.Bank

/-- The key-value store of the module. -/
abbrev Store (V : Type) := SortedMap GoString V

/-- The keeper: its codec and its bank keeper. -/
structure Keeper (V : Type) where
  cdc : Codec V
  bankKeeper : Bank.Keeper

/-- The state a reward message acts on. -/
structure State (V : Type) where
  store : Store V
  bank : BankState

/-- The denomination of the stable coin. -/
def aeil : GoString := bytes "aeil"

/-- The other denomination the module names. -/
def mcnl : GoString := bytes "mcnl"

section

variable {V : Type} (k : Keeper V) (ctx : Context)

/-! ## Collateral and supply -/

/-- The number of keys of a family. -/
def countKeys (f : Family) (store : Store V) : Nat := store.card (inFamily f)

/-- `GetTotalCollateral`: the two loops count in an `int64`. -/
def getTotalCollateral (store : Store V) : Int :=
  wrap64 (countKeys .recRecord store + countKeys .recMeta store : Nat)

/-- `SetSupply`. -/
def setSupply (s : Supply) (store : Store V) : Store V :=
  store.set supplyKey (k.cdc.marshalSupply s)

/-- `GetSupply`. -/
def getSupply (store : Store V) : Outcome Supply :=
  match store.get supplyKey with
  | none => .ok ⟨bytes "0"⟩
  | some bz =>
      match k.cdc.unmarshalSupply bz with
      | .error err => throwPanic (bytes "failed to unmarshal Supply: " ++ err)
      -- an empty amount is what protobuf reads for a field that was not set
      | .ok s => .ok (if s.minted = [] then ⟨bytes "0"⟩ else s)

/-- `DepositCollateral`. -/
def depositCollateral (msg : MsgDepositCollateral) (store : Store V) : Outcome (Store V) := do
  let _ ← mapErr (bytes "invalid creator address: " ++ ·)
    (accAddressFromBech32 k.bankKeeper.bech32 msg.creator)
  match msg.recType with
  | some (.recRecord r) => return store.set (recRecordKey r.recId) (k.cdc.marshalRecord r)
  | some (.recMeta m) => return store.set (recMetaKey m.certifiedId) (k.cdc.marshalMeta m)
  | none => fail (bytes "invalid message: neither RECRecord nor RECMeta provided")

/-- A loop `for ; iter.Valid() && done < limit; iter.Next()` that deletes the current key. It returns
the store, the values it passed, and the counter. -/
def deleteLoop (limit : Int) : List (GoString × V) → Int → Store V → Store V × List V × Int
  | [], done, store => (store, [], done)
  | (key, value) :: rest, done, store =>
      if done < limit then
        let (store', values, done') := deleteLoop limit rest (done + 1) (store.delete key)
        (store', value :: values, done')
      else (store, [], done)

/-- Delete up to `limit` records and, if they do not suffice, metas. -/
def deleteRecs (limit : Int) (store : Store V) : Store V × List V × List V × Int :=
  let (store, records, done) := deleteLoop limit (store.select (inFamily .recRecord)) 0 store
  if done < limit then
    let (store, metas, done) := deleteLoop limit (store.select (inFamily .recMeta)) done store
    (store, records, metas, done)
  else (store, records, [], done)

/-- `RemoveCollateral`. -/
def removeCollateral (amount : GoString) (store : Store V) : Outcome (Store V) := do
  let coin ← mapErr (fun _ => bytes "[Remove] 잘못된 코인 형식: " ++ amount) (parseCoinNormalized amount)
  require (coin.denom = mcnl)
    (.error (bytes "[Remove] 담보 차감은 mcnl 기준만 가능합니다: " ++ coin.denom))
  let recToDelete ← intQuo coin.amount 1000
  require (recToDelete ≠ 0) (.error (bytes "[Remove] REC 단위 미만은 삭제 불가: " ++ amount))
  let limit ← int64 recToDelete
  let (store, _, _, deleted) := deleteRecs limit store
  require (limit ≤ deleted)
    (.error (bytes "[Remove] 담보 부족: 요청=" ++ formatInt limit ++ bytes ", 실제삭제=" ++
      formatInt deleted))
  return store

/-! ## Minting and burning -/

/-- Subtract from the issued total, not below zero, and store it. -/
def lowerSupply (amount : Int) (store : Store V) : Outcome (Store V) := do
  let supply ← getSupply k store
  let minted ← orFail nilInt (newIntFromString supply.minted)
  let newTotal ← intSub minted amount
  return setSupply k ⟨formatInt (if newTotal < 0 then 0 else newTotal)⟩ store

/-- `RewardSolarPower`. -/
def rewardSolarPower (to_ amount : GoString) (s : State V) : Outcome (State V) := do
  let whAmt ← orFail (.error (bytes "잘못된 amount 형식: " ++ amount)) (newIntFromString amount)
  let coinAmt ← intQuo whAmt 1
  let collateralAmt := getTotalCollateral s.store
  let supply ← getSupply k s.store
  -- the parse error is discarded, and the sum then dereferences nil
  let minted ← orFail nilInt (newIntFromString supply.minted)
  let newTotal ← intAdd minted coinAmt
  let collateralValueStable ← intMul collateralAmt 1000000
  require (newTotal ≤ collateralValueStable)
    (.error (bytes "[RewardSolarPower] 발행량 초과: 담보 부족 (collateral=" ++ formatInt collateralAmt ++
      bytes " REC → " ++ formatInt collateralValueStable ++ bytes " aeil, minted=" ++
      formatInt minted ++ bytes ", requested=" ++ formatInt coinAmt ++ bytes ")"))
  let totalCoin ← newCoin aeil coinAmt
  let coinsTotal ← newCoins [totalCoin]
  -- a tenth is the fee; it stays in the module account, and only the rest is sent
  let feeDec ← decMul (toDec coinAmt) (newDecWithPrec 1 1)
  let feeAmt ← truncateInt feeDec
  let feeCoin ← newCoin aeil feeAmt
  -- the fee's coin set is built and not used
  let _ ← newCoins [feeCoin]
  let userAmt ← intSub coinAmt feeAmt
  let userCoin ← newCoin aeil userAmt
  let userCoins ← newCoins [userCoin]
  let toAddr ← accAddressFromBech32 k.bankKeeper.bech32 to_
  let bank ← mintCoins k.bankKeeper coinsTotal s.bank
  let bank ← sendCoinsFromModuleToAccount k.bankKeeper ctx toAddr userCoins bank
  return ⟨setSupply k ⟨formatInt newTotal⟩ s.store, bank⟩

/-- `types.MsgBurnStableCoinResponse`. -/
structure BurnResponse where
  recRecords : List RECRecord
  recMetas : List RECMeta
  deriving DecidableEq, Repr

/-- The values that decode. -/
def decoded {α : Type} (unmarshal : V → Except GoString α) (values : List V) : List α :=
  values.filterMap fun v => (unmarshal v).toOption

/-- Step 2 of `BurnStableCoin`: give back `recToReturn` RECs. -/
def returnRecs (recToReturn : Int) (store : Store V) : Outcome (Store V × BurnResponse) :=
  if 0 < recToReturn then do
    let limit ← int64 recToReturn
    let (store, records, metas, returned) := deleteRecs limit store
    require (limit ≤ returned)
      (.error (bytes "[Burn] 담보 부족: 요청=" ++ formatInt limit ++ bytes ", 반환=" ++
        formatInt returned))
    return (store, ⟨decoded k.cdc.unmarshalRecord records, decoded k.cdc.unmarshalMeta metas⟩)
  else .ok (store, ⟨[], []⟩)

/-- The amount text with the stable denomination, unless it ends in it already. -/
def withAeilSuffix (amount : GoString) : GoString :=
  if aeil.isSuffixOf amount then amount else amount ++ aeil

/-- `BurnStableCoin`. -/
def burnStableCoin (target amount : GoString) (s : State V) :
    Outcome (State V × BurnResponse) := do
  let amount := withAeilSuffix amount
  let coin ←
    mapErr (fun err => bytes "[Burn] 잘못된 코인 형식: " ++ amount ++ bytes ", err: " ++ err)
      (parseCoinNormalized amount)
  let targetAddr ←
    mapErr (fun err => bytes "[Burn] 잘못된 주소 형식: " ++ target ++ bytes ", err: " ++ err)
      (accAddressFromBech32 k.bankKeeper.bech32 target)
  let coins ← newCoins [coin]
  -- the coins pass through the module account, which then burns them
  let bank ← sendCoinsFromAccountToModule k.bankKeeper ctx targetAddr coins s.bank
  let bank ← burnCoins k.bankKeeper ctx coins bank
  let recToReturn ← intQuo coin.amount 1000000
  let (store, resp) ← returnRecs k recToReturn s.store
  -- the issued total falls by the amount, whatever the denomination was
  let store ← lowerSupply k coin.amount store
  return (⟨store, bank⟩, resp)

/-- `BurnModuleStableCoins`. -/
def burnModuleStableCoins (s : State V) : Outcome (State V) :=
  let stableBalance := s.bank.balance k.bankKeeper.moduleAddr mcnl
  if stableBalance = 0 then .ok s
  else do
    -- the issued total of `aeil` falls by an amount of `mcnl`
    let coins ← newCoins [⟨mcnl, stableBalance⟩]
    let bank ← mapErr (bytes "[BurnModuleCoin] failed to burn: " ++ ·)
      (burnCoins k.bankKeeper ctx coins s.bank)
    let store ← lowerSupply k stableBalance s.store
    return ⟨store, bank⟩

/-- `DistributeRewardPercent`. -/
def distributeRewardPercent (msg : MsgDistributeRewardPercent) (s : State V) :
    Outcome (State V) := do
  let _ ← mapErr (bytes "invalid creator address: " ++ ·)
    (accAddressFromBech32 k.bankKeeper.bech32 msg.creator)
  -- `percent` is not read: the reward is always 10000aeil
  require (10000 ≤ s.bank.balance k.bankKeeper.moduleAddr aeil)
    (.error (bytes "module account has insufficient balance (< 10000aeil): insufficient funds"))
  let rewardCoin ← newCoin aeil 10000
  let rewardCoins ← newCoins [rewardCoin]
  let addr ← mapErr (fun _ => bytes "invalid recipient address: invalid address")
    (accAddressFromBech32 k.bankKeeper.bech32 msg.address)
  let bank ← sendCoinsFromModuleToAccount k.bankKeeper ctx addr rewardCoins s.bank
  return { s with bank := bank }

/-! ## Energy and REC records -/

/-- The number stored under a key, and zero if there is none or it does not decode. -/
def storedEnergy (key : GoString) (store : Store V) : Float64 :=
  match store.get key with
  | none => .fin 0
  | some bz => (k.cdc.unmarshalFloat bz).getD (.fin 0)

/-- The string list stored under `EnergyTxKey`, with whatever a failed decode left. -/
def storedTxList (store : Store V) : List GoString :=
  match store.get energyTxKey with
  | none => []
  | some bz => (k.cdc.unmarshalStrings bz).1

/-- `AddEnergy`. -/
def addEnergy (creator : GoString) (amountKwh : Float64) (txHash : GoString) (store : Store V) :
    Store V × Int :=
  -- the new total is stored before the RECs are taken off
  let total := (storedEnergy k totalEnergyKey store).add amountKwh
  let store := store.set totalEnergyKey (k.cdc.text total.format)
  let addrKey := energyByAddressKey creator
  let addrTotal := (storedEnergy k addrKey store).add amountKwh
  let store := store.set addrKey (k.cdc.text addrTotal.format)
  let txList := storedTxList k store ++ [txHash]
  let store := store.set energyTxKey (k.cdc.marshalStrings txList)
  let recs := (total.divConst 1000000).toInt64
  -- a negative total gives a negative count, which is returned but not taken off
  if 0 < recs then
    let remaining := total.sub (.ofInt (wrap64 (recs * 1000000)))
    (store.set totalEnergyKey (k.cdc.text remaining.format), recs)
  else (store, recs)

/-- The loop over `EnergyByAddressPrefix` that builds the contributor list. -/
def contributors (store : Store V) : List Contributor :=
  (store.select (inFamily .energyByAddress)).map fun (key, value) =>
    { address := key.drop Family.energyByAddress.root.length
      energyKwh := ((k.cdc.unmarshalFloat value).getD (.fin 0)).format }

/-- The identifier of the `i`-th record of a message: `fmt.Sprintf("rec-%d-%d", height, i)`. -/
def recID (i : Nat) : GoString :=
  bytes "rec-" ++ formatInt ctx.blockHeight ++ bytes "-" ++ formatNat i

/-- The record that `CreateRECRecord` stores in turn `i`. -/
def issuedRecord (i : Nat) (store : Store V) : RECRecord where
  recId := recID ctx i
  issuedAt := ctx.blockTime
  blockHeight := ctx.blockHeight
  totalEnergy := bytes "1000000"
  contributors := contributors k store
  sourceTx := storedTxList k store

/-- One turn of the loop of `CreateRECRecord`. -/
def issueRecord (store : Store V) (i : Nat) : Store V :=
  store.set (recRecordKey (recID ctx i)) (k.cdc.marshalRecord (issuedRecord k ctx i store))

/-- `CreateRECRecord`. -/
def createRECRecord (count : Int) (store : Store V) : Store V × List GoString :=
  let turns := List.range count.toNat
  (turns.foldl (issueRecord k ctx) store, turns.map (recID ctx))

/-! ## The list of transaction nodes -/

/-- `GetAllTxHashes`. -/
def getAllTxHashes (store : Store V) : List GoString :=
  match store.get energyTxKey with
  | none => []
  | some bz =>
      match k.cdc.unmarshalStrings bz with
      | (txList, true) => txList
      | (_, false) => []

/-- `resetEnergyStore`. -/
def resetEnergyStore (store : Store V) : Store V :=
  (store.deleteAll ((store.select (inFamily .energyByAddress)).map Prod.fst)).delete energyTxKey

/-- `AppendTxNode`. The node is stored before the tail is read. -/
def appendTxNode (node : TxNodeTx) (store : Store V) : Outcome (Store V) :=
  -- the hashes of the message are replaced by the stored ones
  let node := { node with txHashes := getAllTxHashes k store }
  let store := store.set (txNodeKey node.recId) (k.cdc.marshalNode node)
  match store.get txListHeadKey with
  | none =>
      let store := store.set txListHeadKey (k.cdc.text node.recId)
      let store := store.set txListTailKey (k.cdc.text node.recId)
      .ok (resetEnergyStore store)
  | some _ =>
      -- a missing tail key reads as the empty text
      let tail := ((store.get txListTailKey).map k.cdc.toText).getD []
      match store.get (txNodeKey tail) with
      | none => fail (bytes "tail node not found")
      | some tailNodeBz =>
          match k.cdc.unmarshalNode tailNodeBz with
          | .error err => fail err
          | .ok tailNode =>
              let tailNode := { tailNode with next := node.recId }
              let store := store.set (txNodeKey tail) (k.cdc.marshalNode tailNode)
              let store := store.set txListTailKey (k.cdc.text node.recId)
              .ok (resetEnergyStore store)

/-- The loop of the `TxNodeList` query from the key `cur` on, with at most `fuel` evaluations of its
condition, and with the key each node was read under. No result means that the loop has not ended
yet. -/
def txNodeWalk (store : Store V) :
    Nat → GoString → Option (Except GoString (List (GoString × TxNodeTx)))
  | 0, _ => none
  | fuel + 1, cur =>
      if cur = [] then some (.ok [])
      else
        match store.get (txNodeKey cur) with
        | none => some (.ok [])
        | some bz =>
            match k.cdc.unmarshalNode bz with
            | .error err => some (.error err)
            | .ok node =>
                (txNodeWalk store fuel node.next).map fun visits => visits.map ((cur, node) :: ·)

/-- The keys and nodes that the `TxNodeList` query visits. -/
def txNodeVisits (fuel : Nat) (store : Store V) :
    Option (Except GoString (List (GoString × TxNodeTx))) :=
  match store.get txListHeadKey with
  | none => some (.ok [])
  | some head => txNodeWalk k store fuel (k.cdc.toText head)

/-- The `TxNodeList` query. -/
def txNodeList (fuel : Nat) (store : Store V) : Option (Except GoString (List TxNodeTx)) :=
  (txNodeVisits k fuel store).map fun visits => visits.map (·.map Prod.snd)

end

end EnergyChain.Reward
