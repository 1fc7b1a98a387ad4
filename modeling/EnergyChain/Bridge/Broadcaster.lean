import EnergyChain.Bridge.Consumer
import EnergyChain.Reward.Types

/-!
# The transaction senders of the bridge

Six functions sign transactions with the node's key. They share the cached account number and
sequence: `seqCache` is the sequence used last, the next call increments it before use, and a failed
call reads the account again and sets it one below what it read. All six hold `cliLock`, so a call is
one step.

What the chain and the client library do is scripted: `Stages` says which stage of a call fails and
what the chain makes of the transaction. The chain accepts a transaction only with the account's own
sequence, and the sequence then grows by one, whether or not the messages succeed. Gas and fees are
left out: nothing depends on them.
-/

set_option autoImplicit false

namespace EnergyChain.Bridge

open EnergyChain.Go

/-- What the senders use of `client.Context`: whether a transaction configuration and a keyring are
set, and the name and the address text of the key (empty if not set). -/
structure ClientCtx where
  txConfig : Bool
  keyring : Bool
  fromName : GoString
  fromAddress : GoString

/-- `accNumCache`, `seqCache`, `cacheInitialized`. -/
structure SeqCache where
  accNumCache : UInt64
  seqCache : UInt64
  cacheInitialized : Bool
  deriving DecidableEq

/-- The account of the key on chain. -/
structure Account where
  number : UInt64
  sequence : Nat
  deriving DecidableEq

/-- A message of a transaction: a light transaction or a message of the reward module. -/
inductive ChainMsg where
  | light (creator : GoString) (msg : LightTxMessage)
  | reward (msg : Reward.Msg)
  deriving DecidableEq

/-- The globals of the senders and what they see of the chain. -/
structure Session where
  cache : SeqCache
  account : Account
  /-- the messages of the transactions whose messages all succeeded, in order -/
  executed : List ChainMsg
  deriving DecidableEq

/-- What the senders read of an `sdk.TxResponse`: the `recs` and `contributors` attributes of the
`add_energy` event, the `rec_id` attributes and the decoded response of a burn are given as such. -/
structure TxResponse where
  code : Nat
  txHash : GoString
  rawLog : GoString
  recs : Int
  contributors : List Reward.Contributor
  recIDs : List GoString
  recRecords : List Reward.RECRecord
  recMetas : List Reward.RECMeta
  deriving DecidableEq

/-- What becomes of a transaction that is broadcast. `code` of the response counts only if it failed,
and is then one more. -/
structure Verdict where
  /-- the chain takes the transaction, if its sequence is right -/
  accepts : Bool
  /-- its messages succeed -/
  executes : Bool
  /-- `BroadcastTxCommit` returns an error and no response -/
  transportErr : Option GoString
  response : TxResponse
  deriving DecidableEq

/-- How the stages of a call end: the error of each stage, if it fails. -/
structure Stages where
  query : Option GoString
  setMsgs : Option GoString
  simulate : Option GoString
  sign : Option GoString
  encode : Option GoString
  verdict : Verdict
  deriving DecidableEq

/-- The error texts of a sender, each without what follows it. -/
structure Texts where
  query : GoString
  setMsgs : GoString
  simulate : GoString
  sign : GoString
  encode : GoString
  broadcast : GoString
  deliver : GoString
  log : GoString

/-- The texts that five of the six senders share, after their label. -/
def commonTexts (label : GoString) : Texts where
  query := label ++ bytes " AccountRetriever 실패: "
  setMsgs := label ++ bytes " SetMsgs 실패: "
  simulate := label ++ bytes " 가스 계산 실패: "
  sign := label ++ bytes " 서명 실패: "
  encode := label ++ bytes " 인코딩 실패: "
  broadcast := label ++ bytes " 브로드캐스트 실패: "
  deliver := label ++ bytes " DeliverTx 실패: code="
  log := bytes " log="

def bltTexts : Texts where
  query := bytes "[BLT] 초기 AccountRetriever 실패: "
  setMsgs := bytes "[BLT] failed to set msgs: "
  simulate := bytes "[BLT] failed to simulate gas: "
  sign := bytes "[BLT] failed to sign tx: "
  encode := bytes "[BLT] failed to encode tx: "
  broadcast := bytes "[BLT] broadcast failed: "
  deliver := bytes "[BLT] deliverTx failed: code="
  log := bytes " raw_log="

/-- The error of a call, and the response if there was one. -/
structure SendError where
  text : GoString
  res : Option TxResponse

/-! ## The common part -/

/-- The sequence step: the first call reads the account, a later one takes the next sequence. -/
def nextSequence (texts : Texts) (st : Stages) (s : Session) : Except GoString Session :=
  if s.cache.cacheInitialized then
    .ok { s with cache := { s.cache with seqCache := s.cache.seqCache + 1 } }
  else
    match st.query with
    | some err => .error (texts.query ++ err)
    | none =>
        -- the cache is marked as initialised before the transaction is known to succeed
        .ok { s with cache := ⟨s.account.number, UInt64.ofNat s.account.sequence, true⟩ }

/-- `seqCache = forceSyncAccountSequence(clientCtx)`: one below what the account says, or unchanged if
it cannot be read. -/
def forceSyncAccountSequence (st : Stages) (s : Session) : Session :=
  match st.query with
  | some _ => s
  | none =>
      { s with cache := { s.cache with
          accNumCache := s.account.number
          seqCache := UInt64.ofNat s.account.sequence - 1 } }

/-- `BroadcastTxCommit` of a transaction signed with the cached sequence. -/
def broadcastTxCommit (msgs : List ChainMsg) (verdict : Verdict) (s : Session) :
    Session × Except GoString TxResponse :=
  let accepted := verdict.accepts && s.cache.seqCache == UInt64.ofNat s.account.sequence
  -- an accepted transaction uses up its sequence, also if its messages fail
  let succeeded := accepted && verdict.executes
  let s := { s with
    account := if accepted then { s.account with sequence := s.account.sequence + 1 } else s.account
    executed := if succeeded then s.executed ++ msgs else s.executed }
  match verdict.transportErr with
  -- the transaction may be on the chain although the response is lost
  | some err => (s, .error err)
  | none =>
      (s, .ok { verdict.response with code := if succeeded then 0 else verdict.response.code + 1 })

/-- A call from the gas simulation on. Every exit but success resynchronises. -/
def signAndSend (texts : Texts) (msgs : List ChainMsg) (st : Stages) (s : Session) :
    Session × Except SendError TxResponse :=
  match st.simulate, st.sign, st.encode with
  | some err, _, _ => (forceSyncAccountSequence st s, .error ⟨texts.simulate ++ err, none⟩)
  | none, some err, _ => (forceSyncAccountSequence st s, .error ⟨texts.sign ++ err, none⟩)
  | none, none, some err => (forceSyncAccountSequence st s, .error ⟨texts.encode ++ err, none⟩)
  | none, none, none =>
      match broadcastTxCommit msgs st.verdict s with
      | (s, .error err) => (forceSyncAccountSequence st s, .error ⟨texts.broadcast ++ err, none⟩)
      | (s, .ok res) =>
          if res.code ≠ 0 then
            (forceSyncAccountSequence st s,
              .error ⟨texts.deliver ++ formatNat res.code ++ texts.log ++ res.rawLog, some res⟩)
          else (s, .ok res)

/-- A sender of one message that builds the transaction before the sequence step. -/
def cachedSend (texts : Texts) (msg : Reward.Msg) (st : Stages) (s : Session) :
    Session × Except SendError TxResponse :=
  match st.setMsgs with
  | some err => (s, .error ⟨texts.setMsgs ++ err, none⟩)
  | none =>
      match nextSequence texts st s with
      | .error text => (s, .error ⟨text, none⟩)
      | .ok s => signAndSend texts [.reward msg] st s

/-! ## The senders -/

/-- The amount of a report: `int64(math.Round(power))`. -/
def wattHours (power : Float64) : Int := power.mathRound.toInt64

/-- The light message: the solar data if there is any, otherwise the REC. -/
def lightMsg (ctx : ClientCtx) (msg : LightTxMessage) : ChainMsg :=
  .light ctx.fromAddress (if msg.original.isSome then { msg with recMeta := none } else msg)

/-- `BroadcastLightTxWithReward`: the transaction hash and the error. It builds its messages after the
sequence step, and the exit for a message without a payload does not resynchronise. -/
def broadcastLightTxWithReward (ctx : ClientCtx) (msg : LightTxMessage) (addr : GoString)
    (power : Float64) (st : Stages) (s : Session) : Session × GoString × Option GoString :=
  if !ctx.txConfig then (s, [], some (bytes "[BLT] clientCtx.TxConfig is nil"))
  else if !ctx.keyring then (s, [], some (bytes "[BLT] clientCtx.Keyring is nil"))
  else if ctx.fromName = [] ∨ ctx.fromAddress = [] then
    (s, [], some (bytes "[BLT] clientCtx.FromName/FromAddress not set"))
  else if power.nonpos then (s, [], some (bytes "[BLT] 보상할 발전량이 없습니다"))
  else
    match nextSequence bltTexts st s with
    | .error text => (s, [], some text)
    | .ok s =>
        if msg.original.isNone && msg.recMeta.isNone then
          -- the sequence has been taken and is not given back
          (s, [], some (bytes "[BLT] no valid LightTx data"))
        else
          match st.setMsgs with
          | some err => (forceSyncAccountSequence st s, [], some (bltTexts.setMsgs ++ err))
          | none =>
              let rewardMsg : Reward.Msg :=
                .rewardSolarPower ⟨ctx.fromAddress, addr, formatInt (wattHours power)⟩
              match signAndSend bltTexts [lightMsg ctx msg, .reward rewardMsg] st s with
              | (s, .ok res) => (s, res.txHash, none)
              | (s, .error err) => (s, (err.res.map (·.txHash)).getD [], some err.text)

/-- The log that comes with an error. -/
def SendError.rawLog (err : SendError) : GoString := (err.res.map (·.rawLog)).getD []

/-- `AddEnergyCLI`: the RECs, the contributors, the log and the error. -/
def addEnergyCLI (ctx : ClientCtx) (toAddr : GoString) (whAmt : Int) (txHash : GoString)
    (st : Stages) (s : Session) :
    Session × Int × List Reward.Contributor × GoString × Option GoString :=
  match cachedSend (commonTexts (bytes "[AddEnergyCLI]"))
    (.addEnergy ⟨ctx.fromAddress, toAddr, formatInt whAmt, txHash⟩) st s with
  | (s, .ok res) => (s, res.recs, res.contributors, res.rawLog, none)
  | (s, .error err) => (s, 0, [], err.rawLog, some err.text)

/-- `CreateRECRecordCLI`: the record ids and the error. -/
def createRECRecordCLI (ctx : ClientCtx) (count : Int) (st : Stages) (s : Session) :
    Session × List GoString × Option GoString :=
  match cachedSend (commonTexts (bytes "[CreateRECRecord]"))
    (.createRECRecord ⟨ctx.fromAddress, count⟩) st s with
  | (s, .ok res) => (s, res.recIDs, none)
  | (s, .error err) => (s, [], some err.text)

/-- `CreateBlockCLI`: the transaction hash, or the log, and the error. -/
def createBlockCLI (ctx : ClientCtx) (nodeCreator recID : GoString) (st : Stages) (s : Session) :
    Session × GoString × Option GoString :=
  match cachedSend (commonTexts (bytes "[CreateBlockCLI]"))
    (.appendTxHash ⟨ctx.fromAddress, [], nodeCreator, recID, []⟩) st s with
  | (s, .ok res) => (s, res.txHash, none)
  | (s, .error err) => (s, err.rawLog, some err.text)

/-- `BlockCreatorRewardPercentCLI`: the transaction hash, or the log, and the error. -/
def blockCreatorRewardPercentCLI (ctx : ClientCtx) (address percent : GoString) (st : Stages)
    (s : Session) : Session × GoString × Option GoString :=
  match cachedSend (commonTexts (bytes "[BlockCreatorReward]"))
    (.distributeRewardPercent ⟨ctx.fromAddress, address, percent⟩) st s with
  | (s, .ok res) => (s, res.txHash, none)
  | (s, .error err) => (s, err.rawLog, some err.text)

/-- `BurnResultMessage`. -/
structure BurnResultMessage where
  address : GoString
  status : GoString
  txHash : GoString
  recRecords : List Reward.RECRecord
  recMetas : List Reward.RECMeta
  errorReason : GoString

/-- `BurnStableCoinCLI`: the result message, if there is one, and the error. -/
def burnStableCoinCLI (ctx : ClientCtx) (targetAddr amount : GoString) (st : Stages) (s : Session) :
    Session × Option BurnResultMessage × Option GoString :=
  -- `strings.Contains`, where the keeper asks for a suffix
  let amount := if bytes "aeil" <:+: amount then amount else amount ++ bytes "aeil"
  match cachedSend (commonTexts (bytes "[BurnStableCoinCLI]"))
    (.burnStableCoin ⟨ctx.fromAddress, targetAddr, amount⟩) st s with
  | (s, .ok res) =>
      (s, some ⟨targetAddr, bytes "success", res.txHash, res.recRecords, res.recMetas, []⟩, none)
  | (s, .error err) =>
      (s, err.res.map fun res => ⟨targetAddr, bytes "failed", res.txHash, [], [],
        bytes "DeliverTx 실패: code=" ++ formatNat res.code ++ bytes " log=" ++ res.rawLog⟩,
        some err.text)

end EnergyChain.Bridge
