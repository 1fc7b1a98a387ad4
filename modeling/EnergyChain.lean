import EnergyChain.Go.Bytes
import EnergyChain.Go.BigInt
import EnergyChain.Go.Utf8
import EnergyChain.Go.Numeric
import EnergyChain.Go.Rounding
import EnergyChain.Go.Outcome
import EnergyChain.Go.Decode
import EnergyChain.Go.Json
import EnergyChain.Go.Flags
import EnergyChain.Go.Hex
import EnergyChain.Lib.SortedMap
import EnergyChain.Lib.Run
import EnergyChain.Lib.Ledger
import EnergyChain.Lib.LinkedList
import EnergyChain.Lib.Meter
import EnergyChain.Lib.Varint
import EnergyChain.Lib.Cursor
import EnergyChain.Sdk.Int
import EnergyChain.Sdk.Coin
import EnergyChain.Sdk.Address
import EnergyChain.Sdk.Panics
import EnergyChain.Proto.Wire
import EnergyChain.Proto.Message
import EnergyChain.Sdk.MsgData
import EnergyChain.Bank.Keeper
import EnergyChain.Bank.OneCoin
import EnergyChain.Reward.Types
import EnergyChain.Reward.Codec
import EnergyChain.Reward.Wire
import EnergyChain.Reward.Keeper
import EnergyChain.Reward.MsgServer
import EnergyChain.Reward.Effects
import EnergyChain.Reward.Amounts
import EnergyChain.Reward.Returns
import EnergyChain.Reward.Mint
import EnergyChain.Reward.Collateralisation
import EnergyChain.Reward.SupplyLedger
import EnergyChain.Reward.Redeem
import EnergyChain.Reward.Custody
import EnergyChain.Reward.FeePool
import EnergyChain.Reward.TxList
import EnergyChain.Reward.Decoding
import EnergyChain.Reward.Queries
import EnergyChain.Reward.Genesis
import EnergyChain.Reward.TxHistory
import EnergyChain.Reward.Issuance
import EnergyChain.Reward.Energy
import EnergyChain.Reward.Attribution
import EnergyChain.Reward.Contributors
import EnergyChain.Reward.KeyFamilies
import EnergyChain.Reward.Panics
import EnergyChain.Reward.Cli
import EnergyChain.LightTx.MsgServer
import EnergyChain.LightTx.Cli
import EnergyChain.Mapping.MsgServer
import EnergyChain.App.SimApp
import EnergyChain.App.Panics
import EnergyChain.Bridge.Consumer
import EnergyChain.Bridge.Votes
import EnergyChain.Bridge.Timers
import EnergyChain.Bridge.Recipient
import EnergyChain.Bridge.Broadcaster
import EnergyChain.Bridge.Sequence
import EnergyChain.Bridge.Worker
import EnergyChain.Bridge.Settlement
import EnergyChain.Bridge.Liquidation
import EnergyChain.Lib.Redelivery
import EnergyChain.Bridge.BurnConsumer
import EnergyChain.Bridge.RecIds
import EnergyChain.Bridge.Collateral
import EnergyChain.Bridge.BurnResult
import EnergyChain.Lib.Overlay
import EnergyChain.Store.CacheKV
import EnergyChain.Store.DirtyItems
import EnergyChain.Store.Layer
import EnergyChain.Store.MergeIterator
import EnergyChain.Store.Refinement
import EnergyChain.Store.DeleteLoops
import EnergyChain.Store.Branch
import EnergyChain.BaseApp.BlockStates
import EnergyChain.Auth.Tx
import EnergyChain.Sdk.GasPrices
import EnergyChain.Auth.Ante
import EnergyChain.Auth.Mempool
import EnergyChain.BaseApp.RunTx
import EnergyChain.BaseApp.Coins
import EnergyChain.BaseApp.NodeRuns
