import EnergyChain.Bank.Keeper
import EnergyChain.Go.Utf8
import EnergyChain.Lib.SortedMap

/-!
# The types of the reward module

The stored records, the store keys, and the nine messages of `x/reward` with their stateless checks
(`ValidateBasic`) and their signers.

Every store key starts with the root of one of nine families. No root is a prefix of another, so a
key belongs to at most one family (`inFamily_unique`), whatever text follows the root.
-/

set_option autoImplicit false

namespace EnergyChain.Reward

open EnergyChain.Go
open EnergyChain.Sdk

/-! ## Stored records -/

/-- `types.Supply`. -/
structure Supply where
  minted : GoString
  deriving DecidableEq, Repr

/-- `types.Contributor`. -/
structure Contributor where
  address : GoString
  energyKwh : GoString
  deriving DecidableEq, Repr

/-- `types.RECRecord`. -/
structure RECRecord where
  recId : GoString
  issuedAt : GoString
  blockHeight : Int
  totalEnergy : GoString
  contributors : List Contributor
  sourceTx : List GoString
  deriving DecidableEq, Repr

/-- `types.RECMeta`. -/
structure RECMeta where
  facilityId : GoString
  facilityName : GoString
  location : GoString
  technologyType : GoString
  capacityMw : GoString
  registrationDate : GoString
  certifiedId : GoString
  issueDate : GoString
  generationStartDate : GoString
  generationEndDate : GoString
  measuredVolumeMwh : GoString
  retiredDate : GoString
  retirementPurpose : GoString
  status : GoString
  timestamp : GoString
  deriving DecidableEq, Repr

/-- `types.TxNodeTx`. -/
structure TxNodeTx where
  txHashes : List GoString
  creator : GoString
  recId : GoString
  next : GoString
  deriving DecidableEq, Repr

/-- A node after `json.Marshal` and `json.Unmarshal`. -/
def TxNodeTx.throughJson (node : TxNodeTx) : TxNodeTx where
  txHashes := node.txHashes.map jsonText
  creator := jsonText node.creator
  recId := jsonText node.recId
  next := jsonText node.next

/-! ## Store keys -/

/-- The families of keys in the reward store. -/
inductive Family where
  | supply
  | totalEnergy
  | energyTx
  | energyByAddress
  | recRecord
  | recMeta
  | txListHead
  | txListTail
  | txNode
  deriving DecidableEq, Repr

/-- The text every key of the family starts with; for the families of one key, the key itself. -/
def Family.root : Family → GoString
  | .supply => bytes "supply"
  | .totalEnergy => bytes "total_energy"
  | .energyTx => bytes "EnergyTx_Key"
  | .energyByAddress => bytes "EnergyByAddress/"
  | .recRecord => bytes "rec_record/"
  | .recMeta => bytes "rec_meta/"
  | .txListHead => bytes "TxListHead"
  | .txListTail => bytes "TxListTail"
  | .txNode => bytes "TxNode/"

/-- The key starts with the root of the family. -/
def inFamily (f : Family) (key : GoString) : Bool := f.root.isPrefixOf key

/-- `types.SupplyKey`. -/
def supplyKey : GoString := Family.supply.root

/-- `types.TotalEnergyKey`. -/
def totalEnergyKey : GoString := Family.totalEnergy.root

/-- `types.EnergyTxKey`. -/
def energyTxKey : GoString := Family.energyTx.root

/-- `fmt.Sprintf("%s/%s", types.EnergyByAddressPrefix, creator)`: the prefix ends in a slash itself,
so the key has two. -/
def energyByAddressKey (creator : GoString) : GoString :=
  Family.energyByAddress.root ++ bytes "/" ++ creator

/-- `fmt.Sprintf("%s/%s", types.RecRecordKey, recId)`. -/
def recRecordKey (recId : GoString) : GoString := Family.recRecord.root ++ recId

/-- `fmt.Sprintf("%s/%s", types.RecMetaKey, certifiedId)`. -/
def recMetaKey (certifiedId : GoString) : GoString := Family.recMeta.root ++ certifiedId

/-- `types.TxListHeadKey`. -/
def txListHeadKey : GoString := Family.txListHead.root

/-- `types.TxListTailKey`. -/
def txListTailKey : GoString := Family.txListTail.root

/-- `fmt.Sprintf("%s%s", types.TxNodePrefix, recId)`. -/
def txNodeKey (recId : GoString) : GoString := Family.txNode.root ++ recId

theorem inFamily_iff {f : Family} {key : GoString} : inFamily f key = true ↔ f.root <+: key :=
  List.isPrefixOf_iff_prefix

@[simp]
theorem inFamily_root (f : Family) : inFamily f f.root = true :=
  inFamily_iff.2 (List.prefix_refl _)

@[simp]
theorem inFamily_root_append (f : Family) (rest : GoString) :
    inFamily f (f.root ++ rest) = true := inFamily_iff.2 (List.prefix_append _ _)

/-- A key belongs to at most one family. -/
theorem inFamily_unique {f g : Family} {key : GoString} (hf : inFamily f key = true)
    (hg : inFamily g key = true) : f = g := by
  -- two prefixes of one key are prefixes of each other, and no root is a prefix of another
  have hroots : ∀ f g : Family, f.root <+: g.root → f = g := by
    intro f g h
    rw [← List.isPrefixOf_iff_prefix] at h
    revert h
    cases f <;> cases g <;> decide
  rcases List.prefix_or_prefix_of_prefix (inFamily_iff.1 hf) (inFamily_iff.1 hg) with h | h
  · exact hroots f g h
  · exact (hroots g f h).symm

theorem inFamily_eq_false {f g : Family} {key : GoString} (hf : inFamily f key = true)
    (hne : g ≠ f) : inFamily g key = false := by
  rw [Bool.eq_false_iff]
  exact fun hg => hne (inFamily_unique hg hf)

theorem inFamily_energyByAddressKey (creator : GoString) :
    inFamily .energyByAddress (energyByAddressKey creator) = true := by
  rw [energyByAddressKey, List.append_assoc]
  exact inFamily_root_append _ _

theorem energyByAddressKey_injective {a b : GoString}
    (h : energyByAddressKey a = energyByAddressKey b) : a = b :=
  List.append_cancel_left h

/-- A key of another family is not the key of a family of one. -/
theorem ne_root_of_inFamily {f g : Family} {key : GoString} (hkey : inFamily g key = true)
    (hf : f ≠ g) : key ≠ f.root := by
  rintro rfl
  exact hf (inFamily_unique (inFamily_root f) hkey)

theorem recRecordKey_injective {a b : GoString} (h : recRecordKey a = recRecordKey b) : a = b :=
  List.append_cancel_left h

theorem txNodeKey_injective {a b : GoString} (h : txNodeKey a = txNodeKey b) : a = b :=
  List.append_cancel_left h

/-! ## Messages -/

/-- `types.MsgRewardSolarPower`. -/
structure MsgRewardSolarPower where
  creator : GoString
  address : GoString
  amount : GoString
  deriving DecidableEq, Repr

/-- `types.MsgBurnStableCoin`. -/
structure MsgBurnStableCoin where
  creator : GoString
  targetAddr : GoString
  amount : GoString
  deriving DecidableEq, Repr

/-- `types.MsgBurnModuleStable`. -/
structure MsgBurnModuleStable where
  creator : GoString
  amount : GoString
  deriving DecidableEq, Repr

/-- The `rec_type` of a deposit. -/
inductive RecType where
  | recRecord (rec : RECRecord)
  | recMeta (recMeta : RECMeta)
  deriving DecidableEq, Repr

/-- `types.MsgDepositCollateral`. -/
structure MsgDepositCollateral where
  creator : GoString
  recType : Option RecType
  deriving DecidableEq, Repr

/-- `types.MsgRemoveCollateral`. -/
structure MsgRemoveCollateral where
  creator : GoString
  amount : GoString
  deriving DecidableEq, Repr

/-- `types.MsgAddEnergy`; `toAddr` is its field `To`. -/
structure MsgAddEnergy where
  creator : GoString
  toAddr : GoString
  amount : GoString
  txHash : GoString
  deriving DecidableEq, Repr

/-- `types.MsgCreateRECRecord`. -/
structure MsgCreateRECRecord where
  creator : GoString
  count : Int
  deriving DecidableEq, Repr

/-- `types.MsgAppendTxHash`. -/
structure MsgAppendTxHash where
  creator : GoString
  txHashes : List GoString
  nodeCreator : GoString
  recId : GoString
  next : GoString
  deriving DecidableEq, Repr

/-- `types.MsgDistributeRewardPercent`. -/
structure MsgDistributeRewardPercent where
  creator : GoString
  address : GoString
  percent : GoString
  deriving DecidableEq, Repr

/-- The nine messages of the module. -/
inductive Msg where
  | rewardSolarPower (msg : MsgRewardSolarPower)
  | burnStableCoin (msg : MsgBurnStableCoin)
  | burnModuleStable (msg : MsgBurnModuleStable)
  | depositCollateral (msg : MsgDepositCollateral)
  | removeCollateral (msg : MsgRemoveCollateral)
  | addEnergy (msg : MsgAddEnergy)
  | createRECRecord (msg : MsgCreateRECRecord)
  | appendTxHash (msg : MsgAppendTxHash)
  | distributeRewardPercent (msg : MsgDistributeRewardPercent)
  deriving DecidableEq, Repr

/-- The creator field, which every message has. -/
def Msg.creator : Msg → GoString
  | .rewardSolarPower msg => msg.creator
  | .burnStableCoin msg => msg.creator
  | .burnModuleStable msg => msg.creator
  | .depositCollateral msg => msg.creator
  | .removeCollateral msg => msg.creator
  | .addEnergy msg => msg.creator
  | .createRECRecord msg => msg.creator
  | .appendTxHash msg => msg.creator
  | .distributeRewardPercent msg => msg.creator

/-- `GetSigners`, which is the same for all nine messages: the decoded creator, and a panic if it
does not decode. -/
def Msg.getSigners (lib : Bech32) (msg : Msg) : Outcome (List AccAddress) := do
  let creator ← panicOnErr id (accAddressFromBech32 lib msg.creator)
  return [creator]

/-- An address check of `ValidateBasic`, with the text around the error. -/
def checkAddress (lib : Bech32) (address : GoString) (wrap : GoString → GoString) : Outcome Unit := do
  let _ ← mapErr wrap (accAddressFromBech32 lib address)
  return ()

/-- `sdkerrors.Wrapf(sdkerrors.ErrInvalidAddress, label + " (%s)", err)`. -/
def invalidAddress (label : String) (err : GoString) : GoString :=
  bytes label ++ bytes " (" ++ err ++ bytes "): invalid address"

/-- `sdkerrors.Wrapf(sdkerrors.ErrInvalidAddress, "invalid creator: %s", err)`. -/
def invalidCreator (err : GoString) : GoString :=
  bytes "invalid creator: " ++ err ++ bytes ": invalid address"

def MsgRewardSolarPower.validateBasic (lib : Bech32) (msg : MsgRewardSolarPower) :
    Outcome Unit := do
  checkAddress lib msg.creator id
  checkAddress lib msg.address id

def MsgBurnStableCoin.validateBasic (lib : Bech32) (msg : MsgBurnStableCoin) : Outcome Unit := do
  checkAddress lib msg.creator (invalidAddress "invalid creator address")
  require (msg.amount ≠ []) (.error (bytes "amount cannot be empty: invalid request"))

def MsgBurnModuleStable.validateBasic (lib : Bech32) (msg : MsgBurnModuleStable) :
    Outcome Unit := do
  checkAddress lib msg.creator (invalidAddress "invalid creator address")
  require (msg.amount ≠ []) (.error (bytes "amount cannot be empty: invalid coins"))
  require ((newIntFromString msg.amount).isSome = true)
    (.error (bytes "amount must be an integer string: invalid coins"))

/-- A `oneof` holds at most one of the two payloads, so the check for both never fires. -/
def MsgDepositCollateral.validateBasic (lib : Bech32) (msg : MsgDepositCollateral) :
    Outcome Unit := do
  checkAddress lib msg.creator (invalidAddress "invalid creator address")
  require (msg.recType.isSome = true)
    (.error (bytes "either rec_record or rec_meta must be provided: invalid request"))

def MsgRemoveCollateral.validateBasic (lib : Bech32) (msg : MsgRemoveCollateral) :
    Outcome Unit := do
  checkAddress lib msg.creator id
  require (msg.amount ≠ []) (.error (bytes "amount cannot be empty"))

def MsgAddEnergy.validateBasic (lib : Bech32) (msg : MsgAddEnergy) : Outcome Unit := do
  checkAddress lib msg.creator invalidCreator
  require (msg.amount ≠ []) (.error (bytes "amount required: invalid request"))

def MsgCreateRECRecord.validateBasic (lib : Bech32) (msg : MsgCreateRECRecord) : Outcome Unit := do
  checkAddress lib msg.creator invalidCreator
  require (0 < msg.count) (.error (bytes "count must be > 0: invalid request"))

def MsgAppendTxHash.validateBasic (lib : Bech32) (msg : MsgAppendTxHash) : Outcome Unit := do
  checkAddress lib msg.creator (bytes "invalid creator address: " ++ ·)
  require (msg.nodeCreator ≠ []) (.error (bytes "node_creator cannot be empty"))
  require (msg.recId ≠ []) (.error (bytes "rec_id cannot be empty"))

def MsgDistributeRewardPercent.validateBasic (lib : Bech32) (msg : MsgDistributeRewardPercent) :
    Outcome Unit := do
  checkAddress lib msg.creator (invalidAddress "invalid creator address")
  checkAddress lib msg.address (invalidAddress "invalid recipient address")
  require (msg.percent ≠ []) (.error (bytes "percent cannot be empty: invalid request"))
  let per ←
    mapErr (fun _ => bytes "invalid percent format: invalid request") (newDecFromStr msg.percent)
  require (0 < per ∧ per ≤ toDec 1)
    (.error (bytes "percent must be between 0 and 1: invalid request"))

/-- `ValidateBasic`. -/
def Msg.validateBasic (lib : Bech32) : Msg → Outcome Unit
  | .rewardSolarPower msg => msg.validateBasic lib
  | .burnStableCoin msg => msg.validateBasic lib
  | .burnModuleStable msg => msg.validateBasic lib
  | .depositCollateral msg => msg.validateBasic lib
  | .removeCollateral msg => msg.validateBasic lib
  | .addEnergy msg => msg.validateBasic lib
  | .createRECRecord msg => msg.validateBasic lib
  | .appendTxHash msg => msg.validateBasic lib
  | .distributeRewardPercent msg => msg.validateBasic lib

end EnergyChain.Reward
