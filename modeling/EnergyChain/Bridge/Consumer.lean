import Mathlib.Logic.Function.Basic
import EnergyChain.Go.Decode
import EnergyChain.Go.Outcome
import EnergyChain.Lib.Run

/-!
# The vote consumer of the bridge

The full node reads light-transaction votes from Kafka, collects the votes of one hash for three
seconds, and then puts one reward task on `TxQueue`. Three goroutines share the maps: the vote
consumer and the timers take `VoteMutex`, the device-address consumer does not, and a timer reads
`DeviceID` and `deviceAddressMap` after it has released the lock.

The model is a transition function over the shared maps and the timers in each of their phases:
sleeping, collected (the lock is released), waiting (the address is known and the send on `TxQueue`
is pending). Each event is one stretch of code that no other goroutine can observe half done, so
every interleaving of the goroutines is a list of events. An event that is not enabled changes
nothing. The capacity of `TxQueue` only delays a send, which here happens at any later time.
-/

set_option autoImplicit false

namespace EnergyChain.Bridge

open EnergyChain.Go

/-! ## Messages -/

structure Location where
  latitude : Float64
  longitude : Float64
  deriving DecidableEq

structure SolarData where
  deviceID : GoString
  timestamp : GoString
  totalEnergy : Float64
  location : Location
  deriving DecidableEq

structure RECMeta where
  facilityID : GoString
  facilityName : GoString
  location : GoString
  technologyType : GoString
  capacityMW : GoString
  registrationDate : GoString
  certifiedId : GoString
  issueDate : GoString
  generationStartDate : GoString
  generationEndDate : GoString
  measuredVolumeMWh : GoString
  retiredDate : GoString
  retirementPurpose : GoString
  status : GoString
  timestamp : GoString
  deriving DecidableEq

structure LightTxMessage where
  original : Option SolarData
  recMeta : Option RECMeta
  hash : GoString
  signature : GoString
  pubkey : GoString
  deriving DecidableEq

structure DeviceToAddressMessage where
  deviceID : GoString
  address : GoString
  senderID : GoString
  deriving DecidableEq

/-- `config.FullnodeID`. -/
def fullnodeID : GoString := bytes "node_A"

/-- What `PubKeyToAddress` uses of other packages. -/
structure AddressLib where
  sha256 : GoString → GoString
  ripemd160 : GoString → GoString
  /-- `bech32.ConvertBits` from groups of 8 to groups of 5 bits, padded. -/
  convertBits : GoString → Outcome GoString
  /-- `bech32.Encode`. -/
  encode : GoString → GoString → Outcome GoString

def pubKeyToAddress (lib : AddressLib) (pubKeyBytes : GoString) : Outcome GoString := do
  let pubKeyHash := lib.ripemd160 (lib.sha256 pubKeyBytes)
  let converted ← lib.convertBits pubKeyHash
  lib.encode (bytes "cosmos") converted

/-! ## State -/

/-- A vote of the map: the message and the address of its signer. -/
structure SignatureEntry where
  txMsg : LightTxMessage
  address : GoString
  deriving DecidableEq

/-- A timer that has taken the votes of its hash out of the map and released the lock. -/
structure Collected where
  txMsg : LightTxMessage
  uniqueList : List GoString
  deriving DecidableEq

/-- A reward task: the arguments of `BroadcastLightTxWithReward`. -/
structure Task where
  txMsg : LightTxMessage
  userAddress : GoString
  power : Float64
  deriving DecidableEq

structure State where
  /-- hash to votes; an absent key reads as no votes -/
  voteMap : GoString → List SignatureEntry
  /-- hash to device id; an absent key reads as the empty string -/
  deviceID : GoString → GoString
  /-- device id to address -/
  deviceAddressMap : GoString → Option GoString
  /-- the hashes of the timers that sleep -/
  timers : List GoString
  collected : List Collected
  /-- the tasks whose send on `TxQueue` is pending -/
  waiting : List Task
  /-- every task put on `TxQueue`, in order -/
  txQueue : List Task
  /-- the address requests sent -/
  requests : List DeviceToAddressMessage
  /-- the validator lists sent, each with the hash it was collected for -/
  validators : List (GoString × List GoString)

/-- The bridge before the first message. -/
def State.init : State := ⟨fun _ => [], fun _ => [], fun _ => none, [], [], [], [], [], []⟩

/-! ## Votes -/

/-- `for len(txMsg.Pubkey)%4 != 0 { txMsg.Pubkey += "=" }`. -/
def padPubkey (pubkey : GoString) : GoString :=
  pubkey ++ List.replicate ((4 - pubkey.length % 4) % 4) 61

/-- The part of `ConsumeClaim` before the lock: the vote to record, if the key of the message is
usable. -/
def checkVote (lib : AddressLib) (txMsg : LightTxMessage) : Option SignatureEntry := do
  -- the padded key is what the vote stores
  let txMsg := { txMsg with pubkey := padPubkey txMsg.pubkey }
  let pubkeyBytes ← decodeString txMsg.pubkey
  guard (pubkeyBytes.length = 33)
  let address ← (pubKeyToAddress lib pubkeyBytes).toOption
  some ⟨txMsg, address⟩

/-- The device id a message carries: that of its solar data, or else the facility id of its REC. -/
def carriedID (txMsg : LightTxMessage) : Option GoString :=
  match txMsg.original.map (·.deviceID), txMsg.recMeta.map (·.facilityID) with
  -- an empty id counts as none
  | some (b :: id), _ => some (b :: id)
  | _, some (b :: id) => some (b :: id)
  | _, _ => none

/-- The part of `ConsumeClaim` under the lock. The first vote of a hash asks for the address of its
device and starts a timer. -/
def recordVote (s : State) (entry : SignatureEntry) : State :=
  let hash := entry.txMsg.hash
  let entries := s.voteMap hash ++ [entry]
  -- every vote with an id overwrites the one before it
  let deviceID := match carriedID entry.txMsg with
    | some id => Function.update s.deviceID hash id
    | none => s.deviceID
  let recorded := { s with
    voteMap := Function.update s.voteMap hash entries
    deviceID := deviceID }
  if entries.length = 1 then
    { recorded with
      requests := s.requests ++ [⟨deviceID hash, [], fullnodeID⟩]
      timers := hash :: s.timers }
  else recorded

/-- One round of the loop of `ConsumeClaim`; `none` is a message `json.Unmarshal` rejects. -/
def consumeClaim (lib : AddressLib) (s : State) (msg : Option LightTxMessage) : State :=
  match msg.bind (checkVote lib) with
  | some entry => recordVote s entry
  | none => s

/-! ## Timers -/

/-- The distinct signers of the votes. A Go map hands them out in some order. -/
def uniqueAddresses (entries : List SignatureEntry) : List GoString :=
  (entries.map (·.address)).dedup

/-- `startVoteTimer` from the end of its sleep to the release of the lock. -/
def collectVotes (s : State) (hash : GoString) : State :=
  if hash ∈ s.timers then
    let woken := { s with timers := s.timers.erase hash }
    match s.voteMap hash with
    | [] => woken
    | first :: rest =>
        -- the first vote stands for all of them
        { woken with
          voteMap := Function.update s.voteMap hash []
          collected := ⟨first.txMsg, uniqueAddresses (first :: rest)⟩ :: s.collected }
  else s

/-- The energy a message reports, in Wh. -/
def power (txMsg : LightTxMessage) : Float64 :=
  match txMsg.original, txMsg.recMeta with
  | some original, _ => original.totalEnergy
  | none, some recMeta => ((parseFloat recMeta.measuredVolumeMWh).getD (.fin 0)).mul (.fin 1000000)
  | none, none => .fin 0

/-- `startVoteTimer` after the lock: send the validator list and look the address up. Without an
address the timer ends. -/
def lookUpAddress (s : State) (c : Collected) : State :=
  if c ∈ s.collected then
    let sent := { s with
      collected := s.collected.erase c
      validators := s.validators ++ [(c.txMsg.hash, c.uniqueList)] }
    -- an address that arrives later is not waited for
    match s.deviceAddressMap (s.deviceID c.txMsg.hash) with
    | none => sent
    | some userAddress =>
        { sent with waiting := ⟨c.txMsg, userAddress, power c.txMsg⟩ :: s.waiting }
  else s

/-- The end of `startVoteTimer`: `TxQueue` accepts the task. -/
def enqueue (s : State) (task : Task) : State :=
  if task ∈ s.waiting then
    { s with waiting := s.waiting.erase task, txQueue := s.txQueue ++ [task] }
  else s

/-! ## Device addresses -/

/-- A reply is stored if it answers this node and names a device; its address may be empty. -/
def acceptsReply (response : DeviceToAddressMessage) : Bool :=
  response.senderID == fullnodeID && response.deviceID != []

/-- One round of the loop of `StartDeviceAddressConsumer`; `none` is a message `json.Unmarshal`
rejects. -/
def storeAddress (s : State) (msg : Option DeviceToAddressMessage) : State :=
  match msg with
  | none => s
  | some response =>
      if acceptsReply response then
        { s with deviceAddressMap :=
            Function.update s.deviceAddressMap response.deviceID (some response.address) }
      else s

/-! ## Runs -/

/-- What can happen next. -/
inductive Event where
  | vote (msg : Option LightTxMessage)
  | expire (hash : GoString)
  | lookUp (c : Collected)
  | send (task : Task)
  | reply (msg : Option DeviceToAddressMessage)
  deriving DecidableEq

/-- One step of the bridge. -/
def step (lib : AddressLib) (s : State) : Event → State
  | .vote msg => consumeClaim lib s msg
  | .expire hash => collectVotes s hash
  | .lookUp c => lookUpAddress s c
  | .send task => enqueue s task
  | .reply msg => storeAddress s msg

/-! ## A small bridge -/

/-- A compressed public key in base64, and its address. -/
def signerKey : GoString := bytes "Anm+Zn753LusVaBilc6HCwcCm/zbLc4o2VnygVsW+BeY"

def signerAddress : GoString := bytes "cosmos1w508d6qejxtdg4y5r3zarvary0c5xw7k6ah60c"

/-- The hash functions and the bech32 encoder at that key. -/
def smallLib : AddressLib where
  sha256 _ :=
    [15, 113, 91, 175, 93, 76, 46, 211, 41, 120, 92, 239, 41, 229, 98, 247, 52, 136, 200, 162, 187,
      157, 188, 87, 0, 179, 97, 213, 75, 155, 5, 84]
  ripemd160 _ :=
    [117, 30, 118, 232, 25, 145, 150, 212, 84, 148, 28, 69, 209, 179, 163, 35, 241, 67, 59, 214]
  convertBits _ :=
    .ok [14, 20, 15, 7, 13, 26, 0, 25, 18, 6, 11, 13, 8, 21, 4, 20, 3, 17, 2, 29, 3, 12, 29, 3, 4, 15,
      24, 20, 6, 14, 30, 22]
  encode _ _ := .ok signerAddress

/-- A vote for the energy a device reports. -/
def solarVote (deviceID hash : GoString) (energy : Int) : LightTxMessage where
  original := some ⟨deviceID, bytes "2025-06-01T12:00:00Z", .fin energy, ⟨.fin 37, .fin 127⟩⟩
  recMeta := none
  hash := hash
  signature := bytes "c2lnbmF0dXJl"
  pubkey := signerKey

/-- The reply to an address request of this node. -/
def addressReply (deviceID address : GoString) : Event :=
  .reply (some ⟨deviceID, address, fullnodeID⟩)

/-- The events of a timer from the end of its sleep to the send, for a hash whose first message is
`txMsg` and whose only signer is the signer above. -/
def timerEvents (txMsg : LightTxMessage) (userAddress : GoString) : List Event :=
  [.expire txMsg.hash, .lookUp ⟨txMsg, [signerAddress]⟩, .send ⟨txMsg, userAddress, power txMsg⟩]

end EnergyChain.Bridge
