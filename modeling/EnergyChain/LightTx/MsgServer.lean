import EnergyChain.Reward.MsgServer
import EnergyChain.Sdk.Panics

/-!
# Light transactions

`x/light_tx` has one message. It carries the measurement of a solar device, which is logged and put
into an event, or the metadata of a REC, which is also stored, under the key format of the reward
module. The stateless check asks for a payload, a signature and a public key; it does not look into
the payload, so the location of a measurement may be missing, and the handler then panics
(`noPanic_sendLightTx_iff`).
-/

set_option autoImplicit false

namespace EnergyChain.LightTx

open EnergyChain.Go
open EnergyChain.Sdk
open EnergyChain.Reward (Event Store recMetaKey)

/-- `types.Location`. -/
structure Location where
  latitude : Float64
  longitude : Float64
  deriving DecidableEq

/-- `types.SolarData`; the location is a sub-message that may be absent. -/
structure SolarData where
  deviceId : GoString
  timestamp : GoString
  totalEnergy : Float64
  location : Option Location
  deriving DecidableEq

/-- `types.RECMeta`, which has the fifteen fields of the type of the reward module. -/
abbrev RECMeta := Reward.RECMeta

/-- The `payload` of a light transaction. -/
inductive Payload where
  | original (data : SolarData)
  | recMeta (data : RECMeta)
  deriving DecidableEq

/-- `types.MsgSendLightTx`. -/
structure MsgSendLightTx where
  creator : GoString
  payload : Option Payload
  hash : GoString
  signature : GoString
  pubkey : GoString
  deriving DecidableEq

/-- `GetSigners`. -/
def MsgSendLightTx.getSigners (lib : Bech32) (msg : MsgSendLightTx) : Outcome (List AccAddress) := do
  let creator ←
    panicOnErr (bytes "invalid creator address: " ++ ·) (accAddressFromBech32 lib msg.creator)
  return [creator]

/-- `ValidateBasic`. A decoded payload is never nil, so the two checks for nil are the check for its
presence. -/
def MsgSendLightTx.validateBasic (lib : Bech32) (msg : MsgSendLightTx) : Outcome Unit := do
  Reward.checkAddress lib msg.creator (bytes "invalid creator address: " ++ ·)
  require (msg.payload.isSome = true)
    (.error (bytes "either SolarData or RECMeta must be provided"))
  require (msg.signature ≠ []) (.error (bytes "signature is required"))
  require (msg.pubkey ≠ []) (.error (bytes "pubkey is required"))

/-- The keeper: the address codec, and `gogoproto.Marshal` on the metadata of a REC, which refuses
texts that are not UTF-8. -/
structure Keeper (V : Type) where
  bech32 : Bech32
  marshalRECMeta : RECMeta → Except GoString V

section

variable {V : Type} (k : Keeper V)

/-- The event of a measurement. -/
def solarEvent (msg : MsgSendLightTx) (data : SolarData) : Event where
  kind := bytes "light_tx_solar"
  attributes :=
    [(bytes "creator", msg.creator), (bytes "device_id", data.deviceId), (bytes "hash", msg.hash),
      (bytes "timestamp", data.timestamp), (bytes "total_energy", data.totalEnergy.format)]

/-- The event of the metadata of a REC. -/
def recMetaEvent (msg : MsgSendLightTx) (data : RECMeta) : Event where
  kind := bytes "light_tx_recmeta"
  attributes :=
    [(bytes "creator", msg.creator), (bytes "facility_id", data.facilityId),
      (bytes "facility_name", data.facilityName), (bytes "location", data.location),
      (bytes "technology_type", data.technologyType), (bytes "capacity_mw", data.capacityMw),
      (bytes "registration_date", data.registrationDate),
      (bytes "certified_id", data.certifiedId), (bytes "issue_date", data.issueDate),
      (bytes "generation_start", data.generationStartDate),
      (bytes "generation_end", data.generationEndDate),
      (bytes "measured_volume", data.measuredVolumeMwh), (bytes "retired_date", data.retiredDate),
      (bytes "retirement_purpose", data.retirementPurpose), (bytes "status", data.status),
      (bytes "timestamp", data.timestamp), (bytes "hash", msg.hash),
      (bytes "signature", msg.signature), (bytes "pubkey", msg.pubkey)]

/-- The read of a field through a nil pointer. -/
def nilPointer : Fault :=
  .panic (bytes "runtime error: invalid memory address or nil pointer dereference")

/-- `msgServer.SendLightTx`, on the store of the module. The response is always `OK`. -/
def sendLightTx (msg : MsgSendLightTx) (store : Store V) : Outcome (Store V × List Event) :=
  match msg.payload with
  | some (.original data) => do
      -- the log line reads the coordinates through the pointer to the location
      let _ ← orFail nilPointer data.location
      return (store, [solarEvent msg data])
  | some (.recMeta data) =>
      match k.marshalRECMeta data with
      | .error err => fail (bytes "failed to marshal RECMeta: " ++ err)
      | .ok bz => .ok (store.set (recMetaKey data.certifiedId) bz, [recMetaEvent msg data])
  | none => fail (bytes "unknown payload type: invalid request")

variable {k}

/-- Metadata that is accepted is stored under its certified id. -/
theorem sendLightTx_recMeta {msg : MsgSendLightTx} {data : RECMeta}
    (hpayload : msg.payload = some (.recMeta data)) {store store' : Store V} {events : List Event}
    (h : sendLightTx k msg store = .ok (store', events)) :
    ∃ bz, k.marshalRECMeta data = .ok bz ∧ store' = store.set (recMetaKey data.certifiedId) bz := by
  simp only [sendLightTx, hpayload] at h
  split at h
  · cases h
  · rename_i bz hbz
    cases h
    exact ⟨bz, hbz, rfl⟩

/-- The payload has what the handler reads through pointers. -/
def MsgSendLightTx.Located (msg : MsgSendLightTx) : Prop :=
  ∀ data, msg.payload = some (.original data) → data.location ≠ none

/-- The handler panics exactly on a measurement without a location. -/
theorem noPanic_sendLightTx_iff {msg : MsgSendLightTx} {store : Store V} :
    NoPanic (sendLightTx k msg store) ↔ msg.Located := by
  unfold sendLightTx
  split
  · rename_i data hpayload
    cases hloc : data.location with
    | none =>
        refine iff_of_false ?_ ?_
        · simp [orFail, nilPointer, NoPanic]
        · intro h
          exact h data hpayload hloc
    | some loc =>
        refine iff_of_true (noPanic_pure _) ?_
        intro data' hpayload'
        rw [hpayload] at hpayload'
        cases hpayload'
        simp [hloc]
  · rename_i data hpayload
    have hlocated : msg.Located := by
      intro data' hpayload'
      rw [hpayload] at hpayload'
      cases hpayload'
    split
    · exact iff_of_true (noPanic_fail _) hlocated
    · exact iff_of_true (noPanic_ok _) hlocated
  · rename_i hpayload
    refine iff_of_true (noPanic_fail _) ?_
    intro data' hpayload'
    rw [hpayload] at hpayload'
    cases hpayload'

/-- A message passes its check if its creator decodes and it has a payload, a signature and a public
key. -/
theorem validateBasic_eq_ok {lib : Bech32} {msg : MsgSendLightTx} {u : Unit} :
    msg.validateBasic lib = .ok u ↔
      (∃ creator, accAddressFromBech32 lib msg.creator = .ok creator) ∧ msg.payload.isSome = true ∧
        msg.signature ≠ [] ∧ msg.pubkey ≠ [] := by
  simp only [MsgSendLightTx.validateBasic, Reward.checkAddress, bind_eq_ok, mapErr_eq_ok, pure_eq_ok,
    require_eq_ok, exists_const, and_true]

theorem noPanic_validateBasic (lib : Bech32) (msg : MsgSendLightTx) :
    NoPanic (msg.validateBasic lib) := by
  rw [MsgSendLightTx.validateBasic, noPanic_bind]
  constructor
  · rw [Reward.checkAddress, noPanic_bind, noPanic_mapErr]
    exact ⟨noPanic_accAddressFromBech32 _ _, fun _ _ => noPanic_pure _⟩
  · intro _ _
    rw [noPanic_require_error]
    intro _
    rw [noPanic_require_error]
    intro _
    exact noPanic_require _

/-- A message that passes its check has a creator that decodes. -/
theorem noPanic_getSigners_of_validateBasic {lib : Bech32} {msg : MsgSendLightTx}
    (h : msg.validateBasic lib = .ok ()) : NoPanic (msg.getSigners lib) := by
  obtain ⟨hcreator, -⟩ := validateBasic_eq_ok.1 h
  rw [MsgSendLightTx.getSigners, noPanic_bind, noPanic_panicOnErr]
  exact ⟨hcreator, fun _ _ => noPanic_pure _⟩

end

end EnergyChain.LightTx
