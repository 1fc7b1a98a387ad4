import EnergyChain.Reward.MsgServer
import EnergyChain.Sdk.Panics

/-!
# Devices and their owners

`x/mapping` has one message, which stores the address of the owner of a device, and one query, which
reads it back (`getAddressFromDeviceID_registerDevice`). The stateless check only asks that the three
texts are not empty, so `GetSigners` panics on every creator that does not decode
(`noPanic_getSigners_iff`).
-/

set_option autoImplicit false

namespace EnergyChain.Mapping

open EnergyChain.Go
open EnergyChain.Sdk
open EnergyChain.Reward (Store)

/-- `types.MsgRegisterDevice`. -/
structure MsgRegisterDevice where
  creator : GoString
  deviceId : GoString
  address : GoString
  deriving DecidableEq, Repr

/-- `ValidateBasic`. -/
def MsgRegisterDevice.validateBasic (msg : MsgRegisterDevice) : Outcome Unit := do
  require (msg.creator ≠ []) (.error (bytes "creator address cannot be empty"))
  require (msg.deviceId ≠ []) (.error (bytes "device ID cannot be empty"))
  require (msg.address ≠ []) (.error (bytes "mapped address cannot be empty"))

/-- `GetSigners`. -/
def MsgRegisterDevice.getSigners (lib : Bech32) (msg : MsgRegisterDevice) :
    Outcome (List AccAddress) := do
  let creator ← panicOnErr id (accAddressFromBech32 lib msg.creator)
  return [creator]

/-- The keeper: the address codec, and the bytes of an address as a stored value. -/
structure Keeper (V : Type) where
  bech32 : Bech32
  addressBytes : AccAddress → V
  toAddress : V → AccAddress
  address_roundTrip : ∀ addr, toAddress (addressBytes addr) = addr

section

variable {V : Type} (k : Keeper V)

/-- `"device:" + deviceID`. -/
def deviceKey (deviceId : GoString) : GoString := bytes "device:" ++ deviceId

/-- `SetDeviceMapping`. -/
def setDeviceMapping (deviceId : GoString) (address : AccAddress) (store : Store V) : Store V :=
  store.set (deviceKey deviceId) (k.addressBytes address)

/-- `GetDeviceAddress`. -/
def getDeviceAddress (deviceId : GoString) (store : Store V) : Option AccAddress :=
  (store.get (deviceKey deviceId)).map k.toAddress

/-- `msgServer.RegisterDevice`, on the store of the module. -/
def registerDevice (msg : MsgRegisterDevice) (store : Store V) : Outcome (Store V) := do
  -- the creator is not compared with the owner that is already stored
  let address ← accAddressFromBech32 k.bech32 msg.address
  return setDeviceMapping k msg.deviceId address store

/-- The query `GetAddressFromDeviceID`. -/
def getAddressFromDeviceID (deviceId : GoString) (store : Store V) : Outcome GoString :=
  match getDeviceAddress k deviceId store with
  | none => fail (bytes "device_id " ++ deviceId ++ bytes " not found: not found")
  | some address => .ok (k.bech32.addrString address)

variable {k}

/-- A registration is read back, and the other devices keep their owners. -/
theorem getAddressFromDeviceID_registerDevice {msg : MsgRegisterDevice} {store store' : Store V}
    (h : registerDevice k msg store = .ok store') (deviceId : GoString) :
    ∃ address, accAddressFromBech32 k.bech32 msg.address = .ok address ∧
      getAddressFromDeviceID k deviceId store' =
        if deviceId = msg.deviceId then .ok (k.bech32.addrString address)
        else getAddressFromDeviceID k deviceId store := by
  rw [registerDevice, bind_eq_ok] at h
  obtain ⟨address, haddress, hstore⟩ := h
  obtain rfl := pure_eq_ok.1 hstore
  refine ⟨address, haddress, ?_⟩
  split
  · rename_i hid
    subst hid
    simp only [getAddressFromDeviceID, getDeviceAddress, setDeviceMapping, SortedMap.get_set_self,
      Option.map_some, k.address_roundTrip]
  -- the keys of two devices differ behind the common prefix
  · rename_i hid
    have hkey : deviceKey deviceId ≠ deviceKey msg.deviceId :=
      fun e => hid (List.append_cancel_left e)
    simp only [getAddressFromDeviceID, getDeviceAddress, setDeviceMapping,
      SortedMap.get_set_of_ne _ _ hkey]

theorem noPanic_registerDevice (msg : MsgRegisterDevice) (store : Store V) :
    NoPanic (registerDevice k msg store) := by
  rw [registerDevice, noPanic_bind]
  exact ⟨noPanic_accAddressFromBech32 _ _, fun _ _ => noPanic_pure _⟩

theorem noPanic_getSigners_iff {lib : Bech32} {msg : MsgRegisterDevice} :
    NoPanic (msg.getSigners lib) ↔ ∃ creator, accAddressFromBech32 lib msg.creator = .ok creator := by
  rw [MsgRegisterDevice.getSigners, noPanic_bind, noPanic_panicOnErr]
  exact and_iff_left fun _ _ => noPanic_pure _

end

end EnergyChain.Mapping
