import EnergyChain.App.SimApp
import EnergyChain.Reward.Panics

/-!
# Panics of validated messages

The eleven messages of the program's modules pass `ValidateBasic` before `GetSigners` and the handler
see them. The checks are not strong enough for every partial operation behind them.
`validated_returns_iff` says for every message and every reachable state exactly when both calls
return: a measurement needs its location, the creator of a registration has to decode, and a reward
message has to satisfy the condition of its handler.
-/

set_option autoImplicit false

namespace EnergyChain.App

open EnergyChain.Go
open EnergyChain.Sdk
open EnergyChain.Bank

/-- The messages of the program's own modules. -/
inductive OwnMsg where
  | reward (msg : Reward.Msg)
  | sendLightTx (msg : LightTx.MsgSendLightTx)
  | registerDevice (msg : Mapping.MsgRegisterDevice)

/-- The message as the application routes it. -/
def OwnMsg.toMsg : OwnMsg → Msg
  | .reward msg => .reward msg
  | .sendLightTx msg => .sendLightTx msg
  | .registerDevice msg => .registerDevice msg

section

variable {V : Type}

/-- `ValidateBasic`. -/
def OwnMsg.validateBasic (app : SimApp V) : OwnMsg → Outcome Unit
  | .reward msg => msg.validateBasic app.rewardKeeper.bankKeeper.bech32
  | .sendLightTx msg => msg.validateBasic app.lightTxKeeper.bech32
  | .registerDevice msg => msg.validateBasic

/-- `GetSigners`. -/
def OwnMsg.getSigners (app : SimApp V) : OwnMsg → Outcome (List AccAddress)
  | .reward msg => msg.getSigners app.rewardKeeper.bankKeeper.bech32
  | .sendLightTx msg => msg.getSigners app.lightTxKeeper.bech32
  | .registerDevice msg => msg.getSigners app.mappingKeeper.bech32

/-- What `ValidateBasic` would have to check so that a message does not panic in a state. -/
def OwnMsg.PanicFree (app : SimApp V) (ctx : Context) (s : State V) : OwnMsg → Prop
  | .reward msg => msg.PanicFree app.rewardKeeper ctx s.reward
  | .sendLightTx msg => msg.Located
  | .registerDevice msg =>
      ∃ creator, accAddressFromBech32 app.mappingKeeper.bech32 msg.creator = .ok creator

/-- For every validated message and every reachable state: `GetSigners` and the handler return, with a
result or an error, exactly if the condition of the message holds. -/
theorem validated_returns_iff (app : SimApp V) (bank : BankState) (txs : List Tx) (ctx : Context)
    (msg : OwnMsg) (h : msg.validateBasic app = .ok ()) :
    NoPanic (msg.getSigners app) ∧
        NoPanic (handle app ctx (run (deliver app) (genesis bank) txs) msg.toMsg) ↔
      msg.PanicFree app ctx (run (deliver app) (genesis bank) txs) := by
  generalize hs : run (deliver app) (genesis bank) txs = s
  -- of the state only the issued total is used: it is a number
  have hminted : Reward.MintedNat app.rewardKeeper s.reward.store := by
    rw [← hs]
    exact reward_reachable (P := fun s => Reward.MintedNat app.rewardKeeper s.store) app bank
      (Reward.exists_minted_run app.rewardKeeper bank) txs
  cases msg with
  | reward msg =>
      rw [OwnMsg.toMsg, handle, noPanic_bind, Reward.noPanic_handle hminted h,
        and_iff_left fun _ _ => noPanic_pure _]
      exact and_iff_right (Reward.noPanic_getSigners h)
  | sendLightTx msg =>
      rw [OwnMsg.toMsg, handle, noPanic_bind, LightTx.noPanic_sendLightTx_iff,
        and_iff_left fun _ _ => noPanic_pure _]
      exact and_iff_right (LightTx.noPanic_getSigners_of_validateBasic h)
  -- here it is the signers that can panic, and not the handler
  | registerDevice msg =>
      rw [OwnMsg.toMsg, handle, noPanic_bind,
        and_iff_right (Mapping.noPanic_registerDevice msg _)]
      exact (and_iff_left fun _ _ => noPanic_pure _).trans Mapping.noPanic_getSigners_iff

end

/-! ## Validated messages of the small application -/

/-- A report of 1000 watt-hours. -/
def smallReport : OwnMsg := .reward (.addEnergy ⟨Reward.alice, Reward.alice, bytes "1000", []⟩)

theorem validated_returns_iff_report :
    smallReport.validateBasic smallApp = .ok () ∧
    NoPanic (smallReport.getSigners smallApp) ∧
    NoPanic (handle smallApp (Reward.smallCtx 1) (genesis Reward.emptyBank) smallReport.toMsg) := by
  have hbasic : smallReport.validateBasic smallApp = .ok () := by decide +kernel
  refine ⟨hbasic, (validated_returns_iff smallApp Reward.emptyBank [] (Reward.smallCtx 1) smallReport
    hbasic).2 ?_⟩
  have hamount : newIntFromString (bytes "1000") = some 1000 := by decide +kernel
  -- the condition of a report: its amount is an `int64`
  intro z hz
  obtain rfl := Option.some.inj (hamount.symm.trans hz)
  decide

/-- A measurement without a location, a registration whose creator is no address, and a report above
the `int64` range: all three pass their checks and panic. -/
theorem validated_panics :
    (OwnMsg.sendLightTx ⟨Reward.alice, some (.original ⟨[], [], .fin 0, none⟩), [], bytes "sig",
      bytes "key"⟩).validateBasic smallApp = .ok () ∧
    ¬ NoPanic (handle smallApp (Reward.smallCtx 1) (genesis Reward.emptyBank)
      (.sendLightTx ⟨Reward.alice, some (.original ⟨[], [], .fin 0, none⟩), [], bytes "sig",
        bytes "key"⟩)) ∧
    (OwnMsg.registerDevice ⟨bytes "x", bytes "d", Reward.alice⟩).validateBasic smallApp = .ok () ∧
    ¬ NoPanic ((OwnMsg.registerDevice ⟨bytes "x", bytes "d", Reward.alice⟩).getSigners smallApp) ∧
    (OwnMsg.reward (.addEnergy ⟨Reward.alice, Reward.alice, bytes "9223372036854775808",
      []⟩)).validateBasic smallApp = .ok () ∧
    ¬ NoPanic (handle smallApp (Reward.smallCtx 1) (genesis Reward.emptyBank)
      (.reward (.addEnergy ⟨Reward.alice, Reward.alice, bytes "9223372036854775808", []⟩))) := by
  decide +kernel

end EnergyChain.App
