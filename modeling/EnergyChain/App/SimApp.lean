import EnergyChain.LightTx.MsgServer
import EnergyChain.Mapping.MsgServer
import EnergyChain.Reward.KeyFamilies
import EnergyChain.Reward.Queries

/-!
# The application

The three modules of the program and the bank, wired as in `NewSimApp`: the multistore has one
key-value store per name, and every keeper is given the store of its own module. The light
transactions use the key format of the reward module in a store that the reward module does not read.

The reward part of a run of the application is a run of the reward module (`run_reward`), so what
holds in the reachable states of the module holds in those of the application. A light transaction
leaves it alone, and the metadata it stores is visible as collateral only if a deposit had put it
there before (`lightTx_visible_iff`).
-/

set_option autoImplicit false

namespace EnergyChain.App

open EnergyChain.Go
open EnergyChain.Sdk
open EnergyChain.Bank
open EnergyChain.Reward (Store Event inFamily recMetaKey numRecs getTotalCollateral recList WellKeyed)

/-- The keepers of the three modules. -/
structure SimApp (V : Type) where
  rewardKeeper : Reward.Keeper V
  lightTxKeeper : LightTx.Keeper V
  mappingKeeper : Mapping.Keeper V

/-- `keys[lighttxtypes.ModuleName]`. -/
def lightTxStore : GoString := bytes "lighttx"

/-- `keys[mappingtypes.StoreKey]`. -/
def mappingStore : GoString := bytes "mapping"

/-- `keys[rewardtypes.StoreKey]`. -/
def rewardStore : GoString := bytes "reward"

/-- The multistore and the bank. -/
structure State (V : Type) where
  stores : GoString → Store V
  bank : BankState

/-- The messages of the modules, and the send of the bank. -/
inductive Msg where
  | reward (msg : Reward.Msg)
  | sendLightTx (msg : LightTx.MsgSendLightTx)
  | registerDevice (msg : Mapping.MsgRegisterDevice)
  | send (msg : MsgSend)

/-- A transaction with the context of its block. -/
structure Tx where
  ctx : Context
  msg : Msg

section

variable {V : Type} (app : SimApp V)

/-- What the reward module acts on. -/
def State.reward (s : State V) : Reward.State V := ⟨s.stores rewardStore, s.bank⟩

/-- Write the store of a module. -/
def State.setStore (s : State V) (name : GoString) (store : Store V) : State V :=
  { s with stores := Function.update s.stores name store }

/-- The routing of a message to the handler of its module, with the events of the module. -/
def handle (ctx : Context) (s : State V) : Msg → Outcome (State V × List Event)
  | .reward msg => do
      let (reward, result) ← Reward.handle app.rewardKeeper ctx s.reward msg
      return ({ s.setStore rewardStore reward.store with bank := reward.bank }, result.events)
  | .sendLightTx msg => do
      let (store, events) ← LightTx.sendLightTx app.lightTxKeeper msg (s.stores lightTxStore)
      return (s.setStore lightTxStore store, events)
  -- the module emits no event of its own
  | .registerDevice msg => do
      let store ← Mapping.registerDevice app.mappingKeeper msg (s.stores mappingStore)
      return (s.setStore mappingStore store, [])
  | .send msg => do
      let bank ← send app.rewardKeeper.bankKeeper ctx msg s.bank
      return ({ s with bank := bank }, [])

/-- The state after an atomic transaction that holds one message. `ValidateBasic`, the ante handler and
transactions of several messages are in `BaseApp.RunTx`, where a run of transactions is shown to be a run of
this step, on messages that have passed their check, and of fees (`run_app`). -/
def deliver (s : State V) (tx : Tx) : State V := commit s (handle app tx.ctx s tx.msg)

/-- The state before the first transaction: empty stores over a bank. -/
def genesis (bank : BankState) : State V := ⟨fun _ => .empty, bank⟩

/-! ## The reward part of a run -/

/-- The transaction as the reward module and the bank see it. -/
def Tx.reward? (tx : Tx) : Option Reward.Tx :=
  match tx.msg with
  | .reward msg => some ⟨tx.ctx, .reward msg⟩
  | .send msg => some ⟨tx.ctx, .send msg⟩
  | .sendLightTx _ => none
  | .registerDevice _ => none

variable {app} {ctx : Context} {s s' : State V} {events : List Event}

theorem stores_setStore_self (s : State V) (name : GoString) (store : Store V) :
    (s.setStore name store).stores name = store := Function.update_self ..

theorem reward_setStore_of_ne {name : GoString} (h : rewardStore ≠ name) (store : Store V) :
    (s.setStore name store).reward = s.reward := by
  rw [State.reward, State.reward, State.setStore]
  simp [Function.update_of_ne h]

/-- A light transaction writes the store of its own module only. -/
theorem handle_sendLightTx {msg : LightTx.MsgSendLightTx}
    (h : handle app ctx s (.sendLightTx msg) = .ok (s', events)) : s'.reward = s.reward := by
  simp only [handle, bind_eq_ok, pure_eq_ok, Prod.mk.injEq] at h
  obtain ⟨⟨store, _⟩, -, rfl, -⟩ := h
  exact reward_setStore_of_ne (by decide) store

theorem handle_registerDevice {msg : Mapping.MsgRegisterDevice}
    (h : handle app ctx s (.registerDevice msg) = .ok (s', events)) : s'.reward = s.reward := by
  simp only [handle, bind_eq_ok, pure_eq_ok, Prod.mk.injEq] at h
  obtain ⟨store, -, rfl, -⟩ := h
  exact reward_setStore_of_ne (by decide) store

/-- A reward message acts on the reward part as it does in the module. -/
theorem reward_deliver_reward (app : SimApp V) (ctx : Context) (s : State V) (msg : Reward.Msg) :
    (deliver app s ⟨ctx, .reward msg⟩).reward =
      Reward.deliver app.rewardKeeper s.reward ⟨ctx, .reward msg⟩ := by
  cases hres : Reward.handle app.rewardKeeper ctx s.reward msg with
  | error fault =>
      rw [Reward.deliver_reward_error hres, deliver, handle, hres]
      rfl
  | ok p =>
      obtain ⟨reward, result⟩ := p
      rw [Reward.deliver_reward_ok hres, deliver, handle, hres]
      change ⟨Function.update s.stores rewardStore reward.store rewardStore, reward.bank⟩ = reward
      rw [Function.update_self]

theorem reward_deliver_send (app : SimApp V) (ctx : Context) (s : State V) (msg : MsgSend) :
    (deliver app s ⟨ctx, .send msg⟩).reward =
      Reward.deliver app.rewardKeeper s.reward ⟨ctx, .send msg⟩ := by
  change (commit s (send app.rewardKeeper.bankKeeper ctx msg s.bank >>= _)).reward =
    commit s.reward (send app.rewardKeeper.bankKeeper ctx msg s.bank >>= _)
  cases send app.rewardKeeper.bankKeeper ctx msg s.bank with
  | error fault => rfl
  | ok bank => rfl

/-- One transaction: the reward part takes the step of the reward module, or none. -/
theorem reward_deliver (app : SimApp V) (s : State V) (tx : Tx) :
    (deliver app s tx).reward = run (Reward.deliver app.rewardKeeper) s.reward tx.reward?.toList := by
  obtain ⟨ctx, msg⟩ := tx
  cases msg with
  | reward msg => exact reward_deliver_reward app ctx s msg
  | send msg => exact reward_deliver_send app ctx s msg
  | sendLightTx msg =>
      cases hres : handle app ctx s (.sendLightTx msg) with
      | error fault =>
          rw [deliver, hres]
          rfl
      | ok p =>
          rw [deliver, hres]
          exact handle_sendLightTx hres
  | registerDevice msg =>
      cases hres : handle app ctx s (.registerDevice msg) with
      | error fault =>
          rw [deliver, hres]
          rfl
      | ok p =>
          rw [deliver, hres]
          exact handle_registerDevice hres

/-- The reward part of a run of the application is a run of the reward module. -/
theorem run_reward (app : SimApp V) (s : State V) (txs : List Tx) :
    (run (deliver app) s txs).reward =
      run (Reward.deliver app.rewardKeeper) s.reward (txs.filterMap Tx.reward?) := by
  -- a transaction of another module is a run of no transactions
  induction txs generalizing s with
  | nil => rfl
  | cons tx txs ih =>
      rw [run_cons, ih, reward_deliver, ← run_append]
      cases htx : tx.reward? with
      | none => simp [htx]
      | some rewardTx => simp [htx]

/-- What holds of the reward store in every run of the module holds of it in the application. -/
theorem reward_reachable {P : Reward.State V → Prop} (app : SimApp V) (bank : BankState)
    (h : ∀ txs, P (run (Reward.deliver app.rewardKeeper) (Reward.genesis bank) txs))
    (txs : List Tx) : P (run (deliver app) (genesis bank) txs).reward := by
  rw [run_reward]
  exact h _

/-! ## Metadata of light transactions -/

/-- The metadata is listed by `RECList`, stored under its certified id, and counted among the RECs. -/
structure Visible (k : Reward.Keeper V) (store : Store V) (data : Reward.RECMeta) : Prop where
  listed : ∃ recs metas, recList k store = .ok (recs, metas) ∧ data ∈ metas
  stored : ∃ bz, store.get (recMetaKey data.certifiedId) = some bz ∧ k.cdc.unmarshalMeta bz = .ok data
  counted : getTotalCollateral store = numRecs store

section

variable {k : Reward.Keeper V} {store : Store V}

/-- The loop of a list query over entries that decode returns what they decode to. -/
theorem exists_unmarshalAll {α : Type} {unmarshal : V → Except GoString α}
    {entries : List (GoString × V)} (h : ∀ e ∈ entries, ∃ a, unmarshal e.2 = .ok a) :
    ∃ list, Reward.unmarshalAll unmarshal entries = .ok list ∧
      ∀ e ∈ entries, ∀ a, unmarshal e.2 = .ok a → a ∈ list := by
  induction entries with
  | nil => exact ⟨[], rfl, nofun⟩
  | cons entry rest ih =>
      obtain ⟨a, ha⟩ := h entry List.mem_cons_self
      obtain ⟨list, hlist, hmem⟩ := ih fun e he => h e (List.mem_cons_of_mem entry he)
      refine ⟨a :: list, Reward.unmarshalAll_cons_eq_ok.2 ⟨a, list, ha, hlist, rfl⟩, ?_⟩
      intro e he b hb
      rcases List.mem_cons.1 he with rfl | he
      · rw [ha, Except.ok.injEq] at hb
        rw [hb]
        exact List.mem_cons_self
      · exact List.mem_cons_of_mem a (hmem e he b hb)

/-- An entry that an iteration over a family visits has a key of that family. -/
theorem exists_key_of_mem (h : WellKeyed k store) {f : Reward.Family} {e : GoString × V}
    (he : e ∈ store.select (inFamily f)) : ∃ key : Reward.Key, key.family = f ∧ key.Holds k e.2 := by
  obtain ⟨hfamily, hget⟩ := SortedMap.mem_select.1 he
  obtain ⟨key, hbytes, hholds⟩ := h e.1 e.2 hget
  rw [← hbytes] at hfamily
  exact ⟨key, Reward.inFamily_toBytes_iff.1 hfamily, hholds⟩

theorem unmarshalRecord_of_mem (h : WellKeyed k store) {e : GoString × V}
    (he : e ∈ store.select (inFamily .recRecord)) : ∃ rec, k.cdc.unmarshalRecord e.2 = .ok rec := by
  obtain ⟨key, hkey, hholds⟩ := exists_key_of_mem h he
  cases key with
  | recRecord recId =>
      obtain ⟨rec, -, hvalue⟩ := hholds
      exact ⟨rec, by rw [hvalue, k.cdc.record_roundTrip]⟩
  | _ => cases hkey

theorem unmarshalMeta_of_mem (h : WellKeyed k store) {e : GoString × V}
    (he : e ∈ store.select (inFamily .recMeta)) : ∃ data, k.cdc.unmarshalMeta e.2 = .ok data := by
  obtain ⟨key, hkey, hholds⟩ := exists_key_of_mem h he
  cases key with
  | recMeta certifiedId =>
      obtain ⟨data, -, hvalue⟩ := hholds
      exact ⟨data, by rw [hvalue, k.cdc.meta_roundTrip]⟩
  | _ => cases hkey

/-- In a store that the module wrote, what is stored is listed. -/
theorem visible_iff (h : WellKeyed k store) {data : Reward.RECMeta} :
    Visible k store data ↔
      (∃ bz, store.get (recMetaKey data.certifiedId) = some bz ∧
        k.cdc.unmarshalMeta bz = .ok data) ∧ getTotalCollateral store = numRecs store := by
  constructor
  · intro hvisible
    exact ⟨hvisible.stored, hvisible.counted⟩
  · rintro ⟨⟨bz, hget, hdecode⟩, hcounted⟩
    refine ⟨?_, ⟨bz, hget, hdecode⟩, hcounted⟩
    -- one entry that does not decode would make the query fail, so all have to
    obtain ⟨recs, hrecs, -⟩ := exists_unmarshalAll fun e he => unmarshalRecord_of_mem h he
    obtain ⟨metas, hmetas, hmem⟩ := exists_unmarshalAll fun e he => unmarshalMeta_of_mem h he
    have hselect : (recMetaKey data.certifiedId, bz) ∈ store.select (inFamily .recMeta) :=
      SortedMap.mem_select.2 ⟨Reward.inFamily_root_append _ _, hget⟩
    refine ⟨recs, metas, ?_, hmem _ hselect data hdecode⟩
    simp only [recList, Reward.getAllRECRecords, Reward.getAllRECMetas, hrecs, hmetas, ok_bind]
    rfl

end

/-- For every reachable state and every light transaction with the metadata of a REC that succeeds:
the metadata is stored in the store of its own module, and it is visible as collateral exactly if the
reward store held it before, with a right count of RECs. -/
theorem lightTx_visible_iff (app : SimApp V) (bank : BankState) (txs : List Tx) (ctx : Context)
    {msg : LightTx.MsgSendLightTx} {data : LightTx.RECMeta}
    (hpayload : msg.payload = some (.recMeta data)) {s' : State V} {events : List Event}
    (h : handle app ctx (run (deliver app) (genesis bank) txs) (.sendLightTx msg) = .ok (s', events)) :
    (∃ bz, app.lightTxKeeper.marshalRECMeta data = .ok bz ∧
      (s'.stores lightTxStore).get (recMetaKey data.certifiedId) = some bz) ∧
    (Visible app.rewardKeeper s'.reward.store data ↔
      (∃ bz, (run (deliver app) (genesis bank) txs).reward.store.get
          (recMetaKey data.certifiedId) = some bz ∧
        app.rewardKeeper.cdc.unmarshalMeta bz = .ok data) ∧
      getTotalCollateral (run (deliver app) (genesis bank) txs).reward.store =
        numRecs (run (deliver app) (genesis bank) txs).reward.store) := by
  have hkeyed : WellKeyed app.rewardKeeper (run (deliver app) (genesis bank) txs).reward.store :=
    reward_reachable (P := fun s => WellKeyed app.rewardKeeper s.store) app bank
      (Reward.run_wellKeyed app.rewardKeeper bank) txs
  constructor
  · simp only [handle, bind_eq_ok, pure_eq_ok, Prod.mk.injEq] at h
    obtain ⟨⟨store, _⟩, hsend, rfl, -⟩ := h
    obtain ⟨bz, hbz, rfl⟩ := LightTx.sendLightTx_recMeta hpayload hsend
    refine ⟨bz, hbz, ?_⟩
    rw [stores_setStore_self, SortedMap.get_set_self]
  · rw [handle_sendLightTx h]
    exact visible_iff hkeyed

end

/-! ## A small application -/

/-- The small chain with the free encoding in all three stores. -/
def smallApp : SimApp Reward.Document where
  rewardKeeper := Reward.smallKeeper
  lightTxKeeper := { bech32 := Reward.smallBech32, marshalRECMeta := fun data => .ok (.recMeta data) }
  mappingKeeper :=
    { bech32 := Reward.smallBech32
      addressBytes := .text
      toAddress := fun
        | .text t => t
        | _ => []
      address_roundTrip := fun _ => rfl }

/-- Metadata with the given identifier and no other data. -/
def smallMeta (certifiedId : GoString) : Reward.RECMeta where
  facilityId := []
  facilityName := []
  location := []
  technologyType := []
  capacityMw := []
  registrationDate := []
  certifiedId := certifiedId
  issueDate := []
  generationStartDate := []
  generationEndDate := []
  measuredVolumeMwh := []
  retiredDate := []
  retirementPurpose := []
  status := []
  timestamp := []

/-- A light transaction of alice with that metadata. -/
def smallLightTx (certifiedId : GoString) : LightTx.MsgSendLightTx :=
  ⟨Reward.alice, some (.recMeta (smallMeta certifiedId)), [], bytes "sig", bytes "key"⟩

/-- A deposit of the metadata `m1`. -/
def depositMeta : List Tx :=
  [⟨Reward.smallCtx 1, .reward (.depositCollateral ⟨Reward.alice, some (.recMeta (smallMeta (bytes "m1")))⟩)⟩]

theorem lightTx_visible_iff_deposited :
    ∃ s' events, handle smallApp (Reward.smallCtx 2)
        (run (deliver smallApp) (genesis Reward.emptyBank) depositMeta)
        (.sendLightTx (smallLightTx (bytes "m1"))) = .ok (s', events) ∧
      Visible smallApp.rewardKeeper s'.reward.store (smallMeta (bytes "m1")) := by
  obtain ⟨⟨s', events⟩, h⟩ := isOk_iff.1 (show (handle smallApp (Reward.smallCtx 2)
    (run (deliver smallApp) (genesis Reward.emptyBank) depositMeta)
    (.sendLightTx (smallLightTx (bytes "m1")))).isOk = true by decide +kernel)
  refine ⟨s', events, h, (lightTx_visible_iff smallApp Reward.emptyBank depositMeta
    (Reward.smallCtx 2) rfl h).2.2 ⟨⟨.recMeta (smallMeta (bytes "m1")), ?_, rfl⟩, ?_⟩⟩
  · decide +kernel
  · decide +kernel

/-- On a fresh chain the light transaction passes its check and succeeds; the metadata is in the store
of its module, and the reward module lists and counts no REC. -/
theorem lightTx_not_visible :
    (smallLightTx (bytes "m1")).validateBasic Reward.smallBech32 = .ok () ∧
    ((do
      let (s', _) ← handle smallApp (Reward.smallCtx 1) (genesis Reward.emptyBank)
        (.sendLightTx (smallLightTx (bytes "m1")))
      let (recs, metas) ← recList smallApp.rewardKeeper s'.reward.store
      return ((s'.stores lightTxStore).get (recMetaKey (bytes "m1")), recs, metas,
        getTotalCollateral s'.reward.store)) :
      Outcome (Option Reward.Document × List Reward.RECRecord × List Reward.RECMeta × Int)) =
      .ok (some (.recMeta (smallMeta (bytes "m1"))), [], [], 0) := by
  decide +kernel

end EnergyChain.App
