import EnergyChain.Reward.Queries

/-!
# Genesis export and import

`ExportGenesis` of `x/reward` is documented to return the current state. It returns a `GenesisState` with
none of its addresses set, and the module then hands it to `MustMarshalJSON`, which writes only types that
implement `ProtoMarshaler`. `GenesisState` was generated by `protoc-gen-go` and has no `Marshal` methods, so
every export panics. `InitGenesis` in turn reads nothing from what it is given: it only makes sure that the
module account exists, and a chain that it starts has an empty reward store.

So no state comes back through an export and an import, and no data that `InitGenesis` could be given
restores a state, unless that state was blank: nothing issued, no REC, no energy account and no node list
(`genesis_never_restored`). A deposit and a mint are an example (`genesis_loses_collateral`).
-/

set_option autoImplicit false

namespace EnergyChain.Reward

open EnergyChain.Go
open EnergyChain.Sdk
open EnergyChain.Bank

/-! ## The codec -/

/-- The methods of generated message types. -/
inductive Method where
  | reset
  | string
  | protoMessage
  | marshal
  | marshalTo
  | marshalToSizedBuffer
  | size
  | unmarshal
  | protoReflect
  | descriptor
  | getInitialAddresses
  deriving DecidableEq, Repr

/-- `codec.ProtoMarshaler`: the methods of `proto.Message`, and those that `gogoproto` generates. -/
def protoMarshaler : List Method :=
  [.reset, .string, .protoMessage, .marshal, .marshalTo, .marshalToSizedBuffer, .size, .unmarshal]

/-- A `proto.Message` as the codec sees it: its type, the methods of the type, and the JSON that
`ProtoMarshalJSON` writes if it comes to that. -/
structure ProtoMessage where
  typeName : GoString
  methods : List Method
  json : Outcome GoString

/-- `ProtoCodec.MarshalJSON`. -/
def marshalJSON (o : ProtoMessage) : Outcome GoString := do
  -- `o.(ProtoMarshaler)`
  require (protoMarshaler ⊆ o.methods)
    (.error (bytes "cannot protobuf JSON encode unsupported type: " ++ o.typeName))
  o.json

/-- `ProtoCodec.MustMarshalJSON`. -/
def mustMarshalJSON (o : ProtoMessage) : Outcome GoString := panicOnErr id (marshalJSON o)

/-! ## Genesis -/

/-- `types.GenesisState`. -/
structure GenesisState where
  initialAddresses : List GoString
  deriving DecidableEq, Repr

/-- The methods of `*types.GenesisState` in `genesis.pb.go`. -/
def GenesisState.methods : List Method :=
  [.reset, .string, .protoMessage, .protoReflect, .descriptor, .getInitialAddresses]

section

variable {V : Type} (protoMarshalJSON : GenesisState → Outcome GoString)

/-- The message that is handed to the codec. -/
def GenesisState.protoMessage (gs : GenesisState) : ProtoMessage :=
  ⟨bytes "*types.GenesisState", GenesisState.methods, protoMarshalJSON gs⟩

/-- `ExportGenesis`: the state is not read. -/
def exportGenesis (_s : State V) : GenesisState := ⟨[]⟩

/-- `AppModule.ExportGenesis`. -/
def appExportGenesis (s : State V) : Outcome GoString :=
  mustMarshalJSON ((exportGenesis s).protoMessage protoMarshalJSON)

/-- What `InitGenesis` acts on: the module's store, and whether the module account exists. -/
structure GenesisTarget (V : Type) where
  store : Store V
  moduleAccount : Bool

/-- A chain before its genesis. -/
def GenesisTarget.fresh : GenesisTarget V := ⟨.empty, false⟩

/-- `AppModule.InitGenesis`: the data is not read. -/
def initGenesis (_data : GoString) (target : GenesisTarget V) : GenesisTarget V :=
  if target.moduleAccount then target else { target with moduleAccount := true }

/-- The store of a chain that is started from the export of a state. -/
def restarted (s : State V) : Outcome (Store V) := do
  let data ← appExportGenesis protoMarshalJSON s
  return (initGenesis data .fresh).store

/-- The two stores have the same supply, the same RECs, the same energy accounts and the same node
list. -/
structure SameReward (k : Keeper V) (store store' : Store V) : Prop where
  supply : supplyQuery k store' = supplyQuery k store
  records : getAllRECRecords k store' = getAllRECRecords k store
  metas : getAllRECMetas k store' = getAllRECMetas k store
  total : storedEnergy k totalEnergyKey store' = storedEnergy k totalEnergyKey store
  shares : contributors k store' = contributors k store
  nodes : ∀ result, TxNodeListReturns k store' result ↔ TxNodeListReturns k store result

/-- Nothing is issued or stored, no energy is accounted for, and the node list is empty. -/
structure Blank (k : Keeper V) (store : Store V) : Prop where
  issued : minted k store = some 0
  recs : numRecs store = 0
  total : storedEnergy k totalEnergyKey store = .fin 0
  shares : countKeys .energyByAddress store = 0
  list : ∀ id, headOf k store = some id → id = []

variable {k : Keeper V} {s : State V} {store : Store V}

theorem store_initGenesis (data : GoString) :
    (initGenesis data (.fresh : GenesisTarget V)).store = .empty := rfl

/-- A type without the methods of `ProtoMarshaler` is not written. -/
theorem appExportGenesis_eq_panic (s : State V) : appExportGenesis protoMarshalJSON s =
    throwPanic (bytes "cannot protobuf JSON encode unsupported type: *types.GenesisState") := by
  have hmethods : ¬ protoMarshaler ⊆ ((exportGenesis s).protoMessage protoMarshalJSON).methods := by
    change ¬ protoMarshaler ⊆ GenesisState.methods
    decide
  rw [appExportGenesis, mustMarshalJSON, marshalJSON, require, if_neg hmethods]
  rfl

/-- The supply of a reachable state is the one of an empty store exactly if nothing is issued. -/
theorem Encoded.supplyQuery_eq_iff (h : Encoded k store) :
    supplyQuery k .empty = supplyQuery k store ↔ minted k store = some 0 := by
  have hempty : supplyQuery k (.empty : Store V) = .ok ⟨bytes "0"⟩ := rfl
  cases hget : store.get supplyKey with
  | none =>
      have hsame : supplyQuery k store = .ok ⟨bytes "0"⟩ := by
        rw [supplyQuery, getSupply, hget]
      have hminted : minted k store = some 0 := by
        have hget' : getSupply k store = getSupply k .empty := hsame.trans hempty.symm
        rw [← minted_empty k, minted, minted, hget']
      simp [hempty, hsame, hminted]
  -- a stored total is a number of the range, so its text is "0" exactly for zero
  | some v =>
      obtain ⟨m, hfit, rfl⟩ := h.get hget (inFamily_root .supply)
      have hstore : Reward.setSupply k ⟨formatInt m⟩ store = store := SortedMap.set_self_of_get hget
      have hsupply : supplyQuery k store = .ok ⟨formatInt m⟩ := by
        rw [← hstore]
        exact getSupply_setSupply m store
      have hminted : minted k store = some (m : Int) := by
        rw [← hstore]
        exact minted_setSupply hfit store
      have hzero : bytes "0" = formatInt 0 := by decide
      rw [hempty, hsupply, hminted, hzero]
      constructor
      · intro heq
        rw [formatInt_injective (Supply.mk.inj (Except.ok.inj heq))]
      · intro heq
        rw [Option.some_inj.1 heq]

/-- The node list of a reachable state is empty exactly if it has no head, or one without a name. -/
theorem EndsNamed.nodes_eq_iff (h : EndsNamed k store) :
    (∀ result, TxNodeListReturns k .empty result ↔ TxNodeListReturns k store result) ↔
      ∀ id, headOf k store = some id → id = [] := by
  have hempty : TxNodeListReturns k (.empty : Store V) (.ok []) := ⟨0, rfl⟩
  -- a head without a node would also give no nodes, but a reachable state has none
  have hiff : TxNodeListReturns k store (.ok []) ↔ ∀ id, headOf k store = some id → id = [] := by
    rw [txNodeListReturns_nil_iff]
    refine forall_congr' fun id => forall_congr' fun hid => ?_
    exact or_iff_left (h.head id hid)
  rw [← hiff]
  constructor
  · intro hsame
    exact (hsame (.ok [])).1 hempty
  · intro hnil result
    constructor
    · intro hresult
      rwa [hresult.unique hempty]
    · intro hresult
      rwa [hresult.unique hnil]

/-- What `InitGenesis` starts is the old state exactly if the old one was blank, whatever the data. -/
theorem sameReward_initGenesis_iff (hencoded : Encoded k s.store) (hends : EndsNamed k s.store)
    (data : GoString) :
    SameReward k s.store (initGenesis data .fresh).store ↔ Blank k s.store := by
  have hrecords : getAllRECRecords k (.empty : Store V) = .ok [] := rfl
  have hmetas : getAllRECMetas k (.empty : Store V) = .ok [] := rfl
  have htotal : storedEnergy k totalEnergyKey (.empty : Store V) = .fin 0 := rfl
  have hshares : contributors k (.empty : Store V) = [] := rfl
  rw [store_initGenesis]
  constructor
  · intro h
    have hrecordCount := getAllRECRecords_eq_nil_iff.1 (h.records.symm.trans hrecords)
    have hmetaCount := getAllRECMetas_eq_nil_iff.1 (h.metas.symm.trans hmetas)
    exact {
      issued := hencoded.supplyQuery_eq_iff.1 h.supply
      recs := by rw [numRecs, hrecordCount, hmetaCount]
      total := h.total.symm.trans htotal
      shares := contributors_eq_nil_iff.1 (h.shares.symm.trans hshares)
      list := hends.nodes_eq_iff.1 h.nodes }
  · intro h
    have hrecs := h.recs
    rw [numRecs] at hrecs
    exact {
      supply := hencoded.supplyQuery_eq_iff.2 h.issued
      records := hrecords.trans (getAllRECRecords_eq_nil_iff.2 (by omega)).symm
      metas := hmetas.trans (getAllRECMetas_eq_nil_iff.2 (by omega)).symm
      total := htotal.trans h.total.symm
      shares := hshares.trans (contributors_eq_nil_iff.2 h.shares).symm
      nodes := hends.nodes_eq_iff.2 h.list }

/-- For every reachable state: its export panics, so that no chain can be started from it; and whatever
data `InitGenesis` is given, it starts the same state exactly if the state was blank. -/
theorem genesis_never_restored (k : Keeper V) (hread : k.cdc.ReadsWholes) (bank : BankState)
    (txs : List Tx) :
    (∃ text, appExportGenesis protoMarshalJSON (run (deliver k) (genesis bank) txs) = throwPanic text) ∧
      (¬ ∃ store, restarted protoMarshalJSON (run (deliver k) (genesis bank) txs) = .ok store ∧
        SameReward k (run (deliver k) (genesis bank) txs).store store) ∧
      ∀ data, SameReward k (run (deliver k) (genesis bank) txs).store (initGenesis data .fresh).store ↔
        Blank k (run (deliver k) (genesis bank) txs).store := by
  refine ⟨⟨_, appExportGenesis_eq_panic protoMarshalJSON _⟩, ?_, ?_⟩
  · rintro ⟨store, hstore, -⟩
    rw [restarted, appExportGenesis_eq_panic] at hstore
    cases hstore
  · obtain ⟨hencoded, hends⟩ := run_encoded hread bank txs
    exact sameReward_initGenesis_iff hencoded hends

end

/-- No data restores a deposit and a mint. -/
theorem genesis_never_restored_depositThenMint :
    minted smallKeeper (run (deliver smallKeeper) (genesis emptyBank) depositThenMint).store = some 700000 ∧
      ¬ ∃ data, SameReward smallKeeper
        (run (deliver smallKeeper) (genesis emptyBank) depositThenMint).store
        (initGenesis data .fresh).store := by
  have hminted : minted smallKeeper
      (run (deliver smallKeeper) (genesis emptyBank) depositThenMint).store = some 700000 := by
    decide +kernel
  refine ⟨hminted, ?_⟩
  rintro ⟨data, hsame⟩
  obtain ⟨-, -, hdata⟩ := genesis_never_restored (fun _ => .ok []) smallKeeper readsWholes_documents
    emptyBank depositThenMint
  -- a blank state has nothing issued
  rw [((hdata data).1 hsame).issued] at hminted
  revert hminted
  decide

/-- The export of a state with one REC and 700000 issued coins panics, and a chain that is started without
it has neither. -/
theorem genesis_loses_collateral :
    getTotalCollateral (run (deliver smallKeeper) (genesis emptyBank) depositThenMint).store = 1 ∧
      supplyQuery smallKeeper (run (deliver smallKeeper) (genesis emptyBank) depositThenMint).store =
        .ok ⟨bytes "700000"⟩ ∧
      (∀ protoMarshalJSON, restarted protoMarshalJSON
          (run (deliver smallKeeper) (genesis emptyBank) depositThenMint) =
        throwPanic (bytes "cannot protobuf JSON encode unsupported type: *types.GenesisState")) ∧
      ∀ data, getTotalCollateral (initGenesis data (.fresh : GenesisTarget Document)).store = 0 ∧
        supplyQuery smallKeeper (initGenesis data .fresh).store = .ok ⟨bytes "0"⟩ := by
  refine ⟨by decide +kernel, by decide +kernel, fun protoMarshalJSON => ?_, fun data => ?_⟩
  · rw [restarted, appExportGenesis_eq_panic]
    rfl
  · rw [store_initGenesis]
    exact ⟨by decide +kernel, rfl⟩

end EnergyChain.Reward
