import EnergyChain.Reward.Decoding

/-!
# The keys of the reward store

The keys are built by string formatting from texts that the callers choose, without length prefixes.
`Key` lists the ways the module builds one. The bytes of a key determine it
(`Key.toBytes_injective`), and a prefix iterator over a family visits a key exactly if the key is of
the family (`inFamily_toBytes_iff`), whatever the texts are. The store of every run holds such keys only, each
with a value of its kind (`run_wellKeyed`).

So the messages about energy and the node list leave the collateral alone, and those about the
collateral leave the energy and the node list alone (`families_separate`).
-/

set_option autoImplicit false

namespace EnergyChain.Reward

open EnergyChain.Go
open EnergyChain.Sdk
open EnergyChain.Bank

/-! ## Keys -/

/-- A key of the store, with the text it is built from. -/
inductive Key where
  | supply
  | totalEnergy
  | energyTx
  | energyByAddress (creator : GoString)
  | recRecord (recId : GoString)
  | recMeta (certifiedId : GoString)
  | txListHead
  | txListTail
  | txNode (recId : GoString)
  deriving DecidableEq, Repr

/-- The bytes of a key. -/
def Key.toBytes : Key → GoString
  | .supply => supplyKey
  | .totalEnergy => totalEnergyKey
  | .energyTx => energyTxKey
  | .energyByAddress creator => energyByAddressKey creator
  | .recRecord recId => recRecordKey recId
  | .recMeta certifiedId => recMetaKey certifiedId
  | .txListHead => txListHeadKey
  | .txListTail => txListTailKey
  | .txNode recId => txNodeKey recId

/-- The family of a key. -/
def Key.family : Key → Family
  | .supply => .supply
  | .totalEnergy => .totalEnergy
  | .energyTx => .energyTx
  | .energyByAddress _ => .energyByAddress
  | .recRecord _ => .recRecord
  | .recMeta _ => .recMeta
  | .txListHead => .txListHead
  | .txListTail => .txListTail
  | .txNode _ => .txNode

/-- What follows the root of the family. -/
def Key.rest : Key → GoString
  | .energyByAddress creator => bytes "/" ++ creator
  | .recRecord recId => recId
  | .recMeta certifiedId => certifiedId
  | .txNode recId => recId
  | _ => []

/-- The key of a family with that rest. -/
def Key.ofRest : Family → GoString → Key
  | .supply, _ => .supply
  | .totalEnergy, _ => .totalEnergy
  | .energyTx, _ => .energyTx
  | .energyByAddress, rest => .energyByAddress (rest.drop 1)
  | .recRecord, rest => .recRecord rest
  | .recMeta, rest => .recMeta rest
  | .txListHead, _ => .txListHead
  | .txListTail, _ => .txListTail
  | .txNode, rest => .txNode rest

theorem Key.toBytes_eq (key : Key) : key.toBytes = key.family.root ++ key.rest := by
  cases key with
  | energyByAddress creator => exact List.append_assoc _ _ _
  | recRecord recId => rfl
  | recMeta certifiedId => rfl
  | txNode recId => rfl
  | _ => exact (List.append_nil _).symm

theorem Key.ofRest_family_rest (key : Key) : Key.ofRest key.family key.rest = key := by
  cases key <;> rfl

/-- A prefix iterator over a family visits the keys of the family and no other key. -/
theorem inFamily_toBytes_iff {f : Family} {key : Key} :
    inFamily f key.toBytes = true ↔ key.family = f := by
  have hown : inFamily key.family key.toBytes = true := by
    rw [key.toBytes_eq]
    exact inFamily_root_append _ _
  constructor
  · intro h
    exact inFamily_unique hown h
  · rintro rfl
    exact hown

/-- The bytes of a key determine its family and its text. -/
theorem Key.toBytes_injective : Function.Injective Key.toBytes := by
  intro a b h
  have hfamily : a.family = b.family := by
    rw [← inFamily_toBytes_iff, h, inFamily_toBytes_iff]
  have hrest : a.rest = b.rest := by
    rw [a.toBytes_eq, b.toBytes_eq, hfamily] at h
    exact List.append_cancel_left h
  rw [← a.ofRest_family_rest, ← b.ofRest_family_rest, hfamily, hrest]

/-! ## The keys of a run -/

section

variable {V : Type} {k : Keeper V} {ctx : Context} {store store' : Store V} {s s' : State V}
  {r : Result}

/-- The value is of the kind that the module stores under the key. -/
def Key.Holds (k : Keeper V) (v : V) : Key → Prop
  | .supply => ∃ s, v = k.cdc.marshalSupply s
  | .totalEnergy => ∃ t, v = k.cdc.text t
  | .energyTx => ∃ l, v = k.cdc.marshalStrings l
  | .energyByAddress _ => ∃ t, v = k.cdc.text t
  | .recRecord recId => ∃ rec, rec.recId = recId ∧ v = k.cdc.marshalRecord rec
  | .recMeta certifiedId => ∃ m, m.certifiedId = certifiedId ∧ v = k.cdc.marshalMeta m
  | .txListHead => ∃ t, v = k.cdc.text t
  | .txListTail => ∃ t, v = k.cdc.text t
  | .txNode _ => ∃ node, v = k.cdc.marshalNode node

/-- Every entry of the store has a key that the module builds and a value of the kind of the key. -/
def WellKeyed (k : Keeper V) (store : Store V) : Prop :=
  store.All fun bz v => ∃ key : Key, key.toBytes = bz ∧ key.Holds k v

theorem WellKeyed.set (h : WellKeyed k store) (key : Key) {v : V} (hv : key.Holds k v) :
    WellKeyed k (store.set key.toBytes v) :=
  SortedMap.All.set h ⟨key, rfl, hv⟩

theorem WellKeyed.resetEnergyStore (h : WellKeyed k store) : WellKeyed k (resetEnergyStore store) :=
  (SortedMap.All.deleteAll h _).delete _

theorem WellKeyed.lowerSupply {amount : Int} (h : WellKeyed k store)
    (hok : lowerSupply k amount store = .ok store') : WellKeyed k store' := by
  obtain ⟨m, -, -, rfl⟩ := lowerSupply_eq_ok.1 hok
  exact h.set .supply ⟨_, rfl⟩

theorem WellKeyed.addEnergy (h : WellKeyed k store) (creator : GoString) (amountKwh : Float64)
    (txHash : GoString) : WellKeyed k (addEnergy k creator amountKwh txHash store).1 := by
  -- the three writes that every report makes
  have hsets := fun t₁ t₂ l => ((h.set (v := k.cdc.text t₁) .totalEnergy ⟨t₁, rfl⟩).set
    (v := k.cdc.text t₂) (.energyByAddress creator) ⟨t₂, rfl⟩).set (v := k.cdc.marshalStrings l)
      .energyTx ⟨l, rfl⟩
  unfold Reward.addEnergy
  dsimp only
  split
  · exact (hsets _ _ _).set .totalEnergy ⟨_, rfl⟩
  · exact hsets _ _ _

theorem WellKeyed.foldl_issueRecord (turns : List Nat) (h : WellKeyed k store) :
    WellKeyed k (turns.foldl (issueRecord k ctx) store) := by
  induction turns generalizing store with
  | nil => exact h
  | cons i turns ih => exact ih (h.set (.recRecord (recID ctx i)) ⟨_, rfl, rfl⟩)

theorem WellKeyed.appendTxNode (h : WellKeyed k store) {node : TxNodeTx}
    (hok : appendTxNode k node store = .ok store') : WellKeyed k store' := by
  obtain ⟨stored, ⟨-, rfl⟩ | ⟨-, tail, tailNode, rfl⟩⟩ := appendTxNode_spec hok
  · exact (((h.set (.txNode node.recId) ⟨stored, rfl⟩).set .txListHead ⟨_, rfl⟩).set .txListTail
      ⟨_, rfl⟩).resetEnergyStore
  · exact (((h.set (.txNode node.recId) ⟨stored, rfl⟩).set (.txNode tail) ⟨tailNode, rfl⟩).set
      .txListTail ⟨_, rfl⟩).resetEnergyStore

/-- Every message writes keys that the module builds, with values of their kind. -/
theorem WellKeyed.handle {msg : Msg} (h : WellKeyed k s.store)
    (hok : handle k ctx s msg = .ok (s', r)) : WellKeyed k s'.store := by
  cases msg with
  | rewardSolarPower msg =>
      obtain ⟨_, _, _, _, -, -, -, -, -, -, -, hstore, -⟩ :=
        rewardSolarPower_spec (handle_rewardSolarPower hok)
      rw [hstore]
      exact h.set .supply ⟨_, rfl⟩
  | burnStableCoin msg =>
      obtain ⟨resp, hburn⟩ := handle_burnStableCoin hok
      obtain ⟨_, _, _, store₁, -, -, -, -, -, hrecs, hlower⟩ := burnStableCoin_spec hburn
      exact WellKeyed.lowerSupply (returnRecs_all hrecs h) hlower
  | burnModuleStable msg =>
      rcases burnModuleStableCoins_spec (handle_burnModuleStable hok) with
        ⟨rfl, -⟩ | ⟨_, -, -, -, -, hlower⟩
      · exact h
      · exact h.lowerSupply hlower
  | depositCollateral msg =>
      rcases depositCollateral_spec (handle_depositCollateral hok).2 with
        ⟨rec, -, hstore⟩ | ⟨recMeta, -, hstore⟩
      · rw [hstore]
        exact h.set (.recRecord rec.recId) ⟨rec, rfl, rfl⟩
      · rw [hstore]
        exact h.set (.recMeta recMeta.certifiedId) ⟨recMeta, rfl, rfl⟩
  | removeCollateral msg => exact removeCollateral_all (handle_removeCollateral hok).2 h
  | addEnergy msg =>
      obtain ⟨wh, _, -, -, hadd, -, -⟩ := handle_addEnergy hok
      have hkeyed := h.addEnergy msg.toAddr (.ofInt wh) msg.txHash
      rwa [hadd] at hkeyed
  | createRECRecord msg =>
      obtain ⟨-, hstore, -, -⟩ := handle_createRECRecord hok
      rw [hstore]
      exact h.foldl_issueRecord _
  | appendTxHash msg => exact h.appendTxNode (handle_appendTxHash hok).1
  | distributeRewardPercent msg =>
      rw [(distributeRewardPercent_spec (handle_distributeRewardPercent hok)).1]
      exact h

/-- The store of every run holds keys that the module builds, and no others. -/
theorem run_wellKeyed (k : Keeper V) (bank : BankState) (txs : List Tx) :
    WellKeyed k (run (deliver k) (genesis bank) txs).store :=
  run_store_invariant (P := WellKeyed k) (SortedMap.all_empty _) (fun h hok => h.handle hok) bank txs

/-! ## What the messages leave alone -/

/-- The issued total and all RECs are the same. -/
structure SameCollateral (k : Keeper V) (store store' : Store V) : Prop where
  supply : getSupply k store' = getSupply k store
  records : store'.select (inFamily .recRecord) = store.select (inFamily .recRecord)
  metas : store'.select (inFamily .recMeta) = store.select (inFamily .recMeta)

/-- The energy accumulators, the pending hashes and the node list are the same. -/
structure SameHistory (k : Keeper V) (store store' : Store V) : Prop where
  total : storedEnergy k totalEnergyKey store' = storedEnergy k totalEnergyKey store
  shares : store'.select (inFamily .energyByAddress) = store.select (inFamily .energyByAddress)
  pending : storedTxList k store' = storedTxList k store
  head : headOf k store' = headOf k store
  tail : tailOf k store' = tailOf k store
  nodes : store'.select (inFamily .txNode) = store.select (inFamily .txNode)

theorem ChangesOnly.sameCollateral {fs : List Family} (h : ChangesOnly fs store store')
    (hsupply : Family.supply ∉ fs) (hrecord : Family.recRecord ∉ fs) (hmeta : Family.recMeta ∉ fs) :
    SameCollateral k store store' where
  supply := by simp only [getSupply, supplyKey, h.get_eq hsupply (inFamily_root .supply)]
  records := h.select_eq hrecord
  metas := h.select_eq hmeta

theorem ChangesOnly.sameHistory {fs : List Family} (h : ChangesOnly fs store store')
    (hfs : ∀ f ∈ fs, f = .supply ∨ f = .recRecord ∨ f = .recMeta) : SameHistory k store store' := by
  -- no family of the energy or of the list is written
  have hout : ∀ f, f ≠ .supply → f ≠ .recRecord → f ≠ .recMeta → f ∉ fs := by
    intro f hsupply hrecord hmeta hf
    rcases hfs f hf with rfl | rfl | rfl
    · exact hsupply rfl
    · exact hrecord rfl
    · exact hmeta rfl
  have htotal := h.get_eq (hout .totalEnergy (by decide) (by decide) (by decide))
    (inFamily_root .totalEnergy)
  have hpending := h.get_eq (hout .energyTx (by decide) (by decide) (by decide))
    (inFamily_root .energyTx)
  constructor
  · simp only [storedEnergy, totalEnergyKey, htotal]
  · exact h.select_eq (hout _ (by decide) (by decide) (by decide))
  · simp only [storedTxList, energyTxKey, hpending]
  · exact h.headOf_eq (hout _ (by decide) (by decide) (by decide))
  · exact h.tailOf_eq (hout _ (by decide) (by decide) (by decide))
  · exact h.select_eq (hout _ (by decide) (by decide) (by decide))

/-- A delivered message writes its own families only, also if it fails. -/
theorem deliver_reward_changesOnly (k : Keeper V) (s : State V) (ctx : Context) (msg : Msg) :
    ChangesOnly msg.families s.store (deliver k s ⟨ctx, .reward msg⟩).store := by
  rcases deliver_changesOnly k s ⟨ctx, .reward msg⟩ with hstore | ⟨msg', _, _, hmsg, -, hframe⟩
  · rw [hstore]
    exact .refl _ _
  · cases hmsg
    exact hframe

/-- The messages about energy and the node list. -/
def Msg.recordsEnergy : Msg → Bool
  | .addEnergy _ => true
  | .appendTxHash _ => true
  | _ => false

/-- The messages about collateral and the issued total. -/
def Msg.movesCollateral : Msg → Bool
  | .depositCollateral _ => true
  | .removeCollateral _ => true
  | .burnStableCoin _ => true
  | .rewardSolarPower _ => true
  | .burnModuleStable _ => true
  | _ => false

/-- Keys of different families or texts are different, every iterator stays in its family, also over
the store of any run, and the two groups of messages leave each other's state alone. -/
theorem families_separate (k : Keeper V) :
    Function.Injective Key.toBytes ∧
    (∀ (f : Family) (key : Key), inFamily f key.toBytes = true ↔ key.family = f) ∧
    (∀ bank txs f, ∀ e ∈ (run (deliver k) (genesis bank) txs).store.select (inFamily f),
      ∃ key : Key, key.toBytes = e.1 ∧ key.family = f) ∧
    (∀ s ctx (msg : Msg), msg.recordsEnergy = true →
      SameCollateral k s.store (deliver k s ⟨ctx, .reward msg⟩).store) ∧
    (∀ s ctx (msg : Msg), msg.movesCollateral = true →
      SameHistory k s.store (deliver k s ⟨ctx, .reward msg⟩).store) := by
  refine ⟨Key.toBytes_injective, fun f key => inFamily_toBytes_iff, ?_, ?_, ?_⟩
  · rintro bank txs f ⟨bz, v⟩ he
    obtain ⟨hf, hget⟩ := SortedMap.mem_select.1 he
    obtain ⟨key, rfl, -⟩ := run_wellKeyed k bank txs bz v hget
    exact ⟨key, rfl, inFamily_toBytes_iff.1 hf⟩
  · intro s ctx msg hmsg
    have hframe := deliver_reward_changesOnly k s ctx msg
    cases msg with
    | addEnergy msg => exact hframe.sameCollateral (by simp) (by simp) (by simp)
    | appendTxHash msg => exact hframe.sameCollateral (by simp) (by simp) (by simp)
    | _ => cases hmsg
  · intro s ctx msg hmsg
    have hframe := deliver_reward_changesOnly k s ctx msg
    cases msg with
    | depositCollateral msg => exact hframe.sameHistory (by simp)
    | removeCollateral msg => exact hframe.sameHistory (by simp)
    | burnStableCoin msg => exact hframe.sameHistory (by simp)
    | rewardSolarPower msg => exact hframe.sameHistory (by simp)
    | burnModuleStable msg => exact hframe.sameHistory (by simp)
    | _ => cases hmsg

end

end EnergyChain.Reward
