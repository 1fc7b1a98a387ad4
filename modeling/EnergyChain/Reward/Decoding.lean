import EnergyChain.Go.Rounding
import EnergyChain.Reward.Returns
import EnergyChain.Reward.TxList

/-!
# Everything that is stored decodes

The readers of the reward store discard most decode errors: a burn drops a REC whose value does not
decode, the energy accounts fall back to zero, and the issued total is used after a parse whose
success is not checked. `Encoded` says that every entry is the encoding of a value of its family, and
`EndsNamed` that the ends of the node list name stored nodes. Both hold after every run from an empty
store (`run_encoded`), so no discarded error ever hides anything (`reachable_decodes`).

Two parts of the invariant are not a matter of the encoding. The issued total stays non-negative
because a mint refuses a negative amount and a burn stops at zero. The energy sums stay finite because
a `float64` sum of `int64` amounts saturates long before it is infinite.
-/

set_option autoImplicit false

namespace EnergyChain.Reward

open EnergyChain.Go
open EnergyChain.Sdk
open EnergyChain.Bank

/-! ## Sums that stay finite -/

/-- A whole number that a `float64` holds, of an absolute value far below the largest one. -/
structure WholeFloat (w : Int) : Prop where
  held : ∃ z : Int, Float64.ofInt z = .fin w
  bounded : |(w : ℚ)| ≤ 2 ^ 200

theorem wholeFloat_zero : WholeFloat 0 where
  held := ⟨0, Float64.ofInt_eq_fin (by decide)⟩
  bounded := by norm_num

/-- An `int64` is rounded to a whole number of at most 63 bits. -/
theorem exists_ofInt_of_isInt64 {z : Int} (h : isInt64 z = true) :
    ∃ w : Int, Float64.ofInt z = .fin w ∧ |(w : ℚ)| ≤ 2 ^ 63 := by
  apply Float64.exists_ofInt_eq_fin (by norm_num)
  obtain ⟨hlo, hhi⟩ := isInt64_iff.1 h
  have habs : |z| ≤ 2 ^ 63 := by
    rw [abs_le]
    omega
  have hcast : |(z : ℚ)| ≤ 2 ^ 63 := by exact_mod_cast habs
  refine hcast.trans_lt ?_
  norm_num

/-- At this size an `int64` is less than half a unit in the last place, so a sum does not grow past the
bound. -/
theorem WholeFloat.add {w b : Int} (hw : WholeFloat w) (hb : |(b : ℚ)| ≤ 2 ^ 63) :
    ∃ w' : Int, (Float64.fin w).add (.fin b) = .fin w' ∧ WholeFloat w' := by
  have hsum : |((w + b : Int) : ℚ)| < 2 ^ 200 + 2 ^ (((200 : Nat) : Int) - 53) := by
    rw [Int.cast_add]
    refine (abs_add_le _ _).trans_lt ?_
    have hlt : (2 : ℚ) ^ 63 < 2 ^ (((200 : Nat) : Int) - 53) := by norm_num
    linarith [hw.bounded]
  obtain ⟨w', hround, hbound⟩ := Float64.exists_ofInt_eq_fin (by norm_num) hsum
  refine ⟨w', ?_, ⟨_, hround⟩, hbound⟩
  rw [← hround, Float64.ofInt, Int.cast_add]
  rfl

/-- Taking an `int64` off keeps the sum within the same bound. -/
theorem WholeFloat.sub_ofInt {w z : Int} (hw : WholeFloat w) (hz : isInt64 z = true) :
    ∃ w' : Int, (Float64.fin w).sub (.ofInt z) = .fin w' ∧ WholeFloat w' := by
  obtain ⟨b, hb, hbound⟩ := exists_ofInt_of_isInt64 hz
  have hneg : |((-b : Int) : ℚ)| ≤ 2 ^ 63 := by rwa [Int.cast_neg, abs_neg]
  obtain ⟨w', hadd, hw'⟩ := hw.add hneg
  refine ⟨w', ?_, hw'⟩
  rw [← hadd, hb, Float64.sub, Float64.neg, Int.cast_neg]

section

variable {V : Type}

/-- A whole number that a `float64` holds is read back from its printed form. -/
def Codec.ReadsWholes (cdc : Codec V) : Prop :=
  ∀ z w : Int, Float64.ofInt z = .fin w →
    cdc.unmarshalFloat (cdc.text (Float64.fin w).format) = some (.fin w)

/-! ## The entries of the store -/

variable {k : Keeper V} {ctx : Context} {store store' : Store V}

/-- The value is what the module writes under a key of the family. -/
def Encodes (k : Keeper V) : Family → GoString → V → Prop
  | .supply, _, v => ∃ m : Nat, fits256 m ∧ v = k.cdc.marshalSupply ⟨formatInt m⟩
  | .totalEnergy, _, v => ∃ w : Int, WholeFloat w ∧ v = k.cdc.text (Float64.fin w).format
  | .energyTx, _, v => ∃ l, v = k.cdc.marshalStrings l
  | .energyByAddress, _, v => ∃ w : Int, WholeFloat w ∧ v = k.cdc.text (Float64.fin w).format
  | .recRecord, key, v => ∃ r, key = recRecordKey r.recId ∧ v = k.cdc.marshalRecord r
  | .recMeta, key, v => ∃ m, key = recMetaKey m.certifiedId ∧ v = k.cdc.marshalMeta m
  | .txListHead, _, v => ∃ id, v = k.cdc.text id
  | .txListTail, _, v => ∃ id, v = k.cdc.text id
  | .txNode, _, v => ∃ node, v = k.cdc.marshalNode node

/-- Every entry is what the module writes under its key. -/
def Encoded (k : Keeper V) (store : Store V) : Prop :=
  store.All fun key v => ∀ f, inFamily f key = true → Encodes k f key v

theorem encoded_empty (k : Keeper V) : Encoded k .empty := SortedMap.all_empty _

theorem Encoded.set (h : Encoded k store) {f : Family} {key : GoString} {v : V}
    (hkey : inFamily f key = true) (hv : Encodes k f key v) : Encoded k (store.set key v) := by
  apply SortedMap.All.set h
  intro g hg
  obtain rfl := inFamily_unique hg hkey
  exact hv

theorem Encoded.get (h : Encoded k store) {f : Family} {key : GoString} {v : V}
    (hget : store.get key = some v) (hkey : inFamily f key = true) : Encodes k f key v :=
  h key v hget f hkey

/-- The issued total is a non-negative integer. -/
theorem Encoded.minted_eq (h : Encoded k store) : ∃ m : Nat, minted k store = some (m : Int) := by
  cases hget : store.get supplyKey with
  | none =>
      refine ⟨0, ?_⟩
      -- a store without a supply is read as the empty store is
      have hsame : minted k store = minted k .empty := by
        simp only [minted, getSupply, hget, SortedMap.get_empty]
      rw [hsame, minted_empty]
      rfl
  | some v =>
      obtain ⟨m, hfit, rfl⟩ := h.get hget (inFamily_root .supply)
      refine ⟨m, ?_⟩
      have hset := SortedMap.set_self_of_get hget
      rw [← hset]
      exact minted_setSupply hfit store

/-- The stored energies are whole numbers that a `float64` holds, zero included. -/
theorem Encoded.storedEnergy_eq (hread : k.cdc.ReadsWholes) (h : Encoded k store) {key : GoString}
    (hkey : inFamily .totalEnergy key = true ∨ inFamily .energyByAddress key = true) :
    ∃ w : Int, storedEnergy k key store = .fin w ∧ WholeFloat w := by
  cases hget : store.get key with
  | none =>
      refine ⟨0, ?_, wholeFloat_zero⟩
      rw [storedEnergy, hget, Int.cast_zero]
  | some v =>
      have hv : ∃ w : Int, WholeFloat w ∧ v = k.cdc.text (Float64.fin w).format := by
        rcases hkey with hkey | hkey
        · exact h.get hget hkey
        · exact h.get hget hkey
      obtain ⟨w, hw, rfl⟩ := hv
      obtain ⟨z, hz⟩ := hw.held
      refine ⟨w, ?_, hw⟩
      simp only [storedEnergy, hget, hread z w hz, Option.getD_some]

/-! ## The ends of the node list -/

/-- The list has both ends or none, and the ends name stored nodes. -/
structure EndsNamed (k : Keeper V) (store : Store V) : Prop where
  head : ∀ id, headOf k store = some id → store.get (txNodeKey id) ≠ none
  tail : ∀ id, tailOf k store = some id → store.get (txNodeKey id) ≠ none
  both : headOf k store = none ↔ tailOf k store = none

theorem endsNamed_empty (k : Keeper V) : EndsNamed k .empty where
  head := by
    intro id hid
    cases hid
  tail := by
    intro id hid
    cases hid
  both := Iff.rfl

theorem EndsNamed.frame {fs : List Family} (h : EndsNamed k store)
    (hframe : ChangesOnly fs store store') (hhead : Family.txListHead ∉ fs)
    (htail : Family.txListTail ∉ fs) (hnode : Family.txNode ∉ fs) : EndsNamed k store' where
  head := by
    intro id hid
    rw [hframe.headOf_eq hhead] at hid
    rw [hframe.get_txNodeKey hnode]
    exact h.head id hid
  tail := by
    intro id hid
    rw [hframe.tailOf_eq htail] at hid
    rw [hframe.get_txNodeKey hnode]
    exact h.tail id hid
  both := by
    rw [hframe.headOf_eq hhead, hframe.tailOf_eq htail]
    exact h.both

/-- Everything a successful append wrote: the node, the first end or the link from the old tail, the
new tail, and the reset of the energy store. -/
theorem appendTxNode_spec {node : TxNodeTx} (h : appendTxNode k node store = .ok store') :
    ∃ stored : TxNodeTx,
      (store.get txListHeadKey = none ∧ store' = resetEnergyStore
        (((store.set (txNodeKey node.recId) (k.cdc.marshalNode stored)).set txListHeadKey
          (k.cdc.text node.recId)).set txListTailKey (k.cdc.text node.recId))) ∨
      (store.get txListHeadKey ≠ none ∧ ∃ (tail : GoString) (tailNode : TxNodeTx),
        store' = resetEnergyStore
          (((store.set (txNodeKey node.recId) (k.cdc.marshalNode stored)).set (txNodeKey tail)
            (k.cdc.marshalNode tailNode)).set txListTailKey (k.cdc.text node.recId))) := by
  refine ⟨{ node with txHashes := getAllTxHashes k store }, ?_⟩
  have hset := changesOnly_setNode store node.recId
    (k.cdc.marshalNode { node with txHashes := getAllTxHashes k store })
  unfold appendTxNode at h
  dsimp only at h
  rw [hset.get_txListHeadKey (by simp)] at h
  split at h
  · rename_i hhead
    cases h
    exact Or.inl ⟨hhead, rfl⟩
  · rename_i bz hhead
    split at h
    · cases h
    · split at h
      · cases h
      · cases h
        exact Or.inr ⟨by simp [hhead], _, _, rfl⟩

theorem Encoded.resetEnergyStore (h : Encoded k store) : Encoded k (resetEnergyStore store) :=
  (SortedMap.All.deleteAll h _).delete _

theorem Encoded.setNode (h : Encoded k store) (id : GoString) (node : TxNodeTx) :
    Encoded k (store.set (txNodeKey id) (k.cdc.marshalNode node)) :=
  h.set (f := .txNode) (inFamily_root_append _ _) ⟨node, rfl⟩

theorem Encoded.setTail (h : Encoded k store) (id : GoString) :
    Encoded k (store.set txListTailKey (k.cdc.text id)) :=
  h.set (f := .txListTail) (inFamily_root _) ⟨id, rfl⟩

theorem Encoded.appendTxNode (h : Encoded k store) {node : TxNodeTx}
    (hok : appendTxNode k node store = .ok store') : Encoded k store' := by
  obtain ⟨stored, ⟨-, rfl⟩ | ⟨-, tail, tailNode, rfl⟩⟩ := appendTxNode_spec hok
  · have hhead := (h.setNode node.recId stored).set (f := .txListHead) (inFamily_root _)
      ⟨node.recId, rfl⟩
    exact (hhead.setTail node.recId).resetEnergyStore
  · exact (((h.setNode node.recId stored).setNode tail tailNode).setTail node.recId).resetEnergyStore

/-- After the last two writes of an append the tail is the new node. -/
theorem endsNamed_of_linked {recId head : GoString} (hhead : headOf k store = some head)
    (hheadNode : store.get (txNodeKey head) ≠ none) (hnew : store.get (txNodeKey recId) ≠ none) :
    EndsNamed k (resetEnergyStore (store.set txListTailKey (k.cdc.text recId))) := by
  have hset := changesOnly_setTail store (k.cdc.text recId)
  apply EndsNamed.frame _ (resetEnergyStore_changesOnly _) (by simp) (by simp) (by simp)
  have htail : tailOf k (store.set txListTailKey (k.cdc.text recId)) = some recId := by
    rw [tailOf, SortedMap.get_set_self, Option.map_some, k.cdc.text_roundTrip]
  have hhead' : headOf k (store.set txListTailKey (k.cdc.text recId)) = some head := by
    rw [hset.headOf_eq (by simp), hhead]
  constructor
  · intro id hid
    rw [hhead', Option.some_inj] at hid
    rwa [← hid, hset.get_txNodeKey (by simp)]
  · intro id hid
    rw [htail, Option.some_inj] at hid
    rwa [← hid, hset.get_txNodeKey (by simp)]
  · rw [hhead', htail]
    simp

theorem EndsNamed.appendTxNode (h : EndsNamed k store) {node : TxNodeTx}
    (hok : appendTxNode k node store = .ok store') : EndsNamed k store' := by
  obtain ⟨stored, ⟨-, rfl⟩ | ⟨hne, tail, tailNode, rfl⟩⟩ := appendTxNode_spec hok
  · -- the first node is both ends
    have hset := changesOnly_setHead
      (store.set (txNodeKey node.recId) (k.cdc.marshalNode stored)) (k.cdc.text node.recId)
    have hnew : ((store.set (txNodeKey node.recId) (k.cdc.marshalNode stored)).set txListHeadKey
        (k.cdc.text node.recId)).get (txNodeKey node.recId) ≠ none := by
      rw [hset.get_txNodeKey (by simp), SortedMap.get_set_self]
      simp
    refine endsNamed_of_linked ?_ hnew hnew
    rw [headOf, SortedMap.get_set_self, Option.map_some, k.cdc.text_roundTrip]
  · -- the head stays, and no node is deleted
    have hset := changesOnly_setNode store node.recId (k.cdc.marshalNode stored)
    have hlink := changesOnly_setNode (store.set (txNodeKey node.recId) (k.cdc.marshalNode stored))
      tail (k.cdc.marshalNode tailNode)
    obtain ⟨bz, hbz⟩ := Option.ne_none_iff_exists'.1 hne
    have hhead : headOf k store = some (k.cdc.toText bz) := by rw [headOf, hbz, Option.map_some]
    have hhead' := (hlink.headOf_eq (k := k) (by simp)).trans ((hset.headOf_eq (by simp)).trans hhead)
    refine endsNamed_of_linked hhead' ?_ ?_
    · exact SortedMap.get_set_ne_none (SortedMap.get_set_ne_none (h.head _ hhead) _ _) _ _
    · apply SortedMap.get_set_ne_none
      rw [SortedMap.get_set_self]
      simp

/-! ## Every message writes encodings -/

theorem Encoded.setSupply (h : Encoded k store) {m : Int} (hm : 0 ≤ m) (hfit : fits256 m) :
    Encoded k (setSupply k ⟨formatInt m⟩ store) := by
  obtain ⟨n, rfl⟩ := Int.eq_ofNat_of_zero_le hm
  exact h.set (f := .supply) (inFamily_root _) ⟨n, hfit, rfl⟩

theorem Encoded.lowerSupply (h : Encoded k store) {amount : Int}
    (hok : lowerSupply k amount store = .ok store') : Encoded k store' := by
  obtain ⟨m, hm, hfit, rfl⟩ := lowerSupply_eq_ok.1 hok
  apply h.setSupply (le_max_right _ _)
  unfold fits256 at hfit ⊢
  omega

theorem Encoded.rewardSolarPower {s s' : State V} {to_ amount : GoString} (h : Encoded k s.store)
    (hok : rewardSolarPower k ctx to_ amount s = .ok s') : Encoded k s'.store := by
  obtain ⟨a, u, m, addr, -, hm, hfit, -, -, -, -, hstore, -⟩ := rewardSolarPower_spec hok
  obtain ⟨n, hn⟩ := h.minted_eq
  rw [hm, Option.some_inj] at hn
  rw [hstore]
  exact h.setSupply (by omega) hfit

theorem Encoded.depositCollateral {msg : MsgDepositCollateral} (h : Encoded k store)
    (hok : depositCollateral k msg store = .ok store') : Encoded k store' := by
  rcases depositCollateral_spec hok with ⟨r, -, rfl⟩ | ⟨m, -, rfl⟩
  · exact h.set (f := .recRecord) (inFamily_root_append _ _) ⟨r, rfl, rfl⟩
  · exact h.set (f := .recMeta) (inFamily_root_append _ _) ⟨m, rfl, rfl⟩

theorem Encoded.foldl_issueRecord (turns : List Nat) (h : Encoded k store) :
    Encoded k (turns.foldl (issueRecord k ctx) store) := by
  induction turns generalizing store with
  | nil => exact h
  | cons i turns ih =>
      apply ih
      exact h.set (f := .recRecord) (inFamily_root_append _ _) ⟨issuedRecord k ctx i store, rfl, rfl⟩

theorem Encoded.setTotal (h : Encoded k store) {w : Int} (hw : WholeFloat w) :
    Encoded k (store.set totalEnergyKey (k.cdc.text (Float64.fin w).format)) :=
  h.set (f := .totalEnergy) (inFamily_root _) ⟨w, hw, rfl⟩

/-- An energy account after a report of `wh`. -/
theorem Encoded.exists_add (hread : k.cdc.ReadsWholes) (h : Encoded k store) {key : GoString}
    (hkey : inFamily .totalEnergy key = true ∨ inFamily .energyByAddress key = true) {wh : Int}
    (h64 : isInt64 wh = true) :
    ∃ w : Int, (storedEnergy k key store).add (.ofInt wh) = .fin w ∧ WholeFloat w := by
  obtain ⟨t, ht, htf⟩ := h.storedEnergy_eq hread hkey
  obtain ⟨b, hb, hbound⟩ := exists_ofInt_of_isInt64 h64
  rw [ht, hb]
  exact htf.add hbound

theorem Encoded.addEnergy (hread : k.cdc.ReadsWholes) (h : Encoded k store) {wh : Int}
    (h64 : isInt64 wh = true) (creator txHash : GoString) :
    Encoded k (addEnergy k creator (.ofInt wh) txHash store).1 := by
  have hcreator := inFamily_energyByAddressKey creator
  -- the four writes in the order of the source, each into a store that is encoded already
  have hroot : inFamily .totalEnergy totalEnergyKey = true := inFamily_root _
  obtain ⟨t, ht, htf⟩ := h.exists_add hread (Or.inl hroot) h64
  have htotal := h.setTotal htf
  obtain ⟨a, ha, haf⟩ := htotal.exists_add hread (Or.inr hcreator) h64
  have hshare := htotal.set hcreator ⟨a, haf, rfl⟩
  have hhashes : ∀ l, Encoded k (((store.set totalEnergyKey (k.cdc.text (Float64.fin t).format)).set
      (energyByAddressKey creator) (k.cdc.text (Float64.fin a).format)).set energyTxKey
        (k.cdc.marshalStrings l)) := by
    intro l
    exact hshare.set (f := .energyTx) (inFamily_root _) ⟨l, rfl⟩
  simp only [Reward.addEnergy, ht, ha]
  split
  · obtain ⟨r, hr, hrf⟩ := htf.sub_ofInt (isInt64_wrap64 _)
    rw [hr]
    exact (hhashes _).setTotal hrf
  · exact hhashes _

/-- Every successful message leaves encodings only. -/
theorem Encoded.handle (hread : k.cdc.ReadsWholes) {s s' : State V} {msg : Msg} {r : Result}
    (h : Encoded k s.store) (hok : handle k ctx s msg = .ok (s', r)) : Encoded k s'.store := by
  cases msg with
  | rewardSolarPower msg => exact h.rewardSolarPower (handle_rewardSolarPower hok)
  | burnStableCoin msg =>
      obtain ⟨resp, hburn⟩ := handle_burnStableCoin hok
      obtain ⟨denom, a, addr, store₁, -, -, -, -, -, hrecs, hlower⟩ := burnStableCoin_spec hburn
      exact Encoded.lowerSupply (returnRecs_all hrecs h) hlower
  | burnModuleStable msg =>
      rcases burnModuleStableCoins_spec (handle_burnModuleStable hok) with
        ⟨rfl, -⟩ | ⟨a, -, -, -, -, hlower⟩
      · exact h
      · exact h.lowerSupply hlower
  | depositCollateral msg => exact h.depositCollateral (handle_depositCollateral hok).2
  | removeCollateral msg => exact removeCollateral_all (handle_removeCollateral hok).2 h
  | addEnergy msg =>
      obtain ⟨wh, recs, -, h64, hadd, -, -⟩ := handle_addEnergy hok
      have hencoded := h.addEnergy hread h64 msg.toAddr msg.txHash
      rwa [hadd] at hencoded
  | createRECRecord msg =>
      obtain ⟨-, hstore, -, -⟩ := handle_createRECRecord hok
      rw [hstore]
      exact h.foldl_issueRecord _
  | appendTxHash msg => exact h.appendTxNode (handle_appendTxHash hok).1
  | distributeRewardPercent msg =>
      rw [(distributeRewardPercent_spec (handle_distributeRewardPercent hok)).1]
      exact h

theorem EndsNamed.handle {s s' : State V} {msg : Msg} {r : Result} (h : EndsNamed k s.store)
    (hok : handle k ctx s msg = .ok (s', r)) : EndsNamed k s'.store := by
  have hframe := handle_changesOnly hok
  cases msg with
  | appendTxHash msg => exact h.appendTxNode (handle_appendTxHash hok).1
  | _ => exact h.frame hframe (by simp) (by simp) (by simp)

/-- The invariant of every run. -/
theorem run_encoded (hread : k.cdc.ReadsWholes) (bank : BankState) (txs : List Tx) :
    Encoded k (run (deliver k) (genesis bank) txs).store ∧
      EndsNamed k (run (deliver k) (genesis bank) txs).store := by
  apply run_store_invariant (P := fun store => Encoded k store ∧ EndsNamed k store)
  · exact ⟨encoded_empty k, endsNamed_empty k⟩
  · rintro ctx s s' msg r ⟨hencoded, hends⟩ hok
    exact ⟨hencoded.handle hread hok, hends.handle hok⟩

/-! ## What the readers find -/

/-- Every entry decodes as its type, a REC with the identifier of its key; the issued total is a
non-negative integer; the list has both ends or none, and they name stored nodes. -/
structure Decodes (k : Keeper V) (store : Store V) : Prop where
  supply : ∃ m : Nat, minted k store = some (m : Int)
  records : ∀ key v, inFamily .recRecord key = true → store.get key = some v →
    ∃ r, k.cdc.unmarshalRecord v = .ok r ∧ key = recRecordKey r.recId
  metas : ∀ key v, inFamily .recMeta key = true → store.get key = some v →
    ∃ m, k.cdc.unmarshalMeta v = .ok m ∧ key = recMetaKey m.certifiedId
  total : ∀ v, store.get totalEnergyKey = some v → ∃ q, k.cdc.unmarshalFloat v = some (.fin q)
  shares : ∀ key v, inFamily .energyByAddress key = true → store.get key = some v →
    ∃ q, k.cdc.unmarshalFloat v = some (.fin q)
  hashes : ∀ v, store.get energyTxKey = some v → ∃ l, k.cdc.unmarshalStrings v = (l, true)
  nodes : ∀ key v, inFamily .txNode key = true → store.get key = some v →
    ∃ node, k.cdc.unmarshalNode v = .ok node
  ends : (headOf k store = none ∧ tailOf k store = none) ∨
    ∃ head tail, headOf k store = some head ∧ tailOf k store = some tail ∧
      store.get (txNodeKey head) ≠ none ∧ store.get (txNodeKey tail) ≠ none

theorem EndsNamed.ends (h : EndsNamed k store) :
    (headOf k store = none ∧ tailOf k store = none) ∨
      ∃ head tail, headOf k store = some head ∧ tailOf k store = some tail ∧
        store.get (txNodeKey head) ≠ none ∧ store.get (txNodeKey tail) ≠ none := by
  cases hhead : headOf k store with
  | none => exact Or.inl ⟨rfl, h.both.1 hhead⟩
  | some head =>
      cases htail : tailOf k store with
      | none => simp [h.both.2 htail] at hhead
      | some tail => exact Or.inr ⟨head, tail, rfl, rfl, h.head head hhead, h.tail tail htail⟩

theorem Encoded.decodes (hread : k.cdc.ReadsWholes) (h : Encoded k store) (hends : EndsNamed k store) :
    Decodes k store where
  supply := h.minted_eq
  records := by
    intro key v hkey hget
    obtain ⟨r, hr, rfl⟩ := h.get hget hkey
    exact ⟨r, k.cdc.record_roundTrip r, hr⟩
  metas := by
    intro key v hkey hget
    obtain ⟨m, hm, rfl⟩ := h.get hget hkey
    exact ⟨m, k.cdc.meta_roundTrip m, hm⟩
  total := by
    intro v hget
    obtain ⟨w, ⟨⟨z, hz⟩, -⟩, rfl⟩ := h.get hget (inFamily_root .totalEnergy)
    exact ⟨w, hread z w hz⟩
  shares := by
    intro key v hkey hget
    obtain ⟨w, ⟨⟨z, hz⟩, -⟩, rfl⟩ := h.get hget hkey
    exact ⟨w, hread z w hz⟩
  hashes := by
    intro v hget
    obtain ⟨l, rfl⟩ := h.get hget (inFamily_root .energyTx)
    exact ⟨_, k.cdc.strings_roundTrip l⟩
  nodes := by
    intro key v hkey hget
    obtain ⟨node, rfl⟩ := h.get hget hkey
    exact ⟨_, k.cdc.node_roundTrip node⟩
  ends := hends.ends

/-- The values that the loops of a burn pass are stored under REC keys. -/
theorem deleteRecs_values (limit : Int) (store : Store V) :
    (∀ v ∈ (deleteRecs limit store).2.1,
      ∃ key, inFamily .recRecord key = true ∧ store.get key = some v) ∧
    (∀ v ∈ (deleteRecs limit store).2.2.1,
      ∃ key, inFamily .recMeta key = true ∧ store.get key = some v) := by
  have hvalue : ∀ (f : Family) (n : Nat) (st : Store V),
      ∀ v ∈ ((st.select (inFamily f)).take n).map Prod.snd,
        ∃ key, inFamily f key = true ∧ st.get key = some v := by
    intro f n st v hv
    obtain ⟨⟨key, v'⟩, hmem, rfl⟩ := List.mem_map.1 hv
    exact ⟨key, SortedMap.mem_select.1 (List.mem_of_mem_take hmem)⟩
  simp only [deleteRecs, deleteLoop_eq]
  split
  · refine ⟨hvalue _ _ _, ?_⟩
    intro v hv
    obtain ⟨key, hkey, hget⟩ := hvalue _ _ _ v hv
    -- the first loop deletes records only
    refine ⟨key, hkey, ?_⟩
    rw [← hget]
    exact ((changesOnly_deleteAll_take .recRecord _ store).get_eq (by decide) hkey).symm
  · refine ⟨hvalue _ _ _, ?_⟩
    intro v hv
    cases hv

theorem length_decoded {α : Type} {unmarshal : V → Except GoString α} {values : List V}
    (h : ∀ v ∈ values, ∃ a, unmarshal v = .ok a) :
    (decoded unmarshal values).length = values.length := by
  induction values with
  | nil => rfl
  | cons v values ih =>
      obtain ⟨a, ha⟩ := h v List.mem_cons_self
      have hrest := ih fun v' hv' => h v' (List.mem_cons_of_mem v hv')
      simp only [decoded, List.filterMap_cons, ha, Except.toOption, List.length_cons] at hrest ⊢
      rw [hrest]

/-- No REC that the loops of a burn delete is left out of the response. -/
def AllReturned (k : Keeper V) (limit : Int) (store : Store V) : Prop :=
  (decoded k.cdc.unmarshalRecord (deleteRecs limit store).2.1).length =
      (deleteRecs limit store).2.1.length ∧
    (decoded k.cdc.unmarshalMeta (deleteRecs limit store).2.2.1).length =
      (deleteRecs limit store).2.2.1.length

theorem Decodes.allReturned (h : Decodes k store) (limit : Int) : AllReturned k limit store := by
  obtain ⟨hrecords, hmetas⟩ := deleteRecs_values limit store
  constructor
  · apply length_decoded
    intro v hv
    obtain ⟨key, hkey, hget⟩ := hrecords v hv
    obtain ⟨r, hr, -⟩ := h.records key v hkey hget
    exact ⟨r, hr⟩
  · apply length_decoded
    intro v hv
    obtain ⟨key, hkey, hget⟩ := hmetas v hv
    obtain ⟨m, hm, -⟩ := h.metas key v hkey hget
    exact ⟨m, hm⟩

/-- After every run from an empty store everything decodes; a burn then returns every REC that its
loops delete, and the issued total that a mint or a burn reads, before and after the RECs are deleted,
is an integer. -/
theorem reachable_decodes (k : Keeper V) (hread : k.cdc.ReadsWholes) (bank : BankState)
    (txs : List Tx) :
    Decodes k (run (deliver k) (genesis bank) txs).store ∧
      (∀ limit, AllReturned k limit (run (deliver k) (genesis bank) txs).store) ∧
      ∀ n store₁ resp, returnRecs k n (run (deliver k) (genesis bank) txs).store = .ok (store₁, resp) →
        ∃ m : Nat, minted k store₁ = some (m : Int) := by
  obtain ⟨hencoded, hends⟩ := run_encoded hread bank txs
  have hdecodes := hencoded.decodes hread hends
  refine ⟨hdecodes, hdecodes.allReturned, ?_⟩
  intro n store₁ resp hok
  exact Encoded.minted_eq (returnRecs_all hok hencoded)

end

/-- The free encoding reads every whole number. -/
theorem readsWholes_documents : documents.ReadsWholes := by
  intro z w _
  exact readFloat_format w

/-- A run that writes every family: a deposit and a mint, two reports, an issue and an append. -/
def busyRun : List Tx :=
  depositThenMint ++
    [smallTx 3 (.addEnergy ⟨alice, alice, bytes "1500000", bytes "h1"⟩),
      smallTx 3 (.addEnergy ⟨alice, mallory, bytes "-9223372036854775808", bytes "h2"⟩),
      smallTx 4 (.createRECRecord ⟨alice, 1⟩),
      smallTx 5 (.appendTxHash ⟨alice, [], alice, bytes "rec-4-0", []⟩)]

theorem reachable_decodes_busyRun :
    Decodes smallKeeper (run (deliver smallKeeper) (genesis emptyBank) busyRun).store :=
  (reachable_decodes smallKeeper readsWholes_documents emptyBank busyRun).1

end EnergyChain.Reward
