import EnergyChain.Lib.LinkedList
import EnergyChain.Reward.Effects

/-!
# The list of transaction nodes is finite

`AppendTxHash` keeps a linked list in the store: the keys `TxListHead` and `TxListTail` name its ends,
and the entry `TxNode/id` holds a node with the id of the next one. The `TxNodeList` query follows
the list with no other bound. An append writes the new node before it reads the tail, takes `next`
from the message, and accepts an id that is in use.

`appendTxNode_listFinite_iff` says exactly when an append keeps the list finite, without repetition
and with the tail as its last node: the node it leaves at the end must point to no stored node. From
it `listFinite_iff_keepsFinite` characterises the runs in which the list stays so. An append under
the id of the current tail makes the tail point to itself, and the query never ends
(`repeated_tail_never_ends`).
-/

set_option autoImplicit false

namespace EnergyChain.Reward

open EnergyChain.Go
open EnergyChain.Sdk
open EnergyChain.Bank

section

variable {V : Type} {k : Keeper V} {store store' : Store V}

/-! ## The list in the store -/

/-- The id that `TxListHead` names. -/
def headOf (k : Keeper V) (store : Store V) : Option GoString :=
  (store.get txListHeadKey).map k.cdc.toText

/-- The id that `TxListTail` names. -/
def tailOf (k : Keeper V) (store : Store V) : Option GoString :=
  (store.get txListTailKey).map k.cdc.toText

/-- The node that the query reads under an id. -/
def nodeAt (k : Keeper V) (store : Store V) (id : GoString) : Option TxNodeTx :=
  if id = [] then none
  else (store.get (txNodeKey id)).bind fun bz => (k.cdc.unmarshalNode bz).toOption

/-- What every run keeps: a stored node is the encoding of a node, and the list has both ends or
none. -/
structure ListStored (k : Keeper V) (store : Store V) : Prop where
  encoded : ∀ id bz, store.get (txNodeKey id) = some bz → ∃ node, bz = k.cdc.marshalNode node
  ends : (headOf k store).isSome = (tailOf k store).isSome

theorem listStored_empty (k : Keeper V) : ListStored k .empty where
  encoded := by
    intro id bz hget
    cases hget
  ends := rfl

/-- The query ends, visits no key twice, and visits the tail last. -/
def ListFinite (k : Keeper V) (store : Store V) : Prop :=
  ∃ fuel visits, txNodeVisits k fuel store = some (.ok visits) ∧ (visits.map Prod.fst).Nodup ∧
    (visits.map Prod.fst).getLast? = tailOf k store

theorem nodeAt_eq_some {id : GoString} {node : TxNodeTx} :
    nodeAt k store id = some node ↔
      id ≠ [] ∧ ∃ bz, store.get (txNodeKey id) = some bz ∧ k.cdc.unmarshalNode bz = .ok node := by
  by_cases hid : id = []
  · simp [nodeAt, hid]
  · rw [nodeAt, if_neg hid, Option.bind_eq_some_iff, and_iff_right hid]
    refine exists_congr fun bz => and_congr_right fun _ => ?_
    cases k.cdc.unmarshalNode bz <;> simp [Except.toOption]

theorem ListStored.nodeAt_eq_none (h : ListStored k store) {id : GoString} :
    nodeAt k store id = none ↔ id = [] ∨ store.get (txNodeKey id) = none := by
  by_cases hid : id = []
  · simp [nodeAt, hid]
  · cases hget : store.get (txNodeKey id) with
    | none => simp [nodeAt, hget]
    | some bz =>
        obtain ⟨node, rfl⟩ := h.encoded id bz hget
        simp [nodeAt, hid, hget, k.cdc.node_roundTrip, Except.toOption]

theorem throughJson_idem (node : TxNodeTx) : node.throughJson.throughJson = node.throughJson := by
  simp [TxNodeTx.throughJson, jsonText_idem]

/-- A node that is read back survives JSON. -/
theorem ListStored.throughJson_eq (h : ListStored k store) {id : GoString} {node : TxNodeTx}
    (hnode : nodeAt k store id = some node) : node.throughJson = node := by
  obtain ⟨-, bz, hget, hdecode⟩ := nodeAt_eq_some.1 hnode
  obtain ⟨node', rfl⟩ := h.encoded id bz hget
  rw [k.cdc.node_roundTrip] at hdecode
  obtain rfl := Except.ok.inj hdecode
  exact throughJson_idem node'

/-- The loop of the query returns the visits of the walk. -/
theorem exists_txNodeWalk_iff (h : ListStored k store) {cur : GoString}
    {visits : List (GoString × TxNodeTx)} :
    (∃ fuel, txNodeWalk k store fuel cur = some (.ok visits)) ↔
      Visits (nodeAt k store) TxNodeTx.next cur visits := by
  constructor
  · rintro ⟨fuel, hwalk⟩
    -- from the loop to the walk: induction on the fuel, one case per way out of the loop body
    induction fuel generalizing cur visits with
    | zero => simp [txNodeWalk] at hwalk
    | succ fuel ih =>
        simp only [txNodeWalk] at hwalk
        split at hwalk
        · rename_i hcur
          cases hwalk
          exact visits_nil.2 (h.nodeAt_eq_none.2 (Or.inl hcur))
        · rename_i hcur
          split at hwalk
          · rename_i hget
            cases hwalk
            exact visits_nil.2 (h.nodeAt_eq_none.2 (Or.inr hget))
          · rename_i bz hget
            split at hwalk
            · cases hwalk
            · rename_i node hdecode
              obtain ⟨rest, hrest, hvisits⟩ := Option.map_eq_some_iff.1 hwalk
              cases rest with
              | error err => cases hvisits
              | ok rest =>
                  cases hvisits
                  exact visits_cons.2
                    ⟨rfl, nodeAt_eq_some.2 ⟨hcur, bz, hget, hdecode⟩, ih hrest⟩
  · intro hvisits
    -- from the walk to the loop: one unit of fuel per visit, and one to see the end
    induction visits generalizing cur with
    | nil =>
        refine ⟨1, ?_⟩
        rcases h.nodeAt_eq_none.1 (visits_nil.1 hvisits) with rfl | hget
        · simp [txNodeWalk]
        · simp [txNodeWalk, hget]
    | cons v visits ih =>
        obtain ⟨key, node⟩ := v
        obtain ⟨rfl, hnode, hrest⟩ := visits_cons.1 hvisits
        obtain ⟨fuel, hwalk⟩ := ih hrest
        obtain ⟨hkey, bz, hget, hdecode⟩ := nodeAt_eq_some.1 hnode
        refine ⟨fuel + 1, ?_⟩
        simp [txNodeWalk, hkey, hget, hdecode, hwalk, Except.map]

/-- A finite list is empty, or its walk leads from the head to the tail. -/
theorem ListStored.listFinite_iff (h : ListStored k store) :
    ListFinite k store ↔ headOf k store = none ∨
      ∃ head tail visits, headOf k store = some head ∧ tailOf k store = some tail ∧
        Visits (nodeAt k store) TxNodeTx.next head visits ∧ (visits.map Prod.fst).Nodup ∧
        (visits.map Prod.fst).getLast? = some tail := by
  have hends := h.ends
  cases hget : store.get txListHeadKey with
  | none =>
      have hhead : headOf k store = none := by rw [headOf, hget]; rfl
      -- no head means no tail, so the list is empty and the query returns at once
      have htail : tailOf k store = none := by simpa [hhead] using hends.symm
      refine ⟨fun _ => Or.inl hhead, fun _ => ⟨0, [], ?_, List.nodup_nil, htail.symm⟩⟩
      simp [txNodeVisits, hget]
  | some bz =>
      have hhead : headOf k store = some (k.cdc.toText bz) := by rw [headOf, hget]; rfl
      obtain ⟨tail, htail⟩ : ∃ tail, tailOf k store = some tail :=
        Option.isSome_iff_exists.1 (by rw [← hends, hhead]; rfl)
      simp only [ListFinite, txNodeVisits, hget, hhead, htail, reduceCtorEq, false_or]
      constructor
      · rintro ⟨fuel, visits, hwalk, hnodup, hlast⟩
        exact ⟨_, _, visits, rfl, rfl, (exists_txNodeWalk_iff h).1 ⟨fuel, hwalk⟩, hnodup, hlast⟩
      · rintro ⟨_, _, visits, ⟨⟩, ⟨⟩, hvisits, hnodup, hlast⟩
        obtain ⟨fuel, hwalk⟩ := (exists_txNodeWalk_iff h).2 hvisits
        exact ⟨fuel, visits, hwalk, hnodup, hlast⟩

/-! ## Writes -/

section

variable {fs : List Family}

theorem ChangesOnly.get_txListHeadKey (h : ChangesOnly fs store store')
    (hf : Family.txListHead ∉ fs) : store'.get txListHeadKey = store.get txListHeadKey :=
  h.get_eq hf (inFamily_root _)

theorem ChangesOnly.get_txListTailKey (h : ChangesOnly fs store store')
    (hf : Family.txListTail ∉ fs) : store'.get txListTailKey = store.get txListTailKey :=
  h.get_eq hf (inFamily_root _)

theorem ChangesOnly.headOf_eq (h : ChangesOnly fs store store') (hf : Family.txListHead ∉ fs) :
    headOf k store' = headOf k store := by
  rw [headOf, headOf, h.get_txListHeadKey hf]

theorem ChangesOnly.tailOf_eq (h : ChangesOnly fs store store') (hf : Family.txListTail ∉ fs) :
    tailOf k store' = tailOf k store := by
  rw [tailOf, tailOf, h.get_txListTailKey hf]

theorem ChangesOnly.get_txNodeKey (h : ChangesOnly fs store store') (hf : Family.txNode ∉ fs)
    (id : GoString) : store'.get (txNodeKey id) = store.get (txNodeKey id) :=
  h.get_eq hf (inFamily_root_append _ _)

theorem ChangesOnly.nodeAt_eq (h : ChangesOnly fs store store') (hf : Family.txNode ∉ fs) :
    nodeAt k store' = nodeAt k store := by
  funext id
  rw [nodeAt, nodeAt, h.get_txNodeKey hf]

/-- A write outside the three families of the list leaves it alone. -/
theorem ChangesOnly.listStored (h : ChangesOnly fs store store') (hhead : Family.txListHead ∉ fs)
    (htail : Family.txListTail ∉ fs) (hnode : Family.txNode ∉ fs) (hstored : ListStored k store) :
    ListStored k store' := by
  constructor
  · intro id bz hget
    rw [h.get_txNodeKey hnode] at hget
    exact hstored.encoded id bz hget
  · rw [h.headOf_eq hhead, h.tailOf_eq htail]
    exact hstored.ends

theorem ChangesOnly.listFinite_iff (h : ChangesOnly fs store store')
    (hhead : Family.txListHead ∉ fs) (htail : Family.txListTail ∉ fs) (hnode : Family.txNode ∉ fs)
    (hstored : ListStored k store) : ListFinite k store' ↔ ListFinite k store := by
  rw [(h.listStored hhead htail hnode hstored).listFinite_iff, hstored.listFinite_iff,
    h.headOf_eq hhead, h.tailOf_eq htail, h.nodeAt_eq hnode]

end

/-- Storing a node under its id. -/
theorem nodeAt_set {id : GoString} (hid : id ≠ []) (node : TxNodeTx) :
    nodeAt k (store.set (txNodeKey id) (k.cdc.marshalNode node)) =
      Function.update (nodeAt k store) id (some node.throughJson) := by
  funext id'
  by_cases h : id' = id
  · subst h
    rw [Function.update_self, nodeAt_eq_some]
    exact ⟨hid, _, SortedMap.get_set_self _ _ _, k.cdc.node_roundTrip node⟩
  · rw [Function.update_of_ne h, nodeAt, nodeAt,
      SortedMap.get_set_of_ne _ _ fun e => h (txNodeKey_injective e)]

theorem encoded_set (h : ∀ id bz, store.get (txNodeKey id) = some bz →
      ∃ node, bz = k.cdc.marshalNode node) (recId : GoString) (node : TxNodeTx) :
    ∀ id bz, (store.set (txNodeKey recId) (k.cdc.marshalNode node)).get (txNodeKey id) = some bz →
      ∃ node, bz = k.cdc.marshalNode node := by
  intro id bz hget
  by_cases hid : id = recId
  · subst hid
    rw [SortedMap.get_set_self] at hget
    exact ⟨node, (Option.some_inj.1 hget).symm⟩
  · rw [SortedMap.get_set_of_ne _ _ fun e => hid (txNodeKey_injective e)] at hget
    exact h id bz hget

/-! ## One append -/

/-- The list after an append: its ends, its nodes, and the emptied list of pending hashes. -/
structure Appended (k : Keeper V) (head recId : GoString) (nodes : GoString → Option TxNodeTx)
    (store' : Store V) : Prop where
  stored : ListStored k store'
  head_eq : headOf k store' = some head
  tail_eq : tailOf k store' = some recId
  nodes_eq : nodeAt k store' = nodes
  emptied : store'.get energyTxKey = none

/-- The last writes of an append: the tail, and the reset of the energy store. -/
theorem appended_of_nodes {head recId : GoString} {nodes : GoString → Option TxNodeTx}
    (hencoded : ∀ id bz, store.get (txNodeKey id) = some bz → ∃ node, bz = k.cdc.marshalNode node)
    (hhead : headOf k store = some head) (hnodes : nodeAt k store = nodes) :
    Appended k head recId nodes
      (resetEnergyStore (store.set txListTailKey (k.cdc.text recId))) := by
  have htail := changesOnly_setTail store (k.cdc.text recId)
  have hreset := resetEnergyStore_changesOnly (store.set txListTailKey (k.cdc.text recId))
  have hhead' : headOf k (resetEnergyStore (store.set txListTailKey (k.cdc.text recId))) =
      some head := by
    rw [hreset.headOf_eq (by simp), htail.headOf_eq (by simp), hhead]
  have htail' : tailOf k (resetEnergyStore (store.set txListTailKey (k.cdc.text recId))) =
      some recId := by
    rw [hreset.tailOf_eq (by simp), tailOf, SortedMap.get_set_self, Option.map_some,
      k.cdc.text_roundTrip]
  refine ⟨⟨?_, by rw [hhead', htail']; rfl⟩, hhead', htail', ?_, SortedMap.get_delete_self _ _⟩
  · intro id bz hget
    rw [hreset.get_txNodeKey (by simp), htail.get_txNodeKey (by simp)] at hget
    exact hencoded id bz hget
  · rw [hreset.nodeAt_eq (by simp), htail.nodeAt_eq (by simp), hnodes]

/-- The node that an append writes, as JSON stores it. -/
def appendedNode (k : Keeper V) (store : Store V) (node : TxNodeTx) : TxNodeTx :=
  ({ node with txHashes := getAllTxHashes k store } : TxNodeTx).throughJson

/-- The first append makes a list of one node. -/
theorem appendTxNode_first {node : TxNodeTx} (hstored : ListStored k store)
    (hid : node.recId ≠ []) (hhead : headOf k store = none) :
    ∃ store', appendTxNode k node store = .ok store' ∧
      Appended k node.recId node.recId
        (Function.update (nodeAt k store) node.recId (some (appendedNode k store node))) store' := by
  have hget : store.get txListHeadKey = none := by simpa [headOf] using hhead
  have hnode := changesOnly_setNode store node.recId
    (k.cdc.marshalNode { node with txHashes := getAllTxHashes k store })
  have hset := changesOnly_setHead (store.set (txNodeKey node.recId)
    (k.cdc.marshalNode { node with txHashes := getAllTxHashes k store })) (k.cdc.text node.recId)
  simp only [appendTxNode, hnode.get_txListHeadKey (by simp), hget]
  refine ⟨_, rfl, ?_⟩
  apply appended_of_nodes
  · intro id bz hbz
    rw [hset.get_txNodeKey (by simp)] at hbz
    exact encoded_set hstored.encoded _ _ id bz hbz
  · rw [headOf, SortedMap.get_set_self, Option.map_some, k.cdc.text_roundTrip]
  · rw [hset.nodeAt_eq (by simp), nodeAt_set hid]
    rfl

/-- A later append makes the tail point to the new node. The tail is read after the new node is
written. -/
theorem appendTxNode_next {node tailNode : TxNodeTx} {head tail : GoString}
    (hstored : ListStored k store) (hid : node.recId ≠ []) (hhead : headOf k store = some head)
    (htail : tailOf k store = some tail) (hne : tail ≠ [])
    (htailNode : Function.update (nodeAt k store) node.recId (some (appendedNode k store node)) tail =
      some tailNode) :
    ∃ store', appendTxNode k node store = .ok store' ∧
      Appended k head node.recId
        (Function.update
          (Function.update (nodeAt k store) node.recId (some (appendedNode k store node)))
          tail (some ({ tailNode with next := node.recId } : TxNodeTx).throughJson)) store' := by
  obtain ⟨headBz, hgetHead, -⟩ := Option.map_eq_some_iff.1 hhead
  obtain ⟨tailBz, hgetTail, rfl⟩ := Option.map_eq_some_iff.1 htail
  have hnode := changesOnly_setNode store node.recId
    (k.cdc.marshalNode { node with txHashes := getAllTxHashes k store })
  have hnodes : nodeAt k (store.set (txNodeKey node.recId)
      (k.cdc.marshalNode { node with txHashes := getAllTxHashes k store })) = _ := nodeAt_set hid _
  -- the tail is read from the store in which the new node already is
  rw [appendedNode, ← hnodes] at htailNode ⊢
  obtain ⟨-, bz, hbz, hdecode⟩ := nodeAt_eq_some.1 htailNode
  simp only [appendTxNode, hnode.get_txListHeadKey (by simp), hgetHead,
    hnode.get_txListTailKey (by simp), hgetTail, Option.map_some, Option.getD_some, hbz, hdecode]
  refine ⟨_, rfl, ?_⟩
  have hlink := changesOnly_setNode (store.set (txNodeKey node.recId)
    (k.cdc.marshalNode { node with txHashes := getAllTxHashes k store })) (k.cdc.toText tailBz)
    (k.cdc.marshalNode { tailNode with next := node.recId })
  apply appended_of_nodes
  · exact encoded_set (encoded_set hstored.encoded _ _) _ _
  · rw [hlink.headOf_eq (by simp), hnode.headOf_eq (by simp), hhead]
  · exact nodeAt_set hne _

/-- Where the node points that an append leaves at the end of the list: to `next` of the message, or
to itself if it was the tail already. -/
def endPointer (k : Keeper V) (store : Store V) (recId next : GoString) : GoString :=
  if tailOf k store = some recId then jsonText recId else jsonText next

/-- The condition on an append and the store before it: the id is the head or survives JSON, and the
end points nowhere or to an id that is neither stored nor its own. -/
def keepsFinite (k : Keeper V) (store : Store V) (recId next : GoString) : Bool :=
  (headOf k store).all (fun head => head == recId || jsonText recId == recId) &&
    (endPointer k store recId next == [] ||
      (endPointer k store recId next != recId &&
        (store.get (txNodeKey (endPointer k store recId next))).isNone))

theorem ListStored.keepsFinite_iff (h : ListStored k store) {recId next : GoString}
    (hid : recId ≠ []) :
    keepsFinite k store recId next = true ↔
      (∀ head, headOf k store = some head → head = recId ∨ jsonText recId = recId) ∧
        endPointer k store recId next ≠ recId ∧
        nodeAt k store (endPointer k store recId next) = none := by
  rw [h.nodeAt_eq_none]
  simp only [keepsFinite, Bool.and_eq_true, Bool.or_eq_true, beq_iff_eq, bne_iff_ne,
    Option.isNone_iff_eq_none, Option.all_eq_true]
  refine and_congr Iff.rfl ?_
  constructor
  · rintro (hnil | ⟨hne, hget⟩)
    · exact ⟨fun e => hid (e.symm.trans hnil), Or.inl hnil⟩
    · exact ⟨hne, Or.inr hget⟩
  · rintro ⟨hne, hnil | hget⟩
    · exact Or.inl hnil
    · exact Or.inr ⟨hne, hget⟩

/-- An append to the empty list. -/
theorem appendTxNode_listFinite_first {node : TxNodeTx} (hstored : ListStored k store)
    (hid : node.recId ≠ []) (hhead : headOf k store = none) :
    ∃ store', appendTxNode k node store = .ok store' ∧ ListStored k store' ∧
      (ListFinite k store' ↔ keepsFinite k store node.recId node.next = true) := by
  obtain ⟨store', hok, hlist⟩ := appendTxNode_first hstored hid hhead
  have htail : tailOf k store = none := by simpa [hhead] using hstored.ends.symm
  have hpointer : endPointer k store node.recId node.next = jsonText node.next := by
    simp [endPointer, htail]
  refine ⟨store', hok, hlist.stored, ?_⟩
  rw [hlist.stored.listFinite_iff, hstored.keepsFinite_iff hid, hpointer, hlist.head_eq,
    hlist.tail_eq, hlist.nodes_eq, hhead]
  constructor
  · rintro (hnone | ⟨_, _, visits, ⟨⟩, ⟨⟩, hvisits, -, hlast⟩)
    · cases hnone
    · -- the only node ends the walk, so its pointer leads nowhere
      obtain ⟨n, hn, hstop⟩ := hvisits.stop_of_last hlast
      rw [Function.update_self] at hn
      obtain rfl := Option.some_inj.1 hn
      exact ⟨by simp, update_some_eq_none.1 hstop⟩
  · rintro ⟨-, hend⟩
    refine Or.inr ⟨_, _, [(node.recId, appendedNode k store node)], rfl, rfl, ?_, ?_, rfl⟩
    · rw [visits_cons, Function.update_self, visits_nil]
      exact ⟨rfl, rfl, update_some_eq_none.2 hend⟩
    · exact List.nodup_singleton _

/-- What an append to a list with a readable tail leaves behind. -/
structure Linked (k : Keeper V) (head tail recId next : GoString) (store store' : Store V) :
    Prop where
  stored : ListStored k store'
  head_eq : headOf k store' = some head
  tail_eq : tailOf k store' = some recId
  same : ∀ id, id ≠ tail → id ≠ recId → nodeAt k store' id = nodeAt k store id
  link : ∃ node, nodeAt k store' tail = some node ∧ node.next = jsonText recId
  last : ∃ node, nodeAt k store' recId = some node ∧ node.next = endPointer k store recId next

theorem exists_linked {node tailNode : TxNodeTx} {head tail : GoString}
    (hstored : ListStored k store) (hid : node.recId ≠ []) (hhead : headOf k store = some head)
    (htail : tailOf k store = some tail) (htailNode : nodeAt k store tail = some tailNode) :
    ∃ store', appendTxNode k node store = .ok store' ∧
      Linked k head tail node.recId node.next store store' := by
  have hne : tail ≠ [] := (nodeAt_eq_some.1 htailNode).1
  -- an append under the id of the tail reads back the node it has just written
  obtain ⟨readNode, hread⟩ : ∃ readNode,
      Function.update (nodeAt k store) node.recId (some (appendedNode k store node)) tail =
        some readNode := by
    by_cases hsame : tail = node.recId
    · exact ⟨_, by rw [hsame, Function.update_self]⟩
    · exact ⟨tailNode, by rw [Function.update_of_ne hsame, htailNode]⟩
  obtain ⟨store', hok, hlist⟩ := appendTxNode_next hstored hid hhead htail hne hread
  refine ⟨store', hok, hlist.stored, hlist.head_eq, hlist.tail_eq, ?_, ?_, ?_⟩
  · intro id htailId hrecId
    rw [hlist.nodes_eq, Function.update_of_ne htailId, Function.update_of_ne hrecId]
  · rw [hlist.nodes_eq, Function.update_self]
    exact ⟨_, rfl, rfl⟩
  · rw [hlist.nodes_eq, endPointer, htail]
    by_cases hsame : tail = node.recId
    · subst hsame
      rw [Function.update_self, if_pos rfl]
      exact ⟨_, rfl, rfl⟩
    · rw [Function.update_of_ne (Ne.symm hsame), Function.update_self,
        if_neg fun e => hsame (Option.some_inj.1 e)]
      exact ⟨_, rfl, rfl⟩

/-- The end of the list points to no stored node exactly if it did not point to one before and does
not point to itself. -/
theorem Linked.stop_iff {head tail recId next : GoString} {tailNode : TxNodeTx}
    (h : Linked k head tail recId next store store') (htail : nodeAt k store tail = some tailNode)
    (id : GoString) : nodeAt k store' id = none ↔ id ≠ recId ∧ nodeAt k store id = none := by
  by_cases hrecId : id = recId
  · obtain ⟨node, hnode, -⟩ := h.last
    simp [hrecId, hnode]
  · by_cases htailId : id = tail
    · obtain ⟨node, hnode, -⟩ := h.link
      simp [htailId, hnode, htail]
    · simp [h.same id htailId hrecId, hrecId]

/-- An append to a list that is not empty. -/
theorem appendTxNode_listFinite_next {node : TxNodeTx} {head tail : GoString}
    {visits : List (GoString × TxNodeTx)} (hstored : ListStored k store) (hid : node.recId ≠ [])
    (hhead : headOf k store = some head) (htail : tailOf k store = some tail)
    (hvisits : Visits (nodeAt k store) TxNodeTx.next head visits)
    (hnodup : (visits.map Prod.fst).Nodup) (hlast : (visits.map Prod.fst).getLast? = some tail) :
    ∃ store', appendTxNode k node store = .ok store' ∧ ListStored k store' ∧
      (ListFinite k store' ↔ keepsFinite k store node.recId node.next = true) := by
  obtain ⟨tailNode, htailNode, -⟩ := hvisits.stop_of_last hlast
  obtain ⟨store', hok, hlinked⟩ := exists_linked hstored hid hhead htail htailNode
  obtain ⟨endNode, hend, hendNext⟩ := hlinked.last
  refine ⟨store', hok, hlinked.stored, ?_⟩
  rw [hlinked.stored.listFinite_iff, hstored.keepsFinite_iff hid,
    ← hlinked.stop_iff htailNode, hlinked.head_eq, hlinked.tail_eq, hhead]
  constructor
  · rintro (hnone | ⟨_, _, visits', ⟨⟩, ⟨⟩, hvisits', -, hlast'⟩)
    · cases hnone
    · constructor
      · -- the last key is the head, or a stored node points to it
        rintro _ ⟨⟩
        rcases hvisits'.named (List.mem_of_getLast? hlast') with hfirst | ⟨id, n, hn, hnext⟩
        · exact Or.inl hfirst.symm
        · exact Or.inr (hnext ▸ congrArg TxNodeTx.next (hlinked.stored.throughJson_eq hn))
      · obtain ⟨n, hn, hstop⟩ := hvisits'.stop_of_last hlast'
        obtain rfl := Option.some_inj.1 (hend.symm.trans hn)
        rw [← hendNext]
        exact hstop
  · rintro ⟨hreach, hstop⟩
    have hlink : node.recId ∈ visits.map Prod.fst ∨
        ∃ n, nodeAt k store' tail = some n ∧ n.next = node.recId := by
      rcases hreach head rfl with rfl | hjson
      · refine Or.inl (hvisits.start_mem ?_)
        rintro rfl
        cases hlast
      · obtain ⟨n, hn, hnext⟩ := hlinked.link
        exact Or.inr ⟨n, hn, hnext.trans hjson⟩
    obtain ⟨visits', hvisits', hnodup', hlast'⟩ :=
      hvisits.relink hnodup hlast hlinked.same hend (hendNext ▸ hstop) hlink
    exact Or.inr ⟨_, _, visits', rfl, rfl, hvisits', hnodup', hlast'⟩

/-- An append to a finite list succeeds, and the list stays finite exactly under the condition. -/
theorem appendTxNode_listFinite_iff (node : TxNodeTx) (hstored : ListStored k store)
    (hfinite : ListFinite k store) (hid : node.recId ≠ []) :
    ∃ store', appendTxNode k node store = .ok store' ∧ ListStored k store' ∧
      (ListFinite k store' ↔ keepsFinite k store node.recId node.next = true) := by
  rcases hstored.listFinite_iff.1 hfinite with
    hhead | ⟨head, tail, visits, hhead, htail, hvisits, hnodup, hlast⟩
  · exact appendTxNode_listFinite_first hstored hid hhead
  · exact appendTxNode_listFinite_next hstored hid hhead htail hvisits hnodup hlast

/-! ## Runs -/

/-- The condition on a transaction and the state before it: it is not an append, or it keeps the list
finite. -/
def keepsListFinite (k : Keeper V) (s : State V) (tx : Tx) : Bool :=
  match tx.msg.appendTxHash? with
  | some msg => keepsFinite k s.store msg.recId msg.next
  | none => true

theorem recId_ne_nil_of_validateBasic {lib : Bech32} {msg : MsgAppendTxHash}
    (h : (msg.validateBasic lib).isOk = true) : msg.recId ≠ [] := by
  obtain ⟨u, hok⟩ := isOk_iff.1 h
  simp only [MsgAppendTxHash.validateBasic, bind_eq_ok, require_eq_ok] at hok
  obtain ⟨-, -, -, -, hid⟩ := hok
  exact hid

/-- A message other than an append writes no key of the list, and only an energy report writes the
pending hashes. -/
theorem exists_changesOnly_of_not_append {s : State V} {tx : Tx}
    (hmsg : tx.msg.appendTxHash? = none) :
    ∃ fs, ChangesOnly fs s.store (deliver k s tx).store ∧ Family.txListHead ∉ fs ∧
      Family.txListTail ∉ fs ∧ Family.txNode ∉ fs ∧
      (tx.msg.addEnergy? = none → Family.energyTx ∉ fs) := by
  rcases deliver_changesOnly k s tx with hsame | ⟨msg, -, -, htx, -, hframe⟩
  · rw [hsame]
    exact ⟨[], .refl _ _, by simp⟩
  · refine ⟨msg.families, hframe, ?_⟩
    cases msg with
    | appendTxHash msg => simp [htx, TxMsg.appendTxHash?] at hmsg
    | _ => simp [htx, TxMsg.addEnergy?]

/-- A delivered append to a finite list. -/
theorem deliver_append {s : State V} {ctx : Context} {msg : MsgAppendTxHash} {store' : Store V}
    (hok : appendTxNode k ⟨msg.txHashes, msg.nodeCreator, msg.recId, msg.next⟩ s.store = .ok store') :
    (deliver k s ⟨ctx, .reward (.appendTxHash msg)⟩).store = store' := by
  simp only [deliver, handleTx, handle, handleAppendTxHash, hok, ok_bind]
  rfl

/-- A delivered transaction keeps the list finite exactly under the condition. -/
theorem deliver_listFinite_iff {s : State V} {tx : Tx} (hstored : ListStored k s.store)
    (hfinite : ListFinite k s.store)
    (hvalid : tx.msg.appendTxHash?.isSome = true →
      tx.msg.passesBasic k.bankKeeper.bech32 = true) :
    ListStored k (deliver k s tx).store ∧
      (ListFinite k (deliver k s tx).store ↔ keepsListFinite k s tx = true) := by
  cases hmsg : tx.msg.appendTxHash? with
  | none =>
      obtain ⟨fs, hframe, hhead, htail, hnode, -⟩ := exists_changesOnly_of_not_append hmsg
      refine ⟨hframe.listStored hhead htail hnode hstored, ?_⟩
      rw [hframe.listFinite_iff hhead htail hnode hstored]
      simp [keepsListFinite, hmsg, hfinite]
  | some msg =>
      obtain ⟨ctx, txMsg⟩ := tx
      obtain rfl : txMsg = .reward (.appendTxHash msg) := TxMsg.appendTxHash?_eq_some.1 hmsg
      have hid : msg.recId ≠ [] := recId_ne_nil_of_validateBasic (hvalid (by simp [hmsg]))
      obtain ⟨store', hok, hstored', hiff⟩ := appendTxNode_listFinite_iff
        ⟨msg.txHashes, msg.nodeCreator, msg.recId, msg.next⟩ hstored hfinite hid
      rw [deliver_append hok]
      exact ⟨hstored', hiff⟩

/-- From an empty store, for every run whose appends pass their `ValidateBasic`: the query ends,
visits no key twice and visits the tail last in every state the run passes through, exactly if every
append of the run meets the condition. -/
theorem listFinite_iff_keepsFinite (k : Keeper V) (bank : BankState) (txs : List Tx)
    (hvalid : ∀ tx ∈ txs, tx.msg.appendTxHash?.isSome = true →
      tx.msg.passesBasic k.bankKeeper.bech32 = true) :
    (∀ pre, pre <+: txs → ListFinite k (run (deliver k) (genesis bank) pre).store) ↔
      Along (deliver k) (fun s tx => keepsListFinite k s tx = true) (genesis bank) txs := by
  refine forall_prefix_iff_along (I := fun s : State V => ListStored k s.store)
    (P := fun s => ListFinite k s.store) ?_ ?_ ?_
  · intro s tx htx hstored hfinite
    exact deliver_listFinite_iff hstored hfinite (hvalid tx htx)
  · exact listStored_empty k
  · exact ⟨0, [], rfl, List.nodup_nil, rfl⟩

/-! ## Appends that keep the list and an append that does not -/

/-- A node that points to itself: the loop of the query never ends. -/
theorem txNodeWalk_of_next_self {id : GoString} {node : TxNodeTx}
    (hnode : nodeAt k store id = some node) (hnext : node.next = id) (fuel : Nat) :
    txNodeWalk k store fuel id = none := by
  obtain ⟨hid, bz, hget, hdecode⟩ := nodeAt_eq_some.1 hnode
  induction fuel with
  | zero => rfl
  | succ fuel ih =>
      -- one round of the loop comes back to the same id
      simp [txNodeWalk, hid, hget, hdecode, hnext, ih]

theorem txNodeVisits_of_headOf {head : GoString} (h : headOf k store = some head) (fuel : Nat) :
    txNodeVisits k fuel store = txNodeWalk k store fuel head := by
  obtain ⟨bz, hget, rfl⟩ := Option.map_eq_some_iff.1 h
  rw [txNodeVisits, hget]

end

/-- An append of alice for a node of her own. -/
def appendTx (recId next : GoString) : Tx :=
  smallTx 1 (.appendTxHash ⟨alice, [], alice, recId, next⟩)

/-- Three appends, the last of them under the id of the head. -/
def reusedHead : List Tx :=
  [appendTx (bytes "rec-1-0") [], appendTx (bytes "rec-1-1") (bytes "rec-9-9"),
    appendTx (bytes "rec-1-0") []]

theorem listFinite_iff_keepsFinite_reusedHead :
    ListFinite smallKeeper (run (deliver smallKeeper) (genesis emptyBank) reusedHead).store :=
  (listFinite_iff_keepsFinite smallKeeper emptyBank reusedHead (by decide +kernel)).2
    (by decide +kernel) reusedHead (List.prefix_refl reusedHead)

/-- The second append under the id of the tail: both messages pass their checks, and the query ends
for no number of rounds. -/
theorem repeated_tail_never_ends :
    (∀ tx ∈ [appendTx (bytes "rec-1-0") [], appendTx (bytes "rec-1-0") []],
      tx.msg.passesBasic smallBech32 = true) ∧
    ∀ fuel, txNodeVisits smallKeeper fuel (run (deliver smallKeeper) (genesis emptyBank)
      [appendTx (bytes "rec-1-0") [], appendTx (bytes "rec-1-0") []]).store = none := by
  refine ⟨by decide +kernel, fun fuel => ?_⟩
  have hhead : headOf smallKeeper (run (deliver smallKeeper) (genesis emptyBank)
      [appendTx (bytes "rec-1-0") [], appendTx (bytes "rec-1-0") []]).store =
        some (bytes "rec-1-0") := by
    decide +kernel
  have hnode : nodeAt smallKeeper (run (deliver smallKeeper) (genesis emptyBank)
      [appendTx (bytes "rec-1-0") [], appendTx (bytes "rec-1-0") []]).store (bytes "rec-1-0") =
        some ⟨[], alice, bytes "rec-1-0", bytes "rec-1-0"⟩ := by
    decide +kernel
  rw [txNodeVisits_of_headOf hhead]
  exact txNodeWalk_of_next_self hnode rfl fuel

end EnergyChain.Reward
