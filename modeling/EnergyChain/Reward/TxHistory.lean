import EnergyChain.Reward.TxList

/-!
# No transaction hash is lost or listed twice

What the list is for: a log to which `AddEnergy` adds a pending hash and to which `AppendTxHash` adds
a node that takes over all pending hashes. `Represents` relates the store to such a log: the walk from
`TxListHead` visits the nodes of the log, each pointing to the next, and `EnergyTx_Key` holds the
pending hashes. Every message of a run keeps the relation (`represents_history`), so the query returns
the appended nodes in order, and their hashes followed by the pending ones are the reported hashes
(`txNodeList_eq_history`).

The response and the event of an append are made from the message and not from the stored node
(`reportsStored_iff`).
-/

set_option autoImplicit false

namespace EnergyChain.Reward

open EnergyChain.Go
open EnergyChain.Sdk
open EnergyChain.Bank

/-! ## The log -/

/-- A node of the log. -/
structure LogNode where
  recId : GoString
  creator : GoString
  hashes : List GoString

/-- The appended nodes and the hashes that wait for the next one. -/
structure Log where
  nodes : List LogNode
  pending : List GoString

def Log.record (log : Log) (tx : Tx) : Log :=
  match tx.msg with
  | .reward (.addEnergy msg) => { log with pending := log.pending ++ [msg.txHash] }
  | .reward (.appendTxHash msg) => ⟨log.nodes ++ [⟨msg.recId, msg.nodeCreator, log.pending⟩], []⟩
  | _ => log

/-- The log of a run. -/
def history (txs : List Tx) : Log := run Log.record ⟨[], []⟩ txs

/-- The append messages of a run. -/
def appends (txs : List Tx) : List MsgAppendTxHash := txs.filterMap (·.msg.appendTxHash?)

/-- The hashes that the energy reports of a run carry. -/
def reportedHashes (txs : List Tx) : List GoString :=
  (txs.filterMap (·.msg.addEnergy?)).map (·.txHash)

/-- The log has one node for each append, in order. -/
theorem history_nodes (txs : List Tx) :
    (history txs).nodes.map (fun n => (n.recId, n.creator)) =
      (appends txs).map fun msg => (msg.recId, msg.nodeCreator) := by
  induction txs using List.reverseRecOn with
  | nil => rfl
  | append_singleton txs tx ih =>
      rw [history, run_concat, ← history, appends, List.filterMap_append, ← appends, List.map_append,
        ← ih]
      obtain ⟨ctx, msg⟩ := tx
      cases msg with
      | send msg => simp [Log.record, TxMsg.appendTxHash?]
      | reward msg => cases msg <;> simp [Log.record, TxMsg.appendTxHash?]

/-- The log keeps every reported hash, in order. -/
theorem history_hashes (txs : List Tx) :
    (history txs).nodes.flatMap (·.hashes) ++ (history txs).pending = reportedHashes txs := by
  induction txs using List.reverseRecOn with
  | nil => rfl
  | append_singleton txs tx ih =>
      rw [history, run_concat, ← history, reportedHashes, List.filterMap_append, List.map_append,
        ← reportedHashes, ← ih]
      obtain ⟨ctx, msg⟩ := tx
      cases msg with
      | send msg => simp [Log.record, TxMsg.addEnergy?]
      | reward msg => cases msg <;> simp [Log.record, TxMsg.addEnergy?]

/-! ## The log in the store -/

/-- The id of the first node, or where the list ends. -/
def firstId (stop : GoString) (nodes : List LogNode) : GoString :=
  (nodes.head?.map (·.recId)).getD stop

/-- The keys and nodes that a walk over the log visits if its last node points to `stop`. -/
def chain (stop : GoString) : List LogNode → List (GoString × TxNodeTx)
  | [] => []
  | n :: rest =>
      (n.recId, ⟨n.hashes, n.creator, n.recId, firstId stop rest⟩) :: chain stop rest

theorem chain_append (stop : GoString) (nodes rest : List LogNode) :
    chain stop (nodes ++ rest) = chain (firstId stop rest) nodes ++ chain stop rest := by
  induction nodes with
  | nil => rfl
  | cons n nodes ih =>
      have hfirst : firstId stop (nodes ++ rest) = firstId (firstId stop rest) nodes := by
        cases nodes with
        | nil => rfl
        | cons n' nodes => rfl
      rw [List.cons_append, chain, chain, ih, hfirst]
      rfl

@[simp]
theorem map_fst_chain (stop : GoString) (nodes : List LogNode) :
    (chain stop nodes).map Prod.fst = nodes.map (·.recId) := by
  induction nodes with
  | nil => rfl
  | cons n nodes ih => rw [chain, List.map_cons, List.map_cons, ih]

section

variable {V : Type} {k : Keeper V} {store store' : Store V} {log : Log}

/-- The store holds the log: the list of its nodes, and the pending hashes. -/
structure Represents (k : Keeper V) (log : Log) (store : Store V) : Prop where
  stored : ListStored k store
  head : headOf k store = log.nodes.head?.map (·.recId)
  tail : tailOf k store = log.nodes.getLast?.map (·.recId)
  visits : Visits (nodeAt k store) TxNodeTx.next (firstId [] log.nodes) (chain [] log.nodes)
  pending : storedTxList k store = log.pending
  decoded : getAllTxHashes k store = log.pending
  utf8 : ∀ hash ∈ log.pending, ValidUtf8 hash

theorem map_jsonText_of_valid {l : List GoString} (h : ∀ text ∈ l, ValidUtf8 text) :
    l.map jsonText = l :=
  (List.map_congr_left h).trans (List.map_id l)

/-- An empty store holds the empty log. -/
theorem represents_empty (k : Keeper V) : Represents k ⟨[], []⟩ .empty where
  stored := listStored_empty k
  head := rfl
  tail := rfl
  visits := visits_nil.2 rfl
  pending := rfl
  decoded := rfl
  utf8 := by simp

/-- The pending hashes after their list is stored. -/
theorem txList_of_get {l : List GoString} (hget : store.get energyTxKey = some (k.cdc.marshalStrings l))
    (hutf8 : ∀ hash ∈ l, ValidUtf8 hash) :
    storedTxList k store = l ∧ getAllTxHashes k store = l := by
  simp [storedTxList, getAllTxHashes, hget, k.cdc.strings_roundTrip, map_jsonText_of_valid hutf8]

/-- The pending hashes after their list is deleted. -/
theorem txList_of_get_none (hget : store.get energyTxKey = none) :
    storedTxList k store = [] ∧ getAllTxHashes k store = [] := by
  rw [storedTxList, getAllTxHashes, hget]
  exact ⟨rfl, rfl⟩

/-- `AddEnergy` stores the list with the new hash at its end. -/
theorem get_energyTxKey_addEnergy (creator : GoString) (amountKwh : Float64) (txHash : GoString)
    (store : Store V) :
    (addEnergy k creator amountKwh txHash store).1.get energyTxKey =
      some (k.cdc.marshalStrings (storedTxList k store ++ [txHash])) := by
  have htotal : energyTxKey ≠ totalEnergyKey := by decide
  have haddr : energyTxKey ≠ energyByAddressKey creator :=
    (ne_root_of_inFamily (f := .energyTx) (inFamily_energyByAddressKey creator) (by decide)).symm
  -- the list is read after the total and the account have been written
  have hlist : ∀ v v' : V, storedTxList k ((store.set totalEnergyKey v).set
      (energyByAddressKey creator) v') = storedTxList k store := by
    intro v v'
    rw [storedTxList, storedTxList, SortedMap.get_set_of_ne _ _ haddr,
      SortedMap.get_set_of_ne _ _ htotal]
  simp only [addEnergy, hlist]
  split
  · rw [SortedMap.get_set_of_ne _ _ htotal, SortedMap.get_set_self]
  · rw [SortedMap.get_set_self]

/-! ## The messages of a run -/

/-- A message that is neither an append nor an energy report. -/
theorem Represents.frame {fs : List Family} (h : Represents k log store)
    (hframe : ChangesOnly fs store store') (hhead : Family.txListHead ∉ fs)
    (htail : Family.txListTail ∉ fs) (hnode : Family.txNode ∉ fs) (henergy : Family.energyTx ∉ fs) :
    Represents k log store' := by
  have hget : store'.get energyTxKey = store.get energyTxKey := hframe.get_eq henergy (inFamily_root _)
  refine ⟨hframe.listStored hhead htail hnode h.stored, ?_, ?_, ?_, ?_, ?_, h.utf8⟩
  · rw [hframe.headOf_eq hhead, h.head]
  · rw [hframe.tailOf_eq htail, h.tail]
  · rw [hframe.nodeAt_eq hnode]
    exact h.visits
  · rw [storedTxList, hget]
    exact h.pending
  · rw [getAllTxHashes, hget]
    exact h.decoded

/-- An energy report adds its hash to the pending ones. -/
theorem Represents.addEnergy (h : Represents k log store) (creator : GoString)
    (amountKwh : Float64) {txHash : GoString} (hutf8 : ValidUtf8 txHash) :
    Represents k { log with pending := log.pending ++ [txHash] }
      (addEnergy k creator amountKwh txHash store).1 := by
  have hframe := addEnergy_changesOnly (k := k) creator amountKwh txHash store
  have hutf8' : ∀ hash ∈ log.pending ++ [txHash], ValidUtf8 hash := by
    intro hash hmem
    rcases List.mem_append.1 hmem with hmem | hmem
    · exact h.utf8 hash hmem
    · rw [List.mem_singleton.1 hmem]
      exact hutf8
  have hget := get_energyTxKey_addEnergy (k := k) creator amountKwh txHash store
  rw [h.pending] at hget
  obtain ⟨hpending, hdecoded⟩ := txList_of_get hget hutf8'
  refine ⟨hframe.listStored (by simp) (by simp) (by simp) h.stored, ?_, ?_, ?_, hpending, hdecoded,
    hutf8'⟩
  · rw [hframe.headOf_eq (by simp), h.head]
  · rw [hframe.tailOf_eq (by simp), h.tail]
  · rw [hframe.nodeAt_eq (by simp)]
    exact h.visits

/-- The node that an append writes takes over the pending hashes. -/
theorem Represents.appendedNode_eq (h : Represents k log store) {node : TxNodeTx}
    (hnext : node.next = []) (hrecId : ValidUtf8 node.recId) (hcreator : ValidUtf8 node.creator) :
    appendedNode k store node = ⟨log.pending, node.creator, node.recId, []⟩ := by
  rw [appendedNode, h.decoded, TxNodeTx.throughJson, map_jsonText_of_valid h.utf8, hcreator, hrecId,
    hnext, jsonText_nil]

theorem Represents.append_first (h : Represents k log store) {node : TxNodeTx}
    (hnodes : log.nodes = []) (hid : node.recId ≠ []) (hnext : node.next = [])
    (hrecId : ValidUtf8 node.recId) (hcreator : ValidUtf8 node.creator) :
    ∃ store', appendTxNode k node store = .ok store' ∧
      Represents k ⟨[⟨node.recId, node.creator, log.pending⟩], []⟩ store' := by
  have hhead : headOf k store = none := by
    rw [h.head, hnodes]
    rfl
  obtain ⟨store', hok, hlist⟩ := appendTxNode_first h.stored hid hhead
  obtain ⟨hpending, hdecoded⟩ := txList_of_get_none (k := k) hlist.emptied
  refine ⟨store', hok, hlist.stored, hlist.head_eq, hlist.tail_eq, ?_, hpending, hdecoded, by simp⟩
  rw [hlist.nodes_eq, h.appendedNode_eq hnext hrecId hcreator]
  apply visits_cons.2
  exact ⟨rfl, Function.update_self _ _ _,
    visits_nil.2 (update_some_eq_none.2 ⟨Ne.symm hid, rfl⟩)⟩

theorem Represents.append_next (h : Represents k log store) {node : TxNodeTx} {init : List LogNode}
    {last : LogNode} (hnodes : log.nodes = init ++ [last]) (hid : node.recId ≠ [])
    (hnext : node.next = []) (hrecId : ValidUtf8 node.recId) (hcreator : ValidUtf8 node.creator)
    (hdistinct : (log.nodes.map (·.recId) ++ [node.recId]).Nodup) :
    ∃ store', appendTxNode k node store = .ok store' ∧
      Represents k ⟨init ++ [last] ++ [⟨node.recId, node.creator, log.pending⟩], []⟩ store' := by
  have hvisits := h.visits
  rw [hnodes, chain_append] at hvisits
  rw [hnodes] at hdistinct
  have hlast : nodeAt k store last.recId = some ⟨last.hashes, last.creator, last.recId, []⟩ :=
    hvisits.read_last
  have hjson := h.stored.throughJson_eq hlast
  -- the new id is not in the list, so the tail is relinked and no node is overwritten
  obtain ⟨hids, -, hfresh⟩ := List.nodup_append.1 hdistinct
  have hfresh' : node.recId ∉ (init ++ [last]).map (·.recId) := fun hmem =>
    hfresh _ hmem _ (List.mem_singleton_self _) rfl
  have hne : last.recId ≠ node.recId := fun e => hfresh' (by simp [← e])
  have hhead : headOf k store = some (firstId [] (init ++ [last])) := by
    rw [h.head, hnodes]
    cases init <;> rfl
  have htail : tailOf k store = some last.recId := by simp [h.tail, hnodes]
  obtain ⟨store', hok, hlist⟩ := appendTxNode_next h.stored hid hhead htail
    (nodeAt_eq_some.1 hlast).1 ((Function.update_of_ne hne _ _).trans hlast)
  obtain ⟨hpending, hdecoded⟩ := txList_of_get_none (k := k) hlist.emptied
  refine ⟨store', hok, hlist.stored, ?_, ?_, ?_, hpending, hdecoded, by simp⟩
  · rw [hlist.head_eq]
    cases init <;> rfl
  · rw [hlist.tail_eq]
    simp
  · have hfirst : firstId [] (init ++ [last] ++ [⟨node.recId, node.creator, log.pending⟩]) =
        firstId [] (init ++ [last]) := by
      cases init <;> rfl
    have hkeys : (chain (firstId [] [last]) init ++ chain [] [last]).map Prod.fst =
        (init ++ [last]).map (·.recId) := by
      rw [List.map_append, map_fst_chain, map_fst_chain, List.map_append]
    -- the relinked tail survives JSON, as the tail and the new id do
    have hrelinked : ({ (⟨last.hashes, last.creator, last.recId, []⟩ : TxNodeTx) with
        next := node.recId } : TxNodeTx).throughJson =
          ⟨last.hashes, last.creator, last.recId, node.recId⟩ := by
      simp only [TxNodeTx.throughJson, TxNodeTx.mk.injEq] at hjson ⊢
      exact ⟨hjson.1, hjson.2.1, hjson.2.2.1, hrecId⟩
    rw [hfirst, chain_append, chain_append, List.append_assoc, hlist.nodes_eq,
      h.appendedNode_eq hnext hrecId hcreator, hrelinked]
    refine hvisits.snoc (hkeys ▸ hids) (hkeys ▸ hfresh') ?_ (Function.update_self _ _ _) rfl
      ((Function.update_of_ne hne.symm _ _).trans (Function.update_self _ _ _)) ?_
    · intro id htailId hrecId'
      rw [Function.update_of_ne htailId, Function.update_of_ne hrecId']
    · rw [update_some_eq_none, update_some_eq_none]
      exact ⟨Ne.symm (nodeAt_eq_some.1 hlast).1, Ne.symm hid, rfl⟩

/-- An append adds a node that takes over the pending hashes. -/
theorem Represents.append (h : Represents k log store) (node : TxNodeTx)
    (hid : node.recId ≠ []) (hnext : node.next = []) (hrecId : ValidUtf8 node.recId)
    (hcreator : ValidUtf8 node.creator)
    (hdistinct : (log.nodes.map (·.recId) ++ [node.recId]).Nodup) :
    ∃ store', appendTxNode k node store = .ok store' ∧
      Represents k ⟨log.nodes ++ [⟨node.recId, node.creator, log.pending⟩], []⟩ store' := by
  rcases List.eq_nil_or_concat log.nodes with hnodes | ⟨init, last, hnodes⟩
  · rw [hnodes]
    exact h.append_first hnodes hid hnext hrecId hcreator
  · rw [List.concat_eq_append] at hnodes
    have happend := h.append_next hnodes hid hnext hrecId hcreator hdistinct
    rwa [← hnodes] at happend

/-! ## Runs -/

/-- The messages as the clients send them, in valid UTF-8: an append passes its `ValidateBasic` and
leaves `next` empty. -/
def asSent (lib : Bech32) (tx : Tx) : Bool :=
  match tx.msg with
  | .reward (.appendTxHash msg) =>
      (msg.validateBasic lib).isOk && msg.next == [] && jsonText msg.recId == msg.recId &&
        jsonText msg.nodeCreator == msg.nodeCreator
  | .reward (.addEnergy msg) => jsonText msg.txHash == msg.txHash
  | _ => true

/-- The ids of the log are the ids of the appends. -/
theorem history_ids (txs : List Tx) :
    (history txs).nodes.map (·.recId) = (appends txs).map (·.recId) := by
  have hfst := congrArg (List.map Prod.fst) (history_nodes txs)
  simpa [List.map_map, Function.comp_def] using hfst

/-- A delivered append whose id is not in the log yet. -/
theorem Represents.deliver_append {s : State V} (h : Represents k log s.store) (ctx : Context)
    {msg : MsgAppendTxHash}
    (hsent : asSent k.bankKeeper.bech32 ⟨ctx, .reward (.appendTxHash msg)⟩ = true)
    (hdistinct : (log.nodes.map (·.recId) ++ [msg.recId]).Nodup) :
    (handleTx k s ⟨ctx, .reward (.appendTxHash msg)⟩).isOk = true ∧
      Represents k (log.record ⟨ctx, .reward (.appendTxHash msg)⟩)
        (deliver k s ⟨ctx, .reward (.appendTxHash msg)⟩).store := by
  simp only [asSent, Bool.and_eq_true, beq_iff_eq] at hsent
  obtain ⟨⟨⟨hbasic, hnext⟩, hrecId⟩, hcreator⟩ := hsent
  obtain ⟨store', hok, hrep⟩ := h.append ⟨msg.txHashes, msg.nodeCreator, msg.recId, msg.next⟩
    (recId_ne_nil_of_validateBasic hbasic) hnext hrecId hcreator hdistinct
  rw [Reward.deliver_append hok]
  refine ⟨?_, hrep⟩
  simp only [handleTx, handle, handleAppendTxHash, hok, ok_bind]
  rfl

/-- A successful energy report. -/
theorem Represents.deliver_addEnergy {s : State V} (h : Represents k log s.store) {ctx : Context}
    {msg : MsgAddEnergy}
    (hsent : asSent k.bankKeeper.bech32 ⟨ctx, .reward (.addEnergy msg)⟩ = true)
    (hok : (handleTx k s ⟨ctx, .reward (.addEnergy msg)⟩).isOk = true) :
    Represents k (log.record ⟨ctx, .reward (.addEnergy msg)⟩)
      (deliver k s ⟨ctx, .reward (.addEnergy msg)⟩).store := by
  obtain ⟨⟨s', r⟩, hres⟩ := isOk_iff.1 hok
  have hhandle : handle k ctx s (.addEnergy msg) = .ok (s', r) := hres
  obtain ⟨wh, recs, -, -, hadd, -, -⟩ := handle_addEnergy hhandle
  have hstore : s'.store = _ := (congrArg Prod.fst hadd).symm
  rw [deliver, hres, commit_ok, hstore]
  exact h.addEnergy _ _ (beq_iff_eq.1 hsent)

/-- A message that is neither is not in the log. -/
theorem Log.record_of_none {tx : Tx} (happend : tx.msg.appendTxHash? = none)
    (hadd : tx.msg.addEnergy? = none) : log.record tx = log := by
  unfold Log.record
  split
  · rename_i msg hmsg
    rw [hmsg] at hadd
    cases hadd
  · rename_i msg hmsg
    rw [hmsg] at happend
    cases happend
  · rfl

/-- One message of a run. -/
theorem Represents.deliver {s : State V} {tx : Tx} (h : Represents k log s.store)
    (hsent : asSent k.bankKeeper.bech32 tx = true)
    (hdistinct : ∀ msg, tx.msg.appendTxHash? = some msg →
      (log.nodes.map (·.recId) ++ [msg.recId]).Nodup)
    (hadd : tx.msg.addEnergy?.isSome = true → (handleTx k s tx).isOk = true) :
    (tx.msg.appendTxHash?.isSome = true → (handleTx k s tx).isOk = true) ∧
      Represents k (log.record tx) (deliver k s tx).store := by
  cases happend : tx.msg.appendTxHash? with
  | some append =>
      obtain ⟨ctx, msg⟩ := tx
      obtain rfl : msg = .reward (.appendTxHash append) := TxMsg.appendTxHash?_eq_some.1 happend
      obtain ⟨hok, hrep⟩ := h.deliver_append ctx hsent (hdistinct append happend)
      exact ⟨fun _ => hok, hrep⟩
  | none =>
      refine ⟨fun hsome => (Bool.false_ne_true hsome).elim, ?_⟩
      cases hreport : tx.msg.addEnergy? with
      | some report =>
          obtain ⟨ctx, msg⟩ := tx
          obtain rfl : msg = .reward (.addEnergy report) := TxMsg.addEnergy?_eq_some.1 hreport
          exact h.deliver_addEnergy hsent (hadd (by rw [hreport]; rfl))
      | none =>
          obtain ⟨fs, hframe, hhead, htail, hnode, henergy⟩ :=
            exists_changesOnly_of_not_append (k := k) (s := s) happend
          rw [Log.record_of_none happend hreport]
          exact h.frame hframe hhead htail hnode (henergy hreport)

/-- The store of a run holds its log, and no append of it fails. -/
theorem represents_history (bank : BankState) (txs : List Tx)
    (hsent : ∀ tx ∈ txs, asSent k.bankKeeper.bech32 tx = true)
    (hdistinct : ((appends txs).map (·.recId)).Nodup)
    (hadd : Along (deliver k) (fun s tx => tx.msg.addEnergy?.isSome = true →
      (handleTx k s tx).isOk = true) (genesis bank) txs) :
    Along (deliver k) (fun s tx => tx.msg.appendTxHash?.isSome = true →
        (handleTx k s tx).isOk = true) (genesis bank) txs ∧
      Represents k (history txs) (run (deliver k) (genesis bank) txs).store := by
  -- the log of a longer run is the log of the shorter one with the last message recorded
  induction txs using List.reverseRecOn with
  | nil => exact ⟨trivial, represents_empty k⟩
  | append_singleton txs tx ih =>
      rw [appends, List.filterMap_append, ← appends, List.map_append] at hdistinct
      obtain ⟨haddInit, haddLast⟩ := (along_concat _ _ _ _ _).1 hadd
      obtain ⟨hoks, hrep⟩ := ih (fun tx' htx' => hsent tx' (List.mem_append_left _ htx'))
        (List.nodup_append.1 hdistinct).1 haddInit
      have hlast : ∀ msg, tx.msg.appendTxHash? = some msg →
          ((history txs).nodes.map (·.recId) ++ [msg.recId]).Nodup := by
        intro msg hmsg
        rw [history_ids]
        simpa [hmsg] using hdistinct
      obtain ⟨hok, hrep'⟩ := hrep.deliver (hsent tx (by simp)) hlast haddLast
      rw [history, run_concat, run_concat, ← history]
      exact ⟨(along_concat _ _ _ _ _).2 ⟨hoks, hok⟩, hrep'⟩

/-- The query returns the nodes of the walk. -/
theorem Represents.exists_txNodeList (h : Represents k log store) :
    ∃ fuel, txNodeList k fuel store = some (.ok ((chain [] log.nodes).map Prod.snd)) := by
  have hhead := h.head
  obtain ⟨fuel, hwalk⟩ := (exists_txNodeWalk_iff h.stored).2 h.visits
  cases hnodes : log.nodes with
  | nil =>
      rw [hnodes] at hhead
      have hget : store.get txListHeadKey = none := by simpa [headOf] using hhead
      refine ⟨0, ?_⟩
      rw [txNodeList, txNodeVisits, hget]
      rfl
  | cons n nodes =>
      rw [hnodes] at hhead hwalk
      refine ⟨fuel, ?_⟩
      rw [txNodeList, txNodeVisits_of_headOf hhead]
      exact congrArg (Option.map fun visits => visits.map (·.map Prod.snd)) hwalk

theorem map_chain_fields (stop : GoString) (nodes : List LogNode) :
    ((chain stop nodes).map Prod.snd).map (fun n => (n.recId, n.creator)) =
      nodes.map fun n => (n.recId, n.creator) := by
  induction nodes with
  | nil => rfl
  | cons n nodes ih => rw [chain, List.map_cons, List.map_cons, List.map_cons, ih]

theorem flatMap_chain_hashes (stop : GoString) (nodes : List LogNode) :
    ((chain stop nodes).map Prod.snd).flatMap (·.txHashes) = nodes.flatMap (·.hashes) := by
  induction nodes with
  | nil => rfl
  | cons n nodes ih => rw [chain, List.map_cons, List.flatMap_cons, List.flatMap_cons, ih]

/-- From an empty store, for every run of successful energy reports and of appends with distinct ids
and no `next`, with any other transactions in between: no append fails, the query returns one node
for each append, in order and with its id and creator, and the hashes of these nodes followed by the
pending ones are the reported hashes in order. -/
theorem txNodeList_eq_history (k : Keeper V) (bank : BankState) (txs : List Tx)
    (hsent : ∀ tx ∈ txs, asSent k.bankKeeper.bech32 tx = true)
    (hdistinct : ((appends txs).map (·.recId)).Nodup)
    (hadd : Along (deliver k) (fun s tx => tx.msg.addEnergy?.isSome = true →
      (handleTx k s tx).isOk = true) (genesis bank) txs) :
    Along (deliver k) (fun s tx => tx.msg.appendTxHash?.isSome = true →
        (handleTx k s tx).isOk = true) (genesis bank) txs ∧
      ∃ fuel nodes,
        txNodeList k fuel (run (deliver k) (genesis bank) txs).store = some (.ok nodes) ∧
        nodes.map (fun n => (n.recId, n.creator)) =
          (appends txs).map (fun msg => (msg.recId, msg.nodeCreator)) ∧
        nodes.flatMap (·.txHashes) ++ storedTxList k (run (deliver k) (genesis bank) txs).store =
          reportedHashes txs := by
  obtain ⟨hoks, hrep⟩ := represents_history bank txs hsent hdistinct hadd
  obtain ⟨fuel, hlist⟩ := hrep.exists_txNodeList
  refine ⟨hoks, fuel, _, hlist, ?_, ?_⟩
  · rw [map_chain_fields, history_nodes]
  · rw [flatMap_chain_hashes, hrep.pending, history_hashes]

end

/-! ## A run with two nodes -/

/-- An energy report of alice. -/
def reportTx (amount txHash : GoString) : Tx :=
  smallTx 1 (.addEnergy ⟨alice, alice, amount, txHash⟩)

/-- Two reports, an append, a report, an append, and a report that waits. -/
def reportsAndAppends : List Tx :=
  [reportTx (bytes "400") (bytes "h1"), reportTx (bytes "700") (bytes "h2"),
    appendTx (bytes "rec-1-0") [], reportTx (bytes "5") (bytes "h3"),
    appendTx (bytes "rec-1-1") [], reportTx (bytes "6") (bytes "h4")]

theorem txNodeList_eq_history_reportsAndAppends :
    Along (deliver smallKeeper) (fun s tx => tx.msg.appendTxHash?.isSome = true →
        (handleTx smallKeeper s tx).isOk = true) (genesis emptyBank) reportsAndAppends ∧
      ∃ fuel nodes,
        txNodeList smallKeeper fuel
          (run (deliver smallKeeper) (genesis emptyBank) reportsAndAppends).store =
            some (.ok nodes) ∧
        nodes.map (fun n => (n.recId, n.creator)) =
          [(bytes "rec-1-0", alice), (bytes "rec-1-1", alice)] ∧
        nodes.flatMap (·.txHashes) ++ storedTxList smallKeeper
          (run (deliver smallKeeper) (genesis emptyBank) reportsAndAppends).store =
            [bytes "h1", bytes "h2", bytes "h3", bytes "h4"] :=
  txNodeList_eq_history smallKeeper emptyBank reportsAndAppends (by decide +kernel)
    (by decide +kernel) (by decide +kernel)

/-! ## What an append reports -/

section

variable {V : Type} {k : Keeper V} {store store' : Store V} {ctx : Context} {s s' : State V}
  {r : Result}

/-- The id is the one that an append reads back as the tail. -/
def IsTail (k : Keeper V) (store : Store V) (recId : GoString) : Prop :=
  (headOf k store).isSome = true ∧ (tailOf k store).getD [] = recId

instance (k : Keeper V) (store : Store V) (recId : GoString) : Decidable (IsTail k store recId) :=
  inferInstanceAs (Decidable (_ ∧ _))

/-- What is stored under the id of an append at its end: the node with the pending hashes, and a
pointer to itself if the id was the tail already. -/
def reportedNode (k : Keeper V) (store : Store V) (node : TxNodeTx) : TxNodeTx :=
  if IsTail k store node.recId then
    { appendedNode k store node with next := jsonText node.recId }
  else appendedNode k store node

theorem get_of_appendTxNode {node : TxNodeTx} (h : appendTxNode k node store = .ok store') :
    ∃ bz, store'.get (txNodeKey node.recId) = some bz ∧
      k.cdc.unmarshalNode bz = .ok (reportedNode k store node) := by
  have hset := changesOnly_setNode store node.recId
    (k.cdc.marshalNode { node with txHashes := getAllTxHashes k store })
  unfold appendTxNode at h
  dsimp only at h
  rw [hset.get_txListHeadKey (by simp), hset.get_txListTailKey (by simp)] at h
  split at h
  · -- the first node of the list
    rename_i hhead
    cases h
    have hno : ¬ IsTail k store node.recId := by simp [IsTail, headOf, hhead]
    rw [(resetEnergyStore_changesOnly _).get_txNodeKey (by simp),
      (changesOnly_setTail _ _).get_txNodeKey (by simp),
      (changesOnly_setHead _ _).get_txNodeKey (by simp), SortedMap.get_set_self]
    refine ⟨_, rfl, ?_⟩
    rw [k.cdc.node_roundTrip, reportedNode, if_neg hno]
    rfl
  · rename_i bz hhead
    split at h
    · cases h
    · rename_i tailBz hget
      split at h
      · cases h
      · rename_i tailNode hdecode
        cases h
        rw [(resetEnergyStore_changesOnly _).get_txNodeKey (by simp),
          (changesOnly_setTail _ _).get_txNodeKey (by simp)]
        have htail : IsTail k store node.recId ↔ (tailOf k store).getD [] = node.recId := by
          simp [IsTail, headOf, hhead]
        by_cases hid : (tailOf k store).getD [] = node.recId
        · -- the tail that is read back is the node just written
          change (store.set _ _).get (txNodeKey ((tailOf k store).getD [])) = _ at hget
          change ∃ bz, ((store.set _ _).set (txNodeKey ((tailOf k store).getD [])) _).get _ = _ ∧ _
          rw [hid, SortedMap.get_set_self, Option.some_inj] at hget
          subst hget
          rw [k.cdc.node_roundTrip] at hdecode
          cases hdecode
          rw [hid, SortedMap.get_set_self]
          refine ⟨_, rfl, ?_⟩
          rw [k.cdc.node_roundTrip, reportedNode, if_pos (htail.2 hid)]
          simp [appendedNode, TxNodeTx.throughJson, jsonText_idem]
        · have hne : txNodeKey node.recId ≠ txNodeKey ((tailOf k store).getD []) :=
            fun e => hid (txNodeKey_injective e).symm
          change ∃ bz, ((store.set _ _).set (txNodeKey ((tailOf k store).getD [])) _).get _ = _ ∧ _
          rw [SortedMap.get_set_of_ne _ _ hne, SortedMap.get_set_self]
          refine ⟨_, rfl, ?_⟩
          rw [k.cdc.node_roundTrip, reportedNode, if_neg fun e => hid (htail.1 e)]
          rfl

/-- The values of an attribute in the events of a kind. -/
def Result.attributeValues (r : Result) (kind name : GoString) : List GoString :=
  ((r.events.filter fun ev => ev.kind = kind).flatMap fun ev =>
    ev.attributes.filter fun attr => attr.1 = name).map Prod.snd

/-- The response carries the node that is stored under the id, and the event its hashes. -/
def ReportsStored (k : Keeper V) (store : Store V) (recId : GoString) (r : Result) : Prop :=
  ∃ bz node, store.get (txNodeKey recId) = some bz ∧ k.cdc.unmarshalNode bz = .ok node ∧
    r.response = .appendTxHash node ∧
    r.attributeValues (bytes "append_tx_hash") (bytes "hashes") = [[44].intercalate node.txHashes]

/-- The handler answers with the fields of the message. -/
theorem response_of_appendTxHash {msg : MsgAppendTxHash}
    (h : handle k ctx s (.appendTxHash msg) = .ok (s', r)) :
    r.response = .appendTxHash ⟨msg.txHashes, msg.nodeCreator, msg.recId, msg.next⟩ ∧
      r.attributeValues (bytes "append_tx_hash") (bytes "hashes") =
        [[44].intercalate msg.txHashes] := by
  simp only [handle, handleAppendTxHash, bind_eq_ok, pure_eq_ok, Prod.mk.injEq] at h
  obtain ⟨_, -, -, rfl⟩ := h
  exact ⟨rfl, rfl⟩

/-- An append reports the stored node exactly if the message carries the pending hashes itself, its
texts survive JSON, and it points where the stored node will point. -/
theorem reportsStored_iff {msg : MsgAppendTxHash}
    (h : handle k ctx s (.appendTxHash msg) = .ok (s', r)) :
    ReportsStored k s'.store msg.recId r ↔
      msg.txHashes = (getAllTxHashes k s.store).map jsonText ∧
        jsonText msg.nodeCreator = msg.nodeCreator ∧ jsonText msg.recId = msg.recId ∧
        msg.next = if IsTail k s.store msg.recId then msg.recId else jsonText msg.next := by
  obtain ⟨bz, hget, hdecode⟩ := get_of_appendTxNode (handle_appendTxHash h).1
  obtain ⟨hresponse, hevent⟩ := response_of_appendTxHash h
  -- the report is right if the node of the message is the stored one
  have hreport : ReportsStored k s'.store msg.recId r ↔
      reportedNode k s.store ⟨msg.txHashes, msg.nodeCreator, msg.recId, msg.next⟩ =
        ⟨msg.txHashes, msg.nodeCreator, msg.recId, msg.next⟩ := by
    constructor
    · rintro ⟨bz', node, hget', hdecode', hresponse', -⟩
      rw [hget, Option.some_inj] at hget'
      subst hget'
      rw [hdecode] at hdecode'
      cases hdecode'
      rw [hresponse] at hresponse'
      exact (Response.appendTxHash.inj hresponse').symm
    · intro heq
      rw [heq] at hdecode
      exact ⟨bz, _, hget, hdecode, hresponse, hevent⟩
  rw [hreport, reportedNode]
  split
  · simp only [appendedNode, TxNodeTx.throughJson, TxNodeTx.mk.injEq]
    constructor
    · rintro ⟨hhashes, hcreator, hid, hnext⟩
      exact ⟨hhashes.symm, hcreator, hid, by rw [← hnext, hid]⟩
    · rintro ⟨hhashes, hcreator, hid, hnext⟩
      exact ⟨hhashes.symm, hcreator, hid, by rw [hnext, hid]⟩
  · simp only [appendedNode, TxNodeTx.throughJson, TxNodeTx.mk.injEq]
    constructor
    · rintro ⟨hhashes, hcreator, hid, hnext⟩
      exact ⟨hhashes.symm, hcreator, hid, hnext.symm⟩
    · rintro ⟨hhashes, hcreator, hid, hnext⟩
      exact ⟨hhashes.symm, hcreator, hid, hnext.symm⟩

end

/-- One energy report that waits for a node. -/
def oneReport : State Document :=
  run (deliver smallKeeper) (genesis emptyBank) [reportTx (bytes "400") (bytes "h1")]

theorem reportsStored_iff_oneReport :
    ∃ s' r, handle smallKeeper (smallCtx 2) oneReport
        (.appendTxHash ⟨alice, [bytes "h1"], alice, bytes "rec-1-0", []⟩) = .ok (s', r) ∧
      ReportsStored smallKeeper s'.store (bytes "rec-1-0") r := by
  obtain ⟨⟨s', r⟩, h⟩ := isOk_iff.1 (show (handle smallKeeper (smallCtx 2) oneReport
    (.appendTxHash ⟨alice, [bytes "h1"], alice, bytes "rec-1-0", []⟩)).isOk = true by decide +kernel)
  exact ⟨s', r, h, (reportsStored_iff h).2 (by decide +kernel)⟩

/-- The same append with no hash in the message: the stored node has the hash of the report, and the
response and the event have none. -/
theorem append_reports_no_hash :
    (handle smallKeeper (smallCtx 2) oneReport
        (.appendTxHash ⟨alice, [], alice, bytes "rec-1-0", []⟩)).map
      (fun p => (nodeAt smallKeeper p.1.store (bytes "rec-1-0"), p.2.response,
        p.2.attributeValues (bytes "append_tx_hash") (bytes "hashes"))) =
      .ok (some ⟨[bytes "h1"], alice, bytes "rec-1-0", []⟩,
        .appendTxHash ⟨[], alice, bytes "rec-1-0", []⟩, [[]]) := by
  decide +kernel

end EnergyChain.Reward
