import EnergyChain.Reward.Effects

/-!
# Issuing RECs

`CreateRECRecord` names its records by the block height and a loop counter, in the name space that
`DepositCollateral` fills with ids of the caller's choice. Every stored id was named by an earlier
message of the run (`mem_recordIds_of_run`), and the name determines height and counter
(`recID_injective`). So a message whose block saw no other issue, and whose names nobody deposited,
issues fresh records next to the present ones (`createRECRecord_fresh`). Two issues in one block use
the same names (`second_issue_overwrites`).

In a run of messages that pass `ValidateBasic` the number of records issued is the sum of the counts asked
for, whatever energy was recorded; it stays within the RECs earned exactly if that sum does
(`issued_eq_requested`).
-/

set_option autoImplicit false

namespace EnergyChain.Reward

open EnergyChain.Go
open EnergyChain.Sdk
open EnergyChain.Bank

/-! ## The names of issued records -/

/-- A list is cut at the last separator in one way only. -/
theorem append_cons_inj_of_notMem_right {α : Type} {a : α} {xs xs' ys ys' : List α} (h : a ∉ ys)
    (h' : a ∉ ys') (e : xs ++ a :: ys = xs' ++ a :: ys') : xs = xs' ∧ ys = ys' := by
  rcases List.append_eq_append_iff.1 e with ⟨mid, rfl, hmid⟩ | ⟨mid, rfl, hmid⟩
  · cases mid with
    | nil =>
        rw [List.nil_append] at hmid
        exact ⟨(List.append_nil xs).symm, (List.cons.inj hmid).2⟩
    | cons b mid =>
        have hys : ys = mid ++ a :: ys' := (List.cons.inj hmid).2
        exact absurd (by simp [hys]) h
  · cases mid with
    | nil =>
        rw [List.nil_append] at hmid
        exact ⟨List.append_nil xs', (List.cons.inj hmid).2.symm⟩
    | cons b mid =>
        have hys' : ys' = mid ++ a :: ys := (List.cons.inj hmid).2
        exact absurd (by simp [hys']) h'

theorem minus_notMem_formatNat (n : Nat) : (45 : UInt8) ∉ formatNat n := by
  intro hmem
  have hdigit := isDigit_of_mem_formatNat hmem
  revert hdigit
  decide

/-- The name of a record tells the height of its block and its number in the message. -/
theorem recID_injective {ctx ctx' : Context} {i j : Nat} (h : recID ctx i = recID ctx' j) :
    ctx.blockHeight = ctx'.blockHeight ∧ i = j := by
  have hdash : bytes "-" = [45] := by decide
  simp only [recID, hdash, List.append_assoc, List.append_cancel_left_eq, List.singleton_append] at h
  obtain ⟨hheight, hi⟩ :=
    append_cons_inj_of_notMem_right (minus_notMem_formatNat i) (minus_notMem_formatNat j) h
  exact ⟨formatInt_injective hheight, formatNat_injective hi⟩

/-- The names of the records that a message asking for `count` issues. -/
def issuedIDs (ctx : Context) (count : Int) : List GoString :=
  (List.range count.toNat).map (recID ctx)

theorem issuedIDs_nodup (ctx : Context) (count : Int) : (issuedIDs ctx count).Nodup :=
  List.nodup_range.map fun _ _ h => (recID_injective h).2

section

variable {V : Type} {k : Keeper V} {ctx : Context} {s s' : State V} {r : Result} {tx : Tx}

/-! ## One message -/

theorem get_issueRecord_of_ne {store : Store V} {i : Nat} {id : GoString} (h : id ≠ recID ctx i) :
    (issueRecord k ctx store i).get (recRecordKey id) = store.get (recRecordKey id) :=
  SortedMap.get_set_of_ne _ _ fun e => h (recRecordKey_injective e)

/-- The loop leaves the records under other names alone. -/
theorem get_foldl_issueRecord_of_notMem {turns : List Nat} {store : Store V} {id : GoString}
    (h : id ∉ turns.map (recID ctx)) :
    (turns.foldl (issueRecord k ctx) store).get (recRecordKey id) = store.get (recRecordKey id) := by
  induction turns generalizing store with
  | nil => rfl
  | cons i turns ih =>
      rw [List.map_cons, List.mem_cons, not_or] at h
      rw [List.foldl_cons, ih h.2, get_issueRecord_of_ne h.1]

/-- A record that the loop stores states one REC of energy and lists the contributors of the store
before the loop. -/
theorem exists_record_of_mem_issued {turns : List Nat} (store : Store V) {id : GoString}
    (h : id ∈ turns.map (recID ctx)) :
    ∃ record : RECRecord, record.recId = id ∧ record.totalEnergy = bytes "1000000" ∧
      record.contributors = contributors k store ∧
      (turns.foldl (issueRecord k ctx) store).get (recRecordKey id) =
        some (k.cdc.marshalRecord record) := by
  -- the last turn of that name wrote the record that is found at the end
  induction turns using List.reverseRecOn with
  | nil => cases h
  | append_singleton turns i ih =>
      rw [List.foldl_concat]
      by_cases hid : id = recID ctx i
      · subst hid
        refine ⟨_, rfl, rfl, ?_, SortedMap.get_set_self _ _ _⟩
        change contributors k (turns.foldl (issueRecord k ctx) store) = contributors k store
        have hframe : ChangesOnly [.recRecord] store (turns.foldl (issueRecord k ctx) store) :=
          foldl_issueRecord_changesOnly turns store
        rw [contributors, contributors, hframe.select_eq (by simp)]
      · rw [get_issueRecord_of_ne hid]
        apply ih
        rw [List.map_append, List.mem_append] at h
        exact h.resolve_right (by simpa using hid)

/-- The loop adds one key per turn if all its names are distinct and new. -/
theorem countKeys_foldl_issueRecord {turns : List Nat} {store : Store V} (hnodup : turns.Nodup)
    (hfresh : ∀ i ∈ turns, store.get (recRecordKey (recID ctx i)) = none) :
    countKeys .recRecord (turns.foldl (issueRecord k ctx) store) =
      countKeys .recRecord store + turns.length := by
  induction turns generalizing store with
  | nil => rfl
  | cons i turns ih =>
      obtain ⟨hi, hturns⟩ := List.nodup_cons.1 hnodup
      have hnext : ∀ j ∈ turns,
          (issueRecord k ctx store i).get (recRecordKey (recID ctx j)) = none := by
        intro j hj
        have hne : recID ctx j ≠ recID ctx i := fun e => hi ((recID_injective e).2 ▸ hj)
        rw [get_issueRecord_of_ne hne]
        exact hfresh j (List.mem_cons_of_mem i hj)
      have hone : countKeys .recRecord (issueRecord k ctx store i) = countKeys .recRecord store + 1 :=
        SortedMap.card_set_of_get_eq_none _ (inFamily_root_append _ _) (hfresh i List.mem_cons_self)
      rw [List.foldl_cons, ih hturns hnext, hone, List.length_cons]
      omega

/-- What an issue is meant to do: as many records as asked for, under new names, next to all records
that were present. -/
structure IssuesFresh (count : Int) (ids : List GoString) (store store' : Store V) : Prop where
  length : (ids.length : Int) = count
  nodup : ids.Nodup
  fresh : ∀ id ∈ ids, store.get (recRecordKey id) = none
  stored : ∀ id ∈ ids, store'.get (recRecordKey id) ≠ none
  kept : ∀ id v, store.get (recRecordKey id) = some v → store'.get (recRecordKey id) = some v
  grows : countKeys .recRecord store' = countKeys .recRecord store + ids.length

/-- An issue whose names are not in use does what it is meant to do. -/
theorem IssuesFresh.of_unused {count : Int} {store : Store V} (hcount : 0 < count)
    (hunused : ∀ id ∈ issuedIDs ctx count, store.get (recRecordKey id) = none) :
    IssuesFresh count (issuedIDs ctx count) store (createRECRecord k ctx count store).1 where
  length := by
    rw [issuedIDs, List.length_map, List.length_range]
    omega
  nodup := issuedIDs_nodup ctx count
  fresh := hunused
  stored id hid := by
    obtain ⟨record, -, -, -, hget⟩ := exists_record_of_mem_issued (k := k) store hid
    rw [createRECRecord, hget]
    simp
  kept id v hget := by
    rw [createRECRecord, get_foldl_issueRecord_of_notMem, hget]
    intro hid
    rw [hunused id hid] at hget
    cases hget
  grows := by
    rw [createRECRecord, countKeys_foldl_issueRecord List.nodup_range, issuedIDs, List.length_map]
    exact fun i hi => hunused _ (List.mem_map_of_mem hi)

/-! ## Where stored records come from -/

/-- The names under which a transaction may store a record. -/
def Tx.recordIds (tx : Tx) : List GoString :=
  match tx.msg with
  | .reward (.createRECRecord msg) => issuedIDs tx.ctx msg.count
  | .reward (.depositCollateral ⟨_, some (.recRecord record)⟩) => [record.recId]
  | _ => []

/-- A key without an entry, as a property of all entries. -/
theorem get_eq_none_iff_all {store : Store V} {key : GoString} :
    store.get key = none ↔ store.All fun key' _ => key' ≠ key := by
  rw [Option.eq_none_iff_forall_ne_some]
  constructor
  · rintro h key' v hget rfl
    exact h v hget
  · intro h v hget
    exact h key v hget rfl

/-- A message stores a record under one of its own names, or not at all. -/
theorem get_handle_eq_none {msg : Msg} {id : GoString}
    (hres : handle k ctx s msg = .ok (s', r)) (hnone : s.store.get (recRecordKey id) = none)
    (hid : id ∉ (Tx.mk ctx (.reward msg)).recordIds) : s'.store.get (recRecordKey id) = none := by
  have hfamily : inFamily .recRecord (recRecordKey id) = true := inFamily_root_append _ _
  -- most messages write no record at all
  have hframe : Family.recRecord ∉ msg.families → s'.store.get (recRecordKey id) = none := by
    intro hmem
    rw [(handle_changesOnly hres).get_eq hmem hfamily, hnone]
  cases msg with
  | rewardSolarPower msg => exact hframe (by simp)
  | burnModuleStable msg => exact hframe (by simp)
  | addEnergy msg => exact hframe (by simp)
  | appendTxHash msg => exact hframe (by simp)
  | distributeRewardPercent msg => exact hframe (by simp)
  -- the two that remove records keep what holds of all entries
  | burnStableCoin msg =>
      obtain ⟨resp, hburn⟩ := handle_burnStableCoin hres
      obtain ⟨denom, a, addr, store₁, -, -, -, -, -, hrecs, hlower⟩ := burnStableCoin_spec hburn
      obtain ⟨m, -, -, hstore⟩ := lowerSupply_eq_ok.1 hlower
      have hsupply : ChangesOnly [.supply] store₁ s'.store := by
        rw [hstore]
        exact changesOnly_setSupply List.mem_cons_self _ _
      rw [hsupply.get_eq (by simp) hfamily]
      exact get_eq_none_iff_all.2 (returnRecs_all hrecs (get_eq_none_iff_all.1 hnone))
  | removeCollateral msg =>
      exact get_eq_none_iff_all.2
        (removeCollateral_all (handle_removeCollateral hres).2 (get_eq_none_iff_all.1 hnone))
  | depositCollateral msg =>
      obtain ⟨creator, recType⟩ := msg
      rcases depositCollateral_spec (handle_depositCollateral hres).2 with
        ⟨record, hrec, hstore⟩ | ⟨recMeta, hrec, hstore⟩
      · change recType = some (.recRecord record) at hrec
        subst hrec
        rw [hstore, SortedMap.get_set_of_ne _ _ fun e => hid ?_, hnone]
        exact List.mem_singleton.2 (recRecordKey_injective e)
      · have hmeta : ChangesOnly [.recMeta] s.store s'.store := by
          rw [hstore]
          exact changesOnly_set List.mem_cons_self (inFamily_root_append _ _) _ _
        rw [hmeta.get_eq (by simp) hfamily, hnone]
  | createRECRecord msg =>
      obtain ⟨-, hstore, -, -⟩ := handle_createRECRecord hres
      rw [hstore, createRECRecord, get_foldl_issueRecord_of_notMem hid, hnone]

theorem get_deliver_eq_none {id : GoString} (hnone : s.store.get (recRecordKey id) = none)
    (hid : id ∉ tx.recordIds) : (deliver k s tx).store.get (recRecordKey id) = none := by
  obtain ⟨ctx, msg⟩ := tx
  refine commit_cases (P := fun s : State V => s.store.get (recRecordKey id) = none) hnone ?_
  intro s' r hres
  cases msg with
  | reward msg => exact get_handle_eq_none hres hnone hid
  | send msg =>
      obtain ⟨bank, -, rfl, -⟩ := handleTx_send hres
      exact hnone

/-- Every stored record was named by a message of the run. -/
theorem mem_recordIds_of_run (k : Keeper V) (bank : BankState) (txs : List Tx) {id : GoString}
    (h : (run (deliver k) (genesis bank) txs).store.get (recRecordKey id) ≠ none) :
    ∃ tx ∈ txs, id ∈ tx.recordIds := by
  -- the last transaction of the run names the record, or an earlier one has stored it
  induction txs using List.reverseRecOn with
  | nil => exact absurd rfl h
  | append_singleton txs tx ih =>
      rw [run_concat] at h
      by_cases hid : id ∈ tx.recordIds
      · exact ⟨tx, by simp, hid⟩
      · obtain ⟨tx', htx', hid'⟩ := ih fun hnone => h (get_deliver_eq_none hnone hid)
        exact ⟨tx', by simp [htx'], hid'⟩

/-! ## Fresh names in a run -/

/-- An earlier transaction takes a name that an issue of `count` records in this block will use: it
issued records in a block of the same height, or deposited a record under one of the names. -/
def claimsName (ctx : Context) (count : Int) (tx : Tx) : Bool :=
  match tx.msg with
  | .reward (.createRECRecord msg) =>
      decide (0 < msg.count ∧ tx.ctx.blockHeight = ctx.blockHeight)
  | .reward (.depositCollateral ⟨_, some (.recRecord record)⟩) =>
      decide (record.recId ∈ issuedIDs ctx count)
  | _ => false

theorem notMem_recordIds_of_unclaimed {count : Int} (h : claimsName ctx count tx = false)
    {id : GoString} (hid : id ∈ issuedIDs ctx count) : id ∉ tx.recordIds := by
  intro hmem
  unfold Tx.recordIds at hmem
  split at hmem
  -- two issues share a name only at one height
  · rename_i msg hmsg
    obtain ⟨i, -, rfl⟩ := List.mem_map.1 hid
    obtain ⟨j, hj, hname⟩ := List.mem_map.1 hmem
    have hpos : 0 < msg.count := by
      have := List.mem_range.1 hj
      omega
    simp only [claimsName, hmsg, decide_eq_false_iff_not] at h
    exact h ⟨hpos, (recID_injective hname).1⟩
  · rename_i record hmsg
    simp only [claimsName, hmsg, decide_eq_false_iff_not] at h
    rw [List.mem_singleton.1 hmem] at hid
    exact h hid
  · cases hmem

/-- After any run, an issue whose names are unclaimed returns as many new names as asked for and
leaves all present records unchanged. -/
theorem createRECRecord_fresh (k : Keeper V) (bank : BankState) (earlier : List Tx) (ctx : Context)
    (msg : MsgCreateRECRecord) (hnames : ∀ tx ∈ earlier, claimsName ctx msg.count tx = false)
    (hres : handle k ctx (run (deliver k) (genesis bank) earlier) (.createRECRecord msg) =
      .ok (s', r)) :
    ∃ ids, r.response = .createRECRecord ids ∧
      IssuesFresh msg.count ids (run (deliver k) (genesis bank) earlier).store s'.store := by
  obtain ⟨hcount, hstore, hresponse, -⟩ := handle_createRECRecord hres
  refine ⟨issuedIDs ctx msg.count, hresponse, ?_⟩
  rw [hstore]
  refine .of_unused hcount fun id hid => ?_
  by_contra hstored
  obtain ⟨tx, htx, hmem⟩ := mem_recordIds_of_run k bank earlier hstored
  exact notMem_recordIds_of_unclaimed (hnames tx htx) hid hmem

/-! ## How many records are issued -/

/-- The RECs that a successful energy report returns. -/
def Response.earned : Response → Int
  | .addEnergy recs => recs
  | _ => 0

/-- The records that a successful issue returns. -/
def Response.issued : Response → List GoString
  | .createRECRecord ids => ids
  | _ => []

/-- The RECs that a transaction returned: none if it failed. -/
def earnedBy (k : Keeper V) (s : State V) (tx : Tx) : Int :=
  match handleTx k s tx with
  | .ok (_, r) => r.response.earned
  | .error _ => 0

/-- The RECs returned by the energy reports of a run that succeeded. -/
def earned (k : Keeper V) (s : State V) (txs : List Tx) : Int :=
  (trace (deliver k) (earnedBy k) s txs).sum

/-- The number of records issued by a transaction. -/
def issuedBy (k : Keeper V) (s : State V) (tx : Tx) : Nat :=
  match handleTx k s tx with
  | .ok (_, r) => r.response.issued.length
  | .error _ => 0

/-- The number of records issued in a run. -/
def issued (k : Keeper V) (s : State V) (txs : List Tx) : Nat :=
  (trace (deliver k) (issuedBy k) s txs).sum

/-- The number of records that a transaction asks for. -/
def Tx.requested (tx : Tx) : Nat :=
  match tx.msg with
  | .reward (.createRECRecord msg) => msg.count.toNat
  | _ => 0

/-- The count that a transaction names. -/
def Tx.count (tx : Tx) : Int :=
  match tx.msg with
  | .reward (.createRECRecord msg) => msg.count
  | _ => 0

/-- The sum of the counts that the messages of a run name. -/
def requested (txs : List Tx) : Int := (txs.map Tx.count).sum

/-- An issue succeeds in every state, for every positive count. -/
theorem exists_handle_createRECRecord (k : Keeper V) (ctx : Context) (s : State V)
    (msg : MsgCreateRECRecord) (h : 0 < msg.count) :
    ∃ s' r, handle k ctx s (.createRECRecord msg) = .ok (s', r) := by
  obtain ⟨n, hn⟩ : ∃ n, msg.count.toNat = n + 1 := ⟨msg.count.toNat - 1, by omega⟩
  simp only [handle, handleCreateRECRecord, createRECRecord, hn, List.range_succ_eq_map,
    List.map_cons]
  exact ⟨_, _, rfl⟩

/-- Only an issue returns record ids. -/
theorem issued_of_handle {msg : Msg} (h : handle k ctx s msg = .ok (s', r)) :
    r.response.issued.length = (Tx.mk ctx (.reward msg)).requested := by
  cases msg with
  | createRECRecord msg =>
      obtain ⟨-, -, hresponse, -⟩ := handle_createRECRecord h
      simp [hresponse, Response.issued, Tx.requested]
  | addEnergy msg =>
      obtain ⟨wh, recs, -, -, -, hresponse, -⟩ := handle_addEnergy h
      simp [hresponse, Response.issued, Tx.requested]
  | rewardSolarPower msg =>
      simp only [handle, bind_eq_ok, pure_eq_ok, Prod.mk.injEq] at h
      obtain ⟨_, -, -, rfl⟩ := h
      rfl
  | burnStableCoin msg =>
      simp only [handle, handleBurnStableCoin, bind_eq_ok, pure_eq_ok, Prod.mk.injEq] at h
      obtain ⟨_, -, -, rfl⟩ := h
      rfl
  | burnModuleStable msg =>
      simp only [handle, bind_eq_ok, pure_eq_ok, Prod.mk.injEq] at h
      obtain ⟨_, -, -, rfl⟩ := h
      rfl
  | depositCollateral msg =>
      simp only [handle, bind_eq_ok, pure_eq_ok, Prod.mk.injEq] at h
      obtain ⟨_, -, -, rfl⟩ := h
      rfl
  | removeCollateral msg =>
      simp only [handle, bind_eq_ok, pure_eq_ok, Prod.mk.injEq] at h
      obtain ⟨_, -, -, rfl⟩ := h
      rfl
  | appendTxHash msg =>
      simp only [handle, handleAppendTxHash, bind_eq_ok, pure_eq_ok, Prod.mk.injEq] at h
      obtain ⟨_, -, -, rfl⟩ := h
      rfl
  | distributeRewardPercent msg =>
      simp only [handle, handleDistributeRewardPercent, bind_eq_ok, pure_eq_ok, Prod.mk.injEq] at h
      obtain ⟨_, -, -, rfl⟩ := h
      rfl

theorem issuedBy_eq_requested (k : Keeper V) (s : State V) (tx : Tx) :
    issuedBy k s tx = tx.requested := by
  obtain ⟨ctx, msg⟩ := tx
  cases msg with
  | send msg =>
      cases hres : handleTx k s ⟨ctx, .send msg⟩ with
      | error fault => simp [issuedBy, hres, Tx.requested]
      | ok p =>
          obtain ⟨bank, -, -, hr⟩ := handleTx_send hres
          simp [issuedBy, hres, hr, Tx.requested, Result.empty, Response.issued]
  | reward msg =>
      cases hres : handle k ctx s msg with
      | ok p => simp only [issuedBy, handleTx, hres, issued_of_handle hres]
      | error fault =>
          simp only [issuedBy, handleTx, hres]
          -- an issue fails only if it asks for nothing
          cases msg with
          | createRECRecord msg =>
              by_cases hcount : 0 < msg.count
              · obtain ⟨s', r, hok⟩ := exists_handle_createRECRecord k ctx s msg hcount
                rw [hok] at hres
                cases hres
              · change 0 = msg.count.toNat
                omega
          | _ => rfl

theorem count_pos_of_validateBasic {lib : Bech32} {msg : MsgCreateRECRecord} {u : Unit}
    (h : msg.validateBasic lib = .ok u) : 0 < msg.count := by
  rw [MsgCreateRECRecord.validateBasic, bind_eq_ok] at h
  obtain ⟨-, -, hcount⟩ := h
  exact require_eq_ok.1 hcount

/-- The count of a message that passes `ValidateBasic` is the number of records it asks for. -/
theorem requested_of_passesBasic {lib : Bech32} (h : tx.msg.passesBasic lib = true) :
    (tx.requested : Int) = tx.count := by
  obtain ⟨ctx, msg⟩ := tx
  cases msg with
  | send msg => rfl
  | reward msg =>
      cases msg with
      | createRECRecord msg =>
          obtain ⟨u, hok⟩ := isOk_iff.1 h
          have hcount : 0 < msg.count := count_pos_of_validateBasic hok
          exact Int.toNat_of_nonneg hcount.le
      | _ => rfl

/-- A run of messages that pass `ValidateBasic` issues as many records as they ask for. -/
theorem issued_eq_sum_counts {lib : Bech32} {txs : List Tx}
    (hbasic : ∀ tx ∈ txs, tx.msg.passesBasic lib = true) : (issued k s txs : Int) = requested txs := by
  induction txs generalizing s with
  | nil => rfl
  | cons tx txs ih =>
      have hrest : (issued k (deliver k s tx) txs : Int) = requested txs :=
        ih fun t ht => hbasic t (List.mem_cons_of_mem tx ht)
      have htx : (tx.requested : Int) = tx.count := requested_of_passesBasic (hbasic tx List.mem_cons_self)
      rw [issued, trace_cons, List.sum_cons, issuedBy_eq_requested, requested, List.map_cons,
        List.sum_cons, Nat.cast_add, htx]
      exact congrArg _ hrest

/-- Every record that a transaction issues states one REC of energy. -/
theorem totalEnergy_of_issued (hres : handleTx k s tx = .ok (s', r)) {id : GoString}
    (hid : id ∈ r.response.issued) :
    ∃ record : RECRecord, record.recId = id ∧ record.totalEnergy = bytes "1000000" ∧
      s'.store.get (recRecordKey id) = some (k.cdc.marshalRecord record) := by
  obtain ⟨ctx, msg⟩ := tx
  have hlength : r.response.issued ≠ [] := List.ne_nil_of_mem hid
  cases msg with
  | send msg =>
      obtain ⟨bank', -, -, rfl⟩ := handleTx_send hres
      cases hid
  | reward msg =>
      have hmsg := issued_of_handle hres
      cases msg with
      | createRECRecord msg =>
          obtain ⟨-, hstore, hresponse, -⟩ := handle_createRECRecord hres
          rw [hresponse] at hid
          obtain ⟨record, hid', henergy, -, hget⟩ := exists_record_of_mem_issued (k := k) s.store hid
          rw [hstore]
          exact ⟨record, hid', henergy, hget⟩
      | _ => exact absurd (List.length_eq_zero_iff.1 hmsg) hlength

/-- In a run of messages that pass `ValidateBasic`, the records issued are as many as the messages ask
for, whatever energy was recorded. So they stay within the RECs that the energy reports returned exactly
if the counts asked for do. Each record issued states one REC of energy. -/
theorem issued_eq_requested (k : Keeper V) (bank : BankState) (txs : List Tx)
    (hbasic : ∀ tx ∈ txs, tx.msg.passesBasic k.bankKeeper.bech32 = true) :
    (issued k (genesis bank) txs : Int) = requested txs ∧
      ((issued k (genesis bank) txs : Int) ≤ earned k (genesis bank) txs ↔
        requested txs ≤ earned k (genesis bank) txs) ∧
      ∀ pre tx s' r, pre ++ [tx] <+: txs →
        handleTx k (run (deliver k) (genesis bank) pre) tx = .ok (s', r) →
        ∀ id ∈ r.response.issued, ∃ record : RECRecord, record.recId = id ∧
          record.totalEnergy = bytes "1000000" ∧
          s'.store.get (recRecordKey id) = some (k.cdc.marshalRecord record) := by
  have hissued : (issued k (genesis bank) txs : Int) = requested txs := issued_eq_sum_counts hbasic
  refine ⟨hissued, by rw [hissued], ?_⟩
  intro pre tx s' r _ hres id hid
  exact totalEnergy_of_issued hres hid

end

/-! ## Issues on the small chain -/

/-- An issue of alice in a block of that height. -/
def issueTx (height count : Int) : Tx := smallTx height (.createRECRecord ⟨alice, count⟩)

/-- A deposit and an issue in block 1, then an issue of two records in block 2. -/
theorem createRECRecord_fresh_nextBlock :
    ∃ s' r ids, handle smallKeeper (smallCtx 2)
        (run (deliver smallKeeper) (genesis emptyBank) (depositThenMint ++ [issueTx 1 1]))
        (.createRECRecord ⟨alice, 2⟩) = .ok (s', r) ∧ r.response = .createRECRecord ids ∧
      IssuesFresh 2 ids
        (run (deliver smallKeeper) (genesis emptyBank) (depositThenMint ++ [issueTx 1 1])).store
        s'.store := by
  obtain ⟨s', r, hres⟩ := exists_handle_createRECRecord smallKeeper (smallCtx 2)
    (run (deliver smallKeeper) (genesis emptyBank) (depositThenMint ++ [issueTx 1 1])) ⟨alice, 2⟩
    (by decide)
  obtain ⟨ids, hids, hfresh⟩ := createRECRecord_fresh smallKeeper emptyBank
    (depositThenMint ++ [issueTx 1 1]) (smallCtx 2) ⟨alice, 2⟩ (by decide +kernel) hres
  exact ⟨s', r, ids, hres, hids, hfresh⟩

/-- The second of two issues in one block returns the name of the first, and no record is added. -/
theorem second_issue_overwrites :
    ∃ s' r, handle smallKeeper (smallCtx 1)
        (run (deliver smallKeeper) (genesis emptyBank) [issueTx 1 1])
        (.createRECRecord ⟨alice, 1⟩) = .ok (s', r) ∧
      r.response = .createRECRecord [bytes "rec-1-0"] ∧
      (run (deliver smallKeeper) (genesis emptyBank) [issueTx 1 1]).store.get
        (recRecordKey (bytes "rec-1-0")) ≠ none ∧
      countKeys .recRecord s'.store = 1 ∧
      countKeys .recRecord
        (run (deliver smallKeeper) (genesis emptyBank) [issueTx 1 1]).store = 1 :=
  ⟨_, _, rfl, by decide +kernel, by decide +kernel, by decide +kernel, by decide +kernel⟩

/-- A record is issued on a chain that has recorded no energy. -/
theorem issue_without_energy :
    (∀ tx ∈ [issueTx 1 1], tx.msg.passesBasic smallBech32 = true) ∧
      issued smallKeeper (genesis emptyBank) [issueTx 1 1] = 1 ∧
      earned smallKeeper (genesis emptyBank) [issueTx 1 1] = 0 := by
  refine ⟨?_, ?_, ?_⟩
  · decide +kernel
  · decide +kernel
  · decide +kernel

/-- Two reports of one REC and an issue of two records: the bound holds, and is met. -/
def earnThenIssue : List Tx :=
  [smallTx 1 (.addEnergy ⟨alice, alice, bytes "1500000", bytes "h1"⟩),
    smallTx 1 (.addEnergy ⟨alice, alice, bytes "500000", bytes "h2"⟩), issueTx 2 2]

theorem issued_eq_requested_earnThenIssue :
    (∀ tx ∈ earnThenIssue, tx.msg.passesBasic smallBech32 = true) ∧
      earned smallKeeper (genesis emptyBank) earnThenIssue = 2 ∧
      (issued smallKeeper (genesis emptyBank) earnThenIssue : Int) = 2 ∧
      (issued smallKeeper (genesis emptyBank) earnThenIssue : Int) ≤
        earned smallKeeper (genesis emptyBank) earnThenIssue := by
  have hbasic : ∀ tx ∈ earnThenIssue, tx.msg.passesBasic smallBech32 = true := by decide +kernel
  have hearned : earned smallKeeper (genesis emptyBank) earnThenIssue = 2 := by decide +kernel
  obtain ⟨hissued, hbound, -⟩ := issued_eq_requested smallKeeper emptyBank earnThenIssue hbasic
  have hrequested : requested earnThenIssue = 2 := by decide
  exact ⟨hbasic, hearned, hissued.trans hrequested, hbound.2 (by rw [hearned, hrequested])⟩

end EnergyChain.Reward
