import EnergyChain.Reward.Energy
import EnergyChain.Reward.TxList

/-!
# Who the energy belongs to

Next to `total_energy` the store keeps one account for each address. A report raises both; RECs lower
the first, and `AppendTxHash` empties the second. `Accounts` is what every run of reports with
non-negative amounts keeps: all stored energies are whole numbers in the range where sums are exact,
and an append cannot fail.

The remainder in `total_energy` stays covered by the accounts exactly as long as appends come when it
is zero (`attributed_iff_remainderSpent`). A record copies all accounts, so energy is not counted in
two records if every issue asks for one record and an append follows before the next
(`copied_le_reported`).
-/

set_option autoImplicit false

namespace EnergyChain.Reward

open EnergyChain.Go
open EnergyChain.Sdk
open EnergyChain.Bank

section

variable {V : Type} {k : Keeper V} {s : State V} {tx : Tx} {store store' : Store V}

/-! ## Appends do not fail -/

/-- The tail of the list can be read: stored nodes are encodings of nodes, and if there is a head,
the tail names a stored node. -/
structure TailReady (k : Keeper V) (store : Store V) : Prop where
  encoded : ∀ id bz, store.get (txNodeKey id) = some bz → ∃ node, bz = k.cdc.marshalNode node
  tail : store.get txListHeadKey ≠ none →
    ∃ id, tailOf k store = some id ∧ store.get (txNodeKey id) ≠ none

theorem tailReady_empty (k : Keeper V) : TailReady k .empty where
  encoded := by
    intro id bz hget
    cases hget
  tail h := absurd rfl h

theorem TailReady.frame {fs : List Family} (h : TailReady k store)
    (hframe : ChangesOnly fs store store') (hhead : Family.txListHead ∉ fs)
    (htail : Family.txListTail ∉ fs) (hnode : Family.txNode ∉ fs) : TailReady k store' where
  encoded id bz hget := h.encoded id bz (by rw [← hframe.get_txNodeKey hnode, hget])
  tail hne := by
    rw [hframe.get_txListHeadKey hhead] at hne
    obtain ⟨id, hid, hget⟩ := h.tail hne
    exact ⟨id, by rw [hframe.tailOf_eq htail, hid], by rwa [hframe.get_txNodeKey hnode]⟩

/-- The last two writes of an append leave a readable tail. -/
theorem tailReady_of_linked {recId : GoString}
    (hencoded : ∀ id bz, store.get (txNodeKey id) = some bz → ∃ node, bz = k.cdc.marshalNode node)
    (hnode : store.get (txNodeKey recId) ≠ none) :
    TailReady k (resetEnergyStore (store.set txListTailKey (k.cdc.text recId))) := by
  have hset := changesOnly_setTail store (k.cdc.text recId)
  refine TailReady.frame ?_ (resetEnergyStore_changesOnly _) (by simp) (by simp) (by simp)
  refine ⟨fun id bz hget => hencoded id bz ?_, fun _ => ⟨recId, ?_, ?_⟩⟩
  · rwa [hset.get_txNodeKey (by simp)] at hget
  · rw [tailOf, SortedMap.get_set_self, Option.map_some, k.cdc.text_roundTrip]
  · rwa [hset.get_txNodeKey (by simp)]

/-- The reset leaves no account of an address. -/
theorem select_resetEnergyStore (store : Store V) :
    (resetEnergyStore store).select (inFamily .energyByAddress) = [] := by
  have htx : ChangesOnly [.energyTx] (store.deleteAll
      ((store.select (inFamily .energyByAddress)).map Prod.fst)) (resetEnergyStore store) :=
    changesOnly_delete List.mem_cons_self (inFamily_root _) _
  rw [htx.select_eq (by simp), SortedMap.select_deleteAll, List.filter_eq_nil_iff]
  intro e he
  simpa using ⟨e.2, he⟩

/-- An append to a store with a readable tail succeeds and empties the accounts. -/
theorem TailReady.appendTxNode (h : TailReady k store) (node : TxNodeTx) :
    ∃ store', appendTxNode k node store = .ok store' ∧ TailReady k store' ∧
      store'.select (inFamily .energyByAddress) = [] := by
  set stored : TxNodeTx := { node with txHashes := getAllTxHashes k store } with hstored
  have hset := changesOnly_setNode store node.recId (k.cdc.marshalNode stored)
  have hencoded := encoded_set h.encoded node.recId stored
  have hnew : (store.set (txNodeKey node.recId) (k.cdc.marshalNode stored)).get
      (txNodeKey node.recId) ≠ none := by
    rw [SortedMap.get_set_self]
    simp
  cases hhead : store.get txListHeadKey with
  | none =>
      have hsetHead := changesOnly_setHead
        (store.set (txNodeKey node.recId) (k.cdc.marshalNode stored)) (k.cdc.text node.recId)
      simp only [Reward.appendTxNode, ← hstored, hset.get_txListHeadKey (by simp), hhead]
      refine ⟨_, rfl, tailReady_of_linked (fun id bz hget => hencoded id bz ?_) ?_,
        select_resetEnergyStore _⟩
      · rwa [hsetHead.get_txNodeKey (by simp)] at hget
      · rwa [hsetHead.get_txNodeKey (by simp)]
  | some head =>
      obtain ⟨id, hid, hget⟩ := h.tail (by rw [hhead]; simp)
      obtain ⟨tailBz, htail, rfl⟩ := Option.map_eq_some_iff.1 hid
      obtain ⟨bz, hbz⟩ := Option.ne_none_iff_exists'.1
        (SortedMap.get_set_ne_none hget (txNodeKey node.recId) (k.cdc.marshalNode stored))
      obtain ⟨tailNode, rfl⟩ := hencoded _ bz hbz
      simp only [Reward.appendTxNode, ← hstored, hset.get_txListHeadKey (by simp), hhead,
        hset.get_txListTailKey (by simp), htail, Option.map_some, Option.getD_some, hbz,
        k.cdc.node_roundTrip]
      exact ⟨_, rfl, tailReady_of_linked (encoded_set hencoded _ _) (SortedMap.get_set_ne_none hnew _ _),
        select_resetEnergyStore _⟩

/-! ## The accounts along a run -/

/-- The energy that a stored value stands for. -/
def energyOf (k : Keeper V) (v : V) : ℚ := value ((k.cdc.unmarshalFloat v).getD (.fin 0))

/-- The sum of the energies stored for all addresses. -/
def addressEnergy (k : Keeper V) (store : Store V) : ℚ :=
  store.sum (inFamily .energyByAddress) (energyOf k)

/-- What a run of reports with non-negative amounts keeps, if `reported` is the energy reported so
far: `total_energy` is the whole number `t`, and so is every account of an address. -/
structure Accounts (k : Keeper V) (reported t : Int) (store : Store V) : Prop where
  total : storedEnergy k totalEnergyKey store = .fin t
  nonneg : 0 ≤ t
  le_reported : t ≤ reported
  shares : ∀ key v, inFamily .energyByAddress key = true → store.get key = some v →
    ∃ z : Int, 0 ≤ z ∧ z ≤ reported ∧ v = k.cdc.text (Float64.fin z).format
  ready : TailReady k store

theorem accounts_empty (k : Keeper V) : Accounts k 0 0 .empty where
  total := rfl
  nonneg := le_rfl
  le_reported := le_rfl
  shares := by
    intro key v _ hget
    cases hget
  ready := tailReady_empty k

/-- A message that writes none of the accounts and not the list. -/
theorem Accounts.frame {fs : List Family} {reported t : Int} (h : Accounts k reported t store)
    (hframe : ChangesOnly fs store store') (htotal : Family.totalEnergy ∉ fs)
    (hshares : Family.energyByAddress ∉ fs) (hhead : Family.txListHead ∉ fs)
    (htail : Family.txListTail ∉ fs) (hnode : Family.txNode ∉ fs) :
    Accounts k reported t store' ∧ addressEnergy k store' = addressEnergy k store := by
  refine ⟨⟨?_, h.nonneg, h.le_reported, ?_, h.ready.frame hframe hhead htail hnode⟩, ?_⟩
  · have hget : store'.get totalEnergyKey = store.get totalEnergyKey :=
      hframe.get_eq htotal (inFamily_root _)
    rw [storedEnergy, hget]
    exact h.total
  · intro key v hkey hget
    rw [hframe.get_eq hshares hkey] at hget
    exact h.shares key v hkey hget
  · exact SortedMap.sum_congr _ fun key hkey => hframe.get_eq hshares hkey

/-- The account of an address is a whole number, zero if it is not stored. -/
theorem Accounts.exists_share {reported t : Int} (h : Accounts k reported t store)
    (hle : reported ≤ 2 ^ 53) (addr : GoString) :
    ∃ e : Int, 0 ≤ e ∧ e ≤ reported ∧
      storedEnergy k (energyByAddressKey addr) store = .fin e ∧
      (store.get (energyByAddressKey addr)).elim 0 (energyOf k) = e := by
  have hreported : 0 ≤ reported := h.nonneg.trans h.le_reported
  cases hget : store.get (energyByAddressKey addr) with
  | none => exact ⟨0, le_rfl, hreported, by rw [storedEnergy, hget]; rfl, by simp⟩
  | some v =>
      obtain ⟨z, hz0, hz, rfl⟩ := h.shares _ v (inFamily_energyByAddressKey addr) hget
      have hread := k.cdc.float_roundTrip z (by omega)
      refine ⟨z, hz0, hz, ?_, ?_⟩
      · rw [storedEnergy, hget]
        simp [hread]
      · simp [energyOf, hread]

/-- A report raises `total_energy` and the account of its address. -/
theorem Accounts.addEnergy {reported t w : Int} (h : Accounts k reported t store)
    (creator txHash : GoString) (hw : 0 ≤ w) (hle : reported + w ≤ 2 ^ 53) :
    Accounts k (reported + w) (Meter.accrue 1000000 t w)
        (addEnergy k creator (.fin w) txHash store).1 ∧
      addressEnergy k (addEnergy k creator (.fin w) txHash store).1 =
        addressEnergy k store + w := by
  have hnonneg := h.nonneg
  have hreported := h.le_reported
  obtain ⟨-, htotal⟩ := addEnergy_total creator txHash h.total (w := w) (by omega) (by omega)
  obtain ⟨e, he0, he, hstored, helim⟩ := h.exists_share (by omega) creator
  have hnew := get_addEnergy_address (k := k) creator (.fin w) txHash store
  rw [hstored, Float64.fin_add_fin (by omega)] at hnew
  have hframe := addEnergy_changesOnly (k := k) creator (.fin w) txHash store
  refine ⟨⟨htotal, ?_, ?_, ?_, h.ready.frame hframe (by simp) (by simp) (by simp)⟩, ?_⟩
  · rw [Meter.accrue]
    omega
  · rw [Meter.accrue]
    omega
  · intro key v hkey hget
    by_cases hcreator : key = energyByAddressKey creator
    · subst hcreator
      rw [hnew] at hget
      exact ⟨e + w, by omega, by omega, (Option.some_inj.1 hget).symm⟩
    · rw [get_addEnergy_of_ne _ _ _ hkey hcreator] at hget
      obtain ⟨z, hz0, hz, hv⟩ := h.shares key v hkey hget
      exact ⟨z, hz0, by omega, hv⟩
  · -- the accounts after the report are those before it with the one account set
    have hset : addressEnergy k (Reward.addEnergy k creator (.fin w) txHash store).1 =
        addressEnergy k (store.set (energyByAddressKey creator)
          (k.cdc.text (Float64.fin (e + w : Int)).format)) := by
      refine SortedMap.sum_congr _ fun key hkey => ?_
      by_cases hcreator : key = energyByAddressKey creator
      · rw [hcreator, hnew, SortedMap.get_set_self]
      · rw [get_addEnergy_of_ne _ _ _ hkey hcreator, SortedMap.get_set_of_ne _ _ hcreator]
    have hsum := SortedMap.sum_set (inFamily .energyByAddress) (energyOf k) store
      (k.cdc.text (Float64.fin (e + w : Int)).format) (inFamily_energyByAddressKey creator)
    have hvalue : energyOf k (k.cdc.text (Float64.fin (e + w : Int)).format) = (e : ℚ) + w := by
      rw [energyOf, k.cdc.float_roundTrip _ (by omega)]
      simp
    rw [helim, hvalue] at hsum
    rw [hset, addressEnergy, addressEnergy]
    linarith

/-- An append empties the accounts of the addresses and leaves `total_energy`. -/
theorem Accounts.appendTxNode {reported t : Int} (h : Accounts k reported t store)
    (node : TxNodeTx) :
    ∃ store', appendTxNode k node store = .ok store' ∧ Accounts k reported t store' ∧
      addressEnergy k store' = 0 := by
  obtain ⟨store', hok, hready, hempty⟩ := h.ready.appendTxNode node
  have hframe := appendTxNode_changesOnly hok
  refine ⟨store', hok, ⟨?_, h.nonneg, h.le_reported, ?_, hready⟩, ?_⟩
  · have hget : store'.get totalEnergyKey = store.get totalEnergyKey :=
      hframe.get_eq (g := .totalEnergy) (by simp) (inFamily_root _)
    rw [storedEnergy, hget]
    exact h.total
  · intro key v hkey hget
    have hmem : (key, v) ∈ store'.select (inFamily .energyByAddress) :=
      SortedMap.mem_select.2 ⟨hkey, hget⟩
    rw [hempty] at hmem
    cases hmem
  · rw [addressEnergy, SortedMap.sum, hempty]
    rfl

/-- A transaction that is neither an append nor a report writes none of the accounts. -/
theorem exists_changesOnly_of_not_report (happend : tx.msg.appendTxHash? = none)
    (hreport : tx.isReport = false) :
    ∃ fs, ChangesOnly fs s.store (deliver k s tx).store ∧ Family.totalEnergy ∉ fs ∧
      Family.energyByAddress ∉ fs ∧ Family.txListHead ∉ fs ∧ Family.txListTail ∉ fs ∧
      Family.txNode ∉ fs := by
  rcases deliver_changesOnly k s tx with hsame | ⟨msg, s', r, hmsg, hhandle, hframe⟩
  · rw [hsame]
    exact ⟨[], .refl _ _, by simp⟩
  · refine ⟨msg.families, hframe, ?_⟩
    cases msg with
    | appendTxHash msg => simp [hmsg, TxMsg.appendTxHash?] at happend
    | addEnergy msg =>
        -- a report that succeeds states a number
        obtain ⟨wh, recs, hwh, -⟩ := handle_addEnergy hhandle
        simp [Tx.isReport, hmsg, TxMsg.addEnergy?, hwh] at hreport
    | _ => simp

theorem Tx.wattHours_of_not_report (h : tx.isReport = false) : tx.wattHours = 0 := by
  rw [Tx.isReport, Option.isSome_eq_false_iff, Option.isNone_iff_eq_none] at h
  rw [Tx.wattHours, h]
  rfl

/-- What one transaction does to the accounts. -/
theorem Accounts.deliver_cases {reported t : Int} (h : Accounts k reported t s.store)
    (hw : 0 ≤ tx.wattHours) (hle : reported + tx.wattHours ≤ 2 ^ 53) :
    (tx.isReport = true ∧ tx.msg.appendTxHash? = none ∧
      Accounts k (reported + tx.wattHours) (Meter.accrue 1000000 t tx.wattHours)
        (deliver k s tx).store ∧
      addressEnergy k (deliver k s tx).store = addressEnergy k s.store + tx.wattHours) ∨
    (tx.msg.appendTxHash?.isSome = true ∧ tx.wattHours = 0 ∧
      Accounts k reported t (deliver k s tx).store ∧
      addressEnergy k (deliver k s tx).store = 0) ∨
    (tx.msg.appendTxHash? = none ∧ tx.wattHours = 0 ∧
      Accounts k reported t (deliver k s tx).store ∧
      addressEnergy k (deliver k s tx).store = addressEnergy k s.store) := by
  have hreported : 0 ≤ reported := h.nonneg.trans h.le_reported
  cases hreport : tx.isReport with
  | true =>
      obtain ⟨msg, hmsg, hamount⟩ := Tx.isReport_iff.1 hreport
      obtain ⟨hstore, -⟩ := deliver_report (k := k) hmsg hamount
        (isInt64_iff.2 ⟨by omega, by omega⟩) s
      have hnone : tx.msg.appendTxHash? = none := by
        rw [hmsg]
        rfl
      rw [hstore, Float64.ofInt_eq_fin (by omega)]
      obtain ⟨haccounts, hsum⟩ := h.addEnergy msg.toAddr msg.txHash hw hle
      exact Or.inl ⟨rfl, hnone, haccounts, hsum⟩
  | false =>
      have hzero := Tx.wattHours_of_not_report hreport
      cases happend : tx.msg.appendTxHash? with
      | none =>
          obtain ⟨fs, hframe, htotal, hshares, hhead, htail, hnode⟩ :=
            exists_changesOnly_of_not_report (k := k) (s := s) happend hreport
          obtain ⟨haccounts, hsum⟩ := h.frame hframe htotal hshares hhead htail hnode
          exact Or.inr (Or.inr ⟨rfl, hzero, haccounts, hsum⟩)
      | some msg =>
          obtain ⟨ctx, txMsg⟩ := tx
          obtain rfl : txMsg = .reward (.appendTxHash msg) := TxMsg.appendTxHash?_eq_some.1 happend
          obtain ⟨store', hok, haccounts, hsum⟩ :=
            h.appendTxNode ⟨msg.txHashes, msg.nodeCreator, msg.recId, msg.next⟩
          rw [deliver_append hok]
          exact Or.inr (Or.inl ⟨rfl, hzero, haccounts, hsum⟩)

/-- The amounts of a run are not negative, and their sum is in the range where sums are exact. Each stored
total is a part of that sum, so the stored totals are in the range as well. -/
structure ReportsInRange (txs : List Tx) : Prop where
  nonneg : ∀ tx ∈ txs, 0 ≤ tx.wattHours
  sum_lt : (txs.map Tx.wattHours).sum < 2 ^ 53

theorem ReportsInRange.of_prefix {txs pre : List Tx} (h : ReportsInRange txs) (hpre : pre <+: txs) :
    ReportsInRange pre := by
  obtain ⟨rest, rfl⟩ := hpre
  have hrest : 0 ≤ (rest.map Tx.wattHours).sum := by
    refine List.sum_nonneg fun w hw => ?_
    obtain ⟨tx, htx, rfl⟩ := List.mem_map.1 hw
    exact h.nonneg tx (List.mem_append_right pre htx)
  have hsum := h.sum_lt
  rw [List.map_append, List.sum_append] at hsum
  exact ⟨fun tx htx => h.nonneg tx (List.mem_append_left rest htx), by omega⟩

/-- The accounts along a run. -/
theorem exists_accounts_of_run (k : Keeper V) (bank : BankState) {txs : List Tx}
    (h : ReportsInRange txs) :
    ∃ t, Accounts k (txs.map Tx.wattHours).sum t (run (deliver k) (genesis bank) txs).store := by
  induction txs using List.reverseRecOn with
  | nil => exact ⟨0, accounts_empty k⟩
  | append_singleton txs tx ih =>
      obtain ⟨t, hacc⟩ := ih (h.of_prefix (List.prefix_append txs [tx]))
      have hsum := h.sum_lt
      rw [wattHours_concat] at hsum
      rw [wattHours_concat, run_concat]
      rcases hacc.deliver_cases (h.nonneg tx (by simp)) hsum.le with
        ⟨-, -, hnext, -⟩ | ⟨-, hzero, hnext, -⟩ | ⟨-, hzero, hnext, -⟩
      · exact ⟨_, hnext⟩
      · exact ⟨t, by rwa [hzero, add_zero]⟩
      · exact ⟨t, by rwa [hzero, add_zero]⟩

/-! ## The remainder is attributed -/

/-- The energy that counts towards the next REC is covered by the accounts of the addresses. -/
def Attributed (k : Keeper V) (store : Store V) : Prop :=
  value (storedEnergy k totalEnergyKey store) ≤ addressEnergy k store

/-- An append comes when no energy counts towards the next REC. -/
def remainderSpent (k : Keeper V) (s : State V) (tx : Tx) : Prop :=
  tx.msg.appendTxHash?.isSome = true → storedEnergy k totalEnergyKey s.store = .fin 0

instance (s : State V) (tx : Tx) : Decidable (remainderSpent k s tx) :=
  inferInstanceAs (Decidable (_ → _))

theorem Accounts.attributed_deliver_iff {reported t : Int} (h : Accounts k reported t s.store)
    (hatt : Attributed k s.store) (hw : 0 ≤ tx.wattHours)
    (hle : reported + tx.wattHours ≤ 2 ^ 53) :
    Attributed k (deliver k s tx).store ↔ remainderSpent k s tx := by
  rw [Attributed, h.total, value_fin] at hatt
  rcases h.deliver_cases hw hle with
    ⟨-, happend, hnext, hsum⟩ | ⟨happend, -, hnext, hsum⟩ | ⟨happend, -, hnext, hsum⟩
  · -- the remainder grows by at most the amount, the accounts by the amount
    have hgrow : Meter.accrue 1000000 t tx.wattHours ≤ t + tx.wattHours := by
      have := h.nonneg
      rw [Meter.accrue]
      omega
    have hgrow' : ((Meter.accrue 1000000 t tx.wattHours : Int) : ℚ) ≤ t + tx.wattHours := by
      exact_mod_cast hgrow
    have hatt' : Attributed k (deliver k s tx).store := by
      rw [Attributed, hnext.total, value_fin, hsum]
      linarith
    simp [hatt', remainderSpent, happend]
  · -- the accounts are empty, so the remainder has to be
    have hnonneg : (0 : ℚ) ≤ t := by exact_mod_cast h.nonneg
    rw [Attributed, hnext.total, value_fin, hsum, remainderSpent, h.total, happend,
      Float64.fin.injEq]
    constructor
    · exact fun hzero _ => le_antisymm hzero hnonneg
    · exact fun hzero => (hzero rfl).le
  · have hatt' : Attributed k (deliver k s tx).store := by
      rwa [Attributed, hnext.total, value_fin, hsum]
    simp [hatt', remainderSpent, happend]

/-- All along a run whose reports are not negative, the remainder in `total_energy` is at most the sum
of the accounts of the addresses, exactly if every append comes when the remainder is zero. -/
theorem attributed_iff_remainderSpent (k : Keeper V) (bank : BankState) (txs : List Tx)
    (hrange : ReportsInRange txs) :
    (∀ pre, pre <+: txs → Attributed k (run (deliver k) (genesis bank) pre).store) ↔
      Along (deliver k) (remainderSpent k) (genesis bank) txs := by
  apply forall_prefix_history_iff_along
    (P := fun pre => Attributed k (run (deliver k) (genesis bank) pre).store)
  · exact le_rfl
  · intro pre tx hpre hatt
    obtain ⟨t, hacc⟩ := exists_accounts_of_run k bank
      (hrange.of_prefix ((List.prefix_append pre [tx]).trans hpre))
    have hsum := (hrange.of_prefix hpre).sum_lt
    rw [wattHours_concat] at hsum
    rw [run_concat]
    exact hacc.attributed_deliver_iff hatt (hrange.nonneg tx (hpre.subset (by simp))) hsum.le

/-! ## Energy in records -/

/-- A sum of equal parts. -/
theorem sum_map_filterMap_const {α β : Type} {f : α → Option β} {g : β → ℚ} {c : ℚ} (l : List α)
    (h : ∀ a ∈ l, ∃ b, f a = some b ∧ g b = c) :
    ((l.filterMap f).map g).sum = l.length * c := by
  induction l with
  | nil => simp
  | cons a l ih =>
      obtain ⟨b, hb, hc⟩ := h a List.mem_cons_self
      rw [List.filterMap_cons_some hb, List.map_cons, List.sum_cons, hc,
        ih fun a' ha' => h a' (List.mem_cons_of_mem a ha'), List.length_cons]
      push_cast
      ring

/-- The records that a transaction created, as they are stored after it. -/
def createdBy (k : Keeper V) (s : State V) (tx : Tx) : List RECRecord :=
  match handleTx k s tx with
  | .ok (s', r) => r.response.issued.filterMap fun id =>
      (s'.store.get (recRecordKey id)).bind fun bz => (k.cdc.unmarshalRecord bz).toOption
  | .error _ => []

/-- The energy that a record attributes to its contributors. -/
def recordEnergy (k : Keeper V) (record : RECRecord) : ℚ :=
  (record.contributors.map fun c => energyOf k (k.cdc.text c.energyKwh)).sum

/-- The energy attributed by the records that a transaction created. -/
def copiedBy (k : Keeper V) (s : State V) (tx : Tx) : ℚ :=
  ((createdBy k s tx).map (recordEnergy k)).sum

/-- The energy attributed by all records created in a run. -/
def copied (k : Keeper V) (s : State V) (txs : List Tx) : ℚ :=
  (trace (deliver k) (copiedBy k) s txs).sum

/-- The contributors that a record lists hold the energy of the accounts. -/
theorem Accounts.sum_contributors {reported t : Int} (h : Accounts k reported t store)
    (hle : reported ≤ 2 ^ 53) :
    ((contributors k store).map fun c => energyOf k (k.cdc.text c.energyKwh)).sum =
      addressEnergy k store := by
  rw [contributors, List.map_map, addressEnergy, SortedMap.sum]
  congr 1
  refine List.map_congr_left fun e he => ?_
  obtain ⟨key, v⟩ := e
  obtain ⟨hkey, hget⟩ := SortedMap.mem_select.1 he
  obtain ⟨z, hz0, hz, rfl⟩ := h.shares key v hkey hget
  have hread := k.cdc.float_roundTrip z (by omega)
  simp [energyOf, hread]

/-- Each record that a message creates copies all accounts. -/
theorem Accounts.copiedBy_eq {reported t : Int} (h : Accounts k reported t s.store)
    (hle : reported ≤ 2 ^ 53) : copiedBy k s tx = tx.requested * addressEnergy k s.store := by
  have hlength := issuedBy_eq_requested k s tx
  unfold issuedBy at hlength
  unfold copiedBy createdBy
  cases hres : handleTx k s tx with
  | error fault =>
      rw [hres] at hlength
      rw [← hlength]
      simp
  | ok p =>
      obtain ⟨s', r⟩ := p
      rw [hres] at hlength
      obtain ⟨ctx, msg⟩ := tx
      cases msg with
      | send msg =>
          obtain ⟨bank, -, -, rfl⟩ := handleTx_send hres
          simp [Result.empty, Response.issued, Tx.requested]
      | reward msg =>
          cases msg with
          | createRECRecord msg =>
              obtain ⟨-, hstore, hresponse, -⟩ := handle_createRECRecord hres
              have hrecord : ∀ id ∈ issuedIDs ctx msg.count, ∃ record,
                  ((s'.store.get (recRecordKey id)).bind fun bz =>
                    (k.cdc.unmarshalRecord bz).toOption) = some record ∧
                  recordEnergy k record = addressEnergy k s.store := by
                intro id hid
                obtain ⟨record, -, -, hcontributors, hget⟩ :=
                  exists_record_of_mem_issued (k := k) s.store hid
                refine ⟨record, ?_, ?_⟩
                · rw [hstore, createRECRecord, hget, Option.bind_some, k.cdc.record_roundTrip]
                  rfl
                · rw [recordEnergy, hcontributors, h.sum_contributors hle]
              simp only [hresponse, Response.issued] at hlength ⊢
              rw [← hlength]
              exact sum_map_filterMap_const _ hrecord
          | _ =>
              have hnil : r.response.issued = [] := List.length_eq_zero_iff.1 hlength
              simp only [hnil]
              simp [Tx.requested]

/-- Whether the accounts have been copied into a record since the last append. -/
def recordCopied (copied : Bool) (tx : Tx) : Bool :=
  if tx.msg.appendTxHash?.isSome then false else copied || decide (0 < tx.requested)

/-- An issue asks for one record, of accounts that no record has copied. -/
def copiesOnce (copied : Bool) (tx : Tx) : Prop :=
  0 < tx.requested → tx.requested = 1 ∧ copied = false

instance (copied : Bool) (tx : Tx) : Decidable (copiesOnce copied tx) :=
  inferInstanceAs (Decidable (_ → _))

theorem Accounts.addressEnergy_nonneg {reported t : Int} (h : Accounts k reported t store)
    (hle : reported ≤ 2 ^ 53) : 0 ≤ addressEnergy k store := by
  rw [addressEnergy, SortedMap.sum]
  refine List.sum_nonneg fun q hq => ?_
  obtain ⟨⟨key, v⟩, he, rfl⟩ := List.mem_map.1 hq
  obtain ⟨hkey, hget⟩ := SortedMap.mem_select.1 he
  obtain ⟨z, hz0, hz, rfl⟩ := h.shares key v hkey hget
  have hread := k.cdc.float_roundTrip z (by omega)
  simpa [energyOf, hread] using hz0

theorem copied_concat (s : State V) (txs : List Tx) (tx : Tx) :
    copied k s (txs ++ [tx]) = copied k s txs + copiedBy k (run (deliver k) s txs) tx := by
  simp [copied]

theorem Tx.requested_of_append (h : tx.msg.appendTxHash?.isSome = true) : tx.requested = 0 := by
  obtain ⟨msg, hmsg⟩ := Option.isSome_iff_exists.1 h
  rw [Tx.requested, TxMsg.appendTxHash?_eq_some.1 hmsg]

theorem Tx.requested_of_report (h : tx.isReport = true) : tx.requested = 0 := by
  obtain ⟨msg, hmsg, -⟩ := Tx.isReport_iff.1 h
  rw [Tx.requested, hmsg]

/-- The energy of the accounts that no record has attributed yet. -/
def unattributed (k : Keeper V) (copied : Bool) (store : Store V) : ℚ :=
  if copied then 0 else addressEnergy k store

/-- An issue attributes what was not attributed, and a report adds to it. -/
theorem Accounts.unattributed_deliver {reported t : Int} {flag : Bool}
    (h : Accounts k reported t s.store) (hw : 0 ≤ tx.wattHours)
    (hle : reported + tx.wattHours ≤ 2 ^ 53) (honce : copiesOnce flag tx) :
    copiedBy k s tx + unattributed k (recordCopied flag tx) (deliver k s tx).store ≤
      unattributed k flag s.store + tx.wattHours := by
  have hnonneg := h.addressEnergy_nonneg (by omega)
  have hw' : (0 : ℚ) ≤ tx.wattHours := by exact_mod_cast hw
  rw [h.copiedBy_eq (by omega)]
  rcases h.deliver_cases hw hle with
    ⟨hreport, happend, -, henergy⟩ | ⟨happend, hzero, -, henergy⟩ | ⟨happend, hzero, -, henergy⟩
  · have hreq := Tx.requested_of_report hreport
    have hflag : recordCopied flag tx = flag := by simp [recordCopied, happend, hreq]
    rw [hreq, hflag, unattributed, unattributed, henergy, Nat.cast_zero, zero_mul, zero_add]
    cases flag with
    | true => simpa using hw
    | false => exact le_rfl
  · have hflag : recordCopied flag tx = false := by simp [recordCopied, happend]
    rw [Tx.requested_of_append happend, hflag, unattributed, unattributed, henergy, hzero]
    cases flag with
    | true => simp
    | false => simpa using hnonneg
  · rw [hzero]
    by_cases hreq : 0 < tx.requested
    · -- the one record takes over the energy of the accounts
      obtain ⟨hone, rfl⟩ := honce hreq
      have hflag : recordCopied false tx = true := by simp [recordCopied, happend, hone]
      rw [hone, hflag]
      simp [unattributed]
    · have hnone : tx.requested = 0 := by omega
      have hflag : recordCopied flag tx = flag := by simp [recordCopied, happend, hnone]
      rw [hnone, hflag, unattributed, unattributed, henergy]
      simp

/-- In a run whose reports are not negative, and in which every issue asks for one record and an
append comes between two issues, the records attribute no more energy than was reported. -/
theorem copied_le_reported (k : Keeper V) (bank : BankState) (txs : List Tx)
    (hrange : ReportsInRange txs) (honce : Along recordCopied copiesOnce false txs) :
    copied k (genesis bank) txs ≤ ((txs.map Tx.wattHours).sum : Int) := by
  have hinv : copied k (genesis bank) txs + unattributed k (run recordCopied false txs)
      (run (deliver k) (genesis bank) txs).store ≤ ((txs.map Tx.wattHours).sum : Int) := by
    induction txs using List.reverseRecOn with
    | nil => exact (add_zero (0 : ℚ)).le
    | append_singleton txs tx ih =>
        have hpre := hrange.of_prefix (List.prefix_append txs [tx])
        obtain ⟨honce', htx⟩ := (along_concat _ _ _ _ _).1 honce
        specialize ih hpre honce'
        obtain ⟨t, hacc⟩ := exists_accounts_of_run k bank hpre
        have hsum := hrange.sum_lt
        rw [wattHours_concat] at hsum ⊢
        have hstep := hacc.unattributed_deliver (hrange.nonneg tx (by simp)) hsum.le htx
        rw [copied_concat, run_concat, run_concat, Int.cast_add]
        linarith
  obtain ⟨t, hacc⟩ := exists_accounts_of_run k bank hrange
  have hnonneg := hacc.addressEnergy_nonneg hrange.sum_lt.le
  unfold unattributed at hinv
  split at hinv
  · linarith
  · linarith

end

/-! ## Runs of the small chain -/

/-- One REC is reported, issued and appended; then energy for the next one comes in. -/
def appendAtFullRec : List Tx :=
  [energyTx alice (bytes "1000000"), issueTx 1 1, appendTx (bytes "rec-1-0") [],
    energyTx mallory (bytes "500000"), issueTx 2 1]

theorem attributed_appendAtFullRec :
    Attributed smallKeeper (run (deliver smallKeeper) (genesis emptyBank) appendAtFullRec).store := by
  refine (attributed_iff_remainderSpent smallKeeper emptyBank appendAtFullRec ⟨?_, ?_⟩).2 ?_
    appendAtFullRec (List.prefix_refl appendAtFullRec)
  · decide +kernel
  · decide +kernel
  · decide +kernel

/-- 400 watt-hours are reported for alice and an append follows: they still count towards the next
REC, but belong to nobody. -/
theorem append_orphans_remainder :
    storedEnergy smallKeeper totalEnergyKey (run (deliver smallKeeper) (genesis emptyBank)
        [energyTx alice (bytes "400"), appendTx (bytes "a") []]).store = .fin 400 ∧
      addressEnergy smallKeeper (run (deliver smallKeeper) (genesis emptyBank)
        [energyTx alice (bytes "400"), appendTx (bytes "a") []]).store = 0 := by
  refine ⟨?_, ?_⟩
  · decide +kernel
  · decide +kernel

theorem copied_le_reported_appendAtFullRec :
    copied smallKeeper (genesis emptyBank) appendAtFullRec ≤ 1500000 := by
  have hsum : (appendAtFullRec.map Tx.wattHours).sum = 1500000 := by decide +kernel
  have h := copied_le_reported smallKeeper emptyBank appendAtFullRec
    ⟨by decide +kernel, by decide +kernel⟩ (by decide +kernel)
  rw [hsum] at h
  exact_mod_cast h

/-- One million watt-hours are reported and two records issued: each attributes all of it. -/
theorem two_records_copy_twice :
    ([energyTx alice (bytes "1000000"), issueTx 1 2].map Tx.wattHours).sum = 1000000 ∧
      copied smallKeeper (genesis emptyBank) [energyTx alice (bytes "1000000"), issueTx 1 2] =
        2000000 := by
  refine ⟨?_, ?_⟩
  · decide +kernel
  · decide +kernel

end EnergyChain.Reward
