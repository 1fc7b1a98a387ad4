import EnergyChain.Reward.Attribution

/-!
# Who a record names

`AddEnergy` keeps the account of an address under `EnergyByAddress//` and the address, with two slashes.
`CreateRECRecord` and the event of `AddEnergy` list the accounts as contributors and recover the address
by cutting off `EnergyByAddress/`, with one. So every contributor is listed once and with the energy it
reported, but with a slash in front of its name (`contributors_perm`), and the lists name the real
contributors exactly if there are none (`namesContributors_iff`).
-/

set_option autoImplicit false

namespace EnergyChain.Reward

open EnergyChain.Go
open EnergyChain.Sdk
open EnergyChain.Bank

/-! ## The contributors of a run -/

/-- The address that an energy report is for. -/
def Tx.reportee (tx : Tx) : Option GoString :=
  if tx.isReport then tx.msg.addEnergy?.map MsgAddEnergy.toAddr else none

/-- The distinct addresses of the reports of a run. -/
def reportees (txs : List Tx) : List GoString := (txs.filterMap Tx.reportee).dedup

/-- The energy reported for an address. -/
def reportedFor (addr : GoString) (txs : List Tx) : Int := (txs.map (Tx.wattHoursFor addr)).sum

/-- One contributor per address, called as `name` says, with the energy reported for it. -/
def contributorsOf (name : GoString → GoString) (txs : List Tx) : List Contributor :=
  (reportees txs).map fun addr => ⟨name addr, (Float64.fin (reportedFor addr txs)).format⟩

theorem Tx.reportee_of_report {tx : Tx} {msg : MsgAddEnergy} (hreport : tx.isReport = true)
    (hmsg : tx.msg = .reward (.addEnergy msg)) : tx.reportee = some msg.toAddr := by
  rw [Tx.reportee, hreport, hmsg]
  rfl

theorem Tx.wattHoursFor_eq_zero {tx : Tx} {addr : GoString} (h : tx.reportee ≠ some addr) :
    tx.wattHoursFor addr = 0 := by
  unfold Tx.wattHoursFor
  split
  · rename_i msg hmsg
    split
    · rename_i haddr
      cases hreport : tx.isReport with
      | false => exact Tx.wattHours_of_not_report hreport
      | true =>
          refine absurd ?_ h
          rw [Tx.reportee_of_report hreport (TxMsg.addEnergy?_eq_some.1 hmsg), haddr]
    · rfl
  · rfl

theorem reportedFor_concat (addr : GoString) (txs : List Tx) (tx : Tx) :
    reportedFor addr (txs ++ [tx]) = reportedFor addr txs + tx.wattHoursFor addr := by
  simp [reportedFor]

theorem reportedFor_eq_zero {addr : GoString} {txs : List Tx}
    (h : addr ∉ txs.filterMap Tx.reportee) : reportedFor addr txs = 0 := by
  apply List.sum_eq_zero
  intro w hw
  obtain ⟨tx, htx, rfl⟩ := List.mem_map.1 hw
  apply Tx.wattHoursFor_eq_zero
  intro hreportee
  exact h (List.mem_filterMap.2 ⟨tx, htx, hreportee⟩)

/-- What is reported for one address is part of what is reported. -/
theorem ReportsInRange.reportedFor_mem_range {txs : List Tx} (h : ReportsInRange txs)
    (addr : GoString) : 0 ≤ reportedFor addr txs ∧ reportedFor addr txs < 2 ^ 53 := by
  have hrange : ∀ tx ∈ txs, 0 ≤ tx.wattHoursFor addr ∧ tx.wattHoursFor addr ≤ tx.wattHours :=
    fun tx htx => tx.wattHoursFor_mem_range (h.nonneg tx htx) addr
  constructor
  · apply List.sum_nonneg
    intro w hw
    obtain ⟨tx, htx, rfl⟩ := List.mem_map.1 hw
    exact (hrange tx htx).1
  · refine lt_of_le_of_lt ?_ h.sum_lt
    exact List.sum_le_sum fun tx htx => (hrange tx htx).2

/-- The names tell the two ways of listing apart as soon as there is a contributor. -/
theorem reportees_eq_nil_of_perm {txs : List Tx}
    (h : (contributorsOf (bytes "/" ++ ·) txs).Perm (contributorsOf id txs)) : reportees txs = [] := by
  -- each name is one byte longer in the first list, so the lengths add up only if there is none
  have hnames := (h.map fun c => c.address.length).sum_eq
  simp only [contributorsOf, List.map_map] at hnames
  have hlonger : ∀ l : List GoString, (l.map ((fun c : Contributor => c.address.length) ∘
      fun addr => ⟨bytes "/" ++ addr, (Float64.fin (reportedFor addr txs)).format⟩)).sum =
        (l.map ((fun c : Contributor => c.address.length) ∘
          fun addr => ⟨id addr, (Float64.fin (reportedFor addr txs)).format⟩)).sum + l.length := by
    intro l
    induction l with
    | nil => rfl
    | cons addr l ih =>
        have hslash : (bytes "/" ++ addr).length = addr.length + 1 := by
          rw [List.length_append, Nat.add_comm]
          rfl
        simp only [List.map_cons, List.sum_cons, List.length_cons, Function.comp_apply, hslash, id] at ih ⊢
        omega
  rw [hlonger] at hnames
  exact List.length_eq_zero_iff.1 (by omega)

section

variable {V : Type} {k : Keeper V} {s s₀ : State V} {tx : Tx} {txs : List Tx} {store : Store V}

/-! ## The accounts behind the lists -/

/-- The accounts are those of the reports of the run. -/
structure SharesOf (k : Keeper V) (txs : List Tx) (store : Store V) : Prop where
  share : ∀ addr, store.get (energyByAddressKey addr) =
    if addr ∈ txs.filterMap Tx.reportee then
      some (k.cdc.text (Float64.fin (reportedFor addr txs)).format)
    else none
  keyed : ∀ key v, inFamily .energyByAddress key = true → store.get key = some v →
    ∃ addr, key = energyByAddressKey addr

theorem sharesOf_nil (h : store.select (inFamily .energyByAddress) = []) : SharesOf k [] store := by
  have hnone : ∀ key v, inFamily .energyByAddress key = true → store.get key ≠ some v := by
    intro key v hkey hget
    have hmem := SortedMap.mem_select.2 ⟨hkey, hget⟩
    rw [h] at hmem
    cases hmem
  constructor
  · intro addr
    cases hget : store.get (energyByAddressKey addr) with
    | none => rfl
    | some v => exact absurd hget (hnone _ v (inFamily_energyByAddressKey addr))
  · intro key v hkey hget
    exact absurd hget (hnone key v hkey)

theorem SharesOf.storedEnergy_eq (h : SharesOf k txs store) (hrange : ReportsInRange txs)
    (addr : GoString) :
    storedEnergy k (energyByAddressKey addr) store = .fin (reportedFor addr txs) := by
  obtain ⟨hnonneg, hlt⟩ := hrange.reportedFor_mem_range addr
  have hget := h.share addr
  split at hget
  · exact storedEnergy_of_get (by omega) hget
  · rename_i hmem
    rw [storedEnergy, hget, reportedFor_eq_zero hmem, Int.cast_zero]

/-- A report adds to the account of its address. -/
theorem SharesOf.report (h : SharesOf k txs s.store) (hrange : ReportsInRange (txs ++ [tx]))
    (hreport : tx.isReport = true) : SharesOf k (txs ++ [tx]) (deliver k s tx).store := by
  have hprefix := hrange.of_prefix (List.prefix_append txs [tx])
  have hnonneg := hrange.nonneg tx (by simp)
  have hlt : tx.wattHours < 2 ^ 53 := by
    have hsum := hrange.sum_lt
    have hrest : 0 ≤ (txs.map Tx.wattHours).sum := by
      apply List.sum_nonneg
      intro w hw
      obtain ⟨tx', htx', rfl⟩ := List.mem_map.1 hw
      exact hprefix.nonneg tx' htx'
    rw [wattHours_concat] at hsum
    omega
  obtain ⟨msg, hmsg, hamount⟩ := Tx.isReport_iff.1 hreport
  obtain ⟨hstore, -⟩ := deliver_report (k := k) hmsg hamount (isInt64_iff.2 ⟨by omega, by omega⟩) s
  rw [hstore, Float64.ofInt_eq_fin (by omega)]
  have hreportee := Tx.reportee_of_report hreport hmsg
  constructor
  · intro addr
    by_cases haddr : addr = msg.toAddr
    · subst haddr
      have hsum := reportedFor_concat msg.toAddr txs tx
      have hfor : tx.wattHoursFor msg.toAddr = tx.wattHours := by
        simp [Tx.wattHoursFor, hmsg, TxMsg.addEnergy?]
      rw [hfor] at hsum
      have hbound := hrange.reportedFor_mem_range msg.toAddr
      rw [get_addEnergy_address, h.storedEnergy_eq hprefix, Float64.fin_add_fin (by omega), ← hsum,
        if_pos (by simp [hreportee])]
    · have hkey : energyByAddressKey addr ≠ energyByAddressKey msg.toAddr :=
        fun e => haddr (energyByAddressKey_injective e)
      have hother : tx.wattHoursFor addr = 0 := by
        apply Tx.wattHoursFor_eq_zero
        rw [hreportee]
        simpa using Ne.symm haddr
      rw [get_addEnergy_of_ne _ _ _ (inFamily_energyByAddressKey addr) hkey, h.share addr,
        reportedFor_concat, hother, add_zero]
      simp [hreportee, haddr]
  · intro key v hkey hget
    by_cases hnew : key = energyByAddressKey msg.toAddr
    · exact ⟨msg.toAddr, hnew⟩
    · rw [get_addEnergy_of_ne _ _ _ hkey hnew] at hget
      exact h.keyed key v hkey hget

/-- Any other message but an append leaves the accounts alone. -/
theorem SharesOf.other (h : SharesOf k txs s.store) (happend : tx.msg.appendTxHash? = none)
    (hreport : tx.isReport = false) : SharesOf k (txs ++ [tx]) (deliver k s tx).store := by
  obtain ⟨fs, hframe, -, hshares, -, -, -⟩ :=
    exists_changesOnly_of_not_report (k := k) (s := s) happend hreport
  have hreportee : tx.reportee = none := by
    rw [Tx.reportee, hreport]
    rfl
  constructor
  · intro addr
    have hzero : tx.wattHoursFor addr = 0 := Tx.wattHoursFor_eq_zero (by simp [hreportee])
    rw [hframe.get_eq hshares (inFamily_energyByAddressKey addr), h.share addr, reportedFor_concat,
      hzero, add_zero]
    simp [hreportee]
  · intro key v hkey hget
    rw [hframe.get_eq hshares hkey] at hget
    exact h.keyed key v hkey hget

/-- The accounts along a run that starts after a reset. -/
theorem sharesOf_run (hreset : s₀.store.select (inFamily .energyByAddress) = [])
    (hrange : ReportsInRange txs) (happend : ∀ tx ∈ txs, tx.msg.appendTxHash? = none) :
    SharesOf k txs (run (deliver k) s₀ txs).store := by
  induction txs using List.reverseRecOn with
  | nil => exact sharesOf_nil hreset
  | append_singleton txs tx ih =>
      have hprefix := hrange.of_prefix (List.prefix_append txs [tx])
      have h := ih hprefix fun tx' htx' => happend tx' (List.mem_append_left _ htx')
      rw [run_concat]
      cases hreport : tx.isReport with
      | true => exact h.report hrange hreport
      | false => exact h.other (happend tx (by simp)) hreport

/-! ## The lists -/

/-- Cutting off the prefix leaves the second slash. -/
theorem drop_energyByAddressKey (addr : GoString) :
    (energyByAddressKey addr).drop Family.energyByAddress.root.length = bytes "/" ++ addr := by
  rw [energyByAddressKey, List.append_assoc, List.drop_left]

theorem SharesOf.mem_contributors_iff (h : SharesOf k txs store) (hrange : ReportsInRange txs)
    {c : Contributor} :
    c ∈ contributors k store ↔ c ∈ contributorsOf (bytes "/" ++ ·) txs := by
  have hread : ∀ addr, k.cdc.unmarshalFloat (k.cdc.text (Float64.fin (reportedFor addr txs)).format) =
      some (.fin (reportedFor addr txs)) := by
    intro addr
    have hbound := hrange.reportedFor_mem_range addr
    exact k.cdc.float_roundTrip _ (by omega)
  simp only [contributors, contributorsOf, reportees, List.mem_map, List.mem_dedup, Prod.exists]
  constructor
  · rintro ⟨key, v, hmem, rfl⟩
    obtain ⟨hkey, hget⟩ := SortedMap.mem_select.1 hmem
    obtain ⟨addr, rfl⟩ := h.keyed key v hkey hget
    have hshare := h.share addr
    rw [hget] at hshare
    split at hshare
    · rename_i haddr
      refine ⟨addr, haddr, ?_⟩
      rw [drop_energyByAddressKey, Option.some_inj.1 hshare, hread, Option.getD_some]
    · cases hshare
  · rintro ⟨addr, haddr, rfl⟩
    have hshare := h.share addr
    rw [if_pos haddr] at hshare
    refine ⟨_, _, SortedMap.mem_select.2 ⟨inFamily_energyByAddressKey addr, hshare⟩, ?_⟩
    rw [drop_energyByAddressKey, hread, Option.getD_some]

theorem SharesOf.nodup_contributors (h : SharesOf k txs store) : (contributors k store).Nodup := by
  have hnames : ((contributors k store).map Contributor.address).Nodup := by
    have hmap : (contributors k store).map Contributor.address =
        ((store.select (inFamily .energyByAddress)).map Prod.fst).map
          (List.drop Family.energyByAddress.root.length) := by
      simp [contributors, Function.comp_def]
    rw [hmap]
    refine List.Nodup.map_on ?_ (SortedMap.select_keys_nodup _ store)
    intro key hkey key' hkey' heq
    obtain ⟨⟨_, v⟩, hmem, rfl⟩ := List.mem_map.1 hkey
    obtain ⟨⟨_, v'⟩, hmem', rfl⟩ := List.mem_map.1 hkey'
    obtain ⟨hfam, hget⟩ := SortedMap.mem_select.1 hmem
    obtain ⟨hfam', hget'⟩ := SortedMap.mem_select.1 hmem'
    obtain ⟨addr, rfl⟩ := h.keyed _ v hfam hget
    obtain ⟨addr', rfl⟩ := h.keyed _ v' hfam' hget'
    rw [drop_energyByAddressKey, drop_energyByAddressKey] at heq
    rw [List.append_cancel_left heq]
  exact hnames.of_map _

/-- The list holds each address that was reported for, once, with its energy and with a slash in
front. -/
theorem SharesOf.contributors_perm (h : SharesOf k txs store) (hrange : ReportsInRange txs) :
    (contributors k store).Perm (contributorsOf (bytes "/" ++ ·) txs) := by
  refine (List.perm_ext_iff_of_nodup h.nodup_contributors ?_).2 fun c => h.mem_contributors_iff hrange
  refine List.Nodup.map ?_ (List.nodup_dedup _)
  intro addr addr' heq
  exact List.append_cancel_left (congrArg Contributor.address heq)

/-- The records issued after the run, and the events of its reports, list each address that was
reported for, once, under its own name and with the energy reported for it. -/
structure NamesContributors (k : Keeper V) (s₀ : State V) (txs : List Tx) : Prop where
  recorded : ∀ ctx msg s' r,
    handle k ctx (run (deliver k) s₀ txs) (.createRECRecord msg) = .ok (s', r) →
      ∀ i < msg.count.toNat, ∃ rec : RECRecord,
        s'.store.get (recRecordKey (recID ctx i)) = some (k.cdc.marshalRecord rec) ∧
        rec.contributors.Perm (contributorsOf id txs)
  emitted : ∀ pre ctx msg s' r, pre ++ [⟨ctx, .reward (.addEnergy msg)⟩] <+: txs →
    handle k ctx (run (deliver k) s₀ pre) (.addEnergy msg) = .ok (s', r) →
      ∃ e ∈ r.events, (bytes "contributors", k.cdc.contributorsJson (contributors k s'.store)) ∈
          e.attributes ∧
        (contributors k s'.store).Perm
          (contributorsOf id (pre ++ [⟨ctx, .reward (.addEnergy msg)⟩]))

/-- Every issue of records copies the list of the store before it. -/
theorem exists_issued_record {ctx : Context} {msg : MsgCreateRECRecord} {s' : State V} {r : Result}
    (h : handle k ctx s (.createRECRecord msg) = .ok (s', r)) {i : Nat} (hi : i < msg.count.toNat) :
    ∃ rec : RECRecord, s'.store.get (recRecordKey (recID ctx i)) = some (k.cdc.marshalRecord rec) ∧
      rec.contributors = contributors k s.store := by
  obtain ⟨-, hstore, -, -⟩ := handle_createRECRecord h
  have hmem : recID ctx i ∈ (List.range msg.count.toNat).map (recID ctx) :=
    List.mem_map_of_mem (List.mem_range.2 hi)
  obtain ⟨rec, -, -, hcontributors, hget⟩ := exists_record_of_mem_issued (k := k) s.store hmem
  refine ⟨rec, ?_, hcontributors⟩
  rw [hstore]
  exact hget

/-- After a reset the lists name the real contributors exactly if nothing was reported. -/
theorem namesContributors_iff (k : Keeper V) (s₀ : State V)
    (hreset : s₀.store.select (inFamily .energyByAddress) = []) (txs : List Tx)
    (hrange : ReportsInRange txs) (happend : ∀ tx ∈ txs, tx.msg.appendTxHash? = none) :
    NamesContributors k s₀ txs ↔ ∀ tx ∈ txs, tx.isReport = false := by
  have hshares := sharesOf_run (k := k) hreset hrange happend
  have hperm := hshares.contributors_perm hrange
  constructor
  · intro h
    -- one record is issued, and its list is the one with the slashes
    obtain ⟨s', r, hok⟩ : ∃ s' r, handle k ⟨0, [], fun _ _ => 0, fun _ => true⟩
        (run (deliver k) s₀ txs) (.createRECRecord ⟨[], 1⟩) = .ok (s', r) := ⟨_, _, rfl⟩
    obtain ⟨rec, hget, hnamed⟩ := h.recorded _ _ s' r hok 0 Nat.one_pos
    obtain ⟨rec', hget', hcontributors⟩ := exists_issued_record hok (i := 0) Nat.one_pos
    have hrec : rec = rec' := by
      rw [hget, Option.some_inj] at hget'
      have hdecode := congrArg k.cdc.unmarshalRecord hget'
      rw [k.cdc.record_roundTrip, k.cdc.record_roundTrip] at hdecode
      exact Except.ok.inj hdecode
    rw [hrec, hcontributors] at hnamed
    have hnone := reportees_eq_nil_of_perm (hperm.symm.trans hnamed)
    intro tx htx
    cases hreport : tx.isReport with
    | false => rfl
    | true =>
        obtain ⟨msg, hmsg, -⟩ := Tx.isReport_iff.1 hreport
        have hmem : msg.toAddr ∈ reportees txs := List.mem_dedup.2
          (List.mem_filterMap.2 ⟨tx, htx, Tx.reportee_of_report hreport hmsg⟩)
        rw [hnone] at hmem
        cases hmem
  · intro hnone
    have hreportees : reportees txs = [] := by
      have hfilter : txs.filterMap Tx.reportee = [] := by
        apply List.filterMap_eq_nil_iff.2
        intro tx htx
        rw [Tx.reportee, hnone tx htx]
        rfl
      rw [reportees, hfilter]
      rfl
    constructor
    · intro ctx msg s' r hok i hi
      obtain ⟨rec, hget, hcontributors⟩ := exists_issued_record hok hi
      refine ⟨rec, hget, ?_⟩
      rw [hcontributors]
      simpa [contributorsOf, hreportees] using hperm
    · intro pre ctx msg s' r hpre hok
      -- a report that succeeds states a number
      obtain ⟨wh, recs, hwh, -⟩ := handle_addEnergy hok
      have hmem : ⟨ctx, .reward (.addEnergy msg)⟩ ∈ txs := hpre.subset (by simp)
      have hreport := hnone _ hmem
      simp [Tx.isReport, TxMsg.addEnergy?, hwh] at hreport

end

/-! ## Contributors of the small chain -/

/-- A record issued after one report of alice names nobody that reported. -/
theorem record_names_slash_alice :
    ReportsInRange [energyTx alice (bytes "5")] ∧
      (handle smallKeeper (smallCtx 2) (run (deliver smallKeeper) (genesis emptyBank)
          [energyTx alice (bytes "5")]) (.createRECRecord ⟨alice, 1⟩)).isOk = true ∧
      contributorsOf id [energyTx alice (bytes "5")] = [⟨alice, bytes "5.000000"⟩] ∧
      contributors smallKeeper (run (deliver smallKeeper) (genesis emptyBank)
          [energyTx alice (bytes "5")]).store = [⟨bytes "/" ++ alice, bytes "5.000000"⟩] ∧
      ¬ NamesContributors smallKeeper (genesis emptyBank) [energyTx alice (bytes "5")] := by
  have hrange : ReportsInRange [energyTx alice (bytes "5")] :=
    ⟨by decide +kernel, by decide +kernel⟩
  have hlist : contributors smallKeeper (run (deliver smallKeeper) (genesis emptyBank)
      [energyTx alice (bytes "5")]).store = [⟨bytes "/" ++ alice, bytes "5.000000"⟩] := by
    decide +kernel
  have hnames : contributorsOf id [energyTx alice (bytes "5")] = [⟨alice, bytes "5.000000"⟩] := by
    decide +kernel
  refine ⟨hrange, by decide +kernel, hnames, hlist, ?_⟩
  intro h
  obtain ⟨s', r, hok⟩ : ∃ s' r, handle smallKeeper (smallCtx 2) (run (deliver smallKeeper)
      (genesis emptyBank) [energyTx alice (bytes "5")]) (.createRECRecord ⟨alice, 1⟩) = .ok (s', r) :=
    ⟨_, _, rfl⟩
  obtain ⟨rec, hget, hnamed⟩ := h.recorded _ _ s' r hok 0 Nat.one_pos
  obtain ⟨rec', hget', hcontributors⟩ := exists_issued_record hok (i := 0) Nat.one_pos
  rw [hget] at hget'
  cases hget'
  rw [hcontributors, hlist, hnames] at hnamed
  have hslash := List.singleton_perm_singleton.1 hnamed
  revert hslash
  decide

/-- A deposit, a mint and a report: the report alone spoils the lists. -/
theorem namesContributors_iff_oneReport :
    NamesContributors smallKeeper (genesis emptyBank) depositThenMint ∧
      ¬ NamesContributors smallKeeper (genesis emptyBank)
        (depositThenMint ++ [energyTx alice (bytes "5")]) := by
  constructor
  · refine (namesContributors_iff smallKeeper (genesis emptyBank) rfl depositThenMint
      ⟨by decide +kernel, by decide +kernel⟩ (by decide)).2 ?_
    decide
  · intro h
    have hnone := (namesContributors_iff smallKeeper (genesis emptyBank) rfl
      (depositThenMint ++ [energyTx alice (bytes "5")]) ⟨by decide +kernel, by decide +kernel⟩
      (by decide)).1 h
    have hreport : (energyTx alice (bytes "5")).isReport = true := by decide +kernel
    rw [hnone _ (by simp)] at hreport
    cases hreport

end EnergyChain.Reward
