import EnergyChain.Go.Rounding
import EnergyChain.Lib.Meter
import EnergyChain.Reward.Issuance

/-!
# The energy accounts

`AddEnergy` keeps two kinds of accounts as printed numbers: `total_energy`, a meter that pays out one
REC for each million watt-hours, and one account for each address. On whole numbers up to `2 ^ 53`
the floating-point arithmetic is exact, and a report moves the accounts as the meter says
(`addEnergy_total`, `get_addEnergy_address`). Over a run of reports the store keeps the meter of
`EnergyChain.Lib.Meter` (`run_reports`).

A report may be negative, and the meter then pays nothing and is left below zero. No energy is lost
exactly as long as no report takes it there (`conserved_iff_keepsNonneg`). The order of reports does
not matter while all sums are exact (`reports_perm`).
-/

set_option autoImplicit false

namespace EnergyChain.Reward

open EnergyChain.Go
open EnergyChain.Sdk
open EnergyChain.Bank

/-- The watt-hours that an energy report states; zero for any other transaction, and for a report
whose amount is not a number. -/
def Tx.wattHours (tx : Tx) : Int :=
  (tx.msg.addEnergy?.bind fun msg => newIntFromString msg.amount).getD 0

/-- The transaction is an energy report whose amount is a number. -/
def Tx.isReport (tx : Tx) : Bool :=
  (tx.msg.addEnergy?.bind fun msg => newIntFromString msg.amount).isSome

theorem Tx.isReport_iff {tx : Tx} : tx.isReport = true ↔
    ∃ msg, tx.msg = .reward (.addEnergy msg) ∧ newIntFromString msg.amount = some tx.wattHours := by
  rw [Tx.isReport, Option.isSome_iff_exists]
  constructor
  · rintro ⟨w, hw⟩
    obtain ⟨msg, hmsg, hamount⟩ := Option.bind_eq_some_iff.1 hw
    refine ⟨msg, TxMsg.addEnergy?_eq_some.1 hmsg, ?_⟩
    rw [Tx.wattHours, hw]
    exact hamount
  · rintro ⟨msg, hmsg, hamount⟩
    exact ⟨_, Option.bind_eq_some_iff.2 ⟨msg, TxMsg.addEnergy?_eq_some.2 hmsg, hamount⟩⟩

/-- The watt-hours that an energy report states for an address. -/
def Tx.wattHoursFor (addr : GoString) (tx : Tx) : Int :=
  match tx.msg.addEnergy? with
  | some msg => if msg.toAddr = addr then tx.wattHours else 0
  | none => 0

theorem Tx.wattHoursFor_mem_range (tx : Tx) (h : 0 ≤ tx.wattHours) (addr : GoString) :
    0 ≤ tx.wattHoursFor addr ∧ tx.wattHoursFor addr ≤ tx.wattHours := by
  unfold Tx.wattHoursFor
  split
  · split
    · exact ⟨h, le_rfl⟩
    · exact ⟨le_rfl, h⟩
  · exact ⟨le_rfl, h⟩

/-- The finite value of a number; infinities and NaN count as zero. -/
def value : Float64 → ℚ
  | .fin q => q
  | _ => 0

@[simp]
theorem value_fin (q : ℚ) : value (.fin q) = q := rfl

section

variable {V : Type} {k : Keeper V} {s : State V} {tx : Tx} {store : Store V}

/-! ## One report -/

/-- The number under a key after an integer was printed there. -/
theorem storedEnergy_of_get {key : GoString} {z : Int} (hz : z.natAbs ≤ 2 ^ 53)
    (hget : store.get key = some (k.cdc.text (Float64.fin z).format)) :
    storedEnergy k key store = .fin z := by
  rw [storedEnergy, hget]
  simp [k.cdc.float_roundTrip z hz]

/-- What `AddEnergy` stores under `total_energy` and what it returns. -/
theorem get_addEnergy_total (creator : GoString) (w : Float64) (txHash : GoString)
    (store : Store V) {total : Float64} (htotal : (storedEnergy k totalEnergyKey store).add w = total)
    {recs : Int} (hrecs : (total.divConst 1000000).toInt64 = recs) :
    (addEnergy k creator w txHash store).2 = recs ∧
      (addEnergy k creator w txHash store).1.get totalEnergyKey =
        some (k.cdc.text
          (if 0 < recs then total.sub (.ofInt (wrap64 (recs * 1000000))) else total).format) := by
  have htx : totalEnergyKey ≠ energyTxKey := by decide
  have haddr : totalEnergyKey ≠ energyByAddressKey creator :=
    (ne_root_of_inFamily (f := .totalEnergy) (inFamily_energyByAddressKey creator)
      (by decide)).symm
  simp only [addEnergy, htotal, hrecs]
  -- with RECs to return the remainder is written over the sum at the end
  split
  · exact ⟨rfl, SortedMap.get_set_self _ _ _⟩
  · refine ⟨rfl, ?_⟩
    rw [SortedMap.get_set_of_ne _ _ htx, SortedMap.get_set_of_ne _ _ haddr, SortedMap.get_set_self]

/-- A report that leaves the meter at or above zero. -/
theorem addEnergy_total {t w : Int} (creator txHash : GoString)
    (ht : storedEnergy k totalEnergyKey store = .fin t) (h0 : 0 ≤ t + w) (hle : t + w ≤ 2 ^ 53) :
    (addEnergy k creator (.fin w) txHash store).2 = Meter.paid 1000000 t w ∧
      storedEnergy k totalEnergyKey (addEnergy k creator (.fin w) txHash store).1 =
        .fin (Meter.accrue 1000000 t w) := by
  have hsum : (storedEnergy k totalEnergyKey store).add (.fin w) = .fin (t + w : Int) := by
    rw [ht, Float64.fin_add_fin (by omega)]
  have hquo := Float64.toInt64_divConst_million h0 hle
  obtain ⟨hrecs, hget⟩ := get_addEnergy_total creator (.fin w) txHash store hsum hquo
  refine ⟨hrecs, storedEnergy_of_get ?_ ?_⟩
  · rw [Meter.accrue]
    omega
  · rw [hget, Meter.accrue]
    split
    · -- the full units fit an `int64` and are subtracted exactly
      have hwrap : wrap64 ((t + w) / 1000000 * 1000000) = (t + w) / 1000000 * 1000000 :=
        wrap64_of_isInt64 (isInt64_iff.2 ⟨by omega, by omega⟩)
      have hrest : t + w - (t + w) / 1000000 * 1000000 = (t + w) % 1000000 := by omega
      rw [hwrap, Float64.ofInt_eq_fin (by omega), Float64.fin_sub_fin (by omega), hrest]
    · have hrest : t + w = (t + w) % 1000000 := by omega
      rw [← hrest]

/-- A report that takes the meter below zero: nothing is paid, and the meter stays there. -/
theorem addEnergy_total_of_neg {t w : Int} (creator txHash : GoString)
    (ht : storedEnergy k totalEnergyKey store = .fin t) (hneg : t + w < 0)
    (hle : (t + w).natAbs ≤ 2 ^ 53) :
    storedEnergy k totalEnergyKey (addEnergy k creator (.fin w) txHash store).1 =
      .fin (t + w : Int) := by
  have hsum : (storedEnergy k totalEnergyKey store).add (.fin w) = .fin (t + w : Int) := by
    rw [ht, Float64.fin_add_fin hle]
  obtain ⟨-, hget⟩ := get_addEnergy_total creator (.fin w) txHash store hsum rfl
  have hrecs := Float64.toInt64_divConst_million_nonpos hneg hle
  rw [if_neg (not_lt.2 hrecs)] at hget
  exact storedEnergy_of_get hle hget

/-- The account of the address takes the amount. -/
theorem get_addEnergy_address (creator : GoString) (w : Float64) (txHash : GoString)
    (store : Store V) :
    (addEnergy k creator w txHash store).1.get (energyByAddressKey creator) =
      some (k.cdc.text ((storedEnergy k (energyByAddressKey creator) store).add w).format) := by
  have hfamily := inFamily_energyByAddressKey creator
  have htotal : energyByAddressKey creator ≠ totalEnergyKey :=
    ne_root_of_inFamily hfamily (by decide)
  have htx : energyByAddressKey creator ≠ energyTxKey := ne_root_of_inFamily hfamily (by decide)
  -- the total is written before the account is read
  have hread : ∀ v, storedEnergy k (energyByAddressKey creator) (store.set totalEnergyKey v) =
      storedEnergy k (energyByAddressKey creator) store := by
    intro v
    rw [storedEnergy, storedEnergy, SortedMap.get_set_of_ne _ _ htotal]
  simp only [addEnergy, hread]
  split
  · rw [SortedMap.get_set_of_ne _ _ htotal, SortedMap.get_set_of_ne _ _ htx, SortedMap.get_set_self]
  · rw [SortedMap.get_set_of_ne _ _ htx, SortedMap.get_set_self]

/-- The other accounts keep what they hold. -/
theorem get_addEnergy_of_ne {creator : GoString} (w : Float64) (txHash : GoString)
    (store : Store V) {key : GoString} (hkey : inFamily .energyByAddress key = true)
    (hne : key ≠ energyByAddressKey creator) :
    (addEnergy k creator w txHash store).1.get key = store.get key := by
  have htotal : key ≠ totalEnergyKey := ne_root_of_inFamily hkey (by decide)
  have htx : key ≠ energyTxKey := ne_root_of_inFamily hkey (by decide)
  simp only [addEnergy]
  split
  · rw [SortedMap.get_set_of_ne _ _ htotal, SortedMap.get_set_of_ne _ _ htx,
      SortedMap.get_set_of_ne _ _ hne, SortedMap.get_set_of_ne _ _ htotal]
  · rw [SortedMap.get_set_of_ne _ _ htx, SortedMap.get_set_of_ne _ _ hne,
      SortedMap.get_set_of_ne _ _ htotal]

/-- A report whose amount is an `int64` succeeds. -/
theorem deliver_report {msg : MsgAddEnergy} {w : Int} (hmsg : tx.msg = .reward (.addEnergy msg))
    (hw : newIntFromString msg.amount = some w) (h64 : isInt64 w = true) (s : State V) :
    (deliver k s tx).store = (addEnergy k msg.toAddr (.ofInt w) msg.txHash s.store).1 ∧
      earnedBy k s tx = (addEnergy k msg.toAddr (.ofInt w) msg.txHash s.store).2 := by
  obtain ⟨ctx, _⟩ := tx
  subst hmsg
  have hamount : orFail (.error (bytes "invalid amount: " ++ msg.amount))
      (newIntFromString msg.amount) = .ok w := orFail_eq_ok.2 hw
  have hint : int64 w = .ok w := int64_eq_ok.2 ⟨h64, rfl⟩
  obtain ⟨r, hres, hresponse⟩ : ∃ r, handleTx k s ⟨ctx, .reward (.addEnergy msg)⟩ =
      .ok ({ s with store := (addEnergy k msg.toAddr (.ofInt w) msg.txHash s.store).1 }, r) ∧
      r.response = .addEnergy (addEnergy k msg.toAddr (.ofInt w) msg.txHash s.store).2 := by
    simp only [handleTx, handle, handleAddEnergy, hamount, hint, ok_bind]
    exact ⟨_, rfl, rfl⟩
  refine ⟨?_, ?_⟩
  · rw [deliver, hres, commit_ok]
  · simp only [earnedBy, hres, hresponse, Response.earned]

/-! ## Reports as a meter -/

/-- A report moves `total_energy` as the meter says. -/
theorem deliver_report_total {t : Int} (hreport : tx.isReport = true)
    (ht : storedEnergy k totalEnergyKey s.store = .fin t) (hw : tx.wattHours.natAbs ≤ 2 ^ 53)
    (h0 : 0 ≤ t + tx.wattHours) (hle : t + tx.wattHours ≤ 2 ^ 53) :
    earnedBy k s tx = Meter.paid 1000000 t tx.wattHours ∧
      storedEnergy k totalEnergyKey (deliver k s tx).store =
        .fin (Meter.accrue 1000000 t tx.wattHours) := by
  obtain ⟨msg, hmsg, hamount⟩ := Tx.isReport_iff.1 hreport
  obtain ⟨hstore, hearned⟩ :=
    deliver_report hmsg hamount (isInt64_iff.2 ⟨by omega, by omega⟩) s
  rw [hstore, hearned, Float64.ofInt_eq_fin hw]
  exact addEnergy_total msg.toAddr msg.txHash ht h0 hle

/-- A report moves the account of its address. -/
theorem deliver_report_address {e : Int} (addr : GoString) (hreport : tx.isReport = true)
    (hw : tx.wattHours.natAbs ≤ 2 ^ 53)
    (he : storedEnergy k (energyByAddressKey addr) s.store = .fin e)
    (hle : (e + tx.wattHours).natAbs ≤ 2 ^ 53) :
    storedEnergy k (energyByAddressKey addr) (deliver k s tx).store =
      .fin (e + tx.wattHoursFor addr : Int) := by
  obtain ⟨msg, hmsg, hamount⟩ := Tx.isReport_iff.1 hreport
  obtain ⟨hstore, -⟩ := deliver_report hmsg hamount (isInt64_iff.2 ⟨by omega, by omega⟩) s
  rw [hstore, Float64.ofInt_eq_fin hw]
  have hfor : tx.wattHoursFor addr = if msg.toAddr = addr then tx.wattHours else 0 := by
    simp [Tx.wattHoursFor, hmsg, TxMsg.addEnergy?]
  by_cases haddr : msg.toAddr = addr
  · subst haddr
    rw [hfor, if_pos rfl]
    refine storedEnergy_of_get hle ?_
    rw [get_addEnergy_address, he, Float64.fin_add_fin hle]
  · have hkey : energyByAddressKey addr ≠ energyByAddressKey msg.toAddr :=
      fun h => haddr (energyByAddressKey_injective h).symm
    rw [hfor, if_neg haddr, add_zero, storedEnergy,
      get_addEnergy_of_ne _ _ _ (inFamily_energyByAddressKey addr) hkey]
    exact he

/-- Over a run of reports `total_energy` is the remainder of the meter, the RECs returned are the
tokens it pays, and every account takes the amounts reported for its address. -/
theorem run_reports (txs : List Tx) {t : Int}
    (hreports : ∀ tx ∈ txs, tx.isReport = true ∧ 0 ≤ tx.wattHours)
    (ht : storedEnergy k totalEnergyKey s.store = .fin t) (h0 : 0 ≤ t)
    (hle : t + (txs.map Tx.wattHours).sum ≤ 2 ^ 53) :
    storedEnergy k totalEnergyKey (run (deliver k) s txs).store =
        .fin (run (Meter.accrue 1000000) t (txs.map Tx.wattHours) : Int) ∧
      earned k s txs =
        (trace (Meter.accrue 1000000) (Meter.paid 1000000) t (txs.map Tx.wattHours)).sum ∧
      ∀ addr (e : Int), storedEnergy k (energyByAddressKey addr) s.store = .fin e →
        -2 ^ 53 ≤ e → e + (txs.map Tx.wattHours).sum ≤ 2 ^ 53 →
        storedEnergy k (energyByAddressKey addr) (run (deliver k) s txs).store =
          .fin (e + (txs.map (Tx.wattHoursFor addr)).sum : Int) := by
  -- the meter and the accounts move together; all sums stay below the exact integers
  induction txs generalizing s t with
  | nil =>
      refine ⟨ht, rfl, fun addr e he _ _ => ?_⟩
      rw [run_nil, he, List.map_nil, List.sum_nil, add_zero]
  | cons tx txs ih =>
      obtain ⟨hreport, hw0⟩ := hreports tx List.mem_cons_self
      have hrest : ∀ tx ∈ txs, tx.isReport = true ∧ 0 ≤ tx.wattHours :=
        fun tx' htx' => hreports tx' (List.mem_cons_of_mem tx htx')
      have hrest0 : 0 ≤ (txs.map Tx.wattHours).sum := by
        refine List.sum_nonneg fun w hw => ?_
        obtain ⟨tx', htx', rfl⟩ := List.mem_map.1 hw
        exact (hrest tx' htx').2
      rw [List.map_cons, List.sum_cons] at hle ⊢
      have hw : tx.wattHours.natAbs ≤ 2 ^ 53 := by omega
      obtain ⟨hearned, htotal⟩ := deliver_report_total hreport ht hw (by omega) (by omega)
      have hnext : 0 ≤ Meter.accrue 1000000 t tx.wattHours ∧
          Meter.accrue 1000000 t tx.wattHours ≤ t + tx.wattHours := by
        rw [Meter.accrue]
        omega
      obtain ⟨ih₁, ih₂, ih₃⟩ := ih hrest htotal hnext.1 (by omega)
      refine ⟨ih₁, ?_, fun addr e he hlo hhi => ?_⟩
      · rw [earned, trace_cons, List.sum_cons, ← earned, ih₂, hearned, trace_cons, List.sum_cons]
      · have hmove := deliver_report_address addr hreport hw he (by omega)
        have hfor : 0 ≤ tx.wattHoursFor addr ∧ tx.wattHoursFor addr ≤ tx.wattHours :=
          tx.wattHoursFor_mem_range hw0 addr
        rw [run_cons, ih₃ addr _ hmove (by omega) (by omega), List.map_cons, List.sum_cons, add_assoc]

/-! ## No energy is lost -/

/-- The report leaves the meter at or above zero. -/
def keepsNonneg (k : Keeper V) (s : State V) (tx : Tx) : Prop :=
  0 ≤ value (storedEnergy k totalEnergyKey s.store) + tx.wattHours

instance (s : State V) (tx : Tx) : Decidable (keepsNonneg k s tx) :=
  inferInstanceAs (Decidable (_ ≤ _))

/-- The energy reported is in the RECs returned and in `total_energy`. -/
structure Conserved (k : Keeper V) (s : State V) (txs : List Tx) (t : Int) : Prop where
  stored : storedEnergy k totalEnergyKey (run (deliver k) s txs).store = .fin t
  nonneg : 0 ≤ t
  lt_unit : t < 1000000
  recs_nonneg : ∀ recs ∈ trace (deliver k) (earnedBy k) s txs, 0 ≤ recs
  sum : 1000000 * earned k s txs + t = (txs.map Tx.wattHours).sum

theorem conserved_nil (k : Keeper V) (bank : BankState) :
    Conserved k (genesis bank) [] 0 where
  stored := rfl
  nonneg := le_rfl
  lt_unit := by norm_num
  recs_nonneg := by simp
  sum := rfl

theorem earned_concat (s : State V) (txs : List Tx) (tx : Tx) :
    earned k s (txs ++ [tx]) = earned k s txs + earnedBy k (run (deliver k) s txs) tx := by
  simp [earned]

theorem wattHours_concat (txs : List Tx) (tx : Tx) :
    ((txs ++ [tx]).map Tx.wattHours).sum = (txs.map Tx.wattHours).sum + tx.wattHours := by
  simp

/-- A report conserves the energy exactly if it leaves the meter at or above zero. -/
theorem Conserved.concat_iff {txs : List Tx} {t : Int} (h : Conserved k s txs t)
    (hreport : tx.isReport = true) (hw : tx.wattHours.natAbs < 2 ^ 53)
    (hsum : (((txs ++ [tx]).map Tx.wattHours).sum).natAbs < 2 ^ 53) :
    (∃ t', Conserved k s (txs ++ [tx]) t') ↔ keepsNonneg k (run (deliver k) s txs) tx := by
  have hcond : keepsNonneg k (run (deliver k) s txs) tx ↔ 0 ≤ t + tx.wattHours := by
    rw [keepsNonneg, h.stored, value_fin]
    exact_mod_cast Iff.rfl
  have hearned : 0 ≤ earned k s txs := List.sum_nonneg h.recs_nonneg
  have hbalance := h.sum
  have hrange := h.lt_unit
  have hnonneg := h.nonneg
  rw [wattHours_concat] at hsum
  rw [hcond]
  constructor
  · -- below zero the meter is stored as it is, which is not in its range
    rintro ⟨t', h'⟩
    by_contra hneg
    obtain ⟨msg, hmsg, hamount⟩ := Tx.isReport_iff.1 hreport
    obtain ⟨hstore, -⟩ := deliver_report (k := k) hmsg hamount
      (isInt64_iff.2 ⟨by omega, by omega⟩) (run (deliver k) s txs)
    have hstored := h'.stored
    rw [run_concat, hstore, Float64.ofInt_eq_fin hw.le,
      addEnergy_total_of_neg _ _ h.stored (not_le.1 hneg) (by omega)] at hstored
    have ht' : t + tx.wattHours = t' := by exact_mod_cast Float64.fin.inj hstored
    have := h'.nonneg
    omega
  · intro h0
    obtain ⟨hpaid, htotal⟩ := deliver_report_total hreport h.stored hw.le h0 (by omega)
    have hsplit := Meter.unit_mul_paid_add_accrue 1000000 t tx.wattHours
    obtain ⟨hlo, hhi⟩ :=
      Meter.accrue_mem_range (by norm_num : (0 : Int) < 1000000) t tx.wattHours
    refine ⟨Meter.accrue 1000000 t tx.wattHours, ?_, hlo, hhi, ?_, ?_⟩
    · rw [run_concat, htotal]
    · intro recs hrecs
      rw [trace_concat, List.mem_append, List.mem_singleton] at hrecs
      rcases hrecs with hrecs | rfl
      · exact h.recs_nonneg recs hrecs
      · rw [hpaid, Meter.paid]
        omega
    · rw [earned_concat, wattHours_concat, hpaid]
      linarith

/-- All along a run of reports the RECs returned are not negative, `total_energy` is less than one
REC, and together they hold the energy reported, exactly if no report takes `total_energy` below
zero. -/
theorem conserved_iff_keepsNonneg (k : Keeper V) (bank : BankState) (txs : List Tx)
    (hreports : ∀ tx ∈ txs, tx.isReport = true ∧ tx.wattHours.natAbs < 2 ^ 53)
    (hsums : ∀ pre, pre <+: txs → ((pre.map Tx.wattHours).sum).natAbs < 2 ^ 53) :
    (∀ pre, pre <+: txs → ∃ t, Conserved k (genesis bank) pre t) ↔
      Along (deliver k) (keepsNonneg k) (genesis bank) txs := by
  apply forall_prefix_history_iff_along (P := fun pre => ∃ t, Conserved k (genesis bank) pre t)
  · exact ⟨0, conserved_nil k bank⟩
  · rintro pre tx hpre ⟨t, h⟩
    obtain ⟨hreport, hw⟩ := hreports tx (hpre.subset (by simp))
    exact h.concat_iff hreport hw (hsums _ hpre)

/-! ## The order of reports -/

/-- While all sums are exact, the accounts after a run of reports and the number of RECs returned do
not depend on the order of the reports. -/
theorem reports_perm (k : Keeper V) (s : State V) {txs txs' : List Tx} (hperm : txs.Perm txs')
    (hreports : ∀ tx ∈ txs, tx.isReport = true ∧ 0 ≤ tx.wattHours) {t : Int}
    (ht : storedEnergy k totalEnergyKey s.store = .fin t) (h0 : 0 ≤ t) (hlt : t < 1000000)
    (hle : t + (txs.map Tx.wattHours).sum ≤ 2 ^ 53)
    (haddr : ∀ addr, ∃ e : Int, storedEnergy k (energyByAddressKey addr) s.store = .fin e ∧
      -2 ^ 53 ≤ e ∧ e + (txs.map Tx.wattHours).sum ≤ 2 ^ 53) :
    storedEnergy k totalEnergyKey (run (deliver k) s txs).store =
        storedEnergy k totalEnergyKey (run (deliver k) s txs').store ∧
      (∀ addr, storedEnergy k (energyByAddressKey addr) (run (deliver k) s txs).store =
        storedEnergy k (energyByAddressKey addr) (run (deliver k) s txs').store) ∧
      earned k s txs = earned k s txs' := by
  have hsum : (txs'.map Tx.wattHours).sum = (txs.map Tx.wattHours).sum :=
    (hperm.map Tx.wattHours).sum_eq.symm
  have hreports' : ∀ tx ∈ txs', tx.isReport = true ∧ 0 ≤ tx.wattHours :=
    fun tx htx => hreports tx (hperm.mem_iff.2 htx)
  obtain ⟨htotal, hearned, hshare⟩ := run_reports txs hreports ht h0 hle
  obtain ⟨htotal', hearned', hshare'⟩ := run_reports txs' hreports' ht h0 (by rw [hsum]; exact hle)
  refine ⟨?_, fun addr => ?_, ?_⟩
  · rw [htotal, htotal', Meter.run_accrue h0 hlt, Meter.run_accrue h0 hlt, hsum]
  · obtain ⟨e, he, hlo, hhi⟩ := haddr addr
    rw [hshare addr e he hlo hhi, hshare' addr e he hlo (by rw [hsum]; exact hhi),
      (hperm.map (Tx.wattHoursFor addr)).sum_eq]
  · rw [hearned, hearned', Meter.sum_paid h0 hlt, Meter.sum_paid h0 hlt, hsum]

end

/-! ## Reports on the small chain -/

/-- A report of alice for an address. -/
def energyTx (addr amount : GoString) : Tx :=
  smallTx 1 (.addEnergy ⟨alice, addr, amount, bytes "h"⟩)

/-- Two reports and a correction that is smaller than what they left. -/
def correctedReports : List Tx :=
  [energyTx alice (bytes "700000"), energyTx mallory (bytes "600000"),
    energyTx alice (bytes "-100000")]

theorem conserved_correctedReports :
    ∃ t, Conserved smallKeeper (genesis emptyBank) correctedReports t := by
  refine (conserved_iff_keepsNonneg smallKeeper emptyBank correctedReports ?_ ?_).2 ?_
    correctedReports (List.prefix_refl correctedReports)
  · decide +kernel
  · intro pre hpre
    have hall : ∀ pre ∈ correctedReports.inits, ((pre.map Tx.wattHours).sum).natAbs < 2 ^ 53 := by
      decide +kernel
    exact hall pre ((List.mem_inits pre correctedReports).2 hpre)
  · decide +kernel

/-- A negative report passes its checks, returns a negative number of RECs, and is still counted in
`total_energy`. -/
theorem negative_report_paid_twice :
    (energyTx alice (bytes "-2000000")).msg.passesBasic smallBech32 = true ∧
      earned smallKeeper (genesis emptyBank) [energyTx alice (bytes "-2000000")] = -2 ∧
      storedEnergy smallKeeper totalEnergyKey (run (deliver smallKeeper) (genesis emptyBank)
        [energyTx alice (bytes "-2000000")]).store = .fin (-2000000) := by
  refine ⟨?_, ?_, ?_⟩
  · decide +kernel
  · decide +kernel
  · decide +kernel

theorem reports_perm_threeReports :
    storedEnergy smallKeeper totalEnergyKey (run (deliver smallKeeper) (genesis emptyBank)
        [energyTx alice (bytes "700000"), energyTx mallory (bytes "600000"),
          energyTx alice (bytes "800000")]).store =
      storedEnergy smallKeeper totalEnergyKey (run (deliver smallKeeper) (genesis emptyBank)
        [energyTx alice (bytes "800000"), energyTx alice (bytes "700000"),
          energyTx mallory (bytes "600000")]).store := by
  have hperm : [energyTx alice (bytes "700000"), energyTx mallory (bytes "600000"),
      energyTx alice (bytes "800000")].Perm
        [energyTx alice (bytes "800000"), energyTx alice (bytes "700000"),
          energyTx mallory (bytes "600000")] :=
    List.perm_append_singleton _ [energyTx alice (bytes "700000"), energyTx mallory (bytes "600000")]
  refine (reports_perm smallKeeper (genesis emptyBank) hperm ?_ (t := 0) rfl (by decide)
    (by decide) (by decide +kernel) fun addr => ⟨0, rfl, by decide, by decide +kernel⟩).1
  decide +kernel

/-- After a report of 999999 the sum of two further reports is below `2 ^ 53`, but with the larger one
first it is rounded on the way, and one watt-hour is lost. -/
theorem order_matters_above_exact_range :
    ∃ s : State Document, ∃ large small : Tx,
      s = run (deliver smallKeeper) (genesis emptyBank) [energyTx mallory (bytes "999999")] ∧
      large.isReport = true ∧ small.isReport = true ∧
      large.wattHours = 9007199254740990 ∧ small.wattHours = 1 ∧
      storedEnergy smallKeeper totalEnergyKey s.store = .fin 999999 ∧
      storedEnergy smallKeeper totalEnergyKey (run (deliver smallKeeper) s [large, small]).store =
        .fin 740989 ∧
      storedEnergy smallKeeper totalEnergyKey (run (deliver smallKeeper) s [small, large]).store =
        .fin 740990 := by
  refine ⟨_, energyTx alice (bytes "9007199254740990"), energyTx alice (bytes "1"), rfl, ?_⟩
  decide +kernel

end EnergyChain.Reward
