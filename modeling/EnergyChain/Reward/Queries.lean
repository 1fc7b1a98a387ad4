import EnergyChain.Reward.Decoding

/-!
# The queries

The query server of `x/reward` reads the store: the collateral as a decimal text, the supply, the list
of all RECs, and the list of transaction nodes (`txNodeList`). The REC list stops at the first value
that does not decode; where all values decode it has one entry per key (`unmarshalAll_eq_ok`).
-/

set_option autoImplicit false

namespace EnergyChain.Reward

open EnergyChain.Go
open EnergyChain.Sdk
open EnergyChain.Bank

section

variable {V : Type}

/-- The loop of `GetAllRECRecords` and `GetAllRECMetas`: decode the values an iterator passes and
return the first error. -/
def unmarshalAll {α : Type} (unmarshal : V → Except GoString α) :
    List (GoString × V) → Outcome (List α)
  | [] => .ok []
  | (_, value) :: rest =>
      match unmarshal value with
      | .error err => fail err
      | .ok a => do
          let list ← unmarshalAll unmarshal rest
          return a :: list

/-- `GetAllRECRecords`. -/
def getAllRECRecords (k : Keeper V) (store : Store V) : Outcome (List RECRecord) :=
  unmarshalAll k.cdc.unmarshalRecord (store.select (inFamily .recRecord))

/-- `GetAllRECMetas`. -/
def getAllRECMetas (k : Keeper V) (store : Store V) : Outcome (List RECMeta) :=
  unmarshalAll k.cdc.unmarshalMeta (store.select (inFamily .recMeta))

/-- The `Collateral` query. -/
def collateralQuery (store : Store V) : GoString := formatInt (getTotalCollateral store)

/-- The `Supply` query. -/
def supplyQuery (k : Keeper V) (store : Store V) : Outcome Supply := getSupply k store

/-- The `RECList` query. -/
def recList (k : Keeper V) (store : Store V) : Outcome (List RECRecord × List RECMeta) := do
  let recRecords ← getAllRECRecords k store
  let recMetas ← getAllRECMetas k store
  return (recRecords, recMetas)

/-- The `TxNodeList` query ends with this result. -/
def TxNodeListReturns (k : Keeper V) (store : Store V) (result : Except GoString (List TxNodeTx)) :
    Prop :=
  ∃ fuel, txNodeList k fuel store = some result

variable {k : Keeper V} {store : Store V}

theorem unmarshalAll_cons_eq_ok {α : Type} {unmarshal : V → Except GoString α}
    {entry : GoString × V} {rest : List (GoString × V)} {list : List α} :
    unmarshalAll unmarshal (entry :: rest) = .ok list ↔
      ∃ a tail, unmarshal entry.2 = .ok a ∧ unmarshalAll unmarshal rest = .ok tail ∧
        list = a :: tail := by
  obtain ⟨key, value⟩ := entry
  rw [unmarshalAll]
  cases hvalue : unmarshal value with
  | error err => simp
  | ok a =>
      simp only [bind_eq_ok, pure_eq_ok, Except.ok.injEq]
      constructor
      · rintro ⟨tail, htail, rfl⟩
        exact ⟨a, tail, rfl, htail, rfl⟩
      · rintro ⟨_, tail, rfl, htail, rfl⟩
        exact ⟨tail, htail, rfl⟩

/-- The loop returns one value per entry, in order. -/
theorem unmarshalAll_eq_ok {α : Type} {unmarshal : V → Except GoString α}
    {entries : List (GoString × V)} {list : List α} :
    unmarshalAll unmarshal entries = .ok list ↔
      List.Forall₂ (fun entry a => unmarshal entry.2 = .ok a) entries list := by
  induction entries generalizing list with
  | nil => simp [unmarshalAll, eq_comm]
  | cons entry rest ih =>
      rw [unmarshalAll_cons_eq_ok, List.forall₂_cons_left_iff]
      constructor
      · rintro ⟨a, tail, ha, htail, rfl⟩
        exact ⟨a, tail, ha, ih.1 htail, rfl⟩
      · rintro ⟨a, tail, ha, htail, rfl⟩
        exact ⟨a, tail, ha, ih.2 htail, rfl⟩

/-- The loop returns nothing exactly if it passes nothing. -/
theorem unmarshalAll_eq_nil_iff {α : Type} {unmarshal : V → Except GoString α}
    {entries : List (GoString × V)} : unmarshalAll unmarshal entries = .ok [] ↔ entries = [] := by
  rw [unmarshalAll_eq_ok, List.forall₂_nil_right_iff]

theorem getAllRECRecords_eq_nil_iff :
    getAllRECRecords k store = .ok [] ↔ countKeys .recRecord store = 0 := by
  rw [getAllRECRecords, unmarshalAll_eq_nil_iff]
  exact List.length_eq_zero_iff.symm

theorem getAllRECMetas_eq_nil_iff :
    getAllRECMetas k store = .ok [] ↔ countKeys .recMeta store = 0 := by
  rw [getAllRECMetas, unmarshalAll_eq_nil_iff]
  exact List.length_eq_zero_iff.symm

theorem contributors_eq_nil_iff :
    contributors k store = [] ↔ countKeys .energyByAddress store = 0 := by
  rw [contributors, List.map_eq_nil_iff]
  exact List.length_eq_zero_iff.symm

/-- The node list is empty exactly if there is no head, or the head names no stored node. -/
theorem txNodeListReturns_nil_iff :
    TxNodeListReturns k store (.ok []) ↔
      ∀ id, headOf k store = some id → id = [] ∨ store.get (txNodeKey id) = none := by
  constructor
  · rintro ⟨fuel, hlist⟩ id hid
    obtain ⟨head, hhead, rfl⟩ := Option.map_eq_some_iff.1 hid
    by_contra hstored
    obtain ⟨hempty, hget⟩ := not_or.1 hstored
    obtain ⟨bz, hbz⟩ := Option.ne_none_iff_exists'.1 hget
    -- the loop enters its body and returns an error or a list that starts with the head
    cases fuel with
    | zero => simp [txNodeList, txNodeVisits, hhead, txNodeWalk] at hlist
    | succ fuel =>
        simp only [txNodeList, txNodeVisits, hhead, txNodeWalk, if_neg hempty, hbz] at hlist
        cases hnode : k.cdc.unmarshalNode bz with
        | error err => simp [hnode, Except.map] at hlist
        | ok node =>
            simp only [hnode, Option.map_map, Option.map_eq_some_iff, Function.comp_apply] at hlist
            obtain ⟨visits, -, hnil⟩ := hlist
            cases visits with
            | error err => cases hnil
            | ok visits => simp [Except.map] at hnil
  · intro h
    cases hhead : store.get txListHeadKey with
    | none => exact ⟨0, by simp [txNodeList, txNodeVisits, hhead, Except.map]⟩
    | some head =>
        have hid : headOf k store = some (k.cdc.toText head) := by rw [headOf, hhead, Option.map_some]
        refine ⟨1, ?_⟩
        rcases h _ hid with hempty | hget
        · simp [txNodeList, txNodeVisits, hhead, txNodeWalk, hempty, Except.map]
        · simp [txNodeList, txNodeVisits, hhead, txNodeWalk, hget, Except.map]

/-- More fuel does not change a result. -/
theorem txNodeWalk_succ {fuel : Nat} {cur : GoString}
    {r : Except GoString (List (GoString × TxNodeTx))}
    (h : txNodeWalk k store fuel cur = some r) : txNodeWalk k store (fuel + 1) cur = some r := by
  induction fuel generalizing cur r with
  | zero => cases h
  | succ fuel ih =>
      rw [txNodeWalk] at h ⊢
      split
      · rename_i hcur
        rwa [if_pos hcur] at h
      · rename_i hcur
        rw [if_neg hcur] at h
        cases hget : store.get (txNodeKey cur) with
        | none => simpa [hget] using h
        | some bz =>
            cases hnode : k.cdc.unmarshalNode bz with
            | error err => simpa [hget, hnode] using h
            | ok node =>
                simp only [hget, hnode] at h ⊢
                obtain ⟨visits, hvisits, hr⟩ := Option.map_eq_some_iff.1 h
                rw [ih hvisits, Option.map_some, hr]

theorem txNodeWalk_mono {fuel fuel' : Nat} (hle : fuel ≤ fuel') {cur : GoString}
    {r : Except GoString (List (GoString × TxNodeTx))}
    (h : txNodeWalk k store fuel cur = some r) : txNodeWalk k store fuel' cur = some r := by
  induction hle with
  | refl => exact h
  | step _ ih => exact txNodeWalk_succ ih

theorem txNodeList_mono {fuel fuel' : Nat} (hle : fuel ≤ fuel')
    {r : Except GoString (List TxNodeTx)} (h : txNodeList k fuel store = some r) :
    txNodeList k fuel' store = some r := by
  rw [txNodeList] at h ⊢
  obtain ⟨visits, hvisits, hr⟩ := Option.map_eq_some_iff.1 h
  have hmore : txNodeVisits k fuel' store = some visits := by
    rw [txNodeVisits] at hvisits ⊢
    cases hhead : store.get txListHeadKey with
    | none => simpa [hhead] using hvisits
    | some head =>
        rw [hhead] at hvisits
        exact txNodeWalk_mono hle hvisits
  rw [hmore, Option.map_some, hr]

/-- The query has at most one result. -/
theorem TxNodeListReturns.unique {r r' : Except GoString (List TxNodeTx)}
    (h : TxNodeListReturns k store r) (h' : TxNodeListReturns k store r') : r = r' := by
  obtain ⟨fuel, hfuel⟩ := h
  obtain ⟨fuel', hfuel'⟩ := h'
  have hr := txNodeList_mono (le_max_left fuel fuel') hfuel
  have hr' := txNodeList_mono (le_max_right fuel fuel') hfuel'
  exact Option.some_inj.1 (hr.symm.trans hr')

end

end EnergyChain.Reward
