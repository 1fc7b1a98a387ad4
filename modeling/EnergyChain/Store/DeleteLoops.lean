import EnergyChain.Reward.Effects
import EnergyChain.Store.Refinement

/-!
# Deleting under an open iterator

The reward module deletes the current key of a prefix iterator while the iterator is open:
`BurnStableCoin` and `RemoveCollateral` over the REC records and metas up to a limit, and
`resetEnergyStore` over the energies of the addresses. The keeper's model runs these loops on a sorted
map, over the entries that the map had at the start. Here they run on a layer, method by method, and are
shown to visit the same entries and to leave a layer that represents the same map
(`deleteLoop_spec`, `deleteRecs_refines`, `resetEnergyStore_refines`).

Iterators over a range with a start and without an end do not see such a layer as it is: the keys that
were deleted in the range are not entered into the `MemDB`, and the parent's entries come back. Where no key
of the range is unsorted, such iterators are right as well.
-/

set_option autoImplicit false

namespace EnergyChain.CacheKV

open EnergyChain.Go
open EnergyChain.Reward (Family inFamily energyTxKey)

theorem toOption_ok {α : Type} (a : α) : (Except.ok a : Outcome α).toOption = some a := rfl

section Loops

variable {P I : Type} [KVStore P I]

/-- The value of the current entry, if the loop reads it. -/
def readValue (readsValue : Bool) (s : Store P) (it : CacheMergeIterator I) :
    Option (CacheMergeIterator I × Option GoString) :=
  if readsValue then (KVStore.value s it).toOption else some (it, none)

/-- `for ; iter.Valid() && done < limit; iter.Next() { store.Delete(iter.Key()); done++ }`. The loops of
`BurnStableCoin` read the value of the entry first. The visited keys are returned, with the values that
were read. Without fuel, and where a method panics, there is no result. -/
def deleteLoop (readsValue : Bool) (limit : Option Int) :
    Nat → Store P → CacheMergeIterator I → Int →
      Option (Store P × List (GoString × Option GoString) × Int)
  | 0, _, _, _ => none
  | fuel + 1, s, it, done => do
      let (it, valid) ← (KVStore.valid s it).toOption
      if valid && limit.all (fun limit => decide (done < limit)) then do
        let (it, value) ← readValue readsValue s it
        let (it, key) ← (KVStore.key s it).toOption
        let s ← (delete s key).toOption
        let it ← (gasNext s it).toOption
        let (s, visited, done) ← deleteLoop readsValue limit fuel s it (done + 1)
        some (s, (key, value) :: visited, done)
      else some (s, [], done)

/-- Such a loop over the keys of a family. -/
def deleteFamily (readsValue : Bool) (limit : Option Int) (f : Family) (fuel : Nat) (s : Store P)
    (done : Int) : Option (Store P × List (GoString × Option GoString) × Int) := do
  let (s, it) ← (prefixIterator s f.root).toOption
  deleteLoop readsValue limit fuel s it done

/-- The loops of `BurnStableCoin`, which read the values, and of `RemoveCollateral`, which do not. -/
def deleteRecs (readsValue : Bool) (limit : Int) (fuel : Nat) (s : Store P) :
    Option (Store P × List (GoString × Option GoString) × List (GoString × Option GoString) × Int) := do
  let (s, records, done) ← deleteFamily readsValue (some limit) .recRecord fuel s 0
  if done < limit then do
    let (s, metas, done) ← deleteFamily readsValue (some limit) .recMeta fuel s done
    some (s, records, metas, done)
  else some (s, records, [], done)

/-- `resetEnergyStore`, with the keys that its loop visits. -/
def resetEnergyStore (fuel : Nat) (s : Store P) :
    Option (Store P × List (GoString × Option GoString)) := do
  let (s, visited, _) ← deleteFamily false none .energyByAddress fuel s 0
  let s ← (delete s energyTxKey).toOption
  some (s, visited)

/-- The entries that a loop passes. -/
def passed (limit : Option Int) (done : Int) (l : List (GoString × GoString)) :
    List (GoString × GoString) :=
  match limit with
  | none => l
  | some limit => l.take (limit - done).toNat

/-- An entry as a loop has seen it. -/
def seen (readsValue : Bool) (e : GoString × GoString) : GoString × Option GoString :=
  (e.1, if readsValue then some e.2 else none)

variable [Contents P I] {s : Store P} {it : CacheMergeIterator I} {m : SortedMap GoString GoString}

/-- One round of the loop: the current entry is visited, its key is deleted, and the iterator moves on
to the next entry. -/
theorem deleteRound_spec (readsValue : Bool) {e : GoString × GoString}
    {l : List (GoString × GoString)} (h : Represents s m) (hfits : MergeFits s it)
    (hl : mergeRemaining s it = e :: l) (hkey : e.1 ≠ []) :
    ∃ it₁ it₂ s' it₃,
      readValue readsValue s it = some (it₁, (seen readsValue e).2) ∧
      KVStore.key s it₁ = .ok (it₂, e.1) ∧ delete s e.1 = .ok s' ∧ gasNext s' it₂ = .ok it₃ ∧
      Represents s' (m.delete e.1) ∧ MergeFits s' it₃ ∧ mergeRemaining s' it₃ = l := by
  obtain ⟨it₁, hvalue, hfits₁, hremaining₁⟩ : ∃ it₁,
      readValue readsValue s it = some (it₁, (seen readsValue e).2) ∧ MergeFits s it₁ ∧
        mergeRemaining s it₁ = e :: l := by
    cases readsValue with
    | false => exact ⟨it, rfl, hfits, hl⟩
    | true =>
        obtain ⟨it₁, hvalue, hfits₁, hremaining₁⟩ := value_spec hfits hl
        refine ⟨it₁, ?_, hfits₁, hremaining₁⟩
        rw [readValue, if_pos rfl, show KVStore.value s it = .ok (it₁, some e.2) from hvalue]
        rfl
  obtain ⟨it₂, hkey₂, hfits₂, hremaining₂, htouched⟩ := key_touched hfits₁ hremaining₁
  obtain ⟨s', hdelete, hs', -, -⟩ := delete_filed h.coherent hkey
  -- the iterator does not notice that its current key is deleted
  have hremaining' : mergeRemaining s' it₂ = e :: l := by
    rw [hs', mergeRemaining_delete htouched, hremaining₂]
  have hfits' : MergeFits s' it₂ := by
    rw [hs']
    exact ⟨hfits₂.parent, hfits₂.cache⟩
  obtain ⟨it₃, hnext, hfits₃, hremaining₃⟩ := gasNext_spec (s := s') hfits' hremaining'
  exact ⟨it₁, it₂, s', it₃, hvalue, hkey₂, hdelete, hnext, represents_delete h hdelete, hfits₃,
    hremaining₃⟩

/-- The loop visits the entries that its iterator has to visit, up to the limit, and deletes their
keys. -/
theorem deleteLoop_spec (readsValue : Bool) (limit : Option Int) (l : List (GoString × GoString))
    (h : Represents s m) (hfits : MergeFits s it) (hl : mergeRemaining s it = l)
    (hkeys : ∀ e ∈ l, e.1 ≠ []) (done : Int) (fuel : Nat) (hfuel : l.length < fuel) :
    ∃ s', deleteLoop readsValue limit fuel s it done =
        some (s', (passed limit done l).map (seen readsValue), done + (passed limit done l).length) ∧
      Represents s' (m.deleteAll ((passed limit done l).map Prod.fst)) := by
  induction l generalizing s it m done fuel with
  | nil =>
      obtain ⟨n, rfl⟩ := Nat.exists_eq_succ_of_ne_zero (Nat.ne_zero_of_lt hfuel)
      obtain ⟨it₁, hvalid, -, -⟩ := Contents.valid_spec (s := s) hfits
      have hnil : passed limit done [] = [] := by
        unfold passed
        split <;> simp
      rw [show Contents.remaining s it = [] from hl] at hvalid
      refine ⟨s, ?_, ?_⟩
      · simp [deleteLoop, hvalid, hnil, Except.toOption]
      · rw [hnil]
        exact h
  | cons e l ih =>
      obtain ⟨n, rfl⟩ := Nat.exists_eq_succ_of_ne_zero (Nat.ne_zero_of_lt hfuel)
      obtain ⟨it₁, hvalid, hfits₁, hremaining₁⟩ := Contents.valid_spec (s := s) hfits
      rw [show Contents.remaining s it = e :: l from hl] at hvalid hremaining₁
      cases hlimit : limit.all (fun limit => decide (done < limit)) with
      | false =>
          -- the limit is reached
          have hnil : passed limit done (e :: l) = [] := by
            cases limit with
            | none => cases hlimit
            | some limit =>
                have hle : ¬done < limit := by simpa using hlimit
                rw [passed, show (limit - done).toNat = 0 by omega, List.take_zero]
          refine ⟨s, ?_, ?_⟩
          · simp [deleteLoop, hvalid, hlimit, hnil, Except.toOption]
          · rw [hnil]
            exact h
      | true =>
          have hcons : passed limit done (e :: l) = e :: passed limit (done + 1) l := by
            cases limit with
            | none => rfl
            | some limit =>
                have hlt : done < limit := by simpa using hlimit
                rw [passed, passed, show (limit - done).toNat = (limit - (done + 1)).toNat + 1 by omega,
                  List.take_succ_cons]
          obtain ⟨it₂, it₃, s₁, it₄, hvalue, hkey, hdelete, hnext, hrep, hfits₄, hremaining₄⟩ :=
            deleteRound_spec readsValue h hfits₁ hremaining₁ (hkeys e List.mem_cons_self)
          obtain ⟨s', hloop, hrep'⟩ := ih hrep hfits₄ hremaining₄
            (fun e' he' => hkeys e' (List.mem_cons_of_mem e he')) (done + 1) n (by simpa using hfuel)
          refine ⟨s', ?_, ?_⟩
          · simp only [deleteLoop, hvalid, hlimit, hvalue, hkey, hdelete, hnext, hloop, hcons,
              toOption_ok, Option.bind_eq_bind, Option.bind_some, List.isEmpty_cons, Bool.not_false,
              Bool.and_self, if_true, List.map_cons, List.length_cons, Option.some.injEq,
              Prod.mk.injEq, true_and]
            exact ⟨rfl, by omega⟩
          · rw [hcons]
            exact hrep'

/-- Prefix iterators have an end. -/
theorem root_bounds (f : Family) :
    f.root ≠ [] ∧ prefixEndBytes f.root ≠ none ∧ prefixEndBytes f.root ≠ some [] := by
  cases f <;> decide +kernel

/-- A loop over a family visits the entries of the family in the map. -/
theorem deleteFamily_spec (readsValue : Bool) (limit : Option Int) (f : Family) (h : Represents s m)
    (done : Int) (fuel : Nat) (hfuel : (m.select (inFamily f)).length < fuel) :
    ∃ s', deleteFamily readsValue limit f fuel s done =
        some (s', (passed limit done (m.select (inFamily f))).map (seen readsValue),
          done + (passed limit done (m.select (inFamily f))).length) ∧
      Represents s' (m.deleteAll ((passed limit done (m.select (inFamily f))).map Prod.fst)) := by
  obtain ⟨hroot, hend, hend'⟩ := root_bounds f
  obtain ⟨s₁, it, hiterator, hrep, hfits, hremaining⟩ := gasIterator_of_represents h
    (some f.root) (prefixEndBytes f.root) (by simpa using hroot) hend'
  have hselect : m.select (isKeyInDomain (some f.root) (prefixEndBytes f.root)) =
      m.select (inFamily f) := by
    rw [funext (isKeyInDomain_root f.root)]
    rfl
  have hkeys : ∀ e ∈ m.select (inFamily f), e.1 ≠ [] := by
    rintro ⟨k, v⟩ he rfl
    have hprefix := Reward.inFamily_iff.1 (SortedMap.mem_select.1 he).1
    exact hroot (List.prefix_nil.1 hprefix)
  obtain ⟨s', hloop, hrep'⟩ := deleteLoop_spec readsValue limit _ hrep hfits
    ((hremaining (Or.inl (Or.inl hend))).trans hselect) hkeys done fuel hfuel
  refine ⟨s', ?_, hrep'⟩
  have hprefix : prefixIterator s f.root = .ok (s₁, it) := hiterator
  rw [deleteFamily, hprefix]
  exact hloop

/-- The loops over records and metas delete what they delete of a sorted map. -/
theorem deleteRecs_refines (readsValue : Bool) (limit : Int) (h : Represents s m) (fuel : Nat)
    (hfuel : m.entries.length < fuel) :
    ∃ s', deleteRecs readsValue limit fuel s = some (s',
        ((m.select (inFamily .recRecord)).take limit.toNat).map (seen readsValue),
        ((m.select (inFamily .recMeta)).take
          (limit.toNat - (m.select (inFamily .recRecord)).length)).map (seen readsValue),
        (Reward.deleteRecs limit m).2.2.2) ∧
      Represents s' (Reward.deleteRecs limit m).1 := by
  obtain ⟨s₁, hloop₁, hrep₁⟩ := deleteFamily_spec readsValue (some limit) .recRecord h 0 fuel
    ((List.length_filter_le _ _).trans_lt hfuel)
  simp only [passed, sub_zero, zero_add, List.length_take] at hloop₁ hrep₁
  -- the first loop leaves the metas alone
  have hselect := (Reward.changesOnly_deleteAll_take .recRecord limit.toNat m).select_eq
    (g := .recMeta) (by decide)
  obtain ⟨s₂, hloop₂, hrep₂⟩ := deleteFamily_spec readsValue (some limit) .recMeta hrep₁
    ((min limit.toNat (m.select (inFamily .recRecord)).length : Nat) : Int) fuel
    (by rw [hselect]; exact (List.length_filter_le _ _).trans_lt hfuel)
  rw [hselect] at hloop₂ hrep₂
  simp only [passed, List.length_take] at hloop₂ hrep₂
  simp only [deleteRecs, hloop₁, Reward.deleteRecs, Reward.deleteLoop_eq, hselect, sub_zero, zero_add,
    Option.bind_eq_bind, Option.bind_some]
  by_cases hlt : ((min limit.toNat (m.select (inFamily .recRecord)).length : Nat) : Int) < limit
  · have hrest : (limit - ((min limit.toNat (m.select (inFamily .recRecord)).length : Nat) : Int)).toNat =
        limit.toNat - (m.select (inFamily .recRecord)).length := by omega
    rw [hrest] at hloop₂ hrep₂
    rw [if_pos hlt, if_pos hlt, hloop₂, hrest]
    exact ⟨s₂, rfl, hrep₂⟩
  · have hrest : limit.toNat - (m.select (inFamily .recRecord)).length = 0 := by omega
    rw [if_neg hlt, if_neg hlt, hrest]
    exact ⟨s₁, rfl, hrep₁⟩

/-- `resetEnergyStore` deletes what it deletes of a sorted map. -/
theorem resetEnergyStore_refines (h : Represents s m) (fuel : Nat) (hfuel : m.entries.length < fuel) :
    ∃ s', resetEnergyStore fuel s =
        some (s', (m.select (inFamily .energyByAddress)).map (seen false)) ∧
      Represents s' (Reward.resetEnergyStore m) := by
  obtain ⟨s₁, hloop, hrep⟩ := deleteFamily_spec false none .energyByAddress h 0 fuel
    ((List.length_filter_le _ _).trans_lt hfuel)
  have hkey : energyTxKey ≠ [] := (root_bounds .energyTx).1
  obtain ⟨s', hdelete, -, -, -⟩ := delete_filed hrep.coherent hkey
  refine ⟨s', ?_, represents_delete hrep hdelete⟩
  rw [resetEnergyStore, hloop]
  simp [hdelete, toOption_ok, passed]

end Loops

/-! ## The stack of a transaction -/

/-- A transaction layer over a block layer over the committed store. -/
abbrev Stack := Store (Store (SortedMap GoString GoString))

/-- No key of the range is unsorted, in both layers. -/
def Stack.RangeSorted (s : Stack) (start stop : Option GoString) : Prop :=
  NoneUnsorted s start stop ∧ NoneUnsorted s.parent start stop

/-- The stack looks like the map: to `Get`, and to iterators over covered ranges and over ranges whose dirty
keys are sorted already. -/
structure LooksLike (s : Stack) (m : SortedMap GoString GoString) : Prop where
  get : ∀ {k}, k ≠ [] → ∃ s', get s k = .ok (s', m.get k)
  visits : ∀ {start stop}, start ≠ some [] → stop ≠ some [] →
    Covered start stop ∨ s.RangeSorted start stop → ∀ fuel, m.entries.length < fuel → visits s start stop fuel =
      some ((m.select (isKeyInDomain start stop)).map fun e => (e.1, some e.2))

theorem looksLike_of_represents {s : Stack} {m : SortedMap GoString GoString} (h : Represents s m) :
    LooksLike s m where
  get hk := by
    obtain ⟨s', hget, -⟩ := get_of_represents h hk
    exact ⟨s', hget⟩
  visits hstart hstop hrange fuel hfuel :=
    visits_of_represents h hstart hstop (hrange.imp_right fun hsorted => ⟨hsorted.1, hsorted.2, trivial⟩)
      fuel ((List.length_filter_le _ _).trans_lt hfuel)

/-- On every stack that operations on its layers lead to, the deleting loops visit the entries that the
map has at that point, in order and up to the limit, and they leave a stack that looks like the map they
leave. -/
theorem deleteLoops_on_stack (base : SortedMap GoString GoString) (block tx : List Op)
    (s₁ : Store (SortedMap GoString GoString)) (s₂ : Stack) (m : SortedMap GoString GoString)
    (hblock : block.foldlM perform (newStore base) = .ok s₁)
    (htx : tx.foldlM perform (newStore s₁) = .ok s₂) (hm : (block ++ tx).foldl Op.onMap base = m)
    (fuel : Nat) (hfuel : m.entries.length < fuel) :
    (∀ readsValue limit, ∃ s', deleteRecs readsValue limit fuel s₂ = some (s',
        ((m.select (inFamily .recRecord)).take limit.toNat).map (seen readsValue),
        ((m.select (inFamily .recMeta)).take
          (limit.toNat - (m.select (inFamily .recRecord)).length)).map (seen readsValue),
        (Reward.deleteRecs limit m).2.2.2) ∧ LooksLike s' (Reward.deleteRecs limit m).1) ∧
      ∃ s', resetEnergyStore fuel s₂ =
          some (s', (m.select (inFamily .energyByAddress)).map (seen false)) ∧
        LooksLike s' (Reward.resetEnergyStore m) := by
  have hbase : Represents base base := ⟨trivial, fun _ => rfl⟩
  have hrep : Represents s₂ m := by
    rw [← hm, List.foldl_append]
    exact represents_run tx (represents_newStore (represents_run block (represents_newStore hbase)
      hblock)) htx
  constructor
  · intro readsValue limit
    obtain ⟨s', hloop, hrep'⟩ := deleteRecs_refines readsValue limit hrep fuel hfuel
    exact ⟨s', hloop, looksLike_of_represents hrep'⟩
  · obtain ⟨s', hloop, hrep'⟩ := resetEnergyStore_refines hrep fuel hfuel
    exact ⟨s', hloop, looksLike_of_represents hrep'⟩

/-! ## A small stack -/

def recordKey (id : String) : GoString := Reward.recRecordKey (bytes id)

/-- The committed records. -/
def smallBase : SortedMap GoString GoString :=
  (SortedMap.empty.set (recordKey "a") [1]).set (recordKey "c") [3]

/-- In the block a record is added, and the transaction before iterated over the records. -/
def smallBlock : List Op := [.set (recordKey "b") [2], .iterate (some (bytes "rec")) (some (bytes "ret"))]

/-- The transaction has deleted the first record and has overwritten the last. -/
def smallTx : List Op :=
  [.get (recordKey "b"), .delete (recordKey "a"), .set (recordKey "c") [4]]

/-- The map that these operations lead to. -/
def smallMap : SortedMap GoString GoString :=
  (SortedMap.empty.set (recordKey "b") [2]).set (recordKey "c") [4]

theorem deleteLoops_on_stack_smallBase :
    ∃ s₁ s₂ s', smallBlock.foldlM perform (newStore smallBase) = .ok s₁ ∧
      smallTx.foldlM perform (newStore s₁) = .ok s₂ ∧
      deleteRecs true 1 4 s₂ = some (s', [(recordKey "b", some [2])], [], 1) ∧
      LooksLike s' (smallMap.delete (recordKey "b")) := by
  obtain ⟨s₂, hstack⟩ := isOk_iff.1 (show (smallBlock.foldlM perform (newStore smallBase) >>=
    fun s₁ => smallTx.foldlM perform (newStore s₁)).isOk = true by decide +kernel)
  obtain ⟨s₁, hblock, htx⟩ := bind_eq_ok.1 hstack
  have hm : (smallBlock ++ smallTx).foldl Op.onMap smallBase = smallMap :=
    SortedMap.ext_entries (by decide +kernel)
  obtain ⟨hrecs, -⟩ := deleteLoops_on_stack smallBase smallBlock smallTx s₁ s₂ smallMap hblock htx hm 4
    (by decide +kernel)
  obtain ⟨s', hloop, hlooks⟩ := hrecs true 1
  have hrecords : ((smallMap.select (inFamily .recRecord)).take (1 : Int).toNat).map (seen true) =
      [(recordKey "b", some [2])] := by decide +kernel
  have hmetas : ((smallMap.select (inFamily .recMeta)).take
      ((1 : Int).toNat - (smallMap.select (inFamily .recRecord)).length)).map (seen true) = [] := by
    decide +kernel
  have hdone : (Reward.deleteRecs 1 smallMap).2.2.2 = 1 := by decide +kernel
  have hleft : (Reward.deleteRecs 1 smallMap).1 = smallMap.delete (recordKey "b") :=
    SortedMap.ext_entries (by decide +kernel)
  rw [hrecords, hmetas, hdone] at hloop
  rw [hleft] at hlooks
  exact ⟨s₁, s₂, s', hblock, htx, hloop, hlooks⟩

/-- The committed energy of one address. -/
def energyBase : SortedMap GoString GoString :=
  SortedMap.empty.set (Reward.energyByAddressKey (bytes "a")) (bytes "5")

/-- After `resetEnergyStore`, an iterator from the prefix on without an end still visits the deleted
energy; the map has none. -/
theorem open_range_revisits_deleted :
    ((resetEnergyStore 2 (newStore (newStore energyBase))).bind fun r =>
        visits r.1 (some Family.energyByAddress.root) none 2) =
        some [(Reward.energyByAddressKey (bytes "a"), some (bytes "5"))] ∧
      (Reward.resetEnergyStore energyBase).select
        (isKeyInDomain (some Family.energyByAddress.root) none) = [] := by
  decide +kernel

end EnergyChain.CacheKV
