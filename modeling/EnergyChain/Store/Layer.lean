import EnergyChain.Lib.Overlay
import EnergyChain.Store.DirtyItems

/-!
# The contents of a layer

`Contents` says what a store stands for: the value at each key, the entries that an iterator has still
to visit, and how the methods of `KVStore` act on them. It is the contract that a layer relies on for
its parent and that it keeps itself; the committed store keeps it, and here the invariant of a layer is
shown to be kept by `Get`, `Set`, `Delete` and by moving dirty items (`Filed`).
-/

set_option autoImplicit false

namespace EnergyChain.CacheKV

open EnergyChain.Go

/-- The contract of a store and its iterators. -/
class Contents (S : Type) (I : outParam Type) [KVStore S I] where
  /-- the invariant of the store -/
  Coherent : S → Prop
  /-- the value that the store stands for at a key -/
  lookup : S → GoString → Option GoString
  /-- the invariant of an iterator of the store -/
  Fits : S → I → Prop
  /-- the entries that an iterator has still to visit -/
  remaining : S → I → List (GoString × GoString)
  /-- an iterator over the range finds all dirty keys of it sorted -/
  Sorted : S → Option GoString → Option GoString → Prop
  ascending : ∀ {s : S} {it : I}, Fits s it → Ascending (remaining s it)
  get_spec : ∀ {s : S} {k : GoString}, Coherent s → k ≠ [] →
    ∃ s', KVStore.get s k = .ok (s', lookup s k) ∧ Coherent s' ∧ lookup s' = lookup s
  iterator_spec : ∀ {s : S} {start stop : Option GoString}, Coherent s →
    start ≠ some [] → stop ≠ some [] →
    ∃ s' it, KVStore.iterator s start stop = .ok (s', it) ∧ Coherent s' ∧ lookup s' = lookup s ∧
      Fits s' it ∧ (Covered start stop ∨ Sorted s start stop → ∀ {k v}, (k, v) ∈ remaining s' it ↔
        isKeyInDomain start stop k = true ∧ lookup s k = some v)
  valid_spec : ∀ {s : S} {it : I}, Fits s it →
    ∃ it', KVStore.valid s it = .ok (it', !(remaining s it).isEmpty) ∧ Fits s it' ∧
      remaining s it' = remaining s it
  next_spec : ∀ {s : S} {it : I} {e : GoString × GoString} {l : List (GoString × GoString)},
    Fits s it → remaining s it = e :: l →
    ∃ it', KVStore.next s it = .ok it' ∧ Fits s it' ∧ remaining s it' = l
  key_spec : ∀ {s : S} {it : I} {e : GoString × GoString} {l : List (GoString × GoString)},
    Fits s it → remaining s it = e :: l →
    ∃ it', KVStore.key s it = .ok (it', e.1) ∧ Fits s it' ∧ remaining s it' = e :: l
  value_spec : ∀ {s : S} {it : I} {e : GoString × GoString} {l : List (GoString × GoString)},
    Fits s it → remaining s it = e :: l →
    ∃ it', KVStore.value s it = .ok (it', some e.2) ∧ Fits s it' ∧ remaining s it' = e :: l

/-- The committed store stands for itself. -/
instance : Contents (SortedMap GoString GoString) (List (GoString × GoString)) where
  Coherent _ := True
  lookup := SortedMap.get
  Fits _ items := Ascending items
  remaining _ items := items
  Sorted _ _ _ := True
  ascending h := h
  get_spec _ _ := ⟨_, rfl, trivial, rfl⟩
  iterator_spec _ _ _ :=
    ⟨_, _, rfl, trivial, rfl, SortedMap.select_sorted _ _, fun _ => SortedMap.mem_select⟩
  valid_spec h := ⟨_, rfl, h, rfl⟩
  next_spec := by
    rintro s it e l h rfl
    exact ⟨l, rfl, ascending_of_cons h, rfl⟩
  key_spec := by
    rintro s it e l h rfl
    exact ⟨_, rfl, h, rfl⟩
  value_spec := by
    rintro s it e l h rfl
    exact ⟨_, rfl, h, rfl⟩

section

variable {P I : Type} [KVStore P I] [Contents P I] {s : Store P}

/-- The value of a layer at a key: that of its cache, or that of its parent. -/
def layerLookup (s : Store P) (k : GoString) : Option GoString :=
  match s.cache k with
  | some cacheValue => cacheValue.value
  | none => Contents.lookup s.parent k

/-- The invariant of a layer. A clean value is that of the parent; the dirty keys are the unsorted ones
and those of `sortedCache`, which has the current value of a key that is not unsorted. -/
structure Filed (s : Store P) : Prop where
  coherent : Contents.Coherent s.parent
  clean : ∀ {k v}, s.cache k = some ⟨v, false⟩ → v = Contents.lookup s.parent k
  deleted : ∀ {k}, s.deleted.get k ≠ none ↔ s.cache k = some ⟨none, true⟩
  unsorted : ∀ {k}, s.unsortedCache.get k ≠ none → ∃ v, s.cache k = some ⟨v, true⟩
  sorted : ∀ {k}, s.sortedCache.get k ≠ none → ∃ v, s.cache k = some ⟨v, true⟩
  dirty : ∀ {k v}, s.cache k = some ⟨v, true⟩ →
    s.unsortedCache.get k ≠ none ∨ s.sortedCache.get k = some (v.getD [])
  nonempty : s.cache [] = none

theorem filed_newStore {p : P} (h : Contents.Coherent p) : Filed (newStore p) where
  coherent := h
  clean hk := by cases hk
  deleted := by simp [newStore, SortedMap.get_empty]
  unsorted hk := absurd (SortedMap.get_empty _) hk
  sorted hk := absurd (SortedMap.get_empty _) hk
  dirty hk := by cases hk
  nonempty := rfl

/-- A change of the parent that keeps its contents keeps the layer. -/
theorem Filed.withParent (h : Filed s) {p : P} (hp : Contents.Coherent p)
    (hlookup : Contents.lookup p = Contents.lookup s.parent) : Filed { s with parent := p } where
  coherent := hp
  clean hk := by
    rw [hlookup]
    exact h.clean hk
  deleted := h.deleted
  unsorted := h.unsorted
  sorted := h.sorted
  dirty := h.dirty
  nonempty := h.nonempty

/-- `Set` and `Delete`: a dirty value becomes an unsorted key. -/
theorem Filed.write (h : Filed s) {key : GoString} (hkey : key ≠ []) (value : Option GoString) :
    Filed (setCacheValue s key value value.isNone true) where
  coherent := h.coherent
  clean := by
    intro k v hk
    by_cases hkk : k = key
    · subst hkk
      simp [setCacheValue] at hk
    · exact h.clean (by simpa [setCacheValue, hkk] using hk)
  deleted := by
    intro k
    by_cases hkk : k = key
    · subst hkk
      cases value with
      | none => simp [setCacheValue]
      | some v => simp [setCacheValue]
    · cases value with
      | none => simpa [setCacheValue, hkk, SortedMap.get_set_of_ne] using h.deleted
      | some v => simpa [setCacheValue, hkk, SortedMap.get_delete_of_ne] using h.deleted
  unsorted := by
    intro k hk
    by_cases hkk : k = key
    · subst hkk
      exact ⟨value, by simp [setCacheValue]⟩
    · have hold : s.unsortedCache.get k ≠ none := by
        simpa [setCacheValue, SortedMap.get_set_of_ne _ _ hkk] using hk
      simpa [setCacheValue, hkk] using h.unsorted hold
  sorted := by
    intro k hk
    by_cases hkk : k = key
    · subst hkk
      exact ⟨value, by simp [setCacheValue]⟩
    · simpa [setCacheValue, hkk] using h.sorted hk
  dirty := by
    intro k v hk
    by_cases hkk : k = key
    · subst hkk
      exact Or.inl (by simp [setCacheValue])
    · have hold : s.cache k = some ⟨v, true⟩ := by simpa [setCacheValue, hkk] using hk
      simpa [setCacheValue, SortedMap.get_set_of_ne _ _ hkk] using h.dirty hold
  nonempty := by simpa [setCacheValue, Ne.symm hkey] using h.nonempty

theorem layerLookup_write (s : Store P) (key : GoString) (value : Option GoString) :
    layerLookup (setCacheValue s key value value.isNone true) =
      Function.update (layerLookup s) key value := by
  funext k
  by_cases hkk : k = key
  · subst hkk
    simp [layerLookup, setCacheValue]
  · simp [layerLookup, setCacheValue, hkk]

/-- `Get` of a key that is not cached: a clean value. -/
theorem Filed.read (h : Filed s) {key : GoString} (hkey : key ≠ []) (hnone : s.cache key = none) :
    Filed (setCacheValue s key (Contents.lookup s.parent key) false false) where
  coherent := h.coherent
  clean := by
    intro k v hk
    by_cases hkk : k = key
    · subst hkk
      simpa [setCacheValue, eq_comm] using hk
    · exact h.clean (by simpa [setCacheValue, hkk] using hk)
  deleted := by
    intro k
    by_cases hkk : k = key
    · subst hkk
      simp [setCacheValue]
    · simpa [setCacheValue, hkk, SortedMap.get_delete_of_ne] using h.deleted
  unsorted := by
    intro k hk
    -- an unsorted key is cached, and this one is not
    have hdirty := h.unsorted hk
    have hkk : k ≠ key := by
      rintro rfl
      simp [hnone] at hdirty
    simpa [setCacheValue, hkk] using hdirty
  sorted := by
    intro k hk
    have hdirty := h.sorted hk
    have hkk : k ≠ key := by
      rintro rfl
      simp [hnone] at hdirty
    simpa [setCacheValue, hkk] using hdirty
  dirty := by
    intro k v hk
    have hkk : k ≠ key := by
      rintro rfl
      simp [setCacheValue] at hk
    exact h.dirty (by simpa [setCacheValue, hkk] using hk)
  nonempty := by simpa [setCacheValue, Ne.symm hkey] using h.nonempty

theorem layerLookup_read {key : GoString} (hnone : s.cache key = none) :
    layerLookup (setCacheValue s key (Contents.lookup s.parent key) false false) = layerLookup s := by
  funext k
  by_cases hkk : k = key
  · subst hkk
    simp [layerLookup, setCacheValue, hnone]
  · simp [layerLookup, setCacheValue, hkk]

/-- Moving dirty items only files keys anew. -/
theorem Filed.dirtyItems (h : Filed s) (start stop : Option GoString) :
    Filed (dirtyItems s start stop) where
  coherent := by
    rw [parent_dirtyItems]
    exact h.coherent
  clean := by
    intro k v hk
    rw [cache_dirtyItems] at hk
    rw [parent_dirtyItems]
    exact h.clean hk
  deleted := by
    intro k
    rw [cache_dirtyItems, deleted_dirtyItems]
    exact h.deleted
  unsorted := by
    intro k hk
    rw [cache_dirtyItems]
    rw [get_unsortedCache_dirtyItems] at hk
    split at hk
    · exact absurd rfl hk
    · exact h.unsorted hk
  sorted := by
    intro k hk
    rw [cache_dirtyItems]
    rw [get_sortedCache_dirtyItems] at hk
    split at hk
    -- a moved key was unsorted, so it is dirty
    · rename_i hmoved
      exact h.unsorted (mem_keys_iff.1 ((movedKeys_sublist s start stop).subset hmoved))
    · exact h.sorted hk
  dirty := by
    intro k v hk
    rw [cache_dirtyItems] at hk
    rw [get_unsortedCache_dirtyItems, get_sortedCache_dirtyItems]
    split
    · exact Or.inr (by simp [hk])
    · exact h.dirty hk
  nonempty := by
    rw [cache_dirtyItems]
    exact h.nonempty

theorem layerLookup_dirtyItems (s : Store P) (start stop : Option GoString) :
    layerLookup (dirtyItems s start stop) = layerLookup s := by
  funext k
  rw [layerLookup, cache_dirtyItems, parent_dirtyItems]
  rfl

/-- No key of the range is unsorted. -/
def NoneUnsorted (s : Store P) (start stop : Option GoString) : Prop :=
  ∀ k, isKeyInDomain start stop k = true → s.unsortedCache.get k = none

/-- After the items of a covered range have been moved, `sortedCache` has exactly the dirty keys of the
range, with their current values. Where none is unsorted, it has them already. -/
theorem get_sortedCache_iff (h : Filed s) {start stop : Option GoString}
    (hrange : Covered start stop ∨ NoneUnsorted s start stop) {k w : GoString}
    (hdomain : isKeyInDomain start stop k = true) :
    (dirtyItems s start stop).sortedCache.get k = some w ↔
      ∃ v, s.cache k = some ⟨v, true⟩ ∧ v.getD [] = w := by
  have hempty : s.unsortedCache.get [] = none := by
    by_contra hne
    obtain ⟨v, hv⟩ := h.unsorted hne
    rw [h.nonempty] at hv
    cases hv
  -- a key of the range that stays unsorted would have been moved
  have hsorted : k ∉ movedKeys s start stop → s.unsortedCache.get k = none := fun hmoved =>
    hrange.elim (fun hcovered => not_not.1 fun hne => hmoved (mem_movedKeys hcovered hempty hne hdomain))
      (fun hnone => hnone k hdomain)
  constructor
  · intro hget
    obtain ⟨v, hv⟩ := (h.dirtyItems start stop).sorted (by rw [hget]; exact Option.some_ne_none w)
    rw [cache_dirtyItems] at hv
    refine ⟨v, hv, ?_⟩
    rw [get_sortedCache_dirtyItems] at hget
    split at hget
    · simpa [hv] using hget
    · rename_i hmoved
      have hvalue := (h.dirty hv).resolve_left (not_not.2 (hsorted hmoved))
      exact Option.some_inj.1 (hvalue.symm.trans hget)
  · rintro ⟨v, hv, rfl⟩
    rw [get_sortedCache_dirtyItems]
    split
    · simp [hv]
    · rename_i hmoved
      exact (h.dirty hv).resolve_left (not_not.2 (hsorted hmoved))

/-! ## The methods of a layer -/

/-- `Get` returns the value of the layer. -/
theorem get_filed (h : Filed s) {key : GoString} (hkey : key ≠ []) :
    ∃ s', get s key = .ok (s', layerLookup s key) ∧ Filed s' ∧ layerLookup s' = layerLookup s := by
  unfold get assertValidKey
  rw [require_bind_of hkey]
  cases hcache : s.cache key with
  | some cacheValue => exact ⟨s, by simp [layerLookup, hcache], h, rfl⟩
  -- the read goes through to the parent, which may cache it in turn
  | none =>
      obtain ⟨p, hp, hcoherent, hlookup⟩ := Contents.get_spec h.coherent hkey
      have hfiled := h.withParent hcoherent hlookup
      have hlayer : layerLookup { s with parent := p } = layerLookup s := by
        funext k
        rw [layerLookup, layerLookup, hlookup]
      refine ⟨setCacheValue { s with parent := p } key (Contents.lookup s.parent key) false false, ?_,
        ?_, ?_⟩
      · rw [hp]
        simp [layerLookup, hcache]
      · rw [← hlookup]
        exact hfiled.read hkey hcache
      · rw [← hlookup]
        exact (layerLookup_read (s := { s with parent := p }) hcache).trans hlayer

/-- `Set` changes the value at one key. -/
theorem set_filed (h : Filed s) {key : GoString} (value : GoString) (hkey : key ≠ []) :
    ∃ s', set s key value = .ok s' ∧ Filed s' ∧
      layerLookup s' = Function.update (layerLookup s) key (some value) := by
  refine ⟨_, ?_, h.write hkey (some value), layerLookup_write s key (some value)⟩
  unfold set assertValidKey
  rw [require_bind_of hkey]
  rfl

/-- `Delete` removes the value at one key. -/
theorem delete_filed (h : Filed s) {key : GoString} (hkey : key ≠ []) :
    ∃ s', delete s key = .ok s' ∧ s' = setCacheValue s key none true true ∧ Filed s' ∧
      layerLookup s' = Function.update (layerLookup s) key none := by
  refine ⟨_, ?_, rfl, h.write hkey none, layerLookup_write s key none⟩
  unfold delete assertValidKey
  rw [require_bind_of hkey]
  rfl

end

end EnergyChain.CacheKV
