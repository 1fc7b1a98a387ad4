import EnergyChain.Store.CacheKV

/-!
# The dirty items of a range

Before it iterates over a range, a layer enters the unsorted keys of the range into its `MemDB`. Up to
1023 unsorted keys are tested one by one; of more keys, a part is cut out of their sorted list by two
binary searches. The part may be too large, but it contains the keys of the range
(`mem_searchedKeys`): the searches leave out only keys below the start (`searchStart_spec`) and keys
that are not below the end (`searchEnd_spec`).

A range without an end is taken for one that ends at the empty string. Nothing is entered for it, unless
it has no start either. `Covered` names the ranges that are treated as they should be.
-/

set_option autoImplicit false

namespace EnergyChain.CacheKV

open EnergyChain.Go

/-- The range has an end, or it has no start. -/
def Covered (start stop : Option GoString) : Prop := stop ≠ none ∨ start.getD [] = []

instance (start stop : Option GoString) : Decidable (Covered start stop) :=
  inferInstanceAs (Decidable (stop ≠ none ∨ start.getD [] = []))

/-! ## The binary searches -/

section Search

variable {strL : List GoString}

/-- The keys ascend by their indices. -/
theorem getD_lt_getD (hasc : strL.Pairwise (· < ·)) {i j : Nat} (hij : i < j) (hj : j < strL.length) :
    strL.getD i [] < strL.getD j [] := by
  rw [List.getD_eq_getElem _ _ (hij.trans hj), List.getD_eq_getElem _ _ hj]
  exact List.pairwise_iff_getElem.1 hasc i j _ _ hij

theorem scanDown_mem_range (stops : GoString → Bool) (strL : List GoString) (n : Nat) :
    0 ≤ scanDown stops strL n ∧ scanDown stops strL n ≤ n := by
  induction n with
  | zero => simp [scanDown]
  | succ i ih =>
      rw [scanDown]
      split <;> omega

/-- The scan ends at once if the key below is one to stop at. -/
theorem scanDown_of_stops {stops : GoString → Bool} {n : Nat}
    (h : ∀ i, n = i + 1 → stops (strL.getD i []) = true) : scanDown stops strL n = n := by
  cases n with
  | zero => rfl
  | succ i =>
      rw [scanDown, if_pos (h i rfl)]
      rfl

/-- The keys before the index found are below the start. -/
theorem searchStart_spec (hasc : strL.Pairwise (· < ·)) (startQ : GoString) (fuel : Nat)
    (left right : Int) (hleft : 0 ≤ left) (hright : right < strL.length)
    (hbelow : ∀ i : Nat, (i : Int) < left → strL.getD i [] < startQ) :
    ∀ i : Nat, (i : Int) < searchStart strL startQ fuel left right → strL.getD i [] < startQ := by
  induction fuel generalizing left right with
  | zero =>
      intro i hi
      rw [searchStart] at hi
      omega
  | succ fuel ih =>
      intro i hi
      rw [searchStart] at hi
      split at hi
      · rename_i hle
        have hmid : ((left + right) / 2).toNat < strL.length := by omega
        dsimp only at hi
        split at hi
        · -- the start itself is in the list
          rename_i heq
          have hscan := scanDown_mem_range
            (fun str => str != strL.getD ((left + right) / 2).toNat []) strL
            ((left + right) / 2).toNat
          rw [← heq]
          exact getD_lt_getD hasc (by omega) hmid
        · split at hi
          · rename_i hlt
            refine ih _ _ (by omega) hright (fun j hj => ?_) i hi
            by_cases hjm : j = ((left + right) / 2).toNat
            · rw [hjm]
              exact hlt
            · exact (getD_lt_getD hasc (by omega) hmid).trans hlt
          · exact ih _ _ hleft (by omega) hbelow i hi
      · split at hi
        · exact hbelow i hi
        · omega

/-- What `findEndIndex` finds: no key after the index is below the end, and the key at the index is not
above it. -/
structure EndIndex (strL : List GoString) (endQ : GoString) (j : Int) : Prop where
  lt_length : j < strL.length
  after : ∀ i : Nat, j < i → i < strL.length → ¬strL.getD i [] < endQ
  at_index : 0 ≤ j → ¬endQ < strL.getD j.toNat []

theorem searchEnd_spec (hasc : strL.Pairwise (· < ·)) (endQ : GoString) (fuel : Nat)
    (left right : Int) (hleft : 0 ≤ left) (hright : right < strL.length) (hgap : left ≤ right + 1)
    (hfuel : right + 1 - left < fuel)
    (hbelow : ∀ i : Nat, (i : Int) < left → strL.getD i [] < endQ)
    (habove : ∀ i : Nat, right < i → i < strL.length → endQ < strL.getD i []) :
    EndIndex strL endQ (searchEnd strL endQ fuel left right) := by
  induction fuel generalizing left right with
  | zero => omega
  | succ fuel ih =>
      rw [searchEnd]
      split
      · rename_i hle
        have hmid : ((left + right) / 2).toNat < strL.length := by omega
        dsimp only
        split
        · -- the end itself is in the list, and the key before it is smaller
          rename_i heq
          rw [scanDown_of_stops fun i hi => decide_eq_true (getD_lt_getD hasc (by omega) hmid)]
          refine ⟨by omega, fun i hi hlen => ?_, fun _ => ?_⟩
          · rw [← heq]
            exact not_lt.2 (getD_lt_getD hasc (by omega) hlen).le
          · rw [Int.toNat_natCast, heq]
            exact lt_irrefl _
        · rename_i hne
          split
          · rename_i hlt
            refine ih _ _ (by omega) hright (by omega) (by omega) (fun j hj => ?_) habove
            by_cases hjm : j = ((left + right) / 2).toNat
            · rw [hjm]
              exact hlt
            · exact (getD_lt_getD hasc (by omega) hmid).trans hlt
          · rename_i hnot
            have hgt : endQ < strL.getD ((left + right) / 2).toNat [] :=
              lt_of_le_of_ne (not_lt.1 hnot) (Ne.symm hne)
            refine ih _ _ hleft (by omega) (by omega) (by omega) hbelow (fun j hj hlen => ?_)
            by_cases hjm : j = ((left + right) / 2).toNat
            · rw [hjm]
              exact hgt
            · exact hgt.trans (getD_lt_getD hasc (by omega) hlen)
      · -- the search failed, and the key at the right index is below the end
        rename_i hgt
        rw [scanDown_of_stops fun i hi => decide_eq_true (hbelow i (by omega))]
        refine ⟨by omega, fun i hi hlen => not_lt.2 (habove i (by omega) hlen).le, fun hpos => ?_⟩
        exact not_lt.2 (hbelow _ (by omega)).le

/-- The part that is cut out contains every key of the range. -/
theorem mem_searchedKeys (hasc : strL.Pairwise (· < ·)) {startStr endStr key : GoString}
    (hmem : key ∈ strL) (hstart : ¬key < startStr)
    (hend : key < endStr ∨ endStr = [] ∧ [] ∉ strL) : key ∈ searchedKeys strL startStr endStr := by
  obtain ⟨i, hi, rfl⟩ := List.mem_iff_getElem.1 hmem
  have hne : strL.length ≠ 0 := by omega
  have hget : strL.getD i [] = strL[i] := List.getD_eq_getElem _ _ hi
  rw [← hget] at hstart hend
  have hlow := searchStart_spec hasc startStr (strL.length + 1) 0 (strL.length - 1) le_rfl (by omega)
    (by omega)
  have hhigh := searchEnd_spec hasc endStr (strL.length + 1) 0 (strL.length - 1) le_rfl (by omega)
    (by omega) (by omega) (by omega) (by omega)
  simp only [searchedKeys, findStartIndex, findEndIndex, if_neg hne]
  generalize searchStart strL startStr (strL.length + 1) 0 (strL.length - 1) = low at hlow
  generalize searchEnd strL endStr (strL.length + 1) 0 (strL.length - 1) = high at hhigh
  -- neither index leaves the key out
  have hfrom : ¬(i : Int) < low := fun hlt => hstart (hlow i hlt)
  have hto : ¬(0 ≤ high ∧ high < i) := by
    rintro ⟨hpos, hlt⟩
    rcases hend with hlt' | ⟨rfl, hempty⟩
    · exact hhigh.after i hlt hi hlt'
    · have hto : high.toNat < strL.length := by have := hhigh.lt_length; omega
      refine hhigh.at_index hpos ?_
      rw [List.getD_eq_getElem _ _ hto]
      cases hkey : strL[high.toNat] with
      | nil => exact absurd (hkey ▸ List.getElem_mem hto) hempty
      | cons b rest => exact List.nil_lt_cons b rest
  rw [List.mem_iff_getElem?]
  refine ⟨i - (if low < 0 then 0 else low).toNat, ?_⟩
  have hlo : (if low < 0 then 0 else low).toNat ≤ i := by split <;> omega
  have hhi : i < ((if high < 0 then (strL.length : Int) - 1 else high) + 1).toNat := by split <;> omega
  rw [List.getElem?_drop, Nat.add_sub_cancel' hlo, List.getElem?_take_of_lt hhi]
  exact List.getElem?_eq_getElem hi

theorem searchedKeys_sublist (strL : List GoString) (startStr endStr : GoString) :
    (searchedKeys strL startStr endStr).Sublist strL :=
  (List.drop_sublist _ _).trans (List.take_sublist _ _)

end Search

/-! ## What is moved -/

section Moved

variable {P : Type} {s : Store P}

theorem get_foldl_set (f : GoString → GoString) (keys : List GoString)
    (db : SortedMap GoString GoString) (k : GoString) :
    (keys.foldl (fun db key => db.set key (f key)) db).get k =
      if k ∈ keys then some (f k) else db.get k := by
  induction keys generalizing db with
  | nil => simp
  | cons key keys ih =>
      rw [List.foldl_cons, ih]
      by_cases hk : k ∈ keys
      · simp [hk]
      · by_cases hkey : k = key
        · simp [hkey]
        · simp [hk, hkey, SortedMap.get_set_of_ne]

theorem mem_keys_iff {V : Type} {m : SortedMap GoString V} {k : GoString} :
    k ∈ m.entries.map Prod.fst ↔ m.get k ≠ none := by
  rw [ne_eq, SortedMap.get_eq_none_iff]
  simp

/-- The keys that `dirtyItems` moves from `unsortedCache` to `sortedCache`. -/
def movedKeys (s : Store P) (start stop : Option GoString) : List GoString :=
  let strL := s.unsortedCache.entries.map Prod.fst
  if stop.getD [] < start.getD [] then []
  else if strL.length < 1024 then strL.filter (isKeyInDomain start stop)
  else searchedKeys strL (start.getD []) (stop.getD [])

theorem movedKeys_sublist (s : Store P) (start stop : Option GoString) :
    (movedKeys s start stop).Sublist (s.unsortedCache.entries.map Prod.fst) := by
  unfold movedKeys
  dsimp only
  split
  · exact List.nil_sublist _
  · split
    · exact List.filter_sublist
    · exact searchedKeys_sublist _ _ _

/-- Every unsorted key of a covered range is moved. -/
theorem mem_movedKeys {start stop : Option GoString} (hcovered : Covered start stop)
    (hempty : s.unsortedCache.get [] = none) {k : GoString} (hk : s.unsortedCache.get k ≠ none)
    (hdomain : isKeyInDomain start stop k = true) : k ∈ movedKeys s start stop := by
  have hmem := mem_keys_iff.2 hk
  have hasc : (s.unsortedCache.entries.map Prod.fst).Pairwise (· < ·) :=
    List.pairwise_map.2 s.unsortedCache.sorted
  obtain ⟨hstart, hstop⟩ : ¬k < start.getD [] ∧ ∀ e, stop = some e → k < e := by
    simpa [isKeyInDomain, Option.all_eq_true] using hdomain
  unfold movedKeys
  dsimp only
  split
  · -- a range whose end is before its start holds no key
    rename_i hlt
    cases stop with
    | none =>
        rw [hcovered.resolve_left (not_not.2 rfl)] at hlt
        exact absurd hlt (lt_irrefl _)
    | some e => exact absurd ((hstop e rfl).trans hlt) hstart
  · split
    · exact List.mem_filter.2 ⟨hmem, hdomain⟩
    · refine mem_searchedKeys hasc hmem hstart ?_
      cases stop with
      | none => exact Or.inr ⟨rfl, fun h => mem_keys_iff.1 h hempty⟩
      | some e => exact Or.inl (hstop e rfl)

theorem clearUnsortedCacheSubset_nil (s : Store P) : clearUnsortedCacheSubset s [] = s := by
  have hunsorted : (if ([] : List GoString).length = s.unsortedCache.entries.length then .empty
      else s.unsortedCache.deleteAll []) = s.unsortedCache := by
    split
    · rename_i hlen
      refine SortedMap.ext_get fun k => ?_
      rw [SortedMap.get_empty, eq_comm, SortedMap.get_eq_none_iff,
        List.length_eq_zero_iff.1 hlen.symm]
      simp
    · rfl
  unfold clearUnsortedCacheSubset
  rw [hunsorted]
  rfl

theorem dirtyItems_eq (s : Store P) (start stop : Option GoString) :
    dirtyItems s start stop = clearUnsortedCacheSubset s (movedKeys s start stop) := by
  unfold dirtyItems movedKeys
  dsimp only
  split
  · exact (clearUnsortedCacheSubset_nil s).symm
  · split <;> rfl

@[simp]
theorem cache_dirtyItems (s : Store P) (start stop : Option GoString) :
    (dirtyItems s start stop).cache = s.cache := by
  rw [dirtyItems_eq]
  rfl

@[simp]
theorem deleted_dirtyItems (s : Store P) (start stop : Option GoString) :
    (dirtyItems s start stop).deleted = s.deleted := by
  rw [dirtyItems_eq]
  rfl

@[simp]
theorem parent_dirtyItems (s : Store P) (start stop : Option GoString) :
    (dirtyItems s start stop).parent = s.parent := by
  rw [dirtyItems_eq]
  rfl

theorem get_unsortedCache_dirtyItems (s : Store P) (start stop : Option GoString) (k : GoString) :
    (dirtyItems s start stop).unsortedCache.get k =
      if k ∈ movedKeys s start stop then none else s.unsortedCache.get k := by
  rw [dirtyItems_eq, clearUnsortedCacheSubset]
  dsimp only
  split
  · -- all keys are moved
    rename_i hlen
    have hall : movedKeys s start stop = s.unsortedCache.entries.map Prod.fst :=
      (movedKeys_sublist s start stop).eq_of_length (by rw [hlen, List.length_map])
    rw [SortedMap.get_empty, hall]
    split
    · rfl
    · rename_i hk
      exact (not_not.1 (mt mem_keys_iff.2 hk)).symm
  · split
    · rename_i hk
      exact SortedMap.get_deleteAll_of_mem _ hk
    · rename_i hk
      exact SortedMap.get_deleteAll_of_notMem _ hk

theorem get_sortedCache_dirtyItems (s : Store P) (start stop : Option GoString) (k : GoString) :
    (dirtyItems s start stop).sortedCache.get k =
      if k ∈ movedKeys s start stop then some (((s.cache k).bind (·.value)).getD [])
      else s.sortedCache.get k := by
  rw [dirtyItems_eq, clearUnsortedCacheSubset]
  exact get_foldl_set (fun key => ((s.cache key).bind (·.value)).getD []) _ _ k

end Moved

end EnergyChain.CacheKV
