import Mathlib

/-!
# Finite maps in key order

A finite map is the list of its entries in strictly ascending key order. The order is a field of the
structure, so a map has one representation: two maps with the same lookups are equal (`ext_get`).
Iteration over the keys that satisfy a predicate (`select`) visits the entries in key order, each
once; it depends only on the lookups at those keys (`select_congr`).

`SortedMap.card p m` counts the keys that satisfy `p`. It grows by one when such a key is new, keeps
its value when the key was present, and falls by the number of keys deleted
(`card_set_of_get_eq_none`, `card_set_of_get_ne_none`, `card_deleteAll`). `SortedMap.sum p f m` adds up
a quantity of the values; setting a key replaces its part (`sum_set`).

`SortedMap.All P m` says that every entry satisfies `P`; writes of such entries and deletions keep it.
-/

set_option autoImplicit false

namespace EnergyChain

universe u v

/-- A finite map as the strictly ascending list of its entries. -/
structure SortedMap (K : Type u) (V : Type v) [LinearOrder K] where
  entries : List (K × V)
  sorted : entries.Pairwise fun a b => a.1 < b.1

namespace SortedMap

variable {K : Type u} {V : Type v} [LinearOrder K]

/-- The map without entries. -/
def empty : SortedMap K V := ⟨[], List.Pairwise.nil⟩

/-- The value at a key. -/
def get (m : SortedMap K V) (k : K) : Option V :=
  (m.entries.find? fun e => e.1 = k).map Prod.snd

/-- Insertion into an ascending entry list; an entry with the same key is replaced. -/
def insertEntry (k : K) (v : V) : List (K × V) → List (K × V)
  | [] => [(k, v)]
  | (k', v') :: rest =>
      if k < k' then (k, v) :: (k', v') :: rest
      else if k = k' then (k, v) :: rest
      else (k', v') :: insertEntry k v rest

theorem mem_insertEntry_of {k : K} {v : V} {e : K × V} :
    ∀ {l : List (K × V)}, e ∈ insertEntry k v l → e = (k, v) ∨ e ∈ l := by
  intro l
  induction l with
  | nil => simp [insertEntry]
  | cons hd tl ih =>
      obtain ⟨k', v'⟩ := hd
      rw [insertEntry]
      split_ifs with h₁ h₂
      · simp
      · intro he
        rcases List.mem_cons.1 he with he | he
        · exact Or.inl he
        · exact Or.inr (List.mem_cons_of_mem _ he)
      · intro he
        rcases List.mem_cons.1 he with he | he
        · exact Or.inr (he ▸ List.mem_cons_self)
        · rcases ih he with he | he
          · exact Or.inl he
          · exact Or.inr (List.mem_cons_of_mem _ he)

theorem insertEntry_sorted (k : K) (v : V) {l : List (K × V)}
    (h : l.Pairwise fun a b => a.1 < b.1) :
    (insertEntry k v l).Pairwise fun a b => a.1 < b.1 := by
  induction l with
  | nil => simp [insertEntry]
  | cons hd tl ih =>
      obtain ⟨k', v'⟩ := hd
      obtain ⟨hhd, htl⟩ := List.pairwise_cons.1 h
      rw [insertEntry]
      split_ifs with h₁ h₂
      · -- in front of the head, and so of the tail
        refine List.pairwise_cons.2 ⟨fun e he => ?_, h⟩
        rcases List.mem_cons.1 he with rfl | he
        · exact h₁
        · exact h₁.trans (hhd e he)
      · -- in place of the head
        subst h₂
        exact List.pairwise_cons.2 ⟨hhd, htl⟩
      · -- behind the head, which stays before all that the tail becomes
        refine List.pairwise_cons.2 ⟨fun e he => ?_, ih htl⟩
        rcases mem_insertEntry_of he with rfl | he
        · exact lt_of_le_of_ne (not_lt.1 h₁) (Ne.symm h₂)
        · exact hhd e he

/-- `Set`: bind a key to a value. -/
def set (m : SortedMap K V) (k : K) (v : V) : SortedMap K V :=
  ⟨insertEntry k v m.entries, insertEntry_sorted k v m.sorted⟩

/-- `Delete`: remove a key. -/
def delete (m : SortedMap K V) (k : K) : SortedMap K V :=
  ⟨m.entries.filter fun e => e.1 ≠ k, m.sorted.filter _⟩

/-- Remove a list of keys, one after the other. -/
def deleteAll (m : SortedMap K V) (ks : List K) : SortedMap K V := ks.foldl delete m

/-- The entries whose key satisfies `p`, in ascending key order: what an iterator visits. -/
def select (p : K → Bool) (m : SortedMap K V) : List (K × V) := m.entries.filter fun e => p e.1

/-- The number of keys that satisfy `p`. -/
def card (p : K → Bool) (m : SortedMap K V) : Nat := (m.select p).length

/-! ## Lookup -/

theorem get_empty (k : K) : (empty : SortedMap K V).get k = none := rfl

theorem nodup_keys (m : SortedMap K V) : (m.entries.map Prod.fst).Nodup :=
  List.pairwise_map.2 (m.sorted.imp fun h => ne_of_lt h)

/-- Lookup is membership of the entry. -/
theorem get_eq_some_iff {m : SortedMap K V} {k : K} {v : V} :
    m.get k = some v ↔ (k, v) ∈ m.entries := by
  constructor
  · intro h
    obtain ⟨e, he, rfl⟩ := Option.map_eq_some_iff.1 h
    have hk : e.1 = k := by simpa using List.find?_some he
    rw [← hk]
    exact List.mem_of_find?_eq_some he
  · intro h
    cases hf : m.entries.find? fun e => e.1 = k with
    | none =>
        have hne := List.find?_eq_none.1 hf (k, v) h
        simp at hne
    | some e =>
        have hk : e.1 = k := by simpa using List.find?_some hf
        have hmem := List.mem_of_find?_eq_some hf
        -- the keys are distinct, so the first entry with the key is the only one
        have : e = (k, v) := List.inj_on_of_nodup_map m.nodup_keys hmem h hk
        rw [get, hf, this]
        rfl

theorem get_eq_none_iff {m : SortedMap K V} {k : K} :
    m.get k = none ↔ ∀ v, (k, v) ∉ m.entries := by
  rw [Option.eq_none_iff_forall_ne_some]
  exact forall_congr' fun v => not_congr get_eq_some_iff

theorem mem_delete_entries {m : SortedMap K V} {k : K} {e : K × V} :
    e ∈ (m.delete k).entries ↔ e ∈ m.entries ∧ e.1 ≠ k := by
  simp [delete]

/-- Setting a key puts its entry in front of the other entries, up to order. -/
theorem set_perm (m : SortedMap K V) (k : K) (v : V) :
    (m.set k v).entries.Perm ((k, v) :: (m.delete k).entries) := by
  -- the induction needs the order of the entries: behind a greater key there is no `k`
  have key : ∀ l : List (K × V), l.Pairwise (fun a b => a.1 < b.1) →
      (insertEntry k v l).Perm ((k, v) :: l.filter fun e => e.1 ≠ k) := by
    intro l
    induction l with
    | nil => intro _; rfl
    | cons hd tl ih =>
        intro h
        obtain ⟨k', v'⟩ := hd
        obtain ⟨hhd, htl⟩ := List.pairwise_cons.1 h
        rw [insertEntry]
        split_ifs with h₁ h₂
        · have hall : ∀ e ∈ (k', v') :: tl, e.1 ≠ k := by
            intro e he
            rcases List.mem_cons.1 he with rfl | he
            · exact ne_of_gt h₁
            · exact ne_of_gt (h₁.trans (hhd e he))
          rw [List.filter_eq_self.2 fun e he => by simpa using hall e he]
        · subst h₂
          have hall : ∀ e ∈ tl, e.1 ≠ k := fun e he => ne_of_gt (hhd e he)
          rw [List.filter_cons_of_neg (by simp),
            List.filter_eq_self.2 fun e he => by simpa using hall e he]
        · rw [List.filter_cons_of_pos (by simpa using Ne.symm h₂)]
          -- the head is moved past the new entry
          exact ((ih htl).cons _).trans (List.Perm.swap _ _ _)
  exact key m.entries m.sorted

@[simp]
theorem get_set_self (m : SortedMap K V) (k : K) (v : V) : (m.set k v).get k = some v :=
  get_eq_some_iff.2 ((set_perm m k v).mem_iff.2 List.mem_cons_self)

theorem get_set_of_ne (m : SortedMap K V) {k k' : K} (v : V) (h : k' ≠ k) :
    (m.set k v).get k' = m.get k' := by
  refine Option.ext fun w => ?_
  rw [get_eq_some_iff, get_eq_some_iff, (set_perm m k v).mem_iff, List.mem_cons,
    mem_delete_entries]
  simp [h]

/-- A write leaves no key without a value. -/
theorem get_set_ne_none {m : SortedMap K V} {k : K} (h : m.get k ≠ none) (k' : K) (v : V) :
    (m.set k' v).get k ≠ none := by
  by_cases hk : k = k'
  · rw [hk, get_set_self]
    simp
  · rwa [get_set_of_ne m v hk]

@[simp]
theorem get_delete_self (m : SortedMap K V) (k : K) : (m.delete k).get k = none :=
  get_eq_none_iff.2 fun _ hv => (mem_delete_entries.1 hv).2 rfl

theorem get_delete_of_ne (m : SortedMap K V) {k k' : K} (h : k' ≠ k) :
    (m.delete k).get k' = m.get k' := by
  refine Option.ext fun w => ?_
  rw [get_eq_some_iff, get_eq_some_iff, mem_delete_entries]
  simp [h]

theorem get_deleteAll_of_notMem (m : SortedMap K V) {k : K} {ks : List K} (h : k ∉ ks) :
    (m.deleteAll ks).get k = m.get k := by
  induction ks generalizing m with
  | nil => rfl
  | cons k' ks ih =>
      rw [List.mem_cons, not_or] at h
      rw [deleteAll, List.foldl_cons]
      exact (ih (m.delete k') h.2).trans (get_delete_of_ne m h.1)

theorem get_deleteAll_of_mem (m : SortedMap K V) {k : K} {ks : List K} (h : k ∈ ks) :
    (m.deleteAll ks).get k = none := by
  induction ks generalizing m with
  | nil => simp at h
  | cons k' ks ih =>
      rw [deleteAll, List.foldl_cons]
      -- the last deletion of the key is the one that counts
      by_cases hk : k ∈ ks
      · exact ih (m.delete k') hk
      · have hkk : k = k' := (List.mem_cons.1 h).resolve_right hk
        rw [← deleteAll, get_deleteAll_of_notMem _ hk, hkk, get_delete_self]

/-! ## Iteration -/

theorem mem_select {p : K → Bool} {m : SortedMap K V} {k : K} {v : V} :
    (k, v) ∈ m.select p ↔ p k = true ∧ m.get k = some v := by
  simp [select, get_eq_some_iff, and_comm]

theorem select_sorted (p : K → Bool) (m : SortedMap K V) :
    (m.select p).Pairwise fun a b => a.1 < b.1 := m.sorted.filter _

theorem select_keys_nodup (p : K → Bool) (m : SortedMap K V) :
    ((m.select p).map Prod.fst).Nodup :=
  List.pairwise_map.2 ((select_sorted p m).imp fun h => ne_of_lt h)

/-- Ascending entry lists with the same members are equal. -/
theorem eq_of_sorted_of_mem_iff {l₁ l₂ : List (K × V)}
    (h₁ : l₁.Pairwise fun a b => a.1 < b.1) (h₂ : l₂.Pairwise fun a b => a.1 < b.1)
    (h : ∀ e, e ∈ l₁ ↔ e ∈ l₂) : l₁ = l₂ := by
  -- a strictly ascending list has no duplicates
  have nd : ∀ {l : List (K × V)}, l.Pairwise (fun a b => a.1 < b.1) → l.Nodup := by
    intro l hl
    refine hl.imp ?_
    rintro a b hab rfl
    exact lt_irrefl _ hab
  exact List.Perm.eq_of_pairwise (fun a b _ _ hab hba => absurd hab (not_lt.2 hba.le)) h₁ h₂
    ((List.perm_ext_iff_of_nodup (nd h₁) (nd h₂)).2 h)

/-- Iteration depends only on the lookups at the selected keys. -/
theorem select_congr {p : K → Bool} {m m' : SortedMap K V}
    (h : ∀ k, p k = true → m.get k = m'.get k) : m.select p = m'.select p := by
  refine eq_of_sorted_of_mem_iff (select_sorted p m) (select_sorted p m') fun e => ?_
  obtain ⟨k, v⟩ := e
  rw [mem_select, mem_select]
  exact and_congr_right fun hp => by rw [h k hp]

/-- A map is determined by its entries. -/
theorem ext_entries {m m' : SortedMap K V} (h : m.entries = m'.entries) : m = m' := by
  cases m
  cases m'
  subst h
  rfl

/-- A map is determined by its lookups. -/
theorem ext_get {m m' : SortedMap K V} (h : ∀ k, m.get k = m'.get k) : m = m' := by
  refine ext_entries (eq_of_sorted_of_mem_iff m.sorted m'.sorted ?_)
  rintro ⟨k, v⟩
  rw [← get_eq_some_iff, ← get_eq_some_iff, h k]

/-- Writing the old value back changes nothing. -/
theorem set_self_of_get {m : SortedMap K V} {k : K} {v : V} (h : m.get k = some v) :
    m.set k v = m := ext_get fun k' => by
  by_cases hk : k' = k
  · rw [hk, get_set_self, h]
  · exact get_set_of_ne m v hk

/-- Deleting keys removes their entries from every iteration. -/
theorem select_deleteAll (p : K → Bool) (m : SortedMap K V) (ks : List K) :
    (m.deleteAll ks).select p = (m.select p).filter fun e => e.1 ∉ ks := by
  refine eq_of_sorted_of_mem_iff (select_sorted _ _) ((select_sorted p m).filter _) fun e => ?_
  obtain ⟨k, v⟩ := e
  rw [List.mem_filter, mem_select, mem_select]
  by_cases hk : k ∈ ks
  · simp [get_deleteAll_of_mem m hk, hk]
  · simp [get_deleteAll_of_notMem m hk, hk]

/-! ## Properties of all entries -/

/-- Every entry has the property. -/
def All (P : K → V → Prop) (m : SortedMap K V) : Prop := ∀ k v, m.get k = some v → P k v

theorem all_empty (P : K → V → Prop) : (empty : SortedMap K V).All P := by
  intro k v hget
  cases hget

theorem All.set {P : K → V → Prop} {m : SortedMap K V} (h : m.All P) {k : K} {v : V} (hv : P k v) :
    (m.set k v).All P := by
  intro k' v' hget
  by_cases hk : k' = k
  · subst hk
    rw [get_set_self, Option.some_inj] at hget
    subst hget
    exact hv
  · rw [get_set_of_ne m v hk] at hget
    exact h k' v' hget

/-- Deleting keys leaves entries that were there. -/
theorem All.deleteAll {P : K → V → Prop} {m : SortedMap K V} (h : m.All P) (ks : List K) :
    (m.deleteAll ks).All P := by
  intro k v hget
  by_cases hk : k ∈ ks
  · rw [get_deleteAll_of_mem m hk] at hget
    cases hget
  · rw [get_deleteAll_of_notMem m hk] at hget
    exact h k v hget

theorem All.delete {P : K → V → Prop} {m : SortedMap K V} (h : m.All P) (k : K) :
    (m.delete k).All P :=
  h.deleteAll [k]

/-! ## Counting keys -/

theorem card_congr {p : K → Bool} {m m' : SortedMap K V}
    (h : ∀ k, p k = true → m.get k = m'.get k) : m.card p = m'.card p := by
  rw [card, card, select_congr h]

theorem select_delete_of_get_eq_none {p : K → Bool} {m : SortedMap K V} {k : K}
    (h : m.get k = none) : (m.delete k).select p = m.select p :=
  select_congr fun k' _ => by
    by_cases hk : k' = k
    · rw [hk, get_delete_self, h]
    · exact get_delete_of_ne m hk

theorem card_set (p : K → Bool) (m : SortedMap K V) {k : K} (v : V) (hp : p k = true) :
    (m.set k v).card p = (m.delete k).card p + 1 := by
  have h := ((set_perm m k v).filter fun e => p e.1).length_eq
  rw [List.filter_cons_of_pos (by simpa using hp), List.length_cons] at h
  exact h

/-- A new key adds one to the count. -/
theorem card_set_of_get_eq_none {p : K → Bool} {m : SortedMap K V} {k : K} (v : V)
    (hp : p k = true) (h : m.get k = none) : (m.set k v).card p = m.card p + 1 := by
  rw [card_set p m v hp, card, select_delete_of_get_eq_none h]
  rfl

/-- Overwriting a key keeps the count. -/
theorem card_set_of_get_ne_none {p : K → Bool} {m : SortedMap K V} {k : K} (v : V)
    (hp : p k = true) (h : m.get k ≠ none) : (m.set k v).card p = m.card p := by
  obtain ⟨w, hw⟩ := Option.ne_none_iff_exists'.1 h
  -- the count does not see the value
  calc (m.set k v).card p = (m.delete k).card p + 1 := card_set p m v hp
    _ = (m.set k w).card p := (card_set p m w hp).symm
    _ = m.card p := by rw [set_self_of_get hw]

theorem card_le_card_set (p : K → Bool) (m : SortedMap K V) (k : K) (v : V) :
    m.card p ≤ (m.set k v).card p := by
  by_cases hp : p k = true
  · by_cases h : m.get k = none
    · rw [card_set_of_get_eq_none v hp h]
      omega
    · rw [card_set_of_get_ne_none v hp h]
  · refine (card_congr fun k' hk' => ?_).le
    have : k' ≠ k := fun e => hp (e ▸ hk')
    exact (get_set_of_ne m v this).symm

/-- Deleting part of what an iteration visits leaves the rest of it. -/
theorem select_deleteAll_take (p : K → Bool) (m : SortedMap K V) (n : Nat) :
    (m.deleteAll (((m.select p).take n).map Prod.fst)).select p = (m.select p).drop n := by
  rw [select_deleteAll]
  have hnd := select_keys_nodup p m
  have hsplit := List.take_append_drop n (m.select p)
  set front := (m.select p).take n with hfront
  set back := (m.select p).drop n with hback
  rw [← hsplit, List.map_append] at hnd
  -- no key of the front is met again in the back
  have hdisj := List.disjoint_of_nodup_append hnd
  rw [← hsplit, List.filter_append,
    List.filter_eq_nil_iff.2 fun e he => by simpa using ⟨e.2, he⟩,
    List.filter_eq_self.2 fun e he => by
      have := fun hm => hdisj hm (List.mem_map_of_mem he)
      simpa using this]
  rfl

/-- Deleting the first `n` keys of an iteration lowers the count by their number. -/
theorem card_deleteAll (p : K → Bool) (m : SortedMap K V) (n : Nat) :
    (m.deleteAll (((m.select p).take n).map Prod.fst)).card p = m.card p - n := by
  rw [card, select_deleteAll_take, List.length_drop]
  rfl

/-! ## Sums over keys -/

section

variable {M : Type*} [AddCommMonoid M]

/-- The sum of a quantity over the values whose key satisfies `p`. -/
def sum (p : K → Bool) (f : V → M) (m : SortedMap K V) : M := ((m.select p).map fun e => f e.2).sum

theorem sum_congr {p : K → Bool} (f : V → M) {m m' : SortedMap K V}
    (h : ∀ k, p k = true → m.get k = m'.get k) : m.sum p f = m'.sum p f := by
  rw [sum, sum, select_congr h]

theorem sum_set_eq (p : K → Bool) (f : V → M) (m : SortedMap K V) {k : K} (v : V)
    (hp : p k = true) : (m.set k v).sum p f = f v + (m.delete k).sum p f := by
  have h := (((set_perm m k v).filter fun e => p e.1).map fun e => f e.2).sum_eq
  rw [List.filter_cons_of_pos (by simpa using hp), List.map_cons, List.sum_cons] at h
  exact h

/-- Setting a key replaces its part of the sum. -/
theorem sum_set (p : K → Bool) (f : V → M) (m : SortedMap K V) {k : K} (v : V) (hp : p k = true) :
    (m.set k v).sum p f + (m.get k).elim 0 f = m.sum p f + f v := by
  cases hget : m.get k with
  | none =>
      have hdelete : (m.delete k).sum p f = m.sum p f := by
        rw [sum, select_delete_of_get_eq_none hget, sum]
      rw [sum_set_eq p f m v hp, hdelete, Option.elim_none, add_zero, add_comm]
  | some w =>
      -- the map is what it becomes when the old value is written once more
      have hold : m.sum p f = f w + (m.delete k).sum p f := by
        rw [← sum_set_eq p f m w hp, set_self_of_get hget]
      rw [sum_set_eq p f m v hp, hold, Option.elim_some, add_comm (f v), add_comm (f w),
        add_right_comm]

end

end SortedMap

end EnergyChain
