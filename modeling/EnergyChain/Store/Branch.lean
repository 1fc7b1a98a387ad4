import EnergyChain.Store.Refinement

/-!
# Branches

A handler works on a layer of its own, a branch of the store of its block. If it succeeds, `Write` puts the
dirty values of the branch into the parent, in key order; if it fails, the branch is dropped.

A handler is given as the calls that it makes, where a call can depend on what the calls before it returned
(`Program`). On a branch it gets the answers that it would get from the map that the parent stands for. A
branch that is written leaves the parent with what the handler made of the map, and a branch that is dropped
leaves it with the map as it was, though reads go through to the parent and are cached there
(`branch_spec`). An iteration ends before the next call; the loops that delete while they iterate are
treated in `DeleteLoops`.
-/

set_option autoImplicit false

namespace EnergyChain.CacheKV

open EnergyChain.Go

/-! ## Writing to a parent -/

/-- The methods that `Write` calls on the parent. -/
class KVWriter (S : Type) where
  set : S → GoString → GoString → Outcome S
  delete : S → GoString → Outcome S

/-- The committed store. `Delete` takes every key. -/
instance : KVWriter (SortedMap GoString GoString) where
  set db key value := do
    assertValidKey key
    pure (db.set key value)
  delete db key := pure (db.delete key)

instance {P : Type} : KVWriter (Store P) where
  set := set
  delete := delete

section Write

variable {P : Type}

/-- The dirty keys of `cache`, sorted. The keys of a Go map are not listed; the dirty ones are those of
`unsortedCache` and `sortedCache` (`mem_dirtyKeys`). -/
def dirtyKeys (s : Store P) : List GoString :=
  let keys := s.sortedCache.entries.foldl (fun keys e => keys.set e.1 ()) s.unsortedCache
  (keys.entries.map Prod.fst).filter fun key => (s.cache key).any (·.dirty)

/-- One pass of the loop of `Write`. -/
def writeKey [KVWriter P] (s : Store P) (parent : P) (key : GoString) : Outcome P :=
  if (s.deleted.get key).isSome then KVWriter.delete parent key
  else
    match (s.cache key).bind (·.value) with
    | some value => KVWriter.set parent key value
    | none => pure parent

/-- `Write`. -/
def write [KVWriter P] (s : Store P) : Outcome (Store P) := do
  let parent ← (dirtyKeys s).foldlM (writeKey s) s.parent
  pure (newStore parent)

end Write

/-- A relation of a store to the map that it stands for which the methods keep. The relation may say more,
as that the store below a layer keeps its contents. -/
structure Tracks {S I : Type} [KVStore S I] [Contents S I] [KVWriter S]
    (R : S → SortedMap GoString GoString → Prop) : Prop where
  represents : ∀ {s m}, R s m → Represents s m
  get : ∀ {s s' m k v}, R s m → k ≠ [] → KVStore.get s k = .ok (s', v) → R s' m
  iterator : ∀ {s s' m start stop it}, R s m → start ≠ some [] → stop ≠ some [] →
    KVStore.iterator s start stop = .ok (s', it) → R s' m
  set : ∀ {s m k} (v : GoString), R s m → k ≠ [] →
    ∃ s', KVWriter.set s k v = .ok s' ∧ R s' (m.set k v)
  delete : ∀ {s m k}, R s m → k ≠ [] → ∃ s', KVWriter.delete s k = .ok s' ∧ R s' (m.delete k)

/-- The committed store is the map. -/
theorem tracks_committed :
    Tracks (S := SortedMap GoString GoString) fun db m => db = m where
  represents := by
    rintro db m rfl
    exact ⟨trivial, fun k => rfl⟩
  get := by
    rintro db db' m k v rfl hk hget
    cases hget
    rfl
  iterator := by
    rintro db db' m start stop it rfl - - hiterator
    cases hiterator
    rfl
  set := by
    rintro db m k v rfl hk
    refine ⟨db.set k v, ?_, rfl⟩
    show (assertValidKey k >>= fun _ => pure (db.set k v)) = _
    rw [assertValidKey, require_bind_of hk]
    rfl
  delete := by
    rintro db m k rfl hk
    exact ⟨_, rfl, rfl⟩

section

variable {P I : Type} [KVStore P I] [Contents P I]

/-! ## A layer over a store -/

/-- The layer stands for a map, over a parent that is related to another one. -/
structure Over (R : P → SortedMap GoString GoString → Prop) (below : SortedMap GoString GoString)
    (s : Store P) (m : SortedMap GoString GoString) : Prop where
  represents : Represents s m
  parent : R s.parent below

section

variable {R : P → SortedMap GoString GoString → Prop} {s : Store P}
  {m below : SortedMap GoString GoString}

theorem Over.set (h : Over R below s m) {key : GoString} (value : GoString) (hkey : key ≠ []) :
    ∃ s', CacheKV.set s key value = .ok s' ∧ Over R below s' (m.set key value) := by
  obtain ⟨s', hset, -, -⟩ := set_filed h.represents.coherent value hkey
  refine ⟨s', hset, represents_set h.represents hset, ?_⟩
  rw [CacheKV.set, assertValidKey, require_bind_of hkey] at hset
  cases hset
  exact h.parent

theorem Over.delete (h : Over R below s m) {key : GoString} (hkey : key ≠ []) :
    ∃ s', CacheKV.delete s key = .ok s' ∧ Over R below s' (m.delete key) := by
  obtain ⟨s', hdelete, heq, -, -⟩ := delete_filed h.represents.coherent hkey
  refine ⟨s', hdelete, represents_delete h.represents hdelete, ?_⟩
  rw [heq]
  exact h.parent

variable [KVWriter P] (hR : Tracks R)

include hR

theorem over_newStore {p : P} (h : R p m) : Over R m (newStore p) m :=
  ⟨represents_newStore (hR.represents h), h⟩

/-- A read goes through to the parent, which may cache it. -/
theorem Over.get (h : Over R below s m) {key : GoString} (hkey : key ≠ []) :
    ∃ s', CacheKV.get s key = .ok (s', m.get key) ∧ Over R below s' m := by
  obtain ⟨s', hget, hs'⟩ := get_of_represents h.represents hkey
  refine ⟨s', hget, hs', ?_⟩
  change CacheKV.get s key = _ at hget
  rw [CacheKV.get, assertValidKey, require_bind_of hkey] at hget
  cases hcache : s.cache key with
  | some cacheValue =>
      rw [hcache] at hget
      have hsame : s = s' := congrArg Prod.fst (Except.ok.inj hget)
      rw [← hsame]
      exact h.parent
  | none =>
      obtain ⟨p, hp, -⟩ := Contents.get_spec (hR.represents h.parent).coherent hkey
      rw [hcache, hp] at hget
      have hsame : setCacheValue { s with parent := p } key _ false false = s' :=
        congrArg Prod.fst (Except.ok.inj hget)
      rw [← hsame]
      exact hR.get h.parent hkey hp

/-- A new iterator asks the parent for one, which may sort its dirty items. -/
theorem Over.iterator (h : Over R below s m) {start stop : Option GoString} {s' : Store P}
    {it : CacheMergeIterator I} (hstart : start ≠ some []) (hstop : stop ≠ some [])
    (hiterator : CacheKV.iterator s start stop = .ok (s', it)) : Over R below s' m := by
  obtain ⟨s₁, it₁, hiterator₁, hfiled, hlookup, -, -⟩ :=
    iterator_spec h.represents.coherent hstart hstop
  cases hiterator₁.symm.trans hiterator
  refine ⟨⟨hfiled, fun k => (congrFun hlookup k).trans (h.represents.lookup k)⟩, ?_⟩
  obtain ⟨p, pit, hp, -⟩ := Contents.iterator_spec (hR.represents h.parent).coherent hstart hstop
  rw [CacheKV.iterator, hp, ok_bind] at hiterator
  obtain ⟨cache, -, hpure⟩ := bind_eq_ok.1 hiterator
  cases hpure
  rw [parent_dirtyItems]
  exact hR.iterator h.parent hstart hstop hp

/-- A layer leaves the contents of its parent alone until it is written. -/
theorem tracks_over (below : SortedMap GoString GoString) : Tracks (Over R below) where
  represents h := h.represents
  get := by
    intro s s' m k v h hk hget
    obtain ⟨s₁, hget₁, hs₁⟩ := h.get hR hk
    cases hget₁.symm.trans hget
    exact hs₁
  iterator h hstart hstop hiterator := h.iterator hR hstart hstop hiterator
  set v h hk := h.set v hk
  delete h hk := h.delete hk

end

/-! ## Write -/

variable {s s' : Store P}

theorem get_foldl_set_unit (l : List (GoString × GoString)) {keys : KeySet} {k : GoString} :
    (l.foldl (fun keys e => keys.set e.1 ()) keys).get k ≠ none ↔
      k ∈ l.map Prod.fst ∨ keys.get k ≠ none := by
  induction l generalizing keys with
  | nil => simp
  | cons e l ih =>
      rw [List.foldl_cons, ih, List.map_cons, List.mem_cons]
      by_cases hk : k = e.1
      · simp [hk]
      · simp [hk, SortedMap.get_set_of_ne _ _ hk]

/-- The keys that `Write` goes through are the dirty ones. -/
theorem mem_dirtyKeys (h : Filed s) {k : GoString} :
    k ∈ dirtyKeys s ↔ ∃ v, s.cache k = some ⟨v, true⟩ := by
  rw [dirtyKeys, List.mem_filter, mem_keys_iff, get_foldl_set_unit, mem_keys_iff]
  constructor
  · rintro ⟨hlisted, -⟩
    rcases hlisted with hsorted | hunsorted
    · exact h.sorted hsorted
    · exact h.unsorted hunsorted
  · rintro ⟨v, hv⟩
    refine ⟨?_, by simp [hv]⟩
    rcases h.dirty hv with hunsorted | hsorted
    · exact .inr hunsorted
    · exact .inl (by simp [hsorted])

variable [KVWriter P] {R : P → SortedMap GoString GoString → Prop} (hR : Tracks R)
  {m : SortedMap GoString GoString}

include hR

/-- A pass gives the parent the value of the layer at a dirty key. -/
theorem writeKey_spec (h : Filed s) {key : GoString} {v : Option GoString} {p : P} (hp : R p m)
    (hv : s.cache key = some ⟨v, true⟩) :
    ∃ p' m', writeKey s p key = .ok p' ∧ R p' m' ∧ m'.get = Function.update m.get key v := by
  have hkey : key ≠ [] := by
    rintro rfl
    rw [h.nonempty] at hv
    cases hv
  cases v with
  | none =>
      -- a dirty key without a value is a deleted one
      have hdeleted : (s.deleted.get key).isSome = true :=
        Option.isSome_iff_ne_none.2 (h.deleted.2 hv)
      obtain ⟨p', hdelete, hp'⟩ := hR.delete hp hkey
      rw [writeKey, if_pos hdeleted]
      refine ⟨p', _, hdelete, hp', ?_⟩
      funext k
      by_cases hk : k = key
      · rw [hk, SortedMap.get_delete_self, Function.update_self]
      · rw [SortedMap.get_delete_of_ne _ hk, Function.update_of_ne hk]
  | some value =>
      have hdeleted : ¬(s.deleted.get key).isSome = true := by
        rw [Option.isSome_iff_ne_none, h.deleted, hv]
        simp
      obtain ⟨p', hset, hp'⟩ := hR.set value hp hkey
      rw [writeKey, if_neg hdeleted, hv]
      refine ⟨p', _, hset, hp', ?_⟩
      funext k
      by_cases hk : k = key
      · rw [hk, SortedMap.get_set_self, Function.update_self]
      · rw [SortedMap.get_set_of_ne _ _ hk, Function.update_of_ne hk]

/-- The loop of `Write`: the parent gets the values of the layer at the keys, one after the other. -/
theorem foldlM_writeKey (h : Filed s) (keys : List GoString)
    (hkeys : ∀ k ∈ keys, ∃ v, s.cache k = some ⟨v, true⟩) {p : P} (hp : R p m) :
    ∃ p' m', keys.foldlM (writeKey s) p = .ok p' ∧ R p' m' ∧
      ∀ k, m'.get k = if k ∈ keys then layerLookup s k else m.get k := by
  induction keys generalizing p m with
  | nil => exact ⟨p, m, rfl, hp, fun k => by simp⟩
  | cons key keys ih =>
      obtain ⟨v, hv⟩ := hkeys key List.mem_cons_self
      obtain ⟨p₁, m₁, hwrite, hp₁, hget₁⟩ := writeKey_spec hR h hp hv
      obtain ⟨p₂, m₂, hrest, hp₂, hget₂⟩ := ih (fun k hk => hkeys k (List.mem_cons_of_mem key hk)) hp₁
      refine ⟨p₂, m₂, ?_, hp₂, fun k => ?_⟩
      · rw [List.foldlM_cons, hwrite, ok_bind, hrest]
      · rw [hget₂, hget₁]
        by_cases hmem : k ∈ keys
        · simp [hmem]
        · by_cases hk : k = key
          · subst hk
            simp [hmem, layerLookup, hv]
          · simp [hmem, hk]

/-- `Write` leaves a parent that stands for what the layer stood for, under an empty layer. -/
theorem write_spec {below : SortedMap GoString GoString} (h : Over R below s m) :
    ∃ p, write s = .ok (newStore p) ∧ R p m := by
  have hfiled : Filed s := h.represents.coherent
  obtain ⟨p, m', hfold, hp, hget⟩ :=
    foldlM_writeKey hR hfiled (dirtyKeys s) (fun k hk => (mem_dirtyKeys hfiled).1 hk) h.parent
  have hsame : m' = m := by
    apply SortedMap.ext_get
    intro k
    rw [hget, ← h.represents.lookup k, ← (hR.represents h.parent).lookup k]
    show _ = layerLookup s k
    by_cases hk : k ∈ dirtyKeys s
    · rw [if_pos hk]
    · rw [if_neg hk, layerLookup]
      rw [mem_dirtyKeys hfiled] at hk
      -- a key that is not dirty has the value of the parent
      rcases hcache : s.cache k with _ | ⟨v, _ | _⟩
      · rfl
      · exact (hfiled.clean hcache).symm
      · exact absurd ⟨v, hcache⟩ hk
  refine ⟨p, ?_, hsame ▸ hp⟩
  rw [write, hfold]
  rfl

end

/-! ## Programs -/

/-- The calls of a handler on its store; `scan` reads a range to its end. -/
inductive Program (α : Type) where
  | done (a : α)
  | get (key : GoString) (next : Option GoString → Program α)
  | set (key value : GoString) (next : Program α)
  | delete (key : GoString) (next : Program α)
  | scan (start stop : Option GoString) (next : List (GoString × Option GoString) → Program α)

namespace Program

variable {α : Type}

/-- The program on a map. -/
def onMap : Program α → SortedMap GoString GoString → SortedMap GoString GoString × α
  | done a, m => (m, a)
  | get key next, m => (next (m.get key)).onMap m
  | set key value next, m => next.onMap (m.set key value)
  | delete key next, m => next.onMap (m.delete key)
  | scan start stop next, m =>
      (next ((m.select (isKeyInDomain start stop)).map fun e => (e.1, some e.2))).onMap m

/-- The fuel that the program needs on a map: its longest iteration, and the call that ends it. -/
def fuel : Program α → SortedMap GoString GoString → Nat
  | done _, _ => 0
  | get key next, m => (next (m.get key)).fuel m
  | set key value next, m => next.fuel (m.set key value)
  | delete key next, m => next.fuel (m.delete key)
  | scan start stop next, m =>
      let items := (m.select (isKeyInDomain start stop)).map fun e => (e.1, some e.2)
      max (items.length + 1) ((next items).fuel m)

/-- The keys and the bounds are not empty, and the ranges are covered, whatever the answers are. -/
def WellFormed : Program α → Prop
  | done _ => True
  | get key next => key ≠ [] ∧ ∀ answer, (next answer).WellFormed
  | set key _ next => key ≠ [] ∧ next.WellFormed
  | delete key next => key ≠ [] ∧ next.WellFormed
  | scan start stop next =>
      start ≠ some [] ∧ stop ≠ some [] ∧ Covered start stop ∧ ∀ answer, (next answer).WellFormed

/-- The program on a layer. Without fuel for an iteration there is no result. -/
def exec {P I : Type} [KVStore P I] (fuel : Nat) : Program α → Store P → Option (Store P × α)
  | done a, s => some (s, a)
  | get key next, s => do
      let (s, value) ← (CacheKV.get s key).toOption
      (next value).exec fuel s
  | set key value next, s => do
      let s ← (CacheKV.set s key value).toOption
      next.exec fuel s
  | delete key next, s => do
      let s ← (CacheKV.delete s key).toOption
      next.exec fuel s
  | scan start stop next, s => do
      let (s, it) ← (gasIterator s start stop).toOption
      let items ← visitLoop s fuel it
      (next items).exec fuel s

end Program

/-! ## A program on a branch -/

section

variable {P I : Type} [KVStore P I] [Contents P I] [KVWriter P]
  {R : P → SortedMap GoString GoString → Prop} (hR : Tracks R)
  {s : Store P} {m below : SortedMap GoString GoString}

include hR

/-- An iteration over a covered range reads the entries of the map in the range. -/
theorem Over.scan (h : Over R below s m) {start stop : Option GoString} (hstart : start ≠ some [])
    (hstop : stop ≠ some []) (hcovered : Covered start stop) {fuel : Nat}
    (hfuel : (m.select (isKeyInDomain start stop)).length < fuel) :
    ∃ s' it, gasIterator s start stop = .ok (s', it) ∧ Over R below s' m ∧
      visitLoop s' fuel it =
        some ((m.select (isKeyInDomain start stop)).map fun e => (e.1, some e.2)) := by
  obtain ⟨s', it, hiterator, -, hfits, hremaining⟩ :=
    gasIterator_of_represents h.represents start stop hstart hstop
  refine ⟨s', it, hiterator, ?_, visitLoop_spec _ hfits (hremaining (.inl hcovered)) fuel hfuel⟩
  obtain ⟨⟨s₁, it₁⟩, hlayer, hseek⟩ := bind_eq_ok.1 hiterator
  obtain ⟨it₂, -, hpure⟩ := bind_eq_ok.1 hseek
  cases hpure
  exact h.iterator hR hstart hstop hlayer

/-- On a layer a program gets the answers of the map, and makes of the layer what it makes of the map. The
parent keeps its contents. -/
theorem exec_spec {α : Type} (p : Program α) (hp : p.WellFormed) (h : Over R below s m) {fuel : Nat}
    (hfuel : p.fuel m ≤ fuel) :
    ∃ s', p.exec fuel s = some (s', (p.onMap m).2) ∧ Over R below s' (p.onMap m).1 := by
  induction p generalizing s m with
  | done a => exact ⟨s, rfl, h⟩
  | get key next ih =>
      obtain ⟨s₁, hget, hs₁⟩ := h.get hR hp.1
      obtain ⟨s', hexec, hs'⟩ := ih (m.get key) (hp.2 _) hs₁ hfuel
      exact ⟨s', by simpa [Program.exec, Program.onMap, hget, Except.toOption] using hexec, hs'⟩
  | set key value next ih =>
      obtain ⟨s₁, hset, hs₁⟩ := h.set value hp.1
      obtain ⟨s', hexec, hs'⟩ := ih hp.2 hs₁ hfuel
      exact ⟨s', by simpa [Program.exec, Program.onMap, hset, Except.toOption] using hexec, hs'⟩
  | delete key next ih =>
      obtain ⟨s₁, hdelete, hs₁⟩ := h.delete hp.1
      obtain ⟨s', hexec, hs'⟩ := ih hp.2 hs₁ hfuel
      exact ⟨s', by simpa [Program.exec, Program.onMap, hdelete, Except.toOption] using hexec, hs'⟩
  | scan start stop next ih =>
      obtain ⟨hstart, hstop, hcovered, hnext⟩ := hp
      rw [Program.fuel, max_le_iff, List.length_map] at hfuel
      obtain ⟨s₁, it, hiterator, hs₁, hloop⟩ := h.scan hR hstart hstop hcovered hfuel.1
      obtain ⟨s', hexec, hs'⟩ := ih _ (hnext _) hs₁ hfuel.2
      exact ⟨s', by simpa [Program.exec, Program.onMap, hiterator, hloop, Except.toOption] using hexec,
        hs'⟩

end

section

variable {ε α : Type}

/-- Run a handler on a branch. The branch is written if the handler succeeds and the result is to be kept. -/
def branch {P I : Type} [KVStore P I] [KVWriter P] (fuel : Nat) (keeps : Bool)
    (p : Program (Except ε α)) (s : P) : Option (P × Except ε α) := do
  let (msCache, result) ← p.exec fuel (newStore s)
  if keeps && result.isOk then do
    let msCache ← (write msCache).toOption
    some (msCache.parent, result)
  else some (msCache.parent, result)

/-- The same on a map. -/
def branchOnMap (keeps : Bool) (p : Program (Except ε α)) (m : SortedMap GoString GoString) :
    SortedMap GoString GoString × Except ε α :=
  (if keeps && (p.onMap m).2.isOk then (p.onMap m).1 else m, (p.onMap m).2)

/-- A branch acts on the contents of the parent as the handler does on a map, all or nothing. -/
theorem branch_spec {P I : Type} [KVStore P I] [Contents P I] [KVWriter P]
    {R : P → SortedMap GoString GoString → Prop} (hR : Tracks R) (keeps : Bool)
    {p : Program (Except ε α)} (hp : p.WellFormed) {s : P} {m : SortedMap GoString GoString}
    (h : R s m) {fuel : Nat} (hfuel : p.fuel m ≤ fuel) :
    ∃ s', branch fuel keeps p s = some (s', (branchOnMap keeps p m).2) ∧
      R s' (branchOnMap keeps p m).1 := by
  obtain ⟨s', hexec, hs'⟩ := exec_spec hR p hp (over_newStore hR h) hfuel
  by_cases hkeep : keeps && (p.onMap m).2.isOk
  · obtain ⟨parent, hwrite, hparent⟩ := write_spec hR hs'
    refine ⟨parent, ?_, ?_⟩
    · simp only [branch, hexec, Option.bind_eq_bind, Option.bind_some, hkeep, if_true, hwrite,
        Except.toOption]
      rfl
    · rw [branchOnMap, if_pos hkeep]
      exact hparent
  · refine ⟨s'.parent, ?_, ?_⟩
    · simp only [branch, hexec, Option.bind_eq_bind, Option.bind_some, hkeep]
      rfl
    · rw [branchOnMap, if_neg hkeep]
      exact hs'.parent

end

end EnergyChain.CacheKV
