import EnergyChain.Store.MergeIterator

/-!
# Stores that stand for a sorted map

A store represents a sorted map if it has the value of the map at each key (`Represents`). The
operations on a layer act on the map as they should (`Represents.perform`), so a stack of layers
represents the map that the same operations make of the committed one (`represents_run`). What is
represented is what one sees: `Get` returns the value of the map, and an iterator over a covered range
visits the entries of the map in that range (`get_of_represents`, `visits_of_represents`).

The keys from a prefix up to its end bytes are the keys with that prefix (`isKeyInDomain_root`).
-/

set_option autoImplicit false

namespace EnergyChain.CacheKV

open EnergyChain.Go

/-! ## Prefix ranges -/

/-- The loop of `PrefixEndBytes` at the first byte, which it meets last. -/
theorem prefixEndLoop_concat (b : UInt8) (rest : List UInt8) :
    prefixEndLoop (rest ++ [b]) =
      match prefixEndLoop rest with
      | some stop => some (b :: stop)
      | none => if b ≠ 255 then some [b + 1] else none := by
  induction rest with
  | nil =>
      rw [List.nil_append, prefixEndLoop, prefixEndLoop]
      rfl
  | cons c rest ih =>
      rw [List.cons_append, prefixEndLoop, prefixEndLoop, ih]
      split
      · simp
      · rfl

theorem prefixEndBytes_cons (b : UInt8) (rest : GoString) :
    prefixEndBytes (b :: rest) =
      match prefixEndBytes rest with
      | some stop => some (b :: stop)
      | none => if b ≠ 255 then some [b + 1] else none := by
  rw [prefixEndBytes, List.reverse_cons, prefixEndLoop_concat]
  rfl

theorem lt_add_one_iff {b c : UInt8} (hb : b ≠ 255) : c < b + 1 ↔ ¬b < c := by
  have hb' : b.toNat ≠ 255 := fun h => hb (UInt8.toNat_inj.1 h)
  have hbound := UInt8.toNat_lt b
  rw [UInt8.lt_iff_toNat_lt, UInt8.lt_iff_toNat_lt, UInt8.toNat_add, UInt8.toNat_one]
  omega

theorem not_lt_max (c : UInt8) : ¬c < 255 ↔ c = 255 := by
  have hbound := UInt8.toNat_lt c
  rw [UInt8.lt_iff_toNat_lt, ← UInt8.toNat_inj]
  change ¬c.toNat < 255 ↔ c.toNat = 255
  omega

/-- The keys from a prefix up to its end are the keys with that prefix. -/
theorem prefix_iff_of_range (root key : GoString) :
    (¬key < root ∧ ∀ stop, prefixEndBytes root = some stop → key < stop) ↔ root <+: key := by
  induction root generalizing key with
  | nil => simp [prefixEndBytes, prefixEndLoop]
  | cons b root ih =>
      cases key with
      | nil => simp
      | cons c key =>
          rw [List.cons_prefix_cons, ← ih key, prefixEndBytes_cons, List.cons_lt_cons_iff, not_or]
          cases prefixEndBytes root with
          -- the rest has end bytes, and the first byte stays as it is
          | some stop =>
              simp only [Option.some.injEq, forall_eq', List.cons_lt_cons_iff]
              constructor
              · rintro ⟨⟨hnot, hrest⟩, hlt | ⟨rfl, hlt⟩⟩
                · exact absurd hlt hnot
                · exact ⟨rfl, fun h => hrest ⟨rfl, h⟩, hlt⟩
              · rintro ⟨rfl, hnot, hlt⟩
                exact ⟨⟨lt_irrefl b, fun h => hnot h.2⟩, Or.inr ⟨rfl, hlt⟩⟩
          | none =>
              -- the rest is all 255, so the end is above `b`, or there is none
              by_cases hb : b = 255
              · subst hb
                simp only [ne_eq, not_true_eq_false, if_false, reduceCtorEq, false_implies,
                  implies_true, and_true, not_lt_max]
                constructor
                · rintro ⟨rfl, hnot⟩
                  exact ⟨rfl, fun h => hnot ⟨rfl, h⟩⟩
                · rintro ⟨rfl, hnot⟩
                  exact ⟨rfl, fun h => hnot h.2⟩
              · simp only [ne_eq, hb, not_false_eq_true, if_true, Option.some.injEq, forall_eq',
                  reduceCtorEq, false_implies, implies_true, and_true, List.cons_lt_cons_iff,
                  List.not_lt_nil, and_false, or_false, lt_add_one_iff hb]
                constructor
                · rintro ⟨⟨hnot, hrest⟩, hle⟩
                  obtain rfl : c = b := le_antisymm (not_lt.1 hle) (not_lt.1 hnot)
                  exact ⟨rfl, fun h => hrest ⟨rfl, h⟩⟩
                · rintro ⟨rfl, hnot⟩
                  exact ⟨⟨lt_irrefl b, fun h => hnot h.2⟩, lt_irrefl b⟩

theorem isKeyInDomain_root (root key : GoString) :
    isKeyInDomain (some root) (prefixEndBytes root) key = root.isPrefixOf key := by
  rw [Bool.eq_iff_iff, List.isPrefixOf_iff_prefix, ← prefix_iff_of_range]
  simp [isKeyInDomain, Option.all_eq_true]

/-! ## What is seen of a store -/

section

variable {S I : Type} [KVStore S I] [Contents S I] {s : S} {it : I}
  {m : SortedMap GoString GoString}

/-- The store has the value of the map at each key. -/
structure Represents (s : S) (m : SortedMap GoString GoString) : Prop where
  coherent : Contents.Coherent s
  lookup : ∀ k, Contents.lookup s k = m.get k

/-- `Get` returns the value of the map. -/
theorem get_of_represents (h : Represents s m) {k : GoString} (hk : k ≠ []) :
    ∃ s', KVStore.get s k = .ok (s', m.get k) ∧ Represents s' m := by
  obtain ⟨s', hget, hcoherent, hlookup⟩ := Contents.get_spec h.coherent hk
  rw [h.lookup] at hget
  exact ⟨s', hget, hcoherent, fun k' => by rw [hlookup, h.lookup]⟩

/-- The gas meter reads the current entry, and changes nothing. -/
theorem consumeSeekGas_spec (h : Contents.Fits s it) :
    ∃ it', consumeSeekGas s it = .ok it' ∧ Contents.Fits s it' ∧
      Contents.remaining s it' = Contents.remaining s it := by
  obtain ⟨it₁, hvalid, hfits₁, hremaining₁⟩ := Contents.valid_spec h
  unfold consumeSeekGas
  rw [hvalid, ok_bind]
  cases hl : Contents.remaining s it with
  | nil => exact ⟨it₁, rfl, hfits₁, hremaining₁.trans hl⟩
  | cons e l =>
      obtain ⟨it₂, hkey, hfits₂, hremaining₂⟩ := Contents.key_spec hfits₁ (hremaining₁.trans hl)
      obtain ⟨it₃, hvalue, hfits₃, hremaining₃⟩ := Contents.value_spec hfits₂ hremaining₂
      refine ⟨it₃, ?_, hfits₃, hremaining₃⟩
      simp [hkey, hvalue]

theorem gasNext_spec {e : GoString × GoString} {l : List (GoString × GoString)}
    (h : Contents.Fits s it) (hl : Contents.remaining s it = e :: l) :
    ∃ it', gasNext s it = .ok it' ∧ Contents.Fits s it' ∧ Contents.remaining s it' = l := by
  obtain ⟨it₁, hseek, hfits₁, hremaining₁⟩ := consumeSeekGas_spec h
  obtain ⟨it₂, hnext, hfits₂, hremaining₂⟩ := Contents.next_spec hfits₁ (hremaining₁.trans hl)
  refine ⟨it₂, ?_, hfits₂, hremaining₂⟩
  rw [gasNext, hseek, ok_bind, hnext]

/-- A new iterator over a covered range, or over one whose dirty keys are sorted, has to visit the entries of
the map in the range. -/
theorem gasIterator_of_represents (h : Represents s m) (start stop : Option GoString)
    (hstart : start ≠ some []) (hstop : stop ≠ some []) :
    ∃ s' it, gasIterator s start stop = .ok (s', it) ∧ Represents s' m ∧ Contents.Fits s' it ∧
      (Covered start stop ∨ Contents.Sorted s start stop →
        Contents.remaining s' it = m.select (isKeyInDomain start stop)) := by
  obtain ⟨s', it, hiterator, hcoherent, hlookup, hfits, hvisits⟩ :=
    Contents.iterator_spec h.coherent hstart hstop
  obtain ⟨it', hseek, hfits', hremaining⟩ := consumeSeekGas_spec hfits
  refine ⟨s', it', ?_, ⟨hcoherent, fun k => by rw [hlookup, h.lookup]⟩, hfits', fun hrange => ?_⟩
  · rw [gasIterator, hiterator, ok_bind]
    simp [hseek]
  · rw [hremaining]
    -- both lists are sorted by key, so it is enough that they have the same entries
    refine SortedMap.eq_of_sorted_of_mem_iff (Contents.ascending hfits)
      (SortedMap.select_sorted _ _) fun e => ?_
    obtain ⟨k, v⟩ := e
    rw [hvisits hrange, SortedMap.mem_select, h.lookup]

end

/-- `for ; iter.Valid(); iter.Next()`, with the keys and values it reads. Without fuel, and where a method
panics, there is no result. -/
def visitLoop {S I : Type} [KVStore S I] (s : S) :
    Nat → I → Option (List (GoString × Option GoString))
  | 0, _ => none
  | fuel + 1, it => do
      let (it, valid) ← (KVStore.valid s it).toOption
      if valid then do
        let (it, key) ← (KVStore.key s it).toOption
        let (it, value) ← (KVStore.value s it).toOption
        let it ← (gasNext s it).toOption
        let visited ← visitLoop s fuel it
        some ((key, value) :: visited)
      else some []

/-- What a new iterator over a range visits. -/
def visits {S I : Type} [KVStore S I] (s : S) (start stop : Option GoString) (fuel : Nat) :
    Option (List (GoString × Option GoString)) := do
  let (s, it) ← (gasIterator s start stop).toOption
  visitLoop s fuel it

section

variable {S I : Type} [KVStore S I] [Contents S I] {s : S} {m : SortedMap GoString GoString}

theorem visitLoop_spec (l : List (GoString × GoString)) {it : I} (h : Contents.Fits s it)
    (hl : Contents.remaining s it = l) (fuel : Nat) (hfuel : l.length < fuel) :
    visitLoop s fuel it = some (l.map fun e => (e.1, some e.2)) := by
  -- on what remains to be visited; the iterator changes with every read
  induction l generalizing it fuel with
  | nil =>
      obtain ⟨n, rfl⟩ := Nat.exists_eq_succ_of_ne_zero (Nat.ne_zero_of_lt hfuel)
      obtain ⟨it₁, hvalid, -, -⟩ := Contents.valid_spec h
      rw [hl] at hvalid
      simp [visitLoop, hvalid, Except.toOption]
  | cons e l ih =>
      obtain ⟨n, rfl⟩ := Nat.exists_eq_succ_of_ne_zero (Nat.ne_zero_of_lt hfuel)
      obtain ⟨it₁, hvalid, hfits₁, hremaining₁⟩ := Contents.valid_spec h
      obtain ⟨it₂, hkey, hfits₂, hremaining₂⟩ := Contents.key_spec hfits₁ (hremaining₁.trans hl)
      obtain ⟨it₃, hvalue, hfits₃, hremaining₃⟩ := Contents.value_spec hfits₂ hremaining₂
      obtain ⟨it₄, hnext, hfits₄, hremaining₄⟩ := gasNext_spec hfits₃ hremaining₃
      have hrest := ih hfits₄ hremaining₄ n (by simpa using hfuel)
      rw [hl] at hvalid
      simp [visitLoop, hvalid, hkey, hvalue, hnext, hrest, Except.toOption]

/-- An iterator over a covered range, or over one whose dirty keys are sorted, visits the entries of the map
in the range. -/
theorem visits_of_represents (h : Represents s m) {start stop : Option GoString}
    (hstart : start ≠ some []) (hstop : stop ≠ some [])
    (hrange : Covered start stop ∨ Contents.Sorted s start stop) (fuel : Nat)
    (hfuel : (m.select (isKeyInDomain start stop)).length < fuel) :
    visits s start stop fuel =
      some ((m.select (isKeyInDomain start stop)).map fun e => (e.1, some e.2)) := by
  obtain ⟨s', it, hiterator, -, hfits, hremaining⟩ := gasIterator_of_represents h start stop hstart hstop
  have hloop := visitLoop_spec _ hfits (hremaining hrange) fuel hfuel
  simp [visits, hiterator, hloop, Except.toOption]

end

/-! ## Operations on a layer -/

/-- What can be done to a layer; of an iteration only the range matters. -/
inductive Op where
  | get (key : GoString)
  | set (key value : GoString)
  | delete (key : GoString)
  | iterate (start stop : Option GoString)

/-- The same on a sorted map. -/
def Op.onMap (m : SortedMap GoString GoString) : Op → SortedMap GoString GoString
  | .set key value => m.set key value
  | .delete key => m.delete key
  | _ => m

section

variable {P I : Type} [KVStore P I]

/-- The layer after an operation. -/
def perform (s : Store P) : Op → Outcome (Store P)
  | .get key => do
      let (s, _) ← get s key
      pure s
  | .set key value => set s key value
  | .delete key => delete s key
  | .iterate start stop => do
      let (s, _) ← iterator s start stop
      pure s

variable [Contents P I] {s s' : Store P} {m : SortedMap GoString GoString}

/-- What succeeds after `assertValidKey` has a key. -/
theorem key_ne_nil {α : Type} {key : GoString} {f : Unit → Outcome α} {a : α}
    (h : (assertValidKey key >>= f) = .ok a) : key ≠ [] := by
  obtain ⟨u, hu, -⟩ := bind_eq_ok.1 h
  exact require_eq_ok.1 hu

theorem represents_newStore {p : P} (h : Represents p m) : Represents (newStore p) m where
  coherent := filed_newStore h.coherent
  lookup := h.lookup

theorem represents_set (h : Represents s m) {key value : GoString} (hset : set s key value = .ok s') :
    Represents s' (m.set key value) := by
  obtain ⟨s'', hset', hfiled, hlookup⟩ := set_filed h.coherent value (key_ne_nil hset)
  cases hset.symm.trans hset'
  refine ⟨hfiled, fun k => (congrFun hlookup k).trans ?_⟩
  by_cases hk : k = key
  · rw [hk, Function.update_self, SortedMap.get_set_self]
  · rw [Function.update_of_ne hk, SortedMap.get_set_of_ne _ _ hk]
    exact h.lookup k

theorem represents_delete (h : Represents s m) {key : GoString} (hdelete : delete s key = .ok s') :
    Represents s' (m.delete key) := by
  obtain ⟨s'', hdelete', -, hfiled, hlookup⟩ := delete_filed h.coherent (key_ne_nil hdelete)
  cases hdelete.symm.trans hdelete'
  refine ⟨hfiled, fun k => (congrFun hlookup k).trans ?_⟩
  by_cases hk : k = key
  · rw [hk, Function.update_self, SortedMap.get_delete_self]
  · rw [Function.update_of_ne hk, SortedMap.get_delete_of_ne _ hk]
    exact h.lookup k

/-- An operation on a layer acts on the map that it represents. -/
theorem Represents.perform (h : Represents s m) {op : Op} (hop : perform s op = .ok s') :
    Represents s' (op.onMap m) := by
  cases op with
  | get key =>
      obtain ⟨⟨s₁, v⟩, hget, hs'⟩ := bind_eq_ok.1 hop
      cases hs'
      obtain ⟨s₂, hget', hfiled, hlookup⟩ := get_filed h.coherent (key_ne_nil hget)
      cases hget.symm.trans hget'
      exact ⟨hfiled, fun k => (congrFun hlookup k).trans (h.lookup k)⟩
  | set key value => exact represents_set h hop
  | delete key => exact represents_delete h hop
  | iterate start stop =>
      obtain ⟨⟨s₁, it⟩, hiterator, hs'⟩ := bind_eq_ok.1 hop
      cases hs'
      -- the iterator over the cache rejects empty bounds, so there are none
      have hbounds : start ≠ some [] ∧ stop ≠ some [] := by
        obtain ⟨⟨p, pit⟩, -, hrest⟩ := bind_eq_ok.1 hiterator
        obtain ⟨cache, hcache, -⟩ := bind_eq_ok.1 hrest
        obtain ⟨u, hu, -⟩ := bind_eq_ok.1 hcache
        exact require_eq_ok.1 hu
      obtain ⟨s₂, it₂, hiterator', hfiled, hlookup, -, -⟩ :=
        iterator_spec h.coherent hbounds.1 hbounds.2
      cases hiterator.symm.trans hiterator'
      exact ⟨hfiled, fun k => (congrFun hlookup k).trans (h.lookup k)⟩

/-- So does a sequence of operations. -/
theorem represents_run (ops : List Op) (h : Represents s m)
    (hops : ops.foldlM CacheKV.perform s = .ok s') : Represents s' (ops.foldl Op.onMap m) := by
  induction ops generalizing s m with
  | nil =>
      cases hops
      exact h
  | cons op ops ih =>
      rw [List.foldlM_cons] at hops
      obtain ⟨s₁, hop, hrest⟩ := bind_eq_ok.1 hops
      exact ih (h.perform hop) hrest

end

end EnergyChain.CacheKV
