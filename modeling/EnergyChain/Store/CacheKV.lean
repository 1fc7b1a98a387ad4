import EnergyChain.Go.Outcome
import EnergyChain.Lib.SortedMap

/-!
# The cachekv store

A `Store` buffers the writes to its parent, which is a committed store or another `Store`. Its methods
call those of the parent through the interface `types.KVStore`, modelled by the class `KVStore`; the
iterators of a store implement `types.Iterator`. Iterators have state of their own, and the iterator of
a cache layer shares the set of deleted keys with the layer: an iterator method takes the store as it
is at the time of the call.

The iterators of the committed store and of `MemDB` return the contents at their creation in key order.
Locks, telemetry and gas are left out; the calls that the gas meter makes on an iterator are not.
`ReverseIterator`, which the reward module does not use, leaves a store as `Iterator` does.
-/

set_option autoImplicit false

namespace EnergyChain.CacheKV

open EnergyChain.Go

/-- `dbm.IsKeyInDomain`; a bound can be nil. -/
def isKeyInDomain (start stop : Option GoString) (key : GoString) : Bool :=
  !decide (key < start.getD []) && stop.all fun stop => decide (key < stop)

/-- A Go map of keys without values. Its keys are listed in ascending order: every list the code takes
of them is sorted at once. -/
abbrev KeySet := SortedMap GoString Unit

/-- The methods that a store calls on its parent, and on the iterators of its parent. -/
class KVStore (S : Type) (I : outParam Type) where
  get : S → GoString → Outcome (S × Option GoString)
  iterator : S → Option GoString → Option GoString → Outcome (S × I)
  valid : S → I → Outcome (I × Bool)
  next : S → I → Outcome I
  key : S → I → Outcome (I × GoString)
  value : S → I → Outcome (I × Option GoString)

/-- The panic of an iterator that is moved or read past its end. -/
def invalidIterator : Fault := .panic (bytes "iterator is invalid")

/-- The committed store; its iterators are the entries still to come. -/
instance : KVStore (SortedMap GoString GoString) (List (GoString × GoString)) where
  get db key := .ok (db, db.get key)
  iterator db start stop := .ok (db, db.select (isKeyInDomain start stop))
  valid _ items := .ok (items, !items.isEmpty)
  next _ items := (orFail invalidIterator items.head?).map fun _ => items.tail
  key _ items := (orFail invalidIterator items.head?).map fun item => (items, item.1)
  value _ items := (orFail invalidIterator items.head?).map fun item => (items, some item.2)

/-! ## Layers -/

/-- `cValue`; the value is nil if the key was deleted, or if the parent did not have it. -/
structure CValue where
  value : Option GoString
  dirty : Bool
  deriving DecidableEq

/-- `Store`. -/
structure Store (P : Type) where
  cache : GoString → Option CValue
  deleted : KeySet
  unsortedCache : KeySet
  /-- a `MemDB` -/
  sortedCache : SortedMap GoString GoString
  parent : P

/-- `NewStore`. -/
def newStore {P : Type} (parent : P) : Store P := ⟨fun _ => none, .empty, .empty, .empty, parent⟩

/-- `AssertValidKey`. -/
def assertValidKey (key : GoString) : Outcome Unit := require (key ≠ []) (.panic (bytes "key is nil"))

section Layer

variable {P I : Type}

/-- `setCacheValue`. -/
def setCacheValue (s : Store P) (key : GoString) (value : Option GoString) (deleted dirty : Bool) :
    Store P :=
  { s with
    cache := Function.update s.cache key (some ⟨value, dirty⟩)
    deleted := if deleted then s.deleted.set key () else s.deleted.delete key
    unsortedCache := if dirty then s.unsortedCache.set key () else s.unsortedCache }

/-- `Get`. -/
def get [KVStore P I] (s : Store P) (key : GoString) : Outcome (Store P × Option GoString) := do
  assertValidKey key
  match s.cache key with
  | none => do
      let (parent, value) ← KVStore.get s.parent key
      pure (setCacheValue { s with parent := parent } key value false false, value)
  | some cacheValue => pure (s, cacheValue.value)

/-- `Set`; the value is not nil. -/
def set (s : Store P) (key value : GoString) : Outcome (Store P) := do
  assertValidKey key
  pure (setCacheValue s key (some value) false true)

/-- `Delete`. -/
def delete (s : Store P) (key : GoString) : Outcome (Store P) := do
  assertValidKey key
  pure (setCacheValue s key none true true)

/-! ## Dirty items -/

/-- `for i := n - 1; i >= 0; i-- { if stops(strL[i]) { return i + 1 } }; return 0`. -/
def scanDown (stops : GoString → Bool) (strL : List GoString) : Nat → Int
  | 0 => 0
  | i + 1 => if stops (strL.getD i []) then i + 1 else scanDown stops strL i

/-- The binary search of `findStartIndex`. Each round halves the range, so the length of the list is
fuel enough. -/
def searchStart (strL : List GoString) (startQ : GoString) : Nat → Int → Int → Int
  | 0, _, _ => -1
  | fuel + 1, left, right =>
      if left ≤ right then
        let mid := (left + right) / 2
        let midStr := strL.getD mid.toNat []
        if midStr = startQ then scanDown (· != midStr) strL mid.toNat
        else if midStr < startQ then searchStart strL startQ fuel (mid + 1) right
        else searchStart strL startQ fuel left (mid - 1)
      else if 0 ≤ left ∧ left < strL.length ∧ ¬strL.getD left.toNat [] < startQ then left
      else -1

/-- `findStartIndex`. -/
def findStartIndex (strL : List GoString) (startQ : GoString) : Int :=
  if strL.length = 0 then -1 else searchStart strL startQ (strL.length + 1) 0 (strL.length - 1)

/-- The binary search of `findEndIndex`. -/
def searchEnd (strL : List GoString) (endQ : GoString) : Nat → Int → Int → Int
  | 0, _, _ => -1
  | fuel + 1, left, right =>
      if left ≤ right then
        let mid := (left + right) / 2
        let midStr := strL.getD mid.toNat []
        if midStr = endQ then scanDown (fun str => decide (str < midStr)) strL mid.toNat
        else if midStr < endQ then searchEnd strL endQ fuel (mid + 1) right
        else searchEnd strL endQ fuel left (mid - 1)
      -- here the loop returns `i`, and `-1` at its end
      else scanDown (fun str => decide (str < endQ)) strL (right + 1).toNat - 1

/-- `findEndIndex`. -/
def findEndIndex (strL : List GoString) (endQ : GoString) : Int :=
  if strL.length = 0 then -1 else searchEnd strL endQ (strL.length + 1) 0 (strL.length - 1)

/-- `clearUnsortedCacheSubset`, for the keys in ascending order. A deleted key is entered with an
arbitrary value. -/
def clearUnsortedCacheSubset (s : Store P) (keys : List GoString) : Store P :=
  { s with
    unsortedCache :=
      if keys.length = s.unsortedCache.entries.length then .empty else s.unsortedCache.deleteAll keys
    sortedCache := keys.foldl
      (fun db key => db.set key (((s.cache key).bind (·.value)).getD [])) s.sortedCache }

/-- The unsorted keys between the two indices that the searches find. -/
def searchedKeys (strL : List GoString) (startStr endStr : GoString) : List GoString :=
  let startIndex := findStartIndex strL startStr
  let endIndex := findEndIndex strL endStr
  -- an index that was not found stands for the end of the list
  let endIndex := if endIndex < 0 then (strL.length : Int) - 1 else endIndex
  let startIndex := if startIndex < 0 then 0 else startIndex
  (strL.take (endIndex + 1).toNat).drop startIndex.toNat

/-- `dirtyItems`. -/
def dirtyItems (s : Store P) (start stop : Option GoString) : Store P :=
  let startStr := start.getD []
  let endStr := stop.getD []
  if endStr < startStr then s
  else
    let strL := s.unsortedCache.entries.map Prod.fst
    -- a short list is filtered; only a long one is searched
    if strL.length < 1024 then clearUnsortedCacheSubset s (strL.filter (isKeyInDomain start stop))
    else clearUnsortedCacheSubset s (searchedKeys strL startStr endStr)

/-! ## The iterator of a layer -/

/-- `memIterator`: the items of the `MemDB` still to come, and the key whose value was read last. -/
structure MemIterator where
  items : List (GoString × GoString)
  lastKey : Option GoString

/-- `newMemIterator`. `MemDB` refuses an empty bound. -/
def newMemIterator (start stop : Option GoString) (items : SortedMap GoString GoString) :
    Outcome MemIterator := do
  require (start ≠ some [] ∧ stop ≠ some []) (.panic (bytes "key cannot be empty"))
  pure ⟨items.select (isKeyInDomain start stop), none⟩

/-- `Value` is nil: the key is deleted, and it is not the key whose value was read last. -/
def hides (deleted : KeySet) (lastKey : Option GoString) (key : GoString) : Bool :=
  (deleted.get key).isSome && lastKey != some key

/-- `memIterator.Value`. -/
def MemIterator.value (deleted : KeySet) (mi : MemIterator) :
    Outcome (MemIterator × Option GoString) :=
  match mi.items with
  | [] => .error invalidIterator
  | (key, value) :: _ =>
      if hides deleted mi.lastKey key then .ok (mi, none)
      else .ok ({ mi with lastKey := some key }, some value)

/-- `Next` of the embedded iterator. -/
def MemIterator.next (mi : MemIterator) : Outcome MemIterator :=
  (orFail invalidIterator mi.items.head?).map fun _ => { mi with items := mi.items.tail }

/-- `Key` of the embedded iterator. -/
def MemIterator.key (mi : MemIterator) : Outcome GoString :=
  (orFail invalidIterator mi.items.head?).map Prod.fst

/-- `cacheMergeIterator`, ascending. -/
structure CacheMergeIterator (I : Type) where
  parent : I
  cache : MemIterator

/-- `skipCacheDeletes`. -/
def skipCacheDeletes (deleted : KeySet) (bound : Option GoString) :
    List (GoString × GoString) → Option GoString → MemIterator
  | [], lastKey => ⟨[], lastKey⟩
  | (key, value) :: rest, lastKey =>
      if hides deleted lastKey key then
        if bound.all fun bound => decide (key < bound) then skipCacheDeletes deleted bound rest lastKey
        else ⟨(key, value) :: rest, lastKey⟩
      else ⟨(key, value) :: rest, some key⟩

section Iterator

variable [KVStore P I]

/-- The loop of `skipUntilExistsOrInvalid`. A round that is not the last passes an item of the cache,
so one more than their number is fuel enough. -/
def skipLoop (s : Store P) : Nat → CacheMergeIterator I → Outcome (CacheMergeIterator I × Bool)
  | 0, it => .ok (it, false)
  | fuel + 1, it => do
      let (parent, parentValid) ← KVStore.valid s.parent it.parent
      if parentValid then
        match it.cache.items with
        | [] => pure (⟨parent, it.cache⟩, true)
        | (keyC, _) :: rest => do
            let (parent, keyP) ← KVStore.key s.parent parent
            if keyP < keyC then pure (⟨parent, it.cache⟩, true)
            else do
              let (cache, valueC) ← it.cache.value s.deleted
              match valueC with
              | some _ => pure (⟨parent, cache⟩, true)
              | none =>
                  -- the cache deletes the key, so the parent passes it too
                  if keyP = keyC then do
                    let parent ← KVStore.next s.parent parent
                    skipLoop s fuel ⟨parent, { cache with items := rest }⟩
                  else
                    skipLoop s fuel
                      ⟨parent, skipCacheDeletes s.deleted (some keyP) cache.items cache.lastKey⟩
      else
        let cache := skipCacheDeletes s.deleted none it.cache.items it.cache.lastKey
        pure (⟨parent, cache⟩, !cache.items.isEmpty)

/-- `skipUntilExistsOrInvalid`; this is also `Valid`. -/
def skipUntilExistsOrInvalid (s : Store P) (it : CacheMergeIterator I) :
    Outcome (CacheMergeIterator I × Bool) :=
  skipLoop s (it.cache.items.length + 1) it

/-- How `Next`, `Key` and `Value` start: skip, assert that the iterator is valid, and compare the two
current keys. A side that is at its end has the greater key. -/
def compareSides (s : Store P) (it : CacheMergeIterator I) :
    Outcome (CacheMergeIterator I × Ordering) := do
  let (it, _) ← skipUntilExistsOrInvalid s it
  -- `assertValid` skips once more
  let (it, valid) ← skipUntilExistsOrInvalid s it
  require (valid = true) (.panic (bytes "invalid cacheMergeIterator"))
  let (parent, parentValid) ← KVStore.valid s.parent it.parent
  if parentValid then
    match it.cache.items with
    | [] => pure (⟨parent, it.cache⟩, .lt)
    | (keyC, _) :: _ => do
        let (parent, keyP) ← KVStore.key s.parent parent
        pure (⟨parent, it.cache⟩, if keyP < keyC then .lt else if keyP = keyC then .eq else .gt)
  else pure (⟨parent, it.cache⟩, .gt)

/-- `cacheMergeIterator.Next`. -/
def next (s : Store P) (it : CacheMergeIterator I) : Outcome (CacheMergeIterator I) := do
  let (it, side) ← compareSides s it
  match side with
  | .lt => do
      let parent ← KVStore.next s.parent it.parent
      pure { it with parent := parent }
  | .eq => do
      let parent ← KVStore.next s.parent it.parent
      let cache ← it.cache.next
      pure ⟨parent, cache⟩
  | .gt => do
      let cache ← it.cache.next
      pure { it with cache := cache }

/-- `cacheMergeIterator.Key`. -/
def key (s : Store P) (it : CacheMergeIterator I) : Outcome (CacheMergeIterator I × GoString) := do
  let (it, side) ← compareSides s it
  match side with
  | .gt => do
      let key ← it.cache.key
      pure (it, key)
  | _ => do
      let (parent, key) ← KVStore.key s.parent it.parent
      pure ({ it with parent := parent }, key)

/-- `cacheMergeIterator.Value`. -/
def value (s : Store P) (it : CacheMergeIterator I) :
    Outcome (CacheMergeIterator I × Option GoString) := do
  let (it, side) ← compareSides s it
  match side with
  | .lt => do
      let (parent, value) ← KVStore.value s.parent it.parent
      pure ({ it with parent := parent }, value)
  | _ => do
      let (cache, value) ← it.cache.value s.deleted
      pure ({ it with cache := cache }, value)

/-- `iterator`. -/
def iterator (s : Store P) (start stop : Option GoString) :
    Outcome (Store P × CacheMergeIterator I) := do
  let (parentStore, parent) ← KVStore.iterator s.parent start stop
  let s := dirtyItems { s with parent := parentStore } start stop
  let cache ← newMemIterator start stop s.sortedCache
  pure (s, ⟨parent, cache⟩)

/-- A layer can be the parent of a layer. -/
instance : KVStore (Store P) (CacheMergeIterator I) where
  get := get
  iterator := iterator
  valid := skipUntilExistsOrInvalid
  next := next
  key := key
  value := value

end Iterator

end Layer

/-! ## The store of a transaction -/

section Gas

variable {S I : Type} [KVStore S I]

/-- `consumeSeekGas`: the gas meter reads the current key and value. -/
def consumeSeekGas (s : S) (it : I) : Outcome I := do
  let (it, valid) ← KVStore.valid s it
  if valid then do
    let (it, _) ← KVStore.key s it
    let (it, _) ← KVStore.value s it
    pure it
  else pure it

/-- `Iterator` of the gas store. -/
def gasIterator (s : S) (start stop : Option GoString) : Outcome (S × I) := do
  let (s, it) ← KVStore.iterator s start stop
  let it ← consumeSeekGas s it
  pure (s, it)

/-- `gasIterator.Next`. -/
def gasNext (s : S) (it : I) : Outcome I := do
  let it ← consumeSeekGas s it
  KVStore.next s it

/-- The loop of `PrefixEndBytes`, over the bytes from the last to the first. -/
def prefixEndLoop : List UInt8 → Option GoString
  | [] => none
  | b :: rest => if b ≠ 255 then some ((b + 1) :: rest).reverse else prefixEndLoop rest

/-- `PrefixEndBytes`. -/
def prefixEndBytes (root : GoString) : Option GoString := prefixEndLoop root.reverse

/-- `KVStorePrefixIterator`. -/
def prefixIterator (s : S) (root : GoString) : Outcome (S × I) :=
  gasIterator s (some root) (prefixEndBytes root)

end Gas

end EnergyChain.CacheKV
