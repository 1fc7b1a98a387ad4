import EnergyChain.Store.Layer

/-!
# The merge iterator of a layer

The iterator of a layer has still to visit what its cache iterator lays over its parent iterator
(`mergeRemaining`). An item of the cache iterator hides its key if the key is deleted, unless its value
was read last (`memView`).

`Valid`, `Key` and `Value` skip hidden items and read the value of a cache item that they stop at, which
changes nothing that is still to be visited (`skipLoop_spec`); `Next` passes one entry. So a layer keeps
the contract of its parent. After `Key`, the current key is not in the cache iterator or it is the key
whose value was read last; deleting it then changes nothing that is still to be visited either
(`mergeRemaining_delete`).
-/

set_option autoImplicit false

namespace EnergyChain.CacheKV

open EnergyChain.Go

/-! ## The cache iterator -/

section Cache

variable {d : KeySet} {mi : MemIterator} {k v : GoString} {rest : List (GoString × GoString)}
  {lastKey : Option GoString}

/-- What the cache iterator says about the keys to come. -/
def memView (d : KeySet) (mi : MemIterator) : List (GoString × Option GoString) :=
  mi.items.map fun item => (item.1, if hides d mi.lastKey item.1 then none else some item.2)

/-- The items ascend, and the key read last is not after the current one. -/
structure MemFits (mi : MemIterator) : Prop where
  ascending : Ascending mi.items
  last : ∀ {k}, mi.lastKey = some k → ∀ e ∈ mi.items, ¬e.1 < k

theorem MemFits.view_ascending (h : MemFits mi) : Ascending (memView d mi) :=
  List.pairwise_map.2 h.ascending

theorem MemFits.tail (h : MemFits ⟨(k, v) :: rest, lastKey⟩) : MemFits ⟨rest, lastKey⟩ where
  ascending := ascending_of_cons h.ascending
  last hk e he := h.last hk e (List.mem_cons_of_mem _ he)

theorem MemFits.touch (h : MemFits ⟨(k, v) :: rest, lastKey⟩) :
    MemFits ⟨(k, v) :: rest, some k⟩ where
  ascending := h.ascending
  last := by
    intro k' hk' e he
    cases hk'
    rcases List.mem_cons.1 he with rfl | he
    · exact lt_irrefl _
    · exact not_lt.2 (lt_of_ascending h.ascending e he).le

/-- A key before the current item is before all that the iterator says. -/
theorem MemFits.lt_view (h : MemFits ⟨(k, v) :: rest, lastKey⟩) {k' : GoString} (hlt : k' < k) :
    ∀ e ∈ memView d ⟨(k, v) :: rest, lastKey⟩, k' < e.1 := by
  intro e he
  obtain ⟨item, hitem, rfl⟩ := List.mem_map.1 he
  rcases List.mem_cons.1 hitem with rfl | hitem
  · exact hlt
  · exact hlt.trans (lt_of_ascending h.ascending item hitem)

theorem memView_of_hides (hhides : hides d lastKey k = true) :
    memView d ⟨(k, v) :: rest, lastKey⟩ = (k, none) :: memView d ⟨rest, lastKey⟩ := by
  rw [memView, List.map_cons, hhides, if_pos rfl]
  rfl

theorem hides_some_self (d : KeySet) (k : GoString) : hides d (some k) k = false := by
  simp [hides]

/-- Reading the value of the current item changes nothing that the iterator says. -/
theorem memView_touch (h : MemFits ⟨(k, v) :: rest, lastKey⟩) (hhides : hides d lastKey k = false) :
    memView d ⟨(k, v) :: rest, some k⟩ = memView d ⟨(k, v) :: rest, lastKey⟩ := by
  refine List.map_congr_left fun e he => ?_
  have hsame : hides d (some k) e.1 = hides d lastKey e.1 := by
    rcases List.mem_cons.1 he with rfl | he
    · rw [hides_some_self, hhides]
    · -- a later key is neither the one read last nor the current one
      have hlt := lt_of_ascending h.ascending e he
      have hlast : (lastKey != some e.1) = true :=
        bne_iff_ne.2 fun heq => h.last heq (k, v) List.mem_cons_self hlt
      have hcurrent : (some k != some e.1) = true := by simpa using hlt.ne
      rw [hides, hides, hlast, hcurrent]
  rw [hsame]

theorem value_of_hides (h : hides d lastKey k = true) :
    MemIterator.value d ⟨(k, v) :: rest, lastKey⟩ = .ok (⟨(k, v) :: rest, lastKey⟩, none) := if_pos h

theorem value_of_not_hides (h : hides d lastKey k = false) :
    MemIterator.value d ⟨(k, v) :: rest, lastKey⟩ = .ok (⟨(k, v) :: rest, some k⟩, some v) :=
  if_neg (Bool.eq_false_iff.1 h)

/-- Deleting a key that is not in the iterator, or whose value was read last, changes nothing that the
iterator says. -/
theorem memView_delete (h : ∀ e ∈ mi.items, e.1 = k → mi.lastKey = some k) :
    memView (d.set k ()) mi = memView d mi := by
  refine List.map_congr_left fun e he => ?_
  have hsame : hides (d.set k ()) mi.lastKey e.1 = hides d mi.lastKey e.1 := by
    by_cases hk : e.1 = k
    · rw [hk, h e he hk, hides_some_self, hides_some_self]
    · simp [hides, SortedMap.get_set_of_ne _ _ hk]
  rw [hsame]

/-- `skipCacheDeletes` passes hidden items in front of the parent's. With no bound it stops at an item
whose value it has read. -/
theorem skipCacheDeletes_spec (d : KeySet) (lower : List (GoString × GoString))
    (bound : Option GoString)
    (hbound : ∀ k, bound.all (fun bound => decide (k < bound)) = true → ∀ e ∈ lower, k < e.1)
    (items : List (GoString × GoString)) (h : MemFits ⟨items, lastKey⟩) :
    MemFits (skipCacheDeletes d bound items lastKey) ∧
      overlay lower (memView d (skipCacheDeletes d bound items lastKey)) =
        overlay lower (memView d ⟨items, lastKey⟩) ∧
      (skipCacheDeletes d bound items lastKey).items.length ≤ items.length ∧
      (bound = none → ∀ k v rest, (skipCacheDeletes d bound items lastKey).items = (k, v) :: rest →
        (skipCacheDeletes d bound items lastKey).lastKey = some k) := by
  induction items with
  | nil => exact ⟨h, rfl, le_rfl, fun _ _ _ _ heq => by cases heq⟩
  | cons item rest ih =>
      obtain ⟨k, v⟩ := item
      rw [skipCacheDeletes]
      split
      · rename_i hhides
        split
        · rename_i hpasses
          obtain ⟨hfits, hoverlay, hlength, hlast⟩ := ih h.tail
          refine ⟨hfits, hoverlay.trans ?_, hlength.trans (Nat.le_succ _), hlast⟩
          rw [memView_of_hides hhides, overlay_upper_hidden (hbound k hpasses)]
        · rename_i hstays
          refine ⟨h, rfl, le_rfl, ?_⟩
          rintro rfl
          exact absurd rfl hstays
      · rename_i hhides
        refine ⟨h.touch, ?_, le_rfl, ?_⟩
        · rw [memView_touch h (Bool.eq_false_iff.2 hhides)]
        · intro _ k' v' rest' heq
          cases heq
          rfl

theorem length_skipCacheDeletes_lt {bound : GoString} (hhides : hides d lastKey k = true)
    (hlt : k < bound) (h : MemFits ⟨(k, v) :: rest, lastKey⟩) :
    (skipCacheDeletes d (some bound) ((k, v) :: rest) lastKey).items.length <
      ((k, v) :: rest).length := by
  have hpasses : (some bound).all (fun bound => decide (k < bound)) = true := by simpa using hlt
  rw [skipCacheDeletes, if_pos hhides, if_pos hpasses]
  obtain ⟨-, -, hlength, -⟩ := skipCacheDeletes_spec d [] (some bound)
    (fun _ _ e he => by cases he) rest h.tail
  exact Nat.lt_succ_of_le hlength

end Cache

/-! ## Skipping -/

section Merge

variable {P I : Type} [KVStore P I] [Contents P I] {s : Store P} {it : CacheMergeIterator I}

/-- The invariant of the iterator of a layer. -/
structure MergeFits (s : Store P) (it : CacheMergeIterator I) : Prop where
  parent : Contents.Fits s.parent it.parent
  cache : MemFits it.cache

/-- The entries that the iterator of a layer has still to visit. -/
def mergeRemaining (s : Store P) (it : CacheMergeIterator I) : List (GoString × GoString) :=
  overlay (Contents.remaining s.parent it.parent) (memView s.deleted it.cache)

/-- The current entry is the parent's, or it is a cache item whose value was read last. -/
def Settled (s : Store P) (it : CacheMergeIterator I) : Prop :=
  ∀ k v rest, it.cache.items = (k, v) :: rest → it.cache.lastKey = some k ∨
    ∃ e lower, Contents.remaining s.parent it.parent = e :: lower ∧ e.1 < k

/-- A settled iterator is at its end exactly if its cache iterator is, once its parent is. -/
theorem isEmpty_of_parent_nil {d : KeySet} {mi : MemIterator}
    (hlast : ∀ k v rest, mi.items = (k, v) :: rest → mi.lastKey = some k) :
    (overlay ([] : List (GoString × GoString)) (memView d mi)).isEmpty = mi.items.isEmpty := by
  obtain ⟨items, lastKey⟩ := mi
  cases items with
  | nil => simp [memView]
  | cons item rest =>
      obtain ⟨k, v⟩ := item
      have hk : lastKey = some k := hlast k v rest rfl
      subst hk
      rw [memView, List.map_cons, hides_some_self]
      simp [overlay_upper]

/-- A live cache item that is not after the parent's entry is the current entry. -/
theorem isEmpty_of_live {d : KeySet} {k v : GoString} {rest : List (GoString × GoString)}
    {e : GoString × GoString} {lower : List (GoString × GoString)} (hascending : Ascending (e :: lower))
    (hlt : ¬e.1 < k) :
    (overlay (e :: lower) (memView d ⟨(k, v) :: rest, some k⟩)).isEmpty = false := by
  obtain ⟨k', v'⟩ := e
  rw [memView, List.map_cons, hides_some_self, if_neg Bool.false_ne_true]
  by_cases heq : k' = k
  · subst heq
    rw [overlay_both]
    rfl
  · have hgt : k < k' := lt_of_le_of_ne (not_lt.1 hlt) (Ne.symm heq)
    rw [overlay_upper (lt_of_lt_head hascending hgt)]
    rfl

/-- The iterator has moved, and has still the same entries to visit. -/
structure Moved (s : Store P) (it it' : CacheMergeIterator I) : Prop where
  fits : MergeFits s it'
  remaining : mergeRemaining s it' = mergeRemaining s it

/-- At the end of the parent, hidden items of the cache are passed. -/
theorem skipLoop_of_parent_nil (fuel : Nat) (h : MergeFits s it)
    (hlower : Contents.remaining s.parent it.parent = []) :
    ∃ it', skipLoop s (fuel + 1) it = .ok (it', !(mergeRemaining s it).isEmpty) ∧ Moved s it it' ∧
      Settled s it' := by
  obtain ⟨pit, ⟨items, lastKey⟩⟩ := it
  obtain ⟨pit₁, hvalid, hfits₁, hremaining₁⟩ := Contents.valid_spec h.parent
  obtain ⟨hcache, hoverlay, -, hlast⟩ := skipCacheDeletes_spec s.deleted [] none
    (fun _ _ e he => by cases he) items h.cache
  rw [hlower] at hvalid hremaining₁
  refine ⟨⟨pit₁, skipCacheDeletes s.deleted none items lastKey⟩, ?_, ⟨⟨hfits₁, hcache⟩, ?_⟩, ?_⟩
  · rw [skipLoop, hvalid, ok_bind, mergeRemaining, hlower, ← hoverlay,
      isEmpty_of_parent_nil (hlast rfl)]
    rfl
  · rw [mergeRemaining, mergeRemaining, hremaining₁, hlower, hoverlay]
  · intro k v rest hitems
    exact Or.inl (hlast rfl k v rest hitems)

/-- With an entry of the parent, a round ends at a settled iterator, or it passes a hidden item of the
cache and the loop goes on. -/
theorem skipLoop_of_parent_cons (fuel : Nat) (h : MergeFits s it) {e : GoString × GoString}
    {lower : List (GoString × GoString)} (hlower : Contents.remaining s.parent it.parent = e :: lower) :
    (∃ it', skipLoop s (fuel + 1) it = .ok (it', !(mergeRemaining s it).isEmpty) ∧ Moved s it it' ∧
        Settled s it') ∨
      ∃ it', skipLoop s (fuel + 1) it = skipLoop s fuel it' ∧ Moved s it it' ∧
        it'.cache.items.length < it.cache.items.length := by
  obtain ⟨pit, ⟨items, lastKey⟩⟩ := it
  obtain ⟨pit₁, hvalid, hfits₁, hremaining₁⟩ := Contents.valid_spec h.parent
  rw [hlower] at hvalid hremaining₁
  have hnonempty : (!(e :: lower).isEmpty) = true := rfl
  have hmerge : mergeRemaining s ⟨pit, ⟨items, lastKey⟩⟩ =
      overlay (e :: lower) (memView s.deleted ⟨items, lastKey⟩) := by
    rw [mergeRemaining, hlower]
  rw [skipLoop, hvalid, ok_bind, hmerge]
  dsimp only
  rw [hnonempty, if_pos rfl]
  cases items with
  | nil =>
      refine Or.inl ⟨⟨pit₁, ⟨[], lastKey⟩⟩, by simp [memView], ⟨⟨hfits₁, h.cache⟩, ?_⟩, ?_⟩
      · rw [hmerge, mergeRemaining, hremaining₁]
      · intro k v rest hitems
        cases hitems
  | cons item rest =>
      obtain ⟨k, v⟩ := item
      obtain ⟨pit₂, hkey, hfits₂, hremaining₂⟩ := Contents.key_spec hfits₁ hremaining₁
      have hascending : Ascending (e :: lower) := hremaining₂ ▸ Contents.ascending hfits₂
      dsimp only
      rw [hkey, ok_bind]
      dsimp only
      by_cases hlt : e.1 < k
      · -- the parent's entry comes first
        rw [if_pos hlt]
        refine Or.inl ⟨⟨pit₂, ⟨(k, v) :: rest, lastKey⟩⟩, ?_, ⟨⟨hfits₂, h.cache⟩, ?_⟩, ?_⟩
        · obtain ⟨k', v'⟩ := e
          rw [overlay_lower (h.cache.lt_view hlt)]
          rfl
        · rw [hmerge, mergeRemaining, hremaining₂]
        · intro k' v' rest' hitems
          cases hitems
          exact Or.inr ⟨e, lower, hremaining₂, hlt⟩
      rw [if_neg hlt]
      cases hhides : hides s.deleted lastKey k with
      | false =>
          -- the cache item is live, and its value is read
          rw [value_of_not_hides hhides, ok_bind]
          refine Or.inl ⟨⟨pit₂, ⟨(k, v) :: rest, some k⟩⟩, ?_, ⟨⟨hfits₂, h.cache.touch⟩, ?_⟩, ?_⟩
          · rw [← memView_touch h.cache hhides, isEmpty_of_live hascending hlt]
            rfl
          · rw [hmerge, mergeRemaining, hremaining₂, memView_touch h.cache hhides]
          · intro k' v' rest' hitems
            cases hitems
            exact Or.inl rfl
      | true =>
          rw [value_of_hides hhides, ok_bind]
          dsimp only
          by_cases heq : e.1 = k
          · -- the cache item hides the parent's entry, and both are passed
            rw [if_pos heq]
            obtain ⟨pit₃, hnext, hfits₃, hremaining₃⟩ := Contents.next_spec hfits₂ hremaining₂
            rw [hnext, ok_bind]
            refine Or.inr ⟨⟨pit₃, ⟨rest, lastKey⟩⟩, rfl, ⟨⟨hfits₃, h.cache.tail⟩, ?_⟩,
              Nat.lt_succ_self _⟩
            obtain ⟨k', v'⟩ := e
            cases heq
            rw [hmerge, mergeRemaining, hremaining₃, memView_of_hides hhides, overlay_both_hidden]
          · -- the cache item hides nothing
            rw [if_neg heq]
            have hgt : k < e.1 := lt_of_le_of_ne (not_lt.1 hlt) (Ne.symm heq)
            obtain ⟨hcache, hoverlay, -, -⟩ := skipCacheDeletes_spec s.deleted (e :: lower)
              (some e.1) (fun k' hk' => lt_of_lt_head hascending (by simpa using hk')) _ h.cache
            refine Or.inr ⟨⟨pit₂, skipCacheDeletes s.deleted (some e.1) ((k, v) :: rest) lastKey⟩, rfl,
              ⟨⟨hfits₂, hcache⟩, ?_⟩, length_skipCacheDeletes_lt hhides hgt h.cache⟩
            rw [hmerge, mergeRemaining, hremaining₂, hoverlay]

/-- The loop of `skipUntilExistsOrInvalid` settles the iterator, and changes nothing that is still to be
visited. -/
theorem skipLoop_spec (fuel : Nat) (h : MergeFits s it) (hfuel : it.cache.items.length < fuel) :
    ∃ it', skipLoop s fuel it = .ok (it', !(mergeRemaining s it).isEmpty) ∧ Moved s it it' ∧
      Settled s it' := by
  induction fuel generalizing it with
  | zero => omega
  | succ fuel ih =>
      cases hlower : Contents.remaining s.parent it.parent with
      | nil => exact skipLoop_of_parent_nil fuel h hlower
      | cons e lower =>
          rcases skipLoop_of_parent_cons fuel h hlower with hdone | ⟨it₁, hround, hmoved, hshorter⟩
          · exact hdone
          · obtain ⟨it', hloop, hmoved', hsettled⟩ := ih hmoved.fits (by omega)
            refine ⟨it', ?_, ⟨hmoved'.fits, hmoved'.remaining.trans hmoved.remaining⟩, hsettled⟩
            rw [hround, hloop, hmoved.remaining]

/-- `Valid`. -/
theorem skipUntilExistsOrInvalid_spec (h : MergeFits s it) :
    ∃ it', skipUntilExistsOrInvalid s it = .ok (it', !(mergeRemaining s it).isEmpty) ∧
      Moved s it it' ∧ Settled s it' :=
  skipLoop_spec _ h (Nat.lt_succ_self _)

/-! ## The current entry -/

/-- Where the current entry `e` of an iterator comes from, and what comes after it. -/
inductive Current (s : Store P) (it : CacheMergeIterator I) (e : GoString × GoString)
    (l : List (GoString × GoString)) : Ordering → Prop where
  | parent {lower} (hparent : Contents.remaining s.parent it.parent = e :: lower)
      (hcache : ∀ e' ∈ memView s.deleted it.cache, e.1 < e'.1)
      (hrest : overlay lower (memView s.deleted it.cache) = l) : Current s it e l .lt
  | both {v lower rest} (hparent : Contents.remaining s.parent it.parent = (e.1, v) :: lower)
      (hcache : it.cache = ⟨e :: rest, some e.1⟩)
      (hrest : overlay lower (memView s.deleted ⟨rest, some e.1⟩) = l) : Current s it e l .eq
  | cache {rest} (hparent : ∀ e' ∈ Contents.remaining s.parent it.parent, e.1 < e'.1)
      (hcache : it.cache = ⟨e :: rest, some e.1⟩)
      (hrest : overlay (Contents.remaining s.parent it.parent)
        (memView s.deleted ⟨rest, some e.1⟩) = l) : Current s it e l .gt

variable {e : GoString × GoString} {l : List (GoString × GoString)} {side : Ordering}

theorem memView_cons_self (d : KeySet) (e : GoString × GoString) (rest : List (GoString × GoString)) :
    memView d ⟨e :: rest, some e.1⟩ = (e.1, some e.2) :: memView d ⟨rest, some e.1⟩ := by
  rw [memView, List.map_cons, hides_some_self, if_neg Bool.false_ne_true]
  rfl

theorem Current.remaining (h : Current s it e l side) : mergeRemaining s it = e :: l := by
  obtain ⟨k, v⟩ := e
  cases h with
  | parent hparent hcache hrest => rw [mergeRemaining, hparent, overlay_lower hcache, hrest]
  | both hparent hcache hrest =>
      rw [mergeRemaining, hparent, hcache, memView_cons_self, overlay_both, hrest]
  | cache hparent hcache hrest =>
      rw [mergeRemaining, hcache, memView_cons_self, overlay_upper hparent, hrest]

/-- The current key is not in the cache iterator, or its value was read last. -/
theorem Current.touched (h : Current s it e l side) :
    ∀ e' ∈ it.cache.items, e'.1 = e.1 → it.cache.lastKey = some e.1 := by
  intro e' he' hk
  cases h with
  | parent hparent hcache hrest =>
      have hlt := hcache _ (List.mem_map_of_mem he')
      exact absurd hk (ne_of_gt hlt)
  | both hparent hcache hrest => rw [hcache]
  | cache hparent hcache hrest => rw [hcache]

/-- A settled iterator stands on the smaller of the two current keys, and on both if they are equal. -/
theorem current_of_settled {k v : GoString} {rest : List (GoString × GoString)} (h : MergeFits s it)
    (hsettled : Settled s it) (hl : mergeRemaining s it = e :: l) (hitems : it.cache.items = (k, v) :: rest)
    {ep : GoString × GoString} {lower : List (GoString × GoString)}
    (hlower : Contents.remaining s.parent it.parent = ep :: lower) :
    Current s it e l (if ep.1 < k then .lt else if ep.1 = k then .eq else .gt) := by
  obtain ⟨pit, ⟨items, lastKey⟩⟩ := it
  cases hitems
  have hascending : Ascending (ep :: lower) := hlower ▸ Contents.ascending h.parent
  rw [mergeRemaining, hlower] at hl
  by_cases hlt : ep.1 < k
  · rw [if_pos hlt]
    have hall : ∀ e' ∈ memView s.deleted ⟨(k, v) :: rest, lastKey⟩, ep.1 < e'.1 := h.cache.lt_view hlt
    obtain ⟨kp, vp⟩ := ep
    rw [overlay_lower hall] at hl
    obtain ⟨rfl, hrest⟩ := List.cons.inj hl
    exact .parent hlower hall hrest
  · rw [if_neg hlt]
    -- the cache item is not after the parent's entry, so its value was read
    have hlast : lastKey = some k := by
      rcases hsettled k v rest rfl with hlast | ⟨e', lower', hremaining, hlt'⟩
      · exact hlast
      · rw [hlower] at hremaining
        cases hremaining
        exact absurd hlt' hlt
    subst hlast
    rw [memView_cons_self s.deleted (k, v) rest] at hl
    by_cases heq : ep.1 = k
    · rw [if_pos heq]
      obtain ⟨kp, vp⟩ := ep
      cases heq
      rw [overlay_both] at hl
      obtain ⟨rfl, hrest⟩ := List.cons.inj hl
      exact .both hlower rfl hrest
    · rw [if_neg heq]
      have hgt : k < ep.1 := lt_of_le_of_ne (not_lt.1 hlt) (Ne.symm heq)
      have hall : ∀ e' ∈ ep :: lower, k < e'.1 := lt_of_lt_head hascending hgt
      rw [overlay_upper hall] at hl
      obtain ⟨rfl, hrest⟩ := List.cons.inj hl
      exact .cache (by rw [hlower]; exact hall) rfl (by rw [hlower]; exact hrest)

/-- The same at the end of the parent. -/
theorem current_of_parent_nil (hsettled : Settled s it) (hl : mergeRemaining s it = e :: l)
    (hlower : Contents.remaining s.parent it.parent = []) : Current s it e l .gt := by
  obtain ⟨pit, ⟨items, lastKey⟩⟩ := it
  rw [mergeRemaining, hlower] at hl
  cases items with
  | nil => simp [memView] at hl
  | cons item rest =>
      obtain ⟨k, v⟩ := item
      have hlast : lastKey = some k := by
        rcases hsettled k v rest rfl with hlast | ⟨e', lower', hremaining, -⟩
        · exact hlast
        · rw [hlower] at hremaining
          cases hremaining
      subst hlast
      rw [memView_cons_self s.deleted (k, v) rest, overlay_upper (by simp)] at hl
      obtain ⟨rfl, hrest⟩ := List.cons.inj hl
      exact .cache (by simp [hlower]) rfl (by rw [hlower]; exact hrest)

/-- What is settled stays so when the parent iterator has the same entries to visit. -/
theorem Settled.congr {cache : MemIterator} {pit pit' : I} (h : Settled s ⟨pit, cache⟩)
    (hremaining : Contents.remaining s.parent pit' = Contents.remaining s.parent pit) :
    Settled s ⟨pit', cache⟩ := by
  intro k v rest hitems
  rw [hremaining]
  exact h k v rest hitems

/-- `Next`, `Key` and `Value` find out where the current entry comes from. -/
theorem compareSides_spec (h : MergeFits s it) (hl : mergeRemaining s it = e :: l) :
    ∃ it' side, compareSides s it = .ok (it', side) ∧ MergeFits s it' ∧ Current s it' e l side := by
  obtain ⟨it₁, hskip₁, ⟨hfits₁, hremaining₁⟩, -⟩ := skipUntilExistsOrInvalid_spec h
  obtain ⟨⟨pit, cache⟩, hskip₂, ⟨hfits₂, hremaining₂⟩, hsettled⟩ :=
    skipUntilExistsOrInvalid_spec hfits₁
  rw [hremaining₁, hl] at hskip₂ hremaining₂
  have hnonempty : (!(e :: l).isEmpty) = true := rfl
  obtain ⟨pit₁, hvalid, hpfits₁, hlower₁⟩ := Contents.valid_spec hfits₂.parent
  dsimp only at hvalid hlower₁
  unfold compareSides
  rw [hskip₁, ok_bind]
  dsimp only
  rw [hskip₂, ok_bind]
  dsimp only
  rw [require_bind_of hnonempty, hvalid, ok_bind]
  dsimp only
  have hremaining' : ∀ {pit'}, Contents.remaining s.parent pit' = Contents.remaining s.parent pit →
      mergeRemaining s ⟨pit', cache⟩ = e :: l := by
    intro pit' hpit'
    rw [mergeRemaining, hpit']
    exact hremaining₂
  cases hlower : Contents.remaining s.parent pit with
  | nil =>
      refine ⟨⟨pit₁, cache⟩, .gt, rfl, ⟨hpfits₁, hfits₂.cache⟩, ?_⟩
      exact current_of_parent_nil (hsettled.congr hlower₁) (hremaining' hlower₁)
        (hlower₁.trans hlower)
  | cons ep lower =>
      have hvalid' : (!(ep :: lower).isEmpty) = true := rfl
      rw [hvalid', if_pos rfl]
      cases hitems : cache.items with
      | nil =>
          refine ⟨⟨pit₁, cache⟩, .lt, rfl, ⟨hpfits₁, hfits₂.cache⟩, ?_⟩
          have hview : memView s.deleted cache = [] := by rw [memView, hitems, List.map_nil]
          have hl' := hremaining' hlower₁
          rw [mergeRemaining, hlower₁, hlower, hview, overlay_nil] at hl'
          obtain ⟨rfl, rfl⟩ := List.cons.inj hl'
          exact .parent (hlower₁.trans hlower) (by simp [hview]) (by simp [hview])
      | cons item rest =>
          obtain ⟨k, v⟩ := item
          obtain ⟨pit₂, hkey, hpfits₂, hlower₂⟩ :=
            Contents.key_spec hpfits₁ (hlower₁.trans hlower)
          have hlower₂' : Contents.remaining s.parent pit₂ = Contents.remaining s.parent pit :=
            hlower₂.trans hlower.symm
          dsimp only
          rw [hkey, ok_bind]
          have hfits : MergeFits s ⟨pit₂, cache⟩ := ⟨hpfits₂, hfits₂.cache⟩
          refine ⟨⟨pit₂, cache⟩, _, rfl, hfits, ?_⟩
          exact current_of_settled hfits (hsettled.congr hlower₂') (hremaining' hlower₂') hitems
            hlower₂

/-! ## The methods of the iterator -/

/-- `Next` passes the current entry. -/
theorem next_spec (h : MergeFits s it) (hl : mergeRemaining s it = e :: l) :
    ∃ it', next s it = .ok it' ∧ MergeFits s it' ∧ mergeRemaining s it' = l := by
  obtain ⟨⟨pit, cache⟩, side, hsides, hfits, hcurrent⟩ := compareSides_spec h hl
  unfold next
  rw [hsides, ok_bind]
  cases hcurrent with
  | parent hparent hcache hrest =>
      obtain ⟨pit', hnext, hpfits, hremaining⟩ := Contents.next_spec hfits.parent hparent
      refine ⟨⟨pit', cache⟩, ?_, ⟨hpfits, hfits.cache⟩, ?_⟩
      · dsimp only at hnext ⊢
        rw [hnext]
        rfl
      · rw [mergeRemaining, hremaining]
        exact hrest
  | both hparent hcache hrest =>
      rename_i v lower rest
      obtain ⟨pit', hnext, hpfits, hremaining⟩ := Contents.next_spec hfits.parent hparent
      cases hcache
      refine ⟨⟨pit', ⟨rest, some e.1⟩⟩, ?_, ⟨hpfits, hfits.cache.tail⟩, ?_⟩
      · dsimp only at hnext ⊢
        rw [hnext]
        rfl
      · rw [mergeRemaining, hremaining]
        exact hrest
  | cache hparent hcache hrest =>
      rename_i rest
      cases hcache
      exact ⟨⟨pit, ⟨rest, some e.1⟩⟩, rfl, ⟨hfits.parent, hfits.cache.tail⟩, hrest⟩

/-- `Key` returns the current key, which is then not in the cache iterator, or the key whose value was
read last. -/
theorem key_touched (h : MergeFits s it) (hl : mergeRemaining s it = e :: l) :
    ∃ it', key s it = .ok (it', e.1) ∧ MergeFits s it' ∧ mergeRemaining s it' = e :: l ∧
      ∀ e' ∈ it'.cache.items, e'.1 = e.1 → it'.cache.lastKey = some e.1 := by
  obtain ⟨⟨pit, cache⟩, side, hsides, hfits, hcurrent⟩ := compareSides_spec h hl
  have hremaining := hcurrent.remaining
  have htouched := hcurrent.touched
  -- the parent iterator, once its key was read
  have hparentKey : ∀ {v lower}, Contents.remaining s.parent pit = (e.1, v) :: lower →
      ∃ pit', KVStore.key s.parent pit = .ok (pit', e.1) ∧ MergeFits s ⟨pit', cache⟩ ∧
        mergeRemaining s ⟨pit', cache⟩ = e :: l := by
    intro v lower hlower
    obtain ⟨pit', hkey, hpfits, hremaining'⟩ := Contents.key_spec hfits.parent hlower
    refine ⟨pit', hkey, ⟨hpfits, hfits.cache⟩, ?_⟩
    rw [← hremaining, mergeRemaining, mergeRemaining, hremaining', hlower]
  unfold key
  rw [hsides, ok_bind]
  cases hcurrent with
  | parent hparent hcache hrest =>
      obtain ⟨pit', hkey, hfits', hremaining'⟩ := hparentKey hparent
      exact ⟨⟨pit', cache⟩, by simp [hkey], hfits', hremaining', htouched⟩
  | both hparent hcache hrest =>
      obtain ⟨pit', hkey, hfits', hremaining'⟩ := hparentKey hparent
      exact ⟨⟨pit', cache⟩, by simp [hkey], hfits', hremaining', htouched⟩
  | cache hparent hcache hrest =>
      cases hcache
      exact ⟨_, rfl, hfits, hremaining, htouched⟩

/-- `Value` returns the current value. -/
theorem value_spec (h : MergeFits s it) (hl : mergeRemaining s it = e :: l) :
    ∃ it', value s it = .ok (it', some e.2) ∧ MergeFits s it' ∧ mergeRemaining s it' = e :: l := by
  obtain ⟨⟨pit, cache⟩, side, hsides, hfits, hcurrent⟩ := compareSides_spec h hl
  have hremaining := hcurrent.remaining
  -- a cache item whose value was read is read again
  have hcacheValue : ∀ rest, MemIterator.value s.deleted ⟨e :: rest, some e.1⟩ =
      .ok (⟨e :: rest, some e.1⟩, some e.2) := fun rest => value_of_not_hides (hides_some_self _ _)
  unfold value
  rw [hsides, ok_bind]
  cases hcurrent with
  | parent hparent hcache hrest =>
      obtain ⟨pit', hvalue, hpfits, hremaining'⟩ := Contents.value_spec hfits.parent hparent
      refine ⟨⟨pit', cache⟩, ?_, ⟨hpfits, hfits.cache⟩, ?_⟩
      · dsimp only at hvalue ⊢
        rw [hvalue]
        rfl
      · rw [← hremaining, mergeRemaining, mergeRemaining, hremaining', hparent]
  | both hparent hcache hrest =>
      cases hcache
      exact ⟨_, by simp [hcacheValue], hfits, hremaining⟩
  | cache hparent hcache hrest =>
      cases hcache
      exact ⟨_, by simp [hcacheValue], hfits, hremaining⟩

/-- Deleting the current key under an open iterator changes nothing that it has still to visit. -/
theorem mergeRemaining_delete {k : GoString}
    (htouched : ∀ e' ∈ it.cache.items, e'.1 = k → it.cache.lastKey = some k) :
    mergeRemaining (setCacheValue s k none true true) it = mergeRemaining s it := by
  rw [mergeRemaining, mergeRemaining, ← memView_delete (d := s.deleted) htouched]
  rfl

/-- A new cache iterator has the dirty keys of its range. -/
theorem mem_memView_iff {start stop : Option GoString} (h : Filed s)
    (hrange : Covered start stop ∨ NoneUnsorted s start stop) {k : GoString} {o : Option GoString} :
    (k, o) ∈ memView s.deleted
        ⟨(dirtyItems s start stop).sortedCache.select (isKeyInDomain start stop), none⟩ ↔
      isKeyInDomain start stop k = true ∧ s.cache k = some ⟨o, true⟩ := by
  have hhides : hides s.deleted none k = true ↔ s.cache k = some ⟨none, true⟩ := by
    rw [← h.deleted, hides]
    cases s.deleted.get k <;> simp
  have hmem : (k, o) ∈ memView s.deleted
        ⟨(dirtyItems s start stop).sortedCache.select (isKeyInDomain start stop), none⟩ ↔
      ∃ w, (isKeyInDomain start stop k = true ∧
        (dirtyItems s start stop).sortedCache.get k = some w) ∧
        (if hides s.deleted none k then none else some w) = o := by
    simp only [memView, List.mem_map, Prod.exists, Prod.mk.injEq, SortedMap.mem_select]
    constructor
    · rintro ⟨k', w, hw, rfl, ho⟩
      exact ⟨w, hw, ho⟩
    · rintro ⟨w, hw, ho⟩
      exact ⟨k, w, hw, rfl, ho⟩
  rw [hmem]
  constructor
  · rintro ⟨w, ⟨hdomain, hget⟩, rfl⟩
    obtain ⟨v, hv, rfl⟩ := (get_sortedCache_iff h hrange hdomain).1 hget
    refine ⟨hdomain, ?_⟩
    cases v with
    | none => rw [if_pos (hhides.2 hv), hv]
    | some x =>
        have hlive : ¬hides s.deleted none k = true := by simp [hhides, hv]
        rw [if_neg hlive, hv]
        rfl
  · rintro ⟨hdomain, hcache⟩
    refine ⟨o.getD [], ⟨hdomain, (get_sortedCache_iff h hrange hdomain).2 ⟨o, hcache, rfl⟩⟩, ?_⟩
    cases o with
    | none => exact if_pos (hhides.2 hcache)
    | some x =>
        have hlive : ¬hides s.deleted none k = true := by simp [hhides, hcache]
        exact if_neg hlive

/-- What a new iterator has to visit are the values of the layer in the range. -/
theorem mem_mergeRemaining_iff {start stop : Option GoString} {pit : I} (h : Filed s)
    (hrange : Covered start stop ∨ NoneUnsorted s start stop) (hfits : Contents.Fits s.parent pit)
    (hvisits : ∀ {k v}, (k, v) ∈ Contents.remaining s.parent pit ↔
      isKeyInDomain start stop k = true ∧ Contents.lookup s.parent k = some v) {k v : GoString} :
    (k, v) ∈ mergeRemaining (dirtyItems s start stop) ⟨pit,
        ⟨(dirtyItems s start stop).sortedCache.select (isKeyInDomain start stop), none⟩⟩ ↔
      isKeyInDomain start stop k = true ∧ layerLookup s k = some v := by
  have hcache : MemFits
      ⟨(dirtyItems s start stop).sortedCache.select (isKeyInDomain start stop), none⟩ :=
    ⟨SortedMap.select_sorted _ _, fun hk => by cases hk⟩
  rw [mergeRemaining, parent_dirtyItems, deleted_dirtyItems,
    mem_overlay (Contents.ascending hfits) hcache.view_ascending, hvisits,
    mem_memView_iff h hrange]
  simp only [mem_memView_iff h hrange]
  unfold layerLookup
  by_cases hdomain : isKeyInDomain start stop k = true
  · cases hk : s.cache k with
    | none => simp [hdomain]
    | some cacheValue =>
        obtain ⟨x, dirty⟩ := cacheValue
        cases dirty with
        | true => simp [hdomain]
        | false =>
            -- a clean value is that of the parent
            have hclean := h.clean hk
            simp [hdomain, hclean]
  · simp [hdomain]

/-- No key of the range is unsorted, here and in the layers below. -/
def SortedInLayers (s : Store P) (start stop : Option GoString) : Prop :=
  NoneUnsorted s start stop ∧ Contents.Sorted s.parent start stop

/-- A new iterator has to visit the entries of its range. -/
theorem iterator_spec {start stop : Option GoString} (h : Filed s) (hstart : start ≠ some [])
    (hstop : stop ≠ some []) :
    ∃ s' it, iterator s start stop = .ok (s', it) ∧ Filed s' ∧ layerLookup s' = layerLookup s ∧
      MergeFits s' it ∧ (Covered start stop ∨ SortedInLayers s start stop →
        ∀ {k v}, (k, v) ∈ mergeRemaining s' it ↔ isKeyInDomain start stop k = true ∧ layerLookup s k = some v) := by
  obtain ⟨p, pit, hiterator, hcoherent, hlookup, hpfits, hvisits⟩ :=
    Contents.iterator_spec h.coherent hstart hstop
  have hfiled : Filed { s with parent := p } := h.withParent hcoherent hlookup
  have hlayer : layerLookup { s with parent := p } = layerLookup s := by
    funext k
    rw [layerLookup, layerLookup, hlookup]
  refine ⟨dirtyItems { s with parent := p } start stop,
    ⟨pit, ⟨(dirtyItems { s with parent := p } start stop).sortedCache.select
      (isKeyInDomain start stop), none⟩⟩, ?_, hfiled.dirtyItems start stop,
    (layerLookup_dirtyItems _ _ _).trans hlayer, ⟨?_, ?_⟩, ?_⟩
  · unfold iterator newMemIterator
    rw [hiterator, ok_bind]
    dsimp only
    rw [require_bind_of ⟨hstart, hstop⟩]
    rfl
  · rw [parent_dirtyItems]
    exact hpfits
  · exact ⟨SortedMap.select_sorted _ _, fun hk => by cases hk⟩
  · intro hrange k v
    rw [← hlayer]
    exact mem_mergeRemaining_iff hfiled (hrange.imp_right And.left) hpfits fun {k v} => by
      rw [hvisits (hrange.imp_right And.right), ← hlookup]

/-- A layer keeps the contract of its parent. -/
instance : Contents (Store P) (CacheMergeIterator I) where
  Coherent := Filed
  lookup := layerLookup
  Fits := MergeFits
  remaining := mergeRemaining
  Sorted := SortedInLayers
  ascending h := ascending_overlay (Contents.ascending h.parent) h.cache.view_ascending
  get_spec h hkey := get_filed h hkey
  iterator_spec h hstart hstop := iterator_spec h hstart hstop
  valid_spec h := by
    obtain ⟨it', hvalid, hmoved, -⟩ := skipUntilExistsOrInvalid_spec h
    exact ⟨it', hvalid, hmoved.fits, hmoved.remaining⟩
  next_spec h hl := next_spec h hl
  key_spec h hl := by
    obtain ⟨it', hkey, hfits, hremaining, -⟩ := key_touched h hl
    exact ⟨it', hkey, hfits, hremaining⟩
  value_spec h hl := value_spec h hl

end Merge

end EnergyChain.CacheKV
