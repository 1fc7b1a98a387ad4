import Mathlib.Data.List.Basic
import Mathlib.Data.List.Nodup
import Mathlib.Logic.Function.Basic

/-!
# Linked lists in a store

A store holds nodes under keys, and a node names the key of the next one. Reading from a key visits
nodes until a key holds none. `Segment` is a stretch of such a walk, `Visits` a walk that has come to
its end. Every visited key is the first one or was named by a visited node (`Visits.named`), and the
last one names a key without a node (`Visits.stop_of_last`).

Two writes append a node: the new node is stored under its key, and the last node is made to name
it. `Visits.snoc` is the case of a key that the walk does not visit. `Visits.relink` allows a key that
it does visit, even the last one; the walk is then cut off at that key.
-/

set_option autoImplicit false

namespace EnergyChain

universe u v

variable {K : Type u} {N : Type v} {read read' : K → Option N} {next : N → K}

/-- Reading from `a` visits the given keys and nodes and arrives at `b`. -/
def Segment (read : K → Option N) (next : N → K) : K → List (K × N) → K → Prop
  | a, [], b => a = b
  | a, (key, n) :: vs, b => key = a ∧ read a = some n ∧ Segment read next (next n) vs b

/-- Reading from `a` visits the given keys and nodes and comes to an end. -/
def Visits (read : K → Option N) (next : N → K) (a : K) (vs : List (K × N)) : Prop :=
  ∃ b, Segment read next a vs b ∧ read b = none

/-! ## Stretches of a walk -/

theorem segment_append {a b : K} {vs ws : List (K × N)} :
    Segment read next a (vs ++ ws) b ↔
      ∃ c, Segment read next a vs c ∧ Segment read next c ws b := by
  induction vs generalizing a with
  | nil => simp [Segment]
  | cons v vs ih =>
      obtain ⟨key, n⟩ := v
      simp only [List.cons_append, Segment, ih]
      constructor
      · rintro ⟨rfl, hn, c, hvs, hws⟩
        exact ⟨c, ⟨rfl, hn, hvs⟩, hws⟩
      · rintro ⟨c, ⟨rfl, hn, hvs⟩, hws⟩
        exact ⟨rfl, hn, c, hvs, hws⟩

/-- A stretch only depends on the keys it visits. -/
theorem Segment.congr {a b : K} {vs : List (K × N)} (h : Segment read next a vs b)
    (hsame : ∀ key ∈ vs.map Prod.fst, read' key = read key) : Segment read' next a vs b := by
  induction vs generalizing a with
  | nil => exact h
  | cons v vs ih =>
      obtain ⟨key, n⟩ := v
      obtain ⟨rfl, hn, hrest⟩ := h
      refine ⟨rfl, ?_, ih hrest fun key' hkey' => hsame key' (by simp [hkey'])⟩
      rw [hsame key (by simp), hn]

/-- A visited key is the first one or is named by a node of the store. -/
theorem Segment.named {a b key : K} {vs : List (K × N)} (h : Segment read next a vs b)
    (hkey : key ∈ vs.map Prod.fst) : key = a ∨ ∃ key' n, read key' = some n ∧ next n = key := by
  induction vs generalizing a with
  | nil => simp at hkey
  | cons v vs ih =>
      obtain ⟨first, n⟩ := v
      obtain ⟨rfl, hn, hrest⟩ := h
      rcases List.mem_cons.1 hkey with rfl | hkey
      · exact Or.inl rfl
      · rcases ih hrest hkey with rfl | hnamed
        · exact Or.inr ⟨first, n, hn, rfl⟩
        · exact Or.inr hnamed

/-! ## Walks -/

@[simp]
theorem visits_nil {a : K} : Visits read next a [] ↔ read a = none := by
  simp [Visits, Segment]

@[simp]
theorem visits_cons {a key : K} {n : N} {vs : List (K × N)} :
    Visits read next a ((key, n) :: vs) ↔
      key = a ∧ read a = some n ∧ Visits read next (next n) vs := by
  constructor
  · rintro ⟨b, ⟨hkey, hn, hrest⟩, hb⟩
    exact ⟨hkey, hn, b, hrest, hb⟩
  · rintro ⟨hkey, hn, b, hrest, hb⟩
    exact ⟨b, ⟨hkey, hn, hrest⟩, hb⟩

theorem Visits.named {a key : K} {vs : List (K × N)} (h : Visits read next a vs)
    (hkey : key ∈ vs.map Prod.fst) : key = a ∨ ∃ key' n, read key' = some n ∧ next n = key := by
  obtain ⟨b, hvs, -⟩ := h
  exact hvs.named hkey

/-- A walk that visits anything visits its first key. -/
theorem Visits.start_mem {a : K} {vs : List (K × N)} (h : Visits read next a vs) (hne : vs ≠ []) :
    a ∈ vs.map Prod.fst := by
  cases vs with
  | nil => exact absurd rfl hne
  | cons v vs =>
      obtain ⟨b, ⟨rfl, -, -⟩, -⟩ := h
      exact List.mem_cons_self

/-- The last visited node is the one stored under its key. -/
theorem Visits.read_last {a key : K} {n : N} {vs : List (K × N)}
    (h : Visits read next a (vs ++ [(key, n)])) : read key = some n := by
  obtain ⟨b, hvs, -⟩ := h
  obtain ⟨c, -, rfl, hn, -⟩ := segment_append.1 hvs
  exact hn

/-- A walk with a last key, taken apart at it. -/
theorem exists_concat_of_getLast? {key : K} {vs : List (K × N)}
    (h : (vs.map Prod.fst).getLast? = some key) : ∃ init n, vs = init ++ [(key, n)] := by
  rcases List.eq_nil_or_concat vs with rfl | ⟨init, ⟨last, n⟩, rfl⟩
  · simp at h
  · obtain rfl : last = key := by simpa using h
    exact ⟨init, n, List.concat_eq_append⟩

/-- The walk ends where its last node points. -/
theorem Visits.stop_of_last {a key : K} {vs : List (K × N)} (h : Visits read next a vs)
    (hlast : (vs.map Prod.fst).getLast? = some key) :
    ∃ n, read key = some n ∧ read (next n) = none := by
  obtain ⟨init, n, rfl⟩ := exists_concat_of_getLast? hlast
  obtain ⟨b, hvs, hb⟩ := h
  obtain ⟨c, -, rfl, hn, rfl⟩ := segment_append.1 hvs
  exact ⟨n, hn, hb⟩

/-! ## Appending -/

/-- A written key holds a node. -/
theorem update_some_eq_none [DecidableEq K] {key key' : K} {n : N} :
    Function.update read key (some n) key' = none ↔ key' ≠ key ∧ read key' = none := by
  by_cases h : key' = key
  · simp [h]
  · simp [h]

/-- Append a node under a key that the walk does not visit. -/
theorem Visits.snoc {a t r : K} {vs : List (K × N)} {n n' m : N}
    (h : Visits read next a (vs ++ [(t, n)])) (hnodup : ((vs ++ [(t, n)]).map Prod.fst).Nodup)
    (hfresh : r ∉ (vs ++ [(t, n)]).map Prod.fst)
    (hsame : ∀ key, key ≠ t → key ≠ r → read' key = read key)
    (ht : read' t = some n') (hnext : next n' = r) (hr : read' r = some m)
    (hstop : read' (next m) = none) : Visits read' next a (vs ++ [(t, n'), (r, m)]) := by
  obtain ⟨b, hvs, -⟩ := h
  obtain ⟨c, hinit, rfl, -, -⟩ := segment_append.1 hvs
  simp only [List.map_append, List.map_cons, List.map_nil] at hnodup hfresh
  have htail : t ∉ vs.map Prod.fst := by
    intro hmem
    exact (List.nodup_append.1 hnodup).2.2 t hmem t (by simp) rfl
  -- before `t` the walk reads neither of the two keys that changed
  have hinit' : Segment read' next a vs t := by
    refine hinit.congr fun key hkey => hsame key ?_ ?_
    · rintro rfl
      exact htail hkey
    · rintro rfl
      exact hfresh (by simp [hkey])
  exact ⟨next m, segment_append.2 ⟨t, hinit', rfl, ht, hnext.symm, hnext ▸ hr, rfl⟩, hstop⟩

/-- Append a node under any key. If the walk visits the key already, it is cut off there. -/
theorem Visits.relink {a t r : K} {vs : List (K × N)} {m : N} (h : Visits read next a vs)
    (hnodup : (vs.map Prod.fst).Nodup) (hlast : (vs.map Prod.fst).getLast? = some t)
    (hsame : ∀ key, key ≠ t → key ≠ r → read' key = read key) (hr : read' r = some m)
    (hstop : read' (next m) = none)
    (hlink : r ∈ vs.map Prod.fst ∨ ∃ n', read' t = some n' ∧ next n' = r) :
    ∃ vs', Visits read' next a vs' ∧ (vs'.map Prod.fst).Nodup ∧
      (vs'.map Prod.fst).getLast? = some r := by
  by_cases hvisited : r ∈ vs.map Prod.fst
  · -- the walk reaches `r` as before, and `t` comes no earlier than `r`
    obtain ⟨⟨key, n⟩, hmem, hkey⟩ := List.mem_map.1 hvisited
    obtain rfl : key = r := hkey
    obtain ⟨init, rest, rfl⟩ := List.append_of_mem hmem
    obtain ⟨b, hvs, -⟩ := h
    obtain ⟨c, hinit, rfl, -, -⟩ := segment_append.1 hvs
    rw [List.map_append, List.map_cons] at hnodup hlast
    have hbefore : ∀ key' ∈ init.map Prod.fst, key' ∉ key :: rest.map Prod.fst :=
      fun key' hkey' hafter => (List.nodup_append.1 hnodup).2.2 key' hkey' key' hafter rfl
    have ht : t ∈ key :: rest.map Prod.fst := by
      rw [List.getLast?_append, List.getLast?_cons, Option.some_or] at hlast
      exact List.mem_of_getLast? (by rw [List.getLast?_cons, hlast])
    have hinit' : Segment read' next a init key := by
      refine hinit.congr fun key' hkey' => hsame key' ?_ ?_
      · rintro rfl
        exact hbefore _ hkey' ht
      · rintro rfl
        exact hbefore _ hkey' List.mem_cons_self
    refine ⟨init ++ [(key, m)],
      ⟨next m, segment_append.2 ⟨key, hinit', rfl, hr, rfl⟩, hstop⟩, ?_, by simp⟩
    rw [List.map_append]
    exact hnodup.sublist (List.Sublist.append_left (by simp) _)
  · -- a key that is not visited extends the walk by one node
    obtain ⟨init, n, rfl⟩ := exists_concat_of_getLast? hlast
    obtain ⟨n', ht, hnext⟩ := hlink.resolve_left hvisited
    refine ⟨init ++ [(t, n'), (r, m)],
      h.snoc hnodup hvisited hsame ht hnext hr hstop, ?_, by simp⟩
    have hkeys : (init ++ [(t, n'), (r, m)]).map Prod.fst =
        (init ++ [(t, n)]).map Prod.fst ++ [r] := by simp
    rw [hkeys]
    exact List.nodup_append.2 ⟨hnodup, List.nodup_singleton r, by
      rintro key hkey _ hr' rfl
      exact hvisited (List.mem_singleton.1 hr' ▸ hkey)⟩

end EnergyChain
