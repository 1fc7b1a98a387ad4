import EnergyChain.Lib.SortedMap

/-!
# An ascending list laid over another

The upper list says for some keys which value they have, or that they have none; the lower list holds
the entries of the other keys. `overlay` merges the two. What it does at its front is said by the place
of the smallest key (`overlay_lower`, `overlay_upper`, `overlay_both` and their forms for a hidden key);
what is in it by membership (`mem_overlay`). Ascending lists stay ascending (`ascending_overlay`).
-/

set_option autoImplicit false

namespace EnergyChain

universe u v

/-- The keys strictly ascend. -/
abbrev Ascending {K : Type u} {A : Type v} [LinearOrder K] (l : List (K × A)) : Prop :=
  l.Pairwise fun a b => a.1 < b.1

variable {K : Type u} {V : Type v} [LinearOrder K]

/-- The entries of the lower list, except where the upper list has the key. -/
def overlay : List (K × V) → List (K × Option V) → List (K × V)
  | lower, [] => lower
  | [], (k, o) :: upper => (o.map fun w => (k, w)).toList ++ overlay [] upper
  | (k, v) :: lower, (k', o) :: upper =>
      if k < k' then (k, v) :: overlay lower ((k', o) :: upper)
      else if k = k' then (o.map fun w => (k', w)).toList ++ overlay lower upper
      else (o.map fun w => (k', w)).toList ++ overlay ((k, v) :: lower) upper
termination_by lower upper => lower.length + upper.length

section

variable {k : K} {v : V} {lower : List (K × V)} {upper : List (K × Option V)}

@[simp]
theorem overlay_nil (lower : List (K × V)) : overlay lower [] = lower := by
  rw [overlay]

/-- The smallest key is only in the lower list. -/
theorem overlay_lower (h : ∀ e ∈ upper, k < e.1) :
    overlay ((k, v) :: lower) upper = (k, v) :: overlay lower upper := by
  cases upper with
  | nil => rw [overlay_nil, overlay_nil]
  | cons e upper => rw [overlay, if_pos (h e List.mem_cons_self)]

/-- The smallest key is only in the upper list. -/
theorem overlay_upper_toList (o : Option V) (h : ∀ e ∈ lower, k < e.1) :
    overlay lower ((k, o) :: upper) = (o.map fun w => (k, w)).toList ++ overlay lower upper := by
  cases lower with
  | nil => rw [overlay]
  | cons e lower =>
      have hlt : k < e.1 := h e List.mem_cons_self
      rw [overlay, if_neg (not_lt.2 hlt.le), if_neg (ne_of_gt hlt)]

theorem overlay_upper (h : ∀ e ∈ lower, k < e.1) :
    overlay lower ((k, some v) :: upper) = (k, v) :: overlay lower upper :=
  overlay_upper_toList (some v) h

theorem overlay_upper_hidden (h : ∀ e ∈ lower, k < e.1) :
    overlay lower ((k, none) :: upper) = overlay lower upper :=
  overlay_upper_toList none h

/-- The smallest key is in both lists. -/
theorem overlay_both (v w : V) :
    overlay ((k, v) :: lower) ((k, some w) :: upper) = (k, w) :: overlay lower upper := by
  rw [overlay, if_neg (lt_irrefl k), if_pos rfl]
  rfl

theorem overlay_both_hidden (v : V) :
    overlay ((k, v) :: lower) ((k, none) :: upper) = overlay lower upper := by
  rw [overlay, if_neg (lt_irrefl k), if_pos rfl]
  rfl

end

theorem lt_of_ascending {A : Type v} {k : K} {a : A} {l : List (K × A)}
    (h : Ascending ((k, a) :: l)) : ∀ e ∈ l, k < e.1 := (List.pairwise_cons.1 h).1

theorem ascending_of_cons {A : Type v} {e : K × A} {l : List (K × A)} (h : Ascending (e :: l)) :
    Ascending l := (List.pairwise_cons.1 h).2

/-- A key before the head is before the whole list. -/
theorem lt_of_lt_head {A : Type v} {k : K} {e : K × A} {l : List (K × A)} (h : Ascending (e :: l))
    (hlt : k < e.1) : ∀ e' ∈ e :: l, k < e'.1 :=
  List.forall_mem_cons.2 ⟨hlt, fun e' he' => hlt.trans (lt_of_ascending h e' he')⟩

/-- An entry is in the merge if the upper list says so, or if the lower list has it and the upper list
does not have its key. -/
theorem mem_overlay {lower : List (K × V)} {upper : List (K × Option V)} (hlower : Ascending lower)
    (hupper : Ascending upper) {k : K} {v : V} :
    (k, v) ∈ overlay lower upper ↔
      (k, some v) ∈ upper ∨ (k, v) ∈ lower ∧ ∀ o, (k, o) ∉ upper := by
  fun_induction overlay lower upper with
  | case1 lower => simp
  | case2 k' o upper ih =>
      rw [List.mem_append, ih hlower (ascending_of_cons hupper)]
      simp [eq_comm, Prod.ext_iff, and_comm]
  | case3 k' v' lower k'' o upper hlt ih =>
      rw [List.mem_cons, ih (ascending_of_cons hlower) hupper]
      -- the upper list has only greater keys
      have hnone : ∀ o', (k', o') ∉ (k'', o) :: upper :=
        fun o' hmem => (lt_of_lt_head hupper hlt _ hmem).false
      constructor
      · rintro (heq | hmem | ⟨hmem, hno⟩)
        · obtain ⟨rfl, rfl⟩ := Prod.ext_iff.1 heq
          exact Or.inr ⟨List.mem_cons_self, hnone⟩
        · exact Or.inl hmem
        · exact Or.inr ⟨List.mem_cons_of_mem _ hmem, hno⟩
      · rintro (hmem | ⟨hmem, hno⟩)
        · exact Or.inr (Or.inl hmem)
        · rcases List.mem_cons.1 hmem with heq | hmem
          · exact Or.inl heq
          · exact Or.inr (Or.inr ⟨hmem, hno⟩)
  | case4 v' lower k' o upper hlt ih =>
      rw [List.mem_append, ih (ascending_of_cons hlower) (ascending_of_cons hupper)]
      -- neither list has the common key a second time
      have hlower' : ∀ w, (k', w) ∉ lower := fun w hmem => (lt_of_ascending hlower _ hmem).false
      have hupper' : ∀ w, (k', w) ∉ upper := fun w hmem => (lt_of_ascending hupper _ hmem).false
      by_cases hk : k = k'
      · subst hk
        simp [hlower', hupper', eq_comm, Prod.ext_iff]
      · simp [hk, Prod.ext_iff, Ne.symm hk]
  | case5 k' v' lower k'' o upper hlt hne ih =>
      have hgt : k'' < k' := lt_of_le_of_ne (not_lt.1 hlt) (Ne.symm hne)
      rw [List.mem_append, ih hlower (ascending_of_cons hupper)]
      -- the key is only at the head of the upper list
      have hupper' : ∀ w, (k'', w) ∉ upper := fun w hmem => (lt_of_ascending hupper _ hmem).false
      have hlower' : ∀ w, (k'', w) ∉ (k', v') :: lower :=
        fun w hmem => (lt_of_lt_head hlower hgt _ hmem).false
      by_cases hk : k = k''
      · subst hk
        simp [hlower', hupper', eq_comm, Prod.ext_iff]
      · simp [hk, Prod.ext_iff, Ne.symm hk]

/-- A bound below both lists is below the merge. -/
theorem lt_of_mem_overlay {lower : List (K × V)} {upper : List (K × Option V)} {k : K}
    (hlower : ∀ e ∈ lower, k < e.1) (hupper : ∀ e ∈ upper, k < e.1) :
    ∀ e ∈ overlay lower upper, k < e.1 := by
  -- what the upper list puts in front has the key of its head
  have hfront : ∀ {k' : K} {o : Option V} {l : List (K × V)}, k < k' → (∀ e ∈ l, k < e.1) →
      ∀ e ∈ (o.map fun w => (k', w)).toList ++ l, k < e.1 := by
    intro k' o l hk hl e hmem
    rcases List.mem_append.1 hmem with hmem | hmem
    · obtain ⟨w, -, rfl⟩ := Option.map_eq_some_iff.1 (Option.mem_toList.1 hmem)
      exact hk
    · exact hl e hmem
  fun_induction overlay lower upper with
  | case1 lower => exact hlower
  | case2 k' o upper ih =>
      rw [List.forall_mem_cons] at hupper
      exact hfront hupper.1 (ih hlower hupper.2)
  | case3 k' v' lower k'' o upper hlt ih =>
      rw [List.forall_mem_cons] at hlower
      exact List.forall_mem_cons.2 ⟨hlower.1, ih hlower.2 hupper⟩
  | case4 v' lower k' o upper hlt ih =>
      rw [List.forall_mem_cons] at hlower hupper
      exact hfront hupper.1 (ih hlower.2 hupper.2)
  | case5 k' v' lower k'' o upper hlt hne ih =>
      rw [List.forall_mem_cons] at hupper
      exact hfront hupper.1 (ih hlower hupper.2)

theorem ascending_overlay {lower : List (K × V)} {upper : List (K × Option V)}
    (hlower : Ascending lower) (hupper : Ascending upper) : Ascending (overlay lower upper) := by
  have hfront : ∀ {k : K} {o : Option V} {l : List (K × V)}, (∀ e ∈ l, k < e.1) → Ascending l →
      Ascending ((o.map fun w => (k, w)).toList ++ l) := by
    intro k o l hlt hl
    cases o with
    | none => exact hl
    | some w => exact List.pairwise_cons.2 ⟨hlt, hl⟩
  fun_induction overlay lower upper with
  | case1 lower => exact hlower
  | case2 k o upper ih =>
      have hrest := lt_of_ascending hupper
      exact hfront (lt_of_mem_overlay (by simp) hrest) (ih hlower (ascending_of_cons hupper))
  | case3 k v lower k' o upper hlt ih =>
      have hall : ∀ e ∈ (k', o) :: upper, k < e.1 := lt_of_lt_head hupper hlt
      exact List.pairwise_cons.2 ⟨lt_of_mem_overlay (lt_of_ascending hlower) hall,
        ih (ascending_of_cons hlower) hupper⟩
  | case4 v lower k o upper hlt ih =>
      exact hfront (lt_of_mem_overlay (lt_of_ascending hlower) (lt_of_ascending hupper))
        (ih (ascending_of_cons hlower) (ascending_of_cons hupper))
  | case5 k v lower k' o upper hlt hne ih =>
      have hgt : k' < k := lt_of_le_of_ne (not_lt.1 hlt) (Ne.symm hne)
      have hall : ∀ e ∈ (k, v) :: lower, k' < e.1 := lt_of_lt_head hlower hgt
      exact hfront (lt_of_mem_overlay hall (lt_of_ascending hupper))
        (ih hlower (ascending_of_cons hupper))

end EnergyChain
