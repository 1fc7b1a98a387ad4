import Mathlib.Data.List.Induction

/-!
# Runs of a transition function

A run folds a list of events over a state. `Along C` says that every event of a run meets the
condition `C` in the state it is applied to, so an invariant that each such event keeps holds at the
end of the run (`run_invariant`). Every prefix of a run is a run (`Along.of_append`), so a statement
about the final states of all runs is a statement about every state a run passes through.

`trace` lists what the events of a run put out.

`commit` is the atomic transaction: the new state if the operation succeeded, the old one if it
failed.
-/

set_option autoImplicit false

namespace EnergyChain

universe u v w x

variable {S : Type u} {E : Type v}

/-- The state after the events of a run. -/
def run (step : S → E → S) (s : S) (es : List E) : S := es.foldl step s

/-- Every event of the run meets `C` in the state it is applied to. -/
def Along (step : S → E → S) (C : S → E → Prop) : S → List E → Prop
  | _, [] => True
  | s, e :: es => C s e ∧ Along step C (step s e) es

/-- A decidable condition can be checked along a run. -/
def decidableAlong (step : S → E → S) (C : S → E → Prop) [∀ s e, Decidable (C s e)] :
    (s : S) → (es : List E) → Decidable (Along step C s es)
  | _, [] => .isTrue trivial
  | s, e :: es =>
      have := decidableAlong step C (step s e) es
      inferInstanceAs (Decidable (C s e ∧ Along step C (step s e) es))

instance (step : S → E → S) (C : S → E → Prop) [∀ s e, Decidable (C s e)] (s : S) (es : List E) :
    Decidable (Along step C s es) := decidableAlong step C s es

section

variable (step : S → E → S)

@[simp]
theorem run_nil (s : S) : run step s [] = s := rfl

@[simp]
theorem run_cons (s : S) (e : E) (es : List E) : run step s (e :: es) = run step (step s e) es := rfl

theorem run_append (s : S) (es fs : List E) :
    run step s (es ++ fs) = run step (run step s es) fs := List.foldl_append

@[simp]
theorem run_concat (s : S) (es : List E) (e : E) :
    run step s (es ++ [e]) = step (run step s es) e := run_append step s es [e]

theorem along_append (C : S → E → Prop) (s : S) (es fs : List E) :
    Along step C s (es ++ fs) ↔ Along step C s es ∧ Along step C (run step s es) fs := by
  induction es generalizing s with
  | nil => simp [Along]
  | cons e es ih => simp [Along, ih, and_assoc]

theorem along_concat (C : S → E → Prop) (s : S) (es : List E) (e : E) :
    Along step C s (es ++ [e]) ↔ Along step C s es ∧ C (run step s es) e := by
  simp [along_append, Along]

variable {step}

/-- An invariant kept by every event that meets the condition holds after the run. -/
theorem run_invariant {C : S → E → Prop} {I : S → Prop}
    (hstep : ∀ s e, I s → C s e → I (step s e)) {s : S} {es : List E} (hs : I s)
    (h : Along step C s es) : I (run step s es) := by
  induction es generalizing s with
  | nil => exact hs
  | cons e es ih => exact ih (hstep s e hs h.1) h.2

/-- A condition that every event meets in every state is met along every run. -/
theorem along_of_forall {C : S → E → Prop} (s : S) {es : List E}
    (h : ∀ s, ∀ e ∈ es, C s e) : Along step C s es := by
  induction es generalizing s with
  | nil => trivial
  | cons e es ih =>
      exact ⟨h s e List.mem_cons_self,
        ih _ fun s' e' he' => h s' e' (List.mem_cons_of_mem e he')⟩

/-- If, under an invariant, the steps of a run keep `P` exactly when they meet the condition, then `P`
holds in every state the run passes through exactly when every step meets the condition. -/
theorem forall_prefix_iff_along {C : S → E → Prop} {I P : S → Prop} {s : S} {es : List E}
    (hstep : ∀ s, ∀ e ∈ es, I s → P s → I (step s e) ∧ (P (step s e) ↔ C s e)) (hi : I s)
    (hs : P s) : (∀ pre, pre <+: es → P (run step s pre)) ↔ Along step C s es := by
  induction es generalizing s with
  | nil =>
      refine ⟨fun _ => trivial, fun _ pre hpre => ?_⟩
      rw [List.prefix_nil.1 hpre]
      exact hs
  | cons e es ih =>
      obtain ⟨hi', hfirst⟩ := hstep s e List.mem_cons_self hi hs
      have hrest : ∀ s, ∀ e' ∈ es, I s → P s → I (step s e') ∧ (P (step s e') ↔ C s e') :=
        fun s e' he' => hstep s e' (List.mem_cons_of_mem e he')
      constructor
      · intro h
        -- the prefix of length one is the first step
        have h₁ : P (step s e) := h [e] (List.prefix_append [e] es)
        refine ⟨hfirst.1 h₁, (ih hrest hi' h₁).1 fun pre hpre => ?_⟩
        exact h (e :: pre) (List.prefix_cons_inj e |>.2 hpre)
      · rintro ⟨hc, hcs⟩ pre hpre
        have h₁ : P (step s e) := hfirst.2 hc
        -- a prefix is empty, or it starts with the first step
        cases pre with
        | nil => exact hs
        | cons e' pre =>
            obtain ⟨rfl, hpre'⟩ := List.cons_prefix_cons.1 hpre
            exact (ih hrest hi' h₁).2 hcs pre hpre'

/-- The same for a property of the events so far: if every step keeps it exactly when it meets the
condition, it holds all along the run exactly when every step meets the condition. -/
theorem forall_prefix_history_iff_along {C : S → E → Prop} {P : List E → Prop} {s : S} {es : List E}
    (h0 : P []) (hstep : ∀ pre e, pre ++ [e] <+: es → P pre →
      (P (pre ++ [e]) ↔ C (run step s pre) e)) :
    (∀ pre, pre <+: es → P pre) ↔ Along step C s es := by
  induction es using List.reverseRecOn with
  | nil =>
      refine ⟨fun _ => trivial, fun _ pre hpre => ?_⟩
      rw [List.prefix_nil.1 hpre]
      exact h0
  | append_singleton es e ih =>
      -- induction from the end: the last event is judged in the state that the others lead to
      have hes : es <+: es ++ [e] := List.prefix_append es [e]
      specialize ih fun pre e' hpre => hstep pre e' (hpre.trans hes)
      have hlast := hstep es e (List.prefix_refl _)
      rw [along_concat, ← ih]
      constructor
      · intro h
        exact ⟨fun pre hpre => h pre (hpre.trans hes),
          (hlast (h es hes)).1 (h _ (List.prefix_refl _))⟩
      · rintro ⟨h, hc⟩ pre hpre
        rcases List.prefix_concat_iff.1 hpre with rfl | hpre
        · exact (hlast (h es (List.prefix_refl _))).2 hc
        · exact h pre hpre

theorem Along.of_append {C : S → E → Prop} {s : S} {es fs : List E}
    (h : Along step C s (es ++ fs)) : Along step C s es :=
  ((along_append step C s es fs).1 h).1

section

variable {B : Type w}

/-- What each event of a run puts out, in order. -/
def trace (step : S → E → S) (out : S → E → B) : S → List E → List B
  | _, [] => []
  | s, e :: es => out s e :: trace step out (step s e) es

@[simp]
theorem trace_nil (step : S → E → S) (out : S → E → B) (s : S) : trace step out s [] = [] := rfl

@[simp]
theorem trace_cons (step : S → E → S) (out : S → E → B) (s : S) (e : E) (es : List E) :
    trace step out s (e :: es) = out s e :: trace step out (step s e) es := rfl

theorem trace_append (step : S → E → S) (out : S → E → B) (s : S) (es fs : List E) :
    trace step out s (es ++ fs) = trace step out s es ++ trace step out (run step s es) fs := by
  induction es generalizing s with
  | nil => rfl
  | cons e es ih => simp [ih]

@[simp]
theorem trace_concat (step : S → E → S) (out : S → E → B) (s : S) (es : List E) (e : E) :
    trace step out s (es ++ [e]) = trace step out s es ++ [out (run step s es) e] :=
  trace_append step out s es [e]

end

end

/-- The state after an atomic operation: its result if it succeeded, the old state otherwise. -/
def commit {F : Type w} {R : Type x} (s : S) : Except F (S × R) → S
  | .ok (s', _) => s'
  | .error _ => s

section

variable {F : Type w} {R : Type x}

@[simp]
theorem commit_ok (s s' : S) (r : R) : commit s (.ok (s', r) : Except F (S × R)) = s' := rfl

@[simp]
theorem commit_error (s : S) (f : F) : commit s (.error f : Except F (S × R)) = s := rfl

/-- A property of the old state and of every result holds after the commit. -/
theorem commit_cases {P : S → Prop} {s : S} {o : Except F (S × R)} (hs : P s)
    (h : ∀ s' r, o = .ok (s', r) → P s') : P (commit s o) := by
  cases o with
  | error f => exact hs
  | ok p => exact h p.1 p.2 rfl

end

end EnergyChain
