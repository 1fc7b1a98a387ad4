import EnergyChain.Go.Bytes

/-!
# Errors and panics

A Go function that can fail returns a value, returns an error, or panics. The two kinds of failure
are kept apart: an error is an answer, a panic unwinds to the recover of the caller. `bind_eq_ok`
takes a successful sequence of calls apart into its successful calls, and `noPanic_bind` does the same
for a sequence that does not panic.
-/

set_option autoImplicit false

namespace EnergyChain.Go

/-- How a call fails, with the text of the error or of the panic. -/
inductive Fault where
  | error (text : GoString)
  | panic (text : GoString)
  deriving DecidableEq, Repr

/-- The result of a call that can fail. -/
abbrev Outcome (α : Type) := Except Fault α

/-- Return an error. -/
def fail {α : Type} (text : GoString) : Outcome α := .error (.error text)

/-- Panic. -/
def throwPanic {α : Type} (text : GoString) : Outcome α := .error (.panic text)

/-- Continue if the condition holds, fail otherwise. -/
def require (c : Prop) [Decidable c] (f : Fault) : Outcome Unit := if c then .ok () else .error f

/-- The value of an optional result, or a failure. -/
def orFail {α : Type} (f : Fault) : Option α → Outcome α
  | some a => .ok a
  | none => .error f

/-- Wrap the text of an error; a panic passes through. -/
def mapErr {α : Type} (f : GoString → GoString) : Outcome α → Outcome α
  | .ok a => .ok a
  | .error (.error text) => .error (.error (f text))
  | .error (.panic text) => .error (.panic text)

/-- `if err != nil { panic(err) }`. -/
def panicOnErr {α : Type} (f : GoString → GoString) : Outcome α → Outcome α
  | .ok a => .ok a
  | .error (.error text) => .error (.panic (f text))
  | .error (.panic text) => .error (.panic text)

section

variable {α β : Type}

theorem bind_eq_ok {x : Outcome α} {f : α → Outcome β} {b : β} :
    (x >>= f) = .ok b ↔ ∃ a, x = .ok a ∧ f a = .ok b := by
  cases x with
  | error e => simp [bind, Except.bind]
  | ok a => simp [bind, Except.bind]

@[simp]
theorem ok_bind (a : α) (f : α → Outcome β) : ((.ok a : Outcome α) >>= f) = f a := rfl

@[simp]
theorem error_bind (e : Fault) (f : α → Outcome β) : ((.error e : Outcome α) >>= f) = .error e := rfl

@[simp]
theorem require_eq_ok {c : Prop} [Decidable c] {f : Fault} {u : Unit} :
    require c f = .ok u ↔ c := by
  unfold require
  split <;> simp_all

@[simp]
theorem pure_eq_ok {a b : α} : (pure a : Outcome α) = .ok b ↔ b = a := by
  simp [pure, Except.pure, eq_comm]

/-- A check in front of a computation is a conjunct of its success. -/
@[simp]
theorem require_bind_eq_ok {c : Prop} [Decidable c] {f : Fault} {x : Outcome β} {b : β} :
    (require c f >>= fun _ => x) = .ok b ↔ c ∧ x = .ok b := by
  by_cases h : c <;> simp [require, h]

/-- A check that holds is passed. -/
theorem require_bind_of {c : Prop} [Decidable c] {f : Fault} {x : Outcome β} (h : c) :
    (require c f >>= fun _ => x) = x := by
  simp [require, h]

@[simp]
theorem orFail_eq_ok {f : Fault} {o : Option α} {a : α} : orFail f o = .ok a ↔ o = some a := by
  cases o <;> simp [orFail]

@[simp]
theorem mapErr_eq_ok {f : GoString → GoString} {x : Outcome α} {a : α} :
    mapErr f x = .ok a ↔ x = .ok a := by
  rcases x with (_ | _) | _ <;> simp [mapErr]

@[simp]
theorem panicOnErr_eq_ok {f : GoString → GoString} {x : Outcome α} {a : α} :
    panicOnErr f x = .ok a ↔ x = .ok a := by
  rcases x with (_ | _) | _ <;> simp [panicOnErr]

@[simp]
theorem fail_ne_ok {t : GoString} {a : α} : (fail t : Outcome α) ≠ .ok a := by simp [fail]

@[simp]
theorem throwPanic_ne_ok {t : GoString} {a : α} : (throwPanic t : Outcome α) ≠ .ok a := by
  simp [throwPanic]

/-- A loop of checks passes exactly if every check passes. -/
theorem forM_eq_ok {f : α → Outcome PUnit} {l : List α} :
    l.forM f = .ok ⟨⟩ ↔ ∀ a ∈ l, f a = .ok ⟨⟩ := by
  induction l with
  | nil => exact ⟨fun _ => nofun, fun _ => rfl⟩
  | cons a l ih =>
      change (f a >>= fun _ => l.forM f) = _ ↔ _
      rw [bind_eq_ok, List.forall_mem_cons, ← ih]
      exact ⟨fun ⟨_, ha, hl⟩ => ⟨ha, hl⟩, fun ⟨ha, hl⟩ => ⟨_, ha, hl⟩⟩

/-- What every turn of a loop does to the state, the loop does, if turns can be put together. -/
theorem foldlM_rel {σ : Type} {R : σ → σ → Prop} (hrefl : ∀ s, R s s)
    (htrans : ∀ s t u, R s t → R t u → R s u) {f : σ → α → Outcome σ} {l : List α}
    (hstep : ∀ s, ∀ a ∈ l, ∀ s', f s a = .ok s' → R s s') {s s' : σ} (h : l.foldlM f s = .ok s') :
    R s s' := by
  induction l generalizing s with
  | nil =>
      cases h
      exact hrefl _
  | cons a l ih =>
      rw [List.foldlM_cons] at h
      obtain ⟨t, ht, hrest⟩ := bind_eq_ok.1 h
      exact htrans s t s' (hstep s a List.mem_cons_self t ht)
        (ih (fun s b hb => hstep s b (List.mem_cons_of_mem a hb)) hrest)

theorem isOk_iff {x : Outcome α} : x.isOk = true ↔ ∃ a, x = .ok a := by
  cases x with
  | error e => simp [Except.isOk, Except.toBool]
  | ok a => simp [Except.isOk, Except.toBool]

/-! ## Calls that do not panic -/

/-- The call returns a value or an error. -/
def NoPanic : Outcome α → Prop
  | .error (.panic _) => False
  | _ => True

instance : DecidablePred (NoPanic : Outcome α → Prop)
  | .error (.panic _) => inferInstanceAs (Decidable False)
  | .error (.error _) => inferInstanceAs (Decidable True)
  | .ok _ => inferInstanceAs (Decidable True)

@[simp]
theorem noPanic_ok (a : α) : NoPanic (.ok a : Outcome α) := trivial

@[simp]
theorem noPanic_pure (a : α) : NoPanic (pure a : Outcome α) := trivial

@[simp]
theorem noPanic_fail (text : GoString) : NoPanic (fail text : Outcome α) := trivial

@[simp]
theorem noPanic_throwPanic (text : GoString) : ¬ NoPanic (throwPanic text : Outcome α) := id

/-- A sequence of calls does not panic if the first does not, and the rest does not after it. -/
theorem noPanic_bind {x : Outcome α} {f : α → Outcome β} :
    NoPanic (x >>= f) ↔ NoPanic x ∧ ∀ a, x = .ok a → NoPanic (f a) := by
  cases x with
  | ok a => simp
  | error fault =>
      cases fault with
      | error text => simp [NoPanic]
      | panic text => simp [NoPanic]

/-- A partial call in front of a computation: it panics unless `c` holds, and then has a known value. -/
theorem noPanic_bind_of {x : Outcome α} {f : α → Outcome β} {c : Prop} {a : α} (hx : NoPanic x ↔ c)
    (ha : c → x = .ok a) : NoPanic (x >>= f) ↔ c ∧ NoPanic (f a) := by
  rw [noPanic_bind, hx]
  refine and_congr_right fun hc => ?_
  rw [ha hc]
  -- the known value is the only one that is passed on
  constructor
  · intro h
    exact h a rfl
  · intro h a' ha'
    cases ha'
    exact h

/-- A check that returns an error passes the question on to what follows it. -/
theorem noPanic_require_error {c : Prop} [Decidable c] {text : GoString} {x : Outcome β} :
    NoPanic (require c (.error text) >>= fun _ => x) ↔ (c → NoPanic x) := by
  by_cases h : c
  · simp [require, h]
  · simp [require, h, NoPanic]

theorem noPanic_require_panic {c : Prop} [Decidable c] {text : GoString} {x : Outcome β} :
    NoPanic (require c (.panic text) >>= fun _ => x) ↔ c ∧ NoPanic x := by
  by_cases h : c
  · simp [require, h]
  · simp [require, h, NoPanic]

theorem noPanic_require {c : Prop} [Decidable c] (text : GoString) :
    NoPanic (require c (.error text)) := by
  by_cases h : c
  · simp [require, h]
  · simp [require, h, NoPanic]

theorem noPanic_orFail (text : GoString) (o : Option α) : NoPanic (orFail (.error text) o) := by
  cases o with
  | none => trivial
  | some a => trivial

@[simp]
theorem noPanic_mapErr {f : GoString → GoString} {x : Outcome α} :
    NoPanic (mapErr f x) ↔ NoPanic x := by
  rcases x with (text | text) | a
  · exact Iff.rfl
  · exact Iff.rfl
  · exact Iff.rfl

theorem noPanic_panicOnErr {f : GoString → GoString} {x : Outcome α} :
    NoPanic (panicOnErr f x) ↔ ∃ a, x = .ok a := by
  rcases x with (text | text) | a
  · simp [panicOnErr, NoPanic]
  · simp [panicOnErr, NoPanic]
  · simp [panicOnErr]

end

end EnergyChain.Go
