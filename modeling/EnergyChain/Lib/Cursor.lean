import Mathlib.Data.List.Basic

/-!
# Readers at a position

A reader is given an input and a position in it, and returns a value and the next position. `Consumes`
says that a reader takes exactly the elements `x`, wherever they stand. `Local` says that whatever it
returns, it has consumed some elements in that sense, so that the value depends on these elements only;
`Within` says so of a reader that may jump past the end of the input.

`loop` applies a reader until the end of the input. Over local readers its successful runs are exactly the
ways to cut the input into chunks (`loop_eq_ok_iff`), and a failure is the failure of one step
(`loop_eq_error`). Inputs are shorter than a `limit`, as positions are machine integers.

A writer fills a buffer from its end, and `Prepends` says what it puts in front of the rest.
-/

set_option autoImplicit false

namespace EnergyChain.Cursor

variable {α β γ ε : Type} {limit : Nat}

/-! ## Spans of an input -/

/-- The elements of the input from position `i` up to position `j`. -/
def Span (d : List α) (i j : Nat) (x : List α) : Prop :=
  ∃ before after, d = before ++ (x ++ after) ∧ i = before.length ∧ j = before.length + x.length

section Span

variable {d x y : List α} {i j k : Nat}

/-- The whole input. -/
theorem span_self (d : List α) : Span d 0 d.length d :=
  ⟨[], [], by simp, rfl, by simp⟩

theorem Span.length (h : Span d i j x) : j = i + x.length ∧ j ≤ d.length := by
  obtain ⟨before, after, rfl, rfl, rfl⟩ := h
  refine ⟨rfl, ?_⟩
  simp only [List.length_append]
  omega

theorem Span.drop_eq (h : Span d i j x) : ∃ after, d.drop i = x ++ after := by
  obtain ⟨before, after, rfl, rfl, rfl⟩ := h
  exact ⟨after, List.drop_left⟩

theorem span_of_drop {after : List α} (hi : i ≤ d.length) (h : d.drop i = x ++ after) :
    Span d i (i + x.length) x := by
  have hlen : (d.take i).length = i := List.length_take_of_le hi
  exact ⟨d.take i, after, by rw [← h, List.take_append_drop], hlen.symm, by rw [hlen]⟩

theorem span_of_le (hij : i ≤ j) (hj : j ≤ d.length) :
    Span d i j ((d.drop i).take (j - i)) := by
  have hlen : ((d.drop i).take (j - i)).length = j - i := by
    rw [List.length_take, List.length_drop]
    omega
  have h := span_of_drop (Nat.le_trans hij hj) (List.take_append_drop (j - i) (d.drop i)).symm
  rwa [hlen, Nat.add_sub_cancel' hij] at h

theorem Span.eq_take (h : Span d i j x) : x = (d.drop i).take (j - i) := by
  obtain ⟨after, hafter⟩ := h.drop_eq
  have hlen := h.length.1
  rw [hafter, hlen, Nat.add_sub_cancel_left, List.take_left]

/-- The same elements in the input from `i` on. -/
theorem Span.drop (h : Span d i j x) : Span (d.drop i) 0 x.length x := by
  obtain ⟨after, hafter⟩ := h.drop_eq
  rw [hafter]
  exact ⟨[], after, rfl, rfl, by simp⟩

theorem span_of_span_drop {n : Nat} (hi : i ≤ d.length) (h : Span (d.drop i) 0 n x) :
    Span d i (i + n) x := by
  obtain ⟨after, hafter⟩ := h.drop_eq
  have hn := h.length.1
  rw [Nat.zero_add] at hn
  rw [hn]
  exact span_of_drop hi hafter

theorem Span.append (hx : Span d i j x) (hy : Span d j k y) : Span d i k (x ++ y) := by
  obtain ⟨before, after, rfl, rfl, rfl⟩ := hx
  obtain ⟨before', after', hd, hj, rfl⟩ := hy
  rw [← List.append_assoc] at hd
  obtain ⟨rfl, rfl⟩ := List.append_inj hd (by rw [List.length_append]; exact hj)
  refine ⟨before, after', by rw [List.append_assoc], rfl, ?_⟩
  simp only [List.length_append]
  omega

theorem Span.split (h : Span d i k (x ++ y)) : ∃ j, Span d i j x ∧ Span d j k y := by
  obtain ⟨before, after, rfl, rfl, rfl⟩ := h
  refine ⟨before.length + x.length, ⟨before, y ++ after, ?_, rfl, rfl⟩,
    ⟨before ++ x, after, ?_, ?_, ?_⟩⟩
  · rw [List.append_assoc]
  · rw [List.append_assoc, List.append_assoc]
  · rw [List.length_append]
  · simp only [List.length_append]
    omega

end Span

/-! ## Readers -/

/-- A value and the next position, or a failure. -/
abbrev Reader (α ε β : Type) := List α → Nat → Except ε (β × Nat)

/-- The reader takes exactly the elements `x`, in every input and at every position. -/
def Consumes (limit : Nat) (r : Reader α ε β) (x : List α) (v : β) : Prop :=
  ∀ (d : List α) (i j : Nat), d.length < limit → Span d i j x → r d i = .ok (v, j)

/-- What the reader returns depends on the elements that it takes, and it takes some. -/
def Local (limit : Nat) (r : Reader α ε β) : Prop :=
  ∀ (d : List α) (i : Nat) (v : β) (j : Nat), d.length < limit → r d i = .ok (v, j) →
    ∃ x, Span d i j x ∧ x ≠ [] ∧ Consumes limit r x v

/-- A reader that may also take no elements, or return a position past the end of the input. -/
def Within (limit : Nat) (r : Reader α ε β) : Prop :=
  ∀ (d : List α) (i : Nat) (v : β) (j : Nat), d.length < limit → i ≤ d.length →
    r d i = .ok (v, j) → i ≤ j ∧ j < limit ∧
      (j ≤ d.length → ∃ x, Span d i j x ∧ Consumes limit r x v)

/-- Two readers in sequence; the second may depend on the value of the first. -/
def seq (r : Reader α ε β) (f : β → Reader α ε γ) : Reader α ε γ :=
  fun d i => r d i >>= fun p => f p.1 d p.2

section Readers

variable {r : Reader α ε β} {f : β → Reader α ε γ}

theorem Local.lt (hr : Local limit r) {d : List α} {i j : Nat} {v : β} (hd : d.length < limit)
    (h : r d i = .ok (v, j)) : i < j ∧ j ≤ d.length := by
  obtain ⟨x, hseg, hx, -⟩ := hr d i v j hd h
  have hpos := List.length_pos_of_ne_nil hx
  have hlen := hseg.length
  omega

theorem Local.within (hr : Local limit r) : Within limit r := by
  intro d i v j hd _ h
  obtain ⟨x, hseg, -, hcons⟩ := hr d i v j hd h
  obtain ⟨hij, hj⟩ := hr.lt hd h
  exact ⟨Nat.le_of_lt hij, Nat.lt_of_le_of_lt hj hd, fun _ => ⟨x, hseg, hcons⟩⟩

theorem within_ok (v : β) : Within limit (fun _ i => .ok (v, i) : Reader α ε β) := by
  intro d i w j hd hi h
  cases h
  refine ⟨Nat.le_refl i, Nat.lt_of_le_of_lt hi hd, fun _ => ⟨[], span_of_drop hi (List.nil_append _).symm, ?_⟩⟩
  intro d i j _ hseg
  rw [hseg.length.1]
  rfl

theorem within_error (e : ε) : Within limit (fun _ _ => .error e : Reader α ε β) := by
  intro d i v j _ _ h
  cases h

theorem seq_eq_ok {d : List α} {i k : Nat} {w : γ} :
    seq r f d i = .ok (w, k) ↔ ∃ v j, r d i = .ok (v, j) ∧ f v d j = .ok (w, k) := by
  cases h : r d i with
  | error e => simp [seq, h, bind, Except.bind]
  | ok p => simp [seq, h, bind, Except.bind, Prod.ext_iff]

theorem Consumes.seq {x y : List α} {v : β} {w : γ} (hr : Consumes limit r x v)
    (hf : Consumes limit (f v) y w) : Consumes limit (seq r f) (x ++ y) w := by
  intro d i k hd hseg
  obtain ⟨j, hx, hy⟩ := hseg.split
  exact seq_eq_ok.2 ⟨v, j, hr d i j hd hx, hf d j k hd hy⟩

/-- A local reader in front of a reader within the input. -/
theorem Local.seq_within (hr : Local limit r) (hf : ∀ v, Within limit (f v)) {d : List α} {i k : Nat}
    {w : γ} (hd : d.length < limit) (h : seq r f d i = .ok (w, k)) : i < k ∧ k < limit ∧
      (k ≤ d.length → ∃ x, Span d i k x ∧ x ≠ [] ∧ Consumes limit (Cursor.seq r f) x w) := by
  obtain ⟨v, j, hrd, hfd⟩ := seq_eq_ok.1 h
  obtain ⟨hij, hj⟩ := hr.lt hd hrd
  obtain ⟨hjk, hlt, hin⟩ := hf v d j w k hd hj hfd
  refine ⟨by omega, hlt, fun hk => ?_⟩
  obtain ⟨x, hx, hne, hcons⟩ := hr d i v j hd hrd
  obtain ⟨y, hy, hcons'⟩ := hin hk
  exact ⟨x ++ y, hx.append hy, List.append_ne_nil_of_left_ne_nil hne y, hcons.seq hcons'⟩

/-- A reader whose value is mapped. -/
def map (g : β → γ) (r : Reader α ε β) : Reader α ε γ :=
  fun d i => r d i >>= fun p => .ok (g p.1, p.2)

theorem Consumes.map {x : List α} {v : β} (g : β → γ) (h : Consumes limit r x v) :
    Consumes limit (map g r) x (g v) := by
  intro d i j hd hseg
  simp only [Cursor.map, h d i j hd hseg, bind, Except.bind]

theorem Local.map (g : β → γ) (hr : Local limit r) : Local limit (map g r) := by
  intro d i w j hd h
  cases hrd : r d i with
  | error e => simp [Cursor.map, hrd, bind, Except.bind] at h
  | ok p =>
      simp only [Cursor.map, hrd, bind, Except.bind, Except.ok.injEq, Prod.mk.injEq] at h
      obtain ⟨rfl, rfl⟩ := h
      obtain ⟨x, hseg, hx, hcons⟩ := hr d i p.1 p.2 hd hrd
      exact ⟨x, hseg, hx, hcons.map g⟩

end Readers

/-! ## Reading to the end of the input -/

/-- `for i < len(d) { step }`, with the failure `overrun` for a position past the end. Without fuel the
loop is `stuck`. -/
def loop (stuck overrun : ε) (step : β → Reader α ε β) (d : List α) : Nat → β → Nat → Except ε β
  | 0, _, _ => .error stuck
  | fuel + 1, s, i =>
      if i < d.length then step s d i >>= fun p => loop stuck overrun step d fuel p.1 p.2
      else if d.length < i then .error overrun
      else .ok s

/-- The input is cut into chunks, each of which a step consumes. -/
inductive Chunks (limit : Nat) (step : β → Reader α ε β) : β → List α → β → Prop
  | nil (s : β) : Chunks limit step s [] s
  | cons {s s' s'' : β} {x y : List α} (hx : x ≠ []) (h : Consumes limit (step s) x s')
      (rest : Chunks limit step s' y s'') : Chunks limit step s (x ++ y) s''

section Loop

variable {stuck overrun : ε} {step : β → Reader α ε β} {s s' s'' : β} {d x y : List α}

theorem Chunks.single (hx : x ≠ []) (h : Consumes limit (step s) x s') :
    Chunks limit step s x s' := by
  have := Chunks.cons hx h (Chunks.nil s')
  rwa [List.append_nil] at this

theorem Chunks.append (h₁ : Chunks limit step s x s') (h₂ : Chunks limit step s' y s'') :
    Chunks limit step s (x ++ y) s'' := by
  induction h₁ with
  | nil s => exact h₂
  | cons hx h rest ih =>
      rw [List.append_assoc]
      exact Chunks.cons hx h (ih h₂)

/-- What every chunk preserves holds at the end of the input. -/
theorem Chunks.invariant {P : β → Prop} (h : Chunks limit step s y s') (hy : y.length < limit)
    (hstep : ∀ s s' x, x.length < limit → Consumes limit (step s) x s' → P s → P s') (hs : P s) :
    P s' := by
  induction h with
  | nil s => exact hs
  | cons hx h rest ih =>
      rw [List.length_append] at hy
      exact ih (by omega) (hstep _ _ _ (by omega) h hs)

theorem loop_of_chunks (hd : d.length < limit) (h : Chunks limit step s y s') :
    ∀ (i fuel : Nat), Span d i d.length y → y.length < fuel →
      loop stuck overrun step d fuel s i = .ok s' := by
  induction h with
  | nil s =>
      intro i fuel hseg hfuel
      obtain ⟨fuel, rfl⟩ := Nat.exists_eq_add_one_of_ne_zero (Nat.ne_zero_of_lt hfuel)
      have hlen := hseg.length.1
      rw [List.length_nil] at hlen
      rw [loop, if_neg (by omega), if_neg (by omega)]
  | @cons s s' s'' x y hx h rest ih =>
      intro i fuel hseg hfuel
      obtain ⟨fuel, rfl⟩ := Nat.exists_eq_add_one_of_ne_zero (Nat.ne_zero_of_lt hfuel)
      obtain ⟨j, hx', hy'⟩ := hseg.split
      have hpos := List.length_pos_of_ne_nil hx
      have hj := hx'.length
      rw [List.length_append] at hfuel
      rw [loop, if_pos (by omega), h d i j hd hx']
      exact ih j fuel hy' (by omega)

theorem chunks_of_loop (hlocal : ∀ s, Local limit (step s)) (hd : d.length < limit) :
    ∀ (fuel : Nat) (s : β) (i : Nat), i ≤ d.length →
      loop stuck overrun step d fuel s i = .ok s' → Chunks limit step s (d.drop i) s' := by
  intro fuel
  induction fuel with
  | zero =>
      intro s i _ h
      cases h
  | succ fuel ih =>
      intro s i hi h
      rw [loop] at h
      split at h
      · cases hstep : step s d i with
        | error e => simp [hstep, bind, Except.bind] at h
        | ok p =>
            simp only [hstep, bind, Except.bind] at h
            obtain ⟨x, hseg, hx, hcons⟩ := hlocal s d i p.1 p.2 hd hstep
            obtain ⟨after, hafter⟩ := hseg.drop_eq
            obtain ⟨hj, hle⟩ := hseg.length
            -- what is left after the chunk is left from the next position on
            have hrest : d.drop p.2 = after := by
              rw [hj, ← List.drop_drop, hafter, List.drop_left]
            rw [hafter, ← hrest]
            exact Chunks.cons hx hcons (ih p.1 p.2 hle h)
      · split at h
        · cases h
        · cases h
          rw [List.drop_eq_nil_of_le (by omega)]
          exact Chunks.nil _

/-- The successful runs of the loop are the ways to cut the input into chunks. -/
theorem loop_eq_ok_iff (hlocal : ∀ s, Local limit (step s)) (hd : d.length < limit) :
    loop stuck overrun step d (d.length + 1) s 0 = .ok s' ↔ Chunks limit step s d s' := by
  constructor
  · intro h
    exact chunks_of_loop hlocal hd _ s 0 (Nat.zero_le _) h
  · intro h
    exact loop_of_chunks hd h 0 _ (span_self d) (Nat.lt_succ_self _)

/-- A failure of the loop is the failure of a step: the loop has enough fuel, and its position does not
pass the end. -/
theorem loop_eq_error (hlocal : ∀ s, Local limit (step s)) (hd : d.length < limit) {e : ε} :
    ∀ (fuel : Nat) (s : β) (i : Nat), i ≤ d.length → d.length < fuel + i →
      loop stuck overrun step d fuel s i = .error e → ∃ s i, i < d.length ∧ step s d i = .error e := by
  intro fuel
  induction fuel with
  | zero =>
      intro s i hi hfuel _
      omega
  | succ fuel ih =>
      intro s i hi hfuel h
      rw [loop] at h
      split at h
      · rename_i hlt
        cases hstep : step s d i with
        | error e' =>
            simp only [hstep, bind, Except.bind, Except.error.injEq] at h
            exact ⟨s, i, hlt, h ▸ hstep⟩
        | ok p =>
            simp only [hstep, bind, Except.bind] at h
            have := (hlocal s).lt hd hstep
            exact ih p.1 p.2 this.2 (by omega) h
      · split at h
        · omega
        · cases h

end Loop

/-! ## Filling a buffer from its end -/

/-- A writer is given a buffer and the position before which it writes, and returns the buffer and the
position of the first element that it wrote. -/
abbrev BufferWriter (α ε : Type) := List α → Int → Except ε (List α × Int)

/-- The writer puts the elements `x` in front of what the buffer holds after the position. -/
def Prepends (w : BufferWriter α ε) (x : List α) : Prop :=
  ∀ before hole after : List α, hole.length = x.length →
    w (before ++ (hole ++ after)) (before.length + hole.length) =
      .ok (before ++ (x ++ after), before.length)

/-- One writer, then another in front of it. -/
def andThen (w₁ w₂ : BufferWriter α ε) : BufferWriter α ε := fun d i => w₁ d i >>= fun p => w₂ p.1 p.2

theorem Prepends.andThen {w₁ w₂ : BufferWriter α ε} {x₁ x₂ : List α} (h₁ : Prepends w₁ x₁)
    (h₂ : Prepends w₂ x₂) : Prepends (andThen w₁ w₂) (x₂ ++ x₁) := by
  intro before hole after hlen
  rw [List.length_append] at hlen
  -- the first writer fills the back of the hole
  obtain ⟨front, back, rfl, hfront⟩ :
      ∃ front back, hole = front ++ back ∧ front.length = x₂.length :=
    ⟨hole.take x₂.length, hole.drop x₂.length, (List.take_append_drop _ _).symm,
      List.length_take_of_le (by omega)⟩
  rw [List.length_append] at hlen
  have h₁' := h₁ (before ++ front) back after (by omega)
  have h₂' := h₂ before front (x₁ ++ after) hfront
  simp only [List.append_assoc, List.length_append, Int.natCast_add] at h₁' h₂' ⊢
  rw [← Int.add_assoc]
  simp only [Cursor.andThen, h₁', bind, Except.bind, h₂']

section Backwards

universe u

variable {ι : Type u}

/-- Write the elements of a list, the last one first. -/
def backwards (w : ι → BufferWriter α ε) : List ι → BufferWriter α ε
  | [] => fun d i => .ok (d, i)
  | v :: vs => andThen (backwards w vs) (w v)

theorem prepends_backwards {w : ι → BufferWriter α ε} {encode : ι → List α} {l : List ι}
    (h : ∀ v ∈ l, Prepends (w v) (encode v)) : Prepends (backwards w l) (l.flatMap encode) := by
  induction l with
  | nil =>
      intro before hole after hlen
      obtain rfl : hole = [] := List.eq_nil_of_length_eq_zero hlen
      simp [backwards]
  | cons v vs ih =>
      rw [List.flatMap_cons]
      apply Prepends.andThen
      · exact ih fun v' hv' => h v' (List.mem_cons_of_mem v hv')
      · exact h v List.mem_cons_self

end Backwards

end EnergyChain.Cursor
