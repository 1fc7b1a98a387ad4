import Mathlib.Algebra.BigOperators.Group.Finset.Piecewise
import Mathlib.Algebra.Order.BigOperators.Group.Finset
import Mathlib.Tactic.Linarith

/-!
# Ledgers

A ledger holds a balance for every account and asset, and the recorded supply of every asset. It
changes by four moves, each by an amount per asset: `debit` and `credit` change the balances of one
account, `issue` and `retire` change the recorded supply.

A ledger covers an asset if the balances of finitely many accounts never exceed the recorded supply
(`Covers`). A transfer (a debit and a credit of the same amounts), a mint (a credit and an issue) and
a burn (a debit and a retirement) keep the cover, whatever the accounts are.
-/

set_option autoImplicit false

namespace EnergyChain

universe u v

/-- Balances by account and asset, and the recorded supply by asset. -/
@[ext]
structure Ledger (A : Type u) (D : Type v) where
  balance : A → D → ℕ
  supply : D → ℕ

namespace Ledger

variable {A : Type u} {D : Type v} [DecidableEq A]

/-- The amount `n` of one asset. -/
def only {D : Type v} [DecidableEq D] (d : D) (n : ℕ) : D → ℕ := fun d' => if d = d' then n else 0

@[simp]
theorem only_self {D : Type v} [DecidableEq D] (d : D) (n : ℕ) : only d n d = n := if_pos rfl

theorem only_of_ne {D : Type v} [DecidableEq D] {d d' : D} (h : d ≠ d') (n : ℕ) :
    only d n d' = 0 := if_neg h

/-- An amount of one asset that is held is held in every asset. -/
theorem only_le {D : Type v} [DecidableEq D] {d : D} {n : ℕ} {g : D → ℕ} (h : n ≤ g d) (d' : D) :
    only d n d' ≤ g d' := by
  by_cases hd : d = d'
  · subst hd
    rwa [only_self]
  · rw [only_of_ne hd]
    exact Nat.zero_le _

/-- Add the amounts `f` to the balances of `a`. -/
def credit (l : Ledger A D) (a : A) (f : D → ℕ) : Ledger A D :=
  { l with balance := fun b d => if b = a then l.balance b d + f d else l.balance b d }

/-- Take the amounts `f` off the balances of `a`. -/
def debit (l : Ledger A D) (a : A) (f : D → ℕ) : Ledger A D :=
  { l with balance := fun b d => if b = a then l.balance b d - f d else l.balance b d }

/-- Raise the recorded supply by `f`. -/
def issue (l : Ledger A D) (f : D → ℕ) : Ledger A D :=
  { l with supply := fun d => l.supply d + f d }

/-- Lower the recorded supply by `f`. -/
def retire (l : Ledger A D) (f : D → ℕ) : Ledger A D :=
  { l with supply := fun d => l.supply d - f d }

/-! ## How the moves act -/

section Moves

variable (l : Ledger A D) (a b : A) (d : D) (f g : D → ℕ)

theorem balance_credit :
    (l.credit a f).balance b d = l.balance b d + if b = a then f d else 0 := by
  by_cases h : b = a <;> simp [credit, h]

theorem balance_debit :
    (l.debit a f).balance b d = l.balance b d - if b = a then f d else 0 := by
  by_cases h : b = a <;> simp [debit, h]

@[simp]
theorem supply_credit : (l.credit a f).supply = l.supply := rfl

@[simp]
theorem supply_debit : (l.debit a f).supply = l.supply := rfl

omit [DecidableEq A] in
@[simp]
theorem balance_issue : (l.issue f).balance = l.balance := rfl

omit [DecidableEq A] in
@[simp]
theorem balance_retire : (l.retire f).balance = l.balance := rfl

omit [DecidableEq A] in
@[simp]
theorem supply_issue : (l.issue f).supply d = l.supply d + f d := rfl

omit [DecidableEq A] in
@[simp]
theorem supply_retire : (l.retire f).supply d = l.supply d - f d := rfl

theorem credit_credit : (l.credit a f).credit a g = l.credit a fun d => f d + g d := by
  ext b d
  · simp only [balance_credit]
    split <;> omega
  · rfl

theorem debit_debit : (l.debit a f).debit a g = l.debit a fun d => f d + g d := by
  ext b d
  · simp only [balance_debit]
    split <;> omega
  · rfl

omit [DecidableEq A] in
theorem issue_issue : (l.issue f).issue g = l.issue fun d => f d + g d := by
  ext b d
  · rfl
  · simp only [supply_issue]
    omega

omit [DecidableEq A] in
theorem retire_retire : (l.retire f).retire g = l.retire fun d => f d + g d := by
  ext b d
  · rfl
  · simp only [supply_retire]
    omega

/-- A credit that is taken off again changes nothing. -/
theorem debit_credit : (l.credit a f).debit a f = l := by
  ext b d
  · rw [balance_debit, balance_credit, Nat.add_sub_cancel]
  · rfl

theorem credit_zero : (l.credit a fun _ => 0) = l := by
  ext b d <;> simp [credit]

theorem debit_zero : (l.debit a fun _ => 0) = l := by
  ext b d <;> simp [debit]

omit [DecidableEq A] in
theorem issue_zero : (l.issue fun _ => 0) = l := rfl

omit [DecidableEq A] in
theorem retire_zero : (l.retire fun _ => 0) = l := rfl

end Moves

/-! ## Cover -/

/-- The balances of finitely many accounts stay within the recorded supply. -/
def Covers (l : Ledger A D) (d : D) : Prop :=
  ∀ s : Finset A, ∑ a ∈ s, l.balance a d ≤ l.supply d

section Cover

variable {l : Ledger A D} {a b : A} {d : D} {f : D → ℕ}

omit [DecidableEq A] in
theorem Covers.balance_le (h : l.Covers d) (a : A) : l.balance a d ≤ l.supply d := by
  simpa using h {a}

theorem sum_credit_le (s : Finset A) :
    ∑ c ∈ s, (l.credit a f).balance c d ≤ ∑ c ∈ s, l.balance c d + f d := by
  simp only [balance_credit, Finset.sum_add_distrib, Finset.sum_ite_eq']
  split <;> omega

theorem sum_debit_add (hf : f d ≤ l.balance a d) {s : Finset A} (ha : a ∈ s) :
    ∑ c ∈ s, (l.debit a f).balance c d + f d = ∑ c ∈ s, l.balance c d := by
  -- the debit is given back account by account
  have hpoint : ∀ c ∈ s,
      (l.debit a f).balance c d + (if c = a then f d else 0) = l.balance c d := by
    intro c _
    rw [balance_debit]
    split
    · rename_i hc
      subst hc
      omega
    · omega
  rw [← Finset.sum_congr rfl hpoint, Finset.sum_add_distrib, Finset.sum_ite_eq', if_pos ha]

/-- What a debit takes off is missing from every finite sum, once the account is added to it. -/
theorem sum_debit_add_le (hf : f d ≤ l.balance a d) (h : l.Covers d) (s : Finset A) :
    ∑ c ∈ s, (l.debit a f).balance c d + f d ≤ l.supply d := by
  -- the account may lie outside `s`, so the cover is used for `s` with the account added
  have hsub : ∑ c ∈ s, (l.debit a f).balance c d ≤
      ∑ c ∈ insert a s, (l.debit a f).balance c d :=
    Finset.sum_le_sum_of_subset (Finset.subset_insert a s)
  have hsum := sum_debit_add (l := l) hf (Finset.mem_insert_self a s)
  have hcover := h (insert a s)
  omega

/-- A transfer keeps the cover. -/
theorem Covers.transfer (h : l.Covers d) (hf : f d ≤ l.balance a d) :
    ((l.debit a f).credit b f).Covers d := by
  intro s
  have hc := sum_credit_le (l := l.debit a f) (a := b) (f := f) (d := d) s
  have hd := sum_debit_add_le hf h s
  rw [supply_credit, supply_debit]
  omega

/-- A mint keeps the cover. -/
theorem Covers.mint (h : l.Covers d) : ((l.credit a f).issue f).Covers d := by
  intro s
  have hc := sum_credit_le (l := l) (a := a) (f := f) (d := d) s
  have hs := h s
  rw [balance_issue, supply_issue, supply_credit]
  omega

/-- A burn keeps the cover. -/
theorem Covers.burn (h : l.Covers d) (hf : f d ≤ l.balance a d) :
    ((l.debit a f).retire f).Covers d := by
  intro s
  have hd := sum_debit_add_le hf h s
  rw [balance_retire, supply_retire, supply_debit]
  omega

end Cover

end Ledger

end EnergyChain
