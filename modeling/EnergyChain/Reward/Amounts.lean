import EnergyChain.Reward.Effects

/-!
# How amounts are read

A mint reads its amount with `NewIntFromString`, in base zero; a burn adds the denomination and reads
a decimal coin. On a string of digits the two give the same number exactly if it has no leading zero
or is below eight (`reads_alike_iff`), since a leading zero selects octal in base zero. Where they
agree, a burn takes back what a mint of the same text issued.

The issued total is a natural number in every reachable state (`exists_minted_run`).
-/

set_option autoImplicit false

namespace EnergyChain.Reward

open EnergyChain.Go
open EnergyChain.Sdk
open EnergyChain.Bank

section

variable {V : Type} {k : Keeper V} {ctx : Context}

/-! ## The issued total -/

/-- The issued total reads as a natural number. -/
def MintedNat (k : Keeper V) (store : Store V) : Prop := ∃ m : Nat, minted k store = some (m : Int)

theorem mintedNat_empty (k : Keeper V) : MintedNat k .empty := ⟨0, minted_empty k⟩

theorem ChangesOnly.mintedNat {fs : List Family} {store store' : Store V}
    (h : ChangesOnly fs store store') (hfs : Family.supply ∉ fs) (hm : MintedNat k store) :
    MintedNat k store' := by
  obtain ⟨m, hm⟩ := hm
  exact ⟨m, by rw [h.minted_eq hfs, hm]⟩

theorem MintedNat.lowerSupply {amount : Int} {store store' : Store V} (hm : MintedNat k store)
    (h : lowerSupply k amount store = .ok store') : MintedNat k store' := by
  obtain ⟨m, hm⟩ := hm
  refine ⟨(max ((m : Int) - amount) 0).toNat, ?_⟩
  rw [minted_lowerSupply hm h, Int.toNat_of_nonneg (le_max_right _ _)]

/-- The three messages that write the issued total leave a natural number, and the others leave it
alone. -/
theorem MintedNat.handle {s s' : State V} {msg : Msg} {r : Result} (hm : MintedNat k s.store)
    (h : handle k ctx s msg = .ok (s', r)) : MintedNat k s'.store := by
  by_cases hfs : Family.supply ∈ msg.families
  · cases msg with
    | rewardSolarPower msg =>
        obtain ⟨a, _, m, _, -, hm', hfit, -, -, -, -, hstore, -⟩ :=
          rewardSolarPower_spec (handle_rewardSolarPower h)
        obtain ⟨m', hm⟩ := hm
        rw [hm, Option.some_inj] at hm'
        subst hm'
        refine ⟨m' + a, ?_⟩
        rw [hstore, minted_setSupply hfit]
        rfl
    | burnStableCoin msg =>
        obtain ⟨resp, hburn⟩ := handle_burnStableCoin h
        obtain ⟨_, a, _, store₁, -, -, -, -, -, hrecs, hlower⟩ := burnStableCoin_spec hburn
        have hframe := (returnRecs_spec (Int.natCast_nonneg _) hrecs).1
        exact (hframe.mintedNat (by decide) hm).lowerSupply hlower
    | burnModuleStable msg =>
        rcases burnModuleStableCoins_spec (handle_burnModuleStable h) with
          ⟨rfl, -⟩ | ⟨a, -, -, -, -, hlower⟩
        · exact hm
        · exact hm.lowerSupply hlower
    | depositCollateral msg => simp at hfs
    | removeCollateral msg => simp at hfs
    | addEnergy msg => simp at hfs
    | createRECRecord msg => simp at hfs
    | appendTxHash msg => simp at hfs
    | distributeRewardPercent msg => simp at hfs
  · exact (handle_changesOnly h).mintedNat hfs hm

/-- The issued total is a natural number in every reachable state. -/
theorem exists_minted_run (k : Keeper V) (bank : BankState) (txs : List Tx) :
    MintedNat k (run (deliver k) (genesis bank) txs).store :=
  run_store_invariant (mintedNat_empty k) (fun hm hok => hm.handle hok) bank txs

/-! ## Digits in front of the denomination -/

theorem matchDenom_aeil : matchDenom aeil = true := by decide +kernel

/-- A string of digits gets the stable denomination. -/
theorem withAeilSuffix_digits {s : GoString} (hs : ∀ b ∈ s, isDigit b = true) :
    withAeilSuffix s = s ++ aeil := by
  rw [withAeilSuffix, if_neg]
  intro hsuffix
  -- the suffix would be a letter among the digits
  have hmem : (108 : UInt8) ∈ aeil := by decide +kernel
  have hdigit := hs 108 ((List.isSuffixOf_iff_suffix.1 hsuffix).subset hmem)
  simp [isDigit] at hdigit

theorem setString_of_newIntFromString {s : GoString} {z : Int} (h : newIntFromString s = some z) :
    setString s 0 = some z := by
  unfold newIntFromString at h
  split at h
  · rename_i z' hz'
    split at h
    · rw [hz', h]
    · cases h
  · cases h

/-- A burn reads a string of digits as its decimal value. -/
theorem parse_withAeilSuffix_digits {s : GoString} (hs : ∀ b ∈ s, isDigit b = true) (hne : s ≠ [])
    {c : Coin} : parseCoinNormalized (withAeilSuffix s) = .ok c ↔
      decimalValue 0 s < 2 ^ 256 ∧ c = ⟨aeil, decimalValue 0 s⟩ := by
  rw [withAeilSuffix_digits hs]
  exact parseCoinNormalized_digits hs hne matchDenom_aeil

/-- The decimal text of a number gets the stable denomination. -/
theorem parse_withAeilSuffix_formatNat {a : Nat} (h : a < 2 ^ 256) :
    parseCoinNormalized (withAeilSuffix (formatNat a)) = .ok ⟨aeil, a⟩ := by
  rw [parse_withAeilSuffix_digits (fun b hb => isDigit_of_mem_formatNat hb) (formatNat_ne_nil a),
    decimalValue_formatNat]
  exact ⟨h, rfl⟩

/-! ## Minting and burning the same text -/

/-- A burn of the text takes back what a mint of it issued. -/
def RestoresMinted (k : Keeper V) (amount : GoString) (s : State V) : Prop :=
  ∀ ctx ctx' to_ target s₁ s₂ resp, rewardSolarPower k ctx to_ amount s = .ok s₁ →
    burnStableCoin k ctx' target amount s₁ = .ok (s₂, resp) → minted k s₂.store = minted k s.store

/-- If both read the same number, the second takes back what the first issued. -/
theorem MintedNat.restoresMinted {amount : GoString} {s : State V} (hm : MintedNat k s.store)
    {c : Coin} (hmint : newIntFromString amount = some c.amount)
    (hburn : parseCoinNormalized (withAeilSuffix amount) = .ok c) : RestoresMinted k amount s := by
  intro ctx ctx' to_ target s₁ s₂ resp h₁ h₂
  obtain ⟨m, hm⟩ := hm
  obtain ⟨a, _, m', _, ha, hm', hfit, -, -, -, -, hstore, -⟩ := rewardSolarPower_spec h₁
  obtain ⟨denom, b, _, store₁, hb, -, -, -, -, hrecs, hlower⟩ := burnStableCoin_spec h₂
  rw [hm, Option.some_inj] at hm'
  subst hm'
  -- the two amounts are one
  have hab : (a : Int) = b := by
    rw [hburn] at hb
    rw [hmint, Except.ok.inj hb] at ha
    exact (Option.some.inj ha).symm
  have hframe := (returnRecs_spec (Int.natCast_nonneg _) hrecs).1
  have hissued : minted k store₁ = some ((m : Int) + a) := by
    rw [hframe.minted_eq (by decide), hstore, minted_setSupply hfit]
  rw [minted_lowerSupply hissued hlower, hm, ← hab, add_sub_cancel_right,
    max_eq_left (Int.natCast_nonneg m)]

/-- For every string of digits that both readers accept: they read the same number, and so a mint and
a burn of it restore the issued total in every reachable state, exactly if there is no leading zero or
the number is below eight. -/
theorem reads_alike_iff (k : Keeper V) {amount : GoString} (hdigits : ∀ b ∈ amount, isDigit b = true)
    {a : Int} {c : Coin} (hmint : newIntFromString amount = some a)
    (hburn : parseCoinNormalized (withAeilSuffix amount) = .ok c) :
    (c.amount = a ∧ ∀ bank txs, RestoresMinted k amount (run (deliver k) (genesis bank) txs)) ↔
      amount.head? ≠ some 48 ∨ decimalValue 0 amount < 8 := by
  have hset := setString_of_newIntFromString hmint
  have hne : amount ≠ [] := by
    rintro rfl
    cases hset
  obtain ⟨-, hc⟩ := (parse_withAeilSuffix_digits hdigits hne).1 hburn
  have hamount : c.amount = decimalValue 0 amount := by rw [hc]
  rw [← setString_zero_eq_decimal_iff hdigits hset, ← hamount]
  constructor
  · rintro ⟨heq, -⟩
    exact heq.symm
  · intro heq
    subst heq
    exact ⟨rfl, fun bank txs => (exists_minted_run k bank txs).restoresMinted hmint hburn⟩

end

theorem reads_alike_iff_seventy :
    (70 : Int) = 70 ∧ ∀ bank txs,
      RestoresMinted smallKeeper (bytes "70") (run (deliver smallKeeper) (genesis bank) txs) :=
  (reads_alike_iff smallKeeper (by decide +kernel) (a := 70) (c := ⟨aeil, 70⟩) (by decide +kernel)
    (by decide +kernel)).2 (by decide +kernel)

/-- A mint of `010` issues eight coins and a burn of `010` takes ten. -/
theorem leading_zero_reads_differ :
    newIntFromString (bytes "010") = some 8 ∧
    parseCoinNormalized (withAeilSuffix (bytes "010")) = .ok ⟨aeil, 10⟩ ∧
    (let s := run (deliver smallKeeper) (genesis emptyBank) depositThenMint
     minted smallKeeper s.store = some 700000 ∧
      ((do
        let s₁ ← rewardSolarPower smallKeeper (smallCtx 3) alice (bytes "010") s
        let (s₂, _) ← burnStableCoin smallKeeper (smallCtx 4) alice (bytes "010") s₁
        return minted smallKeeper s₂.store) : Outcome (Option Int)) = .ok (some 699998)) := by
  decide +kernel

end EnergyChain.Reward
