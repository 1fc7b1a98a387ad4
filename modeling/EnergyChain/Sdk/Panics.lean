import EnergyChain.Sdk.Address
import EnergyChain.Sdk.Coin

/-!
# Panics of the SDK functions

Decoding an address and reading a decimal return an error for every text they refuse. Reading a coin
panics on one kind of text only (`noPanic_parseCoinNormalized`): a decimal may have up to 316 bits, so
its whole part can be too large for an `sdk.Int`. The constructors of coins panic on what is not a
valid coin.
-/

set_option autoImplicit false

namespace EnergyChain.Sdk

open EnergyChain.Go

theorem noPanic_accAddressFromBech32 (lib : Bech32) (address : GoString) :
    NoPanic (accAddressFromBech32 lib address) := by
  rw [accAddressFromBech32, noPanic_require_error]
  intro _
  split
  · exact noPanic_fail _
  · rw [noPanic_require_error]
    intro _
    rw [verifyAddressFormat, noPanic_bind, noPanic_require_error]
    exact ⟨fun _ => noPanic_require _, fun _ _ => noPanic_pure _⟩

/-! ## Decimals -/

theorem noPanic_decimalParts (s : GoString) : NoPanic (decimalParts s) := by
  unfold decimalParts
  split
  · exact noPanic_ok _
  · split
    · exact noPanic_fail _
    · exact noPanic_ok _
  · exact noPanic_fail _

theorem noPanic_combineDec (whole decs : GoString) : NoPanic (combineDec whole decs) := by
  rw [combineDec, noPanic_require_error]
  intro _
  dsimp only
  rw [noPanic_bind]
  refine ⟨noPanic_orFail _ _, ?_⟩
  intro combined _
  rw [noPanic_require_error]
  exact fun _ => noPanic_pure _

theorem noPanic_decAfterSign (s : GoString) : NoPanic (decAfterSign s) := by
  rw [decAfterSign, noPanic_require_error]
  intro _
  rw [noPanic_bind]
  exact ⟨noPanic_decimalParts s, fun parts _ => noPanic_combineDec parts.1 parts.2⟩

theorem noPanic_newDecFromStr (s : GoString) : NoPanic (newDecFromStr s) := by
  rw [newDecFromStr, noPanic_require_error]
  intro _
  split
  · rw [noPanic_bind]
    exact ⟨noPanic_decAfterSign _, fun _ _ => noPanic_pure _⟩
  · exact noPanic_decAfterSign s

/-- The parts of a decimal are made of its bytes. -/
theorem mem_of_decimalParts {s whole decs : GoString} (h : decimalParts s = .ok (whole, decs)) :
    (∀ b ∈ whole, b ∈ s) ∧ ∀ b ∈ decs, b ∈ s := by
  have hjoin : [46].intercalate (s.splitOn 46) = s := List.intercalate_splitOn 46
  unfold decimalParts at h
  split at h
  · rename_i hsplit
    cases h
    rw [hsplit] at hjoin
    rw [← hjoin]
    simp [List.intercalate]
  · rename_i hsplit
    split at h
    · simp at h
    · cases h
      rw [hsplit] at hjoin
      rw [← hjoin]
      simp +contextual [List.intercalate]
  · simp at h

/-- A number that is read without a sign is not negative. -/
theorem nonneg_of_setString {s : GoString} {base : Nat} {z : Int} (h : setString s base = some z)
    (hhead : s.head? ≠ some 45) : 0 ≤ z := by
  cases s with
  | nil => cases h
  | cons ch rest =>
      have hch : ch ≠ 45 := fun hch => hhead (congrArg some hch)
      simp only [setString] at h
      split at h
      · rename_i n hscan
        rw [if_neg (by simpa using hch)] at h
        rw [← Option.some.inj h]
        exact Int.natCast_nonneg n
      · cases h

theorem nonneg_of_newDecFromStr {s : GoString} {d : Int} (hs : ∀ b ∈ s, b ≠ 45)
    (h : newDecFromStr s = .ok d) : 0 ≤ d := by
  have hsign : s.head? ≠ some 45 := fun hhead => hs 45 (List.mem_of_mem_head? hhead) rfl
  rw [newDecFromStr, require_bind_eq_ok, if_neg hsign, decAfterSign, require_bind_eq_ok,
    bind_eq_ok] at h
  obtain ⟨-, -, ⟨whole, decs⟩, hparts, hcombine⟩ := h
  obtain ⟨hwhole, hdecs⟩ := mem_of_decimalParts hparts
  simp only [combineDec, bind_eq_ok, orFail_eq_ok, pure_eq_ok] at hcombine
  obtain ⟨_, -, combined, hset, _, -, rfl⟩ := hcombine
  refine nonneg_of_setString hset ?_
  -- no byte of the two parts or of the padding is a minus sign
  intro hhead
  have hmem := List.mem_of_mem_head? hhead
  rw [List.mem_append, List.mem_append] at hmem
  rcases hmem with (hmem | hmem) | hmem
  · exact hs 45 (hwhole 45 hmem) rfl
  · exact hs 45 (hdecs 45 hmem) rfl
  · cases List.eq_of_mem_replicate hmem

/-! ## Coins -/

theorem noPanic_newCoin {denom : GoString} {amount : Int} :
    NoPanic (newCoin denom amount) ↔ matchDenom denom = true ∧ 0 ≤ amount := by
  rw [newCoin, noPanic_bind, noPanic_panicOnErr]
  simp only [coinValidate_eq_ok, exists_const]
  exact and_iff_left fun _ _ => noPanic_pure _

theorem ne_minus_of_matchDecCoin {s amountStr denomStr : GoString}
    (h : matchDecCoin s = some (amountStr, denomStr)) : ∀ b ∈ amountStr, b ≠ 45 := by
  unfold matchDecCoin at h
  dsimp only at h
  split at h
  · cases h
    intro b hb
    have hamount := List.mem_takeWhile_imp hb
    rintro rfl
    revert hamount
    decide
  · cases h

theorem noPanic_parseDecCoin (s : GoString) : NoPanic (parseDecCoin s) := by
  rw [parseDecCoin, noPanic_bind]
  refine ⟨noPanic_orFail _ _, ?_⟩
  rintro ⟨amountStr, denomStr⟩ hmatch
  rw [orFail_eq_ok] at hmatch
  rw [noPanic_bind, noPanic_mapErr]
  refine ⟨noPanic_newDecFromStr _, ?_⟩
  intro amount hamount
  rw [noPanic_bind, noPanic_mapErr]
  refine ⟨noPanic_require _, ?_⟩
  intro _ hdenom
  rw [mapErr_eq_ok] at hdenom
  -- the amount has no sign and the denomination has been checked
  have hnonneg := nonneg_of_newDecFromStr (ne_minus_of_matchDecCoin hmatch) (mapErr_eq_ok.1 hamount)
  rw [newDecCoinFromDec_eq_ok.2 ⟨⟨validateDenom_eq_ok.1 hdenom, hnonneg⟩, rfl⟩]
  exact noPanic_ok _

theorem valid_of_parseDecCoin {s denom : GoString} {amount : Int}
    (h : parseDecCoin s = .ok (denom, amount)) : matchDenom denom = true ∧ 0 ≤ amount := by
  simp only [parseDecCoin, bind_eq_ok, newDecCoinFromDec_eq_ok] at h
  obtain ⟨⟨amountStr, denomStr⟩, -, _, -, _, -, hvalid, heq⟩ := h
  cases heq
  exact hvalid

/-- Cutting off the decimals panics if the whole part is too large. -/
theorem noPanic_truncateDecimal {denom : GoString} {amount : Int} (hd : matchDenom denom = true)
    (h0 : 0 ≤ amount) :
    NoPanic (truncateDecimal denom amount) ↔ fits256 (amount / precisionReuse) := by
  have hquo : amount.tdiv precisionReuse = amount / precisionReuse := Int.tdiv_eq_ediv_of_nonneg h0
  have hwhole : 0 ≤ amount / precisionReuse := Int.ediv_nonneg h0 (Int.natCast_nonneg _)
  have hchange : amount - toDec (amount / precisionReuse) = amount % precisionReuse := by
    rw [toDec, Int.emod_def, mul_comm]
  have hpos : (0 : Int) < precisionReuse := by decide
  have hrem := Int.emod_nonneg amount hpos.ne'
  have hfit : fitsDec (amount % precisionReuse) := by
    have hlt := Int.emod_lt_of_pos amount hpos
    have hbound : precisionReuse < 2 ^ 316 := by decide +kernel
    unfold fitsDec
    omega
  have hdec : decSub amount (toDec (amount / precisionReuse)) = .ok (amount % precisionReuse) := by
    rw [decSub, hchange, require_bind_of hfit, pure_eq_ok]
  have hcoin := newCoin_eq_ok.2 ⟨⟨hd, hwhole⟩, rfl⟩
  have hrest := newDecCoinFromDec_eq_ok.2 ⟨⟨hd, hrem⟩, rfl⟩
  rw [truncateDecimal, noPanic_bind, truncateInt, hquo, noPanic_require_panic]
  constructor
  · intro h
    exact h.1.1
  · intro hfits
    refine ⟨⟨hfits, noPanic_pure _⟩, ?_⟩
    intro truncated htruncated
    rw [require_bind_eq_ok, pure_eq_ok] at htruncated
    rw [htruncated.2, hdec, ok_bind, hcoin, ok_bind, hrest, ok_bind]
    exact noPanic_pure _

/-- The parser of coins panics exactly on a whole part of more than 256 bits. -/
theorem noPanic_parseCoinNormalized {s : GoString} :
    NoPanic (parseCoinNormalized s) ↔
      ∀ denom amount, parseDecCoin s = .ok (denom, amount) → fits256 (amount / precisionReuse) := by
  rw [parseCoinNormalized, noPanic_bind, and_iff_right (noPanic_parseDecCoin s)]
  constructor
  · intro h denom amount hparse
    obtain ⟨hd, h0⟩ := valid_of_parseDecCoin hparse
    exact (noPanic_truncateDecimal hd h0).1 (h _ hparse)
  · rintro h ⟨denom, amount⟩ hparse
    obtain ⟨hd, h0⟩ := valid_of_parseDecCoin hparse
    exact (noPanic_truncateDecimal hd h0).2 (h denom amount hparse)

end EnergyChain.Sdk
