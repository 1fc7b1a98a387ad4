import EnergyChain.Sdk.Int
import Mathlib.Data.List.Sort

/-!
# Coins

Coins, coin sets and the coin parser of the SDK. A coin set given to the bank is sanitised by
`newCoins` (zero coins dropped, sorted) and checked by `coinsValidate` (valid denominations in
strictly ascending order, positive amounts).

The parser splits a text with the regular expression `^(reDecAmt)[[:space:]]*(reDnmString)$`: an
amount, blanks, and a denomination of a letter and 2 to 127 letters, digits, slashes and hyphens. A
denomination starts with a letter, so the amount is the longest front part of digits and points. No
denomination unit is registered in the application, so `NormalizeDecCoin` changes nothing.
`parseCoinNormalized_digits` says that a string of digits in front of a denomination is read as that
many coins, if their number has at most 256 bits.
-/

set_option autoImplicit false

namespace EnergyChain.Sdk

open EnergyChain.Go

/-! ## Denominations and coins -/

/-- `sdk.Coin`. -/
structure Coin where
  denom : GoString
  amount : Int
  deriving DecidableEq, Repr

/-- `[a-zA-Z]`. -/
def isLetter (b : UInt8) : Bool := (65 ≤ b && b ≤ 90) || (97 ≤ b && b ≤ 122)

/-- A letter, a digit, a slash or a hyphen. -/
def isDenomByte (b : UInt8) : Bool := isLetter b || isDigit b || b == 47 || b == 45

/-- `reDnm.MatchString`. -/
def matchDenom : GoString → Bool
  | [] => false
  | b :: rest =>
      isLetter b && rest.all isDenomByte && decide (2 ≤ rest.length ∧ rest.length ≤ 127)

/-- `sdk.ValidateDenom`. -/
def validateDenom (denom : GoString) : Outcome Unit :=
  require (matchDenom denom = true) (.error (bytes "invalid denom: " ++ denom))

/-- `Coin.String`. -/
def coinString (c : Coin) : GoString := formatInt c.amount ++ c.denom

/-- `Coin.Validate`. -/
def coinValidate (c : Coin) : Outcome Unit := do
  validateDenom c.denom
  require (0 ≤ c.amount) (.error (bytes "negative coin amount: " ++ formatInt c.amount))

/-- `sdk.NewCoin`. -/
def newCoin (denom : GoString) (amount : Int) : Outcome Coin := do
  panicOnErr id (coinValidate ⟨denom, amount⟩)
  return ⟨denom, amount⟩

@[simp]
theorem validateDenom_eq_ok {denom : GoString} {u : Unit} :
    validateDenom denom = .ok u ↔ matchDenom denom = true := require_eq_ok

@[simp]
theorem coinValidate_eq_ok {c : Coin} {u : Unit} :
    coinValidate c = .ok u ↔ matchDenom c.denom = true ∧ 0 ≤ c.amount := by
  simp only [coinValidate, validateDenom, require_bind_eq_ok, require_eq_ok]

@[simp]
theorem newCoin_eq_ok {denom : GoString} {amount : Int} {c : Coin} :
    newCoin denom amount = .ok c ↔
      (matchDenom denom = true ∧ 0 ≤ amount) ∧ c = ⟨denom, amount⟩ := by
  simp only [newCoin, bind_eq_ok, panicOnErr_eq_ok, coinValidate_eq_ok, pure_eq_ok, exists_const]

/-! ## Coin sets -/

/-- `Coins.String`. -/
def coinsString (coins : List Coin) : GoString := [44].intercalate (coins.map coinString)

/-- The loop of `Coins.Validate` over the coins after the first. -/
def coinsValidateRest (lowDenom : GoString) (seenDenoms : List GoString) :
    List Coin → Outcome Unit
  | [] => .ok ()
  | coin :: rest => do
      require (coin.denom ∉ seenDenoms) (.error (bytes "duplicate denomination " ++ coin.denom))
      validateDenom coin.denom
      require (lowDenom < coin.denom)
        (.error (bytes "denomination " ++ coin.denom ++ bytes " is not sorted"))
      require (0 < coin.amount)
        (.error (bytes "coin " ++ coin.denom ++ bytes " amount is not positive"))
      coinsValidateRest coin.denom (coin.denom :: seenDenoms) rest

/-- `Coins.Validate`. -/
def coinsValidate : List Coin → Outcome Unit
  | [] => .ok ()
  | coin :: rest => do
      validateDenom coin.denom
      require (0 < coin.amount)
        (.error (bytes "coin " ++ coinString coin ++ bytes " amount is not positive"))
      coinsValidateRest coin.denom [coin.denom] rest

/-- `Coins.IsValid`. -/
def coinsIsValid (coins : List Coin) : Bool :=
  match coinsValidate coins with
  | .ok _ => true
  | .error _ => false

/-- `sanitizeCoins`. -/
def sanitizeCoins (coins : List Coin) : List Coin :=
  (coins.filter fun c => c.amount ≠ 0).insertionSort fun a b => a.denom ≤ b.denom

/-- `sdk.NewCoins`. -/
def newCoins (coins : List Coin) : Outcome (List Coin) := do
  let sanitized := sanitizeCoins coins
  panicOnErr (fun err => bytes "invalid coin set " ++ coinsString sanitized ++ bytes ": " ++ err)
    (coinsValidate sanitized)
  return sanitized

/-- The amount of a denomination in a coin set. -/
def amountOf (coins : List Coin) (denom : GoString) : Nat :=
  (coins.map fun c => if c.denom = denom then c.amount.toNat else 0).sum

@[simp]
theorem amountOf_nil (denom : GoString) : amountOf [] denom = 0 := rfl

@[simp]
theorem amountOf_cons (c : Coin) (coins : List Coin) (denom : GoString) :
    amountOf (c :: coins) denom =
      (if c.denom = denom then c.amount.toNat else 0) + amountOf coins denom := by
  simp [amountOf]

theorem coinsIsValid_eq_true {coins : List Coin} :
    coinsIsValid coins = true ↔ coinsValidate coins = .ok () := by
  unfold coinsIsValid
  split <;> simp_all

theorem valid_of_coinsValidateRest {low : GoString} {seen : List GoString} {coins : List Coin}
    (h : coinsValidateRest low seen coins = .ok ()) :
    ∀ c ∈ coins, matchDenom c.denom = true ∧ 0 < c.amount := by
  induction coins generalizing low seen with
  | nil => simp
  | cons coin rest ih =>
      simp only [coinsValidateRest, validateDenom, require_bind_eq_ok] at h
      obtain ⟨-, hdenom, -, hpos, hrest⟩ := h
      intro c hc
      rcases List.mem_cons.1 hc with rfl | hc
      · exact ⟨hdenom, hpos⟩
      · exact ih hrest c hc

/-- The coins of a valid set have valid denominations and positive amounts. -/
theorem valid_of_coinsIsValid {coins : List Coin} (h : coinsIsValid coins = true) :
    ∀ c ∈ coins, matchDenom c.denom = true ∧ 0 < c.amount := by
  have hv := coinsIsValid_eq_true.1 h
  cases coins with
  | nil => simp
  | cons coin rest =>
      simp only [coinsValidate, validateDenom, require_bind_eq_ok] at hv
      intro c hc
      rcases List.mem_cons.1 hc with rfl | hc
      · exact ⟨hv.1, hv.2.1⟩
      · exact valid_of_coinsValidateRest hv.2.2 c hc

theorem pos_of_coinsIsValid {coins : List Coin} (h : coinsIsValid coins = true) :
    ∀ c ∈ coins, 0 < c.amount := fun c hc => (valid_of_coinsIsValid h c hc).2

theorem coinsValidate_singleton {c : Coin} {u : Unit} :
    coinsValidate [c] = .ok u ↔ matchDenom c.denom = true ∧ 0 < c.amount := by
  simp only [coinsValidate, coinsValidateRest, validateDenom, require_bind_eq_ok, and_true]

/-- A set made of one coin: empty if the coin is zero, and the coin itself if it is valid. -/
theorem newCoins_singleton_eq_ok {c : Coin} {coins : List Coin} :
    newCoins [c] = .ok coins ↔
      (c.amount = 0 ∧ coins = []) ∨ (matchDenom c.denom = true ∧ 0 < c.amount ∧ coins = [c]) := by
  by_cases hz : c.amount = 0
  · have hs : sanitizeCoins [c] = [] := by simp [sanitizeCoins, hz]
    simp only [newCoins, hs, bind_eq_ok, panicOnErr_eq_ok, coinsValidate, pure_eq_ok]
    simp [hz]
  · have hs : sanitizeCoins [c] = [c] := by simp [sanitizeCoins, hz]
    simp only [newCoins, hs, bind_eq_ok, panicOnErr_eq_ok, pure_eq_ok]
    simp [hz, coinsValidate_singleton, and_assoc]

theorem exists_newCoins_singleton {c : Coin} (hd : matchDenom c.denom = true) (h : 0 ≤ c.amount) :
    ∃ coins, newCoins [c] = .ok coins := by
  rcases h.eq_or_lt with hz | hpos
  · exact ⟨[], newCoins_singleton_eq_ok.2 (Or.inl ⟨hz.symm, rfl⟩)⟩
  · exact ⟨[c], newCoins_singleton_eq_ok.2 (Or.inr ⟨hd, hpos, rfl⟩)⟩

/-- A set made of one coin holds the amount of the coin. -/
theorem amountOf_newCoins_singleton {c : Coin} {coins : List Coin} (h : newCoins [c] = .ok coins)
    (denom : GoString) : amountOf coins denom = if c.denom = denom then c.amount.toNat else 0 := by
  rcases newCoins_singleton_eq_ok.1 h with ⟨hz, rfl⟩ | ⟨-, -, rfl⟩
  · simp [hz]
  · simp

/-! ## Parsing -/

/-- `[[:space:]]`. -/
def isSpace (b : UInt8) : Bool := (9 ≤ b && b ≤ 13) || b == 32

/-- `reDecAmt`. -/
def matchDecAmt (s : GoString) : Bool :=
  match s.dropWhile isDigit with
  | [] => !s.isEmpty
  | b :: frac => b == 46 && !frac.isEmpty && frac.all isDigit

/-- `reDecCoin.FindStringSubmatch`: the amount and the denomination. -/
def matchDecCoin (s : GoString) : Option (GoString × GoString) :=
  -- the expression is greedy, and a denomination starts with a letter, so the amount ends there
  let amountStr := s.takeWhile fun b => isDigit b || b == 46
  let denomStr := (s.dropWhile fun b => isDigit b || b == 46).dropWhile isSpace
  if matchDecAmt amountStr && matchDenom denomStr then some (amountStr, denomStr) else none

/-- `sdk.NewDecCoinFromDec`. -/
def newDecCoinFromDec (denom : GoString) (amount : Int) : Outcome (GoString × Int) := do
  panicOnErr id (validateDenom denom)
  require (0 ≤ amount)
    (.panic (bytes "negative decimal coin amount: " ++ decString amount ++ [10]))
  return (denom, amount)

theorem newDecCoinFromDec_eq_ok {denom : GoString} {amount : Int} {r : GoString × Int} :
    newDecCoinFromDec denom amount = .ok r ↔
      (matchDenom denom = true ∧ 0 ≤ amount) ∧ r = (denom, amount) := by
  simp only [newDecCoinFromDec, bind_eq_ok, panicOnErr_eq_ok, validateDenom_eq_ok, require_eq_ok,
    pure_eq_ok, exists_const, and_assoc]

/-- `sdk.ParseDecCoin`. -/
def parseDecCoin (coinStr : GoString) : Outcome (GoString × Int) := do
  let coinStr := trimSpace coinStr
  let (amountStr, denomStr) ←
    orFail (.error (bytes "invalid decimal coin expression: " ++ coinStr)) (matchDecCoin coinStr)
  let amount ←
    mapErr (fun err => bytes "failed to parse decimal coin amount: " ++ amountStr ++ bytes ": " ++ err)
      (newDecFromStr amountStr)
  mapErr (fun err => bytes "invalid denom cannot contain upper case characters or spaces: " ++ err)
    (validateDenom denomStr)
  newDecCoinFromDec denomStr amount

/-- `DecCoin.TruncateDecimal`, without the change. -/
def truncateDecimal (denom : GoString) (amount : Int) : Outcome Coin := do
  let truncated ← truncateInt amount
  -- the change is computed and checked, and then dropped
  let change ← decSub amount (toDec truncated)
  let coin ← newCoin denom truncated
  let _ ← newDecCoinFromDec denom change
  return coin

/-- `sdk.ParseCoinNormalized`. -/
def parseCoinNormalized (coinStr : GoString) : Outcome Coin := do
  let (denom, amount) ← parseDecCoin coinStr
  truncateDecimal denom amount

/-- The coins the parser returns are valid. -/
theorem valid_of_parseCoinNormalized {s : GoString} {c : Coin}
    (h : parseCoinNormalized s = .ok c) : matchDenom c.denom = true ∧ 0 ≤ c.amount := by
  simp only [parseCoinNormalized, truncateDecimal, bind_eq_ok, newCoin_eq_ok, pure_eq_ok] at h
  obtain ⟨_, -, _, -, _, -, _, ⟨hv, rfl⟩, -, -, rfl⟩ := h
  exact hv

theorem denom_of_parseCoinNormalized {s : GoString} {c : Coin} (h : parseCoinNormalized s = .ok c) :
    c.denom = ((trimSpace s).dropWhile fun b => isDigit b || b == 46).dropWhile isSpace := by
  simp only [parseCoinNormalized, parseDecCoin, truncateDecimal, bind_eq_ok, orFail_eq_ok,
    newDecCoinFromDec_eq_ok, newCoin_eq_ok, pure_eq_ok] at h
  obtain ⟨_, ⟨⟨amountStr, denomStr⟩, hmatch, _, -, -, -, -, rfl⟩, _, -, _, -, _, ⟨-, rfl⟩, -, -, rfl⟩ := h
  unfold matchDecCoin at hmatch
  dsimp only at hmatch
  split at hmatch
  · cases hmatch
    rfl
  · simp at hmatch

/-- A letter ends the amount and is no blank. -/
theorem letter_not_amount {b : UInt8} (h : isLetter b = true) :
    (isDigit b || b == 46) = false ∧ isSpace b = false := by
  have hb := b.toNat_lt
  simp only [isLetter, isDigit, isSpace, Bool.or_eq_true, Bool.and_eq_true, decide_eq_true_eq,
    Bool.or_eq_false_iff, Bool.and_eq_false_iff, decide_eq_false_iff_not, beq_eq_false_iff_ne,
    UInt8.le_iff_toNat_le, ne_eq, ← UInt8.toNat_inj] at h ⊢
  simp at h ⊢
  omega

theorem matchDecCoin_digits {s denom : GoString} (hs : ∀ b ∈ s, isDigit b = true) (hne : s ≠ [])
    (hd : matchDenom denom = true) : matchDecCoin (s ++ denom) = some (s, denom) := by
  cases denom with
  | nil => simp [matchDenom] at hd
  | cons b rest =>
      have hletter : isLetter b = true := by
        simp only [matchDenom, Bool.and_eq_true] at hd
        exact hd.1.1
      obtain ⟨hb, hspace⟩ := letter_not_amount hletter
      have hall : ∀ c ∈ s, (isDigit c || c == 46) = true := fun c hc => by simp [hs c hc]
      have hamt : matchDecAmt s = true := by
        have : s.dropWhile isDigit = [] := List.dropWhile_eq_nil_iff.2 hs
        simp [matchDecAmt, this, hne]
      -- the amount is taken up to the first letter
      have htake : (s ++ b :: rest).takeWhile (fun c => isDigit c || c == 46) = s := by
        rw [List.takeWhile_append_of_pos hall, List.takeWhile_cons_of_neg (by simp [hb]),
          List.append_nil]
      have hdrop : (s ++ b :: rest).dropWhile (fun c => isDigit c || c == 46) = b :: rest := by
        rw [List.dropWhile_append_of_pos hall, List.dropWhile_cons_of_neg (by simp [hb])]
      have hblank : (b :: rest).dropWhile isSpace = b :: rest :=
        List.dropWhile_cons_of_neg (by simp [hspace])
      simp only [matchDecCoin, htake, hdrop, hblank, hamt, hd]
      rfl

theorem visible_of_isDenomByte {b : UInt8} (h : isDenomByte b = true) : visible b := by
  have hle : ∀ c : UInt8, c ≤ b ↔ c.toNat ≤ b.toNat := fun c => UInt8.le_iff_toNat_le
  have hge : ∀ c : UInt8, b ≤ c ↔ b.toNat ≤ c.toNat := fun c => UInt8.le_iff_toNat_le
  simp only [isDenomByte, isLetter, isDigit, Bool.or_eq_true, Bool.and_eq_true, decide_eq_true_eq,
    beq_iff_eq, hle, hge, ← UInt8.toNat_inj] at h
  simp at h
  exact ⟨by omega, by omega⟩

theorem trimSpace_digits_append {s denom : GoString} (hs : ∀ b ∈ s, isDigit b = true)
    (hd : matchDenom denom = true) : trimSpace (s ++ denom) = s ++ denom := by
  refine trimSpace_of_visible fun b hb => visible_of_isDenomByte ?_
  rcases List.mem_append.1 hb with hb | hb
  · simp [isDenomByte, hs b hb]
  · cases denom with
    | nil => simp at hb
    | cons c rest =>
        simp only [matchDenom, Bool.and_eq_true, List.all_eq_true] at hd
        rcases List.mem_cons.1 hb with rfl | hb
        · simp [isDenomByte, hd.1.1]
        · exact hd.1.2 b hb

theorem parseDecCoin_digits {s denom : GoString} (hs : ∀ b ∈ s, isDigit b = true) (hne : s ≠ [])
    (hd : matchDenom denom = true) {r : GoString × Int} : parseDecCoin (s ++ denom) = .ok r ↔
      fitsDec (toDec (decimalValue 0 s)) ∧ r = (denom, toDec (decimalValue 0 s)) := by
  have htrim := trimSpace_digits_append hs hd
  have hm := matchDecCoin_digits hs hne hd
  have hnonneg : 0 ≤ toDec (decimalValue 0 s) :=
    mul_nonneg (Int.natCast_nonneg _) (Int.natCast_nonneg _)
  simp only [parseDecCoin, htrim, hm, bind_eq_ok, orFail_eq_ok, mapErr_eq_ok,
    newDecCoinFromDec_eq_ok, validateDenom_eq_ok]
  constructor
  · rintro ⟨_, heq, amount, hamount, _, -, -, rfl⟩
    cases heq
    obtain ⟨hfit, rfl⟩ := (newDecFromStr_digits hs hne).1 hamount
    exact ⟨hfit, rfl⟩
  · rintro ⟨hfit, rfl⟩
    exact ⟨(s, denom), rfl, _, (newDecFromStr_digits hs hne).2 ⟨hfit, rfl⟩, (), hd, ⟨hd, hnonneg⟩,
      rfl⟩

/-- A whole number has no decimals to cut off. -/
theorem truncateDecimal_toDec {a : Nat} {denom : GoString} (hd : matchDenom denom = true) {c : Coin} :
    truncateDecimal denom (toDec a) = .ok c ↔ a < 2 ^ 256 ∧ c = ⟨denom, a⟩ := by
  have hquo : (toDec a).tdiv precisionReuse = a := Int.mul_tdiv_cancel _ (by decide)
  have hfit : fitsDec (toDec a - toDec a) := by
    rw [sub_self, fitsDec, Int.natAbs_zero]
    positivity
  have hfits : fits256 a ↔ a < 2 ^ 256 := by rw [fits256, Int.natAbs_natCast]
  simp only [truncateDecimal, truncateInt, decSub, bind_eq_ok, require_eq_ok, pure_eq_ok,
    newCoin_eq_ok, newDecCoinFromDec_eq_ok, hquo, hfits]
  constructor
  · rintro ⟨_, ⟨_, hlt, rfl⟩, _, -, _, ⟨-, rfl⟩, _, -, rfl⟩
    exact ⟨hlt, rfl⟩
  · rintro ⟨hlt, rfl⟩
    exact ⟨a, ⟨(), hlt, rfl⟩, toDec a - toDec a, ⟨(), hfit, rfl⟩, ⟨denom, a⟩,
      ⟨⟨hd, Int.natCast_nonneg a⟩, rfl⟩, (denom, toDec a - toDec a),
      ⟨⟨hd, (sub_self (toDec a)).ge⟩, rfl⟩, rfl⟩

/-- A text that ends in letters is parsed as a coin whose denomination ends in them. -/
theorem suffix_denom_of_parseCoinNormalized {s t : GoString} {c : Coin} (hne : t ≠ [])
    (ht : ∀ b ∈ t, isLetter b = true) (hs : t <:+ s) (h : parseCoinNormalized s = .ok c) :
    t <:+ c.denom := by
  have hvis : ∀ b ∈ t, visible b := fun b hb =>
    visible_of_isDenomByte (by simp [isDenomByte, ht b hb])
  rw [denom_of_parseCoinNormalized h]
  -- the amount and the blanks in front of the denomination hold no letter
  have hskip : ∀ {p : UInt8 → Bool} {s : GoString}, (∀ b, isLetter b = true → p b = false) →
      t <:+ s → t <:+ s.dropWhile p := by
    intro p s hp hts
    rw [← List.takeWhile_append_dropWhile (p := p) (l := s)] at hts
    refine suffix_of_suffix_append hts fun b hb hmem => ?_
    have := List.mem_takeWhile_imp hmem
    simp [hp b (ht b hb)] at this
  exact hskip (fun b hb => (letter_not_amount hb).2)
    (hskip (fun b hb => (letter_not_amount hb).1) (suffix_trimSpace hne hvis hs))

/-- Digits in front of a denomination are read as that many coins, if the number has at most 256
bits. -/
theorem parseCoinNormalized_digits {s denom : GoString} (hs : ∀ b ∈ s, isDigit b = true)
    (hne : s ≠ []) (hd : matchDenom denom = true) {c : Coin} :
    parseCoinNormalized (s ++ denom) = .ok c ↔
      decimalValue 0 s < 2 ^ 256 ∧ c = ⟨denom, decimalValue 0 s⟩ := by
  rw [parseCoinNormalized, bind_eq_ok]
  constructor
  · rintro ⟨_, hparse, htruncate⟩
    obtain ⟨-, rfl⟩ := (parseDecCoin_digits hs hne hd).1 hparse
    exact (truncateDecimal_toDec hd).1 htruncate
  · intro h
    exact ⟨_, (parseDecCoin_digits hs hne hd).2 ⟨fitsDec_toDec h.1, rfl⟩,
      (truncateDecimal_toDec hd).2 h⟩

end EnergyChain.Sdk
