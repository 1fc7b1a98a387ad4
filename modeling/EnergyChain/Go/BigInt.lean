import EnergyChain.Go.Bytes

/-!
# Reading integers

`big.Int.SetString(s, base)` for the two bases the program uses. With base `0` the text may carry a
sign, a Go literal prefix (`0b`, `0o`, `0x`, or a leading zero for octal) and underscores between
digits; with base `10` it is a signed string of decimal digits. The whole text must be consumed.

The decimal text of an integer is read back exactly in base `0` (`setString_formatInt`), and a
non-empty string of decimal digits is read as its value in base `10` (`setString_ten_digits`). The two
bases differ on digits behind a leading zero (`setString_zero_eq_decimal_iff`).
-/

set_option autoImplicit false

namespace EnergyChain.Go

/-- The last character the scanner saw: a digit, an underscore, or anything else. A separator is
valid only after a digit. -/
inductive Prev where
  | other
  | digit
  | sep
  deriving DecidableEq, Repr

/-- The literal prefix in front of the digits. -/
inductive LitPrefix where
  | none
  | base
  | octal
  deriving DecidableEq, Repr

/-- The scanner between two characters: value and number of digits so far, the last character, and
whether a misplaced separator was seen. -/
structure Scan where
  value : Nat
  count : Nat
  prev : Prev
  invalSep : Bool
  deriving DecidableEq, Repr

/-- The scanner in front of the first character. -/
def Scan.start : Scan := ⟨0, 0, .other, false⟩

/-- The value of a character as a digit; `63` for a character that is a digit in no base. -/
def digitVal (ch : UInt8) : Nat :=
  if 48 ≤ ch ∧ ch ≤ 57 then ch.toNat - 48
  else if 97 ≤ ch ∧ ch ≤ 122 then ch.toNat - 97 + 10
  else if 65 ≤ ch ∧ ch ≤ 90 then ch.toNat - 65 + 10
  else 63

/-- Read digits of base `b` up to the first character that is none; underscores are skipped when
`sepOk`. Returns the scanner and the unread rest. -/
def scanDigits (b : Nat) (sepOk : Bool) : GoString → Scan → Scan × GoString
  | [], st => (st, [])
  | ch :: rest, st =>
      if ch = 95 ∧ sepOk then
        scanDigits b sepOk rest
          { st with invalSep := st.invalSep || decide (st.prev ≠ .digit), prev := .sep }
      else if b ≤ digitVal ch then (st, ch :: rest)
      else
        scanDigits b sepOk rest
          { st with value := st.value * b + digitVal ch, count := st.count + 1, prev := .digit }

/-- The actual base, the literal prefix, the scanner and the text in front of the digits. -/
def litPrefix (base : Nat) (s : GoString) : Nat × LitPrefix × Scan × GoString :=
  if base = 0 then
    match s with
    -- a lone zero is the digit zero, not a prefix
    | 48 :: [] => (10, .none, ⟨0, 1, .digit, false⟩, [])
    | 48 :: ch :: rest =>
        if ch = 98 ∨ ch = 66 then (2, .base, ⟨0, 0, .digit, false⟩, rest)
        else if ch = 111 ∨ ch = 79 then (8, .base, ⟨0, 0, .digit, false⟩, rest)
        else if ch = 120 ∨ ch = 88 then (16, .base, ⟨0, 0, .digit, false⟩, rest)
        -- a zero in front of other characters is the old octal prefix
        else (8, .octal, ⟨0, 0, .digit, false⟩, ch :: rest)
    | _ => (10, .none, .start, s)
  else (base, .none, .start, s)

/-- `nat.scan`: the value read and the unread rest. A lone octal prefix reads as zero. -/
def scanNat (base : Nat) (s : GoString) : Option (Nat × GoString) :=
  match litPrefix base s with
  | (b, pre, st₀, s₀) =>
      match scanDigits b (base == 0) s₀ st₀ with
      | (st, rest) =>
          -- an underscore has to stand between digits, or between prefix and digit
          if st.invalSep || decide (st.prev = .sep) then none
          else if st.count = 0 then
            if pre = .octal then some (0, rest) else none
          else some (st.value, rest)

/-- `big.Int.SetString`. -/
def setString (s : GoString) (base : Nat) : Option Int :=
  match s with
  | [] => none
  | ch :: rest =>
      -- the sign comes before the literal prefix
      let neg := ch = 45
      let text := if ch = 45 ∨ ch = 43 then rest else ch :: rest
      match scanNat base text with
      | some (n, []) => some (if neg then -(n : Int) else n)
      | _ => none

/-! ## Decimal digits -/

theorem digitVal_of_isDigit {b : UInt8} (h : isDigit b = true) :
    digitVal b = b.toNat - 48 ∧ digitVal b < 10 := by
  have h' : 48 ≤ b ∧ b ≤ 57 := by simpa [isDigit] using h
  have hle : b.toNat ≤ 57 := by simpa [UInt8.le_iff_toNat_le] using h'.2
  have e : digitVal b = b.toNat - 48 := by simp only [digitVal, if_pos h']
  exact ⟨e, by omega⟩

theorem ne_underscore_of_isDigit {b : UInt8} (h : isDigit b = true) : b ≠ 95 := by
  rintro rfl
  simp [isDigit] at h

/-- The value of a string of digits in a base up to ten, continuing from `acc`. -/
def digitsValue (base acc : Nat) (s : GoString) : Nat :=
  s.foldl (fun v ch => v * base + (ch.toNat - 48)) acc

theorem digitsValue_ten (acc : Nat) (s : GoString) : digitsValue 10 acc s = decimalValue acc s := rfl

theorem digitsValue_concat (base acc : Nat) (s : GoString) (b : UInt8) :
    digitsValue base acc (s ++ [b]) = digitsValue base acc s * base + (b.toNat - 48) := by
  rw [digitsValue, List.foldl_append]
  rfl

/-- A string of digits that the base has is consumed whole. -/
theorem scanDigits_digits (base : Nat) (sepOk : Bool) :
    ∀ (s : GoString) (st : Scan), (∀ b ∈ s, isDigit b = true) → (∀ b ∈ s, digitVal b < base) →
      s ≠ [] → scanDigits base sepOk s st =
        (⟨digitsValue base st.value s, st.count + s.length, .digit, st.invalSep⟩, []) := by
  intro s
  induction s with
  | nil => intro st _ _ hne; exact absurd rfl hne
  | cons b s ih =>
      intro st hs hlt _
      have hb := hs b List.mem_cons_self
      have hval := (digitVal_of_isDigit hb).1
      have hbase := hlt b List.mem_cons_self
      have hne := ne_underscore_of_isDigit hb
      rw [scanDigits, if_neg (by simp [hne]), if_neg (by omega), hval]
      -- the scanner ends on a digit, since there is one more
      cases s with
      | nil => simp [scanDigits, digitsValue]
      | cons c s =>
          rw [ih _ (fun x hx => hs x (List.mem_cons_of_mem b hx))
            (fun x hx => hlt x (List.mem_cons_of_mem b hx)) (by simp)]
          simp only [digitsValue, List.foldl_cons, List.length_cons]
          congr 2
          omega

/-- Base ten consumes a string of decimal digits whole. -/
theorem scanDigits_ten (sepOk : Bool) (s : GoString) (st : Scan) (hs : ∀ b ∈ s, isDigit b = true)
    (hne : s ≠ []) : scanDigits 10 sepOk s st =
      (⟨decimalValue st.value s, st.count + s.length, .digit, st.invalSep⟩, []) := by
  refine scanDigits_digits 10 sepOk s st hs ?_ hne
  intro b hb
  exact (digitVal_of_isDigit (hs b hb)).2

/-- The scanner stops at the first digit that the base does not have. -/
theorem lt_of_scanDigits {base : Nat} {sepOk : Bool} :
    ∀ {s : GoString} {st : Scan}, (∀ b ∈ s, isDigit b = true) →
      (scanDigits base sepOk s st).2 = [] → ∀ b ∈ s, digitVal b < base := by
  intro s
  induction s with
  | nil => intro st _ _ b hb; cases hb
  | cons c s ih =>
      intro st hs h
      have hne := ne_underscore_of_isDigit (hs c List.mem_cons_self)
      rw [scanDigits, if_neg (by simp [hne])] at h
      split at h
      · cases h
      · rename_i hlt
        intro b hb
        rcases List.mem_cons.1 hb with rfl | hb
        · omega
        · exact ih (fun x hx => hs x (List.mem_cons_of_mem c hx)) h b hb

/-- Digits with no octal prefix are read in base ten. -/
theorem litPrefix_of_head {s : GoString} (h : s.head? ≠ some 48) (base : Nat)
    (hbase : base = 0 ∨ base = 10) : litPrefix base s = (10, .none, .start, s) := by
  rcases hbase with rfl | rfl
  · cases s with
    | nil => rfl
    | cons b s =>
        have hb : b ≠ 48 := by simpa using h
        simp only [litPrefix, if_pos]
        split
        · exact absurd (by simp_all) hb
        · exact absurd (by simp_all) hb
        · rfl
  · rfl

theorem scanNat_ten {s : GoString} (hs : ∀ b ∈ s, isDigit b = true) (hne : s ≠ []) :
    scanNat 10 s = some (decimalValue 0 s, []) := by
  have hlen : s.length ≠ 0 := by simpa using hne
  have e : litPrefix 10 s = (10, .none, .start, s) := rfl
  simp [scanNat, e, scanDigits_ten _ s _ hs hne, Scan.start, hlen]

/-- In base zero digits without a leading zero are decimal. -/
theorem scanNat_zero_decimal {s : GoString} (hs : ∀ b ∈ s, isDigit b = true) (hne : s ≠ [])
    (hhead : s.head? ≠ some 48) : scanNat 0 s = some (decimalValue 0 s, []) := by
  have hlen : s.length ≠ 0 := by simpa using hne
  have e := litPrefix_of_head hhead 0 (Or.inl rfl)
  simp [scanNat, e, scanDigits_ten _ _ _ hs hne, Scan.start, hlen]

theorem scanNat_zero_formatNat (n : Nat) : scanNat 0 (formatNat n) = some (n, []) := by
  by_cases h : n = 0
  · subst h
    rfl
  · rw [scanNat_zero_decimal (fun b hb => isDigit_of_mem_formatNat hb) (formatNat_ne_nil n)
      (head_formatNat_ne_zero h), decimalValue_formatNat]

/-- A sign is no digit. -/
theorem ne_sign_of_isDigit {b : UInt8} (h : isDigit b = true) : b ≠ 45 ∧ b ≠ 43 := by
  constructor
  · rintro rfl
    simp [isDigit] at h
  · rintro rfl
    simp [isDigit] at h

/-- In base ten a non-empty string of digits is read as its value. -/
theorem setString_ten_digits {s : GoString} (hs : ∀ b ∈ s, isDigit b = true) (hne : s ≠ []) :
    setString s 10 = some (decimalValue 0 s : Int) := by
  cases s with
  | nil => exact absurd rfl hne
  | cons b s =>
      obtain ⟨h45, h43⟩ := ne_sign_of_isDigit (hs b List.mem_cons_self)
      simp [setString, h45, h43, scanNat_ten hs hne]

/-- In base zero the decimal text of an integer is read back exactly. -/
theorem setString_formatInt (z : Int) : setString (formatInt z) 0 = some z := by
  by_cases hz : z < 0
  · have e : formatInt z = 45 :: formatNat z.natAbs := by simp only [formatInt, if_pos hz]
    rw [e]
    simp only [setString, true_or, if_true, scanNat_zero_formatNat]
    congr 1
    omega
  · have e : formatInt z = formatNat z.natAbs := by simp only [formatInt, if_neg hz]
    rw [e]
    -- the first digit is not mistaken for a sign
    cases hf : formatNat z.natAbs with
    | nil => exact absurd hf (formatNat_ne_nil _)
    | cons b s =>
        have hb : isDigit b = true := isDigit_of_mem_formatNat (n := z.natAbs) (by rw [hf]; simp)
        obtain ⟨h45, h43⟩ := ne_sign_of_isDigit hb
        simp only [setString, h45, h43, or_self, if_false, ← hf, scanNat_zero_formatNat]
        congr 1
        omega

/-! ## A leading zero -/

/-- A zero in front of more digits selects octal, which has no digits above seven. -/
theorem scanNat_zero_octal {b : UInt8} {s : GoString} (hs : ∀ c ∈ b :: s, isDigit c = true)
    {n : Nat} (h : scanNat 0 (48 :: b :: s) = some (n, [])) :
    (∀ c ∈ b :: s, digitVal c < 8) ∧ n = digitsValue 8 0 (b :: s) := by
  have hpre : litPrefix 0 (48 :: b :: s) = (8, .octal, ⟨0, 0, .digit, false⟩, b :: s) := by
    have hletter : ∀ c : UInt8, isDigit c = true →
        c ≠ 98 ∧ c ≠ 66 ∧ c ≠ 111 ∧ c ≠ 79 ∧ c ≠ 120 ∧ c ≠ 88 := by decide +kernel
    obtain ⟨h1, h2, h3, h4, h5, h6⟩ := hletter b (hs b List.mem_cons_self)
    simp [litPrefix, h1, h2, h3, h4, h5, h6]
  -- the whole text was consumed, so every digit is octal
  have hrest : (scanDigits 8 true (b :: s) ⟨0, 0, .digit, false⟩).2 = [] := by
    unfold scanNat at h
    rw [hpre] at h
    dsimp only at h
    split at h
    · cases h
    · split at h
      · exact (Prod.mk.inj (Option.some.inj h)).2
      · exact (Prod.mk.inj (Option.some.inj h)).2
  have hlt := lt_of_scanDigits hs hrest
  have hscan := scanDigits_digits 8 true (b :: s) ⟨0, 0, .digit, false⟩ hs hlt (by simp)
  refine ⟨hlt, ?_⟩
  simpa [scanNat, hpre, hscan] using h.symm

/-- Digits read in octal never give more than in decimal, and give the same only below eight. -/
theorem digitsValue_eight {s : GoString} (hs : ∀ b ∈ s, isDigit b = true)
    (hlt : ∀ b ∈ s, digitVal b < 8) : digitsValue 8 0 s ≤ decimalValue 0 s ∧
      (digitsValue 8 0 s = decimalValue 0 s ↔ decimalValue 0 s < 8) := by
  induction s using List.reverseRecOn with
  | nil => simp [digitsValue, decimalValue]
  | append_singleton s b ih =>
      -- the last digit counts the same in both bases, so all digits before it have to be zero
      have hval := (digitVal_of_isDigit (hs b (by simp))).1
      have hb := hlt b (by simp)
      obtain ⟨hle, -⟩ := ih (fun c hc => hs c (by simp [hc])) (fun c hc => hlt c (by simp [hc]))
      rw [← digitsValue_ten, digitsValue_concat, digitsValue_concat, digitsValue_ten]
      omega

/-- A string of digits has the same value in base zero and in base ten exactly if it has no leading
zero or is below eight. -/
theorem setString_zero_eq_decimal_iff {s : GoString} (hs : ∀ b ∈ s, isDigit b = true) {z : Int}
    (h : setString s 0 = some z) :
    z = decimalValue 0 s ↔ s.head? ≠ some 48 ∨ decimalValue 0 s < 8 := by
  cases s with
  | nil => cases h
  | cons b s =>
      obtain ⟨h45, h43⟩ := ne_sign_of_isDigit (hs b List.mem_cons_self)
      -- without a sign the number is what the scanner read
      obtain ⟨n, hscan, rfl⟩ : ∃ n : Nat, scanNat 0 (b :: s) = some (n, []) ∧ z = n := by
        simp only [setString, h45, h43, or_self, if_false] at h
        split at h
        · rename_i n hscan
          exact ⟨n, hscan, (Option.some.inj h).symm⟩
        · cases h
      by_cases hzero : b = 48
      · subst hzero
        have hnot : ¬ (48 :: s : GoString).head? ≠ some 48 := by simp
        rw [or_iff_right hnot]
        cases s with
        | nil =>
            cases hscan
            simp [decimalValue]
        | cons c s =>
            -- the zero adds nothing to the value
            have hvalue : decimalValue 0 (48 :: c :: s) = decimalValue 0 (c :: s) := rfl
            have hdigits := fun x hx => hs x (List.mem_cons_of_mem 48 hx)
            obtain ⟨hlt, rfl⟩ := scanNat_zero_octal hdigits hscan
            rw [hvalue, Nat.cast_inj]
            exact (digitsValue_eight hdigits hlt).2
      · have hhead : (b :: s).head? ≠ some 48 := by simpa using hzero
        rw [scanNat_zero_decimal hs (by simp) hhead] at hscan
        cases hscan
        exact iff_of_true rfl (Or.inl hhead)

/-- A leading zero selects octal in base zero and is plain decimal in base ten. -/
example : setString (bytes "010") 0 = some 8 ∧ setString (bytes "010") 10 = some 10 := by decide

end EnergyChain.Go
