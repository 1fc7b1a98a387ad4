import Mathlib

/-!
# Byte strings

A Go `string` and a Go `[]byte` are both finite byte sequences, with no promise that the bytes are
UTF-8. They are modelled by one type, `GoString`, ordered as `bytes.Compare` orders them. The module
gives the literals, the `%d` format of `fmt`, and `strings.TrimSpace`.

The decimal text of a number starts with a digit, consists of digits, and determines the number
(`formatNat_injective`, `formatInt_injective`).
-/

set_option autoImplicit false

namespace EnergyChain.Go

/-- Bytes are ordered by their value. -/
instance instLinearOrderUInt8 : LinearOrder UInt8 where
  le_refl a := UInt8.le_refl a
  le_trans _ _ _ h₁ h₂ := UInt8.le_trans h₁ h₂
  lt_iff_le_not_ge a b := by
    simp only [UInt8.lt_iff_toNat_lt, UInt8.le_iff_toNat_le]
    omega
  le_antisymm _ _ h₁ h₂ := UInt8.le_antisymm h₁ h₂
  le_total a b := UInt8.le_total a b
  toDecidableLE := inferInstance
  toDecidableLT := inferInstance

/-- A Go `string`, or a Go `[]byte`. -/
abbrev GoString := List UInt8

instance instLawfulBEqGoString : LawfulBEq GoString := List.instLawfulBEq

/-- The bytes of a string literal. -/
def bytes (s : String) : GoString := s.toUTF8.data.toList

/-! ## Decimal text -/

/-- The ASCII digit of a number below ten. -/
def digitByte (d : Nat) : UInt8 := UInt8.ofNat (48 + d)

/-- `%d` of a non-negative integer. -/
def formatNat (n : Nat) : GoString :=
  if n = 0 then [48] else (Nat.digits 10 n).reverse.map digitByte

/-- `%d` of an integer, and `big.Int.String`. -/
def formatInt (z : Int) : GoString :=
  if z < 0 then 45 :: formatNat z.natAbs else formatNat z.natAbs

/-- The bytes `'0'` to `'9'`. -/
def isDigit (b : UInt8) : Bool := 48 ≤ b && b ≤ 57

theorem digitByte_toNat {d : Nat} (h : d < 10) : (digitByte d).toNat = 48 + d := by
  simp only [digitByte, UInt8.toNat_ofNat']
  omega

theorem isDigit_digitByte {d : Nat} (h : d < 10) : isDigit (digitByte d) = true := by
  have hd := digitByte_toNat h
  simp only [isDigit, Bool.and_eq_true, decide_eq_true_eq, UInt8.le_iff_toNat_le, hd]
  exact ⟨by simp, by simp; omega⟩

theorem formatNat_zero : formatNat 0 = [48] := rfl

theorem formatNat_pos {n : Nat} (h : n ≠ 0) :
    formatNat n = (Nat.digits 10 n).reverse.map digitByte := by
  simp only [formatNat, if_neg h]

theorem formatNat_ne_nil (n : Nat) : formatNat n ≠ [] := by
  by_cases h : n = 0
  · subst h
    simp [formatNat]
  · rw [formatNat_pos h]
    simpa using Nat.digits_ne_nil_iff_ne_zero.2 h

/-- Every byte of a decimal text is a digit. -/
theorem isDigit_of_mem_formatNat {n : Nat} {b : UInt8} (hb : b ∈ formatNat n) :
    isDigit b = true := by
  by_cases h : n = 0
  · subst h
    simp only [formatNat_zero, List.mem_singleton] at hb
    subst hb
    rfl
  · rw [formatNat_pos h] at hb
    obtain ⟨d, hd, rfl⟩ := List.mem_map.1 hb
    exact isDigit_digitByte (Nat.digits_lt_base (by omega) (List.mem_reverse.1 hd))

/-- A decimal text other than `"0"` does not start with the digit zero. -/
theorem head_formatNat_ne_zero {n : Nat} (h : n ≠ 0) : (formatNat n).head? ≠ some 48 := by
  -- the first byte of the text is the last of `Nat.digits`, which is the leading digit
  rw [formatNat_pos h, List.map_reverse, List.head?_reverse, List.getLast?_map]
  have hne : Nat.digits 10 n ≠ [] := Nat.digits_ne_nil_iff_ne_zero.2 h
  have hlast := Nat.getLast_digit_ne_zero 10 h
  have hlt : (Nat.digits 10 n).getLast hne < 10 :=
    Nat.digits_lt_base (by omega) (List.getLast_mem hne)
  rw [List.getLast?_eq_some_getLast hne, Option.map_some]
  intro heq
  have hval := congrArg UInt8.toNat (Option.some.inj heq)
  rw [digitByte_toNat hlt] at hval
  exact hlast (by simpa using hval)

/-- The number that a string of digits denotes in base ten, continuing from `acc`. -/
def decimalValue (acc : Nat) (s : GoString) : Nat :=
  s.foldl (fun acc b => acc * 10 + (b.toNat - 48)) acc

theorem decimalValue_map_digitByte (l : List Nat) (hl : ∀ d ∈ l, d < 10) :
    decimalValue 0 (l.reverse.map digitByte) = Nat.ofDigits 10 l := by
  induction l with
  | nil => rfl
  | cons d l ih =>
      have hd : d < 10 := hl d List.mem_cons_self
      have ih' := ih fun e he => hl e (List.mem_cons_of_mem d he)
      -- `Nat.digits` lists the lowest digit first, so `d` is the last byte that is read
      simp only [decimalValue] at ih'
      simp only [decimalValue, List.reverse_cons, List.map_append, List.map_cons, List.map_nil,
        List.foldl_append, List.foldl_cons, List.foldl_nil, ih', digitByte_toNat hd,
        Nat.ofDigits_cons]
      omega

/-- Reading back the decimal text of a number gives the number. -/
theorem decimalValue_formatNat (n : Nat) : decimalValue 0 (formatNat n) = n := by
  by_cases h : n = 0
  · subst h
    rfl
  · rw [formatNat_pos h, decimalValue_map_digitByte _ fun d hd => Nat.digits_lt_base (by omega) hd]
    exact Nat.ofDigits_digits 10 n

theorem formatNat_injective : Function.Injective formatNat :=
  Function.LeftInverse.injective decimalValue_formatNat

/-- A decimal text of a non-negative number has no sign. -/
theorem head_formatNat_ne_minus (n : Nat) : (formatNat n).head? ≠ some 45 := by
  intro h
  have hmem := List.mem_of_mem_head? h
  have := isDigit_of_mem_formatNat hmem
  simp [isDigit] at this

theorem formatInt_injective : Function.Injective formatInt := by
  intro y z h
  simp only [formatInt] at h
  -- a minus sign on one side only is no digit on the other
  split at h <;> split at h
  · have := formatNat_injective (List.cons.inj h).2
    omega
  · exact absurd (by rw [← h]; rfl) (head_formatNat_ne_minus z.natAbs)
  · exact absurd (by rw [h]; rfl) (head_formatNat_ne_minus y.natAbs)
  · have := formatNat_injective h
    omega

/-! ## White space -/

/-- The UTF-8 encodings of the code points with the White Space property. -/
def whiteSpace : List GoString :=
  [[0x09], [0x0A], [0x0B], [0x0C], [0x0D], [0x20], [0xC2, 0x85], [0xC2, 0xA0], [0xE1, 0x9A, 0x80],
    [0xE2, 0x80, 0x80], [0xE2, 0x80, 0x81], [0xE2, 0x80, 0x82], [0xE2, 0x80, 0x83],
    [0xE2, 0x80, 0x84], [0xE2, 0x80, 0x85], [0xE2, 0x80, 0x86], [0xE2, 0x80, 0x87],
    [0xE2, 0x80, 0x88], [0xE2, 0x80, 0x89], [0xE2, 0x80, 0x8A], [0xE2, 0x80, 0xA8],
    [0xE2, 0x80, 0xA9], [0xE2, 0x80, 0xAF], [0xE2, 0x81, 0x9F], [0xE3, 0x80, 0x80]]

/-- Remove at most `fuel` white-space runes from the front. -/
def trimLeft : Nat → GoString → GoString
  | 0, s => s
  | fuel + 1, s =>
      match whiteSpace.find? fun w => w.isPrefixOf s with
      | some w => trimLeft fuel (s.drop w.length)
      | none => s

/-- Remove at most `fuel` white-space runes from the back. -/
def trimRight : Nat → GoString → GoString
  | 0, s => s
  | fuel + 1, s =>
      match whiteSpace.find? fun w => w.isSuffixOf s with
      | some w => trimRight fuel (s.take (s.length - w.length))
      | none => s

/-- `strings.TrimSpace`. A string of `n` bytes has at most `n` runes to remove. -/
def trimSpace (s : GoString) : GoString :=
  let left := trimLeft s.length s
  trimRight left.length left

/-- A printable ASCII byte other than the blank. -/
def visible (b : UInt8) : Prop := 33 ≤ b.toNat ∧ b.toNat < 128

theorem whiteSpace_not_visible {w : GoString} (h : w ∈ whiteSpace) :
    w ≠ [] ∧ ∀ b ∈ w, ¬ visible b := by
  have hall : (whiteSpace.all fun w =>
      !w.isEmpty && w.all fun b => decide (b.toNat < 33) || decide (128 ≤ b.toNat)) = true := rfl
  simp only [List.all_eq_true, Bool.and_eq_true, Bool.or_eq_true, decide_eq_true_eq,
    Bool.not_eq_true', List.isEmpty_eq_false_iff] at hall
  obtain ⟨hne, hb⟩ := hall w h
  refine ⟨hne, ?_⟩
  intro b hbw hv
  rcases hb b hbw with hlt | hlt
  · exact absurd hv.1 (by omega)
  · exact absurd hv.2 (by omega)

/-- Text without blanks is its own trim. -/
theorem trimSpace_of_visible {s : GoString} (h : ∀ b ∈ s, visible b) : trimSpace s = s := by
  -- a rune that can be removed would have a byte in `s` that is not visible
  have hnone : ∀ w ∈ whiteSpace, ¬ w ⊆ s := fun w hw hsub => by
    obtain ⟨hne, hv⟩ := whiteSpace_not_visible hw
    obtain ⟨b, hb⟩ := List.exists_mem_of_ne_nil w hne
    exact hv b hb (h b (hsub hb))
  have hl : ∀ fuel, trimLeft fuel s = s := fun fuel => by
    have hfind : (whiteSpace.find? fun w => w.isPrefixOf s) = none :=
      List.find?_eq_none.2 fun w hw hp =>
        hnone w hw (List.isPrefixOf_iff_prefix.1 hp).subset
    cases fuel with
    | zero => rfl
    | succ fuel => simp only [trimLeft, hfind]
  have hr : ∀ fuel, trimRight fuel s = s := fun fuel => by
    have hfind : (whiteSpace.find? fun w => w.isSuffixOf s) = none :=
      List.find?_eq_none.2 fun w hw hp =>
        hnone w hw (List.isSuffixOf_iff_suffix.1 hp).subset
    cases fuel with
    | zero => rfl
    | succ fuel => simp only [trimRight, hfind]
  rw [trimSpace, hl, hr]

/-- A suffix that shares no byte with the front lies in the back. -/
theorem suffix_of_suffix_append {t w s : GoString} (h : t <:+ w ++ s) (hdisj : ∀ b ∈ t, b ∉ w) :
    t <:+ s := by
  rcases List.suffix_or_suffix_of_suffix h (List.suffix_append w s) with hts | ⟨p, rfl⟩
  · exact hts
  · obtain ⟨q, hq⟩ := h
    rw [← List.append_assoc] at hq
    have hw : q ++ p = w := List.append_cancel_right hq
    -- `t` reaches back into `w` by the bytes `p`
    cases p with
    | nil => exact List.suffix_refl _
    | cons b p => exact absurd (hw ▸ List.mem_append_right q List.mem_cons_self) (hdisj b (by simp))

/-- A visible end survives the trim. -/
theorem suffix_trimSpace {t s : GoString} (hne : t ≠ []) (hvis : ∀ b ∈ t, visible b)
    (h : t <:+ s) : t <:+ trimSpace s := by
  have hleft : ∀ (fuel : Nat) (s : GoString), t <:+ s → t <:+ trimLeft fuel s := by
    intro fuel
    induction fuel with
    | zero => exact fun s hs => hs
    | succ fuel ih =>
        intro s hs
        rw [trimLeft]
        split
        · rename_i w hw
          have hpre : w.isPrefixOf s = true :=
            List.find?_some (p := fun w : GoString => w.isPrefixOf s) hw
          obtain ⟨rest, rfl⟩ := List.isPrefixOf_iff_prefix.1 hpre
          have hmem := List.mem_of_find?_eq_some hw
          -- the removed rune has no visible byte, so it lies before `t`
          rw [List.drop_left]
          refine ih rest (suffix_of_suffix_append hs fun b hb hbw => ?_)
          exact (whiteSpace_not_visible hmem).2 b hbw (hvis b hb)
        · exact hs
  have hright : ∀ (fuel : Nat) (s : GoString), t <:+ s → trimRight fuel s = s := by
    intro fuel s hs
    have hfind : (whiteSpace.find? fun w => w.isSuffixOf s) = none := by
      refine List.find?_eq_none.2 fun w hw hsuf => ?_
      obtain ⟨hwne, hwvis⟩ := whiteSpace_not_visible hw
      -- two suffixes of one string end in the same byte
      have hlast : w.getLast hwne = t.getLast hne := by
        rw [(List.isSuffixOf_iff_suffix.1 hsuf).getLast hwne, hs.getLast hne]
      exact hwvis _ (List.getLast_mem hwne) (hlast ▸ hvis _ (List.getLast_mem hne))
    cases fuel with
    | zero => rfl
    | succ fuel => simp only [trimRight, hfind]
  rw [trimSpace, hright _ _ (hleft _ _ h)]
  exact hleft _ _ h

end EnergyChain.Go
