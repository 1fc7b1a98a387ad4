import EnergyChain.Go.Bytes

/-!
# Text that passes through JSON

`encoding/json` writes strings as UTF-8 and replaces every byte that does not start a valid encoding
by U+FFFD. What a string is after it was marshalled and unmarshalled is `jsonText`. It leaves valid
text alone and is idempotent (`jsonText_idem`).
-/

set_option autoImplicit false

namespace EnergyChain.Go

/-- A byte of the range `lo` to `hi`. -/
def inRange (lo hi b : UInt8) : Bool := lo ≤ b && b ≤ hi

/-- A continuation byte. -/
def isTail (b : UInt8) : Bool := inRange 0x80 0xBF b

/-- The bounds `utf8.DecodeRune` puts on the second byte after a given first byte of a two-, three-
or four-byte encoding, with the number of bytes that follow the first. -/
def leadClass (b : UInt8) : Option (Nat × UInt8 × UInt8) :=
  if inRange 0xC2 0xDF b then some (1, 0x80, 0xBF)
  else if b = 0xE0 then some (2, 0xA0, 0xBF)
  else if b = 0xED then some (2, 0x80, 0x9F)
  else if inRange 0xE1 0xEF b then some (2, 0x80, 0xBF)
  else if b = 0xF0 then some (3, 0x90, 0xBF)
  else if inRange 0xF1 0xF3 b then some (3, 0x80, 0xBF)
  else if b = 0xF4 then some (3, 0x80, 0x8F)
  else none

/-- The number of bytes of the valid encoding at the front of `b :: rest`, or `0`. -/
def runeLen (b : UInt8) (rest : GoString) : Nat :=
  -- ASCII
  if b < 0x80 then 1
  else
    match leadClass b with
    | none => 0
    | some (n, lo, hi) =>
        match rest.take n with
        | c :: tail =>
            -- the second byte has bounds of its own, which rule out overlong forms and surrogates
            if (c :: tail).length = n ∧ inRange lo hi c ∧ tail.all isTail then n + 1 else 0
        | [] => 0

/-- U+FFFD. -/
def replacement : GoString := [0xEF, 0xBF, 0xBD]

/-- Rewrite at most `fuel` runes. -/
def jsonTextAux : Nat → GoString → GoString
  | 0, _ => []
  | _ + 1, [] => []
  | fuel + 1, b :: rest =>
      if runeLen b rest = 0 then replacement ++ jsonTextAux fuel rest
      else
        (b :: rest).take (runeLen b rest) ++ jsonTextAux fuel ((b :: rest).drop (runeLen b rest))

/-- A string after `json.Marshal` and `json.Unmarshal`: every byte that starts no valid encoding has
become U+FFFD. -/
def jsonText (s : GoString) : GoString := jsonTextAux s.length s

/-- The string is valid UTF-8. -/
def ValidUtf8 (s : GoString) : Prop := jsonText s = s

instance (s : GoString) : Decidable (ValidUtf8 s) := inferInstanceAs (Decidable (jsonText s = s))

theorem runeLen_le (b : UInt8) (rest : GoString) : runeLen b rest ≤ rest.length + 1 := by
  unfold runeLen
  split
  · omega
  · split
    · omega
    · rename_i n lo hi _
      split
      · rename_i c tail htake
        split
        · rename_i h
          have := congrArg List.length htake
          rw [List.length_take, h.1] at this
          omega
        · omega
      · omega

/-- More fuel than bytes changes nothing. -/
theorem jsonTextAux_fuel : ∀ (fuel : Nat) (s : GoString), s.length ≤ fuel →
    jsonTextAux fuel s = jsonText s := by
  intro fuel
  induction fuel using Nat.strong_induction_on with
  | _ fuel ih =>
      intro s hs
      cases s with
      | nil => cases fuel <;> rfl
      | cons b rest =>
          cases fuel with
          | zero => simp at hs
          | succ fuel =>
              have hrest : rest.length ≤ fuel := by simpa using hs
              rw [jsonText, List.length_cons, jsonTextAux, jsonTextAux]
              by_cases h0 : runeLen b rest = 0
              · rw [if_pos h0, if_pos h0, ih fuel (by omega) rest hrest]
                rfl
              · rw [if_neg h0, if_neg h0]
                have hlen : ((b :: rest).drop (runeLen b rest)).length ≤ rest.length := by
                  rw [List.length_drop, List.length_cons]
                  omega
                rw [ih fuel (by omega) _ (by omega)]
                -- both sides now run on the rest, with different fuel
                by_cases hlt : rest.length < fuel + 1
                · rw [ih rest.length hlt _ hlen]
                · omega

theorem jsonText_nil : jsonText [] = [] := rfl

theorem jsonText_invalid {b : UInt8} {rest : GoString} (h : runeLen b rest = 0) :
    jsonText (b :: rest) = replacement ++ jsonText rest := by
  rw [jsonText, List.length_cons, jsonTextAux, if_pos h, jsonTextAux_fuel _ _ le_rfl]

theorem jsonText_valid {b : UInt8} {rest : GoString} (h : runeLen b rest ≠ 0) :
    jsonText (b :: rest) =
      (b :: rest).take (runeLen b rest) ++ jsonText ((b :: rest).drop (runeLen b rest)) := by
  have hlen : ((b :: rest).drop (runeLen b rest)).length ≤ rest.length := by
    rw [List.length_drop, List.length_cons]
    omega
  rw [jsonText, List.length_cons, jsonTextAux, if_neg h, jsonTextAux_fuel _ _ hlen]

/-- A valid encoding stays the front encoding whatever follows it. -/
theorem runeLen_take_append {b : UInt8} {rest : GoString} {w : Nat} (h : runeLen b rest = w + 1)
    (t : GoString) : runeLen b (rest.take w ++ t) = w + 1 := by
  unfold runeLen at h ⊢
  by_cases hb : b < 0x80
  · rw [if_pos hb] at h ⊢
    exact h
  · rw [if_neg hb] at h ⊢
    cases hc : leadClass b with
    | none => rw [hc] at h; simp at h
    | some cls =>
        obtain ⟨n, lo, hi⟩ := cls
        rw [hc] at h
        cases ht : rest.take n with
        | nil => simp [ht] at h
        | cons c tail =>
            simp only [ht] at h
            split at h
            · rename_i hok
              -- the tail bytes are all in the part that is kept, so the test reads the same bytes
              have hw : w = n := by omega
              subst hw
              have hlen : (rest.take w).length = w := by rw [ht]; exact hok.1
              have e : (rest.take w ++ t).take w = c :: tail := by
                rw [List.take_append_of_le_length hlen.ge, List.take_take, min_self, ht]
              simp only [e, if_pos hok]
            · omega

/-- The text is split after its first rune. -/
theorem jsonText_rune_append {b : UInt8} {rest : GoString} {w : Nat} (h : runeLen b rest = w + 1)
    (t : GoString) : jsonText ((b :: rest).take (w + 1) ++ t) = (b :: rest).take (w + 1) ++ jsonText t := by
  have hlen : w ≤ rest.length := by
    have := runeLen_le b rest
    omega
  have hr := runeLen_take_append h t
  rw [List.take_succ_cons, List.cons_append, jsonText_valid (by rw [hr]; omega), hr]
  have htake : (b :: (rest.take w ++ t)).take (w + 1) = b :: rest.take w := by
    rw [List.take_succ_cons, List.take_append_of_le_length (by simp [hlen]), List.take_take,
      min_self]
  have hdrop : (b :: (rest.take w ++ t)).drop (w + 1) = t := by
    rw [List.drop_succ_cons, List.drop_append_of_le_length (by simp [hlen])]
    simp
  rw [htake, hdrop]

theorem jsonText_replacement_append (t : GoString) :
    jsonText (replacement ++ t) = replacement ++ jsonText t := by
  have h : runeLen 0xEF [0xBF, 0xBD] = 2 + 1 := by decide
  exact jsonText_rune_append h t

/-- Text that came out of JSON passes through JSON unchanged. -/
theorem jsonText_idem (s : GoString) : jsonText (jsonText s) = jsonText s := by
  induction hn : s.length using Nat.strong_induction_on generalizing s with
  | _ n ih =>
      cases s with
      | nil => rfl
      | cons b rest =>
          rw [List.length_cons] at hn
          cases h : runeLen b rest with
          | zero =>
              -- a byte was replaced; U+FFFD is itself valid
              rw [jsonText_invalid h, jsonText_replacement_append, ih rest.length (by omega) rest rfl]
          | succ w =>
              -- a rune was kept, and is kept again
              have hdrop : ((b :: rest).drop (w + 1)).length < n := by
                rw [List.length_drop, List.length_cons]
                omega
              rw [jsonText_valid (by omega), h, jsonText_rune_append h, ih _ hdrop _ rfl]

/-! ## ASCII -/

theorem jsonText_ascii {s : GoString} (hs : ∀ b ∈ s, b < 0x80) : jsonText s = s := by
  induction s with
  | nil => rfl
  | cons b s ih =>
      have hlen : runeLen b s = 1 := if_pos (hs b List.mem_cons_self)
      rw [jsonText_valid (by rw [hlen]; decide), hlen, List.take_succ_cons, List.take_zero,
        List.drop_succ_cons, List.drop_zero, ih fun c hc => hs c (List.mem_cons_of_mem b hc)]
      rfl

theorem ascii_of_isDigit {b : UInt8} (h : isDigit b = true) : b < 0x80 := by
  have hall : ∀ c : UInt8, isDigit c = true → c < 0x80 := by decide +kernel
  exact hall b h

end EnergyChain.Go
