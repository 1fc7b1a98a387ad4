import EnergyChain.Go.Numeric
import EnergyChain.Go.Outcome
import EnergyChain.Lib.Cursor
import EnergyChain.Lib.Varint

/-!
# The helpers of the generated protobuf code

Every generated file has its own copy of the same helpers: `sov` is the length of a number on the wire,
`encodeVarint` writes a number before a position of the buffer, `skip` measures a field that the message
type does not know, and the loop that reads a number stands wherever one is read. The buffer of `Marshal`
is filled from its end to its front. A read or a write outside of the buffer is a panic here.

Each reader is specified by the bytes that it takes, wherever they stand (`Consumes`), and each of its
results comes from bytes that it would take anywhere (`Local`); each writer puts its bytes before the
position it is given (`Prepends`). The positions are Go's `int`, so that the sums wrap around; an input
shorter than `2 ^ 63` bytes does not get that far (`maxLen`).
-/

set_option autoImplicit false

namespace EnergyChain.Proto

open EnergyChain.Go
open EnergyChain.Cursor
open EnergyChain.Varint (Groups)

/-! ## Errors and slices -/

/-- `ErrIntOverflowTx`. -/
def errIntOverflow : Fault := .error (bytes "proto: integer overflow")

/-- `ErrInvalidLengthTx`. -/
def errInvalidLength : Fault := .error (bytes "proto: negative length found during unmarshaling")

/-- `ErrUnexpectedEndOfGroupTx`. -/
def errUnexpectedEndOfGroup : Fault := .error (bytes "proto: unexpected end of group")

/-- `io.ErrUnexpectedEOF`. -/
def errUnexpectedEOF : Fault := .error (bytes "unexpected EOF")

/-- `dAtA[i]`. -/
def byteAt (dAtA : GoString) (i : Nat) : Outcome UInt8 :=
  orFail (.panic (bytes "runtime error: index out of range")) dAtA[i]?

/-- `dAtA[low:high]`. -/
def slice (dAtA : GoString) (low high : Int) : Outcome GoString :=
  if 0 ≤ low ∧ low ≤ high ∧ high ≤ dAtA.length then
    .ok ((dAtA.drop low.toNat).take (high - low).toNat)
  else throwPanic (bytes "runtime error: slice bounds out of range")

/-- `dAtA[i] = b`. -/
def setByte (dAtA : GoString) (i : Int) (b : UInt8) : Outcome GoString :=
  if 0 ≤ i ∧ i < dAtA.length then .ok (dAtA.set i.toNat b)
  else throwPanic (bytes "runtime error: index out of range")

/-- `copy(dAtA[i:], src)`. -/
def copyAt (dAtA : GoString) (i : Int) (src : GoString) : Outcome GoString :=
  if 0 ≤ i ∧ i ≤ dAtA.length then
    .ok (dAtA.take i.toNat ++ src.take (dAtA.length - i.toNat) ++ dAtA.drop (i.toNat + src.length))
  else throwPanic (bytes "runtime error: slice bounds out of range")

/-! ## Variable-length integers -/

/-- `math_bits.Len64`. -/
def len64 (x : BitVec 64) : Nat := if x.toNat = 0 then 0 else x.toNat.log2 + 1

/-- `sovTx`. -/
def sov (x : BitVec 64) : Nat := (len64 (x ||| 1) + 6) / 7

/-- The loop of `encodeVarintTx`. After nine groups of seven bits one bit is left of a `uint64`, so the
loop is not entered a tenth time. -/
def putGroups : Nat → GoString → Int → BitVec 64 → Outcome GoString
  | 0, dAtA, offset, v => setByte dAtA offset (UInt8.ofNat v.toNat)
  | groups + 1, dAtA, offset, v =>
      if 1 <<< 7 ≤ v.toNat then do
        let dAtA ← setByte dAtA offset (UInt8.ofNat (v &&& 0x7f ||| 0x80).toNat)
        putGroups groups dAtA (offset + 1) (v >>> 7)
      else setByte dAtA offset (UInt8.ofNat v.toNat)

/-- `encodeVarintTx`: the number ends before `offset`; the buffer and the position of the first byte. -/
def encodeVarint (dAtA : GoString) (offset : Int) (v : BitVec 64) : Outcome (GoString × Int) := do
  let base := offset - sov v
  let dAtA ← putGroups 9 dAtA base v
  pure (dAtA, base)

/-- `for shift := uint(0); ; shift += 7`. The tenth group has the shift 63, and the eleventh would have
a shift above 64. -/
def getGroups (dAtA : GoString) : Nat → Nat → BitVec 64 → Nat → Outcome (BitVec 64 × Nat)
  | 0, _, _, _ => .error errIntOverflow
  | groups + 1, shift, v, iNdEx => do
      require (iNdEx < dAtA.length) errUnexpectedEOF
      let b ← byteAt dAtA iNdEx
      let v := v ||| ((b &&& 0x7F).toBitVec.setWidth 64 <<< shift)
      if b < 0x80 then pure (v, iNdEx + 1) else getGroups dAtA groups (shift + 7) v (iNdEx + 1)

/-- Read a number at `iNdEx`. -/
def getVarint (dAtA : GoString) (iNdEx : Nat) : Outcome (BitVec 64 × Nat) :=
  getGroups dAtA 10 0 0 iNdEx

/-! ## Skipping an unknown field -/

/-- The `switch wireType` of `skipTx`: the depth of open groups and the position after the payload. -/
def skipPayload (wireType depth : Nat) (dAtA : GoString) (iNdEx : Nat) : Outcome (Nat × Int) :=
  match wireType with
  | 0 => do
      let (_, iNdEx) ← getVarint dAtA iNdEx
      pure (depth, iNdEx)
  | 1 => pure (depth, wrap64 (iNdEx + 8))
  | 2 => do
      let (length, iNdEx) ← getVarint dAtA iNdEx
      require (0 ≤ length.toInt) errInvalidLength
      pure (depth, wrap64 (iNdEx + length.toInt))
  | 3 => pure (depth + 1, iNdEx)
  | 4 => do
      require (depth ≠ 0) errUnexpectedEndOfGroup
      pure (depth - 1, iNdEx)
  | 5 => pure (depth, wrap64 (iNdEx + 4))
  | _ => fail (bytes "proto: illegal wireType " ++ formatNat wireType)

/-- One pass of the loop of `skipTx`. -/
def skipOne (depth : Nat) (dAtA : GoString) (iNdEx : Nat) : Outcome (Nat × Nat) := do
  let (wire, iNdEx) ← getVarint dAtA iNdEx
  let (depth, iNdEx) ← skipPayload (wire &&& 0x7).toNat depth dAtA iNdEx
  require (0 ≤ iNdEx) errInvalidLength
  pure (depth, iNdEx.toNat)

/-- The loop of `skipTx`. -/
def skipLoop (dAtA : GoString) : Nat → Nat → Nat → Outcome Nat
  | 0, _, _ => throwPanic (bytes "out of fuel")
  | fuel + 1, depth, iNdEx => do
      require (iNdEx < dAtA.length) errUnexpectedEOF
      let (depth, iNdEx) ← skipOne depth dAtA iNdEx
      if depth = 0 then pure iNdEx else skipLoop dAtA fuel depth iNdEx

/-- `skipTx`: the length of the first field. -/
def skip (dAtA : GoString) : Outcome Nat := skipLoop dAtA (dAtA.length + 1) 0 0

/-! ## Reading groups -/

theorem and_127 (b : UInt8) :
    (b &&& 0x7F).toBitVec.setWidth 64 = BitVec.ofNat 64 (b.toNat % 128) := by
  have h : b.toNat &&& 127 = b.toNat % 128 := Nat.and_two_pow_sub_one_eq_mod b.toNat 7
  apply BitVec.eq_of_toNat_eq
  have hb := b.toNat_lt
  simp only [UInt8.toBitVec_and, BitVec.toNat_setWidth, BitVec.toNat_and, UInt8.toNat_toBitVec,
    BitVec.toNat_ofNat]
  show (b.toNat &&& 127) % 2 ^ 64 = b.toNat % 128 % 2 ^ 64
  rw [h]

/-- The bits of the first group, and those of the rest seven bits higher. -/
theorem ofNat_groups (low rest : Nat) (h : low < 128) :
    BitVec.ofNat 64 (low + 128 * rest) = BitVec.ofNat 64 low ||| (BitVec.ofNat 64 rest <<< 7) := by
  apply BitVec.eq_of_toNat_eq
  have hor : rest <<< 7 + low = rest <<< 7 ||| low := Nat.shiftLeft_add_eq_or_of_lt h rest
  have hshift : 128 * rest = rest <<< 7 := by rw [Nat.shiftLeft_eq, Nat.mul_comm]
  have hmod : (rest % 2 ^ 64) <<< 7 % 2 ^ 64 = rest <<< 7 % 2 ^ 64 := by
    rw [Nat.shiftLeft_eq, Nat.shiftLeft_eq, Nat.mod_mul_mod]
  simp only [BitVec.toNat_or, BitVec.toNat_shiftLeft, BitVec.toNat_ofNat]
  rw [Nat.add_comm, hshift, hor, hmod, ← Nat.or_mod_two_pow, Nat.or_comm]

/-- One group of a number, and the groups after it. -/
theorem or_shiftLeft_groups (v : BitVec 64) (b : UInt8) (g : GoString) (shift : Nat) :
    v ||| ((b &&& 0x7F).toBitVec.setWidth 64 <<< shift) |||
        (BitVec.ofNat 64 (Varint.value g) <<< (shift + 7)) =
      v ||| (BitVec.ofNat 64 (Varint.value (b :: g)) <<< shift) := by
  have hlow : b.toNat % 128 < 128 := Nat.mod_lt _ (by omega)
  rw [Varint.value, ofNat_groups _ _ hlow, BitVec.shiftLeft_or_distrib, ← BitVec.shiftLeft_add,
    Nat.add_comm 7 shift, ← and_127, BitVec.or_assoc]

theorem byteAt_of_drop {dAtA rest : GoString} {i : Nat} {b : UInt8} (h : dAtA.drop i = b :: rest) :
    i < dAtA.length ∧ byteAt dAtA i = .ok b := by
  have hi : i < dAtA.length := by
    by_contra hi
    rw [List.drop_eq_nil_of_le (by omega)] at h
    cases h
  rw [List.drop_eq_getElem_cons hi] at h
  refine ⟨hi, ?_⟩
  rw [byteAt, List.getElem?_eq_getElem hi, (List.cons.inj h).1]
  rfl

section Groups

variable {dAtA g after : GoString} {b : UInt8} {n shift i j : Nat} {v w : BitVec 64}

theorem getGroups_cons (h : dAtA.drop i = b :: after) :
    getGroups dAtA (n + 1) shift v i =
      if b < 0x80 then .ok (v ||| ((b &&& 0x7F).toBitVec.setWidth 64 <<< shift), i + 1)
      else getGroups dAtA n (shift + 7) (v ||| ((b &&& 0x7F).toBitVec.setWidth 64 <<< shift))
        (i + 1) := by
  obtain ⟨hi, hb⟩ := byteAt_of_drop h
  rw [getGroups, require_bind_of hi, hb, ok_bind]
  rfl

theorem getGroups_nil (h : dAtA.drop i = []) :
    getGroups dAtA (n + 1) shift v i = .error errUnexpectedEOF := by
  have hi : ¬ i < dAtA.length := Nat.not_lt.2 (List.drop_eq_nil_iff.1 h)
  rw [getGroups, require, if_neg hi, error_bind]

/-- The loop reads groups, as long as there are passes left for them. -/
theorem getGroups_of_groups (hg : Groups g) :
    ∀ (n shift i : Nat) (v : BitVec 64), g.length ≤ n → dAtA.drop i = g ++ after →
      getGroups dAtA n shift v i =
        .ok (v ||| (BitVec.ofNat 64 (Varint.value g) <<< shift), i + g.length) := by
  induction hg with
  | @last b h =>
      intro n shift i v hn hdrop
      obtain ⟨n, rfl⟩ : ∃ m, n = m + 1 := ⟨n - 1, by simp at hn; omega⟩
      have hb : b < 0x80 := h
      rw [getGroups_cons hdrop, if_pos hb, ← or_shiftLeft_groups]
      simp [Varint.value]
  | @more b g h rest ih =>
      intro n shift i v hn hdrop
      obtain ⟨n, rfl⟩ : ∃ m, n = m + 1 := ⟨n - 1, by simp at hn; omega⟩
      have hb : ¬ b < 0x80 := UInt8.not_lt.2 h
      have hnext : dAtA.drop (i + 1) = g ++ after := by
        rw [← List.drop_drop, hdrop]
        rfl
      rw [getGroups_cons hdrop, if_neg hb, ih n _ _ _ (Nat.le_of_succ_le_succ hn) hnext,
        or_shiftLeft_groups, List.length_cons, Nat.add_right_comm, Nat.add_assoc]

/-- Whatever the loop returns, it has read groups. -/
theorem groups_of_getGroups (h : getGroups dAtA n shift v i = .ok (w, j)) :
    ∃ g after, dAtA.drop i = g ++ after ∧ Groups g ∧ g.length ≤ n ∧ j = i + g.length := by
  induction n generalizing shift v i with
  | zero => cases h
  | succ n ih =>
      cases hdrop : dAtA.drop i with
      | nil =>
          rw [getGroups_nil hdrop] at h
          cases h
      | cons b rest =>
          rw [getGroups_cons hdrop] at h
          split at h
          · rename_i hb
            cases h
            exact ⟨[b], rest, rfl, .last hb, Nat.succ_le_succ (Nat.zero_le n), rfl⟩
          · rename_i hb
            obtain ⟨g, after, hg, hgroups, hlen, rfl⟩ := ih h
            have hrest : rest = g ++ after := by
              rw [← hg, ← List.drop_drop, hdrop]
              rfl
            refine ⟨b :: g, after, by rw [hrest]; rfl, .more (UInt8.not_lt.1 hb) hgroups,
              Nat.succ_le_succ hlen, ?_⟩
            rw [List.length_cons]
            omega

end Groups

/-- The positions of a Go slice are below `2 ^ 63`. -/
abbrev maxLen : Nat := 2 ^ 63

theorem consumes_getVarint {g : GoString} (hg : Groups g) (hlen : g.length ≤ 10) :
    Consumes maxLen getVarint g (BitVec.ofNat 64 (Varint.value g)) := by
  intro d i j _ hseg
  obtain ⟨after, hdrop⟩ := hseg.drop_eq
  rw [getVarint, getGroups_of_groups hg 10 0 i 0 hlen hdrop, ← hseg.length.1]
  simp

theorem local_getVarint : Local maxLen getVarint := by
  intro d i v j hd h
  obtain ⟨g, after, hdrop, hg, hlen, rfl⟩ := groups_of_getGroups h
  have hi : i ≤ d.length := by
    by_contra hi
    rw [List.drop_eq_nil_of_le (by omega)] at hdrop
    exact hg.ne_nil (List.append_eq_nil_iff.1 hdrop.symm).1
  have hseg := span_of_drop hi hdrop
  have hcons := consumes_getVarint hg hlen
  -- the value is the one that these groups have
  have hv := hcons d i _ hd hseg
  rw [h, Except.ok.injEq, Prod.mk.injEq] at hv
  exact ⟨g, hseg, hg.ne_nil, hv.1 ▸ hcons⟩

theorem noPanic_getGroups (d : GoString) :
    ∀ (n shift i : Nat) (v : BitVec 64), NoPanic (getGroups d n shift v i) := by
  intro n
  induction n with
  | zero => exact fun _ _ _ => trivial
  | succ n ih =>
      intro shift i v
      cases hdrop : d.drop i with
      | nil =>
          rw [getGroups_nil hdrop]
          trivial
      | cons b rest =>
          rw [getGroups_cons hdrop]
          split
          · trivial
          · exact ih _ _ _

theorem noPanic_getVarint (d : GoString) (i : Nat) : NoPanic (getVarint d i) :=
  noPanic_getGroups d 10 0 i 0

/-! ## Positions -/

theorem wrap64_of_lt {i : Nat} {n : Int} (hn : 0 ≤ n) (h : i + n < 2 ^ 63) :
    wrap64 (i + n) = i + n :=
  wrap64_of_isInt64 (isInt64_iff.2 ⟨by omega, h⟩)

/-- A position that did not wrap to a negative number did not wrap. -/
theorem wrap64_of_nonneg {i : Nat} {n : Int} (hi : i < maxLen) (hn : 0 ≤ n) (hn' : n < 2 ^ 63)
    (h : 0 ≤ wrap64 (i + n)) : wrap64 (i + n) = i + n := by
  simp only [wrap64, Int.bmod] at h ⊢
  simp only [maxLen] at hi
  omega

/-! ## Skipping -/

section Skip

variable {β : Type}

/-- Move on by `n` without a look at the bytes. -/
def jump (n : Int) (v : β) : Reader UInt8 Fault β := fun _ i => do
  require (0 ≤ wrap64 (i + n)) errInvalidLength
  pure (v, (wrap64 (i + n)).toNat)

theorem consumes_jump (v : β) (x : GoString) : Consumes maxLen (jump x.length v) x v := by
  intro d i j hd hseg
  obtain ⟨rfl, hj⟩ := hseg.length
  have hlt : (i : Int) + x.length < 2 ^ 63 := by
    simp only [maxLen] at hd
    omega
  simp only [jump]
  rw [wrap64_of_lt (Int.natCast_nonneg x.length) hlt, require_bind_of (by omega)]
  rfl

theorem within_jump {n : Int} (hn : 0 ≤ n) (hn' : n < 2 ^ 63) (v : β) : Within maxLen (jump n v) := by
  intro d i w j hd hi h
  obtain ⟨hpos, h⟩ := require_bind_eq_ok.1 h
  cases h
  obtain ⟨n, rfl⟩ := Int.eq_ofNat_of_zero_le hn
  rw [wrap64_of_nonneg (by omega) hn hn' hpos]
  have hj : ((i : Int) + (n : Int)).toNat = i + n := by omega
  have hlt := (isInt64_iff.1 (isInt64_wrap64 (i + n))).2
  rw [wrap64_of_nonneg (by omega) hn hn' hpos] at hlt
  rw [hj]
  refine ⟨by omega, by simp only [maxLen]; omega, fun hle => ?_⟩
  have hseg := span_of_le (Nat.le_add_right i n) hle
  have hlen := hseg.length.1
  have hcons := consumes_jump v ((d.drop i).take (i + n - i))
  rw [show ((d.drop i).take (i + n - i)).length = n by omega] at hcons
  exact ⟨_, hseg, hcons⟩

/-- The payload as a reader. -/
def payload (wireType depth : Nat) : Reader UInt8 Fault Nat := fun d i => do
  let (depth, j) ← skipPayload wireType depth d i
  require (0 ≤ j) errInvalidLength
  pure (depth, j.toNat)

theorem skipOne_eq_seq (depth : Nat) :
    skipOne depth = seq getVarint fun wire => payload (wire &&& 0x7).toNat depth := rfl

/-- A position that is not moved passes the check. -/
theorem require_natCast (depth i : Nat) :
    (require (0 ≤ (i : Int)) errInvalidLength >>= fun _ =>
      (pure (depth, (i : Int).toNat) : Outcome (Nat × Nat))) = .ok (depth, i) :=
  require_bind_of (Int.natCast_nonneg i)

theorem payload_varint (depth : Nat) : payload 0 depth = map (fun _ => depth) getVarint := by
  funext d i
  cases h : getVarint d i with
  | error e => simp [payload, skipPayload, map, h]
  | ok p =>
      simp only [payload, skipPayload, map, h, ok_bind]
      exact require_natCast depth p.2

theorem payload_length (depth : Nat) :
    payload 2 depth = seq getVarint fun length d i =>
      require (0 ≤ length.toInt) errInvalidLength >>= fun _ => jump length.toInt depth d i := by
  funext d i
  cases h : getVarint d i with
  | error e => simp [payload, skipPayload, seq, h]
  | ok p =>
      simp only [payload, skipPayload, seq, h, ok_bind, jump]
      by_cases hp : 0 ≤ p.1.toInt
      · rw [require_bind_of hp, require_bind_of hp]
        rfl
      · rw [require, if_neg hp]
        rfl

theorem within_require {c : Prop} [Decidable c] {e : Fault} {r : Reader UInt8 Fault β}
    (hr : c → Within maxLen r) : Within maxLen fun d i => require c e >>= fun _ => r d i := by
  by_cases hc : c
  · have : (fun d i => require c e >>= fun _ => r d i) = r := by
      funext d i
      exact require_bind_of hc
    rw [this]
    exact hr hc
  · have : (fun (d : GoString) (i : Nat) => require c e >>= fun _ => r d i) = fun _ _ => .error e := by
      funext d i
      rw [require, if_neg hc]
      rfl
    rw [this]
    exact within_error e

/-- What the payload of a field is depends on its own bytes. -/
theorem within_payload (wireType depth : Nat) : Within maxLen (payload wireType depth) := by
  match wireType with
  | 0 =>
      rw [payload_varint]
      exact (local_getVarint.map _).within
  | 1 =>
      have : payload 1 depth = jump 8 depth := by
        funext d i
        simp only [payload, skipPayload, pure_bind, jump]
      rw [this]
      exact within_jump (by omega) (by omega) depth
  | 2 =>
      rw [payload_length]
      intro d i w j hd _ h
      have hlength : ∀ length : BitVec 64, Within maxLen fun d i =>
          require (0 ≤ length.toInt) errInvalidLength >>= fun _ => jump length.toInt depth d i :=
        fun length => within_require fun hpos => within_jump hpos (BitVec.toInt_lt ..) depth
      obtain ⟨hij, hlt, hin⟩ := local_getVarint.seq_within hlength hd h
      refine ⟨hij.le, hlt, fun hj => ?_⟩
      obtain ⟨x, hseg, -, hcons⟩ := hin hj
      exact ⟨x, hseg, hcons⟩
  | 3 =>
      have : payload 3 depth = fun _ i => .ok (depth + 1, i) := by
        funext d i
        exact require_natCast (depth + 1) i
      rw [this]
      exact within_ok _
  | 4 =>
      have : payload 4 depth = fun d i => require (depth ≠ 0) errUnexpectedEndOfGroup >>= fun _ =>
          (fun _ i => .ok (depth - 1, i) : Reader UInt8 Fault Nat) d i := by
        funext d i
        by_cases h0 : depth ≠ 0
        · rw [require_bind_of h0]
          simp only [payload, skipPayload]
          rw [require_bind_of h0]
          exact require_natCast (depth - 1) i
        · simp [payload, skipPayload, require, h0]
      rw [this]
      exact within_require fun _ => within_ok _
  | 5 =>
      have : payload 5 depth = jump 4 depth := by
        funext d i
        simp only [payload, skipPayload, pure_bind, jump]
      rw [this]
      exact within_jump (by omega) (by omega) depth
  | wireType + 6 => exact within_error _

theorem skipLoop_succ {d : GoString} {fuel depth i j : Nat} :
    skipLoop d (fuel + 1) depth i = .ok j ↔ i < d.length ∧ ∃ depth' k,
      skipOne depth d i = .ok (depth', k) ∧
        (if depth' = 0 then .ok k else skipLoop d fuel depth' k) = .ok j := by
  rw [skipLoop, require_bind_eq_ok, bind_eq_ok]
  refine and_congr_right fun _ => ?_
  constructor
  · rintro ⟨⟨depth', k⟩, h⟩
    exact ⟨depth', k, h⟩
  · rintro ⟨depth', k, h⟩
    exact ⟨(depth', k), h⟩

/-- The field that `skipTx` measures is measured the same wherever it stands: the result depends on its
own bytes only. -/
theorem skipLoop_spec {d : GoString} (hd : d.length < maxLen) :
    ∀ (fuel depth i j : Nat), skipLoop d fuel depth i = .ok j → i < j ∧ j < maxLen ∧
      (j ≤ d.length → ∃ x, Span d i j x ∧ x ≠ [] ∧ ∀ (d : GoString) (i j fuel : Nat), x.length ≤ fuel →
        d.length < maxLen → Span d i j x → skipLoop d fuel depth i = .ok j) := by
  intro fuel
  induction fuel with
  | zero =>
      intro depth i j h
      cases h
  | succ fuel ih =>
      intro depth i j h
      obtain ⟨hi, depth', k, hone, h⟩ := skipLoop_succ.1 h
      rw [skipOne_eq_seq] at hone
      obtain ⟨hik, hklt, hin⟩ :=
        local_getVarint.seq_within (fun wire => within_payload _ depth) hd hone
      by_cases h0 : depth' = 0
      · rw [if_pos h0] at h
        cases h
        refine ⟨hik, hklt, fun hj => ?_⟩
        obtain ⟨x, hseg, hx, hcons⟩ := hin hj
        refine ⟨x, hseg, hx, fun d i j fuel hfuel hd hseg => ?_⟩
        have hpos := List.length_pos_of_ne_nil hx
        have hlen := hseg.length
        obtain ⟨fuel, rfl⟩ := Nat.exists_eq_add_one_of_ne_zero (show fuel ≠ 0 by omega)
        exact skipLoop_succ.2 ⟨by omega, depth', j, hcons d i j hd hseg, if_pos h0⟩
      · rw [if_neg h0] at h
        obtain ⟨hkj, hlt, hrest⟩ := ih depth' k j h
        refine ⟨hik.trans hkj, hlt, fun hj => ?_⟩
        obtain ⟨x, hseg, hx, hcons⟩ := hin (hkj.le.trans hj)
        obtain ⟨y, hseg', -, hloop⟩ := hrest hj
        refine ⟨x ++ y, hseg.append hseg', List.append_ne_nil_of_left_ne_nil hx y,
          fun d i j fuel hfuel hd hseg => ?_⟩
        have hpos := List.length_pos_of_ne_nil hx
        have hlen := hseg.length
        rw [List.length_append] at hfuel hlen
        obtain ⟨fuel, rfl⟩ := Nat.exists_eq_add_one_of_ne_zero (show fuel ≠ 0 by omega)
        obtain ⟨k, hx', hy'⟩ := hseg.split
        refine skipLoop_succ.2 ⟨by omega, depth', k, hcons d i k hd hx', ?_⟩
        rw [if_neg h0]
        exact hloop d k j fuel (by omega) hd hy'

/-- The bytes of the field that `skipTx` measures start with its tag, and are measured the same whatever
follows them. -/
theorem skip_spec {d : GoString} {n : Nat} (hd : d.length < maxLen) (h : skip d = .ok n)
    (hn : n ≤ d.length) : ∃ g y wire, Span d 0 n (g ++ y) ∧ g ≠ [] ∧
      Consumes maxLen getVarint g wire ∧
      ∀ d : GoString, d.length < maxLen → Span d 0 n (g ++ y) → skip d = .ok n := by
  obtain ⟨x, hseg, hx, hloop⟩ := (skipLoop_spec hd _ 0 0 n h).2.2 hn
  have hlen := hseg.length
  rw [Nat.zero_add] at hlen
  have hxlen : x.length < maxLen := by omega
  -- the loop starts with the tag of the field, also when it is given these bytes alone
  have hself := hloop x 0 n x.length (Nat.le_refl _) hxlen (hlen.1 ▸ span_self x)
  obtain ⟨m, hm⟩ := Nat.exists_eq_add_one_of_ne_zero (List.length_pos_of_ne_nil hx).ne'
  rw [hm] at hself
  obtain ⟨-, depth, k, hone, -⟩ := skipLoop_succ.1 hself
  obtain ⟨wire, j, hwire, -⟩ := seq_eq_ok.1 (skipOne_eq_seq 0 ▸ hone)
  obtain ⟨g, hg, hgne, hcons⟩ := local_getVarint x 0 wire j hxlen hwire
  obtain ⟨y, hy⟩ := hg.drop_eq
  rw [List.drop_zero] at hy
  subst hy
  refine ⟨g, y, wire, hseg, hgne, hcons, fun d hd hseg => ?_⟩
  exact hloop d 0 n (d.length + 1) (by have := hseg.length; omega) hd hseg

theorem noPanic_skipPayload (wireType depth : Nat) (d : GoString) (i : Nat) :
    NoPanic (skipPayload wireType depth d i) := by
  match wireType with
  | 0 => exact noPanic_bind.2 ⟨noPanic_getVarint d i, fun _ _ => trivial⟩
  | 1 => trivial
  | 2 =>
      refine noPanic_bind.2 ⟨noPanic_getVarint d i, fun _ _ => ?_⟩
      exact noPanic_require_error.2 fun _ => trivial
  | 3 => trivial
  | 4 => exact noPanic_require_error.2 fun _ => trivial
  | 5 => trivial
  | wireType + 6 => trivial

theorem noPanic_skipOne (depth : Nat) (d : GoString) (i : Nat) : NoPanic (skipOne depth d i) := by
  refine noPanic_bind.2 ⟨noPanic_getVarint d i, fun p _ => ?_⟩
  refine noPanic_bind.2 ⟨noPanic_skipPayload _ depth d p.2, fun _ _ => ?_⟩
  exact noPanic_require_error.2 fun _ => trivial

/-- Each pass moves on, so the loop ends before its fuel does. -/
theorem noPanic_skipLoop {d : GoString} (hd : d.length < maxLen) :
    ∀ fuel depth i : Nat, d.length - i < fuel → NoPanic (skipLoop d fuel depth i) := by
  intro fuel
  induction fuel with
  | zero =>
      intro depth i h
      exact absurd h (Nat.not_lt_zero _)
  | succ fuel ih =>
      intro depth i h
      refine noPanic_require_error.2 fun hi => ?_
      refine noPanic_bind.2 ⟨noPanic_skipOne depth d i, fun ⟨depth', k⟩ hp => ?_⟩
      rw [skipOne_eq_seq] at hp
      have hlt := (local_getVarint.seq_within (fun wire => within_payload _ depth) hd hp).1
      show NoPanic (if depth' = 0 then pure k else skipLoop d fuel depth' k)
      split
      · trivial
      · exact ih depth' k (by omega)

theorem noPanic_skip {d : GoString} (hd : d.length < maxLen) : NoPanic (skip d) :=
  noPanic_skipLoop hd _ 0 0 (Nat.lt_succ_self _)

end Skip

/-! ## Writing -/

/-- The bytes of a number. -/
def varint (v : BitVec 64) : GoString := Varint.encode v.toNat

theorem consumes_varint (v : BitVec 64) : Consumes maxLen getVarint (varint v) v := by
  have hlen : (varint v).length ≤ 10 := Varint.length_encode_le (v.isLt.trans (by decide))
  have h := consumes_getVarint (Varint.groups_encode v.toNat) hlen
  rwa [Varint.value_encode, BitVec.ofNat_toNat, BitVec.setWidth_eq] at h

/-- `sovTx` is the number of bytes that `encodeVarintTx` writes. -/
theorem sov_eq_length (v : BitVec 64) : sov v = (varint v).length := by
  have hor : (v ||| 1).toNat = v.toNat ||| 1 := BitVec.toNat_or v 1
  have hne : v.toNat ||| 1 ≠ 0 := by
    have : 1 ≤ v.toNat ||| 1 := Nat.right_le_or
    omega
  rw [sov, len64, hor, if_neg hne, Varint.log2_or_one, varint, Varint.length_encode]

theorem setByte_append (before after : GoString) (b c : UInt8) :
    setByte (before ++ (b :: after)) before.length c = .ok (before ++ (c :: after)) := by
  have hlt : (before.length : Int) < (before ++ (b :: after)).length := by
    simp only [List.length_append, List.length_cons]
    omega
  rw [setByte, if_pos ⟨by omega, hlt⟩, Int.toNat_natCast, List.set_append_right _ _ (Nat.le_refl _),
    Nat.sub_self]
  rfl

theorem copyAt_append {before hole after src : GoString} (h : hole.length = src.length) :
    copyAt (before ++ (hole ++ after)) before.length src = .ok (before ++ (src ++ after)) := by
  have hle : (before.length : Int) ≤ (before ++ (hole ++ after)).length := by
    simp only [List.length_append]
    omega
  have htake : src.take ((before ++ (hole ++ after)).length - before.length) = src := by
    apply List.take_of_length_le
    simp only [List.length_append]
    omega
  have hdrop : (before ++ (hole ++ after)).drop (before.length + src.length) = after := by
    rw [← List.drop_drop, List.drop_left, ← h, List.drop_left]
  rw [copyAt, if_pos ⟨by omega, hle⟩, Int.toNat_natCast, List.take_left, htake, hdrop,
    List.append_assoc]

theorem or_128 (v : BitVec 64) : (v &&& 0x7f ||| 0x80).toNat = v.toNat % 128 + 128 := by
  have hand : v.toNat &&& 127 = v.toNat % 128 := Nat.and_two_pow_sub_one_eq_mod v.toNat 7
  have hlt : v.toNat % 128 < 2 ^ 7 := Nat.mod_lt _ (by omega)
  rw [BitVec.toNat_or, BitVec.toNat_and]
  show v.toNat &&& 127 ||| 2 ^ 7 * 1 = v.toNat % 128 + 128
  rw [hand, Nat.or_comm, ← Nat.two_pow_add_eq_or_of_lt hlt]
  omega

/-- The loop replaces as many bytes as the number has groups. -/
theorem putGroups_spec (n : Nat) :
    ∀ (v : BitVec 64) (before hole after : GoString), v.toNat < 128 ^ (n + 1) →
      hole.length = (varint v).length →
      putGroups n (before ++ (hole ++ after)) before.length v = .ok (before ++ (varint v ++ after)) := by
  have hlast : ∀ (v : BitVec 64) (before hole after : GoString), v.toNat < 128 →
      hole.length = (varint v).length →
      setByte (before ++ (hole ++ after)) before.length (UInt8.ofNat v.toNat) =
        .ok (before ++ (varint v ++ after)) := by
    intro v before hole after hv hlen
    rw [varint, Varint.encode_of_lt hv] at hlen ⊢
    obtain ⟨b, rfl⟩ := List.length_eq_one_iff.1 hlen
    exact setByte_append before after b _
  induction n with
  | zero => exact fun v before hole after hv hlen => hlast v before hole after hv hlen
  | succ n ih =>
      intro v before hole after hv hlen
      rw [putGroups]
      split
      · rename_i hge
        have hge' : 128 ≤ v.toNat := hge
        have hshift : (v >>> 7).toNat = v.toNat / 128 := by
          rw [BitVec.toNat_ushiftRight, Nat.shiftRight_eq_div_pow]
        have hsplit : varint v = UInt8.ofNat (v.toNat % 128 + 128) :: varint (v >>> 7) := by
          rw [varint, varint, hshift, Varint.encode_of_ge hge']
        rw [hsplit] at hlen ⊢
        obtain ⟨b, hole, rfl⟩ := List.exists_cons_of_length_eq_add_one hlen
        have hnext : (v >>> 7).toNat < 128 ^ (n + 1) := by
          rw [hshift, Nat.div_lt_iff_lt_mul (by omega), ← pow_succ]
          exact hv
        -- one byte is written, and the rest of the number follows it
        have := ih (v >>> 7) (before ++ [UInt8.ofNat (v.toNat % 128 + 128)]) hole after hnext
          (by simpa using hlen)
        rw [List.cons_append, or_128, setByte_append, ok_bind]
        simpa using this
      · rename_i hlt
        exact hlast v before hole after (Nat.not_le.1 hlt) hlen

theorem prepends_encodeVarint (v : BitVec 64) :
    Prepends (fun dAtA i => encodeVarint dAtA i v) (varint v) := by
  intro before hole after hlen
  have hbase : (before.length : Int) + hole.length - sov v = before.length := by
    rw [sov_eq_length, hlen]
    omega
  simp only [encodeVarint, hbase]
  rw [putGroups_spec 9 v before hole after (v.isLt.trans (by decide)) hlen]
  rfl

/-- `i -= len(src); copy(dAtA[i:], src)`. -/
def putBytes (src : GoString) : BufferWriter UInt8 Fault := fun dAtA i => do
  let i := i - src.length
  let dAtA ← copyAt dAtA i src
  pure (dAtA, i)

theorem prepends_putBytes (src : GoString) : Prepends (putBytes src) src := by
  intro before hole after hlen
  have hi : (before.length : Int) + hole.length - src.length = before.length := by omega
  simp only [putBytes, hi, copyAt_append hlen]
  rfl

/-- `i--; dAtA[i] = b`. -/
def putByte (b : UInt8) : BufferWriter UInt8 Fault := fun dAtA i => do
  let i := i - 1
  let dAtA ← setByte dAtA i b
  pure (dAtA, i)

theorem prepends_putByte (b : UInt8) : Prepends (putByte b) [b] := by
  intro before hole after hlen
  obtain ⟨c, rfl⟩ := List.length_eq_one_iff.1 hlen
  have hi : (before.length : Int) + [c].length - 1 = before.length := by simp
  simp only [putByte, hi, List.singleton_append, setByte_append]
  rfl

end EnergyChain.Proto
