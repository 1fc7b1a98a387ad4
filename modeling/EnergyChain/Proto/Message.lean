import EnergyChain.Proto.Wire

/-!
# Generated messages

The generated code of a message type is determined by its fields, so it is one definition with the fields
as its parameter (`Message`). `Size` and `MarshalToSizedBuffer` go through the fields, `Unmarshal` is a
loop that reads a tag and then the value of the field with that number; the bytes of a field with another
number are kept in `XXX_unrecognized` where the type has it.

What is proved needs a few facts about the fields (`Message.Lawful`). `Marshal` writes exactly the bytes of
the fields (`Message.marshal_eq`), `Unmarshal` is a cut of its input into fields
(`Message.unmarshal_eq_ok`), and the two are inverse on the messages whose unknown bytes are fields
(`Message.roundTrips`). Every message that `Unmarshal` returns is one of those, and no input makes it
panic (`Message.robust`). A message type with these laws is the kind of a field again (`messageKind`), so
the results go through nested messages.
-/

set_option autoImplicit false

namespace EnergyChain.Proto

open EnergyChain.Go
open EnergyChain.Cursor

/-! ## Length-delimited values -/

/-- The bytes from `iNdEx` to `postIndex := iNdEx + length`. -/
def takeBytes (length : Int) : Reader UInt8 Fault GoString := fun dAtA iNdEx => do
  require (0 ≤ length) errInvalidLength
  let postIndex := wrap64 (iNdEx + length)
  require (0 ≤ postIndex) errInvalidLength
  require (postIndex ≤ dAtA.length) errUnexpectedEOF
  let value ← slice dAtA iNdEx postIndex
  pure (value, postIndex.toNat)

/-- A string field: the length, then the bytes. -/
def readBytes : Reader UInt8 Fault GoString :=
  seq getVarint fun length => takeBytes length.toInt

/-- `i -= len(s); copy(dAtA[i:], s); i = encodeVarintTx(dAtA, i, uint64(len(s)))`. -/
def writeBytes (s : GoString) : BufferWriter UInt8 Fault :=
  andThen (putBytes s) fun dAtA i => encodeVarint dAtA i (BitVec.ofNat 64 s.length)

/-- The bytes of a string field after its tag. -/
def lengthDelimited (s : GoString) : GoString := varint (BitVec.ofNat 64 s.length) ++ s

theorem prepends_writeBytes (s : GoString) : Prepends (writeBytes s) (lengthDelimited s) :=
  (prepends_putBytes s).andThen (prepends_encodeVarint _)

theorem slice_span {d x : GoString} {i j : Nat} (h : Span d i j x) :
    slice d i j = .ok x := by
  obtain ⟨hj, hle⟩ := h.length
  rw [slice, if_pos ⟨by omega, by omega, by omega⟩, Int.toNat_natCast]
  have hsub : ((j : Int) - i).toNat = j - i := by omega
  rw [hsub, ← h.eq_take]

theorem consumes_takeBytes (x : GoString) : Consumes maxLen (takeBytes x.length) x x := by
  intro d i j hd hseg
  obtain ⟨hj, hle⟩ := hseg.length
  have hpost : wrap64 ((i : Int) + x.length) = (j : Int) := by
    simp only [maxLen] at hd
    rw [wrap64_of_lt (by omega) (by omega)]
    omega
  simp only [takeBytes, hpost]
  rw [require_bind_of (by omega), require_bind_of (by omega), require_bind_of (by omega),
    slice_span hseg]
  rfl

theorem takeBytes_eq_ok {n : Int} {d x : GoString} {i j : Nat} (hn : n < 2 ^ 63)
    (hd : d.length < maxLen) (hi : i ≤ d.length) (h : takeBytes n d i = .ok (x, j)) :
    n = x.length ∧ Span d i j x := by
  rw [takeBytes, require_bind_eq_ok, require_bind_eq_ok, require_bind_eq_ok, bind_eq_ok] at h
  obtain ⟨hpos, hpost, hle, value, hslice, h⟩ := h
  cases h
  have hwrap := wrap64_of_nonneg (show i < maxLen by omega) hpos hn hpost
  rw [hwrap] at hslice hle hpost ⊢
  have hseg := span_of_le (show i ≤ (i + n).toNat by omega) (show (i + n).toNat ≤ d.length by omega)
  have hcast : ((i + n).toNat : Int) = i + n := by omega
  rw [← hcast, slice_span hseg] at hslice
  cases hslice
  have := hseg.length.1
  exact ⟨by omega, hseg⟩

theorem within_takeBytes {n : Int} (hn : n < 2 ^ 63) : Within maxLen (takeBytes n) := by
  intro d i x j hd hi h
  obtain ⟨rfl, hseg⟩ := takeBytes_eq_ok hn hd hi h
  have hlen := hseg.length
  exact ⟨by omega, by omega, fun _ => ⟨x, hseg, consumes_takeBytes x⟩⟩

theorem noPanic_takeBytes {n : Int} {d : GoString} {i : Nat} (hn : n < 2 ^ 63)
    (hd : d.length < maxLen) (hi : i ≤ d.length) : NoPanic (takeBytes n d i) := by
  refine noPanic_require_error.2 fun hpos => noPanic_require_error.2 fun hpost =>
    noPanic_require_error.2 fun hle => ?_
  have hwrap := wrap64_of_nonneg (show i < maxLen by omega) hpos hn hpost
  rw [hwrap] at hle hpost ⊢
  rw [slice, if_pos ⟨by omega, by omega, hle⟩]
  trivial

theorem consumes_readBytes (x : GoString) : Consumes maxLen readBytes (lengthDelimited x) x := by
  intro d i j hd hseg
  have hlt : x.length < 2 ^ 63 := by
    have hlen := hseg.length
    simp only [lengthDelimited, List.length_append, maxLen] at hlen hd
    omega
  have hint : (BitVec.ofNat 64 x.length).toInt = x.length := by
    rw [BitVec.toInt_ofNat', Int.bmod_def]
    omega
  have htake := consumes_takeBytes x
  rw [← hint] at htake
  exact (consumes_varint _).seq htake d i j hd hseg

theorem local_readBytes : Local maxLen readBytes := by
  intro d i x j hd h
  obtain ⟨v, k, hv, htake⟩ := seq_eq_ok.1 h
  obtain ⟨-, hk⟩ := local_getVarint.lt hd hv
  obtain ⟨-, hseg⟩ := takeBytes_eq_ok BitVec.toInt_lt hd hk htake
  have hwithin := local_getVarint.seq_within (fun v => within_takeBytes BitVec.toInt_lt) hd h
  exact hwithin.2.2 hseg.length.2

/-- What a string field holds is not longer than the input. -/
theorem length_readBytes_le {d x : GoString} {i j : Nat} (hd : d.length < maxLen)
    (h : readBytes d i = .ok (x, j)) : x.length ≤ d.length := by
  obtain ⟨v, k, hv, htake⟩ := seq_eq_ok.1 h
  obtain ⟨-, hk⟩ := local_getVarint.lt hd hv
  obtain ⟨-, hseg⟩ := takeBytes_eq_ok BitVec.toInt_lt hd hk htake
  have := hseg.length
  omega

theorem noPanic_readBytes {d : GoString} (hd : d.length < maxLen) (i : Nat) :
    NoPanic (readBytes d i) := by
  refine noPanic_bind.2 ⟨noPanic_getVarint d i, fun p hp => ?_⟩
  exact noPanic_takeBytes BitVec.toInt_lt hd (local_getVarint.lt hd hp).2

/-! ## Kinds of fields -/

/-- How the generated code treats the values of a field: the summand of `Size` after the tag, the code of
`MarshalToSizedBuffer` before the tag, and the code of `Unmarshal` after the check of the wire type, with
what they are for. `Valid` are the values that survive a round trip. -/
structure Kind (V : Type) where
  wireType : Nat
  size : V → Nat
  write : V → BufferWriter UInt8 Fault
  read : Reader UInt8 Fault V
  encode : V → GoString
  Valid : V → Prop
  wireType_eq : wireType = 0 ∨ wireType = 2
  size_eq : ∀ v, size v = (encode v).length
  prepends : ∀ v, Prepends (write v) (encode v)
  consumes : ∀ v, Valid v → Consumes maxLen read (encode v) v
  local_read : Local maxLen read
  valid_of_read : ∀ (d : GoString) (i : Nat) (v : V) (j : Nat), d.length < maxLen →
    read d i = .ok (v, j) → Valid v
  noPanic : ∀ (d : GoString) (i : Nat), d.length < maxLen → NoPanic (read d i)

theorem size_lengthDelimited (s : GoString) :
    s.length + sov (BitVec.ofNat 64 s.length) = (lengthDelimited s).length := by
  rw [lengthDelimited, List.length_append, sov_eq_length, Nat.add_comm]

/-- Strings and byte slices. -/
def stringKind : Kind GoString where
  wireType := 2
  size s := s.length + sov (BitVec.ofNat 64 s.length)
  write := writeBytes
  read := readBytes
  encode := lengthDelimited
  Valid _ := True
  wireType_eq := .inr rfl
  size_eq := size_lengthDelimited
  prepends := prepends_writeBytes
  consumes s _ := consumes_readBytes s
  local_read := local_readBytes
  valid_of_read _ _ _ _ _ _ := trivial
  noPanic _ i hd := noPanic_readBytes hd i

/-- An `int64`, as the same bits unsigned. -/
def int64Kind : Kind (BitVec 64) where
  wireType := 0
  size v := sov v
  write v dAtA i := encodeVarint dAtA i v
  read := getVarint
  encode := varint
  Valid _ := True
  wireType_eq := .inl rfl
  size_eq := sov_eq_length
  prepends := prepends_encodeVarint
  consumes v _ := consumes_varint v
  local_read := local_getVarint
  valid_of_read _ _ _ _ _ _ := trivial
  noPanic d i _ := noPanic_getVarint d i

/-! ## Messages -/

/-- A field of a message: its number, its name in error texts, the byte of its tag, the values to be
written, and what `Unmarshal` does with a value. -/
structure Field (M : Type) where
  V : Type
  kind : Kind V
  num : Nat
  name : String
  tag : UInt8
  values : M → List V
  put : M → V → M

namespace Field

variable {M : Type} (f : Field M) (m : M)

/-- The byte is the tag of the number and the wire type. -/
def IsTag : Prop := 0 < f.num ∧ f.tag.toNat = f.num * 8 + f.kind.wireType ∧ f.tag.toNat < 128

/-- The summand of `Size`. -/
def size : Nat := ((f.values m).map fun v => 1 + f.kind.size v).sum

/-- The values from the last to the first, each followed by its tag. -/
def write : BufferWriter UInt8 Fault :=
  backwards (fun v => andThen (f.kind.write v) (putByte f.tag)) (f.values m)

/-- The bytes of one value. -/
def encodeValue (v : f.V) : GoString := f.tag :: f.kind.encode v

/-- The bytes of the field. -/
def encode : GoString := (f.values m).flatMap f.encodeValue

/-- Put the values of `m` into another message. -/
def copy (into : M) : M := (f.values m).foldl f.put into

theorem size_eq_length : f.size m = (f.encode m).length := by
  rw [size, encode, List.length_flatMap]
  congr 1
  apply List.map_congr_left
  intro v _
  rw [encodeValue, List.length_cons, f.kind.size_eq, Nat.add_comm]

theorem prepends_write : Prepends (f.write m) (f.encode m) :=
  prepends_backwards fun v _ => (f.kind.prepends v).andThen (prepends_putByte f.tag)

end Field

/-- A generated message type: its name, its fields in the order of their numbers, the zero message, and the
bytes of unknown fields (`XXX_unrecognized`, where the type has it). -/
structure Message (M : Type) where
  name : String
  fields : List (Field M)
  empty : M
  unrecognized : M → GoString
  keep : M → GoString → M

namespace Message

variable {M : Type} (msg : Message M)

/-- `Size`. -/
def size (m : M) : Nat := (msg.fields.map fun f => f.size m).sum + (msg.unrecognized m).length

/-- `MarshalToSizedBuffer`: the buffer and the number of bytes written at its end. -/
def marshalToSizedBuffer (m : M) (dAtA : GoString) : Outcome (GoString × Int) := do
  let (dAtA, i) ← putBytes (msg.unrecognized m) dAtA dAtA.length
  let (dAtA, i) ← backwards (fun f => f.write m) msg.fields dAtA i
  pure (dAtA, dAtA.length - i)

/-- `Marshal`. -/
def marshal (m : M) : Outcome GoString := do
  let (dAtA, n) ← msg.marshalToSizedBuffer m (List.replicate (msg.size m) 0)
  slice dAtA 0 n

/-- The error of a tag that starts no field. -/
def errEndGroup : Fault :=
  .error (bytes "proto: " ++ bytes msg.name ++ bytes ": wiretype end group for non-group")

/-- The error of a field number that is not positive. -/
def errIllegalTag (fieldNum : Int) (wire : BitVec 64) : Fault :=
  .error (bytes "proto: " ++ bytes msg.name ++ bytes ": illegal tag " ++ formatInt fieldNum ++
    bytes " (wire type " ++ formatNat wire.toNat ++ bytes ")")

/-- The error of a field with another wire type than its own. -/
def errWireType (wireType : Nat) (f : Field M) : Fault :=
  .error (bytes "proto: wrong wireType = " ++ formatNat wireType ++ bytes " for field " ++
    bytes f.name)

/-- The `default` of the switch: the whole field, tag included, is measured and kept. -/
def unknownField (m : M) : Reader UInt8 Fault M := fun dAtA preIndex => do
  let skippy ← skip (dAtA.drop preIndex)
  let iNdEx := wrap64 (preIndex + skippy)
  require (0 ≤ iNdEx) errInvalidLength
  require (iNdEx ≤ dAtA.length) errUnexpectedEOF
  let field ← slice dAtA preIndex iNdEx
  pure (msg.keep m field, iNdEx.toNat)

/-- `int32(wire >> 3)`. -/
def fieldNumber (wire : BitVec 64) : Int := ((wire >>> 3).setWidth 32).toInt

/-- `int(wire & 0x7)`. -/
def wireTypeOf (wire : BitVec 64) : Nat := (wire &&& 0x7).toNat

/-- `switch fieldNum`. -/
def lookup (fieldNum : Int) : Option (Field M) :=
  msg.fields.find? fun f => (f.num : Int) == fieldNum

/-- One pass of the loop of `Unmarshal`. -/
def step (m : M) : Reader UInt8 Fault M := fun dAtA preIndex => do
  let (wire, iNdEx) ← getVarint dAtA preIndex
  let fieldNum := fieldNumber wire
  let wireType := wireTypeOf wire
  require (wireType ≠ 4) msg.errEndGroup
  require (0 < fieldNum) (msg.errIllegalTag fieldNum wire)
  match msg.lookup fieldNum with
  | some f => do
      require (wireType = f.kind.wireType) (errWireType wireType f)
      let (v, iNdEx) ← f.kind.read dAtA iNdEx
      pure (f.put m v, iNdEx)
  | none => msg.unknownField m dAtA preIndex

/-- `Unmarshal`. -/
def unmarshal (dAtA : GoString) (m : M) : Outcome M :=
  loop (.panic (bytes "out of fuel")) errUnexpectedEOF msg.step dAtA (dAtA.length + 1) m 0

/-! ### Marshal -/

/-- The bytes of a message: its fields, then what was not recognized. -/
def encode (m : M) : GoString := msg.fields.flatMap (fun f => f.encode m) ++ msg.unrecognized m

theorem size_eq_length (m : M) : msg.size m = (msg.encode m).length := by
  rw [size, encode, List.length_append, List.length_flatMap]
  congr 2
  apply List.map_congr_left
  intro f _
  exact f.size_eq_length m

theorem prepends_fields (m : M) :
    Prepends (andThen (putBytes (msg.unrecognized m)) (backwards (fun f => f.write m) msg.fields))
      (msg.encode m) :=
  (prepends_putBytes _).andThen (prepends_backwards fun f _ => f.prepends_write m)

/-- The code fills the end of a buffer that has room for the message. -/
theorem marshalToSizedBuffer_append (m : M) (before hole : GoString)
    (h : hole.length = (msg.encode m).length) :
    msg.marshalToSizedBuffer m (before ++ hole) = .ok (before ++ msg.encode m, hole.length) := by
  have hwrite := msg.prepends_fields m before hole [] h
  rw [List.append_nil, List.append_nil, ← Int.natCast_add, ← List.length_append] at hwrite
  have hlen : ((before ++ msg.encode m).length : Int) - before.length = hole.length := by
    rw [List.length_append, h]
    omega
  rw [marshalToSizedBuffer]
  rw [andThen, bind_eq_ok] at hwrite
  obtain ⟨⟨dAtA, i⟩, hput, hfields⟩ := hwrite
  rw [hput, ok_bind]
  show (backwards (fun f => f.write m) msg.fields dAtA i >>= fun p =>
    pure (p.1, (p.1.length : Int) - p.2)) = _
  rw [hfields, ok_bind, ← hlen]
  rfl

theorem marshal_eq (m : M) : msg.marshal m = .ok (msg.encode m) := by
  have hlen : (List.replicate (msg.size m) (0 : UInt8)).length = (msg.encode m).length := by
    rw [List.length_replicate, size_eq_length]
  have h := msg.marshalToSizedBuffer_append m [] _ hlen
  rw [List.nil_append, List.nil_append] at h
  rw [marshal, h, ok_bind, hlen]
  exact slice_span (span_self _)

/-! ### One pass of Unmarshal -/

/-- The field number and the wire type of a tag. -/
theorem tag_split {f : Field M} (htag : f.IsTag) :
    fieldNumber (BitVec.ofNat 64 f.tag.toNat) = f.num ∧
      wireTypeOf (BitVec.ofNat 64 f.tag.toNat) = f.kind.wireType := by
  obtain ⟨-, htag, hlt⟩ := htag
  have hkind : f.kind.wireType < 8 := by
    rcases f.kind.wireType_eq with h | h
    · omega
    · omega
  have hwire : (BitVec.ofNat 64 f.tag.toNat).toNat = f.num * 8 + f.kind.wireType := by
    rw [BitVec.toNat_ofNat]
    omega
  generalize BitVec.ofNat 64 f.tag.toNat = wire at hwire
  constructor
  · have hnat : ((wire >>> 3).setWidth 32).toNat = f.num := by
      rw [BitVec.toNat_setWidth, BitVec.toNat_ushiftRight, Nat.shiftRight_eq_div_pow, hwire]
      omega
    rw [fieldNumber, BitVec.toInt_eq_toNat_of_lt (by omega), hnat]
  · have hand : wire.toNat &&& 7 = wire.toNat % 8 := Nat.and_two_pow_sub_one_eq_mod wire.toNat 3
    rw [wireTypeOf, BitVec.toNat_and]
    show wire.toNat &&& 7 = f.kind.wireType
    rw [hand, hwire]
    omega

/-- What a pass does with a tag. -/
theorem step_eq_ok {m m' : M} {d : GoString} {i j : Nat} :
    msg.step m d i = .ok (m', j) ↔ ∃ wire k, getVarint d i = .ok (wire, k) ∧
      wireTypeOf wire ≠ 4 ∧ 0 < fieldNumber wire ∧
      ((∃ f v, msg.lookup (fieldNumber wire) = some f ∧ wireTypeOf wire = f.kind.wireType ∧
          f.kind.read d k = .ok (v, j) ∧ m' = f.put m v) ∨
        (msg.lookup (fieldNumber wire) = none ∧ msg.unknownField m d i = .ok (m', j))) := by
  constructor
  · intro h
    rw [step, bind_eq_ok] at h
    obtain ⟨⟨wire, k⟩, hwire, h⟩ := h
    obtain ⟨h4, h⟩ := require_bind_eq_ok.1 h
    obtain ⟨hnum, h⟩ := require_bind_eq_ok.1 h
    refine ⟨wire, k, hwire, h4, hnum, ?_⟩
    split at h
    · rename_i f hf
      obtain ⟨htype, h⟩ := require_bind_eq_ok.1 h
      obtain ⟨⟨v, j'⟩, hread, h⟩ := bind_eq_ok.1 h
      cases h
      exact .inl ⟨f, v, hf, htype, hread, rfl⟩
    · rename_i hf
      exact .inr ⟨hf, h⟩
  · rintro ⟨wire, k, hwire, h4, hnum, hcases⟩
    rw [step, hwire, ok_bind]
    show (require (wireTypeOf wire ≠ 4) msg.errEndGroup >>= fun _ => _) = _
    rw [require_bind_of h4, require_bind_of hnum]
    rcases hcases with ⟨f, v, hf, htype, hread, rfl⟩ | ⟨hf, hunknown⟩
    · rw [hf]
      show (require (wireTypeOf wire = f.kind.wireType) (errWireType _ f) >>= fun _ => _) = _
      rw [require_bind_of htype, hread]
      rfl
    · rw [hf]
      exact hunknown

theorem lookup_of_mem (hnodup : (msg.fields.map Field.num).Nodup) {f : Field M}
    (hf : f ∈ msg.fields) : msg.lookup f.num = some f := by
  rw [lookup]
  generalize msg.fields = fields at hnodup hf
  induction fields with
  | nil => cases hf
  | cons g fields ih =>
      rw [List.map_cons, List.nodup_cons] at hnodup
      rcases List.mem_cons.1 hf with rfl | hf
      · exact List.find?_cons_of_pos (by simp)
      · have hne : g.num ≠ f.num := fun heq => hnodup.1 (heq ▸ List.mem_map_of_mem hf)
        rw [List.find?_cons_of_neg (by simpa using hne)]
        exact ih hnodup.2 hf

/-- A pass takes the bytes of one value of a field. -/
theorem consumes_step_field (hnodup : (msg.fields.map Field.num).Nodup) {f : Field M}
    (hf : f ∈ msg.fields) (htag : f.IsTag) {v : f.V} (hv : f.kind.Valid v) (m : M) :
    Consumes maxLen (msg.step m) (f.encodeValue v) (f.put m v) := by
  intro d i j hd hseg
  obtain ⟨hnum, htype⟩ := tag_split htag
  obtain ⟨hpos, -, hlt⟩ := htag
  have hvalue : Varint.value [f.tag] = f.tag.toNat := by
    simp only [Varint.value]
    omega
  obtain ⟨k, hfirst, hrest⟩ := Span.split (x := [f.tag]) hseg
  have hwire := consumes_getVarint (.last hlt) (by simp) d i k hd hfirst
  rw [hvalue] at hwire
  refine msg.step_eq_ok.2 ⟨_, k, hwire, ?_, ?_, .inl ⟨f, v, ?_, htype, ?_, rfl⟩⟩
  · rw [htype]
    rcases f.kind.wireType_eq with h | h
    · omega
    · omega
  · rw [hnum]
    omega
  · rw [hnum]
    exact msg.lookup_of_mem hnodup hf
  · exact f.kind.consumes v hv d k j hd hrest

/-- An unknown field is a span of the input, which starts with its tag. The same bytes are kept
wherever they stand and whatever the message was. -/
theorem unknownField_spec {m m' : M} {d : GoString} {i j k : Nat} {wire : BitVec 64}
    (hd : d.length < maxLen) (hwire : getVarint d i = .ok (wire, k))
    (h4 : wireTypeOf wire ≠ 4) (hnum : 0 < fieldNumber wire)
    (hnone : msg.lookup (fieldNumber wire) = none)
    (h : msg.unknownField m d i = .ok (m', j)) :
    ∃ x, Span d i j x ∧ x ≠ [] ∧ m' = msg.keep m x ∧
      ∀ m, Consumes maxLen (msg.step m) x (msg.keep m x) := by
  have hi : i ≤ d.length := by
    have := local_getVarint.lt hd hwire
    omega
  rw [unknownField, bind_eq_ok] at h
  obtain ⟨n, hskip, h⟩ := h
  rw [require_bind_eq_ok, require_bind_eq_ok, bind_eq_ok] at h
  obtain ⟨hpos, hle, field, hslice, h⟩ := h
  cases h
  have hdrop : (d.drop i).length < maxLen := by
    rw [List.length_drop]
    omega
  have hlt := (skipLoop_spec hdrop _ 0 0 n hskip).2.1
  have hwrap := wrap64_of_nonneg (show i < maxLen by omega) (Int.natCast_nonneg n)
    (by simp only [maxLen] at hlt; omega) hpos
  have hcast : wrap64 ((i : Int) + n) = ((i + n : Nat) : Int) := by rw [hwrap, Int.natCast_add]
  rw [hcast] at hle hslice ⊢
  have hin : i + n ≤ d.length := by omega
  obtain ⟨g, y, wire', hseg, hg, hcons, hskip'⟩ :=
    skip_spec hdrop hskip (by rw [List.length_drop]; omega)
  have hn : n = (g ++ y).length := by simpa using hseg.length.1
  -- the bytes stand at the same place of the whole input
  have hwhole := span_of_span_drop hi hseg
  rw [slice_span hwhole] at hslice
  cases hslice
  -- the tag that was read is the one that they start with
  have hsame : wire' = wire := by
    obtain ⟨l, htag, -⟩ := hwhole.split
    have := hcons d i l hd htag
    rw [hwire] at this
    cases this
    rfl
  subst hsame
  refine ⟨g ++ y, hwhole, List.append_ne_nil_of_left_ne_nil hg y, rfl, fun m d i j hd hseg => ?_⟩
  obtain ⟨l, htag, -⟩ := hseg.split
  refine msg.step_eq_ok.2 ⟨wire', l, hcons d i l hd htag, h4, hnum, .inr ⟨hnone, ?_⟩⟩
  obtain ⟨hj, hjle⟩ := hseg.length
  have hskipd : skip (d.drop i) = .ok n := by
    apply hskip'
    · rw [List.length_drop]
      omega
    · rw [hn]
      exact hseg.drop
  have hpost : wrap64 ((i : Int) + n) = (j : Int) := by
    simp only [maxLen] at hd
    rw [wrap64_of_lt (by omega) (by omega)]
    omega
  have hj0 : 0 ≤ (j : Int) := Int.natCast_nonneg j
  have hjd : (j : Int) ≤ d.length := Int.ofNat_le.2 hjle
  rw [unknownField, hskipd, ok_bind, hpost, require_bind_of hj0, require_bind_of hjd,
    slice_span hseg]
  rfl

theorem local_step (m : M) : Local maxLen (msg.step m) := by
  intro d i m' j hd h
  obtain ⟨wire, k, hwire, h4, hnum, hcases⟩ := msg.step_eq_ok.1 h
  rcases hcases with ⟨f, v, hf, htype, hread, rfl⟩ | ⟨hf, hunknown⟩
  · obtain ⟨x, hx, hxne, hxcons⟩ := local_getVarint d i wire k hd hwire
    obtain ⟨y, hy, -, hycons⟩ := f.kind.local_read d k v j hd hread
    refine ⟨x ++ y, hx.append hy, List.append_ne_nil_of_left_ne_nil hxne y, fun d i j hd hseg => ?_⟩
    obtain ⟨l, hx', hy'⟩ := hseg.split
    exact msg.step_eq_ok.2 ⟨wire, l, hxcons d i l hd hx', h4, hnum,
      .inl ⟨f, v, hf, htype, hycons d l j hd hy', rfl⟩⟩
  · obtain ⟨x, hseg, hx, rfl, hcons⟩ := msg.unknownField_spec hd hwire h4 hnum hf hunknown
    exact ⟨x, hseg, hx, hcons m⟩

theorem noPanic_unknownField {m : M} {d : GoString} {i : Nat} (hd : d.length < maxLen)
    (hi : i ≤ d.length) : NoPanic (msg.unknownField m d i) := by
  have hdrop : (d.drop i).length < maxLen := by
    rw [List.length_drop]
    omega
  refine noPanic_bind.2 ⟨noPanic_skip hdrop, fun n hn => ?_⟩
  have hlt := (skipLoop_spec hdrop _ 0 0 n hn).2.1
  dsimp only
  generalize hpost : wrap64 ((i : Int) + n) = postIndex
  refine noPanic_require_error.2 fun hpos => ?_
  refine noPanic_require_error.2 fun hle => ?_
  rw [← hpost] at hpos hle ⊢
  have hwrap := wrap64_of_nonneg (show i < maxLen by omega) (Int.natCast_nonneg n)
    (by simp only [maxLen] at hlt; omega) hpos
  rw [hwrap] at hle ⊢
  rw [slice, if_pos ⟨by omega, by omega, hle⟩]
  trivial

theorem noPanic_step (m : M) {d : GoString} (hd : d.length < maxLen) (i : Nat) :
    NoPanic (msg.step m d i) := by
  refine noPanic_bind.2 ⟨noPanic_getVarint d i, fun p hp => ?_⟩
  have hlt := local_getVarint.lt hd hp
  refine noPanic_require_error.2 fun _ => noPanic_require_error.2 fun _ => ?_
  show NoPanic (match msg.lookup (fieldNumber p.1) with | some f => _ | none => _)
  split
  · rename_i f hf
    refine noPanic_require_error.2 fun _ => ?_
    exact noPanic_bind.2 ⟨f.kind.noPanic d p.2 hd, fun _ _ => trivial⟩
  · exact msg.noPanic_unknownField hd (by omega)

/-! ### Unmarshal -/

/-- `Unmarshal` cuts the bytes into fields. -/
theorem unmarshal_eq_ok {d : GoString} (hd : d.length < maxLen) {m m' : M} :
    msg.unmarshal d m = .ok m' ↔ Chunks maxLen msg.step m d m' :=
  loop_eq_ok_iff msg.local_step hd

/-- What every pass keeps holds of what `Unmarshal` returns. -/
theorem unmarshal_invariant {P : M → Prop} {d : GoString} (hd : d.length < maxLen) {m m' : M}
    (hstep : ∀ m m' d i j, d.length < maxLen → msg.step m d i = .ok (m', j) → P m → P m')
    (hok : msg.unmarshal d m = .ok m') (hm : P m) : P m' := by
  refine ((msg.unmarshal_eq_ok hd).1 hok).invariant hd (fun s s' x hx hcons hs => ?_) hm
  exact hstep s s' x 0 x.length hx (hcons x 0 x.length hx (span_self x)) hs

/-- A property of messages that unknown fields do not touch is kept if the values that are read keep it. -/
theorem unmarshal_invariant_fields {P : M → Prop} {d : GoString} (hd : d.length < maxLen) {m m' : M}
    (hkeep : ∀ m u, P m → P (msg.keep m u))
    (hput : ∀ f ∈ msg.fields, ∀ m v d i j, d.length < maxLen → f.kind.read d i = .ok (v, j) →
      P m → P (f.put m v))
    (hok : msg.unmarshal d m = .ok m') (hm : P m) : P m' := by
  refine msg.unmarshal_invariant hd (fun m m' d i j hd hstep hm => ?_) hok hm
  obtain ⟨wire, k, hwire, h4, hnum, hcases⟩ := msg.step_eq_ok.1 hstep
  rcases hcases with ⟨f, v, hf, -, hread, rfl⟩ | ⟨hf, hunknown⟩
  · exact hput f (List.mem_of_find?_eq_some hf) m v d k j hd hread hm
  · obtain ⟨x, -, -, rfl, -⟩ := msg.unknownField_spec hd hwire h4 hnum hf hunknown
    exact hkeep m x hm

theorem noPanic_unmarshal {d : GoString} (hd : d.length < maxLen) (m : M) :
    NoPanic (msg.unmarshal d m) := by
  cases h : msg.unmarshal d m with
  | ok m' => trivial
  | error fault =>
      obtain ⟨m', i, -, hstep⟩ :=
        loop_eq_error msg.local_step hd _ m 0 (Nat.zero_le _) (Nat.lt_succ_self _) h
      have := msg.noPanic_step m' hd i
      rw [hstep] at this
      cases fault with
      | error text => trivial
      | panic text => exact this

/-- Bytes of unknown fields: read into any message, they are added to its unknown bytes. -/
def Unknown (u : GoString) : Prop := ∀ m, Chunks maxLen msg.step m u (msg.keep m u)

/-- Put the values of the fields of `m` into another message. -/
def copyFields (m : M) : List (Field M) → M → M
  | [], acc => acc
  | f :: fields, acc => copyFields m fields (f.copy m acc)

theorem copyFields_cons {m acc acc' : M} {f : Field M} {fields : List (Field M)}
    (h : f.copy m acc = acc') : copyFields m (f :: fields) acc = copyFields m fields acc' := by
  rw [copyFields, h]

/-- The values of every field survive a round trip. -/
def Parts (m : M) : Prop := ∀ f ∈ msg.fields, ∀ v ∈ f.values m, f.kind.Valid v

/-- Messages that survive a round trip: the unknown bytes are fields, and so in nested messages. -/
def Valid (m : M) : Prop := msg.Unknown (msg.unrecognized m) ∧ msg.Parts m

/-- What the fields of a message type have to do with each other: the numbers differ, the values put into
the zero message give the message back, and a value put into a message leaves the other parts alone. -/
structure Lawful : Prop where
  isTag : ∀ f ∈ msg.fields, f.IsTag
  nodup : (msg.fields.map Field.num).Nodup
  rebuild : ∀ m, msg.keep (copyFields m msg.fields msg.empty) (msg.unrecognized m) = m
  keep_nil : ∀ m, msg.keep m [] = m
  keep_keep : ∀ m x y, msg.keep (msg.keep m x) y = msg.keep m (x ++ y)
  unrecognized_empty : msg.unrecognized msg.empty = []
  unrecognized_put : ∀ f ∈ msg.fields, ∀ m v, msg.unrecognized (f.put m v) = msg.unrecognized m
  unrecognized_keep : ∀ m u, msg.unrecognized (msg.keep m u) = msg.unrecognized m ++ u ∨
    msg.unrecognized (msg.keep m u) = msg.unrecognized m
  parts_empty : msg.Parts msg.empty
  parts_put : ∀ f ∈ msg.fields, ∀ m v, msg.Parts m → f.kind.Valid v → msg.Parts (f.put m v)
  parts_keep : ∀ m u, msg.Parts m → msg.Parts (msg.keep m u)

section Lawful

variable {msg}

theorem unknown_nil (h : msg.Lawful) : msg.Unknown [] := by
  intro m
  rw [h.keep_nil]
  exact .nil m

theorem unknown_append (h : msg.Lawful) {x y : GoString} (hx : msg.Unknown x) (hy : msg.Unknown y) :
    msg.Unknown (x ++ y) := by
  intro m
  rw [← h.keep_keep]
  exact (hx m).append (hy _)

theorem valid_empty (h : msg.Lawful) : msg.Valid msg.empty :=
  ⟨h.unrecognized_empty ▸ unknown_nil h, h.parts_empty⟩

theorem chunks_field (h : msg.Lawful) {f : Field M} (hf : f ∈ msg.fields) {l : List f.V}
    (hl : ∀ v ∈ l, f.kind.Valid v) :
    ∀ acc, Chunks maxLen msg.step acc (l.flatMap f.encodeValue) (l.foldl f.put acc) := by
  induction l with
  | nil => exact fun acc => .nil acc
  | cons v l ih =>
      intro acc
      refine .cons (List.cons_ne_nil _ _) ?_ (ih (fun w hw => hl w (List.mem_cons_of_mem v hw)) _)
      exact msg.consumes_step_field h.nodup hf (h.isTag f hf) (hl v List.mem_cons_self) acc

theorem chunks_fields (h : msg.Lawful) (m : M) {fields : List (Field M)}
    (hfields : ∀ f ∈ fields, f ∈ msg.fields ∧ ∀ v ∈ f.values m, f.kind.Valid v) :
    ∀ acc, Chunks maxLen msg.step acc (fields.flatMap fun f => f.encode m)
      (copyFields m fields acc) := by
  induction fields with
  | nil => exact fun acc => .nil acc
  | cons f fields ih =>
      intro acc
      obtain ⟨hf, hvalues⟩ := hfields f List.mem_cons_self
      exact (chunks_field h hf hvalues acc).append
        (ih (fun g hg => hfields g (List.mem_cons_of_mem f hg)) _)

/-- The bytes of a valid message are read as the message. -/
theorem chunks_encode (h : msg.Lawful) {m : M} (hm : msg.Valid m) :
    Chunks maxLen msg.step msg.empty (msg.encode m) m := by
  have hfields := chunks_fields h m (fun f hf => ⟨hf, hm.2 f hf⟩) msg.empty
  have hunknown := hm.1 (copyFields m msg.fields msg.empty)
  rw [h.rebuild m] at hunknown
  exact hfields.append hunknown

theorem unmarshal_encode (h : msg.Lawful) {m : M} (hm : msg.Valid m)
    (hlen : (msg.encode m).length < maxLen) : msg.unmarshal (msg.encode m) msg.empty = .ok m :=
  (msg.unmarshal_eq_ok hlen).2 (chunks_encode h hm)

/-- A pass builds a message of valid parts. -/
theorem valid_step (h : msg.Lawful) {m m' : M} {d : GoString} {i j : Nat} (hd : d.length < maxLen)
    (hm : msg.Valid m) (hstep : msg.step m d i = .ok (m', j)) : msg.Valid m' := by
  obtain ⟨wire, k, hwire, h4, hnum, hcases⟩ := msg.step_eq_ok.1 hstep
  rcases hcases with ⟨f, v, hf, -, hread, rfl⟩ | ⟨hf, hunknown⟩
  · have hmem := List.mem_of_find?_eq_some hf
    refine ⟨?_, h.parts_put f hmem m v hm.2 (f.kind.valid_of_read d k v j hd hread)⟩
    rw [h.unrecognized_put f hmem]
    exact hm.1
  · obtain ⟨x, -, hx, rfl, hcons⟩ := msg.unknownField_spec hd hwire h4 hnum hf hunknown
    refine ⟨?_, h.parts_keep m x hm.2⟩
    rcases h.unrecognized_keep m x with heq | heq
    · rw [heq]
      exact unknown_append h hm.1 fun m => .single hx (hcons m)
    · rw [heq]
      exact hm.1

theorem valid_unmarshal (h : msg.Lawful) {m m' : M} {d : GoString} (hd : d.length < maxLen)
    (hm : msg.Valid m) (hok : msg.unmarshal d m = .ok m') : msg.Valid m' :=
  msg.unmarshal_invariant hd (fun _ _ _ _ _ hd hstep hm => valid_step h hd hm hstep) hok hm

variable (msg) in
/-- Every valid message is written without a panic into as many bytes as `Size` says, and read back. -/
def RoundTrips : Prop :=
  ∀ m, msg.Valid m → msg.size m < maxLen →
    ∃ bz, msg.marshal m = .ok bz ∧ bz.length = msg.size m ∧ msg.unmarshal bz msg.empty = .ok m

theorem roundTrips (h : msg.Lawful) : msg.RoundTrips := by
  intro m hm hsize
  rw [msg.size_eq_length] at hsize
  exact ⟨msg.encode m, msg.marshal_eq m, (msg.size_eq_length m).symm, unmarshal_encode h hm hsize⟩

variable (msg) in
/-- What `Unmarshal` accepts is a valid message. -/
def AcceptsValid : Prop :=
  ∀ bz m, bz.length < maxLen → msg.unmarshal bz msg.empty = .ok m → msg.Valid m

theorem acceptsValid (h : msg.Lawful) : msg.AcceptsValid :=
  fun _ _ hbz hok => valid_unmarshal h hbz (valid_empty h) hok

variable (msg) in
/-- Whatever bytes there are, `Unmarshal` does not panic, and a message that it accepts is written and read
back as it is. -/
def Robust : Prop :=
  ∀ bz, bz.length < maxLen → NoPanic (msg.unmarshal bz msg.empty) ∧
    ∀ m, msg.unmarshal bz msg.empty = .ok m → msg.size m < maxLen →
      ∃ bz', msg.marshal m = .ok bz' ∧ msg.unmarshal bz' msg.empty = .ok m

theorem robust (h : msg.Lawful) : msg.Robust := by
  intro bz hbz
  refine ⟨msg.noPanic_unmarshal hbz _, fun m hok hsize => ?_⟩
  obtain ⟨bz', hmarshal, -, hunmarshal⟩ := roundTrips h m (acceptsValid h bz m hbz hok) hsize
  exact ⟨bz', hmarshal, hunmarshal⟩

end Lawful

end Message

/-! ## Nested messages -/

section Nested

variable {N : Type} (msg : Message N)

/-- A nested message: the bytes of a string field, read into a new message. -/
def readMessage : Reader UInt8 Fault N := fun dAtA iNdEx => do
  let (bz, iNdEx) ← readBytes dAtA iNdEx
  let m ← msg.unmarshal bz msg.empty
  pure (m, iNdEx)

/-- `size, err := m.MarshalToSizedBuffer(dAtA[:i]); i -= size; i = encodeVarintTx(dAtA, i, uint64(size))`.
The nested call writes into the front of the buffer. -/
def writeMessage (m : N) : BufferWriter UInt8 Fault := fun dAtA i => do
  let front ← slice dAtA 0 i
  let (front, size) ← msg.marshalToSizedBuffer m front
  let dAtA := front ++ dAtA.drop i.toNat
  encodeVarint dAtA (i - size) (BitVec.ofInt 64 size)

variable {msg}

theorem readMessage_eq_ok {d : GoString} {i j : Nat} {m : N} :
    readMessage msg d i = .ok (m, j) ↔
      ∃ bz, readBytes d i = .ok (bz, j) ∧ msg.unmarshal bz msg.empty = .ok m := by
  rw [readMessage, bind_eq_ok]
  constructor
  · rintro ⟨⟨bz, k⟩, hbz, h⟩
    obtain ⟨m', hm', h⟩ := bind_eq_ok.1 h
    cases h
    exact ⟨bz, hbz, hm'⟩
  · rintro ⟨bz, hbz, hm⟩
    refine ⟨(bz, j), hbz, ?_⟩
    show (msg.unmarshal bz msg.empty >>= fun m => pure (m, j)) = _
    rw [hm]
    rfl

theorem prepends_writeMessage (m : N) :
    Prepends (writeMessage msg m) (lengthDelimited (msg.encode m)) := by
  intro before hole after hlen
  -- the message goes into the back of the hole, its length into the front
  obtain ⟨front, back, rfl, hfront⟩ : ∃ front back, hole = front ++ back ∧
      front.length = (varint (BitVec.ofNat 64 (msg.encode m).length)).length := by
    refine ⟨_, _, (List.take_append_drop _ hole).symm, List.length_take_of_le ?_⟩
    rw [hlen, lengthDelimited, List.length_append]
    omega
  have hback : back.length = (msg.encode m).length := by
    rw [lengthDelimited, List.length_append, List.length_append] at hlen
    omega
  have hslice : slice (before ++ ((front ++ back) ++ after)) 0
      (before.length + (front ++ back).length) = .ok ((before ++ front) ++ back) := by
    have hseg : Span (before ++ ((front ++ back) ++ after)) 0
        (before.length + (front ++ back).length) ((before ++ front) ++ back) :=
      ⟨[], after, by simp, rfl, by simp⟩
    have := slice_span hseg
    rwa [Int.natCast_add] at this
  have hdrop : (before ++ ((front ++ back) ++ after)).drop
      ((before.length : Int) + (front ++ back).length).toNat = after := by
    rw [← Int.natCast_add, Int.toNat_natCast, ← List.length_append,
      ← List.append_assoc before (front ++ back) after, List.drop_left]
  have hpos : (before.length : Int) + (front ++ back).length - back.length =
      before.length + front.length := by
    rw [List.length_append]
    omega
  rw [writeMessage, hslice, ok_bind, msg.marshalToSizedBuffer_append m _ back hback, ok_bind]
  show encodeVarint (_ ++ (before ++ (front ++ back ++ after)).drop _) _ _ = _
  rw [hdrop, hpos, BitVec.ofInt_natCast, hback]
  have := prepends_encodeVarint _ before front (msg.encode m ++ after) hfront
  simpa [lengthDelimited] using this

theorem consumes_readMessage (h : msg.Lawful) {m : N} (hm : msg.Valid m) :
    Consumes maxLen (readMessage msg) (lengthDelimited (msg.encode m)) m := by
  intro d i j hd hseg
  have hlen : (msg.encode m).length < maxLen := by
    have := hseg.length
    rw [lengthDelimited, List.length_append] at this
    omega
  exact readMessage_eq_ok.2
    ⟨_, consumes_readBytes _ d i j hd hseg, Message.unmarshal_encode h hm hlen⟩

theorem local_readMessage : Local maxLen (readMessage msg) := by
  intro d i m j hd h
  obtain ⟨bz, hbz, hm⟩ := readMessage_eq_ok.1 h
  obtain ⟨x, hseg, hx, hcons⟩ := local_readBytes d i bz j hd hbz
  refine ⟨x, hseg, hx, fun d i j hd hseg => ?_⟩
  exact readMessage_eq_ok.2 ⟨bz, hcons d i j hd hseg, hm⟩

theorem valid_readMessage (h : msg.Lawful) {d : GoString} {i j : Nat} {m : N}
    (hd : d.length < maxLen) (hread : readMessage msg d i = .ok (m, j)) : msg.Valid m := by
  obtain ⟨bz, hbz, hm⟩ := readMessage_eq_ok.1 hread
  have hlen := length_readBytes_le hd hbz
  exact Message.valid_unmarshal h (by omega) (Message.valid_empty h) hm

theorem noPanic_readMessage {d : GoString} (hd : d.length < maxLen) (i : Nat) :
    NoPanic (readMessage msg d i) := by
  refine noPanic_bind.2 ⟨noPanic_readBytes hd i, fun p hp => ?_⟩
  have hlen := length_readBytes_le hd hp
  exact noPanic_bind.2 ⟨msg.noPanic_unmarshal (by omega) _, fun _ _ => trivial⟩

theorem size_nested (msg : Message N) (m : N) :
    msg.size m + sov (BitVec.ofNat 64 (msg.size m)) = (lengthDelimited (msg.encode m)).length := by
  rw [msg.size_eq_length, size_lengthDelimited]

/-- Nested messages. -/
def messageKind (msg : Message N) (h : msg.Lawful) : Kind N where
  wireType := 2
  size m := msg.size m + sov (BitVec.ofNat 64 (msg.size m))
  write := writeMessage msg
  read := readMessage msg
  encode m := lengthDelimited (msg.encode m)
  Valid := msg.Valid
  wireType_eq := .inr rfl
  size_eq := size_nested msg
  prepends := prepends_writeMessage
  consumes _ hm := consumes_readMessage h hm
  local_read := local_readMessage
  valid_of_read _ _ _ _ hd hread := valid_readMessage h hd hread
  noPanic _ i hd := noPanic_readMessage hd i

end Nested

/-! ## The fields of a message -/

section Fields

variable {M N : Type} {num : Nat} {name : String} {tag : UInt8}

/-- A string field; the empty string is not written. -/
def stringField (num : Nat) (name : String) (tag : UInt8) (get : M → GoString)
    (set : M → GoString → M) : Field M where
  V := GoString
  kind := stringKind
  num := num
  name := name
  tag := tag
  values m := if get m = [] then [] else [get m]
  put := set

/-- An `int64` field; zero is not written. -/
def int64Field (num : Nat) (name : String) (tag : UInt8) (get : M → BitVec 64)
    (set : M → BitVec 64 → M) : Field M where
  V := BitVec 64
  kind := int64Kind
  num := num
  name := name
  tag := tag
  values m := if get m = 0 then [] else [get m]
  put := set

/-- A repeated string field. -/
def stringsField (num : Nat) (name : String) (tag : UInt8) (get : M → List GoString)
    (set : M → List GoString → M) : Field M where
  V := GoString
  kind := stringKind
  num := num
  name := name
  tag := tag
  values := get
  put m s := set m (get m ++ [s])

/-- A repeated message field. -/
def messagesField (nested : Message N) (hnested : nested.Lawful) (num : Nat) (name : String)
    (tag : UInt8) (get : M → List N) (set : M → List N → M) :
    Field M where
  V := N
  kind := messageKind nested hnested
  num := num
  name := name
  tag := tag
  values := get
  put m v := set m (get m ++ [v])

/-- A string that is not written is the one that the zero message has. -/
theorem copy_stringField {get : M → GoString} {set : M → GoString → M} {m acc : M}
    (hacc : set acc [] = acc) :
    (stringField num name tag get set).copy m acc = set acc (get m) := by
  by_cases hm : get m = []
  · simp [Field.copy, stringField, hm, hacc]
  · simp [Field.copy, stringField, hm]

theorem copy_int64Field {get : M → BitVec 64} {set : M → BitVec 64 → M} {m acc : M}
    (hacc : set acc 0 = acc) :
    (int64Field num name tag get set).copy m acc = set acc (get m) := by
  by_cases hm : get m = 0
  · simp only [Field.copy, int64Field, hm, if_true, List.foldl_nil, hacc]
  · simp only [Field.copy, int64Field, hm, if_false, List.foldl_cons, List.foldl_nil]

/-- Values appended one by one. -/
theorem foldl_append_values {V : Type} {get : M → List V} {set : M → List V → M}
    (hget : ∀ m l, get (set m l) = l) (hset : ∀ m l l', set (set m l) l' = set m l')
    (l : List V) : ∀ acc, set acc (get acc) = acc →
      l.foldl (fun m v => set m (get m ++ [v])) acc = set acc (get acc ++ l) := by
  induction l with
  | nil =>
      intro acc hacc
      rw [List.foldl_nil, List.append_nil, hacc]
  | cons v l ih =>
      intro acc hacc
      rw [List.foldl_cons, ih _ (by rw [hset, hget]), hget, hset, List.append_assoc]
      rfl

/-- A repeated field that the other message does not have yet. -/
theorem copy_stringsField {get : M → List GoString} {set : M → List GoString → M} {m acc : M}
    (hget : ∀ m l, get (set m l) = l) (hset : ∀ m l l', set (set m l) l' = set m l')
    (hacc : set acc [] = acc) :
    (stringsField num name tag get set).copy m acc = set acc (get m) := by
  have hnil : get acc = [] := by rw [← hacc, hget]
  have h := foldl_append_values hget hset (get m) acc (by rw [hnil, hacc])
  rwa [hnil, List.nil_append] at h

theorem copy_messagesField {nested : Message N} {hnested : nested.Lawful} {get : M → List N}
    {set : M → List N → M} {m acc : M} (hget : ∀ m l, get (set m l) = l)
    (hset : ∀ m l l', set (set m l) l' = set m l') (hacc : set acc [] = acc) :
    (messagesField nested hnested num name tag get set).copy m acc = set acc (get m) := by
  have hnil : get acc = [] := by rw [← hacc, hget]
  have h := foldl_append_values hget hset (get m) acc (by rw [hnil, hacc])
  rwa [hnil, List.nil_append] at h

end Fields

end EnergyChain.Proto
