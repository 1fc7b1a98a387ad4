import EnergyChain.Go.BigInt
import EnergyChain.Go.Numeric
import EnergyChain.Reward.Types

/-!
# Encodings of the stored values

The reward store keeps protobuf messages, JSON texts, printed numbers and raw text. The encoders are
library code, so the value type of the store and the encodings are parameters with their round-trip
laws (`Codec`): protobuf gives back the message, JSON gives back the value with its strings passed
through `jsonText`, and the printed form of an integer below `2 ^ 53` is read as that number.

`documents` is the free encoding, in which a stored value is the value itself with its kind.
-/

set_option autoImplicit false

namespace EnergyChain.Reward

open EnergyChain.Go

/-- The encodings of the values of the reward store, over the type `V` of stored values. A failed
decode has an error text; a failed decode of a string list also leaves what was read so far. -/
structure Codec (V : Type) where
  marshalSupply : Supply → V
  unmarshalSupply : V → Except GoString Supply
  marshalRecord : RECRecord → V
  unmarshalRecord : V → Except GoString RECRecord
  marshalMeta : RECMeta → V
  unmarshalMeta : V → Except GoString RECMeta
  marshalStrings : List GoString → V
  unmarshalStrings : V → List GoString × Bool
  marshalNode : TxNodeTx → V
  unmarshalNode : V → Except GoString TxNodeTx
  text : GoString → V
  toText : V → GoString
  unmarshalFloat : V → Option Float64
  recordJson : RECRecord → GoString
  metaJson : RECMeta → GoString
  contributorsJson : List Contributor → GoString
  supply_roundTrip : ∀ s, unmarshalSupply (marshalSupply s) = .ok s
  record_roundTrip : ∀ r, unmarshalRecord (marshalRecord r) = .ok r
  meta_roundTrip : ∀ m, unmarshalMeta (marshalMeta m) = .ok m
  strings_roundTrip : ∀ l, unmarshalStrings (marshalStrings l) = (l.map jsonText, true)
  node_roundTrip : ∀ n, unmarshalNode (marshalNode n) = .ok n.throughJson
  text_roundTrip : ∀ t, toText (text t) = t
  float_roundTrip : ∀ z : Int, z.natAbs ≤ 2 ^ 53 →
    unmarshalFloat (text (Float64.fin z).format) = some (.fin z)

/-! ## The free encoding -/

/-- A stored value with its kind. -/
inductive Document where
  | supply (s : Supply)
  | recRecord (rec : RECRecord)
  | recMeta (recMeta : RECMeta)
  | strings (l : List GoString)
  | node (n : TxNodeTx)
  | text (t : GoString)
  deriving DecidableEq, Repr

/-- Read the printed form of an integer: the part before the point. -/
def readFloat (t : GoString) : Option Float64 :=
  match setString (t.takeWhile fun b => b != 46) 0 with
  | some z => some (.fin z)
  | none => none

theorem readFloat_format (z : Int) : readFloat (Float64.fin z).format = some (.fin z) := by
  have hdot : ∀ b ∈ formatInt z, (b != 46) = true := by
    intro b hb
    have hdigit : ∀ c ∈ formatNat z.natAbs, (c != 46) = true := by
      intro c hc
      have := isDigit_of_mem_formatNat hc
      rw [bne_iff_ne]
      rintro rfl
      simp [isDigit] at this
    unfold formatInt at hb
    split at hb
    · rcases List.mem_cons.1 hb with rfl | hb
      · rfl
      · exact hdigit b hb
    · exact hdigit b hb
  have htake : ((Float64.fin z).format.takeWhile fun b => b != 46) = formatInt z := by
    rw [Float64.format_intCast, List.takeWhile_append_of_pos hdot]
    have : (bytes ".000000").takeWhile (fun b => b != 46) = [] := by decide
    rw [this, List.append_nil]
  rw [readFloat, htake, setString_formatInt]

/-- The error of a decoder that is given a value of another kind. -/
def wrongKind {α : Type} : Except GoString α := .error (bytes "unexpected kind of value")

/-- The free encoding. -/
def documents : Codec Document where
  marshalSupply := .supply
  unmarshalSupply
    | .supply s => .ok s
    | _ => wrongKind
  marshalRecord := .recRecord
  unmarshalRecord
    | .recRecord r => .ok r
    | _ => wrongKind
  marshalMeta := .recMeta
  unmarshalMeta
    | .recMeta m => .ok m
    | _ => wrongKind
  marshalStrings l := .strings (l.map jsonText)
  unmarshalStrings
    | .strings l => (l, true)
    | _ => ([], false)
  marshalNode n := .node n.throughJson
  unmarshalNode
    | .node n => .ok n
    | _ => wrongKind
  text := .text
  toText
    | .text t => t
    | _ => []
  unmarshalFloat
    | .text t => readFloat t
    | _ => none
  recordJson r := r.recId
  metaJson m := m.certifiedId
  contributorsJson l := [44].intercalate (l.map Contributor.address)
  supply_roundTrip _ := rfl
  record_roundTrip _ := rfl
  meta_roundTrip _ := rfl
  strings_roundTrip _ := rfl
  node_roundTrip _ := rfl
  text_roundTrip _ := rfl
  float_roundTrip z _ := readFloat_format z

end EnergyChain.Reward
