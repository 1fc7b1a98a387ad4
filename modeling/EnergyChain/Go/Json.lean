import EnergyChain.Go.Utf8

/-!
# JSON values and structs

`encoding/json` writes a struct as an object and reads an object into a struct one member at a time.
A member goes to the field of its name, or else to a field whose name differs only in the case of
letters; a member without a field is skipped. A value of the wrong type does not stop the decoder: the
field keeps what it had, the first such error is remembered, and it is returned at the end. So a single
member that its field refuses makes the whole decoding fail (`decodeStruct_error`).

The text of a value is library code: `JsonText` is a reader and a writer of texts with the laws the
program relies on.
-/

set_option autoImplicit false

namespace EnergyChain.Go

/-- A JSON value; a number is its text. -/
inductive Json where
  | null
  | bool (b : Bool)
  | number (text : GoString)
  | str (s : GoString)
  | array (items : List Json)
  | object (members : List (GoString × Json))

/-- How an `UnmarshalTypeError` names a value. -/
def Json.kind : Json → GoString
  | .null => bytes "null"
  | .bool _ => bytes "bool"
  | .number _ => bytes "number"
  | .str _ => bytes "string"
  | .array _ => bytes "array"
  | .object _ => bytes "object"

/-! ## Texts -/

mutual

/-- What is read back of a value that was written: its strings are valid UTF-8. -/
def Json.throughText : Json → Json
  | .null => .null
  | .bool b => .bool b
  | .number text => .number text
  | .str s => .str (jsonText s)
  | .array items => .array (Json.itemsThroughText items)
  | .object members => .object (Json.membersThroughText members)

def Json.itemsThroughText : List Json → List Json
  | [] => []
  | item :: items => item.throughText :: Json.itemsThroughText items

def Json.membersThroughText : List (GoString × Json) → List (GoString × Json)
  | [] => []
  | (key, value) :: members => (jsonText key, value.throughText) :: Json.membersThroughText members

end

theorem Json.mem_membersThroughText {key : GoString} {value : Json} :
    ∀ {members : List (GoString × Json)}, (key, value) ∈ members →
      (jsonText key, value.throughText) ∈ Json.membersThroughText members
  | (key', value') :: members, h => by
      rw [Json.membersThroughText]
      rcases List.mem_cons.1 h with h | h
      · obtain ⟨rfl, rfl⟩ := Prod.mk.inj h
        exact List.mem_cons_self
      · exact List.mem_cons_of_mem _ (mem_membersThroughText h)

/-- Texts of JSON values, as bytes of some type `T`. -/
structure JsonText (T : Type) where
  marshal : Json → T
  parse : T → Except GoString Json
  toString : T → GoString
  parse_marshal : ∀ v, parse (marshal v) = .ok v.throughText
  head_object : ∀ members, (toString (marshal (.object members))).head? = some 123

/-! ## Structs -/

/-- A field of a struct: its name in JSON, and what decoding a value into it does. -/
structure JsonField (α : Type) where
  name : GoString
  set : Json → α → Except GoString α

/-- A text with its ASCII letters in lower case. -/
def foldCase (s : GoString) : GoString := s.map fun b => if 65 ≤ b ∧ b ≤ 90 then b + 32 else b

section

variable {α : Type}

/-- The field of a member: the one of that name, or else one that differs in case. -/
def findField (fields : List (JsonField α)) (key : GoString) : Option (JsonField α) :=
  (fields.find? fun field => field.name = key).or
    (fields.find? fun field => foldCase field.name = foldCase key)

/-- Decode one member into a struct; the first error is kept beside it. -/
def decodeMember (fields : List (JsonField α)) (state : α × Option GoString)
    (member : GoString × Json) : α × Option GoString :=
  match findField fields member.1 with
  | none => state
  | some field =>
      match field.set member.2 state.1 with
      | .ok a => (a, state.2)
      -- the struct keeps what it had, and decoding goes on
      | .error err => (state.1, state.2.or (some err))

/-- `json.Unmarshal` of a parsed text into a struct of the given type, which holds `a` before. -/
def decodeStruct (type : String) (fields : List (JsonField α)) (a : α) : Json → Except GoString α
  | .null => .ok a
  | .object members =>
      match members.foldl (decodeMember fields) (a, none) with
      | (a, none) => .ok a
      | (_, some err) => .error err
  | v => .error (bytes "json: cannot unmarshal " ++ v.kind ++ bytes " into Go value of type " ++
      bytes type)

/-- An `UnmarshalTypeError` at a field. -/
def fieldError (struct field type : String) (v : Json) : GoString :=
  bytes "json: cannot unmarshal " ++ v.kind ++ bytes " into Go struct field " ++
    bytes struct ++ bytes "." ++ bytes field ++ bytes " of type " ++ bytes type

variable {fields : List (JsonField α)}

/-- An error that was seen stays. -/
theorem isSome_decodeMember {state : α × Option GoString} (h : state.2.isSome = true)
    (member : GoString × Json) : (decodeMember fields state member).2.isSome = true := by
  unfold decodeMember
  split
  · exact h
  · split
    · exact h
    · simp

theorem isSome_foldl_decodeMember (members : List (GoString × Json)) {state : α × Option GoString}
    (h : state.2.isSome = true) : (members.foldl (decodeMember fields) state).2.isSome = true := by
  induction members generalizing state with
  | nil => exact h
  | cons member members ih => exact ih (isSome_decodeMember h member)

/-- An object with a member that its field refuses is not decoded. -/
theorem decodeStruct_error {type : String} {a : α} {members : List (GoString × Json)}
    {key : GoString} {value : Json} (hmem : (key, value) ∈ members) {field : JsonField α}
    (hfield : findField fields key = some field)
    (hset : ∀ a, ∃ err, field.set value a = .error err) :
    ∃ err, decodeStruct type fields a (.object members) = .error err := by
  have hseen : (members.foldl (decodeMember fields) (a, none)).2.isSome = true := by
    -- whatever was decoded before the member, and whatever comes after it
    obtain ⟨before, after, rfl⟩ := List.append_of_mem hmem
    rw [List.foldl_append, List.foldl_cons]
    apply isSome_foldl_decodeMember
    obtain ⟨err, herr⟩ := hset (before.foldl (decodeMember fields) (a, none)).1
    simp only [decodeMember, hfield, herr]
    cases (before.foldl (decodeMember fields) (a, none)).2 <;> rfl
  obtain ⟨err, herr⟩ := Option.isSome_iff_exists.1 hseen
  refine ⟨err, ?_⟩
  rw [decodeStruct]
  split
  · next hfold => simp [hfold] at herr
  · next hfold =>
      rw [hfold] at herr
      rw [Option.some.inj herr]

end

/-- A member of a string field with `omitempty`. -/
def stringMember (name : String) (value : GoString) : List (GoString × Json) :=
  if value = [] then [] else [(bytes name, .str value)]

end EnergyChain.Go
