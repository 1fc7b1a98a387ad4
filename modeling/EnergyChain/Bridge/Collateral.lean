import EnergyChain.Go.Json
import EnergyChain.Reward.Cli
import EnergyChain.Reward.MsgServer

/-!
# Collateral requests over Kafka

A deposit that a collateral request carries goes through three encodings: the request is the JSON form
of a `MsgDepositCollateral`, the bridge writes the message it decoded into the argument list of `simd`,
and the deposit command reads its arguments. The first and the last of them do not fit.

The Go type of a deposit has an interface field for its record or metadata. `encoding/json` writes it
and cannot read it back, so a request with a payload is refused by the decoder. And the bridge passes
the JSON text as a positional argument, while the command takes its input from two flags, so every
call ends in an error. Nothing that is sent to the topic reaches the chain (`collateral_not_relayed`,
`consumeCollateral_eq_nil`).
-/

set_option autoImplicit false

namespace EnergyChain.Bridge

open EnergyChain.Go
open EnergyChain.Sdk
open EnergyChain.Reward (MsgDepositCollateral RECRecord RecType Contributor DepositLib CommandError
  simd depositCommand depositFlags)

/-! ## The JSON form of a deposit -/

/-- A member of a list field with `omitempty`. -/
def listMember (name : String) (items : List Json) : List (GoString × Json) :=
  if items.isEmpty then [] else [(bytes name, .array items)]

def contributorForm (c : Contributor) : Json :=
  .object (stringMember "address" c.address ++ stringMember "energy_kwh" c.energyKwh)

def recordForm (rec : RECRecord) : Json :=
  .object (stringMember "rec_id" rec.recId ++ stringMember "issued_at" rec.issuedAt ++
    (if rec.blockHeight = 0 then [] else [(bytes "block_height", .number (formatInt rec.blockHeight))])
    ++ stringMember "total_energy" rec.totalEnergy ++
    listMember "contributors" (rec.contributors.map contributorForm) ++
    listMember "source_tx" (rec.sourceTx.map .str))

def metaForm (data : Reward.RECMeta) : Json :=
  .object (stringMember "facility_id" data.facilityId ++
    stringMember "facility_name" data.facilityName ++ stringMember "location" data.location ++
    stringMember "technology_type" data.technologyType ++
    stringMember "capacity_mw" data.capacityMw ++
    stringMember "registration_date" data.registrationDate ++
    stringMember "certified_id" data.certifiedId ++ stringMember "issue_date" data.issueDate ++
    stringMember "generation_start_date" data.generationStartDate ++
    stringMember "generation_end_date" data.generationEndDate ++
    stringMember "measured_volume_mwh" data.measuredVolumeMwh ++
    stringMember "retired_date" data.retiredDate ++
    stringMember "retirement_purpose" data.retirementPurpose ++ stringMember "status" data.status ++
    stringMember "timestamp" data.timestamp)

/-- The value of the interface field: an object of the wrapper type that it holds. -/
def recTypeForm : Option RecType → Json
  | none => .null
  | some (.recRecord rec) => .object [(bytes "rec_record", recordForm rec)]
  | some (.recMeta data) => .object [(bytes "rec_meta", metaForm data)]

/-- What `json.Marshal` writes for a deposit. The interface field has no JSON name of its own and is
never omitted. -/
def depositForm (msg : MsgDepositCollateral) : Json :=
  .object (stringMember "creator" msg.creator ++ [(bytes "RecType", recTypeForm msg.recType)])

/-- The field `Creator`. -/
def creatorField : JsonField MsgDepositCollateral where
  name := bytes "creator"
  set
    | .str s, msg => .ok { msg with creator := s }
    | .null, msg => .ok msg
    | v, _ => .error (fieldError "MsgDepositCollateral" "creator" "string" v)

/-- The field `RecType`, an interface with methods: the decoder has no type to decode into. -/
def recTypeField : JsonField MsgDepositCollateral where
  name := bytes "RecType"
  set
    | .null, msg => .ok { msg with recType := none }
    | v, _ => .error (fieldError "MsgDepositCollateral" "RecType"
        "types.isMsgDepositCollateral_RecType" v)

/-! ## The bridge -/

/-- The arguments behind the text of the deposit. -/
def broadcastFlags : List GoString :=
  [bytes "--from", bytes "alice", bytes "--home", bytes "private/.simapp", bytes "--chain-id",
    bytes "learning-chain-1", bytes "--keyring-backend", bytes "test", bytes "--broadcast-mode",
    bytes "block", bytes "--node", bytes "http://localhost:26657", bytes "--yes", bytes "--output",
    bytes "json"]

section

variable {T : Type} (json : JsonText T) (lib : DepositLib) (bech32 : Bech32)
  (fromAddress : Except GoString AccAddress)

/-- `json.Unmarshal` of a request into an empty `MsgDepositCollateral`. -/
def unmarshalDeposit (value : T) : Except GoString MsgDepositCollateral :=
  match json.parse value with
  | .error err => .error err
  | .ok v => decodeStruct "types.MsgDepositCollateral" [creatorField, recTypeField] ⟨[], none⟩ v

/-- The argument list of `BroadcastDepositCollateral`. -/
def depositArgs (msg : MsgDepositCollateral) : List GoString :=
  depositCommand ++ json.toString (json.marshal (depositForm msg)) :: broadcastFlags

/-- The deposit that the chain gets for the value of a request. -/
def relayDeposit (value : T) : Option MsgDepositCollateral := do
  let collateralMsg ← (unmarshalDeposit json value).toOption
  (simd lib bech32 fromAddress (depositArgs json collateralMsg)).toOption

/-- `collateralHandler.ConsumeClaim`: the results that are sent for a sequence of requests, where
`submit` is the rest of a call of `simd` up to the hash of its response. A request whose decoding or
broadcast fails is skipped, and its offset is not marked. -/
def consumeCollateral (submit : MsgDepositCollateral → Except GoString GoString) (values : List T) :
    List GoString :=
  values.filterMap fun value => do (submit (← relayDeposit json lib bech32 fromAddress value)).toOption

/-- The chain gets a deposit with the record or the metadata of the message. -/
def ReachesUnchanged (msg : MsgDepositCollateral) : Prop :=
  ∃ deposit, relayDeposit json lib bech32 fromAddress (json.marshal (depositForm msg)) =
    some deposit ∧ deposit.recType = msg.recType

variable {json lib bech32 fromAddress}

/-- The JSON form of a deposit with a payload is not decoded. -/
theorem unmarshalDeposit_error {msg : MsgDepositCollateral} (h : msg.recType.isSome = true) :
    ∃ err, unmarshalDeposit json (json.marshal (depositForm msg)) = .error err := by
  have hname : jsonText (bytes "RecType") = bytes "RecType" := by decide +kernel
  have hfield : findField [creatorField, recTypeField] (jsonText (bytes "RecType")) =
      some recTypeField := by
    rw [hname]
    rfl
  -- the payload is an object, before and after it was written
  have hobject : ∃ members, (recTypeForm msg.recType).throughText = .object members := by
    obtain ⟨recType, hrecType⟩ := Option.isSome_iff_exists.1 h
    rw [hrecType]
    cases recType with
    | recRecord rec => exact ⟨_, rfl⟩
    | recMeta data => exact ⟨_, rfl⟩
  have hmem : (bytes "RecType", recTypeForm msg.recType) ∈
      stringMember "creator" msg.creator ++ [(bytes "RecType", recTypeForm msg.recType)] := by
    simp
  rw [unmarshalDeposit, json.parse_marshal]
  apply decodeStruct_error (Json.mem_membersThroughText hmem) hfield
  intro a
  obtain ⟨members, hmembers⟩ := hobject
  rw [hmembers]
  exact ⟨_, rfl⟩

/-- What the flags of the broadcast set. -/
def broadcastValues : List (GoString × GoString) :=
  [(bytes "from", bytes "alice"), (bytes "home", bytes "private/.simapp"),
    (bytes "chain-id", bytes "learning-chain-1"), (bytes "keyring-backend", bytes "test"),
    (bytes "broadcast-mode", bytes "block"), (bytes "node", bytes "http://localhost:26657"),
    (bytes "yes", bytes "true"), (bytes "output", bytes "json")]

theorem parseArgs_broadcastFlags :
    parseArgs depositFlags none broadcastFlags = .ok ⟨broadcastValues, []⟩ := by
  decide +kernel

/-- Every call of the bridge ends in an error: the text is not behind a flag. -/
theorem simd_depositArgs (msg : MsgDepositCollateral) :
    ∃ err, simd lib bech32 fromAddress (depositArgs json msg) = .error err := by
  -- an object starts with a brace and not with a dash, so the parser takes it as an argument
  have hhead : (json.toString (json.marshal (depositForm msg))).head? ≠ some 45 := by
    rw [depositForm, json.head_object]
    decide
  have hargs : parseArgs depositFlags none
      (json.toString (json.marshal (depositForm msg)) :: broadcastFlags) = _ :=
    parseArgs_positional hhead broadcastFlags
  rw [parseArgs_broadcastFlags] at hargs
  exact Reward.cmdDepositCollateral_of_unset hargs rfl rfl

/-- The same flags with the metadata behind `--rec-meta` deposit it. -/
theorem simd_recMeta {addr : AccAddress} {creator : AccAddress} {input : GoString}
    {data : Reward.RECMeta}
    (hcreator : accAddressFromBech32 bech32 (bech32.addrString addr) = .ok creator)
    (hbrace : (trimSpace input).head? = some 123) (hdecode : lib.unmarshalMeta input = .ok data) :
    simd lib bech32 (.ok addr) (depositCommand ++ bytes "--rec-meta" :: input :: broadcastFlags) =
      .ok ⟨bech32.addrString addr, some (.recMeta data)⟩ := by
  have hparse : parseArgs depositFlags none (bytes "--rec-meta" :: input :: broadcastFlags) =
      .ok ⟨(bytes "rec-meta", input) :: broadcastValues, []⟩ := by
    have hflag : parseLongArg depositFlags (bytes "rec-meta") =
        .ok ([], some ⟨bytes "rec-meta", none, .text⟩) := by decide +kernel
    have hdashes : bytes "--rec-meta" = 45 :: 45 :: bytes "rec-meta" := by decide +kernel
    rw [hdashes, parseArgs_text (by decide) hflag rfl, parseArgs_broadcastFlags]
    rfl
  have hrun : Reward.runDepositCollateral lib bech32 (.ok addr)
      ⟨(bytes "rec-meta", input) :: broadcastValues, []⟩ =
        .ok ⟨bech32.addrString addr, some (.recMeta data)⟩ :=
    Reward.runDepositCollateral_recMeta rfl ⟨creator, hcreator⟩ rfl rfl hbrace hdecode
  exact Reward.cmdDepositCollateral_of_run hparse rfl hrun

/-- No value of a request leads to a deposit. -/
theorem relayDeposit_eq_none (value : T) : relayDeposit json lib bech32 fromAddress value = none := by
  -- a request that is decoded fails one step later
  cases h : unmarshalDeposit json value with
  | error err =>
      rw [relayDeposit, h]
      rfl
  | ok msg =>
      obtain ⟨err, herr⟩ : ∃ err, simd lib bech32 fromAddress (depositArgs json msg) = .error err :=
        simd_depositArgs msg
      rw [relayDeposit, h]
      change (simd lib bech32 fromAddress (depositArgs json msg)).toOption = none
      rw [herr]
      rfl

/-- No request is answered, whatever the topic holds. -/
theorem consumeCollateral_eq_nil (submit : MsgDepositCollateral → Except GoString GoString)
    (values : List T) : consumeCollateral json lib bech32 fromAddress submit values = [] := by
  rw [consumeCollateral, List.filterMap_eq_nil_iff]
  intro value _
  rw [relayDeposit_eq_none]
  rfl

end

/-- No deposit with a record or metadata reaches the chain over Kafka: its request is not decoded, and
the call of `simd` fails for whatever message the handler holds. -/
theorem collateral_not_relayed {T : Type} (json : JsonText T) (lib : DepositLib) (bech32 : Bech32)
    (fromAddress : Except GoString AccAddress) (msg : MsgDepositCollateral)
    (h : msg.recType.isSome = true) :
    (∃ err, unmarshalDeposit json (json.marshal (depositForm msg)) = .error err) ∧
    (∀ decoded, ∃ err, simd lib bech32 fromAddress (depositArgs json decoded) = .error err) ∧
    ¬ ReachesUnchanged json lib bech32 fromAddress msg := by
  refine ⟨unmarshalDeposit_error h, simd_depositArgs, ?_⟩
  rintro ⟨deposit, hrelay, -⟩
  rw [relayDeposit_eq_none] at hrelay
  cases hrelay

/-! ## A request with metadata -/

/-- Texts that are the values themselves. -/
def jsonValues : JsonText Json where
  marshal v := v.throughText
  parse v := .ok v
  toString
    | .object _ => [123]
    | _ => []
  parse_marshal _ := rfl
  head_object _ := rfl

/-- A command line without files, on which every JSON text is empty metadata. -/
def emptyLib : DepositLib where
  readFile _ := .error (bytes "no such file or directory")
  unmarshalRecord _ := .ok ⟨[], [], 0, [], [], []⟩
  unmarshalMeta _ := .ok ⟨[], [], [], [], [], [], [], [], [], [], [], [], [], [], []⟩

/-- A deposit of the metadata of the certificate `c1`. -/
def c1Deposit : MsgDepositCollateral :=
  ⟨bytes "alice", some (.recMeta
    ⟨[], [], [], [], [], [], bytes "c1", [], [], [], bytes "5", [], [], [], []⟩)⟩

theorem collateral_not_relayed_c1 :
    c1Deposit.recType.isSome = true ∧
    ¬ ReachesUnchanged jsonValues emptyLib Reward.smallBech32 (.ok Reward.aliceAddr) c1Deposit :=
  ⟨rfl, (collateral_not_relayed jsonValues emptyLib Reward.smallBech32 (.ok Reward.aliceAddr) c1Deposit
    rfl).2.2⟩

/-- The decoder refuses the request, and the command refuses the arguments. -/
theorem c1Deposit_refused :
    unmarshalDeposit jsonValues (jsonValues.marshal (depositForm c1Deposit)) =
      .error (bytes ("json: cannot unmarshal object into Go struct field " ++
        "MsgDepositCollateral.RecType of type types.isMsgDepositCollateral_RecType")) ∧
    simd emptyLib Reward.smallBech32 (.ok Reward.aliceAddr) (depositArgs jsonValues c1Deposit) =
      .error (.run (.error (bytes "either --rec-record or --rec-meta must be provided"))) ∧
    relayDeposit jsonValues emptyLib Reward.smallBech32 (.ok Reward.aliceAddr)
      (jsonValues.marshal (depositForm c1Deposit)) = none := by
  decide +kernel

end EnergyChain.Bridge
