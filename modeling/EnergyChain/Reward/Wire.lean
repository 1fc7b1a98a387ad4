import EnergyChain.Proto.Message
import EnergyChain.Reward.Keeper

/-!
# The wire format of the stored values

The generated code of the messages that the reward module stores, and of the response of a burn. The types
here have the bytes of unknown fields, as the Go types do; the types of `Reward.Types` are what the keeper
reads and writes, without unknown fields (`RECRecord.ofValue`, `RECRecord.value`).

`Marshal` writes exactly `Size` bytes, and `Unmarshal` reads them back as the message, unknown fields
included. Whatever bytes are given to `Unmarshal`, it returns a message or an error, and what it accepts
is a message that survives being stored again.
-/

set_option autoImplicit false

namespace EnergyChain.Reward.Wire

open EnergyChain.Go
open EnergyChain.Proto
open EnergyChain.Proto.Message (copyFields_cons)

/-! ## Contributors -/

/-- `types.Contributor`, with `XXX_unrecognized`. -/
structure Contributor where
  address : GoString
  energyKwh : GoString
  unrecognized : GoString
  deriving DecidableEq, Repr

/-- The generated code of `Contributor`. -/
def contributor : Message Contributor where
  name := "Contributor"
  fields := [
    stringField 1 "Address" 0x0a (fun m => m.address) (fun m s => { m with address := s }),
    stringField 2 "EnergyKwh" 0x12 (fun m => m.energyKwh) (fun m s => { m with energyKwh := s })]
  empty := ⟨[], [], []⟩
  unrecognized m := m.unrecognized
  keep m u := { m with unrecognized := m.unrecognized ++ u }

theorem copyFields_contributor (m : Contributor) :
    Message.copyFields m contributor.fields contributor.empty = { m with unrecognized := [] } := by
  refine (copyFields_cons (copy_stringField rfl)).trans ?_
  exact copyFields_cons (copy_stringField rfl)

theorem parts_contributor (m : Contributor) : contributor.Parts m := by
  simp [Message.Parts, contributor, stringField, stringKind]

theorem contributor_lawful : contributor.Lawful where
  isTag := by simp [contributor, Field.IsTag, stringField, stringKind]
  nodup := by decide
  rebuild m := by
    rw [copyFields_contributor]
    rfl
  keep_nil m := by simp [contributor]
  keep_keep m x y := by simp [contributor]
  unrecognized_empty := rfl
  unrecognized_put := by simp [contributor, stringField]
  unrecognized_keep m u := .inl rfl
  parts_empty := parts_contributor _
  parts_put _ _ _ _ _ _ := parts_contributor _
  parts_keep _ _ _ := parts_contributor _

/-! ## Records -/

/-- `types.RECRecord`, with `XXX_unrecognized`. -/
structure RECRecord where
  recId : GoString
  issuedAt : GoString
  blockHeight : BitVec 64
  totalEnergy : GoString
  contributors : List Contributor
  sourceTx : List GoString
  unrecognized : GoString
  deriving DecidableEq, Repr

/-- The generated code of `RECRecord`. -/
def recRecord : Message RECRecord where
  name := "RECRecord"
  fields := [
    stringField 1 "RecId" 0x0a (fun m => m.recId) (fun m s => { m with recId := s }),
    stringField 2 "IssuedAt" 0x12 (fun m => m.issuedAt) (fun m s => { m with issuedAt := s }),
    int64Field 3 "BlockHeight" 0x18 (fun m => m.blockHeight)
      (fun m v => { m with blockHeight := v }),
    stringField 4 "TotalEnergy" 0x22 (fun m => m.totalEnergy)
      (fun m s => { m with totalEnergy := s }),
    messagesField contributor contributor_lawful 5 "Contributors" 0x2a (fun m => m.contributors)
      (fun m l => { m with contributors := l }),
    stringsField 6 "SourceTx" 0x32 (fun m => m.sourceTx) (fun m l => { m with sourceTx := l })]
  empty := ⟨[], [], 0, [], [], [], []⟩
  unrecognized m := m.unrecognized
  keep m u := { m with unrecognized := m.unrecognized ++ u }

theorem copyFields_recRecord (m : RECRecord) :
    Message.copyFields m recRecord.fields recRecord.empty = { m with unrecognized := [] } := by
  refine (copyFields_cons (copy_stringField rfl)).trans ?_
  refine (copyFields_cons (copy_stringField rfl)).trans ?_
  refine (copyFields_cons (copy_int64Field rfl)).trans ?_
  refine (copyFields_cons (copy_stringField rfl)).trans ?_
  refine (copyFields_cons (copy_messagesField (by intros; rfl) (by intros; rfl) rfl)).trans ?_
  exact copyFields_cons (copy_stringsField (by intros; rfl) (by intros; rfl) rfl)

/-- Only the contributors have parts of their own. -/
theorem parts_recRecord_iff {m : RECRecord} :
    recRecord.Parts m ↔ ∀ c ∈ m.contributors, contributor.Valid c := by
  simp [Message.Parts, recRecord, stringField, stringKind, int64Field, int64Kind, messagesField,
    messageKind, stringsField]

theorem forall_mem_append_singleton {α : Type} {P : α → Prop} {l : List α} {a : α}
    (hl : ∀ b ∈ l, P b) (ha : P a) : ∀ b ∈ l ++ [a], P b := by
  intro b hb
  rcases List.mem_append.1 hb with hb | hb
  · exact hl b hb
  · rw [List.mem_singleton.1 hb]
    exact ha

theorem recRecord_lawful : recRecord.Lawful where
  isTag := by
    simp [recRecord, Field.IsTag, stringField, stringKind, int64Field, int64Kind, messagesField,
      messageKind, stringsField]
  nodup := by decide
  rebuild m := by
    rw [copyFields_recRecord]
    rfl
  keep_nil m := by simp [recRecord]
  keep_keep m x y := by simp [recRecord]
  unrecognized_empty := rfl
  unrecognized_put := by simp [recRecord, stringField, int64Field, messagesField, stringsField]
  unrecognized_keep m u := .inl rfl
  parts_empty := parts_recRecord_iff.2 fun c hc => by cases hc
  parts_put f hf m v hm hv := by
    rw [parts_recRecord_iff] at hm ⊢
    simp only [recRecord, List.mem_cons, List.not_mem_nil, or_false] at hf
    rcases hf with rfl | rfl | rfl | rfl | rfl | rfl
    case inr.inr.inr.inr.inl => exact forall_mem_append_singleton hm hv
    all_goals exact hm
  parts_keep m u hm := by
    rw [parts_recRecord_iff] at hm ⊢
    exact hm

/-! ## Metas -/

/-- `types.RECMeta`, with `XXX_unrecognized`. -/
structure RECMeta where
  facilityId : GoString
  facilityName : GoString
  location : GoString
  technologyType : GoString
  capacityMw : GoString
  registrationDate : GoString
  certifiedId : GoString
  issueDate : GoString
  generationStartDate : GoString
  generationEndDate : GoString
  measuredVolumeMwh : GoString
  retiredDate : GoString
  retirementPurpose : GoString
  status : GoString
  timestamp : GoString
  unrecognized : GoString
  deriving DecidableEq, Repr

/-- The generated code of `RECMeta`. -/
def recMeta : Message RECMeta where
  name := "RECMeta"
  fields := [
    stringField 1 "FacilityId" 0x0a (fun m => m.facilityId) (fun m s => { m with facilityId := s }),
    stringField 2 "FacilityName" 0x12 (fun m => m.facilityName)
      (fun m s => { m with facilityName := s }),
    stringField 3 "Location" 0x1a (fun m => m.location) (fun m s => { m with location := s }),
    stringField 4 "TechnologyType" 0x22 (fun m => m.technologyType)
      (fun m s => { m with technologyType := s }),
    stringField 5 "CapacityMw" 0x2a (fun m => m.capacityMw) (fun m s => { m with capacityMw := s }),
    stringField 6 "RegistrationDate" 0x32 (fun m => m.registrationDate)
      (fun m s => { m with registrationDate := s }),
    stringField 7 "CertifiedId" 0x3a (fun m => m.certifiedId)
      (fun m s => { m with certifiedId := s }),
    stringField 8 "IssueDate" 0x42 (fun m => m.issueDate) (fun m s => { m with issueDate := s }),
    stringField 9 "GenerationStartDate" 0x4a (fun m => m.generationStartDate)
      (fun m s => { m with generationStartDate := s }),
    stringField 10 "GenerationEndDate" 0x52 (fun m => m.generationEndDate)
      (fun m s => { m with generationEndDate := s }),
    stringField 11 "MeasuredVolumeMwh" 0x5a (fun m => m.measuredVolumeMwh)
      (fun m s => { m with measuredVolumeMwh := s }),
    stringField 12 "RetiredDate" 0x62 (fun m => m.retiredDate)
      (fun m s => { m with retiredDate := s }),
    stringField 13 "RetirementPurpose" 0x6a (fun m => m.retirementPurpose)
      (fun m s => { m with retirementPurpose := s }),
    stringField 14 "Status" 0x72 (fun m => m.status) (fun m s => { m with status := s }),
    stringField 15 "Timestamp" 0x7a (fun m => m.timestamp) (fun m s => { m with timestamp := s })]
  empty := ⟨[], [], [], [], [], [], [], [], [], [], [], [], [], [], [], []⟩
  unrecognized m := m.unrecognized
  keep m u := { m with unrecognized := m.unrecognized ++ u }

theorem copyFields_recMeta (m : RECMeta) :
    Message.copyFields m recMeta.fields recMeta.empty = { m with unrecognized := [] } := by
  iterate 14 refine (copyFields_cons (copy_stringField rfl)).trans ?_
  exact copyFields_cons (copy_stringField rfl)

theorem parts_recMeta (m : RECMeta) : recMeta.Parts m := by
  simp [Message.Parts, recMeta, stringField, stringKind]

theorem recMeta_lawful : recMeta.Lawful where
  isTag := by simp [recMeta, Field.IsTag, stringField, stringKind]
  nodup := by decide
  rebuild m := by
    rw [copyFields_recMeta]
    rfl
  keep_nil m := by simp [recMeta]
  keep_keep m x y := by simp [recMeta]
  unrecognized_empty := rfl
  unrecognized_put := by simp [recMeta, stringField]
  unrecognized_keep m u := .inl rfl
  parts_empty := parts_recMeta _
  parts_put _ _ _ _ _ _ := parts_recMeta _
  parts_keep _ _ _ := parts_recMeta _

/-! ## The supply -/

/-- `types.Supply`, with `XXX_unrecognized`. -/
structure Supply where
  minted : GoString
  unrecognized : GoString
  deriving DecidableEq, Repr

/-- The generated code of `Supply`. -/
def supply : Message Supply where
  name := "Supply"
  fields := [stringField 1 "Minted" 0x0a (fun m => m.minted) (fun m s => { m with minted := s })]
  empty := ⟨[], []⟩
  unrecognized m := m.unrecognized
  keep m u := { m with unrecognized := m.unrecognized ++ u }

theorem copyFields_supply (m : Supply) :
    Message.copyFields m supply.fields supply.empty = { m with unrecognized := [] } :=
  copyFields_cons (copy_stringField rfl)

theorem parts_supply (m : Supply) : supply.Parts m := by
  simp [Message.Parts, supply, stringField, stringKind]

theorem supply_lawful : supply.Lawful where
  isTag := by simp [supply, Field.IsTag, stringField, stringKind]
  nodup := by decide
  rebuild m := by
    rw [copyFields_supply]
    rfl
  keep_nil m := by simp [supply]
  keep_keep m x y := by simp [supply]
  unrecognized_empty := rfl
  unrecognized_put := by simp [supply, stringField]
  unrecognized_keep m u := .inl rfl
  parts_empty := parts_supply _
  parts_put _ _ _ _ _ _ := parts_supply _
  parts_keep _ _ _ := parts_supply _

/-! ## The response of a burn -/

/-- `types.MsgBurnStableCoinResponse`, with `XXX_unrecognized`. -/
structure MsgBurnStableCoinResponse where
  recRecords : List RECRecord
  recMetas : List RECMeta
  unrecognized : GoString
  deriving DecidableEq, Repr

/-- The generated code of `MsgBurnStableCoinResponse`. -/
def burnResponse : Message MsgBurnStableCoinResponse where
  name := "MsgBurnStableCoinResponse"
  fields := [
    messagesField recRecord recRecord_lawful 1 "RecRecords" 0x0a (fun m => m.recRecords)
      (fun m l => { m with recRecords := l }),
    messagesField recMeta recMeta_lawful 2 "RecMetas" 0x12 (fun m => m.recMetas)
      (fun m l => { m with recMetas := l })]
  empty := ⟨[], [], []⟩
  unrecognized m := m.unrecognized
  keep m u := { m with unrecognized := m.unrecognized ++ u }

theorem copyFields_burnResponse (m : MsgBurnStableCoinResponse) :
    Message.copyFields m burnResponse.fields burnResponse.empty = { m with unrecognized := [] } := by
  refine (copyFields_cons (copy_messagesField (by intros; rfl) (by intros; rfl) rfl)).trans ?_
  exact copyFields_cons (copy_messagesField (by intros; rfl) (by intros; rfl) rfl)

theorem parts_burnResponse_iff {m : MsgBurnStableCoinResponse} :
    burnResponse.Parts m ↔
      (∀ r ∈ m.recRecords, recRecord.Valid r) ∧ ∀ r ∈ m.recMetas, recMeta.Valid r := by
  simp [Message.Parts, burnResponse, messagesField, messageKind]

theorem burnResponse_lawful : burnResponse.Lawful where
  isTag := by simp [burnResponse, Field.IsTag, messagesField, messageKind]
  nodup := by decide
  rebuild m := by
    rw [copyFields_burnResponse]
    rfl
  keep_nil m := by simp [burnResponse]
  keep_keep m x y := by simp [burnResponse]
  unrecognized_empty := rfl
  unrecognized_put := by simp [burnResponse, messagesField]
  unrecognized_keep m u := .inl rfl
  parts_empty := parts_burnResponse_iff.2 ⟨fun r hr => (by cases hr), fun r hr => (by cases hr)⟩
  parts_put f hf m v hm hv := by
    rw [parts_burnResponse_iff] at hm ⊢
    simp only [burnResponse, List.mem_cons, List.not_mem_nil, or_false] at hf
    rcases hf with rfl | rfl
    · exact ⟨forall_mem_append_singleton hm.1 hv, hm.2⟩
    · exact ⟨hm.1, forall_mem_append_singleton hm.2 hv⟩
  parts_keep m u hm := by
    rw [parts_burnResponse_iff] at hm ⊢
    exact hm

/-! ## The values of the keeper -/

/-- A contributor as the keeper builds it. -/
def Contributor.ofValue (c : Reward.Contributor) : Contributor := ⟨c.address, c.energyKwh, []⟩

/-- What the keeper reads of a contributor. -/
def Contributor.value (c : Contributor) : Reward.Contributor := ⟨c.address, c.energyKwh⟩

/-- A record as the keeper builds it. -/
def RECRecord.ofValue (r : Reward.RECRecord) : RECRecord :=
  ⟨r.recId, r.issuedAt, BitVec.ofInt 64 r.blockHeight, r.totalEnergy,
    r.contributors.map Contributor.ofValue, r.sourceTx, []⟩

/-- What the keeper reads of a record. -/
def RECRecord.value (r : RECRecord) : Reward.RECRecord :=
  ⟨r.recId, r.issuedAt, r.blockHeight.toInt, r.totalEnergy, r.contributors.map Contributor.value,
    r.sourceTx⟩

/-- A meta as the keeper builds it. -/
def RECMeta.ofValue (m : Reward.RECMeta) : RECMeta :=
  ⟨m.facilityId, m.facilityName, m.location, m.technologyType, m.capacityMw, m.registrationDate,
    m.certifiedId, m.issueDate, m.generationStartDate, m.generationEndDate, m.measuredVolumeMwh,
    m.retiredDate, m.retirementPurpose, m.status, m.timestamp, []⟩

/-- What the keeper reads of a meta. -/
def RECMeta.value (m : RECMeta) : Reward.RECMeta :=
  ⟨m.facilityId, m.facilityName, m.location, m.technologyType, m.capacityMw, m.registrationDate,
    m.certifiedId, m.issueDate, m.generationStartDate, m.generationEndDate, m.measuredVolumeMwh,
    m.retiredDate, m.retirementPurpose, m.status, m.timestamp⟩

/-- The supply as the keeper builds it. -/
def Supply.ofValue (s : Reward.Supply) : Supply := ⟨s.minted, []⟩

/-- What the keeper reads of the supply. -/
def Supply.value (s : Supply) : Reward.Supply := ⟨s.minted⟩

/-- The response as the keeper builds it. -/
def MsgBurnStableCoinResponse.ofValue (r : BurnResponse) : MsgBurnStableCoinResponse :=
  ⟨r.recRecords.map RECRecord.ofValue, r.recMetas.map RECMeta.ofValue, []⟩

/-- What is read of a response. -/
def MsgBurnStableCoinResponse.value (r : MsgBurnStableCoinResponse) : BurnResponse :=
  ⟨r.recRecords.map RECRecord.value, r.recMetas.map RECMeta.value⟩

/-- The height of a record is an `int64`. -/
def int64Height (r : Reward.RECRecord) : Prop := isInt64 r.blockHeight = true

theorem RECRecord.value_ofValue {r : Reward.RECRecord} (h : int64Height r) :
    (RECRecord.ofValue r).value = r := by
  have hheight : (BitVec.ofInt 64 r.blockHeight).toInt = r.blockHeight := by
    rw [BitVec.toInt_ofInt]
    exact wrap64_of_isInt64 h
  have hcontributors : (r.contributors.map Contributor.ofValue).map Contributor.value =
      r.contributors := by
    rw [List.map_map]
    exact List.map_id _
  simp only [RECRecord.ofValue, RECRecord.value, hheight, hcontributors]

theorem MsgBurnStableCoinResponse.value_ofValue {r : BurnResponse}
    (h : ∀ rec ∈ r.recRecords, int64Height rec) :
    (MsgBurnStableCoinResponse.ofValue r).value = r := by
  have hrecords : (r.recRecords.map RECRecord.ofValue).map RECRecord.value = r.recRecords := by
    rw [List.map_map]
    exact (List.map_congr_left fun rec hrec => RECRecord.value_ofValue (h rec hrec)).trans
      (List.map_id _)
  have hmetas : (r.recMetas.map RECMeta.ofValue).map RECMeta.value = r.recMetas := by
    rw [List.map_map]
    exact List.map_id _
  simp only [MsgBurnStableCoinResponse.ofValue, MsgBurnStableCoinResponse.value, hrecords, hmetas]

/-! ### They are valid -/

theorem valid_ofValue_contributor (c : Reward.Contributor) :
    contributor.Valid (Contributor.ofValue c) :=
  ⟨Message.unknown_nil contributor_lawful, parts_contributor _⟩

theorem valid_ofValue_recRecord (r : Reward.RECRecord) : recRecord.Valid (RECRecord.ofValue r) := by
  refine ⟨Message.unknown_nil recRecord_lawful, parts_recRecord_iff.2 ?_⟩
  intro c hc
  obtain ⟨c, -, rfl⟩ := List.mem_map.1 hc
  exact valid_ofValue_contributor c

theorem valid_ofValue_recMeta (m : Reward.RECMeta) : recMeta.Valid (RECMeta.ofValue m) :=
  ⟨Message.unknown_nil recMeta_lawful, parts_recMeta _⟩

theorem valid_ofValue_supply (s : Reward.Supply) : supply.Valid (Supply.ofValue s) :=
  ⟨Message.unknown_nil supply_lawful, parts_supply _⟩

theorem valid_ofValue_burnResponse (r : BurnResponse) :
    burnResponse.Valid (MsgBurnStableCoinResponse.ofValue r) := by
  refine ⟨Message.unknown_nil burnResponse_lawful, parts_burnResponse_iff.2 ⟨?_, ?_⟩⟩
  · intro rec hrec
    obtain ⟨rec, -, rfl⟩ := List.mem_map.1 hrec
    exact valid_ofValue_recRecord rec
  · intro rec hrec
    obtain ⟨rec, -, rfl⟩ := List.mem_map.1 hrec
    exact valid_ofValue_recMeta rec

/-! ## The generated code -/

/-- Each message type of the store, and the response of a burn, is written into exactly `Size` bytes and
read back as it was, with its unknown fields and those of nested messages. -/
theorem stored_roundTrips :
    supply.RoundTrips ∧ recRecord.RoundTrips ∧ recMeta.RoundTrips ∧ burnResponse.RoundTrips :=
  ⟨Message.roundTrips supply_lawful, Message.roundTrips recRecord_lawful,
    Message.roundTrips recMeta_lawful, Message.roundTrips burnResponse_lawful⟩

/-- A response with a record of one contributor, and with metadata. -/
def oneOfEach : BurnResponse where
  recRecords :=
    [⟨bytes "rec-7-0", bytes "t", 7, bytes "1000000", [⟨bytes "/alice", bytes "5.000000"⟩], [bytes "h"]⟩]
  recMetas := [⟨bytes "f1", bytes "roof", bytes "KR", bytes "solar", bytes "0.1", [], bytes "c1", [], [], [],
    bytes "5", [], [], [], []⟩]

theorem stored_roundTrips_oneOfEach :
    ∃ bz, burnResponse.marshal (.ofValue oneOfEach) = .ok bz ∧
      bz.length = burnResponse.size (.ofValue oneOfEach) ∧
      burnResponse.unmarshal bz burnResponse.empty = .ok (.ofValue oneOfEach) := by
  obtain ⟨-, -, -, hresponse⟩ := stored_roundTrips
  exact hresponse _ (valid_ofValue_burnResponse oneOfEach) (by decide +kernel)

/-- No bytes make `Unmarshal` of such a message panic, and what it accepts survives being stored again. -/
theorem stored_robust :
    supply.Robust ∧ recRecord.Robust ∧ recMeta.Robust ∧ burnResponse.Robust :=
  ⟨Message.robust supply_lawful, Message.robust recRecord_lawful, Message.robust recMeta_lawful,
    Message.robust burnResponse_lawful⟩

/-- The total `5` with a second field that the type does not know; and a length that runs past the end. -/
theorem stored_robust_unknownField :
    (∃ bz, supply.marshal ⟨bytes "5", [16, 7]⟩ = .ok bz ∧
      supply.unmarshal bz supply.empty = .ok ⟨bytes "5", [16, 7]⟩) ∧
    NoPanic (supply.unmarshal [10, 5] supply.empty) := by
  obtain ⟨hsupply, -, -, -⟩ := stored_robust
  have hread : supply.unmarshal [10, 1, 53, 16, 7] supply.empty = .ok ⟨bytes "5", [16, 7]⟩ := by
    decide +kernel
  exact ⟨(hsupply [10, 1, 53, 16, 7] (by decide)).2 _ hread (by decide +kernel),
    (hsupply [10, 5] (by decide)).1⟩

/-- What the keeper stores, it reads back: the protobuf laws of `Codec` for the generated code. -/
theorem keeper_codec_laws :
    (∀ s : Reward.Supply, supply.size (.ofValue s) < maxLen →
      ∃ bz m, supply.marshal (.ofValue s) = .ok bz ∧ supply.unmarshal bz supply.empty = .ok m ∧
        m.value = s) ∧
    (∀ r : Reward.RECRecord, int64Height r → recRecord.size (.ofValue r) < maxLen →
      ∃ bz m, recRecord.marshal (.ofValue r) = .ok bz ∧
        recRecord.unmarshal bz recRecord.empty = .ok m ∧ m.value = r) ∧
    (∀ d : Reward.RECMeta, recMeta.size (.ofValue d) < maxLen →
      ∃ bz m, recMeta.marshal (.ofValue d) = .ok bz ∧ recMeta.unmarshal bz recMeta.empty = .ok m ∧
        m.value = d) := by
  refine ⟨fun s hsize => ?_, fun r hheight hsize => ?_, fun d hsize => ?_⟩
  · obtain ⟨bz, hmarshal, -, hunmarshal⟩ :=
      Message.roundTrips supply_lawful _ (valid_ofValue_supply s) hsize
    exact ⟨bz, _, hmarshal, hunmarshal, rfl⟩
  · obtain ⟨bz, hmarshal, -, hunmarshal⟩ :=
      Message.roundTrips recRecord_lawful _ (valid_ofValue_recRecord r) hsize
    exact ⟨bz, _, hmarshal, hunmarshal, RECRecord.value_ofValue hheight⟩
  · obtain ⟨bz, hmarshal, -, hunmarshal⟩ :=
      Message.roundTrips recMeta_lawful _ (valid_ofValue_recMeta d) hsize
    exact ⟨bz, _, hmarshal, hunmarshal, rfl⟩

/-- A total and a record as the keeper stores them. -/
theorem keeper_codec_laws_smallRecord :
    (∃ bz m, supply.marshal (.ofValue ⟨bytes "700000"⟩) = .ok bz ∧
      supply.unmarshal bz supply.empty = .ok m ∧ m.value = ⟨bytes "700000"⟩) ∧
    ∃ bz m, recRecord.marshal (.ofValue ⟨bytes "r1", [], -1, bytes "1000000", [], []⟩) = .ok bz ∧
      recRecord.unmarshal bz recRecord.empty = .ok m ∧
      m.value = ⟨bytes "r1", [], -1, bytes "1000000", [], []⟩ := by
  obtain ⟨hsupply, hrecord, -⟩ := keeper_codec_laws
  exact ⟨hsupply _ (by decide +kernel), hrecord _ (isInt64_iff.2 (by decide)) (by decide +kernel)⟩

end EnergyChain.Reward.Wire
