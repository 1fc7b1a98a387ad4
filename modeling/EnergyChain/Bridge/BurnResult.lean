import EnergyChain.Go.Hex
import EnergyChain.Reward.Wire
import EnergyChain.Sdk.MsgData

/-!
# What a burn returns to the bridge

The response of a burn goes to the bridge through three encodings: the message server's response is
marshalled (`WrapServiceResult`), its bytes become the entry of the message in `TxMsgData`
(`BaseApp.runMsgs`), and the node prints that data in upper-case hexadecimal (`newTxResponseDeliverTx`).
`BurnStableCoinCLI` undoes them in turn.

What it reports are the records and the metas that the keeper returned, in their order, whatever other
messages the transaction had (`decodeBurnResponse_txResponseData`). Data that it cannot decode counts as an
empty response, and no data makes it panic (`decodeBurnResponse_total`).
-/

set_option autoImplicit false

namespace EnergyChain.Bridge

open EnergyChain.Go
open EnergyChain.Proto
open EnergyChain.Sdk
open EnergyChain.Reward (BurnResponse)
open EnergyChain.Reward.Wire

/-! ## The node -/

/-- `sdk.MsgTypeURL` of a burn. -/
def burnTypeURL : GoString := bytes "/cosmos.reward.v1beta1.MsgBurnStableCoin"

/-- The entry of a burn in `txMsgData.Data`. -/
def burnMsgData (resp : BurnResponse) : Outcome MsgData := do
  let data ← burnResponse.marshal (.ofValue resp)
  pure ⟨burnTypeURL, data⟩

/-- `TxResponse.Data` of a transaction whose messages returned `results`. -/
def txResponseData (results : List MsgData) : Outcome GoString := do
  let data ← txMsgData.marshal ⟨results⟩
  pure (toUpper (hexEncode data))

/-! ## The bridge -/

/-- A call whose error is handled by the caller; a panic is not. -/
def attempt {α : Type} : Outcome α → Outcome (Option α)
  | .ok a => .ok (some a)
  | .error (.error _) => .ok none
  | .error (.panic text) => .error (.panic text)

/-- The second step of the decoding: the response of the first message. -/
def decodeMsgData (dataBytes : GoString) : Outcome MsgBurnStableCoinResponse := do
  match ← attempt (txMsgData.unmarshal dataBytes txMsgData.empty) with
  | some ⟨first :: _⟩ => do
      let result ← attempt (burnResponse.unmarshal first.data burnResponse.empty)
      pure (result.getD burnResponse.empty)
  | some ⟨[]⟩ => pure burnResponse.empty
  | none => pure burnResponse.empty

/-- What `BurnStableCoinCLI` makes of `res.Data`. A step that fails is printed and leaves the zero
response. -/
def decodeBurnResponse (data : GoString) : Outcome MsgBurnStableCoinResponse :=
  if data = [] then pure burnResponse.empty
  else
    match hexDecode data with
    | .error _ => pure burnResponse.empty
    | .ok dataBytes => decodeMsgData dataBytes

/-! ## From the keeper to the bridge -/

theorem burnMsgData_eq (resp : BurnResponse) :
    burnMsgData resp = .ok ⟨burnTypeURL, burnResponse.encode (.ofValue resp)⟩ := by
  rw [burnMsgData, burnResponse.marshal_eq, ok_bind]
  rfl

theorem txResponseData_eq (results : List MsgData) :
    txResponseData results = .ok (toUpper (hexEncode (txMsgData.encode ⟨results⟩))) := by
  rw [txResponseData, txMsgData.marshal_eq, ok_bind]
  rfl

/-- The data of an entry is shorter than the data of the transaction. -/
theorem length_data_le {m : MsgData} {results : List MsgData} (hm : m ∈ results) :
    m.data.length ≤ (txMsgData.encode ⟨results⟩).length := by
  have hentry : m.data.length ≤ (msgData.encode m).length := by
    by_cases hdata : m.data = []
    · simp [hdata]
    · simp only [Message.encode, msgData, Field.encode, Field.encodeValue, stringField, stringKind,
        lengthDelimited, hdata, List.flatMap_cons, List.flatMap_nil, List.length_append,
        List.length_cons, if_false]
      omega
  have hvalue : (msgData.encode m).length ≤
      (results.flatMap fun m => (0x0a : UInt8) :: lengthDelimited (msgData.encode m)).length := by
    obtain ⟨before, after, rfl⟩ := List.append_of_mem hm
    simp only [List.flatMap_append, List.flatMap_cons, List.length_append, List.length_cons,
      lengthDelimited]
    omega
  have hencode : txMsgData.encode ⟨results⟩ =
      results.flatMap fun m => (0x0a : UInt8) :: lengthDelimited (msgData.encode m) := by
    simp [Message.encode, txMsgData, Field.encode, messagesField, messageKind]
    rfl
  rw [hencode]
  exact hentry.trans hvalue

theorem decodeMsgData_encode {m : MsgData} {rest : List MsgData} {resp : MsgBurnStableCoinResponse}
    (hlen : (txMsgData.encode ⟨m :: rest⟩).length < maxLen) (hdata : m.data = burnResponse.encode resp)
    (hresp : burnResponse.Valid resp) : decodeMsgData (txMsgData.encode ⟨m :: rest⟩) = .ok resp := by
  have hle : m.data.length ≤ (txMsgData.encode ⟨m :: rest⟩).length :=
    length_data_le List.mem_cons_self
  have houter := Message.unmarshal_encode txMsgData_lawful (valid_txMsgData ⟨m :: rest⟩) hlen
  have hinner : burnResponse.unmarshal m.data burnResponse.empty = .ok resp := by
    rw [hdata] at hle ⊢
    exact Message.unmarshal_encode burnResponse_lawful hresp (by omega)
  rw [decodeMsgData, houter]
  show (attempt (burnResponse.unmarshal m.data burnResponse.empty) >>= fun result =>
    pure (result.getD burnResponse.empty)) = _
  rw [hinner]
  rfl

/-- The bridge reports the records and the metas of the response, in their order. The other messages of
the transaction do not matter. -/
theorem decodeBurnResponse_txResponseData (resp : BurnResponse) (rest : List MsgData)
    (hheights : ∀ rec ∈ resp.recRecords, int64Height rec) :
    ∃ m, burnMsgData resp = .ok m ∧ (txMsgData.size ⟨m :: rest⟩ < maxLen →
      ∃ data received, txResponseData (m :: rest) = .ok data ∧
        decodeBurnResponse data = .ok received ∧ received.value = resp) := by
  refine ⟨_, burnMsgData_eq resp, fun hsize => ?_⟩
  rw [txMsgData.size_eq_length] at hsize
  refine ⟨_, .ofValue resp, txResponseData_eq _, ?_, MsgBurnStableCoinResponse.value_ofValue hheights⟩
  have hdecode := decodeMsgData_encode hsize rfl (valid_ofValue_burnResponse resp)
  rw [decodeBurnResponse, hexDecode_toUpper]
  by_cases hnil : toUpper (hexEncode (txMsgData.encode
      ⟨⟨burnTypeURL, burnResponse.encode (.ofValue resp)⟩ :: rest⟩)) = []
  · -- there is an entry, so the data is not empty
    rw [toUpper_hexEncode_eq_nil] at hnil
    cases hnil
  · rw [if_neg hnil]
    exact hdecode

/-- A response with one record. -/
def recordR1 : BurnResponse := ⟨[⟨bytes "r1", bytes "t", 7, bytes "1000000", [⟨bytes "a", bytes "1"⟩], [[]]⟩], []⟩

theorem decodeBurnResponse_recordR1 :
    ∃ m data received, burnMsgData recordR1 = .ok m ∧ txResponseData [m] = .ok data ∧
      decodeBurnResponse data = .ok received ∧ received.value = recordR1 := by
  obtain ⟨m, hm, h⟩ := decodeBurnResponse_txResponseData recordR1 [] (by
    intro rec hrec
    rw [List.mem_singleton.1 hrec]
    exact isInt64_iff.2 (by decide))
  have hsize : txMsgData.size ⟨[m]⟩ < maxLen := by
    rw [burnMsgData_eq] at hm
    cases hm
    decide +kernel
  obtain ⟨data, received, hdata, hreceived, hvalue⟩ := h hsize
  exact ⟨m, data, received, hm, hdata, hreceived, hvalue⟩

/-! ## Data that is not a response -/

theorem exists_attempt {α : Type} {x : Outcome α} (h : NoPanic x) : ∃ o, attempt x = .ok o := by
  match x with
  | .ok a => exact ⟨some a, rfl⟩
  | .error (.error text) => exact ⟨none, rfl⟩
  | .error (.panic text) => exact absurd h (noPanic_throwPanic text)

theorem attempt_eq_some {α : Type} {x : Outcome α} {a : α} :
    attempt x = .ok (some a) ↔ x = .ok a := by
  match x with
  | .ok b => simp [attempt]
  | .error (.error text) => simp [attempt]
  | .error (.panic text) => simp [attempt]

theorem length_data_unmarshal {bz : GoString} {m : MsgData} (hbz : bz.length < maxLen)
    (h : msgData.unmarshal bz msgData.empty = .ok m) : m.data.length < maxLen := by
  refine msgData.unmarshal_invariant_fields (P := fun m => m.data.length < maxLen) hbz
    (fun _ _ hm => hm) (fun f hf m v d i j hd hread hm => ?_) h (show 0 < maxLen by decide)
  simp only [msgData, List.mem_cons, List.not_mem_nil, or_false] at hf
  rcases hf with rfl | rfl
  · exact hm
  · exact (length_readBytes_le hd hread).trans_lt hd

theorem length_data_unmarshal_txMsgData {bz : GoString} {t : TxMsgData} (hbz : bz.length < maxLen)
    (h : txMsgData.unmarshal bz txMsgData.empty = .ok t) :
    ∀ m ∈ t.data, m.data.length < maxLen := by
  refine txMsgData.unmarshal_invariant_fields (P := fun t => ∀ m ∈ t.data, m.data.length < maxLen) hbz
    (fun _ _ ht => ht) (fun f hf t v d i j hd hread ht => ?_) h (fun m hm => by cases hm)
  simp only [txMsgData, List.mem_cons, List.not_mem_nil, or_false] at hf
  subst hf
  obtain ⟨entry, hentry, hv⟩ := readMessage_eq_ok.1 hread
  have hlen := length_readBytes_le hd hentry
  exact forall_mem_append_singleton ht (length_data_unmarshal (hlen.trans_lt hd) hv)

theorem valid_decodeMsgData {bz : GoString} (hbz : bz.length < maxLen) :
    ∃ received, decodeMsgData bz = .ok received ∧ burnResponse.Valid received := by
  have hempty := Message.valid_empty burnResponse_lawful
  obtain ⟨t, ht⟩ := exists_attempt (txMsgData.noPanic_unmarshal hbz txMsgData.empty)
  rw [decodeMsgData, ht]
  match t with
  | none => exact ⟨_, rfl, hempty⟩
  | some ⟨[]⟩ => exact ⟨_, rfl, hempty⟩
  | some ⟨first :: rest⟩ =>
      have hdecoded := attempt_eq_some.1 ht
      have hlen := length_data_unmarshal_txMsgData hbz hdecoded first List.mem_cons_self
      obtain ⟨result, hresult⟩ := exists_attempt (burnResponse.noPanic_unmarshal hlen burnResponse.empty)
      refine ⟨result.getD burnResponse.empty, ?_, ?_⟩
      · show (attempt (burnResponse.unmarshal first.data burnResponse.empty) >>= fun result =>
          pure (result.getD burnResponse.empty)) = _
        rw [hresult]
        rfl
      · cases result with
        | none => exact hempty
        | some received =>
            exact Message.acceptsValid burnResponse_lawful _ _ hlen (attempt_eq_some.1 hresult)

/-- No data makes the bridge panic or fail, and what it takes from it can be stored or sent on: every
message that it holds survives a round trip. -/
theorem decodeBurnResponse_total {data : GoString} (hdata : data.length < maxLen) :
    ∃ received, decodeBurnResponse data = .ok received ∧ burnResponse.Valid received := by
  have hempty := Message.valid_empty burnResponse_lawful
  rw [decodeBurnResponse]
  split
  · exact ⟨_, rfl, hempty⟩
  · split
    · exact ⟨_, rfl, hempty⟩
    · rename_i bz hbz
      have := length_hexDecode hbz
      exact valid_decodeMsgData (by omega)

/-- Two characters that are no data: the zero response. -/
theorem decodeBurnResponse_total_zz :
    (bytes "ZZ").length < maxLen ∧ decodeBurnResponse (bytes "ZZ") = .ok burnResponse.empty ∧
      burnResponse.Valid burnResponse.empty := by
  have hlen : (bytes "ZZ").length < maxLen := by decide
  obtain ⟨received, hreceived, hvalid⟩ := decodeBurnResponse_total hlen
  have hzz : decodeBurnResponse (bytes "ZZ") = .ok burnResponse.empty := by rfl
  rw [hzz] at hreceived
  cases hreceived
  exact ⟨hlen, hzz, hvalid⟩

end EnergyChain.Bridge
