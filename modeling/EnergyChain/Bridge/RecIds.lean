import EnergyChain.Bridge.Sequence
import EnergyChain.Reward.Issuance

/-!
# The record ids that the bridge learns

A transaction that issues records answers with the list of their ids. `CreateRECRecordCLI` does not
decode the answer: it looks for `rec_id` attributes in the log of the transaction. The log holds, for
each message, its events grouped by type (`flatten`), as JSON; the message server emits one
`create_rec_record` event, with the first id only. So the bridge learns the ids of the records exactly
if one was issued (`recIds_learned_iff`).
-/

set_option autoImplicit false

namespace EnergyChain.Bridge

open EnergyChain.Go
open EnergyChain.Bank
open EnergyChain.Reward (Keeper Result MsgCreateRECRecord recID smallKeeper smallCtx emptyBank alice)

/-! ## The log of a transaction -/

/-- `StringEvents.Flatten`: the attributes grouped by the type of their events, in the order of the
types. -/
def flatten (events : List Reward.Event) : List Reward.Event :=
  let flatEvents : SortedMap GoString (List (GoString × GoString)) :=
    events.foldl (fun flat e => flat.set e.kind ((flat.get e.kind).getD [] ++ e.attributes)) .empty
  flatEvents.entries.map fun entry => ⟨entry.1, entry.2⟩

/-- The log that `runMsgs` writes for a message: its events behind one with the message's type. -/
def messageLog (msgTypeURL : GoString) (events : List Reward.Event) : List Reward.Event :=
  flatten (⟨bytes "message", [(bytes "action", msgTypeURL)]⟩ :: events)

/-- An event after its JSON was read. -/
def eventThroughJson (e : Reward.Event) : Reward.Event :=
  ⟨jsonText e.kind, e.attributes.map fun attr => (jsonText attr.1, jsonText attr.2)⟩

/-- A raw log: the logs of the messages as JSON, or a text that is not of that form. -/
abbrev RawLog := Option (List (List Reward.Event))

/-- The raw log of a transaction with one message that succeeded. -/
def rawLog (msgTypeURL : GoString) (events : List Reward.Event) : RawLog :=
  some [(messageLog msgTypeURL events).map eventThroughJson]

/-- `sdk.MsgTypeURL` of the message. -/
def createRECRecordURL : GoString := bytes "/cosmos.reward.v1beta1.MsgCreateRECRecord"

/-! ## The extraction -/

/-- The values of the `rec_id` attributes of the events whose type is one of `kinds`. -/
def recIDValues (kinds : List GoString) (events : List Reward.Event) : List GoString :=
  (events.filter fun e => e.kind ∈ kinds).flatMap fun e =>
    (e.attributes.filter fun attr => attr.1 = bytes "rec_id").map Prod.snd

/-- The fallback of `CreateRECRecordCLI`, which reads the JSON as nested maps. An empty value is left
out of the JSON, and its type assertion panics. -/
def rawLogRecIDs (logs : List (List Reward.Event)) : Outcome (List GoString) := do
  let recIDs := logs.flatMap (recIDValues [bytes "message"])
  require (∀ recID ∈ recIDs, recID ≠ [])
    (.panic (bytes "interface conversion: interface \x7b\x7d is nil, not string"))
  return recIDs

/-- What `CreateRECRecordCLI` makes of the log of a response. -/
def extractRecIDs (raw : RawLog) : Outcome (List GoString) :=
  -- `ParseABCILogs` has read the same text; its errors leave no logs
  let logs := raw.getD []
  let recIDs := (logs.head?.map (recIDValues [bytes "message", bytes "create_rec_record"])).getD []
  if recIDs = [] then rawLogRecIDs logs else .ok recIDs

section

variable {V : Type} {k : Keeper V} {ctx : Context} {s s' : Reward.State V} {r : Result}
  {msg : MsgCreateRECRecord}

theorem jsonText_recID (i : Nat) : jsonText (recID ctx i) = recID ctx i := by
  have hnat : ∀ n, ∀ b ∈ formatNat n, b < 0x80 := fun n b hb =>
    ascii_of_isDigit (isDigit_of_mem_formatNat hb)
  have hdash : ∀ b ∈ bytes "-", b < 0x80 := by decide +kernel
  have hrec : ∀ b ∈ bytes "rec-", b < 0x80 := by decide +kernel
  apply jsonText_ascii
  intro b hb
  rw [recID, List.mem_append, List.mem_append, List.mem_append] at hb
  rcases hb with ((hb | hb) | hb) | hb
  · exact hrec b hb
  · unfold formatInt at hb
    split at hb
    · rcases List.mem_cons.1 hb with rfl | hb
      · decide
      · exact hnat _ b hb
    · exact hnat _ b hb
  · exact hdash b hb
  · exact hnat i b hb

/-- The log of a transaction that issued records: the event of the message server, with the first id,
and then the event with the message's type. -/
theorem messageLog_createRECRecord (attributes : List (GoString × GoString)) :
    messageLog createRECRecordURL [⟨bytes "create_rec_record", attributes⟩] =
      [⟨bytes "create_rec_record", attributes⟩,
        ⟨bytes "message", [(bytes "action", createRECRecordURL)]⟩] := by
  rfl

/-- The one event of the message server names the first id. -/
theorem events_createRECRecord
    (h : Reward.handle k ctx s (.createRECRecord msg) = .ok (s', r)) :
    r.events = [⟨bytes "create_rec_record", [(bytes "creator", msg.creator),
      (bytes "count", formatInt msg.count), (bytes "rec_id", recID ctx 0)]⟩] := by
  simp only [Reward.handle, Reward.handleCreateRECRecord, Reward.createRECRecord] at h
  split at h
  · simp at h
  · rename_i first rest hids
    cases h
    -- the ids are numbered from zero on
    have hfirst : ((List.range msg.count.toNat).map (recID ctx)).head? = some first := by
      rw [hids, List.head?_cons]
    rw [List.head?_map, List.head?_range] at hfirst
    split at hfirst
    · cases hfirst
    · rw [← Option.some.inj hfirst]

/-- The extraction finds the first id and no other. -/
theorem extractRecIDs_createRECRecord
    (h : Reward.handle k ctx s (.createRECRecord msg) = .ok (s', r)) :
    extractRecIDs (rawLog createRECRecordURL r.events) = .ok [recID ctx 0] := by
  have hkind : jsonText (bytes "create_rec_record") = bytes "create_rec_record" := by decide +kernel
  have hmessage : jsonText (bytes "message") = bytes "message" := by decide +kernel
  have hcreator : jsonText (bytes "creator") ≠ bytes "rec_id" := by decide +kernel
  have hcount : jsonText (bytes "count") ≠ bytes "rec_id" := by decide +kernel
  have hid : jsonText (bytes "rec_id") = bytes "rec_id" := by decide +kernel
  have haction : jsonText (bytes "action") ≠ bytes "rec_id" := by decide +kernel
  rw [events_createRECRecord h, rawLog, messageLog_createRECRecord]
  simp [extractRecIDs, recIDValues, eventThroughJson, hkind, hmessage, hcreator, hcount, hid, haction,
    jsonText_recID]

/-- A call that succeeds returns the ids of the response. -/
theorem createRECRecordCLI_ids {client : ClientCtx} {count : Int} {st : Stages}
    {session session' : Session} {ids : List GoString}
    (h : createRECRecordCLI client count st session = (session', ids, none)) :
    ids = st.verdict.response.recIDs := by
  unfold createRECRecordCLI at h
  split at h
  · rename_i res hsend
    cases h
    rw [response_of_cachedSend hsend]
  · cases h

/-- The list that `CreateRECRecordCLI` returns for a transaction that issued records is the list of
their ids exactly if there is one record. -/
theorem recIds_learned_iff (k : Keeper V) (ctx : Context) (s s' : Reward.State V) (r : Result)
    (msg : MsgCreateRECRecord) (recIds : List GoString)
    (hok : Reward.handle k ctx s (.createRECRecord msg) = .ok (s', r))
    (hresponse : r.response = .createRECRecord recIds) :
    (∀ (client : ClientCtx) (st : Stages) (session session' : Session) (ids : List GoString),
      extractRecIDs (rawLog createRECRecordURL r.events) = .ok st.verdict.response.recIDs →
      createRECRecordCLI client msg.count st session = (session', ids, none) → ids = recIds) ↔
      msg.count = 1 := by
  obtain ⟨hpos, -, hids, -⟩ := Reward.handle_createRECRecord hok
  rw [hresponse, Reward.Response.createRECRecord.injEq] at hids
  have hextract := extractRecIDs_createRECRecord hok
  constructor
  · intro hlearned
    -- a call whose stages all succeed returns the list with the first id
    have hfirst : [recID ctx 0] = recIds :=
      hlearned smallClient ⟨none, none, none, none, none, ⟨true, true, none,
        { smallResponse 0 with recIDs := [recID ctx 0] }⟩⟩ freshSession _ _ hextract rfl
    have hlength := congrArg List.length (hfirst.trans hids)
    rw [List.length_singleton, List.length_map, List.length_range] at hlength
    omega
  · intro hone client st session session' ids hserved hcall
    rw [hextract, Except.ok.injEq] at hserved
    rw [createRECRecordCLI_ids hcall, ← hserved, hids, hone]
    rfl

end

/-- Two records are issued at once, and the bridge learns the id of the first. -/
theorem second_recId_lost :
    (Reward.handle smallKeeper (smallCtx 7) (Reward.genesis emptyBank)
        (.createRECRecord ⟨alice, 2⟩)).map (·.2.response) =
      .ok (.createRECRecord [bytes "rec-7-0", bytes "rec-7-1"]) ∧
    ((Reward.handle smallKeeper (smallCtx 7) (Reward.genesis emptyBank)
        (.createRECRecord ⟨alice, 2⟩)).bind fun result =>
      extractRecIDs (rawLog createRECRecordURL result.2.events)) = .ok [bytes "rec-7-0"] := by
  exact ⟨by decide +kernel, by decide +kernel⟩

theorem recIds_learned_iff_oneRecord :
    ∃ s' r recIds, Reward.handle smallKeeper (smallCtx 7) (Reward.genesis emptyBank)
        (.createRECRecord ⟨alice, 1⟩) = .ok (s', r) ∧ r.response = .createRECRecord recIds ∧
      ∀ (client : ClientCtx) (st : Stages) (session session' : Session) (ids : List GoString),
        extractRecIDs (rawLog createRECRecordURL r.events) = .ok st.verdict.response.recIDs →
        createRECRecordCLI client 1 st session = (session', ids, none) → ids = recIds :=
  ⟨_, _, _, rfl, rfl, (recIds_learned_iff smallKeeper (smallCtx 7) (Reward.genesis emptyBank) _ _
    ⟨alice, 1⟩ _ rfl rfl).2 rfl⟩

end EnergyChain.Bridge
