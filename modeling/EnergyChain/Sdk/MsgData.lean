import EnergyChain.Proto.Message

/-!
# The data of a transaction result

`sdk.TxMsgData` collects the response of each message of a transaction, in the order of the messages. The
generated code has no `XXX_unrecognized` here: the bytes of unknown fields are measured and dropped.
-/

set_option autoImplicit false

namespace EnergyChain.Sdk

open EnergyChain.Go
open EnergyChain.Proto
open EnergyChain.Proto.Message (copyFields_cons)

/-- `sdk.MsgData`: the type URL of a message and the bytes of its response. -/
structure MsgData where
  msgType : GoString
  data : GoString
  deriving DecidableEq, Repr

/-- The generated code of `MsgData`. -/
def msgData : Message MsgData where
  name := "MsgData"
  fields := [
    stringField 1 "MsgType" 0x0a (fun m => m.msgType) (fun m s => { m with msgType := s }),
    stringField 2 "Data" 0x12 (fun m => m.data) (fun m s => { m with data := s })]
  empty := ⟨[], []⟩
  unrecognized _ := []
  keep m _ := m

theorem copyFields_msgData (m : MsgData) :
    Message.copyFields m msgData.fields msgData.empty = m := by
  refine (copyFields_cons (copy_stringField rfl)).trans ?_
  exact copyFields_cons (copy_stringField rfl)

theorem parts_msgData (m : MsgData) : msgData.Parts m := by
  simp [Message.Parts, msgData, stringField, stringKind]

theorem msgData_lawful : msgData.Lawful where
  isTag := by simp [msgData, Field.IsTag, stringField, stringKind]
  nodup := by decide
  rebuild m := by
    rw [copyFields_msgData]
    rfl
  keep_nil _ := rfl
  keep_keep _ _ _ := rfl
  unrecognized_empty := rfl
  unrecognized_put _ _ _ _ := rfl
  unrecognized_keep _ _ := .inr rfl
  parts_empty := parts_msgData _
  parts_put _ _ _ _ _ _ := parts_msgData _
  parts_keep _ _ _ := parts_msgData _

/-- `sdk.TxMsgData`. -/
structure TxMsgData where
  data : List MsgData
  deriving DecidableEq, Repr

/-- The generated code of `TxMsgData`. -/
def txMsgData : Message TxMsgData where
  name := "TxMsgData"
  fields := [
    messagesField msgData msgData_lawful 1 "Data" 0x0a (fun m => m.data) (fun _ l => ⟨l⟩)]
  empty := ⟨[]⟩
  unrecognized _ := []
  keep m _ := m

theorem copyFields_txMsgData (m : TxMsgData) :
    Message.copyFields m txMsgData.fields txMsgData.empty = m :=
  copyFields_cons (copy_messagesField (by intros; rfl) (by intros; rfl) rfl)

/-- Nothing is unknown in what the generated code keeps, so every message is valid. -/
theorem valid_msgData (m : MsgData) : msgData.Valid m :=
  ⟨Message.unknown_nil msgData_lawful, parts_msgData m⟩

theorem parts_txMsgData (m : TxMsgData) : txMsgData.Parts m := by
  simp [Message.Parts, txMsgData, messagesField, messageKind, valid_msgData]

theorem txMsgData_lawful : txMsgData.Lawful where
  isTag := by simp [txMsgData, Field.IsTag, messagesField, messageKind]
  nodup := by decide
  rebuild m := by
    rw [copyFields_txMsgData]
    rfl
  keep_nil _ := rfl
  keep_keep _ _ _ := rfl
  unrecognized_empty := rfl
  unrecognized_put _ _ _ _ := rfl
  unrecognized_keep _ _ := .inr rfl
  parts_empty := parts_txMsgData _
  parts_put _ _ _ _ _ _ := parts_txMsgData _
  parts_keep _ _ _ := parts_txMsgData _

theorem valid_txMsgData (m : TxMsgData) : txMsgData.Valid m :=
  ⟨Message.unknown_nil txMsgData_lawful, parts_txMsgData m⟩

end EnergyChain.Sdk
