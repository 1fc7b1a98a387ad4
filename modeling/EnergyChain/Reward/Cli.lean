import EnergyChain.Go.Flags
import EnergyChain.Reward.Types

/-!
# The command that deposits collateral

`deposit-collateral` takes the record or the metadata from the flags `--rec-record` and `--rec-meta`,
as a JSON text or as the name of a file. It declares no positional arguments and does not look at
those it is given. Without one of the two flags it fails, whatever else it is called with
(`cmdDepositCollateral_of_unset`).
-/

set_option autoImplicit false

namespace EnergyChain.Reward

open EnergyChain.Go
open EnergyChain.Sdk

/-! ## The flags -/

/-- `flags.AddTxFlagsToCmd`. -/
def txFlags : List FlagDef :=
  [⟨bytes "output", some 111, .text⟩, ⟨bytes "keyring-dir", none, .text⟩,
    ⟨bytes "from", none, .text⟩, ⟨bytes "account-number", some 97, .uint64⟩,
    ⟨bytes "sequence", some 115, .uint64⟩, ⟨bytes "note", none, .text⟩,
    ⟨bytes "fees", none, .text⟩, ⟨bytes "gas-prices", none, .text⟩, ⟨bytes "node", none, .text⟩,
    ⟨bytes "ledger", none, .bool⟩, ⟨bytes "gas-adjustment", none, .float64⟩,
    ⟨bytes "broadcast-mode", some 98, .text⟩, ⟨bytes "dry-run", none, .bool⟩,
    ⟨bytes "generate-only", none, .bool⟩, ⟨bytes "offline", none, .bool⟩,
    ⟨bytes "yes", some 121, .bool⟩, ⟨bytes "keyring-backend", none, .text⟩,
    ⟨bytes "sign-mode", none, .text⟩, ⟨bytes "timeout-height", none, .uint64⟩,
    ⟨bytes "fee-account", none, .text⟩, ⟨bytes "gas", none, .text⟩]

/-- The flags that a command of `simd tx` inherits, and the help flag of every command. -/
def inheritedFlags : List FlagDef :=
  [⟨bytes "chain-id", none, .text⟩, ⟨bytes "log_level", none, .text⟩,
    ⟨bytes "log_format", none, .text⟩, ⟨bytes "home", none, .text⟩, ⟨bytes "trace", none, .bool⟩,
    ⟨bytes "help", some 104, .bool⟩]

/-- The flags of `CmdDepositCollateral`. -/
def depositFlags : List FlagDef :=
  ⟨bytes "rec-record", none, .text⟩ :: ⟨bytes "rec-meta", none, .text⟩ :: txFlags ++ inheritedFlags

/-! ## The command -/

/-- What the command calls: `os.ReadFile`, and `json.Unmarshal` into the two types. -/
structure DepositLib where
  readFile : GoString → Except GoString GoString
  unmarshalRecord : GoString → Except GoString RECRecord
  unmarshalMeta : GoString → Except GoString RECMeta

/-- How a command ends without a message. -/
inductive CommandError where
  | otherCommand
  | flags (err : FlagError)
  | help
  | run (fault : Fault)
  deriving DecidableEq, Repr

/-- Return the error of a call, with a text in front. -/
def wrapError {α : Type} (label : GoString) : Except GoString α → Outcome α
  | .ok a => .ok a
  | .error err => fail (label ++ err)

/-- A record or metadata from the value of its flag: a JSON text if it starts with a brace, and the
name of a file otherwise. -/
def readInput {α : Type} (readFile : GoString → Except GoString GoString)
    (unmarshal : GoString → Except GoString α) (flag : GoString) (input : GoString) : Outcome α :=
  if (trimSpace input).head? = some 123 then
    wrapError (bytes "failed to unmarshal " ++ flag ++ bytes " JSON string: ") (unmarshal input)
  else do
    let data ← wrapError (bytes "failed to read " ++ flag ++ bytes " file: ") (readFile input)
    wrapError (bytes "failed to unmarshal " ++ flag ++ bytes " file: ") (unmarshal data)

section

variable (lib : DepositLib) (bech32 : Bech32) (fromAddress : Except GoString AccAddress)

/-- The function of `CmdDepositCollateral` up to the broadcast, on parsed arguments. Metadata replaces
a record. -/
def runDepositCollateral (parsed : ParsedArgs) : Outcome MsgDepositCollateral := do
  let addr ← wrapError [] fromAddress
  let recRecordFile := parsed.getString (bytes "rec-record")
  let recMetaInput := parsed.getString (bytes "rec-meta")
  let msg ← if recRecordFile ≠ [] then do
      let rec ← readInput lib.readFile lib.unmarshalRecord (bytes "rec-record") recRecordFile
      pure (some ⟨bech32.addrString addr, some (.recRecord rec)⟩)
    else pure none
  -- with both flags the record is read and then dropped
  let msg ← if recMetaInput ≠ [] then do
      let recMeta ← readInput lib.readFile lib.unmarshalMeta (bytes "rec-meta") recMetaInput
      pure (some ⟨bech32.addrString addr, some (.recMeta recMeta)⟩)
    else pure msg
  let msg : MsgDepositCollateral ←
    orFail (.error (bytes "either --rec-record or --rec-meta must be provided")) msg
  msg.validateBasic bech32
  return msg

/-- The command on its arguments. -/
def cmdDepositCollateral (args : List GoString) : Except CommandError MsgDepositCollateral :=
  match parseArgs depositFlags none args with
  | .error err => .error (.flags err)
  | .ok parsed =>
      if parsed.getBool (bytes "help") then .error .help
      else
        match runDepositCollateral lib bech32 fromAddress parsed with
        | .ok msg => .ok msg
        | .error fault => .error (.run fault)

/-- The words of the command. -/
def depositCommand : List GoString := [bytes "tx", bytes "reward", bytes "deposit-collateral"]

/-- The deposit that a call of `simd` builds; the other commands build none. -/
def simd (args : List GoString) : Except CommandError MsgDepositCollateral :=
  if args.take 3 = depositCommand then cmdDepositCollateral lib bech32 fromAddress (args.drop 3)
  else .error .otherCommand

variable {lib bech32 fromAddress}

/-- Without a value for one of the two flags there is no deposit. -/
theorem cmdDepositCollateral_of_unset {args : List GoString} {parsed : ParsedArgs}
    (hparsed : parseArgs depositFlags none args = .ok parsed)
    (hrecord : parsed.getString (bytes "rec-record") = [])
    (hmeta : parsed.getString (bytes "rec-meta") = []) :
    ∃ err, cmdDepositCollateral lib bech32 fromAddress args = .error err := by
  rw [cmdDepositCollateral, hparsed]
  by_cases hhelp : parsed.getBool (bytes "help") = true
  · exact ⟨.help, by simp only [if_pos hhelp]⟩
  -- without an address of the sender the error is another one
  have hrun : ∃ fault, runDepositCollateral lib bech32 fromAddress parsed = .error fault := by
    rw [runDepositCollateral, hrecord, hmeta]
    cases fromAddress with
    | error err => exact ⟨_, rfl⟩
    | ok addr => exact ⟨_, rfl⟩
  obtain ⟨fault, hfault⟩ := hrun
  refine ⟨.run fault, ?_⟩
  simp only [if_neg hhelp, hfault]

theorem cmdDepositCollateral_of_run {args : List GoString} {parsed : ParsedArgs}
    {msg : MsgDepositCollateral} (hparsed : parseArgs depositFlags none args = .ok parsed)
    (hhelp : parsed.getBool (bytes "help") = false)
    (hrun : runDepositCollateral lib bech32 fromAddress parsed = .ok msg) :
    cmdDepositCollateral lib bech32 fromAddress args = .ok msg := by
  simp only [cmdDepositCollateral, hparsed, hhelp, hrun, Bool.false_eq_true, if_false]

/-- A JSON text behind `--rec-meta`, in front of or between other flags, is what is deposited. -/
theorem runDepositCollateral_recMeta {parsed : ParsedArgs} {addr : AccAddress} {input : GoString}
    {recMeta : RECMeta} (hfrom : fromAddress = .ok addr)
    (hcreator : ∃ creator, accAddressFromBech32 bech32 (bech32.addrString addr) = .ok creator)
    (hrecord : parsed.getString (bytes "rec-record") = [])
    (hmeta : parsed.getString (bytes "rec-meta") = input)
    (hbrace : (trimSpace input).head? = some 123)
    (hdecode : lib.unmarshalMeta input = .ok recMeta) :
    runDepositCollateral lib bech32 fromAddress parsed =
      .ok ⟨bech32.addrString addr, some (.recMeta recMeta)⟩ := by
  obtain ⟨creator, hcreator⟩ := hcreator
  have hne : input ≠ [] := by
    rintro rfl
    simp [trimSpace, trimLeft, trimRight] at hbrace
  have hread : readInput lib.readFile lib.unmarshalMeta (bytes "rec-meta") input = .ok recMeta := by
    rw [readInput, if_pos hbrace, hdecode]
    rfl
  subst hfrom
  rw [runDepositCollateral, hrecord, hmeta]
  simp [wrapError, hne, hread, orFail, MsgDepositCollateral.validateBasic, checkAddress, hcreator,
    mapErr, require]

end

end EnergyChain.Reward
