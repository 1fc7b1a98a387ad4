import EnergyChain.LightTx.MsgServer

/-!
# The command that sends a light transaction

`send-light-tx` takes the fields of the message as a list of arguments: the payload from the front,
and hash, signature and public key from the back. The model remembers the positions it read. An
argument list of eight is a measurement, and one of thirteen or more is taken for the metadata of a
REC, although that has fifteen fields and needs eighteen arguments: with thirteen or fourteen the
command reads past the end, and with fifteen to seventeen it reads the last fields twice
(`cmdSendLightTx_safe_iff`).
-/

set_option autoImplicit false

namespace EnergyChain.LightTx

open EnergyChain.Go
open EnergyChain.Sdk

/-! ## Reading arguments -/

/-- A computation that remembers the positions of the arguments it read. -/
abbrev Read (α : Type) := StateT (List Nat) Outcome α

/-- The read of an element past the end of a slice. -/
def indexOutOfRange (i length : Nat) : Fault :=
  .panic (bytes "runtime error: index out of range [" ++ formatNat i ++ bytes "] with length " ++
    formatNat length)

/-- `args[i]`. -/
def arg (args : List GoString) (i : Nat) : Read GoString := fun positions =>
  match args[i]? with
  | some a => .ok (a, positions ++ [i])
  | none => .error (indexOutOfRange i args.length)

/-- Return the error of a call. -/
def liftRead {α : Type} (x : Outcome α) : Read α := fun positions =>
  match x with
  | .ok a => .ok (a, positions)
  | .error fault => .error fault

section

variable (parseFloat : GoString → Except GoString Float64)

/-- `strconv.ParseFloat` of an argument, with the text in front of its error. -/
def floatArg (args : List GoString) (i : Nat) (label : String) : Read Float64 := do
  let a ← arg args i
  liftRead <| match parseFloat a with
    | .ok x => .ok x
    | .error err => fail (bytes label ++ err)

/-- The payload of eight arguments. -/
def solarPayload (args : List GoString) : Read Payload := do
  let totalEnergy ← floatArg parseFloat args 2 "invalid total_energy: "
  let lat ← floatArg parseFloat args 3 "invalid latitude: "
  let lon ← floatArg parseFloat args 4 "invalid longitude: "
  let deviceId ← arg args 0
  let timestamp ← arg args 1
  return .original ⟨deviceId, timestamp, totalEnergy, some ⟨lat, lon⟩⟩

/-- The payload of thirteen or more arguments. -/
def recPayload (args : List GoString) : Read Payload := do
  let facilityId ← arg args 0
  let facilityName ← arg args 1
  let location ← arg args 2
  let technologyType ← arg args 3
  let capacityMw ← arg args 4
  let registrationDate ← arg args 5
  let certifiedId ← arg args 6
  let issueDate ← arg args 7
  let generationStartDate ← arg args 8
  let generationEndDate ← arg args 9
  let measuredVolumeMwh ← arg args 10
  let retiredDate ← arg args 11
  let retirementPurpose ← arg args 12
  let status ← arg args 13
  let timestamp ← arg args 14
  return .recMeta ⟨facilityId, facilityName, location, technologyType, capacityMw, registrationDate,
    certifiedId, issueDate, generationStartDate, generationEndDate, measuredVolumeMwh, retiredDate,
    retirementPurpose, status, timestamp⟩

/-- The payload, by the number of arguments. -/
def payloadArgs (args : List GoString) : Read Payload :=
  if args.length = 8 then solarPayload parseFloat args
  else if 13 ≤ args.length then recPayload args
  else liftRead (fail (bytes "insufficient arguments: need 8 for SolarData or 13+ for RECMeta"))

/-- The function of `CmdSendLightTx` up to the broadcast, from the address that the client context
provides: the message, and the positions that its fields were read from. -/
def cmdSendLightTx (lib : Bech32) (fromAddress : Except GoString AccAddress) (args : List GoString) :
    Outcome (MsgSendLightTx × List Nat) :=
  if args.length < 8 then
    fail (bytes "requires at least 8 arg(s), only received " ++ formatNat args.length)
  else
    match fromAddress with
    | .error err => fail err
    | .ok addr => do
        let (payload, positions) ← payloadArgs parseFloat args []
        let (hash, positions) ← arg args (args.length - 3) positions
        let (signature, positions) ← arg args (args.length - 2) positions
        let (pubkey, positions) ← arg args (args.length - 1) positions
        let msg : MsgSendLightTx := ⟨lib.addrString addr, some payload, hash, signature, pubkey⟩
        msg.validateBasic lib
        return (msg, positions)

end

/-! ## What is read -/

section

variable {β : Type} {args : List GoString} {parseFloat : GoString → Except GoString Float64}
  {lib : Bech32} {fromAddress : Except GoString AccAddress}

theorem arg_of_lt {i : Nat} (h : i < args.length) (positions : List Nat) :
    arg args i positions = .ok (args[i], positions ++ [i]) := by
  simp [arg, h]

theorem arg_of_le {i : Nat} (h : args.length ≤ i) (positions : List Nat) :
    arg args i positions = .error (indexOutOfRange i args.length) := by
  rw [arg, List.getElem?_eq_none h]

theorem arg_bind_of_lt {i : Nat} (h : i < args.length) (f : GoString → Read β)
    (positions : List Nat) : (arg args i >>= f) positions = f args[i] (positions ++ [i]) := by
  change (arg args i positions >>= fun p => f p.1 p.2) = _
  rw [arg_of_lt h]
  rfl

theorem arg_bind_of_le {i : Nat} (h : args.length ≤ i) (f : GoString → Read β)
    (positions : List Nat) :
    (arg args i >>= f) positions = .error (indexOutOfRange i args.length) := by
  change (arg args i positions >>= fun p => f p.1 p.2) = _
  rw [arg_of_le h]
  rfl

/-- The fifteen fields in the order of the arguments. -/
def fields (data : RECMeta) : List GoString :=
  [data.facilityId, data.facilityName, data.location, data.technologyType, data.capacityMw,
    data.registrationDate, data.certifiedId, data.issueDate, data.generationStartDate,
    data.generationEndDate, data.measuredVolumeMwh, data.retiredDate, data.retirementPurpose,
    data.status, data.timestamp]

/-- With fifteen arguments or more the fields are the first fifteen. -/
theorem recPayload_of_le (h : 15 ≤ args.length) :
    ∃ data, recPayload args [] = .ok (.recMeta data, List.range 15) ∧ fields data = args.take 15 := by
  refine ⟨⟨args[0], args[1], args[2], args[3], args[4], args[5], args[6], args[7], args[8], args[9],
    args[10], args[11], args[12], args[13], args[14]⟩, ?_, ?_⟩
  · simp (disch := omega) only [recPayload, arg_bind_of_lt]
    rfl
  · refine List.ext_getElem (by simp [fields]; omega) ?_
    intro i hi _
    simp only [fields, List.length_cons, List.length_nil] at hi
    rw [List.getElem_take]
    interval_cases i <;> rfl

/-- With thirteen or fourteen arguments the status or the timestamp is past the end. -/
theorem recPayload_of_lt (h : 13 ≤ args.length) (hlt : args.length < 15) :
    ∃ i, recPayload args [] = .error (indexOutOfRange i args.length) := by
  by_cases h13 : args.length = 13
  · refine ⟨13, ?_⟩
    simp (disch := omega) only [recPayload, arg_bind_of_lt, arg_bind_of_le]
  · refine ⟨14, ?_⟩
    simp (disch := omega) only [recPayload, arg_bind_of_lt, arg_bind_of_le]

/-- A numeric argument that is there is read once, or its error is returned. -/
theorem floatArg_bind_of_lt {i : Nat} (h : i < args.length) (label : String) (f : Float64 → Read β)
    (positions : List Nat) :
    (floatArg parseFloat args i label >>= f) positions =
      match parseFloat args[i] with
      | .ok x => f x (positions ++ [i])
      | .error err => fail (bytes label ++ err) := by
  change ((arg args i >>= _) positions >>= fun p => f p.1 p.2) = _
  rw [arg_bind_of_lt h]
  cases parseFloat args[i] with
  | ok x => rfl
  | error err => rfl

/-- Eight arguments are a measurement, if the three numbers are numbers. -/
theorem solarPayload_of_eq (parseFloat : GoString → Except GoString Float64) (h : args.length = 8) :
    (∃ data, solarPayload parseFloat args [] = .ok (.original data, [2, 3, 4, 0, 1])) ∨
      ∃ text, solarPayload parseFloat args [] = fail text := by
  -- the numbers are read before the two texts, and the first that is none ends the command
  simp (disch := omega) only [solarPayload, floatArg_bind_of_lt, arg_bind_of_lt]
  cases parseFloat args[2] with
  | error err => exact Or.inr ⟨_, rfl⟩
  | ok totalEnergy =>
      cases parseFloat args[3] with
      | error err => exact Or.inr ⟨_, rfl⟩
      | ok lat =>
          cases parseFloat args[4] with
          | error err => exact Or.inr ⟨_, rfl⟩
          | ok lon => exact Or.inl ⟨_, rfl⟩

/-! ## The command -/

/-- The command returns an error, or a message whose fields come from different positions of the
list. -/
def SafePositional (args : List GoString) : Outcome (MsgSendLightTx × List Nat) → Prop
  | .ok (_, positions) => positions.Nodup ∧ ∀ i ∈ positions, i < args.length
  | .error (.error _) => True
  | .error (.panic _) => False

/-- The rest of the command after a payload that was read. -/
theorem cmdSendLightTx_of_payload (lib : Bech32) (addr : AccAddress) {payload : Payload}
    {positions : List Nat} (h : 8 ≤ args.length)
    (hpayload : payloadArgs parseFloat args [] = .ok (payload, positions)) :
    ∃ hash signature pubkey, args[args.length - 3]? = some hash ∧
      args[args.length - 2]? = some signature ∧ args[args.length - 1]? = some pubkey ∧
      cmdSendLightTx parseFloat lib (.ok addr) args = (do
        let msg : MsgSendLightTx := ⟨lib.addrString addr, some payload, hash, signature, pubkey⟩
        msg.validateBasic lib
        return (msg, positions ++ [args.length - 3] ++ [args.length - 2] ++ [args.length - 1])) := by
  have h₃ : args.length - 3 < args.length := by omega
  have h₂ : args.length - 2 < args.length := by omega
  have h₁ : args.length - 1 < args.length := by omega
  refine ⟨_, _, _, List.getElem?_eq_getElem h₃, List.getElem?_eq_getElem h₂,
    List.getElem?_eq_getElem h₁, ?_⟩
  rw [cmdSendLightTx, if_neg (by omega)]
  dsimp only
  rw [hpayload, ok_bind]
  dsimp only
  rw [arg_of_lt h₃, ok_bind]
  dsimp only
  rw [arg_of_lt h₂, ok_bind]
  dsimp only
  rw [arg_of_lt h₁, ok_bind]

/-- A message that is refused is an error, and one that is accepted has to have been read from
different positions. -/
theorem safePositional_validated {msg : MsgSendLightTx} {positions : List Nat} :
    SafePositional args (do
        msg.validateBasic lib
        return (msg, positions)) ↔
      (msg.validateBasic lib = .ok () → positions.Nodup ∧ ∀ i ∈ positions, i < args.length) := by
  have hpanic := noPanic_validateBasic lib msg
  cases hvalid : msg.validateBasic lib with
  | ok u =>
      constructor
      · intro hsafe _
        exact hsafe
      · intro hsafe
        exact hsafe rfl
  | error fault =>
      rw [hvalid] at hpanic
      cases fault with
      | error text => exact iff_of_true trivial nofun
      | panic text => exact hpanic.elim

/-- The first fifteen positions and the last three are different if there are eighteen. -/
theorem nodup_range_append_iff {n : Nat} (h : 15 ≤ n) :
    (List.range 15 ++ [n - 3] ++ [n - 2] ++ [n - 1]).Nodup ↔ 18 ≤ n := by
  simp only [List.nodup_append, List.nodup_range, List.nodup_singleton, List.mem_append,
    List.mem_range, List.mem_singleton, true_and]
  constructor
  · rintro ⟨⟨hfirst, -⟩, -⟩
    -- below eighteen the hash is one of the fields
    by_contra hlt
    exact hfirst (n - 3) (by omega) (n - 3) rfl rfl
  · intro hle
    refine ⟨⟨?_, ?_⟩, ?_⟩ <;> (intros; omega)

/-- The message that fifteen arguments or more give is accepted. -/
def Accepted (lib : Bech32) (addr : AccAddress) (args : List GoString) : Prop :=
  (∃ creator, accAddressFromBech32 lib (lib.addrString addr) = .ok creator) ∧
    args[args.length - 2]? ≠ some [] ∧ args[args.length - 1]? ≠ some []

theorem cmdSendLightTx_of_fault (lib : Bech32) (addr : AccAddress) {fault : Fault}
    (h : 8 ≤ args.length) (hpayload : payloadArgs parseFloat args [] = .error fault) :
    cmdSendLightTx parseFloat lib (.ok addr) args = .error fault := by
  rw [cmdSendLightTx, if_neg (by omega)]
  dsimp only
  rw [hpayload, error_bind]

/-- Eight arguments are read from eight positions. -/
theorem safePositional_solar (parseFloat : GoString → Except GoString Float64) (lib : Bech32)
    (addr : AccAddress) (h : args.length = 8) :
    SafePositional args (cmdSendLightTx parseFloat lib (.ok addr) args) := by
  have hkind : payloadArgs parseFloat args [] = solarPayload parseFloat args [] := by
    rw [payloadArgs, if_pos h]
  rcases solarPayload_of_eq parseFloat h with ⟨data, hdata⟩ | ⟨text, htext⟩
  · obtain ⟨_, _, _, -, -, -, hcmd⟩ :=
      cmdSendLightTx_of_payload lib addr h.ge (hkind.trans hdata)
    rw [hcmd, safePositional_validated, h]
    intro _
    decide
  · rw [cmdSendLightTx_of_fault lib addr h.ge (hkind.trans htext)]
    trivial

/-- Fifteen arguments or more are read from different positions if there are eighteen; a message that
is refused is not built. -/
theorem safePositional_rec_iff (parseFloat : GoString → Except GoString Float64) (lib : Bech32)
    (addr : AccAddress) (h : 15 ≤ args.length) :
    SafePositional args (cmdSendLightTx parseFloat lib (.ok addr) args) ↔
      18 ≤ args.length ∨ ¬ Accepted lib addr args := by
  have hkind : payloadArgs parseFloat args [] = recPayload args [] := by
    rw [payloadArgs, if_neg (by omega), if_pos (by omega)]
  obtain ⟨data, hdata, -⟩ := recPayload_of_le h
  obtain ⟨_, signature, pubkey, -, hsignature, hpubkey, hcmd⟩ :=
    cmdSendLightTx_of_payload lib addr (by omega) (hkind.trans hdata)
  have hbound : ∀ i ∈ List.range 15 ++ [args.length - 3] ++ [args.length - 2] ++
      [args.length - 1], i < args.length := by
    simp only [List.mem_append, List.mem_range, List.mem_singleton]
    omega
  rw [hcmd, safePositional_validated, nodup_range_append_iff h, validateBasic_eq_ok, Accepted,
    hsignature, hpubkey, and_iff_left hbound]
  simp only [Option.isSome_some, true_and, ne_eq, Option.some_inj]
  exact imp_iff_or_not

/-- For every argument list of eight or more: the command returns an error or takes every field from
its own position exactly if the list is shorter than thirteen or has the eighteen arguments of a REC,
or an error of the client context or of the message comes first. -/
theorem cmdSendLightTx_safe_iff (parseFloat : GoString → Except GoString Float64) (lib : Bech32)
    (fromAddress : Except GoString AccAddress) (args : List GoString) (h : 8 ≤ args.length) :
    SafePositional args (cmdSendLightTx parseFloat lib fromAddress args) ↔
      ∀ addr, fromAddress = .ok addr → args.length < 13 ∨ 18 ≤ args.length ∨
        (15 ≤ args.length ∧ ¬ Accepted lib addr args) := by
  cases fromAddress with
  | error err =>
      refine iff_of_true ?_ nofun
      rw [cmdSendLightTx, if_neg (by omega)]
      trivial
  | ok addr =>
      simp only [Except.ok.injEq, forall_eq']
      by_cases h8 : args.length = 8
      · exact iff_of_true (safePositional_solar parseFloat lib addr h8) (Or.inl (by omega))
      by_cases h13 : args.length < 13
      · -- neither kind of payload
        obtain ⟨text, hkind⟩ : ∃ text, payloadArgs parseFloat args [] = .error (.error text) := by
          rw [payloadArgs, if_neg h8, if_neg (by omega)]
          exact ⟨_, rfl⟩
        refine iff_of_true ?_ (Or.inl h13)
        rw [cmdSendLightTx_of_fault lib addr h hkind]
        trivial
      by_cases h15 : args.length < 15
      · -- a field past the end
        obtain ⟨i, hi⟩ := recPayload_of_lt (by omega) h15
        have hkind : payloadArgs parseFloat args [] = .error (indexOutOfRange i args.length) := by
          rw [payloadArgs, if_neg h8, if_pos (by omega), hi]
        refine iff_of_false ?_ (by omega)
        rw [cmdSendLightTx_of_fault lib addr h hkind]
        exact id
      · rw [safePositional_rec_iff parseFloat lib addr (by omega)]
        have hlong : 15 ≤ args.length := by omega
        simp only [h13, hlong, false_or, true_and]

end

/-! ## A list that is read as meant and two that are not -/

/-- The arguments `a`, `b`, `c` and so on. -/
def letters (n : Nat) : List GoString := (List.range n).map fun i => [97 + UInt8.ofNat i]

/-- A reader of numbers that accepts every text. -/
def anyFloat (_ : GoString) : Except GoString Float64 := .ok (.fin 0)

theorem cmdSendLightTx_safe_iff_eighteen :
    8 ≤ (letters 18).length ∧
    SafePositional (letters 18)
      (cmdSendLightTx anyFloat Reward.smallBech32 (.ok Reward.aliceAddr) (letters 18)) :=
  ⟨by decide +kernel, (cmdSendLightTx_safe_iff anyFloat Reward.smallBech32 (.ok Reward.aliceAddr)
    (letters 18) (by decide +kernel)).2 fun _ _ => Or.inr (Or.inl (by decide +kernel))⟩

/-- With thirteen arguments the command panics; with sixteen it sends a message whose hash is its
status. -/
theorem cmdSendLightTx_misreads :
    cmdSendLightTx anyFloat Reward.smallBech32 (.ok Reward.aliceAddr) (letters 13) =
      throwPanic (bytes "runtime error: index out of range [13] with length 13") ∧
    (cmdSendLightTx anyFloat Reward.smallBech32 (.ok Reward.aliceAddr) (letters 16)).map
      (fun p => (p.1.payload.map fun payload =>
        match payload with
        | .original data => data.deviceId
        | .recMeta data => data.status, p.1.hash, p.2)) =
      .ok (some (bytes "n"), bytes "n", List.range 15 ++ [13, 14, 15]) := by
  decide +kernel

end EnergyChain.LightTx
