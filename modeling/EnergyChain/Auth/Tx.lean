import EnergyChain.App.Panics

/-!
# Transactions

A transaction with its messages, its fee and the information of its signers, as the ante handler sees it.
The signers are those of the messages, without repetition, and then the payer of the fee if one is named;
they are told apart by their texts. A payer that is written in another way than the text of its address is
therefore listed again. Every signer of a message is among them, and so is the payer (`getSigners_spec`).

The types of public keys and of modes of signing are parameters. A transaction that was decoded has a body,
a fee and coins that are not nil, so the checks for these are left out.
-/

set_option autoImplicit false

namespace EnergyChain.Auth

open EnergyChain.Go
open EnergyChain.Sdk
open EnergyChain.App (SimApp Msg OwnMsg)

/-! ## Messages -/

/-- `IsAllPositive`. -/
def isAllPositive (coins : List Coin) : Bool := !coins.isEmpty && coins.all fun c => decide (0 < c.amount)

/-- `MsgSend.ValidateBasic`. -/
def sendValidateBasic (lib : Bech32) (msg : Bank.MsgSend) : Outcome Unit := do
  Reward.checkAddress lib msg.fromAddress fun err =>
    bytes "Invalid sender address (" ++ err ++ bytes "): invalid address"
  Reward.checkAddress lib msg.toAddress fun err =>
    bytes "Invalid recipient address (" ++ err ++ bytes "): invalid address"
  require (coinsIsValid msg.amount = true) (.error (coinsString msg.amount ++ bytes ": invalid coins"))
  require (isAllPositive msg.amount = true) (.error (coinsString msg.amount ++ bytes ": invalid coins"))

section

variable {V : Type} (app : SimApp V)

/-- The bech32 library of the application. -/
def bech32 : Bech32 := app.rewardKeeper.bankKeeper.bech32

/-- `msg.ValidateBasic`. -/
def msgValidateBasic : Msg → Outcome Unit
  | .reward msg => OwnMsg.validateBasic app (.reward msg)
  | .sendLightTx msg => OwnMsg.validateBasic app (.sendLightTx msg)
  | .registerDevice msg => OwnMsg.validateBasic app (.registerDevice msg)
  | .send msg => sendValidateBasic (bech32 app) msg

/-- `msg.GetSigners`. -/
def msgGetSigners : Msg → Outcome (List AccAddress)
  | .reward msg => OwnMsg.getSigners app (.reward msg)
  | .sendLightTx msg => OwnMsg.getSigners app (.sendLightTx msg)
  | .registerDevice msg => OwnMsg.getSigners app (.registerDevice msg)
  | .send msg => do
      let from_ ← panicOnErr id (accAddressFromBech32 (bech32 app) msg.fromAddress)
      return [from_]

end

/-! ## Transactions -/

/-- `SignerInfo`: the key and the mode can be left out. -/
structure SignerInfo (K M : Type) where
  publicKey : Option K
  modeInfo : Option M
  sequence : UInt64

/-- `Fee`; the payer and the granter are empty if not set. -/
structure Fee where
  amount : List Coin
  gasLimit : UInt64
  payer : GoString
  granter : GoString

/-- `Tx`. -/
structure Tx (K M : Type) where
  messages : List Msg
  memo : GoString
  timeoutHeight : UInt64
  /-- the number of extension options -/
  extensionOptions : Nat
  signerInfos : List (SignerInfo K M)
  fee : Fee
  signatures : List GoString

section

variable {K M V : Type} (app : SimApp V)

/-- `if !seen[addr.String()]`: the signers so far, and the texts of those seen. -/
def addSigner (acc : List AccAddress × List GoString) (addr : AccAddress) :
    List AccAddress × List GoString :=
  if (bech32 app).addrString addr ∈ acc.2 then acc
  else (acc.1 ++ [addr], (bech32 app).addrString addr :: acc.2)

/-- The loop over the messages. -/
def msgSigners (msgs : List Msg) : Outcome (List AccAddress × List GoString) :=
  msgs.foldlM (fun acc msg => do
    let addrs ← msgGetSigners app msg
    return addrs.foldl (addSigner app) acc) ([], [])

/-- `tx.GetSigners`. -/
def getSigners (tx : Tx K M) : Outcome (List AccAddress) := do
  let (signers, seen) ← msgSigners app tx.messages
  if tx.fee.payer ≠ [] ∧ tx.fee.payer ∉ seen then do
    let payerAddr ← panicOnErr id (accAddressFromBech32 (bech32 app) tx.fee.payer)
    return signers ++ [payerAddr]
  else return signers

/-- The panic of `signers[i]`. -/
def indexOutOfRange : Fault := .panic (bytes "runtime error: index out of range")

/-- `FeePayer`. -/
def feePayer (tx : Tx K M) : Outcome AccAddress :=
  if tx.fee.payer ≠ [] then panicOnErr id (accAddressFromBech32 (bech32 app) tx.fee.payer)
  else do
    let signers ← getSigners app tx
    orFail indexOutOfRange signers.head?

/-- `FeeGranter`. -/
def feeGranter (tx : Tx K M) : Outcome (Option AccAddress) :=
  if tx.fee.granter ≠ [] then do
    let granterAddr ← panicOnErr id (accAddressFromBech32 (bech32 app) tx.fee.granter)
    return some granterAddr
  else return none

/-- `MaxGasWanted`. -/
def maxGasWanted : Nat := 2 ^ 63 - 1

/-- `tx.ValidateBasic`. -/
def validateBasic (tx : Tx K M) : Outcome Unit := do
  require (tx.fee.gasLimit.toNat ≤ maxGasWanted)
    (.error (bytes "invalid gas supplied; " ++ formatNat tx.fee.gasLimit.toNat ++ bytes " > " ++
      formatNat maxGasWanted ++ bytes ": invalid request"))
  require (tx.fee.amount.all fun c => decide (0 ≤ c.amount))
    (.error (bytes "invalid fee provided: " ++ coinsString tx.fee.amount ++ bytes ": insufficient fee"))
  if tx.fee.payer ≠ [] then
    Reward.checkAddress (bech32 app) tx.fee.payer fun err =>
      bytes "Invalid fee payer address (" ++ err ++ bytes "): invalid address"
  require (tx.signatures ≠ []) (.error (bytes "no signatures supplied"))
  let signers ← getSigners app tx
  require (tx.signatures.length = signers.length)
    (.error (bytes "wrong number of signers; expected " ++ formatNat signers.length ++ bytes ", got " ++
      formatNat tx.signatures.length ++ bytes ": unauthorized"))

/-- `validateBasicTxMsgs`. -/
def validateBasicTxMsgs (msgs : List Msg) : Outcome Unit := do
  require (msgs ≠ []) (.error (bytes "must contain at least one message: invalid request"))
  msgs.forM (msgValidateBasic app)

/-! ## The signers -/

/-- The modules have one bech32 library, and an address that was read is read back from its text. -/
structure OneBech32 : Prop where
  lightTx : app.lightTxKeeper.bech32 = bech32 app
  mapping : app.mappingKeeper.bech32 = bech32 app
  readBack : ∀ text addr, accAddressFromBech32 (bech32 app) text = .ok addr →
    accAddressFromBech32 (bech32 app) ((bech32 app).addrString addr) = .ok addr

/-- The loop over the messages: the signers differ and can be read back, and the texts seen are theirs. -/
structure Listed (acc : List AccAddress × List GoString) : Prop where
  nodup : acc.1.Nodup
  readable : ∀ addr ∈ acc.1,
    accAddressFromBech32 (bech32 app) ((bech32 app).addrString addr) = .ok addr
  seen : ∀ text, text ∈ acc.2 ↔ ∃ addr ∈ acc.1, (bech32 app).addrString addr = text

variable {app}

/-- Every message has one signer, whose text it holds. -/
theorem readable_msgGetSigners (hone : OneBech32 app) {msg : Msg} {addrs : List AccAddress}
    (h : msgGetSigners app msg = .ok addrs) {addr : AccAddress} (haddr : addr ∈ addrs) :
    accAddressFromBech32 (bech32 app) ((bech32 app).addrString addr) = .ok addr := by
  have hread : ∃ text, accAddressFromBech32 (bech32 app) text = .ok addr := by
    cases msg with
    | reward msg =>
        obtain ⟨creator, hcreator, hpure⟩ := bind_eq_ok.1 h
        cases hpure
        rw [List.mem_singleton.1 haddr]
        exact ⟨_, panicOnErr_eq_ok.1 hcreator⟩
    | sendLightTx msg =>
        obtain ⟨creator, hcreator, hpure⟩ := bind_eq_ok.1 h
        cases hpure
        rw [List.mem_singleton.1 haddr, ← hone.lightTx]
        exact ⟨_, panicOnErr_eq_ok.1 hcreator⟩
    | registerDevice msg =>
        obtain ⟨creator, hcreator, hpure⟩ := bind_eq_ok.1 h
        cases hpure
        rw [List.mem_singleton.1 haddr, ← hone.mapping]
        exact ⟨_, panicOnErr_eq_ok.1 hcreator⟩
    | send msg =>
        obtain ⟨creator, hcreator, hpure⟩ := bind_eq_ok.1 h
        cases hpure
        rw [List.mem_singleton.1 haddr]
        exact ⟨_, panicOnErr_eq_ok.1 hcreator⟩
  obtain ⟨text, htext⟩ := hread
  exact hone.readBack text addr htext

section

variable {acc acc' : List AccAddress × List GoString}

/-- An address that is read back from its text is listed if its text was seen. -/
theorem Listed.mem_of_seen (h : Listed app acc) {addr : AccAddress} {text : GoString}
    (hread : accAddressFromBech32 (bech32 app) text = .ok addr) (hseen : text ∈ acc.2) :
    addr ∈ acc.1 := by
  obtain ⟨b, hb, rfl⟩ := (h.seen _).1 hseen
  rw [h.readable b hb] at hread
  cases hread
  exact hb

theorem Listed.addSigner (h : Listed app acc) {addr : AccAddress}
    (hread : accAddressFromBech32 (bech32 app) ((bech32 app).addrString addr) = .ok addr) :
    Listed app (addSigner app acc addr) ∧ addr ∈ (Auth.addSigner app acc addr).1 ∧
      acc.1 ⊆ (Auth.addSigner app acc addr).1 := by
  rw [Auth.addSigner]
  split
  · rename_i hseen
    exact ⟨h, h.mem_of_seen hread hseen, List.Subset.refl _⟩
  · rename_i hnew
    refine ⟨⟨?_, ?_, ?_⟩, by simp, List.subset_append_left _ _⟩
    · rw [List.nodup_append]
      refine ⟨h.nodup, List.nodup_singleton addr, fun a ha b hb => ?_⟩
      rw [List.mem_singleton.1 hb]
      rintro rfl
      exact hnew ((h.seen _).2 ⟨a, ha, rfl⟩)
    · intro a ha
      rcases List.mem_append.1 ha with ha | ha
      · exact h.readable a ha
      · rw [List.mem_singleton.1 ha]
        exact hread
    · intro text
      simp only [List.mem_cons, h.seen, List.mem_append, List.not_mem_nil, or_false]
      constructor
      · rintro (rfl | ⟨a, ha, rfl⟩)
        · exact ⟨addr, .inr rfl, rfl⟩
        · exact ⟨a, .inl ha, rfl⟩
      · rintro ⟨a, ha | rfl, rfl⟩
        · exact .inr ⟨a, ha, rfl⟩
        · exact .inl rfl

theorem Listed.foldl_addSigner (h : Listed app acc) {addrs : List AccAddress}
    (hread : ∀ addr ∈ addrs,
      accAddressFromBech32 (bech32 app) ((bech32 app).addrString addr) = .ok addr) :
    Listed app (addrs.foldl (Auth.addSigner app) acc) ∧
      addrs ⊆ (addrs.foldl (Auth.addSigner app) acc).1 ∧
      acc.1 ⊆ (addrs.foldl (Auth.addSigner app) acc).1 := by
  induction addrs generalizing acc with
  | nil => exact ⟨h, List.nil_subset _, List.Subset.refl _⟩
  | cons addr addrs ih =>
      obtain ⟨hone, hmem, hsub⟩ := h.addSigner (hread addr List.mem_cons_self)
      obtain ⟨hlisted, hrest, hsub'⟩ := ih hone fun a ha => hread a (List.mem_cons_of_mem addr ha)
      refine ⟨hlisted, ?_, List.Subset.trans hsub hsub'⟩
      exact List.cons_subset.2 ⟨hsub' hmem, hrest⟩

end

/-- The signers of the messages are listed once each. -/
theorem listed_msgSigners (hone : OneBech32 app) {msgs : List Msg}
    {acc : List AccAddress × List GoString} (h : msgSigners app msgs = .ok acc) :
    Listed app acc ∧ ∀ msg ∈ msgs, ∃ addrs, msgGetSigners app msg = .ok addrs ∧ addrs ⊆ acc.1 := by
  -- on the messages, from any list to start with
  suffices hloop : ∀ start, Listed app start → msgs.foldlM (fun acc msg => do
      let addrs ← msgGetSigners app msg
      return addrs.foldl (Auth.addSigner app) acc) start = .ok acc →
      Listed app acc ∧ start.1 ⊆ acc.1 ∧
        ∀ msg ∈ msgs, ∃ addrs, msgGetSigners app msg = .ok addrs ∧ addrs ⊆ acc.1 by
    have hempty : Listed app ([], []) := ⟨List.nodup_nil, nofun, fun text => by simp⟩
    obtain ⟨hlisted, -, hmsgs⟩ := hloop ([], []) hempty h
    exact ⟨hlisted, hmsgs⟩
  clear h
  induction msgs with
  | nil =>
      intro start hstart hfold
      cases hfold
      exact ⟨hstart, List.Subset.refl _, nofun⟩
  | cons msg msgs ih =>
      intro start hstart hfold
      rw [List.foldlM_cons] at hfold
      obtain ⟨next, hnext, hrest⟩ := bind_eq_ok.1 hfold
      obtain ⟨addrs, haddrs, hpure⟩ := bind_eq_ok.1 hnext
      cases hpure
      obtain ⟨hlisted, hmem, hsub⟩ :=
        hstart.foldl_addSigner fun a ha => readable_msgGetSigners hone haddrs ha
      obtain ⟨hacc, hsub', hmsgs⟩ := ih _ hlisted hrest
      refine ⟨hacc, List.Subset.trans hsub hsub', fun m hm => ?_⟩
      rcases List.mem_cons.1 hm with rfl | hm
      · exact ⟨addrs, haddrs, List.Subset.trans hmem hsub'⟩
      · exact hmsgs m hm

/-- The signers of a transaction: those of its messages, and the payer of its fee. -/
theorem getSigners_spec (hone : OneBech32 app) {tx : Tx K M} {signers : List AccAddress}
    (h : getSigners app tx = .ok signers) :
    (∀ msg ∈ tx.messages, ∃ addrs, msgGetSigners app msg = .ok addrs ∧ addrs ⊆ signers) ∧
    (∀ payer, feePayer app tx = .ok payer → payer ∈ signers) ∧
    ∀ addr, signers.count addr ≤ 2 := by
  obtain ⟨⟨listed, seen⟩, hmsgs, hrest⟩ := bind_eq_ok.1 h
  obtain ⟨hlisted, hsigners⟩ := listed_msgSigners hone hmsgs
  have hcount := fun addr => List.nodup_iff_count_le_one.1 hlisted.nodup addr
  dsimp only at hrest
  split at hrest
  · rename_i hpayer
    obtain ⟨payerAddr, hread, hpure⟩ := bind_eq_ok.1 hrest
    cases hpure
    refine ⟨fun msg hmsg => ?_, fun payer hpays => ?_, fun addr => ?_⟩
    · obtain ⟨addrs, haddrs, hsub⟩ := hsigners msg hmsg
      exact ⟨addrs, haddrs, List.Subset.trans hsub (List.subset_append_left _ _)⟩
    · rw [feePayer, if_pos hpayer.1, hread] at hpays
      cases hpays
      simp
    · rw [List.count_append]
      have := hcount addr
      have := List.count_le_length (a := addr) (l := [payerAddr])
      simp only [List.length_singleton] at this
      dsimp only at *
      omega
  · rename_i hpayer
    cases hrest
    refine ⟨hsigners, fun payer hpays => ?_, fun addr => (hcount addr).trans (by omega)⟩
    by_cases hset : tx.fee.payer = []
    · rw [feePayer, if_neg (not_not.2 hset), h, ok_bind, orFail_eq_ok] at hpays
      exact List.mem_of_mem_head? hpays
    · -- the payer is named by a text that was seen
      have hseen : tx.fee.payer ∈ seen := not_not.1 fun hnot => hpayer ⟨hset, hnot⟩
      rw [feePayer, if_pos hset, panicOnErr_eq_ok] at hpays
      exact hlisted.mem_of_seen hpays hseen

theorem gasLimit_of_validateBasic {tx : Tx K M} (h : validateBasic app tx = .ok ()) :
    tx.fee.gasLimit.toNat < 2 ^ 63 := by
  rw [validateBasic, require_bind_eq_ok, maxGasWanted] at h
  omega

/-- A transaction that passes `ValidateBasic` has as many signatures as signers, and so a signer. -/
theorem signers_ne_nil {tx : Tx K M} {signers : List AccAddress} (h : validateBasic app tx = .ok ())
    (hsigners : getSigners app tx = .ok signers) : signers ≠ [] := by
  have hcounted : tx.signatures ≠ [] ∧ tx.signatures.length = signers.length := by
    rw [validateBasic, require_bind_eq_ok, require_bind_eq_ok, hsigners] at h
    obtain ⟨-, -, h⟩ := h
    split at h
    · obtain ⟨_, _, hrest⟩ := bind_eq_ok.1 h
      simpa using hrest
    · simpa using h
  rintro rfl
  exact hcounted.1 (List.length_eq_zero_iff.1 hcounted.2)

end

end EnergyChain.Auth
