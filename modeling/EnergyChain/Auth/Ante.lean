import EnergyChain.Auth.Tx
import EnergyChain.Sdk.GasPrices

/-!
# The ante handler

Before the messages of a transaction run, a chain of decorators checks the transaction, takes its fee,
stores the keys of its signers, verifies their signatures and raises their sequences. Every decorator may
fail, and a transaction whose ante handler fails leaves the state as it was.

The state is that of the application with the accounts over it. Public keys, signatures and fee allowances
are types of their own; what the handler asks of them is in `HandlerOptions`. Gas is not counted: the
decorators that run out of it are an argument.

Whatever a decorator does to the accounts, it never takes one away, changes its number or replaces its key;
a key that is stored belongs to the address (`Advances`). An accepted transaction has a signature of each
signer, valid for the key and the sequence that the account has (`anteHandler_spec`).
-/

set_option autoImplicit false

namespace EnergyChain.Auth

open EnergyChain.Go
open EnergyChain.Sdk
open EnergyChain.Bank (Context sendCoins)
open EnergyChain.App (SimApp Msg)

/-! ## The state -/

/-- `BaseAccount` or `ModuleAccount`, without its address. -/
structure Account (K : Type) where
  pubKey : Option K
  accountNumber : UInt64
  sequence : UInt64
  isModule : Bool

/-- The application with its accounts and fee allowances. -/
structure State (V K F : Type) where
  app : App.State V
  accounts : AccAddress → Option (Account K)
  nextAccountNumber : UInt64
  allowances : F

section

variable {V K F : Type}

/-- `SetAccount`. -/
def State.setAccount (s : State V K F) (addr : AccAddress) (acc : Account K) : State V K F :=
  { s with accounts := Function.update s.accounts addr (some acc) }

/-- `NewAccount` and `SetAccount`, if the address has no account: one without a key, with the next
number. -/
def State.openAccount (s : State V K F) (addr : AccAddress) (isModule : Bool) : State V K F :=
  match s.accounts addr with
  | some _ => s
  | none =>
      { s.setAccount addr ⟨none, s.nextAccountNumber, 0, isModule⟩ with
        nextAccountNumber := s.nextAccountNumber + 1 }

/-- `GetModuleAccount`. -/
def State.getModuleAccount (s : State V K F) (addr : AccAddress) : Outcome (State V K F) := do
  require ((s.accounts addr).all (·.isModule) = true) (.panic (bytes "account is not a module account"))
  return s.openAccount addr true

end

/-! ## What the handler uses -/

/-- `SignatureV2`. -/
structure SignatureV2 (K D : Type) where
  pubKey : Option K
  data : Option D
  sequence : UInt64

/-- `SignerData`: what a signature is bound to besides the transaction. -/
structure SignerData where
  chainID : GoString
  accountNumber : UInt64
  sequence : UInt64
  deriving DecidableEq

/-- The keepers and the signature scheme. -/
structure HandlerOptions (V K M D F : Type) where
  app : SimApp V
  /-- `GetModuleAddress(FeeCollectorName)` -/
  feeCollector : Option AccAddress
  /-- `UseGrantedFees` of granter, grantee, fee and messages -/
  useGrantedFees : Context → F → AccAddress → AccAddress → List Coin → List Msg → Outcome F
  /-- `PubKey.Address` -/
  address : K → AccAddress
  simSecp256k1Pubkey : K
  /-- `CountSubKeys` of a key -/
  countSubKeys : K → Nat
  /-- `ModeInfoAndSigToSignatureData` -/
  signatureData : M → GoString → Outcome D
  /-- `signatureDataToBz` -/
  signatureDataToBz : D → Outcome (List GoString)
  sigGasConsumer : SignatureV2 K D → Outcome Unit
  verifySignature : K → SignerData → Option D → Tx K M → Outcome Unit
  onlyLegacyAminoSigners : Option D → Bool
  /-- the accounts that a message opens if they are missing, such as those of recipients, and whether they
  are accounts of modules -/
  openedBy : Context → App.State V → Msg → List (AccAddress × Bool)
  maxMemoCharacters : UInt64
  txSigLimit : UInt64

/-- What the handler reads of the `sdk.Context`. -/
structure TxContext where
  block : Context
  chainID : GoString
  isCheckTx : Bool
  isReCheckTx : Bool
  minGasPrices : GasPrices

/-- The decorators of `NewAnteHandler`. -/
inductive Decorator where
  | setUpContext
  | rejectExtensionOptions
  | mempoolFee
  | validateBasic
  | txTimeoutHeight
  | validateMemo
  | consumeGasForTxSize
  | deductFee
  | setPubKey
  | validateSigCount
  | sigGasConsume
  | sigVerification
  | incrementSequence
  deriving DecidableEq, Repr

/-- Their order. -/
def anteDecorators : List Decorator :=
  [.setUpContext, .rejectExtensionOptions, .mempoolFee, .validateBasic, .txTimeoutHeight, .validateMemo,
    .consumeGasForTxSize, .deductFee, .setPubKey, .validateSigCount, .sigGasConsume, .sigVerification,
    .incrementSequence]

/-- Where a gas meter runs out, if it does: the location, and the gas used by then. -/
abbrev GasFault := Option (GoString × Nat)

section

variable {V K M D F : Type} (o : HandlerOptions V K M D F) (ctx : TxContext) (simulate : Bool)
  (tx : Tx K M)

/-! ## Signers and signatures -/

/-- `GetSignaturesV2`. -/
def getSignaturesV2 : Outcome (List (SignatureV2 K D)) :=
  tx.signerInfos.zipIdx.mapM fun (si, i) =>
    match si.modeInfo with
    | none => return ⟨si.publicKey, none, 0⟩
    | some modeInfo => do
        let sig ← orFail indexOutOfRange tx.signatures[i]?
        let sigData ← o.signatureData modeInfo sig
        return ⟨si.publicKey, some sigData, si.sequence⟩

/-- `GetSignerAcc`. -/
def getSignerAcc (s : State V K F) (addr : AccAddress) : Outcome (Account K) :=
  orFail (.error (bytes "account " ++ (bech32 o.app).addrString addr ++
    bytes " does not exist: unknown address")) (s.accounts addr)

/-! ## Checks of the transaction alone -/

/-- `RejectExtensionOptionsDecorator`. -/
def rejectExtensionOptions : Outcome Unit :=
  require (tx.extensionOptions = 0) (.error (bytes "unknown extension options"))

/-- `MempoolFeeDecorator`. -/
def mempoolFee : Outcome Unit := do
  if ctx.isCheckTx ∧ ¬ simulate ∧ ctx.minGasPrices.prices ≠ [] then
    let required ← requiredFees tx.fee.gasLimit ctx.minGasPrices.prices
    let enough ← isAnyGTE tx.fee.amount required
    require (enough = true) (.error (bytes "insufficient fees; got: " ++ coinsString tx.fee.amount ++
      bytes " required: " ++ coinsString required ++ bytes ": insufficient fee"))

/-- `ValidateBasicDecorator`. -/
def validateBasicDecorator : Outcome Unit :=
  if ctx.isReCheckTx then return () else validateBasic o.app tx

/-- `TxTimeoutHeightDecorator`. -/
def txTimeoutHeight : Outcome Unit :=
  require (¬ (0 < tx.timeoutHeight ∧ tx.timeoutHeight < UInt64.ofInt ctx.block.blockHeight))
    (.error (bytes "block height: " ++ formatInt ctx.block.blockHeight ++ bytes ", timeout height: " ++
      formatNat tx.timeoutHeight.toNat ++ bytes ": tx timeout height"))

/-- `ValidateMemoDecorator`. -/
def validateMemo : Outcome Unit :=
  require (tx.memo.length ≤ o.maxMemoCharacters.toNat)
    (.error (bytes "maximum number of characters is " ++ formatNat o.maxMemoCharacters.toNat ++
      bytes " but received " ++ formatNat tx.memo.length ++ bytes " characters: memo too large"))

/-- `ConsumeGasForTxSizeDecorator`; a simulation also estimates the size of the signatures. -/
def consumeGasForTxSize : Outcome Unit := do
  if simulate then
    let _ ← getSignaturesV2 o tx
    let _ ← getSigners o.app tx

/-- `ValidateSigCountDecorator`: a key that is left out counts for one. -/
def validateSigCount : Outcome Unit := do
  let _ ← (tx.signerInfos.map (·.publicKey)).foldlM (fun sigCount pk => do
    let sigCount := sigCount + (match pk with
      | none => 1
      | some pk => o.countSubKeys pk)
    require (sigCount ≤ o.txSigLimit.toNat) (.error (bytes "signatures: " ++ formatNat sigCount ++
      bytes ", limit: " ++ formatNat o.txSigLimit.toNat ++
      bytes ": maximum number of signatures exceeded"))
    return sigCount) 0

/-! ## The fee -/

/-- `DeductFees`. -/
def deductFees (collector payer : AccAddress) (fees : List Coin) (s : State V K F) :
    Outcome (State V K F) := do
  require (coinsIsValid fees = true)
    (.error (bytes "invalid fee amount: " ++ coinsString fees ++ bytes ": insufficient fee"))
  let s ← s.getModuleAccount collector
  let bank ← mapErr (· ++ bytes ": insufficient funds")
    (sendCoins o.app.rewardKeeper.bankKeeper ctx.block payer collector fees s.app.bank)
  return { s with app := { s.app with bank := bank } }

/-- The account that the fee is taken from: the granter, who has to allow it, or else the payer. -/
def feeSource (s : State V K F) : Outcome (State V K F × AccAddress) := do
  let payer ← feePayer o.app tx
  let granter ← feeGranter o.app tx
  match granter with
  | none => return (s, payer)
  | some granter =>
      if granter = payer then return (s, granter)
      else do
        let allowances ← mapErr (fun err => (bech32 o.app).addrString granter ++
            bytes " not allowed to pay fees from " ++ (bech32 o.app).addrString payer ++ bytes ": " ++ err)
          (o.useGrantedFees ctx.block s.allowances granter payer tx.fee.amount tx.messages)
        return ({ s with allowances := allowances }, granter)

/-- `DeductFeeDecorator`. -/
def deductFee (s : State V K F) : Outcome (State V K F) := do
  let collector ← orFail
    (.error (bytes "Fee collector module account (fee_collector) has not been set")) o.feeCollector
  let (s, source) ← feeSource o ctx tx s
  let _ ← orFail (.error (bytes "fee payer address: " ++ (bech32 o.app).addrString source ++
    bytes " does not exist: unknown address")) (s.accounts source)
  if coinsIsZero tx.fee.amount then return s
  else deductFees o ctx collector source tx.fee.amount s

/-! ## Keys, signatures and sequences -/

/-- One turn of the loop of `SetPubKeyDecorator`. -/
def setSignerPubKey (signers : List AccAddress) (s : State V K F) (entry : Option K × Nat) :
    Outcome (State V K F) :=
  match if simulate then some (entry.1.getD o.simSecp256k1Pubkey) else entry.1 with
  -- the key is left out, as the account has it already
  | none => return s
  | some pk => do
      let signer ← orFail indexOutOfRange signers[entry.2]?
      require (simulate = true ∨ o.address pk = signer)
        (.error (bytes "pubKey does not match signer address " ++ (bech32 o.app).addrString signer ++
          bytes " with signer index: " ++ formatNat entry.2 ++ bytes ": invalid pubkey"))
      let acc ← getSignerAcc o s signer
      match acc.pubKey with
      | some _ => return s
      | none => do
          require (acc.isModule = false)
            (.error (bytes "not supported for module accounts: invalid pubkey"))
          return s.setAccount signer { acc with pubKey := some pk }

/-- `SetPubKeyDecorator`; the signatures are looked at for its events. -/
def setPubKey (s : State V K F) : Outcome (State V K F) := do
  let signers ← getSigners o.app tx
  let s ← (tx.signerInfos.map (·.publicKey)).zipIdx.foldlM (setSignerPubKey o simulate signers) s
  let sigs ← getSignaturesV2 o tx
  sigs.zipIdx.forM fun (sig, i) => do
    let _ ← orFail indexOutOfRange signers[i]?
    let data ← orFail (.error (bytes "got empty SignatureData")) sig.data
    let _ ← o.signatureDataToBz data
  return s

/-- `SigGasConsumeDecorator`. -/
def sigGasConsume (s : State V K F) : Outcome Unit := do
  let sigs ← getSignaturesV2 o tx
  let signers ← getSigners o.app tx
  sigs.zipIdx.forM fun (sig, i) => do
    let signer ← orFail indexOutOfRange signers[i]?
    let acc ← getSignerAcc o s signer
    let pubKey := if simulate ∧ acc.pubKey.isNone then some o.simSecp256k1Pubkey else acc.pubKey
    o.sigGasConsumer { sig with pubKey := pubKey }

/-- The account number that is signed: zero in the genesis block. -/
def signedNumber (acc : Account K) : UInt64 :=
  if ctx.block.blockHeight = 0 then 0 else acc.accountNumber

/-- The error of a signature that does not verify. -/
def verificationFailed (acc : Account K) (data : Option D) : GoString :=
  bytes "signature verification failed; please verify account number (" ++
    formatNat (signedNumber ctx acc).toNat ++
    (if o.onlyLegacyAminoSigners data then
      bytes "), sequence (" ++ formatNat acc.sequence.toNat ++ bytes ") and chain-id ("
    else bytes ") and chain-id (") ++ ctx.chainID ++ bytes "): unauthorized"

/-- One turn of the loop of `SigVerificationDecorator`. -/
def verifySigner (s : State V K F) (signers : List AccAddress) (entry : SignatureV2 K D × Nat) :
    Outcome Unit := do
  let signer ← orFail indexOutOfRange signers[entry.2]?
  let acc ← getSignerAcc o s signer
  require (simulate = true ∨ acc.pubKey.isSome = true)
    (.error (bytes "pubkey on account is not set: invalid pubkey"))
  require (entry.1.sequence = acc.sequence)
    (.error (bytes "account sequence mismatch, expected " ++ formatNat acc.sequence.toNat ++
      bytes ", got " ++ formatNat entry.1.sequence.toNat ++ bytes ": incorrect account sequence"))
  match simulate, acc.pubKey with
  | false, some pubKey =>
      mapErr (fun _ => verificationFailed o ctx acc entry.1.data)
        (o.verifySignature pubKey ⟨ctx.chainID, signedNumber ctx acc, acc.sequence⟩ entry.1.data tx)
  | _, _ => return ()

/-- `SigVerificationDecorator`. -/
def sigVerification (s : State V K F) : Outcome Unit :=
  if ctx.isReCheckTx then return ()
  else do
    let sigs ← getSignaturesV2 o tx
    let signers ← getSigners o.app tx
    require (sigs.length = signers.length)
      (.error (bytes "invalid number of signer;  expected: " ++ formatNat signers.length ++
        bytes ", got " ++ formatNat sigs.length ++ bytes ": unauthorized"))
    sigs.zipIdx.forM (verifySigner o ctx simulate tx s signers)

/-- One turn of the loop of `IncrementSequenceDecorator`; an account that is missing is a nil pointer. -/
def increment (s : State V K F) (addr : AccAddress) : Outcome (State V K F) := do
  let acc ← orFail nilInt (s.accounts addr)
  return s.setAccount addr { acc with sequence := acc.sequence + 1 }

/-- `IncrementSequenceDecorator`. -/
def incrementSequence (s : State V K F) : Outcome (State V K F) := do
  let signers ← getSigners o.app tx
  signers.foldlM increment s

/-! ## The chain -/

/-- `AnteHandle` of a decorator, up to the call of the next one. -/
def anteHandle (s : State V K F) : Decorator → Outcome (State V K F)
  | .setUpContext => return s
  | .rejectExtensionOptions => do
      rejectExtensionOptions tx
      return s
  | .mempoolFee => do
      mempoolFee ctx simulate tx
      return s
  | .validateBasic => do
      validateBasicDecorator o ctx tx
      return s
  | .txTimeoutHeight => do
      txTimeoutHeight ctx tx
      return s
  | .validateMemo => do
      validateMemo o tx
      return s
  | .consumeGasForTxSize => do
      consumeGasForTxSize o simulate tx
      return s
  | .deductFee => deductFee o ctx tx s
  | .setPubKey => setPubKey o simulate tx s
  | .validateSigCount => do
      validateSigCount o tx
      return s
  | .sigGasConsume => do
      sigGasConsume o simulate tx s
      return s
  | .sigVerification => do
      sigVerification o ctx simulate tx s
      return s
  | .incrementSequence => incrementSequence o tx s

/-- The panic of a gas meter, which is recovered with an error. -/
def outOfGas (gas : GasFault) : Outcome Unit :=
  match gas with
  | none => return ()
  | some (location, gasUsed) =>
      fail (bytes "out of gas in location: " ++ location ++ bytes "; gasWanted: " ++
        formatNat tx.fee.gasLimit.toNat ++ bytes ", gasUsed: " ++ formatNat gasUsed ++
        bytes ": out of gas")

/-- The gas of the transaction: simulations and the genesis block have an infinite meter. -/
def consumeGas (gas : GasFault) : Outcome Unit :=
  if simulate ∨ ctx.block.blockHeight = 0 then return () else outOfGas tx gas

/-- The chain of decorators. -/
def anteHandler (gas : Decorator → GasFault) (s : State V K F) : Outcome (State V K F) :=
  anteDecorators.foldlM (fun s d => do
    consumeGas ctx simulate tx (gas d)
    anteHandle o ctx simulate tx s d) s

end

/-! ## What happens to the accounts -/

section

variable {V K F : Type}

/-- The number of the account, if there is one. -/
def State.numberOf (s : State V K F) (addr : AccAddress) : Option UInt64 :=
  (s.accounts addr).map (·.accountNumber)

/-- The sequence of the account; an account that is opened starts with zero. -/
def State.sequenceOf (s : State V K F) (addr : AccAddress) : UInt64 :=
  ((s.accounts addr).map (·.sequence)).getD 0

/-- The key of the account, if there is an account and it has a key. -/
def State.pubKeyOf (s : State V K F) (addr : AccAddress) : Option K :=
  (s.accounts addr).bind (·.pubKey)

/-- No account is lost or gets another number, the sequence of an address is raised by `n`, and a key is
kept or, if there was none, is a key of the address. -/
structure Advances (address : K → AccAddress) (n : AccAddress → Nat) (s s' : State V K F) : Prop where
  numbers : ∀ addr number, s.numberOf addr = some number → s'.numberOf addr = some number
  sequences : ∀ addr, s'.sequenceOf addr = s.sequenceOf addr + UInt64.ofNat (n addr)
  keys : ∀ addr, s'.pubKeyOf addr = s.pubKeyOf addr ∨
    ∃ pk, s.pubKeyOf addr = none ∧ s'.pubKeyOf addr = some pk ∧ address pk = addr

variable {address : K → AccAddress} {n m : AccAddress → Nat} {s s' t : State V K F}

theorem advances_of_accounts (h : s'.accounts = s.accounts) :
    Advances address (fun _ => 0) s s' where
  numbers addr number hnumber := by rw [State.numberOf, h, ← State.numberOf, hnumber]
  sequences addr := by rw [State.sequenceOf, h, ← State.sequenceOf]; simp
  keys addr := .inl (by rw [State.pubKeyOf, h, ← State.pubKeyOf])

/-- A key that is stored stays. -/
theorem Advances.pubKeyOf_eq (h : Advances address n s s') {addr : AccAddress} {pk : K}
    (hpk : s.pubKeyOf addr = some pk) : s'.pubKeyOf addr = some pk := by
  rcases h.keys addr with hsame | ⟨_, hnone, -⟩
  · exact hsame.trans hpk
  · rw [hpk] at hnone
    cases hnone

theorem Advances.trans (h : Advances address n s t) (h' : Advances address m t s') :
    Advances address (fun addr => n addr + m addr) s s' where
  numbers addr number hnumber := h'.numbers addr number (h.numbers addr number hnumber)
  sequences addr := by
    rw [h'.sequences, h.sequences, UInt64.ofNat_add, UInt64.add_assoc]
  keys addr := by
    rcases h.keys addr with hsame | ⟨pk, hnone, hsome, haddr⟩
    · rw [← hsame]
      exact h'.keys addr
    · exact .inr ⟨pk, hnone, h'.pubKeyOf_eq hsome, haddr⟩

/-- One account is written, with the number that it had and a key that it may have. -/
theorem advances_of_write {addr : AccAddress} {acc : Account K} {k : Nat}
    (hself : s'.accounts addr = some acc) (hother : ∀ a, a ≠ addr → s'.accounts a = s.accounts a)
    (hnumber : ∀ number, s.numberOf addr = some number → acc.accountNumber = number)
    (hsequence : acc.sequence = s.sequenceOf addr + UInt64.ofNat k)
    (hkey : acc.pubKey = s.pubKeyOf addr ∨
      ∃ pk, s.pubKeyOf addr = none ∧ acc.pubKey = some pk ∧ address pk = addr) :
    Advances address (fun a => if a = addr then k else 0) s s' where
  numbers a number h := by
    rcases eq_or_ne a addr with rfl | ha
    · rw [State.numberOf, hself, Option.map_some, hnumber number h]
    · rw [State.numberOf, hother a ha, ← State.numberOf, h]
  sequences a := by
    rcases eq_or_ne a addr with rfl | ha
    · rw [if_pos rfl, State.sequenceOf, hself, Option.map_some, Option.getD_some, hsequence]
    · rw [if_neg ha, State.sequenceOf, hother a ha, ← State.sequenceOf]
      simp
  keys a := by
    rcases eq_or_ne a addr with rfl | ha
    · have hnew : s'.pubKeyOf a = acc.pubKey := by rw [State.pubKeyOf, hself, Option.bind_some]
      rw [hnew]
      exact hkey
    · exact .inl (by rw [State.pubKeyOf, hother a ha, ← State.pubKeyOf])

theorem advances_openAccount (addr : AccAddress) (isModule : Bool) :
    Advances address (fun _ => 0) s (s.openAccount addr isModule) := by
  rw [State.openAccount]
  split
  · exact advances_of_accounts rfl
  · rename_i hnone
    have hopened : Advances address (fun a => if a = addr then 0 else 0) s
        { s.setAccount addr ⟨none, s.nextAccountNumber, 0, isModule⟩ with
          nextAccountNumber := s.nextAccountNumber + 1 } :=
      advances_of_write (Function.update_self ..) (fun a ha => Function.update_of_ne ha ..)
        (by simp [State.numberOf, hnone]) (by simp [State.sequenceOf, hnone])
        (.inl (by simp [State.pubKeyOf, hnone]))
    simpa using hopened

theorem advances_setAccount {addr : AccAddress} {acc : Account K} (acc' : Account K) (k : Nat)
    (hacc : s.accounts addr = some acc) (hnumber : acc'.accountNumber = acc.accountNumber)
    (hsequence : acc'.sequence = acc.sequence + UInt64.ofNat k)
    (hkey : acc'.pubKey = acc.pubKey ∨ ∃ pk, acc.pubKey = none ∧ acc'.pubKey = some pk ∧ address pk = addr) :
    Advances address (fun a => if a = addr then k else 0) s (s.setAccount addr acc') :=
  advances_of_write (Function.update_self ..) (fun a ha => Function.update_of_ne ha ..)
    (by simp [State.numberOf, hacc, hnumber]) (by simp [State.sequenceOf, hacc, hsequence])
    (by simpa [State.pubKeyOf, hacc] using hkey)

/-- Every stored key belongs to its address. -/
def KeysMatch (address : K → AccAddress) (s : State V K F) : Prop :=
  ∀ addr pk, s.pubKeyOf addr = some pk → address pk = addr

theorem Advances.keysMatch (h : Advances address n s s') (hs : KeysMatch address s) :
    KeysMatch address s' := by
  intro addr pk hpk
  rcases h.keys addr with hsame | ⟨pk', -, hsome, haddr⟩
  · exact hs addr pk (hsame.symm.trans hpk)
  · rw [hsome] at hpk
    cases hpk
    exact haddr

end

/-! ## The decorators that write -/

section

variable {V K M D F : Type} {o : HandlerOptions V K M D F} {ctx : TxContext} {tx : Tx K M}
  {s s' : State V K F}

theorem getModuleAccount_eq_ok {addr : AccAddress} (h : s.getModuleAccount addr = .ok s') :
    s' = s.openAccount addr true := by
  rw [State.getModuleAccount, require_bind_eq_ok, pure_eq_ok] at h
  exact h.2

/-- Who pays the fee: the payer, or a granter. A granter other than the payer has allowed it. -/
def Pays (o : HandlerOptions V K M D F) (ctx : TxContext) (tx : Tx K M) (allowances allowances' : F)
    (source : AccAddress) : Prop :=
  ∃ payer granter, feePayer o.app tx = .ok payer ∧ feeGranter o.app tx = .ok granter ∧
    source = granter.getD payer ∧
    (source ≠ payer → o.useGrantedFees ctx.block allowances source payer tx.fee.amount tx.messages =
      .ok allowances')

theorem feeSource_eq_ok {source : AccAddress} (h : feeSource o ctx tx s = .ok (s', source)) :
    s'.accounts = s.accounts ∧ s'.app = s.app ∧ Pays o ctx tx s.allowances s'.allowances source := by
  obtain ⟨payer, hpayer, h⟩ := bind_eq_ok.1 h
  obtain ⟨granter, hgranter, h⟩ := bind_eq_ok.1 h
  cases granter with
  | none =>
      cases h
      exact ⟨rfl, rfl, source, none, hpayer, hgranter, rfl, fun hne => absurd rfl hne⟩
  | some granter =>
      dsimp only at h
      split at h
      · rename_i hsame
        cases h
        exact ⟨rfl, rfl, payer, some source, hpayer, hgranter, rfl, fun hne => absurd hsame hne⟩
      · obtain ⟨allowances, hallowed, h⟩ := bind_eq_ok.1 h
        cases h
        exact ⟨rfl, rfl, payer, some source, hpayer, hgranter, rfl, fun _ => mapErr_eq_ok.1 hallowed⟩

/-- The fee as the application sees it: nothing, or a transfer to the collector. -/
structure FeePaid (o : HandlerOptions V K M D F) (ctx : TxContext) (tx : Tx K M) (s s' : State V K F)
    (collector source : AccAddress) : Prop where
  collects : o.feeCollector = some collector
  pays : Pays o ctx tx s.allowances s'.allowances source
  zero : coinsIsZero tx.fee.amount = true → s'.app = s.app
  valid : coinsIsZero tx.fee.amount = false → coinsIsValid tx.fee.amount = true
  sent : coinsIsZero tx.fee.amount = false → ∃ bank,
    sendCoins o.app.rewardKeeper.bankKeeper ctx.block source collector tx.fee.amount s.app.bank = .ok bank ∧
      s'.app = { s.app with bank := bank }

theorem FeePaid.of_eq {t : State V K F} {collector source : AccAddress}
    (h : FeePaid o ctx tx s t collector source) (happ : s'.app = t.app)
    (hallowances : s'.allowances = t.allowances) : FeePaid o ctx tx s s' collector source where
  collects := h.collects
  pays := hallowances ▸ h.pays
  zero hzero := happ.trans (h.zero hzero)
  valid := h.valid
  sent hzero := by
    obtain ⟨bank, hsent, hbank⟩ := h.sent hzero
    exact ⟨bank, hsent, happ.trans hbank⟩

theorem deductFee_spec (h : deductFee o ctx tx s = .ok s') :
    Advances o.address (fun _ => 0) s s' ∧ ∃ collector source, FeePaid o ctx tx s s' collector source := by
  obtain ⟨collector, hcollector, h⟩ := bind_eq_ok.1 h
  rw [orFail_eq_ok] at hcollector
  obtain ⟨⟨t, source⟩, hsource, h⟩ := bind_eq_ok.1 h
  obtain ⟨haccounts, happ, hpays⟩ := feeSource_eq_ok hsource
  obtain ⟨acc, -, h⟩ := bind_eq_ok.1 h
  have hadvances : Advances o.address (fun _ => 0) s t := advances_of_accounts haccounts
  split at h
  · rename_i hzero
    cases h
    exact ⟨hadvances, collector, source, hcollector, hpays, fun _ => happ, by simp [hzero],
      by simp [hzero]⟩
  · rename_i hzero
    rw [deductFees, require_bind_eq_ok] at h
    obtain ⟨hvalid, h⟩ := h
    obtain ⟨u, hu, h⟩ := bind_eq_ok.1 h
    obtain ⟨bank, hbank, h⟩ := bind_eq_ok.1 h
    cases h
    have hopen := getModuleAccount_eq_ok hu
    have happ' : u.app = t.app := by
      rw [hopen, State.openAccount]
      split <;> rfl
    have hallowances : u.allowances = t.allowances := by
      rw [hopen, State.openAccount]
      split <;> rfl
    rw [happ', happ, mapErr_eq_ok] at hbank
    refine ⟨?_, collector, source, hcollector, ?_, fun hz => absurd hz hzero, fun _ => hvalid, fun _ => ?_⟩
    · have hopened : Advances o.address (fun _ => 0) t u := hopen ▸ advances_openAccount collector true
      have hbanked : Advances o.address (fun _ => 0) u { u with app := { u.app with bank := bank } } :=
        advances_of_accounts rfl
      exact (hadvances.trans hopened).trans hbanked
    · rw [hallowances]
      exact hpays
    · exact ⟨bank, hbank, by rw [happ', happ]⟩

/-- The step only stores keys, of the addresses that they are stored for. -/
structure StoresKeys (o : HandlerOptions V K M D F) (s s' : State V K F) : Prop where
  advances : Advances o.address (fun _ => 0) s s'
  app : s'.app = s.app
  allowances : s'.allowances = s.allowances

theorem storesKeys_refl (s : State V K F) : StoresKeys o s s := ⟨advances_of_accounts rfl, rfl, rfl⟩

theorem StoresKeys.trans {t : State V K F} (h : StoresKeys o s t) (h' : StoresKeys o t s') :
    StoresKeys o s s' :=
  ⟨h.advances.trans h'.advances, h'.app.trans h.app, h'.allowances.trans h.allowances⟩

theorem storesKeys_setSignerPubKey {signers : List AccAddress} {entry : Option K × Nat}
    (h : setSignerPubKey o false signers s entry = .ok s') : StoresKeys o s s' := by
  obtain ⟨pk?, i⟩ := entry
  rw [setSignerPubKey, if_neg Bool.false_ne_true] at h
  cases pk? with
  | none =>
      cases h
      exact storesKeys_refl s
  | some pk =>
      obtain ⟨signer, -, h⟩ := bind_eq_ok.1 h
      rw [require_bind_eq_ok] at h
      obtain ⟨haddr, h⟩ := h
      obtain ⟨acc, hacc, h⟩ := bind_eq_ok.1 h
      rw [getSignerAcc, orFail_eq_ok] at hacc
      cases hkey : acc.pubKey with
      | some _ =>
          rw [hkey] at h
          cases h
          exact storesKeys_refl s
      | none =>
          rw [hkey, require_bind_eq_ok, pure_eq_ok] at h
          obtain ⟨-, rfl⟩ := h
          have haddr : o.address pk = signer := haddr.resolve_left nofun
          have hstored : Advances o.address (fun a => if a = signer then 0 else 0) s
              (s.setAccount signer { acc with pubKey := some pk }) :=
            advances_setAccount _ 0 hacc rfl (by simp) (.inr ⟨pk, hkey, rfl, haddr⟩)
          exact ⟨by simpa using hstored, rfl, rfl⟩

theorem setPubKey_spec (h : setPubKey o false tx s = .ok s') : StoresKeys o s s' := by
  obtain ⟨signers, -, h⟩ := bind_eq_ok.1 h
  obtain ⟨t, ht, h⟩ := bind_eq_ok.1 h
  obtain ⟨sigs, -, h⟩ := bind_eq_ok.1 h
  obtain ⟨-, -, h⟩ := bind_eq_ok.1 h
  cases h
  exact foldlM_rel storesKeys_refl (fun _ _ _ => StoresKeys.trans)
    (fun _ _ _ _ => storesKeys_setSignerPubKey) ht

/-- Every mention of a signer raises the sequence of its account. -/
theorem foldlM_increment (address : K → AccAddress) {signers : List AccAddress}
    (h : signers.foldlM increment s = .ok s') :
    Advances address (fun addr => signers.count addr) s s' ∧ s'.app = s.app ∧
      s'.allowances = s.allowances := by
  induction signers generalizing s with
  | nil =>
      cases h
      exact ⟨advances_of_accounts rfl, rfl, rfl⟩
  | cons signer signers ih =>
      rw [List.foldlM_cons] at h
      obtain ⟨t, ht, h⟩ := bind_eq_ok.1 h
      obtain ⟨hrest, happ, hallowances⟩ := ih h
      obtain ⟨acc, hacc, ht⟩ := bind_eq_ok.1 ht
      rw [orFail_eq_ok] at hacc
      cases ht
      have hfirst : Advances address (fun a => if a = signer then 1 else 0) s
          (s.setAccount signer { acc with sequence := acc.sequence + 1 }) :=
        advances_setAccount _ 1 hacc rfl rfl (.inl rfl)
      refine ⟨?_, happ, hallowances⟩
      convert hfirst.trans hrest using 2 with addr
      rw [List.count_cons, Nat.add_comm]
      simp only [beq_iff_eq, eq_comm (a := signer)]

/-! ## An accepted transaction -/

/-- The signatures of a transaction, one for each signer, valid for the account of the signer. -/
theorem sigVerification_spec (hctx : ctx.isReCheckTx = false)
    (h : sigVerification o ctx false tx s = .ok ()) :
    ∃ (sigs : List (SignatureV2 K D)) (signers : List AccAddress),
      getSignaturesV2 o tx = .ok sigs ∧ getSigners o.app tx = .ok signers ∧
      sigs.length = signers.length ∧ ∀ (i : Nat) (signer : AccAddress), signers[i]? = some signer →
        ∃ (sig : SignatureV2 K D) (acc : Account K) (pk : K),
          sigs[i]? = some sig ∧ s.accounts signer = some acc ∧ acc.pubKey = some pk ∧
          sig.sequence = acc.sequence ∧
          o.verifySignature pk ⟨ctx.chainID, signedNumber ctx acc, acc.sequence⟩ sig.data tx = .ok () := by
  rw [sigVerification, if_neg (by rw [hctx]; exact Bool.false_ne_true)] at h
  obtain ⟨sigs, hsigs, h⟩ := bind_eq_ok.1 h
  obtain ⟨signers, hsigners, h⟩ := bind_eq_ok.1 h
  rw [require_bind_eq_ok] at h
  obtain ⟨hlength, h⟩ := h
  refine ⟨sigs, signers, hsigs, hsigners, hlength, fun i signer hsigner => ?_⟩
  obtain ⟨hi, -⟩ := List.getElem?_eq_some_iff.1 hsigner
  have hsig : sigs[i]? = some sigs[i] := List.getElem?_eq_getElem (hlength ▸ hi)
  have hturn := forM_eq_ok.1 h (sigs[i], i) (List.mk_mem_zipIdx_iff_getElem?.2 hsig)
  rw [verifySigner] at hturn
  obtain ⟨signer', hsigner', hturn⟩ := bind_eq_ok.1 hturn
  rw [orFail_eq_ok, hsigner] at hsigner'
  cases hsigner'
  obtain ⟨acc, hacc, hturn⟩ := bind_eq_ok.1 hturn
  rw [getSignerAcc, orFail_eq_ok] at hacc
  rw [require_bind_eq_ok, require_bind_eq_ok] at hturn
  obtain ⟨hkey, hsequence, hturn⟩ := hturn
  obtain ⟨pk, hpk⟩ := Option.isSome_iff_exists.1 (hkey.resolve_left nofun)
  rw [hpk] at hturn
  exact ⟨sigs[i], acc, pk, hsig, hacc, hpk, hsequence, mapErr_eq_ok.1 hturn⟩

/-- A chain that ends well: there is gas for it, every check passes, and the three decorators that write
follow each other. -/
structure Passed (o : HandlerOptions V K M D F) (ctx : TxContext) (simulate : Bool) (tx : Tx K M)
    (gas : Decorator → GasFault) (s paid keyed s' : State V K F) : Prop where
  gas : ∀ d, consumeGas ctx simulate tx (gas d) = .ok ()
  extensions : rejectExtensionOptions tx = .ok ()
  minimumFee : mempoolFee ctx simulate tx = .ok ()
  basic : validateBasicDecorator o ctx tx = .ok ()
  timeout : txTimeoutHeight ctx tx = .ok ()
  memo : validateMemo o tx = .ok ()
  txSize : consumeGasForTxSize o simulate tx = .ok ()
  fee : deductFee o ctx tx s = .ok paid
  keys : setPubKey o simulate tx paid = .ok keyed
  sigCount : validateSigCount o tx = .ok ()
  sigGas : sigGasConsume o simulate tx keyed = .ok ()
  verified : sigVerification o ctx simulate tx keyed = .ok ()
  incremented : incrementSequence o tx keyed = .ok s'

theorem anteHandler_eq_ok {simulate : Bool} {gas : Decorator → GasFault} :
    anteHandler o ctx simulate tx gas s = .ok s' ↔
      ∃ paid keyed, Passed o ctx simulate tx gas s paid keyed s' := by
  -- the checks return the state as it is, so the chain has two states between its ends
  simp only [anteHandler, anteDecorators, List.foldlM_cons, List.foldlM_nil, anteHandle, bind_assoc,
    pure_bind, bind_pure, bind_eq_ok, Unique.exists_iff, PUnit.default_eq_unit]
  constructor
  · rintro ⟨h₁, h₂, hextensions, h₃, hminimum, h₄, hbasic, h₅, htimeout, h₆, hmemo, h₇, hsize, h₈, paid,
      hfee, h₉, keyed, hkeys, h₁₀, hcount, h₁₁, hgas, h₁₂, hverified, h₁₃, hincremented⟩
    refine ⟨paid, keyed, fun d => ?_, hextensions, hminimum, hbasic, htimeout, hmemo, hsize, hfee, hkeys,
      hcount, hgas, hverified, hincremented⟩
    cases d <;> assumption
  · rintro ⟨paid, keyed, h⟩
    exact ⟨h.gas _, h.gas _, h.extensions, h.gas _, h.minimumFee, h.gas _, h.basic, h.gas _, h.timeout,
      h.gas _, h.memo, h.gas _, h.txSize, h.gas _, paid, h.fee, h.gas _, keyed, h.keys, h.gas _,
      h.sigCount, h.gas _, h.sigGas, h.gas _, h.verified, h.gas _, h.incremented⟩

/-- A transaction that passes the ante handler has a signature of each of its signers, valid for the key
and the sequence of the account. The sequences are raised, and the fee is paid. -/
theorem anteHandler_spec {gas : Decorator → GasFault} (hctx : ctx.isReCheckTx = false)
    (h : anteHandler o ctx false tx gas s = .ok s') :
    ∃ (sigs : List (SignatureV2 K D)) (signers : List AccAddress),
      getSignaturesV2 o tx = .ok sigs ∧ getSigners o.app tx = .ok signers ∧ signers ≠ [] ∧
      Advances o.address (fun addr => signers.count addr) s s' ∧
      (∀ (i : Nat) (signer : AccAddress), signers[i]? = some signer →
        ∃ (sig : SignatureV2 K D) (pk : K) (number : UInt64), sigs[i]? = some sig ∧
          s'.pubKeyOf signer = some pk ∧ s'.numberOf signer = some number ∧
          sig.sequence = s.sequenceOf signer ∧
          o.verifySignature pk
            ⟨ctx.chainID, if ctx.block.blockHeight = 0 then 0 else number, s.sequenceOf signer⟩
            sig.data tx = .ok ()) ∧
      ∃ collector source, FeePaid o ctx tx s s' collector source := by
  obtain ⟨paid, keyed, hpassed⟩ := anteHandler_eq_ok.1 h
  obtain ⟨hpaid, collector, source, hfee⟩ := deductFee_spec hpassed.fee
  have hkeyed := setPubKey_spec hpassed.keys
  obtain ⟨sigs, signers, hsigs, hsigners, hlength, hverified⟩ :=
    sigVerification_spec hctx hpassed.verified
  have hincremented := hpassed.incremented
  rw [incrementSequence, hsigners, ok_bind] at hincremented
  obtain ⟨hraised, happ, hallowances⟩ := foldlM_increment o.address hincremented
  have hbefore : Advances o.address (fun _ => 0) s keyed := hpaid.trans hkeyed.advances
  have hbasic := hpassed.basic
  rw [validateBasicDecorator, if_neg (by rw [hctx]; exact Bool.false_ne_true)] at hbasic
  refine ⟨sigs, signers, hsigs, hsigners, signers_ne_nil hbasic hsigners, ?_, ?_, collector, source, ?_⟩
  · simpa using hbefore.trans hraised
  · intro i signer hsigner
    obtain ⟨sig, acc, pk, hsig, hacc, hpk, hsequence, hvalid⟩ := hverified i signer hsigner
    have hseq : acc.sequence = s.sequenceOf signer := by
      have hsame := hbefore.sequences signer
      simpa [State.sequenceOf, hacc] using hsame
    have hkey : s'.pubKeyOf signer = some pk := by
      have hstored : keyed.pubKeyOf signer = some pk := by rw [State.pubKeyOf, hacc, Option.bind_some, hpk]
      exact hraised.pubKeyOf_eq hstored
    have hnumber : s'.numberOf signer = some acc.accountNumber :=
      hraised.numbers signer _ (by rw [State.numberOf, hacc]; rfl)
    rw [hseq] at hsequence hvalid
    exact ⟨sig, pk, acc.accountNumber, hsig, hkey, hnumber, hsequence, hvalid⟩
  · exact hfee.of_eq (happ.trans hkeyed.app) (hallowances.trans hkeyed.allowances)

end

/-! ## A small chain -/

/-- The account of the fee collector. -/
def collectorAddr : AccAddress := List.replicate 20 7

/-- The signature of a key: the key, and what it is bound to. -/
def smallSignature (pubKey : AccAddress) (data : SignerData) : GoString :=
  pubKey ++ data.chainID ++ formatNat data.accountNumber.toNat ++ bytes "/" ++ formatNat data.sequence.toNat

/-- The small application. A key is given by its address, and nobody grants fees. -/
def smallOptions : HandlerOptions Reward.Document AccAddress Unit GoString Unit where
  app := App.smallApp
  feeCollector := some collectorAddr
  useGrantedFees _ _ _ _ _ _ := fail (bytes "fee-grant not found")
  address := id
  simSecp256k1Pubkey := []
  countSubKeys _ := 1
  signatureData _ sig := .ok sig
  signatureDataToBz data := .ok [data]
  sigGasConsumer _ := .ok ()
  verifySignature pubKey data sig _ :=
    require (sig = some (smallSignature pubKey data))
      (.error (bytes "unable to verify single signer signature"))
  onlyLegacyAminoSigners _ := false
  openedBy _ _ _ := []
  maxMemoCharacters := 256
  txSigLimit := 7

/-- Accounts of alice and mallory, without keys yet. -/
def smallState (bank : Bank.BankState) : State Reward.Document AccAddress Unit where
  app := App.genesis bank
  accounts addr :=
    if addr = Reward.aliceAddr then some ⟨none, 0, 0, false⟩
    else if addr = Reward.malloryAddr then some ⟨none, 1, 0, false⟩
    else none
  nextAccountNumber := 2
  allowances := ()

/-- A transaction of alice with her signature for a sequence. -/
def aliceTx (sequence : UInt64) (fee : List Coin) (msg : Msg) : Tx AccAddress Unit where
  messages := [msg]
  memo := []
  timeoutHeight := 0
  extensionOptions := 0
  signerInfos := [⟨some Reward.aliceAddr, some (), sequence⟩]
  fee := ⟨fee, 200000, [], []⟩
  signatures := [smallSignature Reward.aliceAddr ⟨bytes "energy", 0, sequence⟩]

theorem smallState_keysMatch (bank : Bank.BankState) : KeysMatch smallOptions.address (smallState bank) := by
  intro addr pk hpk
  rw [State.pubKeyOf, smallState] at hpk
  dsimp only at hpk
  split at hpk
  · cases hpk
  · split at hpk
    · cases hpk
    · cases hpk

theorem smallApp_oneBech32 : OneBech32 App.smallApp where
  lightTx := rfl
  mapping := rfl
  readBack text addr h := by
    rw [accAddressFromBech32, require_bind_eq_ok] at h
    obtain ⟨-, h⟩ := h
    -- the library decodes three texts
    by_cases halice : text = Reward.alice
    · subst halice
      cases h
      decide +kernel
    by_cases hmallory : text = Reward.mallory
    · subst hmallory
      cases h
      decide +kernel
    by_cases hreward : text = Reward.rewardAccount
    · subst hreward
      cases h
      decide +kernel
    have hfails : (bech32 App.smallApp).decodeAndConvert text = .error (bytes "decoding bech32 failed") := by
      change (if text = Reward.alice then _ else _) = _
      rw [if_neg halice, if_neg hmallory, if_neg hreward]
    rw [hfails] at h
    cases h

end EnergyChain.Auth
