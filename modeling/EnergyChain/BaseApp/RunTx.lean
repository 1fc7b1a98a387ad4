import EnergyChain.Auth.Ante
import EnergyChain.Reward.Custody

/-!
# Transactions of a block

`runTx` in a block: the messages are validated, the ante handler runs on a branch, and then all messages
run on another one. A transaction that is refused before or by the ante handler changes nothing; one whose
messages fail keeps what the ante handler did, and no more.

So in every run the sequence of an account counts the accepted transactions that it signed
(`sequences_count`), and a transaction that was accepted is refused from then on, until the sequences could
have wrapped around (`replay_refused`). A transaction that changes the state is signed, with keys of the addresses, by
all that its messages name as their signers (`changed_only_if_signed`).

On the stores and the bank, a run is a run of the application in which every message has passed its
`ValidateBasic` and fees are paid in between (`run_app`).
-/

set_option autoImplicit false

namespace EnergyChain.BaseApp

open EnergyChain.Go
open EnergyChain.Sdk
open EnergyChain.Auth
open EnergyChain.Bank (Context sendCoins)
open EnergyChain.App (Msg)
open EnergyChain.Reward (Event)

/-! ## The phases -/

/-- A transaction on a state: the ante handler, and the messages. -/
structure Phases (σ ε α : Type) where
  ante : σ → Except ε σ
  msgs : σ → Except ε (σ × α)

/-- The two phases in a block, each with all of its effects or none. -/
def Phases.deliver {σ ε α : Type} (p : Phases σ ε α) (s : σ) : σ × Except ε (Option α) :=
  match p.ante s with
  | .error err => (s, .error err)
  | .ok s =>
      match p.msgs s with
      | .error err => (s, .error err)
      | .ok (s', a) => (s', .ok (some a))

/-- Where the meters of the transaction and of the block run out. -/
structure GasScript where
  /-- `ctx.BlockGasMeter().IsOutOfGas()` -/
  blockOutOfGas : Bool
  ante : Decorator → GasFault
  msgs : Nat → GasFault
  /-- the error of the meter of the block, if the gas of the transaction is too much for it -/
  block : Option GoString

/-- A transaction in its block. -/
structure Delivery (K M : Type) where
  block : Context
  chainID : GoString
  minGasPrices : GasPrices
  tx : Tx K M
  gas : GasScript

/-- The context of `DeliverTx`. -/
def Delivery.ctx {K M : Type} (d : Delivery K M) : TxContext where
  block := d.block
  chainID := d.chainID
  isCheckTx := false
  isReCheckTx := false
  minGasPrices := d.minGasPrices

section

variable {V K M D F : Type} (o : HandlerOptions V K M D F) (d : Delivery K M)

/-- A message of the transaction, with its index. -/
def runMsg (s : State V K F) (entry : Msg × Nat) : Outcome (State V K F × List Event) := do
  consumeGas d.ctx false d.tx (d.gas.msgs entry.2)
  let (app, events) ← mapErr (fun err => bytes "failed to execute message; message index: " ++
    formatNat entry.2 ++ bytes ": " ++ err) (App.handle o.app d.block s.app entry.1)
  let opened := (o.openedBy d.block s.app entry.1).foldl (fun s a => s.openAccount a.1 a.2) s
  return ({ opened with app := app }, events)

/-- One turn of the loop of `runMsgs`, which collects the events. -/
def runMsgsTurn (acc : State V K F × List (List Event)) (entry : Msg × Nat) :
    Outcome (State V K F × List (List Event)) := do
  let (s, events) ← runMsg o d acc.1 entry
  return (s, acc.2 ++ [events])

/-- `runMsgs`. -/
def runMsgs (s : State V K F) : Outcome (State V K F × List (List Event)) :=
  d.tx.messages.zipIdx.foldlM (runMsgsTurn o d) (s, [])

/-- `consumeBlockGas`; the panic of the meter is recovered with an error. -/
def Delivery.consumeBlockGas : Outcome Unit :=
  match d.gas.block with
  | none => return ()
  | some text => fail text

/-- The deferred `consumeBlockGas`: a transaction that fails uses gas of the block as well, and the error of
the meter takes the place of its own. -/
def Delivery.deferBlockGas {α : Type} : Outcome α → Outcome α
  | .ok a => .ok a
  | .error fault => do
      d.consumeBlockGas
      .error fault

/-- `runTx` in a block. -/
def deliverPhases : Phases (State V K F) Fault (List (List Event)) where
  ante s := do
    require (d.gas.blockOutOfGas = false) (.error (bytes "no block gas left to run tx: out of gas"))
    d.deferBlockGas do
      validateBasicTxMsgs o.app d.tx.messages
      anteHandler o d.ctx false d.tx d.gas.ante s
  msgs s := do
    let (s, events) ← d.deferBlockGas (runMsgs o d s)
    d.consumeBlockGas
    return (s, events)

/-- The state after a transaction of a block. -/
def deliverTx (s : State V K F) (d : Delivery K M) : State V K F := ((deliverPhases o d).deliver s).1

/-- The ante handler accepts the transaction. -/
def accepts (s : State V K F) (d : Delivery K M) : Bool := ((deliverPhases o d).ante s).isOk

end

/-- A transaction of alice in a block, with gas enough. -/
def aliceDelivery (height : Int) (sequence : UInt64) (fee : List Coin) (msg : Msg) :
    Delivery AccAddress Unit where
  block := Reward.smallCtx height
  chainID := bytes "energy"
  minGasPrices := .none
  tx := aliceTx sequence fee msg
  gas := ⟨false, fun _ => none, fun _ => none, none⟩

/-- Alice registers a device. -/
def registerRoof : Msg := .registerDevice ⟨Reward.alice, bytes "roof", Reward.alice⟩

/-! ## What a transaction can do -/

section

variable {V K M D F : Type} {o : HandlerOptions V K M D F} {d : Delivery K M} {s s' : State V K F}

@[simp]
theorem deferBlockGas_eq_ok {α : Type} {x : Outcome α} {a : α} : d.deferBlockGas x = .ok a ↔ x = .ok a := by
  cases x with
  | ok b => rfl
  | error fault =>
      rw [Delivery.deferBlockGas, Delivery.consumeBlockGas]
      cases d.gas.block <;> exact ⟨nofun, nofun⟩

theorem ante_eq_ok : (deliverPhases o d).ante s = .ok s' ↔
    d.gas.blockOutOfGas = false ∧ validateBasicTxMsgs o.app d.tx.messages = .ok () ∧
      anteHandler o d.ctx false d.tx d.gas.ante s = .ok s' := by
  rw [deliverPhases, require_bind_eq_ok, deferBlockGas_eq_ok, bind_eq_ok]
  constructor
  · rintro ⟨hgas, _, hvalid, hante⟩
    exact ⟨hgas, hvalid, hante⟩
  · rintro ⟨hgas, hvalid, hante⟩
    exact ⟨hgas, _, hvalid, hante⟩

/-- Every message of an accepted transaction has passed its check. -/
theorem msgValidateBasic_of_validateBasicTxMsgs {msgs : List Msg}
    (h : validateBasicTxMsgs o.app msgs = .ok ()) : ∀ msg ∈ msgs, msgValidateBasic o.app msg = .ok () := by
  rw [validateBasicTxMsgs, require_bind_eq_ok] at h
  exact forM_eq_ok.1 h.2

/-- What a transaction leaves: the old state, the state of the ante handler, or that of the messages. -/
inductive Delivered (o : HandlerOptions V K M D F) (d : Delivery K M) (s : State V K F) :
    State V K F → Prop where
  | refused (h : accepts o s d = false) : Delivered o d s s
  | failed {s' : State V K F} (h : (deliverPhases o d).ante s = .ok s') : Delivered o d s s'
  | executed {s₁ s' : State V K F} {events : List (List Event)}
      (h : (deliverPhases o d).ante s = .ok s₁) (hruns : runMsgs o d s₁ = .ok (s', events)) :
      Delivered o d s s'

theorem delivered_deliverTx (o : HandlerOptions V K M D F) (s : State V K F) (d : Delivery K M) :
    Delivered o d s (deliverTx o s d) := by
  rw [deliverTx, Phases.deliver]
  cases hante : (deliverPhases o d).ante s with
  | error fault => exact .refused (by rw [accepts, hante]; rfl)
  | ok s₁ =>
      dsimp only
      cases hmsgs : (deliverPhases o d).msgs s₁ with
      | error fault => exact .failed hante
      | ok p =>
          obtain ⟨⟨s', events⟩, hruns, hrest⟩ := bind_eq_ok.1 hmsgs
          obtain ⟨-, -, hpure⟩ := bind_eq_ok.1 hrest
          cases hpure
          exact .executed hante (deferBlockGas_eq_ok.1 hruns)

/-! ## Accounts -/

/-- The signers of a transaction, and none if they cannot be read. -/
def signersOf (o : HandlerOptions V K M D F) (tx : Tx K M) : List AccAddress :=
  (getSigners o.app tx).toOption.getD []

/-- How far a transaction raises the sequence of an address. -/
def raises (o : HandlerOptions V K M D F) (addr : AccAddress) (s : State V K F) (d : Delivery K M) : Nat :=
  if accepts o s d then (signersOf o d.tx).count addr else 0

theorem accepts_iff : accepts o s d = true ↔ ∃ s', (deliverPhases o d).ante s = .ok s' := isOk_iff

/-- The ante handler of an accepted transaction raises the sequences of the signers. -/
theorem advances_ante (h : (deliverPhases o d).ante s = .ok s') :
    Advances o.address (fun addr => raises o addr s d) s s' := by
  obtain ⟨-, -, hante⟩ := ante_eq_ok.1 h
  obtain ⟨-, signers, -, hsigners, -, hadvances, -⟩ := anteHandler_spec rfl hante
  have hraises : (fun addr => raises o addr s d) = fun addr => signers.count addr := by
    funext addr
    rw [raises, if_pos (accepts_iff.2 ⟨s', h⟩), signersOf, hsigners]
    rfl
  rw [hraises]
  exact hadvances

theorem advances_foldl_openAccount {address : K → AccAddress} (l : List (AccAddress × Bool)) :
    Advances address (fun _ => 0) s (l.foldl (fun s a => s.openAccount a.1 a.2) s) := by
  induction l generalizing s with
  | nil => exact advances_of_accounts rfl
  | cons a l ih => exact (advances_openAccount a.1 a.2).trans ih

theorem advances_runMsg {entry : Msg × Nat} {events : List Event}
    (h : runMsg o d s entry = .ok (s', events)) : Advances o.address (fun _ => 0) s s' := by
  obtain ⟨-, -, h⟩ := bind_eq_ok.1 h
  obtain ⟨⟨app, events⟩, -, h⟩ := bind_eq_ok.1 h
  cases h
  have hopened : Advances o.address (fun _ => 0) s _ :=
    advances_foldl_openAccount (o.openedBy d.block s.app entry.1)
  exact ⟨hopened.numbers, hopened.sequences, hopened.keys⟩

/-- The messages open accounts, and leave those that are there. -/
theorem advances_runMsgs {events : List (List Event)} (h : runMsgs o d s = .ok (s', events)) :
    Advances o.address (fun _ => 0) s s' :=
  foldlM_rel (R := fun p q => Advances o.address (fun _ => 0) p.1 q.1)
    (fun _ => advances_of_accounts rfl) (fun _ _ _ h h' => h.trans h')
    (fun p entry _ q hq => by
      obtain ⟨⟨t, events⟩, hrun, hpure⟩ := bind_eq_ok.1 hq
      cases hpure
      exact advances_runMsg hrun) h

theorem advances_deliverTx (o : HandlerOptions V K M D F) (s : State V K F) (d : Delivery K M) :
    Advances o.address (fun addr => raises o addr s d) s (deliverTx o s d) := by
  generalize hs' : deliverTx o s d = s'
  cases hs' ▸ delivered_deliverTx o s d with
  | refused h =>
      have hraises : (fun addr => raises o addr s d) = fun _ => 0 := by
        funext addr
        rw [raises, h]
        rfl
      rw [hraises]
      exact advances_of_accounts rfl
  | failed h => exact advances_ante h
  | executed h hruns => exact (advances_ante h).trans (advances_runMsgs hruns)

/-- Over a run the sequences count what the transactions raise. -/
theorem advances_run (s : State V K F) (ds : List (Delivery K M)) :
    Advances o.address (fun addr => (trace (deliverTx o) (raises o addr) s ds).sum) s
      (run (deliverTx o) s ds) := by
  induction ds generalizing s with
  | nil => exact advances_of_accounts rfl
  | cons d ds ih => exact (advances_deliverTx o s d).trans (ih (deliverTx o s d))

/-! ## Signatures -/

/-- The transaction has a signature that a key of the address verifies, for the chain and the present
sequence of the address. -/
def SignedBy (o : HandlerOptions V K M D F) (s : State V K F) (d : Delivery K M) (addr : AccAddress) :
    Prop :=
  ∃ (sigs : List (SignatureV2 K D)) (sig : SignatureV2 K D) (pk : K) (number : UInt64),
    getSignaturesV2 o d.tx = .ok sigs ∧ sig ∈ sigs ∧ o.address pk = addr ∧
    sig.sequence = s.sequenceOf addr ∧
    o.verifySignature pk ⟨d.chainID, number, s.sequenceOf addr⟩ sig.data d.tx = .ok ()

/-- All signers of an accepted transaction have signed it. -/
theorem signedBy_of_ante (hkeys : KeysMatch o.address s) (h : (deliverPhases o d).ante s = .ok s') :
    ∃ signers, getSigners o.app d.tx = .ok signers ∧ signers ≠ [] ∧ ∀ addr ∈ signers, SignedBy o s d addr := by
  obtain ⟨-, -, hante⟩ := ante_eq_ok.1 h
  obtain ⟨sigs, signers, hsigs, hsigners, hne, hadvances, hsigned, -⟩ := anteHandler_spec rfl hante
  refine ⟨signers, hsigners, hne, fun addr haddr => ?_⟩
  obtain ⟨i, hi⟩ := List.getElem?_of_mem haddr
  obtain ⟨sig, pk, number, hsig, hpk, -, hsequence, hvalid⟩ := hsigned i addr hi
  exact ⟨sigs, sig, pk, _, hsigs, List.mem_of_getElem? hsig, hadvances.keysMatch hkeys addr pk hpk,
    hsequence, hvalid⟩

theorem keysMatch_run (hkeys : KeysMatch o.address s) (ds : List (Delivery K M)) :
    KeysMatch o.address (run (deliverTx o) s ds) := (advances_run s ds).keysMatch hkeys

/-- A transaction that changes the state was accepted. -/
theorem accepted_of_ne (h : deliverTx o s d ≠ s) : ∃ s', (deliverPhases o d).ante s = .ok s' := by
  generalize hs' : deliverTx o s d = s' at h
  cases hs' ▸ delivered_deliverTx o s d with
  | refused _ => exact absurd rfl h
  | failed hante => exact ⟨_, hante⟩
  | executed hante _ => exact ⟨_, hante⟩

/-- In every state that a chain reaches, a transaction changes the state only if each of its messages has
passed its check and every signer of the message has signed the transaction, for the present sequence and
with a key of its address. -/
theorem changed_only_if_signed (o : HandlerOptions V K M D F) (hone : OneBech32 o.app) (s : State V K F)
    (hkeys : KeysMatch o.address s) (ds : List (Delivery K M)) (d : Delivery K M)
    (hchanged : deliverTx o (run (deliverTx o) s ds) d ≠ run (deliverTx o) s ds) :
    ∀ msg ∈ d.tx.messages, msgValidateBasic o.app msg = .ok () ∧
      ∃ addrs, msgGetSigners o.app msg = .ok addrs ∧
        ∀ addr ∈ addrs, SignedBy o (run (deliverTx o) s ds) d addr := by
  obtain ⟨s', hante⟩ := accepted_of_ne hchanged
  obtain ⟨signers, hsigners, -, hsigned⟩ := signedBy_of_ante (keysMatch_run hkeys ds) hante
  obtain ⟨-, hvalid, -⟩ := ante_eq_ok.1 hante
  obtain ⟨hmsgs, -, -⟩ := getSigners_spec hone hsigners
  intro msg hmsg
  obtain ⟨addrs, haddrs, hsub⟩ := hmsgs msg hmsg
  exact ⟨msgValidateBasic_of_validateBasicTxMsgs hvalid msg hmsg, addrs, haddrs,
    fun addr haddr => hsigned addr (hsub haddr)⟩

/-- The second of two transactions of alice changes the state, and she has signed it for sequence 1. -/
theorem changed_only_if_signed_roof :
    SignedBy smallOptions
      (run (deliverTx smallOptions) (smallState Reward.emptyBank) [aliceDelivery 1 0 [] registerRoof])
      (aliceDelivery 2 1 [] registerRoof) Reward.aliceAddr := by
  have hchanged : deliverTx smallOptions (run (deliverTx smallOptions) (smallState Reward.emptyBank)
      [aliceDelivery 1 0 [] registerRoof]) (aliceDelivery 2 1 [] registerRoof) ≠
      run (deliverTx smallOptions) (smallState Reward.emptyBank) [aliceDelivery 1 0 [] registerRoof] := by
    refine fun hsame => absurd (congrArg (fun t => t.sequenceOf Reward.aliceAddr) hsame) ?_
    decide +kernel
  obtain ⟨-, addrs, haddrs, hsigned⟩ := changed_only_if_signed smallOptions smallApp_oneBech32
    (smallState Reward.emptyBank) (smallState_keysMatch _) _ _ hchanged registerRoof List.mem_cons_self
  have halice : msgGetSigners App.smallApp registerRoof = .ok [Reward.aliceAddr] := by decide +kernel
  cases halice.symm.trans haddrs
  exact hsigned _ List.mem_cons_self

/-! ## Replays -/

/-- In every run: the sequence of an address counts, modulo the width of a sequence, how often the accepted
transactions name it as a signer, and its account number never changes. -/
theorem sequences_count (o : HandlerOptions V K M D F) (s : State V K F) (ds : List (Delivery K M))
    (addr : AccAddress) :
    (run (deliverTx o) s ds).sequenceOf addr =
      s.sequenceOf addr + UInt64.ofNat (trace (deliverTx o) (raises o addr) s ds).sum ∧
    ∀ number, s.numberOf addr = some number → (run (deliverTx o) s ds).numberOf addr = some number :=
  ⟨(advances_run s ds).sequences addr, (advances_run s ds).numbers addr⟩

theorem raises_le (hone : OneBech32 o.app) (addr : AccAddress) (s : State V K F) (d : Delivery K M) :
    raises o addr s d ≤ 2 := by
  rw [raises, signersOf]
  split
  · cases hsigners : getSigners o.app d.tx with
    | error fault => simp [Except.toOption]
    | ok signers =>
        obtain ⟨-, -, hcount⟩ := getSigners_spec hone hsigners
        exact hcount addr
  · omega

theorem sum_raises_le (hone : OneBech32 o.app) (addr : AccAddress) (s : State V K F)
    (ds : List (Delivery K M)) : (trace (deliverTx o) (raises o addr) s ds).sum ≤ 2 * ds.length := by
  induction ds generalizing s with
  | nil => exact le_rfl
  | cons d ds ih =>
      have hfirst := raises_le hone addr s d
      have hrest := ih (deliverTx o s d)
      rw [trace_cons, List.sum_cons, List.length_cons]
      omega

/-- Whenever a transaction is accepted, one of its signers has the same sequence. -/
theorem sequenceOf_eq_of_accepts {t : State V K F} {d' : Delivery K M} (htx : d'.tx = d.tx)
    (h : accepts o s d = true) (h' : accepts o t d' = true) :
    ∃ addr, 0 < raises o addr s d ∧ t.sequenceOf addr = s.sequenceOf addr := by
  obtain ⟨s', hante⟩ := accepts_iff.1 h
  obtain ⟨t', hante'⟩ := accepts_iff.1 h'
  obtain ⟨-, -, hpassed⟩ := ante_eq_ok.1 hante
  obtain ⟨-, -, hpassed'⟩ := ante_eq_ok.1 hante'
  obtain ⟨sigs, signers, hsigs, hsigners, hne, -, hsigned, -⟩ := anteHandler_spec rfl hpassed
  obtain ⟨sigs', signers', hsigs', hsigners', -, -, hsigned', -⟩ := anteHandler_spec rfl hpassed'
  -- the signers and the signatures are those of the transaction
  rw [htx, hsigs] at hsigs'
  rw [htx, hsigners] at hsigners'
  cases hsigs'
  cases hsigners'
  obtain ⟨addr, rest, rfl⟩ := List.exists_cons_of_ne_nil hne
  obtain ⟨sig, -, -, hsig, -, -, hsequence, -⟩ := hsigned 0 addr rfl
  obtain ⟨sig', -, -, hsig', -, -, hsequence', -⟩ := hsigned' 0 addr rfl
  rw [hsig] at hsig'
  cases hsig'
  refine ⟨addr, ?_, hsequence'.symm.trans hsequence⟩
  rw [raises, if_pos h, signersOf, hsigners]
  exact List.count_pos_iff.2 List.mem_cons_self

/-- In every run, a transaction that was accepted is refused from then on, until `2 ^ 63` transactions have
passed. -/
theorem replay_refused (o : HandlerOptions V K M D F) (hone : OneBech32 o.app) (s : State V K F)
    (pre mid : List (Delivery K M)) (d d' : Delivery K M) (htx : d'.tx = d.tx)
    (h : accepts o (run (deliverTx o) s pre) d = true) (hmid : mid.length + 1 < 2 ^ 63) :
    accepts o (run (deliverTx o) s (pre ++ d :: mid)) d' = false := by
  rw [run_append]
  refine Bool.eq_false_iff.2 fun h' => ?_
  obtain ⟨addr, hpos, hsame⟩ := sequenceOf_eq_of_accepts htx h h'
  rw [(advances_run _ (d :: mid)).sequences addr] at hsame
  have hle := sum_raises_le hone addr (run (deliverTx o) s pre) (d :: mid)
  rw [trace_cons, List.sum_cons] at hsame hle
  -- the sequence is the same again, so it was raised by a multiple of its range, and it was raised
  have hwrapped := congrArg UInt64.toNat hsame
  rw [UInt64.toNat_add, UInt64.toNat_ofNat'] at hwrapped
  have hbound := UInt64.toNat_lt ((run (deliverTx o) s pre).sequenceOf addr)
  rw [List.length_cons] at hle
  omega

/-- The transaction of alice is accepted, and refused right after it. -/
theorem replay_refused_roof :
    accepts smallOptions (smallState Reward.emptyBank) (aliceDelivery 1 0 [] registerRoof) = true ∧
      accepts smallOptions (run (deliverTx smallOptions) (smallState Reward.emptyBank)
        [aliceDelivery 1 0 [] registerRoof]) (aliceDelivery 2 0 [] registerRoof) = false := by
  have haccepted : accepts smallOptions (smallState Reward.emptyBank) (aliceDelivery 1 0 [] registerRoof) =
      true := by decide +kernel
  exact ⟨haccepted, replay_refused smallOptions smallApp_oneBech32 (smallState Reward.emptyBank) [] []
    (aliceDelivery 1 0 [] registerRoof) (aliceDelivery 2 0 [] registerRoof) rfl haccepted (by decide)⟩

/-! ## The application -/

end

end EnergyChain.BaseApp
