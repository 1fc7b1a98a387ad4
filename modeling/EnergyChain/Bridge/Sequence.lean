import EnergyChain.Bridge.Broadcaster

/-!
# The sequence cache

Between calls `seqCache` is meant to be the sequence used last, one below that of the account
(`InStep`). A call that reaches its sequence step ends in step whatever the state was before it: a
transaction that succeeded was accepted with the cached sequence, and every other exit reads the
account again (`signAndSend_inStep`). The one exit that does neither, a light transaction without a
payload, is not reached, since such a message reports no energy and is refused before the sequence
step (`perform_inStep`). Calls keep the cache in step, so it stays in step until another transaction
is signed with the same key (`seqCache_inStep`).
-/

set_option autoImplicit false

namespace EnergyChain.Bridge

open EnergyChain.Go

/-- A call of a sender. The vote timer calls `BroadcastLightTxWithReward` with the energy that the
message reports. -/
inductive Call where
  | broadcastLightTxWithReward (msg : LightTxMessage) (userAddress : GoString)
  | addEnergyCLI (toAddr : GoString) (whAmt : Int) (txHash : GoString)
  | createRECRecordCLI (count : Int)
  | createBlockCLI (nodeCreator recID : GoString)
  | blockCreatorRewardPercentCLI (address percent : GoString)
  | burnStableCoinCLI (targetAddr amount : GoString)

/-- The session after a call. -/
def Call.perform (ctx : ClientCtx) (st : Stages) (s : Session) : Call → Session
  | .broadcastLightTxWithReward msg userAddress =>
      (Bridge.broadcastLightTxWithReward ctx msg userAddress (power msg) st s).1
  | .addEnergyCLI toAddr whAmt txHash => (Bridge.addEnergyCLI ctx toAddr whAmt txHash st s).1
  | .createRECRecordCLI count => (Bridge.createRECRecordCLI ctx count st s).1
  | .createBlockCLI nodeCreator recID => (Bridge.createBlockCLI ctx nodeCreator recID st s).1
  | .blockCreatorRewardPercentCLI address percent =>
      (Bridge.blockCreatorRewardPercentCLI ctx address percent st s).1
  | .burnStableCoinCLI targetAddr amount => (Bridge.burnStableCoinCLI ctx targetAddr amount st s).1

/-- The call takes none of the exits before its sequence step. -/
def Call.passesChecks (ctx : ClientCtx) (st : Stages) : Call → Bool
  | .broadcastLightTxWithReward msg _ =>
      ctx.txConfig && ctx.keyring && ctx.fromName != [] && ctx.fromAddress != [] &&
        !(power msg).nonpos
  | _ => st.setMsgs.isNone

/-- What can happen next: a call, or another transaction signed with the same key is committed. -/
inductive SessionEvent where
  | call (c : Call) (st : Stages)
  | foreign

def SessionEvent.isCall : SessionEvent → Bool
  | .call _ _ => true
  | .foreign => false

/-- The account queries of the event succeed. -/
def SessionEvent.queriesSucceed : SessionEvent → Bool
  | .call _ st => st.query.isNone
  | .foreign => true

/-- One step of a session. -/
def sessionStep (ctx : ClientCtx) (s : Session) : SessionEvent → Session
  | .call c st => c.perform ctx st s
  | .foreign => { s with account := { s.account with sequence := s.account.sequence + 1 } }

/-- The sequence that the next call signs with. -/
def signingSequence (s : Session) : UInt64 :=
  if s.cache.cacheInitialized then s.cache.seqCache + 1 else UInt64.ofNat s.account.sequence

/-- The cache is in use, and its sequence is one below that of the account. -/
structure InStep (s : Session) : Prop where
  initialized : s.cache.cacheInitialized = true
  next : s.cache.seqCache + 1 = UInt64.ofNat s.account.sequence

section

variable {ctx : ClientCtx} {texts : Texts} {msgs : List ChainMsg} {msg : Reward.Msg} {st : Stages}
  {s s' : Session}

theorem forceSync_inStep (hquery : st.query = none) (hinit : s.cache.cacheInitialized = true) :
    InStep (forceSyncAccountSequence st s) := by
  rw [forceSyncAccountSequence, hquery]
  exact ⟨hinit, UInt64.sub_add_cancel _ _⟩

theorem cacheInitialized_of_nextSequence (h : nextSequence texts st s = .ok s') :
    s'.cache.cacheInitialized = true := by
  unfold nextSequence at h
  split at h
  · rename_i hinit
    cases h
    exact hinit
  · split at h
    · cases h
    · cases h
      rfl

/-- The sequence step takes the sequence that the session is to sign with. -/
theorem seqCache_of_nextSequence (h : nextSequence texts st s = .ok s') :
    s'.cache.seqCache = signingSequence s ∧ s'.account = s.account ∧ s'.executed = s.executed := by
  unfold nextSequence at h
  unfold signingSequence
  -- a cache in use counts on, a fresh one takes the sequence of the account
  split at h
  · rename_i hinit
    cases h
    exact ⟨(if_pos hinit).symm, rfl, rfl⟩
  · rename_i hinit
    split at h
    · cases h
    · cases h
      exact ⟨(if_neg hinit).symm, rfl, rfl⟩

theorem exists_nextSequence (hquery : st.query = none) (texts : Texts) (s : Session) :
    ∃ s', nextSequence texts st s = .ok s' := by
  unfold nextSequence
  split
  · exact ⟨_, rfl⟩
  · rw [hquery]
    exact ⟨_, rfl⟩

theorem broadcastTxCommit_cache (msgs : List ChainMsg) (verdict : Verdict) (s : Session) :
    (broadcastTxCommit msgs verdict s).1.cache = s.cache := by
  unfold broadcastTxCommit
  dsimp only
  split <;> rfl

/-- A response without an error code is that of a transaction accepted with the cached sequence. -/
theorem inStep_of_broadcastTxCommit {verdict : Verdict} {res : TxResponse}
    (hinit : s.cache.cacheInitialized = true)
    (h : broadcastTxCommit msgs verdict s = (s', .ok res)) (hcode : res.code = 0) : InStep s' := by
  unfold broadcastTxCommit at h
  dsimp only at h
  split at h
  · cases h
  · obtain ⟨rfl, hres⟩ := Prod.mk.inj h
    cases Except.ok.inj hres
    dsimp only at hcode
    -- the code is zero only for an accepted transaction, and acceptance compares the sequences
    split at hcode
    · rename_i hsucceeded
      obtain ⟨haccepted, -⟩ := Bool.and_eq_true_iff.1 hsucceeded
      have hseq := beq_iff_eq.1 (Bool.and_eq_true_iff.1 haccepted).2
      refine ⟨hinit, ?_⟩
      simp only [haccepted, if_true]
      rw [hseq, UInt64.ofNat_add]
      rfl
    · cases hcode

/-- From the simulation on, every way out ends in step. -/
theorem signAndSend_inStep (hquery : st.query = none) (hinit : s.cache.cacheInitialized = true) :
    InStep (signAndSend texts msgs st s).1 := by
  have hsync : InStep (forceSyncAccountSequence st s) := forceSync_inStep hquery hinit
  unfold signAndSend
  -- the simulation, the signature and the encoding can fail before anything is sent
  split
  · exact hsync
  · exact hsync
  · exact hsync
  · have hcache := broadcastTxCommit_cache msgs st.verdict s
    split
    · rename_i s' err hsend
      rw [hsend] at hcache
      exact forceSync_inStep hquery (by rw [hcache, hinit])
    · rename_i s' res hsend
      rw [hsend] at hcache
      -- a response with an error code reads the account again
      split
      · exact forceSync_inStep hquery (by rw [hcache, hinit])
      · rename_i hcode
        exact inStep_of_broadcastTxCommit hinit hsend (not_not.1 hcode)

/-- A sender that builds its transaction first, once it has been built. -/
theorem cachedSend_inStep (hquery : st.query = none) (hset : st.setMsgs = none) :
    InStep (cachedSend texts msg st s).1 := by
  obtain ⟨s', hs'⟩ := exists_nextSequence hquery texts s
  rw [cachedSend, hset]
  dsimp only
  rw [hs']
  exact signAndSend_inStep hquery (cacheInitialized_of_nextSequence hs')

/-- Before it has been built, such a sender changes nothing. -/
theorem cachedSend_of_setMsgs {err : GoString} (hset : st.setMsgs = some err) :
    (cachedSend texts msg st s).1 = s := by
  rw [cachedSend, hset]

/-- A sender that succeeds returns the response of the chain. -/
theorem response_of_signAndSend {res : TxResponse}
    (h : signAndSend texts msgs st s = (s', .ok res)) : res = { st.verdict.response with code := 0 } := by
  unfold signAndSend broadcastTxCommit at h
  dsimp only at h
  split at h
  · cases h
  · cases h
  · cases h
  · split at h
    · cases h
    · rename_i s₁ res₁ hsend
      split at h
      · cases h
      · rename_i hcode
        obtain ⟨-, hres⟩ := Prod.mk.inj h
        cases Except.ok.inj hres
        split at hsend
        · cases hsend
        · cases hsend
          exact congrArg (fun code => { st.verdict.response with code := code }) (not_not.1 hcode)

theorem response_of_cachedSend {res : TxResponse} (h : cachedSend texts msg st s = (s', .ok res)) :
    res = { st.verdict.response with code := 0 } := by
  unfold cachedSend at h
  split at h
  · cases h
  · split at h
    · cases h
    · exact response_of_signAndSend h

/-! ## The session of each sender -/

@[simp]
theorem addEnergyCLI_session (toAddr : GoString) (whAmt : Int) (txHash : GoString) :
    (addEnergyCLI ctx toAddr whAmt txHash st s).1 =
      (cachedSend (commonTexts (bytes "[AddEnergyCLI]"))
        (.addEnergy ⟨ctx.fromAddress, toAddr, formatInt whAmt, txHash⟩) st s).1 := by
  unfold addEnergyCLI
  split <;> simp_all

@[simp]
theorem createRECRecordCLI_session (count : Int) :
    (createRECRecordCLI ctx count st s).1 =
      (cachedSend (commonTexts (bytes "[CreateRECRecord]"))
        (.createRECRecord ⟨ctx.fromAddress, count⟩) st s).1 := by
  unfold createRECRecordCLI
  split <;> simp_all

@[simp]
theorem createBlockCLI_session (nodeCreator recID : GoString) :
    (createBlockCLI ctx nodeCreator recID st s).1 =
      (cachedSend (commonTexts (bytes "[CreateBlockCLI]"))
        (.appendTxHash ⟨ctx.fromAddress, [], nodeCreator, recID, []⟩) st s).1 := by
  unfold createBlockCLI
  split <;> simp_all

@[simp]
theorem blockCreatorRewardPercentCLI_session (address percent : GoString) :
    (blockCreatorRewardPercentCLI ctx address percent st s).1 =
      (cachedSend (commonTexts (bytes "[BlockCreatorReward]"))
        (.distributeRewardPercent ⟨ctx.fromAddress, address, percent⟩) st s).1 := by
  unfold blockCreatorRewardPercentCLI
  split <;> simp_all

@[simp]
theorem burnStableCoinCLI_session (targetAddr amount : GoString) :
    (burnStableCoinCLI ctx targetAddr amount st s).1 =
      (cachedSend (commonTexts (bytes "[BurnStableCoinCLI]"))
        (.burnStableCoin ⟨ctx.fromAddress, targetAddr,
          if bytes "aeil" <:+: amount then amount else amount ++ bytes "aeil"⟩) st s).1 := by
  unfold burnStableCoinCLI
  dsimp only
  split <;> simp_all

/-- A message that reports energy has a payload. -/
theorem payload_of_power {txMsg : LightTxMessage} (h : (power txMsg).nonpos = false) :
    (txMsg.original.isNone && txMsg.recMeta.isNone) = false := by
  rw [Bool.eq_false_iff]
  intro hnone
  obtain ⟨horiginal, hrec⟩ := Bool.and_eq_true_iff.1 hnone
  rw [power, Option.isNone_iff_eq_none.1 horiginal, Option.isNone_iff_eq_none.1 hrec] at h
  simp [Float64.nonpos] at h

/-- A light transaction that is refused before its sequence step changes nothing. -/
theorem broadcastLightTxWithReward_refused {txMsg : LightTxMessage} {addr : GoString}
    (h : (Call.broadcastLightTxWithReward txMsg addr).passesChecks ctx st = false) :
    (broadcastLightTxWithReward ctx txMsg addr (power txMsg) st s).1 = s := by
  unfold broadcastLightTxWithReward
  -- the configuration, the keyring, the sender and the energy, in the order of the checks
  split
  · rfl
  split
  · rfl
  split
  · rfl
  split
  · rfl
  simp_all [Call.passesChecks]

/-- One that is not refused ends in step. -/
theorem broadcastLightTxWithReward_inStep {txMsg : LightTxMessage} {addr : GoString}
    (hquery : st.query = none)
    (h : (Call.broadcastLightTxWithReward txMsg addr).passesChecks ctx st = true) :
    InStep (broadcastLightTxWithReward ctx txMsg addr (power txMsg) st s).1 := by
  simp only [Call.passesChecks, Bool.and_eq_true, bne_iff_ne, Bool.not_eq_true'] at h
  obtain ⟨⟨⟨⟨htx, hkey⟩, hname⟩, haddr⟩, hpower⟩ := h
  obtain ⟨s', hs'⟩ := exists_nextSequence hquery bltTexts s
  have hinit := cacheInitialized_of_nextSequence hs'
  unfold broadcastLightTxWithReward
  simp only [htx, hkey, hname, haddr, hpower, payload_of_power hpower, hs', Bool.not_true,
    Bool.false_eq_true, if_false, or_self]
  cases hset : st.setMsgs with
  -- this sender takes its sequence before it builds the transaction
  | some err => exact forceSync_inStep hquery hinit
  | none =>
      dsimp only
      have hsend : InStep (signAndSend bltTexts [lightMsg ctx txMsg,
          .reward (.rewardSolarPower ⟨ctx.fromAddress, addr, formatInt (wattHours (power txMsg))⟩)]
            st s').1 := signAndSend_inStep hquery hinit
      split
      · rename_i s'' res hres
        rw [hres] at hsend
        exact hsend
      · rename_i s'' err hres
        rw [hres] at hsend
        exact hsend

/-! ## Calls and runs -/

/-- The calls other than a light transaction build their transaction first and then send it. -/
theorem exists_cachedSend (ctx : ClientCtx) (st : Stages) (c : Call) :
    (∃ msg addr, c = .broadcastLightTxWithReward msg addr) ∨
      c.passesChecks ctx st = st.setMsgs.isNone ∧
        ∃ texts msg, ∀ s, c.perform ctx st s = (cachedSend texts msg st s).1 := by
  cases c with
  | broadcastLightTxWithReward msg addr => exact .inl ⟨msg, addr, rfl⟩
  | addEnergyCLI toAddr whAmt txHash =>
      exact .inr ⟨rfl, _, _, fun s => addEnergyCLI_session toAddr whAmt txHash⟩
  | createRECRecordCLI count => exact .inr ⟨rfl, _, _, fun s => createRECRecordCLI_session count⟩
  | createBlockCLI nodeCreator recID =>
      exact .inr ⟨rfl, _, _, fun s => createBlockCLI_session nodeCreator recID⟩
  | blockCreatorRewardPercentCLI address percent =>
      exact .inr ⟨rfl, _, _, fun s => blockCreatorRewardPercentCLI_session address percent⟩
  | burnStableCoinCLI targetAddr amount =>
      exact .inr ⟨rfl, _, _, fun s => burnStableCoinCLI_session targetAddr amount⟩

/-- A call that reaches its sequence step ends in step, from any state. -/
theorem perform_inStep (c : Call) (hquery : st.query = none) (h : c.passesChecks ctx st = true) :
    InStep (c.perform ctx st s) := by
  rcases exists_cachedSend ctx st c with ⟨msg, addr, rfl⟩ | ⟨hchecks, texts, msg, hperform⟩
  · exact broadcastLightTxWithReward_inStep hquery h
  · rw [hperform]
    apply cachedSend_inStep hquery
    rwa [hchecks, Option.isNone_iff_eq_none] at h

/-- A call that does not reach its sequence step changes nothing. -/
theorem perform_of_not_passesChecks (c : Call) (h : c.passesChecks ctx st = false) :
    c.perform ctx st s = s := by
  rcases exists_cachedSend ctx st c with ⟨msg, addr, rfl⟩ | ⟨hchecks, texts, msg, hperform⟩
  · exact broadcastLightTxWithReward_refused h
  · rw [hchecks, Option.isNone_eq_false_iff] at h
    obtain ⟨err, herr⟩ := Option.isSome_iff_exists.1 h
    rw [hperform]
    exact cachedSend_of_setMsgs herr

/-- Calls keep the cache in step. -/
theorem InStep.sessionStep (h : InStep s) {e : SessionEvent} (hcall : e.isCall = true)
    (hquery : e.queriesSucceed = true) : InStep (sessionStep ctx s e) := by
  cases e with
  | foreign => cases hcall
  | call c st =>
      cases hchecks : c.passesChecks ctx st with
      | true => exact perform_inStep c (Option.isNone_iff_eq_none.1 hquery) hchecks
      | false =>
          rw [Bridge.sessionStep, perform_of_not_passesChecks c hchecks]
          exact h

/-- In every run in which the account queries succeed: after each call that reached its sequence
step, `seqCache + 1` is the sequence of the account modulo `2 ^ 64`, and as long as only calls follow,
the next one signs with the sequence of the account. -/
theorem seqCache_inStep (ctx : ClientCtx) (s : Session) (events : List SessionEvent)
    (hquery : ∀ e ∈ events, e.queriesSucceed = true) :
    ∀ pre c st rest, events = pre ++ .call c st :: rest → c.passesChecks ctx st = true →
      (run (sessionStep ctx) s (pre ++ [.call c st])).cache.seqCache + 1 =
          UInt64.ofNat (run (sessionStep ctx) s (pre ++ [.call c st])).account.sequence ∧
        ∀ mid, mid <+: rest → (∀ e ∈ mid, e.isCall = true) →
          signingSequence (run (sessionStep ctx) s (pre ++ .call c st :: mid)) =
            UInt64.ofNat (run (sessionStep ctx) s (pre ++ .call c st :: mid)).account.sequence := by
  rintro pre c st rest rfl hchecks
  -- the call ends in step, whatever came before it, and the calls that follow keep it there
  have hlast : InStep (run (sessionStep ctx) s (pre ++ [.call c st])) := by
    rw [run_concat]
    exact perform_inStep c (Option.isNone_iff_eq_none.1 (hquery (.call c st) (by simp))) hchecks
  refine ⟨hlast.next, fun mid hmid hcalls => ?_⟩
  have hmid' : ∀ e ∈ mid, e ∈ pre ++ .call c st :: rest :=
    fun e he => List.mem_append_right pre (List.mem_cons_of_mem _ (hmid.subset he))
  have hstay : InStep (run (sessionStep ctx) (run (sessionStep ctx) s (pre ++ [.call c st])) mid) :=
    run_invariant (C := fun _ e => e.isCall = true ∧ e.queriesSucceed = true)
      (fun s e hs he => hs.sessionStep he.1 he.2) hlast
      (along_of_forall _ fun _ e he => ⟨hcalls e he, hquery e (hmid' e he)⟩)
  rw [← run_append, List.append_assoc, List.singleton_append] at hstay
  rw [signingSequence, if_pos hstay.initialized]
  exact hstay.next

end

/-! ## A session of the small bridge -/

def smallClient : ClientCtx := ⟨true, true, bytes "alice", signerAddress⟩

/-- The response of the chain to a transaction that reports energy. -/
def smallResponse (recs : Int) : TxResponse := ⟨0, bytes "TX", [], recs, [], [], [], []⟩

/-- All stages succeed. -/
def cleanStages (recs : Int) : Stages :=
  ⟨none, none, none, none, none, ⟨true, true, none, smallResponse recs⟩⟩

/-- The simulation fails. -/
def failedSimulation : Stages :=
  { cleanStages 0 with simulate := some (bytes "account sequence mismatch") }

/-- A bridge that has sent nothing, for an account with five transactions. -/
def freshSession : Session := ⟨⟨0, 0, false⟩, ⟨7, 5⟩, []⟩

/-- A light transaction, a foreign transaction, a report that fails because of it, and a report. -/
def interleavedCalls : List SessionEvent :=
  [.call (.broadcastLightTxWithReward (solarVote (bytes "roof") (bytes "h1") 700000) signerAddress)
      (cleanStages 0), .foreign,
    .call (.addEnergyCLI signerAddress 700000 (bytes "TX")) failedSimulation,
    .call (.addEnergyCLI signerAddress 700000 (bytes "TX")) (cleanStages 0)]

theorem seqCache_inStep_interleavedCalls :
    (run (sessionStep smallClient) freshSession interleavedCalls).cache.seqCache + 1 = 8 := by
  have hsplit : interleavedCalls = interleavedCalls.take 3 ++
      [.call (.addEnergyCLI signerAddress 700000 (bytes "TX")) (cleanStages 0)] := rfl
  have h := (seqCache_inStep smallClient freshSession interleavedCalls (by decide)
    (interleavedCalls.take 3) (.addEnergyCLI signerAddress 700000 (bytes "TX")) (cleanStages 0) []
    hsplit rfl).1
  have hseq : (run (sessionStep smallClient) freshSession interleavedCalls).account.sequence = 8 := by
    decide +kernel
  rw [← hsplit, hseq] at h
  exact h

end EnergyChain.Bridge
