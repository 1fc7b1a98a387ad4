import EnergyChain.Bridge.Worker

/-!
# Mints and reports of the bridge

A reward task sends two transactions: the first mints a stable coin for each watt-hour, the second
records the watt-hours. The second is only sent if the first succeeded, and it is not sent again if it
fails. So the coins minted are the watt-hours recorded as long as no report fails after its mint
(`minted_eq_recorded_iff_reportFollows`).

After a successful transaction the sequence cache is in step, so whether the report fails is up to the
stages of that call alone (`cachedSend_of_inStep`).
-/

set_option autoImplicit false

namespace EnergyChain.Bridge

open EnergyChain.Go
open EnergyChain.Sdk

/-- The stable coins that a message mints. -/
def ChainMsg.minted : ChainMsg → Int
  | .reward (.rewardSolarPower msg) => (newIntFromString msg.amount).getD 0
  | _ => 0

/-- The watt-hours that a message records. -/
def ChainMsg.recorded : ChainMsg → Int
  | .reward (.addEnergy msg) => (newIntFromString msg.amount).getD 0
  | _ => 0

/-- The stable coins minted by the transactions of the bridge. -/
def Session.minted (s : Session) : Int := (s.executed.map ChainMsg.minted).sum

/-- The watt-hours recorded by the transactions of the bridge. -/
def Session.recorded (s : Session) : Int := (s.executed.map ChainMsg.recorded).sum

/-- No stage of the call fails once its sequence is right. -/
def Stages.clean (st : Stages) : Bool :=
  st.setMsgs.isNone && st.simulate.isNone && st.sign.isNone && st.encode.isNone &&
    st.verdict.accepts && st.verdict.executes && st.verdict.transportErr.isNone

/-- A transaction that is reported as failed has changed nothing. -/
def Stages.failsCleanly (st : Stages) : Prop :=
  st.verdict.transportErr.isSome = true → (st.verdict.accepts && st.verdict.executes) = false

/-- The messages of the reward transaction of a task. -/
def rewardMsgs (ctx : ClientCtx) (task : Task) : List ChainMsg :=
  [lightMsg ctx task.txMsg, .reward (.rewardSolarPower
    ⟨ctx.fromAddress, task.userAddress, formatInt (wattHours task.power)⟩)]

/-- The reward transaction of a task goes through: the checks pass, there is a payload, the account is
known, no stage fails, and the sequence is that of the account. -/
def rewardSucceeds (ctx : ClientCtx) (task : Task) (st : Stages) (s : Session) : Bool :=
  ctx.txConfig && ctx.keyring && ctx.fromName != [] && ctx.fromAddress != [] &&
    !task.power.nonpos && !(task.txMsg.original.isNone && task.txMsg.recMeta.isNone) &&
    (s.cache.cacheInitialized || st.query.isNone) && st.clean &&
    signingSequence s == UInt64.ofNat s.account.sequence

/-! ## What a call executes -/

section Calls

variable {ctx : ClientCtx} {msg : Reward.Msg} {st : Stages} {s s' : Session}

theorem Stages.clean_iff : st.clean = true ↔ st.setMsgs = none ∧ st.simulate = none ∧
    st.sign = none ∧ st.encode = none ∧ st.verdict.accepts = true ∧ st.verdict.executes = true ∧
    st.verdict.transportErr = none := by
  simp [Stages.clean, and_assoc]

/-- A transaction that no stage refuses and whose sequence is right is executed. -/
theorem signAndSend_of_clean (texts : Texts) (msgs : List ChainMsg) (hclean : st.clean = true)
    (hseq : s.cache.seqCache = UInt64.ofNat s.account.sequence)
    (hinit : s.cache.cacheInitialized = true) :
    ∃ s' res, signAndSend texts msgs st s = (s', .ok res) ∧ s'.executed = s.executed ++ msgs ∧
      InStep s' := by
  obtain ⟨-, hsim, hsign, henc, hacc, hexec, herr⟩ := Stages.clean_iff.1 hclean
  -- the chain accepts the sequence and executes the messages, so the code is zero
  have hsend : ∃ s' res, broadcastTxCommit msgs st.verdict s = (s', .ok res) ∧ res.code = 0 ∧
      s'.executed = s.executed ++ msgs := by
    simp only [broadcastTxCommit, hacc, hexec, herr, hseq, beq_self_eq_true, Bool.and_true, if_true]
    exact ⟨_, _, rfl, rfl, rfl⟩
  obtain ⟨s', res, hres, hcode, hexecuted⟩ := hsend
  refine ⟨s', res, ?_, hexecuted, inStep_of_broadcastTxCommit hinit hres hcode⟩
  rw [signAndSend, hsim, hsign, henc]
  dsimp only
  rw [hres]
  exact if_neg (not_not.2 hcode)

theorem forceSync_executed : (forceSyncAccountSequence st s).executed = s.executed := by
  unfold forceSyncAccountSequence
  split <;> rfl

/-- Messages that the chain does not execute leave no trace, and the response has an error code. -/
theorem broadcastTxCommit_of_not_executed (msgs : List ChainMsg) {verdict : Verdict}
    (hnot : (verdict.accepts && s.cache.seqCache == UInt64.ofNat s.account.sequence &&
      verdict.executes) = false) :
    (broadcastTxCommit msgs verdict s).1.executed = s.executed ∧
      ∀ res, (broadcastTxCommit msgs verdict s).2 = .ok res → res.code ≠ 0 := by
  unfold broadcastTxCommit
  dsimp only
  split
  · refine ⟨by simp [hnot], fun res hres => ?_⟩
    cases hres
  · refine ⟨by simp [hnot], fun res hres => ?_⟩
    cases Except.ok.inj hres
    simp [hnot]

/-- Any other transaction fails and executes nothing. -/
theorem signAndSend_of_not_clean (texts : Texts) (msgs : List ChainMsg) (hset : st.setMsgs = none)
    (hfails : st.failsCleanly)
    (h : (st.clean && s.cache.seqCache == UInt64.ofNat s.account.sequence) = false) :
    ∃ s' err, signAndSend texts msgs st s = (s', .error err) ∧ s'.executed = s.executed := by
  unfold signAndSend
  -- before the broadcast nothing can have been executed
  split
  · exact ⟨_, _, rfl, forceSync_executed⟩
  · exact ⟨_, _, rfl, forceSync_executed⟩
  · exact ⟨_, _, rfl, forceSync_executed⟩
  · rename_i hsim hsign henc
    have hnot : (st.verdict.accepts && s.cache.seqCache == UInt64.ofNat s.account.sequence &&
        st.verdict.executes) = false := by
      rw [Bool.eq_false_iff]
      intro hexec
      simp only [Bool.and_eq_true] at hexec
      obtain ⟨⟨hacc, hseq⟩, hexec⟩ := hexec
      cases herr : st.verdict.transportErr with
      -- without a transport error all stages were clean, against the hypothesis
      | none => simp [Stages.clean, hset, hsim, hsign, henc, hacc, hexec, herr, hseq] at h
      | some err =>
          have hnone := hfails (by rw [herr]; rfl)
          simp [hacc, hexec] at hnone
    obtain ⟨hexecuted, hcode⟩ := broadcastTxCommit_of_not_executed msgs hnot
    split
    · rename_i s' err hsend
      rw [hsend] at hexecuted
      exact ⟨_, _, rfl, forceSync_executed.trans hexecuted⟩
    · rename_i s' res hsend
      rw [hsend] at hexecuted hcode
      rw [if_pos (hcode res rfl)]
      exact ⟨_, _, rfl, forceSync_executed.trans hexecuted⟩

/-- Once its sequence is set, a sender of one message executes it exactly if no stage fails and the
sequence is that of the account. -/
theorem cachedSend_of_nextSequence {texts : Texts} {s₁ : Session} (msg : Reward.Msg)
    (hset : st.setMsgs = none) (hs₁ : nextSequence texts st s = .ok s₁) (hfails : st.failsCleanly) :
    (cachedSend texts msg st s).1.executed =
      if st.clean && s₁.cache.seqCache == UInt64.ofNat s₁.account.sequence then
        s.executed ++ [.reward msg]
      else s.executed := by
  obtain ⟨-, -, hexecuted⟩ := seqCache_of_nextSequence hs₁
  rw [cachedSend, hset]
  dsimp only
  rw [hs₁, ← hexecuted]
  cases hsend : st.clean && s₁.cache.seqCache == UInt64.ofNat s₁.account.sequence with
  | true =>
      obtain ⟨hclean, hseq⟩ := Bool.and_eq_true_iff.1 hsend
      obtain ⟨s', res, hres, hexec, -⟩ := signAndSend_of_clean texts [.reward msg] hclean
        (beq_iff_eq.1 hseq) (cacheInitialized_of_nextSequence hs₁)
      dsimp only
      rw [hres]
      exact hexec
  | false =>
      obtain ⟨s', err, hres, hexec⟩ :=
        signAndSend_of_not_clean texts [.reward msg] hset hfails hsend
      dsimp only
      rw [hres]
      exact hexec

/-- A sender of one message executes it or nothing. -/
theorem cachedSend_executed (texts : Texts) (msg : Reward.Msg) (hfails : st.failsCleanly) :
    (cachedSend texts msg st s).1.executed = s.executed ∨
      (cachedSend texts msg st s).1.executed = s.executed ++ [.reward msg] := by
  cases hset : st.setMsgs with
  | some err =>
      rw [cachedSend_of_setMsgs hset]
      exact Or.inl rfl
  | none =>
      cases hs₁ : nextSequence texts st s with
      | error err =>
          rw [cachedSend, hset]
          dsimp only
          rw [hs₁]
          exact Or.inl rfl
      | ok s₁ =>
          rw [cachedSend_of_nextSequence msg hset hs₁ hfails]
          split
          · exact Or.inr rfl
          · exact Or.inl rfl

/-- In step, a sender of one message executes it exactly if no stage fails. -/
theorem cachedSend_of_inStep (texts : Texts) (msg : Reward.Msg) (hstep : InStep s)
    (hfails : st.failsCleanly) :
    (cachedSend texts msg st s).1.executed =
      if st.clean then s.executed ++ [.reward msg] else s.executed := by
  cases hset : st.setMsgs with
  | some err =>
      have hclean : st.clean = false := by simp [Stages.clean, hset]
      rw [hclean, cachedSend_of_setMsgs hset]
      rfl
  | none =>
      have hnext : nextSequence texts st s =
          .ok { s with cache := { s.cache with seqCache := s.cache.seqCache + 1 } } :=
        if_pos hstep.initialized
      have hseq : (s.cache.seqCache + 1 == UInt64.ofNat s.account.sequence) = true :=
        beq_iff_eq.2 hstep.next
      rw [cachedSend_of_nextSequence msg hset hnext hfails]
      dsimp only
      rw [hseq, Bool.and_true]

/-- A reward transaction that goes through executes its two messages and ends in step. -/
theorem broadcastLightTxWithReward_of_succeeds {task : Task}
    (h : rewardSucceeds ctx task st s = true) :
    ∃ s' txHash, broadcastLightTxWithReward ctx task.txMsg task.userAddress task.power st s =
        (s', txHash, none) ∧ InStep s' ∧ s'.executed = s.executed ++ rewardMsgs ctx task := by
  simp only [rewardSucceeds, Bool.and_eq_true, bne_iff_ne, Bool.not_eq_true', Bool.or_eq_true,
    beq_iff_eq] at h
  obtain ⟨⟨⟨⟨⟨⟨⟨⟨htx, hkey⟩, hname⟩, haddr⟩, hpower⟩, hpayload⟩, hquery⟩, hclean⟩, hseq⟩ := h
  obtain ⟨s₁, hs₁⟩ : ∃ s₁, nextSequence bltTexts st s = .ok s₁ := by
    unfold nextSequence
    -- the account is read only by the first call
    obtain hinit | hquery := hquery
    · rw [if_pos hinit]
      exact ⟨_, rfl⟩
    · rw [Option.isNone_iff_eq_none.1 hquery]
      split <;> exact ⟨_, rfl⟩
  obtain ⟨hcache, haccount, hexecuted⟩ := seqCache_of_nextSequence hs₁
  have hset : st.setMsgs = none := (Stages.clean_iff.1 hclean).1
  obtain ⟨s', res, hres, hexec, hin⟩ := signAndSend_of_clean bltTexts (rewardMsgs ctx task)
    hclean (by rw [hcache, haccount, hseq]) (cacheInitialized_of_nextSequence hs₁)
  rw [rewardMsgs] at hres
  refine ⟨s', res.txHash, ?_, hin, by rw [hexec, hexecuted]⟩
  unfold broadcastLightTxWithReward
  simp only [htx, hkey, hname, haddr, hpower, hpayload, hs₁, hset, hres, Bool.not_true,
    Bool.false_eq_true, if_false, or_self]

/-- Any other reward transaction fails and executes nothing. -/
theorem broadcastLightTxWithReward_of_not_succeeds {task : Task} (hfails : st.failsCleanly)
    (h : rewardSucceeds ctx task st s = false) :
    ∃ s' txHash err, broadcastLightTxWithReward ctx task.txMsg task.userAddress task.power st s =
      (s', txHash, some err) ∧ s'.executed = s.executed := by
  unfold broadcastLightTxWithReward
  -- the four checks in front of the sequence step return the session as it is
  split
  · exact ⟨s, _, _, rfl, rfl⟩
  split
  · exact ⟨s, _, _, rfl, rfl⟩
  split
  · exact ⟨s, _, _, rfl, rfl⟩
  split
  · exact ⟨s, _, _, rfl, rfl⟩
  rename_i htx hkey hfrom hpower
  split
  · exact ⟨s, _, _, rfl, rfl⟩
  rename_i s₁ hs₁
  obtain ⟨hcache, haccount, hexecuted⟩ := seqCache_of_nextSequence hs₁
  split
  · exact ⟨s₁, _, _, rfl, hexecuted⟩
  rename_i hpayload
  split
  · exact ⟨_, _, _, rfl, forceSync_executed.trans hexecuted⟩
  rename_i hset
  -- all checks passed, so a stage fails or the sequence is wrong
  have hquery : (s.cache.cacheInitialized || st.query.isNone) = true := by
    unfold nextSequence at hs₁
    split at hs₁
    · rename_i hinit
      rw [hinit, Bool.true_or]
    · split at hs₁
      · cases hs₁
      · rename_i hquery
        rw [hquery]
        exact Bool.or_true _
  have hstages : (st.clean && s₁.cache.seqCache == UInt64.ofNat s₁.account.sequence) = false := by
    rw [hcache, haccount]
    simp only [Bool.not_eq_true, Bool.not_eq_false', not_or] at htx hkey hpower hfrom hpayload
    simpa [rewardSucceeds, htx, hkey, hpower, hfrom, hpayload, hquery] using h
  obtain ⟨s', err, hres, hexec⟩ := signAndSend_of_not_clean bltTexts (rewardMsgs ctx task)
    hset hfails hstages
  rw [rewardMsgs] at hres
  dsimp only
  rw [hres]
  exact ⟨s', _, _, rfl, hexec.trans hexecuted⟩

/-- A message that counts for nothing does not change the sum. -/
theorem sum_cachedSend (f : ChainMsg → Int) (texts : Texts) (hfails : st.failsCleanly)
    (hmsg : f (.reward msg) = 0) :
    ((cachedSend texts msg st s).1.executed.map f).sum = (s.executed.map f).sum := by
  obtain hexec | hexec := cachedSend_executed texts msg hfails (s := s)
  · rw [hexec]
  · rw [hexec, List.map_append, List.sum_append]
    simp [hmsg]

end Calls

/-! ## What a task executes -/

section Tasks

variable {ctx : ClientCtx} {task : Task} {stages : Nat → Stages} {w : Worker} {event : WorkerEvent}

/-- The issue task sends no message that counts. -/
theorem sum_createBlocks (f : ChainMsg → Int) (hfails : ∀ i, (stages i).failsCleanly)
    (happend : ∀ msg, f (.reward (.appendTxHash msg)) = 0) (creator : GoString)
    (recIDs : List GoString) (i : Nat) (s : Session) :
    ((createBlocks ctx creator stages recIDs i s).1.executed.map f).sum =
      (s.executed.map f).sum := by
  induction recIDs generalizing i s with
  | nil => rfl
  | cons recID recIDs ih =>
      rw [createBlocks, ih, createBlockCLI_session]
      exact sum_cachedSend f _ (hfails i) (happend _)

theorem sum_runIssue (f : ChainMsg → Int) (hfails : ∀ i, (stages i).failsCleanly)
    (hcreate : ∀ msg, f (.reward (.createRECRecord msg)) = 0)
    (happend : ∀ msg, f (.reward (.appendTxHash msg)) = 0)
    (hpay : ∀ msg, f (.reward (.distributeRewardPercent msg)) = 0) (creator : GoString) :
    ((runIssue ctx creator stages w).session.executed.map f).sum =
      (w.session.executed.map f).sum := by
  -- the three ways out of the task share the call that creates the records
  have hissue : ((createRECRecordCLI ctx w.recCount (stages 0) w.session).1.executed.map f).sum =
      (w.session.executed.map f).sum := by
    rw [createRECRecordCLI_session]
    exact sum_cachedSend f _ (hfails 0) (hcreate _)
  unfold runIssue
  split
  · rename_i session recIDs err hres
    rw [hres] at hissue
    exact hissue
  · rename_i session hres
    rw [hres] at hissue
    exact hissue
  · rename_i session recIDs _ hres
    rw [hres] at hissue
    dsimp only
    rw [blockCreatorRewardPercentCLI_session, sum_cachedSend f _ (hfails _) (hpay _),
      sum_createBlocks f hfails happend]
    exact hissue

/-- The reward task sends its report exactly if its mint succeeded. -/
theorem executed_runReward (ctx : ClientCtx) (task : Task) (w : Worker)
    (hfails : ∀ i, (stages i).failsCleanly) :
    ∃ txHash, (runReward ctx task stages w).1.session.executed =
      if rewardSucceeds ctx task (stages 0) w.session then
        w.session.executed ++ rewardMsgs ctx task ++
          if (stages 1).clean then [.reward (.addEnergy
            ⟨ctx.fromAddress, task.userAddress, formatInt (wattHours task.power), txHash⟩)] else []
      else w.session.executed := by
  cases hsucceeds : rewardSucceeds ctx task (stages 0) w.session with
  | false =>
      obtain ⟨s', txHash, err, hres, hexec⟩ :=
        broadcastLightTxWithReward_of_not_succeeds (hfails 0) hsucceeds
      refine ⟨[], ?_⟩
      rw [runReward, hres]
      exact hexec
  | true =>
      obtain ⟨s', txHash, hres, hstep, hexec⟩ := broadcastLightTxWithReward_of_succeeds hsucceeds
      have hreport := cachedSend_of_inStep (commonTexts (bytes "[AddEnergyCLI]"))
        (.addEnergy
          ⟨ctx.fromAddress, task.userAddress, formatInt (wattHours task.power), txHash⟩)
        hstep (hfails 1)
      rw [← addEnergyCLI_session] at hreport
      refine ⟨txHash, ?_⟩
      -- whatever the report returns, its session is that of the call
      have hsession : (runReward ctx task stages w).1.session =
          (addEnergyCLI ctx task.userAddress (wattHours task.power) txHash (stages 1) s').1 := by
        rw [runReward, hres]
        dsimp only
        split
        · rename_i hadd
          rw [hadd]
        · rename_i hadd
          rw [hadd]
          split <;> rfl
      rw [hsession, hreport, hexec, if_pos rfl]
      split <;> simp

theorem newIntFromString_wattHours (power : Float64) :
    newIntFromString (formatInt (wattHours power)) = some (wattHours power) := by
  -- the conversion to an `int64` gives a number far below 256 bits, also for an overflow
  obtain ⟨hlo, hhi⟩ := isInt64_iff.1 power.mathRound.isInt64_toInt64
  have hpow : (2 : Nat) ^ 63 < 2 ^ 256 := Nat.pow_lt_pow_right one_lt_two (by decide)
  exact newIntFromString_formatInt (show power.mathRound.toInt64.natAbs < 2 ^ 256 by omega)

/-- The transactions of the step change nothing if they fail. -/
def WorkerEvent.failsCleanly : WorkerEvent → Prop
  | .execute stages => ∀ i, (stages i).failsCleanly
  | _ => True

/-- No report fails after a mint: a reward task mints nothing, or its first transaction does not go
through, or no stage of its second one fails. -/
def reportFollows (ctx : ClientCtx) (w : Worker) : WorkerEvent → Bool
  | .execute stages =>
      match w.queue with
      | .reward task :: _ =>
          wattHours task.power == 0 || !rewardSucceeds ctx task (stages 0) w.session ||
            (stages 1).clean
      | _ => true
  | _ => true

theorem minted_runReward_iff (hfails : ∀ i, (stages i).failsCleanly)
    (hbalance : w.session.minted = w.session.recorded) :
    (runReward ctx task stages w).1.session.minted =
        (runReward ctx task stages w).1.session.recorded ↔
      (wattHours task.power == 0 || !rewardSucceeds ctx task (stages 0) w.session ||
        (stages 1).clean) = true := by
  obtain ⟨txHash, hexec⟩ := executed_runReward ctx task w hfails
  unfold Session.minted Session.recorded at hbalance ⊢
  rw [hexec]
  have hvalue := newIntFromString_wattHours task.power
  cases rewardSucceeds ctx task (stages 0) w.session with
  | false => simp [hbalance]
  | true =>
      cases (stages 1).clean with
      | false => simp [rewardMsgs, ChainMsg.minted, ChainMsg.recorded, lightMsg, hvalue, hbalance]
      | true => simp [rewardMsgs, ChainMsg.minted, ChainMsg.recorded, lightMsg, hvalue, hbalance]

/-- One step keeps mints and reports equal exactly if no report fails after a mint. -/
theorem minted_step_iff (hfails : event.failsCleanly)
    (hbalance : w.session.minted = w.session.recorded) :
    (workerStep ctx w event).session.minted = (workerStep ctx w event).session.recorded ↔
      reportFollows ctx w event = true := by
  cases event with
  | enqueue task => simp [workerStep, reportFollows, hbalance]
  | blockCreator msg =>
      obtain ⟨queue, hmsg⟩ := handleBlockCreatorMessage_eq w msg
      simp [workerStep, reportFollows, hmsg, hbalance]
  | execute stages =>
      unfold workerStep reportFollows
      cases hqueue : w.queue with
      | nil => simp [hbalance]
      | cons head rest =>
          cases head with
          | reward task => exact minted_runReward_iff hfails hbalance
          | issue creator =>
              -- none of its three kinds of messages mints or reports
              have hminted : (runIssue ctx creator stages w).session.minted = w.session.minted :=
                sum_runIssue ChainMsg.minted hfails (fun _ => rfl) (fun _ => rfl) (fun _ => rfl) creator
              have hrecorded :
                  (runIssue ctx creator stages w).session.recorded = w.session.recorded :=
                sum_runIssue ChainMsg.recorded hfails (fun _ => rfl) (fun _ => rfl) (fun _ => rfl)
                  creator
              simp [hminted, hrecorded, hbalance]

/-- All along a run whose failed transactions change nothing, the coins minted are the watt-hours
recorded, exactly if no report fails after its mint. -/
theorem minted_eq_recorded_iff_reportFollows (ctx : ClientCtx) (session : Session)
    (hstart : session.executed = []) (events : List WorkerEvent)
    (hfails : ∀ event ∈ events, event.failsCleanly) :
    (∀ pre, pre <+: events →
      (run (workerStep ctx) (.start session) pre).session.minted =
        (run (workerStep ctx) (.start session) pre).session.recorded) ↔
      Along (workerStep ctx) (fun w event => reportFollows ctx w event = true) (.start session)
        events := by
  apply forall_prefix_history_iff_along (P := fun pre =>
    (run (workerStep ctx) (.start session) pre).session.minted =
      (run (workerStep ctx) (.start session) pre).session.recorded)
  · simp [Worker.start, Session.minted, Session.recorded, hstart]
  · intro pre event hpre hbalance
    rw [run_concat]
    exact minted_step_iff (hfails event (hpre.subset (by simp))) hbalance

end Tasks

/-! ## Runs of the small bridge -/

theorem minted_eq_recorded_spentReports :
    (run (workerStep smallClient) (.start freshSession) spentReports).session.minted =
      (run (workerStep smallClient) (.start freshSession) spentReports).session.recorded := by
  have hfails : ∀ event ∈ spentReports, event.failsCleanly := by
    simp [spentReports, WorkerEvent.failsCleanly, Stages.failsCleanly, cleanStages]
  exact (minted_eq_recorded_iff_reportFollows smallClient freshSession rfl spentReports hfails).2
    (by decide +kernel) spentReports List.prefix_rfl

/-- A reward task whose report fails in the simulation. -/
def failedReport : List WorkerEvent :=
  [.enqueue (roofTask (bytes "h1")),
    .execute fun i => if i = 1 then failedSimulation else cleanStages 0]

/-- The coins of the mint stay, and no energy is recorded. -/
theorem failed_report_keeps_mint :
    (∀ event ∈ failedReport, event.failsCleanly) ∧
      (run (workerStep smallClient) (.start freshSession) failedReport).session.minted = 700000 ∧
      (run (workerStep smallClient) (.start freshSession) failedReport).session.recorded = 0 := by
  refine ⟨?_, by decide +kernel⟩
  have hfails : ∀ i, (if i = 1 then failedSimulation else cleanStages 0).failsCleanly := by
    intro i herr
    split at herr <;> cases herr
  simpa [failedReport, WorkerEvent.failsCleanly] using hfails

end EnergyChain.Bridge
