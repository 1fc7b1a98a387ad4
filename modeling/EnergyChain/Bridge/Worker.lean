import EnergyChain.Bridge.Sequence

/-!
# The worker of the bridge

One goroutine takes the tasks off `TxQueue`. A reward task sends the light transaction with the mint
and, if that succeeded, the energy report; the RECs that the report returned are stored in `RECCount`.
A block-creator message puts an issue task on the queue if `RECCount` is positive; the task asks for
`RECCount` records, appends a block for each of them, pays the block creator and clears `RECCount`.

A task runs to its end before the next one starts, so its run is one event; a message of a block
creator can come in between two tasks.
-/

set_option autoImplicit false

namespace EnergyChain.Bridge

open EnergyChain.Go

/-- `BlockCreatorMsg`; the contribution is not read. -/
structure BlockCreatorMsg where
  creator : GoString
  fullnodeID : GoString

/-- A task on `TxQueue`. -/
inductive QueuedTask where
  | reward (task : Task)
  | issue (creator : GoString)

structure Worker where
  session : Session
  /-- `RECCount` -/
  recCount : Int
  queue : List QueuedTask
  /-- the contributor lists sent to Kafka -/
  contributorsSent : List (List Reward.Contributor)

/-- The reward task, with the RECs that `AddEnergyCLI` returned; the stages of its two calls are those
of numbers 0 and 1. -/
def runReward (ctx : ClientCtx) (task : Task) (stages : Nat → Stages) (w : Worker) : Worker × Int :=
  match broadcastLightTxWithReward ctx task.txMsg task.userAddress task.power (stages 0) w.session with
  | (session, _, some _) => ({ w with session := session }, 0)
  | (session, txHash, none) =>
      match addEnergyCLI ctx task.userAddress (wattHours task.power) txHash (stages 1) session with
      | (session, _, _, _, some _) => ({ w with session := session }, 0)
      | (session, recs, contributors, _, none) =>
          if 0 < recs then
            ({ w with
              session := session
              recCount := recs
              contributorsSent := w.contributorsSent ++ [contributors] }, recs)
          else ({ w with session := session }, recs)

/-- The loop over the record ids: one `CreateBlockCLI` each, whose errors are only printed. The stages
are numbered from `i` on. -/
def createBlocks (ctx : ClientCtx) (creator : GoString) (stages : Nat → Stages) :
    List GoString → Nat → Session → Session × Nat
  | [], i, session => (session, i)
  | recID :: recIDs, i, session =>
      createBlocks ctx creator stages recIDs (i + 1)
        (createBlockCLI ctx creator recID (stages i) session).1

/-- `strings.TrimPrefix(data.Creator, "/")`. -/
def trimSlash : GoString → GoString
  | 47 :: rest => rest
  | creator => creator

/-- The issue task. All its ways out clear `RECCount`. -/
def runIssue (ctx : ClientCtx) (creator : GoString) (stages : Nat → Stages) (w : Worker) : Worker :=
  match createRECRecordCLI ctx w.recCount (stages 0) w.session with
  -- the error path clears the count too, so the RECs are not asked for again
  | (session, _, some _) => { w with session := session, recCount := 0 }
  | (session, [], none) => { w with session := session, recCount := 0 }
  | (session, recIDs, none) =>
      let (session, i) := createBlocks ctx (trimSlash creator) stages recIDs 1 session
      let (session, _, _) :=
        blockCreatorRewardPercentCLI ctx (trimSlash creator) (bytes "0.1") (stages i) session
      { w with session := session, recCount := 0 }

/-- `handleBlockCreatorMessage`; `none` is a message `json.Unmarshal` rejects. -/
def handleBlockCreatorMessage (w : Worker) (msg : Option BlockCreatorMsg) : Worker :=
  match msg with
  | none => w
  | some data =>
      if data.fullnodeID ≠ Bridge.fullnodeID then w
      -- the count is read here and again when the task runs
      else if w.recCount ≤ 0 then w
      else { w with queue := w.queue ++ [.issue data.creator] }

/-- What can happen next: a timer puts its reward task on the queue, a message of a block creator
arrives, or the worker runs the first task of the queue. -/
inductive WorkerEvent where
  | enqueue (task : Task)
  | blockCreator (msg : Option BlockCreatorMsg)
  | execute (stages : Nat → Stages)

/-- One step of the worker. -/
def workerStep (ctx : ClientCtx) (w : Worker) : WorkerEvent → Worker
  | .enqueue task => { w with queue := w.queue ++ [.reward task] }
  | .blockCreator msg => handleBlockCreatorMessage w msg
  | .execute stages =>
      match w.queue with
      | [] => w
      | .reward task :: rest => { (runReward ctx task stages w).1 with queue := rest }
      | .issue creator :: rest => { runIssue ctx creator stages w with queue := rest }

/-- The bridge before the first task. -/
def Worker.start (session : Session) : Worker := ⟨session, 0, [], []⟩

/-! ## Earned RECs -/

/-- The RECs that `AddEnergyCLI` returned in the step. -/
def recsReturned (ctx : ClientCtx) (w : Worker) : WorkerEvent → Int
  | .execute stages =>
      match w.queue with
      | .reward task :: _ => (runReward ctx task stages w).2
      | _ => 0
  | _ => 0

/-- The RECs that `CreateRECRecordCLI` was asked for in the step. -/
def recsRequested (w : Worker) : WorkerEvent → Int
  | .execute _ =>
      match w.queue with
      | .issue _ :: _ => w.recCount
      | _ => 0
  | _ => 0

section

variable {ctx : ClientCtx} {w : Worker} {task : Task} {stages : Nat → Stages} {event : WorkerEvent}

/-- A reward task stores what it returned, if that is positive, over what was stored. -/
theorem recCount_runReward :
    (runReward ctx task stages w).1.recCount =
      if 0 < (runReward ctx task stages w).2 then (runReward ctx task stages w).2
      else w.recCount := by
  unfold runReward
  split
  · rfl
  · split
    · rfl
    · split <;> rfl

theorem recCount_runIssue (creator : GoString) : (runIssue ctx creator stages w).recCount = 0 := by
  unfold runIssue
  split <;> rfl

/-- A message of a block creator at most adds to the queue. -/
theorem handleBlockCreatorMessage_eq (w : Worker) (msg : Option BlockCreatorMsg) :
    ∃ queue, handleBlockCreatorMessage w msg = { w with queue := queue } := by
  unfold handleBlockCreatorMessage
  split
  · exact ⟨w.queue, rfl⟩
  split
  · exact ⟨w.queue, rfl⟩
  split
  · exact ⟨w.queue, rfl⟩
  exact ⟨_, rfl⟩

/-- The responses of the chain report no negative number of RECs. -/
def WorkerEvent.recsNonneg : WorkerEvent → Prop
  | .execute stages => ∀ i, 0 ≤ (stages i).verdict.response.recs
  | _ => True

theorem runReward_nonneg (h : ∀ i, 0 ≤ (stages i).verdict.response.recs) :
    0 ≤ (runReward ctx task stages w).2 := by
  -- the RECs are those of the response, or zero if the call fails
  have hrecs : ∀ session txHash, 0 ≤ (addEnergyCLI ctx task.userAddress (wattHours task.power) txHash
      (stages 1) session).2.1 := by
    intro session txHash
    unfold addEnergyCLI
    split
    · rename_i s' res hres
      rw [response_of_cachedSend hres]
      exact h 1
    · exact le_rfl
  unfold runReward
  split
  · exact le_rfl
  · rename_i session txHash hsend
    have hrec := hrecs session txHash
    split
    · exact le_rfl
    · rename_i session' recs contributors log hadd
      rw [hadd] at hrec
      split
      · exact hrec
      · exact hrec

/-- A report that returns RECs comes when none are stored. -/
def recCountSpent (ctx : ClientCtx) (w : Worker) (event : WorkerEvent) : Prop :=
  0 < recsReturned ctx w event → w.recCount = 0

instance (ctx : ClientCtx) (w : Worker) (event : WorkerEvent) : Decidable (recCountSpent ctx w event) :=
  inferInstanceAs (Decidable (0 < recsReturned ctx w event → w.recCount = 0))

/-- One step keeps the balance of RECs exactly if it overwrites none. -/
theorem recCount_step_iff (hrecs : event.recsNonneg) {requested returned : Int}
    (hbalance : requested + w.recCount = returned) :
    requested + recsRequested w event + (workerStep ctx w event).recCount =
      returned + recsReturned ctx w event ↔ recCountSpent ctx w event := by
  unfold recCountSpent
  cases event with
  | enqueue task => simp [recsRequested, recsReturned, workerStep, hbalance]
  | blockCreator msg =>
      obtain ⟨queue, hmsg⟩ := handleBlockCreatorMessage_eq w msg
      simp [recsRequested, recsReturned, workerStep, hmsg, hbalance]
  | execute stages =>
      unfold recsRequested recsReturned workerStep
      cases hqueue : w.queue with
      | nil => simp [hbalance]
      | cons head rest =>
          cases head with
          | issue creator =>
              -- what was stored is asked for, and nothing is left
              dsimp only
              rw [recCount_runIssue]
              simp [hbalance]
          | reward task =>
              dsimp only
              rw [recCount_runReward]
              have hnonneg : 0 ≤ (runReward ctx task stages w).2 := runReward_nonneg hrecs
              -- a positive number replaces the stored one instead of being added to it
              split
              · rename_i hpos
                constructor
                · intro h _
                  omega
                · intro h
                  have := h hpos
                  omega
              · rename_i hpos
                constructor
                · exact fun _ hpos' => absurd hpos' hpos
                · intro _
                  omega

/-- All along a run in which no report returns a negative number, the RECs asked for and `RECCount` are
together the RECs returned, exactly if every report that returns RECs comes when `RECCount` is zero. -/
theorem recs_balance_iff_recCountSpent (ctx : ClientCtx) (session : Session)
    (events : List WorkerEvent) (hrecs : ∀ event ∈ events, event.recsNonneg) :
    (∀ pre, pre <+: events →
      (trace (workerStep ctx) recsRequested (.start session) pre).sum +
          (run (workerStep ctx) (.start session) pre).recCount =
        (trace (workerStep ctx) (recsReturned ctx) (.start session) pre).sum) ↔
      Along (workerStep ctx) (recCountSpent ctx) (.start session) events := by
  apply forall_prefix_history_iff_along (P := fun pre =>
    (trace (workerStep ctx) recsRequested (.start session) pre).sum +
        (run (workerStep ctx) (.start session) pre).recCount =
      (trace (workerStep ctx) (recsReturned ctx) (.start session) pre).sum)
  · rfl
  · intro pre event hpre hbalance
    rw [trace_concat, trace_concat, run_concat, List.sum_append, List.sum_append,
      List.sum_singleton, List.sum_singleton]
    exact recCount_step_iff (hrecs event (hpre.subset (by simp))) hbalance

end

/-! ## Runs of the small bridge -/

/-- The reward task of the roof panel. -/
def roofTask (hash : GoString) : Task :=
  ⟨solarVote (bytes "roof") hash 700000, signerAddress, power (solarVote (bytes "roof") hash 700000)⟩

/-- A message of a block creator for this full node. -/
def creatorMsg : BlockCreatorMsg := ⟨bytes "/node", Bridge.fullnodeID⟩

/-- Two reports, each of which earns a REC, and the block creator's message after each of them. -/
def spentReports : List WorkerEvent :=
  [.enqueue (roofTask (bytes "h1")), .execute fun _ => cleanStages 1, .blockCreator (some creatorMsg),
    .execute fun _ => cleanStages 0, .enqueue (roofTask (bytes "h2")), .execute fun _ => cleanStages 1]

theorem recs_balance_spentReports :
    (trace (workerStep smallClient) recsRequested (.start freshSession) spentReports).sum +
        (run (workerStep smallClient) (.start freshSession) spentReports).recCount =
      (trace (workerStep smallClient) (recsReturned smallClient) (.start freshSession)
        spentReports).sum := by
  have hrecs : ∀ event ∈ spentReports, event.recsNonneg := by
    simp [spentReports, WorkerEvent.recsNonneg, cleanStages, smallResponse]
  exact (recs_balance_iff_recCountSpent smallClient freshSession spentReports hrecs).2
    (by decide +kernel) spentReports List.prefix_rfl

/-- Two reports, each of which earns a REC, before the block creator's message. -/
def overwritingReports : List WorkerEvent :=
  [.enqueue (roofTask (bytes "h1")), .execute fun _ => cleanStages 1,
    .enqueue (roofTask (bytes "h2")), .execute fun _ => cleanStages 1]

/-- The second report overwrites the REC of the first: two were earned, and only one can still be asked
for. -/
theorem second_report_overwrites_recCount :
    (trace (workerStep smallClient) recsRequested (.start freshSession) overwritingReports).sum = 0 ∧
      (run (workerStep smallClient) (.start freshSession) overwritingReports).recCount = 1 ∧
      (trace (workerStep smallClient) (recsReturned smallClient) (.start freshSession)
        overwritingReports).sum = 2 := by
  decide +kernel

end EnergyChain.Bridge
