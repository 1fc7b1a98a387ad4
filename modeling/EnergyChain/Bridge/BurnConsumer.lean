import EnergyChain.Lib.Redelivery
import EnergyChain.Bridge.Sequence

/-!
# The consumer of burn requests

`burnHandler.ConsumeClaim` puts a task on `TxQueue` for every burn request that Kafka delivers. The
task decodes the request, calls `BurnStableCoinCLI`, publishes a result and marks the request; but
where the decoding or the call fails it publishes a result with the coin `err` and returns without a
mark. So a request can be delivered and executed again after its sender was told that it failed
(`failed_burn_replayed`). A request is not executed after it was answered as long as restarts and
rebalances come only when the answered requests lie behind the marked offsets
(`answered_burn_not_repeated`).

Between two tasks of this consumer the worker may run tasks of others, which call the senders too.
-/

set_option autoImplicit false

namespace EnergyChain.Bridge

open EnergyChain.Go
open EnergyChain.Redelivery (Message Consumer Handler Resumes working)

/-- `types.BurnMessage`. -/
structure BurnMessage where
  address : GoString
  coin : GoString
  deriving DecidableEq

/-- What `json.Unmarshal` makes of a request: the message, or an error with the fields it had set. -/
abbrev BurnRequest := Except BurnMessage BurnMessage

/-- A result message: the request with the coin `err`, or the result of the burn. -/
inductive BurnReply where
  | err (msg : BurnMessage)
  | done (msg : BurnResultMessage)

/-- The senders' session and the result messages published so far, each with its request. -/
structure BurnWorker where
  session : Session
  results : List (Message BurnRequest × BurnReply)

/-- How a task ends: the stages of `BurnStableCoinCLI`, whether `json.Marshal` encodes the result, and
whether `SendMessage` publishes it. -/
structure BurnOutcome where
  stages : Stages
  marshalled : Bool
  sent : Bool

/-- `producer.SendMessage`; a failure is at most printed. -/
def BurnWorker.sendMessage (w : BurnWorker) (outcome : BurnOutcome) (request : Message BurnRequest)
    (reply : BurnReply) : BurnWorker :=
  if outcome.sent then { w with results := w.results ++ [(request, reply)] } else w

/-- The task of a request, and whether it marks the request. -/
def burnTask (ctx : ClientCtx) (outcome : BurnOutcome) (request : Message BurnRequest)
    (w : BurnWorker) : BurnWorker × Bool :=
  match request.value with
  | .error burnMsg =>
      (w.sendMessage outcome request (.err { burnMsg with coin := bytes "err" }), false)
  | .ok burnMsg =>
      match burnStableCoinCLI ctx burnMsg.address burnMsg.coin outcome.stages w.session with
      | (session, _, some _) =>
          -- the sender is told that the burn failed, and the request stays unmarked
          ({ w with session := session }.sendMessage outcome request
            (.err { burnMsg with coin := bytes "err" }), false)
      -- a call without an error has a result
      | (session, none, none) => ({ w with session := session }, false)
      | (session, some result, none) =>
          if outcome.marshalled then
            -- the mark does not depend on the result having been sent
            ({ w with session := session }.sendMessage outcome request (.done { result with
              address := burnMsg.address, errorReason := [] }), true)
          else ({ w with session := session }, false)

/-- The consumer of burn requests. The caches of the senders do not survive a restart. -/
def burnHandler (ctx : ClientCtx) : Handler BurnRequest BurnWorker BurnOutcome SessionEvent where
  work := burnTask ctx
  aside event w := { w with session := sessionStep ctx w.session event }
  restart w := { w with session := { w.session with cache := ⟨0, 0, false⟩ } }

abbrev BurnConsumer := Consumer BurnRequest BurnWorker

abbrev BurnEvent := Redelivery.Event BurnRequest BurnOutcome SessionEvent

/-- One step of the burn consumer. -/
def burnStep (ctx : ClientCtx) (c : BurnConsumer) (e : BurnEvent) : BurnConsumer :=
  Redelivery.step (burnHandler ctx) c e

/-- The requests for which a result has been published. -/
def BurnWorker.answered (w : BurnWorker) : List (Message BurnRequest) := w.results.map Prod.fst

/-- The request for which the step runs `BurnStableCoinCLI`. -/
def burnCalled (c : BurnConsumer) (e : BurnEvent) : Option (Message BurnRequest) :=
  (working c e).filter fun request => request.value.isOk

/-- A restart or a rebalance comes when delivery resumes behind all decodable requests that were
answered and, at a rebalance, behind those that are queued. -/
def ResumesBehind (c : BurnConsumer) (e : BurnEvent) : Prop :=
  Resumes (fun request : BurnRequest => request.isOk) BurnWorker.answered c e

instance (c : BurnConsumer) (e : BurnEvent) : Decidable (ResumesBehind c e) :=
  inferInstanceAs (Decidable (Resumes _ _ c e))

section

variable {ctx : ClientCtx} {outcome : BurnOutcome} {request : Message BurnRequest} {w : BurnWorker}

theorem answered_sendMessage {reply : BurnReply} {m : Message BurnRequest}
    (hm : m ∈ (w.sendMessage outcome request reply).answered) : m ∈ w.answered ∨ m = request := by
  unfold BurnWorker.sendMessage at hm
  split at hm
  · rw [BurnWorker.answered, List.map_append, List.mem_append] at hm
    exact hm.imp id List.mem_singleton.1
  · exact .inl hm

/-- A task answers its own request at most. -/
theorem answered_burnTask {m : Message BurnRequest}
    (hm : m ∈ (burnTask ctx outcome request w).1.answered) : m ∈ w.answered ∨ m = request := by
  unfold burnTask at hm
  split at hm
  · exact answered_sendMessage hm
  · split at hm
    · have hsent := answered_sendMessage hm
      exact hsent
    · exact .inl hm
    · split at hm
      · have hsent := answered_sendMessage hm
        exact hsent
      · exact .inl hm

theorem burnHandler_answers (ctx : ClientCtx) : (burnHandler ctx).Answers BurnWorker.answered where
  work _ _ _ _ hm := answered_burnTask hm
  aside _ _ := rfl
  restart _ := rfl

/-- From a consumer that has nothing queued and has answered nothing, in every run whose restarts and
rebalances come with the answered requests behind the offset of resumption, no step runs
`BurnStableCoinCLI` for a request for which a result has been published. -/
theorem answered_burn_not_repeated (ctx : ClientCtx) (start : BurnConsumer)
    (hqueue : start.queue = []) (hresults : start.worker.results = []) (es : List BurnEvent)
    (hes : Along (burnStep ctx) ResumesBehind start es) (pre : List BurnEvent) (e : BurnEvent)
    (hpre : pre ++ [e] <+: es) (request : Message BurnRequest)
    (hcalled : burnCalled (run (burnStep ctx) start pre) e = some request) :
    ∀ result ∈ (run (burnStep ctx) start pre).worker.results, result.1.place ≠ request.place := by
  obtain ⟨hworking, hok⟩ := Option.filter_eq_some_iff.1 hcalled
  have hanswered : start.worker.answered = [] := by rw [BurnWorker.answered, hresults]; rfl
  have hunanswered := Redelivery.run_unanswered (burnHandler_answers ctx)
    (Redelivery.fresh_of_idle hqueue hanswered) hes hpre hworking hok
  intro result hresult
  exact hunanswered result.1 (List.mem_map_of_mem hresult)

end

/-! ## A short topic -/

/-- An empty topic and a bridge that has sent nothing. -/
def emptyTopic : BurnConsumer := ⟨fun _ => ⟨[], 0, none⟩, [], ⟨freshSession, []⟩⟩

/-- A request to burn 100 coins of the address. -/
def burnOf (address : GoString) : BurnRequest := .ok ⟨address, bytes "100"⟩

/-- The task's result is published and the call ends with these stages. -/
def endsWith (stages : Stages) : BurnEvent := .work ⟨stages, true, true⟩

/-- Two requests; the first burn succeeds, the simulation of the second fails; then a restart, after
which the second request is delivered again. -/
def burnFailsThenRestart : List BurnEvent :=
  [.produce 0 (burnOf (bytes "a")), .produce 0 (burnOf (bytes "b")), .deliver 0, .deliver 0,
    endsWith (cleanStages 0), endsWith failedSimulation, .restart, .deliver 0]

/-- The second request was answered with `err`, and after the restart it is executed with success. -/
theorem failed_burn_replayed :
    (burnCalled (run (burnStep smallClient) emptyTopic burnFailsThenRestart)
        (endsWith (cleanStages 0))).map Message.place = some (0, 1) ∧
      (0, 1) ∈ (run (burnStep smallClient) emptyTopic burnFailsThenRestart).worker.answered.map
        Message.place ∧
      (run (burnStep smallClient) emptyTopic
          (burnFailsThenRestart ++ [endsWith (cleanStages 0)])).worker.session.executed =
        [.reward (.burnStableCoin ⟨signerAddress, bytes "a", bytes "100aeil"⟩),
          .reward (.burnStableCoin ⟨signerAddress, bytes "b", bytes "100aeil"⟩)] := by
  refine ⟨by decide +kernel, by decide +kernel, by decide +kernel⟩

/-- The failed burn comes first: the mark of the later one covers it, and the restart is harmless. -/
def laterBurnMarked : List BurnEvent :=
  [.produce 0 (burnOf (bytes "a")), .produce 0 (burnOf (bytes "b")), .deliver 0, .deliver 0,
    endsWith failedSimulation, endsWith (cleanStages 0), .restart,
    .produce 0 (burnOf (bytes "c")), .deliver 0, endsWith (cleanStages 0)]

theorem answered_burn_not_repeated_laterBurnMarked :
    Along (burnStep smallClient) ResumesBehind emptyTopic laterBurnMarked ∧
      ∀ request, burnCalled (run (burnStep smallClient) emptyTopic laterBurnMarked.dropLast)
          (endsWith (cleanStages 0)) = some request →
        ∀ result ∈ (run (burnStep smallClient) emptyTopic laterBurnMarked.dropLast).worker.results,
          result.1.place ≠ request.place := by
  have hes : Along (burnStep smallClient) ResumesBehind emptyTopic laterBurnMarked := by
    decide +kernel
  exact ⟨hes, answered_burn_not_repeated smallClient emptyTopic rfl rfl laterBurnMarked hes
    laterBurnMarked.dropLast (endsWith (cleanStages 0)) (List.prefix_refl _)⟩

end EnergyChain.Bridge
