import EnergyChain.Lib.Run
import EnergyChain.Store.Branch

/-!
# The states of a node

A node keeps two layers over the committed store: the transactions of a block work on `deliverState`, those
of the mempool and the simulations on `checkState`. `Commit` writes `deliverState` to the committed store
and starts both layers anew.

The ante handler and the messages of a transaction have a branch each. What a node commits and what it
answers to the transactions of its blocks is what one gets from those transactions on a map, one after the
other, each with all of its writes or with those of the ante handler or with none. Checks and simulations
between them do not matter, whatever they do (`node_refines`, `blocks_determine_commits`).

The outcome of a transaction covers its gas: a handler that runs out of it, of its own or of the gas of the
block, is a program that ends in an error.
-/

set_option autoImplicit false

namespace EnergyChain.BaseApp

open EnergyChain.Go
open EnergyChain.CacheKV

/-- What a transaction does to the store: its ante handler and its messages. -/
structure TxPrograms (ε α : Type) where
  ante : Program (Except ε Unit)
  msgs : Program (Except ε α)

/-- `runTxMode`; a recheck differs from a check only in what the ante handler does. -/
inductive Mode where
  | check
  | simulate
  | deliver

section

variable {ε α : Type}

/-- `runTx` over the multistore of its context. A check runs no messages; only a block keeps what they
write. -/
def runPhases {P I : Type} [KVStore P I] [KVWriter P] (fuel : Nat) (mode : Mode)
    (tx : TxPrograms ε α) (ms : P) : Option (P × Except ε (Option α)) := do
  let (ms, anteResult) ← branch fuel true tx.ante ms
  match anteResult, mode with
  | .error err, _ => some (ms, .error err)
  | .ok _, .check => some (ms, .ok none)
  | .ok _, .simulate => do
      let (ms, result) ← branch fuel false tx.msgs ms
      some (ms, result.map some)
  | .ok _, .deliver => do
      let (ms, result) ← branch fuel true tx.msgs ms
      some (ms, result.map some)

/-- `getContextForTx` and `runTx`: a simulation gets a layer of its own, which is dropped. -/
def runTx {P I : Type} [KVStore P I] (fuel : Nat) (mode : Mode) (tx : TxPrograms ε α)
    (state : Store P) : Option (Store P × Except ε (Option α)) :=
  match mode with
  | .simulate => do
      let (ms, result) ← runPhases fuel .simulate tx (newStore state)
      some (ms.parent, result)
  | mode => runPhases fuel mode tx state

/-- `app.cms`, `app.checkState` and `app.deliverState`. -/
structure Node where
  cms : SortedMap GoString GoString
  checkState : Store (SortedMap GoString GoString)
  deliverState : Store (SortedMap GoString GoString)

/-- A node after `Commit`, with the layer that the next `BeginBlock` makes. -/
def Node.new (cms : SortedMap GoString GoString) : Node := ⟨cms, newStore cms, newStore cms⟩

variable (ε α) in
/-- What a node is asked to do. -/
inductive Request where
  | checkTx (tx : TxPrograms ε α)
  | simulate (tx : TxPrograms ε α)
  | deliverTx (tx : TxPrograms ε α)
  | commit

variable (ε α) in
/-- The answers. -/
inductive Response where
  | checked (result : Except ε (Option α))
  | simulated (result : Except ε (Option α))
  | delivered (result : Except ε (Option α))
  | committed

/-- The answer to a transaction of a block. -/
def Response.delivered? : Response ε α → Option (Except ε (Option α))
  | .delivered result => some result
  | _ => none

/-- One request. -/
def Node.step (fuel : Nat) (node : Node) : Request ε α → Option (Node × Response ε α)
  | .checkTx tx => do
      let (state, result) ← runTx fuel .check tx node.checkState
      some ({ node with checkState := state }, .checked result)
  | .simulate tx => do
      let (state, result) ← runTx fuel .simulate tx node.checkState
      some ({ node with checkState := state }, .simulated result)
  | .deliverTx tx => do
      let (state, result) ← runTx fuel .deliver tx node.deliverState
      some ({ node with deliverState := state }, .delivered result)
  | .commit => do
      let state ← (write node.deliverState).toOption
      some (.new state.parent, .committed)

/-- A sequence of requests, with the answers. -/
def Node.run (fuel : Nat) : Node → List (Request ε α) → Option (Node × List (Response ε α))
  | node, [] => some (node, [])
  | node, request :: requests => do
      let (node, response) ← node.step fuel request
      let (node, responses) ← node.run fuel requests
      some (node, response :: responses)

/-! ## On maps -/

/-- `runTx` on a map. -/
def txOnMap (mode : Mode) (tx : TxPrograms ε α) (m : SortedMap GoString GoString) :
    SortedMap GoString GoString × Except ε (Option α) :=
  match branchOnMap true tx.ante m, mode with
  | (m, .error err), _ => (m, .error err)
  | (m, .ok _), .check => (m, .ok none)
  | (m, .ok _), .simulate =>
      ((branchOnMap false tx.msgs m).1, (branchOnMap false tx.msgs m).2.map some)
  | (m, .ok _), .deliver => ((branchOnMap true tx.msgs m).1, (branchOnMap true tx.msgs m).2.map some)

/-- The fuel that a transaction needs on a map. -/
def TxPrograms.fuel (tx : TxPrograms ε α) (m : SortedMap GoString GoString) : Nat :=
  max (tx.ante.fuel m) (tx.msgs.fuel (branchOnMap true tx.ante m).1)

/-- The committed map and the maps of the two states. -/
structure Maps where
  committed : SortedMap GoString GoString
  check : SortedMap GoString GoString
  deliver : SortedMap GoString GoString

def Maps.new (m : SortedMap GoString GoString) : Maps := ⟨m, m, m⟩

namespace Maps

variable (maps : Maps)

/-- What a request does to the maps. -/
def step : Request ε α → Maps
  | .checkTx tx => { maps with check := (txOnMap .check tx maps.check).1 }
  | .simulate _ => maps
  | .deliverTx tx => { maps with deliver := (txOnMap .deliver tx maps.deliver).1 }
  | .commit => .new maps.deliver

/-- The answer to a request. -/
def response : Request ε α → Response ε α
  | .checkTx tx => .checked (txOnMap .check tx maps.check).2
  | .simulate tx => .simulated (txOnMap .simulate tx maps.check).2
  | .deliverTx tx => .delivered (txOnMap .deliver tx maps.deliver).2
  | .commit => .committed

/-- The fuel that a request needs. -/
def fuel : Request ε α → Nat
  | .checkTx tx | .simulate tx => tx.fuel maps.check
  | .deliverTx tx => tx.fuel maps.deliver
  | .commit => 0

end Maps

/-- The fuel that a sequence of requests needs. -/
def fuelOf : Maps → List (Request ε α) → Nat
  | _, [] => 0
  | maps, request :: requests => max (maps.fuel request) (fuelOf (maps.step request) requests)

/-! ## The node follows the maps -/

/-- The programs use keys and ranges as they may. -/
def TxPrograms.WellFormed (tx : TxPrograms ε α) : Prop := tx.ante.WellFormed ∧ tx.msgs.WellFormed

/-- The programs of the request do. -/
def Request.WellFormed : Request ε α → Prop
  | .checkTx tx | .simulate tx | .deliverTx tx => tx.WellFormed
  | .commit => True

section

variable {P I : Type} [KVStore P I] [Contents P I] [KVWriter P]
  {R : P → SortedMap GoString GoString → Prop} (hR : Tracks R) {tx : TxPrograms ε α}
  (htx : tx.WellFormed) {m : SortedMap GoString GoString} {fuel : Nat} (hfuel : tx.fuel m ≤ fuel)

include hR htx hfuel

/-- Both phases act on the contents as on a map. -/
theorem runPhases_spec (mode : Mode) {ms : P} (h : R ms m) :
    ∃ ms', runPhases fuel mode tx ms = some (ms', (txOnMap mode tx m).2) ∧
      R ms' (txOnMap mode tx m).1 := by
  rw [TxPrograms.fuel, max_le_iff] at hfuel
  obtain ⟨ms₁, hante, hms₁⟩ := branch_spec hR true htx.1 h hfuel.1
  -- the branch of the messages starts from what the ante handler left
  have hmsgs := fun keeps => branch_spec hR keeps htx.2 hms₁ hfuel.2
  rcases hresult : branchOnMap true tx.ante m with ⟨m₁, err | _⟩
  · rw [hresult] at hante hms₁
    exact ⟨ms₁, by simp [runPhases, hante, txOnMap, hresult], by simpa [txOnMap, hresult] using hms₁⟩
  · rw [hresult] at hante hms₁ hmsgs
    cases mode with
    | check =>
        exact ⟨ms₁, by simp [runPhases, hante, txOnMap, hresult],
          by simpa [txOnMap, hresult] using hms₁⟩
    | simulate =>
        obtain ⟨ms₂, hbranch, hms₂⟩ := hmsgs false
        exact ⟨ms₂, by simp [runPhases, hante, hbranch, txOnMap, hresult],
          by simpa [txOnMap, hresult] using hms₂⟩
    | deliver =>
        obtain ⟨ms₂, hbranch, hms₂⟩ := hmsgs true
        exact ⟨ms₂, by simp [runPhases, hante, hbranch, txOnMap, hresult],
          by simpa [txOnMap, hresult] using hms₂⟩

variable {below : SortedMap GoString GoString} {state : Store P} (h : Over R below state m)

include h

theorem runTx_spec {mode : Mode} (hmode : mode ≠ .simulate) :
    ∃ state', runTx fuel mode tx state = some (state', (txOnMap mode tx m).2) ∧
      Over R below state' (txOnMap mode tx m).1 := by
  cases mode with
  | check => exact runPhases_spec (tracks_over hR below) htx hfuel .check h
  | deliver => exact runPhases_spec (tracks_over hR below) htx hfuel .deliver h
  | simulate => exact absurd rfl hmode

/-- A simulation leaves the contents of the state. -/
theorem runTx_simulate :
    ∃ state', runTx fuel .simulate tx state = some (state', (txOnMap .simulate tx m).2) ∧
      Over R below state' m := by
  have hlayer := over_newStore (tracks_over hR below) h
  obtain ⟨ms, hrun, hms⟩ :=
    runPhases_spec (tracks_over (tracks_over hR below) m) htx hfuel .simulate hlayer
  exact ⟨ms.parent, by simp [runTx, hrun], hms.parent⟩

end

/-- The node stands for the maps. -/
structure Follows (node : Node) (maps : Maps) : Prop where
  cms : node.cms = maps.committed
  check : Over (· = ·) maps.committed node.checkState maps.check
  deliver : Over (· = ·) maps.committed node.deliverState maps.deliver

theorem follows_new (db : SortedMap GoString GoString) : Follows (.new db) (.new db) :=
  ⟨rfl, over_newStore tracks_committed rfl, over_newStore tracks_committed rfl⟩

/-- One request. -/
theorem step_spec {node : Node} {maps : Maps} (h : Follows node maps) {request : Request ε α}
    (hrequest : request.WellFormed) {fuel : Nat} (hfuel : maps.fuel request ≤ fuel) :
    ∃ node', node.step fuel request = some (node', maps.response request) ∧
      Follows node' (maps.step request) := by
  cases request with
  | checkTx tx =>
      obtain ⟨state, hrun, hstate⟩ :=
        runTx_spec tracks_committed hrequest hfuel h.check (show Mode.check ≠ .simulate from nofun)
      refine ⟨{ node with checkState := state }, ?_, ⟨h.cms, hstate, h.deliver⟩⟩
      simp [Node.step, hrun, Maps.response]
  | simulate tx =>
      obtain ⟨state, hrun, hstate⟩ := runTx_simulate tracks_committed hrequest hfuel h.check
      refine ⟨{ node with checkState := state }, ?_, ⟨h.cms, hstate, h.deliver⟩⟩
      simp [Node.step, hrun, Maps.response]
  | deliverTx tx =>
      obtain ⟨state, hrun, hstate⟩ :=
        runTx_spec tracks_committed hrequest hfuel h.deliver
          (show Mode.deliver ≠ .simulate from nofun)
      refine ⟨{ node with deliverState := state }, ?_, ⟨h.cms, h.check, hstate⟩⟩
      simp [Node.step, hrun, Maps.response]
  | commit =>
      obtain ⟨db, hwrite, rfl⟩ := write_spec tracks_committed h.deliver
      exact ⟨.new maps.deliver, by simp only [Node.step, hwrite]; rfl, follows_new _⟩

/-- A sequence of requests. -/
theorem run_spec {requests : List (Request ε α)} (hwf : ∀ r ∈ requests, r.WellFormed) {node : Node}
    {maps : Maps} (h : Follows node maps) {fuel : Nat} (hfuel : fuelOf maps requests ≤ fuel) :
    ∃ node', node.run fuel requests = some (node', trace Maps.step Maps.response maps requests) ∧
      Follows node' (run Maps.step maps requests) := by
  induction requests generalizing node maps with
  | nil => exact ⟨node, rfl, h⟩
  | cons request requests ih =>
      rw [fuelOf, max_le_iff] at hfuel
      obtain ⟨node₁, hstep, hnode₁⟩ := step_spec h (hwf request List.mem_cons_self) hfuel.1
      obtain ⟨node', hrun, hnode'⟩ :=
        ih (fun r hr => hwf r (List.mem_cons_of_mem request hr)) hnode₁ hfuel.2
      exact ⟨node', by simp [Node.run, hstep, hrun], hnode'⟩

/-- A transaction that counts itself and then files a text, unless there is one. -/
def fileTx (text : GoString) : TxPrograms GoString Unit where
  ante := .get [1] fun count => .set [1] (count.getD [] ++ [0]) (.done (.ok ()))
  msgs := .scan (some [2]) (some [3]) fun items =>
    .set (2 :: text) text
      (.done (if items.isEmpty then .ok () else .error (bytes "there is a text already")))

theorem fileTx_wellFormed (text : GoString) : (fileTx text).WellFormed := by
  simp [TxPrograms.WellFormed, fileTx, Program.WellFormed, Covered]

/-- The second transaction of the block fails, and so does only its text. -/
def fileRequests : List (Request GoString Unit) :=
  [.checkTx (fileTx [7]), .deliverTx (fileTx [8]), .simulate (fileTx [7]), .deliverTx (fileTx [9]), .commit]

theorem fileRequests_wellFormed : ∀ r ∈ fileRequests, r.WellFormed := by
  intro r hr
  simp only [fileRequests, List.mem_cons, List.not_mem_nil, or_false] at hr
  rcases hr with rfl | rfl | rfl | rfl | rfl
  case inr.inr.inr.inr => trivial
  all_goals exact fileTx_wellFormed _

/-- The request belongs to a block. -/
def Request.inBlock : Request ε α → Bool
  | .deliverTx _ | .commit => true
  | .checkTx _ | .simulate _ => false

/-- The maps agree, apart from the state of the mempool. -/
structure SameBlocks (maps maps' : Maps) : Prop where
  committed : maps.committed = maps'.committed
  deliver : maps.deliver = maps'.deliver

section

variable {maps maps' : Maps} (h : SameBlocks maps maps')

include h

/-- A request of a block sees the same and does the same. -/
theorem SameBlocks.step (request : Request ε α) (hblock : request.inBlock = true) :
    SameBlocks (maps.step request) (maps'.step request) ∧
      (maps.response request).delivered? = (maps'.response request).delivered? := by
  cases request with
  | checkTx tx => cases hblock
  | simulate tx => cases hblock
  | deliverTx tx =>
      rw [Maps.step, Maps.step, Maps.response, Maps.response, h.deliver]
      exact ⟨⟨h.committed, rfl⟩, rfl⟩
  | commit => exact ⟨⟨h.deliver, h.deliver⟩, rfl⟩

/-- Another request leaves the maps of the blocks. -/
theorem SameBlocks.skip (request : Request ε α) (hblock : request.inBlock = false) :
    SameBlocks (maps.step request) maps' ∧ (maps.response request).delivered? = none := by
  cases request with
  | checkTx tx => exact ⟨⟨h.committed, h.deliver⟩, rfl⟩
  | simulate tx => exact ⟨⟨h.committed, h.deliver⟩, rfl⟩
  | deliverTx tx => cases hblock
  | commit => cases hblock

/-- The blocks and their answers are those of the requests of the blocks alone. -/
theorem SameBlocks.run_filter (requests : List (Request ε α)) :
    SameBlocks (run Maps.step maps requests)
        (run Maps.step maps' (requests.filter Request.inBlock)) ∧
      (trace Maps.step Maps.response maps requests).filterMap Response.delivered? =
        (trace Maps.step Maps.response maps' (requests.filter Request.inBlock)).filterMap
          Response.delivered? := by
  induction requests generalizing maps maps' with
  | nil => exact ⟨h, rfl⟩
  | cons request requests ih =>
      cases hblock : request.inBlock with
      | true =>
          obtain ⟨hstep, hresponse⟩ := h.step request hblock
          obtain ⟨hrun, htrace⟩ := ih hstep
          rw [List.filter_cons_of_pos hblock]
          refine ⟨hrun, ?_⟩
          rw [trace_cons, trace_cons, List.filterMap_cons, List.filterMap_cons, hresponse, htrace]
      | false =>
          obtain ⟨hstep, hresponse⟩ := h.skip request hblock
          obtain ⟨hrun, htrace⟩ := ih hstep
          rw [List.filter_cons_of_neg (by rw [hblock]; exact Bool.false_ne_true)]
          refine ⟨hrun, ?_⟩
          rw [trace_cons, List.filterMap_cons, hresponse, htrace]

end

/-- Two nodes with the same blocks commit the same store and answer the transactions of the blocks alike,
whatever else they are asked in between. -/
theorem blocks_determine_commits (db : SortedMap GoString GoString)
    (requests requests' : List (Request ε α)) (hwf : ∀ r ∈ requests, r.WellFormed)
    (hwf' : ∀ r ∈ requests', r.WellFormed)
    (hblocks : requests.filter Request.inBlock = requests'.filter Request.inBlock) :
    ∃ bound, ∀ fuel, bound ≤ fuel → ∃ node node' responses responses',
      (Node.new db).run fuel requests = some (node, responses) ∧
      (Node.new db).run fuel requests' = some (node', responses') ∧
      node.cms = node'.cms ∧
      responses.filterMap Response.delivered? = responses'.filterMap Response.delivered? := by
  have hsame : SameBlocks (Maps.new db) (Maps.new db) := ⟨rfl, rfl⟩
  obtain ⟨hrun, htrace⟩ := hsame.run_filter requests
  obtain ⟨hrun', htrace'⟩ := hsame.run_filter requests'
  rw [hblocks] at hrun htrace
  refine ⟨max (fuelOf (.new db) requests) (fuelOf (.new db) requests'), fun fuel hfuel => ?_⟩
  obtain ⟨node, hnode, hfollows⟩ := run_spec hwf (follows_new db) (le_of_max_le_left hfuel)
  obtain ⟨node', hnode', hfollows'⟩ := run_spec hwf' (follows_new db) (le_of_max_le_right hfuel)
  refine ⟨node, node', _, _, hnode, hnode', ?_, htrace.trans htrace'.symm⟩
  rw [hfollows.cms, hfollows'.cms, hrun.committed, hrun'.committed]

end

theorem blocks_determine_commits_fileRequests :
    ∃ bound, ∀ fuel, bound ≤ fuel → ∃ node node' responses responses',
      (Node.new .empty).run fuel fileRequests = some (node, responses) ∧
      (Node.new .empty).run fuel (fileRequests.filter Request.inBlock) = some (node', responses') ∧
      node.cms = node'.cms ∧
      responses.filterMap Response.delivered? = responses'.filterMap Response.delivered? :=
  blocks_determine_commits .empty fileRequests (fileRequests.filter Request.inBlock)
    fileRequests_wellFormed (fun r hr => fileRequests_wellFormed r (List.mem_of_mem_filter hr)) rfl

end EnergyChain.BaseApp
