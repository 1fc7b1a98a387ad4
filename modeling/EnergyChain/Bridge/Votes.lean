import Mathlib.Data.List.Count
import EnergyChain.Bridge.Consumer

/-!
# One reward task for each light transaction

The votes of a hash are a token that moves from the vote map through the phases of a timer onto
`TxQueue`. No event copies the token: collecting, looking up and sending only move it or drop it
(`tokens_collectVotes_le`, `tokens_lookUpAddress_le`, `tokens_enqueue`). A vote makes a new one
exactly if the map holds no vote of its hash (`tokens_recordVote`), and the map forgets a hash as
soon as its timer has collected it. So a hash is rewarded at most once in every run in which no vote
opens a hash that is already under way (`rewardTasks_le_one`), and a vote that is delivered again
after the timer is rewarded again (`late_vote_rewarded_twice`).
-/

set_option autoImplicit false

namespace EnergyChain.Bridge

open EnergyChain.Go

section

variable {lib : AddressLib} {s : State}

/-! ## The votes of a hash as a token -/

/-- How many tasks for the hash were put on `TxQueue`. -/
def rewardTasks (s : State) (hash : GoString) : Nat :=
  s.txQueue.countP (·.txMsg.hash == hash)

/-- How many tokens of the hash the bridge holds: votes in the map, timers past the lock, tasks. -/
def tokens (s : State) (hash : GoString) : Nat :=
  (if s.voteMap hash = [] then 0 else 1) + s.collected.countP (·.txMsg.hash == hash) +
    s.waiting.countP (·.txMsg.hash == hash) + rewardTasks s hash

/-- The map files every vote under its own hash. -/
def Filed (s : State) : Prop := ∀ hash, ∀ entry ∈ s.voteMap hash, entry.txMsg.hash = hash

/-- A vote that passes the checks is recorded with its key padded and nothing else changed. -/
theorem txMsg_of_checkVote {txMsg : LightTxMessage} {entry : SignatureEntry}
    (h : checkVote lib txMsg = some entry) :
    entry.txMsg = { txMsg with pubkey := padPubkey txMsg.pubkey } := by
  simp only [checkVote, Option.bind_eq_bind, Option.bind_eq_some_iff] at h
  obtain ⟨pubkeyBytes, -, -, -, address, -, hentry⟩ := h
  rw [← Option.some_inj.1 hentry]

@[simp]
theorem voteMap_recordVote (entry : SignatureEntry) :
    (recordVote s entry).voteMap =
      Function.update s.voteMap entry.txMsg.hash (s.voteMap entry.txMsg.hash ++ [entry]) := by
  simp only [recordVote]
  split <;> rfl

@[simp]
theorem collected_recordVote (entry : SignatureEntry) :
    (recordVote s entry).collected = s.collected := by
  simp only [recordVote]
  split <;> rfl

@[simp]
theorem waiting_recordVote (entry : SignatureEntry) :
    (recordVote s entry).waiting = s.waiting := by
  simp only [recordVote]
  split <;> rfl

@[simp]
theorem txQueue_recordVote (entry : SignatureEntry) :
    (recordVote s entry).txQueue = s.txQueue := by
  simp only [recordVote]
  split <;> rfl

@[simp]
theorem deviceAddressMap_recordVote (entry : SignatureEntry) :
    (recordVote s entry).deviceAddressMap = s.deviceAddressMap := by
  simp only [recordVote]
  split <;> rfl

/-- A vote makes a token exactly if the map holds no vote of its hash. -/
theorem tokens_recordVote (entry : SignatureEntry) (hash : GoString) :
    tokens (recordVote s entry) hash =
      tokens s hash + if entry.txMsg.hash = hash ∧ s.voteMap hash = [] then 1 else 0 := by
  simp only [tokens, rewardTasks, voteMap_recordVote, collected_recordVote, waiting_recordVote,
    txQueue_recordVote]
  by_cases hhash : entry.txMsg.hash = hash
  · subst hhash
    by_cases hopen : s.voteMap entry.txMsg.hash = []
    · simp [hopen]
      omega
    · simp [hopen]
  · simp [hhash, Function.update_of_ne (Ne.symm hhash)]

/-- Collecting moves the token of the map to the timer. -/
theorem tokens_collectVotes_le (hfiled : Filed s) (expired hash : GoString) :
    tokens (collectVotes s expired) hash ≤ tokens s hash := by
  simp only [collectVotes]
  split
  · split
    · exact le_rfl
    · rename_i first rest hentries
      -- the token of the map becomes that of the timer, whose vote has the same hash
      have hfirst : first.txMsg.hash = expired := hfiled expired first (by simp [hentries])
      simp only [tokens, rewardTasks, List.countP_cons, hfirst]
      by_cases hhash : expired = hash
      · subst hhash
        simp [hentries, Nat.add_comm]
      · simp [hhash, Function.update_of_ne (Ne.symm hhash)]
  · exact le_rfl

/-- Looking the address up keeps the token or drops it. -/
theorem tokens_lookUpAddress_le (c : Collected) (hash : GoString) :
    tokens (lookUpAddress s c) hash ≤ tokens s hash := by
  simp only [lookUpAddress]
  split
  · rename_i hmem
    have hcount := (List.perm_cons_erase hmem).countP_eq (·.txMsg.hash == hash)
    rw [List.countP_cons] at hcount
    split
    -- no address: the timer ends here and takes the token with it
    · simp only [tokens, rewardTasks]
      omega
    · simp only [tokens, rewardTasks, List.countP_cons]
      omega
  · exact le_rfl

/-- Sending moves the token to `TxQueue`. -/
theorem tokens_enqueue (task : Task) (hash : GoString) :
    tokens (enqueue s task) hash = tokens s hash := by
  simp only [enqueue]
  split
  · rename_i hmem
    have hcount := (List.perm_cons_erase hmem).countP_eq (·.txMsg.hash == hash)
    rw [List.countP_cons] at hcount
    simp only [tokens, rewardTasks, List.countP_append, List.countP_singleton]
    omega
  · rfl

/-- A reply moves no token. -/
theorem tokens_storeAddress (msg : Option DeviceToAddressMessage) (hash : GoString) :
    tokens (storeAddress s msg) hash = tokens s hash := by
  cases msg with
  | none => rfl
  | some response =>
      simp only [storeAddress]
      split <;> rfl

/-! ## Runs -/

theorem Filed.recordVote (h : Filed s) (entry : SignatureEntry) :
    Filed (recordVote s entry) := by
  intro hash entry' hmem
  rw [voteMap_recordVote] at hmem
  by_cases hhash : hash = entry.txMsg.hash
  · subst hhash
    rw [Function.update_self, List.mem_append, List.mem_singleton] at hmem
    rcases hmem with hmem | rfl
    · exact h _ _ hmem
    · rfl
  · rw [Function.update_of_ne hhash] at hmem
    exact h _ _ hmem

theorem Filed.collectVotes (h : Filed s) (expired : GoString) : Filed (collectVotes s expired) := by
  simp only [Bridge.collectVotes]
  split
  · split
    · exact h
    · intro hash entry hmem
      change entry ∈ Function.update s.voteMap expired [] hash at hmem
      by_cases hhash : hash = expired
      · simp [hhash] at hmem
      · rw [Function.update_of_ne hhash] at hmem
        exact h _ _ hmem
  · exact h

theorem Filed.lookUpAddress (h : Filed s) (c : Collected) : Filed (lookUpAddress s c) := by
  simp only [Bridge.lookUpAddress]
  split
  · split <;> exact h
  · exact h

theorem Filed.step (h : Filed s) (e : Event) : Filed (step lib s e) := by
  cases e with
  | vote msg =>
      simp only [Bridge.step, consumeClaim]
      split
      · exact h.recordVote _
      · exact h
  | expire expired => exact h.collectVotes expired
  | lookUp c => exact h.lookUpAddress c
  | send task =>
      simp only [Bridge.step, enqueue]
      split <;> exact h
  | reply msg =>
      cases msg with
      | none => exact h
      | some response =>
          simp only [Bridge.step, storeAddress]
          split <;> exact h

/-- No timer past its lock and no task belongs to the hash. -/
def untouched (s : State) (hash : GoString) : Bool :=
  s.collected.all (·.txMsg.hash != hash) && s.waiting.all (·.txMsg.hash != hash) &&
    s.txQueue.all (·.txMsg.hash != hash)

/-- The condition on a message and the state before it: a vote with a usable key that finds no vote
of its hash in the map comes before the hash was collected, or after its timer ended without a
task. -/
def inTime (lib : AddressLib) (s : State) : Event → Bool
  | .vote (some txMsg) =>
      (checkVote lib txMsg).isNone || s.voteMap txMsg.hash != [] || untouched s txMsg.hash
  | _ => true

theorem tokens_eq_zero {hash : GoString} (hopen : s.voteMap hash = [])
    (h : untouched s hash = true) : tokens s hash = 0 := by
  simp only [untouched, Bool.and_eq_true, List.all_eq_true] at h
  obtain ⟨⟨hcollected, hwaiting⟩, hqueue⟩ := h
  simp only [tokens, rewardTasks, hopen, if_true, Nat.add_eq_zero_iff, List.countP_eq_zero]
  refine ⟨⟨⟨trivial, fun c hc => ?_⟩, fun t ht => ?_⟩, fun t ht => ?_⟩
  · simpa using hcollected c hc
  · simpa using hwaiting t ht
  · simpa using hqueue t ht

/-- An event that is in time leaves at most one token of each hash. -/
theorem tokens_step_le_one {e : Event} (hfiled : Filed s) (h : ∀ hash, tokens s hash ≤ 1)
    (he : inTime lib s e = true) (hash : GoString) : tokens (step lib s e) hash ≤ 1 := by
  cases e with
  | vote msg =>
      cases msg with
      | none => exact h hash
      | some txMsg =>
          simp only [step, consumeClaim, Option.bind_some]
          split
          · rename_i entry hentry
            have hhash : entry.txMsg.hash = txMsg.hash := by rw [txMsg_of_checkVote hentry]
            rw [tokens_recordVote]
            split
            · rename_i hopens
              -- the vote opens its hash, so the condition says that nothing is under way
              obtain ⟨rfl, hopen⟩ := hopens
              rw [hhash] at hopen
              have huntouched : untouched s txMsg.hash = true := by
                simpa [inTime, hentry, hopen] using he
              rw [hhash, tokens_eq_zero hopen huntouched]
            · exact h hash
          · exact h hash
  | expire expired => exact (tokens_collectVotes_le hfiled expired hash).trans (h hash)
  | lookUp c => exact (tokens_lookUpAddress_le c hash).trans (h hash)
  | send task => exact (tokens_enqueue task hash).trans_le (h hash)
  | reply msg => exact (tokens_storeAddress msg hash).trans_le (h hash)

/-- In every run whose votes are in time, at most one task for each hash is ever put on
`TxQueue`. -/
theorem rewardTasks_le_one (lib : AddressLib) (es : List Event)
    (hes : Along (step lib) (fun s e => inTime lib s e = true) .init es) (hash : GoString) :
    rewardTasks (run (step lib) .init es) hash ≤ 1 := by
  have hinv : Filed (run (step lib) .init es) ∧
      ∀ hash, tokens (run (step lib) .init es) hash ≤ 1 := by
    refine run_invariant (I := fun s => Filed s ∧ ∀ hash, tokens s hash ≤ 1)
      (fun s e hs he => ⟨hs.1.step e, tokens_step_le_one hs.1 hs.2 he⟩) ⟨?_, ?_⟩ hes
    · intro hash entry hmem
      simp [State.init] at hmem
    · intro hash
      simp [tokens, rewardTasks, State.init]
  have hle := hinv.2 hash
  simp only [tokens] at hle
  omega

end

/-! ## A vote in time and a vote too late -/

/-- Five kilowatt hours of a device. -/
def roofVote : LightTxMessage := solarVote (bytes "roof-1") (bytes "9f2c") 5000

def roofAddress : GoString := bytes "cosmos1qypqxpq9qcrsszg2pvxq6rs0zqg3yyc5lzv7xu"

/-- Two votes before the timer. -/
def votedTwice : List Event :=
  [.vote (some roofVote), addressReply (bytes "roof-1") roofAddress, .vote (some roofVote)] ++
    timerEvents roofVote roofAddress

theorem rewardTasks_le_one_votedTwice :
    rewardTasks (run (step smallLib) .init votedTwice) (bytes "9f2c") = 1 ∧
      rewardTasks (run (step smallLib) .init votedTwice) (bytes "9f2c") ≤ 1 :=
  ⟨by decide +kernel, rewardTasks_le_one smallLib votedTwice (by decide +kernel) _⟩

/-- The same vote once more, after the timer has collected its hash: the map has forgotten the hash,
so the vote starts a second timer. -/
theorem late_vote_rewarded_twice :
    rewardTasks (run (step smallLib) .init
      (votedTwice ++ .vote (some roofVote) :: timerEvents roofVote roofAddress))
      (bytes "9f2c") = 2 := by
  decide +kernel

end EnergyChain.Bridge
