import EnergyChain.Bridge.Votes

/-!
# Who receives the reward

A timer rewards the energy of the first message it collected, but it looks the device up in
`DeviceID`, which every later vote of the same hash overwrites, also after the timer has released the
lock. The messages a timer is still to look up are the claimants of their hash. The invariant says
that `DeviceID` names the device each claimant carries and that each pending send goes to the address
the map holds for the device of its message (`Attributed`); it is kept by every event that agrees
with the claimants (`Attributed.step`). Along such events the reward goes to the device that produced
the energy (`reward_to_carried_device`). A vote of another device with the same hash takes the reward
(`reward_to_other_device`).
-/

set_option autoImplicit false

namespace EnergyChain.Bridge

open EnergyChain.Go

section

variable {lib : AddressLib} {s : State}

/-! ## Claimants -/

/-- The messages of the hash whose address is still to be looked up: the first vote in the map and
the messages of the timers past the lock. -/
def claimants (s : State) (hash : GoString) : List LightTxMessage :=
  ((s.voteMap hash).head?.map (·.txMsg)).toList ++
    (s.collected.map (·.txMsg)).filter (·.hash == hash)

/-- Every device lookup finds the device of its own message. -/
structure Attributed (s : State) : Prop where
  filed : Filed s
  claimant : ∀ hash, ∀ txMsg ∈ claimants s hash, s.deviceID hash = (carriedID txMsg).getD []
  waiting : ∀ task ∈ s.waiting,
    ∃ id, carriedID task.txMsg = some id ∧ s.deviceAddressMap id = some task.userAddress
  nameless : s.deviceAddressMap [] = none

/-- The condition on a message and the state before it. A vote with a usable key carries the device
of every claimant of its hash; or it carries none, and it does not open its hash or no vote of that
hash named a device before. A stored reply does not change the address of a task whose send is
pending. -/
def agrees (lib : AddressLib) (s : State) : Event → Bool
  | .vote (some txMsg) =>
      (checkVote lib txMsg).isNone ||
        match carriedID txMsg with
        | some id => (claimants s txMsg.hash).all (carriedID · == some id)
        | none => s.voteMap txMsg.hash != [] || s.deviceID txMsg.hash == []
  | .reply (some response) =>
      !acceptsReply response || s.waiting.all fun task =>
        carriedID task.txMsg != some response.deviceID || task.userAddress == response.address
  | _ => true

theorem mem_claimants {hash : GoString} {txMsg : LightTxMessage} :
    txMsg ∈ claimants s hash ↔
      (∃ entry ∈ (s.voteMap hash).head?, entry.txMsg = txMsg) ∨
        (∃ c ∈ s.collected, c.txMsg = txMsg) ∧ txMsg.hash = hash := by
  simp [claimants]

/-- A vote adds itself to the claimants of its hash at most. -/
theorem mem_claimants_recordVote {entry : SignatureEntry} {hash : GoString} {txMsg : LightTxMessage}
    (h : txMsg ∈ claimants (recordVote s entry) hash) :
    txMsg ∈ claimants s hash ∨
      txMsg = entry.txMsg ∧ hash = entry.txMsg.hash ∧ s.voteMap hash = [] := by
  rw [mem_claimants, voteMap_recordVote, collected_recordVote] at h
  rcases h with ⟨first, hfirst, rfl⟩ | htimer
  · by_cases hhash : hash = entry.txMsg.hash
    · subst hhash
      rw [Function.update_self] at hfirst
      cases hvotes : s.voteMap entry.txMsg.hash with
      | nil =>
          rw [hvotes] at hfirst
          obtain rfl : entry = first := by simpa using hfirst
          exact Or.inr ⟨rfl, rfl, rfl⟩
      | cons oldest rest =>
          refine Or.inl (mem_claimants.2 (Or.inl ⟨first, ?_, rfl⟩))
          simpa [hvotes] using hfirst
    · rw [Function.update_of_ne hhash] at hfirst
      exact Or.inl (mem_claimants.2 (Or.inl ⟨first, hfirst, rfl⟩))
  · exact Or.inl (mem_claimants.2 (Or.inr htimer))

/-- Collecting turns the first vote of the map into the message of a timer. -/
theorem mem_claimants_collectVotes (hfiled : Filed s) {expired hash : GoString}
    {txMsg : LightTxMessage} (h : txMsg ∈ claimants (collectVotes s expired) hash) :
    txMsg ∈ claimants s hash := by
  simp only [collectVotes] at h
  split at h
  · split at h
    · exact h
    · rename_i oldest rest hvotes
      rcases mem_claimants.1 h with ⟨first, hfirst, rfl⟩ | ⟨⟨c, hc, rfl⟩, hhash⟩
      · change first ∈ (Function.update s.voteMap expired [] hash).head? at hfirst
        by_cases hexpired : hash = expired
        · simp [hexpired] at hfirst
        · rw [Function.update_of_ne hexpired] at hfirst
          exact mem_claimants.2 (Or.inl ⟨first, hfirst, rfl⟩)
      · rcases List.mem_cons.1 hc with rfl | hc
        · have holdest : oldest.txMsg.hash = expired := hfiled expired oldest (by simp [hvotes])
          obtain rfl : expired = hash := holdest.symm.trans hhash
          exact mem_claimants.2 (Or.inl ⟨oldest, by simp [hvotes], rfl⟩)
        · exact mem_claimants.2 (Or.inr ⟨⟨c, hc, rfl⟩, hhash⟩)
  · exact h

theorem mem_claimants_of_subset {s' : State} {hash : GoString} {txMsg : LightTxMessage}
    (hvotes : s'.voteMap = s.voteMap) (hcollected : s'.collected ⊆ s.collected)
    (h : txMsg ∈ claimants s' hash) : txMsg ∈ claimants s hash := by
  rw [mem_claimants, hvotes] at h
  rcases h with hvote | ⟨⟨c, hc, hm⟩, hhash⟩
  · exact mem_claimants.2 (Or.inl hvote)
  · exact mem_claimants.2 (Or.inr ⟨⟨c, hcollected hc, hm⟩, hhash⟩)

/-! ## One event -/

/-- The device map after a vote. -/
theorem deviceID_recordVote (entry : SignatureEntry) (hash : GoString) :
    (recordVote s entry).deviceID hash =
      if hash = entry.txMsg.hash then (carriedID entry.txMsg).getD (s.deviceID hash)
      else s.deviceID hash := by
  have hdevice : (recordVote s entry).deviceID = match carriedID entry.txMsg with
      | some id => Function.update s.deviceID entry.txMsg.hash id
      | none => s.deviceID := by
    simp only [recordVote]
    split <;> rfl
  rw [hdevice]
  cases carriedID entry.txMsg with
  | none => simp
  | some id => simp [Function.update_apply]

/-- A recorded vote that agrees with the claimants keeps the attribution. -/
theorem Attributed.recordVote {txMsg : LightTxMessage} {entry : SignatureEntry} (h : Attributed s)
    (hentry : checkVote lib txMsg = some entry) (he : agrees lib s (.vote (some txMsg)) = true) :
    Attributed (recordVote s entry) := by
  have htxMsg := txMsg_of_checkVote hentry
  have hhash : entry.txMsg.hash = txMsg.hash := by rw [htxMsg]
  have hcarried : carriedID entry.txMsg = carriedID txMsg := by rw [htxMsg]; rfl
  refine ⟨h.filed.recordVote entry, ?_, by simpa using h.waiting, by simpa using h.nameless⟩
  intro hash m hm
  rw [deviceID_recordVote]
  split
  · rename_i hsame
    subst hsame
    simp only [agrees, hentry, Option.isNone_some, Bool.false_or] at he
    rw [hcarried]
    cases hid : carriedID txMsg with
    | some id =>
        -- the vote names a device, which is the device of every claimant
        simp only [hid, List.all_eq_true, beq_iff_eq] at he
        rcases mem_claimants_recordVote hm with hm | ⟨rfl, -, -⟩
        · rw [he m (hhash ▸ hm)]
          rfl
        · rw [hcarried, hid]
          rfl
    | none =>
        -- the vote names no device and leaves the map as it is
        rcases mem_claimants_recordVote hm with hm | ⟨rfl, -, hopens⟩
        · exact h.claimant _ m hm
        · rw [hhash] at hopens
          have hunnamed : s.deviceID txMsg.hash = [] := by simpa [hid, hopens] using he
          rw [hcarried, hid, hhash, hunnamed]
  · rename_i hother
    rcases mem_claimants_recordVote hm with hm | ⟨-, hsame, -⟩
    · exact h.claimant hash m hm
    · exact absurd hsame hother

theorem Attributed.collectVotes (h : Attributed s) (expired : GoString) :
    Attributed (collectVotes s expired) := by
  have hframe : (Bridge.collectVotes s expired).deviceID = s.deviceID ∧
      (Bridge.collectVotes s expired).waiting = s.waiting ∧
      (Bridge.collectVotes s expired).deviceAddressMap = s.deviceAddressMap := by
    simp only [Bridge.collectVotes]
    split
    · split <;> exact ⟨rfl, rfl, rfl⟩
    · exact ⟨rfl, rfl, rfl⟩
  obtain ⟨hdevice, hwaiting, haddress⟩ := hframe
  refine ⟨h.filed.collectVotes expired, ?_, ?_, ?_⟩
  · intro hash m hm
    rw [hdevice]
    exact h.claimant hash m (mem_claimants_collectVotes h.filed hm)
  · rw [hwaiting, haddress]
    exact h.waiting
  · rw [haddress]
    exact h.nameless

/-- The lookup finds the address of the device the message carries: a message without a device finds
no address, since no reply is stored under the empty id. -/
theorem Attributed.lookUpAddress (h : Attributed s) (c : Collected) :
    Attributed (lookUpAddress s c) := by
  simp only [Bridge.lookUpAddress]
  split
  · rename_i hmem
    have hdevice : s.deviceID c.txMsg.hash = (carriedID c.txMsg).getD [] :=
      h.claimant _ _ (mem_claimants.2 (Or.inr ⟨⟨c, hmem, rfl⟩, rfl⟩))
    have hclaimant : ∀ s' : State, s'.voteMap = s.voteMap → s'.collected = s.collected.erase c →
        ∀ hash, ∀ m ∈ claimants s' hash, s.deviceID hash = (carriedID m).getD [] := by
      intro s' hvotes hcollected hash m hm
      refine h.claimant hash m (mem_claimants_of_subset hvotes ?_ hm)
      rw [hcollected]
      exact List.erase_subset
    split
    · exact ⟨h.filed, hclaimant _ rfl rfl, h.waiting, h.nameless⟩
    · rename_i userAddress haddress
      refine ⟨h.filed, hclaimant _ rfl rfl, ?_, h.nameless⟩
      intro task htask
      rcases List.mem_cons.1 htask with rfl | htask
      -- the address was read under the device of the hash, which is that of the message
      · rw [hdevice] at haddress
        cases hid : carriedID c.txMsg with
        | none =>
            rw [hid, Option.getD_none, h.nameless] at haddress
            cases haddress
        | some id =>
            rw [hid] at haddress
            exact ⟨id, rfl, haddress⟩
      · exact h.waiting task htask
  · exact h

theorem Attributed.enqueue (h : Attributed s) (task : Task) : Attributed (enqueue s task) := by
  simp only [Bridge.enqueue]
  split
  · exact ⟨h.filed, h.claimant, fun t ht => h.waiting t (List.mem_of_mem_erase ht), h.nameless⟩
  · exact h

/-- A stored reply keeps the address of every pending send. -/
theorem Attributed.storeAddress {msg : Option DeviceToAddressMessage} (h : Attributed s)
    (he : agrees lib s (.reply msg) = true) : Attributed (storeAddress s msg) := by
  cases msg with
  | none => exact h
  | some response =>
      simp only [Bridge.storeAddress]
      split
      · rename_i haccepts
        have hnamed : response.deviceID ≠ [] := by
          simp only [acceptsReply, Bool.and_eq_true, bne_iff_ne] at haccepts
          exact haccepts.2
        simp only [agrees, haccepts, Bool.not_true, Bool.false_or, List.all_eq_true, Bool.or_eq_true,
          bne_iff_ne, beq_iff_eq] at he
        refine ⟨h.filed, h.claimant, ?_, ?_⟩
        · intro task htask
          obtain ⟨id, hid, haddress⟩ := h.waiting task htask
          refine ⟨id, hid, ?_⟩
          change Function.update s.deviceAddressMap response.deviceID (some response.address) id = _
          by_cases hsame : id = response.deviceID
          · subst hsame
            -- a reply for a device with a pending send has to repeat its address
            have hkept : task.userAddress = response.address := by simpa [hid] using he task htask
            rw [Function.update_self, hkept]
          · rw [Function.update_of_ne hsame]
            exact haddress
        · exact (Function.update_of_ne hnamed.symm _ _).trans h.nameless
      · exact h

theorem Attributed.step {e : Event} (h : Attributed s) (he : agrees lib s e = true) :
    Attributed (step lib s e) := by
  cases e with
  | vote msg =>
      cases msg with
      | none => exact h
      | some txMsg =>
          simp only [Bridge.step, consumeClaim, Option.bind_some]
          split
          · rename_i entry hentry
            exact h.recordVote hentry he
          · exact h
  | expire expired => exact h.collectVotes expired
  | lookUp c => exact h.lookUpAddress c
  | send task => exact h.enqueue task
  | reply msg => exact h.storeAddress he

/-! ## Runs -/

theorem attributed_init : Attributed .init where
  filed := by
    intro hash entry hmem
    simp [State.init] at hmem
  claimant := by
    intro hash m hm
    simp [claimants, State.init] at hm
  waiting := by
    intro task htask
    simp [State.init] at htask
  nameless := rfl

/-- Only a send puts a task on `TxQueue`. -/
theorem mem_waiting_of_txQueue_step {e : Event} {task : Task}
    (h : (step lib s e).txQueue = s.txQueue ++ [task]) : task ∈ s.waiting := by
  -- every other event leaves the queue as it is
  have hgrows : s.txQueue ≠ s.txQueue ++ [task] := by simp
  cases e with
  | vote msg =>
      simp only [step, consumeClaim] at h
      split at h
      · rw [txQueue_recordVote] at h
        exact absurd h hgrows
      · exact absurd h hgrows
  | expire expired =>
      simp only [step, collectVotes] at h
      split at h
      · split at h <;> exact absurd h hgrows
      · exact absurd h hgrows
  | lookUp c =>
      simp only [step, lookUpAddress] at h
      split at h
      · split at h <;> exact absurd h hgrows
      · exact absurd h hgrows
  | send sent =>
      simp only [step, enqueue] at h
      split at h
      · rename_i hmem
        obtain rfl : sent = task := by simpa using h
        exact hmem
      · exact absurd h hgrows
  | reply msg =>
      cases msg with
      | none => exact absurd h hgrows
      | some response =>
          simp only [step, storeAddress] at h
          split at h <;> exact absurd h hgrows

/-- In every run whose events all agree with the claimants, whenever a task is put on `TxQueue` its
message carries a device, and the recipient is the address the map holds for that device at that
moment. -/
theorem reward_to_carried_device (lib : AddressLib) (es : List Event)
    (hes : Along (step lib) (fun s e => agrees lib s e = true) .init es)
    (pre : List Event) (e : Event) (task : Task) (hpre : pre ++ [e] <+: es)
    (hput : (run (step lib) .init (pre ++ [e])).txQueue =
      (run (step lib) .init pre).txQueue ++ [task]) :
    ∃ id, carriedID task.txMsg = some id ∧
      (run (step lib) .init pre).deviceAddressMap id = some task.userAddress := by
  obtain ⟨rest, rfl⟩ := hpre
  have hbefore : Along (step lib) (fun s e => agrees lib s e = true) .init pre :=
    hes.of_append.of_append
  have hattributed : Attributed (run (step lib) .init pre) :=
    run_invariant (fun _ _ hs he => hs.step he) attributed_init hbefore
  rw [run_concat] at hput
  exact hattributed.waiting task (mem_waiting_of_txQueue_step hput)

end

/-! ## Two devices and one hash -/

/-- Another device reports under the hash of the roof. -/
def barnVote : LightTxMessage := solarVote (bytes "barn-7") (bytes "9f2c") 1

def barnAddress : GoString := bytes "cosmos1zyg3zyg3zyg3zyg3zyg3zyg3zyg3zyg34xrs60"

/-- Both addresses are known before the first vote. -/
def knownDevices : List Event :=
  [addressReply (bytes "roof-1") roofAddress, addressReply (bytes "barn-7") barnAddress]

/-- The task of the roof's own votes goes to the roof. -/
theorem reward_to_carried_device_roof :
    ∃ id, carriedID roofVote = some id ∧
      (run (step smallLib) .init (knownDevices ++
        [.vote (some roofVote), .vote (some roofVote), .expire (bytes "9f2c"),
          .lookUp ⟨roofVote, [signerAddress]⟩])).deviceAddressMap id = some roofAddress :=
  reward_to_carried_device smallLib
    (knownDevices ++ .vote (some roofVote) :: .vote (some roofVote) ::
      timerEvents roofVote roofAddress)
    (by decide +kernel) _ (.send ⟨roofVote, roofAddress, power roofVote⟩)
    ⟨roofVote, roofAddress, power roofVote⟩ (by decide +kernel) (by decide +kernel)

/-- The roof reports five kilowatt hours, the barn one watt hour under the same hash: the reward for
the roof's energy goes to the barn. -/
theorem reward_to_other_device :
    (run (step smallLib) .init (knownDevices ++ .vote (some roofVote) :: .vote (some barnVote) ::
      timerEvents roofVote barnAddress)).txQueue = [⟨roofVote, barnAddress, .fin 5000⟩] ∧
    carriedID roofVote = some (bytes "roof-1") ∧
    (run (step smallLib) .init (knownDevices ++ .vote (some roofVote) :: .vote (some barnVote) ::
      timerEvents roofVote barnAddress)).deviceAddressMap (bytes "roof-1") = some roofAddress ∧
    roofAddress ≠ barnAddress := by
  decide +kernel

end EnergyChain.Bridge
