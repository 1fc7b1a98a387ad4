import EnergyChain.Bridge.Votes

/-!
# Every vote is in one validator list

A vote that finds no other vote of its hash starts the timer of the hash; the timer takes all votes of
the hash out of the map. So a timer sleeps for a hash exactly as long as the map holds votes of it
(`Timed`), and no vote is left behind.

The votes that a timer takes are a batch. What an event takes and what the map holds after it are
together what the map held before and the vote it brought (`taken_append_voteMap`); chained over a run,
the batches of a hash and the votes still in the map are the accepted votes, in order
(`batches_append_voteMap`). The validator lists are the signers of the batches (`perm_lists`). So no vote
is lost, and each is taken once (`votes_counted_once`).

A signer is another matter. The map forgets a hash with the batch, so a signer who votes for it again after
the timer is put into a second list. `load` counts a signer in the lists, and once more while the map holds
a vote of theirs; it never falls, and rises above one exactly if a signer votes again after an expiry took
their vote. `signers_listed_once_iff` is therefore exact, and `signer_listed_twice` is the replay.
-/

set_option autoImplicit false

namespace EnergyChain.Bridge

open EnergyChain.Go

/-- The vote for the hash that an event brings, if its key is usable. -/
def acceptedVote (lib : AddressLib) (hash : GoString) : Event → List SignatureEntry
  | .vote msg => (msg.bind (checkVote lib)).toList.filter (·.txMsg.hash == hash)
  | _ => []

/-- The votes for the hash that the events bring. -/
def acceptedVotes (lib : AddressLib) (hash : GoString) (es : List Event) : List SignatureEntry :=
  es.flatMap (acceptedVote lib hash)

/-- The batch of the hash that an event takes out of the map. -/
def taken (hash : GoString) (s : State) : Event → List (List SignatureEntry)
  | .expire expired =>
      if expired = hash ∧ hash ∈ s.timers ∧ s.voteMap hash ≠ [] then [s.voteMap hash] else []
  | _ => []

/-- The batches of the hash in a run. -/
def batches (lib : AddressLib) (hash : GoString) (s : State) (es : List Event) :
    List (List SignatureEntry) :=
  (trace (step lib) (taken hash) s es).flatten

/-- The validator lists produced for the hash: those sent, and those of the timers past the lock. -/
def validatorLists (s : State) (hash : GoString) : List (List GoString) :=
  (s.validators.filter (·.1 == hash)).map (·.2) ++
    (s.collected.filter (·.txMsg.hash == hash)).map (·.uniqueList)

/-- A hash has one pending timer as long as the map holds votes of it, and none otherwise. -/
def Timed (s : State) : Prop :=
  ∀ hash, s.timers.count hash = if s.voteMap hash = [] then 0 else 1

section

variable {lib : AddressLib} {s : State} {hash : GoString}

theorem validatorLists_congr {s' : State} (hvalidators : s'.validators = s.validators)
    (hcollected : s'.collected = s.collected) : validatorLists s' hash = validatorLists s hash := by
  rw [validatorLists, validatorLists, hvalidators, hcollected]

/-! ## One event -/

theorem timers_recordVote (entry : SignatureEntry) :
    (recordVote s entry).timers =
      if s.voteMap entry.txMsg.hash = [] then entry.txMsg.hash :: s.timers else s.timers := by
  simp only [recordVote, List.length_append, List.length_singleton, Nat.add_eq_right,
    List.length_eq_zero_iff]
  split <;> rfl

theorem validators_recordVote (entry : SignatureEntry) :
    (recordVote s entry).validators = s.validators := by
  simp only [recordVote]
  split <;> rfl

/-- The first vote of a hash starts its timer. -/
theorem Timed.recordVote (h : Timed s) (entry : SignatureEntry) : Timed (recordVote s entry) := by
  intro hash
  rw [timers_recordVote, voteMap_recordVote]
  have hcount := h hash
  by_cases hhash : hash = entry.txMsg.hash
  · subst hhash
    rw [Function.update_self, if_neg (List.append_ne_nil_of_right_ne_nil _ (List.cons_ne_nil _ _))]
    split
    · rename_i hopen
      rw [if_pos hopen] at hcount
      rw [List.count_cons_self, hcount]
    · rename_i hopen
      rw [if_neg hopen] at hcount
      exact hcount
  · rw [Function.update_of_ne hhash, ← hcount]
    split
    · exact List.count_cons_of_ne (Ne.symm hhash)
    · rfl

/-- A timer that ends leaves no vote of its hash behind. -/
theorem Timed.collectVotes (h : Timed s) (expired : GoString) : Timed (collectVotes s expired) := by
  unfold Bridge.collectVotes
  split
  · rename_i hmem
    have hexpired := h expired
    have hpos := List.count_pos_iff.2 hmem
    dsimp only
    split
    · rename_i hopen
      rw [if_pos hopen] at hexpired
      omega
    · rename_i first rest hentries
      intro hash
      by_cases hhash : hash = expired
      · subst hhash
        rw [if_neg (by rw [hentries]; exact List.cons_ne_nil _ _)] at hexpired
        simp [List.count_erase_self, hexpired]
      · simp only [Function.update_of_ne hhash]
        rw [List.count_erase_of_ne hhash]
        exact h hash
  · exact h

theorem Timed.step (h : Timed s) (e : Event) : Timed (step lib s e) := by
  cases e with
  | vote msg =>
      simp only [Bridge.step, consumeClaim]
      split
      · exact h.recordVote _
      · exact h
  | expire expired => exact h.collectVotes expired
  | lookUp c =>
      simp only [Bridge.step, lookUpAddress]
      split
      · split <;> exact h
      · exact h
  | send task =>
      simp only [Bridge.step, enqueue]
      split <;> exact h
  | reply msg =>
      simp only [Bridge.step, storeAddress]
      split
      · exact h
      · split <;> exact h

/-- What an event takes and what it leaves are what was there and what it brings. -/
theorem taken_append_voteMap (lib : AddressLib) (hash : GoString) (s : State) (e : Event) :
    (taken hash s e).flatten ++ (step lib s e).voteMap hash =
      s.voteMap hash ++ acceptedVote lib hash e := by
  cases e with
  | vote msg =>
      simp only [step, consumeClaim, taken, acceptedVote]
      cases msg.bind (checkVote lib) with
      | none => simp
      | some entry =>
          by_cases hhash : entry.txMsg.hash = hash
          · subst hhash
            simp
          · simp [hhash, Function.update_of_ne (Ne.symm hhash)]
  | expire expired =>
      simp only [step, collectVotes, taken, acceptedVote, List.append_nil]
      by_cases hhash : expired = hash
      · subst hhash
        by_cases hmem : expired ∈ s.timers
        · cases hentries : s.voteMap expired with
          | nil => simp [hmem, hentries]
          | cons first rest => simp [hmem]
        · simp [hmem]
      · simp only [hhash, false_and, if_false, List.flatten_nil, List.nil_append]
        split
        · split
          · rfl
          · exact Function.update_of_ne (Ne.symm hhash) _ _
        · rfl
  | lookUp c =>
      simp only [step, lookUpAddress, taken, acceptedVote]
      split
      · split <;> simp
      · simp
  | send task =>
      simp only [step, enqueue, taken, acceptedVote]
      split <;> simp
  | reply msg =>
      simp only [step, storeAddress, taken, acceptedVote]
      split
      · simp
      · split <;> simp

/-- An event produces the signers of the batch it takes, and no other list. -/
theorem perm_lists_step (lib : AddressLib) (hfiled : Filed s) (hash : GoString) (e : Event) :
    (validatorLists (step lib s e) hash).Perm
      (validatorLists s hash ++ (taken hash s e).map uniqueAddresses) := by
  cases e with
  | vote msg =>
      simp only [step, consumeClaim, taken, List.map_nil, List.append_nil]
      split
      · rw [validatorLists_congr (validators_recordVote _) (collected_recordVote _)]
      · rfl
  | expire expired =>
      simp only [step, collectVotes, taken]
      by_cases hmem : expired ∈ s.timers
      · rw [if_pos hmem]
        cases hentries : s.voteMap expired with
        | nil =>
            have hnone : ¬(expired = hash ∧ hash ∈ s.timers ∧ s.voteMap hash ≠ []) := by
              rintro ⟨rfl, -, hne⟩
              exact hne hentries
            rw [if_neg hnone]
            simp [validatorLists]
        | cons first rest =>
            have hfirst : first.txMsg.hash = expired := hfiled expired first (by simp [hentries])
            by_cases hhash : expired = hash
            · subst hhash
              simp only [validatorLists, hfirst, hmem, hentries, List.filter_cons_of_pos, beq_self_eq_true,
                List.map_cons, ne_eq, reduceCtorEq, not_false_eq_true, and_self, if_true, List.map_nil]
              exact (List.perm_middle.trans (List.perm_append_singleton _ _).symm)
            · simp [validatorLists, hfirst, hhash]
      · rw [if_neg hmem]
        have hnone : ¬(expired = hash ∧ hash ∈ s.timers ∧ s.voteMap hash ≠ []) := by
          rintro ⟨rfl, hmem', -⟩
          exact hmem hmem'
        rw [if_neg hnone]
        simp
  | lookUp c =>
      simp only [step, lookUpAddress, taken, List.map_nil, List.append_nil]
      split
      · rename_i hmem
        -- the list of `c` moves from the timers to the lists sent
        have hmoved : (validatorLists { s with
            collected := s.collected.erase c
            validators := s.validators ++ [(c.txMsg.hash, c.uniqueList)] } hash).Perm
            (validatorLists s hash) := by
          have hperm := ((List.perm_cons_erase hmem).filter (·.txMsg.hash == hash)).map (·.uniqueList)
          simp only [validatorLists, List.filter_append, List.map_append, List.append_assoc]
          apply List.Perm.append_left
          refine List.Perm.trans ?_ hperm.symm
          by_cases hhash : c.txMsg.hash = hash
          · simp [hhash]
          · simp [hhash]
        split
        · exact hmoved
        · exact hmoved
      · rfl
  | send task =>
      simp only [step, enqueue, taken, List.map_nil, List.append_nil]
      split <;> rfl
  | reply msg =>
      simp only [step, storeAddress, taken, List.map_nil, List.append_nil]
      split
      · rfl
      · split <;> rfl

/-! ## Runs -/

theorem batches_append (lib : AddressLib) (hash : GoString) (s : State) (es fs : List Event) :
    batches lib hash s (es ++ fs) =
      batches lib hash s es ++ batches lib hash (run (step lib) s es) fs := by
  rw [batches, trace_append, List.flatten_append]
  rfl

theorem batches_cons (lib : AddressLib) (hash : GoString) (s : State) (e : Event) (es : List Event) :
    batches lib hash s (e :: es) = taken hash s e ++ batches lib hash (step lib s e) es := rfl

theorem timed_run (es : List Event) (h : Timed s) : Timed (run (step lib) s es) :=
  run_invariant (C := fun _ _ => True) (fun _ e hs _ => hs.step e) h
    (along_of_forall s fun _ _ _ => trivial)

theorem timed_init : Timed .init := by
  intro hash
  simp [State.init]

/-- The batches of a run and the votes in the map after it are the votes in the map before it and the
votes it brought, in order. -/
theorem batches_append_voteMap (lib : AddressLib) (hash : GoString) (s : State) (es : List Event) :
    (batches lib hash s es).flatten ++ (run (step lib) s es).voteMap hash =
      s.voteMap hash ++ acceptedVotes lib hash es := by
  induction es generalizing s with
  | nil => simp [batches, acceptedVotes, run]
  | cons e es ih =>
      have hstep := taken_append_voteMap lib hash s e
      calc (batches lib hash s (e :: es)).flatten ++ (run (step lib) s (e :: es)).voteMap hash
          = (taken hash s e).flatten ++ ((batches lib hash (step lib s e) es).flatten ++
              (run (step lib) (step lib s e) es).voteMap hash) := by
            rw [batches_cons, List.flatten_append, List.append_assoc]
            rfl
        _ = (taken hash s e).flatten ++ (step lib s e).voteMap hash ++ acceptedVotes lib hash es := by
            rw [ih, List.append_assoc]
        _ = s.voteMap hash ++ acceptedVotes lib hash (e :: es) := by
            rw [hstep, List.append_assoc]
            rfl

/-- The validator lists of a run are the signers of its batches. -/
theorem perm_lists (lib : AddressLib) (hash : GoString) (es : List Event) (h : Filed s) :
    (validatorLists (run (step lib) s es) hash).Perm
      (validatorLists s hash ++ (batches lib hash s es).map uniqueAddresses) := by
  induction es generalizing s with
  | nil => simp [batches, run]
  | cons e es ih =>
      have hstep := perm_lists_step lib h hash e
      refine (ih (h.step e)).trans ?_
      rw [batches_cons, List.map_append, ← List.append_assoc]
      exact hstep.append_right _

/-- Without an expiry of its timer no batch of a hash is taken. -/
theorem batches_of_not_expired (es : List Event) (h : Event.expire hash ∉ es) :
    batches lib hash s es = [] := by
  induction es generalizing s with
  | nil => rfl
  | cons e es ih =>
      have hnone : taken hash s e = [] := by
        cases e with
        | expire expired =>
            refine if_neg ?_
            rintro ⟨rfl, -⟩
            exact h List.mem_cons_self
        | _ => rfl
      rw [batches_cons, hnone, ih fun hmem => h (List.mem_cons_of_mem e hmem)]
      rfl

/-- The timer of a hash takes all votes of it. -/
theorem taken_of_timed (h : Timed s) (hne : s.voteMap hash ≠ []) :
    taken hash s (.expire hash) = [s.voteMap hash] := by
  have hcount := h hash
  rw [if_neg hne] at hcount
  have hmem : hash ∈ s.timers := List.count_pos_iff.1 (by omega)
  exact if_pos ⟨rfl, hmem, hne⟩

theorem count_uniqueAddresses {entries : List SignatureEntry} {entry : SignatureEntry}
    (h : entry ∈ entries) : (uniqueAddresses entries).count entry.address = 1 :=
  List.count_eq_one_of_mem (List.nodup_dedup _) (List.mem_dedup.2 (List.mem_map_of_mem h))

theorem filed_init : Filed .init := by
  intro hash entry hmem
  cases hmem

/-- After every run: a hash has one pending timer if the map holds votes of it and none otherwise; the
batches of the hash and the votes in the map are the accepted votes in order; the validator lists of
the hash are the signers of its batches. An accepted vote is in the batch of the first expiry of its
timer after it, whose list names its signer once; the batches before it were complete when the vote
came, and those after it hold later votes only. -/
theorem votes_counted_once (lib : AddressLib) (es : List Event) (hash : GoString) :
    (run (step lib) .init es).timers.count hash =
        (if (run (step lib) .init es).voteMap hash = [] then 0 else 1) ∧
      (batches lib hash .init es).flatten ++ (run (step lib) .init es).voteMap hash =
        acceptedVotes lib hash es ∧
      (validatorLists (run (step lib) .init es) hash).Perm
        ((batches lib hash .init es).map uniqueAddresses) ∧
      ∀ pre msg entry mid post, es = pre ++ .vote (some msg) :: mid ++ .expire hash :: post →
        checkVote lib msg = some entry → msg.hash = hash → Event.expire hash ∉ mid →
        ∃ batch later, batches lib hash .init es = batches lib hash .init pre ++ batch :: later ∧
          batch = (run (step lib) .init pre).voteMap hash ++ entry :: acceptedVotes lib hash mid ∧
          later.flatten ++ (run (step lib) .init es).voteMap hash = acceptedVotes lib hash post ∧
          (uniqueAddresses batch).count entry.address = 1 := by
  refine ⟨timed_run es timed_init hash, batches_append_voteMap lib hash .init es,
    perm_lists lib hash es filed_init, ?_⟩
  rintro pre msg entry mid post rfl hentry rfl hmid
  have hhash : entry.txMsg.hash = msg.hash := by rw [txMsg_of_checkVote hentry]
  -- from the vote to the expiry nothing is taken
  have hnone : batches lib msg.hash (run (step lib) .init pre) (.vote (some msg) :: mid) = [] :=
    batches_of_not_expired _ (by simpa using hmid)
  have hvotes : (run (step lib) .init (pre ++ .vote (some msg) :: mid)).voteMap msg.hash =
      (run (step lib) .init pre).voteMap msg.hash ++ entry :: acceptedVotes lib msg.hash mid := by
    have h := batches_append_voteMap lib msg.hash (run (step lib) .init pre) (.vote (some msg) :: mid)
    rw [hnone, ← run_append] at h
    simpa [acceptedVotes, acceptedVote, hentry, hhash] using h
  have htaken : taken msg.hash (run (step lib) .init (pre ++ .vote (some msg) :: mid))
      (.expire msg.hash) = [(run (step lib) .init (pre ++ .vote (some msg) :: mid)).voteMap msg.hash] :=
    taken_of_timed (timed_run _ timed_init) (by simp [hvotes])
  -- the expiry empties the map, so what follows starts afresh
  have hempty : (step lib (run (step lib) .init (pre ++ .vote (some msg) :: mid))
      (.expire msg.hash)).voteMap msg.hash = [] := by
    have h := taken_append_voteMap lib msg.hash
      (run (step lib) .init (pre ++ .vote (some msg) :: mid)) (.expire msg.hash)
    rw [htaken] at h
    simpa [acceptedVote] using h
  have hlater := batches_append_voteMap lib msg.hash
    (step lib (run (step lib) .init (pre ++ .vote (some msg) :: mid)) (.expire msg.hash)) post
  rw [hempty, List.nil_append] at hlater
  refine ⟨_, batches lib msg.hash (step lib (run (step lib) .init (pre ++ .vote (some msg) :: mid))
    (.expire msg.hash)) post, ?_, hvotes, ?_, count_uniqueAddresses (by simp [hvotes])⟩
  · rw [batches_append, batches_append, hnone, batches_cons, htaken, List.append_nil]
    rfl
  · have hrun := run_append (step lib) .init (pre ++ .vote (some msg) :: mid) (.expire msg.hash :: post)
    rw [hrun]
    exact hlater

/-! ## Signers -/

/-- How often the validator lists of the hash name the signer. -/
def listed (s : State) (hash signer : GoString) : Nat := (validatorLists s hash).flatten.count signer

/-- How often the signer is counted for the hash: in the lists, and once more while the map holds a vote of
theirs. -/
def load (s : State) (hash signer : GoString) : Nat :=
  listed s hash signer + if signer ∈ uniqueAddresses (s.voteMap hash) then 1 else 0

/-- The event brings a vote for the hash whose signer is in a list of the hash already. -/
def votesAgain (lib : AddressLib) (hash : GoString) (s : State) (e : Event) : Bool :=
  (acceptedVote lib hash e).any fun entry => listed s hash entry.address != 0

/-- Every accepted vote puts its signer, once, into the list of the first expiry of the hash after it and
into no other list of the hash; before that expiry no list of the hash names the signer. -/
structure ListedOnce (lib : AddressLib) (es : List Event) (hash : GoString) : Prop where
  expired : ∀ pre msg entry mid post, es = pre ++ .vote (some msg) :: mid ++ .expire hash :: post →
    checkVote lib msg = some entry → msg.hash = hash → Event.expire hash ∉ mid →
    ∃ batch later, batches lib hash .init es = batches lib hash .init pre ++ batch :: later ∧
      (uniqueAddresses batch).count entry.address = 1 ∧
      listed (run (step lib) .init es) hash entry.address = 1
  pending : ∀ pre msg entry post, es = pre ++ .vote (some msg) :: post →
    checkVote lib msg = some entry → msg.hash = hash → Event.expire hash ∉ post →
    listed (run (step lib) .init es) hash entry.address = 0

theorem mem_uniqueAddresses {entries : List SignatureEntry} {signer : GoString} :
    signer ∈ uniqueAddresses entries ↔ ∃ entry ∈ entries, entry.address = signer := by
  rw [uniqueAddresses, List.mem_dedup, List.mem_map]

theorem filed_run (es : List Event) : Filed (run (step lib) .init es) :=
  run_invariant (C := fun _ _ => True) (fun _ e hs _ => hs.step e) filed_init
    (along_of_forall _ fun _ _ _ => trivial)

/-- After an event a signer is counted in the lists from before, and once for the votes that the map held
or the event brought, whether they stay there or go into a list. -/
theorem load_step (hfiled : Filed s) (e : Event) (signer : GoString) :
    load (step lib s e) hash signer = listed s hash signer +
      if signer ∈ uniqueAddresses (s.voteMap hash ++ acceptedVote lib hash e) then 1 else 0 := by
  have hvotes := taken_append_voteMap lib hash s e
  have hlisted : listed (step lib s e) hash signer =
      listed s hash signer + ((taken hash s e).map uniqueAddresses).flatten.count signer := by
    rw [listed, (perm_lists_step lib hfiled hash e).flatten.count_eq, List.flatten_append,
      List.count_append, listed]
  have hcount : ∀ entries : List SignatureEntry, (uniqueAddresses entries).count signer =
      if signer ∈ uniqueAddresses entries then 1 else 0 := by
    intro entries
    split
    · rename_i hmem
      exact List.count_eq_one_of_mem (List.nodup_dedup _) hmem
    · rename_i hmem
      exact List.count_eq_zero_of_not_mem hmem
  rw [load, hlisted, ← hvotes]
  -- an event takes nothing, or all votes of the hash
  have hcases : taken hash s e = [] ∨ taken hash s e = [s.voteMap hash] ∧ acceptedVote lib hash e = [] := by
    cases e with
    | expire expired =>
        rw [taken]
        split
        · exact .inr ⟨rfl, rfl⟩
        · exact .inl rfl
    | _ => exact .inl rfl
  rcases hcases with htaken | ⟨htaken, haccepted⟩
  · simp [htaken]
  · rw [htaken, haccepted, List.append_nil] at hvotes
    have hempty : (step lib s e).voteMap hash = [] := by simpa using hvotes
    have hnone : signer ∉ uniqueAddresses [] := by simp [uniqueAddresses]
    rw [htaken, hempty, if_neg hnone]
    simp [hcount]

theorem load_le_load_step (hfiled : Filed s) (e : Event) (signer : GoString) :
    load s hash signer ≤ load (step lib s e) hash signer := by
  rw [load_step hfiled, load]
  apply Nat.add_le_add_left
  split
  · rename_i hmem
    obtain ⟨entry, hentry, haddress⟩ := mem_uniqueAddresses.1 hmem
    rw [if_pos (mem_uniqueAddresses.2 ⟨entry, List.mem_append_left _ hentry, haddress⟩)]
  · exact Nat.zero_le _

/-- An event keeps the signers at one list each exactly if it brings no vote of a signer who is listed. -/
theorem load_step_le_one_iff (hfiled : Filed s) (e : Event) (h : ∀ signer, load s hash signer ≤ 1) :
    (∀ signer, load (step lib s e) hash signer ≤ 1) ↔ votesAgain lib hash s e = false := by
  simp only [votesAgain, List.any_eq_false, bne_iff_ne, not_not]
  constructor
  · intro hnext entry hentry
    have hload := hnext entry.address
    rw [load_step hfiled,
      if_pos (mem_uniqueAddresses.2 ⟨entry, List.mem_append_right _ hentry, rfl⟩)] at hload
    omega
  · intro hnone signer
    rw [load_step hfiled]
    split
    · rename_i hmem
      obtain ⟨entry, hentry, rfl⟩ := mem_uniqueAddresses.1 hmem
      rcases List.mem_append.1 hentry with hold | hnew
      · have hload := h entry.address
        rwa [load, if_pos (mem_uniqueAddresses.2 ⟨entry, hold, rfl⟩)] at hload
      · rw [hnone entry hnew]
    · have hload := h signer
      rw [load] at hload
      omega

theorem load_run_le_one_iff (es : List Event) :
    (∀ signer, load (run (step lib) .init es) hash signer ≤ 1) ↔
      Along (step lib) (fun s e => votesAgain lib hash s e = false) .init es := by
  induction es using List.reverseRecOn with
  | nil =>
      refine ⟨fun _ => trivial, fun _ signer => ?_⟩
      simp [load, listed, validatorLists, State.init, uniqueAddresses]
  | append_singleton es e ih =>
      rw [along_concat, ← ih, run_concat]
      have hfiled : Filed (run (step lib) .init es) := filed_run es
      constructor
      · intro hnext
        have hload : ∀ signer, load (run (step lib) .init es) hash signer ≤ 1 :=
          fun signer => (load_le_load_step hfiled e signer).trans (hnext signer)
        exact ⟨hload, (load_step_le_one_iff hfiled e hload).1 hnext⟩
      · rintro ⟨hload, hnone⟩
        exact (load_step_le_one_iff hfiled e hload).2 hnone

/-- A vote in the map was brought by an event after which the timer did not end; a vote of a batch was
brought by an event after which it did. -/
theorem exists_vote (lib : AddressLib) (hash : GoString) (es : List Event) :
    (∀ entry ∈ (run (step lib) .init es).voteMap hash, ∃ pre msg post,
      es = pre ++ .vote (some msg) :: post ∧ checkVote lib msg = some entry ∧ msg.hash = hash ∧
        Event.expire hash ∉ post) ∧
    ∀ entry ∈ (batches lib hash .init es).flatten, ∃ pre msg mid post,
      es = pre ++ .vote (some msg) :: mid ++ .expire hash :: post ∧ checkVote lib msg = some entry ∧
        msg.hash = hash ∧ Event.expire hash ∉ mid := by
  induction es using List.reverseRecOn with
  | nil => exact ⟨nofun, nofun⟩
  | append_singleton es e ih =>
      obtain ⟨hmap, hbatches⟩ := ih
      have hvotes := taken_append_voteMap lib hash (run (step lib) .init es) e
      refine ⟨fun entry hentry => ?_, fun entry hentry => ?_⟩
      · rw [run_concat] at hentry
        have hsource : entry ∈ (run (step lib) .init es).voteMap hash ++ acceptedVote lib hash e := by
          rw [← hvotes]
          exact List.mem_append_right _ hentry
        rcases List.mem_append.1 hsource with hold | hnew
        · -- the vote was there, and the event is no expiry that takes it
          have hne : Event.expire hash ≠ e := by
            rintro rfl
            rw [taken_of_timed (timed_run es timed_init) (List.ne_nil_of_mem hold)] at hvotes
            have hempty : (step lib (run (step lib) .init es) (.expire hash)).voteMap hash = [] := by
              simpa [acceptedVote] using hvotes
            rw [hempty] at hentry
            cases hentry
          obtain ⟨pre, msg, post, rfl, hcheck, hhash, hpost⟩ := hmap entry hold
          refine ⟨pre, msg, post ++ [e], by simp, hcheck, hhash, ?_⟩
          rw [List.mem_append, List.mem_singleton]
          exact not_or.2 ⟨hpost, hne⟩
        · cases e with
          | vote msg =>
              obtain ⟨hbrought, hhash⟩ := List.mem_filter.1 hnew
              obtain ⟨txMsg, rfl, hcheck⟩ := Option.bind_eq_some_iff.1 (Option.mem_toList.1 hbrought)
              refine ⟨es, txMsg, [], rfl, hcheck, ?_, List.not_mem_nil⟩
              rw [txMsg_of_checkVote hcheck] at hhash
              exact beq_iff_eq.1 hhash
          | _ => cases hnew
      · rw [batches_append, List.flatten_append] at hentry
        rcases List.mem_append.1 hentry with hold | hnew
        · obtain ⟨pre, msg, mid, post, rfl, hcheck, hhash, hmid⟩ := hbatches entry hold
          exact ⟨pre, msg, mid, post ++ [e], by simp, hcheck, hhash, hmid⟩
        · rw [batches_cons] at hnew
          cases e with
          | expire expired =>
              rw [taken] at hnew
              split at hnew
              · rename_i htaken
                obtain ⟨rfl, -, -⟩ := htaken
                have hold : entry ∈ (run (step lib) .init es).voteMap expired := by
                  simpa [batches, trace] using hnew
                obtain ⟨pre, msg, post, rfl, hcheck, hhash, hpost⟩ := hmap entry hold
                exact ⟨pre, msg, post, [], rfl, hcheck, hhash, hpost⟩
              · cases hnew
          | _ => cases hnew

/-- Every vote counts once exactly if no signer is counted twice. -/
theorem listedOnce_iff_load (es : List Event) :
    ListedOnce lib es hash ↔ ∀ signer, load (run (step lib) .init es) hash signer ≤ 1 := by
  obtain ⟨-, -, hlists, hvote⟩ := votes_counted_once lib es hash
  obtain ⟨hmap, hbatches⟩ := exists_vote lib hash es
  constructor
  · intro h signer
    rw [load]
    split
    · rename_i hmem
      obtain ⟨entry, hentry, rfl⟩ := mem_uniqueAddresses.1 hmem
      obtain ⟨pre, msg, post, hes, hcheck, hhash, hpost⟩ := hmap entry hentry
      rw [h.pending pre msg entry post hes hcheck hhash hpost]
    · by_cases hlisted : signer ∈ (validatorLists (run (step lib) .init es) hash).flatten
      · rw [hlists.flatten.mem_iff, List.mem_flatten] at hlisted
        obtain ⟨list, hlist, hsigner⟩ := hlisted
        obtain ⟨batch, hbatch, rfl⟩ := List.mem_map.1 hlist
        obtain ⟨entry, hentry, rfl⟩ := mem_uniqueAddresses.1 hsigner
        obtain ⟨pre, msg, mid, post, hes, hcheck, hhash, hmid⟩ :=
          hbatches entry (List.mem_flatten.2 ⟨batch, hbatch, hentry⟩)
        obtain ⟨-, -, -, -, hone⟩ := h.expired pre msg entry mid post hes hcheck hhash hmid
        rw [hone]
      · rw [listed, List.count_eq_zero_of_not_mem hlisted]
        exact Nat.zero_le 1
  · intro h
    refine ⟨fun pre msg entry mid post hes hcheck hhash hmid => ?_,
      fun pre msg entry post hes hcheck hhash hpost => ?_⟩
    · obtain ⟨batch, later, hsplit, -, -, hcount⟩ := hvote pre msg entry mid post hes hcheck hhash hmid
      refine ⟨batch, later, hsplit, hcount, le_antisymm ?_ ?_⟩
      · exact (Nat.le_add_right _ _).trans (h entry.address)
      · -- the list of the batch is one of the lists
        have hmem : uniqueAddresses batch ∈ validatorLists (run (step lib) .init es) hash := by
          rw [hlists.mem_iff, hsplit]
          exact List.mem_map_of_mem (by simp)
        exact List.count_pos_iff.2
          (List.mem_flatten.2 ⟨_, hmem, List.count_pos_iff.1 (by rw [hcount]; exact Nat.one_pos)⟩)
    · have hload := h entry.address
      have hpending : entry ∈ (run (step lib) .init es).voteMap hash := by
        have hhash' : entry.txMsg.hash = hash := by rw [txMsg_of_checkVote hcheck, ← hhash]
        have hrest := batches_append_voteMap lib hash (run (step lib) .init pre) (.vote (some msg) :: post)
        rw [batches_of_not_expired _ (by simpa using hpost), ← run_append, ← hes] at hrest
        rw [List.flatten_nil, List.nil_append] at hrest
        rw [hrest]
        exact List.mem_append_right _ (by simp [acceptedVotes, acceptedVote, hcheck, hhash'])
      rw [load, if_pos (mem_uniqueAddresses.2 ⟨entry, hpending, rfl⟩)] at hload
      omega

/-- After every run: a hash has one pending timer if the map holds votes of it and none otherwise. And
every accepted vote counts its signer once, in the list of the first expiry after it and in no other list
of the hash, exactly if no signer voted for the hash again after an expiry took their vote. -/
theorem signers_listed_once_iff (lib : AddressLib) (es : List Event) (hash : GoString) :
    (run (step lib) .init es).timers.count hash =
        (if (run (step lib) .init es).voteMap hash = [] then 0 else 1) ∧
      (ListedOnce lib es hash ↔
        Along (step lib) (fun s e => votesAgain lib hash s e = false) .init es) :=
  ⟨timed_run es timed_init hash, (listedOnce_iff_load es).trans (load_run_le_one_iff es)⟩

end

/-- Two votes before the timer: the list that is sent names the signer once. -/
theorem signers_listed_once_votedTwice :
    (run (step smallLib) .init votedTwice).validators = [(bytes "9f2c", [signerAddress])] ∧
      ListedOnce smallLib votedTwice (bytes "9f2c") :=
  ⟨by decide +kernel, (signers_listed_once_iff smallLib votedTwice (bytes "9f2c")).2.2 (by decide +kernel)⟩

/-- The same vote once more after the timer: a second list is sent, with the same signer. -/
theorem signer_listed_twice :
    (run (step smallLib) .init
        (votedTwice ++ .vote (some roofVote) :: timerEvents roofVote roofAddress)).validators =
      [(bytes "9f2c", [signerAddress]), (bytes "9f2c", [signerAddress])] ∧
    ¬ ListedOnce smallLib (votedTwice ++ .vote (some roofVote) :: timerEvents roofVote roofAddress)
      (bytes "9f2c") := by
  refine ⟨by decide +kernel, fun h => ?_⟩
  have htwice : load (run (step smallLib) .init
      (votedTwice ++ .vote (some roofVote) :: timerEvents roofVote roofAddress)) (bytes "9f2c")
        signerAddress = 2 := by decide +kernel
  have hle := (listedOnce_iff_load _).1 h signerAddress
  rw [htwice] at hle
  omega

end EnergyChain.Bridge
