import EnergyChain.Reward.Effects

/-!
# What a burn returns

A redeeming burn gives back one REC for every million coins. Its two loops share one counter: the
first takes records in key order, the second goes on with metas where the first stopped. A value that
does not decode is deleted and left out of the response.

`burn_returns_removed` says that in a store whose REC values decode the response lists exactly the
RECs that were deleted, the first ones of all records followed by all metas, and that nothing else but
the issued total changes; if there are too few, the message fails and the state is the old one.
-/

set_option autoImplicit false

namespace EnergyChain.Reward

open EnergyChain.Go
open EnergyChain.Sdk
open EnergyChain.Bank

section

variable {V : Type} {k : Keeper V} {ctx : Context} {store store' : Store V}

/-! ## The order of the RECs -/

/-- All RECs in the order in which a burn takes them: the records, then the metas. -/
def recEntries (store : Store V) : List (GoString × V) :=
  store.select (inFamily .recRecord) ++ store.select (inFamily .recMeta)

/-- A REC as its value decodes. -/
def decodeRec (k : Keeper V) (entry : GoString × V) : Option RecType :=
  if inFamily .recRecord entry.1 then
    (k.cdc.unmarshalRecord entry.2).toOption.map .recRecord
  else (k.cdc.unmarshalMeta entry.2).toOption.map .recMeta

/-- Every stored REC decodes. -/
def RecsDecode (k : Keeper V) (store : Store V) : Prop :=
  ∀ entry ∈ recEntries store, (decodeRec k entry).isSome = true

instance (k : Keeper V) (store : Store V) : Decidable (RecsDecode k store) :=
  inferInstanceAs (Decidable (∀ entry ∈ recEntries store, _))

/-- The RECs of a response, records first. -/
def BurnResponse.recs (resp : BurnResponse) : List RecType :=
  resp.recRecords.map .recRecord ++ resp.recMetas.map .recMeta

theorem length_recEntries (store : Store V) : (recEntries store).length = numRecs store :=
  List.length_append

/-- The first RECs are the first records and, where these end, the first metas. -/
theorem take_recEntries (store : Store V) (n : Nat) :
    (recEntries store).take n = (store.select (inFamily .recRecord)).take n ++
      (store.select (inFamily .recMeta)).take (n - countKeys .recRecord store) :=
  List.take_append

theorem decodeRec_record {entry : GoString × V} (h : entry ∈ store.select (inFamily .recRecord)) :
    decodeRec k entry = (k.cdc.unmarshalRecord entry.2).toOption.map .recRecord :=
  if_pos (SortedMap.mem_select.1 h).1

theorem decodeRec_meta {entry : GoString × V} (h : entry ∈ store.select (inFamily .recMeta)) :
    decodeRec k entry = (k.cdc.unmarshalMeta entry.2).toOption.map .recMeta := by
  have hmeta := (SortedMap.mem_select.1 h).1
  have hrecord : inFamily .recRecord entry.1 = false := inFamily_eq_false hmeta (by decide)
  rw [decodeRec, hrecord]
  rfl

/-- Decoding values that all decode drops none of them. -/
theorem map_decoded {α β : Type} {unmarshal : V → Except GoString α} (f : α → β)
    {entries : List (GoString × V)} {g : GoString × V → Option β}
    (hg : ∀ entry ∈ entries, g entry = (unmarshal entry.2).toOption.map f)
    (hsome : ∀ entry ∈ entries, (g entry).isSome = true) :
    ((decoded unmarshal (entries.map Prod.snd)).map f).map some = entries.map g := by
  induction entries with
  | nil => rfl
  | cons entry entries ih =>
      have hhead := hg entry List.mem_cons_self
      have hisSome := hsome entry List.mem_cons_self
      have hrest := ih (fun e he => hg e (List.mem_cons_of_mem entry he))
        (fun e he => hsome e (List.mem_cons_of_mem entry he))
      cases hvalue : unmarshal entry.2 with
      | error err =>
          rw [hhead, hvalue] at hisSome
          cases hisSome
      | ok a =>
          rw [hvalue] at hhead
          simp only [decoded, List.map_cons, List.filterMap_cons, hvalue, Except.toOption] at hrest ⊢
          rw [hrest, hhead]
          rfl

/-! ## One burn -/

/-- The response lists `n` RECs, the first of the order; these are deleted, and all other entries but
the issued total are kept. -/
structure ReturnsRemoved (k : Keeper V) (n : Nat) (resp : BurnResponse) (store store' : Store V) :
    Prop where
  length : resp.recs.length = n
  listed : resp.recs.map some = ((recEntries store).take n).map (decodeRec k)
  deleted : ∀ entry ∈ (recEntries store).take n, store'.get entry.1 = none
  kept : ∀ key, key ≠ supplyKey → key ∉ ((recEntries store).take n).map Prod.fst →
    store'.get key = store.get key

/-- The store after step 2 of a burn is the old one without the first RECs. -/
theorem returnRecs_store {n : Nat} {resp : BurnResponse}
    (h : returnRecs k n store = .ok (store', resp)) :
    store' = store.deleteAll (((recEntries store).take n).map Prod.fst) ∧ n ≤ numRecs store ∧
      resp = ⟨decoded k.cdc.unmarshalRecord
          (((store.select (inFamily .recRecord)).take n).map Prod.snd),
        decoded k.cdc.unmarshalMeta (((store.select (inFamily .recMeta)).take
          (n - countKeys .recRecord store)).map Prod.snd)⟩ := by
  unfold returnRecs at h
  split at h
  · simp only [bind_eq_ok, int64_eq_ok, require_eq_ok, pure_eq_ok, exists_const,
      Prod.mk.injEq] at h
    obtain ⟨_, ⟨-, rfl⟩, hreturned, rfl, rfl⟩ := h
    rw [deleteRecs_eq (Int.natCast_nonneg n)] at hreturned ⊢
    simp only [Int.toNat_natCast] at hreturned ⊢
    refine ⟨?_, by omega, trivial⟩
    rw [take_recEntries, List.map_append, SortedMap.deleteAll, SortedMap.deleteAll,
      SortedMap.deleteAll, List.foldl_append]
  · -- a burn of less than a million coins owes nothing
    rename_i hpos
    obtain rfl : n = 0 := by omega
    cases h
    exact ⟨rfl, Nat.zero_le _, by simp [decoded]⟩

/-- Step 2 of a burn returns what it removes, in a store whose RECs decode. -/
theorem returnRecs_returns {n : Nat} {resp : BurnResponse} (hdecode : RecsDecode k store)
    (h : returnRecs k n store = .ok (store', resp)) : ReturnsRemoved k n resp store store' := by
  obtain ⟨hstore, hle, hresp⟩ := returnRecs_store h
  have hlisted : resp.recs.map some = ((recEntries store).take n).map (decodeRec k) := by
    have hrecords : ∀ entry ∈ (store.select (inFamily .recRecord)).take n, decodeRec k entry =
        (k.cdc.unmarshalRecord entry.2).toOption.map .recRecord :=
      fun entry hentry => decodeRec_record (List.mem_of_mem_take hentry)
    have hmetas : ∀ entry ∈ (store.select (inFamily .recMeta)).take
        (n - countKeys .recRecord store), decodeRec k entry =
          (k.cdc.unmarshalMeta entry.2).toOption.map .recMeta :=
      fun entry hentry => decodeRec_meta (List.mem_of_mem_take hentry)
    rw [BurnResponse.recs, hresp, List.map_append, take_recEntries, List.map_append,
      map_decoded _ hrecords, map_decoded _ hmetas]
    · intro entry hentry
      exact hdecode entry (List.mem_append_right _ (List.mem_of_mem_take hentry))
    · intro entry hentry
      exact hdecode entry (List.mem_append_left _ (List.mem_of_mem_take hentry))
  refine ⟨?_, hlisted, ?_, ?_⟩
  · have hlength := congrArg List.length hlisted
    rw [List.length_map, List.length_map, List.length_take, length_recEntries] at hlength
    omega
  · intro entry hentry
    rw [hstore]
    exact SortedMap.get_deleteAll_of_mem store (List.mem_map_of_mem hentry)
  · intro key _ hkey
    rw [hstore]
    exact SortedMap.get_deleteAll_of_notMem store hkey

/-- A burn that owes more RECs than are stored does not get past step 2. -/
theorem returnRecs_error {n : Nat} (h : numRecs store < n) :
    ∃ fault, returnRecs k n store = .error fault := by
  cases hres : returnRecs k n store with
  | error fault => exact ⟨fault, rfl⟩
  | ok p =>
      obtain ⟨store', resp⟩ := p
      obtain ⟨-, hle, -⟩ := returnRecs_store hres
      omega

/-- In a store whose RECs decode, a burn of `a` coins returns exactly the RECs it removes, `a` divided
by a million of them, and if fewer are stored it fails and leaves the state as it was. -/
theorem burn_returns_removed (k : Keeper V) (ctx : Context) (msg : MsgBurnStableCoin) (s : State V)
    (hdecode : RecsDecode k s.store) :
    (∀ s' r, handle k ctx s (.burnStableCoin msg) = .ok (s', r) →
      ∃ (denom : GoString) (a : Nat) (resp : BurnResponse),
        parseCoinNormalized (withAeilSuffix msg.amount) = .ok ⟨denom, a⟩ ∧
        r.response = .burn resp ∧ ReturnsRemoved k (a / 1000000) resp s.store s'.store) ∧
    (∀ (denom : GoString) (a : Nat),
      parseCoinNormalized (withAeilSuffix msg.amount) = .ok ⟨denom, a⟩ →
      numRecs s.store < a / 1000000 →
      (∃ fault, handle k ctx s (.burnStableCoin msg) = .error fault) ∧
        deliver k s ⟨ctx, .reward (.burnStableCoin msg)⟩ = s) := by
  constructor
  · intro s' r hres
    obtain ⟨resp, hburn, hresponse⟩ := response_of_burnStableCoin hres
    obtain ⟨denom, a, addr, store₁, hcoin, -, -, -, -, hrecs, hlower⟩ := burnStableCoin_spec hburn
    have hreturns := returnRecs_returns hdecode hrecs
    -- what follows step 2 writes the issued total only
    have hsupply : ChangesOnly [.supply] store₁ s'.store :=
      lowerSupply_changesOnly List.mem_cons_self hlower
    refine ⟨denom, a, resp, hcoin, hresponse, hreturns.length, hreturns.listed, ?_, ?_⟩
    · intro entry hentry
      have hfamily : inFamily .supply entry.1 = false := by
        rcases List.mem_append.1 (List.mem_of_mem_take hentry) with hmem | hmem
        · exact inFamily_eq_false (SortedMap.mem_select.1 hmem).1 (by decide)
        · exact inFamily_eq_false (SortedMap.mem_select.1 hmem).1 (by decide)
      rw [hsupply entry.1 (by simpa using hfamily)]
      exact hreturns.deleted entry hentry
    · intro key hne hkey
      obtain ⟨m, -, -, hstore⟩ := lowerSupply_eq_ok.1 hlower
      have hget : s'.store.get key = store₁.get key := by
        rw [hstore]
        exact SortedMap.get_set_of_ne _ _ hne
      rw [hget]
      exact hreturns.kept key hne hkey
  · intro denom a hcoin hfew
    have hfails : ∃ fault, handle k ctx s (.burnStableCoin msg) = .error fault := by
      cases hres : handle k ctx s (.burnStableCoin msg) with
      | error fault => exact ⟨fault, rfl⟩
      | ok p =>
          obtain ⟨s', r⟩ := p
          obtain ⟨resp, hburn⟩ := handle_burnStableCoin hres
          obtain ⟨denom', a', addr, store₁, hcoin', -, -, -, -, hrecs, -⟩ := burnStableCoin_spec hburn
          rw [hcoin] at hcoin'
          cases hcoin'
          obtain ⟨fault, herror⟩ := returnRecs_error (k := k) hfew
          rw [herror] at hrecs
          cases hrecs
    refine ⟨hfails, ?_⟩
    obtain ⟨fault, herror⟩ := hfails
    exact deliver_reward_error herror

end

/-! ## A burn of the small chain -/

/-- A meta with the given certificate and no other data. -/
def smallMeta (certifiedId : GoString) : RECMeta :=
  ⟨[], [], [], [], [], [], certifiedId, [], [], [], [], [], [], [], []⟩

/-- Two records and a meta, deposited in another order than that of their keys, and a mint of two and
a half million coins. -/
def mixedRecs : State Document :=
  run (deliver smallKeeper) (genesis emptyBank)
    [smallTx 1 (.depositCollateral ⟨alice, some (.recMeta (smallMeta (bytes "m1")))⟩),
      smallTx 1 (.depositCollateral ⟨alice, some (.recRecord (smallRecord (bytes "r2")))⟩),
      smallTx 1 (.depositCollateral ⟨alice, some (.recRecord (smallRecord (bytes "r1")))⟩),
      smallTx 2 (.rewardSolarPower ⟨alice, alice, bytes "2500000"⟩)]

/-- A burn of more than two million coins returns both records, in key order, and no meta. -/
theorem burn_returns_removed_mixedRecs :
    ∃ s' r, handle smallKeeper (smallCtx 3) mixedRecs
        (.burnStableCoin ⟨alice, alice, bytes "2200000"⟩) = .ok (s', r) ∧
      ReturnsRemoved smallKeeper 2 ⟨[smallRecord (bytes "r1"), smallRecord (bytes "r2")], []⟩
        mixedRecs.store s'.store := by
  have hdecode : RecsDecode smallKeeper mixedRecs.store := by decide +kernel
  have hresponse : (handle smallKeeper (smallCtx 3) mixedRecs
      (.burnStableCoin ⟨alice, alice, bytes "2200000"⟩)).map (·.2.response) =
        .ok (.burn ⟨[smallRecord (bytes "r1"), smallRecord (bytes "r2")], []⟩) := by decide +kernel
  have hcoin : parseCoinNormalized (withAeilSuffix (bytes "2200000")) = .ok ⟨aeil, (2200000 : Nat)⟩ := by
    decide +kernel
  cases hres : handle smallKeeper (smallCtx 3) mixedRecs
      (.burnStableCoin ⟨alice, alice, bytes "2200000"⟩) with
  | error fault =>
      rw [hres] at hresponse
      cases hresponse
  | ok p =>
      obtain ⟨s', r⟩ := p
      rw [hres] at hresponse
      obtain ⟨denom, a, resp, hcoin', hresp, hreturns⟩ :=
        (burn_returns_removed smallKeeper (smallCtx 3) ⟨alice, alice, bytes "2200000"⟩ mixedRecs
          hdecode).1 s' r hres
      rw [hcoin] at hcoin'
      cases hcoin'
      have hburn : Response.burn resp = _ := hresp.symm.trans (Except.ok.inj hresponse)
      cases hburn
      exact ⟨s', r, rfl, hreturns⟩

end EnergyChain.Reward
