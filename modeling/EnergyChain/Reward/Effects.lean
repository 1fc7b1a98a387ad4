import EnergyChain.Bank.OneCoin
import EnergyChain.Reward.MsgServer

/-!
# What the handlers do

One lemma per keeper function says everything a successful call did: the checks that passed, the
entries it wrote and the ledger moves it made. Later proofs take a successful message apart with
these lemmas and never unfold a handler.

`ChangesOnly fs` says that two stores differ at keys of the families `fs` only. `minted` is the
issued total as the keeper reads it, `numRecs` the number of REC keys.
-/

set_option autoImplicit false

namespace EnergyChain.Reward

open EnergyChain.Go
open EnergyChain.Sdk
open EnergyChain.Bank

section

variable {V : Type} {k : Keeper V} {ctx : Context}

/-! ## Frames -/

/-- The stores differ at keys of the given families only. -/
def ChangesOnly (fs : List Family) (store store' : Store V) : Prop :=
  ∀ key, (∀ f ∈ fs, inFamily f key = false) → store'.get key = store.get key

section Frames

variable {fs : List Family} {store store' store'' : Store V}

theorem ChangesOnly.refl (fs : List Family) (store : Store V) : ChangesOnly fs store store :=
  fun _ _ => rfl

theorem ChangesOnly.trans (h : ChangesOnly fs store store') (h' : ChangesOnly fs store' store'') :
    ChangesOnly fs store store'' := by
  intro key hkey
  rw [h' key hkey, h key hkey]

theorem ChangesOnly.mono {fs' : List Family} (h : ChangesOnly fs store store') (hsub : fs ⊆ fs') :
    ChangesOnly fs' store store' :=
  fun key hkey => h key fun f hf => hkey f (hsub hf)

theorem changesOnly_set {f : Family} {key : GoString} (hf : f ∈ fs) (hkey : inFamily f key = true)
    (store : Store V) (v : V) : ChangesOnly fs store (store.set key v) := by
  intro key' hkey'
  refine SortedMap.get_set_of_ne store v ?_
  rintro rfl
  simp [hkey' f hf] at hkey

theorem changesOnly_delete {f : Family} {key : GoString} (hf : f ∈ fs)
    (hkey : inFamily f key = true) (store : Store V) : ChangesOnly fs store (store.delete key) := by
  intro key' hkey'
  refine SortedMap.get_delete_of_ne store ?_
  rintro rfl
  simp [hkey' f hf] at hkey

theorem changesOnly_deleteAll {f : Family} {keys : List GoString} (hf : f ∈ fs)
    (hkeys : ∀ key ∈ keys, inFamily f key = true) (store : Store V) :
    ChangesOnly fs store (store.deleteAll keys) := by
  intro key' hkey'
  refine SortedMap.get_deleteAll_of_notMem store fun hmem => ?_
  simpa [hkey' f hf] using hkeys key' hmem

/-- A family outside the changed ones keeps its entries. -/
theorem ChangesOnly.get_eq (h : ChangesOnly fs store store') {g : Family} (hg : g ∉ fs)
    {key : GoString} (hkey : inFamily g key = true) : store'.get key = store.get key :=
  h key fun _ hf => inFamily_eq_false hkey fun e => hg (e ▸ hf)

theorem ChangesOnly.select_eq (h : ChangesOnly fs store store') {g : Family} (hg : g ∉ fs) :
    store'.select (inFamily g) = store.select (inFamily g) :=
  SortedMap.select_congr fun _ hkey => h.get_eq hg hkey

theorem ChangesOnly.countKeys_eq (h : ChangesOnly fs store store') {g : Family} (hg : g ∉ fs) :
    countKeys g store' = countKeys g store :=
  SortedMap.card_congr fun _ hkey => h.get_eq hg hkey

end Frames

/-! ## The issued total -/

/-- `Supply.Minted`, read as an integer. -/
def minted (k : Keeper V) (store : Store V) : Option Int :=
  match getSupply k store with
  | .ok s => newIntFromString s.minted
  | .error _ => none

theorem getSupply_setSupply (m : Int) (store : Store V) :
    getSupply k (setSupply k ⟨formatInt m⟩ store) = .ok ⟨formatInt m⟩ := by
  have hne : formatInt m ≠ [] := by
    unfold formatInt
    split
    · simp
    · exact formatNat_ne_nil _
  simp only [getSupply, setSupply, SortedMap.get_set_self, k.cdc.supply_roundTrip, if_neg hne]

/-- The issued total that was stored is read back. -/
theorem minted_setSupply {m : Int} (h : fits256 m) (store : Store V) :
    minted k (setSupply k ⟨formatInt m⟩ store) = some m := by
  simp only [minted, getSupply_setSupply, newIntFromString_formatInt h]

theorem minted_empty (k : Keeper V) : minted k .empty = some 0 := by
  have h0 : bytes "0" = formatInt 0 := by decide
  have hfit : fits256 0 := by
    rw [fits256, Int.natAbs_zero]
    positivity
  simp only [minted, getSupply, SortedMap.get_empty, h0, newIntFromString_formatInt hfit]

theorem ChangesOnly.minted_eq {fs : List Family} {store store' : Store V}
    (h : ChangesOnly fs store store') (hfs : Family.supply ∉ fs) :
    minted k store' = minted k store := by
  simp only [minted, getSupply, h.get_eq hfs (inFamily_root .supply), supplyKey]

theorem fits256_of_minted {store : Store V} {m : Int} (h : minted k store = some m) :
    fits256 m := by
  unfold minted at h
  split at h
  · exact fits256_of_newIntFromString h
  · simp at h

theorem changesOnly_setSupply {fs : List Family} (hfs : Family.supply ∈ fs) (s : Supply)
    (store : Store V) : ChangesOnly fs store (setSupply k s store) :=
  changesOnly_set hfs (inFamily_root .supply) store _

/-- `minted` is what both mint and burn compute with. -/
theorem minted_eq_some {store : Store V} {m : Int} :
    minted k store = some m ↔
      ∃ s, getSupply k store = .ok s ∧ newIntFromString s.minted = some m := by
  unfold minted
  cases getSupply k store with
  | error e => simp
  | ok s => simp

theorem lowerSupply_eq_ok {amount : Int} {store store' : Store V} :
    lowerSupply k amount store = .ok store' ↔
      ∃ m, minted k store = some m ∧ fits256 (m - amount) ∧
        store' = setSupply k ⟨formatInt (max (m - amount) 0)⟩ store := by
  -- the clamp at zero is a maximum
  have hmax : ∀ z : Int, (if z < 0 then 0 else z) = max z 0 := by
    intro z
    split <;> omega
  simp only [lowerSupply, bind_eq_ok, orFail_eq_ok, intSub_eq_ok, pure_eq_ok, hmax, minted_eq_some]
  constructor
  · rintro ⟨s, hs, m, hm, _, ⟨hfit, rfl⟩, rfl⟩
    exact ⟨m, ⟨s, hs, hm⟩, hfit, rfl⟩
  · rintro ⟨m, ⟨s, hs, hm⟩, hfit, rfl⟩
    exact ⟨s, hs, m, hm, _, ⟨hfit, rfl⟩, rfl⟩

theorem lowerSupply_changesOnly {fs : List Family} (hfs : Family.supply ∈ fs) {amount : Int}
    {store store' : Store V} (h : lowerSupply k amount store = .ok store') :
    ChangesOnly fs store store' := by
  obtain ⟨m, -, -, rfl⟩ := lowerSupply_eq_ok.1 h
  exact changesOnly_setSupply hfs _ _

/-- Lowering the issued total stops at zero. -/
theorem minted_lowerSupply {amount m : Int} {store store' : Store V}
    (hm : minted k store = some m) (h : lowerSupply k amount store = .ok store') :
    minted k store' = some (max (m - amount) 0) := by
  obtain ⟨m', hm', hfit, rfl⟩ := lowerSupply_eq_ok.1 h
  rw [hm, Option.some.injEq] at hm'
  subst hm'
  refine minted_setSupply ?_ store
  unfold fits256 at hfit ⊢
  omega

/-! ## Deleting collateral -/

/-- The number of REC keys. -/
def numRecs (store : Store V) : Nat := countKeys .recRecord store + countKeys .recMeta store

theorem ChangesOnly.numRecs_eq {fs : List Family} {store store' : Store V}
    (h : ChangesOnly fs store store') (hr : Family.recRecord ∉ fs) (hm : Family.recMeta ∉ fs) :
    numRecs store' = numRecs store := by
  rw [numRecs, numRecs, h.countKeys_eq hr, h.countKeys_eq hm]

theorem getTotalCollateral_le (store : Store V) : getTotalCollateral store ≤ numRecs store :=
  wrap64_natCast_le _

/-- The loop deletes the first keys it visits, as many as are missing to the limit. -/
theorem deleteLoop_eq (limit : Int) (l : List (GoString × V)) (done : Int) (store : Store V) :
    deleteLoop limit l done store =
      (store.deleteAll ((l.take (limit - done).toNat).map Prod.fst),
        (l.take (limit - done).toNat).map Prod.snd,
        done + min (limit - done).toNat l.length) := by
  induction l generalizing done store with
  | nil => simp [deleteLoop, SortedMap.deleteAll]
  | cons e rest ih =>
      obtain ⟨key, value⟩ := e
      by_cases hlt : done < limit
      · -- the first key is deleted, and the rest of the limit is for the others
        have hn : (limit - done).toNat = (limit - (done + 1)).toNat + 1 := by omega
        rw [deleteLoop, if_pos hlt, ih, hn]
        simp only [List.take_succ_cons, List.map_cons, SortedMap.deleteAll, List.foldl_cons,
          List.length_cons, Prod.mk.injEq, true_and]
        omega
      · have hn : (limit - done).toNat = 0 := by omega
        rw [deleteLoop, if_neg hlt, hn]
        simp [SortedMap.deleteAll]

theorem inFamily_of_mem_take {f : Family} {n : Nat} {store : Store V} :
    ∀ key ∈ ((store.select (inFamily f)).take n).map Prod.fst, inFamily f key = true := by
  intro key hkey
  obtain ⟨⟨key', v⟩, hmem, rfl⟩ := List.mem_map.1 hkey
  exact (SortedMap.mem_select.1 (List.mem_of_mem_take hmem)).1

/-- Deleting the first keys of a family leaves the other families alone. -/
theorem changesOnly_deleteAll_take (f : Family) (n : Nat) (store : Store V) :
    ChangesOnly [f] store (store.deleteAll (((store.select (inFamily f)).take n).map Prod.fst)) :=
  changesOnly_deleteAll List.mem_cons_self inFamily_of_mem_take store

/-- What the two loops delete: the first `limit` records, then as many metas as are missing. -/
theorem deleteRecs_eq {limit : Int} (h : 0 ≤ limit) (store : Store V) :
    deleteRecs limit store =
      ((store.deleteAll (((store.select (inFamily .recRecord)).take limit.toNat).map Prod.fst)).deleteAll
          (((store.select (inFamily .recMeta)).take
            (limit.toNat - countKeys .recRecord store)).map Prod.fst),
        ((store.select (inFamily .recRecord)).take limit.toNat).map Prod.snd,
        ((store.select (inFamily .recMeta)).take
          (limit.toNat - countKeys .recRecord store)).map Prod.snd,
        min limit (numRecs store)) := by
  have hlen : (store.select (inFamily .recRecord)).length = countKeys .recRecord store := rfl
  have hlen' : (store.select (inFamily .recMeta)).length = countKeys .recMeta store := rfl
  -- the first loop leaves the metas alone
  have hselect := (changesOnly_deleteAll_take .recRecord limit.toNat store).select_eq
    (g := .recMeta) (by decide)
  simp only [deleteRecs, deleteLoop_eq, sub_zero, zero_add, hselect, hlen, hlen', numRecs]
  split
  · -- the records do not suffice
    rename_i hlt
    have hn : (limit - ((min limit.toNat (countKeys .recRecord store) : Nat) : Int)).toNat =
        limit.toNat - countKeys .recRecord store := by omega
    rw [hn]
    simp only [Prod.mk.injEq, true_and]
    omega
  · -- the records suffice, and no meta is deleted
    rename_i hge
    have hn : limit.toNat - countKeys .recRecord store = 0 := by omega
    rw [hn]
    simp only [List.take_zero, List.map_nil, SortedMap.deleteAll, List.foldl_nil, Prod.mk.injEq,
      true_and]
    omega

/-- A deletion that reaches its limit removes that many REC keys and nothing else. -/
theorem deleteRecs_spec {limit : Int} (h : 0 ≤ limit) (store : Store V) :
    ChangesOnly [.recRecord, .recMeta] store (deleteRecs limit store).1 ∧
      numRecs (deleteRecs limit store).1 = numRecs store - limit.toNat ∧
      (deleteRecs limit store).2.2.2 = min limit (numRecs store) := by
  rw [deleteRecs_eq h]
  set first := (store.select (inFamily .recRecord)).take limit.toNat with hfirst
  set second := (store.select (inFamily .recMeta)).take
    (limit.toNat - countKeys .recRecord store) with hsecond
  have hframe₁ : ChangesOnly [.recRecord] store (store.deleteAll (first.map Prod.fst)) :=
    changesOnly_deleteAll_take .recRecord limit.toNat store
  have hframe₂ : ChangesOnly [.recMeta] (store.deleteAll (first.map Prod.fst))
      ((store.deleteAll (first.map Prod.fst)).deleteAll (second.map Prod.fst)) :=
    changesOnly_deleteAll List.mem_cons_self inFamily_of_mem_take _
  refine ⟨(hframe₁.mono (by simp)).trans (hframe₂.mono (by simp)), ?_, rfl⟩
  have hrec : countKeys .recRecord (store.deleteAll (first.map Prod.fst)) =
      countKeys .recRecord store - limit.toNat := SortedMap.card_deleteAll _ store _
  have hmeta : countKeys .recMeta
      ((store.deleteAll (first.map Prod.fst)).deleteAll (second.map Prod.fst)) =
        countKeys .recMeta store - (limit.toNat - countKeys .recRecord store) := by
    -- the second loop sees the metas as they were
    rw [hsecond, ← hframe₁.select_eq (g := .recMeta) (by decide), countKeys,
      SortedMap.card_deleteAll]
    exact congrArg (· - _) (hframe₁.countKeys_eq (by decide))
  rw [numRecs, numRecs, hmeta, hframe₂.countKeys_eq (g := .recRecord) (by decide), hrec]
  omega

/-- A property of all entries survives the two loops, which only delete. -/
theorem deleteRecs_all {P : GoString → V → Prop} {store : Store V} (h : store.All P) (limit : Int) :
    (deleteRecs limit store).1.All P := by
  simp only [deleteRecs, deleteLoop_eq]
  split
  · exact (h.deleteAll _).deleteAll _
  · exact h.deleteAll _

theorem returnRecs_all {P : GoString → V → Prop} {n : Int} {store store' : Store V}
    {resp : BurnResponse} (h : returnRecs k n store = .ok (store', resp)) (hall : store.All P) :
    store'.All P := by
  unfold returnRecs at h
  split at h
  · simp only [bind_eq_ok, int64_eq_ok, require_eq_ok, pure_eq_ok, exists_const,
      Prod.mk.injEq] at h
    obtain ⟨_, ⟨-, rfl⟩, -, rfl, -⟩ := h
    exact deleteRecs_all hall _
  · cases h
    exact hall

theorem removeCollateral_all {P : GoString → V → Prop} {amount : GoString} {store store' : Store V}
    (h : removeCollateral amount store = .ok store') (hall : store.All P) : store'.All P := by
  simp only [removeCollateral, bind_eq_ok, mapErr_eq_ok, require_eq_ok, intQuo_eq_ok, int64_eq_ok,
    pure_eq_ok, exists_const] at h
  obtain ⟨_, -, -, _, -, -, _, -, -, rfl⟩ := h
  exact deleteRecs_all hall _

/-- Step 2 of a burn removes exactly the RECs it owes. -/
theorem returnRecs_spec {n : Int} {store store' : Store V} {resp : BurnResponse} (hn : 0 ≤ n)
    (h : returnRecs k n store = .ok (store', resp)) :
    ChangesOnly [.recRecord, .recMeta] store store' ∧ numRecs store' + n.toNat = numRecs store := by
  unfold returnRecs at h
  split at h
  · simp only [bind_eq_ok, int64_eq_ok, require_eq_ok, pure_eq_ok, exists_const,
      Prod.mk.injEq] at h
    obtain ⟨_, ⟨-, rfl⟩, hreturned, rfl, -⟩ := h
    obtain ⟨hframe, hcount, hdone⟩ := deleteRecs_spec hn store
    rw [hdone] at hreturned
    exact ⟨hframe, by omega⟩
  · cases h
    exact ⟨.refl _ _, by omega⟩

/-- Step 2 of a burn succeeds if the RECs are there and their number is an `int64`. -/
theorem returnRecs_of_le {n : Int} {store : Store V} (hle : n ≤ numRecs store)
    (hint : n < 2 ^ 63) : ∃ r, returnRecs k n store = .ok r := by
  unfold returnRecs
  split
  · rename_i hpos
    have h64 : int64 n = .ok n := int64_eq_ok.2 ⟨isInt64_iff.2 ⟨by omega, hint⟩, rfl⟩
    obtain ⟨-, -, hdone⟩ := deleteRecs_spec hpos.le store
    have hreturned : n ≤ (deleteRecs n store).2.2.2 := by
      rw [hdone]
      omega
    rw [h64, ok_bind]
    dsimp only
    rw [require_bind_of hreturned]
    exact ⟨_, rfl⟩
  · exact ⟨_, rfl⟩

/-! ## Minting and burning -/

theorem chopNat_mul (n : Nat) : chopNat (n * precisionReuse) = n := by
  have hpos : 0 < precisionReuse := by decide
  simp only [chopNat, Nat.mul_mod_left, if_true]
  exact Nat.mul_div_cancel n hpos

/-- A tenth of a whole number has one decimal, so the multiplication rounds nothing. -/
theorem chop_tenth (a : Nat) : chopPrecisionAndRound (toDec a * newDecWithPrec 1 1) =
    ((a * 10 ^ (precision - 1) : Nat) : Int) := by
  have hprod : toDec a * newDecWithPrec 1 1 =
      ((a * 10 ^ (precision - 1) * precisionReuse : Nat) : Int) := by
    simp only [toDec, newDecWithPrec]
    push_cast
    ring
  rw [hprod, chopPrecisionAndRound, if_neg (by omega), Int.natAbs_natCast, chopNat_mul]

theorem tdiv_tenth (a : Nat) :
    ((a * 10 ^ (precision - 1) : Nat) : Int).tdiv precisionReuse = (a / 10 : Nat) := by
  have hscale : precisionReuse = 10 * 10 ^ (precision - 1) := by decide
  rw [hscale, ← Int.ofNat_tdiv, Nat.mul_div_mul_right _ _ (by positivity)]

/-- A tenth of a whole number in `sdk.Dec` arithmetic, truncated. -/
theorem fee_eq_div {a : Nat} {d f : Int} (hd : decMul (toDec a) (newDecWithPrec 1 1) = .ok d)
    (hf : truncateInt d = .ok f) : f = (a / 10 : Nat) := by
  simp only [decMul, chop_tenth, require_bind_eq_ok, pure_eq_ok] at hd
  simp only [truncateInt, require_bind_eq_ok, pure_eq_ok] at hf
  rw [hf.2, hd.2, tdiv_tenth]

/-- A tenth of an amount of at most 256 bits in `sdk.Dec` arithmetic, truncated. -/
theorem exists_fee {a : Nat} (h : a < 2 ^ 256) :
    ∃ d, decMul (toDec a) (newDecWithPrec 1 1) = .ok d ∧ truncateInt d = .ok ((a / 10 : Nat) : Int) := by
  have hfitsDec : fitsDec ((a * 10 ^ (precision - 1) : Nat) : Int) := by
    have hle : a * 10 ^ (precision - 1) ≤ (toDec a).natAbs := by
      rw [toDec, Int.natAbs_mul, Int.natAbs_natCast, Int.natAbs_natCast]
      exact Nat.mul_le_mul_left a (by decide)
    exact lt_of_le_of_lt hle (fitsDec_toDec h)
  have hfits : fits256 ((a / 10 : Nat) : Int) := by
    rw [fits256, Int.natAbs_natCast]
    omega
  refine ⟨((a * 10 ^ (precision - 1) : Nat) : Int), ?_, ?_⟩
  · rw [decMul, chop_tenth]
    exact (require_bind_of hfitsDec).trans rfl
  · rw [truncateInt, tdiv_tenth]
    exact (require_bind_of hfits).trans rfl

/-- The value of the collateral stays far below 256 bits. -/
theorem intMul_getTotalCollateral (store : Store V) :
    intMul (getTotalCollateral store) 1000000 = .ok (getTotalCollateral store * 1000000) := by
  obtain ⟨hlo, hhi⟩ := isInt64_iff.1 (isInt64_wrap64 (numRecs store))
  have hbound : (getTotalCollateral store).natAbs < 2 ^ 64 := by
    change (wrap64 (numRecs store)).natAbs < 2 ^ 64
    omega
  have hsize : (getTotalCollateral store).natAbs.size + (1000000 : Int).natAbs.size - 1 ≤ 256 := by
    have h₁ : (getTotalCollateral store).natAbs.size ≤ 64 := Nat.size_le.2 hbound
    have h₂ : (1000000 : Int).natAbs.size ≤ 20 := Nat.size_le.2 (by decide)
    omega
  have hfits : fits256 (getTotalCollateral store * 1000000) := by
    have hrate : (1000000 : Int).natAbs = 1000000 := rfl
    rw [fits256, Int.natAbs_mul, hrate]
    omega
  rw [intMul, require_bind_of hsize, require_bind_of hfits]
  rfl

/-- An issued total that the collateral covers is in range. -/
theorem fits256_of_le_collateral {m : Int} {a : Nat} {store : Store V} (hm : fits256 m)
    (hle : m + a ≤ getTotalCollateral store * 1000000) : fits256 (m + a) := by
  obtain ⟨-, hhi⟩ := isInt64_iff.1 (isInt64_wrap64 (numRecs store))
  have hbound : getTotalCollateral store < 2 ^ 63 := hhi
  unfold fits256 at hm ⊢
  omega

/-- A mint succeeds exactly if all its checks pass and the bank mints and pays. -/
theorem rewardSolarPower_eq_ok {to_ amount : GoString} {s s' : State V} :
    rewardSolarPower k ctx to_ amount s = .ok s' ↔
      ∃ (a : Nat) (m : Int) (addr : AccAddress) (total user : List Coin) (bank₁ bank₂ : BankState),
        newIntFromString amount = some (a : Int) ∧ minted k s.store = some m ∧
        m + a ≤ getTotalCollateral s.store * 1000000 ∧
        accAddressFromBech32 k.bankKeeper.bech32 to_ = .ok addr ∧
        newCoins [⟨aeil, a⟩] = .ok total ∧ newCoins [⟨aeil, (a - a / 10 : Nat)⟩] = .ok user ∧
        mintCoins k.bankKeeper total s.bank = .ok bank₁ ∧
        sendCoinsFromModuleToAccount k.bankKeeper ctx addr user bank₁ = .ok bank₂ ∧
        s' = ⟨setSupply k ⟨formatInt (m + a)⟩ s.store, bank₂⟩ := by
  have hdenom : matchDenom aeil = true := by decide
  simp only [rewardSolarPower, bind_eq_ok, orFail_eq_ok, intQuo_eq_ok, intAdd_eq_ok, intSub_eq_ok,
    newCoin_eq_ok, require_eq_ok, pure_eq_ok, exists_const, intMul_getTotalCollateral, Except.ok.injEq]
  constructor
  · rintro ⟨z, hz, _, ⟨-, rfl⟩, supply, hsupply, m, hm, _, ⟨-, rfl⟩, _, rfl, hle,
      _, ⟨⟨-, hpos⟩, rfl⟩, total, htotal, feeDec, hfeeDec, fee, hfee, _, -, _, -, _, ⟨-, rfl⟩,
      _, ⟨-, rfl⟩, user, huser, addr, haddr, bank₁, hmint, bank₂, hsend, rfl⟩
    -- one watt-hour is one coin
    rw [Int.tdiv_one] at *
    -- `NewCoin` refuses a negative amount
    obtain ⟨a, rfl⟩ := Int.eq_ofNat_of_zero_le hpos
    have hfeeEq : fee = (a / 10 : Nat) := fee_eq_div hfeeDec hfee
    have hrest : (a : Int) - fee = (a - a / 10 : Nat) := by omega
    rw [hrest] at huser
    exact ⟨a, m, addr, total, user, bank₁, bank₂, hz, minted_eq_some.2 ⟨supply, hsupply, hm⟩, hle, haddr,
      htotal, huser, hmint, hsend, rfl⟩
  · rintro ⟨a, m, addr, total, user, bank₁, bank₂, hz, hm, hle, haddr, htotal, huser, hmint, hsend, rfl⟩
    have hfit := fits256_of_le_collateral (fits256_of_minted hm) hle
    have hamount : (a : Int).natAbs < 2 ^ 256 := fits256_of_newIntFromString hz
    rw [Int.natAbs_natCast] at hamount
    obtain ⟨supply, hsupply, hparse⟩ := minted_eq_some.1 hm
    obtain ⟨feeDec, hfeeDec, hfee⟩ := exists_fee hamount
    obtain ⟨feeCoins, hfeeCoins⟩ := exists_newCoins_singleton (c := ⟨aeil, (a / 10 : Nat)⟩) hdenom
      (Int.natCast_nonneg _)
    have hrest : (a : Int) - (a / 10 : Nat) = (a - a / 10 : Nat) := by omega
    have hrestFit : fits256 ((a : Int) - (a / 10 : Nat)) := by
      unfold fits256
      omega
    rw [← hrest] at huser
    refine ⟨a, hz, a, ⟨one_ne_zero, (Int.tdiv_one _).symm⟩, supply, hsupply, m, hparse, _, ⟨hfit, rfl⟩,
      _, rfl, hle, _, ⟨⟨hdenom, Int.natCast_nonneg a⟩, rfl⟩, total, htotal, feeDec, hfeeDec, _, hfee,
      _, ⟨⟨hdenom, Int.natCast_nonneg _⟩, rfl⟩, feeCoins, hfeeCoins, _, ⟨hrestFit, rfl⟩,
      _, ⟨⟨hdenom, ?_⟩, rfl⟩, user, huser, addr, haddr, bank₁, hmint, bank₂, hsend, rfl⟩
    rw [hrest]
    exact Int.natCast_nonneg _

/-- Everything a successful mint did. -/
theorem rewardSolarPower_spec {to_ amount : GoString} {s s' : State V}
    (h : rewardSolarPower k ctx to_ amount s = .ok s') :
    ∃ (a u : Nat) (m : Int) (addr : AccAddress),
      newIntFromString amount = some (a : Int) ∧ minted k s.store = some m ∧ fits256 (m + a) ∧
      m + a ≤ getTotalCollateral s.store * 1000000 ∧ u = a - a / 10 ∧
      accAddressFromBech32 k.bankKeeper.bech32 to_ = .ok addr ∧
      k.bankKeeper.blockedAddr addr = false ∧
      s'.store = setSupply k ⟨formatInt (m + a)⟩ s.store ∧
      s'.bank = (((s.bank.credit k.bankKeeper.moduleAddr (Ledger.only aeil a)).issue
        (Ledger.only aeil a)).debit k.bankKeeper.moduleAddr (Ledger.only aeil u)).credit addr
          (Ledger.only aeil u) := by
  obtain ⟨a, m, addr, total, user, bank₁, bank₂, hz, hm, hle, haddr, htotal, huser, hmint, hsend, rfl⟩ :=
    rewardSolarPower_eq_ok.1 h
  have hfit := fits256_of_le_collateral (fits256_of_minted hm) hle
  obtain ⟨hblocked, hbank, -⟩ := sendCoinsFromModuleToAccount_spec hsend
  rw [mintCoins_spec hmint, amountOf_eq_only htotal, amountOf_eq_only huser] at hbank
  refine ⟨a, a - a / 10, m, addr, hz, hm, hfit, hle, rfl, haddr, hblocked, rfl, ?_⟩
  simpa using hbank

/-- Everything a successful burn did. -/
theorem burnStableCoin_spec {target amount : GoString} {s s' : State V} {resp : BurnResponse}
    (h : burnStableCoin k ctx target amount s = .ok (s', resp)) :
    ∃ (denom : GoString) (a : Nat) (addr : AccAddress) (store₁ : Store V),
      parseCoinNormalized (withAeilSuffix amount) = .ok ⟨denom, a⟩ ∧
      accAddressFromBech32 k.bankKeeper.bech32 target = .ok addr ∧
      a ≤ s.bank.balance addr denom ∧ a ≤ s.bank.supply denom ∧
      s'.bank = (s.bank.debit addr (Ledger.only denom a)).retire (Ledger.only denom a) ∧
      returnRecs k (a / 1000000 : Nat) s.store = .ok (store₁, resp) ∧
      lowerSupply k a store₁ = .ok s'.store := by
  simp only [burnStableCoin, bind_eq_ok, mapErr_eq_ok, intQuo_eq_ok, pure_eq_ok,
    Prod.mk.injEq] at h
  obtain ⟨⟨denom, z⟩, hcoin, addr, haddr, coins, hcoins, bank₁, hsend, bank₂, hburn, _, ⟨-, rfl⟩,
    ⟨store₁, resp'⟩, hrecs, store₂, hlower, rfl, rfl⟩ := h
  obtain ⟨a, rfl⟩ := Int.eq_ofNat_of_zero_le (valid_of_parseCoinNormalized hcoin).2
  have hamount : amountOf coins = Ledger.only denom a := amountOf_eq_only hcoins
  obtain ⟨rfl, hle⟩ := sendCoins_spec hsend
  obtain ⟨rfl, -, hsupply⟩ := burnCoins_spec hburn
  -- what passes through the module account leaves no trace there
  simp only [hamount, Ledger.debit_credit, Ledger.supply_credit, Ledger.supply_debit] at hle hsupply ⊢
  have hself : Ledger.only denom a denom = a := by simp [Ledger.only]
  refine ⟨denom, a, addr, store₁, hcoin, haddr, ?_, ?_, rfl, hrecs, hlower⟩
  · simpa [hself] using hle denom
  · simpa [hself] using hsupply denom

/-- The coins a burn took were spendable. -/
theorem spendable_of_burnStableCoin {target amount : GoString} {s : State V}
    {res : State V × BurnResponse} {c : Coin} {addr : AccAddress}
    (h : burnStableCoin k ctx target amount s = .ok res)
    (hcoin : parseCoinNormalized (withAeilSuffix amount) = .ok c)
    (haddr : accAddressFromBech32 k.bankKeeper.bech32 target = .ok addr) (hpos : 0 < c.amount) :
    c.amount.toNat + lockedCoins k.bankKeeper ctx addr c.denom ≤ s.bank.balance addr c.denom := by
  simp only [burnStableCoin, hcoin, haddr, bind_eq_ok, mapErr, Except.ok.injEq, exists_eq_left',
    sendCoinsFromAccountToModule, sendCoins] at h
  obtain ⟨coins, hcoins, -, ⟨b₁, hsub, -⟩, -⟩ := h
  exact spendable_of_subUnlockedCoins hcoins hpos hsub

/-- Everything a successful module burn did. -/
theorem burnModuleStableCoins_spec {s s' : State V}
    (h : burnModuleStableCoins k ctx s = .ok s') :
    (s' = s ∧ s.bank.balance k.bankKeeper.moduleAddr mcnl = 0) ∨
    ∃ a : Nat, a = s.bank.balance k.bankKeeper.moduleAddr mcnl ∧ a ≠ 0 ∧
      s'.bank = (s.bank.debit k.bankKeeper.moduleAddr (Ledger.only mcnl a)).retire
        (Ledger.only mcnl a) ∧ a ≤ s.bank.supply mcnl ∧
      lowerSupply k a s.store = .ok s'.store := by
  simp only [burnModuleStableCoins] at h
  split at h
  · rename_i hzero
    cases h
    exact Or.inl ⟨rfl, hzero⟩
  · rename_i hne
    simp only [bind_eq_ok, mapErr_eq_ok, pure_eq_ok] at h
    obtain ⟨coins, hcoins, bank₁, hburn, store₁, hlower, rfl⟩ := h
    have hamount := amountOf_eq_only hcoins
    obtain ⟨rfl, -, hsupply⟩ := burnCoins_spec hburn
    rw [hamount] at hsupply ⊢
    refine Or.inr ⟨_, rfl, hne, rfl, ?_, hlower⟩
    simpa [Ledger.only] using hsupply mcnl

/-- Everything a successful distribution did. -/
theorem distributeRewardPercent_spec {msg : MsgDistributeRewardPercent} {s s' : State V}
    (h : distributeRewardPercent k ctx msg s = .ok s') :
    s'.store = s.store ∧ ∃ addr : AccAddress, k.bankKeeper.blockedAddr addr = false ∧
      10000 ≤ s.bank.balance k.bankKeeper.moduleAddr aeil ∧
      s'.bank = (s.bank.debit k.bankKeeper.moduleAddr (Ledger.only aeil 10000)).credit addr
        (Ledger.only aeil 10000) := by
  simp only [distributeRewardPercent, bind_eq_ok, mapErr_eq_ok, newCoin_eq_ok, require_eq_ok,
    pure_eq_ok, exists_const] at h
  obtain ⟨-, -, hbalance, _, ⟨-, rfl⟩, coins, hcoins, addr, -, bank₁, hsend, rfl⟩ := h
  obtain ⟨hblocked, rfl, -⟩ := sendCoinsFromModuleToAccount_spec hsend
  rw [amountOf_eq_only hcoins]
  exact ⟨rfl, addr, hblocked, hbalance, rfl⟩

/-! ## Records, energy and the node list -/

/-- Everything a successful deposit did. -/
theorem depositCollateral_spec {msg : MsgDepositCollateral} {store store' : Store V}
    (h : depositCollateral k msg store = .ok store') :
    (∃ r, msg.recType = some (.recRecord r) ∧
      store' = store.set (recRecordKey r.recId) (k.cdc.marshalRecord r)) ∨
    (∃ m, msg.recType = some (.recMeta m) ∧
      store' = store.set (recMetaKey m.certifiedId) (k.cdc.marshalMeta m)) := by
  rw [depositCollateral, bind_eq_ok] at h
  obtain ⟨-, -, h⟩ := h
  split at h
  · rename_i r hr
    exact Or.inl ⟨r, hr, pure_eq_ok.1 h⟩
  · rename_i m hm
    exact Or.inr ⟨m, hm, pure_eq_ok.1 h⟩
  · simp at h

/-- A successful withdrawal deletes REC keys and nothing else. -/
theorem removeCollateral_spec {amount : GoString} {store store' : Store V}
    (h : removeCollateral amount store = .ok store') :
    ChangesOnly [.recRecord, .recMeta] store store' ∧
      ∃ a : Nat, parseCoinNormalized amount = .ok ⟨mcnl, a⟩ ∧
        numRecs store' + a / 1000 = numRecs store := by
  simp only [removeCollateral, bind_eq_ok, mapErr_eq_ok, require_eq_ok, intQuo_eq_ok, int64_eq_ok,
    pure_eq_ok, exists_const] at h
  obtain ⟨⟨denom, z⟩, hcoin, rfl, _, ⟨-, rfl⟩, -, _, ⟨-, rfl⟩, hdeleted, rfl⟩ := h
  obtain ⟨a, rfl⟩ := Int.eq_ofNat_of_zero_le (valid_of_parseCoinNormalized hcoin).2
  have hquo : (a : Int).tdiv 1000 = (a / 1000 : Nat) := (Int.ofNat_tdiv a 1000).symm
  simp only [hquo] at hdeleted ⊢
  obtain ⟨hframe, hcount, hdone⟩ := deleteRecs_spec (Int.natCast_nonneg (a / 1000)) store
  rw [hdone] at hdeleted
  exact ⟨hframe, a, hcoin, by omega⟩

theorem addEnergy_changesOnly (creator : GoString) (amountKwh : Float64) (txHash : GoString)
    (store : Store V) :
    ChangesOnly [.totalEnergy, .energyByAddress, .energyTx] store
      (addEnergy k creator amountKwh txHash store).1 := by
  have htotal : ∀ (st : Store V) (v : V),
      ChangesOnly [.totalEnergy, .energyByAddress, .energyTx] st (st.set totalEnergyKey v) :=
    fun st v => changesOnly_set (f := .totalEnergy) (by simp) (inFamily_root _) st v
  have haddr : ∀ (st : Store V) (v : V),
      ChangesOnly [.totalEnergy, .energyByAddress, .energyTx] st
        (st.set (energyByAddressKey creator) v) :=
    fun st v => changesOnly_set (f := .energyByAddress) (by simp)
      (inFamily_energyByAddressKey creator) st v
  have htx : ∀ (st : Store V) (v : V),
      ChangesOnly [.totalEnergy, .energyByAddress, .energyTx] st (st.set energyTxKey v) :=
    fun st v => changesOnly_set (f := .energyTx) (by simp) (inFamily_root _) st v
  unfold addEnergy
  dsimp only
  split
  · exact (((htotal _ _).trans (haddr _ _)).trans (htx _ _)).trans (htotal _ _)
  · exact ((htotal _ _).trans (haddr _ _)).trans (htx _ _)

theorem issueRecord_changesOnly (store : Store V) (i : Nat) :
    ChangesOnly [.recRecord] store (issueRecord k ctx store i) :=
  changesOnly_set List.mem_cons_self (inFamily_root_append _ _) store _

theorem foldl_issueRecord_changesOnly (turns : List Nat) (store : Store V) :
    ChangesOnly [.recRecord] store (turns.foldl (issueRecord k ctx) store) := by
  induction turns generalizing store with
  | nil => exact .refl _ _
  | cons i turns ih => exact (issueRecord_changesOnly store i).trans (ih _)

/-- Issuing records never lowers the number of REC keys. -/
theorem numRecs_le_foldl_issueRecord (turns : List Nat) (store : Store V) :
    numRecs store ≤ numRecs (turns.foldl (issueRecord k ctx) store) := by
  induction turns generalizing store with
  | nil => exact le_rfl
  | cons i turns ih =>
      -- a record is added or overwritten
      refine le_trans ?_ (ih (issueRecord k ctx store i))
      have hframe : ChangesOnly [.recRecord] store (issueRecord k ctx store i) :=
        issueRecord_changesOnly store i
      have hmeta := hframe.countKeys_eq (g := .recMeta) (by decide)
      have hrec : countKeys .recRecord store ≤ countKeys .recRecord (issueRecord k ctx store i) :=
        SortedMap.card_le_card_set _ _ _ _
      rw [numRecs, numRecs, hmeta]
      omega

/-- The families an append writes. -/
@[simp]
def listFamilies : List Family := [.txNode, .txListHead, .txListTail, .energyByAddress, .energyTx]

theorem resetEnergyStore_changesOnly (store : Store V) :
    ChangesOnly [.energyByAddress, .energyTx] store (resetEnergyStore store) := by
  have hkeys : ∀ key ∈ (store.select (inFamily .energyByAddress)).map Prod.fst,
      inFamily .energyByAddress key = true := by
    intro key hkey
    obtain ⟨⟨key', v⟩, hmem, rfl⟩ := List.mem_map.1 hkey
    exact (SortedMap.mem_select.1 hmem).1
  exact (changesOnly_deleteAll (f := .energyByAddress) (by simp) hkeys store).trans
    (changesOnly_delete (f := .energyTx) (by simp) (inFamily_root _) _)

theorem changesOnly_setNode (store : Store V) (recId : GoString) (v : V) :
    ChangesOnly [.txNode] store (store.set (txNodeKey recId) v) :=
  changesOnly_set List.mem_cons_self (inFamily_root_append _ _) store v

theorem changesOnly_setHead (store : Store V) (v : V) :
    ChangesOnly [.txListHead] store (store.set txListHeadKey v) :=
  changesOnly_set List.mem_cons_self (inFamily_root _) store v

theorem changesOnly_setTail (store : Store V) (v : V) :
    ChangesOnly [.txListTail] store (store.set txListTailKey v) :=
  changesOnly_set List.mem_cons_self (inFamily_root _) store v

theorem appendTxNode_changesOnly {node : TxNodeTx} {store store' : Store V}
    (h : appendTxNode k node store = .ok store') : ChangesOnly listFamilies store store' := by
  have hnode : ∀ (st : Store V) (recId : GoString) (v : V),
      ChangesOnly listFamilies st (st.set (txNodeKey recId) v) := fun st recId v =>
    (changesOnly_setNode st recId v).mono (by simp)
  have hhead : ∀ (st : Store V) (v : V), ChangesOnly listFamilies st (st.set txListHeadKey v) :=
    fun st v => (changesOnly_setHead st v).mono (by simp)
  have htail : ∀ (st : Store V) (v : V), ChangesOnly listFamilies st (st.set txListTailKey v) :=
    fun st v => (changesOnly_setTail st v).mono (by simp)
  have hreset : ∀ st : Store V, ChangesOnly listFamilies st (resetEnergyStore st) := fun st =>
    (resetEnergyStore_changesOnly st).mono (by simp)
  unfold appendTxNode at h
  dsimp only at h
  split at h
  · cases h
    exact (((hnode _ _ _).trans (hhead _ _)).trans (htail _ _)).trans (hreset _)
  · split at h
    · simp at h
    · split at h
      · simp at h
      · cases h
        exact (((hnode _ _ _).trans (hnode _ _ _)).trans (htail _ _)).trans (hreset _)

/-! ## The handlers -/

section Handlers

variable {s s' : State V} {r : Result}

theorem handle_rewardSolarPower {msg : MsgRewardSolarPower}
    (h : handle k ctx s (.rewardSolarPower msg) = .ok (s', r)) :
    rewardSolarPower k ctx msg.address msg.amount s = .ok s' := by
  simp only [handle, bind_eq_ok, pure_eq_ok, Prod.mk.injEq] at h
  obtain ⟨s₁, h₁, rfl, -⟩ := h
  exact h₁

theorem response_of_burnStableCoin {msg : MsgBurnStableCoin}
    (h : handle k ctx s (.burnStableCoin msg) = .ok (s', r)) :
    ∃ resp, burnStableCoin k ctx msg.targetAddr msg.amount s = .ok (s', resp) ∧
      r.response = .burn resp := by
  simp only [handle, handleBurnStableCoin, bind_eq_ok, pure_eq_ok, Prod.mk.injEq] at h
  obtain ⟨⟨s₁, resp⟩, h₁, rfl, rfl⟩ := h
  exact ⟨resp, h₁, rfl⟩

theorem handle_burnStableCoin {msg : MsgBurnStableCoin}
    (h : handle k ctx s (.burnStableCoin msg) = .ok (s', r)) :
    ∃ resp, burnStableCoin k ctx msg.targetAddr msg.amount s = .ok (s', resp) := by
  obtain ⟨resp, hburn, -⟩ := response_of_burnStableCoin h
  exact ⟨resp, hburn⟩

theorem handle_burnModuleStable {msg : MsgBurnModuleStable}
    (h : handle k ctx s (.burnModuleStable msg) = .ok (s', r)) :
    burnModuleStableCoins k ctx s = .ok s' := by
  simp only [handle, bind_eq_ok, mapErr_eq_ok, pure_eq_ok, Prod.mk.injEq] at h
  obtain ⟨s₁, h₁, rfl, -⟩ := h
  exact h₁

theorem handle_depositCollateral {msg : MsgDepositCollateral}
    (h : handle k ctx s (.depositCollateral msg) = .ok (s', r)) :
    s'.bank = s.bank ∧ depositCollateral k msg s.store = .ok s'.store := by
  simp only [handle, bind_eq_ok, pure_eq_ok, Prod.mk.injEq] at h
  obtain ⟨st, h₁, rfl, -⟩ := h
  exact ⟨rfl, h₁⟩

theorem handle_removeCollateral {msg : MsgRemoveCollateral}
    (h : handle k ctx s (.removeCollateral msg) = .ok (s', r)) :
    s'.bank = s.bank ∧ removeCollateral msg.amount s.store = .ok s'.store := by
  simp only [handle, bind_eq_ok, pure_eq_ok, Prod.mk.injEq] at h
  obtain ⟨st, h₁, rfl, -⟩ := h
  exact ⟨rfl, h₁⟩

/-- A successful energy report, with the `int64` it recorded and the count it returned. -/
theorem handle_addEnergy {msg : MsgAddEnergy}
    (h : handle k ctx s (.addEnergy msg) = .ok (s', r)) :
    ∃ wh recs : Int, newIntFromString msg.amount = some wh ∧ isInt64 wh = true ∧
      addEnergy k msg.toAddr (.ofInt wh) msg.txHash s.store = (s'.store, recs) ∧
      r.response = .addEnergy recs ∧ s'.bank = s.bank := by
  simp only [handle, handleAddEnergy, bind_eq_ok, orFail_eq_ok, int64_eq_ok, pure_eq_ok,
    Prod.mk.injEq] at h
  obtain ⟨wh, hwh, _, ⟨h64, rfl⟩, rfl, rfl⟩ := h
  exact ⟨_, _, hwh, h64, rfl, rfl, rfl⟩

/-- A successful issue, with the identifiers it returned. -/
theorem handle_createRECRecord {msg : MsgCreateRECRecord}
    (h : handle k ctx s (.createRECRecord msg) = .ok (s', r)) :
    0 < msg.count ∧ s'.store = (createRECRecord k ctx msg.count s.store).1 ∧
      r.response = .createRECRecord ((List.range msg.count.toNat).map (recID ctx)) ∧
      s'.bank = s.bank := by
  simp only [handle, handleCreateRECRecord, createRECRecord] at h
  split at h
  · simp at h
  · rename_i first rest hids
    cases h
    -- the handler reads the first identifier, so there is one
    have hlen := congrArg List.length hids
    rw [List.length_map, List.length_range, List.length_cons] at hlen
    exact ⟨by omega, rfl, rfl, rfl⟩

theorem handle_appendTxHash {msg : MsgAppendTxHash}
    (h : handle k ctx s (.appendTxHash msg) = .ok (s', r)) :
    appendTxNode k ⟨msg.txHashes, msg.nodeCreator, msg.recId, msg.next⟩ s.store = .ok s'.store ∧
      s'.bank = s.bank := by
  simp only [handle, handleAppendTxHash, bind_eq_ok, pure_eq_ok, Prod.mk.injEq] at h
  obtain ⟨st, h₁, rfl, -⟩ := h
  exact ⟨h₁, rfl⟩

theorem handle_distributeRewardPercent {msg : MsgDistributeRewardPercent}
    (h : handle k ctx s (.distributeRewardPercent msg) = .ok (s', r)) :
    distributeRewardPercent k ctx msg s = .ok s' := by
  simp only [handle, handleDistributeRewardPercent, bind_eq_ok, pure_eq_ok, Prod.mk.injEq] at h
  obtain ⟨s₁, h₁, rfl, -⟩ := h
  exact h₁

/-- The messages that move coins. -/
def Msg.movesCoins : Msg → Bool
  | .rewardSolarPower _ => true
  | .burnStableCoin _ => true
  | .burnModuleStable _ => true
  | .distributeRewardPercent _ => true
  | _ => false

/-- The other messages leave the bank alone. -/
theorem handle_bank_eq {msg : Msg} (hmsg : msg.movesCoins = false)
    (h : handle k ctx s msg = .ok (s', r)) : s'.bank = s.bank := by
  cases msg with
  | rewardSolarPower msg => cases hmsg
  | burnStableCoin msg => cases hmsg
  | burnModuleStable msg => cases hmsg
  | distributeRewardPercent msg => cases hmsg
  | depositCollateral msg => exact (handle_depositCollateral h).1
  | removeCollateral msg => exact (handle_removeCollateral h).1
  | addEnergy msg =>
      obtain ⟨-, -, -, -, -, -, hbank⟩ := handle_addEnergy h
      exact hbank
  | createRECRecord msg => exact (handle_createRECRecord h).2.2.2
  | appendTxHash msg => exact (handle_appendTxHash h).2

/-- The families a message may write. -/
@[simp]
def Msg.families : Msg → List Family
  | .rewardSolarPower _ => [.supply]
  | .burnStableCoin _ => [.supply, .recRecord, .recMeta]
  | .burnModuleStable _ => [.supply]
  | .depositCollateral _ => [.recRecord, .recMeta]
  | .removeCollateral _ => [.recRecord, .recMeta]
  | .addEnergy _ => [.totalEnergy, .energyByAddress, .energyTx]
  | .createRECRecord _ => [.recRecord]
  | .appendTxHash _ => listFamilies
  | .distributeRewardPercent _ => []

/-- Every message writes only its own families. -/
theorem handle_changesOnly {msg : Msg} (h : handle k ctx s msg = .ok (s', r)) :
    ChangesOnly msg.families s.store s'.store := by
  cases msg with
  | rewardSolarPower msg =>
      obtain ⟨a, u, m, addr, -, -, -, -, -, -, -, hstore, -⟩ :=
        rewardSolarPower_spec (handle_rewardSolarPower h)
      rw [hstore]
      exact changesOnly_setSupply List.mem_cons_self _ _
  | burnStableCoin msg =>
      obtain ⟨resp, hburn⟩ := handle_burnStableCoin h
      obtain ⟨denom, a, addr, store₁, -, -, -, -, -, hrecs, hlower⟩ := burnStableCoin_spec hburn
      have h₁ := (returnRecs_spec (Int.natCast_nonneg _) hrecs).1
      exact (h₁.mono (List.subset_cons_self _ _)).trans
        (lowerSupply_changesOnly List.mem_cons_self hlower)
  | burnModuleStable msg =>
      rcases burnModuleStableCoins_spec (handle_burnModuleStable h) with
        ⟨rfl, -⟩ | ⟨a, -, -, -, -, hlower⟩
      · exact .refl _ _
      · exact lowerSupply_changesOnly List.mem_cons_self hlower
  | depositCollateral msg =>
      rcases depositCollateral_spec (handle_depositCollateral h).2 with ⟨rc, -, hst⟩ | ⟨m, -, hst⟩
      · rw [hst]
        exact changesOnly_set (f := .recRecord) (by simp)
          (inFamily_root_append _ _) _ _
      · rw [hst]
        exact changesOnly_set (f := .recMeta) (by simp)
          (inFamily_root_append _ _) _ _
  | removeCollateral msg => exact (removeCollateral_spec (handle_removeCollateral h).2).1
  | addEnergy msg =>
      obtain ⟨wh, recs, -, -, hadd, -, -⟩ := handle_addEnergy h
      have := addEnergy_changesOnly (k := k) msg.toAddr (.ofInt wh) msg.txHash s.store
      rwa [hadd] at this
  | createRECRecord msg =>
      obtain ⟨-, hstore, -, -⟩ := handle_createRECRecord h
      rw [hstore]
      exact foldl_issueRecord_changesOnly _ _
  | appendTxHash msg => exact appendTxNode_changesOnly (handle_appendTxHash h).1
  | distributeRewardPercent msg =>
      rw [(distributeRewardPercent_spec (handle_distributeRewardPercent h)).1]
      exact .refl _ _

/-- A send that succeeds changes the bank only. -/
theorem handleTx_send {msg : MsgSend} (h : handleTx k s ⟨ctx, .send msg⟩ = .ok (s', r)) :
    ∃ bank, send k.bankKeeper ctx msg s.bank = .ok bank ∧ s' = { s with bank := bank } ∧
      r = .empty := by
  obtain ⟨bank, hsend, hres⟩ := bind_eq_ok.1 h
  obtain ⟨rfl, rfl⟩ := Prod.mk.inj (pure_eq_ok.1 hres)
  exact ⟨bank, hsend, rfl, rfl⟩

/-- A message that succeeds is committed. -/
theorem deliver_reward_ok {msg : Msg} (h : handle k ctx s msg = .ok (s', r)) :
    deliver k s ⟨ctx, .reward msg⟩ = s' := by
  change commit s (handle k ctx s msg) = s'
  rw [h, commit_ok]

/-- A message that fails leaves the state as it was. -/
theorem deliver_reward_error {msg : Msg} {fault : Fault} (h : handle k ctx s msg = .error fault) :
    deliver k s ⟨ctx, .reward msg⟩ = s := by
  change commit s (handle k ctx s msg) = s
  rw [h, commit_error]

/-- A transaction leaves the store alone, or it carries a reward message that succeeds and writes only
the families of the message. -/
theorem deliver_changesOnly (k : Keeper V) (s : State V) (tx : Tx) :
    (deliver k s tx).store = s.store ∨
      ∃ msg s' r, tx.msg = .reward msg ∧ handle k tx.ctx s msg = .ok (s', r) ∧
        ChangesOnly msg.families s.store (deliver k s tx).store := by
  cases hres : handleTx k s tx with
  | error fault =>
      rw [deliver, hres, commit_error]
      exact Or.inl rfl
  | ok p =>
      obtain ⟨s', r⟩ := p
      rw [deliver, hres, commit_ok]
      obtain ⟨ctx, msg⟩ := tx
      cases msg with
      | send msg =>
          obtain ⟨bank, -, rfl, -⟩ := handleTx_send hres
          exact Or.inl rfl
      | reward msg => exact Or.inr ⟨msg, s', r, rfl, hres, handle_changesOnly hres⟩

end Handlers

/-- What holds of the empty store and is kept by every message holds of the store of every run. -/
theorem run_store_invariant {P : Store V → Prop} (hempty : P .empty)
    (hstep : ∀ {ctx : Context} {s s' : State V} {msg : Msg} {r : Result}, P s.store →
      handle k ctx s msg = .ok (s', r) → P s'.store) (bank : BankState) (txs : List Tx) :
    P (run (deliver k) (genesis bank) txs).store := by
  refine run_invariant (C := fun _ _ => True) (I := fun s : State V => P s.store) ?_ hempty
    (along_of_forall _ fun _ _ _ => trivial)
  rintro s ⟨ctx, txMsg⟩ hs -
  rcases deliver_changesOnly k s ⟨ctx, txMsg⟩ with hstore | ⟨msg, s', r, rfl, hres, -⟩
  · rw [hstore]
    exact hs
  · rw [deliver_reward_ok hres]
    exact hstep hs hres

end

end EnergyChain.Reward
