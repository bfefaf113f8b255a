import Tao.Agent.NeighCoverage
import Tao.Agent.NhopIdentity
import Tao.Foundation.Checked

/-! # Deletions with assertions compiled in

The deletions of `route.c` with their return codes and every `RTE_ASSERT` on the way.
`rte_hash_del_key` returns where the key was, a number that some callers take for an error
code.  An `RTE_ASSERT(f_res != NULL)` always holds and is left out: `rte_fbarray_get` returns
the address of any slot of the array. -/

namespace Tao.Agent

open Tao.Foundation Checked

/-- Where the keys of the two hash tables are, each key at a place of its own. -/
structure RteHashPositions (s : RouteState) where
  rib : NtbRibKey → Nat
  nhop : NtbNhopHashKey → Nat
  rib_injective : ∀ pfx pfx', pfx ∈ s.rib → pfx' ∈ s.rib → rib pfx = rib pfx' → pfx = pfx'
  nhop_injective : ∀ key key', key ∈ s.store.hashTbl → key' ∈ s.store.hashTbl → nhop key = nhop key' → key = key'

/-! ## The functions -/

def rteHashDelKey {κ α : Type} [DecidableEq κ] (position : κ → Nat) (t : Table κ α) (key : κ) : Table κ α × Int :=
  if key ∈ t then (t.erase key, position key) else (t, -enoent)

def ntbNeighDelChecked (vrfId : VrfId) (gw : Ip4) (t : OlNeighTable) : Checked (OlNeighTable × Int) :=
  match t.hashTbl.lookup ⟨vrfId, gw⟩ with
  | none => .ok (t, -1)
  | some nhop => do
    check (0 < nhop.refcnt)
    return ntbNeighDel vrfId gw t

def nhopObjDeleteChecked (position : NtbNhopHashKey → Nat) (vrfId : VrfId) (a : Addr) (s : NhopStore) :
    Checked (NhopStore × Int) := do
  let fNhop ← ofOption (s.nhops.lookup a)
  let refCount := decrement32 fNhop.refCount
  if 0 < refCount then
    return ({ s with nhops := s.nhops.insert a { fNhop with refCount := refCount } }, 0)
  else
    let (hashTbl, ret) := rteHashDelKey position s.hashTbl fNhop.key
    check (0 ≤ ret)
    let (neigh, ret) ←
      if fNhop.gateway = 0 then pure (s.neigh, ret)
      else do
        let (neigh, ret) ← ntbNeighDelChecked vrfId fNhop.gateway s.neigh
        check (0 = ret)
        pure (neigh, ret)
    check (0 = ret)
    return ({ s with hashTbl := hashTbl, nhops := s.nhops.erase a, neigh := neigh }, 0)

def RouteState.nhopDeleteChecked (position : NtbNhopHashKey → Nat) (vrfId : VrfId) (a : Addr) (s : RouteState) :
    Checked (RouteState × Int) := do
  let (store, ret) ← nhopObjDeleteChecked position vrfId a s.store
  return ({ s with store := store }, ret)

/-- `rt_prefix_obj_delete` returns what `rte_hash_del_key` does. -/
def rtPrefixObjDeleteChecked (position : NtbRibKey → Nat) (vrfId : VrfId) (pfx : NtbRibKey) (id : FibResId)
    (s : RouteState) : Checked (RouteState × Int) := do
  let _ ← ofOption (rtPrefixTypeGet s pfx id)
  match rteFibDelete (s.fib vrfId) (rteBeToCpu32 pfx.prefix4) pfx.prefixlen.toNat with
  | none => .error .asserted
  | some fib =>
    let (rib, ret) := rteHashDelKey position s.rib pfx
    check (0 ≤ ret)
    check (0 ≤ s.ribCnt vrfId - 1)
    return ({ s with
      fib := Function.update s.fib vrfId fib
      rib := rib
      ribCnt := Function.update s.ribCnt vrfId (s.ribCnt vrfId - 1) }, ret)

/-- The loop of `ntb_route_delete` over the next hops it recorded. -/
def nhopsDeleteChecked (position : NtbNhopHashKey → Nat) (vrfId : VrfId) :
    List Addr → RouteState → Checked RouteState
  | [], s => .ok s
  | a :: rest, s => do
    let (s, ret) ← s.nhopDeleteChecked position vrfId a
    check (ret = 0)
    nhopsDeleteChecked position vrfId rest s

def ntbRouteDeleteChecked {s : RouteState} (positions : RteHashPositions s) (vrfId : VrfId) (pfx : NtbRibKey) :
    Checked (RouteState × Int) :=
  match s.rib.lookup pfx with
  | none => .ok (s, ntbRoutePrefixNotFound)
  | some id => do
    let fRes ← ofOption (s.fibRes.lookup id)
    let (s, ret) ← rtPrefixObjDeleteChecked positions.rib vrfId pfx id s
    check (ret = 0)
    let s ← nhopsDeleteChecked positions.nhop vrfId fRes.mpath (fibResObjDelete id s)
    return (s, 0)

/-- The end of `ntb_route_nhop_delete` for a route that keeps other next hops. -/
def routeNhopDeleteOneChecked (position : NtbNhopHashKey → Nat) (env : RouteEnv) (vrfId : VrfId) (pfx : NtbRibKey)
    (ribType : RibType) (id : FibResId) (fRes : FibRes) (fNhop : Addr) (s : RouteState) :
    Checked (RouteState × Int) := do
  let fNhops := fRes.mpath.filter (· ≠ fNhop)
  if fNhops.length ≠ fRes.mpathCnt - 1 then .error .undefined
  else
    match ← ofOption (fibResObjCreate s.store.nhops fNhops (some fRes) ribType s.fibRes) with
    | (fibRes, .error ret) => return ({ s with fibRes := fibRes }, ret)
    | (fibRes, .ok new) =>
      let (s, ret) ← ofOption (rtPrefixObjUpdate env vrfId pfx (some id) new { s with fibRes := fibRes })
      if ret < 0 then return (fibResObjDelete new s, ret) -- rollback
      else
        let (s, ret) ← (fibResObjDelete id s).nhopDeleteChecked position vrfId fNhop
        check (ret = 0)
        return (s, ret)

def ntbRouteNhopDeleteChecked {s : RouteState} (positions : RteHashPositions s) (env : RouteEnv) (vrfId : VrfId)
    (pfx : NtbRibKey) (data : FibNhopEncapData) (ribType : RibType) : Checked (RouteState × Int) :=
  match s.rib.lookup pfx with
  | none => .ok (s, 0)
  | some id => do
    let fRes ← ofOption (s.fibRes.lookup id)
    if fibResRtypeGet fRes ≠ ribType then return (s, ntbIpv4RoutetypeNoSame)
    else
      match s.store.hashTbl.lookup data.key with
      | none => return (s, 0)
      | some fNhop =>
        if fNhop ∉ fRes.mpath then return (s, 0)
        else if fRes.mpathCnt = 1 then
          let (s, ret) ← rtPrefixObjDeleteChecked positions.rib vrfId pfx id s
          check (ret = 0)
          let (s, ret) ← (fibResObjDelete id s).nhopDeleteChecked positions.nhop vrfId fNhop
          check (ret = 0)
          return (s, ret)
        else routeNhopDeleteOneChecked positions.nhop env vrfId pfx ribType id fRes fNhop s

/-! ## What ends, ends as without assertions -/

theorem rteHashDelKey_found {κ α : Type} [DecidableEq κ] {position : κ → Nat} {t t' : Table κ α} {key : κ}
    {ret : Int} (deleted : rteHashDelKey position t key = (t', ret)) (found : 0 ≤ ret) : t' = t.erase key := by
  unfold rteHashDelKey at deleted
  split at deleted
  next => exact (Prod.mk.inj deleted).1.symm
  next =>
    obtain ⟨_, rfl⟩ := Prod.mk.inj deleted
    exact absurd found (by decide)

theorem ntbNeighDelChecked_sound {vrfId : VrfId} {gw : Ip4} {t t' : OlNeighTable} {ret : Int}
    (ended : ntbNeighDelChecked vrfId gw t = .ok (t', ret)) : (ntbNeighDel vrfId gw t).1 = t' := by
  unfold ntbNeighDelChecked at ended
  split at ended
  next absent =>
    cases ended
    simp only [ntbNeighDel, absent]
  next =>
    obtain ⟨_, _, deleted⟩ := bind_eq_ok.mp ended
    rw [Except.ok.inj deleted]

theorem nhopObjDeleteChecked_sound {position : NtbNhopHashKey → Nat} {vrfId : VrfId} {a : Addr} {s s' : NhopStore}
    {ret : Int} (ended : nhopObjDeleteChecked position vrfId a s = .ok (s', ret)) :
    nhopObjDelete vrfId a s = some s' ∧ ret = 0 := by
  obtain ⟨fNhop, held, rest⟩ := bind_eq_ok.mp ended
  rw [ofOption_eq_ok] at held
  simp only [nhopObjDelete, held]
  dsimp only at rest
  split at rest
  next kept =>
    cases rest
    rw [if_pos kept]
    exact ⟨rfl, rfl⟩
  next last =>
    rw [if_neg last]
    rcases erases : rteHashDelKey position s.hashTbl fNhop.key with ⟨hashTbl, code⟩
    rw [erases] at rest
    obtain ⟨_, nonNegative, rest⟩ := bind_eq_ok.mp rest
    obtain rfl := rteHashDelKey_found erases (check_eq_ok.mp nonNegative)
    unfold nhopNeighDel
    split at rest
    next zero =>
      rw [pure_bind] at rest
      obtain ⟨_, _, rest⟩ := bind_eq_ok.mp rest
      cases rest
      rw [if_pos zero]
      exact ⟨rfl, rfl⟩
    next nonzero =>
      obtain ⟨⟨neigh, code'⟩, released, rest⟩ := bind_eq_ok.mp rest
      obtain ⟨_, _, rest⟩ := bind_eq_ok.mp rest
      rw [pure_bind] at rest
      obtain ⟨_, _, rest⟩ := bind_eq_ok.mp rest
      cases rest
      rw [if_neg nonzero, ntbNeighDelChecked_sound released]
      exact ⟨rfl, rfl⟩

section

variable {vrfId : VrfId} {pfx : NtbRibKey} {s s' : RouteState} {ret : Int}

theorem RouteState.nhopDeleteChecked_sound {position : NtbNhopHashKey → Nat} {a : Addr}
    (ended : s.nhopDeleteChecked position vrfId a = .ok (s', ret)) : s.nhopDelete vrfId a = some s' ∧ ret = 0 := by
  obtain ⟨⟨store, code⟩, deletes, rest⟩ := bind_eq_ok.mp ended
  cases rest
  obtain ⟨deleted, zero⟩ := nhopObjDeleteChecked_sound deletes
  exact ⟨by rw [RouteState.nhopDelete, deleted, Option.map_some], zero⟩

theorem rtPrefixObjDeleteChecked_sound {position : NtbRibKey → Nat} {id : FibResId}
    (ended : rtPrefixObjDeleteChecked position vrfId pfx id s = .ok (s', ret)) :
    rtPrefixObjDelete vrfId pfx id s = some s' := by
  obtain ⟨_, typed, rest⟩ := bind_eq_ok.mp ended
  rw [ofOption_eq_ok] at typed
  split at rest
  next => cases rest
  next fib deleted =>
    rcases erases : rteHashDelKey position s.rib pfx with ⟨rib, code⟩
    rw [erases] at rest
    obtain ⟨_, nonNegative, rest⟩ := bind_eq_ok.mp rest
    obtain ⟨_, _, rest⟩ := bind_eq_ok.mp rest
    cases rest
    obtain rfl := rteHashDelKey_found erases (check_eq_ok.mp nonNegative)
    simp only [rtPrefixObjDelete, typed, deleted, Option.getD_some]

theorem nhopsDeleteChecked_sound {position : NtbNhopHashKey → Nat} {fNhops : List Addr} :
    ∀ {s : RouteState}, nhopsDeleteChecked position vrfId fNhops s = .ok s' →
      fNhops.foldlM (fun (s : RouteState) a => s.nhopDelete vrfId a) s = some s' := by
  induction fNhops with
  | nil =>
    intro s ended
    rw [Except.ok.inj ended, List.foldlM_nil]
    rfl
  | cons a rest ih =>
    intro s ended
    obtain ⟨⟨t, code⟩, deletes, ended⟩ := bind_eq_ok.mp ended
    obtain ⟨_, _, ended⟩ := bind_eq_ok.mp ended
    obtain ⟨deleted, _⟩ := RouteState.nhopDeleteChecked_sound deletes
    rw [List.foldlM_cons, deleted]
    exact ih ended

theorem ntbRouteDeleteChecked_sound {positions : RteHashPositions s}
    (ended : ntbRouteDeleteChecked positions vrfId pfx = .ok (s', ret)) :
    ntbRouteDelete vrfId pfx s = some (s', ret) := by
  cases listed : s.rib.lookup pfx with
  | none =>
    simp only [ntbRouteDeleteChecked, listed] at ended
    cases ended
    simp only [ntbRouteDelete, listed]
  | some id =>
    simp only [ntbRouteDeleteChecked, listed] at ended
    obtain ⟨fRes, used, ended⟩ := bind_eq_ok.mp ended
    rw [ofOption_eq_ok] at used
    obtain ⟨⟨t, code⟩, unlisted, ended⟩ := bind_eq_ok.mp ended
    obtain ⟨_, _, ended⟩ := bind_eq_ok.mp ended
    obtain ⟨t', deleted, ended⟩ := bind_eq_ok.mp ended
    cases ended
    simp only [ntbRouteDelete, listed, used, rtPrefixObjDeleteChecked_sound unlisted,
      nhopsDeleteChecked_sound deleted, Option.map_some]

theorem routeNhopDeleteOneChecked_sound {position : NtbNhopHashKey → Nat} {env : RouteEnv} {ribType : RibType}
    {id : FibResId} {fRes : FibRes} {fNhop : Addr}
    (ended : routeNhopDeleteOneChecked position env vrfId pfx ribType id fRes fNhop s = .ok (s', ret)) :
    routeNhopDeleteOne env vrfId pfx ribType id fRes fNhop s = some (s', ret) := by
  unfold routeNhopDeleteOneChecked at ended
  unfold routeNhopDeleteOne
  dsimp only at ended ⊢
  split at ended
  next => cases ended
  next counted =>
    rw [if_neg counted]
    obtain ⟨⟨fibRes, created⟩, creates, ended⟩ := bind_eq_ok.mp ended
    rw [ofOption_eq_ok] at creates
    cases created with
    | error code =>
      cases ended
      simp only [creates]
    | ok new =>
      obtain ⟨⟨t, code⟩, updates, ended⟩ := bind_eq_ok.mp ended
      rw [ofOption_eq_ok] at updates
      simp only [creates, updates]
      dsimp only at ended
      split at ended
      next failed =>
        cases ended
        rw [if_pos failed]
      next updated =>
        obtain ⟨⟨t', code'⟩, deletes, ended⟩ := bind_eq_ok.mp ended
        obtain ⟨_, _, ended⟩ := bind_eq_ok.mp ended
        cases ended
        obtain ⟨deleted, zero⟩ := RouteState.nhopDeleteChecked_sound deletes
        rw [if_neg updated, deleted, Option.map_some, zero]

theorem ntbRouteNhopDeleteChecked_sound {positions : RteHashPositions s} {env : RouteEnv} {data : FibNhopEncapData}
    {ribType : RibType} (ended : ntbRouteNhopDeleteChecked positions env vrfId pfx data ribType = .ok (s', ret)) :
    ntbRouteNhopDelete env vrfId pfx data ribType s = some (s', ret) := by
  cases listed : s.rib.lookup pfx with
  | none =>
    simp only [ntbRouteNhopDeleteChecked, listed] at ended
    cases ended
    simp only [ntbRouteNhopDelete, listed]
  | some id =>
    simp only [ntbRouteNhopDeleteChecked, listed] at ended
    obtain ⟨fRes, used, ended⟩ := bind_eq_ok.mp ended
    rw [ofOption_eq_ok] at used
    simp only [ntbRouteNhopDelete, listed, used]
    split at ended
    next other =>
      cases ended
      rw [if_pos other]
    next same =>
      rw [if_neg same]
      cases known : s.store.hashTbl.lookup data.key with
      | none =>
        rw [known] at ended
        cases ended
        rfl
      | some fNhop =>
        rw [known] at ended
        dsimp only at ended ⊢
        split at ended
        next notUsed =>
          cases ended
          rw [if_pos notUsed]
        next uses =>
          rw [if_neg uses]
          split at ended
          next only =>
            rw [if_pos only]
            obtain ⟨⟨t, code⟩, unlisted, ended⟩ := bind_eq_ok.mp ended
            obtain ⟨_, _, ended⟩ := bind_eq_ok.mp ended
            obtain ⟨⟨t', code'⟩, deletes, ended⟩ := bind_eq_ok.mp ended
            obtain ⟨_, _, ended⟩ := bind_eq_ok.mp ended
            cases ended
            obtain ⟨deleted, zero⟩ := RouteState.nhopDeleteChecked_sound deletes
            simp only [rtPrefixObjDeleteChecked_sound unlisted, deleted, Option.map_some, zero]
          next several =>
            rw [if_neg several]
            exact routeNhopDeleteOneChecked_sound ended

end

/-! ## Deleting a next hop -/

/-- The last reference to a next hop without a gateway goes, and its key is not at place 0. -/
def NhopTrips (position : NtbNhopHashKey → Nat) (fNhop : FibNhop) : Prop :=
  fNhop.refCount = 1 ∧ fNhop.gateway = 0 ∧ position fNhop.key ≠ 0

theorem rteHashDelKey_present {κ α : Type} [DecidableEq κ] (position : κ → Nat) {t : Table κ α} {key : κ}
    (present : key ∈ t) : rteHashDelKey position t key = (t.erase key, (position key : Int)) := if_pos present

theorem ntbNeighDelChecked_found {vrfId : VrfId} {gw : Ip4} {t : OlNeighTable} {entry : OlNeighEntry}
    (held : t.hashTbl.lookup ⟨vrfId, gw⟩ = some entry) (referenced : 1 ≤ entry.refcnt) :
    ntbNeighDelChecked vrfId gw t = .ok ((ntbNeighDel vrfId gw t).1, 0) := by
  have zero : (ntbNeighDel vrfId gw t).2 = 0 := ntbNeighDel_found held
  simp only [ntbNeighDelChecked, held, check_of (show 0 < entry.refcnt by omega), ok_bind]
  exact congrArg Except.ok (Prod.ext rfl zero)

section

variable {position : NtbNhopHashKey → Nat} {vrfId : VrfId} {a : Addr} {s : NhopStore} {fNhop : FibNhop}

theorem nhopObjDeleteChecked_trips (held : s.nhops.lookup a = some fNhop) (stored : fNhop.key ∈ s.hashTbl)
    (trips : NhopTrips position fNhop) : nhopObjDeleteChecked position vrfId a s = .error .asserted := by
  obtain ⟨last, gateway, elsewhere⟩ := trips
  have nonNegative : (0 : Int) ≤ position fNhop.key := Int.natCast_nonneg _
  have nonzero : ¬ (0 : Int) = position fNhop.key := by omega
  simp only [nhopObjDeleteChecked, held, ofOption_some, ok_bind, last, decrement32_succ 0, Nat.lt_irrefl, if_false,
    rteHashDelKey_present position stored, check_of nonNegative, gateway, if_true, pure_bind, check_not nonzero,
    error_bind]

theorem nhopObjDeleteChecked_ok (held : s.nhops.lookup a = some fNhop) (stored : fNhop.key ∈ s.hashTbl)
    (counted : 1 ≤ fNhop.refCount)
    (neighbour : fNhop.gateway ≠ 0 →
      ∃ entry, s.neigh.hashTbl.lookup ⟨vrfId, fNhop.gateway⟩ = some entry ∧ 1 ≤ entry.refcnt)
    (passes : ¬ NhopTrips position fNhop) {s' : NhopStore} (deleted : nhopObjDelete vrfId a s = some s') :
    nhopObjDeleteChecked position vrfId a s = .ok (s', 0) := by
  have nonNegative : (0 : Int) ≤ position fNhop.key := Int.natCast_nonneg _
  by_cases kept : 0 < decrement32 fNhop.refCount
  · simp only [nhopObjDelete, held, kept, if_true] at deleted
    obtain rfl := Option.some.inj deleted
    simp only [nhopObjDeleteChecked, held, ofOption_some, ok_bind, kept, if_true]
    rfl
  · have last : fNhop.refCount = 1 := by
      unfold decrement32 at kept
      split at kept <;> omega
    simp only [nhopObjDelete, held, kept, if_false, nhopNeighDel] at deleted
    obtain rfl := Option.some.inj deleted
    by_cases gateway : fNhop.gateway = 0
    · have first : (0 : Int) = position fNhop.key := by
        by_contra elsewhere
        exact passes ⟨last, gateway, by omega⟩
      simp only [nhopObjDeleteChecked, held, ofOption_some, ok_bind, kept, if_false,
        rteHashDelKey_present position stored, check_of nonNegative, gateway, if_true, pure_bind, check_of first]
      rfl
    · obtain ⟨entry, found, referenced⟩ := neighbour gateway
      simp only [nhopObjDeleteChecked, held, ofOption_some, ok_bind, kept, if_false,
        rteHashDelKey_present position stored, check_of nonNegative, gateway,
        ntbNeighDelChecked_found found referenced, check_true, pure_bind]
      rfl

end

/-! ## States after inserts into one VRF -/

def RouteCall.InsertsInto (vrfId : VrfId) : RouteCall → Prop
  | .nhopInsert _ pfx _ _ => pfx.vrfId = vrfId
  | _ => False

/-- All keys are of one VRF, they are entered in its FIB, and the neighbours of their next hops are there. -/
structure OneVrf (vrfId : VrfId) (s : RouteState) : Prop where
  accounted : Accounted s
  own : ∀ pfx id, s.rib.lookup pfx = some id → pfx.vrfId = vrfId
  entered : ∀ pfx id, s.rib.lookup pfx = some id → ∃ p, pfx.fibPrefix = some p ∧ p ∈ s.fib vrfId
  covered : ∃ owner, Covered s ∅ owner

theorem OneVrf.same {vrfId : VrfId} {s s' : RouteState} (oneVrf : OneVrf vrfId s) (same : s.Same s') :
    OneVrf vrfId s' := by
  obtain ⟨owner, covered⟩ := oneVrf.covered
  refine ⟨oneVrf.accounted.same same, ?_, ?_, owner, covered.same same⟩
  · rw [same.rib]
    exact oneVrf.own
  · rw [same.rib, same.fib]
    exact oneVrf.entered

theorem OneVrf.inserted {env : RouteEnv} {pfx : NtbRibKey} {data : FibNhopEncapData} {ribType : RibType}
    {s s' : RouteState} (oneVrf : OneVrf pfx.vrfId s) (inserted : Inserted env pfx data ribType s s') :
    OneVrf pfx.vrfId s' := by
  obtain ⟨owner, covered⟩ := oneVrf.covered
  have unshared (_ : data.gateway ≠ 0) (other : NtbRibKey) (a : Addr) (fNhop : FibNhop) (uses : Uses s other a)
      (_ : s.store.nhops.lookup a = some fNhop) (_ : fNhop.key = data.key) : other.vrfId = pfx.vrfId := by
    obtain ⟨id, _, listed, _⟩ := uses
    exact oneVrf.own other id listed
  refine ⟨oneVrf.accounted.inserted inserted, ?_, ?_, covered.inserted oneVrf.accounted inserted unshared⟩ <;>
    obtain ⟨_, id, a, oid, p, _, _, masked, _, rib, fib, _⟩ := inserted
  · intro other id' listed
    rw [rib, Table.lookup_insert_eq_some] at listed
    rcases listed with ⟨same, _⟩ | ⟨_, listed⟩
    · rw [same]
    · exact oneVrf.own other id' listed
  · intro other id' listed
    rw [fib, Function.update_self]
    rw [rib, Table.lookup_insert_eq_some] at listed
    rcases listed with ⟨same, _⟩ | ⟨_, listed⟩
    · exact ⟨p, by rw [same, masked], Finmap.mem_insert.mpr (.inl rfl)⟩
    · obtain ⟨q, masked', member⟩ := oneVrf.entered other id' listed
      exact ⟨q, masked', Finmap.mem_insert.mpr (.inr member)⟩

theorem routeStep_oneVrf {vrfId : VrfId} {s s' : RouteState} {call : RouteCall} (inserts : call.InsertsInto vrfId)
    (oneVrf : OneVrf vrfId s) (stepped : routeStep s call = some s') : OneVrf vrfId s' := by
  cases call with
  | nhopInsert env pfx data ribType =>
    obtain rfl : pfx.vrfId = vrfId := inserts
    rcases ntbRouteNhopInsert_cases env pfx data ribType oneVrf.accounted with
      ⟨_, undefined⟩ | ⟨_, t, ret, result, outcome⟩
    · rw [routeStep, undefined] at stepped
      cases stepped
    · rw [routeStep, result] at stepped
      obtain rfl := Option.some.inj stepped
      rcases outcome with ⟨_, _, same⟩ | ⟨_, _, rfl⟩ | ⟨_, _, inserted⟩
      · exact oneVrf.same same
      · exact oneVrf
      · exact oneVrf.inserted inserted
  | nhopDelete => exact inserts.elim
  | delete => exact inserts.elim
  | cleanup => exact inserts.elim
  | neighAddStatic => exact inserts.elim

theorem OneVrf.initial (vrfId : VrfId) : OneVrf vrfId .initial where
  accounted := RouteState.initial_accounted
  own := by intro pfx id listed; cases listed
  entered := by intro pfx id listed; cases listed
  covered := ⟨_, NeighRun.initial_covered⟩

theorem inserts_oneVrf {calls : List RouteCall} {vrfId : VrfId} {s : RouteState}
    (inserts : ∀ call ∈ calls, call.InsertsInto vrfId) (reached : run routeStep .initial calls = some s) :
    OneVrf vrfId s := by
  have preserved (s : RouteState) (call : RouteCall) (member : call ∈ calls) (s' : RouteState)
      (oneVrf : OneVrf vrfId s) (stepped : routeStep s call = some s') : OneVrf vrfId s' :=
    routeStep_oneVrf (inserts call member) oneVrf stepped
  exact run_invariant_mem preserved (.initial vrfId) reached

/-! ## Deleting a route -/

/-- A route of a key at place 0 whose next hop trips no assertion. -/
def CleanPlaces {s : RouteState} (positions : RteHashPositions s) (pfx : NtbRibKey) : Prop :=
  positions.rib pfx = 0 ∧
    ∀ a fNhop, Uses s pfx a → s.store.nhops.lookup a = some fNhop → ¬ NhopTrips positions.nhop fNhop

section

variable {s : RouteState} {pfx : NtbRibKey} {id : FibResId} {fRes : FibRes} {a : Addr} {fNhop : FibNhop}

theorem SingleRoute.uses_iff (route : SingleRoute s pfx id fRes a fNhop) {b : Addr} : Uses s pfx b ↔ b = a := by
  constructor
  · rintro ⟨_, _, listed, used, member⟩
    obtain rfl := Option.some.inj (route.listed.symm.trans listed)
    obtain rfl := Option.some.inj (route.used.symm.trans used)
    rwa [route.single, List.mem_singleton] at member
  · rintro rfl
    exact ⟨id, fRes, route.listed, route.used, by rw [route.single]; exact List.mem_cons_self⟩

theorem SingleRoute.cleanPlaces_iff (route : SingleRoute s pfx id fRes a fNhop) (positions : RteHashPositions s) :
    CleanPlaces positions pfx ↔ positions.rib pfx = 0 ∧ ¬ NhopTrips positions.nhop fNhop := by
  refine and_congr_right fun _ => ⟨fun all => all a fNhop (route.uses_iff.mpr rfl) route.held, ?_⟩
  intro passes b gNhop uses held
  obtain rfl := route.uses_iff.mp uses
  obtain rfl := Option.some.inj (route.held.symm.trans held)
  exact passes

theorem OneVrf.prefixDelete (oneVrf : OneVrf pfx.vrfId s) (route : SingleRoute s pfx id fRes a fNhop)
    (position : NtbRibKey → Nat) :
    ∃ s', s'.store = s.store ∧ rtPrefixObjDelete pfx.vrfId pfx id s = some s' ∧
      rtPrefixObjDeleteChecked position pfx.vrfId pfx id s = .ok (s', (position pfx : Int)) := by
  obtain ⟨rtPtype, typed⟩ := rtPrefixTypeGet_live route.used route.single route.held pfx
  obtain ⟨p, masked, member⟩ := oneVrf.entered pfx id route.listed
  rw [NtbRibKey.fibPrefix] at masked
  have deleted : rteFibDelete (s.fib pfx.vrfId) (rteBeToCpu32 pfx.prefix4) pfx.prefixlen.toNat =
      some ((s.fib pfx.vrfId).erase p) := by
    simp only [rteFibDelete, masked, member, if_true]
  have counted : (0 : Int) ≤ s.ribCnt pfx.vrfId - 1 := by
    have one := Table.weight_le_total (fun (other : NtbRibKey) _ => if other.vrfId = pfx.vrfId then 1 else 0)
      route.listed
    rw [if_pos rfl] at one
    rw [oneVrf.accounted.ribCnt, RouteState.ribKeys]
    omega
  have nonNegative : (0 : Int) ≤ position pfx := Int.natCast_nonneg _
  have present : pfx ∈ s.rib := Finmap.mem_of_lookup_eq_some route.listed
  refine ⟨{ s with
    fib := Function.update s.fib pfx.vrfId ((s.fib pfx.vrfId).erase p)
    rib := s.rib.erase pfx
    ribCnt := Function.update s.ribCnt pfx.vrfId (s.ribCnt pfx.vrfId - 1) }, rfl, ?_, ?_⟩
  · simp only [rtPrefixObjDelete, typed, deleted, Option.getD_some]
  · simp only [rtPrefixObjDeleteChecked, typed, ofOption_some, ok_bind, deleted,
      rteHashDelKey_present position present, check_of nonNegative, check_of counted]
    rfl

theorem OneVrf.nhopDelete (oneVrf : OneVrf pfx.vrfId s) (route : SingleRoute s pfx id fRes a fNhop)
    (position : NtbNhopHashKey → Nat) {t : RouteState} (store : t.store = s.store) :
    (NhopTrips position fNhop ∧ t.nhopDeleteChecked position pfx.vrfId a = .error .asserted) ∨
    (¬ NhopTrips position fNhop ∧ ∃ t', t.nhopDelete pfx.vrfId a = some t' ∧
      t.nhopDeleteChecked position pfx.vrfId a = .ok (t', 0)) := by
  have held : t.store.nhops.lookup a = some fNhop := by rw [store, route.held]
  obtain ⟨listed, counted, positive⟩ := oneVrf.accounted.counts.live a fNhop route.held
  have stored : fNhop.key ∈ t.store.hashTbl := by
    rw [store]
    exact Finmap.mem_of_lookup_eq_some listed
  by_cases trips : NhopTrips position fNhop
  · refine .inl ⟨trips, ?_⟩
    rw [RouteState.nhopDeleteChecked, nhopObjDeleteChecked_trips held stored trips, error_bind]
  · obtain ⟨owner, covered⟩ := oneVrf.covered
    have neighbour (gateway : fNhop.gateway ≠ 0) :
        ∃ entry, t.store.neigh.hashTbl.lookup ⟨pfx.vrfId, fNhop.gateway⟩ = some entry ∧ 1 ≤ entry.refcnt := by
      have coverage : NeighCoverage ⟨s, ∅⟩ := covered.coverage oneVrf.accounted
      rw [store]
      exact (coverage.entry pfx.vrfId fNhop.gateway gateway).mpr
        (.inl ⟨pfx, a, fNhop, rfl, route.uses_iff.mpr rfl, route.held, rfl⟩)
    obtain ⟨store', deleted, _⟩ :=
      nhopObjDelete_counts pfx.vrfId oneVrf.accounted.counts (refs_of_erase route.used route.single)
    rw [← store] at deleted
    refine .inr ⟨trips, { t with store := store' }, by rw [RouteState.nhopDelete, deleted, Option.map_some], ?_⟩
    rw [RouteState.nhopDeleteChecked, nhopObjDeleteChecked_ok held stored (by omega) neighbour trips deleted,
      ok_bind]
    rfl

/-- The place of the key is taken for an error code. -/
theorem OneVrf.routeDelete_trips (oneVrf : OneVrf pfx.vrfId s) (route : SingleRoute s pfx id fRes a fNhop)
    (positions : RteHashPositions s) (elsewhere : positions.rib pfx ≠ 0) :
    ntbRouteDeleteChecked positions pfx.vrfId pfx = .error .asserted := by
  obtain ⟨t, _, _, unlisted⟩ := oneVrf.prefixDelete route positions.rib
  simp only [ntbRouteDeleteChecked, route.listed, route.used, ofOption_some, ok_bind, unlisted]
  rw [check_not (by omega), error_bind]

theorem not_ended {stop : Stop} : ¬ ∃ s' : RouteState, (.error stop : Checked (RouteState × Int)) = .ok (s', 0) := by
  rintro ⟨_, impossible⟩
  cases impossible

/-- Deleting the prefix and then its next hop runs to the end exactly from clean places. -/
theorem OneVrf.deletes_iff (oneVrf : OneVrf pfx.vrfId s) (route : SingleRoute s pfx id fRes a fNhop)
    (positions : RteHashPositions s) (finish : RouteState × Int → Checked (RouteState × Int))
    (ends : ∀ t', finish (t', 0) = .ok (t', 0)) :
    (∃ s', (do
      let (s, ret) ← rtPrefixObjDeleteChecked positions.rib pfx.vrfId pfx id s
      check (ret = 0)
      let outcome ← (fibResObjDelete id s).nhopDeleteChecked positions.nhop pfx.vrfId a
      finish outcome) = .ok (s', 0)) ↔ CleanPlaces positions pfx := by
  obtain ⟨t, store, _, unlisted⟩ := oneVrf.prefixDelete route positions.rib
  rw [route.cleanPlaces_iff, unlisted, ok_bind]
  dsimp only
  by_cases first : positions.rib pfx = 0
  case neg =>
    rw [check_not (by omega), error_bind]
    exact iff_of_false not_ended fun clean => first clean.1
  rw [check_of (by omega), ok_bind]
  rcases oneVrf.nhopDelete route positions.nhop (t := fibResObjDelete id t) store with
    ⟨trips, stops⟩ | ⟨passes, t', _, deleted⟩
  · rw [stops, error_bind]
    exact iff_of_false not_ended fun clean => clean.2 trips
  · rw [deleted, ok_bind, ends]
    exact iff_of_true ⟨t', rfl⟩ ⟨first, passes⟩

theorem OneVrf.routeDelete_iff (oneVrf : OneVrf pfx.vrfId s) (route : SingleRoute s pfx id fRes a fNhop)
    (positions : RteHashPositions s) :
    (∃ s', ntbRouteDeleteChecked positions pfx.vrfId pfx = .ok (s', 0)) ↔ CleanPlaces positions pfx := by
  simp only [ntbRouteDeleteChecked, route.listed, route.used, ofOption_some, ok_bind, route.single,
    nhopsDeleteChecked, bind_assoc]
  exact oneVrf.deletes_iff route positions _ fun _ => rfl

theorem OneVrf.routeNhopDelete_iff (oneVrf : OneVrf pfx.vrfId s) (route : SingleRoute s pfx id fRes a fNhop)
    (positions : RteHashPositions s) (env : RouteEnv) {data : FibNhopEncapData} {ribType : RibType}
    (has : HasNhop pfx data.key s) (type : HasType pfx ribType s) :
    (∃ s', ntbRouteNhopDeleteChecked positions env pfx.vrfId pfx data ribType = .ok (s', 0)) ↔
      CleanPlaces positions pfx := by
  have same := route.hasType_iff.mp type
  have stored : s.store.hashTbl.lookup data.key = some a := by
    rw [← route.hasNhop_iff.mp has]
    exact (oneVrf.accounted.counts.live a fNhop route.held).1
  have only : fRes.mpathCnt = 1 := by rw [FibRes.mpathCnt, route.single]; rfl
  have member : a ∈ fRes.mpath := by rw [route.single]; exact List.mem_cons_self
  simp only [ntbRouteNhopDeleteChecked, route.listed, route.used, ofOption_some, ok_bind, same, ne_eq,
    not_true_eq_false, if_false, stored, member, only, if_true]
  exact oneVrf.deletes_iff route positions _ fun _ => rfl

end

/-- Both ways to delete the route run to the end with all assertions satisfied, and return 0.  Wherever they end
    they leave what the deletions without assertions leave (`ntbRouteDeleteChecked_sound`,
    `ntbRouteNhopDeleteChecked_sound`). -/
def DeletesComplete {s : RouteState} (positions : RteHashPositions s) (vrfId : VrfId) (pfx : NtbRibKey) : Prop :=
  (∃ s', ntbRouteDeleteChecked positions vrfId pfx = .ok (s', 0)) ∧
    ∀ env data ribType, HasNhop pfx data.key s → HasType pfx ribType s →
      ∃ s', ntbRouteNhopDeleteChecked positions env vrfId pfx data ribType = .ok (s', 0)

/-- After any inserts into one VRF, a route is deleted without tripping an assertion exactly when its key is at
    place 0 of the RIB and, if the last reference to a next hop without a gateway goes with it, the key of that
    next hop is at place 0 too. -/
theorem deletesComplete_iff {calls : List RouteCall} {vrfId : VrfId} {s : RouteState}
    (inserts : ∀ call ∈ calls, call.InsertsInto vrfId) (reached : run routeStep .initial calls = some s)
    (positions : RteHashPositions s) {pfx : NtbRibKey} (present : pfx ∈ s.rib) :
    DeletesComplete positions vrfId pfx ↔ CleanPlaces positions pfx := by
  have oneVrf := inserts_oneVrf inserts reached
  obtain ⟨id, listed⟩ := Finmap.mem_iff.mp present
  obtain rfl := oneVrf.own pfx id listed
  obtain ⟨fRes, a, fNhop, route⟩ := oneVrf.accounted.singleRoute listed
  constructor
  · rintro ⟨deletes, _⟩
    exact (oneVrf.routeDelete_iff route positions).mp deletes
  · intro clean
    refine ⟨(oneVrf.routeDelete_iff route positions).mpr clean, fun env data ribType has type => ?_⟩
    exact (oneVrf.routeNhopDelete_iff route positions env has type).mpr clean

/-! ### The first of two routes -/

theorem mrouteRun_positions : ∃ s, run routeStep .initial mrouteRun = some s ∧
    (subnet24 1 7 ∈ s.rib ∧ subnet24 1 8 ∈ s.rib) ∧
    ∃ positions : RteHashPositions s,
      positions.rib = (fun pfx => if pfx = subnet24 1 7 then 0 else 1) ∧ positions.nhop = fun _ => 0 := by
  have keys : (run routeStep .initial mrouteRun).map (fun s => (s.rib.keys, s.store.hashTbl.keys)) =
      some ({subnet24 1 7, subnet24 1 8}, {vxlanNhop.key}) := by decide +kernel
  obtain ⟨s, reached, both⟩ := Option.map_eq_some_iff.mp keys
  obtain ⟨rib, nhops⟩ := Prod.mk.inj both
  have ribKey {pfx : NtbRibKey} : pfx ∈ s.rib ↔ pfx = subnet24 1 7 ∨ pfx = subnet24 1 8 := by
    rw [← Finmap.mem_keys, rib, Finset.mem_insert, Finset.mem_singleton]
  have nhopKey {key : NtbNhopHashKey} : key ∈ s.store.hashTbl ↔ key = vxlanNhop.key := by
    rw [← Finmap.mem_keys, nhops, Finset.mem_singleton]
  refine ⟨s, reached, ⟨ribKey.mpr (.inl rfl), ribKey.mpr (.inr rfl)⟩, ⟨_, _, ?_, ?_⟩, rfl, rfl⟩
  · intro pfx pfx' present present' same
    rcases ribKey.mp present with rfl | rfl <;> rcases ribKey.mp present' with rfl | rfl
    · rfl
    · exact absurd same (by decide)
    · exact absurd same (by decide)
    · rfl
  · intro key key' present present' _
    rw [nhopKey.mp present, nhopKey.mp present']

theorem mrouteRun_inserts : ∀ call ∈ mrouteRun, call.InsertsInto 1 := by
  intro call member
  rcases List.mem_cons.mp member with rfl | member
  · rfl
  · obtain rfl := List.mem_singleton.mp member
    rfl

theorem first_route_deletes : ∃ s, run routeStep .initial mrouteRun = some s ∧
    ∃ positions : RteHashPositions s, DeletesComplete positions 1 (subnet24 1 7) := by
  obtain ⟨s, reached, ⟨present, _⟩, positions, rib, nhop⟩ := mrouteRun_positions
  refine ⟨s, reached, positions, (deletesComplete_iff mrouteRun_inserts reached positions present).mpr ⟨?_, ?_⟩⟩
  · rw [rib]
    rfl
  · rintro _ _ _ _ ⟨_, _, elsewhere⟩
    exact elsewhere (by rw [nhop])

/-- The key of the other route is at place 1. -/
theorem second_route_trips : ∃ s, run routeStep .initial mrouteRun = some s ∧ subnet24 1 8 ∈ s.rib ∧
    ∃ positions : RteHashPositions s,
      ntbRouteDeleteChecked positions 1 (subnet24 1 8) = .error .asserted ∧
      ¬ DeletesComplete positions 1 (subnet24 1 8) := by
  obtain ⟨s, reached, ⟨_, present⟩, positions, rib, _⟩ := mrouteRun_positions
  have oneVrf := inserts_oneVrf mrouteRun_inserts reached
  obtain ⟨id, listed⟩ := Finmap.mem_iff.mp present
  obtain ⟨fRes, a, fNhop, route⟩ := oneVrf.accounted.singleRoute listed
  have elsewhere : positions.rib (subnet24 1 8) ≠ 0 := by
    rw [rib]
    decide
  have stops : ntbRouteDeleteChecked positions 1 (subnet24 1 8) = .error .asserted :=
    oneVrf.routeDelete_trips route positions elsewhere
  refine ⟨s, reached, present, positions, stops, ?_⟩
  rintro ⟨⟨s', deleted⟩, _⟩
  cases stops.symm.trans deleted

end Tao.Agent
