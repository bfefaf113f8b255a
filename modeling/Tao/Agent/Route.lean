import Tao.Agent.Fib
import Tao.Agent.NextHop
import Tao.Foundation.Scan
import Tao.Foundation.Transition

/-! # Routes (`route.c`)

Every function is total on `RouteState` with `none` for undefined behaviour: the
dereference of a pointer that is not live, a result read from an unused slot, and
a store past the end of `mpath[]`. -/

namespace Tao.Agent

open Tao.Foundation

/-- The routing state of all VRFs.  `rib` and `fibRes` (the used slots of `fib_res_array`) are
    shared, `fib` and `ribCnt` are those of each `vrf_dp`. -/
structure RouteState where
  rib : Table NtbRibKey FibResId
  fib : VrfId → RteFib
  ribCnt : VrfId → Int
  fibRes : Table FibResId FibRes
  store : NhopStore

structure RouteEnv where
  nhop : NhopEnv
  ribRoom : Bool
  fibAccepts : Bool

/-! ## `struct fib_res` -/

def fibResRtypeGet (fRes : FibRes) : RibType :=
  if fRes.frFlags &&& frfMroute ≠ 0 then .mroute else .default

def fibResMpathNospace (fRes : FibRes) : Bool := fRes.mpathMax ≤ fRes.mpathCnt

def fibNhopEqual (nhopArgs : FibNhop) (matchKey : FibNhopEncapData) : Bool :=
  match nhopArgs.tunnelInfo.type with
  | .vxlan => nhopArgs.gateway = matchKey.gateway ∧ nhopArgs.tunnelInfo = matchKey.tunnelInfo
  | .tgre => nhopArgs.tunnelInfo = matchKey.tunnelInfo
  | _ => false

/-- The loop over `mpath[]` of `ntb_route_nhop_insert`: whether a next hop equals the new one. -/
def mpathHas (nhops : Table Addr FibNhop) (data : FibNhopEncapData) : List Addr → Option Bool
  | [] => some false
  | a :: rest =>
    match nhops.lookup a with
    | none => none
    | some fNhop => if fibNhopEqual fNhop data then some true else mpathHas nhops data rest

/-- `fib_res_reset` of a new slot.  It leaves `f_res_oid`, which `fib_res_obj_create` sets. -/
def fibResReset : FibRes where
  fResOid := 0
  frFlags := 0
  mpathMax := routeMaxEcmp
  mpath := []
  mpathFits := Nat.zero_le _

/-- `fib_res_id_alloc`: the lowest free slot.  One slot is reserved for the blackhole. -/
def fibResIdAlloc (fibRes : Table FibResId FibRes) : Option FibResId :=
  scan (fun id => id ∉ fibRes) (ntbNrFibResAll + 1) 0

/-- `rib_res_nhop_ctor`: `mpath[]` has `ROUTE_MAX_ECMP` slots. -/
def ribResNhopCtor (fRes : FibRes) (nhop : Addr) : Option FibRes :=
  if fits : (fRes.mpath ++ [nhop]).length ≤ routeMaxEcmp then
    some { fRes with mpath := fRes.mpath ++ [nhop], mpathFits := fits }
  else none

/-- `fib_res_md_set` without an old result.  The assertion of the last branch is compiled out. -/
def fibResMdSet (fRes : FibRes) : RibType → FibRes
  | .default => { fRes with mpathMax := routeMaxEcmp, frFlags := fRes.frFlags &&& ~~~frfMroute }
  | .mroute => { fRes with mpathMax := mrouteMaxEcmp, frFlags := fRes.frFlags ||| frfMroute }
  | .max => fRes

/-- `f_res_oid` of a new result: the id of a single next hop, or the number of next hops of a
    multicast route.  An ECMP group has none, its allocation is commented out. -/
def fibResOid (nhops : Table Addr FibNhop) (fibNhops : List Addr) : RibType → Option Oid
  | .default =>
    match fibNhops with
    -- reads the next hop, which has to be live
    | [a] => (nhops.lookup a).map FibNhop.nhOid
    | _ => some 0
  | _ => some (BitVec.ofNat 32 fibNhops.length)

/-- `fib_res_obj_create`: the slot of the new result, or a negative code. -/
def fibResObjCreate (nhops : Table Addr FibNhop) (fibNhops : List Addr) (fResOld : Option FibRes)
    (ribType : RibType) (fibRes : Table FibResId FibRes) :
    Option (Table FibResId FibRes × Except Int FibResId) :=
  match fibResIdAlloc fibRes with
  | none => some (fibRes, .error ntbRouteResultNospace)
  | some id =>
    match fibNhops.foldlM ribResNhopCtor fibResReset, fibResOid nhops fibNhops ribType with
    | some fRes, some oid =>
      let flags := (fResOld.map FibRes.frFlags).getD fRes.frFlags
      some (fibRes.insert id (fibResMdSet { fRes with fResOid := oid, frFlags := flags } ribType), .ok id)
    | _, _ => none

def rtPrefixTypeGet (s : RouteState) (pfx : NtbRibKey) (id : FibResId) : Option PrefixType :=
  match s.fibRes.lookup id with
  | none => none
  | some fRes =>
    match fRes.mpath with
    | [a] =>
      match s.store.nhops.lookup a with
      | none => none
      | some fNhop => some (if fNhop.tunnelInfo.type = .tgre ∧ pfx.prefixlen = 32 then .host else .lpm)
    | _ => some .lpm

def rtPtype (s : RouteState) (pfx : NtbRibKey) : Option FibResId → Option PrefixType
  | none => some .invalid
  -- a prefix is never given slot 0, so `f_res_id > 0` holds
  | some id => rtPrefixTypeGet s pfx id

/-- `fib_res_obj_delete`: both of its branches free the slot. -/
def fibResObjDelete (id : FibResId) (s : RouteState) : RouteState :=
  { s with fibRes := s.fibRes.erase id }

/-! ## Prefixes -/

/-- `rt_prefix_obj_update`.  `old` is the slot the prefix has so far (`f_res_id`, -1 for none).
    The two prefix types only decide `is_add`, which nothing reads. -/
def rtPrefixObjUpdate (env : RouteEnv) (vrfId : VrfId) (pfx : NtbRibKey) (old : Option FibResId)
    (new : FibResId) (s : RouteState) : Option (RouteState × Int) :=
  match rtPtype s pfx old, rtPrefixTypeGet s pfx new with
  | some _, some _ =>
    match Table.add env.ribRoom s.rib pfx new with
    | none => some (s, ntbRoutePrefixNospace)
    | some rib =>
      match rteFibAdd env.fibAccepts (s.fib vrfId) (rteBeToCpu32 pfx.prefix4) pfx.prefixlen.toNat new with
      | none => -- rollback2
        match old with
        | none => some ({ s with rib := rib.erase pfx }, ntbRoutePrefixNospace)
        | some id => some ({ s with rib := rib.insert pfx id }, ntbRoutePrefixNospace)
      | some fib =>
        some ({ s with
          rib := rib
          fib := Function.update s.fib vrfId fib
          ribCnt := if old = none then Function.update s.ribCnt vrfId (s.ribCnt vrfId + 1) else s.ribCnt }, 0)
  | _, _ => none

/-- `rt_prefix_obj_delete`.  The result of `rte_fib_delete` is only asserted. -/
def rtPrefixObjDelete (vrfId : VrfId) (pfx : NtbRibKey) (id : FibResId) (s : RouteState) : Option RouteState :=
  match rtPrefixTypeGet s pfx id with
  | none => none
  | some _ =>
    let fib := (rteFibDelete (s.fib vrfId) (rteBeToCpu32 pfx.prefix4) pfx.prefixlen.toNat).getD (s.fib vrfId)
    some { s with
      fib := Function.update s.fib vrfId fib
      rib := s.rib.erase pfx
      ribCnt := Function.update s.ribCnt vrfId (s.ribCnt vrfId - 1) }

/-! ## The calls -/

def RouteState.nhopDelete (vrfId : VrfId) (a : Addr) (s : RouteState) : Option RouteState :=
  (nhopObjDelete vrfId a s.store).map fun store => { s with store := store }

/-- `ntb_route_nhop_insert` after its sanity check.  `old` is the slot and the result that the
    prefix has so far. -/
def routeNhopInsertNew (env : RouteEnv) (vrfId : VrfId) (pfx : NtbRibKey) (data : FibNhopEncapData)
    (ribType : RibType) (old : Option (FibResId × FibRes)) (s : RouteState) : Option (RouteState × Int) :=
  match nhopObjCreate env.nhop vrfId data s.store with
  | none => none
  | some (store, .error ret) => some ({ s with store := store }, ret)
  | some (store, .ok nhopNew) =>
    let fNhops := (old.elim [] fun old => old.2.mpath) ++ [nhopNew]
    match fibResObjCreate store.nhops fNhops (old.map Prod.snd) ribType s.fibRes with
    | none => none
    | some (fibRes, .error ret) => -- rollback2
      (RouteState.nhopDelete vrfId nhopNew { s with store := store, fibRes := fibRes }).map fun s => (s, ret)
    | some (fibRes, .ok new) =>
      match rtPrefixObjUpdate env vrfId pfx (old.map Prod.fst) new
          { s with store := store, fibRes := fibRes } with
      | none => none
      | some (s, ret) =>
        if ret < 0 then -- rollback1
          ((fibResObjDelete new s).nhopDelete vrfId nhopNew).map fun s => (s, ret)
        else
          match old with
          | none => some (s, ret)
          | some (id, _) => some (fibResObjDelete id s, 0)

/-- The sanity check of `ntb_route_nhop_insert` for a prefix that has a result. -/
def routeNhopInsertMore (env : RouteEnv) (vrfId : VrfId) (pfx : NtbRibKey) (data : FibNhopEncapData)
    (ribType : RibType) (id : FibResId) (fRes : FibRes) (s : RouteState) : Option (RouteState × Int) :=
  if fibResRtypeGet fRes ≠ ribType then some (s, ntbIpv4RoutetypeNoSame)
  else if fibResMpathNospace fRes then some (s, ntbRouteNexthopEcmpNospace)
  else
    match mpathHas s.store.nhops data fRes.mpath with
    | none => none
    | some true => some (s, 0)
    | some false => routeNhopInsertNew env vrfId pfx data ribType (some (id, fRes)) s

def ntbRouteNhopInsert (env : RouteEnv) (vrfId : VrfId) (pfx : NtbRibKey) (data : FibNhopEncapData)
    (ribType : RibType) (s : RouteState) : Option (RouteState × Int) :=
  match s.rib.lookup pfx with
  | none => routeNhopInsertNew env vrfId pfx data ribType none s
  | some id =>
    match s.fibRes.lookup id with
    | none => none
    | some fRes => routeNhopInsertMore env vrfId pfx data ribType id fRes s

/-- The end of `ntb_route_nhop_delete` for a route that keeps other next hops.  When the next hop
    stands more than once in `mpath[]`, `f_nhops` is read past what was written. -/
def routeNhopDeleteOne (env : RouteEnv) (vrfId : VrfId) (pfx : NtbRibKey) (ribType : RibType)
    (id : FibResId) (fRes : FibRes) (fNhop : Addr) (s : RouteState) : Option (RouteState × Int) :=
  let fNhops := fRes.mpath.filter (· ≠ fNhop)
  if fNhops.length ≠ fRes.mpathCnt - 1 then none
  else
    match fibResObjCreate s.store.nhops fNhops (some fRes) ribType s.fibRes with
    | none => none
    | some (fibRes, .error ret) => some ({ s with fibRes := fibRes }, ret)
    | some (fibRes, .ok new) =>
      match rtPrefixObjUpdate env vrfId pfx (some id) new { s with fibRes := fibRes } with
      | none => none
      | some (s, ret) =>
        if ret < 0 then some (fibResObjDelete new s, ret) -- rollback
        else ((fibResObjDelete id s).nhopDelete vrfId fNhop).map fun s => (s, 0)

def ntbRouteNhopDelete (env : RouteEnv) (vrfId : VrfId) (pfx : NtbRibKey) (data : FibNhopEncapData)
    (ribType : RibType) (s : RouteState) : Option (RouteState × Int) :=
  match s.rib.lookup pfx with
  | none => some (s, 0)
  | some id =>
    match s.fibRes.lookup id with
    | none => none
    | some fRes =>
      if fibResRtypeGet fRes ≠ ribType then some (s, ntbIpv4RoutetypeNoSame)
      else
        match s.store.hashTbl.lookup data.key with
        | none => some (s, 0)
        | some fNhop =>
          if fNhop ∉ fRes.mpath then some (s, 0)
          -- the only next hop: the route goes away
          else if fRes.mpathCnt = 1 then
            match rtPrefixObjDelete vrfId pfx id s with
            | none => none
            | some s => ((fibResObjDelete id s).nhopDelete vrfId fNhop).map fun s => (s, 0)
          else routeNhopDeleteOne env vrfId pfx ribType id fRes fNhop s

def ntbRouteDelete (vrfId : VrfId) (pfx : NtbRibKey) (s : RouteState) : Option (RouteState × Int) :=
  match s.rib.lookup pfx with
  | none => some (s, ntbRoutePrefixNotFound)
  | some id =>
    match s.fibRes.lookup id with
    | none => none
    | some fRes =>
      match rtPrefixObjDelete vrfId pfx id s with
      | none => none
      | some s =>
        (fRes.mpath.foldlM (fun (s : RouteState) a => s.nhopDelete vrfId a)
          (fibResObjDelete id s)).map fun s => (s, 0)

/-- `rte_hash_iterate`: some order of the keys. -/
structure RteHashIterate where
  keys : Table NtbRibKey FibResId → List NtbRibKey
  nodup : ∀ t, (keys t).Nodup
  mem_keys : ∀ t k, k ∈ keys t ↔ k ∈ t

/-- `ntb_route_cleanup`, which returns 0.  It deletes no key but the one the iteration stands at,
    so it visits the keys that were present at the start. -/
def ntbRouteCleanup (iterate : RteHashIterate) (vrfId : VrfId) (s : RouteState) : Option RouteState :=
  (iterate.keys s.rib).foldlM (fun (s : RouteState) pfx =>
    if vrfId = pfx.vrfId then (ntbRouteDelete vrfId pfx s).map Prod.fst else some s) s

/-! ## Runs -/

/-- The slot of the blackhole result: the first one of the empty array. -/
def fResBlackhole : FibResId := 0

/-- The state after `ntb_vrf_init`. -/
def RouteState.initial : RouteState where
  rib := ∅
  fib := fun _ => ∅
  ribCnt := fun _ => 0
  fibRes := Finmap.insert fResBlackhole ⟨0, frfReject, 0, [], Nat.zero_le _⟩ ∅
  store := ⟨∅, ∅, ∅, ⟨∅, 0, fun _ => 0, ∅⟩⟩

/-- The calls that change the routing state, with what they are answered.  The `vrf_dp` of a call
    is that of `pfx.vrf_id`. -/
inductive RouteCall where
  | nhopInsert (env : RouteEnv) (pfx : NtbRibKey) (data : FibNhopEncapData) (ribType : RibType)
  | nhopDelete (env : RouteEnv) (pfx : NtbRibKey) (data : FibNhopEncapData) (ribType : RibType)
  | delete (pfx : NtbRibKey)
  | cleanup (iterate : RteHashIterate) (vrfId : VrfId)
  | neighAddStatic (env : NeighEnv) (vrfId : VrfId) (gw : Ip4) (hwAddr : EtherAddr)

def routeStep (s : RouteState) : RouteCall → Option RouteState
  | .nhopInsert env pfx data ribType => (ntbRouteNhopInsert env pfx.vrfId pfx data ribType s).map Prod.fst
  | .nhopDelete env pfx data ribType => (ntbRouteNhopDelete env pfx.vrfId pfx data ribType s).map Prod.fst
  | .delete pfx => (ntbRouteDelete pfx.vrfId pfx s).map Prod.fst
  | .cleanup iterate vrfId => ntbRouteCleanup iterate vrfId s
  | .neighAddStatic env vrfId gw hwAddr =>
    some { s with store := { s.store with neigh := (olNeighAddStatic env vrfId gw hwAddr s.store.neigh).1 } }

end Tao.Agent
