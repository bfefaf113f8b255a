import Tao.Agent.RouteAtomicity
import Tao.Agent.RouteCleanup

/-! # What a next hop is, to insertion and to deletion

`ntb_route_nhop_insert` compares a new next hop with those of the route, and
`ntb_route_nhop_delete` looks it up under its key.  This module states when the two agree,
and when inserting a next hop again does nothing. -/

namespace Tao.Agent

open Tao.Foundation

/-! ## The next hops of a route -/

def HasNhop (pfx : NtbRibKey) (key : NtbNhopHashKey) (s : RouteState) : Prop :=
  ∃ id fRes a fNhop, s.rib.lookup pfx = some id ∧ s.fibRes.lookup id = some fRes ∧ a ∈ fRes.mpath ∧
    s.store.nhops.lookup a = some fNhop ∧ fNhop.key = key

def HasType (pfx : NtbRibKey) (ribType : RibType) (s : RouteState) : Prop :=
  ∃ id fRes, s.rib.lookup pfx = some id ∧ s.fibRes.lookup id = some fRes ∧ fibResRtypeGet fRes = ribType

def HasSpace (pfx : NtbRibKey) (s : RouteState) : Prop :=
  ∃ id fRes, s.rib.lookup pfx = some id ∧ s.fibRes.lookup id = some fRes ∧ fRes.mpathCnt < fRes.mpathMax

def FibNhopEncapData.Encapsulates (data : FibNhopEncapData) : Prop :=
  data.tunnelInfo.type = .vxlan ∨ data.tunnelInfo.type = .tgre

structure SingleRoute (s : RouteState) (pfx : NtbRibKey) (id : FibResId) (fRes : FibRes) (a : Addr)
    (fNhop : FibNhop) : Prop where
  listed : s.rib.lookup pfx = some id
  used : s.fibRes.lookup id = some fRes
  single : fRes.mpath = [a]
  held : s.store.nhops.lookup a = some fNhop

theorem Accounted.singleRoute {s : RouteState} (accounted : Accounted s) {pfx : NtbRibKey} {id : FibResId}
    (listed : s.rib.lookup pfx = some id) : ∃ fRes a fNhop, SingleRoute s pfx id fRes a fNhop := by
  obtain ⟨_, fRes, a, used, single⟩ := accounted.rib_used pfx id listed
  obtain ⟨fNhop, held⟩ := accounted.nhop_live used single
  exact ⟨fRes, a, fNhop, listed, used, single, held⟩

theorem singleRoute_of_run (calls : List RouteCall) (pfx : NtbRibKey) (id : FibResId) (fRes : FibRes) (a : Addr)
    (fNhop : FibNhop) (single : fRes.mpath = [a])
    (final : (run routeStep .initial calls).map (fun s =>
      (s.rib.lookup pfx, s.fibRes.lookup id, s.store.nhops.lookup a)) = some (some id, some fRes, some fNhop)) :
    ∃ s, run routeStep .initial calls = some s ∧ SingleRoute s pfx id fRes a fNhop := by
  obtain ⟨s, reached, facts⟩ := Option.map_eq_some_iff.mp final
  obtain ⟨listed, rest⟩ := Prod.mk.inj facts
  obtain ⟨used, held⟩ := Prod.mk.inj rest
  exact ⟨s, reached, listed, used, single, held⟩

namespace SingleRoute

variable {s : RouteState} {pfx : NtbRibKey} {id : FibResId} {fRes : FibRes} {a : Addr} {fNhop : FibNhop}

theorem hasNhop_iff (route : SingleRoute s pfx id fRes a fNhop) {key : NtbNhopHashKey} :
    HasNhop pfx key s ↔ fNhop.key = key := by
  constructor
  · rintro ⟨_, _, _, _, listed, used, member, held, same⟩
    obtain rfl := Option.some.inj (route.listed.symm.trans listed)
    obtain rfl := Option.some.inj (route.used.symm.trans used)
    rw [route.single, List.mem_singleton] at member
    obtain rfl := Option.some.inj ((member ▸ route.held).symm.trans held)
    exact same
  · intro same
    exact ⟨id, fRes, a, fNhop, route.listed, route.used, by rw [route.single]; exact List.mem_cons_self, route.held,
      same⟩

theorem hasType_iff (route : SingleRoute s pfx id fRes a fNhop) {ribType : RibType} :
    HasType pfx ribType s ↔ fibResRtypeGet fRes = ribType := by
  constructor
  · rintro ⟨_, _, listed, used, same⟩
    obtain rfl := Option.some.inj (route.listed.symm.trans listed)
    obtain rfl := Option.some.inj (route.used.symm.trans used)
    exact same
  · exact fun same => ⟨id, fRes, route.listed, route.used, same⟩

theorem hasSpace_iff (route : SingleRoute s pfx id fRes a fNhop) :
    HasSpace pfx s ↔ fibResMpathNospace fRes = false := by
  rw [fibResMpathNospace, decide_eq_false_iff_not, Nat.not_le]
  constructor
  · rintro ⟨_, _, listed, used, space⟩
    obtain rfl := Option.some.inj (route.listed.symm.trans listed)
    obtain rfl := Option.some.inj (route.used.symm.trans used)
    exact space
  · exact fun space => ⟨id, fRes, route.listed, route.used, space⟩

theorem mpathHas_eq (route : SingleRoute s pfx id fRes a fNhop) (data : FibNhopEncapData) :
    mpathHas s.store.nhops data fRes.mpath = some (fibNhopEqual fNhop data) := by
  rw [route.single]
  exact mpathHas_single route.held data

/-- The three checks of `ntb_route_nhop_insert`, in their order. -/
theorem insert_eq (route : SingleRoute s pfx id fRes a fNhop) (env : RouteEnv) (data : FibNhopEncapData)
    (ribType : RibType) :
    ntbRouteNhopInsert env pfx.vrfId pfx data ribType s =
      if fibResRtypeGet fRes ≠ ribType then some (s, ntbIpv4RoutetypeNoSame)
      else if fibResMpathNospace fRes then some (s, ntbRouteNexthopEcmpNospace)
      else if fibNhopEqual fNhop data then some (s, 0)
      else routeNhopInsertNew env pfx.vrfId pfx data ribType (some (id, fRes)) s := by
  simp only [ntbRouteNhopInsert, route.listed, route.used, routeNhopInsertMore, route.mpathHas_eq data]
  cases fibNhopEqual fNhop data <;> rfl

end SingleRoute

theorem fibNhopEqual_of_key {fNhop : FibNhop} {data : FibNhopEncapData} (encapsulates : data.Encapsulates)
    (same : fNhop.key = data.key) : fibNhopEqual fNhop data = true := by
  obtain ⟨gateway, tunnelInfo⟩ := NtbNhopHashKey.mk.inj same
  unfold fibNhopEqual
  rw [gateway, tunnelInfo]
  rcases encapsulates with type | type <;> simp [type]

/-! ## `mpath_max` -/

/-- Every result but the blackhole has the maximum of its type. -/
def ResultsTyped (s : RouteState) : Prop :=
  ∀ id fRes, id ≠ fResBlackhole → s.fibRes.lookup id = some fRes →
    fRes.mpathMax = if fibResRtypeGet fRes = .mroute then mrouteMaxEcmp else routeMaxEcmp

theorem fibResSingle_typed (oid : Oid) (a : Addr) (ribType : RibType) :
    (fibResSingle oid a ribType).mpathMax =
      if fibResRtypeGet (fibResSingle oid a ribType) = .mroute then mrouteMaxEcmp else routeMaxEcmp := by
  cases ribType <;> simp [fibResSingle, fibResMdSet, fibResRtypeGet, frfMroute]

theorem ResultsTyped.inserted {env : RouteEnv} {pfx : NtbRibKey} {data : FibNhopEncapData} {ribType : RibType}
    {s s' : RouteState} (typed : ResultsTyped s) (inserted : Inserted env pfx data ribType s s') :
    ResultsTyped s' := by
  obtain ⟨_, new, a, oid, _, _, _, _, fibRes, _⟩ := inserted
  intro id fRes notBlackhole used
  rw [fibRes, Table.lookup_insert_eq_some] at used
  rcases used with ⟨_, rfl⟩ | ⟨_, used⟩
  · exact fibResSingle_typed oid a ribType
  · exact typed id fRes notBlackhole used

theorem ResultsTyped.removed {pfx : NtbRibKey} {s s' : RouteState} (typed : ResultsTyped s)
    (removed : Removed pfx s s') : ResultsTyped s' := by
  obtain ⟨_, _, _, _, _, _, _, fibRes, _⟩ := removed
  intro id fRes notBlackhole used
  rw [fibRes, Table.lookup_erase_eq_some] at used
  exact typed id fRes notBlackhole used.2

theorem routeStep_resultsTyped {s s' : RouteState} {call : RouteCall} (accounted : Accounted s)
    (typed : ResultsTyped s) (stepped : routeStep s call = some s') : Accounted s' ∧ ResultsTyped s' := by
  have same (t : RouteState) (same : s.Same t) : ResultsTyped t := by
    unfold ResultsTyped
    rw [same.fibRes]
    exact typed
  obtain ⟨t, stepped', kept⟩ := routeStep_invariant ResultsTyped call accounted (fits_of_defined accounted stepped)
    typed same (fun _ _ _ _ _ _ _ inserted => typed.inserted inserted)
    (fun _ _ _ _ typed removed => typed.removed removed) (fun _ _ _ _ _ => typed)
  obtain rfl := Option.some.inj (stepped.symm.trans stepped')
  exact kept

theorem RouteState.initial_resultsTyped : ResultsTyped .initial := by
  intro id fRes notBlackhole used
  rw [RouteState.initial, Table.lookup_insert_eq, if_neg notBlackhole] at used
  cases used

theorem reachable_resultsTyped {calls : List RouteCall} {s : RouteState}
    (reached : run routeStep .initial calls = some s) : ResultsTyped s := by
  have preserved (s : RouteState) (call : RouteCall) (s' : RouteState) (both : Accounted s ∧ ResultsTyped s)
      (stepped : routeStep s call = some s') : Accounted s' ∧ ResultsTyped s' :=
    routeStep_resultsTyped both.1 both.2 stepped
  exact (run_invariant preserved ⟨RouteState.initial_accounted, RouteState.initial_resultsTyped⟩ reached).2

/-- With one next hop a multicast route has space, and any other route has none. -/
theorem SingleRoute.space_iff {calls : List RouteCall} {s : RouteState} {pfx : NtbRibKey} {id : FibResId}
    {fRes : FibRes} {a : Addr} {fNhop : FibNhop} (route : SingleRoute s pfx id fRes a fNhop)
    (reached : run routeStep .initial calls = some s) : HasSpace pfx s ↔ fibResRtypeGet fRes = .mroute := by
  have notBlackhole := ((reachable_accounted reached).rib_used pfx id route.listed).1
  have typed := reachable_resultsTyped reached id fRes notBlackhole route.used
  rw [route.hasSpace_iff, fibResMpathNospace, FibRes.mpathCnt, route.single, typed]
  split
  next mroute => exact iff_of_true rfl mroute
  next other => exact iff_of_false Bool.noConfusion other

/-! ## Inserting again -/

/-- In every reachable state, inserting a next hop that the route has already returns 0 and changes nothing
    exactly when the route has space for another one, which only multicast routes have. -/
theorem insertAgain_iff {calls : List RouteCall} {s : RouteState} (reached : run routeStep .initial calls = some s)
    (env : RouteEnv) {pfx : NtbRibKey} {data : FibNhopEncapData} {ribType : RibType}
    (encapsulates : data.Encapsulates) (has : HasNhop pfx data.key s) (type : HasType pfx ribType s) :
    (ntbRouteNhopInsert env pfx.vrfId pfx data ribType s = some (s, 0) ↔ HasSpace pfx s) ∧
      (HasSpace pfx s ↔ ribType = .mroute) := by
  have listed := has
  obtain ⟨id, _, _, _, listed, _⟩ := listed
  obtain ⟨fRes, a, fNhop, route⟩ := (reachable_accounted reached).singleRoute listed
  rw [route.hasNhop_iff] at has
  rw [route.hasType_iff] at type
  refine ⟨?_, by rw [route.space_iff reached, type]⟩
  rw [route.insert_eq, if_neg (not_not_intro type), fibNhopEqual_of_key encapsulates has, if_pos rfl,
    route.hasSpace_iff]
  cases fibResMpathNospace fRes with
  | false => exact iff_of_true rfl rfl
  | true =>
    refine iff_of_false (fun result => ?_) Bool.noConfusion
    cases (Prod.mk.inj (Option.some.inj result)).2

theorem mroute_insertAgain : ∃ s, run routeStep .initial mrouteRun = some s ∧
    (ntbRouteNhopInsert fibRefuses 1 (subnet24 1 7) vxlanNhop .mroute s = some (s, 0) ↔ HasSpace (subnet24 1 7) s) ∧
    (HasSpace (subnet24 1 7) s ↔ RibType.mroute = .mroute) := by
  obtain ⟨s, reached, route⟩ := singleRoute_of_run mrouteRun (subnet24 1 7) 1 (fibResSingle 1 1 .mroute) 1
    ⟨5, 2, 6, vxlanNhop.gateway, vxlanNhop.tunnelInfo⟩ rfl (by decide +kernel)
  exact ⟨s, reached, insertAgain_iff reached fibRefuses (.inl rfl) (route.hasNhop_iff.mpr rfl)
    (route.hasType_iff.mpr (by decide))⟩

/-- A route that is not multicast has no space for the next hop that it has. -/
theorem default_insertAgain_refused : ∃ s, run routeStep .initial mrouteRun = some s ∧
    HasNhop (subnet24 1 8) vxlanNhop.key s ∧ HasType (subnet24 1 8) .default s ∧
    ntbRouteNhopInsert (.granted 2 7 8) 1 (subnet24 1 8) vxlanNhop .default s =
      some (s, ntbRouteNexthopEcmpNospace) ∧
    ntbRouteNhopInsert (.granted 2 7 8) 1 (subnet24 1 8) vxlanNhop .default s ≠ some (s, 0) := by
  obtain ⟨s, reached, route⟩ := singleRoute_of_run mrouteRun (subnet24 1 8) 2 (fibResSingle 5 1 .default) 1
    ⟨5, 2, 6, vxlanNhop.gateway, vxlanNhop.tunnelInfo⟩ rfl (by decide +kernel)
  have refused : ntbRouteNhopInsert (.granted 2 7 8) 1 (subnet24 1 8) vxlanNhop .default s =
      some (s, ntbRouteNexthopEcmpNospace) :=
    (route.insert_eq _ _ _).trans (by rw [if_neg (by decide), if_pos (by decide)])
  refine ⟨s, reached, route.hasNhop_iff.mpr rfl, route.hasType_iff.mpr (by decide), refused, ?_⟩
  rw [refused]
  intro same
  cases (Prod.mk.inj (Option.some.inj same)).2

/-! ## Inserting and then deleting -/

/-- With any answers to the delete: if the insert returns 0, the route has the next hop, and the delete takes
    this next hop from it and changes nothing else about the next hops of the routes. -/
def InsertDeleteAgree (env envDelete : RouteEnv) (pfx : NtbRibKey) (data : FibNhopEncapData) (ribType : RibType)
    (s : RouteState) : Prop :=
  ∃ s₁ ret, ntbRouteNhopInsert env pfx.vrfId pfx data ribType s = some (s₁, ret) ∧
    (ret = 0 → HasNhop pfx data.key s₁ ∧
      ∃ s₂, ntbRouteNhopDelete envDelete pfx.vrfId pfx data ribType s₁ = some (s₂, 0) ∧
        ∀ other key, HasNhop other key s₂ ↔ HasNhop other key s₁ ∧ ¬ (other = pfx ∧ key = data.key))

/-- The route has a TGRE next hop that differs only in its gateway, and space for another one. -/
def Shadowed (pfx : NtbRibKey) (data : FibNhopEncapData) (ribType : RibType) (s : RouteState) : Prop :=
  HasType pfx ribType s ∧ HasSpace pfx s ∧ data.tunnelInfo.type = .tgre ∧
    ∃ gateway, gateway ≠ data.gateway ∧ HasNhop pfx ⟨gateway, data.tunnelInfo⟩ s

theorem hasNhop_removed {pfx other : NtbRibKey} {key : NtbNhopHashKey} {s s' : RouteState} (accounted : Accounted s)
    (removed : Removed pfx s s') : HasNhop other key s' ↔ HasNhop other key s ∧ other ≠ pfx := by
  have accounted' := accounted.removed removed
  obtain ⟨id, fRes, a, listed, used, single, deleted, fibRes, rib, _⟩ := removed
  constructor
  · rintro ⟨id', fRes', b, fNhop, listed', used', member, held, same⟩
    rw [rib, Table.lookup_erase_eq_some] at listed'
    rw [fibRes, Table.lookup_erase_eq_some] at used'
    obtain ⟨old, before, recounted⟩ := nhopObjDelete_nhops accounted.counts deleted held
    rw [recounted] at same
    exact ⟨⟨id', fRes', b, old, listed'.2, used'.2, member, before, same⟩, listed'.1⟩
  · rintro ⟨⟨id', fRes', b, old, listed', used', member, before, same⟩, different⟩
    have otherSlot : id' ≠ id := by
      rintro rfl
      exact different (accounted.rib_injective other pfx id' listed' listed)
    have kept : s'.rib.lookup other = some id' := by rw [rib, Finmap.lookup_erase_ne different, listed']
    have slot : s'.fibRes.lookup id' = some fRes' := by rw [fibRes, Finmap.lookup_erase_ne otherSlot, used']
    -- the next hop is live in the new state too, with another count at most
    obtain ⟨_, c, fNhop, route⟩ := accounted'.singleRoute kept
    obtain rfl := Option.some.inj (slot.symm.trans route.used)
    obtain rfl : b = c := by rwa [route.single, List.mem_singleton] at member
    obtain ⟨_, before', recounted⟩ := nhopObjDelete_nhops accounted.counts deleted route.held
    obtain rfl := Option.some.inj (before.symm.trans before')
    exact ⟨id', fRes', b, fNhop, kept, slot, member, route.held, by rw [recounted]; exact same⟩

theorem delete_agrees {s : RouteState} (accounted : Accounted s) (env : RouteEnv) {pfx : NtbRibKey}
    {data : FibNhopEncapData} {ribType : RibType} (has : HasNhop pfx data.key s) (type : HasType pfx ribType s) :
    ∃ s', ntbRouteNhopDelete env pfx.vrfId pfx data ribType s = some (s', 0) ∧
      ∀ other key, HasNhop other key s' ↔ HasNhop other key s ∧ ¬ (other = pfx ∧ key = data.key) := by
  have listed := has
  obtain ⟨id, _, _, _, listed, _⟩ := listed
  obtain ⟨fRes, a, fNhop, route⟩ := accounted.singleRoute listed
  have same := route.hasNhop_iff.mp has
  have stored : s.store.hashTbl.lookup data.key = some a := by
    rw [← same]
    exact (accounted.counts.live a fNhop route.held).1
  have deletes : DeletesNhop pfx data ribType s :=
    ⟨id, fRes, a, listed, route.used, route.hasType_iff.mp type, stored,
      by rw [route.single]; exact List.mem_cons_self⟩
  rcases ntbRouteNhopDelete_cases env pfx data ribType accounted with ⟨no, _⟩ | ⟨_, s', result, removed⟩
  · exact (no deletes).elim
  · refine ⟨s', result, fun other key => ?_⟩
    rw [hasNhop_removed accounted removed]
    refine and_congr_right fun before => not_congr ⟨?_, And.left⟩
    -- it was the only next hop of the route
    rintro rfl
    exact ⟨rfl, (route.hasNhop_iff.mp before).symm.trans same⟩

theorem Inserted.hasNhop {env : RouteEnv} {pfx : NtbRibKey} {data : FibNhopEncapData} {ribType : RibType}
    {s s' : RouteState} (accounted : Accounted s) (inserted : Inserted env pfx data ribType s s') :
    HasNhop pfx data.key s' := by
  obtain ⟨_, id, a, oid, _, created, _, _, fibRes, rib, _⟩ := inserted
  rcases nhopObjCreate_outcome env.nhop pfx.vrfId data accounted.counts accounted.referenced with
    ⟨_, store, b, fNhop, created', held, key⟩ | ⟨_, _, _, _, _, failed⟩
  · obtain ⟨rfl, same⟩ := Prod.mk.inj (Option.some.inj (created.symm.trans created'))
    cases same
    exact ⟨id, _, a, fNhop, by rw [rib, Finmap.lookup_insert], by rw [fibRes, Finmap.lookup_insert], by simp, held,
      key⟩
  · cases created.symm.trans failed

theorem Inserted.hasType {env : RouteEnv} {pfx : NtbRibKey} {data : FibNhopEncapData} {ribType : RibType}
    {s s' : RouteState} (inserted : Inserted env pfx data ribType s s') (valid : ribType ≠ .max) :
    HasType pfx ribType s' := by
  obtain ⟨_, id, a, oid, _, _, _, _, fibRes, rib, _⟩ := inserted
  refine ⟨id, _, by rw [rib, Finmap.lookup_insert], by rw [fibRes, Finmap.lookup_insert], ?_⟩
  cases ribType with
  | default => simp [fibResSingle, fibResMdSet, fibResRtypeGet]
  | mroute => simp [fibResSingle, fibResMdSet, fibResRtypeGet, frfMroute]
  | max => exact absurd rfl valid

/-- The insert for a prefix that has a route: it finds the next hop there, or it does not return 0. -/
theorem SingleRoute.insert_cases {s : RouteState} (accounted : Accounted s) {pfx : NtbRibKey} {id : FibResId}
    {fRes : FibRes} {a : Addr} {fNhop : FibNhop} (route : SingleRoute s pfx id fRes a fNhop) (env : RouteEnv)
    (data : FibNhopEncapData) (ribType : RibType) :
    ((HasType pfx ribType s ∧ HasSpace pfx s ∧ fibNhopEqual fNhop data = true) ∧
      ntbRouteNhopInsert env pfx.vrfId pfx data ribType s = some (s, 0)) ∨
    (¬ (HasType pfx ribType s ∧ HasSpace pfx s ∧ fibNhopEqual fNhop data = true) ∧
      (ntbRouteNhopInsert env pfx.vrfId pfx data ribType s = none ∨
        ∃ s' ret, ntbRouteNhopInsert env pfx.vrfId pfx data ribType s = some (s', ret) ∧ ret < 0)) := by
  rw [route.hasType_iff, route.hasSpace_iff, route.insert_eq]
  by_cases type : fibResRtypeGet fRes = ribType
  case neg => exact .inr ⟨fun all => type all.1, .inr ⟨s, _, if_pos type, by decide⟩⟩
  rw [if_neg (not_not_intro type)]
  cases space : fibResMpathNospace fRes with
  | true => exact .inr ⟨fun all => Bool.noConfusion all.2.1, .inr ⟨s, _, rfl, by decide⟩⟩
  | false =>
    cases equal : fibNhopEqual fNhop data with
    | true => exact .inl ⟨⟨type, rfl, rfl⟩, rfl⟩
    | false =>
      refine .inr ⟨fun all => Bool.noConfusion all.2.2, ?_⟩
      rcases routeNhopInsertNew_present env data ribType accounted id route.single with
        ⟨_, overrun⟩ | ⟨_, s', ret, result, negative, _⟩
      · exact .inl overrun
      · exact .inr ⟨s', ret, result, negative⟩

/-- Of the next hops that `fib_nhop_equal` takes for the same, only those of TGRE may differ in the gateway. -/
theorem fibNhopEqual_iff {fNhop : FibNhop} {data : FibNhopEncapData} (different : fNhop.key ≠ data.key) :
    fibNhopEqual fNhop data = true ↔
      data.tunnelInfo.type = .tgre ∧ fNhop.gateway ≠ data.gateway ∧ fNhop.tunnelInfo = data.tunnelInfo := by
  have keys (gateway : fNhop.gateway = data.gateway) : fNhop.tunnelInfo ≠ data.tunnelInfo := by
    intro tunnelInfo
    exact different (by rw [FibNhop.key, FibNhopEncapData.key, gateway, tunnelInfo])
  unfold fibNhopEqual
  cases type : fNhop.tunnelInfo.type with
  | vxlan =>
    simp only [decide_eq_true_eq]
    refine iff_of_false (fun same => keys same.1 same.2) ?_
    rintro ⟨tgre, _, tunnelInfo⟩
    rw [← tunnelInfo, type] at tgre
    cases tgre
  | tgre =>
    simp only [decide_eq_true_eq]
    exact ⟨fun tunnelInfo => ⟨by rw [← tunnelInfo, type], fun gateway => keys gateway tunnelInfo, tunnelInfo⟩,
      fun all => all.2.2⟩
  | invalid =>
    refine iff_of_false Bool.noConfusion ?_
    rintro ⟨tgre, _, tunnelInfo⟩
    rw [← tunnelInfo, type] at tgre
    cases tgre
  | max =>
    refine iff_of_false Bool.noConfusion ?_
    rintro ⟨tgre, _, tunnelInfo⟩
    rw [← tunnelInfo, type] at tgre
    cases tgre

theorem SingleRoute.shadowed_iff {s : RouteState} {pfx : NtbRibKey} {id : FibResId} {fRes : FibRes} {a : Addr}
    {fNhop : FibNhop} (route : SingleRoute s pfx id fRes a fNhop) {data : FibNhopEncapData} {ribType : RibType} :
    Shadowed pfx data ribType s ↔
      (HasType pfx ribType s ∧ HasSpace pfx s ∧ fibNhopEqual fNhop data = true) ∧ fNhop.key ≠ data.key := by
  constructor
  · rintro ⟨type, space, tgre, gateway, otherGateway, has⟩
    have key := route.hasNhop_iff.mp has
    have different : fNhop.key ≠ data.key := by
      rw [key]
      exact fun same => otherGateway (NtbNhopHashKey.mk.inj same).1
    obtain ⟨rfl, tunnelInfo⟩ := NtbNhopHashKey.mk.inj key
    exact ⟨⟨type, space, (fibNhopEqual_iff different).mpr ⟨tgre, otherGateway, tunnelInfo⟩⟩, different⟩
  · rintro ⟨⟨type, space, equal⟩, different⟩
    obtain ⟨tgre, otherGateway, tunnelInfo⟩ := (fibNhopEqual_iff different).mp equal
    refine ⟨type, space, tgre, fNhop.gateway, otherGateway, route.hasNhop_iff.mpr ?_⟩
    rw [FibNhop.key, tunnelInfo]

/-- In every reachable state, insertion and deletion agree on a next hop exactly when the insert does not store
    past the end of `mpath[]` and the route has no TGRE next hop that shadows the new one. -/
theorem insertDeleteAgree_iff {calls : List RouteCall} {s : RouteState}
    (reached : run routeStep .initial calls = some s) (env envDelete : RouteEnv) (pfx : NtbRibKey)
    (data : FibNhopEncapData) {ribType : RibType} (valid : ribType ≠ .max) :
    InsertDeleteAgree env envDelete pfx data ribType s ↔
      ¬ Overruns env pfx data ribType s ∧ ¬ Shadowed pfx data ribType s := by
  have accounted := reachable_accounted reached
  have overruns_iff :
      Overruns env pfx data ribType s ↔ ntbRouteNhopInsert env pfx.vrfId pfx data ribType s = none := by
    rcases ntbRouteNhopInsert_cases env pfx data ribType accounted with
      ⟨overruns, undefined⟩ | ⟨fits, _, _, result, _⟩
    · exact iff_of_true overruns undefined
    · exact iff_of_false fits fun undefined => by rw [undefined] at result; cases result
  rw [overruns_iff]
  cases listed : s.rib.lookup pfx with
  | none =>
    obtain ⟨s', ret, result, outcome⟩ := routeNhopInsertNew_absent env data ribType accounted listed
    have inserts : ntbRouteNhopInsert env pfx.vrfId pfx data ribType s = some (s', ret) := by
      rw [ntbRouteNhopInsert, listed]
      exact result
    refine iff_of_true ⟨s', ret, inserts, fun zero => ?_⟩ ⟨by rw [inserts]; exact Option.some_ne_none _, ?_⟩
    · rcases outcome with ⟨_, negative, _⟩ | ⟨_, _, inserted⟩
      · omega
      · have has := inserted.hasNhop accounted
        exact ⟨has, delete_agrees (accounted.inserted inserted) envDelete has (inserted.hasType valid)⟩
    · rintro ⟨⟨_, _, present, _⟩, _⟩
      cases listed.symm.trans present
  | some id =>
    obtain ⟨fRes, a, fNhop, route⟩ := accounted.singleRoute listed
    rw [route.shadowed_iff]
    rcases route.insert_cases accounted env data ribType with ⟨found, inserts⟩ | ⟨notFound, undefined | negative⟩
    · -- 0 is returned: was the next hop that was found the one that was meant?
      constructor
      · rintro ⟨s₁, ret, result, agree⟩
        obtain ⟨rfl, rfl⟩ := Prod.mk.inj (Option.some.inj (inserts.symm.trans result))
        refine ⟨by rw [inserts]; exact Option.some_ne_none _, fun shadowed => shadowed.2 ?_⟩
        exact route.hasNhop_iff.mp (agree rfl).1
      · rintro ⟨_, unshadowed⟩
        have same : fNhop.key = data.key := Classical.byContradiction fun different => unshadowed ⟨found, different⟩
        have has := route.hasNhop_iff.mpr same
        exact ⟨s, 0, inserts, fun _ => ⟨has, delete_agrees accounted envDelete has found.1⟩⟩
    · refine iff_of_false ?_ fun all => all.1 undefined
      rintro ⟨_, _, result, _⟩
      cases undefined.symm.trans result
    · obtain ⟨s', ret, result, negative⟩ := negative
      refine iff_of_true ⟨s', ret, result, fun zero => by omega⟩ ⟨?_, fun shadowed => notFound shadowed.1⟩
      rw [result]
      exact Option.some_ne_none _

def tgreNhop (gateway : Ip4) : FibNhopEncapData := ⟨gateway, .tgre 2 0x0200a8c0 7 0x0800000a⟩

-- A multicast route with the gateway 10.1.1.1.
def tgreRun : List RouteCall := [.nhopInsert (.granted 1 5 6) (subnet24 1 7) (tgreNhop 0x0101010a) .mroute]

theorem tgreRun_agrees : ∃ s, run routeStep .initial tgreRun = some s ∧
    InsertDeleteAgree (.granted 2 7 8) (.granted 3 9 10) (subnet24 1 7) (tgreNhop 0x0101010a) .mroute s := by
  obtain ⟨s, reached, route⟩ := singleRoute_of_run tgreRun (subnet24 1 7) 1 (fibResSingle 1 1 .mroute) 1
    ⟨5, 1, 6, 0x0101010a, (tgreNhop 0x0101010a).tunnelInfo⟩ rfl (by decide +kernel)
  refine ⟨s, reached, (insertDeleteAgree_iff reached _ _ _ _ (by decide)).mpr ⟨?_, ?_⟩⟩
  · rintro ⟨⟨_, _, listed, used, _, _, _, different⟩, _, _⟩
    obtain rfl := Option.some.inj (route.listed.symm.trans listed)
    obtain rfl := Option.some.inj (route.used.symm.trans used)
    rw [route.mpathHas_eq] at different
    exact absurd different (by decide)
  · rw [route.shadowed_iff]
    exact fun shadowed => shadowed.2 rfl

/-- The gateway 10.1.1.2 with the same tunnel: the insert returns 0, and the route does not have it. -/
theorem tgre_gateway_lost : ∃ s, run routeStep .initial tgreRun = some s ∧
    ntbRouteNhopInsert (.granted 2 7 8) 1 (subnet24 1 7) (tgreNhop 0x0201010a) .mroute s = some (s, 0) ∧
    ¬ HasNhop (subnet24 1 7) (tgreNhop 0x0201010a).key s ∧
    ¬ InsertDeleteAgree (.granted 2 7 8) (.granted 3 9 10) (subnet24 1 7) (tgreNhop 0x0201010a) .mroute s := by
  obtain ⟨s, reached, route⟩ := singleRoute_of_run tgreRun (subnet24 1 7) 1 (fibResSingle 1 1 .mroute) 1
    ⟨5, 1, 6, 0x0101010a, (tgreNhop 0x0101010a).tunnelInfo⟩ rfl (by decide +kernel)
  have inserts : ntbRouteNhopInsert (.granted 2 7 8) 1 (subnet24 1 7) (tgreNhop 0x0201010a) .mroute s = some (s, 0) :=
    (route.insert_eq _ _ _).trans (by rw [if_neg (by decide), if_neg (by decide), if_pos (by decide)])
  have lost : ¬ HasNhop (subnet24 1 7) (tgreNhop 0x0201010a).key s := by
    rw [route.hasNhop_iff]
    decide
  refine ⟨s, reached, inserts, lost, ?_⟩
  rintro ⟨s₁, ret, result, agree⟩
  obtain ⟨rfl, rfl⟩ := Prod.mk.inj (Option.some.inj (inserts.symm.trans result))
  exact lost (agree rfl).1

end Tao.Agent
