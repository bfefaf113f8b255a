import Tao.Agent.RouteEffect

/-! # Route object accounting

Every route call keeps `Accounted`, so every state of a run satisfies
`RouteAccounting`: no leaked slot or next hop, no dangling pointer, exact counts. -/

namespace Tao.Agent

open Tao.Foundation

/-! ## The effects of the calls keep a state accounted -/

theorem RouteState.initial_accounted : Accounted .initial where
  rib_used := by intro pfx id listed; cases listed
  rib_injective := by intro pfx pfx' id listed; cases listed
  used_listed := by
    intro id fRes used
    rw [RouteState.initial, Table.lookup_insert_eq_some] at used
    rcases used with ⟨blackhole, _⟩ | ⟨_, used⟩
    · exact .inl blackhole
    · cases used
  blackhole := ⟨_, Finmap.lookup_insert _, rfl⟩
  counts := by
    refine ⟨?_, ?_, ?_⟩
    · intro a fNhop held; cases held
    · intro key a stored; cases stored
    · intro a positive
      have none : RouteState.initial.refs a = 0 := by
        rw [RouteState.refs, RouteState.initial, Table.total_insert_of_notMem _ Finmap.notMem_empty]
        rfl
      omega
  ribCnt := fun _ => rfl
  referenced := by intro key entry held; cases held

theorem Accounted.same {s s' : RouteState} (accounted : Accounted s) (same : s.Same s') : Accounted s' := by
  refine ⟨?_, ?_, ?_, ?_, ?_, ?_, same.store.neigh.referenced accounted.referenced⟩
  · rw [same.rib, same.fibRes]; exact accounted.rib_used
  · rw [same.rib]; exact accounted.rib_injective
  · rw [same.rib, same.fibRes]; exact accounted.used_listed
  · rw [same.fibRes]; exact accounted.blackhole
  · have refs : s'.refs = s.refs := by unfold RouteState.refs; rw [same.fibRes]
    rw [refs]
    exact same.store.counts accounted.counts
  · intro vrfId
    rw [same.ribCnt, RouteState.ribKeys, same.rib]
    exact accounted.ribCnt vrfId

theorem Accounted.inserted {env : RouteEnv} {pfx : NtbRibKey} {data : FibNhopEncapData} {ribType : RibType}
    {s s' : RouteState} (accounted : Accounted s) (inserted : Inserted env pfx data ribType s s') :
    Accounted s' := by
  obtain ⟨absent, id, a, oid, p, created, allocated, _, fibRes, rib, _, ribCnt⟩ := inserted
  have free := fibResIdAlloc_free allocated
  -- the allocated slot is none of the used ones
  have notUsed : ∀ {id' fRes}, s.fibRes.lookup id' = some fRes → id' ≠ id := by
    rintro id' fRes used rfl
    exact free (Finmap.mem_of_lookup_eq_some used)
  refine ⟨?_, ?_, ?_, ?_, ?_, ?_, nhopObjCreate_referenced accounted.counts accounted.referenced created⟩
  · intro other id' listed
    rw [rib, Table.lookup_insert_eq_some] at listed
    rw [fibRes]
    rcases listed with ⟨_, rfl⟩ | ⟨_, listed⟩
    · obtain ⟨fRes, held, _⟩ := accounted.blackhole
      exact ⟨(notUsed held).symm, _, a, Finmap.lookup_insert _, fibResSingle_mpath _ _ _⟩
    · obtain ⟨notBlackhole, fRes, b, used, single⟩ := accounted.rib_used other id' listed
      exact ⟨notBlackhole, fRes, b, by rw [Finmap.lookup_insert_of_ne _ (notUsed used), used], single⟩
  · intro first second id' atFirst atSecond
    rw [rib, Table.lookup_insert_eq_some] at atFirst atSecond
    have old : ∀ {other}, s.rib.lookup other = some id → False := by
      intro other listed
      obtain ⟨_, fRes, _, used, _⟩ := accounted.rib_used other id listed
      exact notUsed used rfl
    rcases atFirst with ⟨isFirst, rfl⟩ | ⟨_, atFirst⟩
    · rcases atSecond with ⟨isSecond, _⟩ | ⟨_, atSecond⟩
      · rw [isFirst, isSecond]
      · exact (old atSecond).elim
    · rcases atSecond with ⟨_, rfl⟩ | ⟨_, atSecond⟩
      · exact (old atFirst).elim
      · exact accounted.rib_injective first second id' atFirst atSecond
  · intro id' fRes used
    rw [fibRes, Table.lookup_insert_eq_some] at used
    rw [rib]
    rcases used with ⟨new, _⟩ | ⟨_, used⟩
    · exact .inr ⟨pfx, by rw [new, Finmap.lookup_insert]⟩
    · rcases accounted.used_listed id' fRes used with blackhole | ⟨other, listed⟩
      · exact .inl blackhole
      · have different : other ≠ pfx := by
          rintro rfl
          rw [absent] at listed; cases listed
        exact .inr ⟨other, by rw [Finmap.lookup_insert_of_ne _ different, listed]⟩
  · obtain ⟨fRes, held, empty⟩ := accounted.blackhole
    exact ⟨fRes, by rw [fibRes, Finmap.lookup_insert_of_ne _ (notUsed held), held], empty⟩
  · apply nhopObjCreate_counts accounted.counts accounted.referenced created
    intro b
    rw [RouteState.refs, fibRes, Table.total_insert_of_notMem _ free, fibResSingle_mpath,
      List.count_singleton, Nat.add_comm]
    by_cases same : b = a
    · simp [same, RouteState.refs]
    · simp [same, Ne.symm same, RouteState.refs]
  · intro vrfId
    rw [ribCnt, RouteState.ribKeys, rib, Table.total_insert_of_notMem _ (Finmap.lookup_eq_none.mp absent)]
    by_cases own : vrfId = pfx.vrfId
    · subst own
      rw [Function.update_self, accounted.ribCnt, if_pos rfl, RouteState.ribKeys]
      push_cast
      omega
    · rw [Function.update_of_ne own, accounted.ribCnt, if_neg (Ne.symm own), RouteState.ribKeys]
      push_cast
      omega

theorem Accounted.removed {pfx : NtbRibKey} {s s' : RouteState} (accounted : Accounted s)
    (removed : Removed pfx s s') : Accounted s' := by
  obtain ⟨id, fRes, a, listed, used, single, deleted, fibRes, rib, _, ribCnt⟩ := removed
  refine ⟨?_, ?_, ?_, ?_, ?_, ?_, nhopObjDelete_referenced accounted.counts accounted.referenced deleted⟩
  · intro other id' kept
    rw [rib, Table.lookup_erase_eq_some] at kept
    obtain ⟨different, kept⟩ := kept
    obtain ⟨notBlackhole, fRes', b, used', single'⟩ := accounted.rib_used other id' kept
    -- two prefixes never share a slot, so the other route keeps its own
    have otherSlot : id' ≠ id := by
      rintro rfl
      exact different (accounted.rib_injective other pfx id' kept listed)
    exact ⟨notBlackhole, fRes', b, by rw [fibRes, Finmap.lookup_erase_ne otherSlot, used'], single'⟩
  · intro first second id' atFirst atSecond
    rw [rib, Table.lookup_erase_eq_some] at atFirst atSecond
    exact accounted.rib_injective first second id' atFirst.2 atSecond.2
  · intro id' fRes' used'
    rw [fibRes, Table.lookup_erase_eq_some] at used'
    obtain ⟨otherSlot, used'⟩ := used'
    rcases accounted.used_listed id' fRes' used' with blackhole | ⟨other, listed'⟩
    · exact .inl blackhole
    · have different : other ≠ pfx := by
        rintro rfl
        exact otherSlot (Option.some.inj (listed'.symm.trans listed))
      exact .inr ⟨other, by rw [rib, Finmap.lookup_erase_ne different, listed']⟩
  · obtain ⟨fResBh, held, empty⟩ := accounted.blackhole
    have otherSlot : fResBlackhole ≠ id := (accounted.rib_used pfx id listed).1.symm
    exact ⟨fResBh, by rw [fibRes, Finmap.lookup_erase_ne otherSlot, held], empty⟩
  · obtain ⟨store, deleted', counts⟩ :=
      nhopObjDelete_counts pfx.vrfId accounted.counts (refs_of_erase used single)
    obtain rfl := Option.some.inj (deleted'.symm.trans deleted)
    have refs : s'.refs = fun b => Table.total (fun _ fRes => fRes.mpath.count b) (s.fibRes.erase id) := by
      unfold RouteState.refs; rw [fibRes]
    rw [refs]
    exact counts
  · intro vrfId
    have dropped := Table.total_erase (fun (pfx : NtbRibKey) _ => if pfx.vrfId = vrfId then 1 else 0) listed
    rw [ribCnt, RouteState.ribKeys, rib]
    by_cases own : vrfId = pfx.vrfId
    · subst own
      rw [if_pos rfl] at dropped
      rw [Function.update_self, accounted.ribCnt, RouteState.ribKeys]
      omega
    · rw [if_neg (Ne.symm own)] at dropped
      rw [Function.update_of_ne own, accounted.ribCnt, RouteState.ribKeys]
      omega

theorem Accounted.neighAddStatic {s : RouteState} (accounted : Accounted s) (env : NeighEnv)
    (vrfId : VrfId) (gw : Ip4) (hwAddr : EtherAddr) : Accounted { s with
      store := { s.store with neigh := (olNeighAddStatic env vrfId gw hwAddr s.store.neigh).1 } } where
  rib_used := accounted.rib_used
  rib_injective := accounted.rib_injective
  used_listed := accounted.used_listed
  blackhole := accounted.blackhole
  counts := ⟨accounted.counts.live, accounted.counts.stored, accounted.counts.referenced⟩
  ribCnt := accounted.ribCnt
  referenced := olNeighAddStatic_referenced env vrfId gw hwAddr accounted.referenced

/-! ## Steps and runs -/

/-- The call gives no route more next hops than `mpath[]` has slots. -/
def RouteCall.Fits (s : RouteState) : RouteCall → Prop
  | .nhopInsert env pfx data ribType => ¬ Overruns env pfx data ribType s
  | _ => True

/-- Only an insert can fail to fit. -/
theorem RouteCall.fits_of_insert {s : RouteState} {call : RouteCall}
    (insert : ∀ env pfx data ribType, call = .nhopInsert env pfx data ribType →
      ¬ Overruns env pfx data ribType s) : call.Fits s := by
  cases call with
  | nhopInsert env pfx data ribType => exact insert env pfx data ribType rfl
  | nhopDelete => trivial
  | delete => trivial
  | cleanup => trivial
  | neighAddStatic => trivial

/-- `ntb_route_cleanup` keeps what the removal of a route keeps. -/
theorem ntbRouteCleanup_invariant (inv : RouteState → Prop) (iterate : RteHashIterate) (vrfId : VrfId)
    (removed : ∀ s s' pfx, Accounted s → inv s → Removed pfx s s' → inv s')
    {s : RouteState} (accounted : Accounted s) (holds : inv s) :
    ∃ s', ntbRouteCleanup iterate vrfId s = some s' ∧ Accounted s' ∧ inv s' := by
  refine foldlM_invariant (fun s => Accounted s ∧ inv s) (fun s pfx _ both => ?_) ⟨accounted, holds⟩
  by_cases own : vrfId = pfx.vrfId
  · -- the prefix may have gone with an earlier step of the loop
    rw [if_pos own, own]
    rcases ntbRouteDelete_cases pfx both.1 with ⟨_, result⟩ | ⟨s', result, away⟩
    · exact ⟨s, by rw [result]; rfl, both⟩
    · exact ⟨s', by rw [result]; rfl, both.1.removed away, removed s s' pfx both.1 both.2 away⟩
  · exact ⟨s, if_neg own, both⟩

/-- The step rule: a call that fits is defined, keeps the state accounted, and keeps every
    property that its effects keep. -/
theorem routeStep_invariant (inv : RouteState → Prop) {s : RouteState} (call : RouteCall)
    (accounted : Accounted s) (fits : call.Fits s) (holds : inv s)
    (same : ∀ s', s.Same s' → inv s')
    (inserted : ∀ env pfx data ribType s', call = .nhopInsert env pfx data ribType →
      Enters env pfx data s → Inserted env pfx data ribType s s' → inv s')
    (removed : ∀ s s' pfx, Accounted s → inv s → Removed pfx s s' → inv s')
    (neighbour : ∀ env vrfId gw hwAddr, call = .neighAddStatic env vrfId gw hwAddr → inv { s with
      store := { s.store with neigh := (olNeighAddStatic env vrfId gw hwAddr s.store.neigh).1 } }) :
    ∃ s', routeStep s call = some s' ∧ Accounted s' ∧ inv s' := by
  cases call with
  | nhopInsert env pfx data ribType =>
    rcases ntbRouteNhopInsert_cases env pfx data ribType accounted with
      ⟨overruns, _⟩ | ⟨_, s', ret, result, ⟨_, _, kept⟩ | ⟨_, _, rfl⟩ | ⟨enters, _, new⟩⟩
    · exact (fits overruns).elim
    · exact ⟨s', by simp only [routeStep, result, Option.map_some], accounted.same kept, same s' kept⟩
    · exact ⟨s', by simp only [routeStep, result, Option.map_some], accounted, holds⟩
    · exact ⟨s', by simp only [routeStep, result, Option.map_some], accounted.inserted new,
        inserted env pfx data ribType s' rfl enters new⟩
  | nhopDelete env pfx data ribType =>
    rcases ntbRouteNhopDelete_cases env pfx data ribType accounted with ⟨_, ret, result⟩ | ⟨_, s', result, away⟩
    · exact ⟨s, by simp only [routeStep, result, Option.map_some], accounted, holds⟩
    · exact ⟨s', by simp only [routeStep, result, Option.map_some], accounted.removed away,
        removed s s' pfx accounted holds away⟩
  | delete pfx =>
    rcases ntbRouteDelete_cases pfx accounted with ⟨_, result⟩ | ⟨s', result, away⟩
    · exact ⟨s, by simp only [routeStep, result, Option.map_some], accounted, holds⟩
    · exact ⟨s', by simp only [routeStep, result, Option.map_some], accounted.removed away,
        removed s s' pfx accounted holds away⟩
  | cleanup iterate vrfId => exact ntbRouteCleanup_invariant inv iterate vrfId removed accounted holds
  | neighAddStatic env vrfId gw hwAddr =>
    exact ⟨_, rfl, accounted.neighAddStatic env vrfId gw hwAddr, neighbour env vrfId gw hwAddr rfl⟩

/-- What the tables say about each other between any two calls. -/
structure RouteAccounting (s : RouteState) : Prop where
  -- Distinct prefixes have distinct slots, none of them the blackhole's.
  distinct : ∀ pfx pfx' id, s.rib.lookup pfx = some id → s.rib.lookup pfx' = some id → pfx = pfx'
  reserved : ∀ pfx, s.rib.lookup pfx ≠ some fResBlackhole
  -- The used slots are those of the prefixes and the blackhole's.
  used : ∀ id, id ∈ s.fibRes ↔ id = fResBlackhole ∨ ∃ pfx, s.rib.lookup pfx = some id
  -- A route has next hops, and they are live and stored under their own key.
  mpath : ∀ pfx id fRes, s.rib.lookup pfx = some id → s.fibRes.lookup id = some fRes →
    1 ≤ fRes.mpathCnt ∧ ∀ a ∈ fRes.mpath, ∃ fNhop, s.store.nhops.lookup a = some fNhop ∧
      s.store.hashTbl.lookup ⟨fNhop.gateway, fNhop.tunnelInfo⟩ = some a
  -- A reference count is the number of `mpath` slots that point at the next hop.
  refCount : ∀ a fNhop, s.store.nhops.lookup a = some fNhop →
    fNhop.refCount = s.refs a ∧ 1 ≤ fNhop.refCount
  -- `g_nhop_hash_tbl` holds no pointer to a freed next hop.
  stored : ∀ key a, s.store.hashTbl.lookup key = some a → a ∈ s.store.nhops
  -- `rib_cnt` is the number of rib keys of the VRF.
  ribCnt : ∀ vrfId, s.ribCnt vrfId = s.ribKeys vrfId

theorem Accounted.routeAccounting {s : RouteState} (accounted : Accounted s) : RouteAccounting s where
  distinct := accounted.rib_injective
  reserved := fun pfx listed => (accounted.rib_used pfx _ listed).1 rfl
  used := by
    intro id
    constructor
    · intro present
      obtain ⟨fRes, used⟩ := Finmap.mem_iff.mp present
      exact accounted.used_listed id fRes used
    · rintro (rfl | ⟨pfx, listed⟩)
      · obtain ⟨fRes, used, _⟩ := accounted.blackhole
        exact Finmap.mem_of_lookup_eq_some used
      · obtain ⟨_, fRes, _, used, _⟩ := accounted.rib_used pfx id listed
        exact Finmap.mem_of_lookup_eq_some used
  mpath := by
    intro pfx id fRes listed used
    obtain ⟨_, fRes', a, used', single⟩ := accounted.rib_used pfx id listed
    obtain rfl := Option.some.inj (used.symm.trans used')
    obtain ⟨fNhop, held⟩ := accounted.nhop_live used single
    rw [FibRes.mpathCnt, single]
    refine ⟨Nat.le_refl 1, fun b member => ?_⟩
    obtain rfl := List.mem_singleton.mp member
    exact ⟨fNhop, held, (accounted.counts.live b fNhop held).1⟩
  refCount := by
    intro a fNhop held
    obtain ⟨_, count, positive⟩ := accounted.counts.live a fNhop held
    exact ⟨count, by omega⟩
  stored := by
    intro key a held
    obtain ⟨fNhop, live, _⟩ := accounted.counts.stored key a held
    exact Finmap.mem_of_lookup_eq_some live
  ribCnt := accounted.ribCnt

theorem routeStep_accounted {s : RouteState} (call : RouteCall) (accounted : Accounted s) (fits : call.Fits s) :
    ∃ s', routeStep s call = some s' ∧ Accounted s' := by
  obtain ⟨s', stepped, kept, _⟩ := routeStep_invariant (fun _ => True) call accounted fits trivial
    (fun _ _ => trivial) (fun _ _ _ _ _ _ _ _ => trivial) (fun _ _ _ _ _ _ => trivial)
    (fun _ _ _ _ _ => trivial)
  exact ⟨s', stepped, kept⟩

/-- Every run whose inserts fit `mpath[]` is defined, and every state of it is accounted. -/
theorem route_accounting (calls : List RouteCall)
    (fits : Guarded routeStep (fun s call => call.Fits s) .initial calls) :
    Always routeStep RouteAccounting .initial calls :=
  (fits.always Accounted (fun _ call accounted fits => routeStep_accounted call accounted fits)
    RouteState.initial_accounted).imp fun _ accounted => accounted.routeAccounting

theorem fits_of_defined {s s' : RouteState} {call : RouteCall} (accounted : Accounted s)
    (stepped : routeStep s call = some s') : call.Fits s := by
  refine RouteCall.fits_of_insert ?_
  rintro env pfx data ribType rfl overruns
  rcases ntbRouteNhopInsert_cases env pfx data ribType accounted with ⟨_, undefined⟩ | ⟨fits, _⟩
  · simp only [routeStep, undefined, Option.map_none, reduceCtorEq] at stepped
  · exact fits overruns

theorem accounted_of_defined {s s' : RouteState} {call : RouteCall} (accounted : Accounted s)
    (stepped : routeStep s call = some s') : Accounted s' := by
  obtain ⟨next, stepped', kept⟩ := routeStep_accounted call accounted (fits_of_defined accounted stepped)
  obtain rfl := Option.some.inj (stepped.symm.trans stepped')
  exact kept

theorem reachable_accounted {calls : List RouteCall} {s : RouteState}
    (reached : run routeStep .initial calls = some s) : Accounted s :=
  run_invariant (fun _ _ _ => accounted_of_defined) RouteState.initial_accounted reached

/-! ### A run with a shared next hop -/

def RouteEnv.granted (a : Addr) (nhOid neighOid : Oid) : RouteEnv :=
  ⟨⟨some a, true, .ok nhOid, ⟨true, true, .ok neighOid⟩⟩, true, true⟩

/-- A prefix of a VRF, `10.0.<net>.0/24`. -/
def subnet24 (vrfId : VrfId) (net : BitVec 8) : NtbRibKey := ⟨vrfId, 2, 24, 0x00#8 ++ net ++ 0x000a#16⟩

/-- The VXLAN next hop with gateway 10.1.1.1. -/
def vxlanNhop : FibNhopEncapData := ⟨0x0101010a, .vxlan 2 0x0200a8c0 0x0100a8c0 100 0⟩

def insertVxlanNhop (vrfId : VrfId) : RouteCall :=
  .nhopInsert (.granted vrfId 5 6) (subnet24 vrfId 7) vxlanNhop .default

def sharedNhopRun : List RouteCall := [insertVxlanNhop 1, insertVxlanNhop 2, .delete (subnet24 1 7)]

theorem sharedNhopRun_accounted : Always routeStep RouteAccounting .initial sharedNhopRun := by
  refine route_accounting sharedNhopRun ⟨?_, fun s stepped => ⟨?_, fun _ _ => ⟨trivial, fun _ _ => trivial⟩⟩⟩
  · rintro ⟨⟨id, _, listed, _⟩, _, _⟩
    cases listed
  · rintro ⟨⟨id, _, listed, _⟩, _, _⟩
    have absent : (routeStep .initial (insertVxlanNhop 1)).map (fun s => s.rib.lookup (subnet24 2 7)) =
        some none := by decide +kernel
    rw [stepped, Option.map_some, listed] at absent
    cases absent

end Tao.Agent
