import Tao.Agent.Route

/-! # What the route calls do

In an accounted state a route call leaves the tables alone, inserts one route, or
removes one route (`ntb_route_cleanup` removes several, one after the other).
Every invariant of the routing state is derived from these cases. -/

namespace Tao.Agent

open Tao.Foundation

/-! ## Accounted states -/

/-- The number of `mpath` slots in use that point at `a`. -/
def RouteState.refs (s : RouteState) (a : Addr) : Nat :=
  Table.total (fun _ fRes => fRes.mpath.count a) s.fibRes

def RouteState.ribKeys (s : RouteState) (vrfId : VrfId) : Nat :=
  Table.total (fun pfx _ => if pfx.vrfId = vrfId then 1 else 0) s.rib

/-- Every route has its own result with one next hop, all other slots but the blackhole are free,
    and all counts are right. -/
structure Accounted (s : RouteState) : Prop where
  rib_used : ∀ pfx id, s.rib.lookup pfx = some id →
    id ≠ fResBlackhole ∧ ∃ fRes a, s.fibRes.lookup id = some fRes ∧ fRes.mpath = [a]
  rib_injective : ∀ pfx pfx' id, s.rib.lookup pfx = some id → s.rib.lookup pfx' = some id → pfx = pfx'
  used_listed : ∀ id fRes, s.fibRes.lookup id = some fRes →
    id = fResBlackhole ∨ ∃ pfx, s.rib.lookup pfx = some id
  blackhole : ∃ fRes, s.fibRes.lookup fResBlackhole = some fRes ∧ fRes.mpath = []
  counts : s.store.Counts s.refs
  ribCnt : ∀ vrfId, s.ribCnt vrfId = s.ribKeys vrfId
  referenced : s.store.neigh.Referenced

structure RouteState.Same (s s' : RouteState) : Prop where
  rib : s'.rib = s.rib
  fib : s'.fib = s.fib
  ribCnt : s'.ribCnt = s.ribCnt
  fibRes : s'.fibRes = s.fibRes
  store : s.store.Same s'.store

def fibResSingle (oid : Oid) (a : Addr) (ribType : RibType) : FibRes :=
  fibResMdSet ⟨oid, 0, routeMaxEcmp, [a], Nat.le_refl 1⟩ ribType

/-- A new route: the next hop is created or shared, a free slot points at it, and the prefix is
    entered in the RIB and the FIB. -/
structure Inserted (env : RouteEnv) (pfx : NtbRibKey) (data : FibNhopEncapData) (ribType : RibType)
    (s s' : RouteState) : Prop where
  absent : s.rib.lookup pfx = none
  result : ∃ id a oid p,
    nhopObjCreate env.nhop pfx.vrfId data s.store = some (s'.store, .ok a) ∧
    fibResIdAlloc s.fibRes = some id ∧ pfx.fibPrefix = some p ∧
    s'.fibRes = s.fibRes.insert id (fibResSingle oid a ribType) ∧ s'.rib = s.rib.insert pfx id ∧
    s'.fib = Function.update s.fib pfx.vrfId ((s.fib pfx.vrfId).insert p id) ∧
    s'.ribCnt = Function.update s.ribCnt pfx.vrfId (s.ribCnt pfx.vrfId + 1)

/-- A route goes away with its slot and its reference to the next hop. -/
structure Removed (pfx : NtbRibKey) (s s' : RouteState) : Prop where
  result : ∃ id fRes a, s.rib.lookup pfx = some id ∧ s.fibRes.lookup id = some fRes ∧ fRes.mpath = [a] ∧
    nhopObjDelete pfx.vrfId a s.store = some s'.store ∧
    s'.fibRes = s.fibRes.erase id ∧ s'.rib = s.rib.erase pfx ∧
    s'.fib = Function.update s.fib pfx.vrfId ((rteFibDelete (s.fib pfx.vrfId) (rteBeToCpu32 pfx.prefix4)
      pfx.prefixlen.toNat).getD (s.fib pfx.vrfId)) ∧
    s'.ribCnt = Function.update s.ribCnt pfx.vrfId (s.ribCnt pfx.vrfId - 1)

theorem RouteState.Same.refl (s : RouteState) : s.Same s := ⟨rfl, rfl, rfl, rfl, .refl _⟩

theorem Accounted.nhop_live {s : RouteState} (accounted : Accounted s) {id : FibResId} {fRes : FibRes}
    {a : Addr} (used : s.fibRes.lookup id = some fRes) (single : fRes.mpath = [a]) :
    ∃ fNhop, s.store.nhops.lookup a = some fNhop := by
  apply accounted.counts.referenced
  have counted := Table.weight_le_total (fun _ fRes => fRes.mpath.count a) used
  rwa [single, List.count_singleton_self] at counted

/-! ## Results -/

@[simp] theorem fibResMdSet_mpath (fRes : FibRes) (ribType : RibType) :
    (fibResMdSet fRes ribType).mpath = fRes.mpath := by
  cases ribType <;> rfl

@[simp] theorem fibResSingle_mpath (oid : Oid) (a : Addr) (ribType : RibType) :
    (fibResSingle oid a ribType).mpath = [a] := fibResMdSet_mpath _ _

theorem fibResIdAlloc_free {fibRes : Table FibResId FibRes} {id : FibResId}
    (allocated : fibResIdAlloc fibRes = some id) : id ∉ fibRes := by
  have free := (scan_eq_some.mp allocated).2.2.1
  simpa using free

theorem foldlM_ribResNhopCtor_single (a : Addr) :
    [a].foldlM ribResNhopCtor fibResReset = some ⟨0, 0, routeMaxEcmp, [a], Nat.le_refl 1⟩ := rfl

/-- A second next hop is stored past the end of `mpath[]`. -/
theorem foldlM_ribResNhopCtor_pair (a b : Addr) : [a, b].foldlM ribResNhopCtor fibResReset = none := rfl

theorem fibResObjCreate_single {nhops : Table Addr FibNhop} {a : Addr} {fNhop : FibNhop}
    (held : nhops.lookup a = some fNhop) (ribType : RibType) (fibRes : Table FibResId FibRes) :
    (fibResIdAlloc fibRes = none ∧
      fibResObjCreate nhops [a] none ribType fibRes = some (fibRes, .error ntbRouteResultNospace)) ∨
    ∃ id oid, fibResIdAlloc fibRes = some id ∧ fibResObjCreate nhops [a] none ribType fibRes =
      some (fibRes.insert id (fibResSingle oid a ribType), .ok id) := by
  unfold fibResObjCreate
  cases allocated : fibResIdAlloc fibRes with
  | none => exact .inl ⟨rfl, rfl⟩
  | some id =>
    refine .inr ?_
    rw [foldlM_ribResNhopCtor_single]
    cases ribType with
    | default => exact ⟨id, fNhop.nhOid, rfl, by simp [fibResOid, held, fibResSingle]⟩
    | mroute => exact ⟨id, 1, rfl, rfl⟩
    | max => exact ⟨id, 1, rfl, rfl⟩

theorem fibResObjCreate_pair (nhops : Table Addr FibNhop) (a b : Addr) (fResOld : Option FibRes)
    (ribType : RibType) (fibRes : Table FibResId FibRes) :
    (fibResIdAlloc fibRes = none ∧
      fibResObjCreate nhops [a, b] fResOld ribType fibRes = some (fibRes, .error ntbRouteResultNospace)) ∨
    (fibResIdAlloc fibRes ≠ none ∧ fibResObjCreate nhops [a, b] fResOld ribType fibRes = none) := by
  unfold fibResObjCreate
  cases allocated : fibResIdAlloc fibRes with
  | none => exact .inl ⟨rfl, rfl⟩
  | some id => exact .inr ⟨by simp, by rw [foldlM_ribResNhopCtor_pair]⟩

theorem rtPrefixTypeGet_live {s : RouteState} {id : FibResId} {fRes : FibRes} {a : Addr} {fNhop : FibNhop}
    (used : s.fibRes.lookup id = some fRes) (single : fRes.mpath = [a])
    (held : s.store.nhops.lookup a = some fNhop) (pfx : NtbRibKey) :
    ∃ rtPtype, rtPrefixTypeGet s pfx id = some rtPtype := by
  simp only [rtPrefixTypeGet, used, single, held]
  exact ⟨_, rfl⟩

def PrefixTaken (env : RouteEnv) (pfx : NtbRibKey) : Prop :=
  env.ribRoom = true ∧ env.fibAccepts = true ∧ pfx.fibPrefix ≠ none

theorem rtPrefixObjUpdate_new (s : RouteState) {id : FibResId} {fRes : FibRes} {a : Addr} {fNhop : FibNhop}
    (used : s.fibRes.lookup id = some fRes) (single : fRes.mpath = [a])
    (held : s.store.nhops.lookup a = some fNhop) {pfx : NtbRibKey} (absent : s.rib.lookup pfx = none)
    (env : RouteEnv) (vrfId : VrfId) :
    (¬ PrefixTaken env pfx ∧ rtPrefixObjUpdate env vrfId pfx none id s = some (s, ntbRoutePrefixNospace)) ∨
    (PrefixTaken env pfx ∧
      ∃ p, pfx.fibPrefix = some p ∧ rtPrefixObjUpdate env vrfId pfx none id s = some ({ s with
        rib := s.rib.insert pfx id
        fib := Function.update s.fib vrfId ((s.fib vrfId).insert p id)
        ribCnt := Function.update s.ribCnt vrfId (s.ribCnt vrfId + 1) }, 0)) := by
  unfold PrefixTaken
  obtain ⟨rtPtypeNew, typed⟩ := rtPrefixTypeGet_live used single held pfx
  have notListed := Finmap.lookup_eq_none.mp absent
  have restored := Table.erase_insert_of_notMem id notListed
  cases room : env.ribRoom with
  | false =>
    have full : Table.add false s.rib pfx id = none := Table.add_none.mpr ⟨notListed, rfl⟩
    exact .inl ⟨by simp, by simp only [rtPrefixObjUpdate, rtPtype, typed, room, full]⟩
  | true =>
    cases masked : pfx.fibPrefix with
    | none =>
      unfold NtbRibKey.fibPrefix at masked
      refine .inl ⟨by simp, ?_⟩
      simp only [rtPrefixObjUpdate, rtPtype, typed, room, Table.add_of_room, rteFibAdd, masked, restored]
    | some p =>
      have masked' := masked
      unfold NtbRibKey.fibPrefix at masked'
      cases accepts : env.fibAccepts with
      | false =>
        refine .inl ⟨by simp, ?_⟩
        simp only [rtPrefixObjUpdate, rtPtype, typed, room, Table.add_of_room, rteFibAdd, masked', accepts,
          Bool.false_eq_true, if_false, restored]
      | true =>
        refine .inr ⟨by simp, p, rfl, ?_⟩
        simp only [rtPrefixObjUpdate, rtPtype, typed, room, Table.add_of_room, rteFibAdd, masked', accepts,
          if_true]

/-! ## Inserting -/

def NhopObtainable (env : NhopEnv) (vrfId : VrfId) (data : FibNhopEncapData) (s : NhopStore) : Prop :=
  data.key ∈ s.hashTbl ∨ ∃ a, env.Allocates vrfId data.gateway s a

theorem nhopObjCreate_outcome (env : NhopEnv) (vrfId : VrfId) (data : FibNhopEncapData) {s : NhopStore}
    {refs : Addr → Nat} (counts : s.Counts refs) (referenced : s.neigh.Referenced) :
    (NhopObtainable env vrfId data s ∧ ∃ s' a fNhop, nhopObjCreate env vrfId data s = some (s', .ok a) ∧
      s'.nhops.lookup a = some fNhop ∧ fNhop.key = data.key) ∨
    (¬ NhopObtainable env vrfId data s ∧
      ∃ s' code, code < 0 ∧ s.Same s' ∧ nhopObjCreate env vrfId data s = some (s', .error code)) := by
  rcases nhopObjCreate_cases env vrfId data counts referenced with
    ⟨a, fNhop, stored, _, key, result⟩ | ⟨_, a, _, _, _, allocates, _, _, result⟩ |
      ⟨absent, starved, s', code, negative, same, result⟩
  · exact .inl ⟨.inl (Finmap.mem_of_lookup_eq_some stored), _, a, _, result, Finmap.lookup_insert _, key⟩
  · exact .inl ⟨.inr ⟨a, allocates⟩, _, a, _, result, Finmap.lookup_insert _, rfl⟩
  · refine .inr ⟨?_, s', code, negative, same, result⟩
    rintro (present | allocates)
    · exact Finmap.lookup_eq_none.mp absent present
    · exact starved allocates

/-- Dropping the new next hop again after a later failure. -/
theorem nhopDelete_rollback {env : NhopEnv} {vrfId : VrfId} {data : FibNhopEncapData} {s : RouteState}
    (accounted : Accounted s) {store : NhopStore} {a : Addr}
    (created : nhopObjCreate env vrfId data s.store = some (store, .ok a)) :
    ∃ s', RouteState.nhopDelete vrfId a { s with store := store } = some s' ∧ s.Same s' := by
  obtain ⟨restored, deleted, same⟩ :=
    nhopObjDelete_nhopObjCreate accounted.counts accounted.referenced created
  exact ⟨{ s with store := restored }, by simp only [RouteState.nhopDelete, deleted, Option.map_some],
    rfl, rfl, rfl, rfl, same⟩

/-- When a new prefix is entered: next hop, slot and both tables are to be had. -/
structure Enters (env : RouteEnv) (pfx : NtbRibKey) (data : FibNhopEncapData) (s : RouteState) : Prop where
  absent : s.rib.lookup pfx = none
  obtainable : NhopObtainable env.nhop pfx.vrfId data s.store
  free : fibResIdAlloc s.fibRes ≠ none
  taken : PrefixTaken env pfx

/-- Inserting a new prefix fails and leaves everything as it was, or inserts the route. -/
theorem routeNhopInsertNew_absent (env : RouteEnv) {pfx : NtbRibKey} (data : FibNhopEncapData)
    (ribType : RibType) {s : RouteState} (accounted : Accounted s) (absent : s.rib.lookup pfx = none) :
    ∃ s' ret, routeNhopInsertNew env pfx.vrfId pfx data ribType none s = some (s', ret) ∧
      (¬ Enters env pfx data s ∧ ret < 0 ∧ s.Same s' ∨
        Enters env pfx data s ∧ ret = 0 ∧ Inserted env pfx data ribType s s') := by
  rcases nhopObjCreate_outcome env.nhop pfx.vrfId data accounted.counts accounted.referenced with
    ⟨obtainable, store, a, fNhop, created, held, _⟩ | ⟨starved, store, code, negative, same, failed⟩
  · obtain ⟨restored, undone, same⟩ := nhopDelete_rollback accounted created
    rcases fibResObjCreate_single held ribType s.fibRes with ⟨noSlot, full⟩ | ⟨id, oid, allocated, slot⟩
    · -- rollback2: only the next hop is taken back
      refine ⟨restored, ntbRouteResultNospace, ?_, .inl ⟨fun enters => enters.free noSlot, by decide, same⟩⟩
      simp only [routeNhopInsertNew, created, Option.elim_none, List.nil_append, Option.map_none, full,
        undone, Option.map_some]
    · have used : (s.fibRes.insert id (fibResSingle oid a ribType)).lookup id = some _ :=
        Finmap.lookup_insert _
      have freed : (s.fibRes.insert id (fibResSingle oid a ribType)).erase id = s.fibRes :=
        Table.erase_insert_of_notMem _ (fibResIdAlloc_free allocated)
      rcases rtPrefixObjUpdate_new { s with
          store := store, fibRes := s.fibRes.insert id (fibResSingle oid a ribType) }
          used (fibResSingle_mpath _ _ _) held absent env pfx.vrfId with
        ⟨untaken, refused⟩ | ⟨taken, p, masked, entered⟩
      · -- rollback1: the slot is freed again, then the next hop is taken back
        refine ⟨restored, ntbRoutePrefixNospace, ?_, .inl ⟨fun enters => untaken enters.taken, by decide, same⟩⟩
        simp only [routeNhopInsertNew, created, Option.elim_none, List.nil_append, Option.map_none, slot,
          refused, show ntbRoutePrefixNospace < 0 by decide, if_true, fibResObjDelete, freed, undone,
          Option.map_some]
      · refine ⟨{
            rib := s.rib.insert pfx id
            fib := Function.update s.fib pfx.vrfId ((s.fib pfx.vrfId).insert p id)
            ribCnt := Function.update s.ribCnt pfx.vrfId (s.ribCnt pfx.vrfId + 1)
            fibRes := s.fibRes.insert id (fibResSingle oid a ribType)
            store := store }, 0, ?_,
          .inr ⟨⟨absent, obtainable, by rw [allocated]; exact Option.some_ne_none id, taken⟩, rfl,
            absent, id, a, oid, p, created, allocated, masked, rfl, rfl, rfl, rfl⟩⟩
        simp only [routeNhopInsertNew, created, Option.elim_none, List.nil_append, Option.map_none, slot,
          entered, lt_irrefl, if_false]
  · refine ⟨{ s with store := store }, code, ?_,
      .inl ⟨fun enters => starved enters.obtainable, negative, rfl, rfl, rfl, rfl, same⟩⟩
    simp only [routeNhopInsertNew, failed]

/-- Inserting a second next hop for a prefix fails and leaves everything as it was, or stores past
    the end of `mpath[]`. -/
theorem routeNhopInsertNew_present (env : RouteEnv) {pfx : NtbRibKey} (data : FibNhopEncapData)
    (ribType : RibType) {s : RouteState} (accounted : Accounted s) (id : FibResId) {fRes : FibRes}
    {b : Addr} (single : fRes.mpath = [b]) :
    ((NhopObtainable env.nhop pfx.vrfId data s.store ∧ fibResIdAlloc s.fibRes ≠ none) ∧
      routeNhopInsertNew env pfx.vrfId pfx data ribType (some (id, fRes)) s = none) ∨
    (¬ (NhopObtainable env.nhop pfx.vrfId data s.store ∧ fibResIdAlloc s.fibRes ≠ none) ∧
      ∃ s' ret, routeNhopInsertNew env pfx.vrfId pfx data ribType (some (id, fRes)) s = some (s', ret) ∧
        ret < 0 ∧ s.Same s') := by
  rcases nhopObjCreate_outcome env.nhop pfx.vrfId data accounted.counts accounted.referenced with
    ⟨obtainable, store, a, fNhop, created, _, _⟩ | ⟨starved, store, code, negative, same, failed⟩
  · obtain ⟨restored, undone, same⟩ := nhopDelete_rollback accounted created
    rcases fibResObjCreate_pair store.nhops b a (some fRes) ribType s.fibRes with ⟨none, full⟩ | ⟨free, overrun⟩
    · refine .inr ⟨fun both => both.2 none, restored, ntbRouteResultNospace, ?_, by decide, same⟩
      simp only [routeNhopInsertNew, created, Option.elim_some, single, List.singleton_append, Option.map_some,
        full, undone]
    · -- the constructor of the new result overruns before the prefix is touched
      refine .inl ⟨⟨obtainable, free⟩, ?_⟩
      simp only [routeNhopInsertNew, created, Option.elim_some, single, List.singleton_append, Option.map_some,
        overrun]
  · refine .inr ⟨fun both => starved both.1, { s with store := store }, code, ?_, negative,
      rfl, rfl, rfl, rfl, same⟩
    simp only [routeNhopInsertNew, failed]

/-- An insert that stores past the end of `mpath[]`: the prefix has a result of this type with
    room by its own `mpath_max`, none of its next hops equals the new one, and the new next hop and
    a slot are to be had. -/
structure Overruns (env : RouteEnv) (pfx : NtbRibKey) (data : FibNhopEncapData) (ribType : RibType)
    (s : RouteState) : Prop where
  route : ∃ id fRes, s.rib.lookup pfx = some id ∧ s.fibRes.lookup id = some fRes ∧
    fibResRtypeGet fRes = ribType ∧ fRes.mpathCnt < fRes.mpathMax ∧ routeMaxEcmp < fRes.mpathCnt + 1 ∧
    mpathHas s.store.nhops data fRes.mpath = some false
  obtainable : NhopObtainable env.nhop pfx.vrfId data s.store
  free : fibResIdAlloc s.fibRes ≠ none

theorem overruns_iff {env : RouteEnv} {pfx : NtbRibKey} {data : FibNhopEncapData} {ribType : RibType}
    {s : RouteState} {id : FibResId} {fRes : FibRes} {b : Addr} (listed : s.rib.lookup pfx = some id)
    (used : s.fibRes.lookup id = some fRes) (single : fRes.mpath = [b]) :
    Overruns env pfx data ribType s ↔
      fibResRtypeGet fRes = ribType ∧ fRes.mpathCnt < fRes.mpathMax ∧
      mpathHas s.store.nhops data fRes.mpath = some false ∧
      NhopObtainable env.nhop pfx.vrfId data s.store ∧ fibResIdAlloc s.fibRes ≠ none := by
  constructor
  · rintro ⟨⟨id', fRes', listed', used', type, room, _, different⟩, obtainable, free⟩
    obtain rfl := Option.some.inj (listed.symm.trans listed')
    obtain rfl := Option.some.inj (used.symm.trans used')
    exact ⟨type, room, different, obtainable, free⟩
  · rintro ⟨type, room, different, obtainable, free⟩
    refine ⟨⟨id, fRes, listed, used, type, room, ?_, different⟩, obtainable, free⟩
    rw [FibRes.mpathCnt, single]
    exact Nat.lt_succ_self 1

theorem mpathHas_single {nhops : Table Addr FibNhop} {a : Addr} {fNhop : FibNhop}
    (held : nhops.lookup a = some fNhop) (data : FibNhopEncapData) :
    mpathHas nhops data [a] = some (fibNhopEqual fNhop data) := by
  simp only [mpathHas, held]
  cases fibNhopEqual fNhop data <;> rfl

/-- Adding to a prefix that has a result overruns `mpath[]`, fails, or finds the next hop there. -/
theorem routeNhopInsertMore_cases (env : RouteEnv) {pfx : NtbRibKey} (data : FibNhopEncapData)
    (ribType : RibType) {s : RouteState} (accounted : Accounted s) {id : FibResId} {fRes : FibRes} {b : Addr}
    (listed : s.rib.lookup pfx = some id) (used : s.fibRes.lookup id = some fRes) (single : fRes.mpath = [b]) :
    (Overruns env pfx data ribType s ∧ routeNhopInsertMore env pfx.vrfId pfx data ribType id fRes s = none) ∨
    (¬ Overruns env pfx data ribType s ∧
      ∃ s' ret, routeNhopInsertMore env pfx.vrfId pfx data ribType id fRes s = some (s', ret) ∧
        (ret < 0 ∧ s.Same s' ∨ ret = 0 ∧ s' = s)) := by
  rw [overruns_iff listed used single, routeNhopInsertMore]
  by_cases type : fibResRtypeGet fRes = ribType
  · rw [if_neg (not_not_intro type)]
    by_cases room : fRes.mpathCnt < fRes.mpathMax
    · have notFull : fibResMpathNospace fRes = false := by simpa [fibResMpathNospace] using room
      obtain ⟨fNhop, held⟩ := accounted.nhop_live used single
      have compared : mpathHas s.store.nhops data fRes.mpath = some (fibNhopEqual fNhop data) := by
        rw [single]; exact mpathHas_single held data
      rw [notFull, if_neg Bool.false_ne_true, compared]
      cases fibNhopEqual fNhop data with
      | true =>
        refine .inr ⟨?_, s, 0, rfl, .inr ⟨rfl, rfl⟩⟩
        rintro ⟨_, _, different, _⟩
        cases different
      | false =>
        -- `mpath_max` leaves room, `mpath[]` does not
        dsimp only
        rcases routeNhopInsertNew_present env data ribType accounted id single with
          ⟨⟨obtainable, free⟩, overrun⟩ | ⟨blocked, s', ret, result, negative, same⟩
        · exact .inl ⟨⟨type, room, rfl, obtainable, free⟩, overrun⟩
        · exact .inr ⟨fun overruns => blocked overruns.2.2.2, s', ret, result, .inl ⟨negative, same⟩⟩
    · have full : fibResMpathNospace fRes = true := by simpa [fibResMpathNospace] using room
      rw [full, if_pos rfl]
      exact .inr ⟨fun overruns => room overruns.2.1, s, _, rfl, .inl ⟨by decide, .refl s⟩⟩
  · rw [if_pos type]
    exact .inr ⟨fun overruns => type overruns.1, s, _, rfl, .inl ⟨by decide, .refl s⟩⟩

/-- Outcomes of `ntb_route_nhop_insert`: undefined behaviour exactly when it overruns; otherwise
    failure with everything as it was, success with nothing to do, or a new route. -/
theorem ntbRouteNhopInsert_cases (env : RouteEnv) (pfx : NtbRibKey) (data : FibNhopEncapData)
    (ribType : RibType) {s : RouteState} (accounted : Accounted s) :
    (Overruns env pfx data ribType s ∧ ntbRouteNhopInsert env pfx.vrfId pfx data ribType s = none) ∨
    (¬ Overruns env pfx data ribType s ∧
      ∃ s' ret, ntbRouteNhopInsert env pfx.vrfId pfx data ribType s = some (s', ret) ∧
        (¬ Enters env pfx data s ∧ ret < 0 ∧ s.Same s' ∨ ¬ Enters env pfx data s ∧ ret = 0 ∧ s' = s ∨
          Enters env pfx data s ∧ ret = 0 ∧ Inserted env pfx data ribType s s')) := by
  cases listed : s.rib.lookup pfx with
  | none =>
    refine .inr ⟨?_, ?_⟩
    · rintro ⟨⟨id, _, found, _⟩, _, _⟩
      rw [listed] at found; cases found
    · obtain ⟨s', ret, result, outcome⟩ := routeNhopInsertNew_absent env data ribType accounted listed
      exact ⟨s', ret, by rw [ntbRouteNhopInsert, listed]; exact result, outcome.imp_right .inr⟩
  | some id =>
    obtain ⟨_, fRes, b, used, single⟩ := accounted.rib_used pfx id listed
    have found : ntbRouteNhopInsert env pfx.vrfId pfx data ribType s =
        routeNhopInsertMore env pfx.vrfId pfx data ribType id fRes s := by
      simp only [ntbRouteNhopInsert, listed, used]
    have present : ¬ Enters env pfx data s := by
      intro enters
      rw [enters.absent] at listed; cases listed
    rw [found]
    rcases routeNhopInsertMore_cases env data ribType accounted listed used single with
      overrun | ⟨fits, s', ret, result, ⟨negative, same⟩ | ⟨zero, same⟩⟩
    · exact .inl overrun
    · exact .inr ⟨fits, s', ret, result, .inl ⟨present, negative, same⟩⟩
    · exact .inr ⟨fits, s', ret, result, .inr (.inl ⟨present, zero, same⟩)⟩

/-! ## Deleting -/

theorem refs_of_erase {s : RouteState} {id : FibResId} {fRes : FibRes} {a : Addr}
    (used : s.fibRes.lookup id = some fRes) (single : fRes.mpath = [a]) (b : Addr) :
    s.refs b = Table.total (fun _ fRes => fRes.mpath.count b) (s.fibRes.erase id) + if b = a then 1 else 0 := by
  rw [RouteState.refs, ← Table.total_erase (fun _ fRes => fRes.mpath.count b) used, single,
    List.count_singleton]
  congr 1
  by_cases same : b = a
  · simp [same]
  · simp [same, Ne.symm same]

theorem remove_route {s : RouteState} (accounted : Accounted s) {pfx : NtbRibKey} {id : FibResId}
    {fRes : FibRes} {a : Addr} (listed : s.rib.lookup pfx = some id) (used : s.fibRes.lookup id = some fRes)
    (single : fRes.mpath = [a]) :
    ∃ s₁ s₂, rtPrefixObjDelete pfx.vrfId pfx id s = some s₁ ∧
      (fibResObjDelete id s₁).nhopDelete pfx.vrfId a = some s₂ ∧ Removed pfx s s₂ := by
  obtain ⟨fNhop, held⟩ := accounted.nhop_live used single
  obtain ⟨rtPtype, typed⟩ := rtPrefixTypeGet_live used single held pfx
  obtain ⟨store, deleted, _⟩ :=
    nhopObjDelete_counts pfx.vrfId accounted.counts (refs_of_erase used single)
  refine ⟨_, _, by simp only [rtPrefixObjDelete, typed]; rfl,
    by simp only [RouteState.nhopDelete, fibResObjDelete, deleted, Option.map_some]; rfl, ?_⟩
  exact ⟨id, fRes, a, listed, used, single, deleted, rfl, rfl, rfl, rfl⟩

theorem ntbRouteDelete_cases (pfx : NtbRibKey) {s : RouteState} (accounted : Accounted s) :
    (s.rib.lookup pfx = none ∧ ntbRouteDelete pfx.vrfId pfx s = some (s, ntbRoutePrefixNotFound)) ∨
    ∃ s', ntbRouteDelete pfx.vrfId pfx s = some (s', 0) ∧ Removed pfx s s' := by
  cases listed : s.rib.lookup pfx with
  | none => exact .inl ⟨rfl, by simp only [ntbRouteDelete, listed]⟩
  | some id =>
    obtain ⟨_, fRes, a, used, single⟩ := accounted.rib_used pfx id listed
    obtain ⟨s₁, s₂, unlisted, deleted, removed⟩ := remove_route accounted listed used single
    refine .inr ⟨s₂, ?_, removed⟩
    simp only [ntbRouteDelete, listed, used, unlisted, single, List.foldlM_cons, List.foldlM_nil, deleted,
      Option.pure_def, Option.bind_eq_bind, Option.bind_some, Option.map_some]

/-- When `ntb_route_nhop_delete` deletes: the route is of this type and the next hop is one of its. -/
def DeletesNhop (pfx : NtbRibKey) (data : FibNhopEncapData) (ribType : RibType) (s : RouteState) : Prop :=
  ∃ id fRes a, s.rib.lookup pfx = some id ∧ s.fibRes.lookup id = some fRes ∧ fibResRtypeGet fRes = ribType ∧
    s.store.hashTbl.lookup data.key = some a ∧ a ∈ fRes.mpath

theorem ntbRouteNhopDelete_cases (env : RouteEnv) (pfx : NtbRibKey) (data : FibNhopEncapData)
    (ribType : RibType) {s : RouteState} (accounted : Accounted s) :
    (¬ DeletesNhop pfx data ribType s ∧ ∃ ret, ntbRouteNhopDelete env pfx.vrfId pfx data ribType s = some (s, ret)) ∨
    (DeletesNhop pfx data ribType s ∧
      ∃ s', ntbRouteNhopDelete env pfx.vrfId pfx data ribType s = some (s', 0) ∧ Removed pfx s s') := by
  cases listed : s.rib.lookup pfx with
  | none =>
    refine .inl ⟨?_, 0, by simp only [ntbRouteNhopDelete, listed]⟩
    rintro ⟨id, _, _, found, _⟩
    rw [listed] at found; cases found
  | some id =>
    obtain ⟨_, fRes, a, used, single⟩ := accounted.rib_used pfx id listed
    have only : DeletesNhop pfx data ribType s →
        fibResRtypeGet fRes = ribType ∧ s.store.hashTbl.lookup data.key = some a := by
      rintro ⟨id', fRes', b, listed', used', type, stored, member⟩
      obtain rfl := Option.some.inj (listed.symm.trans listed')
      obtain rfl := Option.some.inj (used.symm.trans used')
      rw [single, List.mem_singleton] at member
      exact ⟨type, by rw [stored, member]⟩
    by_cases type : fibResRtypeGet fRes = ribType
    · cases stored : s.store.hashTbl.lookup data.key with
      | none =>
        refine .inl ⟨fun deletes => ?_, 0, by
          simp only [ntbRouteNhopDelete, listed, used, type, ne_eq, not_true_eq_false, if_false, stored]⟩
        rw [stored] at only
        cases (only deletes).2
      | some b =>
        -- the route has one next hop, so it is this one or another
        by_cases same : b = a
        · subst same
          obtain ⟨s₁, s₂, unlisted, deleted, removed⟩ := remove_route accounted listed used single
          refine .inr ⟨⟨id, fRes, b, listed, used, type, stored, by rw [single]; exact List.mem_cons_self⟩,
            s₂, ?_, removed⟩
          simp only [ntbRouteNhopDelete, listed, used, type, ne_eq, not_true_eq_false, if_false, stored, single,
            List.mem_singleton, FibRes.mpathCnt, List.length_singleton, if_true, unlisted, deleted,
            Option.map_some]
        · refine .inl ⟨fun deletes => ?_, 0, ?_⟩
          · rw [stored] at only
            exact same (Option.some.inj (only deletes).2)
          · simp only [ntbRouteNhopDelete, listed, used, type, ne_eq, not_true_eq_false, if_false,
              stored, single, List.mem_singleton, same, not_false_eq_true, if_true]
    · refine .inl ⟨fun deletes => type (only deletes).1, ntbIpv4RoutetypeNoSame, ?_⟩
      simp only [ntbRouteNhopDelete, listed, used, ne_eq, type, not_false_eq_true, if_true]

end Tao.Agent
