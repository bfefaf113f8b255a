import Tao.Agent.RouteCleanup
import Tao.Foundation.IdPool

/-! # Object ids

`hal_nhop_alloc_oid` and `hal_neigh_alloc_oid` hand out ids that nothing gives back:
the calls that free them are commented out.  The ids match the objects while no next
hop is freed and no insert fails after it has drawn an id, as long as next hops stay
away from entries that only a static add has made, which have no id. -/

namespace Tao.Agent

open Tao.Foundation

/-- Next hops hold the references that a static add does not. -/
def OlNeighEntry.NhopReferenced (entry : OlNeighEntry) : Prop :=
  (if entry.fArpStatic then 1 else 0) < entry.refcnt

instance : DecidablePred OlNeighEntry.NhopReferenced := fun entry =>
  inferInstanceAs (Decidable ((if entry.fArpStatic then 1 else 0) < entry.refcnt))

/-- The ids of the next hops, and of the neighbour entries that next hops reference, are pairwise
    distinct and are the ones outstanding, one each. -/
structure ObjectIds (s : RouteState) : Prop where
  nhops : IdsMatch (fun _ => True) FibNhop.nhOid s.store.nhops s.store.oids
  neighs : IdsMatch OlNeighEntry.NhopReferenced OlNeighEntry.neighOid s.store.neigh.hashTbl s.store.neigh.oids

theorem RouteState.initial_objectIds : ObjectIds .initial := ⟨.empty, .empty⟩

/-! ## Which calls draw an id -/

def NhopEnv.Starts (env : NhopEnv) (data : FibNhopEncapData) (s : NhopStore) : Prop :=
  data.key ∉ s.hashTbl ∧ (∃ a, rteZmalloc s.nhops env.memory = some a) ∧ env.room = true

def NeighEnv.Draws (env : NeighEnv) (vrfId : VrfId) (gateway : Ip4) (t : OlNeighTable) (oid : Oid) : Prop :=
  gateway ≠ 0 ∧ (⟨vrfId, gateway⟩ : OlNeighLookupKey) ∉ t.hashTbl ∧ env.Allocates t oid

def NhopEnv.DrawsNeighOid (env : NhopEnv) (vrfId : VrfId) (data : FibNhopEncapData) (s : NhopStore) (oid : Oid) :
    Prop :=
  env.Starts data s ∧ env.neigh.Draws vrfId data.gateway s.neigh oid

def NhopEnv.DrawsNhopOid (env : NhopEnv) (vrfId : VrfId) (data : FibNhopEncapData) (s : NhopStore) (oid : Oid) :
    Prop :=
  env.Starts data s ∧
  (data.gateway = 0 ∨ (⟨vrfId, data.gateway⟩ : OlNeighLookupKey) ∈ s.neigh.hashTbl ∨
    ∃ oid, env.neigh.Allocates s.neigh oid) ∧
  halAllocOid s.oids env.oid = .ok oid

def ReachesCreate (pfx : NtbRibKey) (data : FibNhopEncapData) (ribType : RibType) (s : RouteState) : Prop :=
  s.rib.lookup pfx = none ∨ ∃ id fRes, s.rib.lookup pfx = some id ∧ s.fibRes.lookup id = some fRes ∧
    fibResRtypeGet fRes = ribType ∧ fibResMpathNospace fRes = false ∧
    mpathHas s.store.nhops data fRes.mpath = some false

def DrawsId (env : RouteEnv) (pfx : NtbRibKey) (data : FibNhopEncapData) (ribType : RibType) (s : RouteState) :
    Prop :=
  ReachesCreate pfx data ribType s ∧
  ((∃ oid, env.nhop.DrawsNhopOid pfx.vrfId data s.store oid) ∨
    ∃ oid, env.nhop.DrawsNeighOid pfx.vrfId data s.store oid)

/-- No next hop references the entry of the gateway: a static add made it, without an id. -/
def OlNeighTable.OnlyStatic (vrfId : VrfId) (gateway : Ip4) (t : OlNeighTable) : Prop :=
  gateway ≠ 0 ∧ ∃ entry, t.hashTbl.lookup ⟨vrfId, gateway⟩ = some entry ∧ ¬ entry.NhopReferenced

/-- The route of the prefix has the last reference to a next hop. -/
def RouteState.LastRef (pfx : NtbRibKey) (s : RouteState) : Prop :=
  ∃ id fRes a fNhop, s.rib.lookup pfx = some id ∧ s.fibRes.lookup id = some fRes ∧ a ∈ fRes.mpath ∧
    s.store.nhops.lookup a = some fNhop ∧ fNhop.refCount = 1

/-- The call frees no next hop, and an insert that draws an id fits `mpath[]`, enters its route and
    finds no entry of a static add. -/
def RouteCall.KeepsIds (s : RouteState) : RouteCall → Prop
  | .nhopInsert env pfx data ribType => ¬ Overruns env pfx data ribType s ∧
    (DrawsId env pfx data ribType s → Enters env pfx data s ∧ ¬ s.store.neigh.OnlyStatic pfx.vrfId data.gateway)
  | .nhopDelete _ pfx data ribType => ¬ (DeletesNhop pfx data ribType s ∧ s.LastRef pfx)
  | .delete pfx => ¬ s.LastRef pfx
  | .cleanup _ vrfId => ∀ a fNhop, s.store.nhops.lookup a = some fNhop → s.vrfRefs vrfId a < fNhop.refCount
  | .neighAddStatic _ _ _ _ => True

/-! ## The ids outstanding after a call -/

/-- The id that `draws` allows is outstanding as well, if there is one. -/
def Drawn (draws : Oid → Prop) (oids oids' : Finset Oid) : Prop :=
  (∀ oid, ¬ draws oid) ∧ oids' = oids ∨ ∃ oid, draws oid ∧ oids' = insert oid oids

theorem halAllocOid_fresh {oids : Finset Oid} {answer : OidAnswer} {oid : Oid}
    (allocated : halAllocOid oids answer = .ok oid) : oid ∉ oids := by
  unfold halAllocOid at allocated
  split at allocated
  · split at allocated
    · cases allocated
    · next fresh =>
      cases allocated
      exact fresh
  · cases allocated

theorem nhopNeighAdd_drawn (env : NeighEnv) (vrfId : VrfId) (gateway : Ip4) (t : OlNeighTable) :
    Drawn (env.Draws vrfId gateway t) t.oids (nhopNeighAdd env vrfId gateway t).1.oids := by
  unfold nhopNeighAdd
  by_cases zero : gateway = 0
  · rw [if_pos zero]
    exact .inl ⟨fun oid draws => draws.1 zero, rfl⟩
  · rw [if_neg zero]
    rcases ntbNeighAdd_cases env vrfId gateway t with
      ⟨entry, held, result⟩ | ⟨absent, oid, allocates, result⟩ | ⟨absent, starved, code, _, result⟩ <;> rw [result]
    · exact .inl ⟨fun oid draws => draws.2.1 (Finmap.mem_of_lookup_eq_some held), rfl⟩
    · exact .inr ⟨oid, ⟨zero, Finmap.lookup_eq_none.mp absent, allocates⟩, rfl⟩
    · exact .inl ⟨fun oid draws => starved ⟨oid, draws.2.2⟩, rfl⟩

@[simp] theorem nhopNeighDel_oids (vrfId : VrfId) (gateway : Ip4) (t : OlNeighTable) :
    (nhopNeighDel vrfId gateway t).oids = t.oids := by
  unfold nhopNeighDel ntbNeighDel
  split
  · rfl
  · dsimp only
    split
    · rfl
    · split <;> rfl

/-- What `nhop_obj_create` draws stays outstanding, whether it succeeds or not. -/
theorem nhopObjCreate_drawn {env : NhopEnv} {vrfId : VrfId} {data : FibNhopEncapData} {s s' : NhopStore}
    {result : Except Int Addr} (created : nhopObjCreate env vrfId data s = some (s', result)) :
    Drawn (env.DrawsNhopOid vrfId data s) s.oids s'.oids ∧
      Drawn (env.DrawsNeighOid vrfId data s) s.neigh.oids s'.neigh.oids := by
  -- a next hop that is not started draws nothing
  have idle {t : NhopStore} (stopped : ¬ env.Starts data s) (oids : t.oids = s.oids) (neigh : t.neigh = s.neigh) :
      Drawn (env.DrawsNhopOid vrfId data s) s.oids t.oids ∧
        Drawn (env.DrawsNeighOid vrfId data s) s.neigh.oids t.neigh.oids :=
    ⟨.inl ⟨fun _ draws => stopped draws.1, oids⟩, .inl ⟨fun _ draws => stopped draws.1, by rw [neigh]⟩⟩
  -- one that is started draws what its neighbour does
  have neighs {t : OlNeighTable} {answer : Except Int Oid} (starts : env.Starts data s)
      (neighbour : nhopNeighAdd env.neigh vrfId data.gateway s.neigh = (t, answer)) :
      Drawn (env.DrawsNeighOid vrfId data s) s.neigh.oids t.oids := by
    have drawn := nhopNeighAdd_drawn env.neigh vrfId data.gateway s.neigh
    rw [neighbour] at drawn
    rcases drawn with ⟨none, same⟩ | ⟨oid, draws, same⟩
    · exact .inl ⟨fun oid draws => none oid draws.2, same⟩
    · exact .inr ⟨oid, ⟨starts, draws⟩, same⟩
  cases nhopObjCreate_path created with
  | shared found held =>
    exact idle (fun starts => starts.1 (Finmap.mem_of_lookup_eq_some found)) rfl rfl
  | noMemory absent memory =>
    refine idle ?_ rfl rfl
    rintro ⟨_, ⟨a, allocated⟩, _⟩
    rw [memory] at allocated; cases allocated
  | noRoom absent room =>
    refine idle ?_ rfl rfl
    rintro ⟨_, _, roomy⟩
    rw [room] at roomy; cases roomy
  | noNeigh absent memory room neighbour =>
    refine ⟨.inl ⟨fun oid draws => ?_, rfl⟩, neighs ⟨absent, ⟨_, memory⟩, room⟩ neighbour⟩
    obtain ⟨_, _, added⟩ := nhopNeighAdd_ok_iff.mpr draws.2.1
    rw [neighbour] at added; cases added
  | noOid absent memory room neighbour answer =>
    refine ⟨.inl ⟨fun oid draws => answer oid draws.2.2, rfl⟩, ?_⟩
    rw [nhopNeighDel_oids]
    exact neighs ⟨absent, ⟨_, memory⟩, room⟩ neighbour
  | created absent memory room neighbour answer =>
    have starts : env.Starts data s := ⟨absent, ⟨_, memory⟩, room⟩
    exact ⟨.inr ⟨_, ⟨starts, nhopNeighAdd_ok_iff.mp ⟨_, _, neighbour⟩, answer⟩, rfl⟩, neighs starts neighbour⟩

structure RouteState.SameOids (s s' : RouteState) : Prop where
  nhops : s'.store.oids = s.store.oids
  neighs : s'.store.neigh.oids = s.store.neigh.oids

theorem nhopDelete_sameOids {vrfId : VrfId} {a : Addr} {s s' : RouteState}
    (deleted : s.nhopDelete vrfId a = some s') : s.SameOids s' := by
  obtain ⟨store, freed, rfl⟩ := Option.map_eq_some_iff.mp deleted
  unfold nhopObjDelete at freed
  split at freed
  · cases freed
  · dsimp only at freed
    split at freed <;> cases freed
    · exact ⟨rfl, rfl⟩
    · exact ⟨rfl, nhopNeighDel_oids _ _ _⟩

theorem rtPrefixObjUpdate_store {env : RouteEnv} {vrfId : VrfId} {pfx : NtbRibKey} {old : Option FibResId}
    {new : FibResId} {s : RouteState} {result : RouteState × Int}
    (updated : rtPrefixObjUpdate env vrfId pfx old new s = some result) : result.1.store = s.store := by
  unfold rtPrefixObjUpdate at updated
  repeat' split at updated
  all_goals cases updated <;> rfl

/-- An insert leaves outstanding what `nhop_obj_create` has drawn: no rollback gives an id back. -/
theorem routeNhopInsertNew_oids {env : RouteEnv} {vrfId : VrfId} {pfx : NtbRibKey} {data : FibNhopEncapData}
    {ribType : RibType} {old : Option (FibResId × FibRes)} {s s' : RouteState} {ret : Int}
    (inserted : routeNhopInsertNew env vrfId pfx data ribType old s = some (s', ret)) :
    ∃ store result, nhopObjCreate env.nhop vrfId data s.store = some (store, result) ∧
      s'.store.oids = store.oids ∧ s'.store.neigh.oids = store.neigh.oids := by
  unfold routeNhopInsertNew at inserted
  split at inserted
  · cases inserted
  · next store ret created =>
    cases inserted
    exact ⟨store, _, created, rfl, rfl⟩
  · next store nhopNew created =>
    refine ⟨store, _, created, ?_⟩
    dsimp only at inserted
    split at inserted
    · cases inserted
    · -- rollback2
      obtain ⟨t, deleted, same⟩ := Option.map_eq_some_iff.mp inserted
      cases same
      exact ⟨(nhopDelete_sameOids deleted).nhops, (nhopDelete_sameOids deleted).neighs⟩
    · next fibRes new _ =>
      split at inserted
      · cases inserted
      · next t ret updated =>
        have kept := rtPrefixObjUpdate_store updated
        split at inserted
        · -- rollback1
          obtain ⟨u, deleted, same⟩ := Option.map_eq_some_iff.mp inserted
          cases same
          have same := nhopDelete_sameOids deleted
          rw [same.nhops, same.neighs, fibResObjDelete, kept]
          exact ⟨rfl, rfl⟩
        · split at inserted <;> cases inserted
          · rw [kept]
            exact ⟨rfl, rfl⟩
          · rw [fibResObjDelete, kept]
            exact ⟨rfl, rfl⟩

theorem ntbRouteNhopInsert_oids {env : RouteEnv} {vrfId : VrfId} {pfx : NtbRibKey} {data : FibNhopEncapData}
    {ribType : RibType} {s s' : RouteState} {ret : Int}
    (inserted : ntbRouteNhopInsert env vrfId pfx data ribType s = some (s', ret)) :
    (¬ ReachesCreate pfx data ribType s ∧ s' = s) ∨
    (ReachesCreate pfx data ribType s ∧
      ∃ store result, nhopObjCreate env.nhop vrfId data s.store = some (store, result) ∧
        s'.store.oids = store.oids ∧ s'.store.neigh.oids = store.neigh.oids) := by
  unfold ntbRouteNhopInsert at inserted
  split at inserted
  · next absent => exact .inr ⟨.inl absent, routeNhopInsertNew_oids inserted⟩
  · next id listed =>
    split at inserted
    · cases inserted
    · next fRes used =>
      have reaches : ReachesCreate pfx data ribType s ↔ fibResRtypeGet fRes = ribType ∧
          fibResMpathNospace fRes = false ∧ mpathHas s.store.nhops data fRes.mpath = some false := by
        constructor
        · rintro (absent | ⟨id', fRes', listed', used', rest⟩)
          · rw [absent] at listed; cases listed
          · obtain rfl := Option.some.inj (listed.symm.trans listed')
            obtain rfl := Option.some.inj (used.symm.trans used')
            exact rest
        · exact fun rest => .inr ⟨id, fRes, listed, used, rest⟩
      rw [reaches]
      unfold routeNhopInsertMore at inserted
      split at inserted
      · next type =>
        cases inserted
        exact .inl ⟨fun rest => type rest.1, rfl⟩
      · next type =>
        split at inserted
        · next full =>
          cases inserted
          refine .inl ⟨fun rest => ?_, rfl⟩
          rw [rest.2.1] at full; cases full
        · next room =>
          split at inserted
          · cases inserted
          · next found =>
            cases inserted
            refine .inl ⟨fun rest => ?_, rfl⟩
            rw [found] at rest; cases rest.2.2
          · next different =>
            exact .inr ⟨⟨not_not.mp type, by simpa using room, different⟩, routeNhopInsertNew_oids inserted⟩

/-! ## Inserting -/

theorem ObjectIds.same {s s' : RouteState} (ids : ObjectIds s) (same : s.Same s') (oids : s.SameOids s') :
    ObjectIds s' := by
  refine ⟨?_, ?_⟩
  · rw [same.store.nhops, oids.nhops]
    exact ids.nhops
  · rw [same.store.neigh.hashTbl, oids.neighs]
    exact ids.neighs

/-- A new next hop gets the id of its neighbour unless the entry is one that only a static add made. -/
theorem nhopNeighAdd_ids {env : NeighEnv} {vrfId : VrfId} {gateway : Ip4} {t t' : OlNeighTable} {oid : Oid}
    (ids : IdsMatch OlNeighEntry.NhopReferenced OlNeighEntry.neighOid t.hashTbl t.oids) (referenced : t.Referenced)
    (added : nhopNeighAdd env vrfId gateway t = (t', .ok oid)) :
    IdsMatch OlNeighEntry.NhopReferenced OlNeighEntry.neighOid t'.hashTbl t'.oids ↔
      ¬ t.OnlyStatic vrfId gateway := by
  unfold nhopNeighAdd at added
  by_cases zero : gateway = 0
  · rw [if_pos zero] at added
    cases added
    exact ⟨fun _ only => only.1 zero, fun _ => ids⟩
  · rw [if_neg zero] at added
    rcases ntbNeighAdd_cases env vrfId gateway t with
      ⟨entry, held, result⟩ | ⟨absent, oid', allocates, result⟩ | ⟨_, _, code, _, result⟩ <;>
      rw [result] at added <;> cases added
    · have positive : 1 ≤ entry.refcnt := referenced _ _ held
      have used : OlNeighEntry.NhopReferenced { entry with refcnt := entry.refcnt + 1 } := by
        unfold OlNeighEntry.NhopReferenced
        dsimp only
        split <;> omega
      constructor
      · rintro after ⟨_, entry', held', unused⟩
        obtain rfl := Option.some.inj (held.symm.trans held')
        exact ids.not_of_adopt held unused used after
      · intro shared
        have older : entry.NhopReferenced := not_not.mp fun unused => shared ⟨zero, entry, held, unused⟩
        exact ids.overwrite held (iff_of_true used older) rfl
    · refine ⟨fun _ only => ?_, fun _ => ?_⟩
      · obtain ⟨_, entry, held, _⟩ := only
        rw [absent] at held; cases held
      · exact ids.draw (Finmap.lookup_eq_none.mp absent) (Nat.lt_add_one 0) (halAllocOid_fresh allocates.2.2)

/-- An insert that enters a route keeps the ids matched unless its new next hop is on an entry of a
    static add. -/
theorem inserted_ids {env : RouteEnv} {pfx : NtbRibKey} {data : FibNhopEncapData} {ribType : RibType}
    {s s' : RouteState} (accounted : Accounted s) (ids : ObjectIds s)
    (inserted : Inserted env pfx data ribType s s') :
    ObjectIds s' ↔ (DrawsId env pfx data ribType s → ¬ s.store.neigh.OnlyStatic pfx.vrfId data.gateway) := by
  obtain ⟨absent, _, a, _, _, created, _⟩ := inserted
  rcases nhopObjCreate_cases env.nhop pfx.vrfId data accounted.counts accounted.referenced with
    ⟨b, fNhop, stored, held, _, result⟩ | ⟨new, b, nhOid, neigh, neighOid, allocates, answer, neighbour, result⟩ |
      ⟨_, _, _, _, _, _, result⟩ <;>
    rw [result, Option.some.injEq, Prod.mk.injEq] at created <;> obtain ⟨store, same⟩ := created <;> cases same
  · -- a shared next hop draws nothing
    refine iff_of_true ⟨?_, ?_⟩ fun draws => ?_
    · rw [← store]
      exact ids.nhops.overwrite held Iff.rfl rfl
    · rw [← store]
      exact ids.neighs
    · rcases draws.2 with ⟨_, starts, _⟩ | ⟨_, starts, _⟩ <;>
        exact absurd (Finmap.mem_of_lookup_eq_some stored) starts.1
  · obtain ⟨memory, room, available, _⟩ := allocates
    have draws : DrawsId env pfx data ribType s :=
      ⟨.inl absent, .inl ⟨nhOid, ⟨Finmap.lookup_eq_none.mp new, ⟨a, memory⟩, room⟩, available, answer⟩⟩
    have neighs := nhopNeighAdd_ids ids.neighs accounted.referenced neighbour
    constructor
    · intro after _
      refine neighs.mp ?_
      have kept := after.neighs
      rwa [← store] at kept
    · intro away
      refine ⟨?_, ?_⟩
      · rw [← store]
        have fresh := (rteZmalloc_some.mp memory).2
        exact ids.nhops.draw fresh trivial (halAllocOid_fresh answer)
      · rw [← store]
        exact neighs.mpr (away draws)

/-- An insert that does not overrun keeps the ids matched exactly when what it draws goes into the
    tables. -/
theorem insert_ids {env : RouteEnv} {pfx : NtbRibKey} {data : FibNhopEncapData} {ribType : RibType}
    {s s' : RouteState} {ret : Int} (accounted : Accounted s) (ids : ObjectIds s)
    (result : ntbRouteNhopInsert env pfx.vrfId pfx data ribType s = some (s', ret)) :
    ObjectIds s' ↔ (DrawsId env pfx data ribType s →
      Enters env pfx data s ∧ ¬ s.store.neigh.OnlyStatic pfx.vrfId data.gateway) := by
  have outcome : (¬ Enters env pfx data s ∧ s.Same s') ∨
      (Enters env pfx data s ∧ Inserted env pfx data ribType s s') := by
    rcases ntbRouteNhopInsert_cases env pfx data ribType accounted with
      ⟨_, undefined⟩ | ⟨_, t, _, result', outcome⟩
    · rw [undefined] at result; cases result
    · rw [result'] at result
      cases result
      rcases outcome with ⟨fails, _, same⟩ | ⟨fails, _, rfl⟩ | ⟨enters, _, inserted⟩
      · exact .inl ⟨fails, same⟩
      · exact .inl ⟨fails, .refl _⟩
      · exact .inr ⟨enters, inserted⟩
  rcases outcome with ⟨fails, same⟩ | ⟨enters, inserted⟩
  · -- nothing is entered, so whatever was drawn is lost
    rcases ntbRouteNhopInsert_oids result with ⟨before, rfl⟩ | ⟨reaches, store, answer, created, nhops, neighs⟩
    · exact iff_of_true ids fun draws => absurd draws.1 before
    · have drawn := nhopObjCreate_drawn created
      rw [← nhops, ← neighs] at drawn
      rcases drawn.1 with ⟨noNhop, sameNhops⟩ | ⟨oid, draws, more⟩
      · rcases drawn.2 with ⟨noNeigh, sameNeighs⟩ | ⟨oid, draws, more⟩
        · refine iff_of_true (ids.same same ⟨sameNhops, sameNeighs⟩) fun draws => ?_
          rcases draws.2 with ⟨oid, nhop⟩ | ⟨oid, neigh⟩
          · exact absurd nhop (noNhop oid)
          · exact absurd neigh (noNeigh oid)
        · refine iff_of_false (fun after => ?_) fun enters => fails (enters ⟨reaches, .inr ⟨oid, draws⟩⟩).1
          have kept := after.neighs
          rw [same.store.neigh.hashTbl, more] at kept
          exact ids.neighs.not_of_leak (halAllocOid_fresh draws.2.2.2.2.2) kept
      · refine iff_of_false (fun after => ?_) fun enters => fails (enters ⟨reaches, .inl ⟨oid, draws⟩⟩).1
        have kept := after.nhops
        rw [same.store.nhops, more] at kept
        exact ids.nhops.not_of_leak (halAllocOid_fresh draws.2.2) kept
  · rw [inserted_ids accounted ids inserted]
    exact ⟨fun away draws => ⟨enters, away draws⟩, fun both draws => (both draws).2⟩

/-! ## Deleting -/

/-- A next hop was freed and its id is still outstanding. -/
def IdLost (s : RouteState) : Prop := Table.count (fun _ => True) s.store.nhops < s.store.oids.card

theorem IdLost.not_objectIds {s : RouteState} (lost : IdLost s) : ¬ ObjectIds s := by
  intro ids
  have counted := ids.nhops.count
  unfold IdLost at lost
  omega

/-- Between a state and one in which routes of it are deleted: every next hop is still there and the
    ids match, or one was freed. -/
structure Unrouted (s t : RouteState) : Prop where
  older : ∀ a, a ∈ t.store.nhops → a ∈ s.store.nhops
  outcome : (∀ a, a ∈ s.store.nhops → a ∈ t.store.nhops) ∧ ObjectIds t ∨
    (∃ a, a ∈ s.store.nhops ∧ a ∉ t.store.nhops) ∧ IdLost t

theorem Unrouted.refl {s : RouteState} (ids : ObjectIds s) : Unrouted s s :=
  ⟨fun _ member => member, .inl ⟨fun _ member => member, ids⟩⟩

theorem Unrouted.idsMatch_iff {s t : RouteState} (unrouted : Unrouted s t) :
    ObjectIds t ↔ ∀ a, a ∈ s.store.nhops → a ∈ t.store.nhops := by
  rcases unrouted.outcome with ⟨kept, ids⟩ | ⟨⟨a, before, freed⟩, lost⟩
  · exact iff_of_true ids kept
  · exact iff_of_false lost.not_objectIds fun kept => freed (kept a before)

theorem Unrouted.removed {s t t' : RouteState} {pfx : NtbRibKey} (unrouted : Unrouted s t)
    (accounted : Accounted t) (removed : Removed pfx t t') : Unrouted s t' := by
  obtain ⟨_, _, a, _, used, single, deleted, _⟩ := removed
  obtain ⟨fNhop, held⟩ := accounted.nhop_live used single
  rcases nhopObjDelete_cases pfx.vrfId accounted.counts held with ⟨_, result⟩ | ⟨_, result⟩
  · -- a reference is dropped
    have store := Option.some.inj (deleted.symm.trans result)
    have members (b : Addr) : b ∈ t'.store.nhops ↔ b ∈ t.store.nhops := by
      rw [store, Finmap.mem_insert]
      exact ⟨fun either => either.elim (fun same => same ▸ Finmap.mem_of_lookup_eq_some held) id, .inr⟩
    refine ⟨fun b member => unrouted.older b ((members b).mp member), ?_⟩
    rcases unrouted.outcome with ⟨kept, ids⟩ | ⟨⟨b, before, freed⟩, lost⟩
    · refine .inl ⟨fun b member => (members b).mpr (kept b member), ?_, ?_⟩
      · rw [store]
        exact ids.nhops.overwrite held Iff.rfl rfl
      · rw [store]
        exact ids.neighs
    · refine .inr ⟨⟨b, before, fun member => freed ((members b).mp member)⟩, ?_⟩
      have counted := Table.count_overwrite (fun _ => True) { fNhop with refCount := fNhop.refCount - 1 } held
      unfold IdLost at lost ⊢
      rw [store]
      dsimp only
      omega
  · -- the next hop is freed
    have store := Option.some.inj (deleted.symm.trans result)
    have counted := Table.count_erase (fun _ => True) held
    rw [if_pos trivial] at counted
    have gone : a ∉ t'.store.nhops := by
      rw [store]
      exact Finmap.notMem_erase_self
    refine ⟨fun b member => ?_, .inr ⟨⟨a, unrouted.older a (Finmap.mem_of_lookup_eq_some held), gone⟩, ?_⟩⟩
    · rw [store] at member
      exact unrouted.older b (Finmap.mem_erase.mp member).2
    · have before : Table.count (fun _ => True) t.store.nhops ≤ t.store.oids.card := by
        rcases unrouted.outcome with ⟨_, ids⟩ | ⟨_, lost⟩
        · exact ids.nhops.count.ge
        · exact Nat.le_of_lt lost
      unfold IdLost
      rw [store]
      dsimp only
      omega

theorem removed_ids {s s' : RouteState} {pfx : NtbRibKey} (accounted : Accounted s) (ids : ObjectIds s)
    (removed : Removed pfx s s') : ObjectIds s' ↔ ¬ s.LastRef pfx := by
  rw [((Unrouted.refl ids).removed accounted removed).idsMatch_iff]
  obtain ⟨id, fRes, a, listed, used, single, deleted, _⟩ := removed
  obtain ⟨fNhop, held⟩ := accounted.nhop_live used single
  have count := (accounted.counts.live a fNhop held).2.1
  rcases nhopObjDelete_cases pfx.vrfId accounted.counts held with ⟨shared, result⟩ | ⟨last, result⟩
  · refine iff_of_true (fun b member => ?_) ?_
    · rw [Option.some.inj (deleted.symm.trans result), Finmap.mem_insert]
      exact .inr member
    · rintro ⟨id', fRes', b, gNhop, listed', used', member, held', one⟩
      obtain rfl := Option.some.inj (listed.symm.trans listed')
      obtain rfl := Option.some.inj (used.symm.trans used')
      rw [single, List.mem_singleton] at member
      subst member
      obtain rfl := Option.some.inj (held.symm.trans held')
      omega
  · refine iff_of_false (fun kept => ?_) (not_not_intro ⟨id, fRes, a, fNhop, listed, used, ?_, held, by omega⟩)
    · have member := kept a (Finmap.mem_of_lookup_eq_some held)
      rw [Option.some.inj (deleted.symm.trans result)] at member
      exact Finmap.notMem_erase_self member
    · rw [single]
      exact List.mem_cons_self

theorem ntbRouteCleanup_unrouted (iterate : RteHashIterate) (vrfId : VrfId) {s t : RouteState}
    (accounted : Accounted s) (ids : ObjectIds s) (cleaned : ntbRouteCleanup iterate vrfId s = some t) :
    Unrouted s t := by
  obtain ⟨t', cleaned', _, unrouted⟩ := ntbRouteCleanup_invariant (Unrouted s) iterate vrfId
    (fun _ _ _ accounted unrouted removed => unrouted.removed accounted removed) accounted (.refl ids)
  obtain rfl := Option.some.inj (cleaned.symm.trans cleaned')
  exact unrouted

theorem cleanup_ids {iterate : RteHashIterate} {vrfId : VrfId} {s t : RouteState} (accounted : Accounted s)
    (listed : FibListed s) (ids : ObjectIds s) (cleaned : ntbRouteCleanup iterate vrfId s = some t) :
    ObjectIds t ↔ RouteCall.KeepsIds s (.cleanup iterate vrfId) := by
  rw [(ntbRouteCleanup_unrouted iterate vrfId accounted ids cleaned).idsMatch_iff]
  obtain ⟨t', cleaned', cleanedUp⟩ := ntbRouteCleanup_cleanedUp iterate vrfId accounted listed
  obtain rfl := Option.some.inj (cleaned.symm.trans cleaned')
  have left (a : Addr) {fNhop : FibNhop} (held : s.store.nhops.lookup a = some fNhop) :
      a ∈ t.store.nhops ↔ s.vrfRefs vrfId a < fNhop.refCount := by
    have now := cleanedUp.nhops a
    rw [held, Option.bind_some, FibNhop.dropRefs] at now
    split at now
    · next more => exact iff_of_true (Finmap.mem_of_lookup_eq_some now) more
    · next none => exact iff_of_false (Finmap.lookup_eq_none.mp now) none
  constructor
  · intro kept a fNhop held
    exact (left a held).mp (kept a (Finmap.mem_of_lookup_eq_some held))
  · intro more a member
    obtain ⟨fNhop, held⟩ := Finmap.mem_iff.mp member
    exact (left a held).mpr (more a fNhop held)

/-! ## Static adds -/

theorem OlNeighEntry.setStatic_nhopReferenced (hwAddr : EtherAddr) {entry : OlNeighEntry}
    (positive : 1 ≤ entry.refcnt) :
    (entry.setStatic hwAddr).NhopReferenced ↔ entry.NhopReferenced := by
  unfold NhopReferenced setStatic
  cases entry.fArpStatic with
  | false => simp only [Bool.false_eq_true, if_false, if_true]; omega
  | true => simp only [if_true]

theorem neighAddStatic_ids {s : RouteState} (accounted : Accounted s) (ids : ObjectIds s) (env : NeighEnv)
    (vrfId : VrfId) (gw : Ip4) (hwAddr : EtherAddr) : ObjectIds { s with
      store := { s.store with neigh := (olNeighAddStatic env vrfId gw hwAddr s.store.neigh).1 } } := by
  refine ⟨ids.nhops, ?_⟩
  rcases olNeighAddStatic_cases env vrfId gw hwAddr s.store.neigh with
    ⟨entry, held, result⟩ | ⟨_, _, _, result⟩ | ⟨absent, result⟩ <;> rw [result]
  · exact ids.neighs.overwrite held (entry.setStatic_nhopReferenced hwAddr (accounted.referenced _ _ held)) rfl
  · exact ids.neighs
  · exact ids.neighs.idle (Finmap.lookup_eq_none.mp absent) (Nat.lt_irrefl 1)

/-! ## Runs -/

/-- A call that is defined keeps the ids matched exactly when it meets the condition. -/
theorem routeStep_ids {s s' : RouteState} {call : RouteCall} (accounted : Accounted s) (listed : FibListed s)
    (ids : ObjectIds s) (stepped : routeStep s call = some s') : ObjectIds s' ↔ call.KeepsIds s := by
  have fits := fits_of_defined accounted stepped
  cases call with
  | nhopInsert env pfx data ribType =>
    obtain ⟨⟨t, ret⟩, result, rfl⟩ := Option.map_eq_some_iff.mp stepped
    rw [insert_ids accounted ids result]
    exact ⟨fun keeps => ⟨fits, keeps⟩, fun keeps => keeps.2⟩
  | nhopDelete env pfx data ribType =>
    obtain ⟨⟨t, ret⟩, result, rfl⟩ := Option.map_eq_some_iff.mp stepped
    rcases ntbRouteNhopDelete_cases env pfx data ribType accounted with
      ⟨keeps, _, result'⟩ | ⟨deletes, _, result', removed⟩ <;> rw [result'] at result <;> cases result
    · exact iff_of_true ids fun both => keeps both.1
    · rw [removed_ids accounted ids removed]
      exact ⟨fun last both => last both.2, fun last here => last ⟨deletes, here⟩⟩
  | delete pfx =>
    obtain ⟨⟨t, ret⟩, result, rfl⟩ := Option.map_eq_some_iff.mp stepped
    rcases ntbRouteDelete_cases pfx accounted with ⟨absent, result'⟩ | ⟨_, result', removed⟩ <;>
      (rw [result'] at result; cases result)
    · refine iff_of_true ids ?_
      rintro ⟨id, _, _, _, found, _⟩
      rw [absent] at found; cases found
    · exact removed_ids accounted ids removed
  | cleanup iterate vrfId => exact cleanup_ids accounted listed ids stepped
  | neighAddStatic env vrfId gw hwAddr =>
    obtain rfl := Option.some.inj stepped
    exact iff_of_true (neighAddStatic_ids accounted ids env vrfId gw hwAddr) trivial

theorem RouteCall.KeepsIds.fits {s : RouteState} {call : RouteCall} (keeps : call.KeepsIds s) : call.Fits s := by
  refine RouteCall.fits_of_insert ?_
  rintro env pfx data ribType rfl
  exact keeps.1

/-- Object ids are neither leaked nor shared exactly in the runs whose calls free no next hop and
    enter what they draw an id for. -/
theorem objectIds_iff (calls : List RouteCall) :
    Always routeStep ObjectIds .initial calls ↔
      Guarded routeStep (fun s call => call.KeepsIds s) .initial calls := by
  refine always_iff_guarded (fun s => Accounted s ∧ FibListed s) (fun s call both ids keeps => ?_)
    (fun s call s' both ids loses stepped after => ?_)
    ⟨RouteState.initial_accounted, RouteState.initial_fibListed⟩ RouteState.initial_objectIds
  · obtain ⟨s', stepped, _⟩ := routeStep_accounted call both.1 keeps.fits
    exact ⟨s', stepped, routeStep_fibListed both.1 both.2 stepped, (routeStep_ids both.1 both.2 ids stepped).mpr keeps⟩
  · exact loses ((routeStep_ids both.1 both.2 ids stepped).mp after)

/-! ### A route comes and goes -/

def insertDeleteRun : List RouteCall := [insertVxlanNhop 1, .delete (subnet24 1 7)]

/-- No object is left, and both ids are still outstanding. -/
theorem insertDeleteRun_leaks : ¬ Always routeStep ObjectIds .initial insertDeleteRun := by
  intro always
  obtain ⟨s, reached, ids⟩ := always.reaches
  have left : (run routeStep .initial insertDeleteRun).map (fun s =>
      (s.store.oids.card, Table.count (fun _ => True) s.store.nhops)) = some (1, 0) := by decide +kernel
  rw [reached, Option.map_some, Option.some.injEq, Prod.mk.injEq] at left
  have counted := ids.nhops.count
  omega

end Tao.Agent
