import Tao.Agent.NeighHistory
import Tao.Offload.SoftwarePath
import Tao.Offload.TunnelMirror
import Tao.Offload.VrfService

/-! # The agent as a virtual router

Taken together the tables of the agent are a router of its own for each VRF: a VNI leads to a VRF, the longest
prefix of the VRF to a next hop, and the gateway of the next hop to a MAC.  The callers of the agent can keep the
same router from their calls and the codes they got back, and the software path forwards as that router does when
the driver takes its entries. -/

namespace Tao.Offload

open Tao.Foundation Tao.Agent Tao.Hal

open SoftwarePath (packetPath DriverTakes)

/-! ## Calls and packets -/

def agentAnswer (duplicate : HalDuplicate) (s : AgentState) : AgentCall → Option (AgentState × Int)
  | .vrf (.vrfAdd vrfName) => some (ntbVrfAdd vrfName s)
  | .vrf (.vrfDel iterate vrfName) => (ntbVrfDel iterate vrfName s).map fun s => (s, 0)
  | .vrf (.tunnelMap env vrfName type id) => ntbTunnelMapVrf env vrfName type id s
  | .vrf (.tunnelUnmap accepts type id) => ntbTunnelUnmapVrf accepts type id s
  | .route call => (routeAnswer s.route call).map fun result => ({ s with route := result.1 }, result.2)
  | .rule env vni ipSrcAddr ipDstAddr flagOfAddDel =>
    shcSwTohwRule duplicate env vni ipSrcAddr ipDstAddr flagOfAddDel s

theorem agentAnswer_step (duplicate : HalDuplicate) (s : AgentState) (call : AgentCall) :
    agentStep duplicate s call = (agentAnswer duplicate s call).map Prod.fst := by
  cases call with
  | vrf call => cases call <;> simp [agentStep, vrfStep, agentAnswer, Option.map_map, Function.comp_def]
  | route call => simp [agentStep, agentAnswer, routeAnswer_step, Option.map_map, Function.comp_def]
  | rule => rfl

/-- What an agent meets: a call, or a packet on its software path with what the driver answers to it. -/
inductive AgentEvent where
  | call (call : AgentCall)
  | packet (env : RuleEnv) (pkt : VxlanPacket)

def eventAnswer (duplicate : HalDuplicate) (s : AgentState) : AgentEvent → Option (AgentState × Option Int)
  | .call call => (agentAnswer duplicate s call).map fun r => (r.1, some r.2)
  | .packet env pkt => (SoftwarePath.vxlanTunnelRcv duplicate env pkt s).map fun r => (r.1, none)

def eventStep (duplicate : HalDuplicate) (s : AgentState) : AgentEvent → Option AgentState
  | .call call => agentStep duplicate s call
  | .packet env pkt => (SoftwarePath.vxlanTunnelRcv duplicate env pkt s).map Prod.fst

theorem eventAnswer_step (duplicate : HalDuplicate) (s : AgentState) (event : AgentEvent) :
    eventStep duplicate s event = (eventAnswer duplicate s event).map Prod.fst := by
  cases event with
  | call call => rw [eventStep, agentAnswer_step, eventAnswer, Option.map_map]; rfl
  | packet env pkt => rw [eventStep, eventAnswer, Option.map_map]; rfl

/-! ## The router -/

structure VirtualRouter where
  vrfs : VrfBook
  tunnels : TunnelMapKey → Option CString
  routes : RouteMap
  macs : NeighMacs

namespace VirtualRouter

def empty : VirtualRouter := ⟨∅, fun _ => none, fun _ => none, fun _ => none⟩

/-- A VRF goes away with its routes and its tunnels. -/
def withoutVrf (router : VirtualRouter) (iterate : RteHashIterate) (vrfName : CString) : VirtualRouter :=
  match router.vrfs.lookup vrfName with
  | none => router
  | some record => { router with
      vrfs := router.vrfs.erase vrfName
      tunnels := fun key => if router.tunnels key = some vrfName then none else router.tunnels key
      routes := router.routes.told (.cleanup iterate (record.slot + 1), 0) }

/-- What a call with its return code tells about the router. -/
def told (router : VirtualRouter) : AgentCall × Int → VirtualRouter
  | (.vrf (.vrfAdd vrfName), _) => { router with vrfs := (router.vrfs.add vrfName).1 }
  | (.vrf (.vrfDel iterate vrfName), _) => router.withoutVrf iterate vrfName
  | (.vrf (.tunnelMap _ vrfName type id), ret) =>
    if ret = 0 then { router with tunnels := Function.update router.tunnels ⟨type, id⟩ (some vrfName) } else router
  | (.vrf (.tunnelUnmap _ type id), _) => { router with tunnels := Function.update router.tunnels ⟨type, id⟩ none }
  | (.route call, ret) => { router with routes := router.routes.told (call, ret), macs := router.macs.told (call, ret) }
  | (.rule .., _) => router

/-- A packet tells nothing. -/
def toldEvent (router : VirtualRouter) : AgentEvent × Option Int → VirtualRouter
  | (.call call, some ret) => router.told (call, ret)
  | _ => router

def ofTranscript (entries : List (AgentEvent × Option Int)) : VirtualRouter := entries.foldl toldEvent empty

/-- The destination MAC for a gateway; without a gateway it is that of the default gateway. -/
def dmac (router : VirtualRouter) (vrfId : VrfId) (gateway : Ip4) : Option EtherAddr :=
  if gateway = 0 then some defGwMac else router.macs ⟨vrfId, gateway⟩

/-- What a next hop of the VRF in a slot makes of a packet. -/
def rewrite (slot : Nat) (nhop : NtbNhopHashKey) (dmac : EtherAddr) : Rewrite :=
  ⟨dpVrfId slot, nhop.tunnelInfo.vxlanVni, nhop.tunnelInfo.vxlanLocal, nhop.tunnelInfo.vxlanRemote, dmac⟩

/-- The router has a VRF for the VNI, a route for the destination, which is the longest, and a MAC for the
    gateway of its next hop, which is reached through VXLAN. -/
def Forwards (router : VirtualRouter) (vni : BitVec 32) (dip : BitVec 32) (result : Rewrite) : Prop :=
  ∃ vrfName record pfx nhop dmac, router.tunnels ⟨.vxlan, vni⟩ = some vrfName ∧
    router.vrfs.lookup vrfName = some record ∧ router.routes.Longest (record.slot + 1) dip pfx ∧
    router.routes pfx = some ⟨nhop, .default⟩ ∧ nhop.tunnelInfo.type = .vxlan ∧
    router.dmac (record.slot + 1) nhop.gateway = some dmac ∧ result = rewrite record.slot nhop dmac

/-- The router has a VRF for the VNI, and no route of the VRF covers the destination. -/
def Unrouted (router : VirtualRouter) (vni : BitVec 32) (dip : BitVec 32) : Prop :=
  ∃ vrfName record, router.tunnels ⟨.vxlan, vni⟩ = some vrfName ∧ router.vrfs.lookup vrfName = some record ∧
    ∀ pfx, router.routes pfx ≠ none → pfx.vrfId = record.slot + 1 → ¬ pfx.Covers dip

end VirtualRouter

/-! ## Routes and neighbours -/

def OnlyBlackholeRejects (s : RouteState) : Prop :=
  ∀ id fRes, s.fibRes.lookup id = some fRes → fibResIsReject fRes = true → id = fResBlackhole

/-- The routes and the neighbours of the state are those of the router. -/
structure RoutesFollow (keys : List NtbRibKey) (owner : NtbNhopHashKey → VrfId) (s : RouteState) (routes : RouteMap)
    (macs : NeighMacs) : Prop where
  spelled : Spelled keys s
  supported : Supported owner s
  rejects : OnlyBlackholeRejects s
  installed : s.installed = routes
  resolved : s.store.neigh.macs = macs

/-- An insert of a key that may be inserted, into the VRF that owns the next hop. -/
structure InsertsOwned (keys : List NtbRibKey) (owner : NtbNhopHashKey → VrfId) (call : RouteCall) : Prop where
  listed : ∀ env pfx data ribType, call = .nhopInsert env pfx data ribType → pfx ∈ keys
  owned : call.OwnedBy owner

theorem fibResSingle_accepts (oid : Oid) (a : Addr) (ribType : RibType) :
    fibResIsReject (fibResSingle oid a ribType) = false := by
  cases ribType <;> simp [fibResIsReject, fibResSingle, fibResMdSet, frfReject, frfMroute]

theorem OnlyBlackholeRejects.inserted {env : RouteEnv} {pfx : NtbRibKey} {data : FibNhopEncapData} {ribType : RibType}
    {s s' : RouteState} (rejects : OnlyBlackholeRejects s) (inserted : Inserted env pfx data ribType s s') :
    OnlyBlackholeRejects s' := by
  intro id fRes used reject
  obtain ⟨_, new, a, oid, p, _, _, _, fibRes, _⟩ := inserted
  rw [fibRes, Table.lookup_insert_eq_some] at used
  rcases used with ⟨rfl, rfl⟩ | ⟨_, older⟩
  · rw [fibResSingle_accepts] at reject
    cases reject
  · exact rejects id fRes older reject

theorem OnlyBlackholeRejects.removed {pfx : NtbRibKey} {s s' : RouteState} (rejects : OnlyBlackholeRejects s)
    (removed : Removed pfx s s') : OnlyBlackholeRejects s' := by
  intro id fRes used
  obtain ⟨_, _, _, _, _, _, _, fibRes, _⟩ := removed
  rw [fibRes, Table.lookup_erase_eq_some] at used
  exact rejects id fRes used.2

theorem routeStep_rejects {s s' : RouteState} {call : RouteCall} (accounted : Accounted s)
    (rejects : OnlyBlackholeRejects s) (stepped : routeStep s call = some s') : OnlyBlackholeRejects s' := by
  obtain ⟨t, stepped', _, kept⟩ := routeStep_invariant OnlyBlackholeRejects call accounted
    (fits_of_defined accounted stepped) rejects (fun t same => by rw [OnlyBlackholeRejects, same.fibRes]; exact rejects)
    (fun env pfx data ribType t _ _ new => rejects.inserted new) (fun t u pfx _ rejects away => rejects.removed away)
    (fun _ _ _ _ _ => rejects)
  obtain rfl := Option.some.inj (stepped.symm.trans stepped')
  exact kept

theorem RoutesFollow.answered {keys : List NtbRibKey} {owner : NtbNhopHashKey → VrfId} {s s' : RouteState}
    {routes : RouteMap} {macs : NeighMacs} {call : RouteCall} {ret : Int} (follow : RoutesFollow keys owner s routes macs)
    (oneSpelling : OneSpelling keys) (obeys : InsertsOwned keys owner call) (answered : routeAnswer s call = some (s', ret)) :
    RoutesFollow keys owner s' (routes.told (call, ret)) (macs.told (call, ret)) := by
  have accounted := follow.spelled.accounted
  have stepped : routeStep s call = some s' := by rw [routeAnswer_step, answered, Option.map_some]
  obtain ⟨supported, resolved⟩ := routeAnswer_macs accounted follow.supported obeys.owned answered
  have installed := (routeAnswer_told s call s' ret accounted answered).2
  exact ⟨routeStep_spelled oneSpelling obeys.listed follow.spelled stepped, supported,
    routeStep_rejects accounted follow.rejects stepped, by rw [installed, follow.installed],
    by rw [resolved, follow.resolved]⟩

theorem RoutesFollow.recounted {keys : List NtbRibKey} {owner : NtbNhopHashKey → VrfId} {s : RouteState}
    {routes : RouteMap} {macs : NeighMacs} (follow : RoutesFollow keys owner s routes macs) {neighCnt : VrfId → Nat}
    (accounted : Accounted { s with store := { s.store with neigh := { s.store.neigh with neighCnt := neighCnt } } }) :
    RoutesFollow keys owner { s with store := { s.store with neigh := { s.store.neigh with neighCnt := neighCnt } } }
      routes macs :=
  ⟨⟨accounted, ⟨follow.spelled.agrees.route, follow.spelled.agrees.valid⟩, follow.spelled.listed⟩,
    ⟨follow.supported.owned, follow.supported.held⟩, follow.rejects, follow.installed, follow.resolved⟩

/-! ## The whole agent -/

def TunnelsFollow (s : AgentState) (router : VirtualRouter) : Prop :=
  ∀ key vrfName, router.tunnels key = some vrfName ↔ ∃ a record, s.vrfHashTbl.lookup key = some a ∧
    router.vrfs.lookup vrfName = some record ∧ s.tunnels.lookup a = some ⟨dpVrfId record.slot⟩

structure Follows (keys : List NtbRibKey) (owner : NtbNhopHashKey → VrfId) (s : AgentState) (router : VirtualRouter) :
    Prop where
  vrfs : Represents s router.vrfs
  nodes : TunnelNodes s
  store : TunnelStore s
  tunnels : TunnelsFollow s router
  routes : RoutesFollow keys owner s.route router.routes router.macs

section Calls

variable {keys : List NtbRibKey} {owner : NtbNhopHashKey → VrfId} {s s' : AgentState} {router : VirtualRouter}
  {vrfName : CString}

theorem ntbVrfAdd_keeps (vrfName : CString) (s : AgentState) :
    (ntbVrfAdd vrfName s).1.vrfHashTbl = s.vrfHashTbl ∧ (ntbVrfAdd vrfName s).1.tunnels = s.tunnels ∧
      ∃ neighCnt, (ntbVrfAdd vrfName s).1.route = { s.route with
        store := { s.route.store with neigh := { s.route.store.neigh with neighCnt := neighCnt } } } := by
  unfold ntbVrfAdd
  split
  · exact ⟨rfl, rfl, _, rfl⟩
  · split
    · exact ⟨rfl, rfl, _, rfl⟩
    · exact ⟨rfl, rfl, _, rfl⟩

theorem Follows.named (follows : Follows keys owner s router) {key : TunnelMapKey} {a : Addr}
    (held : s.vrfHashTbl.lookup key = some a) : ∃ vrfName record, router.vrfs.lookup vrfName = some record ∧
      s.tunnels.lookup a = some ⟨dpVrfId record.slot⟩ := by
  obtain ⟨i, inside, live, valid, _⟩ := follows.store.mapped key a held
  obtain ⟨vrfName, record, listed, rfl⟩ := follows.vrfs.listed i inside valid
  exact ⟨vrfName, record, listed, live⟩

theorem Represents.of_dpVrfId {book : VrfBook} (represents : Represents s book) {other : CString}
    {record otherRecord : VrfRecord} (held : book.lookup vrfName = some record)
    (otherHeld : book.lookup other = some otherRecord) (same : dpVrfId record.slot = dpVrfId otherRecord.slot) :
    vrfName = other :=
  represents.slot_injective held otherHeld
    (dpVrfId_injective (represents.valid held).1 (represents.valid otherHeld).1 same)

/-- A new VRF has no tunnels: those that are there lead to VRFs that were there. -/
theorem Follows.tunnels_added (follows : Follows keys owner s router) {record : VrfRecord}
    (absent : router.vrfs.lookup vrfName = none) (represents : Represents s' (router.vrfs.insert vrfName record))
    (vrfHashTbl : s'.vrfHashTbl = s.vrfHashTbl) (tunnels : s'.tunnels = s.tunnels) :
    TunnelsFollow s' { router with vrfs := router.vrfs.insert vrfName record } := by
  intro key other
  rw [vrfHashTbl, tunnels]
  refine (follows.tunnels key other).trans ⟨?_, ?_⟩
  · rintro ⟨a, otherRecord, held, listed, live⟩
    refine ⟨a, otherRecord, held, ?_, live⟩
    rw [Finmap.lookup_insert_of_ne _ (by rintro rfl; cases absent.symm.trans listed), listed]
  · rintro ⟨a, otherRecord, held, listed, live⟩
    obtain ⟨third, thirdRecord, there, live'⟩ := follows.named held
    have older : (router.vrfs.insert vrfName record).lookup third = some thirdRecord := by
      rw [Finmap.lookup_insert_of_ne _ (by rintro rfl; cases absent.symm.trans there), there]
    obtain rfl := represents.of_dpVrfId listed older
      (congrArg NtbTunnelInfo.vrfId (Option.some.inj (live.symm.trans live')))
    exact ⟨a, thirdRecord, held, there, live'⟩

theorem Follows.vrfAdd (follows : Follows keys owner s router) (fits : vrfName.Fits) :
    Follows keys owner (ntbVrfAdd vrfName s).1 { router with vrfs := (router.vrfs.add vrfName).1 } := by
  have represents := (follows.vrfs.vrfAdd fits).2
  obtain ⟨vrfHashTbl, tunnels, neighCnt, route⟩ := ntbVrfAdd_keeps vrfName s
  obtain ⟨t, stepped, nodes, store⟩ := @vrfStep_kept s (.vrfAdd vrfName) follows.nodes follows.store id
  obtain rfl := Option.some.inj stepped
  refine ⟨represents, nodes, store, ?_, ?_⟩
  · unfold VrfBook.add at represents ⊢
    split at represents
    next present =>
      rw [if_pos present]
      intro key other
      rw [vrfHashTbl, tunnels]
      exact follows.tunnels key other
    next absent =>
      rw [if_neg absent]
      cases free : router.vrfs.free with
      | none =>
        intro key other
        rw [vrfHashTbl, tunnels]
        exact follows.tunnels key other
      | some i =>
        simp only [free] at represents
        exact follows.tunnels_added (Finmap.lookup_eq_none.mpr absent) represents vrfHashTbl tunnels
  · have accounted := nodes.accounted
    rw [route] at accounted ⊢
    exact follows.routes.recounted accounted

theorem ntbVrfDel_cleaned {iterate : RteHashIterate} {i : Nat} (found : ntbVrfLookup vrfName s = some i)
    (deleted : ntbVrfDel iterate vrfName s = some s') :
    routeAnswer s.route (.cleanup iterate (i + 1)) = some (s'.route, 0) := by
  simp only [ntbVrfDel, found] at deleted
  obtain ⟨t, torn, rfl⟩ := Option.map_eq_some_iff.mp deleted
  unfold ntbVrfDpDtor at torn
  split at torn
  · cases torn
  next route cleaned =>
    obtain ⟨u, freed, rfl⟩ := Option.map_eq_some_iff.mp torn
    obtain ⟨rest, _, rfl⟩ := Option.map_eq_some_iff.mp freed
    rw [routeAnswer, cleaned]
    rfl

theorem Follows.vrfDel (follows : Follows keys owner s router) (oneSpelling : OneSpelling keys)
    {iterate : RteHashIterate} (kept : ¬ (VrfCall.vrfDel iterate vrfName).Releases s)
    (deleted : ntbVrfDel iterate vrfName s = some s') :
    Follows keys owner s' (router.withoutVrf iterate vrfName) := by
  have represents := follows.vrfs.vrfDel deleted
  have lookup := follows.vrfs.ntbVrfLookup_eq vrfName
  obtain ⟨t, stepped, nodes, store⟩ := vrfStep_kept follows.nodes follows.store kept
  obtain rfl := Option.some.inj (stepped.symm.trans deleted)
  unfold VirtualRouter.withoutVrf
  cases held : router.vrfs.lookup vrfName with
  | none =>
    rw [held, Option.map_none] at lookup
    rw [ntbVrfDel_absent iterate lookup] at deleted
    obtain rfl := Option.some.inj deleted
    exact follows
  | some record =>
    rw [held, Option.map_some] at lookup
    have gone := (ntbVrfDel_found iterate follows.nodes.accounted lookup).1 t deleted
    have empty : s.tunnelRmap record.slot = [] := by
      by_contra nonempty
      exact kept ⟨record.slot, lookup, nonempty⟩
    refine ⟨represents, nodes, store, fun key other => ?_, ?_⟩
    · dsimp only
      rw [gone.vrfHashTbl]
      simp only [gone.tunnels, empty, List.not_mem_nil, if_false, Table.lookup_erase_eq]
      by_cases same : other = vrfName
      · subst same
        refine iff_of_false ?_ ?_
        · split <;> simp_all
        · rintro ⟨_, _, _, impossible, _⟩
          rw [if_pos rfl] at impossible
          cases impossible
      · simp only [if_neg same, ← follows.tunnels key other]
        split
        next own => simp [own, Ne.symm same]
        next => rfl
    · have cleaned := ntbVrfDel_cleaned lookup deleted
      refine follows.routes.answered oneSpelling ⟨?_, ?_⟩ cleaned
      · exact fun _ _ _ _ => RouteCall.noConfusion
      · exact fun _ _ _ _ => RouteCall.noConfusion

/-- The map of a tunnel returns 0 when it is mapped to the VRF already, or when it is mapped now. -/
theorem ntbTunnelMapVrf_zero {env : TunnelEnv} {type : NtbTunnelType} {id : NtbTunnelId}
    (mapped : ntbTunnelMapVrf env vrfName type id s = some (s', 0)) : ∃ i, ntbVrfLookup vrfName s = some i ∧
      (s' = s ∧ (∃ a, s.vrfHashTbl.lookup ⟨type, id⟩ = some a ∧ s.tunnels.lookup a = some ⟨dpVrfId i⟩) ∨
        ∃ a, TunnelMapped ⟨type, id⟩ a i s s') := by
  rcases ntbTunnelMapVrf_cases env vrfName type id s with
    ⟨_, _, _, undefined⟩ | ⟨ret, kept⟩ | ⟨a, i, t, found, result, entered⟩
  · cases undefined.symm.trans mapped
  · obtain ⟨rfl, rfl⟩ := Prod.mk.inj (Option.some.inj (kept.symm.trans mapped))
    unfold ntbTunnelMapVrf at kept
    split at kept
    next =>
      have code : ntbVrfNotExist = 0 := congrArg Prod.snd (Option.some.inj kept)
      cases code
    next i found =>
      refine ⟨i, found, .inl ⟨rfl, ?_⟩⟩
      split at kept
      next a held =>
        split at kept
        next => cases kept
        next tunnelI live =>
          have code : (if tunnelI.vrfId ≠ dpVrfId i then ntbTunnelInused else 0) = 0 :=
            congrArg Prod.snd (Option.some.inj kept)
          refine ⟨a, held, ?_⟩
          by_cases same : tunnelI.vrfId = dpVrfId i
          · rw [live, ← same]
          · rw [if_pos same] at code
            cases code
      next =>
        split at kept
        next =>
          have code : ntbCommNomem = 0 := congrArg Prod.snd (Option.some.inj kept)
          cases code
        next a allocated =>
          split at kept
          next =>
            have code : ntbTunnelMapNospace = 0 := congrArg Prod.snd (Option.some.inj kept)
            cases code
          next =>
            -- a new node is another state
            have fresh := Finmap.lookup_eq_none.mpr (rteZmalloc_some.mp allocated).2
            have same : s.tunnels.insert a ⟨dpVrfId i⟩ = s.tunnels :=
              congrArg (AgentState.tunnels ∘ Prod.fst) (Option.some.inj kept)
            rw [← same, Finmap.lookup_insert] at fresh
            cases fresh
  · obtain ⟨rfl, _⟩ := Prod.mk.inj (Option.some.inj (result.symm.trans mapped))
    exact ⟨i, found, .inr ⟨a, entered⟩⟩

theorem Follows.tunnels_mapped (follows : Follows keys owner s router) {key : TunnelMapKey} {a : Addr} {i : Nat}
    (found : ntbVrfLookup vrfName s = some i) (entered : TunnelMapped key a i s s') :
    TunnelsFollow s' { router with tunnels := Function.update router.tunnels key (some vrfName) } := by
  obtain ⟨record, own, rfl⟩ := Option.map_eq_some_iff.mp ((follows.vrfs.ntbVrfLookup_eq vrfName).symm.trans found)
  have fresh := Finmap.lookup_eq_none.mpr entered.fresh
  intro other otherName
  dsimp only
  rw [entered.vrfHashTbl, entered.tunnels, Function.update_apply, Table.lookup_insert_eq]
  by_cases same : other = key
  · rw [if_pos same, if_pos same]
    constructor
    · rintro named
      obtain rfl := Option.some.inj named
      exact ⟨a, record, rfl, own, Finmap.lookup_insert _⟩
    · rintro ⟨b, otherRecord, held, listed, live⟩
      obtain rfl := Option.some.inj held
      rw [Finmap.lookup_insert] at live
      rw [follows.vrfs.of_dpVrfId own listed (congrArg NtbTunnelInfo.vrfId (Option.some.inj live))]
  · rw [if_neg same, if_neg same, follows.tunnels other otherName]
    -- the node of another key is not the new one
    have another {b : Addr} (held : s.vrfHashTbl.lookup other = some b) : b ≠ a := by
      rintro rfl
      obtain ⟨_, _, live, _⟩ := follows.store.mapped other b held
      cases fresh.symm.trans live
    constructor
    · rintro ⟨b, otherRecord, held, listed, live⟩
      exact ⟨b, otherRecord, held, listed, by rw [Finmap.lookup_insert_of_ne _ (another held), live]⟩
    · rintro ⟨b, otherRecord, held, listed, live⟩
      rw [Finmap.lookup_insert_of_ne _ (another held)] at live
      exact ⟨b, otherRecord, held, listed, live⟩

theorem Follows.tunnelMap (follows : Follows keys owner s router) {env : TunnelEnv} {type : NtbTunnelType}
    {id : NtbTunnelId} {ret : Int} (mapped : ntbTunnelMapVrf env vrfName type id s = some (s', ret)) :
    Follows keys owner s' (router.told (.vrf (.tunnelMap env vrfName type id), ret)) := by
  obtain ⟨t, stepped, nodes, store⟩ := @vrfStep_kept s (.tunnelMap env vrfName type id) follows.nodes
    follows.store (fun impossible => impossible)
  rw [vrfStep, mapped] at stepped
  obtain rfl := Option.some.inj stepped
  have represents := follows.vrfs.same (ntbTunnelMapVrf_sameVrfs mapped)
  rw [VirtualRouter.told]
  by_cases zero : ret = 0
  · subst zero
    rw [if_pos rfl]
    obtain ⟨i, found, ⟨rfl, a, held, live⟩ | ⟨a, entered⟩⟩ := ntbTunnelMapVrf_zero mapped
    · -- the tunnel is mapped to the VRF already
      obtain ⟨record, own, rfl⟩ := Option.map_eq_some_iff.mp ((follows.vrfs.ntbVrfLookup_eq vrfName).symm.trans found)
      have there := (follows.tunnels ⟨type, id⟩ vrfName).mpr ⟨a, record, held, own, live⟩
      rw [Function.update_eq_self_iff.mpr there.symm]
      exact follows
    · exact ⟨represents, nodes, store, follows.tunnels_mapped found entered, by rw [entered.route]; exact follows.routes⟩
  · rw [if_neg zero]
    rcases ntbTunnelMapVrf_cases env vrfName type id s with
      ⟨_, _, _, undefined⟩ | ⟨code, kept⟩ | ⟨a, i, u, _, result, _⟩
    · cases undefined.symm.trans mapped
    · obtain ⟨rfl, _⟩ := Prod.mk.inj (Option.some.inj (kept.symm.trans mapped))
      exact follows
    · exact absurd (Prod.mk.inj (Option.some.inj (result.symm.trans mapped))).2.symm zero

theorem Follows.tunnelUnmap (follows : Follows keys owner s router) {accepts : Bool} {type : NtbTunnelType}
    {id : NtbTunnelId} {ret : Int} (kept : ¬ (VrfCall.tunnelUnmap accepts type id).Releases s)
    (unmapped : ntbTunnelUnmapVrf accepts type id s = some (s', ret)) :
    Follows keys owner s' { router with tunnels := Function.update router.tunnels ⟨type, id⟩ none } := by
  have absent : s.vrfHashTbl.lookup ⟨type, id⟩ = none := Finmap.lookup_eq_none.mpr kept
  obtain ⟨rfl, _⟩ := Prod.mk.inj (Option.some.inj ((ntbTunnelUnmapVrf_absent accepts absent).symm.trans unmapped))
  have missing : router.tunnels ⟨type, id⟩ = none := by
    rw [Option.eq_none_iff_forall_ne_some]
    intro vrfName named
    obtain ⟨_, _, held, _⟩ := (follows.tunnels _ vrfName).mp named
    cases absent.symm.trans held
  rw [Function.update_eq_self_iff.mpr missing.symm]
  exact follows

theorem Follows.route (follows : Follows keys owner s router) (oneSpelling : OneSpelling keys) {call : RouteCall}
    {route : RouteState} {ret : Int} (obeys : InsertsOwned keys owner call)
    (answered : routeAnswer s.route call = some (route, ret)) :
    Follows keys owner { s with route := route } (router.told (.route call, ret)) := by
  have routes := follows.routes.answered oneSpelling obeys answered
  exact ⟨follows.vrfs.same (.of_eq rfl rfl), ⟨follows.nodes.owned, routes.spelled.accounted⟩,
    ⟨follows.store.mapped, follows.store.listed, follows.store.counted⟩, follows.tunnels, routes⟩

theorem Follows.rule (follows : Follows keys owner s router) (hw : HwTables) : Follows keys owner { s with hw := hw } router :=
  ⟨follows.vrfs.same (.of_eq rfl rfl), ⟨follows.nodes.owned, follows.nodes.accounted⟩,
    ⟨follows.store.mapped, follows.store.listed, follows.store.counted⟩, follows.tunnels, follows.routes⟩

/-- A call that releases no tunnel, adds a name that fits and inserts a route where it may. -/
def Orderly (keys : List NtbRibKey) (owner : NtbNhopHashKey → VrfId) (s : AgentState) : AgentCall → Prop
  | .vrf call => ¬ call.Releases s ∧ ∀ vrfName, call = .vrfAdd vrfName → vrfName.Fits
  | .route call => InsertsOwned keys owner call
  | .rule .. => True

theorem agentAnswer_followed {duplicate : HalDuplicate} (oneSpelling : OneSpelling keys) {call : AgentCall} {ret : Int}
    (follows : Follows keys owner s router) (orderly : Orderly keys owner s call)
    (answered : agentAnswer duplicate s call = some (s', ret)) : Follows keys owner s' (router.told (call, ret)) := by
  cases call with
  | vrf call =>
    cases call with
    | vrfAdd vrfName =>
      obtain ⟨rfl, _⟩ := Prod.mk.inj (Option.some.inj answered)
      exact follows.vrfAdd (orderly.2 vrfName rfl)
    | vrfDel iterate vrfName =>
      obtain ⟨t, deleted, same⟩ := Option.map_eq_some_iff.mp answered
      obtain ⟨rfl, _⟩ := Prod.mk.inj same
      exact follows.vrfDel oneSpelling orderly.1 deleted
    | tunnelMap env vrfName type id => exact follows.tunnelMap answered
    | tunnelUnmap accepts type id => exact follows.tunnelUnmap orderly.1 answered
  | route call =>
    obtain ⟨⟨route, code⟩, result, same⟩ := Option.map_eq_some_iff.mp answered
    obtain ⟨rfl, rfl⟩ := Prod.mk.inj same
    exact follows.route oneSpelling orderly result
  | rule env vni ipSrcAddr ipDstAddr flagOfAddDel =>
    have frame := shcSwTohwRule_frame answered
    dsimp only at frame
    rw [frame]
    exact follows.rule _

end Calls

/-! ## Forwarding -/

section Forwarding

variable {keys : List NtbRibKey} {owner : NtbNhopHashKey → VrfId} {s : AgentState} {router : VirtualRouter}

theorem Follows.tunnelSlot_iff (follows : Follows keys owner s router) {vni : BitVec 32} {i : Nat} :
    tunnelSlot vni s = some i ↔ ∃ vrfName record, router.tunnels ⟨.vxlan, vni⟩ = some vrfName ∧
      router.vrfs.lookup vrfName = some record ∧ record.slot = i := by
  constructor
  · intro found
    obtain ⟨a, held, live, valid⟩ := tunnelSlot_some found
    obtain ⟨vrfName, record, listed, live'⟩ := follows.named held
    refine ⟨vrfName, record, (follows.tunnels _ vrfName).mpr ⟨a, record, held, listed, live'⟩, listed, ?_⟩
    exact dpVrfId_injective (follows.vrfs.valid listed).1 (ntbVrfGetById_found valid).1
      (congrArg NtbTunnelInfo.vrfId (Option.some.inj (live'.symm.trans live)))
  · rintro ⟨vrfName, record, named, listed, rfl⟩
    obtain ⟨a, otherRecord, held, listed', live⟩ := (follows.tunnels _ vrfName).mp named
    obtain rfl := Option.some.inj (listed.symm.trans listed')
    obtain ⟨inside, valid⟩ := follows.vrfs.valid listed
    simp only [tunnelSlot, held, live, ntbVrfDpGetById_valid inside valid, Option.join_some]

theorem Follows.tunnelSlot_of_named (follows : Follows keys owner s router) {vni : BitVec 32} {vrfName : CString}
    {record : VrfRecord} (named : router.tunnels ⟨.vxlan, vni⟩ = some vrfName)
    (listed : router.vrfs.lookup vrfName = some record) : tunnelSlot vni s = some record.slot :=
  follows.tunnelSlot_iff.mpr ⟨vrfName, record, named, listed, rfl⟩

theorem innerDstMac_eq (i : Nat) (gateway : Ip4) (s : AgentState) :
    innerDstMac i gateway s = if gateway = 0 then some defGwMac else s.route.store.neigh.macs ⟨i + 1, gateway⟩ := by
  unfold innerDstMac neighFind OlNeighTable.macs
  split
  · rfl
  · cases s.route.store.neigh.hashTbl.lookup ⟨i + 1, gateway⟩ with
    | none => rfl
    | some nhop =>
      rw [Option.bind_some, OlNeighEntry.mac]
      cases valid : nhop.fArpValid <;> simp only [valid] <;> rfl

/-- What the software path does in the VRF of a slot. -/
def forwardIn (hash : Nat) (i : Nat) (dip : BitVec 32) (s : AgentState) : Option Rewrite :=
  match fibResLookup i dip s with
  | none => none
  | some fRes => if fibResIsReject fRes || fibResIsMroute fRes then none else ipForward hash i fRes s

theorem softwareForward_eq (hash : Nat) (vni : BitVec 32) (dstAddr : Ip4) (s : AgentState) :
    softwareForward hash vni dstAddr s =
      (tunnelSlot vni s).bind fun i => forwardIn hash i (rteBeToCpu32 dstAddr) s := by
  unfold softwareForward
  cases tunnelSlot vni s <;> rfl

/-- It forwards along the route that the destination is looked up to. -/
theorem forwardIn_iff (accounted : Accounted s.route) (rejects : OnlyBlackholeRejects s.route) {hash i : Nat}
    {dip : BitVec 32} {result : Rewrite} : forwardIn hash i dip s = some result ↔ ∃ nhop dmac,
      s.route.routeFor (i + 1) dip = some ⟨nhop, .default⟩ ∧ nhop.tunnelInfo.type = .vxlan ∧
        innerDstMac i nhop.gateway s = some dmac ∧ result = VirtualRouter.rewrite i nhop dmac := by
  unfold forwardIn RouteState.routeFor
  cases found : fibResLookup i dip s with
  | none =>
    rw [fibResLookup] at found
    simp [found]
  | some fRes =>
    rw [fibResLookup] at found
    rw [found, Option.bind_some, RouteState.routeOf]
    dsimp only
    cases rejected : fibResIsReject fRes with
    | true =>
      -- the blackhole has no next hop
      obtain ⟨blackhole, used, empty⟩ := accounted.blackhole
      rw [rejects _ fRes found rejected, used] at found
      obtain rfl := Option.some.inj found
      simp [empty]
    | false =>
      rw [Bool.false_or, ipForward, mpath_selected]
      cases next : fRes.mpath.head?.bind s.route.store.nhops.lookup with
      | none => simp
      | some fNhop =>
        have type : fibResRtypeGet fRes = .default ↔ fibResIsMroute fRes = false := by
          unfold fibResRtypeGet fibResIsMroute
          split <;> simp_all
        rw [Option.map_some]
        simp only [Option.some.injEq, InstalledRoute.mk.injEq, type]
        cases fibResIsMroute fRes with
        | true => simp
        | false =>
          by_cases vxlan : fNhop.tunnelInfo.type = .vxlan
          · simp only [vxlan, Bool.false_eq_true, if_false, ne_eq, not_true_eq_false, Option.map_eq_some_iff, and_true]
            constructor
            · rintro ⟨dmac, resolved, rfl⟩
              exact ⟨fNhop.key, dmac, rfl, vxlan, resolved, rfl⟩
            · rintro ⟨nhop, dmac, rfl, _, resolved, rfl⟩
              exact ⟨dmac, resolved, rfl⟩
          · simp only [vxlan, Bool.false_eq_true, if_false, ne_eq, not_false_eq_true, if_true, reduceCtorEq, false_iff,
              and_true]
            rintro ⟨nhop, dmac, rfl, vxlan', _⟩
            exact vxlan vxlan'

/-- The lookups of an agent that follows a router forward as the router does. -/
theorem Follows.forwards (follows : Follows keys owner s router) {hash : Nat} {vni : BitVec 32} {dstAddr : Ip4}
    {result : Rewrite} : softwareForward hash vni dstAddr s = some result ↔
      router.Forwards vni (rteBeToCpu32 dstAddr) result := by
  have accounted := follows.nodes.accounted
  have forwarded (i : Nat) : forwardIn hash i (rteBeToCpu32 dstAddr) s = some result ↔ ∃ pfx nhop dmac,
      router.routes.Longest (i + 1) (rteBeToCpu32 dstAddr) pfx ∧ router.routes pfx = some ⟨nhop, .default⟩ ∧
        nhop.tunnelInfo.type = .vxlan ∧ router.dmac (i + 1) nhop.gateway = some dmac ∧
        result = VirtualRouter.rewrite i nhop dmac := by
    have longest := (looksUpLongest accounted follows.routes.spelled.agrees (i + 1) (rteBeToCpu32 dstAddr)).found
    rw [forwardIn_iff accounted follows.routes.rejects]
    simp only [longest, innerDstMac_eq, follows.routes.resolved, follows.routes.installed, VirtualRouter.dmac]
    constructor
    · rintro ⟨nhop, dmac, ⟨pfx, longest, route⟩, vxlan, resolved, same⟩
      exact ⟨pfx, nhop, dmac, longest, route, vxlan, resolved, same⟩
    · rintro ⟨pfx, nhop, dmac, longest, route, vxlan, resolved, same⟩
      exact ⟨nhop, dmac, ⟨pfx, longest, route⟩, vxlan, resolved, same⟩
  rw [softwareForward_eq, Option.bind_eq_some_iff, VirtualRouter.Forwards]
  constructor
  · rintro ⟨i, slot, sent⟩
    obtain ⟨vrfName, record, named, listed, rfl⟩ := follows.tunnelSlot_iff.mp slot
    obtain ⟨pfx, nhop, dmac, rest⟩ := (forwarded record.slot).mp sent
    exact ⟨vrfName, record, pfx, nhop, dmac, named, listed, rest⟩
  · rintro ⟨vrfName, record, pfx, nhop, dmac, named, listed, rest⟩
    exact ⟨record.slot, follows.tunnelSlot_of_named named listed,
      (forwarded record.slot).mpr ⟨pfx, nhop, dmac, rest⟩⟩

/-- A packet that a VRF without a route for it is to forward has no defined outcome. -/
theorem Follows.undefined_iff (follows : Follows keys owner s router) {duplicate : HalDuplicate} {env : RuleEnv}
    {pkt : VxlanPacket} : SoftwarePath.vxlanTunnelRcv duplicate env pkt s = none ↔
      router.Unrouted pkt.vni (rteBeToCpu32 pkt.dstAddr) := by
  cases slot : tunnelSlot pkt.vni s with
  | none =>
    refine iff_of_false ?_ ?_
    · -- an unmapped VNI is dropped
      cases held : s.vrfHashTbl.lookup ⟨.vxlan, pkt.vni⟩ with
      | none => simp [SoftwarePath.vxlanTunnelRcv, ntbTunnelMapVrfLookup, held]
      | some a =>
        obtain ⟨vrfName, record, listed, live⟩ := follows.named held
        have named := (follows.tunnels _ vrfName).mpr ⟨a, record, held, listed, live⟩
        cases slot.symm.trans (follows.tunnelSlot_of_named named listed)
    · rintro ⟨vrfName, record, named, listed, _⟩
      cases slot.symm.trans (follows.tunnelSlot_of_named named listed)
  | some i =>
    have unrouted : packetPath pkt s = none ↔ s.route.routeFor (i + 1) (rteBeToCpu32 pkt.dstAddr) = none := by
      rw [SoftwarePath.packetPath_of_slot slot, Option.map_eq_none_iff, RouteState.routeFor, fibResLookup]
      simp only [Option.bind_eq_none_iff, RouteState.routeOf, mpathFirst, Option.map_eq_none_iff]
    rw [SoftwarePath.vxlanTunnelRcv_undefined slot, unrouted,
      (looksUpLongest follows.nodes.accounted follows.routes.spelled.agrees _ _).missing, follows.routes.installed]
    constructor
    · intro uncovered
      obtain ⟨vrfName, record, named, listed, rfl⟩ := follows.tunnelSlot_iff.mp slot
      exact ⟨vrfName, record, named, listed, uncovered⟩
    · rintro ⟨vrfName, record, named, listed, uncovered⟩
      obtain rfl := Option.some.inj (slot.symm.trans (follows.tunnelSlot_of_named named listed))
      exact uncovered

end Forwarding

/-! ## Runs -/

def calledIn (events : List AgentEvent) : List AgentCall :=
  events.filterMap fun
    | .call call => some call
    | .packet .. => none

def routeCalls (calls : List AgentCall) : List RouteCall :=
  calls.filterMap fun
    | .route call => some call
    | _ => none

/-- The calls write no prefix in two ways and insert no next hop with a gateway into two VRFs, and the names of
    their VRFs fit. -/
structure WellFormed (calls : List AgentCall) : Prop where
  fit : ∀ vrfName, .vrf (.vrfAdd vrfName) ∈ calls → vrfName.Fits
  oneSpelling : OneSpelling (insertedKeys (routeCalls calls))
  oneVrf : OneVrfEach (insertedNhops (routeCalls calls))

def KeepsTunnels (s : AgentState) : AgentEvent → Prop
  | .call (.vrf call) => ¬ call.Releases s
  | _ => True

theorem initial_follows (keys : List NtbRibKey) (owner : NtbNhopHashKey → VrfId) :
    Follows keys owner .initial VirtualRouter.empty where
  vrfs := represents_initial
  nodes := AgentState.initial_tunnelNodes
  store := AgentState.initial_tunnelStore
  tunnels := by
    intro key vrfName
    refine iff_of_false (by simp [VirtualRouter.empty]) ?_
    rintro ⟨_, _, held, _⟩
    cases held
  routes := {
    spelled := ⟨RouteState.initial_accounted, RouteState.initial_fibAgrees, fun pfx id listed => by cases listed⟩
    supported := initial_supported owner
    rejects := by
      intro id fRes used _
      rcases Table.lookup_insert_eq_some.mp used with ⟨blackhole, _⟩ | ⟨_, older⟩
      · exact blackhole
      · cases older
    installed := funext fun _ => installed_of_absent rfl
    resolved := rfl }

theorem eventAnswer_followed {keys : List NtbRibKey} {owner : NtbNhopHashKey → VrfId} {duplicate : HalDuplicate}
    (oneSpelling : OneSpelling keys) {s s' : AgentState} {router : VirtualRouter} {event : AgentEvent}
    {answer : Option Int} (follows : Follows keys owner s router)
    (orderly : ∀ call, event = .call call → Orderly keys owner s call)
    (answered : eventAnswer duplicate s event = some (s', answer)) :
    Follows keys owner s' (router.toldEvent (event, answer)) := by
  cases event with
  | call call =>
    obtain ⟨r, called, same⟩ := Option.map_eq_some_iff.mp answered
    obtain ⟨rfl, rfl⟩ := Prod.mk.inj same
    exact agentAnswer_followed oneSpelling follows (orderly call rfl) called
  | packet env pkt =>
    obtain ⟨r, received, same⟩ := Option.map_eq_some_iff.mp answered
    obtain ⟨rfl, _⟩ := Prod.mk.inj same
    rw [SoftwarePath.vxlanTunnelRcv_frame received]
    exact follows.rule _

/-- In every run that releases no tunnel, packets of the software path included, the outcome of a packet is
    undefined exactly when the router that the callers know has a VRF for it and no route, and it is sent exactly
    when that router forwards it and the driver takes its entries, and then as the router does. -/
theorem forwards_as_told (duplicate : HalDuplicate) (events : List AgentEvent) (s : AgentState)
    (entries : List (AgentEvent × Option Int)) (wellFormed : WellFormed (calledIn events))
    (kept : Guarded (eventStep duplicate) KeepsTunnels .initial events)
    (reached : transcript (eventAnswer duplicate) .initial events = some (s, entries)) (env : RuleEnv)
    (pkt : VxlanPacket) :
    (SoftwarePath.vxlanTunnelRcv duplicate env pkt s = none ↔
      (VirtualRouter.ofTranscript entries).Unrouted pkt.vni (rteBeToCpu32 pkt.dstAddr)) ∧
    ∀ result, (∃ s', SoftwarePath.vxlanTunnelRcv duplicate env pkt s = some (s', some result)) ↔
      (VirtualRouter.ofTranscript entries).Forwards pkt.vni (rteBeToCpu32 pkt.dstAddr) result ∧
        ∃ p, packetPath pkt s = some p ∧ DriverTakes duplicate env pkt p s s.hw := by
  obtain ⟨owner, owned⟩ := wellFormed.oneVrf.owner
  have permitted : ∀ event ∈ events, ∀ call, event = .call call →
      (∀ vrfName, call = .vrf (.vrfAdd vrfName) → vrfName.Fits) ∧
      ∀ routeCall, call = .route routeCall →
        InsertsOwned (insertedKeys (routeCalls (calledIn events))) owner routeCall := by
    rintro _ member call rfl
    have called : call ∈ calledIn events := List.mem_filterMap.mpr ⟨_, member, rfl⟩
    refine ⟨?_, ?_⟩
    · rintro vrfName rfl
      exact wellFormed.fit vrfName called
    · rintro routeCall rfl
      have routed : routeCall ∈ routeCalls (calledIn events) := List.mem_filterMap.mpr ⟨_, called, rfl⟩
      refine ⟨?_, owned routeCall routed⟩
      rintro env pfx data ribType rfl
      exact List.mem_filterMap.mpr ⟨_, routed, rfl⟩
  have orderly := (kept.and_of_mem permitted).imp fun s event both =>
    show ∀ call, event = .call call → Orderly (insertedKeys (routeCalls (calledIn events))) owner s call by
      rintro call rfl
      obtain ⟨fits, inserts⟩ := both.2 call rfl
      cases call with
      | vrf call => exact ⟨both.1, fun vrfName same => fits vrfName (congrArg AgentCall.vrf same)⟩
      | route call => exact inserts call rfl
      | rule => trivial
  have followed := transcript_told (eventAnswer_step duplicate)
    (fun _ _ _ _ _ follows orderly answered =>
      eventAnswer_followed wellFormed.oneSpelling follows orderly answered)
    (initial_follows _ owner) orderly reached
  refine ⟨followed.undefined_iff, fun result => ?_⟩
  rw [SoftwarePath.vxlanTunnelRcv_sent, followed.forwards]
  rfl

-- The second of two VRFs has a tunnel, a neighbour and a route, and loses a packet whose route entry is refused; a
-- delete in the first one finds no route.
def twoVrfs : List AgentEvent :=
  [.call (.vrf (.vrfAdd redVrf)), .call (.vrf (.vrfAdd blueVrf)),
    .call (.vrf (.tunnelMap ⟨some 1, true⟩ blueVrf .vxlan 100)),
    .call (.route (.neighAddStatic ⟨true, true, .ok 0⟩ 2 0x0101010a 0x020000000007)),
    .call (.route (insertVxlanNhop 2)), .packet { RuleEnv.accepts with route := false } ⟨100, 0, 0x0907000a, 0⟩,
    .call (.vrf (.tunnelMap ⟨some 2, true⟩ redVrf .vxlan 200)), .call (.route (.delete (subnet24 1 7)))]

theorem twoVrfs_wellFormed : WellFormed (calledIn twoVrfs) where
  fit := by
    intro vrfName member
    have added : vrfName = redVrf ∨ vrfName = blueVrf := by simpa [twoVrfs, calledIn] using member
    rcases added with rfl | rfl <;> exact .inl (by decide)
  oneSpelling := by unfold OneSpelling; decide +kernel
  oneVrf := by unfold OneVrfEach; decide +kernel

theorem twoVrfs_kept : Guarded (eventStep .refused) KeepsTunnels .initial twoVrfs := by
  refine guarded_of_mem (fun s event member => ?_) _
  simp only [twoVrfs, List.mem_cons, List.not_mem_nil, or_false] at member
  rcases member with rfl | rfl | rfl | rfl | rfl | rfl | rfl | rfl <;> simp [KeepsTunnels, VrfCall.Releases]

/-- The next packet of VNI 100 is sent through the second VRF; one of VNI 200 finds no route in the first. -/
theorem twoVrfs_forwarded : ∃ s entries, transcript (eventAnswer .refused) .initial twoVrfs = some (s, entries) ∧
    (∃ s', SoftwarePath.vxlanTunnelRcv .refused .accepts ⟨100, 0, 0x0907000a, 0⟩ s =
      some (s', some ⟨2, 100, 0x0100a8c0, 0x0200a8c0, 0x020000000007⟩)) ∧
    (VirtualRouter.ofTranscript entries).Forwards 100 0x0a000709
      ⟨2, 100, 0x0100a8c0, 0x0200a8c0, 0x020000000007⟩ ∧
    SoftwarePath.vxlanTunnelRcv .refused .accepts ⟨200, 0, 0x0907000a, 0⟩ s = none ∧
    (VirtualRouter.ofTranscript entries).Unrouted 200 0x0a000709 := by
  obtain ⟨s, reached⟩ := @transcript_of_answers _ _ _ (eventAnswer .refused) .initial twoVrfs
    [some 0, some 0, some 0, some 0, some 0, none, some 0, some (-39)] (by decide +kernel)
  have outcomes : (transcript (eventAnswer .refused) .initial twoVrfs).map (fun r =>
      ((SoftwarePath.vxlanTunnelRcv .refused .accepts ⟨100, 0, 0x0907000a, 0⟩ r.1).map Prod.snd,
        (SoftwarePath.vxlanTunnelRcv .refused .accepts ⟨200, 0, 0x0907000a, 0⟩ r.1).map Prod.snd)) =
      some (some (some ⟨2, 100, 0x0100a8c0, 0x0200a8c0, 0x020000000007⟩), none) := by decide +kernel
  rw [reached, Option.map_some, Option.some.injEq, Prod.mk.injEq] at outcomes
  obtain ⟨⟨s', sent⟩, forwarded, rfl⟩ := Option.map_eq_some_iff.mp outcomes.1
  have undefined := Option.map_eq_none_iff.mp outcomes.2
  have told := forwards_as_told .refused twoVrfs s _ twoVrfs_wellFormed twoVrfs_kept reached .accepts
  exact ⟨s, _, reached, ⟨s', forwarded⟩, (((told ⟨100, 0, 0x0907000a, 0⟩).2 _).mp ⟨s', forwarded⟩).1, undefined,
    (told ⟨200, 0, 0x0907000a, 0⟩).1.mp undefined⟩

end Tao.Offload
