import Tao.Offload.Chain

/-! # Offloaded and software forwarding

The data plane follows the four tables; the software path (`vxlan_tunnel_rcv`,
`ol_ip_rcv`, `ip_forward` of `pmd.c`) looks the packet up itself.  The hardware chain
of a rule does what the software does only in a corner case, since the rule looks
tunnel 0 up whatever its VNI is and writes constants into the next hop entry. -/

namespace Tao.Offload

open Tao.Foundation Tao.Agent Tao.Hal

/-- What a forwarded packet is given: its VRF, the VNI and the addresses of the outer header, as they
    lie in the packet, and the inner destination MAC. -/
structure Rewrite where
  vrf : BitVec 32
  vni : BitVec 24
  loc : Ip4
  remote : Ip4
  dmac : EtherAddr
  deriving DecidableEq

/-- How the data plane takes the two addresses of a next hop entry: as they lie in memory, or as
    numbers, like those of a route entry.  The driver of that table is not part of the repository. -/
inductive HalAddrOrder where
  | memory
  | number
  deriving DecidableEq

def HalAddrOrder.packet : HalAddrOrder → BitVec 32 → Ip4
  | .memory, address => address
  | .number, address => rteBeToCpu32 address

/-- `tunnel_map_vrf_tbl`, `route_tbl`, `nhop_tbl` and `neigh_tbl`, each on what the one before it set. -/
def hwForward (order : HalAddrOrder) (hw : HwTables) (vni : BitVec 32) (srcAddr dstAddr : Ip4) : Option Rewrite :=
  match hw.tunnelMapVrf.lookup ⟨.vxlan, vni⟩ with
  | none => none
  | some tunnel =>
    match hw.route.lookup ⟨tunnel.vrf, rteBeToCpu32 srcAddr, rteBeToCpu32 dstAddr⟩ with
    | none => none
    | some route =>
      match hw.nhop.lookup ⟨route.nhopId⟩ with
      | none => none
      | some nhop =>
        match hw.neigh.lookup ⟨nhop.neighId⟩ with
        | none => none
        | some neigh =>
          some ⟨tunnel.vrf, nhop.tunnelKey.setWidth 24, order.packet nhop.loc,
            order.packet nhop.remote, neigh.dmac⟩

/-! ## The software path -/

def fibResIsReject (fRes : FibRes) : Bool := fRes.frFlags &&& frfReject ≠ 0

def fibResIsMroute (fRes : FibRes) : Bool := fRes.frFlags &&& frfMroute ≠ 0

def fibResSelectMpath (fRes : FibRes) (hash : Nat) : Nat :=
  if 0 < fRes.mpathCnt then hash % fRes.mpathCnt else 0

def innerDstMac (i : Nat) (gateway : Ip4) (s : AgentState) : Option EtherAddr :=
  if gateway = 0 then some defGwMac
  else
    match neighFind i gateway s with
    | .error _ => none
    | .ok nhop => some nhop.hh.dAddr

/-- What `ip_forward` records when the driver takes its neighbour entry.  For a next hop that is not VXLAN it
    records nothing. -/
def ipForward (hash : Nat) (i : Nat) (fRes : FibRes) (s : AgentState) : Option Rewrite :=
  match (fRes.mpath[fibResSelectMpath fRes hash]?).bind s.route.store.nhops.lookup with
  | none => none
  | some fNhop =>
    if fNhop.tunnelInfo.type ≠ .vxlan then none
    else
      (innerDstMac i fNhop.gateway s).map fun dmac =>
        ⟨dpVrfId i, fNhop.tunnelInfo.vxlanVni, fNhop.tunnelInfo.vxlanLocal, fNhop.tunnelInfo.vxlanRemote, dmac⟩

/-- What the lookups of the software path give a packet with an RSS hash.  The entries that they write to the
    hardware, which have to be taken, are left out; `none` is a packet that is dropped, and also one without a
    route, on which the source dereferences a null `mpath[0]`.  A multicast route goes to `ip_forward_m`, which
    records no rewrite. -/
def softwareForward (hash : Nat) (vni : BitVec 32) (dstAddr : Ip4) (s : AgentState) : Option Rewrite :=
  match tunnelSlot vni s with
  | none => none
  | some i =>
    match fibResLookup i (rteBeToCpu32 dstAddr) s with
    | none => none
    | some fRes => if fibResIsReject fRes || fibResIsMroute fRes then none else ipForward hash i fRes s

/-! ## The chain of a rule -/

/-- When the add of a flow returns 0, the chain that it wrote gives the packet what the software path
    would give it. -/
def HardwareRefines (order : HalAddrOrder) (duplicate : HalDuplicate) (env : RuleEnv) (hash : Nat) (flow : Flow)
    (s : AgentState) : Prop :=
  ∀ rewrite s' p nhop, softwareForward hash flow.vni flow.ipDstAddr s = some rewrite →
    shcSwTohwRule duplicate env flow.vni flow.ipSrcAddr flow.ipDstAddr 0 s = some (s', 0) →
    rulePath flow.ipDstAddr s = some p → p.neigh s = .ok nhop →
    hwForward order (s'.hw.only (ruleChain flow.ipSrcAddr flow.ipDstAddr p nhop)) flow.vni flow.ipSrcAddr
      flow.ipDstAddr = some rewrite

/-- After the add the tunnel entry leads to the VRF of the path: the driver accepts it, or it is there
    already. -/
def TunnelEntered (duplicate : HalDuplicate) (env : RuleEnv) (p : RulePath) (hw : HwTables) : Prop :=
  HalAdds duplicate env.tunnel hw.tunnelMapVrf RulePath.tunnelKey ∨
    hw.tunnelMapVrf.lookup RulePath.tunnelKey = some ⟨dpVrfId p.slot⟩

/-- What the constants and the fixed tunnel of a rule have to agree with. -/
structure ConstantsAgree (order : HalAddrOrder) (duplicate : HalDuplicate) (env : RuleEnv) (flow : Flow)
    (s : AgentState) (p : RulePath) (nhop : OlNeighEntry) : Prop where
  vni : flow.vni = 0
  tunnel : TunnelEntered duplicate env p s.hw
  tunnelKey : p.fNhop.tunnelInfo.vxlanVni = 11
  loc : p.fNhop.tunnelInfo.vxlanLocal = order.packet 0xD00001
  remote : order.packet p.fNhop.tunnelInfo.vxlanRemote = p.fNhop.tunnelInfo.vxlanRemote
  -- The next hop names the neighbour by the id that the neighbour has.
  neighOid : p.fNhop.neighOid = nhop.neighOid
  -- The software path has no neighbour for gateway 0.
  gateway : p.fNhop.gateway = 0 → nhop.hh.dAddr = defGwMac

/-- The software path would forward the packet, the flow can be offloaded, and what the rule writes
    agrees. -/
def RuleAgrees (order : HalAddrOrder) (duplicate : HalDuplicate) (env : RuleEnv) (hash : Nat) (flow : Flow)
    (s : AgentState) : Prop :=
  ∀ p nhop, (softwareForward hash flow.vni flow.ipDstAddr s).isSome →
    OffloadsAlong duplicate env flow s p nhop →
    ConstantsAgree order duplicate env flow s p nhop

variable {order : HalAddrOrder} {duplicate : HalDuplicate} {env : RuleEnv} {flow : Flow} {s : AgentState}
  {p : RulePath} {nhop : OlNeighEntry}

/-- One slot of `mpath[]` leaves nothing to select. -/
theorem mpath_selected (fRes : FibRes) (hash : Nat) :
    fRes.mpath[fibResSelectMpath fRes hash]? = fRes.mpath.head? := by
  have fits := fRes.mpathFits
  have index : fibResSelectMpath fRes hash = 0 := by
    unfold fibResSelectMpath
    split
    next used =>
      have one : fRes.mpathCnt = 1 := by
        rw [routeMaxEcmp] at fits
        rw [FibRes.mpathCnt] at used ⊢
        omega
      rw [one, Nat.mod_one]
    next => rfl
  rw [index, List.head?_eq_getElem?]

theorem hwForward_eq_some {hw : HwTables} {vni : BitVec 32} {srcAddr dstAddr : Ip4} {rewrite : Rewrite} :
    hwForward order hw vni srcAddr dstAddr = some rewrite ↔ ∃ vrf nhopId data dmac,
      hw.tunnelMapVrf.lookup ⟨.vxlan, vni⟩ = some ⟨vrf⟩ ∧
      hw.route.lookup ⟨vrf, rteBeToCpu32 srcAddr, rteBeToCpu32 dstAddr⟩ = some ⟨nhopId⟩ ∧
      hw.nhop.lookup ⟨nhopId⟩ = some data ∧ hw.neigh.lookup ⟨data.neighId⟩ = some ⟨dmac⟩ ∧
      rewrite = ⟨vrf, data.tunnelKey.setWidth 24, order.packet data.loc, order.packet data.remote, dmac⟩ := by
  constructor
  · intro found
    unfold hwForward at found
    split at found
    next => cases found
    next tunnel mapped =>
      split at found
      next => cases found
      next route routed =>
        split at found
        next => cases found
        next data held =>
          split at found
          next => cases found
          next neigh known =>
            exact ⟨tunnel.vrf, route.nhopId, data, neigh.dmac, mapped, routed, held, known,
              (Option.some.inj found).symm⟩
  · rintro ⟨vrf, nhopId, data, dmac, mapped, routed, held, known, rfl⟩
    simp only [hwForward, mapped, routed, held, known]

/-! ### The chain of a flow that was offloaded, table by table -/

theorem chain_tunnel {vni vrf : BitVec 32} :
    ((offloaded duplicate env flow p nhop s).hw.only (ruleChain flow.ipSrcAddr flow.ipDstAddr p nhop)).tunnelMapVrf.lookup
      ⟨.vxlan, vni⟩ = some ⟨vrf⟩ ∧ vrf = dpVrfId p.slot ↔
    vni = 0 ∧ TunnelEntered duplicate env p s.hw ∧ vrf = dpVrfId p.slot := by
  have key : (⟨.vxlan, vni⟩ : HalTunnelMapVrfKey) = RulePath.tunnelKey ↔ vni = 0 := by
    simp [RulePath.tunnelKey]
  simp only [HwTables.only, ruleChain, Table.lookup_only, key, offloaded, addNeigh, addNhop, addRoute,
    addTunnel_tunnelMapVrf, TunnelEntered]
  by_cases zero : vni = 0
  · by_cases adds : HalAdds duplicate env.tunnel s.hw.tunnelMapVrf RulePath.tunnelKey
    · simp [zero, adds, eq_comm]
    · simp only [zero, adds, if_true, if_false, false_or, true_and]
      constructor
      · rintro ⟨entered, rfl⟩; exact ⟨entered, rfl⟩
      · rintro ⟨entered, rfl⟩; exact ⟨entered, rfl⟩
  · simp only [zero, if_false, reduceCtorEq, false_and]

theorem chain_route (vrf : BitVec 32) :
    ((offloaded duplicate env flow p nhop s).hw.only (ruleChain flow.ipSrcAddr flow.ipDstAddr p nhop)).route.lookup
      ⟨vrf, rteBeToCpu32 flow.ipSrcAddr, rteBeToCpu32 flow.ipDstAddr⟩ =
    if vrf = dpVrfId p.slot then some ⟨p.fNhop.nhOid⟩ else none := by
  simp [HwTables.only, ruleChain, Table.lookup_only, RulePath.routeKey, offloaded, addNeigh, addNhop, addRoute]

theorem chain_nhop :
    ((offloaded duplicate env flow p nhop s).hw.only (ruleChain flow.ipSrcAddr flow.ipDstAddr p nhop)).nhop.lookup
      ⟨p.fNhop.nhOid⟩ = some (RulePath.nhopData p.fNhop) := by
  simp [HwTables.only, ruleChain, Table.lookup_only, offloaded, addNeigh, addNhop]

theorem chain_neigh (neighId : Oid) :
    ((offloaded duplicate env flow p nhop s).hw.only (ruleChain flow.ipSrcAddr flow.ipDstAddr p nhop)).neigh.lookup
      ⟨neighId⟩ = if neighId = nhop.neighOid then some ⟨nhop.hh.dAddr⟩ else none := by
  simp [HwTables.only, ruleChain, Table.lookup_only, offloaded, addNeigh]

/-- The data plane finds the chain of a rule under tunnel 0 only. -/
theorem hwForward_chain {rewrite : Rewrite} :
    hwForward order ((offloaded duplicate env flow p nhop s).hw.only
      (ruleChain flow.ipSrcAddr flow.ipDstAddr p nhop)) flow.vni flow.ipSrcAddr flow.ipDstAddr = some rewrite ↔
    flow.vni = 0 ∧ TunnelEntered duplicate env p s.hw ∧ p.fNhop.neighOid = nhop.neighOid ∧
      rewrite = ⟨dpVrfId p.slot, 11, order.packet 0xD00001, order.packet p.fNhop.tunnelInfo.vxlanRemote,
        nhop.hh.dAddr⟩ := by
  rw [hwForward_eq_some]
  constructor
  · rintro ⟨vrf, nhopId, data, dmac, mapped, routed, held, known, rfl⟩
    rw [chain_route] at routed
    split at routed
    next own =>
      obtain rfl := HalRouteData.mk.inj (Option.some.inj routed)
      rw [chain_nhop] at held
      obtain rfl := Option.some.inj held
      rw [chain_neigh] at known
      split at known
      next neighOid =>
        obtain rfl := HalNeighData.mk.inj (Option.some.inj known)
        -- the packet left the tunnel table in the VRF whose route entry the chain has
        obtain ⟨zero, entered, rfl⟩ := chain_tunnel.mp ⟨mapped, own⟩
        exact ⟨zero, entered, neighOid, rfl⟩
      next => cases known
    next => cases routed
  · rintro ⟨zero, entered, neighOid, rfl⟩
    obtain ⟨mapped, _⟩ := chain_tunnel.mpr ⟨zero, entered, rfl⟩
    refine ⟨dpVrfId p.slot, p.fNhop.nhOid, RulePath.nhopData p.fNhop, nhop.hh.dAddr, mapped, ?_,
      chain_nhop, ?_, rfl⟩
    · rw [chain_route, if_pos rfl]
    · rw [chain_neigh]
      exact if_pos neighOid

theorem softwareForward_zero {hash : Nat} {dstAddr : Ip4} {rewrite : Rewrite}
    (path : rulePath dstAddr s = some p) (neighbour : p.neigh s = .ok nhop)
    (forwards : softwareForward hash 0 dstAddr s = some rewrite) :
    rewrite = ⟨dpVrfId p.slot, p.fNhop.tunnelInfo.vxlanVni, p.fNhop.tunnelInfo.vxlanLocal,
      p.fNhop.tunnelInfo.vxlanRemote, if p.fNhop.gateway = 0 then defGwMac else nhop.hh.dAddr⟩ := by
  obtain ⟨fRes, slot, result, first⟩ := rulePath_some path
  simp only [softwareForward, slot, result] at forwards
  split at forwards
  next => cases forwards
  next =>
    rw [mpathFirst] at first
    rw [RulePath.neigh] at neighbour
    simp only [ipForward, mpath_selected, first] at forwards
    split at forwards
    next => cases forwards
    next =>
      obtain ⟨dmac, inner, rfl⟩ := Option.map_eq_some_iff.mp forwards
      -- the neighbour is the one that the rule looks up too
      unfold innerDstMac at inner
      split at inner
      next zero => rw [if_pos zero, Option.some.inj inner]
      next nonzero =>
        rw [neighbour] at inner
        rw [if_neg nonzero, ← Option.some.inj inner]

/-- The chain of a rule does what the software path does exactly when the flow is one of tunnel 0, the
    tunnel entry is in place, and the constants written are those of the next hop. -/
theorem hardwareRefines_iff (order : HalAddrOrder) (duplicate : HalDuplicate) (env : RuleEnv) (hash : Nat)
    (flow : Flow) (s : AgentState) :
    HardwareRefines order duplicate env hash flow s ↔ RuleAgrees order duplicate env hash flow s := by
  constructor
  · intro refines p nhop forwards along
    obtain ⟨rewrite, software⟩ := Option.isSome_iff_exists.mp forwards
    have hardware := refines rewrite _ p nhop software (ruleAdd_zero_iff.mpr ⟨p, nhop, along, rfl⟩) along.path
      along.neighbour
    obtain ⟨zero, entered, neighOid, same⟩ := hwForward_chain.mp hardware
    rw [zero] at software
    rw [softwareForward_zero along.path along.neighbour software] at same
    -- the two rewrites agree field by field
    obtain ⟨_, tunnelKey, loc, remote, dmac⟩ := Rewrite.mk.inj same
    refine ⟨zero, entered, tunnelKey, loc, remote.symm, neighOid, fun gateway => ?_⟩
    rw [if_pos gateway] at dmac
    exact dmac.symm
  · intro agrees rewrite s' p nhop software success path neighbour
    obtain ⟨p', nhop', along, rfl⟩ := ruleAdd_zero_iff.mp success
    obtain rfl := Option.some.inj (path.symm.trans along.path)
    obtain rfl := Except.ok.inj (neighbour.symm.trans along.neighbour)
    obtain ⟨zero, entered, tunnelKey, loc, remote, neighOid, gateway⟩ :=
      agrees p nhop (Option.isSome_iff_exists.mpr ⟨rewrite, software⟩) along
    refine hwForward_chain.mpr ⟨zero, entered, neighOid, ?_⟩
    rw [zero] at software
    rw [softwareForward_zero path neighbour software, tunnelKey, loc, remote]
    split
    next unset => rw [gateway unset]
    next => rfl

/-- A flow of VNI 100: the rule returns 0, and the data plane finds no chain under VNI 100. -/
theorem vni100_not_refined : run (agentStep .refused) .initial twoRoutes = some twoRoutesState ∧
    ¬ HardwareRefines .number .refused .accepts 0 (flowTo 1 7) twoRoutesState := by
  refine ⟨twoRoutes_reached, fun refines => ?_⟩
  have software : softwareForward 0 (flowTo 1 7).vni (flowTo 1 7).ipDstAddr twoRoutesState =
      some ⟨1, 100, 0x0100a8c0, 0x0200a8c0, 0x020000000001⟩ := by decide +kernel
  have success : shcSwTohwRule .refused .accepts (flowTo 1 7).vni (flowTo 1 7).ipSrcAddr (flowTo 1 7).ipDstAddr 0
      twoRoutesState = some (_, 0) := addedState_reached (flowTo 1 7) twoRoutesState (by decide +kernel)
  obtain ⟨p, nhop, along, same⟩ := ruleAdd_zero_iff.mp success
  have followed := refines _ _ p nhop software success along.path along.neighbour
  rw [same] at followed
  obtain ⟨zero, _⟩ := hwForward_chain.mp followed
  exact absurd zero (by decide)

end Tao.Offload
