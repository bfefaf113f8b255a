import Tao.DataPlane.ChainTransit
import Tao.Offload.Forwarding
import Tao.Offload.TunnelMirror

/-! # The full chain follows the tables of the agent

`hwForward` says what the data plane makes of the agent's four tables.  The pipeline of
`p4src_test`, with tables that hold the same entries, does that to the packets it receives. -/

namespace Tao.Offload

open Tao.Foundation Tao.Agent Tao.Hal Tao.DataPlane.FullChain
open Tao.DataPlane (MacAddr Ipv4H VxlanH ipv4H)

/-! ## The entries of the agent -/

theorem ntbVrfDel_hw {iterate : RteHashIterate} {vrfName : CString} {s s' : AgentState}
    (deleted : ntbVrfDel iterate vrfName s = some s') : s'.hw = s.hw := by
  unfold ntbVrfDel at deleted
  split at deleted
  · cases deleted
    rfl
  · obtain ⟨t, dtor, rfl⟩ := Option.map_eq_some_iff.mp deleted
    unfold ntbVrfDpDtor at dtor
    split at dtor
    · cases dtor
    · obtain ⟨u, cleaned, rfl⟩ := Option.map_eq_some_iff.mp dtor
      obtain ⟨rest, _, rfl⟩ := Option.map_eq_some_iff.mp cleaned
      rfl

/-- What a call does to `tunnel_map_vrf_tbl`: nothing, the delete of an entry, or the add of tunnel 0 with the
    VRF of a live node. -/
def TunnelWrite (s : AgentState) (hw hw' : HwTables) : Prop :=
  hw'.tunnelMapVrf = hw.tunnelMapVrf ∨ (∃ key, hw'.tunnelMapVrf = hw.tunnelMapVrf.erase key) ∨
    ∃ a tunnelI, s.tunnels.lookup a = some tunnelI ∧
      hw'.tunnelMapVrf = hw.tunnelMapVrf.insert RulePath.tunnelKey ⟨tunnelI.vrfId⟩

/-- The routes that a call leaves are those that were there and those of the VRF of one slot. -/
def RouteWrite (hw hw' : HwTables) : Prop :=
  ∀ key ∈ hw'.route, key ∈ hw.route ∨ ∃ i < ntbNrVrf, key.vrf = dpVrfId i

theorem TunnelWrite.congr {s : AgentState} {hw hw' hw'' : HwTables} (write : TunnelWrite s hw hw')
    (same : hw''.tunnelMapVrf = hw'.tunnelMapVrf) : TunnelWrite s hw hw'' := by
  rwa [TunnelWrite, same]

theorem RouteWrite.congr {hw hw' hw'' : HwTables} (write : RouteWrite hw hw') (same : hw''.route = hw'.route) :
    RouteWrite hw hw'' := by
  rwa [RouteWrite, same]

theorem RouteWrite.of_eq {hw hw' : HwTables} (same : hw'.route = hw.route) : RouteWrite hw hw' :=
  RouteWrite.congr (fun _ held => .inl held) same

theorem shcHalTunnelMapVrfEntryDel_writes (accepts : Bool) (type : NtbTunnelType) (id : NtbTunnelId) (s : AgentState)
    (hw : HwTables) :
    TunnelWrite s hw (shcHalTunnelMapVrfEntryDel accepts type id hw).1 ∧
      (shcHalTunnelMapVrfEntryDel accepts type id hw).1.route = hw.route := by
  by_cases dels : HalDels accepts hw.tunnelMapVrf (shcHalTunnelMapVrfKey type id)
  · simp only [shcHalTunnelMapVrfEntryDel, halEntryDel_of_dels dels]
    exact ⟨.inr (.inl ⟨shcHalTunnelMapVrfKey type id, rfl⟩), trivial⟩
  · simp only [shcHalTunnelMapVrfEntryDel, halEntryDel_of_refused dels]
    exact ⟨.inl rfl, trivial⟩

theorem vrfStep_writes {s s' : AgentState} {call : VrfCall} (stepped : vrfStep s call = some s') :
    TunnelWrite s s.hw s'.hw ∧ s'.hw.route = s.hw.route := by
  cases call with
  | vrfAdd vrfName =>
    obtain rfl := Option.some.inj stepped
    have same : (ntbVrfAdd vrfName s).1.hw = s.hw := by
      unfold ntbVrfAdd
      split
      · rfl
      · split <;> rfl
    rw [same]
    exact ⟨.inl rfl, rfl⟩
  | vrfDel iterate vrfName =>
    rw [ntbVrfDel_hw stepped]
    exact ⟨.inl rfl, rfl⟩
  | tunnelMap env vrfName type id =>
    obtain ⟨⟨t, ret⟩, mapped, rfl⟩ := Option.map_eq_some_iff.mp stepped
    unfold ntbTunnelMapVrf at mapped
    repeat' split at mapped
    all_goals cases mapped <;> exact ⟨.inl rfl, rfl⟩
  | tunnelUnmap accepts type id =>
    obtain ⟨⟨t, ret⟩, unmapped, rfl⟩ := Option.map_eq_some_iff.mp stepped
    unfold ntbTunnelUnmapVrf at unmapped
    repeat' split at unmapped
    all_goals cases unmapped
    · exact ⟨.inl rfl, rfl⟩
    · exact shcHalTunnelMapVrfEntryDel_writes accepts type id s s.hw

/-- The lookup of a rule touches nothing but `tunnel_map_vrf_tbl`, and finds a slot of the array of VRFs. -/
theorem ntbTunnelMapVrfLookup_writes {duplicate : HalDuplicate} {accepts : Bool} {flagOfAddDel : Int}
    {s : AgentState} {hw hw' : HwTables} {slot : Option Nat}
    (looked : ntbTunnelMapVrfLookup duplicate accepts .vxlan 0 flagOfAddDel s hw = some (hw', slot)) :
    (TunnelWrite s hw hw' ∧ hw'.route = hw.route) ∧ ∀ i, slot = some i → i < ntbNrVrf := by
  unfold ntbTunnelMapVrfLookup at looked
  split at looked
  · cases looked
    exact ⟨⟨.inl rfl, rfl⟩, nofun⟩
  next a _ =>
  split at looked
  · cases looked
  next tunnelI live =>
  split at looked
  · cases looked
  next vrfDp valid =>
  have inside (i : Nat) (found : vrfDp = some i) : i < ntbNrVrf := by
    rw [found] at valid
    exact (ntbVrfGetById_found valid).1
  split at looked <;> cases looked
  · refine ⟨?_, inside⟩
    have key : shcHalTunnelMapVrfKey .vxlan 0 = RulePath.tunnelKey := rfl
    simp only [shcHalTunnelMapVrfEntryAdd, key, if_true]
    by_cases adds : HalAdds duplicate accepts hw.tunnelMapVrf RulePath.tunnelKey
    · rw [halEntryAdd_of_adds adds]
      exact ⟨.inr (.inr ⟨a, tunnelI, live, rfl⟩), rfl⟩
    · rw [halEntryAdd_of_refused adds]
      exact ⟨.inl rfl, rfl⟩
  · exact ⟨shcHalTunnelMapVrfEntryDel_writes accepts _ _ s hw, inside⟩

theorem shcHalRouteEntryAdd_writes (duplicate : HalDuplicate) (accepts : Bool) {i : Nat} (inside : i < ntbNrVrf)
    (srcIp dstIp : BitVec 32) (nhOid : Oid) (hw : HwTables) :
    let hw' := (shcHalRouteEntryAdd duplicate accepts (dpVrfId i) srcIp dstIp nhOid hw).1
    hw'.tunnelMapVrf = hw.tunnelMapVrf ∧ RouteWrite hw hw' := by
  by_cases adds : HalAdds duplicate accepts hw.route ⟨dpVrfId i, srcIp, dstIp⟩
  · simp only [shcHalRouteEntryAdd, halEntryAdd_of_adds adds]
    refine ⟨trivial, fun key held => ?_⟩
    rcases Finmap.mem_insert.mp held with rfl | held
    · exact .inr ⟨i, inside, rfl⟩
    · exact .inl held
  · simp only [shcHalRouteEntryAdd, halEntryAdd_of_refused adds]
    exact ⟨trivial, .of_eq rfl⟩

theorem shcHalRouteEntryDel_writes (accepts : Bool) (vrfId srcIp dstIp : BitVec 32) (hw : HwTables) :
    let hw' := (shcHalRouteEntryDel accepts vrfId srcIp dstIp hw).1
    hw'.tunnelMapVrf = hw.tunnelMapVrf ∧ RouteWrite hw hw' := by
  by_cases dels : HalDels accepts hw.route ⟨vrfId, srcIp, dstIp⟩
  · simp only [shcHalRouteEntryDel, halEntryDel_of_dels dels]
    exact ⟨trivial, fun key held => .inl (Finmap.mem_erase.mp held).2⟩
  · simp only [shcHalRouteEntryDel, halEntryDel_of_refused dels]
    exact ⟨trivial, .of_eq rfl⟩

theorem routeLookupNhop_keeps (duplicate : HalDuplicate) (accepts : Bool) (flagOfAddDel : Int)
    (fNhop : FibNhop) (hw : HwTables) :
    (routeLookupNhop duplicate accepts flagOfAddDel fNhop hw).1.tunnelMapVrf = hw.tunnelMapVrf ∧
      (routeLookupNhop duplicate accepts flagOfAddDel fNhop hw).1.route = hw.route := by
  unfold routeLookupNhop shcHalNhopEntryAdd shcHalNhopEntryDel
  dsimp only
  split <;> split <;> exact ⟨rfl, rfl⟩

theorem ntbRouteLookup_writes {duplicate : HalDuplicate} {env : RuleEnv} {i : Nat} (inside : i < ntbNrVrf)
    {sip dip : Ip4} {flagOfAddDel ret : Int} {s : AgentState} {hw hw' : HwTables} {fRes : FibRes}
    (looked : ntbRouteLookup duplicate env i sip dip flagOfAddDel s hw = some (hw', fRes, ret)) :
    hw'.tunnelMapVrf = hw.tunnelMapVrf ∧ RouteWrite hw hw' := by
  unfold ntbRouteLookup at looked
  dsimp only at looked
  split at looked
  · cases looked
  next fRes _ =>
  split at looked
  · cases looked
  next hwRoute ret routed =>
  -- the route entry first
  have first : hwRoute.tunnelMapVrf = hw.tunnelMapVrf ∧ RouteWrite hw hwRoute := by
    split at routed
    · obtain ⟨fNhop, _, written⟩ := Option.map_eq_some_iff.mp routed
      have writes := shcHalRouteEntryAdd_writes duplicate env.route inside (rteBeToCpu32 sip) (rteBeToCpu32 dip)
        fNhop.nhOid hw
      rwa [written] at writes
    · have writes := shcHalRouteEntryDel_writes env.route (dpVrfId i) (rteBeToCpu32 sip) (rteBeToCpu32 dip) hw
      rwa [Option.some.inj routed] at writes
  split at looked
  · cases looked
    exact first
  split at looked
  · cases looked
  next fNhop _ =>
  cases looked
  obtain ⟨tunnel, route⟩ := routeLookupNhop_keeps duplicate env.nhop flagOfAddDel fNhop hwRoute
  exact ⟨tunnel.trans first.1, first.2.congr route⟩

theorem ntbNeighLookup_keeps (duplicate : HalDuplicate) (accepts : Bool) (i : Nat) (gw : Ip4)
    (flagOfAddDel : Int) (s : AgentState) (hw : HwTables) :
    (ntbNeighLookup duplicate accepts i gw flagOfAddDel s hw).1.tunnelMapVrf = hw.tunnelMapVrf ∧
      (ntbNeighLookup duplicate accepts i gw flagOfAddDel s hw).1.route = hw.route := by
  unfold ntbNeighLookup shcHalNeighEntryAdd shcHalNeighEntryDel
  split
  · exact ⟨rfl, rfl⟩
  · split <;> split <;> exact ⟨rfl, rfl⟩

theorem agentStep_writes {duplicate : HalDuplicate} {s s' : AgentState} {call : AgentCall}
    (stepped : agentStep duplicate s call = some s') : TunnelWrite s s.hw s'.hw ∧ RouteWrite s.hw s'.hw := by
  cases call with
  | vrf call => exact (vrfStep_writes stepped).imp_right .of_eq
  | route call =>
    obtain ⟨route, _, rfl⟩ := Option.map_eq_some_iff.mp stepped
    exact ⟨.inl rfl, .of_eq rfl⟩
  | rule env vni ipSrcAddr ipDstAddr flagOfAddDel =>
    obtain ⟨⟨t, ret⟩, programmed, rfl⟩ := Option.map_eq_some_iff.mp stepped
    unfold shcSwTohwRule at programmed
    split at programmed
    · cases programmed
    · cases programmed
    next hwTunnel i looked =>
    obtain ⟨⟨written, untouched⟩, slot⟩ := ntbTunnelMapVrfLookup_writes looked
    split at programmed
    · cases programmed
    next hwRoute fRes ret routed =>
    obtain ⟨kept, routes⟩ := ntbRouteLookup_writes (slot i rfl) routed
    have tunnel : TunnelWrite s s.hw hwRoute := written.congr kept
    have route : RouteWrite s.hw hwRoute := by
      rw [RouteWrite, ← untouched]
      exact routes
    split at programmed
    · cases programmed
      exact ⟨tunnel, route⟩
    split at programmed
    · cases programmed
    next fNhop _ =>
    cases programmed
    obtain ⟨keptTunnel, keptRoute⟩ := ntbNeighLookup_keeps duplicate env.neigh i fNhop.gateway flagOfAddDel s hwRoute
    exact ⟨tunnel.congr keptTunnel, route.congr keptRoute⟩

/-- The only tunnel with an entry is tunnel 0; it leads to the VRF of a slot, and all routes are in such VRFs. -/
structure EntriesOfSlots (hw : HwTables) : Prop where
  tunnel : ∀ key data, hw.tunnelMapVrf.lookup key = some data →
    key = RulePath.tunnelKey ∧ ∃ i < ntbNrVrf, data.vrf = dpVrfId i
  route : ∀ key ∈ hw.route, ∃ i < ntbNrVrf, key.vrf = dpVrfId i

theorem reachable_entriesOfSlots {duplicate : HalDuplicate} {calls : List AgentCall} {s : AgentState}
    (reached : run (agentStep duplicate) .initial calls = some s) : EntriesOfSlots s.hw := by
  have preserved (s : AgentState) (call : AgentCall) (s' : AgentState)
      (kept : (LookupReady s.route ∧ NodesListed s) ∧ EntriesOfSlots s.hw)
      (stepped : agentStep duplicate s call = some s') :
      (LookupReady s'.route ∧ NodesListed s') ∧ EntriesOfSlots s'.hw := by
    obtain ⟨tunnelWrite, routeWrite⟩ := agentStep_writes stepped
    refine ⟨agentStep_nodesListed s call s' kept.1 stepped, fun key data held => ?_, fun key held => ?_⟩
    · rcases tunnelWrite with same | ⟨key', erased⟩ | ⟨a, tunnelI, live, inserted⟩
      · exact kept.2.tunnel key data (same ▸ held)
      · rw [erased, Table.lookup_erase_eq_some] at held
        exact kept.2.tunnel key data held.2
      · rw [inserted, Table.lookup_insert_eq_some] at held
        rcases held with ⟨rfl, rfl⟩ | ⟨_, held⟩
        · obtain ⟨i, inside, own, _⟩ := kept.1.2 a tunnelI live
          exact ⟨rfl, i, inside, congrArg NtbTunnelInfo.vrfId own⟩
        · exact kept.2.tunnel key data held
    · rcases routeWrite key held with before | slot
      · exact kept.2.route key before
      · exact slot
  have initial : (LookupReady AgentState.initial.route ∧ NodesListed AgentState.initial) ∧
      EntriesOfSlots AgentState.initial.hw := by
    refine ⟨⟨⟨RouteState.initial_accounted, initial_fibRooted, initial_blackholeKept⟩, ?_⟩, ?_, ?_⟩
    · intro a tunnelI live
      cases live
    · intro key data held
      cases held
    · intro key held
      exact absurd held Finmap.notMem_empty
  exact (run_invariant preserved initial reached).2

/-! ## The entries in the data plane -/

theorem rteBeToCpu32_involutive (x : BitVec 32) : rteBeToCpu32 (rteBeToCpu32 x) = x := by
  apply BitVec.eq_of_getLsbD_eq
  intro i inside
  simp only [rteBeToCpu32, BitVec.getLsbD_append, BitVec.getLsbD_extractLsb']
  grind

-- The tunnel type of a code in `tunnel_map_vrf_tbl`, when the driver writes `vxlanType` for VXLAN.
def halTunnelTypeOf (vxlanType type : BitVec 1) : HalTunnelType := if type = vxlanType then .vxlan else .gre

/-- The tables of the data plane hold the entries of the agent, every number cut to the width of its field.
    Which bit stands for VXLAN is up to the driver, which is not part of the repository. -/
structure Programmed (order : HalAddrOrder) (vxlanType : BitVec 1) (hw : HwTables) (tables : Tables) : Prop where
  tunnelMapVrf : ∀ type vni, tables.tunnelMapVrfTbl.lookup ⟨type, vni⟩ =
    (hw.tunnelMapVrf.lookup ⟨halTunnelTypeOf vxlanType type, vni.setWidth 32⟩).map fun data =>
      .tunnelMapVrf (data.vrf.setWidth 16)
  route : ∀ vrf srcAddr dstAddr, tables.routeTbl.lookup ⟨vrf, srcAddr, dstAddr⟩ =
    (hw.route.lookup ⟨vrf.setWidth 32, srcAddr, dstAddr⟩).map fun data => .routeForNexthop data.nhopId
  nhop : ∀ nhopId, tables.nhopTbl.lookup nhopId = (hw.nhop.lookup ⟨nhopId⟩).map fun data =>
    .nhop (data.tunnelKey.setWidth 24) (rteBeToCpu32 (order.packet data.loc)) (rteBeToCpu32 (order.packet data.remote))
      data.neighId
  neigh : ∀ neighId, tables.neighTbl.lookup neighId = (hw.neigh.lookup ⟨neighId⟩).map fun data => .neigh data.dmac

theorem dpVrfId_toNat {i : Nat} (inside : i < ntbNrVrf) : (dpVrfId i).toNat = i + 1 := by
  have bound : i < 4096 := inside
  rw [dpVrfId, BitVec.toNat_ofNat]
  omega

theorem dpVrfId_narrow {i : Nat} (inside : i < ntbNrVrf) : ((dpVrfId i).setWidth 16).setWidth 32 = dpVrfId i := by
  have bound : i < 4096 := inside
  apply BitVec.eq_of_toNat_eq
  rw [BitVec.toNat_setWidth, BitVec.toNat_setWidth, dpVrfId_toNat inside]
  omega

/-- The outer MAC addresses, destination first.  The port that `port_for_mac_tbl` is looked up with is 0 in
    every packet. -/
def outerMacs (tables : Tables) : MacAddr × MacAddr :=
  match tables.portForMacTbl.lookup 0 with
  | some (.portForMac smac dmac) => (dmac, smac)
  | some .fakeMacForOuter | none => (0x112233445577, 0x112233445588)

/-- The headers with what a rewrite gives them, and these outer MAC addresses. -/
def rewritten (rewrite : Rewrite) (macs : MacAddr × MacAddr) (hdr : ShcHeader) : ShcHeader :=
  { hdr with
    ethernet := hdr.ethernet.map (setMacs macs.1 macs.2)
    ipv4 := hdr.ipv4.map (setAddresses (rteBeToCpu32 rewrite.loc) (rteBeToCpu32 rewrite.remote))
    vxlan := hdr.vxlan.map fun h => { h with vni := rewrite.vni }
    innerEthernet := hdr.innerEthernet.map (setMacs rewrite.dmac FAKE_SRC_MAC) }

section Forward

variable {env : Surroundings}

theorem portForMacTblApply_hdr {s : IngressState} (unset : s.md.encapInfo.port = 0) :
    (portForMacTblApply env s).hdr =
      { s.hdr with
        ethernet := s.hdr.ethernet.map (setMacs (outerMacs env.tables).1 (outerMacs env.tables).2) } := by
  unfold portForMacTblApply outerMacs
  rw [unset]
  cases env.tables.portForMacTbl.lookup 0 with
  | none => rfl
  | some action => cases action <;> rfl

/-- A next hop and a neighbour that are there are written into the headers. -/
theorem forward_hdr {s : IngressState} {rewrite : Rewrite} {neighId : BitVec 32}
    (unset : s.md.encapInfo.port = 0)
    (nexthop : env.tables.nhopTbl.lookup s.md.nhopId =
      some (.nhop rewrite.vni (rteBeToCpu32 rewrite.loc) (rteBeToCpu32 rewrite.remote) neighId))
    (neighbour : env.tables.neighTbl.lookup neighId = some (.neigh rewrite.dmac)) :
    (forward env s).hdr = rewritten rewrite (outerMacs env.tables) s.hdr := by
  have tunnelled : nhopTblApply env s =
      nhop rewrite.vni (rteBeToCpu32 rewrite.loc) (rteBeToCpu32 rewrite.remote) neighId s := by
    simp only [nhopTblApply, nexthop]
  have found : env.tables.neighTbl.lookup (nhopTblApply env s).md.encapInfo.neighId = some (.neigh rewrite.dmac) := by
    rw [tunnelled]
    exact neighbour
  have addressed : neighTblApply env (nhopTblApply env s) =
      { nhopTblApply env s with hdr := { (nhopTblApply env s).hdr with
          innerEthernet := (nhopTblApply env s).hdr.innerEthernet.map (setMacs rewrite.dmac FAKE_SRC_MAC) } } := by
    simp only [neighTblApply, found]
  have stillUnset : (neighTblApply env (nhopTblApply env s)).md.encapInfo.port = 0 := by
    rw [addressed, tunnelled]
    exact unset
  rw [forward, portForMacTblApply_hdr stillUnset, addressed, tunnelled]
  rfl

theorem forward_md (s : IngressState) :
    (forward env s).md.typeForDigest = s.md.typeForDigest ∧ (forward env s).md.pktNC = s.md.pktNC := by
  rw [(forward_frame env s).md]
  unfold nhopTblApply
  split <;> exact ⟨rfl, rfl⟩

theorem ingress_routed {s : IngressState} {outer : Ipv4H} {nhopId : BitVec 32} (entering : Entering outer s)
    (found : routeEntry env s.hdr = some (.routeForNexthop nhopId)) :
    ShcIngress.apply env s = forward env (routeForNexthop env nhopId (mapped env s)) := by
  rw [ingress_eq entering, found]

end Forward

/-! ### With the tunnels under the type of the packets -/

/-- A packet for which the tables of the agent hold a chain, when VXLAN is type 0, the type that the parser
    leaves in every packet. -/
theorem chain_followed {order : HalAddrOrder} {hw : HwTables} {env : Surroundings} (slots : EntriesOfSlots hw)
    (programmed : Programmed order 0 hw env.tables) (regs : Registers) {pkt : Bits} {parsed : ParserState}
    (accepted : ShcIngressParser pkt = (parsed, .accept)) {vxlan : VxlanH} {inner : Ipv4H}
    (isVxlan : parsed.hdr.vxlan = some vxlan) (isInner : parsed.hdr.innerIpv4 = some inner) {rewrite : Rewrite}
    (found : hwForward order hw (vxlan.vni.setWidth 32) (rteBeToCpu32 inner.srcAddr) (rteBeToCpu32 inner.dstAddr) =
      some rewrite) :
    ∃ out, shcIngressPipeline env regs pkt = some out ∧
      out.sent = (rewritten rewrite (outerMacs env.tables) parsed.hdr).updateChecksum.emit ++ parsed.payload ∧
      out.left.intrinsic.ucastEgressPort = env.ingressPort ∧
      out.digest = some ⟨1, rteBeToCpu32 rewrite.loc, rteBeToCpu32 rewrite.remote, 0⟩ := by
  obtain ⟨vrf, nhopId, data, dmac, tunnel, routed, nexthop, neighbour, rfl⟩ := hwForward_eq_some.mp found
  obtain ⟨outer, isIpv4⟩ := (stack_of_accepted accepted).1.ipv4_of_vxlan isVxlan
  have entering : Entering outer (parsed.enter regs) := entering_of_parsed accepted isIpv4
  obtain ⟨_, i, inside, slot⟩ := slots.tunnel _ _ tunnel
  -- the VRF of a slot fits into the field that carries it from table to table
  have vrfHeld : (vrfOf env parsed.hdr).setWidth 32 = vrf := by
    have held := programmed.tunnelMapVrf 0 vxlan.vni
    rw [halTunnelTypeOf, if_pos rfl, tunnel, Option.map_some] at held
    unfold vrfOf
    rw [isVxlan, Option.getD_some, held]
    rw [show vrf = dpVrfId i from slot]
    exact dpVrfId_narrow inside
  have routeFound : routeEntry env parsed.hdr = some (.routeForNexthop nhopId) := by
    rw [rteBeToCpu32_involutive, rteBeToCpu32_involutive] at routed
    unfold routeEntry
    rw [isInner, Option.getD_some, programmed.route, vrfHeld, routed, Option.map_some]
  have nexthopFound := programmed.nhop nhopId
  rw [nexthop, Option.map_some] at nexthopFound
  have neighbourFound := programmed.neigh data.neighId
  rw [neighbour, Option.map_some] at neighbourFound
  have unset : (routeForNexthop env nhopId (mapped env (parsed.enter regs))).md.encapInfo.port = 0 :=
    congrArg (·.encapInfo.port) entering.recorded
  have headers := @forward_hdr env (routeForNexthop env nhopId (mapped env (parsed.enter regs)))
    ⟨vrf, data.tunnelKey.setWidth 24, order.packet data.loc, order.packet data.remote, dmac⟩ data.neighId
    unset nexthopFound neighbourFound
  obtain ⟨digestType, count⟩ := @forward_md env (routeForNexthop env nhopId (mapped env (parsed.enter regs)))
  have uncounted : (mapped env (parsed.enter regs)).md.pktNC = 0 := congrArg (·.pktNC) entering.recorded
  have through := ingress_routed entering routeFound
  refine ⟨_, pipeline_eq accepted, ?_, ?_, ?_⟩
  · dsimp only
    rw [through, headers]
    rfl
  · dsimp only
    rw [through, forward_intrinsic]
    rfl
  · dsimp only
    rw [through, flowkeyDigest, if_pos (by rw [forward_intrinsic]; rfl)]
    have outerLeft : (forward env (routeForNexthop env nhopId (mapped env (parsed.enter regs)))).hdr.ipv4 =
        some (setAddresses (rteBeToCpu32 (order.packet data.loc)) (rteBeToCpu32 (order.packet data.remote)) outer) := by
      rw [headers]
      exact congrArg (Option.map _) isIpv4
    rw [outerLeft, digestType, count]
    exact congrArg (fun n => some (FlowkeyDigest.mk 1 _ _ n)) uncounted

/-! ### With the tunnels under the other type -/

-- The same switch without the two tables that only offloaded flows use.
def withoutOffloads (env : Surroundings) : Surroundings :=
  { env with tables := { env.tables with tunnelMapVrfTbl := ∅, routeTbl := ∅ } }

theorem routeEntry_withoutOffloads (env : Surroundings) (hdr : ShcHeader) :
    routeEntry (withoutOffloads env) hdr = none := Finmap.lookup_empty _

theorem vrfOf_withoutOffloads (env : Surroundings) (hdr : ShcHeader) : vrfOf (withoutOffloads env) hdr = 0 := rfl

/-- No packet has type 1, so that no entry is ever found, and without a VRF no route is. -/
theorem ingress_without_offloads {order : HalAddrOrder} {hw : HwTables} {env : Surroundings} (slots : EntriesOfSlots hw)
    (programmed : Programmed order 1 hw env.tables) {outer : Ipv4H} {s : IngressState} (entering : Entering outer s) :
    ShcIngress.apply env s = ShcIngress.apply (withoutOffloads env) s := by
  have unmapped : vrfOf env s.hdr = 0 := by
    unfold vrfOf
    rw [programmed.tunnelMapVrf 0 _]
    cases held : hw.tunnelMapVrf.lookup ⟨halTunnelTypeOf 1 0, _⟩ with
    | none => rfl
    | some data => cases (slots.tunnel _ _ held).1
  have unrouted : routeEntry env s.hdr = none := by
    unfold routeEntry
    rw [unmapped, programmed.route, Option.map_eq_none_iff, Finmap.lookup_eq_none]
    intro held
    obtain ⟨i, inside, slot⟩ := slots.route _ held
    have number := congrArg BitVec.toNat slot
    rw [dpVrfId_toNat inside] at number
    exact Nat.succ_ne_zero i number.symm
  have same : mapped env s = mapped (withoutOffloads env) s := by
    rw [mapped, mapped, unmapped, vrfOf_withoutOffloads]
  rw [ingress_eq entering, ingress_eq entering, unrouted, routeEntry_withoutOffloads, ← same]
  rfl

theorem pipeline_without_offloads {order : HalAddrOrder} {hw : HwTables} {env : Surroundings}
    (slots : EntriesOfSlots hw) (programmed : Programmed order 1 hw env.tables) (regs : Registers) (pkt : Bits) :
    shcIngressPipeline env regs pkt = shcIngressPipeline (withoutOffloads env) regs pkt := by
  rcases result : ShcIngressParser pkt with ⟨parsed, _ | _⟩
  case reject =>
    unfold shcIngressPipeline
    rw [result]
  case accept =>
    rw [pipeline_eq result, pipeline_eq result]
    have same : ShcIngress.apply env (parsed.enter regs) =
        ShcIngress.apply (withoutOffloads env) (parsed.enter regs) := by
      cases isIpv4 : parsed.hdr.ipv4 with
      | some outer => exact ingress_without_offloads slots programmed (entering_of_parsed result isIpv4)
      | none =>
        have invalid : ¬ (parsed.enter regs).hdr.ipv4.isSome := by simp [ParserState.enter, isIpv4]
        rw [ShcIngress.apply, ShcIngress.apply, if_neg invalid, if_neg invalid]
    rw [same]
    rfl

/-- In every reachable state of the agent.  When the driver enters VXLAN tunnels under type 0, a packet for
    which the agent's tables hold a chain is sent with exactly what the chain says written into it, out of the
    port it came in by and with a digest of the rewritten addresses.  When it enters them under type 1, what the
    agent offloads changes nothing, for no packet: the parser never sets the type. -/
theorem chain_carried_out {duplicate : HalDuplicate} (order : HalAddrOrder) {calls : List AgentCall} {s : AgentState}
    (reached : run (agentStep duplicate) .initial calls = some s) (vxlanType : BitVec 1) (env : Surroundings)
    (programmed : Programmed order vxlanType s.hw env.tables) (regs : Registers) (pkt : Bits) :
    (vxlanType = 0 → ∀ parsed vxlan inner rewrite, ShcIngressParser pkt = (parsed, .accept) →
      parsed.hdr.vxlan = some vxlan → parsed.hdr.innerIpv4 = some inner →
      hwForward order s.hw (vxlan.vni.setWidth 32) (rteBeToCpu32 inner.srcAddr) (rteBeToCpu32 inner.dstAddr) =
        some rewrite →
      ∃ out, shcIngressPipeline env regs pkt = some out ∧
        out.sent = (rewritten rewrite (outerMacs env.tables) parsed.hdr).updateChecksum.emit ++ parsed.payload ∧
        out.left.intrinsic.ucastEgressPort = env.ingressPort ∧
        out.digest = some ⟨1, rteBeToCpu32 rewrite.loc, rteBeToCpu32 rewrite.remote, 0⟩) ∧
    (vxlanType = 1 → shcIngressPipeline env regs pkt = shcIngressPipeline (withoutOffloads env) regs pkt) := by
  have slots := reachable_entriesOfSlots reached
  constructor
  · rintro rfl parsed vxlan inner rewrite accepted isVxlan isInner found
    exact chain_followed slots programmed regs accepted isVxlan isInner found
  · rintro rfl
    exact pipeline_without_offloads slots programmed regs pkt

/-! ### A flow that was offloaded -/

theorem lookup_single {κ α : Type} [DecidableEq κ] (k other : κ) (a : α) :
    (Finmap.insert k a (∅ : Table κ α)).lookup other = if other = k then some a else none := by
  rw [Table.lookup_insert_eq, Finmap.lookup_empty]

/-- Agent and data plane with the entries of one chain. -/
theorem programmed_single (order : HalAddrOrder) (vxlanType : BitVec 1) (vni : BitVec 24) (vrf : BitVec 16)
    (srcAddr dstAddr : BitVec 32) (nhopId : Oid) (data : HalNhopData) (dmac : EtherAddr) :
    Programmed order vxlanType
      ⟨Finmap.insert ⟨.vxlan, vni.setWidth 32⟩ ⟨vrf.setWidth 32⟩ ∅,
        Finmap.insert ⟨vrf.setWidth 32, srcAddr, dstAddr⟩ ⟨nhopId⟩ ∅, Finmap.insert ⟨nhopId⟩ data ∅,
        Finmap.insert ⟨data.neighId⟩ ⟨dmac⟩ ∅⟩
      { tunnelMapVrfTbl := Finmap.insert ⟨vxlanType, vni⟩ (.tunnelMapVrf vrf) ∅
        routeTbl := Finmap.insert ⟨vrf, srcAddr, dstAddr⟩ (.routeForNexthop nhopId) ∅
        nhopTbl := Finmap.insert nhopId (.nhop (data.tunnelKey.setWidth 24) (rteBeToCpu32 (order.packet data.loc))
          (rteBeToCpu32 (order.packet data.remote)) data.neighId) ∅
        neighTbl := Finmap.insert data.neighId (.neigh dmac) ∅ } := by
  have narrow {w : Nat} (wider : w ≤ 32) {x y : BitVec w} : x.setWidth 32 = y.setWidth 32 ↔ x = y :=
    ⟨setWidth_injective wider, congrArg _⟩
  refine ⟨fun type other => ?_, fun vrf' src dst => ?_, fun other => ?_, fun other => ?_⟩
  · rw [lookup_single, lookup_single, halTunnelTypeOf]
    by_cases sameType : type = vxlanType <;> by_cases same : other = vni <;> simp [sameType, same, narrow]
  · rw [lookup_single, lookup_single]
    by_cases same : vrf' = vrf <;> simp [same, narrow]
  · rw [lookup_single, lookup_single]
    by_cases same : other = nhopId <;> simp [same]
  · rw [lookup_single, lookup_single]
    by_cases same : other = data.neighId <;> simp [same]

/-- The two routes, and then a rule for a flow of tunnel 0 from 10.9.0.1 to 10.0.7.1. -/
def offloadedCalls : List AgentCall := twoRoutes ++ [.rule .accepts 0 0x0100090a 0x0107000a 0]

def offloadedState : AgentState := (run (agentStep .refused) .initial offloadedCalls).getD .initial

theorem offloadedCalls_reached : run (agentStep .refused) .initial offloadedCalls = some offloadedState := by
  have defined : (run (agentStep .refused) .initial offloadedCalls).isSome = true := by decide +kernel
  exact run_eq_some_getD defined .initial

theorem offloadedState_hw : offloadedState.hw =
    ⟨Finmap.insert ⟨.vxlan, (0 : BitVec 24).setWidth 32⟩ ⟨(1 : BitVec 16).setWidth 32⟩ ∅,
      Finmap.insert ⟨(1 : BitVec 16).setWidth 32, 0x0a090001, 0x0a000701⟩ ⟨5⟩ ∅,
      Finmap.insert ⟨5⟩ ⟨11, 0xD00001, 0x0200a8c0, 6⟩ ∅, Finmap.insert ⟨6⟩ ⟨0x020000000001⟩ ∅⟩ := by
  decide +kernel

def offloadedPacket : Bits :=
  bits 0x000000000002#48 ++ bits 0x000000000001#48 ++ bits 0x0800#16 ++
    bits 0x45000046000000004011#80 ++ bits 0x66A5#16 ++ bits 0x0A0000010A000002#64 ++
    bits 0x123412B500320000#64 ++ bits 0x0800000000000000#64 ++
    bits 0x000000000004#48 ++ bits 0x000000000003#48 ++ bits 0x0800#16 ++
    bits 0x45000014000000004001#80 ++ bits 0x0000#16 ++ bits 0x0A0900010A000701#64

def offloadedSurroundings (vxlanType : BitVec 1) : Surroundings :=
  sampledWith {
    tunnelMapVrfTbl := Finmap.insert ⟨vxlanType, 0⟩ (.tunnelMapVrf 1) ∅
    routeTbl := Finmap.insert ⟨1, 0x0a090001, 0x0a000701⟩ (.routeForNexthop 5) ∅
    nhopTbl := Finmap.insert 5 (.nhop ((11 : BitVec 32).setWidth 24) (rteBeToCpu32 (HalAddrOrder.number.packet 0xD00001))
      (rteBeToCpu32 (HalAddrOrder.number.packet 0x0200a8c0)) 6) ∅
    neighTbl := Finmap.insert 6 (.neigh 0x020000000001) ∅ }

theorem offloadedSurroundings_programmed (vxlanType : BitVec 1) :
    Programmed .number vxlanType offloadedState.hw (offloadedSurroundings vxlanType).tables := by
  rw [offloadedState_hw]
  exact programmed_single .number vxlanType 0 1 0x0a090001 0x0a000701 5 ⟨11, 0xD00001, 0x0200a8c0, 6⟩ 0x020000000001

/-- The chain of the flow is followed when its tunnel is entered under type 0, and is not there for the packet
    when it is entered under type 1. -/
theorem offloaded_carried_out :
    (∃ out, shcIngressPipeline (offloadedSurroundings 0) .initial offloadedPacket = some out ∧
      out.sent = (rewritten ⟨1, 11, 0x0100d000, 0xc0a80002, 0x020000000001⟩ (0x112233445577, 0x112233445588)
        (ShcIngressParser offloadedPacket).1.hdr).updateChecksum.emit ++ (ShcIngressParser offloadedPacket).1.payload ∧
      out.left.intrinsic.ucastEgressPort = 1 ∧ out.digest = some ⟨1, 0x00d00001, 0x0200a8c0, 0⟩) ∧
    shcIngressPipeline (offloadedSurroundings 1) .initial offloadedPacket =
      shcIngressPipeline (withoutOffloads (offloadedSurroundings 1)) .initial offloadedPacket := by
  have accepted : (ShcIngressParser offloadedPacket).2 = .accept := by decide +kernel
  constructor
  · exact (chain_carried_out .number offloadedCalls_reached 0 (offloadedSurroundings 0)
      (offloadedSurroundings_programmed 0) .initial offloadedPacket).1 rfl (ShcIngressParser offloadedPacket).1
      ⟨8, 0, 0, 0⟩ (ipv4H (offloadedPacket.drop 512)) _ (by rw [← accepted]) (by decide +kernel) (by decide +kernel)
      (by decide +kernel)
  · exact (chain_carried_out .number offloadedCalls_reached 1 (offloadedSurroundings 1)
      (offloadedSurroundings_programmed 1) .initial offloadedPacket).2 rfl

end Tao.Offload
