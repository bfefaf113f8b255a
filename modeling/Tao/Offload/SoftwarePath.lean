import Tao.Offload.Forwarding

/-! # The software path with its hardware writes (`pmd.c`)

The lookups of the software path are those of a rule: whatever they find they write to the
hardware too, and a packet is dropped when the route, the next hop or the neighbour is refused.
Without a route the path dereferences a null `mpath[0]`, which is `none` here.

`ol_ip_rcv` calls `ntb_route_lookup` without the source address that it takes, so the source
address is any.  The inner packet is an IPv4 packet with whole headers. -/

namespace Tao.Offload

open Tao.Foundation Tao.Agent Tao.Hal

/-- What the software path looks at in a packet, the RSS hash included. -/
structure VxlanPacket where
  vni : BitVec 32
  sip : Ip4
  dstAddr : Ip4
  rss : Nat
  deriving DecidableEq

namespace SoftwarePath

section Functions

variable (duplicate : HalDuplicate) (env : RuleEnv) (i : Nat) (s : AgentState)

/-- `ip_forward`: the rewrite that it records.  `neigh_probe_xmit`, which it calls when the neighbour lookup
    fails, is not part of the repository and left out. -/
def ipForward (rss : Nat) (fRes : FibRes) (hw : HwTables) : Option (HwTables × Option Rewrite) :=
  match (fRes.mpath[fibResSelectMpath fRes rss]?).bind s.route.store.nhops.lookup with
  | none => none
  | some fNhop =>
    let rewrite (dmac : EtherAddr) : Rewrite :=
      ⟨dpVrfId i, fNhop.tunnelInfo.vxlanVni, fNhop.tunnelInfo.vxlanLocal, fNhop.tunnelInfo.vxlanRemote, dmac⟩
    if fNhop.tunnelInfo.type ≠ .vxlan then some (hw, none)
    else if fNhop.gateway = 0 then some (hw, some (rewrite defGwMac))
    else
      match ntbNeighLookup duplicate env.neigh i fNhop.gateway 0 s hw with
      | (hw, ret) =>
        if ret < 0 then some (hw, none) else some (hw, (innerDstMac i fNhop.gateway s).map rewrite)

/-- `ip_forward_m` from a place of `mpath[]` on.  It sends nothing: the call that would is commented out. -/
def ipForwardM : List Addr → HwTables → Option HwTables
  | [], hw => some hw
  | a :: rest, hw =>
    match s.route.store.nhops.lookup a with
    | none => none
    | some fNhop =>
      if fNhop.tunnelInfo.type = .vxlan ∧ fNhop.gateway ≠ 0 then
        match ntbNeighLookup duplicate env.neigh i fNhop.gateway 0 s hw with
        | (hw, ret) => if ret < 0 then some hw else ipForwardM rest hw
      else ipForwardM rest hw

def olIpRcv (pkt : VxlanPacket) (hw : HwTables) : Option (HwTables × Option Rewrite) :=
  match ntbRouteLookup duplicate env i pkt.sip pkt.dstAddr 0 s hw with
  | none => none
  | some (hw, fRes, ret) =>
    if ret ≠ 0 then some (hw, none) -- the hardware refused the route or the next hop
    else if fibResIsReject fRes then some (hw, none)
    else if fibResIsMroute fRes then (ipForwardM duplicate env i s fRes.mpath hw).map fun hw => (hw, none)
    else ipForward duplicate env i s pkt.rss fRes hw

end Functions

/-- `vxlan_tunnel_rcv`: the state afterwards and the rewrite of the packet, unless it is dropped. -/
def vxlanTunnelRcv (duplicate : HalDuplicate) (env : RuleEnv) (pkt : VxlanPacket) (s : AgentState) :
    Option (AgentState × Option Rewrite) :=
  match ntbTunnelMapVrfLookup duplicate env.tunnel .vxlan pkt.vni 0 s s.hw with
  | none => none
  | some (hw, none) => some ({ s with hw := hw }, none) -- `VXLAN_NOT_MAP_VRF`
  | some (hw, some i) => (olIpRcv duplicate env i s pkt hw).map fun r => ({ s with hw := r.1 }, r.2)

/-! ## What a packet needs -/

/-- The VRF and the next hop that a packet is looked up to. -/
def packetPath (pkt : VxlanPacket) (s : AgentState) : Option RulePath :=
  (tunnelSlot pkt.vni s).bind fun i =>
    ((fibResLookup i (rteBeToCpu32 pkt.dstAddr) s).bind (mpathFirst s)).map fun fNhop => ⟨i, fNhop⟩

/-- The driver takes the entries that a packet has to have written. -/
structure DriverTakes (duplicate : HalDuplicate) (env : RuleEnv) (pkt : VxlanPacket) (p : RulePath) (s : AgentState)
    (hw : HwTables) : Prop where
  routeAdds : RouteAdds duplicate env pkt.sip pkt.dstAddr p hw
  nhopAdds : NhopAdds duplicate env p hw
  neighAdds : p.fNhop.gateway ≠ 0 → ∀ nhop, p.neigh s = .ok nhop → NeighAdds duplicate env nhop hw

variable {duplicate : HalDuplicate} {env : RuleEnv} {pkt : VxlanPacket} {s : AgentState} {hw : HwTables}
  {fRes : FibRes} {p : RulePath} {result : Rewrite}

theorem mpath_live (first : mpathFirst s fRes = some p.fNhop) :
    ∃ a, fRes.mpath = [a] ∧ s.route.store.nhops.lookup a = some p.fNhop := by
  have fits := fRes.mpathFits
  rw [mpathFirst] at first
  rw [routeMaxEcmp] at fits
  cases mpath : fRes.mpath with
  | nil =>
    rw [mpath] at first
    cases first
  | cons a rest =>
    rw [mpath] at first fits
    have last : rest = [] := List.eq_nil_of_length_eq_zero (by rw [List.length_cons] at fits; omega)
    exact ⟨a, by rw [last], first⟩

theorem ipForward_defined (rss : Nat) (first : mpathFirst s fRes = some p.fNhop) :
    ipForward duplicate env p.slot s rss fRes hw ≠ none := by
  rw [mpathFirst] at first
  simp only [ipForward, mpath_selected, first]
  split
  · simp
  · split
    · simp
    · split <;> simp

/-- What `ip_forward` records is what the lookups alone give, provided that the neighbour entry is taken. -/
theorem ipForward_sent (rss : Nat) (first : mpathFirst s fRes = some p.fNhop) :
    (∃ hw', ipForward duplicate env p.slot s rss fRes hw = some (hw', some result)) ↔
      Offload.ipForward rss p.slot fRes s = some result ∧
        (p.fNhop.gateway ≠ 0 → ∀ nhop, p.neigh s = .ok nhop → NeighAdds duplicate env nhop hw) := by
  rw [mpathFirst] at first
  simp only [ipForward, Offload.ipForward, mpath_selected, first]
  by_cases vxlan : p.fNhop.tunnelInfo.type = .vxlan
  case neg => simp [vxlan]
  by_cases gateway : p.fNhop.gateway = 0
  case pos => simp [vxlan, gateway, innerDstMac]
  simp only [vxlan, gateway, ne_eq, not_true_eq_false, not_false_eq_true, if_false, forall_const]
  rcases ntbNeighLookup_add_cases duplicate env s p hw with
    ⟨code, negative, neigh, looked⟩ | ⟨nhop, neigh, ⟨refused, looked⟩ | ⟨neighAdds, looked⟩⟩
  · -- no neighbour: the packet is dropped and the gateway probed
    have noMac : innerDstMac p.slot p.fNhop.gateway s = none := by
      rw [RulePath.neigh] at neigh
      rw [innerDstMac, if_neg gateway, neigh]
    simp [looked, negative, noMac]
  · have failed : ntbLoadToP4Fail < 0 := by decide
    simp only [looked, if_pos failed]
    exact iff_of_false (by simp) fun both => refused (both.2 nhop neigh)
  · simp only [looked, Int.lt_irrefl, if_false, Option.some.injEq, Prod.mk.injEq]
    constructor
    · rintro ⟨_, rfl, sent⟩
      refine ⟨sent, fun other known => ?_⟩
      obtain rfl := Except.ok.inj (neigh.symm.trans known)
      exact neighAdds
    · rintro ⟨sent, _⟩
      exact ⟨_, rfl, sent⟩

theorem ipForwardM_defined (first : mpathFirst s fRes = some p.fNhop) :
    ipForwardM duplicate env p.slot s fRes.mpath hw ≠ none := by
  obtain ⟨a, mpath, held⟩ := mpath_live first
  rw [mpath]
  simp only [ipForwardM, held]
  split
  · split <;> simp
  · simp

/-- Where `ol_ip_rcv` comes from the lookup of the route: it stops, or it forwards with the entries of the route
    and the next hop in the hardware. -/
theorem olIpRcv_cases (routed : fibResLookup p.slot (rteBeToCpu32 pkt.dstAddr) s = some fRes)
    (first : mpathFirst s fRes = some p.fNhop) :
    (∃ hw', olIpRcv duplicate env p.slot s pkt hw = some (hw', none) ∧
      ¬ (RouteAdds duplicate env pkt.sip pkt.dstAddr p hw ∧ NhopAdds duplicate env p hw)) ∨
    (RouteAdds duplicate env pkt.sip pkt.dstAddr p hw ∧ NhopAdds duplicate env p hw ∧
      olIpRcv duplicate env p.slot s pkt hw =
        let hwNhop := addNhop p (addRoute pkt.sip pkt.dstAddr p hw)
        if fibResIsReject fRes then some (hwNhop, none)
        else if fibResIsMroute fRes then
          (ipForwardM duplicate env p.slot s fRes.mpath hwNhop).map fun hw => (hw, none)
        else ipForward duplicate env p.slot s pkt.rss fRes hwNhop) := by
  have failed : ntbLoadToP4Fail ≠ 0 := by decide
  rcases @ntbRouteLookup_add_cases duplicate env pkt.sip pkt.dstAddr s p fRes routed first hw with
    ⟨refused, looked⟩ | ⟨routeAdds, ⟨refused, looked⟩ | ⟨nhopAdds, looked⟩⟩
  · exact .inl ⟨hw, by simp only [olIpRcv, looked, if_pos failed], fun both => refused both.1⟩
  · exact .inl ⟨addRoute pkt.sip pkt.dstAddr p hw, by simp only [olIpRcv, looked, if_pos failed],
      fun both => refused both.2⟩
  · refine .inr ⟨routeAdds, nhopAdds, ?_⟩
    simp only [olIpRcv, looked, ne_eq, not_true_eq_false, if_false]

theorem olIpRcv_defined (routed : fibResLookup p.slot (rteBeToCpu32 pkt.dstAddr) s = some fRes)
    (first : mpathFirst s fRes = some p.fNhop) : olIpRcv duplicate env p.slot s pkt hw ≠ none := by
  rcases @olIpRcv_cases duplicate env pkt s hw fRes p routed first with ⟨hw', stopped, _⟩ | ⟨_, _, forwarded⟩
  · simp [stopped]
  · rw [forwarded]
    dsimp only
    split
    · simp
    · split
      · simp [ipForwardM_defined first]
      · exact ipForward_defined pkt.rss first

/-- `ol_ip_rcv` sends what the lookups alone give, provided that the driver takes the entries. -/
theorem olIpRcv_sent (routed : fibResLookup p.slot (rteBeToCpu32 pkt.dstAddr) s = some fRes)
    (first : mpathFirst s fRes = some p.fNhop) :
    (∃ hw', olIpRcv duplicate env p.slot s pkt hw = some (hw', some result)) ↔
      (if fibResIsReject fRes || fibResIsMroute fRes then none else Offload.ipForward pkt.rss p.slot fRes s) =
        some result ∧ DriverTakes duplicate env pkt p s hw := by
  rcases @olIpRcv_cases duplicate env pkt s hw fRes p routed first with
    ⟨hw', stopped, refused⟩ | ⟨routeAdds, nhopAdds, forwarded⟩
  · exact iff_of_false (by simp [stopped]) fun both => refused ⟨both.2.routeAdds, both.2.nhopAdds⟩
  · rw [forwarded]
    cases fibResIsReject fRes with
    | true => simp
    | false =>
      cases fibResIsMroute fRes with
      | true => simp
      | false =>
        refine (ipForward_sent pkt.rss first).trans (and_congr_right fun _ => ?_)
        exact ⟨fun neighAdds => ⟨routeAdds, nhopAdds, neighAdds⟩, fun takes => takes.neighAdds⟩

theorem olIpRcv_undefined {i : Nat}
    (missing : (fibResLookup i (rteBeToCpu32 pkt.dstAddr) s).bind (mpathFirst s) = none) :
    olIpRcv duplicate env i s pkt hw = none := by
  cases found : fibResLookup i (rteBeToCpu32 pkt.dstAddr) s with
  | none => simp only [olIpRcv, ntbRouteLookup, found]
  | some fRes =>
    rw [found, Option.bind_some] at missing
    simp only [olIpRcv, ntbRouteLookup, found, missing, if_true, Option.map_none]

/-! ## The whole path -/

theorem packetPath_some (found : packetPath pkt s = some p) : tunnelSlot pkt.vni s = some p.slot ∧
    ∃ fRes, fibResLookup p.slot (rteBeToCpu32 pkt.dstAddr) s = some fRes ∧ mpathFirst s fRes = some p.fNhop := by
  obtain ⟨i, slot, routed⟩ := Option.bind_eq_some_iff.mp found
  obtain ⟨fNhop, live, rfl⟩ := Option.map_eq_some_iff.mp routed
  exact ⟨slot, Option.bind_eq_some_iff.mp live⟩

theorem packetPath_of_slot {i : Nat} (slot : tunnelSlot pkt.vni s = some i) : packetPath pkt s =
    ((fibResLookup i (rteBeToCpu32 pkt.dstAddr) s).bind (mpathFirst s)).map fun fNhop => ⟨i, fNhop⟩ := by
  rw [packetPath, slot, Option.bind_some]

/-- A tunnel entry is no matter of the entries that follow. -/
theorem driverTakes_tunnel {vrfId : BitVec 32} :
    DriverTakes duplicate env pkt p s (shcHalTunnelMapVrfEntryAdd duplicate env.tunnel .vxlan pkt.vni vrfId hw).1 ↔
      DriverTakes duplicate env pkt p s hw := by
  rw [shcHalTunnelMapVrfEntryAdd]
  cases halEntryAdd duplicate env.tunnel hw.tunnelMapVrf (shcHalTunnelMapVrfKey .vxlan pkt.vni)
      (if NtbTunnelType.vxlan = .vxlan then ⟨vrfId⟩ else ⟨pkt.vni⟩) with
  | none => exact Iff.rfl
  | some tunnelMapVrf => exact ⟨fun takes => ⟨takes.routeAdds, takes.nhopAdds, takes.neighAdds⟩,
      fun takes => ⟨takes.routeAdds, takes.nhopAdds, takes.neighAdds⟩⟩

theorem vxlanTunnelRcv_of_slot {i : Nat} (slot : tunnelSlot pkt.vni s = some i) : vxlanTunnelRcv duplicate env pkt s =
    (olIpRcv duplicate env i s pkt
      (shcHalTunnelMapVrfEntryAdd duplicate env.tunnel .vxlan pkt.vni (dpVrfId i) s.hw).1).map
        fun r => ({ s with hw := r.1 }, r.2) := by
  simp only [vxlanTunnelRcv, ntbTunnelMapVrfLookup_some duplicate env.tunnel 0 s.hw slot, if_true]

/-- For a VNI with a VRF the outcome is undefined without a next hop only. -/
theorem vxlanTunnelRcv_undefined {i : Nat} (slot : tunnelSlot pkt.vni s = some i) :
    vxlanTunnelRcv duplicate env pkt s = none ↔ packetPath pkt s = none := by
  rw [vxlanTunnelRcv_of_slot slot, Option.map_eq_none_iff]
  constructor
  · intro undefined
    by_contra found
    obtain ⟨p, path⟩ := Option.ne_none_iff_exists'.mp found
    obtain ⟨own, fRes, routed, first⟩ := packetPath_some path
    obtain rfl := Option.some.inj (slot.symm.trans own)
    exact (olIpRcv_defined routed first) undefined
  · intro missing
    rw [packetPath_of_slot slot, Option.map_eq_none_iff] at missing
    exact olIpRcv_undefined missing

/-- A packet is given what the lookups alone give, provided that the driver takes the entries. -/
theorem vxlanTunnelRcv_sent : (∃ s', vxlanTunnelRcv duplicate env pkt s = some (s', some result)) ↔
    softwareForward pkt.rss pkt.vni pkt.dstAddr s = some result ∧
      ∃ p, packetPath pkt s = some p ∧ DriverTakes duplicate env pkt p s s.hw := by
  cases slot : tunnelSlot pkt.vni s with
  | none =>
    -- without a VRF neither looks further
    refine iff_of_false ?_ (by simp [softwareForward, slot])
    rintro ⟨s', sent⟩
    unfold vxlanTunnelRcv at sent
    split at sent
    next => cases sent
    next => cases sent
    next hw i found => exact ntbTunnelMapVrfLookup_none duplicate env.tunnel 0 s.hw slot hw i found
  | some i =>
    -- the tunnel entry that is written first does not touch the tables of the others
    have decomposed : (∃ s', vxlanTunnelRcv duplicate env pkt s = some (s', some result)) ↔
        ∃ hw', olIpRcv duplicate env i s pkt
          (shcHalTunnelMapVrfEntryAdd duplicate env.tunnel .vxlan pkt.vni (dpVrfId i) s.hw).1 =
            some (hw', some result) := by
      simp [vxlanTunnelRcv_of_slot slot]
    rw [decomposed, packetPath_of_slot slot]
    cases live : (fibResLookup i (rteBeToCpu32 pkt.dstAddr) s).bind (mpathFirst s) with
    | none => simp [olIpRcv_undefined live]
    | some fNhop =>
      obtain ⟨fRes, routed, first⟩ := Option.bind_eq_some_iff.mp live
      have sent := @olIpRcv_sent duplicate env pkt s
        (shcHalTunnelMapVrfEntryAdd duplicate env.tunnel .vxlan pkt.vni (dpVrfId i) s.hw).1 fRes ⟨i, fNhop⟩ result
        routed first
      rw [driverTakes_tunnel] at sent
      simpa [softwareForward, slot, routed] using sent

theorem vxlanTunnelRcv_frame {s' : AgentState} {sent : Option Rewrite}
    (defined : vxlanTunnelRcv duplicate env pkt s = some (s', sent)) : s' = { s with hw := s'.hw } := by
  unfold vxlanTunnelRcv at defined
  split at defined
  next => cases defined
  next => cases defined; rfl
  next =>
    obtain ⟨r, _, same⟩ := Option.map_eq_some_iff.mp defined
    obtain ⟨rfl, _⟩ := Prod.mk.inj same
    rfl

end SoftwarePath

end Tao.Offload
