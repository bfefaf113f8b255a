import Tao.Agent.Vrf

/-! # Offloading a flow (`entry_api.c`)

`shc_swTohw_rule` looks a flow up in the software tables and writes, or deletes, one
entry of each hardware table on the way.  `none` stands for undefined behaviour: a
null `vrf_dp`, and a result whose `mpath[0]` is not a live next hop.  The scratch
Ethernet header, a pointer that is never set, is taken as writable memory. -/

namespace Tao.Offload

open Tao.Foundation Tao.Agent Tao.Hal

/-- What the driver answers to the four hardware calls of a rule. -/
structure RuleEnv where
  tunnel : Bool
  route : Bool
  nhop : Bool
  neigh : Bool

/-! ## The hardware entries of `route.c` and `neigh.c` -/

def shcHalRouteEntryAdd (duplicate : HalDuplicate) (accepts : Bool) (vrfId : BitVec 32) (srcIp dstIp : BitVec 32)
    (nhOid : Oid) (hw : HwTables) : HwTables × Int :=
  match halEntryAdd duplicate accepts hw.route ⟨vrfId, srcIp, dstIp⟩ ⟨nhOid⟩ with
  | none => (hw, ntbLoadToP4Fail)
  | some route => ({ hw with route := route }, 0)

def shcHalRouteEntryDel (accepts : Bool) (vrfId : BitVec 32) (srcIp dstIp : BitVec 32) (hw : HwTables) :
    HwTables × Int :=
  match halEntryDel accepts hw.route ⟨vrfId, srcIp, dstIp⟩ with
  | none => (hw, ntbLoadToP4Fail)
  | some route => ({ hw with route := route }, 0)

/-- `_shc_hal_nhop_entry_add`.  It is given a tunnel key and a local address and writes constants. -/
def shcHalNhopEntryAdd (duplicate : HalDuplicate) (accepts : Bool) (nhopId : Oid) (_tunnelKey _loc : BitVec 32)
    (remote : BitVec 32) (neighId : Oid) (hw : HwTables) : HwTables × Int :=
  match halEntryAdd duplicate accepts hw.nhop ⟨nhopId⟩ ⟨11, 0xD00001, remote, neighId⟩ with
  | none => (hw, ntbLoadToP4Fail)
  | some nhop => ({ hw with nhop := nhop }, 0)

def shcHalNhopEntryDel (accepts : Bool) (nhopId : Oid) (hw : HwTables) : HwTables × Int :=
  match halEntryDel accepts hw.nhop ⟨nhopId⟩ with
  | none => (hw, ntbLoadToP4Fail)
  | some nhop => ({ hw with nhop := nhop }, 0)

def shcHalNeighEntryAdd (duplicate : HalDuplicate) (accepts : Bool) (neighOid : Oid) (dmac : EtherAddr)
    (hw : HwTables) : HwTables × Int :=
  match halEntryAdd duplicate accepts hw.neigh ⟨neighOid⟩ ⟨dmac⟩ with
  | none => (hw, ntbLoadToP4Fail)
  | some neigh => ({ hw with neigh := neigh }, 0)

def shcHalNeighEntryDel (accepts : Bool) (neighOid : Oid) (hw : HwTables) : HwTables × Int :=
  match halEntryDel accepts hw.neigh ⟨neighOid⟩ with
  | none => (hw, ntbLoadToP4Fail)
  | some neigh => ({ hw with neigh := neigh }, 0)

/-! ## Lookups that program the hardware

Their flag is 0 to add the entries they come by, and anything else to delete them. -/

/-- `ntb_tunnel_map_vrf_lookup`: the slot of the VRF.  What the driver answers is ignored. -/
def ntbTunnelMapVrfLookup (duplicate : HalDuplicate) (accepts : Bool) (type : NtbTunnelType) (id : NtbTunnelId)
    (flagOfAddDel : Int) (s : AgentState) (hw : HwTables) : Option (HwTables × Option Nat) :=
  match s.vrfHashTbl.lookup ⟨type, id⟩ with
  | none => some (hw, none)
  | some a =>
    match s.tunnels.lookup a with
    | none => none
    | some tunnelI =>
      match ntbVrfDpGetById tunnelI.vrfId s with
      | none => none
      | some vrfDp =>
        if flagOfAddDel = 0 then
          some ((shcHalTunnelMapVrfEntryAdd duplicate accepts type id tunnelI.vrfId hw).1, vrfDp)
        else some ((shcHalTunnelMapVrfEntryDel accepts type id hw).1, vrfDp)

def mpathFirst (s : AgentState) (fRes : FibRes) : Option FibNhop :=
  fRes.mpath.head?.bind s.route.store.nhops.lookup

def fibResLookup (i : Nat) (dip : BitVec 32) (s : AgentState) : Option FibRes :=
  s.route.fibRes.lookup (rteFibLookup (s.route.fib (i + 1)) fResBlackhole dip)

/-- The part of `ntb_route_lookup` that programs `nhop_tbl`. -/
def routeLookupNhop (duplicate : HalDuplicate) (accepts : Bool) (flagOfAddDel : Int) (fNhop : FibNhop)
    (hw : HwTables) : HwTables × Int :=
  let vni := fNhop.tunnelInfo.vxlanVni.setWidth 32
  let loc := fNhop.tunnelInfo.vxlanLocal
  let remote := fNhop.tunnelInfo.vxlanRemote
  if flagOfAddDel = 0 then shcHalNhopEntryAdd duplicate accepts fNhop.nhOid vni loc remote fNhop.neighOid hw
  else shcHalNhopEntryDel accepts fNhop.nhOid hw

/-- `ntb_route_lookup` in the VRF of a slot: the result, with 0 or a negative code.  The add reads
    `mpath[0]` at once, the delete only after it deleted the route entry. -/
def ntbRouteLookup (duplicate : HalDuplicate) (env : RuleEnv) (i : Nat) (sip dip : Ip4) (flagOfAddDel : Int)
    (s : AgentState) (hw : HwTables) : Option (HwTables × FibRes × Int) :=
  let sip := rteBeToCpu32 sip
  let dip := rteBeToCpu32 dip
  match fibResLookup i dip s with
  | none => none
  | some fRes =>
    let routed :=
      if flagOfAddDel = 0 then
        (mpathFirst s fRes).map fun fNhop =>
          shcHalRouteEntryAdd duplicate env.route (dpVrfId i) sip dip fNhop.nhOid hw
      else some (shcHalRouteEntryDel env.route (dpVrfId i) sip dip hw)
    match routed with
    | none => none
    | some (hw, ret) =>
      if ret < 0 then some (hw, fRes, ret)
      else
        match mpathFirst s fRes with
        | none => none
        | some fNhop =>
          let (hw, ret) := routeLookupNhop duplicate env.nhop flagOfAddDel fNhop hw
          some (hw, fRes, ret)

def neighFind (i : Nat) (gw : Ip4) (s : AgentState) : Except Int OlNeighEntry :=
  match s.route.store.neigh.hashTbl.lookup ⟨i + 1, gw⟩ with
  | none => .error (-enoent)
  | some nhop => if nhop.fArpValid then .ok nhop else .error (-1) -- the address is not known yet

def ntbNeighLookup (duplicate : HalDuplicate) (accepts : Bool) (i : Nat) (gw : Ip4) (flagOfAddDel : Int)
    (s : AgentState) (hw : HwTables) : HwTables × Int :=
  match neighFind i gw s with
  | .error code => (hw, code)
  | .ok nhop =>
    if flagOfAddDel = 0 then shcHalNeighEntryAdd duplicate accepts nhop.neighOid nhop.hh.dAddr hw
    else shcHalNeighEntryDel accepts nhop.neighOid hw

/-- The initialiser `{.vni = vni, .vpcid = vpcid, .common_id = commonId}` of `ntb_tunnel_id_t`.  The
    members of the union share their memory and are set in this order. -/
def ntbTunnelIdInit (_vni _vpcid commonId : BitVec 32) : NtbTunnelId := commonId

def shcSwTohwRule (duplicate : HalDuplicate) (env : RuleEnv) (vni : BitVec 32) (ipSrcAddr ipDstAddr : Ip4)
    (flagOfAddDel : Int) (s : AgentState) : Option (AgentState × Int) :=
  match ntbTunnelMapVrfLookup duplicate env.tunnel .vxlan (ntbTunnelIdInit vni 0 0) flagOfAddDel s s.hw with
  | none => none
  | some (_, none) => none -- the assertion on `vrf_dp` is compiled out
  | some (hw, some i) =>
    match ntbRouteLookup duplicate env i ipSrcAddr ipDstAddr flagOfAddDel s hw with
    | none => none
    | some (hw, fRes, ret) =>
      if ret < 0 then some ({ s with hw := hw }, ret)
      else
        -- `nhsel` stays 0
        match mpathFirst s fRes with
        | none => none
        | some fNhop =>
          let (hw, ret) := ntbNeighLookup duplicate env.neigh i fNhop.gateway flagOfAddDel s hw
          some ({ s with hw := hw }, if ret < 0 then ret else 0)

/-! ## Runs -/

inductive AgentCall where
  | vrf (call : VrfCall)
  | route (call : RouteCall)
  | rule (env : RuleEnv) (vni : BitVec 32) (ipSrcAddr ipDstAddr : Ip4) (flagOfAddDel : Int)

def agentStep (duplicate : HalDuplicate) (s : AgentState) : AgentCall → Option AgentState
  | .vrf call => vrfStep s call
  | .route call => (routeStep s.route call).map fun route => { s with route := route }
  | .rule env vni ipSrcAddr ipDstAddr flagOfAddDel =>
    (shcSwTohwRule duplicate env vni ipSrcAddr ipDstAddr flagOfAddDel s).map Prod.fst

end Tao.Offload
