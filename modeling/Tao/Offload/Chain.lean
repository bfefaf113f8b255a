import Tao.Agent.TunnelStore
import Tao.Offload.Rule

/-! # What a rule does to the hardware

A rule is looked up along one path of the software tables, whatever its VNI is, and
writes the entries of that path one after the other until a step fails.
`ruleAdd_cases` lists the points at which it can stop. -/

namespace Tao.Offload

open Tao.Foundation Tao.Agent Tao.Hal

/-! ## The path of a rule -/

def tunnelSlot (id : NtbTunnelId) (s : AgentState) : Option Nat :=
  match s.vrfHashTbl.lookup ⟨.vxlan, id⟩ with
  | none => none
  | some a =>
    match s.tunnels.lookup a with
    | none => none
    | some tunnelI => (ntbVrfDpGetById tunnelI.vrfId s).join

/-- The VRF and the result that a rule for a destination finds. -/
def ruleResult (ipDstAddr : Ip4) (s : AgentState) : Option (Nat × FibRes) :=
  match tunnelSlot 0 s with
  | none => none
  | some i => (fibResLookup i (rteBeToCpu32 ipDstAddr) s).map fun fRes => (i, fRes)

structure RulePath where
  slot : Nat
  fNhop : FibNhop
  deriving DecidableEq

def rulePath (ipDstAddr : Ip4) (s : AgentState) : Option RulePath :=
  match ruleResult ipDstAddr s with
  | none => none
  | some (i, fRes) => (mpathFirst s fRes).map fun fNhop => ⟨i, fNhop⟩

namespace RulePath

/-- The key of every rule in `tunnel_map_vrf_tbl`. -/
def tunnelKey : HalTunnelMapVrfKey := ⟨.vxlan, 0⟩

def routeKey (slot : Nat) (ipSrcAddr ipDstAddr : Ip4) : HalRouteKey :=
  ⟨dpVrfId slot, rteBeToCpu32 ipSrcAddr, rteBeToCpu32 ipDstAddr⟩

def nhopData (fNhop : FibNhop) : HalNhopData :=
  ⟨11, 0xD00001, fNhop.tunnelInfo.vxlanRemote, fNhop.neighOid⟩

def neigh (p : RulePath) (s : AgentState) : Except Int OlNeighEntry := neighFind p.slot p.fNhop.gateway s

end RulePath

structure Flow where
  vni : BitVec 32
  ipSrcAddr : Ip4
  ipDstAddr : Ip4
  deriving DecidableEq

def ruleChain (ipSrcAddr ipDstAddr : Ip4) (p : RulePath) (nhop : OlNeighEntry) : HwChain :=
  ⟨RulePath.tunnelKey, RulePath.routeKey p.slot ipSrcAddr ipDstAddr, ⟨p.fNhop.nhOid⟩, ⟨nhop.neighOid⟩⟩

theorem ntbVrfGetById_found {vrfid : BitVec 32} {s : AgentState} {i : Nat}
    (found : ntbVrfGetById vrfid s = some (some i)) : i < ntbNrVrf ∧ vrfid = dpVrfId i := by
  simp only [ntbVrfGetById] at found
  split at found
  next => cases found
  next low =>
    split at found
    next holds =>
      -- an index in bounds gives the id back
      obtain rfl := Option.some.inj (Option.some.inj found)
      have bound : (vrfid - 1).toInt < 4096 := holds.1
      refine ⟨by show _ < 4096; omega, ?_⟩
      have index : BitVec.ofInt 32 ((vrfid - 1).toInt.toNat : Int) = vrfid - 1 := by
        rw [Int.toNat_of_nonneg (by omega), BitVec.ofInt_toInt]
      rw [BitVec.ofInt_natCast] at index
      rw [dpVrfId, BitVec.ofNat_add, index]
      exact (BitVec.sub_add_cancel _ _).symm
    next => cases found

theorem tunnelSlot_some {id : NtbTunnelId} {s : AgentState} {i : Nat} (found : tunnelSlot id s = some i) :
    ∃ a, s.vrfHashTbl.lookup ⟨.vxlan, id⟩ = some a ∧ s.tunnels.lookup a = some ⟨dpVrfId i⟩ ∧
      ntbVrfDpGetById (dpVrfId i) s = some (some i) := by
  unfold tunnelSlot at found
  split at found
  next => cases found
  next a held =>
    split at found
    next => cases found
    next tunnelI live =>
      have vrf : ntbVrfDpGetById tunnelI.vrfId s = some (some i) := Option.join_eq_some_iff.mp found
      have same := (ntbVrfGetById_found vrf).2
      exact ⟨a, held, by rw [live, ← same], by rw [← same, vrf]⟩

theorem ntbTunnelMapVrfLookup_none (duplicate : HalDuplicate) (accepts : Bool) {id : NtbTunnelId}
    (flagOfAddDel : Int) {s : AgentState} (hw : HwTables) (missing : tunnelSlot id s = none) :
    ∀ hw' i, ntbTunnelMapVrfLookup duplicate accepts .vxlan id flagOfAddDel s hw ≠ some (hw', some i) := by
  intro hw' i result
  unfold tunnelSlot at missing
  unfold ntbTunnelMapVrfLookup at result
  split at missing
  next absent => simp only [absent] at result; cases result
  next a held =>
    simp only [held] at result
    split at missing
    next freed => simp only [freed] at result; cases result
    next tunnelI live =>
      simp only [live] at result
      split at result
      next => cases result
      next vrfDp found =>
        rw [found, Option.join_some] at missing
        subst missing
        split at result <;> cases result

theorem ntbTunnelMapVrfLookup_some (duplicate : HalDuplicate) (accepts : Bool) {id : NtbTunnelId}
    (flagOfAddDel : Int) {s : AgentState} (hw : HwTables) {i : Nat} (found : tunnelSlot id s = some i) :
    ntbTunnelMapVrfLookup duplicate accepts .vxlan id flagOfAddDel s hw = some
      (if flagOfAddDel = 0 then (shcHalTunnelMapVrfEntryAdd duplicate accepts .vxlan id (dpVrfId i) hw).1
        else (shcHalTunnelMapVrfEntryDel accepts .vxlan id hw).1, some i) := by
  obtain ⟨a, held, live, vrf⟩ := tunnelSlot_some found
  simp only [ntbTunnelMapVrfLookup, held, live, vrf]
  split <;> rfl

/-! ## Adding -/

section Steps

variable (duplicate : HalDuplicate) (env : RuleEnv) (ipSrcAddr ipDstAddr : Ip4) (p : RulePath)

def addTunnel (hw : HwTables) : HwTables :=
  (shcHalTunnelMapVrfEntryAdd duplicate env.tunnel .vxlan 0 (dpVrfId p.slot) hw).1

def addRoute (hw : HwTables) : HwTables :=
  { hw with route := hw.route.insert (RulePath.routeKey p.slot ipSrcAddr ipDstAddr) ⟨p.fNhop.nhOid⟩ }

def addNhop (hw : HwTables) : HwTables :=
  { hw with nhop := hw.nhop.insert ⟨p.fNhop.nhOid⟩ (RulePath.nhopData p.fNhop) }

def addNeigh (nhop : OlNeighEntry) (hw : HwTables) : HwTables :=
  { hw with neigh := hw.neigh.insert ⟨nhop.neighOid⟩ ⟨nhop.hh.dAddr⟩ }

def RouteAdds (hw : HwTables) : Prop :=
  HalAdds duplicate env.route hw.route (RulePath.routeKey p.slot ipSrcAddr ipDstAddr)

def NhopAdds (hw : HwTables) : Prop := HalAdds duplicate env.nhop hw.nhop ⟨p.fNhop.nhOid⟩

def NeighAdds (nhop : OlNeighEntry) (hw : HwTables) : Prop :=
  HalAdds duplicate env.neigh hw.neigh ⟨nhop.neighOid⟩

end Steps

variable {duplicate : HalDuplicate} {env : RuleEnv} {vni : BitVec 32} {ipSrcAddr ipDstAddr : Ip4}
  {s : AgentState} {p : RulePath}

theorem addTunnel_tunnelMapVrf (hw : HwTables) : (addTunnel duplicate env p hw).tunnelMapVrf =
    if HalAdds duplicate env.tunnel hw.tunnelMapVrf RulePath.tunnelKey then
      hw.tunnelMapVrf.insert RulePath.tunnelKey ⟨dpVrfId p.slot⟩
    else hw.tunnelMapVrf := by
  have key : shcHalTunnelMapVrfKey .vxlan 0 = RulePath.tunnelKey := rfl
  simp only [addTunnel, shcHalTunnelMapVrfEntryAdd, key, if_true]
  by_cases adds : HalAdds duplicate env.tunnel hw.tunnelMapVrf RulePath.tunnelKey
  · rw [if_pos adds, halEntryAdd_of_adds adds]
  · rw [if_neg adds, halEntryAdd_of_refused adds]

theorem addTunnel_route (hw : HwTables) : (addTunnel duplicate env p hw).route = hw.route := by
  simp only [addTunnel, shcHalTunnelMapVrfEntryAdd]
  split <;> rfl

theorem addTunnel_nhop (hw : HwTables) : (addTunnel duplicate env p hw).nhop = hw.nhop := by
  simp only [addTunnel, shcHalTunnelMapVrfEntryAdd]
  split <;> rfl

theorem addTunnel_neigh (hw : HwTables) : (addTunnel duplicate env p hw).neigh = hw.neigh := by
  simp only [addTunnel, shcHalTunnelMapVrfEntryAdd]
  split <;> rfl

theorem neighFind_error {i : Nat} {gw : Ip4} {code : Int} (failed : neighFind i gw s = .error code) :
    code < 0 := by
  unfold neighFind at failed
  split at failed
  next => cases failed; decide
  next =>
    split at failed
    next => cases failed
    next => cases failed; decide

theorem shcSwTohwRule_stopped {flagOfAddDel ret : Int} {hwTunnel hw : HwTables} {i : Nat} {fRes : FibRes}
    (lookup : ntbTunnelMapVrfLookup duplicate env.tunnel .vxlan (ntbTunnelIdInit vni 0 0) flagOfAddDel s s.hw =
      some (hwTunnel, some i))
    (routed : ntbRouteLookup duplicate env i ipSrcAddr ipDstAddr flagOfAddDel s hwTunnel = some (hw, fRes, ret))
    (negative : ret < 0) :
    shcSwTohwRule duplicate env vni ipSrcAddr ipDstAddr flagOfAddDel s = some ({ s with hw := hw }, ret) := by
  simp only [shcSwTohwRule, lookup, routed, if_pos negative]

/-- After a route was found the neighbour decides what the rule returns. -/
theorem shcSwTohwRule_routed {flagOfAddDel ret : Int} {hwTunnel hwNhop hw : HwTables} {i : Nat} {fRes : FibRes}
    {fNhop : FibNhop}
    (lookup : ntbTunnelMapVrfLookup duplicate env.tunnel .vxlan (ntbTunnelIdInit vni 0 0) flagOfAddDel s s.hw =
      some (hwTunnel, some i))
    (routed : ntbRouteLookup duplicate env i ipSrcAddr ipDstAddr flagOfAddDel s hwTunnel = some (hwNhop, fRes, 0))
    (first : mpathFirst s fRes = some fNhop)
    (neigh : ntbNeighLookup duplicate env.neigh i fNhop.gateway flagOfAddDel s hwNhop = (hw, ret)) :
    shcSwTohwRule duplicate env vni ipSrcAddr ipDstAddr flagOfAddDel s =
      some ({ s with hw := hw }, if ret < 0 then ret else 0) := by
  simp only [shcSwTohwRule, lookup, routed, first, Int.lt_irrefl, if_false, neigh]

theorem shcSwTohwRule_undefined (flagOfAddDel : Int) (missing : ruleResult ipDstAddr s = none) :
    shcSwTohwRule duplicate env vni ipSrcAddr ipDstAddr flagOfAddDel s = none := by
  cases slot : tunnelSlot 0 s with
  | none =>
    have lookup := ntbTunnelMapVrfLookup_none duplicate env.tunnel flagOfAddDel s.hw slot
    unfold shcSwTohwRule
    split
    next => rfl
    next => rfl
    next hw i found => exact (lookup hw i found).elim
  | some i =>
    have lookup := ntbTunnelMapVrfLookup_some duplicate env.tunnel flagOfAddDel s.hw slot
    simp only [ruleResult, slot, Option.map_eq_none_iff] at missing
    simp only [shcSwTohwRule, ntbTunnelIdInit, lookup, ntbRouteLookup, missing]

theorem ruleResult_some {i : Nat} {fRes : FibRes} (found : ruleResult ipDstAddr s = some (i, fRes)) :
    tunnelSlot 0 s = some i ∧ fibResLookup i (rteBeToCpu32 ipDstAddr) s = some fRes := by
  unfold ruleResult at found
  split at found
  next => cases found
  next j slot =>
    obtain ⟨_, result, same⟩ := Option.map_eq_some_iff.mp found
    cases same
    exact ⟨slot, result⟩

theorem ruleAdd_undefined (missing : rulePath ipDstAddr s = none) :
    shcSwTohwRule duplicate env vni ipSrcAddr ipDstAddr 0 s = none := by
  cases found : ruleResult ipDstAddr s with
  | none => exact shcSwTohwRule_undefined 0 found
  | some outcome =>
    obtain ⟨slot, result⟩ := ruleResult_some found
    have lookup := ntbTunnelMapVrfLookup_some duplicate env.tunnel 0 s.hw slot
    simp only [rulePath, found, Option.map_eq_none_iff] at missing
    simp only [shcSwTohwRule, ntbTunnelIdInit, lookup, ntbRouteLookup, result, missing, if_true, Option.map_none]

theorem rulePath_some (found : rulePath ipDstAddr s = some p) :
    ∃ fRes, tunnelSlot 0 s = some p.slot ∧ fibResLookup p.slot (rteBeToCpu32 ipDstAddr) s = some fRes ∧
      mpathFirst s fRes = some p.fNhop := by
  unfold rulePath at found
  split at found
  next => cases found
  next i fRes result =>
    obtain ⟨slot, result⟩ := ruleResult_some result
    obtain ⟨fNhop, first, rfl⟩ := Option.map_eq_some_iff.mp found
    exact ⟨fRes, slot, result, first⟩

theorem routeEntry_added {hw : HwTables} (adds : RouteAdds duplicate env ipSrcAddr ipDstAddr p hw) :
    shcHalRouteEntryAdd duplicate env.route (dpVrfId p.slot) (rteBeToCpu32 ipSrcAddr)
      (rteBeToCpu32 ipDstAddr) p.fNhop.nhOid hw = (addRoute ipSrcAddr ipDstAddr p hw, 0) := by
  have entry := halEntryAdd_of_adds adds ⟨p.fNhop.nhOid⟩
  rw [RulePath.routeKey] at entry
  rw [shcHalRouteEntryAdd, entry]
  rfl

theorem routeEntry_refused {hw : HwTables} (refused : ¬ RouteAdds duplicate env ipSrcAddr ipDstAddr p hw) :
    shcHalRouteEntryAdd duplicate env.route (dpVrfId p.slot) (rteBeToCpu32 ipSrcAddr)
      (rteBeToCpu32 ipDstAddr) p.fNhop.nhOid hw = (hw, ntbLoadToP4Fail) := by
  have entry := halEntryAdd_of_refused refused ⟨p.fNhop.nhOid⟩
  rw [RulePath.routeKey] at entry
  rw [shcHalRouteEntryAdd, entry]

theorem nhopEntry_added {hw : HwTables} (adds : NhopAdds duplicate env p hw) :
    routeLookupNhop duplicate env.nhop 0 p.fNhop hw = (addNhop p hw, 0) := by
  simp only [routeLookupNhop, if_true, shcHalNhopEntryAdd, halEntryAdd_of_adds adds]
  rfl

theorem nhopEntry_refused {hw : HwTables} (refused : ¬ NhopAdds duplicate env p hw) :
    routeLookupNhop duplicate env.nhop 0 p.fNhop hw = (hw, ntbLoadToP4Fail) := by
  simp only [routeLookupNhop, if_true, shcHalNhopEntryAdd, halEntryAdd_of_refused refused]

theorem neighEntry_added {hw : HwTables} {nhop : OlNeighEntry} (adds : NeighAdds duplicate env nhop hw) :
    shcHalNeighEntryAdd duplicate env.neigh nhop.neighOid nhop.hh.dAddr hw = (addNeigh nhop hw, 0) := by
  rw [shcHalNeighEntryAdd, halEntryAdd_of_adds adds]
  rfl

theorem neighEntry_refused {hw : HwTables} {nhop : OlNeighEntry} (refused : ¬ NeighAdds duplicate env nhop hw) :
    shcHalNeighEntryAdd duplicate env.neigh nhop.neighOid nhop.hh.dAddr hw = (hw, ntbLoadToP4Fail) := by
  rw [shcHalNeighEntryAdd, halEntryAdd_of_refused refused]

theorem routeAdds_addTunnel {hw : HwTables} : RouteAdds duplicate env ipSrcAddr ipDstAddr p
    (addTunnel duplicate env p hw) ↔ RouteAdds duplicate env ipSrcAddr ipDstAddr p hw := by
  rw [RouteAdds, RouteAdds, addTunnel_route]

theorem nhopAdds_addRoute {hw : HwTables} : NhopAdds duplicate env p
    (addRoute ipSrcAddr ipDstAddr p (addTunnel duplicate env p hw)) ↔ NhopAdds duplicate env p hw := by
  rw [NhopAdds, NhopAdds, addRoute, addTunnel_nhop]

theorem neighAdds_addNhop {hw : HwTables} {nhop : OlNeighEntry} : NeighAdds duplicate env nhop
    (addNhop p (addRoute ipSrcAddr ipDstAddr p (addTunnel duplicate env p hw))) ↔
      NeighAdds duplicate env nhop hw := by
  rw [NeighAdds, NeighAdds, addNhop, addRoute, addTunnel_neigh]

theorem ntbRouteLookup_add_cases {fRes : FibRes}
    (result : fibResLookup p.slot (rteBeToCpu32 ipDstAddr) s = some fRes)
    (first : mpathFirst s fRes = some p.fNhop) (hw : HwTables) :
    let hwRoute := addRoute ipSrcAddr ipDstAddr p hw
    (¬ RouteAdds duplicate env ipSrcAddr ipDstAddr p hw ∧
      ntbRouteLookup duplicate env p.slot ipSrcAddr ipDstAddr 0 s hw = some (hw, fRes, ntbLoadToP4Fail)) ∨
    (RouteAdds duplicate env ipSrcAddr ipDstAddr p hw ∧
      ((¬ NhopAdds duplicate env p hwRoute ∧
        ntbRouteLookup duplicate env p.slot ipSrcAddr ipDstAddr 0 s hw =
          some (hwRoute, fRes, ntbLoadToP4Fail)) ∨
      (NhopAdds duplicate env p hwRoute ∧
        ntbRouteLookup duplicate env p.slot ipSrcAddr ipDstAddr 0 s hw = some (addNhop p hwRoute, fRes, 0)))) := by
  intro hwRoute
  have failed : ntbLoadToP4Fail < 0 := by decide
  by_cases routeAdds : RouteAdds duplicate env ipSrcAddr ipDstAddr p hw
  case neg =>
    refine .inl ⟨routeAdds, ?_⟩
    simp only [ntbRouteLookup, result, first, if_true, Option.map_some, routeEntry_refused routeAdds, if_pos failed]
  refine .inr ⟨routeAdds, ?_⟩
  by_cases nhopAdds : NhopAdds duplicate env p hwRoute
  case neg =>
    -- the route entry stays behind
    refine .inl ⟨nhopAdds, ?_⟩
    simp only [ntbRouteLookup, result, first, if_true, Option.map_some, routeEntry_added routeAdds,
      nhopEntry_refused nhopAdds, Int.lt_irrefl, if_false, hwRoute]
  refine .inr ⟨nhopAdds, ?_⟩
  simp only [ntbRouteLookup, result, first, if_true, Option.map_some, routeEntry_added routeAdds,
    nhopEntry_added nhopAdds, Int.lt_irrefl, if_false, hwRoute]

theorem ntbNeighLookup_add_cases (duplicate : HalDuplicate) (env : RuleEnv) (s : AgentState) (p : RulePath)
    (hw : HwTables) :
    (∃ code < 0, p.neigh s = .error code ∧
      ntbNeighLookup duplicate env.neigh p.slot p.fNhop.gateway 0 s hw = (hw, code)) ∨
    ∃ nhop, p.neigh s = .ok nhop ∧
      ((¬ NeighAdds duplicate env nhop hw ∧
        ntbNeighLookup duplicate env.neigh p.slot p.fNhop.gateway 0 s hw = (hw, ntbLoadToP4Fail)) ∨
      (NeighAdds duplicate env nhop hw ∧
        ntbNeighLookup duplicate env.neigh p.slot p.fNhop.gateway 0 s hw = (addNeigh nhop hw, 0))) := by
  unfold RulePath.neigh ntbNeighLookup
  cases neigh : neighFind p.slot p.fNhop.gateway s with
  | error code => exact .inl ⟨code, neighFind_error neigh, rfl, rfl⟩
  | ok nhop =>
    refine .inr ⟨nhop, rfl, ?_⟩
    by_cases neighAdds : NeighAdds duplicate env nhop hw
    · exact .inr ⟨neighAdds, neighEntry_added neighAdds⟩
    · exact .inl ⟨neighAdds, neighEntry_refused neighAdds⟩

/-- Where an add can stop: at the route entry, at the next hop entry, at the neighbour lookup, at
    the neighbour entry, or not at all. -/
theorem ruleAdd_cases (vni : BitVec 32) (found : rulePath ipDstAddr s = some p) :
    let hwTunnel := addTunnel duplicate env p s.hw
    let hwRoute := addRoute ipSrcAddr ipDstAddr p hwTunnel
    let hwNhop := addNhop p hwRoute
    (¬ RouteAdds duplicate env ipSrcAddr ipDstAddr p s.hw ∧
      shcSwTohwRule duplicate env vni ipSrcAddr ipDstAddr 0 s =
        some ({ s with hw := hwTunnel }, ntbLoadToP4Fail)) ∨
    (RouteAdds duplicate env ipSrcAddr ipDstAddr p s.hw ∧ ¬ NhopAdds duplicate env p s.hw ∧
      shcSwTohwRule duplicate env vni ipSrcAddr ipDstAddr 0 s =
        some ({ s with hw := hwRoute }, ntbLoadToP4Fail)) ∨
    (RouteAdds duplicate env ipSrcAddr ipDstAddr p s.hw ∧ NhopAdds duplicate env p s.hw ∧
      ∃ code < 0, p.neigh s = .error code ∧
        shcSwTohwRule duplicate env vni ipSrcAddr ipDstAddr 0 s = some ({ s with hw := hwNhop }, code)) ∨
    (RouteAdds duplicate env ipSrcAddr ipDstAddr p s.hw ∧ NhopAdds duplicate env p s.hw ∧
      ∃ nhop, p.neigh s = .ok nhop ∧ ¬ NeighAdds duplicate env nhop s.hw ∧
        shcSwTohwRule duplicate env vni ipSrcAddr ipDstAddr 0 s =
          some ({ s with hw := hwNhop }, ntbLoadToP4Fail)) ∨
    (RouteAdds duplicate env ipSrcAddr ipDstAddr p s.hw ∧ NhopAdds duplicate env p s.hw ∧
      ∃ nhop, p.neigh s = .ok nhop ∧ NeighAdds duplicate env nhop s.hw ∧
        shcSwTohwRule duplicate env vni ipSrcAddr ipDstAddr 0 s =
          some ({ s with hw := addNeigh nhop hwNhop }, 0)) := by
  intro hwTunnel hwRoute hwNhop
  obtain ⟨fRes, slot, result, first⟩ := rulePath_some found
  -- the VNI does not reach the lookup
  have lookup : ntbTunnelMapVrfLookup duplicate env.tunnel .vxlan (ntbTunnelIdInit vni 0 0) 0 s s.hw =
      some (hwTunnel, some p.slot) := ntbTunnelMapVrfLookup_some duplicate env.tunnel 0 s.hw slot
  have failed : ntbLoadToP4Fail < 0 := by decide
  rcases ntbRouteLookup_add_cases result first hwTunnel with
    ⟨refused, routed⟩ | ⟨routeAdds, ⟨refused, routed⟩ | ⟨nhopAdds, routed⟩⟩
  · exact .inl ⟨mt routeAdds_addTunnel.mpr refused, shcSwTohwRule_stopped lookup routed failed⟩
  · exact .inr (.inl ⟨routeAdds_addTunnel.mp routeAdds, mt nhopAdds_addRoute.mpr refused,
      shcSwTohwRule_stopped lookup routed failed⟩)
  · rw [routeAdds_addTunnel] at routeAdds
    rw [nhopAdds_addRoute] at nhopAdds
    rcases ntbNeighLookup_add_cases duplicate env s p hwNhop with
      ⟨code, negative, neigh, looked⟩ | ⟨nhop, neigh, ⟨refused, looked⟩ | ⟨neighAdds, looked⟩⟩
    · have outcome := shcSwTohwRule_routed lookup routed first looked
      rw [if_pos negative] at outcome
      exact .inr (.inr (.inl ⟨routeAdds, nhopAdds, code, negative, neigh, outcome⟩))
    · have outcome := shcSwTohwRule_routed lookup routed first looked
      rw [if_pos failed] at outcome
      exact .inr (.inr (.inr (.inl ⟨routeAdds, nhopAdds, nhop, neigh, mt neighAdds_addNhop.mpr refused, outcome⟩)))
    · have outcome := shcSwTohwRule_routed lookup routed first looked
      exact .inr (.inr (.inr (.inr ⟨routeAdds, nhopAdds, nhop, neigh, neighAdds_addNhop.mp neighAdds, outcome⟩)))

/-! ## When a flow can be offloaded -/

/-- The lookups of the add of a flow find a path and a neighbour, and the driver carries out the adds
    of its route, next hop and neighbour entries. -/
structure OffloadsAlong (duplicate : HalDuplicate) (env : RuleEnv) (flow : Flow) (s : AgentState)
    (p : RulePath) (nhop : OlNeighEntry) : Prop where
  path : rulePath flow.ipDstAddr s = some p
  routeAdds : RouteAdds duplicate env flow.ipSrcAddr flow.ipDstAddr p s.hw
  nhopAdds : NhopAdds duplicate env p s.hw
  neighbour : p.neigh s = .ok nhop
  neighAdds : NeighAdds duplicate env nhop s.hw

def offloaded (duplicate : HalDuplicate) (env : RuleEnv) (flow : Flow) (p : RulePath) (nhop : OlNeighEntry)
    (s : AgentState) : AgentState :=
  { s with hw := addNeigh nhop (addNhop p (addRoute flow.ipSrcAddr flow.ipDstAddr p
      (addTunnel duplicate env p s.hw))) }

/-- An add returns 0 exactly when the flow can be offloaded. -/
theorem ruleAdd_zero_iff {flow : Flow} {s' : AgentState} :
    shcSwTohwRule duplicate env flow.vni flow.ipSrcAddr flow.ipDstAddr 0 s = some (s', 0) ↔
      ∃ p nhop, OffloadsAlong duplicate env flow s p nhop ∧ s' = offloaded duplicate env flow p nhop s := by
  constructor
  · intro success
    cases path : rulePath flow.ipDstAddr s with
    | none =>
      rw [ruleAdd_undefined path] at success
      cases success
    | some p =>
      rcases ruleAdd_cases flow.vni path with ⟨_, result⟩ | ⟨_, _, result⟩ | ⟨_, _, code, negative, _, result⟩ |
        ⟨_, _, _, _, _, result⟩ | ⟨route, nhop, entry, neighbour, neigh, result⟩ <;> rw [result] at success
      · cases success
      · cases success
      · cases success; omega
      · cases success
      · cases success
        exact ⟨p, entry, ⟨path, route, nhop, neighbour, neigh⟩, rfl⟩
  · rintro ⟨p, entry, ⟨path, route, nhop, neighbour, neigh⟩, rfl⟩
    rcases ruleAdd_cases flow.vni path with ⟨refused, _⟩ | ⟨_, refused, _⟩ | ⟨_, _, _, _, failed, _⟩ |
      ⟨_, _, entry', neighbour', refused, _⟩ | ⟨_, _, entry', neighbour', _, result⟩
    · exact (refused route).elim
    · exact (refused nhop).elim
    · rw [neighbour] at failed; cases failed
    · obtain rfl := Except.ok.inj (neighbour.symm.trans neighbour')
      exact (refused neigh).elim
    · obtain rfl := Except.ok.inj (neighbour.symm.trans neighbour')
      exact result

/-! ### An agent with two routes -/

/-- VRF `red` with the tunnels 0 and 100, and routes to 10.0.7.0/24 and 10.0.8.0/24 over two next hops
    whose neighbours are known. -/
def twoRoutes : List AgentCall :=
  [.vrf (.vrfAdd redVrf), .vrf (.tunnelMap ⟨some 1, true⟩ redVrf .vxlan 0),
    .vrf (.tunnelMap ⟨some 2, true⟩ redVrf .vxlan 100), .route (insertVxlanNhop 1),
    .route (.nhopInsert (.granted 2 7 8) (subnet24 1 8) { vxlanNhop with gateway := 0x0201010a } .default),
    .route (.neighAddStatic ⟨true, true, .ok 9⟩ 1 0x0101010a 0x020000000001),
    .route (.neighAddStatic ⟨true, true, .ok 9⟩ 1 0x0201010a 0x020000000002)]

def twoRoutesState : AgentState := (run (agentStep .refused) .initial twoRoutes).getD .initial

theorem twoRoutes_reached : run (agentStep .refused) .initial twoRoutes = some twoRoutesState := by
  have defined : (run (agentStep .refused) .initial twoRoutes).isSome = true := by decide +kernel
  exact run_eq_some_getD defined .initial

/-- A flow of VNI 100 from 10.9.0.`host` to 10.0.`net`.1. -/
def flowTo (host net : BitVec 8) : Flow := ⟨100, host ++ 0x00090a#24, 0x01#8 ++ net ++ 0x000a#16⟩

def RuleEnv.accepts : RuleEnv := ⟨true, true, true, true⟩

def addedState (flow : Flow) (s : AgentState) : AgentState :=
  ((shcSwTohwRule .refused .accepts flow.vni flow.ipSrcAddr flow.ipDstAddr 0 s).map Prod.fst).getD s

theorem addedState_reached (flow : Flow) (s : AgentState) {ret : Int}
    (returns : (shcSwTohwRule .refused .accepts flow.vni flow.ipSrcAddr flow.ipDstAddr 0 s).map Prod.snd = some ret) :
    shcSwTohwRule .refused .accepts flow.vni flow.ipSrcAddr flow.ipDstAddr 0 s = some (addedState flow s, ret) := by
  obtain ⟨⟨s', ret'⟩, result, rfl⟩ := Option.map_eq_some_iff.mp returns
  rw [addedState, result]
  rfl

end Tao.Offload
