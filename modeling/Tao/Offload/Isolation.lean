import Tao.Offload.Chain

/-! # Removing an offloaded flow

Every rule shares the tunnel entry, and rules may share their other entries, but no
entry is counted: a delete of one flow takes the entries it finds away from all. -/

namespace Tao.Offload

open Tao.Foundation Tao.Agent Tao.Hal

/-! ## Deleting -/

section Steps

variable (env : RuleEnv) (i : Nat) (flow : Flow) (fNhop : FibNhop)

def delTunnel (hw : HwTables) : HwTables := (shcHalTunnelMapVrfEntryDel env.tunnel .vxlan 0 hw).1

def delRoute (hw : HwTables) : HwTables :=
  { hw with route := hw.route.erase (RulePath.routeKey i flow.ipSrcAddr flow.ipDstAddr) }

def delNhop (hw : HwTables) : HwTables := { hw with nhop := hw.nhop.erase ⟨fNhop.nhOid⟩ }

def delNeigh (nhop : OlNeighEntry) (hw : HwTables) : HwTables :=
  { hw with neigh := hw.neigh.erase ⟨nhop.neighOid⟩ }

def TunnelDels (hw : HwTables) : Prop := HalDels env.tunnel hw.tunnelMapVrf RulePath.tunnelKey

def RouteDels (hw : HwTables) : Prop :=
  HalDels env.route hw.route (RulePath.routeKey i flow.ipSrcAddr flow.ipDstAddr)

def NhopDels (hw : HwTables) : Prop := HalDels env.nhop hw.nhop ⟨fNhop.nhOid⟩

def NeighDels (nhop : OlNeighEntry) (hw : HwTables) : Prop := HalDels env.neigh hw.neigh ⟨nhop.neighOid⟩

end Steps

variable {duplicate : HalDuplicate} {env : RuleEnv} {flow : Flow} {s : AgentState} {i : Nat} {fRes : FibRes}
  {fNhop : FibNhop}

theorem delTunnel_dels {hw : HwTables} (dels : TunnelDels env hw) :
    delTunnel env hw = { hw with tunnelMapVrf := hw.tunnelMapVrf.erase RulePath.tunnelKey } := by
  have key : shcHalTunnelMapVrfKey .vxlan 0 = RulePath.tunnelKey := rfl
  rw [delTunnel, shcHalTunnelMapVrfEntryDel, key, halEntryDel_of_dels dels]

theorem delTunnel_refused {hw : HwTables} (refused : ¬ TunnelDels env hw) : delTunnel env hw = hw := by
  have key : shcHalTunnelMapVrfKey .vxlan 0 = RulePath.tunnelKey := rfl
  rw [delTunnel, shcHalTunnelMapVrfEntryDel, key, halEntryDel_of_refused refused]

theorem delTunnel_frame (env : RuleEnv) (hw : HwTables) : (delTunnel env hw).route = hw.route ∧
    (delTunnel env hw).nhop = hw.nhop ∧ (delTunnel env hw).neigh = hw.neigh := by
  by_cases dels : TunnelDels env hw
  · rw [delTunnel_dels dels]
    exact ⟨rfl, rfl, rfl⟩
  · rw [delTunnel_refused dels]
    exact ⟨rfl, rfl, rfl⟩

theorem routeEntry_deleted {hw : HwTables} (dels : RouteDels env i flow hw) :
    shcHalRouteEntryDel env.route (dpVrfId i) (rteBeToCpu32 flow.ipSrcAddr) (rteBeToCpu32 flow.ipDstAddr) hw =
      (delRoute i flow hw, 0) := by
  have entry := halEntryDel_of_dels dels
  rw [RulePath.routeKey] at entry
  rw [shcHalRouteEntryDel, entry]
  rfl

theorem routeEntry_kept {hw : HwTables} (refused : ¬ RouteDels env i flow hw) :
    shcHalRouteEntryDel env.route (dpVrfId i) (rteBeToCpu32 flow.ipSrcAddr) (rteBeToCpu32 flow.ipDstAddr) hw =
      (hw, ntbLoadToP4Fail) := by
  have entry := halEntryDel_of_refused refused
  rw [RulePath.routeKey] at entry
  rw [shcHalRouteEntryDel, entry]

theorem nhopEntry_deleted {hw : HwTables} (dels : NhopDels env fNhop hw) :
    routeLookupNhop duplicate env.nhop 1 fNhop hw = (delNhop fNhop hw, 0) := by
  simp only [routeLookupNhop, Int.one_ne_zero, if_false, shcHalNhopEntryDel, halEntryDel_of_dels dels]
  rfl

theorem nhopEntry_kept {hw : HwTables} (refused : ¬ NhopDels env fNhop hw) :
    routeLookupNhop duplicate env.nhop 1 fNhop hw = (hw, ntbLoadToP4Fail) := by
  simp only [routeLookupNhop, Int.one_ne_zero, if_false, shcHalNhopEntryDel, halEntryDel_of_refused refused]

theorem neighEntry_deleted {hw : HwTables} {nhop : OlNeighEntry} (dels : NeighDels env nhop hw) :
    shcHalNeighEntryDel env.neigh nhop.neighOid hw = (delNeigh nhop hw, 0) := by
  rw [shcHalNeighEntryDel, halEntryDel_of_dels dels]
  rfl

theorem neighEntry_kept {hw : HwTables} {nhop : OlNeighEntry} (refused : ¬ NeighDels env nhop hw) :
    shcHalNeighEntryDel env.neigh nhop.neighOid hw = (hw, ntbLoadToP4Fail) := by
  rw [shcHalNeighEntryDel, halEntryDel_of_refused refused]

theorem ntbRouteLookup_del_cases (result : fibResLookup i (rteBeToCpu32 flow.ipDstAddr) s = some fRes)
    (hw : HwTables) :
    let hwRoute := delRoute i flow hw
    (¬ RouteDels env i flow hw ∧
      ntbRouteLookup duplicate env i flow.ipSrcAddr flow.ipDstAddr 1 s hw = some (hw, fRes, ntbLoadToP4Fail)) ∨
    (RouteDels env i flow hw ∧ mpathFirst s fRes = none ∧
      ntbRouteLookup duplicate env i flow.ipSrcAddr flow.ipDstAddr 1 s hw = none) ∨
    (RouteDels env i flow hw ∧ ∃ fNhop, mpathFirst s fRes = some fNhop ∧
      ((¬ NhopDels env fNhop hwRoute ∧
        ntbRouteLookup duplicate env i flow.ipSrcAddr flow.ipDstAddr 1 s hw =
          some (hwRoute, fRes, ntbLoadToP4Fail)) ∨
      (NhopDels env fNhop hwRoute ∧
        ntbRouteLookup duplicate env i flow.ipSrcAddr flow.ipDstAddr 1 s hw =
          some (delNhop fNhop hwRoute, fRes, 0)))) := by
  intro hwRoute
  have failed : ntbLoadToP4Fail < 0 := by decide
  by_cases routeDels : RouteDels env i flow hw
  case neg =>
    refine .inl ⟨routeDels, ?_⟩
    simp only [ntbRouteLookup, result, Int.one_ne_zero, if_false, routeEntry_kept routeDels, if_pos failed]
  cases first : mpathFirst s fRes with
  | none =>
    -- `mpath[0]` is read only after the route entry is gone
    refine .inr (.inl ⟨routeDels, rfl, ?_⟩)
    simp only [ntbRouteLookup, result, first, Int.one_ne_zero, if_false, routeEntry_deleted routeDels,
      Int.lt_irrefl]
  | some fNhop =>
    refine .inr (.inr ⟨routeDels, fNhop, rfl, ?_⟩)
    by_cases nhopDels : NhopDels env fNhop hwRoute
    · refine .inr ⟨nhopDels, ?_⟩
      simp only [ntbRouteLookup, result, first, Int.one_ne_zero, if_false, routeEntry_deleted routeDels,
        Int.lt_irrefl, nhopEntry_deleted nhopDels, hwRoute]
    · refine .inl ⟨nhopDels, ?_⟩
      simp only [ntbRouteLookup, result, first, Int.one_ne_zero, if_false, routeEntry_deleted routeDels,
        Int.lt_irrefl, nhopEntry_kept nhopDels, hwRoute]

theorem ntbNeighLookup_del_cases (duplicate : HalDuplicate) (env : RuleEnv) (s : AgentState) (i : Nat) (gw : Ip4)
    (hw : HwTables) :
    (∃ code < 0, neighFind i gw s = .error code ∧
      ntbNeighLookup duplicate env.neigh i gw 1 s hw = (hw, code)) ∨
    ∃ nhop, neighFind i gw s = .ok nhop ∧
      ((¬ NeighDels env nhop hw ∧
        ntbNeighLookup duplicate env.neigh i gw 1 s hw = (hw, ntbLoadToP4Fail)) ∨
      (NeighDels env nhop hw ∧ ntbNeighLookup duplicate env.neigh i gw 1 s hw = (delNeigh nhop hw, 0))) := by
  unfold ntbNeighLookup
  cases neigh : neighFind i gw s with
  | error code => exact .inl ⟨code, neighFind_error neigh, rfl, rfl⟩
  | ok nhop =>
    refine .inr ⟨nhop, rfl, ?_⟩
    by_cases neighDels : NeighDels env nhop hw
    · exact .inr ⟨neighDels, neighEntry_deleted neighDels⟩
    · exact .inl ⟨neighDels, neighEntry_kept neighDels⟩

/-- Where a delete can stop: at the route entry, at a missing next hop, at the next hop entry, at
    the neighbour lookup, at the neighbour entry, or not at all. -/
theorem ruleDel_cases (found : ruleResult flow.ipDstAddr s = some (i, fRes)) :
    let hwTunnel := delTunnel env s.hw
    let hwRoute := delRoute i flow hwTunnel
    (¬ RouteDels env i flow s.hw ∧
      shcSwTohwRule duplicate env flow.vni flow.ipSrcAddr flow.ipDstAddr 1 s =
        some ({ s with hw := hwTunnel }, ntbLoadToP4Fail)) ∨
    (RouteDels env i flow s.hw ∧ mpathFirst s fRes = none ∧
      shcSwTohwRule duplicate env flow.vni flow.ipSrcAddr flow.ipDstAddr 1 s = none) ∨
    (RouteDels env i flow s.hw ∧ ∃ fNhop, mpathFirst s fRes = some fNhop ∧
      ((¬ NhopDels env fNhop s.hw ∧
        shcSwTohwRule duplicate env flow.vni flow.ipSrcAddr flow.ipDstAddr 1 s =
          some ({ s with hw := hwRoute }, ntbLoadToP4Fail)) ∨
      (NhopDels env fNhop s.hw ∧ ∃ code, neighFind i fNhop.gateway s = .error code ∧
        shcSwTohwRule duplicate env flow.vni flow.ipSrcAddr flow.ipDstAddr 1 s =
          some ({ s with hw := delNhop fNhop hwRoute }, code)) ∨
      (NhopDels env fNhop s.hw ∧ ∃ nhop, neighFind i fNhop.gateway s = .ok nhop ∧
        ((¬ NeighDels env nhop s.hw ∧
          shcSwTohwRule duplicate env flow.vni flow.ipSrcAddr flow.ipDstAddr 1 s =
            some ({ s with hw := delNhop fNhop hwRoute }, ntbLoadToP4Fail)) ∨
        (NeighDels env nhop s.hw ∧
          shcSwTohwRule duplicate env flow.vni flow.ipSrcAddr flow.ipDstAddr 1 s =
            some ({ s with hw := delNeigh nhop (delNhop fNhop hwRoute) }, 0)))))) := by
  intro hwTunnel hwRoute
  obtain ⟨routeTable, nhopFrame, neighFrame⟩ := delTunnel_frame env s.hw
  have routeSame : RouteDels env i flow hwTunnel ↔ RouteDels env i flow s.hw := by
    rw [RouteDels, RouteDels, routeTable]
  have nhopSame (fNhop : FibNhop) : NhopDels env fNhop hwRoute ↔ NhopDels env fNhop s.hw := by
    rw [NhopDels, NhopDels, ← nhopFrame]
    rfl
  have neighSame (fNhop : FibNhop) (nhop : OlNeighEntry) :
      NeighDels env nhop (delNhop fNhop hwRoute) ↔ NeighDels env nhop s.hw := by
    rw [NeighDels, NeighDels, ← neighFrame]
    rfl
  have failed : ntbLoadToP4Fail < 0 := by decide
  obtain ⟨slot, result⟩ := ruleResult_some found
  have lookup : ntbTunnelMapVrfLookup duplicate env.tunnel .vxlan (ntbTunnelIdInit flow.vni 0 0) 1 s s.hw =
      some (hwTunnel, some i) := ntbTunnelMapVrfLookup_some duplicate env.tunnel 1 s.hw slot
  rcases ntbRouteLookup_del_cases result hwTunnel with
    ⟨kept, routed⟩ | ⟨routeDels, first, routed⟩ | ⟨routeDels, fNhop, first, ⟨kept, routed⟩ | ⟨nhopDels, routed⟩⟩
  · exact .inl ⟨mt routeSame.mpr kept, shcSwTohwRule_stopped lookup routed failed⟩
  · refine .inr (.inl ⟨routeSame.mp routeDels, first, ?_⟩)
    simp only [shcSwTohwRule, lookup, routed]
  · exact .inr (.inr ⟨routeSame.mp routeDels, fNhop, first,
      .inl ⟨mt (nhopSame fNhop).mpr kept, shcSwTohwRule_stopped lookup routed failed⟩⟩)
  · refine .inr (.inr ⟨routeSame.mp routeDels, fNhop, first, .inr ?_⟩)
    rw [nhopSame] at nhopDels
    rcases ntbNeighLookup_del_cases duplicate env s i fNhop.gateway (delNhop fNhop hwRoute) with
      ⟨code, negative, neigh, looked⟩ | ⟨nhop, neigh, ⟨kept, looked⟩ | ⟨neighDels, looked⟩⟩
    · have outcome := shcSwTohwRule_routed lookup routed first looked
      rw [if_pos negative] at outcome
      exact .inl ⟨nhopDels, code, neigh, outcome⟩
    · have outcome := shcSwTohwRule_routed lookup routed first looked
      rw [if_pos failed] at outcome
      exact .inr ⟨nhopDels, nhop, neigh, .inl ⟨mt (neighSame fNhop nhop).mpr kept, outcome⟩⟩
    · have outcome := shcSwTohwRule_routed lookup routed first looked
      exact .inr ⟨nhopDels, nhop, neigh, .inr ⟨(neighSame fNhop nhop).mp neighDels, outcome⟩⟩

/-! ## The chain of another flow -/

/-- Hardware built by successful adds, each in any state of the agent, with the flows installed and
    the chains that were written for them. -/
inductive Built (duplicate : HalDuplicate) : HwTables → List (Flow × HwChain) → Prop where
  | empty : Built duplicate .empty []
  | install {installed : List (Flow × HwChain)} {s s' : AgentState} {env : RuleEnv} {flow : Flow}
      {p : RulePath} {nhop : OlNeighEntry} (built : Built duplicate s.hw installed)
      (path : rulePath flow.ipDstAddr s = some p) (neigh : p.neigh s = .ok nhop)
      (success : shcSwTohwRule duplicate env flow.vni flow.ipSrcAddr flow.ipDstAddr 0 s = some (s', 0)) :
      Built duplicate s'.hw ((flow, ruleChain flow.ipSrcAddr flow.ipDstAddr p nhop) :: installed)

/-- Deleting a flow leaves the entries of a chain as they are. -/
def ChainKept (duplicate : HalDuplicate) (env : RuleEnv) (removed : Flow) (chain : HwChain) (s : AgentState) :
    Prop :=
  ∃ s' ret, shcSwTohwRule duplicate env removed.vni removed.ipSrcAddr removed.ipDstAddr 1 s = some (s', ret) ∧
    s'.hw.only chain = s.hw.only chain

/-- The lookups of the delete find a VRF and a result, the driver does not delete the tunnel entry,
    and no other entry that is deleted before the delete stops is of the chain. -/
def DeleteSpares (env : RuleEnv) (removed : Flow) (chain : HwChain) (s : AgentState) : Prop :=
  ¬ TunnelDels env s.hw ∧ ∃ i fRes, ruleResult removed.ipDstAddr s = some (i, fRes) ∧
    (RouteDels env i removed s.hw →
      RulePath.routeKey i removed.ipSrcAddr removed.ipDstAddr ≠ chain.route ∧
      ∃ fNhop, mpathFirst s fRes = some fNhop ∧
        (NhopDels env fNhop s.hw →
          ⟨fNhop.nhOid⟩ ≠ chain.nhop ∧
          ∀ nhop, neighFind i fNhop.gateway s = .ok nhop → NeighDels env nhop s.hw →
            ⟨nhop.neighOid⟩ ≠ chain.neigh))

/-- The entries of a chain that was written, other than the shared tunnel entry, are there. -/
structure ChainPresent (hw : HwTables) (chain : HwChain) : Prop where
  tunnel : chain.tunnel = RulePath.tunnelKey
  route : chain.route ∈ hw.route
  nhop : chain.nhop ∈ hw.nhop
  neigh : chain.neigh ∈ hw.neigh

theorem Built.present {hw : HwTables} {installed : List (Flow × HwChain)} (built : Built duplicate hw installed) :
    ∀ entry ∈ installed, ChainPresent hw entry.2 := by
  induction built with
  | empty => intro entry listed; cases listed
  | @install installed s s' env flow p nhop built path neigh success inductionHypothesis =>
    obtain ⟨p', nhop', along, rfl⟩ := ruleAdd_zero_iff.mp success
    obtain rfl := Option.some.inj (path.symm.trans along.path)
    obtain rfl := Except.ok.inj (neigh.symm.trans along.neighbour)
    intro entry listed
    simp only [offloaded, addNeigh, addNhop, addRoute, addTunnel_route, addTunnel_nhop, addTunnel_neigh]
    -- an add takes no entry away
    rcases List.mem_cons.mp listed with rfl | before
    · exact ⟨rfl, Finmap.mem_insert.mpr (.inl rfl), Finmap.mem_insert.mpr (.inl rfl),
        Finmap.mem_insert.mpr (.inl rfl)⟩
    · obtain ⟨tunnel, route, nhop, neigh⟩ := inductionHypothesis entry before
      exact ⟨tunnel, Finmap.mem_insert.mpr (.inr route), Finmap.mem_insert.mpr (.inr nhop),
        Finmap.mem_insert.mpr (.inr neigh)⟩

theorem only_eq_only {hw hw' : HwTables} {chain : HwChain} : hw'.only chain = hw.only chain ↔
    hw'.tunnelMapVrf.lookup chain.tunnel = hw.tunnelMapVrf.lookup chain.tunnel ∧
    hw'.route.lookup chain.route = hw.route.lookup chain.route ∧
    hw'.nhop.lookup chain.nhop = hw.nhop.lookup chain.nhop ∧
    hw'.neigh.lookup chain.neigh = hw.neigh.lookup chain.neigh := by
  simp only [HwTables.only, HwTables.mk.injEq, Table.only_eq_only]

theorem delTunnel_kept (env : RuleEnv) (hw : HwTables) : (delTunnel env hw).tunnelMapVrf.lookup
    RulePath.tunnelKey = hw.tunnelMapVrf.lookup RulePath.tunnelKey ↔ ¬ TunnelDels env hw := by
  by_cases dels : TunnelDels env hw
  · rw [delTunnel_dels dels]
    have erased := Table.lookup_erase_eq_self RulePath.tunnelKey dels.2
    exact ⟨fun same => (erased.mp same rfl).elim, fun refused => (refused dels).elim⟩
  · rw [delTunnel_refused dels]
    exact ⟨fun _ => dels, fun _ => rfl⟩

/-- A delete leaves the chain of an installed flow alone exactly when it deletes none of its entries,
    the tunnel entry included. -/
theorem chainKept_iff {installed : List (Flow × HwChain)} {other : Flow} {chain : HwChain} (removed : Flow)
    (built : Built duplicate s.hw installed) (listed : (other, chain) ∈ installed) :
    ChainKept duplicate env removed chain s ↔ DeleteSpares env removed chain s := by
  obtain ⟨tunnelPresent, routePresent, nhopPresent, neighPresent⟩ := built.present _ listed
  obtain ⟨routeFrame, nhopFrame, neighFrame⟩ := delTunnel_frame env s.hw
  have tunnelKept := delTunnel_kept env s.hw
  cases found : ruleResult removed.ipDstAddr s with
  | none =>
    constructor
    · rintro ⟨s', ret, result, _⟩
      rw [shcSwTohwRule_undefined 1 found] at result
      cases result
    · rintro ⟨_, i, fRes, found', _⟩
      rw [found] at found'
      cases found'
  | some path =>
    obtain ⟨i, fRes⟩ := path
    have kept : ∀ {s' ret}, shcSwTohwRule duplicate env removed.vni removed.ipSrcAddr removed.ipDstAddr 1 s =
        some (s', ret) → (ChainKept duplicate env removed chain s ↔ s'.hw.only chain = s.hw.only chain) := by
      intro s' ret result
      simp [ChainKept, result]
    -- a deleted entry is missed exactly where the chain has its key, since the chain is there
    have routeKept := Table.lookup_erase_eq_self (RulePath.routeKey i removed.ipSrcAddr removed.ipDstAddr) routePresent
    have nhopKept := fun nhOid => Table.lookup_erase_eq_self (⟨nhOid⟩ : HalNhopKey) nhopPresent
    have neighKept := fun neighOid => Table.lookup_erase_eq_self (⟨neighOid⟩ : HalNeighKey) neighPresent
    rcases ruleDel_cases found with ⟨stays, result⟩ | ⟨dels, missing, result⟩ | ⟨dels, fNhop, first, rest⟩
    · rw [kept result, only_eq_only, tunnelPresent, tunnelKept, routeFrame, nhopFrame, neighFrame]
      simp [DeleteSpares, found, stays]
    · simp [ChainKept, DeleteSpares, found, dels, missing, result]
    · rcases rest with ⟨stays, result⟩ | ⟨nhopDels, code, neigh, result⟩ | ⟨nhopDels, nhop, neigh, rest⟩
      · rw [kept result, only_eq_only, tunnelPresent]
        simp only [delRoute, tunnelKept, routeFrame, nhopFrame, neighFrame, routeKept]
        simp [DeleteSpares, found, dels, first, stays]
      · rw [kept result, only_eq_only, tunnelPresent]
        simp only [delNhop, delRoute, tunnelKept, routeFrame, nhopFrame, neighFrame, routeKept, nhopKept]
        simp [DeleteSpares, found, dels, first, nhopDels, neigh]
      · rcases rest with ⟨stays, result⟩ | ⟨neighDels, result⟩
        · rw [kept result, only_eq_only, tunnelPresent]
          simp only [delNhop, delRoute, tunnelKept, routeFrame, nhopFrame, neighFrame, routeKept, nhopKept]
          simp [DeleteSpares, found, dels, first, nhopDels, neigh, stays]
        · rw [kept result, only_eq_only, tunnelPresent]
          simp only [delNeigh, delNhop, delRoute, tunnelKept, routeFrame, nhopFrame, neighFrame, routeKept,
            nhopKept, neighKept]
          simp [DeleteSpares, found, dels, first, nhopDels, neigh, neighDels]

/-! ### Two flows over different next hops -/

def oneFlowState : AgentState := addedState (flowTo 1 7) twoRoutesState
def twoFlowsState : AgentState := addedState (flowTo 2 8) oneFlowState

def chain7 : HwChain := ⟨⟨.vxlan, 0⟩, ⟨1, 0x0a090001, 0x0a000701⟩, ⟨5⟩, ⟨6⟩⟩
def chain8 : HwChain := ⟨⟨.vxlan, 0⟩, ⟨1, 0x0a090002, 0x0a000801⟩, ⟨7⟩, ⟨8⟩⟩

theorem Built.added {installed : List (Flow × HwChain)} {chain : HwChain} (built : Built .refused s.hw installed)
    (returns : (shcSwTohwRule .refused .accepts flow.vni flow.ipSrcAddr flow.ipDstAddr 0 s).map Prod.snd = some 0)
    (written : (rulePath flow.ipDstAddr s).bind (fun p =>
      ((p.neigh s).toOption.map (ruleChain flow.ipSrcAddr flow.ipDstAddr p))) = some chain) :
    Built .refused (addedState flow s).hw ((flow, chain) :: installed) := by
  have success := addedState_reached flow s returns
  obtain ⟨p, nhop, along, _⟩ := ruleAdd_zero_iff.mp success
  rw [along.path, Option.bind_some, along.neighbour] at written
  obtain rfl := Option.some.inj written
  exact .install built along.path along.neighbour success

theorem twoFlows_built :
    Built .refused twoFlowsState.hw [(flowTo 2 8, chain8), (flowTo 1 7, chain7)] := by
  have fresh : twoRoutesState.hw = .empty := by decide +kernel
  have one : Built .refused oneFlowState.hw [(flowTo 1 7, chain7)] :=
    .added (by rw [fresh]; exact .empty) (by decide +kernel) (by decide +kernel)
  exact one.added (by decide +kernel) (by decide +kernel)

/-- The removal of the first flow takes the tunnel entry of the second one away. -/
theorem shared_tunnel_deleted :
    Built .refused twoFlowsState.hw [(flowTo 2 8, chain8), (flowTo 1 7, chain7)] ∧
      ¬ ChainKept .refused .accepts (flowTo 1 7) chain8 twoFlowsState := by
  refine ⟨twoFlows_built, ?_⟩
  rintro ⟨s', ret, result, same⟩
  have entry := (only_eq_only.mp same).1
  have deleted : (shcSwTohwRule .refused .accepts 100 (flowTo 1 7).ipSrcAddr (flowTo 1 7).ipDstAddr 1
      twoFlowsState).map (fun result => result.1.hw.tunnelMapVrf.lookup chain8.tunnel) = some none := by
    decide +kernel
  have present : (twoFlowsState.hw.tunnelMapVrf.lookup chain8.tunnel).isSome = true := by decide +kernel
  have here : shcSwTohwRule .refused .accepts 100 (flowTo 1 7).ipSrcAddr (flowTo 1 7).ipDstAddr 1 twoFlowsState =
      some (s', ret) := result
  rw [here, Option.map_some, Option.some.injEq] at deleted
  dsimp only at deleted
  rw [← entry, deleted] at present
  cases present

/-- Where the driver refuses to delete the tunnel entry, the second flow keeps its chain. -/
theorem refused_tunnel_delete_kept :
    ChainKept .refused ⟨false, true, true, true⟩ (flowTo 1 7) chain8 twoFlowsState := by
  refine (chainKept_iff (flowTo 1 7) twoFlows_built List.mem_cons_self).mpr ?_
  have result : (ruleResult (flowTo 1 7).ipDstAddr twoFlowsState).map
      (fun path => (path.1, mpathFirst twoFlowsState path.2)) =
        some (0, some ⟨5, 1, 6, 0x0101010a, vxlanNhop.tunnelInfo⟩) := by decide +kernel
  have known : (neighFind 0 0x0101010a twoFlowsState).map OlNeighEntry.neighOid = .ok 6 := by decide +kernel
  obtain ⟨⟨i, fRes⟩, found, same⟩ := Option.map_eq_some_iff.mp result
  obtain ⟨rfl, first⟩ := Prod.mk.inj same
  refine ⟨fun dels => absurd dels.1 (by decide), 0, fRes, found, fun _ =>
    ⟨by decide, _, first, fun _ => ⟨by decide, fun nhop neighbour _ => ?_⟩⟩⟩
  rw [neighbour] at known
  have neighOid : nhop.neighOid = 6 := Except.ok.inj known
  rw [neighOid]
  decide

end Tao.Offload
