import Tao.Agent.RouteCleanup
import Tao.Offload.Chain

/-! # Cleaning up a VRF in a running agent

The routing state of an agent changes by route calls only, but for the neighbour
count of a VRF that is added, so every reachable state is one that a clean-up
leaves in order. -/

namespace Tao.Offload

open Tao.Foundation Tao.Agent Tao.Hal

/-- The routing state with other neighbour counts, as `ntb_vrf_dp_ctor` leaves it. -/
def withNeighCnt (neighCnt : VrfId → Nat) (s : RouteState) : RouteState :=
  { s with store := { s.store with neigh := { s.store.neigh with neighCnt := neighCnt } } }

theorem withNeighCnt_accounted {s : RouteState} (accounted : Accounted s) (neighCnt : VrfId → Nat) :
    Accounted (withNeighCnt neighCnt s) where
  rib_used := accounted.rib_used
  rib_injective := accounted.rib_injective
  used_listed := accounted.used_listed
  blackhole := accounted.blackhole
  counts := ⟨accounted.counts.live, accounted.counts.stored, accounted.counts.referenced⟩
  ribCnt := accounted.ribCnt
  referenced := accounted.referenced

/-! ## What a call does to the routing state -/

theorem ntbVrfAdd_route (vrfName : CString) (s : AgentState) :
    (ntbVrfAdd vrfName s).1.route = s.route ∨
      ∃ neighCnt, (ntbVrfAdd vrfName s).1.route = withNeighCnt neighCnt s.route := by
  unfold ntbVrfAdd
  split
  · exact .inl rfl
  · split
    · exact .inl rfl
    · exact .inr ⟨_, rfl⟩

theorem ntbVrfDel_route {iterate : RteHashIterate} {vrfName : CString} {s s' : AgentState}
    (deleted : ntbVrfDel iterate vrfName s = some s') :
    s'.route = s.route ∨ ∃ i, routeStep s.route (.cleanup iterate (i + 1)) = some s'.route := by
  unfold ntbVrfDel at deleted
  split at deleted
  · exact .inl (congrArg AgentState.route (Option.some.inj deleted)).symm
  · next i _ =>
    obtain ⟨t, torn, rfl⟩ := Option.map_eq_some_iff.mp deleted
    unfold ntbVrfDpDtor at torn
    split at torn
    · cases torn
    · next route cleaned =>
      obtain ⟨u, freed, rfl⟩ := Option.map_eq_some_iff.mp torn
      obtain ⟨rest, _, rfl⟩ := Option.map_eq_some_iff.mp freed
      exact .inr ⟨i, cleaned⟩

theorem ntbTunnelMapVrf_route {env : TunnelEnv} {vrfName : CString} {type : NtbTunnelType} {id : NtbTunnelId}
    {s : AgentState} {result : AgentState × Int} (mapped : ntbTunnelMapVrf env vrfName type id s = some result) :
    result.1.route = s.route := by
  unfold ntbTunnelMapVrf at mapped
  repeat' split at mapped
  all_goals cases mapped <;> rfl

theorem ntbTunnelUnmapVrf_route {accepts : Bool} {type : NtbTunnelType} {id : NtbTunnelId}
    {s : AgentState} {result : AgentState × Int} (unmapped : ntbTunnelUnmapVrf accepts type id s = some result) :
    result.1.route = s.route := by
  unfold ntbTunnelUnmapVrf at unmapped
  repeat' split at unmapped
  all_goals cases unmapped <;> rfl

theorem shcSwTohwRule_frame {duplicate : HalDuplicate} {env : RuleEnv} {vni : BitVec 32} {ipSrcAddr ipDstAddr : Ip4}
    {flagOfAddDel : Int} {s : AgentState} {result : AgentState × Int}
    (programmed : shcSwTohwRule duplicate env vni ipSrcAddr ipDstAddr flagOfAddDel s = some result) :
    result.1 = { s with hw := result.1.hw } := by
  unfold shcSwTohwRule at programmed
  repeat' split at programmed
  all_goals cases programmed <;> rfl

/-- The routing state stays, takes a route call, or gets other neighbour counts. -/
theorem agentStep_route {duplicate : HalDuplicate} {s s' : AgentState} {call : AgentCall}
    (stepped : agentStep duplicate s call = some s') :
    s'.route = s.route ∨ (∃ routeCall, routeStep s.route routeCall = some s'.route) ∨
      ∃ neighCnt, s'.route = withNeighCnt neighCnt s.route := by
  cases call with
  | route call =>
    obtain ⟨route, called, rfl⟩ := Option.map_eq_some_iff.mp stepped
    exact .inr (.inl ⟨call, called⟩)
  | rule env vni ipSrcAddr ipDstAddr flagOfAddDel =>
    obtain ⟨result, programmed, rfl⟩ := Option.map_eq_some_iff.mp stepped
    exact .inl (by rw [shcSwTohwRule_frame programmed])
  | vrf call =>
    cases call with
    | vrfAdd vrfName =>
      obtain rfl := Option.some.inj stepped
      exact (ntbVrfAdd_route vrfName s).imp_right .inr
    | vrfDel iterate vrfName =>
      exact (ntbVrfDel_route stepped).imp_right fun ⟨i, cleaned⟩ => .inl ⟨.cleanup iterate (i + 1), cleaned⟩
    | tunnelMap env vrfName type id =>
      obtain ⟨result, mapped, rfl⟩ := Option.map_eq_some_iff.mp stepped
      exact .inl (ntbTunnelMapVrf_route mapped)
    | tunnelUnmap accepts type id =>
      obtain ⟨result, unmapped, rfl⟩ := Option.map_eq_some_iff.mp stepped
      exact .inl (ntbTunnelUnmapVrf_route unmapped)

/-! ## Runs -/

theorem agentStep_fibListed {duplicate : HalDuplicate} (s : AgentState) (call : AgentCall) (s' : AgentState)
    (kept : Accounted s.route ∧ FibListed s.route) (stepped : agentStep duplicate s call = some s') :
    Accounted s'.route ∧ FibListed s'.route := by
  obtain ⟨accounted, listed⟩ := kept
  rcases agentStep_route stepped with same | ⟨routeCall, called⟩ | ⟨neighCnt, counted⟩
  · rw [same]
    exact ⟨accounted, listed⟩
  · exact routeStep_fibListed accounted listed called
  · rw [counted]
    exact ⟨withNeighCnt_accounted accounted neighCnt, listed⟩

theorem reachable_fibListed {duplicate : HalDuplicate} {calls : List AgentCall} {s : AgentState}
    (reached : run (agentStep duplicate) .initial calls = some s) : Accounted s.route ∧ FibListed s.route :=
  run_invariant agentStep_fibListed ⟨RouteState.initial_accounted, RouteState.initial_fibListed⟩ reached

/-- In every reachable state, whatever order the hash is iterated in, the clean-up of a VRF terminates
    with nothing of the VRF left and everything of the others as it was. -/
theorem vrf_cleaned_up {duplicate : HalDuplicate} {calls : List AgentCall} {s : AgentState}
    (reached : run (agentStep duplicate) .initial calls = some s) (iterate : RteHashIterate) (vrfId : VrfId) :
    ∃ t, ntbRouteCleanup iterate vrfId s.route = some t ∧ CleanedUp vrfId s.route t :=
  ntbRouteCleanup_cleanedUp iterate vrfId (reachable_fibListed reached).1 (reachable_fibListed reached).2

/-- The keys in some order. -/
noncomputable def someIterate : RteHashIterate where
  keys := fun t => t.keys.toList
  nodup := fun t => t.keys.nodup_toList
  mem_keys := fun t k => by rw [Finset.mem_toList, Finmap.mem_keys]

theorem twoRoutes_cleaned_up : run (agentStep .refused) .initial twoRoutes = some twoRoutesState ∧
    ∃ t, ntbRouteCleanup someIterate 1 twoRoutesState.route = some t ∧ CleanedUp 1 twoRoutesState.route t :=
  ⟨twoRoutes_reached, vrf_cleaned_up twoRoutes_reached someIterate 1⟩

end Tao.Offload
