import Tao.Agent.RouteAccounting

/-! # Route insertion is atomic

A failed `ntb_route_nhop_insert` restores every table, at each point where it can
fail.  The one exception is the insert that stores past the end of `mpath[]`: its
behaviour is undefined, so nothing holds of what it returns or leaves behind. -/

namespace Tao.Agent

open Tao.Foundation

/-- The insert has a defined outcome, and a negative code means that the RIB, the FIBs, the used
    slots with their contents, the next hops with `g_nhop_hash_tbl` and all reference counts, the
    neighbour entries, `rib_cnt` and `neigh_cnt` are as before. -/
def InsertAtomic (env : RouteEnv) (pfx : NtbRibKey) (data : FibNhopEncapData) (ribType : RibType)
    (s : RouteState) : Prop :=
  ∃ s' ret, ntbRouteNhopInsert env pfx.vrfId pfx data ribType s = some (s', ret) ∧ (ret < 0 → s.Same s')

/-- In every reachable state and for every combination of failures, an insert is atomic exactly
    when it does not store past the end of `mpath[]`. -/
theorem insertAtomic_iff {calls : List RouteCall} {s : RouteState}
    (reached : run routeStep .initial calls = some s)
    (env : RouteEnv) (pfx : NtbRibKey) (data : FibNhopEncapData) (ribType : RibType) :
    InsertAtomic env pfx data ribType s ↔ ¬ Overruns env pfx data ribType s := by
  rcases ntbRouteNhopInsert_cases env pfx data ribType (reachable_accounted reached) with
    ⟨overruns, undefined⟩ | ⟨fits, s', ret, result, outcome⟩
  · constructor
    · rintro ⟨s', ret, result, _⟩
      rw [undefined] at result; cases result
    · intro fits
      exact (fits overruns).elim
  · refine ⟨fun _ => fits, fun _ => ⟨s', ret, result, fun negative => ?_⟩⟩
    rcases outcome with ⟨_, _, same⟩ | ⟨_, zero, _⟩ | ⟨_, zero, _⟩
    · exact same
    · omega
    · omega

/-! ### A second multicast next hop -/

-- A second next hop, 10.1.1.2.
def otherNhop : FibNhopEncapData := ⟨0x0201010a, .vxlan 2 0x0300a8c0 0x0100a8c0 100 0⟩

-- A multicast route in slot 1 and another route in slot 2.
def mrouteRun : List RouteCall :=
  [.nhopInsert (.granted 1 5 6) (subnet24 1 7) vxlanNhop .mroute,
    .nhopInsert (.granted 2 7 8) (subnet24 1 8) vxlanNhop .default]

-- A third route in slot 3; then the slot before it is given back.
def mrouteGapRun : List RouteCall :=
  mrouteRun ++ [.nhopInsert (.granted 3 9 10) (subnet24 1 9) vxlanNhop .default, .delete (subnet24 1 8)]

-- All allocations succeed, but `rte_fib_add` refuses.
def fibRefuses : RouteEnv := { RouteEnv.granted 9 10 11 with fibAccepts := false }

/-- The new result of the multicast route gets slot 2, and slot 3 is that of the third route: its start is
    overwritten by the second next hop before `rte_fib_add` refuses. -/
theorem second_mroute_nhop_not_atomic : ∃ s, run routeStep .initial mrouteGapRun = some s ∧
    s.rib.lookup (subnet24 1 7) = some 1 ∧ fibResIdAlloc s.fibRes = some 2 ∧
    s.rib.lookup (subnet24 1 9) = some 3 ∧
    s.fibRes.lookup 3 = some (fibResMdSet ⟨5, 0, routeMaxEcmp, [1], Nat.le_refl 1⟩ .default) ∧
    ntbRouteNhopInsert fibRefuses 1 (subnet24 1 7) otherNhop .mroute s = none ∧
    ¬ InsertAtomic fibRefuses (subnet24 1 7) otherNhop .mroute s := by
  have seen : (run routeStep .initial mrouteGapRun).map (fun s =>
      (s.rib.lookup (subnet24 1 7), fibResIdAlloc s.fibRes, s.rib.lookup (subnet24 1 9), s.fibRes.lookup 3,
        (ntbRouteNhopInsert fibRefuses 1 (subnet24 1 7) otherNhop .mroute s).isNone)) =
      some (some 1, some 2, some 3,
        some (fibResMdSet ⟨5, 0, routeMaxEcmp, [1], Nat.le_refl 1⟩ .default), true) := by decide +kernel
  obtain ⟨s, reached, values⟩ := Option.map_eq_some_iff.mp seen
  simp only [Prod.mk.injEq, Option.isNone_iff_eq_none] at values
  obtain ⟨mroute, free, third, result, undefined⟩ := values
  refine ⟨s, reached, mroute, free, third, result, undefined, ?_⟩
  rintro ⟨s', ret, defined, _⟩
  cases undefined.symm.trans defined

/-- The same insert for a prefix that has no route yet is atomic. -/
theorem refused_insert_atomic : ∃ s, run routeStep .initial mrouteGapRun = some s ∧
    InsertAtomic fibRefuses (subnet24 1 10) otherNhop .mroute s := by
  have listed : (run routeStep .initial mrouteGapRun).map (fun s => s.rib.lookup (subnet24 1 10)) = some none := by
    decide +kernel
  obtain ⟨s, reached, absent⟩ := Option.map_eq_some_iff.mp listed
  refine ⟨s, reached, (insertAtomic_iff reached _ _ _ _).mpr ?_⟩
  rintro ⟨⟨id, _, present, _⟩, _, _⟩
  cases absent.symm.trans present

end Tao.Agent
