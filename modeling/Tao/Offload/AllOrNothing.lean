import Tao.Offload.Chain

/-! # Offloading is not all or nothing

No step of a rule is taken back when a later one fails, and no entry is shared: an
entry that another flow wrote makes the add of the next flow fail half way.  Here
the hardware refuses to add an entry that is present. -/

namespace Tao.Offload

open Tao.Foundation Tao.Agent Tao.Hal

variable {env env' : RuleEnv} {flow flow' : Flow} {s : AgentState}

/-- An add that returns an error leaves the hardware tables as they were. -/
def ErrorAtomic (env : RuleEnv) (flow : Flow) (s : AgentState) : Prop :=
  ∀ s' ret, shcSwTohwRule .refused env flow.vni flow.ipSrcAddr flow.ipDstAddr 0 s = some (s', ret) → ret < 0 →
    s'.hw = s.hw

/-- Two flows that can each be offloaded alone can be offloaded in either order. -/
def EitherOrder (env : RuleEnv) (flow : Flow) (env' : RuleEnv) (flow' : Flow) (s : AgentState) : Prop :=
  ∀ t t', shcSwTohwRule .refused env flow.vni flow.ipSrcAddr flow.ipDstAddr 0 s = some (t, 0) →
    shcSwTohwRule .refused env' flow'.vni flow'.ipSrcAddr flow'.ipDstAddr 0 s = some (t', 0) →
    (∃ u, shcSwTohwRule .refused env' flow'.vni flow'.ipSrcAddr flow'.ipDstAddr 0 t = some (u, 0)) ∧
    ∃ u, shcSwTohwRule .refused env flow.vni flow.ipSrcAddr flow.ipDstAddr 0 t' = some (u, 0)

/-- The tunnel entry is refused, or already there, along with the route entry; or nothing fails after
    them.  A rule without a path returns nothing at all. -/
def FailsEarly (env : RuleEnv) (flow : Flow) (s : AgentState) : Prop :=
  ∀ p, rulePath flow.ipDstAddr s = some p →
    (¬ HalAdds .refused env.tunnel s.hw.tunnelMapVrf RulePath.tunnelKey ∧
      ¬ RouteAdds .refused env flow.ipSrcAddr flow.ipDstAddr p s.hw) ∨
    ∃ nhop, OffloadsAlong .refused env flow s p nhop

def ChainsApart (env : RuleEnv) (flow : Flow) (env' : RuleEnv) (flow' : Flow) (s : AgentState) : Prop :=
  ∀ p nhop p' nhop', OffloadsAlong .refused env flow s p nhop → OffloadsAlong .refused env' flow' s p' nhop' →
    RulePath.routeKey p.slot flow.ipSrcAddr flow.ipDstAddr ≠
      RulePath.routeKey p'.slot flow'.ipSrcAddr flow'.ipDstAddr ∧
    p.fNhop.nhOid ≠ p'.fNhop.nhOid ∧ nhop.neighOid ≠ nhop'.neighOid

/-! ## Where duplicates are refused -/

section Refused

variable {κ α : Type} [DecidableEq κ]

omit [DecidableEq κ] in
theorem halAdds_absent {accepts : Bool} {t : Table κ α} {k : κ} (adds : HalAdds .refused accepts t k) : k ∉ t := by
  intro present
  cases adds.2 present

theorem insert_ne_of_adds {accepts : Bool} {t : Table κ α} {k : κ} (adds : HalAdds .refused accepts t k) (a : α) :
    t.insert k a ≠ t := by
  intro same
  apply halAdds_absent adds
  rw [← same]
  exact Finmap.mem_insert.mpr (.inl rfl)

theorem halAdds_insert {accepts : Bool} {t : Table κ α} {k other : κ} {a : α} :
    HalAdds .refused accepts (t.insert other a) k ↔ k ≠ other ∧ HalAdds .refused accepts t k := by
  constructor
  · intro adds
    have absent := halAdds_absent adds
    rw [Finmap.mem_insert, not_or] at absent
    exact ⟨absent.1, adds.1, fun present => (absent.2 present).elim⟩
  · rintro ⟨different, adds⟩
    refine ⟨adds.1, fun present => ?_⟩
    rcases Finmap.mem_insert.mp present with same | present
    · exact (different same).elim
    · exact adds.2 present

end Refused

/-! ## Errors -/

theorem addTunnel_eq_self {p : RulePath} {hw : HwTables} :
    addTunnel .refused env p hw = hw ↔ ¬ HalAdds .refused env.tunnel hw.tunnelMapVrf RulePath.tunnelKey := by
  have table : (addTunnel .refused env p hw).tunnelMapVrf = _ := addTunnel_tunnelMapVrf hw
  constructor
  · intro same adds
    rw [same, if_pos adds] at table
    exact insert_ne_of_adds adds _ table.symm
  · intro refused
    rw [if_neg refused] at table
    exact HwTables.ext table (addTunnel_route hw) (addTunnel_nhop hw) (addTunnel_neigh hw)

theorem addRoute_changes {p : RulePath} {hw : HwTables}
    (adds : RouteAdds .refused env flow.ipSrcAddr flow.ipDstAddr p hw) :
    (addRoute flow.ipSrcAddr flow.ipDstAddr p (addTunnel .refused env p hw)).route ≠ hw.route := by
  simp only [addRoute, addTunnel_route]
  exact insert_ne_of_adds adds _

theorem errorAtomic_iff : ErrorAtomic env flow s ↔ FailsEarly env flow s := by
  cases path : rulePath flow.ipDstAddr s with
  | none =>
    constructor
    · intro _ p path'
      rw [path] at path'; cases path'
    · intro _ s' ret result
      rw [ruleAdd_undefined path] at result; cases result
  | some p =>
    have failed : ntbLoadToP4Fail < 0 := by decide
    have outcome : ∀ {s' ret},
        shcSwTohwRule .refused env flow.vni flow.ipSrcAddr flow.ipDstAddr 0 s = some (s', ret) → ret < 0 →
        (ErrorAtomic env flow s ↔ s'.hw = s.hw) := by
      intro s' ret result negative
      simp [ErrorAtomic, result, negative]
    have early : FailsEarly env flow s ↔
        (¬ HalAdds .refused env.tunnel s.hw.tunnelMapVrf RulePath.tunnelKey ∧
          ¬ RouteAdds .refused env flow.ipSrcAddr flow.ipDstAddr p s.hw) ∨
        ∃ nhop, OffloadsAlong .refused env flow s p nhop := by
      simp [FailsEarly, path]
    rw [early]
    rcases ruleAdd_cases flow.vni path with ⟨stops, result⟩ | ⟨route, stops, result⟩ |
      ⟨route, nhop, code, negative, stops, result⟩ | ⟨route, nhop, entry, neighbour, stops, result⟩ |
      ⟨route, nhop, entry, neighbour, neigh, result⟩
    · -- only the tunnel entry may have been written
      rw [outcome result failed, addTunnel_eq_self]
      exact ⟨fun refused => .inl ⟨refused, stops⟩,
        fun either => either.elim And.left fun ⟨_, along⟩ => (stops along.routeAdds).elim⟩
    · rw [outcome result failed]
      exact ⟨fun same => (addRoute_changes route (congrArg HwTables.route same :)).elim,
        fun either => either.elim (fun both => (both.2 route).elim)
          fun ⟨_, along⟩ => (stops along.nhopAdds).elim⟩
    · rw [outcome result negative]
      refine ⟨fun same => (addRoute_changes route (congrArg HwTables.route same :)).elim,
        fun either => either.elim (fun both => (both.2 route).elim) fun ⟨_, along⟩ => ?_⟩
      have neighbour := along.neighbour
      rw [stops] at neighbour; cases neighbour
    · rw [outcome result failed]
      refine ⟨fun same => (addRoute_changes route (congrArg HwTables.route same :)).elim,
        fun either => either.elim (fun both => (both.2 route).elim) fun ⟨_, along⟩ => ?_⟩
      obtain rfl := Except.ok.inj (neighbour.symm.trans along.neighbour)
      exact (stops along.neighAdds).elim
    · -- no error at all
      constructor
      · exact fun _ => .inr ⟨entry, path, route, nhop, neighbour, neigh⟩
      · intro _ s' ret result' negative
        rw [result, Option.some.injEq, Prod.mk.injEq] at result'
        omega

/-! ## Two flows -/

/-- After one flow, another can be offloaded exactly when it could be before and shares no entry. -/
theorem offloadsAlong_offloaded {p p' : RulePath} {nhop nhop' : OlNeighEntry} :
    OffloadsAlong .refused env' flow' (offloaded .refused env flow p nhop s) p' nhop' ↔
      OffloadsAlong .refused env' flow' s p' nhop' ∧
      RulePath.routeKey p'.slot flow'.ipSrcAddr flow'.ipDstAddr ≠
        RulePath.routeKey p.slot flow.ipSrcAddr flow.ipDstAddr ∧
      p'.fNhop.nhOid ≠ p.fNhop.nhOid ∧ nhop'.neighOid ≠ nhop.neighOid := by
  have route : RouteAdds .refused env' flow'.ipSrcAddr flow'.ipDstAddr p' (offloaded .refused env flow p nhop s).hw ↔
      RulePath.routeKey p'.slot flow'.ipSrcAddr flow'.ipDstAddr ≠
        RulePath.routeKey p.slot flow.ipSrcAddr flow.ipDstAddr ∧
      RouteAdds .refused env' flow'.ipSrcAddr flow'.ipDstAddr p' s.hw := by
    simp only [RouteAdds, offloaded, addNeigh, addNhop, addRoute, addTunnel_route, halAdds_insert]
  have nhopEntry : NhopAdds .refused env' p' (offloaded .refused env flow p nhop s).hw ↔
      p'.fNhop.nhOid ≠ p.fNhop.nhOid ∧ NhopAdds .refused env' p' s.hw := by
    simp only [NhopAdds, offloaded, addNeigh, addNhop, addRoute, addTunnel_nhop, halAdds_insert, ne_eq,
      HalNhopKey.mk.injEq]
  have neighEntry : NeighAdds .refused env' nhop' (offloaded .refused env flow p nhop s).hw ↔
      nhop'.neighOid ≠ nhop.neighOid ∧ NeighAdds .refused env' nhop' s.hw := by
    simp only [NeighAdds, offloaded, addNeigh, addNhop, addRoute, addTunnel_neigh, halAdds_insert, ne_eq,
      HalNeighKey.mk.injEq]
  constructor
  · rintro ⟨path, routeAdds, nhopAdds, neighbour, neighAdds⟩
    obtain ⟨routeApart, routeAdds⟩ := route.mp routeAdds
    obtain ⟨nhopApart, nhopAdds⟩ := nhopEntry.mp nhopAdds
    obtain ⟨neighApart, neighAdds⟩ := neighEntry.mp neighAdds
    exact ⟨⟨path, routeAdds, nhopAdds, neighbour, neighAdds⟩, routeApart, nhopApart, neighApart⟩
  · rintro ⟨⟨path, routeAdds, nhopAdds, neighbour, neighAdds⟩, routeApart, nhopApart, neighApart⟩
    exact ⟨path, route.mpr ⟨routeApart, routeAdds⟩, nhopEntry.mpr ⟨nhopApart, nhopAdds⟩, neighbour,
      neighEntry.mpr ⟨neighApart, neighAdds⟩⟩

theorem OffloadsAlong.unique {p p' : RulePath} {nhop nhop' : OlNeighEntry}
    (along : OffloadsAlong .refused env flow s p nhop) (along' : OffloadsAlong .refused env' flow s p' nhop') :
    p' = p ∧ nhop' = nhop := by
  obtain rfl := Option.some.inj (along.path.symm.trans along'.path)
  exact ⟨rfl, (Except.ok.inj (along.neighbour.symm.trans along'.neighbour)).symm⟩

theorem eitherOrder_iff : EitherOrder env flow env' flow' s ↔ ChainsApart env flow env' flow' s := by
  constructor
  · intro either p nhop p' nhop' along along'
    obtain ⟨⟨u, second⟩, _⟩ := either _ _ (ruleAdd_zero_iff.mpr ⟨p, nhop, along, rfl⟩)
      (ruleAdd_zero_iff.mpr ⟨p', nhop', along', rfl⟩)
    obtain ⟨q, entry, after, _⟩ := ruleAdd_zero_iff.mp second
    -- the paths of the second flow after and before the first one are the same
    obtain ⟨before, routeApart, nhopApart, neighApart⟩ := offloadsAlong_offloaded.mp after
    obtain ⟨rfl, rfl⟩ := before.unique along'
    exact ⟨routeApart.symm, nhopApart.symm, neighApart.symm⟩
  · intro apart t t' first second
    obtain ⟨p, nhop, along, rfl⟩ := ruleAdd_zero_iff.mp first
    obtain ⟨p', nhop', along', rfl⟩ := ruleAdd_zero_iff.mp second
    obtain ⟨routeApart, nhopApart, neighApart⟩ := apart p nhop p' nhop' along along'
    exact ⟨⟨_, ruleAdd_zero_iff.mpr ⟨p', nhop', offloadsAlong_offloaded.mpr
        ⟨along', routeApart.symm, nhopApart.symm, neighApart.symm⟩, rfl⟩⟩,
      ⟨_, ruleAdd_zero_iff.mpr ⟨p, nhop, offloadsAlong_offloaded.mpr
        ⟨along, routeApart, nhopApart, neighApart⟩, rfl⟩⟩⟩

/-- Offloading a flow leaves nothing behind when it fails, and two flows do not get in each other's
    way, exactly when no entry is written before a failure and no entry is shared. -/
theorem allOrNothing_iff (env env' : RuleEnv) (flow flow' : Flow) (s : AgentState) :
    (ErrorAtomic env flow s ↔ FailsEarly env flow s) ∧
      (EitherOrder env flow env' flow' s ↔ ChainsApart env flow env' flow' s) :=
  ⟨errorAtomic_iff, eitherOrder_iff⟩

/-- Two flows over one next hop: each can be offloaded alone, the second one after the first fails and
    leaves its route entry behind. -/
theorem shared_nhop_half_offloaded : run (agentStep .refused) .initial twoRoutes = some twoRoutesState ∧
    ¬ EitherOrder .accepts (flowTo 1 7) .accepts (flowTo 2 7) twoRoutesState ∧
    ¬ ErrorAtomic .accepts (flowTo 2 7) (addedState (flowTo 1 7) twoRoutesState) := by
  have first : shcSwTohwRule .refused .accepts (flowTo 1 7).vni (flowTo 1 7).ipSrcAddr (flowTo 1 7).ipDstAddr 0
      twoRoutesState = some (_, 0) := addedState_reached (flowTo 1 7) twoRoutesState (by decide +kernel)
  have second : shcSwTohwRule .refused .accepts (flowTo 2 7).vni (flowTo 2 7).ipSrcAddr (flowTo 2 7).ipDstAddr 0
      twoRoutesState = some (_, 0) := addedState_reached (flowTo 2 7) twoRoutesState (by decide +kernel)
  have fails : shcSwTohwRule .refused .accepts (flowTo 2 7).vni (flowTo 2 7).ipSrcAddr (flowTo 2 7).ipDstAddr 0
      (addedState (flowTo 1 7) twoRoutesState) = some (_, ntbLoadToP4Fail) :=
    addedState_reached (flowTo 2 7) (addedState (flowTo 1 7) twoRoutesState) (by decide +kernel)
  refine ⟨twoRoutes_reached, fun either => ?_, fun atomic => ?_⟩
  · obtain ⟨⟨u, success⟩, _⟩ := either _ _ first second
    rw [fails, Option.some.injEq, Prod.mk.injEq] at success
    exact absurd success.2 (by decide)
  · have same := atomic _ _ fails (by decide)
    have changed : (addedState (flowTo 2 7) (addedState (flowTo 1 7) twoRoutesState)).hw ≠
        (addedState (flowTo 1 7) twoRoutesState).hw := by decide +kernel
    exact changed same

end Tao.Offload
