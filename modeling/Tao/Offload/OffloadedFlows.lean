import Tao.Foundation.Projected
import Tao.Foundation.Transition
import Tao.Offload.AllOrNothing
import Tao.Offload.ChainRefinement
import Tao.Offload.Isolation

/-! # The flows that are offloaded

With a driver that refuses duplicates, rules that were carried out completely never share
an entry of `route_tbl`, `nhop_tbl` or `neigh_tbl`.  While the software tables stay as they
are, the three tables are the entries of the flows that are offloaded, in whatever order
flows come and go. -/

namespace Tao.Offload

open Tao.Foundation Tao.Agent Tao.Hal

/-! ## Calls -/

inductive OffloadCall where
  | offload (env : RuleEnv) (flow : Flow)
  | withdraw (env : RuleEnv) (flow : Flow)

/-- A rule call that returns 0. -/
def offloadStep (s : AgentState) (call : OffloadCall) : Option AgentState :=
  let result := match call with
    | .offload env flow => shcSwTohwRule .refused env flow.vni flow.ipSrcAddr flow.ipDstAddr 0 s
    | .withdraw env flow => shcSwTohwRule .refused env flow.vni flow.ipSrcAddr flow.ipDstAddr 1 s
  result.bind fun result => if result.2 = 0 then some result.1 else none

/-! ## What a flow has in the hardware -/

/-- The entries of a flow in `route_tbl`, `nhop_tbl` and `neigh_tbl`. -/
structure FlowEntries where
  routeKey : HalRouteKey
  nhopKey : HalNhopKey
  nhopData : HalNhopData
  neighKey : HalNeighKey
  neighData : HalNeighData
  deriving DecidableEq

def FlowEntries.routeData (e : FlowEntries) : HalRouteData := ⟨e.nhopKey.nhopId⟩

def FlowEntries.Apart (e other : FlowEntries) : Prop :=
  e.routeKey ≠ other.routeKey ∧ e.nhopKey ≠ other.nhopKey ∧ e.neighKey ≠ other.neighKey

def FlowEntries.along (flow : Flow) (p : RulePath) (nhop : OlNeighEntry) : FlowEntries where
  routeKey := RulePath.routeKey p.slot flow.ipSrcAddr flow.ipDstAddr
  nhopKey := ⟨p.fNhop.nhOid⟩
  nhopData := RulePath.nhopData p.fNhop
  neighKey := ⟨nhop.neighOid⟩
  neighData := ⟨nhop.hh.dAddr⟩

/-- The entries that the software tables ask for. -/
def flowEntries (s : AgentState) (flow : Flow) : Option FlowEntries :=
  match rulePath flow.ipDstAddr s with
  | none => none
  | some p => (p.neigh s).toOption.map (FlowEntries.along flow p)

/-- The flows that are offloaded, by their keys in `route_tbl`. -/
abbrev Offloads := Table HalRouteKey FlowEntries

def Offloads.after (s : AgentState) (off : Offloads) : OffloadCall → Offloads
  | .offload _ flow => (flowEntries s flow).elim off fun e => off.insert e.routeKey e
  | .withdraw _ flow => (flowEntries s flow).elim off fun e => off.erase e.routeKey

/-- The three tables have the entries of the flows, one of each, and nothing else. -/
structure ShowsFlows (off : Offloads) (hw : HwTables) : Prop where
  route : Projected FlowEntries.routeKey FlowEntries.routeData off hw.route
  nhop : Projected FlowEntries.nhopKey FlowEntries.nhopData off hw.nhop
  neigh : Projected FlowEntries.neighKey FlowEntries.neighData off hw.neigh

theorem flowEntries_eq_some {s : AgentState} {flow : Flow} {e : FlowEntries} : flowEntries s flow = some e ↔
    ∃ p nhop, rulePath flow.ipDstAddr s = some p ∧ p.neigh s = .ok nhop ∧ e = .along flow p nhop := by
  unfold flowEntries
  cases path : rulePath flow.ipDstAddr s with
  | none => simp
  | some p =>
    cases neighbour : p.neigh s with
    | error code => simp [neighbour, Except.toOption]
    | ok nhop => simp [neighbour, Except.toOption, eq_comm]

theorem flowEntries_of_routeKey {s : AgentState} {flow other : Flow} {e e' : FlowEntries}
    (found : flowEntries s flow = some e) (found' : flowEntries s other = some e') (same : e.routeKey = e'.routeKey) :
    e = e' := by
  obtain ⟨p, nhop, path, neighbour, rfl⟩ := flowEntries_eq_some.mp found
  obtain ⟨p', nhop', path', neighbour', rfl⟩ := flowEntries_eq_some.mp found'
  have addresses := same
  simp only [FlowEntries.along, RulePath.routeKey, HalRouteKey.mk.injEq] at addresses
  have dst : flow.ipDstAddr = other.ipDstAddr := by
    rw [← rteBeToCpu32_involutive flow.ipDstAddr, addresses.2.2, rteBeToCpu32_involutive]
  rw [dst, path'] at path
  obtain rfl := Option.some.inj path
  obtain rfl := Except.ok.inj (neighbour'.symm.trans neighbour)
  unfold FlowEntries.along at same ⊢
  rw [FlowEntries.mk.injEq]
  exact ⟨same, rfl, rfl, rfl, rfl⟩

/-! ## What the calls do -/

variable {duplicate : HalDuplicate} {env : RuleEnv} {flow : Flow} {s s' : AgentState}

/-- The entries of the flow are there and the driver deletes them. -/
structure WithdrawsAlong (env : RuleEnv) (flow : Flow) (s : AgentState) (p : RulePath) (nhop : OlNeighEntry) : Prop where
  path : rulePath flow.ipDstAddr s = some p
  routeDels : RouteDels env p.slot flow s.hw
  nhopDels : NhopDels env p.fNhop s.hw
  neighbour : p.neigh s = .ok nhop
  neighDels : NeighDels env nhop s.hw

def withdrawn (env : RuleEnv) (flow : Flow) (p : RulePath) (nhop : OlNeighEntry) (s : AgentState) : AgentState :=
  { s with hw := delNeigh nhop (delNhop p.fNhop (delRoute p.slot flow (delTunnel env s.hw))) }

/-- A delete returns 0 exactly when all entries of the flow, but perhaps the tunnel entry, are deleted. -/
theorem ruleDel_zero_iff : shcSwTohwRule duplicate env flow.vni flow.ipSrcAddr flow.ipDstAddr 1 s = some (s', 0) ↔
    ∃ p nhop, WithdrawsAlong env flow s p nhop ∧ s' = withdrawn env flow p nhop s := by
  have failed : ntbLoadToP4Fail < 0 := by decide
  cases found : ruleResult flow.ipDstAddr s with
  | none =>
    rw [shcSwTohwRule_undefined 1 found]
    refine iff_of_false (by simp) ?_
    rintro ⟨p, nhop, ⟨path, _⟩, _⟩
    simp [rulePath, found] at path
  | some result =>
    obtain ⟨i, fRes⟩ := result
    have path (p : RulePath) : rulePath flow.ipDstAddr s = some p ↔ mpathFirst s fRes = some p.fNhop ∧ i = p.slot := by
      obtain ⟨slot, fNhop⟩ := p
      simp only [rulePath, found, Option.map_eq_some_iff, RulePath.mk.injEq]
      constructor
      · rintro ⟨other, first, rfl, rfl⟩
        exact ⟨first, rfl⟩
      · rintro ⟨first, rfl⟩
        exact ⟨fNhop, first, rfl, rfl⟩
    rcases @ruleDel_cases duplicate env flow s i fRes found with
      ⟨stays, stopped⟩ | ⟨_, missing, undefined⟩ | ⟨dels, fNhop, first, rest⟩
    · rw [stopped]
      refine iff_of_false (fun returned => ?_) ?_
      · cases returned
      · rintro ⟨p, nhop, ⟨found', routeDels, _⟩, _⟩
        rw [← ((path p).mp found').2] at routeDels
        exact stays routeDels
    · rw [undefined]
      refine iff_of_false (by simp) ?_
      rintro ⟨p, nhop, ⟨found', _⟩, _⟩
      rw [((path p).mp found').1] at missing; cases missing
    · have own {p : RulePath} (found' : rulePath flow.ipDstAddr s = some p) : p = ⟨i, fNhop⟩ := by
        obtain ⟨first', slot⟩ := (path p).mp found'
        rw [first] at first'
        cases p
        cases slot
        cases first'
        rfl
      rcases rest with ⟨stays, stopped⟩ | ⟨_, code, unknown, stopped⟩ |
        ⟨nhopDels, nhop, known, ⟨stays, stopped⟩ | ⟨neighDels, done⟩⟩
      · rw [stopped]
        refine iff_of_false (fun returned => ?_) ?_
        · cases returned
        · rintro ⟨p, nhop, ⟨found', _, nhopDels, _⟩, _⟩
          rw [own found'] at nhopDels
          exact stays nhopDels
      · rw [stopped]
        have negative := neighFind_error unknown
        refine iff_of_false (fun returned => ?_) ?_
        · cases returned
          omega
        · rintro ⟨p, nhop, ⟨found', _, _, neighbour, _⟩, _⟩
          rw [own found', RulePath.neigh, unknown] at neighbour; cases neighbour
      · rw [stopped]
        refine iff_of_false (fun returned => ?_) ?_
        · cases returned
        · rintro ⟨p, nhop', ⟨found', _, _, neighbour, neighDels⟩, _⟩
          rw [own found', RulePath.neigh, known, Except.ok.injEq] at neighbour
          rw [← neighbour] at neighDels
          exact stays neighDels
      · rw [done]
        constructor
        · rintro ⟨⟩
          exact ⟨⟨i, fNhop⟩, nhop, ⟨(path _).mpr ⟨first, rfl⟩, dels, nhopDels, known, neighDels⟩, rfl⟩
        · rintro ⟨p, nhop', ⟨found', _, _, neighbour, _⟩, rfl⟩
          obtain rfl := own found'
          obtain rfl := Except.ok.inj (known.symm.trans neighbour)
          rfl

theorem offloaded_tables (duplicate : HalDuplicate) (env : RuleEnv) (flow : Flow) (p : RulePath) (nhop : OlNeighEntry)
    (s : AgentState) :
    let e := FlowEntries.along flow p nhop
    let hw := (offloaded duplicate env flow p nhop s).hw
    hw.route = s.hw.route.insert e.routeKey e.routeData ∧ hw.nhop = s.hw.nhop.insert e.nhopKey e.nhopData ∧
      hw.neigh = s.hw.neigh.insert e.neighKey e.neighData := by
  refine ⟨?_, ?_, ?_⟩
  · simp only [offloaded, addNeigh, addNhop, addRoute, addTunnel_route]
    rfl
  · simp only [offloaded, addNeigh, addNhop, addRoute, addTunnel_nhop]
    rfl
  · simp only [offloaded, addNeigh, addNhop, addRoute, addTunnel_neigh]
    rfl

theorem withdrawn_tables (env : RuleEnv) (flow : Flow) (p : RulePath) (nhop : OlNeighEntry) (s : AgentState) :
    let e := FlowEntries.along flow p nhop
    let hw := (withdrawn env flow p nhop s).hw
    hw.route = s.hw.route.erase e.routeKey ∧ hw.nhop = s.hw.nhop.erase e.nhopKey ∧
      hw.neigh = s.hw.neigh.erase e.neighKey := by
  obtain ⟨routeFrame, nhopFrame, neighFrame⟩ := delTunnel_frame env s.hw
  refine ⟨?_, ?_, ?_⟩
  · simp only [withdrawn, delNeigh, delNhop, delRoute, routeFrame]
    rfl
  · simp only [withdrawn, delNeigh, delNhop, delRoute, nhopFrame]
    rfl
  · simp only [withdrawn, delNeigh, delNhop, delRoute, neighFrame]
    rfl

/-! ## Runs -/

/-- The run that started in `start` has changed nothing but the hardware, which shows the flows `off`. -/
structure Offloading (start : AgentState) (off : Offloads) (s : AgentState) : Prop where
  software : s = { start with hw := s.hw }
  asked : ∀ key e, off.lookup key = some e → key = e.routeKey ∧ ∃ flow, flowEntries start flow = some e
  shows : ShowsFlows off s.hw

section Run

variable {start : AgentState} {off : Offloads} {e : FlowEntries}

theorem Offloading.flowEntries_eq (offloading : Offloading start off s) (flow : Flow) :
    flowEntries s flow = flowEntries start flow := by
  rw [offloading.software]
  rfl

/-- The record of a key is found in `route_tbl`, and the other way round. -/
theorem Offloading.routeKey_mem_iff (offloading : Offloading start off s) (found : flowEntries start flow = some e) :
    e.routeKey ∈ s.hw.route ↔ off.lookup e.routeKey = some e := by
  rw [offloading.shows.route.mem_iff]
  constructor
  · rintro ⟨key, other, held, same⟩
    obtain ⟨rfl, asker, asked⟩ := offloading.asked key other held
    obtain rfl := flowEntries_of_routeKey asked found same
    exact held
  · exact fun held => ⟨_, e, held, rfl⟩

/-- A flow can be offloaded exactly when it shares no entry with a flow that is. -/
theorem Offloading.adds_iff (offloading : Offloading start off s) {p : RulePath} {nhop : OlNeighEntry}
    (path : rulePath flow.ipDstAddr s = some p) (neighbour : p.neigh s = .ok nhop) :
    OffloadsAlong .refused .accepts flow s p nhop ↔
      ∀ key other, off.lookup key = some other → (FlowEntries.along flow p nhop).Apart other := by
  have absent {κ α : Type} [DecidableEq κ] (t : Table κ α) (k : κ) : HalAdds .refused true t k ↔ k ∉ t :=
    ⟨halAdds_absent, fun missing => ⟨rfl, fun present => (missing present).elim⟩⟩
  have route : RouteAdds .refused .accepts flow.ipSrcAddr flow.ipDstAddr p s.hw ↔ _ := absent s.hw.route _
  have nhopEntry : NhopAdds .refused .accepts p s.hw ↔ _ := absent s.hw.nhop _
  have neighEntry : NeighAdds .refused .accepts nhop s.hw ↔ _ := absent s.hw.neigh _
  rw [offloading.shows.route.mem_iff] at route
  rw [offloading.shows.nhop.mem_iff] at nhopEntry
  rw [offloading.shows.neigh.mem_iff] at neighEntry
  constructor
  · rintro ⟨_, routeAdds, nhopAdds, _, neighAdds⟩ key other held
    exact ⟨fun same => route.mp routeAdds ⟨key, other, held, same.symm⟩,
      fun same => nhopEntry.mp nhopAdds ⟨key, other, held, same.symm⟩,
      fun same => neighEntry.mp neighAdds ⟨key, other, held, same.symm⟩⟩
  · intro apart
    refine ⟨path, route.mpr ?_, nhopEntry.mpr ?_, neighbour, neighEntry.mpr ?_⟩
    · rintro ⟨key, other, held, same⟩
      exact (apart key other held).1 same.symm
    · rintro ⟨key, other, held, same⟩
      exact (apart key other held).2.1 same.symm
    · rintro ⟨key, other, held, same⟩
      exact (apart key other held).2.2 same.symm

theorem Offloading.offload (offloading : Offloading start off s) {p : RulePath} {nhop : OlNeighEntry}
    (along : OffloadsAlong .refused env flow s p nhop) : Offloading start
      (off.insert (FlowEntries.along flow p nhop).routeKey (.along flow p nhop)) (offloaded .refused env flow p nhop s) where
  software := by
    have same := congrArg (fun t : AgentState => { t with hw := (offloaded .refused env flow p nhop s).hw })
      offloading.software
    exact same
  asked := by
    intro key other held
    rcases Table.lookup_insert_eq_some.mp held with ⟨rfl, rfl⟩ | ⟨_, older⟩
    · refine ⟨rfl, flow, ?_⟩
      rw [← offloading.flowEntries_eq]
      exact flowEntries_eq_some.mpr ⟨p, nhop, along.path, along.neighbour, rfl⟩
    · exact offloading.asked key other older
  shows := by
    have routeFresh : (FlowEntries.along flow p nhop).routeKey ∉ s.hw.route := halAdds_absent along.routeAdds
    have absent : off.lookup (FlowEntries.along flow p nhop).routeKey = none := by
      rw [Finmap.lookup_eq_none]
      intro present
      obtain ⟨other, held⟩ := Finmap.mem_iff.mp present
      obtain ⟨same, _⟩ := offloading.asked _ other held
      exact routeFresh (offloading.shows.route.mem_iff.mpr ⟨_, other, held, same.symm⟩)
    have nhopFresh : (FlowEntries.along flow p nhop).nhopKey ∉ s.hw.nhop := halAdds_absent along.nhopAdds
    have neighFresh : (FlowEntries.along flow p nhop).neighKey ∉ s.hw.neigh := halAdds_absent along.neighAdds
    obtain ⟨route, nhopTable, neigh⟩ := offloaded_tables .refused env flow p nhop s
    refine ⟨?_, ?_, ?_⟩
    · rw [route]
      exact offloading.shows.route.insert absent routeFresh
    · rw [nhopTable]
      exact offloading.shows.nhop.insert absent nhopFresh
    · rw [neigh]
      exact offloading.shows.neigh.insert absent neighFresh

theorem Offloading.withdraw (offloading : Offloading start off s) {p : RulePath} {nhop : OlNeighEntry}
    (along : WithdrawsAlong env flow s p nhop) : Offloading start
      (off.erase (FlowEntries.along flow p nhop).routeKey) (withdrawn env flow p nhop s) where
  software := by
    have same := congrArg (fun t : AgentState => { t with hw := (withdrawn env flow p nhop s).hw })
      offloading.software
    exact same
  asked := fun key other held => offloading.asked key other (Table.lookup_erase_eq_some.mp held).2
  shows := by
    have found : flowEntries start flow = some (.along flow p nhop) := by
      rw [← offloading.flowEntries_eq]
      exact flowEntries_eq_some.mpr ⟨p, nhop, along.path, along.neighbour, rfl⟩
    have held := (offloading.routeKey_mem_iff found).mp along.routeDels.2
    obtain ⟨route, nhopTable, neigh⟩ := withdrawn_tables env flow p nhop s
    refine ⟨?_, ?_, ?_⟩
    · rw [route]
      exact offloading.shows.route.erase held
    · rw [nhopTable]
      exact offloading.shows.nhop.erase held
    · rw [neigh]
      exact offloading.shows.neigh.erase held

theorem offloadStep_offload : offloadStep s (.offload env flow) = some s' ↔
    ∃ p nhop, OffloadsAlong .refused env flow s p nhop ∧ s' = offloaded .refused env flow p nhop s := by
  rw [← ruleAdd_zero_iff]
  simp only [offloadStep, Option.bind_eq_some_iff]
  constructor
  · rintro ⟨⟨next, ret⟩, called, success⟩
    split at success
    · next zero =>
      dsimp only at zero
      obtain rfl := Option.some.inj success
      rw [called, zero]
    · cases success
  · exact fun called => ⟨_, called, if_pos rfl⟩

theorem offloadStep_withdraw : offloadStep s (.withdraw env flow) = some s' ↔
    ∃ p nhop, WithdrawsAlong env flow s p nhop ∧ s' = withdrawn env flow p nhop s := by
  rw [← @ruleDel_zero_iff .refused]
  simp only [offloadStep, Option.bind_eq_some_iff]
  constructor
  · rintro ⟨⟨next, ret⟩, called, success⟩
    split at success
    · next zero =>
      dsimp only at zero
      obtain rfl := Option.some.inj success
      rw [called, zero]
    · cases success
  · exact fun called => ⟨_, called, if_pos rfl⟩

theorem offloadStep_offloading {call : OffloadCall} (offloading : Offloading start off s)
    (stepped : offloadStep s call = some s') : Offloading start (Offloads.after start off call) s' := by
  cases call with
  | offload env flow =>
    obtain ⟨p, nhop, along, rfl⟩ := offloadStep_offload.mp stepped
    have found : flowEntries start flow = some (.along flow p nhop) := by
      rw [← offloading.flowEntries_eq]
      exact flowEntries_eq_some.mpr ⟨p, nhop, along.path, along.neighbour, rfl⟩
    rw [Offloads.after, found, Option.elim_some]
    exact offloading.offload along
  | withdraw env flow =>
    obtain ⟨p, nhop, along, rfl⟩ := offloadStep_withdraw.mp stepped
    have found : flowEntries start flow = some (.along flow p nhop) := by
      rw [← offloading.flowEntries_eq]
      exact flowEntries_eq_some.mpr ⟨p, nhop, along.path, along.neighbour, rfl⟩
    rw [Offloads.after, found, Option.elim_some]
    exact offloading.withdraw along

theorem run_offloading {calls : List OffloadCall} (offloading : Offloading start off s)
    (reached : run offloadStep s calls = some s') : Offloading start (calls.foldl (Offloads.after start) off) s' := by
  induction calls generalizing s off with
  | nil => cases reached; exact offloading
  | cons call calls inductionHypothesis =>
    obtain ⟨next, stepped, rest⟩ := Option.bind_eq_some_iff.mp reached
    exact inductionHypothesis (offloadStep_offloading offloading stepped) rest

/-- With an accepting driver, a flow can be withdrawn exactly when it is offloaded. -/
theorem Offloading.dels_iff (offloading : Offloading start off s) {p : RulePath} {nhop : OlNeighEntry}
    (path : rulePath flow.ipDstAddr s = some p) (neighbour : p.neigh s = .ok nhop) :
    WithdrawsAlong .accepts flow s p nhop ↔
      off.lookup (FlowEntries.along flow p nhop).routeKey = some (.along flow p nhop) := by
  have found : flowEntries start flow = some (.along flow p nhop) := by
    rw [← offloading.flowEntries_eq]
    exact flowEntries_eq_some.mpr ⟨p, nhop, path, neighbour, rfl⟩
  rw [← offloading.routeKey_mem_iff found]
  constructor
  · exact fun along => along.routeDels.2
  · intro present
    have held := (offloading.routeKey_mem_iff found).mp present
    have nhopPresent := offloading.shows.nhop.mem_iff.mpr ⟨_, _, held, rfl⟩
    have neighPresent := offloading.shows.neigh.mem_iff.mpr ⟨_, _, held, rfl⟩
    exact ⟨path, ⟨rfl, present⟩, ⟨rfl, nhopPresent⟩, neighbour, ⟨rfl, neighPresent⟩⟩

end Run

/-- After any run of rule calls that all returned 0, the three tables are the entries of the flows that are
    offloaded.  With an accepting driver a further flow can be offloaded exactly when it shares no entry with
    these, and exactly these can be withdrawn. -/
theorem hardware_shows_offloads (start s : AgentState) (calls : List OffloadCall) (route : start.hw.route = ∅)
    (nhop : start.hw.nhop = ∅) (neigh : start.hw.neigh = ∅) (reached : run offloadStep start calls = some s) :
    let off := calls.foldl (Offloads.after start) ∅
    ShowsFlows off s.hw ∧
    (∀ flow, (∃ next, offloadStep s (.offload .accepts flow) = some next) ↔
      ∃ e, flowEntries start flow = some e ∧ ∀ key other, off.lookup key = some other → e.Apart other) ∧
    (∀ flow, (∃ next, offloadStep s (.withdraw .accepts flow) = some next) ↔
      ∃ e, flowEntries start flow = some e ∧ off.lookup e.routeKey = some e) := by
  intro off
  have empty : Offloading start ∅ start := by
    refine ⟨rfl, (fun key e held => by cases held), ?_, ?_, ?_⟩
    · rw [route]; exact .empty
    · rw [nhop]; exact .empty
    · rw [neigh]; exact .empty
  have offloading : Offloading start off s := run_offloading empty reached
  refine ⟨offloading.shows, fun flow => ?_, fun flow => ?_⟩
  · simp only [offloadStep_offload, ← offloading.flowEntries_eq, flowEntries_eq_some]
    constructor
    · rintro ⟨_, p, nhop, along, rfl⟩
      exact ⟨_, ⟨p, nhop, along.path, along.neighbour, rfl⟩,
        (offloading.adds_iff along.path along.neighbour).mp along⟩
    · rintro ⟨_, ⟨p, nhop, path, neighbour, rfl⟩, apart⟩
      exact ⟨_, p, nhop, (offloading.adds_iff path neighbour).mpr apart, rfl⟩
  · simp only [offloadStep_withdraw, ← offloading.flowEntries_eq, flowEntries_eq_some]
    constructor
    · rintro ⟨_, p, nhop, along, rfl⟩
      exact ⟨_, ⟨p, nhop, along.path, along.neighbour, rfl⟩,
        (offloading.dels_iff along.path along.neighbour).mp along⟩
    · rintro ⟨_, ⟨p, nhop, path, neighbour, rfl⟩, held⟩
      exact ⟨_, p, nhop, (offloading.dels_iff path neighbour).mpr held, rfl⟩

-- Two flows are offloaded and the first one is withdrawn.
def comeAndGo : List OffloadCall :=
  [.offload .accepts (flowTo 1 7), .offload .accepts (flowTo 2 8), .withdraw .accepts (flowTo 1 7)]

def entries8 : FlowEntries where
  routeKey := ⟨1, 0x0a090002, 0x0a000801⟩
  nhopKey := ⟨7⟩
  nhopData := ⟨11, 0xD00001, 0x0200a8c0, 8⟩
  neighKey := ⟨8⟩
  neighData := ⟨0x020000000002⟩

theorem comeAndGo_shown : ∃ s, run offloadStep twoRoutesState comeAndGo = some s ∧
    ShowsFlows (Finmap.insert entries8.routeKey entries8 ∅) s.hw ∧
    ∃ next, offloadStep s (.withdraw .accepts (flowTo 2 8)) = some next := by
  have defined : (run offloadStep twoRoutesState comeAndGo).isSome = true := by decide +kernel
  obtain ⟨s, reached⟩ := Option.isSome_iff_exists.mp defined
  have fresh : twoRoutesState.hw = .empty := by decide +kernel
  obtain ⟨shows, _, withdraws⟩ := hardware_shows_offloads twoRoutesState s comeAndGo (by rw [fresh]; rfl)
    (by rw [fresh]; rfl) (by rw [fresh]; rfl) reached
  have left : comeAndGo.foldl (Offloads.after twoRoutesState) ∅ = Finmap.insert entries8.routeKey entries8 ∅ := by
    decide +kernel
  rw [left] at shows withdraws
  have own : flowEntries twoRoutesState (flowTo 2 8) = some entries8 := by decide +kernel
  exact ⟨s, reached, shows, (withdraws (flowTo 2 8)).mpr ⟨entries8, own, Finmap.lookup_insert _⟩⟩

end Tao.Offload
