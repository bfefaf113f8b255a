import Tao.DataPlane.BucketHistory
import Tao.DataPlane.Deparser
import Tao.Driver.Route
import Tao.Foundation.Transition

/-! # The learning loop

Packets raise digests, digests are delivered to `learn_callback`, entries are marked and
removed, all in any order.  The key of a packet has to come back to the table unchanged
through metadata, digest, callback and key object. -/

namespace Tao.Driver

open Tao.Foundation Tao.DataPlane

/-- The addresses by which a packet is routed: those of the inner IPv4 header when it has one. -/
def packetFlowKey (pkt : Bits) : Option FlowKey :=
  if CarriesInnerIpv4 pkt then some ⟨(ipv4H (pkt.drop 512)).srcAddr, (ipv4H (pkt.drop 512)).dstAddr⟩
  else if CarriesIpv4 pkt then some ⟨(ipv4H (pkt.drop 112)).srcAddr, (ipv4H (pkt.drop 112)).dstAddr⟩
  else none

/-- The switch and its driver.  `inFlight` holds each digest that was not delivered yet with the
    packet that raised it.  `learned` is no state of the program: it collects the flow keys of the
    packets whose digest was added, until the entry is removed. -/
structure LearningState where
  regs : SketchRegisters
  route : Route
  inFlight : List (Bits × FlowkeyDigest)
  learned : Finset FlowKey

def LearningState.initial : LearningState := ⟨.initial, .initial, [], ∅⟩

inductive LearningAction where
  | packet (ingressPort : PortId) (pkt : Bits)
  | deliver (i : Nat) (answer : BfStatus) (usage : TableUsage)
  | idle (key : FlowKey) (answer : BfStatus) (usage : TableUsage)
  | remove (key : HalRouteKey) (answer : BfStatus)

def learningStep (hashes : HashUnits) (s : LearningState) : LearningAction → Option LearningState
  | .packet ingressPort pkt =>
    match shcIngressPipeline hashes s.regs s.route.routeTbl ingressPort pkt with
    | none => some s
    | some out =>
      some { s with regs := out.regs, inFlight := s.inFlight ++ out.digest.toList.map fun digest => (pkt, digest) }
  | .deliver i answer usage =>
    match s.inFlight[i]? with
    | none => some s
    | some (pkt, digest) =>
      some { s with
        route := learnDigest answer usage digest s.route
        inFlight := s.inFlight.eraseIdx i
        learned := if answer = bfSuccess then s.learned ∪ (packetFlowKey pkt).toFinset else s.learned }
  | .idle key answer usage => some { s with route := idletimeCallback answer usage key s.route }
  | .remove key answer =>
    some { s with
      route := (halRouteEntryDel answer key false s.route).1
      learned := if answer = bfSuccess then s.learned.erase (keySetUp key) else s.learned }

/-- What holds of every packet that could arrive now: a digest is its own flow key, which
    `route_tbl` does not have, and a learned flow hits the table and raises no digest. -/
def LoopClosed (hashes : HashUnits) (s : LearningState) : Prop :=
  ∀ ingressPort pkt out, shcIngressPipeline hashes s.regs s.route.routeTbl ingressPort pkt = some out →
    (∀ digest, out.digest = some digest →
      packetFlowKey pkt = some ⟨digest.srcIpDigest, digest.dstIpDigest⟩ ∧
        s.route.routeTbl.lookup ⟨digest.srcIpDigest, digest.dstIpDigest⟩ = none) ∧
    (∀ key ∈ s.learned, packetFlowKey pkt = some key → out.tableHit = 1 ∧ out.digest = none)

/-! ## One packet -/

/-- The pipeline routes an accepted packet by its flow key. -/
theorem flowOf_headersOf (pkt : Bits) (ingressPort : PortId) (routeTbl : RouteTbl) :
    flowOf ⟨headersOf pkt, ingressPort, routeTbl⟩ = packetFlowKey pkt := by
  simp only [flowOf, flowKey, headersOf, packetFlowKey]
  by_cases inner : CarriesInnerIpv4 pkt
  · have outer : CarriesIpv4 pkt := inner.1.1.1
    simp only [if_pos inner, if_pos outer, Option.map_some]
  · simp only [if_neg inner]
    split <;> rfl

theorem pipeline_some {hashes : HashUnits} {regs : SketchRegisters} {routeTbl : RouteTbl}
    {ingressPort : PortId} {pkt : Bits} {out : PipelineOutput}
    (sent : shcIngressPipeline hashes regs routeTbl ingressPort pkt = some out) :
    let arrival : Arrival := ⟨headersOf pkt, ingressPort, routeTbl⟩
    out.tableHit = (ShcIngress.apply hashes regs arrival).2.1.tableHit ∧
      out.digest = digestOf hashes regs arrival := by
  unfold shcIngressPipeline at sent
  split at sent
  · cases sent
  · next parsed eq =>
    have accepted : (ShcIngressParser pkt).2 = .accept := by rw [eq]
    obtain ⟨headers, _, _⟩ := parsed_of_accepted accepted
    rw [eq] at headers
    dsimp only at headers
    rw [headers] at sent
    obtain rfl := Option.some.inj sent
    exact ⟨rfl, rfl⟩

theorem digest_of_missing {hashes : HashUnits} {regs : SketchRegisters} {arrival : Arrival} {digest : FlowkeyDigest}
    (raised : digestOf hashes regs arrival = some digest) :
    flowOf arrival = some ⟨digest.srcIpDigest, digest.dstIpDigest⟩ ∧
      arrival.routeTbl.lookup ⟨digest.srcIpDigest, digest.dstIpDigest⟩ = none := by
  let key : FlowKey := ⟨digest.srcIpDigest, digest.dstIpDigest⟩
  have same : ∃ other, digestOf hashes regs arrival = some other ∧
      other.srcIpDigest = key.srcAddr ∧ other.dstIpDigest = key.dstAddr := ⟨digest, raised, rfl, rfl⟩
  obtain ⟨flow, _, missing⟩ := digestOf_eq_some.mp same
  exact ⟨flow, missing key flow⟩

theorem tableHit_of_present {arrival : Arrival} {key : FlowKey} (flow : flowOf arrival = some key)
    (present : arrival.routeTbl.lookup key ≠ none) (hashes : HashUnits) (regs : SketchRegisters) :
    (ShcIngress.apply hashes regs arrival).2.1.tableHit = 1 := by
  obtain ⟨outer, valid, rfl⟩ := Option.map_eq_some_iff.mp flow
  obtain ⟨_, _, _, kept, _⟩ := sketch_apply_spec hashes regs (classify hashes outer arrival).1
  obtain ⟨_, _, hit⟩ := classify_spec hashes outer arrival
  rw [(ingress_valid valid hashes regs).2, kept, hit, if_neg present]

/-! ## The invariant -/

/-- A digest in flight carries the key of its packet, and learned keys are in the table. -/
structure Consistent (s : LearningState) : Prop where
  inFlight : ∀ raised ∈ s.inFlight, packetFlowKey raised.1 = some ⟨raised.2.srcIpDigest, raised.2.dstIpDigest⟩
  learned : ∀ key ∈ s.learned, s.route.routeTbl.lookup key ≠ none

theorem loopClosed_of_consistent {s : LearningState} (consistent : Consistent s) (hashes : HashUnits) :
    LoopClosed hashes s := by
  intro ingressPort pkt out sent
  obtain ⟨hit, digested⟩ := pipeline_some sent
  have flow := flowOf_headersOf pkt ingressPort s.route.routeTbl
  refine ⟨fun digest raised => ?_, fun key known same => ?_⟩
  · obtain ⟨key, missing⟩ := digest_of_missing (digested.symm.trans raised)
    exact ⟨flow.symm.trans key, missing⟩
  · have present := consistent.learned key known
    refine ⟨hit.trans (tableHit_of_present (flow.trans same) present hashes s.regs), ?_⟩
    cases raised : out.digest with
    | none => rfl
    | some digest =>
      obtain ⟨own, missing⟩ := digest_of_missing (digested.symm.trans raised)
      obtain rfl := Option.some.inj ((flow.trans same).symm.trans own)
      exact absurd missing present

theorem agingTtlBalance_routeTbl (usage : TableUsage) (r : Route) :
    (agingTtlBalance usage r).routeTbl = r.routeTbl := by
  unfold agingTtlBalance
  dsimp only
  split_ifs <;> rfl

/-- Adding a digest puts its key into the table and leaves the other keys alone. -/
theorem learnDigest_routeTbl (answer : BfStatus) (usage : TableUsage) (digest : FlowkeyDigest) (r : Route) :
    (learnDigest answer usage digest r).routeTbl =
      if answer = bfSuccess then
        r.routeTbl.insert ⟨digest.srcIpDigest, digest.dstIpDigest⟩ (.routeForNexthop 1)
      else r.routeTbl := by
  rw [learnDigest_eq, tableEntryAdd]
  split
  · rw [agingTtlBalance_routeTbl]
  · rfl

theorem idletimeCallback_routeTbl (answer : BfStatus) (usage : TableUsage) (key : FlowKey) (r : Route) :
    (idletimeCallback answer usage key r).routeTbl = r.routeTbl := by
  rw [idletimeCallback_eq]
  split
  · exact agingTtlBalance_routeTbl usage r
  · rfl

theorem Consistent.sent {s : LearningState} (consistent : Consistent s) {hashes : HashUnits}
    {ingressPort : PortId} {pkt : Bits} {out : PipelineOutput}
    (sent : shcIngressPipeline hashes s.regs s.route.routeTbl ingressPort pkt = some out) :
    Consistent { s with
      regs := out.regs, inFlight := s.inFlight ++ out.digest.toList.map fun digest => (pkt, digest) } where
  inFlight := by
    intro raised member
    rcases List.mem_append.mp member with older | new
    · exact consistent.inFlight raised older
    · obtain ⟨digest, emitted, rfl⟩ := List.mem_map.mp new
      obtain ⟨own, _⟩ := (loopClosed_of_consistent consistent hashes ingressPort pkt out sent).1 digest
        (Option.mem_toList.mp emitted)
      exact own
  learned := consistent.learned

/-- The key that is learned is the one that the callback adds. -/
theorem Consistent.delivered {s : LearningState} (consistent : Consistent s) {i : Nat} {pkt : Bits}
    {digest : FlowkeyDigest} (present : s.inFlight[i]? = some (pkt, digest)) (answer : BfStatus)
    (usage : TableUsage) :
    Consistent { s with
      route := learnDigest answer usage digest s.route
      inFlight := s.inFlight.eraseIdx i
      learned := if answer = bfSuccess then s.learned ∪ (packetFlowKey pkt).toFinset else s.learned } where
  inFlight := fun raised member => consistent.inFlight raised (List.mem_of_mem_eraseIdx member)
  learned := by
    intro key known
    have ownKey := consistent.inFlight (pkt, digest) (List.mem_of_getElem? present)
    dsimp only at known ownKey ⊢
    rw [learnDigest_routeTbl]
    split at known
    · next added =>
      rw [if_pos added]
      by_cases own : key = ⟨digest.srcIpDigest, digest.dstIpDigest⟩
      · rw [own, Finmap.lookup_insert]
        exact Option.some_ne_none _
      · rw [Finmap.lookup_insert_of_ne _ own]
        refine consistent.learned key ((Finset.mem_union.mp known).resolve_right fun new => own ?_)
        exact (Option.some.inj (ownKey.symm.trans (Option.mem_toFinset.mp new))).symm
    · next refused =>
      rw [if_neg refused]
      exact consistent.learned key known

theorem Consistent.removed {s : LearningState} (consistent : Consistent s) (key : HalRouteKey)
    (answer : BfStatus) :
    Consistent { s with
      route := (halRouteEntryDel answer key false s.route).1
      learned := if answer = bfSuccess then s.learned.erase (keySetUp key) else s.learned } where
  inFlight := consistent.inFlight
  learned := by
    intro other known
    dsimp only [halRouteEntryDel, tableEntryDel] at known ⊢
    rw [if_neg Bool.false_ne_true]
    split at known
    · next removed =>
      rw [if_pos removed]
      obtain ⟨different, before⟩ := Finset.mem_erase.mp known
      rw [Finmap.lookup_erase_ne different]
      exact consistent.learned other before
    · next refused =>
      rw [if_neg refused]
      exact consistent.learned other known

theorem learningStep_consistent (hashes : HashUnits) {s : LearningState} (consistent : Consistent s)
    (action : LearningAction) : ∃ next, learningStep hashes s action = some next ∧ Consistent next := by
  cases action with
  | packet ingressPort pkt =>
    simp only [learningStep]
    split
    · exact ⟨s, rfl, consistent⟩
    · next out sent => exact ⟨_, rfl, consistent.sent sent⟩
  | deliver i answer usage =>
    simp only [learningStep]
    split
    · exact ⟨s, rfl, consistent⟩
    · next pkt digest present => exact ⟨_, rfl, consistent.delivered present answer usage⟩
  | idle key answer usage =>
    refine ⟨_, rfl, consistent.inFlight, fun key known => ?_⟩
    dsimp only
    rw [idletimeCallback_routeTbl]
    exact consistent.learned key known
  | remove key answer => exact ⟨_, rfl, consistent.removed key answer⟩

theorem initial_consistent : Consistent .initial where
  inFlight := fun _ member => absurd member List.not_mem_nil
  learned := fun key known => absurd known (Finset.notMem_empty key)

/-- Learning closes the loop on the flow key in every state of every run. -/
theorem learning_closes_loop (hashes : HashUnits) (actions : List LearningAction) :
    Always (learningStep hashes) (LoopClosed hashes) .initial actions :=
  (always_of_preserved Consistent (fun _ action consistent => learningStep_consistent hashes consistent action)
    initial_consistent).imp fun _ consistent => loopClosed_of_consistent consistent hashes

/-! ## Until the entry is removed -/

def Removes (key : FlowKey) : LearningAction → Prop
  | .remove removed answer => answer = bfSuccess ∧ keySetUp removed = key
  | _ => False

theorem learned_of_delivered {hashes : HashUnits} {s next : LearningState} {i : Nat} {usage : TableUsage}
    {pkt : Bits} {digest : FlowkeyDigest} {key : FlowKey} (present : s.inFlight[i]? = some (pkt, digest))
    (own : packetFlowKey pkt = some key)
    (stepped : learningStep hashes s (.deliver i bfSuccess usage) = some next) : key ∈ next.learned := by
  simp only [learningStep, present, if_true, own] at stepped
  obtain rfl := Option.some.inj stepped
  exact Finset.mem_union_right _ (Option.mem_toFinset.mpr rfl)

/-- Other packets, deliveries and notifications do not forget a learned flow. -/
theorem learned_until_removed {hashes : HashUnits} {key : FlowKey} {actions : List LearningAction}
    {s final : LearningState} (kept : ∀ action ∈ actions, ¬Removes key action) (known : key ∈ s.learned)
    (reached : run (learningStep hashes) s actions = some final) : key ∈ final.learned := by
  induction actions generalizing s with
  | nil =>
    obtain rfl := Option.some.inj reached
    exact known
  | cons action actions inductionHypothesis =>
    obtain ⟨next, stepped, rest⟩ := Option.bind_eq_some_iff.mp reached
    refine inductionHypothesis (fun later member => kept later (List.mem_cons_of_mem _ member)) ?_ rest
    have keeps := kept action List.mem_cons_self
    cases action with
    | packet ingressPort pkt =>
      simp only [learningStep] at stepped
      split at stepped <;> obtain rfl := Option.some.inj stepped <;> exact known
    | deliver i answer usage =>
      simp only [learningStep] at stepped
      split at stepped
      · obtain rfl := Option.some.inj stepped
        exact known
      · obtain rfl := Option.some.inj stepped
        dsimp only
        split
        · exact Finset.mem_union_left _ known
        · exact known
    | idle aged answer usage =>
      obtain rfl := Option.some.inj stepped
      exact known
    | remove removed answer =>
      obtain rfl := Option.some.inj stepped
      dsimp only
      split
      · next success => exact Finset.mem_erase.mpr ⟨fun same => keeps ⟨success, same.symm⟩, known⟩
      · exact known

theorem run_consistent {hashes : HashUnits} {actions : List LearningAction} {s final : LearningState}
    (consistent : Consistent s) (ran : run (learningStep hashes) s actions = some final) : Consistent final := by
  refine run_invariant (fun s action next consistent stepped => ?_) consistent ran
  obtain ⟨next', stepped', kept⟩ := learningStep_consistent hashes consistent action
  obtain rfl := Option.some.inj (stepped.symm.trans stepped')
  exact kept

/-- Once a digest of a flow was delivered, each packet of the flow hits the table and raises no digest, until
    the entry is removed. -/
theorem delivered_flow_hits {hashes : HashUnits} {earlier later : List LearningAction} {s final : LearningState}
    {i : Nat} {usage : TableUsage} {pkt : Bits} {digest : FlowkeyDigest} {key : FlowKey}
    (reached : run (learningStep hashes) .initial earlier = some s)
    (present : s.inFlight[i]? = some (pkt, digest)) (own : packetFlowKey pkt = some key)
    (ran : run (learningStep hashes) s (.deliver i bfSuccess usage :: later) = some final)
    (kept : ∀ action ∈ later, ¬Removes key action) {ingressPort : PortId} {pkt' : Bits} {out : PipelineOutput}
    (sent : shcIngressPipeline hashes final.regs final.route.routeTbl ingressPort pkt' = some out)
    (same : packetFlowKey pkt' = some key) : out.tableHit = 1 ∧ out.digest = none := by
  have consistent : Consistent final := run_consistent (run_consistent initial_consistent reached) ran
  obtain ⟨next, delivered, rest⟩ := Option.bind_eq_some_iff.mp ran
  have known : key ∈ final.learned :=
    learned_until_removed kept (learned_of_delivered present own delivered) rest
  exact (loopClosed_of_consistent consistent hashes ingressPort pkt' out sent).2 key known same

end Tao.Driver
