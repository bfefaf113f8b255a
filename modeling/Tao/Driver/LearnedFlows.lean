import Tao.DataPlane.ActiveFlow
import Tao.DataPlane.Transparency
import Tao.Driver.Learning

/-! # Active flows get into the table

Ten packets of a flow that nothing in its bucket interrupts are enough: switch and driver
then know the flow, whatever other packets arrive, whatever ages out and in whatever order
digests are delivered. -/

namespace Tao.Driver

open Tao.Foundation Tao.DataPlane

/-! ## Known flows -/

def digestKey (digest : FlowkeyDigest) : FlowKey := ⟨digest.srcIpDigest, digest.dstIpDigest⟩

/-- The table has an entry for the flow, or a digest of the flow is on its way to the driver. -/
def KnowsFlow (key : FlowKey) (s : LearningState) : Prop :=
  s.route.routeTbl.lookup key ≠ none ∨ ∃ raised ∈ s.inFlight, digestKey raised.2 = key

/-- A removal of the entry of the flow, or a digest of the flow that the driver cannot add. -/
def Loses (key : FlowKey) (s : LearningState) : LearningAction → Prop
  | .deliver i answer _ => answer ≠ bfSuccess ∧ ∃ raised, s.inFlight[i]? = some raised ∧ digestKey raised.2 = key
  | action => Removes key action

theorem knowsFlow_kept {hashes : HashUnits} {key : FlowKey} {s next : LearningState} {action : LearningAction}
    (known : KnowsFlow key s) (keeps : ¬Loses key s action) (stepped : learningStep hashes s action = some next) :
    KnowsFlow key next := by
  cases action with
  | packet ingressPort pkt =>
    simp only [learningStep] at stepped
    split at stepped <;> obtain rfl := Option.some.inj stepped
    · exact known
    · rcases known with there | ⟨raised, waiting, own⟩
      · exact .inl there
      · exact .inr ⟨raised, List.mem_append_left _ waiting, own⟩
  | deliver i answer usage =>
    simp only [learningStep] at stepped
    split at stepped
    · obtain rfl := Option.some.inj stepped
      exact known
    · next pkt digest present =>
      obtain rfl := Option.some.inj stepped
      unfold KnowsFlow
      dsimp only
      rw [learnDigest_routeTbl]
      by_cases own : digestKey digest = key
      · -- the digest of the flow is added
        have added : answer = bfSuccess := by
          by_contra refused
          exact keeps ⟨refused, _, present, own⟩
        rw [if_pos added]
        left
        change Finmap.lookup key (Finmap.insert (digestKey digest) _ _) ≠ none
        rw [own, Finmap.lookup_insert]
        exact Option.some_ne_none _
      · rcases known with there | ⟨raised, waiting, ofFlow⟩
        · left
          split
          · have other : key ≠ ⟨digest.srcIpDigest, digest.dstIpDigest⟩ := fun same => own same.symm
            rwa [Finmap.lookup_insert_of_ne _ other]
          · exact there
        · refine .inr ⟨raised, ?_, ofFlow⟩
          -- another digest is delivered, so this one goes on waiting
          obtain ⟨j, inside, at_⟩ := List.mem_iff_getElem.mp waiting
          have different : j ≠ i := by
            rintro rfl
            rw [List.getElem?_eq_getElem inside, at_, Option.some.injEq] at present
            rw [present] at ofFlow
            exact own ofFlow
          rw [List.mem_eraseIdx_iff_getElem]
          exact ⟨j, inside, different, at_⟩
  | idle aged answer usage =>
    obtain rfl := Option.some.inj stepped
    unfold KnowsFlow
    dsimp only
    rwa [idletimeCallback_routeTbl]
  | remove removed answer =>
    obtain rfl := Option.some.inj stepped
    refine known.imp_left fun there => ?_
    dsimp only [halRouteEntryDel, tableEntryDel]
    rw [if_neg Bool.false_ne_true]
    split
    · next success =>
      have other : key ≠ keySetUp removed := fun same => keeps ⟨success, same.symm⟩
      rwa [Finmap.lookup_erase_ne other]
    · exact there

/-! ## Rows of packets -/

def missBucket (hashes : HashUnits) (pkt : Bits) : Option HashBucket := bucketOf hashes ⟨headersOf pkt, 0, ∅⟩

/-- A packet of the flow that is counted in bucket `b` as long as the flow is not known. -/
def countsFor (hashes : HashUnits) (b : HashBucket) (key : FlowKey) : LearningAction → Bool
  | .packet _ pkt => (ShcIngressParser pkt).2 = .accept ∧ packetFlowKey pkt = some key ∧ missBucket hashes pkt = some b
  | _ => false

/-- A packet of another flow that is counted in bucket `b`. -/
def Interrupts (hashes : HashUnits) (b : HashBucket) (key : FlowKey) (s : LearningState) : LearningAction → Prop
  | .packet ingressPort pkt => (ShcIngressParser pkt).2 = .accept ∧
      bucketOf hashes ⟨headersOf pkt, ingressPort, s.route.routeTbl⟩ = some b ∧ packetFlowKey pkt ≠ some key
  | _ => False

/-- How many packets of the fingerprint the bucket has counted in a row. -/
def rowLength (regs : SketchRegisters) (b : HashBucket) (fingerprint : BitVec 16) : Nat :=
  if regs.hash1_1 b = fingerprint then (regs.hash1_1_n b).toNat else 0

theorem rowLength_lt_iff {regs : SketchRegisters} {b : HashBucket} {fingerprint : BitVec 16} :
    rowLength regs b fingerprint < hitCount ↔ ¬CountedOut regs b fingerprint := by
  unfold rowLength CountedOut
  split
  · next same => simp [same]
  · next different => simp [different, hitCount]

theorem bucketOf_of_missing {hashes : HashUnits} {pkt : Bits} {ingressPort : PortId} {routeTbl : RouteTbl} {key : FlowKey}
    (flow : packetFlowKey pkt = some key) (missing : routeTbl.lookup key = none) :
    bucketOf hashes ⟨headersOf pkt, ingressPort, routeTbl⟩ = missBucket hashes pkt := by
  have flows := flowOf_headersOf pkt ingressPort routeTbl
  rw [flow, flowOf] at flows
  obtain ⟨outer, valid, same⟩ := Option.map_eq_some_iff.mp flows
  dsimp only at valid same
  have missed : routeTbl.lookup ⟨(flowKey outer (headersOf pkt)).srcAddr, (flowKey outer (headersOf pkt)).dstAddr⟩ =
      none := by rw [same]; exact missing
  simp only [missBucket, bucketOf, valid, Option.map_some, classify, routeTblApply, missed, Finmap.lookup_empty]

/-- A packet of the flow makes the row longer, and the one that makes it long enough raises a digest. -/
theorem row_grows {hashes : HashUnits} {b : HashBucket} {key : FlowKey} {arrival : Arrival} {regs : SketchRegisters}
    (inBucket : bucketOf hashes arrival = some b) (ofFlow : flowOf arrival = some key)
    (missing : arrival.routeTbl.lookup key = none)
    (below : rowLength regs b (fingerprintOf hashes key) < hitCount) :
    rowLength (ShcIngress.apply hashes regs arrival).1 b (fingerprintOf hashes key) =
      rowLength regs b (fingerprintOf hashes key) + 1 ∧
    (rowLength regs b (fingerprintOf hashes key) + 1 = hitCount →
      ∃ digest, digestOf hashes regs arrival = some digest ∧ digestKey digest = key) := by
  obtain ⟨stored, counted, flagged⟩ := ingress_mapped (mappedFingerprint_eq inBucket ofFlow) regs
  have count : (nextCount regs b (fingerprintOf hashes key)).toNat = rowLength regs b (fingerprintOf hashes key) + 1 := by
    unfold rowLength at below ⊢
    unfold nextCount
    by_cases same : regs.hash1_1 b = fingerprintOf hashes key
    · rw [if_pos same] at below ⊢
      rw [if_pos same.symm, satAdd]
      unfold hitCount at below
      split <;> simp at * <;> omega
    · rw [if_neg same, if_neg (Ne.symm same)]
      rfl
  refine ⟨by rw [rowLength, if_pos stored, counted, count], fun full => ?_⟩
  have raised : eflagOf hashes regs arrival = 1 := by
    rw [flagged]
    apply BitVec.eq_of_toNat_eq
    rw [count, full]
    rfl
  have misses : MissesRouteTbl arrival := by
    intro flow same
    obtain rfl := Option.some.inj (ofFlow.symm.trans same)
    exact missing
  obtain ⟨digest, emitted, source, destination⟩ := digestOf_eq_some.mpr ⟨ofFlow, raised, misses⟩
  refine ⟨digest, emitted, ?_⟩
  rw [digestKey, source, destination]

/-! ## Runs -/

def Undisturbed (hashes : HashUnits) (b : HashBucket) (key : FlowKey) (s : LearningState) (action : LearningAction) :
    Prop :=
  ¬Interrupts hashes b key s action ∧ ¬Loses key s action

theorem pipeline_accepted {hashes : HashUnits} {regs : SketchRegisters} {routeTbl : RouteTbl} {ingressPort : PortId}
    {pkt : Bits} {out : PipelineOutput} (sent : shcIngressPipeline hashes regs routeTbl ingressPort pkt = some out) :
    (ShcIngressParser pkt).2 = .accept ∧
      out.regs = (ShcIngress.apply hashes regs ⟨headersOf pkt, ingressPort, routeTbl⟩).1 := by
  unfold shcIngressPipeline at sent
  split at sent
  · cases sent
  · next parsed eq =>
    have accepted : (ShcIngressParser pkt).2 = .accept := by rw [eq]
    obtain ⟨headers, _, _⟩ := parsed_of_accepted accepted
    rw [eq] at headers
    dsimp only at headers
    rw [headers] at sent
    obtain rfl := Option.some.inj sent
    exact ⟨accepted, rfl⟩

theorem pipeline_none {hashes : HashUnits} {regs : SketchRegisters} {routeTbl : RouteTbl} {ingressPort : PortId}
    {pkt : Bits} (rejected : shcIngressPipeline hashes regs routeTbl ingressPort pkt = none) :
    (ShcIngressParser pkt).2 = .reject := by
  unfold shcIngressPipeline at rejected
  split at rejected
  · next eq => rw [eq]
  · cases rejected

/-- A packet of the flow makes the row longer or the flow known, and nothing else makes the row shorter. -/
theorem row_advances {hashes : HashUnits} {b : HashBucket} {key : FlowKey} {s next : LearningState}
    {action : LearningAction} (unknown : ¬KnowsFlow key s)
    (below : rowLength s.regs b (fingerprintOf hashes key) < hitCount)
    (undisturbed : Undisturbed hashes b key s action) (stepped : learningStep hashes s action = some next) :
    KnowsFlow key next ∨ rowLength next.regs b (fingerprintOf hashes key) < hitCount ∧
      rowLength s.regs b (fingerprintOf hashes key) + (countsFor hashes b key action).toNat ≤
        rowLength next.regs b (fingerprintOf hashes key) := by
  have missing : s.route.routeTbl.lookup key = none := by
    by_contra there
    exact unknown (.inl there)
  cases action with
  | packet ingressPort pkt =>
    simp only [learningStep] at stepped
    cases sent : shcIngressPipeline hashes s.regs s.route.routeTbl ingressPort pkt with
    | none =>
      rw [sent] at stepped
      obtain rfl := Option.some.inj stepped
      have uncounted : countsFor hashes b key (.packet ingressPort pkt) = false := by
        simp [countsFor, pipeline_none sent]
      rw [uncounted]
      exact .inr ⟨below, Nat.le_refl _⟩
    | some out =>
      rw [sent] at stepped
      obtain rfl := Option.some.inj stepped
      obtain ⟨accepted, regs⟩ := pipeline_accepted sent
      have flows := flowOf_headersOf pkt ingressPort s.route.routeTbl
      dsimp only
      rw [regs]
      by_cases ofFlow : packetFlowKey pkt = some key
      · have miss := @bucketOf_of_missing hashes pkt ingressPort _ key ofFlow missing
        by_cases own : missBucket hashes pkt = some b
        · -- a packet of the row
          obtain ⟨longer, raises⟩ := row_grows (miss.trans own) (flows.trans ofFlow) missing below
          have counted : countsFor hashes b key (.packet ingressPort pkt) = true := by
            simp [countsFor, accepted, ofFlow, own]
          rw [counted, longer]
          by_cases full : rowLength s.regs b (fingerprintOf hashes key) + 1 = hitCount
          · obtain ⟨digest, raised, same⟩ := raises full
            refine .inl (.inr ⟨(pkt, digest), List.mem_append_right _ ?_, same⟩)
            rw [(pipeline_some sent).2, raised]
            exact List.mem_map.mpr ⟨digest, List.mem_singleton.mpr rfl, rfl⟩
          · exact .inr ⟨by omega, Nat.le_refl _⟩
        · have uncounted : countsFor hashes b key (.packet ingressPort pkt) = false := by simp [countsFor, own]
          have unmapped : mappedFingerprint hashes b ⟨headersOf pkt, ingressPort, s.route.routeTbl⟩ = none := by
            rw [mappedFingerprint, if_neg (by rw [miss]; exact own)]
          obtain ⟨stored, counted⟩ := ingress_unmapped unmapped s.regs
          rw [uncounted, rowLength, stored, counted]
          exact .inr ⟨below, Nat.le_refl _⟩
      · have uncounted : countsFor hashes b key (.packet ingressPort pkt) = false := by simp [countsFor, ofFlow]
        have elsewhere : ¬bucketOf hashes ⟨headersOf pkt, ingressPort, s.route.routeTbl⟩ = some b :=
          fun inBucket => undisturbed.1 ⟨accepted, inBucket, ofFlow⟩
        have unmapped : mappedFingerprint hashes b ⟨headersOf pkt, ingressPort, s.route.routeTbl⟩ = none := by
          rw [mappedFingerprint, if_neg elsewhere]
        obtain ⟨stored, counted⟩ := ingress_unmapped unmapped s.regs
        rw [uncounted, rowLength, stored, counted]
        exact .inr ⟨below, Nat.le_refl _⟩
  | deliver i answer usage =>
    simp only [learningStep] at stepped
    split at stepped <;> obtain rfl := Option.some.inj stepped <;> exact .inr ⟨below, Nat.le_refl _⟩
  | idle aged answer usage =>
    obtain rfl := Option.some.inj stepped
    exact .inr ⟨below, Nat.le_refl _⟩
  | remove removed answer =>
    obtain rfl := Option.some.inj stepped
    exact .inr ⟨below, Nat.le_refl _⟩

/-- When a run has ten packets of a flow that nothing in their bucket interrupts, and no digest or entry of
    the flow is lost, the flow is known at its end; once no digest waits, every packet of the flow hits. -/
theorem row_is_learned (hashes : HashUnits) (b : HashBucket) (key : FlowKey) (s final : LearningState)
    (actions : List LearningAction) (fresh : ¬CountedOut s.regs b (fingerprintOf hashes key))
    (undisturbed : Guarded (learningStep hashes) (Undisturbed hashes b key) s actions)
    (row : hitCount ≤ actions.countP (countsFor hashes b key))
    (reached : run (learningStep hashes) s actions = some final) :
    KnowsFlow key final ∧
    (final.inFlight = [] → ∀ ingressPort pkt out, packetFlowKey pkt = some key →
      shcIngressPipeline hashes final.regs final.route.routeTbl ingressPort pkt = some out →
      out.tableHit = 1 ∧ out.digest = none) := by
  have known : KnowsFlow key final := by
    rcases @Guarded.reaches_goal _ _ _ (Undisturbed hashes b key) (KnowsFlow key)
      (fun s => rowLength s.regs b (fingerprintOf hashes key)) hitCount (countsFor hashes b key)
      (fun _ _ _ known ok stepped => knowsFlow_kept known ok.2 stepped)
      (fun _ _ _ unknown below ok stepped => row_advances unknown below ok stepped) _ _ _
      (.inr (rowLength_lt_iff.mpr fresh)) undisturbed reached with known | ⟨below, most⟩
    · exact known
    · omega
  refine ⟨known, fun drained ingressPort pkt out ofFlow sent => ?_⟩
  have present : final.route.routeTbl.lookup key ≠ none := by
    rcases known with there | ⟨raised, waiting, _⟩
    · exact there
    · rw [drained] at waiting; cases waiting
  obtain ⟨hit, digested⟩ := pipeline_some sent
  have flow := (flowOf_headersOf pkt ingressPort final.route.routeTbl).trans ofFlow
  refine ⟨hit.trans (tableHit_of_present flow present hashes final.regs), ?_⟩
  rw [digested, Option.eq_none_iff_forall_not_mem]
  intro digest raised
  obtain ⟨own, missing⟩ := digest_of_missing (Option.mem_def.mp raised)
  obtain rfl := Option.some.inj (flow.symm.trans own)
  exact present missing

/-! ### Ten packets and a delivery -/

-- 10.0.0.1 to 10.0.0.2.
def rowFlow : FlowKey := ⟨0x0A000001, 0x0A000002⟩

def rowActions : List LearningAction :=
  List.replicate 10 (.packet 1 plainPacket) ++ [.deliver 0 bfSuccess ⟨1, 0, by decide, by decide⟩]

theorem rowActions_learned : ∃ final, run (learningStep crc16Units) .initial rowActions = some final ∧
    KnowsFlow rowFlow final ∧
    ∀ out, shcIngressPipeline crc16Units final.regs final.route.routeTbl 1 plainPacket = some out → out.tableHit = 1 := by
  have flow : packetFlowKey plainPacket = some rowFlow := by decide +kernel
  have undisturbed : Guarded (learningStep crc16Units) (Undisturbed crc16Units 3 rowFlow) .initial rowActions := by
    refine guarded_of_mem (fun s action member => ?_) LearningState.initial
    rcases List.mem_append.mp member with packet | delivery
    · obtain rfl := List.eq_of_mem_replicate packet
      exact ⟨fun interrupts => interrupts.2.2 flow, fun loses => loses⟩
    · obtain rfl := List.mem_singleton.mp delivery
      exact ⟨fun interrupts => interrupts, fun loses => loses.1 rfl⟩
  have drained : ((run (learningStep crc16Units) .initial rowActions).map LearningState.inFlight) = some [] := by
    decide +kernel
  obtain ⟨final, reached, empty⟩ := Option.map_eq_some_iff.mp drained
  obtain ⟨known, hits⟩ := row_is_learned crc16Units 3 rowFlow .initial final rowActions (by decide +kernel) undisturbed
    (by decide +kernel) reached
  exact ⟨final, reached, known, fun out sent => (hits empty 1 plainPacket out flow sent).1⟩

end Tao.Driver
