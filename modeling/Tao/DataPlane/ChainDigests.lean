import Tao.DataPlane.DigestFlow
import Tao.Foundation.Interleaving

/-! # A run of the full chain

A switch takes one packet after the other, under tables and random numbers that change from
packet to packet.  What it keeps are its registers; the digests it raises carry the count of
one of them. -/

namespace Tao.DataPlane.FullChain

open Tao.Foundation

/-- A packet, and what it meets in the switch. -/
structure Visit where
  env : Surroundings
  pkt : Bits

/-- One packet through the switch.  A packet that the parser drops leaves nothing behind. -/
def visit (regs : Registers) (v : Visit) : Registers × Option FlowkeyDigest :=
  match shcIngressPipeline v.env regs v.pkt with
  | none => (regs, none)
  | some out => (out.left.regs, out.digest)

/-! ## The ways of a packet -/

inductive Way where
  /-- Dropped by the parser, or not IPv4. -/
  | untouched
  | routed (action : RouteAction)
  /-- Past `route_tbl` and the sketch. -/
  | passed
  /-- Past `route_tbl`, into this bucket with this fingerprint. -/
  | sampled (bucket : BitVec 17) (fingerprint : BitVec 16)
  deriving DecidableEq

def Visit.way (v : Visit) : Way :=
  match ShcIngressParser v.pkt with
  | (_, .reject) => .untouched
  | (parsed, .accept) =>
    match parsed.hdr.ipv4 with
    | none => .untouched
    | some outer =>
      match routeEntry v.env parsed.hdr with
      | some action => .routed action
      | none =>
        if Sampled v.env then
          .sampled (v.env.hashes.hash1 outer.srcAddr outer.dstAddr) (v.env.hashes.hash2 outer.srcAddr outer.dstAddr)
        else .passed

def Way.registers (regs : Registers) : Way → Registers
  | .untouched => regs
  | .routed _ | .passed => { regs with pktNum0 := regs.pktNum0 + 1 }
  | .sampled bucket fingerprint =>
    { pktNum0 := regs.pktNum0 + 1
      pktNum := regs.pktNum + 1
      hash1_1 := Function.update regs.hash1_1 bucket fingerprint
      hash1_1_n := Function.update regs.hash1_1_n bucket 1 }

def Way.count (regs : Registers) : Way → Option (BitVec 32)
  | .untouched | .passed | .routed .noAction => none
  | .routed (.routeForNexthop _) => some 0
  | .sampled _ _ => some (regs.pktNum + 1)

/-! ## What is left behind on each way -/

structure CountFrame (s t : IngressState) : Prop where
  regs : t.regs = s.regs
  pktNC : t.md.pktNC = s.md.pktNC

theorem CountFrame.trans {s t u : IngressState} (first : CountFrame s t) (second : CountFrame t u) :
    CountFrame s u :=
  ⟨second.regs.trans first.regs, second.pktNC.trans first.pktNC⟩

theorem nhopTblApply_countFrame (env : Surroundings) (s : IngressState) : CountFrame s (nhopTblApply env s) := by
  unfold nhopTblApply
  split <;> exact ⟨rfl, rfl⟩

theorem neighTblApply_countFrame (env : Surroundings) (s : IngressState) : CountFrame s (neighTblApply env s) := by
  unfold neighTblApply
  split <;> exact ⟨rfl, rfl⟩

theorem portForMacTblApply_countFrame (env : Surroundings) (s : IngressState) :
    CountFrame s (portForMacTblApply env s) := by
  unfold portForMacTblApply
  split <;> exact ⟨rfl, rfl⟩

theorem forward_countFrame (env : Surroundings) (s : IngressState) : CountFrame s (forward env s) :=
  ((nhopTblApply_countFrame env s).trans (neighTblApply_countFrame env _)).trans (portForMacTblApply_countFrame env _)

/-- Behind the sketch neither is touched, whatever the selector holds. -/
theorem selectRoute_countFrame {env : Surroundings} {s : IngressState} {outer : Ipv4H}
    (valid : s.hdr.ipv4 = some outer) : CountFrame (sample env s) (selectRoute env s) := by
  have selector (nhopId : BitVec 32) :
      CountFrame (sample env s) (routeSeleForNexthop env nhopId (sample env s)) := ⟨rfl, rfl⟩
  have miss : CountFrame (sample env s) (routeSeleForMiss (sample env s)) := ⟨rfl, rfl⟩
  rw [selectRoute_eq valid]
  split
  · exact (selector _).trans (forward_countFrame env _)
  · exact miss.trans (forward_countFrame env _)
  · exact miss

theorem sample_countFrame (env : Surroundings) (s : IngressState) : CountFrame (Sketch.apply env s) (sample env s) := by
  simp only [sample]
  split <;> exact ⟨rfl, rfl⟩

theorem pktUpdate1_fst (fingerprint registerData : BitVec 16) : (pktUpdate1 fingerprint registerData).1 = fingerprint := by
  unfold pktUpdate1
  split
  · next same => exact same.symm
  · rfl

/-- The sketch of a packet that it draws: whatever the bucket held, it now holds this packet, once. -/
theorem sketch_regs {env : Surroundings} {s : IngressState} (drawn : Sampled env) :
    (Sketch.apply env s).regs =
      { s.regs with
        pktNum := s.regs.pktNum + 1
        hash1_1 := Function.update s.regs.hash1_1 (env.hashes.hash1 s.md.srcAddr s.md.dstAddr)
          (env.hashes.hash2 s.md.srcAddr s.md.dstAddr)
        hash1_1_n := Function.update s.regs.hash1_1_n (env.hashes.hash1 s.md.srcAddr s.md.dstAddr) 1 } := by
  rw [sketch_eq, if_pos drawn]
  simp [record, pktNumCount, IngressState.setEflag, updatePktNum1, updatePkt1, getHashValues, condRndM, condRnd1,
    pktNum1_eq, pktUpdate1_fst]

theorem sketch_pktNC {env : Surroundings} {s : IngressState} (drawn : Sampled env) :
    (Sketch.apply env s).md.pktNC = s.regs.pktNum + 1 := by
  rw [sketch_eq, if_pos drawn]
  rfl

theorem sketch_undrawn {env : Surroundings} {s : IngressState} (undrawn : ¬Sampled env) :
    CountFrame s (Sketch.apply env s) := by
  rw [sketch_eq, if_neg undrawn]
  exact ⟨rfl, rfl⟩

section Ingress

variable {env : Surroundings} {regs : Registers} {pkt : Bits} {parsed : ParserState} {outer : Ipv4H}

theorem way_of_parsed (accepted : ShcIngressParser pkt = (parsed, .accept)) (isIpv4 : parsed.hdr.ipv4 = some outer) :
    Visit.way ⟨env, pkt⟩ = match routeEntry env parsed.hdr with
      | some action => .routed action
      | none =>
        if Sampled env then
          .sampled (env.hashes.hash1 outer.srcAddr outer.dstAddr) (env.hashes.hash2 outer.srcAddr outer.dstAddr)
        else .passed := by
  simp only [Visit.way, accepted, isIpv4]

/-- What ingress makes of the registers and the count, on each way. -/
theorem ingress_way (accepted : ShcIngressParser pkt = (parsed, .accept)) (isIpv4 : parsed.hdr.ipv4 = some outer) :
    (ShcIngress.apply env (parsed.enter regs)).regs = (Visit.way ⟨env, pkt⟩).registers regs ∧
      ∀ count, (Visit.way ⟨env, pkt⟩).count regs = some count →
        (ShcIngress.apply env (parsed.enter regs)).md.pktNC = count := by
  have entering : Entering outer (parsed.enter regs) := entering_of_parsed accepted isIpv4
  have recorded := entering.recorded
  rw [way_of_parsed accepted isIpv4, ingress_eq entering]
  have hdr : (parsed.enter regs).hdr = parsed.hdr := rfl
  generalize start : mapped env (parsed.enter regs) = s
  have valid : s.hdr.ipv4 = some outer := by rw [← start]; exact isIpv4
  have regsEq : s.regs = { regs with pktNum0 := regs.pktNum0 + 1 } := by rw [← start]; rfl
  have fresh : s.md.pktNC = 0 := by rw [← start]; exact congrArg (·.pktNC) recorded
  have flow : s.md.srcAddr = outer.srcAddr ∧ s.md.dstAddr = outer.dstAddr := by
    rw [← start]
    exact ⟨congrArg (·.srcAddr) recorded, congrArg (·.dstAddr) recorded⟩
  rw [hdr]
  cases routeEntry env parsed.hdr with
  | some action =>
    cases action with
    | routeForNexthop nhopId =>
      have found : CountFrame s (routeForNexthop env nhopId s) := ⟨rfl, rfl⟩
      have through := found.trans (forward_countFrame env _)
      exact ⟨through.regs.trans regsEq, fun _ same => by cases same; exact through.pktNC.trans fresh⟩
    | noAction => exact ⟨(forward_countFrame env s).regs.trans regsEq, by simp [Way.count]⟩
  | none =>
    have through := (sample_countFrame env s).trans (selectRoute_countFrame valid)
    by_cases drawn : Sampled env
    · simp only [drawn, if_true, through.regs, through.pktNC, sketch_regs drawn, sketch_pktNC drawn, regsEq, flow]
      exact ⟨rfl, fun _ same => Option.some.inj same⟩
    · simp only [drawn, if_false, through.regs, (sketch_undrawn drawn).regs, regsEq]
      exact ⟨rfl, by simp [Way.count]⟩

theorem digest_raised_iff (accepted : ShcIngressParser pkt = (parsed, .accept)) (isIpv4 : parsed.hdr.ipv4 = some outer) :
    Reported env parsed.hdr ↔ ((Visit.way ⟨env, pkt⟩).count regs).isSome := by
  rw [way_of_parsed accepted isIpv4, Reported]
  cases routeEntry env parsed.hdr with
  | some action => cases action <;> simp [Way.count]
  | none => by_cases drawn : Sampled env <;> simp [drawn, Way.count]

theorem flowkeyDigest_count (env : Surroundings) (s : IngressState) :
    (flowkeyDigest env s).map (·.count) =
      if s.intrinsic.digestType = FK_LEARN_DIGEST then some s.md.pktNC else none := by
  unfold flowkeyDigest
  split <;> rfl

theorem visit_way (regs : Registers) (v : Visit) :
    (visit regs v).1 = v.way.registers regs ∧ (visit regs v).2.map (·.count) = v.way.count regs := by
  obtain ⟨env, pkt⟩ := v
  unfold visit
  cases accepted : ShcIngressParser pkt with
  | mk parsed verdict =>
    cases verdict with
    | reject => simp [shcIngressPipeline, Visit.way, accepted, Way.registers, Way.count]
    | accept =>
      rw [pipeline_eq accepted]
      cases isIpv4 : parsed.hdr.ipv4 with
      | none =>
        have through : ShcIngress.apply env (parsed.enter regs) = parsed.enter regs := by
          simp [ShcIngress.apply, ParserState.enter, isIpv4]
        simp only [through]
        simp [Visit.way, accepted, isIpv4, Way.registers, Way.count, ParserState.enter, flowkeyDigest, FK_LEARN_DIGEST]
      | some outer =>
        obtain ⟨registers, counted⟩ := @ingress_way env regs pkt parsed outer accepted isIpv4
        have raised : (ShcIngress.apply env (parsed.enter regs)).intrinsic.digestType = FK_LEARN_DIGEST ↔
            ((Visit.way ⟨env, pkt⟩).count regs).isSome :=
          (ingress_digestType (entering_of_parsed accepted isIpv4)).trans (digest_raised_iff accepted isIpv4)
        refine ⟨registers, ?_⟩
        dsimp only
        rw [flowkeyDigest_count]
        cases carried : (Visit.way ⟨env, pkt⟩).count regs with
        | none => rw [carried] at raised; exact if_neg fun digest => Bool.false_ne_true (raised.mp digest)
        | some count => rw [carried] at raised; rw [if_pos (raised.mpr rfl), counted count carried]

end Ingress

/-! ## The run -/

def Visit.isSampled (v : Visit) : Bool :=
  match v.way with
  | .sampled _ _ => true
  | .untouched | .routed _ | .passed => false

/-- The packet is an IPv4 packet that the parser accepts. -/
def Visit.isCounted (v : Visit) : Bool := v.way ≠ .untouched

def Visit.written (bucket : BitVec 17) (v : Visit) : Option (BitVec 16) :=
  match v.way with
  | .sampled own fingerprint => if bucket = own then some fingerprint else none
  | .untouched | .routed _ | .passed => none

theorem pktNum_after (regs : Registers) (v : Visit) :
    (visit regs v).1.pktNum = if v.isSampled then regs.pktNum + 1 else regs.pktNum := by
  rw [(visit_way regs v).1, Visit.isSampled]
  cases v.way <;> rfl

theorem count_of_sampled {regs : Registers} {v : Visit} (sampled : v.isSampled = true) :
    (visit regs v).2.map (·.count) = some (regs.pktNum + 1) := by
  rw [(visit_way regs v).2]
  cases way : v.way with
  | sampled bucket fingerprint => rfl
  | untouched | routed action | passed => simp [Visit.isSampled, way] at sampled

theorem count_of_unsampled {regs : Registers} {v : Visit} {digest : FlowkeyDigest} (unsampled : v.isSampled = false)
    (raised : (visit regs v).2 = some digest) : digest.count = 0 := by
  have counted := (visit_way regs v).2
  rw [raised, Option.map_some] at counted
  cases way : v.way with
  | sampled bucket fingerprint => simp [Visit.isSampled, way] at unsampled
  | untouched | passed => simp [way, Way.count] at counted
  | routed action => cases action <;> simp_all [Way.count]

/-- Every packet that the sketch draws raises a digest, and along a run these digests are numbered one
    after the other; the other digests, those of packets with a route, carry the number 0. -/
theorem sampled_digests_numbered (regs : Registers) (visits : List Visit) :
    ((receipts visit regs visits).filter fun receipt => receipt.1.isSampled).map
        (fun receipt => receipt.2.map (·.count)) =
      (List.range (visits.filter Visit.isSampled).length).map
        (fun k => some (regs.pktNum + BitVec.ofNat 32 (k + 1))) ∧
    ∀ receipt ∈ receipts visit regs visits, receipt.1.isSampled = false →
      ∀ digest, receipt.2 = some digest → digest.count = 0 := by
  induction visits generalizing regs with
  | nil => simp [receipts]
  | cons v visits inductionHypothesis =>
    obtain ⟨numbered, others⟩ := inductionHypothesis (visit regs v).1
    rw [pktNum_after] at numbered
    rw [receipts]
    refine ⟨?_, ?_⟩
    · cases sampled : v.isSampled with
      | false =>
        rw [sampled, if_neg Bool.false_ne_true] at numbered
        simp only [List.filter_cons, sampled, Bool.false_eq_true, if_false, numbered]
      | true =>
        rw [sampled, if_pos rfl] at numbered
        simp only [List.filter_cons, sampled, if_true, List.map_cons, numbered, count_of_sampled sampled,
          List.length_cons, List.range_succ_eq_map, List.map_map]
        -- the later packets count on from this one
        refine congrArg _ (List.map_congr_left fun k _ => ?_)
        simp [BitVec.ofNat_add, BitVec.add_assoc, BitVec.add_comm]
    · rintro receipt member unsampled digest raised
      rcases List.mem_cons.mp member with rfl | later
      · exact count_of_unsampled unsampled raised
      · exact others receipt later unsampled digest raised

theorem pktNum0_after (regs : Registers) (v : Visit) :
    (visit regs v).1.pktNum0 = if v.isCounted then regs.pktNum0 + 1 else regs.pktNum0 := by
  rw [(visit_way regs v).1, Visit.isCounted]
  cases v.way <;> simp [Way.registers]

theorem hash1_1_after (bucket : BitVec 17) (regs : Registers) (v : Visit) :
    (visit regs v).1.hash1_1 bucket = (v.written bucket).getD (regs.hash1_1 bucket) := by
  rw [(visit_way regs v).1, Visit.written]
  cases v.way with
  | sampled own fingerprint => by_cases here : bucket = own <;> simp [Way.registers, here]
  | untouched | routed action | passed => rfl

theorem hash1_1_n_after (bucket : BitVec 17) (regs : Registers) (v : Visit) :
    (visit regs v).1.hash1_1_n bucket = ((v.written bucket).map fun _ => 1).getD (regs.hash1_1_n bucket) := by
  rw [(visit_way regs v).1, Visit.written]
  cases v.way with
  | sampled own fingerprint => by_cases here : bucket = own <;> simp [Way.registers, here]
  | untouched | routed action | passed => rfl

/-- What the registers hold after a run: how many IPv4 packets came and how many were drawn, and in each
    bucket the fingerprint of the last packet drawn into it.  The count beside it is 1 however often that
    packet's flow came. -/
theorem registers_after (visits : List Visit) :
    let regs := after visit .initial visits
    regs.pktNum0 = BitVec.ofNat 32 (visits.filter Visit.isCounted).length ∧
    regs.pktNum = BitVec.ofNat 32 (visits.filter Visit.isSampled).length ∧
    ∀ bucket, regs.hash1_1 bucket = ((visits.filterMap (Visit.written bucket)).getLast?).getD 0 ∧
      regs.hash1_1_n bucket = 1 := by
  refine ⟨?_, ?_, fun bucket => ⟨?_, ?_⟩⟩
  · simpa [Registers.initial] using after_counter pktNum0_after Registers.initial visits
  · simpa [Registers.initial] using after_counter pktNum_after Registers.initial visits
  · exact after_lastWrite (fun regs : Registers => regs.hash1_1 bucket) (hash1_1_after bucket) _ _
  · rw [after_lastWrite (fun regs : Registers => regs.hash1_1_n bucket) (hash1_1_n_after bucket)]
    -- nothing but 1 is ever written
    cases last : (visits.filterMap fun v => (v.written bucket).map fun _ => (1 : BitVec 8)).getLast? with
    | none => rfl
    | some count =>
      obtain ⟨v, _, wrote⟩ := List.mem_filterMap.mp (List.mem_of_getLast? last)
      obtain ⟨_, _, rfl⟩ := Option.map_eq_some_iff.mp wrote
      rfl

end Tao.DataPlane.FullChain
