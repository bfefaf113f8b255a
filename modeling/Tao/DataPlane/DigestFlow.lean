import Tao.DataPlane.FullChain

/-! # The flow that a digest names

The parser keeps the addresses a packet arrived with in the metadata, but the deparser packs
those of the headers, and `nhop_tbl` has written a tunnel into them by then. -/

namespace Tao.DataPlane.FullChain

open Tao.Foundation

/-! ## The parser records the flow -/

def arrivalMetadata : Option Ipv4H → ShcIngressMetadata
  | some outer => { srcAddr := outer.srcAddr, dstAddr := outer.dstAddr }
  | none => {}

/-- Parsing from here on leaves the outer header and the metadata alone. -/
def KeepsArrival (parse : ParserState → ParserResult) : Prop :=
  ∀ s, (parse s).1.hdr.ipv4 = s.hdr.ipv4 ∧ (parse s).1.md = s.md

theorem keepsArrival_extract {H : Type} {width : Nat} {decode : Bits → H}
    {next : H → ParserState → ParserResult} (kept : ∀ h, KeepsArrival (next h)) :
    KeepsArrival (extract width decode next) := by
  intro s
  unfold extract
  split
  · exact kept _ _
  · exact ⟨rfl, rfl⟩

theorem keepsArrival_parseInnerIpv4 : KeepsArrival parseInnerIpv4 :=
  keepsArrival_extract fun _ _ => ⟨rfl, rfl⟩

theorem keepsArrival_parseInnerEthernet : KeepsArrival parseInnerEthernet := by
  refine keepsArrival_extract fun innerEthernet s => ?_
  dsimp only
  split
  · exact keepsArrival_parseInnerIpv4 _
  · exact ⟨rfl, rfl⟩

theorem keepsArrival_parseVxlan : KeepsArrival parseVxlan :=
  keepsArrival_extract fun _ _ => keepsArrival_parseInnerEthernet _

theorem keepsArrival_parseTcp : KeepsArrival parseTcp := keepsArrival_extract fun _ _ => ⟨rfl, rfl⟩

theorem keepsArrival_parseUdp : KeepsArrival parseUdp := by
  refine keepsArrival_extract fun udp s => ?_
  dsimp only
  split
  · exact keepsArrival_parseVxlan _
  · exact ⟨rfl, rfl⟩

theorem parser_records (pkt : Bits) :
    (ShcIngressParser pkt).1.md = arrivalMetadata (ShcIngressParser pkt).1.hdr.ipv4 := by
  unfold ShcIngressParser parseEthernet extract
  split
  case isFalse => rfl
  dsimp only
  split
  case isFalse => rfl
  unfold parseIpv4 extract
  split
  case isFalse => rfl
  dsimp only
  -- the header has been read, and the states after this one keep it
  split
  · obtain ⟨ipv4, md⟩ := keepsArrival_parseUdp _
    rw [ipv4, md]
    rfl
  split
  · obtain ⟨ipv4, md⟩ := keepsArrival_parseTcp _
    rw [ipv4, md]
    rfl
  · rfl

/-! ## The tables before the rewrite -/

/-- The VRF of a packet: 0 where `tunnel_map_vrf_tbl` sets none. -/
def vrfOf (env : Surroundings) (hdr : ShcHeader) : BitVec 16 :=
  match env.tables.tunnelMapVrfTbl.lookup ⟨0, (hdr.vxlan.getD env.invalid.vxlan).vni⟩ with
  | some (.tunnelMapVrf vrf) => vrf
  | some .noAction | none => 0

def routeEntry (env : Surroundings) (hdr : ShcHeader) : Option RouteAction :=
  let inner := hdr.innerIpv4.getD env.invalid.innerIpv4
  env.tables.routeTbl.lookup ⟨vrfOf env hdr, inner.srcAddr, inner.dstAddr⟩

def routeSeleEntry (env : Surroundings) (outer : Ipv4H) : Option RouteSeleAction :=
  env.tables.routeSeleTbl.lookup ⟨outer.srcAddr, outer.dstAddr⟩

theorem tunnelMapVrfTblApply_eq {env : Surroundings} {s : IngressState} (untyped : s.md.type = 0)
    (unmapped : s.md.vrf = 0) :
    tunnelMapVrfTblApply env s = { s with md := { s.md with vrf := vrfOf env s.hdr } } := by
  unfold tunnelMapVrfTblApply vrfOf
  rw [untyped]
  cases env.tables.tunnelMapVrfTbl.lookup ⟨0, (s.hdr.vxlan.getD env.invalid.vxlan).vni⟩ with
  | none => simp only [← unmapped]
  | some action =>
    cases action with
    | tunnelMapVrf vrf => rfl
    | noAction => simp only [← unmapped]

/-! ## The sketch samples -/

/-- A packet is reported by the sketch when its random number is below the constant. -/
def Sampled (env : Surroundings) : Prop := env.random < 3277

instance (env : Surroundings) : Decidable (Sampled env) := inferInstanceAs (Decidable (_ < _))

theorem satSub_pos {w : Nat} {a b : BitVec w} : 0 < satSub a b ↔ b < a := by
  unfold satSub
  split
  · next enough => rw [BitVec.lt_def, BitVec.toNat_sub_of_le enough, BitVec.lt_def]; exact Nat.sub_pos_iff_lt
  · next short => simp only [BitVec.lt_irrefl, false_iff]; exact fun less => short (BitVec.le_of_lt less)

theorem pktNum1_eq (hashPkt1Tmp : BitVec 1) (registerData : BitVec 8) : pktNum1 hashPkt1Tmp registerData = 1 := by
  unfold pktNum1
  split
  · next counted => bv_omega
  · rfl

/-- What the sketch does with a packet that it samples. -/
def record (env : Surroundings) (s : IngressState) : IngressState :=
  (pktNumCount (updatePktNum1 (updatePkt1 (getHashValues env s)))).setEflag 1

theorem sketch_eq (env : Surroundings) (s : IngressState) :
    Sketch.apply env s =
      if Sampled env then record env (condRndM (condRnd1 env s)) else condRndM (condRnd1 env s) := by
  have drawn : (condRnd1 env s).md.condRndFlag1 = 1 := rfl
  have condition : 0 < (condRndM (condRnd1 env s)).md.hashCond1 ↔ Sampled env := satSub_pos
  have updated (s : IngressState) : (updatePkt1 s).md.hashPkt1Done = 1 := rfl
  have counted (s : IngressState) : (pktNumCount (updatePktNum1 s)).md.hashPkt1Num = 1 := pktNum1_eq _ _
  simp only [Sketch.apply, drawn, condition, updated, counted, if_true]
  rfl

def IngressState.flow (s : IngressState) : FlowKey := ⟨s.md.srcAddr, s.md.dstAddr⟩

section Flow

variable (env : Surroundings) (nhopId : BitVec 32) (s : IngressState)

@[simp] theorem routeForNexthop_flow : (routeForNexthop env nhopId s).flow = s.flow := rfl

@[simp] theorem routeSeleForNexthop_flow : (routeSeleForNexthop env nhopId s).flow = s.flow := rfl

@[simp] theorem routeSeleForMiss_flow : (routeSeleForMiss s).flow = s.flow := rfl

end Flow

structure SketchFrame (s t : IngressState) : Prop where
  hdr : t.hdr = s.hdr
  nhopId : t.md.nhopId = s.md.nhopId
  flow : t.flow = s.flow

theorem SketchFrame.trans {s t u : IngressState} (first : SketchFrame s t) (second : SketchFrame t u) :
    SketchFrame s u :=
  ⟨second.hdr.trans first.hdr, second.nhopId.trans first.nhopId, second.flow.trans first.flow⟩

theorem record_frame (env : Surroundings) (s : IngressState) : SketchFrame s (record env s) := by
  have hashed : SketchFrame s (getHashValues env s) := ⟨rfl, rfl, rfl⟩
  have fingerprinted (s : IngressState) : SketchFrame s (updatePkt1 s) := ⟨rfl, rfl, rfl⟩
  have counted (s : IngressState) : SketchFrame s (updatePktNum1 s) := ⟨rfl, rfl, rfl⟩
  have numbered (s : IngressState) : SketchFrame s (pktNumCount s) := ⟨rfl, rfl, rfl⟩
  have flagged (s : IngressState) : SketchFrame s (s.setEflag 1) := ⟨rfl, rfl, rfl⟩
  exact hashed.trans ((fingerprinted _).trans ((counted _).trans ((numbered _).trans (flagged _))))

theorem sketch_frame (env : Surroundings) (s : IngressState) : SketchFrame s (Sketch.apply env s) := by
  have drawn : SketchFrame s (condRndM (condRnd1 env s)) := ⟨rfl, rfl, rfl⟩
  rw [sketch_eq]
  split
  · exact drawn.trans (record_frame env _)
  · exact drawn

theorem sketch_eflag {env : Surroundings} {s : IngressState} (unsampled : s.md.eflag = 0) :
    (Sketch.apply env s).md.eflag = if Sampled env then 1 else 0 := by
  rw [sketch_eq]
  split
  · rfl
  · exact unsampled

theorem sample_frame (env : Surroundings) (s : IngressState) : SketchFrame s (sample env s) := by
  have typed (s : IngressState) (digestType : BitVec 3) : SketchFrame s (s.setDigestType digestType) :=
    ⟨rfl, rfl, rfl⟩
  simp only [sample]
  split
  · exact (sketch_frame env s).trans (typed _ _)
  · exact (sketch_frame env s).trans (typed _ _)

theorem sample_digestType {env : Surroundings} {s : IngressState} (unsampled : s.md.eflag = 0) :
    (sample env s).intrinsic.digestType = FK_LEARN_DIGEST ↔ Sampled env := by
  have flag : (Sketch.apply env s).md.eflag = if Sampled env then 1 else 0 := sketch_eflag unsampled
  simp only [sample]
  by_cases sampled : Sampled env
  · rw [if_pos sampled] at flag
    rw [flag, if_pos rfl]
    exact iff_of_true rfl sampled
  · rw [if_neg sampled] at flag
    rw [flag, if_neg (by decide), IngressState.setDigestType_digestType]
    exact iff_of_false (by decide) sampled

/-! ## The rewrite -/

/-- The outer header after `nhop_tbl` has found this entry. -/
def tunnelled (entry : Option NhopAction) (outer : Ipv4H) : Ipv4H :=
  match entry with
  | some (.nhop _ localAddr remoteAddr _) => setAddresses localAddr remoteAddr outer
  | some .noAction | none => outer

theorem nhopTblApply_ipv4 {env : Surroundings} {s : IngressState} {outer : Ipv4H}
    (valid : s.hdr.ipv4 = some outer) :
    (nhopTblApply env s).hdr.ipv4 = some (tunnelled (env.tables.nhopTbl.lookup s.md.nhopId) outer) := by
  unfold nhopTblApply
  split
  · next found => simp [nhop, valid, found, tunnelled]
  · next found => rw [found, valid, tunnelled]
  · next found => rw [found, valid, tunnelled]

theorem nhopTblApply_intrinsic (env : Surroundings) (s : IngressState) :
    (nhopTblApply env s).intrinsic = s.intrinsic := by
  unfold nhopTblApply
  split <;> rfl

theorem nhopTblApply_flow (env : Surroundings) (s : IngressState) : (nhopTblApply env s).flow = s.flow := by
  unfold nhopTblApply
  split <;> rfl

structure MacFrame (s t : IngressState) : Prop where
  ipv4 : t.hdr.ipv4 = s.hdr.ipv4
  md : t.md = s.md
  intrinsic : t.intrinsic = s.intrinsic

theorem neighTblApply_frame (env : Surroundings) (s : IngressState) : MacFrame s (neighTblApply env s) := by
  unfold neighTblApply
  split <;> exact ⟨rfl, rfl, rfl⟩

theorem portForMacTblApply_frame (env : Surroundings) (s : IngressState) :
    MacFrame s (portForMacTblApply env s) := by
  unfold portForMacTblApply
  split <;> exact ⟨rfl, rfl, rfl⟩

theorem forward_frame (env : Surroundings) (s : IngressState) : MacFrame (nhopTblApply env s) (forward env s) := by
  have outer := portForMacTblApply_frame env (neighTblApply env (nhopTblApply env s))
  have inner := neighTblApply_frame env (nhopTblApply env s)
  exact ⟨outer.ipv4.trans inner.ipv4, outer.md.trans inner.md, outer.intrinsic.trans inner.intrinsic⟩

theorem forward_ipv4 {env : Surroundings} {s : IngressState} {outer : Ipv4H} (valid : s.hdr.ipv4 = some outer) :
    (forward env s).hdr.ipv4 = some (tunnelled (env.tables.nhopTbl.lookup s.md.nhopId) outer) :=
  (forward_frame env s).ipv4.trans (nhopTblApply_ipv4 valid)

theorem forward_intrinsic (env : Surroundings) (s : IngressState) : (forward env s).intrinsic = s.intrinsic :=
  (forward_frame env s).intrinsic.trans (nhopTblApply_intrinsic env s)

theorem forward_flow (env : Surroundings) (s : IngressState) : (forward env s).flow = s.flow := by
  rw [← nhopTblApply_flow env s, IngressState.flow, (forward_frame env s).md, ← IngressState.flow]

/-! ## Past the selector -/

/-- The outer header with which a packet that misses `route_tbl` leaves. -/
def selected (env : Surroundings) (outer : Ipv4H) : Ipv4H :=
  match routeSeleEntry env outer with
  | some (.routeSeleForNexthop nhopId) => tunnelled (env.tables.nhopTbl.lookup nhopId) outer
  | some .routeSeleForMiss => tunnelled (env.tables.nhopTbl.lookup 0) outer
  | none => outer

section Selector

variable {env : Surroundings} {s : IngressState} {outer : Ipv4H}

theorem selectRoute_eq (valid : s.hdr.ipv4 = some outer) :
    selectRoute env s = match routeSeleEntry env outer with
      | some (.routeSeleForNexthop nhopId) => forward env (routeSeleForNexthop env nhopId (sample env s))
      | some .routeSeleForMiss => forward env (routeSeleForMiss (sample env s))
      | none => routeSeleForMiss (sample env s) := by
  unfold selectRoute routeSeleTblApply routeSeleEntry
  rw [(sample_frame env s).hdr, valid]
  simp only [Option.getD_some]
  cases env.tables.routeSeleTbl.lookup ⟨outer.srcAddr, outer.dstAddr⟩ with
  | none => rfl
  | some action => cases action <;> rfl

theorem selectRoute_ipv4 (valid : s.hdr.ipv4 = some outer) (unrouted : s.md.nhopId = 0) :
    (selectRoute env s).hdr.ipv4 = some (selected env outer) := by
  have validSampled : (sample env s).hdr.ipv4 = some outer := by rw [(sample_frame env s).hdr, valid]
  rw [selectRoute_eq valid]
  unfold selected
  split
  · exact forward_ipv4 validSampled
  · have nexthop : (routeSeleForMiss (sample env s)).md.nhopId = 0 := by
      rw [routeSeleForMiss_nhopId, (sample_frame env s).nhopId, unrouted]
    rw [← nexthop]
    exact forward_ipv4 validSampled
  · exact validSampled

theorem selectRoute_digestType (valid : s.hdr.ipv4 = some outer) (unsampled : s.md.eflag = 0) :
    (selectRoute env s).intrinsic.digestType = FK_LEARN_DIGEST ↔ Sampled env := by
  rw [← sample_digestType unsampled, selectRoute_eq valid]
  split
  · rw [forward_intrinsic, routeSeleForNexthop_digestType]
  · rw [forward_intrinsic, routeSeleForMiss_digestType]
  · rw [routeSeleForMiss_digestType]

theorem selectRoute_flow (valid : s.hdr.ipv4 = some outer) : (selectRoute env s).flow = s.flow := by
  rw [← (sample_frame env s).flow, selectRoute_eq valid]
  split
  · rw [forward_flow, routeSeleForNexthop_flow]
  · rw [forward_flow, routeSeleForMiss_flow]
  · rw [routeSeleForMiss_flow]

end Selector

/-! ## Through ingress -/

/-- A state in which ingress starts: an IPv4 packet with the metadata of the parser. -/
structure Entering (outer : Ipv4H) (s : IngressState) : Prop where
  valid : s.hdr.ipv4 = some outer
  recorded : s.md = arrivalMetadata (some outer)
  unreported : s.intrinsic = {}

def leaving (env : Surroundings) (hdr : ShcHeader) (outer : Ipv4H) : Ipv4H :=
  match routeEntry env hdr with
  | some (.routeForNexthop nhopId) => tunnelled (env.tables.nhopTbl.lookup nhopId) outer
  | some .noAction => tunnelled (env.tables.nhopTbl.lookup 0) outer
  | none => selected env outer

/-- Whether a packet leaves with `FK_LEARN_DIGEST`. -/
def Reported (env : Surroundings) (hdr : ShcHeader) : Prop :=
  match routeEntry env hdr with
  | some (.routeForNexthop _) => True
  | some .noAction => False
  | none => Sampled env

section Ingress

variable {env : Surroundings} {s : IngressState} {outer : Ipv4H}

def mapped (env : Surroundings) (s : IngressState) : IngressState :=
  { pktNumCount0 s with md := { s.md with vrf := vrfOf env s.hdr } }

theorem ingress_eq (entering : Entering outer s) :
    ShcIngress.apply env s = match routeEntry env s.hdr with
      | some (.routeForNexthop nhopId) => forward env (routeForNexthop env nhopId (mapped env s))
      | some .noAction => forward env (mapped env s)
      | none => selectRoute env (mapped env s) := by
  have fresh := entering.recorded
  have vrf : tunnelMapVrfTblApply env (pktNumCount0 s) = mapped env s :=
    tunnelMapVrfTblApply_eq (s := pktNumCount0 s) (by rw [pktNumCount0, fresh]; rfl)
      (by rw [pktNumCount0, fresh]; rfl)
  unfold ShcIngress.apply
  rw [entering.valid, vrf]
  simp only [Option.isSome_some, if_true, routeTblApply]
  have key : (mapped env s).md.vrf = vrfOf env s.hdr := rfl
  have hdr : (mapped env s).hdr = s.hdr := rfl
  rw [key, hdr, ← routeEntry]
  cases routeEntry env s.hdr with
  | none => rfl
  | some action => cases action <;> rfl

theorem ingress_ipv4 (entering : Entering outer s) :
    (ShcIngress.apply env s).hdr.ipv4 = some (leaving env s.hdr outer) := by
  have valid : (mapped env s).hdr.ipv4 = some outer := entering.valid
  have unrouted : (mapped env s).md.nhopId = 0 := congrArg (·.nhopId) entering.recorded
  rw [ingress_eq entering]
  unfold leaving
  split
  · exact forward_ipv4 valid
  · rw [← unrouted]
    exact forward_ipv4 valid
  · exact selectRoute_ipv4 valid unrouted

theorem ingress_digestType (entering : Entering outer s) :
    (ShcIngress.apply env s).intrinsic.digestType = FK_LEARN_DIGEST ↔ Reported env s.hdr := by
  have quiet : (mapped env s).intrinsic.digestType = 0 := congrArg (·.digestType) entering.unreported
  have unsampled : (mapped env s).md.eflag = 0 := congrArg (·.eflag) entering.recorded
  rw [ingress_eq entering]
  unfold Reported
  split
  · rw [forward_intrinsic]
    exact iff_of_true rfl trivial
  · rw [forward_intrinsic, quiet]
    exact iff_of_false (by decide) id
  · exact selectRoute_digestType (s := mapped env s) entering.valid unsampled

theorem ingress_flow (entering : Entering outer s) :
    (ShcIngress.apply env s).flow = ⟨outer.srcAddr, outer.dstAddr⟩ := by
  have arrived : (mapped env s).flow = ⟨outer.srcAddr, outer.dstAddr⟩ :=
    congrArg (fun md => (⟨md.srcAddr, md.dstAddr⟩ : FlowKey)) entering.recorded
  rw [ingress_eq entering, ← arrived]
  split
  · rw [forward_flow, routeForNexthop_flow]
  · rw [forward_flow]
  · exact selectRoute_flow (s := mapped env s) entering.valid

end Ingress

/-! ## The digest -/

/-- The next hop of a packet that is reported: a route gives it one and reports it at once, and
    the selector gives one to a packet that the sketch has sampled.  A selector entry that names
    the default action leaves the next hop 0. -/
def reportedNexthop (env : Surroundings) (hdr : ShcHeader) (outer : Ipv4H) : Option (BitVec 32) :=
  match routeEntry env hdr with
  | some (.routeForNexthop nhopId) => some nhopId
  | some .noAction => none
  | none =>
    if Sampled env then
      match routeSeleEntry env outer with
      | some (.routeSeleForNexthop nhopId) => some nhopId
      | some .routeSeleForMiss => some 0
      | none => none
    else none

/-- A tunnel between the two addresses that the packet has anyway, or no tunnel. -/
def KeepsFlow (entry : Option NhopAction) (outer : Ipv4H) : Prop :=
  ∀ vni localAddr remoteAddr neighId, entry = some (.nhop vni localAddr remoteAddr neighId) →
    localAddr = outer.srcAddr ∧ remoteAddr = outer.dstAddr

def SameFlow (h h' : Ipv4H) : Prop := h.srcAddr = h'.srcAddr ∧ h.dstAddr = h'.dstAddr

theorem sameFlow_tunnelled {entry : Option NhopAction} {outer : Ipv4H} :
    SameFlow (tunnelled entry outer) outer ↔ KeepsFlow entry outer := by
  unfold tunnelled
  split
  · next vni localAddr remoteAddr neighId =>
    constructor
    · intro same _ _ _ _ found
      cases found
      exact same
    · exact fun kept => kept vni localAddr remoteAddr neighId rfl
  · exact iff_of_true ⟨rfl, rfl⟩ (fun _ _ _ _ impossible => by cases impossible)
  · exact iff_of_true ⟨rfl, rfl⟩ (fun _ _ _ _ impossible => by cases impossible)

/-- A reported packet leaves with the addresses it came with exactly when its next hop keeps them. -/
theorem reported_sameFlow_iff (env : Surroundings) (hdr : ShcHeader) (outer : Ipv4H) :
    (Reported env hdr → SameFlow (leaving env hdr outer) outer) ↔
      ∀ nhopId, reportedNexthop env hdr outer = some nhopId →
        KeepsFlow (env.tables.nhopTbl.lookup nhopId) outer := by
  unfold Reported leaving reportedNexthop selected
  cases routeEntry env hdr with
  | some action =>
    cases action with
    | routeForNexthop nhopId => simp [sameFlow_tunnelled]
    | noAction => simp
  | none =>
    by_cases sampled : Sampled env
    · simp only [sampled, if_true, forall_const]
      cases routeSeleEntry env outer with
      | some action => cases action <;> simp [sameFlow_tunnelled]
      | none => exact iff_of_true ⟨rfl, rfl⟩ (fun _ impossible => by cases impossible)
    · simp [sampled]

theorem flowkeyDigest_of_raised {env : Surroundings} {s : IngressState} {outer : Ipv4H}
    (raised : s.intrinsic.digestType = FK_LEARN_DIGEST) (valid : s.hdr.ipv4 = some outer) :
    flowkeyDigest env s = some ⟨s.md.typeForDigest, outer.srcAddr, outer.dstAddr, s.md.pktNC⟩ := by
  rw [flowkeyDigest, if_pos raised, valid, Option.getD_some]

/-- A packet that leaves ingress to be reported is reported under these addresses. -/
def NamesArrival (env : Surroundings) (regs : Registers) (pkt : Bits) (outer : Ipv4H) : Prop :=
  ∀ out, shcIngressPipeline env regs pkt = some out → out.left.intrinsic.digestType = FK_LEARN_DIGEST →
    ∃ digest, out.digest = some digest ∧ digest.srcIpDigest = outer.srcAddr ∧ digest.dstIpDigest = outer.dstAddr

theorem pipeline_eq {env : Surroundings} {regs : Registers} {pkt : Bits} {parsed : ParserState}
    (accepted : ShcIngressParser pkt = (parsed, .accept)) :
    shcIngressPipeline env regs pkt =
      let left := ShcIngress.apply env (parsed.enter regs)
      some ⟨left, flowkeyDigest env left, left.hdr.updateChecksum.emit ++ parsed.payload⟩ := by
  unfold shcIngressPipeline
  rw [accepted]
  rfl

/-- A digest is only packed for a packet that leaves to be reported. -/
theorem names_of_packed {env : Surroundings} {regs : Registers} {pkt : Bits} {outer : Ipv4H}
    {digest : FlowkeyDigest} (names : NamesArrival env regs pkt outer)
    (packed : (shcIngressPipeline env regs pkt).bind (·.digest) = some digest) :
    digest.srcIpDigest = outer.srcAddr ∧ digest.dstIpDigest = outer.dstAddr := by
  obtain ⟨out, left, packed⟩ := Option.bind_eq_some_iff.mp packed
  have raised : out.left.intrinsic.digestType = FK_LEARN_DIGEST := by
    unfold shcIngressPipeline at left
    split at left
    · cases left
    · cases left
      by_contra quiet
      have unpacked : (none : Option FlowkeyDigest) = some digest := (if_neg quiet).symm.trans packed
      cases unpacked
  obtain ⟨digest', packed', names⟩ := names out left raised
  cases packed.symm.trans packed'
  exact names

theorem entering_of_parsed {regs : Registers} {pkt : Bits} {parsed : ParserState} {outer : Ipv4H}
    (accepted : ShcIngressParser pkt = (parsed, .accept)) (isIpv4 : parsed.hdr.ipv4 = some outer) :
    Entering outer (parsed.enter regs) := by
  have recorded := parser_records pkt
  rw [accepted, isIpv4] at recorded
  exact ⟨isIpv4, recorded, rfl⟩

/-- The deparser has the flow that arrived at hand, whatever the tables hold. -/
theorem metadata_names_arrival {env : Surroundings} {regs : Registers} {pkt : Bits} {parsed : ParserState}
    {outer : Ipv4H} (accepted : ShcIngressParser pkt = (parsed, .accept)) (isIpv4 : parsed.hdr.ipv4 = some outer) :
    (shcIngressPipeline env regs pkt).map (·.left.flow) = some ⟨outer.srcAddr, outer.dstAddr⟩ := by
  rw [pipeline_eq accepted]
  exact congrArg some (ingress_flow (entering_of_parsed accepted isIpv4))

/-- The digest of an IPv4 packet names the flow that arrived exactly when the packet, if it is
    reported, has no next hop whose tunnel ends in other addresses.  With other addresses it does not, although
    the metadata has the flow (`metadata_names_arrival`). -/
theorem namesArrival_iff (env : Surroundings) (regs : Registers) (pkt : Bits) (parsed : ParserState) (outer : Ipv4H)
    (accepted : ShcIngressParser pkt = (parsed, .accept)) (isIpv4 : parsed.hdr.ipv4 = some outer) :
    NamesArrival env regs pkt outer ↔
      ∀ nhopId, reportedNexthop env parsed.hdr outer = some nhopId →
        KeepsFlow (env.tables.nhopTbl.lookup nhopId) outer := by
  have entering : Entering outer (parsed.enter regs) := entering_of_parsed accepted isIpv4
  have ipv4 : (ShcIngress.apply env (parsed.enter regs)).hdr.ipv4 = some (leaving env parsed.hdr outer) :=
    ingress_ipv4 entering
  have digestType : (ShcIngress.apply env (parsed.enter regs)).intrinsic.digestType = FK_LEARN_DIGEST ↔
      Reported env parsed.hdr := ingress_digestType entering
  rw [← reported_sameFlow_iff]
  unfold NamesArrival
  rw [pipeline_eq accepted]
  constructor
  · intro names reported
    obtain ⟨digest, packed, names⟩ := names _ rfl (digestType.mpr reported)
    rw [flowkeyDigest_of_raised (digestType.mpr reported) ipv4] at packed
    cases packed
    exact names
  · rintro same _ ⟨⟩ raised
    exact ⟨_, flowkeyDigest_of_raised raised ipv4, same (digestType.mp raised)⟩

/-- From 10.0.0.1 to 10.0.0.2, and inside VXLAN from 192.168.0.1 to 192.168.0.2. -/
def vxlanPacket : Bits :=
  bits 0x000000000002#48 ++ bits 0x000000000001#48 ++ bits 0x0800#16 ++
    bits 0x45000046000000004011#80 ++ bits 0x66A5#16 ++ bits 0x0A0000010A000002#64 ++
    bits 0x123412B500320000#64 ++ bits 0x0800000000000500#64 ++
    bits 0x000000000004#48 ++ bits 0x000000000003#48 ++ bits 0x0800#16 ++
    bits 0x45000014000000004001#80 ++ bits 0xF995#16 ++ bits 0xC0A80001C0A80002#64

def sampledWith (tables : Tables) : Surroundings :=
  ⟨tables, ⟨fun _ _ => 0, fun _ _ => 0⟩, ⟨ipv4H [], vxlanH [], ipv4H []⟩, 1, 0, 0⟩

def tunnelTbl : Table (BitVec 32) NhopAction := Finmap.insert 7 (.nhop 100 0xAC100001 0xAC100002 3) ∅

theorem vxlanPacket_accepted :
    ShcIngressParser vxlanPacket = ((ShcIngressParser vxlanPacket).1, .accept) := by
  have accepted : (ShcIngressParser vxlanPacket).2 = .accept := by decide +kernel
  rw [← accepted]

theorem vxlanPacket_ipv4 :
    (ShcIngressParser vxlanPacket).1.hdr.ipv4 = some (ipv4H (vxlanPacket.drop 112)) := by decide +kernel

/-- With the tunnel alone, which no route leads to. -/
theorem unrouted_names_arrival :
    NamesArrival (sampledWith { nhopTbl := tunnelTbl }) .initial vxlanPacket (ipv4H (vxlanPacket.drop 112)) := by
  refine (namesArrival_iff _ _ vxlanPacket _ _ vxlanPacket_accepted vxlanPacket_ipv4).mpr ?_
  have unrouted : reportedNexthop (sampledWith { nhopTbl := tunnelTbl }) (ShcIngressParser vxlanPacket).1.hdr
      (ipv4H (vxlanPacket.drop 112)) = none := by decide +kernel
  intro nhopId found
  cases unrouted.symm.trans found

def routed : Surroundings :=
  sampledWith {
    nhopTbl := tunnelTbl
    routeTbl := Finmap.insert ⟨0, 0xC0A80001, 0xC0A80002⟩ (.routeForNexthop 7) ∅ }

def selectorRouted : Surroundings :=
  sampledWith {
    nhopTbl := tunnelTbl
    routeSeleTbl := Finmap.insert ⟨0x0A000001, 0x0A000002⟩ (.routeSeleForNexthop 7) ∅ }

/-- A hit in either table reports the tunnel. -/
theorem tunnel_reported :
    ShcIngressParser vxlanPacket = ((ShcIngressParser vxlanPacket).1, .accept) ∧
      (ShcIngressParser vxlanPacket).1.hdr.ipv4 = some (ipv4H (vxlanPacket.drop 112)) ∧
      ¬NamesArrival routed .initial vxlanPacket (ipv4H (vxlanPacket.drop 112)) ∧
      ¬NamesArrival selectorRouted .initial vxlanPacket (ipv4H (vxlanPacket.drop 112)) := by
  have arrived : (ipv4H (vxlanPacket.drop 112)).srcAddr = 0x0A000001 := by decide +kernel
  refine ⟨vxlanPacket_accepted, vxlanPacket_ipv4, fun names => ?_, fun names => ?_⟩
  · have packed : (shcIngressPipeline routed .initial vxlanPacket).bind (·.digest) =
        some ⟨1, 0xAC100001, 0xAC100002, 0⟩ := by decide +kernel
    have same := (names_of_packed names packed).1
    rw [arrived] at same
    cases same
  · have packed : (shcIngressPipeline selectorRouted .initial vxlanPacket).bind (·.digest) =
        some ⟨1, 0xAC100001, 0xAC100002, 1⟩ := by decide +kernel
    have same := (names_of_packed names packed).1
    rw [arrived] at same
    cases same

end Tao.DataPlane.FullChain
