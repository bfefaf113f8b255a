import Tao.DataPlane.Ingress
import Tao.Foundation.TrailingRun
import Mathlib.Tactic.Common

/-! # What a bucket remembers

The packets that ingress maps to a bucket are a list of fingerprints, its
*history*.  `bucket_run` states what the two registers of a bucket hold after any
sequence of arrivals: the last fingerprint and the length of the trailing run of
`0 :: history`, clipped at 255.  The leading `0` is what the initial contents
amount to: a fresh bucket is in the state of one that has seen a packet of
fingerprint 0. -/

namespace Tao.DataPlane

open Tao.Foundation

/-! ## Where a packet is counted -/

def flowOf (arrival : Arrival) : Option FlowKey :=
  arrival.hdr.ipv4.map fun outer => flowKey outer arrival.hdr

/-- The bucket of an IPv4 packet: `cuckoo_hash_index` cast to 16 bits. -/
def bucketOf (hashes : HashUnits) (arrival : Arrival) : Option HashBucket :=
  arrival.hdr.ipv4.map fun outer => (classify hashes outer arrival).1.cuckooHashIndex.setWidth 16

def fingerprintOf (hashes : HashUnits) (flow : FlowKey) : BitVec 16 :=
  hashes.hash2 flow.srcAddr flow.dstAddr

/-- The fingerprint that an arrival leaves in bucket `b`, if it is mapped there. -/
def mappedFingerprint (hashes : HashUnits) (b : HashBucket) (arrival : Arrival) : Option (BitVec 16) :=
  if bucketOf hashes arrival = some b then (flowOf arrival).map (fingerprintOf hashes) else none

/-- The fingerprints mapped to bucket `b`, oldest first. -/
def history (hashes : HashUnits) (b : HashBucket) (arrivals : List Arrival) : List (BitVec 16) :=
  arrivals.filterMap (mappedFingerprint hashes b)

def MissesRouteTbl (arrival : Arrival) : Prop :=
  ∀ flow, flowOf arrival = some flow → arrival.routeTbl.lookup flow = none

theorem bucketOf_of_mapped {hashes : HashUnits} {b : HashBucket} {arrival : Arrival} {fingerprint : BitVec 16}
    (mapped : mappedFingerprint hashes b arrival = some fingerprint) : bucketOf hashes arrival = some b := by
  unfold mappedFingerprint at mapped
  split at mapped
  next inBucket => exact inBucket
  next => cases mapped

theorem mapped_of_bucketOf {hashes : HashUnits} {b : HashBucket} {arrival : Arrival}
    (inBucket : bucketOf hashes arrival = some b) :
    ∃ fingerprint, mappedFingerprint hashes b arrival = some fingerprint := by
  cases valid : arrival.hdr.ipv4 with
  | none => rw [bucketOf, valid] at inBucket; cases inBucket
  | some outer => exact ⟨_, by rw [mappedFingerprint, if_pos inBucket, flowOf, valid]; rfl⟩

theorem history_append (hashes : HashUnits) (b : HashBucket) (first second : List Arrival) :
    history hashes b (first ++ second) = history hashes b first ++ history hashes b second :=
  List.filterMap_append

theorem history_concat {hashes : HashUnits} {b : HashBucket} {arrival : Arrival} {fingerprint : BitVec 16}
    (mapped : mappedFingerprint hashes b arrival = some fingerprint) (earlier : List Arrival) :
    history hashes b (earlier ++ [arrival]) = history hashes b earlier ++ [fingerprint] := by
  rw [history_append]
  congr 1
  rw [history, List.filterMap_cons_some mapped, List.filterMap_nil]

/-! ## One packet -/

/-- Either branch of `pkt_update_1` stores the packet's own fingerprint. -/
theorem pktUpdate1_eq (fingerprint registerData : BitVec 16) :
    pktUpdate1 fingerprint registerData =
      (fingerprint, if fingerprint = registerData then 1 else 0) := by
  unfold pktUpdate1
  split
  next same => rw [same]
  next => rfl

def nextCount (regs : SketchRegisters) (b : HashBucket) (fingerprint : BitVec 16) : BitVec 8 :=
  if fingerprint = regs.hash1_1 b then satAdd (regs.hash1_1_n b) 1 else 1

/-- `pkt_num_1` counts on for the stored fingerprint and starts at 1 for another one. -/
theorem pktNum1_compared (regs : SketchRegisters) (b : HashBucket) (fingerprint : BitVec 16) :
    pktNum1 (if fingerprint = regs.hash1_1 b then 1 else 0) (regs.hash1_1_n b) =
      nextCount regs b fingerprint := by
  unfold pktNum1 nextCount
  split <;> simp

/-- What `Sketch.apply` does to the registers and reads out of them. -/
theorem sketch_apply_spec (hashes : HashUnits) (regs : SketchRegisters) (md : ShcIngressMetadata) :
    let bucket := md.cuckooHashIndex.setWidth 16
    let fingerprint := hashes.hash2 md.srcAddr md.dstAddr
    let count := nextCount regs bucket fingerprint
    let result := Sketch.apply hashes regs md
    result.1.hash1_1 = Function.update regs.hash1_1 bucket fingerprint ∧
    result.1.hash1_1_n = Function.update regs.hash1_1_n bucket count ∧
    result.2.eflag = (if count = BitVec.ofNat 8 hitCount then 1 else 0) ∧
    result.2.tableHit = md.tableHit ∧ result.2.srcAddr = md.srcAddr ∧ result.2.dstAddr = md.dstAddr := by
  simp only [Sketch.apply, countPktNum, getHashValue, updatePkt1, updatePktNum1, pktUpdate1_eq,
    pktNum1_compared, if_true]
  split
  next full => exact ⟨rfl, rfl, rfl, rfl, rfl, rfl⟩
  next short => exact ⟨rfl, rfl, rfl, rfl, rfl, rfl⟩

theorem chooseIndex_keeps (hashes : HashUnits) (hdr : ShcHeader) (md : ShcIngressMetadata) :
    (chooseIndex hashes hdr md).srcAddr = md.srcAddr ∧ (chooseIndex hashes hdr md).dstAddr = md.dstAddr ∧
    (chooseIndex hashes hdr md).tableHit = md.tableHit := by
  unfold chooseIndex
  cases hdr.cuckooHashes with
  | none => exact ⟨rfl, rfl, rfl⟩
  | some own =>
    dsimp only
    split <;> exact ⟨rfl, rfl, rfl⟩

theorem routeTblApply_keeps (arrival : Arrival) (md : ShcIngressMetadata) (intrinsic : IngressIntrinsic) :
    (routeTblApply arrival md intrinsic).1.srcAddr = md.srcAddr ∧
    (routeTblApply arrival md intrinsic).1.dstAddr = md.dstAddr ∧
    (routeTblApply arrival md intrinsic).1.tableHit =
      if arrival.routeTbl.lookup ⟨md.srcAddr, md.dstAddr⟩ = none then md.tableHit else 1 := by
  unfold routeTblApply
  split <;> simp [*]

/-- The metadata that reaches the sketch carries the flow key, and `table_hit` says whether
    `route_tbl` has an entry for it. -/
theorem classify_spec (hashes : HashUnits) (outer : Ipv4H) (arrival : Arrival) :
    (classify hashes outer arrival).1.srcAddr = (flowKey outer arrival.hdr).srcAddr ∧
    (classify hashes outer arrival).1.dstAddr = (flowKey outer arrival.hdr).dstAddr ∧
    (classify hashes outer arrival).1.tableHit =
      if arrival.routeTbl.lookup (flowKey outer arrival.hdr) = none then 0 else 1 := by
  unfold classify
  obtain ⟨source, destination, hit⟩ := chooseIndex_keeps hashes arrival.hdr (routeTblApply arrival
    { srcAddr := (flowKey outer arrival.hdr).srcAddr, dstAddr := (flowKey outer arrival.hdr).dstAddr } {}).1
  obtain ⟨source', destination', hit'⟩ := routeTblApply_keeps arrival
    { srcAddr := (flowKey outer arrival.hdr).srcAddr, dstAddr := (flowKey outer arrival.hdr).dstAddr } {}
  exact ⟨source.trans source', destination.trans destination', hit.trans hit'⟩

theorem ingress_valid {arrival : Arrival} {outer : Ipv4H} (valid : arrival.hdr.ipv4 = some outer)
    (hashes : HashUnits) (regs : SketchRegisters) :
    (ShcIngress.apply hashes regs arrival).1 = (Sketch.apply hashes regs (classify hashes outer arrival).1).1 ∧
    (ShcIngress.apply hashes regs arrival).2.1 = (Sketch.apply hashes regs (classify hashes outer arrival).1).2 := by
  simp only [ShcIngress.apply, valid]
  split <;> exact ⟨rfl, rfl⟩

/-- A packet mapped to a bucket: its fingerprint and count are stored there, no other bucket
    changes, and `eflag` says whether the count is `HIT_COUNT`. -/
theorem ingress_mapped {hashes : HashUnits} {arrival : Arrival} {b : HashBucket} {fingerprint : BitVec 16}
    (mapped : mappedFingerprint hashes b arrival = some fingerprint) (regs : SketchRegisters) :
    (ShcIngress.apply hashes regs arrival).1.hash1_1 b = fingerprint ∧
    (ShcIngress.apply hashes regs arrival).1.hash1_1_n b = nextCount regs b fingerprint ∧
    (eflagOf hashes regs arrival = 1 ↔ nextCount regs b fingerprint = BitVec.ofNat 8 hitCount) := by
  unfold mappedFingerprint at mapped
  split at mapped
  next inBucket =>
    cases valid : arrival.hdr.ipv4 with
    | none => simp [flowOf, valid] at mapped
    | some outer =>
      simp only [bucketOf, flowOf, valid, Option.map_some, Option.some.injEq] at inBucket mapped
      obtain ⟨stored, counted, flagged, _⟩ :=
        sketch_apply_spec hashes regs (classify hashes outer arrival).1
      obtain ⟨source, destination, _⟩ := classify_spec hashes outer arrival
      have print : hashes.hash2 (classify hashes outer arrival).1.srcAddr
          (classify hashes outer arrival).1.dstAddr = fingerprint := by
        rw [source, destination, ← mapped]; rfl
      rw [inBucket, print] at stored counted flagged
      rw [eflagOf, (ingress_valid valid hashes regs).1, (ingress_valid valid hashes regs).2,
        stored, counted, flagged, Function.update_self, Function.update_self]
      refine ⟨rfl, rfl, ?_⟩
      split <;> simp [*]
  next => cases mapped

theorem ingress_unmapped {hashes : HashUnits} {arrival : Arrival} {b : HashBucket}
    (unmapped : mappedFingerprint hashes b arrival = none) (regs : SketchRegisters) :
    (ShcIngress.apply hashes regs arrival).1.hash1_1 b = regs.hash1_1 b ∧
    (ShcIngress.apply hashes regs arrival).1.hash1_1_n b = regs.hash1_1_n b := by
  cases valid : arrival.hdr.ipv4 with
  | none => simp [ShcIngress.apply, valid]
  | some outer =>
    -- a valid packet is counted in some bucket, so in another one
    have elsewhere : b ≠ (classify hashes outer arrival).1.cuckooHashIndex.setWidth 16 := by
      rintro rfl
      simp [mappedFingerprint, bucketOf, flowOf, valid] at unmapped
    obtain ⟨stored, counted, _⟩ := sketch_apply_spec hashes regs (classify hashes outer arrival).1
    rw [(ingress_valid valid hashes regs).1, stored, counted, Function.update_of_ne elsewhere,
      Function.update_of_ne elsewhere]
    exact ⟨rfl, rfl⟩

theorem digestOf_eq_some {hashes : HashUnits} {regs : SketchRegisters} {arrival : Arrival} {flow : FlowKey} :
    (∃ digest, digestOf hashes regs arrival = some digest ∧
      digest.srcIpDigest = flow.srcAddr ∧ digest.dstIpDigest = flow.dstAddr) ↔
    flowOf arrival = some flow ∧ eflagOf hashes regs arrival = 1 ∧ MissesRouteTbl arrival := by
  cases valid : arrival.hdr.ipv4 with
  | none =>
    -- ingress leaves `digest_type` at 0
    simp [digestOf, flowkeyDigest, ShcIngress.apply, flowOf, valid, activeFlowLearnDigest]
  | some outer =>
    obtain ⟨_, _, _, hit, source, destination⟩ :=
      sketch_apply_spec hashes regs (classify hashes outer arrival).1
    obtain ⟨key, key', missing⟩ := classify_spec hashes outer arrival
    rw [missing] at hit
    rw [key] at source
    rw [key'] at destination
    have missed : (Sketch.apply hashes regs (classify hashes outer arrival).1).2.tableHit = 0 ↔
        MissesRouteTbl arrival := by
      rw [hit]
      unfold MissesRouteTbl flowOf
      rw [valid]
      simp
    have keyed : flowOf arrival = some flow ↔
        (flowKey outer arrival.hdr).srcAddr = flow.srcAddr ∧
        (flowKey outer arrival.hdr).dstAddr = flow.dstAddr := by
      rw [flowOf, valid, Option.map_some, Option.some.injEq]
      cases flowKey outer arrival.hdr; cases flow; simp
    rw [keyed, ← missed]
    simp only [digestOf, eflagOf, ShcIngress.apply, valid, flowkeyDigest]
    split
    next raised => simp [source, destination, raised.1, raised.2, activeFlowLearnDigest]
    next quiet =>
      simp only [activeFlowLearnDigest]
      constructor
      · rintro ⟨_, impossible, _⟩; simp at impossible
      · rintro ⟨_, flagged⟩; exact absurd flagged quiet

/-! ## A run -/

/-- The contents of a bucket that has seen `seen`, oldest first. -/
structure Remembers (regs : SketchRegisters) (b : HashBucket) (seen : List (BitVec 16)) : Prop where
  fingerprint : seen.getLast? = some (regs.hash1_1 b)
  count : regs.hash1_1_n b = BitVec.ofNat 8 (min 255 (trailingRun seen))

theorem satAdd_clipped (n : Nat) :
    satAdd (BitVec.ofNat 8 (min 255 n)) 1 = BitVec.ofNat 8 (min 255 (n + 1)) := by
  apply BitVec.eq_of_toNat_eq
  unfold satAdd
  split
  next fits =>
    simp only [BitVec.toNat_ofNat, BitVec.toNat_add] at fits ⊢
    simp at fits ⊢
    omega
  next full =>
    -- only a count of 255 does not fit
    simp only [BitVec.toNat_ofNat] at full ⊢
    simp at full ⊢
    omega

theorem Remembers.nextCount {regs : SketchRegisters} {b : HashBucket} {seen : List (BitVec 16)}
    (remembers : Remembers regs b seen) (fingerprint : BitVec 16) :
    nextCount regs b fingerprint = BitVec.ofNat 8 (min 255 (trailingRun (seen ++ [fingerprint]))) := by
  rw [DataPlane.nextCount, trailingRun_concat, remembers.fingerprint, remembers.count, satAdd_clipped]
  by_cases same : fingerprint = regs.hash1_1 b
  · simp [same]
  · rw [if_neg same, if_neg (fun equal => same (Option.some.inj equal).symm)]
    rfl

theorem Remembers.step (hashes : HashUnits) {regs : SketchRegisters} {b : HashBucket}
    {seen : List (BitVec 16)} (remembers : Remembers regs b seen) (arrival : Arrival) :
    Remembers (ShcIngress.apply hashes regs arrival).1 b (seen ++ history hashes b [arrival]) := by
  cases mapped : mappedFingerprint hashes b arrival with
  | none =>
    obtain ⟨stored, counted⟩ := ingress_unmapped mapped regs
    rw [history, List.filterMap_cons_none mapped, List.filterMap_nil, List.append_nil]
    exact ⟨by rw [stored, remembers.fingerprint], by rw [counted, remembers.count]⟩
  | some fingerprint =>
    obtain ⟨stored, counted, _⟩ := ingress_mapped mapped regs
    rw [history, List.filterMap_cons_some mapped, List.filterMap_nil]
    exact ⟨by rw [stored, List.getLast?_concat], by rw [counted, remembers.nextCount]⟩

theorem Remembers.run {hashes : HashUnits} {regs : SketchRegisters} {b : HashBucket}
    {seen : List (BitVec 16)} (remembers : Remembers regs b seen) (arrivals : List Arrival) :
    Remembers (ingressRun hashes regs arrivals) b (seen ++ history hashes b arrivals) := by
  induction arrivals generalizing regs seen with
  | nil => simpa [ingressRun, history] using remembers
  | cons arrival arrivals inductionHypothesis =>
    have later := inductionHypothesis (remembers.step hashes arrival)
    rwa [List.append_assoc, ← history_append] at later

/-- From the initial contents, a bucket remembers `0 :: history`. -/
theorem bucket_run (hashes : HashUnits) (b : HashBucket) (arrivals : List Arrival) :
    Remembers (ingressRun hashes .initial arrivals) b (0 :: history hashes b arrivals) := by
  have fresh : Remembers .initial b [0] := ⟨rfl, rfl⟩
  exact fresh.run arrivals

/-- `eflag` after a run: the packet completes a trailing run of exactly `HIT_COUNT`. -/
theorem eflag_after_run {hashes : HashUnits} {b : HashBucket} {arrivals : List Arrival} {arrival : Arrival}
    {fingerprint : BitVec 16} (mapped : mappedFingerprint hashes b arrival = some fingerprint) :
    eflagOf hashes (ingressRun hashes .initial arrivals) arrival = 1 ↔
      trailingRun (0 :: history hashes b (arrivals ++ [arrival])) = hitCount := by
  rw [(ingress_mapped mapped _).2.2, (bucket_run hashes b arrivals).nextCount, history_append]
  have single : history hashes b [arrival] = [fingerprint] := by
    rw [history, List.filterMap_cons_some mapped, List.filterMap_nil]
  rw [single, ← List.cons_append]
  -- clipping at 255 does not touch lengths near `HIT_COUNT`
  generalize trailingRun (0 :: history hashes b arrivals ++ [fingerprint]) = length
  constructor
  · intro equal
    have values := congrArg BitVec.toNat equal
    simp only [BitVec.toNat_ofNat, hitCount] at values ⊢
    omega
  · rintro rfl
    decide

end Tao.DataPlane
