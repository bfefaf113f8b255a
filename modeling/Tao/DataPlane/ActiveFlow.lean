import Tao.DataPlane.BucketHistory

/-! # Which packets are reported as an active flow

`flaggedSoundly_iff` and `reported_iff` say exactly when the sketch reports what
it is meant to report.  A bucket counts `HIT_COUNT` packets in a row, except that
a fresh one has already counted a packet of fingerprint 0; and a flow is reported
once in a run, at the packet that brings the count to `HIT_COUNT`. -/

namespace Tao.DataPlane

open Tao.Foundation

/-! ## A flag means `HIT_COUNT` packets in a row -/

/-- Along the run from the initial registers, a flagged packet of bucket `b` ends `HIT_COUNT`
    packets of `b` with its own fingerprint, and a digest needs `HIT_COUNT` packets of `b`. -/
def FlaggedSoundly (hashes : HashUnits) (b : HashBucket) (arrivals : List Arrival) : Prop :=
  ∀ earlier arrival rest fingerprint, arrivals = earlier ++ arrival :: rest →
    mappedFingerprint hashes b arrival = some fingerprint →
    (eflagOf hashes (ingressRun hashes .initial earlier) arrival = 1 →
      List.replicate hitCount fingerprint <:+ history hashes b (earlier ++ [arrival])) ∧
    (digestOf hashes (ingressRun hashes .initial earlier) arrival ≠ none →
      hitCount ≤ (history hashes b (earlier ++ [arrival])).length)

theorem eflagOf_of_digestOf {hashes : HashUnits} {regs : SketchRegisters} {arrival : Arrival}
    (raised : digestOf hashes regs arrival ≠ none) : eflagOf hashes regs arrival = 1 := by
  obtain ⟨digest, packed⟩ := Option.ne_none_iff_exists'.mp raised
  have carried : ∃ digest', digestOf hashes regs arrival = some digest' ∧
      digest'.srcIpDigest = (⟨digest.srcIpDigest, digest.dstIpDigest⟩ : FlowKey).srcAddr ∧
      digest'.dstIpDigest = (⟨digest.srcIpDigest, digest.dstIpDigest⟩ : FlowKey).dstAddr :=
    ⟨digest, packed, rfl, rfl⟩
  exact (digestOf_eq_some.mp carried).2.1

/-- A flagged packet ends `HIT_COUNT` of its fingerprint in `0 :: history`. -/
theorem flagged_run {hashes : HashUnits} {b : HashBucket} {earlier : List Arrival} {arrival : Arrival}
    {fingerprint : BitVec 16} (mapped : mappedFingerprint hashes b arrival = some fingerprint)
    (flagged : eflagOf hashes (ingressRun hashes .initial earlier) arrival = 1) :
    List.replicate hitCount fingerprint <:+ 0 :: history hashes b (earlier ++ [arrival]) := by
  have long := (eflag_after_run mapped).mp flagged
  rw [show hitCount = 9 + 1 from rfl] at long ⊢
  rw [replicate_suffix_iff, long, history_concat mapped, ← List.cons_append, List.getLast?_concat]
  exact ⟨rfl, Nat.le_refl _⟩

/-- A bucket that starts with `HIT_COUNT - 1` packets of fingerprint 0 is flagged at the last of them. -/
theorem zero_run_flagged {hashes : HashUnits} {b : HashBucket} {arrivals : List Arrival}
    (zeros : List.replicate (hitCount - 1) 0 <+: history hashes b arrivals) :
    ∃ earlier arrival rest, arrivals = earlier ++ arrival :: rest ∧
      mappedFingerprint hashes b arrival = some 0 ∧
      history hashes b (earlier ++ [arrival]) = List.replicate (hitCount - 1) 0 ∧
      eflagOf hashes (ingressRun hashes .initial earlier) arrival = 1 := by
  rw [show hitCount - 1 = 8 + 1 from rfl, List.replicate_succ'] at zeros
  obtain ⟨earlier, arrival, rest, split, mapped, kept⟩ := exists_append_of_filterMap_prefix zeros
  have seen : history hashes b (earlier ++ [arrival]) = List.replicate (hitCount - 1) 0 := by
    rw [history_concat mapped, history, kept, ← List.replicate_succ']
    rfl
  refine ⟨earlier, arrival, rest, split, mapped, seen, (eflag_after_run mapped).mpr ?_⟩
  -- nine zeros after the one that a fresh bucket starts with
  rw [seen]
  decide

/-- The sketch flags bucket `b` soundly exactly when the bucket's first `HIT_COUNT - 1` packets
    do not all have the fingerprint 0 that a fresh bucket already counts once. -/
theorem flaggedSoundly_iff (hashes : HashUnits) (b : HashBucket) (arrivals : List Arrival) :
    FlaggedSoundly hashes b arrivals ↔
      ¬ List.replicate (hitCount - 1) 0 <+: history hashes b arrivals := by
  constructor
  · intro sound zeros
    obtain ⟨earlier, arrival, rest, split, mapped, seen, flagged⟩ := zero_run_flagged zeros
    have run := (sound earlier arrival rest 0 split mapped).1 flagged
    rw [seen] at run
    have length := run.length_le
    rw [List.length_replicate, List.length_replicate] at length
    exact absurd length (by decide)
  · intro mixed earlier arrival rest fingerprint split mapped
    have flagged_soundly : eflagOf hashes (ingressRun hashes .initial earlier) arrival = 1 →
        List.replicate hitCount fingerprint <:+ history hashes b (earlier ++ [arrival]) := by
      intro flagged
      rcases List.suffix_cons_iff.mp (flagged_run mapped flagged) with whole | run
      · -- the run reaches back to the initial contents, so it is a run of zeros
        rw [show hitCount = 9 + 1 from rfl, List.replicate_succ, List.cons.injEq] at whole
        obtain ⟨rfl, whole⟩ := whole
        refine absurd ⟨history hashes b rest, ?_⟩ mixed
        rw [split, List.append_cons, history_append, ← whole]
        rfl
      · exact run
    refine ⟨flagged_soundly, fun raised => ?_⟩
    have length := (flagged_soundly (eflagOf_of_digestOf raised)).length_le
    rwa [List.length_replicate] at length

/-! ### Nine packets of a flow with fingerprint 0 -/

/-- `CRC16` of a message: polynomial `0x8005`, reflected, initial value 0. -/
def crc16 (bytes : List (BitVec 8)) : BitVec 16 :=
  let shift := fun crc : BitVec 16 => if crc.getLsbD 0 then crc >>> 1 ^^^ 0xA001 else crc >>> 1
  bytes.foldl (fun crc byte => Nat.iterate shift 8 (crc ^^^ byte.setWidth 16)) 0

def addrBytes (addr : Ipv4Addr) : List (BitVec 8) :=
  [addr.extractLsb' 24 8, addr.extractLsb' 16 8, addr.extractLsb' 8 8, addr.extractLsb' 0 8]

def crc16Units : HashUnits where
  hash1 := fun source destination => (source ^^^ destination).setWidth 16
  hash2 := fun source destination => crc16 (addrBytes source ++ addrBytes destination)

-- the check value of the algorithm: the digits 1 to 9
example : crc16 [0x31, 0x32, 0x33, 0x34, 0x35, 0x36, 0x37, 0x38, 0x39] = 0xBB3D := by decide +kernel

/-- A packet without inner headers that brings its own hashes. -/
def hashedPacket (flow : FlowKey) (bucket : BitVec 32) : ShcHeader where
  ethernet := some ⟨0x0C0000000001, 0x0C0000000002, 0x0800⟩
  ipv4 := some ⟨4, 5, 0, 0, 36, 0, 0, 0, 64, 100, 0, flow.srcAddr, flow.dstAddr⟩
  udp := none
  vxlan := none
  innerEthernet := none
  innerIpv4 := none
  cuckooHashes := some ⟨bucket, bucket, bucket, bucket⟩

/-- 192.168.1.1 to 10.0.38.68: the `CRC16` of the two addresses is 0. -/
def zeroPrintFlow : FlowKey := ⟨0xC0A80101, 0x0A002644⟩

def zeroPrintArrival : Arrival := ⟨hashedPacket zeroPrintFlow 7, 1, ∅⟩

/-- The ninth packet of the flow is flagged, and reported, from the initial registers. -/
theorem nine_packets_flagged : ¬ FlaggedSoundly crc16Units 7 (List.replicate 9 zeroPrintArrival) := by
  intro sound
  have run := (sound (List.replicate 8 zeroPrintArrival) zeroPrintArrival [] 0 rfl
    (by decide +kernel)).1 (by decide +kernel)
  have seen : history crc16Units 7 (List.replicate 8 zeroPrintArrival ++ [zeroPrintArrival]) =
      List.replicate 9 0 := by decide +kernel
  rw [seen] at run
  exact absurd run.length_le (by decide)

/-! ## Ten packets in a row are reported once -/

/-- The packets of `window` that are mapped to bucket `b` are `HIT_COUNT` packets of one flow,
    and each misses `route_tbl`. -/
structure MissedInARow (hashes : HashUnits) (b : HashBucket) (flow : FlowKey) (window : List Arrival) : Prop where
  length : (window.filter fun arrival => bucketOf hashes arrival = some b).length = hitCount
  missed : ∀ arrival ∈ window, bucketOf hashes arrival = some b →
    flowOf arrival = some flow ∧ MissesRouteTbl arrival

def Reported (hashes : HashUnits) (regs : SketchRegisters) (b : HashBucket) (flow : FlowKey)
    (window : List Arrival) : Prop :=
  ∃ earlier arrival rest digest, window = earlier ++ arrival :: rest ∧
    bucketOf hashes arrival = some b ∧
    digestOf hashes (ingressRun hashes regs earlier) arrival = some digest ∧
    digest.srcIpDigest = flow.srcAddr ∧ digest.dstIpDigest = flow.dstAddr

def CountedOut (regs : SketchRegisters) (b : HashBucket) (fingerprint : BitVec 16) : Prop :=
  regs.hash1_1 b = fingerprint ∧ hitCount ≤ (regs.hash1_1_n b).toNat

instance (regs : SketchRegisters) (b : HashBucket) (fingerprint : BitVec 16) :
    Decidable (CountedOut regs b fingerprint) :=
  inferInstanceAs (Decidable (_ ∧ _))

theorem mappedFingerprint_eq {hashes : HashUnits} {b : HashBucket} {flow : FlowKey} {arrival : Arrival}
    (inBucket : bucketOf hashes arrival = some b) (ofFlow : flowOf arrival = some flow) :
    mappedFingerprint hashes b arrival = some (fingerprintOf hashes flow) := by
  rw [mappedFingerprint, if_pos inBucket, ofFlow]
  rfl

theorem history_of_flow {hashes : HashUnits} {b : HashBucket} {flow : FlowKey} {window : List Arrival}
    (ofFlow : ∀ arrival ∈ window, bucketOf hashes arrival = some b → flowOf arrival = some flow) :
    history hashes b window =
      List.replicate (window.filter fun arrival => bucketOf hashes arrival = some b).length
        (fingerprintOf hashes flow) := by
  induction window with
  | nil => rfl
  | cons arrival rest inductionHypothesis =>
    have later := inductionHypothesis fun other member => ofFlow other (List.mem_cons_of_mem _ member)
    by_cases inBucket : bucketOf hashes arrival = some b
    · rw [history, List.filterMap_cons_some
        (mappedFingerprint_eq inBucket (ofFlow arrival List.mem_cons_self inBucket)),
        List.filter_cons_of_pos (by simpa using inBucket), List.length_cons, List.replicate_succ]
      congr 1
    · rw [history, List.filterMap_cons_none (by rw [mappedFingerprint, if_neg inBucket]),
        List.filter_cons_of_neg (by simpa using inBucket)]
      exact later

theorem MissedInARow.history {hashes : HashUnits} {b : HashBucket} {flow : FlowKey} {window : List Arrival}
    (row : MissedInARow hashes b flow window) :
    history hashes b window = List.replicate hitCount (fingerprintOf hashes flow) := by
  rw [history_of_flow fun arrival member inBucket => (row.missed arrival member inBucket).1, row.length]

theorem Remembers.countedOut_iff {regs : SketchRegisters} {b : HashBucket} {seen : List (BitVec 16)}
    (remembers : Remembers regs b seen) (fingerprint : BitVec 16) :
    CountedOut regs b fingerprint ↔ seen.getLast? = some fingerprint ∧ hitCount ≤ trailingRun seen := by
  rw [CountedOut, remembers.fingerprint, remembers.count, Option.some.injEq]
  generalize trailingRun seen = length
  have values : (BitVec.ofNat 8 (min 255 length)).toNat = min 255 length := by
    rw [BitVec.toNat_ofNat]; omega
  rw [values, hitCount]
  constructor <;> rintro ⟨same, large⟩ <;> exact ⟨same, by omega⟩

theorem flagged_in_row {hashes : HashUnits} {b : HashBucket} {before earlier : List Arrival}
    {arrival : Arrival} {fingerprint : BitVec 16} {n : Nat}
    (mapped : mappedFingerprint hashes b arrival = some fingerprint)
    (seen : history hashes b earlier = List.replicate n fingerprint) :
    eflagOf hashes (ingressRun hashes (ingressRun hashes .initial before) earlier) arrival = 1 ↔
      (if (0 :: history hashes b before).getLast? = some fingerprint
        then trailingRun (0 :: history hashes b before) + (n + 1) else n + 1) = hitCount := by
  have joined : ingressRun hashes (ingressRun hashes .initial before) earlier =
      ingressRun hashes .initial (before ++ earlier) := by
    rw [ingressRun, ingressRun, ingressRun, List.foldl_append]
  rw [joined, eflag_after_run mapped, List.append_assoc, history_append, history_concat mapped, seen,
    ← List.replicate_succ', ← List.cons_append, trailingRun_append_replicate]

/-- After any traffic, `HIT_COUNT` packets in a row of a flow that misses `route_tbl` are reported
    exactly when the bucket had not already counted that fingerprint to `HIT_COUNT` or beyond. -/
theorem reported_iff (hashes : HashUnits) (before window : List Arrival) (b : HashBucket) (flow : FlowKey)
    (row : MissedInARow hashes b flow window) :
    Reported hashes (ingressRun hashes .initial before) b flow window ↔
      ¬ CountedOut (ingressRun hashes .initial before) b (fingerprintOf hashes flow) := by
  rw [(bucket_run hashes b before).countedOut_iff]
  constructor
  · rintro ⟨earlier, arrival, rest, digest, split, inBucket, raised, source, destination⟩ ⟨last, long⟩
    have flagged := (digestOf_eq_some.mp ⟨digest, raised, source, destination⟩).2.1
    have mapped := mappedFingerprint_eq inBucket
      (row.missed arrival (by rw [split]; exact List.mem_append_right _ List.mem_cons_self) inBucket).1
    -- whatever precedes the reported packet in the window carried the same fingerprint
    have whole : history hashes b earlier ++ history hashes b (arrival :: rest) =
        List.replicate hitCount (fingerprintOf hashes flow) := by
      rw [← history_append, ← split, row.history]
    have seen := (List.append_eq_replicate_iff.mp whole).2.1
    rw [flagged_in_row mapped seen, if_pos last] at flagged
    omega
  · intro fresh
    -- the packet of the row that brings the count to `HIT_COUNT`
    obtain ⟨n, within, counted⟩ : ∃ n < hitCount,
        (if (0 :: history hashes b before).getLast? = some (fingerprintOf hashes flow)
          then trailingRun (0 :: history hashes b before) + (n + 1) else n + 1) = hitCount := by
      by_cases last : (0 :: history hashes b before).getLast? = some (fingerprintOf hashes flow)
      · have short : ¬ hitCount ≤ trailingRun (0 :: history hashes b before) := fun long => fresh ⟨last, long⟩
        refine ⟨hitCount - trailingRun (0 :: history hashes b before) - 1, by unfold hitCount; omega, ?_⟩
        rw [if_pos last]
        omega
      · exact ⟨hitCount - 1, by decide, by rw [if_neg last]; rfl⟩
    have reaches : List.replicate n (fingerprintOf hashes flow) ++ [fingerprintOf hashes flow] <+:
        history hashes b window := by
      refine ⟨List.replicate (hitCount - (n + 1)) (fingerprintOf hashes flow), ?_⟩
      rw [row.history, ← List.replicate_succ', List.replicate_append_replicate]
      congr 1
      omega
    obtain ⟨earlier, arrival, rest, split, mapped, seen⟩ := exists_append_of_filterMap_prefix reaches
    have inBucket := bucketOf_of_mapped mapped
    obtain ⟨ofFlow, misses⟩ :=
      row.missed arrival (by rw [split]; exact List.mem_append_right _ List.mem_cons_self) inBucket
    obtain ⟨digest, raised, source, destination⟩ :=
      digestOf_eq_some.mpr ⟨ofFlow, (flagged_in_row mapped seen).mpr counted, misses⟩
    exact ⟨earlier, arrival, rest, digest, split, inBucket, raised, source, destination⟩

/-! ### A flow whose entry ages out -/

def plainFlow : FlowKey := ⟨0xC0A80101, 0x0A000009⟩

/-- While the flow is offloaded its packets hit; after its entry aged out they miss. -/
def offloadedArrival : Arrival :=
  ⟨hashedPacket plainFlow 9, 1, Finmap.insert plainFlow (.routeForNexthop 9) ∅⟩
def agedOutArrival : Arrival := ⟨hashedPacket plainFlow 9, 1, ∅⟩

theorem aged_out_in_a_row : MissedInARow crc16Units 9 plainFlow (List.replicate 10 agedOutArrival) where
  length := by decide +kernel
  missed := by
    intro arrival member _
    obtain rfl := List.eq_of_mem_replicate member
    refine ⟨by decide +kernel, fun flow _ => Finmap.lookup_empty flow⟩

/-- Ten hits and then ten misses: the misses raise no digest. -/
theorem aged_out_not_reported :
    MissedInARow crc16Units 9 plainFlow (List.replicate 10 agedOutArrival) ∧
    ¬ Reported crc16Units (ingressRun crc16Units .initial (List.replicate 10 offloadedArrival)) 9 plainFlow
      (List.replicate 10 agedOutArrival) := by
  refine ⟨aged_out_in_a_row, ?_⟩
  rintro ⟨earlier, arrival, rest, digest, split, inBucket, raised, source, destination⟩
  -- the counts of the ten misses are 11 to 20
  have quiet : ∀ n < 10, digestOf crc16Units (ingressRun crc16Units (ingressRun crc16Units .initial
      (List.replicate 10 offloadedArrival)) (List.replicate n agedOutArrival)) agedOutArrival = none := by
    decide +kernel
  obtain ⟨length, before, _⟩ := List.append_eq_replicate_iff.mp split.symm
  have member : arrival ∈ List.replicate 10 agedOutArrival := by
    rw [split]; exact List.mem_append_right _ List.mem_cons_self
  rw [List.length_cons] at length
  rw [before, List.eq_of_mem_replicate member, quiet earlier.length (by omega)] at raised
  cases raised

theorem fresh_row_reported :
    Reported crc16Units (ingressRun crc16Units .initial []) 9 plainFlow (List.replicate 10 agedOutArrival) :=
  (reported_iff crc16Units [] (List.replicate 10 agedOutArrival) 9 plainFlow aged_out_in_a_row).mpr
    (by decide +kernel)

end Tao.DataPlane
