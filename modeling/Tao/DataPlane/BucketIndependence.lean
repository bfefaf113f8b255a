import Tao.DataPlane.ActiveFlow
import Tao.Foundation.Interleaving

/-! # Buckets do not interfere

What a packet is answered depends on `route_tbl` and on the earlier packets of its own
bucket.  The pipeline is an instance of `Localized`: its cells are the two registers
of a bucket, and the packet counter `pkt_num` reaches no decision. -/

namespace Tao.DataPlane

open Tao.Foundation

structure Outcome where
  eflag : BitVec 1
  tableHit : BitVec 1
  digest : Option FlowkeyDigest
  deriving DecidableEq

structure ParsedPacket where
  hdr : ShcHeader
  ingressPort : PortId
  deriving DecidableEq

def ParsedPacket.arrival (routeTbl : RouteTbl) (packet : ParsedPacket) : Arrival :=
  ⟨packet.hdr, packet.ingressPort, routeTbl⟩

def outcomeStep (hashes : HashUnits) (routeTbl : RouteTbl) (regs : SketchRegisters)
    (packet : ParsedPacket) : SketchRegisters × Outcome :=
  let arrival := packet.arrival routeTbl
  let result := ShcIngress.apply hashes regs arrival
  (result.1, ⟨result.2.1.eflag, result.2.1.tableHit, digestOf hashes regs arrival⟩)

def bucketCell (regs : SketchRegisters) (b : HashBucket) : BitVec 16 × BitVec 8 :=
  (regs.hash1_1 b, regs.hash1_1_n b)

/-! ## One packet -/

/-- `ac_count` is never written, so a digest carries the 0 that the target clears it to. -/
theorem ingress_acCount (hashes : HashUnits) (regs : SketchRegisters) (arrival : Arrival) :
    (ShcIngress.apply hashes regs arrival).2.1.acCount = 0 := by
  cases valid : arrival.hdr.ipv4 with
  | none => simp only [ShcIngress.apply, valid]
  | some outer =>
    rw [(ingress_valid valid hashes regs).2]
    have sketched : ∀ md, (Sketch.apply hashes regs md).2.acCount = md.acCount := by
      intro md
      simp only [Sketch.apply, countPktNum, getHashValue, updatePkt1, updatePktNum1, pktUpdate1_eq,
        pktNum1_compared, if_true]
      split <;> rfl
    have chosen : ∀ md, (chooseIndex hashes arrival.hdr md).acCount = md.acCount := by
      intro md
      unfold chooseIndex
      cases arrival.hdr.cuckooHashes with
      | none => rfl
      | some own => dsimp only; split <;> rfl
    rw [sketched, classify, chosen]
    unfold routeTblApply
    split <;> rfl

/-- The whole outcome of a packet, from the count it brings its bucket to and its table entry. -/
theorem outcome_eq {arrival : Arrival} {outer : Ipv4H} (valid : arrival.hdr.ipv4 = some outer)
    (hashes : HashUnits) (regs : SketchRegisters) {b : HashBucket}
    (here : bucketOf hashes arrival = some b) :
    let key := flowKey outer arrival.hdr
    let flag : BitVec 1 :=
      if nextCount regs b (fingerprintOf hashes key) = BitVec.ofNat 8 hitCount then 1 else 0
    let hit : BitVec 1 := if arrival.routeTbl.lookup key = none then 0 else 1
    eflagOf hashes regs arrival = flag ∧ (ShcIngress.apply hashes regs arrival).2.1.tableHit = hit ∧
    digestOf hashes regs arrival =
      if flag = 1 ∧ hit = 0 then some ⟨key.srcAddr, key.dstAddr, 0⟩ else none := by
  intro key flag hit
  obtain ⟨_, _, flagged, hits, source, destination⟩ :=
    sketch_apply_spec hashes regs (classify hashes outer arrival).1
  obtain ⟨keySource, keyDestination, missing⟩ := classify_spec hashes outer arrival
  have bucket : (classify hashes outer arrival).1.cuckooHashIndex.setWidth 16 = b := by
    rw [bucketOf, valid] at here
    exact Option.some.inj here
  have counted := ingress_acCount hashes regs arrival
  rw [(ingress_valid valid hashes regs).2] at counted
  replace flagged : (Sketch.apply hashes regs (classify hashes outer arrival).1).2.eflag = flag := by
    rw [flagged, keySource, keyDestination, bucket]; rfl
  replace hits : (Sketch.apply hashes regs (classify hashes outer arrival).1).2.tableHit = hit :=
    hits.trans missing
  refine ⟨by rw [eflagOf, (ingress_valid valid hashes regs).2, flagged],
    by rw [(ingress_valid valid hashes regs).2, hits], ?_⟩
  simp only [digestOf, flowkeyDigest, ShcIngress.apply, valid, hits, flagged]
  by_cases raised : flag = 1 ∧ hit = 0
  · rw [if_pos raised, if_pos raised, if_pos rfl, source, destination, keySource, keyDestination, counted]
  · rw [if_neg raised, if_neg raised,
      if_neg (show (0 : BitVec 3) ≠ activeFlowLearnDigest by decide)]

theorem outcomeStep_localized (hashes : HashUnits) (routeTbl : RouteTbl) :
    Localized (outcomeStep hashes routeTbl) bucketCell
      fun packet => bucketOf hashes (packet.arrival routeTbl) where
  own := by
    intro regs regs' packet b here agree
    obtain ⟨print, count⟩ := Prod.mk.inj agree
    obtain ⟨fingerprint, mapped⟩ := mapped_of_bucketOf here
    obtain ⟨stored, counted, _⟩ := ingress_mapped mapped regs
    obtain ⟨stored', counted', _⟩ := ingress_mapped mapped regs'
    have next : ∀ fingerprint, nextCount regs b fingerprint = nextCount regs' b fingerprint := by
      intro fingerprint
      rw [nextCount, nextCount, print, count]
    refine ⟨?_, ?_⟩
    · rw [bucketCell, bucketCell, outcomeStep, outcomeStep]
      exact Prod.ext (stored.trans stored'.symm) (by rw [counted, counted', next])
    · cases valid : (packet.arrival routeTbl).hdr.ipv4 with
      | none => rw [bucketOf, valid] at here; cases here
      | some outer =>
        obtain ⟨flag, hit, digest⟩ := outcome_eq valid hashes regs here
        obtain ⟨flag', hit', digest'⟩ := outcome_eq valid hashes regs' here
        rw [next] at flag digest
        simp only [outcomeStep, Outcome.mk.injEq]
        exact ⟨flag.trans flag'.symm, hit.trans hit'.symm, digest.trans digest'.symm⟩
  others := by
    intro regs packet b elsewhere
    have unmapped : mappedFingerprint hashes b (packet.arrival routeTbl) = none := if_neg elsewhere
    obtain ⟨stored, counted⟩ := ingress_unmapped unmapped regs
    exact Prod.ext stored counted
  without := by
    intro regs regs' packet nowhere
    cases valid : (packet.arrival routeTbl).hdr.ipv4 with
    | none => simp only [outcomeStep, digestOf, ShcIngress.apply, valid]
    | some outer => rw [bucketOf, valid] at nowhere; cases nowhere

/-! ## Whole runs -/

/-- Two sequences of the same packets, in the same order within every bucket, get the same outcomes
    packet by packet, the packets of a bucket in their order, and leave the same registers. -/
theorem buckets_independent (hashes : HashUnits) (routeTbl : RouteTbl) (regs : SketchRegisters)
    {packets packets' : List ParsedPacket} (same : packets.Perm packets')
    (ordered : ∀ b, (packets.filter fun packet => bucketOf hashes (packet.arrival routeTbl) = some b) =
      packets'.filter fun packet => bucketOf hashes (packet.arrival routeTbl) = some b) :
    let outcomes := receipts (outcomeStep hashes routeTbl) regs
    let final := after (outcomeStep hashes routeTbl) regs
    (∀ b, (outcomes packets).filter (fun receipt => bucketOf hashes (receipt.1.arrival routeTbl) = some b) =
      (outcomes packets').filter fun receipt => bucketOf hashes (receipt.1.arrival routeTbl) = some b) ∧
    (outcomes packets).Perm (outcomes packets') ∧
    (final packets).hash1_1 = (final packets').hash1_1 ∧
    (final packets).hash1_1_n = (final packets').hash1_1_n := by
  intro outcomes final
  obtain ⟨cells, perBucket, all⟩ := (outcomeStep_localized hashes routeTbl).independent regs same ordered
  exact ⟨perBucket, all, funext fun b => (Prod.mk.inj (cells b)).1, funext fun b => (Prod.mk.inj (cells b)).2⟩

def zeroPrintParsed : ParsedPacket := ⟨hashedPacket zeroPrintFlow 7, 1⟩

def plainParsed : ParsedPacket := ⟨hashedPacket plainFlow 9, 1⟩

theorem two_flows_independent :
    (after (outcomeStep crc16Units ∅) .initial [zeroPrintParsed, plainParsed, zeroPrintParsed]).hash1_1_n =
      (after (outcomeStep crc16Units ∅) .initial [plainParsed, zeroPrintParsed, zeroPrintParsed]).hash1_1_n := by
  have apart : bucketOf crc16Units (zeroPrintParsed.arrival ∅) ≠ bucketOf crc16Units (plainParsed.arrival ∅) := by
    decide +kernel
  have swapped : [zeroPrintParsed, plainParsed, zeroPrintParsed].Perm
      [plainParsed, zeroPrintParsed, zeroPrintParsed] := List.Perm.swap _ _ _
  refine (buckets_independent crc16Units ∅ .initial swapped fun b => ?_).2.2.2
  by_cases here : bucketOf crc16Units (plainParsed.arrival ∅) = some b
  · simp [here, here ▸ apart]
  · simp [List.filter_cons, here]

end Tao.DataPlane
