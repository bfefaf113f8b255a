import Tao.Common.IpAddress
import Tao.DataPlane.Ingress
import Tao.DataPlane.Parser
import Tao.Driver.Route
import Tao.Foundation.Bytes

/-! # Packets that bring their own hashes (`driver_cuckoo_hash_get.cpp`)

The tool cuts an IPv4 frame after its header, makes it protocol 100 and writes four
bucket indices behind it.  The data plane parses them and casts the one that it chooses
to 16 bits. -/

namespace Tao.Driver

open Tao.Foundation Tao.Common Tao.DataPlane

def hashBucket : Nat := 65536

/-! ## The tool -/

/-- The bytes of a `uint32_t` on a little-endian host. -/
def uint32Bytes (x : BitVec 32) : List (BitVec 8) := (IpAddress.v4 x).bytes

/-- `*(const uint32_t *)(packet + k)`. -/
def loadUint32 (k : Nat) (packet : List (BitVec 8)) : BitVec 32 :=
  packet.getD (k + 3) 0 ++ packet.getD (k + 2) 0 ++ packet.getD (k + 1) 0 ++ packet.getD k 0

/-- `std::hash<uint32_t>`, which the standard library is free to choose. -/
abbrev StdHash := BitVec 32 → BitVec 64

/-- `driver_cuckoo_hash_get`, of which four elements are used.  The driver sets them when it adds an
    entry. -/
abbrev DriverCuckooHashGet := Fin 4 → BitVec 32

def offsetBit (hasher : StdHash) (key1 : HalRouteKey) (i : Fin 4) : BitVec 32 :=
  let offset := (hasher key1.ipSrcAddr ^^^ hasher key1.ipDstAddr).setWidth 32
  (offset >>> i.val) &&& 1

/-- `drv_cuckoo_get`.  It aborts on an index past 16 bits, after the offset was added. -/
def drvCuckooGet (hasher : StdHash) (driverCuckooHashGet : DriverCuckooHashGet) (key1 : HalRouteKey) :
    Option (Fin 4 → BitVec 32) :=
  if ∃ i, 0xffff < (driverCuckooHashGet i).toNat then none
  else some fun i => htonl (driverCuckooHashGet i + offsetBit hasher key1 i)

def packetKey (packet : List (BitVec 8)) : HalRouteKey where
  ipSrcAddr := htonl (loadUint32 26 packet)
  ipDstAddr := htonl (loadUint32 30 packet)

/-- `processPacket`: the packet that is dumped, if one is.  `none` stands for a read past the end of the
    packet, and for the call of `abort`. -/
def processPacket (hasher : StdHash) (driverCuckooHashGet : DriverCuckooHashGet) (packet : List (BitVec 8)) :
    Option (Option (List (BitVec 8))) :=
  if packet.length < 14 then none
  else if packet.getD 12 0 ++ packet.getD 13 0 ≠ ETHERTYPE_IPV4 then some none
  else if packet.length < 34 then none
  else
    let newPacket := (packet.take 34).set 23 100
    (drvCuckooGet hasher driverCuckooHashGet (packetKey packet)).map fun cuckooHashes =>
      some (newPacket ++ (List.ofFn cuckooHashes).flatMap uint32Bytes)

/-! ## What the data plane makes of it -/

/-- The sketch casts the index to this bucket, which is one of the buckets, and drops nothing of it. -/
def SelectsBucket (cuckooHashIndex : BitVec 32) (bucket : Nat) : Prop :=
  (cuckooHashIndex.setWidth 16).toNat = bucket ∧ bucket < hashBucket ∧
    (cuckooHashIndex.setWidth 16).setWidth 32 = cuckooHashIndex

/-- The parser accepts the packet and finds the addresses of the frame in it, and four hashes.  Each of them
    selects the bucket that is the driver's index with its offset. -/
structure DecodedToDriver (hasher : StdHash) (driverCuckooHashGet : DriverCuckooHashGet)
    (frame newPacket : List (BitVec 8)) : Prop where
  accepted : (ShcIngressParser (byteBits newPacket)).2 = .accept
  addresses : ∃ ipv4, (ShcIngressParser (byteBits newPacket)).1.hdr.ipv4 = some ipv4 ∧
    ipv4.srcAddr = (ipv4H ((byteBits frame).drop 112)).srcAddr ∧
    ipv4.dstAddr = (ipv4H ((byteBits frame).drop 112)).dstAddr
  buckets : ∃ own, (ShcIngressParser (byteBits newPacket)).1.hdr.cuckooHashes = some own ∧ ∀ i : Fin 4,
    SelectsBucket (cuckooHashChose own (BitVec.ofNat 2 i))
      ((driverCuckooHashGet i).toNat + (offsetBit hasher (packetKey frame) i).toNat)

def CuckooDecoded (hasher : StdHash) (driverCuckooHashGet : DriverCuckooHashGet) (frame : List (BitVec 8)) : Prop :=
  ∃ newPacket, processPacket hasher driverCuckooHashGet frame = some (some newPacket) ∧
    DecodedToDriver hasher driverCuckooHashGet frame newPacket

/-! ### Bytes of the new packet -/

/-- A number that was converted by `htonl` lies in memory with its first byte in front. -/
theorem byteBits_uint32Bytes_htonl (x : BitVec 32) : byteBits (uint32Bytes (htonl x)) = bits x := by
  rw [uint32Bytes, htonl, Agent.rteBeToCpu32, IpAddress.bytes_append, byteBits_cons, byteBits_cons, byteBits_cons,
    byteBits_cons, byteBits_nil, List.append_nil, ← List.append_assoc, ← List.append_assoc, ← bits_append,
    ← bits_append, ← bits_append]
  exact congrArg bits (IpAddress.append_extract_bytes x)

theorem byteBits_hashes (hashes : Fin 4 → BitVec 32) :
    byteBits ((List.ofFn fun i => htonl (hashes i)).flatMap uint32Bytes) =
      bits (hashes 0) ++ (bits (hashes 1) ++ (bits (hashes 2) ++ bits (hashes 3))) := by
  rw [byteBits_flatMap]
  simp [List.ofFn_succ, byteBits_uint32Bytes_htonl]

theorem cuckooHashesH_append (a b c d : BitVec 32) :
    cuckooHashesH (bits a ++ (bits b ++ (bits c ++ bits d))) = ⟨a, b, c, d⟩ := by
  have first : field 0 32 (bits a ++ (bits b ++ (bits c ++ bits d))) = a := by
    rw [field, List.drop_zero, ofBits_bits_append]
  have second : field 32 32 (bits a ++ (bits b ++ (bits c ++ bits d))) = b :=
    field_bits_append (length_bits a) b _
  have third : field 64 32 (bits a ++ (bits b ++ (bits c ++ bits d))) = c := by
    rw [← List.append_assoc]
    exact field_bits_append (by simp) c _
  have fourth : field 96 32 (bits a ++ (bits b ++ (bits c ++ bits d))) = d := by
    rw [← List.append_assoc, ← List.append_assoc, ← List.append_nil (bits d)]
    exact field_bits_append (by simp) d []
  rw [cuckooHashesH, first, second, third, fourth]

theorem ShcIngressParser_hashes {pkt : Bits} (long : 400 ≤ pkt.length)
    (isIpv4 : (ethernetH pkt).etherType = ETHERTYPE_IPV4) (hashed : (ipv4H (pkt.drop 112)).protocol = 100#8) :
    (ShcIngressParser pkt).2 = .accept ∧
      (ShcIngressParser pkt).1.hdr.ipv4 = some (ipv4H (pkt.drop 112)) ∧
      (ShcIngressParser pkt).1.hdr.cuckooHashes = some (cuckooHashesH (pkt.drop 272)) := by
  have notUdp : (ipv4H (pkt.drop 112)).protocol ≠ 17#8 := by rw [hashed]; decide
  have parsed : ShcIngressParser pkt = (⟨{ ShcHeader.invalid with
      ethernet := some (ethernetH pkt)
      ipv4 := some (ipv4H (pkt.drop 112))
      cuckooHashes := some (cuckooHashesH (pkt.drop 272)) }, 0, pkt.drop 400⟩, .accept) := by
    unfold ShcIngressParser parseEthernet
    rw [extract_of_fits (by simp only; omega), if_pos isIpv4, parseIpv4,
      extract_of_fits (by simp only [List.length_drop]; omega), if_neg notUdp, if_pos hashed, parseCuckooHashes,
      extract_of_fits (by simp only [List.length_drop]; omega)]
    simp only [List.drop_drop, Nat.reduceAdd]
  rw [parsed]
  exact ⟨rfl, rfl, rfl⟩

def writtenHash (hasher : StdHash) (driverCuckooHashGet : DriverCuckooHashGet) (frame : List (BitVec 8))
    (i : Fin 4) : BitVec 32 := driverCuckooHashGet i + offsetBit hasher (packetKey frame) i

section

variable {hasher : StdHash} {driverCuckooHashGet : DriverCuckooHashGet} {frame : List (BitVec 8)}

theorem processPacket_eq (isIpv4 : CarriesIpv4 (byteBits frame)) (long : 34 ≤ frame.length)
    (checked : ∀ i, (driverCuckooHashGet i).toNat ≤ 0xffff) :
    processPacket hasher driverCuckooHashGet frame = some (some ((frame.take 34).set 23 100 ++
      (List.ofFn fun i => htonl (writtenHash hasher driverCuckooHashGet frame i)).flatMap uint32Bytes)) := by
  have etherType : frame.getD 12 0 ++ frame.getD 13 0 = ETHERTYPE_IPV4 := by
    rw [← isIpv4]
    refine (field_halfword (k := 12) ?_ ?_).symm
    · rw [List.getD_eq_getElem?_getD, List.getElem?_eq_getElem (by omega), Option.getD_some]
    · rw [List.getD_eq_getElem?_getD, List.getElem?_eq_getElem (by omega), Option.getD_some]
  have inRange : ¬ ∃ i, 0xffff < (driverCuckooHashGet i).toNat := by
    rintro ⟨i, past⟩
    have bound := checked i
    omega
  rw [processPacket, if_neg (by omega), if_neg (not_not.mpr etherType), if_neg (by omega), drvCuckooGet,
    if_neg inRange]
  rfl

theorem newPacket_getElem? (long : 34 ≤ frame.length) (tail : List (BitVec 8)) {k : Nat} (inside : k < 34)
    (kept : k ≠ 23) : ((frame.take 34).set 23 100 ++ tail)[k]? = frame[k]? := by
  rw [List.getElem?_append_left (by rw [List.length_set, List.length_take]; omega),
    List.getElem?_set_ne (Ne.symm kept), List.getElem?_take_of_lt inside]

/-- The parser finds the addresses of the frame and the four numbers that were written. -/
theorem newPacket_parsed (isIpv4 : CarriesIpv4 (byteBits frame)) (long : 34 ≤ frame.length)
    (hashes : Fin 4 → BitVec 32) {pkt : Bits} (written : pkt = byteBits ((frame.take 34).set 23 100 ++
      (List.ofFn fun i => htonl (hashes i)).flatMap uint32Bytes)) :
    (ShcIngressParser pkt).2 = .accept ∧
      (∃ ipv4, (ShcIngressParser pkt).1.hdr.ipv4 = some ipv4 ∧
        ipv4.srcAddr = (ipv4H ((byteBits frame).drop 112)).srcAddr ∧
        ipv4.dstAddr = (ipv4H ((byteBits frame).drop 112)).dstAddr) ∧
      (ShcIngressParser pkt).1.hdr.cuckooHashes = some ⟨hashes 0, hashes 1, hashes 2, hashes 3⟩ := by
  have headers : (byteBits ((frame.take 34).set 23 100)).length = 272 := by
    rw [length_byteBits, List.length_set, List.length_take]
    omega
  have front : pkt = byteBits ((frame.take 34).set 23 100) ++
      (bits (hashes 0) ++ (bits (hashes 1) ++ (bits (hashes 2) ++ bits (hashes 3)))) := by
    rw [written, byteBits_append, byteBits_hashes]
  have kept {k n : Nat} (inside : k + n ≤ 34) (elsewhere : ∀ i < n, k + i ≠ 23) :
      field (8 * k) (8 * n) pkt = field (8 * k) (8 * n) (byteBits frame) := by
    rw [written]
    exact field_congr fun i below => newPacket_getElem? long _ (by omega) (elsewhere i below)
  have etherType : (ethernetH pkt).etherType = ETHERTYPE_IPV4 := by
    rw [← isIpv4]
    exact kept (k := 12) (n := 2) (by omega) (by omega)
  have protocol : (ipv4H (pkt.drop 112)).protocol = 100#8 := by
    have at23 : ((frame.take 34).set 23 100 ++ (List.ofFn fun i => htonl (hashes i)).flatMap uint32Bytes)[23]? =
        some 100#8 := by
      rw [List.getElem?_append_left (by rw [List.length_set, List.length_take]; omega),
        List.getElem?_set_self (by rw [List.length_take]; omega)]
      rfl
    simp only [ipv4H, field_drop, written]
    exact field_byte (k := 23) at23
  have srcAddr : (ipv4H (pkt.drop 112)).srcAddr = (ipv4H ((byteBits frame).drop 112)).srcAddr := by
    simp only [ipv4H, field_drop]
    exact kept (k := 26) (n := 4) (by omega) (by omega)
  have dstAddr : (ipv4H (pkt.drop 112)).dstAddr = (ipv4H ((byteBits frame).drop 112)).dstAddr := by
    simp only [ipv4H, field_drop]
    exact kept (k := 30) (n := 4) (by omega) (by omega)
  have whole : 400 ≤ pkt.length := by
    rw [front, List.length_append, headers]
    simp
  have tail : pkt.drop 272 = bits (hashes 0) ++ (bits (hashes 1) ++ (bits (hashes 2) ++ bits (hashes 3))) := by
    rw [front, List.drop_left' headers]
  obtain ⟨accepted, ipv4, cuckooHashes⟩ := ShcIngressParser_hashes whole etherType protocol
  rw [tail, cuckooHashesH_append] at cuckooHashes
  exact ⟨accepted, ⟨_, ipv4, srcAddr, dstAddr⟩, cuckooHashes⟩

theorem cuckooHashChose_mk (hashes : Fin 4 → BitVec 32) (i : Fin 4) :
    cuckooHashChose ⟨hashes 0, hashes 1, hashes 2, hashes 3⟩ (BitVec.ofNat 2 i) = hashes i := by
  match i with
  | 0 => rfl
  | 1 => rfl
  | 2 => rfl
  | 3 => rfl

theorem offsetBit_le (hasher : StdHash) (key1 : HalRouteKey) (i : Fin 4) : (offsetBit hasher key1 i).toNat ≤ 1 := by
  rw [offsetBit, BitVec.toNat_and]
  exact Nat.and_le_right

theorem bucket_iff (i : Fin 4) (checked : (driverCuckooHashGet i).toNat ≤ 0xffff) :
    SelectsBucket (writtenHash hasher driverCuckooHashGet frame i)
      ((driverCuckooHashGet i).toNat + (offsetBit hasher (packetKey frame) i).toNat) ↔
    (driverCuckooHashGet i).toNat < 0xffff ∨ offsetBit hasher (packetKey frame) i = 0 := by
  have bit := offsetBit_le hasher (packetKey frame) i
  have sum : (writtenHash hasher driverCuckooHashGet frame i).toNat =
      (driverCuckooHashGet i).toNat + (offsetBit hasher (packetKey frame) i).toNat := by
    rw [writtenHash, BitVec.toNat_add, Nat.mod_eq_of_lt (by omega)]
  have zero : offsetBit hasher (packetKey frame) i = 0 ↔ (offsetBit hasher (packetKey frame) i).toNat = 0 := by
    rw [← BitVec.toNat_inj]; rfl
  rw [zero, SelectsBucket, ← BitVec.toNat_inj]
  simp only [BitVec.toNat_setWidth, hashBucket, sum]
  omega

theorem cuckooDecoded_iff_written (isIpv4 : CarriesIpv4 (byteBits frame)) (long : 34 ≤ frame.length)
    (checked : ∀ i, (driverCuckooHashGet i).toNat ≤ 0xffff) :
    CuckooDecoded hasher driverCuckooHashGet frame ↔
      ∀ i, SelectsBucket (writtenHash hasher driverCuckooHashGet frame i)
        ((driverCuckooHashGet i).toNat + (offsetBit hasher (packetKey frame) i).toNat) := by
  have built : processPacket hasher driverCuckooHashGet frame = some _ := processPacket_eq isIpv4 long checked
  have chosen := cuckooHashChose_mk (writtenHash hasher driverCuckooHashGet frame)
  obtain ⟨accepted, addresses, cuckooHashes⟩ :=
    newPacket_parsed isIpv4 long (writtenHash hasher driverCuckooHashGet frame) rfl
  constructor
  · rintro ⟨newPacket, dumped, _, _, own, found, buckets⟩ i
    obtain rfl := Option.some.inj (Option.some.inj (dumped.symm.trans built))
    obtain rfl := Option.some.inj (found.symm.trans cuckooHashes)
    rw [← chosen]
    exact buckets i
  · intro buckets
    refine ⟨_, built, accepted, addresses, _, cuckooHashes, fun i => ?_⟩
    rw [chosen]
    exact buckets i

/-- The data plane decodes the packet to the driver's buckets exactly when no offset is added to the last
    index that the check lets through. -/
theorem cuckooDecoded_iff (isIpv4 : CarriesIpv4 (byteBits frame)) (long : 34 ≤ frame.length)
    (checked : ∀ i, (driverCuckooHashGet i).toNat ≤ 0xffff) :
    CuckooDecoded hasher driverCuckooHashGet frame ↔
      ∀ i, (driverCuckooHashGet i).toNat < 0xffff ∨ offsetBit hasher (packetKey frame) i = 0 := by
  rw [cuckooDecoded_iff_written isIpv4 long checked]
  exact forall_congr' fun i => bucket_iff i (checked i)

end

/-! ### The last index -/

def plainFrame : List (BitVec 8) := [
  0x02, 0, 0, 0, 0, 1, 0x02, 0, 0, 0, 0, 2, 0x08, 0x00,
  0x45, 0, 0, 20, 0, 0, 0, 0, 64, 6, 0, 0, 10, 0, 0, 1, 10, 0, 0, 2]

/-- `std::hash<uint32_t>` as a library that returns the number itself has it. -/
def identityHash : StdHash := fun x => x.setWidth 64

/-- The addresses differ in their two lowest bits, so an offset is added to the first two indices. -/
theorem lastIndex_not_decoded : CarriesIpv4 (byteBits plainFrame) ∧ 34 ≤ plainFrame.length ∧
    ¬ CuckooDecoded identityHash (fun _ => 0xffff#32) plainFrame := by
  have isIpv4 : CarriesIpv4 (byteBits plainFrame) := by decide +kernel
  have long : 34 ≤ plainFrame.length := by decide
  refine ⟨isIpv4, long, fun decoded => ?_⟩
  rw [cuckooDecoded_iff_written isIpv4 long (by decide)] at decoded
  have past : (0xffff#32).toNat + (offsetBit identityHash (packetKey plainFrame) 0).toNat = hashBucket := by
    decide +kernel
  have below := (decoded 0).2.1
  rw [past] at below
  exact Nat.lt_irrefl _ below

theorem smallIndices_decoded : CuckooDecoded identityHash (fun i => BitVec.ofNat 32 (7 * i.val)) plainFrame :=
  (cuckooDecoded_iff (by decide +kernel) (by decide) (by decide)).mpr (by decide)

end Tao.Driver
