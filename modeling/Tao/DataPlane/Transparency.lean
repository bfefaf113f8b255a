import Tao.DataPlane.Deparser

/-! # What the pipeline sends on

The headers of an accepted packet, written back in order, are its front part.  What the
deparser sends differs from it by the hashes that it leaves out and by the checksums that
it computes again. -/

namespace Tao.DataPlane

open Tao.Foundation

/-! ## A header is written back as the bits it was read from -/

theorem emit_ethernetH {l : Bits} (fits : 112 ≤ l.length) : (ethernetH l).emit = slice 0 112 l := by
  simp (disch := omega) only [EthernetH.emit, ethernetH, bits_field]
  rw [slice_append 0 48 48, slice_append 0 96 16]

theorem emit_ipv4H {l : Bits} (fits : 160 ≤ l.length) : (ipv4H l).emit = slice 0 160 l := by
  simp (disch := omega) only [Ipv4H.emit, ipv4H, bits_field]
  rw [slice_append 0 4 4, slice_append 0 8 6, slice_append 0 14 2, slice_append 0 16 16,
    slice_append 0 32 16, slice_append 0 48 3, slice_append 0 51 13, slice_append 0 64 8,
    slice_append 0 72 8, slice_append 0 80 16, slice_append 0 96 32, slice_append 0 128 32]

theorem emit_udpH {l : Bits} (fits : 64 ≤ l.length) : (udpH l).emit = slice 0 64 l := by
  simp (disch := omega) only [UdpH.emit, udpH, bits_field]
  rw [slice_append 0 16 16, slice_append 0 32 16, slice_append 0 48 16]

theorem emit_vxlanH {l : Bits} (fits : 64 ≤ l.length) : (vxlanH l).emit = slice 0 64 l := by
  simp (disch := omega) only [VxlanH.emit, vxlanH, bits_field]
  rw [slice_append 0 8 24, slice_append 0 32 24, slice_append 0 56 8]

theorem emit_cuckooHashesH {l : Bits} (fits : 128 ≤ l.length) : (cuckooHashesH l).emit = slice 0 128 l := by
  simp (disch := omega) only [CuckooHashesH.emit, cuckooHashesH, bits_field]
  rw [slice_append 0 32 32, slice_append 0 64 32, slice_append 0 96 32]

theorem emit_append_drop {H : Type} {encode : H → Bits} {decode : Bits → H} {width : Nat}
    (writes : ∀ {l : Bits}, width ≤ l.length → encode (decode l) = slice 0 width l)
    {l : Bits} (offset : Nat) (fits : offset + width ≤ l.length) :
    encode (decode (l.drop offset)) ++ l.drop (offset + width) = l.drop offset := by
  rw [writes (by rw [List.length_drop]; omega), ← List.drop_drop, slice_zero_append_drop]

/-- The headers and what follows them make the packet again: one case for each place where the
    parser can stop. -/
theorem headers_then_payload {pkt : Bits} (fits : headersLength pkt ≤ pkt.length) :
    (headersOf pkt).emit ++ emit CuckooHashesH.emit (headersOf pkt).cuckooHashes ++ pkt.drop (headersLength pkt) =
      pkt := by
  simp only [headersOf, headersLength, CarriesInnerHashes, CarriesOuterHashes, CarriesInnerIpv4, CarriesVxlan,
    CarriesUdp, CarriesIpv4, ShcHeader.emit] at fits ⊢
  have ethernet (enough : 112 ≤ pkt.length) : (ethernetH pkt).emit ++ pkt.drop 112 = pkt := by
    rw [emit_ethernetH enough, slice_zero_append_drop]
  have ipv4 := emit_append_drop emit_ipv4H (l := pkt) 112
  by_cases isIpv4 : (ethernetH pkt).etherType = ETHERTYPE_IPV4
  case neg =>
    simp [isIpv4, emit] at fits ⊢
    exact ethernet fits
  by_cases isUdp : (ipv4H (pkt.drop 112)).protocol = 17#8
  case neg =>
    by_cases hashed : (ipv4H (pkt.drop 112)).protocol = 100#8
    case neg =>
      simp [isIpv4, isUdp, hashed, emit] at fits ⊢
      rw [ipv4 fits, ethernet (by omega)]
    simp [isIpv4, hashed, emit] at fits ⊢
    rw [emit_append_drop emit_cuckooHashesH 272 fits, ipv4 (by omega), ethernet (by omega)]
  have udp := emit_append_drop emit_udpH (l := pkt) 272
  by_cases isVxlan : (udpH (pkt.drop 272)).dstPort = 4789#16
  case neg =>
    simp [isIpv4, isUdp, isVxlan, emit] at fits ⊢
    rw [udp fits, ipv4 (by omega), ethernet (by omega)]
  have vxlan := emit_append_drop emit_vxlanH (l := pkt) 336
  have innerEthernet := emit_append_drop emit_ethernetH (l := pkt) 400
  by_cases isInner : (ethernetH (pkt.drop 400)).etherType = ETHERTYPE_IPV4
  case neg =>
    simp [isIpv4, isUdp, isVxlan, isInner, emit] at fits ⊢
    rw [innerEthernet fits, vxlan (by omega), udp (by omega), ipv4 (by omega), ethernet (by omega)]
  have innerIpv4 := emit_append_drop emit_ipv4H (l := pkt) 512
  by_cases hashed : (ipv4H (pkt.drop 512)).protocol = 100#8
  case neg =>
    simp [isIpv4, isUdp, isVxlan, isInner, hashed, emit] at fits ⊢
    rw [innerIpv4 fits, innerEthernet (by omega), vxlan (by omega), udp (by omega), ipv4 (by omega),
      ethernet (by omega)]
  simp [isIpv4, isUdp, isVxlan, isInner, hashed, emit] at fits ⊢
  rw [emit_append_drop emit_cuckooHashesH 672 fits, innerIpv4 (by omega), innerEthernet (by omega),
    vxlan (by omega), udp (by omega), ipv4 (by omega), ethernet (by omega)]

/-! ## Checksums -/

/-- A checksum that receivers accept: the words of the whole header, `ihl` times 4 bytes, sum to
    all ones. -/
def ChecksumCorrect (header : Bits) : Prop :=
  32 * (ipv4H header).ihl.toNat ≤ header.length ∧ SumsToOnes (words (2 * (ipv4H header).ihl.toNat) header)

/-- The words by which the header and its first 20 bytes differ: the options of a header longer
    than that. -/
def unsummedWords (header : Bits) : List Nat :=
  let ihl := (ipv4H header).ihl.toNat
  if 5 ≤ ihl then words (2 * ihl - 10) (header.drop 160) else words (10 - 2 * ihl) (header.drop (32 * ihl))

def OptionsCancel (header : Bits) : Prop := (unsummedWords header).sum % 65535 = 0

/-- The checksum that 20 bytes have is the one the header came with. -/
def ChecksumKept (header : Bits) : Prop := OptionsCancel header ∧ (ipv4H header).hdrChecksum ≠ 0xFFFF#16

instance (header : Bits) : Decidable (ChecksumCorrect header) := inferInstanceAs (Decidable (_ ∧ _))
instance (header : Bits) : Decidable (OptionsCancel header) := inferInstanceAs (Decidable (_ = _))
instance (header : Bits) : Decidable (ChecksumKept header) := inferInstanceAs (Decidable (_ ∧ _))

theorem checksumFields_ipv4H {l : Bits} (fits : 160 ≤ l.length) :
    (ipv4H l).checksumFields = slice 0 80 l ++ slice 96 64 l := by
  simp (disch := omega) only [Ipv4H.checksumFields, ipv4H, bits_field]
  rw [slice_append 0 4 4, slice_append 0 8 6, slice_append 0 14 2, slice_append 0 16 16,
    slice_append 0 32 16, slice_append 0 48 3, slice_append 0 51 13, slice_append 0 64 8,
    slice_append 0 72 8, List.append_assoc, slice_append 96 32 32]

theorem words_checksumFields {l : Bits} (fits : 160 ≤ l.length) :
    words ((ipv4H l).checksumFields.length / 16) (ipv4H l).checksumFields = words 5 l ++ words 4 (l.drop 96) := by
  have front : (slice 0 80 l).length = 80 := length_slice (by omega)
  have back : (slice 96 64 l).length = 64 := length_slice (by omega)
  rw [checksumFields_ipv4H fits, List.length_append, front, back]
  rw [words_append (m := 5) front 4, words_slice 5 0, words_slice 4 96, List.drop_zero]

/-- The first ten words are the nine that the deparser sums and the checksum itself. -/
theorem sum_words_ten (l : Bits) :
    (words 10 l).sum = (words 5 l ++ words 4 (l.drop 96)).sum + (ipv4H l).hdrChecksum.toNat := by
  have split : words 10 l = words 5 l ++ (field 0 16 (l.drop 80)).toNat :: words 4 ((l.drop 80).drop 16) :=
    words_add 5 5 l
  have checksum : (ipv4H l).hdrChecksum = field 0 16 (l.drop 80) := (field_drop 0 16 80 l).symm
  rw [List.drop_drop] at split
  rw [split, checksum, List.sum_append, List.sum_append, List.sum_cons]
  simp only [Nat.reduceAdd]
  omega

/-- Words outside the first 20 bytes, or missing from them, do not count when they sum to a
    multiple of 65535. -/
theorem optionsCancel_iff {header : Bits} (correct : ChecksumCorrect header) :
    OptionsCancel header ↔ (words 10 header).sum % 65535 = 0 := by
  obtain ⟨_, total⟩ := correct
  have multiple := ((sumsToOnes_iff fun word => word_le).mp total).2
  simp only [OptionsCancel, unsummedWords]
  split
  · next long =>
    have split := words_add 10 (2 * (ipv4H header).ihl.toNat - 10) header
    rw [Nat.add_sub_cancel' (by omega)] at split
    rw [split, List.sum_append] at multiple
    simp only [Nat.reduceMul] at multiple
    omega
  · next short =>
    have split := words_add (2 * (ipv4H header).ihl.toNat) (10 - 2 * (ipv4H header).ihl.toNat) header
    rw [Nat.add_sub_cancel' (by omega), ← Nat.mul_assoc] at split
    rw [split, List.sum_append]
    simp only [Nat.reduceMul]
    omega

theorem ihl_pos_of_correct {header : Bits} (correct : ChecksumCorrect header) : (ipv4H header).ihl ≠ 0 := by
  intro zero
  have positive := ((sumsToOnes_iff fun word => word_le).mp correct.2).1
  rw [zero] at positive
  exact Nat.lt_irrefl 0 positive

theorem updateChecksum_eq_iff {header : Bits} (fits : 160 ≤ header.length) (correct : ChecksumCorrect header) :
    (ipv4H header).updateChecksum = ipv4H header ↔ ChecksumKept header := by
  have small : ∀ word ∈ words 5 header ++ words 4 (header.drop 96), word ≤ 65535 := by
    intro word member
    rcases List.mem_append.mp member with front | back
    · exact word_le front
    · exact word_le back
  -- the first word holds `ihl`, so the nine words do not all vanish
  have positive : 0 < (words 5 header ++ words 4 (header.drop 96)).sum := by
    have first : field 0 16 header ≠ 0 := fun zero =>
      ihl_pos_of_correct correct (field_eq_zero (by omega) (by omega) (by omega) zero)
    have nonzero : (field 0 16 header).toNat ≠ 0 := fun zero => first (BitVec.eq_of_toNat_eq zero)
    rw [List.sum_append, words, List.sum_cons]
    omega
  have changed : (ipv4H header).updateChecksum = ipv4H header ↔
      checksumUpdate (ipv4H header).checksumFields = (ipv4H header).hdrChecksum := by
    simp [Ipv4H.updateChecksum, ipv4H]
  have computed (ws : List Nat) (c : BitVec 16) :
      BitVec.ofNat 16 (internetChecksum ws) = c ↔ internetChecksum ws = c.toNat := by
    have bound : internetChecksum ws < 2 ^ 16 := by unfold internetChecksum; omega
    rw [← BitVec.toNat_inj, BitVec.toNat_ofNat, Nat.mod_eq_of_lt bound]
  have allOnes : (ipv4H header).hdrChecksum.toNat ≠ 65535 ↔ (ipv4H header).hdrChecksum ≠ 0xFFFF#16 :=
    not_congr (BitVec.toNat_inj (y := 0xFFFF#16))
  rw [changed, checksumUpdate, words_checksumFields fits, computed,
    internetChecksum_eq_iff small positive (Nat.le_of_lt_succ (ipv4H header).hdrChecksum.isLt),
    ← sum_words_ten, ChecksumKept, optionsCancel_iff correct, allOnes, and_comm]

/-! ## What the deparser emits -/

theorem length_emit_update (ipv4 : Option Ipv4H) :
    (emit Ipv4H.emit (ipv4.map Ipv4H.updateChecksum)).length = (emit Ipv4H.emit ipv4).length := by
  cases ipv4 with
  | none => rfl
  | some h => simp [emit, Ipv4H.emit]

theorem emit_update_iff (ipv4 : Option Ipv4H) :
    emit Ipv4H.emit (ipv4.map Ipv4H.updateChecksum) = emit Ipv4H.emit ipv4 ↔
      ipv4.map Ipv4H.updateChecksum = ipv4 := by
  constructor
  · intro same
    cases ipv4 with
    | none => rfl
    | some h =>
      -- everything but the checksum is there on both sides
      have checksum : h.updateChecksum.hdrChecksum = h.hdrChecksum :=
        bits_injective (by simpa [emit, Ipv4H.emit, Ipv4H.updateChecksum] using same)
      exact congrArg (fun c => some { h with hdrChecksum := c }) checksum
  · intro same
    rw [same]

/-- The emitted bits are the headers' own exactly when there are no hashes to leave out and no
    checksum changes. -/
theorem emitted_iff (hdr : ShcHeader) :
    hdr.updateChecksums.emit = hdr.emit ++ emit CuckooHashesH.emit hdr.cuckooHashes ↔
      hdr.cuckooHashes = none ∧ hdr.ipv4.map Ipv4H.updateChecksum = hdr.ipv4 ∧
        hdr.innerIpv4.map Ipv4H.updateChecksum = hdr.innerIpv4 := by
  have sameLength : hdr.updateChecksums.emit.length = hdr.emit.length := by
    simp [ShcHeader.updateChecksums, ShcHeader.emit, length_emit_update]
  constructor
  · intro same
    have noHashes : hdr.cuckooHashes = none := by
      have lengths := congrArg List.length same
      rw [List.length_append, sameLength] at lengths
      cases carried : hdr.cuckooHashes with
      | none => rfl
      | some hashes => simp [carried, emit, CuckooHashesH.emit] at lengths
    rw [noHashes, emit, List.append_nil, ShcHeader.emit, ShcHeader.emit] at same
    obtain ⟨front, inner⟩ := List.append_inj' same (length_emit_update hdr.innerIpv4)
    have outer := List.append_cancel_left (List.append_cancel_right (List.append_cancel_right
      (List.append_cancel_right front)))
    exact ⟨noHashes, (emit_update_iff hdr.ipv4).mp outer, (emit_update_iff hdr.innerIpv4).mp inner⟩
  · rintro ⟨noHashes, outer, inner⟩
    rw [noHashes, emit, List.append_nil, ShcHeader.updateChecksums, outer, inner]

theorem pipeline_sent {hashes : HashUnits} {regs : SketchRegisters} {routeTbl : RouteTbl}
    {ingressPort : PortId} {pkt : Bits} (accepted : (ShcIngressParser pkt).2 = .accept) :
    (shcIngressPipeline hashes regs routeTbl ingressPort pkt).map (·.sent) =
      some ((headersOf pkt).updateChecksums.emit ++ pkt.drop (headersLength pkt)) := by
  obtain ⟨headers, payload, _⟩ := parsed_of_accepted accepted
  unfold shcIngressPipeline
  split
  · next rejected => rw [rejected] at accepted; cases accepted
  · next parsed eq =>
    rw [eq] at headers payload
    rw [← headers, ← payload]
    rfl

theorem headersOf_cuckooHashes (pkt : Bits) :
    (headersOf pkt).cuckooHashes = none ↔ ¬CarriesOuterHashes pkt ∧ ¬CarriesInnerHashes pkt := by
  simp only [headersOf]
  split
  · next inner => simp [inner]
  · next noInner =>
    split
    · next outer => simp [outer]
    · next noOuter => simp [noOuter, noInner]

theorem le_headersLength_of_ipv4 {pkt : Bits} (carried : CarriesIpv4 pkt) : 272 ≤ headersLength pkt := by
  unfold headersLength
  split_ifs <;> omega

theorem le_headersLength_of_innerIpv4 {pkt : Bits} (carried : CarriesInnerIpv4 pkt) : 672 ≤ headersLength pkt := by
  unfold headersLength
  split_ifs <;> omega

/-- An IPv4 header that may be there is unchanged when its checksum is kept if it is there. -/
theorem updateChecksum_parsed_iff {carried : Prop} [Decidable carried] {header : Bits}
    (fits : carried → 160 ≤ header.length) (correct : carried → ChecksumCorrect header) :
    (if carried then some (ipv4H header) else none).map Ipv4H.updateChecksum =
        (if carried then some (ipv4H header) else none) ↔
      (carried → ChecksumKept header) := by
  by_cases there : carried
  · simp [there, updateChecksum_eq_iff (fits there) (correct there)]
  · simp [there]

/-- An accepted packet with correct checksums is sent on as it came exactly when it carries no
    hashes and every checksum is the one its first 20 bytes have. -/
theorem transparent_iff (hashes : HashUnits) (regs : SketchRegisters) (routeTbl : RouteTbl)
    (ingressPort : PortId) (pkt : Bits) (accepted : (ShcIngressParser pkt).2 = .accept)
    (outerCorrect : CarriesIpv4 pkt → ChecksumCorrect (pkt.drop 112))
    (innerCorrect : CarriesInnerIpv4 pkt → ChecksumCorrect (pkt.drop 512)) :
    (shcIngressPipeline hashes regs routeTbl ingressPort pkt).map (·.sent) = some pkt ↔
      (¬CarriesOuterHashes pkt ∧ ¬CarriesInnerHashes pkt) ∧
        (CarriesIpv4 pkt → ChecksumKept (pkt.drop 112)) ∧
        (CarriesInnerIpv4 pkt → ChecksumKept (pkt.drop 512)) := by
  obtain ⟨_, _, fits⟩ := parsed_of_accepted accepted
  have whole := headers_then_payload fits
  have sent : (headersOf pkt).updateChecksums.emit ++ pkt.drop (headersLength pkt) = pkt ↔
      (headersOf pkt).updateChecksums.emit =
        (headersOf pkt).emit ++ emit CuckooHashesH.emit (headersOf pkt).cuckooHashes := by
    conv_lhs => rhs; rw [← whole]
    exact List.append_left_inj _
  have outerFits (carried : CarriesIpv4 pkt) : 160 ≤ (pkt.drop 112).length := by
    have := le_headersLength_of_ipv4 carried
    rw [List.length_drop]
    omega
  have innerFits (carried : CarriesInnerIpv4 pkt) : 160 ≤ (pkt.drop 512).length := by
    have := le_headersLength_of_innerIpv4 carried
    rw [List.length_drop]
    omega
  rw [pipeline_sent accepted, Option.some_inj, sent, emitted_iff, headersOf_cuckooHashes]
  exact and_congr_right' (and_congr (updateChecksum_parsed_iff outerFits outerCorrect)
    (updateChecksum_parsed_iff innerFits innerCorrect))

/-- From 10.0.0.1 to 10.0.0.2 over TCP, with four bytes of options. -/
def optionsPacket : Bits :=
  bits 0x000000000002#48 ++ bits 0x000000000001#48 ++ bits 0x0800#16 ++
    bits 0x46000018000000004006#80 ++ bits 0x63DC#16 ++ bits 0x0A0000010A000002#64 ++ bits 0x01010101#32

/-- The same addresses over protocol 100, with four hashes. -/
def hashesPacket : Bits :=
  bits 0x000000000002#48 ++ bits 0x000000000001#48 ++ bits 0x0800#16 ++
    bits 0x45000024000000004064#80 ++ bits 0x6674#16 ++ bits 0x0A0000010A000002#64 ++
    bits 0x00000001000000020000000300000004#128

/-- The same addresses over TCP and nothing else. -/
def plainPacket : Bits :=
  bits 0x000000000002#48 ++ bits 0x000000000001#48 ++ bits 0x0800#16 ++
    bits 0x45000014000000004006#80 ++ bits 0x66E2#16 ++ bits 0x0A0000010A000002#64

example : (headersOf hashesPacket).cuckooHashes = some ⟨1, 2, 3, 4⟩ := by decide +kernel

theorem plain_packet_transparent :
    (shcIngressPipeline ⟨fun _ _ => 0, fun _ _ => 0⟩ .initial ∅ 1 plainPacket).map (·.sent) = some plainPacket :=
  (transparent_iff _ _ _ _ plainPacket (by decide +kernel) (fun _ => by decide +kernel)
    (fun inner => absurd inner (by decide +kernel))).mpr
    ⟨by decide +kernel, fun _ => by decide +kernel, fun inner => absurd inner (by decide +kernel)⟩

/-- Both packets are accepted with a correct checksum; neither is sent on as it came. -/
theorem not_always_transparent :
    ((ShcIngressParser optionsPacket).2 = .accept ∧ ChecksumCorrect (optionsPacket.drop 112) ∧
        ¬CarriesInnerIpv4 optionsPacket ∧
      (shcIngressPipeline ⟨fun _ _ => 0, fun _ _ => 0⟩ .initial ∅ 1 optionsPacket).map (·.sent) ≠
        some optionsPacket) ∧
    ((ShcIngressParser hashesPacket).2 = .accept ∧ ChecksumCorrect (hashesPacket.drop 112) ∧
        ¬CarriesInnerIpv4 hashesPacket ∧
      (shcIngressPipeline ⟨fun _ _ => 0, fun _ _ => 0⟩ .initial ∅ 1 hashesPacket).map (·.sent) ≠
        some hashesPacket) := by
  have options : (ShcIngressParser optionsPacket).2 = .accept := by decide +kernel
  have hashes : (ShcIngressParser hashesPacket).2 = .accept := by decide +kernel
  refine ⟨⟨options, by decide +kernel, by decide +kernel, ?_⟩, hashes, by decide +kernel, by decide +kernel, ?_⟩
  · rw [pipeline_sent options]
    decide +kernel
  · rw [pipeline_sent hashes]
    decide +kernel

end Tao.DataPlane
