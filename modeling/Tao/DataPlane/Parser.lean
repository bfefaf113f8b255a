import Tao.DataPlane.Headers
import Tao.Foundation.Bits

/-! # `ShcIngressParser`

The packet is what follows the intrinsic and the port metadata.  A state that cannot
extract its header rejects the packet with the headers extracted so far. -/

namespace Tao.DataPlane

open Tao.Foundation

def ETHERTYPE_IPV4 : BitVec 16 := 0x0800

/-! ## The headers at the front of a bit string -/

def ethernetH (l : Bits) : EthernetH where
  dstAddr := field 0 48 l
  srcAddr := field 48 48 l
  etherType := field 96 16 l

def ipv4H (l : Bits) : Ipv4H where
  version := field 0 4 l
  ihl := field 4 4 l
  dscp := field 8 6 l
  ecn := field 14 2 l
  totalLen := field 16 16 l
  identification := field 32 16 l
  flags := field 48 3 l
  fragOffset := field 51 13 l
  ttl := field 64 8 l
  protocol := field 72 8 l
  hdrChecksum := field 80 16 l
  srcAddr := field 96 32 l
  dstAddr := field 128 32 l

def udpH (l : Bits) : UdpH where
  srcPort := field 0 16 l
  dstPort := field 16 16 l
  length := field 32 16 l
  checksum := field 48 16 l

def vxlanH (l : Bits) : VxlanH where
  flags := field 0 8 l
  reserved := field 8 24 l
  vni := field 32 24 l
  reserved2 := field 56 8 l

def cuckooHashesH (l : Bits) : CuckooHashesH where
  cuckooHash1 := field 0 32 l
  cuckooHash2 := field 32 32 l
  cuckooHash3 := field 64 32 l
  cuckooHash4 := field 96 32 l

/-! ## The parse graph -/

def ShcHeader.invalid : ShcHeader where
  ethernet := none
  ipv4 := none
  udp := none
  vxlan := none
  innerEthernet := none
  innerIpv4 := none
  cuckooHashes := none

inductive Verdict where
  | accept
  | reject
  deriving DecidableEq

/-- The headers that a parser has extracted so far, the metadata, and the rest of the packet. -/
structure ParserStateOf (Hdr Md : Type) where
  hdr : Hdr
  md : Md
  payload : Bits

/-- `pkt.extract` of a header of `width` bits, and what the state does with it. -/
def extract {Hdr Md H : Type} (width : Nat) (decode : Bits → H)
    (next : H → ParserStateOf Hdr Md → ParserStateOf Hdr Md × Verdict) (s : ParserStateOf Hdr Md) :
    ParserStateOf Hdr Md × Verdict :=
  if width ≤ s.payload.length then
    next (decode s.payload) { s with payload := s.payload.drop width }
  else (s, .reject)

section Extract

variable {Hdr Md H : Type} {width : Nat} {decode : Bits → H}
  {next : H → ParserStateOf Hdr Md → ParserStateOf Hdr Md × Verdict} {s : ParserStateOf Hdr Md}

theorem extract_of_fits (fits : width ≤ s.payload.length) :
    extract width decode next s = next (decode s.payload) { s with payload := s.payload.drop width } :=
  if_pos fits

theorem extract_accepted (accepted : (extract width decode next s).2 = .accept) :
    width ≤ s.payload.length ∧
      extract width decode next s = next (decode s.payload) { s with payload := s.payload.drop width } := by
  unfold extract at accepted ⊢
  split at accepted
  · next fits => exact ⟨fits, if_pos fits⟩
  · cases accepted

theorem extract_emit {encode : H → Bits} {h : H} {hdr : Hdr} {md : Md} {rest : Bits}
    (reads : decode (encode h ++ rest) = h) (covers : (encode h).length = width) :
    extract width decode next ⟨hdr, md, encode h ++ rest⟩ = next h ⟨hdr, md, rest⟩ := by
  rw [extract_of_fits (by simp [covers])]
  simp only [reads, List.drop_left' covers]

end Extract

/-- The only metadata that the parser sets is `ig_md.vni`. -/
abbrev ParserState := ParserStateOf ShcHeader Vni

abbrev ParserResult := ParserState × Verdict

def parseCuckooHashes : ParserState → ParserResult :=
  extract 128 cuckooHashesH fun cuckooHashes s =>
    ({ s with hdr := { s.hdr with cuckooHashes := some cuckooHashes } }, .accept)

def parseInnerIpv4 : ParserState → ParserResult :=
  extract 160 ipv4H fun innerIpv4 s =>
    let s := { s with hdr := { s.hdr with innerIpv4 := some innerIpv4 } }
    if innerIpv4.protocol = 100#8 then parseCuckooHashes s else (s, .accept)

def parseInnerEthernet : ParserState → ParserResult :=
  extract 112 ethernetH fun innerEthernet s =>
    let s := { s with hdr := { s.hdr with innerEthernet := some innerEthernet } }
    if innerEthernet.etherType = ETHERTYPE_IPV4 then parseInnerIpv4 s else (s, .accept)

def parseVxlan : ParserState → ParserResult :=
  extract 64 vxlanH fun vxlan s =>
    parseInnerEthernet { s with hdr := { s.hdr with vxlan := some vxlan }, md := vxlan.vni }

def parseUdp : ParserState → ParserResult :=
  extract 64 udpH fun udp s =>
    let s := { s with hdr := { s.hdr with udp := some udp } }
    if udp.dstPort = 4789#16 then parseVxlan s else (s, .accept)

def parseIpv4 : ParserState → ParserResult :=
  extract 160 ipv4H fun ipv4 s =>
    let s := { s with hdr := { s.hdr with ipv4 := some ipv4 } }
    if ipv4.protocol = 17#8 then parseUdp s
    else if ipv4.protocol = 100#8 then parseCuckooHashes s
    else (s, .accept)

def parseEthernet : ParserState → ParserResult :=
  extract 112 ethernetH fun ethernet s =>
    let s := { s with hdr := { s.hdr with ethernet := some ethernet } }
    if ethernet.etherType = ETHERTYPE_IPV4 then parseIpv4 s else (s, .accept)

def ShcIngressParser (pkt : Bits) : ParserResult := parseEthernet ⟨.invalid, 0, pkt⟩

/-! ## What a packet carries -/

abbrev CarriesIpv4 (pkt : Bits) : Prop := (ethernetH pkt).etherType = ETHERTYPE_IPV4

abbrev CarriesUdp (pkt : Bits) : Prop := CarriesIpv4 pkt ∧ (ipv4H (pkt.drop 112)).protocol = 17#8

abbrev CarriesVxlan (pkt : Bits) : Prop := CarriesUdp pkt ∧ (udpH (pkt.drop 272)).dstPort = 4789#16

abbrev CarriesInnerIpv4 (pkt : Bits) : Prop :=
  CarriesVxlan pkt ∧ (ethernetH (pkt.drop 400)).etherType = ETHERTYPE_IPV4

abbrev CarriesOuterHashes (pkt : Bits) : Prop := CarriesIpv4 pkt ∧ (ipv4H (pkt.drop 112)).protocol = 100#8

abbrev CarriesInnerHashes (pkt : Bits) : Prop := CarriesInnerIpv4 pkt ∧ (ipv4H (pkt.drop 512)).protocol = 100#8

def headersOf (pkt : Bits) : ShcHeader where
  ethernet := some (ethernetH pkt)
  ipv4 := if CarriesIpv4 pkt then some (ipv4H (pkt.drop 112)) else none
  udp := if CarriesUdp pkt then some (udpH (pkt.drop 272)) else none
  vxlan := if CarriesVxlan pkt then some (vxlanH (pkt.drop 336)) else none
  innerEthernet := if CarriesVxlan pkt then some (ethernetH (pkt.drop 400)) else none
  innerIpv4 := if CarriesInnerIpv4 pkt then some (ipv4H (pkt.drop 512)) else none
  cuckooHashes :=
    if CarriesInnerHashes pkt then some (cuckooHashesH (pkt.drop 672))
    else if CarriesOuterHashes pkt then some (cuckooHashesH (pkt.drop 272))
    else none

def headersLength (pkt : Bits) : Nat :=
  if CarriesInnerHashes pkt then 800
  else if CarriesInnerIpv4 pkt then 672
  else if CarriesVxlan pkt then 512
  else if CarriesUdp pkt then 336
  else if CarriesOuterHashes pkt then 400
  else if CarriesIpv4 pkt then 272
  else 112

/-- An accepted packet follows one path of the parse graph: one case for each place
    where the parser can stop. -/
theorem parsed_of_accepted {pkt : Bits} (accepted : (ShcIngressParser pkt).2 = .accept) :
    (ShcIngressParser pkt).1.hdr = headersOf pkt ∧
      (ShcIngressParser pkt).1.payload = pkt.drop (headersLength pkt) ∧ headersLength pkt ≤ pkt.length := by
  simp only [headersOf, headersLength, CarriesInnerHashes, CarriesOuterHashes, CarriesInnerIpv4, CarriesVxlan,
    CarriesUdp, CarriesIpv4]
  unfold ShcIngressParser parseEthernet at *
  obtain ⟨fits, parsed⟩ := extract_accepted accepted
  rw [parsed] at accepted ⊢
  by_cases isIpv4 : (ethernetH pkt).etherType = ETHERTYPE_IPV4
  case neg => simp [isIpv4, ShcHeader.invalid, fits]
  rw [if_pos isIpv4, parseIpv4] at accepted ⊢
  obtain ⟨fits, parsed⟩ := extract_accepted accepted
  rw [parsed] at accepted ⊢
  simp only [List.drop_drop, List.length_drop, Nat.reduceAdd] at accepted fits ⊢
  by_cases isUdp : (ipv4H (pkt.drop 112)).protocol = 17#8
  case neg =>
    rw [if_neg isUdp] at accepted ⊢
    by_cases hashed : (ipv4H (pkt.drop 112)).protocol = 100#8
    case neg =>
      simp [isIpv4, isUdp, hashed, ShcHeader.invalid]
      omega
    rw [if_pos hashed, parseCuckooHashes] at accepted ⊢
    obtain ⟨fits, parsed⟩ := extract_accepted accepted
    rw [parsed]
    simp only [List.length_drop] at fits
    simp [isIpv4, hashed, ShcHeader.invalid]
    omega
  rw [if_pos isUdp, parseUdp] at accepted ⊢
  obtain ⟨fits, parsed⟩ := extract_accepted accepted
  rw [parsed] at accepted ⊢
  simp only [List.drop_drop, List.length_drop, Nat.reduceAdd] at accepted fits ⊢
  by_cases isVxlan : (udpH (pkt.drop 272)).dstPort = 4789#16
  case neg =>
    simp [isIpv4, isUdp, isVxlan, ShcHeader.invalid]
    omega
  rw [if_pos isVxlan, parseVxlan] at accepted ⊢
  obtain ⟨fits, parsed⟩ := extract_accepted accepted
  rw [parsed] at accepted ⊢
  rw [parseInnerEthernet] at accepted ⊢
  obtain ⟨fits, parsed⟩ := extract_accepted accepted
  rw [parsed] at accepted ⊢
  simp only [List.drop_drop, List.length_drop, Nat.reduceAdd] at accepted fits ⊢
  by_cases isInner : (ethernetH (pkt.drop 400)).etherType = ETHERTYPE_IPV4
  case neg =>
    simp [isIpv4, isUdp, isVxlan, isInner, ShcHeader.invalid]
    omega
  rw [if_pos isInner, parseInnerIpv4] at accepted ⊢
  obtain ⟨fits, parsed⟩ := extract_accepted accepted
  rw [parsed] at accepted ⊢
  simp only [List.drop_drop, List.length_drop, Nat.reduceAdd] at accepted fits ⊢
  by_cases hashed : (ipv4H (pkt.drop 512)).protocol = 100#8
  case neg =>
    simp [isIpv4, isUdp, isVxlan, isInner, hashed, ShcHeader.invalid]
    omega
  rw [if_pos hashed, parseCuckooHashes] at accepted ⊢
  obtain ⟨fits, parsed⟩ := extract_accepted accepted
  rw [parsed]
  simp only [List.length_drop] at fits
  simp [isIpv4, isUdp, isVxlan, isInner, hashed]
  omega

end Tao.DataPlane
