import Tao.Agent.VxlanRcv
import Tao.DataPlane.Parser

/-! # VXLAN on the fast path and on the slow path

The parser of the switch and the receive path of the agent take VXLAN packets apart
independently of each other.  The parser takes every header for 20 bytes long and every
fragment for a first one. -/

namespace Tao.Offload

open Tao.Foundation Tao.Agent Tao.DataPlane

/-- The VNI that `parse_vxlan` extracts, when the parser reaches it. -/
def parsedVni (frame : Bits) : Option Vni :=
  let parsed := (ShcIngressParser frame).1
  parsed.hdr.vxlan.map fun _ => parsed.md

/-! ## The states after `parse_vxlan` -/

/-- The VXLAN header and the VNI are the same after a step of the parser. -/
def KeepsVni (s : ParserState) (result : ParserResult) : Prop :=
  result.1.hdr.vxlan = s.hdr.vxlan ∧ result.1.md = s.md

theorem extract_keepsVni {H : Type} {width : Nat} {decode : Bits → H} {next : H → ParserState → ParserResult}
    (keeps : ∀ h s, KeepsVni s (next h s)) (s : ParserState) : KeepsVni s (extract width decode next s) := by
  unfold extract
  split
  · exact keeps (decode s.payload) { s with payload := s.payload.drop width }
  · exact ⟨rfl, rfl⟩

theorem parseCuckooHashes_keepsVni : ∀ s, KeepsVni s (parseCuckooHashes s) :=
  extract_keepsVni fun _ _ => ⟨rfl, rfl⟩

theorem parseInnerIpv4_keepsVni : ∀ s, KeepsVni s (parseInnerIpv4 s) :=
  extract_keepsVni fun innerIpv4 s => by
    dsimp only
    split
    · exact parseCuckooHashes_keepsVni { s with hdr := { s.hdr with innerIpv4 := some innerIpv4 } }
    · exact ⟨rfl, rfl⟩

theorem parseInnerEthernet_keepsVni : ∀ s, KeepsVni s (parseInnerEthernet s) :=
  extract_keepsVni fun innerEthernet s => by
    dsimp only
    split
    · exact parseInnerIpv4_keepsVni { s with hdr := { s.hdr with innerEthernet := some innerEthernet } }
    · exact ⟨rfl, rfl⟩

theorem parseVxlan_vni {s : ParserState} (fits : 64 ≤ s.payload.length) :
    (parseVxlan s).1.hdr.vxlan.map (fun _ => (parseVxlan s).1.md) = some (vxlanH s.payload).vni := by
  rw [parseVxlan, extract_of_fits fits]
  dsimp only
  obtain ⟨vxlan, vni⟩ := parseInnerEthernet_keepsVni
    { s with hdr := { s.hdr with vxlan := some (vxlanH s.payload) }, md := (vxlanH s.payload).vni,
             payload := s.payload.drop 64 }
  rw [vxlan, vni]
  rfl

/-! ## Both paths in terms of the IP packet -/

def ipPacket (frame : Bits) : Bits := frame.drop 112

/-- The parser classifies by the bytes that follow a header of 20 bytes. -/
theorem parsedVni_eq {frame : Bits} (isIpv4 : CarriesIpv4 frame) (headers : 288 ≤ (ipPacket frame).length) :
    parsedVni frame =
      if isUdp (ipPacket frame) ∧ udpDstPort 20 (ipPacket frame) = 4789#16 then some (vxlanVni 20 (ipPacket frame))
      else none := by
  rw [ipPacket, List.length_drop] at headers
  have port : (udpH (frame.drop 272)).dstPort = udpDstPort 20 (ipPacket frame) :=
    (field_drop 16 16 272 frame).trans (field_drop 176 16 112 frame).symm
  have vni : (vxlanH (frame.drop 336)).vni = vxlanVni 20 (ipPacket frame) :=
    (field_drop 32 24 336 frame).trans (field_drop 256 24 112 frame).symm
  simp only [parsedVni, ShcIngressParser, parseEthernet]
  rw [extract_of_fits (show 112 ≤ frame.length by omega)]
  rw [if_pos isIpv4, parseIpv4, extract_of_fits (show 160 ≤ (frame.drop 112).length by rw [List.length_drop]; omega)]
  simp only [List.drop_drop, Nat.reduceAdd]
  by_cases udp : (ipv4H (frame.drop 112)).protocol = 17#8
  case neg =>
    rw [if_neg udp, if_neg (show ¬(isUdp (ipPacket frame) ∧ _) from fun both => udp both.1)]
    split
    · obtain ⟨vxlan, _⟩ := parseCuckooHashes_keepsVni
        ⟨{ ShcHeader.invalid with ethernet := some (ethernetH frame), ipv4 := some (ipv4H (frame.drop 112)) }, 0,
          frame.drop 272⟩
      rw [vxlan]
      rfl
    · rfl
  rw [if_pos udp, parseUdp, extract_of_fits (show 64 ≤ (frame.drop 272).length by rw [List.length_drop]; omega)]
  simp only [List.drop_drop, Nat.reduceAdd, port]
  by_cases vxlan : udpDstPort 20 (ipPacket frame) = 4789#16
  case neg =>
    rw [if_neg vxlan, if_neg fun both => vxlan both.2]
    rfl
  rw [if_pos vxlan, if_pos ⟨udp, vxlan⟩,
    parseVxlan_vni (show 64 ≤ (frame.drop 336).length by rw [List.length_drop]; omega), vni]

/-- Both paths see the same VXLAN packets, with the same VNI, when the packet is not over UDP;
    when it is a later fragment whose bytes do not look like the port; and when it is the first
    one and the bytes after 20 and after the whole header agree. -/
def ClassifiedAlike (pkt : Bits) : Prop :=
  ¬isUdp pkt ∨ (fragOffset pkt ≠ 0#13 ∧ udpDstPort 20 pkt ≠ 4789#16) ∨
    (fragOffset pkt = 0#13 ∧ (udpDstPort 20 pkt = 4789#16 ↔ udpDstPort (ipHeaderLength pkt) pkt = 4789#16) ∧
      (udpDstPort 20 pkt = 4789#16 → vxlanVni 20 pkt = vxlanVni (ipHeaderLength pkt) pkt))

/-- In particular a header without options that is not a later fragment. -/
theorem classifiedAlike_of_plain {pkt : Bits} (first : fragOffset pkt = 0#13) (plain : ipHeaderLength pkt = 20) :
    ClassifiedAlike pkt := by
  refine .inr (.inr ⟨first, ?_, fun _ => ?_⟩) <;> rw [plain]

/-- The fast path extracts exactly the VNIs that the slow path looks up if and only if the packet
    is one of those. -/
theorem classified_iff (frame : Bits) (isIpv4 : CarriesIpv4 frame) (headers : 288 ≤ (ipPacket frame).length)
    (options : 8 * ipHeaderLength (ipPacket frame) + 128 ≤ (ipPacket frame).length) :
    (∀ vni, parsedVni frame = some vni ↔ socketVni (ipPacket frame) = some vni) ↔
      ClassifiedAlike (ipPacket frame) := by
  rw [parsedVni_eq isIpv4 headers, socketVni_eq (by omega) options, ClassifiedAlike]
  have alike (fast slow : Option Vni) : (∀ vni, fast = some vni ↔ slow = some vni) ↔ fast = slow := by
    cases fast <;> cases slow <;> simp [eq_comm]
  rw [alike]
  by_cases udp : isUdp (ipPacket frame)
  case neg => simp [isUdp, udp]
  by_cases first : fragOffset (ipPacket frame) = 0#13
  case neg =>
    by_cases short : udpDstPort 20 (ipPacket frame) = 4789#16 <;> simp [isUdp, udp, first, short]
  by_cases short : udpDstPort 20 (ipPacket frame) = 4789#16 <;>
    by_cases whole : udpDstPort (ipHeaderLength (ipPacket frame)) (ipPacket frame) = 4789#16 <;>
      simp [isUdp, udp, first, short, whole]

/-- A frame from 10.0.0.1 to 10.0.0.2 over UDP: the first eight bytes of the header and its
    options, the UDP header to port 4789 and the VXLAN header of VNI 100. -/
def vxlanFrame (start : BitVec 64) (options : Bits) : Bits :=
  bits 0x0000000000020000000000010800#112 ++ bits start ++ bits 0x401100000A0000010A000002#96 ++ options ++
    bits 0x0FA012B500100000#64 ++ bits 0x0800000000006400#64

def plainVxlanFrame : Bits := vxlanFrame 0x4500002400000000#64 []
def optionsVxlanFrame : Bits := vxlanFrame 0x4600002800000000#64 (bits 0x01010101#32)
def laterFragmentFrame : Bits := vxlanFrame 0x4500002400000001#64 []

theorem plain_frame_alike :
    parsedVni plainVxlanFrame = some 100 ∧ socketVni (ipPacket plainVxlanFrame) = some 100 := by
  have alike := (classified_iff plainVxlanFrame (by decide +kernel) (by decide +kernel) (by decide +kernel)).mpr
    (classifiedAlike_of_plain (by decide +kernel) (by decide +kernel))
  have parsed : parsedVni plainVxlanFrame = some 100 := by decide +kernel
  exact ⟨parsed, (alike 100).mp parsed⟩

/-- With options only the agent sees VNI 100, in a later fragment only the switch does. -/
theorem not_always_alike :
    (CarriesIpv4 optionsVxlanFrame ∧ 288 ≤ (ipPacket optionsVxlanFrame).length ∧
      8 * ipHeaderLength (ipPacket optionsVxlanFrame) + 128 ≤ (ipPacket optionsVxlanFrame).length ∧
      parsedVni optionsVxlanFrame = none ∧ socketVni (ipPacket optionsVxlanFrame) = some 100) ∧
    (CarriesIpv4 laterFragmentFrame ∧ 288 ≤ (ipPacket laterFragmentFrame).length ∧
      8 * ipHeaderLength (ipPacket laterFragmentFrame) + 128 ≤ (ipPacket laterFragmentFrame).length ∧
      parsedVni laterFragmentFrame = some 100 ∧ socketVni (ipPacket laterFragmentFrame) = none) := by
  decide +kernel

end Tao.Offload
