import Tao.DataPlane.ChainFormat
import Tao.Foundation.Transition

/-! # Switch behind switch

A packet without hashes is written back as the stack that it was parsed into, with its
checksums computed.  The next switch parses that stack again and finds the checksums as it
would compute them, so the packet changes at the first switch of a path and never after. -/

namespace Tao.DataPlane

open Tao.Foundation

/-! ## Stacks without hashes -/

/-- The headers with which the parser can accept a packet that brings no hashes. -/
inductive PlainStack : ShcHeader → Prop
  | ethernet {ethernet : EthernetH} (other : ethernet.etherType ≠ ETHERTYPE_IPV4) :
    PlainStack { ShcHeader.invalid with ethernet := some ethernet }
  | ipv4 {ethernet : EthernetH} {ipv4 : Ipv4H} (isIpv4 : ethernet.etherType = ETHERTYPE_IPV4)
    (notUdp : ipv4.protocol ≠ 17#8) (notHashed : ipv4.protocol ≠ 100#8) :
    PlainStack { ShcHeader.invalid with ethernet := some ethernet, ipv4 := some ipv4 }
  | udp {ethernet : EthernetH} {ipv4 : Ipv4H} {udp : UdpH} (isIpv4 : ethernet.etherType = ETHERTYPE_IPV4)
    (isUdp : ipv4.protocol = 17#8) (notVxlan : udp.dstPort ≠ 4789#16) :
    PlainStack { ShcHeader.invalid with ethernet := some ethernet, ipv4 := some ipv4, udp := some udp }
  | vxlan {ethernet : EthernetH} {ipv4 : Ipv4H} {udp : UdpH} (vxlan : VxlanH) {innerEthernet : EthernetH}
    (isIpv4 : ethernet.etherType = ETHERTYPE_IPV4) (isUdp : ipv4.protocol = 17#8) (isVxlan : udp.dstPort = 4789#16)
    (innerOther : innerEthernet.etherType ≠ ETHERTYPE_IPV4) :
    PlainStack { ShcHeader.invalid with
      ethernet := some ethernet, ipv4 := some ipv4, udp := some udp, vxlan := some vxlan
      innerEthernet := some innerEthernet }
  | inner {ethernet : EthernetH} {ipv4 : Ipv4H} {udp : UdpH} (vxlan : VxlanH) {innerEthernet : EthernetH}
    {innerIpv4 : Ipv4H} (isIpv4 : ethernet.etherType = ETHERTYPE_IPV4) (isUdp : ipv4.protocol = 17#8)
    (isVxlan : udp.dstPort = 4789#16) (innerIsIpv4 : innerEthernet.etherType = ETHERTYPE_IPV4)
    (notHashed : innerIpv4.protocol ≠ 100#8) :
    PlainStack { ShcHeader.invalid with
      ethernet := some ethernet, ipv4 := some ipv4, udp := some udp, vxlan := some vxlan
      innerEthernet := some innerEthernet, innerIpv4 := some innerIpv4 }

theorem parse_emit {hdr : ShcHeader} (stack : PlainStack hdr) (payload : Bits) :
    ShcIngressParser (hdr.emit ++ payload) = (⟨hdr, (hdr.vxlan.map (·.vni)).getD 0, payload⟩, .accept) := by
  cases stack <;>
    simp [ShcIngressParser, parseEthernet, parseIpv4, parseUdp, parseVxlan, parseInnerEthernet, parseInnerIpv4,
      ShcHeader.emit, emit, ShcHeader.invalid, extract_emit, *]

/-- Without hashes, what an accepted packet is parsed into is one of these. -/
theorem plainStack_headersOf {pkt : Bits} (noOuter : ¬CarriesOuterHashes pkt) (noInner : ¬CarriesInnerHashes pkt) :
    PlainStack (headersOf pkt) := by
  simp only [CarriesOuterHashes, CarriesInnerHashes, CarriesInnerIpv4, CarriesVxlan, CarriesUdp, CarriesIpv4] at *
  simp only [headersOf, CarriesInnerHashes, CarriesOuterHashes, CarriesInnerIpv4, CarriesVxlan, CarriesUdp,
    CarriesIpv4]
  by_cases isIpv4 : (ethernetH pkt).etherType = ETHERTYPE_IPV4
  case neg => simp [isIpv4]; exact .ethernet isIpv4
  by_cases isUdp : (ipv4H (pkt.drop 112)).protocol = 17#8
  case neg =>
    have notHashed : (ipv4H (pkt.drop 112)).protocol ≠ 100#8 := fun hashed => noOuter ⟨isIpv4, hashed⟩
    simp [isIpv4, isUdp, notHashed]
    exact .ipv4 isIpv4 isUdp notHashed
  by_cases isVxlan : (udpH (pkt.drop 272)).dstPort = 4789#16
  case neg => simp [isIpv4, isUdp, isVxlan]; exact .udp isIpv4 isUdp isVxlan
  by_cases isInner : (ethernetH (pkt.drop 400)).etherType = ETHERTYPE_IPV4
  case neg => simp [isIpv4, isUdp, isVxlan, isInner]; exact .vxlan _ isIpv4 isUdp isVxlan isInner
  have notHashed : (ipv4H (pkt.drop 512)).protocol ≠ 100#8 := fun hashed =>
    noInner ⟨⟨⟨⟨isIpv4, isUdp⟩, isVxlan⟩, isInner⟩, hashed⟩
  simp [isIpv4, isUdp, isVxlan, isInner, notHashed]
  exact .inner _ isIpv4 isUdp isVxlan isInner notHashed

/-- Computing the checksums changes no field that decides what follows. -/
theorem PlainStack.updateChecksums {hdr : ShcHeader} (stack : PlainStack hdr) : PlainStack hdr.updateChecksums := by
  cases stack with
  | ethernet other => exact .ethernet other
  | ipv4 isIpv4 notUdp notHashed => exact @PlainStack.ipv4 _ (Ipv4H.updateChecksum _) isIpv4 notUdp notHashed
  | udp isIpv4 isUdp notVxlan => exact @PlainStack.udp _ (Ipv4H.updateChecksum _) _ isIpv4 isUdp notVxlan
  | vxlan vxlan isIpv4 isUdp isVxlan innerOther =>
    exact @PlainStack.vxlan _ (Ipv4H.updateChecksum _) _ vxlan _ isIpv4 isUdp isVxlan innerOther
  | inner vxlan isIpv4 isUdp isVxlan innerIsIpv4 notHashed =>
    exact @PlainStack.inner _ (Ipv4H.updateChecksum _) _ vxlan _ (Ipv4H.updateChecksum _) isIpv4 isUdp isVxlan
      innerIsIpv4 notHashed

theorem updateChecksum_idempotent (h : Ipv4H) : h.updateChecksum.updateChecksum = h.updateChecksum := rfl

theorem updateChecksums_idempotent (hdr : ShcHeader) : hdr.updateChecksums.updateChecksums = hdr.updateChecksums := by
  simp [ShcHeader.updateChecksums, Function.comp_def, updateChecksum_idempotent]

/-! ## The path -/

structure Hop where
  hashes : HashUnits
  regs : SketchRegisters
  routeTbl : RouteTbl
  ingressPort : PortId

def traverse (pkt : Bits) (hop : Hop) : Option Bits :=
  (shcIngressPipeline hop.hashes hop.regs hop.routeTbl hop.ingressPort pkt).map (·.sent)

/-- A packet that is the emission of a stack is sent on with its checksums computed. -/
theorem traverse_stack {hdr : ShcHeader} (stack : PlainStack hdr) (payload : Bits) (hop : Hop) :
    traverse (hdr.emit ++ payload) hop = some (hdr.updateChecksums.emit ++ payload) := by
  simp only [traverse, shcIngressPipeline, parse_emit stack payload, Option.map_some]
  rfl

/-- A packet without hashes leaves the first switch of a path with its checksums computed, and every further
    switch sends it on bit for bit as it received it. -/
theorem settles_at_first_switch (pkt : Bits) (accepted : (ShcIngressParser pkt).2 = .accept)
    (noOuter : ¬CarriesOuterHashes pkt) (noInner : ¬CarriesInnerHashes pkt) (first : Hop) (path : List Hop) :
    ∃ sent, traverse pkt first = some sent ∧ sent.length = pkt.length ∧
      Always traverse (fun there => there = sent) sent path := by
  obtain ⟨_, _, fits⟩ := parsed_of_accepted accepted
  have stack := plainStack_headersOf noOuter noInner
  have whole := headers_then_payload fits
  rw [(headersOf_cuckooHashes pkt).mpr ⟨noOuter, noInner⟩, emit, List.append_nil] at whole
  refine ⟨(headersOf pkt).updateChecksums.emit ++ pkt.drop (headersLength pkt), ?_, ?_, ?_⟩
  · conv_lhs => rw [← whole]
    exact traverse_stack stack _ first
  · conv_rhs => rw [← whole]
    simp [ShcHeader.updateChecksums, ShcHeader.emit, length_emit_update]
  · refine always_of_preserved _ ?_ rfl
    rintro _ hop rfl
    refine ⟨_, traverse_stack stack.updateChecksums _ hop, ?_⟩
    rw [updateChecksums_idempotent]

/-- A packet with options, whose checksum the first switch changes, and two switches behind it. -/
theorem optionsPacket_settles :
    ∃ sent, traverse optionsPacket ⟨⟨fun _ _ => 0, fun _ _ => 0⟩, .initial, ∅, 1⟩ = some sent ∧
      sent.length = optionsPacket.length ∧
      Always traverse (fun there => there = sent) sent
        (List.replicate 2 ⟨⟨fun _ _ => 1, fun _ _ => 1⟩, .initial, ∅, 2⟩) :=
  settles_at_first_switch optionsPacket (by decide +kernel) (by decide +kernel) (by decide +kernel) _ _

end Tao.DataPlane
