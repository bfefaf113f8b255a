import Tao.DataPlane.DigestFlow
import Tao.DataPlane.Transparency

/-! # The packets of the full chain

`ShcIngressParser` of `p4src_test` accepts the packets that begin with one of a few stacks
of headers, and the deparser writes such a stack back: the two are inverse to each other. -/

namespace Tao.DataPlane

open Tao.Foundation

/-! ## A header is read back as it was written -/

@[simp] theorem ethernetH_emit (h : EthernetH) (rest : Bits) : ethernetH (h.emit ++ rest) = h := by
  simp [ethernetH, EthernetH.emit, field_behind]

@[simp] theorem ipv4H_emit (h : Ipv4H) (rest : Bits) : ipv4H (h.emit ++ rest) = h := by
  simp [ipv4H, Ipv4H.emit, field_behind]

@[simp] theorem udpH_emit (h : UdpH) (rest : Bits) : udpH (h.emit ++ rest) = h := by
  simp [udpH, UdpH.emit, field_behind]

@[simp] theorem vxlanH_emit (h : VxlanH) (rest : Bits) : vxlanH (h.emit ++ rest) = h := by
  simp [vxlanH, VxlanH.emit, field_behind]

@[simp] theorem length_ethernetH_emit (h : EthernetH) : h.emit.length = 112 := by simp [EthernetH.emit]

@[simp] theorem length_ipv4H_emit (h : Ipv4H) : h.emit.length = 160 := by simp [Ipv4H.emit]

@[simp] theorem length_udpH_emit (h : UdpH) : h.emit.length = 64 := by simp [UdpH.emit]

@[simp] theorem length_vxlanH_emit (h : VxlanH) : h.emit.length = 64 := by simp [VxlanH.emit]

namespace FullChain

@[simp] theorem tcpH_emit (h : TcpH) (rest : Bits) : tcpH (h.emit ++ rest) = h := by
  simp [tcpH, TcpH.emit, field_behind]

@[simp] theorem length_tcpH_emit (h : TcpH) : h.emit.length = 160 := by simp [TcpH.emit]

theorem emit_tcpH {l : Bits} (fits : 160 ≤ l.length) : (tcpH l).emit = slice 0 160 l := by
  simp (disch := omega) only [TcpH.emit, tcpH, bits_field]
  rw [slice_append 0 16 16, slice_append 0 32 32, slice_append 0 64 32, slice_append 0 96 4,
    slice_append 0 100 4, slice_append 0 104 8, slice_append 0 112 16, slice_append 0 128 16,
    slice_append 0 144 16]

/-! ## The stacks -/

/-- The headers with which the parser can accept, one constructor for each state that leads to
    `accept`. -/
inductive Stack : ShcHeader → Prop
  | ethernet {ethernet : EthernetH} (other : ethernet.etherType ≠ ETHERTYPE_IPV4) :
    Stack { ethernet := some ethernet }
  | ipv4 {ethernet : EthernetH} {ipv4 : Ipv4H} (isIpv4 : ethernet.etherType = ETHERTYPE_IPV4)
    (notUdp : ipv4.protocol ≠ 17#8) (notTcp : ipv4.protocol ≠ 6#8) :
    Stack { ethernet := some ethernet, ipv4 := some ipv4 }
  | tcp {ethernet : EthernetH} {ipv4 : Ipv4H} (tcp : TcpH) (isIpv4 : ethernet.etherType = ETHERTYPE_IPV4)
    (isTcp : ipv4.protocol = 6#8) :
    Stack { ethernet := some ethernet, ipv4 := some ipv4, tcp := some tcp }
  | udp {ethernet : EthernetH} {ipv4 : Ipv4H} {udp : UdpH} (isIpv4 : ethernet.etherType = ETHERTYPE_IPV4)
    (isUdp : ipv4.protocol = 17#8) (notVxlan : udp.dstPort ≠ 4789#16) :
    Stack { ethernet := some ethernet, ipv4 := some ipv4, udp := some udp }
  | vxlan {ethernet : EthernetH} {ipv4 : Ipv4H} {udp : UdpH} (vxlan : VxlanH) {innerEthernet : EthernetH}
    (isIpv4 : ethernet.etherType = ETHERTYPE_IPV4) (isUdp : ipv4.protocol = 17#8) (isVxlan : udp.dstPort = 4789#16)
    (innerOther : innerEthernet.etherType ≠ ETHERTYPE_IPV4) :
    Stack { ethernet := some ethernet, ipv4 := some ipv4, udp := some udp, vxlan := some vxlan,
            innerEthernet := some innerEthernet }
  | inner {ethernet : EthernetH} {ipv4 : Ipv4H} {udp : UdpH} (vxlan : VxlanH) {innerEthernet : EthernetH}
    (innerIpv4 : Ipv4H) (isIpv4 : ethernet.etherType = ETHERTYPE_IPV4) (isUdp : ipv4.protocol = 17#8)
    (isVxlan : udp.dstPort = 4789#16) (innerIsIpv4 : innerEthernet.etherType = ETHERTYPE_IPV4) :
    Stack { ethernet := some ethernet, ipv4 := some ipv4, udp := some udp, vxlan := some vxlan,
            innerEthernet := some innerEthernet, innerIpv4 := some innerIpv4 }

/-- A VXLAN header has an IPv4 header in front of it. -/
theorem Stack.ipv4_of_vxlan {hdr : ShcHeader} {vxlan : VxlanH} (stack : Stack hdr) (isVxlan : hdr.vxlan = some vxlan) :
    ∃ outer, hdr.ipv4 = some outer := by
  cases stack <;> first | exact ⟨_, rfl⟩ | cases isVxlan

/-! ## Parsing what was emitted -/

/-- An extract on the way to `accept` reads a header that stands at the front. -/
theorem extract_front {H : Type} {width : Nat} {decode : Bits → H} {encode : H → Bits}
    {next : H → ParserState → ParserResult} {s parsed : ParserState}
    (writes : ∀ {l : Bits}, width ≤ l.length → encode (decode l) = slice 0 width l)
    (accepted : extract width decode next s = (parsed, .accept)) :
    ∃ h rest, s.payload = encode h ++ rest ∧ next h { s with payload := rest } = (parsed, .accept) := by
  obtain ⟨fits, extracted⟩ := extract_accepted (congrArg Prod.snd accepted)
  rw [extracted] at accepted
  exact ⟨decode s.payload, s.payload.drop width, by rw [writes fits, slice_zero_append_drop], accepted⟩

/-- The parser takes a stack off the front of a packet. -/
theorem parse_emit {hdr : ShcHeader} (stack : Stack hdr) (payload : Bits) :
    ShcIngressParser (hdr.emit ++ payload) = (⟨hdr, arrivalMetadata hdr.ipv4, payload⟩, .accept) := by
  cases stack <;>
    simp [ShcIngressParser, parseEthernet, parseIpv4, parseUdp, parseTcp, parseVxlan, parseInnerEthernet,
      parseInnerIpv4, ShcHeader.emit, emit, extract_emit, arrivalMetadata, *]

/-- A packet that is accepted begins with a stack: one case for each state of the parser. -/
theorem stack_of_accepted {pkt : Bits} {parsed : ParserState}
    (accepted : ShcIngressParser pkt = (parsed, .accept)) :
    Stack parsed.hdr ∧ pkt = parsed.hdr.emit ++ parsed.payload := by
  unfold ShcIngressParser parseEthernet at accepted
  obtain ⟨ethernet, rest, front, accepted⟩ := extract_front emit_ethernetH accepted
  obtain rfl : pkt = ethernet.emit ++ rest := front
  dsimp only at accepted
  split at accepted
  case isFalse other =>
    cases accepted
    exact ⟨.ethernet other, by simp [ShcHeader.emit, emit]⟩
  next isIpv4 =>
  obtain ⟨ipv4, rest, rfl, accepted⟩ := extract_front emit_ipv4H accepted
  dsimp only at accepted
  split at accepted
  case isFalse notUdp =>
    split at accepted
    case isFalse notTcp =>
      cases accepted
      exact ⟨.ipv4 isIpv4 notUdp notTcp, by simp [ShcHeader.emit, emit]⟩
    next isTcp =>
    obtain ⟨tcp, rest, rfl, accepted⟩ := extract_front emit_tcpH accepted
    cases accepted
    exact ⟨.tcp tcp isIpv4 isTcp, by simp [ShcHeader.emit, emit]⟩
  next isUdp =>
  obtain ⟨udp, rest, rfl, accepted⟩ := extract_front emit_udpH accepted
  dsimp only at accepted
  split at accepted
  case isFalse notVxlan =>
    cases accepted
    exact ⟨.udp isIpv4 isUdp notVxlan, by simp [ShcHeader.emit, emit]⟩
  next isVxlan =>
  obtain ⟨vxlan, rest, rfl, accepted⟩ := extract_front emit_vxlanH accepted
  obtain ⟨innerEthernet, rest, rfl, accepted⟩ := extract_front emit_ethernetH accepted
  dsimp only at accepted
  split at accepted
  case isFalse innerOther =>
    cases accepted
    exact ⟨.vxlan vxlan isIpv4 isUdp isVxlan innerOther, by simp [ShcHeader.emit, emit]⟩
  next innerIsIpv4 =>
  obtain ⟨innerIpv4, rest, rfl, accepted⟩ := extract_front emit_ipv4H accepted
  cases accepted
  exact ⟨.inner vxlan innerIpv4 isIpv4 isUdp isVxlan innerIsIpv4, by simp [ShcHeader.emit, emit]⟩

/-- The parser accepts a packet as these headers and this payload exactly when the headers are a stack
    and the packet is what the deparser makes of them. -/
theorem parser_accepts_iff (pkt : Bits) (hdr : ShcHeader) (payload : Bits) :
    (∃ md, ShcIngressParser pkt = (⟨hdr, md, payload⟩, .accept)) ↔ Stack hdr ∧ pkt = hdr.emit ++ payload := by
  constructor
  · rintro ⟨md, accepted⟩
    exact stack_of_accepted accepted
  · rintro ⟨stack, rfl⟩
    exact ⟨_, parse_emit stack payload⟩

end FullChain

end Tao.DataPlane
