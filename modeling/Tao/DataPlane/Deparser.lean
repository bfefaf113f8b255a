import Tao.DataPlane.Ingress
import Tao.DataPlane.Parser
import Tao.Foundation.OnesComplement

/-! # `ShcIngressDeparser` and the ingress pipeline -/

namespace Tao.DataPlane

open Tao.Foundation

/-! ## The bits of a header, in the order of its fields -/

def EthernetH.emit (h : EthernetH) : Bits := bits h.dstAddr ++ bits h.srcAddr ++ bits h.etherType

def Ipv4H.emit (h : Ipv4H) : Bits :=
  bits h.version ++ bits h.ihl ++ bits h.dscp ++ bits h.ecn ++ bits h.totalLen ++ bits h.identification ++
    bits h.flags ++ bits h.fragOffset ++ bits h.ttl ++ bits h.protocol ++ bits h.hdrChecksum ++
    bits h.srcAddr ++ bits h.dstAddr

def UdpH.emit (h : UdpH) : Bits :=
  bits h.srcPort ++ bits h.dstPort ++ bits h.length ++ bits h.checksum

def VxlanH.emit (h : VxlanH) : Bits :=
  bits h.flags ++ bits h.reserved ++ bits h.vni ++ bits h.reserved2

def CuckooHashesH.emit (h : CuckooHashesH) : Bits :=
  bits h.cuckooHash1 ++ bits h.cuckooHash2 ++ bits h.cuckooHash3 ++ bits h.cuckooHash4

/-- `pkt.emit`: a header that is not valid emits nothing. -/
def emit {H : Type} (encode : H → Bits) : Option H → Bits
  | some h => encode h
  | none => []

/-! ## The deparser -/

/-- `Checksum.update` over a list of fields that fills whole words. -/
def checksumUpdate (fields : Bits) : BitVec 16 :=
  BitVec.ofNat 16 (internetChecksum (words (fields.length / 16) fields))

/-- The fields of both `update` calls: the header without its checksum. -/
def Ipv4H.checksumFields (h : Ipv4H) : Bits :=
  bits h.version ++ bits h.ihl ++ bits h.dscp ++ bits h.ecn ++ bits h.totalLen ++ bits h.identification ++
    bits h.flags ++ bits h.fragOffset ++ bits h.ttl ++ bits h.protocol ++ bits h.srcAddr ++ bits h.dstAddr

def Ipv4H.updateChecksum (h : Ipv4H) : Ipv4H := { h with hdrChecksum := checksumUpdate h.checksumFields }

/-- The `pkt.emit` calls.  There is none for `hdr.cuckoo_hashes`. -/
def ShcHeader.emit (hdr : ShcHeader) : Bits :=
  DataPlane.emit EthernetH.emit hdr.ethernet ++ DataPlane.emit Ipv4H.emit hdr.ipv4 ++
    DataPlane.emit UdpH.emit hdr.udp ++ DataPlane.emit VxlanH.emit hdr.vxlan ++
    DataPlane.emit EthernetH.emit hdr.innerEthernet ++ DataPlane.emit Ipv4H.emit hdr.innerIpv4

/-- What the deparser makes of the headers; a checksum of an invalid header is written nowhere. -/
def ShcHeader.updateChecksums (hdr : ShcHeader) : ShcHeader :=
  { hdr with ipv4 := hdr.ipv4.map Ipv4H.updateChecksum, innerIpv4 := hdr.innerIpv4.map Ipv4H.updateChecksum }

def ShcIngressDeparser (hdr : ShcHeader) (md : ShcIngressMetadata) (intrinsic : IngressIntrinsic) :
    Option FlowkeyDigest × Bits :=
  (flowkeyDigest md intrinsic, hdr.updateChecksums.emit)

/-! ## The pipeline -/

/-- What one packet leaves behind: the registers, whether it hit `route_tbl`, a digest, and the
    bytes that are sent on. -/
structure PipelineOutput where
  regs : SketchRegisters
  tableHit : BitVec 1
  digest : Option FlowkeyDigest
  sent : Bits

/-- Parser, control and deparser on a packet.  No statement of `ShcIngress` assigns a header
    field, so the deparser is given the headers of the parser; what was not parsed follows. -/
def shcIngressPipeline (hashes : HashUnits) (regs : SketchRegisters) (routeTbl : RouteTbl)
    (ingressPort : PortId) (pkt : Bits) : Option PipelineOutput :=
  match ShcIngressParser pkt with
  | (_, .reject) => none
  | (parsed, .accept) =>
    let (regs, md, intrinsic) := ShcIngress.apply hashes regs ⟨parsed.hdr, ingressPort, routeTbl⟩
    let (digest, emitted) := ShcIngressDeparser parsed.hdr md intrinsic
    some ⟨regs, md.tableHit, digest, emitted ++ parsed.payload⟩

end Tao.DataPlane
