import Mathlib.Init

/-! # Headers and metadata of `shc_real_time_sketch.p4`

A header is valid exactly when its `Option` is `some`. -/

namespace Tao.DataPlane

abbrev MacAddr := BitVec 48
abbrev Ipv4Addr := BitVec 32
abbrev Vni := BitVec 24
abbrev HashBucket := BitVec 16
abbrev PortId := BitVec 9

structure EthernetH where
  dstAddr : MacAddr
  srcAddr : MacAddr
  etherType : BitVec 16
  deriving DecidableEq

structure Ipv4H where
  version : BitVec 4
  ihl : BitVec 4
  dscp : BitVec 6
  ecn : BitVec 2
  totalLen : BitVec 16
  identification : BitVec 16
  flags : BitVec 3
  fragOffset : BitVec 13
  ttl : BitVec 8
  protocol : BitVec 8
  hdrChecksum : BitVec 16
  srcAddr : Ipv4Addr
  dstAddr : Ipv4Addr
  deriving DecidableEq

structure UdpH where
  srcPort : BitVec 16
  dstPort : BitVec 16
  length : BitVec 16
  checksum : BitVec 16
  deriving DecidableEq

structure VxlanH where
  flags : BitVec 8
  reserved : BitVec 24
  vni : Vni
  reserved2 : BitVec 8
  deriving DecidableEq

structure CuckooHashesH where
  cuckooHash1 : BitVec 32
  cuckooHash2 : BitVec 32
  cuckooHash3 : BitVec 32
  cuckooHash4 : BitVec 32
  deriving DecidableEq

structure ShcHeader where
  ethernet : Option EthernetH
  ipv4 : Option Ipv4H
  udp : Option UdpH
  vxlan : Option VxlanH
  innerEthernet : Option EthernetH
  innerIpv4 : Option Ipv4H
  cuckooHashes : Option CuckooHashesH
  deriving DecidableEq

/-- `shc_ingress_metadata_t`.  The parser's `start` state zeroes `eflag`, `table_hit` and
    `cs_count`, and the target clears the rest. -/
structure ShcIngressMetadata where
  srcAddr : Ipv4Addr := 0
  dstAddr : Ipv4Addr := 0
  pktNC : BitVec 32 := 0
  pktNDoneFlag : BitVec 1 := 0
  cuckooHashChose : BitVec 2 := 0
  cuckooHashTmp : BitVec 16 := 0
  fingerprint : BitVec 16 := 0
  fpCmpRe : BitVec 1 := 0
  csCount : BitVec 8 := 0
  hashIndexDone : BitVec 1 := 0
  tableHit : BitVec 1 := 0
  eflag : BitVec 1 := 0
  nhopId : BitVec 32 := 0
  cuckooHashIndex : BitVec 32 := 0
  acCount : BitVec 32 := 0
  deriving DecidableEq

/-- The hash units of the pipeline: `hash1` (`RANDOM`) chooses a bucket and `hash2`
    (`CRC16`) the fingerprint, both over `{src_addr, dst_addr}`. -/
structure HashUnits where
  hash1 : Ipv4Addr → Ipv4Addr → BitVec 16
  hash2 : Ipv4Addr → Ipv4Addr → BitVec 16

end Tao.DataPlane
