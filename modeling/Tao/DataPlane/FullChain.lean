import Tao.DataPlane.Deparser

/-! # The full-chain data plane of `p4src_test`

Its ingress looks a packet up by the inner addresses first (`route_tbl`) and, when that
misses, samples it and looks it up by the outer ones (`route_sele_tbl`).  A hit in either
leads through `nhop_tbl`, which writes a tunnel into the headers, and the two tables of MAC
addresses. -/

namespace Tao.DataPlane.FullChain

open Tao.Foundation

def FK_LEARN_DIGEST : BitVec 3 := 1

def FAKE_SRC_MAC : MacAddr := 0x112233445566

/-! ## Headers and metadata -/

structure TcpH where
  srcPort : BitVec 16
  dstPort : BitVec 16
  seqNo : BitVec 32
  ackNo : BitVec 32
  dataOffset : BitVec 4
  res : BitVec 4
  flags : BitVec 8
  window : BitVec 16
  checksum : BitVec 16
  urgentPtr : BitVec 16
  deriving DecidableEq

def tcpH (l : Bits) : TcpH where
  srcPort := field 0 16 l
  dstPort := field 16 16 l
  seqNo := field 32 32 l
  ackNo := field 64 32 l
  dataOffset := field 96 4 l
  res := field 100 4 l
  flags := field 104 8 l
  window := field 112 16 l
  checksum := field 128 16 l
  urgentPtr := field 144 16 l

def TcpH.emit (h : TcpH) : Bits :=
  bits h.srcPort ++ bits h.dstPort ++ bits h.seqNo ++ bits h.ackNo ++ bits h.dataOffset ++ bits h.res ++
    bits h.flags ++ bits h.window ++ bits h.checksum ++ bits h.urgentPtr

structure ShcHeader where
  ethernet : Option EthernetH := none
  ipv4 : Option Ipv4H := none
  udp : Option UdpH := none
  tcp : Option TcpH := none
  vxlan : Option VxlanH := none
  innerEthernet : Option EthernetH := none
  innerIpv4 : Option Ipv4H := none
  deriving DecidableEq

structure EncapInfo where
  neighId : BitVec 32 := 0
  port : BitVec 16 := 0
  deriving DecidableEq

/-- `shc_ingress_metadata_t`.  The parser zeroes `eflag` and the target clears the rest;
    nothing ever assigns `type` or the port of `encapInfo`. -/
structure ShcIngressMetadata where
  srcAddr : Ipv4Addr := 0
  dstAddr : Ipv4Addr := 0
  pktNC : BitVec 32 := 0
  hashValue1 : BitVec 17 := 0
  hashValue2 : BitVec 16 := 0
  hashPkt1Tmp : BitVec 1 := 0
  hashPkt1Num : BitVec 8 := 0
  hashPkt1Done : BitVec 1 := 0
  hashCond1 : BitVec 16 := 0
  rnd1 : BitVec 16 := 0
  condRndFlag1 : BitVec 1 := 0
  eflag : BitVec 1 := 0
  typeForDigest : BitVec 1 := 0
  port : PortId := 0
  timeStamp : BitVec 48 := 0
  type : BitVec 1 := 0
  vrf : BitVec 16 := 0
  nhopId : BitVec 32 := 0
  encapInfo : EncapInfo := {}
  deriving DecidableEq

/-! ## The parser -/

abbrev ParserState := ParserStateOf ShcHeader ShcIngressMetadata

abbrev ParserResult := ParserState × Verdict

def parseInnerIpv4 : ParserState → ParserResult :=
  extract 160 ipv4H fun innerIpv4 s => ({ s with hdr := { s.hdr with innerIpv4 := some innerIpv4 } }, .accept)

def parseInnerEthernet : ParserState → ParserResult :=
  extract 112 ethernetH fun innerEthernet s =>
    let s := { s with hdr := { s.hdr with innerEthernet := some innerEthernet } }
    if innerEthernet.etherType = ETHERTYPE_IPV4 then parseInnerIpv4 s else (s, .accept)

def parseVxlan : ParserState → ParserResult :=
  extract 64 vxlanH fun vxlan s => parseInnerEthernet { s with hdr := { s.hdr with vxlan := some vxlan } }

def parseTcp : ParserState → ParserResult :=
  extract 160 tcpH fun tcp s => ({ s with hdr := { s.hdr with tcp := some tcp } }, .accept)

def parseUdp : ParserState → ParserResult :=
  extract 64 udpH fun udp s =>
    let s := { s with hdr := { s.hdr with udp := some udp } }
    if udp.dstPort = 4789#16 then parseVxlan s else (s, .accept)

def parseIpv4 : ParserState → ParserResult :=
  extract 160 ipv4H fun ipv4 s =>
    let s := { s with
      hdr := { s.hdr with ipv4 := some ipv4 }
      md := { s.md with srcAddr := ipv4.srcAddr, dstAddr := ipv4.dstAddr } }
    if ipv4.protocol = 17#8 then parseUdp s
    else if ipv4.protocol = 6#8 then parseTcp s
    else (s, .accept)

def parseEthernet : ParserState → ParserResult :=
  extract 112 ethernetH fun ethernet s =>
    let s := { s with hdr := { s.hdr with ethernet := some ethernet } }
    if ethernet.etherType = ETHERTYPE_IPV4 then parseIpv4 s else (s, .accept)

def ShcIngressParser (pkt : Bits) : ParserResult := parseEthernet ⟨{}, {}, pkt⟩

/-! ## The tables -/

structure TunnelKey where
  type : BitVec 1
  vni : Vni
  deriving DecidableEq

inductive TunnelMapVrfAction where
  | tunnelMapVrf (vrf : BitVec 16)
  | noAction
  deriving DecidableEq

structure RouteKey where
  vrf : BitVec 16
  srcAddr : Ipv4Addr
  dstAddr : Ipv4Addr
  deriving DecidableEq

inductive RouteAction where
  | routeForNexthop (nhopId : BitVec 32)
  | noAction
  deriving DecidableEq

inductive RouteSeleAction where
  | routeSeleForNexthop (nhopId : BitVec 32)
  | routeSeleForMiss
  deriving DecidableEq

inductive NhopAction where
  | nhop (vni : Vni) (localAddr remoteAddr : Ipv4Addr) (neighId : BitVec 32)
  | noAction
  deriving DecidableEq

inductive NeighAction where
  | neigh (dmac : MacAddr)
  | noAction
  deriving DecidableEq

inductive PortForMacAction where
  | portForMac (smac dmac : MacAddr)
  | fakeMacForOuter
  deriving DecidableEq

structure Tables where
  tunnelMapVrfTbl : Table TunnelKey TunnelMapVrfAction := ∅
  routeTbl : Table RouteKey RouteAction := ∅
  routeSeleTbl : Table FlowKey RouteSeleAction := ∅
  nhopTbl : Table (BitVec 32) NhopAction := ∅
  neighTbl : Table (BitVec 32) NeighAction := ∅
  portForMacTbl : Table (BitVec 16) PortForMacAction := ∅

/-- `hash1` (`RANDOM`) chooses a bucket and `hash2` (`CRC16`) the fingerprint. -/
structure HashUnits where
  hash1 : Ipv4Addr → Ipv4Addr → BitVec 17
  hash2 : Ipv4Addr → Ipv4Addr → BitVec 16

/-- What the fields of a header that is not valid read as, which the language leaves open. -/
structure InvalidReads where
  ipv4 : Ipv4H
  vxlan : VxlanH
  innerIpv4 : Ipv4H

/-- What a packet meets in the pipeline apart from the registers: the contents of the tables,
    its port and time of arrival, and the random number drawn for it. -/
structure Surroundings where
  tables : Tables
  hashes : HashUnits
  invalid : InvalidReads
  ingressPort : PortId
  ingressMacTstamp : BitVec 48
  random : BitVec 16

structure Registers where
  pktNum0 : BitVec 32
  pktNum : BitVec 32
  hash1_1 : BitVec 17 → BitVec 16
  hash1_1_n : BitVec 17 → BitVec 8

/-- The declared initial contents: `hash1_1` defaults to 0, `hash1_1_n` is declared with 1. -/
def Registers.initial : Registers where
  pktNum0 := 0
  pktNum := 0
  hash1_1 := fun _ => 0
  hash1_1_n := fun _ => 1

structure IngressState where
  hdr : ShcHeader
  md : ShcIngressMetadata
  intrinsic : IngressIntrinsic
  regs : Registers

/-! ## The `Sketch` control -/

/-- The saturating subtraction `|-|`. -/
def satSub {w : Nat} (a b : BitVec w) : BitVec w := if b ≤ a then a - b else 0

/-- The register action `pkt_num_1`: the new count, which is also `pkt_num_e`. -/
def pktNum1 (hashPkt1Tmp : BitVec 1) (registerData : BitVec 8) : BitVec 8 :=
  if hashPkt1Tmp = 1 ∧ registerData < 1 then registerData + 1 else 1

def condRnd1 (env : Surroundings) (s : IngressState) : IngressState :=
  { s with md := { s.md with rnd1 := env.random, condRndFlag1 := 1 } }

def condRndM (s : IngressState) : IngressState :=
  { s with md := { s.md with hashCond1 := satSub 3277 s.md.rnd1 } }

def getHashValues (env : Surroundings) (s : IngressState) : IngressState :=
  { s with md := { s.md with
      hashValue1 := env.hashes.hash1 s.md.srcAddr s.md.dstAddr
      hashValue2 := env.hashes.hash2 s.md.srcAddr s.md.dstAddr } }

def updatePkt1 (s : IngressState) : IngressState :=
  let result := pktUpdate1 s.md.hashValue2 (s.regs.hash1_1 s.md.hashValue1)
  { s with
    regs := { s.regs with hash1_1 := Function.update s.regs.hash1_1 s.md.hashValue1 result.1 }
    md := { s.md with hashPkt1Tmp := result.2, hashPkt1Done := 1 } }

def updatePktNum1 (s : IngressState) : IngressState :=
  let count := pktNum1 s.md.hashPkt1Tmp (s.regs.hash1_1_n s.md.hashValue1)
  { s with
    regs := { s.regs with hash1_1_n := Function.update s.regs.hash1_1_n s.md.hashValue1 count }
    md := { s.md with hashPkt1Num := count } }

/-- `ig_md.pkt_n_c = pkt_num_count.execute(0)` -/
def pktNumCount (s : IngressState) : IngressState :=
  { s with
    regs := { s.regs with pktNum := s.regs.pktNum + 1 }
    md := { s.md with pktNC := s.regs.pktNum + 1 } }

def IngressState.setEflag (eflag : BitVec 1) (s : IngressState) : IngressState :=
  { s with md := { s.md with eflag := eflag } }

def Sketch.apply (env : Surroundings) (s : IngressState) : IngressState :=
  let s := condRnd1 env s
  if s.md.condRndFlag1 = 1 then
    let s := condRndM s
    if 0 < s.md.hashCond1 then
      let s := updatePkt1 (getHashValues env s)
      if s.md.hashPkt1Done = 1 then
        let s := pktNumCount (updatePktNum1 s)
        if s.md.hashPkt1Num = 1 then s.setEflag 1 else s.setEflag 0
      else s
    else s
  else s

/-! ## The `ShcIngress` control -/

def pktNumCount0 (s : IngressState) : IngressState :=
  { s with regs := { s.regs with pktNum0 := s.regs.pktNum0 + 1 } }

def tunnelMapVrfTblApply (env : Surroundings) (s : IngressState) : IngressState :=
  match env.tables.tunnelMapVrfTbl.lookup ⟨s.md.type, (s.hdr.vxlan.getD env.invalid.vxlan).vni⟩ with
  | some (.tunnelMapVrf vrf) => { s with md := { s.md with vrf := vrf } }
  | some .noAction | none => s

def routeForNexthop (env : Surroundings) (nhopId : BitVec 32) (s : IngressState) : IngressState :=
  { s with
    md := { s.md with
      nhopId := nhopId, port := env.ingressPort, typeForDigest := 1, timeStamp := env.ingressMacTstamp }
    intrinsic := { s.intrinsic with ucastEgressPort := env.ingressPort, digestType := FK_LEARN_DIGEST } }

/-- `route_tbl.apply()` and whether it hit. -/
def routeTblApply (env : Surroundings) (s : IngressState) : IngressState × Bool :=
  let inner := s.hdr.innerIpv4.getD env.invalid.innerIpv4
  match env.tables.routeTbl.lookup ⟨s.md.vrf, inner.srcAddr, inner.dstAddr⟩ with
  | some (.routeForNexthop nhopId) => (routeForNexthop env nhopId s, true)
  -- an entry may name the default action; it is a hit all the same
  | some .noAction => (s, true)
  | none => (s, false)

def routeSeleForNexthop (env : Surroundings) (nhopId : BitVec 32) (s : IngressState) : IngressState :=
  { s with
    md := { s.md with
      nhopId := nhopId, port := env.ingressPort, typeForDigest := 1, timeStamp := env.ingressMacTstamp }
    intrinsic := { s.intrinsic with ucastEgressPort := env.ingressPort, bypassEgress := 0 } }

def routeSeleForMiss (s : IngressState) : IngressState :=
  { s with
    md := { s.md with typeForDigest := 0, timeStamp := 0 }
    intrinsic := { s.intrinsic with ucastEgressPort := 65, bypassEgress := 1 } }

section Selector

variable (env : Surroundings) (nhopId : BitVec 32) (s : IngressState)

@[simp] theorem routeSeleForNexthop_digestType :
    (routeSeleForNexthop env nhopId s).intrinsic.digestType = s.intrinsic.digestType := rfl

@[simp] theorem routeSeleForMiss_digestType :
    (routeSeleForMiss s).intrinsic.digestType = s.intrinsic.digestType := rfl

@[simp] theorem routeSeleForMiss_nhopId : (routeSeleForMiss s).md.nhopId = s.md.nhopId := rfl

end Selector

def routeSeleTblApply (env : Surroundings) (s : IngressState) : IngressState × Bool :=
  let outer := s.hdr.ipv4.getD env.invalid.ipv4
  match env.tables.routeSeleTbl.lookup ⟨outer.srcAddr, outer.dstAddr⟩ with
  | some (.routeSeleForNexthop nhopId) => (routeSeleForNexthop env nhopId s, true)
  | some .routeSeleForMiss => (routeSeleForMiss s, true)
  | none => (routeSeleForMiss s, false)

def setAddresses (localAddr remoteAddr : Ipv4Addr) (h : Ipv4H) : Ipv4H :=
  { h with srcAddr := localAddr, dstAddr := remoteAddr }

def setMacs (dstAddr srcAddr : MacAddr) (h : EthernetH) : EthernetH :=
  { h with dstAddr := dstAddr, srcAddr := srcAddr }

/-- The action `nhop`; a field of a header that is not valid is written nowhere. -/
def nhop (vni : Vni) (localAddr remoteAddr : Ipv4Addr) (neighId : BitVec 32) (s : IngressState) : IngressState :=
  { s with
    hdr := { s.hdr with
      vxlan := s.hdr.vxlan.map fun h => { h with vni := vni }
      ipv4 := s.hdr.ipv4.map (setAddresses localAddr remoteAddr) }
    md := { s.md with encapInfo := { s.md.encapInfo with neighId := neighId } } }

def nhopTblApply (env : Surroundings) (s : IngressState) : IngressState :=
  match env.tables.nhopTbl.lookup s.md.nhopId with
  | some (.nhop vni localAddr remoteAddr neighId) => nhop vni localAddr remoteAddr neighId s
  | some .noAction | none => s

def neighTblApply (env : Surroundings) (s : IngressState) : IngressState :=
  match env.tables.neighTbl.lookup s.md.encapInfo.neighId with
  | some (.neigh dmac) =>
    { s with hdr := { s.hdr with innerEthernet := s.hdr.innerEthernet.map (setMacs dmac FAKE_SRC_MAC) } }
  | some .noAction | none => s

/-- The outer addresses that an entry of `port_for_mac_tbl`, or a miss, writes. -/
def portForMacTblApply (env : Surroundings) (s : IngressState) : IngressState :=
  match env.tables.portForMacTbl.lookup s.md.encapInfo.port with
  | some (.portForMac smac dmac) =>
    { s with hdr := { s.hdr with ethernet := s.hdr.ethernet.map (setMacs dmac smac) } }
  | some .fakeMacForOuter | none =>
    { s with hdr := { s.hdr with ethernet := s.hdr.ethernet.map (setMacs 0x112233445577 0x112233445588) } }

/-- What both hit branches do: `nhop_tbl`, `neigh_tbl`, `port_for_mac_tbl`. -/
def forward (env : Surroundings) (s : IngressState) : IngressState :=
  portForMacTblApply env (neighTblApply env (nhopTblApply env s))

def IngressState.setDigestType (digestType : BitVec 3) (s : IngressState) : IngressState :=
  { s with intrinsic := { s.intrinsic with digestType := digestType } }

@[simp] theorem IngressState.setDigestType_digestType (digestType : BitVec 3) (s : IngressState) :
    (s.setDigestType digestType).intrinsic.digestType = digestType := rfl

/-- `sk.apply(ig_md)` and the digest type that follows from its flag. -/
def sample (env : Surroundings) (s : IngressState) : IngressState :=
  let s := Sketch.apply env s
  if s.md.eflag = 1 then s.setDigestType FK_LEARN_DIGEST else s.setDigestType 0

/-- The branch for a packet that misses `route_tbl`. -/
def selectRoute (env : Surroundings) (s : IngressState) : IngressState :=
  match routeSeleTblApply env (sample env s) with
  | (s, true) => forward env s
  | (s, false) => s

def ShcIngress.apply (env : Surroundings) (s : IngressState) : IngressState :=
  if s.hdr.ipv4.isSome then
    match routeTblApply env (tunnelMapVrfTblApply env (pktNumCount0 s)) with
    | (s, true) => forward env s
    | (s, false) => selectRoute env s
  else s

/-! ## The deparser -/

structure FlowkeyDigest where
  type : BitVec 1
  srcIpDigest : Ipv4Addr
  dstIpDigest : Ipv4Addr
  count : BitVec 32
  deriving DecidableEq

def flowkeyDigest (env : Surroundings) (s : IngressState) : Option FlowkeyDigest :=
  if s.intrinsic.digestType = FK_LEARN_DIGEST then
    let outer := s.hdr.ipv4.getD env.invalid.ipv4
    some ⟨s.md.typeForDigest, outer.srcAddr, outer.dstAddr, s.md.pktNC⟩
  else none

def ShcHeader.emit (hdr : ShcHeader) : Bits :=
  DataPlane.emit EthernetH.emit hdr.ethernet ++ DataPlane.emit Ipv4H.emit hdr.ipv4 ++
    DataPlane.emit UdpH.emit hdr.udp ++ DataPlane.emit TcpH.emit hdr.tcp ++
    DataPlane.emit VxlanH.emit hdr.vxlan ++ DataPlane.emit EthernetH.emit hdr.innerEthernet ++
    DataPlane.emit Ipv4H.emit hdr.innerIpv4

/-- Only the outer checksum is computed again. -/
def ShcHeader.updateChecksum (hdr : ShcHeader) : ShcHeader :=
  { hdr with ipv4 := hdr.ipv4.map Ipv4H.updateChecksum }

def ShcIngressDeparser (env : Surroundings) (s : IngressState) : Option FlowkeyDigest × Bits :=
  (flowkeyDigest env s, s.hdr.updateChecksum.emit)

/-! ## The pipeline -/

def ParserState.enter (regs : Registers) (parsed : ParserState) : IngressState :=
  ⟨parsed.hdr, parsed.md, {}, regs⟩

structure PipelineOutput where
  left : IngressState
  digest : Option FlowkeyDigest
  sent : Bits

def shcIngressPipeline (env : Surroundings) (regs : Registers) (pkt : Bits) : Option PipelineOutput :=
  match ShcIngressParser pkt with
  | (_, .reject) => none
  | (parsed, .accept) =>
    let left := ShcIngress.apply env (parsed.enter regs)
    let (digest, emitted) := ShcIngressDeparser env left
    some ⟨left, digest, emitted ++ parsed.payload⟩

end Tao.DataPlane.FullChain
