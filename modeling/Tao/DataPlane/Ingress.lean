import Tao.DataPlane.Sketch
import Tao.Foundation.Table

/-! # The `ShcIngress` control and the digest of `ShcIngressDeparser` -/

namespace Tao.DataPlane

open Tao.Foundation

def activeFlowLearnDigest : BitVec 3 := 1

structure FlowKey where
  srcAddr : Ipv4Addr
  dstAddr : Ipv4Addr
  deriving DecidableEq

inductive RouteAction where
  | routeForNexthop (nhopId : BitVec 32)
  | routeForMiss
  deriving DecidableEq

abbrev RouteTbl := Table FlowKey RouteAction

/-- The fields of `ig_tm_md` and `ig_dprsr_md` that ingress writes. -/
structure IngressIntrinsic where
  ucastEgressPort : PortId := 0
  bypassEgress : BitVec 1 := 0
  digestType : BitVec 3 := 0
  deriving DecidableEq

/-- What arrives at ingress: the parsed headers, the ingress port, and the contents
    `route_tbl` has at that moment. -/
structure Arrival where
  hdr : ShcHeader
  ingressPort : PortId
  routeTbl : RouteTbl

/-- The flow key: inner addresses when an inner IPv4 header was parsed, outer ones otherwise. -/
def flowKey (outer : Ipv4H) (hdr : ShcHeader) : FlowKey :=
  match hdr.innerIpv4 with
  | some inner => ⟨inner.srcAddr, inner.dstAddr⟩
  | none => ⟨outer.srcAddr, outer.dstAddr⟩

/-- `route_tbl.apply()`, with `table_hit` set on a hit. -/
def routeTblApply (arrival : Arrival) (md : ShcIngressMetadata) (intrinsic : IngressIntrinsic) :
    ShcIngressMetadata × IngressIntrinsic :=
  match arrival.routeTbl.lookup ⟨md.srcAddr, md.dstAddr⟩ with
  | some (.routeForNexthop nhopId) =>
    ({ md with nhopId := nhopId, tableHit := 1 }, { intrinsic with ucastEgressPort := arrival.ingressPort })
  | some .routeForMiss =>
    -- an entry may name the default action; it is a hit all the same
    ({ md with tableHit := 1 }, { intrinsic with ucastEgressPort := 160, bypassEgress := 1 })
  -- `table_hit` keeps the 0 of the parser
  | none => (md, { intrinsic with ucastEgressPort := 160, bypassEgress := 1 })

/-- `cuckoo_hash_chose_table`, whose constant entries cover every key. -/
def cuckooHashChose (hashes : CuckooHashesH) (chose : BitVec 2) : BitVec 32 :=
  if chose = 0 then hashes.cuckooHash1
  else if chose = 1 then hashes.cuckooHash2
  else if chose = 2 then hashes.cuckooHash3
  else hashes.cuckooHash4

/-- The choice of `cuckoo_hash_index`: a packet that brings its own hashes uses the index of
    its entry on a hit and one of the four hashes on a miss, any other one 14 bits of `hash1`. -/
def chooseIndex (hashes : HashUnits) (hdr : ShcHeader) (md : ShcIngressMetadata) : ShcIngressMetadata :=
  let md := { md with cuckooHashTmp := hashes.hash1 md.srcAddr md.dstAddr }
  match hdr.cuckooHashes with
  | some own =>
    if md.tableHit = 1#1 then { md with cuckooHashIndex := md.nhopId }
    else
      -- the cast keeps the two low bits
      let chose := md.cuckooHashTmp.setWidth 2
      { md with cuckooHashChose := chose, cuckooHashIndex := cuckooHashChose own chose }
  | none => { md with cuckooHashIndex := md.cuckooHashTmp.setWidth 32 &&& 0x0003fff }

/-- The part of `ShcIngress.apply` before `sk.apply`, for a packet with a valid IPv4 header. -/
def classify (hashes : HashUnits) (outer : Ipv4H) (arrival : Arrival) :
    ShcIngressMetadata × IngressIntrinsic :=
  let key := flowKey outer arrival.hdr
  let (md, intrinsic) :=
    routeTblApply arrival { srcAddr := key.srcAddr, dstAddr := key.dstAddr } {}
  (chooseIndex hashes arrival.hdr md, intrinsic)

def ShcIngress.apply (hashes : HashUnits) (regs : SketchRegisters) (arrival : Arrival) :
    SketchRegisters × ShcIngressMetadata × IngressIntrinsic :=
  match arrival.hdr.ipv4 with
  | none => (regs, {}, {})
  | some outer =>
    let (md, intrinsic) := classify hashes outer arrival
    let (regs, md) := Sketch.apply hashes regs md
    if md.eflag = 1 ∧ md.tableHit = 0 then
      (regs, md, { intrinsic with digestType := activeFlowLearnDigest })
    else (regs, md, { intrinsic with digestType := 0 })

structure FlowkeyDigest where
  srcIpDigest : Ipv4Addr
  dstIpDigest : Ipv4Addr
  acCount : BitVec 32
  deriving DecidableEq

def flowkeyDigest (md : ShcIngressMetadata) (intrinsic : IngressIntrinsic) : Option FlowkeyDigest :=
  if intrinsic.digestType = activeFlowLearnDigest then some ⟨md.srcAddr, md.dstAddr, md.acCount⟩ else none

def ingressRun (hashes : HashUnits) (regs : SketchRegisters) (arrivals : List Arrival) : SketchRegisters :=
  arrivals.foldl (fun regs arrival => (ShcIngress.apply hashes regs arrival).1) regs

def eflagOf (hashes : HashUnits) (regs : SketchRegisters) (arrival : Arrival) : BitVec 1 :=
  (ShcIngress.apply hashes regs arrival).2.1.eflag

def digestOf (hashes : HashUnits) (regs : SketchRegisters) (arrival : Arrival) : Option FlowkeyDigest :=
  let outcome := ShcIngress.apply hashes regs arrival
  flowkeyDigest outcome.2.1 outcome.2.2

end Tao.DataPlane
