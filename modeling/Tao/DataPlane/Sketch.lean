import Tao.DataPlane.Headers
import Mathlib.Algebra.Group.Nat.Defs
import Mathlib.Logic.Function.Basic

/-! # The `Sketch` control

Each bucket keeps the fingerprint of the flow that was last mapped to it
(`hash1_1`) and the number of consecutive packets that carried it
(`hash1_1_n`). -/

namespace Tao.DataPlane

def hitCount : Nat := 10

/-- The saturating addition `|+|`. -/
def satAdd {w : Nat} (a b : BitVec w) : BitVec w :=
  if a.toNat + b.toNat < 2 ^ w then a + b else BitVec.allOnes w

structure SketchRegisters where
  pktNum : BitVec 32
  hash1_1 : HashBucket → BitVec 16
  hash1_1_n : HashBucket → BitVec 8

/-- The declared initial contents: `hash1_1` defaults to 0, `hash1_1_n` is declared with 1. -/
def SketchRegisters.initial : SketchRegisters where
  pktNum := 0
  hash1_1 := fun _ => 0
  hash1_1_n := fun _ => 1

/-- The register action `pkt_update_1`: the new fingerprint and `pkt_num_o`. -/
def pktUpdate1 (fingerprint registerData : BitVec 16) : BitVec 16 × BitVec 1 :=
  if fingerprint = registerData then (registerData, 1) else (fingerprint, 0)

/-- The register action `pkt_num_1`: the new count, which is also `pkt_num_o`. -/
def pktNum1 (fpCmpRe : BitVec 1) (registerData : BitVec 8) : BitVec 8 :=
  if fpCmpRe = 1 then satAdd registerData 1 else 1

def countPktNum (regs : SketchRegisters) (md : ShcIngressMetadata) : SketchRegisters × ShcIngressMetadata :=
  let pktN := satAdd regs.pktNum 1
  ({ regs with pktNum := pktN }, { md with pktNC := pktN, pktNDoneFlag := 1 })

def getHashValue (hashes : HashUnits) (md : ShcIngressMetadata) : ShcIngressMetadata :=
  { md with fingerprint := hashes.hash2 md.srcAddr md.dstAddr }

/-- `update_pkt_1_table`.  The index is the 32-bit `cuckoo_hash_index` cast to 16 bits. -/
def updatePkt1 (regs : SketchRegisters) (md : ShcIngressMetadata) : SketchRegisters × ShcIngressMetadata :=
  let bucket := md.cuckooHashIndex.setWidth 16
  let result := pktUpdate1 md.fingerprint (regs.hash1_1 bucket)
  ({ regs with hash1_1 := Function.update regs.hash1_1 bucket result.1 },
    { md with fpCmpRe := result.2, hashIndexDone := 1 })

def updatePktNum1 (regs : SketchRegisters) (md : ShcIngressMetadata) : SketchRegisters × ShcIngressMetadata :=
  let bucket := md.cuckooHashIndex.setWidth 16
  let count := pktNum1 md.fpCmpRe (regs.hash1_1_n bucket)
  ({ regs with hash1_1_n := Function.update regs.hash1_1_n bucket count }, { md with csCount := count })

def Sketch.apply (hashes : HashUnits) (regs : SketchRegisters) (md : ShcIngressMetadata) :
    SketchRegisters × ShcIngressMetadata :=
  let (regs, md) := countPktNum regs md
  let md := getHashValue hashes md
  let (regs, md) := updatePkt1 regs md
  -- `update_pkt_1` has just set the flag
  if md.hashIndexDone = 1 then
    let (regs, md) := updatePktNum1 regs md
    if md.csCount = BitVec.ofNat 8 hitCount then (regs, { md with eflag := 1 })
    else (regs, { md with eflag := 0 })
  else (regs, md)

end Tao.DataPlane
