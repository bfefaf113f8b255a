import Tao.Foundation.Bits

/-! # Classic BPF

The instructions of a socket filter on an accumulator and an index register.  Jumps only
go forward, so a program runs along its own list, with a number of instructions still to
skip.  A load past the end of the packet ends the filter with 0. -/

namespace Tao.Foundation

inductive BpfInsn where
  /-- `BPF_LD|BPF_B|BPF_ABS` -/
  | ldB (k : Nat)
  /-- `BPF_LD|BPF_H|BPF_ABS` -/
  | ldH (k : Nat)
  /-- `BPF_LD|BPF_H|BPF_IND` -/
  | ldHInd (k : Nat)
  /-- `BPF_LDX|BPF_B|BPF_MSH` -/
  | ldxMsh (k : Nat)
  /-- `BPF_JMP|BPF_JEQ|BPF_K` -/
  | jeq (k : BitVec 32) (jt jf : Nat)
  /-- `BPF_JMP|BPF_JSET|BPF_K` -/
  | jset (k : BitVec 32) (jt jf : Nat)
  /-- `BPF_RET|BPF_K` -/
  | ret (k : BitVec 32)

/-- Some bytes of the packet, in network byte order. -/
def packetLoad (bytes offset : Nat) (pkt : Bits) : Option (BitVec 32) :=
  if 8 * (offset + bytes) ≤ pkt.length then some ((field (8 * offset) (8 * bytes) pkt).setWidth 32) else none

/-- The length the filter returns, after skipping some instructions. -/
def bpfRun : Nat → List BpfInsn → BitVec 32 → BitVec 32 → Bits → BitVec 32
  | _, [], _, _, _ => 0
  | skip + 1, _ :: rest, a, x, pkt => bpfRun skip rest a x pkt
  | 0, .ldB k :: rest, _, x, pkt => (packetLoad 1 k pkt).elim 0 fun a => bpfRun 0 rest a x pkt
  | 0, .ldH k :: rest, _, x, pkt => (packetLoad 2 k pkt).elim 0 fun a => bpfRun 0 rest a x pkt
  | 0, .ldHInd k :: rest, _, x, pkt => (packetLoad 2 (x.toNat + k) pkt).elim 0 fun a => bpfRun 0 rest a x pkt
  | 0, .ldxMsh k :: rest, a, _, pkt =>
    (packetLoad 1 k pkt).elim 0 fun byte => bpfRun 0 rest a (4 * (byte &&& 0xf)) pkt
  | 0, .jeq k jt jf :: rest, a, x, pkt => bpfRun (if a = k then jt else jf) rest a x pkt
  | 0, .jset k jt jf :: rest, a, x, pkt => bpfRun (if a &&& k ≠ 0 then jt else jf) rest a x pkt
  | 0, .ret k :: _, _, _, _ => k

def filterAccepts (program : List BpfInsn) (pkt : Bits) : Prop := bpfRun 0 program 0 0 pkt ≠ 0

instance (program : List BpfInsn) (pkt : Bits) : Decidable (filterAccepts program pkt) :=
  inferInstanceAs (Decidable (_ ≠ _))

theorem packetLoad_of_fits {bytes offset : Nat} {pkt : Bits} (fits : 8 * (offset + bytes) ≤ pkt.length) :
    packetLoad bytes offset pkt = some ((field (8 * offset) (8 * bytes) pkt).setWidth 32) :=
  if_pos fits

theorem packetLoad_of_short {bytes offset : Nat} {pkt : Bits} (short : ¬ 8 * (offset + bytes) ≤ pkt.length) :
    packetLoad bytes offset pkt = none :=
  if_neg short

end Tao.Foundation
