import Tao.Agent.Types

/-! # The forwarding table (`rte_fib`)

A FIB maps address prefixes, masked to their length, to results. -/

namespace Tao.Agent

open Tao.Foundation

def prefixMask (depth : Nat) : BitVec 32 := BitVec.allOnes 32 <<< (32 - depth)

/-- A prefix of at most 32 bits without host bits. -/
structure FibPrefix where
  addr : BitVec 32
  depth : Nat
  depth_le : depth ≤ 32
  masked : addr &&& prefixMask depth = addr
  deriving DecidableEq

def FibPrefix.mask (ip : BitVec 32) (depth : Nat) : Option FibPrefix :=
  if depth_le : depth ≤ 32 then
    some ⟨ip &&& prefixMask depth, depth, depth_le, by rw [BitVec.and_assoc, BitVec.and_self]⟩
  else none

/-- What the FIB stores for a key of the RIB. -/
def NtbRibKey.fibPrefix (pfx : NtbRibKey) : Option FibPrefix :=
  FibPrefix.mask (rteBeToCpu32 pfx.prefix4) pfx.prefixlen.toNat

abbrev RteFib := Table FibPrefix FibResId

def rteFibAdd (accepts : Bool) (fib : RteFib) (ip : BitVec 32) (depth : Nat) (nextHop : FibResId) :
    Option RteFib :=
  match FibPrefix.mask ip depth with
  | none => none
  | some p => if accepts then some (fib.insert p nextHop) else none

def rteFibDelete (fib : RteFib) (ip : BitVec 32) (depth : Nat) : Option RteFib :=
  match FibPrefix.mask ip depth with
  | none => none
  | some p => if p ∈ fib then some (fib.erase p) else none

def rteFibExact (fib : RteFib) (ip : BitVec 32) (depth : Nat) : Option FibResId :=
  (FibPrefix.mask ip depth).bind fib.lookup

/-- The longest route of length at most `depth` that covers an address. -/
def rteFibLongest (fib : RteFib) (ip : BitVec 32) : Nat → Option FibResId
  | 0 => rteFibExact fib ip 0
  | depth + 1 => (rteFibExact fib ip (depth + 1)).orElse fun _ => rteFibLongest fib ip depth

def rteFibLookup (fib : RteFib) (defaultNh : FibResId) (ip : BitVec 32) : FibResId :=
  (rteFibLongest fib ip 32).getD defaultNh

end Tao.Agent
