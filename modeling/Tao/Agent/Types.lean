import Tao.Foundation.Table
import Mathlib.Data.Finset.Insert

/-! # Data of the agent

Constants, error codes and structures of `ntb_dp.h`, `ntb_errno.h`, `route.h`,
`neigh.h` and `tunnel_map.h`.  The structures are packed, so comparing their bytes
is comparing their fields. -/

namespace Tao.Agent

open Tao.Foundation

/-! ## Limits -/

def ntbNrVrf : Nat := 4096
def ntbNrFibResAll : Nat := 800 * 1024
-- `ROUTE_MAX_ECMP`: the number of slots of `mpath[]`.
def routeMaxEcmp : Nat := 1
def mrouteMaxEcmp : Nat := 8

/-! ## Error codes

The codes of `ntb_errno.h` count down from 0 in the order of `foreach_ntb_err_code`. -/

def ntbCommNomem : Int := -2
def ntbCommInvalParam : Int := -4
def ntbVrfNoent : Int := -7
def ntbTunnelInused : Int := -12
def ntbTunnelMapNospace : Int := -13
def ntbIpv4RoutetypeNoSame : Int := -24
def ntbRouteNhAllocOidFail : Int := -29
def ntbVrfNotExist : Int := -32
def ntbRoutePrefixNospace : Int := -33
def ntbRouteResultNospace : Int := -35
def ntbRouteNexthopEcmpNospace : Int := -37
def ntbRoutePrefixNotFound : Int := -39
def ntbLoadToP4Fail : Int := -40

def enoent : Int := 2
def enomem : Int := 12
def efault : Int := 14

/-! ## Identifiers -/

/-- `vrf_id`: the slot of the VRF plus one. -/
abbrev VrfId := Nat
-- An index of `fib_res_array`.
abbrev FibResId := Nat
/-- The address of an object from `rte_zmalloc`. -/
abbrev Addr := Nat
-- An object id of the hardware.
abbrev Oid := BitVec 32
/-- An IPv4 address as it lies in memory, in network byte order. -/
abbrev Ip4 := BitVec 32
abbrev EtherAddr := BitVec 48

/-- `rte_be_to_cpu_32` on a little-endian host. -/
def rteBeToCpu32 (x : BitVec 32) : BitVec 32 :=
  x.extractLsb' 0 8 ++ x.extractLsb' 8 8 ++ x.extractLsb' 16 8 ++ x.extractLsb' 24 8

/-! ## Routes -/

inductive NtbEncapType where
  | invalid
  | vxlan
  | tgre
  | max
  deriving DecidableEq

inductive RibType where
  | default
  | mroute
  | max
  deriving DecidableEq

inductive PrefixType where
  | invalid
  | lpm
  | host
  deriving DecidableEq

structure NtbRibKey where
  vrfId : VrfId
  family : BitVec 8
  prefixlen : BitVec 8
  prefix4 : Ip4
  deriving DecidableEq

/-- `struct ip_tunnel_info`.  The three words are the union of `vxlan` and `tgre`. -/
structure IpTunnelInfo where
  family : BitVec 8 := 0
  type : NtbEncapType := .invalid
  word0 : BitVec 32 := 0
  word1 : BitVec 32 := 0
  word2 : BitVec 32 := 0
  deriving DecidableEq

namespace IpTunnelInfo

def vxlanRemote (info : IpTunnelInfo) : BitVec 32 := info.word0
def vxlanLocal (info : IpTunnelInfo) : BitVec 32 := info.word1
-- The bit field `vni:24`.
def vxlanVni (info : IpTunnelInfo) : BitVec 24 := info.word2.extractLsb' 0 24

/-- The VXLAN member of the union, filled in.  The bit field `dscp:8` lies above `vni:24`. -/
def vxlan (family : BitVec 8) (remote loc : BitVec 32) (vni : BitVec 24) (dscp : BitVec 8) : IpTunnelInfo :=
  ⟨family, .vxlan, remote, loc, dscp ++ vni⟩

def tgre (family : BitVec 8) (remote vpcid vmip : BitVec 32) : IpTunnelInfo :=
  ⟨family, .tgre, remote, vpcid, vmip⟩

end IpTunnelInfo

structure FibNhopEncapData where
  gateway : Ip4
  tunnelInfo : IpTunnelInfo
  deriving DecidableEq

structure NtbNhopHashKey where
  gateway : Ip4
  tunnelInfo : IpTunnelInfo
  deriving DecidableEq

structure FibNhop where
  nhOid : Oid := 0
  refCount : Nat := 0
  neighOid : Oid := 0
  gateway : Ip4 := 0
  tunnelInfo : IpTunnelInfo := {}
  deriving DecidableEq

/-- `struct fib_res`.  `mpath` lists the `mpath_cnt` pointers in use. -/
structure FibRes where
  fResOid : Oid
  frFlags : BitVec 32
  mpathMax : Nat
  mpath : List Addr
  mpathFits : mpath.length ≤ routeMaxEcmp
  deriving DecidableEq

def FibRes.mpathCnt (fRes : FibRes) : Nat := fRes.mpath.length

def frfReject : BitVec 32 := 1
def frfMroute : BitVec 32 := 2

/-! ## Neighbours -/

structure OlNeighLookupKey where
  vrfid : VrfId
  nexthop : Ip4
  deriving DecidableEq

structure RteEtherHdr where
  dAddr : EtherAddr := 0
  sAddr : EtherAddr := 0
  etherType : BitVec 16 := 0
  deriving DecidableEq

structure OlNeighEntry where
  fArpValid : Bool := false
  fFastArp : Bool := false
  fEntryValid : Bool := false
  fArpStatic : Bool := false
  hhLen : Nat := 0
  hh : RteEtherHdr := {}
  neighOid : Oid := 0
  refcnt : Nat := 0
  deriving DecidableEq

/-! ## Counters and allocators -/

/-- `x--` on a `uint32_t`. -/
def decrement32 (n : Nat) : Nat := if n = 0 then 2 ^ 32 - 1 else n - 1

theorem decrement32_succ (n : Nat) : decrement32 (n + 1) = n := rfl

/-- The answer of an allocator of object ids: an id, or a negative code. -/
abbrev OidAnswer := Except { code : Int // code < 0 } Oid

/-- `hal_*_alloc_oid`.  An id that is outstanding is not handed out again. -/
def halAllocOid (outstanding : Finset Oid) : OidAnswer → OidAnswer
  | .ok oid => if oid ∈ outstanding then .error ⟨-1, by decide⟩ else .ok oid
  | .error code => .error code

/-- `rte_zmalloc`: fails, or returns memory that is not in use. -/
def rteZmalloc {α : Type} (inUse : Table Addr α) (answer : Option Addr) : Option Addr :=
  answer.filter fun a => a ∉ inUse

theorem rteZmalloc_some {α : Type} {inUse : Table Addr α} {answer : Option Addr} {a : Addr} :
    rteZmalloc inUse answer = some a ↔ answer = some a ∧ a ∉ inUse := by
  simp [rteZmalloc, Option.filter_eq_some_iff]

end Tao.Agent
