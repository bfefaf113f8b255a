import Tao.Agent.Types

/-! # The hardware tables behind the `hal_*` calls

The four tables of the full chain are exact-match tables.  Each add and delete is
answered by the driver; a delete of an absent entry fails, and what an add does to
an entry that is present is a property of the hardware, `HalDuplicate`. -/

namespace Tao.Hal

open Tao.Foundation Tao.Agent

inductive HalTunnelType where
  | vxlan
  | gre
  deriving DecidableEq

structure HalTunnelMapVrfKey where
  tunnelType : HalTunnelType
  tunnelKey : BitVec 32
  deriving DecidableEq

structure HalTunnelMapVrfData where
  vrf : BitVec 32
  deriving DecidableEq

/-- `hal_route_key` with its VRF.  The addresses are numbers, in host byte order. -/
structure HalRouteKey where
  vrf : BitVec 32
  ipSrcAddr : BitVec 32
  ipDstAddr : BitVec 32
  deriving DecidableEq

structure HalRouteData where
  nhopId : Oid
  deriving DecidableEq

structure HalNhopKey where
  nhopId : Oid
  deriving DecidableEq

structure HalNhopData where
  tunnelKey : BitVec 32
  loc : BitVec 32
  remote : BitVec 32
  neighId : Oid
  deriving DecidableEq

structure HalNeighKey where
  neighId : Oid
  deriving DecidableEq

structure HalNeighData where
  dmac : EtherAddr
  deriving DecidableEq

/-- The contents of `tunnel_map_vrf_tbl`, `route_tbl`, `nhop_tbl` and `neigh_tbl`. -/
@[ext]
structure HwTables where
  tunnelMapVrf : Table HalTunnelMapVrfKey HalTunnelMapVrfData
  route : Table HalRouteKey HalRouteData
  nhop : Table HalNhopKey HalNhopData
  neigh : Table HalNeighKey HalNeighData
  deriving DecidableEq

def HwTables.empty : HwTables := ⟨∅, ∅, ∅, ∅⟩

/-- The keys of the four entries of a rule. -/
structure HwChain where
  tunnel : HalTunnelMapVrfKey
  route : HalRouteKey
  nhop : HalNhopKey
  neigh : HalNeighKey
  deriving DecidableEq

def HwTables.only (hw : HwTables) (chain : HwChain) : HwTables :=
  ⟨hw.tunnelMapVrf.only chain.tunnel, hw.route.only chain.route, hw.nhop.only chain.nhop,
    hw.neigh.only chain.neigh⟩

/-- What the add of an entry that is present does. -/
inductive HalDuplicate where
  | refused
  | overwritten
  deriving DecidableEq

section Entry

variable {κ α : Type} [DecidableEq κ]

/-- The driver carries out an add. -/
def HalAdds (duplicate : HalDuplicate) (accepts : Bool) (t : Table κ α) (k : κ) : Prop :=
  accepts = true ∧ (k ∈ t → duplicate = .overwritten)

def HalDels (accepts : Bool) (t : Table κ α) (k : κ) : Prop := accepts = true ∧ k ∈ t

instance (duplicate : HalDuplicate) (accepts : Bool) (t : Table κ α) (k : κ) :
    Decidable (HalAdds duplicate accepts t k) :=
  inferInstanceAs (Decidable (_ ∧ _))

instance (accepts : Bool) (t : Table κ α) (k : κ) : Decidable (HalDels accepts t k) :=
  inferInstanceAs (Decidable (_ ∧ _))

def halEntryAdd (duplicate : HalDuplicate) (accepts : Bool) (t : Table κ α) (k : κ) (a : α) :
    Option (Table κ α) :=
  if HalAdds duplicate accepts t k then some (t.insert k a) else none

def halEntryDel (accepts : Bool) (t : Table κ α) (k : κ) : Option (Table κ α) :=
  if HalDels accepts t k then some (t.erase k) else none

theorem halEntryAdd_of_adds {duplicate : HalDuplicate} {accepts : Bool} {t : Table κ α} {k : κ}
    (adds : HalAdds duplicate accepts t k) (a : α) :
    halEntryAdd duplicate accepts t k a = some (t.insert k a) := if_pos adds

theorem halEntryAdd_of_refused {duplicate : HalDuplicate} {accepts : Bool} {t : Table κ α} {k : κ}
    (refused : ¬ HalAdds duplicate accepts t k) (a : α) : halEntryAdd duplicate accepts t k a = none :=
  if_neg refused

theorem halEntryDel_of_dels {accepts : Bool} {t : Table κ α} {k : κ} (dels : HalDels accepts t k) :
    halEntryDel accepts t k = some (t.erase k) := if_pos dels

theorem halEntryDel_of_refused {accepts : Bool} {t : Table κ α} {k : κ} (refused : ¬ HalDels accepts t k) :
    halEntryDel accepts t k = none := if_neg refused

end Entry

end Tao.Hal
