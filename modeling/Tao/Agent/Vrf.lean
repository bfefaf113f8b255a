import Tao.Agent.Route
import Tao.Hal.Tables

/-! # VRFs and their tunnels (`vrf.c`, `tunnel_map.c`)

`g_ntb_vrfs` is an array of slots; the VRF of slot `i` has the id `i + 1`.  Tunnels
are found through `vrf_hash_tbl` and listed by their VRF.  `none` stands for
undefined behaviour: a slot read outside the array, a null `vrf_dp`, a tunnel node
that was freed, and the removal of a node that the list does not have. -/

namespace Tao.Agent

open Tao.Foundation Tao.Hal

/-! ## Names -/

def ntbVrfNameLen : Nat := 64

/-- A C string: the bytes before its terminating zero. -/
structure CString where
  bytes : List (BitVec 8)
  noNul : 0 ∉ bytes
  deriving DecidableEq

/-- `name[NTB_VRF_NAME_LEN]`: the bytes before the first zero, if there is one. -/
structure VrfName where
  bytes : List (BitVec 8)
  noNul : 0 ∉ bytes
  fits : bytes.length ≤ ntbVrfNameLen
  deriving DecidableEq

def VrfName.strncpy (vrfName : CString) : VrfName where
  bytes := vrfName.bytes.take ntbVrfNameLen
  noNul := fun member => vrfName.noNul (List.mem_of_mem_take member)
  fits := List.length_take_le _ _

/-- `name` as `strcmp` reads it in a valid slot.  A name that fills the buffer runs on into
    `valid`, the four bytes 1, 0, 0, 0. -/
def VrfName.read (name : VrfName) : List (BitVec 8) :=
  if name.bytes.length < ntbVrfNameLen then name.bytes else name.bytes ++ [1]

/-! ## Data -/

inductive NtbTunnelType where
  | invalid
  | vxlan
  | tgre
  | max
  deriving DecidableEq

/-- `ntb_tunnel_id_t`: the members of the union are one word. -/
abbrev NtbTunnelId := BitVec 32

structure TunnelMapKey where
  type : NtbTunnelType
  id : NtbTunnelId
  deriving DecidableEq

/-- `struct ntb_tunnel_info`, less its links and the fields that nothing sets. -/
structure NtbTunnelInfo where
  vrfId : BitVec 32
  deriving DecidableEq

/-- `dp.vrf_id` of a slot. -/
def dpVrfId (i : Nat) : BitVec 32 := BitVec.ofNat 32 (i + 1)

/-- The fields of `vrf_dp_t` that are not part of the routing state. -/
structure VrfDp where
  tunnelRmap : List Addr := []
  tunnelCnt : Nat := 0
  internalIp : BitVec 32 := 0
  routeMac : EtherAddr := 0

structure NtbVrf where
  name : VrfName := ⟨[], List.not_mem_nil, Nat.zero_le _⟩
  valid : Bool := false
  dp : VrfDp := {}

/-- The agent and the hardware tables it programs.  `tunnels` are the live
    `struct ntb_tunnel_info` nodes. -/
structure AgentState where
  gNtbVrfs : Nat → NtbVrf
  gNtbVrfN : Int
  vrfHashTbl : Table TunnelMapKey Addr
  tunnels : Table Addr NtbTunnelInfo
  route : RouteState
  hw : HwTables

def AgentState.initial : AgentState := ⟨fun _ => {}, 0, ∅, ∅, .initial, .empty⟩

def AgentState.updateDp (i : Nat) (f : VrfDp → VrfDp) (s : AgentState) : AgentState :=
  { s with gNtbVrfs := Function.update s.gNtbVrfs i { s.gNtbVrfs i with dp := f (s.gNtbVrfs i).dp } }

/-! ## Slots -/

def ntbVrfLookup (vrfName : CString) (s : AgentState) : Option Nat :=
  scan (fun i => (s.gNtbVrfs i).valid && decide ((s.gNtbVrfs i).name.read = vrfName.bytes)) ntbNrVrf 0

/-- `ntb_vrf_get_by_id`.  `index` is signed and has no lower bound. -/
def ntbVrfGetById (vrfid : BitVec 32) (s : AgentState) : Option (Option Nat) :=
  let index := (vrfid - 1).toInt
  if index < 0 then none
  else if index < ntbNrVrf ∧ (s.gNtbVrfs index.toNat).valid then some (some index.toNat)
  else some none

/-- `ntb_vrf_dp_get_by_id`: the slot whose `dp` is returned. -/
def ntbVrfDpGetById (vrfid : BitVec 32) (s : AgentState) : Option (Option Nat) := ntbVrfGetById vrfid s

/-- `ntb_vrf_dp_ctor`; `neigh_cnt` is kept in the neighbour table. -/
def ntbVrfDpCtor (i : Nat) (s : AgentState) : AgentState :=
  let neigh := s.route.store.neigh
  { s.updateDp i fun dp => { dp with tunnelRmap := [], tunnelCnt := 0 } with
    route := { s.route with
      store := { s.route.store with
        neigh := { neigh with neighCnt := Function.update neigh.neighCnt (i + 1) 0 } } } }

def ntbVrfAdd (vrfName : CString) (s : AgentState) : AgentState × Int :=
  match ntbVrfLookup vrfName s with
  | some _ => (s, 0)
  | none =>
    match scan (fun i => !(s.gNtbVrfs i).valid) ntbNrVrf 0 with
    | none => (s, ntbVrfNoent)
    | some freeEnt =>
      -- the constructor drops the list of tunnels without freeing them
      let s := ntbVrfDpCtor freeEnt s
      let dp := { (s.gNtbVrfs freeEnt).dp with routeMac := fakeMac }
      ({ s with
          gNtbVrfs := Function.update s.gNtbVrfs freeEnt ⟨.strncpy vrfName, true, dp⟩
          gNtbVrfN := s.gNtbVrfN + 1 }, 0)

/-! ## The hardware tunnel map -/

def shcHalTunnelMapVrfKey (type : NtbTunnelType) (id : NtbTunnelId) : HalTunnelMapVrfKey :=
  if type = .vxlan then ⟨.vxlan, id⟩ else ⟨.gre, id⟩

/-- `_shc_hal_tunnel_map_vrf_entry_add`.  A GRE entry gets `id.vni` for its VRF. -/
def shcHalTunnelMapVrfEntryAdd (duplicate : HalDuplicate) (accepts : Bool) (type : NtbTunnelType)
    (id : NtbTunnelId) (vrfId : BitVec 32) (hw : HwTables) : HwTables × Int :=
  let data : HalTunnelMapVrfData := if type = .vxlan then ⟨vrfId⟩ else ⟨id⟩
  match halEntryAdd duplicate accepts hw.tunnelMapVrf (shcHalTunnelMapVrfKey type id) data with
  | none => (hw, ntbLoadToP4Fail)
  | some tunnelMapVrf => ({ hw with tunnelMapVrf := tunnelMapVrf }, 0)

def shcHalTunnelMapVrfEntryDel (accepts : Bool) (type : NtbTunnelType) (id : NtbTunnelId) (hw : HwTables) :
    HwTables × Int :=
  match halEntryDel accepts hw.tunnelMapVrf (shcHalTunnelMapVrfKey type id) with
  | none => (hw, ntbLoadToP4Fail)
  | some tunnelMapVrf => ({ hw with tunnelMapVrf := tunnelMapVrf }, 0)

/-! ## Tunnels -/

structure TunnelEnv where
  memory : Option Addr
  room : Bool

/-- `ntb_tunnel_map_vrf`.  The `tunnel_attr` argument is not read. -/
def ntbTunnelMapVrf (env : TunnelEnv) (vrfName : CString) (type : NtbTunnelType) (id : NtbTunnelId)
    (s : AgentState) : Option (AgentState × Int) :=
  match ntbVrfLookup vrfName s with
  | none => some (s, ntbVrfNotExist)
  | some i =>
    match s.vrfHashTbl.lookup ⟨type, id⟩ with
    | some a =>
      match s.tunnels.lookup a with
      | none => none
      | some tunnelI => some (s, if tunnelI.vrfId ≠ dpVrfId i then ntbTunnelInused else 0)
    | none =>
      match rteZmalloc s.tunnels env.memory with
      | none => some (s, ntbCommNomem)
      | some a =>
        match Table.add env.room s.vrfHashTbl ⟨type, id⟩ a with
        | none => some (s, ntbTunnelMapNospace)
        | some vrfHashTbl =>
          some ({ s.updateDp i fun dp => { dp with
                    tunnelRmap := a :: dp.tunnelRmap
                    tunnelCnt := dp.tunnelCnt + 1 } with
                  vrfHashTbl := vrfHashTbl
                  tunnels := s.tunnels.insert a ⟨dpVrfId i⟩ }, 0)

/-- `SLIST_REMOVE`: the element has to be on the list. -/
def slistRemove (l : List Addr) (a : Addr) : Option (List Addr) := if a ∈ l then some (l.erase a) else none

/-- `ntb_tunnel_unmap_vrf`.  `__tunnel_unmap` is commented out: the key stays in the hash. -/
def ntbTunnelUnmapVrf (accepts : Bool) (type : NtbTunnelType) (id : NtbTunnelId) (s : AgentState) :
    Option (AgentState × Int) :=
  match s.vrfHashTbl.lookup ⟨type, id⟩ with
  | none => some (s, 0)
  | some a =>
    match s.tunnels.lookup a with
    | none => none
    | some tunnelI =>
      match ntbVrfDpGetById tunnelI.vrfId s with
      | none => none
      | some none => none -- a null `vrf_dp`
      | some (some i) =>
        match slistRemove (s.gNtbVrfs i).dp.tunnelRmap a with
        | none => none
        | some tunnelRmap =>
          some ({ s.updateDp i fun dp => { dp with
                    tunnelRmap := tunnelRmap
                    tunnelCnt := decrement32 dp.tunnelCnt } with
                  tunnels := s.tunnels.erase a
                  hw := (shcHalTunnelMapVrfEntryDel accepts type id s.hw).1 }, 0)

/-- The loop of `ntb_tunnel_map_cleanup`: every node of the list is freed and counted down. -/
def tunnelMapCleanupLoop : List Addr → Table Addr NtbTunnelInfo → Nat → Option (Table Addr NtbTunnelInfo × Nat)
  | [], tunnels, tunnelCnt => some (tunnels, tunnelCnt)
  | a :: rest, tunnels, tunnelCnt =>
    if a ∈ tunnels then tunnelMapCleanupLoop rest (tunnels.erase a) (decrement32 tunnelCnt) else none

def ntbTunnelMapCleanup (i : Nat) (s : AgentState) : Option AgentState :=
  (tunnelMapCleanupLoop (s.gNtbVrfs i).dp.tunnelRmap s.tunnels (s.gNtbVrfs i).dp.tunnelCnt).map fun rest =>
    { s.updateDp i fun dp => { dp with tunnelRmap := [], tunnelCnt := rest.2 } with tunnels := rest.1 }

/-! ## Deleting a VRF -/

def ntbVrfDpDtor (iterate : RteHashIterate) (i : Nat) (s : AgentState) : Option AgentState :=
  match ntbRouteCleanup iterate (i + 1) s.route with
  | none => none
  | some route =>
    (ntbTunnelMapCleanup i { s with route := route }).map (AgentState.updateDp i fun dp =>
      { dp with internalIp := 0 })

def ntbVrfDel (iterate : RteHashIterate) (vrfName : CString) (s : AgentState) : Option AgentState :=
  match ntbVrfLookup vrfName s with
  | none => some s
  | some i =>
    (ntbVrfDpDtor iterate i s).map fun s => { s with
      gNtbVrfs := Function.update s.gNtbVrfs i
        { s.gNtbVrfs i with name := ⟨[], List.not_mem_nil, Nat.zero_le _⟩, valid := false }
      gNtbVrfN := s.gNtbVrfN - 1 }

/-! ## Attributes -/

def ntbVrfIdLookup (vrfName : CString) (s : AgentState) : Int :=
  match ntbVrfLookup vrfName s with
  | none => ntbVrfNotExist
  | some i => (dpVrfId i).toInt

def ntbVrfIntipSet (vrfName : CString) (intip : BitVec 32) (s : AgentState) : AgentState × Int :=
  match ntbVrfLookup vrfName s with
  | none => (s, ntbVrfNotExist)
  | some i => (s.updateDp i fun dp => { dp with internalIp := intip }, 0)

def ntbVrfIntipUnset (vrfName : CString) (s : AgentState) : AgentState × Int := ntbVrfIntipSet vrfName 0 s

/-- What is written to `*vrf_ip`, or the error code. -/
def ntbVrfIntipGet (vrfName : CString) (s : AgentState) : Except Int (BitVec 32) :=
  match ntbVrfLookup vrfName s with
  | none => .error ntbVrfNotExist
  | some i => .ok (s.gNtbVrfs i).dp.internalIp

def ntbVrfRmacSet (vrfName : CString) (routeMac : EtherAddr) (s : AgentState) : AgentState × Int :=
  match ntbVrfLookup vrfName s with
  | none => (s, ntbVrfNotExist)
  | some i => (s.updateDp i fun dp => { dp with routeMac := routeMac }, 0)

/-- The address to be taken back has to be the one in use. -/
def ntbVrfRmacUnset (vrfName : CString) (routeMac : EtherAddr) (s : AgentState) : AgentState × Int :=
  match ntbVrfLookup vrfName s with
  | none => (s, ntbVrfNotExist)
  | some i =>
    if routeMac ≠ (s.gNtbVrfs i).dp.routeMac then (s, ntbCommInvalParam)
    else (s.updateDp i fun dp => { dp with routeMac := fakeMac }, 0)

def ntbVrfRmacGet (vrfName : CString) (s : AgentState) : Except Int EtherAddr :=
  match ntbVrfLookup vrfName s with
  | none => .error ntbVrfNotExist
  | some i => .ok (s.gNtbVrfs i).dp.routeMac

/-! ## Runs -/

/-- The calls on the VRF registry and the tunnel store, with what they are answered. -/
inductive VrfCall where
  | vrfAdd (vrfName : CString)
  | vrfDel (iterate : RteHashIterate) (vrfName : CString)
  | tunnelMap (env : TunnelEnv) (vrfName : CString) (type : NtbTunnelType) (id : NtbTunnelId)
  | tunnelUnmap (accepts : Bool) (type : NtbTunnelType) (id : NtbTunnelId)

def vrfStep (s : AgentState) : VrfCall → Option AgentState
  | .vrfAdd vrfName => some (ntbVrfAdd vrfName s).1
  | .vrfDel iterate vrfName => ntbVrfDel iterate vrfName s
  | .tunnelMap env vrfName type id => (ntbTunnelMapVrf env vrfName type id s).map Prod.fst
  | .tunnelUnmap accepts type id => (ntbTunnelUnmapVrf accepts type id s).map Prod.fst

end Tao.Agent
