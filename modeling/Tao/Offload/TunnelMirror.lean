import Tao.Foundation.Checked
import Tao.Offload.LookupSafety

/-! # The hardware copy of the tunnel map

`ntb_tunnel_map_vrf_lookup` writes the entry that it finds to `tunnel_map_vrf_tbl`, or deletes it
there.  Here it has its return codes and its assertions, which are compiled in under
`RTE_ENABLE_ASSERT`; they want a code other than 0, and 0 is success.  What the hardware ends
up with is compared with the tunnels that were mapped and not released since. -/

namespace Tao.Offload

open Tao.Foundation Tao.Agent Tao.Hal Checked

/-! ## The lookup -/

def rteAssert (rteEnableAssert : Bool) (holds : Prop) [Decidable holds] : Checked Unit :=
  check (rteEnableAssert = true → holds)

/-- The add or the delete that the flag asks for. -/
def shcHalTunnelMapVrfEntrySet (duplicate : HalDuplicate) (accepts : Bool) (type : NtbTunnelType) (id : NtbTunnelId)
    (flagOfAddDel : Int) (vrfId : BitVec 32) (hw : HwTables) : HwTables × Int :=
  if flagOfAddDel = 0 then shcHalTunnelMapVrfEntryAdd duplicate accepts type id vrfId hw
  else shcHalTunnelMapVrfEntryDel accepts type id hw

/-- `ntb_tunnel_map_vrf_lookup`.  No key is stored with a null `tunnel_i`. -/
def ntbTunnelMapVrfLookupChecked (rteEnableAssert : Bool) (duplicate : HalDuplicate) (accepts : Bool)
    (type : NtbTunnelType) (id : NtbTunnelId) (flagOfAddDel : Int) (s : AgentState) (hw : HwTables) :
    Checked (HwTables × Option Nat) :=
  match s.vrfHashTbl.lookup ⟨type, id⟩ with
  | none => .ok (hw, none)
  | some a => do
    let tunnelI ← ofOption (s.tunnels.lookup a)
    let (hw, ret) := shcHalTunnelMapVrfEntrySet duplicate accepts type id flagOfAddDel tunnelI.vrfId hw
    rteAssert rteEnableAssert (ret ≠ 0)
    let vrfDp ← ofOption (ntbVrfDpGetById tunnelI.vrfId s)
    rteAssert rteEnableAssert (vrfDp ≠ none)
    return (hw, vrfDp)

@[simp] theorem rteAssert_off (holds : Prop) [Decidable holds] : rteAssert false holds = .ok () :=
  check_of (by simp)

/-- Without assertions this is the lookup that the rules make. -/
theorem ntbTunnelMapVrfLookupChecked_off (duplicate : HalDuplicate) (accepts : Bool) (type : NtbTunnelType)
    (id : NtbTunnelId) (flagOfAddDel : Int) (s : AgentState) (hw : HwTables) :
    ntbTunnelMapVrfLookupChecked false duplicate accepts type id flagOfAddDel s hw =
      ofOption (ntbTunnelMapVrfLookup duplicate accepts type id flagOfAddDel s hw) := by
  cases held : s.vrfHashTbl.lookup ⟨type, id⟩ with
  | none => simp only [ntbTunnelMapVrfLookupChecked, ntbTunnelMapVrfLookup, held, ofOption_some]
  | some a =>
    cases live : s.tunnels.lookup a with
    | none =>
      simp only [ntbTunnelMapVrfLookupChecked, ntbTunnelMapVrfLookup, held, live, ofOption_none, error_bind]
    | some tunnelI =>
      simp only [ntbTunnelMapVrfLookupChecked, ntbTunnelMapVrfLookup, held, live, ofOption_some, ok_bind,
        rteAssert_off]
      cases ntbVrfDpGetById tunnelI.vrfId s with
      | none => rfl
      | some vrfDp =>
        rw [shcHalTunnelMapVrfEntrySet]
        split <;> rfl

/-! ## What it is for -/

/-- A tunnel of one of the two types, with the member of `ntb_tunnel_id_t` that belongs to it. -/
inductive Tunnel where
  | vxlan (vni : BitVec 32)
  | tgre (vpcid : BitVec 32)
  deriving DecidableEq

namespace Tunnel

def key : Tunnel → TunnelMapKey
  | .vxlan vni => ⟨.vxlan, vni⟩
  | .tgre vpcid => ⟨.tgre, vpcid⟩

def entry : Tunnel → HalTunnelMapVrfKey
  | .vxlan vni => ⟨.vxlan, vni⟩
  | .tgre vpcid => ⟨.gre, vpcid⟩

end Tunnel

/-- The agent, with the tunnels that were successfully mapped and not released since, each with the id of the
    VRF it was mapped to. -/
structure TunnelRun where
  agent : AgentState
  mapped : TunnelMapKey → Option (BitVec 32)

def TunnelRun.initial : TunnelRun := ⟨.initial, fun _ => none⟩

/-- The tunnels that are mapped after a call. -/
def TunnelRun.mappedAfter (s : TunnelRun) : AgentCall → TunnelMapKey → Option (BitVec 32)
  | .vrf (.tunnelMap env vrfName type id) =>
    match ntbTunnelMapVrf env vrfName type id s.agent, ntbVrfLookup vrfName s.agent with
    | some (_, 0), some i => Function.update s.mapped ⟨type, id⟩ (some (dpVrfId i))
    | _, _ => s.mapped
  | .vrf (.tunnelUnmap _ type id) => Function.update s.mapped ⟨type, id⟩ none
  | .vrf (.vrfDel _ vrfName) =>
    match ntbVrfLookup vrfName s.agent with
    | none => s.mapped
    | some i => fun key => if s.mapped key = some (dpVrfId i) then none else s.mapped key
  | _ => s.mapped

def tunnelRunStep (duplicate : HalDuplicate) (s : TunnelRun) (call : AgentCall) : Option TunnelRun :=
  (agentStep duplicate s.agent call).map fun agent => ⟨agent, s.mappedAfter call⟩

def heldVrf (tunnel : Tunnel) (s : AgentState) : Option (BitVec 32) :=
  (s.vrfHashTbl.lookup tunnel.key).bind fun a => (s.tunnels.lookup a).map NtbTunnelInfo.vrfId

def EntryCarriedOut (duplicate : HalDuplicate) (accepts : Bool) (tunnel : Tunnel) (flagOfAddDel : Int)
    (hw : HwTables) : Prop :=
  if flagOfAddDel = 0 then HalAdds duplicate accepts hw.tunnelMapVrf tunnel.entry
  else HalDels accepts hw.tunnelMapVrf tunnel.entry

def mirrored (tunnel : Tunnel) (vrf : BitVec 32) (flagOfAddDel : Int) (hw : HwTables) : HwTables :=
  { hw with tunnelMapVrf :=
      if flagOfAddDel = 0 then hw.tunnelMapVrf.insert tunnel.entry ⟨vrf⟩ else hw.tunnelMapVrf.erase tunnel.entry }

/-- The lookup of a mapped tunnel returns the VRF it is held with and leaves the hardware with the entry or
    without it, if the hardware carries that out.  The lookup of any other tunnel returns a null pointer and
    leaves the hardware alone. -/
def LookupMirrors (rteEnableAssert : Bool) (duplicate : HalDuplicate) (accepts : Bool) (tunnel : Tunnel)
    (flagOfAddDel : Int) (s : TunnelRun) (hw : HwTables) : Prop :=
  let lookup := ntbTunnelMapVrfLookupChecked rteEnableAssert duplicate accepts tunnel.key.type tunnel.key.id
    flagOfAddDel s.agent hw
  if s.mapped tunnel.key = none then lookup = .ok (hw, none)
  else EntryCarriedOut duplicate accepts tunnel flagOfAddDel hw →
    ∃ vrf i, heldVrf tunnel s.agent = some vrf ∧ dpVrfId i = vrf ∧
      lookup = .ok (mirrored tunnel vrf flagOfAddDel hw, some i)

/-- A tunnel that is not mapped is not in the hash either.  For a mapped one, where the hardware carries the call
    out, its node is live, the assertions are compiled out, and a GRE entry is added only for an id that is the id
    of the VRF. -/
def MirrorsWhen (rteEnableAssert : Bool) (duplicate : HalDuplicate) (accepts : Bool) (tunnel : Tunnel)
    (flagOfAddDel : Int) (s : TunnelRun) (hw : HwTables) : Prop :=
  if s.mapped tunnel.key = none then tunnel.key ∉ s.agent.vrfHashTbl
  else EntryCarriedOut duplicate accepts tunnel flagOfAddDel hw →
    ∃ vrf, heldVrf tunnel s.agent = some vrf ∧ rteEnableAssert = false ∧
      (flagOfAddDel = 0 → ∀ vpcid, tunnel = .tgre vpcid → vpcid = vrf)

/-! ## Live nodes -/

/-- The node is on the list of a valid VRF and stores the id of that VRF. -/
def OnList (s : AgentState) (a : Addr) (tunnelI : NtbTunnelInfo) : Prop :=
  ∃ i < ntbNrVrf, tunnelI = ⟨dpVrfId i⟩ ∧ (s.gNtbVrfs i).valid = true ∧ a ∈ s.tunnelRmap i

def NodesListed (s : AgentState) : Prop := ∀ a tunnelI, s.tunnels.lookup a = some tunnelI → OnList s a tunnelI

section Nodes

variable {s s' : AgentState} {a : Addr} {i : Nat}

theorem OnList.moved {tunnelI : NtbTunnelInfo} (onList : OnList s a tunnelI)
    (kept : ∀ j, (s.gNtbVrfs j).valid = true → a ∈ s.tunnelRmap j →
      (s'.gNtbVrfs j).valid = true ∧ a ∈ s'.tunnelRmap j) : OnList s' a tunnelI := by
  obtain ⟨j, inside, own, valid, member⟩ := onList
  exact ⟨j, inside, own, kept j valid member⟩

theorem NodesListed.added (listed : NodesListed s) (added : VrfAdded i s s') : NodesListed s' := by
  intro a tunnelI live
  rw [added.tunnels] at live
  refine (listed a tunnelI live).moved fun j valid member => ?_
  have different : j ≠ i := by
    rintro rfl
    rw [added.free.2] at valid
    cases valid
  rw [AgentState.tunnelRmap, added.others j different]
  exact ⟨valid, member⟩

theorem NodesListed.deleted (listed : NodesListed s) (deleted : VrfDeleted i s s') : NodesListed s' := by
  intro a tunnelI live
  rw [deleted.tunnels] at live
  split at live
  next => cases live
  next unlisted =>
    refine (listed a tunnelI live).moved fun j valid member => ?_
    have different : j ≠ i := by
      rintro rfl
      exact unlisted member
    rw [AgentState.tunnelRmap, deleted.others j different]
    exact ⟨valid, member⟩

theorem NodesListed.mapped {key : TunnelMapKey} (listed : NodesListed s) (mapped : TunnelMapped key a i s s') :
    NodesListed s' := by
  intro b tunnelI live
  have slot : s'.tunnelRmap i = a :: s.tunnelRmap i := by rw [AgentState.tunnelRmap, mapped.slot]
  rw [mapped.tunnels, Table.lookup_insert_eq_some] at live
  rcases live with ⟨new, rfl⟩ | ⟨_, live⟩
  · refine ⟨i, mapped.vrf.1, rfl, by rw [mapped.slot]; exact mapped.vrf.2, ?_⟩
    rw [slot, new]
    exact List.mem_cons_self
  · refine (listed b tunnelI live).moved fun j valid member => ?_
    by_cases same : j = i
    · subst same
      rw [slot, mapped.slot]
      exact ⟨valid, List.mem_cons_of_mem a member⟩
    · rw [AgentState.tunnelRmap, mapped.others j same]
      exact ⟨valid, member⟩

/-- A node was freed and taken off one list. -/
structure TunnelUnmapped (a : Addr) (i : Nat) (s s' : AgentState) : Prop where
  valid : (s'.gNtbVrfs i).valid = (s.gNtbVrfs i).valid
  tunnelRmap : s'.tunnelRmap i = (s.tunnelRmap i).erase a
  others : ∀ j, j ≠ i → s'.gNtbVrfs j = s.gNtbVrfs j
  tunnels : s'.tunnels = s.tunnels.erase a

theorem ntbTunnelUnmapVrf_cases {accepts : Bool} {type : NtbTunnelType} {id : NtbTunnelId} {ret : Int}
    (result : ntbTunnelUnmapVrf accepts type id s = some (s', ret)) : s' = s ∨ ∃ a i, TunnelUnmapped a i s s' := by
  unfold ntbTunnelUnmapVrf at result
  split at result
  next =>
    cases result
    exact .inl rfl
  next a _ =>
    split at result
    next => cases result
    next tunnelI _ =>
      split at result
      next => cases result
      next => cases result
      next i _ =>
        split at result
        next => cases result
        next tunnelRmap removed =>
          obtain ⟨_, removed⟩ := Option.ite_none_right_eq_some.mp removed
          obtain rfl := Option.some.inj removed
          cases result
          refine .inr ⟨a, i, ?_, ?_, fun j different => Function.update_of_ne different _ s.gNtbVrfs, rfl⟩
          · simp
          · simp [AgentState.tunnelRmap]

theorem NodesListed.unmapped (listed : NodesListed s) (unmapped : TunnelUnmapped a i s s') : NodesListed s' := by
  intro b tunnelI live
  rw [unmapped.tunnels, Table.lookup_erase_eq_some] at live
  obtain ⟨another, live⟩ := live
  refine (listed b tunnelI live).moved fun j valid member => ?_
  by_cases same : j = i
  · subst same
    rw [unmapped.valid, unmapped.tunnelRmap]
    exact ⟨valid, (List.mem_erase_of_ne another).mpr member⟩
  · rw [AgentState.tunnelRmap, unmapped.others j same]
    exact ⟨valid, member⟩

end Nodes

theorem vrfStep_nodesListed {s s' : AgentState} {call : VrfCall} (accounted : Accounted s.route)
    (listed : NodesListed s) (stepped : vrfStep s call = some s') : NodesListed s' := by
  cases call with
  | vrfAdd vrfName =>
    rcases ntbVrfAdd_cases vrfName s with ⟨ret, result⟩ | ⟨i, t, result, added⟩ <;>
      rw [vrfStep, result] at stepped <;> obtain rfl := Option.some.inj stepped
    · exact listed
    · exact listed.added added
  | vrfDel iterate vrfName =>
    cases found : ntbVrfLookup vrfName s with
    | none =>
      rw [vrfStep, ntbVrfDel_absent iterate found] at stepped
      obtain rfl := Option.some.inj stepped
      exact listed
    | some i => exact listed.deleted ((ntbVrfDel_found iterate accounted found).1 s' stepped)
  | tunnelMap env vrfName type id =>
    rcases ntbTunnelMapVrf_cases env vrfName type id s with
      ⟨_, _, _, undefined⟩ | ⟨ret, result⟩ | ⟨a, i, t, _, result, mapped⟩
    · rw [vrfStep, undefined] at stepped
      cases stepped
    · rw [vrfStep, result] at stepped
      obtain rfl := Option.some.inj stepped
      exact listed
    · rw [vrfStep, result] at stepped
      obtain rfl := Option.some.inj stepped
      exact listed.mapped mapped
  | tunnelUnmap accepts type id =>
    obtain ⟨⟨t, ret⟩, result, rfl⟩ := Option.map_eq_some_iff.mp stepped
    rcases ntbTunnelUnmapVrf_cases result with rfl | ⟨a, i, unmapped⟩
    · exact listed
    · exact listed.unmapped unmapped

theorem agentStep_nodesListed {duplicate : HalDuplicate} (s : AgentState) (call : AgentCall) (s' : AgentState)
    (kept : LookupReady s.route ∧ NodesListed s) (stepped : agentStep duplicate s call = some s') :
    LookupReady s'.route ∧ NodesListed s' := by
  refine ⟨agentStep_lookupReady s call s' kept.1 stepped, ?_⟩
  cases call with
  | vrf call => exact vrfStep_nodesListed kept.1.accounted kept.2 stepped
  | route call =>
    obtain ⟨route, _, rfl⟩ := Option.map_eq_some_iff.mp stepped
    exact kept.2
  | rule env vni ipSrcAddr ipDstAddr flagOfAddDel =>
    obtain ⟨result, programmed, rfl⟩ := Option.map_eq_some_iff.mp stepped
    rw [shcSwTohwRule_frame programmed]
    exact kept.2

theorem reachable_nodesListed {duplicate : HalDuplicate} {calls : List AgentCall} {s : TunnelRun}
    (reached : run (tunnelRunStep duplicate) .initial calls = some s) : NodesListed s.agent := by
  have preserved (s : TunnelRun) (call : AgentCall) (s' : TunnelRun)
      (kept : LookupReady s.agent.route ∧ NodesListed s.agent) (stepped : tunnelRunStep duplicate s call = some s') :
      LookupReady s'.agent.route ∧ NodesListed s'.agent := by
    obtain ⟨agent, called, rfl⟩ := Option.map_eq_some_iff.mp stepped
    exact agentStep_nodesListed s.agent call agent kept called
  have initial : LookupReady TunnelRun.initial.agent.route ∧ NodesListed TunnelRun.initial.agent :=
    ⟨⟨RouteState.initial_accounted, initial_fibRooted, initial_blackholeKept⟩, by intro a tunnelI live; cases live⟩
  exact (run_invariant preserved initial reached).2

theorem ntbVrfDpGetById_valid {i : Nat} {s : AgentState} (inside : i < ntbNrVrf)
    (valid : (s.gNtbVrfs i).valid = true) : ntbVrfDpGetById (dpVrfId i) s = some (some i) := by
  have notNegative : ¬ (i : Int) < 0 := by omega
  have bound : (i : Int) < ntbNrVrf := by exact_mod_cast inside
  simp only [ntbVrfDpGetById, ntbVrfGetById, dpVrfId_index inside, notNegative, if_false, bound, Int.toNat_natCast,
    valid, and_self, if_true]

/-! ## The two maps -/

/-- The VRF that the add writes: a GRE entry gets the id of its tunnel. -/
def writtenVrf (tunnel : Tunnel) (vrfId : BitVec 32) : BitVec 32 :=
  match tunnel with
  | .vxlan _ => vrfId
  | .tgre vpcid => vpcid

section Mirror

variable {rteEnableAssert : Bool} {duplicate : HalDuplicate} {accepts : Bool} {tunnel : Tunnel} {flagOfAddDel : Int}
  {s : AgentState} {hw : HwTables} {vrf : BitVec 32}

theorem shcHalTunnelMapVrfKey_tunnel (tunnel : Tunnel) :
    shcHalTunnelMapVrfKey tunnel.key.type tunnel.key.id = tunnel.entry := by
  cases tunnel <;> rfl

theorem shcHalTunnelMapVrfEntrySet_carriedOut (vrfId : BitVec 32)
    (carriedOut : EntryCarriedOut duplicate accepts tunnel flagOfAddDel hw) :
    shcHalTunnelMapVrfEntrySet duplicate accepts tunnel.key.type tunnel.key.id flagOfAddDel vrfId hw =
      (mirrored tunnel (writtenVrf tunnel vrfId) flagOfAddDel hw, 0) := by
  unfold EntryCarriedOut at carriedOut
  by_cases add : flagOfAddDel = 0
  · rw [if_pos add] at carriedOut
    simp only [shcHalTunnelMapVrfEntrySet, mirrored, add, if_true, shcHalTunnelMapVrfEntryAdd,
      shcHalTunnelMapVrfKey_tunnel, halEntryAdd_of_adds carriedOut]
    cases tunnel <;> rfl
  · rw [if_neg add] at carriedOut
    simp only [shcHalTunnelMapVrfEntrySet, mirrored, add, if_false, shcHalTunnelMapVrfEntryDel,
      shcHalTunnelMapVrfKey_tunnel, halEntryDel_of_dels carriedOut]

theorem mirrored_eq_iff {vrf' : BitVec 32} :
    mirrored tunnel vrf flagOfAddDel hw = mirrored tunnel vrf' flagOfAddDel hw ↔
      (flagOfAddDel = 0 → vrf = vrf') := by
  constructor
  · intro same add
    have entry := congrArg (fun hw : HwTables => hw.tunnelMapVrf.lookup tunnel.entry) same
    simp only [mirrored, add, if_true, Finmap.lookup_insert] at entry
    exact congrArg HalTunnelMapVrfData.vrf (Option.some.inj entry)
  · intro same
    by_cases add : flagOfAddDel = 0
    · rw [same add]
    · simp only [mirrored, add, if_false]

theorem writtenVrf_eq_iff : writtenVrf tunnel vrf = vrf ↔ ∀ vpcid, tunnel = .tgre vpcid → vpcid = vrf := by
  cases tunnel with
  | vxlan vni => exact iff_of_true rfl fun _ impossible => by cases impossible
  | tgre vpcid =>
    refine ⟨fun same other own => ?_, fun all => all vpcid rfl⟩
    cases own
    exact same

theorem NodesListed.found (listed : NodesListed s) {a : Addr} {tunnelI : NtbTunnelInfo}
    (live : s.tunnels.lookup a = some tunnelI) :
    ∃ i, tunnelI.vrfId = dpVrfId i ∧ ntbVrfDpGetById tunnelI.vrfId s = some (some i) := by
  obtain ⟨i, inside, rfl, valid, _⟩ := listed a tunnelI live
  exact ⟨i, rfl, ntbVrfDpGetById_valid inside valid⟩

/-- The lookup returns a null pointer, and nothing else, exactly if the key is not in the hash. -/
theorem NodesListed.lookup_null_iff (listed : NodesListed s) :
    ntbTunnelMapVrfLookupChecked rteEnableAssert duplicate accepts tunnel.key.type tunnel.key.id flagOfAddDel s hw =
      .ok (hw, none) ↔ tunnel.key ∉ s.vrfHashTbl := by
  cases held : s.vrfHashTbl.lookup tunnel.key with
  | none =>
    refine iff_of_true ?_ (Finmap.lookup_eq_none.mp held)
    simp only [ntbTunnelMapVrfLookupChecked, held]
  | some a =>
    refine iff_of_false ?_ (not_not_intro (Finmap.mem_of_lookup_eq_some held))
    intro null
    simp only [ntbTunnelMapVrfLookupChecked, held] at null
    obtain ⟨tunnelI, live, rest⟩ := bind_eq_ok.mp null
    obtain ⟨i, _, found⟩ := listed.found (ofOption_eq_ok.mp live)
    obtain ⟨_, _, rest⟩ := bind_eq_ok.mp rest
    rw [found, ofOption_some, ok_bind] at rest
    obtain ⟨_, _, rest⟩ := bind_eq_ok.mp rest
    obtain ⟨_, impossible⟩ := Prod.mk.inj (Except.ok.inj rest)
    cases impossible

/-- The lookup of a live node, where the hardware carries the call out. -/
theorem NodesListed.lookup_carriedOut (listed : NodesListed s) (rteEnableAssert : Bool)
    (held : heldVrf tunnel s = some vrf) (carriedOut : EntryCarriedOut duplicate accepts tunnel flagOfAddDel hw) :
    ∃ i, dpVrfId i = vrf ∧
      ntbTunnelMapVrfLookupChecked rteEnableAssert duplicate accepts tunnel.key.type tunnel.key.id flagOfAddDel
          s hw =
        if rteEnableAssert then .error .asserted
        else .ok (mirrored tunnel (writtenVrf tunnel vrf) flagOfAddDel hw, some i) := by
  obtain ⟨a, listedKey, info⟩ := Option.bind_eq_some_iff.mp held
  obtain ⟨tunnelI, live, rfl⟩ := Option.map_eq_some_iff.mp info
  obtain ⟨i, own, found⟩ := listed.found live
  refine ⟨i, own.symm, ?_⟩
  simp only [ntbTunnelMapVrfLookupChecked, listedKey, live, ofOption_some, ok_bind,
    shcHalTunnelMapVrfEntrySet_carriedOut _ carriedOut, found]
  -- the code is 0, and the assertion wants another one
  cases rteEnableAssert with
  | false => rfl
  | true => rfl

theorem NodesListed.mirrors_held (listed : NodesListed s) (held : heldVrf tunnel s = some vrf)
    (carriedOut : EntryCarriedOut duplicate accepts tunnel flagOfAddDel hw) :
    (∃ i, dpVrfId i = vrf ∧
      ntbTunnelMapVrfLookupChecked rteEnableAssert duplicate accepts tunnel.key.type tunnel.key.id flagOfAddDel
          s hw =
        .ok (mirrored tunnel vrf flagOfAddDel hw, some i)) ↔
      rteEnableAssert = false ∧ (flagOfAddDel = 0 → ∀ vpcid, tunnel = .tgre vpcid → vpcid = vrf) := by
  obtain ⟨i, own, outcome⟩ := listed.lookup_carriedOut rteEnableAssert held carriedOut
  rw [outcome]
  cases rteEnableAssert with
  | true =>
    refine iff_of_false ?_ fun off => by cases off.1
    rintro ⟨_, _, impossible⟩
    cases impossible
  | false =>
    constructor
    · rintro ⟨_, _, outcome⟩
      obtain ⟨same, _⟩ := Prod.mk.inj (Except.ok.inj outcome)
      exact ⟨rfl, fun add => writtenVrf_eq_iff.mp (mirrored_eq_iff.mp same add)⟩
    · rintro ⟨_, written⟩
      have same : mirrored tunnel (writtenVrf tunnel vrf) flagOfAddDel hw = mirrored tunnel vrf flagOfAddDel hw :=
        mirrored_eq_iff.mpr fun add => writtenVrf_eq_iff.mpr (written add)
      exact ⟨i, own, by rw [same]; rfl⟩

end Mirror

/-- In every reachable state, whatever the hardware holds, and for every tunnel and flag: the lookup mirrors the
    software map exactly under `MirrorsWhen`.  Without assertions it is the lookup that a rule makes
    (`ntbTunnelMapVrfLookupChecked_off`). -/
theorem lookupMirrors_iff {duplicate : HalDuplicate} {calls : List AgentCall} {s : TunnelRun}
    (reached : run (tunnelRunStep duplicate) .initial calls = some s) (rteEnableAssert accepts : Bool)
    (tunnel : Tunnel) (flagOfAddDel : Int) (hw : HwTables) :
    LookupMirrors rteEnableAssert duplicate accepts tunnel flagOfAddDel s hw ↔
      MirrorsWhen rteEnableAssert duplicate accepts tunnel flagOfAddDel s hw := by
  have listed := reachable_nodesListed reached
  unfold LookupMirrors MirrorsWhen
  dsimp only
  split
  next => exact listed.lookup_null_iff
  next =>
    refine forall_congr' fun carriedOut => ?_
    constructor
    · rintro ⟨vrf, i, held, own, outcome⟩
      exact ⟨vrf, held, (listed.mirrors_held held carriedOut).mp ⟨i, own, outcome⟩⟩
    · rintro ⟨vrf, held, agrees⟩
      obtain ⟨i, own, outcome⟩ := (listed.mirrors_held held carriedOut).mpr agrees
      exact ⟨vrf, i, held, own, outcome⟩

/-! ### The same id in both types -/

/-- VNI 100 and VPC 100 are mapped to VRF `red`, whose id is 1. -/
def redTunnels : List AgentCall :=
  [.vrf (.vrfAdd redVrf), .vrf (.tunnelMap ⟨some 1, true⟩ redVrf .vxlan 100),
    .vrf (.tunnelMap ⟨some 2, true⟩ redVrf .tgre 100)]

def redTunnelsRun : TunnelRun := (run (tunnelRunStep .refused) .initial redTunnels).getD .initial

theorem redTunnels_reached : run (tunnelRunStep .refused) .initial redTunnels = some redTunnelsRun := by
  have defined : (run (tunnelRunStep .refused) .initial redTunnels).isSome = true := by decide +kernel
  exact run_eq_some_getD defined .initial

theorem vni100_mirrored : run (tunnelRunStep .refused) .initial redTunnels = some redTunnelsRun ∧
    LookupMirrors false .refused true (.vxlan 100) 0 redTunnelsRun redTunnelsRun.agent.hw := by
  have mapped : redTunnelsRun.mapped (Tunnel.vxlan 100).key ≠ none := by decide +kernel
  have held : heldVrf (.vxlan 100) redTunnelsRun.agent = some 1 := by decide +kernel
  refine ⟨redTunnels_reached, ?_⟩
  rw [lookupMirrors_iff redTunnels_reached, MirrorsWhen, if_neg mapped]
  exact fun _ => ⟨1, held, rfl, fun _ _ impossible => by cases impossible⟩

/-- The hardware gets VRF 100 for VPC 100; and with assertions compiled in, the successful add of VNI 100 stops. -/
theorem vpc100_not_mirrored : run (tunnelRunStep .refused) .initial redTunnels = some redTunnelsRun ∧
    redTunnelsRun.mapped (Tunnel.tgre 100).key = some 1 ∧
    ¬ LookupMirrors false .refused true (.tgre 100) 0 redTunnelsRun redTunnelsRun.agent.hw ∧
    ¬ LookupMirrors true .refused true (.vxlan 100) 0 redTunnelsRun redTunnelsRun.agent.hw := by
  have listed := reachable_nodesListed redTunnels_reached
  have empty : redTunnelsRun.agent.hw = .empty := by decide +kernel
  have carriedOut (tunnel : Tunnel) : EntryCarriedOut .refused true tunnel 0 redTunnelsRun.agent.hw := by
    rw [EntryCarriedOut, if_pos rfl, empty]
    exact ⟨rfl, fun present => absurd present Finmap.notMem_empty⟩
  refine ⟨redTunnels_reached, by decide +kernel, ?_, ?_⟩
  · have mapped : redTunnelsRun.mapped (Tunnel.tgre 100).key ≠ none := by decide +kernel
    have isHeld : heldVrf (.tgre 100) redTunnelsRun.agent = some 1 := by decide +kernel
    rw [LookupMirrors, if_neg mapped]
    intro mirrors
    obtain ⟨vrf, i, held, own, outcome⟩ := mirrors (carriedOut _)
    obtain rfl := Option.some.inj (isHeld.symm.trans held)
    have written := ((listed.mirrors_held held (carriedOut _)).mp ⟨i, own, outcome⟩).2 rfl 100 rfl
    exact absurd written (by decide)
  · have mapped : redTunnelsRun.mapped (Tunnel.vxlan 100).key ≠ none := by decide +kernel
    rw [LookupMirrors, if_neg mapped]
    intro mirrors
    obtain ⟨vrf, i, held, own, outcome⟩ := mirrors (carriedOut _)
    cases ((listed.mirrors_held held (carriedOut _)).mp ⟨i, own, outcome⟩).1

end Tao.Offload
