import Tao.Agent.RouteAccounting
import Tao.Agent.Vrf

/-! # The tunnel store

`vrf_hash_tbl`, the lists `tunnel_rmap` and the counters `tunnel_cnt` stay in step
exactly as long as no tunnel is released: neither `ntb_tunnel_unmap_vrf` nor
`ntb_tunnel_map_cleanup` takes the key of a freed node out of the hash. -/

namespace Tao.Agent

open Tao.Foundation Tao.Hal

def AgentState.tunnelRmap (s : AgentState) (i : Nat) : List Addr := (s.gNtbVrfs i).dp.tunnelRmap

/-- The entries of the hash are, one to one, the nodes on the lists, and the counters count them. -/
structure TunnelStore (s : AgentState) : Prop where
  -- A key maps to a live node, once on the list of the valid VRF whose id it stores.
  mapped : ∀ key a, s.vrfHashTbl.lookup key = some a → ∃ i < ntbNrVrf,
    s.tunnels.lookup a = some ⟨dpVrfId i⟩ ∧ (s.gNtbVrfs i).valid = true ∧ (s.tunnelRmap i).count a = 1
  -- A node on a list is mapped by exactly one key.
  listed : ∀ i < ntbNrVrf, ∀ a ∈ s.tunnelRmap i, ∃! key, s.vrfHashTbl.lookup key = some a
  counted : ∀ i < ntbNrVrf, (s.gNtbVrfs i).dp.tunnelCnt = (s.tunnelRmap i).length

/-- A tunnel that no lookup finds and that can be mapped to any VRF. -/
def TunnelFree (type : NtbTunnelType) (id : NtbTunnelId) (s : AgentState) : Prop :=
  s.vrfHashTbl.lookup ⟨type, id⟩ = none ∧
    ∀ vrfName i a, ntbVrfLookup vrfName s = some i → a ∉ s.tunnels →
      ∃ s', ntbTunnelMapVrf ⟨some a, true⟩ vrfName type id s = some (s', 0) ∧
        s'.vrfHashTbl.lookup ⟨type, id⟩ = some a ∧ s'.tunnels.lookup a = some ⟨dpVrfId i⟩

/-- A tunnel is free after it was unmapped, and after the VRF it was mapped to was deleted. -/
def VrfCall.Frees (s : AgentState) : VrfCall → Prop
  | .tunnelUnmap accepts type id =>
    ∀ s', vrfStep s (.tunnelUnmap accepts type id) = some s' → TunnelFree type id s'
  | .vrfDel iterate vrfName =>
    ∀ s' i type id a, vrfStep s (.vrfDel iterate vrfName) = some s' → ntbVrfLookup vrfName s = some i →
      s.vrfHashTbl.lookup ⟨type, id⟩ = some a → s.tunnels.lookup a = some ⟨dpVrfId i⟩ → TunnelFree type id s'
  | _ => True

/-- The call has a tunnel to release: it unmaps one that is mapped, or deletes a VRF that has one. -/
def VrfCall.Releases (s : AgentState) : VrfCall → Prop
  | .tunnelUnmap _ type id => (⟨type, id⟩ : TunnelMapKey) ∈ s.vrfHashTbl
  | .vrfDel _ vrfName => ∃ i, ntbVrfLookup vrfName s = some i ∧ s.tunnelRmap i ≠ []
  | _ => False

/-- A node on a list is live and stores the id of the VRF, and the routes are accounted for. -/
structure TunnelNodes (s : AgentState) : Prop where
  owned : ∀ i, ∀ a ∈ s.tunnelRmap i, s.tunnels.lookup a = some ⟨dpVrfId i⟩
  accounted : Accounted s.route

/-! ## Slots -/

theorem ntbVrfLookup_some {vrfName : CString} {s : AgentState} {i : Nat}
    (found : ntbVrfLookup vrfName s = some i) : i < ntbNrVrf ∧ (s.gNtbVrfs i).valid = true := by
  obtain ⟨_, high, holds, _⟩ := scan_eq_some.mp found
  rw [Bool.and_eq_true] at holds
  exact ⟨by omega, holds.1⟩

theorem dpVrfId_index {i : Nat} (inside : i < ntbNrVrf) : (dpVrfId i - 1).toInt = i := by
  have bound : i < 4096 := inside
  have index : dpVrfId i - 1 = BitVec.ofNat 32 i := by
    rw [dpVrfId, BitVec.ofNat_add]
    exact BitVec.add_sub_cancel _ _
  rw [index, BitVec.toInt_eq_toNat_of_lt (by rw [BitVec.toNat_ofNat]; omega), BitVec.toNat_ofNat,
    Nat.mod_eq_of_lt (by omega)]

theorem dpVrfId_injective {i j : Nat} (insideI : i < ntbNrVrf) (insideJ : j < ntbNrVrf)
    (same : dpVrfId i = dpVrfId j) : i = j := by
  have index := dpVrfId_index insideI
  rw [same, dpVrfId_index insideJ] at index
  omega

@[simp] theorem AgentState.updateDp_self (i : Nat) (f : VrfDp → VrfDp) (s : AgentState) :
    (s.updateDp i f).gNtbVrfs i = { s.gNtbVrfs i with dp := f (s.gNtbVrfs i).dp } :=
  Function.update_self i _ s.gNtbVrfs

theorem AgentState.updateDp_of_ne {i j : Nat} (different : j ≠ i) (f : VrfDp → VrfDp) (s : AgentState) :
    (s.updateDp i f).gNtbVrfs j = s.gNtbVrfs j :=
  Function.update_of_ne different _ s.gNtbVrfs

/-! ## What the calls do -/

structure VrfAdded (i : Nat) (s s' : AgentState) : Prop where
  free : i < ntbNrVrf ∧ (s.gNtbVrfs i).valid = false
  slot : (s'.gNtbVrfs i).valid = true ∧ s'.tunnelRmap i = [] ∧ (s'.gNtbVrfs i).dp.tunnelCnt = 0
  others : ∀ j, j ≠ i → s'.gNtbVrfs j = s.gNtbVrfs j
  vrfHashTbl : s'.vrfHashTbl = s.vrfHashTbl
  tunnels : s'.tunnels = s.tunnels
  accounted : Accounted s.route → Accounted s'.route

theorem ntbVrfAdd_cases (vrfName : CString) (s : AgentState) :
    (∃ ret, ntbVrfAdd vrfName s = (s, ret)) ∨ ∃ i s', ntbVrfAdd vrfName s = (s', 0) ∧ VrfAdded i s s' := by
  cases found : ntbVrfLookup vrfName s with
  | some i => exact .inl ⟨0, by simp only [ntbVrfAdd, found]⟩
  | none =>
    cases room : scan (fun i => !(s.gNtbVrfs i).valid) ntbNrVrf 0 with
    | none => exact .inl ⟨ntbVrfNoent, by simp only [ntbVrfAdd, found, room]⟩
    | some i =>
      obtain ⟨_, high, free, _⟩ := scan_eq_some.mp room
      refine .inr ⟨i, _, by simp only [ntbVrfAdd, found, room]; rfl, ?_⟩
      refine ⟨⟨by omega, by simpa using free⟩, ?_, ?_, rfl, rfl, ?_⟩
      · simp [AgentState.tunnelRmap, ntbVrfDpCtor]
      · intro j different
        simp only [ntbVrfDpCtor, Function.update_of_ne different, AgentState.updateDp_of_ne different]
      · intro accounted
        exact ⟨accounted.rib_used, accounted.rib_injective, accounted.used_listed, accounted.blackhole,
          ⟨accounted.counts.live, accounted.counts.stored, accounted.counts.referenced⟩,
          accounted.ribCnt, accounted.referenced⟩

structure TunnelMapped (key : TunnelMapKey) (a : Addr) (i : Nat) (s s' : AgentState) : Prop where
  vrf : i < ntbNrVrf ∧ (s.gNtbVrfs i).valid = true
  absent : s.vrfHashTbl.lookup key = none
  fresh : a ∉ s.tunnels
  slot : s'.gNtbVrfs i = { s.gNtbVrfs i with dp := { (s.gNtbVrfs i).dp with
    tunnelRmap := a :: s.tunnelRmap i
    tunnelCnt := (s.gNtbVrfs i).dp.tunnelCnt + 1 } }
  others : ∀ j, j ≠ i → s'.gNtbVrfs j = s.gNtbVrfs j
  vrfHashTbl : s'.vrfHashTbl = s.vrfHashTbl.insert key a
  tunnels : s'.tunnels = s.tunnels.insert a ⟨dpVrfId i⟩
  route : s'.route = s.route

/-- The call reads the node of a key that is mapped already. -/
theorem ntbTunnelMapVrf_cases (env : TunnelEnv) (vrfName : CString) (type : NtbTunnelType) (id : NtbTunnelId)
    (s : AgentState) :
    (∃ a, s.vrfHashTbl.lookup ⟨type, id⟩ = some a ∧ s.tunnels.lookup a = none ∧
      ntbTunnelMapVrf env vrfName type id s = none) ∨
    (∃ ret, ntbTunnelMapVrf env vrfName type id s = some (s, ret)) ∨
    ∃ a i s', ntbVrfLookup vrfName s = some i ∧ ntbTunnelMapVrf env vrfName type id s = some (s', 0) ∧
      TunnelMapped ⟨type, id⟩ a i s s' := by
  cases found : ntbVrfLookup vrfName s with
  | none => exact .inr (.inl ⟨ntbVrfNotExist, by simp only [ntbTunnelMapVrf, found]⟩)
  | some i =>
    cases held : s.vrfHashTbl.lookup ⟨type, id⟩ with
    | some a =>
      cases live : s.tunnels.lookup a with
      | none => exact .inl ⟨a, rfl, live, by simp only [ntbTunnelMapVrf, found, held, live]⟩
      | some tunnelI => exact .inr (.inl ⟨_, by simp only [ntbTunnelMapVrf, found, held, live]; rfl⟩)
    | none =>
      cases memory : rteZmalloc s.tunnels env.memory with
      | none => exact .inr (.inl ⟨ntbCommNomem, by simp only [ntbTunnelMapVrf, found, held, memory]⟩)
      | some a =>
        cases room : Table.add env.room s.vrfHashTbl ⟨type, id⟩ a with
        | none =>
          exact .inr (.inl ⟨ntbTunnelMapNospace, by simp only [ntbTunnelMapVrf, found, held, memory, room]⟩)
        | some vrfHashTbl =>
          refine .inr (.inr ⟨a, i, _, rfl, by simp only [ntbTunnelMapVrf, found, held, memory, room]; rfl, ?_⟩)
          exact {
            vrf := ntbVrfLookup_some found
            absent := held
            fresh := (rteZmalloc_some.mp memory).2
            slot := Function.update_self i _ s.gNtbVrfs
            others := fun j different => Function.update_of_ne different _ s.gNtbVrfs
            vrfHashTbl := Table.add_some room
            tunnels := rfl
            route := rfl }

theorem tunnelFree_of_absent {type : NtbTunnelType} {id : NtbTunnelId} {s : AgentState}
    (absent : s.vrfHashTbl.lookup ⟨type, id⟩ = none) : TunnelFree type id s := by
  refine ⟨absent, fun vrfName i a found fresh => ?_⟩
  have memory : rteZmalloc s.tunnels (some a) = some a := rteZmalloc_some.mpr ⟨rfl, fresh⟩
  refine ⟨_, by simp only [ntbTunnelMapVrf, found, absent, memory, Table.add_of_room]; rfl, ?_, ?_⟩
  · exact Finmap.lookup_insert _
  · exact Finmap.lookup_insert _

theorem ntbTunnelUnmapVrf_absent (accepts : Bool) {type : NtbTunnelType} {id : NtbTunnelId} {s : AgentState}
    (absent : s.vrfHashTbl.lookup ⟨type, id⟩ = none) : ntbTunnelUnmapVrf accepts type id s = some (s, 0) := by
  simp only [ntbTunnelUnmapVrf, absent]

/-- The unmapped node is freed and its key stays. -/
theorem ntbTunnelUnmapVrf_stale {accepts : Bool} {type : NtbTunnelType} {id : NtbTunnelId}
    {s s' : AgentState} {ret : Int} {a : Addr} (held : s.vrfHashTbl.lookup ⟨type, id⟩ = some a)
    (result : ntbTunnelUnmapVrf accepts type id s = some (s', ret)) :
    s'.vrfHashTbl.lookup ⟨type, id⟩ = some a ∧ s'.tunnels.lookup a = none := by
  simp only [ntbTunnelUnmapVrf, held] at result
  split at result
  next => cases result
  next =>
    split at result
    next => cases result
    next => cases result
    next =>
      split at result
      next => cases result
      next => cases result; exact ⟨held, Finmap.lookup_erase _ _⟩

theorem tunnelMapCleanupLoop_freed {l : List Addr} {tunnels : Table Addr NtbTunnelInfo} {tunnelCnt : Nat}
    {rest : Table Addr NtbTunnelInfo × Nat} (result : tunnelMapCleanupLoop l tunnels tunnelCnt = some rest) :
    ∀ a, rest.1.lookup a = if a ∈ l then none else tunnels.lookup a := by
  induction l generalizing tunnels tunnelCnt with
  | nil => cases result; simp
  | cons b l inductionHypothesis =>
    rw [tunnelMapCleanupLoop] at result
    split at result
    next =>
      intro a
      rw [inductionHypothesis result, Table.lookup_erase_eq]
      by_cases same : a = b <;> simp [same]
    next => cases result

/-- A deleted VRF keeps no tunnel, its nodes are freed, and the hash keeps their keys. -/
structure VrfDeleted (i : Nat) (s s' : AgentState) : Prop where
  slot : (s'.gNtbVrfs i).valid = false ∧ s'.tunnelRmap i = []
  tunnelCnt : s.tunnelRmap i = [] → (s'.gNtbVrfs i).dp.tunnelCnt = (s.gNtbVrfs i).dp.tunnelCnt
  others : ∀ j, j ≠ i → s'.gNtbVrfs j = s.gNtbVrfs j
  vrfHashTbl : s'.vrfHashTbl = s.vrfHashTbl
  tunnels : ∀ a, s'.tunnels.lookup a = if a ∈ s.tunnelRmap i then none else s.tunnels.lookup a
  accounted : Accounted s'.route

theorem ntbVrfDel_absent (iterate : RteHashIterate) {vrfName : CString} {s : AgentState}
    (absent : ntbVrfLookup vrfName s = none) : ntbVrfDel iterate vrfName s = some s := by
  simp only [ntbVrfDel, absent]

theorem ntbVrfDel_found (iterate : RteHashIterate) {vrfName : CString} {s : AgentState} {i : Nat}
    (accounted : Accounted s.route) (found : ntbVrfLookup vrfName s = some i) :
    (∀ s', ntbVrfDel iterate vrfName s = some s' → VrfDeleted i s s') ∧
    (s.tunnelRmap i = [] → ∃ s', ntbVrfDel iterate vrfName s = some s') := by
  obtain ⟨route, cleaned, kept, _⟩ := ntbRouteCleanup_invariant (fun _ => True) iterate (i + 1)
    (fun _ _ _ _ _ _ => trivial) accounted trivial
  constructor
  · intro s' result
    simp only [ntbVrfDel, found, ntbVrfDpDtor, cleaned, ntbTunnelMapCleanup, Option.map_map] at result
    obtain ⟨rest, loop, rfl⟩ := Option.map_eq_some_iff.mp result
    refine ⟨⟨?_, ?_⟩, ?_, ?_, rfl, tunnelMapCleanupLoop_freed loop, kept⟩
    · simp
    · simp [AgentState.tunnelRmap]
    · intro empty
      rw [AgentState.tunnelRmap] at empty
      simp only [empty, tunnelMapCleanupLoop, Option.some.injEq] at loop
      simp [← loop]
    · intro j different
      simp [Function.update_of_ne different, AgentState.updateDp_of_ne different]
  · intro empty
    rw [AgentState.tunnelRmap] at empty
    simp only [ntbVrfDel, found, ntbVrfDpDtor, cleaned, ntbTunnelMapCleanup, empty, tunnelMapCleanupLoop,
      Option.map_some]
    exact ⟨_, rfl⟩

/-! ## Calls that release nothing keep the store -/

theorem AgentState.initial_tunnelStore : TunnelStore .initial where
  mapped := by intro key a held; cases held
  listed := by intro i _ a listed; cases listed
  counted := fun _ _ => rfl

theorem AgentState.initial_tunnelNodes : TunnelNodes .initial where
  owned := by intro i a listed; cases listed
  accounted := RouteState.initial_accounted

theorem TunnelStore.rmap_of_invalid {s : AgentState} (store : TunnelStore s) (nodes : TunnelNodes s) {i : Nat}
    (inside : i < ntbNrVrf) (invalid : (s.gNtbVrfs i).valid = false) : s.tunnelRmap i = [] := by
  apply List.eq_nil_iff_forall_not_mem.mpr
  intro a listed
  obtain ⟨key, held, _⟩ := store.listed i inside a listed
  obtain ⟨j, insideJ, live, valid, _⟩ := store.mapped key a held
  -- the node stores one id, so its key leads back to this very slot
  rw [nodes.owned i a listed, Option.some.injEq, NtbTunnelInfo.mk.injEq] at live
  obtain rfl := dpVrfId_injective inside insideJ live
  rw [invalid] at valid
  cases valid

theorem TunnelStore.slot_changed {s s' : AgentState} {i : Nat} (store : TunnelStore s)
    (before : s.tunnelRmap i = []) (after : s'.tunnelRmap i = []) (counter : (s'.gNtbVrfs i).dp.tunnelCnt = 0)
    (others : ∀ j, j ≠ i → s'.gNtbVrfs j = s.gNtbVrfs j) (vrfHashTbl : s'.vrfHashTbl = s.vrfHashTbl)
    (tunnels : ∀ a, s'.tunnels.lookup a = s.tunnels.lookup a) : TunnelStore s' := by
  have rmap : ∀ j, s'.tunnelRmap j = s.tunnelRmap j := by
    intro j
    by_cases same : j = i
    · rw [same, before, after]
    · rw [AgentState.tunnelRmap, others j same, ← AgentState.tunnelRmap]
  refine ⟨?_, ?_, ?_⟩
  · intro key a held
    rw [vrfHashTbl] at held
    obtain ⟨j, inside, live, valid, once⟩ := store.mapped key a held
    have different : j ≠ i := by
      rintro rfl
      rw [before] at once
      cases once
    exact ⟨j, inside, by rw [tunnels, live], by rw [others j different, valid], by rw [rmap, once]⟩
  · intro j inside a listed
    rw [rmap] at listed
    rw [vrfHashTbl]
    exact store.listed j inside a listed
  · intro j inside
    rw [rmap]
    by_cases same : j = i
    · rw [same, counter, before]; rfl
    · rw [others j same]; exact store.counted j inside

theorem TunnelNodes.slot_changed {s s' : AgentState} {i : Nat} (nodes : TunnelNodes s)
    (after : s'.tunnelRmap i = []) (others : ∀ j, j ≠ i → s'.gNtbVrfs j = s.gNtbVrfs j)
    (tunnels : ∀ a, s'.tunnels.lookup a = s.tunnels.lookup a) (accounted : Accounted s'.route) :
    TunnelNodes s' := by
  refine ⟨fun j a listed => ?_, accounted⟩
  by_cases same : j = i
  · rw [same, after] at listed; cases listed
  · rw [AgentState.tunnelRmap, others j same] at listed
    rw [tunnels]
    exact nodes.owned j a listed

theorem TunnelStore.tunnelMapped {s s' : AgentState} {key : TunnelMapKey} {a : Addr} {i : Nat}
    (store : TunnelStore s) (nodes : TunnelNodes s) (entered : TunnelMapped key a i s s') : TunnelStore s' := by
  obtain ⟨⟨_, validI⟩, absent, fresh, slot, others, vrfHashTbl, tunnels, _⟩ := entered
  have rmapI : s'.tunnelRmap i = a :: s.tunnelRmap i := by rw [AgentState.tunnelRmap, slot]
  have rmap : ∀ j, j ≠ i → s'.tunnelRmap j = s.tunnelRmap j := fun j different => by
    rw [AgentState.tunnelRmap, others j different, ← AgentState.tunnelRmap]
  have live_ne : ∀ {b info}, s.tunnels.lookup b = some info → b ≠ a := by
    rintro b info live rfl
    exact fresh (Finmap.mem_of_lookup_eq_some live)
  have unlisted : ∀ j, a ∉ s.tunnelRmap j := fun j listed => live_ne (nodes.owned j a listed) rfl
  have unmapped : ∀ key', s.vrfHashTbl.lookup key' ≠ some a := by
    intro key' held
    obtain ⟨j, _, live, _⟩ := store.mapped key' a held
    exact live_ne live rfl
  refine ⟨?_, ?_, ?_⟩
  · intro key' b held
    rw [vrfHashTbl, Table.lookup_insert_eq_some] at held
    rw [tunnels]
    rcases held with ⟨_, rfl⟩ | ⟨_, held⟩
    · refine ⟨i, by assumption, Finmap.lookup_insert _, by rw [slot]; exact validI, ?_⟩
      rw [rmapI, List.count_cons_self, List.count_eq_zero.mpr (unlisted i)]
    · obtain ⟨j, inside, live, valid, once⟩ := store.mapped key' b held
      refine ⟨j, inside, by rw [Finmap.lookup_insert_of_ne _ (live_ne live), live], ?_⟩
      by_cases same : j = i
      · subst same
        refine ⟨by rw [slot]; exact valid, ?_⟩
        rw [rmapI, List.count_cons_of_ne (Ne.symm (live_ne live)), once]
      · exact ⟨by rw [others j same, valid], by rw [rmap j same, once]⟩
  · intro j inside b listed
    rw [vrfHashTbl]
    -- the new node has the new key alone, an old one keeps the key it had
    by_cases new : b = a
    · subst new
      refine ⟨key, Finmap.lookup_insert _, fun key' held => ?_⟩
      dsimp only at held
      rw [Table.lookup_insert_eq_some] at held
      rcases held with ⟨same, _⟩ | ⟨_, held⟩
      · exact same
      · exact (unmapped key' held).elim
    · have old : b ∈ s.tunnelRmap j := by
        by_cases same : j = i
        · subst same
          rw [rmapI] at listed
          exact (List.mem_cons.mp listed).resolve_left new
        · rwa [rmap j same] at listed
      obtain ⟨key', held, unique⟩ := store.listed j inside b old
      have different : key' ≠ key := by
        rintro rfl
        rw [absent] at held; cases held
      refine ⟨key', by dsimp only; rw [Finmap.lookup_insert_of_ne _ different, held], fun other heldOther => ?_⟩
      dsimp only at heldOther
      rcases Table.lookup_insert_eq_some.mp heldOther with ⟨_, same⟩ | ⟨_, heldOther⟩
      · exact (new same).elim
      · exact unique other heldOther
  · intro j inside
    by_cases same : j = i
    · subst same
      rw [rmapI, slot, List.length_cons, ← store.counted j inside]
    · rw [rmap j same, others j same]
      exact store.counted j inside

theorem TunnelNodes.tunnelMapped {s s' : AgentState} {key : TunnelMapKey} {a : Addr} {i : Nat}
    (nodes : TunnelNodes s) (entered : TunnelMapped key a i s s') : TunnelNodes s' := by
  refine ⟨fun j b listed => ?_, by rw [entered.route]; exact nodes.accounted⟩
  rw [entered.tunnels, Table.lookup_insert_eq]
  split
  next new =>
    subst new
    have live : ¬ b ∈ s.tunnelRmap j := fun listed =>
      entered.fresh (Finmap.mem_of_lookup_eq_some (nodes.owned j b listed))
    by_cases same : j = i
    · rw [same]
    · rw [AgentState.tunnelRmap, entered.others j same] at listed
      exact (live listed).elim
  next old =>
    by_cases same : j = i
    · subst same
      rw [AgentState.tunnelRmap, entered.slot] at listed
      exact nodes.owned j b ((List.mem_cons.mp listed).resolve_left old)
    · rw [AgentState.tunnelRmap, entered.others j same] at listed
      exact nodes.owned j b listed

/-- A call that releases nothing is defined and keeps the store. -/
theorem vrfStep_kept {s : AgentState} {call : VrfCall} (nodes : TunnelNodes s) (store : TunnelStore s)
    (kept : ¬ call.Releases s) : ∃ s', vrfStep s call = some s' ∧ TunnelNodes s' ∧ TunnelStore s' := by
  cases call with
  | vrfAdd vrfName =>
    rcases ntbVrfAdd_cases vrfName s with ⟨ret, result⟩ | ⟨i, s', result, added⟩
    · exact ⟨s, by rw [vrfStep, result], nodes, store⟩
    · have before := store.rmap_of_invalid nodes added.free.1 added.free.2
      have tunnels : ∀ a, s'.tunnels.lookup a = s.tunnels.lookup a := fun a => by rw [added.tunnels]
      exact ⟨s', by rw [vrfStep, result],
        nodes.slot_changed added.slot.2.1 added.others tunnels (added.accounted nodes.accounted),
        store.slot_changed before added.slot.2.1 added.slot.2.2 added.others added.vrfHashTbl tunnels⟩
  | vrfDel iterate vrfName =>
    cases found : ntbVrfLookup vrfName s with
    | none => exact ⟨s, ntbVrfDel_absent iterate found, nodes, store⟩
    | some i =>
      have empty : s.tunnelRmap i = [] := by
        by_contra nonempty
        exact kept ⟨i, found, nonempty⟩
      obtain ⟨effect, defined⟩ := ntbVrfDel_found iterate nodes.accounted found
      obtain ⟨s', result⟩ := defined empty
      have deleted := effect s' result
      have tunnels : ∀ a, s'.tunnels.lookup a = s.tunnels.lookup a := fun a => by
        rw [deleted.tunnels, empty, if_neg List.not_mem_nil]
      have counter : (s'.gNtbVrfs i).dp.tunnelCnt = 0 := by
        rw [deleted.tunnelCnt empty, store.counted i (ntbVrfLookup_some found).1, empty]; rfl
      exact ⟨s', result, nodes.slot_changed deleted.slot.2 deleted.others tunnels deleted.accounted,
        store.slot_changed empty deleted.slot.2 counter deleted.others deleted.vrfHashTbl tunnels⟩
  | tunnelMap env vrfName type id =>
    rcases ntbTunnelMapVrf_cases env vrfName type id s with
      ⟨a, held, freed, _⟩ | ⟨ret, result⟩ | ⟨a, i, s', _, result, entered⟩
    · obtain ⟨i, _, live, _⟩ := store.mapped _ a held
      cases freed.symm.trans live
    · exact ⟨s, by rw [vrfStep, result]; rfl, nodes, store⟩
    · exact ⟨s', by rw [vrfStep, result]; rfl, nodes.tunnelMapped entered, store.tunnelMapped nodes entered⟩
  | tunnelUnmap accepts type id =>
    have absent : s.vrfHashTbl.lookup ⟨type, id⟩ = none := Finmap.lookup_eq_none.mpr kept
    exact ⟨s, by rw [vrfStep, ntbTunnelUnmapVrf_absent accepts absent]; rfl, nodes, store⟩

/-- A call that releases a tunnel leaves its key behind. -/
theorem vrfStep_stale {s s' : AgentState} {call : VrfCall} (nodes : TunnelNodes s) (store : TunnelStore s)
    (releases : call.Releases s) (stepped : vrfStep s call = some s') : ¬ TunnelStore s' := by
  intro store'
  cases call with
  | vrfAdd => exact releases
  | tunnelMap => exact releases
  | vrfDel iterate vrfName =>
    obtain ⟨i, found, nonempty⟩ := releases
    have deleted := (ntbVrfDel_found iterate nodes.accounted found).1 s' stepped
    obtain ⟨a, listed⟩ := List.exists_mem_of_ne_nil _ nonempty
    -- the key of a freed node of the list is still in the hash
    obtain ⟨key, held, _⟩ := store.listed i (ntbVrfLookup_some found).1 a listed
    obtain ⟨_, _, live, _⟩ := store'.mapped key a (by rw [deleted.vrfHashTbl]; exact held)
    rw [deleted.tunnels, if_pos listed] at live
    cases live
  | tunnelUnmap accepts type id =>
    obtain ⟨a, held⟩ := Finmap.mem_iff.mp releases
    obtain ⟨⟨next, ret⟩, result, rfl⟩ := Option.map_eq_some_iff.mp stepped
    obtain ⟨stays, freed⟩ := ntbTunnelUnmapVrf_stale held result
    obtain ⟨_, _, live, _⟩ := store'.mapped _ a stays
    rw [freed] at live
    cases live

theorem frees_of_kept (s : AgentState) (call : VrfCall) (store : TunnelStore s) (kept : ¬ call.Releases s) :
    call.Frees s := by
  cases call with
  | vrfAdd => trivial
  | tunnelMap => trivial
  | vrfDel iterate vrfName =>
    intro s' i type id a _ found held live
    obtain ⟨j, insideJ, live', _, once⟩ := store.mapped _ a held
    rw [live, Option.some.injEq, NtbTunnelInfo.mk.injEq] at live'
    obtain rfl := dpVrfId_injective (ntbVrfLookup_some found).1 insideJ live'
    have listed : a ∈ s.tunnelRmap i := List.count_pos_iff.mp (by omega)
    exact (kept ⟨i, found, List.ne_nil_of_mem listed⟩).elim
  | tunnelUnmap accepts type id =>
    intro s' stepped
    have absent : s.vrfHashTbl.lookup ⟨type, id⟩ = none := Finmap.lookup_eq_none.mpr kept
    simp only [vrfStep, ntbTunnelUnmapVrf_absent accepts absent, Option.map_some, Option.some.injEq] at stepped
    subst stepped
    exact tunnelFree_of_absent absent

/-- The store is in step in every state of a run, and every release frees its tunnels, exactly when
    no call of the run has a tunnel to release. -/
theorem tunnelStore_iff (calls : List VrfCall) :
    (Always vrfStep TunnelStore .initial calls ∧ Guarded vrfStep (fun s call => call.Frees s) .initial calls) ↔
      Guarded vrfStep (fun s call => ¬ call.Releases s) .initial calls := by
  have exact : Always vrfStep TunnelStore .initial calls ↔
      Guarded vrfStep (fun s call => ¬ call.Releases s) .initial calls :=
    always_iff_guarded TunnelNodes
      (fun s call nodes store kept => vrfStep_kept nodes store kept)
      (fun s call s' nodes store released stepped => vrfStep_stale nodes store (not_not.mp released) stepped)
      AgentState.initial_tunnelNodes AgentState.initial_tunnelStore
  constructor
  · exact fun both => exact.mp both.1
  · intro guarded
    have always := exact.mpr guarded
    exact ⟨always, always.guarded frees_of_kept guarded⟩

/-! ### A run that unmaps a tunnel -/

def redVrf : CString := ⟨[0x72, 0x65, 0x64], by decide⟩

def unmapRun : List VrfCall :=
  [.vrfAdd redVrf, .tunnelMap ⟨some 1, true⟩ redVrf .vxlan 100, .tunnelUnmap true .vxlan 100]

theorem unmapRun_stale : ¬ Always vrfStep TunnelStore .initial unmapRun := by
  intro always
  obtain ⟨s, reached, store⟩ := always.reaches
  have stale : (run vrfStep .initial unmapRun).map
      (fun s => (s.vrfHashTbl.lookup ⟨.vxlan, 100⟩, s.tunnels.lookup 1)) = some (some 1, none) := by
    decide +kernel
  rw [reached, Option.map_some, Option.some.injEq, Prod.mk.injEq] at stale
  obtain ⟨_, _, live, _⟩ := store.mapped _ _ stale.1
  rw [stale.2] at live
  cases live

end Tao.Agent
