import Tao.Agent.NeighCoverage
import Tao.Agent.RouteHistory

/-! # The MACs of the neighbours

A caller that adds a neighbour expects to find its MAC from then on.  The entry is counted
by the next hops that come and go as well, so it is there to stay only as long as each next
hop gives back the reference that it took: in the VRF that it was created for. -/

namespace Tao.Agent

open Tao.Foundation

/-! ## Neighbours as the callers know them -/

abbrev NeighMacs := OlNeighLookupKey → Option EtherAddr

/-- What a call with its return code tells about the neighbours. -/
def NeighMacs.told (macs : NeighMacs) : RouteCall × Int → NeighMacs
  | (.neighAddStatic _ vrfId gw hwAddr, ret) => if ret = 0 then Function.update macs ⟨vrfId, gw⟩ (some hwAddr) else macs
  | _ => macs

def NeighMacs.ofTranscript (entries : List (RouteCall × Int)) : NeighMacs := entries.foldl NeighMacs.told fun _ => none

def OlNeighEntry.mac (nhop : OlNeighEntry) : Option EtherAddr := if nhop.fArpValid then some nhop.hh.dAddr else none

def OlNeighTable.macs (t : OlNeighTable) : NeighMacs := fun key => (t.hashTbl.lookup key).bind OlNeighEntry.mac

def insertedNhops (calls : List RouteCall) : List (VrfId × NtbNhopHashKey) :=
  calls.filterMap fun
    | .nhopInsert _ pfx data _ => some (pfx.vrfId, data.key)
    | _ => none

/-- No next hop with a gateway is inserted into two VRFs. -/
def OneVrfEach (nhops : List (VrfId × NtbNhopHashKey)) : Prop :=
  ∀ first ∈ nhops, ∀ second ∈ nhops, first.2.gateway ≠ 0 → second.2 = first.2 → second.1 = first.1

/-! ## Entries that are there to stay -/

/-- The next hops that took a reference to the entry of a key, in the VRFs that own them. -/
def nhopUses (owner : NtbNhopHashKey → VrfId) (nhops : Table Addr FibNhop) (key : OlNeighLookupKey) : Nat :=
  Table.total (fun _ fNhop => if fNhop.gateway ≠ 0 ∧ key = ⟨owner fNhop.key, fNhop.gateway⟩ then 1 else 0) nhops

/-- An entry has a reference for every next hop that uses it and for the static add, which alone resolves
    its address.  An entry that is used is there. -/
def EntryHeld (uses : Nat) : Option OlNeighEntry → Prop
  | none => uses = 0
  | some nhop => uses + (if nhop.fArpStatic then 1 else 0) ≤ nhop.refcnt ∧ nhop.fArpValid = nhop.fArpStatic

def OlNeighTable.Held (t : OlNeighTable) (uses : OlNeighLookupKey → Nat) : Prop :=
  ∀ key, EntryHeld (uses key) (t.hashTbl.lookup key)

section Entries

variable {t t' : OlNeighTable} {uses uses' : OlNeighLookupKey → Nat}

theorem OlNeighTable.Held.insert (held : t.Held uses) {key : OlNeighLookupKey} {nhop : OlNeighEntry}
    (stored : t'.hashTbl = t.hashTbl.insert key nhop)
    (own : uses' key + (if nhop.fArpStatic then 1 else 0) ≤ nhop.refcnt) (resolved : nhop.fArpValid = nhop.fArpStatic)
    (others : ∀ other, other ≠ key → uses' other = uses other) :
    t'.Held uses' ∧ t'.macs = Function.update t.macs key nhop.mac := by
  constructor
  · intro other
    rw [stored, Table.lookup_insert_eq]
    split
    next same => rw [same]; exact ⟨own, resolved⟩
    next different => rw [others other different]; exact held other
  · funext other
    rw [OlNeighTable.macs, stored, Table.lookup_insert_eq, Function.update_apply]
    split <;> rfl

theorem OlNeighTable.Held.erase (held : t.Held uses) {key : OlNeighLookupKey}
    (dropped : t'.hashTbl = t.hashTbl.erase key) (unused : uses' key = 0)
    (others : ∀ other, other ≠ key → uses' other = uses other) :
    t'.Held uses' ∧ t'.macs = Function.update t.macs key none := by
  constructor
  · intro other
    rw [dropped, Table.lookup_erase_eq]
    split
    next same => rw [same]; exact unused
    next different => rw [others other different]; exact held other
  · funext other
    rw [OlNeighTable.macs, dropped, Table.lookup_erase_eq, Function.update_apply]
    split <;> rfl

theorem OlNeighTable.macs_of_held {key : OlNeighLookupKey} {nhop : OlNeighEntry}
    (there : t.hashTbl.lookup key = some nhop) : t.macs key = nhop.mac := by
  rw [OlNeighTable.macs, there, Option.bind_some]

theorem OlNeighTable.macs_of_missing {key : OlNeighLookupKey} (missing : t.hashTbl.lookup key = none) :
    t.macs key = none := by
  rw [OlNeighTable.macs, missing, Option.bind_none]

variable {vrfId : VrfId} {gw : Ip4}

theorem ntbNeighAdd_held {env : NeighEnv} {oid : Oid} (held : t.Held uses)
    (result : ntbNeighAdd env vrfId gw t = (t', .ok oid))
    (users : ∀ key, uses' key = uses key + if key = ⟨vrfId, gw⟩ then 1 else 0) :
    t'.Held uses' ∧ t'.macs = t.macs := by
  have own : uses' ⟨vrfId, gw⟩ = uses ⟨vrfId, gw⟩ + 1 := by rw [users, if_pos rfl]
  have others : ∀ other, other ≠ ⟨vrfId, gw⟩ → uses' other = uses other := fun other different => by
    rw [users, if_neg different, Nat.add_zero]
  have before := held ⟨vrfId, gw⟩
  rcases ntbNeighAdd_cases env vrfId gw t with
    ⟨nhop, there, outcome⟩ | ⟨missing, oid', _, outcome⟩ | ⟨_, _, code, _, outcome⟩ <;>
    obtain ⟨same, answer⟩ := Prod.mk.inj (outcome.symm.trans result)
  · rw [there] at before
    obtain ⟨counted, resolved⟩ := before
    obtain ⟨kept, macs⟩ := held.insert (congrArg OlNeighTable.hashTbl same).symm (by simp only [own]; omega)
      resolved others
    exact ⟨kept, macs.trans (Function.update_eq_self_iff.mpr (OlNeighTable.macs_of_held there).symm)⟩
  · rw [missing] at before
    obtain ⟨kept, macs⟩ := held.insert (congrArg OlNeighTable.hashTbl same).symm
      (own.trans (congrArg (· + 1) before)).le rfl others
    exact ⟨kept, macs.trans (Function.update_eq_self_iff.mpr (OlNeighTable.macs_of_missing missing).symm)⟩
  · cases answer

theorem ntbNeighDel_held (held : t.Held uses) (referenced : t.Referenced)
    (users : ∀ key, uses key = uses' key + if key = ⟨vrfId, gw⟩ then 1 else 0) :
    (ntbNeighDel vrfId gw t).1.Held uses' ∧ (ntbNeighDel vrfId gw t).1.macs = t.macs := by
  have own : uses ⟨vrfId, gw⟩ = uses' ⟨vrfId, gw⟩ + 1 := by rw [users, if_pos rfl]
  have others : ∀ other, other ≠ ⟨vrfId, gw⟩ → uses' other = uses other := fun other different => by
    rw [users, if_neg different, Nat.add_zero]
  have before := held ⟨vrfId, gw⟩
  rcases ntbNeighDel_cases vrfId gw referenced with
    ⟨missing, _⟩ | ⟨nhop, there, _, outcome⟩ | ⟨nhop, there, last, outcome⟩
  · -- an entry in use is there
    rw [missing] at before
    exact absurd (own.symm.trans before) (Nat.succ_ne_zero _)
  · rw [there] at before
    obtain ⟨counted, resolved⟩ := before
    obtain ⟨kept, macs⟩ := held.insert (congrArg (OlNeighTable.hashTbl ∘ Prod.fst) outcome)
      (by dsimp only; omega) resolved others
    exact ⟨kept, macs.trans (Function.update_eq_self_iff.mpr (OlNeighTable.macs_of_held there).symm)⟩
  · rw [there] at before
    obtain ⟨counted, resolved⟩ := before
    -- the last reference was that of the next hop, so the entry was not added statically
    have dynamic : nhop.fArpStatic = false := by
      cases static : nhop.fArpStatic with
      | false => rfl
      | true =>
        rw [static, if_pos rfl] at counted
        omega
    have unresolved : t.macs ⟨vrfId, gw⟩ = none := by
      rw [OlNeighTable.macs_of_held there, OlNeighEntry.mac, resolved, dynamic]
      rfl
    obtain ⟨kept, macs⟩ := held.erase (congrArg (OlNeighTable.hashTbl ∘ Prod.fst) outcome) (by omega) others
    exact ⟨kept, macs.trans (Function.update_eq_self_iff.mpr unresolved.symm)⟩

theorem olNeighAddStatic_held (env : NeighEnv) (hwAddr : EtherAddr) (held : t.Held uses) :
    (olNeighAddStatic env vrfId gw hwAddr t).1.Held uses ∧
      (olNeighAddStatic env vrfId gw hwAddr t).1.macs =
        t.macs.told (.neighAddStatic env vrfId gw hwAddr, (olNeighAddStatic env vrfId gw hwAddr t).2) := by
  have before := held ⟨vrfId, gw⟩
  rw [NeighMacs.told]
  rcases olNeighAddStatic_cases env vrfId gw hwAddr t with
    ⟨nhop, there, outcome⟩ | ⟨_, code, negative, outcome⟩ | ⟨missing, outcome⟩
  · rw [there] at before
    obtain ⟨counted, resolved⟩ := before
    have recounted : uses ⟨vrfId, gw⟩ + 1 ≤ (nhop.setStatic hwAddr).refcnt := by
      cases static : nhop.fArpStatic <;> simp [OlNeighEntry.setStatic, static] at counted ⊢ <;> omega
    rw [if_pos (congrArg Prod.snd outcome)]
    exact held.insert (congrArg (OlNeighTable.hashTbl ∘ Prod.fst) outcome) recounted rfl fun _ _ => rfl
  · rw [outcome, if_neg (show code ≠ 0 by omega)]
    exact ⟨held, rfl⟩
  · rw [missing] at before
    rw [if_pos (congrArg Prod.snd outcome)]
    exact held.insert (congrArg (OlNeighTable.hashTbl ∘ Prod.fst) outcome) (congrArg (· + 1) before).le rfl
      fun _ _ => rfl

theorem nhopNeighAdd_held {env : NeighEnv} {oid : Oid} (held : t.Held uses)
    (result : nhopNeighAdd env vrfId gw t = (t', .ok oid))
    (users : ∀ key, uses' key = uses key + if gw ≠ 0 ∧ key = ⟨vrfId, gw⟩ then 1 else 0) :
    t'.Held uses' ∧ t'.macs = t.macs := by
  unfold nhopNeighAdd at result
  split at result
  next zero =>
    cases result
    have same : uses' = uses := funext fun key => by rw [users, if_neg (fun both => both.1 zero), Nat.add_zero]
    exact ⟨same ▸ held, rfl⟩
  next nonzero =>
    refine ntbNeighAdd_held held result fun key => ?_
    rw [users, if_congr (and_iff_right nonzero) rfl rfl]

theorem nhopNeighDel_held (held : t.Held uses) (referenced : t.Referenced)
    (users : ∀ key, uses key = uses' key + if gw ≠ 0 ∧ key = ⟨vrfId, gw⟩ then 1 else 0) :
    (nhopNeighDel vrfId gw t).Held uses' ∧ (nhopNeighDel vrfId gw t).macs = t.macs := by
  unfold nhopNeighDel
  split
  next zero =>
    have same : uses' = uses := funext fun key => by rw [users, if_neg (fun both => both.1 zero), Nat.add_zero]
    exact ⟨same ▸ held, rfl⟩
  next nonzero =>
    refine ntbNeighDel_held held referenced fun key => ?_
    rw [users, if_congr (and_iff_right nonzero) rfl rfl]

end Entries

/-! ## Next hops that come and go -/

section Nhops

variable {owner : NtbNhopHashKey → VrfId} {nhops : Table Addr FibNhop} {a : Addr} {fNhop : FibNhop}

theorem nhopUses_recount (held : nhops.lookup a = some fNhop) (refCount : Nat) :
    nhopUses owner (nhops.insert a { fNhop with refCount := refCount }) = nhopUses owner nhops := by
  funext key
  have traded : Table.total _ (nhops.insert a { fNhop with refCount := refCount }) + _ = _ :=
    Table.total_overwrite (fun _ fNhop => if fNhop.gateway ≠ 0 ∧ key = ⟨owner fNhop.key, fNhop.gateway⟩ then 1 else 0) held
  exact Nat.add_right_cancel traded

theorem nhopUses_allocate (fresh : a ∉ nhops) (fNhop : FibNhop) (key : OlNeighLookupKey) :
    nhopUses owner (nhops.insert a fNhop) key =
      nhopUses owner nhops key + if fNhop.gateway ≠ 0 ∧ key = ⟨owner fNhop.key, fNhop.gateway⟩ then 1 else 0 := by
  rw [nhopUses, Table.total_insert_of_notMem _ fresh, Nat.add_comm, nhopUses]

theorem nhopUses_release (held : nhops.lookup a = some fNhop) (key : OlNeighLookupKey) :
    nhopUses owner nhops key = nhopUses owner (nhops.erase a) key +
      if fNhop.gateway ≠ 0 ∧ key = ⟨owner fNhop.key, fNhop.gateway⟩ then 1 else 0 :=
  (Table.total_erase
    (fun _ (fNhop : FibNhop) => if fNhop.gateway ≠ 0 ∧ key = ⟨owner fNhop.key, fNhop.gateway⟩ then 1 else 0) held).symm

/-- A next hop of the VRF that owns it uses the entry of that VRF. -/
theorem uses_of_owned {vrfId : VrfId} {key : OlNeighLookupKey} (own : fNhop.gateway ≠ 0 → owner fNhop.key = vrfId) :
    (fNhop.gateway ≠ 0 ∧ key = ⟨owner fNhop.key, fNhop.gateway⟩) ↔ fNhop.gateway ≠ 0 ∧ key = ⟨vrfId, fNhop.gateway⟩ :=
  and_congr_right fun gateway => by rw [own gateway]

end Nhops

/-- The routes with a gateway use next hops of their own VRF, and the neighbour entries count the next hops. -/
structure Supported (owner : NtbNhopHashKey → VrfId) (s : RouteState) : Prop where
  owned : ∀ pfx route, s.installed pfx = some route → route.nhop.gateway ≠ 0 → owner route.nhop = pfx.vrfId
  held : s.store.neigh.Held (nhopUses owner s.store.nhops)

section Supported

variable {owner : NtbNhopHashKey → VrfId} {s s' : RouteState} {pfx : NtbRibKey}

theorem Supported.same (supported : Supported owner s) (same : s.Same s') :
    Supported owner s' ∧ s'.store.neigh.macs = s.store.neigh.macs := by
  refine ⟨⟨by rw [same.installed]; exact supported.owned, fun key => ?_⟩, ?_⟩
  · rw [same.store.neigh.hashTbl, same.store.nhops]
    exact supported.held key
  · funext key
    rw [OlNeighTable.macs, OlNeighTable.macs, same.store.neigh.hashTbl]

theorem Supported.inserted {env : RouteEnv} {data : FibNhopEncapData} {ribType : RibType} (accounted : Accounted s)
    (supported : Supported owner s) (inserted : Inserted env pfx data ribType s s')
    (own : data.gateway ≠ 0 → owner data.key = pfx.vrfId) :
    Supported owner s' ∧ s'.store.neigh.macs = s.store.neigh.macs := by
  have owned : ∀ other route, s'.installed other = some route → route.nhop.gateway ≠ 0 →
      owner route.nhop = other.vrfId := by
    intro other route there gateway
    rw [inserted.installed accounted, Function.update_apply] at there
    split at there
    next here =>
      obtain rfl := Option.some.inj there
      rw [here]
      exact own gateway
    next => exact supported.owned other route there gateway
  obtain ⟨a, created, _⟩ := inserted.uses accounted
  rcases nhopObjCreate_cases env.nhop pfx.vrfId data accounted.counts accounted.referenced with
    ⟨b, fNhop, _, held, _, result⟩ | ⟨_, b, nhOid, neigh, neighOid, allocates, _, neighbour, result⟩ |
      ⟨_, _, _, _, _, _, result⟩ <;>
    rw [result, Option.some.injEq, Prod.mk.injEq] at created <;> obtain ⟨store, same⟩ := created <;> cases same
  · -- a shared next hop uses the entry that it used
    rw [← store]
    refine ⟨⟨owned, ?_⟩, rfl⟩
    rw [← store, nhopUses_recount held]
    exact supported.held
  · have fresh := (rteZmalloc_some.mp allocates.1).2
    let fNhop : FibNhop := ⟨nhOid, 1, neighOid, data.gateway, data.tunnelInfo⟩
    have users (key : OlNeighLookupKey) : nhopUses owner (s.store.nhops.insert a fNhop) key =
        nhopUses owner s.store.nhops key + if data.gateway ≠ 0 ∧ key = ⟨pfx.vrfId, data.gateway⟩ then 1 else 0 := by
      rw [nhopUses_allocate fresh fNhop, if_congr (@uses_of_owned owner fNhop pfx.vrfId key own) rfl rfl]
    obtain ⟨kept, macs⟩ := nhopNeighAdd_held supported.held neighbour users
    rw [← store]
    exact ⟨⟨owned, by rw [← store]; exact kept⟩, macs⟩

theorem Supported.removed (accounted : Accounted s) (supported : Supported owner s) (removed : Removed pfx s s') :
    Supported owner s' ∧ s'.store.neigh.macs = s.store.neigh.macs := by
  have owned : ∀ other route, s'.installed other = some route → route.nhop.gateway ≠ 0 →
      owner route.nhop = other.vrfId := by
    intro other route there gateway
    rw [removed.installed accounted, Function.update_apply] at there
    split at there
    · cases there
    · exact supported.owned other route there gateway
  obtain ⟨id, fRes, a, listed, used, single, deleted, _⟩ := removed
  obtain ⟨_, b, fNhop, route⟩ := accounted.singleRoute listed
  obtain rfl := Option.some.inj (used.symm.trans route.used)
  obtain rfl : a = b := List.singleton_inj.mp (single.symm.trans route.single)
  have own : fNhop.gateway ≠ 0 → owner fNhop.key = pfx.vrfId := supported.owned pfx _ route.installed_eq
  rcases nhopObjDelete_cases pfx.vrfId accounted.counts route.held with ⟨_, result⟩ | ⟨_, result⟩ <;>
    obtain store := Option.some.inj (result.symm.trans deleted)
  · -- other routes still use the next hop
    rw [← store]
    refine ⟨⟨owned, ?_⟩, rfl⟩
    rw [← store, nhopUses_recount route.held]
    exact supported.held
  · have users (key : OlNeighLookupKey) : nhopUses owner s.store.nhops key =
        nhopUses owner (s.store.nhops.erase a) key +
          if fNhop.gateway ≠ 0 ∧ key = ⟨pfx.vrfId, fNhop.gateway⟩ then 1 else 0 := by
      rw [nhopUses_release route.held, if_congr (uses_of_owned own) rfl rfl]
    obtain ⟨kept, macs⟩ := nhopNeighDel_held supported.held accounted.referenced users
    rw [← store]
    exact ⟨⟨owned, by rw [← store]; exact kept⟩, macs⟩

end Supported

/-! ## Runs -/

def RouteCall.OwnedBy (owner : NtbNhopHashKey → VrfId) (call : RouteCall) : Prop :=
  ∀ env pfx data ribType, call = .nhopInsert env pfx data ribType → data.gateway ≠ 0 → owner data.key = pfx.vrfId

/-- Where each next hop is inserted into one VRF only, that VRF owns it. -/
theorem OneVrfEach.owner {calls : List RouteCall} (oneVrf : OneVrfEach (insertedNhops calls)) :
    ∃ owner, ∀ call ∈ calls, call.OwnedBy owner := by
  refine ⟨fun key => (((insertedNhops calls).find? fun nhop => nhop.2 = key).map Prod.fst).getD 0, ?_⟩
  rintro call member env pfx data ribType rfl gateway
  have inserted : (pfx.vrfId, data.key) ∈ insertedNhops calls := List.mem_filterMap.mpr ⟨_, member, rfl⟩
  cases found : (insertedNhops calls).find? fun nhop => nhop.2 = data.key with
  | none => exact absurd (decide_eq_true rfl) (List.find?_eq_none.mp found _ inserted)
  | some nhop =>
    have same : nhop.2 = data.key := by simpa using List.find?_some found
    dsimp only
    rw [found]
    exact oneVrf _ inserted nhop (List.mem_of_find?_eq_some found) gateway same

/-- Each call changes the MACs as its return code tells: a route call does not change them. -/
theorem routeAnswer_macs {owner : NtbNhopHashKey → VrfId} {s s' : RouteState} {call : RouteCall} {ret : Int}
    (accounted : Accounted s) (supported : Supported owner s) (own : call.OwnedBy owner)
    (answered : routeAnswer s call = some (s', ret)) :
    Supported owner s' ∧ s'.store.neigh.macs = s.store.neigh.macs.told (call, ret) := by
  have stepped : routeStep s call = some s' := by rw [routeAnswer_step, answered, Option.map_some]
  have routed (notStatic : ∀ env vrfId gw hwAddr, call ≠ .neighAddStatic env vrfId gw hwAddr) :
      Supported owner s' ∧ s'.store.neigh.macs = s.store.neigh.macs := by
    obtain ⟨t, stepped', _, kept⟩ := routeStep_invariant
      (fun t => Supported owner t ∧ t.store.neigh.macs = s.store.neigh.macs) call accounted
      (fits_of_defined accounted stepped) ⟨supported, rfl⟩ (fun t same => supported.same same)
      (fun env pfx data ribType t called _ new => supported.inserted accounted new (own env pfx data ribType called))
      (fun t u pfx accounted both away =>
        ⟨(both.1.removed accounted away).1, (both.1.removed accounted away).2.trans both.2⟩)
      (fun env vrfId gw hwAddr called => (notStatic env vrfId gw hwAddr called).elim)
    obtain rfl := Option.some.inj (stepped.symm.trans stepped')
    exact kept
  cases call with
  | nhopInsert => exact routed fun _ _ _ _ => RouteCall.noConfusion
  | nhopDelete => exact routed fun _ _ _ _ => RouteCall.noConfusion
  | delete => exact routed fun _ _ _ _ => RouteCall.noConfusion
  | cleanup => exact routed fun _ _ _ _ => RouteCall.noConfusion
  | neighAddStatic env vrfId gw hwAddr =>
    obtain ⟨rfl, rfl⟩ := Prod.mk.inj (Option.some.inj answered)
    obtain ⟨held, macs⟩ := @olNeighAddStatic_held _ _ vrfId gw env hwAddr supported.held
    exact ⟨⟨supported.owned, held⟩, macs⟩

theorem initial_supported (owner : NtbNhopHashKey → VrfId) : Supported owner .initial where
  owned := by
    intro pfx route there
    rw [installed_of_absent (by rfl)] at there
    cases there
  held := fun _ => rfl

/-- As long as no next hop with a gateway is inserted into two VRFs, the MAC of a neighbour is the one that was last
    added for it, whatever happens to the routes that lead to the neighbour. -/
theorem neighbours_follow_transcript (calls : List RouteCall) (s : RouteState) (entries : List (RouteCall × Int))
    (reached : transcript routeAnswer .initial calls = some (s, entries)) (oneVrf : OneVrfEach (insertedNhops calls)) :
    s.store.neigh.macs = .ofTranscript entries := by
  obtain ⟨owner, owned⟩ := oneVrf.owner
  have start : RouteState.initial.store.neigh.macs = fun _ => none := rfl
  rw [NeighMacs.ofTranscript, ← start]
  have follows (s : RouteState) (call : RouteCall) (s' : RouteState) (ret : Int)
      (holds : Accounted s ∧ Supported owner s) (own : call.OwnedBy owner) (answered : routeAnswer s call = some (s', ret)) :
      (Accounted s' ∧ Supported owner s') ∧ s'.store.neigh.macs = s.store.neigh.macs.told (call, ret) := by
    obtain ⟨supported, macs⟩ := routeAnswer_macs holds.1 holds.2 own answered
    have stepped : routeStep s call = some s' := by rw [routeAnswer_step, answered, Option.map_some]
    exact ⟨⟨accounted_of_defined holds.1 stepped, supported⟩, macs⟩
  exact (transcript_view follows ⟨RouteState.initial_accounted, initial_supported owner⟩ owned reached).2

def passingRoutes : List RouteCall := [
  .neighAddStatic ⟨true, true, .ok 0⟩ 1 0x0101010a 0x020000000007,
  insertVxlanNhop 1,
  .nhopInsert (.granted 2 7 8) (subnet24 1 8) vxlanNhop .default,
  .delete (subnet24 1 7),
  .delete (subnet24 1 8)]

theorem passingRoutes_mac : ∃ s entries, transcript routeAnswer .initial passingRoutes = some (s, entries) ∧
    s.store.neigh.macs = .ofTranscript entries ∧ s.store.neigh.macs ⟨1, 0x0101010a⟩ = some 0x020000000007 := by
  obtain ⟨s, reached⟩ := @transcript_of_answers _ _ _ routeAnswer .initial passingRoutes [0, 0, 0, 0, 0] (by decide +kernel)
  have followed := neighbours_follow_transcript passingRoutes s _ reached (by unfold OneVrfEach; decide +kernel)
  exact ⟨s, _, reached, followed, by rw [followed]; decide +kernel⟩

end Tao.Agent
