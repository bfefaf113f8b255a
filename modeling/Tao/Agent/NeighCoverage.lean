import Tao.Agent.RouteAccounting

/-! # Neighbour coverage

A next hop takes one reference to the neighbour entry of the VRF that creates it.
Where every next hop with a gateway is used by the routes of one VRF, its owner,
the entries are exactly those that routes or static adds ask for. -/

namespace Tao.Agent

open Tao.Foundation

/-! ## A neighbour table that counts its users -/

def OlNeighTable.entries (t : OlNeighTable) (vrfId : VrfId) : Nat :=
  Table.total (fun key _ => if key.vrfid = vrfId then 1 else 0) t.hashTbl

/-- An entry exists for every key in use; its reference count is the number of users, and it is
    static when it was added statically. -/
structure OlNeighTable.Counts (t : OlNeighTable) (uses : OlNeighLookupKey → Nat)
    (added : Finset OlNeighLookupKey) : Prop where
  present : ∀ key entry, t.hashTbl.lookup key = some entry →
    key.nexthop ≠ 0 ∧ entry.refcnt = uses key ∧ (entry.fArpStatic = true ↔ key ∈ added)
  absent : ∀ key, key.nexthop ≠ 0 → t.hashTbl.lookup key = none → uses key = 0 ∧ key ∉ added
  neighCnt : ∀ vrfId, t.neighCnt vrfId = t.entries vrfId

section

variable {t t' : OlNeighTable} {uses uses' : OlNeighLookupKey → Nat} {added : Finset OlNeighLookupKey}

theorem OlNeighTable.Counts.same (counts : t.Counts uses added) (same : t.Same t')
    (users : ∀ key, key.nexthop ≠ 0 → uses' key = uses key) : t'.Counts uses' added := by
  refine ⟨fun key entry held => ?_, fun key gateway missing => ?_, fun vrfId => ?_⟩
  · rw [same.hashTbl] at held
    obtain ⟨gateway, count, static⟩ := counts.present key entry held
    exact ⟨gateway, by rw [count, users key gateway], static⟩
  · rw [same.hashTbl] at missing
    rw [users key gateway]
    exact counts.absent key gateway missing
  · rw [same.neighCnt, OlNeighTable.entries, same.hashTbl]
    exact counts.neighCnt vrfId

theorem OlNeighTable.entries_overwrite {key : OlNeighLookupKey} {entry : OlNeighEntry}
    (held : t.hashTbl.lookup key = some entry) (entry' : OlNeighEntry) (vrfId : VrfId) :
    OlNeighTable.entries { t with hashTbl := t.hashTbl.insert key entry' } vrfId = t.entries vrfId := by
  have traded : Table.total _ (t.hashTbl.insert key entry') + _ = _ :=
    Table.total_overwrite (fun key _ => if key.vrfid = vrfId then 1 else 0) held
  exact Nat.add_right_cancel traded

theorem OlNeighTable.Counts.overwrite (counts : t.Counts uses added) {key : OlNeighLookupKey}
    {entry entry' : OlNeighEntry} (held : t.hashTbl.lookup key = some entry)
    {added' : Finset OlNeighLookupKey} (count : entry'.refcnt = uses' key)
    (static : entry'.fArpStatic = true ↔ key ∈ added')
    (others : ∀ other, other ≠ key → other.nexthop ≠ 0 →
      uses' other = uses other ∧ (other ∈ added' ↔ other ∈ added)) :
    OlNeighTable.Counts { t with hashTbl := t.hashTbl.insert key entry' } uses' added' := by
  refine ⟨fun other entry'' found => ?_, fun other gateway missing => ?_, fun vrfId => ?_⟩
  · rw [Table.lookup_insert_eq_some] at found
    rcases found with ⟨same, rfl⟩ | ⟨different, found⟩
    · rw [same]
      exact ⟨(counts.present key entry held).1, count, static⟩
    · obtain ⟨gateway, refcnt, flag⟩ := counts.present other entry'' found
      obtain ⟨users, member⟩ := others other different gateway
      exact ⟨gateway, by rw [refcnt, users], flag.trans member.symm⟩
  · obtain ⟨different, missing⟩ := Table.lookup_insert_eq_none.mp missing
    obtain ⟨users, member⟩ := others other different gateway
    rw [users, member]
    exact counts.absent other gateway missing
  · rw [OlNeighTable.entries_overwrite held]
    exact counts.neighCnt vrfId

/-- A counter for each VRF stays right when the counter of one VRF follows its count and the other
    counts stay. -/
theorem counted_update {cnt count count' : VrfId → Nat} (counted : ∀ vrfId, cnt vrfId = count vrfId)
    {changed : VrfId} {value : Nat} (own : value = count' changed)
    (others : ∀ other, other ≠ changed → count' other = count other) (vrfId : VrfId) :
    Function.update cnt changed value vrfId = count' vrfId := by
  by_cases same : vrfId = changed
  · rw [same, Function.update_self, own]
  · rw [Function.update_of_ne same, counted, others vrfId same]

theorem OlNeighTable.Counts.create (counts : t.Counts uses added) {key : OlNeighLookupKey}
    {entry : OlNeighEntry} (missing : t.hashTbl.lookup key = none) (gateway : key.nexthop ≠ 0)
    (count : entry.refcnt = uses' key) (static : entry.fArpStatic = false)
    (others : ∀ other, other ≠ key → other.nexthop ≠ 0 → uses' other = uses other)
    (total : Nat) (oids : Finset Oid) :
    OlNeighTable.Counts ⟨t.hashTbl.insert key entry, total,
      Function.update t.neighCnt key.vrfid (t.neighCnt key.vrfid + 1), oids⟩ uses' added := by
  refine ⟨fun other entry' found => ?_, fun other nonzero found => ?_, fun vrfId => ?_⟩
  · rw [Table.lookup_insert_eq_some] at found
    rcases found with ⟨same, rfl⟩ | ⟨different, found⟩
    · rw [same]
      exact ⟨gateway, count, by simp [static, (counts.absent key gateway missing).2]⟩
    · obtain ⟨nonzero, refcnt, flag⟩ := counts.present other entry' found
      exact ⟨nonzero, by rw [refcnt, others other different nonzero], flag⟩
  · obtain ⟨different, found⟩ := Table.lookup_insert_eq_none.mp found
    rw [others other different nonzero]
    exact counts.absent other nonzero found
  · have grown (vrfId : VrfId) : Table.total _ (t.hashTbl.insert key entry) = _ :=
      Table.total_insert_of_notMem (fun (key : OlNeighLookupKey) _ => if key.vrfid = vrfId then 1 else 0)
        (Finmap.lookup_eq_none.mp missing)
    refine counted_update counts.neighCnt ?_ (fun other different => ?_) vrfId
    · have own := grown key.vrfid
      rw [if_pos rfl] at own
      rw [counts.neighCnt, OlNeighTable.entries, OlNeighTable.entries, own]
      omega
    · have same := grown other
      rw [if_neg (Ne.symm different), Nat.zero_add] at same
      exact same

theorem OlNeighTable.Counts.drop (counts : t.Counts uses added) {key : OlNeighLookupKey}
    {entry : OlNeighEntry} (held : t.hashTbl.lookup key = some entry)
    (unused : uses' key = 0) (notAdded : key ∉ added)
    (others : ∀ other, other ≠ key → other.nexthop ≠ 0 → uses' other = uses other) (total : Nat) :
    OlNeighTable.Counts ⟨t.hashTbl.erase key, total,
      Function.update t.neighCnt key.vrfid (decrement32 (t.neighCnt key.vrfid)), t.oids⟩ uses' added := by
  refine ⟨fun other entry' found => ?_, fun other nonzero found => ?_, fun vrfId => ?_⟩
  · rw [Table.lookup_erase_eq_some] at found
    obtain ⟨different, found⟩ := found
    obtain ⟨nonzero, refcnt, flag⟩ := counts.present other entry' found
    exact ⟨nonzero, by rw [refcnt, others other different nonzero], flag⟩
  · by_cases same : other = key
    · rw [same]
      exact ⟨unused, notAdded⟩
    · rw [Finmap.lookup_erase_ne same] at found
      rw [others other same nonzero]
      exact counts.absent other nonzero found
  · have dropped (vrfId : VrfId) := Table.total_erase (fun (key : OlNeighLookupKey) _ =>
      if key.vrfid = vrfId then 1 else 0) held
    refine counted_update counts.neighCnt ?_ (fun other different => ?_) vrfId
    · have own := dropped key.vrfid
      rw [if_pos rfl] at own
      -- an entry that goes away was counted
      rw [counts.neighCnt, OlNeighTable.entries, ← own, decrement32_succ]
      rfl
    · have same := dropped other
      rw [if_neg (Ne.symm different)] at same
      exact same

/-! ## One user more -/

section Users

variable {key : OlNeighLookupKey}
  (users : ∀ other, other.nexthop ≠ 0 → uses' other = uses other + if other = key then 1 else 0)

include users

theorem users_self (gateway : key.nexthop ≠ 0) : uses' key = uses key + 1 := by
  rw [users key gateway, if_pos rfl]

theorem users_other {other : OlNeighLookupKey} (different : other ≠ key) (nonzero : other.nexthop ≠ 0) :
    uses' other = uses other := by
  rw [users other nonzero, if_neg different, Nat.add_zero]

/-- No entry has gateway 0, so a user of it does not count. -/
theorem users_zero (zero : key.nexthop = 0) {other : OlNeighLookupKey} (nonzero : other.nexthop ≠ 0) :
    uses' other = uses other := by
  refine users_other users ?_ nonzero
  rintro rfl
  exact nonzero zero

end Users

theorem ntbNeighAdd_counts {env : NeighEnv} {vrfId : VrfId} {gw : Ip4} {oid : Oid}
    (counts : t.Counts uses added) (gateway : gw ≠ 0) (result : ntbNeighAdd env vrfId gw t = (t', .ok oid))
    (users : ∀ key, key.nexthop ≠ 0 → uses' key = uses key + if key = ⟨vrfId, gw⟩ then 1 else 0) :
    t'.Counts uses' added := by
  have others : ∀ other, other ≠ ⟨vrfId, gw⟩ → other.nexthop ≠ 0 → uses' other = uses other :=
    fun _ => users_other users
  have own : uses' ⟨vrfId, gw⟩ = uses ⟨vrfId, gw⟩ + 1 := users_self users gateway
  rcases ntbNeighAdd_cases env vrfId gw t with
    ⟨entry, held, outcome⟩ | ⟨missing, oid', _, outcome⟩ | ⟨_, _, _, _, outcome⟩ <;>
    rw [outcome] at result <;> cases result
  · obtain ⟨_, count, static⟩ := counts.present _ entry held
    refine counts.overwrite held ?_ ?_ fun other different nonzero => ⟨others other different nonzero, Iff.rfl⟩
    · rw [own, ← count]
    · exact static
  · have unused := (counts.absent _ gateway missing).1
    exact counts.create missing gateway (by rw [own, unused]) rfl others _ _

theorem ntbNeighDel_counts {vrfId : VrfId} {gw : Ip4} (counts : t.Counts uses added) (gateway : gw ≠ 0)
    (referenced : t.Referenced)
    (users : ∀ key, key.nexthop ≠ 0 → uses key = uses' key + if key = ⟨vrfId, gw⟩ then 1 else 0)
    (static : ∀ key, key ∈ added → 1 ≤ uses' key) : (ntbNeighDel vrfId gw t).1.Counts uses' added := by
  have others : ∀ other, other ≠ ⟨vrfId, gw⟩ → other.nexthop ≠ 0 → uses' other = uses other :=
    fun _ different nonzero => (users_other users different nonzero).symm
  have own : uses ⟨vrfId, gw⟩ = uses' ⟨vrfId, gw⟩ + 1 := users_self users gateway
  rcases ntbNeighDel_cases vrfId gw referenced with
    ⟨missing, _⟩ | ⟨entry, held, _, outcome⟩ | ⟨entry, held, last, outcome⟩
  · -- an entry in use is there
    have unused := (counts.absent _ gateway missing).1
    omega
  · obtain ⟨_, count, flag⟩ := counts.present _ entry held
    rw [outcome]
    refine counts.overwrite held ?_ ?_ fun other different nonzero => ⟨others other different nonzero, Iff.rfl⟩
    · show entry.refcnt - 1 = _
      omega
    · exact flag
  · obtain ⟨_, count, _⟩ := counts.present _ entry held
    rw [outcome]
    -- a static add would be one more user
    refine counts.drop held (by omega) (fun member => ?_) others _
    have positive := static _ member
    omega

theorem nhopNeighAdd_counts {env : NeighEnv} {vrfId : VrfId} {gateway : Ip4} {oid : Oid}
    (counts : t.Counts uses added) (result : nhopNeighAdd env vrfId gateway t = (t', .ok oid))
    (users : ∀ key, key.nexthop ≠ 0 → uses' key = uses key + if key = ⟨vrfId, gateway⟩ then 1 else 0) :
    t'.Counts uses' added := by
  unfold nhopNeighAdd at result
  split at result
  next zero =>
    -- gateway 0 takes no reference
    cases result
    exact counts.same (.refl _) fun _ => users_zero users zero
  next nonzero => exact ntbNeighAdd_counts counts nonzero result users

theorem nhopNeighDel_counts {vrfId : VrfId} {gateway : Ip4} (counts : t.Counts uses added)
    (referenced : t.Referenced)
    (users : ∀ key, key.nexthop ≠ 0 → uses key = uses' key + if key = ⟨vrfId, gateway⟩ then 1 else 0)
    (static : ∀ key, key ∈ added → 1 ≤ uses' key) : (nhopNeighDel vrfId gateway t).Counts uses' added := by
  unfold nhopNeighDel
  split
  next zero =>
    exact counts.same (.refl _) fun _ nonzero => (users_zero users zero nonzero).symm
  next nonzero => exact ntbNeighDel_counts counts nonzero referenced users static

theorem olNeighAddStatic_counts (env : NeighEnv) {vrfId : VrfId} {gw : Ip4} (hwAddr : EtherAddr)
    {entry : OlNeighEntry} (counts : t.Counts uses added) (held : t.hashTbl.lookup ⟨vrfId, gw⟩ = some entry)
    (users : ∀ key, uses' key = uses key + if key = ⟨vrfId, gw⟩ ∧ key ∉ added then 1 else 0) :
    (olNeighAddStatic env vrfId gw hwAddr t).1.Counts uses' (insert ⟨vrfId, gw⟩ added) := by
  obtain ⟨_, count, flag⟩ := counts.present _ entry held
  rcases olNeighAddStatic_cases env vrfId gw hwAddr t with
    ⟨entry', held', outcome⟩ | ⟨missing, _⟩ | ⟨missing, _⟩
  · obtain rfl := Option.some.inj (held.symm.trans held')
    rw [outcome]
    refine counts.overwrite held ?_ ?_ ?_
    · rw [users]
      simp only [OlNeighEntry.setStatic, flag, true_and]
      split
      next => rw [count]; rfl
      next => rw [count]
    · simp [OlNeighEntry.setStatic]
    · intro other different _
      rw [users, if_neg (fun both => different both.1)]
      exact ⟨rfl, by simp [different]⟩
  · rw [held] at missing; cases missing
  · rw [held] at missing; cases missing

end

/-! ## The users of a neighbour entry -/

/-- Users of an entry: the live next hops with its gateway that are owned by its VRF, and the
    static add. -/
def neighUses (nhops : Table Addr FibNhop) (owner : Addr → VrfId) (added : Finset OlNeighLookupKey)
    (key : OlNeighLookupKey) : Nat :=
  Table.total (fun a fNhop => if key = ⟨owner a, fNhop.gateway⟩ then 1 else 0) nhops +
    if key ∈ added then 1 else 0

theorem neighUses_recount {nhops : Table Addr FibNhop} {a : Addr} {fNhop : FibNhop}
    (held : nhops.lookup a = some fNhop) (refCount : Nat) (owner : Addr → VrfId)
    (added : Finset OlNeighLookupKey) (key : OlNeighLookupKey) :
    neighUses (nhops.insert a { fNhop with refCount := refCount }) owner added key =
      neighUses nhops owner added key := by
  have traded : Table.total _ (nhops.insert a { fNhop with refCount := refCount }) + _ = _ :=
    Table.total_overwrite (fun a fNhop => if key = ⟨owner a, fNhop.gateway⟩ then 1 else 0) held
  exact congrArg (· + _) (Nat.add_right_cancel traded)

theorem neighUses_allocate {nhops : Table Addr FibNhop} {a : Addr} (fresh : a ∉ nhops) (fNhop : FibNhop)
    (owner : Addr → VrfId) (vrfId : VrfId) (added : Finset OlNeighLookupKey) (key : OlNeighLookupKey) :
    neighUses (nhops.insert a fNhop) (Function.update owner a vrfId) added key =
      neighUses nhops owner added key + if key = ⟨vrfId, fNhop.gateway⟩ then 1 else 0 := by
  have others : Table.total (fun b gNhop =>
      if key = ⟨Function.update owner a vrfId b, gNhop.gateway⟩ then 1 else 0) nhops =
      Table.total (fun b gNhop => if key = ⟨owner b, gNhop.gateway⟩ then 1 else 0) nhops := by
    apply Table.total_congr
    intro b gNhop held
    have different : b ≠ a := by
      rintro rfl
      exact fresh (Finmap.mem_of_lookup_eq_some held)
    rw [Function.update_of_ne different]
  rw [neighUses, Table.total_insert_of_notMem _ fresh, others, Function.update_self, neighUses]
  omega

theorem neighUses_release {nhops : Table Addr FibNhop} {a : Addr} {fNhop : FibNhop}
    (held : nhops.lookup a = some fNhop) (owner : Addr → VrfId) (added : Finset OlNeighLookupKey)
    (key : OlNeighLookupKey) : neighUses nhops owner added key =
      neighUses (nhops.erase a) owner added key + if key = ⟨owner a, fNhop.gateway⟩ then 1 else 0 := by
  have dropped := Table.total_erase (fun a fNhop => if key = ⟨owner a, fNhop.gateway⟩ then 1 else 0) held
  rw [neighUses, neighUses]
  omega

/-! ## Covered states -/

def Uses (s : RouteState) (pfx : NtbRibKey) (a : Addr) : Prop :=
  ∃ id fRes, s.rib.lookup pfx = some id ∧ s.fibRes.lookup id = some fRes ∧ a ∈ fRes.mpath

/-- Every next hop with a gateway is used by routes of its owner only, and the neighbour entries
    count the next hops of their VRF. -/
structure Covered (s : RouteState) (added : Finset OlNeighLookupKey) (owner : Addr → VrfId) : Prop where
  owned : ∀ pfx a fNhop, Uses s pfx a → s.store.nhops.lookup a = some fNhop → fNhop.gateway ≠ 0 →
    owner a = pfx.vrfId
  counts : s.store.neigh.Counts (neighUses s.store.nhops owner added) added

theorem Accounted.nhop_used {s : RouteState} (accounted : Accounted s) {a : Addr} {fNhop : FibNhop}
    (held : s.store.nhops.lookup a = some fNhop) : ∃ pfx, Uses s pfx a := by
  have positive : 0 < s.refs a := (accounted.counts.live a fNhop held).2.2
  obtain ⟨id, fRes, used, member⟩ := Table.total_pos_iff.mp positive
  rcases accounted.used_listed id fRes used with rfl | ⟨pfx, listed⟩
  · obtain ⟨fResBh, used', empty⟩ := accounted.blackhole
    obtain rfl := Option.some.inj (used.symm.trans used')
    rw [empty] at member
    cases member
  · exact ⟨pfx, id, fRes, listed, used, List.count_pos_iff.mp member⟩

theorem Accounted.uses_live {s : RouteState} (accounted : Accounted s) {pfx : NtbRibKey} {a : Addr}
    (uses : Uses s pfx a) : a ∈ s.store.nhops := by
  obtain ⟨id, fRes, listed, used, member⟩ := uses
  obtain ⟨_, fRes', b, used', single⟩ := accounted.rib_used pfx id listed
  obtain rfl := Option.some.inj (used.symm.trans used')
  rw [single, List.mem_singleton] at member
  subst member
  obtain ⟨fNhop, held⟩ := accounted.nhop_live used single
  exact Finmap.mem_of_lookup_eq_some held

theorem Covered.same {s s' : RouteState} {added : Finset OlNeighLookupKey} {owner : Addr → VrfId}
    (covered : Covered s added owner) (same : s.Same s') : Covered s' added owner := by
  refine ⟨fun pfx a fNhop uses held => ?_, ?_⟩
  · rw [Uses, same.rib, same.fibRes] at uses
    rw [same.store.nhops] at held
    exact covered.owned pfx a fNhop uses held
  · exact covered.counts.same same.store.neigh fun key _ => by rw [same.store.nhops]

theorem Inserted.uses {env : RouteEnv} {pfx : NtbRibKey} {data : FibNhopEncapData} {ribType : RibType}
    {s s' : RouteState} (accounted : Accounted s) (inserted : Inserted env pfx data ribType s s') :
    ∃ a, nhopObjCreate env.nhop pfx.vrfId data s.store = some (s'.store, .ok a) ∧
      ∀ other b, Uses s' other b → other = pfx ∧ b = a ∨ Uses s other b := by
  obtain ⟨_, id, a, oid, p, created, allocated, _, fibRes, rib, _, _⟩ := inserted
  refine ⟨a, created, ?_⟩
  rintro other b ⟨id', fRes, listed, used, member⟩
  rw [rib, Table.lookup_insert_eq_some] at listed
  rcases listed with ⟨same, rfl⟩ | ⟨_, listed⟩
  · rw [fibRes, Finmap.lookup_insert] at used
    obtain rfl := Option.some.inj used
    rw [fibResSingle_mpath] at member
    exact .inl ⟨same, List.mem_singleton.mp member⟩
  · obtain ⟨_, fRes', _, used', _⟩ := accounted.rib_used other id' listed
    have different : id' ≠ id := by
      rintro rfl
      exact fibResIdAlloc_free allocated (Finmap.mem_of_lookup_eq_some used')
    rw [fibRes, Finmap.lookup_insert_of_ne _ different] at used
    exact .inr ⟨id', fRes, listed, used, member⟩

theorem Removed.uses {pfx other : NtbRibKey} {s s' : RouteState} {b : Addr} (removed : Removed pfx s s')
    (uses : Uses s' other b) : Uses s other b := by
  obtain ⟨id, fRes, a, _, _, _, _, fibRes, rib, _, _⟩ := removed
  obtain ⟨id', fRes', listed, used, member⟩ := uses
  rw [rib, Table.lookup_erase_eq_some] at listed
  rw [fibRes, Table.lookup_erase_eq_some] at used
  exact ⟨id', fRes', listed.2, used.2, member⟩

theorem Covered.inserted {env : RouteEnv} {pfx : NtbRibKey} {data : FibNhopEncapData} {ribType : RibType}
    {s s' : RouteState} {added : Finset OlNeighLookupKey} {owner : Addr → VrfId} (accounted : Accounted s)
    (covered : Covered s added owner) (inserted : Inserted env pfx data ribType s s')
    (unshared : data.gateway ≠ 0 → ∀ other a fNhop, Uses s other a → s.store.nhops.lookup a = some fNhop →
      fNhop.key = data.key → other.vrfId = pfx.vrfId) : ∃ owner', Covered s' added owner' := by
  obtain ⟨a, created, users⟩ := inserted.uses accounted
  rcases nhopObjCreate_cases env.nhop pfx.vrfId data accounted.counts accounted.referenced with
    ⟨b, fNhop, _, held, key, result⟩ | ⟨_, b, nhOid, neigh, neighOid, allocates, _, neighbour, result⟩ |
      ⟨_, _, _, _, _, _, result⟩ <;>
    rw [result, Option.some.injEq, Prod.mk.injEq] at created <;> obtain ⟨store, same⟩ := created <;> cases same
  · -- a shared next hop keeps its owner
    refine ⟨owner, fun other c gNhop uses live gateway => ?_, ?_⟩
    · rw [← store, Table.lookup_insert_eq_some] at live
      have before : ∃ gNhop', s.store.nhops.lookup c = some gNhop' ∧ gNhop'.gateway = gNhop.gateway := by
        rcases live with ⟨here, rfl⟩ | ⟨_, live⟩
        · exact ⟨fNhop, by rw [here, held], rfl⟩
        · exact ⟨gNhop, live, rfl⟩
      obtain ⟨gNhop', live', sameGateway⟩ := before
      rcases users other c uses with ⟨rfl, rfl⟩ | uses
      · obtain rfl := Option.some.inj (held.symm.trans live')
        have dataGateway : data.gateway ≠ 0 := by
          have same : fNhop.gateway = data.gateway := congrArg NtbNhopHashKey.gateway key
          rw [← same, sameGateway]
          exact gateway
        -- some route used it before, and that route's VRF is the owner
        obtain ⟨user, uses'⟩ := accounted.nhop_used held
        rw [covered.owned user c fNhop uses' held (fun zero => gateway (sameGateway.symm.trans zero))]
        exact unshared dataGateway user c fNhop uses' held key
      · exact covered.owned other c gNhop' uses live' (sameGateway ▸ gateway)
    · rw [← store]
      exact covered.counts.same (.refl _) fun key _ => neighUses_recount held _ owner added key
  · -- a new next hop is owned by the VRF of the route
    have fresh := (rteZmalloc_some.mp allocates.1).2
    refine ⟨Function.update owner a pfx.vrfId, fun other c gNhop uses live gateway => ?_, ?_⟩
    · rw [← store, Table.lookup_insert_eq_some] at live
      rcases live with ⟨rfl, _⟩ | ⟨here, live⟩
      · rw [Function.update_self]
        rcases users other c uses with ⟨rfl, _⟩ | uses
        · rfl
        · exact (fresh (accounted.uses_live uses)).elim
      · rw [Function.update_of_ne here]
        rcases users other c uses with ⟨_, new⟩ | uses
        · exact (here new).elim
        · exact covered.owned other c gNhop uses live gateway
    · rw [← store]
      exact nhopNeighAdd_counts covered.counts neighbour fun key _ =>
        neighUses_allocate fresh ⟨nhOid, 1, neighOid, data.gateway, data.tunnelInfo⟩ owner pfx.vrfId added key

theorem Covered.removed {pfx : NtbRibKey} {s s' : RouteState} {added : Finset OlNeighLookupKey}
    {owner : Addr → VrfId} (accounted : Accounted s) (covered : Covered s added owner)
    (removed : Removed pfx s s') : Covered s' added owner := by
  have users : ∀ other b, Uses s' other b → Uses s other b := fun _ _ => removed.uses
  obtain ⟨id, fRes, a, listed, used, single, deleted, _, _, _, _⟩ := removed
  obtain ⟨fNhop, held⟩ := accounted.nhop_live used single
  have own : fNhop.gateway ≠ 0 → owner a = pfx.vrfId :=
    covered.owned pfx a fNhop ⟨id, fRes, listed, used, by rw [single]; exact List.mem_singleton_self a⟩ held
  rcases nhopObjDelete_cases pfx.vrfId accounted.counts held with ⟨_, result⟩ | ⟨_, result⟩ <;>
    rw [result, Option.some.injEq] at deleted
  · -- other routes still use the next hop
    refine ⟨fun other c gNhop uses live gateway => ?_, ?_⟩
    · rw [← deleted, Table.lookup_insert_eq_some] at live
      rcases live with ⟨here, rfl⟩ | ⟨_, live⟩
      · subst here
        exact covered.owned other c fNhop (users other c uses) held gateway
      · exact covered.owned other c gNhop (users other c uses) live gateway
    · rw [← deleted]
      exact covered.counts.same (.refl _) fun key _ => neighUses_recount held _ owner added key
  · -- the next hop goes away, in the VRF that owns it
    refine ⟨fun other c gNhop uses live gateway => ?_, ?_⟩
    · rw [← deleted, Table.lookup_erase_eq_some] at live
      exact covered.owned other c gNhop (users other c uses) live.2 gateway
    · rw [← deleted]
      refine nhopNeighDel_counts covered.counts accounted.referenced (fun key nonzero => ?_) ?_
      · have sameKey : key = ⟨owner a, fNhop.gateway⟩ ↔ key = ⟨pfx.vrfId, fNhop.gateway⟩ := by
          by_cases zero : fNhop.gateway = 0
          · constructor <;> rintro rfl <;> exact (nonzero zero).elim
          · rw [own zero]
        rw [neighUses_release held owner added key]
        simp only [sameKey]
      · intro key member
        rw [neighUses, if_pos member]
        exact Nat.le_add_left 1 _

/-! ## Runs with static adds -/

/-- A routing state with the keys that were added statically so far. -/
structure NeighRun where
  route : RouteState
  added : Finset OlNeighLookupKey

def RouteCall.addsStatic (s : RouteState) : RouteCall → Finset OlNeighLookupKey
  | .neighAddStatic env vrfId gw hwAddr =>
    if (olNeighAddStatic env vrfId gw hwAddr s.store.neigh).2 = 0 then {⟨vrfId, gw⟩} else ∅
  | _ => ∅

def neighRunStep (s : NeighRun) (call : RouteCall) : Option NeighRun :=
  (routeStep s.route call).map fun route => ⟨route, call.addsStatic s.route ∪ s.added⟩

def NeighRun.initial : NeighRun := ⟨.initial, ∅⟩

def HasGateway (s : RouteState) (vrfId : VrfId) (gw : Ip4) : Prop :=
  ∃ pfx a fNhop, pfx.vrfId = vrfId ∧ Uses s pfx a ∧ s.store.nhops.lookup a = some fNhop ∧ fNhop.gateway = gw

/-- The neighbour entries are those that routes and static adds ask for, and `neigh_cnt` counts
    them.  So the lookup of a packet finds the entry of its next hop, and so does the `ntb_neigh_del`
    of a next hop that goes away. -/
structure NeighCoverage (s : NeighRun) : Prop where
  entry : ∀ vrfId gw, gw ≠ 0 →
    ((∃ entry, s.route.store.neigh.hashTbl.lookup ⟨vrfId, gw⟩ = some entry ∧ 1 ≤ entry.refcnt) ↔
      HasGateway s.route vrfId gw ∨ ⟨vrfId, gw⟩ ∈ s.added)
  forwards : ∀ vrfId gw, gw ≠ 0 → HasGateway s.route vrfId gw →
    ∃ entry, s.route.store.neigh.hashTbl.lookup ⟨vrfId, gw⟩ = some entry
  releases : ∀ vrfId gw, gw ≠ 0 → HasGateway s.route vrfId gw →
    (ntbNeighDel vrfId gw s.route.store.neigh).2 = 0
  neighCnt : ∀ vrfId, s.route.store.neigh.neighCnt vrfId = s.route.store.neigh.entries vrfId

/-- The call does not overrun `mpath[]`; a route that it enters shares a next hop with a gateway
    only with routes of its own VRF; a static add finds the entry, or fails. -/
def RouteCall.Unshared (s : RouteState) : RouteCall → Prop
  | .nhopInsert env pfx data ribType => ¬ Overruns env pfx data ribType s ∧
      (Enters env pfx data s → data.gateway ≠ 0 → ∀ other a fNhop, Uses s other a →
        s.store.nhops.lookup a = some fNhop → fNhop.key = data.key → other.vrfId = pfx.vrfId)
  | .neighAddStatic env vrfId gw _ =>
      (⟨vrfId, gw⟩ : OlNeighLookupKey) ∈ s.store.neigh.hashTbl ∨ env.memory = false ∨ env.room = false
  | _ => True

theorem RouteCall.Unshared.fits {s : RouteState} {call : RouteCall} (unshared : call.Unshared s) :
    call.Fits s := by
  refine RouteCall.fits_of_insert ?_
  rintro env pfx data ribType rfl
  exact unshared.1

theorem Covered.neighUses_pos_iff {s : NeighRun} {owner : Addr → VrfId} (accounted : Accounted s.route)
    (covered : Covered s.route s.added owner) (vrfId : VrfId) {gw : Ip4} (gateway : gw ≠ 0) :
    1 ≤ neighUses s.route.store.nhops owner s.added ⟨vrfId, gw⟩ ↔
      HasGateway s.route vrfId gw ∨ ⟨vrfId, gw⟩ ∈ s.added := by
  have nhops : 0 < Table.total (fun a (fNhop : FibNhop) =>
      if (⟨vrfId, gw⟩ : OlNeighLookupKey) = ⟨owner a, fNhop.gateway⟩ then 1 else 0) s.route.store.nhops ↔
      HasGateway s.route vrfId gw := by
    rw [Table.total_pos_iff]
    constructor
    · rintro ⟨a, fNhop, held, positive⟩
      have key : (⟨vrfId, gw⟩ : OlNeighLookupKey) = ⟨owner a, fNhop.gateway⟩ := by
        by_contra different
        rw [if_neg different] at positive
        exact absurd positive (Nat.lt_irrefl 0)
      obtain ⟨rfl, rfl⟩ := OlNeighLookupKey.mk.inj key
      -- a live next hop is used by some route, and its owner is the VRF of that route
      obtain ⟨pfx, uses⟩ := accounted.nhop_used held
      exact ⟨pfx, a, fNhop, (covered.owned pfx a fNhop uses held gateway).symm, uses, held, rfl⟩
    · rintro ⟨pfx, a, fNhop, rfl, uses, held, rfl⟩
      refine ⟨a, fNhop, held, ?_⟩
      rw [covered.owned pfx a fNhop uses held gateway, if_pos rfl]
      exact Nat.one_pos
  rw [← nhops, neighUses]
  by_cases member : (⟨vrfId, gw⟩ : OlNeighLookupKey) ∈ s.added
  · simp [member]
  · rw [if_neg member]
    simp only [member, or_false]
    exact Iff.rfl

theorem Covered.entry_iff {s : NeighRun} {owner : Addr → VrfId} (accounted : Accounted s.route)
    (covered : Covered s.route s.added owner) (vrfId : VrfId) {gw : Ip4} (gateway : gw ≠ 0) :
    (∃ entry, s.route.store.neigh.hashTbl.lookup ⟨vrfId, gw⟩ = some entry ∧ 1 ≤ entry.refcnt) ↔
      HasGateway s.route vrfId gw ∨ ⟨vrfId, gw⟩ ∈ s.added := by
  rw [← covered.neighUses_pos_iff accounted vrfId gateway]
  constructor
  · rintro ⟨entry, held, positive⟩
    rwa [(covered.counts.present _ entry held).2.1] at positive
  · intro positive
    cases held : s.route.store.neigh.hashTbl.lookup ⟨vrfId, gw⟩ with
    | none =>
      have unused := (covered.counts.absent _ gateway held).1
      omega
    | some entry => exact ⟨entry, rfl, by rw [(covered.counts.present _ entry held).2.1]; exact positive⟩

theorem Covered.coverage {s : NeighRun} {owner : Addr → VrfId} (accounted : Accounted s.route)
    (covered : Covered s.route s.added owner) : NeighCoverage s where
  entry := fun vrfId _ gateway => covered.entry_iff accounted vrfId gateway
  forwards := by
    intro vrfId gw gateway asked
    obtain ⟨entry, held, _⟩ := (covered.entry_iff accounted vrfId gateway).mpr (.inl asked)
    exact ⟨entry, held⟩
  releases := by
    intro vrfId gw gateway asked
    obtain ⟨entry, held, _⟩ := (covered.entry_iff accounted vrfId gateway).mpr (.inl asked)
    exact ntbNeighDel_found held
  neighCnt := covered.counts.neighCnt

theorem Covered.neighAddStatic {s : RouteState} {added : Finset OlNeighLookupKey} {owner : Addr → VrfId}
    (covered : Covered s added owner) {env : NeighEnv} {vrfId : VrfId} {gw : Ip4} (hwAddr : EtherAddr)
    (unshared : (⟨vrfId, gw⟩ : OlNeighLookupKey) ∈ s.store.neigh.hashTbl ∨
      env.memory = false ∨ env.room = false) :
    Covered { s with
        store := { s.store with neigh := (olNeighAddStatic env vrfId gw hwAddr s.store.neigh).1 } }
      ((RouteCall.neighAddStatic env vrfId gw hwAddr).addsStatic s ∪ added) owner := by
  cases held : s.store.neigh.hashTbl.lookup ⟨vrfId, gw⟩ with
  | some entry =>
    have stored : (olNeighAddStatic env vrfId gw hwAddr s.store.neigh).2 = 0 := by
      simp only [olNeighAddStatic, held]
    have adds : (RouteCall.neighAddStatic env vrfId gw hwAddr).addsStatic s ∪ added =
        insert ⟨vrfId, gw⟩ added := by
      rw [RouteCall.addsStatic, if_pos stored, Finset.insert_eq]
    rw [adds]
    refine ⟨covered.owned, olNeighAddStatic_counts env hwAddr covered.counts held fun key => ?_⟩
    rw [neighUses, neighUses, Nat.add_assoc]
    congr 1
    by_cases same : key = ⟨vrfId, gw⟩
    · by_cases member : key ∈ added <;> simp [same, same ▸ member]
    · by_cases member : key ∈ added <;> simp [same, member]
  | none =>
    have absent := Finmap.lookup_eq_none.mp held
    have fails : ∃ code, code ≠ 0 ∧
        olNeighAddStatic env vrfId gw hwAddr s.store.neigh = (s.store.neigh, code) := by
      rcases unshared.resolve_left absent with memory | room
      · exact ⟨ntbCommNomem, by decide, by simp only [olNeighAddStatic, held, memory, if_true]⟩
      · have full : Table.add false s.store.neigh.hashTbl ⟨vrfId, gw⟩ {} = none :=
          Table.add_none.mpr ⟨absent, rfl⟩
        cases memory : env.memory with
        | false => exact ⟨ntbCommNomem, by decide, by simp only [olNeighAddStatic, held, memory, if_true]⟩
        | true =>
          refine ⟨-efault, by decide, ?_⟩
          simp only [olNeighAddStatic, held, memory, room, full, Bool.true_eq_false, if_false]
    obtain ⟨code, nonzero, result⟩ := fails
    have adds : (RouteCall.neighAddStatic env vrfId gw hwAddr).addsStatic s ∪ added = added := by
      rw [RouteCall.addsStatic, result, if_neg nonzero, Finset.empty_union]
    rw [adds, result]
    exact covered

theorem routeCall_covered {s : RouteState} {added : Finset OlNeighLookupKey} {owner : Addr → VrfId}
    (call : RouteCall) (accounted : Accounted s) (covered : Covered s added owner)
    (unshared : call.Unshared s)
    (routeCall : ∀ env vrfId gw hwAddr, call ≠ .neighAddStatic env vrfId gw hwAddr) :
    ∃ s', routeStep s call = some s' ∧ Accounted s' ∧ ∃ owner', Covered s' added owner' := by
  refine routeStep_invariant (fun s => ∃ owner', Covered s added owner') call accounted unshared.fits
    ⟨owner, covered⟩ (fun s' same => ⟨owner, covered.same same⟩) ?_ ?_ ?_
  · rintro env pfx data ribType s' rfl enters inserted
    exact covered.inserted accounted inserted (unshared.2 enters)
  · rintro s s' pfx accounted ⟨owner, covered⟩ removed
    exact ⟨owner, covered.removed accounted removed⟩
  · intro env vrfId gw hwAddr static
    exact (routeCall env vrfId gw hwAddr static).elim

theorem neighRunStep_covered {s : NeighRun} (call : RouteCall)
    (holds : Accounted s.route ∧ ∃ owner, Covered s.route s.added owner) (unshared : call.Unshared s.route) :
    ∃ s', neighRunStep s call = some s' ∧ Accounted s'.route ∧ ∃ owner, Covered s'.route s'.added owner := by
  obtain ⟨accounted, owner, covered⟩ := holds
  have routed : call.addsStatic s.route = ∅ →
      (∀ env vrfId gw hwAddr, call ≠ .neighAddStatic env vrfId gw hwAddr) →
      ∃ s', neighRunStep s call = some s' ∧ Accounted s'.route ∧ ∃ owner, Covered s'.route s'.added owner := by
    intro nothing routeCall
    obtain ⟨route, stepped, kept⟩ := routeCall_covered call accounted covered unshared routeCall
    exact ⟨⟨route, s.added⟩, by rw [neighRunStep, stepped, nothing, Option.map_some, Finset.empty_union], kept⟩
  cases call with
  | nhopInsert => exact routed rfl (fun _ _ _ _ => RouteCall.noConfusion)
  | nhopDelete => exact routed rfl (fun _ _ _ _ => RouteCall.noConfusion)
  | delete => exact routed rfl (fun _ _ _ _ => RouteCall.noConfusion)
  | cleanup => exact routed rfl (fun _ _ _ _ => RouteCall.noConfusion)
  | neighAddStatic env vrfId gw hwAddr =>
    exact ⟨_, rfl, accounted.neighAddStatic env vrfId gw hwAddr, owner, covered.neighAddStatic hwAddr unshared⟩

theorem NeighRun.initial_covered : Covered NeighRun.initial.route NeighRun.initial.added fun _ => 0 where
  owned := by rintro pfx a fNhop ⟨id, _, listed, _⟩; cases listed
  counts := by
    refine ⟨fun key entry held => ?_, fun key _ _ => ⟨rfl, Finset.notMem_empty key⟩, fun _ => rfl⟩
    cases held

/-- In a run without shared next hops, neighbour entries cover the routes and the static adds in
    every state. -/
theorem neighCoverage_always (calls : List RouteCall)
    (unshared : Guarded neighRunStep (fun s call => call.Unshared s.route) .initial calls) :
    Always neighRunStep NeighCoverage .initial calls := by
  have covered := unshared.always (fun s => Accounted s.route ∧ ∃ owner, Covered s.route s.added owner)
    (fun s call holds unshared => neighRunStep_covered call holds unshared)
    ⟨RouteState.initial_accounted, _, NeighRun.initial_covered⟩
  exact covered.imp fun s ⟨accounted, _, covered⟩ => covered.coverage accounted

/-! ### A next hop shared by two VRFs -/

/-- VRF 2 shares the next hop that VRF 1 created, without an entry of its own. -/
theorem shared_nhop_uncovered :
    ¬ Always neighRunStep NeighCoverage .initial [insertVxlanNhop 1, insertVxlanNhop 2] := by
  intro always
  obtain ⟨s, reached, coverage⟩ := always.reaches
  have tables : (run neighRunStep .initial [insertVxlanNhop 1, insertVxlanNhop 2]).map (fun s =>
      (s.route.rib.lookup (subnet24 2 7), (s.route.fibRes.lookup 2).map FibRes.mpath,
        (s.route.store.nhops.lookup 1).map FibNhop.gateway,
        s.route.store.neigh.hashTbl.lookup ⟨2, 0x0101010a⟩)) =
      some (some 2, some [1], some 0x0101010a, none) := by decide +kernel
  rw [reached, Option.map_some, Option.some.injEq] at tables
  simp only [Prod.mk.injEq, Option.map_eq_some_iff] at tables
  obtain ⟨listed, ⟨fRes, used, single⟩, ⟨fNhop, held, gateway⟩, missing⟩ := tables
  have asked : HasGateway s.route 2 0x0101010a :=
    ⟨subnet24 2 7, 1, fNhop, rfl, ⟨2, fRes, listed, used,
      by rw [single]; exact List.mem_singleton_self 1⟩, held, gateway⟩
  obtain ⟨entry, found, _⟩ := (coverage.entry 2 0x0101010a (by decide)).mpr (.inl asked)
  rw [missing] at found
  cases found

def insertOwnNhop : RouteCall :=
  .nhopInsert (.granted 2 7 8) (subnet24 2 7) { vxlanNhop with gateway := 0x0201010a } .default

/-- Two VRFs with their own next hops, a static add for the second, and both routes deleted. -/
theorem two_vrfs_covered : Always neighRunStep NeighCoverage .initial
    [insertVxlanNhop 1, insertOwnNhop, .neighAddStatic ⟨true, true, .ok 9⟩ 2 0x0201010a 0x020000000007,
      .delete (subnet24 1 7), .delete (subnet24 2 7)] := by
  refine neighCoverage_always _ ⟨⟨?_, ?_⟩, fun s firstStep => ⟨⟨?_, ?_⟩, fun s' secondStep => ⟨?_, fun _ _ =>
    ⟨trivial, fun _ _ => ⟨trivial, fun _ _ => trivial⟩⟩⟩⟩⟩
  · rintro ⟨⟨id, _, listed, _⟩, _, _⟩
    cases listed
  · rintro _ _ other a fNhop ⟨id, _, listed, _⟩
    cases listed
  · rintro ⟨⟨id, _, listed, _⟩, _, _⟩
    have absent : (neighRunStep .initial (insertVxlanNhop 1)).map (fun s => s.route.rib.lookup (subnet24 2 7)) =
        some none := by decide +kernel
    rw [firstStep, Option.map_some, listed] at absent
    cases absent
  · -- the only live next hop so far has another gateway
    intro _ _ other a fNhop _ held same
    have live : (neighRunStep .initial (insertVxlanNhop 1)).map (fun s => s.route.store.nhops) =
        some (Finmap.insert 1 ⟨5, 1, 6, vxlanNhop.gateway, vxlanNhop.tunnelInfo⟩ ∅) := by decide +kernel
    rw [firstStep, Option.map_some, Option.some.injEq] at live
    rw [live, Table.lookup_insert_eq_some] at held
    rcases held with ⟨_, rfl⟩ | ⟨_, older⟩
    · exact absurd (congrArg NtbNhopHashKey.gateway same) (by decide)
    · cases older
  · have reached : run neighRunStep .initial [insertVxlanNhop 1, insertOwnNhop] = some s' := by
      rw [run, firstStep, Option.bind_some, run, secondStep, Option.bind_some, run]
    have present : (run neighRunStep .initial [insertVxlanNhop 1, insertOwnNhop]).map (fun s =>
        decide ((⟨2, 0x0201010a⟩ : OlNeighLookupKey) ∈ s.route.store.neigh.hashTbl)) = some true := by decide +kernel
    rw [reached, Option.map_some, Option.some.injEq, decide_eq_true_eq] at present
    exact .inl present

end Tao.Agent
