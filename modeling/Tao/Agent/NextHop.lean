import Tao.Agent.Neigh

/-! # Next hop objects (`nhop_obj_create`, `nhop_obj_delete`)

Next hops are shared between routes and VRFs through `g_nhop_hash_tbl` and freed
with their last reference.  `NhopStore.Counts` is the invariant: the objects are
exactly those that some count function references, each stored under its own key. -/

namespace Tao.Agent

open Tao.Foundation

/-- `g_nhop_hash_tbl`, the live `struct fib_nhop` objects, the next hop ids that are outstanding,
    and the neighbour table. -/
structure NhopStore where
  hashTbl : Table NtbNhopHashKey Addr
  nhops : Table Addr FibNhop
  oids : Finset Oid
  neigh : OlNeighTable

structure NhopEnv where
  memory : Option Addr
  room : Bool
  oid : OidAnswer
  neigh : NeighEnv

def FibNhop.key (fNhop : FibNhop) : NtbNhopHashKey := ⟨fNhop.gateway, fNhop.tunnelInfo⟩
def FibNhopEncapData.key (data : FibNhopEncapData) : NtbNhopHashKey := ⟨data.gateway, data.tunnelInfo⟩

/-- The neighbour of a new next hop; gateway 0 has none. -/
def nhopNeighAdd (env : NeighEnv) (vrfId : VrfId) (gateway : Ip4) (t : OlNeighTable) :
    OlNeighTable × Except Int Oid :=
  if gateway = 0 then (t, .ok 0) else ntbNeighAdd env vrfId gateway t

def nhopNeighDel (vrfId : VrfId) (gateway : Ip4) (t : OlNeighTable) : OlNeighTable :=
  if gateway = 0 then t else (ntbNeighDel vrfId gateway t).1

/-- `nhop_obj_create`: a pointer to the next hop, or a negative code.  The hash handing out a
    pointer to a freed object is undefined behaviour. -/
def nhopObjCreate (env : NhopEnv) (vrfId : VrfId) (data : FibNhopEncapData) (s : NhopStore) :
    Option (NhopStore × Except Int Addr) :=
  match s.hashTbl.lookup data.key with
  | some a =>
    match s.nhops.lookup a with
    | none => none
    | some fNhop =>
      -- no neighbour is added for the VRF of this call
      some ({ s with nhops := s.nhops.insert a { fNhop with refCount := fNhop.refCount + 1 } }, .ok a)
  | none =>
    match rteZmalloc s.nhops env.memory with
    | none => some (s, .error ntbCommNomem)
    | some a =>
      match Table.add env.room s.hashTbl data.key a with
      | none => some (s, .error (-efault)) -- rollback5
      | some hashTbl =>
        match nhopNeighAdd env.neigh vrfId data.gateway s.neigh with
        | (neigh, .error code) => -- rollback4
          some ({ s with hashTbl := hashTbl.erase data.key, neigh := neigh }, .error code)
        | (neigh, .ok neighOid) =>
          match halAllocOid s.oids env.oid with
          | .error _ => -- rollback3
            some ({ s with
              hashTbl := hashTbl.erase data.key
              neigh := nhopNeighDel vrfId data.gateway neigh }, .error ntbRouteNhAllocOidFail)
          | .ok nhOid =>
            some ({ hashTbl := hashTbl
                    nhops := s.nhops.insert a ⟨nhOid, 1, neighOid, data.gateway, data.tunnelInfo⟩
                    oids := insert nhOid s.oids
                    neigh := neigh }, .ok a)

/-- `nhop_obj_delete`, which returns 0.  Its argument must point to a live object. -/
def nhopObjDelete (vrfId : VrfId) (a : Addr) (s : NhopStore) : Option NhopStore :=
  match s.nhops.lookup a with
  | none => none
  | some fNhop =>
    let refCount := decrement32 fNhop.refCount
    if 0 < refCount then some { s with nhops := s.nhops.insert a { fNhop with refCount := refCount } }
    else
      some { s with
        hashTbl := s.hashTbl.erase fNhop.key
        nhops := s.nhops.erase a
        neigh := nhopNeighDel vrfId fNhop.gateway s.neigh }

/-! ## Reference counts of next hops -/

structure NhopStore.Same (s s' : NhopStore) : Prop where
  hashTbl : s'.hashTbl = s.hashTbl
  nhops : s'.nhops = s.nhops
  neigh : s.neigh.Same s'.neigh

/-- The live objects are those with a positive number `refs` of references; each has that count
    and is the one that `g_nhop_hash_tbl` holds under its key. -/
structure NhopStore.Counts (s : NhopStore) (refs : Addr → Nat) : Prop where
  live : ∀ a fNhop, s.nhops.lookup a = some fNhop →
    s.hashTbl.lookup fNhop.key = some a ∧ fNhop.refCount = refs a ∧ 1 ≤ refs a
  stored : ∀ key a, s.hashTbl.lookup key = some a → ∃ fNhop, s.nhops.lookup a = some fNhop ∧ fNhop.key = key
  referenced : ∀ a, 1 ≤ refs a → ∃ fNhop, s.nhops.lookup a = some fNhop

theorem NhopStore.Same.refl (s : NhopStore) : s.Same s := ⟨rfl, rfl, .refl _⟩

theorem NhopStore.Same.counts {s s' : NhopStore} {refs : Addr → Nat} (same : s.Same s')
    (counts : s.Counts refs) : s'.Counts refs := by
  refine ⟨?_, ?_, ?_⟩ <;> simp only [same.hashTbl, same.nhops]
  · exact counts.live
  · exact counts.stored
  · exact counts.referenced

theorem nhopNeighDel_nhopNeighAdd {env : NeighEnv} {vrfId : VrfId} {gateway : Ip4} {t t' : OlNeighTable}
    {oid : Oid} (referenced : t.Referenced) (added : nhopNeighAdd env vrfId gateway t = (t', .ok oid)) :
    t.Same (nhopNeighDel vrfId gateway t') := by
  unfold nhopNeighAdd at added
  unfold nhopNeighDel
  split at added
  next zero => cases added; rw [if_pos zero]; exact .refl t
  next nonzero => rw [if_neg nonzero]; exact ntbNeighDel_ntbNeighAdd referenced added

theorem nhopNeighAdd_error {env : NeighEnv} {vrfId : VrfId} {gateway : Ip4} {t t' : OlNeighTable}
    {code : Int} (failed : nhopNeighAdd env vrfId gateway t = (t', .error code)) : t' = t ∧ code < 0 := by
  unfold nhopNeighAdd at failed
  split at failed
  next => cases failed
  next =>
    rcases ntbNeighAdd_cases env vrfId gateway t with
      ⟨_, _, result⟩ | ⟨_, _, _, result⟩ | ⟨_, _, _, negative, result⟩ <;>
      rw [result] at failed <;> cases failed
    exact ⟨rfl, negative⟩

theorem nhopNeighAdd_referenced (env : NeighEnv) (vrfId : VrfId) (gateway : Ip4) {t : OlNeighTable}
    (referenced : t.Referenced) : (nhopNeighAdd env vrfId gateway t).1.Referenced := by
  unfold nhopNeighAdd
  split
  next => exact referenced
  next => exact ntbNeighAdd_referenced env vrfId gateway referenced

theorem nhopNeighDel_referenced (vrfId : VrfId) (gateway : Ip4) {t : OlNeighTable}
    (referenced : t.Referenced) : (nhopNeighDel vrfId gateway t).Referenced := by
  unfold nhopNeighDel
  split
  next => exact referenced
  next => exact ntbNeighDel_referenced vrfId gateway referenced

def NhopEnv.Allocates (env : NhopEnv) (vrfId : VrfId) (gateway : Ip4) (s : NhopStore) (a : Addr) : Prop :=
  rteZmalloc s.nhops env.memory = some a ∧ env.room = true ∧
  (gateway = 0 ∨ (⟨vrfId, gateway⟩ : OlNeighLookupKey) ∈ s.neigh.hashTbl ∨
    ∃ oid, env.neigh.Allocates s.neigh oid) ∧
  ∃ oid, halAllocOid s.oids env.oid = .ok oid

theorem nhopNeighAdd_ok_iff {env : NeighEnv} {vrfId : VrfId} {gateway : Ip4} {t : OlNeighTable} :
    (∃ t' oid, nhopNeighAdd env vrfId gateway t = (t', .ok oid)) ↔
      gateway = 0 ∨ (⟨vrfId, gateway⟩ : OlNeighLookupKey) ∈ t.hashTbl ∨ ∃ oid, env.Allocates t oid := by
  unfold nhopNeighAdd
  by_cases zero : gateway = 0
  · simp [zero]
  · rw [if_neg zero]
    rcases ntbNeighAdd_cases env vrfId gateway t with
      ⟨_, held, result⟩ | ⟨_, oid, allocates, result⟩ | ⟨absent, starved, _, _, result⟩ <;> rw [result]
    · simp [Finmap.mem_of_lookup_eq_some held]
    · simp only [Prod.mk.injEq, Except.ok.injEq]
      exact ⟨fun _ => .inr (.inr ⟨oid, allocates⟩), fun _ => ⟨_, oid, rfl, rfl⟩⟩
    · simp only [zero, Finmap.lookup_eq_none.mp absent, starved, or_self, iff_false]
      rintro ⟨_, _, impossible⟩
      cases impossible

/-- The ways through `nhop_obj_create`, one for each place where it returns. -/
inductive NhopCreatePath (env : NhopEnv) (vrfId : VrfId) (data : FibNhopEncapData) (s : NhopStore) :
    NhopStore → Except Int Addr → Prop
  | shared {a : Addr} {fNhop : FibNhop} (found : s.hashTbl.lookup data.key = some a)
      (held : s.nhops.lookup a = some fNhop) :
      NhopCreatePath env vrfId data s
        { s with nhops := s.nhops.insert a { fNhop with refCount := fNhop.refCount + 1 } } (.ok a)
  | noMemory (absent : data.key ∉ s.hashTbl) (memory : rteZmalloc s.nhops env.memory = none) :
      NhopCreatePath env vrfId data s s (.error ntbCommNomem)
  | noRoom (absent : data.key ∉ s.hashTbl) (room : env.room = false) :
      NhopCreatePath env vrfId data s s (.error (-efault))
  | noNeigh {a : Addr} {neigh : OlNeighTable} {code : Int} (absent : data.key ∉ s.hashTbl)
      (memory : rteZmalloc s.nhops env.memory = some a) (room : env.room = true)
      (neighbour : nhopNeighAdd env.neigh vrfId data.gateway s.neigh = (neigh, .error code)) :
      NhopCreatePath env vrfId data s
        { s with hashTbl := (s.hashTbl.insert data.key a).erase data.key, neigh := neigh } (.error code)
  | noOid {a : Addr} {neigh : OlNeighTable} {neighOid : Oid} (absent : data.key ∉ s.hashTbl)
      (memory : rteZmalloc s.nhops env.memory = some a) (room : env.room = true)
      (neighbour : nhopNeighAdd env.neigh vrfId data.gateway s.neigh = (neigh, .ok neighOid))
      (answer : ∀ oid, halAllocOid s.oids env.oid ≠ .ok oid) :
      NhopCreatePath env vrfId data s
        { s with
          hashTbl := (s.hashTbl.insert data.key a).erase data.key
          neigh := nhopNeighDel vrfId data.gateway neigh } (.error ntbRouteNhAllocOidFail)
  | created {a : Addr} {neigh : OlNeighTable} {neighOid nhOid : Oid} (absent : data.key ∉ s.hashTbl)
      (memory : rteZmalloc s.nhops env.memory = some a) (room : env.room = true)
      (neighbour : nhopNeighAdd env.neigh vrfId data.gateway s.neigh = (neigh, .ok neighOid))
      (answer : halAllocOid s.oids env.oid = .ok nhOid) :
      NhopCreatePath env vrfId data s
        { hashTbl := s.hashTbl.insert data.key a
          nhops := s.nhops.insert a ⟨nhOid, 1, neighOid, data.gateway, data.tunnelInfo⟩
          oids := insert nhOid s.oids
          neigh := neigh } (.ok a)

theorem nhopObjCreate_path {env : NhopEnv} {vrfId : VrfId} {data : FibNhopEncapData} {s s' : NhopStore}
    {result : Except Int Addr} (created : nhopObjCreate env vrfId data s = some (s', result)) :
    NhopCreatePath env vrfId data s s' result := by
  unfold nhopObjCreate at created
  split at created
  · next a found =>
    split at created
    · cases created
    · next fNhop held =>
      cases created
      exact .shared found held
  · next found =>
    have absent := Finmap.lookup_eq_none.mp found
    split at created
    · next memory =>
      cases created
      exact .noMemory absent memory
    · next a memory =>
      split at created
      · next full =>
        cases created
        exact .noRoom absent (Table.add_none.mp full).2
      · next hashTbl added =>
        obtain rfl := Table.add_some added
        have room : env.room = true := by
          by_contra closed
          rw [Table.add_none.mpr ⟨absent, Bool.eq_false_iff.mpr closed⟩] at added
          cases added
        split at created
        · next neighbour =>
          cases created
          exact .noNeigh absent memory room neighbour
        · next neighbour =>
          split at created
          · next answer =>
            cases created
            exact .noOid absent memory room neighbour fun oid obtained => by rw [answer] at obtained; cases obtained
          · next answer =>
            cases created
            exact .created absent memory room neighbour answer

theorem nhopObjCreate_defined (env : NhopEnv) (vrfId : VrfId) (data : FibNhopEncapData) {s : NhopStore}
    {refs : Addr → Nat} (counts : s.Counts refs) :
    ∃ s' result, nhopObjCreate env vrfId data s = some (s', result) := by
  unfold nhopObjCreate
  split
  · next a found =>
    obtain ⟨fNhop, held, _⟩ := counts.stored _ _ found
    rw [held]
    exact ⟨_, _, rfl⟩
  · repeat' split
    all_goals exact ⟨_, _, rfl⟩

/-- The outcomes of `nhop_obj_create`: one more reference to a shared next hop, a new next hop
    with one reference, or a negative code and nothing changed. -/
theorem nhopObjCreate_cases (env : NhopEnv) (vrfId : VrfId) (data : FibNhopEncapData) {s : NhopStore}
    {refs : Addr → Nat} (counts : s.Counts refs) (referenced : s.neigh.Referenced) :
    (∃ a fNhop, s.hashTbl.lookup data.key = some a ∧ s.nhops.lookup a = some fNhop ∧ fNhop.key = data.key ∧
      nhopObjCreate env vrfId data s = some
        ({ s with nhops := s.nhops.insert a { fNhop with refCount := fNhop.refCount + 1 } }, .ok a)) ∨
    (s.hashTbl.lookup data.key = none ∧ ∃ a nhOid neigh neighOid, env.Allocates vrfId data.gateway s a ∧
      halAllocOid s.oids env.oid = .ok nhOid ∧
      nhopNeighAdd env.neigh vrfId data.gateway s.neigh = (neigh, .ok neighOid) ∧
      nhopObjCreate env vrfId data s = some
        ({ hashTbl := s.hashTbl.insert data.key a
           nhops := s.nhops.insert a ⟨nhOid, 1, neighOid, data.gateway, data.tunnelInfo⟩
           oids := insert nhOid s.oids
           neigh := neigh }, .ok a)) ∨
    (s.hashTbl.lookup data.key = none ∧ (¬ ∃ a, env.Allocates vrfId data.gateway s a) ∧
      ∃ s' code, code < 0 ∧ s.Same s' ∧ nhopObjCreate env vrfId data s = some (s', .error code)) := by
  obtain ⟨s', result, created⟩ := nhopObjCreate_defined env vrfId data counts
  rw [created]
  cases nhopObjCreate_path created with
  | shared found held =>
    obtain ⟨_, stored, key⟩ := counts.stored _ _ found
    obtain rfl := Option.some.inj (held.symm.trans stored)
    exact .inl ⟨_, _, found, held, key, rfl⟩
  | noMemory absent memory =>
    refine .inr (.inr ⟨Finmap.lookup_eq_none.mpr absent, ?_, _, _, ?_, ?_, rfl⟩)
    · rintro ⟨a, allocated, _⟩
      rw [memory] at allocated; cases allocated
    · decide
    · exact .refl s
  | noRoom absent room =>
    refine .inr (.inr ⟨Finmap.lookup_eq_none.mpr absent, ?_, _, _, ?_, ?_, rfl⟩)
    · rintro ⟨a, _, roomy, _⟩
      rw [room] at roomy; cases roomy
    · decide
    · exact .refl s
  | noNeigh absent memory room neighbour =>
    obtain ⟨rfl, negative⟩ := nhopNeighAdd_error neighbour
    refine .inr (.inr ⟨Finmap.lookup_eq_none.mpr absent, ?_, _, _, negative, ?_, rfl⟩)
    · rintro ⟨a, _, _, obtainable, _⟩
      obtain ⟨t', oid, added⟩ := nhopNeighAdd_ok_iff.mpr obtainable
      rw [neighbour] at added; cases added
    · exact ⟨Table.erase_insert_of_notMem _ absent, rfl, .refl _⟩
  | noOid absent memory room neighbour answer =>
    refine .inr (.inr ⟨Finmap.lookup_eq_none.mpr absent, ?_, _, _, ?_, ?_, rfl⟩)
    · rintro ⟨a, _, _, _, oid, obtained⟩
      exact answer oid obtained
    · decide
    · exact ⟨Table.erase_insert_of_notMem _ absent, rfl, nhopNeighDel_nhopNeighAdd referenced neighbour⟩
  | created absent memory room neighbour answer =>
    exact .inr (.inl ⟨Finmap.lookup_eq_none.mpr absent, _, _, _, _,
      ⟨memory, room, nhopNeighAdd_ok_iff.mp ⟨_, _, neighbour⟩, _, answer⟩, answer, neighbour, rfl⟩)

theorem nhopObjDelete_cases (vrfId : VrfId) {s : NhopStore} {refs : Addr → Nat} (counts : s.Counts refs)
    {a : Addr} {fNhop : FibNhop} (held : s.nhops.lookup a = some fNhop) :
    (1 < refs a ∧ nhopObjDelete vrfId a s = some
      { s with nhops := s.nhops.insert a { fNhop with refCount := fNhop.refCount - 1 } }) ∨
    (refs a = 1 ∧ nhopObjDelete vrfId a s = some
      { s with
          hashTbl := s.hashTbl.erase fNhop.key
          nhops := s.nhops.erase a
          neigh := nhopNeighDel vrfId fNhop.gateway s.neigh }) := by
  obtain ⟨_, count, positive⟩ := counts.live a fNhop held
  have lowered : decrement32 fNhop.refCount = fNhop.refCount - 1 := if_neg (by omega)
  by_cases last : refs a = 1
  · refine .inr ⟨last, ?_⟩
    simp only [nhopObjDelete, held, lowered, show ¬ 0 < fNhop.refCount - 1 by omega, if_false]
  · refine .inl ⟨by omega, ?_⟩
    simp only [nhopObjDelete, held, lowered, show 0 < fNhop.refCount - 1 by omega, if_true]

/-! ### What the operations do to the counts -/

theorem NhopStore.Counts.key_injective {s : NhopStore} {refs : Addr → Nat} (counts : s.Counts refs)
    {a b : Addr} {fNhop gNhop : FibNhop} (first : s.nhops.lookup a = some fNhop)
    (second : s.nhops.lookup b = some gNhop) (same : fNhop.key = gNhop.key) : a = b := by
  have atFirst := (counts.live a fNhop first).1
  rw [same, (counts.live b gNhop second).1] at atFirst
  exact (Option.some.inj atFirst).symm

theorem NhopStore.Counts.recount {s : NhopStore} {refs refs' : Addr → Nat} (counts : s.Counts refs)
    {a : Addr} {fNhop : FibNhop} (held : s.nhops.lookup a = some fNhop) (positive : 1 ≤ refs' a)
    (others : ∀ b, b ≠ a → refs' b = refs b) :
    NhopStore.Counts { s with nhops := s.nhops.insert a { fNhop with refCount := refs' a } } refs' := by
  refine ⟨fun b gNhop found => ?_, fun key b found => ?_, fun b referenced => ?_⟩
  · rw [Table.lookup_insert_eq_some] at found
    rcases found with ⟨same, rfl⟩ | ⟨different, found⟩
    · rw [same]
      exact ⟨(counts.live a fNhop held).1, rfl, positive⟩
    · rw [others b different]
      exact counts.live b gNhop found
  · obtain ⟨gNhop, stored, rfl⟩ := counts.stored key b found
    by_cases same : b = a
    · subst same
      obtain rfl := Option.some.inj (stored.symm.trans held)
      exact ⟨_, Finmap.lookup_insert _, rfl⟩
    · exact ⟨gNhop, by rw [Finmap.lookup_insert_of_ne _ same, stored], rfl⟩
  · by_cases same : b = a
    · subst same
      exact ⟨_, Finmap.lookup_insert _⟩
    · rw [others b same] at referenced
      obtain ⟨gNhop, stored⟩ := counts.referenced b referenced
      exact ⟨gNhop, by rw [Finmap.lookup_insert_of_ne _ same, stored]⟩

theorem NhopStore.Counts.allocate {s : NhopStore} {refs refs' : Addr → Nat} (counts : s.Counts refs)
    {a : Addr} (fNhop : FibNhop) (fresh : a ∉ s.nhops) (absent : s.hashTbl.lookup fNhop.key = none)
    (count : fNhop.refCount = 1) (one : refs' a = 1) (others : ∀ b, b ≠ a → refs' b = refs b)
    (oids : Finset Oid) (neigh : OlNeighTable) :
    NhopStore.Counts ⟨s.hashTbl.insert fNhop.key a, s.nhops.insert a fNhop, oids, neigh⟩ refs' := by
  refine ⟨fun b gNhop found => ?_, fun key b found => ?_, fun b referenced => ?_⟩
  · rw [Table.lookup_insert_eq_some] at found
    rcases found with ⟨same, rfl⟩ | ⟨different, found⟩
    · rw [same, count, one]
      exact ⟨Finmap.lookup_insert _, rfl, Nat.le_refl 1⟩
    · obtain ⟨stored, held, positive⟩ := counts.live b gNhop found
      -- the key of the new object was not in the hash, that of a live one was
      have otherKey : gNhop.key ≠ fNhop.key := by
        intro same
        rw [same, absent] at stored; cases stored
      rw [others b different, Finmap.lookup_insert_of_ne _ otherKey]
      exact ⟨stored, held, positive⟩
  · rw [Table.lookup_insert_eq_some] at found
    rcases found with ⟨same, rfl⟩ | ⟨_, found⟩
    · exact ⟨fNhop, Finmap.lookup_insert _, same.symm⟩
    · obtain ⟨gNhop, stored, rfl⟩ := counts.stored key b found
      have different : b ≠ a := by
        rintro rfl
        exact fresh (Finmap.mem_of_lookup_eq_some stored)
      exact ⟨gNhop, by rw [Finmap.lookup_insert_of_ne _ different, stored], rfl⟩
  · by_cases same : b = a
    · subst same
      exact ⟨fNhop, Finmap.lookup_insert _⟩
    · rw [others b same] at referenced
      obtain ⟨gNhop, stored⟩ := counts.referenced b referenced
      exact ⟨gNhop, by rw [Finmap.lookup_insert_of_ne _ same, stored]⟩

theorem NhopStore.Counts.release {s : NhopStore} {refs refs' : Addr → Nat} (counts : s.Counts refs)
    {a : Addr} {fNhop : FibNhop} (held : s.nhops.lookup a = some fNhop) (zero : refs' a = 0)
    (others : ∀ b, b ≠ a → refs' b = refs b) (neigh : OlNeighTable) :
    NhopStore.Counts ⟨s.hashTbl.erase fNhop.key, s.nhops.erase a, s.oids, neigh⟩ refs' := by
  refine ⟨fun b gNhop found => ?_, fun key b found => ?_, fun b referenced => ?_⟩
  · rw [Table.lookup_erase_eq_some] at found
    obtain ⟨different, found⟩ := found
    have otherKey : gNhop.key ≠ fNhop.key := fun same => different (counts.key_injective found held same)
    rw [others b different, Finmap.lookup_erase_ne otherKey]
    exact counts.live b gNhop found
  · rw [Table.lookup_erase_eq_some] at found
    obtain ⟨otherKey, found⟩ := found
    obtain ⟨gNhop, stored, rfl⟩ := counts.stored key b found
    have different : b ≠ a := by
      rintro rfl
      obtain rfl := Option.some.inj (stored.symm.trans held)
      exact otherKey rfl
    exact ⟨gNhop, by rw [Finmap.lookup_erase_ne different, stored], rfl⟩
  · have different : b ≠ a := by
      rintro rfl
      rw [zero] at referenced; cases referenced
    rw [others b different] at referenced
    obtain ⟨gNhop, stored⟩ := counts.referenced b referenced
    exact ⟨gNhop, by rw [Finmap.lookup_erase_ne different, stored]⟩

theorem nhopObjCreate_counts {env : NhopEnv} {vrfId : VrfId} {data : FibNhopEncapData} {s s' : NhopStore}
    {refs refs' : Addr → Nat} {a : Addr} (counts : s.Counts refs) (referenced : s.neigh.Referenced)
    (created : nhopObjCreate env vrfId data s = some (s', .ok a))
    (taken : ∀ b, refs' b = refs b + if b = a then 1 else 0) : s'.Counts refs' := by
  have others : ∀ b, b ≠ a → refs' b = refs b := fun b different => by rw [taken, if_neg different]; rfl
  have own : refs' a = refs a + 1 := by rw [taken, if_pos rfl]
  rcases nhopObjCreate_cases env vrfId data counts referenced with
    ⟨b, fNhop, _, held, _, result⟩ | ⟨absent, b, nhOid, neigh, neighOid, allocates, _, _, result⟩ |
      ⟨_, _, _, _, _, _, result⟩ <;> rw [result] at created <;> cases created
  · have recounted := counts.recount held (by omega) others
    rwa [own, ← (counts.live a fNhop held).2.1] at recounted
  · have fresh := (rteZmalloc_some.mp allocates.1).2
    -- a reference to the new address would have kept an object there
    have unused : refs a = 0 := by
      by_contra used
      obtain ⟨fNhop, held⟩ := counts.referenced a (Nat.one_le_iff_ne_zero.mpr used)
      exact fresh (Finmap.mem_of_lookup_eq_some held)
    exact counts.allocate ⟨nhOid, 1, neighOid, data.gateway, data.tunnelInfo⟩
      fresh absent rfl (by omega) others _ _

theorem nhopObjDelete_counts (vrfId : VrfId) {s : NhopStore} {refs refs' : Addr → Nat} {a : Addr}
    (counts : s.Counts refs) (dropped : ∀ b, refs b = refs' b + if b = a then 1 else 0) :
    ∃ s', nhopObjDelete vrfId a s = some s' ∧ s'.Counts refs' := by
  have others : ∀ b, b ≠ a → refs' b = refs b := fun b different => by rw [dropped, if_neg different]; rfl
  have own : refs a = refs' a + 1 := by rw [dropped, if_pos rfl]
  obtain ⟨fNhop, held⟩ := counts.referenced a (by omega)
  rcases nhopObjDelete_cases vrfId counts held with ⟨shared, result⟩ | ⟨last, result⟩
  · -- other references keep the object
    have recounted := counts.recount held (show 1 ≤ refs' a by omega) others
    rw [show refs' a = fNhop.refCount - 1 by rw [(counts.live a fNhop held).2.1]; omega] at recounted
    exact ⟨_, result, recounted⟩
  · exact ⟨_, result, counts.release held (by omega) others _⟩

/-- Taking a reference and dropping it again leaves the store as it was. -/
theorem nhopObjDelete_nhopObjCreate {env : NhopEnv} {vrfId : VrfId} {data : FibNhopEncapData}
    {s s' : NhopStore} {refs : Addr → Nat} {a : Addr} (counts : s.Counts refs)
    (referenced : s.neigh.Referenced) (created : nhopObjCreate env vrfId data s = some (s', .ok a)) :
    ∃ s'', nhopObjDelete vrfId a s' = some s'' ∧ s.Same s'' := by
  rcases nhopObjCreate_cases env vrfId data counts referenced with
    ⟨b, fNhop, _, held, _, result⟩ | ⟨absent, b, nhOid, neigh, neighOid, allocates, _, added, result⟩ |
      ⟨_, _, _, _, _, _, result⟩ <;> rw [result] at created <;> cases created
  · have positive : 0 < fNhop.refCount := by
      obtain ⟨_, count, positive⟩ := counts.live a fNhop held
      omega
    refine ⟨s, ?_, .refl s⟩
    simp only [nhopObjDelete, Finmap.lookup_insert, decrement32_succ, if_pos positive,
      Finmap.insert_insert, Table.insert_lookup held]
  · have fresh := (rteZmalloc_some.mp allocates.1).2
    simp only [nhopObjDelete, Finmap.lookup_insert, decrement32_succ 0, Nat.lt_irrefl, if_false]
    refine ⟨_, rfl, ?_⟩
    exact ⟨Table.erase_insert_of_notMem _ (Finmap.lookup_eq_none.mp absent),
      Table.erase_insert_of_notMem _ fresh, nhopNeighDel_nhopNeighAdd referenced added⟩

/-! ### Neighbour entries stay referenced -/

theorem nhopObjCreate_referenced {env : NhopEnv} {vrfId : VrfId} {data : FibNhopEncapData}
    {s s' : NhopStore} {refs : Addr → Nat} {result : Except Int Addr} (counts : s.Counts refs)
    (referenced : s.neigh.Referenced) (created : nhopObjCreate env vrfId data s = some (s', result)) :
    s'.neigh.Referenced := by
  rcases nhopObjCreate_cases env vrfId data counts referenced with
    ⟨b, fNhop, _, held, _, outcome⟩ | ⟨absent, b, nhOid, neigh, neighOid, allocates, _, added, outcome⟩ |
      ⟨_, _, _, _, _, same, outcome⟩ <;> rw [outcome] at created <;> cases created
  · exact referenced
  · have kept := nhopNeighAdd_referenced env.neigh vrfId data.gateway referenced
    rwa [added] at kept
  · exact same.neigh.referenced referenced

theorem nhopObjDelete_referenced {vrfId : VrfId} {s s' : NhopStore} {refs : Addr → Nat} {a : Addr}
    (counts : s.Counts refs) (referenced : s.neigh.Referenced)
    (deleted : nhopObjDelete vrfId a s = some s') : s'.neigh.Referenced := by
  cases held : s.nhops.lookup a with
  | none => simp [nhopObjDelete, held] at deleted
  | some fNhop =>
    rcases nhopObjDelete_cases vrfId counts held with ⟨_, result⟩ | ⟨_, result⟩ <;>
      rw [result] at deleted <;> cases deleted
    · exact referenced
    · exact nhopNeighDel_referenced vrfId fNhop.gateway referenced

end Tao.Agent
