import Tao.Agent.Types
import Mathlib.Logic.Function.Basic

/-! # The overlay neighbour table (`neigh.c`) -/

namespace Tao.Agent

open Tao.Foundation

def fakeMac : EtherAddr := 0x3cfdfe29cbc2
def defGwMac : EtherAddr := 0x3cfdfe29cbc2

/-- `ol_neigh_table`, with `neigh_cnt` of every VRF and the neighbour ids that are outstanding. -/
structure OlNeighTable where
  hashTbl : Table OlNeighLookupKey OlNeighEntry
  count : Nat
  neighCnt : VrfId → Nat
  oids : Finset Oid

/-- What a call may be answered: whether memory is available, whether the hash has room for a new
    key, and the answer of `hal_neigh_alloc_oid`. -/
structure NeighEnv where
  memory : Bool
  room : Bool
  oid : OidAnswer

/-- `ntb_neigh_add`: the entry's `neigh_oid`, or a negative code. -/
def ntbNeighAdd (env : NeighEnv) (vrfId : VrfId) (gw : Ip4) (t : OlNeighTable) :
    OlNeighTable × Except Int Oid :=
  let key : OlNeighLookupKey := ⟨vrfId, gw⟩
  match t.hashTbl.lookup key with
  | some nhop =>
    ({ t with hashTbl := t.hashTbl.insert key { nhop with refcnt := nhop.refcnt + 1 } }, .ok nhop.neighOid)
  | none =>
    if env.memory = false then (t, .error (-enomem))
    else
      let nhop : OlNeighEntry := { refcnt := 1, fFastArp := true, fEntryValid := true }
      match Table.add env.room t.hashTbl key nhop with
      | none => (t, .error (-efault))
      | some hashTbl =>
        match halAllocOid t.oids env.oid with
        | .error code => ({ t with hashTbl := hashTbl.erase key }, .error code) -- rollback2
        | .ok oid =>
          ({ hashTbl := hashTbl.insert key { nhop with neighOid := oid }
             count := t.count + 1
             neighCnt := Function.update t.neighCnt vrfId (t.neighCnt vrfId + 1)
             oids := insert oid t.oids }, .ok oid)

def ntbNeighDel (vrfId : VrfId) (gw : Ip4) (t : OlNeighTable) : OlNeighTable × Int :=
  let key : OlNeighLookupKey := ⟨vrfId, gw⟩
  match t.hashTbl.lookup key with
  | none => (t, -1)
  | some nhop =>
    -- the assertion that the count is positive is compiled out
    let refcnt := decrement32 nhop.refcnt
    if 0 < refcnt then ({ t with hashTbl := t.hashTbl.insert key { nhop with refcnt := refcnt } }, 0)
    else
      ({ t with
          hashTbl := t.hashTbl.erase key
          count := decrement32 t.count
          neighCnt := Function.update t.neighCnt vrfId (decrement32 (t.neighCnt vrfId)) }, 0)

/-- The second half of `ol_neigh_add_static`: the entry becomes static and resolved. -/
def OlNeighEntry.setStatic (hwAddr : EtherAddr) (nhop : OlNeighEntry) : OlNeighEntry where
  fArpValid := true
  fFastArp := nhop.fFastArp
  fEntryValid := true
  fArpStatic := true
  hhLen := 14
  -- the type of IPv4 in network byte order
  hh := ⟨hwAddr, fakeMac, 0x0008⟩
  neighOid := nhop.neighOid
  -- the static add holds one reference, however often it is made
  refcnt := if nhop.fArpStatic then nhop.refcnt else nhop.refcnt + 1

def olNeighAddStatic (env : NeighEnv) (vrfId : VrfId) (gw : Ip4) (hwAddr : EtherAddr) (t : OlNeighTable) :
    OlNeighTable × Int :=
  let key : OlNeighLookupKey := ⟨vrfId, gw⟩
  match t.hashTbl.lookup key with
  | some nhop => ({ t with hashTbl := t.hashTbl.insert key (nhop.setStatic hwAddr) }, 0)
  | none =>
    if env.memory = false then (t, ntbCommNomem)
    else
      match Table.add env.room t.hashTbl key {} with
      | none => (t, -efault)
      | some hashTbl =>
        -- `neigh_cnt` is not incremented here, and no `neigh_oid` is allocated
        ({ t with
            hashTbl := hashTbl.insert key (OlNeighEntry.setStatic hwAddr {})
            count := t.count + 1 }, 0)

/-! ## Reference counts of neighbour entries -/

structure OlNeighTable.Same (t t' : OlNeighTable) : Prop where
  hashTbl : t'.hashTbl = t.hashTbl
  count : t'.count = t.count
  neighCnt : t'.neighCnt = t.neighCnt

def OlNeighTable.Referenced (t : OlNeighTable) : Prop :=
  ∀ key entry, t.hashTbl.lookup key = some entry → 1 ≤ entry.refcnt

theorem OlNeighTable.Same.refl (t : OlNeighTable) : t.Same t := ⟨rfl, rfl, rfl⟩

theorem OlNeighTable.Same.referenced {t t' : OlNeighTable} (same : t.Same t') (referenced : t.Referenced) :
    t'.Referenced := by
  intro key entry held
  rw [same.hashTbl] at held
  exact referenced key entry held

def NeighEnv.Allocates (env : NeighEnv) (t : OlNeighTable) (oid : Oid) : Prop :=
  env.memory = true ∧ env.room = true ∧ halAllocOid t.oids env.oid = .ok oid

/-- The outcomes of `ntb_neigh_add`: one more reference to the entry, a new entry with one
    reference, or a negative code and nothing changed. -/
theorem ntbNeighAdd_cases (env : NeighEnv) (vrfId : VrfId) (gw : Ip4) (t : OlNeighTable) :
    (∃ entry, t.hashTbl.lookup ⟨vrfId, gw⟩ = some entry ∧ ntbNeighAdd env vrfId gw t =
      ({ t with hashTbl := t.hashTbl.insert ⟨vrfId, gw⟩ { entry with refcnt := entry.refcnt + 1 } },
        .ok entry.neighOid)) ∨
    (t.hashTbl.lookup ⟨vrfId, gw⟩ = none ∧ ∃ oid, env.Allocates t oid ∧ ntbNeighAdd env vrfId gw t =
      ({ hashTbl := t.hashTbl.insert ⟨vrfId, gw⟩
           { refcnt := 1, fFastArp := true, fEntryValid := true, neighOid := oid }
         count := t.count + 1
         neighCnt := Function.update t.neighCnt vrfId (t.neighCnt vrfId + 1)
         oids := insert oid t.oids }, .ok oid)) ∨
    (t.hashTbl.lookup ⟨vrfId, gw⟩ = none ∧ (¬ ∃ oid, env.Allocates t oid) ∧
      ∃ code < 0, ntbNeighAdd env vrfId gw t = (t, .error code)) := by
  simp only [ntbNeighAdd, NeighEnv.Allocates]
  cases held : t.hashTbl.lookup ⟨vrfId, gw⟩ with
  | some entry => exact .inl ⟨entry, rfl, rfl⟩
  | none =>
    refine .inr ?_
    have absent := Finmap.lookup_eq_none.mp held
    cases memory : env.memory with
    | false => exact .inr ⟨rfl, by simp, -enomem, by decide, rfl⟩
    | true =>
      cases room : env.room with
      | false =>
        refine .inr ⟨rfl, by simp, -efault, by decide, ?_⟩
        simp [Table.add_none.mpr ⟨absent, rfl⟩]
      | true =>
        cases answer : halAllocOid t.oids env.oid with
        | error code =>
          refine .inr ⟨rfl, by simp, code, code.property, ?_⟩
          simp [Table.add_of_room, Table.erase_insert_of_notMem _ absent]
        | ok oid =>
          refine .inl ⟨rfl, oid, ⟨rfl, rfl, rfl⟩, ?_⟩
          simp [Table.add_of_room, Finmap.insert_insert]

theorem ntbNeighDel_cases (vrfId : VrfId) (gw : Ip4) {t : OlNeighTable} (referenced : t.Referenced) :
    (t.hashTbl.lookup ⟨vrfId, gw⟩ = none ∧ ntbNeighDel vrfId gw t = (t, -1)) ∨
    (∃ entry, t.hashTbl.lookup ⟨vrfId, gw⟩ = some entry ∧ 1 < entry.refcnt ∧ ntbNeighDel vrfId gw t =
      ({ t with hashTbl := t.hashTbl.insert ⟨vrfId, gw⟩ { entry with refcnt := entry.refcnt - 1 } }, 0)) ∨
    (∃ entry, t.hashTbl.lookup ⟨vrfId, gw⟩ = some entry ∧ entry.refcnt = 1 ∧ ntbNeighDel vrfId gw t =
      ({ t with
          hashTbl := t.hashTbl.erase ⟨vrfId, gw⟩
          count := decrement32 t.count
          neighCnt := Function.update t.neighCnt vrfId (decrement32 (t.neighCnt vrfId)) }, 0)) := by
  simp only [ntbNeighDel]
  cases held : t.hashTbl.lookup ⟨vrfId, gw⟩ with
  | none => exact .inl ⟨rfl, rfl⟩
  | some entry =>
    -- the count is positive, so the decrement does not wrap
    have positive := referenced _ _ held
    have lowered : decrement32 entry.refcnt = entry.refcnt - 1 := if_neg (by omega)
    by_cases last : entry.refcnt = 1
    · refine .inr (.inr ⟨entry, rfl, last, ?_⟩)
      dsimp only
      rw [lowered, if_neg (by omega)]
    · refine .inr (.inl ⟨entry, rfl, by omega, ?_⟩)
      dsimp only
      rw [lowered, if_pos (by omega)]

theorem ntbNeighDel_found {vrfId : VrfId} {gw : Ip4} {t : OlNeighTable} {entry : OlNeighEntry}
    (held : t.hashTbl.lookup ⟨vrfId, gw⟩ = some entry) : (ntbNeighDel vrfId gw t).2 = 0 := by
  simp only [ntbNeighDel, held]
  split <;> rfl

/-- Taking a reference and dropping it again leaves the entries as they were. -/
theorem ntbNeighDel_ntbNeighAdd {env : NeighEnv} {vrfId : VrfId} {gw : Ip4} {t t' : OlNeighTable} {oid : Oid}
    (referenced : t.Referenced) (added : ntbNeighAdd env vrfId gw t = (t', .ok oid)) :
    t.Same (ntbNeighDel vrfId gw t').1 := by
  rcases ntbNeighAdd_cases env vrfId gw t with
    ⟨entry, held, result⟩ | ⟨absent, oid', _, result⟩ | ⟨_, _, code, _, result⟩ <;>
    rw [result] at added <;> cases added
  · have positive : 0 < entry.refcnt := referenced _ _ held
    simp only [ntbNeighDel, Finmap.lookup_insert, decrement32_succ, if_pos positive,
      Finmap.insert_insert, Table.insert_lookup held]
    exact OlNeighTable.Same.refl t
  · simp only [ntbNeighDel, Finmap.lookup_insert, decrement32_succ 0, Nat.lt_irrefl, if_false,
      Function.update_idem, Function.update_self, decrement32_succ, Function.update_eq_self,
      Table.erase_insert_of_notMem _ (Finmap.lookup_eq_none.mp absent)]
    exact ⟨rfl, rfl, rfl⟩

/-! ### Every operation keeps the entries referenced -/

theorem OlNeighTable.Referenced.insert {t t' : OlNeighTable} (referenced : t.Referenced)
    (key : OlNeighLookupKey) {entry : OlNeighEntry} (positive : 1 ≤ entry.refcnt)
    (stored : t'.hashTbl = t.hashTbl.insert key entry) : t'.Referenced := by
  intro other entry' found
  rw [stored, Table.lookup_insert_eq_some] at found
  rcases found with ⟨_, rfl⟩ | ⟨_, found⟩
  · exact positive
  · exact referenced _ _ found

theorem OlNeighTable.Referenced.erase {t t' : OlNeighTable} (referenced : t.Referenced)
    {key : OlNeighLookupKey} (dropped : t'.hashTbl = t.hashTbl.erase key) : t'.Referenced := by
  intro other entry found
  rw [dropped, Table.lookup_erase_eq_some] at found
  exact referenced _ _ found.2

theorem ntbNeighAdd_referenced (env : NeighEnv) (vrfId : VrfId) (gw : Ip4) {t : OlNeighTable}
    (referenced : t.Referenced) : (ntbNeighAdd env vrfId gw t).1.Referenced := by
  rcases ntbNeighAdd_cases env vrfId gw t with
    ⟨entry, _, result⟩ | ⟨_, oid, _, result⟩ | ⟨_, _, code, _, result⟩ <;> rw [result]
  · exact referenced.insert ⟨vrfId, gw⟩ (Nat.le_add_left 1 _) rfl
  · exact referenced.insert ⟨vrfId, gw⟩ (Nat.le_refl 1) rfl
  · exact referenced

theorem ntbNeighDel_referenced (vrfId : VrfId) (gw : Ip4) {t : OlNeighTable}
    (referenced : t.Referenced) : (ntbNeighDel vrfId gw t).1.Referenced := by
  rcases ntbNeighDel_cases vrfId gw referenced with
    ⟨_, result⟩ | ⟨entry, _, shared, result⟩ | ⟨entry, _, _, result⟩ <;> rw [result]
  · exact referenced
  · exact referenced.insert ⟨vrfId, gw⟩ (Nat.le_sub_one_of_lt shared) rfl
  · exact referenced.erase rfl

theorem OlNeighEntry.setStatic_refcnt (hwAddr : EtherAddr) (nhop : OlNeighEntry) :
    nhop.refcnt ≤ (nhop.setStatic hwAddr).refcnt := by
  unfold OlNeighEntry.setStatic
  dsimp only
  split <;> omega

theorem olNeighAddStatic_cases (env : NeighEnv) (vrfId : VrfId) (gw : Ip4) (hwAddr : EtherAddr)
    (t : OlNeighTable) :
    (∃ entry, t.hashTbl.lookup ⟨vrfId, gw⟩ = some entry ∧ olNeighAddStatic env vrfId gw hwAddr t =
      ({ t with hashTbl := t.hashTbl.insert ⟨vrfId, gw⟩ (entry.setStatic hwAddr) }, 0)) ∨
    (t.hashTbl.lookup ⟨vrfId, gw⟩ = none ∧ ∃ code < 0, olNeighAddStatic env vrfId gw hwAddr t = (t, code)) ∨
    (t.hashTbl.lookup ⟨vrfId, gw⟩ = none ∧ olNeighAddStatic env vrfId gw hwAddr t =
      ({ t with
          hashTbl := t.hashTbl.insert ⟨vrfId, gw⟩ (OlNeighEntry.setStatic hwAddr {})
          count := t.count + 1 }, 0)) := by
  simp only [olNeighAddStatic]
  cases held : t.hashTbl.lookup ⟨vrfId, gw⟩ with
  | some entry => exact .inl ⟨entry, rfl, rfl⟩
  | none =>
    cases memory : env.memory with
    | false => exact .inr (.inl ⟨rfl, ntbCommNomem, by decide, rfl⟩)
    | true =>
      cases stored : Table.add env.room t.hashTbl ⟨vrfId, gw⟩ {} with
      | none => exact .inr (.inl ⟨rfl, -efault, by decide, by simp⟩)
      | some hashTbl =>
        refine .inr (.inr ⟨rfl, ?_⟩)
        simp [Table.add_some stored, Finmap.insert_insert]

theorem olNeighAddStatic_referenced (env : NeighEnv) (vrfId : VrfId) (gw : Ip4) (hwAddr : EtherAddr)
    {t : OlNeighTable} (referenced : t.Referenced) :
    (olNeighAddStatic env vrfId gw hwAddr t).1.Referenced := by
  rcases olNeighAddStatic_cases env vrfId gw hwAddr t with
    ⟨entry, held, result⟩ | ⟨_, code, _, result⟩ | ⟨_, result⟩ <;> rw [result]
  · exact referenced.insert ⟨vrfId, gw⟩ (Nat.le_trans (referenced _ _ held) (entry.setStatic_refcnt hwAddr)) rfl
  · exact referenced
  · exact referenced.insert ⟨vrfId, gw⟩ (Nat.le_refl 1) rfl

end Tao.Agent
