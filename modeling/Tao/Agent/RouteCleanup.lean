import Tao.Agent.RouteAccounting

/-! # Cleaning up the routes of a VRF

`ntb_route_cleanup` deletes from the tables it shares with the other VRFs while it goes
over them.  `PartlyCleaned` relates the state before the loop to every state inside it:
the routes of other VRFs are untouched, those of the VRF are either whole or gone, and
each next hop has lost as many references as routes are gone. -/

namespace Tao.Agent

open Tao.Foundation

/-- Every route of a FIB is there for a key of the VRF. -/
def FibListed (s : RouteState) : Prop :=
  ∀ vrfId p, p ∈ s.fib vrfId → ∃ pfx id, pfx.vrfId = vrfId ∧ pfx.fibPrefix = some p ∧ s.rib.lookup pfx = some id

def RouteState.routeRefs (s : RouteState) (vrfId : VrfId) (a : Addr) (pfx : NtbRibKey) (id : FibResId) : Nat :=
  if pfx.vrfId = vrfId then (s.fibRes.lookup id).elim 0 fun fRes => fRes.mpath.count a else 0

def RouteState.vrfRefs (s : RouteState) (vrfId : VrfId) (a : Addr) : Nat :=
  Table.total (s.routeRefs vrfId a) s.rib

def FibNhop.dropRefs (fNhop : FibNhop) (n : Nat) : Option FibNhop :=
  if n < fNhop.refCount then some { fNhop with refCount := fNhop.refCount - n } else none

/-- Nothing is left of the routes of the VRF, nothing of the other VRFs has changed, and every next
    hop has lost the references of the VRF, no more and no fewer. -/
structure CleanedUp (vrfId : VrfId) (s s' : RouteState) : Prop where
  rib_own : ∀ pfx, pfx.vrfId = vrfId → s'.rib.lookup pfx = none
  rib_others : ∀ pfx, pfx.vrfId ≠ vrfId → s'.rib.lookup pfx = s.rib.lookup pfx
  fib_own : s'.fib vrfId = ∅
  fib_others : ∀ other, other ≠ vrfId → s'.fib other = s.fib other
  ribCnt_own : s'.ribCnt vrfId = 0
  ribCnt_others : ∀ other, other ≠ vrfId → s'.ribCnt other = s.ribCnt other
  fibRes_own : ∀ pfx id, pfx.vrfId = vrfId → s.rib.lookup pfx = some id → s'.fibRes.lookup id = none
  fibRes_others : ∀ id, (∀ pfx, pfx.vrfId = vrfId → s.rib.lookup pfx ≠ some id) →
    s'.fibRes.lookup id = s.fibRes.lookup id
  nhops : ∀ a, s'.store.nhops.lookup a = (s.store.nhops.lookup a).bind (·.dropRefs (s.vrfRefs vrfId a))
  dropped : ∀ a fNhop, s.store.nhops.lookup a = some fNhop → s.vrfRefs vrfId a ≤ fNhop.refCount

/-! ## FIB routes are listed -/

theorem RouteState.initial_fibListed : FibListed .initial := by
  intro vrfId p held
  exact absurd held Finmap.notMem_empty

theorem FibListed.same {s s' : RouteState} (listed : FibListed s) (same : s.Same s') : FibListed s' := by
  unfold FibListed
  rw [same.fib, same.rib]
  exact listed

/-- A route of a FIB after an insert is the new one, with the result of its key, or it was there. -/
theorem Inserted.fib_lookup {env : RouteEnv} {pfx : NtbRibKey} {data : FibNhopEncapData} {ribType : RibType}
    {s s' : RouteState} (inserted : Inserted env pfx data ribType s s') {vrfId : VrfId} {q : FibPrefix} {id : FibResId}
    (held : (s'.fib vrfId).lookup q = some id) :
    pfx.vrfId = vrfId ∧ pfx.fibPrefix = some q ∧ s'.rib.lookup pfx = some id ∨ (s.fib vrfId).lookup q = some id := by
  obtain ⟨_, new, a, oid, p, _, _, masked, _, rib, fib, _⟩ := inserted
  rw [fib] at held
  by_cases own : vrfId = pfx.vrfId
  · subst own
    rw [Function.update_self, Table.lookup_insert_eq_some] at held
    rcases held with ⟨same, rfl⟩ | ⟨_, held⟩
    · exact .inl ⟨rfl, by rw [masked, same], by rw [rib, Finmap.lookup_insert]⟩
    · exact .inr held
  · rw [Function.update_of_ne own] at held
    exact .inr held

theorem Inserted.rib_kept {env : RouteEnv} {pfx other : NtbRibKey} {data : FibNhopEncapData} {ribType : RibType}
    {s s' : RouteState} (inserted : Inserted env pfx data ribType s s') {id : FibResId}
    (listed : s.rib.lookup other = some id) : s'.rib.lookup other = some id := by
  obtain ⟨absent, _, _, _, _, _, _, _, _, rib, _⟩ := inserted
  have different : other ≠ pfx := by
    rintro rfl
    cases absent.symm.trans listed
  rw [rib, Finmap.lookup_insert_of_ne _ different, listed]

/-- The prefix of a deleted key leaves the FIB, whichever key it was entered for. -/
theorem Removed.fib_lookup {pfx : NtbRibKey} {s s' : RouteState} (removed : Removed pfx s s') {vrfId : VrfId}
    {q : FibPrefix} {id : FibResId} (held : (s'.fib vrfId).lookup q = some id) :
    (s.fib vrfId).lookup q = some id ∧ (vrfId = pfx.vrfId → pfx.fibPrefix ≠ some q) := by
  obtain ⟨_, _, _, _, _, _, _, _, _, fib, _⟩ := removed
  rw [fib] at held
  by_cases own : vrfId = pfx.vrfId
  · subst own
    rw [Function.update_self, rteFibDelete] at held
    rw [NtbRibKey.fibPrefix]
    split at held
    · next unmasked => exact ⟨held, fun _ masked => by rw [unmasked] at masked; cases masked⟩
    · next p masked =>
      rw [masked]
      split at held
      · rw [Option.getD_some, Table.lookup_erase_eq_some] at held
        obtain ⟨different, held⟩ := held
        exact ⟨held, fun _ same => different (Option.some.inj same).symm⟩
      · next absent =>
        refine ⟨held, fun _ same => absent ?_⟩
        rw [Option.some.inj same]
        exact Finmap.mem_of_lookup_eq_some held
  · rw [Function.update_of_ne own] at held
    exact ⟨held, fun same => absurd same own⟩

theorem Removed.rib_kept {pfx other : NtbRibKey} {s s' : RouteState} (removed : Removed pfx s s') {id : FibResId}
    (different : other ≠ pfx) (listed : s.rib.lookup other = some id) : s'.rib.lookup other = some id := by
  obtain ⟨_, _, _, _, _, _, _, _, rib, _⟩ := removed
  rw [rib, Finmap.lookup_erase_ne different, listed]

theorem FibListed.inserted {env : RouteEnv} {pfx : NtbRibKey} {data : FibNhopEncapData} {ribType : RibType}
    {s s' : RouteState} (listed : FibListed s) (inserted : Inserted env pfx data ribType s s') : FibListed s' := by
  intro vrfId q held
  obtain ⟨id, there⟩ := Finmap.mem_iff.mp held
  rcases inserted.fib_lookup there with ⟨own, masked, new⟩ | older
  · exact ⟨pfx, id, own, masked, new⟩
  · obtain ⟨other, id', own, masked, old⟩ := listed vrfId q (Finmap.mem_of_lookup_eq_some older)
    exact ⟨other, id', own, masked, inserted.rib_kept old⟩

theorem FibListed.removed {pfx : NtbRibKey} {s s' : RouteState} (listed : FibListed s)
    (removed : Removed pfx s s') : FibListed s' := by
  intro vrfId q held
  obtain ⟨id, there⟩ := Finmap.mem_iff.mp held
  obtain ⟨older, another⟩ := removed.fib_lookup there
  obtain ⟨other, id', own, masked, old⟩ := listed vrfId q (Finmap.mem_of_lookup_eq_some older)
  have different : other ≠ pfx := by
    rintro rfl
    exact another own.symm masked
  exact ⟨other, id', own, masked, removed.rib_kept different old⟩

theorem routeStep_fibListed {s s' : RouteState} {call : RouteCall} (accounted : Accounted s) (listed : FibListed s)
    (stepped : routeStep s call = some s') : Accounted s' ∧ FibListed s' := by
  obtain ⟨t, stepped', accounted', listed'⟩ := routeStep_invariant FibListed call accounted
    (fits_of_defined accounted stepped) listed (fun _ same => listed.same same)
    (fun _ _ _ _ _ _ _ inserted => listed.inserted inserted) (fun _ _ _ _ listed removed => listed.removed removed)
    (fun _ _ _ _ _ => listed)
  obtain rfl := Option.some.inj (stepped.symm.trans stepped')
  exact ⟨accounted', listed'⟩

/-! ## Inside the loop -/

/-- Between the state before the loop and a state inside it. -/
structure PartlyCleaned (vrfId : VrfId) (s t : RouteState) : Prop where
  rib_others : ∀ pfx, pfx.vrfId ≠ vrfId → t.rib.lookup pfx = s.rib.lookup pfx
  rib_older : ∀ pfx id, t.rib.lookup pfx = some id → s.rib.lookup pfx = some id
  fib_others : ∀ other, other ≠ vrfId → t.fib other = s.fib other
  ribCnt_others : ∀ other, other ≠ vrfId → t.ribCnt other = s.ribCnt other
  fibRes_own : ∀ pfx id, pfx.vrfId = vrfId → s.rib.lookup pfx = some id →
    t.fibRes.lookup id = if pfx ∈ t.rib then s.fibRes.lookup id else none
  fibRes_others : ∀ id, (∀ pfx, pfx.vrfId = vrfId → s.rib.lookup pfx ≠ some id) →
    t.fibRes.lookup id = s.fibRes.lookup id
  nhops : ∀ a fNhop, t.store.nhops.lookup a = some fNhop →
    ∃ old, s.store.nhops.lookup a = some old ∧ fNhop = { old with refCount := fNhop.refCount }
  refs : ∀ a, s.refs a + Table.total (s.routeRefs vrfId a) t.rib = t.refs a + s.vrfRefs vrfId a

theorem PartlyCleaned.refl (vrfId : VrfId) (s : RouteState) : PartlyCleaned vrfId s s where
  rib_others := fun _ _ => rfl
  rib_older := fun _ _ listed => listed
  fib_others := fun _ _ => rfl
  ribCnt_others := fun _ _ => rfl
  fibRes_own := fun _ _ _ listed => (if_pos (Finmap.mem_of_lookup_eq_some listed)).symm
  fibRes_others := fun _ _ => rfl
  nhops := fun _ fNhop held => ⟨fNhop, held, rfl⟩
  refs := fun _ => rfl

/-- Deleting a next hop's reference changes no next hop but for its count. -/
theorem nhopObjDelete_nhops {vrfId : VrfId} {a b : Addr} {s s' : NhopStore} {refs : Addr → Nat} {fNhop : FibNhop}
    (counts : s.Counts refs) (deleted : nhopObjDelete vrfId a s = some s')
    (held : s'.nhops.lookup b = some fNhop) :
    ∃ old, s.nhops.lookup b = some old ∧ fNhop = { old with refCount := fNhop.refCount } := by
  cases there : s.nhops.lookup a with
  | none => simp [nhopObjDelete, there] at deleted
  | some old =>
    rcases nhopObjDelete_cases vrfId counts there with ⟨_, result⟩ | ⟨_, result⟩ <;>
      obtain rfl := Option.some.inj (result.symm.trans deleted) <;> dsimp only at held
    · rw [Table.lookup_insert_eq_some] at held
      rcases held with ⟨same, rfl⟩ | ⟨_, held⟩
      · exact ⟨old, by rw [same, there], rfl⟩
      · exact ⟨fNhop, held, rfl⟩
    · rw [Table.lookup_erase_eq_some] at held
      exact ⟨fNhop, held.2, rfl⟩

theorem routeRefs_single {vrfId : VrfId} {s : RouteState} {pfx : NtbRibKey} {id : FibResId} {fRes : FibRes}
    {a b : Addr} (own : pfx.vrfId = vrfId) (slot : s.fibRes.lookup id = some fRes) (single : fRes.mpath = [a]) :
    s.routeRefs vrfId b pfx id = if b = a then 1 else 0 := by
  rw [RouteState.routeRefs, if_pos own, slot, Option.elim_some, single, List.count_singleton]
  by_cases same : b = a
  · simp [same]
  · simp [same, Ne.symm same]

theorem PartlyCleaned.removed {vrfId : VrfId} {s t t' : RouteState} {pfx : NtbRibKey}
    (partly : PartlyCleaned vrfId s t) (before : Accounted s) (accounted : Accounted t)
    (own : pfx.vrfId = vrfId) (removed : Removed pfx t t') : PartlyCleaned vrfId s t' := by
  obtain ⟨id, fRes, a, listed, used, single, deleted, fibRes, rib, fib, ribCnt⟩ := removed
  have older := partly.rib_older pfx id listed
  have slot : s.fibRes.lookup id = some fRes := by
    have kept := partly.fibRes_own pfx id own older
    rw [used, if_pos (Finmap.mem_of_lookup_eq_some listed)] at kept
    exact kept.symm
  constructor
  case rib_others =>
    intro other foreign
    have different : other ≠ pfx := fun same => foreign (same ▸ own)
    rw [rib, Finmap.lookup_erase_ne different]
    exact partly.rib_others other foreign
  case rib_older =>
    intro other id' kept
    rw [rib, Table.lookup_erase_eq_some] at kept
    exact partly.rib_older other id' kept.2
  case fib_others =>
    intro other foreign
    rw [fib, Function.update_of_ne (fun same => foreign (same.trans own))]
    exact partly.fib_others other foreign
  case ribCnt_others =>
    intro other foreign
    rw [ribCnt, Function.update_of_ne (fun same => foreign (same.trans own))]
    exact partly.ribCnt_others other foreign
  case fibRes_own =>
    intro other id' sameVrf there
    rw [fibRes, rib]
    by_cases same : other = pfx
    · subst same
      obtain rfl := Option.some.inj (there.symm.trans older)
      rw [Finmap.lookup_erase, if_neg (fun present => (Finmap.mem_erase.mp present).1 rfl)]
    · -- the slots of two routes are different
      have otherSlot : id' ≠ id := by
        rintro rfl
        exact same (before.rib_injective other pfx id' there older)
      have stays : other ∈ t.rib.erase pfx ↔ other ∈ t.rib := by simp [same]
      simp only [Finmap.lookup_erase_ne otherSlot, stays]
      exact partly.fibRes_own other id' sameVrf there
  case fibRes_others =>
    intro id' foreign
    have otherSlot : id' ≠ id := fun same => foreign pfx own (same ▸ older)
    rw [fibRes, Finmap.lookup_erase_ne otherSlot]
    exact partly.fibRes_others id' foreign
  case nhops =>
    intro b fNhop held
    obtain ⟨now, held', same⟩ := nhopObjDelete_nhops accounted.counts deleted held
    obtain ⟨old, held'', same'⟩ := partly.nhops b now held'
    exact ⟨old, held'', by rw [same, same']⟩
  case refs =>
    intro b
    have counted := partly.refs b
    have lost := refs_of_erase used single b
    have gone := Table.total_erase (s.routeRefs vrfId b) listed
    rw [routeRefs_single own slot single] at gone
    have after : t'.refs b = Table.total (fun _ fRes => fRes.mpath.count b) (t.fibRes.erase id) := by
      rw [RouteState.refs, fibRes]
    rw [rib, after]
    omega

/-! ## The whole loop -/

theorem PartlyCleaned.refs_left {vrfId : VrfId} {s t : RouteState} (partly : PartlyCleaned vrfId s t)
    (away : ∀ pfx, pfx.vrfId = vrfId → pfx ∉ t.rib) (a : Addr) : s.refs a = t.refs a + s.vrfRefs vrfId a := by
  have none : Table.total (s.routeRefs vrfId a) t.rib = 0 := by
    refine Nat.eq_zero_of_not_pos fun positive => ?_
    obtain ⟨pfx, id, listed, counted⟩ := Table.total_pos_iff.mp positive
    rw [RouteState.routeRefs, if_neg (fun own => away pfx own (Finmap.mem_of_lookup_eq_some listed))] at counted
    exact Nat.lt_irrefl 0 counted
  have counted := partly.refs a
  omega

theorem PartlyCleaned.nhops_left {vrfId : VrfId} {s t : RouteState} (partly : PartlyCleaned vrfId s t)
    (before : Accounted s) (accounted : Accounted t) (away : ∀ pfx, pfx.vrfId = vrfId → pfx ∉ t.rib) (a : Addr) :
    t.store.nhops.lookup a = (s.store.nhops.lookup a).bind (·.dropRefs (s.vrfRefs vrfId a)) := by
  have left := partly.refs_left away a
  cases held : s.store.nhops.lookup a with
  | none =>
    cases held' : t.store.nhops.lookup a with
    | none => rfl
    | some fNhop =>
      obtain ⟨old, there, _⟩ := partly.nhops a fNhop held'
      rw [held] at there; cases there
  | some old =>
    obtain ⟨_, count, _⟩ := before.counts.live a old held
    rw [Option.bind_some, FibNhop.dropRefs]
    by_cases more : s.vrfRefs vrfId a < old.refCount
    · obtain ⟨fNhop, held'⟩ := accounted.counts.referenced a (by omega)
      obtain ⟨_, count', _⟩ := accounted.counts.live a fNhop held'
      obtain ⟨old', there, same⟩ := partly.nhops a fNhop held'
      obtain rfl := Option.some.inj (held.symm.trans there)
      have lowered : fNhop.refCount = old.refCount - s.vrfRefs vrfId a := by omega
      rw [if_pos more, held', same, lowered]
    · rw [if_neg more]
      cases held' : t.store.nhops.lookup a with
      | none => rfl
      | some fNhop =>
        have positive := (accounted.counts.live a fNhop held').2.2
        omega

theorem PartlyCleaned.cleanedUp {vrfId : VrfId} {s t : RouteState} (partly : PartlyCleaned vrfId s t)
    (before : Accounted s) (accounted : Accounted t) (listed : FibListed t)
    (away : ∀ pfx, pfx.vrfId = vrfId → pfx ∉ t.rib) : CleanedUp vrfId s t where
  rib_own := fun pfx own => Finmap.lookup_eq_none.mpr (away pfx own)
  rib_others := partly.rib_others
  fib_own := by
    apply Finmap.ext_lookup
    intro p
    rw [Finmap.lookup_empty, Finmap.lookup_eq_none]
    intro held
    obtain ⟨pfx, id, own, _, there⟩ := listed vrfId p held
    exact away pfx own (Finmap.mem_of_lookup_eq_some there)
  fib_others := partly.fib_others
  ribCnt_own := by
    have none : t.ribKeys vrfId = 0 := by
      refine Nat.eq_zero_of_not_pos fun positive => ?_
      obtain ⟨pfx, id, there, counted⟩ := Table.total_pos_iff.mp positive
      rw [if_neg (fun own => away pfx own (Finmap.mem_of_lookup_eq_some there))] at counted
      exact Nat.lt_irrefl 0 counted
    rw [accounted.ribCnt, none]
    rfl
  ribCnt_others := partly.ribCnt_others
  fibRes_own := fun pfx id own there => by rw [partly.fibRes_own pfx id own there, if_neg (away pfx own)]
  fibRes_others := partly.fibRes_others
  nhops := partly.nhops_left before accounted away
  dropped := by
    intro a fNhop held
    have left := partly.refs_left away a
    have count := (before.counts.live a fNhop held).2.1
    omega

/-- What holds inside the loop when the iteration is past the keys `done`. -/
structure CleaningUp (vrfId : VrfId) (s : RouteState) (done : List NtbRibKey) (t : RouteState) : Prop where
  accounted : Accounted t
  listed : FibListed t
  partly : PartlyCleaned vrfId s t
  away : ∀ pfx ∈ done, pfx.vrfId = vrfId → pfx ∉ t.rib

theorem CleaningUp.step {vrfId : VrfId} {s t : RouteState} {done : List NtbRibKey}
    (cleaning : CleaningUp vrfId s done t) (accounted : Accounted s) (pfx : NtbRibKey) :
    ∃ t', (if vrfId = pfx.vrfId then (ntbRouteDelete vrfId pfx t).map Prod.fst else some t) = some t' ∧
      CleaningUp vrfId s (pfx :: done) t' := by
  obtain ⟨accounted', listed, partly, away⟩ := cleaning
  by_cases own : vrfId = pfx.vrfId
  · rw [if_pos own, own]
    rcases ntbRouteDelete_cases pfx accounted' with ⟨absent, result⟩ | ⟨t', result, removed⟩
    · refine ⟨t, by rw [result]; rfl, accounted', listed, own ▸ partly, fun other member sameVrf => ?_⟩
      rcases List.mem_cons.mp member with rfl | earlier
      · exact Finmap.lookup_eq_none.mp absent
      · exact away other earlier (sameVrf.trans own.symm)
    · refine ⟨t', by rw [result]; rfl, accounted'.removed removed, listed.removed removed,
        own ▸ partly.removed accounted accounted' own.symm removed, fun other member sameVrf present => ?_⟩
      obtain ⟨_, _, _, _, _, _, _, _, rib, _⟩ := removed
      rw [rib] at present
      obtain ⟨different, older⟩ := Finmap.mem_erase.mp present
      exact away other ((List.mem_cons.mp member).resolve_left different) (sameVrf.trans own.symm) older
  · refine ⟨t, if_neg own, accounted', listed, partly, fun other member sameVrf => ?_⟩
    rcases List.mem_cons.mp member with rfl | earlier
    · exact absurd sameVrf.symm own
    · exact away other earlier sameVrf

/-- The clean-up of a VRF terminates with its routes gone and the other VRFs as they were. -/
theorem ntbRouteCleanup_cleanedUp (iterate : RteHashIterate) (vrfId : VrfId) {s : RouteState}
    (accounted : Accounted s) (listed : FibListed s) :
    ∃ t, ntbRouteCleanup iterate vrfId s = some t ∧ CleanedUp vrfId s t := by
  have start : CleaningUp vrfId s [] s :=
    ⟨accounted, listed, .refl vrfId s, fun pfx member => absurd member List.not_mem_nil⟩
  obtain ⟨t, reached, cleaning⟩ := foldlM_invariant_done (CleaningUp vrfId s) (l := iterate.keys s.rib)
    (fun done pfx t _ cleaning => cleaning.step accounted pfx) start
  refine ⟨t, reached, cleaning.partly.cleanedUp accounted cleaning.accounted cleaning.listed
    fun pfx own present => ?_⟩
  -- the iteration came by every key there was at the start
  obtain ⟨id, there⟩ := Finmap.mem_iff.mp present
  have visited := (iterate.mem_keys s.rib pfx).mpr
    (Finmap.mem_of_lookup_eq_some (cleaning.partly.rib_older pfx id there))
  exact cleaning.away pfx (by simpa using visited) own present

end Tao.Agent
