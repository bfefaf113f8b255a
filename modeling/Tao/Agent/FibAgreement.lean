import Tao.Agent.RouteAccounting

/-! # RIB and FIB

The RIB is keyed on the bytes of `ntb_rib_key`, a FIB on the masked prefix.  The
two agree for as long as no call enters a second key of a VRF with the same
masked prefix, and no longer. -/

namespace Tao.Agent

open Tao.Foundation

/-- A FIB holds a route exactly when the RIB lists it for a key of the VRF, and every listed key
    has a prefix that a FIB can hold. -/
structure FibAgrees (s : RouteState) : Prop where
  route : ∀ vrfId p id, (s.fib vrfId).lookup p = some id ↔
    ∃ pfx, pfx.vrfId = vrfId ∧ pfx.fibPrefix = some p ∧ s.rib.lookup pfx = some id
  valid : ∀ pfx id, s.rib.lookup pfx = some id → ∃ p, pfx.fibPrefix = some p

/-- The call does not overrun `mpath[]`, and a prefix that it enters is masked differently from
    every key the RIB lists for the VRF. -/
def RouteCall.Unaliased (s : RouteState) : RouteCall → Prop
  | .nhopInsert env pfx data ribType => ¬ Overruns env pfx data ribType s ∧
      (Enters env pfx data s → ∀ other id, s.rib.lookup other = some id → other.vrfId = pfx.vrfId →
        other.fibPrefix ≠ pfx.fibPrefix)
  | _ => True

theorem RouteCall.Unaliased.fits {s : RouteState} {call : RouteCall} (unaliased : call.Unaliased s) :
    call.Fits s := by
  refine RouteCall.fits_of_insert ?_
  rintro env pfx data ribType rfl
  exact unaliased.1

theorem RouteState.initial_fibAgrees : FibAgrees .initial where
  route := by
    intro vrfId p id
    constructor
    · intro held; cases held
    · rintro ⟨pfx, _, _, listed⟩; cases listed
  valid := by intro pfx id listed; cases listed

theorem FibAgrees.same {s s' : RouteState} (agrees : FibAgrees s) (same : s.Same s') : FibAgrees s' := by
  refine ⟨?_, ?_⟩
  · rw [same.fib, same.rib]; exact agrees.route
  · rw [same.rib]; exact agrees.valid

theorem FibAgrees.prefix_injective {s : RouteState} (agrees : FibAgrees s) (accounted : Accounted s)
    {pfx other : NtbRibKey} {id id' : FibResId} {p : FibPrefix} (listed : s.rib.lookup pfx = some id)
    (listed' : s.rib.lookup other = some id') (sameVrf : other.vrfId = pfx.vrfId)
    (masked : pfx.fibPrefix = some p) (masked' : other.fibPrefix = some p) : other = pfx := by
  have first := (agrees.route pfx.vrfId p id).mpr ⟨pfx, rfl, masked, listed⟩
  have second := (agrees.route pfx.vrfId p id').mpr ⟨other, sameVrf, masked', listed'⟩
  obtain rfl := Option.some.inj (first.symm.trans second)
  exact accounted.rib_injective other pfx id listed' listed

/-! ## What the RIB lists after a call -/

theorem listed_insert_iff {rib : Table NtbRibKey FibResId} {pfx : NtbRibKey} {id : FibResId} {p : FibPrefix}
    (absent : rib.lookup pfx = none) (masked : pfx.fibPrefix = some p) (vrfId : VrfId) (q : FibPrefix)
    (id' : FibResId) :
    (∃ other, other.vrfId = vrfId ∧ other.fibPrefix = some q ∧ (rib.insert pfx id).lookup other = some id') ↔
      (pfx.vrfId = vrfId ∧ p = q ∧ id = id') ∨
        ∃ other, other.vrfId = vrfId ∧ other.fibPrefix = some q ∧ rib.lookup other = some id' := by
  constructor
  · rintro ⟨other, own, masked', listed⟩
    rcases Table.lookup_insert_eq_some.mp listed with ⟨rfl, same⟩ | ⟨_, listed⟩
    · exact .inl ⟨own, Option.some.inj (masked.symm.trans masked'), same.symm⟩
    · exact .inr ⟨other, own, masked', listed⟩
  · rintro (⟨own, rfl, rfl⟩ | ⟨other, own, masked', listed⟩)
    · exact ⟨pfx, own, masked, Finmap.lookup_insert _⟩
    · have different : other ≠ pfx := by
        rintro rfl
        rw [absent] at listed; cases listed
      exact ⟨other, own, masked', by rw [Finmap.lookup_insert_of_ne _ different, listed]⟩

theorem listed_erase_iff {rib : Table NtbRibKey FibResId} {pfx : NtbRibKey} {p : FibPrefix}
    (masked : pfx.fibPrefix = some p)
    (alone : ∀ other id, rib.lookup other = some id → other.vrfId = pfx.vrfId → other.fibPrefix = some p →
      other = pfx) (vrfId : VrfId) (q : FibPrefix) (id' : FibResId) :
    (∃ other, other.vrfId = vrfId ∧ other.fibPrefix = some q ∧ (rib.erase pfx).lookup other = some id') ↔
      ¬ (vrfId = pfx.vrfId ∧ q = p) ∧
        ∃ other, other.vrfId = vrfId ∧ other.fibPrefix = some q ∧ rib.lookup other = some id' := by
  constructor
  · rintro ⟨other, own, masked', kept⟩
    rw [Table.lookup_erase_eq_some] at kept
    obtain ⟨different, kept⟩ := kept
    refine ⟨?_, other, own, masked', kept⟩
    rintro ⟨sameVrf, rfl⟩
    exact different (alone other id' kept (own.trans sameVrf) masked')
  · rintro ⟨elsewhere, other, own, masked', kept⟩
    have different : other ≠ pfx := by
      rintro rfl
      exact elsewhere ⟨own.symm, Option.some.inj (masked'.symm.trans masked)⟩
    exact ⟨other, own, masked', by rw [Finmap.lookup_erase_ne different, kept]⟩

theorem FibAgrees.inserted {env : RouteEnv} {pfx : NtbRibKey} {data : FibNhopEncapData} {ribType : RibType}
    {s s' : RouteState} (agrees : FibAgrees s) (inserted : Inserted env pfx data ribType s s')
    (unaliased : ∀ other id, s.rib.lookup other = some id → other.vrfId = pfx.vrfId →
      other.fibPrefix ≠ pfx.fibPrefix) : FibAgrees s' := by
  obtain ⟨absent, id, a, oid, p, _, _, masked, _, rib, fib, _⟩ := inserted
  refine ⟨fun vrfId q id' => ?_, fun other id' listed => ?_⟩
  · rw [rib, listed_insert_iff absent masked, fib]
    by_cases own : vrfId = pfx.vrfId
    · subst own
      rw [Function.update_self, Table.lookup_insert_eq]
      by_cases here : q = p
      · -- no other key of the VRF stands for the prefix
        subst here
        rw [if_pos rfl]
        constructor
        · intro same; exact .inl ⟨rfl, rfl, Option.some.inj same⟩
        · rintro (⟨_, _, rfl⟩ | ⟨other, own, masked', listed⟩)
          · rfl
          · exact (unaliased other id' listed own (masked'.trans masked.symm)).elim
      · rw [if_neg here, agrees.route]
        exact ⟨.inr, fun either => either.resolve_left fun new => here new.2.1.symm⟩
    · rw [Function.update_of_ne own, agrees.route]
      exact ⟨.inr, fun either => either.resolve_left fun new => own new.1.symm⟩
  · rw [rib, Table.lookup_insert_eq_some] at listed
    rcases listed with ⟨same, _⟩ | ⟨_, listed⟩
    · exact ⟨p, by rw [same, masked]⟩
    · exact agrees.valid other id' listed

theorem FibAgrees.removed {pfx : NtbRibKey} {s s' : RouteState} (agrees : FibAgrees s)
    (accounted : Accounted s) (removed : Removed pfx s s') : FibAgrees s' := by
  obtain ⟨id, fRes, a, listed, _, _, _, _, rib, fib, _⟩ := removed
  obtain ⟨p, masked⟩ := agrees.valid pfx id listed
  have present : p ∈ s.fib pfx.vrfId :=
    Finmap.mem_of_lookup_eq_some ((agrees.route _ _ _).mpr ⟨pfx, rfl, masked, listed⟩)
  have erased : (rteFibDelete (s.fib pfx.vrfId) (rteBeToCpu32 pfx.prefix4) pfx.prefixlen.toNat).getD
      (s.fib pfx.vrfId) = (s.fib pfx.vrfId).erase p := by
    unfold NtbRibKey.fibPrefix at masked
    simp only [rteFibDelete, masked, present, if_true, Option.getD_some]
  rw [erased] at fib
  have alone : ∀ other id', s.rib.lookup other = some id' → other.vrfId = pfx.vrfId →
      other.fibPrefix = some p → other = pfx :=
    fun other id' kept sameVrf masked' => agrees.prefix_injective accounted listed kept sameVrf masked masked'
  refine ⟨fun vrfId q id' => ?_, fun other id' listed' => ?_⟩
  · rw [rib, listed_erase_iff masked alone, ← agrees.route, fib]
    by_cases own : vrfId = pfx.vrfId
    · subst own
      rw [Function.update_self, Table.lookup_erase_eq]
      by_cases here : q = p
      · simp [here]
      · simp [here]
    · simp [own]
  · rw [rib, Table.lookup_erase_eq_some] at listed'
    exact agrees.valid other id' listed'.2

/-! ## Aliased prefixes -/

/-- A prefix that is entered beside another key with the same masked prefix takes that key's route
    in the FIB. -/
theorem aliased_disagrees {env : RouteEnv} {pfx other : NtbRibKey} {data : FibNhopEncapData}
    {ribType : RibType} {s s' : RouteState} {id : FibResId} (accounted : Accounted s)
    (inserted : Inserted env pfx data ribType s s') (listed : s.rib.lookup other = some id)
    (sameVrf : other.vrfId = pfx.vrfId) (aliased : other.fibPrefix = pfx.fibPrefix) : ¬ FibAgrees s' := by
  intro agrees
  obtain ⟨absent, new, a, oid, p, _, allocated, masked, _, rib, fib, _⟩ := inserted
  have different : other ≠ pfx := by
    rintro rfl
    rw [absent] at listed; cases listed
  have kept : s'.rib.lookup other = some id := by rw [rib, Finmap.lookup_insert_of_ne _ different, listed]
  have routed := (agrees.route pfx.vrfId p id).mpr ⟨other, sameVrf, aliased.trans masked, kept⟩
  rw [fib, Function.update_self, Finmap.lookup_insert] at routed
  -- the FIB would give the other key the new slot, which was free
  obtain rfl := Option.some.inj routed
  obtain ⟨_, fRes, _, used, _⟩ := accounted.rib_used other new listed
  exact fibResIdAlloc_free allocated (Finmap.mem_of_lookup_eq_some used)

/-- RIB and FIB agree throughout a run exactly when no call of it is aliased. -/
theorem fibAgrees_iff (calls : List RouteCall) :
    Always routeStep FibAgrees .initial calls ↔
      Guarded routeStep (fun s call => call.Unaliased s) .initial calls := by
  refine always_iff_guarded Accounted ?_ ?_ RouteState.initial_accounted RouteState.initial_fibAgrees
  · intro s call accounted agrees unaliased
    refine routeStep_invariant FibAgrees call accounted unaliased.fits agrees (fun _ => agrees.same) ?_
      (fun s s' pfx accounted agrees away => agrees.removed accounted away) ?_
    · rintro env pfx data ribType s' rfl enters new
      exact agrees.inserted new (unaliased.2 enters)
    · rintro env vrfId gw hwAddr rfl
      exact ⟨agrees.route, agrees.valid⟩
  · intro s call s' accounted agrees aliased stepped agrees'
    have fits := fits_of_defined accounted stepped
    cases call with
    | nhopInsert env pfx data ribType =>
      refine aliased ⟨fits, fun enters other id listed sameVrf same => ?_⟩
      rcases ntbRouteNhopInsert_cases env pfx data ribType accounted with
        ⟨overruns, _⟩ | ⟨_, next, ret, result, ⟨fails, _⟩ | ⟨fails, _⟩ | ⟨_, _, new⟩⟩
      · exact fits overruns
      · exact fails enters
      · exact fails enters
      · simp only [routeStep, result, Option.map_some, Option.some.injEq] at stepped
        subst stepped
        exact aliased_disagrees accounted new listed sameVrf same agrees'
    | nhopDelete => exact aliased trivial
    | delete => exact aliased trivial
    | cleanup => exact aliased trivial
    | neighAddStatic => exact aliased trivial

/-! ### Two spellings of one prefix -/

-- `10.0.7.0/24` and `10.0.7.1/24`.
def aliasRun : List RouteCall :=
  [.nhopInsert (.granted 1 5 6) (subnet24 1 7) vxlanNhop .default,
    .nhopInsert (.granted 2 7 8) { subnet24 1 7 with prefix4 := 0x0107000a } vxlanNhop .default]

/-- The FIB holds the second result while the RIB still lists the first. -/
theorem aliasRun_disagrees : ¬ Always routeStep FibAgrees .initial aliasRun := by
  intro always
  obtain ⟨s, reached, agrees⟩ := always.reaches
  have tables : (run routeStep .initial aliasRun).map (fun s =>
      (s.rib.lookup (subnet24 1 7), (subnet24 1 7).fibPrefix.bind (s.fib 1).lookup)) =
        some (some 1, some 2) := by decide +kernel
  rw [reached, Option.map_some, Option.some.injEq, Prod.mk.injEq] at tables
  obtain ⟨listed, routed⟩ := tables
  obtain ⟨p, masked⟩ := agrees.valid _ _ listed
  rw [masked, Option.bind_some, (agrees.route 1 p 1).mpr ⟨_, rfl, masked, listed⟩] at routed
  cases routed

end Tao.Agent
