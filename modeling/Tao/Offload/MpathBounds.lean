import Tao.Agent.RouteAtomicity
import Tao.Foundation.Access
import Tao.Offload.Forwarding

/-! # The slots of `mpath[]`

For every function that goes over `mpath[]`, this module lists the slots that it reads or
writes, in the order of the source.  A list names a slot that is too far out even though the
call itself has no result then. -/

namespace Tao.Offload

open Tao.Foundation Tao.Agent

/-! ## The functions of `route.c` -/

/-- `rt_prefix_type_get` of a result. -/
def rtPrefixTypeGetAccesses (mpathCnt : Nat) : List Access := if mpathCnt = 1 then accessRange 0 1 else []

/-- `fib_res_reset` and the loop of `fib_res_obj_create`, once a slot is found. -/
def fibResObjCreateAccesses (nhopNum : Nat) : List Access := accessRange 0 routeMaxEcmp ++ accessRange 0 nhopNum

/-- How many next hops the loop of `ntb_route_nhop_insert` compares before it returns. -/
def comparedCnt (nhops : Table Addr FibNhop) (data : FibNhopEncapData) : List Addr → Nat
  | [] => 0
  | a :: rest =>
    match nhops.lookup a with
    | none => 1
    | some fNhop => if fibNhopEqual fNhop data then 1 else comparedCnt nhops data rest + 1

/-- From `nhop_obj_create` on.  The next hops of the old result are copied, and all are stored in a new one. -/
def routeNhopInsertNewAccesses (env : RouteEnv) (vrfId : VrfId) (data : FibNhopEncapData) (old : Option FibRes)
    (s : RouteState) : List Access :=
  match nhopObjCreate env.nhop vrfId data s.store with
  | some (_, .ok _) =>
    let mpathCnt := old.elim 0 FibRes.mpathCnt
    accessRange 0 mpathCnt ++
      if fibResIdAlloc s.fibRes = none then []
      else
        fibResObjCreateAccesses (mpathCnt + 1) ++
          (old.elim [] fun old => rtPrefixTypeGetAccesses old.mpathCnt) ++ rtPrefixTypeGetAccesses (mpathCnt + 1)
  | _ => []

def ntbRouteNhopInsertAccesses (env : RouteEnv) (pfx : NtbRibKey) (data : FibNhopEncapData) (ribType : RibType)
    (s : RouteState) : List Access :=
  match s.rib.lookup pfx with
  | none => routeNhopInsertNewAccesses env pfx.vrfId data none s
  | some id =>
    match s.fibRes.lookup id with
    | none => [.null]
    | some fRes =>
      if fibResRtypeGet fRes ≠ ribType then []
      else if fibResMpathNospace fRes then []
      else
        accessRange 0 (comparedCnt s.store.nhops data fRes.mpath) ++
          if mpathHas s.store.nhops data fRes.mpath = some false then
            routeNhopInsertNewAccesses env pfx.vrfId data (some fRes) s
          else []

def ntbRouteNhopDeleteAccesses (pfx : NtbRibKey) (data : FibNhopEncapData) (ribType : RibType) (s : RouteState) :
    List Access :=
  match s.rib.lookup pfx with
  | none => []
  | some id =>
    match s.fibRes.lookup id with
    | none => [.null]
    | some fRes =>
      if fibResRtypeGet fRes ≠ ribType then []
      else
        match s.store.hashTbl.lookup data.key with
        | none => []
        | some fNhop =>
          -- the search stops at the next hop
          accessRange 0 (min (fRes.mpath.idxOf fNhop + 1) fRes.mpathCnt) ++
            if fNhop ∉ fRes.mpath then []
            else if fRes.mpathCnt = 1 then rtPrefixTypeGetAccesses fRes.mpathCnt
            else
              accessRange 0 fRes.mpathCnt ++
                if fibResIdAlloc s.fibRes = none then []
                else
                  fibResObjCreateAccesses (fRes.mpathCnt - 1) ++ rtPrefixTypeGetAccesses fRes.mpathCnt ++
                    rtPrefixTypeGetAccesses (fRes.mpathCnt - 1)

def ntbRouteDeleteAccesses (pfx : NtbRibKey) (s : RouteState) : List Access :=
  match s.rib.lookup pfx with
  | none => []
  | some id =>
    match s.fibRes.lookup id with
    | none => [.null]
    | some fRes => accessRange 0 fRes.mpathCnt ++ rtPrefixTypeGetAccesses fRes.mpathCnt

/-- The deletes of `ntb_route_cleanup`, each in the state that the ones before it leave. -/
def ntbRouteCleanupAccesses (vrfId : VrfId) : List NtbRibKey → RouteState → List Access
  | [], _ => []
  | pfx :: rest, s =>
    if vrfId = pfx.vrfId then
      ntbRouteDeleteAccesses pfx s ++
        match ntbRouteDelete vrfId pfx s with
        | none => []
        | some (s, _) => ntbRouteCleanupAccesses vrfId rest s
    else ntbRouteCleanupAccesses vrfId rest s

def routeCallAccesses (s : RouteState) : RouteCall → List Access
  | .nhopInsert env pfx data ribType => ntbRouteNhopInsertAccesses env pfx data ribType s
  | .nhopDelete _ pfx data ribType => ntbRouteNhopDeleteAccesses pfx data ribType s
  | .delete pfx => ntbRouteDeleteAccesses pfx s
  | .cleanup iterate vrfId => ntbRouteCleanupAccesses vrfId (iterate.keys s.rib) s
  | .neighAddStatic .. => []

/-! ## The functions of `pmd.c` -/

/-- `ip_forward` reads the next hop that the hash selects. -/
def ipForwardAccesses (hash : Nat) (fRes : FibRes) : List Access := [.element (fibResSelectMpath fRes hash)]

/-- `ip_forward_m` that does not return before the end of its loop. -/
def ipForwardMAccesses (fRes : FibRes) : List Access := accessRange 0 fRes.mpathCnt

/-- No result has more next hops than slots, and forwarding with it stays inside them. -/
structure ForwardsInside (s : RouteState) : Prop where
  count : ∀ id fRes, s.fibRes.lookup id = some fRes → fRes.mpathCnt ≤ routeMaxEcmp
  forward : ∀ id fRes hash, s.fibRes.lookup id = some fRes → AllInside routeMaxEcmp (ipForwardAccesses hash fRes)
  forwardM : ∀ id fRes, s.fibRes.lookup id = some fRes → AllInside routeMaxEcmp (ipForwardMAccesses fRes)

/-! ## The bound -/

theorem mpathCnt_le (fRes : FibRes) : fRes.mpathCnt ≤ routeMaxEcmp := fRes.mpathFits

theorem routeMaxEcmp_pos : 1 ≤ routeMaxEcmp := Nat.le_refl 1

theorem inside_of_le {count : Nat} (fits : count ≤ routeMaxEcmp) : AllInside routeMaxEcmp (accessRange 0 count) :=
  allInside_range.mpr (.inr (by omega))

theorem forwardsInside (s : RouteState) : ForwardsInside s where
  count := fun _ fRes _ => mpathCnt_le fRes
  forward := by
    intro _ fRes hash _ access member
    obtain rfl := List.mem_singleton.mp member
    have fits := mpathCnt_le fRes
    show fibResSelectMpath fRes hash < routeMaxEcmp
    unfold fibResSelectMpath
    split
    next some =>
      have selected := Nat.mod_lt hash some
      omega
    next => exact routeMaxEcmp_pos
  forwardM := fun _ fRes _ => inside_of_le (mpathCnt_le fRes)

theorem rtPrefixTypeGet_inside (mpathCnt : Nat) : AllInside routeMaxEcmp (rtPrefixTypeGetAccesses mpathCnt) := by
  unfold rtPrefixTypeGetAccesses
  split
  next => exact inside_of_le routeMaxEcmp_pos
  next => exact allInside_nil _

theorem fibResObjCreate_inside {nhopNum : Nat} :
    AllInside routeMaxEcmp (fibResObjCreateAccesses nhopNum) ↔ nhopNum ≤ routeMaxEcmp := by
  rw [fibResObjCreateAccesses, allInside_append, allInside_range, allInside_range]
  omega

theorem comparedCnt_le (nhops : Table Addr FibNhop) (data : FibNhopEncapData) (mpath : List Addr) :
    comparedCnt nhops data mpath ≤ mpath.length := by
  induction mpath with
  | nil => exact Nat.le_refl 0
  | cons a rest inductionHypothesis =>
    rw [comparedCnt, List.length_cons]
    split
    next => omega
    next => split <;> omega

/-- Of an insert that gets so far, only the stores of `fib_res_obj_create` can leave `mpath[]`. -/
theorem insertNew_inside (env : RouteEnv) (vrfId : VrfId) (data : FibNhopEncapData) (old : Option FibRes)
    (s : RouteState) :
    AllInside routeMaxEcmp (routeNhopInsertNewAccesses env vrfId data old s) ↔
      ((∃ store a, nhopObjCreate env.nhop vrfId data s.store = some (store, .ok a)) → fibResIdAlloc s.fibRes ≠ none →
        old.elim 0 FibRes.mpathCnt + 1 ≤ routeMaxEcmp) := by
  have copied : AllInside routeMaxEcmp (accessRange 0 (old.elim 0 FibRes.mpathCnt)) := by
    cases old with
    | none => exact inside_of_le (Nat.zero_le _)
    | some old => exact inside_of_le (mpathCnt_le old)
  have typed : AllInside routeMaxEcmp (old.elim [] fun old => rtPrefixTypeGetAccesses old.mpathCnt) := by
    cases old with
    | none => exact allInside_nil _
    | some old => exact rtPrefixTypeGet_inside old.mpathCnt
  unfold routeNhopInsertNewAccesses
  split
  next created =>
    by_cases full : fibResIdAlloc s.fibRes = none
    · simp [full, copied]
    · simp [full, copied, typed, created, fibResObjCreate_inside, rtPrefixTypeGet_inside]
  next failed =>
    refine iff_of_true (allInside_nil _) ?_
    rintro ⟨store, a, created⟩
    exact (failed store a created).elim

/-! ## The calls -/

theorem nhopObtainable_iff (env : NhopEnv) (vrfId : VrfId) (data : FibNhopEncapData) {s : RouteState}
    (accounted : Accounted s) :
    (∃ store a, nhopObjCreate env vrfId data s.store = some (store, .ok a)) ↔
      NhopObtainable env vrfId data s.store := by
  rcases nhopObjCreate_outcome env vrfId data accounted.counts accounted.referenced with
    ⟨obtainable, store, a, _, created, _⟩ | ⟨starved, _, _, _, _, failed⟩
  · exact iff_of_true ⟨store, a, created⟩ obtainable
  · refine iff_of_false ?_ starved
    rintro ⟨_, _, created⟩
    cases failed.symm.trans created

/-- The insert stays inside `mpath[]` exactly when it does not overrun. -/
theorem insert_inside (env : RouteEnv) (pfx : NtbRibKey) (data : FibNhopEncapData) (ribType : RibType)
    {s : RouteState} (accounted : Accounted s) :
    AllInside routeMaxEcmp (ntbRouteNhopInsertAccesses env pfx data ribType s) ↔
      ¬ Overruns env pfx data ribType s := by
  unfold ntbRouteNhopInsertAccesses
  cases listed : s.rib.lookup pfx with
  | none =>
    refine iff_of_true ((insertNew_inside ..).mpr fun _ _ => routeMaxEcmp_pos) ?_
    rintro ⟨⟨_, _, present, _⟩, _, _⟩
    cases listed.symm.trans present
  | some id =>
    obtain ⟨_, fRes, a, used, single⟩ := accounted.rib_used pfx id listed
    have full : fRes.mpathCnt = 1 := by rw [FibRes.mpathCnt, single]; rfl
    have compared : AllInside routeMaxEcmp (accessRange 0 (comparedCnt s.store.nhops data fRes.mpath)) :=
      inside_of_le ((comparedCnt_le _ _ _).trans (mpathCnt_le fRes))
    rw [overruns_iff listed used single]
    simp only [used]
    split
    next other => exact iff_of_true (allInside_nil _) fun all => other all.1
    next type =>
      split
      next none =>
        refine iff_of_true (allInside_nil _) fun all => ?_
        rw [fibResMpathNospace, decide_eq_true_eq] at none
        omega
      next space =>
        have room : fRes.mpathCnt < fRes.mpathMax := by simpa [fibResMpathNospace] using space
        rw [full] at room
        rw [allInside_append, and_iff_right compared]
        split
        next different =>
          rw [insertNew_inside, nhopObtainable_iff env.nhop pfx.vrfId data accounted, Option.elim_some, full]
          constructor
          · rintro inside ⟨_, _, _, obtainable, free⟩
            exact absurd (inside obtainable free) (by decide)
          · intro fits obtainable free
            exact (fits ⟨not_not.mp type, room, different, obtainable, free⟩).elim
        next same => exact iff_of_true (allInside_nil _) fun all => same all.2.2.1

theorem delete_inside (pfx : NtbRibKey) {s : RouteState} (accounted : Accounted s) :
    AllInside routeMaxEcmp (ntbRouteDeleteAccesses pfx s) := by
  unfold ntbRouteDeleteAccesses
  cases listed : s.rib.lookup pfx with
  | none => exact allInside_nil _
  | some id =>
    obtain ⟨_, fRes, _, used, _⟩ := accounted.rib_used pfx id listed
    simp only [used]
    exact allInside_append.mpr ⟨inside_of_le (mpathCnt_le fRes), rtPrefixTypeGet_inside _⟩

theorem nhopDelete_inside (pfx : NtbRibKey) (data : FibNhopEncapData) (ribType : RibType) {s : RouteState}
    (accounted : Accounted s) : AllInside routeMaxEcmp (ntbRouteNhopDeleteAccesses pfx data ribType s) := by
  unfold ntbRouteNhopDeleteAccesses
  cases listed : s.rib.lookup pfx with
  | none => exact allInside_nil _
  | some id =>
    obtain ⟨_, fRes, _, used, _⟩ := accounted.rib_used pfx id listed
    have fits := mpathCnt_le fRes
    simp only [used]
    split
    next => exact allInside_nil _
    next =>
      split
      next => exact allInside_nil _
      next fNhop _ =>
        have searched : min (fRes.mpath.idxOf fNhop + 1) fRes.mpathCnt ≤ routeMaxEcmp :=
          (Nat.min_le_right _ _).trans fits
        rw [allInside_append, and_iff_right (inside_of_le searched)]
        split
        next => exact allInside_nil _
        next =>
          split
          next => exact rtPrefixTypeGet_inside _
          next =>
            rw [allInside_append, and_iff_right (inside_of_le fits)]
            split
            next => exact allInside_nil _
            next =>
              simp only [allInside_append, rtPrefixTypeGet_inside, and_true]
              exact fibResObjCreate_inside.mpr (by omega)

theorem cleanup_inside (vrfId : VrfId) (keys : List NtbRibKey) {s : RouteState} (accounted : Accounted s) :
    AllInside routeMaxEcmp (ntbRouteCleanupAccesses vrfId keys s) := by
  induction keys generalizing s with
  | nil => exact allInside_nil _
  | cons pfx rest inductionHypothesis =>
    unfold ntbRouteCleanupAccesses
    split
    next own =>
      rw [allInside_append, and_iff_right (delete_inside pfx accounted), own]
      rcases ntbRouteDelete_cases pfx accounted with ⟨_, result⟩ | ⟨s', result, removed⟩ <;> rw [result]
      · rw [← own]
        exact inductionHypothesis accounted
      · rw [← own]
        exact inductionHypothesis (accounted.removed removed)
    next => exact inductionHypothesis accounted

theorem routeCall_inside {s : RouteState} (accounted : Accounted s) (call : RouteCall) :
    AllInside routeMaxEcmp (routeCallAccesses s call) ↔ call.Fits s := by
  cases call with
  | nhopInsert env pfx data ribType => exact insert_inside env pfx data ribType accounted
  | nhopDelete _ pfx data ribType => exact iff_of_true (nhopDelete_inside pfx data ribType accounted) trivial
  | delete pfx => exact iff_of_true (delete_inside pfx accounted) trivial
  | cleanup iterate vrfId => exact iff_of_true (cleanup_inside vrfId (iterate.keys s.rib) accounted) trivial
  | neighAddStatic => exact iff_of_true (allInside_nil _) trivial

/-- In every run, the route calls and the forwarding between them stay inside `mpath[]` exactly when no insert
    gives a route more next hops than it has slots. -/
theorem mpathBounds_iff (calls : List RouteCall) :
    (Guarded routeStep (fun s call => AllInside routeMaxEcmp (routeCallAccesses s call)) .initial calls ∧
      Always routeStep ForwardsInside .initial calls) ↔
    Guarded routeStep (fun s call => call.Fits s) .initial calls := by
  rw [Guarded.congr (fun _ _ _ => accounted_of_defined) (fun _ call accounted => routeCall_inside accounted call)
    RouteState.initial_accounted]
  refine ⟨And.left, fun fits => ⟨fits, ?_⟩⟩
  have always : Always routeStep Accounted .initial calls :=
    fits.always Accounted (fun _ call accounted fits => routeStep_accounted call accounted fits)
      RouteState.initial_accounted
  exact always.imp fun s _ => forwardsInside s

def insertMroute : RouteCall := .nhopInsert (.granted 1 5 6) (subnet24 1 7) vxlanNhop .mroute

def insertOtherMroute : RouteCall := .nhopInsert (.granted 2 7 8) (subnet24 1 7) otherNhop .mroute

/-- A second next hop of a multicast route is stored in slot 1 of `mpath[]`. -/
theorem second_mroute_nhop_outside :
    ¬ (Guarded routeStep (fun s call => AllInside routeMaxEcmp (routeCallAccesses s call)) .initial
        [insertMroute, insertOtherMroute] ∧
      Always routeStep ForwardsInside .initial [insertMroute, insertOtherMroute]) := by
  rintro ⟨⟨_, rest⟩, _⟩
  have accesses : (routeStep .initial insertMroute).map (fun s => routeCallAccesses s insertOtherMroute) =
      some [.element 0, .element 0, .element 0, .element 0, .element 1, .element 0] := by decide +kernel
  obtain ⟨s, stepped, listed⟩ := Option.map_eq_some_iff.mp accesses
  have inside : AllInside routeMaxEcmp (routeCallAccesses s insertOtherMroute) := (rest s stepped).1
  rw [listed] at inside
  exact Nat.lt_irrefl 1 (inside (.element 1) (by decide))

end Tao.Offload
