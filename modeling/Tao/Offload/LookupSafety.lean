import Tao.Offload.Forwarding
import Tao.Offload.VrfCleanup

/-! # What a route lookup hands on

The FIB of a VRF answers every destination, at worst with the blackhole, which has no next
hop.  `ntb_route_lookup` programs the hardware with the next hop of the answer before its
callers ask whether the answer is the blackhole. -/

namespace Tao.Offload

open Tao.Foundation Tao.Agent Tao.Hal

/-- The conversion to `uint32_t` that `hash % mpath_cnt` makes. -/
def uint32OfInt (hash : Int) : Nat := (BitVec.ofInt 32 hash).toNat

def IsRouted (i : Nat) (dip : Ip4) (s : AgentState) : Prop :=
  rteFibLongest (s.route.fib (i + 1)) (rteBeToCpu32 dip) 32 ≠ none

/-- The lookup has a defined outcome; it leaves the hardware alone when only the blackhole matches; and a
    result that is not a reject has a next hop for every hash. -/
def LookupSafe (duplicate : HalDuplicate) (env : RuleEnv) (i : Nat) (sip dip : Ip4) (flagOfAddDel : Int)
    (s : AgentState) : Prop :=
  ∃ hw fRes ret, ntbRouteLookup duplicate env i sip dip flagOfAddDel s s.hw = some (hw, fRes, ret) ∧
    (¬ IsRouted i dip s → hw = s.hw) ∧
    (fibResIsReject fRes = false → 1 ≤ fRes.mpathCnt ∧
      ∀ hash : Int, fibResSelectMpath fRes (uint32OfInt hash) < fRes.mpathCnt)

/-! ## The results of the FIB -/

/-- Every route of a FIB leads to the result of a key of the VRF. -/
def FibRooted (s : RouteState) : Prop :=
  ∀ vrfId p id, (s.fib vrfId).lookup p = some id →
    ∃ pfx : NtbRibKey, pfx.vrfId = vrfId ∧ pfx.fibPrefix = some p ∧ s.rib.lookup pfx = some id

/-- The blackhole is a reject without next hops. -/
def BlackholeKept (s : RouteState) : Prop :=
  ∃ fRes, s.fibRes.lookup fResBlackhole = some fRes ∧ fRes.mpath = [] ∧ fibResIsReject fRes = true

theorem initial_fibRooted : FibRooted .initial := by
  intro vrfId p id held
  exact absurd (Finmap.mem_of_lookup_eq_some held) Finmap.notMem_empty

theorem initial_blackholeKept : BlackholeKept .initial :=
  ⟨_, Finmap.lookup_insert _, rfl, by decide⟩

theorem FibRooted.inserted {env : RouteEnv} {pfx : NtbRibKey} {data : FibNhopEncapData} {ribType : RibType}
    {s s' : RouteState} (rooted : FibRooted s) (inserted : Inserted env pfx data ribType s s') : FibRooted s' := by
  intro vrfId q id held
  rcases inserted.fib_lookup held with ⟨own, masked, new⟩ | older
  · exact ⟨pfx, own, masked, new⟩
  · obtain ⟨other, own, masked, old⟩ := rooted vrfId q id older
    exact ⟨other, own, masked, inserted.rib_kept old⟩

theorem FibRooted.removed {pfx : NtbRibKey} {s s' : RouteState} (rooted : FibRooted s)
    (removed : Removed pfx s s') : FibRooted s' := by
  intro vrfId q id held
  obtain ⟨older, another⟩ := removed.fib_lookup held
  obtain ⟨other, own, masked, old⟩ := rooted vrfId q id older
  have different : other ≠ pfx := by
    rintro rfl
    exact another own.symm masked
  exact ⟨other, own, masked, removed.rib_kept different old⟩

theorem BlackholeKept.inserted {env : RouteEnv} {pfx : NtbRibKey} {data : FibNhopEncapData} {ribType : RibType}
    {s s' : RouteState} (kept : BlackholeKept s) (inserted : Inserted env pfx data ribType s s') :
    BlackholeKept s' := by
  obtain ⟨_, id, a, oid, _, _, allocated, _, fibRes, _⟩ := inserted
  obtain ⟨fRes, used, rest⟩ := kept
  have different : fResBlackhole ≠ id := by
    rintro rfl
    exact fibResIdAlloc_free allocated (Finmap.mem_of_lookup_eq_some used)
  exact ⟨fRes, by rw [fibRes, Finmap.lookup_insert_of_ne _ different, used], rest⟩

theorem BlackholeKept.removed {pfx : NtbRibKey} {s s' : RouteState} (accounted : Accounted s)
    (kept : BlackholeKept s) (removed : Removed pfx s s') : BlackholeKept s' := by
  obtain ⟨id, _, _, listed, _, _, _, fibRes, _⟩ := removed
  obtain ⟨fRes, used, rest⟩ := kept
  have different : fResBlackhole ≠ id := (accounted.rib_used pfx id listed).1.symm
  exact ⟨fRes, by rw [fibRes, Finmap.lookup_erase_ne different, used], rest⟩

structure LookupReady (s : RouteState) : Prop where
  accounted : Accounted s
  rooted : FibRooted s
  blackhole : BlackholeKept s

theorem routeStep_lookupReady {s s' : RouteState} {call : RouteCall} (ready : LookupReady s)
    (stepped : routeStep s call = some s') : LookupReady s' := by
  have same (t : RouteState) (same : s.Same t) : FibRooted t ∧ BlackholeKept t := by
    unfold FibRooted BlackholeKept
    rw [same.fib, same.rib, same.fibRes]
    exact ⟨ready.rooted, ready.blackhole⟩
  obtain ⟨t, stepped', accounted, rooted, blackhole⟩ := routeStep_invariant
    (fun s => FibRooted s ∧ BlackholeKept s) call ready.accounted (fits_of_defined ready.accounted stepped)
    ⟨ready.rooted, ready.blackhole⟩
    same
    (fun _ _ _ _ _ _ _ inserted => ⟨ready.rooted.inserted inserted, ready.blackhole.inserted inserted⟩)
    (fun _ _ _ accounted both removed => ⟨both.1.removed removed, both.2.removed accounted removed⟩)
    (fun _ _ _ _ _ => ⟨ready.rooted, ready.blackhole⟩)
  obtain rfl := Option.some.inj (stepped.symm.trans stepped')
  exact ⟨accounted, rooted, blackhole⟩

theorem agentStep_lookupReady {duplicate : HalDuplicate} (s : AgentState) (call : AgentCall) (s' : AgentState)
    (ready : LookupReady s.route) (stepped : agentStep duplicate s call = some s') : LookupReady s'.route := by
  rcases agentStep_route stepped with same | ⟨routeCall, called⟩ | ⟨neighCnt, counted⟩
  · rw [same]
    exact ready
  · exact routeStep_lookupReady ready called
  · rw [counted]
    exact ⟨withNeighCnt_accounted ready.accounted neighCnt, ready.rooted, ready.blackhole⟩

theorem reachable_lookupReady {duplicate : HalDuplicate} {calls : List AgentCall} {s : AgentState}
    (reached : run (agentStep duplicate) .initial calls = some s) : LookupReady s.route :=
  run_invariant agentStep_lookupReady
    ⟨RouteState.initial_accounted, initial_fibRooted, initial_blackholeKept⟩ reached

theorem rteFibExact_some {fib : RteFib} {ip : BitVec 32} {depth : Nat} {id : FibResId}
    (found : rteFibExact fib ip depth = some id) : ∃ p, fib.lookup p = some id := by
  obtain ⟨p, _, held⟩ := Option.bind_eq_some_iff.mp found
  exact ⟨p, held⟩

theorem rteFibLongest_some {fib : RteFib} {ip : BitVec 32} {depth : Nat} {id : FibResId}
    (found : rteFibLongest fib ip depth = some id) : ∃ p, fib.lookup p = some id := by
  induction depth with
  | zero => exact rteFibExact_some found
  | succ depth inductionHypothesis =>
    rw [rteFibLongest] at found
    cases exact : rteFibExact fib ip (depth + 1) with
    | none =>
      rw [exact] at found
      exact inductionHypothesis found
    | some id' =>
      rw [exact] at found
      exact rteFibExact_some (exact.trans found)

/-! ## The lookup -/

variable {duplicate : HalDuplicate} {env : RuleEnv} {i : Nat} {sip dip : Ip4} {flagOfAddDel : Int} {s : AgentState}

theorem LookupReady.routed (ready : LookupReady s.route) (routed : IsRouted i dip s) :
    ∃ fRes fNhop, fibResLookup i (rteBeToCpu32 dip) s = some fRes ∧ fRes.mpathCnt = 1 ∧
      mpathFirst s fRes = some fNhop := by
  obtain ⟨id, found⟩ := Option.ne_none_iff_exists'.mp routed
  obtain ⟨p, held⟩ := rteFibLongest_some found
  obtain ⟨pfx, _, _, listed⟩ := ready.rooted _ p id held
  obtain ⟨_, fRes, a, used, single⟩ := ready.accounted.rib_used pfx id listed
  obtain ⟨fNhop, live⟩ := ready.accounted.nhop_live used single
  refine ⟨fRes, fNhop, ?_, by rw [FibRes.mpathCnt, single]; rfl, by rw [mpathFirst, single]; exact live⟩
  rw [fibResLookup, rteFibLookup, found, Option.getD_some, used]

theorem LookupReady.unrouted (ready : LookupReady s.route) (unrouted : ¬ IsRouted i dip s) :
    ∃ fRes, fibResLookup i (rteBeToCpu32 dip) s = some fRes ∧ fibResIsReject fRes = true ∧
      mpathFirst s fRes = none := by
  obtain ⟨fRes, used, empty, reject⟩ := ready.blackhole
  refine ⟨fRes, ?_, reject, by rw [mpathFirst, empty]; rfl⟩
  rw [fibResLookup, rteFibLookup, not_not.mp unrouted, Option.getD_none, used]

theorem ntbRouteLookup_defined (duplicate : HalDuplicate) (env : RuleEnv) (sip : Ip4) (flagOfAddDel : Int)
    {fRes : FibRes} {fNhop : FibNhop} (result : fibResLookup i (rteBeToCpu32 dip) s = some fRes)
    (first : mpathFirst s fRes = some fNhop) (hw : HwTables) :
    ∃ hw' ret, ntbRouteLookup duplicate env i sip dip flagOfAddDel s hw = some (hw', fRes, ret) := by
  simp only [ntbRouteLookup, result, first, Option.map_some]
  split
  next undefined =>
    split at undefined
    next => cases undefined
    next => cases undefined
  next =>
    split
    next => exact ⟨_, _, rfl⟩
    next => exact ⟨_, _, rfl⟩

def RouteEntryDels (env : RuleEnv) (i : Nat) (sip dip : Ip4) (s : AgentState) : Prop :=
  HalDels env.route s.hw.route ⟨dpVrfId i, rteBeToCpu32 sip, rteBeToCpu32 dip⟩

instance (env : RuleEnv) (i : Nat) (sip dip : Ip4) (s : AgentState) : Decidable (RouteEntryDels env i sip dip s) :=
  inferInstanceAs (Decidable (HalDels ..))

/-- Without a next hop the lookup is defined only when it deletes and the hardware refuses. -/
theorem ntbRouteLookup_without_nhop (duplicate : HalDuplicate) (env : RuleEnv) (sip : Ip4) (flagOfAddDel : Int)
    {fRes : FibRes} (result : fibResLookup i (rteBeToCpu32 dip) s = some fRes) (missing : mpathFirst s fRes = none) :
    ntbRouteLookup duplicate env i sip dip flagOfAddDel s s.hw =
      if flagOfAddDel ≠ 0 ∧ ¬ RouteEntryDels env i sip dip s then some (s.hw, fRes, ntbLoadToP4Fail) else none := by
  have failed : ntbLoadToP4Fail < 0 := by decide
  by_cases add : flagOfAddDel = 0
  · simp only [ntbRouteLookup, result, missing, add, if_true, Option.map_none, ne_eq, not_true_eq_false, false_and,
      if_false]
  · by_cases dels : RouteEntryDels env i sip dip s
    · have deleted := halEntryDel_of_dels dels
      simp only [ntbRouteLookup, result, missing, add, if_false, shcHalRouteEntryDel, deleted, Int.lt_irrefl,
        dels, not_true_eq_false, and_false]
    · have refused := halEntryDel_of_refused dels
      simp only [ntbRouteLookup, result, add, if_false, shcHalRouteEntryDel, refused, failed, if_true, dels,
        ne_eq, not_false_eq_true, and_self]

/-- A hash selects one of the next hops, whatever its sign. -/
theorem fibResSelectMpath_lt {fRes : FibRes} (some : 0 < fRes.mpathCnt) (hash : Nat) :
    fibResSelectMpath fRes hash < fRes.mpathCnt := by
  rw [fibResSelectMpath, if_pos some]
  exact Nat.mod_lt hash some

/-- In every reachable state, for every VRF and destination: the lookup is safe exactly when a route covers the
    destination, or the lookup deletes and the hardware does not carry the delete of the route entry out. -/
theorem lookupSafe_iff {calls : List AgentCall} (reached : run (agentStep duplicate) .initial calls = some s)
    (env : RuleEnv) (i : Nat) (sip dip : Ip4) (flagOfAddDel : Int) :
    LookupSafe duplicate env i sip dip flagOfAddDel s ↔
      IsRouted i dip s ∨ flagOfAddDel ≠ 0 ∧ ¬ RouteEntryDels env i sip dip s := by
  have ready := reachable_lookupReady reached
  by_cases routed : IsRouted i dip s
  · obtain ⟨fRes, fNhop, result, one, first⟩ := ready.routed routed
    obtain ⟨hw, ret, defined⟩ := ntbRouteLookup_defined duplicate env sip flagOfAddDel result first s.hw
    have some : 0 < fRes.mpathCnt := by omega
    refine iff_of_true ⟨hw, fRes, ret, defined, fun unrouted => (unrouted routed).elim, fun _ => ⟨some, ?_⟩⟩
      (.inl routed)
    exact fun hash => fibResSelectMpath_lt some (uint32OfInt hash)
  · obtain ⟨fRes, result, reject, missing⟩ := ready.unrouted routed
    have outcome := ntbRouteLookup_without_nhop duplicate env sip flagOfAddDel result missing
    rw [or_iff_right routed]
    constructor
    · rintro ⟨hw, fRes', ret, defined, _⟩
      by_contra undefined
      rw [outcome, if_neg undefined] at defined
      cases defined
    · intro refused
      rw [if_pos refused] at outcome
      refine ⟨s.hw, fRes, _, outcome, fun _ => rfl, fun notReject => ?_⟩
      rw [reject] at notReject
      cases notReject

theorem routed_lookup_safe : run (agentStep .refused) .initial twoRoutes = some twoRoutesState ∧
    LookupSafe .refused RuleEnv.accepts 0 0x0100090a 0x0107000a 0 twoRoutesState :=
  ⟨twoRoutes_reached, (lookupSafe_iff twoRoutes_reached _ _ _ _ _).mpr (.inl (by unfold IsRouted; decide +kernel))⟩

/-- No route covers 10.0.99.1, and the next hop of the blackhole is read for it. -/
theorem unrouted_lookup_unsafe : run (agentStep .refused) .initial twoRoutes = some twoRoutesState ∧
    ¬ LookupSafe .refused RuleEnv.accepts 0 0x0100090a 0x0163000a 0 twoRoutesState := by
  refine ⟨twoRoutes_reached, ?_⟩
  rintro ⟨hw, fRes, ret, defined, _⟩
  have undefined : (ntbRouteLookup .refused RuleEnv.accepts 0 0x0100090a 0x0163000a 0 twoRoutesState
      twoRoutesState.hw).isNone := by decide +kernel
  rw [defined] at undefined
  cases undefined

end Tao.Offload
