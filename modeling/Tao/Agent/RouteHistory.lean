import Tao.Agent.FibAgreement
import Tao.Agent.NhopIdentity
import Tao.Foundation.Transcript

/-! # What the callers of the route calls can rely on

A caller knows its calls and the codes they returned.  From these alone it can tell which
routes there are, and, as long as no prefix is written in two ways, which route an address
is looked up to: the longest one of its VRF that covers the address. -/

namespace Tao.Agent

open Tao.Foundation

/-! ## Routes as the callers know them -/

structure InstalledRoute where
  nhop : NtbNhopHashKey
  ribType : RibType
  deriving DecidableEq

/-- The route that an insert asks for.  Whatever is not multicast is stored as the default type. -/
def InstalledRoute.of (data : FibNhopEncapData) (ribType : RibType) : InstalledRoute :=
  ⟨data.key, if ribType = .mroute then .mroute else .default⟩

abbrev RouteMap := NtbRibKey → Option InstalledRoute

/-- What a call with its return code tells about the routes. -/
def RouteMap.told (m : RouteMap) : RouteCall × Int → RouteMap
  | (.nhopInsert _ pfx data ribType, ret) =>
    if ret = 0 ∧ m pfx = none then Function.update m pfx (some (.of data ribType)) else m
  | (.nhopDelete _ pfx data ribType, _) =>
    if m pfx = some ⟨data.key, ribType⟩ then Function.update m pfx none else m
  | (.delete pfx, _) => Function.update m pfx none
  | (.cleanup _ vrfId, _) => fun pfx => if pfx.vrfId = vrfId then none else m pfx
  | (.neighAddStatic _ _ _ _, _) => m

def RouteMap.ofTranscript (entries : List (RouteCall × Int)) : RouteMap :=
  entries.foldl RouteMap.told fun _ => none

/-! ## The routes that are there -/

def routeAnswer (s : RouteState) : RouteCall → Option (RouteState × Int)
  | .nhopInsert env pfx data ribType => ntbRouteNhopInsert env pfx.vrfId pfx data ribType s
  | .nhopDelete env pfx data ribType => ntbRouteNhopDelete env pfx.vrfId pfx data ribType s
  | .delete pfx => ntbRouteDelete pfx.vrfId pfx s
  | .cleanup iterate vrfId => (ntbRouteCleanup iterate vrfId s).map fun s => (s, 0)
  | .neighAddStatic env vrfId gw hwAddr =>
    let (neigh, ret) := olNeighAddStatic env vrfId gw hwAddr s.store.neigh
    some ({ s with store := { s.store with neigh := neigh } }, ret)

def RouteState.routeOf (s : RouteState) (fRes : FibRes) : Option InstalledRoute :=
  (fRes.mpath.head?.bind s.store.nhops.lookup).map fun fNhop => ⟨fNhop.key, fibResRtypeGet fRes⟩

def RouteState.installed (s : RouteState) : RouteMap := fun pfx =>
  ((s.rib.lookup pfx).bind s.fibRes.lookup).bind s.routeOf

/-- The route of the result that `ntb_route_lookup` finds for an address in the order of the host. -/
def RouteState.routeFor (s : RouteState) (vrfId : VrfId) (dip : BitVec 32) : Option InstalledRoute :=
  (s.fibRes.lookup (rteFibLookup (s.fib vrfId) fResBlackhole dip)).bind s.routeOf

theorem routeAnswer_step (s : RouteState) (call : RouteCall) :
    routeStep s call = (routeAnswer s call).map Prod.fst := by
  cases call <;> simp [routeStep, routeAnswer, Option.map_map, Function.comp_def]

theorem SingleRoute.routeOf_eq {s : RouteState} {pfx : NtbRibKey} {id : FibResId} {fRes : FibRes} {a : Addr}
    {fNhop : FibNhop} (route : SingleRoute s pfx id fRes a fNhop) :
    s.routeOf fRes = some ⟨fNhop.key, fibResRtypeGet fRes⟩ := by
  simp [RouteState.routeOf, route.single, route.held]

theorem SingleRoute.installed_eq {s : RouteState} {pfx : NtbRibKey} {id : FibResId} {fRes : FibRes} {a : Addr}
    {fNhop : FibNhop} (route : SingleRoute s pfx id fRes a fNhop) :
    s.installed pfx = some ⟨fNhop.key, fibResRtypeGet fRes⟩ := by
  simp [RouteState.installed, route.listed, route.used, route.routeOf_eq]

theorem installed_of_absent {s : RouteState} {pfx : NtbRibKey} (absent : s.rib.lookup pfx = none) :
    s.installed pfx = none := by
  simp [RouteState.installed, absent]

theorem RouteState.Same.installed {s s' : RouteState} (same : s.Same s') : s'.installed = s.installed := by
  have results : s'.routeOf = s.routeOf := by
    funext fRes
    simp only [RouteState.routeOf, same.store.nhops]
  funext pfx
  simp only [RouteState.installed, results, same.rib, same.fibRes]

/-! ## What one call does -/

theorem nhopObjCreate_keys {env : NhopEnv} {vrfId : VrfId} {data : FibNhopEncapData} {s s' : NhopStore} {a b : Addr}
    {fNhop fNhop' : FibNhop} (created : nhopObjCreate env vrfId data s = some (s', .ok a))
    (before : s.nhops.lookup b = some fNhop) (later : s'.nhops.lookup b = some fNhop') : fNhop'.key = fNhop.key := by
  cases nhopObjCreate_path created with
  | shared found held =>
    rcases Table.lookup_insert_eq_some.mp later with ⟨rfl, rfl⟩ | ⟨_, kept⟩
    · cases held.symm.trans before
      rfl
    · cases kept.symm.trans before
      rfl
  | created absent memory room neighbour answer =>
    rcases Table.lookup_insert_eq_some.mp later with ⟨rfl, _⟩ | ⟨_, kept⟩
    · -- the memory of the new next hop was not in use
      exact absurd (Finmap.mem_of_lookup_eq_some before) (rteZmalloc_some.mp memory).2
    · cases kept.symm.trans before
      rfl

/-- A route that keeps its slot is still there when its next hop keeps its key. -/
theorem SingleRoute.installed_kept {s s' : RouteState} {pfx : NtbRibKey} {id : FibResId} {fRes : FibRes} {a : Addr}
    {fNhop : FibNhop} (route : SingleRoute s pfx id fRes a fNhop) (accounted : Accounted s')
    (listed : s'.rib.lookup pfx = some id) (used : s'.fibRes.lookup id = some fRes)
    (keys : ∀ fNhop', s'.store.nhops.lookup a = some fNhop' → fNhop'.key = fNhop.key) :
    s'.installed pfx = s.installed pfx := by
  obtain ⟨fRes', b, fNhop', route'⟩ := accounted.singleRoute listed
  obtain rfl := Option.some.inj (used.symm.trans route'.used)
  obtain rfl : a = b := List.singleton_inj.mp (route.single.symm.trans route'.single)
  rw [route.installed_eq, route'.installed_eq, keys fNhop' route'.held]

theorem Inserted.installed {env : RouteEnv} {pfx : NtbRibKey} {data : FibNhopEncapData} {ribType : RibType}
    {s s' : RouteState} (accounted : Accounted s) (inserted : Inserted env pfx data ribType s s') :
    s'.installed = Function.update s.installed pfx (some (.of data ribType)) := by
  have accounted' := accounted.inserted inserted
  have has := inserted.hasNhop accounted
  obtain ⟨absent, id, a, oid, p, created, allocated, masked, fibRes, rib, _⟩ := inserted
  funext other
  by_cases own : other = pfx
  · subst own
    have listed : s'.rib.lookup other = some id := by rw [rib, Finmap.lookup_insert]
    have slot : s'.fibRes.lookup id = some (fibResSingle oid a ribType) := by rw [fibRes, Finmap.lookup_insert]
    obtain ⟨fRes, b, fNhop, route⟩ := accounted'.singleRoute listed
    obtain rfl := Option.some.inj (slot.symm.trans route.used)
    have type : fibResRtypeGet (fibResSingle oid a ribType) = if ribType = .mroute then .mroute else .default := by
      cases ribType <;> simp [fibResSingle, fibResMdSet, fibResRtypeGet, frfMroute]
    rw [Function.update_self, route.installed_eq, route.hasNhop_iff.mp has, type, InstalledRoute.of]
  · rw [Function.update_of_ne own]
    cases listed : s.rib.lookup other with
    | none =>
      have absent' : s'.rib.lookup other = none := by rw [rib, Finmap.lookup_insert_of_ne _ own, listed]
      rw [installed_of_absent listed, installed_of_absent absent']
    | some id' =>
      obtain ⟨fRes, b, fNhop, route⟩ := accounted.singleRoute listed
      have otherSlot : id' ≠ id := by
        rintro rfl
        exact fibResIdAlloc_free allocated (Finmap.mem_of_lookup_eq_some route.used)
      exact route.installed_kept accounted' (by rw [rib, Finmap.lookup_insert_of_ne _ own, listed])
        (by rw [fibRes, Finmap.lookup_insert_of_ne _ otherSlot, route.used])
        (fun fNhop' later => nhopObjCreate_keys created route.held later)

theorem Removed.installed {pfx : NtbRibKey} {s s' : RouteState} (accounted : Accounted s)
    (removed : Removed pfx s s') : s'.installed = Function.update s.installed pfx none := by
  have accounted' := accounted.removed removed
  obtain ⟨id, fRes, a, listed, used, single, deleted, fibRes, rib, _⟩ := removed
  funext other
  by_cases own : other = pfx
  · subst own
    rw [Function.update_self, installed_of_absent (by rw [rib, Finmap.lookup_erase])]
  · rw [Function.update_of_ne own]
    cases there : s.rib.lookup other with
    | none =>
      rw [installed_of_absent there, installed_of_absent (by rw [rib, Finmap.lookup_erase_ne own, there])]
    | some id' =>
      obtain ⟨fRes', b, fNhop, route⟩ := accounted.singleRoute there
      have otherSlot : id' ≠ id := by
        rintro rfl
        exact own (accounted.rib_injective other pfx id' there listed)
      refine route.installed_kept accounted' (by rw [rib, Finmap.lookup_erase_ne own, there])
        (by rw [fibRes, Finmap.lookup_erase_ne otherSlot, route.used]) fun fNhop' later => ?_
      obtain ⟨old, before, recounted⟩ := nhopObjDelete_nhops accounted.counts deleted later
      rw [recounted, Option.some.inj (route.held.symm.trans before)]
      rfl

/-- `ntb_route_nhop_delete` deletes exactly the next hop and type that the route was inserted with. -/
theorem deletesNhop_iff {s : RouteState} (accounted : Accounted s) {pfx : NtbRibKey} {data : FibNhopEncapData}
    {ribType : RibType} : DeletesNhop pfx data ribType s ↔ s.installed pfx = some ⟨data.key, ribType⟩ := by
  cases listed : s.rib.lookup pfx with
  | none =>
    rw [installed_of_absent listed]
    refine iff_of_false ?_ (Option.some_ne_none _).symm
    rintro ⟨id, _, _, found, _⟩
    cases listed.symm.trans found
  | some id =>
    obtain ⟨fRes, a, fNhop, route⟩ := accounted.singleRoute listed
    rw [route.installed_eq, Option.some.injEq, InstalledRoute.mk.injEq]
    constructor
    · rintro ⟨id', fRes', b, listed', used, type, stored, member⟩
      obtain rfl := Option.some.inj (listed.symm.trans listed')
      obtain rfl := Option.some.inj (route.used.symm.trans used)
      rw [route.single, List.mem_singleton] at member
      subst member
      obtain ⟨fNhop', held, key⟩ := accounted.counts.stored data.key b stored
      obtain rfl := Option.some.inj (route.held.symm.trans held)
      exact ⟨key, type⟩
    · rintro ⟨key, type⟩
      have stored := (accounted.counts.live a fNhop route.held).1
      rw [key] at stored
      exact ⟨id, fRes, a, listed, route.used, type, stored, by simp [route.single]⟩

theorem insert_told (env : RouteEnv) (pfx : NtbRibKey) (data : FibNhopEncapData) (ribType : RibType)
    {s s' : RouteState} {ret : Int} (accounted : Accounted s)
    (answered : ntbRouteNhopInsert env pfx.vrfId pfx data ribType s = some (s', ret)) :
    s'.installed =
      if ret = 0 ∧ s.installed pfx = none then Function.update s.installed pfx (some (.of data ribType))
      else s.installed := by
  cases listed : s.rib.lookup pfx with
  | none =>
    rw [installed_of_absent listed]
    rw [ntbRouteNhopInsert, listed] at answered
    obtain ⟨next, code, result, ⟨_, negative, same⟩ | ⟨_, rfl, new⟩⟩ :=
      routeNhopInsertNew_absent env data ribType accounted listed <;>
      obtain ⟨rfl, rfl⟩ := Prod.mk.inj (Option.some.inj (answered.symm.trans result))
    · rw [if_neg (fun zero => absurd zero.1 (by omega)), same.installed]
    · rw [if_pos ⟨rfl, rfl⟩, new.installed accounted]
  | some id =>
    obtain ⟨fRes, a, fNhop, route⟩ := accounted.singleRoute listed
    rw [if_neg (fun both => by rw [route.installed_eq] at both; cases both.2)]
    rcases ntbRouteNhopInsert_cases env pfx data ribType accounted with
      ⟨_, undefined⟩ | ⟨_, next, code, result, ⟨_, _, same⟩ | ⟨_, _, rfl⟩ | ⟨enters, _⟩⟩
    · cases answered.symm.trans undefined
    · obtain ⟨rfl, _⟩ := Prod.mk.inj (Option.some.inj (answered.symm.trans result))
      exact same.installed
    · obtain ⟨rfl, _⟩ := Prod.mk.inj (Option.some.inj (answered.symm.trans result))
      rfl
    · cases enters.absent.symm.trans listed

/-- Inside the loop of the clean-up, when the iteration is past the keys `done`. -/
structure CleanedSoFar (vrfId : VrfId) (s : RouteState) (done : List NtbRibKey) (t : RouteState) : Prop where
  accounted : Accounted t
  left : t.installed = fun pfx => if pfx.vrfId = vrfId ∧ pfx ∈ done then none else s.installed pfx

theorem CleanedSoFar.step {vrfId : VrfId} {s t : RouteState} {done : List NtbRibKey}
    (cleaned : CleanedSoFar vrfId s done t) (pfx : NtbRibKey) :
    ∃ t', (if vrfId = pfx.vrfId then (ntbRouteDelete vrfId pfx t).map Prod.fst else some t) = some t' ∧
      CleanedSoFar vrfId s (pfx :: done) t' := by
  obtain ⟨accounted, left⟩ := cleaned
  by_cases own : vrfId = pfx.vrfId
  · rw [if_pos own, own]
    rcases ntbRouteDelete_cases pfx accounted with ⟨absent, result⟩ | ⟨t', result, removed⟩
    · refine ⟨t, by rw [result]; rfl, accounted, funext fun other => ?_⟩
      by_cases same : other = pfx
      · subst same
        simp [installed_of_absent absent]
      · simp [left, own, same]
    · refine ⟨t', by rw [result]; rfl, accounted.removed removed, funext fun other => ?_⟩
      rw [removed.installed accounted, left]
      by_cases same : other = pfx
      · simp [same]
      · simp [own, same]
  · refine ⟨t, if_neg own, accounted, left.trans (funext fun other => ?_)⟩
    have elsewhere : other.vrfId = vrfId → other ≠ pfx := by
      rintro same rfl
      exact own same.symm
    by_cases same : other.vrfId = vrfId
    · simp [same, elsewhere same]
    · simp [same]

/-- The clean-up takes the routes of the VRF away, in whatever order it comes by them. -/
theorem cleanup_installed (iterate : RteHashIterate) (vrfId : VrfId) {s : RouteState} (accounted : Accounted s) :
    ∃ s', ntbRouteCleanup iterate vrfId s = some s' ∧
      s'.installed = fun pfx => if pfx.vrfId = vrfId then none else s.installed pfx := by
  have start : CleanedSoFar vrfId s [] s := ⟨accounted, by simp⟩
  obtain ⟨s', reached, _, left⟩ := foldlM_invariant_done (CleanedSoFar vrfId s) (l := iterate.keys s.rib)
    (fun _ pfx _ _ cleaned => cleaned.step pfx) start
  refine ⟨s', reached, left.trans (funext fun pfx => ?_)⟩
  by_cases listed : pfx ∈ s.rib
  · simp [(iterate.mem_keys s.rib pfx).mpr listed]
  · simp [installed_of_absent (Finmap.lookup_eq_none.mpr listed)]

theorem routeAnswer_told (s : RouteState) (call : RouteCall) (s' : RouteState) (ret : Int) (accounted : Accounted s)
    (answered : routeAnswer s call = some (s', ret)) :
    Accounted s' ∧ s'.installed = s.installed.told (call, ret) := by
  refine ⟨@accounted_of_defined _ _ call accounted (by rw [routeAnswer_step, answered, Option.map_some]), ?_⟩
  cases call with
  | nhopInsert env pfx data ribType => exact insert_told env pfx data ribType accounted answered
  | nhopDelete env pfx data ribType =>
    rw [RouteMap.told]
    rcases ntbRouteNhopDelete_cases env pfx data ribType accounted with ⟨kept, code, result⟩ | ⟨deletes, t, result, removed⟩ <;>
      obtain ⟨rfl, _⟩ := Prod.mk.inj (Option.some.inj (answered.symm.trans result))
    · rw [if_neg (mt (deletesNhop_iff accounted).mpr kept)]
    · rw [if_pos ((deletesNhop_iff accounted).mp deletes), removed.installed accounted]
  | delete pfx =>
    rw [RouteMap.told]
    rcases ntbRouteDelete_cases pfx accounted with ⟨absent, result⟩ | ⟨t, result, removed⟩ <;>
      obtain ⟨rfl, _⟩ := Prod.mk.inj (Option.some.inj (answered.symm.trans result))
    · exact (Function.update_eq_self_iff.mpr (installed_of_absent absent).symm).symm
    · exact removed.installed accounted
  | cleanup iterate vrfId =>
    obtain ⟨t, result, left⟩ := cleanup_installed iterate vrfId accounted
    rw [routeAnswer, result, Option.map_some] at answered
    obtain ⟨rfl, _⟩ := Prod.mk.inj (Option.some.inj answered)
    exact left
  | neighAddStatic env vrfId gw hwAddr =>
    obtain ⟨rfl, _⟩ := Prod.mk.inj (Option.some.inj answered)
    rfl

/-- The routes that are there are those that the callers were told of. -/
theorem installed_of_transcript {calls : List RouteCall} {s : RouteState} {entries : List (RouteCall × Int)}
    (reached : transcript routeAnswer .initial calls = some (s, entries)) :
    Accounted s ∧ s.installed = RouteMap.ofTranscript entries := by
  have start : RouteState.initial.installed = fun _ => none := funext fun _ => installed_of_absent rfl
  rw [RouteMap.ofTranscript, ← start]
  exact transcript_view (fun s call s' ret accounted (_ : True) => routeAnswer_told s call s' ret accounted)
    RouteState.initial_accounted (fun _ _ => trivial) reached

/-! ## Longest-prefix match -/

def NtbRibKey.Covers (pfx : NtbRibKey) (dip : BitVec 32) : Prop :=
  pfx.prefixlen.toNat ≤ 32 ∧
    rteBeToCpu32 pfx.prefix4 &&& prefixMask pfx.prefixlen.toNat = dip &&& prefixMask pfx.prefixlen.toNat

/-- No route of the VRF that covers the address is longer. -/
structure RouteMap.Longest (m : RouteMap) (vrfId : VrfId) (dip : BitVec 32) (pfx : NtbRibKey) : Prop where
  installed : m pfx ≠ none
  own : pfx.vrfId = vrfId
  covers : pfx.Covers dip
  longest : ∀ other, m other ≠ none → other.vrfId = vrfId → other.Covers dip →
    other.prefixlen.toNat ≤ pfx.prefixlen.toNat

def insertedKeys (calls : List RouteCall) : List NtbRibKey :=
  calls.filterMap fun
    | .nhopInsert _ pfx _ _ => some pfx
    | _ => none

/-- No prefix of a VRF is inserted under two keys. -/
def OneSpelling (keys : List NtbRibKey) : Prop :=
  ∀ pfx ∈ keys, ∀ other ∈ keys, other.vrfId = pfx.vrfId → other.fibPrefix = pfx.fibPrefix → other = pfx

theorem mask_eq_some {ip : BitVec 32} {depth : Nat} {p : FibPrefix} :
    FibPrefix.mask ip depth = some p ↔ depth ≤ 32 ∧ p.depth = depth ∧ p.addr = ip &&& prefixMask depth := by
  unfold FibPrefix.mask
  split
  next fits =>
    rw [Option.some.injEq]
    constructor
    · rintro rfl
      exact ⟨fits, rfl, rfl⟩
    · rintro ⟨_, rfl, addr⟩
      cases p
      simp_all
  next long => simp [long]

theorem covers_iff {pfx : NtbRibKey} {dip : BitVec 32} :
    pfx.Covers dip ↔ ∃ p, pfx.fibPrefix = some p ∧ FibPrefix.mask dip pfx.prefixlen.toNat = some p := by
  simp only [NtbRibKey.fibPrefix, mask_eq_some, NtbRibKey.Covers]
  constructor
  · rintro ⟨fits, same⟩
    refine ⟨⟨dip &&& prefixMask pfx.prefixlen.toNat, pfx.prefixlen.toNat, fits, ?_⟩, ⟨fits, rfl, same.symm⟩, fits, rfl, rfl⟩
    rw [BitVec.and_assoc, BitVec.and_self]
  · rintro ⟨p, ⟨fits, _, own⟩, _, _, masked⟩
    exact ⟨fits, own.symm.trans masked⟩

theorem rteFibLongest_eq_none {fib : RteFib} {ip : BitVec 32} {depth : Nat} :
    rteFibLongest fib ip depth = none ↔ ∀ k ≤ depth, rteFibExact fib ip k = none := by
  induction depth with
  | zero => simp [rteFibLongest]
  | succ depth inductionHypothesis =>
    rw [rteFibLongest]
    cases exact : rteFibExact fib ip (depth + 1) with
    | some id =>
      refine iff_of_false (by simp) fun missing => ?_
      cases exact.symm.trans (missing (depth + 1) (Nat.le_refl _))
    | none =>
      refine inductionHypothesis.trans ⟨fun missing k low => ?_, fun missing k low => missing k (Nat.le_succ_of_le low)⟩
      rcases Nat.le_succ_iff.mp low with less | rfl
      · exact missing k less
      · exact exact

theorem rteFibLongest_eq_some {fib : RteFib} {ip : BitVec 32} {depth : Nat} {id : FibResId} :
    rteFibLongest fib ip depth = some id ↔ ∃ d ≤ depth, rteFibExact fib ip d = some id ∧
      ∀ k ≤ depth, rteFibExact fib ip k ≠ none → k ≤ d := by
  induction depth with
  | zero => simp [rteFibLongest]
  | succ depth inductionHypothesis =>
    rw [rteFibLongest]
    cases exact : rteFibExact fib ip (depth + 1) with
    | some id' =>
      constructor
      · intro same
        exact ⟨depth + 1, Nat.le_refl _, exact.trans same, fun k low _ => low⟩
      · rintro ⟨d, low, found, longest⟩
        obtain rfl : d = depth + 1 :=
          Nat.le_antisymm low (longest (depth + 1) (Nat.le_refl _) (by rw [exact]; exact Option.some_ne_none id'))
        exact exact.symm.trans found
    | none =>
      refine inductionHypothesis.trans ⟨?_, ?_⟩
      · rintro ⟨d, low, found, longest⟩
        refine ⟨d, Nat.le_succ_of_le low, found, fun k low present => ?_⟩
        rcases Nat.le_succ_iff.mp low with less | rfl
        · exact longest k less present
        · exact absurd exact present
      · rintro ⟨d, low, found, longest⟩
        refine ⟨d, ?_, found, fun k low => longest k (Nat.le_succ_of_le low)⟩
        rcases Nat.le_succ_iff.mp low with less | rfl
        · exact less
        · cases exact.symm.trans found

theorem Accounted.installed_ne_none_iff {s : RouteState} (accounted : Accounted s) {pfx : NtbRibKey} :
    s.installed pfx ≠ none ↔ ∃ id, s.rib.lookup pfx = some id := by
  cases listed : s.rib.lookup pfx with
  | none => simp [installed_of_absent listed]
  | some id =>
    obtain ⟨fRes, a, fNhop, route⟩ := accounted.singleRoute listed
    simp [route.installed_eq]

theorem FibAgrees.exact_eq_some {s : RouteState} (agrees : FibAgrees s) {vrfId : VrfId} {dip : BitVec 32} {depth : Nat}
    {id : FibResId} : rteFibExact (s.fib vrfId) dip depth = some id ↔
      ∃ pfx, pfx.vrfId = vrfId ∧ pfx.prefixlen.toNat = depth ∧ pfx.Covers dip ∧ s.rib.lookup pfx = some id := by
  simp only [rteFibExact, Option.bind_eq_some_iff, agrees.route, covers_iff]
  constructor
  · rintro ⟨p, masked, pfx, own, held, listed⟩
    obtain ⟨_, depth_eq, _⟩ := mask_eq_some.mp masked
    obtain ⟨_, length, _⟩ := mask_eq_some.mp held
    have same : pfx.prefixlen.toNat = depth := length.symm.trans depth_eq
    exact ⟨pfx, own, same, ⟨p, held, by rw [same]; exact masked⟩, listed⟩
  · rintro ⟨pfx, own, rfl, ⟨p, held, masked⟩, listed⟩
    exact ⟨p, masked, pfx, own, held, listed⟩

section Lookup

variable {s : RouteState} {vrfId : VrfId} {dip : BitVec 32} (accounted : Accounted s) (agrees : FibAgrees s)
include accounted agrees

theorem longest_iff {pfx : NtbRibKey} : s.installed.Longest vrfId dip pfx ↔
    pfx.vrfId = vrfId ∧ pfx.Covers dip ∧
      ∃ id, s.rib.lookup pfx = some id ∧ rteFibLongest (s.fib vrfId) dip 32 = some id := by
  constructor
  · rintro ⟨installed, own, covers, longest⟩
    obtain ⟨id, listed⟩ := accounted.installed_ne_none_iff.mp installed
    refine ⟨own, covers, id, listed, rteFibLongest_eq_some.mpr ⟨pfx.prefixlen.toNat, covers.1, ?_, ?_⟩⟩
    · exact agrees.exact_eq_some.mpr ⟨pfx, own, rfl, covers, listed⟩
    · intro k _ present
      obtain ⟨id', found⟩ := Option.ne_none_iff_exists'.mp present
      obtain ⟨other, otherOwn, rfl, otherCovers, otherListed⟩ := agrees.exact_eq_some.mp found
      exact longest other (accounted.installed_ne_none_iff.mpr ⟨id', otherListed⟩) otherOwn otherCovers
  · rintro ⟨own, covers, id, listed, found⟩
    obtain ⟨depth, _, exact, longest⟩ := rteFibLongest_eq_some.mp found
    obtain ⟨held, heldOwn, rfl, _, heldListed⟩ := agrees.exact_eq_some.mp exact
    -- no two keys share a result
    obtain rfl := accounted.rib_injective held pfx id heldListed listed
    refine ⟨accounted.installed_ne_none_iff.mpr ⟨id, listed⟩, own, covers, fun other there otherOwn otherCovers => ?_⟩
    obtain ⟨id', otherListed⟩ := accounted.installed_ne_none_iff.mp there
    refine longest other.prefixlen.toNat otherCovers.1 ?_
    rw [agrees.exact_eq_some.mpr ⟨other, otherOwn, rfl, otherCovers, otherListed⟩]
    exact Option.some_ne_none id'

theorem routeFor_longest {pfx : NtbRibKey} (longest : s.installed.Longest vrfId dip pfx) :
    s.routeFor vrfId dip = s.installed pfx := by
  obtain ⟨_, _, id, listed, found⟩ := (longest_iff accounted agrees).mp longest
  rw [RouteState.routeFor, rteFibLookup, found, Option.getD_some, RouteState.installed, listed, Option.bind_some]

/-- An address that no route covers is looked up to the blackhole. -/
theorem routeFor_cases : (∃ pfx, s.installed.Longest vrfId dip pfx) ∨
    s.routeFor vrfId dip = none ∧ ∀ pfx, s.installed pfx ≠ none → pfx.vrfId = vrfId → ¬ pfx.Covers dip := by
  cases found : rteFibLongest (s.fib vrfId) dip 32 with
  | some id =>
    obtain ⟨_, _, exact, _⟩ := rteFibLongest_eq_some.mp found
    obtain ⟨pfx, own, _, covers, listed⟩ := agrees.exact_eq_some.mp exact
    exact .inl ⟨pfx, (longest_iff accounted agrees).mpr ⟨own, covers, id, listed, found⟩⟩
  | none =>
    obtain ⟨fRes, used, empty⟩ := accounted.blackhole
    have nowhere : s.routeFor vrfId dip = none := by
      rw [RouteState.routeFor, rteFibLookup, found, Option.getD_none, used]
      simp [RouteState.routeOf, empty]
    refine .inr ⟨nowhere, fun pfx installed own covers => ?_⟩
    obtain ⟨id, listed⟩ := accounted.installed_ne_none_iff.mp installed
    have missing := rteFibLongest_eq_none.mp found pfx.prefixlen.toNat covers.1
    cases missing.symm.trans (agrees.exact_eq_some.mpr ⟨pfx, own, rfl, covers, listed⟩)

end Lookup

/-- A lookup in the VRF answers as longest-prefix match on the routes does. -/
structure LooksUpLongest (m : RouteMap) (s : RouteState) (vrfId : VrfId) (dip : BitVec 32) : Prop where
  found : ∀ route, s.routeFor vrfId dip = some route ↔ ∃ pfx, m.Longest vrfId dip pfx ∧ m pfx = some route
  missing : s.routeFor vrfId dip = none ↔ ∀ pfx, m pfx ≠ none → pfx.vrfId = vrfId → ¬ pfx.Covers dip

theorem looksUpLongest {s : RouteState} (accounted : Accounted s) (agrees : FibAgrees s) (vrfId : VrfId)
    (dip : BitVec 32) : LooksUpLongest s.installed s vrfId dip := by
  rcases @routeFor_cases s vrfId dip accounted agrees with ⟨pfx, longest⟩ | ⟨lost, uncovered⟩
  · have followed := routeFor_longest accounted agrees longest
    refine ⟨fun route => ⟨fun found => ⟨pfx, longest, followed.symm.trans found⟩, ?_⟩, ?_⟩
    · rintro ⟨other, otherLongest, installed⟩
      exact (routeFor_longest accounted agrees otherLongest).trans installed
    · exact iff_of_false (followed ▸ longest.installed)
        fun uncovered => uncovered pfx longest.installed longest.own longest.covers
  · refine ⟨fun route => iff_of_false (by simp [lost]) ?_, iff_of_true lost uncovered⟩
    rintro ⟨pfx, longest, _⟩
    exact uncovered pfx longest.installed longest.own longest.covers

/-- What keeps RIB and FIB in agreement along a run that inserts certain keys only. -/
structure Spelled (keys : List NtbRibKey) (s : RouteState) : Prop where
  accounted : Accounted s
  agrees : FibAgrees s
  listed : ∀ pfx id, s.rib.lookup pfx = some id → pfx ∈ keys

theorem Spelled.inserted {keys : List NtbRibKey} {env : RouteEnv} {pfx : NtbRibKey} {data : FibNhopEncapData}
    {ribType : RibType} {s s' : RouteState} (spelled : Spelled keys s) (oneSpelling : OneSpelling keys) (key : pfx ∈ keys)
    (inserted : Inserted env pfx data ribType s s') :
    FibAgrees s' ∧ ∀ other id, s'.rib.lookup other = some id → other ∈ keys := by
  obtain ⟨absent, result⟩ := inserted
  refine ⟨spelled.agrees.inserted ⟨absent, result⟩ fun other id there own same => ?_, fun other id there => ?_⟩
  · obtain rfl := oneSpelling pfx key other (spelled.listed other id there) own same
    cases absent.symm.trans there
  · obtain ⟨_, _, _, _, _, _, _, _, rib, _⟩ := result
    rw [rib] at there
    rcases Table.lookup_insert_eq_some.mp there with ⟨rfl, _⟩ | ⟨_, older⟩
    · exact key
    · exact spelled.listed other id older

theorem routeStep_spelled {keys : List NtbRibKey} (oneSpelling : OneSpelling keys) {s s' : RouteState}
    {call : RouteCall} (inserts : ∀ env pfx data ribType, call = .nhopInsert env pfx data ribType → pfx ∈ keys)
    (spelled : Spelled keys s) (stepped : routeStep s call = some s') : Spelled keys s' := by
  have removed : ∀ t t' pfx, Accounted t → (FibAgrees t ∧ ∀ other id, t.rib.lookup other = some id → other ∈ keys) →
      Removed pfx t t' → FibAgrees t' ∧ ∀ other id, t'.rib.lookup other = some id → other ∈ keys := by
    intro t t' pfx accounted both removed
    refine ⟨both.1.removed accounted removed, fun other id there => ?_⟩
    obtain ⟨_, _, _, _, _, _, _, _, rib, _⟩ := removed
    rw [rib, Table.lookup_erase_eq_some] at there
    exact both.2 other id there.2
  obtain ⟨t, stepped', accounted, agrees, listed⟩ := routeStep_invariant
    (fun s => FibAgrees s ∧ ∀ pfx id, s.rib.lookup pfx = some id → pfx ∈ keys) call spelled.accounted
    (fits_of_defined spelled.accounted stepped) ⟨spelled.agrees, spelled.listed⟩
    (fun t same => ⟨spelled.agrees.same same, by rw [same.rib]; exact spelled.listed⟩)
    (fun env pfx data ribType t called _ new => spelled.inserted oneSpelling (inserts env pfx data ribType called) new)
    removed (fun _ _ _ _ _ => ⟨⟨spelled.agrees.route, spelled.agrees.valid⟩, spelled.listed⟩)
  obtain rfl := Option.some.inj (stepped.symm.trans stepped')
  exact ⟨accounted, agrees, listed⟩

theorem agrees_of_transcript {calls : List RouteCall} {s : RouteState} {entries : List (RouteCall × Int)}
    (reached : transcript routeAnswer .initial calls = some (s, entries)) (oneSpelling : OneSpelling (insertedKeys calls)) :
    FibAgrees s := by
  have start : Spelled (insertedKeys calls) .initial :=
    ⟨RouteState.initial_accounted, RouteState.initial_fibAgrees, fun pfx id listed => by cases listed⟩
  refine (run_invariant_mem (fun t call member t' => routeStep_spelled oneSpelling ?_) start
    (run_of_transcript routeAnswer_step reached)).agrees
  rintro env pfx data ribType rfl
  exact List.mem_filterMap.mpr ⟨_, member, rfl⟩

/-- After any run that writes each prefix of a VRF in one way, every lookup is the longest-prefix match over
    the routes that were successfully inserted and not deleted since. -/
theorem lookups_follow_transcript (calls : List RouteCall) (s : RouteState) (entries : List (RouteCall × Int))
    (reached : transcript routeAnswer .initial calls = some (s, entries)) (oneSpelling : OneSpelling (insertedKeys calls))
    (vrfId : VrfId) (dip : BitVec 32) : LooksUpLongest (.ofTranscript entries) s vrfId dip := by
  obtain ⟨accounted, installed⟩ := installed_of_transcript reached
  rw [← installed]
  exact looksUpLongest accounted (agrees_of_transcript reached oneSpelling) vrfId dip

/-- Two VRFs come to share a next hop, and the route of the first one is deleted: the lookup in the second. -/
theorem sharedNhopRun_lookups : ∃ s entries, transcript routeAnswer .initial sharedNhopRun = some (s, entries) ∧
    LooksUpLongest (.ofTranscript entries) s 2 0x0a000709 := by
  obtain ⟨s, reached⟩ := @transcript_of_answers _ _ _ routeAnswer .initial sharedNhopRun [0, 0, 0] (by decide +kernel)
  exact ⟨s, _, reached,
    lookups_follow_transcript sharedNhopRun s _ reached (by unfold OneSpelling; decide +kernel) 2 0x0a000709⟩

end Tao.Agent
