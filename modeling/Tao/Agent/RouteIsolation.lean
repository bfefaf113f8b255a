import Tao.Agent.RouteCleanup
import Tao.Agent.RouteHistory

/-! # VRFs do not disturb each other

The VRFs share one table of next hops, one array of results and one neighbour table.  What a
lookup finds can nevertheless be told from the calls for its own VRF and the codes that
they returned.  A prefix may be written in several ways; the FIB then holds it for the key
that was entered last, and loses it with whichever of them goes first. -/

namespace Tao.Agent

open Tao.Foundation

/-! ## The FIBs as the callers know them -/

/-- The routes, and for each prefix of a FIB the key that it was last entered for. -/
structure RouteBook where
  routes : RouteMap
  entered : VrfId → FibPrefix → Option NtbRibKey

/-- The prefix of a key is entered for it, or (`none`) taken out of the FIB. -/
def setEntered (entered : VrfId → FibPrefix → Option NtbRibKey) (key : NtbRibKey) (owner : Option NtbRibKey) :
    VrfId → FibPrefix → Option NtbRibKey :=
  fun vrfId p => if vrfId = key.vrfId ∧ key.fibPrefix = some p then owner else entered vrfId p

def RouteBook.toldEntered (book : RouteBook) : RouteCall × Int → VrfId → FibPrefix → Option NtbRibKey
  | (.nhopInsert _ pfx _ _, ret) =>
    if ret = 0 ∧ book.routes pfx = none then setEntered book.entered pfx (some pfx) else book.entered
  | (.nhopDelete _ pfx data ribType, _) =>
    if book.routes pfx = some ⟨data.key, ribType⟩ then setEntered book.entered pfx none else book.entered
  | (.delete pfx, _) => if book.routes pfx = none then book.entered else setEntered book.entered pfx none
  | (.cleanup _ vrfId, _) => fun other p => if other = vrfId then none else book.entered other p
  | (.neighAddStatic _ _ _ _, _) => book.entered

def RouteBook.told (book : RouteBook) (entry : RouteCall × Int) : RouteBook :=
  ⟨book.routes.told entry, book.toldEntered entry⟩

def RouteBook.initial : RouteBook := ⟨fun _ => none, fun _ _ => none⟩

def RouteBook.ofTranscript (entries : List (RouteCall × Int)) : RouteBook := entries.foldl RouteBook.told .initial

/-- The key of the longest entered prefix, of at most `depth` bits, that covers an address. -/
def longestEntered (entered : FibPrefix → Option NtbRibKey) (ip : BitVec 32) : Nat → Option NtbRibKey
  | 0 => (FibPrefix.mask ip 0).bind entered
  | depth + 1 => ((FibPrefix.mask ip (depth + 1)).bind entered).orElse fun _ => longestEntered entered ip depth

def RouteBook.routeFor (book : RouteBook) (vrfId : VrfId) (dip : BitVec 32) : Option InstalledRoute :=
  (longestEntered (book.entered vrfId) dip 32).bind book.routes

/-- The tables are as the book says: every prefix leads to the result of the key it was entered for. -/
structure FollowsBook (s : RouteState) (book : RouteBook) : Prop where
  accounted : Accounted s
  routes : s.installed = book.routes
  fib : ∀ vrfId p, (s.fib vrfId).lookup p = (book.entered vrfId p).bind s.rib.lookup
  listed : ∀ vrfId p key, book.entered vrfId p = some key →
    key.vrfId = vrfId ∧ key.fibPrefix = some p ∧ ∃ id, s.rib.lookup key = some id

/-! ## What one call does -/

theorem Inserted.fib_lookup_eq {env : RouteEnv} {pfx : NtbRibKey} {data : FibNhopEncapData} {ribType : RibType}
    {s s' : RouteState} (inserted : Inserted env pfx data ribType s s') (vrfId : VrfId) (q : FibPrefix) :
    (s'.fib vrfId).lookup q =
      if vrfId = pfx.vrfId ∧ pfx.fibPrefix = some q then s'.rib.lookup pfx else (s.fib vrfId).lookup q := by
  obtain ⟨_, id, a, oid, p, _, _, masked, _, rib, fib, _⟩ := inserted
  rw [fib, rib, Finmap.lookup_insert, masked]
  by_cases own : vrfId = pfx.vrfId
  · subst own
    rw [Function.update_self, Table.lookup_insert_eq]
    by_cases here : q = p
    · simp [here]
    · simp [here, Ne.symm here]
  · simp [own]

theorem Removed.fib_lookup_eq {pfx : NtbRibKey} {s s' : RouteState} (removed : Removed pfx s s') (vrfId : VrfId)
    (q : FibPrefix) : (s'.fib vrfId).lookup q =
      if vrfId = pfx.vrfId ∧ pfx.fibPrefix = some q then none else (s.fib vrfId).lookup q := by
  split
  next gone =>
    rw [Option.eq_none_iff_forall_ne_some]
    intro id held
    exact (removed.fib_lookup held).2 gone.1 gone.2
  next other =>
    obtain ⟨_, _, _, _, _, _, _, _, _, fib, _⟩ := removed
    rw [fib]
    by_cases own : vrfId = pfx.vrfId
    · subst own
      rw [Function.update_self, rteFibDelete, ← NtbRibKey.fibPrefix]
      cases masked : pfx.fibPrefix with
      | none => rfl
      | some p =>
        have different : q ≠ p := by
          rintro rfl
          exact other ⟨rfl, masked⟩
        dsimp only
        split
        · rw [Option.getD_some, Finmap.lookup_erase_ne different]
        · rfl
    · rw [Function.update_of_ne own]

namespace FollowsBook

variable {s s' : RouteState} {book : RouteBook}

theorem fibListed (follows : FollowsBook s book) : FibListed s := by
  intro vrfId p held
  obtain ⟨id, there⟩ := Finmap.mem_iff.mp held
  rw [follows.fib] at there
  obtain ⟨key, entered, listed⟩ := Option.bind_eq_some_iff.mp there
  obtain ⟨own, masked, _⟩ := follows.listed vrfId p key entered
  exact ⟨key, id, own, masked, listed⟩

theorem inserted (follows : FollowsBook s book) {env : RouteEnv} {pfx : NtbRibKey} {data : FibNhopEncapData}
    {ribType : RibType} (inserted : Inserted env pfx data ribType s s') {routes : RouteMap}
    (installed : s'.installed = routes) : FollowsBook s' ⟨routes, setEntered book.entered pfx (some pfx)⟩ := by
  have accounted := follows.accounted.inserted inserted
  refine ⟨accounted, installed, fun vrfId p => ?_, fun vrfId p key => ?_⟩
  · rw [inserted.fib_lookup_eq]
    simp only [setEntered]
    split
    · rfl
    · rw [follows.fib]
      cases entered : book.entered vrfId p with
      | none => rfl
      | some key =>
        obtain ⟨_, _, id, listed⟩ := follows.listed vrfId p key entered
        rw [Option.bind_some, Option.bind_some, listed, inserted.rib_kept listed]
  · simp only [setEntered]
    split
    next here =>
      rintro ⟨⟩
      obtain ⟨_, id, _, _, _, _, _, _, _, rib, _⟩ := inserted
      exact ⟨here.1.symm, here.2, id, by rw [rib, Finmap.lookup_insert]⟩
    next =>
      intro entered
      obtain ⟨own, masked, id, listed⟩ := follows.listed vrfId p key entered
      exact ⟨own, masked, id, inserted.rib_kept listed⟩

/-- The FIBs, when a key has been removed: its prefix is gone, whichever key it was entered for. -/
theorem removed (follows : FollowsBook s book) {pfx : NtbRibKey} (removed : Removed pfx s s') {routes : RouteMap}
    (installed : s'.installed = routes) : FollowsBook s' ⟨routes, setEntered book.entered pfx none⟩ := by
  have kept (vrfId : VrfId) (p : FibPrefix) (other : ¬ (vrfId = pfx.vrfId ∧ pfx.fibPrefix = some p)) (key : NtbRibKey)
      (entered : book.entered vrfId p = some key) :
      key.vrfId = vrfId ∧ key.fibPrefix = some p ∧ ∃ id, s.rib.lookup key = some id ∧ s'.rib.lookup key = some id := by
    obtain ⟨own, masked, id, listed⟩ := follows.listed vrfId p key entered
    have different : key ≠ pfx := by
      rintro rfl
      exact other ⟨own.symm, masked⟩
    exact ⟨own, masked, id, listed, removed.rib_kept different listed⟩
  refine ⟨follows.accounted.removed removed, installed, fun vrfId p => ?_, fun vrfId p key => ?_⟩
  · rw [removed.fib_lookup_eq]
    simp only [setEntered]
    split
    · rfl
    next other =>
      rw [follows.fib]
      cases entered : book.entered vrfId p with
      | none => rfl
      | some key =>
        obtain ⟨_, _, id, listed, listed'⟩ := kept vrfId p other key entered
        rw [Option.bind_some, Option.bind_some, listed, listed']
  · simp only [setEntered]
    split
    · nofun
    next other =>
      intro entered
      obtain ⟨own, masked, id, _, listed'⟩ := kept vrfId p other key entered
      exact ⟨own, masked, id, listed'⟩

theorem same (follows : FollowsBook s book) (same : s.Same s') : FollowsBook s' book where
  accounted := follows.accounted.same same
  routes := same.installed.trans follows.routes
  fib := by rw [same.fib, same.rib]; exact follows.fib
  listed := by rw [same.rib]; exact follows.listed

theorem insert_told (follows : FollowsBook s book) (env : RouteEnv) (pfx : NtbRibKey) (data : FibNhopEncapData)
    (ribType : RibType) {ret : Int} (answered : routeAnswer s (.nhopInsert env pfx data ribType) = some (s', ret)) :
    FollowsBook s' (book.told (.nhopInsert env pfx data ribType, ret)) := by
  obtain ⟨_, installed⟩ := routeAnswer_told s _ s' ret follows.accounted answered
  rw [follows.routes] at installed
  rw [RouteBook.told, ← installed, RouteBook.toldEntered, ← follows.routes]
  cases listed : s.rib.lookup pfx with
  | none =>
    rw [installed_of_absent listed]
    rw [routeAnswer, ntbRouteNhopInsert, listed] at answered
    obtain ⟨next, code, result, ⟨_, negative, kept⟩ | ⟨_, rfl, new⟩⟩ :=
      routeNhopInsertNew_absent env data ribType follows.accounted listed <;>
      obtain ⟨rfl, rfl⟩ := Prod.mk.inj (Option.some.inj (answered.symm.trans result))
    · rw [if_neg (fun zero => absurd zero.1 (by omega)), kept.installed, follows.routes]
      exact follows.same kept
    · rw [if_pos ⟨rfl, rfl⟩]
      exact follows.inserted new rfl
  | some id =>
    obtain ⟨fRes, a, fNhop, route⟩ := follows.accounted.singleRoute listed
    rw [if_neg (fun both => by rw [route.installed_eq] at both; cases both.2)]
    rcases ntbRouteNhopInsert_cases env pfx data ribType follows.accounted with
      ⟨_, undefined⟩ | ⟨_, next, code, result, ⟨_, _, kept⟩ | ⟨_, _, rfl⟩ | ⟨enters, _⟩⟩
    · cases answered.symm.trans undefined
    · obtain ⟨rfl, _⟩ := Prod.mk.inj (Option.some.inj (answered.symm.trans result))
      rw [kept.installed, follows.routes]
      exact follows.same kept
    · obtain ⟨rfl, _⟩ := Prod.mk.inj (Option.some.inj (answered.symm.trans result))
      rw [follows.routes]
      exact follows
    · cases enters.absent.symm.trans listed

theorem cleanup_told (follows : FollowsBook s book) (iterate : RteHashIterate) (vrfId : VrfId) {ret : Int}
    (answered : routeAnswer s (.cleanup iterate vrfId) = some (s', ret)) :
    FollowsBook s' (book.told (.cleanup iterate vrfId, ret)) := by
  obtain ⟨accounted, installed⟩ := routeAnswer_told s _ s' ret follows.accounted answered
  rw [follows.routes] at installed
  obtain ⟨t, result, cleaned⟩ := ntbRouteCleanup_cleanedUp iterate vrfId follows.accounted follows.fibListed
  rw [routeAnswer, result, Option.map_some] at answered
  obtain ⟨rfl, _⟩ := Prod.mk.inj (Option.some.inj answered)
  refine ⟨accounted, installed, fun other p => ?_, fun other p key => ?_⟩
  · simp only [RouteBook.told, RouteBook.toldEntered]
    split
    next own => rw [own, cleaned.fib_own]; rfl
    next elsewhere =>
      rw [cleaned.fib_others other elsewhere, follows.fib]
      cases entered : book.entered other p with
      | none => rfl
      | some key =>
        obtain ⟨own, _⟩ := follows.listed other p key entered
        rw [Option.bind_some, Option.bind_some, cleaned.rib_others key (own ▸ elsewhere)]
  · simp only [RouteBook.told, RouteBook.toldEntered]
    split
    next =>
      intro entered
      cases entered
    next elsewhere =>
      intro entered
      obtain ⟨own, masked, id, listed⟩ := follows.listed other p key entered
      exact ⟨own, masked, id, by rw [cleaned.rib_others key (own ▸ elsewhere), listed]⟩

theorem told (follows : FollowsBook s book) (call : RouteCall) (ret : Int)
    (answered : routeAnswer s call = some (s', ret)) : FollowsBook s' (book.told (call, ret)) := by
  obtain ⟨accounted, installed⟩ := routeAnswer_told s call s' ret follows.accounted answered
  cases call with
  | nhopInsert env pfx data ribType => exact follows.insert_told env pfx data ribType answered
  | nhopDelete env pfx data ribType =>
    rw [follows.routes] at installed
    rw [RouteBook.told, ← installed, RouteBook.toldEntered, ← follows.routes]
    rcases ntbRouteNhopDelete_cases env pfx data ribType follows.accounted with
      ⟨kept, code, result⟩ | ⟨deletes, t, result, removed⟩ <;>
      obtain ⟨rfl, _⟩ := Prod.mk.inj (Option.some.inj (answered.symm.trans result))
    · rw [if_neg (mt (deletesNhop_iff follows.accounted).mpr kept), follows.routes]
      exact follows
    · rw [if_pos ((deletesNhop_iff follows.accounted).mp deletes)]
      exact follows.removed removed rfl
  | delete pfx =>
    rw [follows.routes] at installed
    rw [RouteBook.told, ← installed, RouteBook.toldEntered, ← follows.routes]
    rcases ntbRouteDelete_cases pfx follows.accounted with ⟨absent, result⟩ | ⟨t, result, removed⟩ <;>
      obtain ⟨rfl, _⟩ := Prod.mk.inj (Option.some.inj (answered.symm.trans result))
    · rw [if_pos (installed_of_absent absent), follows.routes]
      exact follows
    · have listed : s.installed pfx ≠ none := by
        obtain ⟨id, _, _, there, _⟩ := removed
        exact follows.accounted.installed_ne_none_iff.mpr ⟨id, there⟩
      rw [if_neg listed]
      exact follows.removed removed rfl
  | cleanup iterate vrfId => exact follows.cleanup_told iterate vrfId answered
  | neighAddStatic env vrfId gw hwAddr =>
    obtain ⟨rfl, _⟩ := Prod.mk.inj (Option.some.inj answered)
    exact ⟨accounted, follows.routes, follows.fib, follows.listed⟩

end FollowsBook

/-! ## Lookups -/

theorem longestEntered_some {entered : FibPrefix → Option NtbRibKey} {ip : BitVec 32} {depth : Nat} {key : NtbRibKey}
    (found : longestEntered entered ip depth = some key) : ∃ p, entered p = some key := by
  induction depth with
  | zero =>
    obtain ⟨p, _, owner⟩ := Option.bind_eq_some_iff.mp found
    exact ⟨p, owner⟩
  | succ depth inductionHypothesis =>
    rw [longestEntered] at found
    cases exact : (FibPrefix.mask ip (depth + 1)).bind entered with
    | none =>
      rw [exact] at found
      exact inductionHypothesis found
    | some owner =>
      rw [exact] at found
      obtain rfl := Option.some.inj found
      obtain ⟨p, _, owned⟩ := Option.bind_eq_some_iff.mp exact
      exact ⟨p, owned⟩

/-- The FIB finds the result of the key whose prefix is the longest one entered. -/
theorem rteFibLongest_entered {fib : RteFib} {rib : Table NtbRibKey FibResId} {entered : FibPrefix → Option NtbRibKey}
    (holds : ∀ p, fib.lookup p = (entered p).bind rib.lookup)
    (listed : ∀ p key, entered p = some key → ∃ id, rib.lookup key = some id) (ip : BitVec 32) (depth : Nat) :
    rteFibLongest fib ip depth = (longestEntered entered ip depth).bind rib.lookup := by
  have exact (k : Nat) : rteFibExact fib ip k = ((FibPrefix.mask ip k).bind entered).bind rib.lookup := by
    rw [rteFibExact, Option.bind_assoc]
    exact congrArg _ (funext holds)
  induction depth with
  | zero => exact exact 0
  | succ depth inductionHypothesis =>
    rw [rteFibLongest, longestEntered, exact, inductionHypothesis]
    cases owner : (FibPrefix.mask ip (depth + 1)).bind entered with
    | none => rfl
    | some key =>
      obtain ⟨p, _, owned⟩ := Option.bind_eq_some_iff.mp owner
      obtain ⟨id, there⟩ := listed p key owned
      simp [there]

theorem FollowsBook.routeFor_eq {s : RouteState} {book : RouteBook} (follows : FollowsBook s book) (vrfId : VrfId)
    (dip : BitVec 32) : s.routeFor vrfId dip = book.routeFor vrfId dip := by
  have listed (p : FibPrefix) (key : NtbRibKey) (entered : book.entered vrfId p = some key) :
      ∃ id, s.rib.lookup key = some id := (follows.listed vrfId p key entered).2.2
  rw [RouteState.routeFor, rteFibLookup, rteFibLongest_entered (follows.fib vrfId) listed, RouteBook.routeFor]
  cases longest : longestEntered (book.entered vrfId) dip 32 with
  | none =>
    obtain ⟨fRes, used, empty⟩ := follows.accounted.blackhole
    simp [used, RouteState.routeOf, empty]
  | some key =>
    obtain ⟨p, entered⟩ := longestEntered_some longest
    obtain ⟨id, there⟩ := listed p key entered
    rw [Option.bind_some, Option.bind_some, ← follows.routes, RouteState.installed, there]
    rfl

theorem followsBook_initial : FollowsBook .initial .initial where
  accounted := RouteState.initial_accounted
  routes := funext fun _ => installed_of_absent rfl
  fib := fun _ _ => rfl
  listed := nofun

theorem followsBook_of_transcript {calls : List RouteCall} {s : RouteState} {entries : List (RouteCall × Int)}
    (reached : transcript routeAnswer .initial calls = some (s, entries)) :
    FollowsBook s (.ofTranscript entries) := by
  have told (s : RouteState) (book : RouteBook) (call : RouteCall) (s' : RouteState) (ret : Int)
      (follows : FollowsBook s book) (_ : True) (answered : routeAnswer s call = some (s', ret)) :
      FollowsBook s' (book.told (call, ret)) := follows.told call ret answered
  exact transcript_told routeAnswer_step told followsBook_initial (guarded_of_mem (fun _ _ _ => trivial) _) reached

/-! ## One VRF among others -/

/-- What a caller asks for; the answers of the allocators and the order of an iteration are left out. -/
inductive RouteRequest where
  | nhopInsert (pfx : NtbRibKey) (data : FibNhopEncapData) (ribType : RibType)
  | nhopDelete (pfx : NtbRibKey) (data : FibNhopEncapData) (ribType : RibType)
  | delete (pfx : NtbRibKey)
  | cleanup (vrfId : VrfId)
  | neighAddStatic (vrfId : VrfId) (gw : Ip4) (hwAddr : EtherAddr)

def RouteCall.request : RouteCall → RouteRequest
  | .nhopInsert _ pfx data ribType => .nhopInsert pfx data ribType
  | .nhopDelete _ pfx data ribType => .nhopDelete pfx data ribType
  | .delete pfx => .delete pfx
  | .cleanup _ vrfId => .cleanup vrfId
  | .neighAddStatic _ vrfId gw hwAddr => .neighAddStatic vrfId gw hwAddr

def RouteCall.vrfId : RouteCall → VrfId
  | .nhopInsert _ pfx _ _ => pfx.vrfId
  | .nhopDelete _ pfx _ _ => pfx.vrfId
  | .delete pfx => pfx.vrfId
  | .cleanup _ vrfId => vrfId
  | .neighAddStatic _ vrfId _ _ => vrfId

def ofVrf (vrfId : VrfId) (entries : List (RouteCall × Int)) : List (RouteCall × Int) :=
  entries.filter fun entry => entry.1.vrfId = vrfId

def asked (entry : RouteCall × Int) : RouteRequest × Int := (entry.1.request, entry.2)

theorem told_of_asked (book : RouteBook) (entry entry' : RouteCall × Int) (same : asked entry = asked entry') :
    book.told entry = book.told entry' := by
  obtain ⟨call, ret⟩ := entry
  obtain ⟨call', ret'⟩ := entry'
  obtain ⟨request, rfl⟩ := Prod.mk.inj same
  cases call <;> cases call' <;> cases request <;> rfl

def RouteMap.AgreeOn (vrfId : VrfId) (m m' : RouteMap) : Prop := ∀ pfx, pfx.vrfId = vrfId → m pfx = m' pfx

theorem update_agreeOn {vrfId : VrfId} {m m' : RouteMap} (agree : m.AgreeOn vrfId m') (key : NtbRibKey)
    (route : Option InstalledRoute) :
    RouteMap.AgreeOn vrfId (Function.update m key route) (Function.update m' key route) := by
  intro pfx own
  by_cases same : pfx = key
  · simp [same]
  · simp [same, agree pfx own]

theorem update_elsewhere {vrfId : VrfId} {m m' : RouteMap} (agree : m.AgreeOn vrfId m') {key : NtbRibKey}
    (other : key.vrfId ≠ vrfId) (route : Option InstalledRoute) :
    RouteMap.AgreeOn vrfId (Function.update m key route) m' := by
  intro pfx own
  have different : pfx ≠ key := by
    rintro rfl
    exact other own
  simp [different, agree pfx own]

theorem setEntered_elsewhere (entered : VrfId → FibPrefix → Option NtbRibKey) {vrfId : VrfId} {key : NtbRibKey}
    (other : key.vrfId ≠ vrfId) (owner : Option NtbRibKey) : setEntered entered key owner vrfId = entered vrfId := by
  funext p
  exact if_neg fun here => other here.1.symm

/-- The routes and the FIB of the VRF are the same in both books. -/
structure RouteBook.AgreeOn (vrfId : VrfId) (book book' : RouteBook) : Prop where
  routes : book.routes.AgreeOn vrfId book'.routes
  entered : book.entered vrfId = book'.entered vrfId

theorem setEntered_agreeOn {vrfId : VrfId} {book book' : RouteBook} (agree : book.AgreeOn vrfId book') (key : NtbRibKey)
    (owner : Option NtbRibKey) : setEntered book.entered key owner vrfId = setEntered book'.entered key owner vrfId := by
  funext p
  simp only [setEntered, agree.entered]

theorem told_own {vrfId : VrfId} {book book' : RouteBook} {entry : RouteCall × Int} (own : entry.1.vrfId = vrfId)
    (agree : book.AgreeOn vrfId book') : (book.told entry).AgreeOn vrfId (book'.told entry) := by
  obtain ⟨call, ret⟩ := entry
  cases call with
  | nhopInsert env key data ribType =>
    simp only [RouteBook.told, RouteBook.toldEntered, RouteMap.told, agree.routes key own]
    split
    · exact ⟨update_agreeOn agree.routes key _, setEntered_agreeOn agree key _⟩
    · exact agree
  | nhopDelete env key data ribType =>
    simp only [RouteBook.told, RouteBook.toldEntered, RouteMap.told, agree.routes key own]
    split
    · exact ⟨update_agreeOn agree.routes key _, setEntered_agreeOn agree key _⟩
    · exact agree
  | delete key =>
    simp only [RouteBook.told, RouteBook.toldEntered, RouteMap.told, agree.routes key own]
    refine ⟨update_agreeOn agree.routes key none, ?_⟩
    split
    · exact agree.entered
    · exact setEntered_agreeOn agree key none
  | cleanup iterate cleaned =>
    refine ⟨fun pfx inVrf => ?_, ?_⟩
    · simp only [RouteBook.told, RouteMap.told, agree.routes pfx inVrf]
    · simp only [RouteBook.told, RouteBook.toldEntered, agree.entered]
  | neighAddStatic env neighVrf gw hwAddr => exact agree

theorem told_elsewhere {vrfId : VrfId} {book book' : RouteBook} {entry : RouteCall × Int} (other : entry.1.vrfId ≠ vrfId)
    (agree : book.AgreeOn vrfId book') : (book.told entry).AgreeOn vrfId book' := by
  obtain ⟨call, ret⟩ := entry
  cases call with
  | nhopInsert env key data ribType =>
    simp only [RouteBook.told, RouteBook.toldEntered, RouteMap.told]
    split
    · exact ⟨update_elsewhere agree.routes other _, (setEntered_elsewhere _ other _).trans agree.entered⟩
    · exact agree
  | nhopDelete env key data ribType =>
    simp only [RouteBook.told, RouteBook.toldEntered, RouteMap.told]
    split
    · exact ⟨update_elsewhere agree.routes other _, (setEntered_elsewhere _ other _).trans agree.entered⟩
    · exact agree
  | delete key =>
    refine ⟨update_elsewhere agree.routes other none, ?_⟩
    simp only [RouteBook.told, RouteBook.toldEntered]
    split
    · exact agree.entered
    · exact (setEntered_elsewhere _ other none).trans agree.entered
  | cleanup iterate cleaned =>
    have elsewhere : vrfId ≠ cleaned := fun same => other same.symm
    refine ⟨fun pfx own => ?_, ?_⟩
    · simp only [RouteBook.told, RouteMap.told, if_neg (own ▸ elsewhere), agree.routes pfx own]
    · simp only [RouteBook.told, RouteBook.toldEntered, if_neg elsewhere, agree.entered]
  | neighAddStatic env neighVrf gw hwAddr => exact agree

/-- What is known of a VRF is told by its own part of the transcript. -/
theorem ofTranscript_ofVrf (vrfId : VrfId) (entries : List (RouteCall × Int)) :
    (RouteBook.ofTranscript entries).AgreeOn vrfId (.ofTranscript (ofVrf vrfId entries)) :=
  @foldl_filter_agree _ _ RouteBook.told (RouteBook.AgreeOn vrfId) (fun entry => entry.1.vrfId = vrfId)
    (fun _ _ _ own => told_own (of_decide_eq_true own))
    (fun _ _ _ other => told_elsewhere (of_decide_eq_false other)) _ _ entries ⟨fun _ _ => rfl, rfl⟩

theorem RouteBook.AgreeOn.routeFor {vrfId : VrfId} {book book' : RouteBook} (agree : book.AgreeOn vrfId book')
    (owned : ∀ p key, book.entered vrfId p = some key → key.vrfId = vrfId) (dip : BitVec 32) :
    book.routeFor vrfId dip = book'.routeFor vrfId dip := by
  rw [RouteBook.routeFor, RouteBook.routeFor, ← agree.entered]
  cases longest : longestEntered (book.entered vrfId) dip 32 with
  | none => rfl
  | some key =>
    obtain ⟨p, entered⟩ := longestEntered_some longest
    exact agree.routes key (owned p key entered)

/-- Runs in which the callers asked the same of a VRF, in the same order and with the same return codes, look
    its addresses up alike.  What happened in the other VRFs, how it was interleaved, what the allocators
    answered and how the prefixes were written makes no difference. -/
theorem lookups_isolated (vrfId : VrfId) (calls calls' : List RouteCall) (s s' : RouteState)
    (entries entries' : List (RouteCall × Int))
    (reached : transcript routeAnswer .initial calls = some (s, entries))
    (reached' : transcript routeAnswer .initial calls' = some (s', entries'))
    (same : (ofVrf vrfId entries).map asked = (ofVrf vrfId entries').map asked) (dip : BitVec 32) :
    s.routeFor vrfId dip = s'.routeFor vrfId dip := by
  have follows := followsBook_of_transcript reached
  have follows' := followsBook_of_transcript reached'
  have own := ofTranscript_ofVrf vrfId entries
  have own' := ofTranscript_ofVrf vrfId entries'
  have told : RouteBook.ofTranscript (ofVrf vrfId entries) = .ofTranscript (ofVrf vrfId entries') :=
    foldl_seen_congr told_of_asked same
  calc s.routeFor vrfId dip
      = (RouteBook.ofTranscript entries).routeFor vrfId dip := follows.routeFor_eq vrfId dip
    _ = (RouteBook.ofTranscript (ofVrf vrfId entries)).routeFor vrfId dip :=
        own.routeFor (fun p key entered => (follows.listed vrfId p key entered).1) dip
    _ = (RouteBook.ofTranscript (ofVrf vrfId entries')).routeFor vrfId dip := by rw [told]
    _ = (RouteBook.ofTranscript entries').routeFor vrfId dip :=
        (own'.routeFor (fun p key entered => (follows'.listed vrfId p key entered).1) dip).symm
    _ = s'.routeFor vrfId dip := (follows'.routeFor_eq vrfId dip).symm

-- `10.0.7.0/24` and then `10.0.7.1/24` in VRF 2, with what the allocators answer; the second leads elsewhere.
def twoSpellings (a b : Addr) : List RouteCall :=
  [.nhopInsert (.granted a 5 6) (subnet24 2 7) vxlanNhop .default,
    .nhopInsert (.granted b 7 8) { subnet24 2 7 with prefix4 := 0x0107000a } otherNhop .default]

/-- VRF 2 beside a VRF that shares its first next hop and its prefix, and alone with other allocations. -/
theorem twoSpellings_isolated : ∃ s s',
    run routeStep .initial (insertVxlanNhop 1 :: twoSpellings 2 3 ++ [.delete (subnet24 1 7)]) = some s ∧
    run routeStep .initial (twoSpellings 8 9) = some s' ∧ s.routeFor 2 0x0a000709 = s'.routeFor 2 0x0a000709 := by
  obtain ⟨s, reached⟩ := @transcript_of_answers _ _ _ routeAnswer .initial
    (insertVxlanNhop 1 :: twoSpellings 2 3 ++ [.delete (subnet24 1 7)]) [0, 0, 0, 0] (by decide +kernel)
  obtain ⟨s', reached'⟩ := @transcript_of_answers _ _ _ routeAnswer .initial (twoSpellings 8 9) [0, 0]
    (by decide +kernel)
  exact ⟨s, s', run_of_transcript routeAnswer_step reached, run_of_transcript routeAnswer_step reached',
    lookups_isolated 2 _ _ s s' _ _ reached reached' rfl 0x0a000709⟩

end Tao.Agent
