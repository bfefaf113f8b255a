import Tao.Driver.AgingTtl
import Tao.Foundation.History

/-! # The TTL as a controller

`aging_ttl_balance` latches `aged_replace` at the first table that is nearly full, and from
then on lowers the TTL while room is scarce and raises it otherwise.  So the TTL is a
function of the occupancies since then, and an entry has the TTL of the calls before it
was last written. -/

namespace Tao.Driver

open Tao.Foundation Tao.DataPlane

/-! ## The controller -/

def NearlyFull (usage : TableUsage) : Prop := 85 * 65536 < 100 * usage.entryInTableC

/-- Less than 15 % of the table is free or aged. -/
def Scarce (usage : TableUsage) : Prop := 100 * (65536 - usage.entryInTableC + usage.entryAgedC) < 15 * 65536

instance : DecidablePred NearlyFull := fun usage => by unfold NearlyFull; infer_instance

instance : DecidablePred Scarce := fun usage => by unfold Scarce; infer_instance

def nextTtl (ttl : Nat) (usage : TableUsage) : Nat :=
  if Scarce usage then if 60 < ttl then ttl - 5 else ttl else ttl + 1

/-- The occupancies that count: the ones from the first nearly full table on. -/
def fromNearlyFull (usages : List TableUsage) : List TableUsage := usages.dropWhile fun usage => ¬NearlyFull usage

def balancesOf (calls : List DriverCall) : List TableUsage := calls.filterMap DriverCall.balances

def ttlAfter (calls : List DriverCall) : Nat := (fromNearlyFull (balancesOf calls)).foldl nextTtl 5000

def DriverCall.writes : DriverCall → Option FlowKey
  | .learn answer _ digest => if answer = bfSuccess then some ⟨digest.srcIpDigest, digest.dstIpDigest⟩ else none
  | .idle .. => none

/-- The state is what the controller makes of the calls, and each entry has the TTL it made of those before
    the entry was last written. -/
structure Controlled (calls : List DriverCall) (r : Route) : Prop where
  latched : r.agedReplace = true ↔ fromNearlyFull (balancesOf calls) ≠ []
  ttl : r.entryTtl.toNat = ttlAfter calls
  entry : ∀ key ttl, r.entryTtls.lookup key = some ttl ↔
    ∃ before, LastAfter (fun call => call.writes = some key) before calls ∧ ttl.toNat = ttlAfter before

theorem Scarce.nearlyFull {usage : TableUsage} (scarce : Scarce usage) : NearlyFull usage := by
  have inTable := usage.inTable_le
  unfold Scarce at scarce
  unfold NearlyFull
  omega

/-! ## One occupancy more -/

theorem fromNearlyFull_append (usages later : List TableUsage) :
    fromNearlyFull (usages ++ later) =
      if fromNearlyFull usages = [] then fromNearlyFull later else fromNearlyFull usages ++ later := by
  simp [fromNearlyFull, List.dropWhile_append]

theorem fromNearlyFull_cons (usage : TableUsage) (later : List TableUsage) :
    fromNearlyFull (usage :: later) = if NearlyFull usage then usage :: later else fromNearlyFull later := by
  simp [fromNearlyFull, List.dropWhile_cons]

theorem fromNearlyFull_snoc (usages : List TableUsage) (usage : TableUsage) :
    fromNearlyFull (usages ++ [usage]) =
      if fromNearlyFull usages ≠ [] ∨ NearlyFull usage then fromNearlyFull usages ++ [usage] else [] := by
  rw [fromNearlyFull_append, fromNearlyFull_cons]
  split
  · next idle => rw [idle]; simp [fromNearlyFull]
  · next active => simp [active]

theorem fromNearlyFull_scarce {usages : List TableUsage} (scarce : ∀ usage ∈ usages, Scarce usage) :
    fromNearlyFull usages = usages := by
  cases usages with
  | nil => rfl
  | cons usage later => rw [fromNearlyFull_cons, if_pos (scarce usage List.mem_cons_self).nearlyFull]

theorem balancesOf_snoc (calls : List DriverCall) (call : DriverCall) :
    balancesOf (calls ++ [call]) = balancesOf calls ++ call.balances.toList := by
  cases balanced : call.balances <;> simp [balancesOf, balanced]

theorem nextTtl_le (ttl : Nat) (usage : TableUsage) : nextTtl ttl usage ≤ ttl + 1 := by
  unfold nextTtl
  split_ifs <;> omega

theorem le_nextTtl {ttl : Nat} (lower : 56 ≤ ttl) (usage : TableUsage) : 56 ≤ nextTtl ttl usage := by
  unfold nextTtl
  split_ifs <;> omega

theorem foldl_nextTtl_le (ttl : Nat) (usages : List TableUsage) :
    usages.foldl nextTtl ttl ≤ ttl + usages.length := by
  induction usages generalizing ttl with
  | nil => simp
  | cons usage later inductionHypothesis =>
    have first := nextTtl_le ttl usage
    have rest := inductionHypothesis (nextTtl ttl usage)
    rw [List.foldl_cons, List.length_cons]
    omega

theorem le_foldl_nextTtl {ttl : Nat} (lower : 56 ≤ ttl) (usages : List TableUsage) :
    56 ≤ usages.foldl nextTtl ttl := by
  induction usages generalizing ttl with
  | nil => exact lower
  | cons usage later inductionHypothesis => exact inductionHypothesis (le_nextTtl lower usage)

/-- While room is scarce the TTL sinks by five, until it is at most 60. -/
theorem foldl_nextTtl_scarce {ttl : Nat} {usages : List TableUsage} (scarce : ∀ usage ∈ usages, Scarce usage) :
    usages.foldl nextTtl ttl ≤ max 60 (ttl - 5 * usages.length) := by
  induction usages generalizing ttl with
  | nil => simp
  | cons usage later inductionHypothesis =>
    have rest := @inductionHypothesis (nextTtl ttl usage) fun other member =>
      scarce other (List.mem_cons_of_mem usage member)
    have first : nextTtl ttl usage = if 60 < ttl then ttl - 5 else ttl := if_pos (scarce usage List.mem_cons_self)
    rw [List.foldl_cons, List.length_cons]
    split at first <;> omega

theorem ttlAfter_le (calls : List DriverCall) : ttlAfter calls ≤ 5000 + calls.length := by
  have steps := foldl_nextTtl_le 5000 (fromNearlyFull (balancesOf calls))
  have counted : (fromNearlyFull (balancesOf calls)).length ≤ (balancesOf calls).length :=
    (List.dropWhile_sublist _).length_le
  have balances : (balancesOf calls).length ≤ calls.length := List.length_filterMap_le _ _
  unfold ttlAfter
  omega

theorem le_ttlAfter (calls : List DriverCall) : 56 ≤ ttlAfter calls := le_foldl_nextTtl (by decide) _

/-- Calls that balance only while room is scarce bring the TTL down. -/
theorem ttlAfter_scarce {calls late : List DriverCall} (scarce : ∀ usage ∈ balancesOf late, Scarce usage) :
    ttlAfter (calls ++ late) ≤ max 60 (ttlAfter calls - 5 * (balancesOf late).length) := by
  have appended : balancesOf (calls ++ late) = balancesOf calls ++ balancesOf late := List.filterMap_append
  unfold ttlAfter
  rw [appended, fromNearlyFull_append]
  split
  · next idle =>
    rw [idle, fromNearlyFull_scarce scarce]
    exact foldl_nextTtl_scarce scarce
  · rw [List.foldl_append]
    exact foldl_nextTtl_scarce scarce

theorem ttlAfter_snoc (calls : List DriverCall) (call : DriverCall) :
    ttlAfter (calls ++ [call]) =
      call.balances.elim (ttlAfter calls) fun usage =>
        if fromNearlyFull (balancesOf calls) ≠ [] ∨ NearlyFull usage then nextTtl (ttlAfter calls) usage
        else ttlAfter calls := by
  unfold ttlAfter
  rw [balancesOf_snoc]
  cases call.balances with
  | none => simp
  | some usage =>
    rw [Option.toList_some, fromNearlyFull_snoc, Option.elim_some]
    split
    · rw [List.foldl_append, List.foldl_cons, List.foldl_nil]
    · next idle =>
      rw [not_or, not_not] at idle
      rw [idle.1]

/-! ## The driver follows the controller -/

/-- What a balance does once the table was nearly full. -/
theorem agingTtlBalance_eq (usage : TableUsage) (r : Route) :
    agingTtlBalance usage r =
      if r.agedReplace = true ∨ NearlyFull usage then
        { r with
          agedReplace := true
          entryTtl :=
            if Scarce usage then if 60 < r.entryTtl.toNat then r.entryTtl - 5#64 else r.entryTtl
            else r.entryTtl + 1#64 }
      else r := by
  obtain ⟨routeTbl, entryTtls, entryTtl, agedReplace⟩ := r
  unfold agingTtlBalance NearlyFull Scarce
  by_cases full : 85 * 65536 < 100 * usage.entryInTableC <;>
    by_cases scarce : 100 * (65536 - usage.entryInTableC + usage.entryAgedC) < 15 * 65536 <;>
    by_cases above : 60 < entryTtl.toNat <;> cases agedReplace <;>
    simp only [full, scarce, above, if_true, if_false, or_true, or_false, Bool.false_eq_true]

theorem agingTtlBalance_agedReplace (usage : TableUsage) (r : Route) :
    (agingTtlBalance usage r).agedReplace = true ↔ r.agedReplace = true ∨ NearlyFull usage := by
  rw [agingTtlBalance_eq]
  split <;> simp_all

theorem agingTtlBalance_toNat {usage : TableUsage} {r : Route} (room : r.entryTtl.toNat + 1 < 2 ^ 64) :
    (agingTtlBalance usage r).entryTtl.toNat =
      if r.agedReplace = true ∨ NearlyFull usage then nextTtl r.entryTtl.toNat usage else r.entryTtl.toNat := by
  rw [agingTtlBalance_eq]
  split
  · unfold nextTtl
    dsimp only
    split_ifs
    · rw [BitVec.toNat_sub, BitVec.toNat_ofNat]
      omega
    · rfl
    · rw [BitVec.toNat_add, BitVec.toNat_ofNat]
      omega
  · rfl

/-- A call writes at most one entry, with the TTL of the moment, and then balances or not. -/
theorem driverStep_writes (r : Route) (call : DriverCall) :
    ∃ written : Route, driverStep r call = some (call.balances.elim written (agingTtlBalance · written)) ∧
      written.entryTtl = r.entryTtl ∧ written.agedReplace = r.agedReplace ∧
      written.entryTtls = call.writes.elim r.entryTtls (r.entryTtls.insert · r.entryTtl) := by
  cases call with
  | learn answer usage digest =>
    refine ⟨tableEntryAdd answer ⟨digest.srcIpDigest, digest.dstIpDigest⟩ ⟨1, r.entryTtl⟩ r, ?_, ?_⟩
    · rw [driverStep, learnDigest_eq, DriverCall.balances]
      split <;> rfl
    · unfold tableEntryAdd DriverCall.writes
      dsimp only
      split <;> exact ⟨rfl, rfl, rfl⟩
  | idle answer usage key =>
    refine ⟨r, ?_, rfl, rfl, rfl⟩
    rw [driverStep, idletimeCallback_eq, DriverCall.balances]
    split <;> rfl

theorem Controlled.initial : Controlled [] .initial where
  latched := by simp [Route.initial, balancesOf, fromNearlyFull]
  ttl := rfl
  entry key ttl := by simp [Route.initial]

theorem Controlled.driverStep {calls : List DriverCall} {r : Route} (controlled : Controlled calls r)
    (short : calls.length < 2 ^ 63) (call : DriverCall) :
    ∃ next, driverStep r call = some next ∧ Controlled (calls ++ [call]) next := by
  obtain ⟨written, stepped, sameTtl, sameFlag, ttls⟩ := driverStep_writes r call
  have room : written.entryTtl.toNat + 1 < 2 ^ 64 := by
    have bound := ttlAfter_le calls
    rw [sameTtl, controlled.ttl]
    omega
  have latched : written.agedReplace = true ↔ fromNearlyFull (balancesOf calls) ≠ [] := by
    rw [sameFlag, controlled.latched]
  have entries (key : FlowKey) (ttl : BitVec 64) : written.entryTtls.lookup key = some ttl ↔
      ∃ before, LastAfter (fun other => other.writes = some key) before (calls ++ [call]) ∧
        ttl.toNat = ttlAfter before := by
    by_cases own : call.writes = some key
    · -- the call writes the entry of the key, with the present TTL
      have last (before : List DriverCall) :
          LastAfter (fun other => other.writes = some key) before (calls ++ [call]) ↔ before = calls :=
        LastAfter.snoc_of_pos own
      simp only [last, exists_eq_left]
      rw [ttls, own, Option.elim_some, Finmap.lookup_insert, Option.some.injEq, ← controlled.ttl, BitVec.toNat_inj,
        eq_comm]
    · have last (before : List DriverCall) :
          LastAfter (fun other => other.writes = some key) before (calls ++ [call]) ↔
            LastAfter (fun other => other.writes = some key) before calls := LastAfter.snoc_of_neg own
      simp only [last, ← controlled.entry]
      rw [ttls]
      cases writes : call.writes with
      | none => rfl
      | some other =>
        have different : key ≠ other := by
          rintro rfl
          exact own writes
        rw [Option.elim_some, Finmap.lookup_insert_of_ne _ different]
  refine ⟨_, stepped, ?_⟩
  cases balanced : call.balances with
  | none =>
    exact ⟨by simpa [balancesOf_snoc, balanced] using latched,
      by simpa [ttlAfter_snoc, balanced, sameTtl] using controlled.ttl, entries⟩
  | some usage =>
    refine ⟨?_, ?_, fun key ttl => ?_⟩
    · rw [Option.elim_some, agingTtlBalance_agedReplace, latched, balancesOf_snoc, balanced, Option.toList_some,
        fromNearlyFull_snoc]
      split <;> simp_all
    · rw [Option.elim_some, agingTtlBalance_toNat room, ttlAfter_snoc, balanced, Option.elim_some, sameTtl,
        controlled.ttl]
      simp only [latched]
    · rw [Option.elim_some, agingTtlBalance_entryTtls]
      exact entries key ttl

/-- The counter has the width for runs of this length. -/
theorem controlled_kept {before : List DriverCall} {r : Route}
    (holds : before.length ≤ 2 ^ 63 → Controlled before r) (call : DriverCall) :
    ∃ next, driverStep r call = some next ∧
      ((before ++ [call]).length ≤ 2 ^ 63 → Controlled (before ++ [call]) next) := by
  obtain ⟨written, stepped, _⟩ := driverStep_writes r call
  refine ⟨_, stepped, fun room => ?_⟩
  rw [List.length_append, List.length_singleton] at room
  obtain ⟨next, stepped', controlled⟩ := (holds (by omega)).driverStep (by omega) call
  obtain rfl := Option.some.inj (stepped'.symm.trans stepped)
  exact controlled

/-- In every run of the callbacks the driver is in step with the controller.  The TTL it writes is at least 56,
    it grows by at most one a call, and enough balances with scarce room bring it to at most 60. -/
theorem ttl_controlled (calls : List DriverCall) (short : calls.length < 2 ^ 63) :
    ∃ final, run driverStep .initial calls = some final ∧ Controlled calls final ∧
      56 ≤ ttlAfter calls ∧ ttlAfter calls ≤ 5000 + calls.length ∧
      ∀ early late, calls = early ++ late → (∀ usage ∈ balancesOf late, Scarce usage) →
        ttlAfter early ≤ 60 + 5 * (balancesOf late).length → ttlAfter calls ≤ 60 := by
  obtain ⟨final, reached, controlled⟩ := @run_history _ _ driverStep
    (fun before r => before.length ≤ 2 ^ 63 → Controlled before r) (fun _ _ call holds => controlled_kept holds call)
    [] .initial (fun _ => Controlled.initial) calls
  refine ⟨final, reached, controlled (Nat.le_of_lt short), le_ttlAfter calls, ttlAfter_le calls, ?_⟩
  rintro early late rfl scarce enough
  have settled := @ttlAfter_scarce early late scarce
  omega

/-- A flow is learned into a nearly full table, an entry ages, and the flow is learned again. -/
def pressureCalls : List DriverCall :=
  [.learn bfSuccess ⟨60000, 0, by decide, by decide⟩ ⟨0x0A000001, 0x0A000002, 10⟩,
    .idle bfAgedMarked ⟨60000, 10000, by decide, by decide⟩ ⟨0x0A000001, 0x0A000003⟩,
    .learn bfSuccess ⟨60001, 0, by decide, by decide⟩ ⟨0x0A000001, 0x0A000002, 10⟩]

theorem pressureCalls_ttl : ∃ final, run driverStep .initial pressureCalls = some final ∧
    final.entryTtl.toNat = 4991 ∧ final.entryTtls.lookup ⟨0x0A000001, 0x0A000002⟩ = some 4996 := by
  obtain ⟨final, reached, controlled, _⟩ := ttl_controlled pressureCalls (by decide)
  refine ⟨final, reached, controlled.ttl.trans (by decide), ?_⟩
  refine (controlled.entry _ _).mpr ⟨pressureCalls.take 2, ?_, by decide⟩
  exact ⟨.learn bfSuccess ⟨60001, 0, by decide, by decide⟩ ⟨0x0A000001, 0x0A000002, 10⟩, [], rfl, rfl, by simp⟩

end Tao.Driver
