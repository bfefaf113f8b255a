import Tao.Driver.Route
import Tao.Foundation.Transition

/-! # The range of the entry TTL

`aging_ttl_balance` stops lowering the TTL at 60 and has no bound for raising it, while
the idle table is configured for a largest TTL of 50000. -/

namespace Tao.Driver

open Tao.Foundation Tao.DataPlane

/-- `max_ttl` of `idleTableNotifyModeSet`. -/
def maxTtl : Nat := 50000

inductive DriverCall where
  | learn (answer : BfStatus) (usage : TableUsage) (digest : FlowkeyDigest)
  | idle (answer : BfStatus) (usage : TableUsage) (key : FlowKey)

def driverStep (r : Route) : DriverCall → Option Route
  | .learn answer usage digest => some (learnDigest answer usage digest r)
  | .idle answer usage key => some (idletimeCallback answer usage key r)

/-- The occupancy for which the call runs `aging_ttl_balance`, if it does. -/
def DriverCall.balances : DriverCall → Option TableUsage
  | .learn answer usage _ => if answer = bfSuccess then some usage else none
  | .idle answer usage _ => if answer = bfAgedMarked then some usage else none

def TtlAllowed (ttl : BitVec 64) : Prop := 56 ≤ ttl.toNat ∧ ttl.toNat ≤ maxTtl

def TtlsInRange (r : Route) : Prop :=
  TtlAllowed r.entryTtl ∧ ∀ key ttl, r.entryTtls.lookup key = some ttl → TtlAllowed ttl

/-- The balance raises the TTL: entries were replaced once the table was 85 % full, and 15 % of
    it is free or aged. -/
def RaisesTtl (usage : TableUsage) (r : Route) : Prop :=
  (85 * 65536 < 100 * usage.entryInTableC ∨ r.agedReplace = true) ∧
    15 * 65536 ≤ 100 * (65536 - usage.entryInTableC + usage.entryAgedC)

/-- No balance raises the TTL from its largest value. -/
def RaiseBounded (r : Route) (call : DriverCall) : Prop :=
  ∀ usage, call.balances = some usage → RaisesTtl usage r → r.entryTtl.toNat ≠ maxTtl

theorem agingTtlBalance_entryTtls (usage : TableUsage) (r : Route) :
    (agingTtlBalance usage r).entryTtls = r.entryTtls := by
  unfold agingTtlBalance
  dsimp only
  split_ifs <;> rfl

theorem agingTtlBalance_entryTtl (usage : TableUsage) (r : Route) :
    (RaisesTtl usage r ∧ (agingTtlBalance usage r).entryTtl = r.entryTtl + 1#64) ∨
      (¬RaisesTtl usage r ∧ ((agingTtlBalance usage r).entryTtl = r.entryTtl ∨
        60 < r.entryTtl.toNat ∧ (agingTtlBalance usage r).entryTtl = r.entryTtl - 5#64)) := by
  unfold agingTtlBalance RaisesTtl
  dsimp only
  split_ifs <;> simp_all

/-- A call writes the present TTL to at most one entry, and then balances or not. -/
theorem driverStep_spec (r : Route) (call : DriverCall) :
    ∃ written : Route, driverStep r call = some (call.balances.elim written (agingTtlBalance · written)) ∧
      written.entryTtl = r.entryTtl ∧ written.agedReplace = r.agedReplace ∧
      (written.entryTtls = r.entryTtls ∨ ∃ key, written.entryTtls = r.entryTtls.insert key r.entryTtl) := by
  cases call with
  | learn answer usage digest =>
    refine ⟨tableEntryAdd answer ⟨digest.srcIpDigest, digest.dstIpDigest⟩ ⟨1, r.entryTtl⟩ r, ?_, ?_⟩
    · rw [driverStep, learnDigest_eq, DriverCall.balances]
      split <;> rfl
    · unfold tableEntryAdd
      split
      · exact ⟨rfl, rfl, .inr ⟨_, rfl⟩⟩
      · exact ⟨rfl, rfl, .inl rfl⟩
  | idle answer usage key =>
    refine ⟨r, ?_, rfl, rfl, .inl rfl⟩
    rw [driverStep, idletimeCallback_eq, DriverCall.balances]
    split <;> rfl

theorem ttlAllowed_of_lookup {r : Route} {ttls : Table FlowKey (BitVec 64)} (inRange : TtlsInRange r)
    (written : ttls = r.entryTtls ∨ ∃ key, ttls = r.entryTtls.insert key r.entryTtl) {key : FlowKey}
    {ttl : BitVec 64} (found : ttls.lookup key = some ttl) : TtlAllowed ttl := by
  rcases written with rfl | ⟨added, rfl⟩
  · exact inRange.2 key ttl found
  · by_cases same : key = added
    · subst same
      rw [Finmap.lookup_insert] at found
      rw [← Option.some.inj found]
      exact inRange.1
    · rw [Finmap.lookup_insert_of_ne _ same] at found
      exact inRange.2 key ttl found

/-- A call that does not raise the TTL past its maximum keeps every TTL in the range. -/
theorem driverStep_inRange {r : Route} {call : DriverCall} (inRange : TtlsInRange r)
    (bounded : RaiseBounded r call) : ∃ next, driverStep r call = some next ∧ TtlsInRange next := by
  obtain ⟨written, stepped, sameTtl, sameFlag, ttls⟩ := driverStep_spec r call
  refine ⟨_, stepped, ?_⟩
  cases balanced : call.balances with
  | none => exact ⟨by rw [Option.elim_none, sameTtl]; exact inRange.1, fun key ttl found =>
      ttlAllowed_of_lookup inRange ttls found⟩
  | some usage =>
    rw [Option.elim_some]
    refine ⟨?_, fun key ttl found => ?_⟩
    · have raises : RaisesTtl usage written ↔ RaisesTtl usage r := by rw [RaisesTtl, RaisesTtl, sameFlag]
      obtain ⟨lower, upper⟩ := inRange.1
      unfold TtlAllowed
      rcases agingTtlBalance_entryTtl usage written with ⟨raised, ttl⟩ | ⟨_, ttl | ⟨above, ttl⟩⟩
      · have below := bounded usage balanced (raises.mp raised)
        rw [ttl, sameTtl, BitVec.toNat_add, BitVec.toNat_ofNat]
        simp only [maxTtl] at *
        omega
      · rw [ttl, sameTtl]
        exact inRange.1
      · rw [sameTtl] at above
        rw [ttl, sameTtl, BitVec.toNat_sub, BitVec.toNat_ofNat]
        simp only [maxTtl] at *
        omega
    · rw [agingTtlBalance_entryTtls] at found
      exact ttlAllowed_of_lookup inRange ttls found

/-- A call that raises the TTL from its maximum leaves the range at once. -/
theorem driverStep_outOfRange {r next : Route} {call : DriverCall} (unbounded : ¬RaiseBounded r call)
    (stepped : driverStep r call = some next) : ¬TtlsInRange next := by
  obtain ⟨usage, balanced, raises, atMax⟩ :
      ∃ usage, call.balances = some usage ∧ RaisesTtl usage r ∧ r.entryTtl.toNat = maxTtl := by
    simpa [RaiseBounded] using unbounded
  obtain ⟨written, stepped', sameTtl, sameFlag, _⟩ := driverStep_spec r call
  obtain rfl := Option.some.inj (stepped'.symm.trans stepped)
  rintro ⟨⟨_, upper⟩, _⟩
  rw [balanced, Option.elim_some] at upper
  have raises' : RaisesTtl usage written := by
    rw [RaisesTtl, sameFlag]
    exact raises
  rcases agingTtlBalance_entryTtl usage written with ⟨_, ttl⟩ | ⟨lowered, _⟩
  · rw [ttl, sameTtl, BitVec.toNat_add, atMax] at upper
    exact absurd upper (by decide)
  · exact lowered raises'

/-- In every run of the callbacks the TTLs stay in the range of the idle table exactly when no
    balance raises the TTL from 50000. -/
theorem ttls_in_range_iff (calls : List DriverCall) :
    Always driverStep TtlsInRange .initial calls ↔ Guarded driverStep RaiseBounded .initial calls := by
  refine always_iff_guarded (fun _ => True) ?_ ?_ trivial ?_
  · intro r call _ inRange bounded
    obtain ⟨next, stepped, kept⟩ := driverStep_inRange inRange bounded
    exact ⟨next, stepped, trivial, kept⟩
  · exact fun r call next _ _ unbounded stepped => driverStep_outOfRange unbounded stepped
  · refine ⟨by unfold TtlAllowed; decide, fun key ttl found => ?_⟩
    exact absurd found (by simp [Route.initial])

def allAgedCall : DriverCall :=
  .idle bfAgedMarked ⟨65536, 65536, Nat.le_refl _, Nat.le_refl _⟩ ⟨0x0A000001, 0x0A000002⟩

theorem run_allAged (n : Nat) (r : Route) :
    ∃ final, run driverStep r (List.replicate n allAgedCall) = some final ∧
      final.entryTtl = r.entryTtl + BitVec.ofNat 64 n := by
  induction n generalizing r with
  | zero => exact ⟨r, rfl, by simp⟩
  | succ n inductionHypothesis =>
    have stepped : driverStep r allAgedCall =
        some { r with agedReplace := true, entryTtl := r.entryTtl + 1#64 } := by
      simp [driverStep, allAgedCall, idletimeCallback_eq, agingTtlBalance]
    obtain ⟨final, reached, ttl⟩ :=
      inductionHypothesis { r with agedReplace := true, entryTtl := r.entryTtl + 1#64 }
    refine ⟨final, by rw [List.replicate_succ, run, stepped]; exact reached, ?_⟩
    rw [ttl, BitVec.add_assoc, ← BitVec.ofNat_add, Nat.add_comm]

/-- After 45001 such notifications the TTL is 50001. -/
theorem ttl_leaves_range :
    ¬Always driverStep TtlsInRange .initial (List.replicate 45001 allAgedCall) := by
  intro always
  obtain ⟨final, reached, inRange⟩ := always.reaches
  obtain ⟨final', reached', ttl⟩ := run_allAged 45001 .initial
  obtain rfl := Option.some.inj (reached'.symm.trans reached)
  have upper := inRange.1.2
  rw [ttl] at upper
  exact absurd upper (by decide)

end Tao.Driver
