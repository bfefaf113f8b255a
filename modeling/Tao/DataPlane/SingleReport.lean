import Tao.DataPlane.ActiveFlow

/-! # A run is flagged at most once

The count of a bucket passes `HIT_COUNT` once in a run: it goes on to 255 and stays
there, and only a packet with another fingerprint takes it back to 1. -/

namespace Tao.DataPlane

open Tao.Foundation

/-- Between two packets of bucket `b` that raise `eflag`, the bucket sees a fingerprint other than
    that of the first. -/
def BrokenBetween (hashes : HashUnits) (b : HashBucket) (arrivals : List Arrival) : Prop :=
  ∀ before first between second rest, arrivals = before ++ first :: (between ++ second :: rest) →
    bucketOf hashes first = some b → bucketOf hashes second = some b →
    eflagOf hashes (ingressRun hashes .initial before) first = 1 →
    eflagOf hashes (ingressRun hashes .initial (before ++ first :: between)) second = 1 →
    ∃ other ∈ between, ∃ fingerprint, mappedFingerprint hashes b other = some fingerprint ∧
      mappedFingerprint hashes b first ≠ some fingerprint

/-- The packets of a sequence that are mapped to bucket `b` and raise `eflag`. -/
def eflags (hashes : HashUnits) (b : HashBucket) : SketchRegisters → List Arrival → Nat
  | _, [] => 0
  | regs, arrival :: rest =>
    (if bucketOf hashes arrival = some b ∧ eflagOf hashes regs arrival = 1 then 1 else 0) +
      eflags hashes b (ShcIngress.apply hashes regs arrival).1 rest

/-- Packets of which none leaves another fingerprint in bucket `b` leave copies of one there. -/
theorem history_of_uniform {hashes : HashUnits} {b : HashBucket} {fingerprint : BitVec 16}
    {arrivals : List Arrival} (uniform : ∀ arrival ∈ arrivals, ∀ other,
      mappedFingerprint hashes b arrival = some other → other = fingerprint) :
    ∃ n, history hashes b arrivals = List.replicate n fingerprint := by
  refine ⟨_, List.eq_replicate_of_mem fun print member => ?_⟩
  obtain ⟨arrival, listed, mapped⟩ := List.mem_filterMap.mp member
  exact uniform arrival listed print mapped

theorem brokenBetween (hashes : HashUnits) (b : HashBucket) (arrivals : List Arrival) :
    BrokenBetween hashes b arrivals := by
  intro before first between second rest _ firstHere secondHere firstFlagged secondFlagged
  obtain ⟨print, firstMapped⟩ := mapped_of_bucketOf firstHere
  obtain ⟨print', secondMapped⟩ := mapped_of_bucketOf secondHere
  by_contra unbroken
  push Not at unbroken
  obtain ⟨n, same⟩ : ∃ n, history hashes b between = List.replicate n print := by
    refine history_of_uniform fun arrival listed other mapped => ?_
    exact (Option.some.inj (firstMapped.symm.trans (unbroken arrival listed other mapped))).symm
  -- the first flagged packet ends a run of `HIT_COUNT`, which the packets in between only lengthen
  have firstRun := (eflag_after_run firstMapped).mp firstFlagged
  have secondRun := (eflag_after_run secondMapped).mp secondFlagged
  have seen : history hashes b (before ++ first :: between) =
      history hashes b before ++ [print] ++ List.replicate n print := by
    rw [List.append_cons, history_append, history_concat firstMapped, same]
  rw [history_concat firstMapped, ← List.cons_append] at firstRun
  rw [history_concat secondMapped, seen, ← List.cons_append, ← List.cons_append, ← List.cons_append]
    at secondRun
  by_cases continued : print' = print
  · rw [continued, List.append_assoc, ← List.replicate_succ', trailingRun_append_replicate,
      List.getLast?_concat, if_pos rfl, firstRun] at secondRun
    omega
  · have ended : (0 :: history hashes b before ++ [print] ++ List.replicate n print).getLast? =
        some print := by
      rw [List.append_assoc, List.singleton_append, ← List.replicate_succ, List.replicate_succ',
        ← List.append_assoc, List.getLast?_concat]
    rw [trailingRun_concat, ended, if_neg fun equal => continued (Option.some.inj equal).symm] at secondRun
    exact absurd secondRun (by decide)

/-! ## Uninterrupted runs -/

theorem exists_of_eflags {hashes : HashUnits} {b : HashBucket} {regs : SketchRegisters}
    {window : List Arrival} (some_flagged : 0 < eflags hashes b regs window) :
    ∃ earlier arrival rest, window = earlier ++ arrival :: rest ∧ bucketOf hashes arrival = some b ∧
      eflagOf hashes (ingressRun hashes regs earlier) arrival = 1 := by
  induction window generalizing regs with
  | nil => exact absurd some_flagged (Nat.lt_irrefl 0)
  | cons arrival rest inductionHypothesis =>
    rw [eflags] at some_flagged
    split at some_flagged
    next flagged => exact ⟨[], arrival, rest, rfl, flagged⟩
    next =>
      rw [Nat.zero_add] at some_flagged
      obtain ⟨earlier, other, later, rfl, here, flagged⟩ := inductionHypothesis some_flagged
      exact ⟨arrival :: earlier, other, later, rfl, here, flagged⟩

/-- As long as bucket `b` sees one fingerprint only, at most one of its packets raises `eflag`. -/
theorem eflags_of_uniform (hashes : HashUnits) {b : HashBucket} {fingerprint : BitVec 16}
    (before : List Arrival) {window : List Arrival} (uniform : ∀ arrival ∈ window, ∀ other,
      mappedFingerprint hashes b arrival = some other → other = fingerprint) :
    eflags hashes b (ingressRun hashes .initial before) window ≤ 1 := by
  induction window generalizing before with
  | nil => exact Nat.zero_le 1
  | cons first rest inductionHypothesis =>
    have joined : (ShcIngress.apply hashes (ingressRun hashes .initial before) first).1 =
        ingressRun hashes .initial (before ++ [first]) := by
      rw [ingressRun, ingressRun, List.foldl_append]; rfl
    have fewer := inductionHypothesis (before ++ [first])
      fun arrival listed => uniform arrival (List.mem_cons_of_mem _ listed)
    rw [eflags, joined]
    split
    next flagged =>
      -- a second flagged packet would need another fingerprint in between
      suffices none_later : ¬ 0 < eflags hashes b (ingressRun hashes .initial (before ++ [first])) rest by
        omega
      intro more
      obtain ⟨between, second, later, rfl, secondHere, secondFlagged⟩ := exists_of_eflags more
      have run : ingressRun hashes (ingressRun hashes .initial (before ++ [first])) between =
          ingressRun hashes .initial (before ++ first :: between) := by
        rw [ingressRun, ingressRun, ingressRun, ← List.foldl_append, List.append_assoc]; rfl
      rw [run] at secondFlagged
      obtain ⟨other, listed, print, mapped, different⟩ := brokenBetween hashes b _ before first between
        second later rfl flagged.1 secondHere flagged.2 secondFlagged
      obtain ⟨firstPrint, firstMapped⟩ := mapped_of_bucketOf flagged.1
      rw [firstMapped, uniform first List.mem_cons_self firstPrint firstMapped,
        uniform other (List.mem_cons_of_mem _ (List.mem_append_left _ listed)) print mapped] at different
      exact different rfl
    next => omega

/-- The sketch reports a run once: two flags of a bucket have a packet with another fingerprint
    between them, and an uninterrupted run of one flow, of any length and after any traffic, raises
    at most one. -/
theorem single_report (hashes : HashUnits) (b : HashBucket) (arrivals : List Arrival) :
    BrokenBetween hashes b arrivals ∧
    ∀ before window rest flow, arrivals = before ++ (window ++ rest) →
      (∀ arrival ∈ window, bucketOf hashes arrival = some b → flowOf arrival = some flow) →
      eflags hashes b (ingressRun hashes .initial before) window ≤ 1 := by
  refine ⟨brokenBetween hashes b arrivals, fun before window rest flow _ ofFlow => ?_⟩
  have uniform : ∀ arrival ∈ window, ∀ other,
      mappedFingerprint hashes b arrival = some other → other = fingerprintOf hashes flow := by
    intro arrival listed other mapped
    have here := bucketOf_of_mapped mapped
    rw [mappedFingerprint, if_pos here, ofFlow arrival listed here] at mapped
    exact (Option.some.inj mapped).symm
  exact eflags_of_uniform hashes before uniform

/-- Three hundred packets of one flow, more than the counter can count. -/
theorem long_run_flagged_once :
    eflags crc16Units 9 .initial (List.replicate 300 agedOutArrival) ≤ 1 := by
  refine (single_report crc16Units 9 (List.replicate 300 agedOutArrival)).2 [] _ [] plainFlow
    (by rw [List.nil_append, List.append_nil]) ?_
  intro arrival listed _
  obtain rfl := List.eq_of_mem_replicate listed
  decide +kernel

end Tao.DataPlane
