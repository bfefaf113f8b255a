import Mathlib.Data.List.DropRight
import Mathlib.Data.List.Sort
import Tao.Common.IpAddress
import Tao.Driver.Route
import Tao.Foundation.Digits
import Tao.Foundation.OrderedMap
import Tao.Foundation.Spans

/-! # The flows of a set of records (`cs_rules_aggregation.cpp`)

A file of records is read line by line.  What stands before the last comma of a line is
the id of a flow, and the ids are printed from an ordered map.  So they come out in order
and once each, in whatever order and however often the records of a flow are read.

Positions and counts are kept in `int`: a position is cut to 32 bits, and the overflow of
a count is undefined (`none`). -/

namespace Tao.Driver

open Tao.Foundation Tao.DataPlane
open Tao.Common (StdString stdToString)

/-- The order of `std::string`. -/
abbrev compareString : StdString → StdString → Ordering := compareOn (List.map Char.toNat)

structure PtT where
  pkt : BitVec 32
  stime : BitVec 32

/-- The variables of `main` that the loop changes. -/
structure FlowsetState where
  rules : Std.TreeMap StdString PtT compareString
  len : BitVec 32
  numOfRules : Int

/-- `pkts` and `st` are read from no line. -/
def pkts : BitVec 32 := 0

def st : BitVec 32 := 0

/-- `++` of an `int`. -/
def intIncrement (n : Int) : Option Int := if n < 2 ^ 31 - 1 then some (n + 1) else none

def npos : BitVec 64 := BitVec.allOnes 64

def findLastOf (a : StdString) (c : Char) : BitVec 64 :=
  if c ∈ a then BitVec.ofNat 64 (a.length - 1 - a.reverse.idxOf c) else npos

/-- `substr` from the front. -/
def substr (a : StdString) (count : BitVec 64) : StdString := a.take count.toNat

def flowid (a : StdString) : StdString :=
  let pos : BitVec 32 := (findLastOf a ',').setWidth 32
  -- `substr` takes a `size_t` again, so that a negative position is a large one
  substr a (pos.signExtend 64)

def readLine (s : FlowsetState) (a : StdString) : Option FlowsetState :=
  let rules :=
    match s.rules[flowid a]? with
    | some found => s.rules.insert (flowid a) ⟨found.pkt + pkts, if st < found.stime then st else found.stime⟩
    | none => s.rules.insert (flowid a) ⟨pkts, st⟩
  (intIncrement s.numOfRules).map fun numOfRules => ⟨rules, s.len + pkts, numOfRules⟩

/-- The lines that are printed into the file, and the two numbers that are printed then. -/
structure AggregatedFlowset where
  flows : List StdString
  numOfRules : Int
  numOfFlows : Int

def aggregateFlowset (lines : List StdString) : Option AggregatedFlowset :=
  match lines.foldlM readLine ⟨∅, 0, 0⟩ with
  | none => none
  | some s =>
    (s.rules.keys.foldlM (fun numOfFlows _ => intIncrement numOfFlows) 0).map fun numOfFlows =>
      ⟨s.rules.keys, s.numOfRules, numOfFlows⟩

/-! ## Lines -/

/-- What stands before the last comma of a line, or the whole line. -/
def beforeLastComma (a : StdString) : StdString := if ',' ∈ a then (a.rdropWhile (· ≠ ',')).dropLast else a

theorem beforeLastComma_cut {flow rest : StdString} (noComma : ',' ∉ rest) :
    beforeLastComma (flow ++ ',' :: rest) = flow := by
  have backwards := isSpan_separator (mt List.mem_reverse.mp noComma) flow.reverse
  have dropped : (flow ++ ',' :: rest).rdropWhile (· ≠ ',') = flow ++ [','] := by
    rw [List.rdropWhile, List.reverse_append, List.reverse_cons, List.append_assoc, List.singleton_append,
      backwards.dropWhile_eq, List.reverse_cons, List.reverse_reverse]
  rw [beforeLastComma, if_pos (List.mem_append_right _ List.mem_cons_self), dropped, List.dropLast_concat]

theorem findLastOf_cut {flow rest : StdString} (noComma : ',' ∉ rest) :
    findLastOf (flow ++ ',' :: rest) ',' = BitVec.ofNat 64 flow.length := by
  have behind : (flow ++ ',' :: rest).reverse.idxOf ',' = rest.length := by
    rw [List.reverse_append, List.reverse_cons, List.append_assoc, List.singleton_append,
      List.idxOf_append_of_notMem (mt List.mem_reverse.mp noComma), List.idxOf_cons_self, List.length_reverse,
      Nat.add_zero]
  rw [findLastOf, if_pos (List.mem_append_right _ List.mem_cons_self), behind, List.length_append, List.length_cons]
  congr 1
  omega

/-- A position below 2^31 goes through an `int` and back. -/
theorem substr_narrow {a : StdString} {n : Nat} (fits : n < 2 ^ 31) :
    substr a (((BitVec.ofNat 64 n).setWidth 32).signExtend 64) = a.take n := by
  have kept : (((BitVec.ofNat 64 n).setWidth 32).signExtend 64).toNat = n := by
    have positive : ((BitVec.ofNat 64 n).setWidth 32).msb = false := by
      rw [BitVec.msb_eq_false_iff_two_mul_lt, BitVec.toNat_setWidth, BitVec.toNat_ofNat]
      omega
    rw [BitVec.signExtend_eq_setWidth_of_msb_false positive, BitVec.toNat_setWidth, BitVec.toNat_setWidth,
      BitVec.toNat_ofNat]
    omega
  rw [substr, kept]

/-- In a line below 2^31 characters the id is what stands before the last comma. -/
theorem flowid_eq {a : StdString} (fits : a.length < 2 ^ 31) : flowid a = beforeLastComma a := by
  by_cases comma : ',' ∈ a
  · -- the last comma is the first one from behind
    obtain ⟨behind, front, split, noComma⟩ := List.eq_append_cons_of_mem (List.mem_reverse.mpr comma)
    obtain rfl : a = front.reverse ++ ',' :: behind.reverse := by
      rw [← List.reverse_reverse a, split, List.reverse_append, List.reverse_cons, List.append_assoc,
        List.singleton_append]
    have apart : ',' ∉ behind.reverse := mt List.mem_reverse.mp noComma
    rw [List.length_append] at fits
    rw [beforeLastComma_cut apart, flowid, findLastOf_cut apart]
    rw [substr_narrow (by omega), List.take_left]
  · have whole : (npos.setWidth 32).signExtend 64 = npos := by decide
    rw [flowid, findLastOf, if_neg comma, beforeLastComma, if_neg comma]
    rw [whole, substr, List.take_of_length_le (by simp [npos]; omega)]

/-- `key_string` of `learn_callback`. -/
def keyString (key : FlowKey) : StdString :=
  stdToString key.srcAddr.toNat ++ ",".toList ++ stdToString key.dstAddr.toNat

theorem keyString_injective : Function.Injective keyString := by
  intro x y same
  have apart : ∀ d : Fin 10, ',' ≠ d.1.digitChar := by decide
  have written (key : FlowKey) : keyString key = separated 10 ',' [key.srcAddr.toNat, key.dstAddr.toNat] := by
    rw [separated, List.map_cons, List.map_singleton, List.intercalate_cons_cons, List.intercalate_singleton]
    rfl
  rw [written, written] at same
  have numbers := separated_injective (by decide) (by decide) (fun d digit => apart ⟨d, digit⟩)
    (List.cons_ne_nil _ _) (List.cons_ne_nil _ _) same
  obtain ⟨source, rest⟩ := List.cons.inj numbers
  obtain ⟨destination, _⟩ := List.cons.inj rest
  cases x
  cases y
  rw [FlowKey.mk.injEq]
  exact ⟨BitVec.eq_of_toNat_eq source, BitVec.eq_of_toNat_eq destination⟩

/-! ## The map -/

instance : Std.LawfulEqCmp compareString where
  eq_of_compare same := by
    have codes := Std.compare_eq_iff_eq.mp same
    exact List.map_injective_iff.mpr (fun _ _ equal => Char.ext (UInt32.toNat_inj.mp equal)) codes

theorem compareString_ne_lt (flow : StdString) : compareString flow flow ≠ .lt := by
  have itself : compareString flow flow = .eq := Std.ReflCmp.compare_self
  rw [itself]
  decide

theorem readLine_cases {s s' : FlowsetState} {a : StdString} (read : readLine s a = some s') :
    (∀ flow, flow ∈ s'.rules ↔ flow = flowid a ∨ flow ∈ s.rules) ∧ s'.numOfRules = s.numOfRules + 1 := by
  obtain ⟨numOfRules, counted, rfl⟩ := Option.map_eq_some_iff.mp read
  refine ⟨fun flow => ?_, ?_⟩
  · dsimp only
    split <;> rw [Std.TreeMap.mem_insert, Std.LawfulEqCmp.compare_eq_iff_eq, eq_comm]
  · unfold intIncrement at counted
    split at counted
    · exact (Option.some.inj counted).symm
    · cases counted

theorem readLine_defined {s : FlowsetState} (room : s.numOfRules < 2 ^ 31 - 1) (a : StdString) :
    ∃ s', readLine s a = some s' := by
  rw [readLine, intIncrement, if_pos room]
  exact ⟨_, rfl⟩

/-- As long as the count has room, the lines are read, and their ids are what is added. -/
theorem readLines (lines : List StdString) (s : FlowsetState) (room : s.numOfRules + lines.length < 2 ^ 31) :
    ∃ s', lines.foldlM readLine s = some s' ∧ (∀ flow, flow ∈ s'.rules ↔ flow ∈ lines.map flowid ∨ flow ∈ s.rules) ∧
      s'.numOfRules = s.numOfRules + lines.length := by
  induction lines generalizing s with
  | nil => exact ⟨s, rfl, by simp, by simp⟩
  | cons a lines inductionHypothesis =>
    rw [List.length_cons] at room ⊢
    obtain ⟨next, read⟩ := readLine_defined (s := s) (by omega) a
    obtain ⟨added, counted⟩ := readLine_cases read
    obtain ⟨s', rest, addedRest, countedRest⟩ := inductionHypothesis next (by omega)
    refine ⟨s', ?_, fun flow => ?_, by omega⟩
    · rw [List.foldlM_cons, read]
      exact rest
    · rw [addedRest, added, List.map_cons, List.mem_cons, or_left_comm, or_assoc]

theorem intIncrement_length {α : Type} (l : List α) (n : Int) (room : n + l.length < 2 ^ 31) :
    l.foldlM (fun n _ => intIncrement n) n = some (n + l.length) := by
  induction l generalizing n with
  | nil => simp
  | cons a l inductionHypothesis =>
    rw [List.length_cons] at room ⊢
    rw [List.foldlM_cons, intIncrement, if_pos (by omega)]
    refine (inductionHypothesis (n + 1) (by omega)).trans (congrArg some ?_)
    omega

/-- A map has at most as many keys as there are lines that wrote to it. -/
theorem length_keys_le {lines : List StdString} {rules : Std.TreeMap StdString PtT compareString}
    (written : ∀ flow, flow ∈ rules ↔ flow ∈ lines.map flowid) : rules.keys.length ≤ lines.length := by
  have distinct : rules.keys.Nodup := Std.TreeMap.ordered_keys.imp fun less same => by
    rw [same] at less
    exact compareString_ne_lt _ less
  have inside : rules.keys ⊆ lines.map flowid := fun flow member =>
    (written flow).mp (Std.TreeMap.mem_keys.mp member)
  have fewer := (List.subperm_of_subset distinct inside).length_le
  rwa [List.length_map] at fewer

/-- The flows of the lines in order, each one once. -/
structure Aggregates (lines : List StdString) (out : AggregatedFlowset) : Prop where
  listed : ∀ flow, flow ∈ out.flows ↔ ∃ a ∈ lines, beforeLastComma a = flow
  ascending : out.flows.Pairwise fun flow later => compareString flow later = .lt
  flows : out.numOfFlows = out.flows.length
  rules : out.numOfRules = lines.length

theorem aggregateFlowset_aggregates {lines : List StdString} (fits : lines.length < 2 ^ 31)
    (narrow : ∀ a ∈ lines, a.length < 2 ^ 31) : ∃ out, aggregateFlowset lines = some out ∧ Aggregates lines out := by
  obtain ⟨s, read, added, counted⟩ := readLines lines ⟨∅, 0, 0⟩ (by dsimp only; omega)
  have written (flow : StdString) : flow ∈ s.rules ↔ flow ∈ lines.map flowid := by
    rw [added, or_iff_left Std.TreeMap.not_mem_emptyc]
  have few := length_keys_le written
  have total := intIncrement_length s.rules.keys 0 (by omega)
  refine ⟨⟨s.rules.keys, s.numOfRules, 0 + s.rules.keys.length⟩, ?_, fun flow => ?_, Std.TreeMap.ordered_keys, ?_, ?_⟩
  · rw [aggregateFlowset, read]
    dsimp only
    rw [total, Option.map_some]
  · dsimp only
    rw [Std.TreeMap.mem_keys, written, List.mem_map]
    exact exists_congr fun a => and_congr_right fun member => by rw [flowid_eq (narrow a member)]
  · exact Int.zero_add _
  · rw [counted]
    exact Int.zero_add _

/-- The ids decide what is printed. -/
theorem Aggregates.unique {lines others : List StdString} {out other : AggregatedFlowset}
    (aggregates : Aggregates lines out) (alsoAggregates : Aggregates others other)
    (same : ∀ flow, (∃ a ∈ lines, beforeLastComma a = flow) ↔ ∃ a ∈ others, beforeLastComma a = flow) :
    out.flows = other.flows := by
  have irreflexive : Std.Irrefl fun flow later => compareString flow later = .lt :=
    ⟨fun flow less => compareString_ne_lt flow less⟩
  have asymmetric : Std.Asymm fun flow later => compareString flow later = .lt :=
    ⟨fun flow later less more => by
      have swapped : compareString flow later = (compareString later flow).swap := Std.OrientedCmp.eq_swap
      rw [less, more] at swapped; cases swapped⟩
  refine aggregates.ascending.eq_of_mem_iff alsoAggregates.ascending fun flow => ?_
  rw [aggregates.listed, alsoAggregates.listed, same]

/-- A record of a flow: its key, a comma, and what does not have a comma. -/
def recordLine (record : FlowKey × StdString) : StdString := keyString record.1 ++ ',' :: record.2

theorem Aggregates.mem_flows {records : List (FlowKey × StdString)} {out : AggregatedFlowset}
    (aggregates : Aggregates (records.map recordLine) out) (plain : ∀ record ∈ records, ',' ∉ record.2) (flow : StdString) :
    flow ∈ out.flows ↔ ∃ key ∈ records.map Prod.fst, keyString key = flow := by
  rw [aggregates.listed]
  constructor
  · rintro ⟨a, read, rfl⟩
    obtain ⟨record, member, rfl⟩ := List.mem_map.mp read
    exact ⟨record.1, List.mem_map_of_mem member, (beforeLastComma_cut (plain record member)).symm⟩
  · rintro ⟨key, member, rfl⟩
    obtain ⟨record, recorded, rfl⟩ := List.mem_map.mp member
    exact ⟨recordLine record, List.mem_map_of_mem recorded, beforeLastComma_cut (plain record recorded)⟩

theorem Aggregates.card_flows {records : List (FlowKey × StdString)} {out : AggregatedFlowset}
    (aggregates : Aggregates (records.map recordLine) out) (plain : ∀ record ∈ records, ',' ∉ record.2) :
    out.numOfFlows = (records.map Prod.fst).toFinset.card := by
  have nodup : out.flows.Nodup := aggregates.ascending.imp fun less same => by
    rw [same] at less
    exact compareString_ne_lt _ less
  have images : out.flows.toFinset = (records.map Prod.fst).toFinset.image keyString := by
    ext flow
    rw [List.mem_toFinset, aggregates.mem_flows plain, Finset.mem_image]
    simp only [List.mem_toFinset]
  rw [aggregates.flows, ← List.toFinset_card_of_nodup nodup, images,
    Finset.card_image_of_injective _ keyString_injective]

/-- For every file with fewer than 2^31 lines, each below 2^31 characters, the flows are printed in order and
    once each, the order of the lines does not matter, and of a file of records the flows that are printed and
    counted are those of the records. -/
theorem flowset_aggregated (lines : List StdString) (fits : lines.length < 2 ^ 31)
    (narrow : ∀ a ∈ lines, a.length < 2 ^ 31) : ∃ out, aggregateFlowset lines = some out ∧ Aggregates lines out ∧
    (∀ others : List StdString, others.Perm lines → ∃ other, aggregateFlowset others = some other ∧
      other.flows = out.flows ∧ other.numOfRules = out.numOfRules ∧ other.numOfFlows = out.numOfFlows) ∧
    ∀ records : List (FlowKey × StdString), lines = records.map recordLine → (∀ record ∈ records, ',' ∉ record.2) →
      out.numOfFlows = (records.map Prod.fst).toFinset.card ∧
      ∀ key, keyString key ∈ out.flows ↔ key ∈ records.map Prod.fst := by
  obtain ⟨out, read, aggregates⟩ := aggregateFlowset_aggregates fits narrow
  refine ⟨out, read, aggregates, fun others permuted => ?_, ?_⟩
  · obtain ⟨other, readOther, aggregatesOther⟩ := aggregateFlowset_aggregates (permuted.length_eq ▸ fits)
      fun a member => narrow a (permuted.mem_iff.mp member)
    have same : other.flows = out.flows := aggregatesOther.unique aggregates fun flow => by
      simp only [permuted.mem_iff]
    refine ⟨other, readOther, same, ?_, ?_⟩
    · rw [aggregatesOther.rules, aggregates.rules, permuted.length_eq]
    · rw [aggregatesOther.flows, aggregates.flows, same]
  · rintro records rfl plain
    refine ⟨aggregates.card_flows plain, fun key => ?_⟩
    rw [aggregates.mem_flows plain]
    constructor
    · rintro ⟨other, member, same⟩
      rwa [← keyString_injective same]
    · intro member
      exact ⟨key, member, rfl⟩

def threeRecords : List (FlowKey × StdString) :=
  [(⟨0x0a000001, 0x0a000002⟩, "7".toList), (⟨0x0a000003, 0x0a000002⟩, "1".toList), (⟨0x0a000001, 0x0a000002⟩, "9".toList)]

theorem threeRecords_aggregated : ∃ out, aggregateFlowset (threeRecords.map recordLine) = some out ∧
    Aggregates (threeRecords.map recordLine) out ∧ out.numOfFlows = 2 ∧
    ∀ key, keyString key ∈ out.flows ↔ key ∈ threeRecords.map Prod.fst := by
  obtain ⟨out, read, aggregates, _, recorded⟩ := flowset_aggregated (threeRecords.map recordLine) (by decide)
    (by decide +kernel)
  obtain ⟨counted, printed⟩ := recorded threeRecords rfl (by decide)
  exact ⟨out, read, aggregates, counted, printed⟩

end Tao.Driver
