import Tao.Common.InetText
import Tao.Common.LpmTrie
import Tao.Foundation.LongestMatch
import Tao.Foundation.Simulation
import Tao.Foundation.Table

/-! # The table is a longest-prefix-match map

The table stands for a finite map from networks to strings.  A table represents the
map that has the string of each stored subnet at its network; the calls keep it so,
and the lookup of an address is the longest match of its bits. -/

namespace Tao.Common

open Tao.Foundation

/-! ## The two objects -/

inductive FibCall where
  | insert (pre : IpPrefix) (routeInfo : StdString)
  | modify (pre : IpPrefix) (routeInfo : StdString)
  | delete (pre : IpPrefix)

def FibHash.call (inet : Inet) (s : FibHash) : FibCall → Throws (FibHash × Bool)
  | .insert pre routeInfo => s.lpmTrieInsert inet pre routeInfo
  | .modify pre routeInfo => s.lpmTrieModify inet pre routeInfo
  | .delete pre => s.lpmTrieDelete inet pre

abbrev NetworkMap := Table Network StdString

def NetworkMap.call (t : NetworkMap) : FibCall → NetworkMap × Bool
  | .insert pre routeInfo => (t.insert pre.network routeInfo, true)
  | .modify pre routeInfo => if pre.network ∈ t then (t.insert pre.network routeInfo, true) else (t, false)
  | .delete pre => (t.erase pre.network, true)

/-- The strings that are stored for the networks of a family. -/
def NetworkMap.ofFamily (t : NetworkMap) (isV4 : Bool) (bits : Bits) : Option StdString := t.lookup ⟨isV4, bits⟩

/-- The queries of a table answer as longest-prefix match on the map does. -/
structure LongestPrefixMap (inet : Inet) (s : FibHash) (t : NetworkMap) : Prop where
  isExist : ∀ pre, s.lpmTrieIsExist inet pre = .ok (decide (pre.network ∈ t))
  get : ∀ pre, s.lpmTrieGet inet pre = .ok (t.lookup pre.network)
  lookup : ∀ dstIp routeInfo, s.lpmTrieLookup inet dstIp = .ok (some routeInfo) ↔
    LongestMatch (t.ofFamily dstIp.isV4) dstIp.bits routeInfo
  lookupNone : ∀ dstIp, s.lpmTrieLookup inet dstIp = .ok none ↔
    ∀ bits, bits <+: dstIp.bits → t.ofFamily dstIp.isV4 bits = none

/-- A table represents the map with the same strings. -/
def Represents (s : FibHash) (t : NetworkMap) : Prop := ∀ p : IpPrefix, s.stored p = t.lookup p.network

/-! ## The operations on what is stored -/

namespace FibHash

variable {inet : Inet} (documented : inet.Documented)
include documented

theorem find_eq (s : FibHash) (p : IpPrefix) :
    s.find inet p = .ok ((s.stored p).map fun routeInfo => (p.subnet, routeInfo)) := by
  have inside : p.getMaskLength < (s.getFibTable p.isV4).length := s.mMask_lt_length p
  have entry : (s.getFibTable p.isV4)[p.mMask]? = some (s.getFibTable p.isV4)[p.getMaskLength] :=
    List.getElem?_eq_getElem inside
  unfold find
  rw [dif_pos inside, IpPrefix.getSubnet_eq documented, stored, entry]
  rfl

theorem lpmTrieIsExist_eq (s : FibHash) (p : IpPrefix) : s.lpmTrieIsExist inet p = .ok (s.stored p).isSome := by
  unfold lpmTrieIsExist
  rw [find_eq documented]
  simp only [bind, Except.bind, pure, Except.pure, Option.isSome_map]

theorem lpmTrieGet_eq (s : FibHash) (p : IpPrefix) : s.lpmTrieGet inet p = .ok (s.stored p) := by
  unfold lpmTrieGet
  rw [find_eq documented]
  simp only [bind, Except.bind, pure, Except.pure, Option.map_map, Function.comp_def, Option.map_id']

theorem lpmTrieInsert_eq (s : FibHash) (p : IpPrefix) (routeInfo : StdString) :
    ∃ next, s.lpmTrieInsert inet p routeInfo = .ok (next, true) ∧
      ∀ q : IpPrefix, next.stored q = if p.network = q.network then some routeInfo else s.stored q := by
  have inside : ¬ p.getMaskLength ≥ (s.getFibTable p.isV4).length := Nat.not_le.mpr (s.mMask_lt_length p)
  refine ⟨s.updateFibMap p.isV4 p.mMask fun tempmap => tempmap.insert p.subnet routeInfo, ?_, fun q =>
    stored_updateFibMap fun tempmap key => ?_⟩
  · unfold lpmTrieInsert
    rw [if_neg inside, IpPrefix.getSubnet_eq documented]
    rfl
  · simp only [Std.TreeMap.getElem?_insert, IpPrefix.cmpOfLt_eq_iff]

theorem lpmTrieModify_eq (s : FibHash) (p : IpPrefix) (routeInfo : StdString) :
    ∃ next, s.lpmTrieModify inet p routeInfo = .ok (next, (s.stored p).isSome) ∧ ∀ q : IpPrefix,
      next.stored q = if p.network = q.network ∧ (s.stored p).isSome then some routeInfo else s.stored q := by
  unfold lpmTrieModify
  rw [find_eq documented]
  cases s.stored p with
  | none => exact ⟨s, rfl, fun q => by simp⟩
  | some old =>
    refine ⟨s.updateFibMap p.isV4 p.mMask fun tempmap => tempmap.insert p.subnet routeInfo, rfl, fun q => ?_⟩
    simp only [Option.isSome_some, and_true]
    refine stored_updateFibMap fun tempmap key => ?_
    simp only [Std.TreeMap.getElem?_insert, IpPrefix.cmpOfLt_eq_iff]

theorem lpmTrieDelete_eq (s : FibHash) (p : IpPrefix) :
    ∃ next, s.lpmTrieDelete inet p = .ok (next, true) ∧ ∀ q : IpPrefix,
      next.stored q = if p.network = q.network ∧ (s.stored p).isSome then none else s.stored q := by
  have inside : ¬ p.getMaskLength ≥ (s.getFibTable p.isV4).length := Nat.not_le.mpr (s.mMask_lt_length p)
  unfold lpmTrieDelete
  rw [lpmTrieIsExist_eq documented]
  cases s.stored p with
  | none => exact ⟨s, rfl, fun q => by simp⟩
  | some old =>
    refine ⟨s.updateFibMap p.isV4 p.mMask fun tempmap => tempmap.erase p.subnet, ?_, fun q => ?_⟩
    · rw [if_neg inside, IpPrefix.getSubnet_eq documented]
      rfl
    · simp only [Option.isSome_some, and_true]
      refine stored_updateFibMap fun tempmap key => ?_
      simp only [Std.TreeMap.getElem?_erase, IpPrefix.cmpOfLt_eq_iff]

/-! ## The lookup -/

/-- The loop over the maps of the lengths below `n` tries these lengths from the longest down. -/
theorem lookupLoop_eq {s : FibHash} {t : NetworkMap} (represented : Represents s t) (dstIp : IpAddress) {n : Nat}
    (low : n ≤ (s.getFibTable dstIp.isV4).length) :
    lookupLoop inet (dstIp.toString inet ++ "/".toList) ((s.getFibTable dstIp.isV4).take n).reverse n =
      .ok (matchBelow (t.ofFamily dstIp.isV4) dstIp.bits n) := by
  induction n with
  | zero => rfl
  | succ n inductionHypothesis =>
    have bound := s.length_getFibTable dstIp
    have valid : isValid dstIp n = true := isValid_iff.mpr (by omega)
    have maps : ((s.getFibTable dstIp.isV4).take (n + 1)).reverse =
        (s.getFibTable dstIp.isV4)[n] :: ((s.getFibTable dstIp.isV4).take n).reverse := by
      rw [List.take_succ_eq_append_getElem low, List.reverse_append, List.reverse_singleton, List.singleton_append]
    have parsed : IpPrefix.ofString inet (dstIp.toString inet ++ "/".toList ++ stdToString n) =
        .ok ⟨dstIp, n, valid⟩ := by
      rw [List.append_assoc]
      exact IpPrefix.ofString_text documented valid
    -- the key that is made from the text is the one of the prefix of length `n` of the address
    have found : (s.getFibTable dstIp.isV4)[n][(⟨dstIp, n, valid⟩ : IpPrefix).subnet]? =
        t.ofFamily dstIp.isV4 (dstIp.bits.take n) := by
      have entry : (s.getFibTable dstIp.isV4)[n]? = some (s.getFibTable dstIp.isV4)[n] :=
        List.getElem?_eq_getElem low
      have stored := represented ⟨dstIp, n, valid⟩
      rwa [FibHash.stored, IpPrefix.isV4, entry, Option.bind_some] at stored
    rw [maps, lookupLoop, matchBelow]
    simp only [Nat.add_sub_cancel, parsed, IpPrefix.getSubnet_eq documented, bind, Except.bind, found]
    cases t.ofFamily dstIp.isV4 (dstIp.bits.take n) with
    | some routeInfo => rfl
    | none => exact inductionHypothesis (Nat.le_of_succ_le low)

theorem lpmTrieLookup_eq {s : FibHash} {t : NetworkMap} (represented : Represents s t) (dstIp : IpAddress) :
    s.lpmTrieLookup inet dstIp = .ok (matchBelow (t.ofFamily dstIp.isV4) dstIp.bits (dstIp.bits.length + 1)) := by
  have all := lookupLoop_eq documented represented dstIp (Nat.le_refl (s.getFibTable dstIp.isV4).length)
  rw [List.take_length, s.length_getFibTable, ← dstIp.length_bits] at all
  rw [lpmTrieLookup, s.length_getFibTable, ← dstIp.length_bits]
  exact all

end FibHash

/-! ## The refinement -/

theorem represents_initial : Represents .initial ∅ := fun p => by
  rw [FibHash.stored_initial, Finmap.lookup_empty]

section Refinement

variable {inet : Inet} (documented : inet.Documented)
include documented

/-- A call of the table is simulated by the call of the map that it represents. -/
theorem call_simulated (s : FibHash) (t : NetworkMap) (c : FibCall) (represented : Represents s t) :
    ∃ next, s.call inet c = .ok (next, (t.call c).2) ∧ Represents next (t.call c).1 := by
  cases c with
  | insert pre routeInfo =>
    obtain ⟨next, called, after⟩ := FibHash.lpmTrieInsert_eq documented s pre routeInfo
    refine ⟨next, called, fun q => ?_⟩
    rw [after, NetworkMap.call, Table.lookup_insert_eq, represented q]
    simp only [eq_comm]
  | modify pre routeInfo =>
    obtain ⟨next, called, after⟩ := FibHash.lpmTrieModify_eq documented s pre routeInfo
    have present : (s.stored pre).isSome = true ↔ pre.network ∈ t := by
      rw [represented pre, Finmap.lookup_isSome]
    refine ⟨next, ?_, fun q => ?_⟩
    · rw [FibHash.call, called, NetworkMap.call]
      by_cases listed : pre.network ∈ t
      · rw [if_pos listed, present.mpr listed]
      · rw [if_neg listed, Bool.eq_false_iff.mpr (mt present.mp listed)]
    · rw [after, NetworkMap.call, represented q]
      by_cases listed : pre.network ∈ t
      · rw [if_pos listed, Table.lookup_insert_eq]
        simp only [present.mpr listed, and_true, eq_comm]
      · rw [if_neg listed, if_neg fun changed => listed (present.mp changed.2)]
  | delete pre =>
    obtain ⟨next, called, after⟩ := FibHash.lpmTrieDelete_eq documented s pre
    refine ⟨next, called, fun q => ?_⟩
    rw [after, NetworkMap.call, Table.lookup_erase_eq, represented q]
    by_cases same : pre.network = q.network
    · -- a network that is not stored is not there before the call either
      rw [if_pos same.symm, represented pre, same]
      cases held : t.lookup q.network with
      | none => simp
      | some old => simp
    · rw [if_neg fun both => same both.1, if_neg fun equal => same equal.symm]

theorem longestPrefixMap_of_represents {s : FibHash} {t : NetworkMap} (represented : Represents s t) :
    LongestPrefixMap inet s t where
  isExist pre := by
    rw [FibHash.lpmTrieIsExist_eq documented, represented pre]
    congr 1
    rw [Bool.eq_iff_iff, decide_eq_true_iff, Finmap.lookup_isSome]
  get pre := by rw [FibHash.lpmTrieGet_eq documented, represented pre]
  lookup dstIp routeInfo := by
    rw [FibHash.lpmTrieLookup_eq documented represented, ← matchBelow_longest, Except.ok.injEq]
  lookupNone dstIp := by
    rw [FibHash.lpmTrieLookup_eq documented represented, ← matchBelow_missing, Except.ok.injEq]

/-- A history of calls of an empty table has the answers of the map, and leaves a table that answers
    for the map that it leaves. -/
theorem fibHash_longestPrefixMap (calls : List FibCall) : ∃ s : FibHash,
    callAll (FibHash.call inet) .initial calls = .ok (s, (specCallAll NetworkMap.call ∅ calls).2) ∧
      LongestPrefixMap inet s (specCallAll NetworkMap.call ∅ calls).1 := by
  obtain ⟨s, called, represented⟩ := callAll_simulated (call_simulated documented) calls represents_initial
  exact ⟨s, called, longestPrefixMap_of_represents documented represented⟩

end Refinement

/-- `10.1.2.3/8`, then `10.1.2.3/16` twice, and then `10.0.0.0/8` again. -/
def tenNetworks : List FibCall :=
  [.insert ⟨.v4 0x0302010A#32, 8, rfl⟩ "core".toList, .insert ⟨.v4 0x0302010A#32, 16, rfl⟩ "edge".toList,
    .modify ⟨.v4 0x0302010A#32, 16, rfl⟩ "lab".toList, .delete ⟨.v4 0x0000000A#32, 8, rfl⟩]

/-- `10.1.9.9` and `10.2.9.9` are looked up after the calls. -/
theorem tenNetworks_longestPrefixMap : ∃ s : FibHash,
    callAll (FibHash.call .fullText) .initial tenNetworks = .ok (s, [true, true, true, true]) ∧
      s.lpmTrieLookup .fullText (.v4 0x0909010A#32) = .ok (some "lab".toList) ∧
      s.lpmTrieLookup .fullText (.v4 0x0909020A#32) = .ok none := by
  obtain ⟨s, called, answers⟩ := fibHash_longestPrefixMap Inet.fullText_documented tenNetworks
  refine ⟨s, called, (answers.lookup _ _).mpr (matchBelow_longest.mp ?_),
    (answers.lookupNone _).mpr (matchBelow_missing.mp ?_)⟩
  · decide +kernel
  · decide +kernel

end Tao.Common
