import Mathlib.Tactic.Linarith
import Tao.Common.IpPrefix
import Tao.Foundation.OrderedMap

/-! # The longest-prefix-match table (`lpm_trie.h`, `lpm_trie.cpp`)

A `Fib_Hash` has one ordered map for each length of prefix of each family, with the
subnets of that length as keys.  A lookup goes over the maps of a family from the
longest prefixes to the shortest and makes the key for each from the text of the address. -/

namespace Tao.Common

open Tao.Foundation

/-! ## The order of the keys -/

/-- What `operator<` looks at, in the order in which it does. -/
def IpAddress.orderKey : IpAddress → List Nat
  | v4 x => [2, (htonl x).toNat]
  | v6 x => 10 :: x.1.map BitVec.toNat

def IpPrefix.orderKey (p : IpPrefix) : List Nat := p.mMask :: p.mIp.orderKey

theorem memcmp_neg_iff {xs ys : List (BitVec 8)} (sameLength : xs.length = ys.length) :
    memcmp xs ys < 0 ↔ compare (xs.map BitVec.toNat) (ys.map BitVec.toNat) = .lt := by
  induction xs generalizing ys with
  | nil =>
    obtain rfl := List.length_eq_zero_iff.mp sameLength.symm
    exact iff_of_false (lt_irrefl _) (by decide)
  | cons x xs inductionHypothesis =>
    cases ys with
    | nil => cases sameLength
    | cons y ys =>
      rw [memcmp_cons_neg_iff, List.map_cons, List.map_cons, List.compare_cons_cons, Ordering.then_eq_lt,
        compare_lt_iff_lt, compare_eq_iff_eq, inductionHypothesis (Nat.succ.inj sameLength)]

theorem IpAddress.lt_iff (a b : IpAddress) : a.lt b = true ↔ compare a.orderKey b.orderKey = .lt := by
  cases a with
  | v4 x =>
    cases b with
    | v4 y => simp [lt, family, orderKey, List.compare_cons_cons, compare_lt_iff_lt]
    | v6 y => exact iff_of_true rfl rfl
  | v6 x =>
    cases b with
    | v4 y =>
      have greater : compare (v6 x).orderKey (v4 y).orderKey = .gt := rfl
      exact iff_of_false (by simp [lt, family]) (by rw [greater]; decide)
    | v6 y =>
      have bytes := memcmp_neg_iff (x.2.trans y.2.symm)
      simpa [lt, family, orderKey, List.compare_cons_cons] using bytes

theorem IpPrefix.lt_iff (p q : IpPrefix) : p.lt q = true ↔ compareOn orderKey p q = .lt := by
  unfold lt compareOn orderKey
  rw [List.compare_cons_cons, Ordering.then_eq_lt, compare_lt_iff_lt, compare_eq_iff_eq, ← IpAddress.lt_iff]
  split
  · next different => simp [different]
  · next same => simp [not_not.mp same]

theorem IpPrefix.cmpOfLt_lt : cmpOfLt lt = compareOn orderKey := cmpOfLt_eq lt_iff

instance : Std.TransCmp (cmpOfLt IpPrefix.lt) := IpPrefix.cmpOfLt_lt ▸ inferInstance

theorem IpAddress.orderKey_injective {a b : IpAddress} (same : a.orderKey = b.orderKey) : a = b := by
  cases a with
  | v4 x =>
    cases b with
    | v4 y =>
      simp only [orderKey, List.cons.injEq, and_true, true_and] at same
      rw [htonl_injective (BitVec.eq_of_toNat_eq same)]
    | v6 y => simp [orderKey] at same
  | v6 x =>
    cases b with
    | v4 y => simp [orderKey] at same
    | v6 y =>
      simp only [orderKey, List.cons.injEq, true_and] at same
      rw [Subtype.ext (List.map_injective_iff.mpr (fun _ _ => BitVec.eq_of_toNat_eq) same)]

/-- Two prefixes are the same key exactly when they are the same. -/
theorem IpPrefix.cmpOfLt_eq_iff {p q : IpPrefix} : cmpOfLt lt p q = .eq ↔ p = q := by
  rw [cmpOfLt_lt, compareOn, Std.compare_eq_iff_eq]
  constructor
  · intro same
    obtain ⟨mask, ip⟩ := List.cons.inj same
    exact ext (IpAddress.orderKey_injective ip) mask
  · exact congrArg orderKey

/-! ## The table -/

abbrev FibMap := Std.TreeMap IpPrefix StdString (cmpOfLt IpPrefix.lt)

structure FibHash where
  fibTable : List FibMap
  fib6Table : List FibMap
  size : fibTable.length = 33
  size6 : fib6Table.length = 129

namespace FibHash

def initial : FibHash where
  fibTable := List.replicate 33 ∅
  fib6Table := List.replicate 129 ∅
  size := List.length_replicate
  size6 := List.length_replicate

def getFibTable (s : FibHash) (isV4 : Bool) : List FibMap := if isV4 then s.fibTable else s.fib6Table

/-- A change of one map, by way of the reference to the table. -/
def updateFibMap (s : FibHash) (isV4 : Bool) (prefixlen : Nat) (f : FibMap → FibMap) : FibHash :=
  if isV4 then
    { s with fibTable := s.fibTable.modify prefixlen f, size := by rw [List.length_modify, s.size] }
  else
    { s with fib6Table := s.fib6Table.modify prefixlen f, size6 := by rw [List.length_modify, s.size6] }

section Operations

variable (inet : Inet)

/-- The search that `is_exist`, `modify` and `get` begin with.  A found entry is its key and its string. -/
def find (s : FibHash) (pre : IpPrefix) : Throws (Option (IpPrefix × StdString)) := do
  let fibTable := s.getFibTable pre.isV4
  let prefixlen := pre.getMaskLength
  if inside : prefixlen < fibTable.length then
    let tempmap := fibTable[prefixlen]
    let subnet ← pre.getSubnet inet
    return tempmap[subnet]?.map fun routeInfo => (subnet, routeInfo)
  else
    return none

def lpmTrieIsExist (s : FibHash) (pre : IpPrefix) : Throws Bool := do
  let it ← s.find inet pre
  return it.isSome

def lpmTrieModify (s : FibHash) (pre : IpPrefix) (routeInfo : StdString) : Throws (FibHash × Bool) := do
  match ← s.find inet pre with
  | some (key, _) =>
    return (s.updateFibMap pre.isV4 pre.getMaskLength fun tempmap => tempmap.insert key routeInfo, true)
  | none => return (s, false)

/-- `lpm_trie_get`, with the string that it puts out. -/
def lpmTrieGet (s : FibHash) (pre : IpPrefix) : Throws (Option StdString) := do
  let it ← s.find inet pre
  return it.map Prod.snd

def lpmTrieInsert (s : FibHash) (pre : IpPrefix) (routeInfo : StdString) : Throws (FibHash × Bool) := do
  let prefixlen := pre.getMaskLength
  if prefixlen ≥ (s.getFibTable pre.isV4).length then return (s, false)
  else
    let subnet ← pre.getSubnet inet
    return (s.updateFibMap pre.isV4 prefixlen fun tempmap => tempmap.insert subnet routeInfo, true)

/-- The loop of `lpm_trie_lookup` over the maps that are left. -/
def lookupLoop (ipstr : StdString) : List FibMap → Nat → Throws (Option StdString)
  | [], _ => return none
  | tempmap :: rest, prefixlen => do
    let prefixlen := prefixlen - 1
    let tempprefix ← IpPrefix.ofString inet (ipstr ++ stdToString prefixlen)
    let subnet ← tempprefix.getSubnet inet
    match tempmap[subnet]? with
    | some routeInfo => return some routeInfo
    | none => lookupLoop ipstr rest prefixlen

/-- `lpm_trie_lookup`, with the string that it puts out. -/
def lpmTrieLookup (s : FibHash) (dstIp : IpAddress) : Throws (Option StdString) :=
  let fibTable := s.getFibTable dstIp.isV4
  lookupLoop inet (dstIp.toString inet ++ "/".toList) fibTable.reverse fibTable.length

def lpmTrieDelete (s : FibHash) (pre : IpPrefix) : Throws (FibHash × Bool) := do
  if !(← s.lpmTrieIsExist inet pre) then return (s, true)
  else
    let prefixlen := pre.getMaskLength
    if prefixlen ≥ (s.getFibTable pre.isV4).length then return (s, false)
    else
      let subnet ← pre.getSubnet inet
      return (s.updateFibMap pre.isV4 prefixlen fun tempmap => tempmap.erase subnet, true)

end Operations

/-! ## What is stored -/

/-- The string that is stored for the subnet of a prefix. -/
def stored (s : FibHash) (p : IpPrefix) : Option StdString :=
  (s.getFibTable p.isV4)[p.mMask]?.bind fun tempmap => tempmap[p.subnet]?

theorem length_getFibTable (s : FibHash) (ip : IpAddress) : (s.getFibTable ip.isV4).length = ip.width + 1 := by
  cases ip with
  | v4 _ => exact s.size
  | v6 _ => exact s.size6

theorem mMask_lt_length (s : FibHash) (p : IpPrefix) : p.mMask < (s.getFibTable p.isV4).length := by
  have bound := p.mMask_le_width
  rw [IpPrefix.isV4, length_getFibTable]
  omega

theorem getFibTable_updateFibMap (s : FibHash) (isV4 other : Bool) (prefixlen : Nat) (f : FibMap → FibMap) :
    (s.updateFibMap isV4 prefixlen f).getFibTable other =
      if isV4 = other then (s.getFibTable other).modify prefixlen f else s.getFibTable other := by
  cases isV4 <;> cases other <;> rfl

theorem stored_initial (p : IpPrefix) : initial.stored p = none := by
  unfold stored
  rw [Option.bind_eq_none_iff]
  intro tempmap held
  have empty : tempmap = ∅ := by
    cases family : p.isV4 <;> rw [family] at held <;> exact List.eq_of_mem_replicate (List.mem_of_getElem? held)
  rw [empty, Std.TreeMap.getElem?_emptyc]

/-- A change at one key is seen by the prefixes of the network of that key, and by no others. -/
theorem stored_updateFibMap {s : FibHash} {p q : IpPrefix} {f : FibMap → FibMap} {value : Option StdString}
    (changes : ∀ (tempmap : FibMap) (key : IpPrefix),
      (f tempmap)[key]? = if p.subnet = key then value else tempmap[key]?) :
    (s.updateFibMap p.isV4 p.mMask f).stored q = if p.network = q.network then value else s.stored q := by
  have inside := s.mMask_lt_length q
  unfold stored
  rw [getFibTable_updateFibMap]
  by_cases same : p.network = q.network
  · have mask : p.mMask = q.mMask := by rw [← IpPrefix.length_network, same, IpPrefix.length_network]
    have family : p.isV4 = q.isV4 := congrArg Network.isV4 same
    rw [if_pos same, if_pos family, mask, List.getElem?_modify_eq, List.getElem?_eq_getElem inside]
    simp only [Option.map_eq_map, Option.map_some, Option.bind_some, changes, IpPrefix.subnet_eq_iff.mpr same,
      if_true]
  · rw [if_neg same]
    by_cases family : p.isV4 = q.isV4
    · rw [if_pos family]
      by_cases mask : p.mMask = q.mMask
      · have different : p.subnet ≠ q.subnet := fun equal => same (IpPrefix.subnet_eq_iff.mp equal)
        rw [mask, List.getElem?_modify_eq, List.getElem?_eq_getElem inside]
        simp only [Option.map_eq_map, Option.map_some, Option.bind_some, changes, if_neg different]
      · rw [List.getElem?_modify_ne _ _ mask]
    · rw [if_neg family]

end FibHash

end Tao.Common
