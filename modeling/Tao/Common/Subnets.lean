import Tao.Common.LpmRefinement
import Tao.Common.SubnetKeys
import Tao.Foundation.Cylinders

/-! # Subnets as sets of addresses

The addresses that a prefix accepts are those that begin with its network bits.  So
subnets are nested or disjoint, and the lookup of an address finds the smallest of the
stored subnets that have it. -/

namespace Tao.Common

open Tao.Foundation

namespace IpPrefix

def isDefaultRoute (p : IpPrefix) : Bool := p.mMask = 0

def addresses (p : IpPrefix) : Set IpAddress := {a | p.isAddressInSubnet a = true}

def ofAddress (a : IpAddress) (mMask : Nat) (fits : mMask ≤ a.width) : IpPrefix := ⟨a, mMask, isValid_iff.mpr fits⟩

end IpPrefix

/-! ## Addresses with given bits -/

theorem exists_byteBits {n : Nat} {l : Bits} (length : l.length = 8 * n) :
    ∃ bytes : List (BitVec 8), bytes.length = n ∧ byteBits bytes = l := by
  induction n generalizing l with
  | zero => exact ⟨[], rfl, (List.length_eq_zero_iff.mp length).symm⟩
  | succ n inductionHypothesis =>
    obtain ⟨bytes, count, rest⟩ := @inductionHypothesis (l.drop 8) (by rw [List.length_drop]; omega)
    refine ⟨ofBits 8 l :: bytes, by rw [List.length_cons, count], ?_⟩
    rw [byteBits_cons, bits_ofBits (by omega), rest, List.take_append_drop]

theorem IpAddress.exists_bits (other : IpAddress) {l : Bits} (length : l.length = other.width) :
    ∃ a : IpAddress, a.isV4 = other.isV4 ∧ a.bits = l := by
  cases other with
  | v4 _ =>
    obtain ⟨bytes, count, same⟩ := @exists_byteBits 4 l length
    match bytes, count with
    | [first, second, third, fourth], _ =>
      refine ⟨.v4 (fourth ++ third ++ second ++ first), rfl, ?_⟩
      rw [bits, bytes_append, same]
  | v6 _ =>
    obtain ⟨bytes, count, same⟩ := @exists_byteBits 16 l length
    exact ⟨.v6 ⟨bytes, count⟩, rfl, same⟩

namespace IpPrefix

/-! ## Nested subnets -/

theorem mem_addresses {p : IpPrefix} {a : IpAddress} :
    a ∈ p.addresses ↔ a.isV4 = p.mIp.isV4 ∧ p.network.bits <+: a.bits := by
  by_cases sameFamily : p.mIp.family = a.family
  · have isV4 := IpAddress.family_eq_iff.mp sameFamily
    have fits : p.mMask ≤ a.bits.length := by
      rw [a.length_bits, ← IpAddress.isV4_eq_iff.mp isV4]
      exact p.mMask_le_width
    rw [addresses, Set.mem_ofPred_eq, isAddressInSubnet_iff sameFamily, List.prefix_iff_eq_take, length_network,
      and_iff_right isV4.symm]
    rfl
  · have different : ¬a.isV4 = p.mIp.isV4 := fun same => sameFamily (IpAddress.family_eq_iff.mpr same.symm)
    simp [addresses, isAddressInSubnet, sameFamily, different]

theorem bits_image_addresses (p : IpPrefix) :
    IpAddress.bits '' p.addresses = cylinder p.mIp.width p.network.bits := by
  ext l
  constructor
  · rintro ⟨a, inside, rfl⟩
    obtain ⟨isV4, begins⟩ := mem_addresses.mp inside
    exact ⟨by rw [a.length_bits, IpAddress.isV4_eq_iff.mp isV4], begins⟩
  · rintro ⟨length, begins⟩
    obtain ⟨a, isV4, rfl⟩ := p.mIp.exists_bits length
    exact ⟨a, mem_addresses.mpr ⟨isV4, begins⟩, rfl⟩

theorem self_mem_addresses (p : IpPrefix) : p.mIp ∈ p.addresses :=
  mem_addresses.mpr ⟨rfl, List.take_prefix _ _⟩

theorem addresses_subset_iff {p q : IpPrefix} :
    q.addresses ⊆ p.addresses ↔ q.mIp.isV4 = p.mIp.isV4 ∧ p.network.bits <+: q.network.bits := by
  have cylinders (isV4 : q.mIp.isV4 = p.mIp.isV4) :
      q.addresses ⊆ p.addresses ↔ p.network.bits <+: q.network.bits := by
    have width := IpAddress.isV4_eq_iff.mp isV4
    have images := bits_image_addresses q
    rw [width] at images
    rw [← Set.image_subset_image_iff fun _ _ => IpAddress.bits_injective, images, bits_image_addresses,
      cylinder_subset_iff]
    · rw [length_network, ← width]
      exact q.mMask_le_width
    · rw [length_network]
      exact p.mMask_le_width
  constructor
  · intro within
    have isV4 : q.mIp.isV4 = p.mIp.isV4 := (mem_addresses.mp (within q.self_mem_addresses)).1
    exact ⟨isV4, (cylinders isV4).mp within⟩
  · rintro ⟨isV4, begins⟩
    exact (cylinders isV4).mpr begins

/-- What one code function and the lengths say about two subnets. -/
theorem prefix_network_iff {p q : IpPrefix} :
    q.mIp.isV4 = p.mIp.isV4 ∧ p.network.bits <+: q.network.bits ↔
      p.isAddressInSubnet q.getIp = true ∧ p.getMaskLength ≤ q.getMaskLength := by
  have inside : p.isAddressInSubnet q.getIp = true ↔ q.mIp.isV4 = p.mIp.isV4 ∧ p.network.bits <+: q.mIp.bits :=
    mem_addresses
  have taken : q.network.bits <+: q.mIp.bits := List.take_prefix _ _
  rw [inside]
  constructor
  · rintro ⟨isV4, begins⟩
    have shorter := begins.length_le
    rw [length_network, length_network] at shorter
    exact ⟨⟨isV4, begins.trans taken⟩, shorter⟩
  · rintro ⟨⟨isV4, begins⟩, shorter⟩
    refine ⟨isV4, List.prefix_of_prefix_length_le begins taken ?_⟩
    rw [length_network, length_network]
    exact shorter

theorem addresses_nested_or_disjoint (p q : IpPrefix) :
    p.addresses ⊆ q.addresses ∨ q.addresses ⊆ p.addresses ∨ ∀ a ∈ p.addresses, a ∉ q.addresses := by
  by_cases together : ∃ a, a ∈ p.addresses ∧ a ∈ q.addresses
  · -- two beginnings of one address
    obtain ⟨a, inside, otherInside⟩ := together
    obtain ⟨isV4, begins⟩ := mem_addresses.mp inside
    obtain ⟨otherIsV4, otherBegins⟩ := mem_addresses.mp otherInside
    have sameFamily : p.mIp.isV4 = q.mIp.isV4 := isV4.symm.trans otherIsV4
    rcases List.prefix_or_prefix_of_prefix begins otherBegins with first | second
    · exact .inr (.inl (addresses_subset_iff.mpr ⟨sameFamily.symm, first⟩))
    · exact .inl (addresses_subset_iff.mpr ⟨sameFamily, second⟩)
  · exact .inr (.inr fun a inside other => together ⟨a, inside, other⟩)

theorem ncard_addresses (p : IpPrefix) : p.addresses.ncard = 2 ^ (p.mIp.width - p.mMask) := by
  rw [← Set.ncard_image_of_injective _ fun _ _ => IpAddress.bits_injective, bits_image_addresses, ncard_cylinder,
    length_network, Fintype.card_bool]
  rw [length_network]
  exact p.mMask_le_width

/-- Subnets are nested or disjoint, in the order of their lengths, and double with each bit less. -/
structure SubnetsNest (p q : IpPrefix) : Prop where
  nested : p.addresses ⊆ q.addresses ∨ q.addresses ⊆ p.addresses ∨ ∀ a ∈ p.addresses, a ∉ q.addresses
  within : q.addresses ⊆ p.addresses ↔ p.isAddressInSubnet q.getIp = true ∧ p.getMaskLength ≤ q.getMaskLength
  same : p.addresses = q.addresses ↔ p.SameNetwork q
  size : p.addresses.ncard = 2 ^ (p.mIp.width - p.getMaskLength)
  default : p.isDefaultRoute = true ↔ ∀ a, a.family = p.mIp.family → a ∈ p.addresses

/-- For any two prefixes of either family and any length, host bits or not. -/
theorem subnetsNest (p q : IpPrefix) : SubnetsNest p q where
  nested := addresses_nested_or_disjoint p q
  within := addresses_subset_iff.trans prefix_network_iff
  same := by
    rw [Set.Subset.antisymm_iff, addresses_subset_iff, addresses_subset_iff, sameNetwork_iff]
    constructor
    · rintro ⟨⟨isV4, begins⟩, _, otherBegins⟩
      have bits := begins.eq_of_length_le otherBegins.length_le
      exact (congrArg₂ Network.mk isV4 bits.symm :)
    · intro equal
      obtain ⟨isV4, bits⟩ := Network.mk.inj equal
      exact ⟨⟨isV4, by rw [equal]⟩, isV4.symm, by rw [equal]⟩
  size := p.ncard_addresses
  default := by
    constructor
    · intro isDefault a family
      have none : p.network.bits = [] := by
        rw [← List.length_eq_zero_iff, length_network]
        exact of_decide_eq_true isDefault
      rw [mem_addresses, none]
      exact ⟨IpAddress.family_eq_iff.mp family, List.nil_prefix⟩
    · intro all
      -- the prefix of length zero has no more addresses
      have within : (ofAddress p.mIp 0 (Nat.zero_le _)).addresses ⊆ p.addresses := fun a inside =>
        all a (IpAddress.family_eq_iff.mpr (mem_addresses.mp inside).1)
      have shorter := (addresses_subset_iff.mp within).2.length_le
      rw [length_network, length_network] at shorter
      exact decide_eq_true (Nat.le_zero.mp shorter)

end IpPrefix

/-! ## The most specific subnet -/

section Lookup

variable {inet : Inet}

open IpPrefix (ofAddress mem_addresses addresses_subset_iff length_network)

theorem network_ofAddress {a : IpAddress} {bits : Bits} (begins : bits <+: a.bits) :
    ∃ fits, (ofAddress a bits.length fits).network = ⟨a.isV4, bits⟩ := by
  have fits : bits.length ≤ a.width := by
    rw [← a.length_bits]
    exact begins.length_le
  exact ⟨fits, congrArg (Network.mk a.isV4) (List.prefix_iff_eq_take.mp begins).symm⟩

theorem ofAddress_mem {a : IpAddress} {mMask : Nat} (fits : mMask ≤ a.width) : a ∈ (ofAddress a mMask fits).addresses :=
  IpPrefix.self_mem_addresses (ofAddress a mMask fits)

/-- A lookup finds the string of the smallest of the stored subnets that have the address. -/
structure FindsMostSpecific (inet : Inet) (s : FibHash) (dstIp : IpAddress) : Prop where
  found : ∀ routeInfo, s.lpmTrieLookup inet dstIp = .ok (some routeInfo) ↔
    ∃ p : IpPrefix, s.lpmTrieGet inet p = .ok (some routeInfo) ∧ dstIp ∈ p.addresses ∧
      ∀ q : IpPrefix, s.lpmTrieIsExist inet q = .ok true → dstIp ∈ q.addresses → p.addresses ⊆ q.addresses
  missed : s.lpmTrieLookup inet dstIp = .ok none ↔
    ∀ q : IpPrefix, s.lpmTrieIsExist inet q = .ok true → dstIp ∉ q.addresses

theorem findsMostSpecific_of_map {s : FibHash} {t : NetworkMap} (answers : LongestPrefixMap inet s t)
    (dstIp : IpAddress) : FindsMostSpecific inet s dstIp := by
  have exists_iff (q : IpPrefix) : s.lpmTrieIsExist inet q = .ok true ↔ t.lookup q.network ≠ none := by
    rw [answers.isExist, Except.ok.injEq, decide_eq_true_eq, ← Finmap.lookup_isSome, Option.isSome_iff_ne_none]
  refine ⟨fun routeInfo => ?_, ?_⟩
  · rw [answers.lookup]
    constructor
    · rintro ⟨bits, begins, stored, longest⟩
      obtain ⟨fits, network⟩ := network_ofAddress begins
      refine ⟨ofAddress dstIp bits.length fits, ?_, ofAddress_mem fits, fun q present inside => ?_⟩
      · rw [answers.get, network]
        exact congrArg Except.ok stored
      · obtain ⟨isV4, otherBegins⟩ := mem_addresses.mp inside
        have there : t.ofFamily dstIp.isV4 q.network.bits ≠ none := by
          rw [NetworkMap.ofFamily, isV4]
          exact (exists_iff q).mp present
        refine addresses_subset_iff.mpr ⟨isV4, ?_⟩
        rw [network]
        exact List.prefix_of_prefix_length_le otherBegins begins (longest _ otherBegins there)
    · rintro ⟨p, got, inside, smallest⟩
      obtain ⟨isV4, begins⟩ := mem_addresses.mp inside
      rw [answers.get, Except.ok.injEq] at got
      refine ⟨p.network.bits, begins, ?_, fun bits otherBegins there => ?_⟩
      · rw [NetworkMap.ofFamily, isV4]
        exact got
      · obtain ⟨fits, network⟩ := network_ofAddress otherBegins
        have present : s.lpmTrieIsExist inet (ofAddress dstIp bits.length fits) = .ok true := by
          rw [exists_iff, network]
          exact there
        have within := (addresses_subset_iff.mp (smallest _ present (ofAddress_mem fits))).2
        rw [network] at within
        exact within.length_le
  · rw [answers.lookupNone]
    constructor
    · intro missing q present inside
      obtain ⟨isV4, begins⟩ := mem_addresses.mp inside
      have absent := missing _ begins
      rw [NetworkMap.ofFamily, isV4] at absent
      exact (exists_iff q).mp present absent
    · intro missing bits begins
      obtain ⟨fits, network⟩ := network_ofAddress begins
      by_contra there
      refine missing (ofAddress dstIp bits.length fits) ?_ (ofAddress_mem fits)
      rw [exists_iff, network]
      exact there

/-- After every history of calls of an empty table, the lookup of every address finds the most specific of
    the subnets that are stored. -/
theorem lookups_most_specific (documented : inet.Documented) (calls : List FibCall) : ∃ s answers,
    callAll (FibHash.call inet) .initial calls = .ok (s, answers) ∧ ∀ dstIp, FindsMostSpecific inet s dstIp := by
  obtain ⟨s, called, represented⟩ := callAll_simulated (call_simulated documented) calls represents_initial
  exact ⟨s, _, called, findsMostSpecific_of_map (longestPrefixMap_of_represents documented represented)⟩

/-- After two networks were inserted, one in the other, the inner one changed and the outer one deleted. -/
theorem tenNetworks_most_specific : ∃ s answers,
    callAll (FibHash.call .fullText) .initial tenNetworks = .ok (s, answers) ∧
      ∀ dstIp, FindsMostSpecific .fullText s dstIp :=
  lookups_most_specific Inet.fullText_documented tenNetworks

end Lookup

end Tao.Common
