import Tao.Common.IpInterval
import Tao.Common.LpmTrie

/-! # Subnets as keys

`getSubnet` takes all prefixes of a network to one prefix, and `operator<` tells any two
prefixes apart that `operator==` does.  So an ordered map with subnets as keys has one
entry for each network. -/

namespace Tao.Common

open Tao.Foundation

instance : Std.LawfulEqCmp (cmpOfLt IpPrefix.lt) where
  eq_of_compare := IpPrefix.cmpOfLt_eq_iff.mp

namespace IpPrefix

variable {α : Type} {inet : Inet}

/-- The prefixes have one family and one length, and the one holds the address of the other. -/
def SameNetwork (p q : IpPrefix) : Prop :=
  p.mIp.family = q.mIp.family ∧ p.getMaskLength = q.getMaskLength ∧ p.isAddressInSubnet q.getIp = true

/-- A `std::map` that gets a value at the subnet of one prefix after the other. -/
def subnetMap (inet : Inet) (entries : List (IpPrefix × α)) :
    Throws (Std.TreeMap IpPrefix α (cmpOfLt IpPrefix.lt)) :=
  entries.foldlM (fun m entry => do
    let subnet ← entry.1.getSubnet inet
    return m.insert subnet entry.2) ∅

/-- Subnets are canonical, and are the keys of an ordered map for their networks. -/
structure SubnetsAreKeys (inet : Inet) : Prop where
  canonical : ∀ p q : IpPrefix, ∃ s t, p.getSubnet inet = .ok s ∧ q.getSubnet inet = .ok t ∧
    (s.beq t = true ↔ p.SameNetwork q)
  idempotent : ∀ p : IpPrefix, ∃ s, p.getSubnet inet = .ok s ∧ s.getSubnet inet = .ok s ∧
    s.getMaskLength = p.getMaskLength
  order : IsStrictTotalOrder IpPrefix fun p q => p.lt q = true
  equivalence : ∀ p q : IpPrefix, p.beq q = true ↔ p.lt q = false ∧ q.lt p = false
  oneEntry : ∀ {α : Type} (entries : List (IpPrefix × α)), ∃ m, subnetMap inet entries = .ok m ∧
    m.size = (entries.map fun entry => entry.1.network).toFinset.card ∧
    ∀ p s : IpPrefix, p.getSubnet inet = .ok s → (s ∈ m ↔ ∃ entry ∈ entries, p.SameNetwork entry.1)

/-! ## Networks -/

theorem sameNetwork_iff {p q : IpPrefix} : p.SameNetwork q ↔ p.network = q.network := by
  constructor
  · rintro ⟨family, length, inside⟩
    have masks : p.mMask = q.mMask := length
    rw [network, network, IpAddress.family_eq_iff.mp family, (isAddressInSubnet_iff family).mp inside, masks]
  · intro same
    obtain ⟨isV4, bits⟩ := Network.mk.inj same
    have family : p.mIp.family = q.mIp.family := IpAddress.family_eq_iff.mpr isV4
    have masks : p.mMask = q.mMask := by rw [← length_network, same, length_network]
    refine ⟨family, masks, (isAddressInSubnet_iff family).mpr ?_⟩
    rw [bits, ← masks]

theorem subnet_subnet (p : IpPrefix) : p.subnet.subnet = p.subnet := by
  have width : p.subnet.mIp.width = p.mIp.width := IpAddress.isV4_eq_iff.mp (subnet_isV4 p)
  have length : (p.mIp.bits.take p.mMask).length = p.mMask := p.length_network
  have kept : p.subnet.mIp.bits.take p.mMask = p.mIp.bits.take p.mMask := by
    rw [bits_subnet, List.take_append_of_le_length (Nat.le_of_eq length.symm), List.take_take, Nat.min_self]
  refine ext (IpAddress.bits_injective ?_) (subnet_mMask _)
  rw [bits_subnet p.subnet, subnet_mMask, kept, width, bits_subnet]

theorem network_subnet (p : IpPrefix) : p.subnet.network = p.network := subnet_eq_iff.mp (subnet_subnet p)

/-! ## The map -/

theorem subnetMap_eq (documented : inet.Documented) (entries : List (IpPrefix × α)) :
    subnetMap inet entries = .ok (filled _ (entries.map fun entry => (entry.1.subnet, entry.2))) := by
  unfold subnetMap filled
  generalize (∅ : Std.TreeMap IpPrefix α (cmpOfLt IpPrefix.lt)) = m
  induction entries generalizing m with
  | nil => rfl
  | cons entry entries inductionHypothesis =>
    rw [List.foldlM_cons, getSubnet_eq documented, List.map_cons, List.foldl_cons]
    exact inductionHypothesis (m.insert entry.1.subnet entry.2)

theorem card_subnets (prefixes : List IpPrefix) :
    (prefixes.map subnet).toFinset.card = (prefixes.map network).toFinset.card := by
  have networks : (prefixes.map network).toFinset = (prefixes.map subnet).toFinset.image network := by
    ext n
    simp [network_subnet]
  rw [networks, Finset.card_image_of_injOn]
  intro s subnetS t subnetT same
  obtain ⟨p, _, rfl⟩ := List.mem_map.mp (List.mem_toFinset.mp subnetS)
  obtain ⟨q, _, rfl⟩ := List.mem_map.mp (List.mem_toFinset.mp subnetT)
  rw [← subnet_subnet p, ← subnet_subnet q]
  exact subnet_eq_iff.mpr same

theorem subnetsAreKeys (documented : inet.Documented) : SubnetsAreKeys inet where
  canonical p q := by
    refine ⟨p.subnet, q.subnet, getSubnet_eq documented p, getSubnet_eq documented q, ?_⟩
    rw [beq_iff, subnet_eq_iff, sameNetwork_iff]
  idempotent p := by
    refine ⟨p.subnet, getSubnet_eq documented p, ?_, subnet_mMask p⟩
    rw [getSubnet_eq documented, subnet_subnet]
  order := isStrictTotalOrder_of_cmpOfLt
  equivalence p q := by rw [beq_iff, ← cmpOfLt_eq_iff, cmpOfLt_eq_eq]
  oneEntry := by
    intro α entries
    refine ⟨_, subnetMap_eq documented entries, ?_, fun p s found => ?_⟩
    · rw [size_filled, List.map_map]
      have keys : entries.map (Prod.fst ∘ fun entry => (entry.1.subnet, entry.2)) =
          (entries.map Prod.fst).map subnet := by rw [List.map_map]; rfl
      rw [keys, card_subnets, List.map_map]
      rfl
    · rw [getSubnet_eq documented] at found
      obtain rfl := Except.ok.inj found
      rw [mem_filled, List.map_map, List.mem_map]
      refine exists_congr fun entry => and_congr_right fun _ => ?_
      rw [sameNetwork_iff, ← subnet_eq_iff]
      exact eq_comm

/-- Two hosts of `10.1.2.0/24` are one entry. -/
theorem two_hosts_one_entry : ∃ m : Std.TreeMap IpPrefix Nat (cmpOfLt IpPrefix.lt),
    subnetMap .fullText [(⟨.v4 0x0302010A#32, 24, rfl⟩, 1), (⟨.v4 0x0402010A#32, 24, rfl⟩, 2)] = .ok m ∧
      m.size = 1 := by
  obtain ⟨m, filled, size, _⟩ := (subnetsAreKeys Inet.fullText_documented).oneEntry
    [(⟨.v4 0x0302010A#32, 24, rfl⟩, 1), (⟨.v4 0x0402010A#32, 24, rfl⟩, 2)]
  exact ⟨m, filled, size.trans (by decide +kernel)⟩

end IpPrefix

end Tao.Common
